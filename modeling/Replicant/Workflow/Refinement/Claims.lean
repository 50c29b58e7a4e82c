import Replicant.Workflow.AllocationTheorems

/-!
# Claim operations are changes

What the fallible statements do when they succeed, and the sequences of changes that the
claim operations make.
-/

namespace Replicant.Workflow

open Lib Tx

variable {x : Unit} {rs : List ResourceKey} {t : Terms} {w : WorkflowId} {now : ℤ}

/-! ## Statements that succeed -/

section Statements

variable {β : Type} {s s' : Repo} {r : β × Repo}

variable {u : IdSource}

lemma drawUuid_eq_ok {id : Uuid} :
    drawUuid u s = .ok (id, s') ↔ id = u.draw s.uuidsDrawn ∧ s' = s.drawn := by
  simp only [drawUuid, Repo.drawn, Except.ok.injEq, Prod.mk.injEq, eq_comm]

lemma bind_drawUuid {f : Uuid → Tx β} :
    (drawUuid u >>= f) s = f (u.draw s.uuidsDrawn) s.drawn := rfl

variable {id : WorkflowId}

lemma requireWorkflow_eq_ok {w : WorkflowRow} :
    requireWorkflow id s = .ok (w, s') ↔ (w ∈ s.workflows ∧ w.id = id) ∧ s' = s := by
  rw [← Table.find?_eq_some, requireWorkflow, bind_query, require_eq_ok]

lemma bind_requireWorkflow {f : WorkflowRow → Tx β} :
    (requireWorkflow id >>= f) s = .ok r ↔ ∃ w, (w ∈ s.workflows ∧ w.id = id) ∧ f w s = .ok r := by
  simp only [bind_eq_ok, requireWorkflow_eq_ok, and_assoc, exists_and_left, exists_eq_left]

variable {id : WorkItemId}

lemma requireWorkItem_eq_ok {i : WorkItem} :
    requireWorkItem id s = .ok (i, s') ↔ (i ∈ s.items ∧ i.id = id) ∧ s' = s := by
  rw [← Table.find?_eq_some, requireWorkItem, bind_query, require_eq_ok]

lemma bind_requireWorkItem {f : WorkItem → Tx β} :
    (requireWorkItem id >>= f) s = .ok r ↔ ∃ i, (i ∈ s.items ∧ i.id = id) ∧ f i s = .ok r := by
  simp only [bind_eq_ok, requireWorkItem_eq_ok, and_assoc, exists_and_left, exists_eq_left]

lemma insertWorkflowRow_spec {row : WorkflowRow} (h : insertWorkflowRow row s = .ok (x, s')) :
    s.workflows.hasKey row.id = false ∧ s' = s.insertWorkflow row := by
  simp only [insertWorkflowRow, bind_ensure, bind_query, execute_eq_ok, Bool.not_eq_true] at h
  exact ⟨h.2.1, h.2.2.2⟩

lemma insertClaimRow_spec {row : ClaimRow} (h : insertClaimRow row s = .ok (x, s')) :
    s.claims.hasKey row.resource = false ∧ s' = s.insertClaim row := by
  simp only [insertClaimRow, bind_ensure, bind_query, execute_eq_ok, Bool.not_eq_true] at h
  exact h

lemma insertItemRow_spec {row : WorkItem} (h : insertItemRow row s = .ok (x, s')) :
    s.items.hasKey row.id = false ∧ (∀ i ∈ s.items, i.spec.workflowId = row.spec.workflowId →
        i.spec.dedupeKey ≠ row.spec.dedupeKey) ∧ s' = s.insertItem row := by
  simp only [insertItemRow, bind_ensure, bind_query, execute_eq_ok, Bool.not_eq_true,
    List.any_eq_false, Bool.and_eq_true, decide_eq_true_eq, not_and] at h
  exact h

lemma insertAttemptRow_spec {row : AttemptRow} (h : insertAttemptRow row s = .ok (x, s')) :
    s.attempts.hasKey row.identity = false ∧ s' = s.insertAttempt row := by
  simp only [insertAttemptRow, bind_ensure, bind_query, execute_eq_ok, Bool.not_eq_true] at h
  exact ⟨h.1, h.2.2⟩

lemma insertAllocationRow_spec {row : AllocationRow} (h : insertAllocationRow row s = .ok (x, s')) :
    0 < row.quantity ∧ s.allocations.hasKey row.id = false ∧ s' = s.insertAllocation row := by
  simp only [insertAllocationRow, bind_ensure, bind_query, execute_eq_ok, Bool.not_eq_true] at h
  exact ⟨h.1, h.2.1, h.2.2.2⟩

lemma insertAssignmentRow_spec {row : AssignmentRow} (h : insertAssignmentRow row s = .ok (x, s')) :
    s.assignments.hasKey row.id = false ∧ s' = s.insertAssignment row := by
  simp only [insertAssignmentRow, bind_ensure, bind_query, execute_eq_ok, Bool.not_eq_true] at h
  exact ⟨h.1, h.2.2.2⟩

lemma bind_requireClaimOwner {w : WorkflowId} {f : Unit → Tx β} :
    (requireClaimOwner w >>= f) s = .ok r ↔ Live s.workflows w ∧ f () s = .ok r := by
  simp only [requireClaimOwner, bind_assoc, bind_requireWorkflow, bind_ensure, Live]
  constructor
  · rintro ⟨row, ⟨hrow, hid⟩, hlive, hrest⟩
    exact ⟨⟨row, hrow, hid, hlive⟩, hrest⟩
  · rintro ⟨⟨row, hrow, hid, hlive⟩, hrest⟩
    exact ⟨row, ⟨hrow, hid⟩, hlive, hrest⟩

end Statements

/-! ## Acquisition -/

section Acquisition

variable {u : IdSource} {s s' : Repo}

/-- The workflow comes to hold the resource: by a claim it has had under the stored spelling, or by
a new one under the wanted. -/
inductive Acquires (s : Repo) (w : WorkflowId) (now : ℤ) (wanted : ResourceIdentity) : Repo → Prop
  | again (c : ClaimRow) (hc : c ∈ s.claims) (hphys : PhysicallyEqual wanted c.resource) :
    Acquires s w now wanted (s.touchClaim c.resource now)
  | first (hfresh : s.claims.hasKey wanted = false) :
    Acquires s w now wanted (s.insertClaim ⟨wanted, w, now, now⟩)

variable {wanted : ResourceIdentity}

lemma Acquires.refines (h : Acquires s w now wanted s')
    (hlive : Live s.workflows w) (hconf : s.physicalClaimConflict wanted w = none) :
    Changes u t s s' ∧ s'.workflows = s.workflows := by
  cases h with
  | again => exact ⟨.single (.touchClaims _ _ _), rfl⟩
  | first hfresh => exact ⟨.single (.insertClaim _ _ hfresh hlive hconf), rfl⟩

variable {r : ResourceKey} {o : ClaimAcquireOutcome}

/-- No other workflow holds what is acquired. -/
lemma acquireClaimIn_spec
    (h : acquireClaimIn w now r s = .ok (o, s')) : ∃ wanted, r.persistedParts = .ok wanted ∧
      s.physicalClaimConflict wanted w = none ∧ Acquires s w now wanted s' := by
  simp only [acquireClaimIn, bind_check, bind_query, bind_reject] at h
  obtain ⟨wanted, hparts, hconf, h⟩ := h
  refine ⟨wanted, hparts, hconf, ?_⟩
  cases hfind : s.claims.rows.find? fun c => wanted.matches c.resource with
  | some c =>
    simp only [hfind, bind_ensure, bind_execute, pure_eq_ok] at h
    obtain ⟨-, -, rfl⟩ := h
    have hmatches := List.find?_some hfind
    exact .again c (List.mem_of_find?_eq_some hfind) (matches_iff.mp hmatches)
  | none =>
    simp only [hfind, bind_eq_ok, pure_eq_ok] at h
    obtain ⟨_, x, hinsert, -, rfl⟩ := h
    obtain ⟨hfresh, rfl⟩ := insertClaimRow_spec hinsert
    exact .first hfresh

lemma acquireClaims_refines {os : List ClaimAcquireOutcome}
    (h : acquireClaims w rs now s = .ok (os, s')) : Changes u t s s' := by
  rw [acquireClaims, bind_requireClaimOwner] at h
  obtain ⟨hlive, hloop⟩ := h
  -- Along the loop the owner stays alive, since no claim touches the workflows.
  have hend := mapM_induction
    (P := fun x => Changes u t s x ∧ x.workflows = s.workflows) ?_ ⟨.refl, rfl⟩ hloop
  · exact hend.1
  · rintro r - x y o ⟨hxs, hxw⟩ hstep
    obtain ⟨wanted, -, hconf, hacquires⟩ := acquireClaimIn_spec hstep
    obtain ⟨hxy, hyw⟩ := hacquires.refines (by rw [hxw]; exact hlive) hconf
    exact ⟨hxs.trans hxy, by rw [hyw, hxw]⟩

variable {reserve : List ResourceKey} {minimum : ℕ}

lemma when_requireReserve_spec
    (h : Tx.when (0 < minimum) (requireReserve wanted reserve minimum) s = .ok (x, s')) :
    s' = s ∧ (0 < minimum → ∃ candidates, reserve.mapM ResourceKey.persistedParts = .ok candidates ∧
        minimum ≤ (s.availableReserve wanted candidates).length) := by
  rcases when_eq_ok.mp h with ⟨-, h⟩ | ⟨hzero, rfl⟩
  · simp only [requireReserve, bind_check, bind_query, ensure_eq_ok] at h
    obtain ⟨candidates, hparts, henough, rfl⟩ := h
    exact ⟨rfl, fun _ => ⟨candidates, hparts, henough⟩⟩
  · exact ⟨rfl, fun hpos => absurd hpos hzero⟩

variable (h : acquireClaimPreservingReserve w r reserve minimum now s = .ok (o, s'))

include h

/-- The reserve is large enough without the resource. -/
lemma acquireClaimPreservingReserve_spec :
    Live s.workflows w ∧ ∃ wanted, r.persistedParts = .ok wanted ∧
      s.physicalClaimConflict wanted w = none ∧
      (0 < minimum → ∃ candidates, reserve.mapM ResourceKey.persistedParts = .ok candidates ∧
        minimum ≤ (s.availableReserve wanted candidates).length) ∧ Acquires s w now wanted s' := by
  simp only [acquireClaimPreservingReserve, bind_check, bind_query, bind_reject,
    bind_requireClaimOwner] at h
  obtain ⟨wanted, hparts, hlive, hconf, h⟩ := h
  rw [bind_eq_ok] at h
  obtain ⟨_, x, hreserve, h⟩ := h
  obtain ⟨rfl, henough⟩ := when_requireReserve_spec hreserve
  refine ⟨hlive, wanted, hparts, hconf, henough, ?_⟩
  rw [bind_query] at h
  cases hfind : x.claims.find? wanted with
  | some c =>
    simp only [hfind, bind_ensure, bind_execute, pure_eq_ok] at h
    obtain ⟨-, -, rfl⟩ := h
    obtain ⟨hc, hkey⟩ := Table.find?_eq_some.mp hfind
    rw [← hkey]
    exact .again c hc (.refl _)
  | none =>
    simp only [hfind, bind_eq_ok, pure_eq_ok] at h
    obtain ⟨_, y, hinsert, -, rfl⟩ := h
    obtain ⟨hfresh, rfl⟩ := insertClaimRow_spec hinsert
    exact .first hfresh

lemma acquireClaimPreservingReserve_refines : Changes u t s s' := by
  obtain ⟨hlive, wanted, -, hconf, -, hacquires⟩ := acquireClaimPreservingReserve_spec h
  exact (hacquires.refines hlive hconf).1

end Acquisition

/-! ## Handoffs -/

/-- The handoff of one resource that nobody else has: the destination is the only one that has it,
or the claims of the source on it, which no active allocation names, become claims of the
destination. -/
lemma transferClaimIn_iff {s s' : Repo} {source dest : WorkflowId} {now : ℤ} {r : ResourceKey} :
    transferClaimIn source dest now r s = .ok ((), s') ↔ ∃ wanted, r.persistedParts = .ok wanted ∧
      (∀ c ∈ s.claims, PhysicallyEqual wanted c.resource →
        c.workflowId = source ∨ c.workflowId = dest) ∧
      ((s.Holds dest wanted ∧ ¬ s.Holds source wanted ∧ s' = s) ∨ (s.Holds source wanted ∧
          (∀ a ∈ s.allocations, a.state = .active → ¬ PhysicallyEqual wanted a.resource) ∧
          s' = s.moveClaims source dest wanted now)) := by
  have howners : ∀ (wanted : ResourceIdentity) (w : WorkflowId), w ∈
      (s.claims.rows.filter fun c => wanted.matches c.resource).map (·.workflowId) ↔
        s.Holds w wanted := by
    intro wanted w
    simp only [List.mem_map, List.mem_filter, matches_iff, and_assoc]
    exact Iff.rfl
  simp only [transferClaimIn, bind_check, bind_query, bind_reject]
  refine exists_congr fun wanted => and_congr_right fun _ => and_congr ?_ ?_
  · simp only [List.find?_eq_none, List.mem_map, List.mem_filter, matches_iff, Bool.and_eq_true,
      decide_eq_true_eq, not_and_or, not_not]
    constructor
    · exact fun h c hc hphys => h c.workflowId ⟨c, ⟨hc, hphys⟩, rfl⟩
    · rintro h _ ⟨c, ⟨hc, hphys⟩, rfl⟩
      exact h c hc hphys
  · split
    · next hdone =>
      rw [howners, howners] at hdone
      simp [pure_eq_ok, hdone.1, hdone.2]
    · next hopen =>
      rw [howners, howners] at hopen
      simp only [bind_ensure, bind_query, howners, execute_eq_ok, List.any_eq_true, Bool.and_eq_true,
        matches_iff, decide_eq_true_eq, not_exists, not_and]
      constructor
      · rintro ⟨hsrc, hfree, rfl⟩
        exact .inr ⟨hsrc, fun a ha hact hphys => hfree a ha hphys hact, rfl⟩
      · rintro (⟨hdest, hsrc, -⟩ | ⟨hsrc, hfree, rfl⟩)
        · exact absurd ⟨hdest, hsrc⟩ hopen
        · exact ⟨hsrc, fun a ha hphys hact => hfree a ha hact hphys, rfl⟩

section Handoff

variable {u : IdSource} {s s' : Repo} {source dest : WorkflowId}

lemma transferClaimIn_refines {r : ResourceKey} (hlive : Live s.workflows dest)
    (h : transferClaimIn source dest now r s = .ok ((), s')) :
    Changes u t s s' ∧ s'.workflows = s.workflows := by
  obtain ⟨wanted, -, howners, ⟨-, -, rfl⟩ | ⟨-, hfree, rfl⟩⟩ := transferClaimIn_iff.mp h
  · exact ⟨.refl, rfl⟩
  · exact ⟨.single (.handOff _ _ _ _ _ hlive howners hfree), rfl⟩

/-- One workflow is the parent of the other, and the second can own claims. -/
def Repo.Related (s : Repo) (source dest : WorkflowId) : Prop :=
  ∃ v ∈ s.workflows, v.id = source ∧ ∃ w ∈ s.workflows, w.id = dest ∧
    w.status.isTerminal = false ∧ (v.parentId = some dest ∨ w.parentId = some source)

lemma Repo.Related.live (h : s.Related source dest) : Live s.workflows dest := by
  obtain ⟨-, -, -, w, hw, hid, hlive, -⟩ := h
  exact ⟨w, hw, hid, hlive⟩

/-- The handoff goes through the resources, between workflows that are related. -/
lemma transferClaimsIn_iff : transferClaimsIn source dest rs now s = .ok ((), s') ↔
    s.Related source dest ∧ forM rs (transferClaimIn source dest now) s = .ok ((), s') := by
  simp only [transferClaimsIn, bind_requireWorkflow, bind_ensure, Repo.Related]
  constructor
  · rintro ⟨v, hv, w, hw, hlive, hpar, hloop⟩
    exact ⟨⟨v, hv.1, hv.2, w, hw.1, hw.2, hlive, hpar⟩, hloop⟩
  · rintro ⟨⟨v, hv, hvid, w, hw, hwid, hlive, hpar⟩, hloop⟩
    exact ⟨v, ⟨hv, hvid⟩, w, ⟨hw, hwid⟩, hlive, hpar, hloop⟩

lemma transferClaimsIn_refines (h : transferClaimsIn source dest rs now s = .ok ((), s')) :
    Changes u t s s' ∧ s'.workflows = s.workflows := by
  obtain ⟨hrelated, hloop⟩ := transferClaimsIn_iff.mp h
  refine forM_induction (P := fun x => Changes u t s x ∧ x.workflows = s.workflows)
    ?_ ⟨.refl, rfl⟩ hloop
  rintro r - x y ⟨hxs, hxw⟩ hstep
  obtain ⟨hxy, hyw⟩ := transferClaimIn_refines (by rw [hxw]; exact hrelated.live) hstep
  exact ⟨hxs.trans hxy, by rw [hyw, hxw]⟩

end Handoff

/-! ## Release -/

section Release

variable {u : IdSource} {s s' : Repo}

lemma releaseClaim_refines {r : ResourceKey} {released : Bool}
    (ht : t.custodial → ∀ c ∈ s.claims, c.workflowId = w → c.resource.resource = r →
      s.isNeeded c = false) (h : releaseClaim w r s = .ok (released, s')) : Changes u t s s' := by
  simp only [releaseClaim, bind_check, bind_query, bind_execute, pure_eq_ok] at h
  obtain ⟨wanted, hparts, -, rfl⟩ := h
  refine .single (.deleteClaims _ _ fun hcust c hc hp => ?_)
  simp only [Bool.and_eq_true, decide_eq_true_eq] at hp
  refine ht hcust c hc hp.2 ?_
  rw [hp.1, ResourceKey.resource_of_persistedParts hparts]

variable {released : ℕ}

lemma releaseClaims_refines
    (ht : t.custodial → ∀ c ∈ s.claims, c.workflowId = w → s.isNeeded c = false)
    (h : releaseClaims w s = .ok (released, s')) : Changes u t s s' := by
  obtain ⟨-, rfl⟩ := h
  exact .single (.deleteClaims _ _ fun hcust c hc hp => ht hcust c hc (by simpa using hp))

/-- Startup reconciliation finds no stale claim: every owner is alive. -/
lemma reconcileClaims_refines (hs : Inv u s)
    (h : reconcileClaims s = .ok (released, s')) : Changes u t s s' := by
  simp only [reconcileClaims, bind_query, bind_execute, pure_eq_ok] at h
  obtain ⟨-, rfl⟩ := h
  have hnone : ∀ c ∈ s.claims, s.isStaleClaim c = false := by
    intro c hc
    obtain ⟨w, hw, hid, hlive⟩ := hs.claims.owner c hc
    rw [Repo.isStaleClaim, Bool.not_eq_false', List.any_eq_true]
    exact ⟨w, hw, by simp [hid, hlive]⟩
  have hsame : s.deleteClaims s.isStaleClaim = s := by
    rw [Repo.deleteClaims, Table.delete_eq_self hnone]
  rw [hsame]

end Release

end Replicant.Workflow
