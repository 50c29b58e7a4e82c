import Replicant.Workflow.Refinement.Claims

/-!
# Work item operations are changes
-/

namespace Replicant.Workflow

open Lib List Tx WorkItemStatus WorkItemTransition WorkItemState

variable {x : Unit} {s s' : Repo} {w : WorkflowId} {now : ℤ}

variable {i : WorkItem} {id : WorkItemId} {transition : WorkItemTransition} {u : IdSource}

/-! ## Reconciling -/

section Reconciling

variable {t : Terms}

lemma reconcileWorkItem_refines {spec : WorkItemSpec}
    (hlive : Live s.workflows w) (h : reconcileWorkItem u w now spec s = .ok (x, s')) :
    Changes u t s s' ∧ s'.workflows = s.workflows := by
  rw [reconcileWorkItem, bind_query] at h
  cases hfind : s.items.rows.find? fun i =>
      i.spec.workflowId = w && i.spec.dedupeKey = spec.dedupeKey with
  | some existing =>
    simp only [hfind, ensure_eq_ok] at h
    obtain ⟨-, rfl⟩ := h
    exact ⟨.refl, rfl⟩
  | none =>
    simp only [hfind, bind_drawUuid] at h
    obtain ⟨hfresh, hkey, rfl⟩ := insertItemRow_spec h
    exact ⟨.single (.insertItem s _ now rfl hfresh hkey hlive rfl), rfl⟩

lemma reconcileWorkItems_refines {desired : List WorkItemSpec} {items : List WorkItem}
    (h : reconcileWorkItems u w desired now s = .ok (items, s')) : Changes u t s s' := by
  simp only [reconcileWorkItems, bind_check, bind_requireWorkflow, bind_ensure] at h
  obtain ⟨specs, -, row, ⟨hrow, hid⟩, hlive, h⟩ := h
  simp only [bind_eq_ok, query_eq_ok] at h
  obtain ⟨_, y, hloop, -, rfl⟩ := h
  have hend := forM_induction
    (P := fun x => Changes u t s x ∧ x.workflows = s.workflows) ?_ ⟨.refl, rfl⟩ hloop
  · exact hend.1
  · rintro spec - x z ⟨hxs, hxw⟩ hstep
    obtain ⟨hxz, hzw⟩ := reconcileWorkItem_refines
      (by rw [hxw]; exact ⟨row, hrow, hid, hlive⟩) hstep
    exact ⟨hxs.trans hxz, by rw [hzw, hxw]⟩

end Reconciling

/-! ## Claiming and starting -/

/-- The item that is claimed next is due and has its dependencies met. -/
lemma nextClaimable_spec (h : s.nextClaimable w now = some i) :
    i ∈ s.items ∧ i.spec.workflowId = w ∧ i.state.isDue now = true ∧
      s.dependenciesMet i = true := by
  have hmem := mem_of_mem_head? h
  rw [mem_insertionSort, mem_filter] at hmem
  obtain ⟨hi, hcond⟩ := hmem
  simp only [Bool.and_eq_true, decide_eq_true_eq] at hcond
  exact ⟨hi, hcond.1.1, hcond.1.2, hcond.2⟩

lemma WorkItemState.status_of_isDue {state : WorkItemState}
    (h : state.isDue now = true) : state.status = .pending ∨ state.status = .waiting := by
  unfold isDue at h
  split at h <;> simp_all

variable {f : WorkItemState → WorkItemState} {revision : ℕ}

section Starting

variable {t : Terms} {claimed : Option WorkItem}

section

variable (h : claimNextWorkItem w now s = .ok (claimed, s'))

include h

/-- Nothing is claimed, or the item found is, under its identifier. -/
lemma claimNextWorkItem_spec : claimed = none ∧ s' = s ∨
      ∃ i found, s.nextClaimable w now = some i ∧ claimed = some found ∧ found.id = i.id ∧
        s' = s.updateItems (·.id = i.id) (.claim now) := by
  simp only [claimNextWorkItem, bind_requireWorkflow, bind_ensure, bind_query] at h
  obtain ⟨row, -, -, h⟩ := h
  cases hnext : s.nextClaimable w now with
  | none =>
    simp only [hnext, pure_eq_ok] at h
    exact .inl ⟨h.1, h.2⟩
  | some i =>
    simp only [hnext, bind_execute, bind_requireWorkItem, pure_eq_ok] at h
    obtain ⟨found, ⟨-, hid⟩, hfound, hs'⟩ := h
    exact .inr ⟨i, found, rfl, hfound, hid, hs'⟩

lemma claimNextWorkItem_refines : Changes u t s s' := by
  rcases claimNextWorkItem_spec h with ⟨-, rfl⟩ | ⟨i, -, hnext, -, -, rfl⟩
  · exact .refl
  · obtain ⟨hi, -, hdue, hmet⟩ := nextClaimable_spec hnext
    exact .single (.claimItem s i _ _ (Table.selects_key hi)
      (status_of_isDue hdue) hmet ⟨fun _ => rfl, fun _ => rfl, fun _ => rfl⟩)

end

/-- An update at the revision that was read rewrites the item. -/
lemma updateItemAtRevision_spec {expected : ℕ} (hi : i ∈ s.items) (hid : i.id = id)
    (hrev : i.state.revision = expected) (h : updateItemAtRevision id expected f s = .ok (x, s')) :
    ∃ p, s.items.Selects p i ∧ s' = s.updateItems p f := by
  simp only [updateItemAtRevision, bind_query, bind_execute, ensure_eq_ok] at h
  obtain ⟨-, rfl⟩ := h
  subst hid
  exact ⟨_, Table.selects_key_and hi (by simp [hrev]), rfl⟩

lemma startWorkItem_refines {worker assignment : String}
    {started : WorkItem} (h : startWorkItem id revision worker assignment now s =
      .ok (started, s')) : Changes u t s s' := by
  simp only [startWorkItem, revisionToSql, verifyWorkItemRevision, bind_ensure,
    bind_requireWorkItem] at h
  obtain ⟨-, -, -, i, ⟨hi, hid⟩, hrev, hstat, -, h⟩ := h
  simp only [bind_eq_ok, requireWorkItem_eq_ok] at h
  obtain ⟨_, x, hinsert, _, y, hupdate, -, rfl⟩ := h
  obtain ⟨hfresh, rfl⟩ := insertAttemptRow_spec hinsert
  obtain ⟨p, hp, rfl⟩ := updateItemAtRevision_spec (s := s.insertAttempt _) hi hid hrev hupdate
  exact .single (.startItem s i _ p _ hp hstat ⟨hid.symm, rfl, rfl⟩ hfresh ⟨rfl, rfl, rfl⟩)

end Starting

/-! ## Transitions -/

/-- The transitions that take the item's allocations away. -/
def WorkItemTransition.releases : WorkItemTransition → Bool
  | succeeded .. | skipped .. | failed .. | abandoned .. | reclaimed .. => true
  | _ => false

/-- A plan either leaves a running item running, or takes the item from its worker. -/
lemma planTransition_spec {current : WorkItem}
    {plan : TransitionPlan} (h : planTransition current transition now = .ok plan) :
    current.state.status.isTerminal = false ∧
      ((plan.status = current.state.status ∧ current.state.status = .running ∧
          plan.attemptClose = none ∧ plan.releaseAllocations = false ∧
          transition.releases = false) ∨ (plan.status.isClaimed = false ∧
          (current.state.status = .running → plan.attemptClose.isSome = true) ∧
          (plan.status.isTerminal = true ∨ plan.releaseAllocations = true ↔
            transition.releases = true))) := by
  unfold planTransition at h
  simp only at h
  split at h
  · cases h
  next hlive =>
  refine ⟨Bool.eq_false_iff.mpr hlive, ?_⟩
  cases transition with
  | checkpointCommitted checkpointJson =>
    simp only at h
    split at h
    · cases h
    · next hrun =>
      cases h
      exact .inl ⟨rfl, by simpa using hrun, rfl, rfl, rfl⟩
  | waiting | skipped | failed | abandoned =>
    cases h
    exact .inr ⟨rfl, fun hrun => by simp [closeIfRunning, hrun], by
      simp [isTerminal, releases]⟩
  | retryableFailure =>
    simp only at h
    split at h
    · cases h
    · split at h
      · cases h
      · cases h
        exact .inr ⟨rfl, fun _ => rfl, by
          simp [isTerminal, releases]⟩
  | succeeded =>
    simp only at h
    split at h
    · cases h
    · cases h
      exact .inr ⟨rfl, fun _ => rfl, by
        simp [isTerminal, releases]⟩
  | reclaimed =>
    simp only at h
    split at h
    · cases h
      exact .inr ⟨rfl, fun hrun => by simp [closeIfRunning, hrun], by
      simp [isTerminal, releases]⟩
    · cases h

variable {close : Option (WorkItemAttemptOutcome × Option String)}

/-- What is active after an item was settled was active before, and not the item's own if
its allocations went. -/
lemma mem_settleItem_allocations {drop : Bool} {p : WorkItem → Bool} {a : AllocationRow}
    (ha : a ∈ (s.settleItem i close drop p f now).allocations) (hactive : a.state = .active) :
    a ∈ s.allocations ∧ (drop = true → a.itemId ≠ i.id) := by
  rw [Repo.settleItem_allocations] at ha
  cases drop with
  | false => exact ⟨ha, nofun⟩
  | true =>
    obtain ⟨b, hb, rfl⟩ := List.mem_map.mp ha
    split at hactive
    · cases hactive
    · next hneg =>
      rw [if_neg hneg]
      refine ⟨hb, fun _ hid => hneg ?_⟩
      simp [hid, hactive]

section Transitions

variable {t : Terms}

lemma closeOpenAttempt_spec {outcome : WorkItemAttemptOutcome}
    {error : Option String} (h : closeOpenAttempt id outcome error now s = .ok (x, s')) :
    s' = s.closeAttempts id now (some (outcome, error)) := by
  simp only [closeOpenAttempt, bind_query, bind_execute, ensure_eq_ok] at h
  exact h.2

lemma closePlanned_spec
    (h : closePlanned id now close s = .ok (x, s')) : s' = s.closeAttempts id now close := by
  cases close with
  | none =>
    rw [closePlanned, pure_eq_ok] at h
    exact h.2
  | some => exact closeOpenAttempt_spec h

lemma releaseItemAllocations_spec (h : releaseItemAllocations w id now s = .ok (x, s')) :
    s' = s.releaseAllocationsOf w id now := by
  simp only [releaseItemAllocations, bind_execute, execute_eq_ok] at h
  exact h

/-- A transition rewrites the item, and takes it from its worker unless it is a checkpoint of
a running item. -/
lemma transitionWorkItemIn_spec
    (hi : i ∈ s.items) (h : transitionWorkItemIn i transition now s = .ok (x, s')) :
    ∃ p f status, s.items.Selects p i ∧ Writes f status ∧ i.state.status.isTerminal = false ∧
      ((status = i.state.status ∧ transition.releases = false ∧ s' = s.updateItems p f) ∨
        ∃ close drop, status.isClaimed = false ∧ (i.state.status = .running → close.isSome = true) ∧
          (status.isTerminal = true → drop = true) ∧ (drop = true ↔ transition.releases = true) ∧
          s' = s.settleItem i close drop p f now) := by
  rw [transitionWorkItemIn, bind_check] at h
  obtain ⟨plan, hplan, h⟩ := h
  simp only [bind_eq_ok, revisionToSql, ensure_eq_ok] at h
  obtain ⟨_, s₁, hclose, _, s₂, hrelease, _, s₃, hassign, _, s₄, ⟨-, hs₄⟩, hupdate⟩ := h
  rw [hs₄] at hupdate
  obtain ⟨hlive, hkind⟩ := planTransition_spec hplan
  obtain rfl := closePlanned_spec hclose
  have hwrites : Writes (plan.write now) plan.status :=
    ⟨fun _ => rfl, fun _ => rfl, fun _ => rfl⟩
  rcases hkind with ⟨hsame, hrun, hnone, hkeep, hnot⟩ | ⟨hclaimed, hsome, hreleases⟩
  · -- A checkpoint: nothing but the item's own columns is written.
    rw [hnone] at hrelease
    rw [hsame, hrun] at hrelease hassign
    rcases when_eq_ok.mp hrelease with ⟨hbad, -⟩ | ⟨-, hs₂⟩
    · rw [hkeep] at hbad
      rcases hbad with hbad | hbad <;> cases hbad
    rcases when_eq_ok.mp hassign with ⟨hbad, -⟩ | ⟨-, hs₃⟩
    · cases hbad
    have hsame₃ : s₃ = s := hs₃.trans hs₂
    rw [hsame₃] at hupdate
    obtain ⟨p, hp, rfl⟩ := updateItemAtRevision_spec hi rfl rfl hupdate
    exact ⟨p, _, _, hp, hwrites, hlive, .inl ⟨hsame, hnot, rfl⟩⟩
  · -- The item leaves its worker, with or without its allocations.
    rcases when_eq_ok.mp hassign with ⟨-, hassign⟩ | ⟨hbad, -⟩
    swap
    · exact absurd hclaimed hbad
    rw [execute_eq_ok] at hassign
    subst hassign
    have hfreed : ∃ drop : Bool, (drop = true ↔ transition.releases = true) ∧
        (plan.status.isTerminal = true → drop = true) ∧
        s₂ = (if drop then (s.closeAttempts i.id now plan.attemptClose).releaseAllocationsOf
          i.spec.workflowId i.id now else s.closeAttempts i.id now plan.attemptClose) := by
      rcases when_eq_ok.mp hrelease with ⟨hdrop, hrelease⟩ | ⟨hdrop, rfl⟩
      · exact ⟨true, by simp [hreleases.mp hdrop], fun _ => rfl, releaseItemAllocations_spec hrelease⟩
      · refine ⟨false, ?_, fun hterm => absurd (.inl hterm) hdrop, rfl⟩
        rw [← hreleases]
        simpa using hdrop
    obtain ⟨drop, hdrop, hterm, rfl⟩ := hfreed
    have hitems : (if drop then (s.closeAttempts i.id now plan.attemptClose).releaseAllocationsOf
        i.spec.workflowId i.id now else s.closeAttempts i.id now plan.attemptClose).items =
          s.items := by
      cases plan.attemptClose <;> cases drop <;> rfl
    obtain ⟨p, hp, rfl⟩ := updateItemAtRevision_spec (hitems ▸ hi) rfl rfl hupdate
    exact ⟨p, _, _, hitems ▸ hp, hwrites, hlive,
      .inr ⟨plan.attemptClose, drop, hclaimed, hsome, hterm, hdrop, rfl⟩⟩

/-- A transition that releases leaves the item with no active allocation. -/
lemma transitionWorkItemIn_refines (hi : i ∈ s.items)
    (hshared : transition.releases = true → Unshared t s fun a => a.itemId = i.id)
    (h : transitionWorkItemIn i transition now s = .ok (x, s')) :
    Changes u t s s' ∧ (transition.releases = true →
      ∀ a ∈ s'.allocations, a.state = .active → a.itemId ≠ i.id) := by
  obtain ⟨p, f, status, hp, hf, hlive, hkind⟩ := transitionWorkItemIn_spec hi h
  rcases hkind with ⟨hsame, hnot, rfl⟩ | ⟨close, drop, hclaimed, hclose, hterm, hdrop, rfl⟩
  · refine ⟨.single (.noteItem s i p f hp (hsame ▸ hf)), fun hbad => ?_⟩
    rw [hnot] at hbad
    cases hbad
  · refine ⟨.single (.settleItem s i close drop p f status now hp hlive hf hclaimed hclose hterm
      fun hd => hshared (hdrop.mp hd)), fun hrel a ha hactive => ?_⟩
    exact (mem_settleItem_allocations ha hactive).2 (hdrop.mpr hrel)

lemma transitionWorkItem_refines {updated : WorkItem}
    (hshared : transition.releases = true → Unshared t s fun a => a.itemId = id)
    (h : transitionWorkItem id revision transition now s = .ok (updated, s')) :
    Changes u t s s' ∧ (transition.releases = true →
      ∀ a ∈ s'.allocations, a.state = .active → a.itemId ≠ id) := by
  simp only [transitionWorkItem, bind_requireWorkItem, verifyWorkItemRevision, bind_ensure] at h
  obtain ⟨i, ⟨hi, rfl⟩, -, h⟩ := h
  simp only [bind_eq_ok, requireWorkItem_eq_ok] at h
  obtain ⟨_, y, htrans, -, rfl⟩ := h
  exact transitionWorkItemIn_refines hi hshared htrans

end Transitions

/-! ## Orphans -/

/-- The claims of an orphan are those of its owner. -/
lemma dropOrphanClaims_eq (hi : i ∈ s.items) :
    s.dropOrphanClaims i.id = s.dropItemClaims i.spec.workflowId i.id := by
  unfold Repo.dropOrphanClaims Repo.dropItemClaims
  congr 1
  funext c
  rw [ownsItem_eq c.workflowId hi rfl, Bool.eq_iff_iff]
  simp only [any_eq_true, Bool.and_eq_true, decide_eq_true_eq]
  constructor
  · rintro ⟨a, ha, ⟨⟨hid, hactive⟩, hw⟩, hres⟩
    exact ⟨hw.symm, a, ha, ⟨hid, hactive⟩, hres⟩
  · rintro ⟨hw, a, ha, ⟨hid, hactive⟩, hres⟩
    exact ⟨a, ha, ⟨⟨hid, hactive⟩, hw.symm⟩, hres⟩

/-- How the attempt of an orphan ends. -/
def orphanClose (i : WorkItem) : Option (WorkItemAttemptOutcome × Option String) :=
  if i.state.status = .running then some (.reclaimed, none) else none

lemma reclaimOrphan_spec (hi : i ∈ s.items) (h : reclaimOrphan now i s = .ok (x, s')) :
    s' = s.settleItem i (orphanClose i) true (·.id = i.id) (.reclaim now) now := by
  rw [reclaimOrphan, bind_eq_ok] at h
  obtain ⟨_, s₁, hclose, h⟩ := h
  simp only [bind_execute, execute_eq_ok] at h
  have hs₁ : s₁ = s.closeAttempts i.id now (orphanClose i) := by
    unfold orphanClose
    rcases when_eq_ok.mp hclose with ⟨hrun, hclose⟩ | ⟨hrun, rfl⟩
    · rw [if_pos hrun]
      exact closeOpenAttempt_spec hclose
    · rw [if_neg hrun]
      rfl
  have hi₁ : i ∈ s₁.items := by
    rw [hs₁]
    cases orphanClose i <;> exact hi
  rw [h, dropOrphanClaims_eq hi₁, hs₁]
  rfl

section Orphans

variable {t : Terms}

/-- One orphan is settled, and the other items are left alone. -/
lemma reclaimOrphan_refines (hi : i ∈ s.items) (hclaimed : i.state.status.isClaimed = true)
    (hshared : Unshared t s fun a => a.itemId = i.id) (h : reclaimOrphan now i s = .ok (x, s')) :
    Change u t s s' ∧ ∀ j ∈ s.items, j ≠ i → j ∈ s'.items := by
  obtain rfl := reclaimOrphan_spec hi h
  have hsel := Table.selects_key hi
  constructor
  · refine .settleItem s i _ true _ _ .pending now hsel (not_isTerminal_of_isClaimed hclaimed)
      ⟨fun _ => rfl, fun _ => rfl, fun _ => rfl⟩ rfl (fun hrun => ?_) (fun _ => rfl)
      fun _ => hshared
    simp [orphanClose, hrun]
  · intro j hj hne
    simp only [Repo.settleItem_fields, Table.mem_update_of_selects _ hsel]
    exact .inl ⟨hj, hne⟩

/-- The loop over the orphans: each is settled in turn, and none keeps an allocation. -/
lemma reclaimOrphans_refines (os : List WorkItem)
    (hmem : ∀ i ∈ os, i ∈ s.items ∧ i.state.status.isClaimed = true)
    (hnodup : os.Nodup) (hshared : ∀ i ∈ os, Unshared t s fun a => a.itemId = i.id)
    (h : forM os (reclaimOrphan now) s = .ok (x, s')) :
    Changes u t s s' ∧ ∀ a ∈ s'.allocations, a.state = .active →
      a ∈ s.allocations ∧ ∀ i ∈ os, a.itemId ≠ i.id := by
  induction os generalizing s with
  | nil =>
    rw [forM_nil, pure_eq_ok] at h
    rw [h.2]
    exact ⟨.refl, fun a ha _ => ⟨ha, by simp⟩⟩
  | cons i os ih =>
    rw [forM_cons, bind_eq_ok] at h
    obtain ⟨_, y, hhead, htail⟩ := h
    obtain ⟨hi, hclaimed⟩ := hmem i mem_cons_self
    obtain ⟨hnot, hnodup⟩ := nodup_cons.mp hnodup
    obtain ⟨hstep, hothers⟩ :=
      reclaimOrphan_refines hi hclaimed (hshared i mem_cons_self) hhead
    obtain rfl := reclaimOrphan_spec hi hhead
    have hmem' : ∀ j ∈ os,
        j ∈ (s.settleItem i (orphanClose i) true (·.id = i.id) (.reclaim now) now).items ∧
          j.state.status.isClaimed = true := by
      intro j hj
      obtain ⟨hjs, hjc⟩ := hmem j (mem_cons_of_mem i hj)
      exact ⟨hothers j hjs fun heq => hnot (heq ▸ hj), hjc⟩
    have hshared' : ∀ j ∈ os, Unshared t
        (s.settleItem i (orphanClose i) true (·.id = i.id) (.reclaim now) now)
          fun a => a.itemId = j.id := by
      intro j hj
      refine (hshared j (mem_cons_of_mem i hj)).mono
        (fun a ha hactive => (mem_settleItem_allocations ha hactive).1) fun k hk => ?_
      simp only [Repo.settleItem_fields] at hk
      exact spec_of_mem_updateItems hk
    obtain ⟨hchain, hactive⟩ := ih hmem' hnodup hshared' htail
    refine ⟨.head hstep hchain, fun a ha hact => ?_⟩
    obtain ⟨ha₁, hne⟩ := hactive a ha hact
    obtain ⟨ha₀, hnei⟩ := mem_settleItem_allocations ha₁ hact
    exact ⟨ha₀, forall_mem_cons.mpr ⟨hnei rfl, hne⟩⟩

/-- The selected orphans are claimed items, each once. -/
lemma orphans_spec (s : Repo) (w : Option WorkflowId) :
    (∀ i ∈ s.orphans w, i ∈ s.items ∧ i.state.status.isClaimed = true) ∧ (s.orphans w).Nodup := by
  constructor
  · intro i hi
    rw [Repo.orphans, mem_insertionSort, mem_filter, Bool.and_eq_true] at hi
    exact ⟨hi.1, hi.2.1⟩
  · rw [Repo.orphans, (perm_insertionSort _ _).nodup_iff]
    exact (List.Nodup.of_map _ s.items.keysNodup).filter _

lemma reconcileOrphanedWorkItems_refines {w : Option WorkflowId} {n : ℕ}
    (hshared : ∀ i ∈ s.orphans w, Unshared t s fun a => a.itemId = i.id)
    (h : reconcileOrphanedWorkItems w now s = .ok (n, s')) :
    Changes u t s s' ∧ ∀ a ∈ s'.allocations, a.state = .active →
      a ∈ s.allocations ∧ ∀ i ∈ s.orphans w, a.itemId ≠ i.id := by
  simp only [reconcileOrphanedWorkItems, bind_query, bind_eq_ok, pure_eq_ok] at h
  obtain ⟨_, y, hloop, -, rfl⟩ := h
  obtain ⟨hmem, hnodup⟩ := orphans_spec s w
  exact reclaimOrphans_refines (s.orphans w) hmem hnodup hshared hloop

end Orphans

end Replicant.Workflow
