import Replicant.Workflow.Refinement.Lifecycle

/-!
# Calls refine to changes

Every call that succeeds is a sequence of changes, under any terms that admit it, so the
invariants of the store hold in every state that a run reaches.
-/

namespace Replicant.Workflow

open Lib Tx

/-- The terms admit the call in the state: it offers only candidates of the terms, and under
custodial terms it gives up no claim that an allocation it keeps still leans on. -/
def Terms.Admits (t : Terms) (s : Repo) : Op → Prop
  | .releaseClaim w r => t.custodial → ∀ c ∈ s.claims, c.workflowId = w →
    c.resource.resource = r → s.isNeeded c = false
  | .releaseClaims w => t.custodial → ∀ c ∈ s.claims, c.workflowId = w → s.isNeeded c = false
  | .transitionWorkItem id _ transition _ =>
    transition.releases = true → Unshared t s fun a => a.itemId = id
  | .reconcileOrphanedWorkItems w _ => ∀ i ∈ s.orphans w, Unshared t s fun a => a.itemId = i.id
  | .allocateRequirementsWithPolicy _ _ candidates _ _ => ∀ c ∈ candidates, t.offered c
  | .replaceDeadAllocationWithAffinity itemId allocationId candidates _ _ =>
    (∀ c ∈ candidates, t.offered c) ∧ (Unshared t s fun a => a.id = allocationId) ∧
      (s.replacementFails itemId allocationId candidates = true →
        Unshared t s fun a => a.itemId = itemId)
  | _ => True

/-- The terms that ask for nothing admit every call. -/
lemma Terms.free_admits (s : Repo) (op : Op) : Terms.free.Admits s op := by
  have hunshared : ∀ released, Unshared Terms.free s released := fun _ hbad => hbad.elim
  cases op with
  | releaseClaim | releaseClaims => exact fun hbad => hbad.elim
  | transitionWorkItem => exact fun _ => hunshared _
  | reconcileOrphanedWorkItems => exact fun _ _ => hunshared _
  | allocateRequirementsWithPolicy => exact fun _ _ => trivial
  | replaceDeadAllocationWithAffinity =>
    exact ⟨fun _ _ => trivial, hunshared _, fun _ => hunshared _⟩
  | _ => trivial

variable {x : Unit} {α : Type} {m : Tx α}

/-- A transaction run for its effect succeeds with some result. -/
lemma Tx.void_eq_ok {s s' : Repo} (h : Tx.void m s = .ok (x, s')) : ∃ a, m s = .ok (a, s') := by
  simp only [void, Lib.Tx.bind_eq_ok, Lib.Tx.pure_eq_ok] at h
  obtain ⟨a, y, hm, -, rfl⟩ := h
  exact ⟨a, hm⟩

lemma Tx.of_void {s s' : Repo} {P : Prop} (h : Tx.void m s = .ok (x, s'))
    (hm : ∀ {a}, m s = .ok (a, s') → P) : P := by
  obtain ⟨_, h⟩ := void_eq_ok h
  exact hm h

section Calls

variable {u : IdSource} {t : Terms} {s s' : Repo} {op : Op}

lemma transaction_refines (hs : Inv u s) (hop : t.Admits s op)
    (h : transaction u op s = .ok (x, s')) : Changes u t s s' := by
  cases op with
  | createWithParentClaims => exact of_void h createWithParentClaims_refines
  | createOrReuseActive => exact of_void h createOrReuseActive_refines
  | pruneTerminalBefore => exact of_void h pruneTerminalBefore_refines
  | acquireClaims => exact of_void h acquireClaims_refines
  | acquireClaimPreservingReserve => exact of_void h acquireClaimPreservingReserve_refines
  | transferClaims => exact (transferClaimsIn_refines h).1
  | releaseClaim => exact of_void h (releaseClaim_refines hop)
  | releaseClaims => exact of_void h (releaseClaims_refines hop)
  | reconcileClaims => exact of_void h (reconcileClaims_refines hs)
  | reconcileWorkItems => exact of_void h reconcileWorkItems_refines
  | claimNextWorkItem => exact of_void h claimNextWorkItem_refines
  | startWorkItem => exact of_void h startWorkItem_refines
  | transitionWorkItem => exact of_void h fun h => (transitionWorkItem_refines hop h).1
  | reconcileOrphanedWorkItems =>
    exact of_void h fun h => (reconcileOrphanedWorkItems_refines hop h).1
  | recordWorkflowTargets => exact of_void h recordWorkflowTargets_refines
  | replaceWorkflowTargets => exact of_void h replaceWorkflowTargets_refines
  | allocateRequirementsWithPolicy =>
    exact of_void h fun h => (allocateRequirementsWithPolicy_refines hop h).changes
  | replaceDeadAllocationWithAffinity =>
    exact of_void h fun h =>
      (replaceDeadAllocationWithAffinity_refines hs hop.1 hop.2.1 hop.2.2 h).1
  | assignWorkItem => exact assignWorkItem_refines h
  | requestWorkItemReclaim => exact of_void h requestWorkItemReclaim_refines
  | updateWithWait | updateWithFailureDisposition => exact of_void h updateState_refines
  | completeWithParentClaims => exact of_void h completeWithParentClaims_refines
  | migrateWorkflow => exact of_void h migrateWorkflow_refines

lemma step_refines (hs : Inv u s) (hop : t.Admits s op) : Changes u t s (step u s op) := by
  rcases Lib.Tx.commit_cases (transaction u op) s with ⟨x, h⟩ | h
  · exact transaction_refines hs hop h
  · rw [step, h]

end Calls

/-! ## Runs -/

lemma step_inv (u : IdSource) {s : Repo} (hs : Inv u s) (op : Op) : Inv u (step u s op) :=
  Changes.inv (step_refines hs (Terms.free_admits s op)) hs

lemma run_inv (u : IdSource) (ops : List Op) : Inv u (run u ops) :=
  List.foldlRecOn ops (step u) (Inv.empty u) fun _ hs op _ => step_inv u hs op

lemma run_append (u : IdSource) (ops ops' : List Op) :
    run u (ops ++ ops') = ops'.foldl (step u) (run u ops) := by
  rw [run, List.foldl_append]
  rfl

end Replicant.Workflow
