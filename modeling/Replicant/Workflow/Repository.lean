import Replicant.Workflow.Allocations
import Replicant.Workflow.Intelligence
import Replicant.Workflow.Lifecycle

/-!
# The repository as a state machine

Every public operation that writes one of the modelled tables is an `Op`, but for `append_activity`,
whose rows no other operation reads; `step` commits one of them, whole or not at all, and `run` a
sequence, in the order in which the write lock was granted. Readings of the clock are arguments,
identifiers come from a source.
-/

namespace Replicant.Workflow

open Lib

/-- The calls of the repository. -/
inductive Op where
  | createWithParentClaims (workflow : NewWorkflow) (resources : List ResourceKey) (now : ℤ)
  | createOrReuseActive (workflow : NewWorkflow)
      (compatible : ℕ → WorkflowRow → Except RepositoryError Bool) (now : ℤ)
  | pruneTerminalBefore (cutoffMillis : ℤ)
  | acquireClaims (workflowId : WorkflowId) (resources : List ResourceKey) (now : ℤ)
  | acquireClaimPreservingReserve (workflowId : WorkflowId) (resource : ResourceKey)
      (reserve : List ResourceKey) (minimum : ℕ) (now : ℤ)
  | transferClaims (source dest : WorkflowId) (resources : List ResourceKey) (now : ℤ)
  | releaseClaim (workflowId : WorkflowId) (resource : ResourceKey)
  | releaseClaims (workflowId : WorkflowId)
  | reconcileClaims
  | reconcileWorkItems (workflowId : WorkflowId) (desired : List WorkItemSpec) (now : ℤ)
  | claimNextWorkItem (workflowId : WorkflowId) (now : ℤ)
  | startWorkItem (id : WorkItemId) (expectedRevision : ℕ)
      (workerIdentity assignmentId : String) (startedAtMs : ℤ)
  | transitionWorkItem (id : WorkItemId) (expectedRevision : ℕ)
      (transition : WorkItemTransition) (now : ℤ)
  | reconcileOrphanedWorkItems (workflowId : Option WorkflowId) (now : ℤ)
  | recordWorkflowTargets (workflowId : WorkflowId) (targets : List WorkflowTarget) (now : ℤ)
  | replaceWorkflowTargets (workflowId : WorkflowId) (targets : List WorkflowTarget) (now : ℤ)
  | allocateRequirementsWithPolicy (itemId : WorkItemId) (expectedRevision : ℕ)
      (candidates : List AllocationCandidate) (affinities : Affinities)
      (ignoredRequirementKeys : List String)
  | replaceDeadAllocationWithAffinity (itemId : WorkItemId) (allocationId : AllocationId)
      (candidates : List AllocationCandidate) (now : ℤ) (affinities : Affinities)
  | assignWorkItem (itemId : WorkItemId) (expectedRevision : ℕ) (assignmentId : String)
      (worker : ResourceKey) (now : ℤ)
  | requestWorkItemReclaim (itemId : WorkItemId) (now : ℤ)
  | updateWithWait (id : WorkflowId) (expectedRevision : ℕ) (state : WorkflowState)
      (waitIntentJson : Option String) (now : ℤ)
  | updateWithFailureDisposition (id : WorkflowId) (expectedRevision : ℕ)
      (state : WorkflowState) (failureDisposition : WorkflowFailureDisposition) (now : ℤ)
  | completeWithParentClaims (id : WorkflowId) (expectedRevision : ℕ) (state : WorkflowState)
      (resources : List ResourceKey) (now : ℤ)
  | migrateWorkflow (row : WorkflowRow) (targetVersion : ℕ)
      (configJson checkpointJson : String) (now : ℤ)

/-- Run a transaction for its effect. -/
def Tx.void {α : Type} (m : Tx α) : Tx Unit := do
  let _ ← m
  pure ()

variable (u : IdSource)

/-- The transaction of a call, without its result. -/
def transaction : Op → Tx Unit
  | .createWithParentClaims w rs now => Tx.void (createWithParentClaims u w rs now)
  | .createOrReuseActive w compatible now => Tx.void (createOrReuseActive u w compatible now)
  | .pruneTerminalBefore cutoff => Tx.void (pruneTerminalBefore cutoff)
  | .acquireClaims w rs now => Tx.void (acquireClaims w rs now)
  | .acquireClaimPreservingReserve w r reserve minimum now =>
    Tx.void (acquireClaimPreservingReserve w r reserve minimum now)
  | .transferClaims source dest rs now => transferClaims source dest rs now
  | .releaseClaim w r => Tx.void (releaseClaim w r)
  | .releaseClaims w => Tx.void (releaseClaims w)
  | .reconcileClaims => Tx.void reconcileClaims
  | .reconcileWorkItems w desired now => Tx.void (reconcileWorkItems u w desired now)
  | .claimNextWorkItem w now => Tx.void (claimNextWorkItem w now)
  | .startWorkItem id revision worker assignment now =>
    Tx.void (startWorkItem id revision worker assignment now)
  | .transitionWorkItem id revision transition now =>
    Tx.void (transitionWorkItem id revision transition now)
  | .reconcileOrphanedWorkItems w now => Tx.void (reconcileOrphanedWorkItems w now)
  | .recordWorkflowTargets w targets now => Tx.void (recordWorkflowTargets w targets now)
  | .replaceWorkflowTargets w targets now => Tx.void (replaceWorkflowTargets w targets now)
  | .allocateRequirementsWithPolicy item revision candidates affinities ignored =>
    Tx.void (allocateRequirementsWithPolicy u item revision candidates affinities ignored)
  | .replaceDeadAllocationWithAffinity item allocation candidates now affinities =>
    Tx.void (replaceDeadAllocationWithAffinity u item allocation candidates now affinities)
  | .assignWorkItem item revision assignment worker now =>
    assignWorkItem item revision assignment worker now
  | .requestWorkItemReclaim item now => Tx.void (requestWorkItemReclaim item now)
  | .updateWithWait id revision state wait now =>
    Tx.void (updateWithWait id revision state wait now)
  | .updateWithFailureDisposition id revision state disposition now =>
    Tx.void (updateWithFailureDisposition id revision state disposition now)
  | .completeWithParentClaims id revision state rs now =>
    Tx.void (completeWithParentClaims id revision state rs now)
  | .migrateWorkflow row version config checkpoint now =>
    Tx.void (migrateWorkflow row version config checkpoint now)

/-- The error of a call, if it fails. -/
def Op.error? (s : Repo) (op : Op) : Option RepositoryError :=
  match transaction u op s with
  | .ok _ => none
  | .error e => some e

/-- Commit one call. -/
def step (s : Repo) (op : Op) : Repo := ((transaction u op).commit s).2

/-- Commit a sequence of calls, starting from the empty repository. -/
def run (ops : List Op) : Repo := ops.foldl (step u) Repo.empty

/-- A call commits the state its transaction ends in; a failed call leaves the state unchanged. -/
lemma step_eq (s : Repo) (op : Op) : step u s op = match transaction u op s with
    | .ok (_, s') => s'
    | .error _ => s := by
  unfold step Lib.Tx.commit
  cases transaction u op s <;> rfl

/-- A transaction run for its effect ends where the transaction does. -/
lemma Tx.void_apply {α : Type} (m : Tx α) (s : Repo) : Tx.void m s = match m s with
    | .ok (_, s') => .ok ((), s')
    | .error e => .error e := by
  show (m >>= fun _ => pure ()) s = _
  cases h : m s with
  | ok p => exact Lib.Tx.bind_eq_ok.mpr ⟨p.1, p.2, h, rfl⟩
  | error e =>
    show (m s >>= _) = _
    rw [h]
    rfl

end Replicant.Workflow
