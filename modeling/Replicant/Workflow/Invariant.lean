import Replicant.Workflow.Change

/-!
# The invariants of the store

Each invariant names only the tables it reads, so a change that leaves these alone keeps it
by definition. `Inv` is all of them together.
-/

namespace Replicant.Workflow

open Lib Table

abbrev WorkflowTable := Table WorkflowRow WorkflowRow.id
abbrev ClaimTable := Table ClaimRow ClaimRow.resource
abbrev ItemTable := Table WorkItem WorkItem.id
abbrev AttemptTable := Table AttemptRow AttemptRow.identity
abbrev PoolTable := Table PoolRow PoolRow.poolKey
abbrev AllocationTable := Table AllocationRow AllocationRow.id
abbrev AssignmentTable := Table AssignmentRow AssignmentRow.id
abbrev TargetTable := Table TargetRow TargetRow.identity

lemma id_setState (f : WorkItemState → WorkItemState) (i : WorkItem) :
    { i with state := f i.state }.id = i.id := rfl

/-- The items after a statement that writes the states of some. -/
abbrev setStates (items : ItemTable) (p : WorkItem → Bool) (f : WorkItemState → WorkItemState) :
    ItemTable :=
  items.update p (fun i => { i with state := f i.state }) (id_setState f)

/-! ## Claims -/

/-- No resource is claimed by two workflows, under any of its identities. -/
def ClaimsExclusive (claims : ClaimTable) : Prop :=
  ∀ c ∈ claims, ∀ d ∈ claims, PhysicallyEqual c.resource d.resource → c.workflowId = d.workflowId

/-- The workflow has a claim on the resource, under any of its identities. -/
def Repo.Holds (s : Repo) (w : WorkflowId) (wanted : ResourceIdentity) : Prop :=
  ∃ c ∈ s.claims, PhysicallyEqual wanted c.resource ∧ c.workflowId = w

/-- A workflow that is there and can still make progress. -/
def Live (workflows : WorkflowTable) (id : WorkflowId) : Prop :=
  ∃ w ∈ workflows, w.id = id ∧ w.status.isTerminal = false

structure ClaimsOk (claims : ClaimTable) (workflows : WorkflowTable) : Prop where
  exclusive : ClaimsExclusive claims
  owner : ∀ c ∈ claims, Live workflows c.workflowId

/-! ## Items -/

/-- Every dependency of the item names a satisfied item of its workflow. -/
def DependenciesMet (items : ItemTable) (i : WorkItem) : Prop :=
  ∀ key ∈ i.spec.dependencies, ∃ j ∈ items, j.spec.workflowId = i.spec.workflowId ∧
    some j.spec.dedupeKey = key ∧ j.state.status.isSatisfied = true

structure ItemsOk (items : ItemTable) (workflows : WorkflowTable) : Prop where
  /-- An item has an owner, and a terminal owner has terminal items only. -/
  owner : ∀ i ∈ items, ∃ w ∈ workflows, w.id = i.spec.workflowId ∧
    (w.status.isTerminal = true → i.state.status.isTerminal = true)
  key : ∀ i ∈ items, ∀ j ∈ items, i.spec.workflowId = j.spec.workflowId →
    i.spec.dedupeKey = j.spec.dedupeKey → i = j
  gate : ∀ i ∈ items, i.state.status.isClaimed = true ∨ i.state.everStarted = true →
    DependenciesMet items i

/-! ## Attempts and assignments -/

structure AttemptsOk (attempts : AttemptTable) (items : ItemTable) : Prop where
  /-- An attempt has an item, an ordinal the item has counted, and is open only while the
  item runs. -/
  item : ∀ a ∈ attempts, ∃ i ∈ items, i.id = a.itemId ∧ 1 ≤ a.attemptOrdinal ∧
    a.attemptOrdinal ≤ i.state.attemptCount ∧ (a.endedAtMs = none → i.state.status = .running)
  counted : ∀ i ∈ items, ∀ n, 1 ≤ n → n ≤ i.state.attemptCount →
    ∃ a ∈ attempts, a.itemId = i.id ∧ a.attemptOrdinal = n
  running : ∀ i ∈ items, i.state.status = .running →
    ∃ a ∈ attempts, a.itemId = i.id ∧ a.endedAtMs = none
  single : ∀ a ∈ attempts, ∀ b ∈ attempts, a.endedAtMs = none → b.endedAtMs = none →
    a.itemId = b.itemId → a = b
  started : ∀ i ∈ items, i.state.everStarted = true ↔ 0 < i.state.attemptCount

/-- An assignment has an item, which is claimed unless the assignment is released. -/
def AssignmentsOk (assignments : AssignmentTable) (items : ItemTable) : Prop :=
  ∀ a ∈ assignments, ∃ i ∈ items, i.id = a.itemId ∧
    (a.state ≠ .released → i.state.status.isClaimed = true)

/-! ## Allocations -/

structure AllocationsOk (allocations : AllocationTable) (items : ItemTable)
    (pools : PoolTable) : Prop where
  /-- An allocation has an item, which is not terminal while the allocation is active. -/
  item : ∀ a ∈ allocations, ∃ i ∈ items, i.id = a.itemId ∧
    (a.state = .active → i.state.status.isTerminal = false)
  pool : ∀ a ∈ allocations, 0 < a.quantity ∧ a.poolKey = a.resource.resource.json ∧
    pools.hasKey a.poolKey = true

/-! ## Targets and identifiers -/

def TargetsOk (targets : TargetTable) (workflows : WorkflowTable) : Prop :=
  ∀ t ∈ targets, workflows.hasKey t.workflowId = true

/-- Identifiers in use have been drawn. -/
def Drawn (u : IdSource) (n : ℕ) (id : Uuid) : Prop := ∃ k < n, u.draw k = id

structure IdsOk (u : IdSource) (n : ℕ) (workflows : WorkflowTable) (items : ItemTable) : Prop where
  workflow : ∀ w ∈ workflows, Drawn u n w.id
  item : ∀ i ∈ items, Drawn u n i.id

/-! ## All of them -/

structure Inv (u : IdSource) (s : Repo) : Prop where
  claims : ClaimsOk s.claims s.workflows
  items : ItemsOk s.items s.workflows
  attempts : AttemptsOk s.attempts s.items
  assignments : AssignmentsOk s.assignments s.items
  allocations : AllocationsOk s.allocations s.items s.pools
  targets : TargetsOk s.targets s.workflows
  ids : IdsOk u s.uuidsDrawn s.workflows s.items

lemma Inv.empty (u : IdSource) : Inv u Repo.empty where
  claims :=
    { exclusive := forall_mem_empty
      owner := forall_mem_empty }
  items :=
    { owner := forall_mem_empty
      key := forall_mem_empty
      gate := forall_mem_empty }
  attempts :=
    { item := forall_mem_empty
      counted := forall_mem_empty
      running := forall_mem_empty
      single := forall_mem_empty
      started := forall_mem_empty }
  assignments := forall_mem_empty
  allocations :=
    { item := forall_mem_empty
      pool := forall_mem_empty }
  targets := forall_mem_empty
  ids :=
    { workflow := forall_mem_empty
      item := forall_mem_empty }

/-! ## Reading the invariants off the queries -/

lemma ownsItem_iff {s : Repo} {w : WorkflowId} {id : WorkItemId} :
    s.ownsItem w id = true ↔ ∃ i ∈ s.items, i.id = id ∧ i.spec.workflowId = w := by
  simp only [Repo.ownsItem, List.any_eq_true, Bool.and_eq_true, decide_eq_true_eq, mem_def]

lemma dependenciesMet_iff {s : Repo} {i : WorkItem} :
    s.dependenciesMet i = true ↔ DependenciesMet s.items i := by
  simp only [Repo.dependenciesMet, DependenciesMet, List.all_eq_true, List.any_eq_true,
    Bool.and_eq_true, decide_eq_true_eq, and_assoc, mem_def]

end Replicant.Workflow
