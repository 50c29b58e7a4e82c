import Replicant.Workflow.Model
import Replicant.Lib.Transaction

/-!
# The persisted state and its statements

`Repo` is the database: one table per relation, the intelligence revision, and how many identifiers
have been drawn. Each statement the repository issues is one function on it, with the effects of the
triggers and of the cascading foreign keys.
-/

namespace Replicant.Workflow

open Lib

structure Repo where
  workflows : Table WorkflowRow WorkflowRow.id
  claims : Table ClaimRow ClaimRow.resource
  items : Table WorkItem WorkItem.id
  attempts : Table AttemptRow AttemptRow.identity
  pools : Table PoolRow PoolRow.poolKey
  allocations : Table AllocationRow AllocationRow.id
  assignments : Table AssignmentRow AssignmentRow.id
  targets : Table TargetRow TargetRow.identity
  activity : List ActivityRow
  intelligenceRevision : ℕ
  uuidsDrawn : ℕ

abbrev Tx := Lib.Tx Repo RepositoryError

/-- Where identifiers come from. Version 4 identifiers are taken never to repeat. -/
structure IdSource where
  draw : ℕ → Uuid
  injective : ∀ m n, draw m = draw n → m = n

/-- The source that counts. -/
def IdSource.counting : IdSource := ⟨id, fun _ _ h => h⟩

namespace Repo

def empty : Repo where
  workflows := .empty
  claims := .empty
  items := .empty
  attempts := .empty
  pools := .empty
  allocations := .empty
  assignments := .empty
  targets := .empty
  activity := []
  intelligenceRevision := 0
  uuidsDrawn := 0

/-! ## Reads -/

section Reads

variable (s : Repo)

/-- The item has the workflow as its owner. -/
def ownsItem (workflowId : WorkflowId) (itemId : WorkItemId) : Bool :=
  s.items.rows.any fun i => i.id = itemId && i.spec.workflowId = workflowId

/-- `SUM(quantity)` over the active allocations of a pool. -/
def activeQuantity (poolKey : String) : ℕ :=
  s.allocations.sumWhere (fun a => a.poolKey = poolKey && a.state = .active) (·.quantity)

/-- Whether a worker holds an assignment that is not released. -/
def hasActiveAssignment (worker : ResourceIdentity) : Bool :=
  s.assignments.rows.any fun a => a.worker = worker && a.state ≠ .released

/-- Every dependency of the item has a satisfied item of the same workflow. -/
def dependenciesMet (item : WorkItem) : Bool :=
  item.spec.dependencies.all fun key =>
    s.items.rows.any fun prerequisite =>
      prerequisite.spec.workflowId = item.spec.workflowId &&
        some prerequisite.spec.dedupeKey = key && prerequisite.state.status.isSatisfied

end Reads

/-! ## Workflow statements -/

section Workflows

variable (s : Repo)

def insertWorkflow (row : WorkflowRow) : Repo :=
  { s with workflows := s.workflows.insert row }

/-- `UPDATE workflow_instances`. No statement changes an id. -/
def updateWorkflows (p : WorkflowRow → Bool) (f : WorkflowRow → WorkflowRow)
    (hf : ∀ w, (f w).id = w.id) : Repo :=
  { s with workflows := s.workflows.update p f hf }

/-- `DELETE FROM workflow_instances`, after the activity of the workflow: items and targets go with
the row, and attempts, allocations and assignments with their items. -/
def deleteWorkflow (id : WorkflowId) : Repo :=
  { s with
    workflows := s.workflows.delete fun w => w.id = id
    items := s.items.delete fun i => i.spec.workflowId = id
    attempts := s.attempts.delete fun a => s.ownsItem id a.itemId
    allocations := s.allocations.delete fun a => s.ownsItem id a.itemId
    assignments := s.assignments.delete fun a => s.ownsItem id a.itemId
    targets := s.targets.delete fun t => t.workflowId = id
    activity := s.activity.filter fun a => a.workflowId ≠ id
    -- The triggers fire for each deleted allocation and each deleted target.
    intelligenceRevision := s.intelligenceRevision +
      s.allocations.rows.countP (fun a => s.ownsItem id a.itemId) +
      s.targets.rows.countP (fun t => t.workflowId = id) }

end Workflows

/-! ## Claim statements -/

section Claims

variable (s : Repo)

def insertClaim (row : ClaimRow) : Repo := { s with claims := s.claims.insert row }

lemma resource_touch (now : ℤ) (c : ClaimRow) :
    ({ c with updatedAt := now } : ClaimRow).resource = c.resource := rfl

/-- `SET updated_at` on the claim of one identity. -/
def touchClaim (resource : ResourceIdentity) (now : ℤ) : Repo :=
  { s with
    claims := s.claims.update (fun c => c.resource = resource)
      (fun c => { c with updatedAt := now }) (resource_touch now) }

/-- Every claim of `source` on the wanted resource becomes one of `dest`. -/
def moveClaims (source dest : WorkflowId) (wanted : ResourceIdentity) (now : ℤ) : Repo :=
  { s with
    claims := s.claims.update (fun c => wanted.matches c.resource && c.workflowId = source)
      (fun c => { c with workflowId := dest, updatedAt := now }) fun _ => rfl }

def deleteClaims (p : ClaimRow → Bool) : Repo := { s with claims := s.claims.delete p }

/-- The claims of a workflow that the active allocations of one item name. -/
def dropItemClaims (workflowId : WorkflowId) (itemId : WorkItemId) : Repo :=
  s.deleteClaims fun c => c.workflowId = workflowId && s.allocations.rows.any fun a =>
      a.itemId = itemId && a.state = .active && a.resource = c.resource

end Claims

/-! ## Work item statements -/

section WorkItems

variable (s : Repo)

def insertItem (row : WorkItem) : Repo := { s with items := s.items.insert row }

/-- `UPDATE workflow_work_items`: no statement touches a specification. -/
def updateItems (p : WorkItem → Bool) (f : WorkItemState → WorkItemState) : Repo :=
  { s with items := s.items.update p (fun i => { i with state := f i.state }) fun _ => rfl }

def insertAttempt (row : AttemptRow) : Repo := { s with attempts := s.attempts.insert row }

/-- End the open attempts among the rows; `error` stays as it is when none is given. -/
def endAttempts (p : AttemptRow → Bool) (outcome : WorkItemAttemptOutcome)
    (error : AttemptRow → Option String) (now : ℤ) : Repo :=
  { s with
    attempts := s.attempts.update (fun a => p a && a.endedAtMs = none)
      (fun a => { a with endedAtMs := some now, outcome := some outcome, error := error a })
      fun _ => rfl }

end WorkItems

/-! ## Allocation statements -/

section Allocations

variable (s : Repo)

/-- The pool rows of one key, with the trigger on the columns a reservation shows. -/
def updatePool (poolKey : String) (f : PoolRow → PoolRow)
    (hf : ∀ p, (f p).poolKey = p.poolKey) : Repo :=
  { s with
    pools := s.pools.update (fun p => p.poolKey = poolKey) f hf
    -- A pool that no active allocation shows changes without a trigger.
    intelligenceRevision := s.intelligenceRevision +
      s.pools.rows.countP (fun p => p.poolKey = poolKey &&
        s.allocations.rows.any (fun a => a.poolKey = p.poolKey && a.state = .active) &&
        (p.kind ≠ (f p).kind || p.capabilities ≠ (f p).capabilities ||
          p.location ≠ (f p).location)) }

def insertPool (row : PoolRow) : Repo := { s with pools := s.pools.insert row }

def insertAllocation (row : AllocationRow) : Repo :=
  { s with
    allocations := s.allocations.insert row
    intelligenceRevision := s.intelligenceRevision + 1 }

def setAllocations (p : AllocationRow → Bool) (state : AllocationState) (now : ℤ) : Repo :=
  { s with
    allocations := s.allocations.update p
      (fun a => { a with state := state, updatedAtMs := now }) fun _ => rfl
    intelligenceRevision := s.intelligenceRevision + s.allocations.rows.countP p }

def insertAssignment (row : AssignmentRow) : Repo :=
  { s with assignments := s.assignments.insert row }

def setAssignments (p : AssignmentRow → Bool) (state : AssignmentState)
    (reclaimRequestedAtMs : Option ℤ) (now : ℤ) : Repo :=
  { s with
    assignments := s.assignments.update p (fun a => { a with
        state := state, reclaimRequestedAtMs := reclaimRequestedAtMs, updatedAtMs := now })
      fun _ => rfl }

/-- `SET state = 'released'` on the assignments of the items that are not released yet. -/
def releaseAssignments (p : WorkItemId → Bool) (now : ℤ) : Repo :=
  s.setAssignments (fun a => p a.itemId && a.state ≠ .released) .released none now

end Allocations

/-! ## Target statements -/

section Targets

variable (s : Repo)

def insertTarget (row : TargetRow) : Repo :=
  { s with
    targets := s.targets.insert row
    intelligenceRevision := s.intelligenceRevision + 1 }

def updateTargets (p : TargetRow → Bool) (f : TargetRow → TargetRow)
    (hf : ∀ t, (f t).identity = t.identity) : Repo :=
  { s with
    targets := s.targets.update p f hf
    intelligenceRevision := s.intelligenceRevision + s.targets.rows.countP p }

end Targets

end Repo

/-! ## Statements that can fail -/

/-- A fresh identifier, `Uuid::new_v4`. -/
def drawUuid (u : IdSource) : Tx Uuid := fun s =>
  .ok (u.draw s.uuidsDrawn, { s with uuidsDrawn := s.uuidsDrawn + 1 })

/-- `read_in(..).ok_or(NotFound)`. -/
def requireWorkflow (id : WorkflowId) : Tx WorkflowRow := do
  Tx.require (← Tx.query fun s => s.workflows.find? id) (.notFound id)

/-- `read_work_item_in(..).ok_or(WorkItemNotFound)`. -/
def requireWorkItem (id : WorkItemId) : Tx WorkItem := do
  Tx.require (← Tx.query fun s => s.items.find? id) (.workItemNotFound id)

/-- `i64::try_from(revision)`. -/
def revisionToSql (revision : ℕ) : Tx Unit :=
  Tx.ensure (revision ≤ i64Max) (.revisionOutOfRange revision)

def insertWorkflowRow (row : WorkflowRow) : Tx Unit := do
  Tx.ensure (row.schemaVersion ≠ 0) (.sql (.checkConstraint "workflow_instances"))
  Tx.ensure (¬ (← Tx.query fun s => s.workflows.hasKey row.id))
    (.sql (.uniqueConstraint "workflow_instances"))
  let present ← Tx.query fun s (parent : WorkflowId) => s.workflows.hasKey parent
  -- A row may be its own parent: the key is checked after the insert.
  Tx.ensure (∀ parent ∈ row.parentId, present parent ∨ parent = row.id)
    (.sql (.foreignKey "workflow_instances"))
  Tx.execute (·.insertWorkflow row)

def insertClaimRow (row : ClaimRow) : Tx Unit := do
  Tx.ensure (¬ (← Tx.query fun s => s.claims.hasKey row.resource))
    (.sql (.uniqueConstraint "workflow_resource_claims"))
  Tx.execute (·.insertClaim row)

def insertItemRow (row : WorkItem) : Tx Unit := do
  Tx.ensure (¬ (← Tx.query fun s => s.items.hasKey row.id))
    (.sql (.uniqueConstraint "workflow_work_items"))
  Tx.ensure (¬ (← Tx.query fun s => s.items.rows.any fun i =>
      i.spec.workflowId = row.spec.workflowId && i.spec.dedupeKey = row.spec.dedupeKey))
    (.sql (.uniqueConstraint "workflow_work_items"))
  Tx.execute (·.insertItem row)

/-- The key of an attempt and the index on open attempts are both unique. -/
def insertAttemptRow (row : AttemptRow) : Tx Unit := do
  Tx.ensure (¬ (← Tx.query fun s => s.attempts.hasKey row.identity))
    (.sql (.uniqueConstraint "workflow_work_item_attempts"))
  Tx.ensure (¬ (← Tx.query fun s => s.attempts.rows.any fun a =>
      a.itemId = row.itemId && a.endedAtMs = none))
    (.sql (.uniqueConstraint "workflow_work_item_attempts_open_idx"))
  Tx.execute (·.insertAttempt row)

/-- The active allocations of an item's requirement name distinct resources. -/
def insertAllocationRow (row : AllocationRow) : Tx Unit := do
  Tx.ensure (0 < row.quantity) (.sql (.checkConstraint "workflow_resource_allocations"))
  Tx.ensure (¬ (← Tx.query fun s => s.allocations.hasKey row.id))
    (.sql (.uniqueConstraint "workflow_resource_allocations"))
  Tx.ensure (¬ (← Tx.query fun s => s.allocations.rows.any fun a =>
      a.itemId = row.itemId && a.requirementKey = row.requirementKey &&
        a.resource = row.resource && a.state = .active))
    (.sql (.uniqueConstraint "workflow_resource_allocations_active_identity_idx"))
  Tx.execute (·.insertAllocation row)

/-- At most one assignment of an item, and of a worker, is not released. -/
def insertAssignmentRow (row : AssignmentRow) : Tx Unit := do
  Tx.ensure (¬ (← Tx.query fun s => s.assignments.hasKey row.id))
    (.sql (.uniqueConstraint "workflow_assignments"))
  Tx.ensure (¬ (← Tx.query fun s => s.assignments.rows.any fun a =>
      a.itemId = row.itemId && a.state ≠ .released))
    (.sql (.uniqueConstraint "workflow_assignments_active_item_idx"))
  Tx.ensure (¬ (← Tx.query fun s => s.hasActiveAssignment row.worker))
    (.sql (.uniqueConstraint "workflow_assignments_active_worker_idx"))
  Tx.execute (·.insertAssignment row)

end Replicant.Workflow
