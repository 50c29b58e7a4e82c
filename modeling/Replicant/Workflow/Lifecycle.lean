import Replicant.Workflow.Claims
import Replicant.Workflow.WorkItems

/-!
# Workflow instances

Creation with the handoff of a parent's claims, the replacement of the mutable state with
its terminal cascade, migration, and the pruning of terminal rows.
-/

namespace Replicant.Workflow

open Lib

/-! ## Creation -/

structure NewWorkflow where
  kind : String
  schemaVersion : ℕ
  configJson : String
  checkpointJson : String
  currentStep : Option String
  parentId : Option WorkflowId

variable (workflow : NewWorkflow) (id : WorkflowId) (expectedRevision : ℕ) (state : WorkflowState)

variable (waitIntentJson : Option String) (now : ℤ)

/-- The row `insert_workflow_in` writes. -/
def NewWorkflow.row : WorkflowRow where
  id := id
  kind := workflow.kind
  schemaVersion := workflow.schemaVersion
  configJson := workflow.configJson
  checkpointJson := workflow.checkpointJson
  status := .queued
  currentStep := workflow.currentStep
  createdAt := now
  updatedAt := now
  lastError := none
  resultJson := none
  parentId := workflow.parentId
  revision := 0
  waitIntentJson := none
  failureDisposition := none

def insertWorkflowIn : Tx WorkflowRow := do
  insertWorkflowRow (workflow.row id now)
  requireWorkflow id

/-- The handoff of a creation: it needs a parent as soon as there is a resource. -/
def inheritClaims (parentId : Option WorkflowId) (id : WorkflowId)
    (resources : List ResourceKey) (now : ℤ) : Tx Unit := do
  let parent ← Tx.require parentId (.compatibility "claim handoff requires a parent")
  transferClaimsIn parent id resources now

/-- `create_with_parent_claims`; `create` is the call without resources. -/
def createWithParentClaims (u : IdSource) (workflow : NewWorkflow)
    (resources : List ResourceKey) (now : ℤ) : Tx WorkflowRow := do
  Tx.ensure (workflow.schemaVersion ≠ 0) .invalidWorkflowSchemaVersion
  let id ← drawUuid u
  let instanceRow ← insertWorkflowIn workflow id now
  Tx.when (resources ≠ []) (inheritClaims workflow.parentId id resources now)
  pure instanceRow

/-- `ORDER BY created_at, id`. -/
def WorkflowRow.creationLe (a b : WorkflowRow) : Prop :=
  a.createdAt < b.createdAt ∨ (a.createdAt = b.createdAt ∧ a.id ≤ b.id)

instance : DecidableRel WorkflowRow.creationLe := fun _ _ =>
  inferInstanceAs (Decidable (_ ∨ (_ ∧ _)))

/-- The active rows in creation order. -/
def Repo.listActive (s : Repo) : List WorkflowRow :=
  (s.workflows.rows.filter fun w => !w.status.isTerminal).insertionSort WorkflowRow.creationLe

/-- The first row the caller's predicate accepts. The predicate may fail, and may depend on
how often it has been asked. -/
def firstCompatible (compatible : ℕ → WorkflowRow → Except RepositoryError Bool) :
    ℕ → List WorkflowRow → Except RepositoryError (Option WorkflowRow)
  | _, [] => .ok none
  | asked, row :: rest =>
    match compatible asked row with
    | .error e => .error e
    | .ok true => .ok (some row)
    | .ok false => firstCompatible compatible (asked + 1) rest

structure CreateOrReuseWorkflow where
  row : WorkflowRow
  created : Bool

def createOrReuseActive (u : IdSource) (workflow : NewWorkflow)
    (compatible : ℕ → WorkflowRow → Except RepositoryError Bool) (now : ℤ) :
    Tx CreateOrReuseWorkflow := do
  Tx.ensure (workflow.schemaVersion ≠ 0) .invalidWorkflowSchemaVersion
  let id ← drawUuid u
  -- The identifier is already drawn, and is lost when a row is reused.
  match ← Tx.queryM fun s => firstCompatible compatible 0 s.listActive with
  | some row => pure ⟨row, false⟩
  | none => do
    let row ← insertWorkflowIn workflow id now
    pure ⟨row, true⟩

/-! ## State replacement -/

/-- The mutable state a caller writes. -/
structure WorkflowState where
  status : WorkflowStatus
  currentStep : Option String
  checkpointJson : String
  lastError : Option String
  resultJson : Option String

/-- The columns `update_state` writes. A disposition is kept for a failure only. -/
def WorkflowState.write
    (failureDisposition : Option WorkflowFailureDisposition) (now : ℤ) (w : WorkflowRow) :
    WorkflowRow :=
  { w with
    status := state.status
    currentStep := state.currentStep
    checkpointJson := state.checkpointJson
    lastError := state.lastError
    resultJson := state.resultJson
    updatedAt := now
    revision := w.revision + 1
    waitIntentJson := waitIntentJson
    failureDisposition := if state.status = .failed then failureDisposition else none }

/-- The columns of an item that its ending workflow abandons. -/
def WorkItemState.abandon (state : WorkItemState) : WorkItemState :=
  { state with
    status := .abandoned
    nextAttemptAtMs := none
    consecutiveFailureCount := 0
    updatedAtMs := now
    revision := state.revision + 1 }

/-- The terminal cascade: attempts are cancelled, claims deleted, allocations and
assignments released, and the items that are not terminal abandoned. -/
def Repo.releaseWorkflow (s : Repo) (id : WorkflowId) (now : ℤ) : Repo :=
  ((((s.endAttempts (fun a => s.ownsItem id a.itemId) .cancelled (·.error) now).deleteClaims
    (·.workflowId = id)).setAllocations
      (fun a => a.state = .active && s.ownsItem id a.itemId) .released now).releaseAssignments
        (s.ownsItem id) now).updateItems
          (fun i => i.spec.workflowId = id && !i.state.status.isTerminal) (.abandon now)

/-- The claims of a completed child go back to its parent, if that is still alive. -/
def returnClaims (current : WorkflowRow) (resources : List ResourceKey) (now : ℤ) :
    Tx Unit := do
  match current.parentId with
  | none => pure ()
  | some parent => do
    let row ← Tx.query fun s => s.workflows.find? parent
    -- A parent that has ended gets nothing; the claims go with the cascade.
    Tx.when (row.any fun w => !w.status.isTerminal)
      (transferClaimsIn current.id parent resources now)

/-- What a terminal status brings with it. -/
def endWorkflow (current : WorkflowRow) (returnToParent : List ResourceKey) (now : ℤ) :
    Tx Unit := do
  Tx.when (returnToParent ≠ []) (returnClaims current returnToParent now)
  Tx.execute (·.releaseWorkflow current.id now)

def updateState (failureDisposition : Option WorkflowFailureDisposition)
    (returnToParent : List ResourceKey) (now : ℤ) : Tx WorkflowRow := do
  revisionToSql expectedRevision
  let current ← requireWorkflow id
  Tx.ensure (current.revision = expectedRevision) (.concurrentUpdate id expectedRevision)
  Tx.ensure (current.status.canTransitionTo state.status)
    (.invalidTransition current.status state.status)
  Tx.execute (·.updateWorkflows (fun w => w.id = id && w.revision = expectedRevision)
    (state.write waitIntentJson failureDisposition now) fun _ => rfl)
  -- The cascade sees the row with its new status.
  Tx.when state.status.isTerminal (endWorkflow current returnToParent now)
  requireWorkflow id

/-- The default disposition of `update` and `update_with_wait`. -/
def WorkflowState.defaultDisposition : Option WorkflowFailureDisposition :=
  if state.status = .failed then some .retryable else none

/-- `update_with_wait`; `update` is the call without a wait intent. -/
def updateWithWait : Tx WorkflowRow :=
  updateState id expectedRevision state waitIntentJson state.defaultDisposition [] now

def updateWithFailureDisposition (failureDisposition : WorkflowFailureDisposition) (now : ℤ) :
    Tx WorkflowRow :=
  updateState id expectedRevision state none (some failureDisposition) [] now

def completeWithParentClaims (resources : List ResourceKey) (now : ℤ) : Tx WorkflowRow := do
  Tx.ensure (state.status = .succeeded) (.compatibility "payload return requires success")
  updateState id expectedRevision state none none resources now

def migrateWorkflow (row : WorkflowRow) (targetVersion : ℕ) (configJson checkpointJson : String)
    (now : ℤ) : Tx WorkflowRow := do
  Tx.ensure (row.schemaVersion < targetVersion) .invalidWorkflowSchemaVersion
  revisionToSql row.revision
  -- The version is part of the guard, so a migration runs once.
  let current (w : WorkflowRow) : Bool :=
    w.id = row.id && w.revision = row.revision && w.schemaVersion = row.schemaVersion
  let changed ← Tx.query fun s => s.workflows.rows.countP current
  Tx.execute (·.updateWorkflows current (fun w => { w with
    schemaVersion := targetVersion
    configJson := configJson
    checkpointJson := checkpointJson
    updatedAt := now
    revision := w.revision + 1 }) fun _ => rfl)
  Tx.ensure (changed ≠ 0) (.concurrentUpdate row.id row.revision)
  requireWorkflow row.id

/-! ## Pruning -/

/-- The terminal leaf rows that are old enough and hold no claim. -/
def Repo.prunable (s : Repo) (cutoffMillis : ℤ) : List WorkflowId :=
  (s.workflows.rows.filter fun w => w.status.isTerminal && w.updatedAt < cutoffMillis &&
    !(s.claims.rows.any fun c => c.workflowId = w.id) &&
    !(s.workflows.rows.any fun child => child.parentId = some w.id)).map (·.id)

/-- Rounds of the pruning loop: removing leaves can make their parents leaves. -/
def pruneRounds (cutoffMillis : ℤ) : ℕ → ℕ → Tx ℕ
  | 0, removed => pure removed
  | fuel + 1, removed => do
    let ids ← Tx.query (·.prunable cutoffMillis)
    if ids = [] then pure removed
    else do
      forM ids fun id => Tx.execute (·.deleteWorkflow id)
      pruneRounds cutoffMillis fuel (removed + ids.length)

/-- `prune_terminal_before`. Every round but the last deletes a row, so the number of rows
bounds the rounds. -/
def pruneTerminalBefore (cutoffMillis : ℤ) : Tx ℕ := do
  let rows ← Tx.query fun s => s.workflows.rows.length
  pruneRounds cutoffMillis (rows + 1) 0

end Replicant.Workflow
