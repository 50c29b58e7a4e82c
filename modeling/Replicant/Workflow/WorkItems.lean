import Replicant.Workflow.Store

/-!
# Work items

Reconciliation of the desired set, the claim that checks the dependencies of an item, the start of an
attempt, the eight transitions, and the reclaim of items orphaned by a restart.
-/

namespace Replicant.Workflow

open Lib

/-! ## Reconciling the desired items -/

/-- The map from dedupe keys to specifications, or the first conflict. -/
def desiredByKey (workflowId : WorkflowId) :
    List WorkItemSpec → List WorkItemSpec → Except RepositoryError (List WorkItemSpec)
  | byKey, [] => .ok byKey
  | byKey, spec :: rest =>
    match byKey.find? fun existing => existing.dedupeKey = spec.dedupeKey with
    | some existing =>
      if spec.workflowId ≠ workflowId ∨ existing ≠ spec then
        .error (.workItemSpecConflict workflowId spec.dedupeKey)
      else desiredByKey workflowId byKey rest
    | none =>
      if spec.workflowId ≠ workflowId then
        .error (.workItemSpecConflict workflowId spec.dedupeKey)
      else desiredByKey workflowId (byKey ++ [spec]) rest

/-- `ORDER BY sort_key, dedupe_key, id`. -/
def WorkItem.schedulerLe (a b : WorkItem) : Prop :=
  a.spec.sortKey < b.spec.sortKey ∨ (a.spec.sortKey = b.spec.sortKey ∧
    (a.spec.dedupeKey < b.spec.dedupeKey ∨
      (a.spec.dedupeKey = b.spec.dedupeKey ∧ a.id ≤ b.id)))

instance : DecidableRel WorkItem.schedulerLe := fun _ _ =>
  inferInstanceAs (Decidable (_ ∨ (_ ∧ (_ ∨ (_ ∧ _)))))

variable (s : Repo) (workflowId : WorkflowId) (itemId : WorkItemId) (now : ℤ)

/-- `list_work_items_in`. -/
def Repo.listWorkItems : List WorkItem :=
  (s.items.rows.filter (·.spec.workflowId = workflowId)).insertionSort WorkItem.schedulerLe

/-- The state of an item that has just been inserted. -/
def WorkItemState.new : WorkItemState where
  status := .pending
  checkpointJson := none
  resultJson := none
  lastError := none
  attemptCount := 0
  consecutiveFailureCount := 0
  nextAttemptAtMs := none
  everStarted := false
  createdAtMs := now
  updatedAtMs := now
  revision := 0

/-- One desired specification: it is there already, or it is inserted. -/
def reconcileWorkItem (u : IdSource) (workflowId : WorkflowId) (now : ℤ) (spec : WorkItemSpec) :
    Tx Unit := do
  match ← Tx.query fun s => s.items.rows.find? fun i =>
      i.spec.workflowId = workflowId && i.spec.dedupeKey = spec.dedupeKey with
  | some existing =>
    -- An item is never rewritten to a new specification, only compared with it.
    Tx.ensure (existing.spec = spec) (.workItemSpecConflict workflowId spec.dedupeKey)
  | none => do
    let id ← drawUuid u
    insertItemRow ⟨id, { spec with workflowId := workflowId }, .new now⟩

def reconcileWorkItems (u : IdSource) (workflowId : WorkflowId) (desired : List WorkItemSpec)
    (now : ℤ) : Tx (List WorkItem) := do
  let specs ← Tx.check (desiredByKey workflowId [] desired)
  let owner ← requireWorkflow workflowId
  Tx.ensure (owner.status.isTerminal = false) (.terminalWorkItemOwner workflowId)
  forM (specs.insertionSort fun a b => a.dedupeKey ≤ b.dedupeKey)
    (reconcileWorkItem u workflowId now)
  Tx.query (·.listWorkItems workflowId)

/-! ## Claiming and starting -/

variable (id : WorkItemId) (state : WorkItemState)

/-- The item is pending or waiting and its time has come. -/
def WorkItemState.isDue (now : ℤ) : Bool :=
  match state.status, state.nextAttemptAtMs with
  | .pending, none => true
  | .pending, some t | .waiting, some t => t ≤ now
  -- A waiting item without a time waits until a transition gives it one.
  | _, _ => false

/-- The item `claim_next_work_item` takes. -/
def Repo.nextClaimable : Option WorkItem :=
  ((s.items.rows.filter fun i => i.spec.workflowId = workflowId && i.state.isDue now &&
    s.dependenciesMet i).insertionSort WorkItem.schedulerLe).head?

/-- The columns of a claimed item. -/
def WorkItemState.claim : WorkItemState :=
  { state with
    status := .assigned
    nextAttemptAtMs := none
    updatedAtMs := now
    revision := state.revision + 1 }

def claimNextWorkItem : Tx (Option WorkItem) := do
  let owner ← requireWorkflow workflowId
  Tx.ensure (owner.status.isTerminal = false) (.terminalWorkItemOwner workflowId)
  match ← Tx.query (·.nextClaimable workflowId now) with
  | none => pure none
  | some item => do
    -- Search and update are one transaction: no two calls claim one item.
    Tx.execute (·.updateItems (·.id = item.id) (.claim now))
    let claimed ← requireWorkItem item.id
    pure (some claimed)

def verifyWorkItemRevision (item : WorkItem) (expected : ℕ) : Tx Unit :=
  Tx.ensure (item.state.revision = expected) (.concurrentWorkItemUpdate item.id expected)

/-- An update guarded by the revision the caller has read. -/
def updateItemAtRevision (expected : ℕ) (f : WorkItemState → WorkItemState) :
    Tx Unit := do
  let current (i : WorkItem) : Bool := i.id = id && i.state.revision = expected
  -- The count is what the statement reports as changed rows.
  let changed ← Tx.query fun s => s.items.rows.countP current
  Tx.execute (·.updateItems current f)
  Tx.ensure (changed ≠ 0) (.concurrentWorkItemUpdate id expected)

/-- The columns of a started item. -/
def WorkItemState.start (attemptOrdinal : ℕ) (now : ℤ) (state : WorkItemState) :
    WorkItemState :=
  { state with
    status := .running
    attemptCount := attemptOrdinal
    everStarted := true
    updatedAtMs := now
    revision := state.revision + 1 }

def startWorkItem (expectedRevision : ℕ) (workerIdentity assignmentId : String)
    (startedAtMs : ℤ) : Tx WorkItem := do
  Tx.ensure (assignmentId ≠ "") (.invalidWorkItemAssignment "assignment_id must not be empty")
  Tx.ensure (workerIdentity ≠ "")
    (.invalidWorkItemAssignment "worker_identity must not be empty")
  revisionToSql expectedRevision
  let current ← requireWorkItem id
  verifyWorkItemRevision current expectedRevision
  Tx.ensure (current.state.status = .assigned)
    (.invalidWorkItemTransition current.state.status .running)
  Tx.ensure (current.state.attemptCount + 1 ≤ u32Max)
    (.invalidStoredWorkItemCount "attempt" current.state.attemptCount)
  insertAttemptRow
    { itemId := id, attemptOrdinal := current.state.attemptCount + 1, assignmentId,
      workerIdentity, startedAtMs, endedAtMs := none, outcome := none, error := none }
  updateItemAtRevision id expectedRevision
    (.start (current.state.attemptCount + 1) startedAtMs)
  requireWorkItem id

/-! ## Retry delays -/

/-- The FNV-1a hash of a byte sequence. -/
def fnv1a (bytes : List ℕ) : ℕ :=
  bytes.foldl (fun hash byte => (hash ^^^ byte) * 0x100000001b3 % 2 ^ 64) 0xcbf29ce484222325

/-- `work_item_retry_delay_ms`: an exponential delay with a deterministic jitter of up to
a tenth, capped at six hours. -/
def workItemRetryDelayMs (attemptOrdinal consecutiveFailureCount : ℕ) : ℕ :=
  let base := 300000
  let cap := 21600000
  let exponent := consecutiveFailureCount - 1
  -- Seven doublings are past the cap; the source does not shift further.
  let unjittered := if 7 ≤ exponent then cap else min (base * 2 ^ exponent) cap
  let idBytes := (List.range 16).map fun k => itemId / 256 ^ (15 - k) % 256
  let ordinalBytes := (List.range 4).map fun k => attemptOrdinal / 256 ^ k % 256
  let factor := 9000 + fnv1a (idBytes ++ ordinalBytes) % 2001
  min (unjittered * factor / 10000) cap

/-! ## Transitions -/

/-- What a transition writes: the new columns, how the attempt closes and whether the
item's allocations go. -/
structure TransitionPlan where
  status : WorkItemStatus
  checkpointJson : Option String
  resultJson : Option String
  lastError : Option String
  consecutiveFailureCount : ℕ
  nextAttemptAtMs : Option ℤ
  attemptClose : Option (WorkItemAttemptOutcome × Option String)
  releaseAllocations : Bool

/-- The close of the attempt of an item that leaves `running`. -/
def WorkItemState.closeIfRunning (outcome : WorkItemAttemptOutcome)
    (error : Option String) : Option (WorkItemAttemptOutcome × Option String) :=
  if state.status = .running then some (outcome, error) else none

/-- The match of `transition_work_item_in`. -/
def planTransition (current : WorkItem) (transition : WorkItemTransition) (now : ℤ) :
    Except RepositoryError TransitionPlan :=
  let state := current.state
  let refuse (target : WorkItemStatus) : Except RepositoryError TransitionPlan :=
    .error (.invalidWorkItemTransition state.status target)
  if state.status.isTerminal then refuse state.status
  else
    -- The columns a transition leaves alone keep their current values.
    let keep : TransitionPlan :=
      { status := state.status
        checkpointJson := state.checkpointJson
        resultJson := state.resultJson
        lastError := state.lastError
        consecutiveFailureCount := state.consecutiveFailureCount
        nextAttemptAtMs := none
        attemptClose := none
        releaseAllocations := false }
    match transition with
    | .checkpointCommitted checkpointJson =>
      if state.status ≠ .running then refuse .running
      else .ok { keep with
        checkpointJson := some checkpointJson
        consecutiveFailureCount := 0
        lastError := none }
    | .waiting checkpointJson reason retryAtMs =>
      -- An attempt is open only while the item runs.
      .ok { keep with
        status := .waiting
        checkpointJson := checkpointJson <|> state.checkpointJson
        lastError := some reason
        nextAttemptAtMs := retryAtMs
        attemptClose := state.closeIfRunning .reclaimed none }
    | .retryableFailure checkpointJson error =>
      if state.status ≠ .running then refuse .pending
      else if state.consecutiveFailureCount + 1 > u32Max then
        .error (.invalidStoredWorkItemCount "consecutive failure" state.consecutiveFailureCount)
      else
        let delay := workItemRetryDelayMs current.id state.attemptCount
          (state.consecutiveFailureCount + 1)
        .ok { keep with
          status := .pending
          checkpointJson := checkpointJson <|> state.checkpointJson
          lastError := some error
          consecutiveFailureCount := state.consecutiveFailureCount + 1
          nextAttemptAtMs := some (min (now + delay) i64Max)
          attemptClose := some (.failed, some error) }
    | .succeeded checkpointJson resultJson =>
      if state.status ≠ .running then refuse .succeeded
      else .ok { keep with
        status := .succeeded
        checkpointJson := checkpointJson <|> state.checkpointJson
        resultJson := resultJson
        lastError := none
        consecutiveFailureCount := 0
        attemptClose := some (.succeeded, none) }
    | .skipped reason resultJson =>
      .ok { keep with
        status := .skipped
        resultJson := resultJson
        lastError := some reason
        consecutiveFailureCount := 0
        attemptClose := state.closeIfRunning .succeeded none }
    | .failed error resultJson =>
      .ok { keep with
        status := .failed
        resultJson := resultJson
        lastError := some error
        consecutiveFailureCount := 0
        attemptClose := state.closeIfRunning .failed (some error) }
    | .abandoned reason =>
      .ok { keep with
        status := .abandoned
        lastError := some reason
        consecutiveFailureCount := 0
        attemptClose := state.closeIfRunning .cancelled none }
    | .reclaimed checkpointJson =>
      if state.status.isClaimed then
        .ok { keep with
          status := .pending
          checkpointJson := checkpointJson <|> state.checkpointJson
          attemptClose := state.closeIfRunning .reclaimed none
          releaseAllocations := true }
      else refuse .pending

/-- The error of `close_open_attempt`. -/
def openAttemptError : RepositoryError :=
  .invalidWorkItemAssignment "running item must have exactly one open attempt"

/-- The item's attempts that are still open. -/
def Repo.openAttempts : ℕ :=
  s.attempts.rows.countP fun a => a.itemId = itemId && a.endedAtMs = none

def closeOpenAttempt (outcome : WorkItemAttemptOutcome)
    (error : Option String) (endedAtMs : ℤ) : Tx Unit := do
  let changed ← Tx.query (·.openAttempts itemId)
  Tx.execute (·.endAttempts (·.itemId = itemId) outcome (fun _ => error) endedAtMs)
  Tx.ensure (changed = 1) openAttemptError

/-- Close the attempt as a plan says. -/
def closePlanned : Option (WorkItemAttemptOutcome × Option String) → Tx Unit
  | some (outcome, error) => closeOpenAttempt itemId outcome error now
  | none => pure ()

/-- Delete the claims the item's active allocations name and release the allocations. -/
def releaseItemAllocations : Tx Unit := do
  Tx.execute (·.dropItemClaims workflowId itemId)
  Tx.execute (·.setAllocations (fun a => a.itemId = itemId && a.state = .active) .released now)

/-- The columns of a plan, written over the current ones. -/
def TransitionPlan.write (plan : TransitionPlan) (now : ℤ) (state : WorkItemState) :
    WorkItemState :=
  { state with
    status := plan.status
    checkpointJson := plan.checkpointJson
    resultJson := plan.resultJson
    lastError := plan.lastError
    consecutiveFailureCount := plan.consecutiveFailureCount
    nextAttemptAtMs := plan.nextAttemptAtMs
    updatedAtMs := now
    revision := state.revision + 1 }

def transitionWorkItemIn (current : WorkItem) (transition : WorkItemTransition) (now : ℤ) :
    Tx Unit := do
  let plan ← Tx.check (planTransition current transition now)
  closePlanned current.id now plan.attemptClose
  Tx.when (plan.status.isTerminal ∨ plan.releaseAllocations)
    (releaseItemAllocations current.spec.workflowId current.id now)
  -- A checkpoint leaves the item with its worker, and the assignment with it.
  Tx.when (plan.status.isClaimed = false)
    (Tx.execute (·.releaseAssignments (· = current.id) now))
  revisionToSql current.state.revision
  updateItemAtRevision current.id current.state.revision (plan.write now)

def transitionWorkItem (expectedRevision : ℕ)
    (transition : WorkItemTransition) (now : ℤ) : Tx WorkItem := do
  let current ← requireWorkItem id
  verifyWorkItemRevision current expectedRevision
  transitionWorkItemIn current transition now
  requireWorkItem id

/-! ## Orphans -/

/-- The workflows whose orphans a reconciliation takes: all that are neither terminal nor
paused, or the one named, also when it is paused. -/
def reclaimsFrom (workflowId : Option WorkflowId) (w : WorkflowRow) : Bool :=
  match workflowId with
  | none => !w.status.isTerminal && w.status ≠ .paused
  | some id => w.id = id && !w.status.isTerminal

/-- The items `reconcile_orphaned_work_items` selects, by id. -/
def Repo.orphans (workflowId : Option WorkflowId) : List WorkItem :=
  (s.items.rows.filter fun i => i.state.status.isClaimed && s.workflows.rows.any fun w =>
    w.id = i.spec.workflowId && reclaimsFrom workflowId w).insertionSort fun a b => a.id ≤ b.id

/-- The claims that the active allocations of an item name, whoever the caller is: the
owner is read from the item's row. -/
def Repo.dropOrphanClaims : Repo :=
  s.deleteClaims fun c => s.allocations.rows.any fun a =>
    a.itemId = itemId && a.state = .active && s.ownsItem c.workflowId itemId &&
      a.resource = c.resource

/-- The columns of a reclaimed orphan. -/
def WorkItemState.reclaim : WorkItemState :=
  { state with
    status := .pending
    nextAttemptAtMs := none
    updatedAtMs := now
    revision := state.revision + 1 }

/-- One orphan. -/
def reclaimOrphan (orphan : WorkItem) : Tx Unit := do
  -- An orphan that was only assigned has no attempt yet.
  Tx.when (orphan.state.status = .running)
    (closeOpenAttempt orphan.id .reclaimed none now)
  Tx.execute (·.dropOrphanClaims orphan.id)
  Tx.execute (·.setAllocations (fun a => a.itemId = orphan.id && a.state = .active)
    .released now)
  Tx.execute (·.releaseAssignments (· = orphan.id) now)
  Tx.execute (·.updateItems (·.id = orphan.id) (.reclaim now))

def reconcileOrphanedWorkItems (workflowId : Option WorkflowId) (now : ℤ) : Tx ℕ := do
  let orphans ← Tx.query (·.orphans workflowId)
  forM orphans (reclaimOrphan now)
  pure orphans.length

end Replicant.Workflow
