import Replicant.Managed.Journal

/-!
# The reconciliation queue

Requests to fetch an entity again, coalesced by `work_id`. Workers share the queue through a lease: a
worker acquires or renews the lease, claims one row, fetches, and then deletes the row or returns it
to the queue. Between two of its steps anyone may act. A device may be deleted by an event, or be
marked as absent because a traversal has not seen it.
-/

namespace Replicant.Managed

open Lib

inductive WorkState where
  | queued | running
deriving DecidableEq

/-- A row of `reconciliation_queue`; times are in seconds. -/
structure QueueRow where
  workId : String
  realm : Realm
  kind : String
  payload : Json
  notBefore : Option ℕ
  attempts : ℕ
  state : WorkState

structure ReconciliationWork where
  workId : String
  realm : Realm
  kind : String
  payload : Json
  attempts : ℕ

/-- The row of `reconciliation_leader`. -/
structure Leader where
  owner : String
  leaseUntil : ℕ
deriving DecidableEq

structure ReconciliationTarget where
  workId : String
  realm : Realm
  kind : String
  payload : Json

structure ProjectionTombstone where
  realm : Realm
  kind : String
  itemId : String
deriving DecidableEq

/-- A worker by the step of `run_reconciliation_worker` it takes next. A fetch is numbered by the
last request made before it began. -/
inductive WorkerStep where
  | acquire
  | claim
  | fetch (work : ReconciliationWork)
  | fetching (work : ReconciliationWork) (since : ℕ)
  | finish (work : ReconciliationWork) (succeeded : Bool)
  /-- `event_catchup` is about to be set to ready. -/
  | report

structure Worker where
  owner : String
  step : WorkerStep

structure ReconciliationQueue where
  rows : Table QueueRow QueueRow.workId
  leader : Option Leader
  tombstones : List ProjectionTombstone
  /-- The tombstones that come from an event. -/
  deleted : List ProjectionTombstone
  now : ℕ
  workers : List Worker
  /-- The number of requests so far, and the number of the last request for a `work_id`. -/
  clock : ℕ
  requested : String → ℕ
  /-- Up to which request a `work_id` was fetched successfully or its entity deleted. -/
  covered : String → ℕ
  /-- Up to which request for event continuity `event_catchup` was reported ready. -/
  ready : ℕ

def eventContinuityWorkId : String := "account:event-continuity"

def leaseSeconds : ℕ := 180

namespace ReconciliationQueue

def init : ReconciliationQueue := 
  ⟨Table.empty, none, [], [], 0, [], 0, fun _ => 0, fun _ => 0, 0⟩

variable (q : ReconciliationQueue)

variable (row : QueueRow) (i : ℕ) (worker : Worker)

/-- `INSERT ... ON CONFLICT(work_id) DO UPDATE`: the row keeps its place. -/
def upsert : Table QueueRow QueueRow.workId :=
  if q.rows.hasKey row.workId then
    q.rows.update (fun r => r.workId = row.workId)
      (fun r => { row with workId := r.workId }) fun _ => rfl
  else q.rows.insert row

def enqueueReconciliation (target : ReconciliationTarget) : ReconciliationQueue :=
  { q with
    rows := q.upsert ⟨target.workId, target.realm, target.kind, target.payload, none, 0, .queued⟩
    clock := q.clock + 1
    requested := fun w => if w = target.workId then q.clock + 1 else q.requested w }

/-- An event has deleted the entity of the row. -/
def isDeleted : Bool :=
  q.deleted.any fun d => row.realm = d.realm && row.workId = d.kind ++ ":" ++ d.itemId

/-- Rows are removed; the requests for an entity that an event has deleted are then settled. -/
def removeRows (p : QueueRow → Bool) : ReconciliationQueue :=
  { q with
    rows := q.rows.delete p
    covered := fun w =>
      if q.rows.rows.any (fun r => p r && q.isDeleted r && r.workId = w) then q.clock
      else q.covered w }

/-- One deletion of `persist_projection_batch`. -/
def persistDeletion (deletion : ProjectionTombstone) : ReconciliationQueue :=
  { q with
    tombstones := deletion :: q.tombstones
    deleted := deletion :: q.deleted }.removeRows fun r =>
      r.realm = deletion.realm && r.workId = deletion.kind ++ ":" ++ deletion.itemId

/-- The tombstones of devices that a traversal has not seen. -/
def markAbsent (missing : List (Realm × String)) : ReconciliationQueue :=
  { q with tombstones := missing.map (fun d => ⟨d.1, "device", d.2⟩) ++ q.tombstones }

/-- What `reconcile_owned_devices` does to the queue. -/
def reconcileOwnedDevices (missing : List (Realm × String)) : ReconciliationQueue :=
  (q.markAbsent missing).removeRows fun r => missing.any fun d =>
    r.realm = d.1 && r.kind = "device" && r.workId = "device:" ++ d.2

/-- What `finalize_refresh_devices` does to the queue. -/
def finalizeRefreshDevices (missing : List String) : ReconciliationQueue :=
  q.markAbsent (missing.map (.live, ·))

/-- What `persist_projection_batch` does to the queue. -/
def persistProjectionBatch (deletions : List ProjectionTombstone)
    (reconciliation : List ReconciliationTarget) : ReconciliationQueue :=
  reconciliation.foldl enqueueReconciliation (deletions.foldl persistDeletion q)

/-- `UPDATE ... SET state = 'queued' WHERE state = 'running'`. -/
def requeueRunning : ReconciliationQueue :=
  { q with
    rows := q.rows.update (fun r => r.state = .running) (fun r => { r with state := .queued })
      fun _ => rfl }

def recoverOrphanedReconciliationWork : ReconciliationQueue :=
  if q.leader.any fun l => q.now < l.leaseUntil then q else q.requeueRunning

/-- `acquire_reconciliation_leadership`: the queue afterwards, and whether the owner leads. -/
def acquireReconciliationLeadership (owner : String) (leaseSeconds : ℕ) :
    ReconciliationQueue × Bool :=
  let canLead := q.leader.all fun l => l.owner = owner || l.leaseUntil ≤ q.now
  if canLead then
    let replacingExpiredLeader :=
      q.leader.all fun l => l.owner ≠ owner && l.leaseUntil ≤ q.now
    let q := if replacingExpiredLeader then q.requeueRunning else q
    ({ q with leader := some ⟨owner, q.now + max leaseSeconds 1⟩ }, true)
  else (q, false)

def isTombstoned : Bool :=
  row.kind = "device" && q.tombstones.any fun t =>
    t.realm = row.realm && t.kind = "device" && row.workId = "device:" ++ t.itemId

def isDue : Bool :=
  row.state = .queued && row.notBefore.all fun t => t ≤ q.now

def claimReconciliationWork : ReconciliationQueue × Option ReconciliationWork :=
  let q := q.removeRows q.isTombstoned
  match q.rows.rows.find? q.isDue with
  | none => (q, none)
  | some row =>
    ({ q with
        rows := q.rows.update (fun r => r.workId = row.workId) (fun r => { r with state := .running })
          fun _ => rfl },
      some ⟨row.workId, row.realm, row.kind, row.payload, row.attempts⟩)

def completeReconciliationWork (workId : String) : ReconciliationQueue :=
  { q with rows := q.rows.delete fun r => r.workId = workId }

/-- `retry_reconciliation_work`: back to the queue with bounded exponential backoff. -/
def retryReconciliationWork (workId : String) : ReconciliationQueue :=
  { q with
    rows := q.rows.update (fun r => r.workId = workId) (fun r => { r with
        state := .queued
        attempts := r.attempts + 1
        notBefore := some (q.now + min 300 (2 ^ min 16 (r.attempts + 1))) })
      fun _ => rfl }

/-! ## The workers -/

def setStep (step : WorkerStep) : ReconciliationQueue :=
  { q with workers := q.workers.set i { worker with step := step } }

def acquire : ReconciliationQueue :=
  match q.acquireReconciliationLeadership worker.owner leaseSeconds with
  | (q, true) => q.setStep i worker .claim
  | (q, false) => q.setStep i worker .acquire

def claim : ReconciliationQueue :=
  match q.claimReconciliationWork with
  | (q, some work) => q.setStep i worker (.fetch work)
  | (q, none) => q.setStep i worker .acquire

/-- `process_reconciliation_work` returns. -/
def respond (work : ReconciliationWork) (since : ℕ) (succeeds : Bool) :
    ReconciliationQueue :=
  { q.setStep i worker (.finish work succeeds) with
    covered := fun w =>
      if succeeds && w = work.workId then max (q.covered w) since else q.covered w }

/-- The row is deleted or returned to the queue; an error of that write is ignored. -/
def finish (work : ReconciliationWork) (succeeded written : Bool) :
    ReconciliationQueue :=
  let step := if succeeded && work.workId = eventContinuityWorkId then .report else .acquire
  let q := if !written then q else if succeeded then q.completeReconciliationWork work.workId
    else q.retryReconciliationWork work.workId
  q.setStep i worker step

/-- `event_catchup` is ready, whatever was requested meanwhile. -/
def report : ReconciliationQueue :=
  { q.setStep i worker .acquire with ready := max q.ready (q.requested eventContinuityWorkId) }

end ReconciliationQueue

inductive QueueOp where
  | enqueue (target : ReconciliationTarget)
  /-- An event batch is committed. -/
  | project (deletions : List ProjectionTombstone) (reconciliation : List ReconciliationTarget)
  | traverse (missing : List (Realm × String))
  | finalize (missing : List String)
  /-- A store is opened. -/
  | recover
  | tick (seconds : ℕ)
  | spawn (owner : String)
  /-- The worker takes its next step; a network or database outcome is given. -/
  | advance (worker : ℕ) (succeeds : Bool)
  /-- A claim fails, and the worker sleeps. -/
  | rest (worker : ℕ)
  | crash (worker : ℕ)

open ReconciliationQueue in
/-- One step; a step of a worker that is not there changes nothing. -/
def queueStep (q : ReconciliationQueue) : QueueOp → ReconciliationQueue
  | .enqueue target => q.enqueueReconciliation target
  | .project deletions reconciliation => q.persistProjectionBatch deletions reconciliation
  | .traverse missing => q.reconcileOwnedDevices missing
  | .finalize missing => q.finalizeRefreshDevices missing
  | .recover => q.recoverOrphanedReconciliationWork
  | .tick seconds => { q with now := q.now + seconds }
  | .spawn owner => { q with workers := q.workers ++ [⟨owner, .acquire⟩] }
  | .advance i succeeds =>
    match q.workers[i]? with
    | none => q
    | some worker =>
      match worker.step with
      | .acquire => q.acquire i worker
      | .claim => q.claim i worker
      | .fetch work => q.setStep i worker (.fetching work q.clock)
      | .fetching work since => q.respond i worker work since succeeds
      | .finish work succeeded => q.finish i worker work succeeded succeeds
      | .report => q.report i worker
  | .rest i =>
    match q.workers[i]? with
    | some ⟨owner, .claim⟩ => q.setStep i ⟨owner, .claim⟩ .acquire
    | _ => q
  | .crash i => { q with workers := q.workers.eraseIdx i }

def queueRun (ops : List QueueOp) : ReconciliationQueue :=
  ops.foldl queueStep ReconciliationQueue.init

end Replicant.Managed
