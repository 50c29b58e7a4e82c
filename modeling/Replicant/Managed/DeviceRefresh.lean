import Replicant.Managed.PhaseRows
import Replicant.Managed.RefreshWorkers
import Replicant.Managed.Reopen

/-!
# The device phase of a refresh run

A worker stages each device of a page, writes the page to the device table and records the cursor;
after the last page the finalizer runs. The worker may crash between any two transactions, and the
next one resumes from the checkpoint and the staged keys. Meanwhile events and other requests write
devices, and an operator approves a removal or cancels the run.

Other phases do not touch these rows and are left out. It is assumed that one live worker at a time
executes the run: a second one is started only after the first has crashed or ended. When a lease has
run out is left open. Rows are read back as they were written.
-/

namespace Replicant.Managed

open Lib

structure DevicePage where
  members : List (Observation Device)
  nextCursor : Option ℤ

/-- The checkpoint of the device phase. -/
structure DeviceCursor where
  nextCursor : Option ℤ
  pages : ℕ
deriving DecidableEq

/-- A page that is worked on, with the number of pages before it and the devices seen so far. -/
structure PageWork where
  page : DevicePage
  pages : ℕ
  seen : Finset String

/-- Where the worker is in `execute_run` and `refresh_devices`. -/
inductive DeviceWorker where
  | idle
  /-- The run is claimed. -/
  | starting
  | fetching (cursor : Option ℤ) (pages : ℕ) (seen : Finset String)
  | staging (todo : List (Observation Device)) (work : PageWork)
  | persisting (work : PageWork)
  | recording (work : PageWork)
  | finalizing (seen : Finset String)
  | reloading
  | finishing
  | completing
  | ended (outcome : RefreshOutcome)

/-- A large removal that waits for approval, with the device table it was computed from. -/
structure RemovalRequest (Digest : Type) where
  started : ℤ
  seen : Finset String
  digest : Digest
  devices : Table DeviceRow DeviceRow.key

/-- The rows that the operator is asked about. -/
def RemovalRequest.missing {Digest : Type} (request : RemovalRequest Digest) : List DeviceRow :=
  request.devices.rows.filter (DeviceRow.isMissing request.started request.seen)

structure DeviceRefresh (Digest : Type) where
  engine : Engine
  tombstones : Table (DeviceTombstone Digest) DeviceTombstone.itemId
  mode : RefreshMode
  status : RefreshRunState
  cancelRequested : Bool
  phase : PhaseRow DeviceCursor Digest
  /-- The staged keys of the phase. -/
  stage : Finset String
  now : ℤ
  worker : DeviceWorker
  /-- What the pages of this run returned, as far as it was staged. -/
  returned : Finset String
  /-- The last request for approval, and the digests that were approved. -/
  request : Option (RemovalRequest Digest)
  approvals : List Digest

inductive DeviceOp (Digest : Type) where
  | claim
  /-- The next transaction of the worker. -/
  | work
  /-- The server answers. -/
  | answer (page : DevicePage)
  /-- Something the worker does fails. -/
  | fail (outcome : RefreshOutcome)
  | crash
  | approve (digest : Digest)
  | cancel
  /-- A call of the engine from elsewhere, and whether it is committed. -/
  | call (call : EngineCall × Bool)
  | advance (millis : ℕ)

namespace DeviceRefresh

variable {Digest : Type} [DecidableEq Digest] (removalDigest : ℤ → Finset String → Digest)
  (s : DeviceRefresh Digest)

def devices : Table DeviceRow DeviceRow.key := s.engine.store.devices

/-- A new run, on any state of the engine. -/
def init (mode : RefreshMode) (engine : Engine) (now : ℤ) : DeviceRefresh Digest where
  engine
  tombstones := Table.empty
  mode
  status := .queued
  cancelRequested := false
  phase := PhaseRow.init ⟨none, 0⟩
  stage := ∅
  now
  worker := .idle
  returned := ∅
  request := none
  approvals := []

/-! ## The worker -/

def claim : DeviceRefresh Digest :=
  match s.worker with
  | .idle =>
    if !s.cancelRequested ∧ s.status ∈ [.queued, .running, .backingOff] then
      { s with status := .running, worker := .starting }
    else s
  | _ => s

/-- The head of the loop of `execute_run`, and `begin_refresh_phase`. -/
def start : DeviceRefresh Digest :=
  if s.status.terminal ∨ s.status = .awaitingApproval then { s with worker := .idle }
  else if s.phase.status = .complete then { s with worker := .completing }
  else if s.cancelRequested then
    { s with
      status := .cancelled
      phase := { s.phase with status := .cancelled }
      stage := ∅
      worker := .idle }
  else
    { s with
      status := .running
      phase := s.phase.begin s.now
      worker := .fetching s.phase.checkpoint.nextCursor s.phase.checkpoint.pages s.stage }

def answer (page : DevicePage) : DeviceRefresh Digest :=
  match s.worker with
  | .fetching cursor pages seen =>
    if s.cancelRequested then { s with worker := .ended .cancelled }
    else if page.nextCursor.isSome ∧ page.nextCursor = cursor then
      { s with worker := .ended (.failed "decode") }
    else { s with worker := .staging page.members ⟨page, pages, seen⟩ }
  | _ => s

/-- One device is staged. -/
def stageDevice (device : Observation Device) (todo : List (Observation Device)) (work : PageWork) :
    DeviceRefresh Digest :=
  { s with
    stage := insert device.value.key.id s.stage
    returned := insert device.value.key.id s.returned
    worker := .staging todo { work with seen := insert device.value.key.id work.seen } }

def persistPage (work : PageWork) : DeviceRefresh Digest :=
  { s with
    engine := s.engine.run (.persistDevices work.page.members)
    worker := .recording work }

/-- The checkpoint of a page. -/
def recordPage (work : PageWork) : DeviceRefresh Digest :=
  { s with
    phase := s.phase.record ⟨work.page.nextCursor, work.pages + 1⟩ (work.pages + 1) work.seen.card
      work.page.nextCursor.isNone true
    worker := match work.page.nextCursor with
      | none => .finalizing work.seen
      | some next => .fetching (some next) (work.pages + 1) work.seen }

def records : DeviceRecords DeviceCursor Digest := ⟨s.phase, s.devices, s.tombstones⟩

def withRecords (r : DeviceRecords DeviceCursor Digest) : DeviceRefresh Digest :=
  { s with
    phase := r.phase
    engine := { s.engine with store := { s.engine.store with devices := r.devices } }
    tombstones := r.tombstones }

/-- The request that the finalizer makes, if it asks for approval. -/
def requestOf (seen : Finset String) (phase : PhaseRow DeviceCursor Digest) :
    Option (RemovalRequest Digest) :=
  match phase.status, phase.startedAt, phase.approvalDigest with
  | .awaitingApproval, some started, some digest => some ⟨started, seen, digest, s.devices⟩
  | _, _, _ => s.request

def finalize (seen : Finset String) : DeviceRefresh Digest :=
  match finalizeRefreshDevices removalDigest s.mode seen s.records with
  | .ok r =>
    { s.withRecords r with
      request := s.requestOf seen r.phase
      worker := if s.mode = .apply then .reloading else .finishing }
  | .error _ => { s with worker := .ended (.failed "persistence") }

/-- `complete_refresh_phase`. -/
def finish : DeviceRefresh Digest :=
  if s.phase.status = .awaitingApproval then
    { s with status := .awaitingApproval, worker := .idle }
  else { s with phase := { s.phase with status := .complete }, worker := .completing }

/-- `complete_refresh_run`. -/
def complete : DeviceRefresh Digest :=
  { s with
    status := if s.mode = .dryRun then .completedDryRun else .completed
    stage := ∅
    worker := .idle }

/-- The outcome of the run is written. -/
def settle : RefreshOutcome → DeviceRefresh Digest
  | .rateLimited _ =>
    { s with
      status := .backingOff
      phase := if s.phase.status = .running then { s.phase with status := .backingOff } else s.phase
      worker := .idle }
  | .cancelled =>
    { s with
      status := .cancelled
      phase := if s.phase.status = .complete then s.phase else { s.phase with status := .cancelled }
      stage := ∅
      worker := .idle }
  | .failed _ =>
    { s with
      status := .failed
      phase := if s.phase.status = .running then { s.phase with status := .failed } else s.phase
      stage := ∅
      worker := .idle }

def work : DeviceRefresh Digest :=
  match s.worker with
  | .idle | .fetching _ _ _ => s
  | .starting => s.start
  | .staging (device :: todo) work => s.stageDevice device todo work
  | .staging [] work =>
    { s with worker := if s.mode = .apply then .persisting work else .recording work }
  | .persisting work => s.persistPage work
  | .recording work => s.recordPage work
  | .finalizing seen => s.finalize removalDigest seen
  | .reloading => { s with engine := s.engine.run .reloadDevicesAfterRefresh, worker := .finishing }
  | .finishing => s.finish
  | .completing => s.complete
  | .ended outcome => s.settle outcome

def fail (outcome : RefreshOutcome) : DeviceRefresh Digest :=
  match s.worker with
  | .idle => s
  | _ => { s with worker := .ended outcome }

/-! ## The operator -/

def approve (digest : Digest) : DeviceRefresh Digest :=
  if s.phase.status = .awaitingApproval ∧ s.phase.approvalDigest = some digest then
    { s with
      status := .queued
      phase := { s.phase with status := .pending, approvedAt := some s.now }
      approvals := digest :: s.approvals }
  else s

def cancel : DeviceRefresh Digest :=
  if s.status.terminal then s else { s with cancelRequested := true }

def step : DeviceOp Digest → DeviceRefresh Digest
  | .claim => s.claim
  | .work => s.work removalDigest
  | .answer page => s.answer page
  | .fail outcome => s.fail outcome
  | .crash => { s with worker := .idle }
  | .approve digest => s.approve digest
  | .cancel => s.cancel
  | .call call => { s with engine := s.engine.step id call }
  | .advance millis => { s with now := s.now + millis }

/-- A run of the machine from a new refresh run. -/
def run (mode : RefreshMode) (engine : Engine) (now : ℤ) (ops : List (DeviceOp Digest)) :
    DeviceRefresh Digest :=
  ops.foldl (step removalDigest) (init mode engine now)

/-! ## What guarding the removal is for -/

/-- The rows of devices that a step removes. -/
def removed (t : DeviceRefresh Digest) : List DeviceRow :=
  s.devices.rows.filter fun row => row ∉ t.devices.rows

/-- The number of rows that could be missing. -/
def eligible : ℕ := s.devices.rows.countP DeviceRow.isRefreshable

/-- The operator approved this enumeration, and was asked about each removed row unless the row was
written after the request. -/
structure Approved (seen : Finset String) (rows : List DeviceRow) (request : RemovalRequest Digest) :
    Prop where
  last : s.request = some request
  enumeration : request.digest = removalDigest request.started seen ∧
    s.phase.startedAt = some request.started
  approval : request.digest ∈ s.approvals
  asked : ∀ row ∈ rows, row ∈ request.missing ∨ row ∉ request.devices

/-- What the finalizer does to the devices of `s` in the step to `t`. -/
structure GuardedRemoval (seen : Finset String) (t : DeviceRefresh Digest) : Prop where
  absent : ∀ row ∈ s.removed t, row.isRefreshable = true ∧
    (∃ started, s.phase.startedAt = some started ∧ row.observedAt ≤ started) ∧
    row.key.id ∉ s.returned
  guarded : s.eligible ≤ 2 ^ 52 → s.eligible < 5 * (s.removed t).length →
    ∃ request, s.Approved removalDigest seen (s.removed t) request
  tombstones : ∀ tombstone ∈ t.tombstones, tombstone ∈ s.tombstones ∨
    ∃ row ∈ s.removed t, tombstone.itemId = row.key.id
  dryRun : s.mode = .dryRun → s.removed t = []

end DeviceRefresh

/-- The observation times of the devices that an operation writes. -/
def DeviceOp.times {Digest : Type} : DeviceOp Digest → List ℤ
  | .answer page => page.members.map (·.metadata.observedAt)
  | .call (.run (.persistDevices devices), _) => devices.map (·.metadata.observedAt)
  | .call (.run (.applyEventProjection _ batch), _) => batch.devices.map (·.metadata.observedAt)
  | _ => []

end Replicant.Managed
