import Replicant.Lib.Table
import Replicant.Managed.EventId
import Replicant.Managed.Json

/-!
# Refresh runs in the store

A refresh run goes through its phases in order. The store keeps one row for the run, with the lease
of the worker that executes it, and one checkpoint for each phase. Times are Unix milliseconds.
-/

namespace Replicant.Managed

open Lib

inductive RefreshPhase where
  | account | devices | replicants | stars | systems | bodies | events | messages | locations
  | inventory | simulations
deriving DecidableEq

def RefreshPhase.dependencies : RefreshPhase → List RefreshPhase
  | .account => []
  | .devices => [.account]
  | .replicants => [.devices]
  | .stars => [.account]
  | .systems => [.replicants, .stars]
  | .bodies => [.systems]
  | .events | .messages | .simulations => [.account]
  | .locations => [.devices, .replicants]
  | .inventory => [.locations]

inductive RefreshMode where
  | apply | dryRun
deriving DecidableEq

inductive RefreshRunState where
  | queued | running | backingOff | awaitingApproval | blocked | completed | completedDryRun
  | cancelled | failed
deriving DecidableEq

/-- Whether no worker will resume this run. -/
def RefreshRunState.terminal : RefreshRunState → Bool
  | .completed | .completedDryRun | .cancelled | .failed => true
  | _ => false

inductive RefreshPhaseState where
  | pending | running | backingOff | awaitingApproval | blocked | complete | cancelled | failed
deriving DecidableEq

/-- A row of `refresh_runs`. -/
structure RefreshRunRow where
  runId : String
  mode : RefreshMode
  requestedPhases : List RefreshPhase
  status : RefreshRunState
  currentPhase : Option RefreshPhase
  retryNotBefore : Option ℕ
  failureKind : Option String
  completedAt : Option ℕ
  /-- Workers are numbered; the source gives each a UUID. -/
  leaseOwner : Option ℕ
  leaseExpiresAt : Option ℕ
  cancelRequested : Bool
  createdAt : ℕ
  updatedAt : ℕ
deriving DecidableEq

/-- What `update_refresh_checkpoint` records of a phase. -/
structure RefreshProgress where
  checkpoint : Json
  pages : ℕ
  items : ℕ
  enumerationComplete : Bool
  unfiltered : Bool
deriving DecidableEq

/-- A row of `refresh_phase_checkpoints`. -/
structure RefreshCheckpointRow where
  runId : String
  phase : RefreshPhase
  status : RefreshPhaseState
  progress : RefreshProgress
  phaseStartedAt : Option ℕ
  retryNotBefore : Option ℕ
  approvalDigest : Option String
  approvedAt : Option ℕ
  failureKind : Option String
  updatedAt : ℕ
deriving DecidableEq

def RefreshCheckpointRow.key (row : RefreshCheckpointRow) : String × RefreshPhase :=
  (row.runId, row.phase)

structure RefreshStore where
  runs : Table RefreshRunRow RefreshRunRow.runId
  checkpoints : Table RefreshCheckpointRow RefreshCheckpointRow.key

/-- `LEASE_MILLIS` and `REFRESH_LEASE_MILLIS`. -/
def refreshLeaseMillis : ℕ := 300000

namespace RefreshRunRow

/-- `status = 'running' AND lease_expires_at_ms > now`. -/
def isActive (now : ℕ) (row : RefreshRunRow) : Bool :=
  row.status = .running && row.leaseExpiresAt.any (now < ·)

/-- The condition of `claim_refresh_run`. -/
def isClaimable (now : ℕ) (row : RefreshRunRow) : Bool :=
  !row.cancelRequested && (row.status = .queued ||
      (row.status = .running && row.leaseExpiresAt.getD 0 ≤ now) ||
      (row.status = .backingOff && row.retryNotBefore.getD 0 ≤ now))

/-- `ORDER BY created_at_ms, run_id`. -/
def claimLe (left right : RefreshRunRow) : Bool :=
  left.createdAt < right.createdAt || (left.createdAt = right.createdAt && left.runId ≤ right.runId)

end RefreshRunRow

namespace RefreshStore

variable (s : RefreshStore)

variable (runId : String) (phase : RefreshPhase) (now : ℕ)

/-- `UPDATE refresh_runs SET .. WHERE run_id = ..`. -/
def updateRun (f : RefreshRunRow → RefreshRunRow)
    (hf : ∀ row, (f row).runId = row.runId := by intro _; rfl) : RefreshStore :=
  { s with runs := s.runs.update (fun row => row.runId = runId) f hf }

/-- The same, and the lease is given up: `lease_owner = NULL, lease_expires_at_ms = NULL`. -/
def releaseRun (now : ℕ) (f : RefreshRunRow → RefreshRunRow)
    (hf : ∀ row, (f row).runId = row.runId := by intro _; rfl) : RefreshStore :=
  s.updateRun runId
    (fun row => { f row with leaseOwner := none, leaseExpiresAt := none, updatedAt := now }) hf

/-- `UPDATE refresh_phase_checkpoints SET .. WHERE run_id = .. AND ..`. -/
def updateCheckpoints (p : RefreshCheckpointRow → Bool)
    (f : RefreshCheckpointRow → RefreshCheckpointRow)
    (hf : ∀ row, (f row).key = row.key := by intro _; rfl) : RefreshStore :=
  { s with checkpoints := s.checkpoints.update (fun row => row.runId = runId && p row) f hf }

/-! ## Creating and claiming -/

def createRefreshRun (mode : RefreshMode) (phases : List RefreshPhase) (now : ℕ) :
    RefreshStore where
  runs := s.runs.insert
    { runId, mode, requestedPhases := phases, status := .queued, currentPhase := none
      retryNotBefore := none, failureKind := none, completedAt := none, leaseOwner := none
      leaseExpiresAt := none, cancelRequested := false, createdAt := now, updatedAt := now }
  checkpoints := phases.foldl (fun checkpoints phase => checkpoints.insert
      { runId, phase, status := .pending, progress := ⟨.object [], 0, 0, false, false⟩
        phaseStartedAt := none, retryNotBefore := none, approvalDigest := none, approvedAt := none
        failureKind := none, updatedAt := now })
    s.checkpoints

/-- The run that is claimed next, if no run is active. -/
def nextClaim : Option RefreshRunRow :=
  if s.runs.rows.any (RefreshRunRow.isActive now) then none
  else ((s.runs.rows.filter (RefreshRunRow.isClaimable now)).insertionSort
    fun left right => left.claimLe right).head?

def claimRefreshRun (owner now leaseExpires : ℕ) : RefreshStore × Option RefreshRunRow :=
  match s.nextClaim now with
  | none => (s, none)
  | some row =>
    (s.updateRun row.runId (fun row => { row with
        status := .running
        leaseOwner := some owner
        leaseExpiresAt := some leaseExpires
        updatedAt := now }),
      some row)

/-! ## Phases -/

/-- `begin_refresh_phase`: whether the run was cancelled instead. -/
def beginRefreshPhase (owner now : ℕ) : Except StoreError (RefreshStore × Bool) :=
  match s.runs.find? runId with
  | none => .error .queryReturnedNoRows
  | some run =>
    if run.cancelRequested then
      let s := s.releaseRun runId now (fun row => { row with
        status := .cancelled
        currentPhase := none
        completedAt := some now })
      .ok (s.updateCheckpoints runId (fun row => row.phase = phase && row.status ≠ .complete)
        (fun row => { row with status := .cancelled, updatedAt := now }), true)
    else
      let s := s.updateRun runId (fun row => { row with
        status := .running
        currentPhase := some phase
        leaseOwner := some owner
        leaseExpiresAt := some (now + refreshLeaseMillis)
        updatedAt := now })
      .ok (s.updateCheckpoints runId (fun row => row.phase = phase) (fun row => { row with
          status := .running
          phaseStartedAt := row.phaseStartedAt.or (some now)
          updatedAt := now }), false)

/-- `update_refresh_checkpoint` extends the lease of a running run, whoever has it. -/
def updateRefreshCheckpoint (progress : RefreshProgress) (now : ℕ) : RefreshStore :=
  let s := s.updateCheckpoints runId (fun row => row.phase = phase)
    (fun row => { row with progress, updatedAt := now })
  s.updateRun runId (fun row =>
    if row.status = .running then
      { row with leaseExpiresAt := some (now + refreshLeaseMillis), updatedAt := now }
    else row) (fun row => by split <;> rfl)

/-- What `finalize_refresh_devices` and `finalize_refresh_stars` do to the checkpoint: too large a
shrink waits for approval. -/
def finalizeRefresh (mode : RefreshMode) (digest : String)
    (shrinks : Bool) (now : ℕ) : RefreshStore :=
  s.updateCheckpoints runId (fun row => row.phase = phase) (fun row => { row with
      approvalDigest := some digest
      status := if mode = .apply ∧ shrinks = true ∧ row.approvedAt = none then .awaitingApproval
        else row.status
      updatedAt := now })

/-- `complete_refresh_phase`: whether the run is paused for approval. -/
def completeRefreshPhase : Except StoreError (RefreshStore × Bool) :=
  match s.checkpoints.find? (runId, phase) with
  | none => .error .queryReturnedNoRows
  | some checkpoint =>
    if checkpoint.status = .awaitingApproval then
      .ok (s.releaseRun runId now (fun row => { row with
        status := .awaitingApproval
        currentPhase := some phase }), true)
    else
      .ok (s.updateCheckpoints runId (fun row => row.phase = phase)
        (fun row => { row with status := .complete, updatedAt := now }), false)

def blockRefreshPhase : RefreshStore :=
  let s := s.updateCheckpoints runId (fun row => row.phase = phase) (fun row => { row with
      status := .blocked
      failureKind := some "dependency"
      updatedAt := now })
  s.releaseRun runId now (fun row => { row with
    status := .blocked
    currentPhase := some phase
    failureKind := some "dependency" })

/-! ## Outcomes -/

def completeRefreshRun : Except StoreError RefreshStore :=
  match s.runs.find? runId with
  | none => .error .queryReturnedNoRows
  | some run =>
    .ok (s.releaseRun runId now (fun row => { row with
      status := if run.mode = .dryRun then .completedDryRun else .completed
      currentPhase := none
      completedAt := some now }))

def failRefreshRun (failure : String) (now : ℕ) : RefreshStore :=
  let s := s.updateCheckpoints runId (fun row => row.status = .running)
    (fun row => { row with status := .failed, failureKind := some failure, updatedAt := now })
  s.releaseRun runId now (fun row => { row with
    status := .failed
    failureKind := some failure
    completedAt := some now })

def backoffRefreshRun (retryNotBefore now : ℕ) : RefreshStore :=
  let s := s.updateCheckpoints runId (fun row => row.status = .running) (fun row => { row with
      status := .backingOff
      retryNotBefore := some retryNotBefore
      updatedAt := now })
  s.releaseRun runId now (fun row => { row with
    status := .backingOff
    retryNotBefore := some retryNotBefore })

def finishCancelledRefreshRun : RefreshStore :=
  let s := s.updateCheckpoints runId (fun row => row.status ≠ .complete)
    (fun row => { row with status := .cancelled, updatedAt := now })
  s.releaseRun runId now (fun row => { row with
    status := .cancelled
    currentPhase := none
    completedAt := some now })

/-! ## Operator calls -/

/-- The checkpoint has to wait for approval; the status of the run is not looked at. -/
def approveRefreshPhase (digest : String) (now : ℕ) : Except StoreError RefreshStore :=
  let checkpoint := (s.checkpoints.find? (runId, phase)).filter (·.status = .awaitingApproval)
  match checkpoint.bind RefreshCheckpointRow.approvalDigest with
  | none => .error (.refresh "phase is not awaiting guarded shrink approval")
  | some expected =>
    if expected ≠ digest then
      .error (.refresh "refresh approval digest does not match current staging")
    else
      let s := s.updateCheckpoints runId (fun row => row.phase = phase)
        (fun row => { row with status := .pending, approvedAt := some now, updatedAt := now })
      .ok (s.releaseRun runId now (fun row => { row with
        status := .queued
        failureKind := none }))

def cancelRefreshRun : Except StoreError RefreshStore :=
  match s.runs.find? runId with
  | none => .error (.refresh "unknown refresh run")
  | some run =>
    if run.status.terminal then .ok s
    else .ok (s.updateRun runId (fun row => { row with cancelRequested := true, updatedAt := now }))

def refreshCancelRequested : Except StoreError Bool :=
  match s.runs.find? runId with
  | none => .error .queryReturnedNoRows
  | some run => .ok run.cancelRequested

end RefreshStore

end Replicant.Managed
