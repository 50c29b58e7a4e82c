import Replicant.Lib.Transaction
import Replicant.Managed.Refresh

/-!
# Refresh workers

A worker claims a run and goes through its phases; each access of the store is a step of its own, and
workers, operator calls, crashes and advances of the clock take turns. The lease is looked at only
when a run is claimed.
-/

namespace Replicant.Managed

open Lib

/-- The error that `execute_run` returned. -/
inductive RefreshOutcome where
  | rateLimited (delay : ℕ)
  | cancelled
  | failed (kind : String)
deriving DecidableEq

/-- Where a worker is in `worker` and `execute_run`. -/
inductive RefreshWorker where
  | idle
  /-- At the head of the loop, with the phases that are left. The column `requested_phases_json`
  is never written again, so it is read with the claim. -/
  | loop (runId : String) (todo : List RefreshPhase)
  | blocking (runId : String) (phase : RefreshPhase)
  | starting (runId : String) (phase : RefreshPhase) (rest : List RefreshPhase)
  | executing (runId : String) (phase : RefreshPhase) (rest : List RefreshPhase)
  | finishing (runId : String) (phase : RefreshPhase) (rest : List RefreshPhase)
  | ended (runId : String) (outcome : RefreshOutcome)
  | dead
deriving DecidableEq

/-- The run that the worker executes. -/
def RefreshWorker.run? : RefreshWorker → Option String
  | .idle | .dead => none
  | .loop runId _ | .blocking runId _ | .starting runId _ _ | .executing runId _ _
  | .finishing runId _ _ | .ended runId _ => some runId

inductive WorkerAct where
  | claim
  /-- The status is read at the head of the loop. -/
  | check
  | block
  | begin
  | checkpoint (progress : RefreshProgress)
  /-- `ensure_not_cancelled`. -/
  | poll
  | finalize (digest : String) (shrinks : Bool)
  /-- `execute_phase` returns. -/
  | finishPhase
  | completePhase
  | completeRun
  | rateLimit (delay : ℕ)
  /-- Any other error. -/
  | fail (kind : String)
  /-- The outcome is written, and the worker returns to its loop. -/
  | settle
  /-- The outcome could not be written. -/
  | abandon
deriving DecidableEq

/-! ## The steps of a worker -/

namespace RefreshStore

variable (s : RefreshStore) (owner now : ℕ)

def claimStep : Option (RefreshStore × RefreshWorker) :=
  match s.claimRefreshRun owner now (now + refreshLeaseMillis) with
  | (s, some row) => some (s, .loop row.runId row.requestedPhases)
  | (_, none) => none

variable (runId : String) (phase : RefreshPhase) (rest : List RefreshPhase)

/-- Some requested phase that this one depends on is not complete. -/
def lacksDependency : Bool :=
  s.checkpoints.rows.any fun row =>
    row.runId = runId && row.phase ∈ phase.dependencies && row.status ≠ .complete

def checkStep : RefreshWorker :=
  match s.runs.find? runId with
  | none => .ended runId (.failed "request")
  | some run =>
    if run.status.terminal ∨ run.status = .awaitingApproval then .idle
    else if (s.checkpoints.find? (runId, phase)).any (·.status = .complete) then .loop runId rest
    else if s.lacksDependency runId phase then .blocking runId phase
    else .starting runId phase rest

def beginStep : RefreshStore × RefreshWorker :=
  match s.beginRefreshPhase runId phase owner now with
  | .ok (s, true) => (s, .idle)
  | .ok (s, false) => (s, .executing runId phase rest)
  | .error _ => (s, .ended runId (.failed "persistence"))

def pollStep : RefreshWorker :=
  match s.refreshCancelRequested runId with
  | .ok true => .ended runId .cancelled
  | .ok false => .executing runId phase rest
  | .error _ => .ended runId (.failed "persistence")

def finalizeStep (digest : String) (shrinks : Bool) : RefreshStore :=
  match s.runs.find? runId with
  | some run => s.finalizeRefresh runId phase run.mode digest shrinks now
  | none => s

def completePhaseStep : RefreshStore × RefreshWorker :=
  match s.completeRefreshPhase runId phase now with
  | .ok (s, true) => (s, .idle)
  | .ok (s, false) => (s, .loop runId rest)
  | .error _ => (s, .ended runId (.failed "persistence"))

def completeRunStep : RefreshStore × RefreshWorker :=
  match s.completeRefreshRun runId now with
  | .ok s => (s, .idle)
  | .error _ => (s, .ended runId (.failed "persistence"))

def settleStep : RefreshOutcome → RefreshStore
  | .rateLimited delay => s.backoffRefreshRun runId (now + delay) now
  | .cancelled => s.finishCancelledRefreshRun runId now
  | .failed kind => s.failRefreshRun runId kind now

/-- What an act of a worker at some place does, if it can act so there. -/
def act : RefreshWorker → WorkerAct → Option (RefreshStore × RefreshWorker)
  | .idle, .claim => s.claimStep owner now
  | .loop runId (phase :: rest), .check => some (s, s.checkStep runId phase rest)
  | .loop runId [], .completeRun => some (s.completeRunStep now runId)
  | .blocking runId phase, .block => some (s.blockRefreshPhase runId phase now, .idle)
  | .starting runId phase rest, .begin => some (s.beginStep owner now runId phase rest)
  | .executing runId phase rest, .checkpoint progress =>
    some (s.updateRefreshCheckpoint runId phase progress now, .executing runId phase rest)
  | .executing runId phase rest, .poll => some (s, s.pollStep runId phase rest)
  | .executing runId phase rest, .finalize digest shrinks =>
    some (s.finalizeStep now runId phase digest shrinks, .executing runId phase rest)
  | .executing runId phase rest, .finishPhase => some (s, .finishing runId phase rest)
  | .executing runId _ _, .rateLimit delay => some (s, .ended runId (.rateLimited delay))
  | .finishing runId phase rest, .completePhase =>
    some (s.completePhaseStep now runId phase rest)
  | .ended runId outcome, .settle => some (s.settleStep now runId outcome, .idle)
  | .ended _ _, .abandon => some (s, .idle)
  | .ended _ _, .fail _ => none
  | worker, .fail kind => worker.run?.map fun runId => (s, .ended runId (.failed kind))
  | _, _ => none

end RefreshStore

/-! ## The system -/

structure RefreshState where
  store : RefreshStore
  now : ℕ
  workers : List RefreshWorker

inductive RefreshOp where
  | create (runId : String) (mode : RefreshMode) (phases : List RefreshPhase)
  | spawn
  | worker (owner : ℕ) (act : WorkerAct)
  | crash (owner : ℕ)
  | approve (runId : String) (phase : RefreshPhase) (digest : String)
  | cancel (runId : String)
  | advance (millis : ℕ)

namespace RefreshState

variable (s : RefreshState)

def worker (owner : ℕ) : RefreshWorker := s.workers.getD owner .dead

/-- A call whose error leaves the store as it is. -/
def withStore : Except StoreError RefreshStore → RefreshState
  | .ok store => { s with store }
  | .error _ => s

def step : RefreshOp → RefreshState
  | .create runId mode phases => { s with store := s.store.createRefreshRun runId mode phases s.now }
  | .spawn => { s with workers := s.workers ++ [.idle] }
  | .worker owner act =>
    match s.store.act owner s.now (s.worker owner) act with
    | some (store, worker) => { s with store, workers := s.workers.set owner worker }
    | none => s
  | .crash owner => { s with workers := s.workers.set owner .dead }
  | .approve runId phase digest =>
    s.withStore (s.store.approveRefreshPhase runId phase digest s.now)
  | .cancel runId => s.withStore (s.store.cancelRefreshRun runId s.now)
  | .advance millis => { s with now := s.now + millis }

def init : RefreshState := ⟨⟨Table.empty, Table.empty⟩, 0, []⟩

end RefreshState

def refreshRun (ops : List RefreshOp) : RefreshState := ops.foldl RefreshState.step RefreshState.init

/-! ## What leases and outcomes are for -/

namespace RefreshState

variable (s : RefreshState)

/-- At most one run is running with a lease that has not expired. -/
def OneLive : Prop :=
  ∀ left ∈ s.store.runs, ∀ right ∈ s.store.runs,
    left.isActive s.now = true → right.isActive s.now = true → left = right

/-- The worker executes the run without its lease. -/
def LostLease (owner : ℕ) (runId : String) : Prop :=
  (s.worker owner).run? = some runId ∧
    ∀ row ∈ s.store.runs, row.runId = runId → row.leaseOwner ≠ some owner

/-- The step changes neither the run nor its checkpoints. -/
def Spares (t : RefreshState) (runId : String) : Prop :=
  (∀ row ∈ s.store.runs, row.runId = runId → row ∈ t.store.runs) ∧
    ∀ row ∈ s.store.checkpoints, row.runId = runId → row ∈ t.store.checkpoints

/-- A worker that lost the lease has no effect on the run. -/
def NoStaleWrite : RefreshOp → Prop
  | .worker owner act => ∀ runId, s.LostLease owner runId → s.Spares (s.step (.worker owner act)) runId
  | _ => True

/-- The outcomes of the one state are those of the other. -/
def KeepsOutcomes (t : RefreshState) : Prop :=
  ∀ row ∈ s.store.runs, row.status.terminal = true →
    ∃ later ∈ t.store.runs, later.runId = row.runId ∧ later.status = row.status

end RefreshState

/-- One live run, no write of a worker that lost its lease, and final outcomes, all through a run. -/
def RefreshRunsExclusive (ops : List RefreshOp) : Prop :=
  ∀ before after, ops = before ++ after → (refreshRun before).OneLive ∧
    (∀ op ∈ after.head?, (refreshRun before).NoStaleWrite op) ∧
    (refreshRun before).KeepsOutcomes (refreshRun ops)

/-! ## What cancelling is for -/

/-- The steps of workers and the passing of time. -/
def RefreshOp.isWorkerStep : RefreshOp → Bool
  | .spawn | .worker _ _ | .advance _ => true
  | _ => false

namespace RefreshState

/-- A worker executes the run under a lease that has not expired. -/
def Executes (s : RefreshState) (row : RefreshRunRow) : Prop :=
  ∃ owner, (s.worker owner).run? = some row.runId ∧ row.leaseOwner = some owner ∧
    row.isActive s.now = true

/-- Steps of workers, now or later, lead to the status `cancelled`. -/
def CanCancel (s : RefreshState) (runId : String) : Prop :=
  ∃ ops : List RefreshOp, (∀ op ∈ ops, op.isWorkerStep = true) ∧
    ∃ row ∈ (ops.foldl step s).store.runs, row.runId = runId ∧ row.status = .cancelled

/-- A cancelled run is executed, or can still be brought to its end. -/
def CancelFinishes (s : RefreshState) : Prop :=
  ∀ row ∈ s.store.runs, row.cancelRequested = true → row.status.terminal = false →
    s.Executes row ∨ s.CanCancel row.runId

end RefreshState

end Replicant.Managed
