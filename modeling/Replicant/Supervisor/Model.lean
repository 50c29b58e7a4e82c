import Replicant.Supervisor.Row

/-!
# The supervisor of one workflow

The supervisor, the executor task and the control calls share the persisted row of a workflow and the
maps `controls` and `tasks`. A step is what one of them does between two points at which the others
can act: a repository transaction, or one hold of the executors' lock. There is one tick at a time,
and any number of control calls. Who wrote the status last, who asked a task to stop, and whether a
cancellation was requested are recorded beside the state; no step reads them.
-/

namespace Replicant.Supervisor

open Lib Workflow

/-! ## The parties -/

/-- The value of a control channel. -/
inductive ControlRequest where
  | continued | pause | cancel
deriving DecidableEq

/-- The calls that abort a task. -/
inductive Aborter where
  | pause | cancel
deriving DecidableEq

def Aborter.request : Aborter → ControlRequest
  | .pause => .pause
  | .cancel => .cancel

/-- Why awaiting a task gives an error. -/
inductive Stop where
  | aborted (by_ : Aborter)
  | panicked
deriving DecidableEq

inductive Phase where
  | running
  | returned
  | stopped (cause : Stop)
deriving DecidableEq

/-- The task of an executor, with the instance its context holds. An abort that was asked
for takes effect at some later step. -/
structure Task where
  context : Row
  abort : Option Aborter
  phase : Phase
deriving DecidableEq

/-- What an executor persists through its context: `advance_to`, `persist_checkpoint` and
`clear_wait`; `mark_waiting` and `persist_wait`; `mark_succeeded`; `mark_failed`. -/
inductive Report where
  | advance | wait | succeed | fail
deriving DecidableEq

def Report.status : Report → WorkflowStatus
  | .advance => .running
  | .wait => .waiting
  | .succeed => .succeeded
  | .fail => .failed

/-- A control call in flight, with the instance it has read. -/
inductive Call where
  | cancelRead (seen : Row)
  | cancelAborted (seen : Row)
  | pauseRead (seen : Row)
  | pausePersisted
  | resumeRead (seen : Row)
deriving DecidableEq

/-- How far the current tick is with this workflow. -/
inductive Tick where
  | idle
  | reaping (cause : Stop)
  | failing (cause : Stop) (seen : Row)
  | reaped
  | listed (seen : Row)
  | starting (seen : Row)
  | launched (seen : Row)
  | spawned
deriving DecidableEq

/-- Who wrote the status of the row. -/
inductive Writer where
  | creator | executor | starter | canceller | pauser | resumer
  | reaper (cause : Stop)
deriving DecidableEq

structure State where
  row : Row
  control : Option ControlRequest
  task : Option Task
  tick : Tick
  calls : List Call
  /-- Who wrote the status last. -/
  writer : Writer
  /-- A cancellation has read the row before it was terminal. -/
  cancelCalled : Bool
deriving DecidableEq

variable (s : State) (i : ℕ)

namespace State

/-- A supervisor that has just been created finds the row only. -/
def init (row : Row) : State := ⟨row, none, none, .idle, [], .creator, false⟩

/-- One state replacement of the repository. -/
def persist (expected : ℕ) (status : WorkflowStatus) (writer : Writer) : Option State :=
  (Row.update s.row expected status).map fun row => { s with row := row, writer := writer }

/-- Post the request and abort the task, under the executors' lock. A task that is spawned
and not yet in the map is not found, and the first abort of a task is the one it stops by. -/
def abort (by_ : Aborter) : State :=
  { s with
    control := s.control.map fun _ => by_.request
    task :=
      if s.tick = .spawned then s.task
      else s.task.map fun t => { t with abort := t.abort.or (some by_) } }

/-- Drop the control of a workflow. -/
def clearStart : State := { s with control := none, tick := .idle }

/-- End a call. -/
def endCall : State := { s with calls := s.calls.eraseIdx i }

end State

/-! ## Steps -/

inductive Op where
  /-- The executor's own steps. -/
  | execute (report : Report) | controlRequest | finish | panic | stop
  /-- `cancel`: read, abort, transition. -/
  | cancelRead | cancelAbort (call : ℕ) | cancelTransition (call : ℕ)
  /-- `pause`: read, transition, abort. -/
  | pauseRead | pauseTransition (call : ℕ) | pauseAbort (call : ℕ)
  /-- `resume`: read, transition. -/
  | resumeRead | resumeTransition (call : ℕ)
  /-- `tick`: reap the finished task, list the row, start an executor. -/
  | collect | reapRead | reapFail | list | leave
  | reconcile | migrate | failWithoutExecutor | begin | startRun | startFail | startCheck
  | register
  /-- The process ends and a new supervisor is created on the same rows. -/
  | restart

namespace State

/-- The task does something while it runs. -/
def runTask (f : Task → State) : State :=
  match s.task with
  | some t => if t.phase = .running then f t else s
  | none => s

/-- The executor persists a report through its context. -/
def execute (report : Report) (t : Task) : State :=
  match s.persist t.context.revision report.status .executor with
  | some s' => { s' with task := some { t with context := s'.row } }
  | none => s

/-- An abort takes effect at the next point where the task awaits. -/
def stop (t : Task) : State :=
  match t.abort with
  | some by_ => { s with task := some { t with phase := .stopped (.aborted by_) } }
  | none => s

def cancelAbort : State :=
  match s.calls[i]? with
  | some (.cancelRead seen) =>
    { s.abort .cancel with calls := s.calls.set i (.cancelAborted seen) }
  | _ => s

/-- The transition to `Cancelled`: it fails when the row has moved on since it was read. -/
def cancelTransition : State :=
  match s.calls[i]? with
  | some (.cancelAborted seen) =>
    ((s.persist seen.revision .cancelled .canceller).getD s).endCall i
  | _ => s

def pauseTransition : State :=
  match s.calls[i]? with
  | some (.pauseRead seen) =>
    match s.persist seen.revision .paused .pauser with
    | some s' => { s' with calls := s'.calls.set i .pausePersisted }
    | none => s.endCall i
  | _ => s

def pauseAbort : State :=
  match s.calls[i]? with
  | some .pausePersisted => (s.abort .pause).endCall i
  | _ => s

def resumeTransition : State :=
  match s.calls[i]? with
  | some (.resumeRead seen) =>
    ((s.persist seen.revision .reconciling .resumer).getD s).endCall i
  | _ => s

/-- `reap_finished` takes a finished task out of both maps. -/
def collect : State :=
  match s.tick, s.task with
  | .idle, some t =>
    match t.phase with
    | .running => { s with tick := .reaped }
    | .returned => { s with task := none, control := none, tick := .reaped }
    | .stopped cause => { s with task := none, control := none, tick := .reaping cause }
  | .idle, none => { s with tick := .reaped }
  | _, _ => s

/-- The reaper reads the row of a task that gave an error. -/
def reapRead : State :=
  match s.tick with
  | .reaping cause =>
    if s.row.value = .paused ∨ s.row.value.isTerminal = true then { s with tick := .reaped }
    else { s with tick := .failing cause s.row }
  | _ => s

/-- `mark_failed` by the reaper; its error ends the tick. -/
def reapFail : State :=
  match s.tick with
  | .failing cause seen =>
    match s.persist seen.revision .failed (.reaper cause) with
    | some s' => { s' with tick := .reaped }
    | none => { s with tick := .idle }
  | _ => s

def list : State :=
  match s.tick with
  | .reaped => { s with tick := .listed s.row }
  | _ => s

/-- The tick ends before it starts anything: workflows are paused, a wait is not due, the
row is owned, paused or terminal, or an error ends it. -/
def leave : State :=
  match s.tick with
  | .reaping _ | .failing _ _ | .reaped | .listed _ => { s with tick := .idle }
  | _ => s

/-- A listed row that no executor owns, of one of the statuses. -/
def listedFree (statuses : List WorkflowStatus) (f : Row → State) : State :=
  match s.tick with
  | .listed seen => if s.control = none ∧ seen.value ∈ statuses then f seen else s
  | _ => s

/-- A write of the tick to the row it has listed: an error ends the tick. -/
def rewrite (status : WorkflowStatus) (seen : Row) : State :=
  match s.persist seen.revision status .starter with
  | some s' => { s' with tick := .listed s'.row }
  | none => { s with tick := .idle }

def startRun : State :=
  match s.tick with
  | .starting seen =>
    match s.persist seen.revision .running .starter with
    | some s' => { s' with tick := .launched s'.row }
    | none => s.clearStart
  | _ => s

/-- There is no executor for the kind: the started row fails. -/
def startFail : State :=
  match s.tick with
  | .launched seen => ((s.persist seen.revision .failed .starter).getD s).clearStart
  | _ => s

/-- A control request that came while the executor was built keeps it from starting. -/
def startCheck : State :=
  match s.tick with
  | .launched seen =>
    if s.control = some .continued then
      { s with task := some ⟨seen, none, .running⟩, tick := .spawned }
    else s.clearStart
  | _ => s

end State

/-- The statuses that are reconciled before a start, and those that are started. -/
def reconciled : List WorkflowStatus := [.running, .waiting]
def started : List WorkflowStatus := [.queued, .reconciling]

/-- One step; a step that is not enabled changes nothing. -/
def step : Op → State
  | .execute report => s.runTask (s.execute report)
  | .controlRequest => s.runTask fun t => { s with task := some { t with context := s.row } }
  | .finish => s.runTask fun t => { s with task := some { t with phase := .returned } }
  | .panic => s.runTask fun t => { s with task := some { t with phase := .stopped .panicked } }
  | .stop => s.runTask s.stop
  | .cancelRead =>
    { s with
      calls := s.calls ++ [.cancelRead s.row]
      cancelCalled := s.cancelCalled || !s.row.value.isTerminal }
  | .cancelAbort i => s.cancelAbort i
  | .cancelTransition i => s.cancelTransition i
  | .pauseRead => { s with calls := s.calls ++ [.pauseRead s.row] }
  | .pauseTransition i => s.pauseTransition i
  | .pauseAbort i => s.pauseAbort i
  | .resumeRead => { s with calls := s.calls ++ [.resumeRead s.row] }
  | .resumeTransition i => s.resumeTransition i
  | .collect => s.collect
  | .reapRead => s.reapRead
  | .reapFail => s.reapFail
  | .list => s.list
  | .leave => s.leave
  | .reconcile => s.listedFree reconciled (s.rewrite .reconciling)
  | .migrate => s.listedFree started fun seen => s.rewrite seen.value seen
  | .failWithoutExecutor => s.listedFree started fun seen =>
    { (s.persist seen.revision .failed .starter).getD s with tick := .idle }
  | .begin => s.listedFree started fun seen =>
    { s with control := some .continued, tick := .starting seen }
  | .startRun => s.startRun
  | .startFail => s.startFail
  | .startCheck => s.startCheck
  | .register => if s.tick = .spawned then { s with tick := .idle } else s
  | .restart => { State.init s.row with writer := s.writer }

/-- Steps one after another, in the order in which they happened. -/
def run (ops : List Op) : State := ops.foldl step s

end Replicant.Supervisor
