import Replicant.Lib.Fair
import Replicant.Lib.Transaction

/-!
# Actions

`run_action` and `launch_trigger` record an execution, spawn a task for it, and enter the task in
`running_actions`; the task waits for its entry. Whoever takes the entry out of the map records the
outcome: the task when it finishes, or a request that cancels it. When the daemon exits only the rows
stay.
-/

namespace Replicant.Server

open Lib

inductive FiniteExecutionStatus where
  | running | succeeded | skipped | failed | cancelled
deriving DecidableEq

/-- What `finish_action` makes of the result of an action. -/
inductive ActionOutcome where
  | succeeded | skipped | failed
deriving DecidableEq

def ActionOutcome.status : ActionOutcome → FiniteExecutionStatus
  | .succeeded => .succeeded
  | .skipped => .skipped
  | .failed => .failed

/-- How far `spawn_action` is. -/
inductive LaunchStage where
  /-- The row is recorded, and the task is not spawned. -/
  | begun
  | spawned
  /-- The entry is in the map, and the task is not told. -/
  | inserted
  | done
deriving DecidableEq

inductive TaskStage where
  /-- For its registration. -/
  | waiting
  | running
  /-- The action has returned. -/
  | finishing (outcome : ActionOutcome)
  /-- The task has taken its entry. -/
  | writing (outcome : ActionOutcome)
  | ended
deriving DecidableEq

structure Execution where
  /-- The status in the row. -/
  status : FiniteExecutionStatus
  launch : LaunchStage
  task : TaskStage
  /-- There is an entry in `running_actions`. -/
  registered : Bool
  aborted : Bool
deriving DecidableEq

namespace Execution

/-- `begin_finite_execution`. -/
def begin : Execution := ⟨.running, .begun, .waiting, false, false⟩

variable (e : Execution)

def launchStep : Execution :=
  match e.launch with
  | .begun => { e with launch := .spawned }
  | .spawned => { e with launch := .inserted, registered := true }
  | .inserted => { e with launch := .done }
  | .done => e

/-- The next step of the task, its action apart. -/
def taskStep : Execution :=
  match e.task with
  | .waiting => if e.launch = .done then { e with task := .running } else e
  -- `finish_action`
  | .finishing outcome =>
    if e.registered then { e with registered := false, task := .writing outcome }
    else { e with task := .ended }
  | .writing outcome => { e with status := outcome.status, task := .ended }
  | .running | .ended => e

def returns (outcome : ActionOutcome) (e : Execution) : Execution :=
  if e.task = .running then { e with task := .finishing outcome } else e

def panics : Execution :=
  if e.task = .running then { e with task := .ended } else e

/-- An aborted task stops where it awaits. -/
def stops : Execution :=
  if e.aborted ∧ (e.task = .running ∨ e.task = .waiting) then { e with task := .ended } else e

/-- `complete_finite_execution` fails in the task, which logs it. -/
def writeFails : Execution :=
  match e.task with
  | .writing _ => { e with task := .ended }
  | _ => e

/-- What is left when the daemon exits. -/
def exits : Execution :=
  { e with launch := .done, task := .ended, registered := false }

end Execution

inductive CancelStage where
  | removing
  /-- The request has taken the entry. -/
  | aborting
  | writing
  | returned (ok : Bool)
deriving DecidableEq

structure CancelRequest where
  id : ℕ
  stage : CancelStage
deriving DecidableEq

/-- Executions are numbered in the order in which they are recorded. -/
structure Actions where
  executions : List Execution
  cancels : List CancelRequest
deriving DecidableEq

inductive ActionOp where
  /-- `run_action` or a trigger records an execution. -/
  | begin
  | launch (id : ℕ)
  | task (id : ℕ)
  | returns (id : ℕ) (outcome : ActionOutcome)
  | panics (id : ℕ)
  | stops (id : ℕ)
  | taskWriteFails (id : ℕ)
  /-- A request of `cancel_action`. -/
  | cancel (id : ℕ)
  | cancelStep (index : ℕ)
  | cancelWriteFails (index : ℕ)
  | restart
deriving DecidableEq

namespace Actions

variable (s : Actions)

def status (id : ℕ) : Option FiniteExecutionStatus :=
  s.executions[id]?.map (·.status)

def isRegistered (id : ℕ) : Bool :=
  s.executions[id]?.any (·.registered)

def modify (id : ℕ) (f : Execution → Execution) : Actions :=
  { s with executions := s.executions.modify id f }

/-- The next step of `cancel_action`. -/
def cancelAction (request : CancelRequest) : Actions × CancelStage :=
  match request.stage with
  | .removing =>
    if s.isRegistered request.id then
      (s.modify request.id fun e => { e with registered := false }, .aborting)
    else (s, .returned false)
  | .aborting => (s.modify request.id fun e => { e with aborted := true }, .writing)
  | .writing => (s.modify request.id fun e => { e with status := .cancelled }, .returned true)
  | .returned ok => (s, .returned ok)

/-- A request is a new stage of its list. -/
def setCancel (index : ℕ) (request : CancelRequest) : Actions :=
  { s with cancels := s.cancels.set index request }

def step : ActionOp → Actions
  | .begin => { s with executions := s.executions ++ [.begin] }
  | .launch id => s.modify id .launchStep
  | .task id => s.modify id .taskStep
  | .returns id outcome => s.modify id (.returns outcome)
  | .panics id => s.modify id .panics
  | .stops id => s.modify id .stops
  | .taskWriteFails id => s.modify id .writeFails
  | .cancel id => { s with cancels := s.cancels ++ [⟨id, .removing⟩] }
  | .cancelStep index =>
    match s.cancels[index]? with
    | some request =>
      let (t, stage) := s.cancelAction request
      t.setCancel index { request with stage }
    | none => s
  | .cancelWriteFails index =>
    match s.cancels[index]? with
    | some ⟨id, .writing⟩ => s.setCancel index ⟨id, .returned false⟩
    | _ => s
  | .restart =>
    ⟨s.executions.map .exits, s.cancels.filter fun request => request.stage matches .returned _⟩

def run (ops : List ActionOp) : Actions :=
  ops.foldl step ⟨[], []⟩

/-! ## What is expected -/

/-- No task panics, every outcome is recorded, and the daemon exits only when nothing runs. -/
def Lossless : ActionOp → Prop
  | .panics _ | .taskWriteFails _ | .cancelWriteFails _ => False
  | .restart => ∀ e ∈ s.executions, e.status ≠ .running
  | _ => True

instance Lossless.decidable (op : ActionOp) : Decidable (s.Lossless op) := by
  cases op <;> unfold Lossless <;> infer_instance

/-- The row has an outcome. -/
def Settled (id : ℕ) : Prop := ∃ status ∈ s.status id, status ≠ .running

/-- The row gets an outcome in every continuation without a failure in which each request goes on. -/
def Settles (id : ℕ) : Prop :=
  ∀ schedule : ℕ → ActionOp, (∀ n, (after step s schedule n).Lossless (schedule n)) →
    (∀ index n, ∃ m ≥ n, schedule m = .cancelStep index) → ∃ n, (after step s schedule n).Settled id

/-- A recorded outcome never changes, a request to cancel that succeeded has recorded its own, and
an execution whose task has ended gets one. -/
def OneOutcome (ops : List ActionOp) : Prop :=
  (∀ before after id, ops = before ++ after → ∀ status ∈ (run before).status id,
    status ≠ .running → (run ops).status id = some status) ∧
  (∀ request ∈ (run ops).cancels, request.stage = .returned true →
    (run ops).status request.id = some .cancelled) ∧
  ∀ id, ∀ e ∈ (run ops).executions[id]?, e.task = .ended → e.status = .running →
    (run ops).Settles id

end Actions

end Replicant.Server
