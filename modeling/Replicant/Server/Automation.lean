import Replicant.Lib.Transaction

/-!
# Control of automation

The policy has two flags: whether triggers fire automatically, and whether all workflows are paused.
A request reads both, changes its own, and writes both back; `control_automation` pauses, resumes or
cancels workflows between two such writes. Other requests run between any two calls of the
repository, each of which may fail.
-/

namespace Replicant.Server

open Lib

structure AutomationPolicy where
  automaticTriggersEnabled : Bool
  workflowsPaused : Bool
deriving DecidableEq

/-- The actions of `control_automation`, and `reset_automation`. -/
inductive AutomationAction where
  | enableTriggers | disableTriggers | pauseAll | resumeAll | cancel | reset
deriving DecidableEq

/-- The next call of the repository, with the policy as the handler has it. -/
inductive AutomationStage where
  | reading
  /-- The intermediate write. -/
  | marking (policy : AutomationPolicy)
  /-- The workflows are paused, resumed or cancelled. -/
  | steering (policy : AutomationPolicy)
  /-- The last write. -/
  | writing (policy : AutomationPolicy)
  /-- The workflow of a reset is created. -/
  | creating
  | returned (ok : Bool)
deriving DecidableEq

/-- A handler returns the error of a call. -/
def AutomationStage.afterError : AutomationStage → AutomationStage
  | .returned ok => .returned ok
  | _ => .returned false

structure AutomationRequest where
  action : AutomationAction
  stage : AutomationStage
deriving DecidableEq

structure AutomationState where
  policy : AutomationPolicy
  requests : List AutomationRequest
deriving DecidableEq

inductive AutomationOp where
  | start (action : AutomationAction)
  /-- The next call of a request. -/
  | step (index : ℕ)
  /-- The next call of a request fails. -/
  | fail (index : ℕ)
deriving DecidableEq

namespace AutomationAction

variable (policy : AutomationPolicy)

/-- The policy that is read, with the change that the handler makes at once. -/
def change : AutomationAction → AutomationPolicy
  | .enableTriggers => { policy with automaticTriggersEnabled := true }
  | .disableTriggers | .reset => { policy with automaticTriggersEnabled := false }
  | .pauseAll => { policy with workflowsPaused := true }
  | .resumeAll => { policy with workflowsPaused := false }
  | .cancel => policy

/-- The stage after the policy is read. -/
def afterRead (action : AutomationAction) : AutomationStage :=
  match action with
  | .enableTriggers | .disableTriggers => .writing (action.change policy)
  | .pauseAll | .resumeAll | .reset => .marking (action.change policy)
  | .cancel => .steering policy

/-- A reset lifts the pause with its last write. -/
def lastPolicy : AutomationAction → AutomationPolicy
  | .reset => { policy with workflowsPaused := false }
  | _ => policy

def afterWrite : AutomationAction → AutomationStage
  | .reset => .creating
  | _ => .returned true

end AutomationAction

namespace AutomationState

variable (s : AutomationState)

variable (policy : AutomationPolicy) (action : AutomationAction)

/-- One call of a request: the policy and the next stage. -/
def call : AutomationStage → AutomationPolicy × AutomationStage
  | .reading => (s.policy, action.afterRead s.policy)
  | .marking policy => (policy, .steering policy)
  | .steering policy => (s.policy, .writing (action.lastPolicy policy))
  | .writing policy => (policy, action.afterWrite)
  | .creating => (s.policy, .returned true)
  | .returned ok => (s.policy, .returned ok)

def step : AutomationOp → AutomationState
  | .start action => { s with requests := s.requests ++ [⟨action, .reading⟩] }
  | .step index =>
    match s.requests[index]? with
    | some request =>
      let (policy, stage) := s.call request.action request.stage
      ⟨policy, s.requests.set index { request with stage }⟩
    | none => s
  | .fail index =>
    match s.requests[index]? with
    | some request =>
      { s with requests := s.requests.set index { request with stage := request.stage.afterError } }
    | none => s

def run (ops : List AutomationOp) : AutomationState :=
  ops.foldl step ⟨policy, []⟩

/-! ## What stopping is for -/

/-- A request for this action has not returned. -/
def InProgress : Prop :=
  ∃ request ∈ s.requests, request.action = action ∧ ∀ ok, request.stage ≠ .returned ok

/-- With this operation a request for the action returns, and succeeds. -/
def Returns (op : AutomationOp) (action : AutomationAction) : Prop :=
  ∃ (index : ℕ) (stage : AutomationStage), s.requests[index]? = some ⟨action, stage⟩ ∧ stage ≠ .returned true ∧
    (s.step op).requests[index]? = some ⟨action, .returned true⟩

/-- After `pauseAll` the workflows stay paused until a request may resume them, and after
`disableTriggers` or a reset the triggers stay disabled until a request may enable them. -/
def StopHolds (ops : List AutomationOp) : Prop :=
  ∀ before op after, ops = before ++ op :: after → ((run policy before).Returns op .pauseAll →
      (∀ action ∈ [AutomationAction.resumeAll, .reset],
        ¬ (run policy (before ++ [op])).InProgress action ∧ .start action ∉ after) →
      (run policy ops).policy.workflowsPaused = true) ∧
    ((run policy before).Returns op .disableTriggers ∨ (run policy before).Returns op .reset →
      ¬ (run policy (before ++ [op])).InProgress .enableTriggers ∧ .start .enableTriggers ∉ after →
      (run policy ops).policy.automaticTriggersEnabled = false)

/-! ## Writes that undo nothing -/

/-- The flags that the request does not set are stored as it read them. -/
def UpToDate : AutomationAction → Prop
  | .enableTriggers | .disableTriggers => policy.workflowsPaused = s.policy.workflowsPaused
  | .pauseAll | .resumeAll =>
    policy.automaticTriggersEnabled = s.policy.automaticTriggersEnabled
  | .cancel => policy = s.policy
  | .reset => True

instance UpToDate.decidable (policy : AutomationPolicy) (action : AutomationAction) :
    Decidable (s.UpToDate policy action) := by
  cases action <;> unfold UpToDate <;> infer_instance

/-- The next call of the request undoes nothing. -/
def MayCall : AutomationStage → Prop
  | .marking policy => s.UpToDate policy action
  | .writing policy =>
    s.UpToDate policy action ∧ (action = .enableTriggers → ⟨.reset, .creating⟩ ∉ s.requests)
  | _ => True

instance MayCall.decidable (action : AutomationAction) (stage : AutomationStage) :
    Decidable (s.MayCall action stage) := by
  cases stage <;> unfold MayCall <;> infer_instance

/-- A write finds the other flag unchanged since the request read it, and no request enables the
triggers while a reset that has disabled them is about to return. -/
def WritesUpToDate : AutomationOp → Prop
  | .step index => ∀ request ∈ s.requests[index]?, s.MayCall request.action request.stage
  | _ => True

instance WritesUpToDate.decidable (op : AutomationOp) : Decidable (s.WritesUpToDate op) := by
  cases op <;> unfold WritesUpToDate <;> infer_instance

end AutomationState

end Replicant.Server
