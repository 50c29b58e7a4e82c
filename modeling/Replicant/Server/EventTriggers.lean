import Replicant.Lib.Transaction

/-!
# Event triggers

`evaluate_event_triggers_for` queries the history after the cursor of a trigger, claims a firing for
each event it finds, and moves the cursor to the event; at the end it moves the cursor to where the
managed client was before the query. A claim inserts a row whose key is the event, so a second claim
does nothing. Events are numbered in stream order, and one trigger is followed. The managed cursor
moves with the projection of an event, whose row becomes visible after that.
-/

namespace Replicant.Server

open Lib

/-- `query.after(cursor)`: no cursor restricts nothing. -/
def isAfter (cursor : Option ℕ) (event : ℕ) : Bool := cursor.all (· < event)

/-- The next step of `evaluate_event_triggers_for` for the trigger. -/
inductive EvaluationStage where
  /-- The trigger is read, with its cursor; the managed cursor is read next. -/
  | starting (cursor : Option ℕ)
  | querying (cursor current : Option ℕ)
  /-- The state revision is read before an event is claimed. -/
  | checking (event : ℕ) (rest : List ℕ) (current : Option ℕ)
  | claiming (event : ℕ) (rest : List ℕ) (current : Option ℕ)
  /-- The cursor is moved to the event. -/
  | moving (event : ℕ) (rest : List ℕ) (current : Option ℕ)
  /-- The loop is over, and the cursor is moved to the managed one. -/
  | closing (current : Option ℕ)
  | finished
  /-- By an error of the query, or by a crash. -/
  | stopped
deriving DecidableEq

namespace EvaluationStage

/-- The head of the loop over the events. -/
def loop (current : Option ℕ) : List ℕ → EvaluationStage
  | [] => .closing current
  | event :: rest => .checking event rest current

/-- The step fails. The errors of a claim and of a cursor write are dropped. -/
def falter : EvaluationStage → EvaluationStage
  | .starting cursor => .querying cursor none
  | .querying _ _ => .stopped
  | .checking _ _ current => .closing current
  | .claiming event rest current => .moving event rest current
  | .moving _ rest current => loop current rest
  | .closing _ => .finished
  | .finished => .finished
  | .stopped => .stopped

/-- The daemon crashes. -/
def stop : EvaluationStage → EvaluationStage
  | .finished => .finished
  | _ => .stopped

end EvaluationStage

structure Evaluation where
  stage : EvaluationStage
  /-- A step has failed. -/
  failed : Bool
deriving DecidableEq

/-- The next step of `update_trigger`, with the revision that the request expects. -/
inductive EditStage where
  | choosing (cursor : Option ℕ) (expected : ℕ)
  | writing (cursor : Option ℕ) (expected : ℕ)
  | returned
deriving DecidableEq

structure EventTriggers where
  /-- The events that are applied. -/
  applied : ℕ
  /-- The events whose rows are visible. -/
  visible : ℕ
  /-- `event_cursor` and `revision` of the trigger. -/
  cursor : Option ℕ
  revision : ℕ
  /-- `automation_trigger_firings`. -/
  firings : List ℕ
  evaluations : List Evaluation
  edits : List EditStage
deriving DecidableEq

inductive TriggerOp where
  /-- An event is applied. -/
  | apply
  /-- The row of the next applied event becomes visible. -/
  | publish
  | evaluate
  | step (index : ℕ)
  | fail (index : ℕ)
  /-- `set_trigger_error`, after a failed step or launch. -/
  | report
  | edit (expected : ℕ)
  | editStep (index : ℕ)
  | crash
deriving DecidableEq

namespace EventTriggers

variable (matching : ℕ → Bool) (s : EventTriggers)

/-- `events().cursor()`. -/
def managedCursor : Option ℕ :=
  match s.applied with
  | 0 => none
  | n + 1 => some n

/-- The visible events after the cursor that match the condition of the trigger. -/
def history (cursor : Option ℕ) : List ℕ :=
  (List.range s.visible).filter fun event => matching event && isAfter cursor event

/-- `claim_automatic_trigger_firing`, while triggers are enabled. -/
def claim (event : ℕ) : EventTriggers :=
  if event ∈ s.firings then s
  else { s with firings := s.firings ++ [event], revision := s.revision + 1 }

/-- A step of an evaluation. -/
def advance : EvaluationStage → EventTriggers × EvaluationStage
  | .starting cursor => (s, .querying cursor s.managedCursor)
  | .querying cursor current => (s, .loop current (s.history matching cursor))
  | .checking event rest current => (s, .claiming event rest current)
  | .claiming event rest current => (s.claim event, .moving event rest current)
  | .moving event rest current => ({ s with cursor := some event }, .loop current rest)
  | .closing none => (s, .finished)
  | .closing (some current) => ({ s with cursor := some current }, .finished)
  | .finished => (s, .finished)
  | .stopped => (s, .stopped)

/-- A step of an edit. A trigger without a cursor gets the managed one. -/
def advanceEdit : EditStage → EventTriggers × EditStage
  | .choosing cursor expected => (s, .writing (cursor <|> s.managedCursor) expected)
  | .writing cursor expected =>
    if s.revision = expected then
      ({ s with cursor := cursor, revision := s.revision + 1 }, .returned)
    else (s, .returned)
  | .returned => (s, .returned)

def step : TriggerOp → EventTriggers
  | .apply => { s with applied := s.applied + 1 }
  | .publish => if s.visible < s.applied then { s with visible := s.visible + 1 } else s
  | .evaluate => { s with evaluations := s.evaluations ++ [⟨.starting s.cursor, false⟩] }
  | .step index =>
    match s.evaluations[index]? with
    | some e =>
      let (t, stage) := s.advance matching e.stage
      { t with evaluations := s.evaluations.set index { e with stage } }
    | none => s
  | .fail index =>
    match s.evaluations[index]? with
    | some e => { s with evaluations := s.evaluations.set index ⟨e.stage.falter, true⟩ }
    | none => s
  | .report => { s with revision := s.revision + 1 }
  | .edit expected => { s with edits := s.edits ++ [.choosing s.cursor expected] }
  | .editStep index =>
    match s.edits[index]? with
    | some edit =>
      let (t, stage) := s.advanceEdit edit
      { t with edits := s.edits.set index stage }
    | none => s
  | .crash =>
    { s with
      evaluations := s.evaluations.map fun e => { e with stage := e.stage.stop }
      edits := [] }

/-- A trigger before its first evaluation. -/
def start (applied visible : ℕ) (cursor : Option ℕ) (revision : ℕ) : EventTriggers :=
  ⟨applied, visible, cursor, revision, [], [], []⟩

def run (s : EventTriggers) (ops : List TriggerOp) : EventTriggers :=
  ops.foldl (step matching) s

/-! ## What is expected -/

/-- No event is claimed twice, and an evaluation that ends without a failure has claimed every
matching event after the first cursor that was visible when it started. -/
def FiresOnce (ops : List TriggerOp) : Prop :=
  (s.run matching ops).firings.Nodup ∧
  ∀ before after, ops = before ++ .evaluate :: after →
    (s.run matching ops).evaluations[(s.run matching before).evaluations.length]? =
      some ⟨.finished, false⟩ →
    ∀ event < (s.run matching before).visible, matching event = true → isAfter s.cursor event = true →
      event ∈ (s.run matching ops).firings

/-- The managed cursor is read when every event up to it is visible. -/
def MayAdvance : EvaluationStage → Prop
  | .starting _ => s.applied ≤ s.visible
  | _ => True

/-- A failed read of the revision, or a failed claim, leaves events behind. -/
def MayFalter : EvaluationStage → Prop
  | .checking _ _ _ | .claiming _ _ _ => False
  | _ => True

/-- No claim fails, no read of the state revision fails, the managed cursor is not read ahead of the
history, and no trigger without a cursor is edited. -/
def Gapless : TriggerOp → Prop
  | .step index => ∀ e ∈ s.evaluations[index]?, s.MayAdvance e.stage
  | .fail index => ∀ e ∈ s.evaluations[index]?, MayFalter e.stage
  | .edit _ => s.cursor ≠ none
  | _ => True

instance MayAdvance.decidable (stage : EvaluationStage) : Decidable (s.MayAdvance stage) := by
  cases stage <;> unfold MayAdvance <;> infer_instance

instance MayFalter.decidable (stage : EvaluationStage) : Decidable (MayFalter stage) := by
  cases stage <;> unfold MayFalter <;> infer_instance

instance Gapless.decidable (op : TriggerOp) : Decidable (s.Gapless op) := by
  cases op <;> unfold Gapless <;> infer_instance

end EventTriggers

end Replicant.Server
