import Replicant.Managed.EventId
import Replicant.Managed.Steps

/-!
# Evidence

The event applier beside the calls on the journal. `apply_event` commits the projection of an event,
which moves the applied cursor, and then looks once for the operations the event is evidence for. A
duplicate is not looked at.
-/

namespace Replicant.Managed

open Lib

variable {Adapter : Type} (api : Api Adapter)

structure Applier (Adapter : Type) where
  system : System Adapter
  /-- The events whose projection was committed. -/
  committed : List Event

inductive Act (Adapter : Type) where
  /-- A step of a call on the journal; those of the applier's own are not taken alone. -/
  | journal (op : Op Adapter)
  /-- `apply_event` up to its commit. -/
  | apply (event : Event)

/-- The steps of the journal that only the applier takes. -/
def Op.isApplier : Op Adapter → Bool
  | .evidence _ | .advanceCursor _ => true
  | _ => false

variable (e : Entry) (s : Applier Adapter) (event : Event)

namespace Applier

def init : Applier Adapter := ⟨System.init, []⟩

def apply : Applier Adapter :=
  match hasEvent s.system.store.eventCursor event.id,
      advanceEventCursor s.system.store.eventCursor event.id with
  | .ok false, .ok (some cursor) =>
    ⟨step api (step api s.system (.advanceCursor cursor)) (.evidence event), s.committed ++ [event]⟩
  -- a duplicate, or an identifier that cannot be compared with the cursor
  | _, _ => s

def step : Act Adapter → Applier Adapter
  | .journal op => if op.isApplier then s else { s with system := Managed.step api s.system op }
  | .apply event => s.apply api event

def run (acts : List (Act Adapter)) : Applier Adapter := acts.foldl (step api) init

end Applier

/-! ## What an event proves -/

/-- The plan of the operation lists the event under the key, and the payload fits. -/
def Entry.plans (namesKey : String) : Bool :=
  let evidence := (e.intent.get "evidence").getD .null
  ((evidence.get namesKey).bind Json.asArray).any fun names =>
    (names.filterMap Json.asStr).any (· = event.name) &&
      (evidence.get "payload").all (Json.valueContains (.object event.payload))

/-- The event came after the submission and is evidence, good or bad, for the operation. -/
def Entry.ProvenBy : Prop :=
  e.identity.target ∈ event.targets ∧ (∃ c ∈ e.submissionCursor, After event.id c) ∧
    (e.plans event "event_names" = true ∨ e.plans event "failure_event_names" = true)

instance (e : Entry) (event : Event) : Decidable (e.ProvenBy event) :=
  inferInstanceAs (Decidable (_ ∧ _ ∧ _))

/-- What the event proves of the operation. -/
def Entry.proof : OperationStatus :=
  if e.plans event "event_names" then .completed else .failed

/-- Steps of calls, none of them a new event, lead to this status of the operation. -/
def System.Resolves (s : System Adapter) (id : String) (status : OperationStatus) : Prop :=
  ∃ ops : List (Op Adapter), (∀ op ∈ ops, op.isApplier = false) ∧
    ∃ e, (ops.foldl (step api) s).store.readOperation id = some e ∧ e.state = status

/-- An operation that waits though its evidence was committed can still be resolved by it. -/
def Applier.EvidenceKept : Prop :=
  ∀ event ∈ s.committed, ∀ id e, s.system.store.readOperation id = some e → e.ProvenBy event →
    e.state = .awaitingEvidence ∨ e.state = .ambiguous → s.system.Resolves api id (e.proof event)

/-! ## When evidence is in time -/

/-- The attempt of the operation is under way. -/
def Call.attempts (id : String) : Call Adapter → Bool
  | .submitting id' _ _ _ | .answered id' _ _ _ => id' = id
  | _ => false

/-- The outcome of the submission is not on record, or is on record as unknown. -/
def System.Undecided (s : System Adapter) (e : Entry) : Prop :=
  e.state = .submitted ∨ e.state = .ambiguous ∨ ∃ c ∈ s.calls, c.attempts e.operationId = true

/-- The event for which the call is still to look at the operation. -/
def Call.examines : Call Adapter → Option Event
  | .resolving event targets ids =>
    if e.identity.target ∈ targets ∨ e.operationId ∈ ids then some event else none
  | .evidenced event targets ids id _ =>
    if e.identity.target ∈ targets ∨ e.operationId ∈ id :: ids then some event else none
  | _ => none

/-- No operation waits for the call to look at it. -/
def Call.Spent (store : Store) (c : Call Adapter) : Prop :=
  ∀ e ∈ store.journal, e.state = .awaitingEvidence → ∀ event ∈ c.examines e, ¬ e.ProvenBy event

/-- An event is committed when the outcome of every submission it is evidence for is on record,
and as text its identifier is newer than their cursors; and no call that some operation still
waits for is interrupted. -/
def Act.Timely : Act Adapter → Prop
  | .apply event => ∀ e ∈ s.system.store.journal, e.ProvenBy event →
      ¬ s.system.Undecided e ∧ ∀ c ∈ e.submissionCursor, ¬ event.id ≤ c
  | .journal .crash => ∀ c ∈ s.system.calls, c.Spent s.system.store
  | .journal (.fail i) => ∀ c ∈ s.system.calls[i]?, c.Spent s.system.store
  | .journal _ => True

instance (s : System Adapter) (e : Entry) : Decidable (s.Undecided e) :=
  inferInstanceAs (Decidable (_ ∨ _ ∨ _))

instance (store : Store) (c : Call Adapter) : Decidable (c.Spent store) :=
  inferInstanceAs (Decidable (∀ e ∈ store.journal, _ → _))

instance (s : Applier Adapter) (act : Act Adapter) : Decidable (act.Timely s) := by
  unfold Act.Timely
  split <;> infer_instance

end Replicant.Managed
