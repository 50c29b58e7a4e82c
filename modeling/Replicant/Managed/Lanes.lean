import Replicant.Managed.CatchUp

/-!
# The event lanes

The filtered stream, the traversals of the unfiltered log and the applier they share. A lane begins
at the cursor and waits for the applier's answer to each of its events; between two of its steps any
other lane may act. The applier drops what is at or below the cursor.
-/

namespace Replicant.Managed

/-- A lane, by the step it takes next. -/
inductive Lane where
  /-- `run_sse_loop`: waits for the next event of the stream. -/
  | streaming (position : Option String)
  | sent (id : String)
  /-- `catch_up_unfiltered`: about to request a page, then to enqueue the rest of one. -/
  | listing (cursor : Option String) (left : ℕ)
  | paging (cursor : Option String) (left : ℕ) (page : List String) (last next : Option String)
  | queued (cursor : Option String) (left : ℕ) (id : String) (page : List String)
      (last next : Option String)
  /-- An event whose producer no longer waits for it. -/
  | orphan (id : String) (filtered : Bool)
deriving DecidableEq

structure Events where
  /-- The account log of the server, in stream order. -/
  log : List String
  /-- The cursors the server has given out. -/
  issued : List String
  /-- The newest event before the first start. -/
  watermark : Option String
  /-- The durable cursor. -/
  cursor : Option String
  /-- The events whose projection was committed, in this order. -/
  committed : List String
  lanes : List Lane

inductive LaneOp where
  /-- The server appends an event. -/
  | publish (id : String)
  /-- `run_startup`: the catch-up from the cursor, or from a new watermark, whose request may fail. -/
  | start (answered : Bool) (maxPages : ℕ)
  /-- A lane reads the cursor, and takes it for absent when that fails. -/
  | connect (readable : Bool) | poll (readable : Bool) (maxPages : ℕ)
  /-- The stream delivers its next event. -/
  | receive (lane : ℕ)
  /-- The server answers a request for a page. -/
  | fetch (lane : ℕ) (next : Option String)
  | enqueue (lane : ℕ)
  /-- The applier handles the event a lane waits for; the primary commit may fail. -/
  | apply (lane : ℕ) (commits : Bool)
  /-- A lane ends; an event it has enqueued is still applied. -/
  | abandon (lane : ℕ)
  | crash

/-- The text is a stream identifier. -/
def IsEventId (id : String) : Prop := (parseEventId id).isOk = true

instance (id : String) : Decidable (IsEventId id) := inferInstanceAs (Decidable (_ = _))

namespace Events

/-- With no history: every account begins with an empty log. -/
def init : Events := ⟨[], [], none, none, [], []⟩

variable (muted : String → Bool) (s : Events)

def begin (lane : Lane) : Events := { s with lanes := s.lanes ++ [lane] }

variable (i : ℕ) (id : String) (cursor : Option String)

def goOn (lane : Lane) : Events := { s with lanes := s.lanes.set i lane }

def endLane : Events := { s with lanes := s.lanes.eraseIdx i }

/-- What the pagination contract allows as `next_cursor`. -/
def Allows (page : List String) : Option String → Prop
  | none => ∀ c ∈ cursor, ∀ id ∈ eventsAfter s.log c, id ∈ page
  | some n => IsEventId n ∧ ∀ c ∈ cursor, (∀ id ∈ c :: page, UpTo id n) ∧
      ∀ id ∈ eventsAfter s.log c, id ∉ page → After id n

instance (cursor : Option String) (page : List String) :
    (next : Option String) → Decidable (s.Allows cursor page next)
  | none => inferInstanceAs (Decidable (∀ c ∈ cursor, _))
  | some _ => inferInstanceAs (Decidable (_ ∧ ∀ c ∈ cursor, _))

/-- Identifiers increase, and a cursor that was given out is before the events to come. -/
def publish : Events :=
  if IsEventId id ∧ ∀ known ∈ s.log ++ s.issued, After id known then
    { s with log := s.log ++ [id] }
  else s

def start (answered : Bool) (maxPages : ℕ) : Events :=
  match s.cursor with
  | some cursor => s.begin (.listing (some cursor) (max maxPages 1 - 1))
  | none =>
    if answered then
      { s with watermark := s.log.getLast? }.begin (.listing s.log.getLast? (max maxPages 1 - 1))
    else s.begin (.listing none (max maxPages 1 - 1))

/-- Without a cursor the stream begins at its present end. -/
def connect (readable : Bool) : Events :=
  let cursor := if readable then s.cursor else none
  s.begin (.streaming (cursor.or s.log.getLast?))

def poll (readable : Bool) (maxPages : ℕ) : Events :=
  let cursor := if readable then s.cursor else none
  s.begin (.listing cursor (max maxPages 1 - 1))

/-- The events of the stream after a position. -/
def stream (position : Option String) : List String :=
  let events := match position with
    | some c => eventsAfter s.log c
    | none => s.log
  events.filter fun id => !muted id

def receive (position : Option String) : Events :=
  match (s.stream muted position).head? with
  | some id => s.goOn i (.sent id)
  | none => s

def fetch (left : ℕ) (next : Option String) : Events :=
  let page := listEvents s.log cursor
  if s.Allows cursor page next then
    { s.goOn i (.paging cursor left page page.getLast? next) with
      issued := s.issued ++ next.toList }
  else s

def enqueue (left : ℕ) (page : List String) (last next : Option String) : Events :=
  match page with
  | id :: rest => s.goOn i (.queued cursor left id rest last next)
  | [] =>
    match nextRequest cursor last next, left with
    | none, _ => s.endLane i
    | some _, 0 => s.endLane i
    | some n, left + 1 => s.goOn i (.listing (some n) left)

/-- `apply_event` up to its commit: the state after it, or none when it fails. -/
def applyEvent (commits : Bool) : Option Events :=
  match hasEvent s.cursor id, advanceEventCursor s.cursor id with
  | .ok true, _ => some s
  | .ok false, .ok cursor =>
    if commits then some { s with cursor := cursor, committed := s.committed ++ [id] } else none
  | _, _ => none

/-- The answer reaches the lane: it goes on, or it ends with the error. -/
def answer (commits : Bool) (next : Option Lane) : Events :=
  match s.applyEvent id commits, next with
  | some s', some lane => s'.goOn i lane
  | some s', none => s'.endLane i
  | none, _ => s.endLane i

end Events

open Events in
/-- One step; a step whose lane is not there, or is at another step, changes nothing. -/
def laneStep (muted : String → Bool) (s : Events) : LaneOp → Events
  | .publish id => s.publish id
  | .start answered maxPages => s.start answered maxPages
  | .connect readable => s.connect readable
  | .poll readable maxPages => s.poll readable maxPages
  | .receive i =>
    match s.lanes[i]? with
    | some (.streaming position) => s.receive muted i position
    | _ => s
  | .fetch i next =>
    match s.lanes[i]? with
    | some (.listing cursor left) => s.fetch i cursor left next
    | _ => s
  | .enqueue i =>
    match s.lanes[i]? with
    | some (.paging cursor left page last next) => s.enqueue i cursor left page last next
    | _ => s
  | .apply i commits =>
    match s.lanes[i]? with
    | some (.sent id) => s.answer i id commits (some (.streaming (some id)))
    | some (.queued cursor left id page last next) =>
      s.answer i id commits (some (.paging cursor left page last next))
    | some (.orphan id _) => s.answer i id commits none
    | _ => s
  | .abandon i =>
    match s.lanes[i]? with
    | some (.sent id) => s.goOn i (.orphan id true)
    | some (.queued _ _ id _ _ _) => s.goOn i (.orphan id false)
    | some (.orphan _ _) => s
    | _ => s.endLane i
  | .crash => { s with lanes := [] }

/-- Steps one after another, from an empty log. -/
def laneRun (muted : String → Bool) (ops : List LaneOp) : Events :=
  ops.foldl (laneStep muted) Events.init

end Replicant.Managed
