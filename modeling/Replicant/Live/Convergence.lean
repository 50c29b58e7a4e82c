import Replicant.Lib.Transaction
import Replicant.Web.DaemonReducer

/-!
# One daemon and one browser

The daemon publishes a change in three steps under the publish lock: it bumps the revision, records
the slices, and broadcasts the message. The handler of `/snapshot` and the live connection read
without that lock. The browser opens the socket and asks for a snapshot at once; what the socket
brings until the snapshot is there waits in a buffer.

`publish_workflow_updates` compares the rows with the revisions that it has published. Ids of
workflows are never used again, and every change of a row increments its revision.
-/

namespace Replicant.Live

open Lib Web

/-- A publication under way. -/
structure Publication where
  message : LiveMessage
  /-- The slice revisions are written. -/
  recorded : Bool
deriving DecidableEq

/-- `live_connection`. -/
inductive SocketStage where
  | closed
  | subscribed
  /-- The revision of the initial marker is read. -/
  | marked (initial : ℕ)
  /-- The marker is sent. -/
  | forwarding (initial : ℕ)
deriving DecidableEq

/-- The handler of `/snapshot`, and its answer. -/
inductive SnapshotStage where
  | idle
  | listed (workflows : List WorkflowSummary)
  /-- The revision is read, too. -/
  | metered (workflows : List WorkflowSummary) (revision : ℕ)
  | answered (snapshot : RuntimeSnapshot)
  /-- The browser has dispatched the answer. -/
  | delivered

structure LiveSystem where
  /-- `workflow_instances`, and the number of ids in use. -/
  rows : List WorkflowSummary
  created : ℕ
  /-- The `revisions` of `publish_workflow_updates`. -/
  known : ℕ → Option ℕ
  /-- The rows that it has read and not looked at, and the ids that it has seen. -/
  tick : Option (List WorkflowSummary × List ℕ)
  revision : ℕ
  sliceRevisions : SliceRevisions
  publication : Option Publication
  socket : SocketStage
  /-- The messages in the receiver of the connection, and on their way to the browser. -/
  queue : List LiveMessage
  wire : List LiveMessage
  handler : SnapshotStage
  /-- The messages that wait for the bootstrap. -/
  buffered : List LiveMessage
  browser : DaemonState

inductive LiveOp where
  | createRow (summary : WorkflowSummary)
  /-- A row gets new values. -/
  | changeRow (id : ℕ) (summary : WorkflowSummary)
  | deleteRow (id : ℕ)
  /-- `publish_workflow_updates` reads the rows. -/
  | tickRead
  /-- It looks at the next row, and begins to publish it if it has changed. -/
  | tickNext
  | flush (slices : List DomainSlice)
  /-- Another delta is published. -/
  | publish
  | record
  | send
  | subscribe
  | mark
  | sendMarker
  | forward
  | list
  | meter
  | answer
  /-- The browser gets the snapshot, or the next message. -/
  | load
  | deliver
deriving DecidableEq

namespace LiveSystem

variable (s : LiveSystem)

/-- The revision is bumped, with the publish lock taken. -/
def bump (delta : ℕ → LiveDelta) : LiveSystem :=
  { s with
    revision := s.revision + 1
    publication := some ⟨⟨s.revision + 1, delta (s.revision + 1)⟩, false⟩ }

def recordSlices (current : SliceRevisions) : LiveDelta → SliceRevisions
  | .domainsInvalidated slices =>
    slices.foldl (fun recorded entry slice =>
      if slice = entry.1 then some entry.2 else recorded slice) current
  | _ => current

/-- The next row of a tick. -/
def tickNext (summary : WorkflowSummary) (rest : List WorkflowSummary) (present : List ℕ) :
    LiveSystem :=
  let t := { s with
    tick := some (rest, summary.id :: present)
    known := fun id => if id = summary.id then some summary.revision else s.known id }
  if s.known summary.id = some summary.revision then t
  else t.bump fun _ => .workflow summary

/-- The initial marker of the connection, once it is read. -/
def initial : Option ℕ :=
  match s.socket with
  | .closed | .subscribed => none
  | .marked initial | .forwarding initial => some initial

def step : LiveOp → LiveSystem
  | .createRow summary =>
    { s with rows := s.rows ++ [{ summary with id := s.created }], created := s.created + 1 }
  | .changeRow id summary =>
    { s with rows := s.rows.map fun row =>
        if row.id = id then { summary with id, kind := row.kind, revision := row.revision + 1 }
        else row }
  | .deleteRow id => { s with rows := s.rows.filter (·.id ≠ id) }
  | .tickRead => if s.tick.isNone then { s with tick := some (s.rows, []) } else s
  | .tickNext =>
    match s.tick with
    | some (summary :: rest, present) =>
      -- A change is published under the lock.
      if s.known summary.id = some summary.revision ∨ s.publication.isNone then
        s.tickNext summary rest present
      else s
    | some ([], present) =>
      { s with
        tick := none
        known := fun id => if id ∈ present then s.known id else none }
    | none => s
  | .flush slices =>
    if s.publication.isNone ∧ slices ≠ [] then
      s.bump fun revision => .domainsInvalidated (slices.map fun slice => (slice, revision))
    else s
  | .publish => if s.publication.isNone then s.bump fun _ => .other else s
  | .record =>
    match s.publication with
    | some ⟨message, false⟩ =>
      { s with
        sliceRevisions := recordSlices s.sliceRevisions message.delta
        publication := some ⟨message, true⟩ }
    | _ => s
  | .send =>
    match s.publication with
    | some ⟨message, true⟩ =>
      { s with
        publication := none
        queue := if s.socket = .closed then s.queue else s.queue ++ [message] }
    | _ => s
  | .subscribe => if s.socket = .closed then { s with socket := .subscribed } else s
  | .mark => if s.socket = .subscribed then { s with socket := .marked s.revision } else s
  | .sendMarker =>
    match s.socket with
    | .marked initial =>
      { s with socket := .forwarding initial, wire := s.wire ++ [⟨initial, .snapshot⟩] }
    | _ => s
  | .forward =>
    match s.socket, s.queue with
    | .forwarding initial, message :: rest =>
      if message.revision ≤ initial then { s with queue := rest }
      else { s with queue := rest, wire := s.wire ++ [message] }
    | _, _ => s
  | .list =>
    match s.handler with
    | .idle => { s with handler := .listed s.rows }
    | _ => s
  | .meter =>
    match s.handler with
    | .listed workflows => { s with handler := .metered workflows s.revision }
    | _ => s
  | .answer =>
    match s.handler with
    | .metered workflows revision =>
      { s with handler := .answered ⟨revision, workflows, s.sliceRevisions⟩ }
    | _ => s
  | .load =>
    match s.handler with
    | .answered snapshot =>
      { s with
        handler := .delivered
        browser := (s.browser.loadSnapshot snapshot).replay s.buffered
        buffered := [] }
    | _ => s
  | .deliver =>
    match s.wire, s.handler with
    | message :: rest, .delivered => { s with wire := rest, browser := s.browser.live message }
    | message :: rest, _ => { s with wire := rest, buffered := s.buffered ++ [message] }
    | [], _ => s

/-- The daemon has started, and the browser has begun to connect. -/
def start (rows : List WorkflowSummary) (created revision : ℕ) : LiveSystem where
  rows := rows
  created := created
  known := fun id => (rows.find? (·.id = id)).map (·.revision)
  tick := none
  revision := revision
  sliceRevisions := fun _ => none
  publication := none
  socket := .closed
  queue := []
  wire := []
  handler := .idle
  buffered := []
  browser := .initial

/-- Ids are distinct and counted. -/
def Numbered (rows : List WorkflowSummary) (created : ℕ) : Prop :=
  (rows.map (·.id)).Nodup ∧ ∀ row ∈ rows, row.id < created

instance (rows : List WorkflowSummary) (created : ℕ) : Decidable (Numbered rows created) :=
  inferInstanceAs (Decidable (_ ∧ _))

/-! ## What is expected -/

/-- Everything is published, and everything that is published has reached the browser. -/
structure Quiescent : Prop where
  published : ∀ row ∈ s.rows, s.known row.id = some row.revision
  publication : s.publication = none
  queue : s.queue = []
  wire : s.wire = []
  loaded : s.handler matches .delivered

/-- The browser has what the daemon has. -/
structure Converged : Prop where
  workflows : ∀ row ∈ s.rows, s.browser.workflows row.id = some row
  invalidated : s.browser.invalidated = s.sliceRevisions
  continuous : s.browser.needsResnapshot = false

/-- The handler is between its first and its last read. -/
def reading : Bool :=
  match s.handler with
  | .listed _ | .metered _ _ => true
  | .idle | .answered _ | .delivered => false

/-- A publication may begin; that of a requirement only before the handler does. -/
def MayPublish (requirement : Prop) : Prop :=
  s.reading = false ∧ (requirement → s.handler matches .idle)

/-- While the handler of `/snapshot` reads, nothing is published, the connection reads its marker
before the handler reads the revision, and no requirement is published after that. -/
def Undisturbed : LiveOp → Prop
  | .tickNext => ∀ tick ∈ s.tick, ∀ summary ∈ tick.1.head?,
    s.known summary.id ≠ some summary.revision →
      s.MayPublish (summary.kind = DaemonState.requirementKind)
  | .flush _ | .publish => s.MayPublish False
  | .list => s.publication.isNone = true
  | .meter => s.initial.isSome = true
  | _ => True

instance (requirement : Prop) [Decidable requirement] : Decidable (s.MayPublish requirement) :=
  inferInstanceAs (Decidable (_ ∧ (_ → _)))

instance Undisturbed.decidable (op : LiveOp) : Decidable (s.Undisturbed op) := by
  cases op <;> unfold Undisturbed <;> infer_instance

end LiveSystem

end Replicant.Live
