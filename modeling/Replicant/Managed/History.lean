import Replicant.Lib.Table
import Replicant.Managed.EventId

/-!
# Event history

`apply_event_projection` stages the event in the history database, commits the batch with the cursor
in the primary one, and then marks the history row. The start-up repair marks what the cursor has
passed.
-/

namespace Replicant.Managed

open Lib

structure HistoryRow where
  eventId : String
  /-- `applied_at` is set. -/
  applied : Bool
  archivedOnly : Bool
deriving DecidableEq

/-- The last step an application gets to, whether it fails at the next one or the process dies. -/
inductive Reach where
  | checked | appended | committed | marked
deriving DecidableEq

structure EventStore where
  history : Table HistoryRow HistoryRow.eventId
  /-- The row of `event_cursors` for the account. -/
  cursor : Option String
  /-- The events whose batch was committed, in this order. -/
  committed : List String

namespace EventStore

def init : EventStore := ⟨Table.empty, none, []⟩

variable (s : EventStore)

/-- `INSERT OR IGNORE INTO event_history`. -/
def insertHistory (row : HistoryRow) : EventStore := { s with history := s.history.insert row }

def appendHistoryEvent (id : String) : EventStore := s.insertHistory ⟨id, false, false⟩

def markHistoryEventApplied (id : String) : EventStore :=
  { s with
    history := s.history.update (fun row => row.eventId = id) (fun row => { row with applied := true })
      fun _ => rfl }

def appendArchivedEvents (ids : List String) : EventStore :=
  ids.foldl (fun s id => s.insertHistory ⟨id, false, true⟩) s

/-- The primary transaction: the batch with its cursor. -/
def commitProjection (id : String) (cursor : Option String) : EventStore :=
  { s with cursor := cursor, committed := s.committed ++ [id] }

def applyEventProjection (id : String) (reach : Reach) : EventStore :=
  match hasEvent s.cursor id with
  | .error _ => s
  | .ok true => if reach = .marked then s.markHistoryEventApplied id else s
  | .ok false =>
    let staged := s.appendHistoryEvent id
    match reach, advanceEventCursor staged.cursor id with
    | .checked, _ => s
    | .appended, _ | _, .error _ => staged
    | .committed, .ok cursor => staged.commitProjection id cursor
    | .marked, .ok cursor => (staged.commitProjection id cursor).markHistoryEventApplied id

/-- The rows `applied_at IS NULL AND archived_only = 0`. -/
def stagedIds : List String :=
  (s.history.rows.filter fun row => !row.applied && !row.archivedOnly).map HistoryRow.eventId

/-- The identifiers at or below the cursor; one that cannot be compared is an error. -/
def passedIds (cursor : String) : List String → Except StoreError (List String)
  | [] => .ok []
  | id :: ids => do
    let ordering ← compareEventIds id cursor
    let applied ← passedIds cursor ids
    return if ordering ≠ .gt then id :: applied else applied

def reconcileHistoryVisibility : Except StoreError EventStore :=
  match s.cursor with
  | none => .ok s
  | some cursor => do
    let applied ← passedIds cursor s.stagedIds
    return applied.foldl markHistoryEventApplied s

end EventStore

inductive HistoryOp where
  | apply (id : String) (reach : Reach)
  | archive (ids : List String)
  /-- The store is opened; when the repair fails it is not. -/
  | restart
deriving DecidableEq

def historyStep (s : EventStore) : HistoryOp → EventStore
  | .apply id reach => s.applyEventProjection id reach
  | .archive ids => s.appendArchivedEvents ids
  | .restart =>
    match s.reconcileHistoryVisibility with
    | .ok s' => s'
    | .error _ => s

def historyRun (ops : List HistoryOp) : EventStore := ops.foldl historyStep EventStore.init

end Replicant.Managed
