import Replicant.Managed.EventId

/-!
# Catching up with the event log

The unfiltered account log as the server pages it, and `catch_up_unfiltered`, which pages
forward from a cursor and hands every event to the applier.
-/

namespace Replicant.Managed

/-- The `limit` of a request. -/
def pageLimit : ℕ := 100

/-- The events of the log after a cursor, in stream order. -/
def eventsAfter (log : List String) (cursor : String) : List String :=
  log.filter fun id => After id cursor

lemma mem_eventsAfter {log : List String} {id c : String} :
    id ∈ eventsAfter log c ↔ id ∈ log ∧ After id c := by
  simp [eventsAfter]

/-- What the server returns for a cursor. Without one it returns the most recent events. -/
def listEvents (log : List String) : Option String → List String
  | some cursor => (eventsAfter log cursor).take pageLimit
  | none => log.drop (log.length - pageLimit)

/-- The cursor of the next request after a page; none when the traversal is complete. -/
def nextRequest (cursor lastEventId nextCursor : Option String) : Option String :=
  nextCursor.bind fun next => if lastEventId = some next ∨ cursor = some next then none else some next

lemma nextRequest_eq_some {cursor last next : Option String} {n : String}
    (h : nextRequest cursor last next = some n) : next = some n := by
  obtain ⟨m, hm, hn⟩ := Option.bind_eq_some_iff.mp h
  split at hn
  · cases hn
  · rw [hm, hn]

/-- The server and the applier as a traversal meets them. -/
structure Remote where
  /-- The log when request `k` is served. -/
  log : ℕ → List String
  /-- The `next_cursor` of response `k` to a request with this cursor. -/
  nextCursor : ℕ → Option String → Option String
  /-- Request `k` fails. -/
  fails : ℕ → Bool
  /-- The applier takes the event. -/
  applies : String → Bool

namespace Remote

variable (r : Remote)

end Remote

end Replicant.Managed
