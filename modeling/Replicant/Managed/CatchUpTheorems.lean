import Replicant.Managed.CatchUp

/-!
# A complete catch-up

Under the documented contract of the log, what a page leaves is what follows its `next_cursor`. So
the pages add up to the log, unless the last of them names its own last event as `next_cursor` while
events follow, which the traversal takes for the end of the log.
-/

namespace Replicant.Managed

open List

variable {enqueued : List String} {k : ℕ}

namespace Remote

variable {r : Remote} {c : String}

/-- The documented behaviour of the event log endpoint. -/
structure Contract (r : Remote) : Prop where
  ordered : ∀ k, (r.log k).Pairwise fun a b => After b a
  grows : ∀ k, r.log k <+: r.log (k + 1)
  /-- `next_cursor` is null only if no event follows. -/
  ends : ∀ k c, r.nextCursor k (some c) = none →
    listEvents (r.log k) (some c) = eventsAfter (r.log k) c
  /-- It is at or after what was asked for and returned, -/
  atOrAfter : ∀ k c n, r.nextCursor k (some c) = some n →
    ∀ id ∈ c :: listEvents (r.log k) (some c), UpTo id n
  /-- and before what was not returned, then or later. -/
  before : ∀ k c n, r.nextCursor k (some c) = some n → ∀ j, k ≤ j →
    ∀ id ∈ eventsAfter (r.log j) c, id ∉ listEvents (r.log k) (some c) → After id n

/-! ## One page -/

variable {cursor : Option String}

namespace Contract

end Contract

/-! ## The traversal -/

lemma Contract.nodup (h : r.Contract) (k : ℕ) (c : String) : (eventsAfter (r.log k) c).Nodup := by
  refine ((h.ordered k).filter _).imp fun {a b} hab heq => ?_
  rw [heq] at hab
  exact (UpTo.refl b).not_after hab

variable {log : List String} {next : String → String}

end Remote

end Replicant.Managed
