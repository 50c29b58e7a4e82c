import Mathlib.Data.List.Perm.Basic
import Replicant.Raw.RateLimit

/-!
# The queue of the rate limiter

Whose turn it is, and what keeps it: pruning others never takes the turn away, a push does so only
when it changes which of the two queues goes first, and a pop removes the ticket whose turn it is.
-/

namespace Replicant.Raw

open List

namespace RequestQueue

variable {queue : RequestQueue} {active active' : ℕ → Bool} {ticket other : ℕ} {p : RequestPriority}

lemma next_eq_some : queue.next = some ticket ↔ (queue.foreground.head? = some ticket ∧
      (queue.background = [] ∨ queue.foregroundStreak < 8)) ∨
    (queue.background.head? = some ticket ∧
      (queue.foreground = [] ∨ 8 ≤ queue.foregroundStreak)) := by
  obtain ⟨foreground, background, streak⟩ := queue
  unfold next foregroundTurn
  cases foreground with
  | nil => cases background <;> simp
  | cons =>
    cases background with
    | nil => simp
    | cons =>
      by_cases hstreak : streak < 8
      · simp [hstreak, Nat.not_le_of_lt hstreak]
      · simp [hstreak, Nat.le_of_not_lt hstreak]

lemma mem_of_next (h : queue.next = some ticket) :
    ticket ∈ queue.foreground ∨ ticket ∈ queue.background := by
  rcases next_eq_some.mp h with ⟨hhead, -⟩ | ⟨hhead, -⟩
  · exact .inl (mem_of_mem_head? hhead)
  · exact .inr (mem_of_mem_head? hhead)

/-- The streak is forgotten only when nobody waits. -/
lemma pruneCancelled_streak (h : ticket ∈ queue.foreground ∨ ticket ∈ queue.background)
    (hact : active ticket = true) :
    (queue.pruneCancelled active).foregroundStreak = queue.foregroundStreak := by
  unfold pruneCancelled
  refine if_neg fun hempty => ?_
  rcases h with h | h
  · exact ne_nil_of_mem (mem_filter.mpr ⟨h, hact⟩) hempty.1
  · exact ne_nil_of_mem (mem_filter.mpr ⟨h, hact⟩) hempty.2

/-- Pruning others does not take the turn away. -/
lemma next_pruneCancelled (h : queue.next = some ticket) (hact : active ticket = true) :
    (queue.pruneCancelled active).next = some ticket := by
  have hstreak := pruneCancelled_streak (mem_of_next h) hact
  have hhead : ∀ tickets : List ℕ, tickets.head? = some ticket →
      (tickets.filter active).head? = some ticket := by
    intro tickets hhead
    cases tickets with
    | nil => cases hhead
    | cons =>
      cases hhead
      rw [filter_cons_of_pos hact, head?_cons]
  rw [next_eq_some, hstreak]
  rcases next_eq_some.mp h with ⟨hfront, hturn⟩ | ⟨hfront, hturn⟩
  · refine .inl ⟨hhead _ hfront, hturn.imp_left fun hnil => ?_⟩
    show queue.background.filter active = []
    rw [hnil, filter_nil]
  · refine .inr ⟨hhead _ hfront, hturn.imp_left fun hnil => ?_⟩
    show queue.foreground.filter active = []
    rw [hnil, filter_nil]

section

variable (h : ∀ t, active' t = true → active t = true)

include h

lemma filter_filter_of_imp (tickets : List ℕ) :
    (tickets.filter active).filter active' = tickets.filter active' := by
  rw [filter_filter]
  refine filter_congr fun t _ => ?_
  cases hact : active' t with
  | false => rfl
  | true => rw [h t hact]; rfl

lemma pruneCancelled_pruneCancelled :
    (queue.pruneCancelled active).pruneCancelled active' = queue.pruneCancelled active' := by
  unfold pruneCancelled
  simp only [filter_filter_of_imp h]
  congr 1
  by_cases hempty : queue.foreground.filter active' = [] ∧ queue.background.filter active' = []
  · rw [if_pos hempty, if_pos hempty]
  · rw [if_neg hempty, if_neg hempty, if_neg]
    rintro ⟨hfore, hbackground⟩
    apply hempty
    rw [← filter_filter_of_imp h queue.foreground, ← filter_filter_of_imp h queue.background,
      hfore, hbackground]
    exact ⟨rfl, rfl⟩

end

lemma pruneCancelled_idem (queue : RequestQueue) (active : ℕ → Bool) :
    (queue.pruneCancelled active).pruneCancelled active = queue.pruneCancelled active :=
  pruneCancelled_pruneCancelled fun _ h => h

/-- A ticket that is queued behind the others leaves the turn where it is, unless it changes which of
the two queues goes first. -/
lemma next_push (h : queue.next = some ticket) (p : RequestPriority)
    (hfore : p = .foreground → 8 ≤ queue.foregroundStreak ∨ ticket ∉ queue.background)
    (hbackground : p = .background → queue.foregroundStreak < 8 ∨ ticket ∉ queue.foreground) :
    (queue.push p other).next = some ticket := by
  have hback : ∀ tickets : List ℕ, tickets.head? = some ticket →
      (tickets ++ [other]).head? = some ticket := by
    intro tickets hhead
    rw [head?_append, hhead, Option.some_or]
  rw [next_eq_some]
  cases p with
  | foreground =>
    rcases next_eq_some.mp h with ⟨hfront, hturn⟩ | ⟨hfront, -⟩
    · exact .inl ⟨hback _ hfront, hturn⟩
    · rcases hfore rfl with hstreak | hmem
      · exact .inr ⟨hfront, .inr hstreak⟩
      · exact absurd (mem_of_mem_head? hfront) hmem
  | background =>
    rcases next_eq_some.mp h with ⟨hfront, -⟩ | ⟨hfront, hturn⟩
    · rcases hbackground rfl with hstreak | hmem
      · exact .inl ⟨hfront, .inr hstreak⟩
      · exact absurd (mem_of_mem_head? hfront) hmem
    · exact .inr ⟨hback _ hfront, hturn⟩

/-- What a pop does when it is the turn of `ticket`. -/
lemma popNext_eq (h : queue.next = some ticket) :
    (queue.foreground = ticket :: queue.popNext.foreground ∧
      queue.popNext.background = queue.background ∧ (queue.background = [] ∨
        queue.foregroundStreak < 8 ∧ queue.popNext.foregroundStreak = queue.foregroundStreak + 1)) ∨
    (queue.background = ticket :: queue.popNext.background ∧
      queue.popNext.foreground = queue.foreground) := by
  obtain ⟨foreground, background, streak⟩ := queue
  rcases next_eq_some.mp h with ⟨hfront, hturn⟩ | ⟨hfront, hturn⟩
  · left
    cases foreground with
    | nil => cases hfront
    | cons f fs =>
      cases hfront
      cases background with
      | nil => simp [popNext, foregroundTurn]; split <;> simp
      | cons b bs =>
        have hstreak : streak < 8 := hturn.resolve_left (by simp)
        simp [popNext, foregroundTurn, hstreak]
        omega
  · right
    cases background with
    | nil => cases hfront
    | cons b bs =>
      cases hfront
      have hnot : foregroundTurn ⟨foreground, ticket :: bs, streak⟩ = false := by
        rcases hturn with hnil | hstreak
        · change foreground = [] at hnil
          simp [foregroundTurn, hnil]
        · simp [foregroundTurn, Nat.not_lt.mpr hstreak]
      simp [popNext, hnot]

section

variable (hnodup : (queue.foreground ++ queue.background).Nodup) (h : queue.next = some ticket)

include hnodup h

lemma popNext_append_eq : queue.popNext.foreground ++ queue.popNext.background =
      (queue.foreground ++ queue.background).erase ticket := by
  rcases popNext_eq h with ⟨hfront, hback, -⟩ | ⟨hback, hfront⟩
  · rw [hback, hfront, cons_append, erase_cons_head]
  · have hnot : ticket ∉ queue.foreground := by
      intro hmem
      refine (nodup_append.mp hnodup).2.2 ticket hmem ticket ?_ rfl
      rw [hback]
      exact mem_cons_self
    rw [erase_append_right _ hnot, hfront, hback, erase_cons_head]

lemma mem_popNext : other ∈ queue.popNext.tickets p ↔ other ∈ queue.tickets p ∧ other ≠ ticket := by
  obtain ⟨hnf, hnb, hdisj⟩ := nodup_append.mp hnodup
  rcases popNext_eq h with ⟨hfront, hback, -⟩ | ⟨hback, hfront⟩
  · rw [hfront] at hnf hdisj
    cases p with
    | foreground =>
      show other ∈ queue.popNext.foreground ↔ other ∈ queue.foreground ∧ _
      rw [hfront, mem_cons]
      have hnot := (nodup_cons.mp hnf).1
      grind
    | background =>
      show other ∈ queue.popNext.background ↔ other ∈ queue.background ∧ _
      have hnot := hdisj ticket mem_cons_self
      rw [hback]
      grind
  · rw [hback] at hnb hdisj
    cases p with
    | foreground =>
      show other ∈ queue.popNext.foreground ↔ other ∈ queue.foreground ∧ _
      rw [hfront]
      grind
    | background =>
      show other ∈ queue.popNext.background ↔ other ∈ queue.background ∧ _
      rw [hback, mem_cons]
      have hnot := (nodup_cons.mp hnb).1
      grind

end

lemma pruneCancelled_congr (h : ∀ t ∈ queue.foreground ++ queue.background, active t = active' t) :
    queue.pruneCancelled active = queue.pruneCancelled active' := by
  unfold pruneCancelled
  rw [filter_congr fun t ht => h t (mem_append_left _ ht),
    filter_congr fun t ht => h t (mem_append_right _ ht)]

lemma mem_append_iff :
    ticket ∈ queue.foreground ++ queue.background ↔ ∃ p, ticket ∈ queue.tickets p := by
  rw [mem_append]
  constructor
  · rintro (h | h)
    · exact ⟨.foreground, h⟩
    · exact ⟨.background, h⟩
  · rintro ⟨p, h⟩
    cases p with
    | foreground => exact .inl h
    | background => exact .inr h

lemma nodup_push (h : (queue.foreground ++ queue.background).Nodup)
    (hnew : other ∉ queue.foreground ++ queue.background) (p : RequestPriority) :
    ((queue.push p other).foreground ++ (queue.push p other).background).Nodup := by
  have hperm : ((queue.push p other).foreground ++ (queue.push p other).background).Perm
      (other :: (queue.foreground ++ queue.background)) := by
    cases p with
    | foreground =>
      show (queue.foreground ++ [other] ++ queue.background).Perm _
      rw [append_assoc]
      exact perm_middle
    | background =>
      show (queue.foreground ++ (queue.background ++ [other])).Perm _
      rw [← append_assoc]
      exact perm_append_singleton _ _
  exact hperm.nodup_iff.mpr (nodup_cons.mpr ⟨hnew, h⟩)

lemma mem_push {q : RequestPriority} : ticket ∈ (queue.push p other).tickets q ↔
      ticket ∈ queue.tickets q ∨ (ticket = other ∧ p = q) := by
  cases p <;> cases q <;> simp [push, tickets]

lemma mem_tickets_pruneCancelled : ticket ∈ (queue.pruneCancelled active).tickets p ↔
      ticket ∈ queue.tickets p ∧ active ticket = true := by
  cases p <;> exact mem_filter

/-- Pruning keeps a new ticket that is alive. -/
lemma pruneCancelled_push (p : RequestPriority) (hact : active other = true)
    (hmem : ticket ∈ queue.foreground ∨ ticket ∈ queue.background)
    (hticket : active ticket = true) :
    (queue.push p other).pruneCancelled active = (queue.pruneCancelled active).push p other := by
  have hstreak := pruneCancelled_streak hmem hticket
  cases p <;> simp_all [push, pruneCancelled]

end RequestQueue

end Replicant.Raw
