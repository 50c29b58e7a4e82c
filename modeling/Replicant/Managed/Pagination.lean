import Mathlib.Data.Finset.Card

/-!
# Cursor pagination

The managed loops ask for pages until one names no next cursor. Most of them only compare it with the
cursor they have just used, so a server whose cursors go in a circle is asked for ever;
`full_history_named` remembers all that it was answered.
-/

namespace Replicant.Managed

open List

/-- What comes of a request: an error, of the request or of what is done with its page, or the
cursor of the next page. -/
inductive PageAnswer (γ : Type) where
  | failed
  | page (next : Option γ)

/-- A loop with the cursor it asks for and those it was answered, or at its end. -/
inductive PageLoop (γ : Type) where
  | asking (cursor : Option γ) (seen : List γ)
  | ended (succeeded : Bool)

/-- When a loop stops at the next cursor, and whether it succeeds then. -/
structure Pagination (γ : Type) where
  stalls : Option γ → List γ → γ → Bool
  accepts : Bool

variable {γ : Type} {p : Pagination γ} {start cursor : Option γ} {answers : ℕ → PageAnswer γ}
  {seen : List γ} {n : ℕ}

namespace Pagination

def step (p : Pagination γ) : PageLoop γ → PageAnswer γ → PageLoop γ
  | .ended succeeded, _ => .ended succeeded
  | .asking _ _, .failed => .ended false
  | .asking _ _, .page none => .ended true
  | .asking cursor seen, .page (some next) =>
    if p.stalls cursor seen next then .ended p.accepts else .asking (some next) (next :: seen)

/-- The loop after a number of requests. -/
def run (p : Pagination γ) (start : Option γ) (answers : ℕ → PageAnswer γ) : ℕ → PageLoop γ
  | 0 => .asking start []
  | n + 1 => p.step (p.run start answers n) (answers n)

section

variable [DecidableEq γ]

/-- `next == cursor`, over the numbers and the texts that serve as cursors. -/
def comparing (accepts : Bool) : Pagination γ := ⟨fun cursor _ next => cursor = some next, accepts⟩

/-- `MessagesGateway::refresh`, which warns and keeps what it has. -/
def messagesRefresh : Pagination γ := comparing true

def refreshDevices : Pagination γ := comparing false

def refreshEvents : Pagination γ := comparing false

def refreshMessages : Pagination γ := comparing false

def refreshInventory : Pagination γ := comparing false

end

def fullHistoryNamed : Pagination String :=
  ⟨fun cursor seen next => next = cursor.getD "" || next ∈ seen, false⟩

end Pagination

/-- The server answers with cursors of a finite set. -/
def AnswersFrom (cursors : Finset γ) (answers : ℕ → PageAnswer γ) : Prop :=
  ∀ n next, answers n = .page (some next) → next ∈ cursors

/-- The cursor of a request: the start, or what was answered last. -/
def asked (start : Option γ) (answers : ℕ → PageAnswer γ) : ℕ → Option γ
  | 0 => start
  | n + 1 =>
    match answers n with
    | .page next => next
    | .failed => none

/-- An answer is an error, is the last page, or names the cursor it was asked with. -/
def Stops (start : Option γ) (answers : ℕ → PageAnswer γ) (n : ℕ) : Prop :=
  match answers n with
  | .page (some next) => asked start answers n = some next
  | _ => True

namespace Pagination

/-- A comparing loop has ended once an answer has stopped it, and else asks with the last answer. -/
lemma comparing_run [DecidableEq γ] (accepts : Bool) (start : Option γ)
    (answers : ℕ → PageAnswer γ) (n : ℕ) :
    ((∃ m < n, Stops start answers m) ∧
      ∃ succeeded, (comparing accepts).run start answers n = .ended succeeded) ∨
    (¬ (∃ m < n, Stops start answers m) ∧
      ∃ seen, (comparing accepts).run start answers n = .asking (asked start answers n) seen) := by
  induction n with
  | zero => exact .inr ⟨by simp, [], rfl⟩
  | succ n ih =>
    rw [run]
    rcases ih with ⟨⟨m, hm, hstop⟩, succeeded, hrun⟩ | ⟨hgoes, seen, hrun⟩
    · rw [hrun]
      exact .inl ⟨⟨m, Nat.lt_succ_of_lt hm, hstop⟩, succeeded, rfl⟩
    · -- request `n` is made, so its answer decides
      rw [hrun, Nat.exists_lt_succ_right]
      match hanswer : answers n with
      | .failed | .page none =>
        exact .inl ⟨.inr (by simp [Stops, hanswer]), _, rfl⟩
      | .page (some next) =>
        by_cases hsame : asked start answers n = some next
        · exact .inl ⟨.inr (by simpa [Stops, hanswer] using hsame), accepts,
            if_pos (decide_eq_true hsame)⟩
        · refine .inr ⟨fun h => h.elim hgoes fun hstop => hsame ?_, next :: seen, ?_⟩
          · simpa [Stops, hanswer] using hstop
          · rw [asked, hanswer]
            exact if_neg (by simpa [comparing] using hsame)

section

variable (hnew : ∀ cursor seen next, p.stalls cursor seen next = false → next ∉ seen)
  {cursors : Finset γ} (hfrom : AnswersFrom cursors answers)

include hnew hfrom

/-- A loop that goes on only with new cursors has been answered a new one by each request. -/
lemma seen_spec (h : p.run start answers n = .asking cursor seen) :
    seen.Nodup ∧ seen.length = n ∧ ∀ c ∈ seen, c ∈ cursors := by
  induction n generalizing cursor seen with
  | zero =>
    cases h
    simp
  | succ n ih =>
    unfold run at h
    match hrun : p.run start answers n, hnext : answers n with
    | .ended _, _ | .asking _ _, .failed | .asking _ _, .page none => simp [hrun, hnext, step] at h
    | .asking cursor' seen', .page (some next) =>
      simp only [hrun, hnext, step] at h
      split at h
      · cases h
      · next hgoes =>
        cases h
        obtain ⟨hnodup, hlen, hseen⟩ := ih hrun
        have hfresh := hnew cursor' seen' next (Bool.eq_false_iff.mpr hgoes)
        exact ⟨nodup_cons.mpr ⟨hfresh, hnodup⟩, congrArg (· + 1) hlen,
          forall_mem_cons.mpr ⟨hfrom n next hnext, hseen⟩⟩

/-- Such a loop makes at most one request more than there are cursors. -/
lemma ends [DecidableEq γ] :
    ∃ succeeded, p.run start answers (cursors.card + 1) = .ended succeeded := by
  cases h : p.run start answers (cursors.card + 1) with
  | ended succeeded => exact ⟨succeeded, rfl⟩
  | asking cursor seen =>
    obtain ⟨hnodup, hlen, hseen⟩ := seen_spec hnew hfrom h
    have hsub : seen.toFinset ⊆ cursors := fun c hc => hseen c (mem_toFinset.mp hc)
    have hcard := Finset.card_le_card hsub
    rw [toFinset_card_of_nodup hnodup] at hcard
    omega

end

/-- A loop that only compares has ended after `n` requests exactly when one of their answers was an
error, the last page or the cursor it was asked with; the one that remembers them always ends. -/
theorem pagination_ends [DecidableEq γ] : (∀ p ∈ ([messagesRefresh, refreshDevices, refreshEvents,
      refreshMessages, refreshInventory] : List (Pagination γ)), ∀ start answers n,
      (∃ succeeded, p.run start answers n = .ended succeeded) ↔ ∃ m < n, Stops start answers m) ∧
    ∀ answers cursors, AnswersFrom cursors answers →
      ∃ succeeded, fullHistoryNamed.run none answers (cursors.card + 1) = .ended succeeded := by
  refine ⟨fun p hp start answers n => ?_, fun answers cursors hfrom => ?_⟩
  · obtain ⟨accepts, rfl⟩ : ∃ accepts, p = comparing accepts := by
      simp only [mem_cons, not_mem_nil, or_false] at hp
      rcases hp with rfl | rfl | rfl | rfl | rfl <;> exact ⟨_, rfl⟩
    rcases comparing_run accepts start answers n with ⟨hstop, hended⟩ | ⟨hgoes, seen, hrun⟩
    · exact iff_of_true hended hstop
    · refine iff_of_false (fun ⟨succeeded, hended⟩ => ?_) hgoes
      rw [hrun] at hended
      cases hended
  · refine ends (fun cursor seen next hgoes hmem => ?_) hfrom
    simp [fullHistoryNamed, hmem] at hgoes

/-- A server that always names cursor 7 is asked twice; one whose two cursors take turns stops
`full_history_named` after three requests. -/
theorem pagination_ends_repeated :
    (∃ succeeded, messagesRefresh.run none (fun _ => .page (some (7 : ℤ))) 2 = .ended succeeded) ∧
    ∃ succeeded, fullHistoryNamed.run none
      (fun n => .page (some (if n % 2 = 0 then "0" else "1"))) 3 = .ended succeeded := by
  refine ⟨(pagination_ends.1 messagesRefresh (by simp) none _ 2).mpr ⟨1, by decide, rfl⟩,
    (pagination_ends (γ := ℤ)).2 _ {"0", "1"} fun n next h => ?_⟩
  cases h
  split <;> simp

/-- A server whose two cursors take turns is asked for ever. -/
theorem exists_endless_pagination : ∃ answers : ℕ → PageAnswer ℤ, AnswersFrom {0, 1} answers ∧
    ∀ n succeeded, messagesRefresh.run none answers n ≠ .ended succeeded := by
  refine ⟨fun n => .page (some (n % 2 : ℤ)), fun n next h => ?_, fun n succeeded => ?_⟩
  · cases h
    rcases Int.emod_two_eq n with h | h <;> simp [h]
  · have hasks : ∀ n, ∃ seen, messagesRefresh.run none (fun n => .page (some (n % 2 : ℤ))) (n + 1) =
        .asking (some (n % 2 : ℤ)) seen := by
      intro n
      induction n with
      | zero => exact ⟨_, rfl⟩
      | succ n ih =>
        obtain ⟨seen, hseen⟩ := ih
        refine ⟨((n + 1 : ℕ) % 2 : ℤ) :: seen, ?_⟩
        rw [run, hseen]
        refine if_neg ?_
        simp only [messagesRefresh, comparing, decide_eq_true_eq, Option.some.injEq]
        omega
    cases n with
    | zero => exact nofun
    | succ n =>
      obtain ⟨seen, hseen⟩ := hasks n
      rw [hseen]
      exact nofun

end Pagination

end Replicant.Managed
