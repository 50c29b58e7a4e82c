import Mathlib.Order.Basic
import Mathlib.Tactic.Common

/-!
# Fair schedules

A system takes the operations of an infinite schedule. If an operation that changes the state lowers
a measure, and one that would change it comes again, the system reaches its end.
-/

namespace Replicant.Lib

variable {σ op : Type}

/-- The state after the first `n` operations of a schedule. -/
def after (step : σ → op → σ) (s : σ) (schedule : ℕ → op) : ℕ → σ
  | 0 => s
  | n + 1 => step (after step s schedule n) (schedule n)

variable {step : σ → op → σ} {s : σ} {schedule : ℕ → op}

/-- An operation that would change the state, if it comes, changes it then or finds it changed. -/
lemma exists_change {n m : ℕ} (hle : n ≤ m)
    (hchg : step (after step s schedule n) (schedule m) ≠ after step s schedule n) :
    ∃ k, n ≤ k ∧ after step s schedule k = after step s schedule n ∧
      after step s schedule (k + 1) ≠ after step s schedule n := by
  by_contra hnone
  have hstay : ∀ d, after step s schedule (n + d) = after step s schedule n := by
    intro d
    induction d with
    | zero => rfl
    | succ d ih =>
      by_contra hne
      exact hnone ⟨n + d, Nat.le_add_right n d, ih, hne⟩
  obtain ⟨d, rfl⟩ := Nat.exists_eq_add_of_le hle
  have hlast := hstay (d + 1)
  rw [← Nat.add_assoc, after, hstay] at hlast
  exact hchg hlast

/-- A measure that every change lowers brings a fair schedule to its end. -/
lemma exists_done {done : σ → Prop} (μ : σ → ℕ) (hlower : ∀ n, ¬ done (after step s schedule n) →
      after step s schedule (n + 1) ≠ after step s schedule n →
      ¬ done (after step s schedule (n + 1)) →
      μ (after step s schedule (n + 1)) < μ (after step s schedule n))
    (hfair : ∀ n, ¬ done (after step s schedule n) → ∃ m, n ≤ m ∧
      step (after step s schedule n) (schedule m) ≠ after step s schedule n) :
    ∃ n, done (after step s schedule n) := by
  suffices h : ∀ bound n, μ (after step s schedule n) ≤ bound →
      ∃ n, done (after step s schedule n) from h _ 0 (Nat.le_refl _)
  intro bound
  induction bound using Nat.strongRecOn with
  | ind bound ih =>
    intro n hbound
    by_cases hdone : done (after step s schedule n)
    · exact ⟨n, hdone⟩
    · obtain ⟨m, hle, hchg⟩ := hfair n hdone
      obtain ⟨k, -, hsame, hnext⟩ := exists_change hle hchg
      by_cases hdone' : done (after step s schedule (k + 1))
      · exact ⟨k + 1, hdone'⟩
      · have hlt := hlower k (hsame ▸ hdone) (hsame ▸ hnext) hdone'
        rw [hsame] at hlt
        exact ih _ (Nat.lt_of_lt_of_le hlt hbound) (k + 1) (Nat.le_refl _)

end Replicant.Lib
