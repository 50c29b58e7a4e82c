import Mathlib.Tactic.Common

/-!
# Versioned cells

A value under optimistic concurrency control: every write counts the revision up, and a writer names
the revision it has read. A copy stays a true report of the cell for as long as its revision is the
cell's (`Knows`).
-/

namespace Replicant.Lib

/-- A value with the number of writes it has seen. -/
structure Versioned (α : Type) where
  value : α
  revision : ℕ
deriving DecidableEq

namespace Versioned

variable {α : Type} {copy cell cell' : Versioned α} {expected : ℕ} {admits : α → Bool} {v : α}

/-- Replace the value if the revision is the expected one and the value admits it. -/
def replace (cell : Versioned α) (expected : ℕ) (admits : α → Bool) (v : α) :
    Option (Versioned α) :=
  if cell.revision = expected ∧ admits cell.value = true then some ⟨v, cell.revision + 1⟩
  else none

lemma replace_eq_some : cell.replace expected admits v = some cell' ↔
      cell.revision = expected ∧ admits cell.value = true ∧ cell' = ⟨v, cell.revision + 1⟩ := by
  unfold replace
  split
  · next h => simp [h.1, h.2, eq_comm]
  · next h =>
    constructor
    · intro hnone
      cases hnone
    · rintro ⟨hrev, hadmits, -⟩
      exact absurd ⟨hrev, hadmits⟩ h

/-- The copy was read from the cell at some time. -/
def Knows (copy cell : Versioned α) : Prop :=
  copy.revision ≤ cell.revision ∧ (copy.revision = cell.revision → copy = cell)

lemma Knows.refl (cell : Versioned α) : Knows cell cell := ⟨Nat.le_refl _, fun _ => rfl⟩

/-- A write makes every copy an old one. -/
lemma Knows.replace (h : copy.Knows cell) (hw : cell.replace expected admits v = some cell') :
    copy.Knows cell' ∧ copy.revision ≠ cell'.revision := by
  obtain ⟨-, -, rfl⟩ := replace_eq_some.mp hw
  have hle := h.1
  have hne : copy.revision ≠ cell.revision + 1 := by omega
  exact ⟨⟨by show copy.revision ≤ cell.revision + 1; omega, fun heq => absurd heq hne⟩, hne⟩

/-- A write by the holder of a copy succeeds only on the value of the copy. -/
lemma Knows.eq_of_replace (h : copy.Knows cell)
    (hw : cell.replace copy.revision admits v = some cell') :
    copy = cell ∧ admits copy.value = true ∧ cell'.value = v := by
  obtain ⟨hrev, hadmits, rfl⟩ := replace_eq_some.mp hw
  have hsame := h.2 hrev.symm
  exact ⟨hsame, hsame ▸ hadmits, rfl⟩

end Versioned

end Replicant.Lib
