import Mathlib.Algebra.BigOperators.Group.Finset.Piecewise
import Mathlib.Algebra.Order.BigOperators.Group.Finset
import Mathlib.Algebra.Order.BigOperators.Ring.Finset
import Mathlib.Algebra.Order.Ring.Int
import Mathlib.Tactic.Ring
import Mathlib.Tactic.Linarith

/-!
# Making things from stock

`count maker component` of a component go into one maker. A ledger keeps the stock that is left, what
was taken from it, and what is made in which wave. A requirement is met when its quantity is taken or
made, and all that this needs in turn.
-/

namespace Replicant.Lib.Production

open Finset

variable {missing n taken : ℤ}

variable {α : Type} {c : α}

/-- What goes into these quantities. -/
def uses (makers : Finset α) (count : α → α → ℤ) (quantities : α → ℤ) (component : α) : ℤ :=
  ∑ maker ∈ makers, quantities maker * count maker component

section Uses

variable {makers : Finset α} {count : α → α → ℤ} {x y : α → ℤ}

lemma uses_add : uses makers count (fun a => x a + y a) c =
    uses makers count x c + uses makers count y c := by
  unfold uses
  rw [← sum_add_distrib]
  exact sum_congr rfl fun a _ => Int.add_mul _ _ _

lemma uses_sub : uses makers count (fun a => x a - y a) c =
    uses makers count x c - uses makers count y c := by
  unfold uses
  rw [← sum_sub_distrib]
  exact sum_congr rfl fun a _ => Int.sub_mul _ _ _

lemma uses_single [DecidableEq α] {maker : α} (h : maker ∈ makers) :
    uses makers count (fun a => if a = maker then n else 0) c = n * count maker c := by
  unfold uses
  rw [sum_eq_single_of_mem maker h]
  · simp
  · intro a _ ha
    simp [ha]

lemma uses_zero : uses makers count (fun _ => 0) c = 0 :=
  sum_eq_zero fun _ _ => Int.zero_mul _

lemma uses_mono (hcount : ∀ a, 0 ≤ count a c) (h : ∀ a, x a ≤ y a) :
    uses makers count x c ≤ uses makers count y c :=
  sum_le_sum fun a _ => Int.mul_le_mul_of_nonneg_right (h a) (hcount a)

lemma uses_sum {ι : Type} (S : Finset ι) (f : ι → α → ℤ) :
    uses makers count (fun a => ∑ i ∈ S, f i a) c = ∑ i ∈ S, uses makers count (f i) c := by
  unfold uses
  rw [sum_comm]
  exact sum_congr rfl fun a _ => sum_mul _ _ _

end Uses

structure Ledger (α : Type) where
  /-- What is left in stock. -/
  stock : α → ℤ
  /-- What was taken from stock. -/
  taken : α → ℤ
  /-- What is made in all waves. -/
  made : α → ℤ
  wave : ℕ → α → ℤ

namespace Ledger

variable [DecidableEq α] (l : Ledger α)

def take (c : α) (n : ℤ) : Ledger α :=
  { l with
    stock := fun a => l.stock a - if a = c then n else 0
    taken := fun a => l.taken a + if a = c then n else 0 }

def make (depth : ℕ) (c : α) (n : ℤ) : Ledger α :=
  { l with
    made := fun a => l.made a + if a = c then n else 0
    wave := fun d a => l.wave d a + if d = depth ∧ a = c then n else 0 }

variable {l} in
lemma take_stock_nonneg {c : α} (h : ∀ a, 0 ≤ l.stock a) (hle : n ≤ l.stock c) (a : α) :
    0 ≤ (l.take c n).stock a := by
  have ha := h a
  simp only [take]
  split
  · next heq => subst heq; omega
  · omega

omit [DecidableEq α] in
/-- What the waves before this one make. -/
def before (d : ℕ) (a : α) : ℤ := ∑ e ∈ Finset.range d, l.wave e a

lemma before_make (d depth : ℕ) (c a : α) (n : ℤ) :
    (l.make depth c n).before d a = l.before d a + if depth < d ∧ a = c then n else 0 := by
  unfold before make
  rw [sum_add_distrib]
  congr 1
  by_cases ha : a = c
  · simp [ha]
  · simp [ha]

end Ledger

/-! ## Requirements that are met -/

section Meets

variable (makers : Finset α) (count : α → α → ℤ)

/-- From the first ledger to the second these needs are met, the last of them in the wave `depth`. -/
structure Meets (need : α → ℤ) (depth : ℕ) (l l' : Ledger α) : Prop where
  need_nonneg : ∀ a, 0 ≤ need a
  kept : ∀ a, l'.stock a + l'.taken a = l.stock a + l.taken a
  less : ∀ a, l'.stock a ≤ l.stock a
  stock_nonneg : ∀ a, 0 ≤ l'.stock a
  more : ∀ a, l.made a ≤ l'.made a
  /-- Nothing is made while it is in stock. -/
  thrifty : ∀ a, l.made a < l'.made a → l'.stock a = 0
  balanced : ∀ a, l'.taken a - l.taken a + (l'.made a - l.made a) =
    need a + uses makers count (fun b => l'.made b - l.made b) a
  /-- After each wave what was taken or made suffices for what went into the waves so far; after the
  last one it also suffices for the needs. -/
  timely : ∀ d a, (if depth < d then need a else 0) ≤
    l'.taken a - l.taken a + (l'.before d a - l.before d a) -
      uses makers count (fun b => l'.before (d + 1) b - l.before (d + 1) b) a

variable {makers count} {l l' l'' : Ledger α} {need need' : α → ℤ} {depth depth' : ℕ}

lemma Meets.refl (h : ∀ a, 0 ≤ l.stock a) : Meets makers count (fun _ => 0) depth l l where
  need_nonneg _ := Int.le_refl _
  kept _ := rfl
  less _ := Int.le_refl _
  stock_nonneg := h
  more _ := Int.le_refl _
  thrifty _ hlt := absurd hlt (Int.lt_irrefl _)
  balanced a := by simp [uses_zero]
  timely d a := by simp [uses_zero]

lemma Meets.trans (h : Meets makers count need depth l l')
    (h' : Meets makers count need' depth' l' l'') :
    Meets makers count (fun a => need a + need' a) (max depth depth') l l'' where
  need_nonneg a := Int.add_nonneg (h.need_nonneg a) (h'.need_nonneg a)
  kept a := (h'.kept a).trans (h.kept a)
  less a := Int.le_trans (h'.less a) (h.less a)
  stock_nonneg := h'.stock_nonneg
  more a := Int.le_trans (h.more a) (h'.more a)
  thrifty a hlt := by
    rcases Int.lt_or_le (l'.made a) (l''.made a) with hlate | hlate
    · exact h'.thrifty a hlate
    · have hzero := h.thrifty a (Int.lt_of_lt_of_le hlt hlate)
      have hless := h'.less a
      have hnonneg := h'.stock_nonneg a
      omega
  balanced a := by
    have hfirst := h.balanced a
    have hsecond := h'.balanced a
    rw [uses_sub] at hfirst hsecond ⊢
    omega
  timely d a := by
    have hfirst := h.timely d a
    have hsecond := h'.timely d a
    have hneed := h.need_nonneg a
    have hneed' := h'.need_nonneg a
    rw [uses_sub] at hfirst hsecond ⊢
    split at hfirst <;> split at hsecond <;> split <;> omega

variable [DecidableEq α]

/-- A need that is met from stock. -/
lemma Meets.take (hstock : ∀ a, 0 ≤ l.stock a) (hn : 0 ≤ n) (hle : n ≤ l.stock c) :
    Meets makers count (fun a => if a = c then n else 0) 0 l (l.take c n) where
  need_nonneg a := by split <;> omega
  kept a := by simp only [Ledger.take]; omega
  less a := by simp only [Ledger.take]; split <;> omega
  stock_nonneg := Ledger.take_stock_nonneg hstock hle
  more _ := Int.le_refl _
  thrifty _ hlt := absurd hlt (Int.lt_irrefl _)
  balanced a := by
    show l.taken a + _ - l.taken a + (l.made a - l.made a) = _ + uses makers count
      (fun b => l.made b - l.made b) a
    simp [uses_zero]
  timely d a := by
    show _ ≤ l.taken a + _ - l.taken a + (l.before d a - l.before d a) - uses makers count
      (fun b => l.before (d + 1) b - l.before (d + 1) b) a
    simp only [Int.sub_self, uses_zero]
    split <;> split <;> omega

/-- All of the stock is taken, and the rest is made when its components are there. -/
lemma Meets.make (hmaker : c ∈ makers) (htaken : l.stock c = taken) (hmiss : 0 < missing)
    (h : Meets makers count (fun a => missing * count c a) depth (l.take c taken) l')
    (hstock : 0 ≤ taken) :
    Meets makers count (fun a => if a = c then taken + missing else 0) (depth + 1) l
      (l'.make (depth + 1) c missing) where
  need_nonneg a := by split <;> omega
  kept a := by
    have hkept := h.kept a
    simp only [Ledger.take] at hkept
    simp only [Ledger.make]
    omega
  less a := by
    have hless := h.less a
    simp only [Ledger.take] at hless
    simp only [Ledger.make]
    split at hless <;> omega
  stock_nonneg := h.stock_nonneg
  more a := by
    have hmore := h.more a
    simp only [Ledger.take] at hmore
    simp only [Ledger.make]
    split <;> omega
  thrifty a hlt := by
    by_cases ha : a = c
    · have hless := h.less a
      have hnonneg := h.stock_nonneg a
      simp only [Ledger.take, ha, if_true] at hless hnonneg
      simp only [Ledger.make, ha]
      omega
    · refine h.thrifty a ?_
      simpa [Ledger.make, Ledger.take, ha] using hlt
  balanced a := by
    have hbal := h.balanced a
    simp only [Ledger.take, uses_sub] at hbal
    simp only [Ledger.make, uses_sub, uses_add, uses_single hmaker]
    by_cases ha : a = c
    · simp only [if_pos ha] at hbal ⊢
      omega
    · simp only [if_neg ha] at hbal ⊢
      omega
  timely d a := by
    have htimely := h.timely d a
    have hbefore : ∀ e b, (l.take c taken).before e b = l.before e b := fun _ _ => rfl
    have hmade : ∀ e b, (l'.make (depth + 1) c missing).before e b =
        l'.before e b + if depth + 1 < e ∧ b = c then missing else 0 :=
      fun e b => l'.before_make e (depth + 1) c b missing
    have htakes : (l.take c taken).taken a = l.taken a + if a = c then taken else 0 := rfl
    have hkeeps : (l'.make (depth + 1) c missing).taken a = l'.taken a := rfl
    simp only [hbefore, htakes, uses_sub] at htimely
    simp only [hmade, hkeeps, uses_sub, uses_add]
    -- What is made here goes into the ledger from its own wave on.
    by_cases hd : depth < d
    · have huse : uses makers count (fun b => if depth + 1 < d + 1 ∧ b = c then missing else 0) a =
          missing * count c a := by
        simp only [Nat.add_lt_add_iff_right, hd, true_and]
        exact uses_single hmaker
      rw [huse]
      by_cases ha : a = c
      · simp only [ha, and_true, if_true] at htimely ⊢
        split <;> omega
      · simp only [ha, and_false, if_false] at htimely ⊢
        split <;> omega
    · have huse : uses makers count (fun b => if depth + 1 < d + 1 ∧ b = c then missing else 0) a =
          0 := by
        simp only [Nat.add_lt_add_iff_right, hd, false_and, if_false]
        exact uses_zero
      split at htimely <;> omega

end Meets

/-! ## Quantities that cover everything -/

section Covered

variable (makers : Finset α) (count : α → α → ℤ) (stock need bound : α → ℤ)

/-- Below quantities that cover all needs: what is being made and what is still to be met. -/
structure Within (making rest : α → ℤ) (l : Ledger α) : Prop where
  kept : ∀ a, l.stock a + l.taken a = stock a
  stock_nonneg : ∀ a, 0 ≤ l.stock a
  rest_nonneg : ∀ a, 0 ≤ rest a
  made_nonneg : ∀ a, 0 ≤ l.made a + making a
  balanced : ∀ a, l.taken a + l.made a + making a + rest a =
    need a + uses makers count (fun b => l.made b + making b) a
  below : ∀ a, l.made a + making a ≤ bound a

variable [DecidableEq α] {makers count stock need bound} {making rest : α → ℤ} {l : Ledger α}

lemma Within.take (h : Within makers count stock need bound making
      (fun a => rest a + if a = c then n else 0) l) (hrest : ∀ a, 0 ≤ rest a)
    (hle : n ≤ l.stock c) : Within makers count stock need bound making rest (l.take c n) where
  kept a := by
    have hkept := h.kept a
    simp only [Ledger.take]
    omega
  stock_nonneg := Ledger.take_stock_nonneg h.stock_nonneg hle
  rest_nonneg := hrest
  made_nonneg := h.made_nonneg
  balanced a := by
    have hbal := h.balanced a
    show l.taken a + _ + l.made a + making a + rest a = need a + uses makers count
      (fun b => l.made b + making b) a
    omega
  below := h.below

section

variable (hcount : ∀ a b, 0 ≤ count a b)
  (hbound : ∀ a, bound a = max 0 (need a + uses makers count bound a - stock a))
  (h : Within makers count stock need bound making
    (fun a => rest a + if a = c then taken + missing else 0) l)
  (hrest : ∀ a, 0 ≤ rest a) (htaken : l.stock c = taken)

include hcount hbound h hrest htaken

/-- What is not in stock is made in any quantities that cover all needs. -/
lemma Within.lt_bound : l.made c + making c + missing ≤ bound c := by
  have hbal := h.balanced c
  have hkept := h.kept c
  have hnonneg := hrest c
  have hmono : uses makers count (fun b => l.made b + making b) c ≤ uses makers count bound c :=
    uses_mono (fun a => hcount a c) h.below
  have hcover := hbound c
  rw [if_pos rfl] at hbal
  omega

lemma Within.begin (hmaker : c ∈ makers) (hmiss : 0 < missing) :
    Within makers count stock need bound (fun a => making a + if a = c then missing else 0)
      (fun a => rest a + missing * count c a) (l.take c taken) where
  kept a := by
    have hkept := h.kept a
    simp only [Ledger.take]
    omega
  stock_nonneg := Ledger.take_stock_nonneg h.stock_nonneg htaken.ge
  rest_nonneg a :=
    Int.add_nonneg (hrest a) (Int.mul_nonneg (Int.le_of_lt hmiss) (hcount c a))
  made_nonneg a := by
    have hmade := h.made_nonneg a
    simp only [Ledger.take]
    split <;> omega
  balanced a := by
    have hbal := h.balanced a
    simp only [Ledger.take, ← Int.add_assoc, uses_add, uses_single hmaker] at hbal ⊢
    by_cases ha : a = c
    · simp only [if_pos ha] at hbal ⊢
      omega
    · simp only [if_neg ha] at hbal ⊢
      omega
  below a := by
    have hbelow := h.below a
    have hmaking := h.lt_bound hcount hbound hrest htaken
    simp only [Ledger.take]
    split
    · next heq => subst heq; omega
    · omega

end

lemma Within.make {depth : ℕ} (h : Within makers count stock need bound
      (fun a => making a + if a = c then missing else 0) rest l) :
    Within makers count stock need bound making rest (l.make depth c missing) where
  kept := h.kept
  stock_nonneg := h.stock_nonneg
  rest_nonneg := h.rest_nonneg
  made_nonneg a := by
    have hmade := h.made_nonneg a
    simp only [Ledger.make]
    omega
  balanced a := by
    have hbal := h.balanced a
    have hsame : (fun b => l.made b + (if b = c then missing else 0) + making b) =
        fun b => l.made b + (making b + if b = c then missing else 0) := by
      funext b
      omega
    simp only [Ledger.make, hsame]
    omega
  below a := by
    have hbelow := h.below a
    simp only [Ledger.make]
    omega

end Covered

end Replicant.Lib.Production
