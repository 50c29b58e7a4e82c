import Mathlib.Data.Int.Log
import Mathlib.Data.Rat.Floor
import Mathlib.Tactic.Positivity

/-!
# Rounding to 53 bits

The numbers of the format `f64` that are neither tiny nor huge, as rationals: a result is rounded to
the nearest number with a mantissa of 53 bits, and a tie goes to the even one.
-/

namespace Replicant.Lib.Binary64

/-! ## To an integer -/

variable (q : ℚ)

/-- The nearest integer, the even one of two. -/
def roundEven : ℤ :=
  if q - ⌊q⌋ < 1 / 2 then ⌊q⌋
  else if 1 / 2 < q - ⌊q⌋ then ⌊q⌋ + 1
  else if ⌊q⌋ % 2 = 0 then ⌊q⌋
  else ⌊q⌋ + 1

lemma floor_le_roundEven : ⌊q⌋ ≤ roundEven q := by
  unfold roundEven
  split_ifs <;> omega

lemma roundEven_le_floor : roundEven q ≤ ⌊q⌋ + 1 := by
  unfold roundEven
  split_ifs <;> omega

@[simp] lemma roundEven_intCast (n : ℤ) : roundEven n = n := by
  unfold roundEven
  rw [Int.floor_intCast, sub_self, if_pos (by norm_num)]

lemma roundEven_mono {x y : ℚ} (h : x ≤ y) : roundEven x ≤ roundEven y := by
  have hfloor : ⌊x⌋ ≤ ⌊y⌋ := Int.floor_le_floor h
  rcases hfloor.lt_or_eq with hlt | heq
  · -- the numbers lie in different unit intervals
    have hx := roundEven_le_floor x
    have hy := floor_le_roundEven y
    omega
  · -- the rule looks at the rest only, and the larger number has the larger rest
    unfold roundEven
    rw [heq]
    split_ifs <;> first | omega | linarith

/-! ## To 53 bits -/

/-- The distance of two neighbours of the format at a number. -/
def quantum : ℚ := 2 ^ (Int.log 2 q - 52)

def round : ℚ := if q = 0 then 0 else roundEven (q / quantum q) * quantum q

/-- `as f64`. -/
def ofNat (n : ℕ) : ℚ := round n

def div (a b : ℚ) : ℚ := round (a / b)

/-- The decimal of fewest places that is nearest to no other number than this one, as its digits and
the number of places. -/
def shortest : ℕ × ℕ :=
  let digits (places : ℕ) : ℕ := (roundEven (q * 10 ^ places)).toNat
  let places := ((List.range 32).find? fun places => round (digits places / 10 ^ places) = q).getD 0
  (digits places, places)

/-- A decimal, from its digits and the number of places: both numbers are rounded, and so is the
quotient. -/
def ofDecimal (decimal : ℕ × ℕ) : ℚ := div (ofNat decimal.1) (ofNat (10 ^ decimal.2))

lemma quantum_pos : 0 < quantum q := zpow_pos (by norm_num) _

lemma zpow_log_le {q : ℚ} (h : 0 < q) : (2 : ℚ) ^ Int.log 2 q ≤ q := by
  exact_mod_cast Int.zpow_log_le_self (by norm_num) h

lemma lt_zpow_log : q < (2 : ℚ) ^ (Int.log 2 q + 1) := by
  exact_mod_cast Int.lt_zpow_succ_log_self (by norm_num) q

lemma zpow_eq_quantum (k : ℤ) : (2 : ℚ) ^ (Int.log 2 q + k) = 2 ^ (52 + k) * quantum q := by
  rw [quantum, ← zpow_add₀ (by norm_num)]
  congr 1
  ring

/-- A rounded number does not leave its binade upwards. -/
lemma round_le {q : ℚ} (h : 0 < q) : round q ≤ 2 ^ (Int.log 2 q + 1) := by
  have hlt : q / quantum q < (2 ^ 53 : ℤ) := by
    rw [div_lt_iff₀ (quantum_pos q)]
    have := lt_zpow_log q
    rw [zpow_eq_quantum] at this
    exact_mod_cast this
  have hround : roundEven (q / quantum q) ≤ 2 ^ 53 := by
    rw [← roundEven_intCast (2 ^ 53)]
    exact roundEven_mono hlt.le
  rw [round, if_neg h.ne', zpow_eq_quantum]
  have hcast : (roundEven (q / quantum q) : ℚ) ≤ 2 ^ 53 := by exact_mod_cast hround
  calc (roundEven (q / quantum q) : ℚ) * quantum q ≤ 2 ^ 53 * quantum q :=
        mul_le_mul_of_nonneg_right hcast (quantum_pos q).le
    _ = 2 ^ ((52 : ℤ) + 1) * quantum q := by norm_num

/-- A rounded number does not leave its binade downwards. -/
lemma le_round {q : ℚ} (h : 0 < q) : 2 ^ Int.log 2 q ≤ round q := by
  have hle : ((2 ^ 52 : ℤ) : ℚ) ≤ q / quantum q := by
    rw [le_div_iff₀ (quantum_pos q)]
    have := zpow_log_le h
    rw [← add_zero (Int.log 2 q), zpow_eq_quantum] at this
    exact_mod_cast this
  have hround : 2 ^ 52 ≤ roundEven (q / quantum q) := by
    rw [← roundEven_intCast (2 ^ 52)]
    exact roundEven_mono hle
  have hcast : (2 ^ 52 : ℚ) ≤ roundEven (q / quantum q) := by exact_mod_cast hround
  rw [round, if_neg h.ne', ← add_zero (Int.log 2 q), zpow_eq_quantum]
  calc (2 : ℚ) ^ ((52 : ℤ) + 0) * quantum q = 2 ^ 52 * quantum q := by norm_num
    _ ≤ roundEven (q / quantum q) * quantum q :=
        mul_le_mul_of_nonneg_right hcast (quantum_pos q).le

lemma round_nonneg {q : ℚ} (h : 0 ≤ q) : 0 ≤ round q := by
  rcases h.eq_or_lt with rfl | hpos
  · rfl
  · have hzpow : (0 : ℚ) < 2 ^ Int.log 2 q := zpow_pos (by norm_num) _
    exact hzpow.le.trans (le_round hpos)

lemma round_mono {x y : ℚ} (hx : 0 ≤ x) (h : x ≤ y) : round x ≤ round y := by
  rcases hx.eq_or_lt with rfl | hpos
  · exact round_nonneg h
  have hlog : Int.log 2 x ≤ Int.log 2 y := Int.log_mono_right hpos h
  rcases hlog.lt_or_eq with hlt | heq
  · calc round x ≤ 2 ^ (Int.log 2 x + 1) := round_le hpos
      _ ≤ 2 ^ Int.log 2 y := zpow_le_zpow_right₀ (by norm_num) (by omega)
      _ ≤ round y := le_round (hpos.trans_le h)
  · -- one binade, one quantum
    have hquantum : quantum x = quantum y := by rw [quantum, heq, quantum]
    rw [round, if_neg hpos.ne', round, if_neg (hpos.trans_le h).ne', hquantum]
    have hround := roundEven_mono (div_le_div_of_nonneg_right h (quantum_pos y).le)
    exact mul_le_mul_of_nonneg_right (by exact_mod_cast hround) (quantum_pos y).le

/-- A number is left as it is if it is an integer with at most 53 bits. -/
lemma ofNat_eq {n : ℕ} (h : n < 2 ^ 53) : ofNat n = n := by
  rcases Nat.eq_zero_or_pos n with rfl | hpos
  · rfl
  have hq : (0 : ℚ) < n := by exact_mod_cast hpos
  have hlog : Int.log 2 (n : ℚ) < 53 := by
    apply (Int.lt_zpow_iff_log_lt (by norm_num) hq).mp
    exact_mod_cast h
  -- the quantum is the inverse of an integer
  obtain ⟨k, hk⟩ : ∃ k : ℕ, 52 - Int.log 2 (n : ℚ) = k :=
    ⟨_, (Int.toNat_of_nonneg (by omega)).symm⟩
  have hquantum : quantum (n : ℚ) = (2 ^ k : ℚ)⁻¹ := by
    rw [quantum, ← zpow_natCast, ← hk, ← zpow_neg]
    congr 1
    ring
  have hint : (n : ℚ) / quantum (n : ℚ) = ((n * 2 ^ k : ℤ) : ℚ) := by
    rw [hquantum, div_inv_eq_mul]
    push_cast
    rfl
  rw [ofNat, round, if_neg hq.ne', hint, roundEven_intCast, hquantum]
  push_cast
  rw [mul_inv_cancel_right₀ (by positivity)]

/-- The quotient of two counts is above the literal `0.20` just when it is above a fifth, as long as
the counts are not astronomical. -/
lemma lt_div_ofNat_iff {m n : ℕ} (hpos : 0 < n) (hle : m ≤ n) (hn : n ≤ 2 ^ 52) :
    round (1 / 5) < div (ofNat m) (ofNat n) ↔ n < 5 * m := by
  have hq : (0 : ℚ) < n := by exact_mod_cast hpos
  rw [div, ofNat_eq (by omega : m < 2 ^ 53), ofNat_eq (by omega : n < 2 ^ 53)]
  constructor
  · intro h
    by_contra hnot
    have hquot : (m : ℚ) / n ≤ 1 / 5 := by
      rw [div_le_div_iff₀ hq (by norm_num)]
      exact_mod_cast (by omega : m * 5 ≤ 1 * n)
    exact absurd (round_mono (by positivity) hquot) (not_le.mpr h)
  · intro h
    -- the smallest quotient above a fifth
    have hquot : ((2 ^ 52 + 1 : ℕ) : ℚ) / (5 * 2 ^ 52 : ℕ) ≤ m / n := by
      rw [div_le_div_iff₀ (by norm_num) hq]
      exact_mod_cast (by omega : (2 ^ 52 + 1) * n ≤ m * (5 * 2 ^ 52))
    have hround : round (1 / 5) < round (((2 ^ 52 + 1 : ℕ) : ℚ) / (5 * 2 ^ 52 : ℕ)) := by
      decide +kernel
    exact hround.trans_le (round_mono (by positivity) hquot)

end Replicant.Lib.Binary64
