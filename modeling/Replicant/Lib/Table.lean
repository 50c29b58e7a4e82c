import Mathlib.Algebra.Order.BigOperators.Group.List
import Mathlib.Algebra.GroupWithZero.Nat
import Mathlib.Algebra.Order.Group.Nat
import Mathlib.Data.List.Sort

/-!
# Tables with a primary key

A `Table` is the list of rows of one relation, in insertion order, with the proof that no two rows
share a primary key. The statements of the store are the four total operations below; whether an
insertion is refused is decided by the caller through `hasKey`. An update carries the proof that it
leaves the key of every row alone.
-/

namespace Replicant.Lib

open List

/-- The rows of one relation, with pairwise different primary keys. -/
structure Table (ρ : Type) {κ : Type} (key : ρ → κ) where
  rows : List ρ
  keysNodup : (rows.map key).Nodup

namespace Table

variable {ρ κ : Type} {key : ρ → κ} {t : Table ρ key}

instance : Membership ρ (Table ρ key) := ⟨fun t r => r ∈ t.rows⟩

lemma mem_def {r : ρ} : r ∈ t ↔ r ∈ t.rows := Iff.rfl

@[ext] lemma ext_rows {t' : Table ρ key} (h : t.rows = t'.rows) : t = t' := by
  cases t; cases t'; cases h; rfl

instance (p : ρ → Prop) [DecidablePred p] (t : Table ρ key) : Decidable (∀ r ∈ t, p r) :=
  inferInstanceAs (Decidable (∀ r ∈ t.rows, p r))

instance (p : ρ → Prop) [DecidablePred p] (t : Table ρ key) : Decidable (∃ r ∈ t, p r) :=
  inferInstanceAs (Decidable (∃ r ∈ t.rows, p r))

/-- The relation without rows. -/
def empty : Table ρ key := ⟨[], by simp⟩

@[simp] lemma not_mem_empty (r : ρ) : r ∉ (empty : Table ρ key) := by
  simp [mem_def, empty]

lemma forall_mem_empty {p : ρ → Prop} : ∀ r ∈ (empty : Table ρ key), p r :=
  fun r hr => absurd hr (not_mem_empty r)

/-- The primary key identifies the row. -/
lemma eq_of_key {a b : ρ} (ha : a ∈ t) (hb : b ∈ t) (h : key a = key b) : a = b :=
  inj_on_of_nodup_map t.keysNodup ha hb h

/-! ## Reading -/

/-- The row stored under `k`. -/
def find? [DecidableEq κ] (t : Table ρ key) (k : κ) : Option ρ :=
  t.rows.find? fun r => key r = k

/-- Whether some row is stored under `k`. -/
def hasKey [DecidableEq κ] (t : Table ρ key) (k : κ) : Bool :=
  t.rows.any fun r => key r = k

variable {k : κ} {r : ρ}

lemma find?_eq_some [DecidableEq κ] : t.find? k = some r ↔ r ∈ t ∧ key r = k := by
  constructor
  · intro h
    exact ⟨mem_of_find?_eq_some h, by simpa using find?_some h⟩
  · rintro ⟨hr, rfl⟩
    cases hf : t.find? (key r) with
    | none =>
      have := find?_eq_none.mp hf r hr
      simp at this
    | some x =>
      have hx : x ∈ t := mem_of_find?_eq_some hf
      have hk : key x = key r := by simpa using find?_some hf
      rw [eq_of_key hx hr hk]

lemma find?_eq_none [DecidableEq κ] : t.find? k = none ↔ ∀ r ∈ t, key r ≠ k := by
  simp only [find?, List.find?_eq_none, decide_eq_true_eq, mem_def, ne_eq]

lemma hasKey_eq_true [DecidableEq κ] : t.hasKey k = true ↔ ∃ r ∈ t, key r = k := by
  simp only [hasKey, any_eq_true, decide_eq_true_eq, mem_def]

lemma hasKey_eq_false [DecidableEq κ] : t.hasKey k = false ↔ ∀ r ∈ t, key r ≠ k := by
  simp only [hasKey, any_eq_false, decide_eq_true_eq, mem_def, ne_eq]

/-! ## Writing -/

/-- `INSERT`: the row goes to the end; a row whose key is taken is dropped. -/
def insert [DecidableEq κ] (t : Table ρ key) (r : ρ) : Table ρ key :=
  if h : t.hasKey (key r) = true then t
  else
    { rows := t.rows ++ [r]
      keysNodup := by
        have hfresh : ∀ x ∈ t.rows, key x ≠ key r :=
          hasKey_eq_false.mp (Bool.eq_false_iff.mpr h)
        rw [List.map_append, List.nodup_append]
        refine ⟨t.keysNodup, by simp, ?_⟩
        intro a ha b hb
        simp only [List.map_cons, List.map_nil, List.mem_singleton] at hb
        obtain ⟨x, hx, rfl⟩ := List.mem_map.mp ha
        exact hb ▸ hfresh x hx }

/-- `UPDATE ... SET f WHERE p`, for an `f` that leaves the primary key alone. -/
def update (t : Table ρ key) (p : ρ → Bool) (f : ρ → ρ)
    (hf : ∀ r, key (f r) = key r) : Table ρ key where
  rows := t.rows.map fun r => if p r then f r else r
  keysNodup := by
    have hkeys : (t.rows.map fun r => if p r then f r else r).map key = t.rows.map key := by
      rw [List.map_map]
      refine List.map_congr_left fun r _ => ?_
      by_cases hp : p r <;> simp [hp, hf]
    rw [hkeys]
    exact t.keysNodup

/-- `DELETE ... WHERE p`. -/
def delete (t : Table ρ key) (p : ρ → Bool) : Table ρ key where
  rows := t.rows.filter fun r => !p r
  keysNodup := t.keysNodup.sublist ((List.filter_sublist).map key)

lemma rows_insert [DecidableEq κ] (h : t.hasKey (key r) = false) :
    (t.insert r).rows = t.rows ++ [r] := by
  simp [insert, h]

variable (t) (p : ρ → Bool) (f : ρ → ρ) (hf : ∀ r, key (f r) = key r)

@[simp] lemma rows_update :
    (t.update p f hf).rows = t.rows.map fun r => if p r then f r else r := rfl

@[simp] lemma rows_delete : (t.delete p).rows = t.rows.filter fun r => !p r := rfl

@[simp] lemma hasKey_update [DecidableEq κ] (k : κ) : (t.update p f hf).hasKey k = t.hasKey k := by
  unfold hasKey
  rw [rows_update, any_map]
  congr 1
  funext r
  show decide (key (if p r then f r else r) = k) = decide (key r = k)
  split
  · rw [hf]
  · rfl

/-- What an update leaves under a key is the update of what was there. -/
lemma find?_update [DecidableEq κ] (k : κ) :
    (t.update p f hf).find? k = (t.find? k).map fun r => if p r then f r else r := by
  unfold find?
  rw [rows_update, find?_map]
  congr 2
  funext r
  show decide (key (if p r then f r else r) = k) = decide (key r = k)
  split
  · rw [hf]
  · rfl

lemma rows_nodup : t.rows.Nodup := List.Nodup.of_map key t.keysNodup

variable {t p f hf} {x : ρ}

lemma mem_insert [DecidableEq κ] (h : t.hasKey (key r) = false) :
    x ∈ t.insert r ↔ x ∈ t ∨ x = r := by
  rw [mem_def, rows_insert h, mem_append, mem_singleton, mem_def]

lemma forall_mem_insert [DecidableEq κ] {q : ρ → Prop} (h : t.hasKey (key r) = false)
    (hold : ∀ x ∈ t, q x) (hnew : q r) : ∀ x ∈ t.insert r, q x := by
  intro x hx
  rcases (mem_insert h).mp hx with hx | rfl
  · exact hold x hx
  · exact hnew

@[simp] lemma mem_update : x ∈ t.update p f hf ↔ ∃ r ∈ t, (if p r then f r else r) = x := by
  simp only [mem_def, rows_update, mem_map]

@[simp] lemma mem_delete : x ∈ t.delete p ↔ x ∈ t ∧ p x = false := by
  simp [mem_def]

lemma hasKey_insert [DecidableEq κ] (h : t.hasKey k = true) : (t.insert r).hasKey k = true := by
  unfold insert
  split
  · exact h
  · unfold hasKey at h ⊢
    rw [any_append, h, Bool.true_or]

/-- An insertion adds its row and hides none. -/
lemma find?_insert [DecidableEq κ] (k : κ) (h : t.find? (key r) = none) :
    (t.insert r).find? k = if key r = k then some r else t.find? k := by
  have hfresh : t.hasKey (key r) = false := hasKey_eq_false.mpr (find?_eq_none.mp h)
  split
  · next hk => exact find?_eq_some.mpr ⟨(mem_insert hfresh).mpr (.inr rfl), hk⟩
  · next hk =>
    unfold find?
    rw [rows_insert hfresh, find?_append]
    simp [hk]

/-- `p` selects the row `r` of the table and no other. -/
def Selects (t : Table ρ key) (p : ρ → Bool) (r : ρ) : Prop :=
  r ∈ t ∧ ∀ x ∈ t, p x = true ↔ x = r

/-- An update of one row: the others stay, the row appears rewritten. -/
lemma mem_update_of_selects (hf : ∀ r, key (f r) = key r) (h : t.Selects p r) :
    x ∈ t.update p f hf ↔ (x ∈ t ∧ x ≠ r) ∨ x = f r := by
  rw [mem_update]
  constructor
  · rintro ⟨y, hy, hyx⟩
    by_cases hp : p y = true
    · rw [if_pos hp, (h.2 y hy).mp hp] at hyx
      exact .inr hyx.symm
    · rw [if_neg hp] at hyx
      subst hyx
      exact .inl ⟨hy, fun heq => hp ((h.2 y hy).mpr heq)⟩
  · rintro (⟨hx, hne⟩ | rfl)
    · exact ⟨x, hx, if_neg fun hp => hne ((h.2 x hx).mp hp)⟩
    · exact ⟨r, h.1, if_pos ((h.2 r h.1).mpr rfl)⟩

/-- A condition that the row meets and that fixes the primary key selects the row. -/
lemma selects_of_key (hr : r ∈ t) (hp : p r = true)
    (hkey : ∀ x, p x = true → key x = key r) : t.Selects p r := by
  refine ⟨hr, fun x hx => ⟨fun h => eq_of_key hx hr (hkey x h), ?_⟩⟩
  rintro rfl
  exact hp

lemma selects_key [DecidableEq κ] (hr : r ∈ t) : t.Selects (fun x => key x = key r) r :=
  selects_of_key hr (by simp) fun x hx => by simpa using hx

variable {q : ρ → Bool}

/-- A further condition that the row meets does not change the selection. -/
lemma selects_key_and [DecidableEq κ] (hr : r ∈ t) (hq : q r = true) :
    t.Selects (fun x => key x = key r && q x) r := by
  refine selects_of_key hr (by simp [hq]) fun x hx => ?_
  simp only [Bool.and_eq_true, decide_eq_true_eq] at hx
  exact hx.1

lemma Selects.countP (h : t.Selects p r) : t.rows.countP p = 1 := by
  have hperm : (t.rows.filter p).Perm [r] := by
    refine (perm_ext_iff_of_nodup (t.rows_nodup.filter p) (nodup_singleton r)).mpr ?_
    intro x
    rw [mem_filter, mem_singleton]
    constructor
    · rintro ⟨hx, hp⟩
      exact (h.2 x hx).mp hp
    · rintro rfl
      exact ⟨h.1, (h.2 x h.1).mpr rfl⟩
  rw [countP_eq_length_filter, hperm.length_eq, length_singleton]

lemma update_eq_self (h : ∀ r ∈ t, p r = false) : t.update p f hf = t := by
  apply ext_rows
  conv_rhs => rw [← map_id t.rows]
  exact map_congr_left fun r hr => by simp [h r hr]

lemma delete_eq_self (h : ∀ r ∈ t, p r = false) : t.delete p = t := by
  apply ext_rows
  rw [rows_delete, filter_eq_self]
  intro r hr
  simp [h r hr]

/-! ## Sorted queries -/

/-- `SELECT .. WHERE p AND q ORDER BY r` is the query without `q`, restricted to `q`, when
the order tells the keys apart. -/
lemma insertionSort_filter_and (t : Table ρ key) {r : ρ → ρ → Prop} [DecidableRel r]
    [Std.Total r] [IsTrans ρ r] (hanti : ∀ a b, r a b → r b a → key a = key b) (p q : ρ → Bool) :
    (t.rows.filter fun x => p x && q x).insertionSort r =
      ((t.rows.filter p).insertionSort r).filter q := by
  have hperm : ((t.rows.filter fun x => p x && q x).insertionSort r).Perm
      (((t.rows.filter p).insertionSort r).filter q) := by
    refine (perm_insertionSort r _).trans ?_
    rw [show (t.rows.filter fun x => p x && q x) = (t.rows.filter p).filter q by
      rw [filter_filter]; congr 1; funext x; exact Bool.and_comm _ _]
    exact ((perm_insertionSort r _).filter q).symm
  refine List.Perm.eq_of_pairwise (fun a b ha hb hab hba => ?_) (pairwise_insertionSort r _)
    ((pairwise_insertionSort r _).filter q) hperm
  -- Both lists are sorted and hold the same rows, which their keys tell apart.
  rw [mem_insertionSort, mem_filter] at ha
  rw [mem_filter, mem_insertionSort, mem_filter] at hb
  exact eq_of_key ha.1 hb.1.1 (hanti a b hab hba)

/-! ## Sums -/

/-- `SELECT SUM(f) WHERE p`. -/
def sumWhere (t : Table ρ key) (p : ρ → Bool) (f : ρ → ℕ) : ℕ :=
  ((t.rows.filter p).map f).sum

variable (t p) (f : ρ → ℕ)

/-- The sum by rows: a row that is not selected adds nothing. -/
lemma sumWhere_eq : t.sumWhere p f = (t.rows.map fun r => if p r then f r else 0).sum := by
  simp [sumWhere, sum_map_ite]

lemma sumWhere_insert [DecidableEq κ] {t : Table ρ key} (h : t.hasKey (key r) = false) :
    (t.insert r).sumWhere p f = t.sumWhere p f + if p r then f r else 0 := by
  rw [sumWhere_eq, sumWhere_eq, rows_insert h, map_append, sum_append]
  simp

/-- An update under which no row adds more does not raise the sum. -/
lemma sumWhere_update_le {t : Table ρ key} {g : ρ → ρ} (hg : ∀ r, key (g r) = key r)
    (hle : ∀ r, q r = true → (if p (g r) then f (g r) else 0) ≤ if p r then f r else 0) :
    (t.update q g hg).sumWhere p f ≤ t.sumWhere p f := by
  rw [sumWhere_eq, sumWhere_eq, rows_update, map_map]
  refine sum_le_sum fun r _ => ?_
  show (if p (if q r then g r else r) then f (if q r then g r else r) else 0) ≤ _
  by_cases hq : q r = true
  · rw [if_pos hq]
    exact hle r hq
  · rw [if_neg hq]

lemma sumWhere_delete_le (q p : ρ → Bool) : (t.delete q).sumWhere p f ≤ t.sumWhere p f := by
  have hsub : ((t.delete q).rows.filter p).Sublist (t.rows.filter p) :=
    filter_sublist.filter p
  exact (hsub.map f).sum_le_sum fun _ _ => Nat.zero_le _

/-- Two selected rows are both part of the sum. -/
lemma add_le_sumWhere [DecidableEq ρ] {t : Table ρ key} {p : ρ → Bool} {f : ρ → ℕ} {a b : ρ}
    (ha : a ∈ t) (hb : b ∈ t) (hpa : p a = true) (hpb : p b = true) (hne : a ≠ b) :
    f a + f b ≤ t.sumWhere p f := by
  have hmem : a ∈ t.rows.filter p := mem_filter.mpr ⟨ha, hpa⟩
  have hrest : b ∈ (t.rows.filter p).erase a :=
    (mem_erase_of_ne hne.symm).mpr (mem_filter.mpr ⟨hb, hpb⟩)
  have hperm := (perm_cons_erase hmem).map f
  have hb' : f b ≤ (((t.rows.filter p).erase a).map f).sum :=
    single_le_sum (fun _ _ => Nat.zero_le _) _ (mem_map_of_mem hrest)
  rw [sumWhere, hperm.sum_eq, map_cons, sum_cons]
  omega

end Table

end Replicant.Lib
