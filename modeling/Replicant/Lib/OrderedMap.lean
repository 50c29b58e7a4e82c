import Mathlib.Algebra.Order.BigOperators.Group.Finset
import Mathlib.Algebra.Order.Ring.Int

/-!
# Ordered maps with numbers

Loops that walk one ordered map and alter the entries of another are read off key by key; the sum of
the values of a map is taken over any set that holds the keys.
-/

namespace Replicant.Lib.OrderedMap

open Finset

open Std List ExtTreeMap

variable {κ ν α : Type} [Ord κ] [TransOrd κ] [LawfulEqOrd κ] {key : κ} {entries : List (κ × α)}

omit [LawfulEqOrd κ] in
lemma mem_of_getElem?_eq_some {m : ExtTreeMap κ ν} {value : ν} (h : m[key]? = some value) :
    key ∈ m := by
  rw [mem_iff_isSome_getElem?, h]
  rfl

/-! ## Loops that alter entries -/

/-- A loop over entries that differ pairwise: each step may use that its entry is new. -/
lemma foldl_pairwise {β γ : Type} {r : β → β → Prop} {f : γ → β → γ} {P : List β → γ → Prop} {c : γ}
    {xs : List β} (hpair : xs.Pairwise r) (hnil : P [] c) (hstep : ∀ seen x c, x ∈ xs →
      (∀ y ∈ seen, r y x) → P seen c → P (seen ++ [x]) (f c x)) : P xs (xs.foldl f c) := by
  induction xs using reverseRecOn with
  | nil => exact hnil
  | append_singleton xs x ih =>
    obtain ⟨hxs, -, hcross⟩ := pairwise_append.mp hpair
    rw [foldl_append]
    refine hstep xs x _ mem_append_cons_self (fun y hy => hcross y hy x mem_cons_self) ?_
    exact ih hxs fun seen y c hy => hstep seen y c (mem_append_left _ hy)

lemma getElem?_foldl_alter_of_not_mem (g : α → Option ν → Option ν) (h : ∀ a, (key, a) ∉ entries)
    (target : ExtTreeMap κ ν) :
    (entries.foldl (fun t entry => t.alter entry.1 (g entry.2)) target)[key]? = target[key]? := by
  induction entries generalizing target with
  | nil => rfl
  | cons entry entries ih =>
    rw [foldl_cons, ih fun a ha => h a (mem_cons_of_mem entry ha), getElem?_alter, if_neg]
    rw [Std.compare_eq_iff_eq]
    rintro rfl
    exact h entry.2 mem_cons_self

lemma getElem?_foldl_alter_of_mem (g : α → Option ν → Option ν)
    (hdist : entries.Pairwise fun a b => ¬ compare a.1 b.1 = .eq) {a : α}
    (h : (key, a) ∈ entries) (target : ExtTreeMap κ ν) :
    (entries.foldl (fun t entry => t.alter entry.1 (g entry.2)) target)[key]? =
      g a target[key]? := by
  induction entries generalizing target with
  | nil => cases h
  | cons entry entries ih =>
    obtain ⟨hhead, htail⟩ := pairwise_cons.mp hdist
    rw [foldl_cons]
    rcases mem_cons.mp h with rfl | hmem
    · -- the other entries have other keys
      rw [getElem?_foldl_alter_of_not_mem, getElem?_alter, if_pos compare_self]
      intro b hb
      exact hhead _ hb compare_self
    · have hne : ¬ compare entry.1 key = .eq := hhead _ hmem
      rw [ih htail hmem, getElem?_alter, if_neg hne]

/-- A loop over a map that alters the entry of each key alters it once. -/
lemma getElem?_foldl_alter (g : α → Option ν → Option ν) (source : ExtTreeMap κ α)
    (target : ExtTreeMap κ ν) (key : κ) :
    (source.foldl (fun t k a => t.alter k (g a)) target)[key]? =
      source[key]?.elim target[key]? fun a => g a target[key]? := by
  rw [foldl_eq_foldl_toList]
  cases h : source[key]? with
  | none =>
    refine getElem?_foldl_alter_of_not_mem g (fun a ha => ?_) target
    rw [mem_toList_iff_getElem?_eq_some, h] at ha
    cases ha
  | some =>
    exact getElem?_foldl_alter_of_mem g distinct_keys_toList
      (mem_toList_iff_getElem?_eq_some.mpr h) target

/-! ## Sums of values -/

lemma nodup_keys (m : ExtTreeMap κ ν) : m.keys.Nodup := by
  rw [← map_fst_toList_eq_keys]
  refine pairwise_map.mpr (distinct_keys_toList.imp fun h heq => h ?_)
  rw [heq, compare_self]

lemma mem_keys_toFinset [DecidableEq κ] {m : ExtTreeMap κ ν} :
    key ∈ m.keys.toFinset ↔ key ∈ m := mem_toFinset.trans mem_keys

/-- A sum over the entries of a map is a sum over any set of keys that holds its own. -/
lemma sum_entries_eq_sum [DecidableEq κ] (f : κ → ν → ℤ) {m : ExtTreeMap κ ν} (S : Finset κ)
    (h : ∀ k ∈ m, k ∈ S) :
    (m.toList.map fun entry => f entry.1 entry.2).sum = ∑ k ∈ S, m[k]?.elim 0 (f k) := by
  have hvalues : (m.toList.map fun entry => f entry.1 entry.2) =
      m.keys.map fun k => m[k]?.elim 0 (f k) := by
    rw [← ExtTreeMap.map_fst_toList_eq_keys, List.map_map]
    refine map_congr_left fun entry hentry => ?_
    have hget := mem_toList_iff_getElem?_eq_some.mp hentry
    show f entry.1 entry.2 = m[entry.1]?.elim 0 (f entry.1)
    rw [hget]
    rfl
  rw [hvalues, ← sum_toFinset _ (nodup_keys m)]
  refine sum_subset (fun k hk => h k (mem_keys_toFinset.mp hk)) fun k _ hk => ?_
  have hnone : m[k]? = none := getElem?_eq_none fun hmem => hk (mem_keys_toFinset.mpr hmem)
  rw [hnone]
  rfl

/-- A weighted sum over the entries of a map, in the same way. -/
lemma sum_entries_mul_eq_sum [DecidableEq κ] (weight : κ → ℤ) {m : ExtTreeMap κ ℤ} (S : Finset κ)
    (h : ∀ k ∈ m, k ∈ S) :
    (m.toList.map fun entry => entry.2 * weight entry.1).sum = ∑ k ∈ S, m.getD k 0 * weight k := by
  rw [sum_entries_eq_sum (fun k v => v * weight k) S h]
  refine sum_congr rfl fun k _ => ?_
  rw [getD_eq_getD_getElem?]
  cases m[k]? with
  | none => exact (Int.zero_mul _).symm
  | some => rfl

/-- The entries below a number, as a sum over the numbers below it. -/
lemma sum_entries_lt (f : ν → ℤ) (m : ExtTreeMap ℕ ν) (bound : ℕ) :
    ((m.toList.filter (·.1 < bound)).map fun entry => f entry.2).sum =
      ∑ k ∈ Finset.range bound, m[k]?.elim 0 f := by
  have hfilter : m.toList.filter (·.1 < bound) = (m.filter fun k _ => k < bound).toList :=
    (toList_filter (f := fun k _ => decide (k < bound))).symm
  rw [hfilter, sum_entries_eq_sum (fun _ => f) (range bound)]
  · refine sum_congr rfl fun k hk => ?_
    have hlt : k < bound := Finset.mem_range.mp hk
    rw [getElem?_filter']
    cases m[k]? with
    | none => rfl
    | some => simp [Option.filter, hlt]
  · intro k hk
    rw [mem_iff_isSome_getElem?, getElem?_filter'] at hk
    obtain ⟨v, hv⟩ := Option.isSome_iff_exists.mp hk
    have hlt := (Option.filter_eq_some_iff.mp hv).2
    exact Finset.mem_range.mpr (of_decide_eq_true hlt)

/-- Altering an entry changes a sum by the difference. -/
lemma sum_entries_alter [DecidableEq κ] (f : ν → ℤ) (m : ExtTreeMap κ ν) (key : κ)
    (g : Option ν → Option ν) : ((m.alter key g).toList.map fun entry => f entry.2).sum =
      (m.toList.map fun entry => f entry.2).sum - m[key]?.elim 0 f + (g m[key]?).elim 0 f := by
  have hsub : ∀ k ∈ m.alter key g, k ∈ insert key m.keys.toFinset := by
    intro k hk
    rw [mem_iff_isSome_getElem?, getElem?_alter] at hk
    split at hk
    · have heq : key = k := Std.compare_eq_iff_eq.mp ‹_›
      rw [heq]
      exact Finset.mem_insert_self _ _
    · exact Finset.mem_insert_of_mem (mem_keys_toFinset.mpr (mem_iff_isSome_getElem?.mpr hk))
  have hself : key ∈ insert key m.keys.toFinset := Finset.mem_insert_self _ _
  rw [sum_entries_eq_sum (fun _ => f) _ hsub, sum_entries_eq_sum (fun _ => f) (insert key m.keys.toFinset)
      fun k hk => Finset.mem_insert_of_mem (mem_keys_toFinset.mpr hk),
    ← Finset.add_sum_erase _ _ hself, ← Finset.add_sum_erase _ _ hself,
    getElem?_alter, if_pos compare_self]
  have hrest : ∀ k ∈ (insert key m.keys.toFinset).erase key,
      (m.alter key g)[k]?.elim 0 f = m[k]?.elim 0 f := by
    intro k hk
    rw [getElem?_alter, if_neg]
    rw [Std.compare_eq_iff_eq]
    rintro rfl
    exact (Finset.mem_erase.mp hk).1 rfl
  rw [Finset.sum_congr rfl hrest]
  omega

/-- The sum of the values of a map. -/
def total (m : ExtTreeMap κ ℤ) : ℤ := (m.toList.map Prod.snd).sum

/-- All values are positive. -/
def Positive (m : ExtTreeMap κ ℤ) : Prop := ∀ (key : κ) (value : ℤ), m[key]? = some value → 0 < value

variable {m m' : ExtTreeMap κ ℤ}

omit [LawfulEqOrd κ] in
lemma positive_empty : Positive (∅ : ExtTreeMap κ ℤ) := by
  intro key value h
  cases h

omit [LawfulEqOrd κ] in
lemma positive_insert (h : Positive m) {value : ℤ} (hvalue : 0 < value) :
    Positive (m.insert key value) := by
  intro k v hget
  rw [ExtTreeMap.getElem?_insert] at hget
  split at hget
  · rwa [← Option.some.inj hget]
  · exact h k v hget

omit [LawfulEqOrd κ] in
lemma elim_eq_getD (m : ExtTreeMap κ ℤ) (key : κ) : m[key]?.elim 0 id = m.getD key 0 := by
  rw [getD_eq_getD_getElem?]
  cases m[key]? <;> rfl

lemma total_eq_sum [DecidableEq κ] (S : Finset κ) (h : ∀ k ∈ m, k ∈ S) :
    total m = ∑ k ∈ S, m.getD k 0 :=
  (sum_entries_eq_sum (fun _ => id) S h).trans (sum_congr rfl fun k _ => elim_eq_getD m k)

section

variable (h : Positive m)

include h

omit [LawfulEqOrd κ] in
lemma getD_pos (hkey : key ∈ m) : 0 < m.getD key 0 := by
  rw [mem_iff_isSome_getElem?] at hkey
  obtain ⟨v, hv⟩ := Option.isSome_iff_exists.mp hkey
  rw [getD_eq_getD_getElem?, hv]
  exact h key v hv

omit [LawfulEqOrd κ] in
lemma getD_nonneg (key : κ) : 0 ≤ m.getD key 0 := by
  by_cases hkey : key ∈ m
  · exact Int.le_of_lt (getD_pos h hkey)
  · exact Int.le_of_eq (getD_eq_fallback hkey).symm

lemma total_nonneg [DecidableEq κ] : 0 ≤ total m := by
  rw [total_eq_sum m.keys.toFinset fun k hk => mem_keys_toFinset.mpr hk]
  exact sum_nonneg fun k _ => getD_nonneg h k

/-- A map of positive numbers has the sum zero only when it is empty. -/
lemma total_pos [DecidableEq κ] (hne : m ≠ ∅) : 0 < total m := by
  obtain ⟨key, hkey⟩ : ∃ k, k ∈ m := by
    by_contra hnone
    exact hne (eq_empty_iff_forall_not_mem.mpr fun k hk => hnone ⟨k, hk⟩)
  rw [total_eq_sum m.keys.toFinset fun k hk => mem_keys_toFinset.mpr hk]
  refine sum_pos' (fun k _ => getD_nonneg h k) ⟨key, ?_, getD_pos h hkey⟩
  exact mem_keys_toFinset.mpr hkey

end

/-- Sums follow a difference that holds key by key. -/
lemma total_sub [DecidableEq κ] {n : ExtTreeMap κ ℤ}
    (h : ∀ k, m'.getD k 0 = m.getD k 0 - n.getD k 0) : total m' = total m - total n := by
  rw [total_eq_sum, total_eq_sum,
    total_eq_sum (m.keys.toFinset ∪ n.keys.toFinset ∪ m'.keys.toFinset), ← sum_sub_distrib]
  · exact sum_congr rfl fun k _ => h k
  all_goals
    intro k hk
    simp only [Finset.mem_union, mem_keys_toFinset, hk, true_or, or_true]

lemma total_insert [DecidableEq κ] (hkey : key ∉ m) (value : ℤ) :
    total (m.insert key value) = total m + value := by
  have halter : m.insert key value = m.alter key fun _ => some value := by
    refine ext_getElem? fun k => ?_
    rw [ExtTreeMap.getElem?_insert, ExtTreeMap.getElem?_alter]
  rw [halter, total, show (Prod.snd : κ × ℤ → ℤ) = fun entry => id entry.2 from rfl,
    sum_entries_alter, getElem?_eq_none hkey]
  show _ - 0 + value = _
  rw [Int.sub_zero]
  rfl

@[simp] lemma total_empty [DecidableEq κ] : total (∅ : ExtTreeMap κ ℤ) = 0 := by
  rw [total_eq_sum ∅ fun k hk => absurd hk not_mem_empty, sum_empty]

end Replicant.Lib.OrderedMap
