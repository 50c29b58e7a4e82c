import Replicant.Lib.Table

/-!
# Tables as maps

A map from keys to values that carry their key is a table read without its order. `put` is the
insertion of such a map and the upsert of a relation; a relation whose rows are read through a
function is the image of a table.
-/

namespace Replicant.Lib

open List

namespace Table

variable {ρ σ κ : Type} {key : ρ → κ} {key' : σ → κ} {t : Table ρ key}

/-! ## Insertion -/

section Put

variable [DecidableEq κ] {r x : ρ} {k : κ}

/-- The row takes the place of the one with its key, or goes to the end. -/
def put (t : Table ρ key) (r : ρ) : Table ρ key :=
  if t.hasKey (key r) = true then
    { rows := t.rows.map fun x => if key x = key r then r else x
      keysNodup := by
        have hkeys : (t.rows.map fun x => if key x = key r then r else x).map key =
            t.rows.map key := by
          rw [List.map_map]
          refine List.map_congr_left fun x _ => ?_
          by_cases hx : key x = key r <;> simp [hx]
        rw [hkeys]
        exact t.keysNodup }
  else t.insert r

lemma mem_put : x ∈ t.put r ↔ x = r ∨ (x ∈ t ∧ key x ≠ key r) := by
  unfold put
  by_cases hkey : t.hasKey (key r) = true
  · rw [if_pos hkey]
    obtain ⟨y, hy, hyr⟩ := hasKey_eq_true.mp hkey
    show x ∈ t.rows.map (fun x => if key x = key r then r else x) ↔ _
    rw [mem_map]
    constructor
    · rintro ⟨z, hz, rfl⟩
      by_cases hzr : key z = key r
      · exact .inl (if_pos hzr)
      · rw [if_neg hzr]
        exact .inr ⟨hz, hzr⟩
    · rintro (rfl | ⟨hx, hne⟩)
      · exact ⟨y, hy, if_pos hyr⟩
      · exact ⟨x, hx, if_neg hne⟩
  · rw [if_neg hkey, mem_insert (Bool.eq_false_iff.mpr hkey)]
    have hfresh := hasKey_eq_false.mp (Bool.eq_false_iff.mpr hkey)
    constructor
    · rintro (hx | rfl)
      · exact .inr ⟨hx, hfresh x hx⟩
      · exact .inl rfl
    · rintro (rfl | ⟨hx, -⟩)
      · exact .inr rfl
      · exact .inl hx

lemma hasKey_put : (t.put r).hasKey k = true ↔ k = key r ∨ t.hasKey k = true := by
  simp only [hasKey_eq_true, mem_put]
  constructor
  · rintro ⟨x, rfl | ⟨hx, -⟩, rfl⟩
    · exact .inl rfl
    · exact .inr ⟨x, hx, rfl⟩
  · rintro (rfl | ⟨x, hx, rfl⟩)
    · exact ⟨r, .inl rfl, rfl⟩
    · by_cases hxr : key x = key r
      · exact ⟨r, .inl rfl, hxr.symm⟩
      · exact ⟨x, .inr ⟨hx, hxr⟩, rfl⟩

lemma find?_put_of_ne (h : k ≠ key r) : (t.put r).find? k = t.find? k := by
  cases ht : t.find? k with
  | some =>
    obtain ⟨hx, rfl⟩ := find?_eq_some.mp ht
    exact find?_eq_some.mpr ⟨mem_put.mpr (.inr ⟨hx, h⟩), rfl⟩
  | none =>
    refine find?_eq_none.mpr fun x hx => ?_
    rcases mem_put.mp hx with rfl | ⟨hold, -⟩
    · exact h.symm
    · exact find?_eq_none.mp ht x hold

/-- An update of other rows commutes with an insertion. -/
lemma update_put {p : ρ → Bool} {f : ρ → ρ} {hf : ∀ x, key (f x) = key x}
    (hp : ∀ x, p x = true → key x ≠ key r) : (t.put r).update p f hf = (t.update p f hf).put r := by
  have hr : p r = false := by
    by_contra hr
    exact hp r (Bool.not_eq_false _ ▸ hr) rfl
  apply ext_rows
  unfold put
  rw [hasKey_update]
  by_cases hkey : t.hasKey (key r) = true
  · simp only [if_pos hkey, rows_update, map_map]
    refine map_congr_left fun x _ => ?_
    show (if p (if key x = key r then r else x) = true then _ else _) = if key (if p x then f x else x) = key r then r else _
    by_cases hx : key x = key r
    · have hpx : p x = false := by
        by_contra hpx
        exact hp x (Bool.not_eq_false _ ▸ hpx) hx
      simp [hx, hr, hpx]
    · by_cases hpx : p x = true
      · simp [hx, hpx, hf]
      · simp [hx, hpx]
  · have hfresh := Bool.eq_false_iff.mpr hkey
    rw [if_neg hkey, if_neg hkey, rows_update, rows_insert hfresh, map_append,
      rows_insert (by rw [hasKey_update]; exact hfresh), rows_update]
    simp [hr]

end Put

/-! ## The same map -/

/-- The same rows, in whatever order. -/
def Same (a b : Table ρ key) : Prop := ∀ r, r ∈ a ↔ r ∈ b

lemma Same.refl (t : Table ρ key) : Same t t := fun _ => Iff.rfl

variable {a b : Table ρ key}

lemma Same.symm (h : Same a b) : Same b a := fun r => (h r).symm

lemma Same.trans {c : Table ρ key} (hab : Same a b) (hbc : Same b c) : Same a c :=
  fun r => (hab r).trans (hbc r)

lemma same_iff : Same a b ↔ (∀ r ∈ a.rows, r ∈ b.rows) ∧ ∀ r ∈ b.rows, r ∈ a.rows :=
  ⟨fun h => ⟨fun r hr => (h r).mp hr, fun r hr => (h r).mpr hr⟩, fun h r => ⟨h.1 r, h.2 r⟩⟩

instance [DecidableEq ρ] (a b : Table ρ key) : Decidable (Same a b) :=
  decidable_of_iff _ same_iff.symm

lemma Same.put [DecidableEq κ] (h : Same a b) (r : ρ) : Same (a.put r) (b.put r) := by
  intro x
  rw [mem_put, mem_put, h]

lemma Same.foldl_put [DecidableEq κ] (h : Same a b) (rs : List ρ) :
    Same (rs.foldl Table.put a) (rs.foldl Table.put b) := by
  induction rs generalizing a b with
  | nil => exact h
  | cons r rs ih => exact ih (h.put r)

lemma mem_foldl_put [DecidableEq κ] {t : Table ρ key} {rs : List ρ} (h : (rs.map key).Nodup) {x : ρ} :
    x ∈ rs.foldl Table.put t ↔ x ∈ rs ∨ (x ∈ t ∧ key x ∉ rs.map key) := by
  induction rs generalizing t with
  | nil => simp
  | cons r rs ih =>
    rw [map_cons, nodup_cons] at h
    rw [foldl_cons, ih h.2, mem_put, mem_cons, map_cons, mem_cons, not_or]
    constructor
    · rintro (hx | ⟨rfl | ⟨hx, hne⟩, hkey⟩)
      · exact .inl (.inr hx)
      · exact .inl (.inl rfl)
      · exact .inr ⟨hx, hne, hkey⟩
    · rintro ((rfl | hx) | ⟨hx, hne, hkey⟩)
      · exact .inr ⟨.inl rfl, h.1⟩
      · exact .inl hx
      · exact .inr ⟨.inr ⟨hx, hne⟩, hkey⟩

/-- A map whose keys are all in another one is overwritten by it. -/
lemma same_foldl_put_rows [DecidableEq κ]
    (h : ∀ k, a.hasKey k = true → b.hasKey k = true) : Same (b.rows.foldl Table.put a) b := by
  intro x
  rw [mem_foldl_put b.keysNodup]
  refine ⟨?_, .inl⟩
  rintro (hx | ⟨hx, hkey⟩)
  · exact hx
  · obtain ⟨y, hy, hyx⟩ := hasKey_eq_true.mp (h _ (hasKey_eq_true.mpr ⟨x, hx, rfl⟩))
    exact absurd (mem_map.mpr ⟨y, hy, hyx⟩) hkey

lemma Same.hasKey [DecidableEq κ] (h : Same a b) (k : κ) : a.hasKey k = b.hasKey k := by
  rw [Bool.eq_iff_iff, hasKey_eq_true, hasKey_eq_true]
  exact exists_congr fun r => and_congr_left fun _ => h r

variable {p : ρ → Bool}

lemma Same.delete (h : Same a b) {q : ρ → Bool}
    (hpq : ∀ r ∈ b, p r = q r) : Same (a.delete p) (b.delete q) := by
  intro x
  rw [mem_delete, mem_delete, h]
  exact and_congr_right fun hx => by rw [hpq x hx]

/-! ## Images -/

/-- The rows as a function reads them. -/
def map (t : Table ρ key) (f : ρ → σ) (hf : ∀ r, key' (f r) = key r) : Table σ key' where
  rows := t.rows.map f
  keysNodup := by
    rw [List.map_map]
    rw [show key' ∘ f = key from funext hf]
    exact t.keysNodup

variable {f : ρ → σ} {hf : ∀ r, key' (f r) = key r}

@[simp] lemma mem_map {x : σ} : x ∈ t.map f hf ↔ ∃ r ∈ t, f r = x := List.mem_map

lemma map_put [DecidableEq κ] (r : ρ) : Same ((t.put r).map f hf) ((t.map f hf).put (f r)) := by
  intro x
  simp only [mem_map, mem_put, hf]
  constructor
  · rintro ⟨y, rfl | ⟨hy, hne⟩, rfl⟩
    · exact .inl rfl
    · exact .inr ⟨⟨y, hy, rfl⟩, by rwa [hf]⟩
  · rintro (rfl | ⟨⟨y, hy, rfl⟩, hne⟩)
    · exact ⟨r, .inl rfl, rfl⟩
    · exact ⟨y, .inr ⟨hy, by rwa [hf] at hne⟩, rfl⟩

lemma map_delete {q : σ → Bool} (hpq : ∀ r ∈ t, p r = q (f r)) :
    Same ((t.delete p).map f hf) ((t.map f hf).delete q) := by
  intro x
  simp only [mem_map, mem_delete]
  constructor
  · rintro ⟨y, ⟨hy, hp⟩, rfl⟩
    exact ⟨⟨y, hy, rfl⟩, by rw [← hpq y hy]; exact hp⟩
  · rintro ⟨⟨y, hy, rfl⟩, hq⟩
    exact ⟨y, ⟨hy, by rw [hpq y hy]; exact hq⟩, rfl⟩

end Table

end Replicant.Lib
