import Mathlib

/-!
# Text

The functions on strings that programs use to compare names: ASCII case, surrounding whitespace and
separators. All of them work on the list of characters, so they can be evaluated.
-/

namespace Replicant.Lib.Text

open List

variable {c : Char}

variable {s t : String} {separator d : Char} {l : List Char}

/-- `to_ascii_lowercase`. -/
def lower (s : String) : String := String.ofList (s.toList.map Char.toLower)

/-- `to_ascii_uppercase`. -/
def upper (s : String) : String := String.ofList (s.toList.map Char.toUpper)

/-- `eq_ignore_ascii_case`. -/
abbrev EqIgnoreCase (s t : String) : Prop := lower s = lower t

/-- The characters with the Unicode property `White_Space`. -/
def isWhitespace (c : Char) : Bool :=
  (9 ≤ c.toNat && c.toNat ≤ 13) || (0x2000 ≤ c.toNat && c.toNat ≤ 0x200a) ||
    [0x20, 0x85, 0xa0, 0x1680, 0x2028, 0x2029, 0x202f, 0x205f, 0x3000].contains c.toNat

def trim (s : String) : String :=
  String.ofList ((s.toList.dropWhile isWhitespace).reverse.dropWhile isWhitespace).reverse

/-- `split` at a character. -/
def split (s : String) (separator : Char) : List String :=
  (s.toList.splitOn separator).map String.ofList

/-- The text before the first occurrence of a character. -/
def before (s : String) (separator : Char) : String :=
  String.ofList (s.toList.takeWhile (· != separator))

/-! ## Case -/

/-- The visible characters of ASCII are not whitespace. -/
lemma isWhitespace_of_visible (h : 33 ≤ c.toNat ∧ c.toNat ≤ 126) : isWhitespace c = false := by
  simp only [isWhitespace, Bool.or_eq_false_iff, Bool.and_eq_false_iff, decide_eq_false_iff_not,
    contains_eq_mem, mem_cons, not_mem_nil, or_false]
  omega

lemma toUpper_of_not_isAlpha (h : c.isAlpha = false) : c.toUpper = c := by
  rw [Char.isAlpha, Bool.or_eq_false_iff] at h
  exact Char.toUpper_eq_of_not_isLower (Bool.not_eq_true _ ▸ h.2)

/-- A character that is no letter is the upper case of itself only. -/
lemma toUpper_eq_iff (hd : d.isAlpha = false) : c.toUpper = d ↔ c = d := by
  constructor
  · intro heq
    rw [← heq, Char.isAlpha_toUpper_eq_isAlpha] at hd
    exact (toUpper_of_not_isAlpha hd).symm.trans heq
  · intro heq
    rw [heq, toUpper_of_not_isAlpha hd]

/-- Letters are not whitespace, and only letters change. -/
lemma isWhitespace_toUpper (c : Char) : isWhitespace c.toUpper = isWhitespace c := by
  have hletter : ∀ d : Char, d.isAlpha = true → isWhitespace d = false := by
    intro d hd
    simp only [Char.isAlpha, Char.isUpper, Char.isLower, Bool.or_eq_true, Bool.and_eq_true,
      decide_eq_true_eq, ge_iff_le, UInt32.le_iff_toNat_le] at hd
    have hrange : (65 ≤ d.toNat ∧ d.toNat ≤ 90) ∨ (97 ≤ d.toNat ∧ d.toNat ≤ 122) := hd
    exact isWhitespace_of_visible (by omega)
  cases h : c.isAlpha with
  | true => rw [hletter c h, hletter _ ((Char.isAlpha_toUpper_eq_isAlpha c).trans h)]
  | false => rw [toUpper_of_not_isAlpha h]

lemma lower_upper (s : String) : lower (upper s) = lower s := by
  unfold lower upper
  rw [String.toList_ofList, map_map]
  congr 1
  exact map_congr_left fun c _ => Char.toLower_toUpper_eq_toLower c

lemma upper_upper (s : String) : upper (upper s) = upper s := by
  unfold upper
  rw [String.toList_ofList, map_map]
  congr 1
  exact map_congr_left fun c _ => Char.toUpper_toUpper_eq_toUpper c

/-! ## Surrounding whitespace -/

lemma toList_trim (s : String) :
    (trim s).toList = (s.toList.dropWhile isWhitespace).rdropWhile isWhitespace := by
  unfold trim
  rw [String.toList_ofList]
  rfl

lemma trim_upper (s : String) : trim (upper s) = upper (trim s) := by
  have hsame : isWhitespace ∘ Char.toUpper = isWhitespace := funext isWhitespace_toUpper
  unfold trim upper
  rw [String.toList_ofList, String.toList_ofList, dropWhile_map, hsame, ← map_reverse,
    dropWhile_map, hsame, ← map_reverse]

lemma trim_trim (s : String) : trim (trim s) = trim s := by
  apply String.toList_inj.mp
  rw [toList_trim, toList_trim]
  generalize hl : s.toList.dropWhile isWhitespace = l
  -- the front of what is trimmed at the end is the front of `l`, which is trimmed
  have hfront : (l.rdropWhile isWhitespace).dropWhile isWhitespace = l.rdropWhile isWhitespace := by
    rw [dropWhile_eq_self_iff]
    intro hpos
    have hprefix := rdropWhile_prefix isWhitespace l
    have hhead := hprefix.getElem hpos
    rw [hhead]
    have htrimmed : l.dropWhile isWhitespace = l := by rw [← hl, dropWhile_idempotent]
    exact dropWhile_eq_self_iff.mp htrimmed _
  rw [hfront, rdropWhile_idempotent]

lemma toList_trim_subset (s : String) : (trim s).toList ⊆ s.toList := by
  rw [toList_trim]
  exact List.Subset.trans (List.rdropWhile_prefix _ _).subset (dropWhile_subset _)

lemma trim_eq_empty_iff : trim s = "" ↔ ∀ c ∈ s.toList, isWhitespace c = true := by
  rw [← String.toList_inj, toList_trim, show "".toList = [] from rfl, rdropWhile_eq_nil_iff]
  constructor
  · intro h c hc
    by_contra hnot
    have hdrop : s.toList.dropWhile isWhitespace ≠ [] := by
      intro hnil
      exact hnot (dropWhile_eq_nil_iff.mp hnil c hc)
    have hhead := head_dropWhile_not isWhitespace hdrop
    rw [h _ (head_mem hdrop)] at hhead
    cases hhead
  · intro h c hc
    exact h c (dropWhile_subset _ hc)

/-! ## Pieces -/

/-- Text without the separator that is added at the end belongs to the last piece. -/
lemma splitOn_append {ys : List Char} (h : separator ∉ ys) (xs : List Char) :
    ∃ front last, xs.splitOn separator = front ++ [last] ∧
      (xs ++ ys).splitOn separator = front ++ [last ++ ys] := by
  induction xs with
  | nil =>
    refine ⟨[], [], by rw [splitOn_nil]; rfl, ?_⟩
    rw [nil_append, splitOn_eq_singleton h]
    rfl
  | cons x xs ih =>
    obtain ⟨front, last, hxs, hall⟩ := ih
    rw [cons_append, splitOn_cons_eq_if_modifyHead, splitOn_cons_eq_if_modifyHead, hxs, hall]
    by_cases hx : (x == separator) = true
    · rw [if_pos hx, if_pos hx]
      exact ⟨[] :: front, last, rfl, rfl⟩
    · rw [if_neg hx, if_neg hx]
      cases front with
      | nil => exact ⟨[], x :: last, rfl, rfl⟩
      | cons f front => exact ⟨(x :: f) :: front, last, rfl, rfl⟩

lemma split_append (h : separator ∉ t.toList) (s : String) :
    ∃ front last, split s separator = front ++ [last] ∧
      split (s ++ t) separator = front ++ [last ++ t] := by
  obtain ⟨front, last, hs, hall⟩ := splitOn_append h s.toList
  refine ⟨front.map String.ofList, String.ofList last, ?_, ?_⟩
  · unfold split
    rw [hs, map_append]
    rfl
  · unfold split
    rw [String.toList_append, hall, map_append, map_singleton, String.ofList_append,
      String.ofList_toList]

/-- Joined pieces without the separator come apart again. -/
lemma split_intercalate (separator : Char) {pieces : List String}
    (h : ∀ piece ∈ pieces, separator ∉ piece.toList) (hne : pieces ≠ []) :
    split ((String.singleton separator).intercalate pieces) separator = pieces := by
  unfold split
  rw [String.toList_intercalate, String.toList_singleton, splitOn_intercalate]
  · rw [map_map]
    refine (map_congr_left fun piece _ => ?_).trans (map_id pieces)
    exact String.ofList_toList
  · intro l hl
    obtain ⟨piece, hpiece, rfl⟩ := mem_map.mp hl
    exact h piece hpiece
  · intro hnil
    exact hne (map_eq_nil_iff.mp hnil)

lemma intercalate_cons_head (c d : Char) (p : List Char) (ps : List (List Char)) :
    [c].intercalate ((d :: p) :: ps) = d :: [c].intercalate (p :: ps) := by
  cases ps with
  | nil => rfl
  | cons =>
    rfl

/-- A separator of two characters leaves the second one in front of the pieces. -/
lemma intercalate_pair (c d : Char) (p : List Char) (ps : List (List Char)) :
    [c, d].intercalate (p :: ps) = [c].intercalate (p :: ps.map (d :: ·)) := by
  induction ps generalizing p with
  | nil => rfl
  | cons q qs ih =>
    rw [map_cons, intercalate_cons_cons, intercalate_cons_cons, ih,
      intercalate_cons_head, append_assoc, append_assoc]
    rfl

lemma split_intercalate_pair (hne : d ≠ c) {p : String} {ps : List String}
    (h : ∀ piece ∈ p :: ps, c ∉ piece.toList) :
    split ((String.ofList [c, d]).intercalate (p :: ps)) c =
      p :: ps.map (String.singleton d ++ ·) := by
  have hjoin : (String.ofList [c, d]).intercalate (p :: ps) =
      (String.singleton c).intercalate (p :: ps.map (String.singleton d ++ ·)) := by
    apply String.toList_inj.mp
    rw [String.toList_intercalate, String.toList_intercalate, String.toList_ofList,
      String.toList_singleton, map_cons, map_cons, intercalate_pair, map_map,
      map_map]
    congr 2
    refine map_congr_left fun q _ => ?_
    show d :: q.toList = (String.singleton d ++ q).toList
    rw [String.toList_append, String.toList_singleton]
    rfl
  rw [hjoin]
  refine split_intercalate c (fun piece hpiece => ?_) (cons_ne_nil _ _)
  rcases mem_cons.mp hpiece with heq | hlater
  · rw [heq]
    exact h p mem_cons_self
  · obtain ⟨q, hq, rfl⟩ := mem_map.mp hlater
    rw [String.toList_append, String.toList_singleton, mem_append, mem_singleton, not_or]
    exact ⟨hne.symm, h q (mem_cons_of_mem _ hq)⟩

lemma mem_splitOn {xs : List Char} (h : l ∈ xs.splitOn separator) : separator ∉ l ∧ l ⊆ xs := by
  by_cases hmem : separator ∈ xs
  · obtain ⟨first, rest, heq, hfirst⟩ := eq_append_cons_of_mem hmem
    rw [heq, splitOn_append_cons_self_of_not_mem hfirst] at h
    rw [heq]
    rcases mem_cons.mp h with rfl | hlater
    · exact ⟨hfirst, subset_append_left _ _⟩
    · have hrest := mem_splitOn hlater
      exact ⟨hrest.1, subset_append_of_subset_right _ (subset_cons_of_subset _ hrest.2)⟩
  · rw [splitOn_eq_singleton hmem, mem_singleton] at h
    rw [h]
    exact ⟨hmem, List.Subset.refl _⟩
termination_by xs.length
decreasing_by
  rw [heq, length_append, length_cons]
  omega

lemma mem_split {piece : String} (h : piece ∈ split s separator) :
    separator ∉ piece.toList ∧ piece.toList ⊆ s.toList := by
  obtain ⟨l, hl, rfl⟩ := mem_map.mp h
  rw [String.toList_ofList]
  exact mem_splitOn hl

lemma split_ne_nil (s : String) (separator : Char) : split s separator ≠ [] := by
  intro hnil
  exact splitOn_ne_nil _ _ (map_eq_nil_iff.mp hnil)

/-! ## Text before a separator -/

lemma before_upper (hletter : ∀ c : Char, c.toUpper = separator ↔ c = separator)
    (s : String) : before (upper s) separator = upper (before s separator) := by
  have hsame : (· != separator) ∘ Char.toUpper = (· != separator) := by
    funext c
    show (c.toUpper != separator) = (c != separator)
    rw [Bool.eq_iff_iff, bne_iff_ne, bne_iff_ne, ne_eq, ne_eq, hletter]
  unfold before upper
  rw [String.toList_ofList, String.toList_ofList, takeWhile_map, hsame]

lemma before_of_not_mem (h : separator ∉ s.toList) : before s separator = s := by
  unfold before
  rw [takeWhile_eq_self_iff.mpr, String.ofList_toList]
  intro c hc
  rw [bne_iff_ne]
  exact fun heq => h (heq ▸ hc)

lemma dropWhile_append_cons {p : Char → Bool} (hc : p c = false) (l r : List Char) :
    (l ++ c :: r).dropWhile p = l.dropWhile p ++ c :: r := by
  rw [dropWhile_append]
  split
  · rename_i hempty
    rw [isEmpty_iff.mp hempty, dropWhile_cons_of_neg (by rw [hc]; exact Bool.false_ne_true)]
    rfl
  · rfl

lemma rdropWhile_append_cons {p : Char → Bool} (hc : p c = false) (l r : List Char) :
    (l ++ c :: r).rdropWhile p = l ++ c :: r.rdropWhile p := by
  unfold rdropWhile
  rw [reverse_append, reverse_cons, append_assoc, singleton_append, dropWhile_append_cons hc,
    reverse_append, reverse_cons, reverse_reverse, append_assoc, singleton_append]

/-- What is added after a separator can be cut off again, up to surrounding whitespace. -/
lemma trim_before_trim (separator : Char) (hc : isWhitespace separator = false)
    (hs : separator ∉ s.toList) (hblank : trim s ≠ "") (t : String) :
    trim (before (trim (s ++ String.singleton separator ++ t)) separator) = trim s := by
  have hfront : s.toList.dropWhile isWhitespace ≠ [] := by
    intro hnil
    apply hblank
    apply String.toList_inj.mp
    rw [toList_trim, hnil]
    rfl
  have htrim : (trim (s ++ String.singleton separator ++ t)).toList =
      s.toList.dropWhile isWhitespace ++ separator :: t.toList.rdropWhile isWhitespace := by
    rw [toList_trim, String.toList_append, String.toList_append, String.toList_singleton,
      append_assoc, singleton_append, dropWhile_append,
      if_neg (by rwa [List.isEmpty_iff]), rdropWhile_append_cons hc]
  have hbefore : (before (trim (s ++ String.singleton separator ++ t)) separator).toList =
      s.toList.dropWhile isWhitespace := by
    unfold before
    rw [String.toList_ofList, htrim, takeWhile_append_of_pos, takeWhile_cons_of_neg, append_nil]
    · rw [bne_self_eq_false]
      exact Bool.false_ne_true
    · intro c hmem
      rw [bne_iff_ne]
      exact fun heq => hs (heq ▸ dropWhile_subset _ hmem)
  apply String.toList_inj.mp
  rw [toList_trim, toList_trim, hbefore, dropWhile_idempotent]

/-! ## Words -/

lemma trim_singleton_append (hc : isWhitespace c = true) (s : String) :
    trim (String.singleton c ++ s) = trim s := by
  apply String.toList_inj.mp
  rw [toList_trim, toList_trim, String.toList_append, String.toList_singleton, singleton_append,
    dropWhile_cons_of_pos hc]

lemma exists_visible (ht : trim t ≠ "") : ∃ c ∈ t.toList, isWhitespace c = false := by
  by_contra hall
  refine ht (trim_eq_empty_iff.mpr fun c hc => ?_)
  rw [← Bool.not_eq_false]
  exact fun hvisible => hall ⟨c, hc, hvisible⟩

/-- Words in front keep the space behind them. -/
lemma toList_trim_append_space (hs : ∀ c ∈ s.toList, isWhitespace c = false) (hne : s.toList ≠ [])
    (ht : trim t ≠ "") :
    (trim (s ++ " " ++ t)).toList = s.toList ++ ' ' :: t.toList.rdropWhile isWhitespace := by
  obtain ⟨c, hc, hvisible⟩ := exists_visible ht
  obtain ⟨l, r, ht'⟩ := append_of_mem hc
  obtain ⟨x, xs, hx⟩ := exists_cons_of_ne_nil hne
  have hfront : isWhitespace x = false := hs x (by rw [hx]; exact mem_cons_self)
  rw [toList_trim, String.toList_append, String.toList_append, append_assoc, hx, cons_append,
    dropWhile_cons_of_neg (by rw [hfront]; exact Bool.false_ne_true), ht',
    show " ".toList = [' '] from rfl, singleton_append, ← cons_append, ← cons_append,
    ← append_assoc, rdropWhile_append_cons hvisible, rdropWhile_append_cons hvisible,
    append_assoc]
  rfl

lemma dropWhile_rdropWhile {p : Char → Bool} (h : ∃ c ∈ l, p c = false) :
    (l.rdropWhile p).dropWhile p = (l.dropWhile p).rdropWhile p := by
  obtain ⟨c, hmem, hc⟩ := h
  obtain ⟨l, r, rfl⟩ := append_of_mem hmem
  rw [rdropWhile_append_cons hc, dropWhile_append_cons hc, dropWhile_append_cons hc,
    rdropWhile_append_cons hc]

lemma eq_of_append_cons {a b x y : List Char} (ha : c ∉ a) (hb : c ∉ b)
    (h : a ++ c :: x = b ++ c :: y) : a = b ∧ x = y := by
  have hfront : ∀ l r : List Char, c ∉ l → (l ++ c :: r).takeWhile (· ≠ c) = l := by
    intro l r hl
    rw [takeWhile_append_of_pos, takeWhile_cons_of_neg (by simp), append_nil]
    exact fun d hd => decide_eq_true fun heq => hl (heq ▸ hd)
  have hab : a = b := by rw [← hfront a x ha, h, hfront b y hb]
  subst hab
  exact ⟨rfl, (cons.inj (append_cancel_left h)).2⟩

/-! ## Numerals -/

lemma ofDigitChars_cons_zero (c : Char) (l : List Char) : Nat.ofDigitChars 10 (c :: l) 0 =
    10 ^ l.length * (c.toNat - '0'.toNat) + Nat.ofDigitChars 10 l 0 := by
  rw [Nat.ofDigitChars_cons, Nat.ofDigitChars_eq_ofDigitChars_zero, Nat.mul_zero, Nat.zero_add]

lemma toNat_of_isDigit (h : c.isDigit = true) : 48 ≤ c.toNat ∧ c.toNat ≤ 57 := by
  have := Char.isDigit_iff_toNat.mp h
  simpa using this

lemma ofDigitChars_lt (h : ∀ c ∈ l, c.isDigit = true) :
    Nat.ofDigitChars 10 l 0 < 10 ^ l.length := by
  induction l with
  | nil => decide
  | cons c l ih =>
    have hc : c.toNat ≤ 57 := (toNat_of_isDigit (h c mem_cons_self)).2
    have hlt := ih fun d hd => h d (mem_cons_of_mem c hd)
    have hmul : 10 ^ l.length * (c.toNat - 48) ≤ 10 ^ l.length * 9 := Nat.mul_le_mul_left _ (by omega)
    rw [ofDigitChars_cons_zero, length_cons, pow_succ]
    show 10 ^ l.length * (c.toNat - 48) + _ < _
    omega

/-- Numerals with equally many digits are ordered as numbers, whatever follows them. -/
lemma append_lt_append_iff {l' : List Char} (h : ∀ c ∈ l, c.isDigit = true)
    (h' : ∀ c ∈ l', c.isDigit = true) (hlen : l.length = l'.length) (x y : List Char) :
    l ++ x < l' ++ y ↔ Nat.ofDigitChars 10 l 0 < Nat.ofDigitChars 10 l' 0 ∨ l = l' ∧ x < y := by
  induction l generalizing l' with
  | nil =>
    rw [eq_nil_of_length_eq_zero hlen.symm]
    simp
  | cons c l ih =>
    cases l' with
    | nil => cases hlen
    | cons d l' =>
      have hc := toNat_of_isDigit (h c mem_cons_self)
      have hd := toNat_of_isDigit (h' d mem_cons_self)
      have hl := fun c hc => h c (mem_cons_of_mem _ hc)
      have hl' := fun c hc => h' c (mem_cons_of_mem _ hc)
      have hlen := Nat.succ.inj hlen
      have hlt := ofDigitChars_lt hl
      have hlt' := ofDigitChars_lt hl'
      rw [ofDigitChars_cons_zero, ofDigitChars_cons_zero, cons_append, cons_append, cons_lt_cons_iff,
        ih hl hl' hlen, cons.injEq, hlen]
      rw [hlen] at hlt
      show _ ↔ _ * (c.toNat - 48) + _ < _ * (d.toNat - 48) + _ ∨ _
      have hstep : ∀ a b : ℕ, a < b → 10 ^ l'.length * a + 10 ^ l'.length ≤ 10 ^ l'.length * b :=
        fun a b hab => Nat.mul_le_mul_left (10 ^ l'.length) hab
      -- the first digit that differs decides
      rcases lt_trichotomy c d with hcd | rfl | hcd
      · have := hstep (c.toNat - 48) (d.toNat - 48) (by have : c.toNat < d.toNat := hcd; omega)
        simp only [hcd, true_or, true_iff]
        omega
      · simp
      · have := hstep (d.toNat - 48) (c.toNat - 48) (by have : d.toNat < c.toNat := hcd; omega)
        simp only [hcd.not_gt, hcd.ne', false_and, or_self, false_iff, or_false]
        omega

lemma isDigit_toDigits (n : ℕ) : ∀ c ∈ Nat.toDigits 10 n, c.isDigit = true :=
  fun _ hc => Nat.isDigit_of_mem_toDigits (by decide) (by decide) hc

lemma toDigits_append_lt_iff {m n : ℕ}
    (hlen : (Nat.toDigits 10 m).length = (Nat.toDigits 10 n).length) (x y : List Char) :
    Nat.toDigits 10 m ++ x < Nat.toDigits 10 n ++ y ↔ m < n ∨ m = n ∧ x < y := by
  have hvalue : ∀ k, Nat.ofDigitChars 10 (Nat.toDigits 10 k) 0 = k := fun k =>
    Nat.ofDigitChars_ten_toDigits
  have hinj : Nat.toDigits 10 m = Nat.toDigits 10 n ↔ m = n :=
    ⟨fun h => by rw [← hvalue m, h, hvalue], congrArg _⟩
  rw [append_lt_append_iff (isDigit_toDigits m) (isDigit_toDigits n) hlen, hvalue, hvalue, hinj]

/-- The number of decimal digits. -/
def width (n : ℕ) : ℕ := (Nat.toDigits 10 n).length

lemma width_mono {m n : ℕ} (h : m ≤ n) : width m ≤ width n :=
  (Nat.length_toDigits_le_iff (by decide) Nat.length_toDigits_pos).mpr
    (h.trans_lt ((Nat.length_toDigits_le_iff (by decide) Nat.length_toDigits_pos).mp le_rfl))

/-- Without its last `k` digits a number is divided by `10 ^ k`. -/
lemma toDigits_eq_append {n k : ℕ} (h : k < width n) :
    ∃ rest, Nat.toDigits 10 n = Nat.toDigits 10 (n / 10 ^ k) ++ rest ∧ rest.length = k := by
  induction k generalizing n with
  | zero => exact ⟨[], by simp, rfl⟩
  | succ k ih =>
    have hlong : ¬ n < 10 ^ 1 := by
      rw [← Nat.length_toDigits_le_iff (b := 10) (by decide) one_pos]
      unfold width at h
      omega
    have hlast := Nat.toDigits_of_base_le (b := 10) (by decide) (not_lt.mp hlong)
    unfold width at h
    rw [hlast, length_append, length_singleton] at h
    obtain ⟨rest, hrest, hlen⟩ := ih (n := n / 10) (by unfold width; omega)
    refine ⟨rest ++ [(n % 10).digitChar], ?_, by rw [length_append, hlen, length_singleton]⟩
    rw [hlast, hrest, Nat.div_div_eq_div_mul, ← pow_succ', append_assoc]

/-- The smaller number is at most what the other one starts with, on as many digits. -/
def Aligned (m n : ℕ) : Prop :=
  min m n ≤ max m n / 10 ^ (width (max m n) - width (min m n))

instance (m n : ℕ) : Decidable (Aligned m n) := inferInstanceAs (Decidable (_ ≤ _))

lemma Aligned.comm {m n : ℕ} : Aligned m n ↔ Aligned n m := by
  unfold Aligned
  rw [min_comm, max_comm]

/-- Texts that continue a number sort before a further digit. -/
def EndsBelow (x : List Char) : Prop := ∀ c cs, c.isDigit = true → x < c :: cs

/-- The smaller number comes first as a text exactly if it is aligned with the other one. -/
lemma toDigits_lt_iff_of_lt {m n : ℕ} (h : m < n) {x : List Char} (hx : EndsBelow x)
    (y : List Char) : (Nat.toDigits 10 m ++ x < Nat.toDigits 10 n ++ y ↔ Aligned m n) ∧
      (Nat.toDigits 10 n ++ y < Nat.toDigits 10 m ++ x ↔ ¬ Aligned m n) := by
  unfold Aligned
  rw [min_eq_left h.le, max_eq_right h.le]
  rcases (width_mono h.le).eq_or_lt with hsame | hshort
  · rw [toDigits_append_lt_iff hsame, toDigits_append_lt_iff hsame.symm, hsame, Nat.sub_self,
      pow_zero, Nat.div_one]
    omega
  · have hpos : 0 < width m := Nat.length_toDigits_pos
    obtain ⟨rest, hrest, hlen⟩ :=
      toDigits_eq_append (n := n) (k := width n - width m) (by omega)
    have hlead : width m = width (n / 10 ^ (width n - width m)) := by
      have hsum := congrArg length hrest
      rw [length_append, hlen] at hsum
      unfold width at hshort hsum ⊢
      omega
    obtain ⟨c, cs, rfl⟩ := exists_cons_of_ne_nil (l := rest) (by rintro rfl; simp at hlen; omega)
    have hc : c.isDigit = true :=
      isDigit_toDigits n c (by rw [hrest]; exact mem_append_right _ mem_cons_self)
    have hbelow : x < c :: (cs ++ y) := hx c _ hc
    rw [hrest, append_assoc, cons_append, toDigits_append_lt_iff hlead,
      toDigits_append_lt_iff hlead.symm, and_iff_left hbelow]
    simp only [hbelow.asymm, and_false, or_false]
    omega

/-- Two different numbers are in the order of their texts exactly if they are aligned. -/
lemma toDigits_lt_iff_lt_iff {m n : ℕ} (h : m ≠ n) {x y : List Char} (hx : EndsBelow x)
    (hy : EndsBelow y) :
    (Nat.toDigits 10 m ++ x < Nat.toDigits 10 n ++ y ↔ m < n) ↔ Aligned m n := by
  rcases h.lt_or_gt with hlt | hgt
  · rw [(toDigits_lt_iff_of_lt hlt hx y).1, iff_true_right hlt]
  · rw [(toDigits_lt_iff_of_lt hgt hy x).2, iff_false_right hgt.not_gt, not_not, Aligned.comm]

lemma endsBelow_nil : EndsBelow [] := fun _ _ _ => nil_lt_cons _ _

lemma endsBelow_dash (cs : List Char) : EndsBelow ('-' :: cs) := by
  intro c _ hc
  have hdash : '-'.toNat < c.toNat := lt_of_lt_of_le (by decide) (toNat_of_isDigit hc).1
  exact cons_lt_cons_iff.mpr (.inl hdash)

end Replicant.Lib.Text
