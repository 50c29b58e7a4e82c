import Replicant.Lib.Text

/-!
# Stream identifiers

Account events carry Redis stream identifiers, `<milliseconds>-<sequence>`. The applied cursor is the
newest identifier whose projection was committed; an event at or below it is a duplicate.
-/

namespace Replicant.Managed

open Lib.Text

inductive StoreError where
  | invalidEventId (value : String)
  | unsupportedProjectionKind (kind : String)
  | refresh (message : String)
  /-- A column that is not of the type it is read as. -/
  | invalidColumnType (column : String)
  /-- A query for one row that finds none. -/
  | queryReturnedNoRows
deriving DecidableEq

/-- `str::split_once`. -/
def splitOnce (separator : Char) : List Char → Option (List Char × List Char)
  | [] => none
  | c :: cs =>
    if c = separator then some ([], cs)
    else (splitOnce separator cs).map fun halves => (c :: halves.1, halves.2)

def parseDigits (value : ℤ) : List Char → Option ℤ
  | [] => some value
  | c :: cs => if c.isDigit then parseDigits (10 * value + (c.toNat - '0'.toNat)) cs else none

/-- `str::parse::<i64>`: a sign is allowed, and at least one digit is needed. -/
def parseI64 (chars : List Char) : Option ℤ :=
  let (sign, digits) : ℤ × List Char := match chars with
    | '+' :: digits => (1, digits)
    | '-' :: digits => (-1, digits)
    | digits => (1, digits)
  if digits = [] then none
  else (parseDigits 0 digits).bind fun value =>
    if -2 ^ 63 ≤ sign * value ∧ sign * value < 2 ^ 63 then some (sign * value) else none

def parseEventId (value : String) : Except StoreError (ℤ ×ₗ ℤ) :=
  match splitOnce '-' value.toList with
  | none => .error (.invalidEventId value)
  | some (milliseconds, sequence) =>
    if sequence.contains '-' then .error (.invalidEventId value)
    else
      match parseI64 milliseconds, parseI64 sequence with
      | some milliseconds, some sequence => .ok (toLex (milliseconds, sequence))
      | _, _ => .error (.invalidEventId value)

def compareEventIds (left right : String) : Except StoreError Ordering :=
  if left = right then .ok .eq
  else do
    let l ← parseEventId left
    let r ← parseEventId right
    return compare l r

/-- `has_event`: whether the event is at or below the applied cursor. -/
def hasEvent (cursor : Option String) (eventId : String) : Except StoreError Bool :=
  match cursor with
  | none => .ok false
  | some cursor => do
    let ordering ← compareEventIds eventId cursor
    return ordering ≠ .gt

def advanceEventCursor (previous : Option String) (cursor : String) :
    Except StoreError (Option String) :=
  match previous with
  | none => .ok (some cursor)
  | some previous => do
    let ordering ← compareEventIds cursor previous
    return if ordering = .gt then some cursor else some previous

/-! ## The order of identifiers -/

/-- `a` is newer than `b`. -/
def After (a b : String) : Prop := compareEventIds a b = .ok .gt

/-- `a` is at or below `b`. -/
def UpTo (a b : String) : Prop := hasEvent (some b) a = .ok true

instance (a b : String) : Decidable (After a b) := inferInstanceAs (Decidable (_ = _))

instance (a b : String) : Decidable (UpTo a b) := inferInstanceAs (Decidable (_ = _))

variable {a b c : String}

lemma after_iff : After a b ↔ ∃ x y, parseEventId a = .ok x ∧ parseEventId b = .ok y ∧ y < x := by
  unfold After compareEventIds
  by_cases hab : a = b
  · rw [if_pos hab]
    constructor
    · intro h
      cases h
    · rintro ⟨x, y, hx, hy, hlt⟩
      rw [hab, hy] at hx
      rw [Except.ok.inj hx] at hlt
      exact absurd hlt (lt_irrefl _)
  · rw [if_neg hab]
    cases parseEventId a with
    | error => simp [bind, Except.bind]
    | ok =>
      cases parseEventId b with
      | error => simp [bind, Except.bind]
      | ok => simp [bind, Except.bind, pure, Except.pure, compare_gt_iff_gt]

lemma hasEvent_some :
    hasEvent (some b) a = (compareEventIds a b).map fun ordering => decide (ordering ≠ .gt) := by
  show (compareEventIds a b >>= fun ordering => _) = _
  cases compareEventIds a b <;> rfl

lemma upTo_iff : UpTo a b ↔ a = b ∨
    ∃ x y, parseEventId a = .ok x ∧ parseEventId b = .ok y ∧ x ≤ y := by
  unfold UpTo
  rw [hasEvent_some]
  unfold compareEventIds
  by_cases hab : a = b
  · simp [hab, Except.map]
  · rw [if_neg hab]
    cases parseEventId a with
    | error => simp [bind, Except.bind, Except.map, hab]
    | ok =>
      cases parseEventId b with
      | error => simp [bind, Except.bind, Except.map, hab]
      | ok => simp [bind, Except.bind, pure, Except.pure, Except.map, hab, compare_gt_iff_gt]

lemma UpTo.refl (a : String) : UpTo a a := upTo_iff.mpr (.inl rfl)

lemma After.trans (hab : After a b) (hbc : After b c) : After a c := by
  obtain ⟨x, y, hx, hy, hlt⟩ := after_iff.mp hab
  obtain ⟨y', z, hy', hz, hlt'⟩ := after_iff.mp hbc
  rw [hy] at hy'
  rw [← Except.ok.inj hy'] at hlt'
  exact after_iff.mpr ⟨x, z, hx, hz, lt_trans hlt' hlt⟩

lemma After.upTo (hab : After a b) : UpTo b a := by
  obtain ⟨x, y, hx, hy, hlt⟩ := after_iff.mp hab
  exact upTo_iff.mpr (.inr ⟨y, x, hy, hx, hlt.le⟩)

/-- What a cursor has passed, a newer cursor has passed. -/
lemma UpTo.of_after (hab : UpTo a b) (hcb : After c b) : UpTo a c := by
  obtain ⟨z, y, hz, hy, hlt⟩ := after_iff.mp hcb
  rw [upTo_iff] at hab ⊢
  right
  rcases hab with rfl | ⟨x, y', hx, hy', hle⟩
  · exact ⟨y, z, hy, hz, hlt.le⟩
  · rw [hy] at hy'
    rw [← Except.ok.inj hy'] at hle
    exact ⟨x, z, hx, hz, (lt_of_le_of_lt hle hlt).le⟩

/-- What is newer than a cursor is newer than what that cursor has passed. -/
lemma After.of_upTo (hab : After a b) (hcb : UpTo c b) : After a c := by
  obtain ⟨x, y, hx, hy, hlt⟩ := after_iff.mp hab
  rcases upTo_iff.mp hcb with rfl | ⟨z, y', hz, hy', hle⟩
  · exact hab
  · rw [hy] at hy'
    rw [← Except.ok.inj hy'] at hle
    exact after_iff.mpr ⟨x, z, hx, hz, lt_of_le_of_lt hle hlt⟩

lemma UpTo.trans (hab : UpTo a b) (hbc : UpTo b c) : UpTo a c := by
  rcases upTo_iff.mp hab with rfl | ⟨x, y, hx, hy, hxy⟩
  · exact hbc
  · rcases upTo_iff.mp hbc with rfl | ⟨y', z, hy', hz, hyz⟩
    · exact hab
    · rw [hy] at hy'
      cases hy'
      exact upTo_iff.mpr (.inr ⟨x, z, hx, hz, hxy.trans hyz⟩)

lemma UpTo.not_after (hab : UpTo a b) : ¬ After a b := by
  intro hafter
  obtain ⟨x, y, hx, hy, hlt⟩ := after_iff.mp hafter
  rcases upTo_iff.mp hab with rfl | ⟨x', y', hx', hy', hle⟩
  · rw [hx] at hy
    rw [Except.ok.inj hy] at hlt
    exact absurd hlt (lt_irrefl _)
  · rw [hx] at hx'
    rw [hy] at hy'
    rw [← Except.ok.inj hx', ← Except.ok.inj hy'] at hle
    exact absurd hlt (not_lt_of_ge hle)

lemma after_of_hasEvent (h : hasEvent (some b) a = .ok false) : After a b := by
  rw [hasEvent_some] at h
  unfold After
  cases hcompare : compareEventIds a b with
  | error =>
    rw [hcompare] at h
    cases h
  | ok ordering =>
    rw [hcompare] at h
    cases ordering with
    | gt => rfl
    | lt | eq => cases h

/-- The cursor moves to an event that is not a duplicate. -/
lemma advanceEventCursor_of_new {cursor : Option String} (h : hasEvent cursor a = .ok false) :
    advanceEventCursor cursor a = .ok (some a) := by
  cases cursor with
  | none => rfl
  | some previous =>
    have hafter : compareEventIds a previous = .ok .gt := after_of_hasEvent h
    show (compareEventIds a previous >>= fun ordering => _) = _
    rw [hafter]
    rfl

/-! ## The order of the texts -/

lemma splitOnce_append {separator : Char} {l : List Char} (h : separator ∉ l) (r : List Char) :
    splitOnce separator (l ++ separator :: r) = some (l, r) := by
  induction l with
  | nil => simp [splitOnce]
  | cons c l ih =>
    rw [List.mem_cons, not_or] at h
    simp [splitOnce, ih h.2, Ne.symm h.1]

lemma parseDigits_eq {cs : List Char} (h : ∀ c ∈ cs, c.isDigit = true) (n : ℕ) :
    parseDigits n cs = some (Nat.ofDigitChars 10 cs n : ℤ) := by
  induction cs generalizing n with
  | nil => rfl
  | cons c cs ih =>
    have hc := toNat_of_isDigit (h c List.mem_cons_self)
    rw [parseDigits, if_pos (h c List.mem_cons_self), Nat.ofDigitChars_cons,
      ← ih fun d hd => h d (List.mem_cons_of_mem c hd)]
    congr 1
    show _ + (_ - 48) = ((10 * n + (c.toNat - 48) : ℕ) : ℤ)
    omega

lemma parseI64_toDigits {n : ℕ} (h : n < 2 ^ 63) : parseI64 (Nat.toDigits 10 n) = some (n : ℤ) := by
  have hdigits := isDigit_toDigits n
  have hvalue : parseDigits (0 : ℕ) (Nat.toDigits 10 n) = some (n : ℤ) := by
    rw [parseDigits_eq hdigits, Nat.ofDigitChars_ten_toDigits]
  have hne : Nat.toDigits 10 n ≠ [] := Nat.toDigits_ne_nil
  generalize Nat.toDigits 10 n = digits at hdigits hvalue hne ⊢
  unfold parseI64
  split
  rename_i hsign
  -- a digit is no sign
  split at hsign
  · cases hdigits _ List.mem_cons_self
  · cases hdigits _ List.mem_cons_self
  · obtain ⟨rfl, rfl⟩ := Prod.mk.inj hsign
    rw [if_neg hne, show parseDigits 0 digits = _ from hvalue, Option.bind_some, one_mul,
      if_pos ⟨by omega, by omega⟩]

/-- The numbers of an identifier, as the store can hold them. -/
structure StreamId where
  milliseconds : ℕ
  sequence : ℕ
  milliseconds_lt : milliseconds < 2 ^ 63
  sequence_lt : sequence < 2 ^ 63

namespace StreamId

variable {x y : StreamId}

def text (x : StreamId) : String := toString x.milliseconds ++ "-" ++ toString x.sequence

/-- The numbers that decide between two identifiers are ordered like their texts. -/
def SameOrder (x y : StreamId) : Prop :=
  if x.milliseconds = y.milliseconds then Aligned x.sequence y.sequence
  else Aligned x.milliseconds y.milliseconds

instance : Decidable (x.SameOrder y) := inferInstanceAs (Decidable (ite _ _ _))

lemma toList_text (x : StreamId) :
    x.text.toList = Nat.toDigits 10 x.milliseconds ++ '-' :: Nat.toDigits 10 x.sequence := by
  simp [text]

lemma parseEventId_text (x : StreamId) :
    parseEventId x.text = .ok (toLex ((x.milliseconds : ℤ), (x.sequence : ℤ))) := by
  have hdash : ∀ n, '-' ∉ Nat.toDigits 10 n := by
    intro n h
    cases isDigit_toDigits n _ h
  unfold parseEventId
  rw [x.toList_text, splitOnce_append (hdash _)]
  simp [parseI64_toDigits x.milliseconds_lt, parseI64_toDigits x.sequence_lt, hdash]

lemma after_text_iff : After x.text y.text ↔ y.milliseconds < x.milliseconds ∨
    y.milliseconds = x.milliseconds ∧ y.sequence < x.sequence := by
  rw [after_iff, parseEventId_text, parseEventId_text]
  simp [Prod.Lex.lt_iff]

/-- The later text is the newer identifier exactly if the deciding numbers are ordered like their
texts. -/
lemma text_lt_iff_after_iff :
    (y.text < x.text ↔ After x.text y.text) ↔ x.SameOrder y := by
  rw [after_text_iff, String.lt_iff_toList_lt, toList_text, toList_text]
  unfold SameOrder
  by_cases hms : x.milliseconds = y.milliseconds
  · rw [if_pos hms, hms, toDigits_append_lt_iff rfl]
    simp only [lt_irrefl, false_or, true_and, List.cons_lt_cons_iff]
    by_cases hseq : x.sequence = y.sequence
    · simp [hseq, Aligned]
    · have hdigits := toDigits_lt_iff_lt_iff (Ne.symm hseq) endsBelow_nil endsBelow_nil
      rwa [List.append_nil, List.append_nil, Aligned.comm] at hdigits
  · have hdigits := toDigits_lt_iff_lt_iff (Ne.symm hms) (endsBelow_dash (Nat.toDigits 10 y.sequence))
      (endsBelow_dash (Nat.toDigits 10 x.sequence))
    rw [if_neg hms, Aligned.comm, ← hdigits]
    simp [Ne.symm hms]

end StreamId

example : compareEventIds "10-0" "9-999" = .ok .gt := by decide

example : compareEventIds "07-0" "+7-0" = .ok .eq := by decide

example : compareEventIds "7-" "7-0" = .error (.invalidEventId "7-") := by decide

end Replicant.Managed
