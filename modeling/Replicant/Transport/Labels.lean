import Replicant.Transport.TravelTheorems

/-!
# What the identity of a travel tells

The identity of a travel has the leg as its payload: pieces between commas, in upper case, sorted and
without repetitions, and the place where a travel within one system starts. From it the pieces of the
leg can be read again, and an operation from its name.
-/

namespace Replicant.Transport

open Lib Lib.Text Lib.OrderedMap List
open Std (ExtTreeMap)

variable {quantity : ℤ}

variable {c : Char} {codes codes' : List String} {destination x piece s leg : String}
  {location : Option String} {manifest : ResourceMap}

/-- The pieces of a payload, without the place where the travel starts. -/
def stems (payload : String) : List String :=
  (split payload ',').map fun piece => trim (before piece ':')

/-! ## Canonical codes -/

lemma mem_upper (hletter : ∀ d : Char, d.toUpper = c ↔ d = c) :
    c ∈ (upper s).toList ↔ c ∈ s.toList := by
  unfold upper
  rw [String.toList_ofList, mem_map]
  constructor
  · rintro ⟨d, hd, heq⟩
    rwa [← (hletter d).mp heq]
  · intro hc
    exact ⟨c, hc, (hletter c).mpr rfl⟩

lemma not_mem_canonicalDeviceCode (hletter : ∀ d : Char, d.toUpper = c ↔ d = c) (h : c ∉ s.toList) :
    c ∉ (canonicalDeviceCode s).toList := by
  unfold canonicalDeviceCode
  rw [mem_upper hletter]
  exact fun hmem => h (toList_trim_subset s hmem)

lemma comma_toUpper (d : Char) : d.toUpper = ',' ↔ d = ',' := toUpper_eq_iff (by decide)

lemma colon_toUpper (d : Char) : d.toUpper = ':' ↔ d = ':' := toUpper_eq_iff (by decide)

lemma trim_canonicalDeviceCode (s : String) :
    trim (canonicalDeviceCode s) = canonicalDeviceCode s := by
  unfold canonicalDeviceCode
  rw [trim_upper, trim_trim]

lemma trim_canonicalDeviceCode_ne_empty {code : String} (h : trim code ≠ "") :
    trim (canonicalDeviceCode code) ≠ "" := by
  rw [trim_canonicalDeviceCode]
  unfold canonicalDeviceCode
  intro hempty
  apply h
  have hlist := congrArg String.toList hempty
  unfold upper at hlist
  rw [String.toList_ofList] at hlist
  exact String.toList_inj.mp (map_eq_nil_iff.mp hlist)

lemma mem_canonicalPayloadCodes :
    x ∈ canonicalPayloadCodes codes ↔ x ∈ codes.map canonicalDeviceCode := by
  unfold canonicalPayloadCodes
  rw [mem_insertionSort, mem_dedup]

/-- Canonical codes are left alone when they are read again. -/
lemma mem_map_canonicalPayloadCodes : x ∈ (canonicalPayloadCodes codes).map canonicalDeviceCode ↔
    x ∈ codes.map canonicalDeviceCode := by
  have hsame : ∀ y ∈ canonicalPayloadCodes codes, canonicalDeviceCode y = y := fun y hy =>
    canonical_of_mem (mem_canonicalPayloadCodes.mp hy)
  rw [map_congr_left hsame, map_id', mem_canonicalPayloadCodes]

/-! ## Legs -/

lemma split_canonicalPayloadKey (hne : codes ≠ []) (hcomma : ∀ code ∈ codes, ',' ∉ code.toList) :
    split (canonicalPayloadKey codes) ',' = canonicalPayloadCodes codes := by
  refine split_intercalate ',' (fun piece hpiece => ?_) fun hnil => ?_
  · obtain ⟨code, hcode, rfl⟩ := mem_map.mp (mem_canonicalPayloadCodes.mp hpiece)
    exact not_mem_canonicalDeviceCode comma_toUpper (hcomma code hcode)
  · obtain ⟨code, rest, rfl⟩ := exists_cons_of_ne_nil hne
    have hmem : canonicalDeviceCode code ∈ canonicalPayloadCodes (code :: rest) :=
      mem_canonicalPayloadCodes.mpr (mem_map_of_mem mem_cons_self)
    rw [hnil] at hmem
    exact not_mem_nil hmem

/-- The stems of a payload are the canonical pieces of the leg, each up to its colon. -/
lemma mem_stems_canonicalPayload {payload : String} (hblank : trim payload ≠ "") :
    x ∈ stems (canonicalPayload payload) ↔
      x ∈ (split payload ',').map fun piece => trim (before (canonicalDeviceCode piece) ':') := by
  unfold stems canonicalPayload
  rw [if_neg hblank, split_canonicalPayloadKey (split_ne_nil _ _) fun p hp => (mem_split hp).1]
  simp only [mem_map, mem_canonicalPayloadCodes, exists_exists_and_eq_and]

lemma stem_of_no_colon (h : ':' ∉ piece.toList) :
    trim (before (canonicalDeviceCode piece) ':') = canonicalDeviceCode piece := by
  rw [before_of_not_mem (not_mem_canonicalDeviceCode colon_toUpper h), trim_canonicalDeviceCode]

lemma stem_of_suffix (h : ':' ∉ piece.toList) (hblank : trim piece ≠ "") (rest : String) :
    trim (before (canonicalDeviceCode (piece ++ ":" ++ rest)) ':') = canonicalDeviceCode piece := by
  have hcut := trim_before_trim ':' (by decide) h hblank rest
  unfold canonicalDeviceCode
  rw [before_upper colon_toUpper, trim_upper]
  exact congrArg upper hcut

lemma trim_ne_empty_of_split (hblank : ∀ piece ∈ split leg ',', trim piece ≠ "") :
    trim leg ≠ "" := by
  obtain ⟨piece, rest, hsplit⟩ := exists_cons_of_ne_nil (split_ne_nil leg ',')
  have hmem : piece ∈ split leg ',' := by
    rw [hsplit]
    exact mem_cons_self
  intro hempty
  refine hblank piece hmem (trim_eq_empty_iff.mpr fun c hc => ?_)
  exact trim_eq_empty_iff.mp hempty c ((mem_split hmem).2 hc)

/-- The leg of a travel can be read from its identity, wherever the travel starts. -/
lemma mem_stems_travel (hcolon : ∀ piece ∈ split leg ',', ':' ∉ piece.toList)
    (hblank : ∀ piece ∈ split leg ',', trim piece ≠ "") (hloc : ∀ l ∈ location, ',' ∉ l.toList)
    (x : String) : x ∈ stems (canonicalPayload (travelOperationLeg leg location destination)) ↔
      x ∈ (split leg ',').map canonicalDeviceCode := by
  have hleg := trim_ne_empty_of_split hblank
  have hplain : x ∈ stems (canonicalPayload leg) ↔ x ∈ (split leg ',').map canonicalDeviceCode := by
    rw [mem_stems_canonicalPayload hleg, map_congr_left fun p hp => stem_of_no_colon (hcolon p hp)]
  unfold travelOperationLeg
  split
  · rename_i l
    split
    · -- the place is added to the last piece
      have hsuffix : ',' ∉ (":" ++ ("local-from:" ++ canonicalDeviceCode l)).toList := by
        have hplace := not_mem_canonicalDeviceCode comma_toUpper (hloc l rfl)
        rw [String.toList_append, String.toList_append, mem_append, mem_append]
        rintro (h | h | h)
        · revert h
          decide
        · revert h
          decide
        · exact hplace h
      obtain ⟨front, last, hsplit, hall⟩ := split_append hsuffix leg
      have hlast : last ∈ split leg ',' := by
        rw [hsplit]
        exact mem_append_cons_self
      have htext : leg ++ ":local-from:" ++ canonicalDeviceCode l =
          leg ++ (":" ++ ("local-from:" ++ canonicalDeviceCode l)) := by
        rw [String.append_assoc]
        rfl
      have hblank' : trim (leg ++ ":local-from:" ++ canonicalDeviceCode l) ≠ "" := by
        intro hempty
        have hwhite := trim_eq_empty_iff.mp hempty ':' (by simp)
        exact absurd hwhite (by decide)
      have hstem := stem_of_suffix (hcolon last hlast) (hblank last hlast)
        ("local-from:" ++ canonicalDeviceCode l)
      have hfronts : ∀ piece ∈ front,
          trim (before (canonicalDeviceCode piece) ':') = canonicalDeviceCode piece := fun piece h =>
        stem_of_no_colon (hcolon piece (by rw [hsplit]; exact mem_append_left _ h))
      rw [String.append_assoc] at hstem
      rw [mem_stems_canonicalPayload hblank', htext, hall, hsplit, map_append, map_append,
        map_congr_left hfronts, map_singleton, map_singleton, hstem]
    · exact hplain
  · exact hplain

/-! ## Payload codes -/

/-- A code that the separators of a payload leave alone. -/
structure PlainCode (code : String) : Prop where
  comma : ',' ∉ code.toList
  colon : ':' ∉ code.toList
  nonblank : trim code ≠ ""

/-- The identity of a travel with payloads tells the payloads. -/
lemma mem_stems_payloads (hne : codes ≠ []) (hplain : ∀ code ∈ codes, PlainCode code)
    (hloc : ∀ l ∈ location, ',' ∉ l.toList) (x : String) : x ∈ stems (canonicalPayload
        (travelOperationLeg (canonicalPayloadKey codes) location destination)) ↔
      x ∈ codes.map canonicalDeviceCode := by
  have hsplit := split_canonicalPayloadKey hne fun code hcode => (hplain code hcode).comma
  have hpiece : ∀ piece ∈ split (canonicalPayloadKey codes) ',',
      ∃ code ∈ codes, canonicalDeviceCode code = piece := fun piece h =>
    mem_map.mp (mem_canonicalPayloadCodes.mp (hsplit ▸ h))
  rw [mem_stems_travel (fun piece h => ?_) (fun piece h => ?_) hloc]
  · rw [hsplit, mem_map_canonicalPayloadCodes]
  · obtain ⟨code, hcode, rfl⟩ := hpiece piece h
    exact not_mem_canonicalDeviceCode colon_toUpper (hplain code hcode).colon
  · obtain ⟨code, hcode, rfl⟩ := hpiece piece h
    exact trim_canonicalDeviceCode_ne_empty (hplain code hcode).nonblank

/-! ## Manifests -/

/-- The text of an entry. -/
abbrev entryText (entry : String × ℤ) : String := toString entry.2 ++ " " ++ entry.1

/-- The pieces of the text of a manifest. -/
def label (manifest : ResourceMap) : List String :=
  manifest.toList.map fun entry => canonicalDeviceCode (toString entry.2 ++ " " ++ entry.1)

lemma toList_toString (h : 0 ≤ quantity) :
    (toString quantity).toList = Nat.toDigits 10 quantity.toNat := by
  obtain ⟨n, rfl⟩ := Int.eq_ofNat_of_zero_le h
  have htext : toString (n : ℤ) = n.repr := rfl
  rw [htext, Nat.repr_eq_ofList_toDigits, String.toList_ofList, Int.toNat_natCast]

lemma digit_of_mem_toString (h : 0 ≤ quantity)
    (hc : c ∈ (toString quantity).toList) : c.isDigit = true := by
  rw [toList_toString h] at hc
  exact Nat.isDigit_of_mem_toDigits (by omega) (by omega) hc

/-- Names whose manifests can be told apart by their text. -/
structure PlainNames (names : List String) : Prop where
  plain : ∀ name ∈ names, PlainCode name
  distinct : ∀ name ∈ names, ∀ name' ∈ names,
    canonicalDeviceCode name = canonicalDeviceCode name' → name = name'

/-- A manifest of these resources, with something in it. -/
structure Stocked (names : List String) (manifest : ResourceMap) : Prop where
  positive : Positive manifest
  names : ∀ resource ∈ manifest, resource ∈ names
  nonempty : manifest ≠ ∅

section Manifest

variable {names : List String} {quantity' : ℤ} {name name' : String}

lemma digit_plain (h : c.isDigit = true) :
    isWhitespace c = false ∧ c.toUpper = c ∧ c ≠ ',' ∧ c ≠ ':' ∧ c ≠ ' ' := by
  have hrange := toNat_of_isDigit h
  have hne : ∀ d : Char, (d.toNat < 48 ∨ 57 < d.toNat) → c ≠ d := by
    rintro d hd rfl
    omega
  have hlower : ¬ c.isLower := by
    simp only [Char.isLower, Bool.and_eq_true, decide_eq_true_eq, ge_iff_le, UInt32.le_iff_toNat_le]
    exact fun hsmall => by have : 97 ≤ c.toNat := hsmall.1; omega
  exact ⟨isWhitespace_of_visible (by omega), Char.toUpper_eq_of_not_isLower hlower,
    hne _ (by decide), hne _ (by decide), hne _ (by decide)⟩

lemma toString_ne_nil (h : 0 ≤ quantity) : (toString quantity).toList ≠ [] := by
  rw [toList_toString h]
  exact Nat.toDigits_ne_nil

lemma toList_entry (hqty : 0 ≤ quantity) (hname : trim name ≠ "") :
    (canonicalDeviceCode (toString quantity ++ " " ++ name)).toList =
      (toString quantity).toList ++ ' ' :: (name.toList.rdropWhile isWhitespace).map Char.toUpper := by
  have hdigits : (toString quantity).toList.map Char.toUpper = (toString quantity).toList := by
    refine (map_congr_left fun c hc => ?_).trans (map_id _)
    exact (digit_plain (digit_of_mem_toString hqty hc)).2.1
  unfold canonicalDeviceCode upper
  rw [String.toList_ofList, toList_trim_append_space
    (fun c hc => (digit_plain (digit_of_mem_toString hqty hc)).1) (toString_ne_nil hqty) hname,
    map_append, map_cons, hdigits]
  rfl

/-- The text of an entry tells the amount and the name. -/
lemma entry_eq (hqty : 0 ≤ quantity) (hqty' : 0 ≤ quantity') (hname : trim name ≠ "")
    (hname' : trim name' ≠ "") (h : canonicalDeviceCode (toString quantity ++ " " ++ name) =
      canonicalDeviceCode (toString quantity' ++ " " ++ name')) :
    quantity = quantity' ∧ canonicalDeviceCode name = canonicalDeviceCode name' := by
  have hlist := congrArg String.toList h
  rw [toList_entry hqty hname, toList_entry hqty' hname'] at hlist
  have hspace : ∀ q : ℤ, 0 ≤ q → ' ' ∉ (toString q).toList := fun q hq hmem =>
    (digit_plain (digit_of_mem_toString hq hmem)).2.2.2.2 rfl
  obtain ⟨hamount, hrest⟩ := eq_of_append_cons (hspace _ hqty) (hspace _ hqty') hlist
  have hsame : quantity = quantity' := by
    have hvalue := congrArg (Nat.ofDigitChars 10 · 0) hamount
    simp only [toList_toString hqty, toList_toString hqty',
      Nat.ofDigitChars_toDigits (b := 10) (by omega) (by omega)] at hvalue
    omega
  refine ⟨hsame, ?_⟩
  -- what is trimmed in front is the same as well
  have hcode : ∀ n : String, trim n ≠ "" → (canonicalDeviceCode n).toList =
      ((n.toList.rdropWhile isWhitespace).map Char.toUpper).dropWhile isWhitespace := by
    intro n hn
    have hsame : isWhitespace ∘ Char.toUpper = isWhitespace := funext isWhitespace_toUpper
    unfold canonicalDeviceCode upper
    rw [String.toList_ofList, toList_trim, dropWhile_map, hsame, dropWhile_rdropWhile (exists_visible hn)]
  apply String.toList_inj.mp
  rw [hcode name hname, hcode name' hname', hrest]

lemma Stocked.entry (h : Stocked names manifest) {entry : String × ℤ}
    (hentry : entry ∈ manifest.toList) : 0 ≤ entry.2 ∧ entry.1 ∈ names := by
  have hget := ExtTreeMap.mem_toList_iff_getElem?_eq_some.mp hentry
  exact ⟨(h.positive _ _ hget).le, h.names _ (OrderedMap.mem_of_getElem?_eq_some hget)⟩

variable (hnames : PlainNames names) (h : Stocked names manifest)

include hnames h

lemma space_mem_label (hx : x ∈ label manifest) : ' ' ∈ x.toList := by
  obtain ⟨entry, hentry, rfl⟩ := mem_map.mp hx
  obtain ⟨hamount, hname⟩ := h.entry hentry
  rw [toList_entry hamount (hnames.plain _ hname).nonblank]
  exact mem_append_cons_self

/-- Different manifests have different texts. -/
lemma label_inj {manifest' : ResourceMap} (h' : Stocked names manifest')
    (heq : ∀ x, x ∈ label manifest ↔ x ∈ label manifest') : manifest = manifest' := by
  have hsub : ∀ {m m' : ResourceMap}, Stocked names m → Stocked names m' →
      (∀ x, x ∈ label m → x ∈ label m') → ∀ (resource : String) (amount : ℤ),
      m[resource]? = some amount → m'[resource]? = some amount := by
    intro m m' hm hm' hle resource amount hget
    have hmem : (resource, amount) ∈ m.toList := ExtTreeMap.mem_toList_iff_getElem?_eq_some.mpr hget
    obtain ⟨entry, hentry, htext⟩ := mem_map.mp (hle _ (mem_map_of_mem hmem))
    obtain ⟨hpos, hname⟩ := hm.entry hmem
    obtain ⟨hpos', hname'⟩ := hm'.entry hentry
    obtain ⟨hamount, hcode⟩ := entry_eq hpos' hpos (hnames.plain _ hname').nonblank
      (hnames.plain _ hname).nonblank htext
    obtain rfl : entry = (resource, amount) :=
      Prod.ext (hnames.distinct _ hname' _ hname hcode) hamount
    exact ExtTreeMap.mem_toList_iff_getElem?_eq_some.mp hentry
  refine ExtTreeMap.ext_getElem? fun resource => ?_
  cases hget : manifest[resource]? with
  | some amount => exact (hsub h h' (fun x => (heq x).mp) resource amount hget).symm
  | none =>
    cases hget' : manifest'[resource]? with
    | none => rfl
    | some amount =>
      rw [hsub h' h (fun x => (heq x).mpr) resource amount hget'] at hget
      cases hget

/-- The identity of a travel with a manifest tells the manifest. -/
lemma mem_stems_manifest (hloc : ∀ l ∈ location, ',' ∉ l.toList) (x : String) :
    x ∈ stems (canonicalPayload (travelOperationLeg (formatResources manifest) location destination)) ↔
      x ∈ label manifest := by
  have hplain : ∀ entry ∈ manifest.toList, 0 ≤ entry.2 ∧ PlainCode entry.1 := fun entry hentry =>
    (h.entry hentry).imp_right (hnames.plain _)
  have hchars : ∀ entry ∈ manifest.toList, ∀ c : Char, (c = ',' ∨ c = ':') →
      c ∉ (entryText entry).toList := by
    intro entry hentry c hc hmem
    obtain ⟨hamount, hcode⟩ := hplain entry hentry
    rw [String.toList_append, String.toList_append, mem_append, mem_append] at hmem
    rcases hmem with (hdigit | hspace) | hname
    · have hno := digit_plain (digit_of_mem_toString hamount hdigit)
      exact hc.elim hno.2.2.1 hno.2.2.2.1
    · rw [show " ".toList = [' '] from rfl, mem_singleton] at hspace
      rw [hspace] at hc
      revert hc
      decide
    · rcases hc with rfl | rfl
      · exact hcode.comma hname
      · exact hcode.colon hname
  have hvisible : ∀ entry ∈ manifest.toList, trim (entryText entry) ≠ "" := by
    intro entry hentry hempty
    refine (hplain entry hentry).2.nonblank (trim_eq_empty_iff.mpr fun c hc => ?_)
    refine trim_eq_empty_iff.mp hempty c ?_
    rw [String.toList_append]
    exact mem_append_right _ hc
  -- the pieces have a space in front, except for the first one
  obtain ⟨entry, rest, hlist⟩ : ∃ entry rest, manifest.toList = entry :: rest := by
    refine exists_cons_of_ne_nil fun hnil => h.nonempty ?_
    exact ExtTreeMap.toList_eq_nil_iff.mp hnil
  have hsplit : split (formatResources manifest) ',' = (entryText entry) ::
        (rest.map entryText).map (String.singleton ' ' ++ ·) := by
    unfold formatResources
    rw [hlist, map_cons]
    refine split_intercalate_pair (by decide) fun piece hpiece => ?_
    rw [← map_cons (f := entryText), ← hlist] at hpiece
    obtain ⟨e, he, rfl⟩ := mem_map.mp hpiece
    exact hchars e he ',' (.inl rfl)
  have htrim : ∀ text, trim (String.singleton ' ' ++ text) = trim text :=
    trim_singleton_append (by decide)
  have hpieces : ∀ piece ∈ split (formatResources manifest) ',', ':' ∉ piece.toList ∧ trim piece ≠ "" := by
    rw [hlist] at hchars hvisible
    rw [hsplit]
    refine forall_mem_cons.mpr ⟨⟨hchars entry mem_cons_self ':' (.inr rfl), hvisible entry mem_cons_self⟩,
      fun piece hpiece => ?_⟩
    obtain ⟨text, htext, rfl⟩ := mem_map.mp hpiece
    obtain ⟨e, he, rfl⟩ := mem_map.mp htext
    have he := mem_cons_of_mem entry he
    rw [htrim, String.toList_append, String.toList_singleton, singleton_append, mem_cons, not_or]
    exact ⟨⟨by decide, hchars e he ':' (.inr rfl)⟩, hvisible e he⟩
  rw [mem_stems_travel _ _ hloc]
  · unfold label
    rw [hsplit, hlist, map_cons, map_cons, map_map, map_map]
    have hsame : (canonicalDeviceCode ∘ (String.singleton ' ' ++ ·)) ∘
        entryText =
        fun e => canonicalDeviceCode (entryText e) := by
      funext e
      show canonicalDeviceCode (String.singleton ' ' ++ _) = _
      unfold canonicalDeviceCode
      rw [htrim]
    rw [hsame]
  · exact fun piece hpiece => (hpieces piece hpiece).1
  · exact fun piece hpiece => (hpieces piece hpiece).2

end Manifest

/-! ## Identities -/

/-- The length of a component in eight bytes, the lowest first, and its text. -/
def nameBytes (component : String) : List UInt8 :=
  ((List.range 8).map fun i => UInt8.ofNat (component.utf8ByteSize / 256 ^ i)) ++
    component.toByteArray.data.toList

namespace OperationId

variable (id : OperationId)

def components : List String := [id.action, id.target, id.destination, id.payload]

/-- Each length fits into a `u64`, as that of every string does. -/
def Fits : Prop := ∀ component ∈ id.components, component.utf8ByteSize < 256 ^ 8
deriving Decidable

/-- The identity as it is sent; `newV5` is `Uuid::new_v5`. -/
def uuid {α : Type} (newV5 : String → List UInt8 → α) : α :=
  newV5 id.space (id.components.flatMap nameBytes)

end OperationId

/-- The length tells where a component ends. -/
lemma nameBytes_inj {t : String} {rest rest' : List UInt8} (hs : s.utf8ByteSize < 256 ^ 8)
    (ht : t.utf8ByteSize < 256 ^ 8) (h : nameBytes s ++ rest = nameBytes t ++ rest') :
    s = t ∧ rest = rest' := by
  unfold nameBytes at h
  rw [append_assoc, append_assoc] at h
  obtain ⟨hsizes, htail⟩ := append_inj h (by simp)
  have hmod : ∀ k ≤ 8, s.utf8ByteSize % 256 ^ k = t.utf8ByteSize % 256 ^ k := by
    intro k hk
    induction k with
    | zero => rw [pow_zero, Nat.mod_one, Nat.mod_one]
    | succ k ih =>
      have hbyte := congrArg UInt8.toNat (map_inj_left.mp hsizes k (mem_range.mpr hk))
      rw [UInt8.toNat_ofNat', UInt8.toNat_ofNat'] at hbyte
      rw [Nat.mod_pow_succ, Nat.mod_pow_succ, ih (by omega), hbyte]
  have hlen := hmod 8 le_rfl
  rw [Nat.mod_eq_of_lt hs, Nat.mod_eq_of_lt ht] at hlen
  obtain ⟨htext, hrest⟩ := append_inj htail hlen
  exact ⟨String.toByteArray_inj.mp (ByteArray.ext (Array.toList_inj.mp htext)), hrest⟩

lemma flatMap_nameBytes_inj {xs ys : List String} (hlen : xs.length = ys.length)
    (hx : ∀ x ∈ xs, x.utf8ByteSize < 256 ^ 8) (hy : ∀ y ∈ ys, y.utf8ByteSize < 256 ^ 8)
    (h : xs.flatMap nameBytes = ys.flatMap nameBytes) : xs = ys := by
  induction xs generalizing ys with
  | nil => exact (eq_nil_of_length_eq_zero hlen.symm).symm
  | cons x xs ih =>
    cases ys with
    | nil => cases hlen
    | cons y ys =>
      rw [forall_mem_cons] at hx hy
      obtain ⟨rfl, hrest⟩ := nameBytes_inj hx.1 hy.1 h
      rw [ih (Nat.succ.inj hlen) hx.2 hy.2 hrest]

lemma OperationId.uuid_eq_iff {α : Type} {newV5 : String → List UInt8 → α} {id id' : OperationId}
    (hfits : id.Fits) (hfits' : id'.Fits) (hspace : id'.space = id.space)
    (hinj : Function.Injective (newV5 id.space)) :
    id.uuid newV5 = id'.uuid newV5 ↔ id.components = id'.components := by
  have hlen : id.components.length = id'.components.length := rfl
  unfold uuid
  rw [hspace, hinj.eq_iff]
  exact ⟨flatMap_nameBytes_inj hlen hfits hfits', fun h => by rw [h]⟩

/-- If `Uuid::new_v5` has no collisions, an identifier stands for one operation. -/
lemma OperationId.eq_of_uuid_eq {α : Type} {newV5 : String → List UInt8 → α} {id id' : OperationId}
    (hinj : Function.Injective (Function.uncurry newV5)) (hfits : id.Fits) (hfits' : id'.Fits)
    (h : id.uuid newV5 = id'.uuid newV5) : id = id' := by
  have hpair : (id.space, id.components.flatMap nameBytes) =
      (id'.space, id'.components.flatMap nameBytes) := hinj h
  have hspace : id'.space = id.space := (congrArg Prod.fst hpair).symm
  have hname : Function.Injective (newV5 id.space) := fun x y hxy =>
    congrArg Prod.snd (hinj (show Function.uncurry newV5 (id.space, x) =
      Function.uncurry newV5 (id.space, y) from hxy))
  have hparts := (uuid_eq_iff hfits hfits' hspace hname).mp h
  simp only [components, cons.injEq, and_true] at hparts
  obtain ⟨haction, htarget, hdestination, hpayload⟩ := hparts
  exact OperationId.ext hspace.symm haction htarget hdestination hpayload

/-- Only which codes are in the list matters. -/
lemma canonicalPayloadCodes_eq_iff : canonicalPayloadCodes codes = canonicalPayloadCodes codes' ↔
      ∀ x, x ∈ codes.map canonicalDeviceCode ↔ x ∈ codes'.map canonicalDeviceCode := by
  constructor
  · intro h x
    rw [← mem_canonicalPayloadCodes, h, mem_canonicalPayloadCodes]
  · intro h
    have hperm : (codes.map canonicalDeviceCode).dedup ~ (codes'.map canonicalDeviceCode).dedup := by
      refine (perm_ext_iff_of_nodup (nodup_dedup _) (nodup_dedup _)).mpr fun x => ?_
      rw [mem_dedup, mem_dedup, h]
    exact (((perm_insertionSort _ _).trans hperm).trans (perm_insertionSort _ _).symm).eq_of_pairwise'
      (pairwise_insertionSort _ _) (pairwise_insertionSort _ _)

section

variable (hcodes : ∀ code ∈ codes, trim code ≠ "" ∧ ',' ∉ code.toList)

include hcodes

/-- The codes can be read from their key. -/
lemma canonicalPayloadCodes_of_key :
    canonicalPayloadCodes codes = if trim (canonicalPayloadKey codes) = "" then []
      else split (canonicalPayloadKey codes) ',' := by
  by_cases hne : codes = []
  · rw [hne]
    rfl
  · have hsplit := split_canonicalPayloadKey hne fun code hcode => (hcodes code hcode).2
    rw [if_neg (trim_ne_empty_of_split fun piece hpiece => ?_), hsplit]
    rw [hsplit] at hpiece
    obtain ⟨code, hcode, rfl⟩ := mem_map.mp (mem_canonicalPayloadCodes.mp hpiece)
    exact trim_canonicalDeviceCode_ne_empty (hcodes code hcode).1

lemma canonicalPayload_key :
    canonicalPayload (canonicalPayloadKey codes) = canonicalPayloadKey codes := by
  have hread := canonicalPayloadCodes_of_key hcodes
  unfold canonicalPayload
  split
  · next hblank =>
    rw [if_pos hblank] at hread
    rw [canonicalPayloadKey, hread]
    rfl
  · next hblank =>
    rw [if_neg hblank] at hread
    rw [← hread, canonicalPayloadKey, canonicalPayloadKey]
    congr 1
    exact canonicalPayloadCodes_eq_iff.mpr fun x => mem_map_canonicalPayloadCodes

/-- Operations on payloads have one identity only if they are the same. -/
theorem managedOperationId_eq_iff {α : Type} {newV5 : String → List UInt8 → α} {space : String}
    (hinj : Function.Injective (newV5 space)) {options : DeliveryOptions}
    (hspace : options.operationNamespace = some space)
    (hcodes' : ∀ code ∈ codes', trim code ≠ "" ∧ ',' ∉ code.toList)
    {action action' target target' place place' : String}
    (hfits : ∀ id ∈ managedOperationId options action target place (canonicalPayloadKey codes), id.Fits)
    (hfits' : ∀ id ∈ managedOperationId options action' target' place' (canonicalPayloadKey codes'),
      id.Fits) :
    (managedOperationId options action target place (canonicalPayloadKey codes)).map (·.uuid newV5) =
      (managedOperationId options action' target' place' (canonicalPayloadKey codes')).map
        (·.uuid newV5) ↔
    lower (trim action) = lower (trim action') ∧ upper (trim target) = upper (trim target') ∧
      upper (trim place) = upper (trim place') ∧ ∀ x,
        x ∈ codes.map (fun code => upper (trim code)) ↔ x ∈ codes'.map fun code => upper (trim code) := by
  have hkeys : canonicalPayloadKey codes = canonicalPayloadKey codes' ↔
      ∀ x, x ∈ codes.map canonicalDeviceCode ↔ x ∈ codes'.map canonicalDeviceCode := by
    rw [← canonicalPayloadCodes_eq_iff]
    refine ⟨fun h => ?_, fun h => by rw [canonicalPayloadKey, h, canonicalPayloadKey]⟩
    rw [canonicalPayloadCodes_of_key hcodes, h, ← canonicalPayloadCodes_of_key hcodes']
  simp only [managedOperationId, hspace, canonicalPayload_key hcodes, canonicalPayload_key hcodes',
    Option.map_some, Option.mem_def, Option.some.injEq, forall_eq'] at hfits hfits' ⊢
  rw [OperationId.uuid_eq_iff hfits hfits' rfl hinj]
  simp only [OperationId.components, cons.injEq, and_true, hkeys]
  rfl

end

/-- One payload more is another operation, under an identifier that is the whole name. -/
theorem managedOperationId_eq_iff_crates : (managedOperationId ⟨1, false, some "run"⟩ "attach" "tug" ""
      (canonicalPayloadKey ["a"])).map (·.uuid fun _ name => name) ≠
    (managedOperationId ⟨1, false, some "run"⟩ "attach" "tug" ""
      (canonicalPayloadKey ["b ", "A"])).map (·.uuid fun _ name => name) := by
  have hfits : ∀ codes ∈ [["a"], ["b ", "A"]], ∀ id ∈ managedOperationId ⟨1, false, some "run"⟩ "attach"
      "tug" "" (canonicalPayloadKey codes), id.Fits := by
    decide
  intro h
  have hcodes := ((managedOperationId_eq_iff (by decide) Function.injective_id rfl (by decide)
    (hfits _ mem_cons_self) (hfits _ (mem_cons_of_mem _ mem_cons_self))).mp h).2.2.2 "B"
  revert hcodes
  decide

end Replicant.Transport
