import Mathlib.Algebra.Group.Int.Defs
import Mathlib.Data.Rat.Defs

/-!
# JSON values

The `serde_json` values of intents, evidence plans and event payloads, with the accessors of the
managed client and its containment test. An object lists its fields in the order of their keys.
-/

namespace Replicant.Managed

/-- An integer and a float are different numbers, also when their values agree. -/
inductive Number where
  | int (value : ℤ)
  | float (value : ℚ)
deriving DecidableEq

inductive Json where
  | null
  | bool (value : Bool)
  | number (value : Number)
  | string (value : String)
  | array (items : List Json)
  | object (fields : List (String × Json))

namespace Json

/-! ## Equality -/

mutual
def beq : Json → Json → Bool
  | null, null => true
  | bool a, bool b => a == b
  | number a, number b => a == b
  | string a, string b => a == b
  | array a, array b => beqItems a b
  | object a, object b => beqFields a b
  | _, _ => false
def beqItems : List Json → List Json → Bool
  | [], [] => true
  | a :: as, b :: bs => beq a b && beqItems as bs
  | _, _ => false
def beqFields : List (String × Json) → List (String × Json) → Bool
  | [], [] => true
  | (k, a) :: as, (l, b) :: bs => k == l && beq a b && beqFields as bs
  | _, _ => false
end

mutual
lemma beq_iff (a b : Json) : beq a b = true ↔ a = b := by
  cases a with
  | array as => cases b <;> simp [beq, beqItems_iff as]
  | object as => cases b <;> simp [beq, beqFields_iff as]
  | _ => cases b <;> simp [beq]
lemma beqItems_iff (as bs : List Json) : beqItems as bs = true ↔ as = bs := by
  cases as with
  | nil => cases bs <;> simp [beqItems]
  | cons a as => cases bs <;> simp [beqItems, beq_iff a, beqItems_iff as]
lemma beqFields_iff (as bs : List (String × Json)) : beqFields as bs = true ↔ as = bs := by
  cases as with
  | nil => cases bs <;> simp [beqFields]
  | cons a as =>
    obtain ⟨k, a⟩ := a
    cases bs with
    | nil => simp [beqFields]
    | cons b bs =>
      obtain ⟨l, b⟩ := b
      simp [beqFields, beq_iff a, beqFields_iff as]
end

instance : DecidableEq Json := fun a b => decidable_of_iff _ (beq_iff a b)

/-! ## Reading -/

/-- The value of a field of a map. -/
def getField (fields : List (String × Json)) (key : String) : Option Json :=
  (fields.find? fun field => field.1 = key).map (·.2)

/-- `Value::get` with a text; anything but an object has no fields. -/
def get (key : String) : Json → Option Json
  | object fields => getField fields key
  | _ => none

def asBool : Json → Option Bool
  | bool value => some value
  | _ => none

def asStr : Json → Option String
  | string value => some value
  | _ => none

/-- `as_i64`. -/
def asInt : Json → Option ℤ
  | number (.int value) => if -2 ^ 63 ≤ value ∧ value < 2 ^ 63 then some value else none
  | _ => none

def asArray : Json → Option (List Json)
  | array items => some items
  | _ => none

def asObject : Json → Option (List (String × Json))
  | object fields => some fields
  | _ => none

/-- `Map::insert`. -/
def insertField (key : String) (value : Json) : List (String × Json) → List (String × Json)
  | [] => [(key, value)]
  | (k, v) :: rest =>
    if key < k then (key, value) :: (k, v) :: rest
    else if key = k then (key, value) :: rest
    else (k, v) :: insertField key value rest

/-! ## Containment -/

mutual
def valueContains : Json → Json → Bool
  | _, null => true
  | object actual, object predicate => containsFields actual predicate
  | array actual, array predicate => containsItems actual predicate
  | actual, predicate => actual = predicate
def containsFields (actual : List (String × Json)) : List (String × Json) → Bool
  | [] => true
  | (key, value) :: rest =>
    (getField actual key).any (fun actual => valueContains actual value)
      && containsFields actual rest
def containsItems (actual : List Json) : List Json → Bool
  | [] => true
  | value :: rest =>
    actual.any (fun actual => valueContains actual value) && containsItems actual rest
end

variable {a b c : Json}

lemma containsFields_iff {actual predicate : List (String × Json)} :
    containsFields actual predicate = true ↔ ∀ field ∈ predicate,
      ∃ value ∈ getField actual field.1, valueContains value field.2 = true := by
  induction predicate with
  | nil => simp [containsFields]
  | cons field rest ih => simp [containsFields, ih, Option.any_eq_true]

lemma containsItems_iff {actual predicate : List Json} : containsItems actual predicate = true ↔
    ∀ value ∈ predicate, ∃ item ∈ actual, valueContains item value = true := by
  induction predicate with
  | nil => simp [containsItems]
  | cons value rest ih => simp [containsItems, ih]

/-- Every object has each key once, as a map has. -/
inductive Keyed : Json → Prop where
  | scalar {a : Json} (items : a.asArray = none) (fields : a.asObject = none) : Keyed a
  | array {items : List Json} (h : ∀ item ∈ items, Keyed item) : Keyed (array items)
  | object {fields : List (String × Json)} (keys : (fields.map Prod.fst).Nodup)
      (h : ∀ field ∈ fields, Keyed field.2) : Keyed (object fields)

/-- The fields of objects and the elements of arrays are still there, and each may have grown. -/
inductive Grows : Json → Json → Prop where
  | same (a : Json) (items : a.asArray = none) (fields : a.asObject = none) : Grows a a
  | array {items items' : List Json} (grown : Json → Json) (kept : ∀ item ∈ items, grown item ∈ items')
      (h : ∀ item ∈ items, Grows item (grown item)) : Grows (array items) (array items')
  | object {fields fields' : List (String × Json)} (grown : String × Json → Json)
      (kept : ∀ field ∈ fields, getField fields' field.1 = some (grown field))
      (h : ∀ field ∈ fields, Grows field.2 (grown field)) : Grows (object fields) (object fields')

lemma getField_of_mem {fields : List (String × Json)} (h : (fields.map Prod.fst).Nodup)
    {field : String × Json} (hmem : field ∈ fields) : getField fields field.1 = some field.2 := by
  induction fields with
  | nil => cases hmem
  | cons first rest ih =>
    obtain ⟨hnew, hrest⟩ := List.nodup_cons.mp h
    rcases List.mem_cons.mp hmem with rfl | hlater
    · simp [getField]
    · have hne : first.1 ≠ field.1 := fun heq => hnew (heq ▸ List.mem_map_of_mem hlater)
      simpa [getField, List.find?_cons_of_neg, hne] using ih hrest hlater

lemma mem_of_getField {fields : List (String × Json)} {key : String} {value : Json}
    (h : value ∈ getField fields key) : (key, value) ∈ fields := by
  obtain ⟨field, hfind, rfl⟩ := Option.map_eq_some_iff.mp h
  have hkey := List.find?_some hfind
  rw [decide_eq_true_eq] at hkey
  exact hkey ▸ List.mem_of_find?_eq_some hfind

lemma Keyed.grows (h : a.Keyed) : Grows a a := by
  induction h with
  | scalar items fields => exact .same _ items fields
  | array _ ih => exact .array id (fun _ hitem => hitem) ih
  | object keys _ ih => exact .object Prod.snd (fun _ hfield => getField_of_mem keys hfield) ih

lemma valueContains_scalar (items : b.asArray = none) (fields : b.asObject = none) :
    valueContains a b = true ↔ b = null ∨ a = b := by
  cases b with
  | null => simp [valueContains]
  | array => cases items
  | object => cases fields
  | _ => cases a <;> simp [valueContains]

lemma valueContains_array {items : List Json} : valueContains a (array items) = true ↔
    ∃ actual, a = array actual ∧ containsItems actual items = true := by
  cases a <;> simp [valueContains]

lemma valueContains_object {fields : List (String × Json)} : valueContains a (object fields) = true ↔
    ∃ actual, a = object actual ∧ containsFields actual fields = true := by
  cases a <;> simp [valueContains]

lemma Grows.contains (h : Grows a b) : valueContains b a = true := by
  induction h with
  | same a items fields => exact (valueContains_scalar items fields).mpr (.inr rfl)
  | array grown kept _ ih =>
    exact containsItems_iff.mpr fun item hitem => ⟨grown item, kept item hitem, ih item hitem⟩
  | object grown kept _ ih =>
    exact containsFields_iff.mpr fun field hfield => ⟨grown field, kept field hfield, ih field hfield⟩

lemma valueContains_trans {a b c : Json} (hab : valueContains a b = true)
    (hbc : valueContains b c = true) : valueContains a c = true := by
  match c with
  | array items =>
    obtain ⟨between, rfl, hbc⟩ := valueContains_array.mp hbc
    obtain ⟨actual, rfl, hab⟩ := valueContains_array.mp hab
    refine containsItems_iff.mpr fun value hvalue => ?_
    obtain ⟨item, hitem, hlow⟩ := containsItems_iff.mp hbc value hvalue
    obtain ⟨item', hitem', hhigh⟩ := containsItems_iff.mp hab item hitem
    exact ⟨item', hitem', valueContains_trans hhigh hlow⟩
  | object fields =>
    obtain ⟨between, rfl, hbc⟩ := valueContains_object.mp hbc
    obtain ⟨actual, rfl, hab⟩ := valueContains_object.mp hab
    refine containsFields_iff.mpr fun field hfield => ?_
    obtain ⟨value, hget, hlow⟩ := containsFields_iff.mp hbc field hfield
    obtain ⟨value', hget', hhigh⟩ := containsFields_iff.mp hab _ (mem_of_getField hget)
    have hsmaller : sizeOf field.2 < sizeOf fields :=
      Nat.lt_trans (by cases field; simp only [Prod.mk.sizeOf_spec]; omega) (List.sizeOf_lt_of_mem hfield)
    exact ⟨value', hget', valueContains_trans hhigh hlow⟩
  | null => cases a <;> rfl
  | bool _ | number _ | string _ =>
    rcases (valueContains_scalar rfl rfl).mp hbc with hnull | rfl
    · cases hnull
    · exact hab
termination_by c

/-- Containment is reflexive and transitive, and what contains a value still does after it has
grown. -/
theorem valueContains_preorder : (∀ a : Json, a.Keyed → valueContains a a = true) ∧
    (∀ a b c : Json, valueContains a b = true → valueContains b c = true →
      valueContains a c = true) ∧
    ∀ a b p : Json, Grows a b → valueContains a p = true → valueContains b p = true :=
  ⟨fun _ h => h.grows.contains, fun _ _ _ => valueContains_trans,
    fun _ _ _ h => valueContains_trans h.contains⟩

end Json

end Replicant.Managed
