import Replicant.Lib.OrderedMap

/-!
# Manifests

`take_manifest` fills the hull in the order of the names, `subtract_resources` takes the share out of
what remains, and `merge_resources` adds it to what was delivered.
-/

namespace Replicant.Transport

open Lib Lib.OrderedMap Std List ExtTreeMap Option

abbrev ResourceMap := ExtTreeMap String ℤ

/-- A sum as `i64` keeps it, which wraps around. -/
def wrapI64 (n : ℤ) : ℤ := n.bmod (2 ^ 64)

structure ResourcePickup where
  location : String
  resources : ResourceMap
deriving DecidableEq

inductive TransportError where
  | client (message : String)
  | invalid (message : String)
  | notFound (message : String)
  | payloadUnavailable (message : String)
  | staleResourcePickup (message : String)
  | timedOut (message : String)
  | operation (message : String)
deriving DecidableEq

/-- One resource of the loop: the share so far, and what is free in the hull. -/
def takeResource (share : ResourceMap × ℤ) (resource : String) (quantity : ℤ) : ResourceMap × ℤ :=
  if share.2 = 0 then share
  else
    let amount := min quantity share.2
    if 0 < amount then (share.1.insert resource amount, share.2 - amount) else share

/-- Once the hull is full, the loop is left, and the other resources add nothing. -/
def takeManifest (resources : ResourceMap) (capacity : ℤ) : ResourceMap :=
  (resources.foldl takeResource (∅, max capacity 0)).1

def subtractResources (target subtraction : ResourceMap) : ResourceMap :=
  subtraction.foldl (fun target resource amount =>
    target.alter resource fun quantity =>
      quantity.bind fun quantity => if quantity - amount = 0 then none else some (quantity - amount))
    target

def mergeResources (target addition : ResourceMap) : ResourceMap :=
  addition.foldl (fun target resource amount =>
    target.alter resource fun quantity => some (wrapI64 (quantity.getD 0 + amount))) target

def formatResources (resources : ResourceMap) : String :=
  ", ".intercalate (resources.toList.map fun entry => toString entry.2 ++ " " ++ entry.1)

/-! ## Merging and subtracting -/

variable {resources manifest target addition : ResourceMap} {resource : String} {capacity : ℤ}

/-- An `i64` does not wrap. -/
lemma wrapI64_eq {n : ℤ} (hnonneg : 0 ≤ n) (hlt : n < 2 ^ 63) : wrapI64 n = n := by
  unfold wrapI64
  rw [Int.bmod_eq_of_le_mul_two] <;> omega

/-- Merging is done resource by resource. -/
lemma getElem?_mergeResources : (mergeResources target addition)[resource]? =
    addition[resource]?.elim target[resource]? fun amount =>
      some (wrapI64 (target[resource]?.getD 0 + amount)) :=
  getElem?_foldl_alter (fun amount quantity => some (wrapI64 (quantity.getD 0 + amount))) addition
    target resource

section

variable (htgt : Positive target) (haddition : Positive addition)

include htgt haddition

/-- Positive amounts are added as long as the sum fits. -/
lemma getD_mergeResources (hfits : target.getD resource 0 + addition.getD resource 0 < 2 ^ 63) :
    (mergeResources target addition).getD resource 0 =
      target.getD resource 0 + addition.getD resource 0 := by
  have hold := getD_nonneg htgt resource
  have hnew := getD_nonneg haddition resource
  simp only [getD_eq_getD_getElem?, getElem?_mergeResources] at *
  cases hadd : addition[resource]? with
  | none => simp
  | some amount =>
    rw [hadd] at hfits hnew
    exact wrapI64_eq (Int.add_nonneg hold hnew) hfits

/-- Sums that fit stay positive. -/
lemma positive_mergeResources
    (hfits : ∀ resource, target.getD resource 0 + addition.getD resource 0 < 2 ^ 63) :
    Positive (mergeResources target addition) := by
  intro resource value h
  have hsum := getD_mergeResources htgt haddition (hfits resource)
  rw [getD_eq_getD_getElem?, h, getD_some] at hsum
  rw [getElem?_mergeResources] at h
  cases hadd : addition[resource]? with
  | none =>
    rw [hadd] at h
    exact htgt resource value h
  | some amount =>
    have hamount := haddition resource amount hadd
    have hold := getD_nonneg htgt resource
    rw [getD_eq_getD_getElem? (t := addition), hadd, getD_some] at hsum
    omega

end

/-- What becomes zero is removed; a resource that is not there is not subtracted from. -/
lemma getElem?_subtractResources : (subtractResources target addition)[resource]? =
    addition[resource]?.elim target[resource]? fun amount =>
      target[resource]?.bind fun quantity =>
        if quantity - amount = 0 then none else some (quantity - amount) :=
  getElem?_foldl_alter (fun amount quantity => quantity.bind fun quantity =>
    if quantity - amount = 0 then none else some (quantity - amount)) addition target resource

@[simp] lemma subtractResources_empty : subtractResources target ∅ = target := by
  refine ext_getElem? fun resource => ?_
  rfl

/-- Subtracting adds no resource. -/
lemma mem_of_mem_subtractResources (h : resource ∈ subtractResources target addition) :
    resource ∈ target := by
  rw [mem_iff_isSome_getElem?, getElem?_subtractResources] at h
  rw [mem_iff_isSome_getElem?]
  cases htgt : target[resource]? with
  | some => rfl
  | none =>
    rw [htgt] at h
    cases hadd : addition[resource]? with
    | none | some =>
      rw [hadd] at h
      exact h

/-- A share is positive, and at most what is there. -/
structure Share (manifest resources : ResourceMap) : Prop where
  positive : Positive manifest
  le : ∀ (resource : String) amount, manifest[resource]? = some amount →
    ∃ quantity, resources[resource]? = some quantity ∧ amount ≤ quantity

section

variable (h : Share manifest resources)

include h

/-- A share has only resources that are there. -/
lemma Share.mem (hmem : resource ∈ manifest) : resource ∈ resources := by
  obtain ⟨amount, hamount⟩ := isSome_iff_exists.mp (mem_iff_isSome_getElem?.mp hmem)
  obtain ⟨quantity, hqty, -⟩ := h.le resource amount hamount
  exact mem_of_getElem?_eq_some hqty

/-- A resource that is missing counts as zero on both sides. -/
lemma Share.getD_le (hress : Positive resources)
    (resource : String) : manifest.getD resource 0 ≤ resources.getD resource 0 := by
  have hnonneg := getD_nonneg hress resource
  rw [getD_eq_getD_getElem?] at hnonneg
  rw [getD_eq_getD_getElem?, getD_eq_getD_getElem?]
  cases hamount : manifest[resource]? with
  | none => exact hnonneg
  | some amount =>
    obtain ⟨quantity, hqty, hle⟩ := h.le resource amount hamount
    rw [hqty]
    exact hle

/-- Taking a share out subtracts it exactly. -/
lemma Share.getD_subtractResources (resource : String) :
    (subtractResources resources manifest).getD resource 0 =
      resources.getD resource 0 - manifest.getD resource 0 := by
  simp only [getD_eq_getD_getElem?, getElem?_subtractResources]
  cases hamount : manifest[resource]? with
  | none => simp
  | some amount =>
    obtain ⟨quantity, hqty, -⟩ := h.le resource amount hamount
    rw [hqty]
    simp only [elim_some, bind_some, getD_some]
    split
    · simp only [getD_none]
      omega
    · rfl

/-- What is left after a share is positive again. -/
lemma Share.positive_subtractResources
    (hress : Positive resources) : Positive (subtractResources resources manifest) := by
  intro resource value hvalue
  rw [getElem?_subtractResources] at hvalue
  cases hamount : manifest[resource]? with
  | none =>
    rw [hamount] at hvalue
    exact hress resource value hvalue
  | some amount =>
    obtain ⟨quantity, hqty, hle⟩ := h.le resource amount hamount
    rw [hamount, hqty] at hvalue
    simp only [elim_some, bind_some] at hvalue
    split at hvalue
    · cases hvalue
    · have heq := some.inj hvalue
      omega

/-- A share and what it leaves add up to what was there. -/
lemma Share.total_subtractResources :
    total (subtractResources resources manifest) = total resources - total manifest :=
  total_sub h.getD_subtractResources

end

/-! ## Taking a share -/

/-- The state of the loop after the resources `seen`. -/
structure Taken (capacity : ℤ) (seen : List (String × ℤ)) (share : ResourceMap × ℤ) : Prop where
  positive : Positive share.1
  le : ∀ (resource : String) amount, share.1[resource]? = some amount →
    ∃ quantity, (resource, quantity) ∈ seen ∧ amount ≤ quantity
  free_nonneg : 0 ≤ share.2
  total_add : total share.1 + share.2 = max capacity 0
  /-- What was left out was left out because the hull is full. -/
  full : share.2 = 0 ∨ ∀ entry ∈ seen, entry.1 ∈ share.1

/-- Before the loop the hull is empty. -/
lemma taken_nil (capacity : ℤ) : Taken capacity [] (∅, max capacity 0) where
  positive := positive_empty
  le := fun resource amount h => by
    cases h
  free_nonneg := Int.le_max_right capacity 0
  total_add := by
    rw [total_empty, Int.zero_add]
  full := .inr nofun

/-- A resource that is new to the loop fills what is free, or is taken as a whole. -/
lemma Taken.step {seen : List (String × ℤ)} {share : ResourceMap × ℤ} {quantity : ℤ}
    (h : Taken capacity seen share) (hnew : ∀ entry ∈ seen, entry.1 ≠ resource)
    (hqty : 0 < quantity) :
    Taken capacity (seen ++ [(resource, quantity)]) (takeResource share resource quantity) := by
  have hgrow : ∀ (r : String) amount, share.1[r]? = some amount →
      ∃ quantity', (r, quantity') ∈ seen ++ [(resource, quantity)] ∧ amount ≤ quantity' := by
    intro r amount hget
    obtain ⟨quantity', hmem, hle⟩ := h.le r amount hget
    exact ⟨quantity', mem_append_left _ hmem, hle⟩
  unfold takeResource
  split
  · exact ⟨h.positive, hgrow, h.free_nonneg, h.total_add, .inl ‹_›⟩
  · have hfree : 0 < share.2 := by
      have := h.free_nonneg
      omega
    have hamount : 0 < min quantity share.2 := by omega
    simp only [if_pos hamount]
    -- the share has only what was seen before
    have habsent : resource ∉ share.1 := by
      intro hmem
      obtain ⟨amount, hget⟩ := isSome_iff_exists.mp (mem_iff_isSome_getElem?.mp hmem)
      obtain ⟨q, hq, -⟩ := h.le resource amount hget
      exact hnew _ hq rfl
    refine ⟨positive_insert h.positive hamount, fun r amount hget => ?_, ?_, ?_, ?_⟩
    · rw [ExtTreeMap.getElem?_insert] at hget
      split at hget
      · have heq : resource = r := Std.compare_eq_iff_eq.mp ‹_›
        refine ⟨quantity, ?_, ?_⟩
        · rw [heq]
          exact mem_append_cons_self
        · rw [← some.inj hget]
          exact Int.min_le_left quantity share.2
      · exact hgrow r amount hget
    · omega
    · rw [total_insert habsent, ← h.total_add]
      omega
    · rcases h.full with hzero | hall
      · omega
      · right
        intro entry hentry
        rw [mem_insert]
        rcases mem_append.mp hentry with hold | hlast
        · exact .inr (hall entry hold)
        · rw [mem_singleton.mp hlast]
          exact .inl compare_self

variable (h : Positive resources)

include h

/-- The loop sees every resource once. -/
lemma taken_takeManifest (capacity : ℤ) :
    ∃ free, Taken capacity resources.toList (takeManifest resources capacity, free) := by
  refine ⟨(resources.foldl takeResource (∅, max capacity 0)).2, ?_⟩
  unfold takeManifest
  rw [foldl_eq_foldl_toList]
  refine foldl_pairwise distinct_keys_toList (taken_nil capacity) fun seen entry share hentry hnew h' =>
    h'.step (fun e he heq => hnew e he ?_)
      (h entry.1 entry.2 (mem_toList_iff_getElem?_eq_some.mp hentry))
  rw [heq, compare_self]

/-- A manifest is a share of what it was taken from. -/
lemma share_takeManifest (capacity : ℤ) : Share (takeManifest resources capacity) resources := by
  obtain ⟨free, htaken⟩ := taken_takeManifest h capacity
  refine ⟨htaken.positive, fun resource amount hget => ?_⟩
  obtain ⟨quantity, hmem, hle⟩ := htaken.le resource amount hget
  exact ⟨quantity, mem_toList_iff_getElem?_eq_some.mp hmem, hle⟩

/-- A manifest fits into the hull. -/
lemma total_takeManifest_le (hcap : 0 < capacity) :
    total (takeManifest resources capacity) ≤ capacity := by
  obtain ⟨free, htaken⟩ := taken_takeManifest h capacity
  have htotal : total (takeManifest resources capacity) + free = max capacity 0 := htaken.total_add
  have hfree : 0 ≤ free := htaken.free_nonneg
  omega

/-- A hull with room takes something, if anything is left. -/
lemma takeManifest_eq_empty (hcap : 0 < capacity) (hempty : takeManifest resources capacity = ∅) :
    resources = ∅ := by
  obtain ⟨free, htaken⟩ := taken_takeManifest h capacity
  rw [hempty] at htaken
  refine eq_empty_iff_forall_not_mem.mpr fun resource hmem => ?_
  obtain ⟨quantity, hget⟩ := isSome_iff_exists.mp (mem_iff_isSome_getElem?.mp hmem)
  rcases htaken.full with hzero | hall
  · have htotal : total (∅ : ResourceMap) + free = max capacity 0 := htaken.total_add
    rw [total_empty] at htotal
    omega
  · exact not_mem_empty (hall _ (mem_toList_iff_getElem?_eq_some.mpr hget))

end Replicant.Transport
