import Replicant.Transport.Labels

/-!
# One leg of a delivery

A device that stands still and is sent to a place stands there afterwards, and one identity was used at
most. If the identity is new, no identity is ever used twice.
-/

namespace Replicant.Transport

open Lib Lib.Text Contract

/-- The device stands still, at a place whose name has no comma. -/
def Rested (key : String) (w : World) : Prop :=
  (w.devices key).travel = none ∧ ∀ l ∈ (w.devices key).location, ',' ∉ l.toList

/-- The device has been sent to the target once, from `last`. -/
structure Heading (key target : String) (last : Option String) (w : World) : Prop where
  plain : ∀ l ∈ last, ',' ∉ l.toList
  place : (∃ travel, (w.devices key).travel = some travel ∧ travel.arrival = target) ∨
    (w.devices key).travel = none ∧
      ((w.devices key).location = some target ∨ (w.devices key).location = last)

/-- No travel of the device to the place had these names. -/
def Unused (key destination : String) (names : List String) (w : World) : Prop :=
  ∀ id ∈ w.travels, id.target = key → id.destination = destination →
    ¬ ∀ x, x ∈ stems id.payload ↔ x ∈ names

/-- The identity is of a travel of the device to the place with these names. -/
structure IsLeg (key destination : String) (names : List String) (id : OperationId) : Prop where
  target : id.target = key
  destination : id.destination = destination
  names : ∀ x, x ∈ stems id.payload ↔ x ∈ names

/-- Where a leg can be read from the identity of a travel. -/
def Legible (leg target : String) (names : List String) : Prop :=
  ∀ location : Option String, (∀ l ∈ location, ',' ∉ l.toList) → ∀ x,
    x ∈ stems (canonicalPayload (travelOperationLeg leg location target)) ↔ x ∈ names

section Drift

variable {key target : String} {last : Option String} {w w' : World}

lemma Rested.drifts (h : Rested key w) (hdrift : (w.devices key).Drifts (w'.devices key)) :
    Rested key w' := by
  obtain ⟨htravel, hloc⟩ := hdrift.rests h.1
  refine ⟨htravel, ?_⟩
  rw [hloc]
  exact h.2

variable (h : Heading key target last w)

include h

lemma Heading.drifts (hdrift : (w.devices key).Drifts (w'.devices key)) :
    Heading key target last w' := by
  refine ⟨h.plain, ?_⟩
  rcases h.place with hgoing | hstands
  · obtain ⟨travel, htravel, harrival⟩ := hgoing
    rcases hdrift.arrives travel htravel with hstill | hthere
    · exact .inl ⟨travel, hstill, harrival⟩
    · exact .inr ⟨hthere.1, .inl (by rw [hthere.2, harrival])⟩
  · obtain ⟨htravel, hloc⟩ := hdrift.rests hstands.1
    rw [htravel, hloc]
    exact .inr ⟨rfl, hstands.2⟩

/-- A device that was sent once makes no stop of its own. -/
lemma Heading.localStop : localStop (w.devices key) target last = none := by
  have hsame : ∀ location, sameLocation location location = true := fun location =>
    decide_eq_true rfl
  unfold Transport.localStop
  rcases h.place with hgoing | hstands
  · obtain ⟨travel, htravel, -⟩ := hgoing
    rw [htravel]
    rfl
  · rw [hstands.1, Option.isNone_none, if_pos rfl]
    rcases hstands.2 with hthere | hlast
    · simp [hthere, hsame]
    · rw [hlast]
      cases last with
      | none => rfl
      | some => simp [hsame]

lemma Heading.rested (htgt : ',' ∉ target.toList) (hstill : (w.devices key).travel = none) :
    Rested key w := by
  refine ⟨hstill, fun l hl => ?_⟩
  rcases h.place with hgoing | hstands
  · obtain ⟨travel, htravel, -⟩ := hgoing
    rw [hstill] at htravel
    cases htravel
  · rcases hstands.2 with hthere | hlast
    · rw [hthere] at hl
      rwa [← Option.some.inj hl]
    · rw [hlast] at hl
      exact h.plain l hl

end Drift

section Leg

variable {C : Contract World} {fresh : Prop} {options : DeliveryOptions} {key code target leg : String}
  {names : List String}

/-- The contract allows every travel of the device; with `fresh`, if its identity is new. -/
def AllowsTravel (C : Contract World) (fresh : Prop) (options : DeliveryOptions) (key : String) :
    Prop :=
  ∀ (w : World) (destination leg : String) (location : Option String) (P : World → Prop), C.inv w →
    (fresh → ∀ id, managedOperationId options "travel" key destination
      (travelOperationLeg leg location destination) = some id → id ∉ w.travels) →
    (∀ w', w.Departs key destination (managedOperationId options "travel" key destination
      (travelOperationLeg leg location destination)) w' → P w') →
    Allows C options key destination leg location P w

/-- Bringing a device to a place takes `P` to `Q`, where `Q` may know of one more travel. -/
lemma keeps_leg (hkey : key = canonicalDeviceCode code)
    (hdrift : ∀ w w', C.rely w w' → (w.devices key).Drifts (w'.devices key))
    (htravels : ∀ w w', C.rely w w' → ∀ id ∈ w'.travels, id.target = key → id ∈ w.travels)
    (hallow : AllowsTravel C fresh options key)
    (hlegible : fresh → Legible leg (canonicalDeviceCode target) names)
    (hplain : fresh → ',' ∉ target.toList) {P Q : World → Prop}
    (hP : ∀ w w', C.rely w w' → C.inv w' → P w → P w')
    (hQ : ∀ w w', C.rely w w' → C.inv w' → Q w → Q w') (hsame : ∀ w, P w → Q w)
    (hsent : ∀ w w' id, Q w → w.Departs key (canonicalDeviceCode target) id w' →
      (fresh → ∀ id' ∈ id, IsLeg key (canonicalDeviceCode target) names id') → Q w')
    {w : World} (hstart : P w) (hrested : fresh → Rested key w)
    (hunused : fresh → (w.devices key).standsAt target = false →
      Unused key (canonicalDeviceCode target) names w) :
    C.Keeps (fun _ w => (w.devices key).standsAt target = true ∧ Q w ∧ (fresh → Rested key w))
      (ensureDeviceAt options code target leg) w := by
  have hcanon : canonicalDeviceCode key = key := by
    rw [hkey, canonicalDeviceCode_canonicalDeviceCode]
  -- every identity of this leg tells the device, the place and the names
  have hisLeg : fresh → ∀ location : Option String, (∀ l ∈ location, ',' ∉ l.toList) → ∀ id,
      managedOperationId options "travel" key (canonicalDeviceCode target)
        (travelOperationLeg leg location (canonicalDeviceCode target)) = some id →
      IsLeg key (canonicalDeviceCode target) names id := by
    intro hf location hloc id hid
    obtain ⟨space, -, rfl⟩ := Option.map_eq_some_iff.mp hid
    exact ⟨hcanon, canonicalDeviceCode_canonicalDeviceCode target, hlegible hf location hloc⟩
  refine Keeps.mono (keeps_ensureDeviceAt hdrift hkey
    (P := fun w => P w ∧ (fresh → Rested key w ∧ ((w.devices key).standsAt target = false →
      Unused key (canonicalDeviceCode target) names w)))
    (Q := fun last w => Q w ∧ (fresh → Heading key (canonicalDeviceCode target) last w))
    ?_ ?_ ?_ ?_ ?_ ⟨hstart, fun hf => ⟨hrested hf, hunused hf⟩⟩) ?_
  · rintro w w' hrely hinv ⟨hb, hf⟩
    refine ⟨hP w w' hrely hinv hb, fun hfresh => ⟨(hf hfresh).1.drifts (hdrift w w' hrely), ?_⟩⟩
    intro hstands id hid htgt hdest
    refine (hf hfresh).2 ?_ id (htravels w w' hrely id hid htgt) htgt hdest
    by_contra hthere
    rw [(hdrift w w' hrely).standsAt (Bool.not_eq_false _ ▸ hthere)] at hstands
    cases hstands
  · rintro last w w' hrely hinv ⟨hb, hf⟩
    exact ⟨hQ w w' hrely hinv hb, fun hfresh => (hf hfresh).drifts (hdrift w w' hrely)⟩
  · rintro w - ⟨hb, hf⟩ htravel
    exact ⟨hsame w hb, fun hfresh => absurd (hf hfresh).1.1 htravel⟩
  · rintro w hinv ⟨hb, hf⟩ htravel hstands
    refine hallow w _ leg _ _ hinv (fun hfresh id hid hmem => ?_) fun w' hdep => ⟨?_, ?_⟩
    · have hleg := hisLeg hfresh _ (hf hfresh).1.2 id hid
      exact (hf hfresh).2 hstands id hmem hleg.target hleg.destination hleg.names
    · exact hsent w w' _ (hsame w hb) hdep fun hfresh id hid =>
        hisLeg hfresh _ (hf hfresh).1.2 id hid
    · intro hfresh
      refine ⟨(hf hfresh).1.2, ?_⟩
      rcases hdep.device with hstill | hgone
      · rw [hstill]
        exact .inr ⟨htravel, .inr rfl⟩
      · rw [hgone]
        exact .inl ⟨_, rfl, rfl⟩
  · rintro last location w hinv ⟨hb, hf⟩ hstop
    have hnot : ¬ fresh := by
      intro hfresh
      rw [(hf hfresh).localStop] at hstop
      cases hstop
    refine hallow w _ leg _ _ hinv (fun hfresh => absurd hfresh hnot) fun w' hdep => ⟨?_, ?_⟩
    · exact hsent w w' _ hb hdep fun hfresh => absurd hfresh hnot
    · exact fun hfresh => absurd hfresh hnot
  · rintro _ w - ⟨hstands, hor⟩
    rcases hor with hp | hq
    · exact ⟨hstands, hsame w hp.1, fun hfresh => (hp.2 hfresh).1⟩
    · obtain ⟨last, hb, hf⟩ := hq
      refine ⟨hstands, hb, fun hfresh => (hf hfresh).rested ?_ (travel_eq_none_of_standsAt hstands)⟩
      exact not_mem_canonicalDeviceCode comma_toUpper (hplain hfresh)

end Leg

end Replicant.Transport
