import Replicant.Transport.Travel

/-!
# A device is where it was sent

`ensure_device_at` returns only when the device stands at the destination. What else it does is to
submit travel commands for that device; a contract under which these commands are allowed is kept.
-/

namespace Replicant.Transport

open Lib Lib.Text Contract List Option

variable {code location key destination leg : String} {options : DeliveryOptions}
  {last : Option String} {C : Contract World} {w : World}

/-! ## Codes and locations -/

@[simp] lemma canonicalDeviceCode_canonicalDeviceCode (code : String) :
    canonicalDeviceCode (canonicalDeviceCode code) = canonicalDeviceCode code := by
  unfold canonicalDeviceCode
  rw [trim_upper, upper_upper, trim_trim]

lemma canonical_of_mem {codes : List String} (h : key ∈ codes.map canonicalDeviceCode) :
    canonicalDeviceCode key = key := by
  obtain ⟨code, -, rfl⟩ := mem_map.mp h
  exact canonicalDeviceCode_canonicalDeviceCode code

lemma lower_trim_canonicalDeviceCode (location : String) :
    lower (trim (canonicalDeviceCode location)) = lower (trim location) := by
  unfold canonicalDeviceCode
  rw [trim_upper, lower_upper, trim_trim]

@[simp] lemma sameLocation_canonicalDeviceCode (location destination : String) :
    sameLocation location (canonicalDeviceCode destination) = sameLocation location destination := by
  unfold sameLocation EqIgnoreCase
  rw [lower_trim_canonicalDeviceCode]

@[simp] lemma standsAt_canonicalDeviceCode (device : Device) (destination : String) :
    device.standsAt (canonicalDeviceCode destination) = device.standsAt destination := by
  simp only [Device.standsAt, sameLocation_canonicalDeviceCode]

/-! ## Devices by index -/

/-- The device of the loop at this index. -/
def keyAt (codes : List String) (index : ℕ) : String := canonicalDeviceCode (codes.getD index "")

section KeyAt

variable {codes : List String} {i j : ℕ}

lemma keyAt_mem (h : i < codes.length) : keyAt codes i ∈ codes.map canonicalDeviceCode := by
  unfold keyAt
  rw [getD_eq_getElem _ _ h]
  exact mem_map_of_mem (getElem_mem h)

lemma exists_keyAt (h : key ∈ codes.map canonicalDeviceCode) :
    ∃ index < codes.length, keyAt codes index = key := by
  obtain ⟨code, hcode, rfl⟩ := mem_map.mp h
  obtain ⟨index, hindex, rfl⟩ := getElem_of_mem hcode
  refine ⟨index, hindex, ?_⟩
  unfold keyAt
  rw [getD_eq_getElem]

lemma keyAt_ne (h : (codes.map canonicalDeviceCode).Nodup) (hi : i < codes.length)
    (hj : j < codes.length) (hne : i ≠ j) : keyAt codes i ≠ keyAt codes j := by
  intro heq
  unfold keyAt at heq
  rw [getD_eq_getElem _ _ hi, getD_eq_getElem _ _ hj] at heq
  have hi' : i < (codes.map canonicalDeviceCode).length := by rwa [length_map]
  have hj' : j < (codes.map canonicalDeviceCode).length := by rwa [length_map]
  have hsame : (codes.map canonicalDeviceCode)[i] = (codes.map canonicalDeviceCode)[j] := by
    rw [getElem_map, getElem_map, heq]
  exact hne (h.getElem_inj_iff.mp hsame)

end KeyAt

namespace World

lemma devices_setDevice_self (w : World) (device : Device) (code : String) :
    (w.setDevice code device).devices code = device := Function.update_self _ _ _

lemma devices_setDevice_of_ne (w : World) (device : Device) {x : String} (h : x ≠ code) :
    (w.setDevice code device).devices x = w.devices x := Function.update_of_ne h _ _

/-- A travel command was submitted for the device. -/
structure Departs (key destination : String) (id : Option OperationId) (w w' : World) : Prop where
  others : ∀ x, x ≠ key → w'.devices x = w.devices x
  device : w'.devices key = w.devices key ∨ w'.devices key =
    { w.devices key with travel := some ⟨some destination, some destination, destination⟩ }
  travels : w'.travels = id.toList ++ w.travels
  remaining : w'.remaining = w.remaining
  originDelivered : w'.originDelivered = w.originDelivered
  commands : w'.commands = w.commands
  custody : w'.custody = w.custody

lemma departs_submitTravel (w : World) (options : DeliveryOptions) (key destination leg : String) :
    w.Departs key destination (managedOperationId options "travel" key destination leg)
      (w.submitTravel options key destination leg) := by
  have hsent : ∀ v : World, v.devices = w.devices → v.remaining = w.remaining →
      v.originDelivered = w.originDelivered → v.commands = w.commands → v.custody = w.custody →
      v.travels = (managedOperationId options "travel" key destination leg).toList ++ w.travels →
      w.Departs key destination (managedOperationId options "travel" key destination leg)
        (v.depart key destination) := by
    intro v hdevs hrem horig hcommands hcust htravels
    refine ⟨fun x hx => ?_, .inr ?_, htravels, hrem, horig, hcommands, hcust⟩
    · rw [← hdevs]
      exact devices_setDevice_of_ne _ _ hx
    · rw [← hdevs]
      exact devices_setDevice_self _ _ _
  unfold submitTravel submit
  generalize managedOperationId options "travel" key destination leg = id at hsent ⊢
  cases id with
  | none => exact hsent _ rfl rfl rfl rfl rfl rfl
  | some =>
    dsimp only
    split
    · exact ⟨fun _ _ => rfl, .inl rfl, rfl, rfl, rfl, rfl, rfl⟩
    · exact hsent _ rfl rfl rfl rfl rfl rfl

namespace Departs

variable {w' : World} {id : Option OperationId}

section

variable (h : w.Departs key destination id w')

include h

/-- Apart from the devices and the journal, only the list of travels changes. -/
lemma exists_eq : ∃ devices journal, w' = { w with
      devices := devices, journal := journal, travels := id.toList ++ w.travels } := by
  obtain ⟨devices, journal, remaining, originDelivered, travels, commands, custody⟩ := w'
  obtain ⟨-, -, rfl, rfl, rfl, rfl, rfl⟩ := h
  exact ⟨devices, journal, rfl⟩

lemma attached (x : String) : (w'.devices x).attachedTo = (w.devices x).attachedTo ∧
    (w'.devices x).attachedDevices = (w.devices x).attachedDevices := by
  by_cases hx : x = key
  · rw [hx]
    rcases h.device with hsame | hgone
    · rw [hsame]
      exact ⟨rfl, rfl⟩
    · rw [hgone]
      exact ⟨rfl, rfl⟩
  · rw [h.others x hx]
    exact ⟨rfl, rfl⟩

lemma nodup (hnew : ∀ id', id = some id' → id' ∉ w.travels)
    (hnodup : w.travels.Nodup) : w'.travels.Nodup := by
  rw [h.travels]
  cases id with
  | none => exact hnodup
  | some id => exact nodup_cons.mpr ⟨hnew id rfl, hnodup⟩

end

lemma target (hkey : canonicalDeviceCode key = key)
    (h : w.Departs key destination (managedOperationId options "travel" key destination leg) w')
    {id : OperationId} (hid : id ∈ w'.travels) : id ∈ w.travels ∨ id.target = key := by
  rw [h.travels, mem_append, mem_toList] at hid
  refine hid.symm.imp_right fun hnew => ?_
  obtain ⟨space, -, rfl⟩ := map_eq_some_iff.mp hnew
  exact hkey

end Departs

end World

/-! ## Devices nobody commands -/

/-- What may happen to a device that nobody commands: its travel ends. -/
structure Device.Drifts (d d' : Device) : Prop where
  attachedTo : d'.attachedTo = d.attachedTo
  attachedDevices : d'.attachedDevices = d.attachedDevices
  rests : d.travel = none → d'.travel = none ∧ d'.location = d.location
  arrives : ∀ travel, d.travel = some travel →
    d'.travel = some travel ∨ d'.travel = none ∧ d'.location = some travel.arrival

namespace Device.Drifts

variable {d d' d'' : Device}

lemma refl (d : Device) : d.Drifts d :=
  ⟨rfl, rfl, fun h => ⟨h, rfl⟩, fun _ h => .inl h⟩

lemma trans (h : d.Drifts d') (h' : d'.Drifts d'') : d.Drifts d'' where
  attachedTo := h'.attachedTo.trans h.attachedTo
  attachedDevices := h'.attachedDevices.trans h.attachedDevices
  rests hnone := by
    obtain ⟨htravel, hloc⟩ := h.rests hnone
    obtain ⟨htravel', hloc'⟩ := h'.rests htravel
    exact ⟨htravel', hloc'.trans hloc⟩
  arrives travel hsome := by
    rcases h.arrives travel hsome with htravel | harrived
    · exact h'.arrives travel htravel
    · obtain ⟨htravel', hloc'⟩ := h'.rests harrived.1
      exact .inr ⟨htravel', hloc'.trans harrived.2⟩

lemma standsAt (h : d.Drifts d') (hstands : d.standsAt location = true) :
    d'.standsAt location = true := by
  unfold Device.standsAt at hstands ⊢
  rw [Bool.and_eq_true, isNone_iff_eq_none] at hstands ⊢
  obtain ⟨htravel, hloc⟩ := h.rests hstands.1
  rw [hloc]
  exact ⟨htravel, hstands.2⟩

lemma localStop (h : d.Drifts d') (hstop : localStop d destination last = some location) :
    localStop d' destination last = some location := by
  unfold Transport.localStop at hstop ⊢
  split at hstop
  · rename_i hnone
    obtain ⟨htravel, hloc⟩ := h.rests (isNone_iff_eq_none.mp hnone)
    rw [htravel, hloc]
    exact hstop
  · cases hstop

end Device.Drifts

lemma travel_eq_none_of_standsAt {device : Device}
    (h : device.standsAt location = true) : device.travel = none := by
  unfold Device.standsAt at h
  rw [Bool.and_eq_true, isNone_iff_eq_none] at h
  exact h.1

/-! ## The sections -/

section Sections

variable {α : Type} {post : α → World → Prop}

lemma keeps_getDevice {k : Device → Program α} (h : ∀ w', C.rely w w' → C.inv w' →
      C.Keeps post (k (w'.devices (canonicalDeviceCode code))) w') :
    C.Keeps post (getDevice code >>= k) w := keeps_ask_bind h

lemma keeps_dispatchTransportTravel {location : Option String} {k : Unit → Program α}
    (h : ∀ w', C.rely w w' → C.inv w' →
      C.inv (w'.submitTravel options code destination (travelOperationLeg leg location destination)) ∧
      C.guar w'
        (w'.submitTravel options code destination (travelOperationLeg leg location destination)) ∧
      C.Keeps post (k ())
        (w'.submitTravel options code destination (travelOperationLeg leg location destination))) :
    C.Keeps post (dispatchTransportTravel options code destination location leg >>= k) w :=
  keeps_put_bind h

end Sections

/-! ## Bringing a device to a place -/

section Ensure

variable {leg : String}

/-- The contract allows the command, after which `P` holds. -/
def Allows (C : Contract World) (options : DeliveryOptions) (key destination leg : String)
    (location : Option String) (P : World → Prop) (w : World) : Prop :=
  let next := w.submitTravel options key destination (travelOperationLeg leg location destination)
  C.inv next ∧ C.guar w next ∧ P next

variable (hdrift : ∀ w w', C.rely w w' → (w.devices key).Drifts (w'.devices key))

include hdrift

variable {Q : Option String → World → Prop}

/-- The loop: it returns when the device stands at the destination, and it submits further commands
from the places `localStop` finds. -/
lemma keeps_awaitArrival (hkey : canonicalDeviceCode key = key)
    (hQ : ∀ last w w', C.rely w w' → C.inv w' → Q last w → Q last w')
    (hagain : ∀ last location w, C.inv w → Q last w →
      localStop (w.devices key) destination last = some location →
      Allows C options key destination leg (some location) (Q (some location)) w)
    (polls : ℕ) {continuations : ℕ} (hstart : Q last w) :
    C.Keeps (fun _ w => (w.devices key).standsAt destination = true ∧ ∃ last, Q last w)
      (awaitArrival options key destination leg polls last continuations) w := by
  induction polls generalizing last continuations w with
  | zero => exact keeps_fail
  | succ polls ih =>
    refine keeps_getDevice fun w₁ hrely₁ hinv₁ => ?_
    have hQ₁ := hQ last w w₁ hrely₁ hinv₁ hstart
    rw [hkey]
    split
    · rename_i hstands
      refine keeps_ret fun w₂ hrely₂ hinv₂ => ?_
      exact ⟨(hdrift w₁ w₂ hrely₂).standsAt hstands, last, hQ last w₁ w₂ hrely₂ hinv₂ hQ₁⟩
    · split
      · rename_i location hstop
        split
        · exact keeps_fail
        · refine keeps_dispatchTransportTravel fun w₂ hrely₂ hinv₂ => ?_
          have hQ₂ := hQ last w₁ w₂ hrely₂ hinv₂ hQ₁
          have hsent := hagain last location w₂ hinv₂ hQ₂ ((hdrift w₁ w₂ hrely₂).localStop hstop)
          exact ⟨hsent.1, hsent.2.1, ih hsent.2.2⟩
      · exact ih hQ₁

variable {P : World → Prop}

/-- The device comes to stand at the destination. `P` allows the first command, and `Q` those that
follow from other places in the system. -/
lemma keeps_ensureDeviceAt (hkey : key = canonicalDeviceCode code)
    (hP : ∀ w w', C.rely w w' → C.inv w' → P w → P w')
    (hQ : ∀ last w w', C.rely w w' → C.inv w' → Q last w → Q last w')
    (htravelling : ∀ w, C.inv w → P w → (w.devices key).travel ≠ none → Q none w)
    (hfirst : ∀ w, C.inv w → P w → (w.devices key).travel = none →
      (w.devices key).standsAt destination = false →
      Allows C options key (canonicalDeviceCode destination) leg (w.devices key).location
        (Q (w.devices key).location) w) (hagain : ∀ last location w, C.inv w → Q last w →
      localStop (w.devices key) (canonicalDeviceCode destination) last = some location →
      Allows C options key (canonicalDeviceCode destination) leg (some location)
        (Q (some location)) w) (hstart : P w) :
    C.Keeps (fun _ w => (w.devices key).standsAt destination = true ∧ (P w ∨ ∃ last, Q last w))
      (ensureDeviceAt options code destination leg) w := by
  have hidem : canonicalDeviceCode key = key := by
    rw [hkey, canonicalDeviceCode_canonicalDeviceCode]
  have hwait : ∀ polls {last continuations w}, Q last w →
      C.Keeps (fun _ w => (w.devices key).standsAt destination = true ∧ (P w ∨ ∃ last, Q last w))
        (awaitArrival options key (canonicalDeviceCode destination) leg polls last continuations)
        w := by
    intro polls last continuations w hlast
    refine (keeps_awaitArrival hdrift hidem hQ hagain polls hlast).mono fun _ w _ hdone => ?_
    rw [standsAt_canonicalDeviceCode] at hdone
    exact ⟨hdone.1, .inr hdone.2⟩
  refine keeps_getDevice fun w₁ hrely₁ hinv₁ => ?_
  have hP₁ := hP w w₁ hrely₁ hinv₁ hstart
  rw [canonicalDeviceCode_canonicalDeviceCode, ← hkey, standsAt_canonicalDeviceCode]
  split
  · rename_i hstands
    refine keeps_ret fun w₂ hrely₂ hinv₂ => ?_
    exact ⟨(hdrift w₁ w₂ hrely₂).standsAt hstands, .inl (hP w₁ w₂ hrely₂ hinv₂ hP₁)⟩
  · rename_i hstands
    split
    · rename_i travel htravel
      split
      · exact hwait _ (htravelling w₁ hinv₁ hP₁ (by rw [htravel]; exact some_ne_none _))
      · exact keeps_fail
    · rename_i htravel
      refine keeps_dispatchTransportTravel fun w₂ hrely₂ hinv₂ => ?_
      obtain ⟨htravel₂, hloc₂⟩ := (hdrift w₁ w₂ hrely₂).rests htravel
      have hstands₂ : (w₂.devices key).standsAt destination = false := by
        unfold Device.standsAt at hstands ⊢
        rw [htravel₂, hloc₂]
        rw [htravel] at hstands
        exact Bool.eq_false_iff.mpr hstands
      have hsent := hfirst w₂ hinv₂ (hP w₁ w₂ hrely₂ hinv₂ hP₁) htravel₂ hstands₂
      rw [hloc₂] at hsent
      exact ⟨hsent.1, hsent.2.1, hwait _ hsent.2.2⟩

/-- A transport that stands still is left alone. One that travels is brought to an end of the
delivery; then `P` has to allow every command. -/
lemma keeps_settleTransportBetween {origin : String} (hkey : key = canonicalDeviceCode code)
    (hP : ∀ w w', C.rely w w' → C.inv w' → P w → P w')
    (hfree : ∀ w₀, C.inv w₀ → P w₀ → (w₀.devices key).travel ≠ none →
      ∀ target location w, C.inv w → P w →
        Allows C options key (canonicalDeviceCode target) leg location P w) (hstart : P w) :
    C.Keeps (fun _ w => P w) (settleTransportBetween options code origin destination leg) w := by
  refine keeps_getDevice fun w₁ hrely₁ hinv₁ => ?_
  have hP₁ := hP w w₁ hrely₁ hinv₁ hstart
  rw [← hkey]
  split
  · exact keeps_ret fun w₂ hrely₂ hinv₂ => hP w₁ w₂ hrely₂ hinv₂ hP₁
  · rename_i travel htravel
    have hallow := hfree w₁ hinv₁ hP₁ (by rw [htravel]; exact some_ne_none _)
    have hensure : ∀ target, C.Keeps (fun _ w => P w) (ensureDeviceAt options code target leg) w₁ := by
      intro target
      refine (keeps_ensureDeviceAt hdrift hkey hP (fun _ => hP)
        (fun _ _ h _ => h) (fun w hinv h _ _ => hallow target _ w hinv h)
        (fun _ location w hinv h _ => hallow target (some location) w hinv h) hP₁).mono ?_
      intro _ w _ hdone
      exact hdone.2.elim id fun ⟨_, h⟩ => h
    split
    · exact keeps_fail
    · exact keeps_ite (fun _ => hensure origin) fun _ =>
        keeps_ite (fun _ => hensure destination) fun _ => keeps_fail

end Ensure

end Replicant.Transport
