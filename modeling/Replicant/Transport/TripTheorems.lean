import Replicant.Transport.Attachments
import Replicant.Transport.Legs

/-!
# The trips of a carrier

Each carrier is moved by its own loop only, and a payload is touched by the loop that reserved it. So
the loops are verified one by one, under contracts that say this. With `fresh`, they also never
repeat the identity of a travel; that is shown for plain codes and carriers that stand still at
first.
-/

namespace Replicant.Transport

open Lib Lib.Text Contract Std List

variable {w : World} {place : String} {pending : List String}

variable {P : World → Prop} {id : Option OperationId}

/-! ## The contract of a loop -/

/-- What the other loops and the server do, for the loop of the carrier `key`. -/
structure Beside (key : String) (w w' : World) : Prop where
  device : (w.devices key).Drifts (w'.devices key)
  held : ∀ x, w'.custody x = .held key ↔ w.custody x = .held key
  heldDevice : ∀ x, w.custody x = .held key → (w.devices x).Drifts (w'.devices x)
  remaining : ∀ payload ∈ w'.remaining, payload ∈ w.remaining
  delivered : ∀ x, w.custody x = .delivered → w'.custody x = .delivered
  travels : ∀ id ∈ w'.travels, id.target = key → id ∈ w.travels

lemma Beside.refl (key : String) (w : World) : Beside key w w :=
  ⟨.refl _, fun _ => Iff.rfl, fun _ _ => .refl _, fun _ h => h, fun _ h => h, fun _ h _ => h⟩

lemma Beside.trans {key : String} {w' w'' : World} (h : Beside key w w')
    (h' : Beside key w' w'') : Beside key w w'' where
  device := h.device.trans h'.device
  held x := (h'.held x).trans (h.held x)
  heldDevice x hx := (h.heldDevice x hx).trans (h'.heldDevice x ((h.held x).mpr hx))
  remaining payload hp := h.remaining payload (h'.remaining payload hp)
  delivered x hx := h'.delivered x (h.delivered x hx)
  travels id hid htgt := h.travels id (h'.travels id hid htgt) htgt

/-- What the loop of the carrier `key` does. -/
structure ByCarrier (key : String) (w w' : World) : Prop where
  devices : ∀ x, x ≠ key → w.custody x ≠ .held key → w'.devices x = w.devices x
  held : ∀ x carrier, carrier ≠ key → (w'.custody x = .held carrier ↔ w.custody x = .held carrier)
  remaining : ∀ payload ∈ w'.remaining, payload ∈ w.remaining
  delivered : ∀ x, w.custody x = .delivered → w'.custody x = .delivered
  travels : ∀ id ∈ w'.travels, id.target ≠ key → id ∈ w.travels

lemma ByCarrier.refl (key : String) (w : World) : ByCarrier key w w :=
  ⟨fun _ _ _ => rfl, fun _ _ _ => Iff.rfl, fun _ h => h, fun _ h => h, fun _ h _ => h⟩

namespace PayloadJob

variable (job : PayloadJob) (fresh : Prop) (w₀ : World) (delivered : List String) (pool : List PayloadDevice)

def contract (key : String) : Contract World where
  inv := job.Shares fresh w₀ delivered pool
  rely := Beside key
  guar := ByCarrier key
  rely_refl := Beside.refl key
  rely_trans := Beside.trans
  guar_refl := ByCarrier.refl key

variable {job fresh w₀ delivered pool} {key code : String} {w' : World} {selected : List String}

/-- What one loop does is what the others rely on. -/
lemma beside_of_byCarrier (hdist : job.Distinct) {other : String}
    (hkey : key ∈ job.carrierKeys) (hother : other ∈ job.carrierKeys) (hne : key ≠ other)
    (hinv : job.Shares fresh w₀ delivered pool w) (h : ByCarrier key w w') : Beside other w w' where
  device := by
    have hfree : w.custody other ≠ .held key := fun hheld =>
      hdist.apart other (hinv.held other key hheld).1 hother
    rw [h.devices other hne.symm hfree]
    exact .refl _
  held x := h.held x other hne.symm
  heldDevice x hx := by
    have hpay := (hinv.held x other hx).1
    have hxkey : x ≠ key := fun heq => hdist.apart x hpay (heq ▸ hkey)
    have hfree : w.custody x ≠ .held key := by
      rw [hx]
      exact fun heq => hne (Custody.held.inj heq).symm
    rw [h.devices x hxkey hfree]
    exact .refl _
  remaining := h.remaining
  delivered := h.delivered
  travels id hid htgt := h.travels id hid (by rw [htgt]; exact hne.symm)

lemma beside_of_drifts (key : String) (h : w.Drifts w') : Beside key w w' := by
  have hdevs := h.devices
  obtain ⟨devices, journal, rfl⟩ := h.exists_eq
  exact { Beside.refl key w with device := hdevs key, heldDevice := fun x _ => hdevs x }

lemma AtDestination.drifts {d d' : Device} (h : job.AtDestination d) (hdrift : d.Drifts d') :
    job.AtDestination d' :=
  ⟨hdrift.standsAt h.1, hdrift.attachedTo.trans h.2⟩

lemma Sound.drifts (hw : job.Sound fresh w₀ w) (h : w.Drifts w') : job.Sound fresh w₀ w' := by
  have hdevs := h.devices
  obtain ⟨devices, journal, rfl⟩ := h.exists_eq
  exact { hw with
    consistent := hw.consistent.of_same (fun x => (hdevs x).attachedTo)
      fun x => (hdevs x).attachedDevices
    others := fun x hpay hcar => (hw.others x hpay hcar).trans (hdevs x) }

lemma Settled.drifts (hw : job.Settled delivered w) (h : w.Drifts w') :
    job.Settled delivered w' := by
  intro code hcode
  obtain ⟨hpay, hat, hfree⟩ := hw code hcode
  rw [h.custody]
  exact ⟨hpay, hat.drifts (h.devices _), hfree⟩

/-- The lists of the origin and the custody are as before, and payloads that nobody holds stay at the
destination. -/
lemma Shares.of_sound (hw : job.Shares fresh w₀ delivered pool w) (hsound : job.Sound fresh w₀ w')
    (hcust : w'.custody = w.custody) (hrem : w'.remaining = w.remaining)
    (horig : w'.originDelivered = w.originDelivered) (hstays : ∀ code ∈ job.payloadCodes,
      (∀ carrier, w.custody (canonicalDeviceCode code) ≠ .held carrier) →
      job.AtDestination (w.devices (canonicalDeviceCode code)) →
      job.AtDestination (w'.devices (canonicalDeviceCode code))) :
    job.Shares fresh w₀ delivered pool w' := by
  obtain ⟨devices, journal, remaining, originDelivered, travels, commands, custody⟩ := w'
  subst hcust hrem horig
  refine { hw with toSound := hsound, settled := fun code hcode => ?_, arrived := fun code hcode => ?_ }
  · obtain ⟨hpay, hat, hfree⟩ := hw.settled code hcode
    exact ⟨hpay, hstays code hpay hfree hat, hfree⟩
  · obtain ⟨hpay, hat, hdone⟩ := hw.arrived code hcode
    refine ⟨hpay, hstays code hpay (fun carrier hheld => ?_) hat, hdone⟩
    cases hdone.symm.trans hheld

lemma Shares.drifts (hw : job.Shares fresh w₀ delivered pool w) (h : w.Drifts w') :
    job.Shares fresh w₀ delivered pool w' :=
  hw.of_sound (hw.toSound.drifts h) h.custody h.remaining h.originDelivered
    fun _ _ _ hat => hat.drifts (h.devices _)

/-! ## Sections of a loop -/

section

variable (hdist : job.Distinct) (hkey : key ∈ job.carrierKeys)

include hdist hkey

/-- A section that leaves the lists of the origin alone, and touches no device but the carrier and what
it holds, keeps the invariant if the attachments and the commands are in order. -/
lemma Shares.of_devices (hw : job.Shares fresh w₀ delivered pool w)
    (hdevs : ∀ x, x ≠ key → w.custody x ≠ .held key → w'.devices x = w.devices x)
    (hcons : w'.Consistent) (hcommands : ∀ command ∈ w'.commands, job.CommandOk command)
    (hfresh : fresh → w'.travels.Nodup)
    (htravels : ∀ id ∈ w'.travels, id ∈ w.travels ∨ id.target = key)
    (hcust : w'.custody = w.custody) (hrem : w'.remaining = w.remaining)
    (horig : w'.originDelivered = w.originDelivered) : job.Shares fresh w₀ delivered pool w' := by
  refine hw.of_sound ⟨hcons, hcommands, hcust ▸ hw.held, hfresh, fun x hpay hcar => ?_,
    fun id hid => ?_⟩ hcust hrem horig fun code hcode hfree hat => ?_
  · rw [hdevs x (fun heq => hcar (heq ▸ hkey)) fun hheld => hpay (hw.held x key hheld).1]
    exact hw.others x hpay hcar
  · exact (htravels id hid).elim (hw.travels id) fun hown => .inr (hown ▸ hkey)
  · rw [hdevs _ (fun heq => ?_) (hfree key)]
    · exact hat
    · exact hdist.apart _ (mem_payloadKeys hcode) (heq ▸ hkey)

/-- A travel of the carrier is allowed, if its identity is new. -/
lemma Shares.allows (hw : job.Shares fresh w₀ delivered pool w) {options : DeliveryOptions}
    {destination leg : String} {location : Option String}
    (hfresh : fresh → ∀ id, managedOperationId options "travel" key destination
      (travelOperationLeg leg location destination) = some id → id ∉ w.travels)
    (hP : ∀ w', w.Departs key destination (managedOperationId options "travel" key destination
      (travelOperationLeg leg location destination)) w' → P w') :
    Allows (job.contract fresh w₀ delivered pool key) options key destination leg location P w := by
  have hdep := w.departs_submitTravel options key destination
    (travelOperationLeg leg location destination)
  unfold Allows
  generalize w.submitTravel options key destination (travelOperationLeg leg location destination) = w'
    at hdep
  have htravels : ∀ id ∈ w'.travels, id ∈ w.travels ∨ id.target = key := fun id hid =>
    hdep.target (canonical_of_mem hkey) hid
  refine ⟨?_, ?_, hP _ hdep⟩
  · exact Shares.of_devices hdist hkey hw (fun x hx _ => hdep.others x hx)
      (hdep.consistent hw.consistent) (hdep.commands ▸ hw.commands)
      (fun hf => hdep.nodup (hfresh hf) (hw.fresh hf)) htravels hdep.custody hdep.remaining
      hdep.originDelivered
  · have hothers := hdep.others
    obtain ⟨devices, journal, rfl⟩ := hdep.exists_eq
    exact { ByCarrier.refl key w with
      devices := fun x hx _ => hothers x hx
      travels := fun id hid htgt => (htravels id hid).resolve_right htgt }

lemma allowsTravel_contract (options : DeliveryOptions) :
    AllowsTravel (job.contract fresh w₀ delivered pool key) fresh options key :=
  fun _ _ _ _ _ hinv hfresh hP => Shares.allows hdist hkey hinv hfresh hP

end

/-! ## The identities a carrier has used -/

variable (job) in
/-- One of the names is of a payload that has been delivered, or of none; a return has no such name. -/
def Spent (w : World) (payload : String) : Prop :=
  ∃ x ∈ stems payload, x ≠ canonicalDeviceCode "return" ∧
    (x ∈ job.payloadKeys → w.custody x = .delivered)

lemma Spent.mono {payload : String} (h : job.Spent w payload)
    (hkept : ∀ x, w.custody x = .delivered → w'.custody x = .delivered) : job.Spent w' payload := by
  obtain ⟨x, hx, hname, hspent⟩ := h
  exact ⟨x, hx, hname, fun hpay => hkept x (hspent hpay)⟩

variable (job) in
/-- The travels of the device so far are spent, or `ok`. -/
def Trail (ok : OperationId → Prop) (key : String) (w : World) : Prop :=
  ∀ id ∈ w.travels, id.target = key → job.Spent w id.payload ∨ ok id

section Trail

variable {ok ok' : OperationId → Prop} {destination : String} {names : List String}

variable (h : job.Trail ok key w)

include h

lemma Trail.beside (hrely : Beside key w w') : job.Trail ok key w' := by
  intro id hid htgt
  exact (h id (hrely.travels id hid htgt) htgt).imp_left (·.mono hrely.delivered)

lemma Trail.mono (himp : ∀ id ∈ w.travels, id.target = key → ok id → ok' id) :
    job.Trail ok' key w :=
  fun id hid htgt => (h id hid htgt).imp_right (himp id hid htgt)

lemma Trail.departs (hdep : w.Departs key destination id w') (hok : ∀ id' ∈ id, ok id') :
    job.Trail ok key w' := by
  intro id' hid' htgt
  unfold Spent
  rw [hdep.custody]
  rw [hdep.travels, mem_append, Option.mem_toList] at hid'
  rcases hid' with hnew | hold
  · exact .inr (hok id' hnew)
  · exact h id' hold htgt

/-- Payloads that are still to be delivered give a new identity. -/
lemma Trail.unused (hok : ∀ id, ok id → id.destination ≠ destination)
    (hnames : ∀ x ∈ names, x ∈ job.payloadKeys ∧ w.custody x ≠ .delivered) :
    Unused key destination names w := by
  intro id hid htgt hdest hiff
  rcases h id hid htgt with hspent | hother
  · obtain ⟨x, hx, -, hdelivered⟩ := hspent
    have hx' := hnames x ((hiff x).mp hx)
    exact hx'.2 (hdelivered hx'.1)
  · exact hok id hother hdest

end Trail

variable (job) in
/-- The names of the delivery have no separators in them. -/
structure Plain : Prop where
  codes : ∀ code ∈ job.payloadCodes, PlainCode code
  notReturn : ∀ code ∈ job.payloadCodes, canonicalDeviceCode code ≠ canonicalDeviceCode "return"
  destination : ',' ∉ job.destination.toList
  origins : ∀ payload ∈ job.payloads, ',' ∉ payload.origin.toList

lemma legible_payloads (hplain : job.Plain) {codes : List String} (hne : codes ≠ [])
    (hcodes : ∀ code ∈ codes, code ∈ job.payloadCodes) (target : String) :
    Legible (canonicalPayloadKey codes) target (codes.map canonicalDeviceCode) :=
  fun _ hloc => mem_stems_payloads hne (fun code hcode => hplain.codes code (hcodes code hcode))
    hloc

/-! ## A carrier with its load -/

variable (job fresh) in
/-- The carrier holds the selected payloads, and nothing else is attached to it. -/
structure Carries (ok : OperationId → Prop) (key : String) (selected : List String) (w : World) :
    Prop where
  held : ∀ x, w.custody x = .held key ↔ x ∈ selected.map canonicalDeviceCode
  attached : ∀ x ∈ (w.devices key).attachedDevices, x ∈ selected.map canonicalDeviceCode
  trail : fresh → job.Trail ok key w

variable (job fresh) in
/-- The carrier stands at the place with the selected payloads. -/
structure Loaded (ok : OperationId → Prop) (key place : String) (selected : List String)
    (w : World) : Prop extends job.Carries fresh ok key selected w where
  stands : (w.devices key).standsAt place = true
  rested : fresh → Rested key w

section Loaded

variable {ok ok' : OperationId → Prop}

lemma Carries.free (h : job.Carries fresh ok key [] w) (x : String) : w.custody x ≠ .held key :=
  fun hx => not_mem_nil ((h.held x).mp hx)

lemma Carries.attached_eq_nil (h : job.Carries fresh ok key [] w) :
    (w.devices key).attachedDevices = [] :=
  eq_nil_iff_forall_not_mem.mpr fun x hx => not_mem_nil (h.attached x hx)

lemma Carries.mono (h : job.Carries fresh ok key selected w) (himp : ∀ id, ok id → ok' id) :
    job.Carries fresh ok' key selected w :=
  ⟨h.held, h.attached, fun hf => (h.trail hf).mono fun id _ _ => himp id⟩

section

variable (hrely : Beside key w w')

include hrely

lemma Carries.beside (h : job.Carries fresh ok key selected w) :
    job.Carries fresh ok key selected w' where
  held x := (hrely.held x).trans (h.held x)
  attached := by
    rw [hrely.device.attachedDevices]
    exact h.attached
  trail hf := (h.trail hf).beside hrely

lemma Carries.drifts_held (h : job.Carries fresh ok key selected w) (hcode : code ∈ selected) :
    (w.deviceOf code).Drifts (w'.deviceOf code) :=
  hrely.heldDevice _ ((h.held _).mpr (mem_map_of_mem hcode))

lemma Loaded.beside (h : job.Loaded fresh ok key place selected w) :
    job.Loaded fresh ok key place selected w' :=
  ⟨h.toCarries.beside hrely, hrely.device.standsAt h.stands,
    fun hf => (h.rested hf).drifts hrely.device⟩

end

/-- A section that moves only what the carrier holds, as time does. -/
lemma byCarrier_drifts (hdrift : w.Drifts w')
    (hdevs : ∀ x, w.custody x ≠ .held key → w'.devices x = w.devices x) : ByCarrier key w w' where
  devices x _ hfree := hdevs x hfree
  held x carrier _ := by rw [hdrift.custody]
  remaining payload hp := by rwa [hdrift.remaining] at hp
  delivered x hx := by rwa [hdrift.custody]
  travels id hid _ := by rwa [hdrift.travels] at hid

end Loaded

/-! ## Waiting for a device -/

variable {C : Contract World} {predicate : Device → Bool}

lemma keeps_waitForDevice {R : World → Prop} (hP : ∀ w w', C.rely w w' → C.inv w' → P w → P w')
    (hR : ∀ w w', C.rely w w' → C.inv w' → R w → R w')
    (hfound : ∀ w, C.inv w → P w → predicate (w.devices (canonicalDeviceCode code)) = true → R w)
    (polls : ℕ) (hstart : P w) :
    C.Keeps (fun _ w => R w) (waitForDevice code predicate polls) w := by
  induction polls generalizing w with
  | zero => exact keeps_fail
  | succ polls ih =>
    refine keeps_getDevice fun w₁ hrely₁ hinv₁ => ?_
    have hP₁ := hP w w₁ hrely₁ hinv₁ hstart
    refine keeps_ite (fun hfits => keeps_ret fun w₂ hrely₂ hinv₂ => ?_) fun _ => ih hP₁
    exact hR w₁ w₂ hrely₂ hinv₂ (hfound w₁ hinv₁ hP₁ hfits)

/-- Waiting for each of the selected payloads in turn: `R` is found of one after the other. -/
lemma keeps_forEach_wait {selected : List String} {R : Device → Prop}
    (hP : ∀ w w', C.rely w w' → P w → P w') (hR : ∀ w w' s, s ∈ selected → C.rely w w' → P w →
      R (w.devices (canonicalDeviceCode s)) → R (w'.devices (canonicalDeviceCode s)))
    (hfound : ∀ w s, s ∈ selected → P w →
      predicate (w.devices (canonicalDeviceCode s)) = true → R (w.devices (canonicalDeviceCode s)))
    (hinv : C.inv w) (hstart : P w) (polls : ℕ) : C.Keeps
      (fun _ w => P w ∧ ∀ s ∈ selected, R (w.devices (canonicalDeviceCode s)))
      (Task.forEach (canonicalPayloadCodes selected) fun code => waitForDevice code predicate polls)
      w := by
  -- what is still to be waited for is a part of the selection
  let Q : List String → World → Prop := fun todo w => P w ∧
    (∀ x ∈ todo, x ∈ selected.map canonicalDeviceCode) ∧
    ∀ s ∈ selected, canonicalDeviceCode s ∈ todo ∨ R (w.devices (canonicalDeviceCode s))
  have hQ : ∀ todo w w', C.rely w w' → Q todo w → Q todo w' := by
    rintro todo w w' hrely ⟨hp, hmem, hdone⟩
    exact ⟨hP w w' hrely hp, hmem, fun s hs => (hdone s hs).imp_right (hR w w' s hs hrely hp)⟩
  have hloop : C.Keeps (fun _ w => Q [] w)
      (Task.forEach (canonicalPayloadCodes selected) fun code => waitForDevice code predicate polls)
      w := by
    refine keeps_foldEach (fun todo _ w => Q todo w) (fun _ w w' hrely _ hq => hQ [] w w' hrely hq)
      (fun x todo _ w hinv hq => ?_) hinv ⟨hstart, fun x hx => mem_canonicalPayloadCodes.mp hx,
        fun s hs => .inl (mem_canonicalPayloadCodes.mpr (mem_map_of_mem hs))⟩
    refine keeps_waitForDevice (fun w w' hrely _ hq => hQ (x :: todo) w w' hrely hq)
      (fun w w' hrely _ hq => hQ todo w w' hrely hq) (fun w _ hq hfits => ?_) polls hq
    obtain ⟨hp, hmem, hdone⟩ := hq
    obtain ⟨s₀, hs₀, rfl⟩ := mem_map.mp (hmem x mem_cons_self)
    rw [canonicalDeviceCode_canonicalDeviceCode] at hfits
    refine ⟨hp, fun y hy => hmem y (mem_cons_of_mem _ hy), fun s hs => ?_⟩
    rcases hdone s hs with htodo | hold
    · rcases mem_cons.mp htodo with heq | hlater
      · rw [heq]
        exact .inr (hfound w s₀ hs₀ hp hfits)
      · exact .inl hlater
    · exact .inr hold
  refine hloop.mono fun _ w _ hq => ⟨hq.1, fun s hs => ?_⟩
  exact (hq.2.2 s hs).resolve_left not_mem_nil

/-! ## One trip -/

section Trip

variable {carrier origin : String} {ok : OperationId → Prop} (hdist : job.Distinct)
  (hkey : key ∈ job.carrierKeys) (hsel : ∀ code ∈ selected, code ∈ job.payloadCodes)
  (hcar : key = canonicalDeviceCode carrier) (hplain : fresh → job.Plain)

section Attachable

variable {todo : List String}

variable (job fresh) in
/-- The carrier has found free what it holds, apart from the payloads still to be looked at. -/
structure Clears (ok : OperationId → Prop) (key place : String) (selected todo : List String)
    (w : World) : Prop extends job.Loaded fresh ok key place selected w where
  free : ∀ s ∈ selected, s ∈ todo ∨ (w.deviceOf s).attachedTo = none

lemma Clears.beside (h : job.Clears fresh ok key place selected todo w) (hrely : Beside key w w') :
    job.Clears fresh ok key place selected todo w' := by
  refine ⟨h.toLoaded.beside hrely, fun s hs => (h.free s hs).imp_right fun hnone => ?_⟩
  rw [(h.drifts_held hrely hs).attachedTo, hnone]

/-- The first loop of a trip: each payload in turn is found free. -/
lemma keeps_ensureAttachableDevice (hmem : code ∈ selected)
    (h : job.Clears fresh ok key place selected (code :: todo) w) :
    (job.contract fresh w₀ delivered pool key).Keeps
      (fun _ w => job.Clears fresh ok key place selected todo w)
      (ensureAttachableDevice job.options code) w := by
  unfold ensureAttachableDevice
  refine keeps_getDevice fun w₁ hrely₁ hinv₁ => ?_
  obtain ⟨hloaded₁, hfree₁⟩ := h.beside hrely₁
  split
  · exact keeps_fail
  · rename_i hnone
    have h₁ : job.Clears fresh ok key place selected todo w₁ := by
      refine ⟨hloaded₁, fun s hs => (hfree₁ s hs).elim (fun hor => ?_) .inr⟩
      rcases mem_cons.mp hor with rfl | hlater
      · exact .inr hnone
      · exact .inl hlater
    refine keeps_ite (fun _ => ?_) fun _ => keeps_ret fun w₂ hrely₂ _ => h₁.beside hrely₂
    refine keeps_put_bind fun w₂ hrely₂ hinv₂ => ?_
    have h₂ := h₁.beside hrely₂
    -- the server unloads a payload that the carrier holds: nothing the contract speaks of changes
    have hdrift : w₂.Drifts (w₂.deploy (canonicalDeviceCode code)) :=
      World.drifts_setDevice ⟨rfl, rfl, fun h => ⟨h, rfl⟩, fun _ h => .inl h⟩
    refine ⟨hinv₂.drifts hdrift, byCarrier_drifts hdrift fun x hx => ?_, ?_⟩
    · refine World.devices_setDevice_of_ne _ _ fun heq => hx ?_
      rw [heq]
      exact (h₂.held _).mpr (mem_map_of_mem hmem)
    · exact keeps_waitForDevice (fun w w' hrely _ hP => hP.beside hrely)
        (fun w w' hrely _ hP => hP.beside hrely) (fun _ _ hP _ => hP) _
        (h₂.beside (beside_of_drifts key hdrift))

end Attachable

include hdist hkey hsel

lemma not_mem_selected : key ∉ canonicalPayloadCodes selected := by
  intro hmem
  obtain ⟨code, hcode, heq⟩ := mem_map.mp (mem_canonicalPayloadCodes.mp hmem)
  exact hdist.apart key (heq ▸ mem_payloadKeys (hsel code hcode)) hkey

/-- A command for the selected payloads keeps the invariant, and the carrier has its load still. -/
lemma Loaded.commanded {attaches : Bool} {send : World → World}
    (h : job.Loaded fresh ok key place selected w) (hinv : job.Shares fresh w₀ delivered pool w)
    (hsent : w.Commands ⟨attaches, key, canonicalPayloadCodes selected, w.devices key⟩ send w')
    (hcust : w'.custody = w.custody) (hdetaches : attaches = false → place = job.destination)
    (hothers : ∀ x, x ≠ key → x ∉ canonicalPayloadCodes selected → (send w).devices x = w.devices x)
    (hdevice : ((send w).devices key).travel = (w.devices key).travel ∧
      ((send w).devices key).location = (w.devices key).location)
    (hatt : ∀ x ∈ ((send w).devices key).attachedDevices,
      x ∈ selected.map canonicalDeviceCode) (hcons : (send w).Consistent) :
    job.Shares fresh w₀ delivered pool w' ∧ ByCarrier key w w' ∧
      job.Loaded fresh ok key place selected w' := by
  have hdevs : ∀ x, x ≠ key → w.custody x ≠ .held key → w'.devices x = w.devices x := by
    intro x hx hheld
    refine hsent.induct (P := fun d => d x = _) rfl (hothers x hx fun hmem => hheld ?_)
    exact (h.held x).mpr (mem_canonicalPayloadCodes.mp hmem)
  have hown : (w'.devices key).travel = (w.devices key).travel ∧
      (w'.devices key).location = (w.devices key).location ∧
      ∀ x ∈ (w'.devices key).attachedDevices, x ∈ selected.map canonicalDeviceCode :=
    hsent.induct (P := fun d => (d key).travel = _ ∧ (d key).location = _ ∧
      ∀ x ∈ (d key).attachedDevices, x ∈ _) ⟨rfl, rfl, h.attached⟩ ⟨hdevice.1, hdevice.2, hatt⟩
  refine ⟨?_, ⟨hdevs, fun x c _ => by rw [hcust], fun p hp => by rwa [hsent.remaining] at hp,
    fun x hx => by rwa [hcust], fun id hid _ => by rwa [hsent.travels] at hid⟩, ?_⟩
  · refine Shares.of_devices hdist hkey hinv hdevs (hsent.consistent hinv.consistent hcons) ?_
      (by rw [hsent.travels]; exact hinv.fresh) (by rw [hsent.travels]; exact fun _ h => .inl h)
      hcust hsent.remaining hsent.originDelivered
    rw [hsent.commands]
    refine forall_mem_cons.mpr ⟨⟨fun code hcode => ?_, fun hfalse => ?_⟩, hinv.commands⟩
    · obtain ⟨s, hs, rfl⟩ := mem_map.mp (mem_canonicalPayloadCodes.mp hcode)
      exact mem_payloadKeys (hsel s hs)
    · rw [← hdetaches hfalse]
      exact h.stands
  · refine ⟨⟨by rw [hcust]; exact h.held, hown.2.2, fun hf => ?_⟩, ?_, fun hf => ?_⟩
    · have htrail := h.trail hf
      unfold Trail Spent at htrail ⊢
      rwa [hsent.travels, hcust]
    · unfold Device.standsAt
      rw [hown.1, hown.2.1]
      exact h.stands
    · unfold Rested
      rw [hown.1, hown.2.1]
      exact h.rested hf

include hcar in
/-- The selected payloads, free before, are attached to the carrier. -/
lemma keeps_attachDevices (hne : selected ≠ []) (h : job.Loaded fresh ok key place selected w)
    (hfree : ∀ s ∈ selected, (w.deviceOf s).attachedTo = none) :
    (job.contract fresh w₀ delivered pool key).Keeps
      (fun _ w => job.Loaded fresh ok key place selected w ∧ ∀ s ∈ selected,
        (w.deviceOf s).attachedTo = some key) (attachDevices job.options carrier selected) w := by
  have houtside := not_mem_selected hdist hkey hsel
  unfold attachDevices
  rw [if_neg hne, ← hcar]
  refine keeps_put_bind fun w₁ hrely₁ hinv₁ => ?_
  have hloaded₁ := h.beside hrely₁
  have hfree₁ : ∀ x ∈ canonicalPayloadCodes selected, (w₁.devices x).attachedTo = none := by
    intro x hx
    obtain ⟨s, hs, rfl⟩ := mem_map.mp (mem_canonicalPayloadCodes.mp hx)
    rw [(h.drifts_held hrely₁ hs).attachedTo, hfree s hs]
  obtain ⟨hsent, hcust⟩ := w₁.commands_submitAttach job.options key (canonicalPayloadCodes selected)
  generalize w₁.submitAttach job.options key (canonicalPayloadCodes selected) = w₂ at hsent hcust ⊢
  have hself := w₁.devices_attach_self key (canonicalPayloadCodes selected)
  obtain ⟨hinv₂, hguar, hloaded₂⟩ := hloaded₁.commanded hdist hkey hsel hinv₁ hsent hcust
    nofun (fun x hx hmem => w₁.devices_attach_of_not_mem _ _ hx hmem)
    (by rw [hself]; exact ⟨rfl, rfl⟩)
    (by
      rw [hself]
      intro x hx
      exact (mem_append.mp hx).elim (hloaded₁.attached x) mem_canonicalPayloadCodes.mp)
    (hinv₁.consistent.attach houtside (fun code hcode => by
      obtain ⟨s, -, rfl⟩ := mem_map.mp (mem_canonicalPayloadCodes.mp hcode)
      exact canonicalDeviceCode_canonicalDeviceCode s) hfree₁)
  refine ⟨hinv₂, hguar, ?_⟩
  refine keeps_forEach_wait (R := fun d => d.attachedTo = some key)
    (fun w w' hrely hP => hP.beside hrely) (fun w w' s hs hrely hP hR => ?_)
    (fun w s _ _ hfits => of_decide_eq_true hfits) hinv₂ hloaded₂ _
  rw [(hP.drifts_held hrely hs).attachedTo, hR]

include hcar in
/-- The payloads are detached where the carrier stands, which is the destination. -/
lemma keeps_detachDevices (hne : selected ≠ [])
    (h : job.Loaded fresh ok key job.destination selected w)
    (hatt : ∀ s ∈ selected, (w.deviceOf s).attachedTo = some key) :
    (job.contract fresh w₀ delivered pool key).Keeps
      (fun _ w => job.Loaded fresh ok key job.destination selected w ∧ ∀ s ∈ selected,
        job.AtDestination (w.deviceOf s)) (detachDevices job.options carrier selected) w := by
  have houtside := not_mem_selected hdist hkey hsel
  unfold detachDevices
  rw [if_neg hne, ← hcar]
  refine keeps_put_bind fun w₁ hrely₁ hinv₁ => ?_
  have hloaded₁ := h.beside hrely₁
  obtain ⟨hsent, hmarked⟩ := w₁.commands_submitDetach job.options key (canonicalPayloadCodes selected)
  generalize w₁.submitDetach job.options key (canonicalPayloadCodes selected) = w₂ at hsent hmarked ⊢
  -- the payloads are reserved, so none is marked
  have hcust : w₂.custody = w₁.custody := by
    funext x
    rw [hmarked, if_neg]
    rintro ⟨hmem, hwaiting⟩
    rw [(hloaded₁.held x).mpr (mem_canonicalPayloadCodes.mp hmem)] at hwaiting
    cases hwaiting
  have hself := w₁.devices_detach_self key (canonicalPayloadCodes selected)
  obtain ⟨hinv₂, hguar, hloaded₂⟩ := hloaded₁.commanded hdist hkey hsel hinv₁ hsent hcust
    (fun _ => rfl) (fun x hx hmem => w₁.devices_detach_of_not_mem _ _ hx hmem)
    (by rw [hself]; exact ⟨rfl, rfl⟩)
    (by
      rw [hself]
      exact fun x hx => hloaded₁.attached x (mem_filter.mp hx).1)
    (hinv₁.consistent.detach houtside)
  have hstate : ∀ s ∈ selected, (w₂.deviceOf s).attachedTo = some key ∨
      job.AtDestination (w₂.deviceOf s) := by
    intro s hs
    have hto : (w₁.deviceOf s).attachedTo = some key := by
      rw [(h.drifts_held hrely₁ hs).attachedTo, hatt s hs]
    have hmem : canonicalDeviceCode s ∈ canonicalPayloadCodes selected :=
      mem_canonicalPayloadCodes.mpr (mem_map_of_mem hs)
    exact hsent.detached (fun heq => houtside (heq ▸ hmem)) hmem hto hloaded₁.stands
  refine ⟨hinv₂, hguar, ?_⟩
  refine (keeps_forEach_wait
    (P := fun w => job.Loaded fresh ok key job.destination selected w ∧ ∀ s ∈ selected,
      (w.deviceOf s).attachedTo = some key ∨ job.AtDestination (w.deviceOf s))
    (fun w w' hrely hP => ⟨hP.1.beside hrely, fun s hs => ?_⟩)
    (fun w w' s hs hrely hP hR => hR.drifts (hP.1.drifts_held hrely hs))
    (fun w s hs hP hfits => ?_) hinv₂ ⟨hloaded₂, hstate⟩ _).mono
    fun _ w _ hdone => ⟨hdone.1.1, hdone.2⟩
  · have hdrift := hP.1.drifts_held hrely hs
    refine (hP.2 s hs).imp (fun hto => ?_) fun hat => hat.drifts hdrift
    rw [hdrift.attachedTo, hto]
  · refine (hP.2 s hs).resolve_left fun hto => ?_
    rw [hto] at hfits
    cases hfits

omit hdist hkey hsel in
lemma custody_noteDelivered (w : World) (selected : List String) (x : String) :
    (w.noteDelivered selected).custody x =
      if x ∈ selected.map canonicalDeviceCode then .delivered else w.custody x := rfl

omit hkey in
/-- The delivered payloads are added to the list, and the carrier holds nothing any more. -/
lemma Loaded.noteDelivered (h : job.Loaded fresh ok key job.destination selected w)
    (hinv : job.Shares fresh w₀ delivered pool w) (hpool : ∀ p ∈ pool, p.code ∈ job.payloadCodes)
    (hat : ∀ s ∈ selected, job.AtDestination (w.deviceOf s)) :
    job.Shares fresh w₀ delivered pool (w.noteDelivered selected) ∧
      ByCarrier key w (w.noteDelivered selected) := by
  have hkept : ∀ x, w.custody x ≠ .held key →
      (w.noteDelivered selected).custody x = w.custody x := fun x hfree => by
    rw [custody_noteDelivered, if_neg fun hmem => hfree ((h.held x).mpr hmem)]
  have hheld : ∀ x c, (w.noteDelivered selected).custody x = .held c →
      x ∉ selected.map canonicalDeviceCode ∧ w.custody x = .held c := by
    intro x c hx
    rw [custody_noteDelivered] at hx
    split at hx
    · cases hx
    · rename_i hnot
      exact ⟨hnot, hx⟩
  have hcons : (w.noteDelivered selected).Consistent :=
    ⟨hinv.consistent.attached, hinv.consistent.canonical⟩
  constructor
  · refine ⟨⟨hcons, hinv.commands, fun x c hx => hinv.held x c (hheld x c hx).2, hinv.fresh,
      hinv.others, hinv.travels⟩, fun code hcode => ?_, hinv.remaining_mem, hinv.remaining_nodup,
      fun p hp => ?_, fun code hcode hnot hout => ?_, fun p hp => ?_, fun code hcode => ?_⟩
    · obtain ⟨hpay, hthere, hfree⟩ := hinv.settled code hcode
      exact ⟨hpay, hthere, fun c hx => hfree c (hheld _ c hx).2⟩
    · -- what waits is not what the carrier holds
      have hwaiting := hinv.waiting p hp
      rw [hkept _ (by rw [hwaiting]; exact nofun), hwaiting]
    · have hwaiting := hinv.later code hcode hnot hout
      rw [hkept _ (by rw [hwaiting]; exact nofun), hwaiting]
    · rcases hinv.cover p hp with hrest | ⟨c, hc, hheld'⟩ | hdone
      · exact .inl hrest
      · by_cases hmem : canonicalDeviceCode p.code ∈ selected.map canonicalDeviceCode
        · obtain ⟨s, hs, heq⟩ := mem_map.mp hmem
          have hcode := hdist.code_eq (hsel s hs) (hpool p hp) heq
          exact .inr (.inr (mem_append_right _ (hcode ▸ hs)))
        · refine .inr (.inl ⟨c, hc, ?_⟩)
          rw [custody_noteDelivered, if_neg hmem, hheld']
      · exact .inr (.inr (mem_append_left _ hdone))
    · rcases mem_append.mp hcode with hold | hnew
      · obtain ⟨hpay, hthere, hdone⟩ := hinv.arrived code hold
        refine ⟨hpay, hthere, ?_⟩
        rw [custody_noteDelivered, hdone, ite_self]
      · refine ⟨hsel code hnew, hat code hnew, ?_⟩
        rw [custody_noteDelivered, if_pos (mem_map_of_mem hnew)]
  · refine ⟨fun _ _ _ => rfl, fun x c hc => ⟨fun hx => (hheld x c hx).2, fun hx => ?_⟩,
      fun _ hp => hp, fun x hx => ?_, fun _ hid _ => hid⟩
    · rw [hkept x (by rw [hx]; exact fun heq => hc (Custody.held.inj heq)), hx]
    · rw [custody_noteDelivered, hx, ite_self]

variable (job fresh) in
/-- Between two trips: nothing is attached to the carrier, and it holds nothing. -/
structure Idle (ok : OperationId → Prop) (key : String) (w : World) : Prop extends
    job.Carries fresh ok key [] w where
  rested : fresh → Rested key w

omit hdist hkey hsel in
lemma Idle.beside (h : job.Idle fresh ok key w) (hrely : Beside key w w') :
    job.Idle fresh ok key w' :=
  ⟨h.toCarries.beside hrely, fun hf => (h.rested hf).drifts hrely.device⟩

omit hdist hkey in
include hplain in
lemma Loaded.idle (h : job.Loaded fresh ok key job.destination selected w)
    (hinv : job.Shares fresh w₀ delivered pool w)
    (hat : ∀ s ∈ selected, job.AtDestination (w.deviceOf s))
    (hok : ∀ id, ok id → ∃ s ∈ selected, canonicalDeviceCode s ∈ stems id.payload) :
    job.Idle fresh (fun _ => False) key (w.noteDelivered selected) := by
  refine ⟨⟨fun x => iff_of_false (fun hx => ?_) not_mem_nil, fun x hx => ?_,
    fun hf id hid htgt => .inl ?_⟩, h.rested⟩
  · rw [custody_noteDelivered] at hx
    split at hx
    · cases hx
    · rename_i hnot
      exact hnot ((h.held x).mp hx)
  · obtain ⟨s, hs, rfl⟩ := mem_map.mp (h.attached x hx)
    have hto := (hinv.consistent.attached key _).mp hx
    rw [(hat s hs).2] at hto
    cases hto
  · rcases h.trail hf id hid htgt with hspent | hother
    · refine hspent.mono fun x hx => ?_
      rw [custody_noteDelivered, hx, ite_self]
    · obtain ⟨s, hs, hstem⟩ := hok id hother
      refine ⟨_, hstem, (hplain hf).notReturn s (hsel s hs), fun _ => ?_⟩
      rw [custody_noteDelivered, if_pos (mem_map_of_mem hs)]

variable (job fresh pool) in
/-- How a round of the loop ends. After the last one, each travel is spent or was with a payload of the
origin. -/
def RoundEnd (key : String) (again : Bool) (w : World) : Prop :=
  if again then job.Idle fresh (fun _ => False) key w
  else job.Idle fresh (fun id => ∃ p ∈ pool, canonicalDeviceCode p.code ∈ stems id.payload) key w

variable {K : OperationId → Prop} {target : String} {codes : List String}

omit hdist hkey hsel in
lemma Carries.departs (h : job.Carries fresh ok key selected w)
    (hdep : w.Departs key target id w') (hok : fresh → ∀ id' ∈ id, ok id') :
    job.Carries fresh ok key selected w' where
  held := by
    rw [hdep.custody]
    exact h.held
  attached := by
    rw [(hdep.attached _).2]
    exact h.attached
  trail hf := (h.trail hf).departs hdep (hok hf)

omit hsel in
include hcar hplain in
/-- A leg of the carrier for some payloads; what else holds of the world, `X`, stays on the way. -/
lemma keeps_carrierLeg {X : World → Prop}
    (hX : ∀ w w', Beside key w w' → job.Carries fresh K key selected w → X w → X w')
    (hdeparts : ∀ w w' id, w.Departs key (canonicalDeviceCode target) id w' → X w → X w')
    (hne : codes ≠ []) (hcodes : ∀ code ∈ codes, code ∈ job.payloadCodes)
    (htarget : fresh → ',' ∉ target.toList) (himp : ∀ id, ok id → K id)
    (hleg : ∀ id, IsLeg key (canonicalDeviceCode target) (codes.map canonicalDeviceCode) id → K id)
    (h : job.Carries fresh ok key selected w) (hx : X w) (hrested : fresh → Rested key w)
    (hunused : fresh → (w.devices key).standsAt target = false →
      Unused key (canonicalDeviceCode target) (codes.map canonicalDeviceCode) w) :
    (job.contract fresh w₀ delivered pool key).Keeps
      (fun _ w => (w.devices key).standsAt target = true ∧
        (job.Carries fresh K key selected w ∧ X w) ∧ (fresh → Rested key w))
      (ensureDeviceAt job.options carrier target (canonicalPayloadKey codes)) w := by
  refine keeps_leg hcar (fun w w' hrely => Beside.device hrely)
    (fun w w' hrely => Beside.travels hrely) (allowsTravel_contract hdist hkey _)
    (fun hf => legible_payloads (hplain hf) hne hcodes _) htarget
    (P := fun w => job.Carries fresh ok key selected w ∧ X w)
    (fun w w' hrely _ hP => ⟨hP.1.beside hrely, hX w w' hrely (hP.1.mono himp) hP.2⟩)
    (fun w w' hrely _ hQ => ⟨hQ.1.beside hrely, hX w w' hrely hQ.1 hQ.2⟩)
    (fun w hP => ⟨hP.1.mono himp, hP.2⟩) (fun w w' id hQ hdep hid => ?_) ⟨h, hx⟩ hrested hunused
  refine ⟨hQ.1.departs hdep fun hf id' hid' => ?_, hdeparts w w' id hdep hQ.2⟩
  exact hleg id' (hid hf id' hid')

omit hdist hkey hsel in
lemma keeps_forEach_attachable (hinv : job.Shares fresh w₀ delivered pool w)
    (h : job.Loaded fresh ok key place selected w) :
    (job.contract fresh w₀ delivered pool key).Keeps
      (fun _ w => job.Loaded fresh ok key place selected w ∧
        ∀ s ∈ selected, (w.deviceOf s).attachedTo = none)
      (Task.forEach selected (ensureAttachableDevice job.options)) w := by
  let P : List String → Unit → World → Prop := fun todo _ w => (∀ s ∈ todo, s ∈ selected) ∧
    job.Clears fresh ok key place selected todo w
  have hloop : (job.contract fresh w₀ delivered pool key).Keeps (P [])
      (Task.forEach selected (ensureAttachableDevice job.options)) w := by
    refine keeps_foldEach P (fun _ w w' hrely _ hP => ⟨hP.1, hP.2.beside hrely⟩)
      (fun code todo _ w hinv hP => ?_) hinv ⟨fun _ hs => hs, h, fun s hs => .inl hs⟩
    refine (keeps_ensureAttachableDevice (hP.1 code mem_cons_self) hP.2).mono
      fun _ w _ hdone => ⟨fun s hs => hP.1 s (mem_cons_of_mem code hs), hdone⟩
  refine hloop.mono fun _ w _ hdone => ⟨hdone.2.toLoaded, fun s hs => ?_⟩
  exact (hdone.2.free s hs).resolve_left not_mem_nil

variable (hne : selected ≠ [])
  (h : job.Loaded fresh (fun id => id.destination = canonicalDeviceCode origin ∧
    ∃ s ∈ selected, canonicalDeviceCode s ∈ stems id.payload) key origin selected w)

include hcar hplain hne h

/-- The leg to the destination, with the payloads attached. -/
lemma keeps_toDestination (hjoined : ∀ s ∈ selected, (w.deviceOf s).attachedTo = some key) :
    (job.contract fresh w₀ delivered pool key).Keeps
      (fun _ w => job.Loaded fresh (fun id => ∃ s ∈ selected,
          canonicalDeviceCode s ∈ stems id.payload) key job.destination selected w ∧
        ∀ s ∈ selected, (w.deviceOf s).attachedTo = some key)
      (ensureDeviceAt job.options carrier job.destination (canonicalPayloadKey selected)) w := by
  refine Keeps.mono (keeps_carrierLeg hdist hkey hcar hplain
    (X := fun w => ∀ s ∈ selected, (w.deviceOf s).attachedTo = some key)
    (fun w w' hrely hcarries hjoined s hs => ?_) (fun w w' id hdep hjoined s hs => ?_) hne hsel
    (fun hf => (hplain hf).destination) (fun id hok => hok.2) (fun id hid => ?_) h.toCarries hjoined
    h.rested fun hf hstands => ?_) fun _ w _ hdone => ⟨⟨hdone.2.1.1, hdone.1, hdone.2.2⟩, hdone.2.1.2⟩
  · rw [(hcarries.drifts_held hrely hs).attachedTo, hjoined s hs]
  · have hapart : canonicalDeviceCode s ≠ key := fun heq =>
      hdist.apart _ (mem_payloadKeys (hsel s hs)) (heq ▸ hkey)
    rw [World.deviceOf, hdep.others _ hapart]
    exact hjoined s hs
  · obtain ⟨s, rest, rfl⟩ := exists_cons_of_ne_nil hne
    exact ⟨s, mem_cons_self, (hid.names _).mpr (mem_map_of_mem mem_cons_self)⟩
  · refine (h.trail hf).unused (fun id hok heq => ?_) fun x hx => ?_
    · -- the carrier stands at the origin, so the origin is another place
      have hsame : canonicalDeviceCode origin = canonicalDeviceCode job.destination :=
        hok.1.symm.trans heq
      have hthere := h.stands
      rw [← standsAt_canonicalDeviceCode, hsame, standsAt_canonicalDeviceCode, hstands] at hthere
      cases hthere
    · obtain ⟨s, hs, rfl⟩ := mem_map.mp hx
      refine ⟨mem_payloadKeys (hsel s hs), ?_⟩
      rw [(h.held _).mpr hx]
      exact nofun

lemma keeps_carry (hpool : ∀ p ∈ pool, p.code ∈ job.payloadCodes)
    (hinv : job.Shares fresh w₀ delivered pool w) :
    (job.contract fresh w₀ delivered pool key).Keeps (job.RoundEnd fresh pool key)
      (job.carry carrier selected) w := by
  unfold carry
  rw [if_neg hne]
  refine Keeps.bind ((keeps_forEach_attachable hinv h).mono fun _ w₁ hinv₁ h₁ => ?_) hinv
  refine Keeps.bind ((keeps_attachDevices hdist hkey hsel hcar hne h₁.1 h₁.2).mono
    fun _ w₂ hinv₂ h₂ => ?_) hinv₁
  refine Keeps.bind ((keeps_toDestination hdist hkey hsel hcar hplain hne h₂.1 h₂.2).mono
    fun _ w₃ hinv₃ h₃ => ?_) hinv₂
  refine Keeps.bind ((keeps_detachDevices hdist hkey hsel hcar hne h₃.1 h₃.2).mono
    fun _ w₄ hinv₄ h₄ => ?_) hinv₃
  refine keeps_put_bind fun w₅ hrely₅ hinv₅ => ?_
  have hloaded₅ := h₄.1.beside hrely₅
  have hat₅ : ∀ s ∈ selected, job.AtDestination (w₅.deviceOf s) := fun s hs =>
    (h₄.2 s hs).drifts (h₄.1.drifts_held hrely₅ hs)
  obtain ⟨hinv₆, hguar⟩ := hloaded₅.noteDelivered hdist hsel hinv₅ hpool hat₅
  refine ⟨hinv₆, hguar, keeps_ret fun w₇ hrely₇ _ => ?_⟩
  exact (hloaded₅.idle hsel hplain hinv₅ hat₅ fun _ hok => hok).beside hrely₇

omit hsel hcar hplain hne h

/-- A reservation takes payloads from the list for the carrier. -/
lemma Shares.reserve (hinv : job.Shares fresh w₀ delivered pool w)
    (hpool : ∀ p ∈ pool, p.code ∈ job.payloadCodes ∧ p.code ∉ delivered) (take : ℕ) :
    job.Shares fresh w₀ delivered pool (w.reserve key take) ∧
      ByCarrier key w (w.reserve key take) := by
  have hcust : ∀ x, (w.reserve key take).custody x =
      if x ∈ (w.remaining.take take).map fun p => canonicalDeviceCode p.code then .held key
      else w.custody x := fun _ => rfl
  have htaken : ∀ x, x ∈ (w.remaining.take take).map (fun p => canonicalDeviceCode p.code) →
      ∃ p ∈ w.remaining, p ∈ w.remaining.take take ∧ canonicalDeviceCode p.code = x ∧
        w.custody x = .waiting := by
    intro x hx
    obtain ⟨p, hp, rfl⟩ := mem_map.mp hx
    have hmem := mem_of_mem_take hp
    exact ⟨p, hmem, hp, rfl, hinv.waiting p hmem⟩
  have hkept : ∀ x, w.custody x ≠ .waiting → (w.reserve key take).custody x = w.custody x := by
    intro x hnot
    rw [hcust, if_neg]
    intro hmem
    obtain ⟨-, -, -, -, hwaiting⟩ := htaken x hmem
    exact hnot hwaiting
  -- what is left is not what was taken
  have hleft : ∀ p ∈ w.remaining.drop take, canonicalDeviceCode p.code ∉
      (w.remaining.take take).map fun p => canonicalDeviceCode p.code := by
    intro p hp hmem
    have hnodup := hinv.remaining_nodup
    rw [← take_append_drop take w.remaining, map_append] at hnodup
    exact disjoint_of_nodup_append hnodup hmem (mem_map_of_mem hp)
  have hcons : (w.reserve key take).Consistent :=
    ⟨hinv.consistent.attached, hinv.consistent.canonical⟩
  constructor
  · refine ⟨⟨hcons, hinv.commands, fun x c hx => ?_, hinv.fresh, hinv.others, hinv.travels⟩,
      fun code hcode => ?_, fun p hp => hinv.remaining_mem p (mem_of_mem_drop hp),
      hinv.remaining_nodup.sublist ((drop_sublist _ _).map _), fun p hp => ?_,
      fun code hcode hnot hout => ?_, fun p hp => ?_, fun code hcode => ?_⟩
    · rw [hcust] at hx
      split at hx
      · rename_i hmem
        obtain ⟨p, hp, -, rfl, -⟩ := htaken x hmem
        rw [← Custody.held.inj hx]
        exact ⟨mem_payloadKeys (hpool p (hinv.remaining_mem p hp)).1, hkey⟩
      · exact hinv.held x c hx
    · obtain ⟨hpay, hthere, hfree⟩ := hinv.settled code hcode
      refine ⟨hpay, hthere, fun c hx => ?_⟩
      rw [hcust] at hx
      split at hx
      · rename_i hmem
        obtain ⟨p, hp, -, heq, -⟩ := htaken _ hmem
        have hp' := hpool p (hinv.remaining_mem p hp)
        rw [hdist.code_eq hp'.1 hpay heq] at hp'
        exact hp'.2 hcode
      · exact hfree c hx
    · rw [hcust, if_neg (hleft p hp)]
      exact hinv.waiting p (mem_of_mem_drop hp)
    · rw [hcust, if_neg]
      · exact hinv.later code hcode hnot hout
      · intro hmem
        obtain ⟨p, hp, -, heq, -⟩ := htaken _ hmem
        have hp' := hinv.remaining_mem p hp
        exact hout p hp' (hdist.code_eq (hpool p hp').1 hcode heq)
    · rcases hinv.cover p hp with hrest | ⟨c, hc, hheld⟩ | hdone
      · rw [← take_append_drop take w.remaining, mem_append] at hrest
        rcases hrest with hnow | hlater
        · refine .inr (.inl ⟨key, hkey, ?_⟩)
          rw [hcust, if_pos (mem_map_of_mem hnow)]
        · exact .inl hlater
      · refine .inr (.inl ⟨c, hc, ?_⟩)
        rw [hkept _ (by rw [hheld]; exact nofun), hheld]
      · exact .inr (.inr hdone)
    · obtain ⟨hpay, hthere, hdone⟩ := hinv.arrived code hcode
      refine ⟨hpay, hthere, ?_⟩
      rw [hkept _ (by rw [hdone]; exact nofun), hdone]
  · refine ⟨fun _ _ _ => rfl, fun x c hc => ?_, fun p hp => mem_of_mem_drop hp, fun x hx => ?_,
      fun _ hid _ => hid⟩
    · rw [hcust]
      split
      · rename_i hmem
        obtain ⟨-, -, -, -, hwaiting⟩ := htaken _ hmem
        rw [hwaiting]
        exact ⟨fun h => absurd (Custody.held.inj h).symm hc, nofun⟩
      · rfl
    · rw [hkept x (by rw [hx]; exact nofun), hx]

variable (job fresh) in
/-- An empty carrier that came to the origin for the pending payloads. -/
structure Arrived (key origin : String) (pending : List String) (w : World) : Prop extends
    job.Loaded fresh (fun id => id.destination = canonicalDeviceCode origin ∧
      ∀ code ∈ pending, canonicalDeviceCode code ∈ stems id.payload) key origin [] w where
  remaining : ∀ p ∈ w.remaining, p.code ∈ pending

omit hdist hkey in
lemma Arrived.beside (h : job.Arrived fresh key origin pending w)
    (hrely : Beside key w w') : job.Arrived fresh key origin pending w' :=
  ⟨h.toLoaded.beside hrely, fun p hp => h.remaining p (hrely.remaining p hp)⟩

omit hdist hkey in
/-- A loop that ends at the origin leaves a travel for payloads of the origin. -/
lemma Arrived.roundEnd (hne : pending ≠ []) (hpend : ∀ code ∈ pending, ∃ p ∈ pool, p.code = code)
    (h : job.Arrived fresh key origin pending w) : job.RoundEnd fresh pool key false w := by
  refine ⟨h.toCarries.mono fun id hok => ?_, h.rested⟩
  obtain ⟨code, rest, rfl⟩ := exists_cons_of_ne_nil hne
  obtain ⟨p, hp, rfl⟩ := hpend code mem_cons_self
  exact ⟨p, hp, hok.2 _ mem_cons_self⟩

include hcar hplain in
/-- At the origin the carrier reserves what it can carry, and carries it. -/
lemma keeps_loadAtOrigin (hpool : ∀ p ∈ pool, p.code ∈ job.payloadCodes ∧ p.code ∉ delivered)
    (hne : pending ≠ []) (hpend : ∀ code ∈ pending, ∃ p ∈ pool, p.code = code)
    (h : job.Arrived fresh key origin pending w) :
    (job.contract fresh w₀ delivered pool key).Keeps (job.RoundEnd fresh pool key)
      (job.loadAtOrigin carrier origin) w := by
  unfold loadAtOrigin
  refine keeps_getDevice fun w₁ hrely₁ hinv₁ => ?_
  have h₁ := h.beside hrely₁
  rw [← hcar]
  refine keeps_ite (fun hatt => absurd h₁.attached_eq_nil hatt) fun _ => ?_
  refine keeps_ite (fun _ => keeps_ret fun w₂ hrely₂ _ => ?_) fun _ => ?_
  · exact (h₁.beside hrely₂).roundEnd hne hpend
  · refine keeps_locked_bind fun w₂ hrely₂ hinv₂ => ?_
    have h₂ := h₁.beside hrely₂
    generalize ((w₁.devices key).attachCapacity.getD 0).toNat = take
    obtain ⟨hinv₃, hguar⟩ := hinv₂.reserve hdist hkey hpool take
    refine ⟨hinv₃, hguar, ?_⟩
    have hheld : ∀ x, (w₂.reserve key take).custody x = .held key ↔
        x ∈ ((w₂.remaining.take take).map (·.code)).map canonicalDeviceCode := by
      intro x
      rw [map_map]
      show (if x ∈ (w₂.remaining.take take).map fun p => canonicalDeviceCode p.code then .held key
        else w₂.custody x) = Custody.held key ↔ _
      split
      · rename_i hmem
        exact ⟨fun _ => hmem, fun _ => rfl⟩
      · rename_i hmem
        exact ⟨fun hx => absurd hx (h₂.free x), fun hx => absurd hx hmem⟩
    by_cases hempty : (w₂.remaining.take take).map (·.code) = []
    · -- nothing was left, so nothing is held
      unfold carry
      rw [if_pos hempty]
      refine keeps_ret fun w₄ hrely₄ _ => ?_
      have h₃ : job.Arrived fresh key origin pending (w₂.reserve key take) := by
        refine ⟨⟨⟨fun x => ?_, h₂.attached, fun hf id hid htgt => ?_⟩, h₂.stands, h₂.rested⟩,
          fun p hp => h₂.remaining p (mem_of_mem_drop hp)⟩
        · rw [hheld, hempty]
        · exact (h₂.trail hf id hid htgt).imp_left (·.mono hguar.delivered)
      exact (h₃.beside hrely₄).roundEnd hne hpend
    · refine keeps_carry hdist hkey (fun code hcode => ?_) hcar hplain hempty
        ⟨⟨hheld, fun x hx => ?_, fun hf id hid htgt => ?_⟩, h₂.stands, h₂.rested⟩
        (fun p hp => (hpool p hp).1) hinv₃
      · obtain ⟨p, hp, rfl⟩ := mem_map.mp hcode
        exact (hpool p (hinv₂.remaining_mem p (mem_of_mem_take hp))).1
      · exact absurd (h₂.attached x hx) not_mem_nil
      · rcases h₂.trail hf id hid htgt with hspent | hok
        · exact .inl (hspent.mono hguar.delivered)
        · obtain ⟨code, rest, hcodes⟩ := exists_cons_of_ne_nil hempty
          have hmem : code ∈ (w₂.remaining.take take).map (·.code) := by
            rw [hcodes]
            exact mem_cons_self
          obtain ⟨p, hp, rfl⟩ := mem_map.mp hmem
          exact .inr ⟨hok.1, p.code, hmem, hok.2 _ (h₂.remaining p (mem_of_mem_take hp))⟩

variable (job fresh) in
/-- An empty carrier that sets out for the pending payloads. -/
structure Approaches (key origin : String) (pending : List String) (w : World) : Prop extends
    job.Idle fresh (fun _ => False) key w where
  remaining : ∀ p ∈ w.remaining, p.code ∈ pending
  unused : fresh → Unused key (canonicalDeviceCode origin) (pending.map canonicalDeviceCode) w

omit hdist hkey in
lemma Approaches.beside (h : job.Approaches fresh key origin pending w) (hrely : Beside key w w') :
    job.Approaches fresh key origin pending w' :=
  ⟨h.toIdle.beside hrely, fun p hp => h.remaining p (hrely.remaining p hp),
    fun hf id hid htgt => h.unused hf id (hrely.travels id hid htgt) htgt⟩

include hcar hplain

/-- The leg to the origin, for the pending payloads. -/
lemma keeps_toOrigin (horig : fresh → ',' ∉ origin.toList) (hne : pending ≠ [])
    (hpend : ∀ code ∈ pending, code ∈ job.payloadCodes)
    (h : job.Approaches fresh key origin pending w) :
    (job.contract fresh w₀ delivered pool key).Keeps
      (fun _ w => job.Arrived fresh key origin pending w)
      (ensureDeviceAt job.options carrier origin (canonicalPayloadKey pending)) w := by
  refine Keeps.mono (keeps_carrierLeg hdist hkey hcar hplain
    (K := fun id => id.destination = canonicalDeviceCode origin ∧
      ∀ code ∈ pending, canonicalDeviceCode code ∈ stems id.payload)
    (X := fun w => ∀ p ∈ w.remaining, p.code ∈ pending)
    (fun w w' hrely _ hrem p hp => hrem p (hrely.remaining p hp))
    (fun w w' id hdep hrem => by rwa [hdep.remaining]) hne hpend horig (fun _ hfalse => hfalse.elim)
    (fun id hid => ⟨hid.destination, fun code hcode => (hid.names _).mpr (mem_map_of_mem hcode)⟩)
    h.toCarries h.remaining h.rested fun hf _ => h.unused hf) fun _ w _ hdone => ?_
  obtain ⟨hstands, ⟨hcarries, hrem⟩, hrested⟩ := hdone
  exact ⟨⟨hcarries, hstands, hrested⟩, hrem⟩

/-- One round of the loop of a carrier. -/
lemma keeps_runCarrierTrips (horig : fresh → ',' ∉ origin.toList)
    (hpool : ∀ p ∈ pool, p.code ∈ job.payloadCodes ∧ p.code ∉ delivered)
    (h : job.Idle fresh (fun _ => False) key w) :
    (job.contract fresh w₀ delivered pool key).Keeps (job.RoundEnd fresh pool key)
      (job.runCarrierTrips origin carrier) w := by
  unfold runCarrierTrips
  refine keeps_ask_bind fun w₁ hrely₁ hinv₁ => ?_
  have h₁ := h.beside hrely₁
  refine keeps_ite (fun _ => keeps_ret fun w₂ hrely₂ _ => ?_) fun hne => ?_
  · have h₂ := h₁.beside hrely₂
    exact ⟨h₂.toCarries.mono fun _ hfalse => hfalse.elim, h₂.rested⟩
  -- the pending payloads wait, so no travel before was with just these
  have hpend : ∀ code ∈ w₁.remaining.map (·.code), ∃ p ∈ pool, p.code = code := by
    intro code hcode
    obtain ⟨p, hp, rfl⟩ := mem_map.mp hcode
    exact ⟨p, hinv₁.remaining_mem p hp, rfl⟩
  have hcodes : ∀ code ∈ w₁.remaining.map (·.code), code ∈ job.payloadCodes := by
    intro code hcode
    obtain ⟨p, hp, rfl⟩ := hpend code hcode
    exact (hpool p hp).1
  have hunused₁ : fresh → Unused key (canonicalDeviceCode origin)
      ((w₁.remaining.map (·.code)).map canonicalDeviceCode) w₁ := by
    intro hf
    refine (h₁.trail hf).unused (fun _ hfalse => hfalse.elim) fun x hx => ?_
    obtain ⟨code, hcode, rfl⟩ := mem_map.mp hx
    obtain ⟨p, hp, rfl⟩ := mem_map.mp hcode
    refine ⟨mem_payloadKeys (hcodes _ hcode), ?_⟩
    rw [hinv₁.waiting p hp]
    exact nofun
  have hstart : job.Approaches fresh key origin (w₁.remaining.map (·.code)) w₁ :=
    ⟨h₁, fun p hp => mem_map_of_mem hp, hunused₁⟩
  generalize w₁.remaining.map (·.code) = pending at hne hpend hcodes hstart
  refine keeps_getDevice fun w₂ hrely₂ hinv₂ => ?_
  have h₂ := hstart.beside hrely₂
  rw [← hcar]
  refine keeps_ite (fun hatt => absurd h₂.attached_eq_nil hatt) fun _ => ?_
  refine Keeps.bind (Keeps.mono (keeps_settleTransportBetween
    (fun w w' hrely => Beside.device hrely)
    hcar (fun w w' hrely _ h => h.beside hrely) ?_ h₂) fun _ w₃ hinv₃ h₃ => ?_) hinv₂
  · -- a travelling carrier is not a fresh one, and then every travel is allowed
    intro w₀ _ hP₀ htravel target location w hinv hPw
    have hnot : ¬ fresh := fun hf => htravel (hP₀.rested hf).1
    refine hinv.allows hdist hkey (fun hf => absurd hf hnot) fun w' hdep => ?_
    exact ⟨⟨hPw.toCarries.departs hdep fun hf => absurd hf hnot, fun hf => absurd hf hnot⟩,
      by rw [hdep.remaining]; exact hPw.remaining, fun hf => absurd hf hnot⟩
  · refine Keeps.bind ((keeps_toOrigin hdist hkey hcar hplain horig hne hcodes h₃).mono
      fun _ w₄ _ h₄ => ?_) hinv₃
    exact keeps_loadAtOrigin hdist hkey hcar hplain hpool hne hpend h₄

end Trip

end PayloadJob

end Replicant.Transport
