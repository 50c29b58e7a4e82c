import Replicant.Transport.TripTheorems

/-!
# Carriers neither lose nor double a payload

Between the trips of two origins one function acts alone: it takes what is still attached to the
carriers to the destination. With the contracts of the loops this gives an invariant of whole runs.
-/

namespace Replicant.Transport

open Lib Lib.Text Contract Std List

variable {carrier origin : String}

namespace PayloadJob

variable (job : PayloadJob) (fresh : Prop) (w₀ : World)

/-! ## Acting alone -/

/-- Nobody else acts; devices arrive. -/
def alone : Contract World where
  inv := job.Sound fresh w₀
  rely := World.Drifts
  guar _ _ := True
  rely_refl := World.Drifts.refl
  rely_trans := World.Drifts.trans
  guar_refl _ := trivial

/-- What holds between the trips of two origins: the payloads in `done` are delivered, nobody holds one,
those that are not `gone` wait, and only the carriers in `busy` may have some attached. What is known
of each carrier is known of those that are `still`. -/
structure Rest (still : String → Prop) (done gone busy : List String) (w : World) : Prop where
  settled : job.Settled done w
  empty : ∀ c ∈ job.carrierKeys, c ∈ busy ∨ (w.devices c).attachedDevices = []
  waits : ∀ c ∈ job.carrierKeys, still c →
    ∀ p ∈ (w.devices c).attachedDevices, w.custody p = .waiting
  unheld : ∀ x c, w.custody x ≠ .held c
  waiting : ∀ code ∈ job.payloadCodes, code ∉ gone → w.custody (canonicalDeviceCode code) = .waiting
  rested : fresh → ∀ c ∈ job.carrierKeys, still c → Rested c w
  trail : fresh → ∀ c ∈ job.carrierKeys, still c → job.Trail (fun _ => False) c w

/-- All carriers are still. -/
abbrev Ready (done busy : List String) : World → Prop :=
  job.Rest fresh (fun _ => True) done done busy

/-- The carrier `key` is on its way with what is attached to it. -/
structure Brings (ok : OperationId → Prop) (key : String) (attached done busy : List String)
    (w : World) : Prop extends job.Rest fresh (· ≠ key) done done (key :: busy) w where
  aboard : ∀ p ∈ attached, w.custody p = .waiting
  attached : (w.devices key).attachedDevices = attached
  own : fresh → job.Trail ok key w

/-- It has come to rest. -/
structure Rests (ok : OperationId → Prop) (key : String) (attached done busy : List String)
    (w : World) : Prop extends job.Brings fresh ok key attached done busy w where
  still : fresh → Rested key w

/-- The carrier `key` stands at the destination, and has been told to detach the payloads. -/
structure Leaves (key : String) (attached done busy : List String) (w : World) : Prop
    extends job.Rest fresh (· ≠ key) done (done ++ attached) (key :: busy) w where
  subset : ∀ x ∈ (w.devices key).attachedDevices, x ∈ attached
  left : ∀ code ∈ attached, (w.devices code).attachedTo = some key ∨
    job.AtDestination (w.devices code)
  still : fresh → Rested key w
  own : fresh → job.Trail (fun _ => False) key w

variable {job fresh w₀} {key : String} {w w' : World} {done gone busy attached : List String}
  {ok ok' : OperationId → Prop}

/-- The travel was with one of the payloads. -/
def Carried (attached : List String) (id : OperationId) : Prop :=
  ∃ code ∈ attached, code ∈ stems id.payload

lemma Trail.drifts (h : job.Trail ok key w) (hdrift : w.Drifts w') : job.Trail ok key w' :=
  h.beside (beside_of_drifts key hdrift)

lemma Rest.drifts {still : String → Prop} (h : job.Rest fresh still done gone busy w)
    (hdrift : w.Drifts w') : job.Rest fresh still done gone busy w' := by
  have hdevs := hdrift.devices
  have hsettled := h.settled.drifts hdrift
  have htrail := fun hf c hc hs => (h.trail hf c hc hs).drifts hdrift
  obtain ⟨devices, journal, rfl⟩ := hdrift.exists_eq
  refine { h with
    settled := hsettled, trail := htrail, empty := fun c hc => ?_, waits := fun c hc => ?_
    rested := fun hf c hc hs => (h.rested hf c hc hs).drifts (hdevs c) }
  all_goals rw [(hdevs c).attachedDevices]
  · exact h.empty c hc
  · exact h.waits c hc

/-- Only which payloads are in the list matters. -/
lemma Rest.congr {done' : List String} (h : job.Ready fresh done busy w)
    (hmem : ∀ code, code ∈ done ↔ code ∈ done') : job.Ready fresh done' busy w :=
  { h with
    settled := fun code hcode => h.settled code ((hmem code).mpr hcode)
    waiting := fun code hcode hnot => h.waiting code hcode fun hmem' => hnot ((hmem code).mp hmem') }

lemma Rest.rests (h : job.Ready fresh done (key :: busy) w) (hkey : key ∈ job.carrierKeys) :
    job.Rests fresh (fun _ => False) key (w.devices key).attachedDevices done busy w :=
  { h with
    waits := fun c hc _ => h.waits c hc trivial
    rested := fun hf c hc _ => h.rested hf c hc trivial
    trail := fun hf c hc _ => h.trail hf c hc trivial
    attached := rfl
    aboard := h.waits key hkey trivial
    own := fun hf => h.trail hf key hkey trivial
    still := fun hf => h.rested hf key hkey trivial }

/-- An empty carrier that stands still is one of those that do. -/
lemma Rest.joined (h : job.Rest fresh (· ≠ key) done gone (key :: busy) w)
    (hempty : (w.devices key).attachedDevices = []) (hstill : fresh → Rested key w)
    (hown : fresh → job.Trail (fun _ => False) key w) :
    job.Rest fresh (fun _ => True) done gone busy w := by
  refine { h with
    empty := fun c hc => ?_, waits := fun c hc _ => ?_
    rested := fun hf c hc _ => ?_, trail := fun hf c hc _ => ?_ }
  all_goals by_cases hne : c = key
  · exact .inr (hne ▸ hempty)
  · exact (h.empty c hc).imp_left fun hbusy => (mem_cons.mp hbusy).resolve_left hne
  · rw [hne, hempty]
    exact nofun
  · exact h.waits c hc hne
  · exact hne ▸ hstill hf
  · exact h.rested hf c hc hne
  · exact hne ▸ hown hf
  · exact h.trail hf c hc hne

lemma Rests.ready (h : job.Rests fresh (fun _ => False) key [] done busy w) :
    job.Ready fresh done busy w :=
  h.toRest.joined h.attached h.still h.own

lemma Brings.drifts (h : job.Brings fresh ok key attached done busy w) (hdrift : w.Drifts w') :
    job.Brings fresh ok key attached done busy w' where
  toRest := h.toRest.drifts hdrift
  attached := (hdrift.devices key).attachedDevices.trans h.attached
  aboard := hdrift.custody ▸ h.aboard
  own hf := (h.own hf).drifts hdrift

lemma Rests.drifts (h : job.Rests fresh ok key attached done busy w) (hdrift : w.Drifts w') :
    job.Rests fresh ok key attached done busy w' :=
  ⟨h.toBrings.drifts hdrift, fun hf => (h.still hf).drifts (hdrift.devices key)⟩

lemma Rests.unmoved (h : job.Rests fresh (fun _ => False) key attached done busy w) :
    job.Rests fresh ok key attached done busy w :=
  { h with own := fun hf => (h.own hf).mono fun _ _ _ hfalse => hfalse.elim }

section

variable (h : job.Leaves fresh key attached done busy w)

include h

lemma Leaves.drifts (hdrift : w.Drifts w') : job.Leaves fresh key attached done busy w' where
  toRest := h.toRest.drifts hdrift
  subset := (hdrift.devices key).attachedDevices ▸ h.subset
  left code hcode := by
    have hdev := hdrift.devices code
    refine (h.left code hcode).imp (fun hto => ?_) fun hat => hat.drifts hdev
    rw [hdev.attachedTo, hto]
  still hf := (h.still hf).drifts (hdrift.devices key)
  own hf := (h.own hf).drifts hdrift

/-- Once every payload is detached, the carrier is empty and the payloads are delivered. -/
lemma Leaves.ready (hw : job.Sound fresh w₀ w) (hcodes : ∀ code ∈ attached, code ∈ job.payloadCodes)
    (hcanon : ∀ code ∈ attached, canonicalDeviceCode code = code)
    (hat : ∀ code ∈ attached, job.AtDestination (w.devices code)) :
    job.Ready fresh (done ++ attached) busy w := by
  have hempty : (w.devices key).attachedDevices = [] := by
    refine eq_nil_iff_forall_not_mem.mpr fun x hx => ?_
    have hto := (hw.consistent.attached key x).mp hx
    rw [(hat x (h.subset x hx)).2] at hto
    cases hto
  refine { h.toRest.joined hempty h.still h.own with settled := fun code hcode => ?_ }
  rcases mem_append.mp hcode with hold | hnew
  · exact h.settled code hold
  · rw [hcanon code hnew]
    exact ⟨hcodes code hnew, hat code hnew, h.unheld code⟩

end

/-! ## Travels of one carrier -/

section Travel

variable (hdist : job.Distinct) (hkey : key ∈ job.carrierKeys) {leg : String}

include hkey

lemma allowsTravel_alone (options : DeliveryOptions) :
    AllowsTravel (job.alone fresh w₀) fresh options key := by
  intro w destination leg location P hw hfresh hP
  have hdep := w.departs_submitTravel options key destination
    (travelOperationLeg leg location destination)
  refine ⟨⟨hdep.consistent hw.consistent, ?_, ?_, fun hf => hdep.nodup (hfresh hf) (hw.fresh hf),
    fun x hpay hcar => ?_, fun id hid => ?_⟩, trivial, hP _ hdep⟩
  · rw [hdep.commands]
    exact hw.commands
  · rw [hdep.custody]
    exact hw.held
  · rw [hdep.others x fun heq => hcar (heq ▸ hkey)]
    exact hw.others x hpay hcar
  · rcases hdep.target (canonical_of_mem hkey) hid with hold | hown
    · exact hw.travels id hold
    · exact .inr (hown ▸ hkey)

include hdist

lemma Brings.departs {target : String} {id : Option OperationId}
    (h : job.Brings fresh ok key attached done busy w) (hdep : w.Departs key target id w')
    (hid : fresh → ∀ id' ∈ id, id'.target = key) (hown : fresh → job.Trail ok' key w') :
    job.Brings fresh ok' key attached done busy w' := by
  refine ⟨⟨fun code hcode => ?_, fun c hc => ?_, fun c hc => ?_, hdep.custody ▸ h.unheld,
    hdep.custody ▸ h.waiting, fun hf c hc hne => ?_, fun hf c hc hne => ?_⟩,
    hdep.custody ▸ h.aboard, (hdep.attached _).2.trans h.attached, hown⟩
  · obtain ⟨hpay, hat, hfree⟩ := h.settled code hcode
    have hapart : canonicalDeviceCode code ≠ key := fun heq =>
      hdist.apart _ (mem_payloadKeys hpay) (heq ▸ hkey)
    rw [hdep.custody, hdep.others _ hapart]
    exact ⟨hpay, hat, hfree⟩
  · rw [(hdep.attached _).2]
    exact h.empty c hc
  · rw [(hdep.attached _).2, hdep.custody]
    exact h.waits c hc
  · unfold Rested
    rw [hdep.others c hne]
    exact h.rested hf c hc hne
  · intro id' hid' htgt
    unfold Spent
    rw [hdep.custody]
    rw [hdep.travels, mem_append, Option.mem_toList] at hid'
    rcases hid' with hnew | hold
    · exact absurd (htgt.symm.trans (hid hf id' hnew)) hne
    · exact h.trail hf c hc hne id' hold htgt

/-- A carrier that stands still is left alone; one that travels comes to rest, which only a carrier
does that was not at rest before. -/
lemma keeps_settle_alone {destination : String} (hcar : key = canonicalDeviceCode carrier)
    {options : DeliveryOptions} (h : job.Rests fresh (fun _ => False) key attached done busy w) :
    (job.alone fresh w₀).Keeps (fun _ w => job.Rests fresh (fun _ => False) key attached done busy w)
      (settleTransportBetween options carrier origin destination leg) w := by
  refine keeps_settleTransportBetween (fun w w' hrely => World.Drifts.devices hrely key) hcar
    (fun w w' hrely _ hP => hP.drifts hrely) ?_ h
  intro w₁ _ hP₁ htravel target location w hinv hP
  have hnot : ¬ fresh := fun hf => htravel (hP₁.still hf).1
  refine allowsTravel_alone hkey options w _ leg location _ hinv (fun hf => absurd hf hnot)
    fun w' hdep => ⟨?_, fun hf => absurd hf hnot⟩
  exact hP.departs hdist hkey hdep (fun hf => absurd hf hnot) fun hf => absurd hf hnot

lemma Rests.submitDetach (hw : job.Sound fresh w₀ w) (hplain : fresh → job.Plain)
    (hcodes : ∀ code ∈ attached, code ∈ job.payloadCodes)
    (hcanon : ∀ code ∈ attached, canonicalDeviceCode code = code)
    (h : job.Rests fresh (Carried attached) key attached done busy w)
    (hstands : (w.devices key).standsAt job.destination = true) (options : DeliveryOptions) :
    job.Sound fresh w₀ (w.submitDetach options key (canonicalPayloadCodes attached)) ∧
      job.Leaves fresh key attached done busy
        (w.submitDetach options key (canonicalPayloadCodes attached)) := by
  have hmem : ∀ x, x ∈ canonicalPayloadCodes attached ↔ x ∈ attached := by
    intro x
    rw [mem_canonicalPayloadCodes, mem_map]
    constructor
    · rintro ⟨code, hcode, rfl⟩
      rwa [hcanon code hcode]
    · exact fun hx => ⟨x, hx, hcanon x hx⟩
  have hkeys : ∀ x ∈ attached, x ∈ job.payloadKeys := by
    intro x hx
    rw [← hcanon x hx]
    exact mem_payloadKeys (hcodes x hx)
  have hto : ∀ x ∈ attached, (w.devices x).attachedTo = some key := fun x hx =>
    (hw.consistent.attached key x).mp (by rw [h.attached]; exact hx)
  have houtside : key ∉ canonicalPayloadCodes attached := fun hx =>
    hdist.apart key (hkeys key ((hmem key).mp hx)) hkey
  obtain ⟨hsent, hmarked⟩ := w.commands_submitDetach options key (canonicalPayloadCodes attached)
  generalize w.submitDetach options key (canonicalPayloadCodes attached) = w' at hsent hmarked ⊢
  -- all of them waited, so all are marked; the others keep their custody
  have hnow : ∀ x ∈ attached, w'.custody x = .delivered := by
    intro x hx
    rw [hmarked, if_pos ⟨(hmem x).mpr hx, h.aboard x hx⟩]
  have hother : ∀ x, x ∉ attached → w'.custody x = w.custody x := by
    intro x hx
    rw [hmarked, if_neg fun hand => hx ((hmem x).mp hand.1)]
  have hspent : ∀ x, w.custody x = .delivered → w'.custody x = .delivered := by
    intro x hx
    by_cases hin : x ∈ attached
    · exact hnow x hin
    · rw [hother x hin, hx]
  have hdevs : ∀ x, x ≠ key → x ∉ attached → w'.devices x = w.devices x := by
    intro x hx hin
    exact hsent.induct (P := fun d => d x = _) rfl
      (w.devices_detach_of_not_mem _ _ hx fun hx' => hin ((hmem x).mp hx'))
  have hown : (w'.devices key).travel = (w.devices key).travel ∧
      (w'.devices key).location = (w.devices key).location ∧
      ∀ x ∈ (w'.devices key).attachedDevices, x ∈ attached := by
    refine hsent.induct (P := fun d => (d key).travel = _ ∧ (d key).location = _ ∧
      ∀ x ∈ (d key).attachedDevices, x ∈ attached) ⟨rfl, rfl, fun x hx => h.attached ▸ hx⟩ ?_
    rw [w.devices_detach_self, h.attached]
    exact ⟨rfl, rfl, fun x hx => (mem_filter.mp hx).1⟩
  have hunheld : ∀ x c, w'.custody x ≠ .held c := by
    intro x c hx
    by_cases hin : x ∈ attached
    · rw [hnow x hin] at hx
      cases hx
    · rw [hother x hin] at hx
      exact h.unheld x c hx
  have hfree : ∀ code, job.AtDestination (w.devices code) → code ∉ attached := by
    intro code hat hcode
    have hcontra := hat.2
    rw [hto code hcode] at hcontra
    cases hcontra
  constructor
  · refine ⟨hsent.consistent hw.consistent (hw.consistent.detach houtside), ?_, fun x c hx => ?_,
      by rw [hsent.travels]; exact hw.fresh, fun x hpay hcar => ?_,
      by rw [hsent.travels]; exact hw.travels⟩
    · rw [hsent.commands]
      exact forall_mem_cons.mpr
        ⟨⟨fun code hcode => hkeys code ((hmem code).mp hcode), fun _ => hstands⟩, hw.commands⟩
    · exact absurd hx (hunheld x c)
    · rw [hdevs x (fun heq => hcar (heq ▸ hkey)) fun hin => hpay (hkeys x hin)]
      exact hw.others x hpay hcar
  · -- the other carriers are not touched
    have hcars : ∀ c ∈ job.carrierKeys, c ≠ key → w'.devices c = w.devices c := fun c hc hne =>
      hdevs c hne fun hin => hdist.apart c (hkeys c hin) hc
    refine ⟨⟨fun code hcode => ?_, fun c hc => ?_, fun c hc hne p hp => ?_, hunheld,
      fun code hcode hnot => ?_, fun hf c hc hne => ?_, fun hf c hc hne id hid htgt => ?_⟩, hown.2.2,
      fun code hcode => ?_, fun hf => ?_, fun hf id hid htgt => ?_⟩
    · obtain ⟨hpay, hat, hloose⟩ := h.settled code hcode
      have hapart : canonicalDeviceCode code ≠ key := fun heq =>
        hdist.apart _ (mem_payloadKeys hpay) (heq ▸ hkey)
      rw [hdevs _ hapart (hfree _ hat), hother _ (hfree _ hat)]
      exact ⟨hpay, hat, hloose⟩
    · by_cases hne : c = key
      · exact .inl (hne ▸ mem_cons_self)
      · rw [hcars c hc hne]
        exact h.empty c hc
    · rw [hcars c hc hne] at hp
      rw [hother p fun hin => ?_]
      · exact h.waits c hc hne p hp
      · -- it is attached to another carrier
        have hp' := (hw.consistent.attached c p).mp hp
        rw [hto p hin] at hp'
        exact hne (Option.some.inj hp').symm
    · rw [mem_append, not_or] at hnot
      rw [hother _ fun hin => ?_]
      · exact h.waiting code hcode hnot.1
      · refine hnot.2 ?_
        rwa [hdist.code_eq hcode (hcodes _ hin) (hcanon _ hin).symm]
    · unfold Rested
      rw [hcars c hc hne]
      exact h.rested hf c hc hne
    · rw [hsent.travels] at hid
      exact (h.trail hf c hc hne id hid htgt).imp_left (·.mono hspent)
    · exact hsent.detached (fun heq => hdist.apart code (hkeys code hcode) (heq ▸ hkey))
        ((hmem code).mpr hcode) (hto code hcode) hstands
    · unfold Rested
      rw [hown.1, hown.2.1]
      exact h.still hf
    · rw [hsent.travels] at hid
      rcases h.own hf id hid htgt with hold | hnew
      · exact .inl (hold.mono hspent)
      · obtain ⟨code, hcode, hstem⟩ := hnew
        refine .inl ⟨code, hstem, ?_, fun _ => hnow code hcode⟩
        rw [← hcanon code hcode]
        exact (hplain hf).notReturn code (hcodes code hcode)

omit hdist hkey in
lemma keeps_ensureOnlyDeliveryAttachments {C : Contract World} {α : Type}
    {post : α → World → Prop} {k : Unit → Program α} {codes : List String}
    (h : (∀ code ∈ attached, code ∈ codes) → C.Keeps post (k ()) w) :
    C.Keeps post ((ensureOnlyDeliveryAttachments carrier attached codes).bind k) w := by
  unfold ensureOnlyDeliveryAttachments
  by_cases hnone : attached.filter (· ∉ codes) = []
  · rw [if_pos hnone]
    refine h fun code hcode => ?_
    by_contra hout
    have hmem : code ∈ attached.filter (· ∉ codes) := mem_filter.mpr ⟨hcode, decide_eq_true hout⟩
    rw [hnone] at hmem
    exact not_mem_nil hmem
  · rw [if_neg hnone]
    exact keeps_fail

section Attached

variable (hcar : key = canonicalDeviceCode carrier) (hplain : fresh → job.Plain)
  (hne : attached ≠ []) (hcodes : ∀ code ∈ attached, code ∈ job.payloadCodes)
  (hcanon : ∀ code ∈ attached, canonicalDeviceCode code = code)

include hcar hplain hne hcodes hcanon

section

variable (h : job.Rests fresh (fun _ => False) key attached done busy w)

include h

/-- The leg to the destination with what was found attached. -/
lemma keeps_ensure_attached : (job.alone fresh w₀).Keeps
      (fun _ w => job.Rests fresh (Carried attached) key attached done busy w)
      (ensureDeviceAt job.options carrier job.destination (canonicalPayloadKey attached)) w := by
  refine Keeps.mono (keeps_leg hcar (fun w w' hrely => World.Drifts.devices hrely key)
    (fun w w' hrely id hid _ => by rwa [World.Drifts.travels hrely] at hid)
    (allowsTravel_alone hkey _) (fun hf => legible_payloads (hplain hf) hne hcodes _)
    (fun hf => (hplain hf).destination)
    (fun w w' hrely _ hP => hP.drifts hrely) (fun w w' hrely _ hQ => hQ.drifts hrely)
    (fun w hP => { hP with own := fun hf => (hP.own hf).mono fun _ _ _ hfalse => hfalse.elim })
    (fun w w' id hQ hdep hid => ?_) h.toBrings h.still fun hf _ => ?_)
    fun _ w _ hdone => ⟨hdone.2.1, hdone.2.2⟩
  · refine hQ.departs hdist hkey hdep (fun hf id' hid' => (hid hf id' hid').target) fun hf => ?_
    refine (hQ.own hf).departs hdep fun id' hid' => ?_
    obtain ⟨code, rest, rfl⟩ := exists_cons_of_ne_nil hne
    refine ⟨code, mem_cons_self, ((hid hf id' hid').names _).mpr ?_⟩
    exact mem_map.mpr ⟨code, mem_cons_self, hcanon code mem_cons_self⟩
  · refine (h.own hf).unused (fun _ hfalse => hfalse.elim) fun x hx => ?_
    obtain ⟨code, hcode, rfl⟩ := mem_map.mp hx
    refine ⟨mem_payloadKeys (hcodes code hcode), ?_⟩
    rw [hcanon code hcode, h.aboard code hcode]
    exact nofun

lemma keeps_bringAttached : (job.alone fresh w₀).Keeps
      (fun _ w => job.Rests fresh (Carried attached) key attached done busy w)
      (bringAttached job.options carrier origin job.destination (canonicalPayloadKey attached)) w := by
  refine keeps_getDevice fun w₁ hrely₁ _ => ?_
  have h₁ := h.drifts hrely₁
  have hensure : (job.alone fresh w₀).Keeps _ (ensureDeviceAt job.options carrier job.destination
      (canonicalPayloadKey attached)) w₁ :=
    keeps_ensure_attached hdist hkey hcar hplain hne hcodes hcanon h₁
  split
  · exact keeps_ret fun w₂ hrely₂ _ => (h₁.drifts hrely₂).unmoved
  · exact hensure
  · exact keeps_ite (fun _ => hensure) fun _ => keeps_fail

end

variable (h : job.Rests fresh (Carried attached) key attached done busy w)

include h

/-- What was found attached is detached at the destination. -/
lemma keeps_detachDevices_attached (hstands : (w.devices key).standsAt job.destination = true) :
    (job.alone fresh w₀).Keeps (fun _ w => job.Ready fresh (done ++ attached) busy w)
      (detachDevices job.options carrier attached) w := by
  unfold detachDevices
  rw [if_neg hne, ← hcar]
  refine keeps_put_bind fun w₁ hrely₁ hinv₁ => ?_
  obtain ⟨hinv₂, hleaves₂⟩ := (h.drifts hrely₁).submitDetach hdist hkey hinv₁ hplain hcodes
    hcanon ((World.Drifts.devices hrely₁ key).standsAt hstands) job.options
  refine ⟨hinv₂, trivial, ?_⟩
  refine (keeps_forEach_wait (R := job.AtDestination) (fun w w' hrely hP => hP.drifts hrely)
    (fun w w' s _ hrely _ hR => hR.drifts (World.Drifts.devices hrely _))
    (fun w s hs hP hfits => ?_) hinv₂ hleaves₂ _).mono fun _ w hinv hdone => ?_
  · rw [hcanon s hs] at hfits ⊢
    refine (hP.left s hs).resolve_left fun hto => ?_
    rw [hto] at hfits
    cases hfits
  · refine hdone.1.ready hinv hcodes hcanon fun code hcode => ?_
    have hat := hdone.2 code hcode
    rwa [hcanon code hcode] at hat

lemma keeps_detachAttached :
    (job.alone fresh w₀).Keeps (fun result w => job.Ready fresh (done ++ result) busy w)
      (detachAttached job.options carrier job.destination job.payloadCodes) w := by
  refine keeps_getDevice fun w₁ hrely₁ hinv₁ => ?_
  have h₁ := h.drifts hrely₁
  rw [← hcar, h₁.attached]
  refine keeps_ite (fun hstands => ?_) fun _ => keeps_fail
  refine keeps_ensureOnlyDeliveryAttachments fun _ => ?_
  rw [if_neg hne]
  refine Keeps.bind ((keeps_detachDevices_attached hdist hkey hcar hplain hne hcodes hcanon
    h₁ hstands).mono fun _ w₂ _ h₂ => keeps_ret fun w₃ hrely₃ _ => ?_) hinv₁
  exact h₂.drifts hrely₃

end Attached

variable (hcar : key = canonicalDeviceCode carrier) (hplain : fresh → job.Plain)

include hcar hplain

/-- A carrier with attachments brings them to the destination; they are the payloads it returns. -/
lemma keeps_continueAttachedDelivery (h : job.Ready fresh done (key :: busy) w) :
    (job.alone fresh w₀).Keeps (fun result w => job.Ready fresh (done ++ result) busy w)
      (continueAttachedDelivery job.options carrier origin job.destination job.payloadCodes) w := by
  refine keeps_getDevice fun w₁ hrely₁ hinv₁ => ?_
  have h₁ := h.drifts hrely₁
  have hbrings := h₁.rests hkey
  have hcanon : ∀ code ∈ (w₁.devices key).attachedDevices, canonicalDeviceCode code = code :=
    Sound.consistent hinv₁ |>.canonical key
  rw [← hcar]
  refine keeps_ensureOnlyDeliveryAttachments fun hcodes => ?_
  refine keeps_ite (fun hnone => keeps_ret fun w₂ hrely₂ _ => ?_) fun hne => ?_
  · rw [hnone] at hbrings
    rw [append_nil]
    exact hbrings.ready.drifts hrely₂
  · generalize hatt : (w₁.devices key).attachedDevices = attached at hne hbrings hcanon hcodes
    have hsettle : (job.alone fresh w₀).Keeps
        (fun _ w => job.Rests fresh (fun _ => False) key attached done busy w)
        (settleAttached job.options carrier origin job.destination (w₁.devices key)) w₁ := by
      unfold settleAttached
      split
      · exact keeps_ret fun w₂ hrely₂ _ => hbrings.drifts hrely₂
      · split
        · exact keeps_fail
        · refine keeps_ite (fun _ => keeps_fail) fun _ => ?_
          exact keeps_settle_alone hdist hkey hcar hbrings
    refine Keeps.bind (hsettle.mono fun _ w₂ hinv₂ h₂ => ?_) hinv₁
    refine Keeps.bind ((keeps_bringAttached hdist hkey hcar hplain hne hcodes hcanon h₂).mono
      fun _ w₃ _ h₃ => ?_) hinv₂
    exact keeps_detachAttached hdist hkey hcar hplain hne hcodes hcanon h₃

/-- One carrier before the trips of an origin. -/
lemma keeps_preflightCarrier {delivered already : List String}
    (h : job.Ready fresh (delivered ++ already) (key :: busy) w) : (job.alone fresh w₀).Keeps
      (fun delivered' w => job.Ready fresh (delivered' ++ already) busy w ∧
        ∀ code ∈ delivered, code ∈ delivered') (job.preflightCarrier origin leg delivered carrier)
      w := by
  refine keeps_getDevice fun w₁ hrely₁ hinv₁ => ?_
  have h₁ := h.drifts hrely₁
  rw [← hcar]
  refine keeps_ite (fun hnone => ?_) fun _ => ?_
  · have hbrings := h₁.rests hkey
    rw [hnone] at hbrings
    refine Keeps.bind ((keeps_settle_alone hdist hkey hcar hbrings).mono fun _ w₂ _ h₂ =>
      keeps_ret fun w₃ hrely₃ _ => ?_) hinv₁
    exact ⟨h₂.ready.drifts hrely₃, fun _ hcode => hcode⟩
  · refine Keeps.bind ((keeps_continueAttachedDelivery hdist hkey hcar hplain h₁).mono
      fun continued w₂ _ h₂ => keeps_ret fun w₃ hrely₃ _ => ?_) hinv₁
    refine ⟨(h₂.drifts hrely₃).congr fun code => ?_, fun _ => mem_append_left _⟩
    rw [mem_append, mem_append, mem_append, mem_append]
    exact or_right_comm

end Travel

end PayloadJob

end Replicant.Transport
