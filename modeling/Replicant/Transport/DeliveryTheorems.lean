import Replicant.Transport.FreightTheorems
import Replicant.Lib.Transaction
import Replicant.Transport.PayloadTheorems

/-!
# Every travel of a delivery has an identity of its own

The texts of the cargo legs have a space, those of the device legs are codes without one, and the way
back has a word of its own.
-/

namespace Replicant.Transport

open Lib Lib.Text Lib.OrderedMap Contract List

variable {todo : List String}

namespace DeliveryPlan

variable (plan : DeliveryPlan) (options : DeliveryOptions)

/-! ## Conditions -/

/-- The devices, resources and places of the plan can be told apart by their names. -/
structure Plain : Prop extends plan.PlainCargo where
  distinct : (plan.payloadJob options).Distinct
  payloads : (plan.payloadJob options).Plain
  spaceless : ∀ code ∈ (plan.payloadJob options).payloadCodes, ' ' ∉ code.toList
  payloads_apart : ∀ key ∈ (plan.payloadJob options).payloadKeys, key ∉ plan.cargoKeys
  aliases : ∀ code ∈ plan.transports, ∀ code' ∈ plan.transports,
    canonicalDeviceCode code = canonicalDeviceCode code' → code = code'
  returns : ∀ code ∈ plan.transports, ∀ location ∈ plan.returnLocationForTransport code,
    ',' ∉ location.toList

/-- Nothing has happened yet, and the devices of the plan stand still. -/
structure Initial (w : World) : Prop where
  consistent : w.Consistent
  unrecorded : w.Unrecorded
  travels : w.travels = []
  transports : ∀ key ∈ plan.cargoKeys, Rested key w
  carriers : ∀ key ∈ (plan.payloadJob options).carrierKeys, Rested key w
  payloads : ∀ key ∈ (plan.payloadJob options).payloadKeys, Rested key w

/-- The travel of a loop has ended. -/
def legEnded : Program Unit → Bool
  | .ret _ => true
  | _ => false

/-- When a transport is about to reserve, some of each load it has carried before no longer remains. -/
def LoadsAnew (r : DeliveryRun) : PayloadOp → Prop
  | .go index none =>
    match r.stage with
    | .cargo d legs => d.trips[index]? = some .fetching → legs[index]?.any legEnded →
        ∀ entry ∈ r.loads, entry.1 = index →
          ∃ resource ∈ entry.2.keys, d.remaining.getD resource 0 < entry.2.getD resource 0
    | _ => True
  | _ => True

instance LoadsAnew.decidable (r : DeliveryRun) (op : PayloadOp) : Decidable (LoadsAnew r op) := by
  unfold LoadsAnew
  repeat' split
  all_goals infer_instance

variable {plan options} {w₀ w w' : World} {code : String}

/-! ## The way back -/

/-- The transports in `todo` stand still and have not been sent back. -/
structure Away (todo : List String) (w : World) : Prop where
  rested : ∀ code ∈ todo, Rested (canonicalDeviceCode code) w
  unreturned : ∀ id ∈ w.travels, ∀ code ∈ todo, id.target = canonicalDeviceCode code →
    ∃ x ∈ stems id.payload, x ≠ canonicalDeviceCode "return"

/-- One transport is moved; its identities are new. -/
def homeward : Contract World where
  inv w := w.travels.Nodup
  rely := World.Drifts
  guar _ _ := True
  rely_refl := World.Drifts.refl
  rely_trans := World.Drifts.trans
  guar_refl _ := trivial

lemma Away.tail (h : Away (code :: todo) w) : Away todo w :=
  ⟨fun c hc => h.rested c (mem_cons_of_mem _ hc),
    fun id hid c hc => h.unreturned id hid c (mem_cons_of_mem _ hc)⟩

lemma Away.drifts (h : Away todo w) (hdrift : w.Drifts w') : Away todo w' where
  rested code hcode := (h.rested code hcode).drifts (hdrift.devices _)
  unreturned := by
    rw [hdrift.travels]
    exact h.unreturned

lemma legible_return (target : String) :
    Legible "return" target [canonicalDeviceCode "return"] := by
  intro location hloc x
  have hsplit : split "return" ',' = ["return"] := by decide
  rw [mem_stems_travel _ _ hloc, hsplit, map_singleton]
  all_goals
    rw [hsplit]
    intro piece hpiece
    rw [mem_singleton.mp hpiece]
    decide

lemma keeps_returnTransport
    (hreturns : ∀ location ∈ plan.returnLocationForTransport code, ',' ∉ location.toList)
    (hdist : ((code :: todo).map canonicalDeviceCode).Nodup) (h : Away (code :: todo) w) :
    homeward.Keeps (fun _ w => Away todo w) (plan.returnTransport options code) w := by
  unfold returnTransport
  cases hloc : plan.returnLocationForTransport code with
  | none => exact keeps_fail
  | some location =>
    have hother : ∀ code' ∈ todo, canonicalDeviceCode code' ≠ canonicalDeviceCode code := by
      intro code' hcode' heq
      rw [map_cons, nodup_cons] at hdist
      exact hdist.1 (heq ▸ mem_map_of_mem hcode')
    have hallow : AllowsTravel homeward True options (canonicalDeviceCode code) := by
      intro w destination leg location P hw hfresh hP
      have hdep := w.departs_submitTravel options (canonicalDeviceCode code) destination
        (travelOperationLeg leg location destination)
      exact ⟨hdep.nodup (hfresh trivial) hw, trivial, hP _ hdep⟩
    refine Keeps.mono (keeps_leg rfl (fun w w' hrely => World.Drifts.devices hrely _)
      (fun w w' hrely id hid _ => by rwa [World.Drifts.travels hrely] at hid) hallow
      (fun _ => legible_return _) (fun _ => hreturns location hloc)
      (fun w w' hrely _ hP => hP.drifts hrely)
      (fun w w' hrely _ hQ => hQ.drifts hrely)
      (fun w hP => hP.tail) (fun w w' id hQ hdep hid => ?_) h (fun _ => h.rested code mem_cons_self)
      fun _ _ id hid htgt _ hnames => ?_) fun _ w _ hdone => hdone.2.1
    · refine ⟨fun c hc => ?_, fun id' hid' c hc htgt => ?_⟩
      · unfold Rested
        rw [hdep.others _ (hother c hc)]
        exact hQ.rested c hc
      · rw [hdep.travels, mem_append, Option.mem_toList] at hid'
        rcases hid' with hsent | hold
        · exact absurd (htgt.symm.trans (hid trivial id' hsent).target) (hother c hc)
        · exact hQ.unreturned id' hold c hc htgt
    · obtain ⟨x, hx, hne⟩ := h.unreturned id hid code mem_cons_self htgt
      exact hne (mem_singleton.mp ((hnames x).mp hx))

lemma keeps_returnTransports
    (hreturns : ∀ code ∈ todo, ∀ location ∈ plan.returnLocationForTransport code,
      ',' ∉ location.toList) (hdist : (todo.map canonicalDeviceCode).Nodup)
    (hnodup : w.travels.Nodup) (h : Away todo w) :
    homeward.Keeps (fun _ _ => True) (Task.forEach todo (plan.returnTransport options)) w := by
  refine Keeps.mono (keeps_foldEach (fun todo _ w => Away todo w ∧
    (∀ code ∈ todo, ∀ location ∈ plan.returnLocationForTransport code, ',' ∉ location.toList) ∧
    (todo.map canonicalDeviceCode).Nodup) (fun _ w w' hrely _ h => ⟨h.1.drifts hrely, h.2⟩)
    (fun code todo _ w _ h => ?_) hnodup ⟨h, hreturns, hdist⟩) fun _ _ _ _ => trivial
  refine (keeps_returnTransport (h.2.1 code mem_cons_self) h.2.2 h.1).mono fun _ w _ haway => ?_
  refine ⟨haway, fun c hc => h.2.1 c (mem_cons_of_mem _ hc), ?_⟩
  exact (nodup_cons.mp h.2.2).2

/-! ## Stages -/

variable (plan options) in
/-- The transports at the time the resources are delivered. -/
structure Handover (w : World) : Prop where
  rested : ∀ key ∈ plan.cargoKeys, Rested key w
  travels : ∀ id ∈ w.travels, ∃ x ∈ stems id.payload, ' ' ∈ x.toList

variable (plan options) in
/-- What holds at each stage. -/
def StageOk (w : World) (loads : List (ℕ × ResourceMap)) : DeliveryStage → Prop
  | .preparing _ => plan.Initial options w ∧ loads = []
  | .cargo d legs => ∃ w₀ done, plan.Initial options w₀ ∧ plan.CargoOk w₀ done d legs loads w
  | .payload _ stage => ∃ w₁, plan.Handover w₁ ∧ (plan.payloadJob options).RunOk True w₁ ⟨w, stage⟩
  | .returning task _ => homeward.Keeps (fun _ _ => True) task w
  | .returned _ => True

variable (plan options) in
/-- What holds at every time of a delivery. -/
structure RunOk (r : DeliveryRun) : Prop where
  nodup : r.world.travels.Nodup
  stage : plan.StageOk options r.world r.loads r.stage

lemma Initial.nodup (h : plan.Initial options w) : w.travels.Nodup := by
  rw [h.travels]
  exact nodup_nil

section Steps

variable (hplain : plan.Plain options) {r : DeliveryRun} {w₁ : World}

include hplain

lemma Plain.space_free {x : String} (hspace : ' ' ∈ x.toList) :
    x ≠ canonicalDeviceCode "return" ∧ x ∉ (plan.payloadJob options).payloadKeys := by
  have hletter : ∀ d : Char, d.toUpper = ' ' ↔ d = ' ' := fun d => toUpper_eq_iff (by decide)
  constructor
  · rintro rfl
    revert hspace
    decide
  · intro hkey
    obtain ⟨p, hp, rfl⟩ := mem_map.mp hkey
    exact not_mem_canonicalDeviceCode hletter (hplain.spaceless _ (mem_map_of_mem hp)) hspace

/-- The way back starts when the devices are delivered. -/
lemma Plain.away (hhandover : plan.Handover w₁) (hsound : (plan.payloadJob options).Sound True w₁ w)
    {delivered : List String}
    (hready : (plan.payloadJob options).Ready True delivered (plan.payloadJob options).carrierKeys w) :
    Away plan.transports w := by
  have hcode : ∀ code ∈ plan.transports, code ∈ plan.cargoTransports ∨ code ∈ plan.deviceCarriers :=
    fun code hcode => mem_append.mp (PayloadJob.mem_sortDedup.mp hcode)
  refine ⟨fun code hmem => ?_, fun id hid code hmem htgt => ?_⟩
  · by_cases hcar : canonicalDeviceCode code ∈ (plan.payloadJob options).carrierKeys
    · exact hready.rested trivial _ hcar trivial
    · have hcargo : canonicalDeviceCode code ∈ plan.cargoKeys := by
        refine (hcode code hmem).elim (fun h => mem_map_of_mem h) fun h => ?_
        exact absurd (mem_map_of_mem h) hcar
      refine (hhandover.rested _ hcargo).drifts (hsound.others _ (fun hpay => ?_) hcar)
      exact hplain.payloads_apart _ hpay hcargo
  · rcases hsound.travels id hid with hcargo | hcar
    · obtain ⟨x, hx, hspace⟩ := hhandover.travels id hcargo
      exact ⟨x, hx, (hplain.space_free hspace).1⟩
    · rcases hready.trail trivial _ hcar trivial id hid rfl with hspent | hfalse
      · obtain ⟨x, hx, hne, -⟩ := hspent
        exact ⟨x, hx, hne⟩
      · exact hfalse.elim

lemma runOk_payloadResult (hhandover : plan.Handover w₁) {run : PayloadRun}
    (h : (plan.payloadJob options).RunOk True w₁ run) (resources : ResourceMap)
    (loads : List (ℕ × ResourceMap)) :
    plan.RunOk options (plan.payloadResult options resources loads run) := by
  have hnodup := h.sound.fresh trivial
  obtain ⟨w, stage⟩ := run
  unfold payloadResult
  cases stage with
  | returned result =>
    cases result with
    | error => exact ⟨hnodup, trivial⟩
    | ok =>
      obtain ⟨⟨alreadyDelivered, hready⟩, -, -⟩ := h.stage
      dsimp only
      split
      · refine ⟨hnodup, keeps_returnTransports hplain.returns ?_ hnodup
          (hplain.away hhandover h.sound hready)⟩
        refine List.Nodup.map_on (fun code hcode code' hcode' => hplain.aliases code hcode code' hcode') ?_
        exact (perm_insertionSort _ _).nodup_iff.mpr (nodup_dedup _)
      · exact ⟨hnodup, trivial⟩
  | _ => exact ⟨hnodup, w₁, hhandover, h⟩

/-- The devices are next when the resources are delivered. -/
lemma runOk_cargoEnd (hstart : plan.Initial options w₀) (h : plan.CargoEnd w₀ w)
    (resources : ResourceMap) (loads : List (ℕ × ResourceMap)) :
    plan.RunOk options (plan.payloadResult options resources loads
      ((plan.payloadJob options).deliverPayloadDevices w)) := by
  have hnew : w.Unrecorded :=
    ⟨h.freight.commands.trans hstart.unrecorded.commands,
      h.freight.custody ▸ hstart.unrecorded.custody⟩
  have hrested : ∀ key, (key ∉ plan.cargoKeys → Rested key w₀) → Rested key w := by
    intro key hrest
    by_cases hcargo : key ∈ plan.cargoKeys
    · exact (h.parked key hcargo).rested
    · exact (hrest hcargo).drifts (h.freight.others key hcargo)
  have hspaces : ∀ id ∈ w.travels, ∃ x ∈ stems id.payload, ' ' ∈ x.toList := fun id hid =>
    (h.parked _ (h.freight.targets id hid)).known id hid rfl
  have hsound : (plan.payloadJob options).Sound True w w :=
    hnew.sound h.freight.consistent fun _ => h.freight.nodup
  have hready : (plan.payloadJob options).Ready True [] (plan.payloadJob options).carrierKeys w := by
    refine hnew.ready (fun _ c hc => hrested c fun _ => hstart.carriers c hc)
      fun _ c hc id hid _ => .inl ?_
    obtain ⟨x, hx, hspace⟩ := hspaces id hid
    have hfree := hplain.space_free hspace
    exact ⟨x, hx, hfree.1, fun hpay => absurd hpay hfree.2⟩
  refine runOk_payloadResult hplain ⟨fun key hkey => (h.parked key hkey).rested, hspaces⟩ ?_ _ _
  exact PayloadJob.runOk_deliverPayloadDevices hplain.distinct (fun _ => hplain.payloads) hsound hready
    fun _ key hkey => hrested key fun _ => hstart.payloads key hkey

lemma runOk_startCargo (hstart : plan.Initial options w) :
    plan.RunOk options (plan.startCargo options w) := by
  have hnodup := hstart.nodup
  have hnone : ∀ id, id ∉ w.travels := by
    rw [hstart.travels]
    exact fun _ => not_mem_nil
  have hfreight : plan.Freight w w := ⟨hstart.consistent, hnodup, fun id hid => absurd hid (hnone id),
    rfl, rfl, fun x _ => Device.Drifts.refl _⟩
  unfold startCargo deliverResourcePickups
  cases hpickups : plan.resourcePickups with
  | nil =>
    refine runOk_cargoEnd hplain hstart ⟨hfreight, fun key hkey => ⟨hstart.transports key hkey, ?_⟩⟩ _ _
    exact fun id hid => absurd hid (hnone id)
  | cons =>
    dsimp only
    split
    · exact ⟨hnodup, trivial⟩
    · refine ⟨hnodup, w, [], hstart, cargoOk_start hplain.toPlainCargo hpickups hfreight (fun i hi => ?_)
        _ _⟩
      exact ⟨hstart.transports _ (keyAt_mem hi), fun id hid => absurd hid (hnone id)⟩

lemma runOk_prepareStep (hstart : plan.Initial options w) (todo : List String)
    (failure : Option TransportError) :
    plan.RunOk options (plan.prepareStep options w todo failure) := by
  have hnodup := hstart.nodup
  unfold prepareStep
  cases todo with
  | nil => exact runOk_startCargo hplain hstart
  | cons =>
    dsimp only
    split
    · exact ⟨hnodup, trivial⟩
    · split
      · exact ⟨hnodup, trivial⟩
      · exact ⟨hnodup, hstart, rfl⟩

section Cargo

variable {done : List ResourcePickup} {d : CargoDelivery} {legs : List (Program Unit)}
  {loads : List (ℕ × ResourceMap)} {index : ℕ} (hstart : plan.Initial options w₀)
  (h : plan.CargoOk w₀ done d legs loads w)

include hstart h

/-- A section of a loop whose travel has ended. -/
lemma runOk_cargoSection (hleg : legs[index]? = some (.ret ())) {failure : Option TransportError}
    (hnew : failure = none → ∀ load, d.trips[index]? = some .fetching → (index, load) ∈ loads →
      ∃ resource ∈ load.keys, d.remaining.getD resource 0 < load.getD resource 0) :
    plan.RunOk options (plan.cargoSection options w loads d legs index failure) := by
  have hnodup := h.freight.nodup
  have hlt : index < plan.cargoTransports.length := by
    rw [← h.legCount]
    exact (List.getElem?_eq_some_iff.mp hleg).1
  have hlt' : index < d.trips.length := by rwa [h.tripCount]
  obtain ⟨trip, htrip⟩ : ∃ trip, d.trips[index]? = some trip := ⟨_, getElem?_eq_getElem hlt'⟩
  have hend := (h.loops index trip _ htrip hleg).result h.freight
  unfold cargoSection
  cases failure with
  | some =>
    unfold CargoDelivery.failStep
    rw [htrip]
    cases trip with
    | finished => exact ⟨hnodup, w₀, done, hstart, h⟩
    | _ => exact ⟨hnodup, trivial⟩
  | none =>
    unfold CargoDelivery.tripStep
    rw [htrip]
    have hloads : ∀ d', trip ≠ .fetching → noteLoad index d d' loads = loads := by
      intro d' hne
      unfold noteLoad
      rw [htrip]
      split
      · rename_i htrip' _
        exact absurd (Option.some.inj htrip') hne
      · rfl
    cases trip with
    | head =>
      refine ⟨hnodup, w₀, done, hstart, ?_⟩
      dsimp only
      rw [hloads _ nofun]
      exact h.look hplain.toPlainCargo hlt hend
    | fetching =>
      by_cases hcap : cargoCapacity w d index ≤ 0
      · rw [if_pos hcap]
        exact ⟨hnodup, trivial⟩
      · rw [if_neg hcap]
        exact ⟨hnodup, w₀, done, hstart, h.reserve hplain.toPlainCargo hlt (Int.not_le.mp hcap)
          htrip hend fun load => hnew rfl load htrip⟩
    | carrying manifest =>
      refine ⟨hnodup, w₀, done, hstart, ?_⟩
      dsimp only
      rw [hloads _ nofun]
      exact h.deliver hlt hend
    | finished =>
      refine ⟨hnodup, w₀, done, hstart, ?_⟩
      have hsame : legs.set index (plan.cargoLeg options d index) = legs := by
        obtain ⟨hindex, hdone⟩ := List.getElem?_eq_some_iff.mp hleg
        unfold cargoLeg
        rw [htrip]
        rw [show (pure () : Program Unit) = legs[index] from hdone.symm, set_getElem_self]
      dsimp only
      rw [hloads _ nofun, hsame]
      exact h

lemma runOk_cargoStep (failure : Option TransportError)
    (hnew : LoadsAnew ⟨w, .cargo d legs, loads⟩ (.go index failure)) :
    plan.RunOk options (plan.cargoStep options w loads d legs index failure) := by
  unfold cargoStep
  cases hleg : legs[index]? with
  | none => exact ⟨h.freight.nodup, w₀, done, hstart, h⟩
  | some task =>
    cases task with
    | fail => exact ⟨h.freight.nodup, trivial⟩
    | ret =>
      refine runOk_cargoSection hplain hstart h hleg fun hnone load htrip hmem => ?_
      subst hnone
      exact hnew htrip (by rw [hleg]; rfl) (index, load) hmem rfl
    | act =>
      have hnext := h.legStep hplain.toPlainCargo hleg nofun failure
      exact ⟨hnext.freight.nodup, w₀, done, hstart, hnext⟩

/-- The next pickup is begun, or the last one is done. -/
lemma runOk_cargoJoin : plan.RunOk options (plan.cargoJoin options w loads d legs) := by
  unfold cargoJoin
  split
  · rename_i hall
    unfold CargoDelivery.joinStep
    rw [if_pos hall]
    split
    · cases htodo : d.todo with
      | nil => exact runOk_cargoEnd hplain hstart (h.cargoEnd hplain.toPlainCargo hall) _ _
      | cons pickup =>
        refine ⟨h.freight.nodup, w₀, done ++ [d.pickup], hstart, ?_⟩
        rw [h.transports]
        refine cargoOk_start hplain.toPlainCargo ?_ h.freight (fun i hi => ?_) _ _
        · rw [h.pickups, htodo, append_assoc, singleton_append]
        · exact (h.parked hall hi).mono fun id hknown => hknown.next pickup
    · exact ⟨h.freight.nodup, trivial⟩
  · exact ⟨h.freight.nodup, w₀, done, hstart, h⟩

end Cargo

omit hplain in
lemma runOk_returnStep {loads : List (ℕ × ResourceMap)} {task : Program Unit}
    {report : DeliveryReport} (h : plan.RunOk options ⟨w, .returning task report, loads⟩)
    (failure : Option TransportError) :
    plan.RunOk options (returnStep w loads task report failure) := by
  have hkeeps : homeward.Keeps (fun _ _ => True) task w := h.stage
  obtain ⟨hnodup, -, hnext⟩ := hkeeps.step failure h.nodup
  cases task with
  | ret | fail => exact ⟨h.nodup, trivial⟩
  | act => exact ⟨hnodup, hnext⟩

omit hplain in
lemma Initial.drifts (h : plan.Initial options w) (hdrift : w.Drifts w') :
    plan.Initial options w' where
  consistent := h.consistent.of_same (fun x => (hdrift.devices x).attachedTo)
    fun x => (hdrift.devices x).attachedDevices
  unrecorded := by
    refine ⟨hdrift.commands.trans h.unrecorded.commands, ?_⟩
    rw [hdrift.custody]
    exact h.unrecorded.custody
  travels := hdrift.travels.trans h.travels
  transports key hkey := (h.transports key hkey).drifts (hdrift.devices key)
  carriers key hkey := (h.carriers key hkey).drifts (hdrift.devices key)
  payloads key hkey := (h.payloads key hkey).drifts (hdrift.devices key)

omit hplain in
lemma RunOk.drifts (h : plan.RunOk options r) (hdrift : r.world.Drifts w') :
    plan.RunOk options { r with world := w' } := by
  obtain ⟨w, stage, loads⟩ := r
  have hstage := h.stage
  refine ⟨?_, ?_⟩
  · rw [hdrift.travels]
    exact h.nodup
  · cases stage with
    | preparing => exact ⟨hstage.1.drifts hdrift, hstage.2⟩
    | cargo =>
      obtain ⟨w₀, done, hstart, hcargo⟩ := hstage
      exact ⟨w₀, done, hstart, hcargo.drifts hdrift⟩
    | payload =>
      obtain ⟨w₁, hhandover, hrun⟩ := hstage
      exact ⟨w₁, hhandover, hrun.drifts hdrift⟩
    | returning => exact Keeps.rely hstage hdrift
    | returned => trivial

/-- Every step keeps what holds at each stage, if no load is carried again. -/
lemma runOk_step (h : plan.RunOk options r) {op : PayloadOp} (hnew : LoadsAnew r op) :
    plan.RunOk options (plan.step options r op) := by
  obtain ⟨w, stage, loads⟩ := r
  have hstage := h.stage
  have hpayload : ∀ resources payload, stage = .payload resources payload →
      plan.RunOk options (plan.payloadResult options resources loads
        ((plan.payloadJob options).step ⟨w, payload⟩ op)) := by
    rintro resources payload rfl
    obtain ⟨w₁, hhandover, hrun⟩ := hstage
    exact runOk_payloadResult hplain hhandover
      (PayloadJob.runOk_step hplain.distinct (fun _ => hplain.payloads) hrun _) resources loads
  cases op with
  | go index failure =>
    cases stage with
    | preparing todo => exact runOk_prepareStep hplain hstage.1 todo failure
    | cargo =>
      obtain ⟨w₀, done, hstart, hcargo⟩ := hstage
      exact runOk_cargoStep hplain hstart hcargo failure hnew
    | payload => exact hpayload _ _ rfl
    | returning => exact runOk_returnStep h failure
    | returned => exact h
  | join =>
    cases stage with
    | cargo =>
      obtain ⟨w₀, done, hstart, hcargo⟩ := hstage
      exact runOk_cargoJoin hplain hstart hcargo
    | payload => exact hpayload _ _ rfl
    | _ => exact h
  | arrive code => exact h.drifts (w.drifts_arrive code)
  | setCapacity code attachCapacity cargoCapacity =>
    exact h.drifts (w.drifts_setCapacity code attachCapacity cargoCapacity)

lemma runOk_executeDelivery (hstart : plan.Initial options w) :
    plan.RunOk options (plan.executeDelivery options w) := by
  unfold executeDelivery
  split
  · exact ⟨hstart.nodup, hstart, rfl⟩
  · exact runOk_startCargo hplain hstart

end Steps

/-! ## Whole runs -/

/-- If no transport carries a load again while all of it still remains, no identity of a travel is used
twice; nor is an identifier, if `Uuid::new_v5` has no collisions. -/
theorem travels_nodup_of_loadsAnew (hplain : plan.Plain options) (hstart : plan.Initial options w)
    {ops : List PayloadOp}
    (hops : AllSteps (plan.step options) LoadsAnew (plan.executeDelivery options w) ops) :
    let travels := (ops.foldl (plan.step options) (plan.executeDelivery options w)).world.travels
    travels.Nodup ∧ ∀ (α : Type) (newV5 : String → List UInt8 → α),
      Function.Injective (Function.uncurry newV5) → (∀ id ∈ travels, id.Fits) →
        (travels.map (·.uuid newV5)).Nodup := by
  have hok := hops.foldl (runOk_executeDelivery hplain hstart)
    fun _ _ h hnew => runOk_step hplain h hnew
  exact ⟨hok.nodup, fun α newV5 hinj hfits => hok.nodup.map_on fun id hid id' hid' =>
    OperationId.eq_of_uuid_eq hinj (hfits id hid) (hfits id' hid')⟩

/-- One transport takes a device from `SOL-3` to `ALP-1`, and comes back. -/
def probePlan : DeliveryPlan where
  origin := "SOL-3"
  destination := "ALP-1"
  resourcePickups := []
  payloadDevices := [⟨"P1", "probe", "SOL-3"⟩]
  cargoTransports := ["T"]
  deviceCarriers := ["T"]
  transportOrigins := ∅

/-- It takes iron as well. -/
def ironPlan (amount : ℤ) : DeliveryPlan :=
  { probePlan with resourcePickups := [⟨"SOL-3", (∅ : ResourceMap).insert "iron" amount⟩] }

def ironOptions : DeliveryOptions := ⟨3, true, some "delivery"⟩

/-- Every device stands at `SOL-3`, and the transport has room for ten. -/
def ironWorld : World :=
  ⟨fun _ => ⟨some "SOL-3", none, none, [], none, some 1, some 10⟩, [], [], [], [], [],
    fun _ => .waiting⟩

lemma plain_probePlan : probePlan.Plain ironOptions where
  transports := by decide
  names := ⟨nofun, nofun⟩
  positive pickup hpick := by cases hpick
  locations := nodup_nil
  apart pickup hpick := by cases hpick
  destination := by decide
  origins pickup hpick := by cases hpick
  distinct := ⟨by decide, by decide, by decide⟩
  payloads := ⟨fun code hcode => by
    rw [mem_singleton.mp hcode]
    exact ⟨by decide, by decide, by decide⟩, by decide, by decide, by decide⟩
  spaceless := by decide
  payloads_apart := by decide
  aliases := by decide
  returns := by decide

lemma plain_ironPlan {amount : ℤ} (hamount : 0 < amount) : (ironPlan amount).Plain ironOptions := by
  have hname : ∀ name ∈ (ironPlan amount).resourceNames, name = "iron" := by
    intro name hmem
    obtain ⟨pickup, hpick, hkey⟩ := mem_flatMap.mp hmem
    rw [mem_singleton.mp hpick, Std.ExtTreeMap.mem_keys, Std.ExtTreeMap.mem_insert] at hkey
    refine (hkey.resolve_right Std.ExtTreeMap.not_mem_empty |> Std.compare_eq_iff_eq.mp).symm
  refine { plain_probePlan with
    names := ⟨fun name hmem => ?_, fun name hmem name' hmem' _ => ?_⟩
    positive := fun pickup hpick => ?_
    locations := nodup_singleton _
    apart := fun pickup hpick => ?_
    origins := fun pickup hpick => ?_ }
  · rw [hname name hmem]
    exact ⟨by decide, by decide, by decide⟩
  · rw [hname name hmem, hname name' hmem']
  · rw [mem_singleton.mp hpick]
    intro resource value hget
    rw [Std.ExtTreeMap.getElem?_insert] at hget
    split at hget
    · rwa [← Option.some.inj hget]
    · rw [Std.ExtTreeMap.getElem?_empty] at hget
      cases hget
  · rw [mem_singleton.mp hpick]
    have hplaces : canonicalDeviceCode "SOL-3" ≠ canonicalDeviceCode probePlan.destination := by decide
    exact hplaces
  · rw [mem_singleton.mp hpick]
    have hcomma : ',' ∉ "SOL-3".toList := by decide
    exact hcomma

lemma initial_ironWorld (amount : ℤ) : (ironPlan amount).Initial ironOptions ironWorld := by
  have hcomma : ',' ∉ "SOL-3".toList := by decide
  have hrested : ∀ key, Rested key ironWorld := fun key =>
    ⟨rfl, fun l hl => by rw [← Option.some.inj hl]; exact hcomma⟩
  exact ⟨⟨fun _ _ => ⟨nofun, nofun⟩, nofun⟩,
    ⟨rfl, fun _ => rfl⟩, rfl, fun key _ => hrested key, fun key _ => hrested key,
    fun key _ => hrested key⟩

/-- The loop takes a section, and the transport arrives. -/
def ironRun (sections : ℕ) : List PayloadOp :=
  (List.replicate sections [PayloadOp.go 0 none, .arrive "T", .join]).flatten

/-- Ten and then five units of iron, and the device: six travels. -/
theorem travels_nodup_of_loadsAnew_iron : ((ironRun 50).foldl ((ironPlan 15).step ironOptions)
        ((ironPlan 15).executeDelivery ironOptions ironWorld)).world.travels.Nodup ∧
      ((ironRun 50).foldl ((ironPlan 15).step ironOptions)
        ((ironPlan 15).executeDelivery ironOptions ironWorld)).world.travels.length = 6 :=
  ⟨(travels_nodup_of_loadsAnew (plain_ironPlan (by decide)) (initial_ironWorld 15)
    (by decide +kernel)).1, by decide +kernel⟩

/-- Ten units of iron twice: the second leg to the destination has the identity of the first. The
command is not sent, and the delivery ends without the second load. -/
theorem exists_repeated_identity : ∃ (plan : DeliveryPlan) (options : DeliveryOptions) (w : World)
    (ops : List PayloadOp), plan.Plain options ∧ plan.Initial options w ∧
      ¬ (ops.foldl (plan.step options) (plan.executeDelivery options w)).world.travels.Nodup :=
  ⟨ironPlan 20, ironOptions, ironWorld, ironRun 18, plain_ironPlan (by decide), initial_ironWorld 20,
    by decide +kernel⟩

end DeliveryPlan

end Replicant.Transport
