import Replicant.Transport.Attachments
import Replicant.Transport.CargoTheorems
import Replicant.Transport.Delivery
import Replicant.Transport.Legs

/-!
# The travels of cargo transports

A transport goes to a pickup for what remains there, which is less each time, and to the destination
with a manifest. So an identity is used twice only if a manifest is carried twice by one transport.
-/

namespace Replicant.Transport

open Lib Lib.Text Lib.OrderedMap Contract List
open Std (ExtTreeMap)

variable {known : OperationId → Prop} {manifest : ResourceMap}

namespace DeliveryPlan

variable (plan : DeliveryPlan)

/-! ## The contract of a transport -/

def cargoKeys : List String := plan.cargoTransports.map canonicalDeviceCode

/-- The names of all resources of the plan. -/
def resourceNames : List String := plan.resourcePickups.flatMap fun pickup => pickup.resources.keys

/-- What holds while the resources are delivered, since the start `w₀`. -/
structure Freight (w₀ w : World) : Prop where
  consistent : w.Consistent
  nodup : w.travels.Nodup
  targets : ∀ id ∈ w.travels, id.target ∈ plan.cargoKeys
  commands : w.commands = w₀.commands
  custody : w.custody = w₀.custody
  others : ∀ x, x ∉ plan.cargoKeys → (w₀.devices x).Drifts (w.devices x)

/-- A transport is moved by its own loop only. -/
def freight (w₀ : World) (key : String) : Contract World where
  inv := plan.Freight w₀
  rely w w' := (w.devices key).Drifts (w'.devices key) ∧
    ∀ id ∈ w'.travels, id.target = key → id ∈ w.travels
  guar w w' := (∀ x, x ≠ key → w'.devices x = w.devices x) ∧
    ∀ id ∈ w'.travels, id.target ≠ key → id ∈ w.travels
  rely_refl _ := ⟨.refl _, fun _ h _ => h⟩
  rely_trans h h' := ⟨h.1.trans h'.1, fun id hid htgt => h.2 id (h'.2 id hid htgt) htgt⟩
  guar_refl _ := ⟨fun _ _ => rfl, fun _ h _ => h⟩

variable {plan} {w₀ w w' : World} {key code : String} {known' : OperationId → Prop}
  {options : DeliveryOptions} {legs : List (Program Unit)} {pickup : ResourcePickup}

lemma Freight.drifts (h : plan.Freight w₀ w) (hdrift : w.Drifts w') : plan.Freight w₀ w' where
  consistent := h.consistent.of_same (fun x => (hdrift.devices x).attachedTo)
    fun x => (hdrift.devices x).attachedDevices
  nodup := by
    rw [hdrift.travels]
    exact h.nodup
  targets := by
    rw [hdrift.travels]
    exact h.targets
  commands := hdrift.commands.trans h.commands
  custody := hdrift.custody.trans h.custody
  others x hx := (h.others x hx).trans (hdrift.devices x)

lemma freight_rely_of_drifts (h : w.Drifts w') : (plan.freight w₀ key).rely w w' :=
  ⟨h.devices key, fun id hid _ => by rwa [h.travels] at hid⟩

/-- What one loop does is what the others rely on. -/
lemma freight_rely_of_guar {other : String} (hne : key ≠ other)
    (h : (plan.freight w₀ key).guar w w') : (plan.freight w₀ other).rely w w' := by
  refine ⟨?_, fun id hid htgt => h.2 id hid (by rw [htgt]; exact hne.symm)⟩
  rw [h.1 other hne.symm]
  exact .refl _

lemma allowsTravel_freight (hkey : key ∈ plan.cargoKeys) (options : DeliveryOptions) :
    AllowsTravel (plan.freight w₀ key) True options key := by
  intro w destination leg location P hw hfresh hP
  have hdep := w.departs_submitTravel options key destination
    (travelOperationLeg leg location destination)
  have htgt : ∀ id ∈ (w.submitTravel options key destination
      (travelOperationLeg leg location destination)).travels, id ∈ w.travels ∨ id.target = key :=
    fun id hid => hdep.target (canonical_of_mem hkey) hid
  refine ⟨⟨hdep.consistent hw.consistent, hdep.nodup (hfresh trivial) hw.nodup,
    fun id hid => ?_, hdep.commands.trans hw.commands, hdep.custody.trans hw.custody,
    fun x hx => ?_⟩, ⟨hdep.others, fun id hid hne => ?_⟩, hP _ hdep⟩
  · rcases htgt id hid with hold | hown
    · exact hw.targets id hold
    · exact hown ▸ hkey
  · rw [hdep.others x fun heq => hx (heq ▸ hkey)]
    exact hw.others x hx
  · exact (htgt id hid).resolve_right hne

/-! ## One travel -/

/-- The transport stands still, and its travels were of this kind. -/
structure Parked (known : OperationId → Prop) (key : String) (w : World) : Prop where
  rested : Rested key w
  known : ∀ id ∈ w.travels, id.target = key → known id

lemma Parked.mono (h : Parked known key w) (himp : ∀ id, known id → known' id) :
    Parked known' key w :=
  ⟨h.rested, fun id hid htgt => himp id (h.known id hid htgt)⟩

lemma Parked.rely (h : Parked known key w)
    (hrely : (plan.freight w₀ key).rely w w') : Parked known key w' :=
  ⟨h.rested.drifts hrely.1, fun id hid htgt => h.known id (hrely.2 id hid htgt) htgt⟩

/-- A transport goes to a place with a manifest it has not gone there with before. -/
lemma keeps_freightLeg (hkey : key ∈ plan.cargoKeys) {target : String}
    (hcode : key = canonicalDeviceCode code) (htgt : ',' ∉ target.toList)
    (hnames : PlainNames plan.resourceNames) (hman : Stocked plan.resourceNames manifest)
    (himp : ∀ id, known id → known' id)
    (hleg : ∀ id, IsLeg key (canonicalDeviceCode target) (label manifest) id → known' id)
    (hnew : ∀ id, known id → id.destination = canonicalDeviceCode target →
      ¬ ∀ x, x ∈ stems id.payload ↔ x ∈ label manifest) (h : Parked known key w) :
    (plan.freight w₀ key).Keeps (fun _ w => Parked known' key w)
      (ensureDeviceAt options code target (formatResources manifest)) w := by
  refine Keeps.mono (keeps_leg (C := plan.freight w₀ key) hcode (fun w w' hrely => hrely.1)
    (fun w w' hrely => hrely.2) (allowsTravel_freight hkey options)
    (fun _ location hloc x => mem_stems_manifest hnames hman hloc x)
    (fun _ => htgt)
    (P := fun w => ∀ id ∈ w.travels, id.target = key → known id)
    (fun w w' hrely _ hP id hid hown => hP id (hrely.2 id hid hown) hown)
    (fun w w' hrely _ hQ id hid hown => hQ id (hrely.2 id hid hown) hown)
    (fun w hP id hid hown => himp id (hP id hid hown))
    (fun w w' id hQ hdep hid id' hid' hown => ?_) h.known (fun _ => h.rested)
    fun _ _ id hid hown => hnew id (h.known id hid hown)) fun _ w _ hdone => ?_
  · rw [hdep.travels, mem_append, Option.mem_toList] at hid'
    rcases hid' with hsent | hold
    · exact hleg id' (hid trivial id' hsent)
    · exact hQ id' hold hown
  · exact ⟨hdone.2.2 trivial, hdone.2.1⟩

/-- A transport that stands still is not settled. -/
lemma keeps_freightSettle {origin destination leg : String} (hcode : key = canonicalDeviceCode code)
    (h : Parked known key w) : (plan.freight w₀ key).Keeps (fun _ w => Parked known key w)
      (settleTransportBetween options code origin destination leg) w := by
  refine keeps_settleTransportBetween (C := plan.freight w₀ key) (fun w w' hrely => hrely.1) hcode
    (fun w w' hrely _ hP => hP.rely hrely) ?_ h
  intro w _ hP htravel
  exact absurd hP.rested.1 htravel

/-! ## What the travels were for -/

variable (plan) in
/-- The plan's resources, transports and places can be told apart. -/
structure PlainCargo : Prop where
  transports : plan.cargoKeys.Nodup
  names : PlainNames plan.resourceNames
  positive : ∀ pickup ∈ plan.resourcePickups, Positive pickup.resources
  locations : (plan.resourcePickups.map fun pickup => canonicalDeviceCode pickup.location).Nodup
  apart : ∀ pickup ∈ plan.resourcePickups,
    canonicalDeviceCode pickup.location ≠ canonicalDeviceCode plan.destination
  destination : ',' ∉ plan.destination.toList
  origins : ∀ pickup ∈ plan.resourcePickups, ',' ∉ pickup.location.toList

variable (plan) in
/-- A travel to a pickup that is done, to the current one for more than `bound`, or to the destination
with one of the loads. -/
def Known (done : List ResourcePickup) (pickup : ResourcePickup) (bound : ℤ)
    (loads : List ResourceMap) (id : OperationId) : Prop :=
  ∃ manifest, Stocked plan.resourceNames manifest ∧
    (∀ x, x ∈ stems id.payload ↔ x ∈ label manifest) ∧
    ((∃ p ∈ done, id.destination = canonicalDeviceCode p.location) ∨
      (id.destination = canonicalDeviceCode pickup.location ∧ bound < total manifest) ∨
      (id.destination = canonicalDeviceCode plan.destination ∧ manifest ∈ loads))

section Known

variable {done todo : List ResourcePickup} {bound bound' : ℤ} {loads loads' : List ResourceMap}
  {id : OperationId}

lemma mem_resourcePickups (h : plan.resourcePickups = done ++ pickup :: todo) :
    pickup ∈ plan.resourcePickups := by
  rw [h]
  exact mem_append_cons_self

section

variable (h : plan.Known done pickup bound loads id)

include h

lemma Known.mono (hbound : bound' ≤ bound) (hloads : ∀ load ∈ loads, load ∈ loads') :
    plan.Known done pickup bound' loads' id := by
  obtain ⟨manifest, hstocked, hstems, hwhere⟩ := h
  refine ⟨manifest, hstocked, hstems, hwhere.imp_right (Or.imp (fun hcur => ?_) fun hload => ?_)⟩
  · exact ⟨hcur.1, lt_of_le_of_lt hbound hcur.2⟩
  · exact ⟨hload.1, hloads manifest hload.2⟩

lemma Known.next (pickup' : ResourcePickup) :
    plan.Known (done ++ [pickup]) pickup' bound' loads id := by
  obtain ⟨manifest, hstocked, hstems, hwhere⟩ := h
  refine ⟨manifest, hstocked, hstems, ?_⟩
  rcases hwhere with ⟨p, hp, hdest⟩ | ⟨hdest, -⟩ | hload
  · exact .inl ⟨p, mem_append_left _ hp, hdest⟩
  · exact .inl ⟨pickup, mem_append_cons_self, hdest⟩
  · exact .inr (.inr hload)

lemma Known.space (hplain : plan.PlainCargo) : ∃ x ∈ stems id.payload, ' ' ∈ x.toList := by
  obtain ⟨manifest, hstocked, hstems, -⟩ := h
  obtain ⟨entry, rest, hlist⟩ := exists_cons_of_ne_nil fun hnil =>
    hstocked.nonempty (ExtTreeMap.toList_eq_nil_iff.mp hnil)
  have hmem : canonicalDeviceCode (toString entry.2 ++ " " ++ entry.1) ∈ label manifest := by
    unfold label
    rw [hlist]
    exact mem_map_of_mem mem_cons_self
  exact ⟨_, (hstems _).mpr hmem, space_mem_label hplain.names hstocked hmem⟩

end

variable (hplain : plan.PlainCargo)
  (hsplit : plan.resourcePickups = done ++ pickup :: todo)

include hplain hsplit

/-- The transport has not gone to the current pickup for so little. -/
lemma Known.unused_origin (hman : Stocked plan.resourceNames manifest)
    (h : plan.Known done pickup (total manifest) loads id)
    (hdest : id.destination = canonicalDeviceCode pickup.location) :
    ¬ ∀ x, x ∈ stems id.payload ↔ x ∈ label manifest := by
  intro hnames
  obtain ⟨manifest', hstocked, hstems, hwhere⟩ := h
  have hsame : manifest' = manifest := label_inj hplain.names hstocked hman fun x =>
    (hstems x).symm.trans (hnames x)
  rcases hwhere with ⟨p, hp, hthere⟩ | ⟨-, hmore⟩ | ⟨hthere, -⟩
  · -- another pickup is at another place
    have hnodup := hplain.locations
    rw [hsplit, map_append, map_cons] at hnodup
    refine disjoint_of_nodup_append hnodup (mem_map_of_mem hp) ?_
    rw [← hthere, hdest]
    exact mem_cons_self
  · rw [hsame] at hmore
    exact lt_irrefl _ hmore
  · exact hplain.apart pickup (mem_resourcePickups hsplit) (hdest.symm.trans hthere)

/-- The transport has not gone to the destination with a manifest that is none of its loads. -/
lemma Known.unused_destination (hman : Stocked plan.resourceNames manifest)
    (hnew : manifest ∉ loads) (h : plan.Known done pickup bound loads id)
    (hdest : id.destination = canonicalDeviceCode plan.destination) :
    ¬ ∀ x, x ∈ stems id.payload ↔ x ∈ label manifest := by
  intro hnames
  obtain ⟨manifest', hstocked, hstems, hwhere⟩ := h
  have hsame : manifest' = manifest := label_inj hplain.names hstocked hman fun x =>
    (hstems x).symm.trans (hnames x)
  rcases hwhere with ⟨p, hp, hthere⟩ | ⟨hthere, -⟩ | ⟨-, hload⟩
  · refine hplain.apart p ?_ (hthere.symm.trans hdest)
    rw [hsplit]
    exact mem_append_left _ hp
  · exact hplain.apart pickup (mem_resourcePickups hsplit) (hthere.symm.trans hdest)
  · exact hnew (hsame ▸ hload)

end Known

/-! ## The loops -/

/-- The manifests that the loop at this index has reserved. -/
def loadsOf (loads : List (ℕ × ResourceMap)) (index : ℕ) : List ResourceMap :=
  (loads.filter (·.1 = index)).map (·.2)

lemma mem_loadsOf {loads : List (ℕ × ResourceMap)} {index : ℕ} {load : ResourceMap} :
    load ∈ loadsOf loads index ↔ (index, load) ∈ loads := by
  unfold loadsOf
  rw [mem_map]
  constructor
  · rintro ⟨entry, hentry, rfl⟩
    obtain ⟨hmem, hindex⟩ := mem_filter.mp hentry
    rwa [← of_decide_eq_true hindex]
  · exact fun hmem => ⟨(index, load), mem_filter.mpr ⟨hmem, decide_eq_true rfl⟩, rfl⟩

/-- A transport on its way to the pickup goes for what remained when it left. -/
def slack : CargoTrip → ℤ
  | .fetching => 1
  | _ => 0

variable (plan w₀) in
/-- What a loop guarantees when its travel has ended. -/
def LoopEnd (done : List ResourcePickup) (d : CargoDelivery) (loads : List (ℕ × ResourceMap))
    (index : ℕ) (trip : CargoTrip) (w : World) : Prop :=
  Parked (plan.Known done d.pickup (total d.remaining - slack trip) (loadsOf loads index))
    (keyAt plan.cargoTransports index) w

variable (plan w₀) in
/-- What holds while the loops of a pickup run. -/
structure CargoOk (done : List ResourcePickup) (d : CargoDelivery) (legs : List (Program Unit))
    (loads : List (ℕ × ResourceMap)) (w : World) : Prop where
  freight : plan.Freight w₀ w
  transports : d.transports = plan.cargoTransports
  tripCount : d.trips.length = plan.cargoTransports.length
  legCount : legs.length = plan.cargoTransports.length
  pickups : plan.resourcePickups = done ++ d.pickup :: d.todo
  positive : Positive d.remaining
  names : ∀ resource ∈ d.remaining, resource ∈ plan.resourceNames
  loops : ∀ (i : ℕ) (trip : CargoTrip) (task : Program Unit), d.trips[i]? = some trip →
    legs[i]? = some task → (plan.freight w₀ (keyAt plan.cargoTransports i)).Keeps
      (fun _ w => plan.LoopEnd done d loads i trip w) task w
  finished : ∀ i : ℕ, d.trips[i]? = some .finished → legs[i]? = some (.ret ())

section Loops

variable {done : List ResourcePickup} {d d' : CargoDelivery} {loads loads' : List (ℕ × ResourceMap)}
  {index : ℕ} (h : plan.CargoOk w₀ done d legs loads w)

include h

lemma CargoOk.drifts (hdrift : w.Drifts w') : plan.CargoOk w₀ done d legs loads w' :=
  { h with
    freight := h.freight.drifts hdrift
    loops := fun i trip task htrip htask =>
      (h.loops i trip task htrip htask).rely (freight_rely_of_drifts hdrift) }

lemma CargoOk.legStep (hplain : plan.PlainCargo) {task : Program Unit}
    (htask : legs[index]? = some task) (hact : task ≠ .ret ()) (failure : Option TransportError) :
    plan.CargoOk w₀ done d (legs.set index (task.step failure w).1) loads (task.step failure w).2 := by
  have hlt : index < legs.length := (List.getElem?_eq_some_iff.mp htask).1
  have hlt' : index < d.trips.length := by
    rw [h.tripCount, ← h.legCount]
    exact hlt
  obtain ⟨hinv, hguar, hkeeps⟩ := (h.loops index _ task (getElem?_eq_getElem hlt') htask).step
    failure h.freight
  refine { h with
    freight := hinv
    legCount := by rw [length_set, h.legCount]
    loops := fun i trip task' htrip htask' => ?_
    finished := fun i hfin => ?_ }
  · by_cases hi : index = i
    · subst hi
      rw [getElem?_set_self hlt] at htask'
      rw [getElem?_eq_getElem] at htrip
      rw [← Option.some.inj htask', ← Option.some.inj htrip]
      exact hkeeps
    · rw [getElem?_set_ne hi] at htask'
      have hi' : i < plan.cargoTransports.length := by
        rw [← h.legCount]
        exact (List.getElem?_eq_some_iff.mp htask').1
      exact (h.loops i trip task' htrip htask').rely
        (freight_rely_of_guar (keyAt_ne hplain.transports (h.legCount ▸ hlt) hi' hi) hguar)
  · have hleg := h.finished i hfin
    by_cases hi : index = i
    · rw [← hi, htask] at hleg
      exact absurd (Option.some.inj hleg) hact
    · rwa [getElem?_set_ne hi]

lemma CargoOk.parked (hall : d.trips.all (· = .finished) = true) {i : ℕ}
    (hi : i < plan.cargoTransports.length) : plan.LoopEnd done d loads i .finished w := by
  have hi' : i < d.trips.length := by rwa [h.tripCount]
  have htrip : d.trips[i]? = some .finished := by
    rw [getElem?_eq_getElem hi']
    exact congrArg some (of_decide_eq_true (all_eq_true.mp hall _ (getElem_mem hi')))
  exact (h.loops i _ _ htrip (h.finished i htrip)).result h.freight

/-- A section of a loop: only its own trip and travel change, and not more remains than before. -/
lemma CargoOk.update {trip' : CargoTrip} {task' : Program Unit}
    (hlt : index < plan.cargoTransports.length) (htransp : d'.transports = d.transports)
    (hpick : d'.pickup = d.pickup) (htodo : d'.todo = d.todo)
    (htrips : d'.trips = d.trips.set index trip')
    (hpositive : Positive d'.remaining) (hnames : ∀ r ∈ d'.remaining, r ∈ plan.resourceNames)
    (htotal : total d'.remaining ≤ total d.remaining) (hloads : ∀ entry ∈ loads, entry ∈ loads')
    (htask : (plan.freight w₀ (keyAt plan.cargoTransports index)).Keeps
      (fun _ w => plan.LoopEnd done d' loads' index trip' w) task' w)
    (hfin : trip' = .finished → task' = .ret ()) :
    plan.CargoOk w₀ done d' (legs.set index task') loads' w where
  freight := h.freight
  transports := htransp.trans h.transports
  tripCount := by rw [htrips, length_set, h.tripCount]
  legCount := by rw [length_set, h.legCount]
  pickups := by rw [hpick, htodo, h.pickups]
  positive := hpositive
  names := hnames
  loops i trip task htrip htask' := by
    rw [htrips] at htrip
    by_cases hi : index = i
    · subst hi
      rw [getElem?_set_self (by rw [h.tripCount]; exact hlt)] at htrip
      rw [getElem?_set_self (by rw [h.legCount]; exact hlt)] at htask'
      rw [← Option.some.inj htask', ← Option.some.inj htrip]
      exact htask
    · rw [getElem?_set_ne hi] at htrip htask'
      refine (h.loops i trip task htrip htask').mono fun _ w _ hend => hend.mono fun id hknown => ?_
      rw [hpick]
      refine hknown.mono (by omega) fun load hload => ?_
      rw [mem_loadsOf] at hload ⊢
      exact hloads _ hload
  finished i htrip := by
    rw [htrips] at htrip
    by_cases hi : index = i
    · subst hi
      rw [getElem?_set_self (by rw [h.tripCount]; exact hlt)] at htrip
      rw [getElem?_set_self (by rw [h.legCount]; exact hlt), hfin (Option.some.inj htrip)]
    · rw [getElem?_set_ne hi] at htrip ⊢
      exact h.finished i htrip

variable (hplain : plan.PlainCargo) (hlt : index < plan.cargoTransports.length)

include hplain hlt

/-- The loop looks whether something remains, and goes for it. -/
lemma CargoOk.look (hend : plan.LoopEnd done d loads index .head w) :
    plan.CargoOk w₀ done (d.look index)
      (legs.set index (plan.cargoLeg options (d.look index) index)) loads w := by
  have htrips : (d.look index).trips =
      d.trips.set index (if d.remaining.isEmpty then .finished else .fetching) := rfl
  have htrip : (d.look index).trips[index]? =
      some (if d.remaining.isEmpty then .finished else .fetching) := by
    rw [htrips, getElem?_set_self (by rw [h.tripCount]; exact hlt)]
  have hcode : (d.look index).transports.getD index "" = plan.cargoTransports.getD index "" := by
    rw [← h.transports]
    rfl
  have hend' : Parked (plan.Known done d.pickup (total d.remaining) (loadsOf loads index))
      (keyAt plan.cargoTransports index) w := hend.mono fun id hknown => hknown.mono (Int.sub_zero _).ge fun _ h => h
  unfold cargoLeg
  rw [htrip, hcode]
  by_cases hempty : d.remaining.isEmpty = true
  · rw [if_pos hempty] at htrips ⊢
    refine h.update hlt rfl rfl rfl htrips h.positive h.names le_rfl (fun _ h => h) ?_ fun _ => rfl
    refine keeps_ret fun w₁ hrely₁ _ => (hend'.rely hrely₁).mono fun id hknown => ?_
    exact hknown.mono (Int.sub_zero _).le fun _ h => h
  · rw [if_neg hempty] at htrips ⊢
    have hstocked : Stocked plan.resourceNames d.remaining :=
      ⟨h.positive, h.names, fun hnil => hempty (ExtTreeMap.isEmpty_iff.mpr hnil)⟩
    refine h.update hlt rfl rfl rfl htrips h.positive h.names le_rfl (fun _ h => h) ?_
      nofun
    refine Keeps.bind ((keeps_freightSettle rfl hend').mono fun _ w₁ _ h₁ => ?_) h.freight
    refine keeps_freightLeg (keyAt_mem hlt) rfl (hplain.origins _ (mem_resourcePickups h.pickups)) hplain.names hstocked
      (fun id hknown => hknown.mono (Int.sub_le_self _ (by decide)) fun _ h => h)
      (fun id hleg => ?_) (fun id hknown hdest =>
        hknown.unused_origin hplain h.pickups hstocked hdest) h₁
    refine ⟨d.remaining, hstocked, hleg.names, .inr (.inl ⟨hleg.destination, ?_⟩)⟩
    exact Int.sub_one_lt_of_le le_rfl

omit hplain in
lemma CargoOk.deliver (hend : plan.LoopEnd done d loads index (.carrying manifest) w) :
    plan.CargoOk w₀ done (d.deliver index manifest)
      (legs.set index (plan.cargoLeg options (d.deliver index manifest) index)) loads w := by
  have htrips : (d.deliver index manifest).trips = d.trips.set index .head := rfl
  have htrip : (d.deliver index manifest).trips[index]? = some .head := by
    rw [htrips, getElem?_set_self (by rw [h.tripCount]; exact hlt)]
  unfold cargoLeg
  rw [htrip]
  refine h.update hlt rfl rfl rfl htrips h.positive h.names le_rfl (fun _ h => h) ?_
    nofun
  exact keeps_ret fun w₁ hrely₁ _ => hend.rely hrely₁

/-- The loop reserves a manifest it has not carried before, and takes it to the destination. -/
lemma CargoOk.reserve {capacity : ℤ} (hcap : 0 < capacity)
    (htrip : d.trips[index]? = some .fetching) (hend : plan.LoopEnd done d loads index .fetching w)
    (hnew : ∀ load, (index, load) ∈ loads →
      ∃ resource ∈ load.keys, d.remaining.getD resource 0 < load.getD resource 0) :
    plan.CargoOk w₀ done (d.reserve index capacity)
      (legs.set index (plan.cargoLeg options (d.reserve index capacity) index))
      (noteLoad index d (d.reserve index capacity) loads) w := by
  have hshare := share_takeManifest h.positive capacity
  have hleft := hshare.total_subtractResources
  have htotal := total_nonneg hshare.positive
  obtain ⟨htransp, hpick, htodo, htrips, hrem⟩ := d.reserve_fields index capacity
  have hnone : takeManifest d.remaining capacity = ∅ → d.remaining = ∅ :=
    takeManifest_eq_empty h.positive hcap
  generalize takeManifest d.remaining capacity = manifest at *
  generalize d.reserve index capacity = d' at *
  have hsubset : ∀ r ∈ d'.remaining, r ∈ plan.resourceNames := fun r hr =>
    h.names r (mem_of_mem_subtractResources (hrem ▸ hr))
  have hpositive : Positive d'.remaining := by
    rw [hrem]
    exact hshare.positive_subtractResources h.positive
  have htrip' : d'.trips[index]? = some (if manifest.isEmpty then .finished else .carrying manifest) := by
    rw [htrips, getElem?_set_self (by rw [h.tripCount]; exact hlt)]
  unfold cargoLeg noteLoad
  rw [htrip, htrip']
  by_cases hempty : manifest.isEmpty = true
  · -- the others have taken everything
    rw [if_pos hempty] at htrips ⊢
    refine h.update hlt htransp hpick htodo htrips hpositive hsubset
      (by rw [hrem]; omega) (fun _ h => h) ?_ fun _ => rfl
    refine keeps_ret fun w₁ hrely₁ _ => (Parked.rely hend hrely₁).mono fun id hknown => ?_
    -- whatever the transport went for was more than nothing
    obtain ⟨m, hstocked, hstems, hwhere⟩ := hknown
    have hnil : manifest = ∅ := ExtTreeMap.isEmpty_iff.mp hempty
    have hpos := total_pos hstocked.positive hstocked.nonempty
    rw [hpick]
    refine ⟨m, hstocked, hstems, hwhere.imp_right (Or.imp_left fun hthere => ⟨hthere.1, ?_⟩)⟩
    rw [hrem, hnone hnil, hnil, subtractResources_empty, total_empty]
    exact hpos
  · rw [if_neg hempty] at htrips ⊢
    have hstocked : Stocked plan.resourceNames manifest :=
      ⟨hshare.positive, fun r hr => h.names r (hshare.mem hr),
        fun hnil => hempty (ExtTreeMap.isEmpty_iff.mpr hnil)⟩
    have hpos := total_pos hstocked.positive hstocked.nonempty
    -- what remains has everything of this manifest, so it is none of the earlier loads
    have hfresh : manifest ∉ loadsOf loads index := by
      intro hmem
      obtain ⟨resource, -, hless⟩ := hnew manifest (mem_loadsOf.mp hmem)
      have hle := hshare.getD_le h.positive resource
      omega
    refine h.update hlt htransp hpick htodo htrips hpositive hsubset
      (by rw [hrem]; omega) (fun _ => mem_cons_of_mem _) ?_ nofun
    have hcode : keyAt plan.cargoTransports index =
        canonicalDeviceCode (d'.transports.getD index "") := by
      rw [htransp, h.transports]
      rfl
    refine keeps_freightLeg (keyAt_mem hlt) hcode hplain.destination hplain.names hstocked
      (fun id hknown => ?_) (fun id hleg => ?_) (fun id hknown hdest =>
        hknown.unused_destination hplain h.pickups hstocked hfresh hdest) hend
    · rw [hpick, hrem]
      refine hknown.mono ?_ fun load hload => ?_
      · show total (subtractResources d.remaining manifest) - 0 ≤ total d.remaining - 1
        omega
      · rw [mem_loadsOf] at hload ⊢
        exact mem_cons_of_mem _ hload
    · exact ⟨manifest, hstocked, hleg.names, .inr (.inr ⟨hleg.destination,
        mem_loadsOf.mpr mem_cons_self⟩)⟩

end Loops

/-! ## From pickup to pickup -/

variable {done todo : List ResourcePickup} {d : CargoDelivery} {loads : List (ℕ × ResourceMap)}

/-- The loops of a pickup start with transports that stand still. -/
lemma cargoOk_start (hplain : plan.PlainCargo) (hpickups : plan.resourcePickups = done ++ pickup :: todo)
    (hfreight : plan.Freight w₀ w)
    (hparked : ∀ i < plan.cargoTransports.length, Parked (plan.Known done pickup
      (total pickup.resources) (loadsOf loads i)) (keyAt plan.cargoTransports i) w)
    (delivered : ResourceMap) (count : ℕ) :
    plan.CargoOk w₀ done (.start plan.cargoTransports pickup todo delivered count)
      (startLegs (.start plan.cargoTransports pickup todo delivered count)) loads w := by
  have hmem := mem_resourcePickups hpickups
  refine ⟨hfreight, rfl, length_map _, length_map _, hpickups, hplain.positive pickup hmem,
    fun resource hres => ?_, fun i trip task htrip htask => ?_, fun i htrip => ?_⟩
  · exact mem_flatMap.mpr ⟨pickup, hmem, ExtTreeMap.mem_keys.mpr hres⟩
  · have htrip : (plan.cargoTransports.map fun _ => CargoTrip.head)[i]? = some trip := htrip
    have htask : (plan.cargoTransports.map fun _ => (pure () : Program Unit))[i]? = some task := htask
    have hi : i < plan.cargoTransports.length := by
      have hlt := (List.getElem?_eq_some_iff.mp htrip).1
      rwa [length_map] at hlt
    rw [getElem?_map, getElem?_eq_getElem hi] at htrip htask
    rw [← Option.some.inj htrip, ← Option.some.inj htask]
    refine keeps_ret fun w₁ hrely₁ _ => ((hparked i hi).rely hrely₁).mono fun id hknown => ?_
    exact hknown.mono (Int.sub_zero _).le fun _ h => h
  · have htrip : (plan.cargoTransports.map fun _ => CargoTrip.head)[i]? = some .finished := htrip
    rw [getElem?_map, Option.map_eq_some_iff] at htrip
    obtain ⟨-, -, hfalse⟩ := htrip
    cases hfalse

variable (plan w₀) in
/-- The transports after the last pickup: the text of each travel had a space. -/
structure CargoEnd (w : World) : Prop where
  freight : plan.Freight w₀ w
  parked : ∀ key ∈ plan.cargoKeys, Parked (fun id => ∃ x ∈ stems id.payload, ' ' ∈ x.toList) key w

lemma CargoOk.cargoEnd (hplain : plan.PlainCargo) (h : plan.CargoOk w₀ done d legs loads w)
    (hall : d.trips.all (· = .finished) = true) : plan.CargoEnd w₀ w := by
  refine ⟨h.freight, fun key hkey => ?_⟩
  obtain ⟨i, hi, rfl⟩ := exists_keyAt hkey
  exact (h.parked hall hi).mono fun id hknown => hknown.space hplain

end DeliveryPlan

end Replicant.Transport
