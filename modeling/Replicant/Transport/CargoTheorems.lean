import Replicant.Lib.Fair
import Replicant.Transport.Cargo

/-!
# Cargo trips carry each unit once

Whatever the schedule, what remains and what was reserved make up the pickup, and a loop ends only
when nothing remains. Every act of a loop lowers one measure, so a fair schedule comes to the end.
-/

namespace Replicant.Transport

open Lib Lib.OrderedMap Std ExtTreeMap CargoTrip CargoDelivery CargoRun

lemma sum_map_set {α : Type} (f : α → ℤ) {xs : List α} {index : ℕ} {a : α} (h : xs[index]? = some a)
    (b : α) : ((xs.set index b).map f).sum = (xs.map f).sum - f a + f b := by
  obtain ⟨hlt, rfl⟩ := List.getElem?_eq_some_iff.mp h
  rw [List.map_set, List.sum_set', dif_pos (by simpa using hlt), List.getElem_map]
  omega

/-- What the transport carries of a resource. -/
def CargoTrip.load (resource : String) : CargoTrip → ℤ
  | .carrying manifest => manifest.getD resource 0
  | _ => 0

/-- What a loop still has to do besides carrying what remains. -/
def CargoTrip.work : CargoTrip → ℤ
  | .finished => 0
  | .fetching => 1
  | .head => 2
  | .carrying _ => 4

variable {d' d : CargoDelivery} {trip : CargoTrip} {pickups : List ResourcePickup} {capacity : ℤ}

namespace CargoDelivery

variable {index : ℕ}

/-- What holds of a delivery whose requests succeed. -/
structure Sound (pickups : List ResourcePickup) (d : CargoDelivery) : Prop where
  conserves : d.Conserves
  length : d.trips.length = d.transports.length
  nonempty : d.transports ≠ []
  positive : Positive d.remaining
  positive_todo : ∀ pickup ∈ d.todo, Positive pickup.resources
  positive_delivered : Positive d.delivered
  positive_pickupDelivered : Positive d.pickupDelivered
  /-- What was reserved was delivered or is carried. -/
  carried : ∀ resource, d.reservedAmount resource =
    d.pickupDelivered.getD resource 0 + (d.trips.map (CargoTrip.load resource)).sum
  carrying : ∀ manifest, CargoTrip.carrying manifest ∈ d.trips → Positive manifest
  /-- The pickups before this one are delivered. -/
  amounts : ∀ resource, d.delivered.getD resource 0 + d.pickup.resources.getD resource 0 +
    (d.todo.map fun pickup => pickup.resources.getD resource 0).sum =
      (pickups.map fun pickup => pickup.resources.getD resource 0).sum
  count : d.count + total d.remaining + pickupUnits d.todo ≤ pickupUnits pickups
  /-- A loop ends only when nothing remains. -/
  drained : CargoTrip.finished ∈ d.trips → d.remaining = ∅
  fit : FitI64 pickups

/-! ## The measure -/

/-- What is left to do: each unit may take a trip of its own. -/
def work (d : CargoDelivery) : ℤ :=
  4 * total d.remaining + (d.trips.map CargoTrip.work).sum + 1 +
    (d.todo.map fun pickup => 4 * total pickup.resources + 2 * d.transports.length + 1).sum

lemma work_lt (htransp : d'.transports = d.transports)
    (htodo : d'.todo = d.todo) (h : 4 * total d'.remaining + (d'.trips.map CargoTrip.work).sum <
      4 * total d.remaining + (d.trips.map CargoTrip.work).sum) : d'.work < d.work := by
  unfold work
  rw [htransp, htodo]
  omega

/-! ## One step -/

variable {next : CargoTrip}

lemma Sound.carrying_set (h : Sound pickups d)
    (hnext : ∀ manifest, next = .carrying manifest → Positive manifest) (manifest : ResourceMap)
    (hin : .carrying manifest ∈ d.trips.set index next) : Positive manifest := by
  rcases List.mem_or_eq_of_mem_set hin with hold | heq
  · exact h.carrying manifest hold
  · exact hnext manifest heq.symm

lemma Sound.drained_set (h : Sound pickups d) (hnext : next = .finished → d.remaining = ∅)
    (hin : .finished ∈ d.trips.set index next) : d.remaining = ∅ := by
  rcases List.mem_or_eq_of_mem_set hin with hold | heq
  · exact h.drained hold
  · exact hnext heq.symm

/-- A loop moves on, and the manifest that remains is left alone. -/
lemma Sound.setTrip (h : Sound pickups d)
    (htrip : d.trips[index]? = some trip) (hload : ∀ resource, next.load resource = trip.load resource)
    (hcarrying : ∀ manifest, next = .carrying manifest → Positive manifest)
    (hfin : next = .finished → d.remaining = ∅) : Sound pickups (d.setTrip index next) := by
  refine ⟨⟨h.conserves.amounts, h.conserves.fits⟩, List.length_set.trans h.length, h.nonempty,
    h.positive, h.positive_todo, h.positive_delivered, h.positive_pickupDelivered,
    fun resource => ?_, h.carrying_set hcarrying, h.amounts, h.count, h.drained_set hfin, h.fit⟩
  show d.reservedAmount resource = d.pickupDelivered.getD resource 0 +
    ((d.trips.set index next).map (load resource)).sum
  rw [sum_map_set _ htrip, hload, h.carried]
  omega

lemma setTrip_work_lt (htrip : d.trips[index]? = some trip)
    (hlt : next.work < trip.work) : (d.setTrip index next).work < d.work := by
  refine work_lt rfl rfl ?_
  show 4 * total d.remaining + ((d.trips.set index next).map CargoTrip.work).sum < _
  rw [sum_map_set _ htrip]
  omega

section

variable (h : Sound pickups d)

include h

lemma Sound.look (htrip : d.trips[index]? = some .head) :
    Sound pickups (d.look index) ∧ (d.look index).work < d.work := by
  unfold CargoDelivery.look
  split
  · have hempty : d.remaining = ∅ := isEmpty_iff.mp ‹_›
    exact ⟨h.setTrip htrip (fun _ => rfl) (fun _ => CargoTrip.noConfusion) fun _ => hempty,
      setTrip_work_lt htrip (by decide)⟩
  · exact ⟨h.setTrip htrip (fun _ => rfl) (fun _ => CargoTrip.noConfusion) CargoTrip.noConfusion,
      setTrip_work_lt htrip (by decide)⟩

section

variable (htrip : d.trips[index]? = some .fetching) (hcap : 0 < capacity)

include htrip hcap

/-- The reservation of a manifest that is not empty. -/
lemma Sound.reserve_manifest (hne : takeManifest d.remaining capacity ≠ ∅) :
    Sound pickups (d.reserve index capacity) ∧ (d.reserve index capacity).work < d.work := by
  have hshare := share_takeManifest h.positive capacity
  have hfits := total_takeManifest_le h.positive hcap
  have hsome := total_pos hshare.positive hne
  have hempty : ¬ (takeManifest d.remaining capacity).isEmpty = true := fun hempty =>
    hne (isEmpty_iff.mp hempty)
  unfold reserve
  simp only [if_neg hempty]
  generalize takeManifest d.remaining capacity = manifest at *
  have hresv : ∀ resource,
      ((((manifest, capacity) :: d.reserved).map fun entry => entry.1.getD resource 0)).sum =
        manifest.getD resource 0 + d.reservedAmount resource := fun resource => by
    rfl
  refine ⟨⟨⟨fun resource => ?_, fun entry hentry => ?_⟩, List.length_set.trans h.length,
    h.nonempty, hshare.positive_subtractResources h.positive, h.positive_todo,
    h.positive_delivered, h.positive_pickupDelivered, fun resource => ?_, h.carrying_set ?_,
    h.amounts, ?_, fun hin => ?_, h.fit⟩, ?_⟩
  · show (subtractResources d.remaining manifest).getD resource 0 + List.sum _ =
      d.pickup.resources.getD resource 0
    rw [hshare.getD_subtractResources, hresv, ← h.conserves.amounts]
    omega
  · rcases List.mem_cons.mp hentry with rfl | hold
    · exact ⟨hfits, hshare.positive⟩
    · exact h.conserves.fits entry hold
  · show List.sum _ = d.pickupDelivered.getD resource 0 +
      ((d.trips.set index (.carrying manifest)).map (load resource)).sum
    rw [hresv, sum_map_set _ htrip, h.carried]
    show manifest.getD resource 0 + _ = _ + (_ - 0 + manifest.getD resource 0)
    omega
  · rintro m ⟨⟩
    exact hshare.positive
  · show ((d.count + 1 : ℕ) : ℤ) + total (subtractResources d.remaining manifest) +
      pickupUnits d.todo ≤ pickupUnits pickups
    rw [hshare.total_subtractResources]
    have hcount := h.count
    push_cast
    omega
  · -- nothing remained, so nothing could be taken
    have hnone : total manifest ≤ total d.remaining := by
      have hrest := total_nonneg (hshare.positive_subtractResources h.positive)
      rw [hshare.total_subtractResources] at hrest
      omega
    rw [h.drained_set CargoTrip.noConfusion hin, total_empty] at hnone
    omega
  · refine work_lt rfl rfl ?_
    show 4 * total (subtractResources d.remaining manifest) +
      ((d.trips.set index (.carrying manifest)).map CargoTrip.work).sum < _
    rw [hshare.total_subtractResources, sum_map_set _ htrip]
    show 4 * (total d.remaining - total manifest) + (_ - 1 + 4) < _
    omega

lemma Sound.reserve :
    Sound pickups (d.reserve index capacity) ∧ (d.reserve index capacity).work < d.work := by
  by_cases hne : takeManifest d.remaining capacity = ∅
  · have hempty := takeManifest_eq_empty h.positive hcap hne
    have hreserve : d.reserve index capacity = d.setTrip index .finished := by
      unfold CargoDelivery.reserve
      simp only [hne, subtractResources_empty, isEmpty_empty, if_true]
      rfl
    rw [hreserve]
    exact ⟨h.setTrip htrip (fun _ => rfl) (fun _ => CargoTrip.noConfusion) fun _ => hempty,
      setTrip_work_lt htrip (by decide)⟩
  · exact h.reserve_manifest htrip hcap hne

end

/-- What was delivered before and what this pickup holds fit together. -/
lemma Sound.pickup_lt (resource : String) :
    d.delivered.getD resource 0 + d.pickup.resources.getD resource 0 < 2 ^ 63 := by
  have htodo : 0 ≤ (d.todo.map fun pickup => pickup.resources.getD resource 0).sum := by
    refine List.sum_nonneg fun n hn => ?_
    obtain ⟨pickup, hpick, rfl⟩ := List.mem_map.mp hn
    exact getD_nonneg (h.positive_todo pickup hpick) resource
  have hamounts := h.amounts resource
  have hfit := h.fit resource
  omega

lemma Sound.deliver {manifest : ResourceMap} (htrip : d.trips[index]? = some (.carrying manifest)) :
    Sound pickups (d.deliver index manifest) ∧ (d.deliver index manifest).work < d.work := by
  have hman := h.carrying manifest (List.mem_of_getElem? htrip)
  -- what is carried and what was delivered are parts of the pickup
  have hfits : ∀ resource,
      d.pickupDelivered.getD resource 0 + manifest.getD resource 0 < 2 ^ 63 := by
    intro resource
    have hload : manifest.getD resource 0 ≤ (d.trips.map (load resource)).sum := by
      refine List.single_le_sum (fun n hn => ?_) _
        (List.mem_map_of_mem (f := load resource) (List.mem_of_getElem? htrip))
      obtain ⟨t, ht, rfl⟩ := List.mem_map.mp hn
      cases t with
      | carrying => exact getD_nonneg (h.carrying _ ht) resource
      | _ => exact Int.le_refl 0
    have hpart := h.conserves.amounts resource
    have hrest := getD_nonneg h.positive resource
    have hbefore := getD_nonneg h.positive_delivered resource
    have hcarried := h.carried resource
    have hlt := h.pickup_lt resource
    omega
  refine ⟨⟨⟨h.conserves.amounts, h.conserves.fits⟩, List.length_set.trans h.length, h.nonempty,
    h.positive, h.positive_todo, h.positive_delivered,
    positive_mergeResources h.positive_pickupDelivered hman hfits,
    fun resource => ?_, h.carrying_set fun _ => CargoTrip.noConfusion, h.amounts, h.count,
    h.drained_set CargoTrip.noConfusion, h.fit⟩, ?_⟩
  · show d.reservedAmount resource = (mergeResources d.pickupDelivered manifest).getD resource 0 +
        ((d.trips.set index .head).map (load resource)).sum
    rw [getD_mergeResources h.positive_pickupDelivered hman (hfits resource),
      sum_map_set _ htrip, h.carried]
    show _ = _ + manifest.getD resource 0 + (_ - manifest.getD resource 0 + 0)
    omega
  · refine work_lt rfl rfl ?_
    show 4 * total d.remaining + ((d.trips.set index .head).map CargoTrip.work).sum < _
    rw [sum_map_set _ htrip]
    show _ + (_ - 4 + 2) < _
    omega

end

variable {pickup : ResourcePickup} {todo : List ResourcePickup}

/-- A delivery that begins at a pickup. -/
lemma sound_start {transports : List String} {delivered : ResourceMap} {count : ℕ}
    (hne : transports ≠ []) (hpick : Positive pickup.resources)
    (htodo : ∀ p ∈ todo, Positive p.resources) (hdelivered : Positive delivered)
    (hamounts : ∀ resource, delivered.getD resource 0 + pickup.resources.getD resource 0 +
      (todo.map fun p => p.resources.getD resource 0).sum =
        (pickups.map fun p => p.resources.getD resource 0).sum)
    (hcount : count + total pickup.resources + pickupUnits todo ≤ pickupUnits pickups)
    (hfit : FitI64 pickups) : Sound pickups (start transports pickup todo delivered count) := by
  have hhead : ∀ t ∈ transports.map fun _ => head, t = .head := by
    intro t ht
    obtain ⟨_, -, rfl⟩ := List.mem_map.mp ht
    rfl
  refine ⟨⟨fun resource => ?_, fun entry hentry => ?_⟩, List.length_map _, hne, hpick, htodo,
    hdelivered, positive_empty, fun resource => ?_, fun manifest hin => ?_, hamounts, hcount,
    fun hin => ?_, hfit⟩
  · exact Int.add_zero _
  · cases hentry
  · show (0 : ℤ) = (∅ : ResourceMap).getD resource 0 +
      ((transports.map fun _ => head).map (load resource)).sum
    simp [load]
  · cases hhead _ hin
  · cases hhead _ hin

/-- When all loops have ended, the pickup is delivered. -/
lemma Sound.joined (h : Sound pickups d) (hall : d.trips.all (· = .finished) = true) :
    d.remaining = ∅ ∧ Positive (mergeResources d.delivered d.pickupDelivered) ∧
      ∀ resource, (mergeResources d.delivered d.pickupDelivered).getD resource 0 =
        d.delivered.getD resource 0 + d.pickup.resources.getD resource 0 := by
  have hfin : ∀ t ∈ d.trips, t = .finished := fun t ht =>
    of_decide_eq_true (List.all_eq_true.mp hall t ht)
  have hempty : d.remaining = ∅ := by
    have hne : d.trips ≠ [] := by
      intro hnil
      have hlength := h.length
      rw [hnil] at hlength
      exact h.nonempty (List.length_eq_zero_iff.mp hlength.symm)
    obtain ⟨t, ht⟩ := List.exists_mem_of_ne_nil _ hne
    exact h.drained (hfin t ht ▸ ht)
  have hall' : ∀ resource, d.pickupDelivered.getD resource 0 = d.pickup.resources.getD resource 0 := by
    intro resource
    have hload : (d.trips.map (load resource)).sum = 0 := by
      refine List.sum_eq_zero fun n hn => ?_
      obtain ⟨t, ht, rfl⟩ := List.mem_map.mp hn
      rw [hfin t ht]
      rfl
    have hcarried := h.carried resource
    have hamounts := h.conserves.amounts resource
    rw [hempty, getD_empty] at hamounts
    omega
  have hfits : ∀ resource,
      d.delivered.getD resource 0 + d.pickupDelivered.getD resource 0 < 2 ^ 63 := fun resource => by
    rw [hall']
    exact h.pickup_lt resource
  refine ⟨hempty, positive_mergeResources h.positive_delivered h.positive_pickupDelivered hfits,
    fun resource => ?_⟩
  rw [getD_mergeResources h.positive_delivered h.positive_pickupDelivered (hfits resource), hall']

/-- The next pickup costs what was set aside for it. -/
lemma start_work_lt (delivered : ResourceMap) (htodo : d.todo = pickup :: todo)
    (hempty : d.remaining = ∅) (hall : d.trips.all (· = .finished) = true) :
    (start d.transports pickup todo delivered d.count).work < d.work := by
  have hold : (d.trips.map CargoTrip.work).sum = 0 := by
    refine List.sum_eq_zero fun n hn => ?_
    obtain ⟨t, ht, rfl⟩ := List.mem_map.mp hn
    rw [of_decide_eq_true (List.all_eq_true.mp hall t ht)]
    rfl
  have hnew : ((d.transports.map fun _ => CargoTrip.head).map CargoTrip.work).sum =
      2 * (d.transports.length : ℤ) := by
    simp [CargoTrip.work, Int.mul_comm]
  unfold work
  rw [hold, htodo, hempty, total_empty, List.map_cons, List.sum_cons]
  show 4 * total pickup.resources +
    ((d.transports.map fun _ => CargoTrip.head).map CargoTrip.work).sum + 1 + _ < _
  show _ + _ + 1 +
    (todo.map fun p => 4 * total p.resources + 2 * (d.transports.length : ℤ) + 1).sum < _
  omega

end CargoDelivery

/-! ## Any step -/

/-- What a step of a sound delivery leads to. -/
inductive CargoOutcome (pickups : List ResourcePickup) (d : CargoDelivery) : CargoRun → Prop where
  | stay : CargoOutcome pickups d (.running d)
  | move {d' : CargoDelivery} (sound : d'.Sound pickups) (lower : d'.work < d.work) :
    CargoOutcome pickups d (.running d')
  | done {count : ℕ} {result : ResourceMap} (sums : SumsPickups pickups result)
      (bound : count ≤ pickupUnits pickups) : CargoOutcome pickups d (.returned count (.ok result))

namespace CargoDelivery

variable {index : ℕ}

lemma Sound.tripStep (h : Sound pickups d) (hcap : 0 < capacity)
    (htrip : d.trips[index]? = some trip) (hopen : trip ≠ .finished) :
    ∃ d', d.tripStep index capacity = .running d' ∧ Sound pickups d' ∧ d'.work < d.work := by
  unfold CargoDelivery.tripStep
  rw [htrip]
  cases trip with
  | head => exact ⟨_, rfl, h.look htrip⟩
  | fetching =>
    refine ⟨d.reserve index capacity, ?_, h.reserve htrip hcap⟩
    exact if_neg (by omega)
  | carrying => exact ⟨_, rfl, h.deliver htrip⟩
  | finished => exact absurd rfl hopen

lemma tripStep_finished {trip : Option CargoTrip} (htrip : d.trips[index]? = trip)
    (hend : trip = some .finished ∨ trip = none) : d.tripStep index capacity = .running d := by
  unfold tripStep
  rw [htrip]
  rcases hend with rfl | rfl <;> rfl

variable (h : Sound pickups d)

include h

/-- The join of loops that have all ended goes to the next pickup, or returns. -/
lemma Sound.joinStep (hall : d.trips.all (· = .finished) = true) :
    CargoOutcome pickups d d.joinStep ∧ d.joinStep ≠ .running d := by
  obtain ⟨hempty, hpositive, hdelivered⟩ := h.joined hall
  unfold CargoDelivery.joinStep
  rw [if_pos hall, hempty, isEmpty_empty, if_pos rfl]
  cases htodo : d.todo with
  | nil =>
    refine ⟨.done ⟨fun resource => ?_, hpositive⟩ ?_, CargoRun.noConfusion⟩
    · have hamounts := h.amounts resource
      rw [htodo] at hamounts
      rw [hdelivered, ← hamounts]
      exact (Int.add_zero _).symm
    · have hcount := h.count
      rw [htodo, hempty, total_empty] at hcount
      simpa [pickupUnits] using hcount
  | cons pickup todo =>
    have hlt := start_work_lt (mergeResources d.delivered d.pickupDelivered) htodo hempty hall
    refine ⟨.move ?_ hlt, fun heq => ?_⟩
    · refine sound_start h.nonempty (h.positive_todo pickup ?_) (fun p hp => h.positive_todo p ?_)
        hpositive (fun resource => ?_) ?_ h.fit
      · rw [htodo]
        exact List.mem_cons_self
      · rw [htodo]
        exact List.mem_cons_of_mem pickup hp
      · have hamounts := h.amounts resource
        rw [htodo, List.map_cons, List.sum_cons] at hamounts
        rw [hdelivered]
        omega
      · have hcount := h.count
        unfold pickupUnits at hcount ⊢
        rw [htodo, hempty, total_empty, List.map_cons, List.sum_cons] at hcount
        omega
    · rw [running.inj heq] at hlt
      exact absurd hlt (Int.lt_irrefl _)

lemma Sound.step {op : CargoOp} (hop : op.succeeds = true) :
    CargoOutcome pickups d (CargoRun.step (.running d) op) := by
  cases op with
  | trip index capacity =>
    have hcap : 0 < capacity := of_decide_eq_true hop
    show CargoOutcome pickups d (d.tripStep index capacity)
    by_cases hend : d.trips[index]? = some .finished ∨ d.trips[index]? = none
    · rw [tripStep_finished rfl hend]
      exact .stay
    · obtain ⟨trip, htrip⟩ := Option.ne_none_iff_exists'.mp fun hnone => hend (.inr hnone)
      have hopen : trip ≠ .finished := by
        rintro rfl
        exact hend (.inl htrip)
      obtain ⟨d', heq, hsound, hlt⟩ := h.tripStep hcap htrip hopen
      rw [heq]
      exact .move hsound hlt
  | fail => cases hop
  | join =>
    show CargoOutcome pickups d d.joinStep
    by_cases hall : d.trips.all (· = .finished) = true
    · exact (h.joinStep hall).1
    · unfold CargoDelivery.joinStep
      rw [if_neg hall]
      exact .stay

/-- Some loop has not ended, or all have and can be joined. -/
lemma Sound.fair {schedule : ℕ → CargoOp} (hops : ∀ n, (schedule n).succeeds = true)
    (hfair : FairTrips d.transports schedule) (n : ℕ) :
    ∃ m, n ≤ m ∧ CargoRun.step (.running d) (schedule m) ≠ .running d := by
  by_cases hall : d.trips.all (· = .finished) = true
  · obtain ⟨m, hle, hm⟩ := hfair.2 n
    refine ⟨m, hle, ?_⟩
    rw [hm]
    exact (h.joinStep hall).2
  · obtain ⟨trip, hmem, hopen⟩ : ∃ t ∈ d.trips, t ≠ .finished := by
      by_contra hnone
      refine hall (List.all_eq_true.mpr fun t ht => decide_eq_true ?_)
      by_contra hne
      exact hnone ⟨t, ht, hne⟩
    obtain ⟨index, hlen, htrip⟩ := List.mem_iff_getElem.mp hmem
    obtain ⟨m, hle, capacity, hm⟩ := hfair.1 index (h.length ▸ hlen) n
    have hcap : 0 < capacity := by
      have hop := hops m
      rw [hm] at hop
      exact of_decide_eq_true hop
    have hget : d.trips[index]? = some trip := by
      rw [List.getElem?_eq_getElem hlen, htrip]
    obtain ⟨d', heq, -, hlt⟩ := h.tripStep hcap hget hopen
    refine ⟨m, hle, fun hsame => ?_⟩
    rw [hm] at hsame
    rw [running.inj (heq.symm.trans hsame)] at hlt
    exact absurd hlt (Int.lt_irrefl _)

/-- Every term of the measure is a number of things. -/
lemma Sound.work_nonneg : 0 ≤ d.work := by
  have hrem := total_nonneg h.positive
  have htrips : 0 ≤ (d.trips.map CargoTrip.work).sum := by
    refine List.sum_nonneg fun n hn => ?_
    obtain ⟨t, -, rfl⟩ := List.mem_map.mp hn
    cases t with
    | carrying => exact (by decide : (0 : ℤ) ≤ 4)
    | _ => decide
  have htodo : 0 ≤ (d.todo.map fun pickup =>
      4 * total pickup.resources + 2 * (d.transports.length : ℤ) + 1).sum := by
    refine List.sum_nonneg fun n hn => ?_
    obtain ⟨pickup, hpick, rfl⟩ := List.mem_map.mp hn
    have htotal := total_nonneg (h.positive_todo pickup hpick)
    omega
  unfold work
  omega

end CargoDelivery

/-! ## Runs -/

lemma CargoDelivery.reserve_fields (d : CargoDelivery) (index : ℕ) (capacity : ℤ) :
    (d.reserve index capacity).transports = d.transports ∧
      (d.reserve index capacity).pickup = d.pickup ∧ (d.reserve index capacity).todo = d.todo ∧
      (d.reserve index capacity).trips = d.trips.set index
        (if (takeManifest d.remaining capacity).isEmpty then .finished
          else .carrying (takeManifest d.remaining capacity)) ∧
      (d.reserve index capacity).remaining =
        subtractResources d.remaining (takeManifest d.remaining capacity) := by
  unfold CargoDelivery.reserve
  dsimp only
  split
  · exact ⟨rfl, rfl, rfl, rfl, rfl⟩
  · exact ⟨rfl, rfl, rfl, rfl, rfl⟩

variable {op : CargoOp}

lemma CargoRun.transports_step {d : CargoDelivery}
    (h : CargoRun.step (.running d) op = .running d') : d'.transports = d.transports := by
  cases op with
  | trip index capacity =>
    change d.tripStep index capacity = .running d' at h
    unfold tripStep at h
    split at h
    · cases h
      rfl
    · split at h
      · cases h
      · cases h
        exact (d.reserve_fields index capacity).1
    · cases h
      rfl
    · cases h
      rfl
    · cases h
      rfl
  | fail index error =>
    change d.failStep index error = .running d' at h
    unfold failStep at h
    split at h
    · cases h
      rfl
    · cases h
      rfl
    · cases h
  | join =>
    change d.joinStep = .running d' at h
    unfold joinStep at h
    split at h
    · split at h
      · split at h
        · cases h
        · cases h
          rfl
      · cases h
    · cases h
      rfl

/-- The delivery is sound and has the given transports, or it has returned the sum of all pickups. -/
def CargoRun.Sound (pickups : List ResourcePickup) (transports : List String) : CargoRun → Prop
  | .running d => d.Sound pickups ∧ d.transports = transports
  | .returned count result => ∃ sum, result = .ok sum ∧ SumsPickups pickups sum ∧
      count ≤ pickupUnits pickups

variable {transports : List String}

lemma CargoRun.Sound.step {run : CargoRun} (h : run.Sound pickups transports)
    (hop : op.succeeds = true) : (run.step op).Sound pickups transports := by
  cases run with
  | returned => exact h
  | running d =>
    obtain ⟨hsound, htransp⟩ := h
    cases hstep : CargoRun.step (.running d) op with
    | running =>
      refine ⟨?_, (transports_step hstep).trans htransp⟩
      have houtcome := hsound.step hop
      rw [hstep] at houtcome
      cases houtcome with
      | stay => exact hsound
      | move hsound' => exact hsound'
    | returned =>
      have houtcome := hsound.step hop
      rw [hstep] at houtcome
      cases houtcome with
      | done hsums hbound => exact ⟨_, rfl, hsums, hbound⟩

lemma sound_deliverResourcePickups (hpositive : ∀ pickup ∈ pickups, Positive pickup.resources)
    (hfit : FitI64 pickups) (hne : transports ≠ []) : (deliverResourcePickups pickups transports).Sound pickups transports := by
  unfold deliverResourcePickups
  cases pickups with
  | nil =>
    refine ⟨∅, rfl, ⟨fun resource => ?_, positive_empty⟩, Int.le_refl 0⟩
    rfl
  | cons pickup todo =>
    simp only [List.isEmpty_iff, if_neg hne]
    refine ⟨sound_start hne (hpositive pickup List.mem_cons_self)
      (fun p hp => hpositive p (List.mem_cons_of_mem pickup hp)) positive_empty
      (fun resource => ?_) ?_ hfit, rfl⟩
    · rw [getD_empty, List.map_cons, List.sum_cons, Int.zero_add]
    · unfold pickupUnits
      rw [List.map_cons, List.sum_cons]
      omega

/-- The run has returned. -/
def CargoRun.Returned : CargoRun → Prop
  | .running _ => False
  | .returned _ _ => True

/-- What is left to do, as a number. -/
def CargoRun.work : CargoRun → ℕ
  | .running d => d.work.toNat
  | .returned _ _ => 0

section Schedule

variable {run : CargoRun} (h : run.Sound pickups transports) {schedule : ℕ → CargoOp}
  (hops : ∀ n, (schedule n).succeeds = true)

include h hops

lemma sound_after (n : ℕ) : (after step run schedule n).Sound pickups transports := by
  induction n with
  | zero => exact h
  | succ n ih => exact ih.step (hops n)

lemma exists_returned (hfair : FairTrips transports schedule) :
    ∃ n, (after CargoRun.step run schedule n).Returned := by
  have hsound := sound_after h hops
  refine exists_done work (fun n hopen hchg hopen' => ?_) fun n hopen => ?_
  · have hn := hsound n
    rw [after] at hchg hopen' ⊢
    cases hrun : after step run schedule n with
    | returned =>
      rw [hrun] at hopen
      exact absurd trivial hopen
    | running d =>
      rw [hrun] at hchg hopen' hn
      have houtcome := hn.1.step (hops n)
      cases hstep : step (.running d) (schedule n) with
      | returned =>
        rw [hstep] at hopen'
        exact absurd trivial hopen'
      | running d' =>
        rw [hstep] at houtcome hchg
        cases houtcome with
        | stay => exact absurd rfl hchg
        | move hsound' hlt =>
          have hnonneg := hsound'.work_nonneg
          show d'.work.toNat < d.work.toNat
          omega
  · have hn := hsound n
    cases hrun : after step run schedule n with
    | returned =>
      rw [hrun] at hopen
      exact absurd trivial hopen
    | running =>
      rw [hrun] at hn
      exact hn.1.fair hops (hn.2 ▸ hfair) n

end Schedule

/-- With at least one transport and amounts that fit, whatever the schedule, the reserved manifests and what remains make
up the pickup; and a fair schedule whose requests succeed returns the sum of all pickups, after at
most as many trips as there are units. -/
theorem cargo_carried_once (pickups : List ResourcePickup) (transports : List String)
    (hpositive : ∀ pickup ∈ pickups, Positive pickup.resources) (hfit : FitI64 pickups)
    (hne : transports ≠ []) :
    (∀ ops : List CargoOp, (∀ op ∈ ops, op.succeeds = true) → ∀ d,
      ops.foldl CargoRun.step (deliverResourcePickups pickups transports) = .running d →
        d.Conserves) ∧
    ∀ schedule : ℕ → CargoOp, (∀ n, (schedule n).succeeds = true) →
      FairTrips transports schedule → ∃ n count result,
        after CargoRun.step (deliverResourcePickups pickups transports) schedule n =
          .returned count (.ok result) ∧
        count ≤ pickupUnits pickups ∧ SumsPickups pickups result := by
  have hstart := sound_deliverResourcePickups hpositive hfit hne
  constructor
  · intro ops hops d hrun
    have hsound := List.foldlRecOn (motive := CargoRun.Sound pickups transports) ops step hstart
      fun _ hs op hop => hs.step (hops op hop)
    rw [hrun] at hsound
    exact hsound.1.conserves
  · intro schedule hops hfair
    obtain ⟨n, hret⟩ := exists_returned hstart hops hfair
    have hsound := sound_after hstart hops n
    cases hrun : after step (deliverResourcePickups pickups transports) schedule n with
    | running =>
      rw [hrun] at hret
      exact hret.elim
    | returned count =>
      rw [hrun] at hsound
      obtain ⟨sum, rfl, hsums, hbound⟩ := hsound
      exact ⟨n, count, sum, hrun, hbound, hsums⟩

/-- Three units of iron at one place, and two more with one of copper at another. -/
def ironPickups : List ResourcePickup :=
  [⟨"SOL-3", (∅ : ResourceMap).insert "iron" 3⟩,
    ⟨"SOL-4", ((∅ : ResourceMap).insert "iron" 2).insert "copper" 1⟩]

lemma positive_ironPickups : ∀ pickup ∈ ironPickups, Positive pickup.resources := by
  have hiron {n : ℤ} (hn : 0 < n) : Positive ((∅ : ResourceMap).insert "iron" n) :=
    positive_insert positive_empty hn
  intro pickup hpick
  simp only [ironPickups, List.mem_cons, List.not_mem_nil, or_false] at hpick
  rcases hpick with rfl | rfl
  · exact hiron (by decide)
  · exact positive_insert (hiron (by decide)) (by decide)

lemma fit_ironPickups : FitI64 ironPickups := by
  intro resource
  simp only [ironPickups, List.map_cons, List.map_nil, List.sum_cons, List.sum_nil, getD_insert,
    getD_empty]
  split <;> split <;> decide

/-- Two transports with room for two and for one unit take turns, and are joined after each turn. -/
def alternating (n : ℕ) : CargoOp :=
  if n % 3 = 0 then .trip 0 2 else if n % 3 = 1 then .trip 1 1 else .join

theorem cargo_carried_once_iron :
    ∃ n count result, after CargoRun.step (deliverResourcePickups ironPickups ["T1", "T2"])
        alternating n = .returned count (.ok result) ∧
      count ≤ pickupUnits ironPickups ∧ SumsPickups ironPickups result := by
  refine (cargo_carried_once ironPickups ["T1", "T2"] positive_ironPickups fit_ironPickups
    (by decide)).2 alternating (fun n => ?_) ⟨fun index hindex n => ?_,
      fun n => ⟨3 * n + 2, by omega, ?_⟩⟩
  · unfold alternating
    repeat' split
    all_goals rfl
  · match index, hindex with
    | 0, _ => exact ⟨3 * n, by omega, 2, if_pos (by omega)⟩
    | 1, _ => exact ⟨3 * n + 1, by omega, 1, by rw [alternating, if_neg (by omega), if_pos (by omega)]⟩
  · rw [alternating, if_neg (by omega), if_neg (by omega)]

/-- Without a transport nothing is carried: the delivery is refused. -/
theorem exists_refused_delivery : ∃ pickups : List ResourcePickup,
    (∀ pickup ∈ pickups, Positive pickup.resources) ∧ FitI64 pickups ∧ ∀ schedule n,
      after CargoRun.step (deliverResourcePickups pickups []) schedule n =
        .returned 0 (.error (.notFound "resource delivery has no cargo transports")) := by
  refine ⟨ironPickups, positive_ironPickups, fit_ironPickups, fun schedule n => ?_⟩
  induction n with
  | zero => rfl
  | succ n ih =>
    rw [after, ih]
    rfl

end Replicant.Transport
