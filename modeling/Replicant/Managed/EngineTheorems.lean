import Replicant.Managed.Engine

/-!
# Memory follows the store

What an operation publishes, from a snapshot that matches the store, matches the store its command
leaves. A device list must not repeat a key: it is split against the old snapshot, and the store
applies all changes before all touches.
-/

namespace Replicant.Managed

open Lib Observation List Table

variable {previous : Devices} {plan : DevicePlan} {merged existing : Observation Device}
  {done : List EntityKey} {devices : List (Observation Device)} {deletion : ProjectionTombstone}
  {deletions : List ProjectionTombstone} {cursor : String} {batch : EventProjectionBatch}

/-! ## The tables after a command -/

namespace ProjectionStore

variable {s t : ProjectionStore}

def deviceRow (device : Observation Device) : DeviceRow :=
  ⟨device, device.metadata.observedAt, device.metadata.access⟩

variable (device : Observation Device)

@[simp] lemma restoreDevice_deviceRow : restoreDevice (deviceRow device) = device := by
  simp [restoreDevice, deviceRow]

/-- Devices are persisted one by one, and nothing else is written. -/
lemma foldl_persistDevice (devices : List (Observation Device)) (s : ProjectionStore) :
    devices.foldl persistDevice s =
      { s with devices := devices.foldl (fun t d => t.put (deviceRow d)) s.devices } := by
  induction devices generalizing s with
  | nil => rfl
  | cons d devices ih => exact ih _

lemma foldl_touchDevice (touches : List (EntityKey × ℤ)) (s : ProjectionStore) :
    touches.foldl touchDevice s = { s with devices := (touches.foldl touchDevice s).devices } := by
  induction touches generalizing s with
  | nil => rfl
  | cons touch touches ih => exact ih _

lemma persistDevicesAndTouch_eq (changed : List (Observation Device))
    (touches : List (EntityKey × ℤ)) (s : ProjectionStore) :
    s.persistDevicesAndTouch changed touches =
      { s with devices := (s.persistDevicesAndTouch changed touches).devices } := by
  unfold persistDevicesAndTouch
  rw [foldl_touchDevice, foldl_persistDevice]

/-- Touches of other devices commute with a device. -/
lemma foldl_touchDevice_persistDevice {touches : List (EntityKey × ℤ)} {device : Observation Device}
    (h : ∀ touch ∈ touches, touch.1 ≠ device.value.key) (s : ProjectionStore) :
    touches.foldl touchDevice (s.persistDevice device) =
      (touches.foldl touchDevice s).persistDevice device := by
  induction touches generalizing s with
  | nil => rfl
  | cons touch touches ih =>
    have hcomm : (s.persistDevice device).touchDevice touch =
        (s.touchDevice touch).persistDevice device := by
      have hne : touch.1 ≠ device.value.key := h touch mem_cons_self
      refine congrArg (fun devices => { s with devices := devices }) (update_put ?_)
      intro row hrow heq
      rw [decide_eq_true_eq] at hrow
      exact hne (hrow.symm.trans heq)
    rw [foldl_cons, foldl_cons, hcomm]
    exact ih (fun touch htouch => h touch (mem_cons_of_mem _ htouch)) _

lemma mem_touchDevice {touch : EntityKey × ℤ} {row : DeviceRow} :
    row ∈ (s.touchDevice touch).devices ↔
      ∃ r ∈ s.devices, row = if r.key = touch.1 then r.touch touch.2 else r := by
  unfold touchDevice
  rw [mem_update]
  refine exists_congr fun r => and_congr_right fun _ => ?_
  simp only [decide_eq_true_eq]
  exact eq_comm

lemma restoreDevices_persistDevice :
    ((s.persistDevice device).restoreDevices).Same (s.restoreDevices.put device) := by
  have hput : ((s.persistDevice device).restoreDevices).Same
      (s.restoreDevices.put (restoreDevice (deviceRow device))) := map_put (deviceRow device)
  rw [restoreDevice_deviceRow] at hput
  exact hput

/-- A touch moves the time of one device forward. -/
lemma restoreDevices_touchDevice {observedAt : ℤ} (hexist : existing ∈ s.restoreDevices)
    (hle : existing.metadata.observedAt ≤ observedAt) :
    ((s.touchDevice (existing.value.key, observedAt)).restoreDevices).Same
      (s.restoreDevices.put { existing with
        metadata := { existing.metadata with observedAt := observedAt } }) := by
  obtain ⟨row, hrow, rfl⟩ := Table.mem_map.mp hexist
  have hrestd : restoreDevice (row.touch observedAt) = { restoreDevice row with
        metadata := { (restoreDevice row).metadata with observedAt := observedAt } } := by
    have hmax : max row.observation.metadata.observedAt (max row.observedAt observedAt) =
        observedAt := by
      rw [← max_assoc]
      exact max_eq_right hle
    simp only [restoreDevice, DeviceRow.touch, hmax]
  have hmem (x : Observation Device) : x ∈ (s.touchDevice (row.key, observedAt)).restoreDevices ↔
        ∃ r ∈ s.devices, restoreDevice (if r.key = row.key then r.touch observedAt else r) = x := by
    refine Table.mem_map.trans ⟨?_, ?_⟩
    · rintro ⟨_, htouched, rfl⟩
      obtain ⟨r, hr, hrow⟩ := mem_touchDevice.mp htouched
      exact ⟨r, hr, by rw [hrow]⟩
    · rintro ⟨r, hr, rfl⟩
      exact ⟨_, mem_touchDevice.mpr ⟨r, hr, rfl⟩, rfl⟩
  intro x
  refine (hmem x).trans (Iff.trans ?_ Table.mem_put.symm)
  constructor
  · rintro ⟨r, hr, rfl⟩
    by_cases hkey : r.key = row.key
    · rw [if_pos hkey, Table.eq_of_key hr hrow hkey]
      exact .inl hrestd
    · rw [if_neg hkey]
      exact .inr ⟨Table.mem_map.mpr ⟨r, hr, rfl⟩, hkey⟩
  · rintro (rfl | ⟨hx, hne⟩)
    · exact ⟨row, hrow, by rw [if_pos rfl]; exact hrestd⟩
    · obtain ⟨r, hr, rfl⟩ := Table.mem_map.mp hx
      exact ⟨r, hr, by rw [if_neg (show r.key ≠ row.key from hne)]⟩

end ProjectionStore

open ProjectionStore

/-! ## The match -/

/-- The column `access_scope` is that of the observation. -/
abbrev ProjectionStore.ColumnsFit (s : ProjectionStore) : Prop :=
  ∀ row ∈ s.devices, row.accessScope = row.observation.metadata.access

/-- The published maps are those that would be restored. -/
structure Matches (snapshot : StateSnapshot) (s : ProjectionStore) : Prop where
  devices : snapshot.devices.Same s.restoreDevices
  replicants : snapshot.replicants.Same s.replicants
  locations : snapshot.locations.Same s.locations
  inventories : snapshot.inventories.Same s.inventories
  simulations : snapshot.simulations.Same s.simulations
  columns : s.ColumnsFit

variable {snapshot : StateSnapshot} {s t : ProjectionStore} {reply : Reply}
  {present : List EntityKey}

lemma matches_restore (s : ProjectionStore) (h : s.ColumnsFit) : Matches s.restoreSnapshot s :=
  ⟨Table.Same.refl _, Table.Same.refl _, Table.Same.refl _, Table.Same.refl _, Table.Same.refl _, h⟩

lemma columns_persistDevice (h : s.ColumnsFit) (device : Observation Device) :
    (s.persistDevice device).ColumnsFit := by
  intro row hrow
  rcases mem_put.mp hrow with rfl | ⟨hold, -⟩
  · rfl
  · exact h row hold

/-! ## Device lists -/

lemma mergeInto_key (devices : Devices) (incoming : Observation Device) :
    (mergeInto devices incoming).value.key = incoming.value.key := by
  unfold mergeInto
  split
  · next existing hexist => exact mergeDevice_key (find?_eq_some.mp hexist).2
  · rfl

/-- What the loop over a device list keeps, with the keys it has gone through. -/
structure DevicePlan.Fits (previous : Devices) (s : ProjectionStore) (plan : DevicePlan)
    (done : List EntityKey) : Prop where
  same : plan.next.Same (s.persistDevicesAndTouch plan.changed plan.touches).restoreDevices
  fresh : ∀ key ∉ done, plan.next.find? key = previous.find? key
  touched : ∀ touch ∈ plan.touches, touch.1 ∈ done
  columns : ∀ row ∈ (s.persistDevicesAndTouch plan.changed plan.touches).devices,
    row.accessScope = row.observation.metadata.access

/-- An observation that projects the same moves the time of the old one. -/
lemma DevicePlan.record_same
    (h : (previous.find? merged.value.key).filter (sameProjectedObservation · merged) =
      some existing) : plan.record previous merged = { plan with
        next := plan.next.put { existing with
          metadata := { existing.metadata with observedAt := merged.metadata.observedAt } }
        touches := plan.touches ++ [(merged.value.key, merged.metadata.observedAt)] } := by
  have hmerged := eq_of_sameProjectedObservation (Option.filter_eq_some_iff.mp h).2
  have hfinal : { merged with
      metadata := { merged.metadata with sourceDocument := existing.metadata.sourceDocument } } =
      { existing with
        metadata := { existing.metadata with observedAt := merged.metadata.observedAt } } := by
    rw [hmerged]
  unfold DevicePlan.record
  rw [h]
  exact congrArg (fun final => (⟨plan.next.put final, _, _⟩ : DevicePlan)) hfinal

section

variable (h : plan.Fits previous s done)

include h

/-- A device that was not merged before is recorded; a device of the old map is not set back. -/
lemma DevicePlan.Fits.record (hnew : merged.value.key ∉ done)
    (hlater : ∀ existing, previous.find? merged.value.key = some existing →
      existing.metadata.observedAt ≤ merged.metadata.observedAt) :
    (plan.record previous merged).Fits previous s (merged.value.key :: done) := by
  have hfresh (final : Observation Device) (hfinal : final.value.key = merged.value.key) :
      ∀ key ∉ merged.value.key :: done, (plan.next.put final).find? key = previous.find? key := by
    intro key hkey
    rw [mem_cons, not_or] at hkey
    rw [find?_put_of_ne (by rw [show deviceKey final = _ from hfinal]; exact hkey.1)]
    exact h.fresh key hkey.2
  cases hsame : (previous.find? merged.value.key).filter (sameProjectedObservation · merged) with
  | none =>
    -- the observation is written; the touches are of other devices
    have hstore : s.persistDevicesAndTouch (plan.changed ++ [merged]) plan.touches =
        (s.persistDevicesAndTouch plan.changed plan.touches).persistDevice merged := by
      unfold persistDevicesAndTouch
      rw [foldl_append]
      refine foldl_touchDevice_persistDevice (fun touch htouch heq => ?_) _
      exact hnew (heq ▸ h.touched touch htouch)
    unfold DevicePlan.record
    rw [hsame]
    refine ⟨?_, hfresh merged rfl, fun touch ht => mem_cons_of_mem _ (h.touched touch ht), ?_⟩
    · rw [hstore]
      exact (h.same.put merged).trans (restoreDevices_persistDevice merged).symm
    · rw [hstore]
      exact columns_persistDevice h.columns merged
  | some existing =>
    -- the row stays, with the later time
    have hexist := (Option.filter_eq_some_iff.mp hsame).1
    have hexkey : existing.value.key = merged.value.key := (find?_eq_some.mp hexist).2
    have hrow : existing ∈ (s.persistDevicesAndTouch plan.changed plan.touches).restoreDevices := by
      rw [← h.fresh _ hnew] at hexist
      exact (h.same existing).mp (find?_eq_some.mp hexist).1
    have hstore : s.persistDevicesAndTouch plan.changed
        (plan.touches ++ [(merged.value.key, merged.metadata.observedAt)]) =
        (s.persistDevicesAndTouch plan.changed plan.touches).touchDevice
          (merged.value.key, merged.metadata.observedAt) := by
      unfold persistDevicesAndTouch
      rw [foldl_append]
      rfl
    rw [DevicePlan.record_same hsame]
    refine ⟨?_, hfresh _ hexkey, ?_, ?_⟩
    · rw [hstore]
      have htouch := restoreDevices_touchDevice hrow (hlater existing hexist)
      rw [hexkey] at htouch
      exact (h.same.put _).trans htouch.symm
    · exact forall_mem_append.mpr ⟨fun touch hold => mem_cons_of_mem _ (h.touched touch hold),
        forall_mem_singleton.mpr mem_cons_self⟩
    · rw [hstore]
      intro row hrow
      obtain ⟨r, hr, rfl⟩ := mem_touchDevice.mp hrow
      have hcolumn := h.columns r hr
      split <;> exact hcolumn

lemma DevicePlan.Fits.add {incoming : Observation Device} (hnew : incoming.value.key ∉ done) :
    (plan.add previous incoming).Fits previous s (incoming.value.key :: done) := by
  have hkey := mergeInto_key plan.next incoming
  have hlater (existing : Observation Device)
      (hexist : previous.find? (mergeInto plan.next incoming).value.key = some existing) :
      existing.metadata.observedAt ≤ (mergeInto plan.next incoming).metadata.observedAt := by
    rw [hkey, ← h.fresh _ hnew] at hexist
    unfold mergeInto
    rw [hexist]
    exact observedAt_le_mergeDevice existing incoming
  have hrecord := h.record (by rwa [hkey]) hlater
  rwa [hkey] at hrecord

lemma DevicePlan.Fits.foldl (hkeys : (devices.map deviceKey).Nodup)
    (hnew : ∀ d ∈ devices, d.value.key ∉ done) :
    ∃ done, (devices.foldl (DevicePlan.add previous) plan).Fits previous s done := by
  induction devices generalizing plan done with
  | nil => exact ⟨done, h⟩
  | cons d devices ih =>
    rw [map_cons, nodup_cons] at hkeys
    refine ih (h.add (hnew d mem_cons_self)) hkeys.2 fun e he => ?_
    rw [mem_cons, not_or]
    refine ⟨fun heq => hkeys.1 ?_, hnew e (mem_cons_of_mem _ he)⟩
    exact mem_map.mpr ⟨e, he, heq⟩

end

/-! ## Event batches -/

lemma restoreDevices_foldl_persistDevice (devices : List (Observation Device)) (s : ProjectionStore) :
    ((devices.foldl persistDevice s).restoreDevices).Same
      (devices.foldl Table.put s.restoreDevices) := by
  induction devices generalizing s with
  | nil => exact Table.Same.refl _
  | cons device devices ih =>
    exact (ih (s.persistDevice device)).trans
      ((restoreDevices_persistDevice device).foldl_put devices)

lemma columns_foldl_persistDevice (devices : List (Observation Device)) (h : s.ColumnsFit) :
    (devices.foldl persistDevice s).ColumnsFit := by
  induction devices generalizing s with
  | nil => exact h
  | cons device devices ih => exact ih (columns_persistDevice h device)

/-- The next map holds the locations as they are sent. -/
lemma mergeLocations_fst (locations : Locations) (incoming : List (Observation Location)) :
    (mergeLocations locations incoming).1 =
      (mergeLocations locations incoming).2.foldl Table.put locations := by
  induction incoming generalizing locations with
  | nil => rfl
  | cons location rest ih => exact ih _

/-- The rows of a batch, before its deletions. -/
lemma Matches.persistBatchRows (h : Matches snapshot s) (batch : EventProjectionBatch) : Matches
      { snapshot with
        devices := batch.devices.foldl put snapshot.devices
        replicants := batch.replicants.foldl put snapshot.replicants
        locations := (mergeLocations snapshot.locations batch.locations).1
        simulations := batch.simulations.foldl put snapshot.simulations }
      (s.persistBatchRows (batch.withLocations snapshot.locations)) := by
  have hdevs := restoreDevices_foldl_persistDevice batch.devices s
  have hcolumns := columns_foldl_persistDevice batch.devices h.columns
  unfold ProjectionStore.persistBatchRows
  rw [foldl_persistDevice] at hdevs hcolumns ⊢
  refine ⟨(h.devices.foldl_put _).trans hdevs.symm, h.replicants.foldl_put _, ?_, h.inventories,
    h.simulations.foldl_put _, hcolumns⟩
  rw [mergeLocations_fst]
  exact h.locations.foldl_put _

lemma Matches.persistDeletion (h : Matches snapshot s) (hok : s.persistDeletion deletion = .ok t) :
    Matches { snapshot with devices := removeDeleted snapshot.devices deletion } t := by
  unfold ProjectionStore.persistDeletion at hok
  unfold removeDeleted
  by_cases hkind : deletion.kind = "device"
  · rw [if_pos hkind] at hok ⊢
    cases hok
    refine ⟨?_, h.replicants, h.locations, h.inventories, h.simulations, ?_⟩
    · refine (h.devices.delete fun _ _ => rfl).trans (Table.Same.symm ?_)
      exact map_delete fun _ _ => rfl
    · exact fun row hrow => h.columns row (mem_delete.mp hrow).1
  · rw [if_neg hkind] at hok ⊢
    split at hok
    · cases hok
      exact h
    · cases hok

lemma ProjectionStore.persistDeletions_cons
    (hok : persistDeletions (deletion :: deletions) s = .ok t) :
    ∃ u, s.persistDeletion deletion = .ok u ∧ persistDeletions deletions u = .ok t := by
  unfold persistDeletions at hok
  cases hfirst : s.persistDeletion deletion with
  | error =>
    rw [hfirst] at hok
    cases hok
  | ok u =>
    rw [hfirst] at hok
    exact ⟨u, rfl, hok⟩

lemma Matches.persistDeletions (h : Matches snapshot s)
    (hok : persistDeletions deletions s = .ok t) :
    Matches { snapshot with devices := deletions.foldl removeDeleted snapshot.devices } t := by
  induction deletions generalizing snapshot s with
  | nil =>
    cases hok
    exact h
  | cons deletion deletions ih =>
    obtain ⟨u, hfirst, hrest⟩ := persistDeletions_cons hok
    exact ih (h.persistDeletion hfirst) hrest

/-- An event batch is either seen already or written as a whole. -/
lemma ProjectionStore.applyEventProjection_eq_ok
    {inserted : Bool} (hok : s.applyEventProjection cursor batch = .ok (t, inserted)) :
    (inserted = false ∧ t = s) ∨ (inserted = true ∧ ∃ u eventCursor,
        persistDeletions batch.deletions (s.persistBatchRows batch) = .ok u ∧
        t = { u with eventCursor := eventCursor }) := by
  unfold applyEventProjection at hok
  cases hseen : hasEvent s.eventCursor cursor with
  | error =>
    rw [hseen] at hok
    cases hok
  | ok seen =>
    rw [hseen] at hok
    cases seen with
    | true =>
      cases hok
      exact .inl ⟨rfl, rfl⟩
    | false =>
      cases hwrit : persistDeletions batch.deletions (s.persistBatchRows batch) with
      | error =>
        simp only [hwrit] at hok
        cases hok
      | ok u =>
        simp only [hwrit] at hok
        cases hcursor : advanceEventCursor u.eventCursor cursor with
        | error =>
          have hok : (advanceEventCursor u.eventCursor cursor >>= _) = _ := hok
          rw [hcursor] at hok
          cases hok
        | ok eventCursor =>
          have hok : (advanceEventCursor u.eventCursor cursor >>= _) = _ := hok
          rw [hcursor] at hok
          cases hok
          exact .inr ⟨rfl, u, eventCursor, rfl, rfl⟩

lemma command_applyEventProjection
    (hok : (EngineOp.applyEventProjection cursor batch).command snapshot s = .ok (t, reply)) :
    (reply = .inserted false ∧ t = s) ∨ (reply = .inserted true ∧ ∃ u eventCursor,
        persistDeletions batch.deletions
          (s.persistBatchRows (batch.withLocations snapshot.locations)) = .ok u ∧
        t = { u with eventCursor := eventCursor }) := by
  cases hcommit : s.applyEventProjection cursor (batch.withLocations snapshot.locations) with
  | error =>
    simp only [EngineOp.command, hcommit] at hok
    cases hok
  | ok committed =>
    obtain ⟨u, inserted⟩ := committed
    simp only [EngineOp.command, hcommit] at hok
    cases hok
    rcases applyEventProjection_eq_ok hcommit with ⟨rfl, rfl⟩ | ⟨rfl, hwrit⟩
    · exact .inl ⟨rfl, rfl⟩
    · exact .inr ⟨rfl, hwrit⟩

/-! ## Removed devices -/

/-- Devices are removed from the map and the table alike. -/
lemma Matches.delete (h : Matches snapshot s) {p : DeviceRow → Bool} {q : Observation Device → Bool}
    (hpq : ∀ row ∈ s.devices, p row = q (restoreDevice row)) :
    Matches { snapshot with devices := snapshot.devices.delete q }
      { s with devices := s.devices.delete p } := by
  refine ⟨?_, h.replicants, h.locations, h.inventories, h.simulations, ?_⟩
  · exact (h.devices.delete fun _ _ => rfl).trans (map_delete hpq).symm
  · exact fun row hrow => h.columns row (mem_delete.mp hrow).1

lemma matches_purgeRealmDevices (h : Matches snapshot s) (realm : Realm) :
    Matches (((EngineOp.purgeRealmDevices realm).publication snapshot
        (.removed (s.purgeRealmDevices realm).2)).over snapshot) (s.purgeRealmDevices realm).1 := by
  have hdelete : Matches { snapshot with
        devices := snapshot.devices.delete fun o => o.value.key ∈ (s.purgeRealmDevices realm).2 }
      (s.purgeRealmDevices realm).1 := by
    refine h.delete fun row hrow => ?_
    have hiff : row.key.realm = realm ↔ row.key ∈ (s.purgeRealmDevices realm).2 := by
      simp only [purgeRealmDevices, List.mem_map, List.mem_filter, decide_eq_true_eq]
      constructor
      · exact fun hrealm => ⟨row, ⟨hrow, hrealm⟩, rfl⟩
      · rintro ⟨other, ⟨-, hrealm⟩, hkey⟩
        rw [← hkey]
        exact hrealm
    exact decide_eq_decide.mpr hiff
  simp only [EngineOp.publication]
  by_cases hempty : (s.purgeRealmDevices realm).2.isEmpty = true
  · -- no row is of the realm, and the map stays as it is
    rw [if_pos hempty]
    rw [List.isEmpty_iff] at hempty
    refine { hdelete with devices := ?_ }
    refine Table.Same.trans (fun o => ?_) hdelete.devices
    rw [Table.mem_delete, hempty]
    simp [Publication.over]
  · rw [if_neg hempty]
    exact { hdelete with }

/-- A map that is kept when the new one is the same. -/
lemma Matches.publishDevices {devices : Devices}
    (h : Matches { snapshot with devices := devices } s) :
    Matches (Publication.over snapshot (if devices.Same snapshot.devices then .none
      else .publish (EngineOp.withDevices snapshot devices))) s := by
  by_cases hsame : devices.Same snapshot.devices
  · rw [if_pos hsame]
    exact { h with devices := hsame.symm.trans h.devices }
  · rw [if_neg hsame]
    exact { h with }

lemma command_reconcileOwnedDevices
    (hok : (EngineOp.reconcileOwnedDevices present).command snapshot s = .ok (t, reply)) :
    t = { s with devices := s.devices.delete fun row => isEligible row && row.key ∉ present } := by
  simp only [EngineOp.command, reconcileOwnedDevices] at hok
  split at hok
  · cases hok
  · split at hok
    · cases hok
    · cases hok
      rfl

lemma matches_reconcileOwnedDevices (h : Matches snapshot s)
    (hok : (EngineOp.reconcileOwnedDevices present).command snapshot s = .ok (t, reply)) :
    Matches (((EngineOp.reconcileOwnedDevices present).publication snapshot reply).over snapshot) t := by
  rw [command_reconcileOwnedDevices hok]
  refine Matches.publishDevices (h.delete fun row hrow => ?_)
  unfold isEligible
  rw [h.columns row hrow, Bool.eq_iff_iff]
  simp only [Bool.and_eq_true, Bool.not_eq_true', Bool.or_eq_false_iff, decide_eq_true_eq,
    decide_eq_false_iff_not, ne_eq, not_not]
  tauto

/-! ## One operation -/

/-- The list that is split into changes and touches. -/
def EngineOp.deviceList : EngineOp → List (Observation Device)
  | .persistDevices devices => devices
  | _ => []

variable {op : EngineOp}

/-- The keys of a device list are not repeated. -/
def EngineOp.DistinctKeys (op : EngineOp) : Prop := (op.deviceList.map deviceKey).Nodup

instance EngineOp.decidableDistinctKeys (op : EngineOp) : Decidable op.DistinctKeys :=
  inferInstanceAs (Decidable (List.Nodup _))

lemma matches_persistDevices (h : Matches snapshot s) (hkeys : (devices.map deviceKey).Nodup)
    (hok : (EngineOp.persistDevices devices).command snapshot s = .ok (t, reply)) :
    Matches (((EngineOp.persistDevices devices).publication snapshot reply).over snapshot) t := by
  have hinit : DevicePlan.Fits snapshot.devices s ⟨snapshot.devices, [], []⟩ [] :=
    ⟨h.devices, fun _ _ => rfl, by simp, h.columns⟩
  obtain ⟨done, hfits⟩ : ∃ done, (devicePlan _ devices).Fits _ s done := hinit.foldl hkeys (by simp)
  cases hok
  have hstore := persistDevicesAndTouch_eq
    (devicePlan snapshot.devices devices).changed (devicePlan snapshot.devices devices).touches s
  have hnext : Matches { snapshot with devices := (devicePlan snapshot.devices devices).next }
      (s.persistDevicesAndTouch (devicePlan snapshot.devices devices).changed
        (devicePlan snapshot.devices devices).touches) := by
    have hsame := hfits.same
    have hcolumns := hfits.columns
    rw [hstore] at hsame hcolumns ⊢
    exact { h with devices := hsame, columns := hcolumns }
  simp only [EngineOp.publication]
  by_cases hnone : (devicePlan snapshot.devices devices).changed.isEmpty ∧
      (devicePlan snapshot.devices devices).touches.isEmpty
  · rw [if_pos hnone]
    rw [List.isEmpty_iff, List.isEmpty_iff] at hnone
    rw [hnone.1, hnone.2]
    exact h
  · rw [if_neg hnone]
    split
    · exact hnext
    · exact { hnext with }

/-- From a snapshot that matches, an operation that commits publishes one that matches. -/
lemma matches_publication (h : Matches snapshot s) (hkeys : op.DistinctKeys)
    (hok : op.command snapshot s = .ok (t, reply)) :
    Matches ((op.publication snapshot reply).over snapshot) t := by
  cases op with
  | persistDevices => exact matches_persistDevices h hkeys hok
  | persistLocation =>
    cases hok
    exact { h with locations := h.locations.put _ }
  | persistReplicant =>
    cases hok
    exact { h with replicants := h.replicants.put _ }
  | persistInventory =>
    cases hok
    exact { h with inventories := h.inventories.put _ }
  | persistAccount =>
    cases hok
    exact { h with }
  | persistSimulation =>
    cases hok
    exact { h with simulations := h.simulations.put _ }
  | persistSimulationAndDevices simulation devices =>
    cases hok
    have hrestd := restoreDevices_foldl_persistDevice devices (s.persistSimulation simulation)
    have hcolumns := columns_foldl_persistDevice devices h.columns
    rw [foldl_persistDevice] at hrestd hcolumns ⊢
    exact ⟨(h.devices.foldl_put devices).trans hrestd.symm, h.replicants, h.locations,
      h.inventories, h.simulations.put simulation, hcolumns⟩
  | purgeRealmDevices realm =>
    cases hok
    exact matches_purgeRealmDevices h realm
  | applyEventProjection cursor batch =>
    rcases command_applyEventProjection hok with ⟨rfl, rfl⟩ | ⟨rfl, u, c, hrows, rfl⟩
    · exact h
    · have hnext := (h.persistBatchRows batch).persistDeletions hrows
      exact { hnext with }
  | reconcileOwnedDevices => exact matches_reconcileOwnedDevices h hok
  | reloadDevicesAfterRefresh =>
    cases hok
    exact Matches.publishDevices { h with devices := Table.Same.refl _ }

/-! ## The other tables -/

lemma ProjectionStore.persistDeletion_eq
    (hok : s.persistDeletion deletion = .ok t) : t = { s with devices := t.devices } := by
  unfold persistDeletion at hok
  split at hok
  · cases hok
    rfl
  · split at hok
    · cases hok
      rfl
    · cases hok

lemma ProjectionStore.persistDeletions_eq (hok : persistDeletions deletions s = .ok t) :
    t = { s with devices := t.devices } := by
  induction deletions generalizing s with
  | nil =>
    cases hok
    rfl
  | cons deletion deletions ih =>
    obtain ⟨u, hfirst, hok⟩ := persistDeletions_cons hok
    have hrest := ih hok
    rw [persistDeletion_eq hfirst] at hrest
    exact hrest

namespace EngineOp

def accountsAfter (accounts : Table (Observation Account) accountId) :
    Table (Observation Account) accountId :=
  match op with
  | .persistAccount account => accounts.put account
  | _ => accounts

def starsAfter (reply : Reply) (stars : Catalogue) : Catalogue :=
  match op, reply with
  | .applyEventProjection _ batch, .inserted true => batch.stars.foldl Table.put stars
  | _, _ => stars

def messagesAfter (reply : Reply) (messages : Table MessageRow MessageRow.messageId) :
    Table MessageRow MessageRow.messageId :=
  match op, reply with
  | .applyEventProjection _ batch, .inserted true =>
    batch.messages.foldl (fun t m => t.put ⟨batchMessageKey m, m⟩) messages
  | _, _ => messages

end EngineOp

/-- What a command does to the tables outside the snapshot. -/
structure CommandRest (op : EngineOp) (reply : Reply) (s t : ProjectionStore) : Prop where
  accounts : t.accounts = op.accountsAfter s.accounts
  stars : t.stars = op.starsAfter reply s.stars
  catalogueMetadata : t.catalogueMetadata = s.catalogueMetadata
  messages : t.messages = op.messagesAfter reply s.messages

lemma commandRest_applyEventProjection
    (hok : (EngineOp.applyEventProjection cursor batch).command snapshot s = .ok (t, reply)) :
    CommandRest (.applyEventProjection cursor batch) reply s t := by
  rcases command_applyEventProjection hok with ⟨rfl, rfl⟩ | ⟨rfl, u, c, hrows, rfl⟩
  · exact ⟨rfl, rfl, rfl, rfl⟩
  · rw [persistDeletions_eq hrows]
    unfold ProjectionStore.persistBatchRows
    rw [foldl_persistDevice]
    exact ⟨rfl, rfl, rfl, rfl⟩

lemma commandRest (hok : op.command snapshot s = .ok (t, reply)) : CommandRest op reply s t := by
  cases op with
  | applyEventProjection => exact commandRest_applyEventProjection hok
  | persistDevices =>
    cases hok
    rw [persistDevicesAndTouch_eq]
    exact ⟨rfl, rfl, rfl, rfl⟩
  | persistSimulationAndDevices =>
    cases hok
    rw [foldl_persistDevice]
    exact ⟨rfl, rfl, rfl, rfl⟩
  | reconcileOwnedDevices =>
    rw [command_reconcileOwnedDevices hok]
    exact ⟨rfl, rfl, rfl, rfl⟩
  | _ =>
    cases hok
    exact ⟨rfl, rfl, rfl, rfl⟩

/-- A value observed in full, of the account's own. -/
def sampleObservation {α : Type} (value : α) (observedAt : ℤ) : Observation α :=
  ⟨value, ⟨.restDetail, .entitySnapshot, observedAt, .owned, .reachable, false, ⟨"GET", none, none⟩⟩⟩

end Replicant.Managed
