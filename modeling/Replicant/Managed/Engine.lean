import Replicant.Managed.Projection

/-!
# The state engine

`StateEngine` keeps published maps in memory beside the store. An operation reads the current
snapshot, sends a command to the store worker, and publishes a snapshot made from the one it read.
Some operations read first because their command depends on the snapshot, the others after the reply.
-/

namespace Replicant.Managed

open Lib Observation

structure StateSnapshot where
  revision : ℕ
  galaxyRevision : ℕ
  galaxyProjectionRevision : ℕ
  devices : Devices
  account : Option (Observation Account)
  replicants : Replicants
  locations : Locations
  inventories : Inventories
  simulations : Simulations

/-- The snapshot that `from_store` publishes first. -/
def ProjectionStore.restoreSnapshot (s : ProjectionStore) : StateSnapshot :=
  ⟨0, 0, 0, s.restoreDevices, s.restoreAccount, s.replicants, s.locations, s.inventories,
    s.simulations⟩

/-- The operations on the published snapshot. -/
inductive EngineOp where
  | persistDevices (devices : List (Observation Device))
  | persistLocation (location : Observation Location)
  | persistReplicant (replicant : Observation Replicant)
  | persistInventory (inventory : Observation Inventory)
  | persistAccount (account : Observation Account)
  | persistSimulation (simulation : Observation Simulation)
  | persistSimulationAndDevices (simulation : Observation Simulation)
      (devices : List (Observation Device))
  | purgeRealmDevices (realm : Realm)
  | applyEventProjection (cursor : String) (batch : EventProjectionBatch)
  | reconcileOwnedDevices (present : List EntityKey)
  | reloadDevicesAfterRefresh

/-- What the store worker replies. -/
inductive Reply where
  | done
  | inserted (inserted : Bool)
  | removed (keys : List EntityKey)
  | devices (devices : Devices)

/-- How an operation ends: it leaves the snapshot, replaces it without a notice, or publishes. -/
inductive Publication where
  | none
  | silent (snapshot : StateSnapshot)
  | publish (snapshot : StateSnapshot)

/-! ## Device lists -/

/-- The loop of `persist_devices`: the next map, the changed observations and the touches. -/
structure DevicePlan where
  next : Devices
  changed : List (Observation Device)
  touches : List (EntityKey × ℤ)

/-- The incoming observation, merged with the one of the map. -/
def mergeInto (devices : Devices) (incoming : Observation Device) : Observation Device :=
  match devices.find? incoming.value.key with
  | some existing => mergeDevice existing incoming
  | none => incoming

/-- A merged observation is a touch when the old map has the same projection of it. -/
def DevicePlan.record (previous : Devices) (plan : DevicePlan) (merged : Observation Device) :
    DevicePlan :=
  match (previous.find? merged.value.key).filter (sameProjectedObservation · merged) with
  | some existing =>
    let merged := { merged with
      metadata := { merged.metadata with sourceDocument := existing.metadata.sourceDocument } }
    { plan with
      next := plan.next.put merged
      touches := plan.touches ++ [(merged.value.key, merged.metadata.observedAt)] }
  | none => { plan with next := plan.next.put merged, changed := plan.changed ++ [merged] }

def DevicePlan.add (previous : Devices) (plan : DevicePlan) (incoming : Observation Device) :
    DevicePlan :=
  plan.record previous (mergeInto plan.next incoming)

def devicePlan (previous : Devices) (devices : List (Observation Device)) : DevicePlan :=
  devices.foldl (DevicePlan.add previous) ⟨previous, [], []⟩

/-! ## Event batches -/

/-- A location takes over what it does not report from the one at hand. -/
def mergeLocation (locations : Locations) (location : Observation Location) : Observation Location :=
  match locations.find? location.value.key with
  | some existing => { location with value := existing.value.mergeFrom location.value }
  | none => location

/-- The loop over `batch.locations`: the next map, and the batch as it is sent to the store. -/
def mergeLocations (locations : Locations) :
    List (Observation Location) → Locations × List (Observation Location)
  | [] => (locations, [])
  | location :: rest =>
    let merged := mergeLocation locations location
    let (next, sent) := mergeLocations (locations.put merged) rest
    (next, merged :: sent)

def EventProjectionBatch.withLocations (batch : EventProjectionBatch) (previous : Locations) :
    EventProjectionBatch :=
  { batch with locations := (mergeLocations previous batch.locations).2 }

def removeDeleted (devices : Devices) (deletion : ProjectionTombstone) : Devices :=
  if deletion.kind = "device" then
    devices.delete fun o => o.value.key = ⟨deletion.realm, deletion.itemId⟩
  else devices

/-- The maps after an event batch. -/
def StateSnapshot.project (previous : StateSnapshot) (batch : EventProjectionBatch) :
    StateSnapshot :=
  let galaxyChanged := !batch.devices.isEmpty || !batch.locations.isEmpty || !batch.stars.isEmpty ||
    batch.deletions.any fun deletion => deletion.kind = "device"
  { previous with
    revision := previous.revision + 1
    galaxyRevision := previous.galaxyRevision + galaxyChanged.toNat
    galaxyProjectionRevision := previous.galaxyProjectionRevision + (!batch.stars.isEmpty).toNat
    devices := batch.deletions.foldl removeDeleted (batch.devices.foldl Table.put previous.devices)
    replicants := batch.replicants.foldl Table.put previous.replicants
    locations := (mergeLocations previous.locations batch.locations).1
    simulations := batch.simulations.foldl Table.put previous.simulations }

/-! ## The parts of an operation -/

namespace EngineOp

/-- The operation reads the snapshot before it sends its command. -/
def readsFirst : EngineOp → Bool
  | .persistDevices _ | .persistLocation _ | .applyEventProjection _ _ => true
  | _ => false

/-- The command of the operation, sent with what it took from the snapshot. -/
def command (op : EngineOp) (previous : StateSnapshot) (s : ProjectionStore) :
    Except StoreError (ProjectionStore × Reply) :=
  match op with
  | .persistDevices devices =>
    let plan := devicePlan previous.devices devices
    .ok (s.persistDevicesAndTouch plan.changed plan.touches, .done)
  | .persistLocation location =>
    .ok (s.persistLocation (mergeLocation previous.locations location), .done)
  | .persistReplicant replicant => .ok (s.persistReplicant replicant, .done)
  | .persistInventory inventory => .ok (s.persistInventory inventory, .done)
  | .persistAccount account => .ok (s.persistAccount account, .done)
  | .persistSimulation simulation => .ok (s.persistSimulation simulation, .done)
  | .persistSimulationAndDevices simulation devices =>
    .ok (devices.foldl ProjectionStore.persistDevice (s.persistSimulation simulation), .done)
  | .purgeRealmDevices realm =>
    let (s, removed) := s.purgeRealmDevices realm
    .ok (s, .removed removed)
  | .applyEventProjection cursor batch => do
    let (s, inserted) ← s.applyEventProjection cursor (batch.withLocations previous.locations)
    return (s, .inserted inserted)
  | .reconcileOwnedDevices present => do
    let s ← s.reconcileOwnedDevices present
    return (s, .done)
  | .reloadDevicesAfterRefresh => .ok (s, .devices s.restoreDevices)

/-- The snapshot with other devices; the galaxy changes with them. -/
def withDevices (previous : StateSnapshot) (devices : Devices) : StateSnapshot :=
  { previous with
    revision := previous.revision + 1
    galaxyRevision := previous.galaxyRevision + 1
    devices := devices }

/-- What the operation publishes, from the snapshot it read and the reply. -/
def publication (op : EngineOp) (previous : StateSnapshot) (reply : Reply) : Publication :=
  match op, reply with
  | .persistDevices devices, _ =>
    let plan := devicePlan previous.devices devices
    if plan.changed.isEmpty ∧ plan.touches.isEmpty then .none
    else if plan.changed.isEmpty then .silent { previous with devices := plan.next }
    else .publish (withDevices previous plan.next)
  | .persistLocation location, _ =>
    .publish { previous with
      revision := previous.revision + 1
      locations := previous.locations.put (mergeLocation previous.locations location) }
  | .persistReplicant replicant, _ =>
    let galaxyChanged := (previous.replicants.find? replicant.value.key).all fun current =>
      !sameProjectedObservation current replicant
    .publish { previous with
      revision := previous.revision + 1
      galaxyRevision := previous.galaxyRevision + galaxyChanged.toNat
      replicants := previous.replicants.put replicant }
  | .persistInventory inventory, _ =>
    .publish { previous with
      revision := previous.revision + 1
      inventories := previous.inventories.put inventory }
  | .persistAccount account, _ =>
    .publish { previous with revision := previous.revision + 1, account := some account }
  | .persistSimulation simulation, _ =>
    .publish { previous with
      revision := previous.revision + 1
      simulations := previous.simulations.put simulation }
  | .persistSimulationAndDevices simulation devices, _ =>
    .publish { previous with
      revision := previous.revision + 1
      galaxyRevision := previous.galaxyRevision + (!devices.isEmpty).toNat
      devices := devices.foldl Table.put previous.devices
      simulations := previous.simulations.put simulation }
  | .purgeRealmDevices _, .removed keys =>
    if keys.isEmpty then .none
    else .publish (withDevices previous (previous.devices.delete fun o => o.value.key ∈ keys))
  | .applyEventProjection _ batch, .inserted true => .publish (previous.project batch)
  | .reconcileOwnedDevices present, _ =>
    let devices := previous.devices.delete fun o =>
      !(o.value.key ∈ present || o.metadata.reachability ≠ .reachable || o.metadata.access ≠ .owned)
    if devices.Same previous.devices then .none else .publish (withDevices previous devices)
  | .reloadDevicesAfterRefresh, .devices devices =>
    if devices.Same previous.devices then .none else .publish (withDevices previous devices)
  | _, _ => .none

end EngineOp

/-- The snapshot after the end of an operation. -/
def Publication.over (current : StateSnapshot) : Publication → StateSnapshot
  | .none => current
  | .silent snapshot => snapshot
  | .publish snapshot => snapshot

end Replicant.Managed
