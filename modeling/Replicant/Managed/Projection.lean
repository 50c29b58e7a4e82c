import Replicant.Lib.TableMap
import Replicant.Managed.EventId
import Replicant.Managed.Observation
import Replicant.Managed.Reconciliation

/-!
# Projections in the store

The tables that managed state is restored from, and the transactions that write them. A row holds
the serialized observation; a device row also has the columns `observed_at` and `access_scope`.
The store of the model has the rows as they are read: what the texts of a commit are read as is a
parameter of the runs.
-/

namespace Replicant.Managed

open Lib

structure Replicant where
  key : EntityKey
  detail : Json
deriving DecidableEq

inductive InventoryOwner where
  | account (id : String)
  | replicant (key : EntityKey)
  | location (key : EntityKey)
deriving DecidableEq

structure Inventory where
  owner : InventoryOwner
  detail : Json
deriving DecidableEq

structure Simulation where
  id : ℤ
  detail : Json
deriving DecidableEq

structure Account where
  id : String
  detail : Json
deriving DecidableEq

structure Message where
  id : Option ℤ
  isRead : Option Bool
  createdAt : Option String
  detail : Json
deriving DecidableEq

namespace Observation

def deviceKey (o : Observation Device) : EntityKey := o.value.key
def replicantKey (o : Observation Replicant) : EntityKey := o.value.key
def locationKey (o : Observation Location) : EntityKey := o.value.key
def starKey (o : Observation Star) : EntityKey := o.value.key
def inventoryOwner (o : Observation Inventory) : InventoryOwner := o.value.owner
def simulationId (o : Observation Simulation) : ℤ := o.value.id
def accountId (o : Observation Account) : String := o.value.id

end Observation

open Observation

/-- The maps of managed state, by the key that a value carries. -/
abbrev Devices := Table (Observation Device) deviceKey
abbrev Replicants := Table (Observation Replicant) replicantKey
abbrev Locations := Table (Observation Location) locationKey
abbrev Catalogue := Table (Observation Star) starKey
abbrev Inventories := Table (Observation Inventory) inventoryOwner
abbrev Simulations := Table (Observation Simulation) simulationId

structure DeviceRow where
  observation : Observation Device
  /-- The column `observed_at`. -/
  observedAt : ℤ
  accessScope : AccessScope
deriving DecidableEq

def DeviceRow.key (row : DeviceRow) : EntityKey := row.observation.value.key

/-- `SET observed_at = MAX(observed_at, ..)`. -/
def DeviceRow.touch (observedAt : ℤ) (row : DeviceRow) : DeviceRow :=
  { row with observedAt := max row.observedAt observedAt }

lemma DeviceRow.key_touch (observedAt : ℤ) (row : DeviceRow) :
    (row.touch observedAt).key = row.key := rfl

/-- The texts of the column `message_id`. -/
inductive MessageKey where
  | id (id : ℤ)
  /-- `anonymous:` with the time of observation, or with the message. -/
  | anonymousAt (observedAt : ℤ)
  | anonymous (message : Message)
deriving DecidableEq

structure MessageRow where
  messageId : MessageKey
  message : Observation Message
deriving DecidableEq

structure ProjectionStore where
  devices : Table DeviceRow DeviceRow.key
  accounts : Table (Observation Account) accountId
  replicants : Replicants
  locations : Locations
  inventories : Inventories
  simulations : Simulations
  stars : Catalogue
  /-- The row of `catalogue_metadata`, whose `generated_at` may be NULL. -/
  catalogueMetadata : Option (Option String)
  messages : Table MessageRow MessageRow.messageId
  eventCursor : Option String

structure EventProjectionBatch where
  devices : List (Observation Device)
  replicants : List (Observation Replicant)
  locations : List (Observation Location)
  stars : List (Observation Star)
  messages : List (Observation Message)
  simulations : List (Observation Simulation)
  deletions : List ProjectionTombstone

namespace ProjectionStore

def empty : ProjectionStore :=
  ⟨Table.empty, Table.empty, Table.empty, Table.empty, Table.empty, Table.empty, Table.empty, none,
    Table.empty, none⟩

variable (s : ProjectionStore)

/-- Serializing the rows and reading the texts gives the rows. -/
def ReadsBack (readBack : ProjectionStore → ProjectionStore) : Prop := readBack s = s

/-! ## Restoring -/

/-- The later of the serialized time and the column. -/
def restoreDevice (row : DeviceRow) : Observation Device :=
  { row.observation with
    metadata := { row.observation.metadata with
      observedAt := max row.observation.metadata.observedAt row.observedAt } }

lemma deviceKey_restoreDevice (row : DeviceRow) : deviceKey (restoreDevice row) = row.key := rfl

def restoreDevices : Devices := s.devices.map restoreDevice deviceKey_restoreDevice

/-- `ORDER BY account_id LIMIT 1`. -/
def restoreAccount : Option (Observation Account) :=
  (s.accounts.rows.mergeSort fun a b => a.value.id ≤ b.value.id).head?

/-- The catalogue and its `generated_at`, which is read as a text where there is a row. -/
def restoreCatalogue : Except StoreError (Catalogue × Option String) :=
  match s.catalogueMetadata with
  | none => .ok (s.stars, none)
  | some (some generatedAt) => .ok (s.stars, some generatedAt)
  | some none => .error (.invalidColumnType "generated_at")

/-- Newest first. -/
def messageOrder (left right : Observation Message) : Bool :=
  ((compare right.value.createdAt left.value.createdAt).then
    (compare right.value.id left.value.id)) ≠ .gt

def restoreMessages : List (Observation Message) :=
  (s.messages.rows.map MessageRow.message).mergeSort messageOrder

/-! ## Writing -/

def persistDevice (device : Observation Device) : ProjectionStore :=
  { s with devices := s.devices.put ⟨device, device.metadata.observedAt, device.metadata.access⟩ }

def touchDevice (touch : EntityKey × ℤ) : ProjectionStore :=
  { s with
    devices := s.devices.update (fun row => row.key = touch.1) (DeviceRow.touch touch.2)
      (DeviceRow.key_touch touch.2) }

def persistDevicesAndTouch (changed : List (Observation Device)) (touches : List (EntityKey × ℤ)) :
    ProjectionStore :=
  touches.foldl touchDevice (changed.foldl persistDevice s)

def persistAccount (account : Observation Account) : ProjectionStore :=
  { s with accounts := s.accounts.put account }

def persistReplicant (replicant : Observation Replicant) : ProjectionStore :=
  { s with replicants := s.replicants.put replicant }

def persistLocation (location : Observation Location) : ProjectionStore :=
  { s with locations := s.locations.put location }

def persistInventory (inventory : Observation Inventory) : ProjectionStore :=
  { s with inventories := s.inventories.put inventory }

def persistSimulation (simulation : Observation Simulation) : ProjectionStore :=
  { s with simulations := s.simulations.put simulation }

def persistStars (stars : List (Observation Star)) : ProjectionStore :=
  { s with stars := stars.foldl Table.put s.stars }

def replaceCatalogue (stars : List (Observation Star)) (generatedAt : Option String) :
    ProjectionStore :=
  { s with stars := stars.foldl Table.put s.stars, catalogueMetadata := some generatedAt }

/-- The rows of owned devices that can be reached. -/
def isEligible (row : DeviceRow) : Bool :=
  row.accessScope = .owned && row.observation.metadata.reachability = .reachable

/-- `reconcile_owned_devices`: what a full traversal did not find is removed, unless too much is
missing. -/
def reconcileOwnedDevices (present : List EntityKey) : Except StoreError ProjectionStore :=
  let eligible := s.devices.rows.countP isEligible
  let missing := s.devices.rows.countP fun row => isEligible row && row.key ∉ present
  if present.isEmpty ∧ eligible > 0 then
    .error (.refresh "empty device enumeration cannot remove non-empty local state")
  else if eligible > 0 ∧ missing * 100 > eligible * 20 then
    .error (.refresh "device enumeration shrink exceeds the guarded approval threshold")
  else .ok { s with devices := s.devices.delete fun row => isEligible row && row.key ∉ present }

/-- The devices of a realm are removed; their keys are returned. -/
def purgeRealmDevices (realm : Realm) : ProjectionStore × List EntityKey :=
  ({ s with devices := s.devices.delete fun row => row.key.realm = realm },
    (s.devices.rows.filter fun row => row.key.realm = realm).map DeviceRow.key)

/-- The `message_id` of a message of an event batch. -/
def batchMessageKey (message : Observation Message) : MessageKey :=
  match message.value.id with
  | some id => .id id
  | none => .anonymousAt message.metadata.observedAt

def messageKey (message : Observation Message) : MessageKey :=
  match message.value.id with
  | some id => .id id
  | none => .anonymous message.value

def persistMessages (messages : List (Observation Message)) : ProjectionStore :=
  { s with messages := messages.foldl (fun t m => t.put ⟨messageKey m, m⟩) s.messages }

/-- A message that was read stays read. -/
def mergeMessage (existing : Option MessageRow) (message : Observation Message) :
    Observation Message :=
  match existing with
  | some row =>
    if row.message.value.isRead = some true ∧ message.value.isRead ≠ some true then
      { message with value := { message.value with isRead := some true } }
    else message
  | none => message

/-- What `commit_messages_and_metadata` does to the messages. -/
def commitMessages (messages : List (Observation Message)) : ProjectionStore :=
  { s with
    messages := messages.foldl
      (fun t m => t.put ⟨messageKey m, mergeMessage (t.find? (messageKey m)) m⟩) s.messages }

/-- One deletion of an event batch. -/
def persistDeletion (deletion : ProjectionTombstone) : Except StoreError ProjectionStore :=
  if deletion.kind = "device" then
    .ok { s with devices := s.devices.delete fun row => row.key = ⟨deletion.realm, deletion.itemId⟩ }
  else if deletion.kind ∈ ["resource_site", "location_event", "incoming_object", "trade"] then .ok s
  else .error (.unsupportedProjectionKind deletion.kind)

def persistDeletions : List ProjectionTombstone → ProjectionStore → Except StoreError ProjectionStore
  | [], s => .ok s
  | deletion :: deletions, s =>
    match s.persistDeletion deletion with
    | .ok s => persistDeletions deletions s
    | .error e => .error e

/-- What `persist_projection_batch` does to these tables, before its deletions. -/
def persistBatchRows (batch : EventProjectionBatch) : ProjectionStore :=
  let s := batch.devices.foldl persistDevice s
  { s with
    replicants := batch.replicants.foldl Table.put s.replicants
    locations := batch.locations.foldl Table.put s.locations
    stars := batch.stars.foldl Table.put s.stars
    messages := batch.messages.foldl (fun t m => t.put ⟨batchMessageKey m, m⟩) s.messages
    simulations := batch.simulations.foldl Table.put s.simulations }

/-- `apply_event_projection`: whether the event was new. -/
def applyEventProjection (cursor : String) (batch : EventProjectionBatch) :
    Except StoreError (ProjectionStore × Bool) := do
  if ← hasEvent s.eventCursor cursor then return (s, false)
  let s ← persistDeletions batch.deletions (s.persistBatchRows batch)
  let eventCursor ← advanceEventCursor s.eventCursor cursor
  return ({ s with eventCursor }, true)

end ProjectionStore

end Replicant.Managed
