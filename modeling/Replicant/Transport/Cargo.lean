import Replicant.Transport.Manifest

/-!
# Cargo trips

`deliver_resource_pickups` takes the pickups one after the other. At each of them every transport
runs its own loop, `run_cargo_trips`, and the loops share the manifest that remains. A loop is cut
where it locks the manifest: the look at its head, the reservation after the capacity was read, and
the delivery; between them are requests, which may fail.
-/

namespace Replicant.Transport

open Lib Lib.OrderedMap Std

/-- Where a transport is in its loop. -/
inductive CargoTrip where
  | head
  /-- Something remained; it goes to the pickup and reads its capacity. -/
  | fetching
  /-- It reserved a manifest; it loads, travels and unloads. -/
  | carrying (manifest : ResourceMap)
  | finished
deriving DecidableEq

structure CargoDelivery where
  transports : List String
  pickup : ResourcePickup
  /-- The pickups after this one. -/
  todo : List ResourcePickup
  remaining : ResourceMap
  pickupDelivered : ResourceMap
  trips : List CargoTrip
  delivered : ResourceMap
  /-- The manifests that were reserved at this pickup, with the capacity each is for. -/
  reserved : List (ResourceMap × ℤ)
  /-- How many manifests were reserved in the whole delivery. -/
  count : ℕ

inductive CargoRun where
  | running (delivery : CargoDelivery)
  | returned (count : ℕ) (result : Except TransportError ResourceMap)

inductive CargoOp where
  /-- The transport goes on; `capacity` is what the server answers if it is asked. -/
  | trip (index : ℕ) (capacity : ℤ)
  | fail (index : ℕ) (error : TransportError)
  /-- All loops have ended. -/
  | join

namespace CargoDelivery

variable (d : CargoDelivery)

variable (index : ℕ)

def setTrip (trip : CargoTrip) : CargoDelivery :=
  { d with trips := d.trips.set index trip }

/-- Every loop starts at its head. -/
def start (transports : List String) (pickup : ResourcePickup) (todo : List ResourcePickup)
    (delivered : ResourceMap) (count : ℕ) : CargoDelivery where
  transports := transports
  pickup := pickup
  todo := todo
  remaining := pickup.resources
  pickupDelivered := ∅
  trips := transports.map fun _ => .head
  delivered := delivered
  reserved := []
  count := count

/-- `if lock(remaining).is_empty()`. -/
def look : CargoDelivery :=
  d.setTrip index (if d.remaining.isEmpty then .finished else .fetching)

/-- The section that reserves a manifest. -/
def reserve (capacity : ℤ) : CargoDelivery :=
  let manifest := takeManifest d.remaining capacity
  let remaining := subtractResources d.remaining manifest
  if manifest.isEmpty then { d.setTrip index .finished with remaining }
  else
    { d.setTrip index (.carrying manifest) with
      remaining
      reserved := (manifest, capacity) :: d.reserved
      count := d.count + 1 }

def deliver (manifest : ResourceMap) : CargoDelivery :=
  { d.setTrip index .head with pickupDelivered := mergeResources d.pickupDelivered manifest }

def tripStep (capacity : ℤ) : CargoRun :=
  match d.trips[index]? with
  | some .head => .running (d.look index)
  | some .fetching =>
    if capacity ≤ 0 then
      .returned d.count (.error (.invalid
        ("transport " ++ d.transports.getD index "" ++ " has no usable cargo capacity")))
    else .running (d.reserve index capacity)
  | some (.carrying manifest) => .running (d.deliver index manifest)
  | some .finished | none => .running d

/-- What follows `try_join_all`. -/
def joinStep : CargoRun :=
  if d.trips.all (· = .finished) then
    if d.remaining.isEmpty then
      let delivered := mergeResources d.delivered d.pickupDelivered
      match d.todo with
      | [] => .returned d.count (.ok delivered)
      | pickup :: todo => .running (start d.transports pickup todo delivered d.count)
    else
      .returned d.count (.error (.invalid
        ("no cargo transport made progress on remaining manifest " ++ formatResources d.remaining)))
  else .running d

/-- Any error of a loop aborts the delivery. -/
def failStep (error : TransportError) : CargoRun :=
  match d.trips[index]? with
  | some .finished | none => .running d
  | some _ => .returned d.count (.error error)

end CargoDelivery

namespace CargoRun

def step : CargoRun → CargoOp → CargoRun
  | .returned count result, _ => .returned count result
  | .running d, .trip index capacity => d.tripStep index capacity
  | .running d, .fail index error => d.failStep index error
  | .running d, .join => d.joinStep

end CargoRun

def deliverResourcePickups (pickups : List ResourcePickup) (transports : List String) : CargoRun :=
  match pickups with
  | [] => .returned 0 (.ok ∅)
  | pickup :: todo =>
    if transports.isEmpty then
      .returned 0 (.error (.notFound "resource delivery has no cargo transports"))
    else .running (.start transports pickup todo ∅ 0)

/-! ## What a delivery is for -/

/-- No request fails, and every transport has room. -/
def CargoOp.succeeds : CargoOp → Bool
  | .trip _ capacity => 0 < capacity
  | .fail _ _ => false
  | .join => true

/-- Every loop goes on again and again, and so does their join. -/
def FairTrips (transports : List String) (schedule : ℕ → CargoOp) : Prop :=
  (∀ index < transports.length, ∀ n, ∃ m, n ≤ m ∧ ∃ capacity, schedule m = .trip index capacity) ∧
    ∀ n, ∃ m, n ≤ m ∧ schedule m = .join

/-- The amount of a resource in all manifests that were reserved at this pickup. -/
def CargoDelivery.reservedAmount (d : CargoDelivery) (resource : String) : ℤ :=
  (d.reserved.map fun entry => entry.1.getD resource 0).sum

/-- The manifest that remains and the reserved ones make up the pickup, and each reserved one is
positive and fits its transport. -/
structure CargoDelivery.Conserves (d : CargoDelivery) : Prop where
  amounts : ∀ resource, d.remaining.getD resource 0 + d.reservedAmount resource =
    d.pickup.resources.getD resource 0
  fits : ∀ entry ∈ d.reserved, total entry.1 ≤ entry.2 ∧ Positive entry.1

/-- The units of all pickups. -/
def pickupUnits (pickups : List ResourcePickup) : ℤ :=
  (pickups.map fun pickup => total pickup.resources).sum

/-- Of no resource is there more in all the pickups than an `i64` holds. -/
def FitI64 (pickups : List ResourcePickup) : Prop :=
  ∀ resource, (pickups.map fun pickup => pickup.resources.getD resource 0).sum < 2 ^ 63

/-- The map holds, of each resource, the sum over all pickups, and nothing else. -/
structure SumsPickups (pickups : List ResourcePickup) (result : ResourceMap) : Prop where
  amounts : ∀ resource, result.getD resource 0 =
    (pickups.map fun pickup => pickup.resources.getD resource 0).sum
  positive : Positive result

end Replicant.Transport
