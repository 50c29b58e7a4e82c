import Replicant.Lib.Task
import Replicant.Lib.Text
import Replicant.Transport.Manifest

/-!
# Travel

`ensure_device_at` brings a device to a place: it commands the travel once, waits for the arrival, and
goes on from another place in the same system. A command is identified by what it does, and is not
sent again when the journal has its identity. A request may fail at every section; the deadline of a
wait is a number of polls.
-/

namespace Replicant.Transport

open Lib Lib.Text

/-! ## Codes and locations -/

def canonicalDeviceCode (code : String) : String := upper (trim code)

/-- The codes in the order of a `BTreeSet`. -/
def canonicalPayloadCodes (codes : List String) : List String :=
  (codes.map canonicalDeviceCode).dedup.insertionSort (· ≤ ·)

def canonicalPayloadKey (codes : List String) : String :=
  ",".intercalate (canonicalPayloadCodes codes)

/-- The part before the first hyphen, unless it is empty. -/
def systemDesignation (location : String) : String :=
  match (split location '-').head? with
  | some system => if system = "" then location else system
  | none => location

def sameLocation (left right : String) : Bool := EqIgnoreCase (trim left) (trim right)

def sameSystem (left right : String) : Bool :=
  EqIgnoreCase (systemDesignation left) (systemDesignation right)

/-! ## Operations -/

structure DeliveryOptions where
  /-- The polls that fit into `wait_timeout`. -/
  polls : ℕ
  returnTransports : Bool
  operationNamespace : Option String
deriving DecidableEq

/-- What `Uuid::new_v5` is computed from: the namespace and the parts of the name, whose lengths are
written before them. -/
@[ext]
structure OperationId where
  space : String
  action : String
  target : String
  destination : String
  payload : String
deriving DecidableEq

def canonicalPayload (payload : String) : String :=
  if trim payload = "" then "" else canonicalPayloadKey (split payload ',')

def managedOperationId (options : DeliveryOptions) (action target destination payload : String) :
    Option OperationId :=
  options.operationNamespace.map fun space => {
    space
    action := lower (trim action)
    target := canonicalDeviceCode target
    destination := canonicalDeviceCode destination
    payload := canonicalPayload payload }

def travelOperationLeg (leg : String) (currentLocation : Option String) (destination : String) :
    String :=
  match currentLocation with
  | some location =>
    if ¬ sameLocation location destination ∧ sameSystem location destination then
      leg ++ ":local-from:" ++ canonicalDeviceCode location
    else leg
  | none => leg

/-! ## Devices -/

structure Travel where
  finalDestination : Option String
  destination : Option String
  /-- Where the server lets the travel end. -/
  arrival : String
deriving DecidableEq

def Travel.planned (travel : Travel) : Option String :=
  travel.finalDestination.or travel.destination

structure Device where
  location : Option String
  travel : Option Travel
  attachedTo : Option String
  attachedDevices : List String
  stowedIn : Option String
  attachCapacity : Option ℤ
  cargoCapacity : Option ℤ
deriving DecidableEq

/-- The device stands at the location. -/
def Device.standsAt (device : Device) (location : String) : Bool :=
  device.travel.isNone && device.location.any (sameLocation · location)

structure PayloadDevice where
  code : String
  deviceType : String
  origin : String
deriving DecidableEq

/-- Who has a payload of the current origin: nobody yet, a carrier that reserved it, or it has been
delivered. -/
inductive Custody where
  | waiting
  | held (carrier : String)
  | delivered
deriving DecidableEq

/-- An attach or detach command, with the carrier as it was when the command was issued. -/
structure AttachmentCommand where
  attaches : Bool
  carrier : String
  devices : List String
  status : Device
deriving DecidableEq

/-- The server, the journal and the lists that the trip loops share. The last three fields record what
happened and are read by no function. -/
structure World where
  devices : String → Device
  journal : List OperationId
  remaining : List PayloadDevice
  originDelivered : List String
  travels : List OperationId
  commands : List AttachmentCommand
  custody : String → Custody

variable (w : World) (options : DeliveryOptions) (code destination : String)

namespace World

/-- A new identity is recorded and the command is sent; a recorded one is not sent again. -/
def submit (id : Option OperationId) (send : World → World) : World :=
  match id with
  | none => send w
  | some id => if id ∈ w.journal then w else send { w with journal := id :: w.journal }

def setDevice (device : Device) : World :=
  { w with devices := Function.update w.devices code device }

/-- The server lets a device depart, to arrive where it is sent. -/
def depart (w : World) : World :=
  w.setDevice code
    { w.devices code with travel := some ⟨some destination, some destination, destination⟩ }

def submitTravel (operationLeg : String) : World :=
  let id := managedOperationId options "travel" code destination operationLeg
  { w with travels := id.toList ++ w.travels }.submit id (depart code destination)

/-- A travel ends. -/
def arrive : World :=
  match (w.devices code).travel with
  | some travel =>
    w.setDevice code { w.devices code with travel := none, location := some travel.arrival }
  | none => w

end World

/-! ## Bringing a device to a place -/

/-- A program of the delivery. -/
abbrev Program (α : Type) := Task World TransportError α

/-- The device with a code in any case. -/
abbrev World.deviceOf : Device := w.devices (canonicalDeviceCode code)

def getDevice : Program Device :=
  Task.ask fun w => w.devices (canonicalDeviceCode code)

def dispatchTransportTravel (currentLocation : Option String) (leg : String) : Program Unit :=
  Task.put fun w =>
    w.submitTravel options code destination (travelOperationLeg leg currentLocation destination)

/-- The place in the system of the destination where the device stands, if it is a new one. -/
def localStop (device : Device) (destination : String) (lastStationary : Option String) :
    Option String :=
  if device.travel.isNone then
    device.location.filter fun location =>
      !sameLocation location destination && sameSystem location destination &&
        !lastStationary.any (sameLocation · location)
  else none

def maxLocalContinuations : ℕ := 3

/-- The loop of `ensure_device_at`. -/
def awaitArrival (options : DeliveryOptions) (code destination leg : String) :
    ℕ → Option String → ℕ → Program Unit
  | 0, _, _ => .fail (.timedOut ("timed out waiting for device " ++ code ++ " state"))
  | polls + 1, lastStationary, continuations => do
    let snapshot ← getDevice code
    if snapshot.standsAt destination then pure ()
    else
      match localStop snapshot destination lastStationary with
      | some location =>
        if maxLocalContinuations ≤ continuations then
          .fail (.invalid ("device " ++ code ++ " repeatedly stopped in " ++
            systemDesignation destination ++ " without reaching " ++ destination))
        else do
          dispatchTransportTravel options code destination (some location) leg
          awaitArrival options code destination leg polls (some location) (continuations + 1)
      | none => awaitArrival options code destination leg polls lastStationary continuations

/-- `Option<&str>` as `{:?}` writes it. -/
def debugOption : Option String → String
  | some value => "Some(\"" ++ value ++ "\")"
  | none => "None"

def ensureDeviceAt (leg : String) : Program Unit :=
  let code := canonicalDeviceCode code
  let destination := canonicalDeviceCode destination
  do
    let snapshot ← getDevice code
    if snapshot.standsAt destination then pure ()
    else
      match snapshot.travel with
      | some travel =>
        if travel.planned.any fun planned =>
            sameLocation planned destination || sameSystem planned destination then
          awaitArrival options code destination leg options.polls none 0
        else
          .fail (.invalid ("device " ++ code ++ " is already travelling to " ++
            debugOption travel.planned ++ ", not " ++ destination))
      | none => do
        dispatchTransportTravel options code destination snapshot.location leg
        awaitArrival options code destination leg options.polls snapshot.location 0

def settleTransportBetween (origin destination leg : String) : Program Unit := do
  let detail ← getDevice code
  match detail.travel with
  | none => pure ()
  | some travel =>
    match travel.planned with
    | none => .fail (.invalid ("transport " ++ code ++ " is travelling without a destination"))
    | some planned =>
      if sameLocation planned origin || sameSystem planned origin then
        ensureDeviceAt options code origin leg
      else if sameLocation planned destination || sameSystem planned destination then
        ensureDeviceAt options code destination leg
      else
        .fail (.invalid ("transport " ++ code ++ " is already travelling to " ++ planned ++
          ", outside this delivery"))

end Replicant.Transport
