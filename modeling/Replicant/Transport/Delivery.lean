import Replicant.Transport.Cargo
import Replicant.Transport.Carriers

/-!
# Whole deliveries

`execute_delivery` delivers the resources, then the devices, and then takes the transports back. The
loops of the cargo transports are those of `CargoDelivery`, each with the travel before its next
section. Collecting, depositing and the check of a return location are requests that may fail.
-/

namespace Replicant.Transport

open Lib Lib.Text Std

structure DeliveryPlan where
  origin : String
  destination : String
  resourcePickups : List ResourcePickup
  payloadDevices : List PayloadDevice
  cargoTransports : List String
  deviceCarriers : List String
  transportOrigins : ExtTreeMap String String
deriving DecidableEq

structure DeliveryReport where
  resourcesDelivered : ResourceMap
  devicesDelivered : List String
  cargoTransports : List String
  deviceCarriers : List String
deriving DecidableEq

inductive DeliveryStage where
  /-- The return locations of these transports are still to be validated. -/
  | preparing (todo : List String)
  /-- The loops over the current pickup, and the travel of each. -/
  | cargo (delivery : CargoDelivery) (legs : List (Program Unit))
  | payload (resources : ResourceMap) (stage : PayloadStage)
  | returning (task : Program Unit) (report : DeliveryReport)
  | returned (result : Except TransportError DeliveryReport)

structure DeliveryRun where
  world : World
  stage : DeliveryStage
  /-- The manifests that each cargo loop has reserved; this is read by no function. -/
  loads : List (ℕ × ResourceMap)

def isExactLocation (location : String) : Bool :=
  let location := trim location
  location ≠ "" ∧ ¬ EqIgnoreCase location "account" ∧ '-' ∈ location.toList

namespace DeliveryPlan

variable (plan : DeliveryPlan) (options : DeliveryOptions)

def returnLocationForTransport (code : String) : Option String :=
  match plan.transportOrigins[code]? with
  | some location => if isExactLocation location then some location else none
  | none =>
    let origin := trim plan.origin
    if isExactLocation origin then some origin else none

def transports : List String :=
  PayloadJob.sortDedup (plan.cargoTransports ++ plan.deviceCarriers)

def payloadJob : PayloadJob where
  options := options
  destination := plan.destination
  payloads := plan.payloadDevices
  carriers := plan.deviceCarriers

/-! ## Devices and the way back -/

def returnTransport (code : String) : Program Unit :=
  match plan.returnLocationForTransport code with
  | none => .fail (.invalid ("missing validated return location for transport " ++ code))
  | some location => ensureDeviceAt options code location "return"

/-- What follows the devices. -/
def payloadResult (resources : ResourceMap) (loads : List (ℕ × ResourceMap)) (run : PayloadRun) :
    DeliveryRun :=
  match run.stage with
  | .returned (.ok devices) =>
    let report : DeliveryReport :=
      ⟨resources, devices, plan.cargoTransports, plan.deviceCarriers⟩
    if options.returnTransports then
      ⟨run.world, .returning (Task.forEach plan.transports (plan.returnTransport options)) report,
        loads⟩
    else ⟨run.world, .returned (.ok report), loads⟩
  | .returned (.error e) => ⟨run.world, .returned (.error e), loads⟩
  | stage => ⟨run.world, .payload resources stage, loads⟩

variable (w : World) (loads : List (ℕ × ResourceMap)) (d : CargoDelivery)

def returnStep (task : Program Unit)
    (report : DeliveryReport) (failure : Option TransportError) : DeliveryRun :=
  match task with
  | .ret _ => ⟨w, .returned (.ok report), loads⟩
  | .fail e => ⟨w, .returned (.error e), loads⟩
  | task => ⟨(task.step failure w).2, .returning (task.step failure w).1 report, loads⟩

/-! ## Cargo -/

variable (legs : List (Program Unit)) (index : ℕ)

/-- What a loop does before its next section: it goes to the pickup for what remains, or to the
destination with its manifest. -/
def cargoLeg : Program Unit :=
  let code := d.transports.getD index ""
  match d.trips[index]? with
  | some .fetching => do
    let leg := formatResources d.remaining
    settleTransportBetween options code d.pickup.location plan.destination leg
    ensureDeviceAt options code d.pickup.location leg
  | some (.carrying manifest) =>
    ensureDeviceAt options code plan.destination (formatResources manifest)
  | _ => pure ()

/-- What follows a section of the cargo loops. -/
def cargoResult (legs : CargoDelivery → List (Program Unit))
    (loads : List (ℕ × ResourceMap)) : CargoRun → DeliveryRun
  | .running d => ⟨w, .cargo d (legs d), loads⟩
  | .returned _ (.ok resources) =>
    plan.payloadResult options resources loads ((plan.payloadJob options).deliverPayloadDevices w)
  | .returned _ (.error e) => ⟨w, .returned (.error e), loads⟩

/-- No loop travels at first. -/
def startLegs : List (Program Unit) := d.transports.map fun _ => pure ()

def noteLoad (before after : CargoDelivery) (loads : List (ℕ × ResourceMap)) :
    List (ℕ × ResourceMap) :=
  match before.trips[index]?, after.trips[index]? with
  | some .fetching, some (.carrying manifest) => (index, manifest) :: loads
  | _, _ => loads

/-- The capacity that the server tells of the transport. -/
def cargoCapacity : ℤ :=
  (w.devices (canonicalDeviceCode (d.transports.getD index ""))).cargoCapacity.getD 0

/-- The section of a loop whose travel has ended. -/
def cargoSection : Option TransportError → DeliveryRun
  | some e => plan.cargoResult options w (fun _ => legs) loads (d.failStep index e)
  | none =>
    match d.tripStep index (cargoCapacity w d index) with
    | .running d' =>
      ⟨w, .cargo d' (legs.set index (plan.cargoLeg options d' index)), noteLoad index d d' loads⟩
    | next => plan.cargoResult options w (fun _ => legs) loads next

def cargoStep (failure : Option TransportError) : DeliveryRun :=
  match legs[index]? with
  | none => ⟨w, .cargo d legs, loads⟩
  | some (.fail e) => ⟨w, .returned (.error e), loads⟩
  | some (.ret _) => plan.cargoSection options w loads d legs index failure
  | some task =>
    ⟨(task.step failure w).2, .cargo d (legs.set index (task.step failure w).1), loads⟩

def cargoJoin : DeliveryRun :=
  if d.trips.all (· = .finished) then plan.cargoResult options w startLegs loads d.joinStep
  else ⟨w, .cargo d legs, loads⟩

/-! ## Runs -/

def startCargo : DeliveryRun :=
  plan.cargoResult options w startLegs []
    (deliverResourcePickups plan.resourcePickups plan.cargoTransports)

/-- Only a return location that the plan has not recorded is checked with the server. -/
def prepareStep (todo : List String) (failure : Option TransportError) : DeliveryRun :=
  match todo with
  | [] => plan.startCargo options w
  | code :: todo =>
    match plan.returnLocationForTransport code with
    | none => ⟨w, .returned (.error (.invalid ("--return-carriers requires an exact recorded " ++
        "transport location (legacy plans may use an exact origin, not only a system)"))), []⟩
    | some _ =>
      match plan.transportOrigins[code]?, failure with
      | none, some e => ⟨w, .returned (.error e), []⟩
      | _, _ => ⟨w, .preparing todo, []⟩

def step (r : DeliveryRun) : PayloadOp → DeliveryRun
  | .go index failure =>
    match r.stage with
    | .preparing todo => plan.prepareStep options r.world todo failure
    | .cargo d legs => plan.cargoStep options r.world r.loads d legs index failure
    | .payload resources stage =>
      plan.payloadResult options resources r.loads
        ((plan.payloadJob options).step ⟨r.world, stage⟩ (.go index failure))
    | .returning task report => returnStep r.world r.loads task report failure
    | .returned _ => r
  | .join =>
    match r.stage with
    | .cargo d legs => plan.cargoJoin options r.world r.loads d legs
    | .payload resources stage =>
      plan.payloadResult options resources r.loads
        ((plan.payloadJob options).step ⟨r.world, stage⟩ .join)
    | _ => r
  | .arrive code => { r with world := r.world.arrive code }
  | .setCapacity code attachCapacity cargoCapacity =>
    { r with world := r.world.setCapacity code attachCapacity cargoCapacity }

def executeDelivery : DeliveryRun :=
  if options.returnTransports then ⟨w, .preparing plan.transports, []⟩
  else plan.startCargo options w

end DeliveryPlan

end Replicant.Transport
