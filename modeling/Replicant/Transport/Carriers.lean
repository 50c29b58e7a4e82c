import Replicant.Transport.Travel

/-!
# Delivery of devices

`deliver_payload_devices` groups the payloads by where they are, finishes what an interrupted delivery
left attached, and lets every carrier run its own loop of trips over the payloads of one origin.
Modular payloads are left out: compacting and unfurling change neither where a device is nor what it
is attached to.
-/

namespace Replicant.Transport

open Lib Lib.Text Std

/-! ## Where a payload or a carrier is -/

def payloadResumeState (currentLocation : Option String) (freeAndStationary : Bool)
    (plannedOrigin destination : String) : String × Bool :=
  if freeAndStationary then
    match currentLocation with
    | none => (plannedOrigin, false)
    | some location =>
      if sameLocation location destination then (plannedOrigin, true)
      else if sameSystem location destination then (location, false)
      else (plannedOrigin, false)
  else (plannedOrigin, false)

inductive AttachedDeliveryState where
  | atOrigin
  | atDestination
  | travelingToOrigin
  | travelingToDestination
deriving DecidableEq

def attachedDeliveryState (location travelDestination : Option String)
    (origin destination : String) : Option AttachedDeliveryState :=
  match travelDestination with
  | some travelDestination =>
    if sameLocation travelDestination origin then some .travelingToOrigin
    else if sameLocation travelDestination destination then some .travelingToDestination
    else none
  | none =>
    if location.any (sameLocation · origin) then some .atOrigin
    else if location.any (sameLocation · destination) then some .atDestination
    else none

variable (w : World) (options : DeliveryOptions) (carrier : String) (codes : List String)

def ensureOnlyDeliveryAttachments (attached payloadCodes : List String) : Program Unit :=
  let unexpected := attached.filter (· ∉ payloadCodes)
  if unexpected = [] then pure ()
  else .fail (.invalid ("carrier " ++ carrier ++ " contains non-delivery attachments: " ++
    ", ".intercalate unexpected))

/-! ## Attaching and detaching -/

namespace World

/-- The server attaches the devices to the carrier. -/
def attach (w : World) : World :=
  { w with
    devices := fun code =>
      if code = carrier then
        { w.devices carrier with attachedDevices := (w.devices carrier).attachedDevices ++ codes }
      else if code ∈ codes then { w.devices code with attachedTo := some carrier }
      else w.devices code }

/-- The server leaves the devices that are attached to the carrier where the carrier is. -/
def detach (w : World) : World :=
  { w with
    devices := fun code =>
      if code = carrier then
        { w.devices carrier with
          attachedDevices := (w.devices carrier).attachedDevices.filter (· ∉ codes) }
      else if code ∈ codes ∧ (w.devices code).attachedTo = some carrier then
        { w.devices code with
          attachedTo := none, travel := none, location := (w.devices carrier).location }
      else w.devices code }

def submitAttach (w : World) : World :=
  { w with commands := ⟨true, carrier, codes, w.devices carrier⟩ :: w.commands }.submit
    (managedOperationId options "attach" carrier "" (canonicalPayloadKey codes))
    (attach carrier codes)

/-- A payload that no loop has reserved is delivered with its detachment. -/
def submitDetach (w : World) : World :=
  { w with
    commands := ⟨false, carrier, codes, w.devices carrier⟩ :: w.commands
    custody := fun code =>
      if code ∈ codes ∧ w.custody code = Custody.waiting then .delivered else w.custody code }.submit
    (managedOperationId options "detach" carrier "" (canonicalPayloadKey codes))
    (detach carrier codes)

def deploy (code : String) : World :=
  w.setDevice code { w.devices code with stowedIn := none }

end World

/-- Poll a device until the predicate holds. -/
def waitForDevice (code : String) (predicate : Device → Bool) : ℕ → Program Unit
  | 0 => .fail (.timedOut ("timed out waiting for device " ++ code ++ " state"))
  | polls + 1 => do
    let snapshot ← getDevice code
    if predicate snapshot then pure () else waitForDevice code predicate polls

def ensureAttachableDevice (code : String) : Program Unit := do
  let detail ← getDevice code
  match detail.attachedTo with
  | some carrier =>
    .fail (.invalid ("payload device " ++ code ++ " is already attached to " ++ carrier))
  | none =>
    if detail.stowedIn.isSome then do
      Task.put fun w => w.deploy (canonicalDeviceCode code)
      waitForDevice code (·.stowedIn.isNone) options.polls
    else pure ()

def attachDevices (devices : List String) : Program Unit :=
  if devices = [] then pure ()
  else do
    let carrier := canonicalDeviceCode carrier
    let devices := canonicalPayloadCodes devices
    Task.put (World.submitAttach options carrier devices)
    Task.forEach devices fun code =>
      waitForDevice code (·.attachedTo = some carrier) options.polls

def detachDevices (devices : List String) : Program Unit :=
  if devices = [] then pure ()
  else do
    let carrier := canonicalDeviceCode carrier
    let devices := canonicalPayloadCodes devices
    Task.put (World.submitDetach options carrier devices)
    Task.forEach devices fun code => waitForDevice code (·.attachedTo.isNone) options.polls

/-! ## Finishing an interrupted delivery -/

/-- The first part of `continue_attached_delivery`: a carrier that travels comes to rest. -/
def settleAttached (origin destination : String) (detail : Device) : Program Unit :=
  match detail.travel with
  | none => pure ()
  | some travel =>
    match travel.planned with
    | none =>
      .fail (.invalid ("carrier " ++ carrier ++
        " is travelling with attached payloads but has no destination"))
    | some planned =>
      if attachedDeliveryState detail.location (some planned) origin destination = none ∧
          ¬ sameSystem planned origin ∧ ¬ sameSystem planned destination then
        .fail (.invalid ("carrier " ++ carrier ++ " is already travelling to " ++ planned ++
          ", outside this delivery"))
      else
        settleTransportBetween options carrier origin destination
          (canonicalPayloadKey detail.attachedDevices)

/-- The second part: from the origin, the destination or their systems it goes to the destination. -/
def bringAttached (origin destination leg : String) : Program Unit := do
  let current ← getDevice carrier
  match attachedDeliveryState current.location none origin destination with
  | some .atDestination => pure ()
  | some .atOrigin => ensureDeviceAt options carrier destination leg
  | _ =>
    if current.location.any fun location =>
        sameSystem location origin || sameSystem location destination then
      ensureDeviceAt options carrier destination leg
    else
      .fail (.invalid ("carrier " ++ carrier ++
        " with attached payloads is not at the delivery origin or destination"))

/-- The last part: the payloads are detached at the exact destination. -/
def detachAttached (destination : String) (payloadCodes : List String) : Program (List String) := do
  let finalDetail ← getDevice carrier
  if finalDetail.standsAt destination then do
    let attached := finalDetail.attachedDevices
    ensureOnlyDeliveryAttachments carrier attached payloadCodes
    if attached = [] then pure []
    else do
      detachDevices options carrier attached
      pure attached
  else
    .fail (.invalid ("carrier " ++ carrier ++ " did not reach exact delivery destination " ++
      destination))

def continueAttachedDelivery (origin destination : String)
    (payloadCodes : List String) : Program (List String) := do
  let detail ← getDevice carrier
  ensureOnlyDeliveryAttachments carrier detail.attachedDevices payloadCodes
  if detail.attachedDevices = [] then pure []
  else do
    settleAttached options carrier origin destination detail
    bringAttached options carrier origin destination (canonicalPayloadKey detail.attachedDevices)
    detachAttached options carrier destination payloadCodes

/-! ## Trips -/

namespace World

/-- `drain(..take)` under the lock. -/
def reserve (take : ℕ) : World :=
  { w with
    remaining := w.remaining.drop take
    custody := fun code =>
      if code ∈ (w.remaining.take take).map fun payload => canonicalDeviceCode payload.code then
        .held carrier
      else w.custody code }

/-- The payloads that were found attached are taken from the list and added to the delivered ones. -/
def noteContinued (continued : List String) : World :=
  { w with
    remaining := w.remaining.filter (·.code ∉ continued)
    originDelivered := w.originDelivered ++ continued }

def noteDelivered (selected : List String) : World :=
  { w with
    originDelivered := w.originDelivered ++ selected
    custody := fun code =>
      if code ∈ selected.map canonicalDeviceCode then .delivered else w.custody code }

end World

/-- What a loop works for. -/
structure PayloadJob where
  options : DeliveryOptions
  destination : String
  payloads : List PayloadDevice
  carriers : List String
deriving DecidableEq

namespace PayloadJob

variable (job : PayloadJob)

def payloadCodes : List String := job.payloads.map (·.code)

/-- A carrier with attachments takes them to the destination first. -/
def continueTrip (carrier origin : String) : Program Bool := do
  let continued ←
    continueAttachedDelivery job.options carrier origin job.destination job.payloadCodes
  Task.put fun w => w.noteContinued continued
  pure true

/-- The part of a trip from the reservation on. -/
def carry (carrier : String) (selected : List String) : Program Bool :=
  if selected = [] then pure false
  else do
    Task.forEach selected (ensureAttachableDevice job.options)
    attachDevices job.options carrier selected
    ensureDeviceAt job.options carrier job.destination (canonicalPayloadKey selected)
    detachDevices job.options carrier selected
    Task.put fun w => w.noteDelivered selected
    pure true

/-- The part of a trip that starts at the origin. -/
def loadAtOrigin (carrier origin : String) : Program Bool := do
  let detail ← getDevice carrier
  if detail.attachedDevices ≠ [] then job.continueTrip carrier origin
  else if max (detail.attachCapacity.getD 0) 0 = 0 then pure false
  else do
    let take := (detail.attachCapacity.getD 0).toNat
    let selected ← Task.locked (fun w => (w.remaining.take take).map (·.code))
      fun w => w.reserve (canonicalDeviceCode carrier) take
    job.carry carrier selected

/-- One round of `run_carrier_trips`; it returns whether there is another. -/
def runCarrierTrips (origin carrier : String) : Program Bool := do
  let pending ← Task.ask fun w => w.remaining.map (·.code)
  if pending = [] then pure false
  else do
    let leg := canonicalPayloadKey pending
    let detail ← getDevice carrier
    if detail.attachedDevices ≠ [] then job.continueTrip carrier origin
    else do
      settleTransportBetween job.options carrier origin job.destination leg
      ensureDeviceAt job.options carrier origin leg
      job.loadAtOrigin carrier origin

/-! ## All origins -/

/-- The payloads by effective origin, and those that stand at the destination already. -/
structure Listing where
  byOrigin : ExtTreeMap String (List PayloadDevice)
  alreadyDelivered : List String

def listPayload (listing : Listing) (payload : PayloadDevice) : Program Listing := do
  let detail ← getDevice payload.code
  let freeAndStationary :=
    detail.travel.isNone && detail.attachedTo.isNone && detail.stowedIn.isNone
  let (effectiveOrigin, isDelivered) :=
    payloadResumeState detail.location freeAndStationary payload.origin job.destination
  let effective :=
    if !isDelivered && !sameLocation effectiveOrigin payload.origin then
      { payload with origin := effectiveOrigin }
    else payload
  pure {
    byOrigin := listing.byOrigin.alter effective.origin fun group =>
      some (group.getD [] ++ [effective])
    alreadyDelivered :=
      if isDelivered then payload.code :: listing.alreadyDelivered else listing.alreadyDelivered }

/-- `sort` and `dedup`. -/
def sortDedup (codes : List String) : List String := codes.dedup.insertionSort (· ≤ ·)

/-- One carrier before the trips of an origin start. -/
def preflightCarrier (origin leg : String) (delivered : List String) (carrier : String) :
    Program (List String) := do
  let detail ← getDevice carrier
  if detail.attachedDevices = [] then do
    settleTransportBetween job.options carrier origin job.destination leg
    pure delivered
  else do
    let continued ←
      continueAttachedDelivery job.options carrier origin job.destination job.payloadCodes
    pure (delivered ++ continued)

/-- What is done for an origin before its trips: the delivered payloads, and those that remain unless
there are none. -/
def preflight (alreadyDelivered delivered : List String) (origin : String)
    (group : List PayloadDevice) : Program (List String × Option (List PayloadDevice)) :=
  let delivered := delivered ++ (group.map (·.code)).filter (· ∈ alreadyDelivered)
  let pending := group.filter (·.code ∉ delivered)
  if pending = [] then pure (delivered, none)
  else do
    let leg := canonicalPayloadKey (pending.map (·.code))
    let delivered ← Task.foldEach job.carriers delivered (job.preflightCarrier origin leg)
    let delivered := sortDedup delivered
    pure (delivered, some (group.filter (·.code ∉ delivered)))

end PayloadJob

/-! ## Runs -/

/-- Origins with the payloads that are there. -/
abbrev PayloadGroups := List (String × List PayloadDevice)

inductive PayloadStage where
  | listing (task : Program PayloadJob.Listing)
  | preflight (task : Program (List String × Option (List PayloadDevice))) (origin : String)
      (alreadyDelivered : List String) (todo : PayloadGroups)
  | trips (loops : List (Program Bool)) (origin : String) (alreadyDelivered delivered : List String)
      (todo : PayloadGroups)
  | returned (result : Except TransportError (List String))

structure PayloadRun where
  world : World
  stage : PayloadStage

inductive PayloadOp where
  /-- The next section of a loop or, outside of the loops, of the function. -/
  | go (index : ℕ) (failure : Option TransportError)
  | join
  | arrive (code : String)
  | setCapacity (code : String) (attachCapacity cargoCapacity : Option ℤ)
deriving DecidableEq

namespace World

def setCapacity (code : String) (attachCapacity cargoCapacity : Option ℤ) : World :=
  w.setDevice code { w.devices code with attachCapacity, cargoCapacity }

/-- The locks of an origin. -/
def openOrigin (remaining : List PayloadDevice) : World :=
  { w with remaining, originDelivered := [] }

end World

namespace PayloadJob

variable (job : PayloadJob)

/-- The head of the loop over the origins. -/
def nextOrigin (alreadyDelivered delivered : List String) : PayloadGroups → PayloadStage
  | [] => .returned (.ok (sortDedup delivered))
  | (origin, group) :: todo =>
    .preflight (job.preflight alreadyDelivered delivered origin group) origin alreadyDelivered todo

def listingStep (w : World) (task : Program Listing) (failure : Option TransportError) :
    PayloadRun :=
  match task with
  | .ret listing =>
    ⟨w, job.nextOrigin listing.alreadyDelivered [] listing.byOrigin.toList⟩
  | .fail e => ⟨w, .returned (.error e)⟩
  | task => ⟨(task.step failure w).2, .listing (task.step failure w).1⟩

def preflightStep (w : World) (task : Program (List String × Option (List PayloadDevice)))
    (origin : String) (alreadyDelivered : List String) (todo : PayloadGroups)
    (failure : Option TransportError) : PayloadRun :=
  match task with
  | .ret (delivered, none) => ⟨w, job.nextOrigin alreadyDelivered delivered todo⟩
  | .ret (delivered, some remaining) =>
    ⟨w.openOrigin remaining,
      .trips (job.carriers.map (job.runCarrierTrips origin)) origin alreadyDelivered delivered todo⟩
  | .fail e => ⟨w, .returned (.error e)⟩
  | task => ⟨(task.step failure w).2, .preflight (task.step failure w).1 origin alreadyDelivered todo⟩

variable (w : World) (loops : List (Program Bool)) (origin : String)
  (alreadyDelivered delivered : List String) (todo : PayloadGroups)

/-- Any error of a loop aborts the delivery. -/
def tripStep (index : ℕ) (failure : Option TransportError) : PayloadRun :=
  match loops[index]? with
  | none => ⟨w, .trips loops origin alreadyDelivered delivered todo⟩
  | some (.fail e) => ⟨w, .returned (.error e)⟩
  | some task =>
    let body := job.runCarrierTrips origin (job.carriers.getD index "")
    let next := Task.loopStep body failure task w
    ⟨next.2, .trips (loops.set index next.1) origin alreadyDelivered delivered todo⟩

/-- A loop has returned. -/
def finished : Program Bool → Bool
  | .ret again => !again
  | _ => false

/-- What follows `try_join_all`. -/
def joinStep : PayloadRun :=
  if loops.all finished then
    if w.remaining = [] then
      ⟨w, job.nextOrigin alreadyDelivered (sortDedup (delivered ++ w.originDelivered)) todo⟩
    else
      ⟨w, .returned (.error (.invalid ("no carrier made progress on " ++
        toString w.remaining.length ++ " remaining payload device(s) from " ++ origin)))⟩
  else ⟨w, .trips loops origin alreadyDelivered delivered todo⟩

def step (r : PayloadRun) : PayloadOp → PayloadRun
  | .go index failure =>
    match r.stage with
    | .listing task => job.listingStep r.world task failure
    | .preflight task origin alreadyDelivered todo =>
      job.preflightStep r.world task origin alreadyDelivered todo failure
    | .trips loops origin alreadyDelivered delivered todo =>
      job.tripStep r.world loops origin alreadyDelivered delivered todo index failure
    | .returned _ => r
  | .join =>
    match r.stage with
    | .trips loops origin alreadyDelivered delivered todo =>
      job.joinStep r.world loops origin alreadyDelivered delivered todo
    | _ => r
  | .arrive code => { r with world := r.world.arrive code }
  | .setCapacity code attachCapacity cargoCapacity =>
    { r with world := r.world.setCapacity code attachCapacity cargoCapacity }

def deliverPayloadDevices (w : World) : PayloadRun :=
  if job.payloads = [] then ⟨w, .returned (.ok [])⟩
  else if job.carriers = [] then
    ⟨w, .returned (.error (.notFound "device delivery has no attachment carriers"))⟩
  else ⟨w, .listing (Task.foldEach job.payloads ⟨∅, []⟩ job.listPayload)⟩

end PayloadJob

end Replicant.Transport
