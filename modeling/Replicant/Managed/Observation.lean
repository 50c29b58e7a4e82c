import Mathlib.Data.Prod.Lex
import Replicant.Managed.Journal

/-!
# Observations

Observed entities with their metadata, and how a newer observation of an entity is merged with
the one at hand. Fields that merging treats as a whole are kept as one JSON value.
-/

namespace Replicant.Managed

/-- `DeviceKey`, `ReplicantKey`, `LocationKey` and `StarKey`. -/
structure EntityKey where
  realm : Realm
  id : String
deriving DecidableEq

inductive ObservationSource where
  | restDetail | restCollection | eventLog | sse | commandResponse | reconciliation
deriving DecidableEq

inductive ObservationAuthority where
  | entitySnapshot | collectionMember | completeCollection | eventDelta | operationResult
  | publicProfile | discovery
deriving DecidableEq

inductive AccessScope where
  | owned | siblingShared | granted | «public»
deriving DecidableEq

inductive Reachability where
  | reachable | outOfRange | accessRevoked | historical
deriving DecidableEq

structure SourceDocument where
  operation : String
  requestId : Option String
  documentId : Option String
deriving DecidableEq

structure ObservationMetadata where
  source : ObservationSource
  authority : ObservationAuthority
  /-- In milliseconds. -/
  observedAt : ℤ
  access : AccessScope
  reachability : Reachability
  stale : Bool
  sourceDocument : SourceDocument
deriving DecidableEq

structure Observation (α : Type) where
  value : α
  metadata : ObservationMetadata
deriving DecidableEq

def authorityRank : ObservationAuthority → ℕ
  | .operationResult => 6
  | .entitySnapshot => 5
  | .completeCollection => 4
  | .collectionMember => 3
  | .eventDelta => 2
  | .publicProfile | .discovery => 1

def sourceRank : ObservationSource → ℕ
  | .commandResponse => 6
  | .restDetail => 5
  | .reconciliation => 4
  | .restCollection => 3
  | .eventLog => 2
  | .sse => 1

/-- `metadata_order` compares these, one after another. -/
def metadataRank (metadata : ObservationMetadata) : ℤ ×ₗ ℕ ×ₗ ℕ :=
  toLex (metadata.observedAt, toLex (authorityRank metadata.authority, sourceRank metadata.source))

/-- `metadata_order(left, right).is_lt()`. -/
def ObservationMetadata.isOlder (left right : ObservationMetadata) : Bool :=
  metadataRank left < metadataRank right

lemma observedAt_le_of_not_isOlder {left right : ObservationMetadata}
    (h : left.isOlder right = false) : right.observedAt ≤ left.observedAt := by
  have hle : metadataRank right ≤ metadataRank left := not_lt.mp (of_decide_eq_false h)
  rcases Prod.Lex.le_iff.mp hle with hlt | ⟨heq, -⟩
  · exact hlt.le
  · exact heq.le

def sameProjectedObservation {α : Type} [DecidableEq α] (existing incoming : Observation α) : Bool :=
  existing.value = incoming.value && existing.metadata.source = incoming.metadata.source &&
    existing.metadata.authority = incoming.metadata.authority &&
    existing.metadata.access = incoming.metadata.access &&
    existing.metadata.reachability = incoming.metadata.reachability &&
    existing.metadata.stale = incoming.metadata.stale

/-- Observations that project the same differ in their time and document only. -/
lemma eq_of_sameProjectedObservation {α : Type} [DecidableEq α] {existing incoming : Observation α}
    (h : sameProjectedObservation existing incoming = true) : incoming = { existing with
      metadata := { existing.metadata with
        observedAt := incoming.metadata.observedAt
        sourceDocument := incoming.metadata.sourceDocument } } := by
  obtain ⟨value, source, authority, observedAt, access, reachability, stale, document⟩ := existing
  obtain ⟨value', source', authority', observedAt', access', reachability', stale', document'⟩ :=
    incoming
  simp only [sameProjectedObservation, Bool.and_eq_true, decide_eq_true_eq] at h
  obtain ⟨⟨⟨⟨⟨rfl, rfl⟩, rfl⟩, rfl⟩, rfl⟩, rfl⟩ := h
  rfl

/-! ## Devices -/

structure DeviceRelationships where
  attachedTo : Option EntityKey
  stowedIn : Option EntityKey
  controller : Option EntityKey
  linkedDevice : Option EntityKey
  attachedDevices : List EntityKey
  controlledDevices : List EntityKey
  stowedDevices : List EntityKey
  assignedReplicant : Option EntityKey
  hostingReplicant : Option EntityKey
deriving DecidableEq

structure DeviceRuntimeState where
  createdAt : Option String
  shortDescription : Option String
  description : Option String
  printing : Option Json
  mining : Option Json
  prospect : Option Json
  repair : Option Json
  scan : Option Json
  waitingFor : Option Json
  printQueue : List Json
  queueSize : Option ℤ
  taxiMode : Option String
  trackingSiteId : Option ℤ
  beaconOnly : Option Bool
  welcomeMessage : Option String
  repairPaidPct : Option Json
deriving DecidableEq

structure Device where
  key : EntityKey
  deployedAt : Option String
  inControlRange : Option Bool
  relationships : DeviceRelationships
  cargoCapacity : Option ℤ
  attachCapacity : Option ℤ
  stowCapacity : Option ℤ
  stowUsed : Option ℤ
  operationalCapacity : Option ℚ
  gracePeriodRemaining : Option ℤ
  upkeepRequirements : List Json
  systemStatus : Option Json
  activeDirective : Option Json
  travel : Option Json
  runtime : DeviceRuntimeState
  access : AccessScope
  /-- Type, status, location, features, commands, directives, tags, settings, cargo. -/
  detail : Json
deriving DecidableEq

def DeviceRuntimeState.preserveMissingFrom (incoming existing : DeviceRuntimeState) :
    DeviceRuntimeState where
  createdAt := incoming.createdAt.or existing.createdAt
  shortDescription := incoming.shortDescription.or existing.shortDescription
  description := incoming.description.or existing.description
  printing := incoming.printing.or existing.printing
  mining := incoming.mining.or existing.mining
  prospect := incoming.prospect.or existing.prospect
  repair := incoming.repair.or existing.repair
  scan := incoming.scan.or existing.scan
  waitingFor := incoming.waitingFor.or existing.waitingFor
  printQueue := if incoming.printQueue.isEmpty then existing.printQueue else incoming.printQueue
  queueSize := incoming.queueSize.or existing.queueSize
  taxiMode := incoming.taxiMode.or existing.taxiMode
  trackingSiteId := incoming.trackingSiteId.or existing.trackingSiteId
  beaconOnly := incoming.beaconOnly.or existing.beaconOnly
  welcomeMessage := incoming.welcomeMessage.or existing.welcomeMessage
  repairPaidPct := incoming.repairPaidPct.or existing.repairPaidPct

/-- The runtime state after an observation: a fresh snapshot of the device may clear activities. -/
def DeviceRuntimeState.update (existing : DeviceRuntimeState) (incoming : Observation Device) :
    DeviceRuntimeState :=
  if incoming.metadata.authority = .entitySnapshot then incoming.value.runtime
  else incoming.value.runtime.preserveMissingFrom existing

/-- The fields that a public observation of an owned device keeps. The cargo capacity and the access of
the device are not among them. -/
def Device.keepPrivate (incoming existing : Device) : Device :=
  { incoming with
    relationships := { existing.relationships with
      attachedTo := incoming.relationships.attachedTo
      controller := incoming.relationships.controller }
    attachCapacity := existing.attachCapacity
    stowCapacity := existing.stowCapacity
    stowUsed := existing.stowUsed
    operationalCapacity := existing.operationalCapacity
    gracePeriodRemaining := existing.gracePeriodRemaining
    upkeepRequirements := existing.upkeepRequirements
    systemStatus := existing.systemStatus
    activeDirective := existing.activeDirective
    travel := existing.travel
    runtime := existing.runtime }

/-- `merge_device`, the observation that either outcome carries. -/
def mergeDevice (existing incoming : Observation Device) : Observation Device :=
  if incoming.metadata.isOlder existing.metadata then existing
  else
    let value := { incoming.value with
      deployedAt := incoming.value.deployedAt.or existing.value.deployedAt
      inControlRange := incoming.value.inControlRange.or existing.value.inControlRange }
    let value := { value with runtime := existing.value.runtime.update incoming }
    let value := if existing.metadata.access = .owned ∧ incoming.metadata.access = .public then
      value.keepPrivate existing.value else value
    { incoming with value := value }

lemma mergeDevice_key {existing incoming : Observation Device}
    (h : existing.value.key = incoming.value.key) :
    (mergeDevice existing incoming).value.key = incoming.value.key := by
  unfold mergeDevice
  split
  · exact h
  · simp only [Device.keepPrivate]
    split <;> rfl

lemma observedAt_le_mergeDevice (existing incoming : Observation Device) :
    existing.metadata.observedAt ≤ (mergeDevice existing incoming).metadata.observedAt := by
  unfold mergeDevice
  split
  · exact le_rfl
  · next hold => exact observedAt_le_of_not_isOlder (Bool.eq_false_iff.mpr hold)

/-- By its own `access` a device is among the owned ones of `snapshot`. -/
def Device.isOwned (device : Device) : Bool := device.access = .owned

/-- What only the owner of a device is told. -/
structure PrivateFacts where
  assignedReplicant : Option EntityKey
  hostingReplicant : Option EntityKey
  linkedDevice : Option EntityKey
  stowedIn : Option EntityKey
  attachedDevices : List EntityKey
  controlledDevices : List EntityKey
  stowedDevices : List EntityKey
  /-- Of the cargo, the attachments and the stowage, and how much of the last is used. -/
  capacities : List (Option ℤ)
  operationalCapacity : Option ℚ
  gracePeriodRemaining : Option ℤ
  upkeepRequirements : List Json
  systemStatus : Option Json
  activeDirective : Option Json
  travel : Option Json
  runtime : DeviceRuntimeState
deriving DecidableEq

def Device.privateFacts (device : Device) : PrivateFacts where
  assignedReplicant := device.relationships.assignedReplicant
  hostingReplicant := device.relationships.hostingReplicant
  linkedDevice := device.relationships.linkedDevice
  stowedIn := device.relationships.stowedIn
  attachedDevices := device.relationships.attachedDevices
  controlledDevices := device.relationships.controlledDevices
  stowedDevices := device.relationships.stowedDevices
  capacities := [device.cargoCapacity, device.attachCapacity, device.stowCapacity, device.stowUsed]
  operationalCapacity := device.operationalCapacity
  gracePeriodRemaining := device.gracePeriodRemaining
  upkeepRequirements := device.upkeepRequirements
  systemStatus := device.systemStatus
  activeDirective := device.activeDirective
  travel := device.travel
  runtime := device.runtime

/-- The observations are in the order of their metadata. -/
def InOrder (observations : List (Observation Device)) : Prop :=
  observations.IsChain fun a b => b.metadata.isOlder a.metadata = false

instance (observations : List (Observation Device)) : Decidable (InOrder observations) :=
  inferInstanceAs (Decidable (List.IsChain _ _))

section

variable {existing incoming : Observation Device}
  (hnew : incoming.metadata.isOlder existing.metadata = false)

include hnew

/-- The metadata are those of the newer observation, so the merged one is public after the first. -/
lemma mergeDevice_metadata : (mergeDevice existing incoming).metadata = incoming.metadata := by
  unfold mergeDevice
  rw [hnew]
  rfl

/-- Only an observation that is itself on record as owned keeps its private facts. -/
lemma mergeDevice_of_not_owned (h : existing.metadata.access ≠ .owned) :
    (mergeDevice existing incoming).value.privateFacts = { incoming.value.privateFacts with
      runtime := existing.value.runtime.update incoming } ∧
    (mergeDevice existing incoming).value.isOwned = incoming.value.isOwned := by
  unfold mergeDevice
  rw [hnew]
  simp only [Bool.false_eq_true, if_false, h, false_and]
  exact ⟨rfl, rfl⟩

/-- The first public observation replaces the cargo capacity and the access. -/
lemma mergeDevice_of_owned (h : existing.metadata.access = .owned)
    (hpublic : incoming.metadata.access = .public) :
    (mergeDevice existing incoming).value.privateFacts = { existing.value.privateFacts with
      capacities := incoming.value.cargoCapacity :: existing.value.privateFacts.capacities.tail } ∧
    (mergeDevice existing incoming).value.isOwned = incoming.value.isOwned := by
  unfold mergeDevice
  rw [hnew]
  simp only [Bool.false_eq_true, if_false, h, hpublic, and_self, if_true]
  exact ⟨rfl, rfl⟩

end

/-- The next observation is compared with the metadata that the merge has taken over. -/
lemma InOrder.merge {existing incoming : Observation Device} {rest : List (Observation Device)}
    (h : InOrder (existing :: incoming :: rest)) : InOrder (mergeDevice existing incoming :: rest) := by
  obtain ⟨hnew, htail⟩ := List.isChain_cons_cons.mp h
  cases rest with
  | nil => exact .singleton _
  | cons next rest =>
    rw [List.isChain_cons_cons, ← mergeDevice_metadata hnew] at htail
    exact List.isChain_cons_cons.mpr htail

/-- From the second public observation on, the last one decides, but for what it does not say of the
runtime state. -/
lemma foldl_mergeDevice_public {existing p : Observation Device} {rest : List (Observation Device)}
    (h : existing.metadata.access = .public) (horder : InOrder (existing :: p :: rest))
    (hpublic : ∀ q ∈ p :: rest, q.metadata.access = .public) :
    ((p :: rest).foldl mergeDevice existing).value.privateFacts =
        { (rest.getLastD p).value.privateFacts with
          runtime := (p :: rest).foldl DeviceRuntimeState.update existing.value.runtime } ∧
      ((p :: rest).foldl mergeDevice existing).value.isOwned = (rest.getLastD p).value.isOwned := by
  induction rest generalizing existing p with
  | nil =>
    obtain ⟨hnew, -⟩ := List.isChain_cons_cons.mp horder
    exact mergeDevice_of_not_owned hnew (by rw [h]; decide)
  | cons q rest ih =>
    obtain ⟨hnew, -⟩ := List.isChain_cons_cons.mp horder
    obtain ⟨hfirst, hrest⟩ := List.forall_mem_cons.mp hpublic
    obtain ⟨hfacts, -⟩ := mergeDevice_of_not_owned hnew (by rw [h]; decide)
    have hmerged := ih (mergeDevice_metadata hnew ▸ hfirst) horder.merge hrest
    rwa [show (mergeDevice existing p).value.runtime = existing.value.runtime.update p from
      congrArg PrivateFacts.runtime hfacts, ← List.getLastD_cons (a := p)] at hmerged

/-- What public observations must say for an owned device to keep its private facts and its place
among the owned ones: a single one its cargo capacity and that it is owned, and of several the last
one everything, but for the parts of the runtime state that it leaves open. -/
def Device.KeptBy (owned : Device) : List (Observation Device) → Prop
  | [] => True
  | [p] => p.value.cargoCapacity = owned.cargoCapacity ∧ p.value.isOwned = true
  | _ :: p :: rest =>
    { (rest.getLastD p).value.privateFacts with
      runtime := (p :: rest).foldl DeviceRuntimeState.update owned.runtime } = owned.privateFacts ∧
    (rest.getLastD p).value.isOwned = true

/-- Public observations leave an owned device its private facts and its place among the owned ones
exactly if they say so themselves. -/
theorem foldl_mergeDevice_private_iff {owned : Observation Device}
    {publics : List (Observation Device)}
    (howned : owned.metadata.access = .owned ∧ owned.value.isOwned = true)
    (hpublic : ∀ p ∈ publics, p.metadata.access = .public) (horder : InOrder (owned :: publics)) :
    ((publics.foldl mergeDevice owned).value.privateFacts = owned.value.privateFacts ∧
      (publics.foldl mergeDevice owned).value.isOwned = true) ↔ owned.value.KeptBy publics := by
  match publics with
  | [] => exact iff_of_true ⟨rfl, howned.2⟩ trivial
  | first :: rest =>
    obtain ⟨hnew, -⟩ := List.isChain_cons_cons.mp horder
    obtain ⟨hfirst, hrest⟩ := List.forall_mem_cons.mp hpublic
    obtain ⟨hfacts, hkept⟩ := mergeDevice_of_owned hnew howned.1 hfirst
    match rest with
    | [] =>
      rw [List.foldl_cons, List.foldl_nil, hfacts, hkept]
      refine and_congr_left fun _ => ?_
      simp [Device.privateFacts]
    | second :: rest =>
      -- the guard sees the metadata of the first public observation
      have hmerged := foldl_mergeDevice_public (mergeDevice_metadata hnew ▸ hfirst) horder.merge hrest
      rw [show (mergeDevice owned first).value.runtime = owned.value.runtime from
        congrArg PrivateFacts.runtime hfacts] at hmerged
      rw [List.foldl_cons, hmerged.1, hmerged.2]
      exact Iff.rfl

/-- A sighting of a device that can carry cargo and belongs to the replicant. -/
def sighting (access : AccessScope) (scope : AccessScope) (observedAt : ℤ) (capacity : Option ℤ)
    (replicant : Option EntityKey) : Observation Device :=
  ⟨⟨⟨.live, "D1"⟩, none, none, ⟨none, none, none, none, [], [], [], replicant, none⟩, capacity, none,
    none, none, none, none, [], none, none, none, ⟨none, none, none, none, none, none, none, none,
    none, [], none, none, none, none, none, none⟩, scope, .object []⟩,
    ⟨.restDetail, .entitySnapshot, observedAt, access, .reachable, false, ⟨"GET", none, none⟩⟩⟩

theorem foldl_mergeDevice_private_three :
    let owned := sighting .owned .owned 0 (some 5) (some ⟨.live, "R1"⟩)
    let publics := [sighting .public .public 1 none none, sighting .public .public 2 none none,
      sighting .public .owned 2 (some 5) (some ⟨.live, "R1"⟩)]
    (publics.foldl mergeDevice owned).value.privateFacts = owned.value.privateFacts ∧
      (publics.foldl mergeDevice owned).value.isOwned = true :=
  (foldl_mergeDevice_private_iff (by decide) (by decide) (by decide)).mpr (by
    unfold Device.KeptBy
    decide)

/-- The first public observation takes the cargo capacity and the place among the owned devices, and the
second one the replicant. -/
theorem public_erases_private :
    let owned := sighting .owned .owned 0 (some 5) (some ⟨.live, "R1"⟩)
    let once := mergeDevice owned (sighting .public .public 1 none none)
    once.value.cargoCapacity = none ∧ once.value.isOwned = false ∧
      (mergeDevice once (sighting .public .public 2 none none)).value.relationships.assignedReplicant =
        none := by
  decide

/-! ## Stars -/

structure Star where
  key : EntityKey
  name : Option String
  spectralType : Option String
  entryPoint : Option EntityKey
  position : Option Json
  hasHub : Option Bool
  hasWard : Option Bool
  knowledgeObserved : Bool
  explored : Option Bool
  hasLife : Option Bool
  region : Option String
deriving DecidableEq

/-- The fields of a star that the newer observation does not report stay. -/
def Star.preserve (incoming existing : Star) : Star :=
  { incoming with
    name := incoming.name.or existing.name
    spectralType := incoming.spectralType.or existing.spectralType
    entryPoint := incoming.entryPoint.or existing.entryPoint
    position := incoming.position.or existing.position
    hasHub := incoming.hasHub.or existing.hasHub
    hasWard := incoming.hasWard.or existing.hasWard
    knowledgeObserved := incoming.knowledgeObserved || existing.knowledgeObserved
    explored := incoming.explored.or existing.explored
    hasLife := incoming.hasLife.or existing.hasLife
    region := incoming.region.or existing.region }

/-- `merge_star`, the observation that either outcome carries. -/
def mergeStar (existing incoming : Observation Star) : Observation Star :=
  if incoming.metadata.isOlder existing.metadata then existing
  else { incoming with value := incoming.value.preserve existing.value }

/-- The star reports every field that the other one has. -/
def Star.Reports (incoming existing : Star) : Prop :=
  (existing.name.isSome → incoming.name.isSome) ∧
    (existing.spectralType.isSome → incoming.spectralType.isSome) ∧
    (existing.entryPoint.isSome → incoming.entryPoint.isSome) ∧
    (existing.position.isSome → incoming.position.isSome) ∧
    (existing.hasHub.isSome → incoming.hasHub.isSome) ∧
    (existing.hasWard.isSome → incoming.hasWard.isSome) ∧
    (existing.knowledgeObserved = true → incoming.knowledgeObserved = true) ∧
    (existing.explored.isSome → incoming.explored.isSome) ∧
    (existing.hasLife.isSome → incoming.hasLife.isSome) ∧
    (existing.region.isSome → incoming.region.isSome)

instance (incoming existing : Star) : Decidable (incoming.Reports existing) :=
  inferInstanceAs (Decidable (_ ∧ _))

lemma or_eq_of_reports {α : Type} {incoming existing : Option α}
    (h : existing.isSome → incoming.isSome) : incoming.or existing = incoming := by
  cases existing with
  | none => exact Option.or_none
  | some =>
    obtain ⟨b, rfl⟩ := Option.isSome_iff_exists.mp (h rfl)
    rfl

lemma Star.Reports.preserve {incoming existing : Star} (h : incoming.Reports existing) :
    incoming.preserve existing = incoming := by
  obtain ⟨hname, hspectral, hentry, hposn, hhub, hward, hknowledge, hexplored, hlife, hregion⟩ := h
  have hobserved : (incoming.knowledgeObserved || existing.knowledgeObserved) =
      incoming.knowledgeObserved := by
    cases hincoming : incoming.knowledgeObserved <;> cases hexist : existing.knowledgeObserved
    · rfl
    · rw [hincoming] at hknowledge
      exact absurd (hknowledge hexist) (by decide)
    · rfl
    · rfl
  unfold Star.preserve
  rw [or_eq_of_reports hname, or_eq_of_reports hspectral, or_eq_of_reports hentry,
    or_eq_of_reports hposn, or_eq_of_reports hhub, or_eq_of_reports hward, hobserved,
    or_eq_of_reports hexplored, or_eq_of_reports hlife, or_eq_of_reports hregion]

/-! ## Locations -/

/-- The fields of `LocationSurveyProgress`. -/
inductive SurveyField where
  | planetsTotal | planetsScanned | moonsTotal | moonsScanned | moonsTotalEstimated
  | surveySystemComplete
deriving DecidableEq

/-- The fields of `LocationEnvironment`. -/
inductive EnvironmentField where
  | atmosphere | magneticField | gravityG | surfaceTempC | surfaceTempK | atmoPressureAtm
  | atmoO2Pct | atmoToxicity | hydrospherePct | tectonicIndex | biosphereIndex
  | hasSubsurfaceOcean | inHabitableZone | lifeStage | axialTiltDeg | rotationState
  | starSpectralType | nearbyBeltRichness | distanceFromSolLy
deriving DecidableEq

inductive Knowledge where
  | unknown
  | absent
  | present (value : Json)

structure Location where
  key : EntityKey
  locationType : Option String
  scanned : Option Bool
  systemScanned : Option Bool
  systemTags : List String
  system : Option String
  parent : Option EntityKey
  customName : Option String
  surveyProgress : SurveyField → Option Json
  environment : EnvironmentField → Knowledge
  /-- Open response fields by name. -/
  unknown : String → Option Json

def mergeKnowledge (current newer : Knowledge) : Knowledge :=
  match newer with
  | .unknown => current
  | .absent => .absent
  | .present value => .present value

def Location.mergeFrom (current newer : Location) : Location where
  key := current.key
  locationType := newer.locationType.or current.locationType
  scanned := newer.scanned.or current.scanned
  systemScanned := newer.systemScanned.or current.systemScanned
  systemTags := if newer.systemTags.isEmpty then current.systemTags else newer.systemTags
  system := newer.system.or current.system
  parent := newer.parent.or current.parent
  customName := newer.customName.or current.customName
  surveyProgress field := (newer.surveyProgress field).or (current.surveyProgress field)
  environment field := mergeKnowledge (current.environment field) (newer.environment field)
  unknown name := (newer.unknown name).or (current.unknown name)

end Replicant.Managed
