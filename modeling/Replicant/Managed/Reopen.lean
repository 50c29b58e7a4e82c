import Replicant.Managed.Engine

/-!
# Calls of the engine, one at a time

Beside the published snapshot the engine keeps the star catalogue and the list of messages.
`from_store` reads all of it from the store; each call then changes the store and what is kept in
memory by code of its own.
-/

namespace Replicant.Managed

open Lib Observation

/-- What `StateEngine` keeps in memory. -/
structure EngineMemory where
  snapshot : StateSnapshot
  catalogue : Catalogue
  generatedAt : Option String
  messages : List (Observation Message)

/-- What `from_store` reads. -/
def ProjectionStore.restore (s : ProjectionStore) : Except StoreError EngineMemory :=
  match s.restoreCatalogue with
  | .ok (catalogue, generatedAt) => .ok ⟨s.restoreSnapshot, catalogue, generatedAt, s.restoreMessages⟩
  | .error e => .error e

/-! ## The catalogue -/

variable (catalogue : Catalogue)

/-- The incoming star, merged with the one of the catalogue. -/
def mergeStarInto (incoming : Observation Star) : Observation Star :=
  match catalogue.find? incoming.value.key with
  | some current => mergeStar current incoming
  | none => incoming

def mergeStars (stars : List (Observation Star)) : Catalogue :=
  stars.foldl (fun catalogue incoming => catalogue.put (mergeStarInto catalogue incoming)) catalogue

/-- Some star is new or has another value. -/
def galaxyChanged (existing catalogue : Catalogue) : Bool :=
  catalogue.rows.any fun star =>
    (existing.find? star.value.key).all fun current => current.value ≠ star.value

structure StarKnowledge where
  replicant : EntityKey
  star : EntityKey
  position : Option Json
  spectralType : Option String
  entryPoint : Option EntityKey
  explored : Option Bool
  hasHub : Option Bool
  hasWard : Option Bool
  hasLife : Option Bool
  region : Option String
deriving DecidableEq

def accountStarFromKnowledge (knowledge : Observation StarKnowledge) : Observation Star where
  value :=
    { key := knowledge.value.star
      name := none
      spectralType := knowledge.value.spectralType
      entryPoint := knowledge.value.entryPoint
      position := knowledge.value.position
      hasHub := knowledge.value.hasHub
      hasWard := knowledge.value.hasWard
      knowledgeObserved := true
      explored := knowledge.value.explored
      hasLife := knowledge.value.hasLife
      region := knowledge.value.region }
  metadata := knowledge.metadata

def mergePositiveAccountFact : Option Bool → Option Bool → Option Bool
  | some left, some right => some (left || right)
  | some left, none => some left
  | none, right => right

/-- A star of a census, merged; what was known of the account stays known. -/
def mergeStarKnowledge (incoming : Observation Star) : Observation Star :=
  match catalogue.find? incoming.value.key with
  | some current =>
    let merged := mergeStar current incoming
    { merged with
      value := { merged.value with
        knowledgeObserved := current.value.knowledgeObserved || incoming.value.knowledgeObserved
        explored := mergePositiveAccountFact current.value.explored incoming.value.explored
        hasLife := mergePositiveAccountFact current.value.hasLife incoming.value.hasLife } }
  | none => incoming

/-- The loop of `persist_star_knowledge_batch`: the catalogue and the stars that changed. -/
structure StarPlan where
  catalogue : Catalogue
  changed : Catalogue

def StarPlan.add (plan : StarPlan) (knowledge : Observation StarKnowledge) : StarPlan :=
  let incoming := accountStarFromKnowledge knowledge
  let merged := mergeStarKnowledge plan.catalogue incoming
  if (plan.catalogue.find? incoming.value.key).all fun current => current.value ≠ merged.value then
    ⟨plan.catalogue.put merged, plan.changed.put merged⟩
  else plan

def starPlan (knowledge : List (Observation StarKnowledge)) : StarPlan :=
  knowledge.foldl StarPlan.add ⟨catalogue, Table.empty⟩

/-- The snapshot after a change of the galaxy. -/
def StateSnapshot.withGalaxy (snapshot : StateSnapshot) (changed : Bool) : StateSnapshot :=
  { snapshot with
    revision := snapshot.revision + 1
    galaxyRevision := snapshot.galaxyRevision + changed.toNat
    galaxyProjectionRevision := snapshot.galaxyProjectionRevision + changed.toNat }

/-- The catalogue after the end of an operation: an event batch brings stars. -/
def EngineOp.catalogueAfter (op : EngineOp) (reply : Reply) (catalogue : Catalogue) : Catalogue :=
  match op, reply with
  | .applyEventProjection _ batch, .inserted true => mergeStars catalogue batch.stars
  | _, _ => catalogue

/-! ## Calls -/

structure Engine where
  store : ProjectionStore
  memory : EngineMemory

inductive EngineCall where
  | run (op : EngineOp)
  | replaceCatalogue (stars : List (Observation Star)) (generatedAt : Option String)
  | persistStarKnowledgeBatch (knowledge : List (Observation StarKnowledge))
  | reloadCatalogueAfterRefresh
  | persistMessages (messages : List (Observation Message))
  | commitMessages (messages : List (Observation Message))
  | recordOperationAndProject (devices : List (Observation Device))
  /-- The engine is dropped and opened again. -/
  | reopen

namespace Engine

variable (e : Engine)

def run (op : EngineOp) : Engine :=
  match op.command e.memory.snapshot e.store with
  | .ok (store, reply) =>
    { store
      memory := { e.memory with
        snapshot := (op.publication e.memory.snapshot reply).over e.memory.snapshot
        catalogue := op.catalogueAfter reply e.memory.catalogue } }
  | .error _ => e

def replaceCatalogue (stars : List (Observation Star)) (generatedAt : Option String) : Engine :=
  let catalogue := mergeStars e.memory.catalogue stars
  { store := e.store.replaceCatalogue catalogue.rows generatedAt
    memory := { e.memory with
      snapshot := e.memory.snapshot.withGalaxy (galaxyChanged e.memory.catalogue catalogue)
      catalogue
      generatedAt } }

def persistStarKnowledgeBatch (knowledge : List (Observation StarKnowledge)) : Engine :=
  let changed := (starPlan e.memory.catalogue knowledge).changed
  if changed.rows.isEmpty then e
  else
    { store := e.store.persistStars changed.rows
      memory := { e.memory with
        snapshot := e.memory.snapshot.withGalaxy true
        catalogue := changed.rows.foldl Table.put e.memory.catalogue } }

def reloadCatalogueAfterRefresh : Engine :=
  match e.store.restoreCatalogue with
  | .ok (catalogue, generatedAt) =>
    if e.memory.catalogue.Same catalogue ∧ e.memory.generatedAt = generatedAt then e
    else
      { e with memory := { e.memory with
          snapshot := e.memory.snapshot.withGalaxy true
          catalogue
          generatedAt } }
  | .error _ => e

-- what the texts of a commit are read as
variable (readBack : ProjectionStore → ProjectionStore)

/-- The messages are written, and all are read again. -/
def withMessages (store : ProjectionStore) : Engine :=
  ⟨store, { e.memory with messages := (readBack store).restoreMessages }⟩

def call : EngineCall → Engine
  | .run op => e.run op
  | .replaceCatalogue stars generatedAt => e.replaceCatalogue stars generatedAt
  | .persistStarKnowledgeBatch knowledge => e.persistStarKnowledgeBatch knowledge
  | .reloadCatalogueAfterRefresh => e.reloadCatalogueAfterRefresh
  | .persistMessages messages => e.withMessages readBack (e.store.persistMessages messages)
  | .commitMessages messages => e.withMessages readBack (e.store.commitMessages messages)
  | .recordOperationAndProject devices =>
    { e with store := devices.foldl ProjectionStore.persistDevice e.store }
  | .reopen =>
    match e.store.restore with
    | .ok memory => { e with memory }
    | .error _ => e

/-- A call whose commit may fail; then nothing changes. -/
def step (e : Engine) (s : EngineCall × Bool) : Engine :=
  if s.2 then { e.call readBack s.1 with store := readBack (e.call readBack s.1).store } else e

end Engine

/-- An engine on an empty store. -/
def Engine.init : Engine := ⟨.empty, ⟨ProjectionStore.empty.restoreSnapshot, Table.empty, none, []⟩⟩

/-- A run of calls, each with whether the store commits it. -/
def engineRun (readBack : ProjectionStore → ProjectionStore) (steps : List (EngineCall × Bool)) :
    Engine :=
  steps.foldl (Engine.step readBack) Engine.init

/-! ## What is restored -/

/-- The same devices, replicants, locations, inventories, simulations, stars and messages. -/
structure EngineMemory.Agrees (memory restored : EngineMemory) : Prop where
  devices : memory.snapshot.devices.Same restored.snapshot.devices
  replicants : memory.snapshot.replicants.Same restored.snapshot.replicants
  locations : memory.snapshot.locations.Same restored.snapshot.locations
  inventories : memory.snapshot.inventories.Same restored.snapshot.inventories
  simulations : memory.snapshot.simulations.Same restored.snapshot.simulations
  catalogue : memory.catalogue.Same restored.catalogue
  messages : memory.messages = restored.messages

/-- The store can be opened, and what is read is what is in memory. -/
def Engine.Restores (e : Engine) : Prop :=
  ∃ restored, e.store.restore = .ok restored ∧ e.memory.Agrees restored

end Replicant.Managed
