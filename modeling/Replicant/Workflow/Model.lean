import Mathlib.Data.Rat.Defs
import Mathlib.Algebra.Order.Ring.Unbundled.Rat
import Replicant.Lib.Table

/-!
# The data model of the workflow repository

The types of `model.rs`, `work.rs`, `allocation.rs` and `target.rs` that the repository operations
read or write, and the rows of the tables the migrations create.

* JSON columns whose content no operation looks into stay texts. Preconditions and requirements keep
  their text (specifications are compared through it) next to the typed value.
* In the persisted namespace of a resource, `custom name` stands for the text `custom:<name>`.
* `u32`, `u64` and non-negative `INTEGER` columns are naturals, with the range checks of the source;
  times are integers.
-/

namespace Replicant.Workflow

/-- A 128-bit identifier. The store keeps its hyphenated lowercase text, which sorts as
the number does. -/
abbrev Uuid := Nat

abbrev WorkflowId := Uuid
abbrev WorkItemId := Uuid
abbrev AllocationId := Uuid

/-- `i64::MAX`, the largest value an `INTEGER` column holds. -/
def i64Max : ℕ := 2 ^ 63 - 1

/-- `u32::MAX`. -/
def u32Max : ℕ := 2 ^ 32 - 1

/-! ## Lifecycle states -/

inductive WorkflowStatus where
  | queued | running | waiting | paused | reconciling | succeeded | failed | cancelled
deriving DecidableEq, Repr

namespace WorkflowStatus

def isTerminal : WorkflowStatus → Bool
  | succeeded | failed | cancelled => true
  | _ => false

/-- Whether a state replacement may use `next`. -/
def canTransitionTo (self next : WorkflowStatus) : Bool :=
  self = next || match self, next with
    | queued, running | queued, paused | queued, failed | queued, cancelled => true
    | running, waiting | running, paused | running, reconciling | running, succeeded
    | running, failed | running, cancelled => true
    | waiting, running | waiting, paused | waiting, reconciling | waiting, failed
    | waiting, cancelled => true
    | paused, running | paused, reconciling | paused, cancelled => true
    | reconciling, running | reconciling, waiting | reconciling, paused
    | reconciling, succeeded | reconciling, failed | reconciling, cancelled => true
    | _, _ => false

/-- A terminal status only accepts itself. -/
lemma eq_of_canTransitionTo {a b : WorkflowStatus} (ha : a.isTerminal = true)
    (h : a.canTransitionTo b = true) : b = a := by
  cases a <;> cases b <;> simp_all [isTerminal, canTransitionTo]

end WorkflowStatus

inductive WorkItemStatus where
  | pending | assigned | running | waiting | succeeded | skipped | failed | abandoned
deriving DecidableEq, Repr

namespace WorkItemStatus

def isTerminal : WorkItemStatus → Bool
  | succeeded | skipped | failed | abandoned => true
  | _ => false

/-- The statuses that satisfy a dependency. -/
def isSatisfied : WorkItemStatus → Bool
  | succeeded | skipped => true
  | _ => false

/-- The statuses under which an item has a worker. -/
def isClaimed : WorkItemStatus → Bool
  | assigned | running => true
  | _ => false

lemma isTerminal_of_isSatisfied {a : WorkItemStatus} (h : a.isSatisfied = true) :
    a.isTerminal = true := by
  cases a <;> simp_all [isTerminal, isSatisfied]

lemma not_isTerminal_of_isClaimed {a : WorkItemStatus} (h : a.isClaimed = true) :
    a.isTerminal = false := by
  cases a <;> simp_all [isTerminal, isClaimed]

end WorkItemStatus

inductive WorkItemAttemptOutcome where
  | succeeded | failed | reclaimed | cancelled
deriving DecidableEq, Repr

inductive AllocationState where
  | active | dead | released
deriving DecidableEq, Repr

inductive AssignmentState where
  | active | reclaimRequested | released
deriving DecidableEq, Repr

inductive WorkflowFailureDisposition where
  | retryable | permanent
deriving DecidableEq, Repr

/-! ## Resources -/

inductive ResourceKey where
  | replicant (key : String)
  | device (key : String)
  | autofactory (key : String)
  | namespaced (ns key : String)
deriving DecidableEq, Repr

/-- The persisted `resource_namespace` of a resource. -/
inductive Namespace where
  | replicant | device | autofactory
  | custom (name : String)
deriving DecidableEq, Repr

namespace Namespace

/-- `is_exclusive_namespace`; the same three namespaces compare their keys up to case. -/
def isExclusive : Namespace → Bool
  | replicant | device | autofactory => true
  | custom _ => false

/-- The stored text, which orders the rows of a query. -/
def text : Namespace → String
  | replicant => "replicant"
  | device => "device"
  | autofactory => "autofactory"
  | custom name => "custom:" ++ name

/-- The two namespaces that name the same machines. -/
def isMachine : Namespace → Bool
  | device | autofactory => true
  | _ => false

end Namespace

/-- `(resource_namespace, resource_key)` as it is persisted. -/
structure ResourceIdentity where
  ns : Namespace
  key : String
deriving DecidableEq, Repr

/-- `str::eq_ignore_ascii_case`, and the `NOCASE` collation of the store. -/
def eqIgnoreAsciiCase (a b : String) : Bool :=
  a.toList.map Char.toLower = b.toList.map Char.toLower

/-- The condition the claim and allocation queries put on a stored row: the row's key is
the wanted one, up to case in the exclusive namespaces, and its namespace is the wanted
one or both name machines. -/
def ResourceIdentity.matches (wanted stored : ResourceIdentity) : Bool :=
  (stored.key = wanted.key || (wanted.ns.isExclusive && eqIgnoreAsciiCase stored.key wanted.key)) &&
    (stored.ns = wanted.ns || (wanted.ns.isMachine && stored.ns.isMachine))

/-- `resource_key`: the resource a persisted identity stands for. -/
def ResourceIdentity.resource : ResourceIdentity → ResourceKey
  | ⟨.replicant, key⟩ => .replicant key
  | ⟨.device, key⟩ => .device key
  | ⟨.autofactory, key⟩ => .autofactory key
  | ⟨.custom name, key⟩ => .namespaced name key

/-- One JSON string character, escaped as `serde_json` writes it. -/
def jsonEscape (c : Char) : List Char :=
  let hex (n : ℕ) : Char := Char.ofNat (if n < 10 then 48 + n else 87 + n)
  if c = '"' then ['\\', '"']
  else if c = '\\' then ['\\', '\\']
  else if c.toNat = 8 then ['\\', 'b']
  else if c.toNat = 12 then ['\\', 'f']
  else if c = '\n' then ['\\', 'n']
  else if c = '\r' then ['\\', 'r']
  else if c = '\t' then ['\\', 't']
  else if c.toNat < 32 then ['\\', 'u', '0', '0', hex (c.toNat / 16), hex (c.toNat % 16)]
  else [c]

def jsonString (s : String) : String :=
  "\"" ++ String.ofList (s.toList.flatMap jsonEscape) ++ "\""

/-- `serde_json::to_string` of a resource key: the pool key and the sort key. -/
def ResourceKey.json : ResourceKey → String
  | .replicant key => "\x7b\"kind\":\"replicant\",\"identity\":" ++ jsonString key ++ "\x7d"
  | .device key => "\x7b\"kind\":\"device\",\"identity\":" ++ jsonString key ++ "\x7d"
  | .autofactory key =>
    "\x7b\"kind\":\"autofactory\",\"identity\":" ++ jsonString key ++ "\x7d"
  | .namespaced ns key =>
    "\x7b\"kind\":\"namespaced\",\"identity\":\x7b\"namespace\":" ++ jsonString ns ++
      ",\"key\":" ++ jsonString key ++ "\x7d\x7d"

/-- `resource_identity_key`. -/
def ResourceKey.identityKey : ResourceKey → String
  | .replicant key | .device key | .autofactory key => key
  | .namespaced _ key => key

/-! ## Requirements and candidates -/

/-- An `f64`, as far as the repository compares them. -/
inductive F64 where
  | finite (value : ℚ)
  | infinite (negative : Bool)
  | nan
deriving DecidableEq

/-- The value of a finite number; `serde_json` writes every other number as `null`. -/
def F64.toFinite? : F64 → Option ℚ
  | finite value => some value
  | _ => none

inductive RequirementScope where
  | anywhere
  | region (name : String)
  | system (name : String)
  | location (designation : String)
  | withinLy (origin : String) (rangeLy : F64)
deriving DecidableEq

structure ResourceRequirement where
  key : String
  kind : String
  capabilities : List String
  scope : RequirementScope
  count : ℕ
  quantity : ℕ
deriving DecidableEq

/-- The geographic facts of a candidate, and, with `α` the JSON numbers, of a pool. -/
structure AllocationLocation (α : Type) where
  region : Option String
  system : Option String
  designation : Option String
  distancesLy : List (String × α)
deriving DecidableEq

structure AllocationCandidate where
  resource : ResourceKey
  kind : String
  capabilities : List String
  location : Option (AllocationLocation F64)
  availableQuantity : ℕ
  observedRevision : ℕ
  observedAtMs : ℤ

/-- The location as the pool row stores it: a distance that is not finite is `null`. -/
def AllocationLocation.toJson (l : AllocationLocation F64) : AllocationLocation (Option ℚ) where
  region := l.region
  system := l.system
  designation := l.designation
  distancesLy := l.distancesLy.map fun d => (d.1, d.2.toFinite?)

/-! ## Work items -/

/-- One typed precondition: its `kind` and its `parameters.dedupe_key`. -/
structure Precondition where
  kind : String
  dedupeKey : Option String
deriving DecidableEq

structure PreconditionsJson where
  text : String
  entries : List Precondition
deriving DecidableEq

/-- `requirements_json`; `decoded` is what serde reads from it, if it can. -/
structure RequirementsJson where
  text : String
  decoded : Option (List ResourceRequirement)
deriving DecidableEq

structure WorkItemSpec where
  workflowId : WorkflowId
  dedupeKey : String
  kind : String
  sortKey : String
  payloadJson : String
  preconditionsJson : PreconditionsJson
  requirementsJson : RequirementsJson
  deadlineAtMs : Option ℤ
deriving DecidableEq

/-- The dependencies of an item: the keys its `work_item.succeeded` preconditions name. -/
def WorkItemSpec.dependencies (spec : WorkItemSpec) : List (Option String) :=
  (spec.preconditionsJson.entries.filter fun p => p.kind = "work_item.succeeded").map (·.dedupeKey)

structure WorkItemState where
  status : WorkItemStatus
  checkpointJson : Option String
  resultJson : Option String
  lastError : Option String
  attemptCount : ℕ
  consecutiveFailureCount : ℕ
  nextAttemptAtMs : Option ℤ
  everStarted : Bool
  createdAtMs : ℤ
  updatedAtMs : ℤ
  revision : ℕ
deriving DecidableEq

structure WorkItem where
  id : WorkItemId
  spec : WorkItemSpec
  state : WorkItemState
deriving DecidableEq

inductive WorkItemTransition where
  | checkpointCommitted (checkpointJson : String)
  | waiting (checkpointJson : Option String) (reason : String) (retryAtMs : Option ℤ)
  | retryableFailure (checkpointJson : Option String) (error : String)
  | succeeded (checkpointJson resultJson : Option String)
  | skipped (reason : String) (resultJson : Option String)
  | failed (error : String) (resultJson : Option String)
  | abandoned (reason : String)
  | reclaimed (checkpointJson : Option String)

/-! ## Targets -/

inductive WorkflowTarget where
  | event (eventId system location : String)
  | system (system : String)
  | location (location : String)
  | device (device : String)
  | resource (resource : String)
  | blueprint (blueprint : String)
  | custom (ns key : String) (metadata : List (String × String))
deriving DecidableEq

namespace WorkflowTarget

def kind : WorkflowTarget → String
  | event .. => "event"
  | system _ => "system"
  | location _ => "location"
  | device _ => "device"
  | resource _ => "resource"
  | blueprint _ => "blueprint"
  | custom ns _ _ => ns

def key : WorkflowTarget → String
  | event eventId _ _ => eventId
  | system name | location name | device name | resource name | blueprint name => name
  | custom _ key _ => key

end WorkflowTarget

/-! ## Rows -/

structure WorkflowRow where
  id : WorkflowId
  kind : String
  schemaVersion : ℕ
  configJson : String
  checkpointJson : String
  status : WorkflowStatus
  currentStep : Option String
  createdAt : ℤ
  updatedAt : ℤ
  lastError : Option String
  resultJson : Option String
  parentId : Option WorkflowId
  revision : ℕ
  waitIntentJson : Option String
  failureDisposition : Option WorkflowFailureDisposition

structure ClaimRow where
  resource : ResourceIdentity
  workflowId : WorkflowId
  acquiredAt : ℤ
  updatedAt : ℤ
deriving DecidableEq

structure AttemptRow where
  itemId : WorkItemId
  attemptOrdinal : ℕ
  assignmentId : String
  workerIdentity : String
  startedAtMs : ℤ
  endedAtMs : Option ℤ
  outcome : Option WorkItemAttemptOutcome
  error : Option String

def AttemptRow.identity (a : AttemptRow) : WorkItemId × ℕ := (a.itemId, a.attemptOrdinal)

structure PoolRow where
  poolKey : String
  resource : ResourceIdentity
  kind : String
  capabilities : List String
  location : Option (AllocationLocation (Option ℚ))
  availableQuantity : ℕ
  observedRevision : ℕ
  observedAtMs : ℤ

structure AllocationRow where
  id : AllocationId
  itemId : WorkItemId
  requirementKey : String
  poolKey : String
  resource : ResourceIdentity
  quantity : ℕ
  state : AllocationState
  createdAtMs : ℤ
  updatedAtMs : ℤ
deriving DecidableEq

structure AssignmentRow where
  id : String
  itemId : WorkItemId
  worker : ResourceIdentity
  state : AssignmentState
  reclaimRequestedAtMs : Option ℤ
  createdAtMs : ℤ
  updatedAtMs : ℤ

/-- A row of `workflow_activity`. -/
structure ActivityRow where
  id : ℕ
  workflowId : WorkflowId
  createdAt : ℤ
  message : String

/-- `state = 'active'` of a target row is `active = true`. -/
structure TargetRow where
  workflowId : WorkflowId
  targetKind : String
  targetKey : String
  target : WorkflowTarget
  active : Bool
  createdAtMs : ℤ
  updatedAtMs : ℤ
deriving DecidableEq

def TargetRow.identity (t : TargetRow) : WorkflowId × String × String :=
  (t.workflowId, t.targetKind, t.targetKey)

/-! ## Failures -/

structure AllocationShortageDiagnostics where
  kindMatches : ℕ := 0
  scopeMatches : ℕ := 0
  scopeRejected : ℕ := 0
  affinityRejected : ℕ := 0
  dependentAffinityRejected : ℕ := 0
  capacityRejected : ℕ := 0
  assignmentRejected : ℕ := 0
  claimRejected : ℕ := 0
deriving DecidableEq

/-- What the text of a shortage is rendered from. -/
inductive ShortageDetails where
  | diagnosed (diagnostics : AllocationShortageDiagnostics)
  | requirementGone
deriving DecidableEq

/-- The constraints of the schema a statement can break, a row that is not there, and
`SUM` overflowing. -/
inductive SqlFailure where
  | noRows
  | uniqueConstraint (table : String)
  | checkConstraint (table : String)
  | foreignKey (table : String)
  | integerOverflow
deriving DecidableEq

inductive RepositoryError where
  | sql (failure : SqlFailure)
  | serialization
  | compatibility (message : String)
  | reserveUnavailable (minimum : ℕ)
  | invalidResourceKey (resource : ResourceKey)
  | invalidWorkflowTarget (kind key : String)
  | invalidStoredWorkItemCount (field : String) (value : ℤ)
  | invalidWorkflowSchemaVersion
  | notFound (id : WorkflowId)
  | workItemNotFound (id : WorkItemId)
  | terminalWorkItemOwner (id : WorkflowId)
  | workItemSpecConflict (workflowId : WorkflowId) (dedupeKey : String)
  | concurrentWorkItemUpdate (id : WorkItemId) (expected : ℕ)
  | invalidWorkItemTransition (source target : WorkItemStatus)
  | allocationShortage (requirementKey : String) (missingCount : ℕ) (details : ShortageDetails)
  | invalidWorkItemAssignment (message : String)
  | terminalClaimOwner (workflowId : WorkflowId)
  | claimConflict (resource : ResourceKey) (owner : WorkflowId)
  | invalidTransition (source target : WorkflowStatus)
  | concurrentUpdate (id : WorkflowId) (expected : ℕ)
  | revisionOutOfRange (revision : ℕ)
deriving DecidableEq

/-! ## Persisted identities -/

/-- The characters a resource namespace or a target kind may have. -/
def isTokenChar (c : Char) : Bool :=
  c.isLower || c.isDigit || c = '.' || c = '_' || c = '-'

/-- A token: not empty, at most 128 bytes, only lowercase letters, digits and `._-`. -/
def isToken (text : String) : Bool :=
  text ≠ "" && text.utf8ByteSize ≤ 128 && text.toList.all isTokenChar

def ResourceKey.persistedParts (self : ResourceKey) : Except RepositoryError ResourceIdentity :=
  let checkedKey (ns : Namespace) (key : String) : Except RepositoryError ResourceIdentity :=
    if key = "" || key.utf8ByteSize > 256 then .error (.invalidResourceKey self)
    else .ok ⟨ns, key⟩
  match self with
  | .replicant key => checkedKey .replicant key
  | .device key => checkedKey .device key
  | .autofactory key => checkedKey .autofactory key
  | .namespaced ns key =>
    if isToken ns then checkedKey (.custom ns) key else .error (.invalidResourceKey self)

/-- The persisted identity determines the resource it was taken from. -/
lemma ResourceKey.resource_of_persistedParts {r : ResourceKey} {i : ResourceIdentity}
    (h : r.persistedParts = .ok i) : i.resource = r := by
  unfold persistedParts at h
  cases r with
  | replicant | device | autofactory =>
    simp only at h
    split at h <;> cases h
    rfl
  | namespaced =>
    simp only at h
    split at h
    · split at h <;> cases h
      rfl
    · cases h

def validateTargetParts (kind key : String) : Except RepositoryError Unit :=
  if !isToken kind || key = "" || key.utf8ByteSize > 512 then
    .error (.invalidWorkflowTarget kind key)
  else .ok ()

end Replicant.Workflow
