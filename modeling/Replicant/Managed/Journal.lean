import Replicant.Lib.Table
import Replicant.Managed.Json

/-!
# The operation journal

The journal table with its transactions, and the calls that use it. A call is a list of steps, and
holds what it has read; between two of its steps any other call may act, or the process may crash
and leave only the table.
-/

namespace Replicant.Managed

open Lib

inductive OperationStatus where
  | prepared | submitted | accepted | inProgress | awaitingEvidence | reconciliationRequired
  | completed | cancelled | rejected | ambiguous | failed
deriving DecidableEq

def OperationStatus.isTerminal : OperationStatus → Bool
  | .completed | .cancelled | .rejected | .failed => true
  | _ => false

/-- The target columns of an operation. -/
structure Target where
  realm : Option String
  kind : Option String
  id : Option String
deriving DecidableEq

/-- The columns for the target of an adapter. -/
def Target.of : Option (String × String) → Target
  | some (kind, id) =>
    ⟨some (if kind = "simulation" then "simulation:" ++ id else "live"), some kind, some id⟩
  | none => ⟨none, none, none⟩

/-- What a caller who names an operation must agree on with its row. -/
structure Identity where
  target : Target
  intent : Json
deriving DecidableEq

/-- What the columns of an operation read back as: the intent is stored as a text. -/
def Identity.stored (readBack : Json → Json) (identity : Identity) : Identity :=
  { identity with intent := readBack identity.intent }

/-- A row of the journal, `OperationJournalEntry` with its key; its intent is what the stored text
reads back as. -/
structure Entry where
  operationId : String
  state : OperationStatus
  identity : Identity
  projection : Option Json
  submissionAttemptId : Option String
  submissionCursor : Option String

variable (e : Entry)

def Entry.intent : Json := e.identity.intent

/-- What the journal asks of a mutation adapter. -/
structure Api (Adapter : Type) where
  /-- The serialized adapter; refused when serialization fails or finds a secret. -/
  durableIntent : Adapter → Option Json
  fromValue : Json → Option Adapter
  /-- The value that `from_str` makes of the text that `to_string` writes. -/
  readBack : Json → Json
  operationId : Adapter → String
  target : Adapter → Option (String × String)
  expectsEvidence : Adapter → Bool
  operationEvidence : Adapter → Json
  /-- The response of the mutation tells its whole outcome. -/
  responseCompletes : Adapter → Bool
  /-- The adapter is `DeviceRetrieve`. -/
  isDeviceRetrieve : Adapter → Bool

inductive Realm where
  | live
  | simulation (id : ℤ)
deriving DecidableEq

/-- The parts of an account event that evidence is read from. -/
structure Event where
  id : String
  realm : Option Realm
  name : String
  device : Option String
  replicant : Option String
  location : Option String
  payload : List (String × Json)
deriving DecidableEq

/-! ## The store -/

structure Store where
  journal : Table Entry Entry.operationId
  eventCursor : Option String

namespace Store

def empty : Store := ⟨Table.empty, none⟩

variable (s : Store)

variable (id : String) (state : OperationStatus)

def readOperation : Option Entry := s.journal.find? id

/-- `record_operation_if_absent`: the row that was there, or none. -/
def recordOperationIfAbsent (readBack : Json → Json) (identity : Identity) :
    Option Entry × Store :=
  match s.journal.find? id with
  | some existing => (some existing, s)
  | none => (none, { s with
      journal := s.journal.insert ⟨id, state, identity.stored readBack, none, none, none⟩ })

def setOperationState : Store :=
  { s with
    journal := s.journal.update (fun e => e.operationId = id)
      (fun e => { e with state := state }) fun _ => rfl }

def appendOperationProjection (projection : Json) :
    Store :=
  { s with
    journal := s.journal.update (fun e => e.operationId = id)
      (fun e => { e with state := state, projection := some projection }) fun _ => rfl }

/-- `claim_operation_submission`: whether a row was changed. -/
def claimOperationSubmission (attemptId : String) : Bool × Store :=
  let claimable (e : Entry) : Bool := e.operationId = id && e.state = .prepared
  (s.journal.rows.countP claimable = 1, { s with
      journal := s.journal.update claimable (fun e => { e with
          state := .submitted
          submissionAttemptId := some attemptId
          submissionCursor := s.eventCursor }) fun _ => rfl })

def promoteCrashedSubmissions : Store :=
  { s with
    journal := s.journal.update (fun e => e.state = .submitted)
      (fun e => { e with state := .ambiguous }) fun _ => rfl }

def listUnresolvedOperations : List Entry :=
  s.journal.rows.filter fun e => !e.state.isTerminal

def findOperationsAwaitingEvidence (target : Target) : List String :=
  (s.journal.rows.filter fun e =>
    e.state = .awaitingEvidence && e.identity.target = target).map (·.operationId)

end Store

/-! ## Evidence -/

/-- The targets `resolve_awaiting_evidence` looks for, one after the other. -/
def Event.targets (event : Event) : List Target :=
  match event.realm with
  | none => []
  | some realm =>
    let targetRealm := match realm with
      | .live => "live"
      | .simulation id => "simulation:" ++ toString id
    let target (kind id : String) : Target := ⟨some targetRealm, some kind, some id⟩
    (event.device.map (target "device")).toList ++ (event.replicant.map (target "replicant")).toList
      ++ (event.location.map (target "location")).toList
      ++ (((Json.getField event.payload "simulation_id").bind Json.asInt).map
          fun id => target "simulation" (toString id)).toList

/-- `event_matches_named_evidence`: an event proves something only of a submission made
before it, and only under a name of the evidence plan. -/
def Entry.matchesNamedEvidence (event : Event) (namesKey : String) : Bool :=
  match e.submissionCursor with
  | none => false
  | some cursor =>
    if event.id ≤ cursor then false
    else
      let evidence := (e.intent.get "evidence").getD .null
      match (evidence.get namesKey).bind Json.asArray with
      | none => false
      | some names =>
        if (names.filterMap Json.asStr).any (· = event.name) then
          (evidence.get "payload").all (Json.valueContains (.object event.payload))
        else false

/-- The next state and projection `mark_resolved` writes, if any. -/
structure Write where
  state : OperationStatus
  projection : Option Json

def Entry.verdict (event : Event) : Option Write :=
  if e.matchesNamedEvidence event "event_names" then some ⟨.completed, none⟩
  else if e.matchesNamedEvidence event "failure_event_names" then
    some ⟨.failed, some (.object [("event", .string event.name),
      ("event_id", .string event.id), ("payload", .object event.payload)])⟩
  else none

/-- The write of a pending outcome. -/
def Store.apply (s : Store) (id : String) (w : Write) : Store :=
  match w.projection with
  | some projection => s.appendOperationProjection id w.state projection
  | none => s.setOperationState id w.state

/-! ## Reconciliation -/

def Entry.deviceConfigurationApplied (snapshot : Json) : Bool :=
  if (e.intent.get "kind").bind Json.asStr ≠ some "device_configure" then false
  else
    match ((e.intent.get "request").bind (Json.get "configuration")).bind Json.asObject with
    | none => false
    | some configuration =>
      let field := Json.getField configuration
      if (field "linked_device").isSome then false
      else
        match (snapshot.get "tags").bind Json.asArray with
        | none => false
        | some tags =>
          let present := tags.filterMap Json.asStr
          let hasTag (tag : Json) : Bool := tag.asStr.any (· ∈ present)
          let named (key : String) : Option (List Json) := (field key).bind Json.asArray
          (named "remove_tags").all (fun tags => !tags.any hasTag)
            && (named "add_tags").all (fun tags => tags.all hasTag)
            && (named "tags").all fun tags =>
              let expected := tags.filterMap Json.asStr
              present.all (· ∈ expected) && expected.all (· ∈ present)

/-- Whether the snapshot shows what the operation was to bring about. -/
def Entry.shownBy (snapshot : Json) : Bool :=
  if (e.intent.get "kind").bind Json.asStr = some "device_configure" then
    e.deviceConfigurationApplied snapshot
  else
    ((e.intent.get "evidence").bind (Json.get "expected_state")).any fun expected =>
      expected ≠ .null && snapshot.valueContains expected

/-- The snapshot of the target, from the observation after a successful refresh of it; only
devices and replicants are observed. -/
def Entry.snapshot (answer : Option Json) : Option Json :=
  let target := e.identity.target
  if (target.kind = some "device" ∨ target.kind = some "replicant") ∧ target.id.isSome then answer
  else none

/-- What `reconcile` writes, from the entry it has loaded; `refreshed` is whether its device
traversal succeeded. -/
def Entry.reconciliation (refreshed : Bool) (answer : Option Json) : Option Write :=
  if e.state = .reconciliationRequired
      ∧ (e.intent.get "kind").bind Json.asStr = some "device_retrieve" then
    if refreshed then some ⟨.completed, none⟩ else none
  else if e.state.isTerminal then none
  else
    some ⟨if (e.snapshot answer).any e.shownBy then .completed else .reconciliationRequired, none⟩

/-! ## Submission -/

section Submission

variable {Adapter : Type} (api : Api Adapter)

/-- The identity under which `create_with_id` records an adapter. -/
def Api.identity (adapter : Adapter) : Option Identity :=
  ((api.durableIntent adapter).bind Json.asObject).map fun intent =>
    let intent := Json.insertField "expects_evidence" (.bool (api.expectsEvidence adapter)) intent
    let intent := Json.insertField "evidence" (api.operationEvidence adapter) intent
    let intent := Json.insertField "rate_limit_bucket" (.string (api.operationId adapter)) intent
    ⟨Target.of (api.target adapter), .object intent⟩

/-- A creation may have the identity. -/
def Api.Creates (identity : Identity) : Prop := ∃ adapter, api.identity adapter = some identity

/-- How the adapter's `submit` ends. -/
inductive Response where
  | ambiguous
  | rejected (error : Json)
  | accepted (response : Json)

/-- What `attempt` records of a response. -/
def Api.outcome (adapter : Adapter) (expectsEvidence : Bool) : Response → Write
  | .ambiguous => ⟨.ambiguous, none⟩
  | .rejected error => ⟨.rejected, some error⟩
  | .accepted response =>
    let next : OperationStatus :=
      if api.responseCompletes adapter then .completed
      else if expectsEvidence then .awaitingEvidence
      else .reconciliationRequired
    ⟨next, some response⟩

/-- Only an accepted retrieval is followed by a traversal of the devices. -/
def Api.refreshes (adapter : Adapter) : Response → Bool
  | .accepted _ => api.isDeviceRetrieve adapter
  | _ => false

end Submission

/-! ## Calls -/

/-- A call in flight, by the step it takes next. The steps of `attempt` carry the operations
that are attempted after this one: none under `create_with_id`, the later rows under
`recover`. The steps of `resolve_awaiting_evidence` carry the targets still to look for and
the operations found and not yet read. -/
inductive Call (Adapter : Type) where
  | creating (id : String) (identity : Identity)
  | attempting (id : String) (rest : List String)
  | claiming (id : String) (adapter : Adapter) (expectsEvidence : Bool) (rest : List String)
  | submitting (id : String) (adapter : Adapter) (expectsEvidence : Bool) (rest : List String)
  | answered (id : String) (write : Write) (refreshes : Bool) (rest : List String)
  | refreshing (id : String) (rest : List String)
  | reconciling (entry : Entry)
  | resolving (event : Event) (targets : List Target) (ids : List String)
  | evidenced (event : Event) (targets : List Target) (ids : List String) (id : String)
      (write : Write)

structure System (Adapter : Type) where
  store : Store
  calls : List (Call Adapter)
  /-- The operations whose adapter's `submit` was executed, once for each time it was. -/
  submissions : List String
  /-- The creations that went on to `attempt`. -/
  proceeded : List (String × Identity)

inductive Op (Adapter : Type) where
  /-- `create_with_id`: begin, then record or compare. -/
  | create (id : String) (adapter : Adapter) | record (call : ℕ)
  /-- `attempt`: read, claim, submit, write the outcome, refresh. -/
  | read (call : ℕ) | claim (call : ℕ) (attemptId : String)
  | submit (call : ℕ) (response : Response) | settle (call : ℕ)
  | refresh (call : ℕ) (ok : Bool)
  /-- What a restarted client does. -/
  | promote | recover
  /-- `Operation::reconcile`: load, then write. -/
  | reconcile (id : String) | reconcileWrite (call : ℕ) (refreshed : Bool) (answer : Option Json)
  /-- `resolve_awaiting_evidence`: begin, find, read, write. -/
  | evidence (event : Event) | evidenceFind (call : ℕ) | evidenceRead (call : ℕ)
  | evidenceWrite (call : ℕ)
  | advanceCursor (cursor : String)
  /-- A call ends with an error, or is dropped. -/
  | fail (call : ℕ)
  | crash

section Steps

variable {Adapter : Type} (api : Api Adapter)

namespace System

def init : System Adapter := ⟨Store.empty, [], [], []⟩

variable (s : System Adapter)

/-- New calls begin. -/
def begin (call : Call Adapter) : System Adapter := { s with calls := s.calls ++ [call] }

variable (i : ℕ) (id : String)

/-- Call `i` goes on as `call`. -/
def goOn (call : Call Adapter) : System Adapter :=
  { s with calls := s.calls.set i call }

/-- Call `i` returns. -/
def endCall : System Adapter := { s with calls := s.calls.eraseIdx i }

def setStore (store : Store) : System Adapter := { s with store := store }

/-- An attempt returns: the next operation is attempted. -/
def attemptNext : List String → System Adapter
  | [] => s.endCall i
  | id :: rest => s.goOn i (.attempting id rest)

/-- The creation is attempted. -/
def proceed (identity : Identity) : System Adapter :=
  { s.goOn i (.attempting id []) with proceeded := s.proceeded ++ [(id, identity)] }

def record (identity : Identity) : System Adapter :=
  match s.store.recordOperationIfAbsent id .prepared api.readBack identity with
  | (none, store) => (s.setStore store).proceed i id identity
  | (some existing, _) =>
    -- a row that reads as another target or intent is a collision
    if existing.identity = identity then s.proceed i id identity else s.endCall i

def read (rest : List String) : System Adapter :=
  match s.store.readOperation id with
  | none => s.endCall i
  | some entry =>
    if entry.state ≠ .prepared then s.attemptNext i rest
    else
      match api.fromValue entry.intent with
      | none => s.endCall i
      | some adapter =>
        let expectsEvidence := ((entry.intent.get "expects_evidence").bind Json.asBool).getD false
        s.goOn i (.claiming id adapter expectsEvidence rest)

def claim (attemptId id : String) (adapter : Adapter) (expectsEvidence : Bool)
    (rest : List String) : System Adapter :=
  match s.store.claimOperationSubmission id attemptId with
  | (true, store) => (s.setStore store).goOn i (.submitting id adapter expectsEvidence rest)
  | (false, store) => (s.setStore store).attemptNext i rest

/-- The one step that transmits. -/
def submit (response : Response) (id : String) (adapter : Adapter)
    (expectsEvidence : Bool) (rest : List String) : System Adapter :=
  let call := .answered id (api.outcome adapter expectsEvidence response)
    (api.refreshes adapter response) rest
  { s.goOn i call with submissions := s.submissions ++ [id] }

def settle (write : Write) (refreshes : Bool) (rest : List String) : System Adapter :=
  let written := s.setStore (s.store.apply id write)
  if refreshes then written.goOn i (.refreshing id rest) else written.attemptNext i rest

def refresh (ok : Bool) (id : String) (rest : List String) : System Adapter :=
  if ok then (s.setStore (s.store.setOperationState id .completed)).attemptNext i rest
  else s.attemptNext i rest

def recover : System Adapter :=
  let prepared := s.store.listUnresolvedOperations.filter fun e => e.state = .prepared
  match prepared.map (·.operationId) with
  | [] => s
  | id :: rest => s.begin (.attempting id rest)

def reconcile : System Adapter :=
  match s.store.readOperation id with
  | none => s
  | some entry => s.begin (.reconciling entry)

def reconcileWrite (refreshed : Bool) (answer : Option Json) (entry : Entry) : System Adapter :=
  match entry.reconciliation refreshed answer with
  | none => s.endCall i
  | some write => (s.setStore (s.store.apply entry.operationId write)).endCall i

/-- `mark_resolved` for the next target. -/
def evidenceFind (event : Event) : List Target → System Adapter
  | [] => s.endCall i
  | target :: targets =>
    s.goOn i (.resolving event targets (s.store.findOperationsAwaitingEvidence target))

def evidenceRead (event : Event) (targets : List Target) (id : String)
    (ids : List String) : System Adapter :=
  match (s.store.readOperation id).bind (·.verdict event) with
  | none => s.goOn i (.resolving event targets ids)
  | some write => s.goOn i (.evidenced event targets ids id write)

def evidenceWrite (event : Event) (targets : List Target) (ids : List String)
    (id : String) (write : Write) : System Adapter :=
  (s.setStore (s.store.apply id write)).goOn i (.resolving event targets ids)

end System

/-- One step; a step whose call is not there, or is at another step, changes nothing. -/
def step (s : System Adapter) : Op Adapter → System Adapter
  | .create id adapter =>
    match api.identity adapter with
    | some identity => s.begin (.creating id identity)
    | none => s
  | .record i =>
    match s.calls[i]? with
    | some (.creating id identity) => s.record api i id identity
    | _ => s
  | .read i =>
    match s.calls[i]? with
    | some (.attempting id rest) => s.read api i id rest
    | _ => s
  | .claim i attemptId =>
    match s.calls[i]? with
    | some (.claiming id adapter evidence rest) => s.claim i attemptId id adapter evidence rest
    | _ => s
  | .submit i response =>
    match s.calls[i]? with
    | some (.submitting id adapter evidence rest) =>
      s.submit api i response id adapter evidence rest
    | _ => s
  | .settle i =>
    match s.calls[i]? with
    | some (.answered id write refreshes rest) => s.settle i id write refreshes rest
    | _ => s
  | .refresh i ok =>
    match s.calls[i]? with
    | some (.refreshing id rest) => s.refresh i ok id rest
    | _ => s
  | .promote => s.setStore s.store.promoteCrashedSubmissions
  | .recover => s.recover
  | .reconcile id => s.reconcile id
  | .reconcileWrite i refreshed answer =>
    match s.calls[i]? with
    | some (.reconciling entry) => s.reconcileWrite i refreshed answer entry
    | _ => s
  | .evidence event => s.begin (.resolving event event.targets [])
  | .evidenceFind i =>
    match s.calls[i]? with
    | some (.resolving event targets []) => s.evidenceFind i event targets
    | _ => s
  | .evidenceRead i =>
    match s.calls[i]? with
    | some (.resolving event targets (id :: ids)) => s.evidenceRead i event targets id ids
    | _ => s
  | .evidenceWrite i =>
    match s.calls[i]? with
    | some (.evidenced event targets ids id write) => s.evidenceWrite i event targets ids id write
    | _ => s
  | .advanceCursor cursor => s.setStore { s.store with eventCursor := some cursor }
  | .fail i => s.endCall i
  | .crash => { s with calls := [] }

/-- Steps one after another, from an empty journal. -/
def run (ops : List (Op Adapter)) : System Adapter := ops.foldl (step api) System.init

end Steps

end Replicant.Managed
