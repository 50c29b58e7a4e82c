import Replicant.Workflow.Claims
import Replicant.Workflow.WorkItems

/-!
# Resource allocations

Observation of resource pools, the allocation of an item's requirements under affinities,
the replacement of a dead allocation, and worker assignments.
-/

namespace Replicant.Workflow

open Lib

structure ResourceAllocation where
  id : AllocationId
  requirementKey : String
  resource : ResourceKey
  quantity : ℕ
  state : AllocationState
deriving DecidableEq

/-- `by_requirement`: the allocations of an item by requirement key. -/
abbrev AllocationSet := List (String × List ResourceAllocation)

namespace AllocationSet

def get (set : AllocationSet) (key : String) : Option (List ResourceAllocation) :=
  set.lookup key

def remove (set : AllocationSet) (key : String) : AllocationSet :=
  set.filter fun entry => entry.1 ≠ key

def insert (set : AllocationSet) (key : String) (allocations : List ResourceAllocation) :
    AllocationSet :=
  set.remove key ++ [(key, allocations)]

def push (set : AllocationSet) (allocation : ResourceAllocation) : AllocationSet :=
  set.insert allocation.requirementKey
    ((set.get allocation.requirementKey).getD [] ++ [allocation])

end AllocationSet

/-! ## Reading allocations -/

/-- `ORDER BY requirement_key, resource_namespace, resource_key, id`. -/
def AllocationRow.listLe (a b : AllocationRow) : Prop :=
  a.requirementKey < b.requirementKey ∨ (a.requirementKey = b.requirementKey ∧
    (a.resource.ns.text < b.resource.ns.text ∨ (a.resource.ns.text = b.resource.ns.text ∧
      (a.resource.key < b.resource.key ∨ (a.resource.key = b.resource.key ∧ a.id ≤ b.id)))))

instance : DecidableRel AllocationRow.listLe := fun _ _ =>
  inferInstanceAs (Decidable (_ ∨ (_ ∧ (_ ∨ (_ ∧ (_ ∨ (_ ∧ _)))))))

def AllocationRow.allocation (a : AllocationRow) : ResourceAllocation :=
  ⟨a.id, a.requirementKey, a.resource.resource, a.quantity, .active⟩

variable (u : IdSource) (s : Repo) (ctx : AllocationContext) (candidate : AllocationCandidate)

/-- `list_active_allocations_in`. -/
def Repo.listActiveAllocations (itemId : WorkItemId) : AllocationSet :=
  ((s.allocations.rows.filter fun a => a.itemId = itemId && a.state = .active).insertionSort
    AllocationRow.listLe).foldl (fun set a => set.push a.allocation) []

/-- `SELECT COALESCE(SUM(quantity), 0)` of a pool; the sum of the engine is an `i64`. -/
def Repo.activeQuantityIn (poolKey : String) : Except RepositoryError ℕ :=
  if s.activeQuantity poolKey ≤ i64Max then .ok (s.activeQuantity poolKey)
  else .error (.sql .integerOverflow)

/-! ## Matching candidates -/

variable (set allocations : AllocationSet) (requirement : ResourceRequirement)
  (workflowId : WorkflowId)

/-- `candidate_matches_kind_capabilities`. -/
def AllocationCandidate.matchesKindCapabilities : Bool :=
  candidate.kind = requirement.kind &&
    requirement.capabilities.all fun required => required ∈ candidate.capabilities

/-- `candidate_matches_scope`. -/
def AllocationCandidate.matchesScope : RequirementScope → Bool
  | .anywhere => true
  | .region name => candidate.location.bind (·.region) = some name
  | .system name => candidate.location.bind (·.system) = some name
  | .location designation => candidate.location.bind (·.designation) = some designation
  | .withinLy origin rangeLy =>
    match rangeLy.toFinite?,
      (candidate.location.bind fun l => l.distancesLy.lookup origin).bind F64.toFinite? with
    | some range, some distance => 0 ≤ range && 0 ≤ distance && distance ≤ range
    | _, _ => false

/-- `candidate_matches_requirement`. -/
def AllocationCandidate.matchesRequirement : Bool :=
  candidate.matchesKindCapabilities requirement && candidate.matchesScope requirement.scope

/-- Pairs of a dependent requirement and its parent. -/
abbrev Affinities := List (String × String)

def affinityParent (requirementKey : String) (affinities : Affinities) : Option String :=
  affinities.lookup requirementKey

/-- `candidate_matches_affinity`. -/
def AllocationCandidate.matchesAffinity
    (requirementKey : String) (affinities : Affinities) (allocations : AllocationSet) : Bool :=
  match affinityParent requirementKey affinities with
  | none => true
  | some parent => (allocations.get parent).any fun selected =>
    selected.any fun allocation =>
      allocation.resource.identityKey = candidate.resource.identityKey

/-- What every step of one allocation call reads. -/
structure AllocationContext where
  itemId : WorkItemId
  workflowId : WorkflowId
  requirements : List ResourceRequirement
  candidates : List AllocationCandidate
  affinities : Affinities

/-- `i64::try_from` of a requested quantity. -/
def checkRequiredQuantity : Except RepositoryError ℕ :=
  if requirement.quantity ≤ i64Max then .ok requirement.quantity
  else .error (.invalidStoredWorkItemCount "required quantity" i64Max)

/-- `i64::try_from(available_quantity).unwrap_or(i64::MAX)`. -/
def AllocationCandidate.cappedQuantity : ℕ :=
  min candidate.availableQuantity i64Max

/-- A candidate for a dependent requirement on the parent's resource. -/
def Repo.dependentEligible
    (dependent : ResourceRequirement) (quantity : ℕ) (candidateIdentity : String)
    (candidate : AllocationCandidate) : Except RepositoryError Bool := do
  if candidate.resource.identityKey ≠ candidateIdentity ||
      !candidate.matchesRequirement dependent then
    return false
  -- The capacity is the candidate's own; the pool row is not read here.
  let active ← s.activeQuantityIn candidate.resource.json
  if candidate.cappedQuantity < active + quantity then return false
  let identity ← candidate.resource.persistedParts
  return !(identity.ns.isExclusive && (s.physicalClaimConflict identity workflowId).isSome)

/-- One dependent requirement: enough of it is there, or can still be had. -/
def Repo.supportsDependent (candidateIdentity : String) (dependent : ResourceRequirement) :
    Except RepositoryError Bool := do
  -- What the item already holds of the dependent on the same resource counts.
  let existing := (((allocations.get dependent.key).getD []).filter fun allocation =>
    allocation.resource.identityKey = candidateIdentity).length
  if dependent.count ≤ existing then return true
  let quantity ← checkRequiredQuantity dependent
  let eligible ← ctx.candidates.filterM
    (s.dependentEligible ctx.workflowId dependent quantity candidateIdentity)
  return dependent.count - existing ≤ eligible.length

/-- `candidate_supports_affined_dependents`: the first dependent that fails ends the check. -/
def Repo.supportsAffinedDependents (candidate : AllocationCandidate)
    (parent : ResourceRequirement) : Except RepositoryError Bool :=
  (ctx.requirements.filter fun requirement =>
    affinityParent requirement.key ctx.affinities = some parent.key).allM
      (s.supportsDependent ctx allocations candidate.resource.identityKey)

/-! ## Releasing and booking -/

/-- The claim of a released allocation goes, unless an active allocation of the workflow
still names the same resource. -/
def Repo.dropUnusedClaim (resource : ResourceIdentity) : Repo :=
  s.deleteClaims fun c => c.workflowId = workflowId && c.resource = resource &&
    !s.allocations.rows.any fun a =>
      s.ownsItem workflowId a.itemId && a.state = .active && a.resource = resource

variable (identity : ResourceIdentity) (seen : PoolRow) (itemId : WorkItemId) (now : ℤ)

def releaseActiveAllocationIn (allocation : ResourceAllocation) : Tx Unit := do
  let identity ← Tx.check allocation.resource.persistedParts
  Tx.execute (·.setAllocations (fun a => a.id = allocation.id && a.state = .active)
    .released now)
  Tx.when identity.ns.isExclusive (Tx.execute (·.dropUnusedClaim workflowId identity))

/-- The row a candidate observes. -/
def AllocationCandidate.poolRow (quantity : ℕ) : PoolRow where
  poolKey := candidate.resource.json
  resource := identity
  kind := candidate.kind
  capabilities := candidate.capabilities
  location := candidate.location.map AllocationLocation.toJson
  availableQuantity := quantity
  observedRevision := candidate.observedRevision
  observedAtMs := candidate.observedAtMs

/-- The columns an allocation call overwrites with a newer observation. -/
def PoolRow.observe (stored : PoolRow) : PoolRow :=
  { stored with
    kind := seen.kind
    capabilities := seen.capabilities
    location := seen.location
    availableQuantity := seen.availableQuantity
    observedRevision := seen.observedRevision
    observedAtMs := seen.observedAtMs }

/-- The columns a replacement overwrites: it leaves the description alone. -/
def PoolRow.observeQuantity (stored : PoolRow) : PoolRow :=
  { stored with
    availableQuantity := seen.availableQuantity
    observedRevision := seen.observedRevision
    observedAtMs := seen.observedAtMs }

/-- `INSERT .. ON CONFLICT(pool_key) DO UPDATE .. WHERE` the observation is newer. -/
def Repo.upsertPool (merge : PoolRow → PoolRow)
    (hmerge : ∀ p, (merge p).poolKey = p.poolKey) : Repo :=
  match s.pools.find? seen.poolKey with
  | none => s.insertPool seen
  | some stored =>
    if stored.observedRevision < seen.observedRevision then
      s.updatePool seen.poolKey merge hmerge
    else s

/-- The upsert, with the unique index on the resource. -/
def upsertPoolRow (merge : PoolRow → PoolRow)
    (hmerge : ∀ p, (merge p).poolKey = p.poolKey) : Tx Unit := do
  Tx.ensure (¬ (← Tx.query fun s => s.pools.rows.any fun p =>
      p.resource = seen.resource && p.poolKey ≠ seen.poolKey))
    (.sql (.uniqueConstraint "workflow_resource_pools"))
  Tx.execute (·.upsertPool seen merge hmerge)

/-- The observation of one candidate by an allocation call. -/
def observeCandidate : Tx Unit := do
  let identity ← Tx.check candidate.resource.persistedParts
  revisionToSql candidate.observedRevision
  Tx.ensure (candidate.availableQuantity ≤ i64Max)
    (.invalidStoredWorkItemCount "available quantity" i64Max)
  let seen := candidate.poolRow identity candidate.availableQuantity
  upsertPoolRow seen seen.observe fun _ => rfl

/-- `INSERT .. ON CONFLICT DO UPDATE SET updated_at` where the owner is the same. -/
def Repo.upsertClaim (row : ClaimRow) : Repo :=
  if s.claims.hasKey row.resource then
    { s with
      claims := s.claims.update
        (fun c => c.resource = row.resource && c.workflowId = row.workflowId)
        (fun c => { c with updatedAt := row.updatedAt }) fun _ => rfl }
  else s.insertClaim row

/-- The claim that goes with an allocation of an exclusive resource. -/
def Repo.claimFor (resource : ResourceIdentity) (workflowId : WorkflowId) (now : ℤ) : Repo :=
  if resource.ns.isExclusive then s.upsertClaim ⟨resource, workflowId, now, now⟩ else s

/-- Book one candidate for a requirement, with its claim. -/
def bookCandidate (candidate : AllocationCandidate) (identity : ResourceIdentity) (quantity : ℕ) :
    Tx ResourceAllocation := do
  let id ← drawUuid u
  insertAllocationRow
    { id, itemId := ctx.itemId, requirementKey := requirement.key,
      poolKey := candidate.resource.json, resource := identity, quantity, state := .active,
      createdAtMs := candidate.observedAtMs, updatedAtMs := candidate.observedAtMs }
  Tx.execute (·.claimFor identity ctx.workflowId candidate.observedAtMs)
  pure ⟨id, requirement.key, candidate.resource, requirement.quantity, .active⟩

/-! ## Judging candidates -/

/-- Why a loop passes over a candidate, or the identity under which it takes it. -/
inductive CandidateVerdict where
  | kindRejected | scopeRejected | affinityRejected | dependentAffinityRejected
  | deadRejected | capacityRejected | assignmentRejected | claimRejected
  | admitted (identity : ResourceIdentity)
deriving DecidableEq

/-- The checks after the capacity check: no worker runs on the replicant, and no other
workflow has a claim on the exclusive resource. -/
def Repo.judgeCustody : CandidateVerdict :=
  if identity.ns = .replicant && s.hasActiveAssignment identity then .assignmentRejected
  else if identity.ns.isExclusive && (s.physicalClaimConflict identity workflowId).isSome then
    .claimRejected
  else .admitted identity

/-- The checks that come first, for an allocation and for a replacement. -/
def Repo.judgeMatches (candidate : AllocationCandidate)
    (rest : Except RepositoryError CandidateVerdict) : Except RepositoryError CandidateVerdict := do
  if !candidate.matchesKindCapabilities requirement then return .kindRejected
  if !candidate.matchesScope requirement.scope then return .scopeRejected
  if !candidate.matchesAffinity requirement.key ctx.affinities allocations then
    return .affinityRejected
  if !(← s.supportsAffinedDependents ctx allocations candidate requirement) then
    return .dependentAffinityRejected
  rest

/-- The checks an allocation makes of one candidate, in its order. The capacity is that of
the stored pool. -/
def Repo.judgeCandidate (candidate : AllocationCandidate) :
    Except RepositoryError CandidateVerdict := s.judgeMatches ctx allocations requirement candidate do
  let active ← s.activeQuantityIn candidate.resource.json
  -- Every candidate was observed before the loop, so its pool has a row.
  let available ← match s.pools.find? candidate.resource.json with
    | some pool => .ok pool.availableQuantity
    | none => .error (.sql .noRows)
  let quantity ← checkRequiredQuantity requirement
  if available < active + quantity then return .capacityRejected
  let identity ← candidate.resource.persistedParts
  return s.judgeCustody ctx.workflowId identity

/-- The checks a replacement makes of one candidate, in its order. The capacity is the one
the candidate itself carries. -/
def Repo.judgeReplacement (dead : ResourceIdentity) (quantity : ℕ)
    (candidate : AllocationCandidate) : Except RepositoryError CandidateVerdict :=
  s.judgeMatches ctx allocations requirement candidate do
  let identity ← candidate.resource.persistedParts
  -- The dead resource is no replacement for itself, whatever it reports.
  if identity = dead then return .deadRejected
  let active ← s.activeQuantityIn candidate.resource.json
  if candidate.cappedQuantity < active + quantity then return .capacityRejected
  return s.judgeCustody ctx.workflowId identity

/-- The candidate is of the kind and in the scope. -/
def AllocationShortageDiagnostics.matched (d : AllocationShortageDiagnostics) :
    AllocationShortageDiagnostics :=
  { d with kindMatches := d.kindMatches + 1, scopeMatches := d.scopeMatches + 1 }

/-- The counters of the shortage diagnostics. -/
def AllocationShortageDiagnostics.record (d : AllocationShortageDiagnostics) :
    CandidateVerdict → AllocationShortageDiagnostics
  | .kindRejected => d
  | .scopeRejected =>
    { d with kindMatches := d.kindMatches + 1, scopeRejected := d.scopeRejected + 1 }
  | .affinityRejected => { d.matched with affinityRejected := d.affinityRejected + 1 }
  | .dependentAffinityRejected =>
    { d.matched with dependentAffinityRejected := d.dependentAffinityRejected + 1 }
  | .capacityRejected => { d.matched with capacityRejected := d.capacityRejected + 1 }
  | .assignmentRejected => { d.matched with assignmentRejected := d.assignmentRejected + 1 }
  | .claimRejected => { d.matched with claimRejected := d.claimRejected + 1 }
  | .admitted _ | .deadRejected => d.matched

/-! ## Allocating requirements -/

/-- `sort_by(resource_sort_key)`, which is stable. -/
def orderCandidates (candidates : List AllocationCandidate) : List AllocationCandidate :=
  candidates.insertionSort fun a b => a.resource.json ≤ b.resource.json

/-- Keep the allocations that are still usable and release the others. -/
def retainAllocations (workflowId : WorkflowId) (now : ℤ)
    (usable : Repo → ResourceAllocation → Except RepositoryError Bool) :
    List ResourceAllocation → Tx (List ResourceAllocation)
  | [] => pure []
  | allocation :: rest => do
    match ← Tx.queryM fun s => usable s allocation with
    | true => do
      let retained ← retainAllocations workflowId now usable rest
      pure (allocation :: retained)
    | false => do
      releaseActiveAllocationIn workflowId now allocation
      retainAllocations workflowId now usable rest

/-- A held parent is usable while its candidate is offered, fits the requirement, and its
dependents still fit beside it. -/
def AllocationContext.parentUsable (s : Repo) (allocation : ResourceAllocation) :
    Except RepositoryError Bool :=
  match ctx.candidates.find? fun candidate => candidate.resource = allocation.resource with
  | some candidate =>
    if candidate.matchesRequirement requirement then
      s.supportsAffinedDependents ctx set candidate requirement
    else .ok false
  | none => .ok false

/-- A held dependent is usable while its parent is on the same resource and a candidate
that fits the requirement offers it. -/
def AllocationContext.dependentUsable (parent : String) (_ : Repo)
    (allocation : ResourceAllocation) : Except RepositoryError Bool :=
  let allowed := ((set.get parent).getD []).map fun held => held.resource.identityKey
  .ok (allocation.resource.identityKey ∈ allowed ∧ ctx.candidates.any fun candidate =>
    candidate.resource = allocation.resource && candidate.matchesRequirement requirement)

/-- The candidate loop of one requirement: it ends when enough are selected. -/
def selectCandidates (u : IdSource) (ctx : AllocationContext) (set : AllocationSet)
    (requirement : ResourceRequirement) :
    List AllocationCandidate → List ResourceAllocation → AllocationShortageDiagnostics →
      Tx (List ResourceAllocation × AllocationShortageDiagnostics)
  | [], selected, diagnostics => pure (selected, diagnostics)
  | candidate :: rest, selected, diagnostics =>
    if requirement.count ≤ selected.length then pure (selected, diagnostics)
    else do
      match ← Tx.queryM fun s => s.judgeCandidate ctx set requirement candidate with
      | .admitted identity => do
        let allocation ←
          bookCandidate u ctx requirement candidate identity requirement.quantity
        selectCandidates u ctx set requirement rest (selected ++ [allocation])
          (diagnostics.record (.admitted identity))
      | verdict =>
        selectCandidates u ctx set requirement rest selected (diagnostics.record verdict)

/-- A requirement that others depend on keeps the held parents that are usable. -/
def retainAsParent (set : AllocationSet)
    (requirement : ResourceRequirement) (held : List ResourceAllocation) :
    Tx (List ResourceAllocation) :=
  if ctx.affinities.any fun pair => pair.2 = requirement.key then
    retainAllocations ctx.workflowId now (ctx.parentUsable set requirement) held
  else pure held

/-- A requirement that depends on another keeps the held dependents that are usable. -/
def retainAsDependent (set : AllocationSet)
    (requirement : ResourceRequirement) (held : List ResourceAllocation) :
    Tx (List ResourceAllocation) :=
  match affinityParent requirement.key ctx.affinities with
  | some parent =>
    retainAllocations ctx.workflowId now (ctx.dependentUsable set requirement parent) held
  | none => pure held

/-- What is kept of the allocations a requirement already has. -/
def retainForRequirement (set : AllocationSet)
    (requirement : ResourceRequirement) (held : List ResourceAllocation) :
    Tx (List ResourceAllocation) := do
  let asParent ← retainAsParent ctx now set requirement held
  retainAsDependent ctx now set requirement asParent

/-- One requirement of an allocation call. -/
def allocateRequirement
    (set : AllocationSet) (requirement : ResourceRequirement) : Tx AllocationSet := do
  let held := (set.get requirement.key).getD []
  -- The allocations of the requirement are taken out while they are recomputed.
  let others := set.remove requirement.key
  let retained ← retainForRequirement ctx now others requirement held
  let (selected, diagnostics) ←
    selectCandidates u ctx others requirement ctx.candidates retained {}
  Tx.ensure (requirement.count ≤ selected.length)
    (.allocationShortage requirement.key (requirement.count - selected.length)
      (.diagnosed diagnostics))
  pure (others.insert requirement.key selected)

/-- Release what an item holds under a requirement key that is ignored now. -/
def releaseIgnored (set : AllocationSet) (key : String) : Tx AllocationSet := do
  forM ((set.get key).getD []) (releaseActiveAllocationIn workflowId now)
  pure (set.remove key)

def allocateRequirementsWithPolicy (expectedRevision : ℕ)
    (candidates : List AllocationCandidate) (affinities : Affinities)
    (ignoredRequirementKeys : List String) : Tx AllocationSet := do
  let item ← requireWorkItem itemId
  verifyWorkItemRevision item expectedRevision
  let owner ← requireWorkflow item.spec.workflowId
  Tx.ensure (owner.status.isTerminal = false ∧ item.state.status.isTerminal = false)
    (.terminalWorkItemOwner item.spec.workflowId)
  let stored ← Tx.require item.spec.requirementsJson.decoded .serialization
  let held ← Tx.query (·.listActiveAllocations itemId)
  -- Ignored requirements give up what they hold before anything is observed.
  let set ← (ignoredRequirementKeys.dedup.insertionSort fun a b => a ≤ b).foldlM
    (releaseIgnored item.spec.workflowId item.state.updatedAtMs) held
  let requirements := stored.filter fun requirement => requirement.key ∉ ignoredRequirementKeys
  let ordered := orderCandidates candidates
  -- All observations are written before the first requirement is served.
  forM ordered observeCandidate
  let ctx : AllocationContext :=
    ⟨itemId, item.spec.workflowId, requirements, ordered, affinities⟩
  requirements.foldlM (allocateRequirement u ctx item.state.updatedAtMs) set

/-! ## Replacing a dead allocation -/

inductive ReplacementOutcome where
  | replaced (allocation : ResourceAllocation)
  | waiting
  | unavailable

/-- The replacement loop: the first candidate that is admitted, and whether any candidate
up to it was of the right kind. -/
def findReplacement (judge : AllocationCandidate → Except RepositoryError CandidateVerdict) :
    List AllocationCandidate → Bool →
      Except RepositoryError (Bool × Option (AllocationCandidate × ResourceIdentity))
  | [], eligibleOwned => .ok (eligibleOwned, none)
  | candidate :: rest, eligibleOwned =>
    match judge candidate with
    | .error e => .error e
    | .ok (.admitted identity) => .ok (true, some (candidate, identity))
    | .ok .kindRejected => findReplacement judge rest eligibleOwned
    -- of the right kind, but busy or out of reach: worth waiting for
    | .ok _ => findReplacement judge rest true

/-- Book the replacement: the claim is a plain insert here. -/
def bookReplacement (dead : AllocationRow) (now : ℤ)
    (candidate : AllocationCandidate) (identity : ResourceIdentity) :
    Tx ReplacementOutcome := do
  revisionToSql candidate.observedRevision
  let seen := candidate.poolRow identity candidate.cappedQuantity
  upsertPoolRow seen seen.observeQuantity fun _ => rfl
  let id ← drawUuid u
  insertAllocationRow
    { id, itemId := dead.itemId, requirementKey := dead.requirementKey,
      poolKey := candidate.resource.json, resource := identity, quantity := dead.quantity,
      state := .active, createdAtMs := now, updatedAtMs := now }
  -- Not an upsert: a claim row that is still there is an error.
  Tx.when identity.ns.isExclusive (insertClaimRow ⟨identity, workflowId, now, now⟩)
  pure (.replaced ⟨id, dead.requirementKey, candidate.resource, dead.quantity, .active⟩)

/-- Mark the allocation dead and give up its claim. -/
def Repo.killAllocation (dead : AllocationRow) (workflowId : WorkflowId) (now : ℤ) : Repo :=
  let marked := s.setAllocations (fun a => a.id = dead.id) .dead now
  if dead.resource.ns.isExclusive then
    marked.deleteClaims fun c => c.resource = dead.resource && c.workflowId = workflowId
  else marked

/-- The context of the replacement loop. -/
def replacementContext (item : WorkItem) (requirements : List ResourceRequirement)
    (candidates : List AllocationCandidate) (affinities : Affinities) : AllocationContext :=
  ⟨item.id, item.spec.workflowId, requirements, orderCandidates candidates, affinities⟩

def replaceDeadAllocationWithAffinity
    (allocationId : AllocationId) (candidates : List AllocationCandidate) (now : ℤ)
    (affinities : Affinities) : Tx ReplacementOutcome := do
  let item ← requireWorkItem itemId
  let dead ← Tx.require (← Tx.query fun s => s.allocations.rows.find? fun a =>
    a.id = allocationId && a.itemId = itemId && a.state = .active) (.workItemNotFound itemId)
  let requirements ← Tx.require item.spec.requirementsJson.decoded .serialization
  let requirement ← Tx.require (requirements.find? fun r => r.key = dead.requirementKey)
    (.allocationShortage dead.requirementKey 1 .requirementGone)
  -- Marked dead first: neither its quantity nor its claim stands in the way.
  Tx.execute (·.killAllocation dead item.spec.workflowId now)
  let ctx := replacementContext item requirements candidates affinities
  let (eligibleOwned, found) ← Tx.queryM fun s =>
    findReplacement (s.judgeReplacement ctx (s.listActiveAllocations itemId) requirement
      dead.resource dead.quantity) ctx.candidates false
  match found with
  | some (candidate, identity) =>
    bookReplacement u item.spec.workflowId dead now candidate identity
  | none =>
    if eligibleOwned then pure .waiting
    else do
      -- No candidate is even of the right kind: the item fails in this transaction.
      transitionWorkItemIn item (.failed "ReplacementUnavailable" none) now
      pure .unavailable

/-! ## Assignments -/

def assignWorkItem (expectedRevision : ℕ) (assignmentId : String)
    (worker : ResourceKey) (now : ℤ) : Tx Unit := do
  Tx.ensure (assignmentId ≠ "") (.invalidWorkItemAssignment "assignment_id must not be empty")
  let identity ← Tx.check worker.persistedParts
  let item ← requireWorkItem itemId
  verifyWorkItemRevision item expectedRevision
  Tx.ensure (item.state.status = .assigned)
    (.invalidWorkItemTransition item.state.status .assigned)
  insertAssignmentRow ⟨assignmentId, itemId, identity, .active, none, now, now⟩

def requestWorkItemReclaim : Tx Bool := do
  let held (a : AssignmentRow) : Bool := a.itemId = itemId && a.state = .active
  let changed ← Tx.query fun s => s.assignments.rows.any held
  Tx.execute (·.setAssignments held .reclaimRequested (some now) now)
  pure changed

end Replicant.Workflow
