import Replicant.Workflow.Store

/-!
# Resource claims

The operations that insert, re-own and delete claim rows directly: acquisition, the
handoff between a parent and its child, release, and the startup reconciliation.
-/

namespace Replicant.Workflow

open Lib

structure ResourceClaim where
  resource : ResourceKey
  workflowId : WorkflowId
  acquiredAt : ℤ
  updatedAt : ℤ

inductive ClaimAcquireOutcome where
  | acquired (claim : ResourceClaim)
  | alreadyOwned (claim : ResourceClaim)

/-- The owner of the first claim row another workflow holds on the wanted resource. -/
def Repo.physicalClaimConflict (s : Repo) (wanted : ResourceIdentity)
    (workflowId : WorkflowId) : Option WorkflowId :=
  (s.claims.rows.find? fun c => wanted.matches c.resource && c.workflowId ≠ workflowId).map
    (·.workflowId)

variable (workflowId : WorkflowId)

/-- The read of the owner that acquisition and reconciliation start with. -/
def requireClaimOwner : Tx Unit := do
  let owner ← requireWorkflow workflowId
  Tx.ensure (owner.status.isTerminal = false) (.terminalClaimOwner workflowId)

variable (source dest : WorkflowId) (resources : List ResourceKey) (now : ℤ)

variable (resource : ResourceKey)

def acquireClaimIn : Tx ClaimAcquireOutcome := do
  let wanted ← Tx.check resource.persistedParts
  Tx.reject (← Tx.query (·.physicalClaimConflict wanted workflowId)) (.claimConflict resource)
  -- The row found first may be another spelling of the resource.
  match ← Tx.query fun s => s.claims.rows.find? fun c => wanted.matches c.resource with
  | some existing => do
    Tx.ensure (existing.workflowId = workflowId) (.claimConflict resource existing.workflowId)
    Tx.execute (·.touchClaim existing.resource now)
    pure (.alreadyOwned ⟨resource, workflowId, existing.acquiredAt, now⟩)
  | none => do
    insertClaimRow ⟨wanted, workflowId, now, now⟩
    pure (.acquired ⟨resource, workflowId, now, now⟩)

/-- `acquire_claims`; `acquire_claim` is the call with one resource. -/
def acquireClaims : Tx (List ClaimAcquireOutcome) := do
  requireClaimOwner workflowId
  resources.mapM (acquireClaimIn workflowId now)

/-- The key under which a free reserve resource is counted. -/
def ResourceIdentity.reserveKey (i : ResourceIdentity) : Namespace × List Char :=
  (i.ns, if i.ns.isExclusive then i.key.toList.map Char.toUpper else i.key.toList)

/-- The free resources of a reserve: neither the wanted one nor claimed by anyone. -/
def Repo.availableReserve (s : Repo) (wanted : ResourceIdentity)
    (reserve : List ResourceIdentity) : List (Namespace × List Char) :=
  ((reserve.filter fun candidate =>
    !candidate.matches wanted && !s.claims.rows.any fun c => candidate.matches c.resource).map
    ResourceIdentity.reserveKey).dedup

/-- The reserve check: enough resources stay free of claims. -/
def requireReserve (wanted : ResourceIdentity) (reserve : List ResourceKey) (minimum : ℕ) :
    Tx Unit := do
  let candidates ← Tx.check (reserve.mapM ResourceKey.persistedParts)
  let available ← Tx.query (·.availableReserve wanted candidates)
  Tx.ensure (minimum ≤ available.length) (.reserveUnavailable minimum)

def acquireClaimPreservingReserve
    (reserve : List ResourceKey) (minimum : ℕ) (now : ℤ) : Tx ClaimAcquireOutcome := do
  let wanted ← Tx.check resource.persistedParts
  requireClaimOwner workflowId
  Tx.reject (← Tx.query (·.physicalClaimConflict wanted workflowId)) (.claimConflict resource)
  Tx.when (0 < minimum) (requireReserve wanted reserve minimum)
  -- Unlike `acquireClaimIn`, only the exact spelling counts as the claim itself.
  match ← Tx.query fun s => s.claims.find? wanted with
  | some existing => do
    Tx.ensure (existing.workflowId = workflowId) (.claimConflict resource existing.workflowId)
    Tx.execute (·.touchClaim wanted now)
    pure (.alreadyOwned ⟨resource, workflowId, existing.acquiredAt, now⟩)
  | none => do
    insertClaimRow ⟨wanted, workflowId, now, now⟩
    pure (.acquired ⟨resource, workflowId, now, now⟩)

/-- One resource of `transfer_claims_in`. -/
def transferClaimIn :
    Tx Unit := do
  let wanted ← Tx.check resource.persistedParts
  let owners ← Tx.query fun s =>
    (s.claims.rows.filter fun c => wanted.matches c.resource).map (·.workflowId)
  Tx.reject (owners.find? fun owner => owner ≠ source && owner ≠ dest) (.claimConflict resource)
  -- A repeated handoff finds the destination as the only owner.
  if dest ∈ owners ∧ source ∉ owners then pure ()
  else do
    Tx.ensure (source ∈ owners) (.compatibility "claim handoff requires source custody")
    Tx.ensure (¬ (← Tx.query fun s => s.allocations.rows.any fun a =>
        wanted.matches a.resource && a.state = .active))
      (.compatibility "allocated resources cannot be handed off as direct claims")
    Tx.execute (·.moveClaims source dest wanted now)

def transferClaimsIn :
    Tx Unit := do
  let sourceRow ← requireWorkflow source
  let destRow ← requireWorkflow dest
  Tx.ensure (destRow.status.isTerminal = false) (.terminalClaimOwner dest)
  Tx.ensure (sourceRow.parentId = some dest ∨ destRow.parentId = some source)
    (.compatibility "claim handoff requires a direct parent-child relationship")
  forM resources (transferClaimIn source dest now)

def transferClaims :
    Tx Unit :=
  transferClaimsIn source dest resources now

def releaseClaim : Tx Bool := do
  let wanted ← Tx.check resource.persistedParts
  let owned (c : ClaimRow) : Bool := c.resource = wanted && c.workflowId = workflowId
  let released ← Tx.query fun s => s.claims.rows.any owned
  Tx.execute (·.deleteClaims owned)
  pure released

def releaseClaims : Tx ℕ := do
  let released ← Tx.query fun s => s.claims.rows.countP (·.workflowId = workflowId)
  Tx.execute (·.deleteClaims (·.workflowId = workflowId))
  pure released

/-- The owner of a claim is missing or terminal. -/
def Repo.isStaleClaim (s : Repo) (c : ClaimRow) : Bool :=
  !s.workflows.rows.any fun w => w.id = c.workflowId && !w.status.isTerminal

def reconcileClaims : Tx ℕ := do
  let released ← Tx.query fun s => s.claims.rows.countP s.isStaleClaim
  Tx.execute fun s => s.deleteClaims s.isStaleClaim
  pure released

end Replicant.Workflow
