import Replicant.Workflow.Store

/-!
# Targets, reservations and the intelligence revision

The structured targets of workflows, and the projections a daemon shows: the active reservations and
the active targets. Triggers count the intelligence revision up, the watermark of both.
-/

namespace Replicant.Workflow

open Lib

/-! ## Targets -/

structure WorkflowTargetRecord where
  workflowId : WorkflowId
  target : WorkflowTarget
  active : Bool
  createdAtMs : ℤ
  updatedAtMs : ℤ
deriving DecidableEq

def TargetRow.record (t : TargetRow) : WorkflowTargetRecord :=
  ⟨t.workflowId, t.target, t.active, t.createdAtMs, t.updatedAtMs⟩

/-- `ORDER BY updated_at_ms DESC, target_kind, target_key, workflow_id`. -/
def TargetRow.listLe (a b : TargetRow) : Prop :=
  b.updatedAtMs < a.updatedAtMs ∨ (a.updatedAtMs = b.updatedAtMs ∧
    (a.targetKind < b.targetKind ∨ (a.targetKind = b.targetKind ∧
      (a.targetKey < b.targetKey ∨ (a.targetKey = b.targetKey ∧ a.workflowId ≤ b.workflowId)))))

instance : DecidableRel TargetRow.listLe := fun _ _ =>
  inferInstanceAs (Decidable (_ ∨ (_ ∧ (_ ∨ (_ ∧ (_ ∨ (_ ∧ _)))))))

variable (s : Repo) (workflowId : WorkflowId)

/-- The rows of `workflow_targets_in`: a target joins its workflow, and counts as active
only while that is not terminal. -/
def Repo.showsTarget (workflowId : Option WorkflowId) (activeOnly : Bool) (t : TargetRow) : Bool :=
  s.workflows.rows.any fun w => w.id = t.workflowId &&
    workflowId.all (fun id => t.workflowId = id) &&
    (!activeOnly || (t.active && !w.status.isTerminal))

def Repo.workflowTargetsIn (workflowId : Option WorkflowId) (activeOnly : Bool) :
    List WorkflowTargetRecord :=
  ((s.targets.rows.filter (s.showsTarget workflowId activeOnly)).insertionSort
    TargetRow.listLe).map TargetRow.record

def Repo.activeWorkflowTargets : List WorkflowTargetRecord :=
  s.workflowTargetsIn none true

/-- `INSERT .. ON CONFLICT DO UPDATE` where the target differs or is released. -/
def Repo.upsertTarget (target : WorkflowTarget) (now : ℤ) : Repo :=
  let row : TargetRow := ⟨workflowId, target.kind, target.key, target, true, now, now⟩
  match s.targets.find? row.identity with
  | none => s.insertTarget row
  | some stored =>
    if stored.target ≠ target ∨ stored.active = false then
      s.updateTargets (fun t => t.identity = row.identity)
        (fun t => { t with target := target, active := true, updatedAtMs := now }) fun _ => rfl
    else s

/-- `SET state = 'released'` on one active target. -/
def Repo.releaseTarget (kind key : String) (now : ℤ) : Repo :=
  s.updateTargets (fun t => t.identity = (workflowId, kind, key) && t.active)
    (fun t => { t with active := false, updatedAtMs := now }) fun _ => rfl

/-- One target of `record_workflow_targets`. -/
def recordTarget (now : ℤ) (target : WorkflowTarget) : Tx Unit := do
  Tx.check (validateTargetParts target.kind target.key)
  Tx.execute (·.upsertTarget workflowId target now)

def recordWorkflowTargets (targets : List WorkflowTarget) (now : ℤ) :
    Tx (List WorkflowTargetRecord) := do
  let _ ← requireWorkflow workflowId
  forM targets (recordTarget workflowId now)
  Tx.query (·.workflowTargetsIn (some workflowId) false)

/-- Release one record of the old target set that the new one does not have. -/
def releaseRecord (now : ℤ) (record : WorkflowTargetRecord) : Tx Unit :=
  Tx.execute (·.releaseTarget workflowId record.target.kind record.target.key now)

def replaceWorkflowTargets (targets : List WorkflowTarget)
    (now : ℤ) : Tx (List WorkflowTargetRecord) := do
  let _ ← requireWorkflow workflowId
  forM targets fun target => Tx.check (validateTargetParts target.kind target.key)
  let existing ← Tx.query (·.workflowTargetsIn (some workflowId) false)
  let stale (record : WorkflowTargetRecord) : Bool := record.active &&
    !targets.any fun t => t.kind = record.target.kind && t.key = record.target.key
  forM (existing.filter stale) (releaseRecord workflowId now)
  forM targets fun target => Tx.execute (·.upsertTarget workflowId target now)
  Tx.query (·.workflowTargetsIn (some workflowId) false)

/-! ## Reservations -/

structure ResourceReservation where
  allocationId : AllocationId
  workflowId : WorkflowId
  itemId : WorkItemId
  requirementKey : String
  resource : ResourceKey
  kind : String
  capabilities : List String
  location : Option (AllocationLocation F64)
  quantity : ℕ
  createdAtMs : ℤ
  updatedAtMs : ℤ

/-- A stored location as serde reads it back: a distance that is `null` is an error. -/
def AllocationLocation.ofJson (l : AllocationLocation (Option ℚ)) :
    Except RepositoryError (AllocationLocation F64) :=
  (l.distancesLy.mapM fun (d : String × Option ℚ) =>
    match d.2 with
    | some value => Except.ok (d.1, F64.finite value)
    | none => Except.error RepositoryError.serialization).map fun distances =>
      ⟨l.region, l.system, l.designation, distances⟩

/-- One row of the reservation join. -/
structure ReservationRow where
  allocation : AllocationRow
  workflowId : WorkflowId
  kind : String
  capabilities : List String
  location : Option (AllocationLocation (Option ℚ))

/-- The join of an active allocation with its item, workflow and pool, when neither the
item nor the workflow is terminal. -/
def Repo.reservationRow? (workflowId : Option WorkflowId) (a : AllocationRow) :
    Option ReservationRow :=
  if a.state = .active then
    (s.items.find? a.itemId).bind fun item =>
      (s.workflows.find? item.spec.workflowId).bind fun workflow =>
        (s.pools.find? a.poolKey).bind fun pool =>
          if !item.state.status.isTerminal && !workflow.status.isTerminal &&
              workflowId.all (fun id => item.spec.workflowId = id) then
            some ⟨a, item.spec.workflowId, pool.kind, pool.capabilities, pool.location⟩
          else none
  else none

/-- `ORDER BY workflow_id, item_id, requirement_key, id`. -/
def ReservationRow.listLe (a b : ReservationRow) : Prop :=
  a.workflowId < b.workflowId ∨ (a.workflowId = b.workflowId ∧
    (a.allocation.itemId < b.allocation.itemId ∨ (a.allocation.itemId = b.allocation.itemId ∧
      (a.allocation.requirementKey < b.allocation.requirementKey ∨
        (a.allocation.requirementKey = b.allocation.requirementKey ∧
          a.allocation.id ≤ b.allocation.id)))))

instance : DecidableRel ReservationRow.listLe := fun _ _ =>
  inferInstanceAs (Decidable (_ ∨ (_ ∧ (_ ∨ (_ ∧ (_ ∨ (_ ∧ _)))))))

def ReservationRow.decode (r : ReservationRow) : Except RepositoryError ResourceReservation := do
  let location ← match r.location with
    | none => .ok none
    | some l => (AllocationLocation.ofJson l).map some
  return {
    allocationId := r.allocation.id
    workflowId := r.workflowId
    itemId := r.allocation.itemId
    requirementKey := r.allocation.requirementKey
    resource := r.allocation.resource.resource
    kind := r.kind
    capabilities := r.capabilities
    location := location
    quantity := r.allocation.quantity
    createdAtMs := r.allocation.createdAtMs
    updatedAtMs := r.allocation.updatedAtMs }

def Repo.resourceReservationsIn (workflowId : Option WorkflowId) :
    Except RepositoryError (List ResourceReservation) :=
  ((s.allocations.rows.filterMap (s.reservationRow? workflowId)).insertionSort
    ReservationRow.listLe).mapM ReservationRow.decode

def Repo.activeResourceReservations : Except RepositoryError (List ResourceReservation) :=
  s.resourceReservationsIn none

def Repo.workflowIntelligenceRevision : ℕ := s.intelligenceRevision

end Replicant.Workflow
