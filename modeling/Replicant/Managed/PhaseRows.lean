import Replicant.Lib.Binary64
import Replicant.Managed.Projection
import Replicant.Managed.Refresh

/-!
# Phases of a refresh run

The row that the store keeps for a phase, and the finalizer of the device phase. What a full
enumeration did not return is removed, but a large loss has to be approved first: the approval is
bound to a digest of the enumeration, a SHA-256 hash that is left open here.
-/

namespace Replicant.Managed

open Lib

/-- `RefreshDelta`, and the columns it is added to. -/
structure RefreshDelta where
  proposedInserts : ℕ
  proposedUpdates : ℕ
  proposedTombstones : ℕ
  appliedInserts : ℕ
  appliedUpdates : ℕ
  appliedTombstones : ℕ
deriving DecidableEq

/-- A row of `refresh_phase_checkpoints`; `γ` is what the phase writes as its checkpoint. -/
structure PhaseRow (γ Digest : Type) where
  status : RefreshPhaseState
  checkpoint : γ
  pages : ℕ
  items : ℕ
  enumerationComplete : Bool
  unfiltered : Bool
  startedAt : Option ℤ
  approvalDigest : Option Digest
  approvedAt : Option ℤ
  localCount : ℕ
  upstreamCount : ℕ
  counts : RefreshDelta
deriving DecidableEq

namespace PhaseRow

variable {γ Digest : Type}

/-- The row of a new run. -/
def init (checkpoint : γ) : PhaseRow γ Digest :=
  ⟨.pending, checkpoint, 0, 0, false, false, none, none, none, 0, 0, ⟨0, 0, 0, 0, 0, 0⟩⟩

/-- What `begin_refresh_phase` does: the start of the phase is kept. -/
def begin (now : ℤ) (row : PhaseRow γ Digest) : PhaseRow γ Digest :=
  { row with status := .running, startedAt := row.startedAt.or (some now) }

/-- What `update_refresh_checkpoint` does. -/
def record (checkpoint : γ) (pages items : ℕ) (complete unfiltered : Bool)
    (row : PhaseRow γ Digest) : PhaseRow γ Digest :=
  { row with checkpoint, pages, items, enumerationComplete := complete, unfiltered }

end PhaseRow

/-! ## Removing devices -/

/-- A row of `tombstones` for a live device. -/
structure DeviceTombstone (Digest : Type) where
  itemId : String
  evidence : Digest
deriving DecidableEq

/-- What the finalizer reads and writes. -/
structure DeviceRecords (γ Digest : Type) where
  phase : PhaseRow γ Digest
  devices : Table DeviceRow DeviceRow.key
  tombstones : Table (DeviceTombstone Digest) DeviceTombstone.itemId

/-- The device is live, owned and reachable. -/
def DeviceRow.isRefreshable (row : DeviceRow) : Bool :=
  row.key.realm = .live && ProjectionStore.isEligible row

/-- The enumeration should have returned the device, and did not. -/
def DeviceRow.isMissing (started : ℤ) (seen : Finset String) (row : DeviceRow) : Bool :=
  row.isRefreshable && row.observedAt ≤ started && row.key.id ∉ seen

/-- `shrink > 0.20`. -/
def exceedsGuard (missing eligible : ℕ) : Bool :=
  if eligible = 0 then false
  else Binary64.round (1 / 5) < Binary64.div (Binary64.ofNat missing) (Binary64.ofNat eligible)

variable {γ Digest : Type} [DecidableEq Digest]

def finalizeRefreshDevices (removalDigest : ℤ → Finset String → Digest) (mode : RefreshMode)
    (seen : Finset String) (r : DeviceRecords γ Digest) :
    Except StoreError (DeviceRecords γ Digest) :=
  if ¬ (r.phase.enumerationComplete ∧ r.phase.unfiltered) then
    .error (.refresh "device absence finalizer requires terminal unfiltered proof")
  else
    match r.phase.startedAt with
    | none => .error (.refresh "device refresh phase watermark is missing")
    | some started =>
      let eligible := r.devices.rows.countP DeviceRow.isRefreshable
      let missing := (r.devices.rows.filter (DeviceRow.isMissing started seen)).map (·.key.id)
      if seen = ∅ ∧ eligible > 0 then
        .error (.refresh "empty device enumeration cannot remove non-empty local state")
      else
        let digest := removalDigest started seen
        if r.phase.approvalDigest.any (· ≠ digest) ∧ r.phase.approvedAt.isSome then
          .error (.refresh "approved device refresh digest became stale")
        else
          let phase := { r.phase with
            localCount := eligible
            upstreamCount := seen.card
            approvalDigest := some digest
            counts := { r.phase.counts with proposedTombstones := missing.length } }
          if mode = .dryRun then .ok { r with phase }
          else if exceedsGuard missing.length eligible ∧ phase.approvedAt = none then
            .ok { r with phase := { phase with status := .awaitingApproval } }
          else
            .ok
              { phase := { phase with
                  counts := { phase.counts with appliedTombstones := missing.length } }
                devices := r.devices.delete fun row =>
                  row.key.realm = .live && row.key.id ∈ missing && row.observedAt ≤ started
                tombstones := missing.foldl (fun t id => t.put ⟨id, digest⟩) r.tombstones }

end Replicant.Managed
