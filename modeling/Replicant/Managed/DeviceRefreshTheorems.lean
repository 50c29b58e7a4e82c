import Replicant.Managed.DeviceRefresh
import Replicant.Managed.ReopenTheorems

/-!
# Devices are removed under guard

The approval is bound to the digest of an enumeration. The staged keys cover what the pages of the
run returned, or, after a failed run that an approval queues again, the approved enumeration does. So
the finalizer never removes a device that was staged.
-/

namespace Replicant.Managed

open Lib List DeviceRefresh DeviceWorker

variable {seen : Finset String} {row : DeviceRow} {started : ℤ} {mode : RefreshMode}

/-! ## The finalizer -/

section Finalizer

variable {γ Digest : Type} [DecidableEq Digest] {removalDigest : ℤ → Finset String → Digest}
  {r r' : DeviceRecords γ Digest}

/-- The ids that the finalizer removes. -/
def DeviceRecords.missing (started : ℤ) (seen : Finset String) (r : DeviceRecords γ Digest) :
    List String :=
  (r.devices.rows.filter (DeviceRow.isMissing started seen)).map (·.key.id)

/-- What the finalizer does when it succeeds. -/
structure Finalizes (removalDigest : ℤ → Finset String → Digest) (mode : RefreshMode)
    (seen : Finset String) (started : ℤ) (r r' : DeviceRecords γ Digest) : Prop where
  startedAt : r.phase.startedAt = some started ∧ r'.phase.startedAt = some started
  digest : r'.phase.approvalDigest = some (removalDigest started seen)
  approvedAt : r'.phase.approvedAt = r.phase.approvedAt
  fresh : r.phase.approvedAt.isSome = true →
    ∀ digest ∈ r.phase.approvalDigest, digest = removalDigest started seen
  /-- Nothing is removed, and approval is asked for or not; or the missing rows are removed. -/
  outcome :
    (r'.devices = r.devices ∧ r'.tombstones = r.tombstones ∧ r'.phase.status = r.phase.status) ∨
    (r'.devices = r.devices ∧ r'.tombstones = r.tombstones ∧ r.phase.approvedAt = none ∧
      r'.phase.status = .awaitingApproval) ∨
    (mode = .apply ∧
      (exceedsGuard (r.missing started seen).length (r.devices.rows.countP DeviceRow.isRefreshable) =
        true → r.phase.approvedAt ≠ none) ∧
      r'.phase.status = r.phase.status ∧
      r'.devices = r.devices.delete (fun row => row.key.realm = .live &&
        row.key.id ∈ r.missing started seen && row.observedAt ≤ started) ∧
      r'.tombstones = (r.missing started seen).foldl
        (fun t id => t.put ⟨id, removalDigest started seen⟩) r.tombstones)

lemma finalizes_of_ok (h : finalizeRefreshDevices removalDigest mode seen r = .ok r') :
    ∃ started, Finalizes removalDigest mode seen started r r' := by
  unfold finalizeRefreshDevices at h
  split at h
  · cases h
  split at h
  · cases h
  next started hstarted =>
    dsimp only at h
    split at h
    · cases h
    split at h
    · cases h
    next hstale =>
      have hfresh : r.phase.approvedAt.isSome = true →
          ∀ digest ∈ r.phase.approvalDigest, digest = removalDigest started seen := by
        intro happr digest hdigest
        by_contra hne
        apply hstale
        rw [Option.mem_def.mp hdigest]
        exact ⟨by simpa using hne, happr⟩
      split at h
      · next hmode =>
        cases h
        exact ⟨started, ⟨hstarted, hstarted⟩, rfl, rfl, hfresh, .inl ⟨rfl, rfl, rfl⟩⟩
      next hmode =>
        have happly : mode = .apply := by cases mode <;> first | rfl | exact absurd rfl hmode
        split at h
        · next hask =>
          cases h
          exact ⟨started, ⟨hstarted, hstarted⟩, rfl, rfl, hfresh, .inr (.inl ⟨rfl, rfl, hask.2, rfl⟩)⟩
        · next hask =>
          cases h
          refine ⟨started, ⟨hstarted, hstarted⟩, rfl, rfl, hfresh,
            .inr (.inr ⟨happly, fun hexceeds hnone => hask ⟨hexceeds, hnone⟩, rfl, rfl, rfl⟩)⟩

/-- A live row with the id of a missing one is that row. -/
lemma isMissing_of_id_mem {devices : Table DeviceRow DeviceRow.key} (hrow : row ∈ devices)
    (hlive : row.key.realm = .live)
    (hid : row.key.id ∈ (devices.rows.filter (DeviceRow.isMissing started seen)).map (·.key.id)) :
    row.isMissing started seen = true := by
  obtain ⟨other, hother, hid⟩ := mem_map.mp hid
  obtain ⟨hmem, hmiss⟩ := mem_filter.mp hother
  have hrealm : other.key.realm = .live := by
    simp only [DeviceRow.isMissing, DeviceRow.isRefreshable, Bool.and_eq_true,
      decide_eq_true_eq] at hmiss
    exact hmiss.1.1.1
  -- the id and the realm make the key, and a key has one row
  have hkey : other.key = row.key :=
    calc other.key = ⟨other.key.realm, other.key.id⟩ := rfl
      _ = ⟨row.key.realm, row.key.id⟩ := by rw [hrealm, hid, hlive]
      _ = row.key := rfl
  rw [← Table.eq_of_key hmem hrow hkey]
  exact hmiss

lemma exceedsGuard_of_lt {missing eligible : ℕ} (hle : missing ≤ eligible)
    (hbound : eligible ≤ 2 ^ 52) (h : eligible < 5 * missing) :
    exceedsGuard missing eligible = true := by
  unfold exceedsGuard
  rw [if_neg (by omega : eligible ≠ 0)]
  exact decide_eq_true ((Binary64.lt_div_ofNat_iff (by omega) hle hbound).mpr h)

end Finalizer

/-! ## The invariant -/

namespace DeviceRefresh

variable {Digest : Type} {removalDigest : ℤ → Finset String → Digest} {s t : DeviceRefresh Digest}
  {worker : DeviceWorker}

/-- The enumeration that was approved. -/
def approvedSeen (s : DeviceRefresh Digest) : Finset String :=
  if s.phase.approvedAt.isSome then s.request.elim ∅ RemovalRequest.seen else ∅

/-- The phase runs, and what is staged was seen. -/
def Enumerates (s : DeviceRefresh Digest) (seen : Finset String) : Prop :=
  s.phase.status = .running ∧ s.stage ⊆ seen

/-- What the worker knows at its place. -/
def Knows (s : DeviceRefresh Digest) : DeviceWorker → Prop
  | .fetching _ _ seen | .finalizing seen => s.Enumerates seen
  | .staging _ work | .persisting work | .recording work => s.Enumerates work.seen
  | _ => True

/-- The last request is the one that the phase waits for. -/
def Requested (s : DeviceRefresh Digest) (request : RemovalRequest Digest) : Prop :=
  s.request = some request ∧ s.phase.approvalDigest = some request.digest

structure Inv (removalDigest : ℤ → Finset String → Digest) (s : DeviceRefresh Digest) : Prop where
  digest : ∀ request, s.request = some request →
    request.digest = removalDigest request.started request.seen ∧
      s.phase.startedAt = some request.started
  approved : s.phase.approvedAt.isSome = true →
    ∃ request, s.Requested request ∧ request.digest ∈ s.approvals
  waiting : s.phase.status = .awaitingApproval →
    ∃ request, s.Requested request ∧ s.returned ⊆ request.seen
  live : s.worker ≠ .idle → s.status.terminal = false
  covered : s.status.terminal = true ∨ s.returned ⊆ s.stage ∪ s.approvedSeen
  knows : s.Knows s.worker

lemma inv_init (mode : RefreshMode) (engine : Engine) (now : ℤ) :
    (init mode engine now).Inv removalDigest where
  digest _ h := by cases h
  approved h := by cases h
  waiting h := by cases h
  live h := absurd rfl h
  covered := .inr (Finset.empty_subset _)
  knows := trivial

section

variable (h : s.Inv removalDigest) {work : PageWork}

include h

/-- As long as the run is not at its end, the stage covers what the approval does not. -/
lemma Inv.covered_of_live (hlive : s.status.terminal = false) :
    s.returned ⊆ s.stage ∪ s.approvedSeen :=
  h.covered.resolve_left (by rw [hlive]; exact Bool.false_ne_true)

lemma Inv.live_of_worker (hworker : s.worker = worker) (hne : worker ≠ .idle) :
    s.status.terminal = false := h.live (hworker ▸ hne)

lemma Inv.knows_of_worker (hworker : s.worker = worker) : s.Knows worker :=
  hworker ▸ h.knows

lemma Inv.move (hlive : worker ≠ .idle → s.status.terminal = false) (hknows : s.Knows worker) :
    { s with worker }.Inv removalDigest :=
  { h with live := hlive, knows := hknows }

/-! ## Steps of the worker -/

lemma Inv.claim : s.claim.Inv removalDigest := by
  unfold DeviceRefresh.claim
  split
  · split
    · next hclaim =>
      have hlive : s.status.terminal = false := by
        have := hclaim.2
        simp only [mem_cons, not_mem_nil, or_false] at this
        rcases this with h | h | h <;> rw [h] <;> rfl
      exact { h with
        live := fun _ => rfl, covered := .inr (h.covered_of_live hlive), knows := trivial }
    · exact h
  · exact h

/-- The stage is given up with the run. -/
lemma Inv.drop {status : RefreshRunState} (phase : RefreshPhaseState)
    (hterm : status.terminal = true)
    (hphase : phase = .awaitingApproval → s.phase.status = .awaitingApproval) :
    { s with status, phase := { s.phase with status := phase }, stage := ∅, worker := .idle }.Inv
      removalDigest where
  digest := h.digest
  approved := h.approved
  waiting hwaiting := h.waiting (hphase hwaiting)
  live hidle := absurd rfl hidle
  covered := .inl hterm
  knows := trivial

lemma Inv.start (hworker : s.worker = .starting) : s.start.Inv removalDigest := by
  have hlive := h.live_of_worker hworker nofun
  unfold DeviceRefresh.start
  split
  · exact h.move (fun hidle => absurd rfl hidle) trivial
  split
  · exact h.move (fun _ => hlive) trivial
  split
  · exact h.drop _ rfl nofun
  · exact
      { digest := fun request hreq => by
          obtain ⟨hdigest, hstarted⟩ := h.digest request hreq
          exact ⟨hdigest, by rw [PhaseRow.begin, hstarted]; rfl⟩
        approved := h.approved
        waiting := nofun
        live := fun _ => rfl
        covered := .inr (h.covered_of_live hlive)
        knows := ⟨rfl, Finset.Subset.refl _⟩ }

lemma Inv.answer (page : DevicePage) : (s.answer page).Inv removalDigest := by
  unfold DeviceRefresh.answer
  split
  · next cursor pages seen hworker =>
    have hlive := h.live_of_worker hworker nofun
    split
    · exact h.move (fun _ => hlive) trivial
    split
    · exact h.move (fun _ => hlive) trivial
    · have hknows : s.Enumerates seen := h.knows_of_worker hworker
      exact h.move (fun _ => hlive) hknows
  · exact h

lemma Inv.stageDevice (hlive : s.status.terminal = false) (device : Observation Device)
    (todo : List (Observation Device)) (hknows : s.Enumerates work.seen) :
    (s.stageDevice device todo work).Inv removalDigest where
  digest := h.digest
  approved := h.approved
  waiting hwaiting := by
    have hrunn : s.phase.status = .running := hknows.1
    rw [show s.phase.status = .awaitingApproval from hwaiting] at hrunn
    cases hrunn
  live _ := hlive
  covered := by
    right
    show insert _ s.returned ⊆ insert _ s.stage ∪ s.approvedSeen
    rw [Finset.insert_union]
    exact Finset.insert_subset_insert _ (h.covered_of_live hlive)
  knows := ⟨hknows.1, Finset.insert_subset_insert _ hknows.2⟩

lemma Inv.recordPage (hlive : s.status.terminal = false) (hknows : s.Enumerates work.seen) :
    (s.recordPage work).Inv removalDigest where
  digest := h.digest
  approved := h.approved
  waiting := h.waiting
  live _ := hlive
  covered := h.covered
  knows := by
    unfold DeviceRefresh.recordPage
    split
    · exact ⟨hknows.1, hknows.2⟩
    · exact ⟨hknows.1, hknows.2⟩

section Approved

variable (hdigest : ∀ started, Function.Injective (removalDigest started))
  (hstarted : s.phase.startedAt = some started)

include hdigest hstarted

/-- The operator has approved the enumeration at hand. -/
lemma Inv.approved_request (happr : s.phase.approvedAt.isSome = true)
    (hfresh : ∀ digest ∈ s.phase.approvalDigest, digest = removalDigest started seen) :
    ∃ request, s.request = some request ∧ request.started = started ∧ request.seen = seen ∧
      request.digest = removalDigest started seen ∧ request.digest ∈ s.approvals := by
  obtain ⟨request, ⟨hreq, happroval⟩, hmem⟩ := h.approved happr
  obtain ⟨hof, hstart⟩ := h.digest request hreq
  have hsame : request.started = started := by
    rw [hstarted] at hstart
    exact (Option.some.inj hstart).symm
  have heq := hfresh request.digest (Option.mem_def.mpr happroval)
  refine ⟨request, hreq, hsame, hdigest started ?_, heq, hmem⟩
  rw [← heq, hof, hsame]

/-- The approved enumeration is the one at hand, or there is none. -/
lemma Inv.approvedSeen_subset (hfresh : s.phase.approvedAt.isSome = true →
      ∀ digest ∈ s.phase.approvalDigest, digest = removalDigest started seen) :
    s.approvedSeen ⊆ seen := by
  unfold approvedSeen
  split
  · next happr =>
    obtain ⟨request, hreq, -, hseen, -⟩ := h.approved_request hdigest hstarted happr (hfresh happr)
    rw [hreq, ← hseen]
    exact Finset.Subset.refl request.seen
  · exact Finset.empty_subset _

lemma Inv.returned_subset (hworker : s.worker = .finalizing seen) (hfresh : s.phase.approvedAt.isSome = true →
      ∀ digest ∈ s.phase.approvalDigest, digest = removalDigest started seen) :
    s.returned ⊆ seen := by
  have hknows : s.Enumerates seen := h.knows_of_worker hworker
  exact (h.covered_of_live (h.live_of_worker hworker nofun)).trans
    (Finset.union_subset hknows.2 (h.approvedSeen_subset hdigest hstarted hfresh))

/-- The operator was asked about what is removed now, as far as it was there. -/
lemma Inv.approved_removal
    (hfresh : ∀ digest ∈ s.phase.approvalDigest, digest = removalDigest started seen)
    (happr : s.phase.approvedAt.isSome = true) {rows : List DeviceRow}
    (hrows : ∀ row ∈ rows, row.isMissing started seen = true) :
    ∃ request, s.Approved removalDigest seen rows request := by
  obtain ⟨request, hlast, rfl, hseen, heq, hmem⟩ :=
    h.approved_request hdigest hstarted happr hfresh
  refine ⟨request, hlast, ⟨heq, hstarted⟩, hmem, fun row hrow => ?_⟩
  by_cases hin : row ∈ request.devices
  · left
    refine mem_filter.mpr ⟨hin, ?_⟩
    rw [hseen]
    exact hrows row hrow
  · exact .inr hin

end Approved

end

lemma knows_afterFinalizer (t : DeviceRefresh Digest) (mode : RefreshMode) :
    t.Knows (if mode = .apply then .reloading else .finishing) := by
  split <;> exact trivial

/-- The finalizer leaves the phase running; the approved digest is the one it writes again. -/
lemma Inv.of_finalizes (h : s.Inv removalDigest) {r : DeviceRecords DeviceCursor Digest}
    (hf : Finalizes removalDigest mode seen started s.records r) (hstat : r.phase.status = .running)
    (hphase : t.phase = r.phase) (hreq : t.request = s.request)
    (happrovals : t.approvals = s.approvals) (hlive : t.status.terminal = false)
    (hcov : t.returned ⊆ t.stage ∪ s.approvedSeen) (hknows : t.Knows t.worker) :
    t.Inv removalDigest where
  digest request hsome := by
    obtain ⟨hof, hstart⟩ := h.digest request (hreq ▸ hsome)
    have hstarted : s.phase.startedAt = some started := hf.startedAt.1
    rw [hphase, hf.startedAt.2, ← hstarted]
    exact ⟨hof, hstart⟩
  approved hsome := by
    have happr : s.phase.approvedAt.isSome = true := by
      rw [hphase, hf.approvedAt] at hsome
      exact hsome
    obtain ⟨request, hreqd, hmem⟩ := h.approved happr
    have heq := hf.fresh happr request.digest (Option.mem_def.mpr hreqd.2)
    refine ⟨request, ⟨hreq.trans hreqd.1, ?_⟩, happrovals ▸ hmem⟩
    rw [hphase, hf.digest, heq]
  waiting hwaiting := by
    rw [hphase, hstat] at hwaiting
    cases hwaiting
  live _ := hlive
  covered := by
    have happr : t.approvedSeen = s.approvedSeen := by
      unfold approvedSeen
      rw [hphase, hf.approvedAt, hreq]
      rfl
    rw [happr]
    exact .inr hcov
  knows := hknows

/-- Approval is asked for. -/
lemma inv_of_request {r : DeviceRecords DeviceCursor Digest}
    (hf : Finalizes removalDigest mode seen started s.records r) (hnone : s.phase.approvedAt = none)
    (hphase : t.phase = r.phase)
    (hreq : t.request = some ⟨started, seen, removalDigest started seen, s.devices⟩)
    (hlive : t.status.terminal = false) (hret : t.returned ⊆ seen)
    (hcov : t.returned ⊆ t.stage) (hknows : t.Knows t.worker) : t.Inv removalDigest where
  digest request hsome := by
    rw [hreq] at hsome
    cases hsome
    exact ⟨rfl, by rw [hphase]; exact hf.startedAt.2⟩
  approved hsome := by
    rw [hphase, hf.approvedAt, show s.records.phase.approvedAt = none from hnone] at hsome
    cases hsome
  waiting _ := ⟨_, ⟨hreq, by rw [hphase]; exact hf.digest⟩, hret⟩
  live _ := hlive
  covered := .inr (hcov.trans Finset.subset_union_left)
  knows := hknows

lemma Inv.settle (h : s.Inv removalDigest) (hlive : s.status.terminal = false)
    (outcome : RefreshOutcome) : (s.settle outcome).Inv removalDigest := by
  have hcov := h.covered_of_live hlive
  cases outcome with
  | rateLimited =>
    unfold DeviceRefresh.settle
    dsimp only
    split
    · exact { h with
        waiting := nofun, live := fun hidle => absurd rfl hidle, covered := .inr hcov
        knows := trivial }
    · exact { h with live := fun hidle => absurd rfl hidle, covered := .inr hcov, knows := trivial }
  | cancelled =>
    unfold DeviceRefresh.settle
    dsimp only
    split
    · exact h.drop s.phase.status rfl id
    · exact h.drop _ rfl nofun
  | failed =>
    unfold DeviceRefresh.settle
    dsimp only
    split
    · exact h.drop _ rfl nofun
    · exact h.drop s.phase.status rfl id

lemma Inv.fail (h : s.Inv removalDigest) (outcome : RefreshOutcome) :
    (s.fail outcome).Inv removalDigest := by
  unfold DeviceRefresh.fail
  split
  · exact h
  · next hworker => exact h.move (fun _ => h.live hworker) trivial

/-! ## Removed rows -/

lemma removed_eq_nil (h : t.devices = s.devices) : s.removed t = [] := by
  unfold removed
  rw [h]
  exact filter_eq_nil_iff.mpr fun row hrow hnot => (of_decide_eq_true hnot) hrow

/-- A step that leaves the devices and the tombstones alone. -/
lemma guardedRemoval_of_eq (hdevs : t.devices = s.devices) (htomb : t.tombstones = s.tombstones) :
    s.GuardedRemoval removalDigest seen t where
  absent row hrow := by
    rw [removed_eq_nil hdevs] at hrow
    cases hrow
  guarded _ hlarge := by
    rw [removed_eq_nil hdevs, length_nil] at hlarge
    omega
  tombstones tombstone h := .inl (htomb ▸ h)
  dryRun _ := removed_eq_nil hdevs

section Removal

variable {t : DeviceRefresh Digest}

lemma mem_removed_iff (hdevs : t.devices = s.devices.delete fun row => row.key.realm = .live &&
      row.key.id ∈ s.records.missing started seen && row.observedAt ≤ started) :
    row ∈ s.removed t ↔ row ∈ s.devices.rows.filter (DeviceRow.isMissing started seen) := by
  unfold removed
  rw [mem_filter, mem_filter, and_congr_right_iff]
  intro hrow
  rw [hdevs, decide_eq_true_eq]
  show row ∉ s.devices.rows.filter _ ↔ _
  rw [mem_filter, not_and]
  constructor
  · intro h
    have hdeleted := h hrow
    simp only [Bool.not_eq_true', Bool.not_eq_false, Bool.and_eq_true, decide_eq_true_eq] at hdeleted
    exact isMissing_of_id_mem hrow hdeleted.1.1 hdeleted.1.2
  · intro hmiss _
    have hparts := hmiss
    simp only [DeviceRow.isMissing, DeviceRow.isRefreshable, Bool.and_eq_true,
      decide_eq_true_eq] at hparts
    have hid : row.key.id ∈ s.records.missing started seen :=
      mem_map.mpr ⟨row, mem_filter.mpr ⟨hrow, hmiss⟩, rfl⟩
    simp [hparts.1.1.1, hid, hparts.1.2]

lemma length_missing_le (started : ℤ) (seen : Finset String) :
    (s.records.missing started seen).length ≤ s.eligible := by
  rw [DeviceRecords.missing, length_map, ← countP_eq_length_filter]
  apply countP_mono_left
  intro row _ hmiss
  simp only [DeviceRow.isMissing, Bool.and_eq_true] at hmiss
  exact hmiss.1.1

lemma mem_foldl_tombstones {digest : Digest} {ids : List String}
    {tombstones : Table (DeviceTombstone Digest) DeviceTombstone.itemId}
    {tombstone : DeviceTombstone Digest}
    (h : tombstone ∈ ids.foldl (fun t id => t.put ⟨id, digest⟩) tombstones) :
    tombstone ∈ tombstones ∨ tombstone.itemId ∈ ids := by
  induction ids generalizing tombstones with
  | nil => exact .inl h
  | cons id ids ih =>
    rcases ih h with hput | hmem
    · rcases Table.mem_put.mp hput with rfl | ⟨hold, -⟩
      · exact .inr mem_cons_self
      · exact .inl hold
    · exact .inr (mem_cons_of_mem _ hmem)

end Removal

/-! ## The finalizer as a step -/

variable [DecidableEq Digest]

/-- An approval takes over what the request covers: the stage of a failed run is gone. -/
lemma Inv.approve (h : s.Inv removalDigest) (digest : Digest) :
    (s.approve digest).Inv removalDigest := by
  unfold DeviceRefresh.approve
  split
  · next hguard =>
    obtain ⟨request, hreq, hret⟩ := h.waiting hguard.1
    have heq : request.digest = digest := by
      have := hreq.2
      rw [hguard.2] at this
      exact (Option.some.inj this).symm
    exact
      { digest := h.digest
        approved := fun _ => ⟨request, hreq, by rw [heq]; exact mem_cons_self⟩
        waiting := nofun
        live := fun _ => rfl
        covered := by
          right
          rw [hreq.1]
          exact hret.trans Finset.subset_union_right
        knows := by
          -- a worker that enumerates has a running phase, which waits for no approval
          have hknows := h.knows
          cases hworker : s.worker <;> rw [hworker] at hknows <;>
            first
            | exact trivial
            | (have hrunn := hknows.1
               rw [hguard.1] at hrunn
               cases hrunn) }
  · exact h

section

variable (hdigest : ∀ started, Function.Injective (removalDigest started))

include hdigest

section

variable (h : s.Inv removalDigest)

include h

/-- The finalizer keeps the request it found, unless it makes one. -/
lemma Inv.finalize (hworker : s.worker = .finalizing seen) :
    (s.finalize removalDigest seen).Inv removalDigest := by
  have hlive := h.live_of_worker hworker nofun
  have hknows : s.Enumerates seen := h.knows_of_worker hworker
  have hcov := h.covered_of_live hlive
  unfold DeviceRefresh.finalize
  split
  · next r hr =>
    obtain ⟨started, hf⟩ := finalizes_of_ok hr
    have hret := h.returned_subset hdigest hf.startedAt.1 hworker hf.fresh
    rcases hf.outcome with ⟨-, -, hstat⟩ | ⟨-, -, hnone, hstat⟩ | ⟨-, -, hstat, -⟩
    case inr.inl =>
      have hreq : s.requestOf seen r.phase =
          some ⟨started, seen, removalDigest started seen, s.devices⟩ := by
        simp [requestOf, hstat, hf.startedAt.2, hf.digest]
      have hnothing : s.approvedSeen = ∅ := by
        unfold approvedSeen
        rw [show s.phase.approvedAt = none from hnone]
        rfl
      rw [hnothing, Finset.union_empty] at hcov
      exact inv_of_request hf hnone rfl hreq hlive hret hcov (knows_afterFinalizer _ _)
    all_goals
      have hstat : r.phase.status = .running := hstat.trans hknows.1
      exact h.of_finalizes hf hstat rfl (by simp [requestOf, hstat]) rfl hlive hcov
        (knows_afterFinalizer _ _)
  · exact h.move (fun _ => hlive) trivial

lemma Inv.work : (s.work removalDigest).Inv removalDigest := by
  unfold DeviceRefresh.work
  split
  · exact h
  · exact h
  · next hworker => exact h.start hworker
  · next device todo work hworker =>
    exact h.stageDevice (h.live_of_worker hworker nofun) device todo (h.knows_of_worker hworker)
  · next work hworker =>
    have hknows : s.Enumerates work.seen := h.knows_of_worker hworker
    refine h.move (fun _ => h.live_of_worker hworker nofun) ?_
    split <;> exact hknows
  · next work hworker =>
    exact { h with
      live := fun _ => h.live_of_worker hworker nofun, knows := h.knows_of_worker hworker }
  · next work hworker =>
    exact h.recordPage (h.live_of_worker hworker nofun) (h.knows_of_worker hworker)
  · next seen hworker => exact h.finalize hdigest hworker
  · next hworker =>
    exact { h with live := fun _ => h.live_of_worker hworker nofun, knows := trivial }
  · next hworker =>
    have hlive := h.live_of_worker hworker nofun
    have hcov := h.covered_of_live hlive
    unfold finish
    split
    · exact { h with live := fun hidle => absurd rfl hidle, covered := .inr hcov, knows := trivial }
    · exact { h with
        waiting := nofun, live := fun _ => hlive, covered := .inr hcov, knows := trivial }
  · refine h.drop s.phase.status ?_ id
    split <;> rfl
  · next outcome hworker =>
    exact h.settle (h.live_of_worker hworker nofun) outcome

lemma Inv.step (op : DeviceOp Digest) : (s.step removalDigest op).Inv removalDigest := by
  cases op with
  | claim => exact h.claim
  | work => exact h.work hdigest
  | answer page => exact h.answer page
  | fail outcome => exact h.fail outcome
  | crash => exact h.move (fun hidle => absurd rfl hidle) trivial
  | approve digest => exact h.approve digest
  | cancel =>
    show s.cancel.Inv removalDigest
    unfold cancel
    split
    · exact h
    · exact { h with }
  | call | advance => exact { h with }

end

lemma inv_run (mode : RefreshMode) (engine : Engine) (now : ℤ) (ops : List (DeviceOp Digest)) :
    (run removalDigest mode engine now ops).Inv removalDigest :=
  foldlRecOn ops _ (inv_init mode engine now) fun _ h op _ => h.step hdigest op

/-! ## Runs -/

/-- What the finalizer does from a state of a run. -/
lemma Inv.guardedRemoval (h : s.Inv removalDigest) (hworker : s.worker = .finalizing seen) :
    s.GuardedRemoval removalDigest seen (s.work removalDigest) := by
  have hwork : s.work removalDigest = s.finalize removalDigest seen := by
    unfold DeviceRefresh.work
    rw [hworker]
  rw [hwork]
  unfold DeviceRefresh.finalize
  split
  · next r hr =>
    obtain ⟨started, hf⟩ := finalizes_of_ok hr
    have hret := h.returned_subset hdigest hf.startedAt.1 hworker hf.fresh
    rcases hf.outcome with ⟨hdevs, htomb, -⟩ | ⟨hdevs, htomb, -⟩ |
      ⟨hmode, hguard, -, hdevs, htomb⟩
    · exact guardedRemoval_of_eq hdevs htomb
    · exact guardedRemoval_of_eq hdevs htomb
    · -- the missing rows are removed
      generalize ht : ({ s.withRecords r with
        request := s.requestOf seen r.phase
        worker := if s.mode = .apply then reloading else .finishing } :
          DeviceRefresh Digest) = t
      have hdevs : t.devices = s.devices.delete fun row => row.key.realm = .live &&
          row.key.id ∈ s.records.missing started seen && row.observedAt ≤ started := by
        rw [← ht]
        exact hdevs
      have htomb : t.tombstones = r.tombstones := by rw [← ht]; rfl
      have hmiss : ∀ row ∈ s.removed t, row.isMissing started seen = true := fun row hrow =>
        (mem_filter.mp ((mem_removed_iff hdevs).mp hrow)).2
      exact
        { absent := fun row hrow => by
            have hparts := hmiss row hrow
            simp only [DeviceRow.isMissing, Bool.and_eq_true, decide_eq_true_eq] at hparts
            exact ⟨hparts.1.1, ⟨started, hf.startedAt.1, hparts.1.2⟩,
              fun hin => hparts.2 (hret hin)⟩
          guarded := fun hbound hlarge => by
            have hlen : (s.removed t).length ≤ (s.records.missing started seen).length := by
              rw [DeviceRecords.missing, length_map]
              apply List.Subperm.length_le
              apply List.Nodup.subperm (s.devices.rows_nodup.filter _)
              exact fun row hrow => (mem_removed_iff hdevs).mp hrow
            have hlt : s.eligible < 5 * (s.records.missing started seen).length := by omega
            have happr := hguard (exceedsGuard_of_lt (length_missing_le started seen) hbound hlt)
            have hsome : s.phase.approvedAt.isSome = true := Option.isSome_iff_ne_none.mpr happr
            exact h.approved_removal hdigest hf.startedAt.1 (hf.fresh hsome) hsome hmiss
          tombstones := fun tombstone hmem => by
            rw [htomb, ‹r.tombstones = _›] at hmem
            rcases mem_foldl_tombstones hmem with hold | hid
            · exact .inl hold
            · obtain ⟨row, hrow, hid⟩ := mem_map.mp hid
              exact .inr ⟨row, (mem_removed_iff hdevs).mpr hrow, hid.symm⟩
          dryRun := fun hdry => by
            rw [hmode] at hdry
            cases hdry }
  · exact guardedRemoval_of_eq rfl rfl

end

/-- Whenever the finalizer runs, what it removes was owned and reachable, was not observed after the
start of the phase and was staged from no page; more than a fifth of the rows is removed only after
the operator approved the enumeration. -/
theorem guardedRemoval_run (hdigest : ∀ started, Function.Injective (removalDigest started))
    (mode : RefreshMode) (engine : Engine) (now : ℤ) (ops : List (DeviceOp Digest))
    (seen : Finset String)
    (hworker : (run removalDigest mode engine now ops).worker = .finalizing seen) :
    (run removalDigest mode engine now ops).GuardedRemoval removalDigest seen
      (run removalDigest mode engine now (ops ++ [.work])) := by
  have hstep : run removalDigest mode engine now (ops ++ [.work]) =
      (run removalDigest mode engine now ops).work removalDigest := by
    unfold run
    rw [foldl_append]
    rfl
  rw [hstep]
  exact (inv_run hdigest mode engine now ops).guardedRemoval hdigest hworker

/-! ## A row that the operator was not asked about -/

section Samples

def sampleMember (id : String) (observedAt : ℤ) : Observation Device :=
  sampleObservation { sampleDevice "idle" with key := ⟨.live, id⟩ } observedAt

/-- The only page of the enumeration. -/
def samplePage (observedAt : ℤ) : DevicePage :=
  ⟨["D0", "D1", "D2"].map (sampleMember · observedAt), none⟩

/-- What was seen, if the finalizer is next. -/
def enumerated : DeviceWorker → Option (Finset String)
  | .finalizing seen => some seen
  | _ => none

lemma eq_finalizing_of_enumerated (h : enumerated worker = some seen) :
    worker = .finalizing seen := by
  cases worker <;> cases h
  rfl

/-- From the claim of the run to the state in which the finalizer is next. -/
def sampleEnumeration (observedAt : ℤ) : List (DeviceOp (ℤ × Finset String)) :=
  [.claim, .work, .answer (samplePage observedAt), .work, .work, .work, .work, .work, .work]

/-- Five devices are known and three are listed. After the operator is asked about the other two,
an event brings one more, which happened when the phase began. -/
def sampleApproval : List (DeviceOp (ℤ × Finset String)) :=
  [.call (.run (.persistDevices (["D0", "D1", "D2", "D3", "D4"].map (sampleMember · 10))), true),
    .advance 100] ++
  sampleEnumeration 100 ++
  [.work, .work, .work,
    .call (.run (.applyEventProjection "1-0" { sampleBatch with
      devices := [sampleMember "D5" 100] }), true),
    .approve (100, {"D0", "D1", "D2"})] ++
  sampleEnumeration 120

end Samples

theorem guardedRemoval_run_sample :
    (run Prod.mk .apply Engine.init 0 sampleApproval).GuardedRemoval Prod.mk {"D0", "D1", "D2"}
      (run Prod.mk .apply Engine.init 0 (sampleApproval ++ [.work])) :=
  guardedRemoval_run (fun _ _ _ h => congrArg Prod.snd h) .apply Engine.init 0 sampleApproval _
    (eq_finalizing_of_enumerated (by decide +kernel))

/-- The observation times do not decrease, more than a fifth of the rows is removed under the
approval, and one of them was not in the table when the operator was asked. -/
theorem exists_unasked_removal :
    (sampleApproval.flatMap DeviceOp.times).Pairwise (· ≤ ·) ∧
    (run Prod.mk .apply Engine.init 0 sampleApproval).eligible <
      5 * ((run Prod.mk .apply Engine.init 0 sampleApproval).removed
        (run Prod.mk .apply Engine.init 0 (sampleApproval ++ [.work]))).length ∧
    ∃ request ∈ (run Prod.mk .apply Engine.init 0 sampleApproval).request,
      ∃ row ∈ (run Prod.mk .apply Engine.init 0 sampleApproval).removed
        (run Prod.mk .apply Engine.init 0 (sampleApproval ++ [.work])),
      row ∉ request.missing := by
  refine ⟨by decide +kernel, by decide +kernel, by decide +kernel⟩

end DeviceRefresh

end Replicant.Managed
