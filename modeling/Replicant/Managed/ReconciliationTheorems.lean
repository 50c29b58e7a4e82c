import Replicant.Lib.Transaction
import Replicant.Managed.Reconciliation

/-!
# No request is lost

Requests are numbered. A request stays in the queue until a fetch that began after it succeeds. It is
lost exactly when a worker completes work that was requested again during its fetch, because the row
it deletes by its `work_id` is then that of the newer request, when such a worker reports
`event_catchup` ready, and when a row is dropped because its device was not seen by a traversal.
-/

namespace Replicant.Managed

open Lib List Table

namespace ReconciliationQueue

variable {q t : ReconciliationQueue} {w : String} {step : WorkerStep}

/-- Every request is in the queue, or was served by a later fetch or settled by the deletion of its
entity; and `event_catchup` is reported ready only for requests that were served. -/
structure NoRequestLost (q : ReconciliationQueue) : Prop where
  kept : ∀ w, q.requested w ≤ q.covered w ∨ q.rows.hasKey w = true
  ready : q.ready ≤ q.covered eventContinuityWorkId

/-- A fetch began after the requests up to its number. -/
def StepOk (q : ReconciliationQueue) : WorkerStep → Prop
  | .fetching _ since => since ≤ q.clock
  | _ => True

structure Inv (q : ReconciliationQueue) : Prop extends NoRequestLost q where
  requested_le : ∀ w, q.requested w ≤ q.clock
  covered_le : ∀ w, q.covered w ≤ q.clock
  workers : ∀ worker ∈ q.workers, q.StepOk worker.step

lemma Inv.init : Inv init where
  kept _ := .inl (Nat.le_refl 0)
  ready := Nat.le_refl 0
  requested_le _ := Nat.le_refl 0
  covered_le _ := Nat.le_refl 0
  workers := by simp [ReconciliationQueue.init]

lemma StepOk.mono (h : q.StepOk step) (hclock : q.clock ≤ t.clock) : t.StepOk step := by
  cases step with
  | fetching => exact Nat.le_trans h hclock
  | _ => trivial

/-- The queues have the same numbers and the same keys. -/
structure Alike (q t : ReconciliationQueue) : Prop where
  clock : t.clock = q.clock := by rfl
  requested : t.requested = q.requested := by rfl
  covered : t.covered = q.covered := by rfl
  ready : t.ready = q.ready := by rfl
  keys : ∀ w, t.rows.hasKey w = q.rows.hasKey w := by exact fun _ => rfl

lemma Alike.noRequestLost (h : Alike q t) (hlost : q.NoRequestLost) : t.NoRequestLost where
  kept w := by
    rw [h.requested, h.covered, h.keys]
    exact hlost.kept w
  ready := by
    rw [h.ready, h.covered]
    exact hlost.ready

lemma Alike.symm (h : Alike q t) : Alike t q :=
  ⟨h.clock.symm, h.requested.symm, h.covered.symm, h.ready.symm, fun w => (h.keys w).symm⟩

/-- The worker takes a step that begins no fetch, or begins one now. -/
lemma Inv.alike (h : q.Inv) (halike : Alike q t)
    (hworkers : ∀ worker ∈ t.workers, worker ∈ q.workers ∨ q.StepOk worker.step) : t.Inv where
  toNoRequestLost := halike.noRequestLost h.toNoRequestLost
  requested_le w := by
    rw [halike.requested, halike.clock]
    exact h.requested_le w
  covered_le w := by
    rw [halike.covered, halike.clock]
    exact h.covered_le w
  workers worker hworker := by
    have hok := (hworkers worker hworker).elim (h.workers worker) id
    exact hok.mono halike.clock.ge

lemma Inv.setStep (h : q.Inv) (i : ℕ) (worker : Worker) (hstep : q.StepOk step) :
    (q.setStep i worker step).Inv :=
  h.alike {} fun other hother =>
    (mem_or_eq_of_mem_set hother).imp_right fun heq => by rw [heq]; exact hstep

/-! ## Writes to the queue -/

lemma hasKey_upsert (row : QueueRow) :
    (q.upsert row).hasKey w = true ↔ w = row.workId ∨ q.rows.hasKey w = true := by
  unfold upsert
  by_cases hkey : q.rows.hasKey row.workId = true
  · rw [if_pos hkey, hasKey_update]
    constructor
    · exact .inr
    · rintro (rfl | hold)
      · exact hkey
      · exact hold
  · rw [if_neg hkey, hasKey_eq_true, hasKey_eq_true]
    simp only [mem_insert (Bool.eq_false_iff.mpr hkey), or_and_right, exists_or, exists_eq_left]
    rw [or_comm, eq_comm]

/-- The rows that are removed and not deleted by an event have no open request. -/
def Spares (q : ReconciliationQueue) (p : QueueRow → Bool) : Prop :=
  ∀ row ∈ q.rows.rows, p row = true → q.isDeleted row = false →
    q.requested row.workId ≤ q.covered row.workId

instance (p : QueueRow → Bool) : Decidable (q.Spares p) :=
  inferInstanceAs (Decidable (∀ _ ∈ _, _))

/-- A removal loses no request exactly if it spares the rows with an open one. -/
lemma removeRows_noRequestLost_iff (h : q.Inv) (p : QueueRow → Bool) :
    (q.removeRows p).NoRequestLost ↔ q.Spares p := by
  have hkey : ∀ {row}, row ∈ q.rows → ∀ {row'}, row' ∈ q.rows → row'.workId = row.workId →
      row' = row := fun hrow _ hrow' => eq_of_key hrow' hrow
  constructor
  · intro hlost row hrow hp hnot
    rcases hlost.kept row.workId with hcov | hstays
    · -- the row is not among the deleted ones, so its number has not changed
      have hany : ¬ q.rows.rows.any
          (fun r => p r && q.isDeleted r && r.workId = row.workId) = true := by
        rw [any_eq_true]
        rintro ⟨r, hr, hdel⟩
        simp only [Bool.and_eq_true, decide_eq_true_eq] at hdel
        rw [hkey hrow hr hdel.2, hnot] at hdel
        cases hdel.1.2
      have hsame : (q.removeRows p).covered row.workId = q.covered row.workId := if_neg hany
      rwa [hsame] at hcov
    · obtain ⟨r, hr, hid⟩ := hasKey_eq_true.mp hstays
      obtain ⟨hr, hkept⟩ := mem_delete.mp hr
      rw [hkey hrow hr hid, hp] at hkept
      cases hkept
  · intro hspares
    have hgrows : ∀ w, q.covered w ≤ (q.removeRows p).covered w := by
      intro w
      show q.covered w ≤ if _ then q.clock else q.covered w
      have hclock := h.covered_le w
      split <;> omega
    refine ⟨fun w => ?_, Nat.le_trans h.ready (hgrows _)⟩
    rcases h.kept w with hcov | hkept
    · exact .inl (Nat.le_trans hcov (hgrows w))
    · obtain ⟨row, hrow, rfl⟩ := hasKey_eq_true.mp hkept
      cases hp : p row with
      | false => exact .inr (hasKey_eq_true.mpr ⟨row, mem_delete.mpr ⟨hrow, hp⟩, rfl⟩)
      | true =>
        left
        cases hdel : q.isDeleted row with
        | false => exact Nat.le_trans (hspares row hrow hp hdel) (hgrows _)
        | true =>
          have hcov : (q.removeRows p).covered row.workId = q.clock :=
            if_pos (any_eq_true.mpr ⟨row, hrow, by simp [hp, hdel]⟩)
          rw [hcov]
          exact h.requested_le _

section

variable (h : q.Inv)

include h

lemma Inv.enqueue (target : ReconciliationTarget) : (q.enqueueReconciliation target).Inv where
  kept w := by
    by_cases hw : w = target.workId
    · exact .inr ((hasKey_upsert _).mpr (.inl hw))
    · have hreqd : (q.enqueueReconciliation target).requested w = q.requested w := if_neg hw
      rw [hreqd]
      exact (h.kept w).imp_right fun hold => (hasKey_upsert _).mpr (.inr hold)
  ready := h.ready
  requested_le w := by
    show (if w = target.workId then q.clock + 1 else q.requested w) ≤ q.clock + 1
    have hold := h.requested_le w
    split <;> omega
  covered_le w := Nat.le_succ_of_le (h.covered_le w)
  workers worker hworker := (h.workers worker hworker).mono (Nat.le_succ _)

lemma Inv.removeRows {p : QueueRow → Bool} (hspares : q.Spares p) : (q.removeRows p).Inv where
  toNoRequestLost := (removeRows_noRequestLost_iff h p).mpr hspares
  requested_le := h.requested_le
  covered_le w := by
    show (if _ then q.clock else q.covered w) ≤ q.clock
    have hclock := h.covered_le w
    split <;> omega
  workers worker hworker := (h.workers worker hworker).mono le_rfl

lemma Inv.persistDeletion (deletion : ProjectionTombstone) : (q.persistDeletion deletion).Inv := by
  have hmarked : { q with
      tombstones := deletion :: q.tombstones
      deleted := deletion :: q.deleted }.Inv :=
    h.alike {} fun _ => .inl
  refine hmarked.removeRows fun row _ hp hnot => ?_
  -- the event has deleted what it removes
  rw [isDeleted, any_cons, hp] at hnot
  cases hnot

lemma Inv.persistProjectionBatch (deletions : List ProjectionTombstone)
    (reconciliation : List ReconciliationTarget) :
    (q.persistProjectionBatch deletions reconciliation).Inv := by
  have hdeleted : (deletions.foldl ReconciliationQueue.persistDeletion q).Inv :=
    foldlRecOn (motive := Inv) deletions _ h fun _ hq d _ => hq.persistDeletion d
  exact foldlRecOn (motive := Inv) reconciliation _ hdeleted fun _ hq target _ =>
    hq.enqueue target

lemma Inv.update (p : QueueRow → Bool) (f : QueueRow → QueueRow)
    (hf : ∀ r, (f r).workId = r.workId) : { q with rows := q.rows.update p f hf }.Inv :=
  h.alike { keys := hasKey_update _ _ _ hf } fun _ => .inl

lemma Inv.requeueRunning : q.requeueRunning.Inv := h.update _ _ _

variable (i : ℕ) (worker : Worker) {since : ℕ}

lemma Inv.acquire : (q.acquire i worker).Inv := by
  unfold ReconciliationQueue.acquire acquireReconciliationLeadership
  simp only
  split
  case h_1 t heq =>
    split at heq
    · cases heq
      refine Inv.setStep ?_ i worker trivial
      split
      · exact h.requeueRunning.alike {} fun _ => .inl
      · exact h.alike {} fun _ => .inl
    · cases heq
  case h_2 t heq =>
    split at heq
    · cases heq
    · cases heq
      exact h.setStep i worker trivial

omit h in
/-- After the removal, a claim only marks a row as running. -/
lemma claim_alike : Alike (q.removeRows q.isTombstoned) (q.claim i worker) ∧
    ∀ other ∈ (q.claim i worker).workers, other ∈ q.workers ∨ q.StepOk other.step := by
  have hset : ∀ {step}, q.StepOk step → ∀ other ∈ q.workers.set i { worker with step := step },
      other ∈ q.workers ∨ q.StepOk other.step := fun hstep other hother =>
    (mem_or_eq_of_mem_set hother).imp_right fun heq => by rw [heq]; exact hstep
  unfold ReconciliationQueue.claim claimReconciliationWork
  simp only
  split
  case h_1 t work heq =>
    split at heq
    · cases heq
    · cases heq
      refine ⟨⟨rfl, rfl, rfl, rfl, fun w => ?_⟩, hset trivial⟩
      rw [ReconciliationQueue.setStep, hasKey_update]
  case h_2 t heq =>
    split at heq
    · cases heq
      exact ⟨{}, hset trivial⟩
    · cases heq

lemma Inv.respond (work : ReconciliationWork) (hsince : since ≤ q.clock) (succeeds : Bool) :
    (q.respond i worker work since succeeds).Inv := by
  have hgrows : ∀ w, q.covered w ≤ (q.respond i worker work since succeeds).covered w := by
    intro w
    show q.covered w ≤ if _ then max (q.covered w) since else q.covered w
    split
    · exact Nat.le_max_left _ _
    · exact le_rfl
  have hstep : (q.setStep i worker (.finish work succeeds)).Inv := h.setStep i worker trivial
  refine ⟨⟨fun w => ?_, Nat.le_trans h.ready (hgrows _)⟩, h.requested_le, fun w => ?_, ?_⟩
  · exact (h.kept w).imp_left fun hcov => Nat.le_trans hcov (hgrows w)
  · show (if _ then max (q.covered w) since else q.covered w) ≤ q.clock
    split
    · exact Nat.max_le.mpr ⟨h.covered_le w, hsince⟩
    · exact h.covered_le w
  · exact fun other hother => (hstep.workers other hother).mono le_rfl

omit h in
/-- A completed row is gone, whatever was requested meanwhile. -/
lemma hasKey_complete (workId w : String) : (q.completeReconciliationWork workId).rows.hasKey w =
    (decide (w ≠ workId) && q.rows.hasKey w) := by
  rw [Bool.eq_iff_iff, Bool.and_eq_true, decide_eq_true_eq, hasKey_eq_true, hasKey_eq_true]
  constructor
  · rintro ⟨r, hr, rfl⟩
    obtain ⟨hr, hne⟩ := mem_delete.mp hr
    exact ⟨of_decide_eq_false hne, r, hr, rfl⟩
  · rintro ⟨hne, r, hr, rfl⟩
    exact ⟨r, mem_delete.mpr ⟨hr, decide_eq_false hne⟩, rfl⟩

/-- Work may be completed exactly if it was not requested again since a fetch that has succeeded. -/
lemma complete_noRequestLost_iff (workId : String) :
    (q.completeReconciliationWork workId).NoRequestLost ↔ q.requested workId ≤ q.covered workId := by
  constructor
  · intro hlost
    refine (hlost.kept workId).resolve_right ?_
    rw [hasKey_complete]
    simp
  · refine fun hcov => ⟨fun w => ?_, h.ready⟩
    rw [hasKey_complete]
    by_cases hw : w = workId
    · rw [hw]
      exact .inl hcov
    · rw [decide_eq_true hw, Bool.true_and]
      exact h.kept w

/-- `event_catchup` may be reported ready exactly if continuity was not requested again either. -/
lemma report_noRequestLost_iff : (q.report i worker).NoRequestLost ↔
    q.requested eventContinuityWorkId ≤ q.covered eventContinuityWorkId := by
  refine ⟨fun hlost => le_trans (le_max_right _ _) hlost.ready, fun hcov => ?_⟩
  exact ⟨h.kept, Nat.max_le.mpr ⟨h.ready, hcov⟩⟩

end

end ReconciliationQueue

/-! ## Whole runs -/

/-- Rows are completed and removed, and continuity is reported, without an open request. -/
def QueueOp.Current (q : ReconciliationQueue) : QueueOp → Prop
  | .advance i written =>
    match (q.workers[i]?).map Worker.step with
    | some .claim => q.Spares q.isTombstoned
    | some (.finish work true) => written = true → q.requested work.workId ≤ q.covered work.workId
    | some .report => q.requested eventContinuityWorkId ≤ q.covered eventContinuityWorkId
    | _ => True
  | .traverse missing => q.Spares fun r => missing.any fun d =>
      r.realm = d.1 && r.kind = "device" && r.workId = "device:" ++ d.2
  | _ => True

namespace ReconciliationQueue

variable {q : ReconciliationQueue}

/-- A step loses no request exactly if it is current, and then it keeps the invariant. -/
structure Exact (q t : ReconciliationQueue) (current : Prop) : Prop where
  lost : t.NoRequestLost → current
  keeps : current → t.Inv

lemma Exact.of_inv {t : ReconciliationQueue} (h : t.Inv) : Exact q t True :=
  ⟨fun _ => trivial, fun _ => h⟩

lemma Inv.finish (h : q.Inv) (i : ℕ) (worker : Worker) (work : ReconciliationWork)
    (succeeded written : Bool) : Exact q (q.finish i worker work succeeded written)
      (succeeded = true → written = true → q.requested work.workId ≤ q.covered work.workId) := by
  have hnext : ∀ {t : ReconciliationQueue} {p : Prop} [Decidable p], t.Inv →
      (t.setStep i worker (if p then .report else .acquire)).Inv := by
    intro t p _ ht
    refine ht.setStep i worker ?_
    split <;> trivial
  cases written with
  | false => exact ⟨fun _ _ => nofun, fun _ => hnext h⟩
  | true =>
    cases succeeded with
    | false => exact ⟨fun _ => nofun, fun _ => hnext (h.update _ _ _)⟩
    | true =>
      refine ⟨fun hlost _ _ => ?_, fun hcov => hnext ?_⟩
      · exact (complete_noRequestLost_iff h _).mp ⟨hlost.kept, hlost.ready⟩
      · exact ⟨(complete_noRequestLost_iff h _).mpr (hcov rfl rfl), h.requested_le, h.covered_le,
          fun other hother => (h.workers other hother).mono le_rfl⟩

lemma Inv.advance (h : q.Inv) (i : ℕ) (succeeds : Bool) :
    Exact q (queueStep q (.advance i succeeds)) ((QueueOp.advance i succeeds).Current q) := by
  simp only [queueStep, QueueOp.Current]
  cases hworker : q.workers[i]? with
  | none => exact .of_inv h
  | some worker =>
    simp only [Option.map_some]
    cases hphase : worker.step with
    | acquire => exact .of_inv (h.acquire i worker)
    | claim =>
      obtain ⟨halike, hworkers⟩ := claim_alike (q := q) i worker
      refine ⟨fun hlost => (removeRows_noRequestLost_iff h _).mp (halike.symm.noRequestLost hlost),
        fun hspares => (h.removeRows hspares).alike halike fun other hother => ?_⟩
      exact (hworkers other hother).imp_right fun hok => hok.mono le_rfl
    | fetch work => exact .of_inv (h.setStep i worker (Nat.le_refl q.clock))
    | fetching work since =>
      have hsince := h.workers worker (mem_of_getElem? hworker)
      rw [hphase] at hsince
      exact .of_inv (h.respond i worker work hsince succeeds)
    | finish work succeeded =>
      have hfinish := h.finish i worker work succeeded succeeds
      cases succeeded with
      | false => exact ⟨fun _ => trivial, fun _ => hfinish.keeps nofun⟩
      | true => exact ⟨fun hlost => hfinish.lost hlost rfl, fun hcov => hfinish.keeps fun _ => hcov⟩
    | report =>
      have hstep : (q.setStep i worker .acquire).Inv := h.setStep i worker trivial
      refine ⟨(report_noRequestLost_iff h i worker).mp, fun hcov => ?_⟩
      exact ⟨(report_noRequestLost_iff h i worker).mpr hcov, h.requested_le, h.covered_le,
        fun other hother => (hstep.workers other hother).mono le_rfl⟩

lemma Inv.step (h : q.Inv) (op : QueueOp) : Exact q (queueStep q op) (op.Current q) := by
  cases op with
  | enqueue target => exact .of_inv (h.enqueue target)
  | project deletions reconciliation =>
    exact .of_inv (h.persistProjectionBatch deletions reconciliation)
  | traverse missing =>
    have hmarked : (q.markAbsent missing).Inv :=
      h.alike {} fun _ => .inl
    exact ⟨(removeRows_noRequestLost_iff hmarked _).mp, hmarked.removeRows⟩
  | finalize => exact .of_inv (h.alike {} fun _ => .inl)
  | recover =>
    simp only [queueStep, recoverOrphanedReconciliationWork]
    split
    · exact .of_inv h
    · exact .of_inv h.requeueRunning
  | tick => exact .of_inv (h.alike {} fun _ => .inl)
  | spawn =>
    refine .of_inv (h.alike {} fun worker hworker => ?_)
    refine (mem_append.mp hworker).imp_right fun hnew => ?_
    rw [mem_singleton.mp hnew]
    trivial
  | advance i succeeds => exact h.advance i succeeds
  | rest i =>
    simp only [queueStep]
    split
    · exact .of_inv (h.setStep i _ trivial)
    · exact .of_inv h
  | crash =>
    exact .of_inv (h.alike {} fun _ hworker =>
      .inl (mem_of_mem_eraseIdx hworker))

end ReconciliationQueue

instance QueueOp.decidableCurrent (q : ReconciliationQueue) (op : QueueOp) :
    Decidable (op.Current q) := by
  unfold QueueOp.Current
  repeat' split
  all_goals infer_instance

/-- No request is lost at any time of a run exactly if every step is current. -/
theorem queueRun_noRequestLost_iff (ops : List QueueOp) :
    (∀ k, (queueRun (ops.take k)).NoRequestLost) ↔
      AllSteps queueStep (fun q op => op.Current q) ReconciliationQueue.init ops :=
  (allSteps_iff ReconciliationQueue.Inv.init (fun _ h => h.toNoRequestLost)
    (fun _ op h => (h.step op).lost) fun _ op h => (h.step op).keeps).symm

/-! ## A request during the fetch -/

def continuityTarget : ReconciliationTarget :=
  ⟨eventContinuityWorkId, .live, "account", .object [("id", .string "account")]⟩

/-- A worker has claimed the event-continuity item and begun its fetch. -/
def continuityFetch : List QueueOp :=
  [.enqueue continuityTarget, .spawn "1:0", .advance 0 true, .advance 0 true, .advance 0 true]

/-- Continuity is requested again before the worker begins, and it is fetched once for both. -/
theorem queueRun_noRequestLost_continuity :
    ∀ k, (queueRun (((.enqueue continuityTarget :: continuityFetch) ++
      [.advance 0 true, .advance 0 true, .advance 0 true] : List QueueOp).take k)).NoRequestLost :=
  (queueRun_noRequestLost_iff _).mpr (by decide)

/-- Continuity is requested again during the fetch: the row is deleted, and `event_catchup` is
reported ready. So it is when the request comes after the deletion and before the report, where the
row stays. -/
theorem request_lost :
    let lost := queueRun (continuityFetch ++ [.enqueue continuityTarget, .advance 0 true,
      .advance 0 true, .advance 0 true])
    let early := queueRun (continuityFetch ++ [.advance 0 true, .advance 0 true,
      .enqueue continuityTarget, .advance 0 true])
    (¬ lost.NoRequestLost ∧ lost.rows.rows.length = 0 ∧ lost.ready = 2 ∧
      lost.covered eventContinuityWorkId = 1) ∧
    ¬ early.NoRequestLost ∧ early.ready = 2 ∧ early.covered eventContinuityWorkId = 1 := by
  refine ⟨⟨fun h => ?_, by decide, by decide, by decide⟩, fun h => ?_, by decide, by decide⟩
  · have hkept := h.kept eventContinuityWorkId
    exact absurd hkept (by decide)
  · exact absurd h.ready (by decide)

end Replicant.Managed
