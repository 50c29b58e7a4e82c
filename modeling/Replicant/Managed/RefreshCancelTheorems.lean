import Replicant.Managed.RefreshTheorems

/-!
# Cancelled refresh runs

`claim_refresh_run` passes over runs whose cancellation is requested, so a run that no worker
executes when the flag is set, or that its worker gives up after that, stays as it is for good. Other
cancelled runs come to an end.
-/

namespace Replicant.Managed

open Lib RefreshStore

/-! ## Runs that are stuck -/

variable {runId : String}

namespace RefreshStore

variable {s t : RefreshStore} {owner now : ℕ} {worker next : RefreshWorker} {a : WorkerAct}

lemma RunChange.run?_eq (h : RunChange s owner now runId worker a t next) {other : String}
    (hnext : next.run? = some other) : other = runId := by
  cases h with
  | stay _ run | extend _ run _ _ =>
    rw [run] at hnext
    exact (Option.some.inj hnext).symm
  | leave _ | close _ _ _ => cases hnext

end RefreshStore

variable {row : RefreshRunRow}

namespace RefreshState

variable {s : RefreshState}

/-- The cancellation of the run is requested, and no worker executes it. -/
structure Stuck (s : RefreshState) (row : RefreshRunRow) : Prop where
  mem : row ∈ s.store.runs
  cancel : row.cancelRequested = true
  alone : ∀ owner, (s.worker owner).run? ≠ some row.runId

section

variable (h : s.Stuck row)

include h

lemma Stuck.isClaimable (now : ℕ) : row.isClaimable now = false := by
  unfold RefreshRunRow.isClaimable
  rw [h.cancel]
  rfl

lemma Stuck.workerStep (owner : ℕ) (a : WorkerAct) : (s.step (.worker owner a)).Stuck row := by
  refine ⟨mem_worker_step h.mem a (h.alone owner) (h.isClaimable s.now), h.cancel, fun j hj => ?_⟩
  cases hact : s.store.act owner s.now (s.worker owner) a with
  | none =>
    rw [step_worker_none hact] at hj
    exact h.alone j hj
  | some result =>
    obtain ⟨store, next⟩ := result
    rw [step_worker_some hact] at hj
    rcases run?_worker_set hj with ⟨-, hnext⟩ | ⟨-, hold⟩
    · cases hrun : (s.worker owner).run? with
      | none =>
        -- the claimed run is not flagged, so it is another one
        obtain ⟨claimed, f, hclaim, hloop, -, -⟩ := act_claim hrun hact
        obtain ⟨hclaimed, hcan, -⟩ := nextClaim_eq_some hclaim
        rw [hloop] at hnext
        rw [Table.eq_of_key hclaimed h.mem (Option.some.inj hnext), h.isClaimable] at hcan
        cases hcan
      | some =>
        have heq := (act_runChange hrun hact).run?_eq hnext
        exact h.alone owner (heq ▸ hrun)
    · exact h.alone j hold

lemma Stuck.step {op : RefreshOp} (hop : op.isWorkerStep = true) : (s.step op).Stuck row := by
  cases op with
  | spawn => exact ⟨h.mem, h.cancel, fun j => by rw [run?_spawn]; exact h.alone j⟩
  | worker owner a => exact h.workerStep owner a
  | advance => exact ⟨h.mem, h.cancel, h.alone⟩
  | _ => cases hop

lemma Stuck.foldl {ops : List RefreshOp}
    (hops : ∀ op ∈ ops, op.isWorkerStep = true) : (ops.foldl RefreshState.step s).Stuck row :=
  List.foldlRecOn (motive := (Stuck · row)) ops _ h fun _ hs op hmem => hs.step (hops op hmem)

/-- Whatever the workers do, the run keeps its status. -/
lemma Stuck.not_canCancel (hstat : row.status ≠ .cancelled) : ¬ s.CanCancel row.runId := by
  rintro ⟨ops, hops, later, hlater, hkey, hcanc⟩
  have hstuck := h.foldl hops
  rw [Table.eq_of_key hlater hstuck.mem hkey] at hcanc
  exact hstat hcanc

lemma Stuck.not_cancelFinishes (hopen : row.status.terminal = false) : ¬ s.CancelFinishes := by
  intro hfinishes
  rcases hfinishes row h.mem h.cancel hopen with ⟨owner, hrun, -⟩ | hcan
  · exact h.alone owner hrun
  · refine h.not_canCancel (fun hstat => ?_) hcan
    rw [hstat] at hopen
    cases hopen

end

end RefreshState

/-! ## Runs that end -/

/-- Cancelling meets a worker that executes the run, and that worker does not give it up. -/
def RefreshOp.MeetsWorker (s : RefreshState) : RefreshOp → Prop
  | .cancel runId => ∀ row ∈ s.store.runs, row.runId = runId → row.status.terminal = false →
      s.workers.any (·.run? = some runId) = true
  | .crash owner => ∀ row ∈ s.store.runs, (s.worker owner).run? = some row.runId →
      row.cancelRequested = false
  | .worker owner a => s.store.leavesOpen (s.worker owner) a = true →
      ∀ row ∈ s.store.runs, (s.worker owner).run? = some row.runId → row.cancelRequested = false
  | _ => True

namespace RefreshState

variable {s : RefreshState} {owner : ℕ}

/-- A run whose cancellation is requested is executed until its end. -/
structure Attended (s : RefreshState) : Prop where
  good : s.Good
  executed : ∀ row ∈ s.store.runs, row.cancelRequested = true → row.status.terminal = false →
    ∃ owner, (s.worker owner).run? = some row.runId

lemma Attended.cancelFinishes (h : s.Attended) : s.CancelFinishes := by
  intro row hrow hcancel hopen
  obtain ⟨owner, hrun⟩ := h.executed row hrow hcancel hopen
  obtain ⟨hlease, hactive⟩ := h.good.active_of_runId hrun hrow rfl
  exact .inl ⟨owner, hrun, hlease, hactive⟩

lemma exists_worker_of_any (h : s.workers.any (·.run? = some runId) = true) :
    ∃ owner, (s.worker owner).run? = some runId := by
  obtain ⟨w, hw, hrun⟩ := List.any_eq_true.mp h
  obtain ⟨owner, hlen, rfl⟩ := List.mem_iff_getElem.mp hw
  refine ⟨owner, ?_⟩
  unfold worker
  rw [List.getD_eq_getElem _ _ hlen]
  exact of_decide_eq_true hrun

lemma worker_set_ne {w : RefreshWorker} {j : ℕ} (h : j ≠ owner) (store : RefreshStore) :
    worker { s with store, workers := s.workers.set owner w } j = s.worker j :=
  (worker_set w j).trans (if_neg fun hin => h hin.1)

section

variable (h : s.Attended)

include h

/-- An operator call: the workers stay where they are. -/
lemma Attended.withStore {result : Except StoreError RefreshStore}
    (hgood : (s.withStore result).Good)
    (hexecuted : ∀ store, result = .ok store → ∀ row ∈ store.runs, row.cancelRequested = true →
      row.status.terminal = false → ∃ owner, (s.worker owner).run? = some row.runId) :
    (s.withStore result).Attended := by
  cases result with
  | error => exact h
  | ok store => exact ⟨hgood, hexecuted store rfl⟩

/-- While a worker executes a run, no other run is cancelled and open. -/
lemma Attended.runId_eq (hrun : (s.worker owner).run? = some runId) (hrow : row ∈ s.store.runs)
    (hcancel : row.cancelRequested = true)
    (hopen : row.status.terminal = false) : row.runId = runId := by
  obtain ⟨j, hj⟩ := h.executed row hrow hcancel hopen
  rw [h.good.alone hrun hj, hrun] at hj
  exact (Option.some.inj hj).symm

/-- The worker that executes a cancelled run ends it or goes on with it. -/
lemma Attended.executed_act {a : WorkerAct} (hop : (RefreshOp.worker owner a).MeetsWorker s)
    (hrun : (s.worker owner).run? = some runId) {store : RefreshStore} {next : RefreshWorker}
    (hchg : s.store.RunChange owner s.now runId (s.worker owner) a store next)
    (hrow : row ∈ store.runs) (hcancel : row.cancelRequested = true)
    (hopen : row.status.terminal = false) : next.run? = some row.runId := by
  cases hchg with
  | stay runs run =>
    rw [runs] at hrow
    rw [run, h.runId_eq hrun hrow hcancel hopen]
  | leave reason =>
    have hkey := h.runId_eq hrun hrow hcancel hopen
    rcases reason with hleaves | ⟨r, hr, hrkey, hstat⟩
    · rw [hop hleaves row hrow (by rw [hrun, hkey])] at hcancel
      cases hcancel
    · exact absurd (h.good.status_of_runId hrun hr hrkey) hstat
  | extend runs run =>
    rcases runs.cases hrow with ⟨r, hr, hkey, rfl⟩ | ⟨hold, hne⟩
    · rw [run, runs.key, hkey]
    · exact absurd (h.runId_eq hrun hold hcancel hopen) hne
  | close runs cancel status =>
    rcases runs.cases hrow with ⟨r, hr, hkey, rfl⟩ | ⟨hold, hne⟩
    · rcases status with hleaves | hterm
      · rw [cancel, hop hleaves r hr (by rw [hrun, hkey])] at hcancel
        cases hcancel
      · rw [hterm] at hopen
        cases hopen
    · exact absurd (h.runId_eq hrun hold hcancel hopen) hne

lemma Attended.workerStep {a : WorkerAct}
    (hop : (RefreshOp.worker owner a).MeetsWorker s) : (s.step (.worker owner a)).Attended := by
  refine ⟨h.good.workerStep owner a, fun row hrow hcancel hopen => ?_⟩
  cases hact : s.store.act owner s.now (s.worker owner) a with
  | none =>
    rw [step_worker_none hact] at hrow ⊢
    exact h.executed row hrow hcancel hopen
  | some result =>
    obtain ⟨store, next⟩ := result
    rw [step_worker_some hact] at hrow ⊢
    cases hrun : (s.worker owner).run? with
    | some =>
      have hchg := act_runChange hrun hact
      refine ⟨owner, ?_⟩
      have hself : worker { s with store, workers := s.workers.set owner next } owner = next :=
        (worker_set next owner).trans (if_pos ⟨rfl, lt_length_of_run? hrun⟩)
      rw [hself]
      exact h.executed_act hop hrun hchg hrow hcancel hopen
    | none =>
      -- the claimed run is not cancelled, and the others are executed as before
      obtain ⟨claimed, f, hclaim, -, runs, hf⟩ := act_claim hrun hact
      obtain ⟨hclaimed, hcan, -⟩ := nextClaim_eq_some hclaim
      rcases runs.cases hrow with ⟨r, hr, hkey, rfl⟩ | ⟨hold, -⟩
      · rw [Table.eq_of_key hr hclaimed hkey, (hf claimed).2.2.2] at hcancel
        unfold RefreshRunRow.isClaimable at hcan
        rw [hcancel] at hcan
        cases hcan
      · obtain ⟨j, hj⟩ := h.executed row hold hcancel hopen
        have hne : j ≠ owner := by
          rintro rfl
          rw [hrun] at hj
          cases hj
        exact ⟨j, by rw [worker_set_ne hne store]; exact hj⟩

lemma Attended.cancelStep (hop : (RefreshOp.cancel runId).MeetsWorker s) :
    (s.step (.cancel runId)).Attended := by
  refine h.withStore (h.good.cancel runId) fun store hcall row hrow hcancel hopen => ?_
  rcases cancelRefreshRun_rewrites hcall with rfl | ⟨hopenRows, f, runs, hf⟩
  · exact h.executed row hrow hcancel hopen
  · rcases runs.cases hrow with ⟨r, hr, hkey, rfl⟩ | ⟨hold, -⟩
    · rw [runs.key, hkey]
      exact exists_worker_of_any (hop r hr hkey (hopenRows r hr hkey))
    · exact h.executed row hold hcancel hopen

lemma Attended.approveStep {phase : RefreshPhase} {digest : String}
    (hwaits : ∀ row ∈ s.store.runs, row.runId = runId → row.status = .awaitingApproval) :
    (s.step (.approve runId phase digest)).Attended := by
  refine h.withStore (h.good.approve hwaits) fun store hcall row hrow hcancel hopen => ?_
  obtain ⟨f, runs, hf⟩ := approveRefreshPhase_rewrites hcall
  rcases runs.cases hrow with ⟨r, hr, hkey, rfl⟩ | ⟨hold, -⟩
  · -- a cancelled run is executed, so it does not wait for approval
    have hstat := hwaits r hr hkey
    rw [(hf r).2] at hcancel
    obtain ⟨j, hj⟩ := h.executed r hr hcancel (by rw [hstat]; rfl)
    rw [h.good.status_of_runId hj hr rfl] at hstat
    cases hstat
  · exact h.executed row hold hcancel hopen

lemma Attended.crashStep (hop : (RefreshOp.crash owner).MeetsWorker s) :
    (s.step (.crash owner)).Attended := by
  refine ⟨h.good.crash owner, fun row hrow hcancel hopen => ?_⟩
  obtain ⟨j, hj⟩ := h.executed row hrow hcancel hopen
  have hne : j ≠ owner := by
    rintro rfl
    rw [hop row hrow hj] at hcancel
    cases hcancel
  refine ⟨j, ?_⟩
  rw [← worker_set_ne hne s.store] at hj
  exact hj

lemma Attended.step {op : RefreshOp} (hlease : op.WithinLease s)
    (hop : op.MeetsWorker s) : (s.step op).Attended := by
  cases op with
  | create runId mode phases =>
    refine ⟨h.good.create runId mode phases, fun row hrow hcancel hopen => ?_⟩
    rcases mem_createRefreshRun hrow with hold | ⟨-, hnew⟩
    · exact h.executed row hold hcancel hopen
    · rw [hnew] at hcancel
      cases hcancel
  | spawn =>
    refine ⟨h.good.step hlease, fun row hrow hcancel hopen => ?_⟩
    obtain ⟨j, hj⟩ := h.executed row hrow hcancel hopen
    exact ⟨j, by rw [run?_spawn]; exact hj⟩
  | worker => exact h.workerStep hop
  | crash => exact h.crashStep hop
  | approve => exact h.approveStep hlease
  | cancel => exact h.cancelStep hop
  | advance => exact ⟨h.good.step hlease, h.executed⟩

end

end RefreshState

/-! ## Runs -/

instance RefreshOp.decidableMeetsWorker (s : RefreshState) : DecidablePred (MeetsWorker s)
  | .cancel _ => inferInstanceAs (Decidable (∀ row ∈ _, _ → _ → _))
  | .crash _ => inferInstanceAs (Decidable (∀ row ∈ _, _ → _))
  | .worker .. => inferInstanceAs (Decidable (_ → ∀ row ∈ _, _ → _))
  | .create .. | .spawn | .approve .. | .advance _ => inferInstanceAs (Decidable True)

/-- In every run within leases, where cancelling meets a worker that does not give the run up, a
cancelled run can finish. -/
theorem refreshRun_cancelFinishes (ops : List RefreshOp)
    (h : AllSteps RefreshState.step (fun s op => op.WithinLease s ∧ op.MeetsWorker s)
      RefreshState.init ops) : (refreshRun ops).CancelFinishes := by
  have hinit : RefreshState.init.Attended :=
    ⟨RefreshState.good_init, Table.forall_mem_empty⟩
  have hend : (refreshRun ops).Attended :=
    h.foldl hinit fun _ _ hs hop => hs.step hop.1 hop.2
  exact hend.cancelFinishes

/-- A run is cancelled while its phase is executed, and the worker polls. -/
theorem refreshRun_cancelFinishes_polled : (refreshRun
    [.create "r1" .apply [.account], .spawn, .worker 0 .claim, .worker 0 .check, .worker 0 .begin,
      .cancel "r1", .advance 1000, .worker 0 .poll]).CancelFinishes :=
  refreshRun_cancelFinishes _ (by decide)

/-- A run that is cancelled before a worker claims it. -/
theorem cancelled_in_queue_stays :
    ∃ row ∈ (refreshRun [.create "r1" .apply [.account], .cancel "r1"]).store.runs,
      row.cancelRequested = true ∧ row.status = .queued ∧
      ¬ (refreshRun [.create "r1" .apply [.account], .cancel "r1"]).CanCancel row.runId ∧
      ¬ (refreshRun [.create "r1" .apply [.account], .cancel "r1"]).CancelFinishes := by
  have hqueued : ∃ row ∈ (refreshRun [.create "r1" .apply [.account], .cancel "r1"]).store.runs,
      row.cancelRequested = true ∧ row.status = .queued := by decide
  obtain ⟨row, hrow, hcancel, hstat⟩ := hqueued
  have hstuck : (refreshRun [.create "r1" .apply [.account], .cancel "r1"]).Stuck row :=
    ⟨hrow, hcancel, nofun⟩
  refine ⟨row, hrow, hcancel, hstat, hstuck.not_canCancel ?_, hstuck.not_cancelFinishes ?_⟩
  · rw [hstat]
    decide
  · rw [hstat]
    rfl

end Replicant.Managed
