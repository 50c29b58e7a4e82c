import Replicant.Live.Bootstrap

/-!
# Lost continuity

Where continuity is lost only before a bootstrap has its snapshot, that snapshot repairs it. Nothing
else does: no step starts the first resnapshot.
-/

namespace Replicant.Live

open Lib Web Provider

namespace Provider

variable {s : Provider} {op : ProviderOp} {task : BootstrapTask}

/-! ## Repair -/

lemma Inv.replaces (h : s.Inv) : s.Replaces := by
  intro task snapshot number htask habort hstage
  obtain ⟨lostAt, heq, -⟩ := step_arrive h htask habort hstage
  rw [heq]
  exact (loadSnapshot_sameView ((h.task task htask).fetched snapshot number hstage).newer).replay _

/-- The snapshot that a bootstrap has repairs what was lost before it. -/
lemma Inv.repaired_arrive {snapshot : RuntimeSnapshot} {number lostAt : ℕ} (h : s.Inv)
    (htask : s.bootstrap = some task) (habort : task.aborted = false)
    (hstage : task.stage = .fetched snapshot number) (hlost : lostAt ≤ number) :
    (s.step .arrive).Repaired lostAt := by
  obtain ⟨_, heq, -⟩ := step_arrive h htask habort hstage
  rw [heq]
  exact ⟨(h.loaded htask hstage).1, number, snapshot.revision, rfl, hlost,
    ((h.task task htask).fetched snapshot number hstage).answered⟩

lemma Inv.repaired_serve (h : s.Inv) (htask : s.bootstrap = some task)
    (habort : task.aborted = false) (hstage : task.stage = .fetching) :
    ((s.step .serve).step .arrive).Repaired s.lostAt := by
  obtain ⟨aborted, buffered, stage, callers, waiters⟩ := task
  cases hstage
  have hserve : (s.step .serve).bootstrap = some ⟨aborted, buffered,
      .fetched s.daemon s.served.length, callers, waiters⟩ := by
    simp only [Provider.step, htask]
  exact h.serve.repaired_arrive hserve habort rfl h.lost

lemma Inv.canRepair (h : s.Inv) (hneeds : s.state.needsResnapshot = true)
    (hopen : s.isOpen = true) : s.CanRepair := by
  have hconn : s.isConnected = true := by
    unfold isOpen at hopen
    unfold isConnected
    cases hsocket : s.socket <;> simp_all
  obtain ⟨task, htask⟩ := Option.isSome_iff_exists.mp (h.running hneeds hconn)
  have hfits := h.task task htask
  cases habort : task.aborted with
  | false =>
    cases hstage : task.stage with
    | health => exact absurd hstage hfits.probed
    | fetching =>
      exact ⟨[.serve, .arrive], ⟨trivial, trivial, trivial⟩, h.repaired_serve htask habort hstage⟩
    | fetched snapshot number =>
      have hlost := (hfits.fetched snapshot number hstage).afterLoss hneeds habort
      exact ⟨[.arrive], ⟨trivial, trivial⟩, h.repaired_arrive htask habort hstage hlost⟩
  | true =>
    -- The aborted request is rejected, and the connection starts its own.
    obtain ⟨socket, hsocket, hready⟩ := isConnected_iff.mp hconn
    have hwaits := hfits.awaited socket hsocket hready
    rw [habort] at hwaits
    have hne : task.waiters ≠ [] := List.ne_nil_of_mem hwaits
    have hdrops := drops_foldl (s := { s with bootstrap := none }) "" rfl hfits.callers
    have hstep : s.step (.bootstrapFails "") = task.waiters.foldl Provider.runBootstrap
        (task.callers.foldl (·.failed "") { s with bootstrap := none }) := by
      simp only [Provider.step, htask]
      rfl
    rw [foldl_runBootstrap hdrops.bootstrap hfits.waiters, if_neg hne] at hstep
    have hrepaired := (h.bootstrapFails "").repaired_serve (by rw [hstep]) rfl rfl
    have hlostAt : (s.step (.bootstrapFails "")).lostAt = s.lostAt := by
      rw [hstep]
      exact hdrops.lostAt
    rw [hlostAt] at hrepaired
    refine ⟨[.bootstrapFails "", .serve, .arrive], ⟨?_, trivial, trivial, trivial⟩, hrepaired⟩
    intro other hother
    cases htask.symm.trans hother
    exact habort

/-- In every run where continuity is lost only before a bootstrap has its snapshot, it can be
repaired, and a snapshot that arrives replaces what was there. -/
theorem keepsContinuity_of_recoverable (daemon : RuntimeSnapshot) (ops : List ProviderOp)
    (h : AllSteps Provider.step (fun s op => s.Genuine op ∧ s.Recoverable op) (start daemon) ops) :
    (run daemon ops).KeepsContinuity := by
  have hinv : (run daemon ops).Inv :=
    h.foldl (inv_start daemon) fun _ _ hinv hok => hinv.step hok.1 hok.2
  exact ⟨hinv.canRepair, hinv.replaces⟩

/-- A live message cannot be parsed while the first bootstrap is still to be answered; then the
daemon restarts with a higher revision. -/
theorem keepsContinuity_sample :
    (run ⟨3, [], fun _ => none⟩ [.healthy, .open, .parseError "invalid", .message ⟨3, .snapshot⟩,
      .serve, .arrive, .publish [] fun _ => none, .message ⟨4, .other⟩, .restart 5 [], .close,
      .entityError "failed", .healthTimer, .healthy, .open]).KeepsContinuity :=
  keepsContinuity_of_recoverable _ _ (by decide)

/-! ## Continuity that is not repaired -/

/-- Continuity is lost, and nothing is under way. -/
structure Stuck (s : Provider) : Prop where
  lost : s.state.needsResnapshot = true
  bootstrap : s.bootstrap = none
  resnapshotTimer : s.resnapshotTimer = false
  healthTimer : s.healthTimer = false
  healthProbeActive : s.healthProbeActive = false
  socket : ∀ socket ∈ s.socket, socket.ready = .open

lemma Stuck.step (h : s.Stuck) (hsmooth : s.Smooth op) : (s.step op).Stuck := by
  cases op with
  | publish => exact { h with }
  | healthTimer => simpa only [step, h.healthTimer, Bool.false_eq_true, if_false] using h
  | healthy => simpa only [step, h.healthProbeActive, Bool.false_eq_true, if_false] using h
  | resnapshotTimer => simpa only [step, h.resnapshotTimer, Bool.false_eq_true, if_false] using h
  | bootstrapHealth | serve | arrive | bootstrapFails error =>
    simpa only [step, h.bootstrap] using h
  | «open» =>
    unfold step
    dsimp only
    split
    · next hsocket => cases h.socket _ hsocket
    · exact h
  | message message =>
    unfold step
    dsimp only
    split
    · next hsome => cases h.bootstrap.symm.trans hsome
    · -- The reducer drops every live message until a snapshot is there.
      have hdropped : s.state.reduce (.live message) = s.state := if_pos h.lost
      rw [dispatch_of_needs fun _ => h.lost, hdropped]
      exact h
    · exact h
  | _ => exact hsmooth.elim

lemma Stuck.not_canRepair (h : s.Stuck) : ¬ s.CanRepair := by
  rintro ⟨ops, hsmooth, hrepaired, -⟩
  have hstuck : (ops.foldl Provider.step s).Stuck :=
    hsmooth.foldl h fun _ _ hstuck hop => hstuck.step hop
  exact absurd (hstuck.lost.symm.trans hrepaired) nofun

/-- The daemon publishes between the snapshot of the bootstrap and the marker of the socket, and no
resnapshot is ever started; and a restarted daemon with a smaller revision cannot replace what the
browser has. -/
theorem exists_unrepaired : (∃ daemon ops, AllSteps Provider.step Genuine (start daemon) ops ∧
      (run daemon ops).state.needsResnapshot = true ∧ (run daemon ops).isOpen = true ∧
      ¬ (run daemon ops).CanRepair) ∧
    ∃ daemon ops, AllSteps Provider.step Genuine (start daemon) ops ∧
      ¬ (run daemon ops).Replaces := by
  constructor
  · refine ⟨⟨3, [], fun _ => none⟩, [.healthy, .serve, .arrive, .publish [] fun _ => none, .open,
      .message ⟨4, .snapshot⟩], by decide, rfl, rfl, Stuck.not_canRepair ?_⟩
    exact ⟨rfl, rfl, rfl, rfl, rfl, by decide⟩
  · refine ⟨⟨3, [], fun _ => none⟩, [.healthy, .open, .serve, .arrive, .restart 1 [], .close,
      .healthTimer, .healthy, .open, .serve], by decide, fun hreplaces => ?_⟩
    have hview := hreplaces _ _ _ rfl rfl rfl
    exact absurd hview.1 (by decide)

end Provider

end Replicant.Live
