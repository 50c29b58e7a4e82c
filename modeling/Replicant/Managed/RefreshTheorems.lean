import Replicant.Managed.RefreshWorkers

/-!
# Leases and outcomes of refresh runs

As long as no worker outlives its lease, and approval is given to runs that wait for it, a worker
that executes a run holds its lease, so one run is live at a time and an outcome is final. A stalled
worker writes into the run all the same.
-/

namespace Replicant.Managed

open Lib List Table RefreshRunRow RefreshStore

variable {a : WorkerAct} {next : RefreshWorker}

variable {f : RefreshRunRow → RefreshRunRow} {phase : RefreshPhase} {rest : List RefreshPhase}
  {row : RefreshRunRow} {store : RefreshStore} {digest runId : String} {s : RefreshState}

/-! ## What an act does to the run -/

namespace RefreshStore

variable {s t : RefreshStore} {owner now : ℕ} {worker : RefreshWorker}

/-- The act gives the run up without a final outcome. -/
def leavesOpen (s : RefreshStore) : RefreshWorker → WorkerAct → Bool
  | .blocking _ _, .block => true
  | .finishing runId phase _, .completePhase =>
    (s.checkpoints.find? (runId, phase)).any (·.status = .awaitingApproval)
  | .ended _ (.rateLimited _), .settle => true
  | .ended _ _, .abandon => true
  | _, _ => false

/-- The row of the run is rewritten by `f`, the others stay. -/
structure Rewrites (s t : RefreshStore) (runId : String) (f : RefreshRunRow → RefreshRunRow) :
    Prop where
  mem : ∀ row, row ∈ t.runs ↔ ∃ r ∈ s.runs, (if r.runId = runId then f r else r) = row
  key : ∀ row, (f row).runId = row.runId

lemma rewrites (h : t.runs.rows =
      s.runs.rows.map fun row => if decide (row.runId = runId) = true then f row else row)
    (key : ∀ row, (f row).runId = row.runId) : Rewrites s t runId f := by
  refine ⟨fun row => ?_, key⟩
  rw [mem_def, h, List.mem_map]
  simp only [decide_eq_true_eq]
  rfl

/-- What a worker that executes a run does to the rows of `refresh_runs`. -/
inductive RunChange (s : RefreshStore) (owner now : ℕ) (runId : String) (worker : RefreshWorker)
    (a : WorkerAct) : RefreshStore → RefreshWorker → Prop where
  | stay {t : RefreshStore} {next : RefreshWorker} (runs : t.runs = s.runs)
      (run : next.run? = some runId) : RunChange s owner now runId worker a t next
  /-- The run is let go as it is. -/
  | leave (reason : s.leavesOpen worker a = true ∨
      ∃ row ∈ s.runs, row.runId = runId ∧ row.status ≠ .running) :
      RunChange s owner now runId worker a s .idle
  /-- The run goes on with a new lease. -/
  | extend {t : RefreshStore} {next : RefreshWorker} {f : RefreshRunRow → RefreshRunRow}
      (runs : Rewrites s t runId f) (run : next.run? = some runId)
      (cancel : ∀ row, (f row).cancelRequested = row.cancelRequested)
      (lease : ∀ row, row.status = .running → row.leaseOwner = some owner →
        (f row).status = .running ∧ (f row).leaseOwner = some owner ∧
          (f row).leaseExpiresAt = some (now + refreshLeaseMillis)) :
      RunChange s owner now runId worker a t next
  /-- The run gets another status, and the worker is done with it. -/
  | close {t : RefreshStore} {f : RefreshRunRow → RefreshRunRow} (runs : Rewrites s t runId f)
      (cancel : ∀ row, (f row).cancelRequested = row.cancelRequested)
      (status : s.leavesOpen worker a = true ∨ ∀ row, (f row).status.terminal = true) :
      RunChange s owner now runId worker a t .idle

lemma runChange_check : RunChange s owner now runId worker a s (s.checkStep runId phase rest) := by
  unfold checkStep
  split
  · exact .stay rfl rfl
  · next run hrun =>
    obtain ⟨hmem, hkey⟩ := find?_eq_some.mp hrun
    split
    · next hstat =>
      refine .leave (.inr ⟨run, hmem, hkey, fun hrunn => ?_⟩)
      rw [hrunn] at hstat
      revert hstat
      decide
    · split
      · exact .stay rfl rfl
      · split <;> exact .stay rfl rfl

lemma runChange_begin (h : s.beginStep owner now runId phase rest = (t, next)) :
    RunChange s owner now runId worker a t next := by
  unfold beginStep beginRefreshPhase at h
  cases hfind : s.runs.find? runId with
  | none =>
    rw [hfind] at h
    cases h
    exact .stay rfl rfl
  | some run =>
    rw [hfind] at h
    cases hcancel : run.cancelRequested with
    | true =>
      simp only [hcancel, if_true] at h
      cases h
      exact .close (rewrites rfl fun _ => rfl) (fun _ => rfl) (.inr fun _ => rfl)
    | false =>
      simp only [hcancel, Bool.false_eq_true, if_false] at h
      cases h
      exact .extend (rewrites rfl fun _ => rfl) rfl (fun _ => rfl) fun _ _ _ => ⟨rfl, rfl, rfl⟩

lemma runChange_checkpoint {progress : RefreshProgress} :
    RunChange s owner now runId worker a (s.updateRefreshCheckpoint runId phase progress now)
      (.executing runId phase rest) := by
  -- the lease is renewed whoever holds it, but only while the run is running
  refine .extend (rewrites rfl fun row => ?_) rfl (fun row => ?_) fun row hstat howner => ?_
  · split <;> rfl
  · split <;> rfl
  · rw [if_pos hstat]
    exact ⟨hstat, howner, rfl⟩

lemma runChange_completePhase (h : s.completePhaseStep now runId phase rest = (t, next)) :
    RunChange s owner now runId (.finishing runId phase rest) .completePhase t next := by
  unfold completePhaseStep completeRefreshPhase at h
  cases hcheckpoint : s.checkpoints.find? (runId, phase) with
  | none =>
    rw [hcheckpoint] at h
    cases h
    exact .stay rfl rfl
  | some checkpoint =>
    rw [hcheckpoint] at h
    by_cases hstat : checkpoint.status = .awaitingApproval
    · simp only [if_pos hstat] at h
      cases h
      refine .close (rewrites rfl fun _ => rfl) (fun _ => rfl) (.inl ?_)
      show ((s.checkpoints.find? (runId, phase)).any _) = true
      rw [hcheckpoint]
      exact decide_eq_true hstat
    · simp only [if_neg hstat] at h
      cases h
      exact .stay rfl rfl

lemma runChange_completeRun (h : s.completeRunStep now runId = (t, next)) :
    RunChange s owner now runId worker a t next := by
  unfold completeRunStep completeRefreshRun at h
  cases hfind : s.runs.find? runId with
  | none =>
    rw [hfind] at h
    cases h
    exact .stay rfl rfl
  | some run =>
    rw [hfind] at h
    cases h
    refine .close (rewrites rfl fun _ => rfl) (fun _ => rfl) (.inr fun _ => ?_)
    -- a dry run ends as `completed_dry_run`
    show RefreshRunState.terminal (if _ then _ else _) = true
    split <;> rfl

/-- Every act of a worker that executes a run is one of these changes. -/
lemma act_runChange (hrun : worker.run? = some runId)
    (h : s.act owner now worker a = some (t, next)) :
    RunChange s owner now runId worker a t next := by
  cases worker with
  | idle | dead => cases hrun
  | loop _ todo =>
    cases hrun
    cases todo with
    | nil =>
      cases a with
      | completeRun => exact runChange_completeRun (Option.some.inj h)
      | fail =>
        cases h
        exact .stay rfl rfl
      | _ => cases h
    | cons =>
      cases a with
      | check =>
        cases h
        exact runChange_check
      | fail =>
        cases h
        exact .stay rfl rfl
      | _ => cases h
  | blocking _ =>
    cases hrun
    cases a with
    | block =>
      cases h
      exact .close (rewrites rfl fun _ => rfl) (fun _ => rfl) (.inl rfl)
    | fail =>
      cases h
      exact .stay rfl rfl
    | _ => cases h
  | starting _ =>
    cases hrun
    cases a with
    | begin => exact runChange_begin (Option.some.inj h)
    | fail =>
      cases h
      exact .stay rfl rfl
    | _ => cases h
  | executing _ =>
    cases hrun
    cases a with
    | checkpoint =>
      cases h
      exact runChange_checkpoint
    | poll =>
      cases h
      refine .stay rfl ?_
      unfold pollStep
      split <;> rfl
    | finalize =>
      cases h
      refine .stay ?_ rfl
      unfold finalizeStep
      split <;> rfl
    | finishPhase | rateLimit | fail =>
      cases h
      exact .stay rfl rfl
    | _ => cases h
  | finishing _ =>
    cases hrun
    cases a with
    | completePhase => exact runChange_completePhase (Option.some.inj h)
    | fail =>
      cases h
      exact .stay rfl rfl
    | _ => cases h
  | ended _ outcome =>
    cases hrun
    cases a with
    | settle =>
      cases h
      cases outcome with
      | rateLimited => exact .close (rewrites rfl fun _ => rfl) (fun _ => rfl) (.inl rfl)
      | cancelled | failed =>
        exact .close (rewrites rfl fun _ => rfl) (fun _ => rfl) (.inr fun _ => rfl)
    | abandon =>
      cases h
      exact .leave (.inl (by cases outcome <;> rfl))
    | _ => cases h

/-- A worker without a run can only claim one. -/
lemma act_claim (hrun : worker.run? = none) (h : s.act owner now worker a = some (t, next)) :
    ∃ row f, s.nextClaim now = some row ∧ next.run? = some row.runId ∧ Rewrites s t row.runId f ∧
      ∀ r, (f r).status = .running ∧ (f r).leaseOwner = some owner ∧
        (f r).leaseExpiresAt = some (now + refreshLeaseMillis) ∧
        (f r).cancelRequested = r.cancelRequested := by
  cases worker with
  | idle =>
    cases a with
    | claim =>
      replace h : s.claimStep owner now = some (t, next) := h
      unfold claimStep claimRefreshRun at h
      cases hclaim : s.nextClaim now with
      | none =>
        rw [hclaim] at h
        cases h
      | some row =>
        rw [hclaim] at h
        cases h
        exact ⟨row, _, rfl, rfl, rewrites rfl fun _ => rfl, fun _ => ⟨rfl, rfl, rfl, rfl⟩⟩
    | _ => cases h
  | dead => cases a <;> cases h
  | _ => cases hrun

/-- A run is claimed only while none is active. -/
lemma nextClaim_eq_some (h : s.nextClaim now = some row) :
    row ∈ s.runs ∧ row.isClaimable now = true ∧ ∀ r ∈ s.runs, r.isActive now = false := by
  unfold nextClaim at h
  split at h
  · cases h
  · next hactive =>
    have hsorted := mem_of_mem_head? h
    rw [mem_insertionSort, mem_filter] at hsorted
    refine ⟨hsorted.1, hsorted.2, fun r hr => ?_⟩
    rw [Bool.not_eq_true, any_eq_false] at hactive
    exact Bool.eq_false_iff.mpr (hactive r hr)

section

variable (h : Rewrites s t runId f)

include h

lemma Rewrites.mem_other (hrow : row ∈ s.runs) (hne : row.runId ≠ runId) : row ∈ t.runs :=
  (h.mem row).mpr ⟨row, hrow, if_neg hne⟩

lemma Rewrites.mem_self (hrow : row ∈ s.runs) (heq : row.runId = runId) : f row ∈ t.runs :=
  (h.mem (f row)).mpr ⟨row, hrow, if_pos heq⟩

lemma Rewrites.cases (hrow : row ∈ t.runs) : (∃ r ∈ s.runs, r.runId = runId ∧ row = f r)
    ∨ (row ∈ s.runs ∧ row.runId ≠ runId) := by
  obtain ⟨r, hr, hf⟩ := (h.mem row).mp hrow
  by_cases heq : r.runId = runId
  · rw [if_pos heq] at hf
    exact .inl ⟨r, hr, heq, hf.symm⟩
  · rw [if_neg heq] at hf
    rw [← hf]
    exact .inr ⟨hr, heq⟩

end

variable {mode : RefreshMode} {phases : List RefreshPhase}

lemma mem_createRefreshRun (h : row ∈ (s.createRefreshRun runId mode phases now).runs) :
    row ∈ s.runs ∨ (row.status = .queued ∧ row.cancelRequested = false) := by
  by_cases hkey : s.runs.hasKey runId = true
  · refine .inl ?_
    unfold createRefreshRun Table.insert at h
    rwa [dif_pos hkey] at h
  · rcases (mem_insert (Bool.eq_false_iff.mpr hkey)).mp h with hold | rfl
    · exact .inl hold
    · exact .inr ⟨rfl, rfl⟩

lemma mem_createRefreshRun_of_mem
    (h : row ∈ s.runs) : row ∈ (s.createRefreshRun runId mode phases now).runs := by
  by_cases hkey : s.runs.hasKey runId = true
  · unfold createRefreshRun Table.insert
    rwa [dif_pos hkey]
  · exact (mem_insert (Bool.eq_false_iff.mpr hkey)).mpr (.inl h)

lemma approveRefreshPhase_rewrites (h : s.approveRefreshPhase runId phase digest now = .ok t) :
    ∃ f, Rewrites s t runId f ∧
      ∀ row, (f row).status = .queued ∧ (f row).cancelRequested = row.cancelRequested := by
  unfold approveRefreshPhase at h
  simp only at h
  split at h
  · cases h
  · split at h
    · cases h
    · cases h
      exact ⟨_, rewrites rfl fun _ => rfl, fun _ => ⟨rfl, rfl⟩⟩

/-- Cancelling sets the flag of a run that is not at its end. -/
lemma cancelRefreshRun_rewrites (h : s.cancelRefreshRun runId now = .ok t) :
    t = s ∨ ((∀ row ∈ s.runs, row.runId = runId → row.status.terminal = false) ∧
      ∃ f, Rewrites s t runId f ∧ ∀ row, (f row).status = row.status ∧
        (f row).leaseOwner = row.leaseOwner ∧ (f row).leaseExpiresAt = row.leaseExpiresAt) := by
  unfold cancelRefreshRun at h
  cases hfind : s.runs.find? runId with
  | none =>
    rw [hfind] at h
    cases h
  | some =>
    obtain ⟨hrun, hkey⟩ := find?_eq_some.mp hfind
    simp only [hfind] at h
    split at h
    · cases h
      exact .inl rfl
    · next hstat =>
      cases h
      refine .inr ⟨fun row hrow heq => ?_, _, rewrites rfl fun _ => rfl, fun _ => ⟨rfl, rfl, rfl⟩⟩
      rw [eq_of_key hrow hrun (heq.trans hkey.symm)]
      exact Bool.eq_false_iff.mpr hstat

end RefreshStore

/-! ## The lease of a worker -/

lemma RefreshRunRow.isActive_iff {now : ℕ} : row.isActive now = true ↔
      row.status = .running ∧ ∃ expires, row.leaseExpiresAt = some expires ∧ now < expires := by
  unfold isActive
  rw [Bool.and_eq_true, decide_eq_true_eq, Option.any_eq_true]
  simp only [decide_eq_true_eq]

lemma RefreshRunRow.isActive_of_lease {now : ℕ} (hstat : row.status = .running)
    (hexpires : row.leaseExpiresAt = some (now + refreshLeaseMillis)) : row.isActive now = true := by
  have hlt : now < now + refreshLeaseMillis := by
    unfold refreshLeaseMillis
    omega
  exact isActive_iff.mpr ⟨hstat, _, hexpires, hlt⟩

namespace RefreshState

variable {owner : ℕ}

/-- An operator call has one outcome to look at. -/
lemma withStore_of_ok {P : RefreshState → Prop} {result : Except StoreError RefreshStore} (h : P s)
    (hok : ∀ store, result = .ok store → P { s with store }) : P (s.withStore result) := by
  cases result with
  | error => exact h
  | ok store => exact hok store rfl

lemma step_worker_none
    (h : s.store.act owner s.now (s.worker owner) a = none) : s.step (.worker owner a) = s := by
  simp only [step, h]

lemma step_worker_some (h : s.store.act owner s.now (s.worker owner) a = some (store, next)) :
    s.step (.worker owner a) = { s with store, workers := s.workers.set owner next } := by
  simp only [step, h]

lemma worker_set (w : RefreshWorker) (j : ℕ) :
    worker { s with workers := s.workers.set owner w } j =
      if j = owner ∧ owner < s.workers.length then w else s.worker j := by
  unfold worker
  rw [getD_eq_getElem?_getD, getD_eq_getElem?_getD, getElem?_set]
  by_cases hj : owner = j
  · by_cases hlen : owner < s.workers.length
    · rw [if_pos hj, if_pos hlen, if_pos ⟨hj.symm, hlen⟩]
      rfl
    · rw [if_pos hj, if_neg hlen, if_neg fun h => hlen h.2]
      rw [hj] at hlen
      rw [getElem?_eq_none (Nat.le_of_not_lt hlen)]
  · rw [if_neg hj, if_neg fun h => hj h.1.symm]

lemma lt_length_of_run? (h : (s.worker owner).run? = some runId) : owner < s.workers.length := by
  by_contra hlen
  unfold worker at h
  rw [getD_eq_default _ _ (Nat.le_of_not_lt hlen)] at h
  cases h

lemma any_run? (h : (s.worker owner).run? = some runId) :
    s.workers.any (·.run? = some runId) = true := by
  have hlen := lt_length_of_run? h
  unfold worker at h
  rw [getD_eq_getElem _ _ hlen] at h
  rw [any_eq_true]
  exact ⟨_, getElem_mem hlen, decide_eq_true h⟩

/-- A worker that executes a run after one of them moved. -/
lemma run?_worker_set {w : RefreshWorker} {j : ℕ}
    (h : (worker { s with workers := s.workers.set owner w } j).run? = some runId) :
    (j = owner ∧ w.run? = some runId) ∨ (j ≠ owner ∧ (s.worker j).run? = some runId) := by
  rw [worker_set] at h
  by_cases hj : j = owner
  · refine .inl ⟨hj, ?_⟩
    by_cases hlen : owner < s.workers.length
    · rwa [if_pos ⟨hj, hlen⟩] at h
    · rw [if_neg fun hin => hlen hin.2, hj] at h
      exact absurd (lt_length_of_run? h) hlen
  · rw [if_neg fun hin => hj hin.1] at h
    exact .inr ⟨hj, h⟩

lemma run?_spawn (j : ℕ) : ((s.step .spawn).worker j).run? = (s.worker j).run? := by
  show ((s.workers ++ [RefreshWorker.idle]).getD j .dead).run? = (s.workers.getD j .dead).run?
  rcases Nat.lt_trichotomy j s.workers.length with hlt | rfl | hgt
  · rw [getD_append _ _ _ _ hlt]
  · rw [getD_append_right _ _ _ _ le_rfl, Nat.sub_self, getD_eq_default _ _ le_rfl]
    rfl
  · rw [getD_eq_default _ _ (by rw [length_append]; exact hgt), getD_eq_default _ _ hgt.le]

/-- Every worker that executes a run holds its lease, and one run is live. -/
structure Good (s : RefreshState) : Prop where
  held : ∀ owner runId, (s.worker owner).run? = some runId →
    ∃ row ∈ s.store.runs, row.runId = runId ∧ row.leaseOwner = some owner ∧
      row.isActive s.now = true
  oneLive : s.OneLive

lemma good_init : init.Good :=
  ⟨nofun, forall_mem_empty⟩

lemma Good.alone (h : s.Good) {other : ℕ} {otherRun : String}
    (hown : (s.worker owner).run? = some runId) (hother : (s.worker other).run? = some otherRun) :
    other = owner := by
  obtain ⟨row, hrow, -, hlease, hactive⟩ := h.held owner runId hown
  obtain ⟨row', hrow', -, hlease', hactive'⟩ := h.held other otherRun hother
  rw [h.oneLive row' hrow' row hrow hactive' hactive, hlease] at hlease'
  exact (Option.some.inj hlease').symm

lemma oneLive_of_active {t : RefreshState} (h : s.OneLive)
    (hback : ∀ row ∈ t.store.runs, row.isActive t.now = true →
      ∃ old ∈ s.store.runs, old.runId = row.runId ∧ old.isActive s.now = true) : t.OneLive := by
  intro left hleft right hright hleftActive hrightActive
  obtain ⟨old, hold, hkey, hactive⟩ := hback left hleft hleftActive
  obtain ⟨old', hold', hkey', hactive'⟩ := hback right hright hrightActive
  have heq := h old hold old' hold' hactive hactive'
  refine eq_of_key hleft hright ?_
  rw [← hkey, ← hkey', heq]

section

variable (h : s.Good)

include h

section

variable (hrun : (s.worker owner).run? = some runId)

include hrun

section

variable (hrow : row ∈ s.store.runs) (hkey : row.runId = runId)

include hrow hkey

lemma Good.active_of_runId : row.leaseOwner = some owner ∧ row.isActive s.now = true := by
  obtain ⟨held, hheld, hheldKey, hlease, hactive⟩ := h.held owner runId hrun
  rw [eq_of_key hrow hheld (hkey.trans hheldKey.symm)]
  exact ⟨hlease, hactive⟩

lemma Good.status_of_runId : row.status = .running :=
  (isActive_iff.mp (h.active_of_runId hrun hrow hkey).2).1

end

lemma Good.oneLive_of_rewrites (runs : s.store.Rewrites store runId f)
    (workers : List RefreshWorker) : OneLive { s with store, workers } := by
  refine oneLive_of_active h.oneLive fun row hrow hactive => ?_
  rcases runs.cases hrow with ⟨r, hr, hkey, rfl⟩ | ⟨hold, -⟩
  · exact ⟨r, hr, (runs.key r).symm, (h.active_of_runId hrun hr hkey).2⟩
  · exact ⟨row, hold, rfl, hactive⟩

/-- While a worker executes a run, only its own move matters for who executes what. -/
lemma Good.of_moved
    (hheld : next.run? = none ∨ next.run? = some runId ∧ ∃ row ∈ store.runs, row.runId = runId ∧
      row.leaseOwner = some owner ∧ row.isActive s.now = true)
    (hlive : OneLive { s with store, workers := s.workers.set owner next }) :
    Good { s with store, workers := s.workers.set owner next } := by
  refine ⟨fun j r hj => ?_, hlive⟩
  rcases run?_worker_set hj with ⟨rfl, hnext⟩ | ⟨hne, hold⟩
  · rcases hheld with hnone | ⟨hsome, hrow⟩
    · rw [hnone] at hnext
      cases hnext
    · rw [hsome] at hnext
      cases hnext
      exact hrow
  · exact absurd (h.alone hrun hold) hne

lemma Good.act (hchg : s.store.RunChange owner s.now runId (s.worker owner) a store next) :
    Good { s with store, workers := s.workers.set owner next } := by
  obtain ⟨row, hrow, hkey, howner, hactive⟩ := h.held owner runId hrun
  cases hchg with
  | stay runs run =>
    refine h.of_moved hrun (.inr ⟨run, row, ?_, hkey, howner, hactive⟩) ?_
    · rw [runs]
      exact hrow
    · refine oneLive_of_active h.oneLive fun r hr hlive => ⟨r, ?_, rfl, hlive⟩
      rw [← runs]
      exact hr
  | leave => exact h.of_moved hrun (.inl rfl) h.oneLive
  | @extend _ _ f runs run _ lease =>
    have hstat := (isActive_iff.mp hactive).1
    obtain ⟨hrunn, hlease, hexpires⟩ := lease row hstat howner
    have hrenewed := isActive_of_lease hrunn hexpires
    exact h.of_moved hrun (.inr ⟨run, f row, runs.mem_self hrow hkey, (runs.key row).trans hkey,
      hlease, hrenewed⟩) (h.oneLive_of_rewrites hrun runs _)
  | close runs _ _ => exact h.of_moved hrun (.inl rfl) (h.oneLive_of_rewrites hrun runs _)

end

/-- A claim: nothing is live before it. -/
lemma Good.claim (hidle : (s.worker owner).run? = none)
    (hact : s.store.act owner s.now (s.worker owner) a = some (store, next)) :
    Good { s with store, workers := s.workers.set owner next } := by
  obtain ⟨row, f, hclaim, hnext, runs, hf⟩ := act_claim hidle hact
  obtain ⟨hrow, -, hquiet⟩ := nextClaim_eq_some hclaim
  have hclaimed {r : RefreshRunRow} (hr : r ∈ store.runs) (hactive : r.isActive s.now = true) :
      r = f row := by
    rcases runs.cases hr with ⟨old, hold, hkey, rfl⟩ | ⟨hold, -⟩
    · rw [eq_of_key hold hrow hkey]
    · rw [hquiet r hold] at hactive
      cases hactive
  refine ⟨fun j r hj => ?_, fun left hleft right hright hleftActive hrightActive => ?_⟩
  · rcases run?_worker_set hj with ⟨rfl, hrun⟩ | ⟨-, hold⟩
    · rw [hnext] at hrun
      cases hrun
      obtain ⟨hstat, hlease, hexpires, -⟩ := hf row
      exact ⟨f row, runs.mem_self hrow rfl, runs.key row, hlease, isActive_of_lease hstat hexpires⟩
    · -- a worker with a run would make it live
      obtain ⟨held, hheld, -, -, hactive⟩ := h.held j r hold
      rw [hquiet held hheld] at hactive
      cases hactive
  · rw [hclaimed hleft hleftActive, hclaimed hright hrightActive]

lemma Good.workerStep (owner : ℕ) (a : WorkerAct) : (s.step (.worker owner a)).Good := by
  cases hact : s.store.act owner s.now (s.worker owner) a with
  | none =>
    rw [step_worker_none hact]
    exact h
  | some result =>
    obtain ⟨store, next⟩ := result
    rw [step_worker_some hact]
    cases hrun : (s.worker owner).run? with
    | none => exact h.claim hrun hact
    | some => exact h.act hrun (act_runChange hrun hact)

/-- A call that keeps the rows of the runs that are executed. -/
lemma Good.withRuns (hheld : ∀ row ∈ s.store.runs, row.isActive s.now = true →
      ∃ later ∈ store.runs, later.runId = row.runId ∧ later.leaseOwner = row.leaseOwner ∧
        later.isActive s.now = true) (hback : ∀ row ∈ store.runs, row.isActive s.now = true →
      ∃ old ∈ s.store.runs, old.runId = row.runId ∧ old.isActive s.now = true) :
    Good { s with store } := by
  refine ⟨fun owner runId hrun => ?_, oneLive_of_active h.oneLive hback⟩
  obtain ⟨row, hrow, hkey, hlease, hactive⟩ := h.held owner runId hrun
  obtain ⟨later, hlater, hkey', hlease', hactive'⟩ := hheld row hrow hactive
  exact ⟨later, hlater, hkey'.trans hkey, hlease'.trans hlease, hactive'⟩

lemma Good.create (runId : String) (mode : RefreshMode) (phases : List RefreshPhase) :
    (s.step (.create runId mode phases)).Good := by
  refine h.withRuns (fun row hrow hactive => ?_) fun row hrow hactive => ?_
  · exact ⟨row, mem_createRefreshRun_of_mem hrow, rfl, rfl, hactive⟩
  · rcases mem_createRefreshRun hrow with hold | ⟨hqueued, -⟩
    · exact ⟨row, hold, rfl, hactive⟩
    · rw [(isActive_iff.mp hactive).1] at hqueued
      cases hqueued

lemma Good.approve
    (hwaits : ∀ row ∈ s.store.runs, row.runId = runId → row.status = .awaitingApproval) :
    (s.step (.approve runId phase digest)).Good := by
  refine withStore_of_ok h fun store happrove => ?_
  obtain ⟨f, runs, hf⟩ := approveRefreshPhase_rewrites happrove
  refine h.withRuns (fun row hrow hactive => ?_) fun row hrow hactive => ?_
  · have hne : row.runId ≠ runId := by
      intro heq
      have hrunn := (isActive_iff.mp hactive).1
      rw [hwaits row hrow heq] at hrunn
      cases hrunn
    exact ⟨row, runs.mem_other hrow hne, rfl, rfl, hactive⟩
  · rcases runs.cases hrow with ⟨r, hr, hkey, rfl⟩ | ⟨hold, -⟩
    · have hrunn := (isActive_iff.mp hactive).1
      rw [(hf r).1] at hrunn
      cases hrunn
    · exact ⟨row, hold, rfl, hactive⟩

lemma Good.cancel (runId : String) : (s.step (.cancel runId)).Good := by
  refine withStore_of_ok h fun store hcancel => ?_
  rcases cancelRefreshRun_rewrites hcancel with rfl | ⟨-, f, runs, hf⟩
  · exact h
  · have hactive (row : RefreshRunRow) : (f row).isActive s.now = row.isActive s.now := by
      unfold isActive
      rw [(hf row).1, (hf row).2.2]
    refine h.withRuns (fun row hrow hlive => ?_) fun row hrow hlive => ?_
    · by_cases hkey : row.runId = runId
      · exact ⟨f row, runs.mem_self hrow hkey, runs.key row, (hf row).2.1,
          (hactive row).trans hlive⟩
      · exact ⟨row, runs.mem_other hrow hkey, rfl, rfl, hlive⟩
    · rcases runs.cases hrow with ⟨r, hr, -, rfl⟩ | ⟨hold, -⟩
      · exact ⟨r, hr, (runs.key r).symm, (hactive r).symm.trans hlive⟩
      · exact ⟨row, hold, rfl, hlive⟩

lemma Good.crash (owner : ℕ) : (s.step (.crash owner)).Good := by
  refine ⟨fun j r hj => ?_, h.oneLive⟩
  rcases run?_worker_set hj with ⟨-, hdead⟩ | ⟨-, hold⟩
  · cases hdead
  · exact h.held j r hold

lemma Good.advance {millis : ℕ}
    (hleases : ∀ row ∈ s.store.runs, s.workers.any (·.run? = some row.runId) = true →
      row.isActive (s.now + millis) = true) : (s.step (.advance millis)).Good := by
  refine ⟨fun owner runId hrun => ?_, oneLive_of_active h.oneLive fun row hrow hactive => ?_⟩
  · obtain ⟨row, hrow, hkey, hlease, -⟩ := h.held owner runId hrun
    refine ⟨row, hrow, hkey, hlease, hleases row hrow ?_⟩
    rw [hkey]
    exact any_run? hrun
  · obtain ⟨hstat, expires, hexpires, hlt⟩ := isActive_iff.mp hactive
    have hlt : s.now + millis < expires := hlt
    exact ⟨row, hrow, rfl, isActive_iff.mpr ⟨hstat, expires, hexpires, by omega⟩⟩

end

end RefreshState

/-! ## Runs -/

/-- No worker outlives the lease of its run, and what is approved waits for approval. -/
def RefreshOp.WithinLease (s : RefreshState) : RefreshOp → Prop
  | .advance millis => ∀ row ∈ s.store.runs, s.workers.any (·.run? = some row.runId) = true →
      row.isActive (s.now + millis) = true
  | .approve runId _ _ => ∀ row ∈ s.store.runs, row.runId = runId → row.status = .awaitingApproval
  | _ => True

instance RefreshOp.decidableWithinLease (s : RefreshState) (op : RefreshOp) :
    Decidable (op.WithinLease s) := by
  cases op <;> unfold RefreshOp.WithinLease <;> infer_instance

namespace RefreshState

variable {op : RefreshOp}

lemma Good.step (h : s.Good) (hop : op.WithinLease s) : (s.step op).Good := by
  cases op with
  | create runId mode phases => exact h.create runId mode phases
  | spawn =>
    refine ⟨fun owner runId hrun => ?_, h.oneLive⟩
    rw [run?_spawn] at hrun
    exact h.held owner runId hrun
  | worker owner a => exact h.workerStep owner a
  | crash owner => exact h.crash owner
  | approve => exact h.approve hop
  | cancel runId => exact h.cancel runId
  | advance => exact h.advance hop

/-- A worker writes to its own run, or to one that can be claimed. -/
lemma mem_worker_step (hrow : row ∈ s.store.runs) {owner : ℕ} (a : WorkerAct)
    (hother : (s.worker owner).run? ≠ some row.runId) (hclaimable : row.isClaimable s.now = false) :
    row ∈ (s.step (.worker owner a)).store.runs := by
  cases hact : s.store.act owner s.now (s.worker owner) a with
  | none =>
    rw [step_worker_none hact]
    exact hrow
  | some result =>
    obtain ⟨store, next⟩ := result
    rw [step_worker_some hact]
    show row ∈ store.runs
    cases hrun : (s.worker owner).run? with
    | none =>
      obtain ⟨claimed, f, hclaim, -, runs, -⟩ := act_claim hrun hact
      obtain ⟨hclaimed, hcan, -⟩ := nextClaim_eq_some hclaim
      refine runs.mem_other hrow fun heq => ?_
      rw [← eq_of_key hrow hclaimed heq, hclaimable] at hcan
      cases hcan
    | some runId =>
      have hne : row.runId ≠ runId := fun heq => hother (heq ▸ hrun)
      cases act_runChange hrun hact with
      | stay runs => rwa [runs]
      | leave => exact hrow
      | extend runs | close runs => exact runs.mem_other hrow hne

/-- A run that is at its end is not written again. -/
lemma Good.mem_step_of_terminal (h : s.Good) (hop : op.WithinLease s) (hrow : row ∈ s.store.runs)
    (hterm : row.status.terminal = true) : row ∈ (s.step op).store.runs := by
  cases op with
  | create => exact mem_createRefreshRun_of_mem hrow
  | worker owner a =>
    -- neither the worker's own run nor one that can be claimed is at its end
    refine mem_worker_step hrow a (fun hrun => ?_) ?_
    · rw [h.status_of_runId hrun hrow rfl] at hterm
      cases hterm
    · unfold isClaimable
      revert hterm
      cases row.status <;> simp [RefreshRunState.terminal]
  | approve =>
    refine withStore_of_ok (P := fun s => row ∈ s.store.runs) hrow fun store happrove => ?_
    obtain ⟨f, runs, -⟩ := approveRefreshPhase_rewrites happrove
    refine runs.mem_other hrow fun heq => ?_
    rw [hop row hrow heq] at hterm
    cases hterm
  | cancel =>
    refine withStore_of_ok (P := fun s => row ∈ s.store.runs) hrow fun store hcancel => ?_
    rcases cancelRefreshRun_rewrites hcancel with rfl | ⟨hopen, f, runs, -⟩
    · exact hrow
    · refine runs.mem_other hrow fun heq => ?_
      rw [hopen row hrow heq] at hterm
      cases hterm
  | _ => exact hrow

lemma Good.noStaleWrite (h : s.Good) (op : RefreshOp) : s.NoStaleWrite op := by
  cases op with
  | worker owner =>
    rintro runId ⟨hrun, hlost⟩
    obtain ⟨row, hrow, hkey, hlease, -⟩ := h.held owner runId hrun
    exact absurd hlease (hlost row hrow hkey)
  | _ => trivial

end RefreshState

/-- In every run within leases, one run is live, no worker writes without its lease, and outcomes
are final. -/
theorem refreshRun_exclusive (ops : List RefreshOp)
    (h : AllSteps RefreshState.step (fun s op => op.WithinLease s) RefreshState.init ops) :
    RefreshRunsExclusive ops := by
  rintro before after rfl
  obtain ⟨hbefore, hafter⟩ := AllSteps.append.mp h
  have hgood : (refreshRun before).Good :=
    hbefore.foldl RefreshState.good_init fun _ _ hs hop => hs.step hop
  refine ⟨hgood.oneLive, fun op _ => hgood.noStaleWrite op, fun row hrow hterm => ?_⟩
  have hend : (refreshRun (before ++ after)) = after.foldl RefreshState.step (refreshRun before) :=
    foldl_append
  -- the row itself stays, so its status does
  have hkept := hafter.foldl (P := fun s => s.Good ∧ row ∈ s.store.runs) ⟨hgood, hrow⟩
    fun s op hs hop => ⟨hs.1.step hop, hs.1.mem_step_of_terminal hop hs.2 hterm⟩
  rw [hend]
  exact ⟨row, hkept.2, rfl, rfl⟩

/-- A run of one phase that ends within its lease, then a second worker on the next run. -/
theorem refreshRun_exclusive_two : RefreshRunsExclusive
    [.create "r1" .apply [.account], .advance 1, .create "r2" .apply [.account], .spawn, .spawn,
      .worker 0 .claim, .worker 0 .check, .worker 0 .begin, .advance 299999,
      .worker 0 (.checkpoint ⟨.null, 1, 1, true, true⟩), .worker 0 .finishPhase,
      .worker 0 .completePhase, .worker 0 .completeRun, .advance 300000, .worker 1 .claim,
      .worker 1 .check, .crash 1, .advance 300000, .worker 0 .claim] :=
  refreshRun_exclusive _ (by decide)

/-- Worker 0 stalls between reading the status of a run and beginning its phase; worker 1 takes the
run over, completes it and claims the next one. -/
def stalledRun : List RefreshOp :=
  [.create "r1" .apply [.account], .advance 1, .create "r2" .apply [.account], .spawn, .spawn,
    .worker 0 .claim, .worker 0 .check, .advance 300000,
    .worker 1 .claim, .worker 1 .check, .worker 1 .begin, .worker 1 .finishPhase,
    .worker 1 .completePhase, .worker 1 .completeRun, .worker 1 .claim]

/-- A phase that waits for approval, in a run that fails on an error after that. -/
def failedRun : List RefreshOp :=
  [.create "r1" .apply [.devices], .spawn, .worker 0 .claim, .worker 0 .check, .worker 0 .begin,
    .worker 0 (.finalize "d" true), .worker 0 (.fail "persistence"), .worker 0 .settle]

/-- The stalled worker goes on: the completed run is running again, beside the other one. Approval
queues the failed run again. -/
theorem stalled_worker_reopens : ¬ (refreshRun (stalledRun ++ [.worker 0 .begin])).OneLive ∧
    ¬ (refreshRun stalledRun).NoStaleWrite (.worker 0 .begin) ∧
    ¬ (refreshRun stalledRun).KeepsOutcomes (refreshRun (stalledRun ++ [.worker 0 .begin])) ∧
    ¬ (refreshRun failedRun).KeepsOutcomes
      (refreshRun (failedRun ++ [.approve "r1" .devices "d"])) := by
  have hcompd : ∃ row ∈ (refreshRun stalledRun).store.runs,
      row.runId = "r1" ∧ row.status = .completed := by decide
  have hrunn : ∀ row ∈ (refreshRun (stalledRun ++ [.worker 0 .begin])).store.runs,
      row.runId = "r1" → row.status = .running := by decide
  have hfailed : ∃ row ∈ (refreshRun failedRun).store.runs,
      row.runId = "r1" ∧ row.status = .failed := by decide
  have hqueued : ∀ row ∈ (refreshRun (failedRun ++ [.approve "r1" .devices "d"])).store.runs,
      row.runId = "r1" → row.status = .queued := by decide
  obtain ⟨row, hrow, hkey, hstat⟩ := hcompd
  refine ⟨?_, fun hstale => ?_, fun hkeeps => ?_, fun hkeeps => ?_⟩
  · unfold RefreshState.OneLive
    decide
  · have hlost : (refreshRun stalledRun).LostLease 0 "r1" := ⟨rfl, by decide⟩
    have hlater := hrunn row ((hstale "r1" hlost).1 row hrow hkey) hkey
    rw [hstat] at hlater
    cases hlater
  · obtain ⟨later, hlater, hkey', hstat'⟩ := hkeeps row hrow (by rw [hstat]; rfl)
    rw [hrunn later hlater (hkey'.trans hkey), hstat] at hstat'
    cases hstat'
  · obtain ⟨row, hrow, hkey, hstat⟩ := hfailed
    obtain ⟨later, hlater, hkey', hstat'⟩ := hkeeps row hrow (by rw [hstat]; rfl)
    rw [hqueued later hlater (hkey'.trans hkey), hstat] at hstat'
    cases hstat'

end Replicant.Managed
