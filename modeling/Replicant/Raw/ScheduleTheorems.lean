import Mathlib.Tactic.Ring
import Replicant.Raw.WaiterTheorems

/-!
# Budget and blocks of the rate limiter

A bucket saves the credit of an idle window and spends it in one burst, so a window that starts with
the burst holds up to `2 * capacity - 1` permits. A delay that the server enforces stops every call
except those that have taken their permit and sleep for their slot in the ledger.
-/

namespace Replicant.Raw

open Lib List RateLimitCoordinator Stage

variable {policy : RateLimitPolicy} {op : RateLimitOp} {ticket : ℕ}

/-! ## The schedule -/

lemma creditFloor_le (now : ℕ) (policy : RateLimitPolicy) : creditFloor now policy ≤ now := by
  unfold creditFloor
  simp only
  split
  · exact Nat.sub_le now _
  · exact Nat.le_refl now

/-- The credit that a bucket can save is that of all permits but one. -/
lemma le_creditFloor_add (now : ℕ) (policy : RateLimitPolicy) :
    now ≤ creditFloor now policy + policy.spacing * (max policy.capacity 1 - 1) := by
  unfold creditFloor
  simp only
  split
  · omega
  · omega

namespace RateLimitCoordinator

variable {s t : RateLimitCoordinator}

/-- What a step does to the schedule of the bucket, observations and policies apart. -/
inductive ScheduleChange (s t : RateLimitCoordinator) : Prop where
  | idle (next : t.bucket.next = s.bucket.next) (policy : t.bucket.policy = s.bucket.policy)
      (grants : t.grants = s.grants) (now : s.now ≤ t.now)
  /-- A call finds that no permit is due. -/
  | refuse (wait : s.now < s.bucket.floored s.now) (next : t.bucket.next = s.bucket.floored s.now)
      (policy : t.bucket.policy = s.bucket.policy) (grants : t.grants = s.grants)
      (now : t.now = s.now)
  | grant (due : s.bucket.floored s.now ≤ s.now)
      (next : t.bucket.next = s.bucket.floored s.now + s.bucket.policy.spacing)
      (policy : t.bucket.policy = s.bucket.policy) (grants : t.grants = s.now :: s.grants)
      (now : t.now = s.now)

lemma SameSchedule.change (h : s.SameSchedule t) : s.ScheduleChange t :=
  .idle (by rw [h.1]) (by rw [h.1]) h.2.1 (Nat.le_of_eq h.2.2.symm)

lemma act_scheduleChange (hop : op.keepsSchedule = true) : s.ScheduleChange (s.act op) := by
  by_cases hsets : op.setsSchedule = true
  · cases op with
    | tick => exact .idle rfl rfl rfl (Nat.le_add_right _ _)
    | observe status snapshot =>
      -- no delay is enforced, so only the snapshot is written
      have hnone : enforcedDelay status snapshot = none := Option.isNone_iff_eq_none.mp hop
      refine .idle ?_ ?_ rfl (Nat.le_refl _) <;>
        simp only [act, observeStep, Bucket.observe, hnone]
    | setPolicy => cases hop
    | _ => cases hsets
  · have hact := s.act_turn op
    generalize s.act op = t at hact
    cases hact with
    | aside _ _ _ schedule => exact (schedule (Bool.eq_false_iff.mpr hsets)).change
    | debited _ due => exact .grant due rfl rfl rfl rfl
    | refused _ wait => exact .refuse wait rfl rfl rfl rfl
    | _ => exact SameSchedule.change ⟨rfl, rfl, rfl⟩

lemma step_scheduleChange (hop : op.keepsSchedule = true) : s.ScheduleChange (s.step op) := by
  cases act_scheduleChange hop with
  | idle next policy grants now => exact .idle next policy grants now
  | refuse wait next policy grants now => exact .refuse wait next policy grants now
  | grant due next policy grants now => exact .grant due next policy grants now

lemma ScheduleChange.next_le (h : s.ScheduleChange t) : s.bucket.next ≤ t.bucket.next := by
  have hfloored : s.bucket.next ≤ s.bucket.floored s.now := Nat.le_max_left _ _
  cases h with
  | idle next | refuse _ next | grant _ next => omega

lemma ScheduleChange.now_le (h : s.ScheduleChange t) : s.now ≤ t.now := by
  cases h with
  | idle _ _ _ now => exact now
  | refuse _ _ _ _ now | grant _ _ _ _ now => exact Nat.le_of_eq now.symm

/-! ## The permits of a window -/

/-- The permits taken from an instant on. -/
def grantsFrom (s : RateLimitCoordinator) (start : ℕ) : ℕ :=
  s.grants.countP fun instant => start ≤ instant

lemma grantsIn_le_grantsFrom (start length : ℕ) : s.grantsIn start length ≤ s.grantsFrom start :=
  countP_mono_left fun _ _ h => by
    simp only [decide_eq_true_eq] at h ⊢
    exact h.1

/-- Every permit moves the schedule on, from the credit that the first one could use. -/
structure Budgeted (policy : RateLimitPolicy) (s : RateLimitCoordinator) : Prop where
  policy_eq : s.bucket.policy = policy
  credit : ∀ start, 0 < s.grantsFrom start → start + policy.spacing * s.grantsFrom start ≤
      s.bucket.next + policy.spacing * (max policy.capacity 1 - 1)
  window : ∀ start, s.grantsIn start policy.refillEvery ≤ 2 * policy.capacity - 1

lemma grantsFrom_cons (hgrants : t.grants = s.now :: s.grants) (start : ℕ) :
    t.grantsFrom start = s.grantsFrom start + if start ≤ s.now then 1 else 0 := by
  unfold grantsFrom
  rw [hgrants, countP_cons]
  simp only [decide_eq_true_eq]

lemma Budgeted.grant_credit (h : s.Budgeted policy)
    (hnext : t.bucket.next = s.bucket.floored s.now + s.bucket.policy.spacing)
    (hgrants : t.grants = s.now :: s.grants) (start : ℕ)
    (hpos : 0 < t.grantsFrom start) : start + policy.spacing * t.grantsFrom start ≤
      t.bucket.next + policy.spacing * (max policy.capacity 1 - 1) := by
  have hpolicy := h.policy_eq
  have hfloor : creditFloor s.now s.bucket.policy ≤ s.bucket.floored s.now := Nat.le_max_right _ _
  have hfloored : s.bucket.next ≤ s.bucket.floored s.now := Nat.le_max_left _ _
  have hsaved := le_creditFloor_add s.now s.bucket.policy
  rw [hpolicy] at hsaved hfloor hnext
  have hcount := grantsFrom_cons hgrants start
  by_cases hlate : start ≤ s.now
  · rw [if_pos hlate] at hcount
    rw [hcount, Nat.mul_add, Nat.mul_one, hnext]
    by_cases hfirst : s.grantsFrom start = 0
    · rw [hfirst, Nat.mul_zero]
      omega
    · have hold := h.credit start (Nat.pos_of_ne_zero hfirst)
      omega
  · -- no permit was taken after the present
    rw [if_neg hlate] at hcount
    rw [hcount, Nat.add_zero, hnext]
    rw [hcount, Nat.add_zero] at hpos
    have hold := h.credit start hpos
    omega

/-- A window that takes one more permit has not spent twice the capacity yet. -/
lemma grantsFrom_le {start next count now : ℕ}
    (hcapacity : 1 ≤ policy.capacity) (hdvd : policy.capacity ∣ policy.refillEvery)
    (hcredit : start + policy.spacing * count ≤ next + policy.spacing * (max policy.capacity 1 - 1))
    (hnext : next ≤ now + policy.spacing)
    (hend : now < start + policy.refillEvery) : count ≤ 2 * policy.capacity - 1 := by
  have hmax : max policy.capacity 1 = policy.capacity := Nat.max_eq_left hcapacity
  have hspacing : policy.spacing * policy.capacity = policy.refillEvery := by
    unfold RateLimitPolicy.spacing
    rw [hmax]
    exact Nat.div_mul_cancel hdvd
  have hsplit : policy.spacing * policy.capacity =
      policy.spacing * (policy.capacity - 1) + policy.spacing := by
    obtain ⟨c, hc⟩ := Nat.exists_eq_add_of_le' hcapacity
    rw [hc, Nat.add_sub_cancel, Nat.mul_add, Nat.mul_one]
  have hlt : policy.spacing * count < policy.spacing * (2 * policy.capacity) := by
    have hdouble : policy.spacing * (2 * policy.capacity) =
        policy.refillEvery + policy.refillEvery := by
      rw [← hspacing]
      ring
    rw [hmax] at hcredit
    omega
  have hcount := Nat.lt_of_mul_lt_mul_left hlt
  omega

lemma Budgeted.step (h : s.Budgeted policy)
    (hcapacity : 1 ≤ policy.capacity) (hdvd : policy.capacity ∣ policy.refillEvery)
    (hop : op.keepsSchedule = true) : (s.step op).Budgeted policy := by
  have hchg := step_scheduleChange (s := s) hop
  have hle := hchg.next_le
  generalize s.step op = t at hchg hle ⊢
  have hsame : t.grants = s.grants → t.bucket.policy = s.bucket.policy → t.Budgeted policy := by
    intro hgrants hpolicy
    have hfrom : t.grantsFrom = s.grantsFrom := by
      funext start
      rw [grantsFrom, hgrants]
      rfl
    have hin : t.grantsIn = s.grantsIn := by
      funext start length
      rw [grantsIn, hgrants]
      rfl
    refine ⟨hpolicy.trans h.policy_eq, fun start hpos => ?_, ?_⟩
    · rw [hfrom] at hpos ⊢
      exact Nat.le_trans (h.credit start hpos) (Nat.add_le_add_right hle _)
    · rw [hin]
      exact h.window
  cases hchg with
  | idle _ hpolicy hgrants | refuse _ _ hpolicy hgrants => exact hsame hgrants hpolicy
  | grant hdue hnext hpolicy hgrants _ =>
    have hcredit := h.grant_credit hnext hgrants
    refine ⟨hpolicy.trans h.policy_eq, hcredit, fun start => ?_⟩
    by_cases hin : start ≤ s.now ∧ s.now < start + policy.refillEvery
    · have hpos : 0 < t.grantsFrom start := by
        rw [grantsFrom_cons hgrants start, if_pos hin.1]
        exact Nat.succ_pos _
      refine Nat.le_trans (grantsIn_le_grantsFrom start _) ?_
      refine grantsFrom_le hcapacity hdvd (hcredit start hpos) ?_ hin.2
      rw [hnext, h.policy_eq]
      exact Nat.add_le_add_right hdue _
    · have hcount : t.grantsIn start policy.refillEvery = s.grantsIn start policy.refillEvery := by
        unfold grantsIn
        rw [hgrants, countP_cons_of_neg]
        simpa using hin
      rw [hcount]
      exact h.window start

lemma Budgeted.of_grants_nil (hstart : s.grants = []) : s.Budgeted s.bucket.policy := by
  refine ⟨rfl, fun start hpos => ?_, fun start => ?_⟩
  · unfold grantsFrom at hpos
    rw [hstart] at hpos
    cases hpos
  · unfold grantsIn
    rw [hstart]
    exact Nat.zero_le _

/-! ## Permits without waiting -/

/-- The next permit is due at most one spacing after the last one. -/
def Prompt (s : RateLimitCoordinator) : Prop :=
  s.bucket.next ≤ s.now ∨ ∃ instant ∈ s.grants, s.bucket.next ≤ instant + s.bucket.policy.spacing

lemma Prompt.step (h : s.Prompt) (hop : op.keepsSchedule = true) : (s.step op).Prompt := by
  have hchg := step_scheduleChange (s := s) hop
  generalize s.step op = t at hchg ⊢
  unfold Prompt at h ⊢
  cases hchg with
  | idle hnext hpolicy hgrants hnow =>
    rw [hnext, hpolicy, hgrants]
    exact h.imp_left fun hdue => Nat.le_trans hdue hnow
  | refuse hwait hnext hpolicy hgrants hnow =>
    -- the credit floor lies in the past, so it did not move the schedule
    have hfloor := creditFloor_le s.now s.bucket.policy
    have hkept : s.bucket.floored s.now = s.bucket.next := by
      unfold Bucket.floored at hwait ⊢
      omega
    rw [hnext, hpolicy, hgrants, hnow, hkept]
    exact h
  | grant hdue hnext hpolicy hgrants =>
    refine .inr ⟨s.now, ?_, ?_⟩
    · rw [hgrants]
      exact mem_cons_self
    · rw [hnext, hpolicy]
      exact Nat.add_le_add_right hdue _

lemma Prompt.debitStep (h : s.Prompt) (hstage : s.stage ticket = .chosen)
    (hidle : ∀ instant ∈ s.grants, instant + s.bucket.policy.refillEvery ≤ s.now) :
    (s.step (.debit ticket)).stage ticket = .debited := by
  have hdue : s.bucket.next ≤ s.now := by
    rcases h with hdue | ⟨instant, hmem, hnext⟩
    · exact hdue
    · have hspacing : s.bucket.policy.spacing ≤ _ := Nat.div_le_self s.bucket.policy.refillEvery _
      have hlast := hidle instant hmem
      omega
  have hfloored : s.bucket.floored s.now ≤ s.now := Nat.max_le.mpr ⟨hdue, creditFloor_le _ _⟩
  show (s.debitStep ticket).stage ticket = .debited
  unfold RateLimitCoordinator.debitStep
  rw [hstage, Bucket.debit, if_pos hfloored]
  show (s.setStage ticket .debited).stage ticket = .debited
  rw [stage_setStage .debited (.inl (by rw [hstage]; exact Stage.noConfusion)),
    Function.update_self]

/-- A window holds fewer permits than twice the capacity, from any state on; and from a state as
`new` and `set_policy` leave it, a call whose turn it is waits for no permit when none was taken for
a whole window. -/
theorem window_budget (start : RateLimitCoordinator) (ops : List RateLimitOp)
    (hcapacity : 1 ≤ start.bucket.policy.capacity)
    (hdvd : start.bucket.policy.capacity ∣ start.bucket.policy.refillEvery)
    (hgrants : start.grants = []) (hops : ∀ op ∈ ops, op.keepsSchedule = true) :
    (∀ instant, (start.run ops).grantsIn instant start.bucket.policy.refillEvery ≤
      2 * start.bucket.policy.capacity - 1) ∧
    (start.bucket.next ≤ start.now → ∀ ticket, (start.run ops).stage ticket = .chosen →
      (∀ instant ∈ (start.run ops).grants,
        instant + start.bucket.policy.refillEvery ≤ (start.run ops).now) →
      ((start.run ops).step (.debit ticket)).stage ticket = .debited) := by
  have hall : AllSteps step (fun _ op => op.keepsSchedule = true) start ops :=
    AllSteps.of_forall (fun op hop _ => hops op hop) start
  have hbudget : (start.run ops).Budgeted start.bucket.policy :=
    hall.foldl (Budgeted.of_grants_nil hgrants) fun _ _ hs hop => hs.step hcapacity hdvd hop
  refine ⟨hbudget.window, fun hnext ticket hstage hidle => ?_⟩
  have hprompt : (start.run ops).Prompt := hall.foldl (.inl hnext) fun _ _ hs hop => hs.step hop
  refine hprompt.debitStep hstage ?_
  rw [hbudget.policy_eq]
  exact hidle

end RateLimitCoordinator

/-- A call on its own: enqueued, next, with its permit, popped and back. -/
def acquireOps (ticket : ℕ) : List RateLimitOp :=
  [.call .foreground none, .enqueue ticket, .check ticket, .debit ticket, .pop ticket, .share ticket]

/-- Three permits in one window of a bucket with two. -/
theorem window_budget_three :
    let ops := acquireOps 0 ++ acquireOps 1 ++ .tick 10 :: acquireOps 2
    ((new 100 ⟨2, 20⟩).run ops).grantsIn 100 20 = 3 ∧
      ((new 100 ⟨2, 20⟩).run ops).grantsIn 100 20 ≤ 2 * 2 - 1 :=
  ⟨by decide, (window_budget (.new 100 ⟨2, 20⟩) _ (by decide) (by decide) rfl (by decide)).1 100⟩

/-- A burst of saved credit and the permits that follow it exceed the capacity. -/
theorem exists_window_over_capacity : ∃ ops : List RateLimitOp,
    (∀ op ∈ ops, op.keepsSchedule = true) ∧
      2 < ((RateLimitCoordinator.new 100 ⟨2, 20⟩).run ops).grantsIn 100 20 :=
  ⟨acquireOps 0 ++ acquireOps 1 ++ .tick 10 :: acquireOps 2, by decide, by decide⟩

/-! ## Blocks of the server -/

namespace RateLimitCoordinator

variable {s t : RateLimitCoordinator}

/-- What a step does to one call, as far as permits and returns go. -/
inductive PermitChange (s : RateLimitCoordinator) (old new : Stage) : Prop where
  | stay (eq : new = old)
  | apart (free : new.holdsPermit = false) (open_ : ∀ instant, new ≠ .returned instant)
  | take (due : s.bucket.next ≤ s.now) (eq : new = .debited)
  | hold (old : old.holdsPermit = true) (new : new.holdsPermit = true)
  | leave (old : old.holdsPermit = true) (eq : new = .returned s.now)

lemma PermitChange.setStage (stage : Stage)
    (hold : s.stage ticket ≠ .cancelled ∨ stage = .cancelled)
    (h : s.PermitChange (s.stage ticket) stage) (other : ℕ) :
    s.PermitChange (s.stage other) ((s.setStage ticket stage).stage other) := by
  rw [stage_setStage stage hold]
  by_cases heq : other = ticket
  · subst heq
    rw [Function.update_self]
    exact h
  · rw [Function.update_of_ne heq]
    exact .stay rfl

/-- A call that is not cancelled moves to a stage without a permit. -/
lemma PermitChange.free (stage : Stage) {old : Stage} (hold : s.stage ticket = old)
    (hne : old ≠ .cancelled) (hfree : stage.holdsPermit = false)
    (hopen : ∀ instant, stage ≠ .returned instant) (other : ℕ) :
    s.PermitChange (s.stage other) ((s.setStage ticket stage).stage other) :=
  PermitChange.setStage stage (.inl (hold ▸ hne)) (.apart hfree hopen) other

lemma PermitChange.move (stage : Stage) (hold : (s.stage ticket).holdsPermit = true)
    (h : s.PermitChange (s.stage ticket) stage) (other : ℕ) :
    s.PermitChange (s.stage other) ((s.setStage ticket stage).stage other) :=
  PermitChange.setStage stage (.inl fun hcanc => by rw [hcanc] at hold; cases hold) h other

lemma PermitChange.called {caller : Caller} {due : ℕ} (hpacing : caller.stage = .pacing due)
    (other : ℕ) : s.PermitChange (s.stage other)
      (((s.callers ++ [caller])[other]?.map (·.stage)).getD .cancelled) := by
  by_cases hlen : other < s.callers.length
  · rw [getElem?_append_left hlen]
    exact .stay rfl
  · rw [getElem?_append_right (Nat.le_of_not_lt hlen)]
    cases other - s.callers.length with
    | zero =>
      refine .apart ?_ ?_
      · simp [hpacing, holdsPermit]
      · simp [hpacing]
    | succ => exact .apart rfl fun _ => Stage.noConfusion

lemma act_permitChange (op : RateLimitOp) (other : ℕ) :
    s.PermitChange (s.stage other) ((s.act op).stage other) := by
  have hact := s.act_turn op
  generalize s.act op = t at hact
  cases hact with
  | aside _ callers => exact .stay (by unfold stage; rw [callers])
  | called refresh stage => exact .called stage other
  | queued _ stage | chosen stage | refused stage =>
    exact PermitChange.free _ stage Stage.noConfusion rfl (fun _ => Stage.noConfusion) other
  | pruned => exact .stay rfl
  | debited stage due =>
    have hdue : s.bucket.next ≤ s.now := Nat.le_trans (Nat.le_max_left _ _) due
    exact PermitChange.setStage _ (.inl (stage ▸ Stage.noConfusion)) (.take hdue rfl) other
  | popped _ stage =>
    have hold := congrArg holdsPermit stage
    exact PermitChange.move _ hold (.hold hold rfl) other
  | goesOn shared old new => exact PermitChange.move _ old.1 (.hold old.1 new.1) other
  | returned old => exact PermitChange.move _ old.1 (.leave old.1 rfl) other
  | cancelled =>
    exact PermitChange.setStage _ (.inr rfl) (.apart rfl fun _ => Stage.noConfusion) other

/-- The schedule waits for the deadline, and whoever took a permit, or returned, did so after it. -/
structure Blocked (deadline : ℕ) (done : ℕ → ℕ → Prop) (s : RateLimitCoordinator) : Prop where
  next : deadline ≤ s.bucket.next
  permits : ∀ ticket, (s.stage ticket).holdsPermit = true → deadline ≤ s.now
  returns : ∀ ticket instant, s.stage ticket = .returned instant →
    done ticket instant ∨ deadline ≤ instant

lemma Blocked.step {deadline : ℕ} {done : ℕ → ℕ → Prop} (h : Blocked deadline done s)
    (hop : op.keepsSchedule = true) : Blocked deadline done (s.step op) := by
  have hschedule := step_scheduleChange (s := s) hop
  have hchg : ∀ ticket, s.PermitChange (s.stage ticket) ((s.step op).stage ticket) :=
    act_permitChange op
  have hnow := hschedule.now_le
  refine ⟨Nat.le_trans h.next hschedule.next_le, fun ticket hpermit => ?_,
    fun ticket instant hret => ?_⟩
  · cases hchg ticket with
    | stay eq => exact Nat.le_trans (h.permits ticket (eq ▸ hpermit)) hnow
    | apart free =>
      rw [free] at hpermit
      cases hpermit
    | take due => exact Nat.le_trans (Nat.le_trans h.next due) hnow
    | hold old => exact Nat.le_trans (h.permits ticket old) hnow
    | leave _ eq =>
      rw [eq] at hpermit
      cases hpermit
  · cases hchg ticket with
    | stay eq => exact h.returns ticket instant (eq ▸ hret)
    | apart _ open_ => exact absurd hret (open_ instant)
    | take _ eq =>
      rw [eq] at hret
      cases hret
    | hold _ new =>
      rw [hret] at new
      cases new
    | leave old eq =>
      have hinstant := returned.inj (eq.symm.trans hret)
      rw [← hinstant]
      exact .inr (h.permits ticket old)

/-- When a delay is enforced, no call is between its permit and its return. -/
def MeetsNoPermit (s : RateLimitCoordinator) : RateLimitOp → Prop
  | .observe status snapshot => (enforcedDelay status snapshot).isSome = true →
      ∀ caller ∈ s.callers, caller.stage.holdsPermit = false
  | _ => True

instance MeetsNoPermit.decidable (s : RateLimitCoordinator) : DecidablePred (MeetsNoPermit s)
  | .observe .. => inferInstanceAs (Decidable (_ → ∀ caller ∈ _, _))
  | .tick _ | .call .. | .enqueue _ | .check _ | .debit _ | .pop _ | .share _ | .record .. | .wake _
  | .cancel _ | .publish .. | .setPolicy _ | .peer _ => inferInstanceAs (Decidable True)

lemma holdsPermit_of_callers (h : ∀ caller ∈ s.callers, caller.stage.holdsPermit = false)
    (ticket : ℕ) : (s.stage ticket).holdsPermit = false := by
  unfold stage
  by_cases hlen : ticket < s.callers.length
  · rw [getElem?_eq_getElem hlen]
    exact h _ (getElem_mem hlen)
  · rw [getElem?_eq_none (Nat.le_of_not_lt hlen)]
    rfl

/-- The block begins with the observation. -/
lemma blocked_observe {status delay : ℕ} {snapshot : RateLimitSnapshot}
    (hdelay : enforcedDelay status snapshot = some delay)
    (hmeets : s.MeetsNoPermit (.observe status snapshot)) :
    Blocked (s.now + delay) (fun ticket instant => s.stage ticket = .returned instant)
      (s.step (.observe status snapshot)) := by
  have hfree := holdsPermit_of_callers (hmeets (by rw [hdelay]; rfl))
  refine ⟨?_, fun ticket hpermit => ?_, fun ticket instant hret => .inl hret⟩
  · show s.now + delay ≤ (s.bucket.observe s.now status snapshot).next
    unfold Bucket.observe
    rw [hdelay]
  · change (s.stage ticket).holdsPermit = true at hpermit
    rw [hfree] at hpermit
    cases hpermit

end RateLimitCoordinator

/-- In every run in which no enforced delay meets a call between its permit and its return, no call
that was waiting, or that came later, returns before the delay is over. -/
theorem blockHolds_of_meetsNoPermit (start : RateLimitCoordinator) (ops : List RateLimitOp)
    (h : AllSteps RateLimitCoordinator.step RateLimitCoordinator.MeetsNoPermit start ops) :
    BlockHolds start ops := by
  intro before status snapshot after delay hops hdelay hafter ticket instant hret
  subst hops
  obtain ⟨-, hmeets, -⟩ := AllSteps.append.mp h
  have hblocked := blocked_observe hdelay hmeets
  have hall : AllSteps step (fun _ op => op.keepsSchedule = true)
      ((start.run before).step (.observe status snapshot)) after :=
    AllSteps.of_forall (fun op hop _ => hafter op hop) _
  have hend := hall.foldl hblocked fun _ _ hs hop => hs.step hop
  refine hend.returns ticket instant ?_
  unfold run at hret ⊢
  rw [foldl_append, foldl_cons] at hret
  exact hret

/-- A response with the status 429 that asks for a delay. -/
def rateLimitedFor (delay : ℕ) : RateLimitOp := .observe 429 ⟨none, none, none, some delay⟩

/-- A call that is still queued when the delay is enforced. -/
theorem blockHolds_of_meetsNoPermit_queued : let ops : List RateLimitOp :=
      [.call .foreground none, .enqueue 0, .check 0, rateLimitedFor 50, .debit 0, .tick 50, .check 0,
        .debit 0, .pop 0, .share 0]
    ((new 100 ⟨3, 30⟩).run ops).stage 0 = .returned 150 ∧ BlockHolds (.new 100 ⟨3, 30⟩) ops :=
  ⟨by decide, blockHolds_of_meetsNoPermit (.new 100 ⟨3, 30⟩) _ (by decide)⟩

/-- A call sleeps for the slot that the ledger recorded for it, a response asks for a minute, and the
call returns five seconds later. -/
theorem exists_return_before_block : ∃ ops : List RateLimitOp,
    ¬ BlockHolds (.new 100 ⟨3, 30⟩) ops := by
  refine ⟨[.peer ⟨some ⟨5000, 0⟩, fun _ => none⟩, .call .foreground none, .enqueue 0, .check 0,
    .debit 0, .pop 0, .share 0, .record 0 0 false, rateLimitedFor 60000000000, .tick 5000000000,
    .wake 0], fun h => ?_⟩
  have hret := h
    [.peer ⟨some ⟨5000, 0⟩, fun _ => none⟩, .call .foreground none, .enqueue 0, .check 0, .debit 0,
      .pop 0, .share 0, .record 0 0 false] 429 ⟨none, none, none, some 60000000000⟩
    [.tick 5000000000, .wake 0] 60000000000 rfl rfl (by decide) 0 5000000100 (by decide)
  revert hret
  decide

end Replicant.Raw
