import Mathlib.Data.List.Nodup
import Replicant.Raw.QueueTheorems

/-!
# Waiters of the rate limiter

A ticket that is queued between the section that finds a ticket to be next and the one that pops the
queue can be the one that is popped. As long as no ticket enters the queue so that it changes whose
turn it is, the call in the gap stays next, no waiter is lost, and background tickets are overtaken
eight times at most.
-/

namespace Replicant.Raw

open Lib List Function Stage RequestQueue RateLimitCoordinator

/-! ## Stages -/

variable {stage : Stage}

lemma Stage.waits_of_inGap (h : stage.inGap = true) : stage.waits = true := by
  cases stage <;> first | rfl | cases h

lemma Stage.active_of_waits (h : stage.waits = true) : stage.active = true := by
  cases stage <;> first | rfl | cases h

lemma Stage.active_of_holdsPermit (h : stage.holdsPermit = true) : stage.active = true := by
  cases stage <;> first | rfl | cases h

/-- The steps that move the clock or write the bucket outside a call. -/
def RateLimitOp.setsSchedule : RateLimitOp → Bool
  | .tick _ | .observe _ _ | .setPolicy _ => true
  | _ => false

namespace RateLimitCoordinator

variable {s : RateLimitCoordinator} {ticket other due : ℕ}

lemma lt_of_stage (h : s.stage ticket ≠ .cancelled) : ticket < s.callers.length := by
  by_contra hlen
  refine h ?_
  rw [stage, getElem?_eq_none (Nat.le_of_not_lt hlen)]
  rfl

lemma stage_setStage_of_ne (h : other ≠ ticket) :
    (s.setStage ticket stage).stage other = s.stage other := by
  unfold setStage RateLimitCoordinator.stage
  rw [getElem?_modify]
  cases s.callers[other]? <;> simp [h.symm]

/-- A call that is over, or that does not exist, has the stage `cancelled` or `returned`. -/
lemma stage_setStage (stage : Stage) (h : s.stage ticket ≠ .cancelled ∨ stage = .cancelled) :
    (s.setStage ticket stage).stage = Function.update s.stage ticket stage := by
  funext other
  by_cases heq : other = ticket
  · subst heq
    unfold setStage RateLimitCoordinator.stage
    rw [getElem?_modify]
    rcases h with h | rfl
    · rw [getElem?_eq_getElem (lt_of_stage h)]
      simp
    · cases s.callers[other]? <;> simp
  · rw [update_of_ne heq, stage_setStage_of_ne heq]

/-- Who waits after a call was granted waited before, and is another call. -/
lemma waits_granted (h : s.stage ticket = .debited)
    (hwaits : ((s.setStage ticket .granted).stage other).waits = true) : other ≠ ticket ∧
      (s.setStage ticket .granted).stage other = s.stage other := by
  have hne : other ≠ ticket := by
    rintro rfl
    rw [stage_setStage .granted (.inl (h ▸ Stage.noConfusion)), update_self] at hwaits
    cases hwaits
  exact ⟨hne, stage_setStage_of_ne hne⟩

@[simp] lemma priority_setStage : (s.setStage ticket stage).priority other = s.priority other := by
  unfold setStage priority
  rw [getElem?_modify]
  split <;> cases s.callers[other]? <;> rfl

@[simp] lemma length_setStage :
    (s.setStage ticket stage).callers.length = s.callers.length := length_modify ..

lemma backgroundWaits_iff : s.backgroundWaits = true ↔
    ∃ ticket, s.priority ticket = .background ∧ (s.stage ticket).waits = true := by
  unfold backgroundWaits
  rw [any_eq_true]
  constructor
  · rintro ⟨caller, hmem, hwaits⟩
    obtain ⟨ticket, hlen, rfl⟩ := mem_iff_getElem.mp hmem
    refine ⟨ticket, ?_⟩
    unfold priority stage
    rw [getElem?_eq_getElem]
    simpa using hwaits
  · rintro ⟨ticket, hprio, hwaits⟩
    have hlen : ticket < s.callers.length :=
      lt_of_stage fun hcanc => by rw [hcanc] at hwaits; cases hwaits
    refine ⟨s.callers[ticket], getElem_mem hlen, ?_⟩
    unfold priority at hprio
    unfold stage at hwaits
    rw [getElem?_eq_getElem] at hprio hwaits
    simpa using And.intro hprio hwaits

/-! ## What a step does -/

/-- The step leaves the bucket, the grants and the clock alone. -/
def SameSchedule (s t : RateLimitCoordinator) : Prop :=
  t.bucket = s.bucket ∧ t.grants = s.grants ∧ t.now = s.now

/-- What a step may lead to: at most one call moves. -/
inductive Turn (s : RateLimitCoordinator) (op : RateLimitOp) : RateLimitCoordinator → Prop where
  | aside {t} (queue : t.queue = s.queue) (callers : t.callers = s.callers)
      (overtaken : t.overtaken = s.overtaken)
      (schedule : op.setsSchedule = false → s.SameSchedule t) : Turn s op t
  | called {caller due} (refresh : String → Option RefreshBucket)
      (stage : caller.stage = .pacing due) :
    Turn s op { s with refresh := refresh, callers := s.callers ++ [caller] }
  | queued {ticket due : ℕ} (step : op = .enqueue ticket) (stage : s.stage ticket = .pacing due) :
    Turn s op { s.setStage ticket .queued with queue := s.queue.push (s.priority ticket) ticket }
  | pruned {ticket : ℕ} (stage : s.stage ticket = .queued) :
    Turn s op { s with queue := s.queue.pruneCancelled s.active }
  | chosen {ticket : ℕ} (stage : s.stage ticket = .queued)
      (next : (s.queue.pruneCancelled s.active).next = some ticket) :
    Turn s op { s.setStage ticket .chosen with queue := s.queue.pruneCancelled s.active }
  | debited {ticket : ℕ} (stage : s.stage ticket = .chosen) (due : s.bucket.floored s.now ≤ s.now) :
    Turn s op { s.setStage ticket .debited with
      bucket := { s.bucket with next := s.bucket.floored s.now + s.bucket.policy.spacing }
      grants := s.now :: s.grants }
  | refused {ticket : ℕ} (stage : s.stage ticket = .chosen) (wait : s.now < s.bucket.floored s.now) :
    Turn s op { s.setStage ticket .queued with
      bucket := { s.bucket with next := s.bucket.floored s.now } }
  | popped {ticket : ℕ} (step : op = .pop ticket) (stage : s.stage ticket = .debited) :
    Turn s op { s.setStage ticket .granted with
      queue := (s.queue.pruneCancelled s.active).popNext
      overtaken := if s.priority ticket = .foreground then s.overtaken + 1 else 0 }
  | goesOn {ticket : ℕ} {stage : Stage} (shared : Option SharedRateLimit)
      (old : (s.stage ticket).holdsPermit = true ∧ (s.stage ticket).waits = false)
      (new : stage.holdsPermit = true ∧ stage.waits = false) :
    Turn s op { s.setStage ticket stage with shared := shared }
  | returned {ticket : ℕ}
      (old : (s.stage ticket).holdsPermit = true ∧ (s.stage ticket).waits = false) :
    Turn s op (s.setStage ticket (.returned s.now))
  | cancelled (ticket : ℕ) : Turn s op (s.setStage ticket .cancelled)

lemma Turn.idle (op : RateLimitOp) : s.Turn op s := .aside rfl rfl rfl fun _ => ⟨rfl, rfl, rfl⟩

lemma debitStep_turn (op : RateLimitOp) (ticket : ℕ) : s.Turn op (s.debitStep ticket) := by
  unfold debitStep
  split
  · next hstage =>
    by_cases hdue : s.bucket.floored s.now ≤ s.now
    · rw [Bucket.debit, if_pos hdue]
      exact .debited hstage hdue
    · rw [Bucket.debit, if_neg hdue]
      exact .refused hstage (Nat.lt_of_not_le hdue)
  · exact .idle op

lemma act_turn (s : RateLimitCoordinator) (op : RateLimitOp) : s.Turn op (s.act op) := by
  cases op with
  | peer _ => exact .aside rfl rfl rfl fun _ => ⟨rfl, rfl, rfl⟩
  | call priority context => cases context <;> exact .called _ rfl
  | enqueue =>
    simp only [act, enqueueStep]
    split
    · next hstage => split; exacts [.queued rfl hstage, .idle _]
    · exact .idle _
  | check =>
    simp only [act, checkStep]
    split
    · next hstage => split; exacts [.chosen hstage ‹_›, .pruned hstage]
    · exact .idle _
  | debit ticket => exact debitStep_turn _ ticket
  | pop =>
    simp only [act, popStep]
    split
    · next hstage => exact .popped rfl hstage
    · exact .idle _
  | share =>
    simp only [act, shareStep]
    split
    · next hstage =>
      have hold := And.intro (congrArg holdsPermit hstage) (congrArg waits hstage)
      split; exacts [.goesOn s.shared hold ⟨rfl, rfl⟩, .returned hold]
    · exact .idle _
  | record =>
    simp only [act, recordStep]
    split
    · next hstage _ =>
      have hold := And.intro (congrArg holdsPermit hstage) (congrArg waits hstage)
      split; exacts [.returned hold, .goesOn _ hold ⟨rfl, rfl⟩]
    · exact .idle _
  | wake =>
    simp only [act, wakeStep]
    split
    · next hstage =>
      have hold := And.intro (congrArg holdsPermit hstage) (congrArg waits hstage)
      split; exacts [.returned hold, .idle _]
    · exact .idle _
  | cancel =>
    simp only [act, cancelStep]
    split; exacts [.idle _, .cancelled _]
  | publish =>
    simp only [act, publishStep]
    split
    · exact .idle _
    · split <;> exact .aside rfl rfl rfl fun _ => ⟨rfl, rfl, rfl⟩
  | _ => exact .aside rfl rfl rfl nofun

/-! ## The invariant -/

/-- Every waiter is in its queue, and the call between the check of its turn and its pop is next. -/
structure Orderly (s : RateLimitCoordinator) : Prop where
  nodup : (s.queue.foreground ++ s.queue.background).Nodup
  queued : ∀ ticket, (s.stage ticket).waits = true → ticket ∈ s.queue.tickets (s.priority ticket)
  /-- Who is in a queue belongs there. -/
  owned : ∀ priority, ∀ ticket ∈ s.queue.tickets priority,
    s.priority ticket = priority ∧ ticket < s.callers.length ∧
      ((s.stage ticket).waits = true ∨ s.stage ticket = .cancelled)
  turn : ∀ ticket, (s.stage ticket).inGap = true →
    (s.queue.pruneCancelled s.active).next = some ticket

namespace Orderly

variable {t : RateLimitCoordinator}

lemma of_eq (h : s.Orderly) (hqueue : t.queue = s.queue)
    (hcallers : t.callers = s.callers) : t.Orderly := by
  have hstage : t.stage = s.stage := by
    funext ticket
    rw [stage, hcallers]
    rfl
  have hprio : t.priority = s.priority := by
    funext ticket
    rw [priority, hcallers]
    rfl
  have hactive : t.active = s.active := by
    funext ticket
    rw [active, hstage]
    rfl
  refine ⟨?_, ?_, ?_, ?_⟩
  · rw [hqueue]
    exact h.nodup
  · rw [hqueue, hprio, hstage]
    exact h.queued
  · rw [hqueue, hprio, hstage, hcallers]
    exact h.owned
  · rw [hqueue, hstage, hactive]
    exact h.turn

/-- A call moves on and the queue stays: it does not come back to life, it leaves the waiters only
when it is cancelled, and it enters the gap only if it is next. -/
lemma setStage (h : s.Orderly) (stage : Stage)
    (hold : s.stage ticket ≠ .cancelled ∨ stage = .cancelled)
    (hactive : stage.active = true → (s.stage ticket).active = true)
    (hwaits : stage.waits = (s.stage ticket).waits ∨ stage = .cancelled)
    (hgap : stage.inGap = true → (s.queue.pruneCancelled s.active).next = some ticket) :
    (s.setStage ticket stage).Orderly := by
  have hstage := stage_setStage stage hold
  have hle : ∀ t, (s.setStage ticket stage).active t = true → s.active t = true := by
    intro t ht
    unfold active at ht ⊢
    rw [hstage] at ht
    by_cases heq : t = ticket
    · subst heq
      rw [update_self] at ht
      exact hactive ht
    · rwa [update_of_ne heq] at ht
  refine ⟨h.nodup, fun t ht => ?_, fun p t ht => ?_, fun t ht => ?_⟩
  · rw [priority_setStage]
    refine h.queued t ?_
    rw [hstage] at ht
    by_cases heq : t = ticket
    · subst heq
      rw [update_self] at ht
      rcases hwaits with heq | rfl
      · rwa [← heq]
      · cases ht
    · rwa [update_of_ne heq] at ht
  · obtain ⟨hprio, hlen, hstate⟩ := h.owned p t ht
    rw [priority_setStage, length_setStage, hstage]
    refine ⟨hprio, hlen, ?_⟩
    by_cases heq : t = ticket
    · subst heq
      rw [update_self]
      rcases hwaits with heq | hcanc
      · rw [heq]
        refine hstate.imp_right fun hcanc => ?_
        exact hold.resolve_left (absurd hcanc)
      · exact .inr hcanc
    · rwa [update_of_ne heq]
  · have hnext : (s.queue.pruneCancelled s.active).next = some t := by
      rw [hstage] at ht
      by_cases heq : t = ticket
      · subst heq
        rw [update_self] at ht
        exact hgap ht
      · rw [update_of_ne heq] at ht
        exact h.turn t ht
    have halive := active_of_waits (waits_of_inGap ht)
    show (s.queue.pruneCancelled (s.setStage ticket stage).active).next = some t
    rw [← pruneCancelled_pruneCancelled hle]
    exact next_pruneCancelled hnext halive

/-! ### One step -/

lemma called (h : s.Orderly) {caller : Caller} (hcallers : t.callers = s.callers ++ [caller])
    (hqueue : t.queue = s.queue) (hpacing : caller.stage = .pacing due) : t.Orderly := by
  have hold : ∀ ticket < s.callers.length, t.stage ticket = s.stage ticket ∧
      t.priority ticket = s.priority ticket := by
    intro ticket hlen
    unfold stage priority
    rw [hcallers, getElem?_append_left hlen]
    exact ⟨rfl, rfl⟩
  have hlt : ∀ ticket, (t.stage ticket).waits = true → ticket < s.callers.length := by
    intro ticket hwaits
    by_contra hlen
    unfold stage at hwaits
    rw [hcallers, getElem?_append_right (Nat.le_of_not_lt hlen)] at hwaits
    cases hdiff : ticket - s.callers.length with
    | zero =>
      rw [hdiff] at hwaits
      simp [hpacing, waits] at hwaits
    | succ =>
      rw [hdiff] at hwaits
      cases hwaits
  refine ⟨hqueue ▸ h.nodup, fun ticket hwaits => ?_, fun p ticket hmem => ?_, fun ticket hgap => ?_⟩
  · have hlen := hlt ticket hwaits
    rw [(hold ticket hlen).1] at hwaits
    rw [hqueue, (hold ticket hlen).2]
    exact h.queued ticket hwaits
  · rw [hqueue] at hmem
    obtain ⟨hprio, hlen, hstate⟩ := h.owned p ticket hmem
    rw [(hold ticket hlen).1, (hold ticket hlen).2, hcallers, length_append]
    exact ⟨hprio, Nat.lt_add_right _ hlen, hstate⟩
  · have hlen := hlt ticket (waits_of_inGap hgap)
    rw [(hold ticket hlen).1] at hgap
    have hcongr : t.queue.pruneCancelled t.active = s.queue.pruneCancelled s.active := by
      rw [hqueue]
      refine pruneCancelled_congr fun other hother => ?_
      obtain ⟨p, hmem⟩ := mem_append_iff.mp hother
      unfold active
      rw [(hold other (h.owned p other hmem).2.1).1]
    rw [hcongr]
    exact h.turn ticket hgap

end Orderly

/-- A ticket enters the queue only when that leaves the turn with a call that has found itself next
and has not popped the queue. -/
def KeepsTurn (s : RateLimitCoordinator) : RateLimitOp → Prop
  | .enqueue ticket =>
    (s.priority ticket = .foreground → 8 ≤ s.queue.foregroundStreak ∨
      ∀ caller ∈ s.callers, caller.stage.inGap = true → caller.priority = .foreground) ∧
    (s.priority ticket = .background → s.queue.foregroundStreak < 8 ∨
      ∀ caller ∈ s.callers, caller.stage.inGap = true → caller.priority = .background)
  | _ => True

instance KeepsTurn.decidable (s : RateLimitCoordinator) (op : RateLimitOp) :
    Decidable (KeepsTurn s op) := by
  cases op <;> unfold KeepsTurn <;> infer_instance

lemma priority_of_inGap {p : RequestPriority}
    (h : ∀ caller ∈ s.callers, caller.stage.inGap = true → caller.priority = p)
    (hgap : (s.stage ticket).inGap = true) : s.priority ticket = p := by
  have hlen : ticket < s.callers.length :=
    lt_of_stage fun hcanc => by rw [hcanc] at hgap; cases hgap
  unfold stage at hgap
  unfold priority
  rw [getElem?_eq_getElem hlen] at hgap ⊢
  exact h _ (getElem_mem hlen) hgap

namespace Orderly

section

variable (h : s.Orderly)

include h

lemma mem_queue (hwaits : (s.stage ticket).waits = true) :
    ticket ∈ s.queue.foreground ∨ ticket ∈ s.queue.background :=
  mem_append.mp (mem_append_iff.mpr ⟨_, h.queued ticket hwaits⟩)

lemma not_mem_queue (hwaits : (s.stage ticket).waits = false)
    (hstage : s.stage ticket ≠ .cancelled) : ticket ∉ s.queue.foreground ++ s.queue.background := by
  intro hmem
  obtain ⟨p, hmem⟩ := mem_append_iff.mp hmem
  rcases (h.owned p ticket hmem).2.2 with hw | hcanc
  · rw [hw] at hwaits
    cases hwaits
  · exact hstage hcanc

lemma enqueue (hpacing : s.stage ticket = .pacing due) (hturn : s.KeepsTurn (.enqueue ticket)) :
    { s.setStage ticket .queued with
      queue := s.queue.push (s.priority ticket) ticket }.Orderly := by
  have hold : s.stage ticket ≠ .cancelled := by
    rw [hpacing]
    exact Stage.noConfusion
  have hnew := h.not_mem_queue (by rw [hpacing]; rfl) hold
  have hstage := stage_setStage .queued (.inl hold)
  refine ⟨nodup_push h.nodup hnew _, fun t ht => ?_, fun p t ht => ?_, fun t ht => ?_⟩
  · show t ∈ (s.queue.push _ ticket).tickets ((s.setStage ticket .queued).priority t)
    rw [priority_setStage, mem_push]
    by_cases heq : t = ticket
    · exact .inr ⟨heq, heq ▸ rfl⟩
    · change ((s.setStage ticket .queued).stage t).waits = true at ht
      rw [hstage, update_of_ne heq] at ht
      exact .inl (h.queued t ht)
  · show (s.setStage ticket .queued).priority t = p ∧
      t < (s.setStage ticket .queued).callers.length ∧
      (((s.setStage ticket .queued).stage t).waits = true ∨ _ = _)
    rw [priority_setStage, length_setStage]
    rcases mem_push.mp ht with hmem | ⟨rfl, rfl⟩
    · have hne : t ≠ ticket := by
        rintro rfl
        exact hnew (mem_append_iff.mpr ⟨p, hmem⟩)
      show _ ∧ _ ∧ (_ ∨ (s.setStage ticket .queued).stage t = .cancelled)
      rw [hstage, update_of_ne hne]
      exact h.owned p t hmem
    · refine ⟨rfl, lt_of_stage hold, .inl ?_⟩
      rw [hstage, update_self]
      rfl
  · change ((s.setStage ticket .queued).stage t).inGap = true at ht
    have hne : t ≠ ticket := by
      rintro rfl
      rw [hstage, update_self] at ht
      cases ht
    rw [hstage, update_of_ne hne] at ht
    have hwaits := waits_of_inGap ht
    have halive : s.active t = true := active_of_waits hwaits
    have hmem := h.mem_queue hwaits
    -- in the old queue the flags are those of the state before
    have hactive : ∀ u, u ≠ ticket → (s.setStage ticket .queued).active u = s.active u := by
      intro u hu
      unfold active
      rw [hstage, update_of_ne hu]
    have hcongr : s.queue.pruneCancelled (s.setStage ticket .queued).active =
        s.queue.pruneCancelled s.active := by
      refine pruneCancelled_congr fun u hu => hactive u ?_
      rintro rfl
      exact hnew hu
    have hself : (s.setStage ticket .queued).active ticket = true := by
      unfold active
      rw [hstage, update_self]
      rfl
    show ((s.queue.push (s.priority ticket) ticket).pruneCancelled
      (s.setStage ticket .queued).active).next = some t
    rw [pruneCancelled_push _ hself hmem ((hactive t hne).trans halive), hcongr]
    have hstreak := pruneCancelled_streak hmem halive
    -- a call in the gap is in the queue of its own priority
    have hprio (p : RequestPriority) (hmem : t ∈ (s.queue.tickets p).filter s.active) :
        s.priority t = p := (h.owned p t (mem_filter.mp hmem).1).1
    refine next_push (h.turn t ht) _ (fun hp => ?_) fun hp => ?_
    · rw [hstreak]
      refine (hturn.1 hp).imp_right fun hall hback => ?_
      cases (hprio .background hback).symm.trans (priority_of_inGap hall ht)
    · rw [hstreak]
      refine (hturn.2 hp).imp_right fun hall hfront => ?_
      cases (hprio .foreground hfront).symm.trans (priority_of_inGap hall ht)

lemma prune : { s with queue := s.queue.pruneCancelled s.active }.Orderly := by
  refine ⟨?_, fun t ht => ?_, fun p t ht => ?_, fun t ht => ?_⟩
  · refine h.nodup.sublist ?_
    exact List.Sublist.append filter_sublist filter_sublist
  · exact mem_tickets_pruneCancelled.mpr ⟨h.queued t ht, active_of_waits ht⟩
  · exact h.owned p t (mem_tickets_pruneCancelled.mp ht).1
  · show ((s.queue.pruneCancelled s.active).pruneCancelled s.active).next = some t
    rw [pruneCancelled_idem]
    exact h.turn t ht

lemma pop (hdebited : s.stage ticket = .debited) (n : ℕ) : { s.setStage ticket .granted with
      queue := (s.queue.pruneCancelled s.active).popNext
      overtaken := n }.Orderly := by
  have hgap : (s.stage ticket).inGap = true := by
    rw [hdebited]
    rfl
  have hnext := h.turn ticket hgap
  refine ⟨?_, fun t ht => ?_, fun p t ht => ?_, fun t ht => ?_⟩
  · show List.Nodup (_ ++ _)
    rw [popNext_append_eq h.prune.nodup hnext]
    exact h.prune.nodup.erase ticket
  · obtain ⟨hother, hold⟩ := waits_granted hdebited ht
    change ((s.setStage ticket .granted).stage t).waits = true at ht
    rw [hold] at ht
    show t ∈ (popNext _).tickets ((s.setStage ticket .granted).priority t)
    rw [priority_setStage]
    exact (mem_popNext h.prune.nodup hnext).mpr ⟨h.prune.queued t ht, hother⟩
  · obtain ⟨hin, hother⟩ := (mem_popNext h.prune.nodup hnext).mp ht
    show (s.setStage ticket .granted).priority t = p ∧
      t < (s.setStage ticket .granted).callers.length ∧
      (((s.setStage ticket .granted).stage t).waits = true ∨
        (s.setStage ticket .granted).stage t = .cancelled)
    rw [priority_setStage, length_setStage, stage_setStage_of_ne hother]
    exact h.prune.owned p t hin
  · obtain ⟨hother, hold⟩ := waits_granted hdebited (waits_of_inGap ht)
    change ((s.setStage ticket .granted).stage t).inGap = true at ht
    rw [hold] at ht
    -- the turn of a call in the gap is its own, so there is one such call
    exact absurd (Option.some.inj ((h.turn t ht).symm.trans hnext)) hother

/-- A call that has found its ticket to be next moves within the gap, or starts over. -/
lemma inGap (hgap : (s.stage ticket).inGap = true) (hnew : stage.waits = true) :
    (s.setStage ticket stage).Orderly := by
  have hwaits := waits_of_inGap hgap
  have halive := active_of_waits hwaits
  refine h.setStage stage (.inl fun hcanc => ?_) (fun _ => halive) (.inl ?_)
    fun _ => h.turn ticket hgap
  · rw [hcanc] at hgap
    cases hgap
  · rw [hnew, hwaits]

lemma chosen (hstage : s.stage ticket = .queued)
    (hnext : (s.queue.pruneCancelled s.active).next = some ticket) :
    { s.setStage ticket .chosen with queue := s.queue.pruneCancelled s.active }.Orderly := by
  have hstage' : { s with queue := s.queue.pruneCancelled s.active }.stage ticket = .queued := hstage
  refine h.prune.setStage .chosen ?_ ?_ ?_ ?_
  · rw [hstage']
    exact .inl Stage.noConfusion
  · rw [hstage']
    exact fun _ => rfl
  · rw [hstage']
    exact .inl rfl
  · intro _
    show ((s.queue.pruneCancelled s.active).pruneCancelled s.active).next = some ticket
    rw [pruneCancelled_idem]
    exact hnext

/-- A call that was granted goes on towards its return. -/
lemma afterGrant (stage : Stage)
    (hold : (s.stage ticket).holdsPermit = true ∧ (s.stage ticket).waits = false)
    (hnew : stage.waits = false) : (s.setStage ticket stage).Orderly := by
  have halive := active_of_holdsPermit hold.1
  refine h.setStage stage (.inl fun hcanc => ?_) (fun _ => halive)
    (.inl (hnew.trans hold.2.symm)) fun hgap => ?_
  · rw [hcanc] at halive
    cases halive
  · rw [waits_of_inGap hgap] at hnew
    cases hnew

lemma act (op : RateLimitOp) (hturn : s.KeepsTurn op) : (s.act op).Orderly := by
  have hact := s.act_turn op
  generalize s.act op = t at hact
  cases hact with
  | aside queue callers => exact h.of_eq queue callers
  | called refresh stage => exact h.called rfl rfl stage
  | queued step stage => exact h.enqueue stage (step ▸ hturn)
  | pruned => exact h.prune
  | chosen stage next => exact h.chosen stage next
  | debited stage | refused stage => exact (h.inGap (congrArg Stage.inGap stage) rfl).of_eq rfl rfl
  | popped _ stage => exact h.pop stage _
  | goesOn shared old new => exact (h.afterGrant _ old new.2).of_eq rfl rfl
  | returned old => exact h.afterGrant _ old rfl
  | cancelled => exact h.setStage .cancelled (.inr rfl) nofun (.inr rfl) nofun

end

end Orderly

/-! ## Turns of background tickets -/

/-- The tickets are in order, and the streak counts at least the foreground grants since background
tickets wait. -/
structure Served (s : RateLimitCoordinator) : Prop where
  orderly : s.Orderly
  overtaken_le : s.overtaken ≤ 8
  overtaken_le_streak : s.overtaken ≤ s.queue.foregroundStreak

/-- The step counts no grant. -/
def SameCounts (s t : RateLimitCoordinator) : Prop :=
  t.overtaken = s.overtaken ∧ t.queue.foregroundStreak = s.queue.foregroundStreak

variable {op : RateLimitOp}

/-- No step but the pop of a call that took a permit counts a grant. -/
lemma Orderly.act_sameCounts (h : s.Orderly)
    (hop : ∀ ticket, op = .pop ticket → s.stage ticket ≠ .debited) : s.SameCounts (s.act op) := by
  have hact := s.act_turn op
  generalize s.act op = t at hact
  cases hact with
  | aside queue _ overtaken => exact ⟨overtaken, by rw [queue]⟩
  | @queued ticket => exact ⟨rfl, by cases s.priority ticket <;> rfl⟩
  | pruned stage | chosen stage =>
    -- a ticket that waits is not cancelled, so pruning keeps the streak
    have hwaits := congrArg waits stage
    exact ⟨rfl, pruneCancelled_streak (h.mem_queue hwaits) (active_of_waits hwaits)⟩
  | popped step stage => exact absurd stage (hop _ step)
  | _ => exact ⟨rfl, rfl⟩

/-- A foreground grant while a background ticket waits has a streak below eight before it. -/
lemma Served.pop_counts (h : s.Served) (hdebited : s.stage ticket = .debited)
    (hwaits : (s.popStep ticket).backgroundWaits = true) : (s.popStep ticket).overtaken ≤ 8 ∧
      (s.popStep ticket).overtaken ≤ (s.popStep ticket).queue.foregroundStreak := by
  have hpop : s.popStep ticket = { s.setStage ticket .granted with
      queue := (s.queue.pruneCancelled s.active).popNext
      overtaken := if s.priority ticket = .foreground then s.overtaken + 1 else 0 } := by
    unfold popStep
    rw [hdebited]
  have hgap : (s.stage ticket).inGap = true := by
    rw [hdebited]
    rfl
  have hactive : s.active ticket = true := active_of_waits (waits_of_inGap hgap)
  -- the background ticket that waits is still in the pruned queue
  have hnonempty : (s.queue.pruneCancelled s.active).background ≠ [] := by
    obtain ⟨t, hprio, ht⟩ := backgroundWaits_iff.mp hwaits
    rw [hpop] at hprio ht
    change (s.setStage ticket .granted).priority t = .background at hprio
    change ((s.setStage ticket .granted).stage t).waits = true at ht
    rw [priority_setStage] at hprio
    rw [(waits_granted hdebited ht).2] at ht
    have hmem := h.orderly.prune.queued t ht
    change t ∈ (s.queue.pruneCancelled s.active).tickets (s.priority t) at hmem
    rw [hprio] at hmem
    exact ne_nil_of_mem hmem
  rw [hpop]
  show (if s.priority ticket = .foreground then s.overtaken + 1 else 0) ≤ 8 ∧
    (if s.priority ticket = .foreground then s.overtaken + 1 else 0) ≤
      (s.queue.pruneCancelled s.active).popNext.foregroundStreak
  split
  · have hfore : s.priority ticket = .foreground := ‹_›
    rcases popNext_eq (h.orderly.turn ticket hgap) with
      ⟨-, -, hnil | ⟨hlt, hstreak⟩⟩ | ⟨hback, -⟩
    · exact absurd hnil hnonempty
    · rw [hstreak]
      have hkept := pruneCancelled_streak (h.orderly.mem_queue (waits_of_inGap hgap)) hactive
      have hcount := h.overtaken_le_streak
      omega
    · -- a foreground ticket is not in the background queue
      have hin : ticket ∈ s.queue.tickets .background := by
        refine (mem_filter.mp (?_ : ticket ∈ s.queue.background.filter s.active)).1
        show ticket ∈ (s.queue.pruneCancelled s.active).background
        rw [hback]
        exact mem_cons_self
      have hprio := (h.orderly.owned _ ticket hin).1
      rw [hfore] at hprio
      cases hprio
  · exact ⟨Nat.zero_le 8, Nat.zero_le _⟩

lemma Served.step (h : s.Served) (hturn : s.KeepsTurn op) : (s.step op).Served := by
  have hcounts : (s.act op).backgroundWaits = true →
      (s.act op).overtaken ≤ 8 ∧ (s.act op).overtaken ≤ (s.act op).queue.foregroundStreak := by
    intro hwaits
    by_cases hop : ∃ ticket, op = .pop ticket ∧ s.stage ticket = .debited
    · obtain ⟨ticket, rfl, hdebited⟩ := hop
      exact h.pop_counts hdebited hwaits
    · have hsame := h.orderly.act_sameCounts fun ticket heq hdebited => hop ⟨ticket, heq, hdebited⟩
      rw [hsame.1, hsame.2]
      exact ⟨h.overtaken_le, h.overtaken_le_streak⟩
  have hnote : (s.step op).overtaken = if (s.act op).backgroundWaits then (s.act op).overtaken else 0 :=
    rfl
  refine ⟨(h.orderly.act op hturn).of_eq rfl rfl, ?_, ?_⟩
  · rw [hnote]
    split
    · exact (hcounts ‹_›).1
    · exact Nat.zero_le 8
  · rw [hnote]
    split
    · exact (hcounts ‹_›).2
    · exact Nat.zero_le _

lemma served_new (now : ℕ) (policy : RateLimitPolicy) : (new now policy).Served where
  orderly := {
    nodup := nodup_nil
    queued := nofun
    owned := fun priority ticket h => by cases priority <;> cases h
    turn := nofun }
  overtaken_le := Nat.zero_le 8
  overtaken_le_streak := Nat.le_refl 0

lemma Served.servesWaiters (h : s.Served) : s.ServesWaiters := by
  refine ⟨fun ticket hwaits => ⟨?_, ?_⟩, fun ticket hdebited => ⟨?_, ?_⟩, h.overtaken_le⟩
  · refine count_eq_one_of_mem ?_ (h.orderly.queued ticket hwaits)
    cases s.priority ticket with
    | foreground => exact (nodup_append.mp h.orderly.nodup).1
    | background => exact (nodup_append.mp h.orderly.nodup).2.1
  · refine count_eq_one_of_mem h.orderly.nodup ?_
    exact mem_append_iff.mpr ⟨_, h.orderly.queued ticket hwaits⟩
  · exact h.orderly.prune.queued ticket (by show (s.stage ticket).waits = true; rw [hdebited]; rfl)
  · refine popNext_append_eq h.orderly.prune.nodup (h.orderly.turn ticket ?_)
    rw [hdebited]
    rfl

end RateLimitCoordinator

/-! ## Runs -/

/-- In every run in which no ticket that is queued changes whose turn it is while a call is between
its check and its pop, every waiter keeps its place. -/
theorem servesWaiters_of_keepsTurn (now : ℕ) (policy : RateLimitPolicy) (ops : List RateLimitOp)
    (h : AllSteps RateLimitCoordinator.step RateLimitCoordinator.KeepsTurn (.new now policy) ops) :
    ((RateLimitCoordinator.new now policy).run ops).ServesWaiters := by
  have hserved : ((new now policy).run ops).Served :=
    h.foldl (served_new now policy) fun _ _ hs hturn => hs.step hturn
  exact hserved.servesWaiters

/-- Two foreground calls and a background call, one after the other. -/
theorem servesWaiters_of_keepsTurn_three : let ops : List RateLimitOp :=
      [.call .foreground none, .enqueue 0, .check 0, .call .foreground none, .enqueue 1, .debit 0,
        .call .background none, .enqueue 2, .pop 0, .share 0, .check 1, .debit 1]
    ((new 100 ⟨3, 30⟩).run ops).stage 1 = .debited ∧ ((new 100 ⟨3, 30⟩).run ops).ServesWaiters :=
  ⟨by decide, servesWaiters_of_keepsTurn 100 ⟨3, 30⟩ _ (by decide)⟩

/-- A foreground ticket is queued after a background call took a permit and before it pops: it is
the one that is popped, and it waits in no queue. -/
theorem exists_lost_waiter : ∃ ops : List RateLimitOp,
    ¬ ((RateLimitCoordinator.new 100 ⟨3, 30⟩).run ops).ServesWaiters := by
  refine ⟨[.call .background none, .enqueue 0, .check 0, .debit 0, .call .foreground none,
    .enqueue 1, .pop 0], fun h => ?_⟩
  have hcount := (h.1 1 (by decide)).1
  revert hcount
  decide

end Replicant.Raw
