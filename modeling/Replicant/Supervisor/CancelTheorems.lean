import Replicant.Supervisor.Model

/-!
# Cancelling a workflow

A cancellation reads the row, aborts the task and persists its transition under the revision it has
read. If nobody rewrites the row in between, except an executor that ends the workflow, the
transition succeeds. Otherwise the task is gone, the row is not terminal, and the reaper fails it.
-/

namespace Replicant.Supervisor

open Lib Workflow List Option State Versioned

variable {tick : Tick} {i expected : ℕ} {t : Task} {status : WorkflowStatus} {w : Writer}

/-! ## What is held of the row -/

/-- The instance that a call has read. -/
def Call.seen : Call → Option Row
  | .cancelRead seen | .cancelAborted seen | .pauseRead seen | .resumeRead seen => some seen
  | .pausePersisted => none

def Call.isCancel : Call → Bool
  | .cancelRead _ | .cancelAborted _ => true
  | _ => false

def Tick.seen : Tick → Option Row
  | .failing _ seen | .listed seen | .starting seen | .launched seen => some seen
  | _ => none

/-- The error of the task that the tick has collected. -/
def Tick.cause : Tick → Option Stop
  | .reaping cause | .failing cause _ => some cause
  | _ => none

/-- The tick goes on with a row that was not terminal. -/
def Tick.SeenLive : Tick → Prop
  | .failing _ seen | .starting seen | .launched seen => seen.value.isTerminal = false
  | _ => True

/-- A cancellation has aborted the task. -/
def Task.CancelAborted (t : Task) : Prop :=
  t.abort = some .cancel ∨ t.phase = .stopped (.aborted .cancel)

/-- A cancellation is between its read and its transition. -/
def State.cancelling (s : State) : Bool := s.calls.any Call.isCancel

/-- The steps by which someone else rewrites the row, except an executor that ends its
workflow. -/
def Op.rewrites : Op → Bool
  | .execute report => !report.status.isTerminal
  | .pauseTransition _ | .resumeTransition _ | .reapFail | .reconcile | .migrate
  | .failWithoutExecutor | .startRun | .startFail => true
  | _ => false

/-- Nobody else rewrites the row while a cancellation is under way. -/
def Op.SparesCancel (s : State) (op : Op) : Prop := s.cancelling = true → op.rewrites = false

instance (s : State) (op : Op) : Decidable (op.SparesCancel s) :=
  inferInstanceAs (Decidable (_ → _))

/-- The workflow can be brought back to a running executor from what is persisted. -/
def Restartable (s : State) : Prop :=
  ∃ ops, ∃ t, (run s ops).task = some t ∧ t.phase = .running ∧ t.context = (run s ops).row ∧
    (run s ops).row.value = .running

/-- A workflow on which a cancellation was called is cancelled, or has the terminal status
that its executor persisted, or is not terminal and can be restarted. -/
def CancelHonoured (s : State) : Prop :=
  s.cancelCalled = true →
    s.row.value = .cancelled ∨ (s.row.value.isTerminal = true ∧ s.writer = .executor) ∨
      (s.row.value.isTerminal = false ∧ Restartable s)

/-- The row was failed on account of a task that a cancellation had aborted. -/
def FailedByCancel (s : State) : Prop := s.writer = .reaper (.aborted .cancel)

instance (s : State) : Decidable (FailedByCancel s) :=
  inferInstanceAs (Decidable (s.writer = .reaper (.aborted .cancel)))

/-! ## The invariant -/

structure Inv (s : State) : Prop where
  taskKnows : ∀ t ∈ s.task, t.context.Knows s.row
  callKnows : ∀ c ∈ s.calls, ∀ seen ∈ c.seen, seen.Knows s.row
  tickKnows : ∀ seen ∈ s.tick.seen, seen.Knows s.row
  tickLive : s.tick.SeenLive
  /-- What a cancellation has read is still the row, unless that has become terminal. -/
  current : ∀ c ∈ s.calls, c.isCancel = true →
    c.seen = some s.row ∨ s.row.value.isTerminal = true
  called : s.cancelCalled = true →
    (s.cancelling = true ∧ s.row.value.isTerminal = false) ∨ s.row.value = .cancelled ∨
      (s.row.value.isTerminal = true ∧ s.writer = .executor)
  /-- A task that a cancellation has aborted waits for its transition. -/
  task : ∀ t ∈ s.task, t.CancelAborted → s.cancelling = true ∨ s.row.value.isTerminal = true
  tick : s.tick.cause = some (.aborted .cancel) →
    s.cancelling = true ∨ s.row.value.isTerminal = true
  writer : ¬ FailedByCancel s

lemma Inv.init (row : Row) : Inv (State.init row) where
  taskKnows t ht := by cases ht
  callKnows c hc := by cases hc
  tickKnows seen hseen := by cases hseen
  tickLive := trivial
  current c hc := by cases hc
  called h := by cases h
  task t ht := by cases ht
  tick h := by cases h
  writer h := by cases h

section Writes

variable {s s' : State}

lemma persist_eq_some : s.persist expected status w = some s' ↔
      ∃ row, Row.update s.row expected status = some row ∧
        s' = { s with row := row, writer := w } := by
  rw [persist, map_eq_some_iff]
  exact exists_congr fun row => and_congr_right fun _ => eq_comm

lemma calls_of_persist (h : s.persist expected status w = some s') : s'.calls = s.calls := by
  obtain ⟨row, -, rfl⟩ := persist_eq_some.mp h
  rfl

/-- A status that is not terminal is only written over one that is not. -/
lemma live_of_update {r r' : Row} (h : r.update expected status = some r')
    (hlive : status.isTerminal = false) : r.value.isTerminal = false := by
  obtain ⟨-, hallowed, -⟩ := replace_eq_some.mp h
  cases hterm : r.value.isTerminal with
  | false => rfl
  | true =>
    have hsame : status = r.value := WorkflowStatus.eq_of_canTransitionTo hterm hallowed
    rw [hsame, hterm] at hlive
    cases hlive

/-- The writes that keep the invariant: of a cancellation, of an executor that ends its
workflow, and of anyone to a row that no cancellation has read. -/
inductive Admitted (s : State) : WorkflowStatus → Writer → Prop where
  | cancelled : Admitted s .cancelled .canceller
  | ended {status : WorkflowStatus} (h : status.isTerminal = true) : Admitted s status .executor
  | free {status : WorkflowStatus} {w : Writer} (hcancg : s.cancelling = false)
      (hlive : s.row.value.isTerminal = false ∨ w = .executor)
      (hw : w ≠ .reaper (.aborted .cancel)) : Admitted s status w

lemma Inv.persist (h : Inv s) (hadm : Admitted s status w)
    (hp : s.persist expected status w = some s') : Inv s' := by
  obtain ⟨row, hrow, rfl⟩ := persist_eq_some.mp hp
  obtain ⟨-, hallowed, hwrit⟩ := replace_eq_some.mp hrow
  have hvalue : row.value = status := by rw [hwrit]
  -- A terminal row stays what it is.
  have hkeep : s.row.value.isTerminal = true → row.value = s.row.value := by
    intro hterm
    rw [hvalue]
    exact WorkflowStatus.eq_of_canTransitionTo hterm hallowed
  have hstop : s.cancelling = true ∨ s.row.value.isTerminal = true →
      s.cancelling = true ∨ row.value.isTerminal = true := by
    rintro (hc | hterm)
    · exact .inl hc
    · right
      rw [hkeep hterm]
      exact hterm
  refine
    { taskKnows := fun t ht => ((h.taskKnows t ht).replace hrow).1
      callKnows := fun c hc seen hseen => ((h.callKnows c hc seen hseen).replace hrow).1
      tickKnows := fun seen hseen => ((h.tickKnows seen hseen).replace hrow).1
      tickLive := h.tickLive
      current := fun c hc hcancel => ?_
      called := fun hcalled => ?_
      task := fun t ht hab => hstop (h.task t ht hab)
      tick := fun hcause => hstop (h.tick hcause)
      writer := ?_ }
  · right
    show row.value.isTerminal = true
    rw [hvalue]
    cases hadm with
    | cancelled => rfl
    | ended hterm => exact hterm
    | free hnone =>
      have hcancg : s.cancelling = true := any_eq_true.mpr ⟨c, hc, hcancel⟩
      rw [hnone] at hcancg
      cases hcancg
  · show _ ∨ row.value = .cancelled ∨ (row.value.isTerminal = true ∧ w = .executor)
    cases hadm with
    | cancelled => exact .inr (.inl hvalue)
    | ended hterm => exact .inr (.inr ⟨by rw [hvalue]; exact hterm, rfl⟩)
    | free hnone hlive =>
      rcases h.called hcalled with ⟨hc, -⟩ | hcanc | ⟨hterm, -⟩
      · rw [hnone] at hc
        cases hc
      · right; left
        rw [hkeep (by rw [hcanc]; rfl)]
        exact hcanc
      · right; right
        refine ⟨by rw [hkeep hterm]; exact hterm, hlive.resolve_left ?_⟩
        rw [hterm]
        decide
  · show w ≠ .reaper (.aborted .cancel)
    cases hadm with
    | cancelled | ended => decide
    | free _ _ hw => exact hw

end Writes

/-! ## What the parties do to the rest of the state -/

section Parties

variable {s : State}

section

variable (h : Inv s) {call : Call}

include h

lemma Inv.setTask (task : Option Task) (hknows : ∀ t ∈ task, t.context.Knows s.row)
    (habort : ∀ t ∈ task, t.CancelAborted → s.cancelling = true ∨ s.row.value.isTerminal = true) :
    Inv { s with task := task } :=
  { h with taskKnows := hknows, task := habort }

lemma Inv.dropTask : Inv { s with task := none } :=
  h.setTask none nofun nofun

lemma Inv.putTask (hknows : t.context.Knows s.row)
    (habort : t.CancelAborted → s.cancelling = true ∨ s.row.value.isTerminal = true) :
    Inv { s with task := some t } := by
  refine h.setTask (some t) (fun x hx => ?_) fun x hx => ?_
  · obtain rfl := some.inj hx
    exact hknows
  · obtain rfl := some.inj hx
    exact habort

lemma Inv.setTick (hknows : ∀ seen ∈ tick.seen, seen.Knows s.row)
    (hlive : tick.SeenLive) (hcause : tick.cause = some (.aborted .cancel) →
      s.cancelling = true ∨ s.row.value.isTerminal = true) : Inv { s with tick := tick } :=
  { h with tickKnows := hknows, tickLive := hlive, tick := hcause }

lemma Inv.knows {seen : Row} (htick : s.tick = tick) (hseen : tick.seen = some seen) :
    seen.Knows s.row :=
  h.tickKnows seen (by rw [htick]; exact hseen)

lemma Inv.live (htick : s.tick = tick) : tick.SeenLive := htick ▸ h.tickLive

lemma Inv.setControl (control : Option ControlRequest) : Inv { s with control := control } :=
  { h with }

lemma Inv.restTick (hseen : tick.seen = none)
    (hlive : tick.SeenLive) (hcause : tick.cause = none) : Inv { s with tick := tick } := by
  refine h.setTick (fun seen hs => ?_) hlive fun hc => ?_
  · rw [hseen] at hs
    cases hs
  · rw [hcause] at hc
    cases hc

lemma Inv.holdTick {seen : Row} (hseen : tick.seen = some seen) (hknows : seen.Knows s.row)
    (hlive : tick.SeenLive) (hcause : tick.cause = some (.aborted .cancel) →
      s.cancelling = true ∨ s.row.value.isTerminal = true) : Inv { s with tick := tick } := by
  refine h.setTick (fun x hx => ?_) hlive hcause
  rw [hseen] at hx
  obtain rfl := some.inj hx
  exact hknows

lemma Inv.listTick : Inv { s with tick := .listed s.row } :=
  h.holdTick rfl (.refl _) trivial nofun

lemma Inv.clearStart : Inv s.clearStart :=
  (h.setControl none).restTick rfl trivial rfl

lemma Inv.setCalls {calls : List Call} (hknows : ∀ c ∈ calls, ∀ seen ∈ c.seen, seen.Knows s.row)
    (hcurrent : ∀ c ∈ calls, c.isCancel = true →
      c.seen = some s.row ∨ s.row.value.isTerminal = true)
    (hkeeps : s.cancelling = true → calls.any Call.isCancel = true ∨
      s.row.value.isTerminal = true) : Inv { s with calls := calls } := by
  have hstop : s.cancelling = true ∨ s.row.value.isTerminal = true →
      calls.any Call.isCancel = true ∨ s.row.value.isTerminal = true := by
    rintro (hc | hterm)
    · exact hkeeps hc
    · exact .inr hterm
  refine
    { h with
      callKnows := hknows
      current := hcurrent
      called := fun hcalled => ?_
      task := fun t ht hab => hstop (h.task t ht hab)
      tick := fun hcause => hstop (h.tick hcause) }
  rcases h.called hcalled with ⟨hc, hlive⟩ | hrest
  · refine .inl ⟨(hkeeps hc).resolve_right ?_, hlive⟩
    rw [hlive]
    decide
  · exact .inr hrest

lemma Inv.addCall (call : Call) (hseen : call.seen = some s.row) :
    Inv { s with calls := s.calls ++ [call] } := by
  refine h.setCalls (forall_mem_concat h.callKnows fun seen hs => ?_)
    (forall_mem_concat h.current fun _ => .inl hseen) fun hc => ?_
  · rw [hseen] at hs
    obtain rfl := some.inj hs
    exact .refl _
  · left
    rw [any_append]
    exact Bool.or_eq_true_iff.mpr (.inl hc)

lemma Inv.setCall (call' : Call) (hi : s.calls[i]? = some call)
    (hseen : ∀ seen ∈ call'.seen, call.seen = some seen)
    (hcancel : call'.isCancel = call.isCancel) : Inv { s with calls := s.calls.set i call' } := by
  have hcall : call ∈ s.calls := mem_of_getElem? hi
  refine h.setCalls (fun c hc seen hs => ?_) (fun c hc hcan => ?_) fun hc => ?_
  · rcases mem_or_eq_of_mem_set hc with hold | rfl
    · exact h.callKnows c hold seen hs
    · exact h.callKnows call hcall seen (hseen seen hs)
  · rcases mem_or_eq_of_mem_set hc with hold | rfl
    · exact h.current c hold hcan
    · rcases h.current call hcall (hcancel ▸ hcan) with hcur | hterm
      · left
        cases hs : c.seen with
        | none =>
          -- Only a pause that is persisted holds no instance.
          cases c <;> cases hs
          cases hcan
        | some seen => rw [← hcur, hseen seen hs]
      · exact .inr hterm
  · left
    obtain ⟨c, hmem, hcan⟩ := any_eq_true.mp hc
    obtain ⟨j, hj⟩ := getElem?_of_mem hmem
    by_cases hij : i = j
    · subst hij
      obtain rfl := some.inj (hi.symm.trans hj)
      have hlt : i < s.calls.length := (List.getElem?_eq_some_iff.mp hi).1
      exact any_eq_true.mpr ⟨call', mem_set hlt call', hcancel.trans hcan⟩
    · refine any_eq_true.mpr ⟨c, mem_of_getElem? (i := j) ?_, hcan⟩
      rw [getElem?_set_ne hij]
      exact hj

/-- A call ends; a cancellation may end only on a terminal row. -/
lemma Inv.endCall (hi : s.calls[i]? = some call)
    (hend : call.isCancel = false ∨ s.row.value.isTerminal = true) : Inv (s.endCall i) := by
  refine h.setCalls (fun c hc => h.callKnows c (mem_of_mem_eraseIdx hc))
    (fun c hc => h.current c (mem_of_mem_eraseIdx hc)) fun hc => ?_
  rcases hend with hnot | hterm
  · left
    obtain ⟨c, hmem, hcan⟩ := any_eq_true.mp hc
    obtain ⟨j, hj⟩ := getElem?_of_mem hmem
    refine any_eq_true.mpr ⟨c, mem_eraseIdx_iff_getElem?.mpr ⟨j, ?_, hj⟩, hcan⟩
    rintro rfl
    obtain rfl := some.inj (hi.symm.trans hj)
    rw [hnot] at hcan
    cases hcan
  · exact .inr hterm

/-- A call posts its request and aborts the task. A cancellation that does is under way. -/
lemma Inv.abort (by_ : Aborter) (hby : by_ = .cancel → s.cancelling = true) :
    Inv (s.abort by_) := by
  refine (h.setControl (s.control.map fun _ => by_.request)).setTask _ (fun t ht => ?_)
    fun t ht hab => ?_
  all_goals dsimp only at ht ⊢; split at ht
  · exact h.taskKnows t ht
  · obtain ⟨t₀, ht₀, rfl⟩ := map_eq_some_iff.mp ht
    exact h.taskKnows t₀ ht₀
  · exact h.task t ht hab
  · obtain ⟨t₀, ht₀, rfl⟩ := map_eq_some_iff.mp ht
    -- The task was aborted before, or is aborted by this call.
    rcases hab with hab | hab
    · cases hold : t₀.abort with
      | none =>
        rw [hold] at hab
        exact .inl (hby (some.inj hab))
      | some =>
        rw [hold] at hab
        exact h.task t₀ ht₀ (.inl (hold.trans hab))
    · exact h.task t₀ ht₀ (.inr hab)

end

end Parties

/-! ## Steps -/

section Steps

variable {s s' : State} {op : Op} {seen : Row}

lemma Op.SparesCancel.not_cancelling (h : op.SparesCancel s) (hop : op.rewrites = true) :
    s.cancelling = false := by
  cases hc : s.cancelling with
  | false => rfl
  | true =>
    rw [h hc] at hop
    cases hop

section

variable (h : Inv s)

include h

/-- A status that does not end the workflow is written where no cancellation is under way. -/
lemma Inv.persist_live (hcancg : s.cancelling = false) (hlive : status.isTerminal = false)
    (hw : w ≠ .reaper (.aborted .cancel))
    (hp : s.persist expected status w = some s') : Inv s' := by
  obtain ⟨row, hrow, -⟩ := persist_eq_some.mp hp
  exact h.persist (.free hcancg (.inl (live_of_update hrow hlive)) hw) hp

/-- The supervisor writes over an instance it has read before it was terminal. -/
lemma Inv.persist_seen (hcancg : s.cancelling = false) (hknows : seen.Knows s.row)
    (hlive : seen.value.isTerminal = false) (hw : w ≠ .reaper (.aborted .cancel))
    (hp : s.persist seen.revision status w = some s') : Inv s' := by
  obtain ⟨row, hrow, -⟩ := persist_eq_some.mp hp
  obtain ⟨hsame, -, -⟩ := hknows.eq_of_replace hrow
  exact h.persist (.free hcancg (.inl (hsame ▸ hlive)) hw) hp

/-- The same for a call whose failure is not noticed. -/
lemma Inv.persist_getD (hp : ∀ s', s.persist expected status w = some s' → Inv s') :
    Inv ((s.persist expected status w).getD s) := by
  cases hcase : s.persist expected status w with
  | none => exact h
  | some s' => exact hp s' hcase

lemma Inv.runTask {f : Task → State}
    (hf : ∀ t, s.task = some t → t.phase = .running → Inv (f t)) : Inv (s.runTask f) := by
  unfold State.runTask
  cases ht : s.task with
  | none => exact h
  | some t =>
    dsimp only
    split
    · next hrunn => exact hf t ht hrunn
    · exact h

lemma Inv.listedFree {statuses : List WorkflowStatus} {f : Row → State}
    (hf : ∀ seen, s.tick = .listed seen → seen.value ∈ statuses → Inv (f seen)) :
    Inv (s.listedFree statuses f) := by
  unfold State.listedFree
  split
  · next seen hseen =>
    split
    · next hfree => exact hf seen hseen hfree.2
    · exact h
  · exact h

lemma Inv.execute {report : Report} (ht : s.task = some t)
    (hspare : (Op.execute report).SparesCancel s) : Inv (s.execute report t) := by
  unfold State.execute
  cases hp : s.persist t.context.revision report.status .executor with
  | none => exact h
  | some s' =>
    have hadm : Admitted s report.status .executor := by
      cases hterm : report.status.isTerminal with
      | true => exact .ended hterm
      | false =>
        have hnone := hspare.not_cancelling (by simp [Op.rewrites, hterm])
        exact .free hnone (.inr rfl) (by decide)
    have hs' := h.persist hadm hp
    have htask : s'.task = some t := by
      obtain ⟨row, -, rfl⟩ := persist_eq_some.mp hp
      exact ht
    exact hs'.putTask (.refl _) fun hab => hs'.task t htask hab

lemma Inv.cancelAbort (i : ℕ) : Inv (s.cancelAbort i) := by
  unfold State.cancelAbort
  split
  · next seen hi =>
    have hcancg : s.cancelling = true :=
      any_eq_true.mpr ⟨_, mem_of_getElem? hi, rfl⟩
    have haborted := h.abort .cancel fun _ => hcancg
    exact haborted.setCall (.cancelAborted seen) hi (fun _ hs => hs) rfl
  · exact h

/-- The transition of a cancellation fails only on a terminal row. -/
lemma Inv.cancelTransition (i : ℕ) : Inv (s.cancelTransition i) := by
  unfold State.cancelTransition
  split
  · next seen hi =>
    cases hp : s.persist seen.revision .cancelled .canceller with
    | some s' =>
      obtain ⟨row, hrow, heq⟩ := persist_eq_some.mp hp
      have hterm : s'.row.value.isTerminal = true := by
        obtain ⟨-, -, hwrit⟩ := replace_eq_some.mp hrow
        rw [heq, hwrit]
        rfl
      rw [← calls_of_persist hp] at hi
      exact (h.persist .cancelled hp).endCall hi (.inr hterm)
    | none =>
      refine h.endCall hi (.inr ?_)
      rcases h.current _ (mem_of_getElem? hi) rfl with hcur | hterm
      · -- The row is what was read, and it refuses the transition.
        have hseen : seen = s.row := some.inj hcur
        cases hlive : s.row.value.isTerminal with
        | true => rfl
        | false =>
          have hallowed : s.row.value.canTransitionTo .cancelled = true := by
            revert hlive
            cases s.row.value <;> decide
          have hsome : Row.update s.row seen.revision .cancelled =
              some ⟨.cancelled, s.row.revision + 1⟩ :=
            replace_eq_some.mpr
              ⟨congrArg revision hseen.symm, hallowed, rfl⟩
          rw [State.persist, hsome] at hp
          cases hp
      · exact hterm
  · exact h

lemma Inv.pauseTransition (hnone : s.cancelling = false) : Inv (s.pauseTransition i) := by
  unfold State.pauseTransition
  split
  · next seen hi =>
    cases hp : s.persist seen.revision .paused .pauser with
    | none => exact h.endCall hi (.inl rfl)
    | some s' =>
      rw [← calls_of_persist hp] at hi
      exact (h.persist_live hnone rfl (by decide) hp).setCall .pausePersisted hi nofun rfl
  · exact h

lemma Inv.resumeTransition (hnone : s.cancelling = false) : Inv (s.resumeTransition i) := by
  unfold State.resumeTransition
  split
  · next seen hi =>
    cases hp : s.persist seen.revision .reconciling .resumer with
    | none => exact h.endCall hi (.inl rfl)
    | some s' =>
      rw [← calls_of_persist hp] at hi
      exact (h.persist_live hnone rfl (by decide) hp).endCall hi (.inl rfl)
  · exact h

lemma Inv.collect : Inv s.collect := by
  unfold State.collect
  split
  · next t htick ht =>
    split
    · exact h.restTick rfl trivial rfl
    · exact (h.dropTask.setControl none).restTick rfl trivial rfl
    · next cause hphase =>
      refine (h.dropTask.setControl none).setTick nofun trivial
        fun hcause => ?_
      -- The error that the tick takes over is that of the task.
      obtain rfl := some.inj hcause
      exact h.task t ht (.inr hphase)
  · exact h.restTick rfl trivial rfl
  · exact h

lemma Inv.reapRead : Inv s.reapRead := by
  unfold State.reapRead
  split
  · next cause htick =>
    split
    · exact h.restTick rfl trivial rfl
    · next hlive =>
      refine h.holdTick rfl (.refl _) ?_ fun hcause => h.tick (by rw [htick]; exact hcause)
      show s.row.value.isTerminal = false
      rw [not_or] at hlive
      exact Bool.eq_false_iff.mpr hlive.2
  · exact h

section

variable (hnone : s.cancelling = false)

include hnone

/-- The reaper does not fail a row on account of a cancellation: that is still under way, or
the row is terminal. -/
lemma Inv.reapFail : Inv s.reapFail := by
  unfold State.reapFail
  split
  · next cause seen htick =>
    have hlive : seen.value.isTerminal = false := h.live htick
    have hknows := h.knows htick rfl
    cases hp : s.persist seen.revision .failed (.reaper cause) with
    | none => exact h.restTick rfl trivial rfl
    | some =>
      refine (h.persist_seen hnone hknows hlive ?_ hp).restTick rfl trivial rfl
      intro hbad
      obtain ⟨row, hrow, -⟩ := persist_eq_some.mp hp
      obtain ⟨hsame, -, -⟩ := hknows.eq_of_replace hrow
      have hcause : s.tick.cause = some (.aborted .cancel) := by
        rw [htick]
        exact congrArg some (Writer.reaper.inj hbad)
      rcases h.tick hcause with hc | hterm
      · rw [hnone] at hc
        cases hc
      · rw [← hsame, hlive] at hterm
        cases hterm
  · exact h

/-- The tick rewrites the row that it has listed. -/
lemma Inv.rewrite (hlive : status.isTerminal = false) : Inv (s.rewrite status seen) := by
  unfold State.rewrite
  cases hp : s.persist seen.revision status .starter with
  | none => exact h.restTick rfl trivial rfl
  | some => exact (h.persist_live hnone hlive (by decide) hp).listTick

lemma Inv.startRun : Inv s.startRun := by
  unfold State.startRun
  split
  · next seen htick =>
    cases hp : s.persist seen.revision .running .starter with
    | none => exact h.clearStart
    | some =>
      have hs' := h.persist_live hnone rfl (by decide) hp
      refine hs'.holdTick rfl (.refl _) ?_ nofun
      obtain ⟨row, hrow, rfl⟩ := persist_eq_some.mp hp
      obtain ⟨-, -, rfl⟩ := replace_eq_some.mp hrow
      rfl
  · exact h

lemma Inv.startFail : Inv s.startFail := by
  unfold State.startFail
  split
  · next seen htick =>
    exact (h.persist_getD fun s' =>
      h.persist_seen hnone (h.knows htick rfl) (h.live htick) (by decide)).clearStart
  · exact h

end

lemma Inv.startCheck : Inv s.startCheck := by
  unfold State.startCheck
  split
  · next seen htick =>
    split
    · have hspawned : Inv { s with task := some ⟨seen, none, .running⟩ } :=
        h.putTask (h.knows htick rfl) fun hab => by rcases hab with hab | hab <;> cases hab
      exact hspawned.restTick rfl trivial rfl
    · exact h.clearStart
  · exact h

end

/-- The statuses that a tick starts from are not terminal. -/
lemma live_of_started {status : WorkflowStatus} (h : status ∈ started) :
    status.isTerminal = false := by
  revert h
  cases status <;> decide

lemma step_inv (h : Inv s) (hspare : op.SparesCancel s) : Inv (step s op) := by
  cases op with
  | execute => exact h.runTask fun t ht _ => h.execute ht hspare
  | controlRequest => exact h.runTask fun t ht _ => h.putTask (.refl _) fun hab => h.task t ht hab
  | finish | panic =>
    refine h.runTask fun t ht _ => h.putTask (h.taskKnows t ht) fun hab => ?_
    exact h.task t ht (.inl (hab.resolve_right nofun))
  | stop =>
    refine h.runTask fun t ht _ => ?_
    unfold stop
    split
    · next by_ hby =>
      refine h.putTask (h.taskKnows t ht) fun hab => ?_
      refine h.task t ht (.inl (hab.elim id fun hstop => ?_))
      cases hstop
      exact hby
    · exact h
  | cancelRead =>
    have hadded := h.addCall (.cancelRead s.row) rfl
    refine { hadded with called := fun hcalled => ?_ }
    cases hlive : s.row.value.isTerminal with
    | false =>
      refine .inl ⟨?_, hlive⟩
      exact any_eq_true.mpr ⟨.cancelRead s.row, mem_append_cons_self, rfl⟩
    | true =>
      refine hadded.called ?_
      have hor : (s.cancelCalled || !s.row.value.isTerminal) = true := hcalled
      rw [hlive, Bool.not_true, Bool.or_false] at hor
      exact hor
  | cancelAbort i => exact h.cancelAbort i
  | cancelTransition i => exact h.cancelTransition i
  | pauseRead => exact h.addCall (.pauseRead s.row) rfl
  | pauseTransition => exact h.pauseTransition (hspare.not_cancelling rfl)
  | pauseAbort i =>
    show Inv (s.pauseAbort i)
    unfold pauseAbort
    split
    · next hi => exact (h.abort .pause nofun).endCall hi (.inl rfl)
    · exact h
  | resumeRead => exact h.addCall (.resumeRead s.row) rfl
  | resumeTransition => exact h.resumeTransition (hspare.not_cancelling rfl)
  | collect => exact h.collect
  | reapRead => exact h.reapRead
  | reapFail => exact h.reapFail (hspare.not_cancelling rfl)
  | list =>
    show Inv s.list
    unfold list
    split
    · exact h.listTick
    · exact h
  | leave =>
    show Inv s.leave
    unfold leave
    split
    all_goals first | exact h.restTick rfl trivial rfl | exact h
  | reconcile => exact h.listedFree fun _ _ _ => h.rewrite (hspare.not_cancelling rfl) rfl
  | migrate =>
    exact h.listedFree fun _ _ hin => h.rewrite (hspare.not_cancelling rfl) (live_of_started hin)
  | failWithoutExecutor =>
    refine h.listedFree fun seen htick hin => ?_
    exact (h.persist_getD fun s' => h.persist_seen (hspare.not_cancelling rfl) (h.knows htick rfl)
      (live_of_started hin) (by decide)).restTick rfl trivial rfl
  | begin =>
    refine h.listedFree fun seen htick hin => ?_
    exact (h.setControl (some .continued)).holdTick rfl (h.knows htick rfl) (live_of_started hin) nofun
  | startRun => exact h.startRun (hspare.not_cancelling rfl)
  | startFail => exact h.startFail (hspare.not_cancelling rfl)
  | startCheck => exact h.startCheck
  | register =>
    show Inv (if s.tick = .spawned then _ else s)
    split
    · exact h.restTick rfl trivial rfl
    · exact h
  | restart =>
    exact { Inv.init s.row with called := nofun, writer := h.writer }

end Steps

/-! ## Runs -/

/-- The steps of a new supervisor that start an executor on a row it finds. -/
def restarts : WorkflowStatus → List Op
  | .paused => [.restart, .resumeRead, .resumeTransition 0, .collect, .list, .begin, .startRun,
      .startCheck, .register]
  | .running | .waiting => [.restart, .collect, .list, .reconcile, .begin, .startRun, .startCheck,
      .register]
  | _ => [.restart, .collect, .list, .begin, .startRun, .startCheck, .register]

/-- Every row that is not terminal can be restarted. -/
lemma restartable_of_live {s : State} (hlive : s.row.value.isTerminal = false) : Restartable s := by
  refine ⟨restarts s.row.value, ?_⟩
  obtain ⟨⟨status, revision⟩, control, task, tick, calls, writer, called⟩ := s
  cases status with
  | succeeded | failed | cancelled => cases hlive
  | _ =>
    simp [restarts, run, step, State.init, State.collect, State.list, State.listedFree,
      State.rewrite, State.persist, Row.update, Versioned.replace, State.startRun,
      State.startCheck, State.resumeTransition, State.endCall, started, reconciled,
      WorkflowStatus.canTransitionTo]

/-- In every run in which nobody else rewrites the row while a cancellation is under way, a
workflow on which cancel was called is cancelled, or has the terminal status its executor
persisted, or can be restarted; and it is never failed because a cancellation aborted it. -/
theorem run_cancelHonoured (row : Row) (ops : List Op)
    (h : AllSteps step (fun s op => op.SparesCancel s) (State.init row) ops) :
    CancelHonoured (run (State.init row) ops) ∧ ¬ FailedByCancel (run (State.init row) ops) := by
  have hinv : Inv (run (init row) ops) :=
    h.foldl (Inv.init row) fun s op hs hop => step_inv hs hop
  refine ⟨fun hcalled => ?_, hinv.writer⟩
  rcases hinv.called hcalled with ⟨-, hlive⟩ | hcanc | hended
  · exact .inr (.inr ⟨hlive, restartable_of_live hlive⟩)
  · exact .inl hcanc
  · exact .inr (.inl hended)

namespace Scenario

/-- A tick starts the executor of a queued workflow. -/
def startup : List Op := [.collect, .list, .begin, .startRun, .startCheck, .register]

/-- A tick reaps the task and records its error. -/
def reap : List Op := [.collect, .reapRead, .reapFail]

/-- The executor checkpoints before the cancellation reads the row. -/
def undisturbed : List Op :=
  startup ++ [.execute .advance, .cancelRead, .cancelAbort 0, .stop, .cancelTransition 0] ++ reap

/-- The executor checkpoints between the read and the transition of the cancellation. -/
def checkpointed : List Op :=
  startup ++ [.cancelRead, .execute .advance, .cancelAbort 0, .stop, .cancelTransition 0] ++ reap

/-- The reaper gets to the row before the cancellation does. -/
def overtaken : List Op :=
  startup ++ [.cancelRead, .cancelAbort 0, .stop] ++ reap ++ [.cancelTransition 0]

end Scenario

theorem run_cancelHonoured_undisturbed :
    (run (State.init ⟨.queued, 0⟩) Scenario.undisturbed).row.value = .cancelled ∧
      CancelHonoured (run (State.init ⟨.queued, 0⟩) Scenario.undisturbed) ∧
      ¬ FailedByCancel (run (State.init ⟨.queued, 0⟩) Scenario.undisturbed) :=
  ⟨by decide, run_cancelHonoured ⟨.queued, 0⟩ Scenario.undisturbed (by decide)⟩

/-- The cancelled workflow is recorded as failed when its executor checkpoints at the wrong
time, and when the reaper is faster. -/
theorem cancel_recorded_failed :
    (FailedByCancel (run (State.init ⟨.queued, 0⟩) Scenario.checkpointed) ∧
      (run (State.init ⟨.queued, 0⟩) Scenario.checkpointed).row.value = .failed ∧
      ¬ CancelHonoured (run (State.init ⟨.queued, 0⟩) Scenario.checkpointed)) ∧
    FailedByCancel (run (State.init ⟨.queued, 0⟩) Scenario.overtaken) ∧
      ¬ CancelHonoured (run (State.init ⟨.queued, 0⟩) Scenario.overtaken) := by
  have hnot : ∀ s : State, s.cancelCalled = true → s.row.value = .failed → s.writer ≠ .executor →
      ¬ CancelHonoured s := by
    intro s hcalled hfailed hwriter hhonoured
    rcases hhonoured hcalled with hcanc | ⟨-, hexecutor⟩ | ⟨hlive, -⟩
    · rw [hfailed] at hcanc
      cases hcanc
    · exact hwriter hexecutor
    · rw [hfailed] at hlive
      cases hlive
  refine ⟨⟨by decide, by decide, hnot _ (by decide) (by decide) (by decide)⟩, by decide,
    hnot _ (by decide) (by decide) (by decide)⟩

end Replicant.Supervisor
