import Mathlib.Data.Nat.Pairing
import Replicant.Server.ActionRights

/-!
# One outcome for each action

Recording an outcome gives the right away, so no second one follows. Where the right is lost instead,
the row stays as it is.
-/

namespace Replicant.Server

open Lib List Option CancelRequest

variable {f : Execution → Execution} {id' index : ℕ} {request : CancelRequest} {e' : Execution}

/-! ## One operation -/

namespace Actions

variable {s : Actions} {op : ActionOp} {id : ℕ} {status : FiniteExecutionStatus} {e : Execution}
  {stage stage' : CancelStage}

/-- The requests that hold the right to record the outcome. -/
def holders (s : Actions) (id : ℕ) : ℕ := s.cancels.countP (·.holds id)

lemma getElem?_modify_self : (s.modify id f).executions[id]? = s.executions[id]?.map f := by
  simp [modify]

lemma getElem?_modify_of_ne (h : id' ≠ id) :
    (s.modify id' f).executions[id]? = s.executions[id]? := by
  simp [modify, h]

lemma holders_setCancel {t : Actions} (id : ℕ)
    (request' : CancelRequest) (hcancels : t.cancels = s.cancels) (h : s.cancels[index]? = some request) :
    (t.setCancel index request').holders id + (request.holds id).toNat =
      s.holders id + (request'.holds id).toNat := by
  obtain ⟨hlt, hget⟩ := List.getElem?_eq_some_iff.mp h
  unfold holders setCancel
  rw [hcancels, countP_set hlt, hget]
  cases hold : request.holds id with
  | false => cases request'.holds id <;> simp
  | true =>
    have hpos : 0 < s.cancels.countP (·.holds id) :=
      countP_pos_iff.mpr ⟨request, mem_of_getElem? h, hold⟩
    cases request'.holds id <;> simp <;> omega

section

variable (h : (s.modify id' f).executions[id]? = some e')

include h

lemma of_getElem?_modify :
    s.executions[id]? = some e' ∨ ∃ e, s.executions[id]? = some e ∧ e' = f e := by
  by_cases hid : id' = id
  · subst hid
    obtain ⟨e, he, rfl⟩ := map_eq_some_iff.mp (getElem?_modify_self.symm.trans h)
    exact .inr ⟨e, he, rfl⟩
  · exact .inl ((getElem?_modify_of_ne hid).symm.trans h)

lemma moves_modify {P : Execution → Prop} (hmoves : ∀ e n, Moves e n (f e) n) :
    ∃ e, s.executions[id]? = some e ∧ (Moves e (s.holders id) e' (s.holders id) ∨ P e) := by
  rcases of_getElem?_modify h with he | ⟨e, he, rfl⟩
  · exact ⟨e', he, .inl (.refl _ _)⟩
  · exact ⟨e, he, .inl (hmoves _ _)⟩

lemma loses_modify (hloses : ∀ e n, Loses e n (f e) n) (hop : ¬ s.Lossless op) :
    ∃ e, s.executions[id]? = some e ∧ (Moves e (s.holders id) e' (s.holders id) ∨
      Loses e (s.holders id) e' (s.holders id) ∧ (s.Lossless op → e.status ≠ .running)) := by
  rcases of_getElem?_modify h with he | ⟨e, he, rfl⟩
  · exact ⟨e', he, .inl (.refl _ _)⟩
  · exact ⟨e, he, .inr ⟨hloses _ _, fun hok => absurd hok hop⟩⟩

end

lemma cancels_cancelAction (request : CancelRequest) :
    (s.cancelAction request).1.cancels = s.cancels := by
  unfold cancelAction
  split
  · split <;> rfl
  all_goals rfl

/-- A request takes the right with the entry, and gives it away with the outcome. -/
lemma moves_cancelAction (hreq : s.cancels[index]? = some request)
    (h : (s.cancelAction request).1.executions[id]? = some e') :
    ∃ e, s.executions[id]? = some e ∧ Moves e (s.holders id) e'
      (((s.cancelAction request).1.setCancel index
        { request with stage := (s.cancelAction request).2 }).holders id) := by
  have hholders := holders_setCancel id
    { request with stage := (s.cancelAction request).2 } (cancels_cancelAction request) hreq
  have hholder : request.holds id = true → 0 < s.holders id := fun hholds =>
    countP_pos_iff.mpr ⟨request, mem_of_getElem? hreq, hholds⟩
  generalize (setCancel _ _ _).holders id = n at hholders ⊢
  generalize s.holders id = m at hholders hholder ⊢
  obtain ⟨rid, stage⟩ := request
  by_cases hid : rid = id
  · subst hid
    cases stage with
    | removing =>
      unfold cancelAction at h hholders
      dsimp only at h hholders
      split at h
      · next hreg =>
        rw [if_pos hreg] at hholders
        have hn : n = m + 1 := by simpa [holds] using hholders
        obtain ⟨e, he, rfl⟩ := map_eq_some_iff.mp (getElem?_modify_self.symm.trans h)
        have htrue : e.registered = true := by simpa [isRegistered, he] using hreg
        rw [hn]
        exact ⟨e, he, .take e m htrue⟩
      · next hnot =>
        rw [if_neg hnot] at hholders
        have hn : n = m := by simpa [holds] using hholders
        rw [hn]
        exact ⟨e', h, .refl _ _⟩
    | aborting =>
      have hn : n + 1 = m + 1 := by simpa [holds, cancelAction] using hholders
      have hpos : 0 < m := hholder (by simp [holds])
      obtain ⟨e, he, rfl⟩ := map_eq_some_iff.mp (getElem?_modify_self.symm.trans h)
      obtain ⟨k, rfl⟩ := Nat.exists_eq_succ_of_ne_zero (Nat.ne_of_gt hpos)
      obtain rfl : n = k + 1 := by omega
      exact ⟨e, he, .abort e k⟩
    | writing =>
      have hn : n + 1 = m := by simpa [holds, cancelAction] using hholders
      obtain ⟨e, he, rfl⟩ := map_eq_some_iff.mp (getElem?_modify_self.symm.trans h)
      rw [← hn]
      exact ⟨e, he, .cancel e n⟩
    | returned ok =>
      have hn : n = m := by simpa [holds, cancelAction] using hholders
      rw [hn]
      exact ⟨e', h, .refl _ _⟩
  -- The request is for another execution.
  · have hn : n = m := by simpa [holds, hid] using hholders
    have hsame : (s.cancelAction ⟨rid, stage⟩).1.executions[id]? = s.executions[id]? := by
      unfold cancelAction
      split
      · split
        · exact getElem?_modify_of_ne hid
        · rfl
      · exact getElem?_modify_of_ne hid
      · exact getElem?_modify_of_ne hid
      · rfl
    rw [hn]
    exact ⟨e', hsame.symm.trans h, .refl _ _⟩

lemma execution_step (h : (s.step op).executions[id]? = some e') :
    s.executions[id]? = none ∧ e' = .begin ∧ (s.step op).holders id = s.holders id ∨
    ∃ e, s.executions[id]? = some e ∧ (Moves e (s.holders id) e' ((s.step op).holders id) ∨
        Loses e (s.holders id) e' ((s.step op).holders id) ∧
          (s.Lossless op → e.status ≠ .running)) := by
  cases op with
  | begin =>
    rcases of_getElem?_concat h with hold | ⟨hlast, hnew⟩
    · exact .inr ⟨e', hold, .inl (.refl _ _)⟩
    · exact .inl ⟨getElem?_eq_none (Nat.le_of_eq hlast.symm), hnew, rfl⟩
  | launch => exact .inr (moves_modify h .launch)
  | task => exact .inr (moves_modify h .task)
  | returns id' outcome => exact .inr (moves_modify h (.returns outcome))
  | stops => exact .inr (moves_modify h .stops)
  | panics => exact .inr (loses_modify h .panics nofun)
  | taskWriteFails => exact .inr (loses_modify h .writeFails nofun)
  | cancel id' =>
    have hsame : (s.step (.cancel id')).holders id = s.holders id := by
      simp [step, holders, holds]
    rw [hsame]
    exact .inr ⟨e', h, .inl (.refl _ _)⟩
  | cancelStep index =>
    cases hreq : s.cancels[index]? with
    | some =>
      simp only [step, hreq] at h ⊢
      obtain ⟨e, he, hmoves⟩ := moves_cancelAction hreq h
      exact .inr ⟨e, he, .inl hmoves⟩
    | none =>
      have hsame : s.step (.cancelStep index) = s := by
        simp only [step, hreq]
      rw [hsame] at h ⊢
      exact .inr ⟨e', h, .inl (.refl _ _)⟩
  | cancelWriteFails index =>
    right
    unfold step at h ⊢
    dsimp only at h ⊢
    split at h
    · next id' hreq =>
      have hholders := holders_setCancel id ⟨id', .returned false⟩ rfl hreq
      refine ⟨e', h, ?_⟩
      by_cases hid : id' = id
      · have hn : (s.setCancel index ⟨id', .returned false⟩).holders id + 1 = s.holders id := by
          simpa [holds, hid] using hholders
        rw [← hn]
        exact .inr ⟨.cancelFails _ _, nofun⟩
      · have hn : (s.setCancel index ⟨id', .returned false⟩).holders id = s.holders id := by
          simpa [holds, hid] using hholders
        rw [hn]
        exact .inl (.refl _ _)
    · exact ⟨e', h, .inl (.refl _ _)⟩
  | restart =>
    have hget : (s.executions.map .exits)[id]? = some e' := h
    rw [getElem?_map] at hget
    obtain ⟨e, he, rfl⟩ := map_eq_some_iff.mp hget
    have hnone : (s.step .restart).holders id = 0 := by
      refine countP_eq_zero.mpr fun request hmem => ?_
      have hret := of_mem_filter hmem
      obtain ⟨rid, stage⟩ := request
      cases stage with
      | returned => simp [holds]
      | _ => cases hret
    rw [hnone]
    exact .inr ⟨e, he, .inr ⟨.exits _ _, fun hok => hok e (mem_of_getElem? he)⟩⟩

lemma length_step : s.executions.length ≤ (s.step op).executions.length := by
  have hmodify : ∀ id' f, s.executions.length ≤ (s.modify id' f).executions.length := by
    intro id' f
    exact Nat.le_of_eq (length_modify ..).symm
  cases op with
  | begin => simp [step]
  | cancel => exact Nat.le_refl _
  | cancelStep =>
    unfold step
    dsimp only
    split
    · unfold cancelAction
      split
      · split
        · exact hmodify _ _
        · exact Nat.le_refl _
      · exact hmodify _ _
      · exact hmodify _ _
      · exact Nat.le_refl _
    · exact Nat.le_refl _
  | cancelWriteFails =>
    unfold step
    dsimp only
    split <;> exact Nat.le_refl _
  | restart => exact Nat.le_of_eq (length_map ..).symm
  | _ => exact hmodify _ _

lemma exists_getElem?_step (op : ActionOp) (h : s.executions[id]? = some e) :
    ∃ e', (s.step op).executions[id]? = some e' := by
  have hlt : id < (s.step op).executions.length :=
    Nat.lt_of_lt_of_le (List.getElem?_eq_some_iff.mp h).1 length_step
  exact ⟨_, getElem?_eq_getElem hlt⟩

lemma cancel_step (h : request ∈ (s.step op).cancels) :
    request ∈ s.cancels ∨ request.stage = .removing ∨ request.stage = .returned false ∨
      request.stage = .aborting ∧ s.isRegistered request.id = true ∨
      request.stage = .writing ∧ ⟨request.id, .aborting⟩ ∈ s.cancels ∨
      request.stage = .returned true ∧ ⟨request.id, .writing⟩ ∈ s.cancels ∧
        (s.step op).status request.id = (s.status request.id).map fun _ => .cancelled := by
  cases op with
  | cancel =>
    rcases of_mem_concat h with hold | rfl
    · exact .inl hold
    · exact .inr (.inl rfl)
  | restart => exact .inl (mem_of_mem_filter h)
  | cancelWriteFails =>
    unfold step at h
    dsimp only at h
    split at h
    · rcases mem_or_eq_of_mem_set h with hold | rfl
      · exact .inl hold
      · exact .inr (.inr (.inl rfl))
    · exact .inl h
  | cancelStep index =>
    unfold step at h ⊢
    dsimp only at h ⊢
    cases hold : s.cancels[index]? with
    | none =>
      rw [hold] at h
      exact .inl h
    | some old =>
      rw [hold] at h
      dsimp only at h ⊢
      have hmem := mem_of_getElem? hold
      simp only [setCancel, cancels_cancelAction] at h
      rcases mem_or_eq_of_mem_set h with hsame | rfl
      · exact .inl hsame
      obtain ⟨rid, stage⟩ := old
      cases stage with
      | removing =>
        unfold cancelAction
        dsimp only
        split
        · next hreg => exact .inr (.inr (.inr (.inl ⟨rfl, hreg⟩)))
        · exact .inr (.inr (.inl rfl))
      | aborting => exact .inr (.inr (.inr (.inr (.inl ⟨rfl, hmem⟩))))
      | writing =>
        refine .inr (.inr (.inr (.inr (.inr ⟨rfl, hmem, ?_⟩))))
        show ((s.modify rid _).executions[rid]?).map _ = _
        rw [getElem?_modify_self]
        simp [status, Function.comp_def]
      | returned => exact .inl hmem
  | _ => exact .inl h

/-! ## Runs -/

structure Inv (s : Actions) : Prop where
  owned : ∀ (id : ℕ) e, s.executions[id]? = some e → e.Owned (s.holders id)
  taken : ∀ request ∈ s.cancels, request.stage = .aborting ∨ request.stage = .writing →
    request.id < s.executions.length
  cancelled : ∀ request ∈ s.cancels, request.stage = .returned true →
    s.status request.id = some .cancelled

lemma Inv.holders_of_none (h : s.Inv) (hid : s.executions[id]? = none) : s.holders id = 0 := by
  refine countP_eq_zero.mpr fun request hmem hholds => ?_
  obtain ⟨rfl, hstage⟩ := of_decide_eq_true hholds
  have hlt := h.taken request hmem hstage
  have hle := getElem?_eq_none_iff.mp hid
  omega

lemma Inv.status_step (h : s.Inv) (hstat : s.status id = some status) (hdone : status ≠ .running) :
    (s.step op).status id = some status := by
  obtain ⟨e, he, rfl⟩ := map_eq_some_iff.mp hstat
  obtain ⟨e', he'⟩ := exists_getElem?_step op he
  show (s.step op).executions[id]?.map _ = _
  rw [he']
  show some e'.status = some e.status
  have howned := h.owned id e he
  rcases execution_step he' with ⟨hnone, -⟩ | ⟨e₀, he₀, hmoves | ⟨hloses, -⟩⟩
  · cases he.symm.trans hnone
  · cases he.symm.trans he₀
    rcases (howned.passes hmoves).kept with ⟨-, hsame⟩ | ⟨hless, -⟩
    · rw [hsame]
    · exact absurd (howned.running (by omega)) hdone
  · cases he.symm.trans he₀
    rw [hloses.status]

lemma Inv.step (h : s.Inv) : (s.step op).Inv where
  owned := by
    intro id e' he'
    rcases execution_step he' with ⟨hnone, rfl, hsame⟩ | ⟨e, he, hmoves | ⟨hloses, -⟩⟩
    · rw [hsame, h.holders_of_none hnone]
      exact Execution.owned_begin
    · exact (h.owned id e he).moves hmoves
    · exact hloses.owned (h.owned id e he)
  taken := by
    intro request hmem hstage
    refine Nat.lt_of_lt_of_le ?_ length_step
    rcases cancel_step hmem with hold | hs | hs | ⟨-, hreg⟩ | ⟨-, hold⟩ | ⟨hs, -⟩
    · exact h.taken request hold hstage
    · rw [hs] at hstage
      exact absurd hstage nofun
    · rw [hs] at hstage
      exact absurd hstage nofun
    · obtain ⟨e, he, -⟩ := (any_eq_true _ _).mp hreg
      exact (List.getElem?_eq_some_iff.mp he).1
    · exact h.taken ⟨request.id, .aborting⟩ hold (.inl rfl)
    · rw [hs] at hstage
      exact absurd hstage nofun
  cancelled := by
    intro request hmem hstage
    rcases cancel_step hmem with hold | hs | hs | ⟨hs, -⟩ | ⟨hs, -⟩ | ⟨-, hold, hstat⟩
    · exact h.status_step (h.cancelled request hold hstage) nofun
    · cases hs.symm.trans hstage
    · cases hs.symm.trans hstage
    · cases hs.symm.trans hstage
    · cases hs.symm.trans hstage
    · have hlt := h.taken _ hold (.inr rfl)
      rw [hstat]
      simp [status, getElem?_eq_getElem hlt]

lemma Inv.foldl (h : s.Inv) (ops : List ActionOp) : (ops.foldl Actions.step s).Inv :=
  foldlRecOn ops Actions.step h fun _ hs _ _ => hs.step

lemma inv_init : Inv ⟨[], []⟩ := by
  refine ⟨?_, ?_, ?_⟩ <;> intro _ _ <;> simp_all

lemma inv_run (ops : List ActionOp) : (run ops).Inv :=
  inv_init.foldl ops

lemma Inv.status_foldl (h : s.Inv) (hstat : s.status id = some status) (hdone : status ≠ .running)
    (ops : List ActionOp) : (ops.foldl Actions.step s).status id = some status := by
  induction ops generalizing s with
  | nil => exact hstat
  | cons op ops ih => exact ih h.step (h.status_step hstat hdone)

/-! ## Nothing is lost -/

/-- The right to record an outcome is held until there is one. -/
def Live (s : Actions) : Prop :=
  ∀ (id : ℕ) e, s.executions[id]? = some e → e.Live (s.holders id)

lemma Live.step (h : s.Live) (hinv : s.Inv) (hok : s.Lossless op) : (s.step op).Live := by
  intro id e' he'
  rcases execution_step he' with ⟨hnone, rfl, hsame⟩ | ⟨e, he, hmoves | ⟨hloses, hdone⟩⟩
  · rw [hsame, hinv.holders_of_none hnone]
    exact Execution.live_begin
  · exact (h id e he).moves (hinv.owned id e he) hmoves
  · have hstat : e'.status ≠ .running := hloses.status ▸ hdone hok
    have hnone : ¬ 0 < e'.owners + (s.step op).holders id := fun hpos =>
      hstat ((hloses.owned (hinv.owned id e he)).running hpos)
    exact ⟨fun hrunn => absurd hrunn hstat, fun _ => by omega⟩

lemma live_run {ops : List ActionOp} (h : AllSteps step Lossless ⟨[], []⟩ ops) : (run ops).Live :=
  (h.foldl (P := fun s => s.Inv ∧ s.Live) ⟨inv_init, fun id e he => by simp at he⟩
    fun _ _ hinv hok => ⟨hinv.1.step, hinv.2.step hinv.1 hok⟩).2

/-- The request is about to record its outcome, and there is none yet. -/
def Holding (s : Actions) (index id : ℕ) (stage : CancelStage) : Prop :=
  s.cancels[index]? = some ⟨id, stage⟩ ∧ s.status id = some .running

lemma Holding.next (h : s.Holding index id stage) (op : ActionOp)
    (hcancel : (s.step op).cancels[index]? = some ⟨id, stage'⟩) :
    (s.step op).Settled id ∨ (s.step op).Holding index id stage' := by
  obtain ⟨e, he, -⟩ := Option.map_eq_some_iff.mp h.2
  obtain ⟨e', he'⟩ := exists_getElem?_step op he
  have hstat : (s.step op).status id = some e'.status := by rw [Actions.status, he', map_some]
  by_cases hrunn : e'.status = .running
  · exact .inr ⟨hcancel, hstat.trans (congrArg some hrunn)⟩
  · exact .inl ⟨e'.status, hstat, hrunn⟩

/-- A request that goes on records its outcome, or is about to. -/
lemma Holding.cancelStep (h : s.Holding index id stage)
    (hstage : stage = .aborting ∨ stage = .writing) :
    (s.step (.cancelStep index)).Settled id ∨ (s.step (.cancelStep index)).Holding index id .writing ∧
      stage = .aborting := by
  have hlt := (List.getElem?_eq_some_iff.mp h.1).1
  rcases hstage with rfl | rfl
  · refine (h.next (.cancelStep index) ?_).imp_right fun hnext => ⟨hnext, rfl⟩
    simp only [Actions.step, h.1, cancelAction]
    exact List.getElem?_set_self hlt
  · refine .inl ⟨.cancelled, ?_, nofun⟩
    simp only [Actions.step, h.1, cancelAction, mem_def]
    show (s.modify id _).executions[id]?.map _ = _
    obtain ⟨e, he, -⟩ := Option.map_eq_some_iff.mp h.2
    rw [getElem?_modify_self, he]
    rfl

/-- The request waits for its turn: the daemon does not exit while the action runs. -/
lemma Holding.step (h : s.Holding index id stage) (hok : s.Lossless op)
    (hop : op ≠ .cancelStep index) :
    (s.step op).Settled id ∨ (s.step op).Holding index id stage := by
  refine h.next op ?_
  have hlt := (List.getElem?_eq_some_iff.mp h.1).1
  cases op with
  | cancel => exact (getElem?_append_left hlt).trans h.1
  | cancelStep other =>
    have hne : other ≠ index := fun heq => hop (heq ▸ rfl)
    simp only [Actions.step]
    split
    · next request hother =>
      have hsame : (s.cancelAction request).1.cancels = s.cancels := by
        unfold cancelAction
        repeat' split
        all_goals rfl
      exact (getElem?_set_ne hne).trans (hsame ▸ h.1)
    · exact h.1
  | cancelWriteFails => exact hok.elim
  | restart =>
    obtain ⟨e, he, hrunn⟩ := Option.map_eq_some_iff.mp h.2
    exact absurd hrunn (hok e (mem_of_getElem? he))
  | _ => exact h.1

section

variable {schedule : ℕ → ActionOp}
  (hok : ∀ n, (Lib.after Actions.step s schedule n).Lossless (schedule n))

include hok

/-- At the next turn of the request there is an outcome, or the request has gone on. -/
lemma Holding.turn {n m : ℕ} (h : (Lib.after Actions.step s schedule n).Holding index id stage)
    (hstage : stage = .aborting ∨ stage = .writing) (hle : n ≤ m)
    (hturn : schedule m = .cancelStep index) :
    ∃ k, (Lib.after Actions.step s schedule k).Settled id ∨
      (Lib.after Actions.step s schedule k).Holding index id .writing ∧ stage = .aborting := by
  obtain ⟨d, rfl⟩ := Nat.exists_eq_add_of_le hle
  induction d generalizing n with
  | zero =>
    refine ⟨n + 1, ?_⟩
    rw [Lib.after, show schedule n = .cancelStep index from hturn]
    exact h.cancelStep hstage
  | succ d ih =>
    by_cases hop : schedule n = .cancelStep index
    · refine ⟨n + 1, ?_⟩
      rw [Lib.after, hop]
      exact h.cancelStep hstage
    · rcases h.step (hok n) hop with hdone | hstill
      · exact ⟨n + 1, .inl hdone⟩
      · refine ih (n := n + 1) hstill (Nat.le_add_right _ _) ?_
        rw [Nat.add_right_comm]
        exact hturn

end

/-- Where the task has ended without an outcome, a request is about to record its own. -/
lemma Live.settles (h : s.Live) (he : s.executions[id]? = some e) (hended : e.task = .ended)
    (hrunn : e.status = .running) : s.Settles id := by
  have hheld := (h id e he).held hrunn
  have hzero := (h id e he).ended hended
  have hpos : 0 < s.holders id := by omega
  obtain ⟨⟨rid, stage⟩, hmem, hholds⟩ := countP_pos_iff.mp hpos
  obtain ⟨rfl, hstage⟩ := of_decide_eq_true hholds
  obtain ⟨index, hindex⟩ := getElem?_of_mem hmem
  have hhold : s.Holding index rid stage := by
    refine ⟨hindex, ?_⟩
    rw [Actions.status, he, map_some, hrunn]
  intro schedule hok hfair
  obtain ⟨m, -, hturn⟩ := hfair index 0
  obtain ⟨k, hdone | ⟨hwrites, -⟩⟩ := Holding.turn (n := 0) hok hhold hstage (Nat.zero_le m) hturn
  · exact ⟨k, hdone⟩
  · obtain ⟨m', hle, hturn'⟩ := hfair index k
    obtain ⟨k', hdone | ⟨-, hnot⟩⟩ := Holding.turn hok hwrites (.inr rfl) hle hturn'
    · exact ⟨k', hdone⟩
    · cases hnot

/-- If no task panics, every outcome is recorded and the daemon exits only when nothing runs, then
each action gets one outcome. -/
theorem oneOutcome_of_lossless (ops : List ActionOp) (h : AllSteps step Lossless ⟨[], []⟩ ops) :
    OneOutcome ops := by
  refine ⟨?_, (inv_run ops).cancelled, ?_⟩
  · intro before after id hops status hstat hdone
    subst hops
    rw [show run (before ++ after) = after.foldl step (run before) from foldl_append]
    exact (inv_run before).status_foldl hstat hdone after
  · intro id e he hended hrunn
    exact (live_run h).settles he hended hrunn

/-- One action finishes and another is cancelled. -/
theorem oneOutcome_sample : OneOutcome
    [.begin, .launch 0, .launch 0, .launch 0, .task 0, .begin, .launch 1, .launch 1, .cancel 1,
      .cancelStep 0, .returns 0 .succeeded, .task 0, .cancelStep 0, .launch 1, .stops 1, .task 0,
      .cancelStep 0, .restart] :=
  oneOutcome_of_lossless _ (by decide)

/-! ## An exit -/

/-- No one holds the right to record this outcome any more. -/
def Stuck (s : Actions) (id : ℕ) : Prop :=
  s.executions[id]? = some Execution.begin.exits ∧ s.holders id = 0

lemma Stuck.step (h : s.Stuck id) : (s.step op).Stuck id := by
  obtain ⟨he, hnone⟩ := h
  obtain ⟨e', he'⟩ := exists_getElem?_step op he
  rcases execution_step he' with ⟨hfresh, -⟩ | ⟨e, hold, hmoves | ⟨hloses, -⟩⟩
  · cases he.symm.trans hfresh
  · cases he.symm.trans hold
    obtain ⟨rfl, hzero⟩ := hmoves.of_exits hnone
    exact ⟨he', hzero⟩
  · cases he.symm.trans hold
    obtain ⟨rfl, hzero⟩ := hloses.of_exits hnone
    exact ⟨he', hzero⟩

/-- The daemon exits while an action runs: although every request goes on, its row says that it
runs. -/
theorem exists_lost_outcome : ∃ ops, ¬ OneOutcome ops := by
  refine ⟨[.begin, .restart], fun h => ?_⟩
  obtain ⟨n, status, hstat, hdone⟩ := h.2.2 0 Execution.begin.exits rfl rfl rfl
    (fun n => .cancelStep n.unpair.1) (fun _ => trivial)
    fun index n => ⟨Nat.pair index n, Nat.right_le_pair index n, by rw [Nat.unpair_pair]⟩
  have hstuck : ∀ n, Stuck
      (Lib.after step (run [.begin, .restart]) (fun n => .cancelStep n.unpair.1) n) 0 := by
    intro n
    induction n with
    | zero => exact ⟨rfl, rfl⟩
    | succ n ih => exact ih.step
  rw [mem_def, Actions.status, (hstuck n).1] at hstat
  cases hstat
  exact hdone rfl

end Actions

end Replicant.Server
