import Replicant.Server.Automation

/-!
# The global stop

A write that finds the other flag as its request read it changes no flag but its own. Then the
workflows stay paused and the triggers disabled as long as no request is about to say otherwise.
-/

namespace Replicant.Server

open Lib List

variable {stage : AutomationStage} {policy : AutomationPolicy}

namespace AutomationState

variable {s : AutomationState} {op : AutomationOp} {action : AutomationAction}

/-! ## The requests -/

/-- The policy that a request holds has its change in it. -/
def Prepared (action : AutomationAction) : AutomationStage → Prop
  | .marking policy => action ≠ .enableTriggers ∧ action.change policy = policy
  | .steering policy => action.change policy = policy
  | .writing policy => action.lastPolicy (action.change policy) = policy
  | .creating => action = .reset
  | .reading | .returned _ => True

lemma prepared_call (h : Prepared action stage) : Prepared action (s.call action stage).2 := by
  cases stage with
  | reading =>
    cases action with
    | pauseAll | resumeAll | reset => exact ⟨nofun, rfl⟩
    | _ => rfl
  | marking => exact h.2
  | steering policy =>
    show action.lastPolicy (action.change (action.lastPolicy policy)) = action.lastPolicy policy
    rw [← show action.change policy = policy from h]
    cases action <;> rfl
  | writing => cases action <;> first | rfl | trivial
  | creating | returned => trivial

lemma prepared_afterError : Prepared action stage.afterError := by
  cases stage <;> trivial

lemma getElem?_step {request : AutomationRequest} {index : ℕ}
    (h : (s.step op).requests[index]? = some request) :
    s.requests[index]? = some request ∨ op = .start request.action ∧ request.stage = .reading ∨
      ∃ stage, s.requests[index]? = some ⟨request.action, stage⟩ ∧
        ((s.step op).policy = (s.call request.action stage).1 ∧
            request.stage = (s.call request.action stage).2 ∨
          request.stage = stage.afterError) := by
  cases op with
  | start =>
    rcases of_getElem?_concat h with hold | ⟨-, rfl⟩
    · exact .inl hold
    · exact .inr (.inl ⟨rfl, rfl⟩)
  | step =>
    unfold step at h ⊢
    dsimp only at h ⊢
    split at h
    · next old hold =>
      rcases of_getElem?_set h with hsame | ⟨rfl, rfl⟩
      · exact .inl hsame
      · exact .inr (.inr ⟨old.stage, hold, .inl ⟨rfl, rfl⟩⟩)
    · exact .inl h
  | fail =>
    unfold step at h ⊢
    dsimp only at h ⊢
    split at h
    · next old hold =>
      rcases of_getElem?_set h with hsame | ⟨rfl, rfl⟩
      · exact .inl hsame
      · exact .inr (.inr ⟨old.stage, hold, .inr rfl⟩)
    · exact .inl h

/-- A request that has returned does not go on. -/
lemma inProgress_of_step (h : (s.step op).InProgress action) (hop : op ≠ .start action) :
    s.InProgress action := by
  obtain ⟨request, hmem, rfl, hrunn⟩ := h
  obtain ⟨index, hindex⟩ := getElem?_of_mem hmem
  rcases getElem?_step hindex with hold | ⟨hstart, -⟩ | ⟨stage, hold, hstage⟩
  · exact ⟨request, mem_of_getElem? hold, rfl, hrunn⟩
  · exact absurd hstart hop
  · refine ⟨_, mem_of_getElem? hold, rfl, fun ok hret => hrunn ok ?_⟩
    subst hret
    rcases hstage with ⟨-, hcall⟩ | herror
    · exact hcall
    · exact herror

/-! ## Writes -/

section

variable (h : s.UpToDate policy action)
  (hprep : action.lastPolicy (action.change policy) = policy ∨ action.change policy = policy)

include h hprep

/-- A write does not enable the triggers, unless that is what its request is for. -/
lemma UpToDate.triggers (haction : action ≠ .enableTriggers)
    (hstored : s.policy.automaticTriggersEnabled = false) :
    policy.automaticTriggersEnabled = false := by
  cases action with
  | enableTriggers => exact absurd rfl haction
  | pauseAll | resumeAll => exact (show _ = _ from h).trans hstored
  | cancel => rw [show policy = s.policy from h]; exact hstored
  | _ => rcases hprep with hp | hp <;> rw [← hp] <;> rfl

/-- A write does not lift the pause, unless that is what its request is for. -/
lemma UpToDate.paused (hresume : action ≠ .resumeAll) (hreset : action ≠ .reset)
    (hstored : s.policy.workflowsPaused = true) : policy.workflowsPaused = true := by
  cases action with
  | resumeAll => exact absurd rfl hresume
  | reset => exact absurd rfl hreset
  | pauseAll => rcases hprep with hp | hp <;> rw [← hp] <;> rfl
  | cancel => rw [show policy = s.policy from h]; exact hstored
  | _ => exact (show _ = _ from h).trans hstored

end

/-- A request writes its policy with this stage. -/
def Writes (policy : AutomationPolicy) (stage : AutomationStage) : Prop :=
  stage = .marking policy ∨ stage = .writing policy

lemma Writes.change (h : Writes policy stage) (hprep : Prepared action stage) :
    action.lastPolicy (action.change policy) = policy ∨ action.change policy = policy := by
  rcases h with rfl | rfl
  · exact .inr hprep.2
  · exact .inl hprep

lemma Writes.upToDate
    (h : Writes policy stage) (hmay : s.MayCall action stage) : s.UpToDate policy action := by
  rcases h with rfl | rfl
  · exact hmay
  · exact hmay.1

/-- No policy is written, or a request that may do so writes its own. -/
lemma policy_step (hok : s.WritesUpToDate op) :
    (s.step op).policy = s.policy ∨ ∃ action stage, ⟨action, stage⟩ ∈ s.requests ∧
      Writes (s.step op).policy stage ∧ s.MayCall action stage := by
  cases op with
  | start => exact .inl rfl
  | fail =>
    left
    unfold step
    dsimp only
    split <;> rfl
  | step =>
    unfold step
    dsimp only
    split
    · next request hreq =>
      obtain ⟨action, stage⟩ := request
      have hmem : ⟨action, stage⟩ ∈ s.requests := mem_of_getElem? hreq
      have hmay : s.MayCall action stage := hok ⟨action, stage⟩ hreq
      cases stage with
      | marking => exact .inr ⟨action, _, hmem, .inl rfl, hmay⟩
      | writing => exact .inr ⟨action, _, hmem, .inr rfl, hmay⟩
      | _ => exact .inl rfl
    · exact .inl rfl

/-! ## Runs -/

/-- The copies are prepared, and a reset that is about to return has disabled the triggers. -/
structure Inv (s : AutomationState) : Prop where
  prepared : ∀ request ∈ s.requests, Prepared request.action request.stage
  disabled : ⟨.reset, .creating⟩ ∈ s.requests → s.policy.automaticTriggersEnabled = false

section

variable (h : s.Inv) (hok : s.WritesUpToDate op)

include h hok

lemma Inv.triggers_step (hnone : ⟨.reset, .creating⟩ ∈ s.requests ∨ ¬ s.InProgress .enableTriggers)
    (hstored : s.policy.automaticTriggersEnabled = false) :
    (s.step op).policy.automaticTriggersEnabled = false := by
  rcases policy_step hok with heq | ⟨action, stage, hmem, hwrites, hmay⟩
  · rw [heq]
    exact hstored
  · have hprep := h.prepared _ hmem
    refine (hwrites.upToDate hmay).triggers (hwrites.change hprep) ?_ hstored
    rintro rfl
    rcases hwrites with rfl | rfl
    · exact hprep.1 rfl
    · rcases hnone with hcreating | hnot
      · exact hmay.2 rfl hcreating
      · exact hnot ⟨_, hmem, rfl, nofun⟩

lemma Inv.paused_step (hresume : ¬ s.InProgress .resumeAll) (hreset : ¬ s.InProgress .reset)
    (hstored : s.policy.workflowsPaused = true) : (s.step op).policy.workflowsPaused = true := by
  rcases policy_step hok with heq | ⟨action, stage, hmem, hwrites, hmay⟩
  · rw [heq]
    exact hstored
  · have hrunn : ∀ ok, stage ≠ .returned ok := by
      rcases hwrites with rfl | rfl <;> nofun
    apply (hwrites.upToDate hmay).paused (hwrites.change (h.prepared _ hmem)) _ _ hstored
    · rintro rfl
      exact hresume ⟨_, hmem, rfl, hrunn⟩
    · rintro rfl
      exact hreset ⟨_, hmem, rfl, hrunn⟩

lemma Inv.step : (s.step op).Inv where
  prepared := by
    intro request hmem
    obtain ⟨index, hindex⟩ := getElem?_of_mem hmem
    rcases getElem?_step hindex with hold | ⟨-, hstage⟩ | ⟨stage, hold, ⟨hpolicy, hcall⟩ | herror⟩
    · exact h.prepared _ (mem_of_getElem? hold)
    · rw [hstage]
      trivial
    · have hnext := prepared_call (s := s) (h.prepared _ (mem_of_getElem? hold))
      rw [← hcall] at hnext
      exact hnext
    · rw [herror]
      exact prepared_afterError
  disabled := by
    intro hmem
    obtain ⟨index, hindex⟩ := getElem?_of_mem hmem
    rcases getElem?_step hindex with hold | ⟨-, hstage⟩ | ⟨stage, hold, ⟨hpolicy, hcall⟩ | herror⟩
    · have hcreating := mem_of_getElem? hold
      exact h.triggers_step hok (.inl hcreating) (h.disabled hcreating)
    · cases hstage
    -- The reset has just made its last write.
    · have hprep := h.prepared _ (mem_of_getElem? hold)
      cases stage with
      | writing policy =>
        rw [hpolicy]
        show policy.automaticTriggersEnabled = false
        rw [← show _ = policy from hprep]
        rfl
      | _ =>
        cases hcall
    · cases stage <;> cases herror

end

lemma inv_run {ops : List AutomationOp}
    (h : AllSteps step WritesUpToDate ⟨policy, []⟩ ops) : (run policy ops).Inv :=
  h.foldl ⟨nofun, nofun⟩ fun _ _ hinv hok => hinv.step hok

/-! ## The return of a stop -/

/-- With its return a request has made its last write, or a reset its workflow. -/
lemma Inv.returns (h : s.Inv) (hreturns : s.Returns op action) :
    action.lastPolicy (action.change (s.step op).policy) = (s.step op).policy ∨
      action = .reset ∧ ⟨.reset, .creating⟩ ∈ s.requests ∧ (s.step op).policy = s.policy := by
  obtain ⟨index, stage, hindex, hstage, hnext⟩ := hreturns
  have hmem := mem_of_getElem? hindex
  rcases getElem?_step hnext with hold | ⟨-, hread⟩ | ⟨old, hold, ⟨hpolicy, hcall⟩ | herror⟩
  · cases hindex.symm.trans hold
    exact absurd rfl hstage
  · cases hread
  · cases hindex.symm.trans hold
    cases stage with
    | writing => exact .inl (by rw [hpolicy]; exact h.prepared _ hmem)
    | creating =>
      have hreset : action = .reset := h.prepared _ hmem
      subst hreset
      exact .inr ⟨rfl, hmem, hpolicy⟩
    | returned => exact absurd hcall.symm hstage
    | reading => cases action <;> cases hcall
    | marking _ | steering _ => cases hcall
  · cases hindex.symm.trans hold
    cases stage with
    | returned => exact absurd herror.symm hstage
    | _ => cases herror

lemma Inv.paused_of_returns (h : s.Inv) (hreturns : s.Returns op .pauseAll) :
    (s.step op).policy.workflowsPaused = true := by
  rcases h.returns hreturns with hlast | ⟨hreset, -⟩
  · rw [← hlast]
    rfl
  · cases hreset

lemma Inv.disabled_of_returns (h : s.Inv)
    (hreturns : s.Returns op .disableTriggers ∨ s.Returns op .reset) :
    (s.step op).policy.automaticTriggersEnabled = false := by
  rcases hreturns with hreturns | hreturns
  · rcases h.returns hreturns with hlast | ⟨hreset, -⟩
    · rw [← hlast]
      rfl
    · cases hreset
  · rcases h.returns hreturns with hlast | ⟨-, hmem, hsame⟩
    · rw [← hlast]
      rfl
    · rw [hsame]
      exact h.disabled hmem

/-! ## After the return -/

/-- What the steps keep while no request for these actions is under way. -/
lemma Inv.keeps_foldl (actions : List AutomationAction) {P : AutomationPolicy → Prop}
    {after : List AutomationOp} (hstep : ∀ {s op}, Inv s → s.WritesUpToDate op →
      (∀ action ∈ actions, ¬ s.InProgress action) → P s.policy → P (s.step op).policy)
    (h : s.Inv) (hok : AllSteps AutomationState.step WritesUpToDate s after)
    (hnone : ∀ action ∈ actions, ¬ s.InProgress action ∧ .start action ∉ after)
    (hP : P s.policy) : P (after.foldl AutomationState.step s).policy := by
  induction after generalizing s with
  | nil => exact hP
  | cons op after ih =>
    obtain ⟨hop, hrest⟩ := hok
    refine ih (h.step hop) hrest (fun action haction => ?_)
      (hstep h hop (fun action haction => (hnone action haction).1) hP)
    obtain ⟨hnot, hstart⟩ := hnone action haction
    exact ⟨fun hprog => hnot (inProgress_of_step hprog fun heq => hstart (heq ▸ mem_cons_self)),
      fun hmem => hstart (mem_cons_of_mem _ hmem)⟩

/-- If every write finds the other flag as its request read it, then neither flag of the stop is
undone by a request that is not for it. -/
theorem stopHolds_of_writesUpToDate (policy : AutomationPolicy) (ops : List AutomationOp)
    (h : AllSteps step WritesUpToDate ⟨policy, []⟩ ops) : StopHolds policy ops := by
  intro before op after hops
  subst hops
  obtain ⟨hbefore, hop, hafter⟩ := AllSteps.append.mp h
  have hinv := inv_run hbefore
  have hrun : run policy (before ++ [op]) = (run policy before).step op := by
    simp [run]
  have hall : run policy (before ++ op :: after) =
      after.foldl step ((run policy before).step op) := by
    simp [run]
  rw [hrun, hall]
  constructor
  · intro hreturns hnone
    exact (hinv.step hop).keeps_foldl _ (P := (·.workflowsPaused = true))
      (fun h hok hnot => h.paused_step hok (hnot .resumeAll (by simp)) (hnot .reset (by simp)))
      hafter hnone (hinv.paused_of_returns hreturns)
  · intro hreturns hnone
    exact (hinv.step hop).keeps_foldl [.enableTriggers]
      (P := (·.automaticTriggersEnabled = false))
      (fun h hok hnot => h.triggers_step hok (.inr (hnot _ (by simp))))
      hafter (by simpa using hnone) (hinv.disabled_of_returns hreturns)

/-- The workflows are paused while the triggers are disabled, one request after the other. -/
theorem stopHolds_sample : StopHolds ⟨true, false⟩
    [.start .pauseAll, .step 0, .step 0, .step 0, .step 0, .start .disableTriggers, .step 1,
      .step 1] :=
  stopHolds_of_writesUpToDate _ _ (by decide)

/-- A request that disables the triggers has read the policy, the workflows are paused, and then it
writes the policy that it read. -/
theorem exists_stop_undone : ∃ policy ops, ¬ StopHolds policy ops := by
  refine ⟨⟨true, false⟩, [.start .disableTriggers, .start .pauseAll, .step 0, .step 1, .step 1,
    .step 1, .step 1, .step 0], fun h => ?_⟩
  have hpaused := (h [.start .disableTriggers, .start .pauseAll, .step 0, .step 1, .step 1,
    .step 1] (.step 1) [.step 0] rfl).1 ⟨1, .writing ⟨true, true⟩, by decide, nofun, by decide⟩
  revert hpaused
  unfold InProgress
  decide

end AutomationState

end Replicant.Server
