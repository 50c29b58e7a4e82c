import Replicant.Workflow.Refinement.Allocations

/-!
# Lifecycle and target operations are changes
-/

namespace Replicant.Workflow

open Lib List Table Tx

variable {s s' : Repo} {u : IdSource} {t : Terms}

variable {row : WorkflowRow} {resources : List ResourceKey} {id : WorkflowId} {cutoff now : ℤ}
  {n : ℕ}

/-! ## Creation -/

section Creation

variable {workflow : NewWorkflow}

/-- The insertion of a workflow under the identifier drawn for it. -/
lemma insertWorkflowIn_refines
    (h : insertWorkflowIn workflow (u.draw s.uuidsDrawn) now s.drawn = .ok (row, s')) :
    Changes u t s s' := by
  simp only [insertWorkflowIn, bind_eq_ok, requireWorkflow_eq_ok] at h
  obtain ⟨_, s₁, hinsert, -, rfl⟩ := h
  obtain ⟨hfresh, rfl⟩ := insertWorkflowRow_spec hinsert
  exact .single (.insertWorkflow s _ rfl hfresh rfl)

lemma createWithParentClaims_refines
    (h : createWithParentClaims u workflow resources now s = .ok (row, s')) : Changes u t s s' := by
  simp only [createWithParentClaims, bind_ensure, bind_drawUuid] at h
  obtain ⟨-, h⟩ := h
  simp only [bind_eq_ok, pure_eq_ok] at h
  obtain ⟨_, s₁, hinsert, _, s₂, hclaims, -, rfl⟩ := h
  have hcreated := insertWorkflowIn_refines (t := t) hinsert
  rcases when_eq_ok.mp hclaims with ⟨-, hclaims⟩ | ⟨-, rfl⟩
  · rw [inheritClaims, bind_require] at hclaims
    obtain ⟨parent, -, htransfer⟩ := hclaims
    exact hcreated.trans (transferClaimsIn_refines htransfer).1
  · exact hcreated

lemma createOrReuseActive_refines
    {compatible : ℕ → WorkflowRow → Except RepositoryError Bool} {out : CreateOrReuseWorkflow}
    (h : createOrReuseActive u workflow compatible now s = .ok (out, s')) : Changes u t s s' := by
  simp only [createOrReuseActive, bind_ensure, bind_drawUuid, bind_queryM] at h
  obtain ⟨-, found, -, h⟩ := h
  cases found with
  | some =>
    simp only [pure_eq_ok] at h
    rw [h.2]
    exact .single (.draw s)
  | none =>
    simp only [bind_eq_ok, pure_eq_ok] at h
    obtain ⟨_, s₁, hinsert, -, rfl⟩ := h
    exact insertWorkflowIn_refines hinsert

end Creation

/-! ## State replacement -/

section StateReplacement

variable {p : WorkflowRow → Bool}

variable {w : WorkflowRow} {f : WorkflowRow → WorkflowRow}

/-- A workflow that is alive after another one was given a terminal status was alive before. -/
lemma Live.of_update {hf : ∀ w, (f w).id = w.id} (hp : s.workflows.Selects p w)
    (hterm : (f w).status.isTerminal = true)
    (h : Live (s.updateWorkflows p f hf).workflows id) : Live s.workflows id := by
  obtain ⟨x, hx, hid, hlive⟩ := h
  rcases (mem_update_of_selects hf hp).mp hx with ⟨hx, -⟩ | rfl
  · exact ⟨x, hx, hid, hlive⟩
  · rw [hterm] at hlive
    cases hlive

/-- The handoffs of an ending workflow could as well be made before its status is written:
they do not touch the workflows. -/
lemma returnClaims_refines {current : WorkflowRow} {hf : ∀ w, (f w).id = w.id}
    {x : Unit} (hp : s.workflows.Selects p w) (hterm : (f w).status.isTerminal = true)
    (h : when (resources ≠ []) (returnClaims current resources now) (s.updateWorkflows p f hf) =
      .ok (x, s')) :
    ∃ y, s' = y.updateWorkflows p f hf ∧ Changes u t s y ∧ y.workflows = s.workflows := by
  rcases when_eq_ok.mp h with ⟨-, h⟩ | ⟨-, rfl⟩
  swap
  · exact ⟨s, rfl, .refl, rfl⟩
  unfold returnClaims at h
  cases hpar : current.parentId with
  | none =>
    simp only [hpar, pure_eq_ok] at h
    exact ⟨s, h.2, .refl, rfl⟩
  | some parent =>
    simp only [hpar, bind_query] at h
    rcases when_eq_ok.mp h with ⟨-, h⟩ | ⟨-, rfl⟩
    swap
    · exact ⟨s, rfl, .refl, rfl⟩
    obtain ⟨hrelated, hloop⟩ := transferClaimsIn_iff.mp h
    have hdest := hrelated.live.of_update hp hterm
    refine forM_induction (P := fun x => ∃ y, x = y.updateWorkflows p f hf ∧
      Changes u t s y ∧ y.workflows = s.workflows) ?_ ⟨s, rfl, .refl, rfl⟩ hloop
    rintro r - x x' ⟨y, rfl, hchanges, hwfs⟩ hstep
    obtain ⟨wanted, -, howners, ⟨-, -, rfl⟩ | ⟨-, hfree, rfl⟩⟩ := transferClaimIn_iff.mp hstep
    · exact ⟨y, rfl, hchanges, hwfs⟩
    · refine ⟨y.moveClaims current.id parent wanted now, rfl, hchanges.tail ?_, hwfs⟩
      exact .handOff y _ _ wanted now (by rw [hwfs]; exact hdest) howners hfree

variable {revision : ℕ} {state : WorkflowState} {wait : Option String}
  {disposition : Option WorkflowFailureDisposition}

section

variable (h : updateState id revision state wait disposition resources now s = .ok (row, s'))

include h

/-- A state replacement writes the row it finds under the expected revision. What a terminal status
brings with it leaves that row alone. -/
lemma updateState_spec :
    ∃ w, s.workflows.Selects (fun x => x.id = w.id && x.revision = revision) w ∧ w.id = id ∧
      w.revision = revision ∧ w.status.canTransitionTo state.status = true ∧
      row = state.write wait disposition now w ∧ row ∈ s'.workflows ∧
      let written := s.updateWorkflows (fun x => x.id = w.id && x.revision = revision)
        (state.write wait disposition now) fun _ => rfl
      (state.status.isTerminal = false ∧ s' = written) ∨ (state.status.isTerminal = true ∧
        ∃ y, when (resources ≠ []) (returnClaims w resources now) written = .ok ((), y) ∧
          s' = y.releaseWorkflow w.id now) := by
  simp only [updateState, revisionToSql, bind_ensure, bind_requireWorkflow, bind_execute] at h
  obtain ⟨-, w, ⟨hw, rfl⟩, hrev, hallowed, h⟩ := h
  simp only [bind_eq_ok, requireWorkflow_eq_ok] at h
  obtain ⟨_, s₁, hend, ⟨hrow, hid⟩, rfl⟩ := h
  have hp : s.workflows.Selects (fun x => x.id = w.id && x.revision = revision) w :=
    selects_key_and hw (by simp [hrev])
  have hwritten := (mem_update_of_selects (f := state.write wait disposition now)
    (fun _ => rfl) hp).mpr (.inr rfl)
  refine ⟨w, hp, rfl, hrev, hallowed, ?_⟩
  rcases when_eq_ok.mp hend with ⟨hterm, hend⟩ | ⟨hopen, rfl⟩
  · simp only [endWorkflow, bind_eq_ok, execute_eq_ok] at hend
    obtain ⟨_, s₂, hreturn, rfl⟩ := hend
    obtain ⟨y, rfl, -, hsame⟩ := returnClaims_refines (u := .counting) (t := .free) hp hterm hreturn
    rw [← hsame] at hwritten
    exact ⟨eq_of_key hrow hwritten hid, hrow, .inr ⟨hterm, _, hreturn, rfl⟩⟩
  · exact ⟨eq_of_key hrow hwritten hid, hrow, .inl ⟨Bool.not_eq_true _ ▸ hopen, rfl⟩⟩

lemma updateState_refines : Changes u t s s' := by
  obtain ⟨w, hp, -, -, hallowed, -, -, hends⟩ := updateState_spec h
  -- A terminal workflow can only be written with the status it has.
  have hkeep : w.status.isTerminal = true → state.status = w.status :=
    fun hterm => WorkflowStatus.eq_of_canTransitionTo hterm hallowed
  rcases hends with ⟨hopen, rfl⟩ | ⟨hterm, _, hreturn, rfl⟩
  · refine .single (.updateWorkflow s w _ _ _ hp (.inr ⟨?_, hopen⟩))
    cases hcase : w.status.isTerminal with
    | false => rfl
    | true =>
      rw [hkeep hcase, hcase] at hopen
      cases hopen
  · obtain ⟨y, rfl, hchanges, hwfs⟩ := returnClaims_refines hp hterm hreturn
    exact hchanges.tail (.endWorkflow y w _ _ _ now (by rw [hwfs]; exact hp) hterm hkeep)

end

lemma completeWithParentClaims_refines
    (h : completeWithParentClaims id revision state resources now s = .ok (row, s')) :
    Changes u t s s' := by
  rw [completeWithParentClaims, bind_ensure] at h
  exact updateState_refines h.2

lemma migrateWorkflow_refines {out : WorkflowRow} {version : ℕ} {config checkpoint : String}
    (h : migrateWorkflow row version config checkpoint now s = .ok (out, s')) :
    Changes u t s s' := by
  simp only [migrateWorkflow, revisionToSql, bind_ensure, bind_query, bind_execute,
    requireWorkflow_eq_ok] at h
  obtain ⟨-, -, hchanged, -, rfl⟩ := h
  obtain ⟨w, hw, hcur⟩ := countP_pos_iff.mp (Nat.pos_of_ne_zero hchanged)
  have hid : ∀ x : WorkflowRow, (x.id = row.id && x.revision = row.revision &&
      x.schemaVersion = row.schemaVersion) = true → x.id = row.id := by
    intro x hx
    simp only [Bool.and_eq_true, decide_eq_true_eq] at hx
    exact hx.1.1
  exact .single (.updateWorkflow s w _ _ _
    (selects_of_key hw hcur fun x hx => (hid x hx).trans (hid w hcur).symm)
    (.inl rfl))

end StateReplacement

/-! ## Pruning -/

/-- The workflow has ended before the cutoff and owns no claim. -/
def Repo.Ended (s : Repo) (cutoff : ℤ) (w : WorkflowRow) : Prop :=
  w.status.isTerminal = true ∧ w.updatedAt < cutoff ∧ ∀ c ∈ s.claims, c.workflowId ≠ w.id

lemma mem_prunable : id ∈ s.prunable cutoff ↔ ∃ w ∈ s.workflows, w.id = id ∧ s.Ended cutoff w ∧
    ∀ d ∈ s.workflows, d.parentId ≠ some w.id := by
  simp only [Repo.prunable, Repo.Ended, List.mem_map, mem_filter, Bool.and_eq_true, any_eq_false,
    Bool.not_eq_true', decide_eq_true_eq, and_assoc]
  refine exists_congr fun w => and_congr_right fun _ => ?_
  tauto

/-- The deletions of one round: a row that waits for its turn keeps its place. -/
lemma deleteWorkflows_refines (ids : List WorkflowId)
    (hnodup : ids.Nodup) (hids : ∀ id ∈ ids, ∃ w ∈ s.workflows, w.id = id ∧
      w.status.isTerminal = true ∧ ∀ c ∈ s.claims, c.workflowId ≠ w.id) :
    Changes u t s (ids.foldl (fun x id => x.deleteWorkflow id) s) := by
  induction ids generalizing s with
  | nil => exact .refl
  | cons id ids ih =>
    obtain ⟨w, hw, rfl, hterm, hclaims⟩ := hids id mem_cons_self
    obtain ⟨hnot, hrest⟩ := nodup_cons.mp hnodup
    refine .head (.pruneWorkflow s w hw hterm hclaims) (ih hrest fun id hid => ?_)
    obtain ⟨x, hx, hxid, hrest⟩ := hids id (mem_cons_of_mem _ hid)
    refine ⟨x, mem_delete.mpr ⟨hx, ?_⟩, hxid, hrest⟩
    have hne : x.id ≠ w.id := fun heq => hnot (heq ▸ hxid ▸ hid)
    simpa using hne

lemma pruneRounds_refines (fuel : ℕ)
    {removed : ℕ} (h : pruneRounds cutoff fuel removed s = .ok (n, s')) : Changes u t s s' := by
  induction fuel generalizing s removed with
  | zero =>
    rw [pruneRounds, pure_eq_ok] at h
    rw [h.2]
  | succ fuel ih =>
    rw [pruneRounds, bind_query] at h
    split at h
    · rw [pure_eq_ok] at h
      rw [h.2]
    · simp only [bind_eq_ok, forM_execute, Except.ok.injEq, Prod.mk.injEq] at h
      obtain ⟨_, s₁, ⟨-, rfl⟩, hrest⟩ := h
      exact (deleteWorkflows_refines _ (s.workflows.keysNodup.sublist (filter_sublist.map _))
        fun id hid => (mem_prunable.mp hid).imp fun _ h =>
          ⟨h.1, h.2.1, h.2.2.1.1, h.2.2.1.2.2⟩).trans (ih hrest)

lemma pruneTerminalBefore_refines
    (h : pruneTerminalBefore cutoff s = .ok (n, s')) : Changes u t s s' :=
  pruneRounds_refines _ h

/-! ## Targets -/

section Targets

variable {w : WorkflowId} {targets : List WorkflowTarget}

/-- Recording targets leaves the workflows alone, so the owner stays. -/
lemma upsertTargets_refines (now : ℤ) {f : WorkflowTarget → Tx Unit}
    (howner : s.workflows.hasKey w = true)
    (hf : ∀ target x y, f target x = .ok ((), y) → y = x.upsertTarget w target now)
    (h : forM targets f s = .ok ((), s')) : Changes u t s s' := by
  have hend := forM_induction
    (P := fun x => Changes u t s x ∧ x.workflows = s.workflows) ?_ ⟨.refl, rfl⟩ h
  · exact hend.1
  · rintro target - x y ⟨hx, hwfs⟩ hstep
    rw [hf target x y hstep]
    refine ⟨hx.tail (.putTarget x w target now (by rw [hwfs]; exact howner)), ?_⟩
    rw [Repo.upsertTarget_frame]
    exact hwfs

variable {records : List WorkflowTargetRecord}

lemma recordWorkflowTargets_refines
    (h : recordWorkflowTargets w targets now s = .ok (records, s')) : Changes u t s s' := by
  simp only [recordWorkflowTargets, bind_requireWorkflow] at h
  obtain ⟨row, hrow, h⟩ := h
  simp only [bind_eq_ok, query_eq_ok] at h
  obtain ⟨_, y, hloop, -, rfl⟩ := h
  refine upsertTargets_refines now (hasKey_eq_true.mpr ⟨row, hrow⟩) ?_ hloop
  intro target x y hstep
  rw [recordTarget, bind_check] at hstep
  obtain ⟨-, -, hstep⟩ := hstep
  exact execute_eq_ok.mp hstep

lemma replaceWorkflowTargets_refines
    (h : replaceWorkflowTargets w targets now s = .ok (records, s')) : Changes u t s s' := by
  simp only [replaceWorkflowTargets, bind_requireWorkflow] at h
  obtain ⟨row, hrow, h⟩ := h
  simp only [bind_eq_ok, query_eq_ok] at h
  obtain ⟨_, s₁, hchecks, _, s₂, ⟨-, hs₂⟩, _, s₃, hreleases, _, s₄, hupserts, -, rfl⟩ := h
  have hs₁ : s₁ = s := by
    refine forM_induction (P := fun x => x = s) ?_ rfl hchecks
    rintro target - x y hx hstep
    rw [(check_eq_ok.mp hstep).2, hx]
  rw [hs₂, hs₁] at hreleases
  have hreleased := forM_induction
    (P := fun x => Changes u t s x ∧ x.workflows = s.workflows) ?_ ⟨.refl, rfl⟩ hreleases
  · refine hreleased.1.trans (upsertTargets_refines now ?_ (fun target x y hstep =>
      execute_eq_ok.mp hstep) hupserts)
    rw [hreleased.2]
    exact hasKey_eq_true.mpr ⟨row, hrow⟩
  · rintro record - x y ⟨hx, hwfs⟩ hstep
    rw [execute_eq_ok.mp hstep]
    exact ⟨hx.tail (.releaseTarget x w _ _ now), hwfs⟩

end Targets

end Replicant.Workflow
