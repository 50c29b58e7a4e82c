import Replicant.Workflow.History

/-!
# What holds in every reachable state

The invariants of the store, read in the terms of the calls: exclusive claims, terminal
workflows that hold nothing, the bookkeeping of attempts, and the dependency gate.
-/

namespace Replicant.Workflow

open Lib List Table Tx

variable {i : WorkItem} {u : IdSource}

/-! ## Claims -/

/-- In no reachable state do two workflows claim one physical resource. -/
theorem run_claimsExclusive (u : IdSource) (ops : List Op) : ClaimsExclusive (run u ops).claims :=
  (run_inv u ops).claims.exclusive

/-! ## Terminal workflows -/

/-- The workflow owns no claim, active allocation, assignment that is not released, open
attempt, or item that is not terminal. -/
structure HoldsNothing (s : Repo) (id : WorkflowId) : Prop where
  claims : ∀ c ∈ s.claims, c.workflowId ≠ id
  allocations : ∀ a ∈ s.allocations, s.ownsItem id a.itemId = true → a.state ≠ .active
  assignments : ∀ a ∈ s.assignments, s.ownsItem id a.itemId = true → a.state = .released
  attempts : ∀ a ∈ s.attempts, s.ownsItem id a.itemId = true → a.endedAtMs ≠ none
  items : ∀ i ∈ s.items, i.spec.workflowId = id → i.state.status.isTerminal = true

/-- Every terminal workflow holds nothing. -/
def TerminalHoldNothing (s : Repo) : Prop :=
  ∀ w ∈ s.workflows, w.status.isTerminal = true → HoldsNothing s w.id

/-- The workflows and items that are terminal in the first state have the same status in
the second, if they are still there. -/
def TerminalKept (s s' : Repo) : Prop :=
  (∀ w ∈ s.workflows, w.status.isTerminal = true →
    ∀ w' ∈ s'.workflows, w'.id = w.id → w'.status = w.status) ∧
  ∀ i ∈ s.items, i.state.status.isTerminal = true →
    ∀ i' ∈ s'.items, i'.id = i.id → i'.state.status = i.state.status

section Terminal

variable {s s' : Repo}

/-- The items of a terminal workflow are terminal. -/
lemma Inv.terminal_item (hs : Inv u s) {w : WorkflowRow} (hw : w ∈ s.workflows)
    (hterm : w.status.isTerminal = true) (hi : i ∈ s.items)
    (hown : i.spec.workflowId = w.id) : i.state.status.isTerminal = true := by
  obtain ⟨x, hx, hid, hx'⟩ := hs.items.owner i hi
  rw [eq_of_key hx hw (hid.trans hown)] at hx'
  exact hx' hterm

/-- A row that hangs on an item hangs on a terminal one, if the item's owner is. -/
lemma Inv.terminal_of_ownsItem (hs : Inv u s) {w : WorkflowRow} (hw : w ∈ s.workflows)
    (hterm : w.status.isTerminal = true) {itemId : WorkItemId}
    (hown : s.ownsItem w.id itemId = true) (hi : i ∈ s.items)
    (hid : i.id = itemId) : i.state.status.isTerminal = true := by
  obtain ⟨j, hj, hjid, hjown⟩ := ownsItem_iff.mp hown
  rw [eq_of_key hi hj (hid.trans hjid.symm)]
  exact hs.terminal_item hw hterm hj hjown

lemma Inv.terminalHoldNothing (hs : Inv u s) : TerminalHoldNothing s := by
  intro w hw hterm
  constructor
  · intro c hc hown
    obtain ⟨x, hx, hid, hlive⟩ := hs.claims.owner c hc
    rw [eq_of_key hx hw (hid.trans hown), hterm] at hlive
    cases hlive
  · intro a ha hown hact
    obtain ⟨i, hi, hid, hlive⟩ := hs.allocations.item a ha
    rw [hs.terminal_of_ownsItem hw hterm hown hi hid] at hlive
    cases hlive hact
  · intro a ha hown
    obtain ⟨i, hi, hid, hclaimed⟩ := hs.assignments a ha
    by_contra hheld
    have hlive := WorkItemStatus.not_isTerminal_of_isClaimed (hclaimed hheld)
    rw [hs.terminal_of_ownsItem hw hterm hown hi hid] at hlive
    cases hlive
  · intro a ha hown hopen
    obtain ⟨i, hi, hid, -, -, hrunn⟩ := hs.attempts.item a ha
    have hended := hs.terminal_of_ownsItem hw hterm hown hi hid
    rw [hrunn hopen] at hended
    cases hended
  · intro i hi hown
    exact hs.terminal_item hw hterm hi hown

lemma Stable.terminalKept (h : Stable u s s') (hs : Inv u s) : TerminalKept s s' :=
  ⟨fun _ hw hterm _ hw' hid => (h.continues_workflow hs hw hw' hid).2 hterm,
    fun _ hi hterm _ hi' hid => (h.continues_item hs hi hi' hid).2.2 hterm⟩

end Terminal

/-- In every reachable state a terminal workflow holds nothing, and no continuation of the
run changes a terminal status. -/
theorem run_terminal (u : IdSource) (ops ops' : List Op) :
    TerminalHoldNothing (run u ops) ∧ TerminalKept (run u ops) (run u (ops ++ ops')) :=
  ⟨(run_inv u ops).terminalHoldNothing, (run_stable u ops ops').terminalKept (run_inv u ops)⟩

/-! ## Owners and identifiers -/

/-- No row outlives its owner, the owner of a claim can make progress, and a key names one item. -/
theorem run_owned (u : IdSource) (ops : List Op) :
    let s := run u ops
    (∀ c ∈ s.claims, Live s.workflows c.workflowId) ∧ ItemsOk s.items s.workflows ∧
      AttemptsOk s.attempts s.items ∧ AssignmentsOk s.assignments s.items ∧
      AllocationsOk s.allocations s.items s.pools ∧ TargetsOk s.targets s.workflows := by
  obtain ⟨claims, items, attempts, assignments, allocations, targets, -⟩ := run_inv u ops
  exact ⟨claims.owner, items, attempts, assignments, allocations, targets⟩

/-- What the first and the last state share was never gone, and items have kept what they specify. -/
def Lasting (s s' s'' : Repo) : Prop :=
  (∀ w ∈ s.workflows, ∀ w'' ∈ s''.workflows, w''.id = w.id → ∃ w' ∈ s'.workflows, w'.id = w.id) ∧
  ∀ i ∈ s.items, ∀ i'' ∈ s''.items, i''.id = i.id →
    i''.spec = i.spec ∧ ∃ i' ∈ s'.items, i'.id = i.id

/-- A workflow or item that is gone never comes back, nor does another under its identifier. -/
theorem run_lasting (u : IdSource) (ops ops' ops'' : List Op) :
    Lasting (run u ops) (run u (ops ++ ops')) (run u (ops ++ ops' ++ ops'')) := by
  have hinv := run_inv u ops
  have hfirst := run_stable u ops ops'
  have hlast := run_stable u (ops ++ ops') ops''
  have hold {n : ℕ} {id : Uuid} (hdrawn : Drawn u (run u ops).uuidsDrawn id) :
      ¬ Fresh u (run u (ops ++ ops')).uuidsDrawn n id :=
    fun hfresh => (hfresh.mono hfirst.drawn le_rfl).not_drawn hdrawn
  refine ⟨fun w hw w'' hw'' hid => ?_, fun i hi i'' hi'' hid => ⟨?_, ?_⟩⟩
  · obtain ⟨w', hw', hcont⟩ := (hlast.workflow w'' hw'').resolve_right
      (hid ▸ hold (hinv.ids.workflow w hw))
    exact ⟨w', hw', hcont.1.trans hid⟩
  · exact ((hfirst.trans hlast hinv).continues_item hinv hi hi'' hid).2.1.symm
  · obtain ⟨i', hi', hcont⟩ := (hlast.item i'' hi'').resolve_right (hid ▸ hold (hinv.ids.item i hi))
    exact ⟨i', hi', hcont.1.trans hid⟩

/-! ## Dependencies -/

/-- An item that has a worker, or ever had one, has all its dependencies met. -/
def Gated (s : Repo) : Prop :=
  ∀ i ∈ s.items, i.state.status.isClaimed = true ∨ i.state.everStarted = true →
    DependenciesMet s.items i

/-- The item depends on one of its workflow that has failed or was abandoned. -/
def Blocked (s : Repo) (i : WorkItem) : Prop :=
  ∃ j ∈ s.items, j.spec.workflowId = i.spec.workflowId ∧
    some j.spec.dedupeKey ∈ i.spec.dependencies ∧
    (j.state.status = .failed ∨ j.state.status = .abandoned)

/-- No call of `claim_next_work_item` in the second state hands out an item that is blocked
in the first. -/
def BlockedUnclaimed (s s' : Repo) : Prop :=
  ∀ i ∈ s.items, Blocked s i → ∀ w now claimed s'',
    claimNextWorkItem w now s' = .ok (some claimed, s'') → claimed.id ≠ i.id

lemma Stable.blockedUnclaimed {u : IdSource} {s s' : Repo} (h : Stable u s s') (hs : Inv u s)
    (hs' : Inv u s') : BlockedUnclaimed s s' := by
  rintro i hi ⟨j, hj, hsame, hdep, hfailed⟩ w now claimed s'' hclaim hid
  -- The claimed item is one whose dependencies are met.
  obtain ⟨hnone, -⟩ | ⟨i', _, hnext, ⟨⟩, hid', -⟩ := claimNextWorkItem_spec hclaim
  · cases hnone
  obtain ⟨hi', -, -, hmet⟩ := nextClaimable_spec hnext
  have hidi : i'.id = i.id := hid'.symm.trans hid
  obtain ⟨-, hspec, -⟩ := h.continues_item hs hi hi' hidi
  -- The prerequisite is still there, since the items of a workflow go together ...
  obtain ⟨j', hj', hjd⟩ := h.together i hi j hj hsame.symm ⟨i', hi', hidi⟩
  obtain ⟨-, hjspec, hjterm⟩ := h.continues_item hs hj hj' hjd
  -- ... it is the one item that has the key, and its status has not changed.
  obtain ⟨k, hk, hkw, hkey, hsat⟩ := dependenciesMet_iff.mp hmet _ (hspec ▸ hdep)
  have hkj : k = j' := by
    refine hs'.items.key k hk j' hj' ?_ ?_
    · rw [hkw, ← hspec, ← hjspec, hsame]
    · rw [← hjspec]
      exact Option.some.inj hkey
  rw [hkj] at hsat
  rcases hfailed with hfailed | hfailed <;>
    · rw [hjterm (by rw [hfailed]; rfl), hfailed] at hsat
      cases hsat

/-- Dependencies gate execution, and an item whose prerequisite has failed or was abandoned
is never claimed in any continuation of the run. -/
theorem run_gated (u : IdSource) (ops ops' : List Op) :
    Gated (run u ops) ∧ BlockedUnclaimed (run u ops) (run u (ops ++ ops')) :=
  ⟨(run_inv u ops).items.gate,
    (run_stable u ops ops').blockedUnclaimed (run_inv u ops) (run_inv u (ops ++ ops'))⟩

/-! ## Attempts -/

/-- The attempts and assignments of an item are in order. -/
structure AttemptsKept (s : Repo) (i : WorkItem) : Prop where
  running : i.state.status = .running ↔ s.openAttempts i.id = 1
  idle : i.state.status ≠ .running → s.openAttempts i.id = 0
  ordinals : ((s.attempts.rows.filter fun a => a.itemId = i.id).map (·.attemptOrdinal)).Perm
    (List.range' 1 i.state.attemptCount)
  started : i.state.everStarted = true ↔ 0 < i.state.attemptCount
  unassigned : i.state.status.isClaimed = false →
    ∀ a ∈ s.assignments, a.itemId = i.id → a.state = .released

/-- The calls that run `close_open_attempt`. -/
def Op.closesAttempts : Op → Bool
  | .transitionWorkItem .. | .reconcileOrphanedWorkItems ..
  | .replaceDeadAllocationWithAffinity .. => true
  | _ => false

/-- Every item's attempts are in order, and `close_open_attempt` finds the one open attempt
whichever call runs it. -/
def AttemptBookkeeping (u : IdSource) (s : Repo) : Prop :=
  (∀ i ∈ s.items, AttemptsKept s i) ∧
    ∀ op : Op, op.closesAttempts = true → op.error? u s ≠ some openAttemptError

section Attempts

variable {s : Repo}

section

variable (h : AttemptsOk s.attempts s.items) (hi : i ∈ s.items)

include h hi

lemma openAttempts_running (hrun : i.state.status = .running) : s.openAttempts i.id = 1 := by
  obtain ⟨a, ha, hitem, hopen⟩ := h.running i hi hrun
  refine Table.Selects.countP ⟨ha, fun b hb => ?_⟩
  simp only [Bool.and_eq_true, decide_eq_true_eq]
  constructor
  · rintro ⟨hbitem, hbopen⟩
    exact h.single b hb a ha hbopen hopen (hbitem.trans hitem.symm)
  · rintro rfl
    exact ⟨hitem, hopen⟩

lemma openAttempts_idle (hidle : i.state.status ≠ .running) : s.openAttempts i.id = 0 := by
  refine countP_eq_zero.mpr fun a ha => ?_
  simp only [Bool.and_eq_true, decide_eq_true_eq, not_and]
  exact fun hitem hopen => hidle (h.running_of_open ha hopen hi hitem.symm)

/-- The ordinals of an item's attempts are the numbers up to its count, each once. -/
lemma attempt_ordinals :
    ((s.attempts.rows.filter fun a => a.itemId = i.id).map (·.attemptOrdinal)).Perm
      (List.range' 1 i.state.attemptCount) := by
  refine (perm_ext_iff_of_nodup ?_ nodup_range').mpr fun n => ?_
  · -- Two attempts of one item with one ordinal have the same key.
    refine List.Nodup.map_on ?_ (s.attempts.rows_nodup.filter _)
    intro a ha b hb hordinal
    rw [mem_filter, decide_eq_true_eq] at ha hb
    refine eq_of_key ha.1 hb.1 ?_
    rw [AttemptRow.identity, AttemptRow.identity, ha.2, hb.2, hordinal]
  · rw [mem_range'_1, List.mem_map]
    constructor
    · rintro ⟨a, ha, rfl⟩
      rw [mem_filter, decide_eq_true_eq] at ha
      obtain ⟨x, hx, hxid, hpos, hle, -⟩ := h.item a ha.1
      rw [eq_of_key hx hi (hxid.trans ha.2)] at hle
      omega
    · rintro ⟨hpos, hlt⟩
      obtain ⟨a, ha, hitem, hordinal⟩ := h.counted i hi n hpos (by omega)
      exact ⟨a, mem_filter.mpr ⟨ha, by simpa using hitem⟩, hordinal⟩

end

lemma Inv.attemptsKept (hs : Inv u s) (hi : i ∈ s.items) : AttemptsKept s i where
  running := by
    refine ⟨openAttempts_running hs.attempts hi, fun hone => ?_⟩
    by_contra hidle
    rw [openAttempts_idle hs.attempts hi hidle] at hone
    cases hone
  idle := openAttempts_idle hs.attempts hi
  ordinals := attempt_ordinals hs.attempts hi
  started := hs.attempts.started i hi
  unassigned hfree a ha hitem := by
    obtain ⟨x, hx, hxid, hclaimed⟩ := hs.assignments a ha
    by_contra hheld
    have hbusy := hclaimed hheld
    rw [eq_of_key hx hi (hxid.trans hitem), hfree] at hbusy
    cases hbusy

end Attempts

/-! ### The error that does not occur -/

section OpenAttempt

variable {s : Repo} {now : ℤ}

lemma closeOpenAttempt_avoids (h : AttemptsOk s.attempts s.items) (hi : i ∈ s.items)
    (hrun : i.state.status = .running) (outcome : WorkItemAttemptOutcome) (error : Option String) :
    Tx.Avoids openAttemptError (closeOpenAttempt i.id outcome error now) s := by
  intro hbad
  rw [closeOpenAttempt, bind_query, bind_execute, openAttempts_running h hi hrun] at hbad
  cases hbad

/-- A plan closes an attempt only for a running item. -/
lemma planTransition_close {transition : WorkItemTransition}
    {plan : TransitionPlan} (h : planTransition i transition now = .ok plan)
    (hclose : plan.attemptClose.isSome = true) : i.state.status = .running := by
  by_contra hidle
  unfold planTransition at h
  simp only [WorkItemState.closeIfRunning, ne_eq, hidle, not_false_iff, if_true, if_false] at h
  split at h
  · cases h
  · cases transition <;> simp only at h <;> try split at h
    all_goals cases h
    all_goals cases hclose

lemma planTransition_ne_error (i : WorkItem) (transition : WorkItemTransition) :
    planTransition i transition now ≠ .error openAttemptError := by
  intro hbad
  unfold planTransition openAttemptError at hbad
  simp only at hbad
  split at hbad
  · cases hbad
  · cases transition <;> simp only at hbad <;> repeat' split at hbad
    all_goals cases hbad

lemma updateItemAtRevision_avoids (id : WorkItemId) (revision : ℕ)
    (f : WorkItemState → WorkItemState) (s : Repo) :
    Tx.Avoids openAttemptError (updateItemAtRevision id revision f) s := by
  refine .bind (avoids_query _) fun changed _ _ => .bind (avoids_execute _) fun _ _ _ => ?_
  exact avoids_ensure (by simp [openAttemptError])

lemma transitionWorkItemIn_avoids (h : AttemptsOk s.attempts s.items)
    (hi : i ∈ s.items) (transition : WorkItemTransition) :
    Tx.Avoids openAttemptError (transitionWorkItemIn i transition now) s := by
  refine .bind (avoids_check (planTransition_ne_error i transition)) fun plan s₁ hcheck => ?_
  obtain ⟨hplan, rfl⟩ := check_eq_ok.mp hcheck
  refine .bind ?_ fun _ _ _ => .bind (avoids_when fun _ => ?_) fun _ _ _ =>
    .bind (avoids_when fun _ => avoids_execute _) fun _ _ _ =>
      .bind (avoids_ensure (by simp [openAttemptError])) fun _ _ _ =>
        updateItemAtRevision_avoids _ _ _ _
  · cases hclose : plan.attemptClose with
    | none => exact avoids_pure _
    | some =>
      exact closeOpenAttempt_avoids h hi (planTransition_close hplan (by rw [hclose]; rfl)) _ _
  · exact .bind (avoids_execute _) fun _ _ _ => avoids_execute _

lemma requireWorkItem_avoids (id : WorkItemId) (s : Repo) :
    Tx.Avoids openAttemptError (requireWorkItem id) s :=
  .bind (avoids_query _) fun _ _ _ => avoids_require (by simp [openAttemptError])

lemma transitionWorkItem_avoids (h : AttemptsOk s.attempts s.items) (id : WorkItemId)
    (revision : ℕ) (transition : WorkItemTransition) :
    Tx.Avoids openAttemptError (transitionWorkItem id revision transition now) s := by
  refine .bind (requireWorkItem_avoids id s) fun i s₁ hi => ?_
  obtain ⟨⟨hi, -⟩, rfl⟩ := requireWorkItem_eq_ok.mp hi
  refine .bind (avoids_ensure (by simp [openAttemptError])) fun _ s₂ hrev => ?_
  obtain ⟨-, rfl⟩ := ensure_eq_ok.mp hrev
  exact .bind (transitionWorkItemIn_avoids h hi transition) fun _ _ _ => requireWorkItem_avoids _ _

/-- Each orphan in turn is found running with its open attempt, if it was running. -/
lemma reclaimOrphans_avoids (os : List WorkItem) (hs : Inv u s)
    (hmem : ∀ i ∈ os, i ∈ s.items ∧ i.state.status.isClaimed = true) (hnodup : os.Nodup) :
    Tx.Avoids openAttemptError (forM os (reclaimOrphan now)) s := by
  induction os generalizing s with
  | nil => exact avoids_pure _
  | cons i os ih =>
    obtain ⟨hi, hclaimed⟩ := hmem i mem_cons_self
    obtain ⟨hnot, hnodup⟩ := nodup_cons.mp hnodup
    rw [forM_cons]
    refine .bind ?_ fun _ s₁ hstep => ?_
    · refine .bind (avoids_when fun hrun => closeOpenAttempt_avoids hs.attempts hi hrun _ _)
        fun _ _ _ => ?_
      exact .bind (avoids_execute _) fun _ _ _ => .bind (avoids_execute _) fun _ _ _ =>
        .bind (avoids_execute _) fun _ _ _ => avoids_execute _
    · obtain ⟨hchg, hothers⟩ := reclaimOrphan_refines (t := Terms.free) hi hclaimed
        (fun hbad => hbad.elim) hstep
      refine ih (hchg.inv hs) (fun j hj => ?_) hnodup
      obtain ⟨hjs, hjc⟩ := hmem j (mem_cons_of_mem i hj)
      exact ⟨hothers j hjs fun heq => hnot (heq ▸ hj), hjc⟩

lemma reconcileOrphanedWorkItems_avoids (hs : Inv u s) (w : Option WorkflowId) :
    Tx.Avoids openAttemptError (reconcileOrphanedWorkItems w now) s := by
  refine .bind (avoids_query _) fun os s₁ hos => ?_
  obtain ⟨rfl, rfl⟩ := query_eq_ok.mp hos
  obtain ⟨hmem, hnodup⟩ := orphans_spec s₁ w
  exact .bind (reclaimOrphans_avoids _ hs hmem hnodup) fun _ _ _ => avoids_pure _

/-! The checks of a replacement fail with errors of their own. -/

lemma persistedParts_ne_error (r : ResourceKey) : r.persistedParts ≠ .error openAttemptError := by
  intro hbad
  unfold ResourceKey.persistedParts openAttemptError at hbad
  cases r <;> simp only at hbad <;> repeat' split at hbad
  all_goals cases hbad

lemma activeQuantityIn_ne_error (s : Repo) (poolKey : String) :
    s.activeQuantityIn poolKey ≠ .error openAttemptError := by
  intro hbad
  unfold Repo.activeQuantityIn openAttemptError at hbad
  split at hbad <;> cases hbad

lemma supportsAffinedDependents_ne_error (s : Repo) (ctx : AllocationContext)
    (set : AllocationSet) (c : AllocationCandidate) (requirement : ResourceRequirement) :
    s.supportsAffinedDependents ctx set c requirement ≠ .error openAttemptError := by
  refine allM_ne_error (fun dependent => ?_) _
  unfold Repo.supportsDependent
  simp only
  split
  · exact nofun
  · refine bind_ne_error (fun hbad => ?_) fun quantity =>
      bind_ne_error (filterM_ne_error (fun candidate => ?_) _) nofun
    · unfold checkRequiredQuantity openAttemptError at hbad
      split at hbad <;> cases hbad
    · unfold Repo.dependentEligible
      split
      · exact nofun
      · refine bind_ne_error (activeQuantityIn_ne_error s _) fun active => ?_
        split
        · exact nofun
        · exact bind_ne_error (persistedParts_ne_error _) nofun

lemma judgeReplacement_ne_error (s : Repo) (ctx : AllocationContext) (set : AllocationSet)
    (requirement : ResourceRequirement) (dead : ResourceIdentity) (quantity : ℕ)
    (c : AllocationCandidate) :
    s.judgeReplacement ctx set requirement dead quantity c ≠ .error openAttemptError := by
  unfold Repo.judgeReplacement Repo.judgeMatches
  iterate 3 (split; · exact nofun)
  refine bind_ne_error (supportsAffinedDependents_ne_error s ctx set c requirement) fun supported => ?_
  split
  · exact nofun
  refine bind_ne_error (persistedParts_ne_error _) fun identity => ?_
  split
  · exact nofun
  refine bind_ne_error (activeQuantityIn_ne_error s _) fun active => ?_
  split <;> exact nofun

lemma findReplacement_ne_error
    {judge : AllocationCandidate → Except RepositoryError CandidateVerdict}
    (hjudge : ∀ c, judge c ≠ .error openAttemptError) (cs : List AllocationCandidate)
    (owned : Bool) : findReplacement judge cs owned ≠ .error openAttemptError := by
  induction cs generalizing owned with
  | nil => exact fun h => by cases h
  | cons c cs ih =>
    rw [findReplacement]
    split
    · next e he => exact fun hbad => hjudge c (by rw [he, Except.error.inj hbad])
    · exact fun h => by cases h
    · exact ih _
    · exact ih _

lemma bookReplacement_avoids (u : IdSource) (w : WorkflowId) (dead : AllocationRow)
    (c : AllocationCandidate) (identity : ResourceIdentity) (s : Repo) :
    Tx.Avoids openAttemptError (bookReplacement u w dead now c identity) s := by
  have hother : ∀ failure, RepositoryError.sql failure ≠ openAttemptError := by
    simp [openAttemptError]
  refine .bind (avoids_ensure (by simp [openAttemptError])) fun _ _ _ =>
    .bind ?_ fun _ _ _ => .bind nofun fun _ _ _ => .bind ?_ fun _ _ _ =>
      .bind (avoids_when fun _ => ?_) fun _ _ _ => avoids_pure _
  · exact .bind (avoids_query _) fun _ _ _ => .bind (avoids_ensure (hother _)) fun _ _ _ =>
      avoids_execute _
  · exact .bind (avoids_ensure (hother _)) fun _ _ _ => .bind (avoids_query _) fun _ _ _ =>
      .bind (avoids_ensure (hother _)) fun _ _ _ => .bind (avoids_query _) fun _ _ _ =>
        .bind (avoids_ensure (hother _)) fun _ _ _ => avoids_execute _
  · exact .bind (avoids_query _) fun _ _ _ => .bind (avoids_ensure (hother _)) fun _ _ _ =>
      avoids_execute _

lemma replaceDeadAllocationWithAffinity_avoids (h : AttemptsOk s.attempts s.items)
    (itemId : WorkItemId) (allocationId : AllocationId) (cs : List AllocationCandidate)
    (affinities : Affinities) : Tx.Avoids openAttemptError
      (replaceDeadAllocationWithAffinity u itemId allocationId cs now affinities) s := by
  refine .bind (requireWorkItem_avoids itemId s) fun i s₁ hfound => ?_
  obtain ⟨⟨hi, -⟩, rfl⟩ := requireWorkItem_eq_ok.mp hfound
  refine .bind (avoids_query _) fun row s₂ hrow => ?_
  obtain ⟨-, rfl⟩ := query_eq_ok.mp hrow
  refine .bind (avoids_require (by simp [openAttemptError])) fun dead s₃ hdead => ?_
  obtain ⟨-, rfl⟩ := require_eq_ok.mp hdead
  refine .bind (avoids_require (by simp [openAttemptError])) fun requirements s₄ hreqs => ?_
  obtain ⟨-, rfl⟩ := require_eq_ok.mp hreqs
  refine .bind (avoids_require (by simp [openAttemptError])) fun requirement s₅ hreq => ?_
  obtain ⟨-, rfl⟩ := require_eq_ok.mp hreq
  refine .bind (avoids_execute _) fun _ s₆ hkill => ?_
  obtain rfl := execute_eq_ok.mp hkill
  refine .bind (avoids_queryM (findReplacement_ne_error (judgeReplacement_ne_error _ _ _ _ _ _) _ _))
    fun out s₇ hout => ?_
  obtain ⟨-, rfl⟩ := queryM_eq_ok.mp hout
  obtain ⟨owned, found⟩ := out
  cases found with
  | some => exact bookReplacement_avoids u _ _ _ _ _
  | none =>
    cases owned with
    | true => exact avoids_pure _
    | false =>
      -- Marking the allocation dead left attempts and items alone.
      refine .bind (transitionWorkItemIn_avoids ?_ ?_ _) fun _ _ _ => avoids_pure _
      · rw [Repo.killAllocation_frame]
        exact h
      · rw [Repo.killAllocation_frame]
        exact hi

end OpenAttempt

/-- In every reachable state attempts and assignments are in order, and `close_open_attempt`
does not fail for want of its one open attempt. -/
theorem run_attemptBookkeeping (u : IdSource) (ops : List Op) :
    AttemptBookkeeping u (run u ops) := by
  have hs := run_inv u ops
  have herror : ∀ {α : Type} {m : Tx α} {op : Op}, transaction u op = void m →
      Lib.Tx.Avoids openAttemptError m (run u ops) → op.error? u (run u ops) ≠ some openAttemptError := by
    intro α m op hop hm hbad
    have hvoid : Lib.Tx.Avoids openAttemptError (void m) (run u ops) :=
      .bind hm fun _ _ _ => Lib.Tx.avoids_pure _
    unfold Op.error? at hbad
    rw [hop] at hbad
    split at hbad
    · cases hbad
    · next e he =>
      rw [Option.some.inj hbad] at he
      exact hvoid he
  refine ⟨fun i hi => hs.attemptsKept hi, fun op hop => ?_⟩
  cases op with
  | transitionWorkItem id revision transition =>
    exact herror rfl (transitionWorkItem_avoids hs.attempts id revision transition)
  | reconcileOrphanedWorkItems w =>
    exact herror rfl (reconcileOrphanedWorkItems_avoids hs w)
  | replaceDeadAllocationWithAffinity item allocation cs now affinities =>
    exact herror rfl (replaceDeadAllocationWithAffinity_avoids hs.attempts item allocation cs
      affinities)
  | _ => cases hop

end Replicant.Workflow
