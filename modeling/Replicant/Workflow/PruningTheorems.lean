import Mathlib.Data.Set.Finite.Basic
import Replicant.Workflow.CustodyRuns

/-!
# Pruning

A round of `prune_terminal_before` looks at leaves only. Over all rounds it removes the finished
subtrees: the workflows that have ended before the cutoff and own no claim, like everything below
them.
-/

namespace Replicant.Workflow

open Lib Tx Table Relation

variable {s x : Repo} {cutoff : ℤ} {w d : WorkflowRow}

/-- `d` is a child of `w`. -/
def Repo.ChildOf (s : Repo) (w d : WorkflowRow) : Prop :=
  d ∈ s.workflows ∧ d.parentId = some w.id

/-- No workflow is below itself. -/
def Repo.Forest (s : Repo) : Prop := ∀ w ∈ s.workflows, ¬ TransGen s.ChildOf w w

/-- The workflow and everything below it has ended. -/
def Repo.Finished (s : Repo) (cutoff : ℤ) (w : WorkflowRow) : Prop :=
  ∀ d, ReflTransGen s.ChildOf w d → s.Ended cutoff d

lemma Repo.Finished.child (h : s.Finished cutoff w) (hd : s.ChildOf w d) : s.Finished cutoff d :=
  fun e he => h e (.head hd he)

/-- `x` is `s` without some finished workflows, with everything that belongs to the others. -/
structure Pruned (s : Repo) (cutoff : ℤ) (x : Repo) : Prop where
  subset : ∀ w ∈ x.workflows, w ∈ s.workflows
  finished : ∀ w ∈ s.workflows, w ∉ x.workflows → s.Finished cutoff w
  items : ∀ w ∈ x.workflows, ∀ i : WorkItem, i.spec.workflowId = w.id → (i ∈ x.items ↔ i ∈ s.items)
  targets : ∀ w ∈ x.workflows, ∀ t : TargetRow, t.workflowId = w.id →
    (t ∈ x.targets ↔ t ∈ s.targets)
  activity : ∀ w ∈ x.workflows, ∀ a : ActivityRow, a.workflowId = w.id →
    (a ∈ x.activity ↔ a ∈ s.activity)
  claims : x.claims = s.claims

namespace Pruned

lemma refl (s : Repo) (cutoff : ℤ) : Pruned s cutoff s where
  subset := fun _ hw => hw
  finished := fun _ hw hgone => absurd hw hgone
  items := fun _ _ _ _ => Iff.rfl
  targets := fun _ _ _ _ => Iff.rfl
  activity := fun _ _ _ _ => Iff.rfl
  claims := rfl

section

variable (h : Pruned s cutoff x)

include h

lemma delete {id : WorkflowId} (hid : ∀ w ∈ s.workflows, w.id = id → s.Finished cutoff w) :
    Pruned s cutoff (x.deleteWorkflow id) := by
  have hmem : ∀ w, w ∈ (x.deleteWorkflow id).workflows ↔ w ∈ x.workflows ∧ w.id ≠ id := by
    intro w
    rw [Repo.deleteWorkflow, mem_delete, decide_eq_false_iff_not]
  constructor
  · exact fun w hw => h.subset w ((hmem w).mp hw).1
  · intro w hw hgone
    by_cases hx : w ∈ x.workflows
    · exact hid w hw (not_not.mp fun hne => hgone ((hmem w).mpr ⟨hx, hne⟩))
    · exact h.finished w hw hx
  · intro w hw i hi
    rw [← h.items w ((hmem w).mp hw).1 i hi]
    simp [Repo.deleteWorkflow, hi, ((hmem w).mp hw).2]
  · intro w hw t ht
    rw [← h.targets w ((hmem w).mp hw).1 t ht]
    simp [Repo.deleteWorkflow, ht, ((hmem w).mp hw).2]
  · intro w hw a ha
    rw [← h.activity w ((hmem w).mp hw).1 a ha]
    simp [Repo.deleteWorkflow, ha, ((hmem w).mp hw).2]
  · exact h.claims

/-- All children of a row that a round picks are gone, and were finished. -/
lemma finished_of_prunable (hw : w ∈ s.workflows) (hid : w.id ∈ x.prunable cutoff) :
    s.Finished cutoff w := by
  obtain ⟨v, hv, hvid, hended, hleaf⟩ := mem_prunable.mp hid
  obtain rfl : v = w := eq_of_key (h.subset v hv) hw hvid
  intro d hd
  rcases hd.cases_head with rfl | ⟨c, ⟨hc, hpar⟩, hbelow⟩
  · rw [Repo.Ended, ← h.claims]
    exact hended
  · exact h.finished c hc (fun hx => hleaf c hx hpar) d hbelow

lemma round : Pruned s cutoff ((x.prunable cutoff).foldl (fun y id => y.deleteWorkflow id) x) :=
  List.foldlRecOn _ _ h fun _ hy _ hid => hy.delete fun _ hw hsame =>
    h.finished_of_prunable hw (hsame ▸ hid)

end

/-- Where nothing can be pruned, no finished row is left: the lowest rows below it could be. -/
lemma not_finished (hforest : s.Forest) (h : Pruned s cutoff x) (hnone : x.prunable cutoff = []) :
    ∀ w ∈ x.workflows, ¬ s.Finished cutoff w := by
  have hwell : WellFounded fun a b : {w // w ∈ s.workflows.rows} =>
      TransGen s.ChildOf b.1 a.1 := by
    have : Finite {w // w ∈ s.workflows.rows} := s.workflows.rows.finite_toSet.to_subtype
    have : Std.Irrefl fun a b : {w // w ∈ s.workflows.rows} => TransGen s.ChildOf b.1 a.1 :=
      ⟨fun a => hforest a.1 a.2⟩
    exact Finite.wellFounded_of_trans_of_irrefl _
  suffices hall : ∀ a : {w // w ∈ s.workflows.rows}, a.1 ∈ x.workflows → ¬ s.Finished cutoff a.1 from
    fun w hw => hall ⟨w, h.subset w hw⟩ hw
  intro a
  induction a using hwell.induction with
  | _ a ih =>
    intro ha hfin
    by_cases hleaf : ∀ d ∈ x.workflows, d.parentId ≠ some a.1.id
    · have hended : x.Ended cutoff a.1 := by
        rw [Repo.Ended, h.claims]
        exact hfin a.1 .refl
      have hmem := mem_prunable.mpr ⟨a.1, ha, rfl, hended, hleaf⟩
      rw [hnone] at hmem
      cases hmem
    · push Not at hleaf
      obtain ⟨d, hd, hpar⟩ := hleaf
      have hchild : s.ChildOf a.1 d := ⟨h.subset d hd, hpar⟩
      exact ih ⟨d, h.subset d hd⟩ (.single hchild) hd (hfin.child hchild)

end Pruned

/-- A round that finds a row shortens the relation. -/
lemma length_deleteWorkflows_lt (h : s.prunable cutoff ≠ []) :
    ((s.prunable cutoff).foldl (fun x id => x.deleteWorkflow id) s).workflows.rows.length <
      s.workflows.rows.length := by
  obtain ⟨id, ids, hids⟩ := List.exists_cons_of_ne_nil h
  obtain ⟨w, hw, hid, -⟩ := mem_prunable.mp (hids ▸ List.mem_cons_self : id ∈ s.prunable cutoff)
  rw [hids, List.foldl_cons]
  have hfirst : (s.deleteWorkflow id).workflows.rows.length < s.workflows.rows.length :=
    List.length_filter_lt_length_iff_exists.mpr ⟨w, hw, by simp [hid]⟩
  exact List.foldlRecOn (motive := fun x : Repo => x.workflows.rows.length < s.workflows.rows.length) ids _
    hfirst fun x hx _ _ => (List.length_filter_le _ _).trans_lt hx

/-- The rounds remove finished rows only. With as many rounds as rows they end with nothing left to
prune. -/
lemma pruneRounds_spec (fuel : ℕ) : ∀ (removed : ℕ) {x : Repo}, Pruned s cutoff x →
    ∃ n s', pruneRounds cutoff fuel removed x = .ok (n, s') ∧ Pruned s cutoff s' ∧
      (x.workflows.rows.length < fuel → s'.prunable cutoff = []) := by
  induction fuel with
  | zero => exact fun removed x h => ⟨removed, x, rfl, h, fun hlt => absurd hlt (Nat.not_lt_zero _)⟩
  | succ fuel ih =>
    intro removed x h
    rw [pruneRounds, bind_query]
    split
    · next hnone => exact ⟨removed, x, rfl, h, fun _ => hnone⟩
    · next hsome =>
      obtain ⟨n, s', hrest, hpruned, hend⟩ := ih (removed + (x.prunable cutoff).length) h.round
      refine ⟨n, s', ?_, hpruned, fun hlt => hend ?_⟩
      · rw [bind_eq_ok]
        exact ⟨(), _, forM_execute _ _ _, hrest⟩
      · have hshorter := length_deleteWorkflows_lt hsome
        omega

/-- Pruning a forest removes exactly the finished workflows, keeps what belongs to the others, and
leaves nothing for a second call. -/
theorem pruneTerminalBefore_exact (s : Repo) (cutoff : ℤ) (hforest : s.Forest) :
    ∃ n s', pruneTerminalBefore cutoff s = .ok (n, s') ∧ Pruned s cutoff s' ∧
      (∀ w, w ∈ s'.workflows ↔ w ∈ s.workflows ∧ ¬ s.Finished cutoff w) ∧
      (∀ w ∈ s'.workflows, ∀ p ∈ s.workflows, w.parentId = some p.id → p ∈ s'.workflows) ∧
      pruneTerminalBefore cutoff s' = .ok (0, s') := by
  obtain ⟨n, s', hrun, hpruned, hend⟩ := pruneRounds_spec (s.workflows.rows.length + 1) 0
    (.refl s cutoff)
  have hnone := hend (Nat.lt_succ_self _)
  have hkept := hpruned.not_finished hforest hnone
  refine ⟨n, s', hrun, hpruned, fun w => ⟨fun hw => ⟨hpruned.subset w hw, hkept w hw⟩, ?_⟩, ?_, ?_⟩
  · rintro ⟨hw, hopen⟩
    exact not_not.mp fun hgone => hopen (hpruned.finished w hw hgone)
  · intro w hw p hp hpar
    refine not_not.mp fun hgone => hkept w hw ?_
    exact (hpruned.finished p hp hgone).child ⟨hpruned.subset w hw, hpar⟩
  · rw [pruneTerminalBefore, bind_query, pruneRounds, bind_query, if_pos hnone]
    rfl

/-- A workflow with a child that has ended. -/
def Scenario.family : Repo := run .counting [.createWithParentClaims workflow [] 1,
   .createWithParentClaims { workflow with parentId := some 0 } [] 2,
   .updateWithWait 1 0 ⟨.cancelled, none, "null", none, none⟩ none 3]

theorem pruneTerminalBefore_exact_family :
    ∃ n s', pruneTerminalBefore 9 Scenario.family = .ok (n, s') ∧
      pruneTerminalBefore 9 s' = .ok (0, s') := by
  have hbelow : ∀ w d, Scenario.family.ChildOf w d → w.id < d.id := by
    have hparents : ∀ d ∈ Scenario.family.workflows, ∀ p ∈ d.parentId, p < d.id := by decide
    exact fun w d ⟨hd, hpar⟩ => hparents d hd w.id hpar
  have hforest : Scenario.family.Forest := by
    intro w _ hcycle
    have hless := hcycle.lift WorkflowRow.id hbelow
    rw [transGen_eq_self] at hless
    exact Nat.lt_irrefl _ hless
  obtain ⟨n, s', hrun, -, -, -, hagain⟩ := pruneTerminalBefore_exact Scenario.family 9 hforest
  exact ⟨n, s', hrun, hagain⟩

end Replicant.Workflow
