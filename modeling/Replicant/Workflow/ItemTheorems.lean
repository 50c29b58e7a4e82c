import Replicant.Workflow.Invariant

/-!
# Changes keep the items in order

Every item has an owner that is alive while the item is, dedupe keys stay unique in a
workflow, and an item that is claimed or was ever started has its dependencies met.
-/

namespace Replicant.Workflow

open Lib Table

variable {i : WorkItem}

/-- Satisfied items stay: then met dependencies stay met. -/
lemma DependenciesMet.mono {items items' : ItemTable} {i' : WorkItem} (h : DependenciesMet items i)
    (hspec : i'.spec = i.spec) (hkeep : ∀ j ∈ items, j.spec.workflowId = i.spec.workflowId →
      j.state.status.isSatisfied = true →
      ∃ j' ∈ items', j'.spec = j.spec ∧ j'.state.status.isSatisfied = true) :
    DependenciesMet items' i' := by
  intro key hkey
  rw [hspec] at hkey ⊢
  obtain ⟨j, hj, hw, hk, hsat⟩ := h key hkey
  obtain ⟨j', hj', hs', hsat'⟩ := hkeep j hj hw hsat
  exact ⟨j', hj', by rw [hs', hw], by rw [hs', hk], hsat'⟩

namespace ItemsOk

variable {items : ItemTable} {workflows workflows' : WorkflowTable}

section

variable (h : ItemsOk items workflows)

include h

/-- The owners may be rewritten as long as none of them ends. -/
lemma workflows_mono (hkeep : ∀ w ∈ workflows, ∃ w' ∈ workflows', w'.id = w.id ∧
      (w'.status.isTerminal = true → w.status.isTerminal = true)) : ItemsOk items workflows' where
  owner := by
    intro i hi
    obtain ⟨w, hw, hid, hterm⟩ := h.owner i hi
    obtain ⟨w', hw', hid', hterm'⟩ := hkeep w hw
    exact ⟨w', hw', by rw [hid', hid], fun ht => hterm (hterm' ht)⟩
  key := h.key
  gate := h.gate

lemma insert {row : WorkItem} (hfresh : items.hasKey row.id = false)
    (hkey : ∀ i ∈ items, i.spec.workflowId = row.spec.workflowId →
      i.spec.dedupeKey ≠ row.spec.dedupeKey) (howner : Live workflows row.spec.workflowId)
    (hidle : row.state.status.isClaimed = false ∧ row.state.everStarted = false) :
    ItemsOk (items.insert row) workflows := by
  constructor
  · obtain ⟨w, hw, hid, hlive⟩ := howner
    exact forall_mem_insert hfresh h.owner ⟨w, hw, hid, fun ht => by rw [hlive] at ht; cases ht⟩
  · intro i hi j hj hw hk
    rcases (mem_insert hfresh).mp hi with him | hir <;>
      rcases (mem_insert hfresh).mp hj with hjm | hjr
    · exact h.key i him j hjm hw hk
    · rw [hjr] at hw hk
      exact absurd hk (hkey i him hw)
    · rw [hir] at hw hk
      exact absurd hk.symm (hkey j hjm hw.symm)
    · rw [hir, hjr]
  · intro i hi hrun
    rcases (mem_insert hfresh).mp hi with him | rfl
    · refine (h.gate i him hrun).mono rfl fun j hj _ hsat => ?_
      exact ⟨j, (mem_insert hfresh).mpr (.inl hj), rfl, hsat⟩
    · rw [hidle.1, hidle.2] at hrun
      simp at hrun

variable {p : WorkItem → Bool} {f : WorkItemState → WorkItemState}

/-- A rewrite of item states: terminal and satisfied items stay so, and an item that is
claimed or started afterwards passes the gate before. -/
lemma update (hterm : ∀ i ∈ items, p i = true → i.state.status.isTerminal = true →
      (f i.state).status.isTerminal = true)
    (hsat : ∀ i ∈ items, p i = true → i.state.status.isSatisfied = true →
      (f i.state).status.isSatisfied = true) (hgate : ∀ i ∈ items, p i = true →
      (f i.state).status.isClaimed = true ∨ (f i.state).everStarted = true →
      DependenciesMet items i) : ItemsOk (setStates items p f) workflows := by
  -- Satisfied items are found again under their specification.
  have hkeep : ∀ j ∈ items, j.state.status.isSatisfied = true →
      ∃ j' ∈ setStates items p f, j'.spec = j.spec ∧ j'.state.status.isSatisfied = true := by
    intro j hj hjs
    by_cases hp : p j = true
    · exact ⟨_, List.mem_map.mpr ⟨j, hj, if_pos hp⟩, rfl, hsat j hj hp hjs⟩
    · exact ⟨j, List.mem_map.mpr ⟨j, hj, if_neg hp⟩, rfl, hjs⟩
  constructor
  · intro i' hi'
    obtain ⟨i, hi, rfl⟩ := mem_update.mp hi'
    obtain ⟨w, hw, hid, ht⟩ := h.owner i hi
    split
    · next hp => exact ⟨w, hw, hid, fun hwt => hterm i hi hp (ht hwt)⟩
    · exact ⟨w, hw, hid, ht⟩
  · intro i' hi' j' hj' hw hk
    obtain ⟨i, hi, rfl⟩ := mem_update.mp hi'
    obtain ⟨j, hj, rfl⟩ := mem_update.mp hj'
    have hspec : ∀ x : WorkItem,
        (if p x = true then { x with state := f x.state } else x).spec = x.spec := by
      intro x
      split <;> rfl
    rw [hspec, hspec] at hw hk
    rw [h.key i hi j hj hw hk]
  · intro i' hi' hrun
    obtain ⟨i, hi, rfl⟩ := mem_update.mp hi'
    by_cases hp : p i = true
    · rw [if_pos hp] at hrun ⊢
      exact (hgate i hi hp hrun).mono rfl fun j hj _ hjs => hkeep j hj hjs
    · rw [if_neg hp] at hrun ⊢
      exact (h.gate i hi hrun).mono rfl fun j hj _ hjs => hkeep j hj hjs

lemma updateOne (hp : items.Selects p i)
    (hterm : i.state.status.isTerminal = true → (f i.state).status = i.state.status)
    (hgate : (f i.state).status.isClaimed = true ∨ (f i.state).everStarted = true →
      DependenciesMet items i) : ItemsOk (setStates items p f) workflows := by
  refine h.update ?_ ?_ ?_
  · intro x hx hpx ht
    rw [(hp.2 x hx).mp hpx] at ht ⊢
    rw [hterm ht]
    exact ht
  · intro x hx hpx hs
    rw [(hp.2 x hx).mp hpx] at hs ⊢
    rw [hterm (WorkItemStatus.isTerminal_of_isSatisfied hs)]
    exact hs
  · intro x hx hpx hrun
    rw [(hp.2 x hx).mp hpx] at hrun ⊢
    exact hgate hrun

lemma endWorkflow {w : WorkflowRow} {p : WorkflowRow → Bool} {f : WorkflowRow → WorkflowRow}
    {g : WorkItemState → WorkItemState} (hf : ∀ w, (f w).id = w.id) (hp : workflows.Selects p w)
    (hg : Writes g .abandoned) :
    ItemsOk (items.update (fun i => i.spec.workflowId = w.id && !i.state.status.isTerminal)
      (fun i => { i with state := g i.state }) fun _ => rfl) (workflows.update p f hf) := by
  have hitems := h.update (p := fun i => i.spec.workflowId = w.id && !i.state.status.isTerminal)
    (fun i _ _ _ => by rw [hg.status]; rfl)
    (fun i _ hpi hsat => by
      rw [WorkItemStatus.isTerminal_of_isSatisfied hsat] at hpi
      simp at hpi)
    (fun i hi _ hrun => by
      rw [hg.status, hg.everStarted] at hrun
      rcases hrun with hclaimed | hstarted
      · cases hclaimed
      · exact h.gate i hi (.inr hstarted))
  refine ⟨?_, hitems.key, hitems.gate⟩
  intro i' hi'
  obtain ⟨x, hx, hid, hterm⟩ := hitems.owner i' hi'
  by_cases hxw : x = w
  · refine ⟨f x, (mem_update_of_selects hf hp).mpr (.inr (by rw [hxw])), ?_, fun _ => ?_⟩
    · rw [hf, hid]
    -- An item of the ended workflow was terminal or has just been abandoned.
    · obtain ⟨i, hi, rfl⟩ := mem_update.mp hi'
      split
      · rw [hg.status]; rfl
      · next hneg =>
        rw [if_neg hneg] at hid
        rw [hxw] at hid
        simpa [hid] using hneg
  · exact ⟨x, (mem_update_of_selects hf hp).mpr (.inl ⟨hx, hxw⟩), hid, hterm⟩

lemma prune (w : WorkflowId) :
    ItemsOk (items.delete fun i => i.spec.workflowId = w) (workflows.delete fun x => x.id = w) := by
  have hback : ∀ i ∈ items.delete fun i => i.spec.workflowId = w,
      i ∈ items ∧ i.spec.workflowId ≠ w := by
    intro i hi
    obtain ⟨hi, hne⟩ := mem_delete.mp hi
    exact ⟨hi, by simpa using hne⟩
  constructor
  · intro i hi
    obtain ⟨him, hne⟩ := hback i hi
    obtain ⟨x, hx, hid, hterm⟩ := h.owner i him
    exact ⟨x, mem_delete.mpr ⟨hx, by simpa [hid] using hne⟩, hid, hterm⟩
  · intro i hi j hj
    exact h.key i (hback i hi).1 j (hback j hj).1
  · intro i hi hrun
    obtain ⟨him, hne⟩ := hback i hi
    refine (h.gate i him hrun).mono rfl fun j hj hw hsat => ?_
    exact ⟨j, mem_delete.mpr ⟨hj, by simpa [hw] using hne⟩, rfl, hsat⟩

end

end ItemsOk

lemma Change.itemsOk {u : IdSource} {t : Terms} {s s' : Repo} (h : Change u t s s')
    (hs : ItemsOk s.items s.workflows) : ItemsOk s'.items s'.workflows := by
  cases h with
  | insertWorkflow row hid hfresh =>
    refine hs.workflows_mono fun w hw => ?_
    exact ⟨w, (mem_insert hfresh).mpr (.inl hw), rfl, id⟩
  | updateWorkflow w p f hf hp hstat =>
    refine hs.workflows_mono fun x hx => ?_
    by_cases hxw : x = w
    · subst hxw
      refine ⟨f x, (mem_update_of_selects hf hp).mpr (.inr rfl), hf x, fun ht => ?_⟩
      rcases hstat with heq | ⟨-, hne⟩
      · rw [← heq]; exact ht
      · rw [hne] at ht; cases ht
    · exact ⟨x, (mem_update_of_selects hf hp).mpr (.inl ⟨hx, hxw⟩), rfl, id⟩
  | endWorkflow w p f hf now hp =>
    exact hs.endWorkflow hf hp ⟨fun _ => rfl, fun _ => rfl, fun _ => rfl⟩
  | pruneWorkflow w => exact hs.prune w.id
  | insertItem row now hid hfresh hkey howner hstate =>
    exact hs.insert hfresh hkey howner (by rw [hstate]; exact ⟨rfl, rfl⟩)
  | claimItem i p f hp hstat hgate =>
    refine hs.updateOne hp (fun ht => ?_) fun _ => dependenciesMet_iff.mp hgate
    rcases hstat with h | h <;> rw [h] at ht <;> cases ht
  | noteItem i p f hp hf =>
    refine hs.updateOne hp (fun _ => hf.status _) fun hrun => ?_
    rw [hf.status, hf.everStarted] at hrun
    exact hs.gate i hp.1 hrun
  | startItem i row p f hp hstat =>
    refine hs.updateOne hp (fun ht => ?_) fun _ => hs.gate i hp.1 (.inl ?_)
    · rw [hstat] at ht; cases ht
    · rw [hstat]; rfl
  | settleItem i close drop p f status now hp hlive hf hst =>
    simp only [Repo.settleItem_fields]
    refine hs.updateOne hp (fun ht => ?_) fun hrun => ?_
    · rw [hlive] at ht; cases ht
    · rw [hf.status, hf.everStarted, hst] at hrun
      rcases hrun with hclaimed | hstarted
      · cases hclaimed
      · exact hs.gate i hp.1 (.inr hstarted)
  | observePool | book | unbook | killAllocation | putTarget => simpa using hs
  | _ => exact hs

end Replicant.Workflow
