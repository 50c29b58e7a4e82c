import Replicant.Workflow.AttemptTheorems
import Replicant.Workflow.ClaimTheorems
import Replicant.Workflow.ItemTheorems

/-!
# Changes keep the allocations in order, and all invariants together

An active allocation has an item that is not terminal, and a pool. With the targets and the
identifiers this completes the invariants that every change keeps.
-/

namespace Replicant.Workflow

open Lib Table Repo

variable {u : IdSource}

variable {p : WorkItem → Bool} {f : WorkItemState → WorkItemState} {q : AllocationRow → Bool}
  {s s' : Repo} {t : Terms} {workflows : WorkflowTable}

/-! ## Allocations -/

namespace AllocationsOk

variable {allocations : AllocationTable} {items : ItemTable} {pools : PoolTable}

section

variable (h : AllocationsOk allocations items pools) {state : AllocationState} {now : ℤ}

include h

lemma leans : LeansOnItems AllocationRow.itemId
    (·.state = .active) (·.isTerminal = false) allocations items := h.item

/-- Allocations leave the active state and nothing else happens. -/
lemma release (hstate : state ≠ .active) : AllocationsOk
      (allocations.update q (fun a => { a with state := state, updatedAtMs := now }) fun _ => rfl)
      items pools := by
  constructor
  · apply h.leans.close
    · exact fun _ => ⟨rfl, hstate⟩
  · intro a' ha'
    obtain ⟨a, ha, rfl⟩ := mem_update.mp ha'
    split <;> exact h.pool a ha

/-- Item states are rewritten while their allocations leave the active state. -/
lemma settle (hstate : state ≠ .active) (hclose : ∀ a ∈ allocations, a.state = .active →
      ∀ i ∈ items, i.id = a.itemId → p i = true → q a = true) : AllocationsOk
      (allocations.update q (fun a => { a with state := state, updatedAtMs := now }) fun _ => rfl)
      (setStates items p f) pools :=
  ⟨h.leans.settle _ (fun _ => ⟨rfl, hstate⟩) hclose, (h.release hstate).pool⟩

lemma insert {i : WorkItem} {a : AllocationRow} (hfresh : allocations.hasKey a.id = false)
    (hi : i ∈ items) (hitem : a.itemId = i.id) (hlive : i.state.status.isTerminal = false)
    (hqty : 0 < a.quantity) (hkey : a.poolKey = a.resource.resource.json)
    (hpool : pools.hasKey a.poolKey = true) : AllocationsOk (allocations.insert a) items pools := by
  exact ⟨forall_mem_insert hfresh h.item ⟨i, hi, hitem.symm, fun _ => hlive⟩,
    forall_mem_insert hfresh h.pool ⟨hqty, hkey, hpool⟩⟩

end

end AllocationsOk

/-- Observations never remove a pool. -/
lemma hasKey_upsertPool {seen : PoolRow} {merge : PoolRow → PoolRow}
    {hmerge : ∀ p, (merge p).poolKey = p.poolKey} {k : String} (h : s.pools.hasKey k = true) :
    (s.upsertPool seen merge hmerge).pools.hasKey k = true := by
  unfold upsertPool
  split
  · exact hasKey_insert h
  · split
    · rw [updatePool, hasKey_update]
      exact h
    · exact h

lemma Change.allocationsOk (h : Change u t s s')
    (hs : AllocationsOk s.allocations s.items s.pools) :
    AllocationsOk s'.allocations s'.items s'.pools := by
  cases h with
  | endWorkflow w p f hf now hp hstat hkeep =>
    apply hs.settle
    · simp
    intro a _ hact i hi hid hpi
    have howns := ownsItem_eq (s := s.updateWorkflows p f hf) w.id hi hid
    rw [Bool.and_eq_true] at hpi
    rw [howns, hpi.1]
    simpa using hact
  | pruneWorkflow w =>
    exact ⟨hs.leans.prune fun a _ i hi hid => ownsItem_eq w.id hi hid,
      fun a ha => hs.pool a (mem_delete.mp ha).1⟩
  | insertItem row now hid hfresh =>
    exact ⟨hs.leans.items_mono fun i hi => (mem_insert hfresh).mpr (.inl hi), hs.pool⟩
  | claimItem i p f hp hstat hgate hf =>
    exact ⟨hs.leans.rewriteOne hp fun _ => by rw [hf.status]; rfl, hs.pool⟩
  | noteItem i p f hp hf =>
    exact ⟨hs.leans.rewriteOne hp fun hlive => by rwa [hf.status], hs.pool⟩
  | startItem i row p f hp hstat hrow hfresh hf =>
    exact ⟨hs.leans.rewriteOne hp fun _ => by rw [hf.1]; rfl, hs.pool⟩
  | settleItem i close drop p f status now hp hlive hf hst hclose hdrop =>
    simp only [settleItem_allocations, settleItem_fields]
    cases drop with
    | true =>
      apply hs.settle
      · simp
      intro a _ hact x hx hid hpx
      rw [(hp.2 x hx).mp hpx] at hid
      simpa [← hid] using hact
    | false =>
      refine ⟨hs.leans.rewriteOne hp fun _ => ?_, hs.pool⟩
      rw [hf.status]
      exact Bool.eq_false_iff.mpr fun ht => by cases hdrop ht
  | observePool c identity quantity merge hmerge hkey =>
    have hpools : ∀ k, s.pools.hasKey k = true →
        (s.upsertPool (c.poolRow identity quantity) merge hkey).pools.hasKey k = true :=
      fun k => hasKey_upsertPool
    rw [upsertPool_frame] at hpools ⊢
    refine ⟨hs.item, fun a ha => ?_⟩
    obtain ⟨hq, hk, hp⟩ := hs.pool a ha
    exact ⟨hq, hk, hpools _ hp⟩
  | book i a now hi hitem hid hfresh hact hlive howner hkey hpool hqty =>
    rw [Repo.book, claimFor_frame]
    exact hs.insert hfresh hi hitem hlive hqty hkey hpool
  | unbook i a now =>
    rw [unbook_frame]
    exact hs.release (by simp)
  | killAllocation i a now =>
    rw [killAllocation_frame]
    exact hs.release (by simp)
  | putTarget => simpa using hs
  | _ => exact hs

/-! ## Targets -/

namespace TargetsOk

variable {targets : TargetTable}

lemma updateWorkflows {p : WorkflowRow → Bool} {f : WorkflowRow → WorkflowRow}
    (h : TargetsOk targets workflows) (hf : ∀ w, (f w).id = w.id) :
    TargetsOk targets (workflows.update p f hf) := by
  intro t ht
  rw [hasKey_update]
  exact h t ht

lemma update {p : TargetRow → Bool} {f : TargetRow → TargetRow} (h : TargetsOk targets workflows)
    (hf : ∀ t, (f t).identity = t.identity) : TargetsOk (targets.update p f hf) workflows := by
  intro t' ht'
  obtain ⟨t, ht, rfl⟩ := mem_update.mp ht'
  have hsame : (if p t = true then f t else t).workflowId = t.workflowId := by
    split
    · exact congrArg Prod.fst (hf t)
    · rfl
  rw [hsame]
  exact h t ht

end TargetsOk

lemma Change.targetsOk (h : Change u t s s')
    (hs : TargetsOk s.targets s.workflows) : TargetsOk s'.targets s'.workflows := by
  cases h with
  | insertWorkflow =>
    exact fun x hx => hasKey_insert (hs x hx)
  | updateWorkflow w p f hf | endWorkflow w p f hf => exact hs.updateWorkflows hf
  | pruneWorkflow =>
    intro x hx
    obtain ⟨hxm, hne⟩ := mem_delete.mp hx
    obtain ⟨y, hy, hid⟩ := hasKey_eq_true.mp (hs x hxm)
    exact hasKey_eq_true.mpr ⟨y, mem_delete.mpr ⟨hy, by rw [hid]; exact hne⟩, hid⟩
  | settleItem =>
    simp only [settleItem_fields]
    exact hs
  | observePool | book | unbook | killAllocation => simpa using hs
  | putTarget workflowId target now howner =>
    unfold upsertTarget
    simp only
    split
    · next hnone =>
      exact forall_mem_insert (hasKey_eq_false.mpr (find?_eq_none.mp hnone)) hs howner
    · split
      · refine hs.update ?_
        exact fun _ => rfl
      · exact hs
  | releaseTarget =>
    refine hs.update ?_
    exact fun _ => rfl
  | _ => exact hs

/-! ## Identifiers -/

lemma Drawn.mono {m n : ℕ} {id : Uuid} (h : Drawn u m id) (hle : m ≤ n) : Drawn u n id := by
  obtain ⟨k, hk, heq⟩ := h
  exact ⟨k, by omega, heq⟩

lemma Drawn.last {n : ℕ} : Drawn u (n + 1) (u.draw n) :=
  ⟨n, by omega, rfl⟩

namespace IdsOk

variable {n : ℕ} {workflows' : WorkflowTable} {items items' : ItemTable}

lemma mono {m : ℕ} (h : IdsOk u n workflows items) (hle : n ≤ m) : IdsOk u m workflows items :=
  ⟨fun w hw => (h.workflow w hw).mono hle, fun i hi => (h.item i hi).mono hle⟩

/-- Rewriting and deleting rows brings in no identifier. -/
lemma rewrite (h : IdsOk u n workflows items)
    (hwfs : ∀ w' ∈ workflows', ∃ w ∈ workflows, w'.id = w.id)
    (hitems : ∀ i' ∈ items', ∃ i ∈ items, i'.id = i.id) : IdsOk u n workflows' items' := by
  constructor
  · intro w' hw'
    obtain ⟨w, hw, hid⟩ := hwfs w' hw'
    rw [hid]
    exact h.workflow w hw
  · intro i' hi'
    obtain ⟨i, hi, hid⟩ := hitems i' hi'
    rw [hid]
    exact h.item i hi

end IdsOk

/-- A rewritten item row keeps its identifier and its specification. -/
lemma spec_of_mem_updateItems {x : WorkItem} (hx : x ∈ (s.updateItems p f).items) :
    ∃ i ∈ s.items, x.id = i.id ∧ x.spec = i.spec := by
  obtain ⟨i, hi, rfl⟩ := List.mem_map.mp hx
  refine ⟨i, hi, ?_⟩
  split <;> exact ⟨rfl, rfl⟩

lemma id_of_mem_updateItems {x : WorkItem} (hx : x ∈ (s.updateItems p f).items) :
    ∃ i ∈ s.items, x.id = i.id := by
  obtain ⟨i, hi, hid, -⟩ := spec_of_mem_updateItems hx
  exact ⟨i, hi, hid⟩

lemma id_of_mem_updateWorkflows {p : WorkflowRow → Bool}
    {f : WorkflowRow → WorkflowRow} (hf : ∀ w, (f w).id = w.id) {x : WorkflowRow}
    (hx : x ∈ (s.updateWorkflows p f hf).workflows) : ∃ w ∈ s.workflows, x.id = w.id := by
  obtain ⟨w, hw, rfl⟩ := List.mem_map.mp hx
  refine ⟨w, hw, ?_⟩
  split
  · exact hf w
  · rfl

lemma Change.idsOk (h : Change u t s s') (hs : IdsOk u s.uuidsDrawn s.workflows s.items) :
    IdsOk u s'.uuidsDrawn s'.workflows s'.items := by
  cases h with
  | draw => exact hs.mono (Nat.le_succ _)
  | insertWorkflow row hid hfresh =>
    have hnext := hs.mono (Nat.le_succ _)
    exact ⟨forall_mem_insert hfresh hnext.workflow (hid ▸ Drawn.last), hnext.item⟩
  | updateWorkflow w p f hf =>
    exact hs.rewrite (fun x hx => id_of_mem_updateWorkflows hf hx) fun i hi => ⟨i, hi, rfl⟩
  | endWorkflow w p f hf =>
    exact hs.rewrite (fun x hx => id_of_mem_updateWorkflows hf hx)
      fun i hi => id_of_mem_updateItems hi
  | pruneWorkflow =>
    exact hs.rewrite (fun x hx => ⟨x, (mem_delete.mp hx).1, rfl⟩)
      fun i hi => ⟨i, (mem_delete.mp hi).1, rfl⟩
  | insertItem row now hid hfresh =>
    have hnext := hs.mono (Nat.le_succ _)
    exact ⟨hnext.workflow, forall_mem_insert hfresh hnext.item (hid ▸ Drawn.last)⟩
  | claimItem | noteItem | startItem =>
    exact hs.rewrite (fun x hx => ⟨x, hx, rfl⟩) fun i hi => id_of_mem_updateItems hi
  | settleItem i close drop p f =>
    simp only [settleItem_fields]
    exact hs.rewrite (fun x hx => ⟨x, hx, rfl⟩) fun i hi => id_of_mem_updateItems hi
  | book => simpa using hs.mono (Nat.le_succ _)
  | observePool | unbook | killAllocation | putTarget => simpa using hs
  | _ => exact hs

/-! ## All invariants -/

lemma Change.inv (h : Change u t s s') (hs : Inv u s) : Inv u s' where
  claims := h.claimsOk hs.claims
  items := h.itemsOk hs.items
  attempts := h.attemptsOk hs.attempts
  assignments := h.assignmentsOk hs.assignments
  allocations := h.allocationsOk hs.allocations
  targets := h.targetsOk hs.targets
  ids := h.idsOk hs.ids

lemma Changes.inv (h : Changes u t s s') (hs : Inv u s) : Inv u s' := by
  induction h with
  | refl => exact hs
  | tail _ hstep ih => exact hstep.inv ih

end Replicant.Workflow
