import Replicant.Workflow.Refinement

/-!
# What a run never undoes

A terminal status is final, the specification of an item never changes, the items of one workflow are
pruned together, and an identifier is never drawn again. `Stable` relates two states of one run in
that order.
-/

namespace Replicant.Workflow

open Lib Table

variable {u : IdSource} {i : WorkItem} {s : Repo} {id : Uuid}

/-- The identifier is drawn between the two counts. -/
def Fresh (u : IdSource) (m n : ℕ) (id : Uuid) : Prop := ∃ k, m ≤ k ∧ k < n ∧ u.draw k = id

lemma Fresh.mono {m n m' n' : ℕ} (h : Fresh u m n id) (hm : m' ≤ m) (hn : n ≤ n') :
    Fresh u m' n' id := by
  obtain ⟨k, hmk, hkn, hdraw⟩ := h
  exact ⟨k, hm.trans hmk, hkn.trans_le hn, hdraw⟩

/-- An identifier in use is not drawn again. -/
lemma Fresh.not_drawn {m n : ℕ} (h : Fresh u m n id) : ¬ Drawn u m id := by
  obtain ⟨k, hmk, -, hk⟩ := h
  rintro ⟨l, hlm, hl⟩
  have hkl := u.injective k l (hk.trans hl.symm)
  omega

/-- The later row continues the earlier one. -/
def WorkflowRow.Continues (w' w : WorkflowRow) : Prop :=
  w.id = w'.id ∧ (w.status.isTerminal = true → w'.status = w.status)

def WorkItem.Continues (i' i : WorkItem) : Prop :=
  i.id = i'.id ∧ i.spec = i'.spec ∧
    (i.state.status.isTerminal = true → i'.state.status = i.state.status)

structure Stable (u : IdSource) (s s' : Repo) : Prop where
  drawn : s.uuidsDrawn ≤ s'.uuidsDrawn
  workflow : ∀ w' ∈ s'.workflows, (∃ w ∈ s.workflows, w'.Continues w) ∨
    Fresh u s.uuidsDrawn s'.uuidsDrawn w'.id
  item : ∀ i' ∈ s'.items, (∃ i ∈ s.items, i'.Continues i) ∨ Fresh u s.uuidsDrawn s'.uuidsDrawn i'.id
  /-- The items of one workflow stay or go together. -/
  together : ∀ i ∈ s.items, ∀ j ∈ s.items, i.spec.workflowId = j.spec.workflowId →
    (∃ i' ∈ s'.items, i'.id = i.id) → ∃ j' ∈ s'.items, j'.id = j.id

variable {w : WorkflowRow} {t : Terms}

namespace Stable

variable {s' s'' : Repo}

/-! ## Composition -/

lemma refl (u : IdSource) (s : Repo) : Stable u s s where
  drawn := le_rfl
  workflow w hw := .inl ⟨w, hw, rfl, fun _ => rfl⟩
  item i hi := .inl ⟨i, hi, rfl, rfl, fun _ => rfl⟩
  together _ _ j hj _ _ := ⟨j, hj, rfl⟩

section

variable (h : Stable u s s')

include h

/-- An earlier item that is still there under its identifier is continued. -/
lemma continues_item (hs : Inv u s) {i' : WorkItem} (hi : i ∈ s.items) (hi' : i' ∈ s'.items)
    (hid : i'.id = i.id) : i'.Continues i := by
  rcases h.item i' hi' with ⟨x, hx, hcont⟩ | hfresh
  · rw [← eq_of_key hx hi (hcont.1.trans hid)]
    exact hcont
  · rw [hid] at hfresh
    exact absurd (hs.ids.item i hi) hfresh.not_drawn

lemma continues_workflow (hs : Inv u s) {w' : WorkflowRow} (hw : w ∈ s.workflows)
    (hw' : w' ∈ s'.workflows) (hid : w'.id = w.id) : w'.Continues w := by
  rcases h.workflow w' hw' with ⟨x, hx, hcont⟩ | hfresh
  · rw [← eq_of_key hx hw (hcont.1.trans hid)]
    exact hcont
  · rw [hid] at hfresh
    exact absurd (hs.ids.workflow w hw) hfresh.not_drawn

/-- An item that is still there later was there in between. -/
lemma item_between (h' : Stable u s' s'') (hs : Inv u s) {i'' : WorkItem} (hi : i ∈ s.items)
    (hi'' : i'' ∈ s''.items) (hid : i''.id = i.id) : ∃ i' ∈ s'.items, i'.id = i.id := by
  rcases h'.item i'' hi'' with ⟨i', hi', hcont⟩ | hfresh
  · exact ⟨i', hi', hcont.1.trans hid⟩
  · rw [hid] at hfresh
    exact absurd (hs.ids.item i hi) (hfresh.mono h.drawn le_rfl).not_drawn

lemma trans (h' : Stable u s' s'') (hs : Inv u s) : Stable u s s'' where
  drawn := h.drawn.trans h'.drawn
  workflow w'' hw'' := by
    rcases h'.workflow w'' hw'' with ⟨w', hw', hid', hterm'⟩ | hfresh
    · rcases h.workflow w' hw' with ⟨w, hw, hid, hterm⟩ | hfresh
      · refine .inl ⟨w, hw, hid.trans hid', fun ht => ?_⟩
        rw [hterm' (by rw [hterm ht]; exact ht), hterm ht]
      · exact .inr (hid' ▸ hfresh.mono le_rfl h'.drawn)
    · exact .inr (hfresh.mono h.drawn le_rfl)
  item i'' hi'' := by
    rcases h'.item i'' hi'' with ⟨i', hi', hid', hspec', hterm'⟩ | hfresh
    · rcases h.item i' hi' with ⟨i, hi, hid, hspec, hterm⟩ | hfresh
      · refine .inl ⟨i, hi, hid.trans hid', hspec.trans hspec', fun ht => ?_⟩
        rw [hterm' (by rw [hterm ht]; exact ht), hterm ht]
      · exact .inr (hid' ▸ hfresh.mono le_rfl h'.drawn)
    · exact .inr (hfresh.mono h.drawn le_rfl)
  together i hi j hj hw := by
    rintro ⟨i'', hi'', hid''⟩
    obtain ⟨i', hi', hid'⟩ := item_between h h' hs hi hi'' hid''
    obtain ⟨j', hj', hjd'⟩ := h.together i hi j hj hw ⟨i', hi', hid'⟩
    have hspec : i'.spec.workflowId = j'.spec.workflowId := by
      rw [← (h.continues_item hs hi hi' hid').2.1, ← (h.continues_item hs hj hj' hjd').2.1, hw]
    obtain ⟨j'', hj'', hjd''⟩ := h'.together i' hi' j' hj' hspec ⟨i'', hi'', hid''.trans hid'.symm⟩
    exact ⟨j'', hj'', hjd''.trans hjd'⟩

end

/-! ## Single statements -/

lemma of_eq (hd : s.uuidsDrawn ≤ s'.uuidsDrawn) (hw : s'.workflows = s.workflows)
    (hi : s'.items = s.items) : Stable u s s' where
  drawn := hd
  workflow w hmem := .inl ⟨w, hw ▸ hmem, rfl, fun _ => rfl⟩
  item i hmem := .inl ⟨i, hi ▸ hmem, rfl, rfl, fun _ => rfl⟩
  together _ _ j hj _ _ := ⟨j, hi ▸ hj, rfl⟩

variable {p : WorkItem → Bool} {f : WorkItemState → WorkItemState}

/-- Rows of workflows and of items are rewritten, terminal statuses staying as they are. -/
lemma of_rewrites (hd : s.uuidsDrawn ≤ s'.uuidsDrawn)
    (hw : ∀ w' ∈ s'.workflows, ∃ w ∈ s.workflows, w'.Continues w)
    (hi : s'.items = setStates s.items p f)
    (hterm : ∀ i ∈ s.items, p i = true → i.state.status.isTerminal = true →
      (f i.state).status = i.state.status) : Stable u s s' where
  drawn := hd
  workflow w' hmem := .inl (hw w' hmem)
  item i' hmem := by
    rw [hi] at hmem
    obtain ⟨i, himem, rfl⟩ := mem_update.mp hmem
    refine .inl ⟨i, himem, ?_⟩
    split
    · next hp => exact ⟨rfl, rfl, hterm i himem hp⟩
    · exact ⟨rfl, rfl, fun _ => rfl⟩
  together i himem j hjmem _ _ := by
    rw [hi]
    refine ⟨_, mem_update.mpr ⟨j, hjmem, rfl⟩, ?_⟩
    split <;> rfl

lemma of_rewrite (hd : s'.uuidsDrawn = s.uuidsDrawn) (hw : s'.workflows = s.workflows)
    (hi : s'.items = setStates s.items p f) (hp : s.items.Selects p i)
    (hterm : i.state.status.isTerminal = true → (f i.state).status = i.state.status) :
    Stable u s s' := by
  refine of_rewrites hd.ge (fun w hmem => ⟨w, hw ▸ hmem, rfl, fun _ => rfl⟩) hi fun x hx hpx => ?_
  rw [(hp.2 x hx).mp hpx]
  exact hterm

end Stable

/-- Rewritten workflow rows continue the old ones when terminal rows keep their status. -/
lemma continues_of_mem_updateWorkflows {p : WorkflowRow → Bool}
    {f : WorkflowRow → WorkflowRow} (hf : ∀ w, (f w).id = w.id) (hp : s.workflows.Selects p w)
    (hkeep : w.status.isTerminal = true → (f w).status = w.status) :
    ∀ w' ∈ (s.updateWorkflows p f hf).workflows, ∃ w ∈ s.workflows, w'.Continues w := by
  intro w' hw'
  rcases (mem_update_of_selects hf hp).mp hw' with ⟨hmem, -⟩ | rfl
  · exact ⟨w', hmem, rfl, fun _ => rfl⟩
  · exact ⟨w, hp.1, (hf w).symm, hkeep⟩

lemma Change.stable {s' : Repo} (h : Change u t s s') : Stable u s s' := by
  cases h with
  | draw => exact .of_eq (Nat.le_succ _) rfl rfl
  | insertWorkflow row hid hfresh =>
    exact ⟨Nat.le_succ _, forall_mem_insert hfresh (fun w hw => .inl ⟨w, hw, rfl, fun _ => rfl⟩)
      (.inr ⟨s.uuidsDrawn, le_rfl, Nat.lt_succ_self _, hid.symm⟩),
      fun i hi => .inl ⟨i, hi, rfl, rfl, fun _ => rfl⟩, fun _ _ j hj _ _ => ⟨j, hj, rfl⟩⟩
  | updateWorkflow w p f hf hp hstat =>
    have hrows := continues_of_mem_updateWorkflows hf hp fun hterm => by
      rcases hstat with hsame | ⟨hlive, -⟩
      · exact hsame
      · rw [hterm] at hlive
        cases hlive
    exact ⟨le_rfl, fun w' hw' => .inl (hrows w' hw'),
      fun i hi => .inl ⟨i, hi, rfl, rfl, fun _ => rfl⟩, fun _ _ j hj _ _ => ⟨j, hj, rfl⟩⟩
  | endWorkflow w p f hf now hp hstat hkeep =>
    refine .of_rewrites le_rfl (continues_of_mem_updateWorkflows hf hp hkeep) rfl ?_
    intro i hi hpi hterm
    rw [hterm, Bool.not_true, Bool.and_false] at hpi
    cases hpi
  | pruneWorkflow =>
    refine ⟨le_rfl, fun x hx => .inl ⟨x, (mem_delete.mp hx).1, rfl, fun _ => rfl⟩,
      fun i hi => .inl ⟨i, (mem_delete.mp hi).1, rfl, rfl, fun _ => rfl⟩, ?_⟩
    rintro i hi j hj hij ⟨i', hi', hid⟩
    obtain ⟨hmem, hkept⟩ := mem_delete.mp hi'
    rw [eq_of_key hmem hi hid, hij] at hkept
    exact ⟨j, mem_delete.mpr ⟨hj, hkept⟩, rfl⟩
  | insertItem row now hid hfresh =>
    exact ⟨Nat.le_succ _, fun w hw => .inl ⟨w, hw, rfl, fun _ => rfl⟩,
      forall_mem_insert hfresh (fun i hi => .inl ⟨i, hi, rfl, rfl, fun _ => rfl⟩)
        (.inr ⟨s.uuidsDrawn, le_rfl, Nat.lt_succ_self _, hid.symm⟩),
      fun _ _ j hj _ _ => ⟨j, (mem_insert hfresh).mpr (.inl hj), rfl⟩⟩
  | claimItem i p f hp hstat =>
    refine .of_rewrite rfl rfl rfl hp fun hterm => ?_
    rcases hstat with hstat | hstat <;> rw [hstat] at hterm <;> cases hterm
  | noteItem i p f hp hf => exact .of_rewrite rfl rfl rfl hp fun _ => hf.status _
  | startItem i row p f hp hstat =>
    refine .of_rewrite rfl rfl rfl hp fun hterm => ?_
    rw [hstat] at hterm
    cases hterm
  | settleItem i close drop p f status now hp hlive =>
    obtain ⟨hworkflows, hitems, -, -, -, -, hdrawn⟩ := Repo.settleItem_fields s i close drop p f now
    refine .of_rewrite hdrawn hworkflows hitems hp fun hterm => ?_
    rw [hlive] at hterm
    cases hterm
  | observePool | book | unbook | killAllocation | putTarget =>
    exact .of_eq (by simp) (by simp) (by simp)
  | _ => exact .of_eq le_rfl rfl rfl

/-! ## Runs -/

lemma Changes.stable {s' : Repo} (h : Changes u t s s') (hs : Inv u s) : Stable u s s' := by
  induction h with
  | refl => exact .refl u s
  | tail _ hstep ih => exact ih.trans hstep.stable hs

lemma step_stable (hs : Inv u s) (op : Op) : Stable u s (step u s op) :=
  Changes.stable (step_refines hs (Terms.free_admits s op)) hs

/-- A later state of a run is stable against an earlier one. -/
lemma run_stable (u : IdSource) (ops ops' : List Op) :
    Stable u (run u ops) (run u (ops ++ ops')) := by
  rw [run_append]
  exact foldl_rel (Stable.refl u) (fun _ _ _ hs h h' => h.trans h' hs)
    (fun s op hs => step_inv u hs op) (fun s op hs => step_stable hs op) (run_inv u ops) ops'

end Replicant.Workflow
