import Replicant.Workflow.Refinement.WorkItems

/-!
# Allocation operations are changes

An allocation call releases what an item may not keep, observes the pools and books the candidates it
admits; a replacement marks one allocation dead and books another. A candidate is admitted only under
the guards of `Change.book`.
-/

namespace Replicant.Workflow

open Lib List Table Tx Repo

variable {s s' : Repo} {set : AllocationSet} {u : IdSource} {t : Terms} {i : WorkItem} {now : ℤ}
  {itemId : WorkItemId}

variable {w : WorkflowId} {identity : ResourceIdentity} {ctx : AllocationContext}
  {requirement : ResourceRequirement} {c : AllocationCandidate} {dead : AllocationRow}
  {allocation : ResourceAllocation} {set' : AllocationSet} {revision : ℕ}
  {cs : List AllocationCandidate} {affinities : Affinities} {outcome : ReplacementOutcome}

/-! ## What an admitted candidate has passed -/

/-- The persisted identity can be read back from the resource. -/
lemma ResourceIdentity.resource_injective {a b : ResourceIdentity}
    (h : a.resource = b.resource) : a = b := by
  obtain ⟨na, ka⟩ := a
  obtain ⟨nb, kb⟩ := b
  cases na <;> cases nb <;> simp_all [ResourceIdentity.resource]

lemma judgeCustody_admitted {wanted : ResourceIdentity}
    (h : s.judgeCustody w wanted = .admitted identity) : identity = wanted ∧
      (wanted.ns.isExclusive = true → s.physicalClaimConflict wanted w = none) := by
  unfold judgeCustody at h
  split at h
  · cases h
  · split at h
    · cases h
    · next hconf =>
      cases h
      refine ⟨rfl, fun hex => ?_⟩
      simpa [hex] using hconf

lemma activeQuantityIn_eq_ok {k : String} {n : ℕ}
    (h : s.activeQuantityIn k = .ok n) : n = s.activeQuantity k := by
  unfold activeQuantityIn at h
  split at h
  · exact (Except.ok.inj h).symm
  · cases h

/-- An admitted candidate fits into the stored pool and is claimed by no other workflow. -/
lemma judgeCandidate_admitted
    (h : s.judgeCandidate ctx set requirement c = .ok (.admitted identity)) :
    c.resource.persistedParts = .ok identity ∧ (∃ pool ∈ s.pools, pool.poolKey = c.resource.json ∧
        s.activeQuantity c.resource.json + requirement.quantity ≤ pool.availableQuantity) ∧
      (identity.ns.isExclusive = true → s.physicalClaimConflict identity ctx.workflowId = none) := by
  unfold judgeCandidate judgeMatches at h
  simp only [bind, Except.bind, pure, Except.pure] at h
  -- Every rejection ends the checks with another verdict.
  iterate 6 (split at h; · cases h)
  next active hactive =>
  cases hfind : s.pools.find? c.resource.json with
  | none =>
    simp only [hfind] at h
    cases h
  | some pool =>
    simp only [hfind] at h
    split at h
    · cases h
    next quantity hqty =>
    split at h
    · cases h
    next hcap =>
    split at h
    · cases h
    next wanted hparts =>
    obtain ⟨rfl, hconf⟩ := judgeCustody_admitted (Except.ok.inj h)
    obtain ⟨hpool, hkey⟩ := find?_eq_some.mp hfind
    refine ⟨hparts, ⟨pool, hpool, hkey, ?_⟩, hconf⟩
    rw [activeQuantityIn_eq_ok hactive] at hcap
    unfold checkRequiredQuantity at hqty
    split at hqty
    · cases hqty
      exact Nat.le_of_not_lt hcap
    · cases hqty

variable {quantity : ℕ}

/-- An admitted replacement fits into the quantity it carries itself. -/
lemma judgeReplacement_admitted {dead : ResourceIdentity}
    (h : s.judgeReplacement ctx set requirement dead quantity c = .ok (.admitted identity)) :
    c.resource.persistedParts = .ok identity ∧
      s.activeQuantity c.resource.json + quantity ≤ c.cappedQuantity ∧
      (identity.ns.isExclusive = true → s.physicalClaimConflict identity ctx.workflowId = none) := by
  unfold judgeReplacement judgeMatches at h
  simp only [bind, Except.bind, pure, Except.pure] at h
  iterate 6 (split at h; · cases h)
  next wanted hparts =>
  split at h
  · cases h
  split at h
  · cases h
  next active hactive =>
  split at h
  · cases h
  next hcap =>
  obtain ⟨rfl, hconf⟩ := judgeCustody_admitted (Except.ok.inj h)
  rw [activeQuantityIn_eq_ok hactive] at hcap
  exact ⟨hparts, Nat.le_of_not_lt hcap, hconf⟩

/-! ## Allocations by requirement -/

namespace AllocationSet

/-- Every allocation of the set satisfies `P`. -/
def All (P : ResourceAllocation → Prop) (set : AllocationSet) : Prop :=
  ∀ entry ∈ set, ∀ allocation ∈ entry.2, P allocation

variable {P Q : ResourceAllocation → Prop}

variable (h : set.All P)

include h

lemma All.imp (hPQ : ∀ allocation, P allocation → Q allocation) : set.All Q :=
  fun entry hentry allocation hal => hPQ allocation (h entry hentry allocation hal)

lemma All.get (key : String) : ∀ allocation ∈ (set.get key).getD [], P allocation := by
  intro allocation hal
  cases hget : set.get key with
  | none =>
    rw [hget] at hal
    cases hal
  | some held =>
    rw [hget, Option.getD_some] at hal
    obtain ⟨l₁, l₂, hset, -⟩ := lookup_eq_some_iff.mp hget
    exact h (key, held) (by rw [hset]; simp) allocation hal

lemma All.remove (key : String) : (set.remove key).All P :=
  fun entry hentry => h entry (mem_of_mem_filter hentry)

lemma All.insert (key : String) {held : List ResourceAllocation}
    (hheld : ∀ allocation ∈ held, P allocation) : (set.insert key held).All P :=
  forall_mem_concat (h.remove key) hheld

lemma All.push (hal : P allocation) : (set.push allocation).All P :=
  h.insert _ (forall_mem_concat (h.get _) hal)

end AllocationSet

/-- The allocation stands for a row of the item. -/
def Holds (s : Repo) (itemId : WorkItemId) (allocation : ResourceAllocation) : Prop :=
  ∃ a ∈ s.allocations, a.id = allocation.id ∧ a.itemId = itemId ∧
    a.resource.resource = allocation.resource

lemma listActiveAllocations_holds (s : Repo) (itemId : WorkItemId) :
    (s.listActiveAllocations itemId).All (Holds s itemId) := by
  have hfold : ∀ (rows : List AllocationRow) (set : AllocationSet),
      (∀ a ∈ rows, a ∈ s.allocations ∧ a.itemId = itemId) → set.All (Holds s itemId) →
        (rows.foldl (fun set a => set.push a.allocation) set).All (Holds s itemId) := by
    intro rows
    induction rows with
    | nil => exact fun _ _ hset => hset
    | cons a rows ih =>
      intro set hrows hset
      obtain ⟨ha, hitem⟩ := hrows a mem_cons_self
      exact ih _ (fun b hb => hrows b (mem_cons_of_mem a hb)) (hset.push ⟨a, ha, rfl, hitem, rfl⟩)
  refine hfold _ [] (fun a ha => ?_) nofun
  rw [mem_insertionSort, mem_filter] at ha
  simp only [Bool.and_eq_true, decide_eq_true_eq] at ha
  exact ⟨ha.1, ha.2.1⟩

/-! ## Steps of an allocation call -/

/-- A part of an allocation call: changes that leave items and workflows alone and remove
no allocation. -/
structure Books (u : IdSource) (t : Terms) (s s' : Repo) : Prop where
  changes : Changes u t s s'
  items : s'.items = s.items
  workflows : s'.workflows = s.workflows
  held : ∀ itemId allocation, Holds s itemId allocation → Holds s' itemId allocation

lemma Books.refl (u : IdSource) (t : Terms) (s : Repo) : Books u t s s :=
  ⟨.refl, rfl, rfl, fun _ _ h => h⟩

lemma Books.trans {s'' : Repo} (h : Books u t s s') (h' : Books u t s' s'') : Books u t s s'' :=
  ⟨h.changes.trans h'.changes, h'.items.trans h.items, h'.workflows.trans h.workflows,
    fun itemId allocation hheld => h'.held _ _ (h.held itemId allocation hheld)⟩

section Statements

variable {x : Unit}

lemma releaseActiveAllocationIn_refines (hi : i ∈ s.items) (hheld : Holds s i.id allocation)
    (h : releaseActiveAllocationIn i.spec.workflowId now allocation s = .ok (x, s')) :
    Books u t s s' := by
  simp only [releaseActiveAllocationIn, bind_check, bind_execute] at h
  obtain ⟨identity, hparts, h⟩ := h
  obtain ⟨a, ha, hid, hitem, hres⟩ := hheld
  -- The identity of the allocation is the one its row stores.
  have hident : identity = a.resource :=
    ResourceIdentity.resource_injective
      ((ResourceKey.resource_of_persistedParts hparts).trans hres.symm)
  have hs' : s' = s.unbook a i.spec.workflowId now := by
    unfold unbook
    rcases when_eq_ok.mp h with ⟨hex, h⟩ | ⟨hex, rfl⟩
    · rw [execute_eq_ok] at h
      rw [h, hid, hident, if_pos (hident ▸ hex)]
    · rw [hid, if_neg (hident ▸ hex)]
  rw [hs']
  refine ⟨.single (.unbook s i a now hi ha hitem), by simp, by simp, fun itemId al hal => ?_⟩
  obtain ⟨b, hb, hbid, hbitem, hbres⟩ := hal
  rw [unbook_frame]
  refine ⟨_, List.mem_map.mpr ⟨b, hb, rfl⟩, ?_⟩
  split <;> exact ⟨hbid, hbitem, hbres⟩

lemma releaseActiveAllocationIn_hasKey
    (h : releaseActiveAllocationIn w now allocation s = .ok (x, s')) (id : AllocationId) :
    s'.allocations.hasKey id = s.allocations.hasKey id := by
  simp only [releaseActiveAllocationIn, bind_check, bind_execute] at h
  obtain ⟨identity, -, h⟩ := h
  have hsame : s'.allocations = (s.setAllocations
      (fun a => a.id = allocation.id && a.state = .active) .released now).allocations := by
    rcases when_eq_ok.mp h with ⟨-, h⟩ | ⟨-, rfl⟩
    · rw [execute_eq_ok] at h
      rw [h]
      rfl
    · rfl
  rw [hsame, setAllocations, hasKey_update]

lemma upsertPoolRow_spec {seen : PoolRow} {merge : PoolRow → PoolRow}
    {hmerge : ∀ p, (merge p).poolKey = p.poolKey}
    (h : upsertPoolRow seen merge hmerge s = .ok (x, s')) : s' = s.upsertPool seen merge hmerge := by
  simp only [upsertPoolRow, bind_query, bind_ensure, execute_eq_ok] at h
  exact h.2

lemma observeCandidate_refines (hoffered : t.offered c)
    (h : observeCandidate c s = .ok (x, s')) : Books u t s s' := by
  simp only [observeCandidate, bind_check, revisionToSql, bind_ensure] at h
  obtain ⟨identity, hparts, -, -, h⟩ := h
  obtain rfl := upsertPoolRow_spec h
  refine ⟨.single (.observePool s c identity _ _ (.inl rfl) _ hoffered hparts le_rfl), ?_, ?_, ?_⟩
  all_goals erw [upsertPool_frame]
  exact fun _ _ hal => hal

lemma observeCandidate_allocations
    (h : observeCandidate c s = .ok (x, s')) : s'.allocations = s.allocations := by
  simp only [observeCandidate, bind_check, revisionToSql, bind_ensure] at h
  obtain ⟨identity, -, -, -, h⟩ := h
  rw [upsertPoolRow_spec h]
  erw [upsertPool_frame]

lemma bookCandidate_refines (hi : i ∈ s.items) (hitem : ctx.itemId = i.id)
    (howner : ctx.workflowId = i.spec.workflowId) (hstat : i.state.status.isTerminal = false)
    (hlive : Live s.workflows i.spec.workflowId)
    (hadmitted : s.judgeCandidate ctx set requirement c = .ok (.admitted identity))
    (h : bookCandidate u ctx requirement c identity requirement.quantity s = .ok (allocation, s')) :
    Books u t s s' ∧ Holds s' i.id allocation := by
  obtain ⟨hparts, ⟨pool, hpool, hpoolKey, hcap⟩, hconf⟩ :=
    judgeCandidate_admitted hadmitted
  simp only [bookCandidate, bind_drawUuid, bind_eq_ok, execute_eq_ok, pure_eq_ok] at h
  obtain ⟨_, s₁, hinsert, _, s₂, hclaim, rfl, rfl⟩ := h
  obtain ⟨hqty, hfresh, rfl⟩ := insertAllocationRow_spec hinsert
  rw [howner] at hclaim hconf
  have hresource := ResourceKey.resource_of_persistedParts hparts
  have hbooked := hclaim
  rw [claimFor_frame] at hclaim
  have hrows : ∀ {r : AllocationRow}, s.allocations.hasKey r.id = false →
      ∀ b, b ∈ s.allocations ∨ b = r → b ∈ s.allocations.insert r :=
    fun hr b hb => (mem_insert hr).mpr hb
  refine ⟨⟨?_, by rw [hclaim]; rfl, by rw [hclaim]; rfl, ?_⟩, ?_⟩
  · rw [hbooked]
    refine .single (.book s i _ _ hi hitem rfl hfresh rfl hstat hlive ?_ ?_ hqty ?_ hconf)
    · rw [hresource]
    · exact hasKey_eq_true.mpr ⟨pool, hpool, hpoolKey⟩
    · exact ⟨pool.availableQuantity, hcap, .inl ⟨pool, hpool, hpoolKey, rfl⟩⟩
  · rintro itemId al ⟨b, hb, hrest⟩
    rw [hclaim]
    exact ⟨b, hrows hfresh b (.inl hb), hrest⟩
  · rw [hclaim]
    exact ⟨_, hrows hfresh _ (.inr rfl), rfl, hitem, hresource⟩

end Statements

/-! ## The loops of an allocation call -/

section Loops

/-- What is retained was held, and the rest is released. -/
lemma retainAllocations_refines {usable : Repo → ResourceAllocation → Except RepositoryError Bool}
    (held : List ResourceAllocation) {kept : List ResourceAllocation}
    (hi : i ∈ s.items) (hheld : ∀ allocation ∈ held, Holds s i.id allocation)
    (h : retainAllocations i.spec.workflowId now usable held s = .ok (kept, s')) :
    Books u t s s' ∧ ∀ allocation ∈ kept, allocation ∈ held := by
  induction held generalizing s kept with
  | nil =>
    rw [retainAllocations, pure_eq_ok] at h
    rw [h.1, h.2]
    exact ⟨.refl u t s, fun _ hal => hal⟩
  | cons allocation held ih =>
    rw [retainAllocations, bind_queryM] at h
    obtain ⟨keep, -, h⟩ := h
    have hhead := hheld allocation mem_cons_self
    have htail := fun al hal => hheld al (mem_cons_of_mem allocation hal)
    cases keep with
    | true =>
      simp only [bind_eq_ok, pure_eq_ok] at h
      obtain ⟨rest, s₁, hrest, rfl, rfl⟩ := h
      obtain ⟨hbooks, hsub⟩ := ih hi htail hrest
      exact ⟨hbooks, cons_subset_cons allocation hsub⟩
    | false =>
      simp only [bind_eq_ok] at h
      obtain ⟨_, s₁, hrelease, hrest⟩ := h
      have hbooks := releaseActiveAllocationIn_refines (u := u) (t := t) hi hhead hrelease
      obtain ⟨hbooks', hsub⟩ := ih (hbooks.items ▸ hi)
        (fun al hal => hbooks.held _ _ (htail al hal)) hrest
      exact ⟨hbooks.trans hbooks', fun al hal => mem_cons_of_mem _ (hsub al hal)⟩

lemma retainForRequirement_refines {held kept : List ResourceAllocation}
    (howner : ctx.workflowId = i.spec.workflowId) (hi : i ∈ s.items)
    (hheld : ∀ allocation ∈ held, Holds s i.id allocation)
    (h : retainForRequirement ctx now set requirement held s = .ok (kept, s')) :
    Books u t s s' ∧ ∀ allocation ∈ kept, Holds s' i.id allocation := by
  rw [retainForRequirement, bind_eq_ok] at h
  obtain ⟨asParent, s₁, hpar, h⟩ := h
  have hfirst : Books u t s s₁ ∧ ∀ allocation ∈ asParent, allocation ∈ held := by
    rw [retainAsParent, howner] at hpar
    split at hpar
    · exact retainAllocations_refines held hi hheld hpar
    · rw [pure_eq_ok] at hpar
      rw [hpar.1, hpar.2]
      exact ⟨.refl u t s, fun _ hal => hal⟩
  obtain ⟨hbooks, hsub⟩ := hfirst
  have hheld₁ := fun al hal => hbooks.held i.id al (hheld al (hsub al hal))
  rw [retainAsDependent, howner] at h
  cases hdep : affinityParent requirement.key ctx.affinities with
  | some =>
    simp only [hdep] at h
    obtain ⟨hbooks', hsub'⟩ :=
      retainAllocations_refines asParent (hbooks.items ▸ hi) hheld₁ h
    exact ⟨hbooks.trans hbooks', fun al hal => hbooks'.held _ _ (hheld₁ al (hsub' al hal))⟩
  | none =>
    simp only [hdep, pure_eq_ok] at h
    rw [h.1, h.2]
    exact ⟨hbooks, hheld₁⟩

section

variable (hitem : ctx.itemId = i.id) (howner : ctx.workflowId = i.spec.workflowId)
  (hstat : i.state.status.isTerminal = false)

include hitem howner hstat

/-- The candidate loop books what it selects. -/
lemma selectCandidates_refines (cs : List AllocationCandidate)
    {selected final : List ResourceAllocation} {d d' : AllocationShortageDiagnostics}
    (hi : i ∈ s.items) (hlive : Live s.workflows i.spec.workflowId)
    (hsel : ∀ allocation ∈ selected, Holds s i.id allocation)
    (h : selectCandidates u ctx set requirement cs selected d s = .ok ((final, d'), s')) :
    Books u t s s' ∧ ∀ allocation ∈ final, Holds s' i.id allocation := by
  induction cs generalizing s selected d with
  | nil =>
    rw [selectCandidates, pure_eq_ok, Prod.mk.injEq] at h
    rw [h.1.1, h.2]
    exact ⟨.refl u t s, hsel⟩
  | cons c cs ih =>
    rw [selectCandidates] at h
    split at h
    · rw [pure_eq_ok, Prod.mk.injEq] at h
      rw [h.1.1, h.2]
      exact ⟨.refl u t s, hsel⟩
    · rw [bind_queryM] at h
      obtain ⟨verdict, hverdict, h⟩ := h
      cases verdict with
      | admitted =>
        simp only [bind_eq_ok] at h
        obtain ⟨allocation, s₁, hbook, hrest⟩ := h
        obtain ⟨hbooks, hnew⟩ :=
          bookCandidate_refines (t := t) hi hitem howner hstat hlive hverdict hbook
        have hsel₁ : ∀ al ∈ selected ++ [allocation], Holds s₁ i.id al :=
          forall_mem_concat (fun al hal => hbooks.held _ _ (hsel al hal)) hnew
        obtain ⟨hbooks', hfinal⟩ :=
          ih (hbooks.items ▸ hi) (hbooks.workflows ▸ hlive) hsel₁ hrest
        exact ⟨hbooks.trans hbooks', hfinal⟩
      | _ =>
        exact ih hi hlive hsel h

lemma allocateRequirement_refines (hi : i ∈ s.items) (hlive : Live s.workflows i.spec.workflowId)
    (hset : set.All (Holds s i.id))
    (h : allocateRequirement u ctx now set requirement s = .ok (set', s')) :
    Books u t s s' ∧ set'.All (Holds s' i.id) := by
  simp only [allocateRequirement, bind_eq_ok, ensure_eq_ok, pure_eq_ok] at h
  obtain ⟨retained, s₁, hretain, ⟨selected, d⟩, s₂, hselect, _, s₃, ⟨-, hs₃⟩, rfl, hs'⟩ := h
  rw [hs', hs₃]
  obtain ⟨hbooks, hretained⟩ :=
    retainForRequirement_refines howner hi (hset.get requirement.key) hretain
  obtain ⟨hbooks', hsel⟩ := selectCandidates_refines (t := t) hitem howner hstat
    ctx.candidates (hbooks.items ▸ hi) (hbooks.workflows ▸ hlive) hretained hselect
  have hall := hbooks.trans hbooks'
  exact ⟨hall, (((hset.remove requirement.key).imp (hall.held i.id)).insert requirement.key hsel)⟩

end

variable {key : String}

lemma releaseIgnored_refines (hi : i ∈ s.items) (hset : set.All (Holds s i.id))
    (h : releaseIgnored i.spec.workflowId now set key s = .ok (set', s')) :
    Books u t s s' ∧ set'.All (Holds s' i.id) := by
  simp only [releaseIgnored, bind_eq_ok, pure_eq_ok] at h
  obtain ⟨_, s₁, hloop, rfl, rfl⟩ := h
  have hbooks : Books u t s s' := by
    refine forM_induction ?_ (.refl u t s) hloop
    intro al hal x y hx hstep
    exact hx.trans (releaseActiveAllocationIn_refines (hx.items ▸ hi)
      (hx.held _ _ (hset.get key al hal)) hstep)
  exact ⟨hbooks, (hset.remove key).imp (hbooks.held i.id)⟩

lemma releaseIgnored_hasKey (h : releaseIgnored w now set key s = .ok (set', s'))
    (id : AllocationId) : s'.allocations.hasKey id = s.allocations.hasKey id := by
  simp only [releaseIgnored, bind_eq_ok, pure_eq_ok] at h
  obtain ⟨_, s₁, hloop, -, rfl⟩ := h
  refine forM_induction
    (P := fun x => x.allocations.hasKey id = s.allocations.hasKey id) ?_ rfl hloop
  intro al _ x y hx hstep
  exact (releaseActiveAllocationIn_hasKey hstep id).trans hx

end Loops

variable {ignored : List String}

section

variable (hoffered : ∀ c ∈ cs, t.offered c)
  (h : allocateRequirementsWithPolicy u itemId revision cs affinities ignored s = .ok (set, s'))

include hoffered h

/-- An allocation call first releases what is ignored and observes the candidates, which
inserts no allocation; then it books on what it has observed, whatever is offered. -/
lemma allocateRequirementsWithPolicy_phases :
    ∃ s₁, Books u t s s₁ ∧ (∀ id, s₁.allocations.hasKey id = s.allocations.hasKey id) ∧
      ∀ t', Books u t' s₁ s' := by
  simp only [allocateRequirementsWithPolicy, bind_requireWorkItem, verifyWorkItemRevision,
    bind_ensure, bind_requireWorkflow, bind_require, bind_query] at h
  obtain ⟨i, ⟨hi, rfl⟩, -, owner, ⟨howner, hownerId⟩, ⟨hlive, hstat⟩, stored, -, h⟩ := h
  simp only [bind_eq_ok] at h
  obtain ⟨held, s₁, hignored, _, s₂, hobserve, h⟩ := h
  have hfirst : (Books u t s s₁ ∧ ∀ id, s₁.allocations.hasKey id = s.allocations.hasKey id) ∧
      held.All (Holds s₁ i.id) := by
    refine foldlM_induction (P := fun set x => (Books u t s x ∧
      ∀ id, x.allocations.hasKey id = s.allocations.hasKey id) ∧ set.All (Holds x i.id)) ?_
      ⟨⟨.refl u t s, fun _ => rfl⟩, listActiveAllocations_holds s i.id⟩ hignored
    rintro key - c c' x y ⟨⟨hx, hkeys⟩, hc⟩ hstep
    obtain ⟨hy, hc'⟩ := releaseIgnored_refines (hx.items ▸ hi) hc hstep
    exact ⟨⟨hx.trans hy, fun id => (releaseIgnored_hasKey hstep id).trans (hkeys id)⟩, hc'⟩
  have hsecond : Books u t s₁ s₂ ∧ s₂.allocations = s₁.allocations := by
    refine forM_induction (P := fun x => Books u t s₁ x ∧ x.allocations = s₁.allocations) ?_
      ⟨.refl u t s₁, rfl⟩ hobserve
    rintro c hc x y ⟨hx, hsame⟩ hstep
    rw [orderCandidates, mem_insertionSort] at hc
    exact ⟨hx.trans (observeCandidate_refines (hoffered c hc) hstep),
      (observeCandidate_allocations hstep).trans hsame⟩
  have hbooks := hfirst.1.1.trans hsecond.1
  refine ⟨s₂, hbooks, fun id => by rw [hsecond.2]; exact hfirst.1.2 id, fun t' => ?_⟩
  have hend := foldlM_induction (P := fun set x => Books u t' s₂ x ∧ set.All (Holds x i.id)) ?_
    ⟨.refl u t' s₂, hfirst.2.imp (hsecond.1.held i.id)⟩ h
  · exact hend.1
  · rintro requirement - c c' x y ⟨hx, hc⟩ hstep
    have hliveX : Live x.workflows i.spec.workflowId := by
      rw [hx.workflows, hbooks.workflows]
      exact ⟨owner, howner, hownerId, hlive⟩
    obtain ⟨hy, hc'⟩ := allocateRequirement_refines rfl rfl hstat
      (hx.items ▸ hbooks.items ▸ hi) hliveX hc hstep
    exact ⟨hx.trans hy, hc'⟩

lemma allocateRequirementsWithPolicy_refines : Books u t s s' := by
  obtain ⟨s₁, hfirst, -, hrest⟩ := allocateRequirementsWithPolicy_phases hoffered h
  exact hfirst.trans (hrest t)

end

/-! ## Replacing a dead allocation -/

/-- No candidate is of the kind the dead allocation's requirement asks for, so that its
replacement fails the item. -/
def Repo.replacementFails (s : Repo) (itemId : WorkItemId) (allocationId : AllocationId)
    (candidates : List AllocationCandidate) : Bool :=
  (s.items.find? itemId).any fun item => (s.allocations.find? allocationId).any fun dead =>
    dead.itemId = itemId && (item.spec.requirementsJson.decoded.bind fun requirements =>
      requirements.find? fun r => r.key = dead.requirementKey).any fun requirement =>
        candidates.all fun candidate => !candidate.matchesKindCapabilities requirement

lemma judgeReplacement_kindRejected {dead : ResourceIdentity} :
    s.judgeReplacement ctx set requirement dead quantity c = .ok .kindRejected ↔
      c.matchesKindCapabilities requirement = false := by
  constructor
  · intro h
    cases hkind : c.matchesKindCapabilities requirement with
    | false => rfl
    | true =>
      exfalso
      unfold judgeReplacement judgeMatches at h
      simp only [hkind, bind, Except.bind, pure, Except.pure, Bool.not_true, Bool.false_eq_true,
        if_false] at h
      unfold judgeCustody at h
      repeat' (split at h)
      all_goals cases h
  · intro hkind
    simp only [judgeReplacement, judgeMatches, hkind, Bool.not_false, if_true]
    rfl

section FindReplacement

variable {judge : AllocationCandidate → Except RepositoryError CandidateVerdict}

lemma findReplacement_some (cs : List AllocationCandidate) {owned owned' : Bool}
    (h : findReplacement judge cs owned = .ok (owned', some (c, identity))) :
    c ∈ cs ∧ judge c = .ok (.admitted identity) := by
  induction cs generalizing owned with
  | nil => cases h
  | cons c₁ cs ih =>
    rw [findReplacement] at h
    split at h
    · cases h
    · next hjudge =>
      cases h
      exact ⟨mem_cons_self, hjudge⟩
    · obtain ⟨hc, hjudge⟩ := ih h
      exact ⟨mem_cons_of_mem c₁ hc, hjudge⟩
    · obtain ⟨hc, hjudge⟩ := ih h
      exact ⟨mem_cons_of_mem c₁ hc, hjudge⟩

/-- The loop sees no candidate of the right kind if and only if there is none. -/
lemma findReplacement_none (cs : List AllocationCandidate) {owned : Bool} :
    findReplacement judge cs owned = .ok (false, none) ↔
      owned = false ∧ ∀ c ∈ cs, judge c = .ok .kindRejected := by
  induction cs generalizing owned with
  | nil => simp [findReplacement]
  | cons c₁ cs ih =>
    rw [findReplacement, forall_mem_cons]
    cases hjudge : judge c₁ with
    | error => simp
    | ok verdict =>
      cases verdict with
      | kindRejected => simp [ih]
      | admitted => simp
      | _ =>
        simp [ih]

end FindReplacement

section Replacement

lemma hasKey_upsertPool_self (seen : PoolRow) (merge : PoolRow → PoolRow)
    (hmerge : ∀ p, (merge p).poolKey = p.poolKey) :
    (s.upsertPool seen merge hmerge).pools.hasKey seen.poolKey = true := by
  unfold upsertPool
  cases hfind : s.pools.find? seen.poolKey with
  | none =>
    have hfresh : s.pools.hasKey seen.poolKey = false :=
      hasKey_eq_false.mpr (find?_eq_none.mp hfind)
    exact hasKey_eq_true.mpr ⟨seen, (mem_insert hfresh).mpr (.inr rfl), rfl⟩
  | some stored =>
    have hkey : s.pools.hasKey seen.poolKey = true :=
      hasKey_eq_true.mpr ⟨stored, find?_eq_some.mp hfind⟩
    simp only
    split
    · exact (hasKey_update _ _ _ hmerge _).trans hkey
    · exact hkey

/-- The plain insert of a replacement's claim is the upsert of a fresh one. -/
lemma claimFor_of_insert {resource : ResourceIdentity} {x : Unit}
    (h : Tx.when resource.ns.isExclusive (insertClaimRow ⟨resource, w, now, now⟩) s =
      .ok (x, s')) : s' = s.claimFor resource w now := by
  unfold claimFor upsertClaim
  rcases when_eq_ok.mp h with ⟨hex, hinsert⟩ | ⟨hex, rfl⟩
  · obtain ⟨hfresh, rfl⟩ := insertClaimRow_spec hinsert
    rw [if_pos hex, hfresh, if_neg Bool.false_ne_true]
  · rw [if_neg hex]

/-- The replacement observes the pool and books the dead allocation's quantity from it. -/
lemma bookReplacement_spec (h : bookReplacement u w dead now c identity s = .ok (outcome, s')) :
    ∃ a : AllocationRow, a.id = u.draw s.uuidsDrawn ∧ a.itemId = dead.itemId ∧
      a.poolKey = c.resource.json ∧ a.resource = identity ∧ a.quantity = dead.quantity ∧
      a.state = .active ∧ 0 < a.quantity ∧ s.allocations.hasKey a.id = false ∧
      s' = (s.upsertPool (c.poolRow identity c.cappedQuantity)
        (c.poolRow identity c.cappedQuantity).observeQuantity fun _ => rfl).book a w now := by
  rw [bookReplacement, revisionToSql, bind_ensure] at h
  simp only [bind_eq_ok, drawUuid_eq_ok, pure_eq_ok] at h
  obtain ⟨-, _, s₁, hpool, id, s₂, ⟨hid, hs₂⟩, _, s₃, hinsert, _, s₄, hclaim, -, hs'⟩ := h
  obtain rfl := upsertPoolRow_spec hpool
  subst hs₂
  obtain ⟨hqty, hfresh, rfl⟩ := insertAllocationRow_spec hinsert
  erw [upsertPool_frame] at hfresh hid
  have hbooked := hs'.trans (claimFor_of_insert hclaim)
  refine ⟨_, ?_, ?_, ?_, ?_, ?_, ?_, hqty, hfresh, hbooked⟩
  exacts [hid, rfl, rfl, rfl, rfl, rfl]

lemma bookReplacement_refines (hi : i ∈ s.items) (hitem : dead.itemId = i.id)
    (hstat : i.state.status.isTerminal = false) (hlive : Live s.workflows i.spec.workflowId)
    (hoffered : t.offered c) (hparts : c.resource.persistedParts = .ok identity)
    (hcap : s.activeQuantity c.resource.json + dead.quantity ≤ c.cappedQuantity)
    (hconf : identity.ns.isExclusive = true →
      s.physicalClaimConflict identity i.spec.workflowId = none)
    (h : bookReplacement u i.spec.workflowId dead now c identity s = .ok (outcome, s')) :
    Changes u t s s' := by
  obtain ⟨a, hid, haitem, hkey, hres, haq, hactive, hqty, hfresh, rfl⟩ :=
    bookReplacement_spec h
  have hobserve : Change u t s _ := .observePool s c identity c.cappedQuantity _ (.inr rfl)
    (fun _ => rfl) hoffered hparts (min_le_left _ _)
  have hpool := hasKey_upsertPool_self (s := s) (c.poolRow identity c.cappedQuantity)
    (c.poolRow identity c.cappedQuantity).observeQuantity fun _ => rfl
  -- The observation changes nothing the booking was judged by.
  erw [upsertPool_frame] at hobserve hpool ⊢
  rw [← hres] at hconf hparts
  refine .tail (.single hobserve) (.book _ i a now hi (haitem.trans hitem) hid hfresh hactive hstat
    hlive ?_ (hkey ▸ hpool) hqty ?_ hconf)
  · rw [hkey, ResourceKey.resource_of_persistedParts hparts]
  · refine ⟨c.cappedQuantity, ?_, .inr ⟨c, hoffered, hparts, min_le_left _ _⟩⟩
    rw [hkey, haq]
    exact hcap

/-- What is active after an allocation was marked dead was active before. -/
lemma mem_killAllocation_allocations {a : AllocationRow}
    (ha : a ∈ (s.killAllocation dead w now).allocations) (hactive : a.state = .active) :
    a ∈ s.allocations := by
  rw [killAllocation_frame] at ha
  obtain ⟨b, hb, rfl⟩ := List.mem_map.mp ha
  split at hactive
  · cases hactive
  · next hneg =>
    rw [if_neg hneg]
    exact hb

/-- The owner of an item that is not terminal is alive. -/
lemma Inv.live_owner (hs : Inv u s) (hi : i ∈ s.items)
    (hstat : i.state.status.isTerminal = false) : Live s.workflows i.spec.workflowId := by
  obtain ⟨w, hw, hid, hterm⟩ := hs.items.owner i hi
  refine ⟨w, hw, hid, ?_⟩
  cases hcase : w.status.isTerminal with
  | false => rfl
  | true =>
    rw [hterm hcase] at hstat
    cases hstat

/-- What follows the loop of a replacement: the candidate it found is booked; without one
the item waits, or fails. -/
inductive Replaced (u : IdSource) (i : WorkItem) (dead : AllocationRow) (now : ℤ)
    (outcome : ReplacementOutcome) (s s' : Repo) :
    Bool × Option (AllocationCandidate × ResourceIdentity) → Prop where
  | booked (c : AllocationCandidate) (identity : ResourceIdentity)
      (h : bookReplacement u i.spec.workflowId dead now c identity s = .ok (outcome, s')) :
      Replaced u i dead now outcome s s' (owned, some (c, identity))
  | waiting (h : s' = s) : Replaced u i dead now outcome s s' (true, none)
  | failed (x : Unit)
      (h : transitionWorkItemIn i (.failed "ReplacementUnavailable" none) now s = .ok (x, s')) :
      Replaced u i dead now outcome s s' (false, none)

variable {allocationId : AllocationId}

/-- A replacement marks the allocation dead before it looks for a candidate. -/
lemma replaceDeadAllocationWithAffinity_spec
    (h : replaceDeadAllocationWithAffinity u itemId allocationId cs now affinities s =
      .ok (outcome, s')) :
    ∃ i ∈ s.items, i.id = itemId ∧ ∃ dead ∈ s.allocations, dead.id = allocationId ∧
      dead.itemId = itemId ∧ dead.state = .active ∧
      ∃ requirements, i.spec.requirementsJson.decoded = some requirements ∧
      ∃ requirement, (requirements.find? fun r => r.key = dead.requirementKey) = some requirement ∧
      ∃ found, findReplacement ((s.killAllocation dead i.spec.workflowId now).judgeReplacement
          (replacementContext i requirements cs affinities)
          ((s.killAllocation dead i.spec.workflowId now).listActiveAllocations itemId) requirement
          dead.resource dead.quantity) (orderCandidates cs) false = .ok found ∧
        Replaced u i dead now outcome (s.killAllocation dead i.spec.workflowId now) s' found := by
  simp only [replaceDeadAllocationWithAffinity, bind_requireWorkItem, bind_query,
    bind_require, bind_execute, bind_queryM] at h
  obtain ⟨i, ⟨hi, rfl⟩, dead, hdead, requirements, hdecd, requirement, hfind,
    ⟨owned, found⟩, hsearch, h⟩ := h
  have hrow := find?_some hdead
  simp only [Bool.and_eq_true, decide_eq_true_eq] at hrow
  obtain ⟨⟨rfl, hitem⟩, hactive⟩ := hrow
  refine ⟨i, hi, rfl, dead, mem_of_find?_eq_some hdead, rfl, hitem, hactive, requirements,
    hdecd, requirement, hfind, (owned, found), hsearch, ?_⟩
  cases found with
  | some pair => exact .booked pair.1 pair.2 h
  | none =>
    cases owned with
    | true =>
      simp only [if_true, pure_eq_ok] at h
      exact .waiting h.2
    | false =>
      simp only [Bool.false_eq_true, if_false, bind_eq_ok, pure_eq_ok] at h
      obtain ⟨x, s₁, htrans, -, rfl⟩ := h
      exact .failed x htrans

/-- A replacement marks the allocation dead and books another, waits, or fails the item,
which then keeps no active allocation. -/
lemma replaceDeadAllocationWithAffinity_refines (hs : Inv u s)
    (hoffered : ∀ c ∈ cs, t.offered c) (hshared : Unshared t s fun b => b.id = allocationId)
    (hfails : s.replacementFails itemId allocationId cs = true →
      Unshared t s fun a => a.itemId = itemId)
    (h : replaceDeadAllocationWithAffinity u itemId allocationId cs now affinities s =
      .ok (outcome, s')) : Changes u t s s' ∧ (s.replacementFails itemId allocationId cs = true →
      ∀ a ∈ s'.allocations, a.state = .active → a.itemId ≠ itemId) := by
  obtain ⟨i, hi, rfl, dead, hdead, rfl, hitem, hactive, requirements, hdecd, requirement, hfind,
    found, hsearch, hreplaced⟩ := replaceDeadAllocationWithAffinity_spec h
  -- An active allocation has an item that is not terminal, and so an owner that is alive.
  have hstat : i.state.status.isTerminal = false := by
    obtain ⟨j, hj, hjid, hjlive⟩ := hs.allocations.item dead hdead
    rw [← eq_of_key hj hi (hjid.trans hitem)]
    exact hjlive hactive
  have hlive := hs.live_owner hi hstat
  have hkill : Change u t s (s.killAllocation dead i.spec.workflowId now) :=
    .killAllocation s i dead now hi hdead hitem hshared hactive
  have hitems : (s.killAllocation dead i.spec.workflowId now).items = s.items := by simp
  have hwfs : (s.killAllocation dead i.spec.workflowId now).workflows = s.workflows := by simp
  -- The replacement fails exactly when the loop has seen no candidate of the kind.
  have hfailing : s.replacementFails i.id dead.id cs = true ↔ found = (false, none) := by
    rw [← @Except.ok.injEq _ _ found, ← hsearch, findReplacement_none, orderCandidates,
      replacementFails, find?_eq_some.mpr ⟨hi, rfl⟩, find?_eq_some.mpr ⟨hdead, rfl⟩]
    simp only [Option.any_some, hitem, decide_true, Bool.true_and, hdecd, Option.bind_some, hfind,
      all_eq_true, Bool.not_eq_true', true_and, judgeReplacement_kindRejected, mem_insertionSort]
  cases hreplaced with
  | booked c identity hbook =>
    obtain ⟨hc, hjudge⟩ := findReplacement_some _ hsearch
    rw [orderCandidates, mem_insertionSort] at hc
    obtain ⟨hparts, hcap, hconf⟩ := judgeReplacement_admitted hjudge
    refine ⟨.head hkill (bookReplacement_refines (hitems ▸ hi) hitem hstat (hwfs ▸ hlive)
      (hoffered c hc) hparts hcap hconf hbook), fun hbad => ?_⟩
    cases hfailing.mp hbad
  | waiting hsame =>
    rw [hsame]
    exact ⟨.single hkill, fun hbad => by cases hfailing.mp hbad⟩
  | failed x htrans =>
    have hunshared : Unshared t (s.killAllocation dead i.spec.workflowId now)
        fun a => a.itemId = i.id :=
      (hfails (hfailing.mpr rfl)).mono (fun a ha hact => mem_killAllocation_allocations ha hact)
        fun j hj => ⟨j, hitems ▸ hj, rfl, rfl⟩
    obtain ⟨hchanges, hnone⟩ := transitionWorkItemIn_refines (hitems ▸ hi)
      (fun _ => hunshared) htrans
    exact ⟨.head hkill hchanges, fun _ => hnone rfl⟩

end Replacement

/-! ## Assignments -/

section Assignments

lemma assignWorkItem_refines {assignmentId : String} {worker : ResourceKey}
    {x : Unit} (h : assignWorkItem itemId revision assignmentId worker now s = .ok (x, s')) :
    Changes u t s s' := by
  simp only [assignWorkItem, bind_ensure, bind_check, bind_requireWorkItem,
    verifyWorkItemRevision] at h
  obtain ⟨-, identity, -, i, ⟨hi, hid⟩, -, hstat, h⟩ := h
  obtain ⟨hfresh, rfl⟩ := insertAssignmentRow_spec h
  exact .single (.assign s i _ hi hid.symm hstat hfresh)

lemma requestWorkItemReclaim_refines {changed : Bool}
    (h : requestWorkItemReclaim itemId now s = .ok (changed, s')) : Changes u t s s' := by
  simp only [requestWorkItemReclaim, bind_query, bind_execute, pure_eq_ok] at h
  rw [h.2]
  refine .single (.requestReclaim s _ now fun a _ ha => ?_)
  simp only [Bool.and_eq_true, decide_eq_true_eq] at ha
  exact ha.2

end Assignments

end Replicant.Workflow
