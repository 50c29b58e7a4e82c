import Replicant.Workflow.Refinement

/-!
# The custody of allocations

An active allocation of an exclusive resource is backed by a claim of its workflow on the same
identity. Only a release of its own accord looks for others that lean on the claim, so custody is
kept as long as the allocations that other calls give up share no claim with those that stay.
-/

namespace Replicant.Workflow

open Lib Table Repo

variable {s : Repo} {a : AllocationRow}

variable {i : WorkItem} {now : ℤ} {exempt : WorkItemId → Prop} {w : WorkflowId}

/-- A claim of the item's workflow on the identity of the allocation. -/
def Backed (items : ItemTable) (claims : ClaimTable) (a : AllocationRow) : Prop :=
  ∃ i ∈ items, i.id = a.itemId ∧
    ∃ c ∈ claims, c.resource = a.resource ∧ c.workflowId = i.spec.workflowId

/-- Every active allocation of an exclusive resource is backed, exempt items apart. -/
def CustodyExcept (exempt : WorkItemId → Prop) (allocations : AllocationTable)
    (items : ItemTable) (claims : ClaimTable) : Prop :=
  ∀ a ∈ allocations, a.state = .active → a.resource.ns.isExclusive = true →
    ¬ exempt a.itemId → Backed items claims a

def GuardedExcept (exempt : WorkItemId → Prop) (s : Repo) : Prop :=
  CustodyExcept exempt s.allocations s.items s.claims

/-- Every active allocation of an exclusive resource is backed. -/
def Custody (s : Repo) : Prop :=
  ∀ a ∈ s.allocations, a.state = .active → a.resource.ns.isExclusive = true →
    Backed s.items s.claims a

/-! ## Backing stays -/

namespace Backed

variable {items items' : ItemTable} {claims claims' : ClaimTable}

variable (h : Backed items claims a)

include h

/-- Items keep identity and owner, and the claim the allocation leans on stays. -/
lemma mono (hitems : ∀ i ∈ items, i.id = a.itemId →
      ∃ i' ∈ items', i'.id = i.id ∧ i'.spec.workflowId = i.spec.workflowId)
    (hclaims : ∀ i ∈ items, i.id = a.itemId → ∀ c ∈ claims, c.resource = a.resource →
      c.workflowId = i.spec.workflowId →
        ∃ c' ∈ claims', c'.resource = c.resource ∧ c'.workflowId = c.workflowId) :
    Backed items' claims' a := by
  obtain ⟨i, hi, hid, c, hc, hcr, hcw⟩ := h
  obtain ⟨i', hi', hid', hw'⟩ := hitems i hi hid
  obtain ⟨c', hc', hcr', hcw'⟩ := hclaims i hi hid c hc hcr hcw
  exact ⟨i', hi', hid'.trans hid, c', hc', hcr'.trans hcr, by rw [hcw', hcw, hw']⟩

/-- Only claims change, and the one the allocation leans on stays. -/
lemma spared (hclaims : ∀ i ∈ items, i.id = a.itemId → ∀ c ∈ claims, c.resource = a.resource →
      c.workflowId = i.spec.workflowId → c ∈ claims') : Backed items claims' a :=
  h.mono (fun i hi _ => ⟨i, hi, rfl, rfl⟩)
    fun i hi hid c hc hcr hcw => ⟨c, hclaims i hi hid c hc hcr hcw, rfl, rfl⟩

/-- Only items change, and they keep identity and owner. -/
lemma items_mono
    (hitems : ∀ i ∈ items, ∃ i' ∈ items', i'.id = i.id ∧ i'.spec.workflowId = i.spec.workflowId) :
    Backed items' claims a :=
  h.mono (fun i hi _ => hitems i hi) fun _ _ _ c hc _ _ => ⟨c, hc, rfl, rfl⟩

/-- Only claims change, and they stay where they are. -/
lemma claims_mono (hclaims : ∀ c ∈ claims, ∃ c' ∈ claims', c'.resource = c.resource ∧
      c'.workflowId = c.workflowId) : Backed items claims' a :=
  h.mono (fun i hi _ => ⟨i, hi, rfl, rfl⟩) fun _ _ _ c hc _ _ => hclaims c hc

end Backed

variable {f : WorkItemState → WorkItemState}

lemma mem_updateItems_of_mem {items : ItemTable} {p : WorkItem → Bool} (hi : i ∈ items) :
    ∃ i' ∈ setStates items p f, i'.id = i.id ∧ i'.spec.workflowId = i.spec.workflowId := by
  refine ⟨_, mem_update.mpr ⟨i, hi, rfl⟩, ?_⟩
  split <;> exact ⟨rfl, rfl⟩

lemma mem_touchClaims_of_mem {claims : ClaimTable} {p : ClaimRow → Bool} {c : ClaimRow}
    (hc : c ∈ claims) : ∃ c' ∈ claims.update p (fun c => { c with updatedAt := now }) fun _ => rfl,
      c'.resource = c.resource ∧ c'.workflowId = c.workflowId := by
  refine ⟨_, mem_update.mpr ⟨c, hc, rfl⟩, ?_⟩
  split <;> exact ⟨rfl, rfl⟩

/-- An allocation that is still active after some were given another state is an old one
that was not among them. -/
lemma active_of_mem_setAllocations {p : AllocationRow → Bool} {state : AllocationState}
    (hstate : state ≠ .active) (ha : a ∈ (s.setAllocations p state now).allocations)
    (hact : a.state = .active) : a ∈ s.allocations ∧ p a = false := by
  obtain ⟨b, hb, rfl⟩ := List.mem_map.mp ha
  by_cases hp : p b = true
  · rw [if_pos hp] at hact
    exact absurd hact hstate
  · rw [if_neg hp]
    exact ⟨hb, Bool.eq_false_iff.mpr hp⟩

/-! ## Changes -/

section Changes

variable {t : Terms}

/-- The claims of a settled item go; those that other active allocations lean on stay. -/
lemma settleItem_custody {close : Option (WorkItemAttemptOutcome × Option String)} {drop : Bool}
    {p : WorkItem → Bool} (ht : t.custodial)
    (hi : i ∈ s.items) (hshared : drop = true → Unshared t s fun a => a.itemId = i.id)
    (hs : GuardedExcept t.exempt s) :
    GuardedExcept t.exempt (s.settleItem i close drop p f now) := by
  intro a ha hact hex hnot
  obtain ⟨haold, hother⟩ := mem_settleItem_allocations ha hact
  have hbacked := hs a haold hact hex hnot
  simp only [settleItem_fields, settleItem_claims]
  refine hbacked.mono (fun j hj _ => mem_updateItems_of_mem hj) fun j hj hjid c hc hcr hcw => ?_
  cases drop with
  | false => exact ⟨c, hc, rfl, rfl⟩
  | true =>
    refine ⟨c, mem_delete.mpr ⟨hc, ?_⟩, rfl, rfl⟩
    by_contra hgone
    simp only [Bool.not_eq_false, Bool.and_eq_true, decide_eq_true_eq, List.any_eq_true] at hgone
    obtain ⟨hown, b, hb, ⟨hbitem, hbactive⟩, hbres⟩ := hgone
    -- The claim goes with an allocation of the settled item that shares it.
    have hshare : SharesClaim s b a :=
      ⟨hbres.trans hcr, by rw [hbres, hcr]; exact hex, i, hi, j, hj, hbitem.symm, hjid,
        by rw [← hown, hcw]⟩
    exact hnot (hshared rfl ht b hb hbactive hbitem a haold hact (hother rfl) hshare)

section

variable (hs : GuardedExcept exempt s)

include hs

/-- An ending workflow gives up all its allocations with its claims. -/
lemma endWorkflow_custody : GuardedExcept exempt (s.releaseWorkflow w now) := by
  intro a ha hact hex hnot
  obtain ⟨haold, hkept⟩ := active_of_mem_setAllocations (by decide) ha hact
  refine (hs a haold hact hex hnot).mono (fun j hj _ => mem_updateItems_of_mem hj) ?_
  intro j hj hjid c hc hcr hcw
  refine ⟨c, mem_delete.mpr ⟨hc, ?_⟩, rfl, rfl⟩
  have hfree : s.ownsItem w a.itemId = false := by simpa [hact] using hkept
  rw [ownsItem_eq w hj hjid, decide_eq_false_iff_not] at hfree
  rw [decide_eq_false_iff_not, hcw]
  exact hfree

lemma pruneWorkflow_custody : GuardedExcept exempt (s.deleteWorkflow w) := by
  intro a ha hact hex hnot
  obtain ⟨haold, hkept⟩ := mem_delete.mp ha
  refine (hs a haold hact hex hnot).mono (fun j hj hjid => ?_)
    fun _ _ _ c hc _ _ => ⟨c, hc, rfl, rfl⟩
  rw [ownsItem_eq w hj hjid] at hkept
  exact ⟨j, mem_delete.mpr ⟨hj, hkept⟩, rfl, rfl⟩

/-- A release at the caller's request leaves the claims alone that are needed. -/
lemma deleteClaims_custody {p : ClaimRow → Bool}
    (hspare : ∀ c ∈ s.claims, p c = true → s.isNeeded c = false) :
    GuardedExcept exempt (s.deleteClaims p) := by
  intro a ha hact hex hnot
  refine (hs a ha hact hex hnot).spared fun j hj hjid c hc hcr hcw => ?_
  have hneeded : s.isNeeded c = true := by
    refine List.any_eq_true.mpr ⟨a, ha, ?_⟩
    rw [hact, hex, hcr, ownsItem_eq c.workflowId hj hjid, hcw]
    simp
  refine mem_delete.mpr ⟨hc, ?_⟩
  by_contra hp
  rw [hspare c hc (Bool.not_eq_false _ ▸ hp)] at hneeded
  cases hneeded

/-- A handoff moves no claim of a resource that is allocated. -/
lemma handOff_custody {source dest : WorkflowId} {wanted : ResourceIdentity}
    (hfree : ∀ a ∈ s.allocations, a.state = .active → ¬ PhysicallyEqual wanted a.resource) :
    GuardedExcept exempt (s.moveClaims source dest wanted now) := by
  intro a ha hact hex hnot
  refine (hs a ha hact hex hnot).spared fun j hj hjid c hc hcr hcw => ?_
  have hno : wanted.matches c.resource = false := by
    rw [hcr, Bool.eq_false_iff]
    exact fun hmatch => hfree a ha hact (matches_iff.mp hmatch)
  rw [moveClaims, mem_update]
  exact ⟨c, hc, by rw [hno, Bool.false_and, if_neg Bool.false_ne_true]⟩

/-- The claim of a booking backs it, whether it is new or was there before. -/
lemma book_custody (hi : i ∈ s.items) (hitem : a.itemId = i.id)
    (hfresh : s.allocations.hasKey a.id = false) (hconflict : a.resource.ns.isExclusive = true →
      s.physicalClaimConflict a.resource i.spec.workflowId = none) :
    GuardedExcept exempt (s.book a i.spec.workflowId now) := by
  have hclaims : (s.book a i.spec.workflowId now).claims =
      (s.claimFor a.resource i.spec.workflowId now).claims := by
    rw [book, claimFor, claimFor]
    split
    · unfold upsertClaim
      show (if s.claims.hasKey a.resource = true then _ else _ : Repo).claims = _
      split <;> rfl
    · rfl
  have hkeep : ∀ c ∈ s.claims, ∃ c' ∈ (s.book a i.spec.workflowId now).claims,
      c'.resource = c.resource ∧ c'.workflowId = c.workflowId := by
    intro c hc
    rw [hclaims, claimFor, upsertClaim]
    split
    · split
      · exact mem_touchClaims_of_mem hc
      · next hnew =>
        exact ⟨c, (mem_insert (Bool.eq_false_iff.mpr hnew)).mpr (.inl hc), rfl, rfl⟩
    · exact ⟨c, hc, rfl, rfl⟩
  rw [book, claimFor_frame]
  intro b hb hact hex hnot
  rcases (mem_insert hfresh).mp hb with hb | rfl
  · exact (hs b hb hact hex hnot).claims_mono hkeep
  · refine ⟨i, hi, hitem.symm, ?_⟩
    by_cases hkey : s.claims.hasKey b.resource = true
    · obtain ⟨c, hc, hcr⟩ := hasKey_eq_true.mp hkey
      obtain ⟨c', hc', hcr', hcw'⟩ := hkeep c hc
      have hown : c.workflowId = i.spec.workflowId :=
        physicalClaimConflict_eq_none.mp (hconflict hex) c hc (hcr ▸ PhysicallyEqual.refl _)
      exact ⟨c', hc', hcr'.trans hcr, hcw'.trans hown⟩
    · have hinsert : (s.book b i.spec.workflowId now).claims =
          s.claims.insert ⟨b.resource, i.spec.workflowId, now, now⟩ := by
        rw [hclaims, claimFor, if_pos hex, upsertClaim, if_neg hkey]
        rfl
      refine ⟨⟨b.resource, i.spec.workflowId, now, now⟩, ?_, rfl, rfl⟩
      exact hinsert ▸ (mem_insert (Bool.eq_false_iff.mpr hkey)).mpr (.inr rfl)

/-- A release of its own accord drops the claim only when no other allocation needs it. -/
lemma unbook_custody : GuardedExcept exempt (s.unbook a w now) := by
  rw [unbook_frame]
  intro b hb hact hex hnot
  obtain ⟨hbold, -⟩ := active_of_mem_setAllocations (by decide) hb hact
  refine (hs b hbold hact hex hnot).spared fun j hj hjid c hc hcr hcw => ?_
  rw [unbook]
  split
  · refine mem_delete.mpr ⟨hc, ?_⟩
    by_contra hgone
    simp only [Bool.not_eq_false, Bool.and_eq_true, decide_eq_true_eq, Bool.not_eq_true',
      List.any_eq_false] at hgone
    obtain ⟨⟨hown, hsame⟩, hnone⟩ := hgone
    -- The remaining allocation is one that still names the resource.
    refine hnone b hb ⟨⟨ownsItem_iff.mpr ⟨j, hj, hjid, ?_⟩, hact⟩, ?_⟩
    · rw [← hcw, hown]
    · rw [← hcr, hsame]
  · exact hc

end

/-- A dead allocation gives its claim up unseen. -/
lemma killAllocation_custody (ht : t.custodial) (hi : i ∈ s.items) (ha : a ∈ s.allocations)
    (hitem : a.itemId = i.id) (hshared : Unshared t s fun b => b.id = a.id)
    (haactive : a.state = .active) (hs : GuardedExcept t.exempt s) :
    GuardedExcept t.exempt (s.killAllocation a i.spec.workflowId now) := by
  rw [killAllocation_frame]
  intro b hb hact hex hnot
  obtain ⟨hbold, hbne⟩ := active_of_mem_setAllocations (by decide) hb hact
  rw [decide_eq_false_iff_not] at hbne
  refine (hs b hbold hact hex hnot).spared fun j hj hjid c hc hcr hcw => ?_
  rw [killAllocation]
  split
  · next haex =>
    refine mem_delete.mpr ⟨hc, ?_⟩
    by_contra hgone
    simp only [Bool.not_eq_false, Bool.and_eq_true, decide_eq_true_eq] at hgone
    obtain ⟨hsame, hown⟩ := hgone
    have hshare : SharesClaim s a b :=
      ⟨hsame.symm.trans hcr, haex, i, hi, j, hj, hitem.symm, hjid, by rw [← hown, hcw]⟩
    exact hnot (hshared ht a ha haactive rfl b hbold hact hbne hshare)
  · exact hc

end Changes

variable {u : IdSource} {s' : Repo}

/-- Under custodial terms every change keeps the custody of the items that are not exempt. -/
lemma Change.custody {t : Terms} (h : Change u t s s') (ht : t.custodial)
    (hs : GuardedExcept t.exempt s) : GuardedExcept t.exempt s' := by
  cases h with
  | endWorkflow w p f hf =>
    exact endWorkflow_custody hs
  | pruneWorkflow => exact pruneWorkflow_custody hs
  | insertClaim row hfresh =>
    intro a ha hact hex hnot
    exact (hs a ha hact hex hnot).claims_mono fun c hc =>
      ⟨c, (mem_insert hfresh).mpr (.inl hc), rfl, rfl⟩
  | touchClaims =>
    intro a ha hact hex hnot
    exact (hs a ha hact hex hnot).claims_mono fun c hc => mem_touchClaims_of_mem hc
  | handOff source dest wanted now hdest howners hfree => exact handOff_custody hs hfree
  | deleteClaims p hterms => exact deleteClaims_custody hs (hterms ht)
  | insertItem row now hid hfresh =>
    intro a ha hact hex hnot
    exact (hs a ha hact hex hnot).items_mono fun i hi =>
      ⟨i, (mem_insert hfresh).mpr (.inl hi), rfl, rfl⟩
  | claimItem | noteItem | startItem =>
    intro a ha hact hex hnot
    exact (hs a ha hact hex hnot).items_mono fun i hi => mem_updateItems_of_mem hi
  | settleItem i close drop p f status now hp hlive hf hst hclose hdrop hshared =>
    exact settleItem_custody ht hp.1 hshared hs
  | book i a now hi hitem hid hfresh hact hlive howner hkey hpool hqty hcap hconf =>
    exact book_custody hs hi hitem hfresh hconf
  | unbook => exact unbook_custody hs
  | killAllocation i a now hi ha hitem hshared hact =>
    exact killAllocation_custody ht hi ha hitem hshared hact hs
  | observePool | putTarget => simpa [GuardedExcept] using hs
  | _ => exact hs

lemma Changes.custody {t : Terms} (h : Changes u t s s') (ht : t.custodial)
    (hs : GuardedExcept t.exempt s) : GuardedExcept t.exempt s' := by
  induction h with
  | refl => exact hs
  | tail _ hstep ih => exact hstep.custody ht ih

end Replicant.Workflow
