import Replicant.Workflow.BookingRuns

/-!
# Capacity of the pools

An allocation call judges its candidates by the stored pools, so that no pool it books from is
overbooked afterwards. A replacement judges a candidate by the quantity that the candidate carries,
while the stored pool keeps its own row against an observation that is not newer: whether the pool is
overbooked is told in advance by `Op.HasRoom`.
-/

namespace Replicant.Workflow

open Lib Table Repo

variable {now : ℤ} {w : WorkflowId}

/-- The stored pool covers what is active of it. -/
def Repo.PoolFits (s : Repo) (poolKey : String) : Prop :=
  ∃ p ∈ s.pools, p.poolKey = poolKey ∧ s.activeQuantity poolKey ≤ p.availableQuantity

/-- Every pool that got an allocation between `s` and `s'` covers what is active of it. -/
def InsertedFit (s s' : Repo) : Prop :=
  ∀ a ∈ s'.allocations, s.allocations.hasKey a.id = false → s'.PoolFits a.poolKey

instance (s : Repo) (poolKey : String) : Decidable (s.PoolFits poolKey) :=
  inferInstanceAs (Decidable (∃ p ∈ s.pools, _ ∧ _))

instance (s s' : Repo) : Decidable (InsertedFit s s') :=
  inferInstanceAs (Decidable (∀ a ∈ s'.allocations, _ → _))

/-! ## Allocation calls -/

variable {a : AllocationRow} {itemId : WorkItemId} {cs : List AllocationCandidate}
  {affinities : Affinities} {u : IdSource}

section Allocation

variable {t : Terms} {s x y : Repo}

lemma InsertedFit.of_hasKey (h : ∀ a ∈ x.allocations, s.allocations.hasKey a.id = true) :
    InsertedFit s x := by
  intro a ha hfresh
  rw [h a ha] at hfresh
  cases hfresh

/-- Pools that stay as they are fit as long as no more is active of them. -/
lemma InsertedFit.mono (h : InsertedFit s x) (hpools : y.pools = x.pools)
    (hrows : ∀ b ∈ y.allocations, ∃ a ∈ x.allocations, a.id = b.id ∧ a.poolKey = b.poolKey)
    (hle : ∀ k, y.activeQuantity k ≤ x.activeQuantity k) : InsertedFit s y := by
  intro b hb hfresh
  obtain ⟨a, ha, hid, hkey⟩ := hrows b hb
  obtain ⟨p, hp, hpkey, hfits⟩ := h a ha (hid ▸ hfresh)
  rw [hkey] at hpkey hfits
  exact ⟨p, hpools ▸ hp, hpkey, (hle b.poolKey).trans hfits⟩

lemma InsertedFit.setAllocations (h : InsertedFit s x) {p : AllocationRow → Bool}
    {state : AllocationState} (hrows : y.allocations = (x.setAllocations p state now).allocations)
    (hstate : state ≠ .active) (hpools : y.pools = x.pools) : InsertedFit s y := by
  refine h.mono hpools (fun b hb => ?_) fun k => ?_
  · rw [hrows] at hb
    obtain ⟨a, ha, rfl⟩ := List.mem_map.mp hb
    refine ⟨a, ha, ?_⟩
    split <;> exact ⟨rfl, rfl⟩
  · have hsame : y.activeQuantity k = (x.setAllocations p state now).activeQuantity k := by
      rw [activeQuantity, hrows, activeQuantity]
    rw [hsame]
    exact activeQuantity_setAllocations_le hstate k

/-- A booking within the stored pool leaves it fitting, and the other pools untouched. -/
lemma InsertedFit.book (h : InsertedFit s x) (hfresh : x.allocations.hasKey a.id = false)
    (hact : a.state = .active) (hfits : ∃ p ∈ x.pools, p.poolKey = a.poolKey ∧
      x.activeQuantity a.poolKey + a.quantity ≤ p.availableQuantity) :
    InsertedFit s (x.book a w now) := by
  have hqty := activeQuantity_book w now hfresh hact
  have hpools : (x.book a w now).pools = x.pools := by simp
  have hself : (x.book a w now).PoolFits a.poolKey := by
    obtain ⟨p, hp, hkey, hle⟩ := hfits
    refine ⟨p, hpools ▸ hp, hkey, ?_⟩
    rw [hqty, if_pos rfl]
    exact hle
  intro b hb hnew
  by_cases hk : a.poolKey = b.poolKey
  · exact hk ▸ hself
  · have hold : b ∈ x.allocations := by
      rw [Repo.book, claimFor_frame] at hb
      rcases (mem_insert hfresh).mp hb with hold | hsame
      · exact hold
      · exact absurd (congrArg AllocationRow.poolKey hsame.symm) hk
    obtain ⟨p, hp, hkey, hle⟩ := h b hold hnew
    refine ⟨p, hpools ▸ hp, hkey, ?_⟩
    rw [hqty, if_neg hk]
    exact hle

/-- Where nothing is offered, a booking is within the stored pool, and no pool changes. -/
lemma Change.insertedFit (h : Change u t x y) (hoffered : ∀ c, ¬ t.offered c)
    (hx : InsertedFit s x) : InsertedFit s y := by
  cases h with
  | endWorkflow w p f hf now =>
    have hrows : ((x.updateWorkflows p f hf).releaseWorkflow w.id now).allocations =
        (x.setAllocations _ .released now).allocations := rfl
    exact hx.setAllocations hrows (by decide) rfl
  | pruneWorkflow =>
    refine hx.mono rfl (fun b hb => ⟨b, (mem_delete.mp hb).1, rfl, rfl⟩) fun k => ?_
    exact sumWhere_delete_le x.allocations _ _ _
  | settleItem i close drop p f status now =>
    have hpools := (x.settleItem_fields i close drop p f now).2.2.2.1
    cases drop with
    | false =>
      refine hx.mono hpools (fun b hb => ?_) (activeQuantity_settleItem_le ·)
      rw [settleItem_allocations] at hb
      exact ⟨b, hb, rfl, rfl⟩
    | true =>
      have hrows : (x.settleItem i close true p f now).allocations =
          (x.setAllocations (fun a => a.itemId = i.id && a.state = .active)
            .released now).allocations := settleItem_allocations ..
      exact hx.setAllocations hrows (by decide) hpools
  | observePool c identity quantity merge hmerge hkey hoffer =>
    exact absurd hoffer (hoffered c)
  | book i a now hi hitem hid hfresh hact hlive howner hkey hpool hqty hcap =>
    refine hx.book hfresh hact ?_
    obtain ⟨available, hle, ⟨p, hp, hpkey, rfl⟩ | ⟨c, hoffer, -⟩⟩ := hcap
    · exact ⟨p, hp, hpkey, hle⟩
    · exact absurd hoffer (hoffered c)
  | unbook i a now =>
    have hrows : (x.unbook a i.spec.workflowId now).allocations = (x.setAllocations
        (fun b => b.id = a.id && b.state = .active) .released now).allocations := by rw [unbook_frame]
    exact hx.setAllocations hrows (by decide) (by simp)
  | killAllocation i a now =>
    have hrows : (x.killAllocation a i.spec.workflowId now).allocations =
        (x.setAllocations (fun b => b.id = a.id) .dead now).allocations := by
      rw [killAllocation_frame]
    exact hx.setAllocations hrows (by decide) (by simp)
  | putTarget workflowId target now =>
    rw [upsertTarget_frame]
    exact hx.mono rfl (fun b hb => ⟨b, hb, rfl, rfl⟩) fun _ => le_rfl
  | _ =>
    exact hx.mono rfl (fun b hb => ⟨b, hb, rfl, rfl⟩) fun _ => le_rfl

lemma Changes.insertedFit (h : Changes u t x y) (hoffered : ∀ c, ¬ t.offered c)
    (hx : InsertedFit s x) : InsertedFit s y := by
  induction h with
  | refl => exact hx
  | tail _ hstep ih => exact hstep.insertedFit hoffered ih

/-- Terms under which nothing is offered. -/
def Terms.unoffered : Terms := ⟨False, fun _ => False, fun _ => False⟩

lemma allocateRequirementsWithPolicy_fits {revision : ℕ} {ignored : List String}
    {set : AllocationSet}
    (h : allocateRequirementsWithPolicy u itemId revision cs affinities ignored s =
      .ok (set, y)) : InsertedFit s y := by
  obtain ⟨s₁, -, hkeys, hbooks⟩ :=
    allocateRequirementsWithPolicy_phases (t := Terms.free) (fun _ _ => trivial) h
  have hstart : InsertedFit s s₁ :=
    .of_hasKey fun a ha => (hkeys a.id).symm.trans (hasKey_eq_true.mpr ⟨a, ha, rfl⟩)
  exact (hbooks .unoffered).changes.insertedFit (fun _ hbad => hbad) hstart

end Allocation

/-! ## Replacements -/

def CandidateVerdict.isAdmitted : CandidateVerdict → Bool
  | .admitted _ => true
  | _ => false

/-- The replacement's checks admit the candidate. -/
def Repo.admitsReplacement (s : Repo) (ctx : AllocationContext) (allocations : AllocationSet)
    (requirement : ResourceRequirement) (dead : ResourceIdentity) (quantity : ℕ)
    (candidate : AllocationCandidate) : Bool :=
  match s.judgeReplacement ctx allocations requirement dead quantity candidate with
  | .ok verdict => verdict.isAdmitted
  | .error _ => false

/-- The candidate's pool is not stored, or stored with an older observation, or its stored
row covers the quantity beside what is active. -/
def Repo.HasRoomFor (s : Repo) (candidate : AllocationCandidate) (quantity : ℕ) : Prop :=
  ∀ p ∈ s.pools, p.poolKey = candidate.resource.json →
    p.observedRevision < candidate.observedRevision ∨
      s.activeQuantity candidate.resource.json + quantity ≤ p.availableQuantity

/-- The first candidate in sort order that a replacement's checks admit, if there is one, has
room in its pool. Both are judged in the state that has the allocation marked dead. -/
def Repo.ReplacementHasRoom (s : Repo) (itemId : WorkItemId) (allocationId : AllocationId)
    (candidates : List AllocationCandidate) (now : ℤ) (affinities : Affinities) : Prop :=
  ∀ item ∈ s.items, item.id = itemId → ∀ dead ∈ s.allocations, dead.id = allocationId →
    ∀ requirements ∈ item.spec.requirementsJson.decoded,
      ∀ requirement ∈ requirements.find? (fun r => r.key = dead.requirementKey),
        ∀ candidate ∈ (orderCandidates candidates).find?
            ((s.killAllocation dead item.spec.workflowId now).admitsReplacement
              (replacementContext item requirements candidates affinities)
              ((s.killAllocation dead item.spec.workflowId now).listActiveAllocations itemId)
              requirement dead.resource dead.quantity),
          (s.killAllocation dead item.spec.workflowId now).HasRoomFor candidate dead.quantity

/-- The calls that insert allocations. -/
def Op.allocates : Op → Bool
  | .allocateRequirementsWithPolicy .. | .replaceDeadAllocationWithAffinity .. => true
  | _ => false

/-- A replacement has room; nothing is asked of other calls. -/
def Op.HasRoom (s : Repo) : Op → Prop
  | .replaceDeadAllocationWithAffinity item allocation candidates now affinities =>
    s.ReplacementHasRoom item allocation candidates now affinities
  | _ => True

instance (s : Repo) (candidate : AllocationCandidate) (quantity : ℕ) :
    Decidable (s.HasRoomFor candidate quantity) :=
  inferInstanceAs (Decidable (∀ p ∈ s.pools, _ → _ ∨ _))

instance (s : Repo) (itemId : WorkItemId) (allocationId : AllocationId)
    (candidates : List AllocationCandidate) (now : ℤ) (affinities : Affinities) :
    Decidable (s.ReplacementHasRoom itemId allocationId candidates now affinities) := by
  unfold Repo.ReplacementHasRoom
  infer_instance

section Replacement

variable {s s' : Repo}

/-- The loop finds the first candidate that is admitted. -/
lemma findReplacement_first {judge : AllocationCandidate → Except RepositoryError CandidateVerdict}
    (cs : List AllocationCandidate) {owned : Bool}
    {found : Bool × Option (AllocationCandidate × ResourceIdentity)}
    (h : findReplacement judge cs owned = .ok found) : (cs.find? fun c => match judge c with
      | .ok verdict => verdict.isAdmitted | .error _ => false) = found.2.map Prod.fst := by
  induction cs generalizing owned with
  | nil =>
    cases h
    rfl
  | cons c cs ih =>
    rw [findReplacement] at h
    rw [List.find?_cons]
    cases hjudge : judge c with
    | error =>
      rw [hjudge] at h
      cases h
    | ok verdict =>
      rw [hjudge] at h
      cases verdict with
      | admitted =>
        cases h
        rfl
      | _ => exact ih h

/-- After an observation that itself covers `n`, the stored pool covers `n` unless an
observation that is not older kept its smaller quantity. -/
lemma upsertPool_covers_iff {n : ℕ} (seen : PoolRow) (merge : PoolRow → PoolRow)
    (hmerge : ∀ p, (merge p).poolKey = p.poolKey)
    (hwrites : ∀ p, (merge p).availableQuantity = seen.availableQuantity)
    (hseen : n ≤ seen.availableQuantity) : (∃ p ∈ (s.upsertPool seen merge hmerge).pools,
        p.poolKey = seen.poolKey ∧ n ≤ p.availableQuantity) ↔
      ∀ p ∈ s.pools, p.poolKey = seen.poolKey →
        p.observedRevision < seen.observedRevision ∨ n ≤ p.availableQuantity := by
  unfold upsertPool
  cases hfind : s.pools.find? seen.poolKey with
  | none =>
    have habsent := find?_eq_none.mp hfind
    have hfresh : s.pools.hasKey seen.poolKey = false := hasKey_eq_false.mpr habsent
    constructor
    · intro _ p hp hkey
      exact absurd hkey (habsent p hp)
    · intro _
      exact ⟨seen, (mem_insert hfresh).mpr (.inr rfl), rfl, hseen⟩
  | some stored =>
    obtain ⟨hstored, hkey⟩ := find?_eq_some.mp hfind
    have honly : ∀ p ∈ s.pools, p.poolKey = seen.poolKey → p = stored :=
      fun p hp hpkey => eq_of_key hp hstored (hpkey.trans hkey.symm)
    by_cases hnewer : stored.observedRevision < seen.observedRevision
    · simp only [if_pos hnewer]
      constructor
      · intro _ p hp hpkey
        rw [honly p hp hpkey]
        exact .inl hnewer
      · intro _
        refine ⟨merge stored, ?_, (hmerge stored).trans hkey, hwrites stored ▸ hseen⟩
        rw [updatePool, mem_update]
        exact ⟨stored, hstored, if_pos (decide_eq_true hkey)⟩
    · simp only [if_neg hnewer]
      constructor
      · rintro ⟨p, hp, hpkey, hle⟩ q hq hqkey
        rw [honly q hq hqkey, ← honly p hp hpkey]
        exact .inr hle
      · intro hroom
        rcases hroom stored hstored hkey with hbad | hle
        · exact absurd hbad hnewer
        · exact ⟨stored, hstored, hkey, hle⟩

/-- A fresh booking fits if and only if the stored pool has room for it. -/
lemma insertedFit_book_iff (w : WorkflowId) (now : ℤ)
    (hfresh : s.allocations.hasKey a.id = false) (hact : a.state = .active) :
    InsertedFit s (s.book a w now) ↔ ∃ p ∈ s.pools, p.poolKey = a.poolKey ∧
      s.activeQuantity a.poolKey + a.quantity ≤ p.availableQuantity := by
  have hstart : InsertedFit s s := .of_hasKey fun b hb => hasKey_eq_true.mpr ⟨b, hb, rfl⟩
  refine ⟨fun hfits => ?_, hstart.book hfresh hact⟩
  have hqty := activeQuantity_book w now hfresh hact a.poolKey
  rw [if_pos rfl] at hqty
  have hmem : a ∈ (s.book a w now).allocations := by
    rw [book, claimFor_frame]
    exact (mem_insert hfresh).mpr (.inr rfl)
  obtain ⟨p, hp, hkey, hle⟩ := hfits a hmem hfresh
  rw [hqty] at hle
  rw [book, claimFor_frame] at hp
  exact ⟨p, hp, hkey, hle⟩

/-- Only the identifiers of the state before matter. -/
lemma InsertedFit.congr {x : Repo}
    (hkeys : ∀ id, x.allocations.hasKey id = s.allocations.hasKey id) :
    InsertedFit x s' ↔ InsertedFit s s' := by
  constructor
  · exact fun h a ha hfresh => h a ha ((hkeys a.id).trans hfresh)
  · exact fun h a ha hfresh => h a ha ((hkeys a.id).symm.trans hfresh)

variable {dead : AllocationRow} {outcome : ReplacementOutcome}

/-- The booking of a replacement overbooks its pool unless there was room. -/
lemma bookReplacement_fits_iff {c : AllocationCandidate} {identity : ResourceIdentity}
    (hcapacity : s.activeQuantity c.resource.json + dead.quantity ≤ c.cappedQuantity)
    (h : bookReplacement u w dead now c identity s = .ok (outcome, s')) :
    InsertedFit s s' ↔ s.HasRoomFor c dead.quantity := by
  obtain ⟨a, -, -, hkey, -, haq, hact, -, hfresh, rfl⟩ := bookReplacement_spec h
  have hcovers := upsertPool_covers_iff (s := s) (c.poolRow identity c.cappedQuantity)
    (c.poolRow identity c.cappedQuantity).observeQuantity (fun _ => rfl) (fun _ => rfl) hcapacity
  refine Iff.trans ?_ hcovers
  erw [upsertPool_frame]
  generalize Repo.pools _ = pools
  generalize Repo.intelligenceRevision _ = revision
  -- The observation inserts no allocation, so that it may stand for the state before.
  have hbooked := insertedFit_book_iff
    (s := { s with pools := pools, intelligenceRevision := revision }) w now hfresh hact
  rw [hkey, haq] at hbooked
  exact hbooked

lemma killAllocation_hasKey (id : AllocationId) :
    (s.killAllocation dead w now).allocations.hasKey id = s.allocations.hasKey id := by
  rw [killAllocation_frame, setAllocations, hasKey_update]

lemma transitionWorkItemIn_fits {i : WorkItem} {transition : WorkItemTransition}
    {x : Unit} (hi : i ∈ s.items) (h : transitionWorkItemIn i transition now s = .ok (x, s')) :
    InsertedFit s s' := by
  obtain ⟨p, f, status, -, -, -, hkind⟩ := transitionWorkItemIn_spec hi h
  have hkeys : ∀ id, s'.allocations.hasKey id = s.allocations.hasKey id := by
    intro id
    rcases hkind with ⟨-, -, rfl⟩ | ⟨close, drop, -, -, -, -, rfl⟩
    · rfl
    · rw [settleItem_allocations]
      cases drop with
      | false => rfl
      | true =>
        rw [if_pos rfl, releaseAllocationsOf, setAllocations, hasKey_update]
        rfl
  exact .of_hasKey fun a ha => (hkeys a.id).symm.trans (hasKey_eq_true.mpr ⟨a, ha, rfl⟩)

lemma replaceDeadAllocationWithAffinity_fits_iff {allocationId : AllocationId}
    (h : replaceDeadAllocationWithAffinity u itemId allocationId cs now affinities s =
      .ok (outcome, s')) :
    InsertedFit s s' ↔ s.ReplacementHasRoom itemId allocationId cs now affinities := by
  obtain ⟨i, hi, rfl, dead, hdead, rfl, hitem, hact, requirements, hdecd, requirement, hfind,
    found, hsearch, hreplaced⟩ := replaceDeadAllocationWithAffinity_spec h
  -- The row, the allocation and the requirement of the call are the only ones there are.
  have hroom : s.ReplacementHasRoom i.id dead.id cs now affinities ↔
      ∀ candidate ∈ found.2.map Prod.fst,
        (s.killAllocation dead i.spec.workflowId now).HasRoomFor candidate dead.quantity := by
    rw [← findReplacement_first _ hsearch]
    constructor
    · intro h
      exact h i hi rfl dead hdead rfl requirements hdecd requirement hfind
    · intro h j hj hjd b hb hbd requirements' hdecd' requirement' hfind'
      obtain rfl := eq_of_key hj hi hjd
      obtain rfl := eq_of_key hb hdead hbd
      obtain rfl := Option.some.inj (hdecd'.symm.trans hdecd)
      obtain rfl := Option.some.inj (hfind'.symm.trans hfind)
      exact h
  rw [hroom, ← InsertedFit.congr killAllocation_hasKey]
  cases hreplaced with
  | booked c identity hbook =>
    obtain ⟨-, hjudge⟩ := findReplacement_some _ hsearch
    obtain ⟨-, hcapacity, -⟩ := judgeReplacement_admitted hjudge
    rw [bookReplacement_fits_iff hcapacity hbook]
    simp
  | waiting hsame =>
    rw [hsame]
    exact iff_of_true (.of_hasKey fun b hb => hasKey_eq_true.mpr ⟨b, hb, rfl⟩) (by simp)
  | failed x htrans =>
    have hitems : (s.killAllocation dead i.spec.workflowId now).items = s.items := by simp
    exact iff_of_true (transitionWorkItemIn_fits (hitems ▸ hi) htrans) (by simp)

end Replacement

/-! ## Calls -/

/-- From any state, a successful allocation or replacement leaves the pools it books from
within their capacity if and only if there was room: always for an allocation, and for a
replacement as its candidate and the stored pool say. -/
theorem insertedFit_iff (u : IdSource) (s : Repo) (op : Op) (hop : op.allocates = true)
    (hok : op.error? u s = none) : InsertedFit s (step u s op) ↔ op.HasRoom s := by
  have hstep : transaction u op s = .ok ((), step u s op) := by
    unfold Op.error? at hok
    unfold step Lib.Tx.commit
    cases h : transaction u op s with
    | ok => rfl
    | error =>
      rw [h] at hok
      cases hok
  cases op with
  | allocateRequirementsWithPolicy =>
    obtain ⟨set, h⟩ := Tx.void_eq_ok hstep
    exact iff_of_true (allocateRequirementsWithPolicy_fits h) trivial
  | replaceDeadAllocationWithAffinity =>
    obtain ⟨outcome, h⟩ := Tx.void_eq_ok hstep
    exact replaceDeadAllocationWithAffinity_fits_iff h
  | _ => cases hop

namespace Scenario

/-- Two items that need fuel. The first books the only unit of tank T1, observed at
revision 5; the second books from tank T2. -/
def fuelled : List Op :=
  [.createWithParentClaims workflow [] 1,
   .reconcileWorkItems 0 [item 0 "a" [needs "f" "fuel"], item 0 "b" [needs "f" "fuel"]] 1,
   .allocateRequirementsWithPolicy 1 0 [offer (.namespaced "tank" "T1") "fuel" 1 5] [] [],
   .allocateRequirementsWithPolicy 2 0 [offer (.namespaced "tank" "T2") "fuel" 1 1] [] []]

/-- The second item's tank is lost and an observation of T1 with two units is offered. -/
def refuel (revision : ℕ) : Op :=
  .replaceDeadAllocationWithAffinity 2 4 [offer (.namespaced "tank" "T1") "fuel" 2 revision] 2 []

end Scenario

/-- A newer observation of T1 has room for both items. -/
theorem insertedFit_iff_refuel : (Scenario.refuel 6).HasRoom (run .counting Scenario.fuelled) ∧
      InsertedFit (run .counting Scenario.fuelled)
        (step .counting (run .counting Scenario.fuelled) (Scenario.refuel 6)) := by
  have hroom : (run .counting Scenario.fuelled).ReplacementHasRoom 2 4
      [Scenario.offer (.namespaced "tank" "T1") "fuel" 2 6] 2 [] := by decide
  exact ⟨hroom, (insertedFit_iff .counting (run .counting Scenario.fuelled) (Scenario.refuel 6)
    (by decide) (by decide)).mpr hroom⟩

/-- An older observation of T1 is judged by its own two units while the stored pool keeps
one: the replacement succeeds and overbooks it. -/
theorem overbooked_refuel :
    (Scenario.refuel 4).error? .counting (run .counting Scenario.fuelled) = none ∧
      ¬ InsertedFit (run .counting Scenario.fuelled)
        (step .counting (run .counting Scenario.fuelled) (Scenario.refuel 4)) := by
  decide

end Replicant.Workflow
