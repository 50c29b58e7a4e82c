import Replicant.Workflow.CustodyRuns

/-!
# Bookings of exclusive resources

The active quantity of a pool grows only by a booking within the capacity that the call saw. When
every offer of an exclusive resource is of one unit, no identity is booked twice and no claim is
shared: every active allocation stays in custody, and two allocations of one physical resource belong
to one workflow.
-/

namespace Replicant.Workflow

open Lib Table ResourceKey

/-! ## Active quantities -/

variable {u : IdSource}

section ActiveQuantity

variable {t : Terms} {s s' : Repo} {now : ℤ}

/-- Allocations that get another state than `active` leave the pool. -/
lemma activeQuantity_setAllocations_le {p : AllocationRow → Bool} {state : AllocationState}
    (hstate : state ≠ .active) (k : String) :
    (s.setAllocations p state now).activeQuantity k ≤ s.activeQuantity k := by
  refine sumWhere_update_le _ _
    (g := fun a : AllocationRow => { a with state := state, updatedAtMs := now })
    (fun _ => rfl) fun a _ => ?_
  have hgone : (decide (a.poolKey = k) && decide (state = .active)) = false := by simp [hstate]
  show (if (decide (a.poolKey = k) && decide (state = .active)) = true then _ else 0) ≤ _
  rw [hgone, if_neg Bool.false_ne_true]
  exact Nat.zero_le _

lemma activeQuantity_settleItem_le {i : WorkItem}
    {close : Option (WorkItemAttemptOutcome × Option String)} {drop : Bool} {p : WorkItem → Bool}
    {f : WorkItemState → WorkItemState} (k : String) :
    (s.settleItem i close drop p f now).activeQuantity k ≤ s.activeQuantity k := by
  have hsame : (s.settleItem i close drop p f now).activeQuantity k =
      (if drop then s.setAllocations (fun a => a.itemId = i.id && a.state = .active) .released now
        else s).activeQuantity k := by
    unfold Repo.activeQuantity
    rw [Repo.settleItem_allocations]
    cases drop <;> rfl
  rw [hsame]
  split
  · exact activeQuantity_setAllocations_le (by decide) k
  · exact le_rfl

/-- The booking adds its quantity to its pool and to no other. -/
lemma activeQuantity_book {a : AllocationRow} (w : WorkflowId) (now : ℤ)
    (hfresh : s.allocations.hasKey a.id = false) (hact : a.state = .active) (k : String) :
    (s.book a w now).activeQuantity k =
      s.activeQuantity k + if a.poolKey = k then a.quantity else 0 := by
  rw [Repo.book, Repo.claimFor_frame]
  show (s.allocations.insert a).sumWhere _ _ = _
  rw [sumWhere_insert _ _ hfresh]
  simp [Repo.activeQuantity, hact]

/-- The active quantity of a pool grows only by a booking that has capacity. -/
lemma Change.activeQuantity (h : Change u t s s') (k : String) :
    s'.activeQuantity k ≤ s.activeQuantity k ∨
      ∃ a, HasCapacity t s a ∧ a.poolKey = k ∧ a.poolKey = a.resource.resource.json ∧
        s'.activeQuantity k = s.activeQuantity k + a.quantity := by
  cases h with
  | endWorkflow =>
    exact .inl (activeQuantity_setAllocations_le (by decide) k)
  | pruneWorkflow =>
    exact .inl (sumWhere_delete_le s.allocations _ _ _)
  | settleItem =>
    exact .inl (activeQuantity_settleItem_le k)
  | observePool c identity quantity merge hmerge hkey =>
    rw [Repo.upsertPool_frame]
    exact .inl le_rfl
  | book i a now hi hitem hid hfresh hact hlive howner hkey hpool hqty hcap =>
    rw [activeQuantity_book _ _ hfresh hact]
    by_cases hk : a.poolKey = k
    · exact .inr ⟨a, hcap, hk, hkey, by rw [if_pos hk]⟩
    · rw [if_neg hk]
      exact .inl le_rfl
  | unbook i a now =>
    rw [Repo.unbook_frame]
    exact .inl (activeQuantity_setAllocations_le (by decide) k)
  | killAllocation i a now =>
    rw [Repo.killAllocation_frame]
    exact .inl (activeQuantity_setAllocations_le (by decide) k)
  | putTarget workflowId target now =>
    rw [Repo.upsertTarget_frame]
    exact .inl le_rfl
  | _ =>
    exact .inl le_rfl

end ActiveQuantity

/-! ## Exclusive pools -/

def ResourceKey.isExclusive : ResourceKey → Bool
  | .namespaced _ _ => false
  | _ => true

/-- The first letter of the kind a resource is written with. -/
def ResourceKey.kindLetter : ResourceKey → Char
  | .replicant _ => 'r'
  | .device _ => 'd'
  | .autofactory _ => 'a'
  | .namespaced _ _ => 'n'

lemma ResourceKey.json_kindLetter (r : ResourceKey) : r.json.toList[9]? = some r.kindLetter := by
  unfold json kindLetter
  cases r <;> simp [String.toList_append]

/-- The pool key tells whether the resource is exclusive. -/
lemma ResourceKey.isExclusive_of_json {r r' : ResourceKey} (h : r.json = r'.json) :
    r.isExclusive = r'.isExclusive := by
  have hletter : r.kindLetter = r'.kindLetter := by
    have hget := json_kindLetter r
    rw [h, json_kindLetter, Option.some.injEq] at hget
    exact hget.symm
  cases r <;> cases r' <;> simp_all [isExclusive, kindLetter]

lemma ResourceIdentity.isExclusive_resource (r : ResourceIdentity) :
    r.resource.isExclusive = r.ns.isExclusive := by
  obtain ⟨ns, key⟩ := r
  cases ns <;> rfl

/-- An exclusive resource is offered with exactly one unit. -/
def AllocationCandidate.IsUnit (c : AllocationCandidate) : Prop :=
  c.resource.isExclusive = true → c.availableQuantity = 1

instance (c : AllocationCandidate) : Decidable c.IsUnit :=
  inferInstanceAs (Decidable (_ → _))

/-- The pools of exclusive resources have at most one unit, which is booked at most once. -/
structure UnitBooked (s : Repo) : Prop where
  pool : ∀ p ∈ s.pools, ∀ r : ResourceKey, r.isExclusive = true → p.poolKey = r.json →
    p.availableQuantity ≤ 1
  active : ∀ r : ResourceKey, r.isExclusive = true → s.activeQuantity r.json ≤ 1

/-- The terms of unit offers, with nobody exempt. -/
def Terms.unit (custodial : Prop) : Terms :=
  ⟨custodial, fun _ => False, AllocationCandidate.IsUnit⟩

section Unit

variable {custodial : Prop} {s s' : Repo} {merge : PoolRow → PoolRow}

/-- The rows of the pools after an observation: the old ones, and the one that was seen,
alone or merged into the old one. -/
lemma mem_upsertPool {seen : PoolRow} {hmerge : ∀ p, (merge p).poolKey = p.poolKey} {x : PoolRow}
    (hx : x ∈ (s.upsertPool seen merge hmerge).pools) :
    x ∈ s.pools ∨ x = seen ∨ ∃ p ∈ s.pools, p.poolKey = seen.poolKey ∧ x = merge p := by
  unfold Repo.upsertPool at hx
  cases hfind : s.pools.find? seen.poolKey with
  | none =>
    rw [hfind] at hx
    have hfresh : s.pools.hasKey seen.poolKey = false :=
      hasKey_eq_false.mpr (find?_eq_none.mp hfind)
    rcases (mem_insert hfresh).mp hx with hx | hx
    · exact .inl hx
    · exact .inr (.inl hx)
  | some stored =>
    rw [hfind] at hx
    simp only at hx
    split at hx
    · rw [Repo.updatePool, mem_update] at hx
      obtain ⟨p, hp, rfl⟩ := hx
      split
      · next hkey => exact .inr (.inr ⟨p, hp, by simpa using hkey, rfl⟩)
      · exact .inl hp
    · exact .inl hx

/-- An observation of a unit offer leaves exclusive pools at one unit. -/
lemma observePool_unit {c : AllocationCandidate} {identity : ResourceIdentity} {quantity : ℕ}
    (hmerge : merge = (c.poolRow identity quantity).observe ∨
      merge = (c.poolRow identity quantity).observeQuantity)
    (hkey : ∀ p, (merge p).poolKey = p.poolKey) (hoffered : c.IsUnit)
    (hqty : quantity ≤ c.availableQuantity) (hs : UnitBooked s) :
    ∀ p ∈ (s.upsertPool (c.poolRow identity quantity) merge hkey).pools, ∀ r : ResourceKey,
      r.isExclusive = true → p.poolKey = r.json → p.availableQuantity ≤ 1 := by
  have hseen : ∀ r : ResourceKey, r.isExclusive = true → c.resource.json = r.json →
      quantity ≤ 1 := by
    intro r hr hjson
    rw [← hoffered ((isExclusive_of_json hjson).trans hr)]
    exact hqty
  intro p hp r hr hpk
  rcases mem_upsertPool hp with hp | rfl | ⟨old, hold, hsame, rfl⟩
  · exact hs.pool p hp r hr hpk
  · exact hseen r hr hpk
  · rw [hkey, hsame] at hpk
    have hle := hseen r hr hpk
    rcases hmerge with rfl | rfl <;> exact hle

lemma Change.unit (h : Change u (Terms.unit custodial) s s') (hs : UnitBooked s) :
    UnitBooked s' := by
  have hact : ∀ r : ResourceKey, r.isExclusive = true → s'.activeQuantity r.json ≤ 1 := by
    intro r hr
    rcases h.activeQuantity r.json with hle | ⟨a, ⟨available, hcap, hsrc⟩, hk, hkey, hsum⟩
    · exact hle.trans (hs.active r hr)
    · rw [hk] at hcap
      rw [hsum]
      refine hcap.trans ?_
      rcases hsrc with ⟨p, hp, hpk, rfl⟩ | ⟨c, hunit, hparts, hle⟩
      · exact hs.pool p hp r hr (hpk.trans hk)
      · have hres := resource_of_persistedParts hparts
        have hex : c.resource.isExclusive = true := by
          rw [← hres, isExclusive_of_json (hkey.symm.trans hk), hr]
        have hone : c.availableQuantity = 1 := hunit hex
        omega
  refine ⟨?_, hact⟩
  cases h with
  | observePool c identity quantity merge hmerge hkey hoffered hident hqty =>
    exact observePool_unit hmerge hkey hoffered hqty hs
  | settleItem | book | unbook | killAllocation | putTarget => simpa using hs.pool
  | _ => exact hs.pool

lemma Changes.unit (h : Changes u (Terms.unit custodial) s s') (hs : UnitBooked s) :
    UnitBooked s' := by
  induction h with
  | refl => exact hs
  | tail _ hstep ih => exact hstep.unit ih

/-- Two active allocations of one exclusive identity are one allocation. -/
lemma UnitBooked.eq_of_resource (hs : UnitBooked s) (hinv : Inv u s) {a b : AllocationRow}
    (ha : a ∈ s.allocations) (hb : b ∈ s.allocations) (hact : a.state = .active)
    (hbactive : b.state = .active) (hex : a.resource.ns.isExclusive = true)
    (hsame : a.resource = b.resource) : a = b := by
  by_contra hne
  obtain ⟨hqa, hka, -⟩ := hinv.allocations.pool a ha
  obtain ⟨hqb, hkb, -⟩ := hinv.allocations.pool b hb
  have hsum : a.quantity + b.quantity ≤ s.activeQuantity a.resource.resource.json := by
    refine add_le_sumWhere ha hb ?_ ?_ hne
    · simp [hka, hact]
    · simp [hkb, hbactive, hsame]
  have hunit : s.activeQuantity a.resource.resource.json ≤ 1 :=
    hs.active _ ((ResourceIdentity.isExclusive_resource _).trans hex)
  omega

/-- Then no claim is shared, whatever is given up. -/
lemma UnitBooked.unshared (hs : UnitBooked s) (hinv : Inv u s) (t : Terms)
    (released : AllocationRow → Prop) : Unshared t s released := by
  intro _ a ha hact hrel b hb hbactive hbrel hshare
  refine absurd ?_ hbrel
  rw [← hs.eq_of_resource hinv ha hb hact hbactive hshare.2.1 hshare.1]
  exact hrel

end Unit

/-! ## Runs -/

/-- The candidate lists of the calls. -/
def Op.candidates : Op → List AllocationCandidate
  | .allocateRequirementsWithPolicy _ _ candidates _ _ => candidates
  | .replaceDeadAllocationWithAffinity _ _ candidates _ _ => candidates
  | _ => []

/-- No exclusive identity is booked twice. -/
def BookedOnce (s : Repo) : Prop :=
  ∀ a ∈ s.allocations, ∀ b ∈ s.allocations, a.state = .active → b.state = .active →
    a.resource.ns.isExclusive = true → a.resource = b.resource → a = b

/-- No physical resource is booked by two workflows. -/
def BookedByOne (s : Repo) : Prop :=
  ∀ a ∈ s.allocations, ∀ b ∈ s.allocations, a.state = .active → b.state = .active →
    a.resource.ns.isExclusive = true → PhysicallyEqual a.resource b.resource →
      ∃ i ∈ s.items, ∃ j ∈ s.items, i.id = a.itemId ∧ j.id = b.itemId ∧
        i.spec.workflowId = j.spec.workflowId

/-- No two active allocations name one physical exclusive resource. -/
def NoDoubleBooking (s : Repo) : Prop :=
  ∀ a ∈ s.allocations, ∀ b ∈ s.allocations, a.state = .active → b.state = .active →
    a.resource.ns.isExclusive = true → PhysicallyEqual a.resource b.resource → a = b

/-- The call releases no claim, at the caller's request, that an allocation leans on. -/
def Op.SparesNeeded (s : Repo) (op : Op) : Prop :=
  ∀ c ∈ s.claims, op.givesUpClaim c = true → s.isNeeded c = false

instance (s : Repo) : Decidable (NoDoubleBooking s) :=
  inferInstanceAs (Decidable (∀ a ∈ s.allocations, ∀ b ∈ s.allocations, _ → _ → _ → _ → _))

instance (s : Repo) : Decidable (BookedByOne s) :=
  inferInstanceAs (Decidable (∀ a ∈ s.allocations, ∀ b ∈ s.allocations, _ → _ → _ → _ →
    ∃ i ∈ s.items, ∃ j ∈ s.items, _ ∧ _ ∧ _))

instance (s : Repo) (op : Op) : Decidable (op.SparesNeeded s) :=
  inferInstanceAs (Decidable (∀ c ∈ s.claims, _ → _))

section Runs

variable {s : Repo} {op : Op}

lemma UnitBooked.admits (hs : UnitBooked s) (hinv : Inv u s) {custodial : Prop}
    (hunit : ∀ c ∈ op.candidates, c.IsUnit) (hspare : custodial → op.SparesNeeded s) :
    (Terms.unit custodial).Admits s op := by
  cases op with
  | releaseClaim =>
    exact fun hcust c hc hw hr => hspare hcust c hc (by simp [Op.givesUpClaim, hw, hr])
  | releaseClaims =>
    exact fun hcust c hc hw => hspare hcust c hc (by simp [Op.givesUpClaim, hw])
  | transitionWorkItem => exact fun _ => hs.unshared hinv _ _
  | reconcileOrphanedWorkItems => exact fun _ _ => hs.unshared hinv _ _
  | allocateRequirementsWithPolicy => exact hunit
  | replaceDeadAllocationWithAffinity =>
    exact ⟨hunit, hs.unshared hinv _ _, fun _ => hs.unshared hinv _ _⟩
  | _ => trivial

lemma UnitBooked.bookedOnce (hs : UnitBooked s) (hinv : Inv u s) : BookedOnce s :=
  fun _ ha _ hb hact hbactive hex hsame =>
    hs.eq_of_resource hinv ha hb hact hbactive hex hsame

/-- In custody, the claims decide: they are exclusive. -/
lemma Custody.bookedByOne (hs : Custody s) (hinv : Inv u s) : BookedByOne s := by
  intro a ha b hb hact hbactive hex hphys
  obtain ⟨i, hi, hid, c, hc, hcr, hcw⟩ := hs a ha hact hex
  obtain ⟨j, hj, hjd, d, hd, hdr, hdw⟩ := hs b hb hbactive (hphys.isExclusive ▸ hex)
  refine ⟨i, hi, j, hj, hid, hjd, ?_⟩
  rw [← hcw, ← hdw]
  exact hinv.claims.exclusive c hc d hd (by rw [hcr, hdr]; exact hphys)

lemma step_unit_custody (hs : UnitBooked s) (hinv : Inv u s) (hcustody : Custody s)
    (hunit : ∀ c ∈ op.candidates, c.IsUnit) (hspare : op.SparesNeeded s) :
    Custody (step u s op) := by
  have hchanges := step_refines (t := Terms.unit True) hinv (hs.admits hinv hunit fun _ => hspare)
  have hexcept := hchanges.custody trivial fun a ha hact hex _ => hcustody a ha hact hex
  exact fun a ha hact hex => hexcept a ha hact hex fun hbad => hbad

lemma step_unit (hs : UnitBooked s) (hinv : Inv u s) (hunit : ∀ c ∈ op.candidates, c.IsUnit) :
    UnitBooked (step u s op) := by
  have hchanges : Changes u (Terms.unit False) s (step u s op) :=
    step_refines hinv (hs.admits hinv hunit fun hbad => hbad.elim)
  exact hchanges.unit hs

end Runs

/-- In a run whose candidate lists offer exclusive resources with one unit, no exclusive
identity is booked twice; and if no call releases a claim at the caller's request that an
active allocation leans on, no physical resource is booked by two workflows. -/
theorem run_bookedOnce (u : IdSource) (ops : List Op)
    (hunit : ∀ op ∈ ops, ∀ c ∈ op.candidates, c.IsUnit) :
    BookedOnce (run u ops) ∧ (AllSteps (step u) (fun s op => op.SparesNeeded s) Repo.empty ops →
        BookedByOne (run u ops)) := by
  have hoffers : AllSteps (step u) (fun _ op => ∀ c ∈ op.candidates, c.IsUnit) Repo.empty ops :=
    .of_forall (fun op hop _ => hunit op hop) _
  have hempty : UnitBooked Repo.empty :=
    ⟨forall_mem_empty, fun _ _ => Nat.zero_le 1⟩
  have hbooked : Inv u (run u ops) ∧ UnitBooked (run u ops) :=
    hoffers.foldl (P := fun s => Inv u s ∧ UnitBooked s) ⟨Inv.empty u, hempty⟩
      fun s op hs hop => ⟨step_inv u hs.1 op, step_unit hs.2 hs.1 hop⟩
  refine ⟨hbooked.2.bookedOnce hbooked.1, fun hspares => ?_⟩
  have hcustody : (Inv u (run u ops) ∧ UnitBooked (run u ops)) ∧ Custody (run u ops) :=
    (hoffers.and hspares).foldl (P := fun s => (Inv u s ∧ UnitBooked s) ∧ Custody s)
      ⟨⟨Inv.empty u, hempty⟩, forall_mem_empty⟩
      fun s op hs hop => ⟨⟨step_inv u hs.1.1 op, step_unit hs.1.2 hs.1.1 hop.1⟩,
        step_unit_custody hs.1.2 hs.1.1 hs.2 hop.1 hop.2⟩
  exact hcustody.2.bookedByOne hbooked.1

theorem run_bookedOnce_ownDrones :
    (∃ a ∈ (run .counting Scenario.ownDrones).allocations, a.state = .active) ∧
      BookedOnce (run .counting Scenario.ownDrones) ∧
        BookedByOne (run .counting Scenario.ownDrones) :=
  ⟨by decide, (run_bookedOnce .counting Scenario.ownDrones (by decide)).1,
    (run_bookedOnce .counting Scenario.ownDrones (by decide)).2 (by decide)⟩

namespace Scenario

/-- The offers of an autofactory: as a device and as an autofactory, with one unit each. -/
def factoryOffers : List AllocationCandidate :=
  [offer (.device "F1") "drone" 1 1, offer (.autofactory "F1") "factory" 1 1]

/-- One item asks for a device and for an autofactory. -/
def bothNames : List Op :=
  [.createWithParentClaims workflow [] 1,
   .reconcileWorkItems 0 [item 0 "a" [needs "d" "drone", needs "f" "factory"]] 1,
   .allocateRequirementsWithPolicy 1 0 factoryOffers [] []]

/-- A workflow books the machine as a device and releases its claim; then another books it
as an autofactory. -/
def releasedClaim : List Op :=
  [.createWithParentClaims workflow [] 1, .reconcileWorkItems 0 [item 0 "a" [needs "d" "drone"]] 1,
   .allocateRequirementsWithPolicy 1 0 factoryOffers [] [],
   .releaseClaim 0 (.device "F1"),
   .createWithParentClaims workflow [] 2,
   .reconcileWorkItems 3 [item 3 "b" [needs "f" "factory"]] 2,
   .allocateRequirementsWithPolicy 4 0 factoryOffers [] []]

end Scenario

/-- With unit offers a machine is still booked twice: by one workflow under two names, and
by two workflows after the first has released the claim of its booking. -/
theorem doubleBooking_aliases : ((∀ op ∈ Scenario.bothNames, ∀ c ∈ op.candidates, c.IsUnit) ∧
      ¬ NoDoubleBooking (run .counting Scenario.bothNames)) ∧
    (∀ op ∈ Scenario.releasedClaim, ∀ c ∈ op.candidates, c.IsUnit) ∧
      ¬ NoDoubleBooking (run .counting Scenario.releasedClaim) ∧
      ¬ BookedByOne (run .counting Scenario.releasedClaim) := by
  decide

end Replicant.Workflow
