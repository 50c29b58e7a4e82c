import Replicant.Workflow.CustodyTheorems

/-!
# Custody over whole runs

Which allocations a call gives up together with their claims, and the runs in which every
active allocation keeps its claim.
-/

namespace Replicant.Workflow

open Lib

/-! ## What a call gives up -/

/-- The calls that release claims at the caller's request. -/
def Op.releasesClaims : Op → Bool
  | .releaseClaim .. | .releaseClaims .. => true
  | _ => false

/-- The claims a call releases at the caller's request. -/
def Op.givesUpClaim : Op → ClaimRow → Bool
  | .releaseClaim w r, c => c.workflowId = w && c.resource.resource = r
  | .releaseClaims w, c => c.workflowId = w
  | _, _ => false

/-- The items that a call leaves without any active allocation. -/
def Op.empties (s : Repo) : Op → WorkItemId → Bool
  | .transitionWorkItem id _ transition _, itemId => transition.releases && itemId = id
  | .reconcileOrphanedWorkItems w _, itemId => (s.orphans w).any (·.id = itemId)
  | .replaceDeadAllocationWithAffinity id allocationId candidates _ _, itemId =>
    s.replacementFails id allocationId candidates && itemId = id
  | _, _ => false

/-- The allocations a call gives up together with their claims: those of the items it
empties, and the one it replaces. -/
def Op.givesUp (s : Repo) (op : Op) (a : AllocationRow) : Bool :=
  op.empties s a.itemId || match op with
    | .replaceDeadAllocationWithAffinity _ allocationId _ _ _ => a.id = allocationId
    | _ => false

/-- The call gives up no claim that an active allocation it does not give up leans on. -/
def Op.SparesClaims (s : Repo) (op : Op) : Prop :=
  (∀ c ∈ s.claims, op.givesUpClaim c = true → s.isNeeded c = false) ∧
    ∀ a ∈ s.allocations, a.state = .active → op.givesUp s a = true →
      ∀ b ∈ s.allocations, b.state = .active → op.givesUp s b = false → ¬ SharesClaim s a b

instance (s : Repo) (a b : AllocationRow) : Decidable (SharesClaim s a b) :=
  inferInstanceAs (Decidable (_ ∧ _ ∧ ∃ i ∈ s.items, ∃ j ∈ s.items, _ ∧ _ ∧ _))

instance (s : Repo) (op : Op) : Decidable (op.SparesClaims s) :=
  inferInstanceAs (Decidable ((∀ c ∈ s.claims, _ → _) ∧
    ∀ a ∈ s.allocations, _ → _ → ∀ b ∈ s.allocations, _ → _ → _))

instance (s : Repo) : Decidable (Custody s) :=
  inferInstanceAs (Decidable (∀ a ∈ s.allocations, _ → _ →
    ∃ i ∈ s.items, _ ∧ ∃ c ∈ s.claims, _ ∧ _))

/-! ## Steps -/

/-- Custodial terms for one call: the items that it empties are exempt while it runs. -/
def Op.terms (s : Repo) (op : Op) : Terms :=
  ⟨True, fun itemId => op.empties s itemId = true, fun _ => True⟩

section Steps

variable {u : IdSource} {s s' : Repo} {op : Op}

/-- An allocation that shares a claim with one the call gives up is given up too, so the
allocations of `released` are unshared but for the items that the call empties. -/
lemma Op.SparesClaims.unshared (h : op.SparesClaims s) {released : AllocationRow → Prop}
    (hgives : ∀ a, released a → op.givesUp s a = true)
    (hrest : ∀ a ∈ s.allocations, op.givesUp s a = true → ¬ released a →
      op.empties s a.itemId = true) : Unshared (op.terms s) s released := by
  intro _ a ha hact hrel b hb hbactive hbrel hshare
  by_contra hkept
  have hb' : op.givesUp s b = false := by
    rw [Bool.eq_false_iff]
    exact fun hgiven => hkept (hrest b hb hgiven hbrel)
  exact h.2 a ha hact (hgives a hrel) b hb hbactive hb' hshare

lemma Op.SparesClaims.admits (h : op.SparesClaims s) : (op.terms s).Admits s op := by
  cases op with
  | releaseClaim => exact fun _ c hc hw hr => h.1 c hc (by simp [Op.givesUpClaim, hw, hr])
  | releaseClaims => exact fun _ c hc hw => h.1 c hc (by simp [Op.givesUpClaim, hw])
  | transitionWorkItem id revision transition now =>
    intro hreleases
    refine h.unshared (fun a ha => ?_) fun a _ hgiven hne => absurd ?_ hne
    · simp [Op.givesUp, Op.empties, hreleases, ha]
    · simpa [Op.givesUp, Op.empties, hreleases] using hgiven
  | reconcileOrphanedWorkItems w now =>
    intro i hi
    refine h.unshared (fun a ha => ?_) fun a _ hgiven _ => by simpa [Op.givesUp] using hgiven
    have horphan : (s.orphans w).any (·.id = a.itemId) = true :=
      List.any_eq_true.mpr ⟨i, hi, by simp [ha]⟩
    simp [Op.givesUp, Op.empties, horphan]
  | allocateRequirementsWithPolicy =>
    exact fun _ _ => trivial
  | replaceDeadAllocationWithAffinity item allocation candidates now affinities =>
    refine ⟨fun _ _ => trivial, ?_, fun hfails => ?_⟩
    · refine h.unshared (fun a ha => by simp [Op.givesUp, ha]) fun a _ hgiven hne => ?_
      simpa [Op.givesUp, hne] using hgiven
    · refine h.unshared (fun a ha => ?_) fun a hmem hgiven hne => absurd ?_ hne
      · simp [Op.givesUp, Op.empties, hfails, ha]
      · -- The failing replacement names an allocation of the item itself.
        simp only [Op.givesUp, Op.empties, hfails, Bool.true_and, Bool.or_eq_true,
          decide_eq_true_eq] at hgiven
        rcases hgiven with hgiven | hgiven
        · exact hgiven
        · rw [Repo.replacementFails, Option.any_eq_true] at hfails
          obtain ⟨i, -, hfails⟩ := hfails
          rw [Option.any_eq_true] at hfails
          obtain ⟨dead, hdead, hfails⟩ := hfails
          obtain ⟨hdeadMem, hdeadId⟩ := Table.find?_eq_some.mp hdead
          rw [Bool.and_eq_true, decide_eq_true_eq] at hfails
          rw [Table.eq_of_key hmem hdeadMem (hgiven.trans hdeadId.symm)]
          exact hfails.1
  | _ => trivial

/-- The items that a successful call empties have no active allocation left. -/
lemma emptied_of_ok {x : Unit} (hs : Inv u s) (hspare : op.SparesClaims s)
    (h : transaction u op s = .ok (x, s')) :
    ∀ a ∈ s'.allocations, a.state = .active → op.empties s a.itemId = false := by
  have hadmits := hspare.admits
  intro a ha hact
  rw [Bool.eq_false_iff]
  intro hempty
  cases op with
  | transitionWorkItem =>
    simp only [Op.empties, Bool.and_eq_true, decide_eq_true_eq] at hempty
    obtain ⟨_, h⟩ := Tx.void_eq_ok h
    exact (transitionWorkItem_refines (u := u) hadmits h).2 hempty.1 a ha hact hempty.2
  | reconcileOrphanedWorkItems =>
    obtain ⟨i, hi, hid⟩ := List.any_eq_true.mp hempty
    rw [decide_eq_true_eq] at hid
    obtain ⟨_, h⟩ := Tx.void_eq_ok h
    exact ((reconcileOrphanedWorkItems_refines (u := u) hadmits h).2 a ha hact).2 i hi hid.symm
  | replaceDeadAllocationWithAffinity =>
    simp only [Op.empties, Bool.and_eq_true, decide_eq_true_eq] at hempty
    obtain ⟨_, h⟩ := Tx.void_eq_ok h
    exact (replaceDeadAllocationWithAffinity_refines hs hadmits.1 hadmits.2.1 hadmits.2.2 h).2
      hempty.1 a ha hact hempty.2
  | _ => cases hempty

lemma step_custody (hs : Inv u s) (hcust : Custody s) (hspare : op.SparesClaims s) :
    Custody (step u s op) := by
  rcases Lib.Tx.commit_cases (transaction u op) s with ⟨x, h⟩ | h
  · have hchanges := transaction_refines hs hspare.admits h
    have hexcept := hchanges.custody trivial fun a ha hact hex _ => hcust a ha hact hex
    intro a ha hact hex
    refine hexcept a ha hact hex ?_
    show ¬ op.empties s a.itemId = true
    rw [emptied_of_ok hs hspare h a ha hact]
    exact Bool.false_ne_true
  · rw [step, h]
    exact hcust

end Steps

/-! ## Runs -/

/-- A run whose calls give up no claim that an allocation they keep leans on keeps every
active allocation in custody. -/
theorem run_custody (u : IdSource) (ops : List Op)
    (h : AllSteps (step u) (fun s op => op.SparesClaims s) Repo.empty ops) :
    Custody (run u ops) := by
  have hstart : Inv u Repo.empty ∧ Custody Repo.empty :=
    ⟨Inv.empty u, Table.forall_mem_empty⟩
  exact (h.foldl (P := fun s => Inv u s ∧ Custody s) hstart fun s op hs hop =>
    ⟨step_inv u hs.1 op, step_custody hs.1 hs.2 hop⟩).2

/-! ## Runs on fixed inputs -/

namespace Scenario

def workflow : NewWorkflow := ⟨"survey", 1, "null", "null", none, none⟩

/-- One unit of a resource of the kind, anywhere. -/
def needs (key kind : String) : ResourceRequirement := ⟨key, kind, [], .anywhere, 1, 1⟩

def item (owner : WorkflowId) (key : String) (requirements : List ResourceRequirement) :
    WorkItemSpec :=
  ⟨owner, key, "visit", key, "null", ⟨"[]", []⟩, ⟨"[]", some requirements⟩, none⟩

def offer (resource : ResourceKey) (kind : String) (quantity revision : ℕ) :
    AllocationCandidate :=
  ⟨resource, kind, [], none, quantity, revision, 1⟩

/-- Two items of one workflow that each get a drone from the offers made to them; then the
first is skipped. -/
def skipOneOfTwo (first second : AllocationCandidate) : List Op :=
  [.createWithParentClaims workflow [] 1,
   .reconcileWorkItems 0 [item 0 "a" [needs "d" "drone"], item 0 "b" [needs "d" "drone"]] 1,
   .allocateRequirementsWithPolicy 1 0 [first] [] [],
   .allocateRequirementsWithPolicy 2 0 [second] [] [],
   .transitionWorkItem 1 0 (.skipped "not needed" none) 2]

/-- Each item has a drone of its own. -/
def ownDrones : List Op :=
  skipOneOfTwo (offer (.device "D1") "drone" 1 1) (offer (.device "D2") "drone" 1 1)

/-- Both items share a drone that is offered with two units. -/
def sharedDrone : List Op :=
  skipOneOfTwo (offer (.device "D1") "drone" 2 1) (offer (.device "D1") "drone" 2 1)

end Scenario

theorem run_custody_ownDrones :
    (run .counting Scenario.ownDrones).claims.rows.map (·.resource) = [⟨.device, "D2"⟩] ∧
      Custody (run .counting Scenario.ownDrones) :=
  ⟨by decide, run_custody .counting Scenario.ownDrones (by decide)⟩

/-- Skipping one item takes the claim that the other item's allocation leans on. -/
theorem custody_lost_sharedDrone : (∀ op ∈ Scenario.sharedDrone, op.releasesClaims = false) ∧
      (∃ a ∈ (run .counting Scenario.sharedDrone).allocations,
        a.state = .active ∧ a.itemId = 2 ∧ a.resource = ⟨.device, "D1"⟩) ∧
      (run .counting Scenario.sharedDrone).claims.rows = [] ∧
      ¬ Custody (run .counting Scenario.sharedDrone) := by
  decide

end Replicant.Workflow
