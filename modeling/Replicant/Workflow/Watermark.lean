import Mathlib.Data.Prod.Lex
import Mathlib.Data.String.Basic
import Replicant.Workflow.CustodyRuns
import Replicant.Workflow.History

/-!
# The intelligence revision as a watermark

While the revision stays the same, the allocations and the targets stay as they are, and so does what
a reservation shows of a pool (`Tracked`). The reservations are then the same too: an active
allocation has an item and a workflow that are not terminal. But a workflow that ends takes its
targets from the list without a new revision.
-/

namespace Replicant.Workflow

open Lib List Table Repo TargetRow

/-- The columns of a pool that a reservation shows. -/
def PoolRow.SameDescription (p p' : PoolRow) : Prop :=
  p'.poolKey = p.poolKey ∧ p'.kind = p.kind ∧ p'.capabilities = p.capabilities ∧
    p'.location = p.location

/-- What the projections read is the same in both states. -/
structure SameShown (s s' : Repo) : Prop where
  allocations : s'.allocations = s.allocations
  targets : s'.targets = s.targets
  pools : ∀ p ∈ s.pools, (∃ a ∈ s.allocations, a.poolKey = p.poolKey ∧ a.state = .active) →
    ∃ p' ∈ s'.pools, p.SameDescription p'

/-- The revision does not fall, and does not stay when something shown changes. -/
structure Tracked (s s' : Repo) : Prop where
  le : s.intelligenceRevision ≤ s'.intelligenceRevision
  same : s'.intelligenceRevision = s.intelligenceRevision → SameShown s s'

namespace Tracked

variable {s s' s'' : Repo}

/-- Where neither pools nor the shown tables change, nothing shown does. -/
lemma of_eq (hrev : s'.intelligenceRevision = s.intelligenceRevision)
    (hallocs : s'.allocations = s.allocations) (htargets : s'.targets = s.targets)
    (hpools : s'.pools = s.pools) : Tracked s s' where
  le := hrev.ge
  same _ := ⟨hallocs, htargets, fun p hp _ => ⟨p, hpools ▸ hp, rfl, rfl, rfl, rfl⟩⟩

lemma refl (s : Repo) : Tracked s s := of_eq rfl rfl rfl rfl

lemma trans (h : Tracked s s') (h' : Tracked s' s'') : Tracked s s'' where
  le := h.le.trans h'.le
  same hrev := by
    have hle := h.le
    have hle' := h'.le
    have hfirst := h.same (by omega)
    have hsecond := h'.same (by omega)
    refine ⟨hsecond.allocations.trans hfirst.allocations,
      hsecond.targets.trans hfirst.targets, fun p hp hused => ?_⟩
    obtain ⟨p', hp', hkey', hkind', hcap', hloc'⟩ := hfirst.pools p hp hused
    have hused' : ∃ a ∈ s'.allocations, a.poolKey = p'.poolKey ∧ a.state = .active := by
      rw [hfirst.allocations, hkey']
      exact hused
    obtain ⟨p'', hp'', hkey, hkind, hcap, hloc⟩ := hsecond.pools p' hp' hused'
    exact ⟨p'', hp'', hkey.trans hkey', hkind.trans hkind', hcap.trans hcap', hloc.trans hloc'⟩

/-! ## Statements -/

/-- Every row that an update of the allocations selects is counted. -/
lemma setAllocations {p : AllocationRow → Bool} {state : AllocationState} {now : ℤ}
    (hallocs : s'.allocations = (s.setAllocations p state now).allocations)
    (hrev : s'.intelligenceRevision = (s.setAllocations p state now).intelligenceRevision)
    (htargets : s'.targets = s.targets) (hpools : s'.pools = s.pools) : Tracked s s' where
  le := hrev ▸ Nat.le_add_right _ _
  same hsame := by
    have hnone : s.allocations.rows.countP p = 0 := by
      have hcount : s.intelligenceRevision + s.allocations.rows.countP p =
          s.intelligenceRevision := hrev.symm.trans hsame
      omega
    have hnot : ∀ a ∈ s.allocations, p a = false :=
      fun a ha => Bool.eq_false_iff.mpr (countP_eq_zero.mp hnone a ha)
    have hkept : (s.setAllocations p state now).allocations = s.allocations := by
      rw [Repo.setAllocations, update_eq_self hnot]
    exact ⟨hallocs.trans hkept, htargets, fun p hp _ => ⟨p, hpools ▸ hp, rfl, rfl, rfl, rfl⟩⟩

lemma updateTargets (p : TargetRow → Bool) (f : TargetRow → TargetRow)
    (hf : ∀ t, (f t).identity = t.identity) : Tracked s (s.updateTargets p f hf) where
  le := Nat.le_add_right _ _
  same hsame := by
    have hnone : s.targets.rows.countP p = 0 := by
      have hcount : s.intelligenceRevision + s.targets.rows.countP p =
          s.intelligenceRevision := hsame
      omega
    have hnot : ∀ t ∈ s.targets, p t = false :=
      fun t ht => Bool.eq_false_iff.mpr (countP_eq_zero.mp hnone t ht)
    have hkept : (s.updateTargets p f hf).targets = s.targets := by
      rw [Repo.updateTargets, update_eq_self hnot]
    exact ⟨rfl, hkept, fun p hp _ => ⟨p, hp, rfl, rfl, rfl, rfl⟩⟩

lemma upsertTarget (w : WorkflowId) (target : WorkflowTarget) (now : ℤ) :
    Tracked s (s.upsertTarget w target now) := by
  unfold Repo.upsertTarget
  simp only
  split
  · refine ⟨Nat.le_succ _, fun hsame => absurd hsame ?_⟩
    show s.intelligenceRevision + 1 ≠ s.intelligenceRevision
    omega
  · split
    · exact updateTargets _ _ _
    · exact refl s

/-- An observation is counted when it changes the description of a pool in use. -/
lemma upsertPool (seen : PoolRow) (merge : PoolRow → PoolRow)
    (hmerge : ∀ p, (merge p).poolKey = p.poolKey) : Tracked s (s.upsertPool seen merge hmerge) := by
  unfold Repo.upsertPool
  cases hfind : s.pools.find? seen.poolKey with
  | none =>
    have hfresh : s.pools.hasKey seen.poolKey = false :=
      hasKey_eq_false.mpr (find?_eq_none.mp hfind)
    refine ⟨le_rfl, fun _ => ⟨rfl, rfl, fun p hp _ => ⟨p, ?_, rfl, rfl, rfl, rfl⟩⟩⟩
    exact (mem_insert hfresh).mpr (.inl hp)
  | some =>
    simp only
    split
    · refine ⟨Nat.le_add_right _ _, fun hsame => ⟨rfl, rfl, fun p hp hused => ?_⟩⟩
      have hnone := Nat.add_eq_left.mp hsame
      have hkept := countP_eq_zero.mp hnone p hp
      have hact : (s.allocations.rows.any fun a => a.poolKey = p.poolKey && a.state = .active) =
          true := by
        obtain ⟨a, ha, hkey, hstate⟩ := hused
        exact any_eq_true.mpr ⟨a, ha, by simp [hkey, hstate]⟩
      refine ⟨if p.poolKey = seen.poolKey then merge p else p, ?_, ?_⟩
      · rw [updatePool, mem_update]
        exact ⟨p, hp, by simp⟩
      · by_cases hkey : p.poolKey = seen.poolKey
        · rw [if_pos hkey]
          simp only [hkey ▸ hact, hkey, decide_true, Bool.true_and, Bool.or_eq_true,
            decide_eq_true_eq, not_or, not_not] at hkept
          exact ⟨hmerge p, hkept.1.1.symm, hkept.1.2.symm, hkept.2.symm⟩
        · rw [if_neg hkey]
          exact ⟨rfl, rfl, rfl, rfl⟩
    · exact refl s

/-- Everything that goes with a workflow is counted. -/
lemma deleteWorkflow (id : WorkflowId) : Tracked s (s.deleteWorkflow id) where
  le := (Nat.le_add_right _ _).trans (Nat.le_add_right _ _)
  same hsame := by
    have hcount : s.intelligenceRevision +
        s.allocations.rows.countP (fun a => s.ownsItem id a.itemId) +
        s.targets.rows.countP (fun t => t.workflowId = id) = s.intelligenceRevision := hsame
    have hallocs : s.allocations.rows.countP (fun a => s.ownsItem id a.itemId) = 0 := by omega
    have htargets : s.targets.rows.countP (fun t => t.workflowId = id) = 0 := by omega
    exact ⟨delete_eq_self fun a ha =>
        Bool.eq_false_iff.mpr (countP_eq_zero.mp hallocs a ha),
      delete_eq_self fun t ht =>
        Bool.eq_false_iff.mpr (countP_eq_zero.mp htargets t ht),
      fun p hp _ => ⟨p, hp, rfl, rfl, rfl, rfl⟩⟩

end Tracked

/-! ## Changes and runs -/

lemma Change.tracked {u : IdSource} {t : Terms} {s s' : Repo} (h : Change u t s s') :
    Tracked s s' := by
  cases h with
  | endWorkflow w p f hf now =>
    have hrows : ((s.updateWorkflows p f hf).releaseWorkflow w.id now).allocations =
        (s.setAllocations _ .released now).allocations := rfl
    exact .setAllocations hrows rfl rfl rfl
  | pruneWorkflow w => exact .deleteWorkflow w.id
  | settleItem i close drop p f status now =>
    have hrows := s.settleItem_allocations i close drop p f now
    have hrev := s.settleItem_intelligenceRevision i close drop p f now
    obtain ⟨-, -, -, hpools, -, htargets, -⟩ := s.settleItem_fields i close drop p f now
    cases drop with
    | false => exact .of_eq hrev hrows htargets hpools
    | true => exact .setAllocations hrows hrev htargets hpools
  | observePool =>
    exact .upsertPool _ _ _
  | book i a now hi hitem hid hfresh hact hlive howner hkey hpool hqty hcap hconf =>
    have hrev : (s.book a i.spec.workflowId now).intelligenceRevision =
        s.intelligenceRevision + 1 := by rw [Repo.book, claimFor_frame]; rfl
    exact ⟨by omega, fun hsame => by omega⟩
  | unbook i a now =>
    rw [unbook_frame]
    have hrows : (s.setAllocations (fun x => x.id = a.id && x.state = .active)
      .released now).allocations = _ := rfl
    exact .setAllocations hrows rfl rfl rfl
  | killAllocation i a now =>
    rw [killAllocation_frame]
    have hrows : (s.setAllocations (fun x => x.id = a.id) .dead now).allocations = _ := rfl
    exact .setAllocations hrows rfl rfl rfl
  | putTarget workflowId target now => exact .upsertTarget workflowId target now
  | releaseTarget => exact .updateTargets _ _ _
  | _ =>
    exact .of_eq rfl rfl rfl rfl

lemma Changes.tracked {u : IdSource} {t : Terms} {s s' : Repo} (h : Changes u t s s') :
    Tracked s s' := by
  induction h with
  | refl => exact .refl s
  | tail _ hstep ih => exact ih.trans hstep.tracked

lemma run_tracked (u : IdSource) (ops ops' : List Op) :
    Tracked (run u ops) (run u (ops ++ ops')) := by
  rw [run_append]
  exact foldl_rel Tracked.refl (fun _ _ _ _ h h' => h.trans h') (fun s op hs => step_inv u hs op)
    (fun s op hs => (step_refines hs (Terms.free_admits s op)).tracked) (run_inv u ops) ops'

/-! ## Reservations -/

section Reservations

variable {u : IdSource} {s s' : Repo}

/-- An active allocation is shown: neither its item nor its workflow is terminal. -/
lemma reservationRow?_active (hs : Inv u s) {a : AllocationRow} (ha : a ∈ s.allocations)
    (hact : a.state = .active) :
    ∃ i ∈ s.items, i.id = a.itemId ∧ ∃ p ∈ s.pools, p.poolKey = a.poolKey ∧
      s.reservationRow? none a =
        some ⟨a, i.spec.workflowId, p.kind, p.capabilities, p.location⟩ := by
  obtain ⟨i, hi, hid, hstat⟩ := hs.allocations.item a ha
  obtain ⟨w, hw, hwid, hwstatus⟩ := hs.live_owner hi (hstat hact)
  obtain ⟨-, -, hpool⟩ := hs.allocations.pool a ha
  obtain ⟨p, hp, hpkey⟩ := hasKey_eq_true.mp hpool
  refine ⟨i, hi, hid, p, hp, hpkey, ?_⟩
  rw [reservationRow?, if_pos hact, find?_eq_some.mpr ⟨hi, hid⟩, Option.bind_some,
    find?_eq_some.mpr ⟨hw, hwid⟩, Option.bind_some, find?_eq_some.mpr ⟨hp, hpkey⟩,
    Option.bind_some, hstat hact, hwstatus]
  rfl

lemma SameShown.reservations (h : SameShown s s') (hstable : Stable u s s') (hs : Inv u s)
    (hs' : Inv u s') : s'.activeResourceReservations = s.activeResourceReservations := by
  have hrows : s'.allocations.rows.filterMap (s'.reservationRow? none) =
      s.allocations.rows.filterMap (s.reservationRow? none) := by
    rw [h.allocations]
    refine filterMap_congr fun a ha => ?_
    by_cases hact : a.state = .active
    · have ha' : a ∈ s'.allocations := by
        rw [h.allocations]
        exact ha
      obtain ⟨i, hi, hid, p, hp, hkey, hrow⟩ := reservationRow?_active hs ha hact
      obtain ⟨i', hi', hid', p', hp', hkey', hrow'⟩ := reservationRow?_active hs' ha' hact
      have hspec := (hstable.continues_item hs hi hi' (hid'.trans hid.symm)).2.1
      obtain ⟨q, hq, hqkey, hkind, hcap, hloc⟩ := h.pools p hp ⟨a, ha, hkey.symm, hact⟩
      have hsame : q = p' := eq_of_key hq hp' (by rw [hqkey, hkey, hkey'])
      rw [hrow, hrow', ← hsame, hkind, hcap, hloc, hspec]
    · rw [reservationRow?, reservationRow?, if_neg hact, if_neg hact]
  rw [activeResourceReservations, resourceReservationsIn, hrows]
  rfl

end Reservations

/-! ## Targets -/

/-- The workflow is there and not terminal. -/
def Repo.isLive (s : Repo) (id : WorkflowId) : Bool :=
  s.workflows.rows.any fun w => w.id = id && !w.status.isTerminal

def TargetRow.sortKey (t : TargetRow) : ℤᵒᵈ ×ₗ String ×ₗ String ×ₗ WorkflowId :=
  toLex (OrderDual.toDual t.updatedAtMs, toLex (t.targetKind, toLex (t.targetKey, t.workflowId)))

lemma TargetRow.listLe_iff {a b : TargetRow} : a.listLe b ↔ a.sortKey ≤ b.sortKey := by
  simp only [listLe, sortKey, Prod.Lex.le_iff, ofLex_toLex,
    OrderDual.toDual_lt_toDual, OrderDual.toDual_inj]

instance : Std.Total TargetRow.listLe :=
  ⟨fun a b => by simpa only [TargetRow.listLe_iff] using le_total a.sortKey b.sortKey⟩

instance : IsTrans TargetRow TargetRow.listLe :=
  ⟨fun a b c => by simpa only [TargetRow.listLe_iff] using le_trans⟩

lemma TargetRow.identity_of_listLe {a b : TargetRow} (hab : a.listLe b) (hba : b.listLe a) :
    a.identity = b.identity := by
  have hkey := le_antisymm (listLe_iff.mp hab) (listLe_iff.mp hba)
  simp only [sortKey, toLex_inj, Prod.mk.injEq] at hkey
  obtain ⟨-, hkind, hname, hworkflow⟩ := hkey
  simp only [identity, hkind, hname, hworkflow]

section Targets

variable {u : IdSource} {s s' : Repo}

lemma showsTarget_active (t : TargetRow) :
    s.showsTarget none true t = (t.active && s.isLive t.workflowId) := by
  cases hact : t.active <;> simp [showsTarget, isLive, hact]

/-- The workflow of a target that is not terminal later is not terminal before. -/
lemma isLive_of_later (hstable : Stable u s s') (hs : Inv u s) {t : TargetRow} (ht : t ∈ s.targets)
    (hlive : s'.isLive t.workflowId = true) : s.isLive t.workflowId = true := by
  obtain ⟨w, hw, hwid⟩ := hasKey_eq_true.mp (hs.targets t ht)
  obtain ⟨w', hw', hcond⟩ := any_eq_true.mp hlive
  simp only [Bool.and_eq_true, decide_eq_true_eq, Bool.not_eq_true'] at hcond
  obtain ⟨-, hkept⟩ := hstable.continues_workflow hs hw hw' (hcond.1.trans hwid.symm)
  refine any_eq_true.mpr ⟨w, hw, ?_⟩
  cases hterm : w.status.isTerminal with
  | false => simp [hwid]
  | true =>
    rw [hkept hterm, hterm] at hcond
    exact absurd hcond.2 (by decide)

lemma SameShown.targets_filter (h : SameShown s s') (hstable : Stable u s s') (hs : Inv u s) :
    s'.activeWorkflowTargets = s.activeWorkflowTargets.filter fun r => s'.isLive r.workflowId := by
  have hrows : s'.targets.rows.filter (s'.showsTarget none true) =
      s.targets.rows.filter fun t => s.showsTarget none true t && s'.isLive t.workflowId := by
    rw [h.targets]
    refine filter_congr fun t ht => ?_
    rw [showsTarget_active, showsTarget_active]
    cases hlive : s'.isLive t.workflowId with
    | false => rw [Bool.and_false, Bool.and_false]
    | true => rw [isLive_of_later hstable hs ht hlive, Bool.and_true, Bool.and_true]
  rw [activeWorkflowTargets, workflowTargetsIn, hrows,
    s.targets.insertionSort_filter_and fun _ _ => identity_of_listLe]
  rw [activeWorkflowTargets, workflowTargetsIn, filter_map]
  rfl

end Targets

/-! ## The watermark -/

/-- Two states of one run with the same revision show the same reservations, and the later
one shows the targets of the earlier one whose workflows have not ended. -/
theorem run_watermark (u : IdSource) (ops ops' : List Op)
    (hrev : (run u (ops ++ ops')).workflowIntelligenceRevision =
      (run u ops).workflowIntelligenceRevision) :
    (run u (ops ++ ops')).activeResourceReservations = (run u ops).activeResourceReservations ∧
      (run u (ops ++ ops')).activeWorkflowTargets =
        (run u ops).activeWorkflowTargets.filter fun r =>
          (run u (ops ++ ops')).isLive r.workflowId := by
  have hsame := (run_tracked u ops ops').same hrev
  have hstable := run_stable u ops ops'
  exact ⟨hsame.reservations hstable (run_inv u ops) (run_inv u (ops ++ ops')),
    hsame.targets_filter hstable (run_inv u ops)⟩

namespace Scenario

/-- A workflow that is about a system. -/
def targeted : List Op :=
  [.createWithParentClaims workflow [] 1, .recordWorkflowTargets 0 [.system "INASTI"] 1]

/-- The workflow gets a status. -/
def becomes (status : WorkflowStatus) : List Op :=
  [.updateWithWait 0 0 ⟨status, none, "null", none, none⟩ none 2]

end Scenario

/-- A workflow that starts keeps its revision and its target. -/
theorem run_watermark_started : (run .counting Scenario.targeted).activeWorkflowTargets ≠ [] ∧
      (run .counting (Scenario.targeted ++ Scenario.becomes .running)).activeWorkflowTargets =
        (run .counting Scenario.targeted).activeWorkflowTargets.filter fun r =>
          (run .counting (Scenario.targeted ++ Scenario.becomes .running)).isLive r.workflowId :=
  ⟨by decide, (run_watermark .counting Scenario.targeted (Scenario.becomes .running) (by decide)).2⟩

/-- A workflow that is cancelled takes its target from the list, and the revision stays. -/
theorem watermark_lost_cancelled :
    (run .counting (Scenario.targeted ++ Scenario.becomes .cancelled)).workflowIntelligenceRevision =
        (run .counting Scenario.targeted).workflowIntelligenceRevision ∧
      (run .counting (Scenario.targeted ++ Scenario.becomes .cancelled)).activeWorkflowTargets ≠
        (run .counting Scenario.targeted).activeWorkflowTargets := by
  decide

end Replicant.Workflow
