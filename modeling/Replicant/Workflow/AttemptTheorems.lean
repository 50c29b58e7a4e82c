import Replicant.Workflow.Invariant

/-!
# Changes keep the attempt and assignment books

An item runs exactly while one attempt of it is open, attempts are numbered without gaps,
and only claimed items have an assignment that is not released.
-/

namespace Replicant.Workflow

open Lib Table

variable {p : WorkItem → Bool} {f : WorkItemState → WorkItemState} {now : ℤ} {i : WorkItem}
  {s : Repo}

/-! ## Attempts -/

variable {keep : WorkItem → Bool} {items : ItemTable}

namespace AttemptsOk

variable {attempts : AttemptTable}

section

variable (h : AttemptsOk attempts items)

include h

variable {q : AttemptRow → Bool}

/-- An open attempt belongs to a running item. -/
lemma running_of_open {a : AttemptRow} (ha : a ∈ attempts) (hnone : a.endedAtMs = none)
    (hi : i ∈ items) (hid : i.id = a.itemId) : i.state.status = .running := by
  obtain ⟨x, hx, hxid, -, -, hrunn⟩ := h.item a ha
  have heq : i = x := eq_of_key hi hx (by rw [hid, hxid])
  rw [heq]
  exact hrunn hnone

section

variable (hcount : ∀ st, (f st).attemptCount = st.attemptCount)
  (hever : ∀ st, (f st).everStarted = st.everStarted)

include hcount hever

/-- Item states are rewritten while attempts end: an open attempt stays open exactly when
its item still runs afterwards, and no item starts to run. -/
lemma settle {g : AttemptRow → AttemptRow} (hgi : ∀ a, (g a).identity = a.identity)
    (hge : ∀ a, (g a).endedAtMs ≠ none)
    (hrun : ∀ i ∈ items, p i = true → (f i.state).status = .running → i.state.status = .running)
    (hclose : ∀ a ∈ attempts, a.endedAtMs = none → ∀ i ∈ items, i.id = a.itemId →
      ((if p i then f i.state else i.state).status = .running ↔ q a = false)) :
    AttemptsOk (attempts.update q g hgi) (setStates items p f) := by
  -- Each item afterwards has the columns the bookkeeping reads, status apart.
  have hcols : ∀ i : WorkItem, let i' := if p i then { i with state := f i.state } else i
      i'.id = i.id ∧ i'.state.attemptCount = i.state.attemptCount ∧
        i'.state.everStarted = i.state.everStarted ∧
        i'.state.status = (if p i then f i.state else i.state).status := by
    intro i
    split
    · exact ⟨rfl, hcount _, hever _, rfl⟩
    · exact ⟨rfl, rfl, rfl, rfl⟩
  have hids : ∀ a, (g a).itemId = a.itemId ∧ (g a).attemptOrdinal = a.attemptOrdinal := by
    intro a
    have := hgi a
    exact ⟨congrArg Prod.fst this, congrArg Prod.snd this⟩
  have hopen : ∀ a' ∈ attempts.update q g hgi, a'.endedAtMs = none →
      a' ∈ attempts ∧ q a' = false := by
    intro a' ha' hnone
    obtain ⟨a, ha, rfl⟩ := mem_update.mp ha'
    by_cases hq : q a = true
    · rw [if_pos hq] at hnone
      exact absurd hnone (hge a)
    · rw [if_neg hq]
      exact ⟨ha, Bool.eq_false_iff.mpr hq⟩
  constructor
  · intro a' ha'
    obtain ⟨a, ha, hmap⟩ := mem_update.mp ha'
    have hsame : a'.itemId = a.itemId ∧ a'.attemptOrdinal = a.attemptOrdinal := by
      rw [← hmap]
      split
      · exact hids a
      · exact ⟨rfl, rfl⟩
    obtain ⟨i, hi, hid, hlow, hhigh, -⟩ := h.item a ha
    obtain ⟨hid', hcount', -, hstat'⟩ := hcols i
    refine ⟨_, mem_update.mpr ⟨i, hi, rfl⟩, by rw [hid', hid, hsame.1], by rw [hsame.2]; exact hlow,
      by rw [hsame.2, hcount']; exact hhigh, fun hnone => ?_⟩
    obtain ⟨hmem, hq⟩ := hopen a' ha' hnone
    rw [hstat']
    exact (hclose a' hmem hnone i hi (by rw [hid, hsame.1])).mpr hq
  · intro i' hi' n hlow hhigh
    obtain ⟨i, hi, rfl⟩ := mem_update.mp hi'
    obtain ⟨hid, hcount', -, -⟩ := hcols i
    obtain ⟨a, ha, haid, hord⟩ := h.counted i hi n hlow (by rw [← hcount']; exact hhigh)
    refine ⟨_, mem_update.mpr ⟨a, ha, rfl⟩, ?_⟩
    split
    · exact ⟨by rw [(hids a).1, haid, hid], by rw [(hids a).2, hord]⟩
    · exact ⟨by rw [haid, hid], hord⟩
  · intro i' hi' hrunn
    obtain ⟨i, hi, rfl⟩ := mem_update.mp hi'
    obtain ⟨hid, -, -, hstat⟩ := hcols i
    rw [hstat] at hrunn
    have hbefore : i.state.status = .running := by
      by_cases hp : p i = true
      · rw [if_pos hp] at hrunn
        exact hrun i hi hp hrunn
      · rw [if_neg hp] at hrunn
        exact hrunn
    obtain ⟨a, ha, haid, hnone⟩ := h.running i hi hbefore
    have hq := (hclose a ha hnone i hi haid.symm).mp hrunn
    exact ⟨a, List.mem_map.mpr ⟨a, ha, by simp [hq]⟩, by rw [haid, hid], hnone⟩
  · intro a ha b hb han hbn
    exact h.single a (hopen a ha han).1 b (hopen b hb hbn).1 han hbn
  · intro i' hi'
    obtain ⟨i, hi, rfl⟩ := mem_update.mp hi'
    obtain ⟨-, hcount', hever', -⟩ := hcols i
    rw [hcount', hever']
    exact h.started i hi

/-- Item states are rewritten and no attempt ends: the running items stay the same. -/
lemma rewrite (hrun : ∀ i ∈ items, p i = true →
      ((f i.state).status = .running ↔ i.state.status = .running)) : AttemptsOk attempts
      (setStates items p f) := by
  have hsettle := h.settle (q := fun _ => false)
    (g := fun a => { a with endedAtMs := some 0 }) hcount hever (fun _ => rfl)
    nofun (fun i hi hp => (hrun i hi hp).mp) fun a ha hnone i hi hid => by
      have hwas := h.running_of_open ha hnone hi hid
      split
      · next hp => simp [(hrun i hi hp).mpr hwas]
      · simp [hwas]
  have hself : attempts.update (fun _ => false)
      (fun a => { a with endedAtMs := some 0 }) (fun _ => rfl) = attempts :=
    update_eq_self fun _ _ => rfl
  rw [hself] at hsettle
  exact hsettle

end

lemma insertItem {row : WorkItem} (hfresh : items.hasKey row.id = false)
    (hstate : row.state = .new now) : AttemptsOk attempts (items.insert row) := by
  constructor
  · intro a ha
    obtain ⟨i, hi, hrest⟩ := h.item a ha
    exact ⟨i, (mem_insert hfresh).mpr (.inl hi), hrest⟩
  · refine forall_mem_insert hfresh h.counted fun n hlow hhigh => ?_
    rw [hstate] at hhigh
    have : n ≤ 0 := hhigh
    omega
  · refine forall_mem_insert hfresh h.running fun hrun => ?_
    rw [hstate] at hrun
    cases hrun
  · exact h.single
  · refine forall_mem_insert hfresh h.started ?_
    rw [hstate]
    simp [WorkItemState.new]

/-- A start opens the next attempt of an item that had none open. -/
lemma start {row : AttemptRow} (hp : items.Selects p i) (hstat : i.state.status = .assigned)
    (hrow : row.itemId = i.id ∧ row.attemptOrdinal = i.state.attemptCount + 1 ∧
      row.endedAtMs = none) (hfresh : attempts.hasKey row.identity = false)
    (hf : (f i.state).status = .running ∧
      (f i.state).attemptCount = i.state.attemptCount + 1 ∧ (f i.state).everStarted = true) :
    AttemptsOk (attempts.insert row) (setStates items p f) := by
  have hkeep : ∀ a ∈ attempts, a ∈ attempts.insert row :=
    fun a ha => (mem_insert hfresh).mpr (.inl ha)
  have hnew : row ∈ attempts.insert row := (mem_insert hfresh).mpr (.inr rfl)
  -- The item was not running, so none of its attempts was open.
  have hclosed : ∀ a ∈ attempts, a.itemId = i.id → a.endedAtMs ≠ none := by
    intro a ha hid hnone
    rw [h.running_of_open ha hnone hp.1 hid.symm] at hstat
    cases hstat
  have hmem {x : WorkItem} := mem_update_of_selects (x := x)
    (f := fun i => { i with state := f i.state }) (fun _ => rfl) hp
  constructor
  · intro a ha
    rcases (mem_insert hfresh).mp ha with ham | rfl
    · obtain ⟨x, hx, hxid, hlow, hhigh, hrunn⟩ := h.item a ham
      by_cases hxi : x = i
      · refine ⟨_, hmem.mpr (.inr rfl), by rw [← hxid, hxi], hlow, ?_, fun _ => hf.1⟩
        rw [hxi] at hhigh
        show a.attemptOrdinal ≤ (f i.state).attemptCount
        omega
      · exact ⟨x, hmem.mpr (.inl ⟨hx, hxi⟩), hxid, hlow, hhigh, hrunn⟩
    · refine ⟨_, hmem.mpr (.inr rfl), hrow.1.symm, by omega, ?_, fun _ => hf.1⟩
      show a.attemptOrdinal ≤ (f i.state).attemptCount
      rw [hf.2.1, hrow.2.1]
  · intro x hx n hlow hhigh
    rcases hmem.mp hx with ⟨hxm, hxi⟩ | rfl
    · obtain ⟨a, ha, hrest⟩ := h.counted x hxm n hlow hhigh
      exact ⟨a, hkeep a ha, hrest⟩
    · have hle : n ≤ i.state.attemptCount + 1 := by
        rw [← hf.2.1]
        exact hhigh
      by_cases hlast : n = i.state.attemptCount + 1
      · exact ⟨row, hnew, hrow.1, by rw [hrow.2.1, hlast]⟩
      · obtain ⟨a, ha, hrest⟩ := h.counted i hp.1 n hlow (by omega)
        exact ⟨a, hkeep a ha, hrest⟩
  · intro x hx hrun
    rcases hmem.mp hx with ⟨hxm, hxi⟩ | rfl
    · obtain ⟨a, ha, hrest⟩ := h.running x hxm hrun
      exact ⟨a, hkeep a ha, hrest⟩
    · exact ⟨row, hnew, hrow.1, hrow.2.2⟩
  · intro a ha b hb han hbn hab
    rcases (mem_insert hfresh).mp ha with ham | har <;>
      rcases (mem_insert hfresh).mp hb with hbm | hbr
    · exact h.single a ham b hbm han hbn hab
    · exact absurd han (hclosed a ham (by rw [hab, hbr, hrow.1]))
    · exact absurd hbn (hclosed b hbm (by rw [← hab, har, hrow.1]))
    · rw [har, hbr]
  · intro x hx
    rcases hmem.mp hx with ⟨hxm, hxi⟩ | rfl
    · exact h.started x hxm
    · show (f i.state).everStarted = true ↔ 0 < (f i.state).attemptCount
      rw [hf.2.1, hf.2.2]
      simp

lemma prune (hq : ∀ a ∈ attempts, ∀ i ∈ items, i.id = a.itemId → q a = keep i) :
    AttemptsOk (attempts.delete q) (items.delete keep) := by
  constructor
  · intro a ha
    obtain ⟨ham, hqa⟩ := mem_delete.mp ha
    obtain ⟨i, hi, hid, hrest⟩ := h.item a ham
    exact ⟨i, mem_delete.mpr ⟨hi, by rw [← hq a ham i hi hid]; exact hqa⟩, hid, hrest⟩
  · intro i hi n hlow hhigh
    obtain ⟨him, hki⟩ := mem_delete.mp hi
    obtain ⟨a, ha, hid, hord⟩ := h.counted i him n hlow hhigh
    exact ⟨a, mem_delete.mpr ⟨ha, by rw [hq a ha i him hid.symm]; exact hki⟩, hid, hord⟩
  · intro i hi hrun
    obtain ⟨him, hki⟩ := mem_delete.mp hi
    obtain ⟨a, ha, hid, hnone⟩ := h.running i him hrun
    exact ⟨a, mem_delete.mpr ⟨ha, by rw [hq a ha i him hid.symm]; exact hki⟩, hid, hnone⟩
  · intro a ha b hb
    exact h.single a (mem_delete.mp ha).1 b (mem_delete.mp hb).1
  · intro i hi
    exact h.started i (mem_delete.mp hi).1

end

end AttemptsOk

/-! ## Rows that lean on an item -/

/-- Every row has an item, whose status is good while the row is open. -/
def LeansOnItems {ρ κ : Type} {key : ρ → κ} (itemOf : ρ → WorkItemId) (isOpen : ρ → Prop)
    (good : WorkItemStatus → Prop) (rows : Table ρ key) (items : ItemTable) : Prop :=
  ∀ a ∈ rows, ∃ i ∈ items, i.id = itemOf a ∧ (isOpen a → good i.state.status)

namespace LeansOnItems

variable {ρ κ : Type} {key : ρ → κ} {itemOf : ρ → WorkItemId} {isOpen : ρ → Prop}
  {good : WorkItemStatus → Prop} {rows : Table ρ key} {q : ρ → Bool}

section

variable (h : LeansOnItems itemOf isOpen good rows items)

include h

/-- Item states are rewritten: a good status that an open row leans on stays good. -/
lemma rewrite (hkeep : ∀ a ∈ rows, isOpen a → ∀ i ∈ items, i.id = itemOf a → p i = true →
      good i.state.status → good (f i.state).status) : LeansOnItems itemOf isOpen good rows
      (setStates items p f) := by
  intro a ha
  obtain ⟨i, hi, hid, hgood⟩ := h a ha
  refine ⟨_, mem_update.mpr ⟨i, hi, rfl⟩, ?_⟩
  split
  · next hp => exact ⟨hid, fun hopen => hkeep a ha hopen i hi hid hp (hgood hopen)⟩
  · exact ⟨hid, hgood⟩

/-- One item is rewritten: its status stays good. -/
lemma rewriteOne (hp : items.Selects p i) (hkeep : good i.state.status → good (f i.state).status) :
    LeansOnItems itemOf isOpen good rows (setStates items p f) := by
  refine h.rewrite fun _ _ _ x hx _ hpx hgood => ?_
  rw [(hp.2 x hx).mp hpx] at hgood ⊢
  exact hkeep hgood

variable {g : ρ → ρ}

section

variable (hgi : ∀ a, key (g a) = key a) (hg : ∀ a, itemOf (g a) = itemOf a ∧ ¬ isOpen (g a))

include hgi hg

lemma close : LeansOnItems itemOf isOpen good (rows.update q g hgi) items := by
  intro a' ha'
  obtain ⟨a, ha, rfl⟩ := mem_update.mp ha'
  obtain ⟨i, hi, hid, hgood⟩ := h a ha
  refine ⟨i, hi, ?_⟩
  split
  · exact ⟨hid.trans (hg a).1.symm, fun hopen => absurd hopen (hg a).2⟩
  · exact ⟨hid, hgood⟩

/-- Item states are rewritten while the rows that lean on them are closed. -/
lemma settle (hclose : ∀ a ∈ rows, isOpen a → ∀ i ∈ items, i.id = itemOf a → p i = true →
      q a = true) :
    LeansOnItems itemOf isOpen good (rows.update q g hgi) (setStates items p f) := by
  refine (h.close hgi hg).rewrite fun a' ha' hopen i hi hid hpi => ?_
  obtain ⟨a, ha, rfl⟩ := mem_update.mp ha'
  by_cases hq : q a = true
  · rw [if_pos hq] at hopen
    exact absurd hopen (hg a).2
  · rw [if_neg hq] at hopen hid
    exact absurd (hclose a ha hopen i hi hid hpi) hq

end

lemma items_mono {items' : ItemTable}
    (hkeep : ∀ i ∈ items, i ∈ items') : LeansOnItems itemOf isOpen good rows items' := by
  intro a ha
  obtain ⟨i, hi, hrest⟩ := h a ha
  exact ⟨i, hkeep i hi, hrest⟩

lemma prune (hq : ∀ a ∈ rows, ∀ i ∈ items, i.id = itemOf a → q a = keep i) :
    LeansOnItems itemOf isOpen good (rows.delete q) (items.delete keep) := by
  intro a ha
  obtain ⟨ham, hqa⟩ := mem_delete.mp ha
  obtain ⟨i, hi, hid, hrest⟩ := h a ham
  exact ⟨i, mem_delete.mpr ⟨hi, by rw [← hq a ham i hi hid]; exact hqa⟩, hid, hrest⟩

end

end LeansOnItems

lemma AssignmentsOk.leans {assignments : AssignmentTable} {items : ItemTable}
    (h : AssignmentsOk assignments items) : LeansOnItems AssignmentRow.itemId (·.state ≠ .released)
      (·.isClaimed = true) assignments items := h

/-! ## Changes -/

/-- The owner of an item is read off its row. -/
lemma ownsItem_eq {id : WorkItemId} (w : WorkflowId) (hi : i ∈ s.items) (hid : i.id = id) :
    s.ownsItem w id = decide (i.spec.workflowId = w) := by
  rw [Bool.eq_iff_iff, ownsItem_iff, decide_eq_true_eq]
  constructor
  · rintro ⟨j, hj, hjid, hw⟩
    rw [eq_of_key hi hj (by rw [hid, hjid])]
    exact hw
  · intro hw
    exact ⟨i, hi, hid, hw⟩

lemma settleItem_attemptsOk {close : Option (WorkItemAttemptOutcome × Option String)}
    {status : WorkItemStatus}
    (h : AttemptsOk s.attempts s.items) (hp : s.items.Selects p i) (hf : Writes f status)
    (hst : status.isClaimed = false) (hclose : i.state.status = .running → close.isSome = true) :
    AttemptsOk (s.closeAttempts i.id now close).attempts (setStates s.items p f) := by
  have hne : status ≠ .running := by
    rintro rfl
    cases hst
  cases close with
  | none =>
    refine h.rewrite hf.attemptCount hf.everStarted fun x hx hpx => ?_
    rw [(hp.2 x hx).mp hpx, hf.status]
    exact ⟨fun heq => absurd heq hne, fun hrun => by cases hclose hrun⟩
  | some pair =>
    obtain ⟨outcome, error⟩ := pair
    apply h.settle hf.attemptCount hf.everStarted
    · exact fun _ => rfl
    · intro a hnone
      cases hnone
    · intro x _ _ hrun
      rw [hf.status] at hrun
      exact absurd hrun hne
    · intro a ha hnone x hx hid
      have hrunn := h.running_of_open ha hnone hx hid
      by_cases hxi : x = i
      · rw [if_pos ((hp.2 x hx).mpr hxi), hf.status]
        simp [hne, ← hid, hxi, hnone]
      · rw [if_neg fun hpx => hxi ((hp.2 x hx).mp hpx)]
        have hxid : a.itemId ≠ i.id := by
          rw [← hid]
          exact fun heq => hxi (eq_of_key hx hp.1 heq)
        simp [hrunn, hxid]

lemma endWorkflow_attemptsOk {w : WorkflowId} (h : AttemptsOk s.attempts s.items) :
    AttemptsOk (s.releaseWorkflow w now).attempts (s.releaseWorkflow w now).items := by
  apply h.settle (f := WorkItemState.abandon now) (fun _ => rfl) (fun _ => rfl)
  · exact fun _ => rfl
  · intro a hnone
    cases hnone
  · intro x _ _ hrun
    cases hrun
  · intro a ha hnone x hx hid
    have hrunn := h.running_of_open ha hnone hx hid
    simp only [ownsItem_eq w hx hid, hnone]
    by_cases hw : x.spec.workflowId = w
    · simp [hw, hrunn, WorkItemStatus.isTerminal, WorkItemState.abandon]
    · simp [hw, hrunn]

variable {u : IdSource} {t : Terms} {s' : Repo}

lemma Change.attemptsOk (h : Change u t s s') (hs : AttemptsOk s.attempts s.items) :
    AttemptsOk s'.attempts s'.items := by
  cases h with
  | endWorkflow w p f hf =>
    exact endWorkflow_attemptsOk hs
  | pruneWorkflow w =>
    exact hs.prune fun a _ i hi hid => ownsItem_eq w.id hi hid
  | insertItem row now hid hfresh hkey howner hstate => exact hs.insertItem hfresh hstate
  | claimItem i p f hp hstat hgate hf =>
    refine hs.rewrite hf.attemptCount hf.everStarted fun x hx hpx => ?_
    rw [(hp.2 x hx).mp hpx, hf.status]
    rcases hstat with h | h <;> rw [h] <;> simp
  | noteItem i p f hp hf =>
    refine hs.rewrite hf.attemptCount hf.everStarted fun x hx hpx => ?_
    rw [(hp.2 x hx).mp hpx, hf.status]
  | startItem i row p f hp hstat hrow hfresh hf => exact hs.start hp hstat hrow hfresh hf
  | settleItem i close drop p f status now hp hlive hf hst hclose =>
    simp only [Repo.settleItem_fields]
    exact settleItem_attemptsOk hs hp hf hst hclose
  | observePool | book | unbook | killAllocation | putTarget => simpa using hs
  | _ => exact hs

lemma Change.assignmentsOk (h : Change u t s s') (hs : AssignmentsOk s.assignments s.items) :
    AssignmentsOk s'.assignments s'.items := by
  cases h with
  | endWorkflow w p f hf now hp hstat hkeep =>
    apply hs.leans.settle
    · exact fun _ => rfl
    · exact fun _ => ⟨rfl, fun hopen => hopen rfl⟩
    intro a _ hopen i hi hid hpi
    have howns := ownsItem_eq (s := s.updateWorkflows p f hf) w.id hi hid
    rw [Bool.and_eq_true] at hpi
    rw [howns, hpi.1]
    simpa using hopen
  | pruneWorkflow w =>
    exact hs.leans.prune fun a _ i hi hid => ownsItem_eq w.id hi hid
  | insertItem row now hid hfresh =>
    exact hs.leans.items_mono fun i hi => (mem_insert hfresh).mpr (.inl hi)
  | claimItem i p f hp hstat hgate hf =>
    exact hs.leans.rewriteOne hp fun _ => by rw [hf.status]; rfl
  | noteItem i p f hp hf => exact hs.leans.rewriteOne hp fun hcl => by rwa [hf.status]
  | startItem i row p f hp hstat hrow hfresh hf =>
    exact hs.leans.rewriteOne hp fun _ => by rw [hf.1]; rfl
  | settleItem i close drop p f status now hp =>
    simp only [Repo.settleItem_fields]
    apply hs.leans.settle
    · exact fun _ => rfl
    · exact fun _ => ⟨rfl, fun hopen => hopen rfl⟩
    intro a _ hopen x hx hid hpx
    rw [(hp.2 x hx).mp hpx] at hid
    simpa [← hid] using hopen
  | assign i row hi hitem hstat hfresh =>
    exact forall_mem_insert hfresh hs ⟨i, hi, hitem.symm, fun _ => by rw [hstat]; rfl⟩
  | requestReclaim p now hp =>
    intro a' ha'
    obtain ⟨a, ha, rfl⟩ := List.mem_map.mp ha'
    obtain ⟨i, hi, hid, hclaimed⟩ := hs a ha
    split
    · next hpa =>
      exact ⟨i, hi, hid, fun _ => hclaimed (by rw [hp a ha hpa]; simp)⟩
    · exact ⟨i, hi, hid, hclaimed⟩
  | observePool | book | unbook | killAllocation | putTarget => simpa using hs
  | _ => exact hs

end Replicant.Workflow
