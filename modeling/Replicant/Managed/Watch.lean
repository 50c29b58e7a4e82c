import Replicant.Managed.Journal

/-!
# Watching an operation

Every status change is broadcast to all watches. A watch reads its own buffer, where the updates of
its operation stand between those of the others.
-/

namespace Replicant.Managed

open List

abbrev Update := String × OperationStatus

inductive WatchError where
  | closed
deriving DecidableEq

/-- `OperationWatch` with the state of its receiver. -/
structure OperationWatch where
  id : String
  /-- Updates that were overwritten before they were read. -/
  skipped : ℕ
  buffer : List Update
  /-- The sender is gone. -/
  closed : Bool
deriving DecidableEq

namespace OperationWatch

/-- The loop of `try_next`: the result, and what stays in the buffer. -/
def drain (id : String) (closed : Bool) (latest : Option OperationStatus) :
    List Update → Except WatchError (Option OperationStatus) × List Update
  | [] => (if closed then .error .closed else .ok latest, [])
  | update :: buffer =>
    if update.1 = id then drain id closed (some update.2) buffer else (.ok latest, buffer)

def tryNext (w : OperationWatch) : Except WatchError (Option OperationStatus) × OperationWatch :=
  if w.skipped ≠ 0 then (.ok none, { w with skipped := 0 })
  else
    let (result, buffer) := drain w.id w.closed none w.buffer
    (result, { w with buffer })

/-- The newest status of an operation among the updates. -/
def newest (id : String) (buffer : List Update) : Option OperationStatus :=
  ((buffer.filter (·.1 = id)).getLast?).map (·.2)

/-- An own update counts unless a later one does. -/
lemma newest_cons (id : String) (update : Update) (buffer : List Update) :
    newest id (update :: buffer) =
      (newest id buffer).or (if update.1 = id then some update.2 else none) := by
  unfold newest
  by_cases h : update.1 = id
  · simp only [filter_cons, h, decide_true, if_true, getLast?_cons]
    cases (buffer.filter (·.1 = id)).getLast? <;> rfl
  · simp [h]

variable {buffer : List Update} {id : String} {closed : Bool}

lemma newest_eq_none (h : ∀ u ∈ buffer, u.1 ≠ id) : newest id buffer = none := by
  unfold newest
  rw [filter_eq_nil_iff.mpr fun u hu => by simpa using h u hu]
  rfl

/-- No update of another operation stands before an own one. -/
def OwnFirst (id : String) (buffer : List Update) : Prop :=
  buffer.Pairwise fun u v => u.1 ≠ id → v.1 ≠ id

instance : Decidable (OwnFirst id buffer) := inferInstanceAs (Decidable (Pairwise _ buffer))

/-- The loop stops at the first update of another operation, so it leaves the own ones behind it. -/
lemma drain_left (latest : Option OperationStatus) :
    (∀ u ∈ (drain id closed latest buffer).2, u.1 ≠ id) ↔ OwnFirst id buffer := by
  induction buffer generalizing latest with
  | nil => exact ⟨fun _ => Pairwise.nil, fun _ => nofun⟩
  | cons update buffer ih =>
    unfold OwnFirst
    rw [drain, pairwise_cons]
    by_cases hown : update.1 = id
    · rw [if_pos hown, ih]
      exact (and_iff_right fun _ _ hother => absurd hown hother).symm
    · rw [if_neg hown]
      refine ⟨fun hothers => ⟨fun u hu _ => hothers u hu, ?_⟩, fun h u hu => h.1 u hu hown⟩
      exact pairwise_of_forall_mem_list fun _ _ v hv _ => hothers v hv

/-- With the own updates first the loop reads them all; it meets the end of a closed channel only
when there is nothing else. -/
lemma drain_result (latest : Option OperationStatus) (h : OwnFirst id buffer) :
    (drain id closed latest buffer).1 =
      if closed ∧ ∀ u ∈ buffer, u.1 = id then .error .closed
      else .ok ((newest id buffer).or latest) := by
  induction buffer generalizing latest with
  | nil => cases closed <;> rfl
  | cons update buffer ih =>
    obtain ⟨hhead, htail⟩ := pairwise_cons.mp h
    rw [drain, newest_cons]
    by_cases hown : update.1 = id
    · rw [if_pos hown, if_pos hown, ih (some update.2) htail]
      simp only [forall_mem_cons, hown, true_and]
      cases newest id buffer <;> rfl
    · have hothers : ∀ u ∈ buffer, u.1 ≠ id := fun u hu => hhead u hu hown
      rw [if_neg hown, if_neg hown, newest_eq_none hothers,
        if_neg fun hall => hown (hall.2 update mem_cons_self)]
      rfl

/-- Without lag, the newest own status is reported and no own update is left exactly when no update
of another operation stands before an own one, and a closed channel still holds such an update. -/
theorem tryNext_newest_iff (w : OperationWatch) (hlag : w.skipped = 0) :
    (w.tryNext.1 = .ok (newest w.id w.buffer) ∧ ∀ u ∈ w.tryNext.2.buffer, u.1 ≠ w.id) ↔
      OwnFirst w.id w.buffer ∧ (w.closed → ∃ u ∈ w.buffer, u.1 ≠ w.id) := by
  unfold tryNext
  rw [if_neg (not_not_intro hlag), drain_left, and_comm]
  refine and_congr_right fun hfirst => ?_
  rw [drain_result none hfirst, Option.or_none]
  by_cases hclosed : w.closed ∧ ∀ u ∈ w.buffer, u.1 = w.id
  · rw [if_pos hclosed]
    refine ⟨nofun, fun hother => ?_⟩
    obtain ⟨u, hu, hne⟩ := hother hclosed.1
    exact absurd (hclosed.2 u hu) hne
  · rw [if_neg hclosed]
    refine ⟨fun _ hc => ?_, fun _ => rfl⟩
    simpa using not_and.mp hclosed hc

/-- On a closed channel two own updates are read up to the one of another operation. -/
theorem tryNext_newest_two :
    let w : OperationWatch := ⟨"a", 0, [("a", .accepted), ("a", .completed), ("b", .failed)], true⟩
    w.tryNext.1 = .ok (some .completed) ∧ ∀ u ∈ w.tryNext.2.buffer, u.1 ≠ "a" :=
  (tryNext_newest_iff ⟨"a", 0, [("a", .accepted), ("a", .completed), ("b", .failed)], true⟩
    rfl).mpr ⟨by decide, fun _ => ⟨("b", .failed), by decide⟩⟩

/-- Behind an update of another operation the own one is neither reported nor read. -/
theorem own_update_delayed :
    let w : OperationWatch := ⟨"a", 0, [("b", .failed), ("a", .completed)], false⟩
    newest "a" w.buffer = some .completed ∧
      w.tryNext = (.ok none, { w with buffer := [("a", .completed)] }) := by
  decide

end OperationWatch

end Replicant.Managed
