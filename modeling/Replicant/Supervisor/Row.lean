import Replicant.Lib.Versioned
import Replicant.Workflow.Refinement.Lifecycle

/-!
# The persisted row of a workflow

What the supervisor and its executors race for is the status of a row under its revision.
Every state replacement of the repository is the replacement of a versioned cell.
-/

namespace Replicant.Supervisor

open Lib Workflow Tx

/-- The columns of a row that decide a state replacement. -/
abbrev Row := Versioned WorkflowStatus

def row (w : WorkflowRow) : Row := ⟨w.status, w.revision⟩

/-- The replacement that `update_state` makes of a row. -/
def Row.update (r : Row) (expected : ℕ) (status : WorkflowStatus) : Option Row :=
  r.replace expected (·.canTransitionTo status) status

/-- `update_with_wait` succeeds exactly when the cell of its row is replaced, and returns the new one. -/
theorem updateWithWait_replaces (s : Repo) (id : WorkflowId) (expected : ℕ) (state : WorkflowState)
    (wait : Option String) (now : ℤ) (r : Row) :
    (∃ w' s', updateWithWait id expected state wait now s = .ok (w', s') ∧ row w' = r) ↔
      expected ≤ i64Max ∧ ∃ w ∈ s.workflows, w.id = id ∧
        (row w).update expected state.status = some r := by
  constructor
  · rintro ⟨w', s', h, rfl⟩
    obtain ⟨w, hp, hid, hrev, hallowed, rfl, -⟩ := updateState_spec h
    rw [updateWithWait, updateState, revisionToSql, bind_ensure] at h
    exact ⟨h.1, w, hp.1, hid, Versioned.replace_eq_some.mpr ⟨hrev, hallowed, rfl⟩⟩
  · rintro ⟨hrange, w, hw, rfl, hreplace⟩
    obtain ⟨hrev, hallowed, rfl⟩ := Versioned.replace_eq_some.mp hreplace
    let written := s.updateWorkflows (fun x => x.id = w.id && x.revision = expected)
      (state.write wait state.defaultDisposition now) fun _ => rfl
    -- what comes with a terminal status leaves the row alone
    have hend : ∃ s', when (state.status.isTerminal = true) (endWorkflow w [] now) written =
        .ok ((), s') ∧ s'.workflows = written.workflows := by
      by_cases hterm : state.status.isTerminal = true
      · refine ⟨written.releaseWorkflow w.id now, when_eq_ok.mpr (.inl ⟨hterm, ?_⟩), rfl⟩
        rw [endWorkflow, bind_eq_ok]
        exact ⟨(), written, when_eq_ok.mpr (.inr ⟨by simp, rfl⟩), rfl⟩
      · exact ⟨written, when_eq_ok.mpr (.inr ⟨hterm, rfl⟩), rfl⟩
    obtain ⟨s', hs', hsame⟩ := hend
    have hmem : state.write wait state.defaultDisposition now w ∈ s'.workflows := by
      rw [hsame]
      exact List.mem_map.mpr ⟨w, hw, if_pos (by simpa [row] using hrev)⟩
    refine ⟨state.write wait state.defaultDisposition now w, s', ?_, rfl⟩
    simp only [updateWithWait, updateState, revisionToSql, bind_ensure, bind_requireWorkflow,
      bind_execute]
    refine ⟨hrange, w, ⟨hw, rfl⟩, hrev, hallowed, bind_eq_ok.mpr ⟨(), s', hs', ?_⟩⟩
    exact requireWorkflow_eq_ok.mpr ⟨⟨hmem, rfl⟩, rfl⟩

end Replicant.Supervisor
