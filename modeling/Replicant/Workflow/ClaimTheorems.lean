import Replicant.Workflow.Invariant

/-!
# Changes keep the claims exclusive

Every way of inserting or re-owning a claim row keeps the claims of physically equal
resources in one hand, and in the hand of a workflow that is still alive.
-/

namespace Replicant.Workflow

open Lib Table

/-! ## Workflows that stay alive -/

variable {workflows : WorkflowTable}

namespace Live

variable {id : WorkflowId}

variable (h : Live workflows id)

include h

lemma insert {row : WorkflowRow} (hfresh : workflows.hasKey row.id = false) :
    Live (workflows.insert row) id := by
  obtain ⟨w, hw, hid, hlive⟩ := h
  exact ⟨w, (mem_insert hfresh).mpr (.inl hw), hid, hlive⟩

lemma update {w : WorkflowRow} {p : WorkflowRow → Bool} {f : WorkflowRow → WorkflowRow}
    (hf : ∀ w, (f w).id = w.id) (hp : workflows.Selects p w)
    (hstat : w.id = id → w.status.isTerminal = false → (f w).status.isTerminal = false) :
    Live (workflows.update p f hf) id := by
  obtain ⟨x, hx, hid, hlive⟩ := h
  by_cases hxw : x = w
  · subst hxw
    have hmem : f x ∈ workflows.update p f hf :=
      (mem_update_of_selects hf hp).mpr (.inr rfl)
    exact ⟨f x, hmem, by rw [hf, hid], hstat hid hlive⟩
  · have hmem : x ∈ workflows.update p f hf :=
      (mem_update_of_selects hf hp).mpr (.inl ⟨hx, hxw⟩)
    exact ⟨x, hmem, hid, hlive⟩

lemma delete {w : WorkflowId} (hne : id ≠ w) : Live (workflows.delete fun x => x.id = w) id := by
  obtain ⟨x, hx, hid, hlive⟩ := h
  refine ⟨x, mem_delete.mpr ⟨hx, ?_⟩, hid, hlive⟩
  rw [decide_eq_false_iff_not, hid]
  exact hne

end Live

/-! ## Claims -/

namespace ClaimsOk

variable {claims : ClaimTable}

section

variable (h : ClaimsOk claims workflows)

include h

lemma workflows_mono {workflows' : WorkflowTable}
    (hlive : ∀ c ∈ claims, Live workflows c.workflowId → Live workflows' c.workflowId) :
    ClaimsOk claims workflows' :=
  ⟨h.exclusive, fun c hc => hlive c hc (h.owner c hc)⟩

lemma delete (p : ClaimRow → Bool) : ClaimsOk (claims.delete p) workflows where
  exclusive := fun c hc d hd =>
    h.exclusive c (mem_delete.mp hc).1 d (mem_delete.mp hd).1
  owner := fun c hc => h.owner c (mem_delete.mp hc).1

lemma touch (p : ClaimRow → Bool) (now : ℤ) :
    ClaimsOk (claims.update p (fun c => { c with updatedAt := now }) fun _ => rfl)
      workflows := by
  -- A refreshed row has the resource and the owner of the row it comes from.
  have hback : ∀ c ∈ claims.update p (fun c => { c with updatedAt := now }) fun _ => rfl,
      ∃ r ∈ claims, r.resource = c.resource ∧ r.workflowId = c.workflowId := by
    intro c hc
    obtain ⟨r, hr, rfl⟩ := mem_update.mp hc
    refine ⟨r, hr, ?_⟩
    split <;> exact ⟨rfl, rfl⟩
  constructor
  · intro c hc d hd hphys
    obtain ⟨c', hc', hcr, hcw⟩ := hback c hc
    obtain ⟨d', hd', hdr, hdw⟩ := hback d hd
    rw [← hcw, ← hdw]
    exact h.exclusive c' hc' d' hd' (by rw [hcr, hdr]; exact hphys)
  · intro c hc
    obtain ⟨c', hc', -, hcw⟩ := hback c hc
    rw [← hcw]
    exact h.owner c' hc'

lemma insert {row : ClaimRow}
    (hfresh : claims.hasKey row.resource = false) (howner : Live workflows row.workflowId)
    (hconflict : ∀ c ∈ claims, PhysicallyEqual row.resource c.resource →
      c.workflowId = row.workflowId) : ClaimsOk (claims.insert row) workflows := by
  constructor
  · intro c hc d hd hphys
    rcases (mem_insert hfresh).mp hc with hcm | hcr <;>
      rcases (mem_insert hfresh).mp hd with hdm | hdr
    · exact h.exclusive c hcm d hdm hphys
    · rw [hdr] at hphys ⊢
      exact hconflict c hcm hphys.symm
    · rw [hcr] at hphys ⊢
      exact (hconflict d hdm hphys).symm
    · rw [hcr, hdr]
  · exact forall_mem_insert hfresh h.owner howner

end

variable {source dest : WorkflowId} {wanted : ResourceIdentity} {now : ℤ}

/-- A row after a handoff is an old row on another resource, or belongs to the destination. -/
lemma mem_move (howners : ∀ c ∈ claims, PhysicallyEqual wanted c.resource →
      c.workflowId = source ∨ c.workflowId = dest) {c : ClaimRow}
    (hc : c ∈ claims.update (fun c => wanted.matches c.resource && c.workflowId = source)
      (fun c => { c with workflowId := dest, updatedAt := now }) fun _ => rfl) :
    (c ∈ claims ∧ ¬ PhysicallyEqual wanted c.resource) ∨
      (PhysicallyEqual wanted c.resource ∧ c.workflowId = dest) := by
  obtain ⟨r, hr, hrc⟩ := mem_update.mp hc
  by_cases hphys : PhysicallyEqual wanted r.resource
  · right
    by_cases hsrc : r.workflowId = source
    · rw [if_pos (by simp [matches_iff.mpr hphys, hsrc])] at hrc
      subst hrc
      exact ⟨hphys, rfl⟩
    · rw [if_neg (by simp [hsrc])] at hrc
      subst hrc
      exact ⟨hphys, (howners r hr hphys).resolve_left hsrc⟩
  · rw [if_neg (by simp [matches_iff, hphys])] at hrc
    subst hrc
    exact .inl ⟨hr, hphys⟩

/-- A handoff moves all claims on a resource that the source has. The destination keeps its
own, and nobody else has one. -/
lemma move (h : ClaimsOk claims workflows) (hdest : Live workflows dest)
    (howners : ∀ c ∈ claims, PhysicallyEqual wanted c.resource →
      c.workflowId = source ∨ c.workflowId = dest) :
    ClaimsOk (claims.update (fun c => wanted.matches c.resource && c.workflowId = source)
      (fun c => { c with workflowId := dest, updatedAt := now }) fun _ => rfl) workflows := by
  constructor
  · intro c hc d hd hphys
    rcases mem_move howners hc with ⟨hcm, hcp⟩ | ⟨hcp, hcw⟩ <;>
      rcases mem_move howners hd with ⟨hdm, hdp⟩ | ⟨hdp, hdw⟩
    · exact h.exclusive c hcm d hdm hphys
    · exact absurd (hdp.trans hphys.symm) hcp
    · exact absurd (hcp.trans hphys) hdp
    · rw [hcw, hdw]
  · intro c hc
    rcases mem_move howners hc with ⟨hcm, -⟩ | ⟨-, hcw⟩
    · exact h.owner c hcm
    · rw [hcw]
      exact hdest

lemma upsert {s : Repo} {row : ClaimRow} (h : ClaimsOk s.claims s.workflows)
    (howner : Live s.workflows row.workflowId)
    (hconflict : ∀ c ∈ s.claims, PhysicallyEqual row.resource c.resource →
      c.workflowId = row.workflowId) :
    ClaimsOk (s.upsertClaim row).claims (s.upsertClaim row).workflows := by
  unfold Repo.upsertClaim
  split
  · exact h.touch _ _
  · next hno => exact h.insert (Bool.eq_false_iff.mpr hno) howner hconflict

end ClaimsOk

/-- Every change keeps the claims exclusive and owned by live workflows. -/
lemma Change.claimsOk {u : IdSource} {t : Terms} {s s' : Repo} (h : Change u t s s')
    (hs : ClaimsOk s.claims s.workflows) : ClaimsOk s'.claims s'.workflows := by
  cases h with
  | insertWorkflow row hid hfresh =>
    exact hs.workflows_mono fun c _ hlive => hlive.insert hfresh
  | updateWorkflow w p f hf hp hstat =>
    refine hs.workflows_mono fun c _ hlive => hlive.update hf hp fun _ hterm => ?_
    rcases hstat with heq | ⟨-, hne⟩
    · rw [heq]; exact hterm
    · exact hne
  | endWorkflow w p f hf now hp hstat hkeep =>
    -- The claims of the ended workflow go; those that stay have another owner.
    refine (hs.delete (·.workflowId = w.id)).workflows_mono fun c hc hlive => ?_
    have hne : c.workflowId ≠ w.id := by simpa using (mem_delete.mp hc).2
    exact hlive.update hf hp fun heq => absurd heq.symm hne
  | pruneWorkflow w hw hstat hclaims =>
    exact hs.workflows_mono fun c hc hlive => hlive.delete (hclaims c hc)
  | insertClaim row hfresh howner hconflict =>
    exact hs.insert hfresh howner (physicalClaimConflict_eq_none.mp hconflict)
  | touchClaims p now => exact hs.touch p now
  | handOff source dest wanted now hdest howners => exact hs.move hdest howners
  | deleteClaims p => exact hs.delete p
  | settleItem =>
    simp only [Repo.settleItem_claims, Repo.settleItem_fields]
    split
    · exact hs.delete _
    · exact hs
  | observePool => simpa using hs
  | book i a now hi hitem hid hfresh hact hlive howner hkey hpool hqty hcap hconf =>
    unfold Repo.book Repo.claimFor
    split
    · next hex =>
      exact ClaimsOk.upsert hs howner (physicalClaimConflict_eq_none.mp (hconf hex))
    · exact hs
  | unbook =>
    unfold Repo.unbook
    split
    · exact hs.delete _
    · exact hs
  | killAllocation =>
    unfold Repo.killAllocation
    split
    · exact hs.delete _
    · exact hs
  | putTarget => simpa using hs
  | _ => exact hs

end Replicant.Workflow
