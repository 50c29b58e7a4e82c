import Replicant.Workflow.Claims

/-!
# Physical identity of resources

An autofactory is also a device, and device, autofactory and replicant codes are compared up to case.
`PhysicallyEqual` states this; the condition the queries use decides it, and it is the equality of a
canonical form.
-/

namespace Replicant.Workflow

open Lib

variable {n m : Namespace} {a b wanted : ResourceIdentity}

/-- The identities name the same resource. -/
def PhysicallyEqual (a b : ResourceIdentity) : Prop :=
  (a.ns = b.ns ∨ (a.ns.isMachine = true ∧ b.ns.isMachine = true)) ∧
    (a.key = b.key ∨ (a.ns.isExclusive = true ∧ eqIgnoreAsciiCase a.key b.key = true))

instance (a b : ResourceIdentity) : Decidable (PhysicallyEqual a b) :=
  inferInstanceAs (Decidable ((_ ∨ (_ ∧ _)) ∧ (_ ∨ (_ ∧ _))))

namespace ResourceIdentity

/-- One representative of all the identities of a resource. -/
def canonical (i : ResourceIdentity) : Namespace × List Char :=
  (if i.ns.isMachine then .device else i.ns,
    if i.ns.isExclusive then i.key.toList.map Char.toLower else i.key.toList)

end ResourceIdentity

lemma Namespace.isExclusive_of_isMachine (h : n.isMachine = true) : n.isExclusive = true := by
  cases n <;> simp_all [isMachine, isExclusive]

/-- The namespaces that count as one are exclusive together. -/
lemma Namespace.isExclusive_congr (h : m = n ∨ (m.isMachine = true ∧ n.isMachine = true)) :
    m.isExclusive = n.isExclusive := by
  rcases h with h | ⟨hm, hn⟩
  · rw [h]
  · rw [isExclusive_of_isMachine hm, isExclusive_of_isMachine hn]

lemma Namespace.same_iff : (m = n ∨ (m.isMachine = true ∧ n.isMachine = true)) ↔
      (if m.isMachine then device else m) = (if n.isMachine then device else n) := by
  cases m <;> cases n <;> simp [isMachine]

lemma physicallyEqual_iff : PhysicallyEqual a b ↔ a.canonical = b.canonical := by
  unfold PhysicallyEqual ResourceIdentity.canonical
  rw [Prod.mk.injEq, Namespace.same_iff]
  refine and_congr_right fun hns => ?_
  have hex : a.ns.isExclusive = b.ns.isExclusive :=
    Namespace.isExclusive_congr (Namespace.same_iff.mpr hns)
  rw [← hex]
  by_cases h : a.ns.isExclusive = true
  · simp only [h, if_true, true_and, eqIgnoreAsciiCase, decide_eq_true_eq]
    constructor
    · rintro (heq | heq)
      · rw [heq]
      · exact heq
    · exact .inr
  · simp [h, String.toList_inj]

lemma PhysicallyEqual.refl (a : ResourceIdentity) : PhysicallyEqual a a :=
  physicallyEqual_iff.mpr rfl

section

variable (h : PhysicallyEqual a b)

include h

lemma PhysicallyEqual.symm : PhysicallyEqual b a :=
  physicallyEqual_iff.mpr (physicallyEqual_iff.mp h).symm

lemma PhysicallyEqual.trans {c : ResourceIdentity} (h' : PhysicallyEqual b c) :
    PhysicallyEqual a c :=
  physicallyEqual_iff.mpr ((physicallyEqual_iff.mp h).trans (physicallyEqual_iff.mp h'))

lemma PhysicallyEqual.isExclusive : a.ns.isExclusive = b.ns.isExclusive :=
  Namespace.isExclusive_congr h.1

end

/-- The queries select exactly the rows of physically equal resources. -/
lemma matches_iff {stored : ResourceIdentity} :
    wanted.matches stored = true ↔ PhysicallyEqual wanted stored := by
  have hcase : eqIgnoreAsciiCase stored.key wanted.key =
      eqIgnoreAsciiCase wanted.key stored.key := by
    simp only [eqIgnoreAsciiCase, eq_comm]
  unfold ResourceIdentity.matches PhysicallyEqual
  rw [hcase]
  simp only [Bool.and_eq_true, Bool.or_eq_true, decide_eq_true_eq]
  rw [and_comm, @eq_comm _ stored.ns, @eq_comm _ stored.key]

/-- No conflict: every claim on the resource belongs to the workflow. -/
lemma physicalClaimConflict_eq_none {s : Repo} {w : WorkflowId} :
    s.physicalClaimConflict wanted w = none ↔
      ∀ c ∈ s.claims, PhysicallyEqual wanted c.resource → c.workflowId = w := by
  unfold Repo.physicalClaimConflict
  rw [Option.map_eq_none_iff, List.find?_eq_none]
  refine forall₂_congr fun c hc => ?_
  simp only [Bool.and_eq_true, matches_iff, decide_eq_true_eq, not_and, not_not]

end Replicant.Workflow
