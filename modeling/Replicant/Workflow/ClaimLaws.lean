import Replicant.Lib.Text
import Replicant.Workflow.CustodyRuns

/-!
# Laws of the claim operations

Acquisition and handoffs go by what a resource is, a release and the count of a reserve by how it is
written. So a release undoes an acquisition exactly if every claim is written like the request, and a
machine that a reserve names in two namespaces counts twice. A handoff moves all claims on its
resources into one hand.
-/

namespace Replicant.Workflow

open Lib Tx Table

variable {u : IdSource} {s s' : Repo} {w : WorkflowId} {now : ℤ} {wanted : ResourceIdentity}
  {c : ClaimRow}

/-! ## Acquisition and release -/

/-- A claim after the acquisition was there before, or is the acquired one. -/
lemma Acquires.mem_claims (h : Acquires s w now wanted s') (hc : c ∈ s'.claims) :
    (∃ d ∈ s.claims, d.resource = c.resource ∧ d.workflowId = c.workflowId) ∨
      c.resource = wanted := by
  cases h with
  | again =>
    rw [Repo.touchClaim, mem_update] at hc
    obtain ⟨d, hd, rfl⟩ := hc
    refine .inl ⟨d, hd, ?_⟩
    split <;> exact ⟨rfl, rfl⟩
  | first hfresh =>
    rcases (mem_insert hfresh).mp hc with hc | rfl
    · exact .inl ⟨c, hc, rfl, rfl⟩
    · exact .inr rfl

/-- After the acquisition the workflow has a claim on the resource. -/
lemma Acquires.holds (h : Acquires s w now wanted s')
    (hconf : s.physicalClaimConflict wanted w = none) : s'.Holds w wanted := by
  cases h with
  | again c hc hphys =>
    refine ⟨{ c with updatedAt := now }, ?_, hphys,
      physicalClaimConflict_eq_none.mp hconf c hc hphys⟩
    rw [Repo.touchClaim, mem_update]
    exact ⟨c, hc, if_pos (decide_eq_true rfl)⟩
  | first hfresh => exact ⟨_, (mem_insert hfresh).mpr (.inr rfl), .refl _, rfl⟩

/-- A claim before the acquisition is still there. -/
lemma Acquires.keeps (h : Acquires s w now wanted s') (hc : c ∈ s.claims) :
    ∃ d ∈ s'.claims, d.resource = c.resource ∧ d.workflowId = c.workflowId := by
  cases h with
  | again =>
    simp only [Repo.touchClaim, mem_update]
    refine ⟨_, ⟨c, hc, rfl⟩, ?_⟩
    split <;> exact ⟨rfl, rfl⟩
  | first hfresh => exact ⟨c, (mem_insert hfresh).mpr (.inl hc), rfl, rfl⟩

/-- All claims of the workflow on the resource are written like the request. -/
def Repo.WrittenAs (s : Repo) (w : WorkflowId) (wanted : ResourceIdentity) : Prop :=
  ∀ c ∈ s.claims, c.workflowId = w → PhysicallyEqual wanted c.resource → c.resource = wanted

/-- An acquisition changes no spelling, and a new claim is written like the request. -/
lemma Acquires.writtenAs_iff (h : Acquires s w now wanted s') :
    s'.WrittenAs w wanted ↔ s.WrittenAs w wanted := by
  refine ⟨fun hwritten c hc howner hphys => ?_, fun hwritten c hc howner hphys => ?_⟩
  · obtain ⟨d, hd, hres, hsame⟩ := h.keeps hc
    rw [← hres] at hphys ⊢
    exact hwritten d hd (hsame.trans howner) hphys
  · rcases h.mem_claims hc with ⟨d, hd, hres, hsame⟩ | hnew
    · rw [← hres] at hphys ⊢
      exact hwritten d hd (hsame.trans howner) hphys
    · exact hnew

/-- The release deletes the claims that are written like the request, and no others. -/
lemma releaseClaim_iff {r : ResourceKey} (hparts : r.persistedParts = .ok wanted)
    (hholds : s.Holds w wanted) :
    (∃ s', releaseClaim w r s = .ok (true, s') ∧ ¬ s'.Holds w wanted) ↔ s.WrittenAs w wanted := by
  let owned (c : ClaimRow) : Bool := c.resource = wanted && c.workflowId = w
  have hrelease : ∀ released s', releaseClaim w r s = .ok (released, s') ↔
      released = s.claims.rows.any owned ∧ s' = s.deleteClaims owned := by
    intro released s'
    simp only [releaseClaim, bind_check, bind_query, bind_execute, pure_eq_ok, hparts,
      Except.ok.injEq, exists_eq_left']
    exact Iff.rfl
  simp only [hrelease]
  constructor
  · -- a claim that is written otherwise survives the release
    rintro ⟨_, ⟨-, rfl⟩, hnone⟩ c hc howner hphys
    by_contra hother
    exact hnone ⟨c, mem_delete.mpr ⟨hc, by simp [owned, hother]⟩, hphys, howner⟩
  · intro hwritten
    obtain ⟨c, hc, hphys, howner⟩ := hholds
    have hreleased : s.claims.rows.any owned = true :=
      List.any_eq_true.mpr ⟨c, hc, by simp [owned, hwritten c hc howner hphys, howner]⟩
    refine ⟨_, ⟨hreleased.symm, rfl⟩, ?_⟩
    rintro ⟨d, hd, hphys, howner⟩
    obtain ⟨hd, hkept⟩ := mem_delete.mp hd
    simp [owned, hwritten d hd howner hphys, howner] at hkept

/-- A workflow that has acquired a resource releases it exactly if it had no claim on it that is
written otherwise. -/
theorem releaseClaim_of_acquireClaims_iff {r : ResourceKey} {outcomes : List ClaimAcquireOutcome}
    (hparts : r.persistedParts = .ok wanted)
    (h : acquireClaims w [r] now s = .ok (outcomes, s')) :
    (∃ s'', releaseClaim w r s' = .ok (true, s'') ∧ ¬ s''.Holds w wanted) ↔
      s.WrittenAs w wanted := by
  rw [acquireClaims, bind_requireClaimOwner] at h
  simp only [List.mapM_cons, List.mapM_nil, bind_eq_ok, pure_eq_ok] at h
  obtain ⟨-, _, _, hone, _, _, ⟨-, rfl⟩, -, rfl⟩ := h
  obtain ⟨wanted', hparts', hconf, hacquires⟩ := acquireClaimIn_spec hone
  obtain rfl : wanted' = wanted := Except.ok.inj (hparts'.symm.trans hparts)
  rw [releaseClaim_iff hparts (hacquires.holds hconf), hacquires.writtenAs_iff]

namespace Scenario

def created : Repo := run .counting [.createWithParentClaims workflow [] 1]

def claimed : Repo := run .counting
  [.createWithParentClaims workflow [] 1, .acquireClaims 0 [.device "D1"] 1]

end Scenario

theorem releaseClaim_of_acquireClaims_created :
    ∃ s'', releaseClaim 0 (.device "D1") Scenario.claimed = .ok (true, s'') ∧
      ¬ s''.Holds 0 ⟨.device, "D1"⟩ :=
  (releaseClaim_of_acquireClaims_iff (s := Scenario.created) rfl rfl).mpr (by
    unfold Repo.WrittenAs
    decide)

/-- The workflow that owns a device acquires it under another spelling, and cannot release it
so. -/
theorem releaseClaim_otherSpelling :
    ∃ outcomes s' s'', acquireClaims 0 [.device "d1"] 2 Scenario.claimed = .ok (outcomes, s') ∧
      releaseClaim 0 (.device "d1") s' = .ok (false, s'') ∧ s''.Holds 0 ⟨.device, "d1"⟩ :=
  ⟨_, _, _, rfl, rfl, _, .head _, by decide, rfl⟩

/-! ## Reserves -/

/-- Enough resources of the reserve are free, each counted once however it is written. -/
def Repo.KeepsReserve (s : Repo) (reserve : List ResourceKey) (minimum : ℕ) : Prop :=
  ∃ free : Finset ResourceIdentity, minimum ≤ free.card ∧
    (∀ i ∈ free, ∀ j ∈ free, PhysicallyEqual i j → i = j) ∧
    ∀ i ∈ free, (∃ r ∈ reserve, r.persistedParts = .ok i) ∧
      ∀ c ∈ s.claims, ¬ PhysicallyEqual i c.resource

/-- The key of a reserve without the difference between a device and an autofactory. -/
def machineKey (k : Namespace × List Char) : Namespace × List Char :=
  (if k.1.isMachine then .device else k.1, k.2)

/-- The machines that a reserve count has both as a device and as an autofactory. -/
def countedTwice (counted : List (Namespace × List Char)) : List (Namespace × List Char) :=
  counted.filter fun k => k.1 = .autofactory ∧ (.device, k.2) ∈ counted

/-- Two resources are the same if they are counted under one key of this kind. -/
lemma physicallyEqual_iff_machineKey {i j : ResourceIdentity} :
    PhysicallyEqual i j ↔ machineKey i.reserveKey = machineKey j.reserveKey := by
  rw [physicallyEqual_iff, machineKey, machineKey, ResourceIdentity.canonical,
    ResourceIdentity.canonical, Prod.mk.injEq, Prod.mk.injEq]
  refine and_congr_right fun hns => ?_
  have hex := Namespace.isExclusive_congr (Namespace.same_iff.mpr hns)
  simp only [ResourceIdentity.reserveKey, hex]
  split
  · -- lower case and upper case identify the same texts
    constructor <;> intro h
    · have hupper := congrArg (List.map Char.toUpper) h
      simpa [Function.comp_def, Char.toUpper_toLower_eq_toUpper] using hupper
    · have hlower := congrArg (List.map Char.toLower) h
      simpa [Function.comp_def, Char.toLower_toUpper_eq_toLower] using hlower
  · exact Iff.rfl

/-- Without the second entries of the machines that are counted twice, every machine counts once. -/
lemma card_machineKeys (counted : List (Namespace × List Char)) (hnodup : counted.Nodup) :
    (counted.toFinset.image machineKey).card + (countedTwice counted).length = counted.length := by
  let twice (k : Namespace × List Char) : Prop := k.1 = .autofactory ∧ (.device, k.2) ∈ counted
  have honce : counted.toFinset.image machineKey =
      (counted.toFinset.filter (¬ twice ·)).image machineKey := by
    refine subset_antisymm (fun m hm => ?_) (Finset.image_subset_image (Finset.filter_subset _ _))
    obtain ⟨k, hk, rfl⟩ := Finset.mem_image.mp hm
    by_cases htwice : twice k
    · refine Finset.mem_image.mpr ⟨(.device, k.2), ?_, ?_⟩
      · simpa [twice] using htwice.2
      · rw [machineKey, machineKey, htwice.1]
        rfl
    · exact Finset.mem_image_of_mem _ (Finset.mem_filter.mpr ⟨hk, htwice⟩)
  have hinj : Set.InjOn machineKey (counted.toFinset.filter (¬ twice ·) : Finset _) := by
    rintro ⟨n, a⟩ hk ⟨m, b⟩ hl heq
    simp only [Finset.mem_coe, Finset.mem_filter, List.mem_toFinset, twice] at hk hl
    obtain ⟨hns, rfl⟩ := Prod.mk.inj heq
    -- only a device and an autofactory of one code could collide
    cases n <;> cases m <;> simp_all [Namespace.isMachine]
  have hlen : (countedTwice counted).length = (counted.toFinset.filter twice).card := by
    rw [countedTwice, ← List.toFinset_card_of_nodup (hnodup.filter _), List.toFinset_filter]
    simp [twice]
  rw [honce, Finset.card_image_of_injOn hinj, hlen, add_comm,
    Finset.card_filter_add_card_filter_not, List.toFinset_card_of_nodup hnodup]

section Reserve

variable {reserve : List ResourceKey} {candidates : List ResourceIdentity} {minimum : ℕ}
  (hparts : reserve.mapM ResourceKey.persistedParts = .ok candidates)
  (hacquires : Acquires s w now wanted s') (hconf : s.physicalClaimConflict wanted w = none)

include hacquires hconf

/-- After the acquisition the claimed resources are those from before and the acquired one. -/
lemma unclaimed_iff (i : ResourceIdentity) : (∀ c ∈ s'.claims, ¬ PhysicallyEqual i c.resource) ↔
    ¬ PhysicallyEqual i wanted ∧ ∀ c ∈ s.claims, ¬ PhysicallyEqual i c.resource := by
  refine ⟨fun hfree => ⟨fun hphys => ?_, fun c hc hphys => ?_⟩, fun hfree c hc hphys => ?_⟩
  · obtain ⟨c, hc, hsame, -⟩ := hacquires.holds hconf
    exact hfree c hc (hphys.trans hsame)
  · obtain ⟨d, hd, hres, -⟩ := hacquires.keeps hc
    exact hfree d hd (hres ▸ hphys)
  · rcases hacquires.mem_claims hc with ⟨d, hd, hres, -⟩ | hnew
    · exact hfree.2 d hd (hres ▸ hphys)
    · exact hfree.1 (hnew ▸ hphys)

include hparts

/-- The reserve is kept if that many different machines were counted. -/
lemma keepsReserve_iff : s'.KeepsReserve reserve minimum ↔
    minimum ≤ ((s.availableReserve wanted candidates).toFinset.image machineKey).card := by
  let free := candidates.filter fun i =>
    !i.matches wanted && !s.claims.rows.any fun c => i.matches c.resource
  have hmem : ∀ i, i ∈ free ↔ (∃ r ∈ reserve, r.persistedParts = .ok i) ∧
      ∀ c ∈ s'.claims, ¬ PhysicallyEqual i c.resource := by
    intro i
    rw [List.mem_filter, mem_mapM hparts, unclaimed_iff hacquires hconf, Bool.and_eq_true,
      Bool.not_eq_true', Bool.not_eq_true', List.any_eq_false, ← Bool.not_eq_true, matches_iff]
    simp only [matches_iff]
    exact Iff.rfl
  have hcount : (s.availableReserve wanted candidates).toFinset.image machineKey =
      free.toFinset.image fun i => machineKey i.reserveKey := by
    ext key
    simp [Repo.availableReserve, free]
  rw [hcount]
  constructor
  · rintro ⟨chosen, hcard, hdist, hfree⟩
    refine hcard.trans (Finset.card_le_card_of_injOn (fun i => machineKey i.reserveKey)
      (fun i hi => ?_) fun i hi j hj heq => ?_)
    · exact Finset.mem_image_of_mem _ (List.mem_toFinset.mpr ((hmem i).mpr (hfree i hi)))
    · exact hdist i hi j hj (physicallyEqual_iff_machineKey.mpr heq)
  · intro hcard
    -- one resource is taken for each machine
    obtain ⟨chosen, hchosen, hinj, himage⟩ := Finset.exists_subset_injOn_image_eq_of_surjOn
      (s := (free.toFinset : Set ResourceIdentity))
      (free.toFinset.image fun i => machineKey i.reserveKey)
      (by intro key hkey; simpa using hkey)
    refine ⟨chosen, ?_, fun i hi j hj hphys => ?_, fun i hi => ?_⟩
    · rwa [← Finset.card_image_of_injOn hinj, himage]
    · exact hinj hi hj (physicallyEqual_iff_machineKey.mp hphys)
    · exact (hmem i).mp (by simpa using hchosen hi)

end Reserve

/-- An acquisition that has to preserve a reserve has counted the minimum, and leaves it free exactly
if the count exceeds it by the machines counted twice; or it leaves everything as it was. -/
theorem acquireClaimPreservingReserve_keepsReserve_iff (u : IdSource) (s : Repo) (w : WorkflowId)
    (r : ResourceKey) (reserve : List ResourceKey) {minimum : ℕ} (now : ℤ) (hmin : 0 < minimum) :
    match acquireClaimPreservingReserve w r reserve minimum now s with
    | .ok (_, s') => step u s (.acquireClaimPreservingReserve w r reserve minimum now) = s' ∧
        ∃ wanted candidates, r.persistedParts = .ok wanted ∧
          reserve.mapM ResourceKey.persistedParts = .ok candidates ∧
          let counted := s.availableReserve wanted candidates
          minimum ≤ counted.length ∧ (s'.KeepsReserve reserve minimum ↔
            minimum + (countedTwice counted).length ≤ counted.length)
    | .error _ => step u s (.acquireClaimPreservingReserve w r reserve minimum now) = s := by
  rw [step_eq, transaction, Tx.void_apply]
  cases h : acquireClaimPreservingReserve w r reserve minimum now s with
  | error => rfl
  | ok p =>
    refine ⟨rfl, ?_⟩
    obtain ⟨-, wanted, hwanted, hconf, hreserve, hacquires⟩ := acquireClaimPreservingReserve_spec h
    obtain ⟨candidates, hparts, henough⟩ := hreserve hmin
    refine ⟨wanted, candidates, hwanted, hparts, henough, ?_⟩
    have hcard := card_machineKeys (s.availableReserve wanted candidates) (List.nodup_dedup _)
    rw [keepsReserve_iff hparts hacquires hconf]
    omega

theorem acquireClaimPreservingReserve_keepsReserve_created : (step .counting Scenario.created
      (.acquireClaimPreservingReserve 0 (.device "D1") [.device "F1", .autofactory "f1",
        .device "d1", .device "D2"] 2 2)).KeepsReserve
        [.device "F1", .autofactory "f1", .device "d1", .device "D2"] 2 := by
  have h := acquireClaimPreservingReserve_keepsReserve_iff .counting Scenario.created 0
    (.device "D1") [.device "F1", .autofactory "f1", .device "d1", .device "D2"] 2 two_pos
  obtain ⟨hstep, _, _, hwanted, hparts, -, hkeeps⟩ := h
  cases hwanted
  cases hparts
  rw [hstep]
  exact hkeeps.mpr (by decide)

/-- An autofactory that is in the reserve as a device as well counts twice. -/
theorem acquireClaimPreservingReserve_countsTwice :
    ∃ o s', acquireClaimPreservingReserve 0 (.device "D1") [.device "F1", .autofactory "F1"] 2 2
        Scenario.created = .ok (o, s') ∧
      ¬ s'.KeepsReserve [.device "F1", .autofactory "F1"] 2 := by
  refine ⟨_, _, rfl, fun ⟨free, hcard, hdist, hfree⟩ => ?_⟩
  obtain ⟨i, hi, j, hj, hne⟩ := Finset.one_lt_card.mp hcard
  have hfactory : ∀ i ∈ free, PhysicallyEqual i ⟨.device, "F1"⟩ := by
    intro i hi
    obtain ⟨⟨r, hr, hparts⟩, -⟩ := hfree i hi
    simp only [List.mem_cons, List.not_mem_nil, or_false] at hr
    rcases hr with rfl | rfl <;> cases hparts <;> decide
  exact hne (hdist i hi j hj ((hfactory i hi).trans (hfactory j hj).symm))

/-! ## Handoffs -/

section Handoff

variable {source dest : WorkflowId} {r : ResourceKey} {rs : List ResourceKey}
  {before mid after : ClaimTable} {row : WorkflowRow}

/-- The claim is on one of the resources. -/
def ClaimRow.On (c : ClaimRow) (rs : List ResourceKey) : Prop :=
  ∃ r ∈ rs, ∃ wanted, r.persistedParts = .ok wanted ∧ PhysicallyEqual wanted c.resource

lemma ClaimRow.on_cons : c.On (r :: rs) ↔ c.On [r] ∨ c.On rs := by
  simp only [On, List.exists_mem_cons_iff, List.not_mem_nil, false_and, exists_false, or_false]

/-- There are claims on the resources, all in one hand. -/
structure InHand (dest : WorkflowId) (rs : List ResourceKey) (claims : ClaimTable) : Prop where
  owned : ∀ c ∈ claims, c.On rs → c.workflowId = dest
  held : ∀ r ∈ rs, ∃ wanted, r.persistedParts = .ok wanted ∧
    ∃ c ∈ claims, PhysicallyEqual wanted c.resource

/-- The claims on the resources have come into one hand. No claim is lost or new, and those on other
resources have not changed. -/
structure HandedOff (dest : WorkflowId) (rs : List ResourceKey) (before after : ClaimTable) : Prop
    extends InHand dest rs after where
  resources : after.rows.map (·.resource) = before.rows.map (·.resource)
  others : ∀ c : ClaimRow, ¬ c.On rs → (c ∈ after ↔ c ∈ before)

lemma HandedOff.nil (dest : WorkflowId) (claims : ClaimTable) : HandedOff dest [] claims claims :=
  { owned := fun _ _ ⟨_, hr, _⟩ => absurd hr List.not_mem_nil
    held := fun _ hr => absurd hr List.not_mem_nil
    resources := rfl
    others := fun _ _ => Iff.rfl }

/-- A resource that is claimed stays claimed. -/
lemma claimed_of_resources (h : after.rows.map (·.resource) = before.rows.map (·.resource))
    (hsome : ∃ c ∈ before, PhysicallyEqual wanted c.resource) :
    ∃ c ∈ after, PhysicallyEqual wanted c.resource := by
  obtain ⟨c, hc, hphys⟩ := hsome
  have hstill : c.resource ∈ after.rows.map (·.resource) := h ▸ List.mem_map_of_mem hc
  obtain ⟨d, hd, hsame⟩ := List.mem_map.mp hstill
  exact ⟨d, hd, hsame ▸ hphys⟩

lemma HandedOff.cons (h : HandedOff dest [r] before mid) (h' : HandedOff dest rs mid after) :
    HandedOff dest (r :: rs) before after where
  owned := by
    intro c hc hon
    by_cases hrest : c.On rs
    · exact h'.owned c hc hrest
    · exact h.owned c ((h'.others c hrest).mp hc) ((ClaimRow.on_cons.mp hon).resolve_right hrest)
  held := by
    obtain ⟨wanted, hparts, hsome⟩ := h.held r (List.mem_singleton_self r)
    exact List.forall_mem_cons.mpr
      ⟨⟨wanted, hparts, claimed_of_resources h'.resources hsome⟩, h'.held⟩
  resources := h'.resources.trans h.resources
  others := by
    intro c hoff
    rw [ClaimRow.on_cons, not_or] at hoff
    exact (h'.others c hoff.2).trans (h.others c hoff.1)

lemma transferClaimIn_spec (h : transferClaimIn source dest now r s = .ok ((), s')) :
    HandedOff dest [r] s.claims s'.claims ∧ s' = { s with claims := s'.claims } := by
  obtain ⟨wanted, hparts, howners, hcase⟩ := transferClaimIn_iff.mp h
  have hon : ∀ c : ClaimRow, c.On [r] ↔ PhysicallyEqual wanted c.resource := by
    intro c
    simp [ClaimRow.On, hparts]
  have hheld : ∀ {claims : ClaimTable}, (∃ c ∈ claims, PhysicallyEqual wanted c.resource) →
      ∀ r' ∈ [r], ∃ wanted, r'.persistedParts = .ok wanted ∧
        ∃ c ∈ claims, PhysicallyEqual wanted c.resource := by
    intro claims hsome r' hr'
    rw [List.mem_singleton.mp hr']
    exact ⟨wanted, hparts, hsome⟩
  rcases hcase with ⟨⟨c, hc, hphys, -⟩, hnot, rfl⟩ | ⟨⟨c, hc, hphys, -⟩, -, rfl⟩
  · refine ⟨⟨⟨fun d hd hd' => ?_, hheld ⟨c, hc, hphys⟩⟩, rfl, fun _ _ => Iff.rfl⟩, rfl⟩
    rw [hon] at hd'
    exact (howners d hd hd').resolve_left fun hown => hnot ⟨d, hd, hd', hown⟩
  · have hress : (s.moveClaims source dest wanted now).claims.rows.map (·.resource) =
        s.claims.rows.map (·.resource) := by
      rw [Repo.moveClaims, rows_update, List.map_map]
      refine List.map_congr_left fun d _ => ?_
      simp only [Function.comp]
      split <;> rfl
    refine ⟨⟨⟨fun d hd hd' => ?_, hheld (claimed_of_resources hress ⟨c, hc, hphys⟩)⟩,
      hress, fun d hoff => ⟨fun hd => ?_, fun hd => ?_⟩⟩, rfl⟩
    · rcases ClaimsOk.mem_move howners hd with ⟨-, hother⟩ | ⟨-, hown⟩
      · exact absurd ((hon d).mp hd') hother
      · exact hown
    · rcases ClaimsOk.mem_move howners hd with ⟨hd, -⟩ | ⟨hd', -⟩
      · exact hd
      · exact absurd ((hon d).mpr hd') hoff
    · rw [Repo.moveClaims, mem_update]
      exact ⟨d, hd, if_neg (by simp [matches_iff, (hon d).not.mp hoff])⟩

/-- The run of the loop, from its steps. -/
lemma transferClaimsIn_spec (h : transferClaimsIn source dest rs now s = .ok ((), s')) :
    HandedOff dest rs s.claims s'.claims ∧ s' = { s with claims := s'.claims } := by
  replace h := (transferClaimsIn_iff.mp h).2
  induction rs generalizing s with
  | nil =>
    obtain ⟨-, rfl⟩ := h
    exact ⟨.nil dest _, rfl⟩
  | cons r rs ih =>
    rw [List.forM_cons, bind_eq_ok] at h
    obtain ⟨_, x, hone, hrest⟩ := h
    obtain ⟨hfirst, hx⟩ := transferClaimIn_spec hone
    obtain ⟨hothers, hs'⟩ := ih hrest
    exact ⟨hfirst.cons hothers, by rw [hs', hx]⟩

/-- The handoff between two workflows can be repeated at any time, and then nothing changes. -/
def Repo.Settled (s : Repo) (source dest : WorkflowId) (rs : List ResourceKey) : Prop :=
  source ≠ dest → ∀ now, transferClaims source dest rs now s = .ok ((), s)

lemma InHand.settled (h : InHand dest rs s.claims) (hrelated : s.Related source dest) :
    s.Settled source dest rs := by
  intro hne now
  refine transferClaimsIn_iff.mpr ⟨hrelated, ?_⟩
  have hone : ∀ r ∈ rs, transferClaimIn source dest now r s = .ok ((), s) := by
    intro r hr
    obtain ⟨wanted, hparts, c, hc, hphys⟩ := h.held r hr
    have hdest : ∀ d ∈ s.claims, PhysicallyEqual wanted d.resource → d.workflowId = dest :=
      fun d hd hd' => h.owned d hd ⟨r, hr, wanted, hparts, hd'⟩
    refine transferClaimIn_iff.mpr ⟨wanted, hparts, fun d hd hd' => .inr (hdest d hd hd'),
      .inl ⟨⟨c, hc, hphys, hdest c hc hphys⟩, ?_, rfl⟩⟩
    rintro ⟨d, hd, hd', hsrc⟩
    exact hne (hsrc.symm.trans (hdest d hd hd'))
  clear hrelated h
  induction rs with
  | nil => rfl
  | cons r rs ih =>
    rw [List.forM_cons, bind_eq_ok]
    exact ⟨(), s, hone r List.mem_cons_self, ih fun r' hr' => hone r' (List.mem_cons_of_mem r hr')⟩

lemma transferClaimsIn_settled (h : transferClaimsIn source dest rs now s = .ok ((), s')) :
    s'.Settled source dest rs := by
  obtain ⟨hclaims, hsame⟩ := transferClaimsIn_spec h
  refine hclaims.toInHand.settled ?_
  rw [hsame]
  exact (transferClaimsIn_iff.mp h).1

lemma createWithParentClaims_spec {workflow : NewWorkflow}
    (h : createWithParentClaims u workflow rs now s = .ok (row, s')) :
    HandedOff row.id rs s.claims s'.claims ∧
      (rs ≠ [] → ∃ parent, workflow.parentId = some parent ∧ s'.Settled parent row.id rs) := by
  simp only [createWithParentClaims, bind_ensure, bind_drawUuid] at h
  obtain ⟨-, h⟩ := h
  simp only [insertWorkflowIn, bind_eq_ok, requireWorkflow_eq_ok, pure_eq_ok] at h
  obtain ⟨_, _, ⟨_, x, hinsert, ⟨-, hid⟩, rfl⟩, _, y, hclaims, rfl, rfl⟩ := h
  obtain ⟨-, rfl⟩ := insertWorkflowRow_spec hinsert
  rw [hid]
  rcases when_eq_ok.mp hclaims with ⟨-, hclaims⟩ | ⟨hnone, rfl⟩
  · rw [inheritClaims, bind_require] at hclaims
    obtain ⟨parent, hpar, htransfer⟩ := hclaims
    exact ⟨(transferClaimsIn_spec htransfer).1,
      fun _ => ⟨parent, hpar, transferClaimsIn_settled htransfer⟩⟩
  · rw [not_not] at hnone
    subst hnone
    exact ⟨.nil _ _, fun hne => absurd rfl hne⟩

/-- An ending workflow returns claims and changes nothing else, and a parent that is alive gets
them. -/
lemma returnClaims_spec {current : WorkflowRow} {x : Unit}
    (h : Tx.when (rs ≠ []) (returnClaims current rs now) s = .ok (x, s')) :
    s' = { s with claims := s'.claims } ∧ ∀ parent, current.parentId = some parent →
      Live s'.workflows parent → HandedOff parent rs s.claims s'.claims := by
  rcases when_eq_ok.mp h with ⟨-, h⟩ | ⟨hnone, rfl⟩
  · cases hpar : current.parentId with
    | none =>
      simp only [returnClaims, hpar, pure_eq_ok] at h
      rw [h.2]
      exact ⟨rfl, nofun⟩
    | some parent =>
      simp only [returnClaims, hpar, bind_query] at h
      rcases when_eq_ok.mp h with ⟨-, h⟩ | ⟨hended, rfl⟩
      · obtain ⟨hhanded, hsame⟩ := transferClaimsIn_spec h
        exact ⟨hsame, fun p hp _ => Option.some.inj hp ▸ hhanded⟩
      · refine ⟨rfl, fun p hp hlive => ?_⟩
        cases hp
        obtain ⟨w, hw, hid, hopen⟩ := hlive
        rw [find?_eq_some.mpr ⟨hw, hid⟩, Option.any_some, hopen] at hended
        exact absurd rfl hended
  · rw [not_not] at hnone
    subst hnone
    exact ⟨rfl, fun _ _ _ => .nil _ _⟩

lemma completeWithParentClaims_spec {id parent : WorkflowId} {revision : ℕ} {state : WorkflowState}
    (h : completeWithParentClaims id revision state rs now s = .ok (row, s'))
    (hpar : row.parentId = some parent) (hlive : Live s'.workflows parent) :
    ∃ mid, HandedOff parent rs s.claims mid ∧ s'.claims = mid.delete (·.workflowId = id) ∧
      s'.Settled id parent rs := by
  rw [completeWithParentClaims, bind_ensure] at h
  obtain ⟨hsucceeded, h⟩ := h
  have hterm : state.status.isTerminal = true := by rw [hsucceeded]; rfl
  obtain ⟨w, -, rfl, -, -, rfl, hrow, ⟨hopen, -⟩ | ⟨-, y, hreturn, rfl⟩⟩ := updateState_spec h
  · rw [hterm] at hopen
    cases hopen
  have hhanded := (returnClaims_spec hreturn).2 parent hpar hlive
  refine ⟨y.claims, hhanded, rfl, fun hne => InHand.settled ⟨?_, ?_⟩ ?_ hne⟩
  · exact fun c hc => hhanded.owned c (mem_delete.mp hc).1
  · intro r hr
    obtain ⟨wanted, hparts, c, hc, hphys⟩ := hhanded.held r hr
    have hdest : c.workflowId = parent := hhanded.owned c hc ⟨r, hr, wanted, hparts, hphys⟩
    refine ⟨wanted, hparts, c, mem_delete.mpr ⟨hc, ?_⟩, hphys⟩
    rw [hdest, decide_eq_false hne.symm]
  · obtain ⟨v, hv, hvid, hopen⟩ := hlive
    exact ⟨_, hrow, rfl, v, hv, hvid, hopen, .inl hpar⟩

/-- A handoff that succeeds brings the claims on its resources into one hand and can be repeated,
and one that fails leaves everything as it was. The same holds for the handoff to a child that is
created and for the one from a child that completes, whose other claims are deleted. -/
theorem handoff_custody (u : IdSource) (s : Repo) (source dest : WorkflowId) (rs : List ResourceKey)
    (now : ℤ) :
    (match transferClaims source dest rs now s with
      | .ok (_, s') => HandedOff dest rs s.claims s'.claims ∧ s'.Settled source dest rs
      | .error _ => step u s (.transferClaims source dest rs now) = s) ∧
    (∀ workflow, match createWithParentClaims u workflow rs now s with
      | .ok (row, s') => HandedOff row.id rs s.claims s'.claims ∧
          (rs ≠ [] → ∃ parent, workflow.parentId = some parent ∧ s'.Settled parent row.id rs)
      | .error _ => step u s (.createWithParentClaims workflow rs now) = s) ∧
    ∀ revision state, match completeWithParentClaims source revision state rs now s with
      | .ok (row, s') => ∀ parent, row.parentId = some parent → Live s'.workflows parent →
          ∃ mid, HandedOff parent rs s.claims mid ∧ s'.claims = mid.delete (·.workflowId = source) ∧
            s'.Settled source parent rs
      | .error _ => step u s (.completeWithParentClaims source revision state rs now) = s := by
  refine ⟨?_, fun workflow => ?_, fun revision state => ?_⟩
  · rw [step_eq, transaction]
    cases h : transferClaims source dest rs now s with
    | error => rfl
    | ok p => exact ⟨(transferClaimsIn_spec h).1, transferClaimsIn_settled h⟩
  · rw [step_eq, transaction, Tx.void_apply]
    cases h : createWithParentClaims u workflow rs now s with
    | error => rfl
    | ok p => exact createWithParentClaims_spec h
  · rw [step_eq, transaction, Tx.void_apply]
    cases h : completeWithParentClaims source revision state rs now s with
    | error => rfl
    | ok p => exact fun parent => completeWithParentClaims_spec h

end Handoff

end Replicant.Workflow
