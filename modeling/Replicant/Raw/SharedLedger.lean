import Mathlib.Algebra.Order.Ring.Int
import Replicant.Raw.RateLimit

/-!
# Permits across processes

Processes share a ledger, and each call is one transaction on it. A grant raises the next permit of
the bucket and of the refresh run, a block raises that of the bucket, and a next permit falls only
when its run is cleared. Sums of milliseconds stop at `i64::MAX`, so grants are spaced up to there.
-/

namespace Replicant.Raw

open List

namespace SharedRateLimit

variable {shared : SharedRateLimit} {op : LedgerOp} {ops : List LedgerOp} {runId : String} {t : ℤ}
  {key : Option String} {context : Option RefreshBudgetContext}

/-- The next permit of the bucket, or of a run. -/
def nextMs (shared : SharedRateLimit) : Option String → ℤ
  | none => (shared.schedule.getD ⟨0, 0⟩).nextPermitMs
  | some runId => ((shared.refresh runId).getD ⟨0, 0, 0⟩).nextPermitMs

def permitCount (shared : SharedRateLimit) (runId : String) : ℤ :=
  ((shared.refresh runId).getD ⟨0, 0, 0⟩).permitCount

/-- The grants to a run. -/
def grantsOf (runId : String) (ops : List LedgerOp) : ℕ :=
  ops.countP fun
    | .acquire _ _ (some context) => context.runId = runId
    | _ => false

/-! ## Grants -/

lemma next_le_grantAt (nowMs : ℤ) (hkey : key = none ∨ key = context.map (·.runId)) :
    shared.nextMs key ≤ shared.grantAt nowMs context := by
  rcases hkey with rfl | rfl
  · dsimp only [nextMs, grantAt]
    omega
  · cases context <;> dsimp only [nextMs, grantAt, Option.map, Option.bind] <;> omega

lemma le_saturatingAdd {a b : ℤ} (ht : t ≤ maxMs) (ha : t ≤ a) (hb : 0 ≤ b) :
    t ≤ saturatingAdd a b := by
  unfold saturatingAdd
  omega

lemma saturatingAdd_zero (ht : t ≤ maxMs) : saturatingAdd t 0 = t := by
  rw [saturatingAdd, Int.add_zero, min_eq_left ht]

/-- What a next permit has reached it keeps, unless its run is cleared. -/
lemma le_next_transact (ht : t ≤ maxMs) (h : t ≤ shared.nextMs key)
    (hop : ∀ runId ∈ key, op ≠ .clearRefreshSchedule runId) :
    t ≤ (shared.transact op).nextMs key := by
  cases op with
  | acquire nowMs policy context =>
    have hgrant (hkey : key = none ∨ key = context.map (·.runId)) :
        t ≤ shared.grantAt nowMs context := le_trans h (next_le_grantAt nowMs hkey)
    have hone (a : ℤ) : 0 ≤ max a 1 := Int.le_trans Int.one_nonneg (le_max_right a 1)
    cases key with
    | none => exact le_saturatingAdd ht (hgrant (.inl rfl)) (hone _)
    | some runId =>
      cases context with
      | none => exact h
      | some context =>
        by_cases heq : runId = context.runId
        · subst heq
          have hpaced : t ≤ saturatingAdd _ context.spacingMs :=
            le_saturatingAdd ht (hgrant (.inr rfl)) (hone _)
          simpa [transact, nextMs] using hpaced
        · simpa [transact, nextMs, heq] using h
  | blockFor nowMs delay =>
    cases key with
    | none =>
      dsimp only [transact, nextMs] at h ⊢
      cases hrow : shared.schedule with
      | none =>
        rw [hrow] at h
        refine le_trans ?_ (le_max_right _ _)
        exact le_saturatingAdd ht (le_trans h (Int.natCast_nonneg nowMs))
          (le_min (Int.natCast_nonneg _) (by decide))
      | some row =>
        rw [hrow] at h
        exact le_trans h (le_max_left _ _)
    | some => exact h
  | clearRefreshSchedule id =>
    cases key with
    | none => exact h
    | some runId =>
      have hne : runId ≠ id := fun heq => hop runId rfl (heq ▸ rfl)
      simpa [transact, nextMs, hne] using h

lemma le_grantAt_run (laterMs : ℤ) (hkey : key = none ∨ key = context.map (·.runId))
    (ht : t ≤ maxMs) (h : t ≤ shared.nextMs key)
    (hops : ∀ runId ∈ key, .clearRefreshSchedule runId ∉ ops) :
    t ≤ (ops.foldl transact shared).grantAt laterMs context := by
  have hnext : t ≤ (ops.foldl transact shared).nextMs key :=
    foldlRecOn (motive := fun s => t ≤ s.nextMs key) ops transact h fun _ hs _ hmem =>
      le_next_transact ht hs fun runId hrun heq => hops runId hrun (heq ▸ hmem)
  exact le_trans hnext (next_le_grantAt laterMs hkey)

lemma permitCount_transact (hle : shared.permitCount runId ≤ maxMs)
    (hop : op ≠ .clearRefreshSchedule runId) : (shared.transact op).permitCount runId =
      saturatingAdd (shared.permitCount runId) (grantsOf runId [op]) := by
  have hsame := saturatingAdd_zero hle
  cases op with
  | acquire nowMs policy context =>
    cases context with
    | none => exact hsame.symm
    | some context =>
      by_cases heq : context.runId = runId
      · subst heq
        simp [grantsOf, permitCount, transact]
      · simpa [grantsOf, permitCount, transact, heq, Ne.symm heq] using hsame.symm
  | blockFor => exact hsame.symm
  | clearRefreshSchedule id =>
    have hne : runId ≠ id := fun heq => hop (heq ▸ rfl)
    simpa [grantsOf, permitCount, transact, hne] using hsame.symm

lemma permitCount_run (hle : shared.permitCount runId ≤ maxMs)
    (hops : .clearRefreshSchedule runId ∉ ops) : (ops.foldl transact shared).permitCount runId =
      saturatingAdd (shared.permitCount runId) (grantsOf runId ops) := by
  induction ops generalizing shared with
  | nil => exact (saturatingAdd_zero hle).symm
  | cons op ops ih =>
    have hfirst := permitCount_transact hle fun heq => hops (heq ▸ mem_cons_self)
    have hcount : grantsOf runId ([op] ++ ops) = grantsOf runId [op] + grantsOf runId ops :=
      countP_append
    rw [singleton_append] at hcount
    rw [foldl_cons, ih (hfirst ▸ min_le_right _ _) fun hmem => hops (mem_cons_of_mem _ hmem)]
    unfold saturatingAdd at *
    omega

/-- A grant lies after every earlier grant and block, whatever the ledger was before. -/
theorem grants_spaced (shared : SharedRateLimit) (nowMs : ℕ) (policy : RateLimitPolicy)
    (first : Option RefreshBudgetContext) (ops : List LedgerOp) (laterMs : ℕ)
    (later : Option RefreshBudgetContext) :
    let grant := shared.grantAt nowMs first
    let granted := shared.transact (.acquire nowMs policy first)
    let after := (ops.foldl transact granted).grantAt laterMs later
    saturatingAdd grant policy.spacingMs ≤ after ∧ (grant < maxMs → grant < after) ∧
    (∀ run ∈ first, later.map (·.runId) = some run.runId → .clearRefreshSchedule run.runId ∉ ops →
      saturatingAdd grant run.spacingMs ≤ after) ∧
    (∀ delay, saturatingAdd nowMs (durationMillis delay) ≤
      (ops.foldl transact (shared.transact (.blockFor nowMs delay))).grantAt laterMs later) ∧
    ∀ runId, shared.refresh runId = none → .clearRefreshSchedule runId ∉ ops →
      (ops.foldl transact shared).permitCount runId = min (grantsOf runId ops : ℤ) maxMs := by
  intro grant granted after
  have hnext : saturatingAdd grant policy.spacingMs ≤ after :=
    le_grantAt_run laterMs (.inl rfl) (min_le_right _ _) (le_refl _) nofun
  refine ⟨hnext, fun hlt => lt_of_lt_of_le ?_ hnext, fun run hrun heq hops => ?_, fun delay => ?_,
    fun runId hnone hops => ?_⟩
  · have hspacing : 1 ≤ policy.spacingMs := le_max_right _ _
    unfold saturatingAdd
    omega
  · have hops' : ∀ runId ∈ some run.runId, .clearRefreshSchedule runId ∉ ops := by
      rintro _ ⟨⟩
      exact hops
    refine le_grantAt_run laterMs (.inr heq.symm) (min_le_right _ _) ?_ hops'
    obtain rfl := hrun
    simp [granted, transact, nextMs, grant]
  · exact le_grantAt_run laterMs (.inl rfl) (min_le_right _ _) (le_max_right _ _) nofun
  · have hzero : shared.permitCount runId = 0 := by rw [permitCount, hnone]; rfl
    rw [permitCount_run (by rw [hzero]; decide) hops, hzero, saturatingAdd, Int.zero_add]

/-- Two grants a tenth of a second apart, and the second of a run. -/
theorem grants_spaced_two : let run : RefreshBudgetContext := ⟨"run", 60⟩
    let later := ((⟨none, fun _ => none⟩ : SharedRateLimit).transact
      (.acquire 5 ⟨10, 1000000000⟩ (some run))).grantAt 0 (some run)
    105 ≤ later ∧ 5 < later ∧ 1005 ≤ later := by
  have h := grants_spaced ⟨none, fun _ => none⟩ 5 ⟨10, 1000000000⟩ (some ⟨"run", 60⟩) [] 0
    (some ⟨"run", 60⟩)
  exact ⟨h.1, h.2.1 (by decide), h.2.2.1 _ rfl rfl nofun⟩

/-- After a block without end, every grant is recorded at the last instant. -/
theorem exists_equal_grants : ∃ ops : List LedgerOp,
    let before := ops.foldl transact ⟨none, fun _ => none⟩
    (before.transact (.acquire 0 ⟨10, 1000000000⟩ none)).grantAt 0 none = before.grantAt 0 none :=
  ⟨[.blockFor 0 (10 ^ 25)], by decide⟩

end SharedRateLimit

end Replicant.Raw
