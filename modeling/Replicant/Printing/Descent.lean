import Replicant.Lib.Production
import Replicant.Lib.Triple
import Replicant.Printing.Dependencies

/-!
# The descent into the components

The stock, the reserved components and the waves of an expansion are a ledger of production. Each
requirement that the descent schedules is met in it; when a blueprint is missing, no quantities cover
the demand, and a cycle that is reported is one of the declared components.
-/

namespace Replicant.Printing

open Lib Lib.Production Std List ExtTreeMap

variable {c : String} {need need' : String → ℤ} {depth : ℕ} {e : Option ScheduleError}
  {missing quantity : ℤ} {entries : List (String × ℤ)} {blueprint : Blueprint}
  {visiting : List String}

variable {blueprints : Catalogue} {s s' s'' : Expansion} {schedule : String → ℤ → Descent ℕ}

/-! ## The ledger -/

lemma getD_addQuantity (m : QuantityMap) (key t : String) (n : ℤ) :
    (addQuantity m key n).getD t 0 = m.getD t 0 + if t = key then n else 0 := by
  unfold addQuantity
  rw [getD_alter]
  simp only [Std.compare_eq_iff_eq, eq_comm (a := t)]
  split
  · next heq => rw [heq, Option.getD_some, getD_eq_getD_getElem?]
  · rw [Int.add_zero]

def ledger (s : Expansion) : Ledger String where
  stock t := s.available.getD t 0
  taken t := s.reused.getD t 0
  made t := (s.waves.toList.map fun entry => entry.2.getD t 0).sum
  wave d t := s.waves[d]?.elim 0 fun wave => wave.getD t 0

lemma ledger_reuse {a : ℤ} (h : s.available.getD c 0 = a) (n : ℤ) :
    ledger (s.reuse c a n) = (ledger s).take c n := by
  have hstock : (ledger (s.reuse c a n)).stock = ((ledger s).take c n).stock := by
    funext t
    show (s.available.insert c (a - n)).getD t 0 = s.available.getD t 0 - if t = c then n else 0
    rw [getD_insert]
    simp only [Std.compare_eq_iff_eq, eq_comm (a := t)]
    split
    · next heq => rw [← heq, h]
    · rw [Int.sub_zero]
  have htaken : (ledger (s.reuse c a n)).taken = ((ledger s).take c n).taken :=
    funext fun t => getD_addQuantity s.reused c t n
  show (⟨_, _, _, _⟩ : Ledger String) = ⟨_, _, _, _⟩
  rw [Ledger.mk.injEq]
  exact ⟨hstock, htaken, rfl, rfl⟩

lemma getD_addQuantity_wave (wave : Option QuantityMap) (c t : String) (n : ℤ) :
    (addQuantity (wave.getD ∅) c n).getD t 0 =
      (wave.elim 0 fun wave => wave.getD t 0) + if t = c then n else 0 := by
  rw [getD_addQuantity]
  cases wave with
  | none => simp
  | some => rfl

lemma ledger_print (d : ℕ) (c : String) (n : ℤ) :
    ledger (s.print d c n) = (ledger s).make d c n := by
  have hmade : (ledger (s.print d c n)).made = ((ledger s).make d c n).made := by
    funext t
    show ((s.waves.alter d _).toList.map fun entry => entry.2.getD t 0).sum = _ + _
    rw [OrderedMap.sum_entries_alter fun wave : QuantityMap => wave.getD t 0]
    show _ - _ + (addQuantity (s.waves[d]?.getD ∅) c n).getD t 0 = _
    rw [getD_addQuantity_wave]
    show _ = (s.waves.toList.map fun entry => entry.2.getD t 0).sum + _
    omega
  have hwave : (ledger (s.print d c n)).wave = ((ledger s).make d c n).wave := by
    funext e t
    show ((s.waves.alter d _)[e]?.elim 0 fun wave => wave.getD t 0) =
      (s.waves[e]?.elim 0 fun wave => wave.getD t 0) + if e = d ∧ t = c then n else 0
    rw [getElem?_alter]
    simp only [Std.compare_eq_iff_eq, eq_comm (a := e)]
    split
    · next heq => simp [getD_addQuantity_wave, heq]
    · next hne => simp [hne]
  show (⟨_, _, _, _⟩ : Ledger String) = ⟨_, _, _, _⟩
  rw [Ledger.mk.injEq]
  exact ⟨rfl, rfl, hmade, hwave⟩

/-! ## What a requirement leads to -/

/-- Quantities that cover some demand from some stock, and have blueprints. -/
structure Solution (blueprints : Catalogue) where
  stock : String → ℤ
  need : String → ℤ
  bound : String → ℤ
  covers : ∀ t, bound t =
    max 0 (need t + uses blueprints.keys.toFinset (componentCount blueprints) bound t - stock t)
  unlocked : ∀ t, 0 < bound t → t ∈ blueprints

def Solution.Admits (solution : Solution blueprints) (making rest : String → ℤ) (s : Expansion) :
    Prop :=
  Within blueprints.keys.toFinset (componentCount blueprints) solution.stock solution.need
    solution.bound making rest (ledger s)

/-- These needs are met. -/
structure Done (blueprints : Catalogue) (need : String → ℤ) (s : Expansion) (depth : ℕ)
    (s' : Expansion) : Prop where
  meets : Meets blueprints.keys.toFinset (componentCount blueprints) need depth (ledger s) (ledger s')
  unlocked : ∀ t, (ledger s).made t < (ledger s').made t → t ∈ blueprints
  admits : ∀ (solution : Solution blueprints) (making rest : String → ℤ), (∀ t, 0 ≤ rest t) →
    solution.Admits making (fun t => rest t + need t) s → solution.Admits making rest s'

/-- These needs cannot be met, or there is a cycle. -/
def Refused (blueprints : Catalogue) (need : String → ℤ) (s : Expansion) :
    Option ScheduleError → Prop
  | some (.componentCycle t) => Relation.TransGen (Uses blueprints) t t
  | some (.missingComponentBlueprint _ _) =>
    ∀ (solution : Solution blueprints) (making rest : String → ℤ), (∀ t, 0 ≤ rest t) →
      ¬ solution.Admits making (fun t => rest t + need t) s
  | some (.missingBlueprint _) | some (.invalidQuantity _ _) | none => False

/-- A descent that meets these needs or refuses them. -/
def Settles (blueprints : Catalogue) (m : Descent ℕ) (need : String → ℤ) (s : Expansion) : Prop :=
  m.Ends s (Done blueprints need s) (Refused blueprints need s)

lemma Done.refl (h : NonnegativeStock s.available) (depth : ℕ) :
    Done blueprints (fun _ => 0) s depth s where
  meets := Meets.refl h
  unlocked t hlt := absurd hlt (Int.lt_irrefl _)
  admits solution making rest _ hadmits := by simpa only [Int.add_zero] using hadmits

lemma add_right_rotate (rest need need' : String → ℤ) :
    (fun t => rest t + need' t + need t) = fun t => rest t + (need t + need' t) := by
  funext t
  omega

lemma Done.trans {depth' : ℕ}
    (h : Done blueprints need s depth s') (h' : Done blueprints need' s' depth' s'') :
    Done blueprints (fun t => need t + need' t) s (max depth depth') s'' where
  meets := h.meets.trans h'.meets
  unlocked t hlt := by
    rcases Int.lt_or_le ((ledger s').made t) ((ledger s'').made t) with hlate | hlate
    · exact h'.unlocked t hlate
    · exact h.unlocked t (Int.lt_of_lt_of_le hlt hlate)
  admits solution making rest hrest hadmits := by
    refine h'.admits solution making rest hrest (h.admits solution making _ ?_ ?_)
    · exact fun t => Int.add_nonneg (hrest t) (h'.meets.need_nonneg t)
    · rw [add_right_rotate]
      exact hadmits

/-- A refusal is passed on to whoever has to meet the needs. -/
lemma Refused.pass (h : Refused blueprints need' s' e)
    (hpass : ∀ (solution : Solution blueprints) (making rest : String → ℤ), (∀ t, 0 ≤ rest t) →
      solution.Admits making (fun t => rest t + need t) s →
      ∃ making' rest' : String → ℤ, (∀ t, 0 ≤ rest' t) ∧
        solution.Admits making' (fun t => rest' t + need' t) s') : Refused blueprints need s e := by
  cases e with
  | none => exact h
  | some e =>
    cases e with
    | missingComponentBlueprint =>
      intro solution making rest hrest hadmits
      obtain ⟨making', rest', hrest', hadmits'⟩ := hpass solution making rest hrest hadmits
      exact h solution making' rest' hrest' hadmits'
    | _ => exact h

/-- What is refused after some needs are met is refused with them. -/
lemma Refused.trans (h : Done blueprints need s depth s') (hneed : ∀ t, 0 ≤ need' t)
    (h' : Refused blueprints need' s' e) : Refused blueprints (fun t => need t + need' t) s e := by
  refine h'.pass fun solution making rest hrest hadmits => ⟨making, rest, hrest, ?_⟩
  refine h.admits solution making _ (fun t => Int.add_nonneg (hrest t) (hneed t)) ?_
  rw [add_right_rotate]
  exact hadmits

lemma Refused.mono (hneed : ∀ t, 0 ≤ need' t) (h : Refused blueprints need s e) :
    Refused blueprints (fun t => need t + need' t) s e := by
  refine h.pass fun solution making rest hrest hadmits => ⟨making, fun t => rest t + need' t, ?_, ?_⟩
  · exact fun t => Int.add_nonneg (hrest t) (hneed t)
  · rw [add_right_rotate]
    exact hadmits

/-! ## Component counts -/

/-- What the entries of a list of components add up to. -/
def entriesNeed (quantity : ℤ) (entries : List (String × ℤ)) (t : String) : ℤ :=
  (entries.map fun entry => if t = entry.1 then entry.2 * quantity else 0).sum

lemma entriesNeed_nonneg (hqty : 0 < quantity)
    (h : ∀ entry ∈ entries, 0 < entry.2) (t : String) : 0 ≤ entriesNeed quantity entries t := by
  apply sum_nonneg
  intro n hn
  obtain ⟨entry, hentry, rfl⟩ := mem_map.mp hn
  split
  · exact Int.mul_nonneg (Int.le_of_lt (h entry hentry)) (Int.le_of_lt hqty)
  · exact Int.le_refl _

lemma entriesNeed_toList (components : QuantityMap) (quantity : ℤ) (t : String) :
    entriesNeed quantity components.toList t = quantity * components.getD t 0 := by
  unfold entriesNeed
  rw [OrderedMap.sum_entries_eq_sum (fun k n => if t = k then n * quantity else 0)
      (insert t components.keys.toFinset)
      fun k hk => Finset.mem_insert_of_mem (OrderedMap.mem_keys_toFinset.mpr hk),
    Finset.sum_eq_single_of_mem t (Finset.mem_insert_self _ _), getD_eq_getD_getElem?]
  · cases components[t]? <;> simp [Int.mul_comm]
  · intro k _ hk
    cases components[k]? <;> simp [hk.symm]

lemma componentCount_eq (h : blueprints[c]? = some blueprint)
    (t : String) : componentCount blueprints c t = blueprint.components.getD t 0 := by
  simp [componentCount, h]

lemma componentCount_nonneg (h : PositiveCounts blueprints) (c t : String) :
    0 ≤ componentCount blueprints c t := by
  cases hc : blueprints[c]? with
  | none => simp [componentCount, hc]
  | some blueprint =>
    rw [componentCount_eq hc]
    exact OrderedMap.getD_nonneg (h c blueprint hc) t

/-! ## The descent -/

/-- The loop over the components of a device, when the descent into each of them is right. -/
lemma ends_scheduleComponents (hqty : 0 < quantity) (hentries : ∀ entry ∈ entries, 0 < entry.2)
    (hschedule : ∀ entry ∈ entries, ∀ n s, 0 < n → NonnegativeStock s.available →
      Settles blueprints (schedule entry.1 n) (fun t => if t = entry.1 then n else 0) s)
    (deepest : ℕ) (hstock : NonnegativeStock s.available) :
    (scheduleComponents schedule quantity deepest entries).Ends s
      (fun depth s' => ∃ last, depth = max deepest last ∧
        Done blueprints (entriesNeed quantity entries) s last s')
      (Refused blueprints (entriesNeed quantity entries) s) := by
  induction entries generalizing s deepest with
  | nil => exact ⟨0, (Nat.max_zero deepest).symm, Done.refl hstock 0⟩
  | cons entry entries ih =>
    obtain ⟨component, count⟩ := entry
    have hpos : 0 < count * quantity :=
      Int.mul_pos (hentries _ mem_cons_self) hqty
    have hrest : ∀ e ∈ entries, 0 < e.2 := fun e he => hentries e (mem_cons_of_mem _ he)
    have hnonneg := entriesNeed_nonneg hqty hrest
    -- The first component, and then the others with what is left.
    have hfirst := hschedule (component, count) mem_cons_self (count * quantity) s hpos hstock
    unfold scheduleComponents
    refine Tx.Ends.bind (hfirst.imp (fun _ _ h => h) fun e he => Refused.mono hnonneg he) ?_
    intro depth s₁ hdone
    have hothers := ih hrest (fun e he => hschedule e (mem_cons_of_mem _ he)) (max deepest depth)
      hdone.meets.stock_nonneg
    refine hothers.imp ?_ fun e he => he.trans hdone hnonneg
    rintro last s₂ ⟨last', rfl, hlast⟩
    exact ⟨max depth last', Nat.max_assoc _ _ _, hdone.trans hlast⟩

/-- The components of a device, when the descent into each of them is right. -/
lemma ends_components (hcounts : PositiveCounts blueprints)
    (hblue : blueprints[c]? = some blueprint) (hqty : 0 < quantity)
    (hstock : NonnegativeStock s.available)
    (hschedule : ∀ component, Uses blueprints c component → ∀ n s, 0 < n →
      NonnegativeStock s.available →
      Settles blueprints (schedule component n) (fun t => if t = component then n else 0) s) :
    Settles blueprints (scheduleComponents schedule quantity 0 blueprint.components.toList)
      (fun t => quantity * componentCount blueprints c t) s := by
  have hneed : entriesNeed quantity blueprint.components.toList =
      fun t => quantity * componentCount blueprints c t := by
    funext t
    rw [entriesNeed_toList, componentCount_eq hblue]
  have hentry : ∀ entry ∈ blueprint.components.toList,
      blueprint.components[entry.1]? = some entry.2 :=
    fun entry hentry => mem_toList_iff_getElem?_eq_some.mp hentry
  rw [← hneed]
  refine (ends_scheduleComponents hqty
    (fun entry h => hcounts c blueprint hblue entry.1 entry.2 (hentry entry h))
    (fun entry h => hschedule entry.1 ⟨blueprint, hblue,
      OrderedMap.mem_of_getElem?_eq_some (hentry entry h)⟩) 0 hstock).imp ?_ fun _ he => he
  rintro depth s₁ ⟨last, rfl, hlast⟩
  exact hlast

lemma Done.reuse {n : ℤ} (hstock : NonnegativeStock s.available) (hn : 0 < n)
    (hle : n ≤ s.available.getD c 0) :
    Done blueprints (fun t => if t = c then n else 0) s 0 (s.reuse c (s.available.getD c 0) n) where
  meets := by
    rw [ledger_reuse rfl]
    exact Meets.take hstock (Int.le_of_lt hn) hle
  unlocked t hlt := absurd hlt (Int.lt_irrefl _)
  admits solution making rest hrest hadmits := by
    unfold Solution.Admits
    rw [ledger_reuse rfl]
    exact Within.take hadmits hrest hle

section

variable (hcounts : PositiveCounts blueprints)

include hcounts

/-- The stock is reserved, the components of the rest are scheduled, and the rest is printed. -/
lemma Done.print (hblue : blueprints[c]? = some blueprint) (hstock : NonnegativeStock s.available)
    (hmiss : 0 < missing) (hresv : ledger s' = (ledger s).take c (s.available.getD c 0))
    (h : Done blueprints (fun t => missing * componentCount blueprints c t) s' depth s'') :
    Done blueprints (fun t => if t = c then s.available.getD c 0 + missing else 0) s (depth + 1)
      (s''.print (depth + 1) c missing) where
  meets := by
    have hmeets := h.meets
    rw [hresv] at hmeets
    rw [ledger_print]
    exact Meets.make (OrderedMap.mem_keys_toFinset.mpr (OrderedMap.mem_of_getElem?_eq_some hblue)) rfl hmiss
      hmeets (hstock c)
  unlocked t hlt := by
    by_cases ht : t = c
    · rw [ht]
      exact OrderedMap.mem_of_getElem?_eq_some hblue
    · refine h.unlocked t ?_
      rw [ledger_print] at hlt
      rw [hresv]
      simpa [Ledger.make, Ledger.take, ht] using hlt
  admits solution making rest hrest hadmits := by
    have hbegin := Within.begin (componentCount_nonneg hcounts) solution.covers hadmits hrest rfl
      (OrderedMap.mem_keys_toFinset.mpr (OrderedMap.mem_of_getElem?_eq_some hblue)) hmiss
    rw [← hresv] at hbegin
    have hdone := h.admits solution _ rest hrest hbegin
    unfold Solution.Admits
    rw [ledger_print]
    exact hdone.make

/-- No quantities cover the demand when a component that is short has no blueprint. -/
lemma refused_missing (hnone : blueprints[c]? = none) (hmiss : 0 < missing) :
    Refused blueprints (fun t => if t = c then s.available.getD c 0 + missing else 0) s
      (some (.missingComponentBlueprint c missing)) := by
  intro solution making rest hrest hadmits
  have hlt := Within.lt_bound (componentCount_nonneg hcounts) solution.covers hadmits hrest rfl
  have hmade := hadmits.made_nonneg c
  have hmem := solution.unlocked c (by omega)
  rw [mem_iff_isSome_getElem?, hnone] at hmem
  cases hmem

/-- The components of what is missing are refused. -/
lemma Refused.components (hblue : blueprints[c]? = some blueprint) (hmiss : 0 < missing)
    (hresv : ledger s' = (ledger s).take c (s.available.getD c 0))
    (h : Refused blueprints (fun t => missing * componentCount blueprints c t) s' e) :
    Refused blueprints (fun t => if t = c then s.available.getD c 0 + missing else 0) s e := by
  refine h.pass fun solution making rest hrest hadmits =>
    ⟨fun t => making t + if t = c then missing else 0, rest, hrest, ?_⟩
  unfold Solution.Admits
  rw [hresv]
  exact Within.begin (componentCount_nonneg hcounts) solution.covers hadmits hrest rfl
    (OrderedMap.mem_keys_toFinset.mpr (OrderedMap.mem_of_getElem?_eq_some hblue)) hmiss

end

/-- What is missing of a component is printed after its own components. -/
def printMissing (blueprints : Catalogue) (fuel : ℕ) (visiting : List String) (c : String)
    (missing : ℤ) : Descent ℕ := do
  let blueprint ← Tx.require blueprints[c]? (some (.missingComponentBlueprint c missing))
  let deepestChild ← scheduleComponents
    (scheduleComponentRequirement blueprints fuel (visiting ++ [c])) missing 0
    blueprint.components.toList
  Tx.execute (·.print (deepestChild + 1) c missing)
  pure (deepestChild + 1)

/-- A requirement of a component that is not being visited, by what is in stock. -/
lemma schedule_eq (blueprints : Catalogue) (fuel : ℕ)
    (hqty : 0 < quantity) (hnew : c ∉ visiting) (hstock : 0 ≤ s.available.getD c 0) :
    scheduleComponentRequirement blueprints (fuel + 1) visiting c quantity s =
      if quantity ≤ s.available.getD c 0 then .ok (0, s.reuse c (s.available.getD c 0) quantity)
      else printMissing blueprints fuel visiting c (quantity - s.available.getD c 0)
        (if 0 < s.available.getD c 0 then s.reuse c (s.available.getD c 0) (s.available.getD c 0)
          else s) := by
  have hmax : max (s.available.getD c 0) 0 = s.available.getD c 0 := Int.max_eq_left hstock
  unfold scheduleComponentRequirement
  rw [if_neg (Int.not_le.mpr hqty), if_neg hnew, Tx.bind_query, hmax]
  split
  · next hle =>
    rw [Int.min_eq_left hle, Tx.when, if_pos hqty, Tx.bind_execute, Int.sub_self, if_pos rfl]
    rfl
  · next hlt =>
    have hshort : quantity - s.available.getD c 0 ≠ 0 := by omega
    rw [Int.min_eq_right (by omega), if_neg hshort, Tx.when]
    split <;> rfl

/-- What is missing is printed, when the descent into each of its components is right. -/
lemma ends_printMissing (hcounts : PositiveCounts blueprints) {fuel : ℕ}
    (hmiss : 0 < missing) (hqty : s.available.getD c 0 + missing = quantity)
    (hstock : NonnegativeStock s.available)
    (hresv : ledger s' = (ledger s).take c (s.available.getD c 0))
    (hcomps : ∀ component, Uses blueprints c component → ∀ n s, 0 < n →
      NonnegativeStock s.available →
      Settles blueprints (scheduleComponentRequirement blueprints fuel (visiting ++ [c]) component n)
        (fun t => if t = component then n else 0) s) :
    (printMissing blueprints fuel visiting c missing).Ends s'
      (Done blueprints (fun t => if t = c then quantity else 0) s)
      (Refused blueprints (fun t => if t = c then quantity else 0) s) := by
  subst hqty
  have hleft : ∀ t, 0 ≤ (ledger s').stock t := by
    rw [hresv]
    exact Ledger.take_stock_nonneg hstock (Int.le_refl _)
  refine Tx.ends_bind_require (refused_missing hcounts · hmiss) fun blueprint hblue => ?_
  refine Tx.Ends.bind ((ends_components hcounts hblue hmiss hleft hcomps).imp (fun _ _ h => h)
    fun e he => he.components hcounts hblue hmiss hresv) fun depth s₁ hdone => ?_
  exact hdone.print hcounts hblue hstock hmiss hresv

/-- The descent from one requirement. Each type that is visited is a blueprint of its own, so that the
fuel lasts. -/
lemma ends_schedule (hcounts : PositiveCounts blueprints) (fuel : ℕ) (hnodup : visiting.Nodup)
    (hvisiting : ∀ v ∈ visiting, v ∈ blueprints ∧ Relation.TransGen (Uses blueprints) v c)
    (hfuel : blueprints.size < fuel + visiting.length) (hqty : 0 < quantity)
    (hstock : NonnegativeStock s.available) :
    Settles blueprints (scheduleComponentRequirement blueprints fuel visiting c quantity)
      (fun t => if t = c then quantity else 0) s := by
  induction fuel generalizing visiting c quantity s with
  | zero =>
    -- the descent visits each blueprint once on its way down
    have hle := (hnodup.subperm fun v hv => mem_keys.mpr (hvisiting v hv).1).length_le
    rw [length_keys] at hle
    omega
  | succ fuel ih =>
    by_cases hmem : c ∈ visiting
    · unfold scheduleComponentRequirement
      rw [if_neg (Int.not_le.mpr hqty), if_pos hmem]
      exact Tx.ends_fail (hvisiting c hmem).2
    · have heq := schedule_eq blueprints fuel hqty hmem (hstock c)
      by_cases hle : quantity ≤ s.available.getD c 0
      · rw [if_pos hle] at heq
        have hdone : Done blueprints _ s 0 _ := Done.reuse hstock hqty hle
        exact Tx.Ends.congr heq (Tx.ends_pure hdone)
      · rw [if_neg hle] at heq
        have hmiss : 0 < quantity - s.available.getD c 0 := by omega
        have htotal : s.available.getD c 0 + (quantity - s.available.getD c 0) = quantity := by omega
        have hresv : ledger (if 0 < s.available.getD c 0 then
            s.reuse c (s.available.getD c 0) (s.available.getD c 0) else s) =
              (ledger s).take c (s.available.getD c 0) := by
          split
          · exact ledger_reuse rfl _
          · next hnone =>
            have hzero : s.available.getD c 0 = 0 := Int.le_antisymm (Int.not_lt.mp hnone) (hstock c)
            rw [hzero]
            simp [Ledger.take]
        refine Tx.Ends.congr heq (ends_printMissing hcounts hmiss htotal hstock hresv
          fun component huses n s₁ hn hstock₁ => ?_)
        have hknown : c ∈ blueprints := by
          obtain ⟨blueprint, hblue, -⟩ := huses
          exact OrderedMap.mem_of_getElem?_eq_some hblue
        refine ih ?_ (forall_mem_concat (fun v hv => ?_) ⟨hknown, .single huses⟩) ?_ hn hstock₁
        · exact nodup_append.mpr ⟨hnodup, nodup_singleton c, fun v hv w hw heq =>
            hmem (by rw [← mem_singleton.mp hw, ← heq]; exact hv)⟩
        · exact ⟨(hvisiting v hv).1, (hvisiting v hv).2.tail huses⟩
        · rw [length_append, length_singleton]
          omega

end Replicant.Printing
