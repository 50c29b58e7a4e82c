import Replicant.Printing.Descent

/-!
# Print plans can be executed

A plan prints what the stock does not cover and no more, and its waves find their components. Where
there is no plan, a blueprint is missing that every plan needs, or components are declared in a cycle.
-/

namespace Replicant.Printing

open Lib Lib.Production Std List ExtTreeMap OrderedMap

variable {blueprints : Catalogue} {requests : List PrintRequest} {stock requested : QuantityMap}

/-! ## Requests -/

/-- The quantities of all requests are added up. -/
def addRequests (requests : List PrintRequest) (quantities : QuantityMap) : QuantityMap :=
  requests.foldl (fun quantities request =>
    addQuantity quantities request.deviceType request.quantity) quantities

lemma normalizeRequests_eq (requests : List PrintRequest) : normalizeRequests requests =
      (requests.find? (·.quantity ≤ 0)).elim (.ok (addRequests requests ∅))
        fun request => .error (.invalidQuantity request.deviceType request.quantity) := by
  unfold normalizeRequests
  generalize (∅ : QuantityMap) = quantities
  induction requests generalizing quantities with
  | nil => rfl
  | cons request requests ih =>
    rw [foldlM_cons]
    by_cases hle : request.quantity ≤ 0
    · rw [if_pos hle, find?_cons_of_pos (by simpa using hle)]
      rfl
    · rw [if_neg hle, find?_cons_of_neg (by simpa using hle)]
      exact ih _

lemma addQuantity_comm (m : QuantityMap) (a b : String) (x y : ℤ) :
    addQuantity (addQuantity m a x) b y = addQuantity (addQuantity m b y) a x := by
  refine ext_getElem? fun t => ?_
  unfold addQuantity
  simp only [getElem?_alter, Std.compare_eq_iff_eq]
  by_cases ha : a = t
  · by_cases hb : b = t
    · subst ha
      subst hb
      simp
      omega
    · simp [ha, hb]
  · by_cases hb : b = t
    · simp [ha, hb]
    · simp [ha, hb]

variable (t : String) {entries : List (ℕ × QuantityMap)}

lemma getD_addRequests (requests : List PrintRequest) (quantities : QuantityMap) :
    (addRequests requests quantities).getD t 0 =
      quantities.getD t 0 + requestedQuantity requests t := by
  induction requests generalizing quantities with
  | nil => simp [addRequests, requestedQuantity]
  | cons request requests ih =>
    show (addRequests requests _).getD t 0 = _
    rw [ih, getD_addQuantity]
    by_cases ht : request.deviceType = t
    · simp [requestedQuantity, ht]
      omega
    · have hne : ¬ t = request.deviceType := fun heq => ht heq.symm
      simp [requestedQuantity, ht, hne]

lemma positive_addRequests (h : ∀ request ∈ requests, 0 < request.quantity)
    {quantities : QuantityMap} (hpositive : OrderedMap.Positive quantities) :
    OrderedMap.Positive (addRequests requests quantities) := by
  induction requests generalizing quantities with
  | nil => exact hpositive
  | cons request requests ih =>
    refine ih (fun r hr => h r (mem_cons_of_mem _ hr)) ?_
    intro key value hvalue
    have hfirst := h request mem_cons_self
    unfold addQuantity at hvalue
    rw [getElem?_alter] at hvalue
    split at hvalue
    · cases hvalue
      cases hold : quantities[request.deviceType]? with
      | none => simpa using hfirst
      | some old =>
        have hpos := hpositive _ _ hold
        simp only [Option.getD_some]
        omega
    · exact hpositive key value hvalue

/-- The components of the requested devices. -/
def requestsNeed (blueprints : Catalogue) (entries : List (String × ℤ)) (component : String) : ℤ :=
  (entries.map fun entry => entry.2 * componentCount blueprints entry.1 component).sum

/-! ## The whole descent -/

/-- The requests are met or refused one after the other. -/
lemma ends_scheduleRequests (hcounts : PositiveCounts blueprints) {entries : List (String × ℤ)}
    (hentries : ∀ entry ∈ entries, 0 < entry.2 ∧ entry.1 ∈ blueprints) {s : Expansion}
    (hstock : NonnegativeStock s.available) : (scheduleRequests blueprints entries).Ends s
      (fun _ s' => ∃ depth, Done blueprints (requestsNeed blueprints entries) s depth s')
      (Refused blueprints (requestsNeed blueprints entries) s) := by
  induction entries generalizing s with
  | nil => exact ⟨0, Done.refl hstock 0⟩
  | cons entry entries ih =>
    obtain ⟨deviceType, quantity⟩ := entry
    obtain ⟨hqty, hknown⟩ := hentries _ mem_cons_self
    have hothers : ∀ e ∈ entries, 0 < e.2 ∧ e.1 ∈ blueprints :=
      fun e he => hentries e (mem_cons_of_mem _ he)
    have hnonneg : ∀ t, 0 ≤ requestsNeed blueprints entries t := by
      intro t
      apply sum_nonneg
      intro n hn
      obtain ⟨e, he, rfl⟩ := mem_map.mp hn
      exact Int.mul_nonneg (Int.le_of_lt (hothers e he).1) (componentCount_nonneg hcounts _ _)
    unfold scheduleRequests
    refine Tx.ends_bind_require ?_ fun blueprint hblue => ?_
    · intro hnone
      rw [mem_iff_isSome_getElem?, hnone] at hknown
      cases hknown
    · have hloop := ends_components hcounts hblue hqty hstock
        fun component huses n s₁ hn hstock₁ => ends_schedule hcounts (blueprints.size + 1)
          (nodup_singleton deviceType) (by
            intro v hv
            rw [mem_singleton.mp hv]
            exact ⟨hknown, .single huses⟩)
          (by rw [length_singleton]; omega) hn hstock₁
      refine Tx.Ends.bind (hloop.imp (fun _ _ h => h) fun e he => Refused.mono hnonneg he) ?_
      intro depth s₁ hdone
      refine (ih hothers hdone.meets.stock_nonneg).imp ?_ fun e he => he.trans hdone hnonneg
      rintro _ s₂ ⟨depth', hdone'⟩
      exact ⟨_, hdone.trans hdone'⟩

/-! ## Waves -/

/-- What the components of the waves add up to. -/
def wavesNeed (blueprints : Catalogue) (entries : List (ℕ × QuantityMap)) (component : String) : ℤ :=
  (entries.map fun entry => needed blueprints (entry.2.getD · 0) component).sum

/-- Waves can be executed when the stock and the waves before suffice for each of them. -/
lemma executable_of_le {requested : String → ℤ} {stock : String → ℤ}
    (hwave : ∀ before entry after, entries = before ++ entry :: after → ∀ component,
      wavesNeed blueprints before component + needed blueprints (entry.2.getD · 0) component ≤
        stock component + printedQuantity (before.map (·.2)) component)
    (hlast : ∀ component, wavesNeed blueprints entries component +
      needed blueprints requested component ≤
        stock component + printedQuantity (entries.map (·.2)) component) :
    Executable blueprints requested stock (entries.map (·.2)) := by
  induction entries generalizing stock with
  | nil =>
    intro component
    have h := hlast component
    simp only [wavesNeed, printedQuantity, map_nil, sum_nil] at h
    omega
  | cons entry entries ih =>
    refine ⟨?_, ih ?_ ?_⟩
    · intro component
      have h := hwave [] entry entries rfl component
      show needed blueprints (entry.2.getD · 0) component ≤ _
      simp only [wavesNeed, printedQuantity, map_nil, sum_nil] at h
      omega
    · intro before next after hsplit component
      have h := hwave (entry :: before) next after (by rw [hsplit]; rfl) component
      simp only [wavesNeed, printedQuantity, map_cons, sum_cons] at h ⊢
      omega
    · intro component
      have h := hlast component
      simp only [wavesNeed, printedQuantity, map_cons, sum_cons] at h ⊢
      omega

variable {s s' : Expansion}

lemma before_ledger (s : Expansion) (d : ℕ) : (ledger s).before d t =
      printedQuantity ((s.waves.toList.filter (·.1 < d)).map (·.2)) t := by
  unfold printedQuantity
  rw [List.map_map]
  exact (sum_entries_lt (fun wave : QuantityMap => wave.getD t 0) s.waves d).symm

lemma uses_before_ledger (s : Expansion) (d : ℕ) :
    uses blueprints.keys.toFinset (componentCount blueprints) ((ledger s).before d) t =
      wavesNeed blueprints (s.waves.toList.filter (·.1 < d)) t := by
  show uses _ _ (fun a => ∑ e ∈ Finset.range d, (ledger s).wave e a) t = _
  rw [uses_sum]
  unfold wavesNeed
  rw [sum_entries_lt (fun wave : QuantityMap => needed blueprints (wave.getD · 0) t)]
  refine Finset.sum_congr rfl fun e _ => ?_
  show uses _ _ (fun a => s.waves[e]?.elim 0 fun wave => wave.getD a 0) t = _
  cases s.waves[e]? with
  | none => exact uses_zero
  | some => rfl

/-- The waves before one of them, and with it, by their depth. -/
lemma filter_split {before after : List (ℕ × QuantityMap)} {entry : ℕ × QuantityMap}
    (hsorted : entries.Pairwise fun a b => compare a.1 b.1 = .lt)
    (hsplit : entries = before ++ entry :: after) : entries.filter (·.1 < entry.1) = before ∧
      entries.filter (·.1 < entry.1 + 1) = before ++ [entry] := by
  subst hsplit
  obtain ⟨-, hafter, hcross⟩ := pairwise_append.mp hsorted
  have hbefore : ∀ e ∈ before, e.1 < entry.1 :=
    fun e he => Nat.compare_eq_lt.mp (hcross e he entry mem_cons_self)
  have hlater : ∀ e ∈ after, entry.1 < e.1 :=
    fun e he => Nat.compare_eq_lt.mp ((pairwise_cons.mp hafter).1 e he)
  constructor
  · rw [filter_append, filter_eq_self.mpr, filter_eq_nil_iff.mpr, append_nil]
    · intro e he
      rcases mem_cons.mp he with rfl | he
      · simp
      · have := hlater e he
        simp
        omega
    · simpa using hbefore
  · rw [filter_append, filter_cons_of_pos (by simp), filter_eq_self.mpr, filter_eq_nil_iff.mpr]
    · intro e he
      have := hlater e he
      simp
      omega
    · intro e he
      have := hbefore e he
      simp
      omega

/-! ## Plans -/

/-- The plan can be executed and prints what the stock does not cover. -/
structure Sound (blueprints : Catalogue) (stock : QuantityMap) (requests : List PrintRequest)
    (plan : PrintDependencyPlan) : Prop where
  executable : Executable blueprints (requestedQuantity requests) (stock.getD · 0) plan.componentWaves
  unlocked : Unlocked blueprints (requestedQuantity requests) (printedQuantity plan.componentWaves)
  printed : Covers blueprints (stock.getD · 0) (requestedQuantity requests)
    (printedQuantity plan.componentWaves)
  reused : ∀ component, plan.reusedComponents.getD component 0 = min (stock.getD component 0)
    (demand blueprints (requestedQuantity requests) (printedQuantity plan.componentWaves) component)

lemma demand_eq (requested printed : String → ℤ) (component : String) :
    demand blueprints requested printed component =
      needed blueprints requested component + needed blueprints printed component :=
  uses_add.trans (Int.add_comm _ _)

lemma ledger_initial (stock : QuantityMap) :
    ledger ⟨stock, ∅, ∅⟩ = ⟨(stock.getD · 0), fun _ => 0, fun _ => 0, fun _ _ => 0⟩ := by
  have hmade : ∀ t, ((∅ : ExtTreeMap ℕ QuantityMap).toList.map fun entry =>
      entry.2.getD t 0).sum = 0 := by
    intro t
    rw [sum_entries_eq_sum (fun _ (wave : QuantityMap) => wave.getD t 0) ∅, Finset.sum_empty]
    exact fun k hk => absurd hk not_mem_empty
  simp [ledger, hmade]

lemma made_ledger (s : Expansion) :
    (ledger s).made = printedQuantity (s.waves.toList.map (·.2)) := by
  funext t
  unfold printedQuantity
  rw [List.map_map]
  rfl

section Finished

variable {depth : ℕ} {requested : String → ℤ}
  (h : Done blueprints (needed blueprints requested) ⟨stock, ∅, ∅⟩ depth s)

include h

/-- What is taken and what is left are the stock. -/
lemma Done.kept (t : String) :
    s.available.getD t 0 + s.reused.getD t 0 = stock.getD t 0 ∧ 0 ≤ s.available.getD t 0 := by
  have hkept := h.meets.kept t
  rw [ledger_initial] at hkept
  refine ⟨hkept.trans ?_, h.meets.stock_nonneg t⟩
  exact Int.add_zero _

/-- What is taken and what is made are the demand. -/
lemma Done.balanced (t : String) :
    s.reused.getD t 0 + printedQuantity (s.waves.toList.map (·.2)) t =
      demand blueprints requested (printedQuantity (s.waves.toList.map (·.2))) t := by
  have hbal := h.meets.balanced t
  simp only [ledger_initial, made_ledger, Int.sub_zero] at hbal
  rw [demand_eq]
  exact hbal

lemma Done.made_nonneg (t : String) : 0 ≤ printedQuantity (s.waves.toList.map (·.2)) t := by
  have hmore := h.meets.more t
  rw [ledger_initial, made_ledger] at hmore
  exact hmore

lemma Done.thrifty (t : String) (hprinted : 0 < printedQuantity (s.waves.toList.map (·.2)) t) :
    s.available.getD t 0 = 0 := by
  have hthrifty := h.meets.thrifty t
  rw [ledger_initial, made_ledger] at hthrifty
  exact hthrifty hprinted

/-- Before a depth enough is taken or made for the waves so far, and beyond the last one also for what
is requested. -/
lemma Done.timely (d : ℕ) (t : String) : (if depth < d then needed blueprints requested t else 0) +
        wavesNeed blueprints (s.waves.toList.filter (·.1 < d + 1)) t ≤
      stock.getD t 0 + printedQuantity ((s.waves.toList.filter (·.1 < d)).map (·.2)) t := by
  have htimely := h.meets.timely d t
  obtain ⟨hkept, hnonneg⟩ := h.kept t
  have hzero : ∀ e a, (ledger ⟨stock, ∅, ∅⟩).before e a = 0 := by
    intro e a
    rw [ledger_initial]
    exact Finset.sum_const_zero
  have htaken : (ledger ⟨stock, ∅, ∅⟩).taken t = 0 := by rw [ledger_initial]
  have hreused : (ledger s).taken t = s.reused.getD t 0 := rfl
  simp only [hzero, Int.sub_zero, htaken, hreused] at htimely
  rw [before_ledger, uses_before_ledger] at htimely
  omega

lemma Done.executable : Executable blueprints requested (stock.getD · 0)
    (s.waves.toList.map (·.2)) := by
  apply executable_of_le
  · intro before entry after hsplit t
    obtain ⟨hbefore, hwith⟩ := filter_split ordered_keys_toList hsplit
    have htimely := h.timely entry.1 t
    rw [hbefore, hwith] at htimely
    have hneed : wavesNeed blueprints (before ++ [entry]) t =
        wavesNeed blueprints before t + needed blueprints (entry.2.getD · 0) t := by
      simp [wavesNeed]
    have hnonneg := h.meets.need_nonneg t
    rw [hneed] at htimely
    split at htimely <;> omega
  · intro t
    -- Beyond all waves.
    obtain ⟨d, hdepth, hwaves⟩ : ∃ d, depth < d ∧ ∀ entry ∈ s.waves.toList, entry.1 < d := by
      refine ⟨depth + (s.waves.toList.map (·.1)).sum + 1, by omega, fun entry hentry => ?_⟩
      have hle := le_sum_of_mem (mem_map_of_mem (f := fun e => e.1) hentry)
      omega
    have htimely := h.timely d t
    rw [if_pos hdepth, filter_eq_self.mpr, filter_eq_self.mpr] at htimely
    · omega
    · simpa using hwaves
    · intro entry hentry
      have hlt := hwaves entry hentry
      simp
      omega

/-- What is printed is what the stock does not cover, and what it covers is reused. -/
lemma Done.covers : Covers blueprints (stock.getD · 0) requested
      (printedQuantity (s.waves.toList.map (·.2))) ∧ ∀ t, s.reused.getD t 0 = min (stock.getD t 0)
      (demand blueprints requested (printedQuantity (s.waves.toList.map (·.2))) t) := by
  refine forall_and.mp fun t => ?_
  obtain ⟨hkept, hnonneg⟩ := h.kept t
  have hbal := h.balanced t
  have hmade := h.made_nonneg t
  have hthrifty := h.thrifty t
  show _ = max 0 (_ - stock.getD t 0) ∧ _
  omega

end Finished

/-- Quantities that cover the demand admit the requests. -/
lemma admits_initial {printed requested : String → ℤ} (hstock : NonnegativeStock stock)
    (hneed : ∀ t, 0 ≤ needed blueprints requested t)
    (hcovers : Covers blueprints (stock.getD · 0) requested printed)
    (hunlocked : Unlocked blueprints requested printed) : ∃ solution : Solution blueprints,
      solution.Admits (fun _ => 0) (fun t => 0 + needed blueprints requested t) ⟨stock, ∅, ∅⟩ := by
  refine ⟨⟨(stock.getD · 0), needed blueprints requested, printed, ?_, ?_⟩, ?_⟩
  · intro t
    rw [hcovers, demand_eq]
    rfl
  · exact fun t ht => hunlocked t (.inl ht)
  · unfold Solution.Admits
    rw [ledger_initial]
    refine ⟨?_, hstock, ?_, ?_, ?_, ?_⟩
    · exact fun t => Int.add_zero _
    · exact fun t => by simpa using hneed t
    · exact fun t => Int.le_refl _
    · intro t
      simp [uses_zero]
    · intro t
      show 0 + 0 ≤ printed t
      rw [hcovers]
      omega

/-- What the planner may answer: a sound plan that does not depend on the order of the requests; no
plan where a request is invalid, where no quantities cover the demand, or where a type is declared to
be a component of itself. -/
def Answers (blueprints : Catalogue) (stock : QuantityMap) (requests : List PrintRequest) :
    Except (Option ScheduleError) PrintDependencyPlan → Prop
  | .ok plan => Sound blueprints stock requests plan ∧ ∀ requests', requests.Perm requests' →
      planPrintDependencies requests' blueprints stock = .ok plan
  | .error (some (.invalidQuantity deviceType quantity)) =>
    ⟨deviceType, quantity⟩ ∈ requests ∧ quantity ≤ 0
  | .error (some (.missingBlueprint _)) | .error (some (.missingComponentBlueprint _ _)) =>
    ¬ ∃ printed, Covers blueprints (stock.getD · 0) (requestedQuantity requests) printed ∧
      Unlocked blueprints (requestedQuantity requests) printed
  | .error (some (.componentCycle deviceType)) =>
    Relation.TransGen (Uses blueprints) deviceType deviceType
  | .error none => False

/-- The planner after the requests are added up. -/
def planRequested (requested : QuantityMap) (blueprints : Catalogue) (stock : QuantityMap) :
    Except (Option ScheduleError) PrintDependencyPlan :=
  match requested.keys.find? (· ∉ blueprints) with
  | some deviceType => .error (some (.missingBlueprint deviceType))
  | none => do
    let (_, s) ← scheduleRequests blueprints requested.toList ⟨stock, ∅, ∅⟩
    .ok ⟨requested, s.waves.toList.map (·.2), s.reused⟩

lemma planPrintDependencies_eq (requests : List PrintRequest) (blueprints : Catalogue)
    (stock : QuantityMap) : planPrintDependencies requests blueprints stock =
      (requests.find? (·.quantity ≤ 0)).elim
        (planRequested (addRequests requests ∅) blueprints stock)
        fun request => .error (some (.invalidQuantity request.deviceType request.quantity)) := by
  unfold planPrintDependencies
  rw [normalizeRequests_eq]
  cases requests.find? (·.quantity ≤ 0) with
  | none | some => rfl

lemma getD_requested (requests : List PrintRequest) :
    ((addRequests requests ∅).getD · 0) = requestedQuantity requests := by
  funext t
  rw [getD_addRequests, getD_empty, Int.zero_add]

section

variable (hcounts : PositiveCounts blueprints) (hstock : NonnegativeStock stock)

include hcounts hstock

/-- The descent of all requests, when each of them has a blueprint. -/
lemma ends_requested (hpositive : OrderedMap.Positive requested)
    (hknown : ∀ t ∈ requested, t ∈ blueprints) :
    (scheduleRequests blueprints requested.toList).Ends ⟨stock, ∅, ∅⟩
      (fun _ s => ∃ depth, Done blueprints (needed blueprints (requested.getD · 0)) ⟨stock, ∅, ∅⟩ depth s)
      (Refused blueprints (needed blueprints (requested.getD · 0)) ⟨stock, ∅, ∅⟩) := by
  have hneed : requestsNeed blueprints requested.toList = needed blueprints (requested.getD · 0) :=
    funext fun component => sum_entries_mul_eq_sum (componentCount blueprints · component) _
      fun t ht => mem_keys_toFinset.mpr (hknown t ht)
  rw [← hneed]
  refine ends_scheduleRequests hcounts (fun entry hentry => ?_) hstock
  have hget := mem_toList_iff_getElem?_eq_some.mp hentry
  exact ⟨hpositive entry.1 entry.2 hget, hknown entry.1 (mem_of_getElem?_eq_some hget)⟩

lemma Refused.answers {e : Option ScheduleError} (hpositive : ∀ t, 0 ≤ requestedQuantity requests t)
    (h : Refused blueprints (needed blueprints (requestedQuantity requests)) ⟨stock, ∅, ∅⟩ e) :
    Answers blueprints stock requests (.error e) := by
  have hneed : ∀ t, 0 ≤ needed blueprints (requestedQuantity requests) t := by
    intro t
    have hmono : uses blueprints.keys.toFinset (componentCount blueprints) (fun _ => 0) t ≤
        needed blueprints (requestedQuantity requests) t :=
      uses_mono (fun a => componentCount_nonneg hcounts a t) hpositive
    rwa [uses_zero] at hmono
  cases e with
  | none => exact h
  | some e =>
    cases e with
    | componentCycle => exact h
    | missingComponentBlueprint =>
      rintro ⟨printed, hcovers, hunlocked⟩
      obtain ⟨solution, hadmits⟩ := admits_initial hstock hneed hcovers hunlocked
      exact h solution _ (fun _ => 0) (fun _ => Int.le_refl _) hadmits
    | _ => exact h.elim

/-- What the planner answers when all quantities are positive. -/
lemma answers_planRequested (hpositive : ∀ request ∈ requests, 0 < request.quantity)
    (hperm : ∀ requests', requests.Perm requests' →
      planPrintDependencies requests' blueprints stock =
        planRequested (addRequests requests ∅) blueprints stock) :
    Answers blueprints stock requests (planRequested (addRequests requests ∅) blueprints stock) := by
  have hqty := getD_requested requests
  have hpos : OrderedMap.Positive (addRequests requests ∅) :=
    positive_addRequests hpositive positive_empty
  have hmem : ∀ t, t ∈ addRequests requests ∅ ↔ 0 < requestedQuantity requests t := by
    intro t
    rw [← hqty]
    constructor
    · exact getD_pos hpos
    · intro hlt
      by_contra hnot
      have hzero : (addRequests requests ∅).getD t 0 = 0 := getD_eq_fallback hnot
      exact absurd hzero (Int.ne_of_gt hlt)
  unfold planRequested at hperm ⊢
  cases hfind : (addRequests requests ∅).keys.find? (· ∉ blueprints) with
  | some deviceType =>
    rintro ⟨printed, -, hunlocked⟩
    have hreqd := mem_keys.mp (mem_of_find?_eq_some hfind)
    have hmiss : deviceType ∉ blueprints := by simpa using find?_some hfind
    exact hmiss (hunlocked deviceType (.inr ((hmem deviceType).mp hreqd)))
  | none =>
    have hknown : ∀ t ∈ addRequests requests ∅, t ∈ blueprints := by
      intro t ht
      have hnot := find?_eq_none.mp hfind t (mem_keys.mpr ht)
      simpa using hnot
    have hends := ends_requested hcounts hstock hpos hknown
    rw [hqty] at hends
    rw [hfind] at hperm
    cases hrun : scheduleRequests blueprints (addRequests requests ∅).toList ⟨stock, ∅, ∅⟩ with
    | error =>
      have hnonneg : ∀ t, 0 ≤ requestedQuantity requests t := by
        intro t
        rw [← hqty]
        exact getD_nonneg hpos t
      exact (hends.of_error hrun).answers hcounts hstock hnonneg
    | ok =>
      obtain ⟨depth, hdone⟩ := hends.of_ok hrun
      refine ⟨⟨hdone.executable, ?_, hdone.covers.1, hdone.covers.2⟩, fun requests' h => ?_⟩
      · intro t ht
        rcases ht with hprinted | hreqd
        · refine hdone.unlocked t ?_
          rw [ledger_initial, made_ledger]
          exact hprinted
        · exact hknown t ((hmem t).mpr hreqd)
      · rw [hperm requests' h, hrun]
        rfl

end

/-- For every list of requests, every catalogue with positive component counts and every stock, the
planner returns, and its answer is right. -/
theorem planPrintDependencies_answers (requests : List PrintRequest) (blueprints : Catalogue)
    (stock : QuantityMap) (hcounts : PositiveCounts blueprints) (hstock : NonnegativeStock stock) :
    Answers blueprints stock requests (planPrintDependencies requests blueprints stock) := by
  rw [planPrintDependencies_eq]
  cases hfind : requests.find? (·.quantity ≤ 0) with
  | some =>
    have hle := find?_some hfind
    exact ⟨mem_of_find?_eq_some hfind, of_decide_eq_true hle⟩
  | none =>
    have hpositive : ∀ request ∈ requests, 0 < request.quantity := by
      intro request hreq
      have hnot := find?_eq_none.mp hfind request hreq
      simpa using hnot
    refine answers_planRequested hcounts hstock hpositive fun requests' hperm => ?_
    have hnone : requests'.find? (·.quantity ≤ 0) = none := by
      refine find?_eq_none.mpr fun request hreq => ?_
      have hlt := hpositive request (hperm.mem_iff.mpr hreq)
      simpa using hlt
    have hsame : addRequests requests ∅ = addRequests requests' ∅ :=
      hperm.foldl_eq' (fun _ _ _ _ q => addQuantity_comm q _ _ _ _) ∅
    rw [planPrintDependencies_eq, hnone, hsame]
    rfl

lemma positiveCounts_of_toList
    (h : ∀ entry ∈ blueprints.toList, ∀ component ∈ entry.2.components.toList, 0 < component.2) :
    PositiveCounts blueprints := by
  intro deviceType blueprint hblue key value hvalue
  exact h (deviceType, blueprint) (mem_toList_iff_getElem?_eq_some.mpr hblue)
    (key, value) (mem_toList_iff_getElem?_eq_some.mpr hvalue)

lemma nonnegativeStock_of_toList (h : ∀ entry ∈ stock.toList, 0 ≤ entry.2) :
    NonnegativeStock stock := by
  intro deviceType
  rw [getD_eq_getD_getElem?]
  cases hget : stock[deviceType]? with
  | none => exact Int.le_refl _
  | some quantity =>
    exact h (deviceType, quantity) (mem_toList_iff_getElem?_eq_some.mpr hget)

/-- A parent of a middle part and a leaf; the middle part has two leaves. -/
def sampleCatalogue : Catalogue :=
  (∅ : Catalogue).insert "parent" ⟨((∅ : QuantityMap).insert "middle" 1).insert "leaf" 1⟩
    |>.insert "middle" ⟨(∅ : QuantityMap).insert "leaf" 2⟩ |>.insert "leaf" ⟨∅⟩

/-- Two parents are requested while there are three leaves. -/
theorem planPrintDependencies_sample :
    Answers sampleCatalogue ((∅ : QuantityMap).insert "leaf" 3) [⟨"parent", 2⟩]
      (planPrintDependencies [⟨"parent", 2⟩] sampleCatalogue ((∅ : QuantityMap).insert "leaf" 3)) :=
  planPrintDependencies_answers _ _ _ (positiveCounts_of_toList (by decide +kernel))
    (nonnegativeStock_of_toList (by decide +kernel))

/-- Each is a component of the other. -/
def cyclicCatalogue : Catalogue :=
  (∅ : Catalogue).insert "parent" ⟨(∅ : QuantityMap).insert "part" 1⟩
    |>.insert "part" ⟨(∅ : QuantityMap).insert "parent" 1⟩

lemma getD_single (key t : String) (n : ℤ) :
    ((∅ : QuantityMap).insert key n).getD t 0 = if t = key then n else 0 := by
  simp only [getD_insert, getD_empty, Std.compare_eq_iff_eq, eq_comm (a := t)]

lemma needed_cyclic (quantities : String → ℤ) : needed cyclicCatalogue quantities t =
      (if t = "part" then quantities "parent" else 0) +
        if t = "parent" then quantities "part" else 0 := by
  have hkeys : cyclicCatalogue.keys.toFinset = {"parent", "part"} := by decide +kernel
  have hpar : componentCount cyclicCatalogue "parent" t = if t = "part" then 1 else 0 := by
    have hget : cyclicCatalogue["parent"]? = some ⟨(∅ : QuantityMap).insert "part" 1⟩ := rfl
    rw [componentCount_eq hget, getD_single]
  have hpart : componentCount cyclicCatalogue "part" t = if t = "parent" then 1 else 0 := by
    have hget : cyclicCatalogue["part"]? = some ⟨(∅ : QuantityMap).insert "parent" 1⟩ := rfl
    rw [componentCount_eq hget, getD_single]
  unfold needed
  rw [hkeys, Finset.sum_pair (by decide), hpar, hpart]
  simp

/-- A parent that is in stock goes into the part of another parent: the part alone covers the demand,
but the planner reports the cycle before it looks into the stock. -/
theorem exists_cycle_covered :
    ∃ requests blueprints stock, PositiveCounts blueprints ∧ NonnegativeStock stock ∧
      (∃ deviceType, planPrintDependencies requests blueprints stock =
        .error (some (.componentCycle deviceType))) ∧
      ∃ printed, Covers blueprints (stock.getD · 0) (requestedQuantity requests) printed ∧
        Unlocked blueprints (requestedQuantity requests) printed := by
  refine ⟨[⟨"parent", 1⟩], cyclicCatalogue, (∅ : QuantityMap).insert "parent" 1,
    positiveCounts_of_toList (by decide +kernel), nonnegativeStock_of_toList (by decide +kernel),
    ⟨"parent", rfl⟩, fun t => if t = "part" then 1 else 0, ?_, ?_⟩
  · intro t
    show _ = max 0 (needed cyclicCatalogue _ t - ((∅ : QuantityMap).insert "parent" 1).getD t 0)
    rw [needed_cyclic, getD_single]
    by_cases hpart : t = "part"
    · subst hpart
      decide
    · by_cases hpar : t = "parent"
      · subst hpar
        decide
      · simp [hpart, hpar]
  · intro t ht
    by_cases hpart : t = "part"
    · subst hpart
      decide +kernel
    · by_cases hpar : t = "parent"
      · subst hpar
        decide +kernel
      · have hne : ¬ "parent" = t := fun heq => hpar heq.symm
        simp [requestedQuantity, hpart, hne] at ht

end Replicant.Printing
