import Mathlib.Algebra.Order.Group.Int
import Replicant.Lib.Transaction

/-!
# Freighters of a mining transport route

The controller looks at the backlog and decides whether the route gets freighters or loses one. It
remembers the last backlog and its time, the time of the last change, and since when the backlog has
been low.
-/

namespace Replicant.Mining

/-- `saturating_sub` of two `i64` values. -/
def saturatingSub (a b : ℤ) : ℤ := max (-2 ^ 63) (min (a - b) (2 ^ 63 - 1))

def cargoFreighterCapacityUnits : ℤ := 500
def minTransportFreighters : ℕ := 1
def maxTransportFreighters : ℕ := 6
def transportLowBacklogLoads : ℤ := 2
def transportScaleUpLoads : ℤ := 10
def transportCriticalBacklogLoads : ℤ := 30
def transportCapacityCooldownMs : ℤ := 15 * 60 * 1000
def transportScaleDownHoldMs : ℤ := 60 * 60 * 1000

inductive TransportBacklogClass where
  | low | healthyBand | scaleUp | critical
  deriving DecidableEq

structure TransportCapacityTrend where
  lastObservedBacklogUnits : Option ℤ := none
  lastObservationAtMs : Option ℤ := none
  lastCapacityChangeAtMs : Option ℤ := none
  lowBacklogSinceMs : Option ℤ := none

def transportBacklogClass (backlogUnits : ℤ) : TransportBacklogClass :=
  if backlogUnits < transportLowBacklogLoads * cargoFreighterCapacityUnits then .low
  else if backlogUnits > transportCriticalBacklogLoads * cargoFreighterCapacityUnits then .critical
  else if backlogUnits > transportScaleUpLoads * cargoFreighterCapacityUnits then .scaleUp
  else .healthyBand

def transportScaleUpDelta (backlogUnits : ℤ) : ℕ :=
  match transportBacklogClass backlogUnits with
  | .critical => 2
  | .scaleUp => 1
  | .low | .healthyBand => 0

inductive TransportCapacityAction where
  | hold
  | add (freighters : ℕ)
  | removeOne
  deriving DecidableEq

inductive TransportThroughputState where
  | improvingOrUnproven | sufficient | insufficient | insufficientAtMaximum

structure TransportCapacityEvaluation where
  action : TransportCapacityAction
  trend : TransportCapacityTrend
  throughput : TransportThroughputState
  refreshBeforeDecision : Bool

/-- The trend with the observation in it. -/
def TransportCapacityTrend.observed (previous : TransportCapacityTrend) (backlogUnits now : ℤ) :
    TransportCapacityTrend :=
  { previous with
    lastObservedBacklogUnits := some (max backlogUnits 0)
    lastObservationAtMs := some now
    lowBacklogSinceMs := if transportBacklogClass backlogUnits = .low then
      some (previous.lowBacklogSinceMs.getD now) else none }

def evaluateTransportCapacity (backlogUnits : ℤ) (usableFreighters : ℕ) (now : ℤ)
    (previous : TransportCapacityTrend) : TransportCapacityEvaluation :=
  let previousBacklog := previous.lastObservedBacklogUnits
  let falling := previousBacklog.any fun value => backlogUnits < value
  let flatOrRising := previousBacklog.any fun value => backlogUnits ≥ value
  let cooldownActive := previous.lastCapacityChangeAtMs.any fun changed =>
    saturatingSub now changed < transportCapacityCooldownMs
  let backlog := transportBacklogClass backlogUnits
  let throughputInsufficient := (backlog == .scaleUp || backlog == .critical) && flatOrRising &&
    previous.lastObservationAtMs.isSome && !cooldownActive
  let trend := previous.observed backlogUnits now
  let action :=
    if cooldownActive then .hold
    else if backlog = .low ∧ usableFreighters > minTransportFreighters ∧
        trend.lowBacklogSinceMs.any fun since =>
          saturatingSub now since ≥ transportScaleDownHoldMs then .removeOne
    else
      let requested := transportScaleUpDelta backlogUnits
      let available := maxTransportFreighters - usableFreighters
      let add := min requested available
      if add = 0 ∨ falling ∧ previous.lastCapacityChangeAtMs.isSome then .hold else .add add
  let throughput :=
    if throughputInsufficient ∧ usableFreighters ≥ maxTransportFreighters then
      .insufficientAtMaximum
    else if throughputInsufficient then .insufficient
    else if backlog = .low ∨ backlog = .healthyBand then .sufficient
    else .improvingOrUnproven
  ⟨action, trend, throughput, throughputInsufficient⟩

def recordTransportCapacityChange (trend : TransportCapacityTrend) (now : ℤ) :
    TransportCapacityTrend :=
  { trend with lastCapacityChangeAtMs := some now, lowBacklogSinceMs := none }

/-! ## A route that carries out every action -/

structure Observation where
  backlogUnits : ℤ
  now : ℤ

structure Decision extends Observation where
  action : TransportCapacityAction

structure Route where
  freighters : ℕ
  trend : TransportCapacityTrend := {}
  /-- The decisions so far, the last one first. -/
  decisions : List Decision := []

def TransportCapacityAction.carryOut : TransportCapacityAction → ℕ → ℕ
  | .hold, freighters => freighters
  | .add count, freighters => freighters + count
  | .removeOne, freighters => freighters - 1

def Route.observe (route : Route) (seen : Observation) : Route :=
  let evaluation :=
    evaluateTransportCapacity seen.backlogUnits route.freighters seen.now route.trend
  { freighters := evaluation.action.carryOut route.freighters
    trend := if evaluation.action = .hold then evaluation.trend
      else recordTransportCapacityChange evaluation.trend seen.now
    decisions := ⟨seen, evaluation.action⟩ :: route.decisions }

/-- In the last decisions, back to one at the given time, the backlog was low and nothing changed. -/
def LowSince (since : ℤ) (decisions : List Decision) : Prop :=
  ∃ period before, decisions = period ++ before ∧
    (∀ d ∈ period, transportBacklogClass d.backlogUnits = .low ∧ d.action = .hold) ∧
    period.getLast?.map (·.now) = some since

/-- Any two capacity changes are at least the cooldown apart. -/
def ChangesApart (decisions : List Decision) : Prop :=
  decisions.Pairwise fun later earlier => later.action ≠ .hold → earlier.action ≠ .hold →
    earlier.now + transportCapacityCooldownMs ≤ later.now

/-- A freighter leaves when the backlog is low and has been so, without a change, for the hold. -/
def RemovesHeldLow (decisions : List Decision) : Prop :=
  ∀ decision earlier, decision :: earlier <:+ decisions → decision.action = .removeOne →
    transportBacklogClass decision.backlogUnits = .low ∧
      ∃ since, since + transportScaleDownHoldMs ≤ decision.now ∧ LowSince since earlier

/-! ## One observation -/

variable {seen : Observation} {route : Route}

/-- What the action rests on. -/
structure Grounds (seen : Observation) (route : Route) (action : TransportCapacityAction) : Prop where
  cooled : action ≠ .hold → ∀ changed ∈ route.trend.lastCapacityChangeAtMs,
    changed + transportCapacityCooldownMs ≤ seen.now
  room : ∀ count, action = .add count → count ≤ maxTransportFreighters - route.freighters
  low : action = .removeOne → minTransportFreighters < route.freighters ∧
    transportBacklogClass seen.backlogUnits = .low ∧
    route.trend.lowBacklogSinceMs.getD seen.now + transportScaleDownHoldMs ≤ seen.now

lemma evaluate_grounds (seen : Observation) (route : Route) : Grounds seen route
    (evaluateTransportCapacity seen.backlogUnits route.freighters seen.now route.trend).action := by
  have hhold : Grounds seen route .hold := ⟨fun h => absurd rfl h, nofun, nofun⟩
  unfold evaluateTransportCapacity
  simp only
  split
  · exact hhold
  · next hcooldown =>
    have hcooled : ∀ changed ∈ route.trend.lastCapacityChangeAtMs,
        changed + transportCapacityCooldownMs ≤ seen.now := by
      intro changed hchanged
      rw [Option.mem_def.mp hchanged, Option.any_some, decide_eq_true_eq] at hcooldown
      unfold saturatingSub transportCapacityCooldownMs at hcooldown
      unfold transportCapacityCooldownMs
      omega
    split
    · next hremove =>
      obtain ⟨hlow, hspare, hsince⟩ := hremove
      refine ⟨fun _ => hcooled, nofun, fun _ => ⟨hspare, hlow, ?_⟩⟩
      rw [TransportCapacityTrend.observed, if_pos hlow, Option.any_some, decide_eq_true_eq] at hsince
      unfold saturatingSub transportScaleDownHoldMs at hsince
      unfold transportScaleDownHoldMs
      omega
    · split
      · exact hhold
      · refine ⟨fun _ => hcooled, fun count hadd => ?_, nofun⟩
        cases hadd
        exact Nat.min_le_right _ _

structure Route.Stable (route : Route) : Prop where
  bounds : minTransportFreighters ≤ route.freighters ∧ route.freighters ≤ maxTransportFreighters
  changed : ∀ d ∈ route.decisions, d.action ≠ .hold →
    ∃ last ∈ route.trend.lastCapacityChangeAtMs, d.now ≤ last
  apart : ChangesApart route.decisions
  low : ∀ since ∈ route.trend.lowBacklogSinceMs, LowSince since route.decisions
  removed : RemovesHeldLow route.decisions

namespace Route.Stable

lemma bounds_observe (h : route.Stable) (seen : Observation) :
    minTransportFreighters ≤ (route.observe seen).freighters ∧
      (route.observe seen).freighters ≤ maxTransportFreighters := by
  have hgrounds := evaluate_grounds seen route
  have hbounds := h.bounds
  simp only [observe]
  cases haction : (evaluateTransportCapacity seen.backlogUnits route.freighters seen.now
    route.trend).action with
  | hold => exact hbounds
  | add count =>
    have hroom := hgrounds.room count haction
    show _ ≤ route.freighters + count ∧ route.freighters + count ≤ _
    omega
  | removeOne =>
    have hspare := (hgrounds.low haction).1
    show _ ≤ route.freighters - 1 ∧ route.freighters - 1 ≤ _
    omega

variable {action : TransportCapacityAction}

variable (h : route.Stable)

include h

/-- The changes before an action other than holding are a cooldown away. -/
lemma cooled (hgrounds : Grounds seen route action) (hchg : action ≠ .hold) {d : Decision}
    (hd : d ∈ route.decisions) (hold : d.action ≠ .hold) :
    d.now + transportCapacityCooldownMs ≤ seen.now := by
  obtain ⟨last, hlast, hle⟩ := h.changed d hd hold
  have hcool := hgrounds.cooled hchg last hlast
  omega

/-- A low observation begins a period, or goes on with the one that the trend remembers. -/
lemma lowSince_observe (hlow : transportBacklogClass seen.backlogUnits = .low) :
    LowSince (route.trend.lowBacklogSinceMs.getD seen.now) (⟨seen, .hold⟩ :: route.decisions) := by
  cases hsince : route.trend.lowBacklogSinceMs with
  | none =>
    refine ⟨[⟨seen, .hold⟩], route.decisions, rfl, fun d hd => ?_, rfl⟩
    cases List.mem_singleton.mp hd
    exact ⟨hlow, rfl⟩
  | some since =>
    obtain ⟨period, before, heq, hall, hlast⟩ := h.low since hsince
    refine ⟨⟨seen, .hold⟩ :: period, before, by rw [heq]; rfl,
      List.forall_mem_cons.mpr ⟨⟨hlow, rfl⟩, hall⟩, ?_⟩
    obtain ⟨first, hfirst, hnow⟩ := Option.map_eq_some_iff.mp hlast
    rw [List.getLast?_cons, hfirst]
    exact congrArg some hnow

lemma removeOne (hgrounds : Grounds seen route action) (hremove : action = .removeOne) :
    transportBacklogClass seen.backlogUnits = .low ∧
      ∃ since, since + transportScaleDownHoldMs ≤ seen.now ∧ LowSince since route.decisions := by
  obtain ⟨-, hlow, hsince⟩ := hgrounds.low hremove
  refine ⟨hlow, _, hsince, ?_⟩
  cases hremembered : route.trend.lowBacklogSinceMs with
  | none =>
    -- a period that begins now is not as long as the hold
    rw [hremembered] at hsince
    change seen.now + _ ≤ seen.now at hsince
    unfold transportScaleDownHoldMs at hsince
    omega
  | some since => exact h.low since hremembered

lemma observe (seen : Observation) : (route.observe seen).Stable := by
  have hbounds := h.bounds_observe seen
  have hgrounds := evaluate_grounds seen route
  simp only [Route.observe] at hbounds ⊢
  generalize haction : (evaluateTransportCapacity seen.backlogUnits route.freighters seen.now
    route.trend).action = action at hgrounds hbounds ⊢
  refine ⟨hbounds, fun d hd hchg => ?_, ?_, fun since hsince => ?_, ?_⟩
  · by_cases hhold : action = .hold
    · rw [if_pos hhold]
      rcases List.mem_cons.mp hd with rfl | hd
      · exact absurd hhold hchg
      · exact h.changed d hd hchg
    · rw [if_neg hhold]
      refine ⟨seen.now, rfl, ?_⟩
      rcases List.mem_cons.mp hd with rfl | hd
      · exact Int.le_refl _
      · have hle := h.cooled hgrounds hhold hd hchg
        unfold transportCapacityCooldownMs at hle
        omega
  · exact List.pairwise_cons.mpr ⟨fun d hd hchg hold => h.cooled hgrounds hchg hd hold, h.apart⟩
  · by_cases hhold : action = .hold
    · rw [if_pos hhold] at hsince
      change since ∈ (route.trend.observed _ _).lowBacklogSinceMs at hsince
      unfold TransportCapacityTrend.observed at hsince
      split at hsince
      · next hlow =>
        cases hsince
        rw [hhold]
        exact h.lowSince_observe hlow
      · cases hsince
    · rw [if_neg hhold] at hsince
      cases hsince
  · intro decision earlier hsuffix hremove
    rcases List.suffix_cons_iff.mp hsuffix with heq | hsuffix
    · cases heq
      exact h.removeOne hgrounds hremove
    · exact h.removed decision earlier hsuffix hremove

end Route.Stable

/-- Over every run of observations the number of freighters stays within its bounds, any two changes
are a cooldown apart, and a freighter leaves only after the hold. The times need not be in order. -/
theorem transportCapacity_stable (freighters : ℕ) (observations : List Observation)
    (hbounds : minTransportFreighters ≤ freighters ∧ freighters ≤ maxTransportFreighters) :
    let route := observations.foldl Route.observe ⟨freighters, {}, []⟩
    (minTransportFreighters ≤ route.freighters ∧ route.freighters ≤ maxTransportFreighters) ∧
    ChangesApart route.decisions ∧ RemovesHeldLow route.decisions := by
  intro route
  have hstart : Route.Stable ⟨freighters, {}, []⟩ :=
    ⟨hbounds, by simp, .nil, by simp, by simp [RemovesHeldLow]⟩
  have hstable : route.Stable :=
    List.foldlRecOn observations Route.observe hstart fun _ h seen _ => h.observe seen
  exact ⟨hstable.bounds, hstable.apart, hstable.removed⟩

/-- A critical backlog, and then an hour without any. -/
theorem transportCapacity_stable_cycle :
    let seen : List Observation := [⟨20000, 0⟩, ⟨0, 1000000⟩, ⟨0, 4600000⟩]
    let route := seen.foldl Route.observe ⟨2, {}, []⟩
    route.decisions.map (·.action) = [.removeOne, .hold, .add 2] ∧
      minTransportFreighters ≤ route.freighters :=
  ⟨by decide, (transportCapacity_stable 2 _ (by decide)).1.1⟩

end Replicant.Mining
