import Mathlib.Algebra.Order.Field.Rat
import Mathlib.Data.List.Basic
import Mathlib.Tactic.Linarith

/-!
# Improvement of a route

The survey and the belt search reverse segments of a route for as long as that makes it shorter.
Of their records both read only the position. The distances are exact here.
-/

namespace Replicant.Runtime

open List

/-- Where the stops of a route are. -/
structure Chart (α P K : Type) where
  position : α → P
  positionDistance : P → P → K
  symm : ∀ p q, positionDistance p q = positionDistance q p

/-- The same places, for other records. -/
def Chart.comap {α ι P K : Type} (c : Chart α P K) (f : ι → α) : Chart ι P K :=
  { c with position := c.position ∘ f }

/-- The variables of the loops. -/
structure Search (α : Type) where
  route : List α
  swaps : ℕ
  improved : Bool

def Search.map {α ι : Type} (f : ι → α) (s : Search ι) : Search α :=
  ⟨s.route.map f, s.swaps, s.improved⟩

/-- The values of `left` and `right`. -/
def segments (n : ℕ) : List (ℕ × ℕ) :=
  (range (n - 1)).flatMap fun left => (range' (left + 1) (n - (left + 1))).map (left, ·)

namespace Chart

variable {α P K : Type} [Field K] [LinearOrder K] (c : Chart α P K) (start : P)

def candidateRouteDistance : P → List α → K
  | _, [] => 0
  | previous, stop :: route =>
    c.positionDistance previous (c.position stop) + candidateRouteDistance (c.position stop) route

def epsilon : K := 1 / 10 ^ 9

/-- The test of a segment with what is before and after it. -/
def shortens (before segment after : List α) : Bool :=
  match segment.head?, segment.getLast? with
  | some left, some right =>
    let previous := (before.map c.position).getLastD start
    let toNext stop : K := after.head?.elim 0 (c.positionDistance (c.position stop) <| c.position ·)
    c.positionDistance previous (c.position right) + toNext left + epsilon <
      c.positionDistance previous (c.position left) + toNext right
  | _, _ => false

/-- The body of the inner loop, for `route[left..=right]`. -/
def tryReverse (s : Search α) (ends : ℕ × ℕ) : Search α :=
  let before := s.route.take ends.1
  let rest := s.route.drop ends.1
  let segment := rest.take (ends.2 + 1 - ends.1)
  let after := rest.drop (ends.2 + 1 - ends.1)
  if c.shortens start before segment after then
    ⟨before ++ segment.reverse ++ after, s.swaps + 1, true⟩
  else s

/-- One turn of the loop over the passes, which is left once a pass has not improved the route. -/
def pass (s : Search α) : Search α :=
  if s.improved then
    (segments s.route.length).foldl (c.tryReverse start) { s with improved := false }
  else s

def improveCandidateRoute2opt (route : List α) (maxPasses : ℕ) : Search α :=
  if route.length < 3 then ⟨route, 0, false⟩ else (c.pass start)^[maxPasses] ⟨route, 0, true⟩

/-- A segment was reversed. -/
structure Swap (s t : Search α) : Prop where
  counted : t.swaps = s.swaps + 1
  improved : t.improved = true
  perm : t.route.Perm s.route
  shorter : c.candidateRouteDistance start t.route + epsilon <
    c.candidateRouteDistance start s.route

/-- No reversal of a segment makes the route shorter by more than epsilon. -/
def LocallyShortest (route : List α) : Prop :=
  ∀ before segment after, route = before ++ segment ++ after →
    ¬ c.candidateRouteDistance start (before ++ segment.reverse ++ after) + epsilon <
      c.candidateRouteDistance start route

/-- The stops are those of the route, and each swap has made it shorter by epsilon. -/
structure Kept (route : List α) (s : Search α) : Prop where
  perm : s.route.Perm route
  total : c.candidateRouteDistance start s.route ≤
    c.candidateRouteDistance start route - epsilon * s.swaps

/-- Once the loop is left, no swap is missed, unless there are just two stops. -/
structure Improves (route : List α) (s : Search α) : Prop extends c.Kept start route s where
  shortest : route.length ≠ 2 → s.improved = false → c.LocallyShortest start s.route

variable {c start} {s : Search α} {route : List α}

/-! ## Distances -/

omit [LinearOrder K] in
lemma distance_append (xs ys : List α) : c.candidateRouteDistance start (xs ++ ys) =
    c.candidateRouteDistance start xs +
      c.candidateRouteDistance ((xs.map c.position).getLastD start) ys := by
  induction xs generalizing start with
  | nil => exact (zero_add _).symm
  | cons x xs ih =>
    rw [cons_append, candidateRouteDistance, ih, candidateRouteDistance, add_assoc, map_cons,
      getLastD_cons]

omit [LinearOrder K] in
/-- The way back is as long. -/
lemma distance_reverse (a b : α) (mid : List α) :
    c.candidateRouteDistance (c.position a) (mid ++ [b]) =
      c.candidateRouteDistance (c.position b) (mid.reverse ++ [a]) := by
  induction mid generalizing a with
  | nil => exact congrArg (· + 0) (c.symm _ _)
  | cons r mid ih =>
    rw [cons_append, candidateRouteDistance, ih, reverse_cons, distance_append (_ ++ [r]),
      map_append, map_singleton, getLastD_concat, c.symm, add_comm]
    exact congrArg _ (add_zero _).symm

variable [IsStrictOrderedRing K]

lemma not_add_epsilon_lt (x : K) : ¬ x + epsilon < x := by
  have hpos : (0 : K) < epsilon := by
    unfold epsilon
    positivity
  linarith

/-- The distances at its ends decide whether the reversal of a segment makes the route shorter. -/
lemma shortens_iff (before segment after : List α) : c.shortens start before segment after = true ↔
      c.candidateRouteDistance start (before ++ segment.reverse ++ after) + epsilon <
        c.candidateRouteDistance start (before ++ segment ++ after) := by
  obtain ⟨rest, hafter⟩ : ∃ rest, ∀ p, c.candidateRouteDistance p after =
      after.head?.elim 0 (c.positionDistance p <| c.position ·) + rest := by
    cases after with
    | nil => exact ⟨0, fun p => (add_zero 0).symm⟩
    | cons => exact ⟨_, fun p => rfl⟩
  rcases segment with _ | ⟨a, tail⟩
  · simp [shortens, not_add_epsilon_lt, -add_lt_iff_neg_left]
  rcases eq_nil_or_concat' tail with rfl | ⟨mid, b, rfl⟩
  · simp [shortens]
  have hway := distance_reverse (c := c) a b mid
  have hend : (a :: (mid ++ [b])).getLast? = some b := getLast?_concat (l := a :: mid)
  have hturned : (a :: (mid ++ [b])).reverse = b :: (mid.reverse ++ [a]) := by simp
  rw [hturned]
  simp only [shortens, hend, head?_cons, append_assoc before, distance_append before, cons_append,
    candidateRouteDistance, distance_append _ after, map_append, map_singleton, getLastD_concat,
    hafter, hway, decide_eq_true_eq]
  constructor <;> intro h <;> linarith

/-! ## Runs -/

variable (c start) in
lemma tryReverse_cases (s : Search α) (ends : ℕ × ℕ) :
    c.tryReverse start s ends = s ∨ c.Swap start s (c.tryReverse start s ends) := by
  unfold tryReverse
  dsimp only
  split
  · have hlt := (shortens_iff _ _ _).mp ‹_›
    rw [append_assoc (take _ _) (take _ _), take_append_drop, take_append_drop] at hlt
    refine .inr ⟨rfl, rfl, (((reverse_perm _).append_left _).append_right _).trans ?_, hlt⟩
    rw [append_assoc, take_append_drop, take_append_drop]
  · exact .inl rfl

lemma Kept.foldl (h : c.Kept start route s) (pairs : List (ℕ × ℕ)) :
    c.Kept start route (pairs.foldl (c.tryReverse start) s) := by
  refine foldlRecOn _ _ h fun s h ends _ => ?_
  rcases tryReverse_cases c start s ends with hsame | hswap
  · rwa [hsame]
  · refine ⟨hswap.perm.trans h.perm, ?_⟩
    have hlt := hswap.shorter
    have hle := h.total
    rw [hswap.counted, Nat.cast_succ]
    linarith

/-- A scan that leaves `improved` unset changes nothing. -/
lemma foldl_of_not_improved {pairs : List (ℕ × ℕ)}
    (h : (pairs.foldl (c.tryReverse start) s).improved = false) :
    pairs.foldl (c.tryReverse start) s = s ∧ ∀ ends ∈ pairs, c.tryReverse start s ends = s := by
  induction pairs generalizing s with
  | nil => exact ⟨rfl, nofun⟩
  | cons ends pairs ih =>
    obtain ⟨hsame, hall⟩ := ih h
    rw [foldl_cons, hsame] at h ⊢
    rcases tryReverse_cases c start s ends with hkept | hswap
    · rw [hkept] at hall ⊢
      exact ⟨rfl, forall_mem_cons.mpr ⟨hkept, hall⟩⟩
    · rw [hswap.improved] at h
      cases h

lemma locallyShortest (h : ∀ ends ∈ segments s.route.length, c.tryReverse start s ends = s) :
    c.LocallyShortest start s.route := by
  rintro before segment after hroute hlt
  rw [hroute] at hlt
  rcases segment with _ | ⟨a, _ | ⟨b, tail⟩⟩
  · exact not_add_epsilon_lt _ hlt
  · exact not_add_epsilon_lt _ hlt
  have hmem : (before.length, before.length + tail.length + 1) ∈ segments s.route.length := by
    rw [hroute]
    simp [segments]
    omega
  have hlen : before.length + tail.length + 1 + 1 - before.length = (a :: b :: tail).length := by
    rw [length_cons, length_cons]
    omega
  have hsame := congrArg Search.swaps (h _ hmem)
  simp [tryReverse, hroute, hlen, (shortens_iff _ _ _).mpr hlt] at hsame

lemma improves (route : List α) (maxPasses : ℕ) :
    c.Improves start route (c.improveCandidateRoute2opt start route maxPasses) := by
  have hstart (improved) : c.Kept start route ⟨route, 0, improved⟩ := ⟨.refl _, by simp⟩
  unfold improveCandidateRoute2opt
  split
  · refine ⟨hstart false, fun hne _ => locallyShortest (s := ⟨route, 0, false⟩) ?_⟩
    have hnil : segments route.length = [] := by
      simp [segments]
      omega
    rw [hnil]
    exact nofun
  · refine Function.Iterate.rec _ ⟨hstart true, nofun⟩ (fun s h => ?_) maxPasses
    unfold pass
    split
    · have hscan : c.Kept start route { s with improved := false } := ⟨h.perm, h.total⟩
      refine ⟨hscan.foldl _, fun _ hend => ?_⟩
      obtain ⟨hsame, hkept⟩ := foldl_of_not_improved hend
      rw [hsame]
      exact locallyShortest hkept
    · exact h

/-! ## Other records -/

section Map

variable {ι : Type} (f : ι → α)

omit [IsStrictOrderedRing K]

lemma shortens_map (before segment after : List ι) :
    c.shortens start (before.map f) (segment.map f) (after.map f) =
      (c.comap f).shortens start before segment after := by
  unfold shortens
  rw [head?_map, getLast?_map, head?_map, map_map]
  cases segment.head? <;> cases segment.getLast? <;> cases after.head? <;> rfl

lemma pass_map (s : Search ι) : ((c.comap f).pass start s).map f = c.pass start (s.map f) := by
  have hstep (s ends) : c.tryReverse start (Search.map f s) ends =
      ((c.comap f).tryReverse start s ends).map f := by
    simp only [tryReverse, Search.map, ← map_take, ← map_drop, ← map_reverse, ← map_append,
      shortens_map]
    split <;> rfl
  unfold pass
  rw [show (s.map f).route.length = s.route.length from length_map _]
  split
  · exact (foldl_hom (Search.map f) hstep).symm.trans (if_pos ‹_›).symm
  · exact (if_neg ‹_›).symm

/-- The loops see a record through its position only. -/
lemma improve_map (route : List ι) (maxPasses : ℕ) :
    c.improveCandidateRoute2opt start (route.map f) maxPasses =
      ((c.comap f).improveCandidateRoute2opt start route maxPasses).map f := by
  unfold improveCandidateRoute2opt
  rw [length_map]
  split
  · rfl
  · have hpass : Function.Semiconj (Search.map f) ((c.comap f).pass start) (c.pass start) :=
      pass_map f
    exact (hpass.iterate_right maxPasses ⟨route, 0, true⟩).symm

end Map

end Chart

open Chart

/-- A swap makes the route shorter, and none is missed unless there are just two stops. Routes of
other records at the same positions are put into the same order. -/
theorem improveCandidateRoute2opt_correct {α P K : Type} [Field K] [LinearOrder K]
    [IsStrictOrderedRing K] (c : Chart α P K) (start : P) (maxPasses : ℕ) :
    (∀ s ends, c.tryReverse start s ends = s ∨ c.Swap start s (c.tryReverse start s ends)) ∧
    (∀ route, c.Improves start route (c.improveCandidateRoute2opt start route maxPasses)) ∧
    ∀ {β ι : Type} (c' : Chart β P K) (star : ι → α) (candidate : ι → β),
      c.comap star = c'.comap candidate → ∀ route : List ι, ∃ order : Search ι,
        c.improveCandidateRoute2opt start (route.map star) maxPasses = order.map star ∧
        c'.improveCandidateRoute2opt start (route.map candidate) maxPasses =
          order.map candidate := by
  refine ⟨tryReverse_cases c start, fun route => improves route maxPasses, ?_⟩
  intro β ι c' star candidate hsame route
  refine ⟨_, improve_map star route maxPasses, ?_⟩
  rw [hsame]
  exact improve_map candidate route maxPasses

/-- Places on a line. -/
def line : Chart ℚ ℚ ℚ := ⟨id, fun p q => |p - q|, abs_sub_comm⟩

theorem improveCandidateRoute2opt_line :
    line.Improves 0 [10, 1, 2] (line.improveCandidateRoute2opt 0 [10, 1, 2] 8) :=
  (improveCandidateRoute2opt_correct line 0 8).2.1 _

/-- Two stops are never put into another order. -/
theorem not_locallyShortest_two_stops : ¬ ∀ (route : List ℚ) (maxPasses : ℕ),
    (line.improveCandidateRoute2opt 0 route maxPasses).improved = false →
      line.LocallyShortest 0 (line.improveCandidateRoute2opt 0 route maxPasses).route := by
  intro h
  refine h [10, 1] 1 rfl [] [10, 1] [] rfl ?_
  norm_num [improveCandidateRoute2opt, candidateRouteDistance, line, epsilon, abs]

end Replicant.Runtime
