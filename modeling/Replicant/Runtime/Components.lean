import Mathlib.Data.List.Dedup
import Mathlib.Order.Antisymmetrization
import Replicant.Lib.Graph

/-!
# Components of the automation declarations

`strongly_connected_components` searches the graph of the declarations, with an edge from a producer
of a resource to each consumer of it, from every key.
-/

namespace Replicant.Runtime

open Lib List Relation

/-- Scheduler metadata declared adjacent to a Director automation goal. -/
structure AutomationDeclaration where
  key : String
  produces : List String
  consumes : List String

section Edges

variable (declarations : List AutomationDeclaration)

def producers (resource : String) : List String :=
  (declarations.filter (resource ∈ ·.produces)).map (·.key)

/-- The consumers of what the node produces. -/
def edges (node : String) : List String :=
  (declarations.filter fun consumer => consumer.consumes.any
    (node ∈ producers declarations ·)).map (·.key)

/-- The keys in the order of the map. -/
def edgeKeys : List String := (declarations.map (·.key)).dedup.mergeSort (· ≤ ·)

/-- A declaration with the first key produces what one with the second key consumes. -/
def Feeds (node consumer : String) : Prop :=
  ∃ d ∈ declarations, d.key = node ∧ ∃ d' ∈ declarations, d'.key = consumer ∧
    ∃ resource ∈ d'.consumes, resource ∈ d.produces

variable {declarations} {node key other : String}

lemma mem_producers {resource : String} : node ∈ producers declarations resource ↔
    ∃ d ∈ declarations, resource ∈ d.produces ∧ d.key = node := by
  simp [producers, and_assoc]

lemma mem_edges : key ∈ edges declarations node ↔ Feeds declarations node key := by
  simp only [edges, mem_map, mem_filter, any_eq_true, decide_eq_true_eq, mem_producers]
  constructor
  · rintro ⟨d', ⟨hd', resource, hcons, d, hd, hprod, hnode⟩, hkey⟩
    exact ⟨d, hd, hnode, d', hd', hkey, resource, hcons, hprod⟩
  · rintro ⟨d, hd, hnode, d', hd', hkey, resource, hcons, hprod⟩
    exact ⟨d', ⟨hd', resource, hcons, d, hd, hprod, hnode⟩, hkey⟩

lemma mem_edgeKeys : key ∈ edgeKeys declarations ↔ ∃ d ∈ declarations, d.key = key := by
  rw [edgeKeys, mem_mergeSort, mem_dedup, mem_map]

end Edges

def edgeGraph (declarations : List AutomationDeclaration) : Graph String where
  nodes := edgeKeys declarations
  next := edges declarations
  next_eq_nil := by
    intro node hnot
    refine eq_nil_iff_forall_not_mem.mpr fun key hkey => hnot (mem_edgeKeys.mpr ?_)
    obtain ⟨d, hd, hnode, -⟩ := mem_edges.mp hkey
    exact ⟨d, hd, hnode⟩

def reachable (declarations : List AutomationDeclaration) (key : String) : List String :=
  (edgeGraph declarations).search [key] []

def stronglyConnectedComponents (declarations : List AutomationDeclaration) : String → Option ℕ :=
  ((edgeKeys declarations).foldl (numberClass (fun key other =>
    other ∈ reachable declarations key ∧ key ∈ reachable declarations other)
      (edgeKeys declarations)) (fun _ => none, 0)).1

lemma mem_reachable {declarations : List AutomationDeclaration} {key other : String} :
    other ∈ reachable declarations key ↔ ReflTransGen (Feeds declarations) key other := by
  have hedges : (fun a b => b ∈ edges declarations a) = Feeds declarations := by
    funext a b
    exact propext mem_edges
  rw [reachable, Graph.mem_search_singleton, ← hedges]
  rfl

/-- Every declared key has a component, and two keys have the same one if and only if each is
reachable from the other. -/
theorem stronglyConnectedComponents_eq_iff (declarations : List AutomationDeclaration) :
    (∀ d ∈ declarations, (stronglyConnectedComponents declarations d.key).isSome) ∧
      ∀ d ∈ declarations, ∀ d' ∈ declarations, (stronglyConnectedComponents declarations d.key =
            stronglyConnectedComponents declarations d'.key ↔
          AntisymmRel (ReflTransGen (Feeds declarations)) d.key d'.key) := by
  have hrel : Equivalence fun key other =>
      other ∈ reachable declarations key ∧ key ∈ reachable declarations other := by
    simp only [mem_reachable]
    exact ⟨fun _ => ⟨.refl, .refl⟩, And.symm, fun h h' => ⟨h.1.trans h'.1, h'.2.trans h.2⟩⟩
  obtain ⟨hall, hsame⟩ := numberClasses_spec hrel (edgeKeys declarations)
  have hkeys : ∀ d ∈ declarations, d.key ∈ edgeKeys declarations :=
    fun d hd => mem_edgeKeys.mpr ⟨d, hd, rfl⟩
  refine ⟨fun d hd => hall d.key (hkeys d hd), fun d hd d' hd' => ?_⟩
  refine (hsame d.key (hkeys d hd) d'.key (hkeys d' hd')).trans ?_
  rw [mem_reachable, mem_reachable]
  rfl

end Replicant.Runtime
