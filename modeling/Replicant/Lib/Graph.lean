import Mathlib.Data.List.Basic
import Mathlib.Data.List.Induction
import Mathlib.Logic.Relation
import Mathlib.Tactic.Tauto

/-!
# Reachability and classes

A search with a stack finds what is reachable in a finite graph. A loop that gives one number to all
that is related to a key without a number tells the classes of an equivalence apart.
-/

namespace Replicant.Lib

open List Relation

variable {α : Type}

/-- A finite graph: only its nodes have successors. -/
structure Graph (α : Type) where
  nodes : List α
  next : α → List α
  next_eq_nil : ∀ a, a ∉ nodes → next a = []

namespace Graph

variable {g : Graph α} {a b : α} {stack reached : List α}

def Reaches (g : Graph α) : α → α → Prop := ReflTransGen fun a b => b ∈ g.next a

/-- The successors of what is reached are reached, or are on the stack. -/
def Frontier (g : Graph α) (stack reached : List α) : Prop :=
  ∀ a ∈ reached, ∀ b ∈ g.next a, b ∈ reached ∨ b ∈ stack

lemma Frontier.reaches (h : g.Frontier stack reached) (ha : a ∈ reached) (hab : g.Reaches a b) :
    b ∈ reached ∨ ∃ c ∈ stack, g.Reaches c b := by
  induction hab with
  | refl => exact .inl ha
  | tail _ hedge ih =>
    rcases ih with hmem | ⟨c, hc, hpath⟩
    · exact (h _ hmem _ hedge).imp_right fun hb => ⟨_, hb, .refl⟩
    · exact .inr ⟨c, hc, hpath.tail hedge⟩

variable [DecidableEq α]

/-- The search goes on with what is on the stack, and leaves no node twice. -/
def search (g : Graph α) : List α → List α → List α
  | [], reached => reached
  | a :: stack, reached =>
    if a ∈ reached then g.search stack reached
    else g.search ((g.next a).reverse ++ stack) (a :: reached)
termination_by stack reached => ((g.nodes.filter (· ∉ reached)).length, stack.length)
decreasing_by
  · exact .right _ (Nat.lt_succ_self _)
  · next hnew =>
    have hfilter : g.nodes.filter (· ∉ a :: reached) =
        (g.nodes.filter (· ∉ reached)).filter (· ≠ a) := by
      simp [filter_filter]
    rw [hfilter]
    -- Either there is one node less to leave, or nothing is pushed.
    by_cases ha : a ∈ g.nodes.filter (· ∉ reached)
    · exact .left _ _ (length_filter_lt_length_iff_exists.mpr ⟨a, ha, by simp⟩)
    · have hnone : g.next a = [] :=
        g.next_eq_nil a fun hmem => ha (mem_filter.mpr ⟨hmem, decide_eq_true hnew⟩)
      have hsame : (g.nodes.filter (· ∉ reached)).filter (· ≠ a) =
          g.nodes.filter (· ∉ reached) := by
        refine filter_eq_self.mpr fun b hb => decide_eq_true ?_
        rintro rfl
        exact ha hb
      rw [hsame, hnone]
      exact .right _ (Nat.lt_succ_self _)

lemma mem_search (h : g.Frontier stack reached) :
    b ∈ g.search stack reached ↔ b ∈ reached ∨ ∃ a ∈ stack, g.Reaches a b := by
  induction stack, reached using search.induct g with
  | case1 => simp [search]
  | case2 a stack reached hold ih =>
    have hrest : g.Frontier stack reached := by
      intro c hc d hd
      have hmem := h c hc d hd
      rw [mem_cons] at hmem
      rcases hmem with hd | rfl | hd
      · exact .inl hd
      · exact .inl hold
      · exact .inr hd
    rw [search, if_pos hold, ih hrest, exists_mem_cons_iff]
    have hreached := hrest.reaches (b := b) hold
    tauto
  | case3 a stack reached hnew ih =>
    have hnext : g.Frontier ((g.next a).reverse ++ stack) (a :: reached) := by
      intro c hc d hd
      rw [mem_append, mem_reverse, mem_cons]
      rcases mem_cons.mp hc with rfl | hc
      · exact .inr (.inl hd)
      · have hmem := h c hc d hd
        rw [mem_cons] at hmem
        tauto
    have hstep : g.Reaches a b ↔ b = a ∨ ∃ c ∈ g.next a, g.Reaches c b := by
      rw [Reaches, ReflTransGen.cases_head_iff, eq_comm]
    simp only [unattach_reverse, unattach_attach] at ih
    rw [search, if_neg hnew, ih hnext, exists_mem_cons_iff, hstep]
    simp only [mem_cons, mem_append, mem_reverse, or_and_right, exists_or]
    rw [or_assoc, or_left_comm, or_assoc]

/-- What the search finds from a node is what the node reaches. -/
lemma mem_search_singleton : b ∈ g.search [a] [] ↔ g.Reaches a b := by
  rw [mem_search fun _ hc => absurd hc not_mem_nil]
  simp

end Graph

/-! ## Numbers of classes -/

variable [DecidableEq α] {related : α → α → Prop} [DecidableRel related] {keys done : List α}
  {acc : (α → Option ℕ) × ℕ} {key : α}

/-- A key that has no number gives the next one to all keys that are related to it. -/
def numberClass (related : α → α → Prop) [DecidableRel related] (keys : List α)
    (acc : (α → Option ℕ) × ℕ) (key : α) : (α → Option ℕ) × ℕ :=
  if (acc.1 key).isSome then acc
  else (fun other => if other ∈ keys ∧ related key other then some acc.2 else acc.1 other,
    acc.2 + 1)

/-- Keys with one number are related, and related keys have no number or the same. -/
structure Numbered (related : α → α → Prop) (keys done : List α) (acc : (α → Option ℕ) × ℕ) :
    Prop where
  done : ∀ k ∈ done, (acc.1 k).isSome
  below : ∀ k n, acc.1 k = some n → n < acc.2
  apart : ∀ k k' n, acc.1 k = some n → acc.1 k' = some n → related k k'
  same : ∀ k ∈ keys, ∀ k' ∈ keys, related k k' → acc.1 k = acc.1 k'

lemma Numbered.step (hrel : Equivalence related) (h : Numbered related keys done acc)
    (hkey : key ∈ keys) :
    Numbered related keys (done ++ [key]) (numberClass related keys acc key) := by
  have hdone : ∀ k ∈ done ++ [key], k = key ∨ (acc.1 k).isSome := by
    intro k hk
    rcases mem_append.mp hk with hk | hk
    · exact .inr (h.done k hk)
    · exact .inl (mem_singleton.mp hk)
  unfold numberClass
  split
  · next hold => exact { h with done := fun k hk => (hdone k hk).elim (fun heq => heq ▸ hold) id }
  · refine ⟨fun k hk => ?_, fun k n => ?_, fun k k' n => ?_, fun k hk k' hk' hkk => ?_⟩
    · dsimp only
      split
      · rfl
      · next hnot =>
        exact (hdone k hk).resolve_left fun heq => hnot ⟨heq ▸ hkey, heq ▸ hrel.refl k⟩
    · have hlt := h.below k n
      grind
    · -- A number that was given before is not the new one.
      have hlt := h.below k n
      have hlt' := h.below k' n
      dsimp only
      split <;> split
      · next hk hk' => exact fun _ _ => hrel.trans (hrel.symm hk.2) hk'.2
      · grind
      · grind
      · exact h.apart k k' n
    · have hiff : related key k ↔ related key k' :=
        ⟨fun hr => hrel.trans hr hkk, fun hr => hrel.trans hr (hrel.symm hkk)⟩
      simp only [hk, hk', hiff, true_and, h.same k hk k' hk' hkk]

/-- The loop gives every key a number, and two keys the same one if and only if they are related. -/
lemma numberClasses_spec (hrel : Equivalence related) (keys : List α) :
    let result := (keys.foldl (numberClass related keys) (fun _ => none, 0)).1
    (∀ k ∈ keys, (result k).isSome) ∧
      ∀ k ∈ keys, ∀ k' ∈ keys, (result k = result k' ↔ related k k') := by
  have hloop : ∀ done : List α, done ⊆ keys →
      Numbered related keys done (done.foldl (numberClass related keys) (fun _ => none, 0)) := by
    intro done
    induction done using List.reverseRecOn with
    | nil => exact fun _ => ⟨nofun, nofun, nofun, fun _ _ _ _ _ => rfl⟩
    | append_singleton done key ih =>
      intro hall
      rw [foldl_append]
      exact (ih fun k hk => hall (mem_append_left _ hk)).step hrel
        (hall mem_append_cons_self)
  have hnum := hloop keys fun _ => id
  refine ⟨hnum.done, fun k hk k' hk' => ⟨fun heq => ?_, hnum.same k hk k' hk'⟩⟩
  obtain ⟨n, hn⟩ := Option.isSome_iff_exists.mp (hnum.done k hk)
  exact hnum.apart k k' n hn (heq ▸ hn)

end Replicant.Lib
