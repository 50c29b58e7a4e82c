import Mathlib.Data.List.Basic
import Mathlib.Logic.Relation

/-!
# Transactions and their runs

A transaction reads and writes a state and may fail; it is committed as a whole or leaves the state
alone. The rules here invert a successful transaction into its steps, follow a loop of statements,
and lift what one transaction keeps to a whole run.
-/

namespace Replicant.Lib

open List

/-- A transaction over states `σ` that may fail with an `ε`. -/
abbrev Tx (σ ε α : Type) := StateT σ (Except ε) α

namespace Tx

variable {σ ε α β : Type} {s : σ}

/-! ## Statements -/

/-- Read the state. -/
def query (f : σ → α) : Tx σ ε α := fun s => .ok (f s, s)

/-- Write the state. -/
def execute (f : σ → σ) : Tx σ ε Unit := fun s => .ok ((), f s)

/-- Roll back with an error. -/
def fail (e : ε) : Tx σ ε α := fun _ => .error e

/-- Go on only when `p` holds. -/
def ensure (p : Prop) [Decidable p] (e : ε) : Tx σ ε Unit :=
  if p then pure () else fail e

/-- Run `m` only when `p` holds. -/
def when (p : Prop) [Decidable p] (m : Tx σ ε Unit) : Tx σ ε Unit :=
  if p then m else pure ()

/-- Go on with the value of an option. -/
def require (value : Option α) (e : ε) : Tx σ ε α :=
  match value with
  | some a => pure a
  | none => fail e

/-- Go on only when there is no value. -/
def reject (value : Option β) (e : β → ε) : Tx σ ε Unit :=
  match value with
  | some b => fail (e b)
  | none => pure ()

/-- Go on with the value of a pure check. -/
def check (value : Except ε α) : Tx σ ε α :=
  match value with
  | .ok a => pure a
  | .error e => fail e

/-- Read the state; the read itself may fail. -/
def queryM (f : σ → Except ε α) : Tx σ ε α := fun s =>
  match f s with
  | .ok a => .ok (a, s)
  | .error e => .error e

/-- Commit a transaction: its result, and the new state if there is no error. -/
def commit (m : Tx σ ε α) (s : σ) : Except ε α × σ :=
  match m s with
  | .ok (a, s') => (.ok a, s')
  | .error e => (.error e, s)

/-! ## Inversion

A transaction that succeeds is taken apart from its first statement on: the `bind_` rules
peel a statement off, the `_eq_ok` rules finish with the last one. -/

section Inversion

variable {m : Tx σ ε α} {f : α → Tx σ ε β} {r : β × σ}

lemma bind_eq_ok : (m >>= f) s = .ok r ↔ ∃ a s', m s = .ok (a, s') ∧ f a s' = .ok r := by
  show (m s >>= fun p => f p.1 p.2) = .ok r ↔ _
  cases m s with
  | error => simp [bind, Except.bind]
  | ok p =>
    constructor
    · intro h
      exact ⟨p.1, p.2, rfl, h⟩
    · rintro ⟨a, s', hp, hf⟩
      cases hp
      exact hf

variable {s' : σ}

lemma pure_eq_ok {a a' : α} : (pure a : Tx σ ε α) s = .ok (a', s') ↔ a' = a ∧ s' = s := by
  constructor
  · intro h
    cases h
    exact ⟨rfl, rfl⟩
  · rintro ⟨rfl, rfl⟩
    rfl

lemma query_eq_ok {g : σ → α} {a : α} :
    (query g : Tx σ ε α) s = .ok (a, s') ↔ a = g s ∧ s' = s := pure_eq_ok

lemma bind_query {g : σ → α} : (query g >>= f) s = f (g s) s := rfl

lemma execute_eq_ok {g : σ → σ} {a : Unit} :
    (execute g : Tx σ ε Unit) s = .ok (a, s') ↔ s' = g s := by
  constructor
  · intro h
    cases h
    rfl
  · rintro rfl
    rfl

lemma bind_execute {g : σ → σ} {f : Unit → Tx σ ε β} : (execute g >>= f) s = f () (g s) := rfl

lemma fail_eq_ok {e : ε} {x : α × σ} : (fail e : Tx σ ε α) s = .ok x ↔ False := by
  simp [fail]

variable {p : Prop}

lemma ensure_eq_ok [Decidable p] {e : ε} {a : Unit} :
    (ensure p e : Tx σ ε Unit) s = .ok (a, s') ↔ p ∧ s' = s := by
  unfold ensure
  split
  · simp [pure_eq_ok, *]
  · simp [fail_eq_ok, *]

lemma bind_ensure [Decidable p] {e : ε} {f : Unit → Tx σ ε β} :
    (ensure p e >>= f) s = .ok r ↔ p ∧ f () s = .ok r := by
  unfold ensure
  split
  · simp [*]
  · simp [bind_eq_ok, fail_eq_ok, *]

lemma when_eq_ok [Decidable p] {m : Tx σ ε Unit} {a : Unit} :
    when p m s = .ok (a, s') ↔ (p ∧ m s = .ok (a, s')) ∨ (¬ p ∧ s' = s) := by
  unfold when
  split
  · simp [*]
  · simp [pure_eq_ok, *]

lemma require_eq_ok {value : Option α} {e : ε} {a : α} :
    (require value e : Tx σ ε α) s = .ok (a, s') ↔ value = some a ∧ s' = s := by
  cases value with
  | none => simp [require, fail_eq_ok]
  | some b => rw [require, pure_eq_ok, Option.some.injEq, @eq_comm _ b]

lemma bind_require {value : Option α} {e : ε} :
    (require value e >>= f) s = .ok r ↔ ∃ a, value = some a ∧ f a s = .ok r := by
  simp [bind_eq_ok, require_eq_ok, and_assoc]

lemma bind_reject {γ : Type} {value : Option γ} {e : γ → ε} {f : Unit → Tx σ ε β} :
    (reject value e >>= f) s = .ok r ↔ value = none ∧ f () s = .ok r := by
  cases value with
  | none => simp [reject]
  | some => simp [reject, bind_eq_ok, fail_eq_ok]

lemma check_eq_ok {value : Except ε α} {a : α} :
    (check value : Tx σ ε α) s = .ok (a, s') ↔ value = .ok a ∧ s' = s := by
  cases value with
  | error => simp [check, fail_eq_ok]
  | ok b =>
    rw [check, pure_eq_ok, Except.ok.injEq, @eq_comm _ b]

lemma bind_check {value : Except ε α} :
    (check value >>= f) s = .ok r ↔ ∃ a, value = .ok a ∧ f a s = .ok r := by
  simp [bind_eq_ok, check_eq_ok, and_assoc]

lemma queryM_eq_ok {g : σ → Except ε α} {a : α} :
    (queryM g : Tx σ ε α) s = .ok (a, s') ↔ g s = .ok a ∧ s' = s := by
  unfold queryM
  cases g s with
  | error => simp
  | ok => simp only [Except.ok.injEq, Prod.mk.injEq, @eq_comm _ s]

lemma bind_queryM {g : σ → Except ε α} :
    (queryM g >>= f) s = .ok r ↔ ∃ a, g s = .ok a ∧ f a s = .ok r := by
  simp [bind_eq_ok, queryM_eq_ok, and_assoc]

end Inversion

/-! ## Loops -/

variable {s' : σ} {xs : List α}

/-- What every iteration keeps, a loop keeps. -/
lemma forM_induction {P : σ → Prop} {f : α → Tx σ ε Unit} {s : σ}
    (hstep : ∀ x ∈ xs, ∀ t t', P t → f x t = .ok ((), t') → P t')
    (hs : P s) (h : forM xs f s = .ok ((), s')) : P s' := by
  induction xs generalizing s with
  | nil =>
    rw [forM_nil, pure_eq_ok] at h
    rw [h.2]
    exact hs
  | cons x xs ih =>
    rw [forM_cons, bind_eq_ok] at h
    obtain ⟨_, t, hx, hxs⟩ := h
    refine ih (fun y hy => hstep y (mem_cons_of_mem x hy)) ?_ hxs
    exact hstep x mem_cons_self s t hs hx

/-- A loop of plain writes folds them. -/
lemma forM_execute (xs : List α) (f : α → σ → σ) (s : σ) :
    forM xs (fun x => (execute (f x) : Tx σ ε Unit)) s =
      .ok ((), xs.foldl (fun t x => f x t) s) := by
  induction xs generalizing s with
  | nil => rfl
  | cons x xs ih =>
    rw [forM_cons, bind_execute, ih, foldl_cons]

/-- What every iteration keeps, a loop that collects its results keeps. -/
lemma mapM_induction {P : σ → Prop} {f : α → Tx σ ε β} {s : σ}
    {bs : List β} (hstep : ∀ x ∈ xs, ∀ t t' b, P t → f x t = .ok (b, t') → P t')
    (hs : P s) (h : xs.mapM f s = .ok (bs, s')) : P s' := by
  induction xs generalizing s bs with
  | nil =>
    rw [mapM_nil, pure_eq_ok] at h
    rw [h.2]
    exact hs
  | cons x xs ih =>
    rw [mapM_cons, bind_eq_ok] at h
    obtain ⟨b, t, hx, hxs⟩ := h
    rw [bind_eq_ok] at hxs
    obtain ⟨bs', t', hxs, hr⟩ := hxs
    obtain ⟨-, rfl⟩ := hr
    refine ih (fun y hy => hstep y (mem_cons_of_mem x hy)) ?_ hxs
    exact hstep x mem_cons_self s t b hs hx

/-- What every iteration keeps, a loop with an accumulator keeps. -/
lemma foldlM_induction {P : β → σ → Prop} {f : β → α → Tx σ ε β} {s : σ}
    {b b' : β} (hstep : ∀ x ∈ xs, ∀ c c' t t', P c t → f c x t = .ok (c', t') → P c' t')
    (hs : P b s) (h : xs.foldlM f b s = .ok (b', s')) : P b' s' := by
  induction xs generalizing s b with
  | nil =>
    rw [foldlM_nil, pure_eq_ok] at h
    rw [h.1, h.2]
    exact hs
  | cons x xs ih =>
    rw [foldlM_cons, bind_eq_ok] at h
    obtain ⟨c, t, hx, hxs⟩ := h
    refine ih (fun y hy => hstep y (mem_cons_of_mem x hy)) ?_ hxs
    exact hstep x mem_cons_self b c s t hs hx

/-! ## Errors a transaction cannot end with -/

/-- From `s` the transaction does not fail with `e`. -/
def Avoids (e : ε) (m : Tx σ ε α) (s : σ) : Prop := m s ≠ .error e

section Avoids

variable {e : ε}

lemma Avoids.bind {m : Tx σ ε α} {f : α → Tx σ ε β} (hm : Avoids e m s)
    (hf : ∀ a s', m s = .ok (a, s') → Avoids e (f a) s') : Avoids e (m >>= f) s := by
  show (m s >>= fun p => f p.1 p.2) ≠ .error e
  unfold Avoids at hm
  cases hs : m s with
  | error e' =>
    rw [hs] at hm
    simpa [Bind.bind, Except.bind] using hm
  | ok p => exact hf p.1 p.2 hs

lemma avoids_pure (a : α) : Avoids e (pure a : Tx σ ε α) s := nofun

lemma avoids_query (f : σ → α) : Avoids e (query f : Tx σ ε α) s := nofun

lemma avoids_queryM {f : σ → Except ε α} (he : f s ≠ .error e) :
    Avoids e (queryM f : Tx σ ε α) s := by
  unfold Avoids queryM
  cases hs : f s with
  | error e' =>
    rw [hs] at he
    simpa using he
  | ok => simp

lemma avoids_execute (f : σ → σ) : Avoids e (execute f : Tx σ ε Unit) s := nofun

variable {e' : ε}

lemma avoids_fail (he : e' ≠ e) : Avoids e (fail e' : Tx σ ε α) s := by
  intro h
  exact he (Except.error.inj h)

lemma avoids_ensure {p : Prop} [Decidable p] (he : e' ≠ e) :
    Avoids e (ensure p e' : Tx σ ε Unit) s := by
  unfold ensure
  split
  · exact avoids_pure _
  · exact avoids_fail he

lemma avoids_when {p : Prop} [Decidable p] {m : Tx σ ε Unit} (hm : p → Avoids e m s) :
    Avoids e (when p m) s := by
  unfold when
  split
  · exact hm ‹_›
  · exact avoids_pure _

lemma avoids_require {value : Option α} (he : e' ≠ e) :
    Avoids e (require value e' : Tx σ ε α) s := by
  cases value with
  | none => exact avoids_fail he
  | some a => exact avoids_pure a

lemma avoids_check {value : Except ε α} (he : value ≠ .error e) :
    Avoids e (check value : Tx σ ε α) s := by
  cases value with
  | error => exact avoids_fail fun h => he (congrArg _ h)
  | ok a => exact avoids_pure a

end Avoids

/-! ## Errors a check cannot end with -/

section Checks

variable {e : ε}

lemma bind_ne_error {x : Except ε α} {f : α → Except ε β} (hx : x ≠ .error e)
    (hf : ∀ a, f a ≠ .error e) : (x >>= f) ≠ .error e := by
  cases x with
  | error => exact fun h => hx (congrArg _ (Except.error.inj h))
  | ok a => exact hf a

lemma allM_ne_error {f : α → Except ε Bool} (hf : ∀ a, f a ≠ .error e) (xs : List α) :
    xs.allM f ≠ .error e := by
  induction xs with
  | nil => exact nofun
  | cons x xs ih =>
    refine bind_ne_error (hf x) fun b => ?_
    cases b with
    | true => exact ih
    | false => exact nofun

lemma filterM_ne_error {f : α → Except ε Bool} (hf : ∀ a, f a ≠ .error e) (xs : List α) :
    xs.filterM f ≠ .error e := by
  have haux : ∀ acc, xs.filterAuxM f acc ≠ .error e := by
    induction xs with
    | nil => exact nofun
    | cons x xs ih => exact fun acc => bind_ne_error (hf x) fun b => ih _
  exact bind_ne_error (haux []) nofun

/-- The results of a loop are those of its arguments. -/
lemma mem_mapM {f : α → Except ε β} {ys : List β} (h : xs.mapM f = .ok ys) {y : β} :
    y ∈ ys ↔ ∃ x ∈ xs, f x = .ok y := by
  induction xs generalizing ys with
  | nil =>
    cases h
    simp
  | cons x xs ih =>
    rw [List.mapM_cons] at h
    cases hx : f x with
    | error e => rw [hx] at h; cases h
    | ok b =>
      cases hxs : xs.mapM f with
      | error e => rw [hx, hxs] at h; cases h
      | ok bs =>
        rw [hx, hxs] at h
        cases h
        rw [mem_cons, ih hxs, exists_mem_cons_iff, hx, Except.ok.injEq, eq_comm]

end Checks

/-! ## Commit -/

/-- A commit changes the state only through a successful transaction. -/
lemma commit_cases (m : Tx σ ε α) (s : σ) :
    (∃ a, m s = .ok (a, (m.commit s).2)) ∨ (m.commit s).2 = s := by
  unfold commit
  cases h : m s with
  | error => exact .inr rfl
  | ok p => exact .inl ⟨p.1, rfl⟩

end Tx

/-! ## Tasks in a list -/

variable {l : List α}

lemma of_mem_concat {a b : α} (h : b ∈ l ++ [a]) : b ∈ l ∨ b = a :=
  (mem_append.mp h).imp_right mem_singleton.mp

lemma forall_mem_concat {p : α → Prop} {a : α} (h : ∀ b ∈ l, p b) (ha : p a) : ∀ b ∈ l ++ [a], p b :=
  forall_mem_append.mpr ⟨h, forall_mem_singleton.mpr ha⟩

lemma of_getElem?_set {i j : ℕ} {a b : α} (h : (l.set i a)[j]? = some b) :
    l[j]? = some b ∨ i = j ∧ b = a := by
  rw [getElem?_set] at h
  split at h
  · split at h
    · exact .inr ⟨‹_›, (Option.some.inj h).symm⟩
    · cases h
  · exact .inl h

lemma of_getElem?_concat {i : ℕ} {a b : α} (h : (l ++ [a])[i]? = some b) :
    l[i]? = some b ∨ i = l.length ∧ b = a := by
  rcases Nat.lt_or_ge i l.length with hlt | hle
  · exact .inl ((getElem?_append_left hlt).symm.trans h)
  · rw [getElem?_append_right hle, getElem?_singleton] at h
    split at h
    · exact .inr ⟨by omega, (Option.some.inj h).symm⟩
    · cases h

/-! ## Runs -/

section Runs

variable {σ op : Type} {step : σ → op → σ}

/-- Every step of a run meets `ok` in the state it is taken from. -/
def AllSteps (step : σ → op → σ) (ok : σ → op → Prop) : σ → List op → Prop
  | _, [] => True
  | s, o :: os => ok s o ∧ AllSteps step ok (step s o) os

instance AllSteps.decidable (ok : σ → op → Prop) [∀ s o, Decidable (ok s o)] :
    ∀ s os, Decidable (AllSteps step ok s os)
  | _, [] => isTrue trivial
  | s, o :: os =>
    have := AllSteps.decidable ok (step s o) os
    inferInstanceAs (Decidable (ok s o ∧ AllSteps step ok (step s o) os))

variable {ok : σ → op → Prop} {os : List op}

/-- What holds of every operation in every state holds of every step. -/
lemma AllSteps.of_forall (h : ∀ o ∈ os, ∀ s, ok s o) (s : σ) : AllSteps step ok s os := by
  induction os generalizing s with
  | nil => trivial
  | cons o os ih =>
    exact ⟨h o mem_cons_self s, ih (fun x hx => h x (mem_cons_of_mem o hx)) _⟩

lemma AllSteps.and {ok' : σ → op → Prop} {s : σ} (h : AllSteps step ok s os)
    (h' : AllSteps step ok' s os) : AllSteps step (fun s o => ok s o ∧ ok' s o) s os := by
  induction os generalizing s with
  | nil => trivial
  | cons o os ih => exact ⟨⟨h.1, h'.1⟩, ih h.2 h'.2⟩

lemma AllSteps.append {s : σ} {os' : List op} : AllSteps step ok s (os ++ os') ↔
      AllSteps step ok s os ∧ AllSteps step ok (os.foldl step s) os' := by
  induction os generalizing s with
  | nil => exact ⟨fun h => ⟨trivial, h⟩, fun h => h.2⟩
  | cons o os ih => exact (and_congr_right fun _ => ih).trans and_assoc.symm

/-- A run whose steps all meet `ok` keeps what such a step keeps. -/
lemma AllSteps.foldl {P : σ → Prop} {s : σ} (h : AllSteps step ok s os) (hs : P s)
    (hstep : ∀ t o, P t → ok t o → P (step t o)) : P (os.foldl step s) := by
  induction os generalizing s with
  | nil => exact hs
  | cons o os ih => exact ih h.2 (hstep s o hs h.1)

/-- If in the states that the run may reach a step meets `ok` exactly when it leads to a good state,
then every step of a run meets it exactly when all its states are good. -/
lemma allSteps_iff {P Q : σ → Prop} {s : σ} (hs : P s) (hgood : ∀ t, P t → Q t)
    (hok : ∀ t o, P t → Q (step t o) → ok t o) (hstep : ∀ t o, P t → ok t o → P (step t o)) :
    AllSteps step ok s os ↔ ∀ k, Q ((os.take k).foldl step s) := by
  induction os generalizing s with
  | nil => exact iff_of_true trivial fun k => by rw [take_nil]; exact hgood s hs
  | cons o os ih =>
    constructor
    · rintro ⟨ho, hos⟩ (- | k)
      · exact hgood s hs
      · exact (ih (hstep s o hs ho)).mp hos k
    · intro h
      have ho := hok s o hs (h 1)
      exact ⟨ho, (ih (hstep s o hs ho)).mpr fun k => h (k + 1)⟩

/-- A relation that every step satisfies, and that composes, relates the ends of a run. -/
lemma foldl_rel {R : σ → σ → Prop} {P : σ → Prop} (hrefl : ∀ s, R s s)
    (htrans : ∀ s t u, P s → R s t → R t u → R s u) (hP : ∀ s o, P s → P (step s o))
    (hR : ∀ s o, P s → R s (step s o)) {s : σ} (hs : P s) (os : List op) :
    R s (os.foldl step s) := by
  induction os generalizing s with
  | nil => exact hrefl s
  | cons o os ih => exact htrans s (step s o) _ hs (hR s o hs) (ih (hP s o hs))

end Runs

end Replicant.Lib
