import Mathlib.Data.List.Basic

/-!
# Tasks that share a state

A task is a sequential program whose sections act on a state; between two of them other tasks may
act. A contract says what a task may do to the state and what the others may do meanwhile. A task
that keeps its contract keeps it in every company of tasks that keep theirs.
-/

namespace Replicant.Lib

/-- A program whose sections read and write a state `σ`, and that returns an `α` or fails. -/
inductive Task (σ ε α : Type) where
  | ret (a : α)
  | fail (e : ε)
  | act (f : σ → σ) (next : σ → Task σ ε α)

namespace Task

variable {σ ε α β : Type}

/-! ## Programs -/

def bind : Task σ ε α → (α → Task σ ε β) → Task σ ε β
  | ret a, k => k a
  | fail e, _ => fail e
  | act f next, k => act f fun s => (next s).bind k

instance : Monad (Task σ ε) where
  pure := ret
  bind := bind

/-- A section that reads. -/
def ask (g : σ → α) : Task σ ε α := act id fun s => ret (g s)

/-- A section that writes. -/
def put (f : σ → σ) : Task σ ε Unit := act f fun _ => ret ()

/-- A section that reads and writes. -/
def locked (g : σ → α) (f : σ → σ) : Task σ ε α := act f fun s => ret (g s)

/-- A loop over a list that carries a value along. -/
def foldEach (xs : List α) (b : β) (body : β → α → Task σ ε β) : Task σ ε β :=
  match xs with
  | [] => ret b
  | x :: xs => (body b x).bind fun b => foldEach xs b body

/-- A loop over a list. -/
def forEach (xs : List α) (body : α → Task σ ε Unit) : Task σ ε Unit :=
  foldEach xs () fun _ x => body x

/-- The next section of the task, unless it fails before it acts. -/
def step (failure : Option ε) : Task σ ε α → σ → Task σ ε α × σ
  | ret a, s => (ret a, s)
  | fail e, s => (fail e, s)
  | act f next, s =>
    match failure with
    | some e => (fail e, s)
    | none => (next s, f s)

/-- A loop around a task: it starts again when the task returns `true`. -/
def loopStep (body : Task σ ε Bool) (failure : Option ε) (t : Task σ ε Bool) (s : σ) :
    Task σ ε Bool × σ :=
  match t with
  | ret true => (body, s)
  | t => t.step failure s

end Task

/-! ## Contracts -/

/-- What a task may do to the state in a section, and what the others may do between its sections. -/
structure Contract (σ : Type) where
  inv : σ → Prop
  rely : σ → σ → Prop
  guar : σ → σ → Prop
  rely_refl : ∀ s, rely s s
  rely_trans : ∀ {s t u}, rely s t → rely t u → rely s u
  guar_refl : ∀ s, guar s s

namespace Contract

variable {σ ε α β : Type} {c : Contract σ} {post : α → σ → Prop} {t : Task σ ε α} {s s' : σ}
  {g : σ → α} {f : σ → σ} {a : α}

/-- From `s` on, the task keeps the contract with every section, and a result meets `post`. -/
def Keeps (c : Contract σ) (post : α → σ → Prop) : Task σ ε α → σ → Prop
  | .ret a, s => ∀ s', c.rely s s' → c.inv s' → post a s'
  | .fail _, _ => True
  | .act f next, s => ∀ s', c.rely s s' → c.inv s' →
      c.inv (f s') ∧ c.guar s' (f s') ∧ c.Keeps post (next s') (f s')

lemma Keeps.rely (h : c.Keeps post t s) (hrely : c.rely s s') : c.Keeps post t s' := by
  cases t with
  | fail => trivial
  | ret | act => exact fun u hu => h u (c.rely_trans hrely hu)

lemma Keeps.mono {post' : α → σ → Prop} (h : c.Keeps post t s)
    (himp : ∀ a s, c.inv s → post a s → post' a s) : c.Keeps post' t s := by
  induction t generalizing s with
  | ret a => exact fun u hu hinv => himp a u hinv (h u hu hinv)
  | fail => trivial
  | act f next ih =>
    intro u hu hinv
    obtain ⟨hkept, hguar, hnext⟩ := h u hu hinv
    exact ⟨hkept, hguar, ih u hnext⟩

/-- One task after another. -/
lemma Keeps.bind {k : α → Task σ ε β} {post : β → σ → Prop}
    (h : c.Keeps (fun a s => c.Keeps post (k a) s) t s) (hinv : c.inv s) :
    c.Keeps post (t.bind k) s := by
  induction t generalizing s with
  | ret => exact h s (c.rely_refl s) hinv
  | fail => trivial
  | act f next ih =>
    intro u hu hinv'
    obtain ⟨hkept, hguar, hnext⟩ := h u hu hinv'
    exact ⟨hkept, hguar, ih u hnext hkept⟩

lemma keeps_ret (h : ∀ s', c.rely s s' → c.inv s' → post a s') :
    c.Keeps post (.ret a : Task σ ε α) s := h

lemma Keeps.result (h : c.Keeps post (.ret a : Task σ ε α) s) (hinv : c.inv s) :
    post a s := h s (c.rely_refl s) hinv

lemma keeps_fail {e : ε} : c.Keeps post (.fail e : Task σ ε α) s := trivial

lemma keeps_ask_bind {k : α → Task σ ε β} {post : β → σ → Prop}
    (h : ∀ s', c.rely s s' → c.inv s' → c.Keeps post (k (g s')) s') :
    c.Keeps post ((Task.ask g).bind k) s := by
  intro u hu hinv
  exact ⟨hinv, c.guar_refl u, h u hu hinv⟩

lemma keeps_locked_bind {k : α → Task σ ε β} {post : β → σ → Prop}
    (h : ∀ s', c.rely s s' → c.inv s' →
      c.inv (f s') ∧ c.guar s' (f s') ∧ c.Keeps post (k (g s')) (f s')) :
    c.Keeps post ((Task.locked g f).bind k) s := h

lemma keeps_put_bind {k : Unit → Task σ ε β} {post : β → σ → Prop}
    (h : ∀ s', c.rely s s' → c.inv s' →
      c.inv (f s') ∧ c.guar s' (f s') ∧ c.Keeps post (k ()) (f s')) :
    c.Keeps post ((Task.put f).bind k) s := h

lemma keeps_ite {p : Prop} [Decidable p] {t t' : Task σ ε α} (hpos : p → c.Keeps post t s)
    (hneg : ¬ p → c.Keeps post t' s) : c.Keeps post (if p then t else t') s := by
  by_cases h : p
  · rw [if_pos h]
    exact hpos h
  · rw [if_neg h]
    exact hneg h

/-- A loop over a list: `P` holds of what is still to do, of the value and of the state. -/
lemma keeps_foldEach {body : β → α → Task σ ε β} (P : List α → β → σ → Prop)
    (hrely : ∀ b s s', c.rely s s' → c.inv s' → P [] b s → P [] b s')
    (hbody : ∀ x todo b s, c.inv s → P (x :: todo) b s → c.Keeps (P todo) (body b x) s)
    {xs : List α} {b : β} (hinv : c.inv s) (h : P xs b s) :
    c.Keeps (P []) (Task.foldEach xs b body) s := by
  induction xs generalizing b s with
  | nil => exact fun s' hs' hinv' => hrely b s s' hs' hinv' h
  | cons x xs ih =>
    refine Keeps.bind ?_ hinv
    exact (hbody x xs b s hinv h).mono fun b s hinv hP => ih hinv hP

/-! ## Running -/

/-- One section keeps the contract, and what follows keeps it still. -/
lemma Keeps.step (h : c.Keeps post t s) (failure : Option ε) (hinv : c.inv s) :
    c.inv (t.step failure s).2 ∧ c.guar s (t.step failure s).2 ∧
      c.Keeps post (t.step failure s).1 (t.step failure s).2 := by
  cases t with
  | ret | fail => exact ⟨hinv, c.guar_refl s, h⟩
  | act =>
    cases failure with
    | some => exact ⟨hinv, c.guar_refl s, trivial⟩
    | none => exact h s (c.rely_refl s) hinv

/-- A loop whose body keeps the contract keeps it round after round. -/
lemma Keeps.loopStep {post : Bool → σ → Prop} {t body : Task σ ε Bool}
    (h : c.Keeps post t s) (failure : Option ε) (hinv : c.inv s)
    (hbody : ∀ s, c.inv s → post true s → c.Keeps post body s) :
    c.inv (Task.loopStep body failure t s).2 ∧ c.guar s (Task.loopStep body failure t s).2 ∧
      c.Keeps post (Task.loopStep body failure t s).1 (Task.loopStep body failure t s).2 := by
  cases t with
  | ret again =>
    cases again with
    | true => exact ⟨hinv, c.guar_refl s, hbody s hinv (h s (c.rely_refl s) hinv)⟩
    | false => exact ⟨hinv, c.guar_refl s, h⟩
  | fail => exact ⟨hinv, c.guar_refl s, h⟩
  | act => exact Keeps.step h failure hinv

/-- Loops that keep their contracts keep them together, if what each does is what the others rely
on. -/
lemma keeps_pool (cs : ℕ → Contract σ) (post : ℕ → Bool → σ → Prop) (body : ℕ → Task σ ε Bool)
    {ts : List (Task σ ε Bool)} {i : ℕ} {t : Task σ ε Bool} {failure : Option ε}
    (hcompat : ∀ j s s', j < ts.length → i ≠ j → (cs i).inv s → (cs i).guar s s' → (cs j).rely s s')
    (hbody : ∀ s, (cs i).inv s → post i true s → (cs i).Keeps (post i) (body i) s)
    (hpool : ∀ j u, ts[j]? = some u → (cs j).Keeps (post j) u s) (hinv : (cs i).inv s)
    (hget : ts[i]? = some t) : (cs i).inv (Task.loopStep (body i) failure t s).2 ∧
      ∀ j u, (ts.set i (Task.loopStep (body i) failure t s).1)[j]? = some u →
        (cs j).Keeps (post j) u (Task.loopStep (body i) failure t s).2 := by
  obtain ⟨hinv', hguar, hkeeps⟩ := (hpool i t hget).loopStep failure hinv hbody
  refine ⟨hinv', fun j u hu => ?_⟩
  by_cases hij : i = j
  · subst hij
    have hlt : i < ts.length := (List.getElem?_eq_some_iff.mp hget).1
    rw [List.getElem?_set_self hlt] at hu
    rwa [← Option.some.inj hu]
  · rw [List.getElem?_set_ne hij] at hu
    have hlt : j < ts.length := (List.getElem?_eq_some_iff.mp hu).1
    exact (hpool j u hu).rely (hcompat j s _ hlt hij hinv hguar)

-- from here on a task is taken apart by the rules only
attribute [irreducible] Keeps

end Contract

end Replicant.Lib
