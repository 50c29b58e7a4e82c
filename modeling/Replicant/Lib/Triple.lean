import Replicant.Lib.Transaction

/-!
# Transactions with two postconditions

What a transaction ends with: one condition on its result and state, and one on its error.
-/

namespace Replicant.Lib.Tx

variable {σ ε α β : Type}

/-- From `s` the transaction ends with `post`, or fails with `fails`. -/
def Ends (m : Tx σ ε α) (s : σ) (post : α → σ → Prop) (fails : ε → Prop) : Prop :=
  match m s with
  | .ok (a, s') => post a s'
  | .error e => fails e

variable {m : Tx σ ε α} {f : α → Tx σ ε β} {s : σ} {post post' : α → σ → Prop}
  {last : β → σ → Prop} {fails fails' : ε → Prop} {e : ε} {a : α}

lemma Ends.bind (hm : Ends m s post fails) (hf : ∀ a s', post a s' → Ends (f a) s' last fails) :
    Ends (m >>= f) s last fails := by
  have hbind : (m >>= f) s = m s >>= fun p => f p.1 p.2 := rfl
  unfold Ends at hm ⊢
  rw [hbind]
  cases hs : m s with
  | error =>
    rw [hs] at hm
    exact hm
  | ok p =>
    rw [hs] at hm
    exact hf p.1 p.2 hm

lemma Ends.imp (h : Ends m s post fails) (hpost : ∀ a s', post a s' → post' a s')
    (hfails : ∀ e, fails e → fails' e) : Ends m s post' fails' := by
  unfold Ends at h ⊢
  cases hs : m s with
  | error e =>
    rw [hs] at h
    exact hfails e h
  | ok p =>
    rw [hs] at h
    exact hpost p.1 p.2 h

/-- It matters only what the transaction ends with. -/
lemma Ends.congr {m' : Tx σ ε α} {t : σ} (heq : m s = m' t) (h : Ends m' t post fails) :
    Ends m s post fails := by
  unfold Ends at h ⊢
  rw [heq]
  exact h

lemma Ends.of_ok (h : Ends m s post fails) {s' : σ} (hm : m s = .ok (a, s')) : post a s' := by
  unfold Ends at h
  rw [hm] at h
  exact h

lemma Ends.of_error (h : Ends m s post fails) (hm : m s = .error e) : fails e := by
  unfold Ends at h
  rw [hm] at h
  exact h

lemma ends_pure (h : post a s) : Ends (pure a) s post fails := h

lemma ends_fail (h : fails e) : Ends (fail e) s post fails := h

/-- A value that is required is there, or the transaction fails. -/
lemma ends_bind_require {value : Option α} (hnone : value = none → fails e)
    (hsome : ∀ a, value = some a → Ends (f a) s last fails) :
    Ends (require value e >>= f) s last fails := by
  cases value with
  | none => exact hnone rfl
  | some a => exact hsome a rfl

end Replicant.Lib.Tx
