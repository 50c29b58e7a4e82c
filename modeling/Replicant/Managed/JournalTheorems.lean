import Replicant.Lib.Transaction
import Replicant.Managed.Turns

/-!
# At most one transmission

The claim of a submission is the only step that makes a call able to transmit, it needs the row
`prepared`, and no step makes a row `prepared` again. So the transmissions of an operation and the
calls about to make one are never more than one.
-/

namespace Replicant.Managed

open Lib List Option Call
open Replicant.Managed.System

variable {identity : Identity} {e : Entry} {state : OperationStatus} {w : Write}
  {attemptId id : String}

/-! ## What the store keeps -/

namespace Store

/-- No row is lost, changes its identity or becomes prepared again. -/
def Keeps (s t : Store) : Prop :=
  ∀ id e, s.readOperation id = some e → ∃ e', t.readOperation id = some e' ∧
    e'.identity = e.identity ∧ (e.state ≠ .prepared → e'.state ≠ .prepared)

variable {s t : Store}

lemma Keeps.refl (s : Store) : s.Keeps s := fun _ e he => ⟨e, he, rfl, fun h => h⟩

lemma Keeps.submitted (h : s.Keeps t)
    (hrow : ∃ e, s.readOperation id = some e ∧ e.state ≠ .prepared) :
    ∃ e, t.readOperation id = some e ∧ e.state ≠ .prepared := by
  obtain ⟨e, he, hstate⟩ := hrow
  obtain ⟨e', he', -, hkept⟩ := h id e he
  exact ⟨e', he', hkept hstate⟩

variable {p : Entry → Bool} {f : Entry → Entry} {key : String} {row : Entry}

lemma readOperation_update (hf : ∀ e, (f e).operationId = e.operationId) :
    Store.readOperation { s with journal := s.journal.update p f hf } id =
      (s.readOperation id).map fun e => if p e then f e else e :=
  Table.find?_update s.journal p f hf id

section

variable (h : s.readOperation key = none) (hkey : row.operationId = key)

include h hkey

lemma readOperation_insert (id : String) :
    Store.readOperation { s with journal := s.journal.insert row } id =
      if key = id then some row else s.readOperation id := by
  subst hkey
  exact Table.find?_insert id h

lemma readOperation_insert_of_some (he : s.readOperation id = some e) :
    Store.readOperation { s with journal := s.journal.insert row } id = some e := by
  have hne : key ≠ id := by
    intro heq
    rw [heq, he] at h
    cases h
  rw [readOperation_insert h hkey, if_neg hne, he]

end

/-- An update that leaves identities alone and never writes `prepared`. -/
lemma keeps_update (hf : ∀ e, (f e).operationId = e.operationId)
    (hident : ∀ e, (f e).identity = e.identity) (hstate : ∀ e, (f e).state ≠ .prepared) :
    s.Keeps { s with journal := s.journal.update p f hf } := by
  intro id e he
  refine ⟨if p e then f e else e, ?_, ?_, ?_⟩
  · rw [readOperation_update, he, map_some]
  · split
    · exact hident e
    · rfl
  · intro hne
    split
    · exact hstate e
    · exact hne

lemma keeps_apply (h : w.state ≠ .prepared) : s.Keeps (s.apply id w) := by
  unfold apply
  split <;> exact keeps_update _ (fun _ => rfl) fun _ => h

lemma keeps_promoteCrashedSubmissions : s.Keeps s.promoteCrashedSubmissions :=
  keeps_update _ (fun _ => rfl) fun _ => by simp

lemma keeps_insert (h : s.readOperation key = none) (hkey : row.operationId = key) :
    s.Keeps { s with journal := s.journal.insert row } :=
  fun _ e he => ⟨e, readOperation_insert_of_some h hkey he, rfl, fun hne => hne⟩

/-- A claim is won on a prepared row, which it leaves submitted. -/
lemma claimOperationSubmission_spec {won : Bool}
    (h : s.claimOperationSubmission id attemptId = (won, t)) : s.Keeps t ∧ (won = true →
      (∃ e, s.readOperation id = some e ∧ e.state = .prepared) ∧
        ∃ e, t.readOperation id = some e ∧ e.state ≠ .prepared) := by
  simp only [claimOperationSubmission, Prod.mk.injEq] at h
  obtain ⟨hcount, rfl⟩ := h
  refine ⟨keeps_update _ (fun _ => rfl) fun _ => by simp, ?_⟩
  intro hwon
  have hone : s.journal.rows.countP (fun e => e.operationId = id && e.state = .prepared) = 1 := by
    simpa [hwon] using hcount
  have hpos : 0 < s.journal.rows.countP
      (fun e => e.operationId = id && e.state = .prepared) := by omega
  obtain ⟨e, he, hclaimable⟩ := countP_pos_iff.mp hpos
  have hkey : e.operationId = id := by simp at hclaimable; exact hclaimable.1
  have hstate : e.state = .prepared := by simp at hclaimable; exact hclaimable.2
  have hread : s.readOperation id = some e := Table.find?_eq_some.mpr ⟨he, hkey⟩
  refine ⟨⟨e, hread, hstate⟩, { e with
    state := .submitted
    submissionAttemptId := some attemptId
    submissionCursor := s.eventCursor }, ?_, by simp⟩
  rw [readOperation_update, hread, map_some, if_pos hclaimable]

end Store

/-! ## No outcome is `prepared` -/

lemma Api.outcome_state_ne {Adapter : Type} (api : Api Adapter) (adapter : Adapter)
    (evidence : Bool) (response : Response) :
    (api.outcome adapter evidence response).state ≠ .prepared := by
  cases response with
  | ambiguous | rejected => simp [Api.outcome]
  | accepted =>
    show (if _ then _ else _) ≠ OperationStatus.prepared
    split
    · simp
    · split <;> simp

lemma Entry.verdict_state {event : Event} (h : e.verdict event = some w) : w.state = .completed ∨ w.state = .failed := by
  unfold verdict at h
  split at h
  · exact .inl (by rw [← some.inj h])
  · split at h
    · exact .inr (by rw [← some.inj h])
    · cases h

lemma Entry.reconciliation_state {refreshed : Bool} {answer : Option Json}
    (h : e.reconciliation refreshed answer = some w) :
    w.state = .completed ∨ w.state = .reconciliationRequired := by
  unfold reconciliation at h
  split at h
  · split at h
    · exact .inl (by rw [← some.inj h])
    · cases h
  · split at h
    · cases h
    · rw [← some.inj h]
      split
      · exact .inl rfl
      · exact .inr rfl

/-! ## Spent submissions -/

variable {Adapter : Type} {s t : System Adapter} {call : Call Adapter} {store : Store}

/-- The call is about to transmit the operation. -/
def Call.transmits (id : String) : Call Adapter → Bool
  | .submitting id' _ _ _ => id' = id
  | _ => false

/-- The write a call still has to make. -/
def Call.pending : Call Adapter → Option Write
  | .answered _ write _ _ => some write
  | .evidenced _ _ _ _ write => some write
  | _ => none

/-- The transmissions of an operation, those about to be made included. -/
def System.spent (s : System Adapter) (id : String) : ℕ :=
  s.submissions.count id + s.calls.countP (Call.transmits id)

structure Inv (s : System Adapter) : Prop where
  once : ∀ id, s.spent id ≤ 1
  submitted : ∀ id, 0 < s.spent id → ∃ e, s.store.readOperation id = some e ∧ e.state ≠ .prepared
  writes : ∀ c ∈ s.calls, ∀ w ∈ c.pending, w.state ≠ .prepared

lemma Inv.init : Inv (System.init : System Adapter) where
  once := by simp [System.spent, System.init]
  submitted := by simp [System.spent, System.init]
  writes := by simp [System.init]

namespace Inv

variable (h : Inv s)

include h

/-- A step that spends nothing. -/
lemma of_keeps (hstore : s.store.Keeps t.store) (hspent : ∀ id, t.spent id ≤ s.spent id)
    (hwrites : ∀ c ∈ t.calls, ∀ w ∈ c.pending, w.state ≠ .prepared) : Inv t where
  once id := Nat.le_trans (hspent id) (h.once id)
  submitted id hid := hstore.submitted (h.submitted id (Nat.lt_of_lt_of_le hid (hspent id)))
  writes := hwrites

/-- A step that spends one operation, of which nothing was spent. -/
lemma of_spend (hunspent : s.spent id = 0) (hstore : s.store.Keeps t.store)
    (hrow : ∃ e, t.store.readOperation id = some e ∧ e.state ≠ .prepared)
    (hspent : ∀ k, t.spent k ≤ s.spent k + if id = k then 1 else 0)
    (hwrites : ∀ c ∈ t.calls, ∀ w ∈ c.pending, w.state ≠ .prepared) : Inv t := by
  have hothers : ∀ k, id ≠ k → t.spent k ≤ s.spent k := by
    intro k hne
    have hk := hspent k
    rw [if_neg hne] at hk
    exact hk
  refine ⟨fun k => ?_, fun k hpos => ?_, hwrites⟩
  · by_cases hid : id = k
    · have hk := hspent k
      rw [if_pos hid, ← hid, hunspent] at hk
      rw [← hid]
      exact hk
    · exact Nat.le_trans (hothers k hid) (h.once k)
  · by_cases hid : id = k
    · exact hid ▸ hrow
    · exact hstore.submitted (h.submitted k (Nat.lt_of_lt_of_le hpos (hothers k hid)))

lemma setStore (hstore : s.store.Keeps store) : Inv (s.setStore store) :=
  h.of_keeps hstore (fun _ => Nat.le_refl _) h.writes

lemma endCall (i : ℕ) : Inv (s.endCall i) := by
  have hsub : (s.calls.eraseIdx i).Sublist s.calls := eraseIdx_sublist s.calls i
  refine h.of_keeps (Store.Keeps.refl _) ?_ fun c hc => h.writes c (hsub.subset hc)
  intro id
  exact Nat.add_le_add_left (hsub.countP_le) _

lemma begin (htransmits : ∀ id, call.transmits id = false) (hpend : call.pending = none) :
    Inv (s.begin call) := by
  refine h.of_keeps (Store.Keeps.refl _) ?_ (forall_mem_concat h.writes fun w hw => ?_)
  · intro id
    show s.submissions.count id + (s.calls ++ [call]).countP _ ≤ _ + s.calls.countP _
    rw [countP_append, countP_singleton, htransmits]
    simp
  · rw [hpend] at hw
    cases hw

end Inv

variable {i : ℕ} {c : Call Adapter}

/-- A call that goes on adds what it is about to transmit. -/
lemma System.spent_goOn (hc : s.calls[i]? = some c)
    (c' : Call Adapter) (id : String) : (s.goOn i c').spent id + (if c.transmits id then 1 else 0) =
      s.spent id + if c'.transmits id then 1 else 0 := by
  obtain ⟨hi, hget⟩ := List.getElem?_eq_some_iff.mp hc
  have hset : (s.calls.set i c').countP (transmits id) = _ := countP_set hi
  rw [hget] at hset
  have hpos : c.transmits id = true → 0 < s.calls.countP (transmits id) := fun h =>
    countP_pos_iff.mpr ⟨c, mem_of_getElem? hc, h⟩
  show s.submissions.count id + (s.calls.set i c').countP _ + _ = s.submissions.count id + _ + _
  split
  · next h =>
    have := hpos h
    rw [if_pos h] at hset
    omega
  · next h =>
    rw [if_neg h] at hset
    omega

variable {adapter : Adapter} {evidence : Bool} {rest : List String}

/-- The transmission spends what the claim has set aside. -/
lemma System.spent_submit (hc : s.calls[i]? = some (.submitting id adapter evidence rest))
    (api : Api Adapter) (response : Response) (k : String) :
    (s.submit api i response id adapter evidence rest).spent k = s.spent k := by
  have hgoes := spent_goOn hc (.answered id (api.outcome adapter evidence response)
    (api.refreshes adapter response) rest) k
  have hanswered : ∀ w r, transmits k (.answered id w r rest : Call Adapter) = false :=
    fun _ _ => rfl
  have hsubmitting : transmits k (.submitting id adapter evidence rest) = decide (id = k) := rfl
  rw [hanswered, hsubmitting] at hgoes
  have hsubmissions : (s.submissions ++ [id]).count k =
      s.submissions.count k + if id = k then 1 else 0 := by
    rw [count_append, count_singleton]
    simp
  show (s.submissions ++ [id]).count k + (s.goOn i _).calls.countP _ = _
  rw [hsubmissions]
  simp only [decide_eq_true_eq, Bool.false_eq_true, if_false] at hgoes
  rw [Nat.add_right_comm]
  exact hgoes

namespace Inv

variable (h : Inv s)

include h

lemma writes_goOn (hpend : ∀ w ∈ call.pending, w.state ≠ .prepared) :
    ∀ c ∈ (s.goOn i call).calls, ∀ w ∈ c.pending, w.state ≠ .prepared := by
  intro c hc
  rcases mem_or_eq_of_mem_set hc with hc | rfl
  · exact h.writes c hc
  · exact hpend

section

variable (hc : s.calls[i]? = some c)

include hc

lemma goOn (htransmits : ∀ id, call.transmits id = false)
    (hpend : ∀ w ∈ call.pending, w.state ≠ .prepared) : Inv (s.goOn i call) := by
  refine h.of_keeps (Store.Keeps.refl _) ?_ (h.writes_goOn hpend)
  intro id
  have hspent := spent_goOn hc call id
  rw [htransmits] at hspent
  simp at hspent
  omega

lemma attemptNext (rest : List String) : Inv (s.attemptNext i rest) := by
  cases rest with
  | nil => exact h.endCall i
  | cons => exact h.goOn hc (fun _ => rfl) (by simp [pending])

lemma proceed : Inv (s.proceed i id identity) := by
  have hgoes : Inv (s.goOn i (.attempting id [])) :=
    h.goOn hc (fun _ => rfl) (by simp [pending])
  exact ⟨hgoes.once, hgoes.submitted, hgoes.writes⟩

/-- The claim spends the operation: the row was prepared, so nothing was spent before. -/
lemma claim (hclaim : s.store.claimOperationSubmission id attemptId = (true, store))
    (adapter : Adapter) (evidence : Bool) (rest : List String) :
    Inv ((s.setStore store).goOn i (.submitting id adapter evidence rest)) := by
  obtain ⟨hkeeps, hwon⟩ := Store.claimOperationSubmission_spec hclaim
  obtain ⟨⟨e, he, hprep⟩, hafter⟩ := hwon rfl
  have hzero : s.spent id = 0 := by
    by_contra hne
    obtain ⟨e', he', hstate⟩ := h.submitted id (Nat.pos_of_ne_zero hne)
    rw [he] at he'
    exact hstate (some.inj he' ▸ hprep)
  refine h.of_spend hzero hkeeps hafter (fun k => ?_) (h.writes_goOn (by simp [pending]))
  have hgoes := spent_goOn hc (.submitting id adapter evidence rest) k
  simp only [transmits, decide_eq_true_eq] at hgoes
  show (s.goOn i (.submitting id adapter evidence rest)).spent k ≤ _
  omega

end

lemma submit (hc : s.calls[i]? = some (.submitting id adapter evidence rest)) (api : Api Adapter)
    (response : Response) : Inv (s.submit api i response id adapter evidence rest) := by
  refine h.of_keeps (Store.Keeps.refl _) ?_ (h.writes_goOn ?_)
  · intro k
    exact Nat.le_of_eq (spent_submit hc api response k)
  · intro w hw
    obtain rfl : _ = w := some.inj hw
    exact api.outcome_state_ne adapter evidence response

lemma written {d : Call Adapter} (hc : s.calls[i]? = some c) : Inv (s.follow i d.written) := by
  cases hnext : d.written with
  | none => exact h.endCall i
  | some call =>
    refine h.goOn hc ?_ ?_ <;>
      rcases mem_written hnext with ⟨id, rest, rfl⟩ | ⟨id, w, rest, -, rfl⟩ |
        ⟨event, targets, ids, id, w, -, rfl⟩
    all_goals simp [transmits, pending]

end Inv

lemma Call.Writes.state_ne (h : c.Writes id w) (hpend : ∀ w ∈ c.pending, w.state ≠ .prepared) :
    w.state ≠ .prepared := by
  cases h with
  | answered => exact hpend w rfl
  | refreshing rest write => simp [write]
  | reconciling refreshed answer _ write =>
    rcases Entry.reconciliation_state write with hw | hw <;> simp [hw]
  | evidenced => exact hpend w rfl

/-! ## Runs -/

variable (api : Api Adapter)

lemma step_inv (h : Inv s) (op : Op Adapter) : Inv (step api s op) := by
  have hturn := step_turn api s op
  generalize step api s op = t at hturn
  cases hturn with
  | idle => exact h
  | begins hcall => apply h.begin <;> cases hcall <;> simp [transmits, pending]
  | ends i => exact h.endCall i
  | moves here _ hmove =>
    apply h.goOn here
    · cases hmove <;> exact fun _ => rfl
    · cases hmove with
      | judged targets ids row verdict =>
        rintro w ⟨⟩
        rcases Entry.verdict_state verdict with hw | hw <;> simp [hw]
      | _ => simp [pending]
  | records here absent => exact (h.setStore (Store.keeps_insert absent rfl)).proceed here
  | agrees here => exact h.proceed here
  | claims _ here claim => exact h.claim here claim _ _ _
  | loses _ here claim =>
    exact (h.setStore (Store.claimOperationSubmission_spec claim).1).attemptNext here _
  | submits response here => exact h.submit here api response
  | writes here hwrite =>
    have hstate := hwrite.state_ne (h.writes _ (mem_of_getElem? here))
    exact (h.setStore (Store.keeps_apply hstate)).written here
  | promotes => exact h.setStore Store.keeps_promoteCrashedSubmissions
  | advances => exact h.setStore fun _ e he => ⟨e, he, rfl, fun hne => hne⟩
  | crashes =>
    -- what was about to be transmitted is not
    exact h.of_keeps (Store.Keeps.refl _) (fun _ => Nat.add_le_add_left (Nat.zero_le _) _) (by simp)

lemma run_inv (ops : List (Op Adapter)) : Inv (run api ops) :=
  foldlRecOn ops (step api) Inv.init fun _ h op _ => step_inv api h op

@[simp] lemma System.submissions_attemptNext (i : ℕ) (rest : List String) :
    (s.attemptNext i rest).submissions = s.submissions := by
  cases rest <;> rfl

@[simp] lemma System.submissions_follow (i : ℕ) (next : Option (Call Adapter)) :
    (s.follow i next).submissions = s.submissions := by
  cases next <;> rfl

/-- What was transmitted stays on record: only `submit` writes there, and it adds. -/
lemma step_submissions (s : System Adapter) (op : Op Adapter) :
    s.submissions ⊆ (step api s op).submissions := by
  have hturn := step_turn api s op
  generalize step api s op = t at hturn
  cases hturn with
  | submits => exact subset_append_left _ _
  | loses | writes => simp [setStore]
  | _ => exact List.Subset.refl _

lemma run_submissions (ops ops' : List (Op Adapter)) :
    (run api ops).submissions ⊆ (run api (ops ++ ops')).submissions := by
  unfold run
  rw [foldl_append]
  exact foldl_rel (R := fun s t => s.submissions ⊆ t.submissions) (P := fun _ => True)
    (fun _ => List.Subset.refl _) (fun _ _ _ _ hst htu => List.Subset.trans hst htu)
    (fun _ _ _ => trivial) (fun s op _ => step_submissions api s op) trivial ops'

/-- The adapter's `submit` was executed at most once for each operation. -/
def System.TransmitsOnce (s : System Adapter) : Prop := ∀ id, s.submissions.count id ≤ 1

/-- What `s` has transmitted is on record in `t`, and not as prepared. -/
def System.StaysSubmitted (s t : System Adapter) : Prop :=
  ∀ id ∈ s.submissions, ∃ e, t.store.readOperation id = some e ∧ e.state ≠ .prepared

lemma Inv.transmitsOnce (h : Inv s) : s.TransmitsOnce := fun id =>
  Nat.le_trans (Nat.le_add_right _ _) (h.once id)

lemma Inv.staysSubmitted (h : Inv t) (hlater : s.submissions ⊆ t.submissions) :
    s.StaysSubmitted t := by
  intro id hid
  have hpos : 0 < t.submissions.count id := count_pos_iff.mpr (hlater hid)
  exact h.submitted id (Nat.lt_of_lt_of_le hpos (Nat.le_add_right _ _))

end Replicant.Managed
