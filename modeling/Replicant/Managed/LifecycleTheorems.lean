import Replicant.Managed.Steps

/-!
# The lifecycle of an operation

A status is written from what a call has read, and the write does not look again. So a terminal
status lasts as long as no call that has read the row before is still to write it, and `reconcile`
must not be called on a row that is `prepared`.
-/

namespace Replicant.Managed

open Lib List Option Call Store
open Replicant.Managed.System

variable {claims : Prop}

variable {w : Write} {store : Store} {id : String}

/-! ## What may happen to a row -/

/-- A row stays in its status, is claimed, or is written while its operation is under way. -/
inductive Entry.Goes (claims settles : Prop) (e e' : Entry) : Prop where
  | stays (state : e'.state = e.state) (attempt : e'.submissionAttemptId = e.submissionAttemptId)
  | claimed (now : claims) (before : e.state = .prepared) (state : e'.state = .submitted)
      (attempt : e'.submissionAttemptId.isSome = true)
  | written (before : e.state ≠ .prepared) (unsettled : e.state.isTerminal = false)
      (state : e'.state ≠ .prepared) (settled : e'.state.isTerminal = true → settles)
      (attempt : e'.submissionAttemptId = e.submissionAttemptId)

namespace Store

variable {s t : Store} {settles : String → Prop}

/-- Every row goes on, only those of `settles` to a terminal status, and a new one is
prepared. -/
structure Goes (claims : Prop) (settles : String → Prop) (s t : Store) : Prop where
  row : ∀ id e, s.readOperation id = some e →
    ∃ e', t.readOperation id = some e' ∧ e.Goes claims (settles id) e'
  fresh : ∀ id e', s.readOperation id = none → t.readOperation id = some e' → e'.state = .prepared

lemma Goes.of_journal (h : t.journal = s.journal) : s.Goes claims settles t := by
  have hread : ∀ id, t.readOperation id = s.readOperation id := fun id => by
    unfold readOperation
    rw [h]
  refine ⟨fun id e he => ⟨e, (hread id).trans he, .stays rfl rfl⟩, fun id e' hnone he' => ?_⟩
  rw [hread, hnone] at he'
  cases he'

/-- An update moves every row it selects. -/
lemma Goes.of_update {p : Entry → Bool} {f : Entry → Entry}
    (hf : ∀ e, (f e).operationId = e.operationId)
    (hgoes : ∀ id e, s.readOperation id = some e → p e = true → e.Goes claims (settles id) (f e)) :
    s.Goes claims settles { s with journal := s.journal.update p f hf } := by
  constructor
  · intro id e he
    refine ⟨if p e then f e else e, ?_, ?_⟩
    · rw [readOperation_update, he, map_some]
    · split
      · next hp => exact hgoes id e he hp
      · exact .stays rfl rfl
  · intro id e' hnone he'
    rw [readOperation_update, hnone] at he'
    cases he'

lemma goes_promoteCrashedSubmissions : s.Goes claims settles s.promoteCrashedSubmissions := by
  refine Goes.of_update _ fun id e _ hp => ?_
  have hsubm : e.state = .submitted := by simpa using hp
  have hterm : e.state.isTerminal = false := by rw [hsubm]; rfl
  exact .written (by rw [hsubm]; simp) hterm (by simp) nofun rfl

lemma goes_claimOperationSubmission (hclaims : claims) (attemptId : String) :
    s.Goes claims settles (s.claimOperationSubmission id attemptId).2 := by
  refine Goes.of_update _ fun k e _ hp => ?_
  have hprep : e.state = .prepared := by simp at hp; exact hp.2
  exact .claimed hclaims hprep rfl rfl

lemma goes_insert {row : Entry} {key : String} (habsent : s.readOperation key = none)
    (hkey : row.operationId = key) (hprep : row.state = .prepared) :
    s.Goes claims settles { s with journal := s.journal.insert row } := by
  constructor
  · intro k e he
    exact ⟨e, readOperation_insert_of_some habsent hkey he, .stays rfl rfl⟩
  · intro k e' hnone he'
    rw [readOperation_insert habsent hkey, hnone] at he'
    split at he'
    · rw [← some.inj he', hprep]
    · cases he'

end Store

/-! ## Calls that are still to write -/

variable {Adapter : Type} {s t : System Adapter} {c : Call Adapter} {op : Op Adapter} {e : Entry}

/-- The call has read the row and may still write a status to it. -/
def Call.holds (id : String) : Call Adapter → Bool
  | .submitting id' _ _ _ | .answered id' _ _ _ | .refreshing id' _ => id' = id
  | .reconciling entry => entry.operationId = id && !entry.state.isTerminal
  | .resolving _ _ ids => ids.contains id
  | .evidenced _ _ ids id' _ => (id' :: ids).contains id
  | _ => false

/-- The operation a step loads to reconcile it. -/
def Op.reconciles : Op Adapter → Option String
  | .reconcile id => some id
  | _ => none

/-- `reconcile` is not called on a prepared row, and a terminal status is written to a row
that no other call is still to write. -/
def Op.Serial (s : System Adapter) (op : Op Adapter) : Prop :=
  (∀ id ∈ op.reconciles, ∀ e ∈ s.store.readOperation id, e.state ≠ .prepared) ∧
    ∀ w ∈ s.writes op, w.2.2.isTerminal = true → ∀ c ∈ s.calls.eraseIdx w.1, c.holds w.2.1 = false

instance (s : System Adapter) (op : Op Adapter) : Decidable (op.Serial s) :=
  inferInstanceAs (Decidable (_ ∧ _))

/-- The rows a call is still to write: claimed, and not terminal unless the call only repeats
the completion. -/
def Call.Ready (store : Store) (c : Call Adapter) : Prop :=
  ∀ id, c.holds id = true → ∃ e, store.readOperation id = some e ∧ e.state ≠ .prepared ∧
    (e.state.isTerminal = true → e.state = .completed ∧ ∃ rest, c = .refreshing id rest)

/-- A retrieval that was accepted ends in `completed` if anywhere, and the operations found for
an event are distinct. -/
def Call.Sound : Call Adapter → Prop
  | .answered _ write refreshes _ =>
    refreshes = true → write.state.isTerminal = true → write.state = .completed
  | .resolving _ _ ids => ids.Nodup
  | .evidenced _ _ ids id _ => (id :: ids).Nodup
  | _ => True

structure Held (s : System Adapter) : Prop where
  ready : ∀ c ∈ s.calls, c.Ready s.store
  sound : ∀ c ∈ s.calls, c.Sound
  claimed : ∀ id e, s.store.readOperation id = some e → e.state ≠ .prepared →
    e.submissionAttemptId.isSome = true

lemma Held.init : Held (System.init : System Adapter) where
  ready := by simp [System.init]
  sound := by simp [System.init]
  claimed := by simp [System.init, Store.empty, Store.readOperation, Table.empty, Table.find?]

lemma Api.outcome_of_refreshes (api : Api Adapter) (adapter : Adapter) (evidence : Bool)
    (response : Response) (hrefreshes : api.refreshes adapter response = true)
    (hterm : (api.outcome adapter evidence response).state.isTerminal = true) :
    (api.outcome adapter evidence response).state = .completed := by
  cases response with
  | ambiguous | rejected => cases hrefreshes
  | accepted =>
    simp only [Api.outcome] at hterm ⊢
    split
    · rfl
    · next hcompletes =>
      rw [if_neg hcompletes] at hterm
      split at hterm <;> cases hterm

lemma Entry.unsettled_of_reconciliation {refreshed : Bool} {answer : Option Json}
    (h : e.reconciliation refreshed answer = some w) : e.state.isTerminal = false := by
  unfold Entry.reconciliation at h
  split at h
  · next hretrieve => rw [hretrieve.1]; rfl
  · split at h
    · cases h
    · next hunset => simpa using hunset

/-- A call that holds nothing. -/
lemma Call.ready_of_free (h : ∀ id, c.holds id = false) : c.Ready store := by
  intro id hid
  rw [h] at hid
  cases hid

/-- What a call holds stays as it needs it, unless the row is settled. -/
lemma Call.Ready.goes {store' : Store} {settles : String → Prop} (h : c.Ready store)
    (hgoes : store.Goes claims settles store')
    (hfree : ∀ id, settles id → c.holds id = false) : c.Ready store' := by
  intro id hid
  obtain ⟨e, he, hprep, hterm⟩ := h id hid
  obtain ⟨e', he', hrow⟩ := hgoes.row id e he
  refine ⟨e', he', ?_⟩
  cases hrow with
  | stays state =>
    rw [state]
    exact ⟨hprep, hterm⟩
  | claimed _ before => exact absurd before hprep
  | written _ _ state settled _ =>
    refine ⟨state, fun hnow => ?_⟩
    rw [hfree id (settled hnow)] at hid
    cases hid

/-- A step keeps the calls that do not hold what it settles; the others are as they must be. -/
lemma Held.move {settles : String → Prop} (h : Held s) (hgoes : s.store.Goes claims settles t.store)
    (hcalls : ∀ c ∈ t.calls, (c ∈ s.calls ∧ ∀ id, settles id → c.holds id = false) ∨
      (c.Ready t.store ∧ c.Sound)) : Held t where
  ready c hc := by
    rcases hcalls c hc with ⟨hold, hfree⟩ | ⟨hready, -⟩
    · exact (h.ready c hold).goes hgoes hfree
    · exact hready
  sound c hc := by
    rcases hcalls c hc with ⟨hold, -⟩ | ⟨-, hsound⟩
    · exact h.sound c hold
    · exact hsound
  claimed id e' he' hstate := by
    cases he : s.store.readOperation id with
    | none => exact absurd (hgoes.fresh id e' he he') hstate
    | some e =>
      obtain ⟨e'', he'', hrow⟩ := hgoes.row id e he
      obtain rfl : e'' = e' := some.inj (he''.symm.trans he')
      cases hrow with
      | stays state attempt =>
        rw [attempt]
        exact h.claimed id e he (state ▸ hstate)
      | claimed _ _ _ attempt => exact attempt
      | written before _ _ _ attempt =>
        rw [attempt]
        exact h.claimed id e he before

/-! ## Steps -/

/-- The step keeps what the calls rely on and moves every row as it may. -/
def System.Moves (claims : Prop) (s t : System Adapter) : Prop :=
  Held t ∧ ∃ settles, s.store.Goes claims settles t.store

namespace Held

variable {i : ℕ} {c call : Call Adapter} {rest : List String}

lemma quiet (h : Held s) (hgoes : s.store.Goes claims (fun _ => False) t.store)
    (hcalls : ∀ c ∈ t.calls, c ∈ s.calls ∨ (c.Ready t.store ∧ c.Sound)) : s.Moves claims t := by
  refine ⟨h.move hgoes fun c hc => ?_, _, hgoes⟩
  rcases hcalls c hc with hold | hnew
  · exact .inl ⟨hold, fun _ hfalse => hfalse.elim⟩
  · exact .inr hnew

lemma endCall (h : Held s) (i : ℕ) : s.Moves claims (s.endCall i) :=
  h.quiet (.of_journal rfl) fun _ hc => .inl (mem_of_mem_eraseIdx hc)

lemma begin (h : Held s) (hready : c.Ready s.store) (hsound : c.Sound) :
    s.Moves claims (s.begin c) := by
  refine h.quiet (.of_journal rfl) fun c' hc' => ?_
  rcases of_mem_concat hc' with hold | rfl
  · exact .inl hold
  · exact .inr ⟨hready, hsound⟩

lemma quietAt (h : Held s) (hgoes : s.store.Goes claims (fun _ => False) t.store)
    (hcalls : ∀ c ∈ t.calls, c ∈ s.calls.eraseIdx i ∨ (c.Ready t.store ∧ c.Sound)) :
    s.Moves claims t :=
  h.quiet hgoes fun c hc => (hcalls c hc).imp_left mem_of_mem_eraseIdx

lemma calls_goOn (hready : c.Ready t.store) (hsound : c.Sound) :
    ∀ c' ∈ (t.goOn i c).calls, c' ∈ t.calls.eraseIdx i ∨ (c'.Ready t.store ∧ c'.Sound) := by
  intro c' hc'
  rcases mem_goOn hc' with hnew | hold
  · rw [hnew]
    exact .inr ⟨hready, hsound⟩
  · exact .inl hold

section

variable (h : Held s)

include h

lemma goOn (hready : c.Ready s.store) (hsound : c.Sound) : s.Moves claims (s.goOn i c) :=
  h.quietAt (.of_journal rfl) (calls_goOn hready hsound)

section

variable (hc : c ∈ s.calls) (hholds : c.holds id = true) (hstate : w.state ≠ .prepared)
  (hrepeat : ∀ rest, c = .refreshing id rest → w.state = .completed)

include hc hholds hstate hrepeat

/-- The write of a call that holds the row. -/
lemma goes_apply :
    s.store.Goes claims (fun k => k = id ∧ w.state.isTerminal = true) (s.store.apply id w) := by
  obtain ⟨e, he, hprep, hterm⟩ := h.ready c hc id hholds
  constructor
  · intro k e₁ he₁
    by_cases hk : k = id
    · obtain rfl : e = e₁ := some.inj (he.symm.trans (hk ▸ he₁))
      obtain ⟨e', he', hstate', hattempt⟩ := readOperation_apply_self he
      refine ⟨e', hk ▸ he', ?_⟩
      cases hsettled : e.state.isTerminal with
      | true =>
        -- only the refresh of a completed retrieval comes here, and it repeats the status
        obtain ⟨hcompd, rest, hcall⟩ := hterm hsettled
        exact .stays (by rw [hstate', hrepeat rest hcall, hcompd]) hattempt
      | false =>
        refine .written hprep hsettled (by rw [hstate']; exact hstate) ?_ hattempt
        rw [hstate']
        exact fun hnow => ⟨hk, hnow⟩
    · exact ⟨e₁, (readOperation_apply_of_ne hk).trans he₁, .stays rfl rfl⟩
  · intro k e' hnone he'
    rw [readOperation_apply, hnone] at he'
    cases he'

lemma write (hserial : w.state.isTerminal = true → ∀ c ∈ s.calls.eraseIdx i, c.holds id = false)
    (hstore : t.store = s.store.apply id w)
    (hcalls : ∀ c ∈ t.calls, c ∈ s.calls.eraseIdx i ∨ (c.Ready t.store ∧ c.Sound)) :
    s.Moves claims t := by
  have hgoes : s.store.Goes claims (fun k => k = id ∧ w.state.isTerminal = true) t.store :=
    hstore ▸ h.goes_apply hc hholds hstate hrepeat
  refine ⟨h.move hgoes fun c' hc' => ?_, _, hgoes⟩
  rcases hcalls c' hc' with hother | hnew
  · refine .inl ⟨mem_of_mem_eraseIdx hother, ?_⟩
    rintro k ⟨rfl, hterm⟩
    exact hserial hterm c' hother
  · exact .inr hnew

end

/-- The row a creation proceeds with is new and prepared, or as it was. -/
lemma proceed (hgoes : s.store.Goes claims (fun _ => False) store) (i : ℕ) (id : String)
    (identity : Identity) : s.Moves claims ((s.setStore store).proceed i id identity) :=
  h.quietAt hgoes (calls_goOn (ready_of_free fun _ => rfl) trivial)

/-- The claim leaves its row submitted, and nobody else held it. -/
lemma claim (hclaims : claims) {attemptId : String}
    (hclaim : s.store.claimOperationSubmission id attemptId = (true, store)) (i : ℕ)
    (adapter : Adapter) (evidence : Bool) (rest : List String) :
    s.Moves claims ((s.setStore store).goOn i (.submitting id adapter evidence rest)) := by
  have hgoes : s.store.Goes claims (fun _ => False)
      (s.store.claimOperationSubmission id attemptId).2 :=
    goes_claimOperationSubmission hclaims attemptId
  rw [hclaim] at hgoes
  obtain ⟨⟨e, he, hprep⟩, e₁, he₁, hstate₁⟩ :=
    (claimOperationSubmission_spec hclaim).2 rfl
  obtain ⟨e', he', hrow⟩ := hgoes.row id e he
  have hsubm : e'.state = .submitted := by
    obtain rfl : e' = e₁ := some.inj (he'.symm.trans he₁)
    cases hrow with
    | stays state => exact absurd (state.trans hprep) hstate₁
    | claimed _ _ state => exact state
    | written before => exact absurd hprep before
  refine h.quietAt hgoes (calls_goOn (fun k hk => ?_) trivial)
  obtain rfl : id = k := by simpa [holds] using hk
  refine ⟨e', he', by rw [hsubm]; simp, fun hterm => ?_⟩
  rw [hsubm] at hterm
  cases hterm

/-- What a call holds it still holds when it goes on with fewer operations. -/
lemma ready_of_found {c' : Call Adapter} (hc : s.calls[i]? = some c)
    (hc' : ∀ id, c'.holds id = true → c.holds id = true)
    (hcall : ∀ id rest, c ≠ .refreshing id rest) : c'.Ready s.store := by
  intro id hid
  obtain ⟨e, he, hprep, hterm⟩ := h.ready c (mem_of_getElem? hc) id (hc' id hid)
  refine ⟨e, he, hprep, fun hsettled => ?_⟩
  obtain ⟨-, rest, hrefreshing⟩ := hterm hsettled
  exact absurd hrefreshing (hcall id rest)

end

/-- A reconciliation holds the row it has loaded, unless that was prepared. -/
lemma ready_reconciling (he : s.store.readOperation id = some e) (hserial : e.state ≠ .prepared) :
    (Call.reconciling e : Call Adapter).Ready s.store := by
  intro k hk
  have hheld : e.operationId = k ∧ e.state.isTerminal = false := by
    simpa [holds] using hk
  obtain rfl : id = k := (operationId_of_readOperation he).symm.trans hheld.1
  refine ⟨e, he, hserial, fun hterm => ?_⟩
  rw [hheld.2] at hterm
  cases hterm

lemma holds_tail {k : String} {ids : List String} (hk : ids.contains k = true) :
    (id :: ids).contains k = true := by
  rw [contains_cons, hk, Bool.or_true]

/-- A call that goes on with what it has read holds rows awaiting evidence, or those it held. -/
lemma follows (h : Held s) (hc : s.calls[i]? = some c) (hmove : s.Follows c call) :
    call.Ready s.store ∧ call.Sound := by
  have hsound := h.sound c (mem_of_getElem? hc)
  cases hmove with
  | attempting | claiming => exact ⟨ready_of_free fun _ => rfl, trivial⟩
  | found event target targets =>
    refine ⟨fun id hid => ?_, s.store.journal.keysNodup.sublist (filter_sublist.map _)⟩
    have hfound : id ∈ s.store.findOperationsAwaitingEvidence target := by
      simpa [holds] using hid
    obtain ⟨e, he, hstate, -⟩ := mem_findOperationsAwaitingEvidence.mp hfound
    refine ⟨e, he, by rw [hstate]; simp, fun hterm => ?_⟩
    rw [hstate] at hterm
    cases hterm
  | passed => exact ⟨h.ready_of_found hc (fun _ => holds_tail) nofun, (nodup_cons.mp hsound).2⟩
  | judged => exact ⟨h.ready_of_found hc (fun _ hk => hk) nofun, hsound⟩

/-- A call that goes on after its write is to repeat the completion, or has other rows left. -/
lemma written (h : Held s) (hc : s.calls[i]? = some c) (hw : c.Writes id w)
    (hstate : w.state ≠ .prepared) (hnext : c.written = some call) :
    call.Ready (s.store.apply id w) ∧ call.Sound := by
  have hmem := mem_of_getElem? hc
  rcases mem_written hnext with ⟨_, _, rfl⟩ | ⟨_, _, rest, rfl, rfl⟩ |
    ⟨event, targets, ids, _, _, rfl, rfl⟩
  · exact ⟨ready_of_free fun _ => rfl, trivial⟩
  · cases hw
    refine ⟨fun k hk => ?_, trivial⟩
    obtain rfl : id = k := by simpa [holds] using hk
    obtain ⟨e, he, -, -⟩ := h.ready _ hmem id (by simp [holds])
    obtain ⟨e', he', hstate', -⟩ := readOperation_apply_self he
    refine ⟨e', he', hstate' ▸ hstate, fun hterm => ?_⟩
    rw [hstate'] at hterm ⊢
    exact ⟨h.sound _ hmem rfl hterm, rest, rfl⟩
  · cases hw
    have hdist : id ∉ ids ∧ ids.Nodup := nodup_cons.mp (h.sound _ hmem)
    have hrest : (resolving event targets ids : Call Adapter).Ready s.store :=
      h.ready_of_found hc (fun _ => holds_tail) nofun
    refine ⟨fun k hk => ?_, hdist.2⟩
    -- the operation just written is not among the rest
    have hne : k ≠ id := by
      rintro rfl
      exact hdist.1 (by simpa [holds] using hk)
    obtain ⟨e, he, hready⟩ := hrest k hk
    exact ⟨e, (readOperation_apply_of_ne hne).trans he, hready⟩

end Held

lemma Call.Writes.holds {id : String} (h : c.Writes id w) : c.holds id = true := by
  cases h with
  | reconciling refreshed answer operation write =>
    simp [Call.holds, operation, Entry.unsettled_of_reconciliation write]
  | _ => simp [Call.holds]

/-! ## Runs -/

/-- The step is a claim of a submission. -/
def Op.Claims (op : Op Adapter) : Prop := ∃ i attemptId, op = .claim i attemptId

lemma step_moves (api : Api Adapter) (hinv : Inv s) (h : Held s) (hserial : op.Serial s) :
    s.Moves op.Claims (step api s op) := by
  have hturn := step_turn api s op
  generalize step api s op = t at hturn
  cases hturn with
  | idle | advances => exact h.quiet (.of_journal rfl) fun _ hc => .inl hc
  | begins hcall =>
    cases hcall with
    | creating | attempting => exact h.begin (ready_of_free fun _ => rfl) trivial
    | reconciling step row =>
      refine h.begin (Held.ready_reconciling row (hserial.1 _ ?_ _ row)) trivial
      rw [step]
      rfl
    | resolving => exact h.begin (ready_of_free fun _ => rfl) nodup_nil
  | ends i => exact h.endCall i
  | moves here _ hmove => exact h.goOn (h.follows here hmove).1 (h.follows here hmove).2
  | records _ absent => exact h.proceed (goes_insert absent rfl rfl) _ _ _
  | @agrees i id e => exact h.proceed (.of_journal rfl) i id e.identity
  | claims step _ claim => exact h.claim ⟨_, _, step⟩ claim _ _ _ _
  | @loses i attemptId id _ _ rest store step _ claim =>
    have hgoes : s.store.Goes op.Claims (fun _ => False)
        (s.store.claimOperationSubmission id attemptId).2 :=
      goes_claimOperationSubmission ⟨_, _, step⟩ attemptId
    rw [claim] at hgoes
    refine h.quietAt (i := i) ?_ fun c hc => ?_
    · rw [store_attemptNext]
      exact hgoes
    · -- an operation that is only scheduled holds nothing yet
      rcases mem_attemptNext hc with ⟨id, rest, rfl⟩ | hold
      · exact .inr ⟨ready_of_free fun _ => rfl, trivial⟩
      · exact .inl hold
  | @submits i id adapter evidence rest response here =>
    refine h.quietAt (.of_journal rfl) (Held.calls_goOn
      (h.ready_of_found here (fun _ hk => hk) nofun)
      (api.outcome_of_refreshes adapter evidence response))
  | @writes i c id w here hw status =>
    have hmem := mem_of_getElem? here
    have hstate := hw.state_ne (hinv.writes _ hmem)
    refine h.write hmem hw.holds hstate ?_ (hserial.2 _ status) (store_follow ..) ?_
    · rintro rest rfl
      cases hw with
      | refreshing _ write => rw [write]
    · intro c' hc'
      rw [store_follow]
      exact (mem_follow hc').symm.imp_right (h.written here hw hstate)
  | promotes => exact h.quiet goes_promoteCrashedSubmissions fun _ hc => .inl hc
  | crashes => exact h.quiet (.of_journal rfl) nofun

/-- A terminal status of `s` is the status in `t`. -/
def System.KeepsTerminal (s t : System Adapter) : Prop :=
  ∀ id e, s.store.readOperation id = some e → e.state.isTerminal = true →
    ∃ e', t.store.readOperation id = some e' ∧ e'.state = e.state

/-- A row that leaves `prepared` in the step leaves it by the claim of its submission. -/
def System.LeavesPrepared (s : System Adapter) (op : Op Adapter) (t : System Adapter) : Prop :=
  ∀ id e e', s.store.readOperation id = some e → e.state = .prepared →
    t.store.readOperation id = some e' → e'.state ≠ .prepared → op.Claims

/-- Every row with another status than `prepared` has an attempt on record. -/
def System.Claimed (s : System Adapter) : Prop :=
  ∀ id e, s.store.readOperation id = some e → e.state ≠ .prepared →
    e.submissionAttemptId.isSome = true

lemma System.Moves.keepsTerminal {u : System Adapter} (h : t.Moves claims u)
    (hkept : s.KeepsTerminal t) : s.KeepsTerminal u := by
  intro id e he hterm
  obtain ⟨e', he', hstate⟩ := hkept id e he hterm
  obtain ⟨-, settles, hgoes⟩ := h
  obtain ⟨e'', he'', hrow⟩ := hgoes.row id e' he'
  refine ⟨e'', he'', ?_⟩
  cases hrow with
  | stays state => exact state.trans hstate
  | claimed _ before =>
    rw [← hstate, before] at hterm
    cases hterm
  | written _ unsettled =>
    rw [hstate, hterm] at unsettled
    cases unsettled

lemma System.Moves.leavesPrepared (h : s.Moves op.Claims t) : s.LeavesPrepared op t := by
  intro id e e' he hprep he' hleft
  obtain ⟨-, settles, hgoes⟩ := h
  obtain ⟨e'', he'', hrow⟩ := hgoes.row id e he
  obtain rfl : e'' = e' := some.inj (he''.symm.trans he')
  cases hrow with
  | stays state => exact absurd (state.trans hprep) hleft
  | claimed now => exact now
  | written before => exact absurd hprep before

/-- In every run in which `reconcile` is not called on a prepared row and a terminal status is
written only when no other call is still to write the row: terminal is for good, only a claim
leaves `prepared`, and what has left it was claimed. -/
theorem run_lifecycle (api : Api Adapter) (ops : List (Op Adapter)) (op : Op Adapter)
    (ops' : List (Op Adapter))
    (h : AllSteps (step api) (fun s op => op.Serial s) System.init (ops ++ op :: ops')) :
    (run api ops).KeepsTerminal (run api (ops ++ op :: ops')) ∧
      (run api ops).LeavesPrepared op (run api (ops ++ [op])) ∧
      (run api (ops ++ op :: ops')).Claimed := by
  obtain ⟨hbefore, hafter⟩ := AllSteps.append.mp h
  have hstep : ∀ t o, Inv t ∧ Held t → Op.Serial t o → Inv (step api t o) ∧ Held (step api t o) :=
    fun t o ht ho => ⟨step_inv api ht.1 o, (step_moves api ht.1 ht.2 ho).1⟩
  have hnow : Inv (run api ops) ∧ Held (run api ops) :=
    hbefore.foldl ⟨Inv.init, Held.init⟩ hstep
  have hlater : ∀ u, u = (op :: ops').foldl (step api) (run api ops) →
      Inv u ∧ Held u ∧ (run api ops).KeepsTerminal u := by
    rintro u rfl
    refine hafter.foldl (P := fun t => Inv t ∧ Held t ∧ (run api ops).KeepsTerminal t)
      ⟨hnow.1, hnow.2, fun _ e he _ => ⟨e, he, rfl⟩⟩ ?_
    rintro t o ⟨hinv, hheld, hkept⟩ ho
    have hmoves := step_moves api hinv hheld ho
    exact ⟨step_inv api hinv o, hmoves.1, hmoves.keepsTerminal hkept⟩
  obtain ⟨-, hheld, hkept⟩ := hlater (run api (ops ++ op :: ops')) (foldl_append ..)
  have hone : run api (ops ++ [op]) = step api (run api ops) op := foldl_append ..
  refine ⟨hkept, ?_, hheld.claimed⟩
  rw [hone]
  exact (step_moves api hnow.1 hnow.2 hafter.1).leavesPrepared

section Traces

/-- One device command that waits for the event `probe.done`. -/
def probeApi : Api Unit where
  durableIntent _ := some (.object [("kind", .string "device_command")])
  fromValue _ := some ()
  readBack intent := intent
  operationId _ := "device_command"
  target _ := some ("device", "D1")
  expectsEvidence _ := true
  operationEvidence _ := .object [("event_names", .array [.string "probe.done"])]
  responseCompletes _ := false
  isDeviceRetrieve _ := false

def probeDone : Event where
  id := "2-0"
  realm := some .live
  name := "probe.done"
  device := some "D1"
  replicant := none
  location := none
  payload := []

/-- The command is accepted and awaits its event. -/
def probeAccepted : List (Op Unit) :=
  [.advanceCursor "1-0", .create "op" (), .record 0, .read 0, .claim 0 "a",
    .submit 0 (.accepted .null), .settle 0]

def probeState (ops : List (Op Unit)) : Option OperationStatus :=
  ((run probeApi ops).store.readOperation "op").map (·.state)

/-- A reconciliation that has loaded the row before its event arrives takes the completion
back; one that loads a prepared row settles it without a submission. -/
theorem reconcile_overwrites :
    let loaded := probeAccepted ++ [.reconcile "op", .evidence probeDone, .evidenceFind 1,
      .evidenceRead 1, .evidenceWrite 1]
    let unsubmitted : List (Op Unit) := [.create "op" (), .record 0, .crash]
    probeState loaded = some .completed ∧
      probeState (loaded ++ [.reconcileWrite 0 false none]) = some .reconciliationRequired ∧
      probeState unsubmitted = some .prepared ∧
      probeState (unsubmitted ++ [.reconcile "op", .reconcileWrite 0 false none]) =
        some .reconciliationRequired ∧
      (run probeApi (unsubmitted ++ [.reconcile "op", .reconcileWrite 0 false none])).submissions
        = [] := by
  decide

/-- The event completes the command, and a reconciliation that loads it after that changes
nothing. -/
theorem run_lifecycle_probe :
    let ops := probeAccepted ++ [.evidence probeDone, .evidenceFind 0, .evidenceRead 0,
      .evidenceWrite 0]
    let ops' : List (Op Unit) := [.reconcileWrite 1 false none]
    (run probeApi ops).KeepsTerminal (run probeApi (ops ++ .reconcile "op" :: ops')) ∧
      (run probeApi ops).LeavesPrepared (.reconcile "op") (run probeApi (ops ++ [.reconcile "op"])) ∧
      (run probeApi (ops ++ .reconcile "op" :: ops')).Claimed :=
  run_lifecycle probeApi _ _ _ (by decide)

end Traces

end Replicant.Managed
