import Replicant.Managed.JournalTheorems

/-!
# The store and the calls after a step

What a turn leaves of the store and of one row, and where the calls in flight after it come from.
-/

namespace Replicant.Managed

open Lib List Store
open Replicant.Managed.System

/-! ## Reading the store -/

namespace Store

variable {s : Store} {id : String} {e : Entry} {w : Write}

lemma operationId_of_readOperation (h : s.readOperation id = some e) : e.operationId = id :=
  (Table.find?_eq_some.mp h).2

lemma readOperation_apply (w : Write) (k : String) :
    (s.apply id w).readOperation k = (s.readOperation k).map fun e =>
      if e.operationId = id then
        { e with state := w.state, projection := w.projection.or e.projection }
      else e := by
  obtain ⟨state, projection⟩ := w
  cases projection with
  | none =>
    show (s.setOperationState id state).readOperation k = _
    unfold setOperationState
    rw [readOperation_update]
    simp
  | some projection =>
    show (s.appendOperationProjection id state projection).readOperation k = _
    unfold appendOperationProjection
    rw [readOperation_update]
    simp

lemma readOperation_apply_self (h : s.readOperation id = some e) :
    ∃ e', (s.apply id w).readOperation id = some e' ∧ e'.state = w.state ∧
      e'.submissionAttemptId = e.submissionAttemptId := by
  refine ⟨{ e with state := w.state, projection := w.projection.or e.projection }, ?_, rfl, rfl⟩
  rw [readOperation_apply, h, Option.map_some, if_pos (operationId_of_readOperation h)]

lemma readOperation_apply_of_ne {k : String} (h : k ≠ id) :
    (s.apply id w).readOperation k = s.readOperation k := by
  rw [readOperation_apply]
  cases hread : s.readOperation k with
  | none => rfl
  | some e =>
    have hkey : e.operationId ≠ id := operationId_of_readOperation hread ▸ h
    rw [Option.map_some, if_neg hkey]

lemma mem_findOperationsAwaitingEvidence {target : Target} :
    id ∈ s.findOperationsAwaitingEvidence target ↔ ∃ e, s.readOperation id = some e ∧
      e.state = .awaitingEvidence ∧ e.identity.target = target := by
  unfold findOperationsAwaitingEvidence readOperation
  simp only [mem_map, mem_filter, Bool.and_eq_true, decide_eq_true_eq]
  constructor
  · rintro ⟨e, ⟨he, hstate, htgt⟩, hkey⟩
    exact ⟨e, Table.find?_eq_some.mpr ⟨he, hkey⟩, hstate, htgt⟩
  · rintro ⟨e, he, hstate, htgt⟩
    obtain ⟨hmem, hkey⟩ := Table.find?_eq_some.mp he
    exact ⟨e, ⟨hmem, hstate, htgt⟩, hkey⟩

end Store

variable {Adapter : Type} {s t : System Adapter}

/-! ## The store after a step -/

/-- What a step may leave of the store. -/
inductive System.StoreStep (s : System Adapter) (op : Op Adapter) (store : Store) : Prop where
  | same (h : store = s.store)
  | recorded (id : String) (identity : Identity) (absent : s.store.readOperation id = none)
      (h : store = { s.store with
        journal := s.store.journal.insert ⟨id, .prepared, identity, none, none, none⟩ })
  | claimed (i : ℕ) (id attemptId : String) (step : op = .claim i attemptId)
      (h : store = (s.store.claimOperationSubmission id attemptId).2)
  | promoted (h : store = s.store.promoteCrashedSubmissions)
  | written (call : Call Adapter) (mem : call ∈ s.calls) (id : String) (w : Write)
      (writes : call.Writes id w) (h : store = s.store.apply id w)
  | cursor (cursor : String) (step : op = .advanceCursor cursor)
      (h : store = { s.store with eventCursor := some cursor })

@[simp] lemma System.store_attemptNext (i : ℕ) (rest : List String) :
    (s.attemptNext i rest).store = s.store := by
  cases rest <;> rfl

@[simp] lemma System.store_follow (i : ℕ) (next : Option (Call Adapter)) :
    (s.follow i next).store = s.store := by
  cases next <;> rfl

variable (api : Api Adapter) {i : ℕ} {op : Op Adapter}

/-- Every step leaves the store in one of these ways. -/
lemma step_store (s : System Adapter) (op : Op Adapter) : s.StoreStep op (step api s op).store := by
  have hturn := step_turn api s op
  generalize step api s op = t at hturn
  cases hturn with
  | records _ absent => exact .recorded _ _ absent rfl
  | claims step _ claim => exact .claimed _ _ _ step (by rw [claim]; rfl)
  | loses step _ claim =>
    rw [store_attemptNext]
    exact .claimed _ _ _ step (by rw [claim]; rfl)
  | writes here hwrite =>
    rw [store_follow]
    exact .written _ (mem_of_getElem? here) _ _ hwrite rfl
  | promotes => exact .promoted rfl
  | advances cursor step => exact .cursor cursor step rfl
  | _ => exact .same rfl

/-- A step keeps what is recorded. -/
lemma step_keeps (h : Inv s) (op : Op Adapter) : s.store.Keeps (step api s op).store := by
  have hstep := step_store api s op
  cases hstep with
  | same heq => rw [heq]; exact Store.Keeps.refl _
  | recorded id identity absent heq => rw [heq]; exact keeps_insert absent rfl
  | claimed i id attemptId _ heq =>
    rw [heq]
    exact (claimOperationSubmission_spec rfl).1
  | promoted heq => rw [heq]; exact keeps_promoteCrashedSubmissions
  | written call mem id w writes heq =>
    rw [heq]
    exact keeps_apply (writes.state_ne (h.writes call mem))
  | cursor c _ heq => rw [heq]; exact fun _ e he => ⟨e, he, rfl, fun hne => hne⟩

/-- No run loses a recorded operation, gives it another target or intent, or prepares it again. -/
theorem run_keepsRecords (ops ops' : List (Op Adapter)) :
    (run api ops).store.Keeps (run api (ops ++ ops')).store := by
  unfold run
  rw [foldl_append]
  refine foldl_rel (R := fun s t : System Adapter => s.store.Keeps t.store) (P := Inv)
    (fun s => .refl s.store) ?_ (fun _ op h => step_inv api h op)
    (fun _ op h => step_keeps api h op) (run_inv api ops) ops'
  intro s t u _ hst htu id e he
  obtain ⟨e', he', hsame, hkept⟩ := hst id e he
  obtain ⟨e'', he'', hsame', hkept'⟩ := htu id e' he'
  exact ⟨e'', he'', hsame'.trans hsame, fun h => hkept' (hkept h)⟩

/-! ## A row after a step -/

/-- Where the row of an operation after a step comes from. -/
inductive System.RowStep (s : System Adapter) (id : String) (e' : Entry) : Prop where
  | fresh (absent : s.store.readOperation id = none) (cursor : e'.submissionCursor = none)
  | claimed (e : Entry) (row : s.store.readOperation id = some e) (before : e.state = .prepared)
      (state : e'.state = .submitted) (cursor : e'.submissionCursor = s.store.eventCursor)
  | follows (e : Entry) (row : s.store.readOperation id = some e)
      (identity : e'.identity = e.identity) (cursor : e'.submissionCursor = e.submissionCursor)
      (status : e'.state = e.state ∨ (e.state = .submitted ∧ e'.state = .ambiguous) ∨
        ∃ c ∈ s.calls, ∃ w : Write, c.Writes id w ∧ e'.state = w.state)

/-- Every row after a step comes from one of these. -/
lemma step_row (s : System Adapter) (op : Op Adapter) {id : String}
    {e' : Entry} (h : (step api s op).store.readOperation id = some e') : s.RowStep id e' := by
  have hstep := step_store api s op
  cases hstep with
  | same heq | cursor _ _ heq =>
    rw [heq] at h
    exact .follows e' h rfl rfl (.inl rfl)
  | recorded id₁ identity absent heq =>
    rw [heq, readOperation_insert absent rfl] at h
    split at h
    · next hid =>
      rw [← Option.some.inj h]
      exact .fresh (hid ▸ absent) rfl
    · exact .follows e' h rfl rfl (.inl rfl)
  | claimed i id₁ attemptId _ heq =>
    rw [heq] at h
    unfold claimOperationSubmission at h
    rw [readOperation_update] at h
    obtain ⟨e, he, hrow⟩ := Option.map_eq_some_iff.mp h
    split at hrow
    · next hclaim =>
      have hprep : e.state = .prepared := by simp at hclaim; exact hclaim.2
      exact .claimed e he hprep (by rw [← hrow]) (by rw [← hrow])
    · exact .follows e he (by rw [hrow]) (by rw [hrow]) (.inl (by rw [hrow]))
  | promoted heq =>
    rw [heq] at h
    unfold promoteCrashedSubmissions at h
    rw [readOperation_update] at h
    obtain ⟨e, he, hrow⟩ := Option.map_eq_some_iff.mp h
    split at hrow
    · next hsubm =>
      refine .follows e he (by rw [← hrow]) (by rw [← hrow]) (.inr (.inl ⟨?_, by rw [← hrow]⟩))
      simpa using hsubm
    · exact .follows e he (by rw [hrow]) (by rw [hrow]) (.inl (by rw [hrow]))
  | written call mem id₁ w writes heq =>
    rw [heq, readOperation_apply] at h
    obtain ⟨e, he, hrow⟩ := Option.map_eq_some_iff.mp h
    split at hrow
    · next hid =>
      have hid₁ : id₁ = id := hid.symm.trans (operationId_of_readOperation he)
      exact .follows e he (by rw [← hrow]) (by rw [← hrow])
        (.inr (.inr ⟨call, mem, w, hid₁ ▸ writes, by rw [← hrow]⟩))
    · exact .follows e he (by rw [hrow]) (by rw [hrow]) (.inl (by rw [hrow]))

/-! ## The calls after a step -/

lemma System.mem_goOn {c call : Call Adapter} (h : c ∈ (s.goOn i call).calls) :
    c = call ∨ c ∈ s.calls.eraseIdx i := by
  obtain ⟨j, hj⟩ := getElem?_of_mem h
  have hset : (s.calls.set i call)[j]? = some c := hj
  by_cases hij : i = j
  · rw [hij, getElem?_set_self'] at hset
    obtain ⟨-, -, rfl⟩ := Option.map_eq_some_iff.mp hset
    exact .inl rfl
  · rw [getElem?_set_ne hij] at hset
    exact .inr (mem_eraseIdx_iff_getElem?.mpr ⟨j, Ne.symm hij, hset⟩)

lemma System.mem_follow {c : Call Adapter} {next : Option (Call Adapter)}
    (h : c ∈ (s.follow i next).calls) : next = some c ∨ c ∈ s.calls.eraseIdx i := by
  cases next with
  | none => exact .inr h
  | some call => exact (mem_goOn h).imp_left fun heq => congrArg some heq.symm

lemma System.mem_attemptNext {c : Call Adapter} {rest : List String}
    (h : c ∈ (s.attemptNext i rest).calls) :
    (∃ id rest, c = .attempting id rest) ∨ c ∈ s.calls.eraseIdx i := by
  cases rest with
  | nil => exact .inr h
  | cons id rest => exact (mem_goOn h).imp_left fun hc => ⟨id, rest, hc⟩

/-- Where a call in flight after a step comes from. -/
inductive System.CallStep (s : System Adapter) (api : Api Adapter) (op : Op Adapter) (store : Store) :
    Call Adapter → Prop where
  | kept {c} (mem : c ∈ s.calls) : CallStep s api op store c
  | creating (id : String) {identity : Identity} (created : api.Creates identity) :
    CallStep s api op store (.creating id identity)
  | attempting (id : String) (rest : List String) : CallStep s api op store (.attempting id rest)
  | claiming (id : String) (adapter : Adapter) (evidence : Bool) (rest : List String) :
    CallStep s api op store (.claiming id adapter evidence rest)
  | submitting (id attemptId : String) (adapter : Adapter) (evidence : Bool) (rest : List String)
      (claim : s.store.claimOperationSubmission id attemptId = (true, store)) :
    CallStep s api op store (.submitting id adapter evidence rest)
  | answered (id : String) (adapter : Adapter) (evidence : Bool) (w : Write) (refreshes : Bool)
      (rest : List String) (mem : .submitting id adapter evidence rest ∈ s.calls) :
    CallStep s api op store (.answered id w refreshes rest)
  | refreshing (id : String) (w : Write) (rest : List String)
      (mem : .answered id w true rest ∈ s.calls) : CallStep s api op store (.refreshing id rest)
  | reconciling (entry : Entry) (row : s.store.readOperation entry.operationId = some entry) :
    CallStep s api op store (.reconciling entry)
  | resolving (event : Event) (targets : List Target) (ids : List String)
      (source : op = .evidence event ∨ ∃ c ∈ s.calls, c.isEvidence = true) :
    CallStep s api op store (.resolving event targets ids)
  | evidenced (event : Event) (targets : List Target) (ids : List String) (id : String) (w : Write)
      (source : ∃ c ∈ s.calls, c.isEvidence = true) (entry : Entry)
      (row : s.store.readOperation id = some entry) (verdict : entry.verdict event = some w) :
    CallStep s api op store (.evidenced event targets ids id w)

lemma System.CallStep.of_goOn {api : Api Adapter} {store : Store} {c call : Call Adapter}
    (h : c ∈ (s.goOn i call).calls) (hcall : s.CallStep api op store call) :
    s.CallStep api op store c := by
  rcases mem_goOn h with rfl | hold
  · exact hcall
  · exact .kept (mem_of_mem_eraseIdx hold)

/-- Every call after a step comes from one of these. -/
lemma step_calls (s : System Adapter) (op : Op Adapter) {c : Call Adapter}
    (h : c ∈ (step api s op).calls) : s.CallStep api op (step api s op).store c := by
  have hturn := step_turn api s op
  generalize step api s op = t at h hturn
  cases hturn with
  | begins hcall =>
    rcases of_mem_concat h with hold | rfl
    · exact .kept hold
    · cases hcall with
      | creating id created => exact .creating id created
      | attempting id rest => exact .attempting id rest
      | reconciling _ row =>
        exact .reconciling _ (operationId_of_readOperation row ▸ row)
      | resolving step => exact .resolving _ _ _ (.inl step)
  | ends => exact .kept (mem_of_mem_eraseIdx h)
  | moves here _ hmove =>
    have hmem := mem_of_getElem? here
    refine .of_goOn h ?_
    cases hmove with
    | attempting _ id rest => exact .attempting id rest
    | claiming _ id adapter evidence rest => exact .claiming id adapter evidence rest
    | found | passed => exact .resolving _ _ _ (.inr ⟨_, hmem, rfl⟩)
    | judged _ _ row verdict => exact .evidenced _ _ _ _ _ ⟨_, hmem, rfl⟩ _ row verdict
  | records | agrees => exact .of_goOn h (.attempting _ _)
  | claims _ _ claim => exact .of_goOn h (.submitting _ _ _ _ _ claim)
  | loses =>
    rcases mem_attemptNext h with ⟨id, rest, rfl⟩ | hold
    · exact .attempting id rest
    · exact .kept (mem_of_mem_eraseIdx hold)
  | submits _ here => exact .of_goOn h (.answered _ _ _ _ _ _ (mem_of_getElem? here))
  | writes here =>
    have hmem := mem_of_getElem? here
    rcases mem_follow h with hnext | hold
    · rcases Call.mem_written hnext with ⟨id, rest, rfl⟩ | ⟨id, w, rest, rfl, rfl⟩ |
        ⟨event, targets, ids, id, w, rfl, rfl⟩
      · exact .attempting id rest
      · exact .refreshing _ _ _ hmem
      · exact .resolving _ _ _ (.inr ⟨_, hmem, rfl⟩)
    · exact .kept (mem_of_mem_eraseIdx hold)
  | crashes => cases h
  | _ => exact .kept h

/-! ## Calls for an event -/

namespace System

variable {c call : Call Adapter}

lemma mem_goOn_of_ne (h : c ∈ s.calls) (hne : s.calls[i]? ≠ some c) :
    c ∈ (s.goOn i call).calls := by
  obtain ⟨j, hj⟩ := getElem?_of_mem h
  have hij : i ≠ j := fun heq => hne (heq ▸ hj)
  exact mem_of_getElem? ((getElem?_set_ne hij).trans hj)

lemma mem_endCall_of_ne (h : c ∈ s.calls) (hne : s.calls[i]? ≠ some c) :
    c ∈ (s.endCall i).calls := by
  obtain ⟨j, hj⟩ := getElem?_of_mem h
  have hij : j ≠ i := fun heq => hne (heq ▸ hj)
  exact mem_eraseIdx_iff_getElem?.mpr ⟨j, hij, hj⟩

end System

/-- A call for an event goes on until a step concerns it. -/
lemma step_evidence {c : Call Adapter} (hc : c ∈ s.calls) (hevid : c.isEvidence = true)
    (hop : ∀ i, s.calls[i]? = some c → op.concerns i = false) : c ∈ (step api s op).calls := by
  have hstays : ∀ {i : ℕ}, (s.calls[i]? = some c → op.concerns i = true) → s.calls[i]? ≠ some c := by
    intro i hconc heq
    have hfalse := hop i heq
    rw [hconc heq] at hfalse
    cases hfalse
  have hmine : ∀ {i : ℕ} {d : Call Adapter}, s.calls[i]? = some d →
      (d.isEvidence = true → op.concerns i = true) → s.calls[i]? ≠ some c := by
    intro i d hd hconc
    refine hstays fun heq => hconc ?_
    rw [Option.some.inj (hd.symm.trans heq), hevid]
  have hturn := step_turn api s op
  generalize step api s op = t at hturn
  cases hturn with
  | begins => exact mem_append_left _ hc
  | ends i mine => exact mem_endCall_of_ne hc (hstays fun heq => mine c heq hevid)
  | moves here mine => exact mem_goOn_of_ne hc (hmine here mine)
  | records here | agrees here | claims _ here | submits _ here =>
    exact mem_goOn_of_ne hc (hmine here nofun)
  | @loses i _ _ _ _ rest store _ here =>
    cases rest with
    | nil => exact mem_endCall_of_ne hc (hmine here nofun)
    | cons => exact mem_goOn_of_ne hc (hmine here nofun)
  | @writes i d _ _ here _ _ mine =>
    cases d.written with
    | none => exact mem_endCall_of_ne hc (hmine here mine)
    | some => exact mem_goOn_of_ne hc (hmine here mine)
  | crashes step =>
    obtain ⟨i, hi⟩ := getElem?_of_mem hc
    rw [step] at hop
    cases hop i hi
  | _ => exact hc

end Replicant.Managed
