import Replicant.Managed.Journal

/-!
# What a step does

The one case analysis over the steps of the journal: most move a call with what it has read, some
write the store. What a step keeps is proved from its turn.
-/

namespace Replicant.Managed

open Replicant.Managed.System

variable {Adapter : Type}

/-! ## Calls and their writes -/

/-- The call is `resolve_awaiting_evidence`. -/
def Call.isEvidence : Call Adapter → Bool
  | .resolving .. | .evidenced .. => true
  | _ => false

/-- The steps that may end a call for the events, or take it further. -/
def Op.concerns (i : ℕ) : Op Adapter → Bool
  | .fail j | .evidenceFind j | .evidenceRead j | .evidenceWrite j => j = i
  | .crash => true
  | _ => false

/-- The status a step is about to write, with the step's call and the operation. -/
def System.writes (s : System Adapter) : Op Adapter → Option (ℕ × String × OperationStatus)
  | .settle i =>
    match s.calls[i]? with
    | some (.answered id write _ _) => some (i, id, write.state)
    | _ => none
  | .refresh i true =>
    match s.calls[i]? with
    | some (.refreshing id _) => some (i, id, .completed)
    | _ => none
  | .reconcileWrite i refreshed answer =>
    match s.calls[i]? with
    | some (.reconciling entry) =>
      (entry.reconciliation refreshed answer).map fun w => (i, entry.operationId, w.state)
    | _ => none
  | .evidenceWrite i =>
    match s.calls[i]? with
    | some (.evidenced _ _ _ id write) => some (i, id, write.state)
    | _ => none
  | _ => none

/-- The call is at a point where it writes `w` to the operation. -/
inductive Call.Writes (id : String) (w : Write) : Call Adapter → Prop where
  | answered (refreshes : Bool) (rest : List String) : Writes id w (.answered id w refreshes rest)
  | refreshing (rest : List String) (write : w = ⟨.completed, none⟩) :
    Writes id w (.refreshing id rest)
  | reconciling {entry : Entry} (refreshed : Bool) (answer : Option Json)
      (operation : entry.operationId = id) (write : entry.reconciliation refreshed answer = some w) :
    Writes id w (.reconciling entry)
  | evidenced (event : Event) (targets : List Target) (ids : List String) :
    Writes id w (.evidenced event targets ids id w)

/-- How a call goes on after its write; one that has no operation left returns. -/
def Call.written : Call Adapter → Option (Call Adapter)
  | .answered id _ true rest => some (.refreshing id rest)
  | .answered _ _ false (id :: rest) | .refreshing _ (id :: rest) => some (.attempting id rest)
  | .evidenced event targets ids _ _ => some (.resolving event targets ids)
  | _ => none

lemma Call.mem_written {c call : Call Adapter} (h : c.written = some call) :
    (∃ id rest, call = .attempting id rest) ∨
      (∃ id w rest, c = .answered id w true rest ∧ call = .refreshing id rest) ∨
      ∃ event targets ids id w, c = .evidenced event targets ids id w ∧
        call = .resolving event targets ids := by
  unfold Call.written at h
  split at h <;> cases h
  · exact .inr (.inl ⟨_, _, _, rfl, rfl⟩)
  · exact .inl ⟨_, _, rfl⟩
  · exact .inl ⟨_, _, rfl⟩
  · exact .inr (.inr ⟨_, _, _, _, _, rfl, rfl⟩)

/-! ## Turns -/

namespace System

variable (s : System Adapter)

/-- Call `i` goes on, or returns. -/
def follow (i : ℕ) : Option (Call Adapter) → System Adapter
  | some call => s.goOn i call
  | none => s.endCall i

/-- The calls that a step may begin. -/
inductive Begins (api : Api Adapter) (op : Op Adapter) : Call Adapter → Prop where
  | creating (id : String) {identity : Identity} (created : api.Creates identity) :
    Begins api op (.creating id identity)
  | attempting (id : String) (rest : List String) : Begins api op (.attempting id rest)
  | reconciling {id : String} {entry : Entry} (step : op = .reconcile id)
      (row : s.store.readOperation id = some entry) : Begins api op (.reconciling entry)
  | resolving {event : Event} (step : op = .evidence event) :
    Begins api op (.resolving event event.targets [])

/-- How a call goes on with what it has read. -/
inductive Follows : Call Adapter → Call Adapter → Prop where
  | attempting (c : Call Adapter) (id : String) (rest : List String) : Follows c (.attempting id rest)
  | claiming (c : Call Adapter) (id : String) (adapter : Adapter) (evidence : Bool)
      (rest : List String) : Follows c (.claiming id adapter evidence rest)
  | found (event : Event) (target : Target) (targets : List Target) :
    Follows (.resolving event (target :: targets) [])
      (.resolving event targets (s.store.findOperationsAwaitingEvidence target))
  | passed (event : Event) (targets : List Target) (id : String) (ids : List String) :
    Follows (.resolving event targets (id :: ids)) (.resolving event targets ids)
  | judged {event : Event} (targets : List Target) {id : String} (ids : List String) {entry : Entry}
      {w : Write} (row : s.store.readOperation id = some entry)
      (verdict : entry.verdict event = some w) :
    Follows (.resolving event targets (id :: ids)) (.evidenced event targets ids id w)

/-- What a step may lead to. Only a step that concerns it moves a call for an event. -/
inductive Turn (api : Api Adapter) (op : Op Adapter) : System Adapter → Prop where
  | idle : Turn api op s
  | begins {call : Call Adapter} (h : s.Begins api op call) : Turn api op (s.begin call)
  | ends (i : ℕ) (mine : ∀ c, s.calls[i]? = some c → c.isEvidence = true → op.concerns i = true) :
    Turn api op (s.endCall i)
  | moves {i c call} (here : s.calls[i]? = some c)
      (mine : c.isEvidence = true → op.concerns i = true) (h : s.Follows c call) :
    Turn api op (s.goOn i call)
  | records {i id identity} (here : s.calls[i]? = some (.creating id identity))
      (absent : s.store.readOperation id = none) :
    Turn api op ((s.setStore { s.store with
      journal := s.store.journal.insert
        ⟨id, .prepared, identity.stored api.readBack, none, none, none⟩ }).proceed i id identity)
  | agrees {i id e} (here : s.calls[i]? = some (.creating id e.identity))
      (row : s.store.readOperation id = some e) : Turn api op (s.proceed i id e.identity)
  | claims {i attemptId id adapter evidence rest store} (step : op = .claim i attemptId)
      (here : s.calls[i]? = some (.claiming id adapter evidence rest))
      (claim : s.store.claimOperationSubmission id attemptId = (true, store)) :
    Turn api op ((s.setStore store).goOn i (.submitting id adapter evidence rest))
  | loses {i attemptId id adapter evidence rest store} (step : op = .claim i attemptId)
      (here : s.calls[i]? = some (.claiming id adapter evidence rest))
      (claim : s.store.claimOperationSubmission id attemptId = (false, store)) :
    Turn api op ((s.setStore store).attemptNext i rest)
  | submits {i id adapter evidence rest} (response : Response)
      (here : s.calls[i]? = some (.submitting id adapter evidence rest)) :
    Turn api op (s.submit api i response id adapter evidence rest)
  | writes {i c id w} (here : s.calls[i]? = some c) (h : c.Writes id w) (status : s.writes op = some (i, id, w.state))
      (mine : c.isEvidence = true → op.concerns i = true) :
    Turn api op ((s.setStore (s.store.apply id w)).follow i c.written)
  | promotes : Turn api op (s.setStore s.store.promoteCrashedSubmissions)
  | advances (cursor : String) (step : op = .advanceCursor cursor) :
    Turn api op (s.setStore { s.store with eventCursor := some cursor })
  | crashes (step : op = .crash) : Turn api op { s with calls := [] }

variable {s} {api : Api Adapter} {op : Op Adapter} {i : ℕ} {c : Call Adapter}

variable (here : s.calls[i]? = some c) (hc : c.isEvidence = false)

include here hc

lemma Turn.ends_of : s.Turn api op (s.endCall i) := by
  refine .ends i fun d hd hevid => ?_
  cases here.symm.trans hd
  rw [hc] at hevid
  cases hevid

lemma Turn.attemptNext (rest : List String) : s.Turn api op (s.attemptNext i rest) := by
  cases rest with
  | nil => exact .ends_of here hc
  | cons id rest => exact .moves here (by simp [hc]) (.attempting c id rest)

end System

lemma step_turn (api : Api Adapter) (s : System Adapter) (op : Op Adapter) :
    s.Turn api op (step api s op) := by
  cases op <;> simp only [step]
  case create id adapter =>
    split
    · next hidentity => exact .begins (.creating id ⟨adapter, hidentity⟩)
    · exact .idle
  case record i =>
    split
    · next id identity hc =>
      unfold record Store.recordOperationIfAbsent
      cases hrow : s.store.journal.find? id with
      | none => exact .records hc hrow
      | some e =>
        simp only
        split
        · next hsame =>
          subst hsame
          exact .agrees hc hrow
        · exact .ends_of hc rfl
    · exact .idle
  case read =>
    split
    · next hc =>
      unfold System.read
      split
      · exact .ends_of hc rfl
      · split
        · exact .attemptNext hc rfl _
        · split
          · exact .ends_of hc rfl
          · exact .moves hc nofun (.claiming _ _ _ _ _)
    · exact .idle
  case claim =>
    split
    · next hc =>
      unfold claim
      split
      · next hclaim => exact .claims rfl hc hclaim
      · next hclaim => exact .loses rfl hc hclaim
    · exact .idle
  case submit => split; exacts [.submits _ ‹_›, .idle]
  case settle i =>
    split
    · next id w refreshes rest hc =>
      have hturn : s.Turn api (.settle i) _ :=
        .writes hc (.answered _ _) (by simp only [writes, hc]) nofun
      cases refreshes with
      | true => exact hturn
      | false => cases rest <;> exact hturn
    · exact .idle
  case refresh i ok =>
    split
    · next id rest hc =>
      cases ok with
      | true =>
        have hturn : s.Turn api (.refresh i true) _ :=
          .writes hc (.refreshing _ rfl) (by simp only [writes, hc]) nofun
        cases rest <;> exact hturn
      | false => exact .attemptNext hc rfl _
    · exact .idle
  case promote => exact .promotes
  case recover =>
    simp only [recover]
    split
    · exact .idle
    · exact .begins (.attempting _ _)
  case reconcile =>
    unfold reconcile
    split
    · exact .idle
    · next he => exact .begins (.reconciling rfl he)
  case reconcileWrite =>
    split
    · next hc =>
      unfold reconcileWrite
      split
      · exact .ends_of hc rfl
      · next hw =>
        refine .writes hc (.reconciling _ _ rfl hw) ?_ nofun
        simp only [writes, hc, hw, Option.map_some]
    · exact .idle
  case evidence => exact .begins (.resolving rfl)
  case evidenceFind i =>
    split
    · next targets hc =>
      cases targets with
      | nil => exact .ends i fun _ _ _ => by simp [Op.concerns]
      | cons target targets => exact .moves hc (by simp [Op.concerns]) (.found _ _ _)
    · exact .idle
  case evidenceRead =>
    split
    · next hc =>
      unfold evidenceRead
      split
      · exact .moves hc (by simp [Op.concerns]) (.passed _ _ _ _)
      · next hverdict =>
        obtain ⟨e, he, hw⟩ := Option.bind_eq_some_iff.mp hverdict
        exact .moves hc (by simp [Op.concerns]) (.judged _ _ he hw)
    · exact .idle
  case evidenceWrite =>
    split
    · next hc =>
      exact .writes hc (.evidenced _ _ _) (by simp only [writes, hc]) (by simp [Op.concerns])
    · exact .idle
  case advanceCursor => exact .advances _ rfl
  case fail => exact .ends _ fun _ _ _ => by simp [Op.concerns]
  case crash => exact .crashes rfl

end Replicant.Managed
