import Replicant.Managed.Evidence
import Replicant.Managed.LifecycleTheorems

/-!
# Evidence is kept

An event is looked at once, right after its commit, and then only for operations that already
await evidence. So it is kept if the submissions it is evidence for are settled by then, and if
the look is not interrupted.
-/

namespace Replicant.Managed

open Lib List Option Store Entry Call Applier

variable {id : String}

variable {Adapter : Type} {s t : Applier Adapter} (api : Api Adapter) {u : System Adapter}
  {e e' : Entry} {w : Write}

/-! ## Verdicts -/

namespace Entry

variable {event : Event}

lemma matchesNamedEvidence_eq (e : Entry) (event : Event) (key : String) :
    e.matchesNamedEvidence event key =
      (e.submissionCursor.any (fun c => !decide (event.id ≤ c)) && e.plans event key) := by
  unfold matchesNamedEvidence plans
  cases e.submissionCursor with
  | none => rfl
  | some c =>
    simp only [any_some]
    by_cases hid : event.id ≤ c
    · simp [hid]
    · simp only [hid, if_false, decide_false, Bool.not_false, Bool.true_and]
      cases (((e.intent.get "evidence").getD .null).get key).bind Json.asArray with
      | none => rfl
      | some =>
        simp only [any_some]
        split
        · next hnamed => rw [hnamed, Bool.true_and]
        · next hnamed => rw [Bool.eq_false_iff.mpr hnamed, Bool.false_and]

/-- An event that proves something, and is newer also as text, has a verdict. -/
lemma ProvenBy.verdict (h : e.ProvenBy event) (htext : ∀ c ∈ e.submissionCursor, ¬ event.id ≤ c) :
    ∃ w, e.verdict event = some w ∧ w.state = e.proof event := by
  obtain ⟨-, ⟨c, hc, -⟩, hplans⟩ := h
  have hnewer : e.submissionCursor.any (fun c => !decide (event.id ≤ c)) = true := by
    rw [show e.submissionCursor = some c from hc]
    simp [htext c hc]
  unfold Entry.verdict Entry.proof
  rw [matchesNamedEvidence_eq, matchesNamedEvidence_eq, hnewer, Bool.true_and, Bool.true_and]
  by_cases hgood : e.plans event "event_names" = true
  · rw [if_pos hgood, if_pos hgood]
    exact ⟨_, rfl, rfl⟩
  · rw [if_neg hgood, if_neg hgood, if_pos (hplans.resolve_left hgood)]
    exact ⟨_, rfl, rfl⟩

lemma ProvenBy.congr (h : e'.ProvenBy event) (hident : e'.identity = e.identity)
    (hcursor : e'.submissionCursor = e.submissionCursor) : e.ProvenBy event := by
  unfold Entry.ProvenBy plans intent at h ⊢
  rw [hident, hcursor] at h
  exact h

end Entry

/-- A row that was claimed keeps its identity and its cursor. -/
lemma step_row_of_claimed (hinv : Inv u) (op : Op Adapter) (he : u.store.readOperation id = some e)
    (hclaimed : e.state ≠ .prepared) :
    ∃ e', (step api u op).store.readOperation id = some e' ∧ e'.identity = e.identity ∧
      e'.submissionCursor = e.submissionCursor ∧
      (e'.state = e.state ∨ (e.state = .submitted ∧ e'.state = .ambiguous) ∨
        ∃ c ∈ u.calls, ∃ w : Write, c.Writes id w ∧ e'.state = w.state) := by
  obtain ⟨e', he', -, -⟩ := step_keeps api hinv op id e he
  cases step_row api u op he' with
  | fresh absent =>
    rw [he] at absent
    cases absent
  | claimed e₁ row before =>
    obtain rfl : e = e₁ := some.inj (he.symm.trans row)
    exact absurd before hclaimed
  | follows e₁ row identity cursor status =>
    obtain rfl : e = e₁ := some.inj (he.symm.trans row)
    exact ⟨e', he', identity, cursor, status⟩

/-! ## The invariant -/

/-- What the call is about to write is the verdict of the row as it is. -/
def Call.Read (store : Store) : Call Adapter → Prop
  | .evidenced event _ _ id w =>
    ∃ e, store.readOperation id = some e ∧ e.verdict event = some w
  | _ => True

structure Kept (s : Applier Adapter) : Prop where
  passed : ∀ event ∈ s.committed, ∃ c, s.system.store.eventCursor = some c ∧ UpTo event.id c
  decided : ∀ event ∈ s.committed, ∀ id e, s.system.store.readOperation id = some e →
    e.ProvenBy event → ¬ s.system.Undecided e ∧ ∀ c ∈ e.submissionCursor, ¬ event.id ≤ c
  pending : ∀ event ∈ s.committed, ∀ id e, s.system.store.readOperation id = some e →
    e.ProvenBy event → e.state = .awaitingEvidence →
    ∃ c ∈ s.system.calls, c.examines e = some event
  read : ∀ c ∈ s.system.calls, c.Read s.system.store
  unclaimed : ∀ id e, s.system.store.readOperation id = some e → e.state = .prepared →
    e.submissionCursor = none

lemma Kept.init : Kept (Applier.init : Applier Adapter) where
  passed := by simp [Applier.init]
  decided := by simp [Applier.init]
  pending := by simp [Applier.init]
  read := by simp [Applier.init, System.init]
  unclaimed := by
    simp [Applier.init, System.init, Store.empty, Store.readOperation, Table.empty, Table.find?]

variable {store : Store} {status : OperationStatus} {c : Call Adapter} {i : ℕ}

/-- What a call writes: the outcome of an attempt, or a status of its own. -/
lemma Call.Writes.cases {w : Write} (h : c.Writes id w) (hread : c.Read store) :
    c.attempts id = true ∨ w.state = .completed ∨ w.state = .failed ∨
      w.state = .reconciliationRequired := by
  cases h with
  | answered => exact .inl (by simp [attempts])
  | refreshing rest write => exact .inr (.inl (by rw [write]))
  | reconciling refreshed answer _ write =>
    rcases reconciliation_state write with hw | hw
    · exact .inr (.inl hw)
    · exact .inr (.inr (.inr hw))
  | evidenced =>
    obtain ⟨e, -, hverdict⟩ := hread
    rcases verdict_state hverdict with hw | hw
    · exact .inr (.inl hw)
    · exact .inr (.inr (.inl hw))

/-! ## The look at an operation -/

section Look

variable {u : System Adapter} {event event' : Event} {targets : List Target} {ids : List String}

lemma Call.examines_resolving :
    (Call.resolving event' targets ids : Call Adapter).examines e = some event ↔
      (e.identity.target ∈ targets ∨ e.operationId ∈ ids) ∧ event' = event := by
  simp [examines]

lemma Call.examines_evidenced :
    (Call.evidenced event' targets ids id w : Call Adapter).examines e = some event ↔
      (e.identity.target ∈ targets ∨ e.operationId ∈ id :: ids) ∧ event' = event := by
  simp [examines]

section

variable (hi : u.calls[i]? = some c)

include hi

/-- The call is where it was. -/
lemma System.getElem?_goOn {call : Call Adapter} : (u.goOn i call).calls[i]? = some call := by
  have hlt : i < u.calls.length := (List.getElem?_eq_some_iff.mp hi).1
  exact getElem?_set_self hlt

lemma System.mem_goOn_self {call : Call Adapter} : call ∈ (u.goOn i call).calls :=
  mem_of_getElem? (System.getElem?_goOn hi)

variable (hexam : c.examines e = some event)

include hexam

/-- A waiting operation of the target is found. -/
lemma look_find (he : u.store.readOperation id = some e) (hwaits : e.state = .awaitingEvidence) :
    ∃ c' ∈ (step api u (.evidenceFind i)).calls, c'.examines e = some event := by
  have hid : e.operationId = id := operationId_of_readOperation he
  cases c <;> simp only [step, hi]
  case resolving event' targets ids =>
    obtain ⟨hlook, hevent⟩ := examines_resolving.mp hexam
    cases ids with
    | cons => exact ⟨_, mem_of_getElem? hi, hexam⟩
    | nil =>
      cases targets with
      | nil => simp at hlook
      | cons target =>
        refine ⟨_, System.mem_goOn_self hi, examines_resolving.mpr ⟨?_, hevent⟩⟩
        rcases hlook with htgt | hnone
        · rcases mem_cons.mp htgt with htgt | htgt
          · have hfound : id ∈ u.store.findOperationsAwaitingEvidence target :=
              mem_findOperationsAwaitingEvidence.mpr ⟨e, he, hwaits, htgt⟩
            exact .inr (hid ▸ hfound)
          · exact .inl htgt
        · cases hnone
  case evidenced => exact ⟨_, mem_of_getElem? hi, hexam⟩
  all_goals cases hexam

/-- An operation that is read has a verdict, and is kept to be written. -/
lemma look_read (he : u.store.readOperation id = some e)
    (hverdict : ∃ w, e.verdict event = some w) :
    ∃ c' ∈ (step api u (.evidenceRead i)).calls, c'.examines e = some event := by
  have hid : e.operationId = id := operationId_of_readOperation he
  cases c <;> simp only [step, hi]
  case resolving event' targets ids =>
    obtain ⟨hlook, rfl⟩ := examines_resolving.mp hexam
    cases ids with
    | nil => exact ⟨_, mem_of_getElem? hi, hexam⟩
    | cons =>
      simp only [System.evidenceRead]
      split
      · next hnone =>
        refine ⟨_, System.mem_goOn_self hi, examines_resolving.mpr ⟨?_, rfl⟩⟩
        rcases hlook with htgt | hmem
        · exact .inl htgt
        · rcases mem_cons.mp hmem with heq | hmem
          · obtain ⟨w, hw⟩ := hverdict
            rw [← heq, hid, he, bind_some, hw] at hnone
            cases hnone
          · exact .inr hmem
      · exact ⟨_, System.mem_goOn_self hi, examines_evidenced.mpr ⟨hlook, rfl⟩⟩
  case evidenced => exact ⟨_, mem_of_getElem? hi, hexam⟩
  all_goals cases hexam

/-- The write for another operation goes on to the rest. -/
lemma look_write
    (hother : ∀ event' targets ids w, c ≠ .evidenced event' targets ids e.operationId w) :
    ∃ c' ∈ (step api u (.evidenceWrite i)).calls, c'.examines e = some event := by
  cases c <;> simp only [step, hi]
  case resolving => exact ⟨_, mem_of_getElem? hi, hexam⟩
  case evidenced event' targets ids id₁ w =>
    obtain ⟨hlook, hevent⟩ := examines_evidenced.mp hexam
    refine ⟨.resolving event' targets ids, System.mem_goOn_self hi,
      examines_resolving.mpr ⟨?_, hevent⟩⟩
    rcases hlook with htgt | hmem
    · exact .inl htgt
    · rcases mem_cons.mp hmem with heq | hmem
      · exact absurd (heq ▸ rfl) (hother event' targets ids w)
      · exact .inr hmem
  all_goals cases hexam

end

end Look

namespace Kept

variable {event : Event}

/-- An operation claimed at the cursor is not proven by what was committed before. -/
lemma not_provenBy (h : Kept s) (hevent : event ∈ s.committed)
    (hcursor : e.submissionCursor = s.system.store.eventCursor) : ¬ e.ProvenBy event := by
  rintro ⟨-, ⟨c, hc, hafter⟩, -⟩
  obtain ⟨c', hc', hupTo⟩ := h.passed event hevent
  rw [mem_def, hcursor, hc'] at hc
  rw [← some.inj hc] at hafter
  exact hupTo.not_after hafter

variable {op : Op Adapter}

lemma step_eventCursor (u : System Adapter) (hop : op.isApplier = false) :
    (step api u op).store.eventCursor = u.store.eventCursor := by
  have hstep := step_store api u op
  cases hstep with
  | same heq | recorded id identity absent heq => rw [heq]
  | claimed i id attemptId _ heq | promoted heq => rw [heq]; rfl
  | written call mem id w writes heq =>
    rw [heq]
    unfold Store.apply
    split <;> rfl
  | cursor c hcursor =>
    rw [hcursor] at hop
    cases hop

/-- A claim that is won leaves the cursor of the store on the row. -/
lemma claimed_cursor {store' : Store} {attemptId : String} {e' : Entry}
    (h : store.claimOperationSubmission id attemptId = (true, store'))
    (he' : store'.readOperation id = some e') : e'.submissionCursor = store.eventCursor := by
  obtain ⟨⟨e, he, hprep⟩, -⟩ := (claimOperationSubmission_spec h).2 rfl
  obtain rfl : _ = store' := congrArg Prod.snd h
  have hclaim : (decide (e.operationId = id) && decide (e.state = .prepared)) = true := by
    simp [operationId_of_readOperation he, hprep]
  unfold claimOperationSubmission at he'
  rw [readOperation_update, he, map_some, if_pos hclaim] at he'
  rw [← some.inj he']

section

variable (h : Kept s)

include h

section Proven

variable {event : Event} (hevent : event ∈ s.committed)
  (he' : (step api s.system op).store.readOperation id = some e') (hproven : e'.ProvenBy event)

include hevent he' hproven

/-- The row of a proven operation was there before the step, and proven. -/
lemma row : ∃ e, s.system.store.readOperation id = some e ∧ e'.identity = e.identity ∧
      e'.submissionCursor = e.submissionCursor ∧ e.ProvenBy event ∧
      (e'.state = e.state ∨ e'.state = .completed ∨ e'.state = .failed ∨
        e'.state = .reconciliationRequired) := by
  cases step_row api s.system op he' with
  | fresh _ cursor =>
    obtain ⟨-, ⟨c, hc, -⟩, -⟩ := hproven
    rw [mem_def, cursor] at hc
    cases hc
  | claimed e row before state cursor => exact absurd hproven (h.not_provenBy hevent cursor)
  | follows e row identity cursor status =>
    have hbefore := hproven.congr identity cursor
    have hdec := (h.decided event hevent id e row hbefore).1
    refine ⟨e, row, identity, cursor, hbefore, ?_⟩
    rcases status with hsame | ⟨hsubm, -⟩ | ⟨c, hc, w, hwrites, hstate⟩
    · exact .inl hsame
    · exact absurd (.inl hsubm) hdec
    · rcases hwrites.cases (h.read c hc) with hatts | hw
      · -- an attempt under way would leave the operation undecided
        rw [← operationId_of_readOperation row] at hatts
        exact absurd (.inr (.inr ⟨c, hc, hatts⟩)) hdec
      · rw [hstate]
        exact .inr hw

/-- No step of a call makes a proven operation undecided. -/
lemma decided_step :
    ¬ (step api s.system op).Undecided e' ∧ ∀ c ∈ e'.submissionCursor, ¬ event.id ≤ c := by
  obtain ⟨e, he, hident, hcursor, hbefore, hstate⟩ := h.row api hevent he' hproven
  obtain ⟨hdec, htext⟩ := h.decided event hevent id e he hbefore
  have hid : e'.operationId = e.operationId := (operationId_of_readOperation he').trans
    (operationId_of_readOperation he).symm
  refine ⟨?_, hcursor ▸ htext⟩
  rintro (hsubm | hambiguous | ⟨c, hc, hatts⟩)
  · rw [hsubm] at hstate
    simp only [reduceCtorEq, or_false] at hstate
    exact hdec (.inl hstate.symm)
  · rw [hambiguous] at hstate
    simp only [reduceCtorEq, or_false] at hstate
    exact hdec (.inr (.inl hstate.symm))
  · rw [hid] at hatts
    cases step_calls api s.system op hc with
    | kept mem => exact hdec (.inr (.inr ⟨c, mem, hatts⟩))
    | submitting id₁ attemptId adapter evidence rest claim =>
      have hid₁ : id₁ = e.operationId := by simpa [attempts] using hatts
      rw [← operationId_of_readOperation he', hid, ← hid₁] at he'
      exact h.not_provenBy hevent (claimed_cursor claim he') hproven
    | answered id₁ adapter evidence w refreshes rest mem =>
      exact hdec (.inr (.inr ⟨_, mem, hatts⟩))
    | _ =>
      cases hatts

/-- The look a waiting operation is to get is taken further, not lost. -/
lemma pending_step (htimely : (Act.journal op).Timely s) (hawaits : e'.state = .awaitingEvidence) :
    ∃ c ∈ (step api s.system op).calls, c.examines e' = some event := by
  obtain ⟨e, he, hident, -, hbefore, hstate⟩ := h.row api hevent he' hproven
  have hwaits : e.state = .awaitingEvidence := by
    rw [hawaits] at hstate
    simp only [reduceCtorEq, or_false] at hstate
    exact hstate.symm
  have hid : e.operationId = id := operationId_of_readOperation he
  have hid' : e'.operationId = id := operationId_of_readOperation he'
  have hsame : ∀ c : Call Adapter, c.examines e' = c.examines e := by
    intro c
    cases c <;> simp only [examines, hident, hid, hid']
  obtain ⟨c, hc, hexam⟩ := h.pending event hevent id e he hbefore hwaits
  by_cases hop : ∀ i, s.system.calls[i]? = some c → op.concerns i = false
  · have hev : c.isEvidence = true := by cases c <;> first | rfl | cases hexam
    exact ⟨c, step_evidence api hc hev hop, (hsame c).trans hexam⟩
  · simp only [not_forall, Bool.not_eq_false] at hop
    obtain ⟨i, hi, hconc⟩ := hop
    have hlook : ¬ c.Spent s.system.store := fun hspent =>
      hspent e (Table.find?_eq_some.mp he).1 hwaits event hexam hbefore
    cases op <;> simp only [Op.concerns, decide_eq_true_eq, Bool.false_eq_true] at hconc
    case crash => exact absurd (htimely c hc) hlook
    case fail j =>
      subst hconc
      exact absurd (htimely c hi) hlook
    case evidenceFind j =>
      subst hconc
      simp only [hsame]
      exact look_find api hi hexam he hwaits
    case evidenceRead j =>
      subst hconc
      obtain ⟨w, hw, -⟩ := hbefore.verdict (h.decided event hevent id e he hbefore).2
      simp only [hsame]
      exact look_read api hi hexam he ⟨w, hw⟩
    case evidenceWrite j =>
      subst hconc
      simp only [hsame]
      refine look_write api hi hexam fun event' targets ids w hcall => ?_
      -- the write would have settled the operation
      subst hcall
      obtain ⟨e₁, -, hverdict⟩ := h.read _ hc
      have hwrit : (step api s.system (.evidenceWrite j)).store =
          s.system.store.apply e.operationId w := by
        simp only [step, hi]
        rfl
      obtain ⟨e₂, he₂, hstate₂, -⟩ := readOperation_apply_self he
      rw [hwrit, hid, he₂] at he'
      rw [← some.inj he', hstate₂] at hawaits
      rcases verdict_state hverdict with hw | hw <;> rw [hw] at hawaits <;> cases hawaits

end Proven

/-- A verdict that was read stays the verdict. -/
lemma read_step (hinv : Inv s.system) {w : Write} (he : s.system.store.readOperation id = some e)
    (hverdict : e.verdict event = some w) :
    ∃ e', (step api s.system op).store.readOperation id = some e' ∧ e'.verdict event = some w := by
  have hclaimed : e.state ≠ .prepared := by
    intro hprep
    have hcursor := h.unclaimed id e he hprep
    simp [verdict, matchesNamedEvidence, hcursor] at hverdict
  obtain ⟨e', he', hident, hcursor, -⟩ := step_row_of_claimed api hinv op he hclaimed
  refine ⟨e', he', ?_⟩
  unfold verdict matchesNamedEvidence intent at hverdict ⊢
  rw [hident, hcursor]
  exact hverdict

lemma unclaimed_step (hinv : Inv s.system) {e' : Entry}
    (he' : (step api s.system op).store.readOperation id = some e')
    (hprep : e'.state = .prepared) : e'.submissionCursor = none := by
  cases step_row api s.system op he' with
  | fresh _ cursor => exact cursor
  | claimed _ _ _ state =>
    rw [state] at hprep
    cases hprep
  | follows e row _ cursor status =>
    rw [cursor]
    rcases status with hsame | ⟨-, hambiguous⟩ | ⟨c, hc, w, hwrites, hstate⟩
    · exact h.unclaimed id e row (hsame ▸ hprep)
    · rw [hambiguous] at hprep
      cases hprep
    · exact absurd (hstate ▸ hprep) (hwrites.state_ne (hinv.writes c hc))

lemma journal (hinv : Inv s.system) (hop : op.isApplier = false)
    (htimely : (Act.journal op).Timely s) : Kept { s with system := step api s.system op } where
  passed event hevent := by
    obtain ⟨c, hc, hupTo⟩ := h.passed event hevent
    exact ⟨c, (step_eventCursor api s.system hop).trans hc, hupTo⟩
  decided event hevent id e' he' hproven := h.decided_step api hevent he' hproven
  pending event hevent id e' he' hproven hawaits :=
    h.pending_step api hevent he' hproven htimely hawaits
  read c hc := by
    cases step_calls api s.system op hc with
    | kept mem =>
      cases c with
      | evidenced =>
        obtain ⟨e, he, hverdict⟩ := h.read _ mem
        exact h.read_step api hinv he hverdict
      | _ => trivial
    | evidenced event targets ids id w source entry row verdict =>
      exact h.read_step api hinv row verdict
    | _ => trivial
  unclaimed id e' he' hprep := h.unclaimed_step api hinv he' hprep

/-- The commit of an event begins the look at everything it is evidence for. -/
lemma apply (htimely : (Act.apply event : Act Adapter).Timely s) : Kept (s.apply api event) := by
  unfold Applier.apply
  split
  · next cursor hnew hadvance =>
    obtain rfl : event.id = cursor := by
      rw [advanceEventCursor_of_new hnew] at hadvance
      exact some.inj (Except.ok.inj hadvance)
    have hsame : ∀ {e : Entry}, (step api (step api s.system (.advanceCursor event.id))
        (.evidence event)).Undecided e → s.system.Undecided e := by
      rintro e (hstate | hstate | ⟨c, hc, hatts⟩)
      · exact .inl hstate
      · exact .inr (.inl hstate)
      · rcases of_mem_concat hc with hold | rfl
        · exact .inr (.inr ⟨c, hold, hatts⟩)
        · cases hatts
    constructor
    · refine forall_mem_concat (fun event' hold => ?_) ⟨event.id, rfl, UpTo.refl _⟩
      obtain ⟨c, hc, hupTo⟩ := h.passed event' hold
      rw [hc] at hnew
      exact ⟨event.id, rfl, hupTo.of_after (after_of_hasEvent hnew)⟩
    · intro event' hevent' id e he hproven
      rcases of_mem_concat hevent' with hold | rfl
      · obtain ⟨hdec, htext⟩ := h.decided event' hold id e he hproven
        exact ⟨fun hundecided => hdec (hsame hundecided), htext⟩
      · obtain ⟨hdec, htext⟩ := htimely e (Table.find?_eq_some.mp he).1 hproven
        exact ⟨fun hundecided => hdec (hsame hundecided), htext⟩
    · intro event' hevent' id e he hproven hawaits
      rcases of_mem_concat hevent' with hold | rfl
      · obtain ⟨c, hc, hexam⟩ := h.pending event' hold id e he hproven hawaits
        exact ⟨c, mem_append_left _ hc, hexam⟩
      · exact ⟨_, mem_append_right _ (mem_singleton.mpr rfl),
          examines_resolving.mpr ⟨.inl hproven.1, rfl⟩⟩
    · exact forall_mem_concat h.read trivial
    · exact h.unclaimed
  · exact h

lemma step (hinv : Inv s.system) {act : Act Adapter} (htimely : act.Timely s) :
    Kept (s.step api act) := by
  cases act with
  | journal =>
    simp only [Applier.step]
    split
    · exact h
    · next hop => exact h.journal api hinv (Bool.eq_false_iff.mpr hop) htimely
  | apply => exact h.apply api htimely

end

end Kept

lemma Applier.step_inv (h : Inv s.system) (act : Act Adapter) : Inv (s.step api act).system := by
  cases act with
  | journal op =>
    simp only [step]
    split
    · exact h
    · exact Managed.step_inv api h op
  | apply event =>
    simp only [step, apply]
    split
    · exact Managed.step_inv api (Managed.step_inv api h (.advanceCursor _)) (.evidence event)
    · exact h

/-! ## Progress -/

lemma System.Resolves.step {api : Api Adapter} (op : Op Adapter) (hop : op.isApplier = false)
    (h : (Managed.step api u op).Resolves api id status) : u.Resolves api id status := by
  obtain ⟨ops, hops, hend⟩ := h
  exact ⟨op :: ops, forall_mem_cons.mpr ⟨hop, hops⟩, hend⟩

section Progress

variable {u : System Adapter} {event : Event} (api : Api Adapter)

/-- A call for the event that has read the operation writes its verdict. -/
lemma resolves_of_evidenced {targets : List Target} {ids : List String}
    (hi : u.calls[i]? = some (.evidenced event targets ids id w))
    (he : u.store.readOperation id = some e) : u.Resolves api id w.state := by
  obtain ⟨e', he', hstate, -⟩ := readOperation_apply_self he
  refine ⟨[.evidenceWrite i], by simp [Op.isApplier], e', ?_, hstate⟩
  simp only [foldl_cons, foldl_nil, step, hi]
  exact he'

/-- A call for the event gets to an operation it has found: the operations before it are read,
and written if they have a verdict, without a change to this one. -/
lemma resolves_of_found (hverdict : e.verdict event = some w) (targets : List Target)
    (ids : List String) (u : System Adapter)
    (hi : u.calls[i]? = some (.resolving event targets ids))
    (he : u.store.readOperation id = some e)
    (hlater : ∀ u : System Adapter, u.calls[i]? = some (.resolving event targets []) →
      u.store.readOperation id = some e → id ∉ ids → u.Resolves api id w.state) :
    u.Resolves api id w.state := by
  induction ids generalizing u with
  | nil => exact hlater u hi he (by simp)
  | cons id₁ ids ih =>
    refine System.Resolves.step (.evidenceRead i) rfl ?_
    simp only [step, hi]
    unfold System.evidenceRead
    by_cases hid : id₁ = id
    · rw [hid, he, bind_some, hverdict]
      exact resolves_of_evidenced api (System.getElem?_goOn hi) he
    · have hrest : ∀ u : System Adapter, u.calls[i]? = some (.resolving event targets []) →
          u.store.readOperation id = some e → id ∉ ids → u.Resolves api id w.state := by
        intro u hi he hmem
        exact hlater u hi he (by simp [Ne.symm hid, hmem])
      split
      · exact ih _ (System.getElem?_goOn hi) he hrest
      · next w₁ _ =>
        refine System.Resolves.step (.evidenceWrite i) rfl ?_
        have hset : (u.goOn i (.evidenced event targets ids id₁ w₁)).calls[i]? = _ :=
          System.getElem?_goOn hi
        simp only [step, hset]
        exact ih _ (System.getElem?_goOn hset)
          ((readOperation_apply_of_ne (Ne.symm hid)).trans he) hrest

/-- A call for the event gets to a waiting operation of a target still to be looked for. -/
lemma resolves_of_target (hverdict : e.verdict event = some w)
    (hwaits : e.state = .awaitingEvidence) (targets : List Target) (u : System Adapter)
    (hi : u.calls[i]? = some (.resolving event targets [])) (he : u.store.readOperation id = some e)
    (htgt : e.identity.target ∈ targets) : u.Resolves api id w.state := by
  induction targets generalizing u with
  | nil => cases htgt
  | cons target targets ih =>
    refine System.Resolves.step (.evidenceFind i) rfl ?_
    simp only [step, hi]
    refine resolves_of_found api hverdict targets (u.store.findOperationsAwaitingEvidence target) _
      (System.getElem?_goOn hi) he fun u₁ hi₁ he₁ hnotFound => ?_
    rcases mem_cons.mp htgt with hthis | hlater
    · exact absurd (mem_findOperationsAwaitingEvidence.mpr ⟨e, he, hwaits, hthis⟩) hnotFound
    · exact ih u₁ hi₁ he₁ hlater

lemma resolves_of_examines (hi : u.calls[i]? = some c) (he : u.store.readOperation id = some e)
    (hwaits : e.state = .awaitingEvidence) (hverdict : e.verdict event = some w)
    (hread : c.Read u.store) (hexam : c.examines e = some event) : u.Resolves api id w.state := by
  have hid : e.operationId = id := operationId_of_readOperation he
  cases c with
  | resolving event' targets ids =>
    obtain ⟨hlook, rfl⟩ := examines_resolving.mp hexam
    refine resolves_of_found api hverdict targets ids u hi he fun u₁ hi₁ he₁ hnotFound => ?_
    rw [hid] at hlook
    exact resolves_of_target api hverdict hwaits targets u₁ hi₁ he₁ (hlook.resolve_right hnotFound)
  | evidenced event' targets ids id₁ w₁ =>
    obtain ⟨hlook, rfl⟩ := examines_evidenced.mp hexam
    by_cases hid₁ : id₁ = id
    · obtain ⟨e₁, he₁, hverdict₁⟩ := hread
      rw [hid₁, he] at he₁
      rw [← some.inj he₁, hverdict] at hverdict₁
      rw [some.inj hverdict₁]
      exact resolves_of_evidenced api (hid₁ ▸ hi) he
    · refine System.Resolves.step (.evidenceWrite i) rfl ?_
      simp only [step, hi]
      refine resolves_of_found api hverdict targets ids _ (System.getElem?_goOn hi)
        ((readOperation_apply_of_ne (Ne.symm hid₁)).trans he) fun u₁ hi₁ he₁ hnotFound => ?_
      rw [hid, mem_cons] at hlook
      have htgt : e.identity.target ∈ targets := by
        rcases hlook with htgt | heq | hfound
        · exact htgt
        · exact absurd heq.symm hid₁
        · exact absurd hfound hnotFound
      exact resolves_of_target api hverdict hwaits targets u₁ hi₁ he₁ htgt
  | _ => cases hexam

end Progress

lemma Kept.evidenceKept (h : Kept s) : s.EvidenceKept api := by
  intro event hevent id e he hproven hstate
  obtain ⟨hdec, htext⟩ := h.decided event hevent id e he hproven
  have hwaits : e.state = .awaitingEvidence :=
    hstate.resolve_right fun hambiguous => hdec (.inr (.inl hambiguous))
  obtain ⟨w, hverdict, hproof⟩ := hproven.verdict htext
  obtain ⟨c, hc, hexam⟩ := h.pending event hevent id e he hproven hwaits
  obtain ⟨i, hi⟩ := getElem?_of_mem hc
  rw [← hproof]
  exact resolves_of_examines api hi he hwaits hverdict (h.read c hc) hexam

/-- In every run whose events are committed when the submissions they are evidence for are
settled, and whose looks are not interrupted: an operation that still waits though its evidence
was committed is resolved by steps that are already under way. -/
theorem run_evidenceKept (api : Api Adapter) (acts : List (Act Adapter))
    (h : AllSteps (Applier.step api) (fun s act => act.Timely s) Applier.init acts) :
    (Applier.run api acts).EvidenceKept api := by
  have hkept : Inv (Applier.run api acts).system ∧ Kept (Applier.run api acts) :=
    h.foldl (P := fun s => Inv s.system ∧ Kept s) ⟨Inv.init, Kept.init⟩ fun t act ht hact =>
      ⟨Applier.step_inv api ht.1 act, ht.2.step api ht.1 hact⟩
  exact hkept.2.evidenceKept api

/-! ## Evidence that comes too early -/

/-- Nothing under way will resolve the operation: it is past its attempt, no call for an event is
in flight, and who reconciles it has loaded it as it is. -/
structure Idle (identity : Identity) (id : String) (u : System Adapter) : Prop where
  row : ∃ e, u.store.readOperation id = some e ∧ e.identity = identity ∧
    (e.state = .awaitingEvidence ∨ e.state = .reconciliationRequired)
  attempts : ∀ c ∈ u.calls, c.attempts id = false ∧ ∀ rest, c ≠ .refreshing id rest
  evidence : ∀ c ∈ u.calls, c.isEvidence = false
  reconciling : ∀ entry, .reconciling entry ∈ u.calls → entry.operationId = id →
    entry.identity = identity

section

variable {identity : Identity} {u : System Adapter}
  (hshown : ∀ e : Entry, e.identity = identity → ∀ refreshed answer w,
    e.reconciliation refreshed answer = some w → w.state = .reconciliationRequired)

include hshown

variable (h : Idle identity id u) (hinv : Inv u)

include h hinv

lemma Idle.row_step (op : Op Adapter) :
    ∃ e, (step api u op).store.readOperation id = some e ∧ e.identity = identity ∧
      (e.state = .awaitingEvidence ∨ e.state = .reconciliationRequired) := by
  obtain ⟨e, he, hident, hstate⟩ := h.row
  have hprep : e.state ≠ .prepared := by rcases hstate with hs | hs <;> simp [hs]
  obtain ⟨e', he', hsame, -, status⟩ := step_row_of_claimed api hinv op he hprep
  refine ⟨e', he', hsame.trans hident, ?_⟩
  rcases status with hkept | ⟨hsubm, -⟩ | ⟨c, hc, w, hwrites, hw⟩
  · rw [hkept]
    exact hstate
  · rw [hsubm] at hstate
    simp at hstate
  · cases hwrites with
    | answered =>
      have hfree := (h.attempts _ hc).1
      simp [Call.attempts] at hfree
    | refreshing rest _ => exact absurd rfl ((h.attempts _ hc).2 rest)
    | reconciling refreshed answer operation write =>
      rw [hw]
      exact .inr (hshown _ (h.reconciling _ hc operation) _ _ _ write)
    | evidenced => cases h.evidence _ hc

lemma Idle.step {op : Op Adapter} (hop : op.isApplier = false) :
    Idle identity id (Managed.step api u op) := by
  obtain ⟨e, he, hident, hstate⟩ := h.row
  have hprep : e.state ≠ .prepared := by rcases hstate with hs | hs <;> simp [hs]
  refine ⟨h.row_step api hshown hinv op, fun c hc => ?_, fun c hc => ?_, fun entry hc hid => ?_⟩
  · cases step_calls api u op hc with
    | kept mem => exact h.attempts c mem
    | submitting id₁ attemptId adapter evidence rest claim =>
      obtain ⟨⟨e₁, he₁, hbefore⟩, -⟩ := (claimOperationSubmission_spec claim).2 rfl
      refine ⟨?_, by simp⟩
      simp only [Call.attempts, decide_eq_false_iff_not]
      intro hid
      rw [hid, he] at he₁
      exact hprep (some.inj he₁ ▸ hbefore)
    | answered id₁ adapter evidence w refreshes rest mem =>
      exact ⟨(h.attempts _ mem).1, by simp⟩
    | refreshing id₁ w rest mem =>
      refine ⟨rfl, fun rest' hcall => ?_⟩
      obtain ⟨rfl, -⟩ := refreshing.inj hcall
      have hfree := (h.attempts _ mem).1
      simp [Call.attempts] at hfree
    | _ =>
      exact ⟨rfl, by simp⟩
  · cases step_calls api u op hc with
    | kept mem => exact h.evidence c mem
    | resolving event targets ids source =>
      rcases source with hevid | ⟨d, hd, hev⟩
      · rw [hevid] at hop
        cases hop
      · rw [h.evidence d hd] at hev
        cases hev
    | evidenced event targets ids id w source =>
      obtain ⟨d, hd, hev⟩ := source
      rw [h.evidence d hd] at hev
      cases hev
    | _ => rfl
  · cases step_calls api u op hc with
    | kept mem => exact h.reconciling entry mem hid
    | reconciling _ row =>
      rw [hid, he] at row
      rw [← some.inj row]
      exact hident

lemma Idle.not_resolves (hterm : status.isTerminal = true) : ¬ u.Resolves api id status := by
  rintro ⟨ops, hops, e, he, hstat⟩
  have hidle : Inv (ops.foldl (Managed.step api) u) ∧
      Idle identity id (ops.foldl (Managed.step api) u) :=
    foldlRecOn ops (Managed.step api)
      (motive := fun u => Inv u ∧ Idle identity id u) ⟨hinv, h⟩ fun u hu op hop =>
      ⟨Managed.step_inv api hu.1 op, hu.2.step api hshown hu.1 (hops op hop)⟩
  obtain ⟨e', he', -, hstate⟩ := hidle.2.row
  obtain rfl : e = e' := some.inj (he.symm.trans he')
  rcases hstate with hs | hs <;> rw [← hstat, hs] at hterm <;> cases hterm

end

/-! ## Evidence in stream order -/

/-- An event that the plan lists is accepted exactly if it is newer than the submission, just when the
deciding numbers of the two identifiers are ordered like their texts. -/
theorem matchesNamedEvidence_iff_after {e : Entry} {event : Event} {x y : StreamId}
    {key cursor : String} (hid : event.id = x.text) (hcursor : e.submissionCursor = some cursor)
    (hy : cursor = y.text) (hplans : e.plans event key = true) :
    (e.matchesNamedEvidence event key = true ↔ After event.id cursor) ↔ x.SameOrder y := by
  rw [Entry.matchesNamedEvidence_eq, hcursor, hplans, hid, hy, ← StreamId.text_lt_iff_after_iff]
  simp

/-- What `create_with_id` records of the command. -/
def probeIdentity : Identity :=
  ⟨⟨some "live", some "device", some "D1"⟩, .object [
    ("evidence", .object [("event_names", .array [.string "probe.done"])]),
    ("expects_evidence", .bool true), ("kind", .string "device_command"),
    ("rate_limit_bucket", .string "device_command")]⟩

def probeEntry (cursor : String) : Entry :=
  ⟨"op", .awaitingEvidence, probeIdentity, none, some "a", some cursor⟩

/-- Identifiers of different widths may be in order. -/
theorem matchesNamedEvidence_iff_after_probe : (probeEntry "9-0").matchesNamedEvidence
    { probeDone with id := "95-0" } "event_names" = true ↔ After "95-0" "9-0" :=
  (matchesNamedEvidence_iff_after (x := ⟨95, 0, by decide, by decide⟩)
    (y := ⟨9, 0, by decide, by decide⟩) (by decide) rfl (by decide) (by decide)).mpr (by decide)

/-- With one digit more the newer identifier is the smaller text: the newer event is refused, and an
older one is accepted. -/
theorem newer_event_refused :
    After "10-0" "9-0" ∧ (probeEntry "9-0").plans { probeDone with id := "10-0" } "event_names" = true ∧
      (probeEntry "9-0").matchesNamedEvidence { probeDone with id := "10-0" } "event_names" = false ∧
      ¬ After "9-0" "10-0" ∧
      (probeEntry "10-0").matchesNamedEvidence { probeDone with id := "9-0" } "event_names" = true := by
  decide

section Traces

/-- An event before the submission, which gives it its cursor. -/
def probeBefore : Event where
  id := "1-0"
  realm := some .live
  name := "clock.tick"
  device := none
  replicant := none
  location := none
  payload := []

/-- The command is submitted and the server has answered. -/
def probeSubmitted : List (Act Unit) :=
  [.apply probeBefore, .journal (.evidenceFind 0), .journal (.create "op" ()),
    .journal (.record 0), .journal (.read 0), .journal (.claim 0 "a"),
    .journal (.submit 0 (.accepted .null))]

lemma probe_reconciliation (e : Entry) (h : e.identity = probeIdentity) (refreshed : Bool)
    (answer : Option Json) (w : Write) (hw : e.reconciliation refreshed answer = some w) :
    w.state = .reconciliationRequired := by
  have hkind : (e.intent.get "kind").bind Json.asStr = some "device_command" := by
    unfold intent
    rw [h]
    decide
  have hexpected : (e.intent.get "evidence").bind (Json.get "expected_state") = none := by
    unfold intent
    rw [h]
    decide
  have hshown : ∀ snapshot, e.shownBy snapshot = false := by
    intro snapshot
    simp [shownBy, hkind, hexpected]
  simp only [reconciliation, hkind] at hw
  split at hw
  · next hretrieve => simp at hretrieve
  · split at hw
    · cases hw
    · rw [← some.inj hw]
      show (if _ then _ else _) = OperationStatus.reconciliationRequired
      cases e.snapshot answer <;> simp [hshown]

/-- With no call left, a command that awaits its committed event waits for good. -/
lemma probe_stuck {s : Applier Unit} (hinv : Inv s.system) (hevent : probeDone ∈ s.committed)
    (hcalls : s.system.calls.length = 0)
    (hrow : (s.system.store.readOperation "op").any (fun e => decide (e.identity = probeIdentity ∧
      e.state = .awaitingEvidence ∧ e.ProvenBy probeDone ∧ e.proof probeDone = .completed)) = true) :
    ¬ s.EvidenceKept probeApi := by
  cases he : s.system.store.readOperation "op" with
  | none =>
    rw [he] at hrow
    cases hrow
  | some e =>
    rw [he, any_some] at hrow
    obtain ⟨hident, hwaits, hproven, hproof⟩ := of_decide_eq_true hrow
    have hnone : s.system.calls = [] := eq_nil_of_length_eq_zero hcalls
    have hidle : Idle probeIdentity "op" s.system :=
      ⟨⟨e, he, hident, .inl hwaits⟩, by simp [hnone], by simp [hnone], by simp [hnone]⟩
    intro hkept
    have hresolves := hkept probeDone hevent "op" e he hproven (.inl hwaits)
    rw [hproof] at hresolves
    exact hidle.not_resolves probeApi probe_reconciliation hinv rfl hresolves

lemma Applier.run_inv (acts : List (Act Adapter)) : Inv (Applier.run api acts).system :=
  foldlRecOn acts (step api) (motive := fun s => Inv s.system) Inv.init
    fun _ h act _ => step_inv api h act

/-- The event is committed and looked at before the answer is on record: the command then waits
for good, and so does one whose look is cut off by a crash. -/
theorem evidence_lost :
    ¬ (Applier.run probeApi (probeSubmitted ++ [.apply probeDone, .journal (.evidenceFind 1),
      .journal (.evidenceFind 1), .journal (.settle 0)])).EvidenceKept probeApi ∧
    ¬ (Applier.run probeApi (probeSubmitted ++ [.journal (.settle 0), .apply probeDone,
      .journal .crash])).EvidenceKept probeApi :=
  ⟨probe_stuck (Applier.run_inv _ _) (by decide) (by decide) (by decide),
    probe_stuck (Applier.run_inv _ _) (by decide) (by decide) (by decide)⟩

/-- The answer is on record when the event is committed, and the look has begun. -/
theorem run_evidenceKept_probe :
    (Applier.run probeApi (probeSubmitted ++ [.journal (.settle 0), .apply probeDone,
      .journal (.evidenceFind 0)])).EvidenceKept probeApi :=
  run_evidenceKept probeApi _ (by decide)

end Traces

end Replicant.Managed
