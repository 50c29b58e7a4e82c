import Replicant.Server.EventTriggers

/-!
# Firing once per event

A cursor is sound if every matching event up to it is claimed. The stored cursor is sound, and so is
every cursor that an evaluation or an edit is to write. An evaluation keeps, for each event that it
saw, a claim or the event in the rest of its list.
-/

namespace Replicant.Server

open Lib List

variable {events : List ℕ} {bound event : ℕ} {current cursor : Option ℕ} {stage : EvaluationStage}

namespace EventTriggers

variable {matching : ℕ → Bool} {s t : EventTriggers} {op : TriggerOp} {index : ℕ} {rest : List ℕ}

section Cover

-- the events that the trigger is to fire for
variable (wanted : ℕ → Prop)

/-- The wanted events below the bound are claimed or listed. -/
def Covers (s : EventTriggers) (events : List ℕ) (bound : ℕ) : Prop :=
  ∀ event < bound, wanted event → event ∈ s.firings ∨ event ∈ events

/-- The wanted events up to the cursor are claimed. -/
def Sound (s : EventTriggers) (cursor : Option ℕ) : Prop :=
  ∀ event, wanted event → isAfter cursor event = false → event ∈ s.firings

/-- The list leads from what is claimed to a sound cursor. -/
structure Pending (s : EventTriggers) (events : List ℕ) (current : Option ℕ) (bound : ℕ) : Prop where
  covers : Covers wanted s events bound
  below : ∀ event ∈ events, event < bound
  current : ∀ event ∈ current, event < bound
  sorted : events.Pairwise (· < ·)

/-- The cursors that an evaluation may still write are sound. -/
def StageInv (s : EventTriggers) : EvaluationStage → Prop
  | .starting cursor => Sound wanted s cursor
  | .querying cursor current => Sound wanted s cursor ∧ ∀ event ∈ current, event < s.visible
  | .checking event rest current | .claiming event rest current =>
    ∃ bound, Pending wanted s (event :: rest) current bound
  | .moving event rest current =>
    Sound wanted s (some event) ∧ ∃ bound, Pending wanted s rest current bound
  | .closing current => ∀ event ∈ current, Sound wanted s (some event)
  | .finished | .stopped => True

/-- The evaluation claims, or has claimed, the wanted events below the bound. -/
def Progress (s : EventTriggers) (bound : ℕ) : EvaluationStage → Prop
  | .starting _ | .querying _ _ => bound ≤ s.visible
  | .checking event rest _ | .claiming event rest _ => Covers wanted s (event :: rest) bound
  | .moving _ rest _ => Covers wanted s rest bound
  | .closing _ | .finished => Covers wanted s [] bound
  | .stopped => True

end Cover

variable {wanted : ℕ → Prop}

/-! ## More claims and more rows -/

/-- Claims and rows stay. -/
structure Grows (s t : EventTriggers) : Prop where
  firings : s.firings ⊆ t.firings
  visible : s.visible ≤ t.visible

lemma Grows.refl (s : EventTriggers) : Grows s s := ⟨List.Subset.refl _, Nat.le_refl _⟩

lemma Covers.grows (h : Covers wanted s events bound) (hgrows : Grows s t) :
    Covers wanted t events bound := by
  intro event hlt hwant
  rcases h event hlt hwant with hfired | hlisted
  · exact .inl (hgrows.firings hfired)
  · exact .inr hlisted

lemma Sound.grows (h : Sound wanted s cursor) (hgrows : Grows s t) : Sound wanted t cursor :=
  fun event hwant hnot => hgrows.firings (h event hwant hnot)

lemma Pending.grows (h : Pending wanted s events current bound) (hgrows : Grows s t) :
    Pending wanted t events current bound :=
  { h with covers := h.covers.grows hgrows }

lemma StageInv.grows (h : StageInv wanted s stage) (hgrows : Grows s t) :
    StageInv wanted t stage := by
  cases stage with
  | starting => exact Sound.grows h hgrows
  | querying =>
    exact ⟨h.1.grows hgrows, fun event hevent => Nat.lt_of_lt_of_le (h.2 event hevent) hgrows.visible⟩
  | checking | claiming =>
    obtain ⟨bound, hpend⟩ := h
    exact ⟨bound, hpend.grows hgrows⟩
  | moving =>
    obtain ⟨hsound, bound, hpend⟩ := h
    exact ⟨hsound.grows hgrows, bound, hpend.grows hgrows⟩
  | closing => exact fun event hevent => (h event hevent).grows hgrows
  | finished | stopped => trivial

lemma Progress.grows (h : Progress wanted s bound stage) (hgrows : Grows s t) :
    Progress wanted t bound stage := by
  cases stage with
  | starting | querying => exact Nat.le_trans h hgrows.visible
  | stopped => trivial
  | _ => exact Covers.grows h hgrows

/-! ## One step of an evaluation -/

lemma mem_history : event ∈ s.history matching cursor ↔
    event < s.visible ∧ matching event = true ∧ isAfter cursor event = true := by
  simp [history]

variable (hmatch : ∀ event, wanted event → matching event = true)

include hmatch in
/-- A wanted event that is visible is claimed, or the query finds it. -/
lemma Sound.covers_history (h : Sound wanted s cursor) :
    Covers wanted s (s.history matching cursor) s.visible := by
  intro event hlt hwant
  cases hafter : isAfter cursor event with
  | true => exact .inr (mem_history.mpr ⟨hlt, hmatch event hwant, hafter⟩)
  | false => exact .inl (h event hwant hafter)

lemma Covers.sound (h : Covers wanted s [] bound) (hlt : event < bound) :
    Sound wanted s (some event) := by
  intro other hwant hnot
  have hle : ¬ event < other := by simpa [isAfter] using hnot
  rcases h other (by omega) hwant with hfired | hlisted
  · exact hfired
  · cases hlisted

lemma grows_claim (event : ℕ) : Grows s (s.claim event) := by
  unfold claim
  split
  · exact Grows.refl s
  · exact ⟨fun _ hmem => mem_append_left _ hmem, Nat.le_refl _⟩

lemma mem_claim (event : ℕ) : event ∈ (s.claim event).firings := by
  unfold claim
  split
  · assumption
  · exact mem_append_right _ (mem_singleton_self event)

lemma Covers.claim (h : Covers wanted s (event :: rest) bound) :
    Covers wanted (s.claim event) rest bound := by
  intro other hlt hwant
  rcases h other hlt hwant with hfired | hlisted
  · exact .inl ((grows_claim event).firings hfired)
  · rcases mem_cons.mp hlisted with rfl | hrest
    · exact .inl (mem_claim other)
    · exact .inr hrest

/-- With the claim of the first event in the list, the cursor may move to it. -/
lemma Pending.claim (h : Pending wanted s (event :: rest) current bound) :
    Sound wanted (s.claim event) (some event) ∧
      Pending wanted (s.claim event) rest current bound := by
  have hcovers := h.covers.claim
  obtain ⟨hfirst, hsorted⟩ := pairwise_cons.mp h.sorted
  refine ⟨?_, hcovers, fun other hmem => h.below other (mem_cons_of_mem _ hmem), h.current, hsorted⟩
  have hlt := h.below event mem_cons_self
  -- The later events of the list are greater, so those up to this one are claimed.
  have hbelow : Covers wanted (s.claim event) [] (event + 1) := by
    intro other hother hwant
    rcases hcovers other (by omega) hwant with hfired | hlisted
    · exact .inl hfired
    · have hgreater := hfirst other hlisted
      omega
  exact hbelow.sound (Nat.lt_succ_self event)

lemma Pending.loop (h : Pending wanted s events current bound) :
    StageInv wanted s (.loop current events) := by
  cases events with
  | nil => exact fun event hevent => h.covers.sound (h.current event hevent)
  | cons => exact ⟨bound, h⟩

lemma Covers.loop (h : Covers wanted s events bound) :
    Progress wanted s bound (.loop current events) := by
  cases events with
  | nil | cons => exact h

lemma managedCursor_lt (h : event ∈ s.managedCursor) : event < s.applied := by
  unfold managedCursor at h
  split at h
  · cases h
  · next n happlied =>
    cases h
    omega

include hmatch in
/-- A step of an evaluation keeps the stored cursor sound, and its own. -/
lemma StageInv.advance (h : StageInv wanted s stage)
    (hcursor : Sound wanted s s.cursor) (hmay : s.MayAdvance stage) :
    StageInv wanted (s.advance matching stage).1 (s.advance matching stage).2 ∧
      Sound wanted (s.advance matching stage).1 (s.advance matching stage).1.cursor := by
  cases stage with
  | starting =>
    refine ⟨⟨h, fun event hevent => ?_⟩, hcursor⟩
    exact Nat.lt_of_lt_of_le (managedCursor_lt hevent) hmay
  | querying =>
    have hpend : Pending wanted s (s.history matching _) _ s.visible :=
      ⟨h.1.covers_history hmatch, fun _ hmem => (mem_history.mp hmem).1, h.2,
        pairwise_lt_range.filter _⟩
    exact ⟨hpend.loop, hcursor⟩
  | checking => exact ⟨h, hcursor⟩
  | claiming event =>
    obtain ⟨bound, hpend⟩ := h
    obtain ⟨hsound, hrest⟩ := hpend.claim
    have hsame : (s.claim event).cursor = s.cursor := by
      unfold EventTriggers.claim
      split <;> rfl
    refine ⟨⟨hsound, bound, hrest⟩, ?_⟩
    show Sound wanted (s.claim event) (s.claim event).cursor
    rw [hsame]
    exact hcursor.grows (grows_claim event)
  | moving =>
    obtain ⟨hsound, bound, hpend⟩ := h
    exact ⟨Pending.loop ⟨hpend.covers, hpend.below, hpend.current, hpend.sorted⟩, hsound⟩
  | closing current =>
    cases current with
    | none => exact ⟨trivial, hcursor⟩
    | some event => exact ⟨trivial, h event rfl⟩
  | finished | stopped => exact ⟨trivial, hcursor⟩

/-- A step that fails leaves sound cursors. -/
lemma StageInv.falter (h : StageInv wanted s stage)
    (hmay : MayFalter stage) : StageInv wanted s stage.falter := by
  cases stage with
  | starting => exact ⟨h, nofun⟩
  | checking | claiming => cases hmay
  | moving =>
    obtain ⟨-, bound, hpend⟩ := h
    exact hpend.loop
  | _ => trivial

lemma StageInv.stop : StageInv wanted s stage.stop := by
  cases stage <;> trivial

section

variable (h : Progress wanted s bound stage)

include h

include hmatch in
/-- What the evaluation has before it stays before it, or is claimed. -/
lemma Progress.advance (hinv : StageInv wanted s stage) :
    Progress wanted (s.advance matching stage).1 bound (s.advance matching stage).2 := by
  cases stage with
  | starting => exact h
  | querying cursor current =>
    have hcovers := hinv.1.covers_history hmatch
    have hle : bound ≤ s.visible := h
    apply Covers.loop
    exact fun event hlt hwant => hcovers event (by omega) hwant
  | checking => exact h
  | claiming => exact Covers.claim h
  | moving => exact Covers.loop h
  | closing current => cases current <;> exact h
  | finished => exact h
  | stopped => trivial

lemma Progress.falter (hmay : MayFalter stage) : Progress wanted s bound stage.falter := by
  cases stage with
  | starting => exact h
  | querying | stopped => trivial
  | checking | claiming => cases hmay
  | moving => exact Covers.loop h
  | closing | finished => exact h

lemma Progress.stop : Progress wanted s bound stage.stop := by
  cases stage with
  | finished => exact h
  | _ => trivial

end

/-! ## One operation -/

lemma claim_frame (event : ℕ) :
    ∃ revision firings, s.claim event = { s with revision, firings } := by
  unfold claim
  split <;> exact ⟨_, _, rfl⟩

lemma nodup_claim (h : s.firings.Nodup) : (s.claim event).firings.Nodup := by
  unfold claim
  split
  · exact h
  · next hnew =>
    refine nodup_append.mpr ⟨h, by simp, fun other hmem _ hsingle heq => hnew ?_⟩
    rw [← mem_singleton.mp hsingle, ← heq]
    exact hmem

/-- An evaluation writes the cursor and the claims, and claims stay and do not repeat. -/
lemma advance_frame (matching : ℕ → Bool) (s : EventTriggers) (stage : EvaluationStage) :
    ∃ cursor revision firings, (s.advance matching stage).1 = { s with cursor, revision, firings } ∧
      s.firings ⊆ firings ∧ (s.firings.Nodup → firings.Nodup) := by
  have hsame := And.intro (List.Subset.refl s.firings) (id : s.firings.Nodup → s.firings.Nodup)
  cases stage with
  | claiming event =>
    have hsubset := (grows_claim (s := s) event).firings
    have hnodup : s.firings.Nodup → (s.claim event).firings.Nodup := nodup_claim
    obtain ⟨revision, firings, heq⟩ := s.claim_frame event
    rw [heq] at hsubset hnodup
    exact ⟨s.cursor, revision, firings, heq, hsubset, hnodup⟩
  | closing current => cases current <;> exact ⟨_, _, _, rfl, hsame⟩
  | _ => exact ⟨_, _, _, rfl, hsame⟩

lemma advanceEdit_frame (s : EventTriggers) (edit : EditStage) :
    ∃ cursor revision, (s.advanceEdit edit).1 = { s with cursor, revision } := by
  cases edit with
  | writing =>
    unfold advanceEdit
    dsimp only
    split <;> exact ⟨_, _, rfl⟩
  | choosing | returned => exact ⟨_, _, rfl⟩

/-- What an operation leads to. -/
inductive Turn (matching : ℕ → Bool) (s : EventTriggers) (op : TriggerOp) : EventTriggers → Prop where
  | aside (applied visible revision : ℕ) (rows : s.visible ≤ visible) :
    Turn matching s op { s with applied, visible, revision }
  | evaluated (hop : op = .evaluate) :
    Turn matching s op { s with evaluations := s.evaluations ++ [⟨.starting s.cursor, false⟩] }
  | advanced {index : ℕ} {e : Evaluation} {cursor : Option ℕ} {revision : ℕ} {firings : List ℕ}
      (hop : op = .step index) (he : s.evaluations[index]? = some e)
      (frame : (s.advance matching e.stage).1 = { s with cursor, revision, firings })
      (claims : s.firings ⊆ firings ∧ (s.firings.Nodup → firings.Nodup)) :
    Turn matching s op { s with
      cursor, revision, firings
      evaluations := s.evaluations.set index { e with stage := (s.advance matching e.stage).2 } }
  | faltered {index : ℕ} {e : Evaluation} (hop : op = .fail index)
      (he : s.evaluations[index]? = some e) :
    Turn matching s op { s with evaluations := s.evaluations.set index ⟨e.stage.falter, true⟩ }
  | edited (expected : ℕ) (hop : op = .edit expected) :
    Turn matching s op { s with edits := s.edits ++ [.choosing s.cursor expected] }
  | wrote {index : ℕ} {edit : EditStage} {cursor : Option ℕ} {revision : ℕ}
      (hedit : s.edits[index]? = some edit)
      (frame : (s.advanceEdit edit).1 = { s with cursor, revision }) :
    Turn matching s op { s with
      cursor, revision, edits := s.edits.set index (s.advanceEdit edit).2 }
  | crashed : Turn matching s op { s with
      evaluations := s.evaluations.map fun e => { e with stage := e.stage.stop }
      edits := [] }

lemma step_turn (matching : ℕ → Bool) (s : EventTriggers) (op : TriggerOp) :
    Turn matching s op (s.step matching op) := by
  have hidle : Turn matching s op s := .aside s.applied s.visible s.revision (Nat.le_refl _)
  cases op with
  | apply | report => exact .aside _ _ _ (Nat.le_refl _)
  | publish =>
    unfold step
    dsimp only
    split
    · exact .aside _ _ _ (Nat.le_succ _)
    · exact hidle
  | evaluate => exact .evaluated rfl
  | step =>
    unfold step
    dsimp only
    split
    · next e he =>
      obtain ⟨cursor, revision, firings, hframe, hclaims⟩ := advance_frame matching s e.stage
      have hturn : Turn matching s (.step _) _ := .advanced rfl he hframe hclaims
      rw [hframe]
      exact hturn
    · exact hidle
  | fail =>
    unfold step
    dsimp only
    split
    · exact .faltered rfl ‹_›
    · exact hidle
  | edit expected => exact .edited expected rfl
  | editStep index =>
    unfold step
    dsimp only
    split
    · next edit hedit =>
      obtain ⟨cursor, revision, hframe⟩ := advanceEdit_frame s edit
      have hturn : Turn matching s (.editStep index) _ := .wrote hedit hframe
      rw [hframe]
      exact hturn
    · exact hidle
  | crash => exact .crashed

section Turn

variable (hturn : Turn matching s op t)

include hturn

lemma Turn.grows : Grows s t := by
  cases hturn with
  | aside _ _ _ rows => exact ⟨List.Subset.refl _, rows⟩
  | advanced _ _ _ claims => exact ⟨claims.1, Nat.le_refl _⟩
  | _ => exact ⟨List.Subset.refl _, Nat.le_refl _⟩

lemma Turn.nodup (h : s.firings.Nodup) : t.firings.Nodup := by
  cases hturn with
  | advanced _ _ _ claims => exact claims.2 h
  | _ => exact h

lemma Turn.length_le : s.evaluations.length ≤ t.evaluations.length := by
  cases hturn with
  | aside | edited | wrote => exact Nat.le_refl _
  | _ => simp

lemma Turn.evaluation {e' : Evaluation} (h : t.evaluations[index]? = some e') :
    s.evaluations[index]? = some e' ∨
    op = .evaluate ∧ index = s.evaluations.length ∧ e'.stage = .starting s.cursor ∨
    ∃ e, s.evaluations[index]? = some e ∧
      (op = .step index ∧ e'.stage = (s.advance matching e.stage).2 ∨
        op = .fail index ∧ e'.stage = e.stage.falter ∨ e'.stage = e.stage.stop) := by
  cases hturn with
  | aside | edited | wrote => exact .inl h
  | evaluated hop =>
    rcases of_getElem?_concat h with hold | ⟨hlast, rfl⟩
    · exact .inl hold
    · exact .inr (.inl ⟨hop, hlast, rfl⟩)
  | advanced hop he =>
    rcases of_getElem?_set h with hold | ⟨rfl, rfl⟩
    · exact .inl hold
    · exact .inr (.inr ⟨_, he, .inl ⟨hop, rfl⟩⟩)
  | faltered hop he =>
    rcases of_getElem?_set h with hold | ⟨rfl, rfl⟩
    · exact .inl hold
    · exact .inr (.inr ⟨_, he, .inr (.inl ⟨hop, rfl⟩)⟩)
  | crashed =>
    rw [getElem?_map] at h
    obtain ⟨e, he, rfl⟩ := Option.map_eq_some_iff.mp h
    exact .inr (.inr ⟨e, he, .inr (.inr rfl)⟩)

lemma Turn.edit {edit' : EditStage} (h : edit' ∈ t.edits) :
    edit' ∈ s.edits ∨ (∃ expected, op = .edit expected ∧ edit' = .choosing s.cursor expected) ∨
      ∃ edit ∈ s.edits, edit' = (s.advanceEdit edit).2 := by
  cases hturn with
  | edited expected hop =>
    rcases of_mem_concat h with hold | hnew
    · exact .inl hold
    · exact .inr (.inl ⟨expected, hop, hnew⟩)
  | wrote hedit =>
    rcases mem_or_eq_of_mem_set h with hold | rfl
    · exact .inl hold
    · exact .inr (.inr ⟨_, mem_of_getElem? hedit, rfl⟩)
  | crashed => cases h
  | _ => exact .inl h

end Turn

/-! ## Runs -/

section Inv

variable (wanted)

/-- An edit writes back a sound cursor. -/
def EditInv (s : EventTriggers) : EditStage → Prop
  | .choosing cursor _ | .writing cursor _ => cursor ≠ none ∧ Sound wanted s cursor
  | .returned => True

structure Inv (s : EventTriggers) : Prop where
  cursor : Sound wanted s s.cursor
  evaluations : ∀ e ∈ s.evaluations, StageInv wanted s e.stage
  edits : ∀ edit ∈ s.edits, EditInv wanted s edit

end Inv

lemma EditInv.grows {edit : EditStage} (h : EditInv wanted s edit) (hgrows : Grows s t) :
    EditInv wanted t edit := by
  cases edit with
  | choosing | writing => exact ⟨h.1, h.2.grows hgrows⟩
  | returned => trivial

lemma EditInv.advance {edit : EditStage} (h : EditInv wanted s edit)
    (hcursor : Sound wanted s s.cursor) : EditInv wanted s (s.advanceEdit edit).2 ∧
      Sound wanted s (s.advanceEdit edit).1.cursor := by
  cases edit with
  | choosing cursor =>
    cases cursor with
    | none => exact absurd rfl h.1
    | some => exact ⟨h, hcursor⟩
  | writing =>
    unfold advanceEdit
    dsimp only
    split
    · exact ⟨trivial, h.2⟩
    · exact ⟨trivial, hcursor⟩
  | returned => exact ⟨trivial, hcursor⟩

include hmatch in
lemma Inv.cursor_turn (h : Inv wanted s) (hok : s.Gapless op)
    (hturn : Turn matching s op t) : Sound wanted t t.cursor := by
  have hgrows := hturn.grows
  cases hturn with
  | advanced hop he frame =>
    subst hop
    have hnext := ((h.evaluations _ (mem_of_getElem? he)).advance hmatch h.cursor (hok _ he)).2
    rw [frame] at hnext
    exact hnext.grows ⟨List.Subset.refl _, Nat.le_refl _⟩
  | wrote hedit frame =>
    have hnext := ((h.edits _ (mem_of_getElem? hedit)).advance h.cursor).2
    rw [frame] at hnext
    exact hnext.grows hgrows
  | _ => exact h.cursor.grows hgrows

include hmatch in
/-- The stored cursor stays sound, and so do those that are to be written. -/
lemma Inv.step (h : Inv wanted s) (hok : s.Gapless op) : Inv wanted (s.step matching op) := by
  have hturn := step_turn matching s op
  have hgrows := hturn.grows
  refine ⟨h.cursor_turn hmatch hok hturn, fun e' hmem => ?_, fun edit' hmem => ?_⟩
  · obtain ⟨index, hindex⟩ := getElem?_of_mem hmem
    rcases hturn.evaluation hindex with hold | ⟨-, -, hnew⟩ | ⟨e, he, hstage⟩
    · exact (h.evaluations e' (mem_of_getElem? hold)).grows hgrows
    · rw [hnew]
      exact h.cursor.grows hgrows
    · have hinv := h.evaluations e (mem_of_getElem? he)
      rcases hstage with ⟨rfl, hstage⟩ | ⟨rfl, hstage⟩ | hstage
      · rw [hstage]
        have hnext := (hinv.advance hmatch h.cursor (hok e he)).1
        simp only [EventTriggers.step, he]
        exact hnext.grows ⟨List.Subset.refl _, Nat.le_refl _⟩
      · rw [hstage]
        exact (hinv.falter (hok e he)).grows hgrows
      · rw [hstage]
        exact StageInv.stop
  · rcases hturn.edit hmem with hold | ⟨expected, rfl, rfl⟩ | ⟨edit, hold, rfl⟩
    · exact (h.edits edit' hold).grows hgrows
    · exact ⟨hok, h.cursor.grows hgrows⟩
    · exact ((h.edits edit hold).advance h.cursor).1.grows hgrows

/-- The evaluation has been started and goes on with the events below the bound. -/
def Works (wanted : ℕ → Prop) (index bound : ℕ) (s : EventTriggers) : Prop :=
  index < s.evaluations.length ∧
    ∀ e, s.evaluations[index]? = some e → Progress wanted s bound e.stage

include hmatch in
lemma Works.step (h : Works wanted index bound s) (hinv : Inv wanted s)
    (hok : s.Gapless op) : Works wanted index bound (s.step matching op) := by
  have hturn := step_turn matching s op
  have hgrows := hturn.grows
  refine ⟨Nat.lt_of_lt_of_le h.1 hturn.length_le, fun e' he' => ?_⟩
  rcases hturn.evaluation he' with hold | ⟨-, hlast, -⟩ | ⟨e, he, hstage⟩
  · exact (h.2 e' hold).grows hgrows
  · have hlt := h.1
    omega
  · have hprog := h.2 e he
    rcases hstage with ⟨rfl, hstage⟩ | ⟨rfl, hstage⟩ | hstage
    · rw [hstage]
      have hnext := hprog.advance hmatch (hinv.evaluations e (mem_of_getElem? he))
      simp only [EventTriggers.step, he]
      exact hnext.grows ⟨List.Subset.refl _, Nat.le_refl _⟩
    · rw [hstage]
      exact (hprog.falter (hok e he)).grows hgrows
    · rw [hstage]
      exact hprog.stop.grows hgrows

lemma works_evaluate :
    Works wanted s.evaluations.length s.visible (s.step matching .evaluate) := by
  refine ⟨by simp [EventTriggers.step], fun e he => ?_⟩
  have hlast : (s.evaluations ++ [⟨.starting s.cursor, false⟩])[s.evaluations.length]? = some e := he
  rw [getElem?_concat_length] at hlast
  cases hlast
  exact Nat.le_refl s.visible

lemma inv_start (applied visible : ℕ) (cursor : Option ℕ) (revision : ℕ)
    (hafter : ∀ event, wanted event → isAfter cursor event = true) :
    Inv wanted (start applied visible cursor revision) where
  cursor := fun event hwant hnot => absurd (hnot.symm.trans (hafter event hwant)) Bool.false_ne_true
  evaluations := nofun
  edits := nofun

/-- If no claim and no read of the state revision fails, the managed cursor is read only when the
rows up to it are visible, and no trigger without a cursor is edited, then the trigger fires once for
each matching event. -/
theorem firesOnce_of_gapless (matching : ℕ → Bool) (applied visible : ℕ) (cursor : Option ℕ)
    (revision : ℕ) (ops : List TriggerOp)
    (h : AllSteps (step matching) Gapless (start applied visible cursor revision) ops) :
    FiresOnce matching (start applied visible cursor revision) ops := by
  refine ⟨foldlRecOn (motive := fun s => s.firings.Nodup) ops (step matching) nodup_nil
    fun s hs op _ => (step_turn matching s op).nodup hs, ?_⟩
  intro before after hops hfin event hvisible hmatching hafter
  subst hops
  obtain ⟨hbefore, hok, hrest⟩ := AllSteps.append.mp h
  let wanted event := matching event = true ∧ isAfter cursor event = true
  have hmatch : ∀ event, wanted event → matching event = true := fun _ h => h.1
  have hinv : Inv wanted (run matching (start applied visible cursor revision) before) :=
    hbefore.foldl (inv_start applied visible cursor revision fun _ h => h.2)
      fun _ _ hinv hok => hinv.step hmatch hok
  have hend := hrest.foldl (P := fun s => Inv wanted s ∧ Works wanted _ _ s)
    ⟨hinv.step hmatch hok, works_evaluate⟩
    fun _ _ hboth hok => ⟨hboth.1.step hmatch hok, hboth.2.step hmatch hboth.1 hok⟩
  have hrun : run matching (start applied visible cursor revision) (before ++ .evaluate :: after) =
      after.foldl (step matching)
        ((run matching (start applied visible cursor revision) before).step matching .evaluate) := by
    simp [run]
  rw [hrun] at hfin ⊢
  rcases hend.2.2 _ hfin event hvisible ⟨hmatching, hafter⟩ with hfired | hlisted
  · exact hfired
  · cases hlisted

/-- An evaluation claims two events while a third is applied, and ends without a failure; the next one
claims the third and fails to move the cursor. -/
theorem firesOnce_sample :
    let ops : List TriggerOp := [.evaluate, .step 0, .apply, .step 0, .step 0, .step 0, .step 0,
      .publish, .step 0, .step 0, .step 0, .step 0, .evaluate, .step 1, .step 1, .step 1, .step 1,
      .fail 1, .report, .step 1]
    FiresOnce (fun _ => true) (start 2 2 none 0) ops ∧
      (run (fun _ => true) (start 2 2 none 0) ops).evaluations = [⟨.finished, false⟩, ⟨.finished, true⟩] :=
  ⟨firesOnce_of_gapless _ _ _ _ _ _ (by decide), by decide⟩

/-- A claim fails, the cursor moves on, and the next evaluation does not find the event. -/
theorem exists_skipped_event : ∃ matching applied visible cursor revision ops,
    ¬ FiresOnce matching (start applied visible cursor revision) ops := by
  refine ⟨fun _ => true, 2, 2, some 0, 0, [.evaluate, .step 0, .step 0, .step 0, .fail 0, .step 0,
    .step 0, .evaluate, .step 1, .step 1, .step 1], fun h => ?_⟩
  have hfired := h.2 [.evaluate, .step 0, .step 0, .step 0, .fail 0, .step 0, .step 0]
    [.step 1, .step 1, .step 1] rfl (by decide) 1 (by decide) rfl rfl
  revert hfired
  decide

end EventTriggers

end Replicant.Server
