import Replicant.Lib.Transaction
import Replicant.Managed.History

/-!
# Exactly-once application

The cursor decides what is applied, so a batch is committed once and in order whatever fails. The
history is repaired from the cursor alone: a row whose commit failed is taken for applied when a
newer event has moved the cursor past it.
-/

namespace Replicant.Managed

open Lib List

/-- The application gets as far as the primary commit. -/
def Reach.commits : Reach → Bool
  | .checked | .appended => false
  | .committed | .marked => true

namespace EventStore

variable {s t : EventStore} {row : HistoryRow} {id c : String} {ids : List String}

/-! ## What the writes do to the history -/

lemma mem_markHistoryEventApplied : row ∈ (s.markHistoryEventApplied id).history ↔
      ∃ r ∈ s.history, row = if r.eventId = id then { r with applied := true } else r := by
  simp [markHistoryEventApplied, eq_comm]

/-- A row of the repaired history is a row of the history, applied if it is one of the given. -/
lemma mem_foldl_mark (ids : List String) : row ∈ (ids.foldl markHistoryEventApplied s).history ↔
      ∃ r ∈ s.history, row = if r.eventId ∈ ids then { r with applied := true } else r := by
  induction ids generalizing s with
  | nil => simp
  | cons id ids ih =>
    rw [foldl_cons, ih]
    constructor
    · rintro ⟨r, hr, rfl⟩
      obtain ⟨q, hq, rfl⟩ := mem_markHistoryEventApplied.mp hr
      refine ⟨q, hq, ?_⟩
      by_cases hid : q.eventId = id <;> by_cases hids : q.eventId ∈ ids <;> simp_all
    · rintro ⟨q, hq, rfl⟩
      refine ⟨_, mem_markHistoryEventApplied.mpr ⟨q, hq, rfl⟩, ?_⟩
      by_cases hid : q.eventId = id <;> by_cases hids : q.eventId ∈ ids <;> simp_all

/-- What `INSERT OR IGNORE` leaves: the old rows, and the new one if its identifier is new. -/
lemma mem_insertHistory {new : HistoryRow} (h : row ∈ (s.insertHistory new).history) :
    row ∈ s.history ∨ row = new := by
  unfold insertHistory at h
  by_cases hkey : s.history.hasKey new.eventId = true
  · left
    simpa [Table.insert, hkey] using h
  · exact (Table.mem_insert (Bool.eq_false_iff.mpr hkey)).mp h

/-- The archived rows are the only new ones. -/
lemma mem_appendArchivedEvents (h : row ∈ (s.appendArchivedEvents ids).history)
    (harch : row.archivedOnly = false) : row ∈ s.history := by
  induction ids generalizing s with
  | nil => exact h
  | cons id ids ih =>
    rcases mem_insertHistory (ih h) with hold | rfl
    · exact hold
    · cases harch

/-- The primary database is as before. -/
def SamePrimary (s t : EventStore) : Prop := t.cursor = s.cursor ∧ t.committed = s.committed

lemma SamePrimary.foldl (f : EventStore → String → EventStore) (hf : ∀ s id, SamePrimary s (f s id))
    (s : EventStore) (ids : List String) : SamePrimary s (ids.foldl f s) :=
  foldlRecOn ids f (motive := SamePrimary s) ⟨rfl, rfl⟩ fun t h id _ =>
    ⟨(hf t id).1.trans h.1, (hf t id).2.trans h.2⟩

lemma samePrimary_archived (s : EventStore) (ids : List String) :
    SamePrimary s (s.appendArchivedEvents ids) :=
  SamePrimary.foldl (fun s id => s.insertHistory ⟨id, false, true⟩) (fun _ _ => ⟨rfl, rfl⟩) s ids

/-! ## The repair -/

lemma mem_passedIds {applied : List String} (h : passedIds c ids = .ok applied) :
    id ∈ applied ↔ id ∈ ids ∧ UpTo id c := by
  induction ids generalizing applied with
  | nil =>
    cases h
    simp
  | cons x ids ih =>
    unfold passedIds at h
    cases hcompare : compareEventIds x c with
    | error => simp [hcompare, bind, Except.bind] at h
    | ok ordering =>
      cases hrest : passedIds c ids with
      | error => simp [hcompare, hrest, bind, Except.bind] at h
      | ok rest =>
        have hupTo : UpTo x c ↔ ordering ≠ .gt := by
          unfold UpTo
          rw [hasEvent_some, hcompare]
          simp [Except.map]
        have happlied : (if ordering ≠ .gt then x :: rest else rest) = applied := by
          simpa [hcompare, hrest, bind, Except.bind, pure, Except.pure] using h
        rw [← happlied, mem_cons, or_and_right, ← ih hrest]
        split
        · next hle =>
          rw [mem_cons]
          exact or_congr_left ⟨fun heq => ⟨heq, heq ▸ hupTo.mpr hle⟩, And.left⟩
        · next hgt => exact (or_iff_right fun ⟨heq, hle⟩ => hgt (hupTo.mp (heq ▸ hle))).symm

/-- What the repair does: it marks the staged rows at or below the cursor, and nothing else. -/
lemma reconcileHistoryVisibility_spec (h : s.reconcileHistoryVisibility = .ok t) : SamePrimary s t ∧
      ∀ row, row ∈ t.history ↔ ∃ r ∈ s.history, row =
        if r.archivedOnly = false ∧ ∃ c ∈ s.cursor, UpTo r.eventId c then { r with applied := true }
        else r := by
  unfold reconcileHistoryVisibility at h
  cases hcursor : s.cursor with
  | none =>
    simp only [hcursor, Except.ok.injEq] at h
    subst h
    exact ⟨⟨rfl, rfl⟩, by simp⟩
  | some c =>
    rw [hcursor] at h
    cases hpassed : passedIds c s.stagedIds with
    | error => simp [hpassed, bind, Except.bind] at h
    | ok applied =>
      have ht : applied.foldl markHistoryEventApplied s = t := by
        simpa [hpassed, bind, Except.bind, pure, Except.pure] using h
      subst ht
      refine ⟨SamePrimary.foldl markHistoryEventApplied (fun _ _ => ⟨rfl, rfl⟩) s applied, fun row => ?_⟩
      rw [mem_foldl_mark]
      refine exists_congr fun r => and_congr_right fun hr => ?_
      have hiff : r.eventId ∈ applied ↔
          (r.applied = false ∧ r.archivedOnly = false) ∧ UpTo r.eventId c := by
        rw [mem_passedIds hpassed]
        refine and_congr_left fun _ => ?_
        simp only [stagedIds, mem_map, mem_filter, Bool.and_eq_true, Bool.not_eq_true']
        constructor
        · rintro ⟨q, ⟨hq, hstaged⟩, hid⟩
          rwa [Table.eq_of_key hq hr hid] at hstaged
        · exact fun hstaged => ⟨r, ⟨hr, hstaged⟩, rfl⟩
      -- an applied row is left alone or marked again, which is the same
      cases happlied : r.applied with
      | true =>
        have hsame : { r with applied := true } = r := by rw [← happlied]
        simp [hsame]
      | false => simp [hiff, happlied]

/-! ## An application -/

/-- What an application can do: nothing, mark an event the cursor has passed, stage a new one, or
commit it too. -/
inductive Applies (s : EventStore) (id : String) (reach : Reach) : EventStore → Prop
  | nothing : Applies s id reach s
  | again (hpassed : ∃ c ∈ s.cursor, UpTo id c) : Applies s id reach (s.markHistoryEventApplied id)
  | staged (hnew : ∀ c ∈ s.cursor, After id c) : Applies s id reach (s.appendHistoryEvent id)
  | committed (hnew : ∀ c ∈ s.cursor, After id c) (hreach : reach.commits = true)
      (hasEvent_eq : hasEvent s.cursor id = .ok false) :
      Applies s id reach ((s.appendHistoryEvent id).commitProjection id (some id))
  | marked (hnew : ∀ c ∈ s.cursor, After id c) (hreach : reach.commits = true)
      (hasEvent_eq : hasEvent s.cursor id = .ok false) :
      Applies s id reach
        (((s.appendHistoryEvent id).commitProjection id (some id)).markHistoryEventApplied id)

lemma applyEventProjection_applies (s : EventStore) (id : String) (reach : Reach) :
    s.Applies id reach (s.applyEventProjection id reach) := by
  unfold applyEventProjection
  cases hseen : hasEvent s.cursor id with
  | error => exact .nothing
  | ok seen =>
    cases seen with
    | true =>
      simp only
      split
      · cases hcursor : s.cursor with
        | none => simp [hcursor, hasEvent] at hseen
        | some c =>
          rw [hcursor] at hseen
          exact .again ⟨c, hcursor, hseen⟩
      · exact .nothing
    | false =>
      have hnew : ∀ c ∈ s.cursor, After id c := by
        intro c hc
        apply after_of_hasEvent
        rw [← hseen, Option.mem_def.mp hc]
      have hadvance : advanceEventCursor (s.appendHistoryEvent id).cursor id = .ok (some id) :=
        advanceEventCursor_of_new hseen
      cases reach with
      | checked => exact .nothing
      | appended => exact .staged hnew
      | committed =>
        simp only [hadvance]
        exact .committed hnew rfl hseen
      | marked =>
        simp only [hadvance]
        exact .marked hnew rfl hseen

/-! ## Order and multiplicity -/

/-- The cursor is where it was or further on. -/
def CursorGrows (s t : EventStore) : Prop := ∀ c ∈ s.cursor, ∃ d ∈ t.cursor, UpTo c d

/-- Batches are committed in stream order, and none is ahead of the cursor. -/
structure Inv (s : EventStore) : Prop where
  increasing : s.committed.Pairwise fun a b => After b a
  passed : ∀ id ∈ s.committed, ∃ c ∈ s.cursor, UpTo id c

lemma SamePrimary.inv (h : SamePrimary s t) (hs : s.Inv) : t.Inv where
  increasing := h.2 ▸ hs.increasing
  passed id hid := by
    rw [h.1]
    exact hs.passed id (h.2 ▸ hid)

lemma SamePrimary.grows (h : SamePrimary s t) : CursorGrows s t := by
  intro c hc
  exact ⟨c, h.1 ▸ hc, UpTo.refl c⟩

lemma Inv.commit (hs : s.Inv) (hnew : ∀ c ∈ s.cursor, After id c) :
    (s.commitProjection id (some id)).Inv where
  increasing := by
    refine pairwise_append.mpr ⟨hs.increasing, pairwise_singleton _ _, ?_⟩
    intro a ha b hb
    obtain ⟨c, hc, hupTo⟩ := hs.passed a ha
    rw [mem_singleton.mp hb]
    exact (hnew c hc).of_upTo hupTo
  passed := by
    refine forall_mem_concat (fun x hold => ?_) ⟨id, rfl, UpTo.refl id⟩
    obtain ⟨c, hc, hupTo⟩ := hs.passed x hold
    exact ⟨id, rfl, hupTo.of_after (hnew c hc)⟩

lemma grows_commit (hnew : ∀ c ∈ s.cursor, After id c) :
    CursorGrows s (s.commitProjection id (some id)) :=
  fun c hc => ⟨id, rfl, (hnew c hc).upTo⟩

section

variable (hs : s.Inv)

include hs

lemma step_inv (op : HistoryOp) : (historyStep s op).Inv ∧ CursorGrows s (historyStep s op) := by
  have hsame : ∀ {t}, SamePrimary s t → t.Inv ∧ CursorGrows s t := fun h => ⟨h.inv hs, h.grows⟩
  cases op with
  | apply id reach =>
    have happlies : s.Applies id reach (historyStep s (.apply id reach)) :=
      applyEventProjection_applies s id reach
    generalize historyStep s (.apply id reach) = t at happlies ⊢
    cases happlies with
    | committed hnew =>
      have hstaged : SamePrimary s (s.appendHistoryEvent id) := ⟨rfl, rfl⟩
      exact ⟨(hstaged.inv hs).commit hnew, grows_commit hnew⟩
    | marked hnew =>
      have hstaged : SamePrimary s (s.appendHistoryEvent id) := ⟨rfl, rfl⟩
      have hmarked : ∀ t, SamePrimary t (t.markHistoryEventApplied id) := fun _ => ⟨rfl, rfl⟩
      exact ⟨(hmarked _).inv ((hstaged.inv hs).commit hnew), grows_commit hnew⟩
    | _ => exact hsame ⟨rfl, rfl⟩
  | archive ids => exact hsame (samePrimary_archived s ids)
  | restart =>
    simp only [historyStep]
    split
    · next t ht => exact hsame (reconcileHistoryVisibility_spec ht).1
    · exact hsame ⟨rfl, rfl⟩

lemma Inv.run (ops : List HistoryOp) : (ops.foldl historyStep s).Inv :=
  foldlRecOn ops historyStep hs fun _ h op _ => (step_inv h op).1

lemma Inv.grows (ops : List HistoryOp) : CursorGrows s (ops.foldl historyStep s) := by
  refine foldl_rel (P := Inv) (fun _ c hc => ⟨c, hc, UpTo.refl c⟩) ?_ (fun _ op h => (step_inv h op).1)
    (fun _ op h => (step_inv h op).2) hs ops
  intro s t u _ hst htu c hc
  obtain ⟨d, hd, hcd⟩ := hst c hc
  obtain ⟨e, he, hde⟩ := htu d hd
  exact ⟨e, he, hcd.trans hde⟩

lemma Inv.once : s.committed.Nodup := by
  refine hs.increasing.imp fun {a b} hab heq => ?_
  rw [heq] at hab
  exact (UpTo.refl b).not_after hab

/-! ## Visibility -/

/-- A row that is not archived only is visible if and only if its batch was committed. -/
def VisibleIffCommitted (s : EventStore) : Prop :=
  ∀ row ∈ s.history, row.archivedOnly = false → (row.applied = true ↔ row.eventId ∈ s.committed)

/-- Rows without a committed batch are invisible and ahead of the cursor. -/
def Clean (s : EventStore) : Prop :=
  ∀ row ∈ s.history, row.archivedOnly = false → row.eventId ∉ s.committed →
    row.applied = false ∧ ∀ c ∈ s.cursor, ¬ UpTo row.eventId c

lemma Clean.repaired (h : s.Clean) (hrepair : s.reconcileHistoryVisibility = .ok t) :
    t.VisibleIffCommitted := by
  obtain ⟨hsame, hrows⟩ := reconcileHistoryVisibility_spec hrepair
  intro row hrow harch
  obtain ⟨r, hr, rfl⟩ := (hrows row).mp hrow
  rw [hsame.2]
  by_cases hpassed : r.archivedOnly = false ∧ ∃ c ∈ s.cursor, UpTo r.eventId c
  · rw [if_pos hpassed]
    obtain ⟨hr', c, hc, hupTo⟩ := hpassed
    refine iff_of_true rfl ?_
    by_contra hopen
    exact (h r hr hr' hopen).2 c hc hupTo
  · rw [if_neg hpassed] at harch ⊢
    have hopen : r.eventId ∉ s.committed := fun hdone =>
      hpassed ⟨harch, hs.passed r.eventId hdone⟩
    simp [hopen, (h r hr harch hopen).1]

end

lemma Clean.mark (h : s.Clean) (hdone : id ∈ s.committed ∨ ∃ c ∈ s.cursor, UpTo id c) :
    (s.markHistoryEventApplied id).Clean := by
  intro row hrow harch hopen
  obtain ⟨r, hr, rfl⟩ := mem_markHistoryEventApplied.mp hrow
  by_cases hid : r.eventId = id
  · rw [if_pos hid] at harch hopen
    rcases hdone with hdone | ⟨c, hc, hupTo⟩
    · exact absurd (hid ▸ hdone) hopen
    · exact absurd (hid ▸ hupTo) ((h r hr harch hopen).2 c hc)
  · rw [if_neg hid] at harch hopen ⊢
    exact h r hr harch hopen

lemma Clean.stage (h : s.Clean) (hnew : ∀ c ∈ s.cursor, After id c) :
    (s.appendHistoryEvent id).Clean := by
  intro row hrow harch hopen
  rcases mem_insertHistory hrow with hold | rfl
  · exact h row hold harch hopen
  · exact ⟨rfl, fun c hc hupTo => hupTo.not_after (hnew c hc)⟩

lemma Clean.commit (h : s.Clean) (hbehind : ∀ row ∈ s.history, row.archivedOnly = false →
      row.eventId ≠ id → row.eventId ∉ s.committed → ¬ UpTo row.eventId id) :
    (s.commitProjection id (some id)).Clean := by
  intro row hrow harch hopen
  have hne : row.eventId ≠ id := fun heq => hopen (heq ▸ mem_append_right _ (by simp))
  have hold : row.eventId ∉ s.committed := fun hdone => hopen (mem_append_left _ hdone)
  refine ⟨(h row hrow harch hold).1, ?_⟩
  intro c hc
  cases hc
  exact hbehind row hrow harch hne hold

end EventStore

/-! ## Whole runs -/

/-- When a new event is committed, no other staged event without a commit is at or below it. -/
def HistoryOp.InOrder (s : EventStore) : HistoryOp → Prop
  | .apply id reach => reach.commits = true → hasEvent s.cursor id = .ok false →
      ∀ row ∈ s.history.rows, row.archivedOnly = false → row.eventId ≠ id →
        row.eventId ∉ s.committed → ¬ UpTo row.eventId id
  | .archive _ | .restart => True

instance HistoryOp.decidableInOrder (s : EventStore) (op : HistoryOp) :
    Decidable (op.InOrder s) := by
  cases op <;> unfold HistoryOp.InOrder <;> infer_instance

namespace EventStore

variable {s : EventStore}

lemma Clean.step (h : s.Clean) (op : HistoryOp) (hok : op.InOrder s) : (historyStep s op).Clean := by
  cases op with
  | apply id reach =>
    -- the row staged for the event itself is the only one the condition does not speak about
    have hbehind (hreach : reach.commits = true)
        (hseen : hasEvent s.cursor id = .ok false) : ∀ row ∈ (s.appendHistoryEvent id).history,
        row.archivedOnly = false → row.eventId ≠ id → row.eventId ∉ s.committed →
          ¬ UpTo row.eventId id := by
      intro row hrow harch hne hopen
      rcases mem_insertHistory hrow with hold | rfl
      · exact hok hreach hseen row hold harch hne hopen
      · exact absurd rfl hne
    have happlies : s.Applies id reach (historyStep s (.apply id reach)) :=
      applyEventProjection_applies s id reach
    generalize historyStep s (.apply id reach) = t at happlies ⊢
    cases happlies with
    | nothing => exact h
    | again hpassed => exact h.mark (.inr hpassed)
    | staged hnew => exact h.stage hnew
    | committed hnew hreach hseen => exact (h.stage hnew).commit (hbehind hreach hseen)
    | marked hnew hreach hseen =>
      refine ((h.stage hnew).commit (hbehind hreach hseen)).mark (.inl ?_)
      exact mem_append_right _ (mem_singleton_self id)
  | archive ids =>
    have hsame := samePrimary_archived s ids
    show (s.appendArchivedEvents ids).Clean
    intro row hrow harch hopen
    rw [hsame.1]
    exact h row (mem_appendArchivedEvents hrow harch) harch (hsame.2 ▸ hopen)
  | restart =>
    simp only [historyStep]
    split
    · next t ht =>
      obtain ⟨hsame, hrows⟩ := reconcileHistoryVisibility_spec ht
      intro row hrow harch hopen
      obtain ⟨r, hr, rfl⟩ := (hrows row).mp hrow
      rw [hsame.1]
      rw [hsame.2] at hopen
      by_cases hpassed : r.archivedOnly = false ∧ ∃ c ∈ s.cursor, UpTo r.eventId c
      · rw [if_pos hpassed] at hopen
        obtain ⟨hr', c, hc, hupTo⟩ := hpassed
        exact absurd hupTo ((h r hr hr' hopen).2 c hc)
      · rw [if_neg hpassed] at harch hopen ⊢
        exact h r hr harch hopen
    · exact h

/-- Batches are committed once and in order, and a start-up repair that succeeds makes visible
exactly what was committed. -/
structure ExactlyOnce (s : EventStore) : Prop where
  once : s.committed.Nodup
  increasing : s.committed.Pairwise fun a b => After b a
  repaired : ∀ t, s.reconcileHistoryVisibility = .ok t → t.VisibleIffCommitted

lemma inv_init : init.Inv := ⟨List.Pairwise.nil, by simp [init]⟩

lemma clean_init : init.Clean := by
  intro row hrow
  exact absurd hrow (Table.not_mem_empty row)

end EventStore

open EventStore

/-- Whatever fails, batches are committed once and in order and the cursor never goes back. -/
lemma historyRun_ordered (ops ops' : List HistoryOp) : (historyRun ops).committed.Nodup ∧
      ((historyRun ops).committed.Pairwise fun a b => After b a) ∧
      CursorGrows (historyRun ops) (historyRun (ops ++ ops')) := by
  have hinv : (historyRun ops).Inv := inv_init.run ops
  refine ⟨hinv.once, hinv.increasing, ?_⟩
  unfold historyRun
  rw [foldl_append]
  exact hinv.grows ops'

/-- When no event is committed over an older staged one, visibility follows too. -/
theorem historyRun_exactlyOnce (ops ops' : List HistoryOp)
    (h : AllSteps historyStep (fun s op => op.InOrder s) EventStore.init (ops ++ ops')) :
    (historyRun (ops ++ ops')).ExactlyOnce ∧
      CursorGrows (historyRun ops) (historyRun (ops ++ ops')) := by
  obtain ⟨honce, hincreasing, -⟩ := historyRun_ordered (ops ++ ops') []
  have hclean : (historyRun (ops ++ ops')).Clean :=
    h.foldl clean_init fun _ op hs hok => hs.step op hok
  exact ⟨⟨honce, hincreasing, fun _ ht => Clean.repaired (inv_init.run _) hclean ht⟩,
    (historyRun_ordered ops ops').2.2⟩

/-- A failed commit, the event again, an archived event and a crash before the mark. -/
theorem historyRun_exactlyOnce_crash :
    (historyRun ([.apply "1-0" .appended, .apply "1-0" .committed, .archive ["0-1", "2-0"]] ++
      [.restart, .apply "2-0" .marked])).ExactlyOnce ∧
      CursorGrows (historyRun [.apply "1-0" .appended, .apply "1-0" .committed,
        .archive ["0-1", "2-0"]])
        (historyRun ([.apply "1-0" .appended, .apply "1-0" .committed, .archive ["0-1", "2-0"]] ++
          [.restart, .apply "2-0" .marked])) :=
  historyRun_exactlyOnce _ _ (by decide)

/-- The commit of `1-0` fails, `2-0` is committed, and the repair makes `1-0` visible. -/
theorem repair_shows_uncommitted :
    ¬ (historyRun [.apply "1-0" .appended, .apply "2-0" .marked]).ExactlyOnce ∧
      (historyRun [.apply "1-0" .appended, .apply "2-0" .marked, .restart]).history.find? "1-0" =
        some ⟨"1-0", true, false⟩ ∧
      (historyRun [.apply "1-0" .appended, .apply "2-0" .marked, .restart]).committed = ["2-0"] := by
  refine ⟨fun h => ?_, by decide, by decide⟩
  have hvisible := h.repaired
    (historyRun [.apply "1-0" .appended, .apply "2-0" .marked, .restart]) rfl
    ⟨"1-0", true, false⟩ (Table.mem_def.mpr (by decide)) rfl
  exact absurd (hvisible.mp rfl) (by decide)

end Replicant.Managed
