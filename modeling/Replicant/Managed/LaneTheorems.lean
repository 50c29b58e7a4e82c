import Replicant.Lib.Transaction
import Replicant.Managed.Lanes

/-!
# No event is skipped

A lane delivers in the order of the log and stops at an event that fails, so a traversal of the log
leaves nothing behind it. The stream leaves out muted events: one between the cursor and an event of
the stream is skipped when that event is applied.
-/

namespace Replicant.Managed

open Lib List Option

variable {p : String → Prop} {page : List String} {next : Option String} {l : Lane} {commits : Bool}
  {muted : String → Bool}

namespace Events

variable {s t : Events} {x y z c : String}

/-- The event is newer than the watermark. -/
def Due (s : Events) (y : String) : Prop := y ∈ s.log ∧ ∀ w ∈ s.watermark, After y w

/-- The cursor has passed the event. -/
def Passed (s : Events) (y : String) : Prop := ∃ c ∈ s.cursor, UpTo y c

/-- Everything newer than the watermark and passed by the cursor was committed, once. -/
def NoneSkipped (s : Events) : Prop := ∀ y, s.Due y → s.Passed y → s.committed.count y = 1

/-! ## The order of the log -/

/-- What the server has said so far: its events, and the cursors it has given out. -/
def known (s : Events) : List String := s.log ++ s.issued

structure Ordered (s : Events) : Prop where
  log : s.log.Pairwise fun a b => After b a
  ids : ∀ k ∈ s.known, IsEventId k
  cursor : ∀ c ∈ s.cursor, c ∈ s.log

lemma isEventId_iff : IsEventId x ↔ ∃ p, parseEventId x = .ok p := by
  unfold IsEventId
  cases parseEventId x with
  | error | ok => simp [Except.isOk, Except.toBool]

lemma upTo_or_after (hx : IsEventId x) (hy : IsEventId y) : UpTo x y ∨ After x y := by
  obtain ⟨p, hp⟩ := isEventId_iff.mp hx
  obtain ⟨q, hq⟩ := isEventId_iff.mp hy
  rcases le_or_gt p q with hle | hlt
  · exact .inl (upTo_iff.mpr (.inr ⟨p, q, hp, hq, hle⟩))
  · exact .inr (after_iff.mpr ⟨p, q, hp, hq, hlt⟩)

/-- In the log, an event at or below another is that one or an older one. -/
lemma Ordered.eq_or_after (h : s.Ordered) (hx : x ∈ s.log) (hy : y ∈ s.log) (hxy : UpTo x y) :
    x = y ∨ After y x := by
  obtain ⟨i, hi, rfl⟩ := getElem_of_mem hx
  obtain ⟨j, hj, rfl⟩ := getElem_of_mem hy
  rcases Nat.lt_trichotomy i j with hij | hij | hij
  · exact .inr (pairwise_iff_getElem.mp h.log i j hi hj hij)
  · subst hij
    exact .inl rfl
  · exact absurd (pairwise_iff_getElem.mp h.log j i hj hi hij) hxy.not_after

/-! ## What a lane relies on -/

/-- Everything due up to `c`, of the events in `p`, was committed. -/
def Covers (s : Events) (p : String → Prop) (c : String) : Prop :=
  c ∈ s.known ∧ ∀ y, s.Due y → p y → UpTo y c → y ∈ s.committed

/-- Everything due before the event, of the events in `p`, was committed. -/
def Ready (s : Events) (p : String → Prop) (x : String) : Prop :=
  x ∈ s.log ∧ ∀ y, s.Due y → p y → After x y → y ∈ s.committed

/-- The rest of a page: what is due and not committed is on it or newer than it, and up to the
next cursor it is on it. -/
structure PageReady (s : Events) (page : List String) (next : Option String) : Prop where
  log : ∀ x ∈ page, x ∈ s.log
  ordered : page.Pairwise fun a b => After b a
  rest : ∀ y, s.Due y → y ∉ s.committed → y ∈ page ∨ ∀ x ∈ page, After y x
  next : ∀ n ∈ next, n ∈ s.known ∧ ∀ y, s.Due y → UpTo y n → y ∉ s.committed → y ∈ page

/-- The events the stream delivers. -/
def Heard (muted : String → Bool) (y : String) : Prop := muted y = false

def LaneReady (muted : String → Bool) (s : Events) : Lane → Prop
  | .streaming position => ∃ c ∈ position, s.Covers (Heard muted) c
  | .sent id => s.Ready (Heard muted) id
  | .listing cursor _ => ∃ c ∈ cursor, s.Covers (fun _ => True) c
  | .paging _ _ page _ next => s.PageReady page next
  | .queued _ _ id page _ next => s.PageReady (id :: page) next
  | .orphan id filtered => s.Ready (fun y => filtered = true → Heard muted y) id

structure Good (muted : String → Bool) (s : Events) : Prop where
  ordered : s.Ordered
  passed : ∀ y ∈ s.committed, s.Passed y
  once : s.committed.Nodup
  covered : ∀ y, s.Due y → s.Passed y → y ∈ s.committed
  lanes : ∀ l ∈ s.lanes, s.LaneReady muted l

lemma Good.init : Good muted Events.init where
  ordered := ⟨List.Pairwise.nil, by simp [known, Events.init], by simp [Events.init]⟩
  passed := by simp [Events.init]
  once := nodup_nil
  covered := by simp [Events.init, Due]
  lanes := by simp [Events.init]

lemma Good.noneSkipped (h : Good muted s) : s.NoneSkipped := fun y hdue hpassed =>
  count_eq_one_of_mem h.once (h.covered y hdue hpassed)

/-! ## What time does to a lane -/

/-- The state moves on: nothing is forgotten, and what becomes due is newer than all that was
known. -/
structure Later (s t : Events) : Prop where
  known : ∀ k ∈ s.known, k ∈ t.known
  log : ∀ x ∈ s.log, x ∈ t.log
  committed : ∀ y ∈ s.committed, y ∈ t.committed
  due : ∀ y, t.Due y → s.Due y ∨ ∀ k ∈ s.known, After y k

lemma Covers.later (h : s.Covers p c) (hst : Later s t) : t.Covers p c := by
  refine ⟨hst.known c h.1, fun y hdue hp hupTo => ?_⟩
  rcases hst.due y hdue with hdue | hnewer
  · exact hst.committed y (h.2 y hdue hp hupTo)
  · exact absurd (hnewer c h.1) hupTo.not_after

lemma Ready.later (h : s.Ready p x) (hst : Later s t) : t.Ready p x := by
  refine ⟨hst.log x h.1, fun y hdue hp hafter => ?_⟩
  rcases hst.due y hdue with hdue | hnewer
  · exact hst.committed y (h.2 y hdue hp hafter)
  · have hself := (hnewer x (mem_append_left _ h.1)).trans hafter
    exact absurd hself (UpTo.refl y).not_after

lemma PageReady.later (h : s.PageReady page next) (hst : Later s t) : t.PageReady page next where
  log x hx := hst.log x (h.log x hx)
  ordered := h.ordered
  rest y hdue hopen := by
    rcases hst.due y hdue with hdue | hnewer
    · exact h.rest y hdue fun hdone => hopen (hst.committed y hdone)
    · exact .inr fun x hx => hnewer x (mem_append_left _ (h.log x hx))
  next n hn := by
    obtain ⟨hknown, hpage⟩ := h.next n hn
    refine ⟨hst.known n hknown, fun y hdue hupTo hopen => ?_⟩
    rcases hst.due y hdue with hdue | hnewer
    · exact hpage y hdue hupTo fun hdone => hopen (hst.committed y hdone)
    · exact absurd (hnewer n hknown) hupTo.not_after

lemma LaneReady.later (h : s.LaneReady muted l) (hst : Later s t) : t.LaneReady muted l := by
  cases l with
  | streaming | listing =>
    obtain ⟨c, hc, hcovers⟩ := h
    exact ⟨c, hc, hcovers.later hst⟩
  | sent | orphan => exact Ready.later h hst
  | paging | queued => exact PageReady.later h hst

lemma Later.refl (hlog : t.log = s.log) (hissued : t.issued = s.issued)
    (hwatermark : t.watermark = s.watermark) (hcomm : ∀ y ∈ s.committed, y ∈ t.committed) :
    Later s t where
  known k hk := by unfold Events.known at hk ⊢; rw [hlog, hissued]; exact hk
  log x hx := hlog ▸ hx
  committed := hcomm
  due y hdue := by
    unfold Due at hdue ⊢
    rw [hlog, hwatermark] at hdue
    exact .inl hdue

/-! ## The steps of the lanes -/

lemma Good.of_lanes (h : Good muted s) {lanes : List Lane}
    (hlanes : ∀ l ∈ lanes, l ∈ s.lanes ∨ s.LaneReady muted l) :
    Good muted { s with lanes := lanes } where
  ordered := ⟨h.ordered.log, h.ordered.ids, h.ordered.cursor⟩
  passed := h.passed
  once := h.once
  covered := h.covered
  lanes l hl := by
    have hready : s.LaneReady muted l := (hlanes l hl).elim (h.lanes l) id
    exact hready.later (Later.refl rfl rfl rfl fun _ hy => hy)

lemma Good.begin (h : Good muted s) (hl : s.LaneReady muted l) : Good muted (s.begin l) :=
  h.of_lanes (forall_mem_concat (fun _ hk => .inl hk) (.inr hl))

variable (i : ℕ)

section

variable (h : Good muted s)

include h

lemma Good.goOn (hl : s.LaneReady muted l) : Good muted (s.goOn i l) := by
  refine h.of_lanes fun k hk => ?_
  rcases mem_or_eq_of_mem_set hk with hk | rfl
  · exact .inl hk
  · exact .inr hl

lemma Good.endLane : Good muted (s.endLane i) :=
  h.of_lanes fun _ hk => .inl (mem_of_mem_eraseIdx hk)

lemma Good.publish (id : String) : Good muted (s.publish id) := by
  unfold Events.publish
  split
  case isFalse => exact h
  case isTrue hnew =>
    obtain ⟨hid, hnewer⟩ := hnew
    have hdue : ∀ y, Due { s with log := s.log ++ [id] } y → s.Due y ∨ y = id := by
      intro y hy
      rcases of_mem_concat hy.1 with hlog | hlast
      · exact .inl ⟨hlog, hy.2⟩
      · exact .inr (hlast)
    have hlater : Later s { s with log := s.log ++ [id] } :=
      { known := fun k hk => by
          rcases mem_append.mp hk with hk | hk
          · exact mem_append_left _ (mem_append_left _ hk)
          · exact mem_append_right _ hk
        log := fun x hx => mem_append_left _ hx
        committed := fun _ hy => hy
        due := fun y hy => (hdue y hy).imp_right fun heq k hk => by rw [heq]; exact hnewer k hk }
    refine ⟨⟨?_, ?_, fun c hc => mem_append_left _ (h.ordered.cursor c hc)⟩, h.passed,
      h.once, ?_, fun l hl => (h.lanes l hl).later hlater⟩
    · refine pairwise_append.mpr ⟨h.ordered.log, pairwise_singleton _ _, ?_⟩
      intro a ha b hb
      rw [mem_singleton.mp hb]
      exact hnewer a (mem_append_left _ ha)
    · intro k hk
      have hcases : k ∈ s.known ∨ k = id := by
        simp only [known, mem_append, mem_singleton] at hk ⊢
        tauto
      rcases hcases with hknown | rfl
      · exact h.ordered.ids k hknown
      · exact hid
    · intro y hy hpassed
      rcases hdue y hy with hold | rfl
      · exact h.covered y hold hpassed
      · -- the cursor is an event of the log, so it has not passed the new one
        obtain ⟨c, hc, hupTo⟩ := hpassed
        exact absurd (hnewer c (mem_append_left _ (h.ordered.cursor c hc))) hupTo.not_after

/-- A lane that begins at the cursor. -/
lemma Good.covers_cursor (hc : s.cursor = some c) (p : String → Prop) : s.Covers p c :=
  ⟨mem_append_left _ (h.ordered.cursor c hc), fun y hdue _ hupTo =>
    h.covered y hdue ⟨c, hc, hupTo⟩⟩

end

/-- At a new watermark nothing is due. -/
lemma Ordered.not_due_last (h : s.Ordered) (hlast : s.log.getLast? = some c) (hy : y ∈ s.log) :
    ¬ After y c := by
  intro hafter
  obtain ⟨front, hlog⟩ := getLast?_eq_some_iff.mp hlast
  have hpair := h.log
  rw [hlog] at hpair hy
  rcases of_mem_concat hy with hfront | rfl
  · have hnewer := (pairwise_append.mp hpair).2.2 y hfront c (mem_singleton_self c)
    exact (UpTo.refl y).not_after (hafter.trans hnewer)
  · exact (UpTo.refl y).not_after hafter

lemma Good.start (h : Good muted s) {answered : Bool} (maxPages : ℕ)
    (hlog : s.cursor.isSome ∨ answered = true ∧ s.log ≠ []) :
    Good muted (s.start answered maxPages) := by
  unfold Events.start
  cases hcursor : s.cursor with
  | some c => exact h.begin ⟨c, rfl, h.covers_cursor hcursor _⟩
  | none =>
    obtain ⟨rfl, hne⟩ := hlog.resolve_left (by simp [hcursor])
    have hlast : s.log.getLast? = some (s.log.getLast hne) := getLast?_eq_some_getLast hne
    have hdue : ∀ y, ¬ Due { s with watermark := s.log.getLast? } y := fun y hy =>
      h.ordered.not_due_last hlast hy.1 (hy.2 _ hlast)
    have hlater : Later s { s with watermark := s.log.getLast? } :=
      ⟨fun _ hk => hk, fun _ hx => hx, fun _ hy => hy, fun y hy => absurd hy (hdue y)⟩
    have hgood : Good muted { s with watermark := s.log.getLast? } :=
      ⟨⟨h.ordered.log, h.ordered.ids, h.ordered.cursor⟩, h.passed, h.once,
        fun y hy => absurd hy (hdue y), fun l hl => (h.lanes l hl).later hlater⟩
    rw [hcursor] at hgood
    refine hgood.begin ⟨_, hlast, ?_, fun y hy => absurd hy (hdue y)⟩
    exact mem_append_left _ (getLast_mem hne)

/-- The order on what follows a cursor, and on what the stream leaves of it. -/
lemma Ordered.eventsAfter (h : s.Ordered) (c : String) :
    (Managed.eventsAfter s.log c).Pairwise fun a b => After b a := h.log.filter _

/-- What is due and was not committed follows the position of the lane. -/
lemma Covers.mem_eventsAfter (h : s.Covers p c) (hord : s.Ordered)
    (hdue : s.Due y) (hp : p y) (hopen : y ∉ s.committed) : y ∈ Managed.eventsAfter s.log c := by
  have hy : IsEventId y := hord.ids y (mem_append_left _ hdue.1)
  rcases upTo_or_after hy (hord.ids c h.1) with hupTo | hlate
  · exact absurd (h.2 y hdue hp hupTo) hopen
  · exact Managed.mem_eventsAfter.mpr ⟨hdue.1, hlate⟩

section

variable (h : Good muted s) {left : ℕ}

include h

lemma Good.receive {position : Option String} (hl : s.LaneReady muted (.streaming position)) :
    Good muted (s.receive muted i position) := by
  obtain ⟨c, hc, hcovers⟩ := hl
  cases hc
  unfold Events.receive
  cases hhead : (s.stream muted (some c)).head? with
  | none => exact h
  | some id =>
    obtain ⟨rest, hstream⟩ := head?_eq_some_iff.mp hhead
    have hpair : (id :: rest).Pairwise fun a b => After b a :=
      hstream ▸ (h.ordered.eventsAfter c).filter _
    have hmem : ∀ y, y ∈ id :: rest ↔ (y ∈ s.log ∧ After y c) ∧ Heard muted y := by
      intro y
      rw [← hstream]
      simp [stream, mem_eventsAfter, Heard]
    have hid : id ∈ s.log := ((hmem id).mp mem_cons_self).1.1
    refine h.goOn i ⟨hid, fun y hdue hheard hafter => ?_⟩
    by_contra hopen
    have hlate := mem_eventsAfter.mp (hcovers.mem_eventsAfter h.ordered hdue hheard hopen)
    -- an event after the position is the head of the stream or newer than it
    rcases mem_cons.mp ((hmem y).mpr ⟨hlate, hheard⟩) with rfl | hrest
    · exact (UpTo.refl y).not_after hafter
    · exact ((rel_of_pairwise_cons hpair hrest).upTo).not_after hafter

lemma Good.issue (hids : ∀ n ∈ next, IsEventId n) :
    Good muted { s with issued := s.issued ++ next.toList } := by
  have hknown : ∀ k ∈ s.known, k ∈ s.log ++ (s.issued ++ next.toList) := by
    intro k hk
    rw [← append_assoc]
    exact mem_append_left _ hk
  have hlater : Later s { s with issued := s.issued ++ next.toList } :=
    ⟨hknown, fun _ hx => hx, fun _ hy => hy, fun _ hy => .inl hy⟩
  refine ⟨⟨h.ordered.log, fun k hk => ?_, h.ordered.cursor⟩, h.passed, h.once, h.covered,
    fun l hl => (h.lanes l hl).later hlater⟩
  simp only [known, mem_append, mem_toList] at hk
  rcases hk with hk | hk | hk
  · exact h.ordered.ids k (mem_append_left _ hk)
  · exact h.ordered.ids k (mem_append_right _ hk)
  · exact hids k hk

lemma Good.fetch {cursor : Option String} (hl : s.LaneReady muted (.listing cursor left))
    (next : Option String) : Good muted (s.fetch i cursor left next) := by
  obtain ⟨c, hc, hcovers⟩ := hl
  cases hc
  unfold Events.fetch
  simp only
  split
  case isFalse => exact h
  case isTrue hallows =>
    set page := listEvents s.log (some c) with hpage
    have hfront : page <+: eventsAfter s.log c := take_prefix _ _
    have hopen : ∀ y, s.Due y → y ∉ s.committed → y ∈ eventsAfter s.log c :=
      fun y hdue => hcovers.mem_eventsAfter h.ordered hdue trivial
    have hissued : Good muted { s with issued := s.issued ++ next.toList } := by
      refine h.issue fun n hn => ?_
      cases hn
      exact hallows.1
    refine hissued.goOn i ?_
    refine ⟨fun x hx => (mem_eventsAfter.mp (hfront.subset hx)).1,
      (h.ordered.eventsAfter c).sublist hfront.sublist, fun y hdue hy => ?_, fun n hn => ?_⟩
    · by_cases hmem : y ∈ page
      · exact .inl hmem
      · -- the page is a prefix of what follows the cursor
        obtain ⟨rest, hrest⟩ := hfront
        have hpair := h.ordered.eventsAfter c
        have hy' := hopen y hdue hy
        rw [← hrest] at hpair hy'
        have hlater := (mem_append.mp hy').resolve_left hmem
        exact .inr fun x hx => (pairwise_append.mp hpair).2.2 x hx y hlater
    · cases hn
      refine ⟨by simp [known], fun y hdue hupTo hy => ?_⟩
      by_contra hmem
      exact hupTo.not_after ((hallows.2 c rfl).2 y (hopen y hdue hy) hmem)

lemma Good.enqueue {cursor last : Option String}
    (hl : s.LaneReady muted (.paging cursor left page last next)) :
    Good muted (s.enqueue i cursor left page last next) := by
  unfold Events.enqueue
  cases page with
  | cons => exact h.goOn i hl
  | nil =>
    cases hreq : nextRequest cursor last next with
    | none => exact h.endLane i
    | some n =>
      cases left with
      | zero => exact h.endLane i
      | succ =>
        obtain ⟨hknown, hpage⟩ := PageReady.next hl n (nextRequest_eq_some hreq)
        refine h.goOn i ⟨n, rfl, hknown, fun y hdue _ hupTo => ?_⟩
        by_contra hopen
        exact not_mem_nil (hpage y hdue hupTo hopen)

end

/-! ## The applier -/

/-- What applying an event does: the event was passed, or it is committed and moves the cursor. -/
lemma applyEvent_cases (h : s.applyEvent x commits = some t) : (t = s ∧ s.Passed x) ∨
      (commits = true ∧ (∀ c ∈ s.cursor, After x c) ∧
        t = { s with cursor := some x, committed := s.committed ++ [x] }) := by
  unfold applyEvent at h
  cases hseen : hasEvent s.cursor x with
  | error => simp [hseen] at h
  | ok seen =>
    cases seen with
    | true =>
      simp only [hseen, some.injEq] at h
      cases hcursor : s.cursor with
      | none => simp [hcursor, hasEvent] at hseen
      | some c =>
        rw [hcursor] at hseen
        exact .inl ⟨h.symm, c, hcursor, hseen⟩
    | false =>
      rw [hseen, advanceEventCursor_of_new hseen] at h
      cases commits with
      | false => cases h
      | true =>
        refine .inr ⟨rfl, fun c hc => after_of_hasEvent ?_, (some.inj h).symm⟩
        rw [← hseen, mem_def.mp hc]

section

variable (h : Good muted s) (hx : x ∈ s.log)
  (hready : commits = true → ∀ y, s.Due y → After x y → y ∈ s.committed)

include h hx hready

/-- An event is applied when everything due before it was committed. -/
lemma Good.applied (happly : s.applyEvent x commits = some t) :
    Good muted t ∧ Later s t ∧ (t.Due x → x ∈ t.committed) := by
  rcases applyEvent_cases happly with ⟨rfl, hpassed⟩ | ⟨hcommits, hnew, rfl⟩
  · exact ⟨h, Later.refl rfl rfl rfl fun _ hy => hy, fun hdue => h.covered x hdue hpassed⟩
  · have hlater : Later s { s with cursor := some x, committed := s.committed ++ [x] } :=
      Later.refl rfl rfl rfl fun _ hy => mem_append_left _ hy
    have hself : x ∈ s.committed ++ [x] := mem_append_right _ (mem_singleton_self x)
    have hfresh : x ∉ s.committed := by
      intro hdone
      obtain ⟨c, hc, hupTo⟩ := h.passed x hdone
      exact hupTo.not_after (hnew c hc)
    refine ⟨⟨⟨h.ordered.log, h.ordered.ids, ?_⟩, ?_, ?_, ?_, ?_⟩, hlater, fun _ => hself⟩
    · rintro _ ⟨⟩
      exact hx
    · refine forall_mem_concat (fun y hold => ?_) ⟨x, rfl, UpTo.refl x⟩
      obtain ⟨c, hc, hupTo⟩ := h.passed y hold
      exact ⟨x, rfl, hupTo.of_after (hnew c hc)⟩
    · exact nodup_append.mpr ⟨h.once, nodup_singleton x, fun a ha b hb heq =>
        hfresh ((heq.trans (mem_singleton.mp hb)) ▸ ha)⟩
    · rintro y hdue ⟨c, ⟨⟩, hupTo⟩
      rcases h.ordered.eq_or_after hdue.1 hx hupTo with rfl | hafter
      · exact hself
      · exact mem_append_left _ (hready hcommits y hdue hafter)
    · exact fun l hl => (h.lanes l hl).later hlater

lemma Good.answer {next : Option Lane}
    (hnext : ∀ t l, Later s t → Good muted t → (t.Due x → x ∈ t.committed) → next = some l → t.LaneReady muted
    l) : Good muted (s.answer i x commits next) := by
  unfold Events.answer
  cases happly : s.applyEvent x commits with
  | none => exact h.endLane i
  | some t =>
    obtain ⟨hgood, hlater, hdone⟩ := h.applied hx hready happly
    cases next with
    | none => exact hgood.endLane i
    | some l => exact hgood.goOn i (hnext t l hlater hgood hdone rfl)

end

/-- The stream goes on from an event it has delivered. -/
lemma Ready.covers (h : t.Ready p x) (hgood : Good muted t)
    (hdone : t.Due x → x ∈ t.committed) : t.Covers p x := by
  refine ⟨mem_append_left _ h.1, fun y hdue hp hupTo => ?_⟩
  rcases hgood.ordered.eq_or_after hdue.1 h.1 hupTo with rfl | hafter
  · exact hdone hdue
  · exact h.2 y hdue hp hafter

/-- What is due before the first event of a page was committed. -/
lemma PageReady.head (h : s.PageReady (x :: page) next) (hdue : s.Due y) (hafter : After x y) :
    y ∈ s.committed := by
  by_contra hopen
  have hnot : ¬ After y x := hafter.upTo.not_after
  rcases h.rest y hdue hopen with hpage | hnewer
  · rcases mem_cons.mp hpage with rfl | hpage
    · exact (UpTo.refl y).not_after hafter
    · exact hnot (rel_of_pairwise_cons h.ordered hpage)
  · exact hnot (hnewer x mem_cons_self)

lemma PageReady.tail (h : t.PageReady (x :: page) next) (hdone : t.Due x → x ∈ t.committed) :
    t.PageReady page next where
  log z hz := h.log z (mem_cons_of_mem x hz)
  ordered := h.ordered.of_cons
  rest y hdue hopen := by
    rcases h.rest y hdue hopen with hpage | hnewer
    · rcases mem_cons.mp hpage with rfl | hpage
      · exact absurd (hdone hdue) hopen
      · exact .inl hpage
    · exact .inr fun z hz => hnewer z (mem_cons_of_mem x hz)
  next n hn := by
    obtain ⟨hknown, hpage⟩ := h.next n hn
    refine ⟨hknown, fun y hdue hupTo hopen => ?_⟩
    rcases mem_cons.mp (hpage y hdue hupTo hopen) with rfl | hpage
    · exact absurd (hdone hdue) hopen
    · exact hpage

end Events

/-! ## Whole runs -/

/-- The event of the stream that a lane has enqueued. -/
def Lane.streamed : Lane → Option String
  | .sent id => some id
  | .orphan id filtered => if filtered then some id else none
  | _ => none

/-- A lane begins at a cursor, and an event of the stream is committed only when the cursor has
passed the muted events before it. -/
def LaneOp.InOrder (muted : String → Bool) (s : Events) : LaneOp → Prop
  | .start answered _ => s.cursor.isSome ∨ answered = true ∧ s.log ≠ []
  | .connect readable => readable = true ∧ s.cursor.isSome
  | .poll readable _ => readable = true ∧ s.cursor.isSome
  | .apply i commits => commits = true → ∀ x ∈ s.lanes[i]?.bind Lane.streamed, ∀ y ∈ s.log,
      muted y = true → After x y → s.Due y → s.Passed y
  | _ => True

namespace Events

variable {s t : Events} {x y z c : String}

variable (h : Good muted s)

include h

/-- What is due before an event of the stream, when the muted events before it were passed. -/
lemma Good.ready_of_heard (hp : ∀ y, Heard muted y → p y) (hx : s.Ready p x)
    (hmuted : ∀ y ∈ s.log, muted y = true → After x y → s.Due y → s.Passed y) (hdue : s.Due y)
    (hafter : After x y) : y ∈ s.committed := by
  cases hy : muted y with
  | false => exact hx.2 y hdue (hp y hy) hafter
  | true => exact h.covered y hdue (hmuted y hdue.1 hy hafter hdue)

lemma Good.apply (i : ℕ) (commits : Bool) (hok : (LaneOp.apply i commits).InOrder muted s) :
    Good muted (laneStep muted s (.apply i commits)) := by
  simp only [laneStep]
  split
  case h_1 id hl =>
    have hready : s.Ready (Heard muted) id := h.lanes _ (mem_of_getElem? hl)
    refine h.answer i hready.1 (fun hcommits y hdue hafter => ?_) fun t l hlater hgood hdone hl' => ?_
    · exact h.ready_of_heard (fun _ hy => hy) hready (hok hcommits id (by simp [hl, Lane.streamed]))
        hdue hafter
    · cases hl'
      exact ⟨id, rfl, (hready.later hlater).covers hgood hdone⟩
  case h_2 cursor left id page last next hl =>
    have hready : s.PageReady (id :: page) next := h.lanes _ (mem_of_getElem? hl)
    refine h.answer i (hready.log id mem_cons_self)
      (fun _ y hdue hafter => hready.head hdue hafter) fun t l hlater hgood hdone hl' => ?_
    cases hl'
    exact (hready.later hlater).tail hdone
  case h_3 id filtered hl =>
    have hready : s.Ready (fun y => filtered = true → Heard muted y) id :=
      h.lanes _ (mem_of_getElem? hl)
    refine h.answer i hready.1 (fun hcommits y hdue hafter => ?_) nofun
    cases filtered with
    | false => exact hready.2 y hdue (by simp) hafter
    | true =>
      exact h.ready_of_heard (fun _ hy _ => hy) hready
        (hok hcommits id (by simp [hl, Lane.streamed])) hdue hafter
  case h_4 => exact h

lemma Good.abandon (i : ℕ) : Good muted (laneStep muted s (.abandon i)) := by
  simp only [laneStep]
  split
  case h_1 id hl =>
    have hready : s.Ready (Heard muted) id := h.lanes _ (mem_of_getElem? hl)
    exact h.goOn i ⟨hready.1, fun y hdue hheard hafter => hready.2 y hdue (hheard rfl) hafter⟩
  case h_2 cursor left id page last next hl =>
    have hready : s.PageReady (id :: page) next := h.lanes _ (mem_of_getElem? hl)
    exact h.goOn i ⟨hready.log id mem_cons_self, fun y hdue _ hafter => hready.head hdue hafter⟩
  case h_3 => exact h
  case h_4 => exact h.endLane i

lemma Good.laneStep (op : LaneOp) (hok : op.InOrder muted s) :
    Good muted (laneStep muted s op) := by
  cases op with
  | publish id => exact h.publish id
  | start _ maxPages => exact h.start maxPages hok
  | connect =>
    obtain ⟨rfl, hsome⟩ := hok
    obtain ⟨c, hc⟩ := isSome_iff_exists.mp hsome
    exact h.begin ⟨c, by simp [hc], h.covers_cursor hc _⟩
  | poll =>
    obtain ⟨rfl, hsome⟩ := hok
    obtain ⟨c, hc⟩ := isSome_iff_exists.mp hsome
    exact h.begin ⟨c, hc, h.covers_cursor hc _⟩
  | receive i =>
    simp only [Managed.laneStep]
    split
    · next hl => exact h.receive i (h.lanes _ (mem_of_getElem? hl))
    · exact h
  | fetch i next =>
    simp only [Managed.laneStep]
    split
    · next hl => exact h.fetch i (h.lanes _ (mem_of_getElem? hl)) next
    · exact h
  | enqueue i =>
    simp only [Managed.laneStep]
    split
    · next hl => exact h.enqueue i (h.lanes _ (mem_of_getElem? hl))
    · exact h
  | apply i commits => exact h.apply i commits hok
  | abandon i => exact h.abandon i
  | crash => exact h.of_lanes fun l hl => absurd hl not_mem_nil

end Events

instance (s : Events) (y : String) : Decidable (s.Due y) :=
  inferInstanceAs (Decidable (_ ∧ ∀ w ∈ s.watermark, _))

instance (s : Events) (y : String) : Decidable (s.Passed y) :=
  inferInstanceAs (Decidable (∃ c ∈ s.cursor, _))

instance LaneOp.decidableInOrder (muted : String → Bool) (s : Events) (op : LaneOp) :
    Decidable (op.InOrder muted s) := by
  cases op <;> unfold LaneOp.InOrder <;> infer_instance

/-- No event is skipped in a run whose lanes begin at a cursor and whose stream waits for the muted
events before its own. -/
theorem laneRun_noneSkipped (muted : String → Bool) (ops : List LaneOp)
    (h : AllSteps (laneStep muted) (LaneOp.InOrder muted) Events.init ops) :
    (laneRun muted ops).NoneSkipped := by
  have hgood : Events.Good muted (laneRun muted ops) :=
    h.foldl Events.Good.init fun _ op hs hok => hs.laneStep op hok
  exact hgood.noneSkipped

/-! ## A muted event is skipped -/

/-- The first start reads `2-0` from the log; then a muted event and one of the stream follow. -/
def mutedTrace : List LaneOp :=
  [.publish "1-0", .start true 1, .publish "2-0", .fetch 0 none, .enqueue 0, .apply 0 true, .enqueue 0,
    .publish "3-0", .publish "4-0", .connect true, .receive 0]

/-- The log lane gets to the muted event before the applier gets to the event of the stream. -/
theorem laneRun_noneSkipped_muted : (laneRun (· = "3-0") (mutedTrace ++
      [.poll true 1, .fetch 1 none, .enqueue 1, .apply 1 true, .apply 0 true])).NoneSkipped :=
  laneRun_noneSkipped _ _ (by decide)

/-- The event of the stream moves the cursor past the muted one, and no later page contains it. -/
theorem muted_event_skipped :
    AllSteps (laneStep (· = "3-0")) (LaneOp.InOrder (· = "3-0")) Events.init mutedTrace ∧
      ¬ (laneRun (· = "3-0") (mutedTrace ++ [.apply 0 true])).NoneSkipped ∧
      (laneRun (· = "3-0") (mutedTrace ++ [.apply 0 true])).cursor = some "4-0" ∧
      (laneRun (· = "3-0") (mutedTrace ++ [.apply 0 true])).committed = ["2-0", "4-0"] := by
  refine ⟨by decide, fun h => ?_, by decide, by decide⟩
  have hcount := h "3-0" (by decide) (by decide)
  exact absurd hcount (by decide)

end Replicant.Managed
