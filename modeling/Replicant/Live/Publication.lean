import Replicant.Live.Convergence

/-!
# Publications and what the browser is about to have

From the first read of the snapshot handler on there is a state that the browser will have when all
messages under way are delivered. It keeps up with what is published, as long as nothing is
published while the handler reads.
-/

namespace Replicant.Live

open Lib Web List

variable {created revision : ℕ} {slices : List DomainSlice}

namespace LiveSystem

variable {s : LiveSystem} {op : LiveOp} {known : ℕ → Option ℕ}
  {tick : Option (List WorkflowSummary × List ℕ)} {current : SliceRevisions} {created' : ℕ}

/-! ## Rows and their copies -/

/-- The published revision of a workflow is not ahead of its row. -/
def Behind (rows : List WorkflowSummary) (created id revision : ℕ) : Prop :=
  id < created ∧ ∀ row ∈ rows, row.id = id → revision ≤ row.revision

/-- A summary of a row is older than the row, or the row itself. -/
def Fits (rows : List WorkflowSummary) (created : ℕ) (summary : WorkflowSummary) : Prop :=
  Behind rows created summary.id summary.revision ∧
    ∀ row ∈ rows, row.id = summary.id → summary.revision = row.revision → summary = row

/-- How rows may change: by higher revisions, or with new ids. -/
def Succeeds (rows rows' : List WorkflowSummary) (created created' : ℕ) : Prop :=
  created ≤ created' ∧ ∀ row' ∈ rows', row'.id < created →
    row' ∈ rows ∨ ∃ row ∈ rows, row.id = row'.id ∧ row.revision < row'.revision

section

variable {rows rows' : List WorkflowSummary} (hrows : Succeeds rows rows' created created')

include hrows

lemma Behind.succeeds {id : ℕ} (h : Behind rows created id revision) :
    Behind rows' created' id revision := by
  refine ⟨Nat.lt_of_lt_of_le h.1 hrows.1, fun row' hrow' hid => ?_⟩
  rcases hrows.2 row' hrow' (hid ▸ h.1) with hsame | ⟨row, hrow, hrid, hlt⟩
  · exact h.2 row' hsame hid
  · have hle := h.2 row hrow (hrid.trans hid)
    omega

/-- A summary of a row that changed is older than it. -/
lemma Fits.succeeds {summary : WorkflowSummary} (h : Fits rows created summary) :
    Fits rows' created' summary := by
  refine ⟨h.1.succeeds hrows, fun row' hrow' hid heq => ?_⟩
  rcases hrows.2 row' hrow' (hid ▸ h.1.1) with hsame | ⟨row, hrow, hrid, hlt⟩
  · exact h.2 row' hsame hid heq
  · have hle := h.1.2 row hrow (hrid.trans hid)
    omega

end

/-- A row fits itself. -/
lemma Numbered.fits {rows : List WorkflowSummary} (h : Numbered rows created)
    {row : WorkflowSummary} (hrow : row ∈ rows) : Fits rows created row := by
  have hsame : ∀ other ∈ rows, other.id = row.id → other = row := fun other hother hid =>
    inj_on_of_nodup_map h.1 hother hrow hid
  refine ⟨⟨h.2 row hrow, fun other hother hid => ?_⟩, fun other hother hid _ => ?_⟩
  · rw [hsame other hother hid]
  · exact (hsame other hother hid).symm

/-! ## What the browser is about to have -/

/-- The browser with the snapshot that the handler is about to answer. -/
def base (s : LiveSystem) : Option DaemonState :=
  match s.handler with
  | .idle => none
  | .listed workflows => some (s.browser.loadSnapshot ⟨s.revision, workflows, s.sliceRevisions⟩)
  | .metered workflows revision =>
    some (s.browser.loadSnapshot ⟨revision, workflows, s.sliceRevisions⟩)
  | .answered snapshot => some (s.browser.loadSnapshot snapshot)
  | .delivered => some s.browser

/-- The messages on their way to the browser, the next one first. -/
def pending (s : LiveSystem) : List LiveMessage :=
  s.buffered ++ s.wire ++ s.queue ++ s.publication.toList.map (·.message)

/-- The slice revisions, with those that are about to be recorded. -/
def target (s : LiveSystem) : SliceRevisions :=
  match s.publication with
  | some ⟨message, false⟩ => recordSlices s.sliceRevisions message.delta
  | _ => s.sliceRevisions

/-- The state keeps up with the daemon. -/
structure KeepsUp (s : LiveSystem) (state : DaemonState) : Prop where
  continuous : state.needsResnapshot = false
  revision : state.revision = some s.revision
  workflows : ∀ row ∈ s.rows, ∀ revision, s.known row.id = some revision →
    ∃ summary, state.workflows row.id = some summary ∧ revision ≤ summary.revision
  fits : ∀ id summary, state.workflows id = some summary →
    summary.id = id ∧ Fits s.rows s.created summary
  invalidated : state.invalidated = s.target
  below : ∀ slice revision, state.invalidated slice = some revision → revision ≤ s.revision

/-- The handler has read the revision. -/
def hasMetered (s : LiveSystem) : Bool :=
  match s.handler with
  | .idle | .listed _ => false
  | .metered _ _ | .answered _ | .delivered => true

structure Inv (s : LiveSystem) : Prop where
  numbered : Numbered s.rows s.created
  tick : ∀ tick, s.tick = some tick → ∀ summary ∈ tick.1, Fits s.rows s.created summary
  known : ∀ id revision, s.known id = some revision → Behind s.rows s.created id revision
  slices : ∀ slice revision, s.sliceRevisions slice = some revision ∨ s.target slice = some revision →
    revision ≤ s.revision
  bounded : ∀ message ∈ s.pending, message.revision ≤ s.revision
  unloaded : s.handler ≠ .delivered → s.browser = .initial
  loaded : s.handler = .delivered → s.buffered = []
  quiet : s.reading = true → s.publication = none
  marked : ∀ initial, s.initial = some initial → initial ≤ s.revision
  connected : s.hasMetered = true → ∃ initial, s.initial = some initial
  eventual : ∀ state, s.base = some state → KeepsUp s (state.replay s.pending) ∧
    ∃ revision, state.revision = some revision ∧ ∀ initial, s.initial = some initial →
      initial ≤ revision

/-! ## The rows change -/

lemma KeepsUp.rows {state : DaemonState} {rows : List WorkflowSummary} (h : KeepsUp s state)
    (hrows : Succeeds s.rows rows s.created created)
    (hknown : ∀ row ∈ rows, ∀ revision, known row.id = some revision →
      s.known row.id = some revision ∧ row.id < s.created) :
    KeepsUp { s with rows, created, known } state where
  continuous := h.continuous
  revision := h.revision
  workflows := by
    intro row' hrow' revision hrev
    obtain ⟨hold, hlt⟩ := hknown row' hrow' revision hrev
    rcases hrows.2 row' hrow' hlt with hsame | ⟨row, hrow, hid, -⟩
    · exact h.workflows row' hsame revision hold
    · rw [← hid] at hold ⊢
      exact h.workflows row hrow revision hold
  fits := fun id summary hsumm =>
    ⟨(h.fits id summary hsumm).1, (h.fits id summary hsumm).2.succeeds hrows⟩
  invalidated := h.invalidated
  below := h.below

section

variable (h : s.Inv)

include h

lemma Inv.rows {rows : List WorkflowSummary} (hnumbered : Numbered rows created)
    (hrows : Succeeds s.rows rows s.created created) : Inv { s with rows, created } :=
  { h with
    numbered := hnumbered
    tick := fun tick htick summary hsumm => (h.tick tick htick summary hsumm).succeeds hrows
    known := fun id revision hrev => (h.known id revision hrev).succeeds hrows
    eventual := fun state hstate => ⟨(h.eventual state hstate).1.rows hrows
      fun row _ revision hrev => ⟨hrev, (h.known row.id revision hrev).1⟩,
      (h.eventual state hstate).2⟩ }

lemma Inv.createRow (summary : WorkflowSummary) : (s.step (.createRow summary)).Inv := by
  refine h.rows ⟨?_, ?_⟩ ⟨Nat.le_succ _, ?_⟩
  · rw [map_append, nodup_append]
    refine ⟨h.numbered.1, by simp, fun id hid other hother heq => ?_⟩
    obtain ⟨row, hrow, rfl⟩ := mem_map.mp hid
    have hlt := h.numbered.2 row hrow
    simp only [map_cons, map_nil, mem_singleton] at hother
    omega
  · exact forall_mem_concat (fun row hold => Nat.lt_succ_of_lt (h.numbered.2 row hold))
      (Nat.lt_succ_self _)
  · exact forall_mem_concat (fun row hold _ => .inl hold) fun hlt => absurd hlt (Nat.lt_irrefl _)

lemma Inv.changeRow (id : ℕ) (summary : WorkflowSummary) :
    (s.step (.changeRow id summary)).Inv := by
  have hid : ∀ row : WorkflowSummary, (if row.id = id then
      { summary with id := id, kind := row.kind, revision := row.revision + 1 } else row).id =
      row.id := by
    intro row
    split
    · next heq => exact heq.symm
    · rfl
  refine h.rows ⟨?_, ?_⟩ ⟨Nat.le_refl _, ?_⟩
  · rw [map_map, show (WorkflowSummary.id ∘ _) = WorkflowSummary.id from funext hid]
    exact h.numbered.1
  · intro row' hrow'
    obtain ⟨row, hrow, rfl⟩ := mem_map.mp hrow'
    rw [hid]
    exact h.numbered.2 row hrow
  · intro row' hrow' _
    obtain ⟨row, hrow, rfl⟩ := mem_map.mp hrow'
    by_cases heq : row.id = id
    · refine .inr ⟨row, hrow, (hid row).symm, ?_⟩
      rw [if_pos heq]
      exact Nat.lt_succ_self _
    · rw [if_neg heq]
      exact .inl hrow

lemma Inv.deleteRow (id : ℕ) : (s.step (.deleteRow id)).Inv := by
  refine h.rows ⟨?_, fun row hrow => h.numbered.2 row (mem_of_mem_filter hrow)⟩
    ⟨Nat.le_refl _, fun row hrow _ => .inl (mem_of_mem_filter hrow)⟩
  exact h.numbered.1.sublist (filter_sublist.map _)

/-- The daemon goes through its rows, and may forget what it has published. -/
lemma Inv.withTick (htick : ∀ t, tick = some t → ∀ summary ∈ t.1, Fits s.rows s.created summary)
    (hsub : ∀ id revision, known id = some revision → s.known id = some revision) :
    Inv { s with known, tick } :=
  { h with
    tick := htick
    known := fun id revision hrev => h.known id revision (hsub id revision hrev)
    eventual := fun state hstate => ⟨{ (h.eventual state hstate).1 with
      workflows := fun row hrow revision hrev =>
        (h.eventual state hstate).1.workflows row hrow revision (hsub _ _ hrev) },
      (h.eventual state hstate).2⟩ }

lemma Inv.tickRead : (s.step .tickRead).Inv := by
  unfold step
  dsimp only
  split
  · refine h.withTick (fun tick htick summary hsumm => ?_) fun _ _ hrev => hrev
    cases htick
    exact h.numbered.fits hsumm
  · exact h

end

/-! ## Publications -/

lemma target_of_publication (h : s.publication = none) : s.target = s.sliceRevisions := by
  simp [target, h]

/-- Where every recorded revision is at most the new one, the maximum is the new one. -/
lemma mergeSlices_eq (hpos : 0 < revision)
    (h : ∀ slice old, current slice = some old → old ≤ revision) :
    DaemonState.mergeSlices current (slices.map fun slice => (slice, revision)) =
      recordSlices current (.domainsInvalidated (slices.map fun slice => (slice, revision))) := by
  unfold recordSlices DaemonState.mergeSlices
  induction slices generalizing current with
  | nil => rfl
  | cons slice slices ih =>
    have hstep : (fun other => if other = slice ∧ (current other).getD 0 < revision then some revision
        else current other) = fun other => if other = slice then some revision else current other := by
      funext other
      by_cases heq : other = slice
      · simp only [heq, true_and, if_true]
        split
        · rfl
        · next hnot =>
          cases hcur : current slice with
          | none => simp [hcur] at hnot; omega
          | some old =>
            have hle := h slice old hcur
            simp [hcur] at hnot
            rw [Nat.le_antisymm hle hnot]
      · simp [heq]
    simp only [map_cons, foldl_cons]
    rw [hstep]
    apply ih
    intro other old hold
    split at hold
    · cases hold
      exact Nat.le_refl _
    · exact h other old hold

lemma recordSlices_le {old : ℕ} {slice : DomainSlice}
    (h : ∀ slice old, current slice = some old → old ≤ revision)
    (hslice : recordSlices current (.domainsInvalidated (slices.map fun slice => (slice, revision)))
      slice = some old) : old ≤ revision := by
  induction slices generalizing current with
  | nil => exact h slice old hslice
  | cons first slices ih =>
    refine ih (fun other old hold => ?_) hslice
    dsimp only at hold
    split at hold
    · cases hold
      exact Nat.le_refl _
    · exact h other old hold

variable (h : s.Inv)

include h

/-- A publication begins, with what `publish_workflow_updates` notes down. -/
lemma Inv.bump {delta : ℕ → LiveDelta} (hreading : s.reading = false) (hfree : s.publication = none)
    (hdelta : ∀ revision, delta revision ≠ .snapshot)
    (hslices : ∀ slices, delta (s.revision + 1) = .domainsInvalidated slices →
      ∃ list : List DomainSlice, slices = list.map fun slice => (slice, s.revision + 1))
    (htick : ∀ t, tick = some t → ∀ summary ∈ t.1, Fits s.rows s.created summary)
    (hknown : ∀ id revision, known id = some revision → Behind s.rows s.created id revision)
    (hkeeps : ∀ state, s.handler ≠ .idle → KeepsUp s state →
      KeepsUp (LiveSystem.bump { s with known, tick } delta)
        (state.apply (s.revision + 1) (delta (s.revision + 1)))) :
    (LiveSystem.bump { s with known, tick } delta).Inv := by
  have hpend : (LiveSystem.bump { s with known, tick } delta).pending =
      s.pending ++ [⟨s.revision + 1, delta (s.revision + 1)⟩] := by
    simp [LiveSystem.pending, LiveSystem.bump, hfree]
  refine ⟨h.numbered, htick, hknown, ?_, ?_, h.unloaded, h.loaded, ?_, ?_, h.connected, ?_⟩
  · have hold : ∀ slice old, s.sliceRevisions slice = some old → old ≤ s.revision + 1 :=
      fun slice old hslice => Nat.le_succ_of_le (h.slices slice old (.inl hslice))
    rintro slice revision (hslice | hslice)
    · exact hold slice revision hslice
    · have hrecord : recordSlices s.sliceRevisions (delta (s.revision + 1)) slice = some revision :=
        hslice
      cases hd : delta (s.revision + 1) with
      | domainsInvalidated found =>
        obtain ⟨list, rfl⟩ := hslices found hd
        rw [hd] at hrecord
        exact recordSlices_le hold hrecord
      | _ =>
        rw [hd] at hrecord
        exact hold slice revision hrecord
  · rw [hpend]
    exact forall_mem_concat (fun message hold => Nat.le_succ_of_le (h.bounded message hold))
      (Nat.le_refl _)
  · intro hnow
    exact absurd (hreading.symm.trans hnow) Bool.false_ne_true
  · exact fun initial hinit => Nat.le_succ_of_le (h.marked initial hinit)
  · intro state hstate
    have hbase : s.handler ≠ .idle ∧ s.base = some state := by
      unfold base at hstate ⊢
      unfold reading at hreading
      cases hhandler : s.handler with
      | idle => simp [LiveSystem.bump, hhandler] at hstate
      | listed _ | metered _ _ => simp [hhandler] at hreading
      | answered _ | delivered => exact ⟨nofun, by simpa [LiveSystem.bump, hhandler] using hstate⟩
    obtain ⟨hkeepsUp, hmark⟩ := h.eventual state hbase.2
    refine ⟨?_, hmark⟩
    rw [hpend, DaemonState.replay_append]
    show KeepsUp _ ((state.replay s.pending).live _)
    rw [DaemonState.live_of_lt hkeepsUp.continuous hkeepsUp.revision (Nat.lt_succ_self _)
      (hdelta _)]
    exact hkeeps _ hbase.1 hkeepsUp

lemma Inv.publish (hok : s.Undisturbed .publish) : (s.step .publish).Inv := by
  unfold step
  dsimp only
  split
  · next hfree =>
    have hnone : s.publication = none := Option.isNone_iff_eq_none.mp hfree
    refine h.bump hok.1 hnone (fun _ => nofun) (fun _ hother => nomatch hother) h.tick h.known ?_
    intro state _ hkeeps
    exact ⟨hkeeps.continuous, rfl, hkeeps.workflows, hkeeps.fits,
      hkeeps.invalidated.trans (target_of_publication hnone),
      fun slice revision hslice => Nat.le_succ_of_le (hkeeps.below slice revision hslice)⟩
  · exact h

lemma Inv.flush (hok : s.Undisturbed (.flush slices)) : (s.step (.flush slices)).Inv := by
  unfold step
  dsimp only
  split
  · next hfree =>
    have hnone : s.publication = none := Option.isNone_iff_eq_none.mp hfree.1
    refine h.bump hok.1 hnone (fun _ => nofun) ?_ h.tick h.known ?_
    · intro found hfound
      cases hfound
      exact ⟨slices, rfl⟩
    · intro state _ hkeeps
      have hcur := hkeeps.invalidated.trans (target_of_publication hnone)
      have hle : ∀ slice old, s.sliceRevisions slice = some old → old ≤ s.revision + 1 :=
        fun slice old hold => Nat.le_succ_of_le (h.slices slice old (.inl hold))
      have hmerge : (state.apply (s.revision + 1)
          (.domainsInvalidated (slices.map fun slice => (slice, s.revision + 1)))).invalidated =
          recordSlices s.sliceRevisions
            (.domainsInvalidated (slices.map fun slice => (slice, s.revision + 1))) := by
        show DaemonState.mergeSlices state.invalidated _ = _
        rw [hcur]
        exact mergeSlices_eq (Nat.succ_pos _) hle
      refine ⟨hkeeps.continuous, rfl, hkeeps.workflows, hkeeps.fits, hmerge, ?_⟩
      intro slice old hold
      rw [hmerge] at hold
      exact recordSlices_le hle hold
  · exact h

/-- Recording and sending a publication changes nothing for the browser. -/
lemma Inv.handOver {t : LiveSystem} (hpub : s.publication ≠ none) (ht : t = { s with
      sliceRevisions := t.sliceRevisions, publication := t.publication, queue := t.queue })
    (htgt : t.target = s.target)
    (hslices : t.sliceRevisions = s.sliceRevisions ∨ t.sliceRevisions = s.target)
    (hpend : s.socket ≠ .closed → t.pending = s.pending)
    (hsub : t.pending ⊆ s.pending) : t.Inv := by
  have hreading : s.reading ≠ true := fun hreading => hpub (h.quiet hreading)
  rw [ht] at htgt hpend hsub ⊢
  refine ⟨h.numbered, h.tick, h.known, ?_, fun message hmsg => h.bounded message (hsub hmsg),
    h.unloaded, h.loaded, fun hnow => absurd hnow hreading, h.marked, h.connected, ?_⟩
  · rintro slice revision (hslice | hslice)
    · rcases hslices with heq | heq
      · exact h.slices slice revision (.inl (heq ▸ hslice))
      · exact h.slices slice revision (.inr (heq ▸ hslice))
    · rw [htgt] at hslice
      exact h.slices slice revision (.inr hslice)
  · intro state hstate
    have hbase : s.base = some state ∧ s.hasMetered = true := by
      unfold base at hstate ⊢
      unfold reading at hreading
      unfold hasMetered
      cases hhandler : s.handler with
      | idle => simp [hhandler] at hstate
      | listed _ | metered _ _ => simp [hhandler] at hreading
      | answered _ | delivered => exact ⟨by simpa [hhandler] using hstate, rfl⟩
    obtain ⟨hkeeps, hmark⟩ := h.eventual state hbase.1
    have hopen : s.socket ≠ .closed := by
      intro hclosed
      obtain ⟨initial, hinit⟩ := h.connected hbase.2
      simp [LiveSystem.initial, hclosed] at hinit
    refine ⟨?_, hmark⟩
    rw [hpend hopen]
    exact ⟨hkeeps.continuous, hkeeps.revision, hkeeps.workflows, hkeeps.fits,
      hkeeps.invalidated.trans htgt.symm, hkeeps.below⟩

lemma Inv.record : (s.step .record).Inv := by
  unfold step
  dsimp only
  split
  · next message hpub =>
    have htgt : s.target = recordSlices s.sliceRevisions message.delta := by
      simp [target, hpub]
    refine h.handOver (by rw [hpub]; nofun) rfl htgt.symm (.inr htgt.symm) ?_ ?_
    · intro _
      simp [pending, hpub]
    · simp [pending, hpub]
  · exact h

lemma Inv.send : (s.step .send).Inv := by
  unfold step
  dsimp only
  split
  · next message hpub =>
    have htgt : s.target = s.sliceRevisions := by
      simp [target, hpub]
    refine h.handOver (by rw [hpub]; nofun) rfl htgt.symm (.inl rfl) ?_ ?_
    · intro hopen
      simp [pending, hpub, hopen]
    · intro other hother
      simp only [pending, hpub] at hother ⊢
      split at hother
      · simp only [Option.toList_none, map_nil, append_nil] at hother
        exact mem_append_left _ hother
      · simpa using hother
  · exact h

/-! ## The tick -/

/-- A row is published if its revision is new. -/
lemma Inv.tickNext (hok : s.Undisturbed .tickNext) : (s.step .tickNext).Inv := by
  unfold step
  dsimp only
  split
  · next summary rest present htick =>
    have hfits := h.tick _ htick summary mem_cons_self
    have hrest : ∀ t, some (rest, summary.id :: present) = some t → ∀ other ∈ t.1,
        Fits s.rows s.created other := by
      intro t ht other hother
      cases ht
      exact h.tick _ htick other (mem_cons_of_mem _ hother)
    split
    · next hmay =>
      unfold LiveSystem.tickNext
      split
      · next hsame =>
        refine h.withTick hrest fun id revision hrev => ?_
        split at hrev
        · next heq => rw [heq, hsame, hrev]
        · exact hrev
      · next hnew =>
        have hfree : s.publication = none := by
          rcases hmay with hsame | hfree
          · exact absurd hsame hnew
          · exact Option.isNone_iff_eq_none.mp hfree
        obtain ⟨hreading, hidle⟩ := hok _ htick summary rfl hnew
        refine h.bump hreading hfree (fun _ => nofun) (fun _ hother => nomatch hother) hrest ?_ ?_
        · intro id revision hrev
          split at hrev
          · next heq =>
            cases hrev
            rw [heq]
            exact hfits.1
          · exact h.known id revision hrev
        · intro state hstarted hkeeps
          have hkind : summary.kind ≠ DaemonState.requirementKind := by
            intro hrequirement
            have hmatches := hidle hrequirement
            cases hhandler : s.handler with
            | idle => exact hstarted hhandler
            | _ => simp [hhandler] at hmatches
          refine ⟨by simpa [DaemonState.apply] using hkind, rfl, ?_, ?_,
            hkeeps.invalidated.trans (target_of_publication hfree),
            fun slice revision hslice => Nat.le_succ_of_le (hkeeps.below slice revision hslice)⟩
          · intro row hrow revision hrev
            have hvalue : (if row.id = summary.id then some summary.revision else s.known row.id) =
                some revision := hrev
            show ∃ found, (if row.id = summary.id then some summary else state.workflows row.id) =
              some found ∧ revision ≤ found.revision
            split at hvalue
            · next heq =>
              cases hvalue
              exact ⟨summary, if_pos heq, Nat.le_refl _⟩
            · next hne =>
              rw [if_neg hne]
              exact hkeeps.workflows row hrow revision hvalue
          · intro id found hfound
            have hvalue : (if id = summary.id then some summary else state.workflows id) =
                some found := hfound
            split at hvalue
            · next heq =>
              cases hvalue
              exact ⟨heq.symm, hfits⟩
            · exact hkeeps.fits id found hvalue
    · exact h
  · next present htick =>
    refine h.withTick nofun fun id revision hrev => ?_
    split at hrev
    · exact hrev
    · cases hrev
  · exact h

end LiveSystem

end Replicant.Live
