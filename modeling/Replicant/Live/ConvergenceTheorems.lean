import Replicant.Live.Publication

/-!
# The browser converges

The connection drops only what the snapshot has, and the handler takes its snapshot while nothing is
published. When nothing is under way any more, the browser has what the daemon has.
-/

namespace Replicant.Live

open Lib Web List Option DaemonState

namespace LiveSystem

variable {s : LiveSystem} {op : LiveOp}

/-! ## The connection -/

/-- A message at or below the marker is a replay wherever it stands. -/
lemma replay_drop {state : DaemonState} {revision : ℕ} {message : LiveMessage}
    {first second : List LiveMessage} (hrevision : state.revision = some revision)
    (hle : message.revision ≤ revision) :
    state.replay (first ++ message :: second) = state.replay (first ++ second) := by
  rw [replay_append, replay_append]
  obtain ⟨next, hnext, hmono⟩ := le_revision_replay first hrevision
  show ((state.replay first).live message).replay second = _
  rw [live_of_le hnext (Nat.le_trans hle hmono)]

section

variable (h : s.Inv)

include h

/-- The messages of the connection move, or are dropped as replays. -/
lemma Inv.moved {t : LiveSystem}
    (ht : t = { s with socket := t.socket, queue := t.queue, wire := t.wire })
    (hinit : t.initial = s.initial)
    (hbounded : ∀ message ∈ t.pending, message.revision ≤ s.revision)
    (hreplay : ∀ state revision, s.base = some state → state.revision = some revision →
      (∀ initial, s.initial = some initial → initial ≤ revision) →
      state.replay t.pending = state.replay s.pending) : t.Inv := by
  rw [ht] at hinit hbounded hreplay ⊢
  refine ⟨h.numbered, h.tick, h.known, h.slices, hbounded, h.unloaded, h.loaded, h.quiet, ?_, ?_, ?_⟩
  · rw [hinit]
    exact h.marked
  · rw [hinit]
    exact h.connected
  · intro state hstate
    obtain ⟨hkeeps, revision, hrevision, hmark⟩ := h.eventual state hstate
    rw [hinit, hreplay state revision hstate hrevision hmark]
    exact ⟨{ hkeeps with }, revision, hrevision, hmark⟩

lemma Inv.subscribe : (s.step .subscribe).Inv := by
  unfold step
  dsimp only
  split
  · next hclosed =>
    refine h.moved rfl ?_ h.bounded fun _ _ _ _ _ => rfl
    simp [LiveSystem.initial, hclosed]
  · exact h

/-- The marker is read while the snapshot is not older. -/
lemma Inv.mark : (s.step .mark).Inv := by
  unfold step
  dsimp only
  split
  · next hsubscribed =>
    have hnone : s.initial = none := by simp [LiveSystem.initial, hsubscribed]
    have hnot : s.hasMetered = false := by
      cases hmeter : s.hasMetered with
      | false => rfl
      | true =>
        obtain ⟨initial, hinit⟩ := h.connected hmeter
        cases hnone.symm.trans hinit
    refine ⟨h.numbered, h.tick, h.known, h.slices, h.bounded, h.unloaded, h.loaded, h.quiet, ?_,
      fun _ => ⟨s.revision, rfl⟩, ?_⟩
    · intro initial hinit
      cases hinit
      exact Nat.le_refl _
    · intro state hstate
      obtain ⟨hkeeps, -⟩ := h.eventual state hstate
      refine ⟨{ hkeeps with }, s.revision, ?_, ?_⟩
      · unfold base at hstate
        unfold hasMetered at hnot
        cases hhandler : s.handler with
        | idle => simp [hhandler] at hstate
        | listed =>
          have hinit := h.unloaded (by simp [hhandler])
          simp only [hhandler, some.injEq, hinit] at hstate
          rw [← hstate]
          rfl
        | _ => simp [hhandler] at hnot
      · intro initial hinit
        cases hinit
        exact Nat.le_refl _
  · exact h

lemma Inv.sendMarker : (s.step .sendMarker).Inv := by
  unfold step
  dsimp only
  split
  · next initial hmarked =>
    have hinit : s.initial = some initial := by simp [LiveSystem.initial, hmarked]
    have hpend : ∀ tail, s.buffered ++ (s.wire ++ [⟨initial, .snapshot⟩]) ++ s.queue ++ tail =
        s.buffered ++ s.wire ++ ⟨initial, .snapshot⟩ :: (s.queue ++ tail) := by
      simp
    refine h.moved rfl hinit.symm ?_ ?_
    · intro message hmsg
      simp only [pending, hpend] at hmsg
      rcases mem_append.mp hmsg with hleft | hright
      · exact h.bounded message (by simp only [pending]; simp at hleft ⊢; tauto)
      · rcases mem_cons.mp hright with rfl | hright
        · exact h.marked initial hinit
        · exact h.bounded message (by simp only [pending]; simp at hright ⊢; tauto)
    · intro state revision _ hrevision hmark
      simp only [pending, hpend]
      rw [replay_drop hrevision (hmark initial hinit)]
      simp
  · exact h

lemma Inv.forward : (s.step .forward).Inv := by
  unfold step
  dsimp only
  split
  · next initial message rest hforwarding hqueue =>
    have hinit : s.initial = some initial := by simp [LiveSystem.initial, hforwarding]
    split
    · next hle =>
      refine h.moved (by rw [hforwarding]) rfl ?_ ?_
      · intro other hother
        refine h.bounded other ?_
        simp only [pending, hqueue] at hother ⊢
        simp at hother ⊢
        tauto
      · intro state revision _ hrevision hmark
        have hmsg : message.revision ≤ revision := Nat.le_trans hle (hmark initial hinit)
        have hsplit : s.pending = s.buffered ++ s.wire ++
            message :: (rest ++ s.publication.toList.map (·.message)) := by
          simp [pending, hqueue]
        rw [hsplit, replay_drop hrevision hmsg]
        simp [pending]
    · have hsame : s.buffered ++ (s.wire ++ [message]) ++ rest =
          s.buffered ++ s.wire ++ s.queue := by
        rw [hqueue]
        simp
      refine h.moved (by rw [hforwarding]) rfl ?_ ?_
      · intro other hother
        refine h.bounded other ?_
        simp only [pending, hsame] at hother ⊢
        exact hother
      · intro state revision _ _ _
        simp only [pending, hsame]
  · exact h

/-! ## The snapshot -/

/-- The handler begins: the snapshot that it would give is up to date. -/
lemma Inv.list (hok : s.Undisturbed .list) : (s.step .list).Inv := by
  have hfree : s.publication = none := isNone_iff_eq_none.mp hok
  unfold step
  dsimp only
  split
  · next hidle =>
    have hbrow := h.unloaded (by rw [hidle]; nofun)
    refine ⟨h.numbered, h.tick, h.known, h.slices, h.bounded, fun _ => hbrow, nofun,
      fun _ => hfree, h.marked, nofun, ?_⟩
    intro state hstate
    have hstate' : some (s.browser.loadSnapshot ⟨s.revision, s.rows, s.sliceRevisions⟩) =
        some state := hstate
    rw [hbrow] at hstate'
    have hrevision : state.revision = some s.revision := by
      cases hstate'
      rfl
    refine ⟨?_, s.revision, hrevision, h.marked⟩
    show KeepsUp _ (state.replay s.pending)
    rw [replay_of_le hrevision h.bounded]
    cases hstate'
    refine ⟨rfl, rfl, ?_, ?_, (target_of_publication hfree).symm,
      fun slice old hold => h.slices slice old (.inl hold)⟩
    · intro row hrow revision hrev
      exact ⟨row, fromEntries_of_mem h.numbered.1 hrow,
        (h.known row.id revision hrev).2 row hrow rfl⟩
    · intro id summary hsumm
      obtain ⟨hmem, hid⟩ := fromEntries_eq_some hsumm
      exact ⟨hid, h.numbered.fits hmem⟩
  · exact h

lemma Inv.meter (hok : s.Undisturbed .meter) : (s.step .meter).Inv := by
  unfold step
  dsimp only
  split
  · next workflows hlisted =>
    have hbrow := h.unloaded (by rw [hlisted]; nofun)
    have hfree := h.quiet (by simp [reading, hlisted])
    refine { h with
      unloaded := fun _ => hbrow
      loaded := nofun
      quiet := fun _ => hfree
      connected := fun _ => isSome_iff_exists.mp hok
      eventual := fun state hstate => ?_ }
    have hold : s.base = some state := by
      unfold base at hstate ⊢
      rw [hlisted]
      exact hstate
    exact ⟨{ (h.eventual state hold).1 with }, (h.eventual state hold).2⟩
  · exact h

lemma Inv.answer : (s.step .answer).Inv := by
  unfold step
  dsimp only
  split
  · next workflows revision hmeter =>
    have hbrow := h.unloaded (by rw [hmeter]; nofun)
    refine { h with
      unloaded := fun _ => hbrow
      loaded := nofun
      quiet := nofun
      connected := fun _ => h.connected (by simp [hasMetered, hmeter])
      eventual := fun state hstate => ?_ }
    have hold : s.base = some state := by
      unfold base at hstate ⊢
      rw [hmeter]
      exact hstate
    exact ⟨{ (h.eventual state hold).1 with }, (h.eventual state hold).2⟩
  · exact h

lemma Inv.load : (s.step .load).Inv := by
  unfold step
  dsimp only
  split
  · next snapshot hanswered =>
    have hold : s.base = some (s.browser.loadSnapshot snapshot) := by
      unfold base
      rw [hanswered]
    obtain ⟨hkeeps, revision, hrevision, hmark⟩ := h.eventual _ hold
    refine { h with
      bounded := fun message hmsg => h.bounded message ?_
      unloaded := fun hnot => absurd rfl hnot
      loaded := fun _ => rfl
      quiet := nofun
      connected := fun _ => h.connected (by simp [hasMetered, hanswered])
      eventual := fun state hstate => ?_ }
    · simp only [pending, nil_append] at hmsg ⊢
      simp at hmsg ⊢
      tauto
    · cases hstate
      obtain ⟨next, hnext, hle⟩ := le_revision_replay s.buffered hrevision
      refine ⟨?_, next, hnext, fun initial hinit => Nat.le_trans (hmark initial hinit) hle⟩
      have hsame : ((s.browser.loadSnapshot snapshot).replay s.buffered).replay
          ([] ++ s.wire ++ s.queue ++ s.publication.toList.map (·.message)) =
          (s.browser.loadSnapshot snapshot).replay s.pending := by
        rw [← replay_append]
        simp [pending]
      simp only [pending]
      rw [hsame]
      exact { hkeeps with }
  · exact h

lemma Inv.deliver : (s.step .deliver).Inv := by
  unfold step
  dsimp only
  split
  · next message rest hwire hdelivered =>
    have hbuffered := h.loaded hdelivered
    have hold : s.base = some s.browser := by
      unfold base
      rw [hdelivered]
    obtain ⟨hkeeps, revision, hrevision, hmark⟩ := h.eventual _ hold
    refine { h with
      bounded := fun other hother => h.bounded other ?_
      unloaded := fun hnot => absurd hdelivered hnot
      eventual := fun state hstate => ?_ }
    · simp only [pending, hwire] at hother ⊢
      simp at hother ⊢
      tauto
    · have hstate' : s.browser.live message = state := by
        simp only [base, hdelivered, some.injEq] at hstate
        exact hstate
      rw [← hstate']
      obtain ⟨next, hnext, hle⟩ := le_revision_live message hrevision
      refine ⟨?_, next, hnext, fun initial hinit => Nat.le_trans (hmark initial hinit) hle⟩
      have hsame : (s.browser.live message).replay
          (s.buffered ++ rest ++ s.queue ++ s.publication.toList.map (·.message)) =
          s.browser.replay s.pending := by
        simp only [pending, hwire, hbuffered, nil_append, cons_append]
        rfl
      simp only [pending]
      rw [hsame]
      exact { hkeeps with }
  · next message rest hwire hnot =>
    have hsame : s.buffered ++ [message] ++ rest = s.buffered ++ s.wire := by
      rw [hwire]
      simp
    refine { h with
      bounded := fun other hother => h.bounded other ?_
      loaded := fun hdelivered => absurd hdelivered (by simpa using hnot)
      eventual := fun state hstate => ?_ }
    · simp only [pending, hsame] at hother ⊢
      exact hother
    · obtain ⟨hkeeps, hmark⟩ := h.eventual state hstate
      simp only [pending, hsame]
      exact ⟨{ hkeeps with }, hmark⟩
  · exact h

/-! ## Runs -/

lemma Inv.step (hok : s.Undisturbed op) : (s.step op).Inv := by
  cases op with
  | createRow summary => exact h.createRow summary
  | changeRow id summary => exact h.changeRow id summary
  | deleteRow id => exact h.deleteRow id
  | tickRead => exact h.tickRead
  | tickNext => exact h.tickNext hok
  | flush => exact h.flush hok
  | publish => exact h.publish hok
  | record => exact h.record
  | send => exact h.send
  | subscribe => exact h.subscribe
  | mark => exact h.mark
  | sendMarker => exact h.sendMarker
  | forward => exact h.forward
  | list => exact h.list hok
  | meter => exact h.meter hok
  | answer => exact h.answer
  | load => exact h.load
  | deliver => exact h.deliver

end

lemma inv_start {rows : List WorkflowSummary} {created : ℕ} (revision : ℕ)
    (h : Numbered rows created) : (start rows created revision).Inv where
  numbered := h
  tick := nofun
  known := by
    intro id revision hrevision
    obtain ⟨row, hrow, rfl⟩ := map_eq_some_iff.mp hrevision
    have hmem := mem_of_find?_eq_some hrow
    have hid : row.id = id := by simpa using find?_some hrow
    refine ⟨hid ▸ h.2 row hmem, fun other hother hother' => ?_⟩
    rw [inj_on_of_nodup_map h.1 hother hmem (hother'.trans hid.symm)]
  slices := by
    rintro slice revision (hslice | hslice) <;> cases hslice
  bounded := by simp [pending, start]
  unloaded := fun _ => rfl
  loaded := nofun
  quiet := fun _ => rfl
  marked := nofun
  connected := nofun
  eventual := nofun

lemma Inv.converged (h : s.Inv) (hquiet : s.Quiescent) : s.Converged := by
  have hdelivered : s.handler = .delivered := by
    have hloaded := hquiet.loaded
    cases hhandler : s.handler with
    | delivered => rfl
    | _ => simp [hhandler] at hloaded
  have hbase : s.base = some s.browser := by
    unfold base
    rw [hdelivered]
  have hpend : s.pending = [] := by
    simp [pending, h.loaded hdelivered, hquiet.wire, hquiet.queue, hquiet.publication]
  obtain ⟨hkeeps, -⟩ := h.eventual _ hbase
  rw [hpend] at hkeeps
  refine ⟨fun row hrow => ?_, hkeeps.invalidated.trans (target_of_publication hquiet.publication),
    hkeeps.continuous⟩
  -- What the browser has is not older than what is published, and not newer than the row.
  obtain ⟨summary, hsumm, hle⟩ := hkeeps.workflows row hrow _ (hquiet.published row hrow)
  obtain ⟨hid, hfits⟩ := hkeeps.fits row.id summary hsumm
  have hbehind := hfits.1.2 row hrow hid.symm
  rw [← hfits.2 row hrow hid.symm (Nat.le_antisymm hbehind hle)]
  rw [hid]
  exact hsumm

/-- If nothing is published while the snapshot is read, the marker is read before it, and no
requirement is published after that, then the browser converges to the daemon. -/
theorem converged_of_undisturbed (rows : List WorkflowSummary) (created revision : ℕ)
    (ops : List LiveOp) (hrows : Numbered rows created)
    (hok : AllSteps step Undisturbed (start rows created revision) ops)
    (hquiet : (ops.foldl step (start rows created revision)).Quiescent) :
    (ops.foldl step (start rows created revision)).Converged := by
  have hinv := hok.foldl (inv_start revision hrows) fun _ _ hinv hok => hinv.step hok
  exact hinv.converged hquiet

def sampleWorkflow : WorkflowSummary := ⟨0, "survey", .queued, none, 1, 0⟩

/-- A workflow changes and a slice is invalidated after the snapshot is read. -/
theorem converged_sample : Converged (List.foldl step (start [sampleWorkflow] 1 5)
      [.subscribe, .mark, .list, .meter, .sendMarker, .changeRow 0 sampleWorkflow, .answer, .tickRead,
        .tickNext, .record, .send, .tickNext, .forward, .deliver, .deliver, .flush [.devices], .load,
        .record, .send, .forward, .deliver]) := by
  refine converged_of_undisturbed _ _ _ _ (by decide) (by decide) ⟨by decide, rfl, rfl, rfl, rfl⟩

/-- A workflow changes and is published between the read of the rows and that of the revision. -/
theorem exists_stale_browser : ∃ rows created revision ops, Numbered rows created ∧
    (List.foldl step (start rows created revision) ops).Quiescent ∧
    ¬ (List.foldl step (start rows created revision) ops).Converged := by
  refine ⟨[sampleWorkflow], 1, 5, [.subscribe, .mark, .sendMarker, .deliver, .list,
    .changeRow 0 sampleWorkflow, .tickRead, .tickNext, .record, .send, .tickNext, .forward, .deliver,
    .meter, .answer, .load], by decide, ⟨by decide, rfl, rfl, rfl, rfl⟩, fun h => ?_⟩
  have hwfs := h.workflows
  revert hwfs
  decide

end LiveSystem

end Replicant.Live
