import Replicant.Live.Provider

/-!
# The bootstrap of the provider

Who connects awaits a bootstrap, or waits for an aborted one to end. A bootstrap that has its snapshot
has one that is not older than the browser, and its buffer ends no continuity.
-/

namespace Replicant.Live

open Lib Web List DaemonState Provider

variable {snapshot : RuntimeSnapshot} {callers : List Caller}

namespace Provider

variable {s t : Provider} {op : ProviderOp} {task : BootstrapTask} {state other : DaemonState}

/-! ## What the reducer does with a buffer -/

/-- A delta that ends no continuity is applied, or is a replay. -/
lemma needsResnapshot_live {message : LiveMessage} {revision : ℕ}
    (hneeds : state.needsResnapshot = false) (hrev : state.revision = some revision)
    (h : breaks message.delta = true → message.revision ≤ revision) :
    (state.live message).needsResnapshot = false := by
  by_cases hle : message.revision ≤ revision
  · rw [live_of_le hrev hle]
    exact hneeds
  · have hkeeps : breaks message.delta = false := by
      cases hbreaks : breaks message.delta with
      | false => rfl
      | true => exact absurd (h hbreaks) hle
    have hdelta : message.delta ≠ .snapshot := by
      intro hsnap
      rw [hsnap] at hkeeps
      cases hkeeps
    rw [live_of_lt hneeds hrev (Nat.lt_of_not_le hle) hdelta]
    cases hcases : message.delta with
    | workflow => rw [hcases] at hkeeps; exact hkeeps
    | _ => exact hneeds

lemma revision_live_le {message : LiveMessage} {bound : ℕ}
    (hrev : ∀ revision ∈ state.revision, revision ≤ bound) (hle : message.revision ≤ bound) :
    ∀ revision ∈ (state.live message).revision, revision ≤ bound := by
  obtain ⟨number, delta⟩ := message
  unfold live
  split
  · exact hrev
  · split
    · split <;> exact hrev
    · exact hrev
    · exact hrev
    · split
      · exact hrev
      · rw [apply_revision]
        intro revision hmem
        cases hmem
        exact hle

/-- A buffer that ends no continuity, replayed on a snapshot. -/
lemma replay_harmless {messages : List LiveMessage} {revision bound : ℕ}
    (hneeds : state.needsResnapshot = false) (hrev : state.revision = some revision)
    (hbound : revision ≤ bound) (hmsgs : ∀ message ∈ messages, message.revision ≤ bound)
    (h : ∀ message ∈ messages, breaks message.delta = true → message.revision ≤ revision) :
    (state.replay messages).needsResnapshot = false ∧
      ∀ last ∈ (state.replay messages).revision, last ≤ bound := by
  induction messages generalizing state revision with
  | nil =>
    refine ⟨hneeds, ?_⟩
    show ∀ last ∈ state.revision, last ≤ bound
    rw [hrev]
    intro last hlast
    cases hlast
    exact hbound
  | cons message messages ih =>
    obtain ⟨next, hnext, hle⟩ := le_revision_live message hrev
    have hstate : ∀ revision ∈ state.revision, revision ≤ bound := by
      rw [hrev]
      rintro _ ⟨⟩
      exact hbound
    have hlive := revision_live_le hstate (hmsgs message mem_cons_self)
    exact ih (needsResnapshot_live hneeds hrev (h message mem_cons_self)) hnext
      (hlive next hnext) (fun m hm => hmsgs m (mem_cons_of_mem _ hm))
      fun m hm hbreaks => Nat.le_trans (h m (mem_cons_of_mem _ hm) hbreaks) hle

lemma SameView.live (h : SameView state other) (message : LiveMessage) :
    SameView (state.live message) (other.live message) := by
  obtain ⟨connection, revision, workflows, invalidated, needs, error⟩ := state
  obtain ⟨connection', revision', workflows', invalidated', needs', error'⟩ := other
  obtain ⟨rfl, rfl, rfl, rfl⟩ : revision = revision' ∧ workflows = workflows' ∧
    invalidated = invalidated' ∧ needs = needs' := h
  obtain ⟨number, delta⟩ := message
  cases needs with
  | true => exact ⟨rfl, rfl, rfl, rfl⟩
  | false =>
    cases revision with
    | none => cases delta <;> exact ⟨rfl, rfl, rfl, rfl⟩
    | some revision =>
      by_cases hle : number ≤ revision
      · rw [live_of_le rfl hle, live_of_le rfl hle]
        exact ⟨rfl, rfl, rfl, rfl⟩
      · cases delta <;> simp [live, hle, SameView, apply, continuityLost]

lemma SameView.replay (h : SameView state other) (messages : List LiveMessage) :
    SameView (state.replay messages) (other.replay messages) := by
  induction messages generalizing state other with
  | nil => exact h
  | cons message messages ih => exact ih (h.live message)

section

variable (h : ∀ revision ∈ state.revision, revision ≤ snapshot.revision)

include h

lemma loadSnapshot_of_le : state.loadSnapshot snapshot = ⟨state.connection, some snapshot.revision,
      DaemonState.fromEntries snapshot.workflows, snapshot.sliceRevisions, false, none⟩ := by
  refine if_neg ?_
  cases hrev : state.revision with
  | none => exact Bool.false_ne_true
  | some revision => simpa using h revision hrev

/-- A snapshot that is not older leaves nothing of the state. -/
lemma loadSnapshot_sameView :
    SameView (state.loadSnapshot snapshot) (DaemonState.initial.loadSnapshot snapshot) := by
  rw [loadSnapshot_of_le h]
  exact ⟨rfl, rfl, rfl, rfl⟩

end

/-! ## Dispatches -/

lemma dispatch_of_needs {action : DaemonAction}
    (h : (s.state.reduce action).needsResnapshot = true → s.state.needsResnapshot = true) :
    s.dispatch action = { s with state := s.state.reduce action } := by
  have hnot : ((s.state.reduce action).needsResnapshot && !s.state.needsResnapshot) = false := by
    cases hneeds : (s.state.reduce action).needsResnapshot with
    | false => rfl
    | true => rw [h hneeds]; rfl
  unfold dispatch
  rw [hnot]
  rfl

lemma dispatch_eq (action : DaemonAction) :
    ∃ lostAt, s.dispatch action = { s with state := s.state.reduce action, lostAt } ∧
      (lostAt = s.lostAt ∨ lostAt = s.served.length) := by
  unfold dispatch
  split
  · exact ⟨s.served.length, rfl, .inr rfl⟩
  · exact ⟨s.lostAt, rfl, .inl rfl⟩

lemma foldl_dispatch (messages : List LiveMessage) :
    ∃ lostAt, messages.foldl (fun s message => s.dispatch (.live message)) s =
        { s with state := s.state.replay messages, lostAt } ∧
      (lostAt = s.lostAt ∨ lostAt = s.served.length) := by
  induction messages generalizing s with
  | nil => exact ⟨s.lostAt, rfl, .inl rfl⟩
  | cons message messages ih =>
    obtain ⟨lostAt, heq, hlost⟩ := s.dispatch_eq (.live message)
    obtain ⟨last, hfold, hlast⟩ := ih
    refine ⟨last, ?_, ?_⟩
    · rw [foldl_cons, hfold, heq]
      rfl
    · rw [heq] at hlast
      rcases hlast with h | h
      · rw [h]
        exact hlost
      · exact .inr h

lemma loadBootstrap_eq (task : BootstrapTask) (snapshot : RuntimeSnapshot) (number : ℕ) :
    ∃ lostAt, s.loadBootstrap task snapshot number = { s with
          state := (s.state.loadSnapshot snapshot).replay task.buffered
          loaded := some (number, (s.state.loadSnapshot snapshot).revision)
          lostAt } ∧
      (lostAt = s.lostAt ∨ lostAt = s.served.length) := by
  have hload : s.dispatch (.snapshot snapshot) =
      { s with state := s.state.loadSnapshot snapshot } := by
    apply dispatch_of_needs
    show (s.state.loadSnapshot snapshot).needsResnapshot = true → _
    unfold loadSnapshot
    split
    · exact id
    · exact nofun
  unfold loadBootstrap
  rw [hload]
  exact foldl_dispatch task.buffered

lemma isConnected_iff : s.isConnected = true ↔ ∃ socket ∈ s.socket, socket.ready ≠ .closing := by
  unfold isConnected
  cases s.socket <;> simp

/-! ## Who awaits a bootstrap -/

/-- The callers that are told of an error may drop the connection, and do nothing else. -/
structure Drops (callers : List Caller) (s t : Provider) : Prop where
  daemon : t.daemon = s.daemon
  served : t.served = s.served
  revision : t.state.revision = s.state.revision
  needs : t.state.needsResnapshot = s.state.needsResnapshot
  lostAt : t.lostAt = s.lostAt
  timer : t.resnapshotTimer = s.resnapshotTimer
  bootstrap : t.bootstrap = none
  socket : t.socket = none ∨ t.socket = s.socket ∧
    ∀ socket ∈ s.socket, socket.ready ≠ .closing → .connect socket.number ∉ callers

lemma scheduleHealthProbe_eq : ∃ healthTimer, s.scheduleHealthProbe = { s with healthTimer } := by
  unfold scheduleHealthProbe
  split
  · exact ⟨s.healthTimer, rfl⟩
  · exact ⟨true, rfl⟩

lemma drops_failed (error : String) (number : ℕ) (hnone : s.bootstrap = none) :
    Drops [.connect number] s (s.failed error (.connect number)) := by
  unfold failed
  dsimp only
  split
  · have hdispatch : ({ s.abortBootstrap with socket := none } : Provider).dispatch
        (.disconnected error) = { s.abortBootstrap with
          socket := none, state := s.state.reduce (.disconnected error) } := dispatch_of_needs id
    rw [hdispatch]
    obtain ⟨healthTimer, heq⟩ := scheduleHealthProbe_eq
    rw [heq]
    exact ⟨rfl, rfl, rfl, rfl, rfl, rfl, by simp [abortBootstrap, hnone], .inl rfl⟩
  · next hother =>
    refine ⟨rfl, rfl, rfl, rfl, rfl, rfl, hnone, .inr ⟨rfl, ?_⟩⟩
    intro socket hsocket hready hmem
    rw [mem_singleton, Caller.connect.injEq] at hmem
    rw [hsocket] at hother
    simp [hmem, hready] at hother

lemma Drops.trans {u : Provider} {caller : Caller}
    (h : Drops [caller] s t) (h' : Drops callers t u) : Drops (caller :: callers) s u where
  daemon := h'.daemon.trans h.daemon
  served := h'.served.trans h.served
  revision := h'.revision.trans h.revision
  needs := h'.needs.trans h.needs
  lostAt := h'.lostAt.trans h.lostAt
  timer := h'.timer.trans h.timer
  bootstrap := h'.bootstrap
  socket := by
    rcases h'.socket with hnone | ⟨heq, hrest⟩
    · exact .inl hnone
    · rcases h.socket with hnone | ⟨hsame, hfirst⟩
      · exact .inl (heq.trans hnone)
      · refine .inr ⟨heq.trans hsame, fun socket hsocket hready hmem => ?_⟩
        rcases mem_cons.mp hmem with hcaller | hmem
        · exact hfirst socket hsocket hready (mem_singleton.mpr hcaller)
        · exact hrest socket (hsame ▸ hsocket) hready hmem

lemma drops_foldl (error : String) (hnone : s.bootstrap = none)
    (hcallers : ∀ caller ∈ callers, caller ≠ .resnapshot) :
    Drops callers s (callers.foldl (·.failed error) s) := by
  induction callers generalizing s with
  | nil => exact ⟨rfl, rfl, rfl, rfl, rfl, rfl, hnone, .inr ⟨rfl, fun _ _ _ => not_mem_nil⟩⟩
  | cons caller callers ih =>
    cases caller with
    | resnapshot => exact absurd rfl (hcallers _ mem_cons_self)
    | connect number =>
      have hfirst := drops_failed error number hnone
      exact hfirst.trans (ih hfirst.bootstrap fun c hc => hcallers c (mem_cons_of_mem _ hc))

lemma foldl_runBootstrap_join (hsome : s.bootstrap = some task) (habort : task.aborted = false) :
    callers.foldl runBootstrap s =
      { s with bootstrap := some { task with callers := task.callers ++ callers } } := by
  induction callers generalizing s task with
  | nil =>
    rw [append_nil]
    obtain ⟨⟩ := s
    cases hsome
    rfl
  | cons caller callers ih =>
    have hrun : s.runBootstrap caller =
        { s with bootstrap := some { task with callers := task.callers ++ [caller] } } := by
      simp [runBootstrap, hsome, habort]
    rw [foldl_cons, hrun]
    refine (ih rfl ?_).trans ?_
    · exact habort
    · simp

/-- Those who waited for an aborted task share one new task. -/
lemma foldl_runBootstrap (hnone : s.bootstrap = none)
    (hcallers : ∀ caller ∈ callers, caller ≠ .resnapshot) : callers.foldl runBootstrap s = { s with
      bootstrap := if callers = [] then none else some ⟨false, [], .fetching, callers, []⟩ } := by
  cases callers with
  | nil =>
    obtain ⟨⟩ := s
    cases hnone
    rfl
  | cons caller =>
    have hrun : s.runBootstrap caller =
        { s with bootstrap := some ⟨false, [], .fetching, [caller], []⟩ } := by
      simp [runBootstrap, hnone, hcallers caller mem_cons_self]
    rw [foldl_cons, hrun, foldl_runBootstrap_join rfl rfl]
    rfl

/-! ## The invariant -/

/-- A task has its snapshot. -/
structure Holds (s : Provider) (task : BootstrapTask) (snapshot : RuntimeSnapshot) (number : ℕ) :
    Prop where
  published : snapshot.revision ≤ s.daemon.revision
  answered : s.served[number]? = some snapshot.revision
  newer : ∀ revision ∈ s.state.revision, revision ≤ snapshot.revision
  harmless : ∀ message ∈ task.buffered, breaks message.delta = true →
    message.revision ≤ snapshot.revision
  afterLoss : s.state.needsResnapshot = true → task.aborted = false → s.lostAt ≤ number

structure Fits (s : Provider) (task : BootstrapTask) : Prop where
  callers : ∀ caller ∈ task.callers, caller ≠ .resnapshot
  waiters : ∀ caller ∈ task.waiters, caller ≠ .resnapshot
  idle : task.aborted = false → task.waiters = []
  awaited : ∀ socket ∈ s.socket, socket.ready ≠ .closing →
    .connect socket.number ∈ if task.aborted then task.waiters else task.callers
  buffered : ∀ message ∈ task.buffered, message.revision ≤ s.daemon.revision
  probed : task.stage ≠ .health
  fetched : ∀ snapshot number, task.stage = .fetched snapshot number → s.Holds task snapshot number

structure Inv (s : Provider) : Prop where
  known : ∀ revision ∈ s.state.revision, revision ≤ s.daemon.revision
  lost : s.lostAt ≤ s.served.length
  /-- No step starts the first resnapshot. -/
  timer : s.resnapshotTimer = false
  /-- Lost continuity meets a bootstrap. -/
  running : s.state.needsResnapshot = true → s.isConnected = true → s.bootstrap.isSome
  task : ∀ task ∈ s.bootstrap, s.Fits task

lemma inv_start (daemon : RuntimeSnapshot) : (start daemon).Inv :=
  ⟨nofun, Nat.le_refl _, rfl, nofun, nofun⟩

section

variable (h : s.Inv) {number : ℕ}

include h

/-- The connection of the state, and its error, do not matter. -/
lemma Inv.quiet (action : DaemonAction) (hrev : (s.state.reduce action).revision = s.state.revision)
    (hneeds : (s.state.reduce action).needsResnapshot = s.state.needsResnapshot) :
    (s.dispatch action).Inv := by
  rw [dispatch_of_needs fun hreduce => hneeds ▸ hreduce]
  refine ⟨?_, h.lost, h.timer, ?_, ?_⟩
  · exact hrev ▸ h.known
  · exact fun hlost => h.running (hneeds ▸ hlost)
  · intro task htask
    have hfits := h.task task htask
    refine { hfits with fetched := fun snapshot number hstage => ?_ }
    have hholds := hfits.fetched snapshot number hstage
    exact { hholds with
      newer := hrev ▸ hholds.newer
      afterLoss := fun hlost => hholds.afterLoss (hneeds ▸ hlost) }

/-- Only what the invariant is about has to be kept. -/
lemma Inv.timers (healthTimer healthProbeActive : Bool) :
    ({ s with healthTimer, healthProbeActive } : Provider).Inv :=
  { h with task := fun task htask =>
      { h.task task htask with
        fetched := fun snapshot number hstage =>
          { (h.task task htask).fetched snapshot number hstage with } } }

lemma Inv.scheduleHealthProbe : s.scheduleHealthProbe.Inv := by
  obtain ⟨healthTimer, heq⟩ := scheduleHealthProbe_eq
  rw [heq]
  exact h.timers healthTimer s.healthProbeActive

lemma Inv.daemon {daemon : RuntimeSnapshot}
    (hle : s.daemon.revision ≤ daemon.revision) : ({ s with daemon } : Provider).Inv := by
  refine { h with known := ?_, task := ?_ }
  · exact fun revision hrev => Nat.le_trans (h.known revision hrev) hle
  · intro task htask
    have hfits := h.task task htask
    refine { hfits with buffered := ?_, fetched := ?_ }
    · exact fun message hmsg => Nat.le_trans (hfits.buffered message hmsg) hle
    · intro snapshot number hstage
      have hholds := hfits.fetched snapshot number hstage
      exact { hholds with published := Nat.le_trans hholds.published hle }

/-- The socket stays connected, or does not. -/
lemma Inv.resocket {socket : Option Socket} (hsocket : ∀ next ∈ socket, next.ready ≠ .closing →
      ∃ old ∈ s.socket, old.ready ≠ .closing ∧ old.number = next.number) :
    ({ s with socket } : Provider).Inv := by
  refine { h with running := ?_, task := ?_ }
  · intro hlost hconn
    obtain ⟨next, hnext, hready⟩ := isConnected_iff.mp hconn
    obtain ⟨old, hold, hopen, -⟩ := hsocket next hnext hready
    exact h.running hlost (isConnected_iff.mpr ⟨old, hold, hopen⟩)
  · intro task htask
    have hfits := h.task task htask
    refine { hfits with awaited := ?_, fetched := ?_ }
    · intro next hnext hready
      obtain ⟨old, hold, hopen, hnumber⟩ := hsocket next hnext hready
      rw [← hnumber]
      exact hfits.awaited old hold hopen
    · exact fun snapshot number hstage => { hfits.fetched snapshot number hstage with }

lemma Inv.open : (s.step .open).Inv := by
  unfold step
  dsimp only
  split
  · next number hsocket =>
    refine (h.resocket ?_).quiet .connected rfl rfl
    intro next hnext _
    cases hnext
    exact ⟨_, hsocket, nofun, rfl⟩
  · exact h

lemma Inv.continuityLost (error : String) (hlost : s.MayLose s.bootstrap) :
    (s.dispatch (.continuityLost error)).Inv := by
  obtain ⟨lostAt, heq, hlostAt⟩ := s.dispatch_eq (.continuityLost error)
  rw [heq]
  refine ⟨h.known, ?_, h.timer, ?_, ?_⟩
  · rcases hlostAt with rfl | rfl
    · exact h.lost
    · exact Nat.le_refl _
  · intro _ hconn
    show s.bootstrap.isSome
    cases htask : s.bootstrap with
    | none =>
      rw [htask] at hlost
      exact absurd (hlost.symm.trans hconn) Bool.false_ne_true
    | some => rfl
  · intro task htask
    have hfits := h.task task htask
    rw [show s.bootstrap = some task from htask] at hlost
    refine { hfits with fetched := fun snapshot number hstage => ?_ }
    refine { hfits.fetched snapshot number hstage with afterLoss := fun _ habort => ?_ }
    rcases hlost with htrue | hnot
    · cases htrue.symm.trans habort
    · rw [hstage] at hnot
      cases hnot

lemma Inv.close : (s.step .close).Inv := by
  unfold step
  dsimp only
  split
  · have hclosed : ({ s.abortBootstrap with socket := none, resnapshotTimer := false } :
        Provider).Inv := by
      refine ⟨h.known, h.lost, rfl, nofun, ?_⟩
      intro task htask
      obtain ⟨old, hold, rfl⟩ := Option.map_eq_some_iff.mp htask
      have hfits := h.task old hold
      refine ⟨hfits.callers, hfits.waiters, nofun, nofun, hfits.buffered, hfits.probed, ?_⟩
      intro snapshot number hstage
      exact { hfits.fetched snapshot number hstage with afterLoss := nofun }
    exact (hclosed.quiet _ rfl rfl).scheduleHealthProbe
  · exact h

/-- Who connects awaits a bootstrap. -/
lemma Inv.runBootstrap (number : ℕ) (alive : Bool) :
    ({ s with socket := some ⟨number, .connecting, alive⟩, sockets := s.sockets + 1 }
      |>.runBootstrap (.connect number)).Inv := by
  unfold Provider.runBootstrap
  cases hboot : s.bootstrap with
  | none =>
    refine ⟨h.known, h.lost, h.timer, fun _ _ => rfl, ?_⟩
    rintro _ ⟨⟩
    refine ⟨?_, nofun, fun _ => rfl, ?_, nofun, nofun, nofun⟩
    · intro caller hcaller
      rw [mem_singleton.mp hcaller]
      exact nofun
    · rintro _ ⟨⟩ _
      exact mem_singleton_self _
  | some task =>
    have hfits := h.task task hboot
    dsimp only
    split
    · next habort =>
      refine ⟨h.known, h.lost, h.timer, fun _ _ => rfl, ?_⟩
      rintro _ ⟨⟩
      refine ⟨hfits.callers, ?_, ?_, ?_, hfits.buffered, hfits.probed, ?_⟩
      · exact forall_mem_concat hfits.waiters nofun
      · exact fun hnot => absurd (habort.symm.trans hnot) nofun
      · rintro _ ⟨⟩ _
        rw [if_pos habort]
        exact mem_append_right _ (mem_singleton_self _)
      · exact fun snapshot number hstage => { hfits.fetched snapshot number hstage with }
    · next habort =>
      refine ⟨h.known, h.lost, h.timer, fun _ _ => rfl, ?_⟩
      rintro _ ⟨⟩
      refine ⟨?_, hfits.waiters, hfits.idle, ?_, hfits.buffered, hfits.probed, ?_⟩
      · exact forall_mem_concat hfits.callers nofun
      · rintro _ ⟨⟩ _
        rw [if_neg habort]
        exact mem_append_right _ (mem_singleton_self _)
      · exact fun snapshot number hstage => { hfits.fetched snapshot number hstage with }

lemma Inv.connect : s.connect.Inv :=
  (h.quiet (.connecting s.state.revision.isSome) rfl rfl).runBootstrap _ true

lemma Inv.message {message : LiveMessage} (hgenuine : s.Genuine (.message message))
    (hrecov : s.Recoverable (.message message)) : (s.step (.message message)).Inv := by
  unfold step
  dsimp only
  split
  · next task _ htask =>
    have hfits := h.task task htask
    refine { h with running := fun _ _ => rfl, task := ?_ }
    rintro _ ⟨⟩
    refine { hfits with buffered := ?_, fetched := ?_ }
    · exact forall_mem_concat hfits.buffered hgenuine
    · intro snapshot number hstage
      refine { hfits.fetched snapshot number hstage with harmless := ?_ }
      refine forall_mem_concat (hfits.fetched snapshot number hstage).harmless ?_
      simp only [Recoverable, MayDeliver, htask,
        show task.stage = .fetched snapshot number from hstage] at hrecov
      exact hrecov
  · next hboot =>
    simp only [Recoverable, MayDeliver, hboot] at hrecov
    obtain ⟨hneeds, revision, hrev, hnot⟩ := hrecov
    have hkept : (s.state.reduce (.live message)).needsResnapshot ≠ true := by
      show (s.state.live message).needsResnapshot ≠ true
      rw [needsResnapshot_live hneeds hrev hnot]
      exact Bool.false_ne_true
    rw [dispatch_of_needs fun hneeds => absurd hneeds hkept]
    refine ⟨?_, h.lost, h.timer, ?_, ?_⟩
    · exact revision_live_le h.known hgenuine
    · exact fun hneeds => absurd hneeds hkept
    · exact fun task htask => absurd (hboot.symm.trans htask) (Option.some_ne_none _).symm
  · exact h

/-- The snapshot is answered after whatever was lost so far. -/
lemma Inv.serve : (s.step .serve).Inv := by
  unfold step
  dsimp only
  split
  · next aborted buffered callers waiters htask =>
    have hfits := h.task _ htask
    refine ⟨h.known, ?_, h.timer, fun _ _ => rfl, ?_⟩
    · show s.lostAt ≤ (s.served ++ [s.daemon.revision]).length
      rw [length_append]
      exact Nat.le_add_right_of_le h.lost
    · rintro _ ⟨⟩
      refine { hfits with probed := nofun, fetched := ?_ }
      rintro _ _ ⟨⟩
      exact ⟨Nat.le_refl _, getElem?_concat_length, h.known,
        fun message hmsg _ => hfits.buffered message hmsg, fun _ _ => h.lost⟩
  · exact h

/-- A task has ended, and those who waited start anew. -/
lemma Inv.settled (htask : s.bootstrap = some task)
    (hdrops : Drops callers { s with bootstrap := none } t)
    (hcallers : task.aborted = false → callers = task.callers) :
    (task.waiters.foldl Provider.runBootstrap t).Inv := by
  have hfits := h.task task htask
  -- A connection that is still there waits for the next task.
  have hwaits : ∀ socket ∈ t.socket, socket.ready ≠ .closing →
      .connect socket.number ∈ task.waiters := by
    intro socket hsocket hready
    rcases hdrops.socket with hnone | ⟨hsame, hother⟩
    · rw [hnone] at hsocket
      cases hsocket
    · have hold : socket ∈ s.socket := by
        rw [hsame] at hsocket
        exact hsocket
      have hawaited := hfits.awaited socket hold hready
      cases habort : task.aborted with
      | true =>
        rw [habort] at hawaited
        exact hawaited
      | false =>
        rw [habort, ← hcallers habort] at hawaited
        exact absurd hawaited (hother socket hold hready)
  rw [foldl_runBootstrap hdrops.bootstrap hfits.waiters]
  refine ⟨?_, ?_, hdrops.timer.trans h.timer, ?_, ?_⟩
  · show ∀ revision ∈ t.state.revision, revision ≤ t.daemon.revision
    rw [hdrops.revision, hdrops.daemon]
    exact h.known
  · show t.lostAt ≤ t.served.length
    rw [hdrops.lostAt, hdrops.served]
    exact h.lost
  · intro _ hconn
    obtain ⟨socket, hsocket, hready⟩ := isConnected_iff.mp hconn
    have hne := ne_nil_of_mem (hwaits socket hsocket hready)
    rw [if_neg hne]
    rfl
  · intro next hnext
    have hnew : next = ⟨false, [], .fetching, task.waiters, []⟩ := by
      by_cases hnil : task.waiters = []
      · simp [hnil] at hnext
      · simpa [hnil, eq_comm] using hnext
    subst hnew
    exact ⟨hfits.waiters, nofun, fun _ => rfl, hwaits, nofun, nofun, nofun⟩

lemma Inv.bootstrapFails (error : String) : (s.step (.bootstrapFails error)).Inv := by
  unfold step
  dsimp only
  split
  · next task htask =>
    exact h.settled htask (drops_foldl error rfl (h.task task htask).callers) fun _ => rfl
  · exact h

lemma step_arrive (htask : s.bootstrap = some task) (habort : task.aborted = false)
    (hstage : task.stage = .fetched snapshot number) : ∃ lostAt, s.step .arrive = { s with
          state := (s.state.loadSnapshot snapshot).replay task.buffered
          loaded := some (number, some snapshot.revision)
          bootstrap := none
          lostAt } ∧
      lostAt ≤ s.served.length := by
  obtain ⟨lostAt, heq, hlostAt⟩ := s.loadBootstrap_eq task snapshot number
  have hfits := h.task task htask
  refine ⟨lostAt, ?_, ?_⟩
  · simp only [step, htask, hstage, habort, Bool.false_eq_true, if_false]
    unfold settle
    rw [heq, hfits.idle habort, loadSnapshot_of_le (hfits.fetched snapshot number hstage).newer]
    rfl
  · rcases hlostAt with rfl | rfl
    · exact h.lost
    · exact Nat.le_refl _

/-- What is loaded keeps continuity. -/
lemma Inv.loaded (htask : s.bootstrap = some task)
    (hstage : task.stage = .fetched snapshot number) :
    ((s.state.loadSnapshot snapshot).replay task.buffered).needsResnapshot = false ∧
      ∀ revision ∈ ((s.state.loadSnapshot snapshot).replay task.buffered).revision,
        revision ≤ s.daemon.revision := by
  have hfits := h.task task htask
  have hholds := hfits.fetched snapshot number hstage
  rw [loadSnapshot_of_le hholds.newer]
  exact replay_harmless rfl rfl hholds.published hfits.buffered hholds.harmless

lemma Inv.arrive : (s.step .arrive).Inv := by
  cases htask : s.bootstrap with
  | none =>
    simp only [step, htask]
    exact h
  | some task =>
    cases hstage : task.stage with
    | health | fetching =>
      simp only [step, htask, hstage]
      exact h
    | fetched =>
      cases habort : task.aborted with
      | true =>
        simp only [step, htask, hstage, habort, if_true]
        have hdrops : Drops [] ({ s with bootstrap := none } : Provider) { s with bootstrap := none } :=
          drops_foldl "" rfl nofun
        exact h.settled htask hdrops fun hnot => absurd (habort.symm.trans hnot) nofun
      | false =>
        obtain ⟨lostAt, heq, hlostAt⟩ := step_arrive h htask habort hstage
        obtain ⟨hneeds, hknown⟩ := h.loaded htask hstage
        rw [heq]
        exact ⟨hknown, hlostAt, h.timer, fun hlost => absurd (hneeds.symm.trans hlost) nofun, nofun⟩

lemma Inv.step (hgenuine : s.Genuine op) (hrecov : s.Recoverable op) : (s.step op).Inv := by
  cases op with
  | publish => exact h.daemon (Nat.le_succ _)
  | restart revision =>
    have hcut : ({ s with socket := s.socket.map fun socket => { socket with alive := false } } :
        Provider).Inv := by
      refine h.resocket ?_
      intro next hnext hready
      obtain ⟨old, hold, rfl⟩ := Option.map_eq_some_iff.mp hnext
      exact ⟨old, hold, hready, rfl⟩
    have hle : s.daemon.revision ≤ revision := hrecov
    exact hcut.daemon hle
  | healthTimer =>
    unfold step
    dsimp only
    split
    · unfold probeHealth
      split
      · exact h.timers false s.healthProbeActive
      · exact (h.timers false true).quiet (.connecting s.state.revision.isSome) rfl rfl
    · exact h
  | healthy =>
    unfold step
    dsimp only
    split
    · exact (h.timers s.healthTimer false).connect
    · exact h
  | unhealthy error =>
    unfold step
    dsimp only
    split
    · exact ((h.timers s.healthTimer false).quiet (.disconnected error) rfl rfl).scheduleHealthProbe
    · exact h
  | «open» => exact h.open
  | message => exact h.message hgenuine hrecov
  | parseError error =>
    unfold step
    dsimp only
    split
    · exact h.continuityLost error hrecov
    · exact h
  | entityError error => exact h.continuityLost error hrecov
  | socketError =>
    refine h.resocket ?_
    intro next hnext hready
    obtain ⟨old, hold, rfl⟩ := Option.map_eq_some_iff.mp hnext
    exact absurd rfl hready
  | close => exact h.close
  | bootstrapHealth =>
    unfold step
    dsimp only
    split
    · next htask => exact absurd rfl (h.task _ htask).probed
    · exact h
  | serve => exact h.serve
  | arrive => exact h.arrive
  | bootstrapFails error => exact h.bootstrapFails error
  | resnapshotTimer =>
    unfold step
    rw [h.timer]
    exact h

end

end Provider

end Replicant.Live
