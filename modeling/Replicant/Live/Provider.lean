import Replicant.Lib.Transaction
import Replicant.Web.DaemonReducer

/-!
# The daemon provider

`DaemonProvider` probes the health of the daemon, opens a socket and bootstraps from a snapshot.
There is one bootstrap at a time, which buffers the messages of the socket: a second caller shares
it, or waits until an aborted one has ended. A restart cuts the connection; the browser hears of it
with the close event. The snapshots that the daemon has answered are counted.
-/

namespace Replicant.Live

open Lib Web

inductive ReadyState where
  | connecting | open | closing
deriving DecidableEq

structure Socket where
  number : ℕ
  ready : ReadyState
  /-- The daemon at the other end is still there. -/
  alive : Bool
deriving DecidableEq

/-- Who awaits a bootstrap. -/
inductive Caller where
  | connect (socket : ℕ)
  | resnapshot
deriving DecidableEq

inductive BootstrapStage where
  | health
  | fetching
  /-- The daemon has answered; this was its snapshot of that number. -/
  | fetched (snapshot : RuntimeSnapshot) (number : ℕ)

def BootstrapStage.isFetched : BootstrapStage → Bool
  | .fetched _ _ => true
  | .health | .fetching => false

structure BootstrapTask where
  aborted : Bool
  buffered : List LiveMessage
  stage : BootstrapStage
  callers : List Caller
  /-- Those who start anew when this aborted task has ended. -/
  waiters : List Caller

structure Provider where
  /-- The revision, the workflows and the slice revisions of the daemon. -/
  daemon : RuntimeSnapshot
  /-- The revisions of the snapshots that were answered. -/
  served : List ℕ
  state : DaemonState
  /-- The number of snapshots that had been answered when continuity was lost. -/
  lostAt : ℕ
  /-- The snapshot that was dispatched last, and the revision of the state after that. -/
  loaded : Option (ℕ × Option ℕ)
  socket : Option Socket
  sockets : ℕ
  bootstrap : Option BootstrapTask
  healthTimer : Bool
  healthProbeActive : Bool
  resnapshotTimer : Bool

inductive ProviderOp where
  | publish (workflows : List WorkflowSummary) (sliceRevisions : SliceRevisions)
  | restart (revision : ℕ) (workflows : List WorkflowSummary)
  | healthTimer
  | healthy
  | unhealthy (error : String)
  | open
  | message (message : LiveMessage)
  | parseError (error : String)
  /-- The shared query for the entities fails. -/
  | entityError (error : String)
  | socketError
  | close
  | bootstrapHealth
  /-- The daemon answers the request of the bootstrap. -/
  | serve
  | arrive
  | bootstrapFails (error : String)
  | resnapshotTimer

namespace Provider

variable (s : Provider)

def dispatch (action : DaemonAction) : Provider :=
  { s with
    state := s.state.reduce action
    lostAt := if (s.state.reduce action).needsResnapshot && !s.state.needsResnapshot then
      s.served.length else s.lostAt }

/-- `readyState` is `OPEN` or `CONNECTING`. -/
def isConnected : Bool := s.socket.any (·.ready ≠ .closing)

def isOpen : Bool := s.socket.any (·.ready = .open)

def scheduleHealthProbe : Provider :=
  if s.healthTimer || s.healthProbeActive || s.isConnected then s else { s with healthTimer := true }

def scheduleResnapshot : Provider :=
  if s.resnapshotTimer || !s.isOpen then s else { s with resnapshotTimer := true }

def runBootstrap (caller : Caller) : Provider :=
  match s.bootstrap with
  | none =>
    -- A connection has probed the health already.
    let stage := if caller = .resnapshot then .health else .fetching
    { s with bootstrap := some ⟨false, [], stage, [caller], []⟩ }
  | some task =>
    if task.aborted then
      { s with bootstrap := some { task with waiters := task.waiters ++ [caller] } }
    else { s with bootstrap := some { task with callers := task.callers ++ [caller] } }

def abortBootstrap : Provider :=
  { s with bootstrap := s.bootstrap.map fun task => { task with aborted := true } }

/-- The error of a bootstrap reaches a caller. -/
def failed (error : String) (caller : Caller) : Provider :=
  match caller with
  | .connect number =>
    if s.socket.any fun socket => socket.number = number && socket.ready ≠ .closing then
      let s := { s.abortBootstrap with socket := none }
      (s.dispatch (.disconnected error)).scheduleHealthProbe
    else s
  | .resnapshot => (s.dispatch (.continuityLost error)).scheduleResnapshot

/-- A task ends. -/
def settle (task : BootstrapTask) (error : Option String) : Provider :=
  let s := { s with bootstrap := none }
  let s := error.elim s fun error => task.callers.foldl (·.failed error) s
  task.waiters.foldl runBootstrap s

def startResnapshot : Provider :=
  if s.isOpen then s.runBootstrap .resnapshot else s

/-- `connect`, after a healthy probe. -/
def connect : Provider :=
  let s := s.dispatch (.connecting s.state.revision.isSome)
  let s := { s with socket := some ⟨s.sockets, .connecting, true⟩, sockets := s.sockets + 1 }
  s.runBootstrap (.connect (s.sockets - 1))

def probeHealth : Provider :=
  if s.healthProbeActive || s.isConnected then s
  else { s with healthProbeActive := true }.dispatch (.connecting s.state.revision.isSome)

/-- The snapshot of a task is dispatched, and then the messages in its buffer. -/
def loadBootstrap (task : BootstrapTask) (snapshot : RuntimeSnapshot) (number : ℕ) : Provider :=
  let s := s.dispatch (.snapshot snapshot)
  let s := { s with loaded := some (number, s.state.revision) }
  task.buffered.foldl (fun s message => s.dispatch (.live message)) s

def step : ProviderOp → Provider
  | .publish workflows sliceRevisions =>
    { s with daemon := ⟨s.daemon.revision + 1, workflows, sliceRevisions⟩ }
  | .restart revision workflows =>
    { s with
      daemon := ⟨revision, workflows, fun _ => none⟩
      socket := s.socket.map fun socket => { socket with alive := false } }
  | .healthTimer => if s.healthTimer then { s with healthTimer := false }.probeHealth else s
  | .healthy => if s.healthProbeActive then { s with healthProbeActive := false }.connect else s
  | .unhealthy error =>
    if s.healthProbeActive then
      ({ s with healthProbeActive := false }.dispatch (.disconnected error)).scheduleHealthProbe
    else s
  | .open =>
    match s.socket with
    | some ⟨number, .connecting, true⟩ =>
      { s with socket := some ⟨number, .open, true⟩ }.dispatch .connected
    | _ => s
  | .message message =>
    match s.socket, s.bootstrap with
    | some ⟨_, .open, true⟩, some task =>
      { s with bootstrap := some { task with buffered := task.buffered ++ [message] } }
    | some ⟨_, .open, true⟩, none => s.dispatch (.live message)
    | _, _ => s
  | .parseError error => if s.isOpen then s.dispatch (.continuityLost error) else s
  | .entityError error => s.dispatch (.continuityLost error)
  | .socketError => { s with socket := s.socket.map fun socket => { socket with ready := .closing } }
  | .close =>
    if s.socket.isSome then
      let s := { s.abortBootstrap with socket := none, resnapshotTimer := false }
      (s.dispatch (.disconnected "Daemon connection closed")).scheduleHealthProbe
    else s
  | .bootstrapHealth =>
    match s.bootstrap with
    | some ⟨aborted, buffered, .health, callers, waiters⟩ =>
      { s with bootstrap := some ⟨aborted, buffered, .fetching, callers, waiters⟩ }
    | _ => s
  | .serve =>
    match s.bootstrap with
    | some ⟨aborted, buffered, .fetching, callers, waiters⟩ =>
      { s with
        bootstrap := some ⟨aborted, buffered, .fetched s.daemon s.served.length, callers, waiters⟩
        served := s.served ++ [s.daemon.revision] }
    | _ => s
  | .arrive =>
    match s.bootstrap with
    | some task =>
      match task.stage with
      | .fetched snapshot number =>
        if task.aborted then s.settle task none
        else (s.loadBootstrap task snapshot number).settle task none
      | _ => s
    | none => s
  | .bootstrapFails error =>
    match s.bootstrap with
    | some task => s.settle task (some error)
    | none => s
  | .resnapshotTimer =>
    if s.resnapshotTimer then { s with resnapshotTimer := false }.startResnapshot else s

/-- The browser has loaded the page, and the first probe is under way. -/
def start (daemon : RuntimeSnapshot) : Provider where
  daemon := daemon
  served := []
  state := .initial
  lostAt := 0
  loaded := none
  socket := none
  sockets := 0
  bootstrap := none
  healthTimer := false
  healthProbeActive := true
  resnapshotTimer := false

def run (daemon : RuntimeSnapshot) (ops : List ProviderOp) : Provider :=
  ops.foldl step (start daemon)

/-! ## What is expected -/

/-- The daemon sends what it has published. -/
def Genuine : ProviderOp → Prop
  | .message message => message.revision ≤ s.daemon.revision
  | _ => True

instance Genuine.decidable (op : ProviderOp) : Decidable (s.Genuine op) := by
  cases op <;> unfold Genuine <;> infer_instance

/-- The daemon stays healthy and answers, and the socket stays open and can be parsed. -/
def Smooth : ProviderOp → Prop
  | .restart _ _ | .unhealthy _ | .parseError _ | .entityError _ | .socketError | .close => False
  | .bootstrapFails _ => ∀ task ∈ s.bootstrap, task.aborted = true
  | .message message => message.revision ≤ s.daemon.revision
  | .publish _ _ | .healthTimer | .healthy | .open | .bootstrapHealth | .serve | .arrive
  | .resnapshotTimer => True

/-- Continuity is there, from a snapshot that was answered after it was lost. -/
def Repaired (lostAt : ℕ) : Prop :=
  s.state.needsResnapshot = false ∧
    ∃ number revision, s.loaded = some (number, some revision) ∧ lostAt ≤ number ∧
      s.served[number]? = some revision

def CanRepair : Prop :=
  ∃ ops, AllSteps step Smooth s ops ∧ Repaired (ops.foldl step s) s.lostAt

/-- The two states show the same. -/
def SameView (first second : DaemonState) : Prop :=
  first.revision = second.revision ∧ first.workflows = second.workflows ∧
    first.invalidated = second.invalidated ∧ first.needsResnapshot = second.needsResnapshot

/-- A snapshot that arrives leaves nothing of what the browser had before. -/
def Replaces : Prop :=
  ∀ task snapshot number, s.bootstrap = some task → task.aborted = false →
    task.stage = .fetched snapshot number →
    SameView (s.step .arrive).state
      ((DaemonState.initial.loadSnapshot snapshot).replay task.buffered)

/-- Lost continuity can be repaired while the socket is open, and a snapshot that arrives replaces
what the browser had. -/
def KeepsContinuity : Prop :=
  (s.state.needsResnapshot = true → s.isOpen = true → s.CanRepair) ∧ s.Replaces

/-! ## Where continuity may be lost -/

/-- A delta that ends continuity. -/
def breaks : LiveDelta → Bool
  | .snapshot => true
  | .workflow summary => summary.kind = DaemonState.requirementKind
  | .domainsInvalidated _ | .other => false

/-- A message that ends continuity is not newer than the snapshot of a bootstrap; without a bootstrap,
continuity is there and such a message is not newer than what is loaded. -/
def MayDeliver (message : LiveMessage) : Option BootstrapTask → Prop
  | none => s.state.needsResnapshot = false ∧
      ∃ revision ∈ s.state.revision, breaks message.delta = true → message.revision ≤ revision
  | some task =>
    match task.stage with
    | .fetched snapshot _ => breaks message.delta = true → message.revision ≤ snapshot.revision
    | .health | .fetching => True

instance MayDeliver.decidable (message : LiveMessage) (bootstrap : Option BootstrapTask) :
    Decidable (s.MayDeliver message bootstrap) := by
  unfold MayDeliver
  repeat' split
  all_goals infer_instance

/-- A snapshot is still to be fetched, or there is no connection. -/
def MayLose : Option BootstrapTask → Prop
  | none => s.isConnected = false
  | some task => task.aborted = true ∨ task.stage.isFetched = false

instance MayLose.decidable (bootstrap : Option BootstrapTask) :
    Decidable (s.MayLose bootstrap) := by
  cases bootstrap <;> unfold MayLose <;> infer_instance

/-- A restarted daemon goes on from the revision it had. Continuity is lost only while a bootstrap has
still to fetch its snapshot, or while there is no connection. -/
def Recoverable : ProviderOp → Prop
  | .restart revision _ => s.daemon.revision ≤ revision
  | .message message => s.MayDeliver message s.bootstrap
  | .parseError _ | .entityError _ => s.MayLose s.bootstrap
  | _ => True

instance Recoverable.decidable (op : ProviderOp) : Decidable (s.Recoverable op) := by
  cases op <;> unfold Recoverable <;> infer_instance

end Provider

end Replicant.Live
