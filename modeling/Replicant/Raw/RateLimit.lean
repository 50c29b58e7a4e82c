import Mathlib.Data.Int.Order.Basic
import Replicant.Lib.Transaction

/-!
# The rate limiter of the raw client

One bucket of the coordinator of `rate_limit.rs`: the credit schedule, the two queues of waiting
tickets, the paces of refresh runs and the ledger that processes share. A call of
`acquire_with_refresh` is cut at its lock sections; calls take turns with observed responses, changes
of policy, peers that write the ledger and the passing of time. Instants and durations are in
nanoseconds, the ledger's own instants in milliseconds.
-/

namespace Replicant.Raw

inductive RequestPriority where
  | foreground
  | background
deriving DecidableEq

/-! ## The schedule of a bucket -/

structure RateLimitPolicy where
  capacity : ℕ
  refillEvery : ℕ
deriving DecidableEq

/-- `refill_every / capacity.max(1)`. -/
def RateLimitPolicy.spacing (policy : RateLimitPolicy) : ℕ :=
  policy.refillEvery / max policy.capacity 1

/-- No instant lies before the origin of the clock, where `checked_sub` fails. -/
def creditFloor (now : ℕ) (policy : RateLimitPolicy) : ℕ :=
  let savedCredit := policy.spacing * (max policy.capacity 1 - 1)
  if savedCredit ≤ now then now - savedCredit else now

structure RateLimitReset where
  epochSeconds : ℕ
  delay : ℕ
deriving DecidableEq

structure RateLimitSnapshot where
  limit : Option ℕ
  remaining : Option ℕ
  reset : Option RateLimitReset
  retryAfter : Option ℕ
deriving DecidableEq

/-- `Retry-After` wins over the reset of the window. -/
def RateLimitSnapshot.delay (snapshot : RateLimitSnapshot) : Option ℕ :=
  snapshot.retryAfter.or (snapshot.reset.map (·.delay))

/-- The delay of a response that is rate limited or leaves no permit. -/
def enforcedDelay (status : ℕ) (snapshot : RateLimitSnapshot) : Option ℕ :=
  if status = 429 ∨ snapshot.remaining = some 0 then snapshot.delay else none

structure Bucket where
  next : ℕ
  policy : RateLimitPolicy
  server : Option RateLimitSnapshot
deriving DecidableEq

namespace Bucket

variable (bucket : Bucket) (now : ℕ)

/-- The schedule with its credit cut to what the policy lets a bucket save. -/
def floored : ℕ := max bucket.next (creditFloor now bucket.policy)

/-- The section that takes a permit, or finds that none is due. -/
def debit : Bucket × Bool :=
  if bucket.floored now ≤ now then
    ({ bucket with next := bucket.floored now + bucket.policy.spacing }, true)
  else ({ bucket with next := bucket.floored now }, false)

def observe (status : ℕ) (snapshot : RateLimitSnapshot) : Bucket :=
  match enforcedDelay status snapshot with
  | some delay => { bucket with next := now + delay, server := some snapshot }
  | none => { bucket with server := some snapshot }

def setPolicy (policy : RateLimitPolicy) : Bucket :=
  { bucket with policy, next := creditFloor now policy }

end Bucket

/-! ## The queues -/

/-- Tickets are named by the call they belong to. -/
structure RequestQueue where
  foreground : List ℕ
  background : List ℕ
  foregroundStreak : ℕ
deriving DecidableEq

namespace RequestQueue

variable (queue : RequestQueue)

def pruneCancelled (active : ℕ → Bool) : RequestQueue where
  foreground := queue.foreground.filter active
  background := queue.background.filter active
  foregroundStreak :=
    if queue.foreground.filter active = [] ∧ queue.background.filter active = [] then 0
    else queue.foregroundStreak

def foregroundTurn : Bool :=
  !queue.foreground.isEmpty && (queue.background.isEmpty || queue.foregroundStreak < 8)

def next : Option ℕ :=
  if queue.foregroundTurn then queue.foreground.head? else queue.background.head?

/-- The streak is a byte and saturates. The ticket that is next is also notified. -/
def popNext : RequestQueue :=
  let popped : RequestQueue :=
    if queue.foregroundTurn then
      { queue with
        foreground := queue.foreground.tail
        foregroundStreak := min (queue.foregroundStreak + 1) 255 }
    else { queue with background := queue.background.tail, foregroundStreak := 0 }
  if popped.foreground = [] ∧ popped.background = [] then { popped with foregroundStreak := 0 }
  else popped

def push : RequestPriority → ℕ → RequestQueue
  | .foreground, ticket => { queue with foreground := queue.foreground ++ [ticket] }
  | .background, ticket => { queue with background := queue.background ++ [ticket] }

/-- The queue of a priority. -/
def tickets : RequestPriority → List ℕ
  | .foreground => queue.foreground
  | .background => queue.background

end RequestQueue

/-! ## The pace of a refresh run -/

structure RefreshBudgetContext where
  runId : String
  capacity : ℕ
deriving DecidableEq

structure RefreshBucket where
  next : ℕ
  capacity : ℕ
  permitCount : ℕ
deriving DecidableEq

namespace RefreshBudgetContext

variable (context : RefreshBudgetContext)

/-- `capacity.clamp(1, 60)`. -/
def clamped : ℕ := max 1 (min context.capacity 60)

/-- `acquire_refresh_local`: the schedule after the call and the instant it sleeps until. -/
def reserve (now : ℕ) (schedule : Option RefreshBucket) : RefreshBucket × ℕ :=
  let before := schedule.getD ⟨now, context.clamped, 0⟩
  let grant := max before.next now
  (⟨grant + 60000000000 / context.clamped, context.clamped, before.permitCount + 1⟩, grant)

end RefreshBudgetContext

/-! ## The ledger of all processes -/

structure ScheduleRow where
  nextPermitMs : ℤ
  blockedUntilMs : ℤ
deriving DecidableEq

structure RefreshScheduleRow where
  nextPermitMs : ℤ
  blockedUntilMs : ℤ
  permitCount : ℤ
deriving DecidableEq

/-- The rows of the bucket in `rate_limit_schedule`, and of the runs in `refresh_rate_schedule`. -/
structure SharedRateLimit where
  schedule : Option ScheduleRow
  refresh : String → Option RefreshScheduleRow

/-- `i64::MAX`. -/
def maxMs : ℤ := 9223372036854775807

def saturatingAdd (a b : ℤ) : ℤ := min (a + b) maxMs

/-- `duration_millis_i64`. -/
def durationMillis (duration : ℕ) : ℤ := min (duration / 1000000 : ℕ) maxMs

def RateLimitPolicy.spacingMs (policy : RateLimitPolicy) : ℤ :=
  max (durationMillis policy.refillEvery / (max policy.capacity 1 : ℕ)) 1

def RefreshBudgetContext.spacingMs (context : RefreshBudgetContext) : ℤ :=
  max (60000 / (context.clamped : ℤ)) 1

/-- The transactions of a bucket, with the clock of the process that makes each. -/
inductive LedgerOp where
  | acquire (nowMs : ℕ) (policy : RateLimitPolicy) (context : Option RefreshBudgetContext)
  | blockFor (nowMs delay : ℕ)
  | clearRefreshSchedule (runId : String)
deriving DecidableEq

namespace SharedRateLimit

variable (shared : SharedRateLimit)

/-- The instant the transaction grants a slot at. -/
def grantAt (nowMs : ℤ) (context : Option RefreshBudgetContext) : ℤ :=
  let current := shared.schedule.getD ⟨0, 0⟩
  let paced := (context.bind fun context => shared.refresh context.runId).getD ⟨0, 0, 0⟩
  max (max (max (max nowMs current.nextPermitMs) current.blockedUntilMs) paced.nextPermitMs)
    paced.blockedUntilMs

/-- The rows after a transaction. -/
def transact : LedgerOp → SharedRateLimit
  | .acquire nowMs policy context =>
    let grant := shared.grantAt nowMs context
    { schedule := some { shared.schedule.getD ⟨0, 0⟩ with
        nextPermitMs := saturatingAdd grant policy.spacingMs }
      refresh := context.elim shared.refresh fun context =>
        let paced := (shared.refresh context.runId).getD ⟨0, 0, 0⟩
        Function.update shared.refresh context.runId (some { paced with
          nextPermitMs := saturatingAdd grant context.spacingMs
          permitCount := saturatingAdd paced.permitCount 1 }) }
  | .blockFor nowMs delay =>
    let blocked := saturatingAdd nowMs (durationMillis delay)
    -- the deadline is both columns of a row that is inserted
    let row := shared.schedule.getD ⟨blocked, blocked⟩
    { shared with
      schedule := some ⟨max row.nextPermitMs blocked, max row.blockedUntilMs blocked⟩ }
  | .clearRefreshSchedule runId =>
    { shared with refresh := Function.update shared.refresh runId none }

end SharedRateLimit

/-! ## Calls -/

/-- Where a call of `acquire_with_refresh` is. -/
inductive Stage where
  /-- Asleep until the slot of its refresh run; it has no ticket yet. -/
  | pacing (due : ℕ)
  /-- In the loop, about to look at the queue or asleep. -/
  | queued
  /-- It found its ticket to be next. -/
  | chosen
  /-- It took a permit of the bucket. -/
  | debited
  /-- It has popped the queue. -/
  | granted
  /-- It read the policy for the ledger. -/
  | recording (policy : RateLimitPolicy)
  /-- Asleep until the slot that the ledger recorded for it. -/
  | sleeping (due : ℕ)
  | returned (instant : ℕ)
  /-- Its future was dropped. -/
  | cancelled
deriving DecidableEq

namespace Stage

/-- The flag of the ticket. -/
def active : Stage → Bool
  | .queued | .chosen | .debited | .granted | .recording _ | .sleeping _ => true
  | .pacing _ | .returned _ | .cancelled => false

/-- The ticket is alive and was not granted. -/
def waits : Stage → Bool
  | .queued | .chosen | .debited => true
  | _ => false

/-- Between the section that finds the ticket to be next and the one that pops the queue. -/
def inGap : Stage → Bool
  | .chosen | .debited => true
  | _ => false

/-- Between the permit of the bucket and the return. -/
def holdsPermit : Stage → Bool
  | .debited | .granted | .recording _ | .sleeping _ => true
  | _ => false

end Stage

structure Caller where
  priority : RequestPriority
  context : Option RefreshBudgetContext
  stage : Stage
deriving DecidableEq

structure RateLimitCoordinator where
  now : ℕ
  bucket : Bucket
  queue : RequestQueue
  refresh : String → Option RefreshBucket
  shared : Option SharedRateLimit
  callers : List Caller
  /-- Delays that `observe_response` has yet to write to the ledger. -/
  unpublished : List ℕ
  /-- The instants of the permits that were taken of the bucket. -/
  grants : List ℕ
  /-- The foreground grants since background tickets wait, or since the last of these was granted. -/
  overtaken : ℕ

inductive RateLimitOp where
  | tick (duration : ℕ)
  | call (priority : RequestPriority) (context : Option RefreshBudgetContext)
  | enqueue (ticket : ℕ)
  /-- Prune, and look whether the own ticket is next. -/
  | check (ticket : ℕ)
  | debit (ticket : ℕ)
  /-- Prune, and pop. -/
  | pop (ticket : ℕ)
  /-- Return, or read the policy if there is a ledger. -/
  | share (ticket : ℕ)
  /-- The transaction on the ledger, at what the clock of the system shows; it may fail. -/
  | record (ticket : ℕ) (nowMs : ℕ) (fails : Bool)
  | wake (ticket : ℕ)
  | cancel (ticket : ℕ)
  | observe (status : ℕ) (snapshot : RateLimitSnapshot)
  /-- `block_for` of an observed delay; it may fail. -/
  | publish (nowMs : ℕ) (fails : Bool)
  | setPolicy (policy : RateLimitPolicy)
  /-- Another process writes the ledger, or the ledger is enabled. -/
  | peer (shared : SharedRateLimit)

namespace RateLimitCoordinator

variable (s : RateLimitCoordinator)

variable (ticket : ℕ)

def stage : Stage := (s.callers[ticket]?.map (·.stage)).getD .cancelled

def priority : RequestPriority :=
  (s.callers[ticket]?.map (·.priority)).getD .foreground

def context : Option RefreshBudgetContext :=
  s.callers[ticket]?.bind (·.context)

def active : Bool := (s.stage ticket).active

def setStage (stage : Stage) : RateLimitCoordinator :=
  { s with callers := s.callers.modify ticket fun caller => { caller with stage } }

/-- Some background ticket waits. -/
def backgroundWaits : Bool :=
  s.callers.any fun caller => caller.priority = .background && caller.stage.waits

/-! ### The sections of a call -/

def callStep (priority : RequestPriority) : Option RefreshBudgetContext → RateLimitCoordinator
  | none => { s with callers := s.callers ++ [⟨priority, none, .pacing s.now⟩] }
  | some context =>
    let (schedule, due) := context.reserve s.now (s.refresh context.runId)
    { s with
      refresh := Function.update s.refresh context.runId (some schedule)
      callers := s.callers ++ [⟨priority, some context, .pacing due⟩] }

def enqueueStep : RateLimitCoordinator :=
  match s.stage ticket with
  | .pacing due =>
    if due ≤ s.now then
      { s.setStage ticket .queued with queue := s.queue.push (s.priority ticket) ticket }
    else s
  | _ => s

def checkStep : RateLimitCoordinator :=
  match s.stage ticket with
  | .queued =>
    let queue := s.queue.pruneCancelled s.active
    if queue.next = some ticket then { s.setStage ticket .chosen with queue } else { s with queue }
  | _ => s

/-- A call that finds no permit sleeps, or is woken, and starts over. -/
def debitStep : RateLimitCoordinator :=
  match s.stage ticket with
  | .chosen =>
    match s.bucket.debit s.now with
    | (bucket, true) =>
      { s.setStage ticket .debited with bucket, grants := s.now :: s.grants }
    | (bucket, false) => { s.setStage ticket .queued with bucket }
  | _ => s

def popStep : RateLimitCoordinator :=
  match s.stage ticket with
  | .debited =>
    { s.setStage ticket .granted with
      queue := (s.queue.pruneCancelled s.active).popNext
      overtaken := if s.priority ticket = .foreground then s.overtaken + 1 else 0 }
  | _ => s

def shareStep : RateLimitCoordinator :=
  match s.stage ticket with
  | .granted =>
    match s.shared with
    | some _ => s.setStage ticket (.recording s.bucket.policy)
    | none => s.setStage ticket (.returned s.now)
  | _ => s

def recordStep (nowMs : ℕ) (fails : Bool) : RateLimitCoordinator :=
  match s.stage ticket, s.shared with
  | .recording policy, some shared =>
    if fails then s.setStage ticket (.returned s.now)
    else
      let wait := shared.grantAt nowMs (s.context ticket) - nowMs
      { s.setStage ticket (.sleeping (s.now + wait.toNat * 1000000)) with
        shared := some (shared.transact (.acquire nowMs policy (s.context ticket))) }
  | _, _ => s

def wakeStep : RateLimitCoordinator :=
  match s.stage ticket with
  | .sleeping due => if due ≤ s.now then s.setStage ticket (.returned s.now) else s
  | _ => s

/-- A call that has returned cannot be cancelled. -/
def cancelStep : RateLimitCoordinator :=
  match s.stage ticket with
  | .returned _ => s
  | _ => s.setStage ticket .cancelled

/-! ### Responses -/

def observeStep (status : ℕ) (snapshot : RateLimitSnapshot) : RateLimitCoordinator :=
  { s with
    bucket := s.bucket.observe s.now status snapshot
    unpublished := s.unpublished ++ (enforcedDelay status snapshot).toList }

def publishStep (nowMs : ℕ) (fails : Bool) : RateLimitCoordinator :=
  match s.unpublished with
  | [] => s
  | delay :: rest =>
    if fails then { s with unpublished := rest }
    else { s with unpublished := rest, shared := s.shared.map (·.transact (.blockFor nowMs delay)) }

def act : RateLimitOp → RateLimitCoordinator
  | .tick duration => { s with now := s.now + duration }
  | .call priority context => s.callStep priority context
  | .enqueue ticket => s.enqueueStep ticket
  | .check ticket => s.checkStep ticket
  | .debit ticket => s.debitStep ticket
  | .pop ticket => s.popStep ticket
  | .share ticket => s.shareStep ticket
  | .record ticket nowMs fails => s.recordStep ticket nowMs fails
  | .wake ticket => s.wakeStep ticket
  | .cancel ticket => s.cancelStep ticket
  | .observe status snapshot => s.observeStep status snapshot
  | .publish nowMs fails => s.publishStep nowMs fails
  | .setPolicy policy => { s with bucket := s.bucket.setPolicy s.now policy }
  | .peer shared => { s with shared := some shared }

/-- No background ticket waits, so none is overtaken. -/
def noteOvertaken : RateLimitCoordinator :=
  { s with overtaken := if s.backgroundWaits then s.overtaken else 0 }

def step (op : RateLimitOp) : RateLimitCoordinator := (s.act op).noteOvertaken

/-- `new`, for a bucket of any policy. -/
def new (now : ℕ) (policy : RateLimitPolicy) : RateLimitCoordinator where
  now := now
  bucket := ⟨creditFloor now policy, policy, none⟩
  queue := ⟨[], [], 0⟩
  refresh := fun _ => none
  shared := none
  callers := []
  unpublished := []
  grants := []
  overtaken := 0

def run (ops : List RateLimitOp) : RateLimitCoordinator := ops.foldl step s

end RateLimitCoordinator

/-! ## What the limiter is for -/

namespace RateLimitCoordinator

variable (s : RateLimitCoordinator)

/-- A ticket that waits is in the queue of its priority, once, and in no other. -/
def KeepsWaiters : Prop :=
  ∀ ticket, (s.stage ticket).waits = true → (s.queue.tickets (s.priority ticket)).count ticket = 1 ∧
    (s.queue.foreground ++ s.queue.background).count ticket = 1

/-- The pop of a call that took a permit removes the ticket of that call and no other. -/
def PopsOwnTicket : Prop :=
  ∀ ticket, s.stage ticket = .debited →
    let queue := s.queue.pruneCancelled s.active
    ticket ∈ queue.tickets (s.priority ticket) ∧
      queue.popNext.foreground ++ queue.popNext.background =
        (queue.foreground ++ queue.background).erase ticket

/-- No waiter is lost, each grant is charged to its own ticket, and background tickets are
overtaken eight times at most. -/
def ServesWaiters : Prop := s.KeepsWaiters ∧ s.PopsOwnTicket ∧ s.overtaken ≤ 8

/-- The permits taken in the half-open interval of the given length. -/
def grantsIn (start length : ℕ) : ℕ :=
  s.grants.countP fun instant => start ≤ instant ∧ instant < start + length

end RateLimitCoordinator

/-- Neither an enforced observation nor a change of policy. -/
def RateLimitOp.keepsSchedule : RateLimitOp → Bool
  | .observe status snapshot => (enforcedDelay status snapshot).isNone
  | .setPolicy _ => false
  | _ => true

/-- After an enforced delay every call that had not returned returns at its end or later, as long as
no other enforced delay is observed and the policy stays. -/
def BlockHolds (s : RateLimitCoordinator) (ops : List RateLimitOp) : Prop :=
  ∀ before status snapshot after delay, ops = before ++ .observe status snapshot :: after →
    enforcedDelay status snapshot = some delay →
    (∀ op ∈ after, op.keepsSchedule = true) →
    ∀ ticket instant, (s.run ops).stage ticket = .returned instant →
      (s.run before).stage ticket = .returned instant ∨ (s.run before).now + delay ≤ instant

end Replicant.Raw
