import Replicant.Lib.Transaction
import Replicant.Managed.Engine

/-!
# Operations in flight

Nothing keeps two operations of the engine apart: the read of the snapshot, the command to the store
worker and the replacement of the snapshot are steps of their own, and any number of operations take
them in any order.
-/

namespace Replicant.Managed

open Lib Observation

/-- How far an operation has come. -/
inductive Flight where
  | begun (op : EngineOp)
  /-- The snapshot was read before the command, as the given number of replacements left it. -/
  | read (op : EngineOp) (previous : StateSnapshot) (version : ℕ)
  /-- The command is committed; the snapshot is read next. -/
  | replied (op : EngineOp) (reply : Reply)
  | ready (op : EngineOp) (previous : StateSnapshot) (reply : Reply)
  | done

namespace Flight

def isDone : Flight → Bool
  | .done => true
  | _ => false

/-- The store has the operation, the snapshot does not. -/
def isCommitted : Flight → Bool
  | .replied _ _ | .ready _ _ _ => true
  | _ => false

end Flight

structure FlightState where
  store : ProjectionStore
  snapshot : StateSnapshot
  /-- How often the snapshot was replaced. -/
  version : ℕ
  /-- The revisions that were published. -/
  revisions : List ℕ
  flights : List Flight

inductive FlightOp where
  | start (op : EngineOp)
  | read (i : ℕ)
  /-- The command is sent and replied to; it may fail to commit. -/
  | send (i : ℕ) (commits : Bool)
  | load (i : ℕ)
  | publish (i : ℕ)
  /-- The engine is dropped, with what is in flight, and opened again. -/
  | reopen

namespace FlightState

variable (s : FlightState)

variable (i : ℕ)

def flight : Flight := s.flights.getD i .done

def setFlight (f : Flight) : FlightState := { s with flights := s.flights.set i f }

/-- The command of flight `i`; the flight ends with an error. -/
def commit (commits : Bool) (op : EngineOp) (previous : StateSnapshot)
    (next : Reply → Flight) : FlightState :=
  if commits then
    match op.command previous s.store with
    | .ok (store, reply) => { s with store, flights := s.flights.set i (next reply) }
    | .error _ => s.setFlight i .done
  else s.setFlight i .done

def finish : Publication → FlightState
  | .none => s.setFlight i .done
  | .silent snapshot =>
    { s with snapshot, version := s.version + 1, flights := s.flights.set i .done }
  | .publish snapshot =>
    { s with
      snapshot
      version := s.version + 1
      revisions := s.revisions ++ [snapshot.revision]
      flights := s.flights.set i .done }

/-- The read of an operation that reads first. -/
def read : FlightState :=
  match s.flight i with
  | .begun op => if op.readsFirst then s.setFlight i (.read op s.snapshot s.version) else s
  | _ => s

def send (commits : Bool) : FlightState :=
  match s.flight i with
  | .begun op =>
    if op.readsFirst then s else s.commit i commits op s.snapshot fun reply => .replied op reply
  | .read op previous _ => s.commit i commits op previous fun reply => .ready op previous reply
  | _ => s

/-- The read of the other operations. -/
def load : FlightState :=
  match s.flight i with
  | .replied op reply => s.setFlight i (.ready op s.snapshot reply)
  | _ => s

def publish : FlightState :=
  match s.flight i with
  | .ready op previous reply => s.finish i (op.publication previous reply)
  | _ => s

def step : FlightOp → FlightState
  | .start op => { s with flights := s.flights ++ [.begun op] }
  | .read i => s.read i
  | .send i commits => s.send i commits
  | .load i => s.load i
  | .publish i => s.publish i
  | .reopen => ⟨s.store, s.store.restoreSnapshot, s.version + 1, [0], []⟩

/-- A step, after which the tables are what their texts are read as. -/
def stepWith (readBack : ProjectionStore → ProjectionStore) (s : FlightState) (op : FlightOp) :
    FlightState :=
  { s.step op with store := readBack (s.step op).store }

/-- An engine opened on an empty store publishes revision 0. -/
def init : FlightState := ⟨.empty, ProjectionStore.empty.restoreSnapshot, 0, [0], []⟩

end FlightState

def flightRun (readBack : ProjectionStore → ProjectionStore) (ops : List FlightOp) : FlightState :=
  ops.foldl (FlightState.stepWith readBack) FlightState.init

/-! ## What the snapshot is for -/

namespace FlightState

/-- No operation is in flight. -/
def Quiet (s : FlightState) : Prop := ∀ f ∈ s.flights, f.isDone = true

/-- The published maps are those that would be restored. -/
structure FollowsStore (s : FlightState) : Prop where
  devices : s.snapshot.devices.Same s.store.restoreDevices
  replicants : s.snapshot.replicants.Same s.store.replicants
  locations : s.snapshot.locations.Same s.store.locations
  inventories : s.snapshot.inventories.Same s.store.inventories
  account : s.snapshot.account = s.store.restoreAccount

/-- When nothing is in flight the snapshot follows the store; the revisions only grow. -/
def Consistent (s : FlightState) : Prop :=
  (s.Quiet → s.FollowsStore) ∧ s.revisions.Pairwise (· < ·)

end FlightState

end Replicant.Managed
