import Replicant.Lib.Transaction

/-!
# The query cache of the browser

An entry of the cache has the newest revision that was announced, the newest data, at most one
request, and its subscribers. A request settles in three turns: the fetch lands, its callback stores
the data, and the last callback clears the request and starts another one where needed. Calls of the
cache come between any two turns, and listeners make none. A revision string is given by its
components.
-/

namespace Replicant.Web

open Lib

structure Projection (α : Type) where
  revision : ℕ
  value : α
deriving DecidableEq

inductive QueryCacheEvent (α : Type) where
  | start (explicit : Bool)
  | success (data : Projection α)
  | error
  | coalesced
deriving DecidableEq

def revisionScore (revision : List ℕ) : ℕ := revision.foldl max 0

def revisionIsNewer (next previous : List ℕ) : Bool :=
  next.zipIdx.any fun (value, index) => previous[index]?.getD 0 < value

def mergeRevision (current next : List ℕ) : List ℕ :=
  (List.range (max current.length next.length)).map fun index =>
    max (current[index]?.getD 0) (next[index]?.getD 0)

def isFresh {α : Type} (data : Option (Projection α)) (revision : List ℕ) : Bool :=
  data.any fun value => revisionScore revision ≤ value.revision

inductive RequestPhase (α : Type) where
  | fetching
  /-- The fetch has settled, with data or with an error. -/
  | landed (answer : Option (Projection α))
  /-- The first callback has run. -/
  | handled
  /-- The promise is resolved. -/
  | resolved
deriving DecidableEq

structure RequestState (α : Type) where
  /-- The revision of the server when the fetch started. -/
  launched : ℕ
  initialDataRevision : Option ℕ
  phase : RequestPhase α
  aborted : Bool
  forceFollowUp : Bool
  forceFollowUpExplicit : Bool
  /-- There is an `invalidatedRevision`. -/
  invalidated : Bool
deriving DecidableEq

structure Subscriber (α : Type) where
  active : Bool
  /-- The events that the listener was called with. -/
  events : List (QueryCacheEvent α)
deriving DecidableEq

/-- What a promise waits for. -/
inductive Awaited where
  | nothing
  | request (index : ℕ)
  /-- This request, and then the one that follows it. -/
  | followUp (index : ℕ)
deriving DecidableEq

/-- The promise of a refresh. -/
structure Refresh where
  subscriber : ℕ
  /-- The fetches started before the call. -/
  since : ℕ
  awaited : Awaited
deriving DecidableEq

/-- An entry of the cache, with all of its requests and the revision of the server. -/
structure Entry (α : Type) where
  server : ℕ
  latestRevision : List ℕ
  data : Option (Projection α)
  request : Option ℕ
  requests : List (RequestState α)
  subscribers : List (Subscriber α)
  refreshes : List Refresh
  /-- The last request that settled has failed. -/
  lastFailed : Bool
deriving DecidableEq

inductive CacheOp (α : Type) where
  /-- The server moves on. -/
  | advance
  | subscribe (revision : List ℕ)
  | unsubscribe (subscriber : ℕ)
  | updateRevision (subscriber : ℕ) (revision : List ℕ)
  | invalidate (revision : List ℕ)
  | seed (data : Projection α) (revision : List ℕ)
  | refresh (subscriber : ℕ)
  /-- The fetch of a request settles. -/
  | settle (request : ℕ) (answer : Option (Projection α))
  | handle (request : ℕ)
  | finish (request : ℕ)
  /-- The promise of a refresh goes on. -/
  | resume (refresh : ℕ)
deriving DecidableEq

namespace Entry

variable {α : Type} (e : Entry α)

def create (server : ℕ) (revision : List ℕ) : Entry α :=
  ⟨server, revision, none, none, [], [], [], false⟩

def hasSubscribers : Bool := e.subscribers.any (·.active)

variable (subscriber index : ℕ)

def isActive : Bool := e.subscribers[subscriber]?.any (·.active)

def notify (event : QueryCacheEvent α) : Entry α :=
  { e with subscribers := e.subscribers.map fun subscriber =>
      if subscriber.active then { subscriber with events := subscriber.events ++ [event] }
      else subscriber }

def modifyRequest (f : RequestState α → RequestState α) : Entry α :=
  { e with requests := e.requests.modify index f }

def newRequest : RequestState α :=
  ⟨e.server, e.data.map (·.revision), .fetching, false, false, false, false⟩

/-- A new request. -/
def launch (explicit : Bool) : Entry α :=
  let e := { e with
    request := some e.requests.length
    requests := e.requests ++ [e.newRequest] }
  e.notify (.start explicit)

/-- The entry and the promise. -/
def run (explicit force : Bool) : Entry α × Awaited :=
  match e.request with
  | some current =>
    if force then
      (e.modifyRequest current fun request =>
        { request with
          forceFollowUp := true
          forceFollowUpExplicit := request.forceFollowUpExplicit || explicit },
      if explicit then .followUp current else .request current)
    else (e, .request current)
  | none =>
    if !force && isFresh e.data e.latestRevision then (e, .nothing)
    else (e.launch explicit, .request e.requests.length)

def update (revision : List ℕ) : Entry α :=
  if revisionIsNewer revision e.latestRevision then
    let e := { e with latestRevision := mergeRevision e.latestRevision revision }
    match e.request with
    | some current =>
      (e.modifyRequest current fun request => { request with invalidated := true }).notify .coalesced
    | none => if e.hasSubscribers then (e.run false false).1 else e
  else e

def subscribe (revision : List ℕ) : Entry α :=
  let subscriber : Subscriber α := ⟨true, e.data.toList.map .success⟩
  let e := { e with subscribers := e.subscribers ++ [subscriber] }
  let e := e.update revision
  if e.request.isNone && !isFresh e.data e.latestRevision then (e.run false false).1 else e

def unsubscribe : Entry α :=
  if e.isActive subscriber then
    let e := { e with
      subscribers := e.subscribers.modify subscriber fun s => { s with active := false } }
    match e.hasSubscribers, e.request with
    | false, some current =>
      { e with request := none }.modifyRequest current fun request => { request with aborted := true }
    | _, _ => e
  else e

def refresh : Entry α :=
  if e.isActive subscriber then
    let (t, awaited) := e.run true true
    { t with refreshes := t.refreshes ++ [⟨subscriber, e.requests.length, awaited⟩] }
  else e

def seed (data : Projection α) (revision : List ℕ) : Entry α :=
  let e :=
    if e.data.all fun current => current.revision ≤ data.revision then { e with data := some data }
    else e
  if revisionIsNewer revision e.latestRevision then
    let e := { e with latestRevision := mergeRevision e.latestRevision revision }
    match e.request with
    | some current =>
      if isFresh e.data e.latestRevision then e
      else e.modifyRequest current fun request => { request with invalidated := true }
    | none => e
  else e

/-- The callback for the data of a fetch. -/
def onData (data : Projection α) : Entry α :=
  if data.revision < revisionScore e.latestRevision ∨
      (e.data.any fun current => data.revision < current.revision) then e
  else { e with data := some data }.notify (.success data)

/-- The callback for its error. -/
def onError (request : RequestState α) : Entry α :=
  let cacheAdvanced := e.data.any fun current =>
    request.initialDataRevision.all (· < current.revision)
  if request.invalidated || (cacheAdvanced && isFresh e.data e.latestRevision) then e
  else e.notify .error

/-- The last callback. -/
def onSettled (request : RequestState α) : Entry α :=
  let e := { e with request := none }
  let invalidationNeedsFollowUp := request.invalidated && !isFresh e.data e.latestRevision
  if e.hasSubscribers && (request.forceFollowUp || invalidationNeedsFollowUp) then
    (e.run request.forceFollowUpExplicit request.forceFollowUp).1
  else e

def setPhase (phase : RequestPhase α) : Entry α :=
  e.modifyRequest index fun request => { request with phase }

def handle : Entry α :=
  match e.requests[index]? with
  | some request =>
    match request.phase with
    | .landed answer =>
      let e := e.setPhase index .handled
      if request.aborted ∨ e.request ≠ some index then e
      else
        let e := { e with lastFailed := answer.isNone }
        match answer with
        | some data => e.onData data
        | none => e.onError request
    | _ => e
  | none => e

def finish : Entry α :=
  match e.requests[index]? with
  | some request =>
    if request.phase matches .handled then
      let e := e.setPhase index .resolved
      if e.request = some index then e.onSettled request else e
    else e
  | none => e

def isResolved : Bool :=
  e.requests[index]?.any (·.phase matches .resolved)

/-- The next turn of a promise. -/
def proceed : Awaited → Awaited
  | .nothing => .nothing
  | .request index => if e.isResolved index then .nothing else .request index
  | .followUp index =>
    if e.isResolved index then e.request.elim .nothing .request else .followUp index

def step : CacheOp α → Entry α
  | .advance => { e with server := e.server + 1 }
  | .subscribe revision => e.subscribe revision
  | .unsubscribe subscriber => e.unsubscribe subscriber
  | .updateRevision subscriber revision => if e.isActive subscriber then e.update revision else e
  | .invalidate revision => e.update revision
  | .seed data revision => e.seed data revision
  | .refresh subscriber => e.refresh subscriber
  | .settle request answer =>
    if e.requests[request]?.any (·.phase matches .fetching) then e.setPhase request (.landed answer)
    else e
  | .handle request => e.handle request
  | .finish request => e.finish request
  | .resume refresh =>
    { e with refreshes := e.refreshes.modify refresh fun r =>
        { r with awaited := e.proceed r.awaited } }

/-! ## What is expected -/

/-- The data of the last success event. -/
def lastSuccess (events : List (QueryCacheEvent α)) : Option (Projection α) :=
  events.foldl (fun last event => match event with
    | .success data => some data
    | _ => last) none

/-- Without a request, the data is as new as announced, and every subscriber has it. -/
def Current : Prop :=
  e.request = none → e.hasSubscribers = true → e.lastFailed = false →
    ∃ data ∈ e.data, revisionScore e.latestRevision ≤ data.revision ∧
      ∀ subscriber ∈ e.subscribers, subscriber.active = true →
        lastSuccess subscriber.events = some data

/-- A request that is not aborted and has not settled. -/
def InFlight : Prop :=
  ∃ request ∈ e.requests[index]?, request.aborted = false ∧ request.phase ≠ .resolved

/-- A fetch that was started at this point or later has settled. -/
def SettledSince (since : ℕ) : Prop :=
  ∃ index, since ≤ index ∧ ∃ request ∈ e.requests[index]?, request.phase ≠ .fetching

/-- Shared queries end up fresh. -/
structure EndsFresh : Prop where
  current : e.Current
  single : ∀ i j, e.InFlight i → e.InFlight j → i = j
  refreshed : ∀ r ∈ e.refreshes, r.awaited = .nothing →
    e.isActive r.subscriber = false ∨ e.SettledSince r.since

/-- Announced revisions do not exceed that of the server, and a fetch returns what the server had
when it started, or newer. -/
def Honest : CacheOp α → Prop
  | .subscribe revision | .updateRevision _ revision | .invalidate revision =>
    revisionScore revision ≤ e.server
  | .seed _ revision => revisionScore revision ≤ e.server
  | .settle index (some data) => ∀ request ∈ e.requests[index]?, request.launched ≤ data.revision
  | _ => True

/-- An entry is seeded while it has no subscribers, or with nothing new. -/
def SeedsUnseen : CacheOp α → Prop
  | .seed data revision => e.hasSubscribers = false ∨
    (e.data.any fun current => data.revision < current.revision) = true ∧
      revisionIsNewer revision e.latestRevision = false
  | _ => True

instance Honest.decidable (op : CacheOp α) : Decidable (e.Honest op) := by
  unfold Honest
  split <;> infer_instance

instance SeedsUnseen.decidable (op : CacheOp α) : Decidable (e.SeedsUnseen op) := by
  cases op <;> unfold SeedsUnseen <;> infer_instance

end Entry

end Replicant.Web
