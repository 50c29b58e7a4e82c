import Replicant.Workflow.Model

/-!
# The daemon state of the browser

`daemonReducer` on the connection, the revision, the workflows and the slice revisions. A snapshot
replaces all of them, and a live message at or below the loaded revision is a replay. The records of
the browser are functions of their keys.
-/

namespace Replicant.Web

open Workflow List

inductive DomainSlice where
  | entities | universe | overview | devices | inventory | autofactories | cargo | missions | history
  | events | activity | trade | simulations | blueprints | directory | tutorials | messages | bobnet
  | network | standing | leaderboards | workflows | operations | refresh | director
deriving DecidableEq

structure WorkflowSummary where
  id : ℕ
  kind : String
  status : WorkflowStatus
  currentStep : Option String
  revision : ℕ
  updatedAtMs : ℤ
deriving DecidableEq

abbrev SliceRevisions := DomainSlice → Option ℕ

/-- The deltas, with what the state above takes from them. -/
inductive LiveDelta where
  /-- The marker of a snapshot. -/
  | snapshot
  /-- `workflow_created` and `workflow_updated`. -/
  | workflow (summary : WorkflowSummary)
  | domainsInvalidated (slices : List (DomainSlice × ℕ))
  /-- Entities, activity, operations, notifications, automation and status. -/
  | other
deriving DecidableEq

structure LiveMessage where
  revision : ℕ
  delta : LiveDelta
deriving DecidableEq

structure RuntimeSnapshot where
  revision : ℕ
  workflows : List WorkflowSummary
  sliceRevisions : SliceRevisions

inductive ConnectionState where
  | connecting | connected | reconnecting | offline
deriving DecidableEq

structure DaemonState where
  connection : ConnectionState
  revision : Option ℕ
  workflows : ℕ → Option WorkflowSummary
  invalidated : SliceRevisions
  needsResnapshot : Bool
  error : Option String

inductive DaemonAction where
  | connecting (retry : Bool)
  | connected
  | disconnected (error : String)
  | snapshot (snapshot : RuntimeSnapshot)
  | live (message : LiveMessage)
  | continuityLost (error : String)

namespace DaemonState

def initial : DaemonState := ⟨.connecting, none, fun _ => none, fun _ => none, false, none⟩

variable (state : DaemonState)

def continuityLost (error : String) : DaemonState :=
  { state with needsResnapshot := true, error := some error }

/-- The highest revision of a slice is kept. -/
def mergeSlices (current : SliceRevisions) (incoming : List (DomainSlice × ℕ)) : SliceRevisions :=
  incoming.foldl (fun merged entry slice =>
    if slice = entry.1 ∧ (merged slice).getD 0 < entry.2 then some entry.2 else merged slice) current

/-- A list of workflows as a record; the last one with an id counts. -/
def fromEntries (workflows : List WorkflowSummary) (id : ℕ) : Option WorkflowSummary :=
  workflows.reverse.find? (·.id = id)

def requirementKind : String := "requirement.fulfillment"

/-- A delta that is newer than the state. -/
def apply (revision : ℕ) : LiveDelta → DaemonState
  | .workflow summary =>
    { state with
      revision := some revision
      workflows := fun id => if id = summary.id then some summary else state.workflows id
      needsResnapshot := summary.kind = requirementKind }
  | .domainsInvalidated slices =>
    { state with revision := some revision, invalidated := mergeSlices state.invalidated slices }
  | .snapshot | .other => { state with revision := some revision }

def live (message : LiveMessage) : DaemonState :=
  if state.needsResnapshot then state
  else match message.delta, state.revision with
    | .snapshot, some revision =>
      if message.revision ≤ revision then state
      else state.continuityLost "A newer daemon snapshot is available"
    | .snapshot, none => state.continuityLost "A newer daemon snapshot is available"
    | _, none => state.continuityLost "Live updates arrived before a snapshot"
    | delta, some revision =>
      if message.revision ≤ revision then state else state.apply message.revision delta

def loadSnapshot (snapshot : RuntimeSnapshot) : DaemonState :=
  if state.revision.any (snapshot.revision < ·) then state
  else
    { state with
      revision := some snapshot.revision
      workflows := fromEntries snapshot.workflows
      invalidated := snapshot.sliceRevisions
      needsResnapshot := false
      error := none }

def reduce : DaemonAction → DaemonState
  | .connecting retry => { state with connection := if retry then .reconnecting else .connecting }
  | .connected => { state with connection := .connected, error := none }
  | .disconnected error => { state with connection := .offline, error := some error }
  | .continuityLost error => state.continuityLost error
  | .snapshot snapshot => state.loadSnapshot snapshot
  | .live message => state.live message

/-- The messages that were buffered during a bootstrap. -/
def replay (messages : List LiveMessage) : DaemonState := messages.foldl live state

/-! ## What live messages do -/

variable {state} {message : LiveMessage} {revision : ℕ}

/-- Messages at or below the loaded revision are replays. -/
lemma live_of_le (hrev : state.revision = some revision) (hle : message.revision ≤ revision) :
    state.live message = state := by
  obtain ⟨number, delta⟩ := message
  unfold live
  split
  · rfl
  · cases delta <;> simp only [hrev] <;> exact if_pos hle

/-- A newer message that is no marker is applied. -/
lemma live_of_lt (hneeds : state.needsResnapshot = false) (hrev : state.revision = some revision)
    (hlt : revision < message.revision) (hdelta : message.delta ≠ .snapshot) :
    state.live message = state.apply message.revision message.delta := by
  obtain ⟨number, delta⟩ := message
  have hnot : ¬ number ≤ revision := Nat.not_le.mpr hlt
  unfold live
  rw [hneeds, if_neg Bool.false_ne_true]
  cases delta with
  | snapshot => exact absurd rfl hdelta
  | _ =>
    simp only [hrev]
    exact if_neg hnot

@[simp] lemma continuityLost_revision (error : String) :
    (state.continuityLost error).revision = state.revision := rfl

lemma apply_revision (delta : LiveDelta) : (state.apply revision delta).revision = some revision := by
  cases delta <;> rfl

/-- The revision of the browser does not go back. -/
lemma le_revision_live (message : LiveMessage) (hrev : state.revision = some revision) :
    ∃ next, (state.live message).revision = some next ∧ revision ≤ next := by
  by_cases hle : message.revision ≤ revision
  · exact ⟨revision, by rw [live_of_le hrev hle, hrev], Nat.le_refl _⟩
  · by_cases hneeds : state.needsResnapshot = true
    · exact ⟨revision, by simp [live, hneeds, hrev], Nat.le_refl _⟩
    · have hfalse : state.needsResnapshot = false := by simpa using hneeds
      by_cases hdelta : message.delta = .snapshot
      · refine ⟨revision, ?_, Nat.le_refl _⟩
        simp [live, hneeds, hdelta, hrev, hle]
      · rw [live_of_lt hfalse hrev (Nat.lt_of_not_le hle) hdelta]
        exact ⟨message.revision, apply_revision _, Nat.le_of_not_le hle⟩

lemma le_revision_replay (messages : List LiveMessage) (hrev : state.revision = some revision) :
    ∃ next, (state.replay messages).revision = some next ∧ revision ≤ next := by
  induction messages generalizing state revision with
  | nil => exact ⟨revision, hrev, Nat.le_refl _⟩
  | cons message messages ih =>
    obtain ⟨next, hnext, hle⟩ := le_revision_live message hrev
    obtain ⟨last, hlast, hle'⟩ := ih hnext
    exact ⟨last, hlast, Nat.le_trans hle hle'⟩

lemma replay_of_le {messages : List LiveMessage} (hrev : state.revision = some revision)
    (h : ∀ message ∈ messages, message.revision ≤ revision) : state.replay messages = state := by
  induction messages with
  | nil => rfl
  | cons message messages ih =>
    have hfirst := live_of_le hrev (h message mem_cons_self)
    show (state.live message).replay messages = state
    rw [hfirst]
    exact ih fun m hm => h m (mem_cons_of_mem _ hm)

lemma replay_append (first second : List LiveMessage) :
    state.replay (first ++ second) = (state.replay first).replay second :=
  foldl_append

variable {workflows : List WorkflowSummary} {summary : WorkflowSummary}

lemma fromEntries_eq_some {id : ℕ}
    (h : fromEntries workflows id = some summary) : summary ∈ workflows ∧ summary.id = id := by
  have hmem := mem_of_find?_eq_some h
  have hid := find?_some h
  exact ⟨mem_reverse.mp hmem, of_decide_eq_true hid⟩

lemma fromEntries_of_mem (hnodup : (workflows.map (·.id)).Nodup) (h : summary ∈ workflows) :
    fromEntries workflows summary.id = some summary := by
  cases hfound : fromEntries workflows summary.id with
  | none =>
    have hnone := find?_eq_none.mp hfound summary (mem_reverse.mpr h)
    simp at hnone
  | some other =>
    obtain ⟨hmem, hid⟩ := fromEntries_eq_some hfound
    rw [inj_on_of_nodup_map hnodup hmem h hid]

end DaemonState

end Replicant.Web
