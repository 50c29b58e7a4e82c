import Replicant.Web.QueryCache

/-!
# Entries of the query cache

What the calls leave alone, and what they only add to: requests are never removed, their flags are
only set, and a request stays in its place until it settles or is abandoned.
-/

namespace Replicant.Web

open List

variable {revision : List ℕ}

/-! ## Revisions -/

lemma le_foldl_max (revision : List ℕ) (start : ℕ) : start ≤ revision.foldl max start :=
  foldlRecOn revision max (Nat.le_refl start) fun _ hle _ _ =>
    Nat.le_trans hle (Nat.le_max_left _ _)

/-- The maximum of a revision bounds its components. -/
lemma le_foldl_of_mem {value : ℕ} (start : ℕ) (h : value ∈ revision) :
    value ≤ revision.foldl max start := by
  obtain ⟨front, rest, rfl⟩ := append_of_mem h
  rw [foldl_append, foldl_cons]
  exact Nat.le_trans (Nat.le_max_right _ value) (le_foldl_max rest _)

variable {bound : ℕ}

/-- A component that is missing counts as zero. -/
lemma getD_le_revisionScore (revision : List ℕ) (index : ℕ) :
    revision[index]?.getD 0 ≤ revisionScore revision := by
  cases h : revision[index]? with
  | none => exact Nat.zero_le _
  | some => exact le_foldl_of_mem 0 (mem_of_getElem? h)

/-- Merging announces nothing beyond the two revisions. -/
lemma revisionScore_merge_le {current next : List ℕ} (hcur : revisionScore current ≤ bound)
    (hnext : revisionScore next ≤ bound) : revisionScore (mergeRevision current next) ≤ bound := by
  refine foldlRecOn (motive := (· ≤ bound)) _ max (Nat.zero_le _) fun _ hle value hmem => ?_
  refine Nat.max_le.mpr ⟨hle, ?_⟩
  obtain ⟨index, -, rfl⟩ := mem_map.mp hmem
  have hleft := getD_le_revisionScore current index
  have hright := getD_le_revisionScore next index
  omega

/-- Data is fresh if it is from the revision, or later. -/
lemma isFresh_iff {α : Type} {data : Option (Projection α)} :
    isFresh data revision = true ↔ ∃ value ∈ data, revisionScore revision ≤ value.revision := by
  cases data <;> simp [isFresh]

namespace Entry

variable {α : Type} {e t u : Entry α}

/-! ## Events -/

variable (data : Projection α)

/-- The last data that was delivered is the last one in the list. -/
@[simp] lemma lastSuccess_success (events : List (QueryCacheEvent α)) :
    lastSuccess (events ++ [.success data]) = some data := by
  simp [lastSuccess]

/-- Other events do not change what was delivered. -/
lemma lastSuccess_other {events : List (QueryCacheEvent α)} {event : QueryCacheEvent α}
    (h : ∀ data, event ≠ .success data) : lastSuccess (events ++ [event]) = lastSuccess events := by
  cases event with
  | success data => exact absurd rfl (h data)
  | _ => simp [lastSuccess]

variable (event : QueryCacheEvent α)

/-- An event ends no subscription. -/
@[simp] lemma notify_isActive (index : ℕ) : (e.notify event).isActive index = e.isActive index := by
  unfold isActive notify
  rw [getElem?_map]
  cases e.subscribers[index]? with
  | none => rfl
  | some subscriber => by_cases h : subscriber.active <;> simp [h]

lemma hasSubscribers_iff : e.hasSubscribers = true ↔ ∃ index, e.isActive index = true := by
  unfold hasSubscribers isActive
  rw [any_eq_true]
  constructor
  · rintro ⟨subscriber, hmem, hact⟩
    obtain ⟨index, hindex⟩ := getElem?_of_mem hmem
    exact ⟨index, by simp [hindex, hact]⟩
  · rintro ⟨index, hact⟩
    obtain ⟨subscriber, hindex, hsub⟩ := (Option.any_eq_true _ _).mp hact
    exact ⟨subscriber, mem_of_getElem? hindex, hsub⟩

@[simp] lemma notify_hasSubscribers : (e.notify event).hasSubscribers = e.hasSubscribers := by
  rw [Bool.eq_iff_iff, hasSubscribers_iff, hasSubscribers_iff]
  simp

/-- Starting a request neither adds nor ends a subscription. -/
lemma hasSubscribers_run (explicit force : Bool) :
    (e.run explicit force).1.hasSubscribers = e.hasSubscribers := by
  unfold run
  split
  · split <;> rfl
  · split
    · rfl
    · exact notify_hasSubscribers _

variable (revision : List ℕ)

/-- Nor does the announcement of a revision. -/
lemma hasSubscribers_update : (e.update revision).hasSubscribers = e.hasSubscribers := by
  unfold update
  split
  · dsimp only
    split
    · exact notify_hasSubscribers _
    · split
      · exact hasSubscribers_run false false
      · rfl
  · rfl

/-- Whatever the answer, its request stays current until it is settled. -/
@[simp] lemma onData_request : (e.onData data).request = e.request := by
  unfold onData
  split <;> rfl

@[simp] lemma onError_request (q : RequestState α) : (e.onError q).request = e.request := by
  unfold onError
  dsimp only
  split <;> rfl

/-- An answer that has landed is ignored if its request was aborted or is not the current one. -/
lemma handle_cases (e : Entry α) (index : ℕ) : e.handle index = e ∨
    ∃ q answer, e.requests[index]? = some q ∧ q.phase = .landed answer ∧ e.handle index =
      if q.aborted = true ∨ e.request ≠ some index then e.setPhase index .handled
      else match answer with
        | some data => onData { e.setPhase index .handled with lastFailed := false } data
        | none => onError { e.setPhase index .handled with lastFailed := true } q := by
  cases hq : e.requests[index]? with
  | none => exact .inl (by simp [handle, hq])
  | some q =>
    cases hphase : q.phase with
    | landed answer =>
      refine .inr ⟨q, answer, rfl, hphase, ?_⟩
      simp only [handle, hq, hphase]
      cases answer <;> rfl
    | _ => exact .inl (by simp [handle, hq, hphase])

/-- A request that was handled resolves; the current one is then settled. -/
lemma finish_cases (e : Entry α) (index : ℕ) : e.finish index = e ∨
    ∃ q, e.requests[index]? = some q ∧ q.phase = .handled ∧ e.finish index =
      if e.request = some index then (e.setPhase index .resolved).onSettled q
      else e.setPhase index .resolved := by
  cases hq : e.requests[index]? with
  | none => exact .inl (by simp [finish, hq])
  | some q =>
    cases hphase : q.phase with
    | handled =>
      refine .inr ⟨q, rfl, hphase, ?_⟩
      simp only [finish, hq, hphase]
      rfl
    | _ => exact .inl (by simp [finish, hq, hphase])

/-! ## Calls that only add -/

variable {f : RequestState α → RequestState α} {index j : ℕ}

/-- The requests after a change to one of them. -/
lemma getElem?_modifyRequest : (e.modifyRequest index f).requests[j]? =
      (e.requests[j]?).map fun q => if index = j then f q else q := by
  unfold modifyRequest
  rw [getElem?_modify]
  rfl

lemma of_getElem?_modifyRequest {q' : RequestState α}
    (h : (e.modifyRequest index f).requests[j]? = some q') :
    index ≠ j ∧ e.requests[j]? = some q' ∨ index = j ∧ ∃ q, e.requests[j]? = some q ∧ q' = f q := by
  rw [getElem?_modifyRequest] at h
  obtain ⟨q, hq, rfl⟩ := Option.map_eq_some_iff.mp h
  by_cases heq : index = j
  · exact .inr ⟨heq, q, hq, if_pos heq⟩
  · rw [if_neg heq]
    exact .inl ⟨heq, hq⟩

/-- Requests stay, with more flags, and no subscription is taken up again. -/
structure Grows (e t : Entry α) : Prop where
  requests : ∀ (j : ℕ) q, e.requests[j]? = some q →
    ∃ q', t.requests[j]? = some q' ∧ (q.phase ≠ .fetching → q'.phase ≠ .fetching) ∧
      (q.forceFollowUp = true → q'.forceFollowUp = true)
  subscribers : e.subscribers.length ≤ t.subscribers.length
  active : ∀ i < e.subscribers.length, t.isActive i = true → e.isActive i = true
  refreshes : t.refreshes = e.refreshes

/-- The current request stays, too. -/
structure Extends (e t : Entry α) : Prop extends Grows e t where
  request : ∀ j, e.request = some j → t.request = some j

lemma Grows.trans (h : Grows e t) (h' : Grows t u) : Grows e u where
  requests := by
    intro j q hq
    obtain ⟨q', hq', hphase, hforce⟩ := h.requests j q hq
    obtain ⟨q'', hq'', hphase', hforce'⟩ := h'.requests j q' hq'
    exact ⟨q'', hq'', hphase' ∘ hphase, hforce' ∘ hforce⟩
  subscribers := Nat.le_trans h.subscribers h'.subscribers
  active := fun i hi hact =>
    h.active i hi (h'.active i (Nat.lt_of_lt_of_le hi h.subscribers) hact)
  refreshes := h'.refreshes.trans h.refreshes

/-- No request is removed. -/
lemma Grows.length (h : Grows e t) : e.requests.length ≤ t.requests.length := by
  by_cases hlt : t.requests.length < e.requests.length
  · obtain ⟨q', hq', -⟩ := h.requests _ _ (getElem?_eq_getElem hlt)
    have hnone : t.requests[t.requests.length]? = none := getElem?_eq_none (Nat.le_refl _)
    cases hnone.symm.trans hq'
  · exact Nat.le_of_not_lt hlt

/-- A change of the data, the revision or the failure flag leaves all of this alone. -/
lemma extends_of_eq (hrequests : t.requests = e.requests) (hsubs : t.subscribers = e.subscribers)
    (hrefreshes : t.refreshes = e.refreshes) (hreq : t.request = e.request) : Extends e t where
  requests := fun _ q hq => ⟨q, hrequests ▸ hq, id, id⟩
  subscribers := Nat.le_of_eq (congrArg length hsubs.symm)
  active := by
    intro i _ hact
    unfold isActive at hact ⊢
    rw [hsubs] at hact
    exact hact
  refreshes := hrefreshes
  request := fun _ hj => hreq.trans hj

lemma Extends.refl (e : Entry α) : Extends e e := extends_of_eq rfl rfl rfl rfl

lemma Extends.trans (h : Extends e t) (h' : Extends t u) : Extends e u where
  toGrows := h.toGrows.trans h'.toGrows
  request := fun j hj => h'.request j (h.request j hj)

/-- An event is only appended to what the subscribers have received. -/
lemma extends_notify : Extends e (e.notify event) where
  requests := fun _ q hq => ⟨q, hq, id, id⟩
  request := fun _ => id
  subscribers := Nat.le_of_eq (length_map ..).symm
  active := by
    intro i _ hact
    rw [notify_isActive] at hact
    exact hact
  refreshes := rfl

/-- A request may be changed if it does not go back to its fetch and keeps its follow-up. -/
lemma extends_modifyRequest
    (hphase : ∀ q, e.requests[index]? = some q → q.phase ≠ .fetching → (f q).phase ≠ .fetching)
    (hforce : ∀ q : RequestState α, q.forceFollowUp = true → (f q).forceFollowUp = true) :
    Extends e (e.modifyRequest index f) where
  requests := by
    intro j q hq
    rw [getElem?_modifyRequest, hq]
    refine ⟨_, rfl, ?_, ?_⟩
    · split
      · next heq =>
        subst heq
        exact hphase q hq
      · exact id
    · split
      · exact hforce q
      · exact id
  request := fun _ => id
  subscribers := Nat.le_refl _
  active := fun _ _ => id
  refreshes := rfl

/-- A request is launched only where none is current. -/
lemma extends_launch (explicit : Bool) (h : e.request = none) : Extends e (e.launch explicit) := by
  unfold launch
  dsimp only
  refine Extends.trans ?_ (extends_notify _)
  refine ⟨⟨?_, Nat.le_refl _, fun _ _ => id, rfl⟩, ?_⟩
  · intro j q hq
    have hlt := (List.getElem?_eq_some_iff.mp hq).1
    exact ⟨q, (getElem?_append_left hlt).trans hq, id, id⟩
  · intro j hj
    cases h.symm.trans hj

/-- A call joins the request in flight, or launches one where it is needed. -/
lemma extends_run (explicit force : Bool) : Extends e (e.run explicit force).1 := by
  unfold run
  split
  · split
    · exact extends_modifyRequest (fun _ _ => id) fun _ _ => rfl
    · exact Extends.refl e
  · next hnone =>
    split
    · exact Extends.refl e
    · exact extends_launch explicit hnone

/-- A new revision invalidates the request in flight, but does not replace it. -/
lemma extends_update : Extends e (e.update revision) := by
  unfold update
  split
  · have hsame : Extends e { e with latestRevision := mergeRevision e.latestRevision revision } :=
      extends_of_eq rfl rfl rfl rfl
    refine hsame.trans ?_
    dsimp only
    split
    · refine Extends.trans (extends_modifyRequest ?_ ?_) (extends_notify _)
      · exact fun _ _ => id
      · exact fun _ => id
    · split
      · exact extends_run false false
      · exact Extends.refl _
  · exact Extends.refl e

/-- A new subscriber is the last one. -/
lemma extends_subscribe : Extends e (e.subscribe revision) := by
  unfold subscribe
  dsimp only
  refine Extends.trans (t := { e with
    subscribers := e.subscribers ++ [⟨true, e.data.toList.map .success⟩] }) ?_ ?_
  · refine ⟨⟨fun _ q hq => ⟨q, hq, id, id⟩, by simp, ?_, rfl⟩, fun _ => id⟩
    intro i hi hact
    unfold isActive at hact ⊢
    rw [getElem?_append_left hi] at hact
    exact hact
  · refine (extends_update revision).trans ?_
    split
    · exact extends_run false false
    · exact Extends.refl _

/-- Seeded data at most invalidates the request in flight. -/
lemma extends_seed : Extends e (e.seed data revision) := by
  unfold seed
  dsimp only
  refine Extends.trans (t := if e.data.all fun current => current.revision ≤ data.revision then
    { e with data := some data } else e) ?_ ?_
  · split
    · exact extends_of_eq rfl rfl rfl rfl
    · exact Extends.refl e
  · generalize (if e.data.all _ then _ else _) = stored
    split
    · refine Extends.trans (t := { stored with
        latestRevision := mergeRevision stored.latestRevision revision }) ?_ ?_
      · exact extends_of_eq rfl rfl rfl rfl
      · split
        · split
          · exact Extends.refl _
          · exact extends_modifyRequest (fun _ _ => id) fun _ => id
        · exact Extends.refl _
    · exact Extends.refl _

/-- A phase after the fetch. -/
lemma extends_setPhase (e : Entry α) (index : ℕ) (phase : RequestPhase α)
    (h : phase ≠ .fetching) : Extends e (e.setPhase index phase) :=
  extends_modifyRequest (fun _ _ _ => h) fun _ => id

/-- Data older than the cache, or than the announced revision, is ignored. -/
lemma extends_onData : Extends e (e.onData data) := by
  unfold onData
  split
  · exact Extends.refl e
  · exact Extends.trans (t := { e with data := some data }) (extends_of_eq rfl rfl rfl rfl)
      (extends_notify _)

/-- An error is shown unless the request was invalidated or the cache has moved on. -/
lemma extends_onError (q : RequestState α) : Extends e (e.onError q) := by
  unfold onError
  dsimp only
  split
  · exact Extends.refl e
  · exact extends_notify _

/-- Handling an answer settles nothing yet. -/
lemma extends_handle (index : ℕ) : Extends e (e.handle index) := by
  have hphase : Extends e (e.setPhase index .handled) := extends_setPhase e index _ nofun
  have hfailed : ∀ failed, Extends e { e.setPhase index .handled with lastFailed := failed } :=
    fun failed => hphase.trans (extends_of_eq rfl rfl rfl rfl)
  rcases handle_cases e index with heq | ⟨q, answer, -, -, heq⟩
  · rw [heq]
    exact Extends.refl e
  · rw [heq]
    split
    · exact hphase
    · cases answer with
      | some data => exact (hfailed false).trans (extends_onData data)
      | none => exact (hfailed true).trans (extends_onError q)

end Entry

end Replicant.Web
