import Replicant.Web.QueryEntry

/-!
# The requests of a query

The current request is the last one that was started, and it is not invalidated only if it was
started at the announced revision or later. So its answer is fresh, or another request follows, as
long as entries are seeded where nobody sees it.
-/

namespace Replicant.Web

open Entry List Option

variable {revision : List ℕ}

namespace Entry

variable {α : Type} {e t : Entry α} {q : RequestState α} {index i : ℕ}

/-! ## The invariant -/

/-- The request is the current one. -/
structure Working (e : Entry α) (index : ℕ) (q : RequestState α) : Prop where
  last : index + 1 = e.requests.length
  wanted : q.aborted = false
  unsettled : q.phase ≠ .resolved
  watched : e.hasSubscribers = true
  recent : q.invalidated = true ∨ revisionScore e.latestRevision ≤ q.launched
  handled : q.phase = .handled →
    q.invalidated = true ∨ e.lastFailed = true ∨ isFresh e.data e.latestRevision = true

structure Core (e : Entry α) : Prop where
  announced : revisionScore e.latestRevision ≤ e.server
  answers : ∀ (i : ℕ) q, e.requests[i]? = some q →
    ∀ data, q.phase = .landed (some data) → q.launched ≤ data.revision
  alone : ∀ (i : ℕ) q, e.requests[i]? = some q → q.aborted = false →
    q.phase ≠ .resolved → e.request = some i
  delivered : ∀ s ∈ e.subscribers, s.active = true → lastSuccess s.events = e.data
  working : ∀ i, e.request = some i → ∃ q, e.requests[i]? = some q ∧ e.Working i q

/-- Without a request, what the subscribers see is fresh. -/
def Idle (e : Entry α) : Prop :=
  e.request = none → e.hasSubscribers = true → e.lastFailed = false →
    isFresh e.data e.latestRevision = true

lemma idle_of_request (h : e.request = some i) : e.Idle := by
  intro hnone
  cases h.symm.trans hnone

lemma Core.request_none (h : e.Core) (hsubs : e.hasSubscribers = false) : e.request = none := by
  cases hreq : e.request with
  | none => rfl
  | some i =>
    obtain ⟨q, -, hworking⟩ := h.working i hreq
    cases hsubs.symm.trans hworking.watched

/-! ## Notifications and flags -/

lemma Core.notify {event : QueryCacheEvent α} (h : e.Core) (hevent : ∀ data, event ≠ .success data) :
    (e.notify event).Core where
  announced := h.announced
  answers := h.answers
  alone := h.alone
  delivered := by
    intro s hs hact
    obtain ⟨old, hold, rfl⟩ := mem_map.mp hs
    cases hold' : old.active with
    | true =>
      exact (lastSuccess_other hevent).trans (h.delivered old hold hold')
    | false =>
      rw [hold', if_neg Bool.false_ne_true] at hact
      cases hold'.symm.trans hact
  working := by
    intro i hi
    obtain ⟨q, hq, hworking⟩ := h.working i hi
    exact ⟨q, hq, { hworking with watched := (notify_hasSubscribers event).trans hworking.watched }⟩

variable {f : RequestState α → RequestState α} {data : Projection α}

section

variable (h : e.Core)

include h

/-- A changed request must have an honest answer, and must be the current one or settled. -/
lemma Core.modify (hanswer : ∀ q, e.requests[index]? = some q →
      ∀ data, (f q).phase = .landed (some data) → (f q).launched ≤ data.revision)
    (halone : ∀ q, e.requests[index]? = some q → (f q).aborted = false → (f q).phase ≠ .resolved →
      e.request = some index)
    (hworking : ∀ q, e.requests[index]? = some q → e.request = some index → e.Working index q →
      (e.modifyRequest index f).Working index (f q)) : (e.modifyRequest index f).Core where
  announced := h.announced
  answers := by
    intro i q' hq' data hlanded
    rcases of_getElem?_modifyRequest hq' with ⟨-, hq⟩ | ⟨rfl, q, hq, rfl⟩
    · exact h.answers i q' hq data hlanded
    · exact hanswer q hq data hlanded
  alone := by
    intro i q' hq' hwant hunset
    rcases of_getElem?_modifyRequest hq' with ⟨-, hq⟩ | ⟨rfl, q, hq, rfl⟩
    · exact h.alone i q' hq hwant hunset
    · exact halone q hq hwant hunset
  delivered := h.delivered
  working := by
    intro i hi
    obtain ⟨q, hq, hold⟩ := h.working i hi
    rw [getElem?_modifyRequest, hq]
    by_cases heq : index = i
    · subst heq
      exact ⟨f q, by simp, hworking q hq hi hold⟩
    · exact ⟨q, by simp [heq], { hold with last := hold.last.trans (length_modify ..).symm }⟩

/-- Flags of a request can be set at any time. -/
lemma Core.modifyFlags (index : ℕ) (hlaunched : ∀ q, (f q).launched = q.launched)
    (hphase : ∀ q, (f q).phase = q.phase) (habort : ∀ q, (f q).aborted = q.aborted)
    (hinval : ∀ q : RequestState α, q.invalidated = true → (f q).invalidated = true) :
    (e.modifyRequest index f).Core := by
  apply h.modify
  · intro q hq data hlanded
    rw [hphase] at hlanded
    rw [hlaunched]
    exact h.answers index q hq data hlanded
  · intro q hq hwant hunset
    rw [habort] at hwant
    rw [hphase] at hunset
    exact h.alone index q hq hwant hunset
  · intro q hq _ hold
    refine ⟨hold.last.trans (length_modify ..).symm, (habort q).trans hold.wanted, ?_,
      hold.watched, ?_, ?_⟩
    · rw [hphase]
      exact hold.unsettled
    · rw [hlaunched]
      exact hold.recent.imp (hinval q) id
    · rw [hphase]
      exact fun hhandled => (hold.handled hhandled).imp (hinval q) id

/-! ## Starting a request -/

lemma Core.launch (explicit : Bool) (hnone : e.request = none) (hsubs : e.hasSubscribers = true) :
    (e.launch explicit).Core := by
  refine Core.notify ?_ nofun
  have hold : ∀ i q, (e.requests ++ [e.newRequest])[i]? = some q →
      e.requests[i]? = some q ∨ i = e.requests.length ∧ q = e.newRequest := by
    intro i q hq
    by_cases hlt : i < e.requests.length
    · exact .inl ((getElem?_append_left hlt).symm.trans hq)
    · rw [getElem?_append_right (Nat.le_of_not_lt hlt), getElem?_singleton] at hq
      split at hq
      · cases hq
        exact .inr ⟨by omega, rfl⟩
      · cases hq
  constructor
  · exact h.announced
  · intro i q hq data hlanded
    rcases hold i q hq with hq | ⟨-, rfl⟩
    · exact h.answers i q hq data hlanded
    · cases hlanded
  · intro i q hq hwant hunset
    rcases hold i q hq with hq | ⟨rfl, rfl⟩
    · cases hnone.symm.trans (h.alone i q hq hwant hunset)
    · rfl
  · exact h.delivered
  · intro i hi
    cases hi
    refine ⟨e.newRequest, getElem?_concat_length .., ?_, rfl, nofun, hsubs, ?_, nofun⟩
    · simp
    · exact .inr h.announced

lemma Core.run (explicit force : Bool) (hsubs : e.hasSubscribers = true) :
    (e.run explicit force).1.Core ∧ (e.run explicit force).1.Idle := by
  unfold Entry.run
  split
  · next current hcur =>
    split
    · exact ⟨h.modifyFlags current (fun _ => rfl) (fun _ => rfl) (fun _ => rfl) fun _ => id,
        idle_of_request hcur⟩
    · exact ⟨h, idle_of_request hcur⟩
  · next hnone =>
    split
    · next hfresh =>
      simp only [Bool.and_eq_true] at hfresh
      exact ⟨h, fun _ _ _ => hfresh.2⟩
    · exact ⟨h.launch explicit hnone hsubs, idle_of_request rfl⟩

variable (hrev : revisionScore revision ≤ e.server)

include hrev

/-- An announced revision invalidates the current request. -/
lemma Core.announce (hnone : e.request = none) :
    Core { e with latestRevision := mergeRevision e.latestRevision revision } where
  announced := revisionScore_merge_le h.announced hrev
  answers := h.answers
  alone := h.alone
  delivered := h.delivered
  working := by
    intro i hi
    cases hnone.symm.trans hi

lemma Core.update : (e.update revision).Core ∧ (e.Idle → (e.update revision).Idle) := by
  unfold Entry.update
  split
  · dsimp only
    split
    · next current hcur =>
      have hcore : Core (modifyRequest
          { e with latestRevision := mergeRevision e.latestRevision revision } current
          fun request => { request with invalidated := true }) := by
        obtain ⟨q, hq, hworking⟩ := h.working current hcur
        -- The other requests do not depend on the revision.
        have hmodified := h.modifyFlags current
          (f := fun request => { request with invalidated := true }) (fun _ => rfl) (fun _ => rfl)
          (fun _ => rfl) fun _ _ => rfl
        refine ⟨revisionScore_merge_le h.announced hrev, hmodified.answers, hmodified.alone,
          hmodified.delivered, fun i hi => ?_⟩
        obtain rfl : current = i := some.inj (hcur.symm.trans hi)
        refine ⟨{ q with invalidated := true }, ?_, ?_⟩
        · rw [getElem?_modifyRequest, hq]
          simp
        · exact ⟨hworking.last.trans (length_modify ..).symm, hworking.wanted,
            hworking.unsettled, hworking.watched, .inl rfl, fun _ => .inl rfl⟩
      exact ⟨hcore.notify nofun, fun _ => idle_of_request hcur⟩
    · next hnone =>
      have hcore := h.announce hrev hnone
      split
      · next hsubs =>
        have hrun := hcore.run false false hsubs
        exact ⟨hrun.1, fun _ => hrun.2⟩
      · next hsubs => exact ⟨hcore, fun _ _ hsubs' => absurd hsubs' hsubs⟩
  · exact ⟨h, id⟩

/-! ## Subscribing -/

lemma Core.subscribe : (e.subscribe revision).Core ∧ (e.subscribe revision).Idle := by
  unfold Entry.subscribe
  dsimp only
  have hsubs : Entry.hasSubscribers { e with
      subscribers := e.subscribers ++ [⟨true, e.data.toList.map .success⟩] } = true := by
    simp [hasSubscribers]
  have hcore : Core { e with
      subscribers := e.subscribers ++ [⟨true, e.data.toList.map .success⟩] } := by
    refine ⟨h.announced, h.answers, h.alone, ?_, ?_⟩
    · intro s hs hact
      rcases mem_append.mp hs with hold | hnew
      · exact h.delivered s hold hact
      · rw [mem_singleton.mp hnew]
        cases e.data <;> rfl
    · intro i hi
      obtain ⟨q, hq, hworking⟩ := h.working i hi
      exact ⟨q, hq, { hworking with watched := hsubs }⟩
  have hupdate := (hcore.update hrev).1
  have hkept : (Entry.update { e with
      subscribers := e.subscribers ++ [⟨true, e.data.toList.map .success⟩] }
      revision).hasSubscribers = true := by
    rw [hasSubscribers_update]
    exact hsubs
  split
  · exact hupdate.run false false hkept
  · next hfresh =>
    refine ⟨hupdate, fun hnone _ _ => ?_⟩
    rw [hnone] at hfresh
    simpa using hfresh

end

lemma isActive_deactivate {subscriber : ℕ}
    (h : isActive { e with subscribers := e.subscribers.modify subscriber fun s =>
      { s with active := false } } i = true) : e.isActive i = true := by
  unfold isActive at h ⊢
  rw [getElem?_modify] at h
  cases hs : e.subscribers[i]? with
  | none => simp [hs] at h
  | some s =>
    rw [hs] at h
    by_cases hi : subscriber = i
    · simp [hi] at h
    · simpa [hi] using h

lemma Core.unsubscribe (h : e.Core) (subscriber : ℕ) :
    (e.unsubscribe subscriber).Core ∧ (e.Idle → (e.unsubscribe subscriber).Idle) := by
  unfold Entry.unsubscribe
  split
  · have hdelivered : ∀ s ∈ e.subscribers.modify subscriber fun s => { s with active := false },
        s.active = true → lastSuccess s.events = e.data := by
      intro s hs hact
      obtain ⟨i, hi⟩ := getElem?_of_mem hs
      rw [getElem?_modify] at hi
      obtain ⟨old, hold, rfl⟩ := map_eq_some_iff.mp hi
      split at hact
      · cases hact
      · next hne =>
        rw [if_neg hne]
        exact h.delivered old (mem_of_getElem? hold) hact
    dsimp only
    split
    · next current hsubs hcur =>
      refine ⟨⟨h.announced, ?_, ?_, hdelivered, nofun⟩, fun _ _ hsubs' => ?_⟩
      · intro i q' hq' data hlanded
        rcases of_getElem?_modifyRequest hq' with ⟨-, hq⟩ | ⟨-, q, hq, rfl⟩
        · exact h.answers i q' hq data hlanded
        · exact h.answers i q hq data hlanded
      · intro i q' hq' hwant hunset
        rcases of_getElem?_modifyRequest hq' with ⟨hne, hq⟩ | ⟨-, q, hq, rfl⟩
        · have hi := h.alone i q' hq hwant hunset
          exact absurd (some.inj (hcur.symm.trans hi)) hne
        · cases hwant
      · exact absurd (hsubs.symm.trans hsubs') Bool.false_ne_true
    · next hother =>
      refine ⟨⟨h.announced, h.answers, h.alone, hdelivered, fun i hi => ?_⟩, ?_⟩
      · obtain ⟨q, hq, hworking⟩ := h.working i hi
        refine ⟨q, hq, { hworking with watched := ?_ }⟩
        cases hsubs : hasSubscribers _ with
        | true => rfl
        | false => exact (hother i hsubs hi).elim
      · intro hidle hnone hsubs hfailed
        obtain ⟨i, hi⟩ := hasSubscribers_iff.mp hsubs
        exact hidle hnone (hasSubscribers_iff.mpr ⟨i, isActive_deactivate hi⟩) hfailed
  · exact ⟨h, id⟩

/-! ## Settling -/

section

variable (h : e.Core)

include h

lemma Core.settle {answer : Option (Projection α)}
    (hq : e.requests[index]? = some q) (hfetching : q.phase = .fetching)
    (hanswer : ∀ data, answer = some data → q.launched ≤ data.revision) :
    (e.setPhase index (.landed answer)).Core := by
  apply h.modify
  · intro q' hq' data hlanded
    cases hq.symm.trans hq'
    cases hlanded
    exact hanswer data rfl
  · intro q' hq' hwant _
    cases hq.symm.trans hq'
    exact h.alone index q hq hwant (by rw [hfetching]; nofun)
  · intro q' _ _ hold
    exact ⟨hold.last.trans (length_modify ..).symm, hold.wanted, nofun, hold.watched,
      hold.recent, nofun⟩

/-- A request that was abandoned moves on by itself. -/
lemma Core.setPhase_of_ne {phase : RequestPhase α} (hne : e.request ≠ some index)
    (hphase : ∀ answer, phase ≠ .landed answer) (hq : e.requests[index]? = some q)
    (hunset : q.phase ≠ .resolved) : (e.setPhase index phase).Core := by
  apply h.modify
  · intro q' _ data hlanded
    exact absurd hlanded (hphase _)
  · intro q' hq' hwant _
    cases hq.symm.trans hq'
    exact h.alone index q hq hwant hunset
  · intro q' _ hcur _
    exact absurd hcur hne

section

variable (hcur : e.request = some index) (hq : e.requests[index]? = some q)

include hcur hq

/-- The current request is handled, and the entry has what came of it. -/
lemma Core.handled
    (hdelivered : ∀ s ∈ t.subscribers, s.active = true → lastSuccess s.events = t.data)
    (hrequests : t.requests = (e.setPhase index .handled).requests) (hreq : t.request = e.request)
    (hlatest : t.latestRevision = e.latestRevision) (hserver : t.server = e.server)
    (hsubs : t.hasSubscribers = e.hasSubscribers)
    (hfresh : q.invalidated = true ∨ t.lastFailed = true ∨
      isFresh t.data t.latestRevision = true) : t.Core where
  announced := by
    rw [hlatest, hserver]
    exact h.announced
  answers := by
    intro i q' hq' data hlanded
    rw [hrequests] at hq'
    rcases of_getElem?_modifyRequest hq' with ⟨-, hold⟩ | ⟨-, old, -, rfl⟩
    · exact h.answers i q' hold data hlanded
    · cases hlanded
  alone := by
    intro i q' hq' hwant hunset
    rw [hrequests] at hq'
    rw [hreq]
    rcases of_getElem?_modifyRequest hq' with ⟨-, hold⟩ | ⟨rfl, -⟩
    · exact h.alone i q' hold hwant hunset
    · exact hcur
  delivered := hdelivered
  working := by
    intro i hi
    obtain rfl : index = i := some.inj (hcur.symm.trans (hreq.symm.trans hi))
    obtain ⟨q', hq', hold⟩ := h.working index hcur
    cases hq.symm.trans hq'
    refine ⟨{ q with phase := .handled }, ?_, ?_, hold.wanted, nofun, hsubs.trans hold.watched, ?_,
      fun _ => hfresh⟩
    · rw [hrequests]
      unfold setPhase
      rw [getElem?_modifyRequest, hq]
      simp
    · rw [hrequests]
      exact hold.last.trans (length_modify ..).symm
    · rw [hlatest]
      exact hold.recent

/-- The data of a fetch is stored and delivered, or it is older than what was announced or stored. -/
lemma Core.onData (hlaunched : q.launched ≤ data.revision) :
    (onData { e.setPhase index .handled with lastFailed := false } data).Core := by
  obtain ⟨q', hq', hworking⟩ := h.working index hcur
  cases hq.symm.trans hq'
  unfold Entry.onData
  split
  · next hold =>
    refine h.handled hcur hq h.delivered rfl rfl rfl rfl rfl ?_
    rcases hworking.recent with hinval | hrecent
    · exact .inl hinval
    · right
      right
      rcases hold with hbelow | hnewer
      · have hlt : data.revision < revisionScore e.latestRevision := hbelow
        omega
      · obtain ⟨current, hdata, hlt⟩ := (any_eq_true _ _).mp hnewer
        have hlt := of_decide_eq_true hlt
        have hle : revisionScore e.latestRevision ≤ current.revision := by omega
        exact isFresh_iff.mpr ⟨current, hdata, hle⟩
  · next hnew =>
    refine h.handled hcur hq ?_ rfl rfl rfl rfl (notify_hasSubscribers _) ?_
    · intro s hs hact
      obtain ⟨old, -, rfl⟩ := mem_map.mp hs
      cases hold : old.active with
      | true =>
        exact lastSuccess_success _ _
      | false =>
        rw [hold, if_neg Bool.false_ne_true] at hact
        cases hold.symm.trans hact
    · have hle : ¬ data.revision < revisionScore e.latestRevision := fun hlt => hnew (.inl hlt)
      exact .inr (.inr (isFresh_iff.mpr ⟨data, rfl, Nat.le_of_not_lt hle⟩))

lemma Core.onError : (onError { e.setPhase index .handled with lastFailed := true } q).Core := by
  have hcore : Core { e.setPhase index .handled with lastFailed := true } :=
    h.handled hcur hq h.delivered rfl rfl rfl rfl rfl (.inr (.inl rfl))
  unfold Entry.onError
  dsimp only
  split
  · exact hcore
  · exact hcore.notify nofun

end

lemma Core.handle (index : ℕ) : (e.handle index).Core ∧ (e.Idle → (e.handle index).Idle) := by
  rcases handle_cases e index with hsame | ⟨q, answer, hq, hlanded, heq⟩
  · rw [hsame]
    exact ⟨h, id⟩
  · rw [heq]
    split
    · next hother =>
      have hne : e.request ≠ some index := by
        intro hcur
        obtain ⟨q', hq', hworking⟩ := h.working index hcur
        cases hq.symm.trans hq'
        rcases hother with habort | hne
        · cases hworking.wanted.symm.trans habort
        · exact hne hcur
      exact ⟨h.setPhase_of_ne hne nofun hq (by rw [hlanded]; nofun), id⟩
    · next hmine =>
      have hcur : e.request = some index := not_not.mp (not_or.mp hmine).2
      cases answer with
      | some data =>
        exact ⟨h.onData hcur hq (h.answers index q hq data hlanded),
          fun _ => idle_of_request ((onData_request data).trans hcur)⟩
      | none =>
        exact ⟨h.onError hcur hq, fun _ => idle_of_request ((onError_request q).trans hcur)⟩

/-- A request that has settled is followed by another one, or is not needed. -/
lemma Core.onSettled (hcur : e.request = some index) (hq : e.requests[index]? = some q)
    (hhandled : q.phase = .handled) : (onSettled (e.setPhase index .resolved) q).Core ∧
      (onSettled (e.setPhase index .resolved) q).Idle := by
  obtain ⟨q', hq', hworking⟩ := h.working index hcur
  cases hq.symm.trans hq'
  have hcore : Core { e.setPhase index .resolved with request := none } := by
    refine ⟨h.announced, ?_, ?_, h.delivered, nofun⟩
    · intro i q' hq' data hlanded
      rcases of_getElem?_modifyRequest hq' with ⟨-, hold⟩ | ⟨-, old, -, rfl⟩
      · exact h.answers i q' hold data hlanded
      · cases hlanded
    · intro i q' hq' hwant hunset
      rcases of_getElem?_modifyRequest hq' with ⟨hne, hold⟩ | ⟨-, old, -, rfl⟩
      · have hi := h.alone i q' hold hwant hunset
        exact absurd (some.inj (hcur.symm.trans hi)) hne
      · exact absurd rfl hunset
  unfold Entry.onSettled
  dsimp only
  split
  · next hfollow =>
    simp only [Bool.and_eq_true] at hfollow
    exact hcore.run _ _ hfollow.1
  · next hdone =>
    refine ⟨hcore, fun _ hsubs hfailed => ?_⟩
    rw [hsubs] at hdone
    simp only [Bool.true_and, Bool.or_eq_true, Bool.and_eq_true, Bool.not_eq_true', not_or,
      not_and, Bool.not_eq_false] at hdone
    rcases hworking.handled hhandled with hinval | hlast | hfresh
    · exact hdone.2 hinval
    · exact absurd (hlast.symm.trans hfailed) nofun
    · exact hfresh

lemma Core.finish (index : ℕ) : (e.finish index).Core ∧ (e.Idle → (e.finish index).Idle) := by
  rcases finish_cases e index with hsame | ⟨q, hq, hhandled, heq⟩
  · rw [hsame]
    exact ⟨h, id⟩
  · rw [heq]
    split
    · next hcur =>
      have hsettled := h.onSettled hcur hq hhandled
      exact ⟨hsettled.1, fun _ => hsettled.2⟩
    · next hne => exact ⟨h.setPhase_of_ne hne nofun hq (by rw [hhandled]; nofun), id⟩

lemma Core.refresh (hidle : e.Idle) (subscriber : ℕ) :
    (e.refresh subscriber).Core ∧ (e.refresh subscriber).Idle := by
  unfold Entry.refresh
  split
  · next hact =>
    have hrun := h.run true true (hasSubscribers_iff.mpr ⟨subscriber, hact⟩)
    refine ⟨⟨hrun.1.announced, hrun.1.answers, hrun.1.alone, hrun.1.delivered, fun i hi => ?_⟩,
      hrun.2⟩
    obtain ⟨q, hq, hworking⟩ := hrun.1.working i hi
    exact ⟨q, hq, { hworking with }⟩
  · exact ⟨h, hidle⟩

end

/-! ## Seeding -/

/-- Nobody sees that an entry without subscribers is seeded. -/
lemma Core.seed (h : e.Core) (hrev : revisionScore revision ≤ e.server)
    (hunseen : e.SeedsUnseen (.seed data revision)) :
    (e.seed data revision).Core ∧ (e.Idle → (e.seed data revision).Idle) := by
  rcases hunseen with hsubs | ⟨hnewer, hknown⟩
  · have hnone := h.request_none hsubs
    have hquiet : ∀ s ∈ e.subscribers, s.active = false := by
      intro s hs
      have hnot := any_eq_false.mp hsubs s hs
      simpa using hnot
    have hstore : ∀ stored : Option (Projection α), Core { e with data := stored } := by
      intro stored
      refine ⟨h.announced, h.answers, h.alone, fun s hs hact => ?_, fun i hi => ?_⟩
      · cases (hquiet s hs).symm.trans hact
      · cases hnone.symm.trans hi
    have hstored : ∃ stored, (if e.data.all fun current => current.revision ≤ data.revision then
        { e with data := some data } else e) = { e with data := stored } := by
      split
      · exact ⟨some data, rfl⟩
      · exact ⟨e.data, rfl⟩
    obtain ⟨stored, heq⟩ := hstored
    unfold Entry.seed
    rw [heq]
    have hidle : ∀ t : Entry α, t.subscribers = e.subscribers → t.Idle := by
      intro t ht _ hsubs' _
      unfold hasSubscribers at hsubs hsubs'
      rw [ht, hsubs] at hsubs'
      cases hsubs'
    dsimp only
    split
    · have hannounced := (hstore stored).announce hrev hnone
      split
      · next current hcur => cases hnone.symm.trans hcur
      · exact ⟨hannounced, fun _ => hidle _ rfl⟩
    · exact ⟨hstore stored, fun _ => hidle _ rfl⟩
  · have hsame : e.seed data revision = e := by
      obtain ⟨current, hdata, hlt⟩ := (any_eq_true _ _).mp hnewer
      have hold : e.data.all (fun current => current.revision ≤ data.revision) = false := by
        rw [mem_def.mp hdata]
        simpa using hlt
      simp [Entry.seed, hold, hknown]
    rw [hsame]
    exact ⟨h, id⟩

end Entry

end Replicant.Web
