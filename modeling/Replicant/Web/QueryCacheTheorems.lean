import Replicant.Web.QueryRequests

/-!
# Shared queries end up fresh

The promise of a refresh waits for a request that is started after the call: a new one, or the one
that follows the current one. Data that is seeded for an entry with subscribers is neither delivered
nor fetched.
-/

namespace Replicant.Web

open Lib List Option Entry

namespace Entry

variable {α : Type} {e t : Entry α} {q : RequestState α} {index : ℕ}

/-! ## The promises of a refresh -/

/-- What the promise of an active subscription waits for. -/
def Awaits (e : Entry α) (since : ℕ) : Awaited → Prop
  | .nothing => e.SettledSince since
  | .request i => since ≤ i ∧ i < e.requests.length
  | .followUp i =>
    (e.request = some i ∧ ∃ q, e.requests[i]? = some q ∧ q.forceFollowUp = true) ∨
      (∃ j, e.request = some j ∧ since ≤ j) ∨ e.SettledSince since

structure Promise (e : Entry α) (r : Refresh) : Prop where
  subscriber : r.subscriber < e.subscribers.length
  since : r.since ≤ e.requests.length
  awaits : e.isActive r.subscriber = true → e.Awaits r.since r.awaited

def Promises (e : Entry α) : Prop := ∀ r ∈ e.refreshes, e.Promise r

variable {since : ℕ}

lemma SettledSince.grows (h : e.SettledSince since) (hgrows : Grows e t) :
    t.SettledSince since := by
  obtain ⟨i, hi, q, hq, hphase⟩ := h
  obtain ⟨q', hq', hphase', -⟩ := hgrows.requests i q hq
  exact ⟨i, hi, q', hq', hphase' hphase⟩

variable {awaited : Awaited}

lemma Awaits.extends (h : e.Awaits since awaited)
    (hext : Extends e t) : t.Awaits since awaited := by
  cases awaited with
  | nothing => exact SettledSince.grows h hext.toGrows
  | request => exact ⟨h.1, Nat.lt_of_lt_of_le h.2 hext.toGrows.length⟩
  | followUp i =>
    rcases h with ⟨hcur, q, hq, hforce⟩ | ⟨j, hj, hsince⟩ | hsettled
    · obtain ⟨q', hq', -, hforce'⟩ := hext.requests i q hq
      exact .inl ⟨hext.request i hcur, q', hq', hforce' hforce⟩
    · exact .inr (.inl ⟨j, hext.request j hj, hsince⟩)
    · exact .inr (.inr (hsettled.grows hext.toGrows))

variable {r : Refresh}

lemma Promise.extends (h : e.Promise r) (hext : Extends e t) : t.Promise r where
  subscriber := Nat.lt_of_lt_of_le h.subscriber hext.subscribers
  since := Nat.le_trans h.since hext.toGrows.length
  awaits := fun hact => (h.awaits (hext.active _ h.subscriber hact)).extends hext

lemma Promises.extends (h : e.Promises) (hext : Extends e t) : t.Promises := by
  intro r hr
  rw [hext.refreshes] at hr
  exact (h r hr).extends hext

/-- The promise of a refresh waits for the request that it starts, or for the one that follows. -/
lemma Core.awaits_run (h : e.Core) :
    (e.run true true).1.Awaits e.requests.length (e.run true true).2 := by
  unfold Entry.run
  split
  · next current hcur =>
    obtain ⟨q, hq, -⟩ := h.working current hcur
    refine .inl ⟨hcur, { q with
      forceFollowUp := true
      forceFollowUpExplicit := q.forceFollowUpExplicit || true }, ?_, rfl⟩
    rw [if_pos rfl, getElem?_modifyRequest, hq]
    simp
  · next hnone => exact ⟨Nat.le_refl _, by simp [Entry.launch, Entry.notify]⟩

variable {subscriber : ℕ}

lemma Promises.refresh (h : e.Promises) (hcore : e.Core) : (e.refresh subscriber).Promises := by
  unfold Entry.refresh
  split
  · next hact =>
    have hext : Extends e (e.run true true).1 := extends_run true true
    intro r hr
    rcases of_mem_concat hr with hold | rfl
    · rw [hext.refreshes] at hold
      have hpromise := (h r hold).extends hext
      exact ⟨hpromise.subscriber, hpromise.since, hpromise.awaits⟩
    · refine ⟨?_, hext.toGrows.length, fun _ => hcore.awaits_run⟩
      obtain ⟨s, hs, -⟩ := (any_eq_true _ _).mp hact
      exact Nat.lt_of_lt_of_le (List.getElem?_eq_some_iff.mp hs).1 hext.subscribers
  · exact h

lemma Promises.unsubscribe (h : e.Promises) : (e.unsubscribe subscriber).Promises := by
  unfold Entry.unsubscribe
  split
  · have hext : Extends e { e with
        subscribers := e.subscribers.modify subscriber fun s => { s with active := false } } :=
      ⟨⟨fun _ q hq => ⟨q, hq, id, id⟩, Nat.le_of_eq (length_modify ..).symm,
        fun _ _ => isActive_deactivate, rfl⟩, fun _ => id⟩
    have hkept := h.extends hext
    dsimp only
    split
    -- The last subscriber is gone, so no promise is owed.
    · next current hsubs hcur =>
      intro r hr
      have hpromise := hkept r hr
      refine ⟨hpromise.subscriber, ?_, fun hact => ?_⟩
      · exact Nat.le_trans hpromise.since (Nat.le_of_eq (length_modify ..).symm)
      · have hsome := hasSubscribers_iff.mpr ⟨r.subscriber, hact⟩
        exact absurd (hsubs.symm.trans hsome) Bool.false_ne_true
    · exact hkept
  · exact h

/-- A promise that waits for what follows a request gets it when the request has settled. -/
lemma Promise.onSettled (h : e.Promise r) (hcur : e.request = some index)
    (hq : e.requests[index]? = some q) : (onSettled (e.setPhase index .resolved) q).Promise r := by
  have hclear : Grows e { e.setPhase index .resolved with request := none } := by
    have hphase := (extends_setPhase e index .resolved nofun).toGrows
    exact ⟨hphase.requests, hphase.subscribers, hphase.active, hphase.refreshes⟩
  have hafter : Extends { e.setPhase index .resolved with request := none }
      (Entry.onSettled (e.setPhase index .resolved) q) := by
    unfold Entry.onSettled
    dsimp only
    split
    · exact extends_run _ _
    · exact Extends.refl _
  have hgrows := hclear.trans hafter.toGrows
  refine ⟨Nat.lt_of_lt_of_le h.subscriber hgrows.subscribers,
    Nat.le_trans h.since hgrows.length, fun hact => ?_⟩
  have hsubs : hasSubscribers { e.setPhase index .resolved with request := none } = true :=
    hasSubscribers_iff.mpr ⟨_, hgrows.active _ h.subscriber hact⟩
  have hawaits := h.awaits (hgrows.active _ h.subscriber hact)
  cases hawaited : r.awaited with
  | nothing =>
    rw [hawaited] at hawaits
    exact SettledSince.grows hawaits hgrows
  | request =>
    rw [hawaited] at hawaits
    exact ⟨hawaits.1, Nat.lt_of_lt_of_le hawaits.2 hgrows.length⟩
  | followUp i =>
    rw [hawaited] at hawaits
    rcases hawaits with ⟨hi, q', hq', hforce⟩ | ⟨j, hj, hsince⟩ | hsettled
    · obtain rfl : index = i := some.inj (hcur.symm.trans hi)
      cases hq.symm.trans hq'
      refine .inr (.inl ⟨e.requests.length, ?_, h.since⟩)
      unfold Entry.onSettled
      dsimp only
      rw [hsubs, hforce]
      simp [run, launch, notify, setPhase, modifyRequest]
    · obtain rfl : index = j := some.inj (hcur.symm.trans hj)
      refine .inr (.inr (SettledSince.grows ⟨index, hsince, { q with phase := .resolved }, ?_, nofun⟩
        hafter.toGrows))
      show (e.setPhase index .resolved).requests[index]? = _
      unfold setPhase
      rw [getElem?_modifyRequest, hq]
      simp
    · exact .inr (.inr (hsettled.grows hgrows))

lemma Promises.finish (h : e.Promises) : (e.finish index).Promises := by
  rcases finish_cases e index with heq | ⟨q, hq, -, heq⟩
  · rw [heq]
    exact h
  · rw [heq]
    split
    · next hcur =>
      intro r hr
      have hsame : (onSettled (e.setPhase index .resolved) q).refreshes = e.refreshes := by
        unfold onSettled
        dsimp only
        split
        · exact (extends_run _ _).refreshes
        · rfl
      rw [hsame] at hr
      exact (h r hr).onSettled hcur hq
    · exact h.extends (extends_setPhase e index _ nofun)

lemma isResolved_iff : e.isResolved index = true ↔
    ∃ q, e.requests[index]? = some q ∧ q.phase = .resolved := by
  unfold isResolved
  rw [Option.any_eq_true]
  constructor
  · rintro ⟨q, hq, hmatches⟩
    refine ⟨q, hq, ?_⟩
    cases hphase : q.phase with
    | resolved => rfl
    | _ => simp [hphase] at hmatches
  · rintro ⟨q, hq, hphase⟩
    exact ⟨q, hq, by rw [hphase]⟩

lemma Core.awaits_proceed (hcore : e.Core)
    (h : e.Awaits since awaited) : e.Awaits since (e.proceed awaited) := by
  cases awaited with
  | nothing => exact h
  | request i =>
    unfold proceed
    dsimp only
    split
    · next hresolved =>
      obtain ⟨q, hq, hphase⟩ := isResolved_iff.mp hresolved
      exact ⟨i, h.1, q, hq, by rw [hphase]; nofun⟩
    · exact h
  | followUp i =>
    unfold proceed
    dsimp only
    split
    · next hresolved =>
      obtain ⟨q, hq, hphase⟩ := isResolved_iff.mp hresolved
      -- A request that is resolved is not the current one.
      have hne : e.request ≠ some i := by
        intro hi
        obtain ⟨q', hq', hworking⟩ := hcore.working i hi
        cases hq.symm.trans hq'
        exact hworking.unsettled hphase
      rcases h with ⟨hi, -⟩ | ⟨j, hj, hsince⟩ | hsettled
      · exact absurd hi hne
      · rw [hj]
        obtain ⟨q', hq', -⟩ := hcore.working j hj
        exact ⟨hsince, (List.getElem?_eq_some_iff.mp hq').1⟩
      · cases hreq : e.request with
        | none => exact hsettled
        | some j =>
          obtain ⟨q', hq', hworking⟩ := hcore.working j hreq
          obtain ⟨k, hk, qk, hqk, -⟩ := hsettled
          have hlt := (List.getElem?_eq_some_iff.mp hqk).1
          have hlast := hworking.last
          exact ⟨by omega, by omega⟩
    · exact h

lemma Promises.resume {refresh : ℕ} (h : e.Promises) (hcore : e.Core) :
    (e.step (.resume refresh)).Promises := by
  intro r hr
  obtain ⟨i, hi⟩ := getElem?_of_mem hr
  have hget : (e.refreshes.modify refresh fun r =>
      { r with awaited := e.proceed r.awaited })[i]? = some r := hi
  rw [getElem?_modify] at hget
  obtain ⟨old, hold, rfl⟩ := map_eq_some_iff.mp hget
  have hpromise := h old (mem_of_getElem? hold)
  split
  · exact ⟨hpromise.subscriber, hpromise.since,
      fun hact => hcore.awaits_proceed (hpromise.awaits hact)⟩
  · exact ⟨hpromise.subscriber, hpromise.since, hpromise.awaits⟩

/-! ## Runs -/

structure Inv (e : Entry α) : Prop where
  core : e.Core
  idle : e.Idle
  promises : e.Promises

lemma Inv.step {op : CacheOp α} (h : e.Inv) (hhonest : e.Honest op) (hunseen : e.SeedsUnseen op) :
    (e.step op).Inv := by
  obtain ⟨hcore, hidle, hproms⟩ := h
  cases op with
  | advance =>
    refine ⟨⟨Nat.le_succ_of_le hcore.announced, hcore.answers, hcore.alone, hcore.delivered, ?_⟩,
      hidle, hproms.extends (extends_of_eq rfl rfl rfl rfl)⟩
    intro i hi
    obtain ⟨q, hq, hworking⟩ := hcore.working i hi
    exact ⟨q, hq, { hworking with }⟩
  | subscribe revision =>
    have hnext := hcore.subscribe hhonest
    exact ⟨hnext.1, hnext.2, hproms.extends (extends_subscribe revision)⟩
  | unsubscribe subscriber =>
    have hnext := hcore.unsubscribe subscriber
    exact ⟨hnext.1, hnext.2 hidle, hproms.unsubscribe⟩
  | updateRevision subscriber revision =>
    unfold Entry.step
    dsimp only
    split
    · have hnext := hcore.update hhonest
      exact ⟨hnext.1, hnext.2 hidle, hproms.extends (extends_update revision)⟩
    · exact ⟨hcore, hidle, hproms⟩
  | invalidate revision =>
    have hnext := hcore.update hhonest
    exact ⟨hnext.1, hnext.2 hidle, hproms.extends (extends_update revision)⟩
  | seed data revision =>
    have hnext := hcore.seed hhonest hunseen
    exact ⟨hnext.1, hnext.2 hidle, hproms.extends (extends_seed data revision)⟩
  | refresh subscriber =>
    have hnext := hcore.refresh hidle subscriber
    exact ⟨hnext.1, hnext.2, hproms.refresh hcore⟩
  | settle request =>
    unfold Entry.step
    dsimp only
    split
    · next hfetching =>
      obtain ⟨q, hq, hphase⟩ := (any_eq_true _ _).mp hfetching
      have hfetch : q.phase = .fetching := by
        cases hp : q.phase with
        | fetching => rfl
        | _ => simp [hp] at hphase
      refine ⟨hcore.settle hq hfetch ?_, hidle, hproms.extends (extends_setPhase e request _ nofun)⟩
      rintro data rfl
      exact hhonest q hq
    · exact ⟨hcore, hidle, hproms⟩
  | handle request =>
    have hnext := hcore.handle request
    exact ⟨hnext.1, hnext.2 hidle, hproms.extends (extends_handle request)⟩
  | finish request =>
    have hnext := hcore.finish request
    exact ⟨hnext.1, hnext.2 hidle, hproms.finish⟩
  | resume =>
    refine ⟨⟨hcore.announced, hcore.answers, hcore.alone, hcore.delivered, ?_⟩, hidle,
      hproms.resume hcore⟩
    intro i hi
    obtain ⟨q, hq, hworking⟩ := hcore.working i hi
    exact ⟨q, hq, { hworking with }⟩

lemma inv_create {server : ℕ} {revision : List ℕ} (h : revisionScore revision ≤ server) :
    (create server revision : Entry α).Inv where
  core := ⟨h, by simp [create], by simp [create], by simp [create], by simp [create]⟩
  idle := by simp [Idle, create, hasSubscribers]
  promises := by simp [Promises, create]

lemma Core.request_of_inFlight (h : e.Core) (hflight : e.InFlight index) :
    e.request = some index := by
  obtain ⟨q, hq, hwant, hunset⟩ := hflight
  exact h.alone index q hq hwant hunset

lemma Inv.endsFresh (h : e.Inv) : e.EndsFresh where
  current := by
    intro hnone hsubs hfailed
    obtain ⟨data, hdata, hfresh⟩ := isFresh_iff.mp (h.idle hnone hsubs hfailed)
    refine ⟨data, hdata, hfresh, fun s hs hact => ?_⟩
    exact (h.core.delivered s hs hact).trans hdata
  single := by
    intro i j hi hj
    exact some.inj ((h.core.request_of_inFlight hi).symm.trans (h.core.request_of_inFlight hj))
  refreshed := by
    intro r hr hnothing
    cases hact : e.isActive r.subscriber with
    | false => exact .inl rfl
    | true =>
      have hawaits := (h.promises r hr).awaits hact
      rw [hnothing] at hawaits
      exact .inr hawaits

/-- If an entry is seeded only where nobody sees it, then in every state of every run the query ends
up fresh. -/
theorem endsFresh_of_seedsUnseen (server : ℕ) (revision : List ℕ) (ops : List (CacheOp α))
    (hrevision : revisionScore revision ≤ server)
    (hhonest : AllSteps step Honest (create server revision : Entry α) ops)
    (hunseen : AllSteps step SeedsUnseen (create server revision : Entry α) ops) :
    (ops.foldl step (create server revision : Entry α)).EndsFresh := by
  have hinv := (hhonest.and hunseen).foldl (inv_create hrevision)
    fun _ _ hinv hok => hinv.step hok.1 hok.2
  exact hinv.endsFresh

/-- Two subscribers share a fetch, a newer revision is announced meanwhile, and one of them
refreshes. -/
theorem endsFresh_sample :
    (List.foldl step (create 1 [1] : Entry Unit) [.seed ⟨0, ()⟩ [1], .subscribe [1], .subscribe [1],
      .advance, .invalidate [2], .settle 0 (some ⟨1, ()⟩), .handle 0, .finish 0, .refresh 0,
      .settle 1 (some ⟨2, ()⟩), .handle 1, .finish 1, .resume 0, .settle 2 (some ⟨2, ()⟩), .handle 2,
      .finish 2, .resume 0]).EndsFresh :=
  endsFresh_of_seedsUnseen _ _ _ (by decide) (by decide) (by decide)

/-- An entry that has a subscriber is seeded: its subscriber never hears of the data. -/
theorem exists_seed_unheard : ∃ (server : ℕ) (revision : List ℕ) (ops : List (CacheOp Unit)),
    revisionScore revision ≤ server ∧ AllSteps step Honest (create server revision) ops ∧
      ¬ (ops.foldl step (create server revision)).EndsFresh := by
  refine ⟨1, [1], [.subscribe [1], .settle 0 (some ⟨1, ()⟩), .handle 0, .finish 0, .advance,
    .seed ⟨2, ()⟩ [2]], by decide, by decide, fun h => ?_⟩
  have hcur := h.current
  revert hcur
  unfold Current
  decide

end Entry

end Replicant.Web
