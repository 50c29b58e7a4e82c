import Replicant.Managed.EngineTheorems
import Replicant.Managed.Flights

/-!
# The snapshot under concurrency

The snapshot follows the store if a command is sent only while no other operation is between its
commit and its publication, and on the snapshot that is still published. Otherwise the later of two
publications undoes the earlier one and repeats its revision.
-/

namespace Replicant.Managed

open Lib Observation List FlightState

variable {op : EngineOp} {s : FlightState}

/-! ## One operation -/

section Operation

variable {snapshot : StateSnapshot} {s t : ProjectionStore} {reply : Reply}

/-- The snapshot is what would be restored. -/
structure Settled (snapshot : StateSnapshot) (s : ProjectionStore) : Prop where
  maps : Matches snapshot s
  account : snapshot.account = s.restoreAccount

def EngineOp.account? : EngineOp → Option (Observation Account)
  | .persistAccount account => some account
  | _ => none

/-- A device list repeats no key, and an account is the one that is stored. -/
def EngineOp.Accepts (op : EngineOp) (s : ProjectionStore) : Prop :=
  op.DistinctKeys ∧ ∀ account ∈ op.account?, ∀ row ∈ s.accounts, accountId row = accountId account

instance EngineOp.decidableAccepts (op : EngineOp) (s : ProjectionStore) : Decidable (op.Accepts s) :=
  inferInstanceAs (Decidable (_ ∧ _))

lemma restoreAccount_persistAccount {account : Observation Account}
    (h : ∀ row ∈ s.accounts, accountId row = accountId account) :
    (s.persistAccount account).restoreAccount = some account := by
  have hall : ∀ row ∈ s.accounts.put account, row = account := by
    intro row hrow
    rcases Table.mem_put.mp hrow with rfl | ⟨hold, hne⟩
    · rfl
    · exact absurd (h row hold) hne
  have hmem : account ∈ (s.accounts.put account).rows := Table.mem_put.mpr (.inl rfl)
  show ((s.accounts.put account).rows.mergeSort _).head? = some account
  cases hsorted : (s.accounts.put account).rows.mergeSort fun a b => a.value.id ≤ b.value.id with
  | nil =>
    rw [← mem_mergeSort, hsorted] at hmem
    cases hmem
  | cons row =>
    have hrow : row ∈ (s.accounts.put account).rows := by
      rw [← mem_mergeSort, hsorted]
      exact mem_cons_self
    rw [hall row hrow]
    rfl

/-- What the end of an operation does to the revision and the account. -/
inductive Publication.Ends (op : EngineOp) (snapshot : StateSnapshot) : Publication → Prop where
  | none (account : op.account? = Option.none) : Ends op snapshot .none
  | silent {next : StateSnapshot} (revision : next.revision = snapshot.revision)
      (account : next.account = op.account?.or snapshot.account) : Ends op snapshot (.silent next)
  | publish {next : StateSnapshot} (revision : next.revision = snapshot.revision + 1)
      (account : next.account = op.account?.or snapshot.account) : Ends op snapshot (.publish next)

lemma publication_ends (op : EngineOp) (snapshot : StateSnapshot) (reply : Reply) :
    (op.publication snapshot reply).Ends op snapshot := by
  cases op with
  | persistDevices =>
    simp only [EngineOp.publication]
    split
    · exact .none rfl
    · split
      · exact .silent rfl rfl
      · exact .publish rfl rfl
  | purgeRealmDevices =>
    cases reply with
    | removed =>
      simp only [EngineOp.publication]
      split
      · exact .none rfl
      · exact .publish rfl rfl
    | _ => exact .none rfl
  | applyEventProjection =>
    cases reply with
    | inserted fresh =>
      cases fresh with
      | true => exact .publish rfl rfl
      | false => exact .none rfl
    | _ => exact .none rfl
  | reconcileOwnedDevices =>
    simp only [EngineOp.publication]
    split
    · exact .none rfl
    · exact .publish rfl rfl
  | reloadDevicesAfterRefresh =>
    cases reply with
    | devices =>
      simp only [EngineOp.publication]
      split
      · exact .none rfl
      · exact .publish rfl rfl
    | _ => exact .none rfl
  | _ => exact .publish rfl rfl

lemma account_publication (op : EngineOp) (snapshot : StateSnapshot) (reply : Reply) :
    ((op.publication snapshot reply).over snapshot).account = op.account?.or snapshot.account := by
  have hends := publication_ends op snapshot reply
  generalize op.publication snapshot reply = publication at hends ⊢
  cases hends with
  | none account =>
    rw [account]
    rfl
  | silent _ account | publish _ account => exact account

lemma settled_publication (h : Settled snapshot s) (hop : op.Accepts s)
    (hok : op.command snapshot s = .ok (t, reply)) :
    Settled ((op.publication snapshot reply).over snapshot) t := by
  refine ⟨matches_publication h.maps hop.1 hok, ?_⟩
  have haccounts := (commandRest hok).accounts
  rw [account_publication]
  cases op with
  | persistAccount account =>
    cases hok
    exact (restoreAccount_persistAccount (hop.2 account rfl)).symm
  | _ =>
    unfold ProjectionStore.restoreAccount
    rw [haccounts]
    exact h.account

end Operation

/-! ## Flights -/

namespace FlightState

variable {i j : ℕ} {f : Flight} {P : Flight → Prop}

lemma flight_setFlight (h : (s.flight i).isDone = false) (f : Flight) (j : ℕ) :
    (s.setFlight i f).flight j = if j = i then f else s.flight j := by
  have hi : i < s.flights.length := by
    by_contra hlen
    have hdone : s.flight i = .done := by
      unfold flight
      rw [getD_eq_default _ _ (Nat.le_of_not_lt hlen)]
    rw [hdone] at h
    cases h
  unfold setFlight flight
  rw [getD_eq_getElem?_getD, getD_eq_getElem?_getD, getElem?_set]
  by_cases hj : j = i
  · rw [if_pos hj, if_pos hj.symm, if_pos hi]
    rfl
  · rw [if_neg hj, if_neg (Ne.symm hj)]

lemma forall_setFlight (hdone : (s.flight i).isDone = false) (hf : P f)
    (h : ∀ j, j ≠ i → P (s.flight j)) (j : ℕ) : P ((s.setFlight i f).flight j) := by
  rw [flight_setFlight hdone]
  split
  · exact hf
  · next hj => exact h j hj

lemma forall_flight (hdone : P .done) (h : ∀ f ∈ s.flights, P f) (j : ℕ) : P (s.flight j) := by
  unfold flight
  rw [getD_eq_getElem?_getD]
  cases hj : s.flights[j]? with
  | none => exact hdone
  | some f => exact h f (mem_of_getElem? hj)

lemma flight_start (op : EngineOp) (j : ℕ) : (s.step (.start op)).flight j = s.flight j ∨
      ((s.step (.start op)).flight j = .begun op ∧ s.flight j = .done) := by
  show (s.flights ++ [Flight.begun op]).getD j .done = s.flights.getD j .done ∨
    ((s.flights ++ [Flight.begun op]).getD j .done = _ ∧ s.flights.getD j .done = _)
  rcases Nat.lt_trichotomy j s.flights.length with hlt | rfl | hgt
  · exact .inl (getD_append _ _ _ _ hlt)
  · refine .inr ⟨?_, getD_eq_default _ _ le_rfl⟩
    rw [getD_append_right _ _ _ _ le_rfl, Nat.sub_self]
    rfl
  · refine .inl ?_
    rw [getD_eq_default _ _ (by rw [length_append]; exact hgt), getD_eq_default _ _ hgt.le]

/-- The operation took the store to where it is, from one that the snapshot follows. -/
def Commits (s : FlightState) (op : EngineOp) (reply : Reply) : Prop :=
  ∃ before, Settled s.snapshot before ∧ op.Accepts before ∧
    op.command s.snapshot before = .ok (s.store, reply)

/-- The one operation between its commit and its publication. -/
def Pending (s : FlightState) : Flight → Prop
  | .replied op reply => s.Commits op reply
  | .ready op previous reply => previous = s.snapshot ∧ s.Commits op reply
  | _ => False

/-- A snapshot that was read and not replaced is the published one. -/
def Current (s : FlightState) : Flight → Prop
  | .read _ previous version =>
    version ≤ s.version ∧ (version = s.version → previous = s.snapshot)
  | _ => True

/-- Nothing waits for its publication, or one operation does. -/
inductive Phase (s : FlightState) : Prop where
  | settled (clean : ∀ j, (s.flight j).isCommitted = false) (snapshot : Settled s.snapshot s.store)
  | pending (i : ℕ) (flight : s.Pending (s.flight i))
      (alone : ∀ j, (s.flight j).isCommitted = true → j = i)

structure Good (s : FlightState) : Prop where
  phase : s.Phase
  current : ∀ j, s.Current (s.flight j)
  increasing : s.revisions.Pairwise (· < ·)
  published : ∀ revision ∈ s.revisions, revision ≤ s.snapshot.revision

lemma Pending.isCommitted (h : s.Pending f) : f.isCommitted = true := by
  cases f with
  | replied | ready => rfl
  | _ => exact h.elim

lemma Pending.commits (h : s.Pending f) : ∃ op reply, s.Commits op reply := by
  cases f with
  | replied op reply => exact ⟨op, reply, h⟩
  | ready op previous reply => exact ⟨op, reply, h.2⟩
  | _ => exact h.elim

lemma not_isDone_of_isCommitted (h : f.isCommitted = true) : f.isDone = false := by
  cases f with
  | done => cases h
  | _ => rfl

lemma Pending.current (h : s.Pending f) (t : FlightState) : t.Current f := by
  cases f with
  | read => exact h.elim
  | _ => trivial

lemma Pending.congr {t : FlightState} (hsnap : t.snapshot = s.snapshot)
    (hstore : t.store = s.store) (h : s.Pending f) : t.Pending f := by
  have hcommits (op : EngineOp) (reply : Reply) (h : s.Commits op reply) : t.Commits op reply := by
    unfold Commits
    rw [hsnap, hstore]
    exact h
  cases f with
  | replied op reply => exact hcommits op reply h
  | ready op previous reply => exact ⟨h.1.trans hsnap.symm, hcommits op reply h.2⟩
  | _ => exact h.elim

/-! ## Steps -/

/-- A step that leaves the snapshot, the store and the committed operations alone. -/
lemma Good.frame {t : FlightState} (h : s.Good) (hsnap : t.snapshot = s.snapshot)
    (hstore : t.store = s.store) (hrevisions : t.revisions = s.revisions)
    (hcur : ∀ j, t.Current (t.flight j)) (hflight : ∀ j, t.flight j = s.flight j ∨
      (t.flight j).isCommitted = false ∧ (s.flight j).isCommitted = false) : t.Good := by
  have hcomm (j : ℕ) : (t.flight j).isCommitted = (s.flight j).isCommitted := by
    rcases hflight j with heq | ⟨ht, hs⟩
    · rw [heq]
    · rw [ht, hs]
  refine ⟨?_, hcur, ?_, ?_⟩
  · cases h.phase with
    | settled clean snapshot =>
      refine .settled (fun j => ?_) ?_
      · rw [hcomm]
        exact clean j
      · rw [hsnap, hstore]
        exact snapshot
    | pending i flight alone =>
      -- the pending flight is committed, so it is one of those that stayed
      refine .pending i ?_ fun j hj => alone j ((hcomm j).symm.trans hj)
      rcases hflight i with heq | ⟨-, hs⟩
      · rw [heq]
        exact flight.congr hsnap hstore
      · rw [flight.isCommitted] at hs
        cases hs
  · rw [hrevisions]
    exact h.increasing
  · rw [hrevisions, hsnap]
    exact h.published

lemma Good.setFlight (h : s.Good) (hdone : (s.flight i).isDone = false)
    (hs : (s.flight i).isCommitted = false) (hf : f.isCommitted = false) (hcur : s.Current f) :
    (s.setFlight i f).Good := by
  refine h.frame rfl rfl rfl (fun j => ?_) fun j => ?_
  · exact forall_setFlight hdone hcur (fun j _ => h.current j) j
  · rw [flight_setFlight hdone]
    split
    · next hj =>
      rw [hj]
      exact .inr ⟨hf, hs⟩
    · exact .inl rfl

lemma Good.start (h : s.Good) (op : EngineOp) : (s.step (.start op)).Good := by
  have hflight := flight_start (s := s) op
  refine h.frame rfl rfl rfl (fun j => ?_) fun j => ?_
  · rcases hflight j with heq | ⟨heq, -⟩
    · rw [heq]
      exact h.current j
    · rw [heq]
      trivial
  · rcases hflight j with heq | ⟨heq, hdone⟩
    · exact .inl heq
    · rw [heq, hdone]
      exact .inr ⟨rfl, rfl⟩

/-- The flight that was set is the one that waits for its publication. -/
lemma phase_setFlight {t : FlightState} (hdone : (s.flight i).isDone = false)
    (hflights : t.flights = (s.setFlight i f).flights) (hf : t.Pending f)
    (hclean : ∀ j, j ≠ i → (s.flight j).isCommitted = false) : t.Phase := by
  have hflight (j : ℕ) : t.flight j = if j = i then f else s.flight j := by
    rw [← flight_setFlight hdone f j]
    unfold flight
    rw [hflights]
  refine .pending i ?_ fun j hj => ?_
  · rw [hflight, if_pos rfl]
    exact hf
  · by_contra hne
    rw [hflight, if_neg hne, hclean j hne] at hj
    cases hj

/-- A command that is sent while nothing else waits for its publication. -/
lemma Good.commit (h : s.Good) (hclean : ∀ j, (s.flight j).isCommitted = false)
    (hdone : (s.flight i).isDone = false) (hop : op.Accepts s.store) {next : Reply → Flight}
    (hnext : ∀ reply (t : FlightState), t.snapshot = s.snapshot → t.Commits op reply →
      t.Pending (next reply)) (commits : Bool) : (s.commit i commits op s.snapshot next).Good := by
  have hfail : (s.setFlight i .done).Good := h.setFlight hdone (hclean i) rfl trivial
  unfold FlightState.commit
  split
  · cases hcmd : op.command s.snapshot s.store with
    | error => exact hfail
    | ok committed =>
      obtain ⟨store, reply⟩ := committed
      have hsettled : Settled s.snapshot s.store := by
        cases h.phase with
        | settled _ snapshot => exact snapshot
        | pending i flight =>
          have hcomm := flight.isCommitted
          rw [hclean] at hcomm
          cases hcomm
      have hpend := hnext reply { s with store, flights := s.flights.set i (next reply) } rfl
        ⟨s.store, hsettled, hop, hcmd⟩
      have hcur := forall_setFlight hdone (hpend.current s) fun j _ => h.current j
      refine ⟨phase_setFlight hdone rfl hpend fun j _ => hclean j, hcur, h.increasing, h.published⟩
  · exact hfail

/-- A committed flight is the one that is pending, and no other is committed. -/
lemma Good.pending_of_isCommitted (h : s.Good) (hi : (s.flight i).isCommitted = true) :
    s.Pending (s.flight i) ∧ ∀ j, j ≠ i → (s.flight j).isCommitted = false := by
  cases h.phase with
  | settled clean =>
    rw [clean] at hi
    cases hi
  | pending k pending alone =>
    obtain rfl := alone i hi
    refine ⟨pending, fun j hj => ?_⟩
    rw [← Bool.not_eq_true]
    exact fun hcomm => hj (alone j hcomm)

lemma Good.loadReply (h : s.Good) {reply : Reply} (hi : s.flight i = .replied op reply) :
    (s.setFlight i (.ready op s.snapshot reply)).Good := by
  have hdone : (s.flight i).isDone = false := by rw [hi]; rfl
  obtain ⟨pending, hclean⟩ := h.pending_of_isCommitted (by rw [hi]; rfl)
  rw [hi] at pending
  have hcur := forall_setFlight (f := .ready op s.snapshot reply) hdone trivial
    fun j _ => h.current j
  exact ⟨phase_setFlight hdone rfl ⟨rfl, pending⟩ hclean, hcur, h.increasing, h.published⟩

/-- A snapshot that was read before a replacement is out of date. -/
lemma Current.replaced {t : FlightState} (h : s.Current f) (hversion : t.version = s.version + 1) :
    t.Current f := by
  cases f with
  | read op previous version =>
    have hle := h.1
    exact ⟨by omega, fun heq => by omega⟩
  | _ => trivial

/-- The snapshot that the pending operation leaves. -/
lemma Good.finish (h : s.Good) {previous : StateSnapshot} {reply : Reply}
    (hi : s.flight i = .ready op previous reply) :
    (s.finish i (op.publication previous reply)).Good := by
  have hdone : (s.flight i).isDone = false := by rw [hi]; rfl
  obtain ⟨pending, hothers⟩ := h.pending_of_isCommitted (by rw [hi]; rfl)
  rw [hi] at pending
  obtain ⟨rfl, before, hbefore, hop, hcmd⟩ := pending
  have hsettled := settled_publication hbefore hop hcmd
  have hends := publication_ends op s.snapshot reply
  have hclean :=
    forall_setFlight (P := fun f => f.isCommitted = false) (f := .done) hdone rfl hothers
  have hstale (t : FlightState) (hversion : t.version = s.version + 1) (j : ℕ) :
      t.Current ((s.setFlight i .done).flight j) :=
    forall_setFlight hdone trivial (fun j _ => (h.current j).replaced hversion) j
  generalize op.publication s.snapshot reply = publication at hsettled hends ⊢
  cases hends with
  | none _ =>
    have hcur := forall_setFlight (f := .done) hdone trivial fun j _ => h.current j
    exact ⟨.settled hclean hsettled, hcur, h.increasing, h.published⟩
  | @silent next revision _ =>
    refine ⟨.settled hclean hsettled, hstale _ rfl, h.increasing, fun r hr => ?_⟩
    show r ≤ next.revision
    rw [revision]
    exact h.published r hr
  | @publish next revision _ =>
    refine ⟨.settled hclean hsettled, hstale _ rfl, ?_, fun r hr => ?_⟩
    · refine pairwise_append.mpr ⟨h.increasing, pairwise_singleton _ _, ?_⟩
      intro r hr r' hr'
      have hle := h.published r hr
      rw [mem_singleton.mp hr', revision]
      omega
    · show r ≤ next.revision
      rcases of_mem_concat hr with hold | hlast
      · have hle := h.published r hold
        omega
      · exact (hlast).le

lemma Good.columns (h : s.Good) :
    ∀ row ∈ s.store.devices, row.accessScope = row.observation.metadata.access := by
  cases h.phase with
  | settled _ snapshot => exact snapshot.maps.columns
  | pending i flight =>
    obtain ⟨op, reply, before, hbefore, hop, hcmd⟩ := flight.commits
    exact (settled_publication hbefore hop hcmd).maps.columns

lemma good_opened {store : ProjectionStore} (version : ℕ)
    (h : ∀ row ∈ store.devices, row.accessScope = row.observation.metadata.access) :
    Good ⟨store, store.restoreSnapshot, version, [0], []⟩ := by
  refine ⟨.settled (fun j => rfl) ⟨matches_restore _ h, rfl⟩, fun j => trivial, ?_, ?_⟩
  · exact pairwise_singleton _ _
  · intro revision hrev
    rw [mem_singleton.mp hrev]
    exact Nat.zero_le _

lemma good_init : init.Good :=
  good_opened 0 Table.forall_mem_empty

/-! ## Runs -/

/-- The command is accepted, and the snapshot that it depends on is still published. -/
def Sendable (s : FlightState) : Flight → Prop
  | .begun op => op.Accepts s.store
  | .read op _ version => op.Accepts s.store ∧ version = s.version
  | _ => True

instance decidableSendable (s : FlightState) (f : Flight) : Decidable (s.Sendable f) := by
  cases f <;> unfold Sendable <;> infer_instance

end FlightState

/-- Commands are sent one at a time: nothing else waits for its publication. -/
def FlightOp.Exclusive (s : FlightState) : FlightOp → Prop
  | .send i _ => (∀ f ∈ s.flights, f.isCommitted = false) ∧ s.Sendable (s.flight i)
  | _ => True

instance FlightOp.decidableExclusive (s : FlightState) (op : FlightOp) :
    Decidable (op.Exclusive s) := by
  cases op <;> unfold FlightOp.Exclusive <;> infer_instance

namespace FlightState

variable {i : ℕ}

lemma Good.send (h : s.Good) {commits : Bool} (hs : (FlightOp.send i commits).Exclusive s) :
    (s.send i commits).Good := by
  have hclean := forall_flight (P := fun f => f.isCommitted = false) rfl hs.1
  have hsend := hs.2
  have hcur := h.current i
  unfold FlightState.send
  split
  · next op hi =>
    rw [hi] at hsend
    split
    · exact h
    · refine h.commit hclean (by rw [hi]; rfl) hsend (fun reply t _ hcommits => ?_) commits
      exact hcommits
  · next op previous version hi =>
    -- the snapshot that was read is still the published one
    rw [hi] at hsend hcur
    obtain rfl := hcur.2 hsend.2
    refine h.commit hclean (by rw [hi]; rfl) hsend.1 (fun reply t hsnap hcommits => ?_) commits
    exact ⟨hsnap.symm, hcommits⟩
  · exact h

lemma Good.read (h : s.Good) (i : ℕ) : (s.read i).Good := by
  unfold FlightState.read
  split
  · next op hi =>
    split
    · have hcur : s.Current (.read op s.snapshot s.version) := ⟨le_rfl, fun _ => rfl⟩
      exact h.setFlight (by rw [hi]; rfl) (by rw [hi]; rfl) rfl hcur
    · exact h
  · exact h

lemma Good.step (h : s.Good) {op : FlightOp} (hop : op.Exclusive s) : (s.step op).Good := by
  cases op with
  | start op => exact h.start op
  | read i => exact h.read i
  | send => exact h.send hop
  | load i =>
    show (s.load i).Good
    unfold load
    split
    · next op reply hi => exact h.loadReply hi
    · exact h
  | publish i =>
    show (s.publish i).Good
    unfold publish
    split
    · next op previous reply hi => exact h.finish hi
    · exact h
  | reopen => exact good_opened _ h.columns

lemma Good.consistent (h : s.Good) : s.Consistent := by
  refine ⟨fun hquiet => ?_, h.increasing⟩
  have hdone := forall_flight (P := fun f => f.isDone = true) rfl hquiet
  cases h.phase with
  | settled _ snapshot =>
    exact ⟨snapshot.maps.devices, snapshot.maps.replicants, snapshot.maps.locations,
      snapshot.maps.inventories, snapshot.account⟩
  | pending i flight =>
    have hflight := not_isDone_of_isCommitted flight.isCommitted
    rw [hdone] at hflight
    cases hflight

end FlightState

/-- In every run where commands are sent one at a time and what they write is read back, the snapshot
follows the store. -/
theorem flightRun_consistent (readBack : ProjectionStore → ProjectionStore) (ops : List FlightOp)
    (h : AllSteps (FlightState.stepWith readBack) (fun s op => op.Exclusive s) FlightState.init ops)
    (hreads : AllSteps (FlightState.stepWith readBack)
      (fun s op => (s.step op).store.ReadsBack readBack) FlightState.init ops) :
    (flightRun readBack ops).Consistent := by
  refine FlightState.Good.consistent ((h.and hreads).foldl good_init fun s op hs hop => ?_)
  have hread : readBack (s.step op).store = (s.step op).store := hop.2
  rw [stepWith, hread]
  exact hs.step hop.1

/-- Two operations that begin together and send one after the other. -/
theorem flightRun_consistent_pair : (flightRun id
      [.start (.persistReplicant (sampleObservation ⟨⟨.live, "R1"⟩, .null⟩ 1)),
        .start (.persistLocation (sampleObservation ⟨⟨.live, "L1"⟩, none, none, none, [], none, none,
          none, fun _ => none, fun _ => .unknown, fun _ => none⟩ 1)),
        .send 0 true, .load 0, .publish 0, .read 1, .send 1 true, .publish 1]).Consistent :=
  flightRun_consistent id _ (by decide) (.of_forall (fun _ _ _ => rfl) _)

/-- A replicant and an inventory whose operations overlap: the second publication is made from the
snapshot before the first one. -/
theorem publication_lost : ∃ ops, (flightRun id ops).Quiet ∧ ¬ (flightRun id ops).FollowsStore ∧
      ¬ (flightRun id ops).revisions.Pairwise (· < ·) := by
  refine ⟨[.start (.persistReplicant (sampleObservation ⟨⟨.live, "R1"⟩, .null⟩ 1)),
    .start (.persistInventory (sampleObservation ⟨.account "a", .null⟩ 1)),
    .send 0 true, .load 0, .send 1 true, .load 1, .publish 0, .publish 1], ?_, fun h => ?_, ?_⟩
  · show ∀ f ∈ _, _
    decide
  · exact absurd h.replicants (by decide)
  · decide

end Replicant.Managed
