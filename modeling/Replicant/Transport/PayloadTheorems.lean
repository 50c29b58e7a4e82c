import Replicant.Transport.CarrierTheorems

/-!
# Device delivery

The stages of `deliver_payload_devices` one after another: what each hands to the next, and what holds
in every state of a run.
-/

namespace Replicant.Transport

open Lib Lib.Text Contract List Option
open Std (ExtTreeMap)

variable {todo : PayloadGroups} {listing : Listing}
  {alreadyDelivered delivered : List String} {origin : String} {loops : List (Program Bool)}
  {r : PayloadRun}

namespace PayloadJob

variable (job : PayloadJob) (fresh : Prop) (w₀ : World)

/-! ## Listing the payloads -/

/-- The payloads of one origin. -/
structure GroupOk (entry : String × List PayloadDevice) : Prop where
  codes : ∀ p ∈ entry.2, p.code ∈ job.payloadCodes
  nodup : (entry.2.map fun p => canonicalDeviceCode p.code).Nodup
  origin : fresh → ',' ∉ entry.1.toList

/-- Each payload is delivered or in a group that is still to do. -/
def Covers (delivered : List String) (todo : PayloadGroups) : Prop :=
  ∀ code ∈ job.payloadCodes, code ∈ delivered ∨ ∃ entry ∈ todo, ∃ p ∈ entry.2, p.code = code

/-- The groups are of the payloads that were looked at. -/
structure Lists (seen : List PayloadDevice) (listing : Listing) : Prop where
  codes : ∀ (origin : String) group, listing.byOrigin[origin]? = some group →
    ∀ p ∈ group, p.code ∈ seen.map (·.code)
  nodup : ∀ (origin : String) group, listing.byOrigin[origin]? = some group →
    (group.map fun p => canonicalDeviceCode p.code).Nodup
  origin : fresh → ∀ (origin : String) group,
    listing.byOrigin[origin]? = some group → ',' ∉ origin.toList
  cover : ∀ p ∈ seen, ∃ (origin : String), ∃ group,
    listing.byOrigin[origin]? = some group ∧ ∃ q ∈ group, q.code = p.code

/-- What is known after the payloads have been listed. -/
structure ListingEnd (listing : Listing) (w : World) : Prop where
  ready : job.Ready fresh listing.alreadyDelivered job.carrierKeys w
  groups : ∀ entry ∈ listing.byOrigin.toList, job.GroupOk fresh entry
  covers : job.Covers [] listing.byOrigin.toList

variable {job fresh w₀} {w w' : World} {group : List PayloadDevice} {payload : PayloadDevice}

lemma Lists.add {seen todo : List PayloadDevice} {effective : PayloadDevice}
    (h : Lists fresh seen listing) (hdistinct : job.Distinct)
    (hsplit : job.payloads = seen ++ payload :: todo) (hcode : effective.code = payload.code)
    (horig : fresh → ',' ∉ effective.origin.toList) : Lists fresh (seen ++ [payload]) {
      byOrigin := listing.byOrigin.alter effective.origin fun group =>
        some (group.getD [] ++ [effective])
      alreadyDelivered } := by
  -- the payload has not been looked at before
  have hnew : canonicalDeviceCode payload.code ∉ seen.map fun p => canonicalDeviceCode p.code := by
    intro hmem
    have hnodup := hdistinct.payloads
    unfold payloadKeys at hnodup
    rw [hsplit, map_append, map_cons] at hnodup
    exact disjoint_of_nodup_append hnodup hmem mem_cons_self
  have hgroup : ∀ origin group, (listing.byOrigin.alter effective.origin fun group =>
      some (group.getD [] ++ [effective]))[origin]? = some group →
      (effective.origin = origin ∧ group = (listing.byOrigin[origin]?).getD [] ++ [effective]) ∨
        listing.byOrigin[origin]? = some group := by
    intro origin group hget
    simp only [ExtTreeMap.getElem?_alter, Std.compare_eq_iff_eq] at hget
    split at hget
    · rename_i heq
      exact .inl ⟨heq, by rw [← heq]; exact (some.inj hget).symm⟩
    · exact .inr hget
  have hold : ∀ origin : String, ∀ p ∈ (listing.byOrigin[origin]?).getD [], p.code ∈ seen.map (·.code) := by
    intro origin p hp
    cases hget : listing.byOrigin[origin]? with
    | none => simp [hget] at hp
    | some group => exact h.codes origin group hget p (by simpa [hget] using hp)
  refine ⟨fun origin group hget p hp => ?_, fun origin group hget => ?_, fun hf origin group hget => ?_,
    fun p hp => ?_⟩
  · rw [map_append, mem_append]
    rcases hgroup origin group hget with ⟨-, rfl⟩ | hget
    · rcases mem_append.mp hp with hbefore | hlast
      · exact .inl (hold origin p hbefore)
      · rw [mem_singleton.mp hlast, hcode]
        exact .inr mem_cons_self
    · exact .inl (h.codes origin group hget p hp)
  · rcases hgroup origin group hget with ⟨-, rfl⟩ | hget
    · rw [map_append, map_singleton, nodup_append]
      refine ⟨?_, nodup_singleton _, fun x hx y hy heq => hnew ?_⟩
      · cases hget : listing.byOrigin[origin]? with
        | none => exact nodup_nil
        | some group => exact h.nodup origin group hget
      · rw [mem_singleton.mp hy, hcode] at heq
        obtain ⟨p, hp, rfl⟩ := mem_map.mp hx
        obtain ⟨q, hq, hqp⟩ := mem_map.mp (hold origin p hp)
        exact mem_map.mpr ⟨q, hq, by rw [hqp, heq]⟩
    · exact h.nodup origin group hget
  · rcases hgroup origin group hget with ⟨rfl, -⟩ | hget
    · exact horig hf
    · exact h.origin hf origin group hget
  · simp only [ExtTreeMap.getElem?_alter, Std.compare_eq_iff_eq]
    cases mem_append.mp hp with
    | inr hlast =>
      rw [mem_singleton.mp hlast]
      exact ⟨_, _, if_pos rfl, effective, mem_append_cons_self, hcode⟩
    | inl hbefore =>
      obtain ⟨origin, group, hget, q, hq, hqp⟩ := h.cover p hbefore
      by_cases heq : effective.origin = origin
      · refine ⟨_, _, if_pos rfl, q, mem_append_left _ ?_, hqp⟩
        rw [heq, hget]
        exact hq
      · exact ⟨origin, group, by rw [if_neg heq, hget], q, hq, hqp⟩

/-- A payload counts as delivered only if it stands free at the destination, and the place it is taken
from is its origin or where it stands. -/
lemma payloadResumeState_spec {detail : Device} {destination effectiveOrigin : String}
    {isDelivered : Bool} (h : payloadResumeState detail.location
      (detail.travel.isNone && detail.attachedTo.isNone && detail.stowedIn.isNone) origin
      destination = (effectiveOrigin, isDelivered)) :
    (isDelivered = true → detail.standsAt destination = true ∧ detail.attachedTo = none) ∧
      (effectiveOrigin = origin ∨ detail.location = some effectiveOrigin) := by
  unfold payloadResumeState at h
  split at h
  · rename_i hfree
    rw [Bool.and_eq_true, Bool.and_eq_true] at hfree
    split at h
    · obtain ⟨rfl, rfl⟩ := Prod.mk.inj h
      exact ⟨nofun, .inl rfl⟩
    · rename_i location hloc
      split at h
      · rename_i hsame
        obtain ⟨rfl, rfl⟩ := Prod.mk.inj h
        refine ⟨fun _ => ⟨?_, isNone_iff_eq_none.mp hfree.1.2⟩, .inl rfl⟩
        unfold Device.standsAt
        rw [hfree.1.1, hloc, any_some, hsame, Bool.and_self]
      · split at h
        · obtain ⟨rfl, rfl⟩ := Prod.mk.inj h
          exact ⟨nofun, .inr hloc⟩
        · obtain ⟨rfl, rfl⟩ := Prod.mk.inj h
          exact ⟨nofun, .inl rfl⟩
  · obtain ⟨rfl, rfl⟩ := Prod.mk.inj h
    exact ⟨nofun, .inl rfl⟩

variable (job fresh) in
/-- The payloads in `todo` have not been looked at. -/
structure Listed (todo : List PayloadDevice) (listing : Listing) (w : World) : Prop where
  ready : job.Ready fresh listing.alreadyDelivered job.carrierKeys w
  rested : fresh → ∀ x ∈ job.payloadKeys, Rested x w
  lists : ∃ seen, job.payloads = seen ++ todo ∧ Lists fresh seen listing

lemma Listed.drifts {todo : List PayloadDevice} (h : job.Listed fresh todo listing w)
    (hdrift : w.Drifts w') : job.Listed fresh todo listing w' where
  ready := h.ready.drifts hdrift
  rested hf x hx := (h.rested hf x hx).drifts (hdrift.devices x)
  lists := h.lists

lemma Listed.listingEnd (h : job.Listed fresh [] listing w) : job.ListingEnd fresh listing w := by
  obtain ⟨seen, hseen, hlists⟩ := h.lists
  rw [append_nil] at hseen
  have hget : ∀ entry ∈ listing.byOrigin.toList, listing.byOrigin[entry.1]? = some entry.2 :=
    fun entry hentry => ExtTreeMap.mem_toList_iff_getElem?_eq_some.mp hentry
  refine ⟨h.ready, fun entry hentry => ⟨fun p hp => ?_, hlists.nodup _ _ (hget entry hentry),
    fun hf => hlists.origin hf _ _ (hget entry hentry)⟩, fun code hcode => .inr ?_⟩
  · unfold payloadCodes
    rw [hseen]
    exact hlists.codes _ _ (hget entry hentry) p hp
  · obtain ⟨p, hp, rfl⟩ := mem_map.mp hcode
    obtain ⟨origin, group, hgroup, hq⟩ := hlists.cover p (hseen ▸ hp)
    exact ⟨(origin, group), ExtTreeMap.mem_toList_iff_getElem?_eq_some.mpr hgroup, hq⟩

lemma keeps_listPayload (hdistinct : job.Distinct) (hplain : fresh → job.Plain)
    {todo : List PayloadDevice} (h : job.Listed fresh (payload :: todo) listing w) :
    (job.alone fresh w₀).Keeps (job.Listed fresh todo) (job.listPayload listing payload) w := by
  refine keeps_getDevice fun w₁ hrely₁ hinv₁ => ?_
  have h₁ := h.drifts hrely₁
  obtain ⟨seen, hseen, hlists⟩ := h₁.lists
  have hpay : payload ∈ job.payloads := by
    rw [hseen]
    exact mem_append_cons_self
  have hcode : payload.code ∈ job.payloadCodes := mem_map_of_mem hpay
  dsimp only
  generalize hresume : payloadResumeState _ _ payload.origin job.destination = resume
  obtain ⟨effectiveOrigin, isDelivered⟩ := resume
  obtain ⟨hdelivered, hplace⟩ := payloadResumeState_spec hresume
  generalize heffective : (if (!isDelivered && !sameLocation effectiveOrigin payload.origin) = true then
    { payload with origin := effectiveOrigin } else payload) = effective
  have hsame : effective.code = payload.code := by
    rw [← heffective]
    split <;> rfl
  have horig : fresh → ',' ∉ effective.origin.toList := by
    intro hf
    rw [← heffective]
    split
    · rcases hplace with hown | hthere
      · rw [hown]
        exact (hplain hf).origins payload hpay
      · exact (h₁.rested hf _ (mem_payloadKeys hcode)).2 _ hthere
    · exact (hplain hf).origins payload hpay
  refine keeps_ret fun w₂ hrely₂ _ => Listed.drifts ⟨?_, h₁.rested, ?_⟩ hrely₂
  · dsimp only
    split
    · rename_i hthere
      refine { h₁.ready with
        settled := fun code hmem => ?_
        waiting := fun code hmem hnot =>
          h₁.ready.waiting code hmem fun hold => hnot (mem_cons_of_mem _ hold) }
      rcases mem_cons.mp hmem with heq | hold
      · rw [heq]
        exact ⟨hcode, hdelivered hthere, h₁.ready.unheld _⟩
      · exact h₁.ready.settled code hold
    · exact h₁.ready
  · refine ⟨seen ++ [payload], ?_, hlists.add hdistinct hseen hsame horig⟩
    rw [hseen, append_assoc, singleton_append]

lemma keeps_listing (hdistinct : job.Distinct) (hplain : fresh → job.Plain)
    (hinv : job.Sound fresh w₀ w) (hready : job.Ready fresh [] job.carrierKeys w)
    (hrested : fresh → ∀ x ∈ job.payloadKeys, Rested x w) :
    (job.alone fresh w₀).Keeps (job.ListingEnd fresh)
      (Task.foldEach job.payloads ⟨∅, []⟩ job.listPayload) w := by
  have hloop : (job.alone fresh w₀).Keeps (job.Listed fresh [])
      (Task.foldEach job.payloads ⟨∅, []⟩ job.listPayload) w := by
    refine keeps_foldEach (job.Listed fresh) (fun _ w w' hrely _ h => h.drifts hrely)
      (fun payload todo listing w _ h => keeps_listPayload hdistinct hplain h) hinv
      ⟨hready, hrested, [], rfl, by simp, by simp, by simp, nofun⟩
  exact hloop.mono fun _ _ _ h => h.listingEnd

/-! ## Before the trips of an origin -/

lemma mem_sortDedup {codes : List String} {code : String} :
    code ∈ sortDedup codes ↔ code ∈ codes := by
  unfold sortDedup
  rw [mem_insertionSort, mem_dedup]

variable (job fresh) in
/-- What is known before the trips of a group start. If there are trips, all carriers are empty. -/
structure PreflightEnd (alreadyDelivered delivered : List String) (group : List PayloadDevice)
    (result : List String × Option (List PayloadDevice)) (w : World) : Prop where
  ready : job.Ready fresh (result.1 ++ alreadyDelivered)
    (if result.2.isSome then [] else job.carrierKeys) w
  delivered : ∀ code ∈ delivered, code ∈ result.1
  already : ∀ p ∈ group, p.code ∈ alreadyDelivered → p.code ∈ result.1
  left : result.2.getD [] = group.filter (·.code ∉ result.1)

lemma keeps_preflight (hdistinct : job.Distinct) (hplain : fresh → job.Plain)
    (hinv : job.Sound fresh w₀ w)
    (hready : job.Ready fresh (delivered ++ alreadyDelivered) job.carrierKeys w) :
    (job.alone fresh w₀).Keeps (job.PreflightEnd fresh alreadyDelivered delivered group)
      (job.preflight alreadyDelivered delivered origin group) w := by
  unfold preflight
  generalize hdelivered' : delivered ++ (group.map (·.code)).filter (· ∈ alreadyDelivered) = delivered'
  have hmem : ∀ code ∈ delivered, code ∈ delivered' := by
    rw [← hdelivered']
    exact fun code => mem_append_left _
  have halready : ∀ p ∈ group, p.code ∈ alreadyDelivered → p.code ∈ delivered' := by
    intro p hp hin
    rw [← hdelivered']
    refine mem_append_right _ (mem_filter.mpr ⟨mem_map_of_mem hp, decide_eq_true hin⟩)
  have hready' : job.Ready fresh (delivered' ++ alreadyDelivered) job.carrierKeys w := by
    refine hready.congr fun code => ?_
    rw [← hdelivered', mem_append, mem_append, mem_append, mem_filter, decide_eq_true_eq]
    tauto
  refine keeps_ite (fun hnone => keeps_ret fun w₁ hrely₁ _ => ?_) fun _ => ?_
  · exact ⟨hready'.drifts hrely₁, hmem, halready, hnone.symm⟩
  · have hloop : (job.alone fresh w₀).Keeps
        (fun result w => job.Ready fresh (result ++ alreadyDelivered) [] w ∧
          ∀ code ∈ delivered', code ∈ result)
        (Task.foldEach job.carriers delivered' (job.preflightCarrier origin
          (canonicalPayloadKey ((group.filter (·.code ∉ delivered')).map (·.code))))) w := by
      -- the carriers that have not been looked at may have payloads attached
      refine (keeps_foldEach (fun todo result w =>
        job.Ready fresh (result ++ alreadyDelivered) (todo.map canonicalDeviceCode) w ∧
          (∀ carrier ∈ todo, carrier ∈ job.carriers) ∧ ∀ code ∈ delivered', code ∈ result)
        (fun _ w w' hrely _ h => ⟨h.1.drifts hrely, h.2⟩) (fun carrier todo result w _ h => ?_) hinv
        ⟨hready', fun _ h => h, fun _ h => h⟩).mono fun _ _ _ h => ⟨h.1, h.2.2⟩
      have hkey : canonicalDeviceCode carrier ∈ job.carrierKeys :=
        mem_map_of_mem (h.2.1 carrier mem_cons_self)
      refine (keeps_preflightCarrier hdistinct hkey rfl hplain h.1).mono fun result' w' _ h' => ?_
      exact ⟨h'.1, fun c hc => h.2.1 c (mem_cons_of_mem _ hc),
        fun code hcode => h'.2 code (h.2.2 code hcode)⟩
    refine Keeps.bind (hloop.mono fun result w₁ hinv₁ h₁ => keeps_ret fun w₂ hrely₂ _ => ?_) hinv
    refine ⟨(h₁.1.drifts hrely₂).congr fun code => ?_,
      fun code hcode => mem_sortDedup.mpr (h₁.2 code (hmem code hcode)),
      fun p hp hin => mem_sortDedup.mpr (h₁.2 _ (halready p hp hin)), rfl⟩
    rw [mem_append, mem_append, mem_sortDedup]

/-! ## Stages -/

variable (job fresh w₀) in
/-- The loops of an origin, whose payloads were `pool` at first. -/
structure TripsOk (loops : List (Program Bool)) (origin : String)
    (alreadyDelivered delivered : List String) (todo : PayloadGroups)
    (pool : List PayloadDevice) (w : World) : Prop where
  shares : job.Shares fresh w₀ (delivered ++ alreadyDelivered) pool w
  codes : ∀ p ∈ pool, p.code ∈ job.payloadCodes ∧ p.code ∉ delivered ++ alreadyDelivered
  plain : fresh → ',' ∉ origin.toList
  groups : ∀ entry ∈ todo, job.GroupOk fresh entry
  covers : job.Covers delivered ((origin, pool) :: todo)
  length : loops.length = job.carriers.length
  loops : ∀ i task, loops[i]? = some task →
    (job.contract fresh w₀ (delivered ++ alreadyDelivered) pool (keyAt job.carriers i)).Keeps
      (job.RoundEnd fresh pool (keyAt job.carriers i)) task w

variable (job fresh) in
/-- The returned payloads are delivered, and are all there are. -/
structure Returned (delivered : List String) (w : World) : Prop where
  ready : ∃ alreadyDelivered, job.Ready fresh (delivered ++ alreadyDelivered) job.carrierKeys w
  nodup : delivered.Nodup
  covers : job.Covers delivered []

variable (job fresh w₀) in
/-- What holds at each stage. -/
def StageOk (w : World) : PayloadStage → Prop
  | .listing task => (job.alone fresh w₀).Keeps (job.ListingEnd fresh) task w
  | .preflight task origin alreadyDelivered todo => ∃ delivered group,
      job.GroupOk fresh (origin, group) ∧ (∀ entry ∈ todo, job.GroupOk fresh entry) ∧
        job.Covers delivered ((origin, group) :: todo) ∧
        (job.alone fresh w₀).Keeps (job.PreflightEnd fresh alreadyDelivered delivered group) task w
  | .trips loops origin alreadyDelivered delivered todo =>
      ∃ pool, job.TripsOk fresh w₀ loops origin alreadyDelivered delivered todo pool w
  | .returned (.ok delivered) => job.Returned fresh delivered w
  | .returned (.error _) => True

variable (job fresh w₀) in
/-- What holds at every time of a run. -/
structure RunOk (r : PayloadRun) : Prop where
  sound : job.Sound fresh w₀ r.world
  stage : job.StageOk fresh w₀ r.world r.stage

lemma Covers.next {delivered' : List String} {todo' : PayloadGroups}
    (h : job.Covers delivered ((origin, group) :: todo))
    (hold : ∀ code ∈ delivered, code ∈ delivered')
    (hgroup : ∀ p ∈ group, p.code ∈ delivered' ∨ ∃ entry ∈ todo', p ∈ entry.2)
    (htodo : todo ⊆ todo') : job.Covers delivered' todo' := by
  intro code hcode
  rcases h code hcode with hdone | ⟨entry, hmem, p, hp, rfl⟩
  · exact .inl (hold code hdone)
  · rcases mem_cons.mp hmem with rfl | hlater
    · exact (hgroup p hp).imp_right fun ⟨entry, hentry, hp⟩ => ⟨entry, hentry, p, hp, rfl⟩
    · exact .inr ⟨entry, htodo hlater, p, hp, rfl⟩

section Steps

variable (hdistinct : job.Distinct) (hplain : fresh → job.Plain)

include hdistinct hplain

lemma stageOk_nextOrigin (hinv : job.Sound fresh w₀ w)
    (hready : job.Ready fresh (delivered ++ alreadyDelivered) job.carrierKeys w)
    (hgroups : ∀ entry ∈ todo, job.GroupOk fresh entry) (hcovers : job.Covers delivered todo) :
    job.StageOk fresh w₀ w (job.nextOrigin alreadyDelivered delivered todo) := by
  cases todo with
  | nil =>
    refine ⟨⟨alreadyDelivered, hready.congr fun code => ?_⟩, ?_, fun code hcode => ?_⟩
    · rw [mem_append, mem_append, mem_sortDedup]
    · unfold sortDedup
      exact (perm_insertionSort _ _).nodup_iff.mpr (nodup_dedup _)
    · exact (hcovers code hcode).imp_left mem_sortDedup.mpr
  | cons entry =>
    exact ⟨delivered, entry.2, hgroups entry mem_cons_self,
      fun e he => hgroups e (mem_cons_of_mem _ he), hcovers,
      keeps_preflight hdistinct hplain hinv hready⟩

lemma runOk_listingStep {task : Program Listing} (failure : Option TransportError)
    (h : job.RunOk fresh w₀ ⟨w, .listing task⟩) :
    job.RunOk fresh w₀ (job.listingStep w task failure) := by
  have hkeeps : (job.alone fresh w₀).Keeps (job.ListingEnd fresh) task w := h.stage
  obtain ⟨hinv, -, hnext⟩ := hkeeps.step failure h.sound
  cases task with
  | ret =>
    have hend := hkeeps.result h.sound
    exact ⟨h.sound, stageOk_nextOrigin hdistinct hplain h.sound hend.ready hend.groups hend.covers⟩
  | fail => exact ⟨h.sound, trivial⟩
  | act => exact ⟨hinv, hnext⟩

/-- The carriers are empty when the loops of an origin start. -/
lemma tripsOk_openOrigin {result : List String} {remaining : List PayloadDevice}
    (hinv : job.Sound fresh w₀ w) (hgroup : job.GroupOk fresh (origin, group))
    (hgroups : ∀ entry ∈ todo, job.GroupOk fresh entry)
    (hcovers : job.Covers delivered ((origin, group) :: todo))
    (hend : job.PreflightEnd fresh alreadyDelivered delivered group (result, some remaining) w) :
    job.TripsOk fresh w₀ (job.carriers.map (job.runCarrierTrips origin)) origin alreadyDelivered result
      todo remaining (w.openOrigin remaining) := by
  have hleft : ∀ p, p ∈ remaining ↔ p ∈ group ∧ p.code ∉ result := by
    intro p
    rw [show remaining = group.filter (·.code ∉ result) from hend.left, mem_filter,
      decide_eq_true_eq]
  have hpool : ∀ p ∈ remaining, p.code ∈ job.payloadCodes ∧ p.code ∉ result ++ alreadyDelivered := by
    intro p hp
    obtain ⟨hmem, hnot⟩ := (hleft p).mp hp
    refine ⟨hgroup.codes p hmem, fun hin => hnot ?_⟩
    exact (mem_append.mp hin).elim id (hend.already p hmem)
  have hready : job.Ready fresh (result ++ alreadyDelivered) [] w := hend.ready
  have hnodup : (remaining.map fun p => canonicalDeviceCode p.code).Nodup := by
    rw [show remaining = group.filter (·.code ∉ result) from hend.left]
    exact hgroup.nodup.sublist (filter_sublist.map _)
  refine ⟨⟨⟨⟨hinv.consistent.attached, hinv.consistent.canonical⟩, hinv.commands, hinv.held, hinv.fresh,
    hinv.others, hinv.travels⟩, hready.settled, fun p hp => hp, hnodup,
    fun p hp => hready.waiting _ (hpool p hp).1 (hpool p hp).2,
    fun code hcode hnot _ => hready.waiting code hcode hnot, fun p hp => .inl hp,
    nofun⟩, hpool, hgroup.origin, hgroups,
    hcovers.next hend.delivered (fun p hp => ?_) (subset_cons_self _ _), length_map _,
    fun i task htask => ?_⟩
  · by_cases hin : p.code ∈ result
    · exact .inl hin
    · exact .inr ⟨_, mem_cons_self, (hleft p).mpr ⟨hp, hin⟩⟩
  · rw [getElem?_map, map_eq_some_iff] at htask
    obtain ⟨carrier, hget, rfl⟩ := htask
    have hlt : i < job.carriers.length := (List.getElem?_eq_some_iff.mp hget).1
    have hkey := keyAt_mem hlt
    have hcar : keyAt job.carriers i = canonicalDeviceCode carrier := by
      unfold keyAt
      rw [getD_eq_getElem?_getD, hget, getD_some]
    refine keeps_runCarrierTrips hdistinct hkey hcar hplain hgroup.origin hpool
      ⟨⟨fun x => iff_of_false (hready.unheld x _) not_mem_nil, fun x hx => ?_,
        fun hf => hready.trail hf _ hkey trivial⟩, fun hf => hready.rested hf _ hkey trivial⟩
    have hnil := (hready.empty _ hkey).resolve_left not_mem_nil
    exact absurd (hnil ▸ hx) not_mem_nil

lemma runOk_preflightStep {task : Program (List String × Option (List PayloadDevice))}
    (failure : Option TransportError)
    (h : job.RunOk fresh w₀ ⟨w, .preflight task origin alreadyDelivered todo⟩) :
    job.RunOk fresh w₀ (job.preflightStep w task origin alreadyDelivered todo failure) := by
  obtain ⟨delivered, group, hgroup, hgroups, hcovers, hkeeps⟩ := h.stage
  obtain ⟨hinv, -, hnext⟩ := hkeeps.step failure h.sound
  cases task with
  | ret result =>
    obtain ⟨result, remaining⟩ := result
    have hend := hkeeps.result h.sound
    cases remaining with
    | none =>
      refine ⟨h.sound, stageOk_nextOrigin hdistinct hplain h.sound hend.ready hgroups
        (hcovers.next hend.delivered (fun p hp => .inl ?_) (Subset.refl _))⟩
      -- nothing of the group is left
      by_contra hin
      have hleft : p ∈ group.filter (·.code ∉ result) := mem_filter.mpr ⟨hp, decide_eq_true hin⟩
      rw [← hend.left] at hleft
      exact not_mem_nil hleft
    | some remaining =>
      have htrips := tripsOk_openOrigin hdistinct hplain h.sound hgroup hgroups hcovers hend
      exact ⟨htrips.shares.toSound, remaining, htrips⟩
  | fail => exact ⟨h.sound, trivial⟩
  | act => exact ⟨hinv, delivered, group, hgroup, hgroups, hcovers, hnext⟩

lemma runOk_tripStep (index : ℕ) (failure : Option TransportError)
    (h : job.RunOk fresh w₀ ⟨w, .trips loops origin alreadyDelivered delivered todo⟩) :
    job.RunOk fresh w₀
      (job.tripStep w loops origin alreadyDelivered delivered todo index failure) := by
  obtain ⟨pool, htrips⟩ := h.stage
  have hstep : ∀ task, loops[index]? = some task → job.RunOk fresh w₀
      ⟨(Task.loopStep (job.runCarrierTrips origin (job.carriers.getD index "")) failure task w).2,
        .trips (loops.set index (Task.loopStep (job.runCarrierTrips origin
          (job.carriers.getD index "")) failure task w).1) origin alreadyDelivered delivered todo⟩ := by
    intro task hget
    have hlt : index < job.carriers.length := by
      rw [← htrips.length]
      exact (List.getElem?_eq_some_iff.mp hget).1
    obtain ⟨hinv, hloops⟩ := keeps_pool
      (fun i => job.contract fresh w₀ (delivered ++ alreadyDelivered) pool (keyAt job.carriers i))
      (fun i => job.RoundEnd fresh pool (keyAt job.carriers i))
      (fun i => job.runCarrierTrips origin (job.carriers.getD i ""))
      (fun j s s' hj hne hinv hguar => beside_of_byCarrier hdistinct (keyAt_mem hlt)
        (keyAt_mem (htrips.length ▸ hj))
        (keyAt_ne hdistinct.carriers hlt (htrips.length ▸ hj) hne) hinv hguar)
      (fun s _ hend => keeps_runCarrierTrips hdistinct (keyAt_mem hlt) rfl hplain htrips.plain
        htrips.codes hend) htrips.loops htrips.shares hget
    exact ⟨Shares.toSound hinv, pool, hinv, htrips.codes, htrips.plain, htrips.groups, htrips.covers,
      by rw [length_set, htrips.length], hloops⟩
  unfold tripStep
  cases hget : loops[index]? with
  | none => exact h
  | some task =>
    cases task with
    | ret => exact hstep _ hget
    | fail => exact ⟨h.sound, trivial⟩
    | act => exact hstep _ hget

omit hdistinct in
/-- When all loops have returned and nothing is left, the payloads of the origin are delivered. -/
lemma TripsOk.ready {pool : List PayloadDevice}
    (h : job.TripsOk fresh w₀ loops origin alreadyDelivered delivered todo pool w)
    (hfin : loops.all finished = true) (hrem : w.remaining = []) :
    job.Ready fresh (sortDedup (delivered ++ w.originDelivered) ++ alreadyDelivered) job.carrierKeys w ∧
      ∀ p ∈ pool, p.code ∈ w.originDelivered := by
  have hidle : ∀ c ∈ job.carrierKeys, job.Idle fresh (fun id => ∃ p ∈ pool,
      canonicalDeviceCode p.code ∈ stems id.payload) c w := by
    intro c hc
    obtain ⟨i, hi, rfl⟩ := exists_keyAt hc
    rw [← h.length] at hi
    have hget : loops[i]? = some loops[i] := getElem?_eq_getElem hi
    have hkeeps := h.loops i _ hget
    have hend := all_eq_true.mp hfin _ (getElem_mem hi)
    generalize loops[i] = task at hkeeps hend
    cases task with
    | ret again =>
      cases again with
      | true => cases hend
      | false => exact hkeeps.result h.shares
    | fail | act => cases hend
  have hunheld : ∀ x c, w.custody x ≠ .held c := fun x c hheld =>
    (hidle c (h.shares.held x c hheld).2).free x hheld
  have hpool : ∀ p ∈ pool, p.code ∈ w.originDelivered := by
    intro p hp
    rcases h.shares.cover p hp with hleft | ⟨c, -, hheld⟩ | hdone
    · rw [hrem] at hleft
      cases hleft
    · exact absurd hheld (hunheld _ c)
    · exact hdone
  have hmem : ∀ code, code ∈ sortDedup (delivered ++ w.originDelivered) ++ alreadyDelivered ↔
      code ∈ delivered ++ alreadyDelivered ∨ code ∈ w.originDelivered := by
    intro code
    rw [mem_append, mem_append, mem_sortDedup, mem_append]
    exact or_right_comm
  refine ⟨⟨fun code hcode => ?_, fun c hc => .inl hc, fun c hc _ p hp => ?_, hunheld,
    fun code hcode hnot => ?_, fun hf c hc _ => (hidle c hc).rested hf, fun hf c hc _ => ?_⟩, hpool⟩
  · rcases (hmem code).mp hcode with hold | hnew
    · exact h.shares.settled code hold
    · obtain ⟨hpay, hat, -⟩ := h.shares.arrived code hnew
      exact ⟨hpay, hat, hunheld _⟩
  · exact absurd ((hidle c hc).attached p hp) not_mem_nil
  · rw [hmem, not_or] at hnot
    refine h.shares.later code hcode hnot.1 fun p hp heq => hnot.2 ?_
    rw [← heq]
    exact hpool p hp
  · -- a travel for payloads of the origin is spent, since they are delivered
    intro id hid htgt
    rcases (hidle c hc).trail hf id hid htgt with hspent | hnow
    · exact .inl hspent
    · obtain ⟨p, hp, hstem⟩ := hnow
      refine .inl ⟨_, hstem, (hplain hf).notReturn _ (h.codes p hp).1, fun _ => ?_⟩
      exact (h.shares.arrived _ (hpool p hp)).2.2

lemma runOk_joinStep
    (h : job.RunOk fresh w₀ ⟨w, .trips loops origin alreadyDelivered delivered todo⟩) :
    job.RunOk fresh w₀ (job.joinStep w loops origin alreadyDelivered delivered todo) := by
  obtain ⟨pool, htrips⟩ := h.stage
  unfold joinStep
  by_cases hfin : loops.all finished = true
  · rw [if_pos hfin]
    by_cases hrem : w.remaining = []
    · rw [if_pos hrem]
      obtain ⟨hready, hpool⟩ := htrips.ready hplain hfin hrem
      have hin : ∀ code, code ∈ sortDedup (delivered ++ w.originDelivered) ↔
          code ∈ delivered ∨ code ∈ w.originDelivered := fun code => by rw [mem_sortDedup, mem_append]
      exact ⟨h.sound, stageOk_nextOrigin hdistinct hplain h.sound hready htrips.groups
        (htrips.covers.next (fun code hcode => (hin code).mpr (.inl hcode))
          (fun p hp => .inl ((hin _).mpr (.inr (hpool p hp)))) (Subset.refl _))⟩
    · rw [if_neg hrem]
      exact ⟨h.sound, trivial⟩
  · rw [if_neg hfin]
    exact h

section

variable (h : job.RunOk fresh w₀ r)

include h

omit hdistinct hplain in
lemma RunOk.drifts (hdrift : r.world.Drifts w') : job.RunOk fresh w₀ { r with world := w' } := by
  obtain ⟨w, stage⟩ := r
  refine ⟨h.sound.drifts hdrift, ?_⟩
  have hstage := h.stage
  cases stage with
  | listing => exact Keeps.rely hstage hdrift
  | preflight =>
    obtain ⟨delivered, group, hgroup, hgroups, hcovers, hkeeps⟩ := hstage
    exact ⟨delivered, group, hgroup, hgroups, hcovers, hkeeps.rely hdrift⟩
  | trips loops =>
    obtain ⟨pool, htrips⟩ := hstage
    exact ⟨pool, { htrips with
      shares := htrips.shares.drifts hdrift
      loops := fun i task hget => (htrips.loops i task hget).rely (beside_of_drifts _ hdrift) }⟩
  | returned result =>
    cases result with
    | ok =>
      obtain ⟨⟨alreadyDelivered, hready⟩, hnodup, hcovers⟩ := hstage
      exact ⟨⟨alreadyDelivered, hready.drifts hdrift⟩, hnodup, hcovers⟩
    | error => trivial

lemma runOk_step (op : PayloadOp) : job.RunOk fresh w₀ (job.step r op) := by
  obtain ⟨w, stage⟩ := r
  cases op with
  | go index failure =>
    cases stage with
    | listing => exact runOk_listingStep hdistinct hplain failure h
    | preflight => exact runOk_preflightStep hdistinct hplain failure h
    | trips =>
      exact runOk_tripStep hdistinct hplain index failure h
    | returned => exact h
  | join =>
    cases stage with
    | trips => exact runOk_joinStep hdistinct hplain h
    | _ => exact h
  | arrive code => exact h.drifts (w.drifts_arrive code)
  | setCapacity code attachCapacity cargoCapacity =>
    exact h.drifts (w.drifts_setCapacity code attachCapacity cargoCapacity)

lemma runOk_run (ops : List PayloadOp) : job.RunOk fresh w₀ (ops.foldl job.step r) :=
  foldlRecOn ops job.step h fun _ hr op _ => runOk_step hdistinct hplain hr op

end

lemma runOk_deliverPayloadDevices (hinv : job.Sound fresh w₀ w)
    (hready : job.Ready fresh [] job.carrierKeys w)
    (hrested : fresh → ∀ x ∈ job.payloadKeys, Rested x w) :
    job.RunOk fresh w₀ (job.deliverPayloadDevices w) := by
  unfold deliverPayloadDevices
  split
  · rename_i hnone
    refine ⟨hinv, ⟨[], hready⟩, nodup_nil, fun code hcode => ?_⟩
    unfold payloadCodes at hcode
    rw [hnone] at hcode
    cases hcode
  · split
    · exact ⟨hinv, trivial⟩
    · exact ⟨hinv, keeps_listing hdistinct hplain hinv hready hrested⟩

end Steps

/-! ## Whole runs -/

variable (job) in
/-- What a delivery of devices must not get wrong. -/
structure DeliversOnce (r : PayloadRun) : Prop where
  /-- No payload is attached to two carriers. -/
  attached : ∀ code carrier carrier', code ∈ (r.world.devices carrier).attachedDevices →
    code ∈ (r.world.devices carrier').attachedDevices → carrier = carrier'
  /-- Only payloads are attached and detached. -/
  payloads : ∀ command ∈ r.world.commands, ∀ code ∈ command.devices, code ∈ job.payloadKeys
  /-- A carrier was told to detach only while it stood at the destination. -/
  detached : ∀ command ∈ r.world.commands, command.attaches = false →
    command.status.standsAt job.destination = true
  /-- The result lists the payloads, and each stands at the destination. -/
  returned : ∀ delivered, r.stage = .returned (.ok delivered) → delivered.Nodup ∧
    (∀ code, code ∈ delivered ↔ code ∈ job.payloadCodes) ∧
    ∀ code ∈ delivered, job.AtDestination (r.world.devices (canonicalDeviceCode code))

lemma RunOk.deliversOnce (h : job.RunOk fresh w₀ r) : job.DeliversOnce r where
  attached code carrier carrier' hcode hcode' := by
    have hto := (h.sound.consistent.attached carrier code).mp hcode
    rw [(h.sound.consistent.attached carrier' code).mp hcode'] at hto
    exact (some.inj hto).symm
  payloads command hcmd := (h.sound.commands command hcmd).devices
  detached command hcmd := (h.sound.commands command hcmd).detaches
  returned delivered hresult := by
    have hstage := h.stage
    rw [hresult] at hstage
    obtain ⟨⟨alreadyDelivered, hready⟩, hnodup, hcovers⟩ := hstage
    have hsettled : ∀ code ∈ delivered, _ := fun code hcode =>
      hready.settled code (mem_append_left _ hcode)
    refine ⟨hnodup, fun code => ⟨fun hcode => (hsettled code hcode).1, fun hcode => ?_⟩,
      fun code hcode => (hsettled code hcode).2.1⟩
    refine (hcovers code hcode).resolve_right ?_
    rintro ⟨entry, hentry, -⟩
    cases hentry

end PayloadJob

/-- Nothing has been recorded yet. -/
structure World.Unrecorded (w : World) : Prop where
  commands : w.commands = []
  custody : ∀ x, w.custody x = .waiting

section

variable {job : PayloadJob} {fresh : Prop} {w : World} (h : w.Unrecorded)

include h

lemma World.Unrecorded.sound (hcons : w.Consistent) (hfresh : fresh → w.travels.Nodup) :
    job.Sound fresh w w := by
  refine ⟨hcons, fun command hcmd => ?_, fun x c hx => ?_, hfresh,
    fun x _ _ => Device.Drifts.refl _, fun id hid => .inl hid⟩
  · rw [h.commands] at hcmd
    cases hcmd
  · rw [h.custody] at hx
    cases hx

lemma World.Unrecorded.ready (hrested : fresh → ∀ c ∈ job.carrierKeys, Rested c w)
    (htrail : fresh → ∀ c ∈ job.carrierKeys, job.Trail (fun _ => False) c w) :
    job.Ready fresh [] job.carrierKeys w := by
  refine ⟨nofun, fun c hc => .inl hc, fun c _ _ p _ => h.custody p, fun x c hx => ?_,
    fun code _ _ => h.custody _, fun hf c hc _ => hrested hf c hc, fun hf c hc _ => htrail hf c hc⟩
  rw [h.custody] at hx
  cases hx

end

namespace PayloadJob

/-- From any placement of the devices, distinct carriers deliver distinct payloads once, in every
interleaving of their loops and whatever fails. -/
theorem payloads_delivered_once {job : PayloadJob} (hdistinct : job.Distinct) {w : World}
    (hconsistent : w.Consistent) (hnew : w.Unrecorded) (ops : List PayloadOp) :
    job.DeliversOnce (ops.foldl job.step (job.deliverPayloadDevices w)) := by
  have hrun := runOk_deliverPayloadDevices hdistinct False.elim
    (hnew.sound hconsistent False.elim) (hnew.ready False.elim False.elim) False.elim
  exact (runOk_run hdistinct False.elim hrun ops).deliversOnce

/-- Every device stands free at `SOL-3`. -/
def restingWorld : World :=
  ⟨fun _ => ⟨some "SOL-3", none, none, [], none, some 1, none⟩, [], [], [], [], [], fun _ => .waiting⟩

lemma consistent_restingWorld : restingWorld.Consistent :=
  ⟨fun _ _ => ⟨nofun, nofun⟩, nofun⟩

/-- Two carriers take two payloads from `SOL-3` to `ALP-1`. -/
def twoCarriers : PayloadJob :=
  ⟨⟨3, false, none⟩, "ALP-1", [⟨"P1", "probe", "SOL-3"⟩, ⟨"P2", "probe", "SOL-3"⟩], ["C1", "C2"]⟩

instance (stage : PayloadStage) (result : Except TransportError (List String)) :
    Decidable (stage = .returned result) :=
  match stage with
  | .returned result' => decidable_of_iff (result' = result) (by simp)
  | .listing .. | .preflight .. | .trips .. => isFalse nofun

/-- So many sections of a loop. -/
def sections (index count : ℕ) : List PayloadOp := List.replicate count (.go index none)

/-- `C1` brings what it has, then `C2` takes what remains, and the loop of `C1` finds nothing. -/
def twoCarriersRun : List PayloadOp :=
  [sections 0 8, [.arrive "C1"], sections 0 7, sections 1 11, [.arrive "C2"], sections 1 6,
    [.go 0 none, .join]].flatten

/-- An interrupted run has left `P1` attached to `C1`, which delivers it; `C2` takes the other one. -/
theorem payloads_delivered_once_twoCarriers :
    twoCarriers.DeliversOnce (twoCarriersRun.foldl twoCarriers.step
        (twoCarriers.deliverPayloadDevices (restingWorld.attach "C1" ["P1"]))) ∧
      (twoCarriersRun.foldl twoCarriers.step (twoCarriers.deliverPayloadDevices
        (restingWorld.attach "C1" ["P1"]))).stage = .returned (.ok ["P1", "P2"]) :=
  ⟨payloads_delivered_once ⟨by decide, by decide, by decide⟩
    (consistent_restingWorld.attach (by decide) (by decide) (by decide)) ⟨rfl, fun _ => rfl⟩
    twoCarriersRun, by decide +kernel⟩

/-- The same carrier is listed twice. -/
def carrierTwice : PayloadJob :=
  ⟨⟨3, false, none⟩, "ALP-1", [⟨"P1", "probe", "SOL-3"⟩, ⟨"P2", "probe", "SOL-3"⟩], ["C", "C"]⟩

def carrierTwiceRun : List PayloadOp :=
  [sections 0 8, sections 1 2, sections 0 11, sections 1 2, [.arrive "C", .go 0 none], sections 1 3,
    [.go 0 none]].flatten

/-- The first loop loads one payload, which is all that the carrier holds. The second one sends the
carrier back for the other payload, and then the first has it detach. -/
theorem exists_detached_underway : ∃ (job : PayloadJob) (w : World) (ops : List PayloadOp),
    job.payloadKeys.Nodup ∧ (∀ key ∈ job.payloadKeys, key ∉ job.carrierKeys) ∧ w.Consistent ∧
      w.Unrecorded ∧ ¬ job.DeliversOnce (ops.foldl job.step (job.deliverPayloadDevices w)) := by
  refine ⟨carrierTwice, restingWorld, carrierTwiceRun, by decide, by decide, consistent_restingWorld,
    ⟨rfl, fun _ => rfl⟩, fun h => ?_⟩
  have hunderway : ∃ command ∈ (carrierTwiceRun.foldl carrierTwice.step
      (carrierTwice.deliverPayloadDevices restingWorld)).world.commands,
      command.attaches = false ∧ command.status.standsAt carrierTwice.destination = false := by
    decide +kernel
  obtain ⟨command, hcmd, hdetaches, hunderway⟩ := hunderway
  rw [h.detached command hcmd hdetaches] at hunderway
  cases hunderway

end PayloadJob

end Replicant.Transport
