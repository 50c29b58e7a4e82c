import Replicant.Workflow.Identity
import Replicant.Workflow.Repository

/-!
# What a transaction may do

`Change` lists the ways in which a committed transaction may move the state; a call of the repository
is a sequence of them. What a change must respect beyond the invariants is a matter of `Terms`:
whether allocated claims are in custody, and which candidates callers offer.
-/

namespace Replicant.Workflow

open Lib

/-! ## Terms -/

/-- The terms under which a call is made. `custodial` calls keep the claim of every active
allocation, except for those of the `exempt` items; `offered` are the candidates. -/
structure Terms where
  custodial : Prop
  exempt : WorkItemId → Prop
  offered : AllocationCandidate → Prop

/-- The terms that ask for nothing. -/
def Terms.free : Terms := ⟨False, fun _ => False, fun _ => True⟩

/-- Two allocations lean on one claim: they name the same exclusive resource, and their
items belong to one workflow. -/
def SharesClaim (s : Repo) (a b : AllocationRow) : Prop :=
  a.resource = b.resource ∧ a.resource.ns.isExclusive = true ∧
    ∃ i ∈ s.items, ∃ j ∈ s.items, i.id = a.itemId ∧ j.id = b.itemId ∧
      i.spec.workflowId = j.spec.workflowId

/-- An active allocation of an exclusive resource leans on the claim. -/
def Repo.isNeeded (s : Repo) (c : ClaimRow) : Bool :=
  s.allocations.rows.any fun a => a.state = .active && a.resource.ns.isExclusive &&
    a.resource = c.resource && s.ownsItem c.workflowId a.itemId

/-- No active allocation outside of `released`, exempt items apart, leans on the claim of
one inside. -/
def Unshared (t : Terms) (s : Repo) (released : AllocationRow → Prop) : Prop :=
  t.custodial → ∀ a ∈ s.allocations, a.state = .active → released a →
    ∀ b ∈ s.allocations, b.state = .active → ¬ released b → SharesClaim s a b → t.exempt b.itemId

/-- A condition on more allocations can only be harder to meet. -/
lemma Unshared.mono {t : Terms} {s s' : Repo} {released : AllocationRow → Prop}
    (h : Unshared t s released)
    (hallocs : ∀ a ∈ s'.allocations, a.state = .active → a ∈ s.allocations)
    (hitems : ∀ i' ∈ s'.items, ∃ i ∈ s.items, i'.id = i.id ∧ i'.spec = i.spec) :
    Unshared t s' released := by
  intro ht a ha hact hrel b hb hbactive hbrel hshare
  refine h ht a (hallocs a ha hact) hact hrel b (hallocs b hb hbactive) hbactive hbrel ?_
  obtain ⟨hres, hex, i', hi', j', hj', hia, hjb, hw⟩ := hshare
  obtain ⟨i, hi, hid, hspec⟩ := hitems i' hi'
  obtain ⟨j, hj, hjd, hjspec⟩ := hitems j' hj'
  exact ⟨hres, hex, i, hi, j, hj, by rw [← hid, hia], by rw [← hjd, hjb],
    by rw [← hspec, ← hjspec, hw]⟩

/-! ## Composite statements -/

/-- `f` writes the given status and leaves the attempt columns alone. -/
structure Writes (f : WorkItemState → WorkItemState) (status : WorkItemStatus) : Prop where
  status : ∀ st, (f st).status = status
  attemptCount : ∀ st, (f st).attemptCount = st.attemptCount
  everStarted : ∀ st, (f st).everStarted = st.everStarted

namespace Repo

variable (s : Repo)

/-- Draw an identifier. -/
def drawn : Repo := { s with uuidsDrawn := s.uuidsDrawn + 1 }

/-- Refresh the claims that `p` selects. -/
def touchClaims (p : ClaimRow → Bool) (now : ℤ) : Repo :=
  { s with claims := s.claims.update p (fun c => { c with updatedAt := now }) (resource_touch now) }

/-- End the open attempts of an item as a plan says. -/
def closeAttempts (itemId : WorkItemId) (now : ℤ) :
    Option (WorkItemAttemptOutcome × Option String) → Repo
  | none => s
  | some (outcome, error) =>
    s.endAttempts (·.itemId = itemId) outcome (fun _ => error) now

/-- Drop the claims of an item's active allocations and release these. -/
def releaseAllocationsOf (workflowId : WorkflowId) (itemId : WorkItemId) (now : ℤ) : Repo :=
  (s.dropItemClaims workflowId itemId).setAllocations
    (fun a => a.itemId = itemId && a.state = .active) .released now

/-- An item leaves its worker: its attempt ends, its assignment is released and, if `drop`
is set, so are its allocations. -/
def settleItem (i : WorkItem) (close : Option (WorkItemAttemptOutcome × Option String))
    (drop : Bool) (p : WorkItem → Bool) (f : WorkItemState → WorkItemState) (now : ℤ) : Repo :=
  let closed := s.closeAttempts i.id now close
  let freed := if drop then closed.releaseAllocationsOf i.spec.workflowId i.id now else closed
  (freed.releaseAssignments (· = i.id) now).updateItems p f

/-- Release one allocation, and its claim when no other allocation needs it. -/
def unbook (a : AllocationRow) (workflowId : WorkflowId) (now : ℤ) : Repo :=
  let released := s.setAllocations (fun x => x.id = a.id && x.state = .active) .released now
  if a.resource.ns.isExclusive then released.dropUnusedClaim workflowId a.resource
  else released

/-- Insert an allocation under a drawn identifier, with its claim. -/
def book (a : AllocationRow) (workflowId : WorkflowId) (now : ℤ) : Repo :=
  (s.drawn.insertAllocation a).claimFor a.resource workflowId now

end Repo

/-! ## Fields after composite statements -/

namespace Repo

section SettleItem

variable (s : Repo) (i : WorkItem) (close : Option (WorkItemAttemptOutcome × Option String))
  (drop : Bool) (p : WorkItem → Bool) (f : WorkItemState → WorkItemState) (now : ℤ)

@[simp] lemma settleItem_fields : (s.settleItem i close drop p f now).workflows = s.workflows ∧
      (s.settleItem i close drop p f now).items =
        s.items.update p (fun x => { x with state := f x.state }) (fun _ => rfl) ∧
      (s.settleItem i close drop p f now).attempts = (s.closeAttempts i.id now close).attempts ∧
      (s.settleItem i close drop p f now).pools = s.pools ∧
      (s.settleItem i close drop p f now).assignments =
        (s.releaseAssignments (· = i.id) now).assignments ∧
      (s.settleItem i close drop p f now).targets = s.targets ∧
      (s.settleItem i close drop p f now).uuidsDrawn = s.uuidsDrawn := by
  cases close <;> cases drop <;> exact ⟨rfl, rfl, rfl, rfl, rfl, rfl, rfl⟩

lemma settleItem_claims : (s.settleItem i close drop p f now).claims =
      if drop then (s.dropItemClaims i.spec.workflowId i.id).claims else s.claims := by
  cases close <;> cases drop <;> rfl

lemma settleItem_allocations : (s.settleItem i close drop p f now).allocations =
      if drop then (s.releaseAllocationsOf i.spec.workflowId i.id now).allocations
      else s.allocations := by
  cases close <;> cases drop <;> rfl

lemma settleItem_intelligenceRevision : (s.settleItem i close drop p f now).intelligenceRevision =
      if drop then (s.releaseAllocationsOf i.spec.workflowId i.id now).intelligenceRevision
      else s.intelligenceRevision := by
  cases close <;> cases drop <;> rfl

end SettleItem

/-- An observation touches the pools and the revision only. -/
lemma upsertPool_frame (s : Repo) (seen : PoolRow) (merge : PoolRow → PoolRow)
    (hmerge : ∀ p, (merge p).poolKey = p.poolKey) :
    s.upsertPool seen merge hmerge = { s with
        pools := (s.upsertPool seen merge hmerge).pools
        intelligenceRevision := (s.upsertPool seen merge hmerge).intelligenceRevision } := by
  unfold upsertPool
  split
  · rfl
  · split <;> rfl

/-- A recorded target touches the targets and the revision only. -/
lemma upsertTarget_frame (s : Repo) (w : WorkflowId) (target : WorkflowTarget) (now : ℤ) :
    s.upsertTarget w target now = { s with
        targets := (s.upsertTarget w target now).targets
        intelligenceRevision := (s.upsertTarget w target now).intelligenceRevision } := by
  unfold upsertTarget
  simp only
  split
  · rfl
  · split <;> rfl

/-- The claim of a booking touches the claims only. -/
lemma claimFor_frame (s : Repo) (resource : ResourceIdentity) (w : WorkflowId) (now : ℤ) :
    s.claimFor resource w now = { s with claims := (s.claimFor resource w now).claims } := by
  unfold claimFor upsertClaim
  split
  · split <;> rfl
  · rfl

/-- A release touches the claims, the allocation and the revision. -/
lemma unbook_frame (s : Repo) (a : AllocationRow) (w : WorkflowId) (now : ℤ) : s.unbook a w now =
      { s.setAllocations (fun x => x.id = a.id && x.state = .active) .released now with
        claims := (s.unbook a w now).claims } := by
  unfold unbook
  split <;> rfl

/-- Marking an allocation dead touches the claims, the allocation and the revision. -/
lemma killAllocation_frame (s : Repo) (a : AllocationRow) (w : WorkflowId) (now : ℤ) :
    s.killAllocation a w now = { s.setAllocations (fun x => x.id = a.id) .dead now with
        claims := (s.killAllocation a w now).claims } := by
  unfold killAllocation
  split <;> rfl

section Booking

variable (s : Repo) (a : AllocationRow) (w : WorkflowId) (now : ℤ)

@[simp] lemma upsertPool_fields (seen : PoolRow) (merge : PoolRow → PoolRow)
    (hmerge : ∀ p, (merge p).poolKey = p.poolKey) :
    (s.upsertPool seen merge hmerge).workflows = s.workflows ∧
      (s.upsertPool seen merge hmerge).claims = s.claims ∧
      (s.upsertPool seen merge hmerge).items = s.items ∧
      (s.upsertPool seen merge hmerge).attempts = s.attempts ∧
      (s.upsertPool seen merge hmerge).allocations = s.allocations ∧
      (s.upsertPool seen merge hmerge).assignments = s.assignments ∧
      (s.upsertPool seen merge hmerge).targets = s.targets ∧
      (s.upsertPool seen merge hmerge).uuidsDrawn = s.uuidsDrawn := by
  rw [upsertPool_frame]
  exact ⟨rfl, rfl, rfl, rfl, rfl, rfl, rfl, rfl⟩

@[simp] lemma upsertTarget_fields (target : WorkflowTarget) :
    (s.upsertTarget w target now).workflows = s.workflows ∧
      (s.upsertTarget w target now).claims = s.claims ∧
      (s.upsertTarget w target now).items = s.items ∧
      (s.upsertTarget w target now).attempts = s.attempts ∧
      (s.upsertTarget w target now).pools = s.pools ∧
      (s.upsertTarget w target now).allocations = s.allocations ∧
      (s.upsertTarget w target now).assignments = s.assignments ∧
      (s.upsertTarget w target now).uuidsDrawn = s.uuidsDrawn := by
  rw [upsertTarget_frame]
  exact ⟨rfl, rfl, rfl, rfl, rfl, rfl, rfl, rfl⟩

@[simp] lemma book_fields :
    (s.book a w now).workflows = s.workflows ∧ (s.book a w now).items = s.items ∧
      (s.book a w now).attempts = s.attempts ∧ (s.book a w now).pools = s.pools ∧
      (s.book a w now).assignments = s.assignments ∧ (s.book a w now).targets = s.targets ∧
      (s.book a w now).uuidsDrawn = s.uuidsDrawn + 1 := by
  rw [book, claimFor_frame]
  exact ⟨rfl, rfl, rfl, rfl, rfl, rfl, rfl⟩

@[simp] lemma unbook_fields :
    (s.unbook a w now).workflows = s.workflows ∧ (s.unbook a w now).items = s.items ∧
      (s.unbook a w now).attempts = s.attempts ∧ (s.unbook a w now).pools = s.pools ∧
      (s.unbook a w now).assignments = s.assignments ∧ (s.unbook a w now).targets = s.targets ∧
      (s.unbook a w now).uuidsDrawn = s.uuidsDrawn := by
  rw [unbook_frame]
  exact ⟨rfl, rfl, rfl, rfl, rfl, rfl, rfl⟩

@[simp] lemma killAllocation_fields : (s.killAllocation a w now).workflows = s.workflows ∧
      (s.killAllocation a w now).items = s.items ∧
      (s.killAllocation a w now).attempts = s.attempts ∧
      (s.killAllocation a w now).pools = s.pools ∧
      (s.killAllocation a w now).assignments = s.assignments ∧
      (s.killAllocation a w now).targets = s.targets ∧
      (s.killAllocation a w now).uuidsDrawn = s.uuidsDrawn := by
  rw [killAllocation_frame]
  exact ⟨rfl, rfl, rfl, rfl, rfl, rfl, rfl⟩

end Booking

end Repo

/-! ## The relation -/

/-- The capacity an allocation was booked against: that of the stored pool, or the one
that an offered candidate carries. -/
def HasCapacity (t : Terms) (s : Repo) (a : AllocationRow) : Prop :=
  ∃ available, s.activeQuantity a.poolKey + a.quantity ≤ available ∧
    ((∃ p ∈ s.pools, p.poolKey = a.poolKey ∧ p.availableQuantity = available) ∨
      ∃ c, t.offered c ∧ c.resource.persistedParts = .ok a.resource ∧
        available ≤ c.availableQuantity)

/-- One thing a transaction may do to the store. -/
inductive Change (u : IdSource) (t : Terms) : Repo → Repo → Prop where
  | draw (s : Repo) : Change u t s s.drawn
  | insertWorkflow (s : Repo) (row : WorkflowRow) (hid : row.id = u.draw s.uuidsDrawn)
      (hfresh : s.workflows.hasKey row.id = false) (hstat : row.status.isTerminal = false) :
      Change u t s (s.drawn.insertWorkflow row)
  | updateWorkflow (s : Repo) (w : WorkflowRow) (p : WorkflowRow → Bool)
      (f : WorkflowRow → WorkflowRow) (hf : ∀ w, (f w).id = w.id)
      (hp : s.workflows.Selects p w)
      (hstat : (f w).status = w.status ∨
        (w.status.isTerminal = false ∧ (f w).status.isTerminal = false)) :
      Change u t s (s.updateWorkflows p f hf)
  | endWorkflow (s : Repo) (w : WorkflowRow) (p : WorkflowRow → Bool)
      (f : WorkflowRow → WorkflowRow) (hf : ∀ w, (f w).id = w.id) (now : ℤ)
      (hp : s.workflows.Selects p w) (hstat : (f w).status.isTerminal = true)
      (hkeep : w.status.isTerminal = true → (f w).status = w.status) :
      Change u t s ((s.updateWorkflows p f hf).releaseWorkflow w.id now)
  | pruneWorkflow (s : Repo) (w : WorkflowRow) (hw : w ∈ s.workflows)
      (hstat : w.status.isTerminal = true) (hclaims : ∀ c ∈ s.claims, c.workflowId ≠ w.id) :
      Change u t s (s.deleteWorkflow w.id)
  | insertClaim (s : Repo) (row : ClaimRow) (hfresh : s.claims.hasKey row.resource = false)
      (howner : ∃ w ∈ s.workflows, w.id = row.workflowId ∧ w.status.isTerminal = false)
      (hconf : s.physicalClaimConflict row.resource row.workflowId = none) :
      Change u t s (s.insertClaim row)
  | touchClaims (s : Repo) (p : ClaimRow → Bool) (now : ℤ) : Change u t s (s.touchClaims p now)
  | handOff (s : Repo) (source dest : WorkflowId) (wanted : ResourceIdentity) (now : ℤ)
      (hdest : ∃ w ∈ s.workflows, w.id = dest ∧ w.status.isTerminal = false)
      (howners : ∀ c ∈ s.claims, PhysicallyEqual wanted c.resource →
        c.workflowId = source ∨ c.workflowId = dest)
      (hfree : ∀ a ∈ s.allocations, a.state = .active → ¬ PhysicallyEqual wanted a.resource) :
      Change u t s (s.moveClaims source dest wanted now)
  | deleteClaims (s : Repo) (p : ClaimRow → Bool)
      (hterms : t.custodial → ∀ c ∈ s.claims, p c = true → s.isNeeded c = false) :
      Change u t s (s.deleteClaims p)
  | insertItem (s : Repo) (row : WorkItem) (now : ℤ) (hid : row.id = u.draw s.uuidsDrawn)
      (hfresh : s.items.hasKey row.id = false)
      (hkey : ∀ i ∈ s.items, i.spec.workflowId = row.spec.workflowId →
        i.spec.dedupeKey ≠ row.spec.dedupeKey)
      (howner : ∃ w ∈ s.workflows, w.id = row.spec.workflowId ∧ w.status.isTerminal = false)
      (hstate : row.state = .new now) :
      Change u t s (s.drawn.insertItem row)
  | claimItem (s : Repo) (i : WorkItem) (p : WorkItem → Bool)
      (f : WorkItemState → WorkItemState) (hp : s.items.Selects p i)
      (hstat : i.state.status = .pending ∨ i.state.status = .waiting)
      (hgate : s.dependenciesMet i = true) (hf : Writes f .assigned) :
      Change u t s (s.updateItems p f)
  | noteItem (s : Repo) (i : WorkItem) (p : WorkItem → Bool)
      (f : WorkItemState → WorkItemState) (hp : s.items.Selects p i)
      (hf : Writes f i.state.status) :
      Change u t s (s.updateItems p f)
  | startItem (s : Repo) (i : WorkItem) (row : AttemptRow) (p : WorkItem → Bool)
      (f : WorkItemState → WorkItemState) (hp : s.items.Selects p i)
      (hstat : i.state.status = .assigned)
      (hrow : row.itemId = i.id ∧ row.attemptOrdinal = i.state.attemptCount + 1 ∧
        row.endedAtMs = none)
      (hfresh : s.attempts.hasKey row.identity = false)
      (hf : (f i.state).status = .running ∧
        (f i.state).attemptCount = i.state.attemptCount + 1 ∧ (f i.state).everStarted = true) :
      Change u t s ((s.insertAttempt row).updateItems p f)
  | settleItem (s : Repo) (i : WorkItem)
      (close : Option (WorkItemAttemptOutcome × Option String)) (drop : Bool)
      (p : WorkItem → Bool) (f : WorkItemState → WorkItemState) (status : WorkItemStatus)
      (now : ℤ) (hp : s.items.Selects p i) (hlive : i.state.status.isTerminal = false)
      (hf : Writes f status) (hstat : status.isClaimed = false)
      (hclose : i.state.status = .running → close.isSome = true)
      (hdrop : status.isTerminal = true → drop = true)
      (hshared : drop = true → Unshared t s fun a => a.itemId = i.id) :
      Change u t s (s.settleItem i close drop p f now)
  | observePool (s : Repo) (c : AllocationCandidate) (identity : ResourceIdentity)
      (quantity : ℕ) (merge : PoolRow → PoolRow)
      (hmerge : merge = (c.poolRow identity quantity).observe ∨
        merge = (c.poolRow identity quantity).observeQuantity)
      (hkey : ∀ p, (merge p).poolKey = p.poolKey) (hoffered : t.offered c)
      (hident : c.resource.persistedParts = .ok identity)
      (hqty : quantity ≤ c.availableQuantity) :
      Change u t s (s.upsertPool (c.poolRow identity quantity) merge hkey)
  | book (s : Repo) (i : WorkItem) (a : AllocationRow) (now : ℤ) (hi : i ∈ s.items)
      (hitem : a.itemId = i.id) (hid : a.id = u.draw s.uuidsDrawn)
      (hfresh : s.allocations.hasKey a.id = false) (hact : a.state = .active)
      (hlive : i.state.status.isTerminal = false)
      (howner : ∃ w ∈ s.workflows, w.id = i.spec.workflowId ∧ w.status.isTerminal = false)
      (hkey : a.poolKey = a.resource.resource.json)
      (hpool : s.pools.hasKey a.poolKey = true) (hqty : 0 < a.quantity)
      (hcap : HasCapacity t s a)
      (hconf : a.resource.ns.isExclusive = true →
        s.physicalClaimConflict a.resource i.spec.workflowId = none) :
      Change u t s (s.book a i.spec.workflowId now)
  | unbook (s : Repo) (i : WorkItem) (a : AllocationRow) (now : ℤ) (hi : i ∈ s.items)
      (ha : a ∈ s.allocations) (hitem : a.itemId = i.id) :
      Change u t s (s.unbook a i.spec.workflowId now)
  | killAllocation (s : Repo) (i : WorkItem) (a : AllocationRow) (now : ℤ) (hi : i ∈ s.items)
      (ha : a ∈ s.allocations) (hitem : a.itemId = i.id)
      (hshared : Unshared t s fun b => b.id = a.id) (hact : a.state = .active) :
      Change u t s (s.killAllocation a i.spec.workflowId now)
  | assign (s : Repo) (i : WorkItem) (row : AssignmentRow) (hi : i ∈ s.items)
      (hitem : row.itemId = i.id) (hstat : i.state.status = .assigned)
      (hfresh : s.assignments.hasKey row.id = false) :
      Change u t s (s.insertAssignment row)
  | requestReclaim (s : Repo) (p : AssignmentRow → Bool) (now : ℤ)
      (hp : ∀ a ∈ s.assignments, p a = true → a.state = .active) :
      Change u t s (s.setAssignments p .reclaimRequested (some now) now)
  | putTarget (s : Repo) (workflowId : WorkflowId) (target : WorkflowTarget) (now : ℤ)
      (howner : s.workflows.hasKey workflowId = true) :
      Change u t s (s.upsertTarget workflowId target now)
  | releaseTarget (s : Repo) (workflowId : WorkflowId) (kind key : String) (now : ℤ) :
      Change u t s (s.releaseTarget workflowId kind key now)

/-- A sequence of changes. -/
abbrev Changes (u : IdSource) (t : Terms) : Repo → Repo → Prop :=
  Relation.ReflTransGen (Change u t)

end Replicant.Workflow
