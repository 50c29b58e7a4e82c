import Replicant.Server.Actions

/-!
# The right to record an outcome

It is held once: by the launch until the entry is in the map, by the entry, by the task that has
taken it, or by the request that has taken it. A step hands it on or records the outcome with it.
-/

namespace Replicant.Server

open Execution

/-- The entry is not in the map yet. -/
def Execution.launching (e : Execution) : Bool := e.launch = .begun ∨ e.launch = .spawned

/-- The task has taken the entry. -/
def Execution.writing (e : Execution) : Bool := e.task matches .writing _

/-- The parts of the execution that hold the right to record its outcome. -/
def Execution.owners (e : Execution) : ℕ :=
  e.launching.toNat + e.registered.toNat + e.writing.toNat

def CancelRequest.holds (id : ℕ) (request : CancelRequest) : Bool :=
  request.id = id ∧ (request.stage = .aborting ∨ request.stage = .writing)

/-- What can become of an execution and of the number of requests that hold its right. -/
inductive Moves : Execution → ℕ → Execution → ℕ → Prop
  | refl (e : Execution) (n : ℕ) : Moves e n e n
  | launch (e : Execution) (n : ℕ) : Moves e n e.launchStep n
  | task (e : Execution) (n : ℕ) : Moves e n e.taskStep n
  | returns (outcome : ActionOutcome) (e : Execution) (n : ℕ) : Moves e n (e.returns outcome) n
  | stops (e : Execution) (n : ℕ) : Moves e n e.stops n
  | take (e : Execution) (n : ℕ) (h : e.registered = true) :
      Moves e n { e with registered := false } (n + 1)
  | abort (e : Execution) (n : ℕ) : Moves e (n + 1) { e with aborted := true } (n + 1)
  | cancel (e : Execution) (n : ℕ) : Moves e (n + 1) { e with status := .cancelled } n

/-- What a panic, a failed write or an exit makes of them. -/
inductive Loses : Execution → ℕ → Execution → ℕ → Prop
  | panics (e : Execution) (n : ℕ) : Loses e n e.panics n
  | writeFails (e : Execution) (n : ℕ) : Loses e n e.writeFails n
  | cancelFails (e : Execution) (n : ℕ) : Loses e (n + 1) e n
  | exits (e : Execution) (n : ℕ) : Loses e n e.exits 0

/-- The right is held at most once, and only while there is no outcome. -/
structure Execution.Owned (e : Execution) (n : ℕ) : Prop where
  once : e.owners + n ≤ 1
  running : 0 < e.owners + n → e.status = .running
  aborted : e.aborted = true → e.owners = 0
  started : e.launching = true → e.task = .waiting

/-- The right is not lost. -/
structure Execution.Live (e : Execution) (n : ℕ) : Prop where
  held : e.status = .running → e.owners + n = 1
  ended : e.task = .ended → e.owners = 0

section Moves

variable {e e' : Execution} {n n' : ℕ}

/-- A new execution is owned by its launch. -/
lemma Execution.owned_begin : Execution.begin.Owned 0 :=
  ⟨by decide, by decide, by decide, by decide⟩

lemma Execution.live_begin : Execution.begin.Live 0 := ⟨by decide, by decide⟩

/-- The right stays, or the outcome is recorded with it. -/
structure Passes (e : Execution) (n : ℕ) (e' : Execution) (n' : ℕ) : Prop where
  kept : e'.owners + n' = e.owners + n ∧ e'.status = e.status ∨
    e'.owners + n' + 1 = e.owners + n ∧ e'.status ≠ .running := by exact .inl ⟨rfl, rfl⟩
  owners : e'.owners ≤ e.owners := by exact Nat.le_refl _
  aborted : e'.aborted = true → e.aborted = true ∨ 0 < n' := by exact .inl
  started : e'.launching = true → e'.task = .waiting := by exact nofun
  ended : e'.task = .ended → e.task = .ended ∨ e'.owners = 0 := by exact .inl

section

variable (h : e.Owned n)

include h

lemma Execution.Owned.passes_refl : Passes e n e n :=
  { started := h.started }

/-- The launch hands the right to the entry. -/
lemma Execution.Owned.passes_launchStep : Passes e n e.launchStep n := by
  obtain ⟨status, launch, task, registered, aborted⟩ := e
  cases launch with
  | begun => exact { started := fun _ => h.started rfl }
  | spawned =>
    have hreg : registered = false := by
      have honce := h.once
      cases registered with
      | false => rfl
      | true => simp [owners, launching] at honce; omega
    subst hreg
    exact {}
  | inserted => exact {}
  | done => exact h.passes_refl

/-- A task that returns takes the entry with its right, if that is still there, and writes. -/
lemma Execution.Owned.passes_taskStep : Passes e n e.taskStep n := by
  have hstarted := h.started
  have honce := h.once
  obtain ⟨status, launch, task, registered, aborted⟩ := e
  cases task with
  | waiting =>
    cases launch with
    | done => exact { ended := nofun }
    | _ => exact h.passes_refl
  | running | ended => exact h.passes_refl
  | finishing =>
    cases launch with
    | begun | spawned => cases hstarted rfl
    | inserted | done =>
      cases registered with
      | false => exact { ended := fun _ => .inr rfl }
      | true => exact { ended := nofun }
  | writing outcome =>
    cases launch with
    | begun | spawned => cases hstarted rfl
    | inserted | done =>
      have hreg : registered = false := by
        cases registered with
        | false => rfl
        | true => simp [owners, launching, writing] at honce; omega
      subst hreg
      refine ⟨.inr ⟨?_, by cases outcome <;> nofun⟩, Nat.zero_le _, .inl, nofun, fun _ => .inr rfl⟩
      show 0 + n + 1 = 1 + n
      omega

/-- The task has the right only after it has returned. -/
lemma Execution.Owned.passes_returns (outcome : ActionOutcome) :
    Passes e n (e.returns outcome) n := by
  unfold returns
  split
  · next hrunn =>
    obtain ⟨status, launch, task, registered, aborted⟩ := e
    subst hrunn
    refine { started := fun hlaunch => ?_, ended := nofun }
    cases h.started hlaunch
  · exact h.passes_refl

/-- An aborted task stops only after a request has taken the right. -/
lemma Execution.Owned.passes_stops : Passes e n e.stops n := by
  unfold stops
  split
  · next hstops =>
    have hzero := h.aborted hstops.1
    have hwriting : e.writing = false := by
      unfold writing
      rcases hstops.2 with htask | htask <;> rw [htask]
    have hsame : owners { e with task := .ended } = e.owners := by
      unfold owners
      rw [hwriting]
      rfl
    have hnone : e.launching = false := by
      unfold owners at hzero
      cases hlaunch : e.launching with
      | false => rfl
      | true => simp [hlaunch] at hzero
    exact {
      kept := .inl ⟨by rw [hsame], rfl⟩
      owners := Nat.le_of_eq hsame
      started := fun hlaunch => absurd (hnone.symm.trans hlaunch) nofun
      ended := fun _ => .inr (hsame.trans hzero) }
  · exact h.passes_refl

/-- Whatever moves, the right is neither lost nor doubled. -/
lemma Execution.Owned.passes (hmoves : Moves e n e' n') : Passes e n e' n' := by
  cases hmoves with
  | refl => exact h.passes_refl
  | launch => exact h.passes_launchStep
  | task => exact h.passes_taskStep
  | returns outcome => exact h.passes_returns outcome
  | stops => exact h.passes_stops
  | take _ _ hreg =>
    have hone : owners { e with registered := false } + 1 = e.owners := by
      unfold owners launching writing
      rw [hreg]
      dsimp only [Bool.toNat_false, Bool.toNat_true]
      omega
    have honce := h.once
    exact ⟨.inl ⟨by omega, rfl⟩, by omega, .inl, h.started, fun _ => .inr (by omega)⟩
  | abort =>
    exact { aborted := fun _ => .inr (Nat.succ_pos _), started := h.started }
  | cancel => exact { kept := .inr ⟨rfl, nofun⟩, started := h.started }

/-- The right stays held at most once. -/
lemma Execution.Owned.moves (hmoves : Moves e n e' n') : e'.Owned n' := by
  obtain ⟨hkept, howners, habort, hstarted, -⟩ := h.passes hmoves
  have honce := h.once
  refine ⟨by omega, ?_, ?_, hstarted⟩
  · intro hpos
    rcases hkept with ⟨hsame, hstat⟩ | ⟨hless, -⟩
    · rw [hstat]
      exact h.running (by omega)
    · omega
  · intro hab
    rcases habort hab with hold | hholder
    · have hzero := h.aborted hold
      omega
    · omega

end

/-- And it stays held while there is no outcome. -/
lemma Execution.Live.moves (h : e.Live n) (howned : e.Owned n) (hmoves : Moves e n e' n') :
    e'.Live n' := by
  obtain ⟨hkept, howners, -, -, hended⟩ := howned.passes hmoves
  constructor
  · intro hrunn
    rcases hkept with ⟨hsame, hstat⟩ | ⟨-, hdone⟩
    · rw [hsame]
      exact h.held (hstat ▸ hrunn)
    · exact absurd hrunn hdone
  · intro htask
    rcases hended htask with hold | hzero
    · have hzero := h.ended hold
      omega
    · exact hzero

/-- A loss takes rights away and writes nothing. -/
lemma Execution.Owned.of_le (h : e.Owned n) (hstat : e'.status = e.status)
    (howners : e'.owners ≤ e.owners) (hn : n' ≤ n) (habort : e'.aborted = e.aborted)
    (hstarted : e'.launching = true → e'.task = .waiting) : e'.Owned n' := by
  have honce := h.once
  refine ⟨by omega, ?_, ?_, hstarted⟩
  · intro hpos
    rw [hstat]
    exact h.running (by omega)
  · intro hab
    have hzero := h.aborted (habort ▸ hab)
    omega

/-- A loss records no outcome. -/
lemma Loses.status (hloses : Loses e n e' n') : e'.status = e.status := by
  cases hloses with
  | panics => unfold Execution.panics; split <;> rfl
  | writeFails => unfold Execution.writeFails; split <;> rfl
  | cancelFails | exits => rfl

/-- Even after a loss nobody else can take the right. -/
lemma Loses.owned (hloses : Loses e n e' n') (h : e.Owned n) : e'.Owned n' := by
  have hstarted := h.started
  cases hloses with
  | panics =>
    unfold Execution.panics
    split
    · next htask =>
      obtain ⟨status, launch, task, registered, aborted⟩ := e
      subst htask
      refine h.of_le rfl (Nat.le_refl _) (Nat.le_refl _) rfl fun hlaunch => ?_
      cases hstarted hlaunch
    · exact h
  | writeFails =>
    unfold Execution.writeFails
    split
    · next outcome htask =>
      obtain ⟨status, launch, task, registered, aborted⟩ := e
      subst htask
      refine h.of_le rfl (Nat.le_succ _) (Nat.le_refl _) rfl fun hlaunch => ?_
      cases hstarted hlaunch
    · exact h
  | cancelFails => exact h.of_le rfl (Nat.le_refl _) (Nat.le_succ _) rfl h.started
  | exits => exact h.of_le rfl (Nat.zero_le _) (Nat.zero_le _) rfl nofun

/-- After an exit before the launch nothing moves any more. -/
lemma Moves.of_exits (h : Moves Execution.begin.exits n e' n')
    (hn : n = 0) : e' = Execution.begin.exits ∧ n' = 0 := by
  cases h with
  | take _ _ hreg => cases hreg
  | abort | cancel => cases hn
  | _ => exact ⟨rfl, hn⟩

lemma Loses.of_exits (h : Loses Execution.begin.exits n e' n')
    (hn : n = 0) : e' = Execution.begin.exits ∧ n' = 0 := by
  cases h with
  | panics | writeFails => exact ⟨rfl, hn⟩
  | cancelFails => cases hn
  | exits => exact ⟨rfl, rfl⟩

end Moves

end Replicant.Server
