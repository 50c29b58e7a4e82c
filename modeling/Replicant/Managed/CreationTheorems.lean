import Replicant.Lib.Binary64
import Replicant.Managed.Steps

/-!
# Creations under one identifier

A creation proceeds if it records its operation, or if the row under its identifier reads as its own
target and intent. The row keeps the text of the recorded intent, so the two who proceed may
disagree: the one who recorded it, and one whose intent the text reads back as.
-/

namespace Replicant.Managed

open Lib List Store
open Replicant.Managed.System

variable {Adapter : Type} {api : Api Adapter} {s t : System Adapter} {op : Op Adapter} {id : String}

/-! ## The identity of a row -/

namespace Store

variable {s : Store} {p : Entry → Bool} {f : Entry → Entry} {row : Entry} {key : String}

/-- The target and the intent that the row of the operation reads as. -/
def identityOf (s : Store) (id : String) : Option Identity := (s.readOperation id).map (·.identity)

lemma identityOf_update (hf : ∀ e, (f e).operationId = e.operationId)
    (hident : ∀ e, (f e).identity = e.identity) :
    identityOf { s with journal := s.journal.update p f hf } id = s.identityOf id := by
  unfold identityOf
  rw [readOperation_update, Option.map_map]
  congr 1
  funext e
  show (if p e then f e else e).identity = e.identity
  split
  · exact hident e
  · rfl

lemma identityOf_apply (w : Write) : (s.apply key w).identityOf id = s.identityOf id := by
  unfold apply
  split <;> exact identityOf_update _ fun _ => rfl

lemma identityOf_insert (habsent : s.readOperation key = none) (hkey : row.operationId = key) :
    identityOf { s with journal := s.journal.insert row } id =
      if key = id then some row.identity else s.identityOf id := by
  unfold identityOf
  rw [readOperation_insert habsent hkey]
  split <;> rfl

end Store

/-! ## Who proceeds -/

/-- What a step does to the creations that have proceeded and to what the rows read as. -/
inductive System.Proceeds (api : Api Adapter) (s t : System Adapter) : Prop where
  | none (proceeded : t.proceeded = s.proceeded)
      (rows : ∀ id, t.store.identityOf id = s.store.identityOf id)
  | records (id : String) (identity : Identity) (call : .creating id identity ∈ s.calls)
      (absent : s.store.identityOf id = .none) (proceeded : t.proceeded = s.proceeded ++ [(id, identity)])
      (rows : ∀ k, t.store.identityOf k =
        if id = k then some (identity.stored api.readBack) else s.store.identityOf k)
  | agrees (id : String) (identity : Identity) (call : .creating id identity ∈ s.calls)
      (row : s.store.identityOf id = some identity)
      (proceeded : t.proceeded = s.proceeded ++ [(id, identity)])
      (rows : ∀ k, t.store.identityOf k = s.store.identityOf k)

@[simp] lemma System.proceeded_attemptNext (i : ℕ) (rest : List String) :
    (s.attemptNext i rest).proceeded = s.proceeded := by
  cases rest <;> rfl

@[simp] lemma System.proceeded_follow (i : ℕ) (next : Option (Call Adapter)) :
    (s.follow i next).proceeded = s.proceeded := by
  cases next <;> rfl

lemma Store.identityOf_claim {s store : Store} {key attemptId : String} {won : Bool}
    (h : s.claimOperationSubmission key attemptId = (won, store)) (id : String) :
    store.identityOf id = s.identityOf id := by
  obtain rfl : (s.claimOperationSubmission key attemptId).2 = store := congrArg Prod.snd h
  exact identityOf_update _ fun _ => rfl

lemma step_proceeds (api : Api Adapter) (s : System Adapter) (op : Op Adapter) : s.Proceeds api (step api s op) := by
  have hturn := step_turn api s op
  generalize step api s op = t at hturn
  cases hturn with
  | records here absent =>
    refine .records _ _ (mem_of_getElem? here) ?_ rfl fun k => identityOf_insert absent rfl
    rw [identityOf, absent]
    rfl
  | agrees here row =>
    refine .agrees _ _ (mem_of_getElem? here) ?_ rfl fun _ => rfl
    rw [identityOf, row]
    rfl
  | claims _ _ claim => exact .none rfl (identityOf_claim claim)
  | loses _ _ claim =>
    refine .none (proceeded_attemptNext _ _) fun id => ?_
    rw [store_attemptNext]
    exact identityOf_claim claim id
  | writes =>
    refine .none (proceeded_follow _ _) fun id => ?_
    rw [store_follow]
    exact identityOf_apply _
  | promotes => exact .none rfl fun _ => identityOf_update _ fun _ => rfl
  | _ => exact .none rfl fun _ => rfl

/-- Each row was recorded by a creation, and the others that proceeded have the identity it reads
as. -/
structure Recorded (api : Api Adapter) (s : System Adapter) : Prop where
  calls : ∀ id x, .creating id x ∈ s.calls → api.Creates x
  known : ∀ p ∈ s.proceeded, api.Creates p.2 ∧ s.store.identityOf p.1 ≠ none
  rows : ∀ id y, s.store.identityOf id = some y → ∃ x, api.Creates x ∧
    y = x.stored api.readBack ∧ ∀ p ∈ s.proceeded, p.1 = id → p.2 = x ∨ p.2 = y

lemma Recorded.init : Recorded api (System.init : System Adapter) where
  calls := by simp [System.init]
  known := by simp [System.init]
  rows id y h := by cases h

lemma Recorded.step (h : Recorded api s) (op : Op Adapter) : Recorded api (step api s op) := by
  have hcalls : ∀ id x, .creating id x ∈ (Managed.step api s op).calls → api.Creates x := by
    intro id x hcall
    cases step_calls api s op hcall with
    | kept mem => exact h.calls id x mem
    | creating _ created => exact created
  have hproceeds := step_proceeds api s op
  generalize Managed.step api s op = t at hcalls hproceeds
  cases hproceeds with
  | none proceeded rows =>
    refine ⟨hcalls, ?_, ?_⟩
    · simpa only [proceeded, rows] using h.known
    · simpa only [proceeded, rows] using h.rows
  | records id identity call absent proceeded rows =>
    have hnew : ∀ p ∈ s.proceeded, id ≠ p.1 := by
      rintro p hp rfl
      exact (h.known p hp).2 absent
    have hcreates := h.calls id identity call
    refine ⟨hcalls, ?_, fun k y hy => ?_⟩
    · rw [proceeded]
      refine forall_mem_concat (fun p hp => ?_) ⟨hcreates, ?_⟩
      · rw [rows, if_neg (hnew p hp)]
        exact h.known p hp
      · rw [rows, if_pos rfl]
        exact Option.some_ne_none _
    · rw [rows] at hy
      rw [proceeded]
      split at hy
      · next hid =>
        refine ⟨identity, hcreates, (Option.some.inj hy).symm, forall_mem_concat (fun p hp heq => ?_)
          fun _ => .inl rfl⟩
        exact absurd (hid.trans heq.symm) (hnew p hp)
      · next hid =>
        obtain ⟨x, hx, hstored, hagree⟩ := h.rows k y hy
        exact ⟨x, hx, hstored, forall_mem_concat hagree fun heq => absurd heq hid⟩
  | agrees id identity call row proceeded rows =>
    refine ⟨hcalls, ?_, fun k y hy => ?_⟩
    · simp only [proceeded, rows]
      refine forall_mem_concat h.known ⟨h.calls id identity call, ?_⟩
      rw [row]
      exact Option.some_ne_none _
    · rw [rows] at hy
      rw [proceeded]
      obtain ⟨x, hx, hstored, hagree⟩ := h.rows k y hy
      refine ⟨x, hx, hstored, forall_mem_concat hagree fun heq => .inr ?_⟩
      rw [← heq, row] at hy
      exact Option.some.inj hy

lemma run_recorded (ops : List (Op Adapter)) : Recorded api (run api ops) :=
  foldlRecOn ops (step api) Recorded.init fun _ h op _ => h.step op

/-- Creations under one identifier that proceed have the same target and intent. -/
def System.Agrees (s : System Adapter) : Prop :=
  ∀ p ∈ s.proceeded, ∀ q ∈ s.proceeded, p.1 = q.1 → p.2 = q.2

/-- No stored intent reads back as the intent of another creation. -/
def Api.ReadsBack (api : Api Adapter) : Prop :=
  ∀ x y, api.Creates x → api.Creates y → y = x.stored api.readBack → y = x

lemma Recorded.agrees (h : Recorded api s) (hreads : api.ReadsBack) : s.Agrees := by
  intro p hp q hq hid
  obtain ⟨hpcreates, hprow⟩ := h.known p hp
  obtain ⟨y, hy⟩ := Option.ne_none_iff_exists'.mp hprow
  obtain ⟨x, hx, hstored, hall⟩ := h.rows p.1 y hy
  -- whoever proceeded has the identity of the one who recorded the row
  have hsame : ∀ r ∈ s.proceeded, r.1 = p.1 → r.2 = x := by
    intro r hr hkey
    rcases hall r hr hkey with heq | heq
    · exact heq
    · exact hreads x r.2 hx (h.known r hr).1 (heq.trans hstored)
  rw [hsame p hp rfl, hsame q hq hid.symm]

/-- The first creation records the operation, and the second finds its own intent in the row. -/
lemma readsBack_of_agrees (h : ∀ ops, (run api ops).Agrees) : api.ReadsBack := by
  rintro x y ⟨a, ha⟩ ⟨b, hb⟩ hy
  have hproceeded : (run api [.create "op" a, .record 0, .create "op" b, .record 1]).proceeded =
      [("op", x), ("op", y)] := by
    simp [run, step, ha, hb, begin, record, recordOperationIfAbsent, proceed, goOn, setStore,
      System.init, Store.empty, Table.empty, Table.find?, Table.insert,
      Table.hasKey, hy]
  have hagrees := h [.create "op" a, .record 0, .create "op" b, .record 1]
  unfold Agrees at hagrees
  rw [hproceeded] at hagrees
  exact hagrees ("op", y) (by simp) ("op", x) (by simp) rfl

/-- In every run, whatever the interleaving, the restarts and the crashes, an operation is
transmitted at most once and is never prepared again after that. Callers who disagree on its target
or intent never both proceed, exactly if no intent reads back as that of another creation. -/
theorem run_transmitsOnce (api : Api Adapter) :
    (∀ ops ops' : List (Op Adapter), (run api ops).TransmitsOnce ∧
      (run api ops).StaysSubmitted (run api (ops ++ ops'))) ∧
    ((∀ ops, (run api ops).Agrees) ↔ api.ReadsBack) := by
  refine ⟨fun ops ops' => ?_, readsBack_of_agrees, fun hreads ops => (run_recorded ops).agrees hreads⟩
  have hinv := run_inv api ops
  have hlater := run_inv api (ops ++ ops')
  exact ⟨hinv.transmitsOnce, hlater.staysSubmitted (run_submissions api ops ops')⟩

-- Two callers race for one operation, the process crashes after the transmission, and the
-- restarted client finds nothing left to attempt.
example :
    let api : Api Unit := ⟨fun _ => some (.object []), fun _ => some (), fun j => j,
      fun _ => "account_wipe", fun _ => some ("account", ""), fun _ => false, fun _ => .null,
      fun _ => false, fun _ => false⟩
    (run api [.create "op" (), .create "op" (), .record 0, .record 1, .read 0, .read 1,
      .claim 1 "b", .claim 0 "a", .submit 0 .ambiguous, .crash, .promote, .recover, .read 0,
      .claim 0 "c", .submit 0 .ambiguous]).submissions = ["op"] := by
  decide

/-! ## A float that reads back as another -/

/-- What `serde_json` reads of the decimal it writes for a number; the sign is kept apart. -/
def Number.readBack : Number → Number
  | .int value => .int value
  | .float value =>
    let read := Binary64.ofDecimal (Binary64.shortest |value|)
    .float (if value < 0 then -read else read)

mutual
def Json.readBack : Json → Json
  | .number value => .number value.readBack
  | .array items => .array (readBackItems items)
  | .object fields => .object (readBackFields fields)
  | value => value
def Json.readBackItems : List Json → List Json
  | [] => []
  | item :: items => readBack item :: readBackItems items
def Json.readBackFields : List (String × Json) → List (String × Json)
  | [] => []
  | (key, value) :: fields => (key, readBack value) :: readBackFields fields
end

/-- The command that prospects in a direction. -/
def prospectApi : Api (List ℚ) where
  durableIntent direction := some (.object [
    ("command", .object [("command", .string "prospect"),
      ("direction", .array (direction.map fun x => .number (.float x)))]),
    ("device_code", .string "D1"), ("kind", .string "device_command")])
  fromValue intent :=
    (((intent.get "command").bind (Json.get "direction")).bind Json.asArray).map (filterMap fun
      | .number (.float x) => some x
      | _ => none)
  readBack := Json.readBack
  operationId _ := "device_command"
  target _ := some ("device", "D1")
  expectsEvidence _ := true
  operationEvidence _ := .object [("event_names", .array [.string "prospect.completed"]),
    ("expected_state", .null), ("failure_event_names", .array []), ("payload", .object [])]
  responseCompletes _ := false
  isDeviceRetrieve _ := false

/-- The number nearest to 51.248178375505404. -/
def heading : ℚ := 225391872104827 / 4398046511104

/-- What that decimal is read as, the number nearest to 51.24817837550541. -/
def headingRead : ℚ := 7212539907354465 / 140737488355328

/-- A second caller asks for another direction, and the first one asks again. -/
def prospects : List (Op (List ℚ)) :=
  [.create "op" [heading, 0, 1], .create "op" [headingRead, 0, 1], .create "op" [heading, 0, 1],
    .record 0, .record 1, .record 2]

/-- Two commands for different directions both proceed under one identifier, and the repetition of
the first is refused. -/
theorem disagreeing_creations :
    (run prospectApi prospects).proceeded.map (·.2) =
      [[heading, 0, 1], [headingRead, 0, 1]].filterMap prospectApi.identity ∧
    ¬ (run prospectApi prospects).Agrees := by
  unfold Agrees
  decide +kernel

end Replicant.Managed
