import Replicant.Lib.Transaction
import Replicant.Managed.EngineTheorems
import Replicant.Managed.Reopen

/-!
# Reopening the engine

After every call the store can be opened again and gives what is in memory, unless device lists
repeat a key, event batches have messages or stars that the catalogue merges, catalogues have no
time, or devices are written with an operation.
-/

namespace Replicant.Managed

open Lib Observation ProjectionStore

/-! ## Stars -/

variable {catalogue : Catalogue}

lemma hasKey_mergeStars {key : EntityKey} (stars : List (Observation Star))
    (h : catalogue.hasKey key = true) : (mergeStars catalogue stars).hasKey key = true := by
  induction stars generalizing catalogue with
  | nil => exact h
  | cons star stars ih => exact ih (Table.hasKey_put.mpr (.inr h))

/-- Each star is at least as new as the one it takes the place of, and reports all that one does. -/
def StarsSupersede : Catalogue → List (Observation Star) → Prop
  | _, [] => True
  | catalogue, star :: stars =>
    (∀ current ∈ catalogue.find? star.value.key,
      star.metadata.isOlder current.metadata = false ∧ star.value.Reports current.value) ∧
    StarsSupersede (catalogue.put star) stars

lemma mergeStars_eq {stars : List (Observation Star)} (h : StarsSupersede catalogue stars) :
    mergeStars catalogue stars = stars.foldl Table.put catalogue := by
  induction stars generalizing catalogue with
  | nil => rfl
  | cons star stars ih =>
    have hstar : mergeStarInto catalogue star = star := by
      unfold mergeStarInto
      split
      · next current hcur =>
        obtain ⟨hnew, hreports⟩ := h.1 current hcur
        unfold mergeStar
        rw [if_neg (by rw [hnew]; exact Bool.false_ne_true), hreports.preserve]
      · rfl
    show mergeStars (catalogue.put (mergeStarInto catalogue star)) stars = _
    rw [hstar]
    exact ih h.2

/-! ## Calls -/

/-- The match says nothing of the galaxy's revisions, the stars and the messages. -/
lemma Matches.beside {snapshot : StateSnapshot} {s : ProjectionStore} (h : Matches snapshot s)
    (revision galaxyRevision galaxyProjectionRevision : ℕ) (stars : Catalogue)
    (catalogueMetadata : Option (Option String)) (messages : Table MessageRow MessageRow.messageId) :
    Matches { snapshot with revision, galaxyRevision, galaxyProjectionRevision }
      { s with stars, catalogueMetadata, messages } :=
  ⟨h.devices, h.replicants, h.locations, h.inventories, h.simulations, h.columns⟩

/-- Memory and store take the call alike. -/
def EngineCall.Mirrored (e : Engine) : EngineCall → Prop
  | .run (.applyEventProjection _ batch) =>
    batch.messages = [] ∧ StarsSupersede e.memory.catalogue batch.stars
  | .run op => op.DistinctKeys
  | .replaceCatalogue _ generatedAt => generatedAt ≠ none
  | .recordOperationAndProject devices => devices = []
  | _ => True

/-- What every call keeps. -/
structure Engine.InStep (e : Engine) : Prop where
  snapshot : Matches e.memory.snapshot e.store
  catalogue : e.memory.catalogue.Same e.store.stars
  /-- The time of the catalogue can be read. -/
  readable : e.store.catalogueMetadata ≠ some none
  messages : e.memory.messages = e.store.restoreMessages

namespace Engine

variable {e : Engine} {op : EngineOp}

lemma restore_eq {s : ProjectionStore} (h : s.catalogueMetadata ≠ some none) :
    ∃ generatedAt, s.restore = .ok ⟨s.restoreSnapshot, s.stars, generatedAt, s.restoreMessages⟩ := by
  unfold restore restoreCatalogue
  match hmetadata : s.catalogueMetadata with
  | none => exact ⟨none, rfl⟩
  | some (some generatedAt) => exact ⟨some generatedAt, rfl⟩
  | some none => exact absurd hmetadata h

lemma InStep.restores (h : e.InStep) : e.Restores := by
  obtain ⟨generatedAt, hrestore⟩ := restore_eq h.readable
  exact ⟨_, hrestore, h.snapshot.devices, h.snapshot.replicants, h.snapshot.locations,
    h.snapshot.inventories, h.snapshot.simulations, h.catalogue, h.messages⟩

lemma inStep_init : init.InStep := by
  refine ⟨?_, Table.Same.refl _, by decide, ?_⟩
  · exact matches_restore _ Table.forall_mem_empty
  · show [] = List.mergeSort [] _
    rw [List.mergeSort_nil]

lemma catalogueAfter_same (h : e.memory.catalogue.Same e.store.stars)
    (hop : (EngineCall.run op).Mirrored e) (reply : Reply) :
    (op.catalogueAfter reply e.memory.catalogue).Same (op.starsAfter reply e.store.stars) := by
  cases op with
  | applyEventProjection cursor batch =>
    have hinserted := h.foldl_put batch.stars
    rw [← mergeStars_eq hop.2] at hinserted
    cases reply with
    | inserted fresh =>
      cases fresh with
      | true => exact hinserted
      | false => exact h
    | _ => exact h
  | _ => exact h

section

variable (h : e.InStep)

include h

lemma InStep.run (hop : (EngineCall.run op).Mirrored e) : (e.run op).InStep := by
  unfold Engine.run
  cases hcmd : op.command e.memory.snapshot e.store with
  | error => exact h
  | ok committed =>
    obtain ⟨store, reply⟩ := committed
    have hrest := commandRest hcmd
    -- a batch lists devices too, but applies them one after the other
    have hkeys : op.DistinctKeys := by
      cases op with
      | applyEventProjection => exact List.nodup_nil
      | _ => exact hop
    refine ⟨matches_publication h.snapshot hkeys hcmd, ?_, ?_, ?_⟩
    · rw [hrest.stars]
      exact catalogueAfter_same h.catalogue hop reply
    · rw [hrest.catalogueMetadata]
      exact h.readable
    · have hmsgs : store.messages = e.store.messages := by
        rw [hrest.messages]
        unfold EngineOp.messagesAfter
        split
        · rw [hop.1]
          rfl
        · rfl
      unfold restoreMessages
      rw [hmsgs]
      exact h.messages

lemma InStep.replaceCatalogue (stars : List (Observation Star)) {generatedAt : Option String}
    (hat : generatedAt ≠ none) : (e.replaceCatalogue stars generatedAt).InStep := by
  refine ⟨h.snapshot.beside .., Table.Same.symm (Table.same_foldl_put_rows fun key hkey => ?_), ?_,
    h.messages⟩
  · exact hasKey_mergeStars stars (by rw [h.catalogue.hasKey]; exact hkey)
  · intro hnull
    exact hat (Option.some.inj hnull)

lemma InStep.persistStarKnowledgeBatch (knowledge : List (Observation StarKnowledge)) :
    (e.persistStarKnowledgeBatch knowledge).InStep := by
  unfold Engine.persistStarKnowledgeBatch
  simp only
  split
  · exact h
  · exact ⟨h.snapshot.beside .., h.catalogue.foldl_put _, h.readable, h.messages⟩

lemma InStep.reloadCatalogueAfterRefresh : e.reloadCatalogueAfterRefresh.InStep := by
  unfold Engine.reloadCatalogueAfterRefresh
  cases hcat : e.store.restoreCatalogue with
  | error => exact h
  | ok restored =>
    obtain ⟨catalogue, generatedAt⟩ := restored
    have hstars : catalogue = e.store.stars := by
      unfold restoreCatalogue at hcat
      split at hcat <;> cases hcat <;> rfl
    simp only
    split
    · exact h
    · refine ⟨h.snapshot.beside .., ?_, h.readable, h.messages⟩
      rw [hstars]
      exact Table.Same.refl _

lemma InStep.withMessages (messages : Table MessageRow MessageRow.messageId) :
    (e.withMessages id { e.store with messages := messages }).InStep :=
  ⟨h.snapshot.beside .., h.catalogue, h.readable, rfl⟩

lemma InStep.reopen : (e.call id .reopen).InStep := by
  obtain ⟨generatedAt, hrestore⟩ := restore_eq h.readable
  unfold Engine.call
  rw [hrestore]
  exact ⟨matches_restore _ h.snapshot.columns, Table.Same.refl _, h.readable, rfl⟩

lemma InStep.step {s : EngineCall × Bool} (hs : s.1.Mirrored e) : (e.step id s).InStep := by
  obtain ⟨call, commits⟩ := s
  cases commits with
  | false => exact h
  | true =>
    cases call with
    | run => exact h.run hs
    | replaceCatalogue stars => exact h.replaceCatalogue stars hs
    | persistStarKnowledgeBatch knowledge => exact h.persistStarKnowledgeBatch knowledge
    | reloadCatalogueAfterRefresh => exact h.reloadCatalogueAfterRefresh
    | recordOperationAndProject devices =>
      cases (hs : devices = [])
      exact h
    | reopen => exact h.reopen
    | _ => exact h.withMessages _

end

/-- A call whose commit is read back as it was written. -/
lemma step_eq {readBack : ProjectionStore → ProjectionStore} {s : EngineCall × Bool}
    (h : (e.step id s).store.ReadsBack readBack) : e.step readBack s = e.step id s := by
  obtain ⟨call, commits⟩ := s
  cases commits with
  | false => rfl
  | true =>
    have hread : readBack (e.call id call).store = (e.call id call).store := h
    have hcall : e.call readBack call = e.call id call := by
      cases call with
      | persistMessages | commitMessages =>
        simp only [Engine.call, Engine.withMessages, id_eq] at hread ⊢
        rw [hread]
      | _ => rfl
    simp only [Engine.step, if_true, hcall, hread, id_eq]

end Engine

/-! ## Runs -/

/-- In every run of mirrored calls that are read back as they were written, whichever of them commit,
the store restores the memory. -/
theorem engineRun_restores (readBack : ProjectionStore → ProjectionStore)
    (steps : List (EngineCall × Bool))
    (h : AllSteps (Engine.step readBack) (fun e s => s.1.Mirrored e) Engine.init steps)
    (hreads : AllSteps (Engine.step readBack) (fun e s => (e.step id s).store.ReadsBack readBack)
      Engine.init steps) : (engineRun readBack steps).Restores := by
  refine Engine.InStep.restores ((h.and hreads).foldl Engine.inStep_init fun e s he hs => ?_)
  rw [Engine.step_eq hs.2]
  exact he.step hs.1

section Samples

def sampleDevice (status : String) : Device :=
  { (sighting .owned .owned 0 none none).value with detail := .string status }

def sampleStar (region : Option String) : Star :=
  ⟨⟨.live, "SOL"⟩, none, none, none, none, none, none, false, none, none, region⟩

def sampleBatch : EventProjectionBatch := ⟨[], [], [], [], [], [], []⟩

end Samples

/-- A device, a catalogue, and the star again in an event. -/
theorem engineRun_restores_star : (engineRun id
      [(.run (.persistDevices [sampleObservation (sampleDevice "idle") 1]), true),
        (.replaceCatalogue [sampleObservation (sampleStar (some "alpha")) 1] (some "2026"), true),
        (.run (.applyEventProjection "1-0"
          { sampleBatch with stars := [sampleObservation (sampleStar (some "beta")) 2] }), true),
        (.reopen, true)]).Restores := by
  refine engineRun_restores id _ ⟨?_, ?_, ⟨rfl, ?_⟩, trivial, trivial⟩
    (.of_forall (fun _ _ _ => rfl) _)
  · show List.Nodup _
    decide
  · show some "2026" ≠ none
    decide
  · refine ⟨?_, trivial⟩
    decide

lemma Engine.Restores.same {e : Engine} (h : e.Restores) : e.store.catalogueMetadata ≠ some none ∧
      e.memory.snapshot.devices.Same e.store.restoreDevices ∧
      e.memory.catalogue.Same e.store.stars ∧ e.memory.messages = e.store.restoreMessages := by
  obtain ⟨restored, hrestore, hagrees⟩ := h
  have hreadable : e.store.catalogueMetadata ≠ some none := by
    intro hnull
    unfold restore restoreCatalogue at hrestore
    rw [hnull] at hrestore
    cases hrestore
  obtain ⟨generatedAt, heq⟩ := Engine.restore_eq hreadable
  rw [heq] at hrestore
  cases hrestore
  exact ⟨hreadable, hagrees.devices, hagrees.catalogue, hagrees.messages⟩

/-- A list that changes a device and changes it back; a star that does not report its region; a
message of an event; a catalogue without a time. -/
theorem reopening_differs : ¬ (engineRun id
      [(.run (.persistDevices [sampleObservation (sampleDevice "idle") 1]), true),
        (.run (.persistDevices [sampleObservation (sampleDevice "busy") 2,
          sampleObservation (sampleDevice "idle") 3]), true)]).Restores ∧
    ¬ (engineRun id
      [(.replaceCatalogue [sampleObservation (sampleStar (some "alpha")) 1] (some "2026"), true),
        (.run (.applyEventProjection "1-0"
          { sampleBatch with stars := [sampleObservation (sampleStar none) 2] }), true)]).Restores ∧
    ¬ (engineRun id [(.run (.applyEventProjection "1-0"
        { sampleBatch with messages := [sampleObservation ⟨some 1, none, none, .null⟩ 1] }),
          true)]).Restores ∧
    ¬ (engineRun id [(.replaceCatalogue [] none, true)]).Restores := by
  refine ⟨fun h => ?_, fun h => ?_, fun h => ?_, fun h => ?_⟩
  · exact absurd h.same.2.1 (by decide)
  · exact absurd h.same.2.2.1 (by decide)
  · have hlen := congrArg List.length h.same.2.2.2
    rw [restoreMessages, List.length_mergeSort] at hlen
    exact absurd hlen (by decide)
  · exact h.same.1 rfl

end Replicant.Managed
