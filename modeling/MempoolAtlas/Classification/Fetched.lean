import MempoolAtlas.Classification.Pipeline
import MempoolAtlas.Classification.Provenance

/-!
# What a concurrent fetch has fetched

Whichever task of a fetch ends first and however it ends, the fetch asks for nothing
but the items it was started with, and each value it holds follows from the answer to
the batch its item was in.

## Results

* `fetchRawTransactions_follows`, `fetchConfirmedPrevouts_follows` — every value follows from the
  answer to its batch.
-/

namespace MempoolAtlas.Classification

open Machine Model BitcoinCrate

/-- Every item of a fetch was asked for, and every value follows for its item. -/
structure TasksSound {κ ν : Type} (asked : κ → Prop) (follows : κ → RpcValue ν → Prop)
    (tasks : FetchTasks κ ν) : Prop where
  remaining : ∀ item ∈ tasks.remaining, asked item
  running : ∀ batch ∈ tasks.running, ∀ item ∈ batch, asked item
  values : ∀ value ∈ tasks.fetched.values, asked value.1 ∧ follows value.1 value.2

/-- Batches are cut from the items that remain. -/
def Cuts {κ : Type} (nextBatch : List κ → Option (List κ × List κ)) : Prop :=
  ∀ {remaining batch rest : List κ}, nextBatch remaining = some (batch, rest) →
    remaining = batch ++ rest

/-- A batch is cut from the front. -/
theorem splitBatch_eq_some {κ : Type} {length : Nat} {remaining batch rest : List κ} :
    splitBatch length remaining = some (batch, rest) ↔
      remaining.take length ≠ [] ∧ batch = remaining.take length ∧ rest = remaining.drop length := by
  simp only [splitBatch, List.isEmpty_iff]
  split
  · next hEmpty => simp [hEmpty]
  · next hSome => simp [hSome, eq_comm]

/-- Raw batches are cut from the front. -/
theorem nextRawTransactionBatch_cuts : Cuts nextRawTransactionBatch := by
  intro remaining batch rest h
  obtain ⟨-, rfl, rfl⟩ := splitBatch_eq_some.mp h
  exact (List.take_append_drop _ _).symm

/-- Confirmed batches are cut from the front. -/
theorem nextConfirmedPrevoutBatch_cuts : Cuts nextConfirmedPrevoutBatch := by
  intro remaining batch rest h
  obtain ⟨-, rfl, rfl⟩ := splitBatch_eq_some.mp h
  exact (List.take_append_drop _ _).symm

namespace TasksSound

variable {κ ν : Type} {asked : κ → Prop} {follows : κ → RpcValue ν → Prop}
  {nextBatch : List κ → Option (List κ × List κ)} {tasks : FetchTasks κ ν}

/-- A fetch before its first batch. -/
theorem start {items : List κ} (h : ∀ item ∈ items, asked item) (lanes : Nat) :
    TasksSound asked follows (.start items lanes : FetchTasks κ ν) :=
  ⟨h, fun _ hMem => (List.not_mem_nil hMem).elim, fun _ hMem => (List.not_mem_nil hMem).elim⟩

theorem mono {asked' : κ → Prop} {follows' : κ → RpcValue ν → Prop}
    (hAsked : ∀ item, asked item → asked' item)
    (hFollows : ∀ item value, follows item value → follows' item value)
    (h : TasksSound asked follows tasks) : TasksSound asked' follows' tasks :=
  ⟨fun item hMem => hAsked item (h.remaining item hMem),
    fun batch hBatch item hMem => hAsked item (h.running batch hBatch item hMem),
    fun value hMem => ⟨hAsked _ (h.values value hMem).1, hFollows _ _ (h.values value hMem).2⟩⟩

theorem spawnNext (hCuts : Cuts nextBatch) (h : TasksSound asked follows tasks)
    {spawned : FetchTasks κ ν} (hSpawn : tasks.spawnNext nextBatch = some spawned) :
    TasksSound asked follows spawned := by
  obtain ⟨⟨batch, rest⟩, hNext, rfl⟩ := Option.map_eq_some_iff.mp hSpawn
  have hParts : ∀ item ∈ batch ++ rest, asked item := hCuts hNext ▸ h.remaining
  refine ⟨fun item hMem => hParts item (List.mem_append_right _ hMem), fun other hOther => ?_,
    h.values⟩
  rcases List.mem_append.mp hOther with hOld | hNew
  · exact h.running other hOld
  · rw [List.mem_singleton.mp hNew]
    exact fun item hMem => hParts item (List.mem_append_left _ hMem)

theorem spawnLane (hCuts : Cuts nextBatch) (h : TasksSound asked follows tasks)
    (isCurrent : Bool) : TasksSound asked follows (tasks.spawnLane nextBatch isCurrent) := by
  simp only [FetchTasks.spawnLane]
  split
  · exact ⟨h.remaining, h.running, h.values⟩
  · next spawned hSpawn =>
    split at hSpawn
    · have hSpawned := h.spawnNext hCuts hSpawn
      exact ⟨hSpawned.remaining, hSpawned.running, hSpawned.values⟩
    · cases hSpawn

/-- Collecting a batch adds its own values, or turns them into failures. -/
theorem collect (h : TasksSound asked follows tasks) {batch : List κ}
    (hBatch : ∀ item ∈ batch, asked item) (hSystemic : ∀ item, follows item .systemicFailure)
    (result : Option (Except ClassificationError (BatchFetch ν)))
    (hResult : ∀ values, result = some (.ok values) →
      ∀ value ∈ batch.zip values.values, follows value.1 value.2) :
    TasksSound asked follows (tasks.collect batch result) := by
  simp only [FetchTasks.collect]
  split
  · next values =>
    refine ⟨h.remaining, h.running, fun value hMem => ?_⟩
    rcases List.mem_append.mp hMem with hOld | hNew
    · exact h.values value hOld
    · refine ⟨hBatch value.1 (List.of_mem_zip hNew).1, ?_⟩
      split at hNew
      · obtain ⟨_, -, hValue⟩ := List.mem_map.mp (List.of_mem_zip hNew).2
        rw [← hValue]
        exact hSystemic value.1
      · exact hResult values rfl value hNew
  · exact ⟨h.remaining, h.running, h.values⟩

/-- **A joined batch** leaves values that follow from its answer. -/
theorem join (hCuts : Cuts nextBatch) (h : TasksSound asked follows tasks) {batch : List κ}
    {index : Nat} (hRunning : tasks.running[index]? = some batch)
    (hSystemic : ∀ item, follows item .systemicFailure) (isCurrent : Bool)
    (result : Option (Except ClassificationError (BatchFetch ν)))
    (hResult : ∀ values, result = some (.ok values) →
      ∀ value ∈ batch.zip values.values, follows value.1 value.2) :
    TasksSound asked follows (tasks.join nextBatch isCurrent batch index result) := by
  have hLeft : TasksSound asked follows { tasks with running := tasks.running.eraseIdx index } :=
    ⟨h.remaining, fun other hOther => h.running other (List.mem_of_mem_eraseIdx hOther), h.values⟩
  have hJoined := hLeft.collect (h.running batch (List.mem_of_getElem? hRunning)) hSystemic result
    hResult
  simp only [FetchTasks.join]
  split
  · cases hSpawn : FetchTasks.spawnNext nextBatch
        (FetchTasks.collect batch result { tasks with running := tasks.running.eraseIdx index }) with
    | none => exact hJoined
    | some spawned => exact hJoined.spawnNext hCuts hSpawn
  · exact hJoined

/-- **One iteration of a concurrent fetch.** -/
theorem fetchStep (hCuts : Cuts nextBatch) (h : TasksSound asked follows tasks)
    {fetchBatch : BatchAnswer → List κ → Except ClassificationError (BatchFetch ν)}
    {isCurrent : Bool} {completion : Completion} {tasks' : FetchTasks κ ν}
    {answered : Option (List κ × BatchAnswer)}
    (hStep : Classification.fetchStep nextBatch fetchBatch isCurrent completion tasks =
      some (tasks', answered))
    (hSystemic : ∀ item, follows item .systemicFailure)
    (hAnswer : ∀ batch answer values, answered = some (batch, answer) →
      fetchBatch answer batch = .ok values →
      ∀ value ∈ batch.zip values.values, follows value.1 value.2) :
    TasksSound asked follows tasks' := by
  unfold Classification.fetchStep at hStep
  split at hStep
  · obtain ⟨rfl, rfl⟩ := Prod.mk.inj (Option.some.inj hStep)
    exact h.spawnLane hCuts isCurrent
  · split at hStep
    · cases hStep
    · next batch hRunning =>
      split at hStep
      · obtain ⟨rfl, rfl⟩ := Prod.mk.inj (Option.some.inj hStep)
        exact h.join hCuts hRunning hSystemic isCurrent none fun values hNone => by cases hNone
      · next answer _ =>
        split at hStep
        · obtain ⟨rfl, rfl⟩ := Prod.mk.inj (Option.some.inj hStep)
          refine h.join hCuts hRunning hSystemic isCurrent _ fun values hValues => ?_
          have hOk : fetchBatch answer batch = .ok values := Option.some.inj hValues
          exact hAnswer batch answer values (by rw [hOk]; rfl) hOk
        · cases hStep

end TasksSound

-- ---------------------------------------------------------------------------
-- What the values say
-- ---------------------------------------------------------------------------

section Crate

variable [BitcoinCrate] [WireJson]

/-- A transaction that was found is the node's answer for its variant. -/
def RawFollows (history : List Event) (expected : ExpectedVariant) :
    RpcValue Transaction → Prop
  | .found transaction => RawAnswer history expected transaction
  | _ => True

/-- A script that was found, or an absence, is the node's answer for its outpoint. -/
def ConfirmedFollows (history : List Event) (generation : Nat) (outpoint : OutPoint) :
    RpcValue Script → Prop
  | .found script => PositiveAnswer history outpoint script
  | .explicitNull => NullAnswer history generation outpoint
  | _ => True

variable {history history' : List Event}

theorem RawFollows.mono (hSub : history ⊆ history') {expected : ExpectedVariant}
    {value : RpcValue Transaction} (h : RawFollows history expected value) :
    RawFollows history' expected value := by
  cases value with
  | found transaction => exact RawAnswer.mono hSub h
  | _ => trivial

theorem ConfirmedFollows.mono (hSub : history ⊆ history') {generation : Nat} {outpoint : OutPoint}
    {value : RpcValue Script} (h : ConfirmedFollows history generation outpoint value) :
    ConfirmedFollows history' generation outpoint value := by
  cases value with
  | found script => exact PositiveAnswer.mono hSub h
  | explicitNull => exact NullAnswer.mono hSub h
  | _ => trivial

/-- A transaction that is taken was in the response. -/
theorem rawItem_found {expected : ExpectedVariant} {outcome : Option ClassificationRpcOutcome}
    {transaction : Transaction} (h : (rawItem expected outcome).value = .found transaction) :
    ∃ result, outcome = some (.value result) ∧ decodeTransaction result = some transaction ∧
      isAdmitted expected transaction = true := by
  unfold rawItem at h
  split at h
  · cases h
  · cases h
  · split at h <;> cases h
  · cases h
  · cases h
  · next result =>
    split at h
    · cases h
    · next decoded hDecoded =>
      split at h
      · next hAdmitted =>
        obtain rfl := RpcValue.found.inj h
        exact ⟨result, rfl, hDecoded, hAdmitted⟩
      · cases h

/-- A script that is taken was in the response. -/
theorem confirmedItem_found {outcome : Option ClassificationRpcOutcome} {script : Script}
    (h : (confirmedItem outcome).value = .found script) :
    ∃ result, outcome = some (.value result) ∧ decodeConfirmedScript result = some script := by
  unfold confirmedItem at h
  split at h
  · cases h
  · cases h
  · split at h <;> cases h
  · cases h
  · cases h
  · next result =>
    split at h
    · cases h
    · next decoded hDecoded =>
      obtain rfl := RpcValue.found.inj h
      exact ⟨result, rfl, hDecoded⟩

/-- Only a present `result: null` is an absence. -/
theorem confirmedItem_null {outcome : Option ClassificationRpcOutcome}
    (h : (confirmedItem outcome).value = .explicitNull) : outcome = some .null := by
  unfold confirmedItem at h
  split at h
  · cases h
  · cases h
  · split at h <;> cases h
  · rfl
  · cases h
  · split at h <;> cases h

/-- Raw values follow from the answer. -/
theorem fetchRawTransactions_follows {answer : BatchAnswer} {batch : List ExpectedVariant}
    {values : BatchFetch Transaction} {generation : Nat}
    (hFetch : fetchRawTransactions answer batch = .ok values)
    (hAnswered : .answered generation (.rawTransactions batch answer) ∈ history) :
    ∀ value ∈ batch.zip values.values, RawFollows history value.1 value.2 := by
  simp only [fetchRawTransactions] at hFetch
  split at hFetch
  · cases hFetch
  · split at hFetch
    · cases hFetch
    · next answered =>
      obtain rfl := Except.ok.inj hFetch
      rintro ⟨expected, value⟩ hMem
      obtain ⟨i, hLt, hGet⟩ := List.mem_iff_getElem.mp hMem
      have hPair : (batch.zip ((List.zipWith rawItem batch answered.responses).map
          ItemFetch.value))[i]? = some (expected, value) := List.getElem?_eq_some_iff.mpr ⟨hLt, hGet⟩
      obtain ⟨hExpected, hValue⟩ := List.getElem?_zip_eq_some.mp hPair
      rw [List.getElem?_map, List.getElem?_zipWith, hExpected] at hValue
      cases hResponse : answered.responses[i]? with
      | none =>
        rw [hResponse] at hValue
        cases hValue
      | some outcome =>
        rw [hResponse] at hValue
        cases value with
        | found transaction =>
          obtain ⟨result, rfl, hDecoded, hAdmitted⟩ := rawItem_found (Option.some.inj hValue)
          exact ⟨generation, batch, answered, i, result, hAnswered, hExpected, hResponse, hDecoded,
            hAdmitted⟩
        | _ => trivial

/-- Confirmed values follow from the answer. -/
theorem fetchConfirmedPrevouts_follows {answer : BatchAnswer} {batch : List OutPoint}
    {values : BatchFetch Script} {generation : Nat}
    (hFetch : fetchConfirmedPrevouts answer batch = .ok values)
    (hAnswered : .answered generation (.txOuts batch answer) ∈ history) :
    ∀ value ∈ batch.zip values.values, ConfirmedFollows history generation value.1 value.2 := by
  simp only [fetchConfirmedPrevouts] at hFetch
  split at hFetch
  · cases hFetch
  · split at hFetch
    · cases hFetch
    · next answered =>
      obtain rfl := Except.ok.inj hFetch
      rintro ⟨outpoint, value⟩ hMem
      obtain ⟨i, hLt, hGet⟩ := List.mem_iff_getElem.mp hMem
      have hPair : (batch.zip ((answered.responses.map confirmedItem).map
          ItemFetch.value))[i]? = some (outpoint, value) := List.getElem?_eq_some_iff.mpr ⟨hLt, hGet⟩
      obtain ⟨hOutpoint, hValue⟩ := List.getElem?_zip_eq_some.mp hPair
      rw [List.getElem?_map, List.getElem?_map] at hValue
      cases hResponse : answered.responses[i]? with
      | none =>
        rw [hResponse] at hValue
        cases hValue
      | some outcome =>
        rw [hResponse] at hValue
        cases value with
        | found script =>
          obtain ⟨result, rfl, hDecoded⟩ := confirmedItem_found (Option.some.inj hValue)
          exact ⟨generation, batch, answered, i, result, hAnswered, hOutpoint, hResponse, hDecoded⟩
        | explicitNull =>
          obtain rfl := confirmedItem_null (Option.some.inj hValue)
          exact ⟨batch, answered, i, hAnswered, hOutpoint, hResponse⟩
        | _ => trivial

end Crate

end MempoolAtlas.Classification
