import MempoolAtlas.Classification.Batching
import MempoolAtlas.Classification.Panics

/-!
# Raw batches over whole runs

A slice cuts batches twice: from the candidates it selects and from the parents its
waves ask for. Every batch in flight is one that `next_raw_transaction_batch` cut from
rows of an installed membership. So its own estimate holds it back only when it is a
single row over the bound; and while every installed row is within the bound, a slice
whose batches the node answers never pauses.

## Results

* `RawBatch.over_iff` — a batch is over its bound just when it is one row that is.
* `callStep_inBounds`, `batchBounds_run` — every call in flight stays in bounds.
* `raw_batching_within_estimates` — when a list of rows, and when a run, is held back by its own
  estimates.
-/

namespace MempoolAtlas.Classification

open Machine Model Processes BitcoinCrate

-- ---------------------------------------------------------------------------
-- Rows and answers
-- ---------------------------------------------------------------------------

/-- Every row of an installed membership fits a batch of its own. -/
def RowsFit (history : List Event) : Prop :=
  ∀ start, Event.installed start ∈ history →
    ∀ row ∈ start.membership.transactions, row.vsize ≤ maxBatchVsize

/-- Whether what an event installs fits. -/
def Event.rowsFit : Event → Bool
  | .installed start => start.membership.transactions.all fun row => row.vsize ≤ maxBatchVsize
  | _ => true

/-- Fitting rows, event by event. -/
theorem rowsFit_iff {history : List Event} :
    history.all Event.rowsFit = true ↔ RowsFit history := by
  rw [List.all_eq_true]
  constructor
  · intro h start hMem row hRow
    exact of_decide_eq_true (List.all_eq_true.mp (h _ hMem) row hRow)
  · intro h event hMem
    cases event with
    | installed start =>
      exact List.all_eq_true.mpr fun row hRow => decide_eq_true (h start hMem row hRow)
    | _ => rfl

instance (history : List Event) : Decidable (RowsFit history) :=
  decidable_of_iff _ rowsFit_iff

theorem RowsFit.mono {history history' : List Event} (hSub : history ⊆ history')
    (h : RowsFit history') : RowsFit history :=
  fun start hMem => h start (hSub hMem)

/-- A row of an installed membership has this variant's `vsize`. -/
def OfRow (history : List Event) (variant : ExpectedVariant) : Prop :=
  ∃ start, Event.installed start ∈ history ∧
    ∃ row ∈ start.membership.transactions, row.vsize = variant.vsize

/-- While all rows fit, a batch's variants do. -/
theorem RowsFit.of_row {history : List Event} (h : RowsFit history) {variant : ExpectedVariant}
    (hRow : OfRow history variant) : variant.vsize ≤ maxBatchVsize := by
  obtain ⟨start, hInstalled, row, hMem, hSame⟩ := hRow
  rw [← hSame]
  exact h start hInstalled row hMem

/-- The outcomes that trip the circuit breaker on their own. -/
def isSystemic : Option ClassificationRpcOutcome → Bool
  | some .protocolFailure => true
  | some (.rpcError code) => isSystemicCode code
  | _ => false

/-- The node answered the batch: no response is a systemic failure, and of several
responses not all are absent. -/
def Answers : TaskEnd → Prop
  | .finished (.ok batch) => (∀ response ∈ batch.responses, isSystemic response = false) ∧
      (1 < batch.responses.length → ∃ response ∈ batch.responses, response.isNone = false)
  | _ => False

instance : DecidablePred Answers
  | .finished (.ok _) => inferInstanceAs (Decidable (_ ∧ _))
  | .finished (.error _) | .joinError => .isFalse id

/-- The pipeline over a node whose batches end as `allowed` says. -/
def systemWhere [BitcoinCrate] [WireJson] (allowed : TaskEnd → Prop) (ι : Type)
    (limits : ClassificationLimits) : Processes ι PipelineState Call Event where
  starts := Call.IsCall
  step _ state call event state' call' :=
    ∃ completion, allowed completion.taskEnd ∧
      callStep limits completion state call = some (state', call', event)

-- ---------------------------------------------------------------------------
-- One batch
-- ---------------------------------------------------------------------------

/-- What `next_raw_transaction_batch` cuts. -/
structure RawBatch (batch : List ExpectedVariant) : Prop where
  nonempty : batch ≠ []
  length_le : batch.length ≤ rawTransactionBatchSize
  within : (∃ variant, batch = [variant]) ∨
    estimatedRawBatchResponseBytes batch ≤ maxBatchResponseBytes

/-- What `next_raw_transaction_batch` cuts is such a batch. -/
theorem rawBatch_of_next {remaining batch rest : List ExpectedVariant}
    (h : nextRawTransactionBatch remaining = some (batch, rest)) : RawBatch batch where
  nonempty := (nextRawTransactionBatch_eq_some.mp h).1
  length_le := (nextRawTransactionBatch_bounds h).1
  within := (nextRawTransactionBatch_bounds h).2

/-- Its estimate is over the bound just when it is one row that is. -/
theorem RawBatch.over_iff {batch : List ExpectedVariant} (h : RawBatch batch) :
    maxBatchResponseBytes < estimatedRawBatchResponseBytes batch ↔
      ∃ variant, batch = [variant] ∧ maxBatchVsize < variant.vsize := by
  constructor
  · intro hOver
    obtain ⟨variant, rfl⟩ := h.within.resolve_right (by omega)
    have hFits := estimatedRawBatchResponseBytes_singleton_le_iff variant
    exact ⟨variant, rfl, by omega⟩
  · rintro ⟨variant, rfl, hLarge⟩
    have hFits := estimatedRawBatchResponseBytes_singleton_le_iff variant
    omega

/-- What `next_confirmed_prevout_batch` cuts. -/
def ConfirmedBatch (batch : List OutPoint) : Prop :=
  batch.length ≤ maximumConfirmedPrevoutsPerBatch

/-- What `next_confirmed_prevout_batch` cuts is such a batch. -/
theorem confirmedBatch_of_next {remaining batch rest : List OutPoint}
    (h : nextConfirmedPrevoutBatch remaining = some (batch, rest)) : ConfirmedBatch batch := by
  obtain ⟨-, rfl, -⟩ := splitBatch_eq_some.mp h
  exact List.length_take_le _ _

/-- A fetched batch that trips nothing. -/
structure Harmless {ν : Type} (length : Nat) (values : BatchFetch ν) : Prop where
  systemic : values.systemicResponseFailures = 0
  missing : 1 < length → values.missingResponses < length

/-- Counting flags of what is read counts them in the responses. -/
theorem countP_zipWith {κ ρ ν : Type} {read : κ → ρ → ν} {flag : ν → Bool} {p : ρ → Bool}
    (hFlag : ∀ item response, flag (read item response) = p response) {items : List κ}
    {responses : List ρ} (hLength : responses.length = items.length) :
    (List.zipWith read items responses).countP flag = responses.countP p := by
  induction items generalizing responses with
  | nil =>
    rw [List.length_eq_zero_iff.mp hLength]
    rfl
  | cons item rest ih =>
    obtain ⟨response, responses, rfl⟩ := List.exists_cons_of_length_eq_add_one hLength
    rw [List.zipWith_cons_cons, List.countP_cons, List.countP_cons, hFlag,
      ih (Nat.succ.inj hLength)]

section Crate

variable [BitcoinCrate] [WireJson]

/-- Which of its flags a response sets does not depend on what was asked for. -/
theorem rawItem_flags (expected : ExpectedVariant) (outcome : Option ClassificationRpcOutcome) :
    (rawItem expected outcome).systemic = isSystemic outcome ∧
      (rawItem expected outcome).missing = outcome.isNone := by
  cases outcome with
  | none => exact ⟨rfl, rfl⟩
  | some outcome =>
    cases outcome with
    | value result =>
      simp only [rawItem]
      split
      · exact ⟨rfl, rfl⟩
      · split <;> exact ⟨rfl, rfl⟩
    | rpcError code =>
      simp only [rawItem, isSystemic]
      split
      · next hCode => exact ⟨hCode.symm, rfl⟩
      · next hCode => exact ⟨(Bool.not_eq_true _ ▸ hCode).symm, rfl⟩
    | null | protocolFailure | malformed => exact ⟨rfl, rfl⟩

/-- Which flags a response sets, for confirmed prevouts. -/
theorem confirmedItem_flags (outcome : Option ClassificationRpcOutcome) :
    (confirmedItem outcome).systemic = isSystemic outcome ∧
      (confirmedItem outcome).missing = outcome.isNone := by
  cases outcome with
  | none => exact ⟨rfl, rfl⟩
  | some outcome =>
    cases outcome with
    | value result =>
      simp only [confirmedItem]
      split <;> exact ⟨rfl, rfl⟩
    | rpcError code =>
      simp only [confirmedItem, isSystemic]
      split
      · next hCode => exact ⟨hCode.symm, rfl⟩
      · next hCode => exact ⟨(Bool.not_eq_true _ ▸ hCode).symm, rfl⟩
    | null | protocolFailure | malformed => exact ⟨rfl, rfl⟩

omit [BitcoinCrate] [WireJson] in
/-- Responses of a node that answers, read one by one, are harmless. -/
theorem harmless_ofItems {ν : Type} {batch : ClassificationRpcBatch}
    (hAnswers : Answers (.finished (.ok batch))) {items : List (ItemFetch ν)}
    (hSystemic : items.countP ItemFetch.systemic = batch.responses.countP isSystemic)
    (hMissing : items.countP ItemFetch.missing = batch.responses.countP Option.isNone) :
    Harmless batch.responses.length (BatchFetch.ofItems items batch.responseBytes) where
  systemic := by
    show items.countP ItemFetch.systemic = 0
    rw [hSystemic, List.countP_eq_zero]
    exact fun response hMem => Bool.not_eq_true _ ▸ hAnswers.1 response hMem
  missing hSeveral := by
    show items.countP ItemFetch.missing < _
    rw [hMissing]
    refine Nat.lt_of_le_of_ne List.countP_le_length ?_
    intro hAll
    obtain ⟨response, hMem, hSome⟩ := hAnswers.2 hSeveral
    rw [List.countP_eq_length.mp hAll response hMem] at hSome
    cases hSome

/-- **A raw batch of fitting rows** is sent, and a node that answers does no harm. -/
theorem RawBatch.harmless {batch : List ExpectedVariant} (h : RawBatch batch)
    (hFits : ∀ variant ∈ batch, variant.vsize ≤ maxBatchVsize) {answered : ClassificationRpcBatch}
    (hAnswers : Answers (.finished (.ok answered)))
    (hLength : answered.responses.length = batch.length) :
    ∃ values, fetchRawTransactions (.ok answered) batch = .ok values ∧
      Harmless batch.length values := by
  have hWithin : ¬ maxBatchResponseBytes < estimatedRawBatchResponseBytes batch := by
    rw [h.over_iff]
    rintro ⟨variant, rfl, hLarge⟩
    have hFit := hFits variant (List.mem_singleton_self variant)
    omega
  refine ⟨_, if_neg hWithin, hLength ▸ harmless_ofItems hAnswers ?_ ?_⟩
  · exact countP_zipWith (fun variant outcome => (rawItem_flags variant outcome).1) hLength
  · exact countP_zipWith (fun variant outcome => (rawItem_flags variant outcome).2) hLength

/-- A confirmed batch is always sent, and a node that answers does no harm. -/
theorem ConfirmedBatch.harmless {batch : List OutPoint} (h : ConfirmedBatch batch)
    {answered : ClassificationRpcBatch} (hAnswers : Answers (.finished (.ok answered)))
    (hLength : answered.responses.length = batch.length) :
    ∃ values, fetchConfirmedPrevouts (.ok answered) batch = .ok values ∧
      Harmless batch.length values := by
  have hWithin : ¬ (batch.length > maxGettxoutBatchSize ∨
      estimatedConfirmedBatchResponseBytes batch.length > maxBatchResponseBytes) := by
    obtain ⟨hCount, hBytes⟩ := Nat.le_min.mp h
    refine not_or.mpr ⟨Nat.not_lt.mpr hCount, Nat.not_lt.mpr ?_⟩
    exact (Nat.min_le_left _ _).trans (Nat.mul_le_of_le_div _ _ _ hBytes)
  refine ⟨_, if_neg hWithin, hLength ▸ harmless_ofItems hAnswers ?_ ?_⟩
  · rw [List.countP_map]
    exact congrArg (fun p => answered.responses.countP p)
      (funext fun outcome => (confirmedItem_flags outcome).1)
  · rw [List.countP_map]
    exact congrArg (fun p => answered.responses.countP p)
      (funext fun outcome => (confirmedItem_flags outcome).2)

end Crate

-- ---------------------------------------------------------------------------
-- One fetch
-- ---------------------------------------------------------------------------

/-- Every batch in flight was cut as its kind is, and while the run is healthy nothing
fetched has tripped the circuit breaker. -/
structure FetchTasks.InBounds {κ ν : Type} (cut : List κ → Prop) (healthy : Prop)
    (tasks : FetchTasks κ ν) : Prop where
  running : ∀ batch ∈ tasks.running, cut batch
  untripped : healthy → tasks.fetched.tripped = false

namespace FetchTasks.InBounds

variable {κ ν : Type} {cut : List κ → Prop} {healthy : Prop}
  {nextBatch : List κ → Option (List κ × List κ)} {tasks : FetchTasks κ ν}

theorem start (items : List κ) (lanes : Nat) :
    (FetchTasks.start items lanes : FetchTasks κ ν).InBounds cut healthy :=
  ⟨fun _ hMem => (List.not_mem_nil hMem).elim, fun _ => rfl⟩

/-- The next batch is cut as its kind is. -/
theorem spawnNext (hNext : ∀ {remaining batch rest}, nextBatch remaining = some (batch, rest) →
      cut batch) (h : tasks.InBounds cut healthy) {spawned : FetchTasks κ ν}
    (hSpawn : tasks.spawnNext nextBatch = some spawned) : spawned.InBounds cut healthy := by
  obtain ⟨⟨batch, rest⟩, hCut, rfl⟩ := Option.map_eq_some_iff.mp hSpawn
  refine ⟨?_, h.untripped⟩
  intro other hOther
  rcases List.mem_append.mp hOther with hOld | hNew
  · exact h.running other hOld
  · rw [List.mem_singleton.mp hNew]
    exact hNext hCut

theorem spawnLane (hNext : ∀ {remaining batch rest}, nextBatch remaining = some (batch, rest) →
      cut batch) (h : tasks.InBounds cut healthy) (isCurrent : Bool) :
    (tasks.spawnLane nextBatch isCurrent).InBounds cut healthy := by
  simp only [FetchTasks.spawnLane]
  split
  · exact ⟨h.running, h.untripped⟩
  · next spawned hSpawn =>
    split at hSpawn
    · have hSpawned := h.spawnNext hNext hSpawn
      exact ⟨hSpawned.running, hSpawned.untripped⟩
    · cases hSpawn

/-- A harmless batch trips nothing. -/
theorem collect (h : tasks.InBounds cut healthy) {batch : List κ}
    {result : Option (Except ClassificationError (BatchFetch ν))}
    (hResult : healthy → ∃ values, result = some (.ok values) ∧ Harmless batch.length values) :
    (tasks.collect batch result).InBounds cut healthy := by
  refine ⟨?_, ?_⟩
  · simp only [FetchTasks.collect]
    split <;> exact h.running
  · intro hHealthy
    obtain ⟨values, rfl, hHarmless⟩ := hResult hHealthy
    have hBefore := h.untripped hHealthy
    have hSome : (decide (batch.length > 1) && values.missingResponses == batch.length) = false := by
      rw [Bool.and_eq_false_iff, decide_eq_false_iff_not, beq_eq_false_iff_ne]
      refine or_iff_not_imp_left.mpr fun hSeveral => ?_
      exact (hHarmless.missing (not_not.mp hSeveral)).ne
    simp only [FetchTasks.collect, ConcurrentFetch.tripped, hSome, hHarmless.systemic,
      Nat.add_zero, Bool.toNat_false] at hBefore ⊢
    exact hBefore

/-- A joined batch is collected, and the next one spawned. -/
theorem join (hNext : ∀ {remaining batch rest}, nextBatch remaining = some (batch, rest) →
      cut batch) (h : tasks.InBounds cut healthy) {batch : List κ} {index : Nat}
    (isCurrent : Bool) {result : Option (Except ClassificationError (BatchFetch ν))}
    (hResult : healthy → ∃ values, result = some (.ok values) ∧ Harmless batch.length values) :
    (tasks.join nextBatch isCurrent batch index result).InBounds cut healthy := by
  have hLeft : ({ tasks with running := tasks.running.eraseIdx index } : FetchTasks κ ν).InBounds
      cut healthy :=
    ⟨fun other hOther => h.running other (List.mem_of_mem_eraseIdx hOther), h.untripped⟩
  have hJoined := hLeft.collect hResult
  simp only [FetchTasks.join]
  split
  · cases hSpawn : FetchTasks.spawnNext nextBatch
        (FetchTasks.collect batch result { tasks with running := tasks.running.eraseIdx index }) with
    | none => exact hJoined
    | some spawned => exact hJoined.spawnNext hNext hSpawn
  · exact hJoined

/-- **One iteration of a concurrent fetch** stays in bounds. -/
theorem fetchStep (hNext : ∀ {remaining batch rest}, nextBatch remaining = some (batch, rest) →
      cut batch) (h : tasks.InBounds cut healthy)
    {fetchBatch : BatchAnswer → List κ → Except ClassificationError (BatchFetch ν)}
    {isCurrent : Bool} {completion : Completion} {tasks' : FetchTasks κ ν}
    {answered : Option (List κ × BatchAnswer)}
    (hStep : Classification.fetchStep nextBatch fetchBatch isCurrent completion tasks =
      some (tasks', answered))
    (hAnswers : healthy → Answers completion.taskEnd)
    (hHarmless : healthy → ∀ batch ∈ tasks.running, ∀ answered : ClassificationRpcBatch,
      Answers (.finished (.ok answered)) → answered.responses.length = batch.length →
      ∃ values, fetchBatch (.ok answered) batch = .ok values ∧ Harmless batch.length values) :
    tasks'.InBounds cut healthy := by
  unfold Classification.fetchStep at hStep
  split at hStep
  · obtain ⟨rfl, -⟩ := Prod.mk.inj (Option.some.inj hStep)
    exact h.spawnLane hNext isCurrent
  · split at hStep
    · cases hStep
    · next batch hRunning =>
      split at hStep
      · next hEnd =>
        obtain ⟨rfl, -⟩ := Prod.mk.inj (Option.some.inj hStep)
        exact h.join hNext isCurrent fun hHealthy => (hEnd ▸ hAnswers hHealthy).elim
      · next answer hEnd =>
        split at hStep
        · next hLength =>
          obtain ⟨rfl, -⟩ := Prod.mk.inj (Option.some.inj hStep)
          refine h.join hNext isCurrent ?_
          intro hHealthy
          have hAnswered := hEnd ▸ hAnswers hHealthy
          cases answer with
          | error error => exact hAnswered.elim
          | ok answered =>
            have hSame : answered.responses.length = batch.length := of_decide_eq_true hLength
            obtain ⟨values, hValues, hSafe⟩ := hHarmless hHealthy batch
              (List.mem_of_getElem? hRunning) answered hAnswered hSame
            exact ⟨values, congrArg some hValues, hSafe⟩
        · cases hStep

end FetchTasks.InBounds

-- ---------------------------------------------------------------------------
-- One call
-- ---------------------------------------------------------------------------

/-- A call's batches are in bounds, and while the run is healthy its breaker has not
tripped and its report does not pause. -/
def Call.InBounds (healthy : Prop) : Call → Prop
  | .fetchingRaw _ advance tasks =>
    tasks.InBounds RawBatch healthy ∧ (healthy → advance.tripped = false)
  | .fetchingParents working _ tasks =>
    tasks.InBounds RawBatch healthy ∧ (healthy → working.advance.tripped = false)
  | .fetchingConfirmed working tasks =>
    tasks.InBounds ConfirmedBatch healthy ∧ (healthy → working.advance.tripped = false)
  | .admitting _ advance _ | .merging _ advance _ => healthy → advance.tripped = false
  | .hydrating working | .hydrated working | .askingConfirmed working _ | .settling working
  | .recovering working _ | .rehydrating working _ | .rehydrated working _
  | .relieving working _ => healthy → working.advance.tripped = false
  | .leaving _ (.report report) | .returned (.report report) =>
    healthy → report.disposition ≠ .paused
  | _ => True

/-- The breaker trips by what was counted before or by the fetch. -/
theorem addFetch_tripped {κ ν : Type} (advance : ClassificationAdvance)
    (fetched : ConcurrentFetch κ ν) :
    (advance.addFetch fetched).tripped = (advance.tripped || fetched.tripped) := by
  rw [Bool.eq_iff_iff]
  simp only [ClassificationAdvance.addFetch, ClassificationAdvance.tripped, ConcurrentFetch.tripped,
    Bool.or_eq_true, decide_eq_true_eq, gt_iff_lt, Nat.add_pos_iff_pos_or_pos]
  tauto

/-- Only a tripped breaker pauses. -/
theorem dispositionOf_ne_paused {tripped : Bool} (h : tripped = false) (remaining : Nat) :
    dispositionOf tripped remaining ≠ .paused := by
  unfold dispositionOf
  rw [if_neg (by rw [h]; exact Bool.false_ne_true)]
  split <;> exact fun hPaused => by cases hPaused

section Crate

variable [BitcoinCrate] [WireJson] {healthy : Prop} {limits : ClassificationLimits}
  {state state' : PipelineState} {history : List Event}

omit [BitcoinCrate] [WireJson] in
theorem merge_inBounds {generation : ClassificationGeneration}
    (resolver : ResolverLimits) {advance : ClassificationAdvance}
    (hAdvance : healthy → advance.tripped = false) (pending : Option PendingSlice) :
    (merge limits resolver state generation advance pending).2.1.InBounds healthy := by
  unfold merge
  split
  · exact fun _ hPaused => by cases hPaused
  · dsimp only
    split
    · trivial
    · split
      · exact fun hHealthy => dispositionOf_ne_paused (hAdvance hHealthy) _
      · split
        · trivial
        · exact fun hHealthy => dispositionOf_ne_paused (hAdvance hHealthy) _

omit [WireJson] in
theorem classifyReady_inBounds {working : Working}
    {next : Working → Call × Option Event}
    (hNext : ∀ working' : Working, working'.advance.tripped = working.advance.tripped →
      (next working').1.InBounds healthy) :
    (Classification.classifyReady working next).1.InBounds healthy := by
  unfold Classification.classifyReady
  split
  · trivial
  · exact hNext _ rfl

omit [WireJson] in
theorem askParents_inBounds (resolver : ResolverLimits) (variants : BTreeMap Txid CurrentVariant)
    {working : Working} (hWorking : healthy → working.advance.tripped = false) :
    (askParents limits resolver variants working).1.InBounds healthy := by
  simp only [askParents]
  split <;> (split <;> first | exact hWorking | exact ⟨.start _ _, hWorking⟩)

omit [BitcoinCrate] [WireJson] in
theorem askConfirmed_inBounds (resolver : ResolverLimits) {working : Working}
    (hWorking : healthy → working.advance.tripped = false) (factWavesPaused : Bool) :
    (askConfirmed limits resolver working factWavesPaused).1.InBounds healthy := by
  simp only [askConfirmed]
  split <;> (split <;> first | exact hWorking | exact ⟨.start _ _, hWorking⟩)

omit [WireJson] in
/-- Applying what was fetched counts no failure. -/
theorem applyParents_inBounds (resolver : ResolverLimits) {working : Working}
    (hWorking : healthy → working.advance.tripped = false) (parentWave : List ExpectedVariant)
    (fetched : ConcurrentFetch ExpectedVariant Transaction) :
    (applyParents resolver working parentWave fetched).InBounds healthy := by
  have hApplied : (fetched.values.foldl (applyParentValue resolver)
      { pending := working.pending, advance := working.advance, resolved := ∅ }).advance.tripped =
        working.advance.tripped := by
    refine List.foldlRecOn (motive := fun applied : ParentsApplied =>
      applied.advance.tripped = working.advance.tripped) _ _ rfl fun applied hSame value _ => ?_
    unfold applyParentValue
    split <;> exact hSame
  exact fun hHealthy => hApplied.trans (hWorking hHealthy)

omit [BitcoinCrate] [WireJson] in
theorem applyConfirmed_inBounds (resolver : ResolverLimits) {working : Working}
    (hWorking : healthy → working.advance.tripped = false)
    (values : List (OutPoint × RpcValue Script)) :
    (Call.settling (values.foldl (applyConfirmed resolver) working)).InBounds healthy := by
  have hApplied : (values.foldl (applyConfirmed resolver) working).advance.tripped =
      working.advance.tripped :=
    List.foldlRecOn (motive := fun applied : Working =>
      applied.advance.tripped = working.advance.tripped) _ _ rfl fun _ hSame _ _ => hSame
  exact fun hHealthy => hApplied.trans (hWorking hHealthy)

omit [WireJson] [BitcoinCrate] in
theorem hydrate_inBounds (resolver : ResolverLimits) {generation : ClassificationGeneration}
    {working : Working} {next : Working → Call}
    (hNext : ∀ working' : Working, working'.advance.tripped = working.advance.tripped →
      (next working').InBounds healthy) :
    (hydrate resolver state generation working next).2.1.InBounds healthy := by
  unfold hydrate
  split
  · exact fun _ hPaused => by cases hPaused
  · split
    · trivial
    · exact hNext _ rfl

omit [WireJson] [BitcoinCrate] in
theorem relieve_inBounds (resolver : ResolverLimits) (variants : BTreeMap Txid CurrentVariant)
    {working : Working} (hWorking : healthy → working.advance.tripped = false)
    (deferredOnce : Bool) : (relieve resolver variants working deferredOnce).InBounds healthy := by
  simp only [relieve]
  split
  · exact hWorking
  · split <;> exact hWorking

/-- The raw batches a call has in flight. -/
def Call.rawTasks : Call → Option (FetchTasks ExpectedVariant Transaction)
  | .fetchingRaw _ _ tasks | .fetchingParents _ _ tasks => some tasks
  | _ => none

omit [BitcoinCrate] [WireJson] in
theorem Installed.ofRow {generation : Nat} {membership : MempoolSnapshot}
    (h : Installed history generation membership) {variant : ExpectedVariant}
    (hRow : ∃ row ∈ membership.transactions, row.vsize = variant.vsize) : OfRow history variant := by
  obtain ⟨start, hMem, -, rfl⟩ := h
  exact ⟨start, hMem, hRow⟩

/-- **The rows of a batch**: whatever raw batch is in flight, its variants are rows of an
installed membership, with the sizes these have. -/
theorem rawTasks_ofRow (h : PipelineSound limits history state) {call : Call}
    (hCall : CallSound history state call) {tasks : FetchTasks ExpectedVariant Transaction}
    (hTasks : call.rawTasks = some tasks) :
    ∀ batch ∈ tasks.running, ∀ variant ∈ batch, OfRow history variant := by
  intro batch hBatch variant hMem
  cases call with
  | fetchingRaw id advance found =>
    obtain rfl := Option.some.inj hTasks
    obtain ⟨generation, hGet, -, hSound⟩ := hCall
    obtain ⟨entry, hEntry, rfl⟩ := hSound.running batch hBatch variant hMem
    exact (h.generations id generation hGet).installed.ofRow ⟨entry, hEntry, rfl⟩
  | fetchingParents working parentWave found =>
    obtain rfl := Option.some.inj hTasks
    obtain ⟨generation, hGet, -, hSound⟩ := hCall
    obtain ⟨entry, hEntry, -, -, rfl⟩ := hSound.running batch hBatch variant hMem
    exact (h.generations _ generation hGet).installed.ofRow ⟨entry, hEntry, rfl⟩
  | _ => cases hTasks

/-- What a healthy run grants an action: fitting rows, and a node that answers. -/
structure Granted (history : List Event) (completion : Completion) : Prop where
  rows : RowsFit history
  answers : Answers completion.taskEnd

/-- One iteration of a raw fetch, in either place a slice has one. -/
theorem rawFetchStep_inBounds {id : Nat} {completion : Completion}
    {tasks : FetchTasks ExpectedVariant Transaction}
    {again : FetchTasks ExpectedVariant Transaction → Call} {done call' : Call}
    {event : Option Event} (hGranted : healthy → Granted history completion)
    (hRows : ∀ batch ∈ tasks.running, ∀ variant ∈ batch, OfRow history variant)
    (hTasks : tasks.InBounds RawBatch healthy)
    (hStep : rawFetchStep state id completion tasks again done = some (state', call', event)) :
    call' = done ∨ ∃ tasks', call' = again tasks' ∧ tasks'.InBounds RawBatch healthy := by
  unfold rawFetchStep at hStep
  split at hStep
  · obtain ⟨-, hRest⟩ := Prod.mk.inj (Option.some.inj hStep)
    exact Or.inl (Prod.mk.inj hRest).1.symm
  · obtain ⟨⟨tasks', answered⟩, hFetch, hEq⟩ := Option.map_eq_some_iff.mp hStep
    obtain ⟨-, hRest⟩ := Prod.mk.inj hEq
    refine Or.inr ⟨tasks', (Prod.mk.inj hRest).1.symm, hTasks.fetchStep rawBatch_of_next hFetch
      (fun hHealthy => (hGranted hHealthy).answers) fun hHealthy batch hBatch answered => ?_⟩
    exact (hTasks.running batch hBatch).harmless fun variant hMem =>
      (hGranted hHealthy).rows.of_row (hRows batch hBatch variant hMem)

/-- One iteration of a confirmed fetch. -/
theorem confirmedFetchStep_inBounds {id : Nat} {completion : Completion}
    {tasks : FetchTasks OutPoint Script} {again : FetchTasks OutPoint Script → Call}
    {done call' : Call} {event : Option Event} (hGranted : healthy → Granted history completion)
    (hTasks : tasks.InBounds ConfirmedBatch healthy)
    (hStep : confirmedFetchStep state id completion tasks again done = some (state', call', event)) :
    call' = done ∨ ∃ tasks', call' = again tasks' ∧ tasks'.InBounds ConfirmedBatch healthy := by
  unfold confirmedFetchStep at hStep
  split at hStep
  · obtain ⟨-, hRest⟩ := Prod.mk.inj (Option.some.inj hStep)
    exact Or.inl (Prod.mk.inj hRest).1.symm
  · obtain ⟨⟨tasks', answered⟩, hFetch, hEq⟩ := Option.map_eq_some_iff.mp hStep
    obtain ⟨-, hRest⟩ := Prod.mk.inj hEq
    exact Or.inr ⟨tasks', (Prod.mk.inj hRest).1.symm, hTasks.fetchStep confirmedBatch_of_next hFetch
      (fun hHealthy => (hGranted hHealthy).answers) fun _ batch hBatch answered =>
        (hTasks.running batch hBatch).harmless⟩

/-- **One action stays in bounds.** -/
theorem callStep_inBounds {completion : Completion} {call call' : Call} {event : Option Event}
    (h : PipelineSound limits history state) (hCall : CallSound history state call)
    (hGranted : healthy → Granted history completion) (hBefore : call.InBounds healthy)
    (hStep : callStep limits completion state call = some (state', call', event)) :
    call'.InBounds healthy := by
  have hOf : ∀ {action : Action}, some action = some (state', call', event) →
      action.2.1.InBounds healthy → call'.InBounds healthy := by
    rintro action hEq hAction
    rw [Option.some.inj hEq] at hAction
    exact hAction
  have hAdds : ∀ {κ ν : Type} {advance : ClassificationAdvance} {tasks : FetchTasks κ ν}
      {cut : List κ → Prop}, tasks.InBounds cut healthy → (healthy → advance.tripped = false) →
      healthy → (advance.addFetch tasks.fetched).tripped = false := by
    intro κ ν advance tasks cut hTasks hAdvance hHealthy
    rw [addFetch_tripped, hAdvance hHealthy, hTasks.untripped hHealthy, Bool.or_false]
  cases call with
  | installSnapshot membership =>
    refine hOf hStep ?_
    unfold installSnapshot
    split
    · trivial
    · split <;> trivial
  | installed result => cases hStep
  | classifyNextForGeneration expected =>
    refine hOf hStep ?_
    unfold beginSlice
    split
    · exact fun _ hPaused => by cases hPaused
    · split
      · exact fun _ hPaused => by cases hPaused
      · trivial
  | awaitingDriver id =>
    obtain ⟨generation, -, hStep⟩ := Option.bind_eq_some_iff.mp hStep
    split at hStep
    · cases hStep
    · exact hOf hStep trivial
  | holdingDriver id =>
    refine hOf hStep ?_
    dsimp only
    split
    · trivial
    · exact fun _ hPaused => by cases hPaused
  | takingPending id =>
    obtain ⟨generation, -, hStep⟩ := Option.bind_eq_some_iff.mp hStep
    refine hOf hStep ?_
    unfold takePending
    split
    · exact fun _ hPaused => by cases hPaused
    · split
      · trivial
      · exact fun _ => rfl
  | selecting id =>
    obtain ⟨generation, -, hStep⟩ := Option.bind_eq_some_iff.mp hStep
    refine hOf hStep ?_
    simp only [selectCandidates]
    split
    · exact fun _ => rfl
    · exact ⟨.start _ _, fun _ => rfl⟩
  | fetchingRaw id advance tasks =>
    obtain ⟨hTasks, hAdvance⟩ := hBefore
    rcases rawFetchStep_inBounds hGranted (rawTasks_ofRow h hCall rfl) hTasks hStep with
      rfl | ⟨tasks', rfl, hTasks'⟩
    · split
      · exact hAdds hTasks hAdvance
      · exact fun _ hPaused => by cases hPaused
    · exact ⟨hTasks', hAdvance⟩
  | admitting id advance values =>
    obtain ⟨generation, -, hStep⟩ := Option.bind_eq_some_iff.mp hStep
    refine hOf hStep ?_
    simp only [admitTransactions]
    split <;> exact hBefore
  | hydrating working =>
    obtain ⟨generation, -, hStep⟩ := Option.bind_eq_some_iff.mp hStep
    exact hOf hStep (hydrate_inBounds _ fun working' hSame hHealthy =>
      hSame.trans (hBefore hHealthy))
  | hydrated working =>
    obtain ⟨generation, -, hStep⟩ := Option.bind_eq_some_iff.mp hStep
    exact hOf hStep (classifyReady_inBounds fun working' hSame =>
      askParents_inBounds _ _ fun hHealthy => hSame.trans (hBefore hHealthy))
  | fetchingParents working parentWave tasks =>
    obtain ⟨hTasks, hWorking⟩ := hBefore
    rcases rawFetchStep_inBounds hGranted (rawTasks_ofRow h hCall rfl) hTasks hStep with
      rfl | ⟨tasks', rfl, hTasks'⟩
    · split
      · exact applyParents_inBounds _ (hAdds hTasks hWorking) parentWave _
      · exact fun _ hPaused => by cases hPaused
    · exact ⟨hTasks', hWorking⟩
  | askingConfirmed working factWavesPaused =>
    exact hOf hStep (askConfirmed_inBounds _ hBefore factWavesPaused)
  | fetchingConfirmed working tasks =>
    obtain ⟨hTasks, hWorking⟩ := hBefore
    rcases confirmedFetchStep_inBounds hGranted hTasks hStep with rfl | ⟨tasks', rfl, hTasks'⟩
    · split
      · exact applyConfirmed_inBounds _ (hAdds hTasks hWorking) _
      · exact fun _ hPaused => by cases hPaused
    · exact ⟨hTasks', hWorking⟩
  | settling working =>
    exact hOf hStep (classifyReady_inBounds fun working' hSame hHealthy =>
      hSame.trans (hBefore hHealthy))
  | recovering working deferredOnce =>
    refine hOf hStep ?_
    dsimp only
    split
    · exact hBefore
    · exact fun _ hPaused => by cases hPaused
  | rehydrating working deferredOnce =>
    obtain ⟨generation, -, hStep⟩ := Option.bind_eq_some_iff.mp hStep
    exact hOf hStep (hydrate_inBounds _ fun working' hSame hHealthy =>
      hSame.trans (hBefore hHealthy))
  | rehydrated working deferredOnce =>
    refine hOf hStep (classifyReady_inBounds ?_)
    intro working' hSame
    split <;> exact fun hHealthy => hSame.trans (hBefore hHealthy)
  | relieving working deferredOnce =>
    obtain ⟨generation, -, hStep⟩ := Option.bind_eq_some_iff.mp hStep
    exact hOf hStep (relieve_inBounds _ _ hBefore deferredOnce)
  | merging id advance pending =>
    obtain ⟨generation, -, hStep⟩ := Option.bind_eq_some_iff.mp hStep
    exact hOf hStep (merge_inBounds _ hBefore pending)
  | leaving id result =>
    obtain ⟨generation, -, hStep⟩ := Option.bind_eq_some_iff.mp hStep
    refine hOf hStep ?_
    cases result with
    | report => exact hBefore
    | error | panic => trivial
  | returned result => cases hStep

omit [BitcoinCrate] [WireJson] in
theorem Call.InBounds.mono {healthy' : Prop} (hHealthy : healthy' → healthy) {call : Call}
    (h : call.InBounds healthy) : call.InBounds healthy' := by
  unfold Call.InBounds at h ⊢
  split at h
  · exact ⟨⟨h.1.running, h.1.untripped ∘ hHealthy⟩, h.2 ∘ hHealthy⟩
  · exact ⟨⟨h.1.running, h.1.untripped ∘ hHealthy⟩, h.2 ∘ hHealthy⟩
  · exact ⟨⟨h.1.running, h.1.untripped ∘ hHealthy⟩, h.2 ∘ hHealthy⟩
  all_goals first | exact h ∘ hHealthy | trivial

/-- The outline of soundness, with the bounds on the batches: a run is healthy while its
rows fit and its node answers. -/
def batchBounds (allowed : TaskEnd → Prop) (ι : Type) (limits : ClassificationLimits) :
    Outline (systemWhere allowed ι limits).recorded where
  inv := (soundness ι limits).inv
  assertion i s call := (soundness ι limits).assertion i s call ∧
    call.InBounds (RowsFit s.2 ∧ ∀ taskEnd, allowed taskEnd → Answers taskEnd)
  guarantee := (soundness ι limits).guarantee
  starts := by
    rintro i s call hInv hStarts
    refine ⟨(soundness ι limits).starts hInv hStarts, ?_⟩
    cases hStarts <;> trivial
  step := by
    rintro i s call event s' call' hInv ⟨hCall, hBefore⟩ ⟨⟨completion, hAllowed, hStep⟩, hHistory⟩
    obtain ⟨hInv', hGuarantee, hCall'⟩ :=
      (soundness ι limits).step hInv hCall ⟨⟨completion, hStep⟩, hHistory⟩
    have hSub : s.2 ⊆ s'.2 := hGuarantee.1
    refine ⟨hInv', hGuarantee, hCall', callStep_inBounds (PipelineSound.mono hSub hInv)
      (CallSound.mono hSub (Keeps.refl _) hCall) (fun hHealthy => ⟨hHealthy.1, ?_⟩)
      (hBefore.mono fun hHealthy => ⟨hHealthy.1.mono hSub, hHealthy.2⟩) hStep⟩
    exact hHealthy.2 _ hAllowed
  stable := by
    rintro i j s s' call hOther hInv hInv' hGuarantee ⟨hCall, hBefore⟩
    exact ⟨(soundness ι limits).stable hOther hInv hInv' hGuarantee hCall,
      hBefore.mono fun hHealthy => ⟨hHealthy.1.mono hGuarantee.1, hHealthy.2⟩⟩

variable {ι : Type} [DecidableEq ι] {allowed : TaskEnd → Prop}

/-- **Over a run**: the state is sound, and every call in bounds. -/
theorem batchBounds_run {w : World ι PipelineState Call} {trace : List (ι × Option Event)}
    (hRun : (systemWhere allowed ι limits).Run (Processes.initial (.new limits)) trace w) :
    PipelineSound limits (trace.filterMap Prod.snd) w.shared ∧
      ∀ i call, w.procs i = some call → CallSound (trace.filterMap Prod.snd) w.shared call ∧
        call.InBounds (RowsFit (trace.filterMap Prod.snd) ∧
          ∀ taskEnd, allowed taskEnd → Answers taskEnd) :=
  (batchBounds allowed ι limits).holds_run hRun.recorded
    ((batchBounds allowed ι limits).holds_initial (pipelineSound_new limits))

/-- What a report says of the breaker. -/
def Call.Reports (call : Call) (report : ClassificationSliceReport) : Prop :=
  call = .returned (.report report) ∨ ∃ generation, call = .leaving generation (.report report)

omit [BitcoinCrate] [WireJson] in
/-- A call that leaves with a report reports it. -/
theorem Call.reports_of_report {call : Call} {report : ClassificationSliceReport}
    (h : call.report = some report) : call.Reports report := by
  unfold Call.report at h
  split at h
  · obtain rfl := Option.some.inj h
    exact Or.inr ⟨_, rfl⟩
  · cases h

/-- Of a raw batch in flight: it was cut as batches are, from rows of an installed
membership, and only the estimate of a single row over the bound holds it back. -/
structure InFlight (history : List Event) (batch : List ExpectedVariant) : Prop where
  nonempty : batch ≠ []
  length_le : batch.length ≤ rawTransactionBatchSize
  rows : ∀ variant ∈ batch, OfRow history variant
  refused : ∀ answer, (∃ estimated maximum, fetchRawTransactions answer batch =
      .error (.batchResponseEstimateTooLarge estimated maximum)) ↔
    ∃ variant, batch = [variant] ∧ maxBatchVsize < variant.vsize
  sent : RowsFit history → ∀ answer estimated maximum, fetchRawTransactions answer batch ≠
    .error (.batchResponseEstimateTooLarge estimated maximum)

/-- A batch cut from rows of a membership. -/
theorem RawBatch.inFlight {batch : List ExpectedVariant} (h : RawBatch batch)
    (hRows : ∀ variant ∈ batch, OfRow history variant) : InFlight history batch := by
  have hRefused : ∀ answer, (∃ estimated maximum, fetchRawTransactions answer batch =
      .error (.batchResponseEstimateTooLarge estimated maximum)) ↔
      ∃ variant, batch = [variant] ∧ maxBatchVsize < variant.vsize :=
    fun answer => (fetchRawTransactions_estimate answer batch).trans h.over_iff
  refine ⟨h.nonempty, h.length_le, hRows, hRefused, ?_⟩
  intro hFits answer estimated maximum hError
  obtain ⟨variant, rfl, hLarge⟩ := (hRefused answer).mp ⟨estimated, maximum, hError⟩
  have hFit := hFits.of_row (hRows variant (List.mem_singleton_self variant))
  omega

omit [BitcoinCrate] [WireJson] in
/-- The raw batches of a call were cut as batches are. -/
theorem Call.InBounds.rawBatch {call : Call} (h : call.InBounds healthy)
    {tasks : FetchTasks ExpectedVariant Transaction} (hTasks : call.rawTasks = some tasks) :
    ∀ batch ∈ tasks.running, RawBatch batch := by
  cases call with
  | fetchingRaw | fetchingParents =>
    obtain rfl := Option.some.inj hTasks
    exact h.1.running
  | _ => cases hTasks

omit [BitcoinCrate] [WireJson] in
/-- A healthy call does not report a pause. -/
theorem Call.InBounds.not_paused {call : Call} (h : call.InBounds healthy) (hHealthy : healthy)
    {report : ClassificationSliceReport} (hReports : call.Reports report) :
    report.disposition ≠ .paused := by
  obtain rfl | ⟨generation, rfl⟩ := hReports
  · exact h hHealthy
  · exact h hHealthy

/-- **Raw batching stays within its own estimates exactly when its rows fit.** What a slice
takes is cut into batches none of which its estimate holds back exactly when every row it
takes fits one batch. At any moment of any run, the raw batches in flight, those of parent
waves among them, are rows of an installed membership, and only a single row over the bound
is held back. And in a run whose installed rows all fit and whose node answers, no slice
pauses. -/
theorem raw_batching_within_estimates (limits : ClassificationLimits) :
    (∀ variants maximumEntries, BatchedWithinEstimates variants maximumEntries ↔
      (variants = [] ∨ 0 < maximumEntries) ∧
        ∀ taken variant rest, variants = taken ++ variant :: rest →
          Greedy.Takes estimatedRawResponseBytes maximumEntries maxRawResponseBytesPerSlice taken
            variant →
          variant.vsize ≤ maxBatchVsize) ∧
    (∀ (w : World ι PipelineState Call) (trace : List (ι × Option Event)),
      (system ι limits).Run (Processes.initial (.new limits)) trace w →
      ∀ i call tasks, w.procs i = some call → call.rawTasks = some tasks →
        ∀ batch ∈ tasks.running, InFlight (trace.filterMap Prod.snd) batch) ∧
    ∀ (w : World ι PipelineState Call) (trace : List (ι × Option Event)),
      (systemWhere Answers ι limits).Run (Processes.initial (.new limits)) trace w →
      RowsFit (trace.filterMap Prod.snd) →
      ∀ i call report, w.procs i = some call → call.Reports report →
        report.disposition ≠ .paused := by
  refine ⟨batchedWithinEstimates_iff, ?_, ?_⟩
  · intro w trace hRun i call tasks hCall hTasks batch hBatch
    have hAny : (systemWhere (fun _ => True) ι limits).Run (Processes.initial (.new limits))
        trace w :=
      hRun.imp id (Exists.imp fun _ hStep => ⟨trivial, hStep⟩)
    obtain ⟨hSound, hCalls⟩ := batchBounds_run hAny
    obtain ⟨hCallSound, hBounds⟩ := hCalls i call hCall
    exact (hBounds.rawBatch hTasks batch hBatch).inFlight
      (rawTasks_ofRow hSound hCallSound hTasks batch hBatch)
  · intro w trace hRun hFits i call report hCall hReports
    obtain ⟨-, hCalls⟩ := batchBounds_run hRun
    exact (hCalls i call hCall).2.not_paused ⟨hFits, fun _ => id⟩ hReports

end Crate

/-- Moves of a node that answers. -/
def Reference.Move.answered : Reference.Move → Bool
  | .next _ completion => decide (Answers completion.taskEnd)
  | _ => true

/-- Moves of a node that answers are a run of its system. -/
theorem play_runAnswered [BitcoinCrate] [WireJson] {limits : ClassificationLimits}
    {moves : List Reference.Move} {played : Reference.Played}
    (hAnswered : moves.all Reference.Move.answered = true)
    (h : Reference.play limits moves = some played) :
    (systemWhere Answers Nat limits).Run (Processes.initial (.new limits)) played.trace
      (crew played.state played.calls) := by
  refine Reference.play_runOf id (fun hMem hStep => ⟨_, ?_, hStep⟩) h
  exact of_decide_eq_true (List.all_eq_true.mp hAnswered _ hMem)

/-- A payment that spends `payment`. -/
def childPayment : MempoolAtlas.Reference.KnownTransaction where
  transaction := {
    version := 2
    lockTime := 0
    input := [⟨⟨MempoolAtlas.Reference.payment.txid, 0⟩, [], 0xffffffff, []⟩]
    output := [⟨900, 0x00 :: 0x14 :: List.replicate 20 0⟩] }
  hex := "020000000182b6bf2e3b2e9c931d98cf8f3d1e054101feaca1a66a2f954defc1d4658a96f60000000000" ++
    "ffffffff018403000000000000160014000000000000000000000000000000000000000000000000"
  txid := 0x5bf3808827a5a464e243fd0f60e6962c679fc9b839c2b204597b3f1505ad00ae
  wtxid := 0x5bf3808827a5a464e243fd0f60e6962c679fc9b839c2b204597b3f1505ad00ae
  totalSize := 82
  baseSize := 82

/-- Slices of one transaction. -/
def oneRowLimits : ClassificationLimits where
  maxTransactionsPerSlice := 1
  rpcLanes := 1
  maxAuxiliaryCacheBytes := 4096
  transactionsPos := Nat.one_pos
  transactionsLe := Reference.limits.transactionsPos.trans_le Reference.limits.transactionsLe
  lanesPos := Nat.one_pos
  lanesLe := Reference.limits.lanesLe
  cachePos := Reference.limits.cachePos
  cacheLe := Reference.limits.cacheLe

/-- The answer of the only batch in flight, or of none. -/
def answers (responses : List (Option ClassificationRpcOutcome)) : Completion :=
  ⟨0, .finished (.ok { responses, responseBytes := 0 })⟩

/-- Both payments are installed; the slice takes the child, and a parent wave asks for the
payment it spends. -/
def parentWaveMoves : List Reference.Move :=
  [.install (Reference.membershipOf [Reference.entryOf childPayment,
      Reference.entryOf MempoolAtlas.Reference.payment]), .next 0 (answers []),
    .classify (some 1)] ++
  List.replicate 6 (.next 1 (answers [])) ++
  [.next 1 (answers [some (.value (Reference.quoted childPayment.hex))])] ++
  List.replicate 5 (.next 1 (answers []))

/-- The payment arrives, and the slice runs to its report. -/
def parentWaveReportMoves : List Reference.Move :=
  parentWaveMoves ++
  [.next 1 (answers [some (.value (Reference.quoted MempoolAtlas.Reference.payment.hex))])] ++
  List.replicate 8 (.next 1 (answers []))

/-- The parents a call waits for. -/
def Call.parentBatches : Call → List (List ExpectedVariant)
  | .fetchingParents _ _ tasks => tasks.running
  | _ => []

/-- A parent batch is a raw batch in flight. -/
theorem Call.rawTasks_of_parentBatches {call : Call} {batch : List ExpectedVariant}
    (h : batch ∈ call.parentBatches) :
    ∃ tasks, call.rawTasks = some tasks ∧ batch ∈ tasks.running := by
  cases call with
  | fetchingParents working parentWave tasks => exact ⟨tasks, rfl, h⟩
  | _ => cases h

/-- The sample run: nothing holds back the payment that the parent wave asks for, and the
slice classifies its child and does not pause. -/
theorem raw_batching_within_estimates_parentWave :
    let _ := MempoolAtlas.Reference.crate [MempoolAtlas.Reference.payment, childPayment]
    let _ := Reference.json [MempoolAtlas.Reference.payment.hex, childPayment.hex]
    BatchedWithinEstimates [expectedVariant (Reference.entryOf childPayment)]
        oneRowLimits.maxTransactionsPerSlice ∧
      (∃ played call batch, Reference.play oneRowLimits parentWaveMoves = some played ∧
        played.calls[1]? = some call ∧ batch ∈ call.parentBatches ∧
        ∀ answer estimated maximum, fetchRawTransactions answer batch ≠
          .error (.batchResponseEstimateTooLarge estimated maximum)) ∧
      ∃ played call report, Reference.play oneRowLimits parentWaveReportMoves = some played ∧
        played.calls[1]? = some call ∧ call.Reports report ∧ report.newlyClassified = 1 ∧
        report.disposition ≠ .paused := by
  intro _ _
  obtain ⟨hBatched, hInFlight, hReports⟩ :=
    raw_batching_within_estimates (ι := Nat) oneRowLimits
  refine ⟨(hBatched _ _).mpr ⟨Or.inr (by decide), ?_⟩, ?_, ?_⟩
  · intro taken variant rest hSplit _
    have hMem : variant ∈ [expectedVariant (Reference.entryOf childPayment)] :=
      hSplit ▸ List.mem_append_right taken List.mem_cons_self
    rw [List.mem_singleton.mp hMem]
    decide
  · have hPlay : (Reference.play oneRowLimits parentWaveMoves).any (fun played =>
        decide (RowsFit (played.trace.filterMap Prod.snd)) &&
          played.calls[1]?.any fun call => !call.parentBatches.isEmpty) = true := by
      decide +kernel
    obtain ⟨played, hPlayed, hWaits⟩ := (Option.any_eq_true ..).mp hPlay
    obtain ⟨hFits, hWaits⟩ := Bool.and_eq_true_iff.mp hWaits
    obtain ⟨call, hCall, hWaits⟩ := (Option.any_eq_true ..).mp hWaits
    obtain ⟨batch, hBatch⟩ := List.exists_mem_of_ne_nil call.parentBatches (by simpa using hWaits)
    obtain ⟨tasks, hTasks, hRunning⟩ := Call.rawTasks_of_parentBatches hBatch
    have hSent := hInFlight _ _ (Reference.play_run hPlayed) 1 call tasks hCall hTasks batch hRunning
    exact ⟨played, call, batch, hPlayed, hCall, hBatch, hSent.sent (of_decide_eq_true hFits)⟩
  · have hPlay : (Reference.play oneRowLimits parentWaveReportMoves).any (fun played =>
        decide (RowsFit (played.trace.filterMap Prod.snd)) &&
          (played.calls[1]?.bind Call.report).any fun report => report.newlyClassified == 1) =
        true := by
      decide +kernel
    obtain ⟨played, hPlayed, hLeaves⟩ := (Option.any_eq_true ..).mp hPlay
    obtain ⟨hFits, hLeaves⟩ := Bool.and_eq_true_iff.mp hLeaves
    obtain ⟨report, hReport, hNew⟩ := (Option.any_eq_true ..).mp hLeaves
    obtain ⟨call, hCall, hReport⟩ := Option.bind_eq_some_iff.mp hReport
    have hRun := play_runAnswered (by decide +kernel) hPlayed
    have hReported := Call.reports_of_report hReport
    exact ⟨played, call, report, hPlayed, hCall, hReported, beq_iff_eq.mp hNew,
      hReports _ _ hRun (of_decide_eq_true hFits) 1 call report hCall hReported⟩

end MempoolAtlas.Classification
