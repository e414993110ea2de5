import MempoolAtlas.Classification.PipelineEffects
import MempoolAtlas.Classification.Reference

/-!
# Replacing a generation

What an installation hands over, and what a slice of a replaced generation may still
do. The handoff carries exactly the classifications the previous generation held for
the new entries; a slice that works on an older generation reaches neither the current
one nor the confirmed cache, and a merge of such a slice reports that it is stale.

## Results

* `carry_spec` — each entry takes over its own record.
* `callStep_stale` — a merge that comes too late changes nothing and says so.
* `generation_replacement` — replacement is isolated and lossless at every step of every run.
-/

namespace MempoolAtlas.Classification

open Machine Model Processes

-- ---------------------------------------------------------------------------
-- What is carried
-- ---------------------------------------------------------------------------

/-- What the previous work held for an entry, under both its identifiers. -/
def carriedRecord (previous : ClassificationWork) (entry : MempoolEntry) :
    Option CachedClassification :=
  previous.classifications[entry.wtxid]?.filter fun cached =>
    cached.classification.txid == entry.txid

/-- What the current generation holds for an entry. -/
def previousRecord (state : PipelineState) (entry : MempoolEntry) :
    Option CachedClassification :=
  (currentWork state).bind fun work => carriedRecord work entry

section Crate

variable [BitcoinCrate]

omit [BitcoinCrate] in
/-- A record is carried over just when its variant is. -/
theorem carryClassification_eq (previous : ClassificationWork) (entry : MempoolEntry)
    (carried : Carried) : carryClassification previous entry carried =
      match carriedRecord previous entry with
      | none => carried
      | some cached => { carried with
          cached := carried.cached.insert entry.wtxid cached
          classifications := carried.classifications.insert entry.txid cached.classification } := by
  unfold carryClassification carriedRecord
  cases previous.classifications[entry.wtxid]? with
  | none => rfl
  | some cached =>
    simp only [Option.filter_some, beq_iff_eq]
    split <;> rfl

theorem carryOutputs_classified (previous : ClassificationWork) (entry : MempoolEntry)
    (carried : Carried) :
    (carryOutputs previous entry carried).cached = carried.cached ∧
      (carryOutputs previous entry carried).classifications = carried.classifications := by
  unfold carryOutputs
  split
  · exact ⟨rfl, rfl⟩
  · split
    · exact ⟨rfl, rfl⟩
    · split <;> exact ⟨rfl, rfl⟩

/-- The records a pass over the entries carries, in the order of the entries. -/
def carriedRecords (previous : ClassificationWork) (entries : List MempoolEntry) :
    List (MempoolEntry × CachedClassification) :=
  entries.filterMap fun entry => (carriedRecord previous entry).map fun cached => (entry, cached)

/-- **The loop of the carry-over** gathers the carried records in order. -/
theorem carry_fold (previous : ClassificationWork) (entries : List MempoolEntry)
    (carried : Carried) :
    let result := entries.foldl (fun carried entry =>
      carryOutputs previous entry (carryClassification previous entry carried)) carried
    result.cached = ((carriedRecords previous entries).map fun found =>
        (found.1.wtxid, found.2)).foldl (fun m e => m.insert e.1 e.2) carried.cached ∧
      result.classifications = ((carriedRecords previous entries).map fun found =>
        (found.1.txid, found.2.classification)).foldl (fun m e => m.insert e.1 e.2)
          carried.classifications := by
  induction entries generalizing carried with
  | nil => exact ⟨rfl, rfl⟩
  | cons entry rest ih =>
    obtain ⟨hCached, hClassifications⟩ :=
      ih (carryOutputs previous entry (carryClassification previous entry carried))
    obtain ⟨hSame, hSame'⟩ := carryOutputs_classified previous entry
      (carryClassification previous entry carried)
    rw [hSame, carryClassification_eq] at hCached
    rw [hSame', carryClassification_eq] at hClassifications
    rw [List.foldl_cons, carryClassification_eq]
    unfold carriedRecords at hCached hClassifications ⊢
    cases hRecord : carriedRecord previous entry with
    | none =>
      rw [hRecord] at hCached hClassifications
      rw [List.filterMap_cons_none (by rw [hRecord, Option.map_none])]
      exact ⟨hCached, hClassifications⟩
    | some cached =>
      rw [hRecord] at hCached hClassifications
      rw [List.filterMap_cons_some (by rw [hRecord, Option.map_some]), List.map_cons, List.map_cons,
        List.foldl_cons, List.foldl_cons]
      exact ⟨hCached, hClassifications⟩

omit [BitcoinCrate] in
/-- Which records are carried over. -/
theorem mem_carriedRecords {previous : ClassificationWork} {entries : List MempoolEntry}
    {entry : MempoolEntry} {cached : CachedClassification} :
    (entry, cached) ∈ carriedRecords previous entries ↔
      entry ∈ entries ∧ carriedRecord previous entry = some cached := by
  simp only [carriedRecords, List.mem_filterMap, Option.map_eq_some_iff, Prod.mk.injEq]
  constructor
  · rintro ⟨found, hMem, record, hRecord, rfl, rfl⟩
    exact ⟨hMem, hRecord⟩
  · rintro ⟨hMem, hRecord⟩
    exact ⟨entry, hMem, cached, hRecord, rfl, rfl⟩

omit [BitcoinCrate] in
/-- Distinct keys of the entries are distinct keys of what is carried for them. -/
theorem nodup_carriedRecords {previous : ClassificationWork} {entries : List MempoolEntry}
    {key : MempoolEntry → String} (h : (entries.map key).Nodup) :
    ((carriedRecords previous entries).map fun found => key found.1).Nodup := by
  unfold carriedRecords
  induction entries with
  | nil => exact List.nodup_nil
  | cons entry rest ih =>
    obtain ⟨hFresh, hRest⟩ := List.nodup_cons.mp h
    rw [List.filterMap_cons]
    cases carriedRecord previous entry with
    | none => exact ih hRest
    | some cached =>
      refine List.nodup_cons.mpr ⟨fun hMem => hFresh ?_, ih hRest⟩
      obtain ⟨⟨found, record⟩, hFound, hKey⟩ := List.mem_map.mp hMem
      exact List.mem_map.mpr ⟨found, (mem_carriedRecords.mp hFound).1, hKey⟩

/-- Where the entries have identifiers of their own, each takes over its own record. -/
theorem carry_spec {state : PipelineState} {membership : MempoolSnapshot}
    (hTxids : (membership.transactions.map MempoolEntry.txid).Nodup)
    (hWtxids : (membership.transactions.map MempoolEntry.wtxid).Nodup) :
    (∀ entry ∈ membership.transactions,
      (carry (currentWork state) membership).cached[entry.wtxid]? = previousRecord state entry) ∧
    (∀ entry ∈ membership.transactions,
      (carry (currentWork state) membership).classifications[entry.txid]? =
        (previousRecord state entry).map CachedClassification.classification) ∧
    ∀ txid, (∀ entry ∈ membership.transactions, entry.txid ≠ txid) →
      (carry (currentWork state) membership).classifications[txid]? = none := by
  unfold previousRecord
  cases hWork : currentWork state with
  | none =>
    refine ⟨fun entry _ => ?_, fun entry _ => ?_, fun txid _ => ?_⟩
    · simp [carry]
    · simp [carry]
    · simp [carry]
  | some previous =>
    obtain ⟨hCached, hClassifications⟩ := carry_fold previous membership.transactions {}
    have hKeys : (((carriedRecords previous membership.transactions).map fun found =>
        (found.1.wtxid, found.2)).map Prod.fst).Nodup := by
      rw [List.map_map]
      exact nodup_carriedRecords hWtxids
    have hKeys' : (((carriedRecords previous membership.transactions).map fun found =>
        (found.1.txid, found.2.classification)).map Prod.fst).Nodup := by
      rw [List.map_map]
      exact nodup_carriedRecords hTxids
    refine ⟨fun entry hMem => ?_, fun entry hMem => ?_, fun txid hNone => ?_⟩
    · refine Option.ext fun cached => ?_
      rw [carry, hCached, BTreeMap.getElem?_foldl_insert_iff hKeys]
      simp only [List.mem_map, Prod.mk.injEq, Prod.exists, Std.ExtTreeMap.getElem?_empty,
        and_false, or_false, Option.bind_some, reduceCtorEq]
      constructor
      · rintro ⟨found, record, hFound, hWtxid, rfl⟩
        obtain ⟨hFoundMem, hRecord⟩ := mem_carriedRecords.mp hFound
        rw [← List.inj_on_of_nodup_map hWtxids hFoundMem hMem hWtxid]
        exact hRecord
      · exact fun hRecord => ⟨entry, cached, mem_carriedRecords.mpr ⟨hMem, hRecord⟩, rfl, rfl⟩
    · refine Option.ext fun record => ?_
      rw [carry, hClassifications, BTreeMap.getElem?_foldl_insert_iff hKeys']
      simp only [List.mem_map, Prod.mk.injEq, Prod.exists, Std.ExtTreeMap.getElem?_empty,
        and_false, or_false, Option.bind_some, reduceCtorEq, Option.map_eq_some_iff]
      constructor
      · rintro ⟨found, cached, hFound, hTxid, rfl⟩
        obtain ⟨hFoundMem, hRecord⟩ := mem_carriedRecords.mp hFound
        rw [← List.inj_on_of_nodup_map hTxids hFoundMem hMem hTxid]
        exact ⟨cached, hRecord, rfl⟩
      · rintro ⟨cached, hRecord, rfl⟩
        exact ⟨entry, cached, mem_carriedRecords.mpr ⟨hMem, hRecord⟩, rfl, rfl⟩
    · refine Option.eq_none_iff_forall_not_mem.mpr fun record hRecord => ?_
      rw [Option.mem_def, carry, hClassifications, BTreeMap.getElem?_foldl_insert_iff hKeys'] at hRecord
      simp only [List.mem_map, Prod.mk.injEq, Prod.exists, Std.ExtTreeMap.getElem?_empty,
        and_false, or_false, reduceCtorEq] at hRecord
      obtain ⟨found, cached, hFound, hTxid, -⟩ := hRecord
      exact hNone found (mem_carriedRecords.mp hFound).1 hTxid

-- ---------------------------------------------------------------------------
-- Records are filed under their witness identifiers
-- ---------------------------------------------------------------------------

/-- Every generation files its records under their own witness identifiers. -/
def Keyed (state : PipelineState) : Prop :=
  ∀ (id : Nat) generation, state.generations[id]? = some generation →
    ∀ (wtxid : String) cached, generation.work.classifications[wtxid]? = some cached →
      cached.classification.wtxid = wtxid

/-- Carried records are kept under their variant. -/
theorem carried_keyed {state : PipelineState} (h : Keyed state) {membership : MempoolSnapshot}
    {wtxid : String} {cached : CachedClassification}
    (hGet : (carry (currentWork state) membership).cached[wtxid]? = some cached) :
    cached.classification.wtxid = wtxid := by
  cases hWork : currentWork state with
  | none =>
    rw [hWork] at hGet
    simp [carry] at hGet
  | some previous =>
    rw [hWork] at hGet
    obtain ⟨generation, hCurrent, rfl⟩ := Option.map_eq_some_iff.mp hWork
    obtain ⟨id, -, hFiled⟩ := Option.bind_eq_some_iff.mp hCurrent
    rw [carry, (carry_fold generation.work membership.transactions {}).1] at hGet
    rcases BTreeMap.of_getElem?_foldl_insert hGet with hMem | hNone
    · obtain ⟨⟨entry, record⟩, hFound, hEq⟩ := List.mem_map.mp hMem
      obtain ⟨rfl, rfl⟩ := Prod.mk.inj hEq
      obtain ⟨hRecord, -⟩ := Option.filter_eq_some_iff.mp (mem_carriedRecords.mp hFound).2
      exact h id generation hFiled entry.wtxid record hRecord
    · simp at hNone

omit [BitcoinCrate] in
/-- A record after a merge is one of the slice's own, or was there before; and every
witness identifier that had a record keeps one. -/
theorem merged_record (work : ClassificationWork) (advance : ClassificationAdvance)
    (caches : AuxiliaryCaches) (wtxid : String) :
    (∀ cached, (mergeWork work advance caches).classifications[wtxid]? = some cached →
      (cached ∈ advance.classifications ∧ cached.classification.wtxid = wtxid) ∨
        work.classifications[wtxid]? = some cached) ∧
    ((∃ cached ∈ advance.classifications, cached.classification.wtxid = wtxid) →
      ∃ cached ∈ advance.classifications, cached.classification.wtxid = wtxid ∧
        (mergeWork work advance caches).classifications[wtxid]? = some cached) ∧
    ((work.classifications[wtxid]?).isSome →
      ((mergeWork work advance caches).classifications[wtxid]?).isSome) := by
  show (∀ cached, (advance.classifications.foldl _ work.classifications)[wtxid]? = some cached → _) ∧
    (_ → ∃ cached ∈ _, _ ∧ (advance.classifications.foldl _ work.classifications)[wtxid]? = _) ∧
    (_ → ((advance.classifications.foldl _ work.classifications)[wtxid]?).isSome)
  generalize work.classifications = start
  induction advance.classifications generalizing start with
  | nil =>
    exact ⟨fun cached hGet => Or.inr hGet, fun ⟨_, hMem, _⟩ => absurd hMem List.not_mem_nil, id⟩
  | cons first rest ih =>
    obtain ⟨hFrom, hOwn, hKept⟩ := ih (start.insert first.classification.wtxid first)
    rw [List.foldl_cons]
    refine ⟨fun cached hGet => ?_, fun hSome => ?_, fun hStart => ?_⟩
    · rcases hFrom cached hGet with ⟨hMem, hKey⟩ | hBefore
      · exact Or.inl ⟨List.mem_cons_of_mem first hMem, hKey⟩
      · rw [BTreeMap.getElem?_insert_eq] at hBefore
        split at hBefore
        · next hKey =>
          rw [← Option.some.inj hBefore]
          exact Or.inl ⟨List.mem_cons_self, hKey⟩
        · exact Or.inr hBefore
    · by_cases hLater : ∃ cached ∈ rest, cached.classification.wtxid = wtxid
      · obtain ⟨cached, hMem, hKey, hGet⟩ := hOwn hLater
        exact ⟨cached, List.mem_cons_of_mem first hMem, hKey, hGet⟩
      · -- the first record is the last one for its identifier
        obtain ⟨cached, hMem, hKey⟩ := hSome
        have hFirst : cached = first := by
          rcases List.mem_cons.mp hMem with hEq | hRest
          · exact hEq
          · exact absurd ⟨cached, hRest, hKey⟩ hLater
        subst hFirst
        have hIsSome := hKept (by rw [BTreeMap.getElem?_insert_eq, if_pos hKey]; rfl)
        obtain ⟨found, hFound⟩ := Option.isSome_iff_exists.mp hIsSome
        rcases hFrom found hFound with ⟨hRest, hSame⟩ | hBefore
        · exact absurd ⟨found, hRest, hSame⟩ hLater
        · rw [BTreeMap.getElem?_insert_eq, if_pos hKey, Option.some.injEq] at hBefore
          exact ⟨cached, List.mem_cons_self, hKey, hBefore ▸ hFound⟩
    · refine hKept ?_
      rw [BTreeMap.getElem?_insert_eq]
      split
      · rfl
      · exact hStart

omit [BitcoinCrate] in
/-- The generation a merge of the current one leaves, whatever happens to its slice. -/
theorem merged_generation {limits : ClassificationLimits} {resolver : ResolverLimits}
    {state state' : PipelineState} {generation : ClassificationGeneration}
    {advance : ClassificationAdvance} {pending : Option PendingSlice} {call : Call}
    {event : Option Event}
    (h : Merged limits resolver state generation advance pending (state', call, event)) :
    ∃ generation' confirmedCache,
      state' = { state with confirmedCache }.setGeneration generation' ∧
      generation'.id = generation.id ∧ generation'.membership = generation.membership ∧
      generation'.work.classifications = (mergeWork generation.work advance
        (mergedCaches limits state generation advance)).classifications := by
  cases h with
  | overflowed => exact ⟨_, _, rfl, rfl, rfl, rfl⟩
  | panicked => exact ⟨_, _, rfl, rfl, rfl, rfl⟩
  | reported => exact ⟨_, _, rfl, rfl, rfl, rfl⟩

/-- An effect keeps the records under their variant. -/
theorem Keyed.effect {limits : ClassificationLimits} {state state' : PipelineState} {call : Call}
    {event : Option Event} (h : Keyed state) (hEffect : Effect limits state call event state') :
    Keyed state' := by
  have hFile : ∀ (state : PipelineState) (generation : ClassificationGeneration), Keyed state →
      (∀ (wtxid : String) cached, generation.work.classifications[wtxid]? = some cached →
        cached.classification.wtxid = wtxid) → Keyed (state.setGeneration generation) := by
    intro state generation hState hNew id found hFound
    rw [setGeneration_get] at hFound
    split at hFound
    · rw [← Option.some.inj hFound]
      exact hNew
    · exact hState id found hFound
  cases hEffect with
  | idle => exact h
  | @touched _ _ id generation generation' _ hGet hSame =>
    refine hFile state generation' h fun wtxid cached hRecord => ?_
    rw [hSame.classifications] at hRecord
    exact h id generation hGet wtxid cached hRecord
  | read => exact h
  | @installed membership variants id hVariants hId =>
    intro other found hFound wtxid cached hRecord
    simp only [installGeneration, BTreeMap.getElem?_insert_eq] at hFound
    split at hFound
    · obtain rfl := Option.some.inj hFound
      exact carried_keyed h hRecord
    · exact h other found hFound wtxid cached hRecord
  | @merged id generation advance pending state' call' event hGet hCurrent hMerge =>
    obtain ⟨generation', confirmedCache, rfl, -, -, hRecords⟩ :=
      merged_generation (hMerge ▸ merge_spec limits _ advance pending hCurrent)
    refine hFile { state with confirmedCache } generation' (fun id found hFound => h id found hFound)
      fun wtxid cached hRecord => ?_
    rw [hRecords] at hRecord
    rcases (merged_record generation.work advance
      (mergedCaches limits state generation advance) wtxid).1 cached hRecord with hOwn | hOld
    · exact hOwn.2
    · exact h id generation hGet wtxid cached hOld

-- ---------------------------------------------------------------------------
-- Slices of a replaced generation
-- ---------------------------------------------------------------------------

/-- The generation a slice in flight works on. -/
def Call.generation? : Call → Option Nat
  | .awaitingDriver id | .holdingDriver id | .takingPending id | .selecting id
  | .fetchingRaw id _ _ | .admitting id _ _ | .merging id _ _ | .leaving id _ => some id
  | .hydrating working | .hydrated working | .fetchingParents working _ _
  | .askingConfirmed working _ | .fetchingConfirmed working _ | .settling working
  | .recovering working _ | .rehydrating working _ | .rehydrated working _
  | .relieving working _ => some working.generation
  | .installSnapshot _ | .installed _ | .classifyNextForGeneration _ | .returned _ => none

/-- At most the generation `id` has changed. -/
structure Apart (id : Nat) (state state' : PipelineState) : Prop where
  current : state'.current = state.current
  confirmed : state'.confirmedCache = state.confirmedCache
  others : ∀ other, other ≠ id → state'.generations[other]? = state.generations[other]?

omit [BitcoinCrate] in
theorem Apart.refl (id : Nat) (state : PipelineState) : Apart id state state :=
  ⟨rfl, rfl, fun _ _ => rfl⟩

omit [BitcoinCrate] in
theorem Filed.apart {state : PipelineState} (h : Filed state) {id : Nat}
    {generation generation' : ClassificationGeneration}
    (hGet : state.generations[id]? = some generation) (hId : generation'.id = generation.id) :
    Apart id state (state.setGeneration generation') := by
  refine ⟨rfl, rfl, fun other hOther => ?_⟩
  rw [setGeneration_get, if_neg]
  rw [hId, h.id_eq id generation hGet]
  exact Ne.symm hOther

omit [BitcoinCrate] in
theorem hydrate_apart {resolver : ResolverLimits} {state state' : PipelineState}
    {generation : ClassificationGeneration} {working : Working} {next : Working → Call}
    {call' : Call} {event : Option Event} (hOld : state.current ≠ some generation.id)
    (h : hydrate resolver state generation working next = (state', call', event)) :
    state' = state := by
  unfold hydrate at h
  have hNot : state.isCurrent generation.id = false := by
    rw [← Bool.not_eq_true, isCurrent_iff]
    exact hOld
  rw [hNot] at h
  exact (Prod.mk.inj h).1.symm

variable [WireJson] {limits : ClassificationLimits} {state state' : PipelineState}

theorem rawFetchStep_state {id : Nat} {completion : Completion}
    {tasks : FetchTasks ExpectedVariant Transaction}
    {again : FetchTasks ExpectedVariant Transaction → Call} {done call' : Call}
    {event : Option Event}
    (h : rawFetchStep state id completion tasks again done = some (state', call', event)) :
    state' = state := by
  unfold rawFetchStep at h
  split at h
  · exact (Prod.mk.inj (Option.some.inj h)).1.symm
  · obtain ⟨fetched, -, hEq⟩ := Option.map_eq_some_iff.mp h
    exact (Prod.mk.inj hEq).1.symm

theorem confirmedFetchStep_state {id : Nat} {completion : Completion}
    {tasks : FetchTasks OutPoint Script} {again : FetchTasks OutPoint Script → Call}
    {done call' : Call} {event : Option Event}
    (h : confirmedFetchStep state id completion tasks again done = some (state', call', event)) :
    state' = state := by
  unfold confirmedFetchStep at h
  split at h
  · exact (Prod.mk.inj (Option.some.inj h)).1.symm
  · obtain ⟨fetched, -, hEq⟩ := Option.map_eq_some_iff.mp h
    exact (Prod.mk.inj hEq).1.symm

/-- **A slice of another generation keeps to it**: whatever it does next, the current
generation and the confirmed cache are as they were. -/
theorem callStep_apart {completion : Completion} {call call' : Call} {event : Option Event}
    {id : Nat} (hFiled : Filed state) (hGeneration : call.generation? = some id)
    (hOld : state.current ≠ some id)
    (hStep : callStep limits completion state call = some (state', call', event)) :
    Apart id state state' := by
  have hSame : ∀ {action : Action}, some action = some (state', call', event) →
      action.1 = state → Apart id state state' := by
    rintro action hEq rfl
    rw [← (Prod.mk.inj (Option.some.inj hEq.symm)).1]
    exact Apart.refl ..
  cases call with
  | installSnapshot membership => cases hGeneration
  | installed result => cases hGeneration
  | classifyNextForGeneration expected => cases hGeneration
  | returned result => cases hGeneration
  | awaitingDriver id' =>
    obtain rfl := Option.some.inj hGeneration
    obtain ⟨generation, hGet, hStep⟩ := Option.bind_eq_some_iff.mp hStep
    split at hStep
    · cases hStep
    · cases Option.some.inj hStep
      exact hFiled.apart hGet rfl
  | holdingDriver id' => exact hSame hStep rfl
  | takingPending id' =>
    obtain rfl := Option.some.inj hGeneration
    obtain ⟨generation, hGet, hStep⟩ := Option.bind_eq_some_iff.mp hStep
    have hNot : state.isCurrent generation.id = false := by
      rw [hFiled.id_eq _ generation hGet, ← Bool.not_eq_true, isCurrent_iff]
      exact hOld
    unfold takePending at hStep
    rw [hNot] at hStep
    exact hSame hStep rfl
  | selecting id' =>
    obtain rfl := Option.some.inj hGeneration
    obtain ⟨generation, hGet, hStep⟩ := Option.bind_eq_some_iff.mp hStep
    have hEq := Option.some.inj hStep
    simp only [selectCandidates] at hEq
    split at hEq
    · cases hEq
      exact hFiled.apart hGet rfl
    · cases hEq
      exact hFiled.apart hGet rfl
  | fetchingRaw id' advance tasks =>
    rw [rawFetchStep_state hStep]
    exact Apart.refl ..
  | admitting id' advance values =>
    obtain rfl := Option.some.inj hGeneration
    obtain ⟨generation, hGet, hStep⟩ := Option.bind_eq_some_iff.mp hStep
    have hEq := Option.some.inj hStep
    simp only [admitTransactions] at hEq
    split at hEq
    · cases hEq
      exact hFiled.apart hGet rfl
    · cases hEq
      exact hFiled.apart hGet rfl
  | hydrating working =>
    obtain rfl := Option.some.inj hGeneration
    obtain ⟨generation, hGet, hStep⟩ := Option.bind_eq_some_iff.mp hStep
    rw [hydrate_apart (by rw [hFiled.id_eq _ generation hGet]; exact hOld) (Option.some.inj hStep)]
    exact Apart.refl ..
  | hydrated working =>
    obtain ⟨generation, -, hStep⟩ := Option.bind_eq_some_iff.mp hStep
    exact hSame hStep rfl
  | fetchingParents working parentWave tasks =>
    rw [rawFetchStep_state hStep]
    exact Apart.refl ..
  | askingConfirmed working factWavesPaused => exact hSame hStep rfl
  | fetchingConfirmed working tasks =>
    rw [confirmedFetchStep_state hStep]
    exact Apart.refl ..
  | settling working => exact hSame hStep rfl
  | recovering working deferredOnce => exact hSame hStep rfl
  | rehydrating working deferredOnce =>
    obtain rfl := Option.some.inj hGeneration
    obtain ⟨generation, hGet, hStep⟩ := Option.bind_eq_some_iff.mp hStep
    rw [hydrate_apart (by rw [hFiled.id_eq _ generation hGet]; exact hOld) (Option.some.inj hStep)]
    exact Apart.refl ..
  | rehydrated working deferredOnce => exact hSame hStep rfl
  | relieving working deferredOnce =>
    obtain ⟨generation, -, hStep⟩ := Option.bind_eq_some_iff.mp hStep
    exact hSame hStep rfl
  | merging id' advance pending =>
    obtain rfl := Option.some.inj hGeneration
    obtain ⟨generation, hGet, hStep⟩ := Option.bind_eq_some_iff.mp hStep
    have hNot : state.isCurrent generation.id = false := by
      rw [hFiled.id_eq _ generation hGet, ← Bool.not_eq_true, isCurrent_iff]
      exact hOld
    unfold merge at hStep
    rw [hNot] at hStep
    exact hSame hStep rfl
  | leaving id' result =>
    obtain rfl := Option.some.inj hGeneration
    obtain ⟨generation, hGet, hStep⟩ := Option.bind_eq_some_iff.mp hStep
    cases Option.some.inj hStep
    exact hFiled.apart hGet rfl

/-- A merge that comes too late changes nothing, publishes nothing, and says so. -/
theorem callStep_stale {completion : Completion} {call' : Call} {event : Option Event} {id : Nat}
    {advance : ClassificationAdvance} {pending : Option PendingSlice} (hFiled : Filed state)
    (hOld : state.current ≠ some id)
    (hStep : callStep limits completion state (.merging id advance pending) =
      some (state', call', event)) :
    state' = state ∧ event = none ∧
      call' = .leaving id (.report (.staleAfter id advance)) := by
  obtain ⟨generation, hGet, hMerge⟩ := Option.bind_eq_some_iff.mp hStep
  obtain rfl := hFiled.id_eq id generation hGet
  have hNot : state.isCurrent generation.id = false := by
    rw [← Bool.not_eq_true, isCurrent_iff]
    exact hOld
  unfold merge at hMerge
  rw [hNot] at hMerge
  cases Option.some.inj hMerge
  exact ⟨rfl, rfl, rfl⟩

/-- A revision is published by the merge of the current generation, which then holds
each of its records, or a later one of the same revision. -/
theorem revised_held {completion : Completion} {call call' : Call}
    {delta : ClassificationRevisionDelta} (hFiled : Filed state)
    (hStep : callStep limits completion state call = some (state', call', some (.revised delta))) :
    call.generation? = some delta.generation ∧ state.current = some delta.generation ∧
      ∃ generation, state'.generations[delta.generation]? = some generation ∧
        ∀ record ∈ delta.changed, ∃ cached : CachedClassification,
          generation.work.classifications[record.wtxid]? = some cached ∧
          cached.classification ∈ delta.changed := by
  cases callStep_effect hStep with
  | idle hQuiet => exact hQuiet.elim
  | touched hQuiet => exact hQuiet.elim
  | @merged id generation advance pending _ _ _ hGet hCurrent hMerge =>
    obtain rfl := hFiled.id_eq id generation hGet
    have hMerged := merge_spec limits (.production limits.maxAuxiliaryCacheBytes) advance pending
      hCurrent
    rw [hMerge] at hMerged
    obtain ⟨generation', confirmedCache, hState, hId, -, hRecords⟩ := merged_generation hMerged
    generalize hAction : (state', _, some (Event.revised delta)) = action at hMerged
    cases hMerged with
    | overflowed => cases hAction
    | panicked => cases hAction
    | @reported revision stored _ advance' hRevision hStored =>
      have hSame : advance'.classifications = advance.classifications := by
        cases hStored with
        | finished => rfl
        | stored => rfl
      obtain ⟨-, hEvent⟩ := Prod.mk.inj (Prod.mk.inj hAction).2
      obtain ⟨published, hPublished, hDelta⟩ := Option.map_eq_some_iff.mp hEvent.symm
      obtain rfl := Event.revised.inj hDelta
      simp only [mergedReport] at hPublished
      split at hPublished
      · cases hPublished
      · obtain rfl := Option.some.inj hPublished
        refine ⟨rfl, hCurrent, generation', ?_, fun record hMem => ?_⟩
        · rw [hState, setGeneration_get]
          exact if_pos hId
        · obtain ⟨first, hFirst, rfl⟩ := List.mem_map.mp hMem
          rw [hSame] at hFirst ⊢
          obtain ⟨cached, hCached, -, hFound⟩ := (merged_record generation.work advance
            (mergedCaches limits state generation advance) first.classification.wtxid).2.1
            ⟨first, hFirst, rfl⟩
          exact ⟨cached, hRecords ▸ hFound, List.mem_map_of_mem hCached⟩

omit [WireJson] in
/-- A classified variant stays classified in its generation. -/
theorem effect_classified {call : Call} {event : Option Event} (hFiled : Filed state)
    (hEffect : Effect limits state call event state') {id : Nat} {wtxid : String}
    {generation : ClassificationGeneration} (hGet : state.generations[id]? = some generation)
    (hSome : (generation.work.classifications[wtxid]?).isSome) :
    ∃ generation', state'.generations[id]? = some generation' ∧
      (generation'.work.classifications[wtxid]?).isSome := by
  cases hEffect with
  | idle => exact ⟨generation, hGet, hSome⟩
  | @touched _ _ id' before after _ hBefore hSame =>
    rw [setGeneration_get]
    split
    · next hId =>
      refine ⟨after, rfl, ?_⟩
      rw [hSame.id, hFiled.id_eq id' before hBefore] at hId
      subst hId
      obtain rfl : before = generation := Option.some.inj (hBefore.symm.trans hGet)
      rw [hSame.classifications]
      exact hSome
    · exact ⟨generation, hGet, hSome⟩
  | read => exact ⟨generation, hGet, hSome⟩
  | @installed membership variants id' _ hId =>
    obtain ⟨-, rfl⟩ := checkedAdd_eq_some.mp hId
    have hBound := hFiled.id_le id generation hGet
    refine ⟨generation, ?_, hSome⟩
    simp only [installGeneration, BTreeMap.getElem?_insert_eq]
    rw [if_neg (by omega)]
    exact hGet
  | @merged id' before advance pending _ _ _ hBefore hCurrent hMerge =>
    obtain ⟨after, confirmedCache, rfl, hId, -, hRecords⟩ :=
      merged_generation (hMerge ▸ merge_spec limits _ advance pending hCurrent)
    rw [setGeneration_get]
    split
    · next hSame =>
      refine ⟨after, rfl, ?_⟩
      rw [hId, hFiled.id_eq id' before hBefore] at hSame
      subst hSame
      obtain rfl : before = generation := Option.some.inj (hBefore.symm.trans hGet)
      rw [hRecords]
      exact (merged_record before.work advance (mergedCaches limits state before advance)
        wtxid).2.2 hSome
    · exact ⟨generation, hGet, hSome⟩

/-- The current generation's own record of an entry: filed in it, with the identifiers
of the entry. -/
def ClassifiedAs (state : PipelineState) (entry : MempoolEntry) (cached : CachedClassification) :
    Prop :=
  ∃ (id : Nat) (generation : ClassificationGeneration) (key : String),
    state.current = some id ∧ state.generations[id]? = some generation ∧
    generation.work.classifications[key]? = some cached ∧
    cached.classification.txid = entry.txid ∧ cached.classification.wtxid = entry.wtxid

omit [BitcoinCrate] [WireJson] in
/-- The record of a row before an installation. -/
theorem previousRecord_eq_some (hKeyed : Keyed state) {entry : MempoolEntry}
    {cached : CachedClassification} :
    previousRecord state entry = some cached ↔ ClassifiedAs state entry cached := by
  unfold previousRecord ClassifiedAs currentWork carriedRecord
  constructor
  · intro h
    obtain ⟨work, hWork, hRecord⟩ := Option.bind_eq_some_iff.mp h
    obtain ⟨generation, hCurrent, rfl⟩ := Option.map_eq_some_iff.mp hWork
    obtain ⟨id, hId, hGet⟩ := Option.bind_eq_some_iff.mp hCurrent
    obtain ⟨hFound, hTxid⟩ := Option.filter_eq_some_iff.mp hRecord
    exact ⟨id, generation, entry.wtxid, hId, hGet, hFound, by simpa using hTxid,
      hKeyed id generation hGet entry.wtxid cached hFound⟩
  · rintro ⟨id, generation, key, hId, hGet, hFound, hTxid, hWtxid⟩
    have hKey := hKeyed id generation hGet key cached hFound
    rw [hWtxid] at hKey
    subst hKey
    rw [hId, Option.bind_some, hGet, Option.map_some, Option.bind_some, hFound, Option.filter_some,
      if_pos (by simpa using hTxid)]

variable {ι : Type} [DecidableEq ι]

/-- A run keeps generations under their id and records under their variant. -/
theorem filed_keyed_run {w : World ι PipelineState Call} {trace : List (ι × Option Event)}
    (hRun : (system ι limits).Run (Processes.initial (.new limits)) trace w) :
    Filed w.shared ∧ Keyed w.shared := by
  induction hRun with
  | refl => exact ⟨filed_new limits, fun id generation hGet => by
      simp [Processes.initial, PipelineState.new] at hGet⟩
  | tail _ hStep ih =>
    cases hStep with
    | start => exact ih
    | act _ hAct =>
      obtain ⟨completion, hCall⟩ := hAct
      have hEffect := callStep_effect hCall
      exact ⟨ih.1.effect hEffect, ih.2.effect hEffect⟩

/-- **Replacing a generation** is isolated and lossless. In any interleaving of
installations and slices: a step of a slice whose generation is not the current one
leaves the current generation and the confirmed cache as they are, publishes nothing,
and when it merges reports that it is stale; an installation hands over, for each entry
of its membership and for no other, what the generation it replaces holds for it at that
moment, and finds work left when some entry has no record or a retryable one; what a
revision published is held by then, and nothing that is held is lost before. -/
theorem generation_replacement (limits : ClassificationLimits) {w w' : World ι PipelineState Call}
    {trace : List (ι × Option Event)} {i : ι} {event : Option Event}
    (hRun : (system ι limits).Run (Processes.initial (.new limits)) trace w)
    (hStep : (system ι limits).Step w (i, event) w') :
    (∀ call id, w.procs i = some call → call.generation? = some id →
      w.shared.current ≠ some id →
        Apart id w.shared w'.shared ∧ (∀ delta, event ≠ some (.revised delta)) ∧
        ∀ advance pending, call = .merging id advance pending →
          w'.shared = w.shared ∧ event = none ∧
            w'.procs i = some (.leaving id (.report (.staleAfter id advance)))) ∧
    (∀ start, event = some (.installed start) →
      w.procs i = some (.installSnapshot start.membership) ∧ start.revision = 0 ∧
      w'.shared.current = some start.generation ∧
      ((start.membership.transactions.map MempoolEntry.txid).Nodup →
        (start.membership.transactions.map MempoolEntry.wtxid).Nodup →
        (∀ entry ∈ start.membership.transactions, ∀ record,
          start.classifications[entry.txid]? = some record ↔
            ∃ cached, ClassifiedAs w.shared entry cached ∧ cached.classification = record) ∧
        (∀ txid, (∀ entry ∈ start.membership.transactions, entry.txid ≠ txid) →
          start.classifications[txid]? = none) ∧
        (start.hasEligibleWork = true ↔ ∃ entry ∈ start.membership.transactions,
          ∀ cached, ClassifiedAs w.shared entry cached → cached.retryable = true))) ∧
    (∀ delta, event = some (.revised delta) → w'.shared.current = some delta.generation ∧
      ∃ generation, w'.shared.generations[delta.generation]? = some generation ∧
        ∀ record ∈ delta.changed, ∃ cached : CachedClassification,
          generation.work.classifications[record.wtxid]? = some cached ∧
          cached.classification ∈ delta.changed) ∧
    ∀ (id : Nat) generation (wtxid : String), w.shared.generations[id]? = some generation →
      (generation.work.classifications[wtxid]?).isSome →
      ∃ generation', w'.shared.generations[id]? = some generation' ∧
        (generation'.work.classifications[wtxid]?).isSome := by
  obtain ⟨hFiled, hKeyed⟩ := filed_keyed_run hRun
  cases hStep with
  | start hFree hStarts =>
    refine ⟨fun call id hLocal => ?_, fun start hEvent => ?_, fun delta hEvent => ?_,
      fun id generation wtxid hGet hSome => ⟨generation, hGet, hSome⟩⟩
    · rw [hFree] at hLocal
      cases hLocal
    · cases hEvent
    · cases hEvent
  | @act _ call call' _ state' hLocal hAct =>
    obtain ⟨completion, hCall⟩ := hAct
    have hEffect := callStep_effect hCall
    refine ⟨fun found id hFound hGeneration hOld => ?_, ?_, ?_,
      fun id generation wtxid hGet hSome => effect_classified hFiled hEffect hGet hSome⟩
    · obtain rfl : call = found := Option.some.inj (hLocal.symm.trans hFound)
      refine ⟨callStep_apart hFiled hGeneration hOld hCall, ?_, ?_⟩
      · rintro delta rfl
        obtain ⟨hSame, hCurrent, -⟩ := revised_held hFiled hCall
        rw [hGeneration, Option.some.injEq] at hSame
        exact hOld (hSame ▸ hCurrent)
      · rintro advance pending rfl
        obtain ⟨rfl, rfl, rfl⟩ := callStep_stale hFiled hOld hCall
        exact ⟨rfl, rfl, Function.update_self ..⟩
    · rintro start rfl
      cases hEffect with
      | idle hQuiet => exact hQuiet.elim
      | touched hQuiet => exact hQuiet.elim
      | @merged id generation advance pending _ _ _ hGet hCurrent hMerge =>
        have hMerged := merge_spec limits (.production limits.maxAuxiliaryCacheBytes) advance
          pending hCurrent
        rw [hMerge] at hMerged
        generalize hAction : (_, _, some (Event.installed start)) = action at hMerged
        cases hMerged with
        | overflowed => cases hAction
        | panicked => cases hAction
        | reported =>
          obtain ⟨-, hEvent⟩ := Prod.mk.inj (Prod.mk.inj hAction).2
          obtain ⟨published, -, hNot⟩ := Option.map_eq_some_iff.mp hEvent.symm
          cases hNot
      | @installed membership variants id hVariants hId =>
        refine ⟨hLocal, rfl, rfl, fun hTxids hWtxids => ?_⟩
        obtain ⟨hCached, hClassifications, hNone⟩ := @carry_spec _ w.shared membership hTxids hWtxids
        refine ⟨fun entry hMem record => ?_, hNone, ?_⟩
        · show (carry (currentWork w.shared) membership).classifications[entry.txid]? = _ ↔ _
          rw [hClassifications entry hMem, Option.map_eq_some_iff]
          exact exists_congr fun cached => and_congr_left fun _ => previousRecord_eq_some hKeyed
        · show membership.transactions.any
            (isUnsettled (carry (currentWork w.shared) membership).cached) = true ↔ _
          rw [List.any_eq_true]
          refine exists_congr fun entry => and_congr_right fun hMem => ?_
          rw [isUnsettled, hCached entry hMem, Option.all_eq_true]
          exact forall_congr' fun cached =>
            imp_congr_left (previousRecord_eq_some hKeyed)
    · rintro delta rfl
      obtain ⟨-, hCurrent, hHeld⟩ := revised_held hFiled hCall
      refine ⟨?_, hHeld⟩
      cases hEffect with
      | idle hQuiet => exact hQuiet.elim
      | touched hQuiet => exact hQuiet.elim
      | @merged id generation advance pending _ _ _ hGet hIs hMerge =>
        obtain ⟨after, confirmedCache, rfl, -⟩ :=
          merged_generation (hMerge ▸ merge_spec limits _ advance pending hIs)
        exact hCurrent

end Crate

/-- The payment's membership. -/
def replacedMembership : MempoolSnapshot :=
  Reference.membershipOf [Reference.entryOf MempoolAtlas.Reference.payment]

/-- The generation an event begins. -/
def Event.start : Event → Option ClassificationGenerationStart
  | .installed start => some start
  | _ => none

/-- An event with a start is an installation. -/
theorem Event.eq_of_start {event : Event} {start : ClassificationGenerationStart}
    (h : event.start = some start) : event = .installed start := by
  cases event with
  | installed begun => rw [Option.some.inj h]
  | _ => cases h

/-- A second installation of the payment's membership takes over its record. -/
theorem generation_replacement_payment :
    let _ := MempoolAtlas.Reference.crate [MempoolAtlas.Reference.payment]
    let _ := Reference.json [MempoolAtlas.Reference.payment.hex, "51"]
    ∃ (state : PipelineState) (start : ClassificationGenerationStart)
      (record : TransactionClassification) (cached : CachedClassification),
      start.membership = replacedMembership ∧
      start.classifications[(Reference.entryOf MempoolAtlas.Reference.payment).txid]? =
        some record ∧
      ClassifiedAs state (Reference.entryOf MempoolAtlas.Reference.payment) cached ∧
      cached.classification = record := by
  intro _ _
  have hPlay : (Reference.play Reference.limits Reference.paymentMoves).any (fun played =>
      played.calls.length == 2 &&
        ((installSnapshot Reference.limits played.state replacedMembership).2.2.bind
          Event.start).any fun start => (start.classifications[
            (Reference.entryOf MempoolAtlas.Reference.payment).txid]?).isSome) = true := by
    decide +kernel
  obtain ⟨played, hPlayed, hInstalls⟩ := (Option.any_eq_true ..).mp hPlay
  obtain ⟨hLength, hInstalls⟩ := Bool.and_eq_true_iff.mp hInstalls
  have hTwo : played.calls.length = 2 := by simpa using hLength
  generalize hAction : installSnapshot Reference.limits played.state replacedMembership = action
    at hInstalls
  obtain ⟨state', call', made⟩ := action
  obtain ⟨start, hStart, hInstalls⟩ := (Option.any_eq_true ..).mp hInstalls
  obtain ⟨event, hMade, hStart⟩ := Option.bind_eq_some_iff.mp hStart
  obtain rfl := Event.eq_of_start hStart
  obtain rfl : made = some (.installed start) := hMade
  obtain ⟨record, hRecord⟩ := Option.isSome_iff_exists.mp hInstalls
  have hRun := (Reference.play_run hPlayed).crew_start
    (Call.IsCall.installSnapshot replacedMembership)
  have hLocal : (played.calls ++ [Call.installSnapshot replacedMembership])[2]? =
      some (.installSnapshot replacedMembership) := by
    rw [← hTwo, List.getElem?_concat_length]
  have hStep := Step.crew_act hLocal
    (show (system Nat Reference.limits).step 2 played.state _ _ state' call' from
      ⟨⟨0, .joinError⟩, congrArg some hAction⟩)
  obtain ⟨-, hInstalled, -⟩ := generation_replacement Reference.limits hRun hStep
  obtain ⟨hCall, -, -, hHandoff⟩ := hInstalled start rfl
  have hSame : start.membership = replacedMembership := by
    have hBoth := hCall.symm.trans hLocal
    exact Call.installSnapshot.inj (Option.some.inj hBoth)
  obtain ⟨hExact, -⟩ := hHandoff (by rw [hSame]; simp [replacedMembership, Reference.membershipOf])
    (by rw [hSame]; simp [replacedMembership, Reference.membershipOf])
  obtain ⟨cached, hClassified, hEq⟩ := (hExact
    (Reference.entryOf MempoolAtlas.Reference.payment)
    (by rw [hSame]; exact List.mem_singleton_self _) record).mp hRecord
  exact ⟨_, start, record, cached, hSame, hRecord, hClassified, hEq⟩

end MempoolAtlas.Classification
