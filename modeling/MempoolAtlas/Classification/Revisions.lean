import MempoolAtlas.Lib.Indexes
import MempoolAtlas.Classification.Replacement
import MempoolAtlas.Classification.Soundness

/-!
# Revisions of a generation

A generation stands at a revision with its records. An installation begins one at
revision zero with what it carries; the merge of a slice that classified something
raises the revision by one and reports the delta that leads to it; nothing else moves
either.

## Results

* `installGeneration_standing` — the standing an installation gives.
* `callStep_sliceMove` — a slice in flight goes on, ends, or merges.
-/

namespace MempoolAtlas.Classification

open Machine Model Indexes

/-- What a generation stands at. -/
structure Standing where
  membership : MempoolSnapshot
  revision : Nat
  records : BTreeMap String CachedClassification

/-- Where a generation stands: its revision and its records. -/
def ClassificationGeneration.standing (generation : ClassificationGeneration) : Standing where
  membership := generation.membership
  revision := generation.work.revision
  records := generation.work.classifications

/-- Where a generation of the pipeline stands. -/
def PipelineState.standing (state : PipelineState) (id : Nat) : Option Standing :=
  state.generations[id]?.map ClassificationGeneration.standing

/-- The record is of an entry of the membership, under both its identifiers. -/
def IsEntry (membership : MempoolSnapshot) (record : TransactionClassification) : Prop :=
  ∃ entry ∈ membership.transactions, entry.txid = record.txid ∧ entry.wtxid = record.wtxid

/-- No two rows have one identifier. -/
structure DistinctEntries (membership : MempoolSnapshot) : Prop where
  txids : (membership.transactions.map MempoolEntry.txid).Nodup
  wtxids : (membership.transactions.map MempoolEntry.wtxid).Nodup

/-- The pipeline's records of a membership, each under its own witness identifier. -/
abbrev FiledFor (membership : MempoolSnapshot) (records : BTreeMap String CachedClassification) :
    Prop :=
  FiledBy TransactionClassification.wtxid CachedClassification.classification (IsEntry membership)
    records

/-- A map under txids holds what the pipeline holds under witness identifiers. -/
abbrev SameClassifications (classifications : TransactionClassifications)
    (records : BTreeMap String CachedClassification) : Prop :=
  SameRecords TransactionClassification.txid CachedClassification.classification classifications
    records

/-- Distinct rows make their records interchangeable under either identifier. -/
theorem DistinctEntries.interchangeable {membership : MempoolSnapshot}
    (h : DistinctEntries membership) : Interchangeable TransactionClassification.txid
      TransactionClassification.wtxid (IsEntry membership) := by
  rintro record record' ⟨entry, hMem, hTxid, hWtxid⟩ ⟨entry', hMem', hTxid', hWtxid'⟩
  rw [← hTxid, ← hTxid', ← hWtxid, ← hWtxid']
  constructor
  · intro hEq
    rw [List.inj_on_of_nodup_map h.txids hMem hMem' hEq]
  · intro hEq
    rw [List.inj_on_of_nodup_map h.wtxids hMem hMem' hEq]

/-- No generation has moved. -/
structure SameStandings (state state' : PipelineState) : Prop where
  current : state'.current = state.current
  standing : ∀ id, state'.standing id = state.standing id

theorem SameStandings.refl (state : PipelineState) : SameStandings state state :=
  ⟨rfl, fun _ => rfl⟩

/-- A generation only goes up, and keeps its records while its revision stays. -/
structure Follows (before after : Standing) : Prop where
  membership : after.membership = before.membership
  revision : before.revision ≤ after.revision
  records : after.revision = before.revision → before.revision < u64Max →
    after.records = before.records

theorem Follows.refl (standing : Standing) : Follows standing standing :=
  ⟨rfl, le_rfl, fun _ _ => rfl⟩

/-- Every generation stays, and follows what it was. -/
structure MovesOn (state state' : PipelineState) : Prop where
  stays : ∀ (id : Nat) standing, state.standing id = some standing →
    ∃ standing', state'.standing id = some standing' ∧ Follows standing standing'

/-- The standing a merge leaves. -/
def Standing.after (standing : Standing) (left : Nat) (batch : List CachedClassification) :
    Standing where
  membership := standing.membership
  revision := left
  records := batch.foldl (fun records cached =>
    records.insert cached.classification.wtxid cached) standing.records

/-- Setting a generation changes its standing alone. -/
theorem setGeneration_standing (state : PipelineState) (generation : ClassificationGeneration)
    (id : Nat) : (state.setGeneration generation).standing id =
      if generation.id = id then some generation.standing else state.standing id := by
  unfold PipelineState.standing
  rw [setGeneration_get]
  split <;> rfl

theorem standing_get {state : PipelineState} {id : Nat} {generation : ClassificationGeneration}
    (hGet : state.generations[id]? = some generation) :
    state.standing id = some generation.standing := by
  rw [PipelineState.standing, hGet, Option.map_some]

theorem Filed.sameStandings {state : PipelineState} (h : Filed state) {id : Nat}
    {generation generation' : ClassificationGeneration}
    (hGet : state.generations[id]? = some generation) (hSame : SameResults generation generation') :
    SameStandings state (state.setGeneration generation') := by
  refine ⟨rfl, fun other => ?_⟩
  rw [setGeneration_standing]
  split
  · next hEq =>
    rw [hSame.id, h.id_eq id generation hGet] at hEq
    subst hEq
    rw [standing_get hGet, ClassificationGeneration.standing, ClassificationGeneration.standing,
      hSame.membership, hSame.revision, hSame.classifications]
  · rfl

-- ---------------------------------------------------------------------------
-- Installations
-- ---------------------------------------------------------------------------

section Crate

variable [BitcoinCrate]

/-- An installation gives the new generation its standing. -/
theorem installGeneration_standing (limits : ClassificationLimits) (state : PipelineState)
    (membership : MempoolSnapshot) (variants : BTreeMap Txid CurrentVariant) (id other : Nat) :
    (installGeneration limits state membership variants id).1.standing other =
      if id = other then some ⟨membership, 0, (carry (currentWork state) membership).cached⟩
      else state.standing other := by
  unfold PipelineState.standing
  simp only [installGeneration, BTreeMap.getElem?_insert_eq]
  split <;> rfl

/-- What an installation carries is of its entries, filed as the pipeline files. -/
theorem carried_filedFor {state : PipelineState} (hKeyed : Keyed state)
    (membership : MempoolSnapshot) :
    FiledFor membership (carry (currentWork state) membership).cached := by
  intro wtxid cached hGet
  have hKey := carried_keyed hKeyed hGet
  refine ⟨hKey, ?_⟩
  cases hWork : currentWork state with
  | none =>
    rw [hWork] at hGet
    simp [carry] at hGet
  | some previous =>
    rw [hWork] at hGet
    rw [carry, (carry_fold previous membership.transactions {}).1] at hGet
    rcases BTreeMap.of_getElem?_foldl_insert hGet with hMem | hNone
    · obtain ⟨⟨entry, record⟩, hFound, hEq⟩ := List.mem_map.mp hMem
      obtain ⟨rfl, rfl⟩ := Prod.mk.inj hEq
      obtain ⟨hEntry, hRecord⟩ := mem_carriedRecords.mp hFound
      obtain ⟨-, hTxid⟩ := Option.filter_eq_some_iff.mp hRecord
      exact ⟨entry, hEntry, (by simpa using hTxid : _ = entry.txid).symm, hKey.symm⟩
    · simp at hNone

/-- **The map an installation hands over** holds the records it begins with. -/
theorem carried_same {state : PipelineState} (hKeyed : Keyed state) {membership : MempoolSnapshot}
    (hDistinct : DistinctEntries membership) :
    SameClassifications (carry (currentWork state) membership).classifications
      (carry (currentWork state) membership).cached := by
  obtain ⟨hCached, hClassifications, hNone⟩ :=
    @carry_spec _ state membership hDistinct.txids hDistinct.wtxids
  have hFiled := carried_filedFor hKeyed membership
  intro txid record
  constructor
  · intro hGet
    by_cases hEntry : ∃ entry ∈ membership.transactions, entry.txid = txid
    · obtain ⟨entry, hMem, rfl⟩ := hEntry
      rw [hClassifications entry hMem] at hGet
      obtain ⟨cached, hPrevious, rfl⟩ := Option.map_eq_some_iff.mp hGet
      refine ⟨?_, entry.wtxid, cached, (hCached entry hMem).trans hPrevious, rfl⟩
      obtain ⟨work, -, hRecord⟩ := Option.bind_eq_some_iff.mp hPrevious
      obtain ⟨-, hTxid⟩ := Option.filter_eq_some_iff.mp hRecord
      simpa using hTxid
    · rw [hNone txid fun entry hMem hEq => hEntry ⟨entry, hMem, hEq⟩] at hGet
      cases hGet
  · rintro ⟨rfl, wtxid, cached, hGet, rfl⟩
    obtain ⟨hWtxid, entry, hMem, hTxid, hEntry⟩ := hFiled wtxid cached hGet
    rw [← hTxid, hClassifications entry hMem, ← hCached entry hMem, hEntry, hWtxid, hGet]
    rfl

-- ---------------------------------------------------------------------------
-- Slices
-- ---------------------------------------------------------------------------

/-- The delta an ended slice hands over. -/
def SliceEnd.publication : SliceEnd → Option ClassificationRevisionDelta
  | .report sliceReport => sliceReport.publication
  | _ => none

/-- The delta that a call ends with. -/
def Call.publication : Call → Option ClassificationRevisionDelta
  | .leaving _ result | .returned result => result.publication
  | _ => none

/-- The end of a slice that has one. -/
def Call.ended : Call → Option SliceEnd
  | .leaving _ result | .returned result => some result
  | _ => none

omit [BitcoinCrate] in
theorem Call.publication_eq (call : Call) :
    call.publication = call.ended.bind SliceEnd.publication := by
  cases call <;> rfl

/-- How the merge of a slice that classified `batch` ends, and the revision it leaves. -/
inductive MergeEnds (generation revision : Nat) (batch : List CachedClassification) :
    Nat → SliceEnd → Prop
  | unrevised {report : ClassificationSliceReport} (hBatch : batch = [])
      (hReport : report.publication = none) :
      MergeEnds generation revision batch revision (.report report)
  | revised {report : ClassificationSliceReport} (hBatch : batch ≠ [])
      (hRevision : revision + 1 ≤ u64Max)
      (hReport : report.publication = some {
        generation, revision := revision + 1
        changed := batch.map CachedClassification.classification })
      (hGeneration : report.generation = generation) (hDisposition : report.disposition ≠ .stale) :
      MergeEnds generation revision batch (revision + 1) (.report report)
  | overflowed (error : ClassificationError) (hRevision : u64Max < revision + 1) :
      MergeEnds generation revision batch revision (.error error)
  | panicked {left : Nat} (panic : Panic)
      (hLeft : left = revision ∧ batch = [] ∨ left = revision + 1) :
      MergeEnds generation revision batch left (.panic panic)

omit [BitcoinCrate] in
/-- What a merge ends with follows the standing before it. -/
theorem MergeEnds.follows {generation left : Nat} {standing : Standing}
    {batch : List CachedClassification} {result : SliceEnd}
    (h : MergeEnds generation standing.revision batch left result) :
    Follows standing (standing.after left batch) where
  membership := rfl
  revision := by
    cases h with
    | unrevised | overflowed => exact le_rfl
    | revised => exact Nat.le_succ _
    | panicked panic hLeft =>
      rcases hLeft with ⟨rfl, -⟩ | rfl
      · exact le_rfl
      · exact Nat.le_succ _
  records hSame hLt := by
    have hSame : left = standing.revision := hSame
    cases h with
    | unrevised hBatch =>
      rw [hBatch]
      rfl
    | revised => omega
    | overflowed => omega
    | panicked panic hLeft =>
      rcases hLeft with ⟨-, hBatch⟩ | hLeft
      · rw [hBatch]
        rfl
      · omega

/-- What one action of a slice of `generation` does to what the generations stand at. -/
inductive SliceMove (generation : Nat) (state : PipelineState) (call : Call) :
    PipelineState → Call → Prop
  | goes {state' : PipelineState} {call' : Call} (hEnded : call.ended = none)
      (hSame : SameStandings state state') (hCall : call'.generation? = some generation)
      (hNone : call'.publication = none) :
      SliceMove generation state call state' call'
  | ended {state' : PipelineState} {result : SliceEnd} (hSame : SameStandings state state')
      (hCall : call = .leaving generation result) :
      SliceMove generation state call state' (.returned result)
  | merged {state' : PipelineState} {standing : Standing} {batch : List CachedClassification}
      {left : Nat} {result : SliceEnd} (hCall : call.ended = none)
      (hStanding : state.standing generation = some standing)
      (hCurrent : state.current = some generation) (hCurrent' : state'.current = state.current)
      (hBatch : ∀ cached ∈ batch, IsEntry standing.membership cached.classification)
      (hStanding' : ∀ id, state'.standing id =
        if generation = id then some (standing.after left batch) else state.standing id)
      (hEnds : MergeEnds generation standing.revision batch left result) :
      SliceMove generation state call state' (.leaving generation result)

variable [WireJson] {history : List Event}

theorem WasEvaluated.isEntry {generation : Nat}
    {membership : MempoolSnapshot} {cached : CachedClassification}
    (h : WasEvaluated history generation membership cached) :
    IsEntry membership cached.classification := by
  obtain ⟨expected, transaction, facts, prevouts, hEvaluated⟩ := h
  obtain ⟨entry, hMem, rfl⟩ := hEvaluated.candidate.entry
  refine ⟨entry, hMem, ?_, ?_⟩
  · rw [hEvaluated.classification]
    rfl
  · rw [hEvaluated.classification]
    rfl

omit [BitcoinCrate] [WireJson] in
/-- How a merge of the current generation ends. -/
theorem Merged.ends {limits : ClassificationLimits} {resolver : ResolverLimits}
    {state state' : PipelineState} {generation : ClassificationGeneration}
    {advance : ClassificationAdvance} {pending : Option PendingSlice} {call' : Call}
    {event : Option Event}
    (h : Merged limits resolver state generation advance pending (state', call', event)) :
    state'.current = state.current ∧ ∃ left result, call' = .leaving generation.id result ∧
      MergeEnds generation.id generation.work.revision advance.classifications left result ∧
      ∀ id, state'.standing id =
        if generation.id = id then some (generation.standing.after left advance.classifications)
        else state.standing id := by
  cases h with
  | overflowed hRevision =>
    refine ⟨rfl, _, _, rfl, .overflowed .generationOverflow ?_, setGeneration_standing _ _⟩
    unfold nextRevision at hRevision
    split at hRevision
    · cases hRevision
    · refine not_le.mp fun hBound => ?_
      rw [checkedAdd_eq_some.mpr ⟨hBound, rfl⟩] at hRevision
      cases hRevision
  | @panicked revision candidates panic hRevision =>
    refine ⟨rfl, _, _, rfl, .panicked panic ?_, setGeneration_standing _ _⟩
    unfold nextRevision at hRevision
    split at hRevision
    · next hEmpty => exact Or.inl ⟨(Option.some.inj hRevision).symm, List.isEmpty_iff.mp hEmpty⟩
    · exact Or.inr (checkedAdd_eq_some.mp hRevision).2
  | @reported revision stored confirmedCache advance' hRevision hStored =>
    have hSame : advance'.classifications = advance.classifications := by
      cases hStored with
      | finished => rfl
      | stored => rfl
    have hDisposition : ∀ systemicFailure remaining,
        dispositionOf systemicFailure remaining ≠ .stale := by
      intro systemicFailure remaining
      unfold dispositionOf
      split
      · exact fun hEq => by cases hEq
      · split <;> exact fun hEq => by cases hEq
    refine ⟨rfl, revision, _, rfl, ?_, setGeneration_standing _ _⟩
    unfold nextRevision at hRevision
    split at hRevision
    · next hEmpty =>
      obtain rfl := Option.some.inj hRevision
      refine .unrevised (List.isEmpty_iff.mp hEmpty) ?_
      simp only [mergedReport, hSame, hEmpty, if_true]
      rfl
    · next hSome =>
      obtain ⟨hBound, rfl⟩ := checkedAdd_eq_some.mp hRevision
      refine .revised (fun hNil => hSome (List.isEmpty_iff.mpr hNil)) hBound ?_ rfl
        (hDisposition _ _)
      simp only [mergedReport, hSame, hSome]
      rfl

/-- A slice that goes on with its own generation and has reported nothing. -/
def Call.GoesOn (generation : Nat) (call : Call) : Prop :=
  call.generation? = some generation ∧ call.publication = none

omit [WireJson] in
theorem goesOn_classifyReady {working : Working} {next : Working → Call × Option Event}
    (hNext : ∀ working' : Working, working'.generation = working.generation →
      (next working').1.GoesOn working.generation) :
    (classifyReady working next).1.GoesOn working.generation := by
  unfold classifyReady
  split
  · exact ⟨rfl, rfl⟩
  · exact hNext _ rfl

omit [WireJson] in
theorem goesOn_askParents (limits : ClassificationLimits) (resolver : ResolverLimits)
    (variants : BTreeMap Txid CurrentVariant) (working : Working) :
    (askParents limits resolver variants working).1.GoesOn working.generation := by
  simp only [askParents]
  split <;> (split <;> exact ⟨rfl, rfl⟩)

omit [BitcoinCrate] [WireJson] in
theorem goesOn_askConfirmed (limits : ClassificationLimits) (resolver : ResolverLimits)
    (working : Working) (factWavesPaused : Bool) :
    (askConfirmed limits resolver working factWavesPaused).1.GoesOn working.generation := by
  simp only [askConfirmed]
  split <;> (split <;> exact ⟨rfl, rfl⟩)

omit [BitcoinCrate] [WireJson] in
theorem goesOn_relieve (resolver : ResolverLimits) (variants : BTreeMap Txid CurrentVariant)
    (working : Working) (deferredOnce : Bool) :
    (relieve resolver variants working deferredOnce).GoesOn working.generation := by
  simp only [relieve]
  split
  · exact ⟨rfl, rfl⟩
  · split <;> exact ⟨rfl, rfl⟩

omit [BitcoinCrate] [WireJson] in
theorem applyConfirmed_generation (resolver : ResolverLimits)
    (values : List (OutPoint × RpcValue Script)) (working : Working) :
    (values.foldl (applyConfirmed resolver) working).generation = working.generation := by
  induction values generalizing working with
  | nil => rfl
  | cons value rest ih => exact ih (applyConfirmed resolver working value)

omit [BitcoinCrate] [WireJson] in
theorem goesOn_hydrate {resolver : ResolverLimits} {state : PipelineState}
    {generation : ClassificationGeneration} {working : Working} {next : Working → Call}
    (hId : generation.id = working.generation)
    (hNext : ∀ working' : Working, working'.generation = working.generation →
      (next working').GoesOn working.generation) :
    (hydrate resolver state generation working next).2.1.GoesOn working.generation := by
  unfold hydrate
  split
  · exact ⟨rfl, rfl⟩
  · split
    · exact ⟨congrArg some hId, rfl⟩
    · exact hNext _ rfl

theorem rawFetchStep_call {state state' : PipelineState} {id : Nat} {completion : Completion}
    {tasks : FetchTasks ExpectedVariant Transaction}
    {again : FetchTasks ExpectedVariant Transaction → Call} {done call' : Call}
    {event : Option Event}
    (h : rawFetchStep state id completion tasks again done = some (state', call', event)) :
    call' = done ∨ ∃ tasks', call' = again tasks' := by
  unfold rawFetchStep at h
  split at h
  · exact Or.inl (Prod.mk.inj (Prod.mk.inj (Option.some.inj h)).2).1.symm
  · obtain ⟨fetched, -, hEq⟩ := Option.map_eq_some_iff.mp h
    exact Or.inr ⟨_, (Prod.mk.inj (Prod.mk.inj hEq).2).1.symm⟩

theorem confirmedFetchStep_call {state state' : PipelineState} {id : Nat}
    {completion : Completion} {tasks : FetchTasks OutPoint Script}
    {again : FetchTasks OutPoint Script → Call} {done call' : Call} {event : Option Event}
    (h : confirmedFetchStep state id completion tasks again done = some (state', call', event)) :
    call' = done ∨ ∃ tasks', call' = again tasks' := by
  unfold confirmedFetchStep at h
  split at h
  · exact Or.inl (Prod.mk.inj (Prod.mk.inj (Option.some.inj h)).2).1.symm
  · obtain ⟨fetched, -, hEq⟩ := Option.map_eq_some_iff.mp h
    exact Or.inr ⟨_, (Prod.mk.inj (Prod.mk.inj hEq).2).1.symm⟩

variable {limits : ClassificationLimits} {state state' : PipelineState}

omit [WireJson] in
/-- Only installations and merges move a generation. -/
theorem Effect.sameStandings {call : Call} {event : Option Event}
    (h : Effect limits state call event state') (hFiled : Filed state)
    (hInstall : ∀ membership, call ≠ .installSnapshot membership)
    (hMerge : ∀ id advance pending, call = .merging id advance pending →
      state.current ≠ some id) : SameStandings state state' := by
  cases h with
  | idle => exact .refl state
  | touched _ hGet hSame => exact hFiled.sameStandings hGet hSame
  | read => exact ⟨rfl, fun _ => rfl⟩
  | installed => exact absurd rfl (hInstall _)
  | merged hGet hCurrent =>
    rw [hFiled.id_eq _ _ hGet] at hCurrent
    exact absurd hCurrent (hMerge _ _ _ rfl)

/-- **What a slice in flight does next**: it goes on, it ends, or it merges. -/
theorem callStep_sliceMove {completion : Completion} {call call' : Call} {event : Option Event}
    {generation : Nat} (h : PipelineSound limits history state)
    (hCall : CallSound history state call) (hGeneration : call.generation? = some generation)
    (hStep : callStep limits completion state call = some (state', call', event)) :
    SliceMove generation state call state' call' := by
  have hFiled := h.toFiled
  have hEffect := callStep_effect hStep
  have hSame : (∀ id advance pending, call = .merging id advance pending →
      state.current ≠ some id) → SameStandings state state' :=
    hEffect.sameStandings hFiled fun membership hEq => by
      subst hEq
      cases hGeneration
  have hOf : ∀ {action : Action}, some action = some (state', call', event) →
      action.2.1.GoesOn generation → (∀ id advance pending, call ≠ .merging id advance pending) →
      call.ended = none → SliceMove generation state call state' call' := by
    rintro action hEq hGoes hMerge hEnded
    rw [Option.some.inj hEq] at hGoes
    exact .goes hEnded (hSame fun _ _ _ hCall => absurd hCall (hMerge _ _ _)) hGoes.1 hGoes.2
  cases call with
  | installSnapshot membership => cases hGeneration
  | installed result => cases hGeneration
  | classifyNextForGeneration expected => cases hGeneration
  | returned result => cases hGeneration
  | awaitingDriver id =>
    obtain ⟨filed, -, hNext⟩ := Option.bind_eq_some_iff.mp hStep
    split at hNext
    · cases hNext
    · exact hOf hNext ⟨hGeneration, rfl⟩ (fun _ _ _ hEq => by cases hEq) rfl
  | holdingDriver id =>
    refine hOf hStep ?_ (fun _ _ _ hEq => by cases hEq) rfl
    dsimp only
    split <;> exact ⟨hGeneration, rfl⟩
  | takingPending id =>
    obtain ⟨filed, hGet, hNext⟩ := Option.bind_eq_some_iff.mp hStep
    obtain rfl := hFiled.id_eq id filed hGet
    refine hOf hNext ?_ (fun _ _ _ hEq => by cases hEq) rfl
    unfold takePending
    split
    · exact ⟨hGeneration, rfl⟩
    · split <;> exact ⟨hGeneration, rfl⟩
  | selecting id =>
    obtain ⟨filed, hGet, hNext⟩ := Option.bind_eq_some_iff.mp hStep
    obtain rfl := hFiled.id_eq id filed hGet
    refine hOf hNext ?_ (fun _ _ _ hEq => by cases hEq) rfl
    simp only [selectCandidates]
    split <;> exact ⟨hGeneration, rfl⟩
  | fetchingRaw id advance tasks =>
    refine .goes rfl (hSame fun _ _ _ hEq => by cases hEq) ?_ ?_ <;>
      rcases rawFetchStep_call hStep with hDone | ⟨_, hAgain⟩
    · rw [hDone]
      split <;> exact hGeneration
    · rw [hAgain]
      exact hGeneration
    · rw [hDone]
      split <;> rfl
    · rw [hAgain]
      rfl
  | admitting id advance values =>
    obtain ⟨filed, hGet, hNext⟩ := Option.bind_eq_some_iff.mp hStep
    obtain rfl := hFiled.id_eq id filed hGet
    refine hOf hNext ?_ (fun _ _ _ hEq => by cases hEq) rfl
    simp only [admitTransactions]
    split <;> exact ⟨hGeneration, rfl⟩
  | hydrating working =>
    obtain ⟨filed, hGet, hNext⟩ := Option.bind_eq_some_iff.mp hStep
    obtain rfl := Option.some.inj hGeneration
    exact hOf hNext (goesOn_hydrate (hFiled.id_eq _ filed hGet) fun working' hSameId =>
      ⟨congrArg some hSameId, rfl⟩) (fun _ _ _ hEq => by cases hEq) rfl
  | hydrated working =>
    obtain ⟨filed, hGet, hNext⟩ := Option.bind_eq_some_iff.mp hStep
    obtain rfl := Option.some.inj hGeneration
    exact hOf hNext (goesOn_classifyReady fun working' hSameId =>
      hSameId ▸ goesOn_askParents ..) (fun _ _ _ hEq => by cases hEq) rfl
  | fetchingParents working parentWave tasks =>
    refine .goes rfl (hSame fun _ _ _ hEq => by cases hEq) ?_ ?_ <;>
      rcases rawFetchStep_call hStep with hDone | ⟨_, hAgain⟩
    · rw [hDone]
      split <;> exact hGeneration
    · rw [hAgain]
      exact hGeneration
    · rw [hDone]
      split <;> rfl
    · rw [hAgain]
      rfl
  | askingConfirmed working factWavesPaused =>
    obtain rfl := Option.some.inj hGeneration
    exact hOf hStep (goesOn_askConfirmed ..) (fun _ _ _ hEq => by cases hEq) rfl
  | fetchingConfirmed working tasks =>
    refine .goes rfl (hSame fun _ _ _ hEq => by cases hEq) ?_ ?_ <;>
      rcases confirmedFetchStep_call hStep with hDone | ⟨_, hAgain⟩
    · rw [hDone]
      split
      · exact (congrArg some (applyConfirmed_generation ..)).trans hGeneration
      · exact hGeneration
    · rw [hAgain]
      exact hGeneration
    · rw [hDone]
      split <;> rfl
    · rw [hAgain]
      rfl
  | settling working =>
    obtain rfl := Option.some.inj hGeneration
    exact hOf hStep (goesOn_classifyReady fun working' hSameId =>
      ⟨congrArg some hSameId, rfl⟩) (fun _ _ _ hEq => by cases hEq) rfl
  | recovering working deferredOnce =>
    refine hOf hStep ?_ (fun _ _ _ hEq => by cases hEq) rfl
    dsimp only
    split <;> exact ⟨hGeneration, rfl⟩
  | rehydrating working deferredOnce =>
    obtain ⟨filed, hGet, hNext⟩ := Option.bind_eq_some_iff.mp hStep
    obtain rfl := Option.some.inj hGeneration
    exact hOf hNext (goesOn_hydrate (hFiled.id_eq _ filed hGet) fun working' hSameId =>
      ⟨congrArg some hSameId, rfl⟩) (fun _ _ _ hEq => by cases hEq) rfl
  | rehydrated working deferredOnce =>
    obtain rfl := Option.some.inj hGeneration
    refine hOf hStep (goesOn_classifyReady fun working' hSameId => ?_)
      (fun _ _ _ hEq => by cases hEq) rfl
    split <;> exact ⟨congrArg some hSameId, rfl⟩
  | relieving working deferredOnce =>
    obtain ⟨filed, hGet, hNext⟩ := Option.bind_eq_some_iff.mp hStep
    obtain rfl := Option.some.inj hGeneration
    exact hOf hNext (goesOn_relieve ..) (fun _ _ _ hEq => by cases hEq) rfl
  | merging id advance pending =>
    obtain rfl := Option.some.inj hGeneration
    by_cases hCurrent : state.current = some id
    · obtain ⟨filed, hGet, hNext⟩ := Option.bind_eq_some_iff.mp hStep
      obtain rfl := hFiled.id_eq id filed hGet
      obtain ⟨found, hFound, hAdvance, -⟩ := hCall
      obtain rfl : found = filed := Option.some.inj (hFound.symm.trans hGet)
      have hMerged := merge_spec limits (.production limits.maxAuxiliaryCacheBytes) advance pending
        hCurrent
      rw [Option.some.inj hNext] at hMerged
      obtain ⟨hSameCurrent, left, result, rfl, hEnds, hStandings⟩ := hMerged.ends
      exact .merged rfl (standing_get hGet) hCurrent hSameCurrent
        (fun cached hMem => (hAdvance.classifications cached hMem).isEntry) hStandings hEnds
    · obtain ⟨rfl, -, rfl⟩ := callStep_stale hFiled hCurrent hStep
      exact .goes rfl (.refl _) rfl rfl
  | leaving id result =>
    obtain ⟨filed, -, hNext⟩ := Option.bind_eq_some_iff.mp hStep
    obtain rfl := Option.some.inj hGeneration
    obtain ⟨-, hRest⟩ := Prod.mk.inj (Option.some.inj hNext)
    obtain ⟨rfl, -⟩ := Prod.mk.inj hRest
    exact .ended (hSame fun _ _ _ hEq => by cases hEq) rfl

end Crate

end MempoolAtlas.Classification
