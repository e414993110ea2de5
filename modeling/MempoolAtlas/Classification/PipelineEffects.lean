import MempoolAtlas.Classification.Pipeline

/-!
# What an action does to the pipeline

Every action leaves the shared state alone, keeps books on one generation that
no other call reads, reads the confirmed cache for the current generation,
merges a slice of the current generation, or installs a new one. `Effect` says
so once; every invariant of the shared state is proved over its five cases.

## Results

* `merge_spec` — what a merge does.
* `callStep_effect` — every action has one of the five effects.
-/

namespace MempoolAtlas.Classification

open Machine Model

/-- Generations are filed under their own ids, none of them after the latest. -/
structure Filed (state : PipelineState) : Prop where
  id_eq : ∀ (id : Nat) generation, state.generations[id]? = some generation → generation.id = id
  id_le : ∀ (id : Nat) generation, state.generations[id]? = some generation →
    id ≤ state.nextGeneration
  current_eq : ∀ id, state.current = some id → id = state.nextGeneration
  current_filed : ∀ id, state.current = some id → ∃ generation, state.generations[id]? = some generation

/-- A new pipeline has no generations to file. -/
theorem filed_new (limits : ClassificationLimits) : Filed (PipelineState.new limits) where
  id_eq id generation hGet := by simp [PipelineState.new] at hGet
  id_le id generation hGet := by simp [PipelineState.new] at hGet
  current_eq id hCurrent := by simp [PipelineState.new] at hCurrent
  current_filed id hCurrent := by simp [PipelineState.new] at hCurrent

theorem setGeneration_get (state : PipelineState) (generation : ClassificationGeneration)
    (id : Nat) : (state.setGeneration generation).generations[id]? =
      if generation.id = id then some generation else state.generations[id]? :=
  BTreeMap.getElem?_insert_eq ..

/-- Filing a generation again under its own id. -/
theorem Filed.setGeneration {state : PipelineState} (h : Filed state)
    {id : Nat} {generation generation' : ClassificationGeneration}
    (hGet : state.generations[id]? = some generation) (hId : generation'.id = generation.id) :
    Filed (state.setGeneration generation') := by
  have hOld : generation'.id = id := hId.trans (h.id_eq id generation hGet)
  refine ⟨fun other found hFound => ?_, fun other found hFound => ?_, h.current_eq,
    fun other hCurrent => ?_⟩
  · rw [setGeneration_get] at hFound
    split at hFound
    · next hEq => rw [← Option.some.inj hFound, hEq]
    · exact h.id_eq other found hFound
  · rw [setGeneration_get] at hFound
    split at hFound
    · next hEq =>
      rw [← hEq, hOld]
      exact h.id_le id generation hGet
    · exact h.id_le other found hFound
  · rw [setGeneration_get]
    split
    · exact ⟨_, rfl⟩
    · exact h.current_filed other hCurrent

/-- The results of a generation that survive it: what an installation carries
and what the caches share. -/
structure SameResults (generation generation' : ClassificationGeneration) : Prop where
  id : generation'.id = generation.id
  membership : generation'.membership = generation.membership
  variants : generation'.variants = generation.variants
  classifications : generation'.work.classifications = generation.work.classifications
  outputs : generation'.work.outputs = generation.work.outputs
  outputCacheBytes : generation'.work.outputCacheBytes = generation.work.outputCacheBytes
  revision : generation'.work.revision = generation.work.revision

theorem SameResults.refl (generation : ClassificationGeneration) :
    SameResults generation generation :=
  ⟨rfl, rfl, rfl, rfl, rfl, rfl, rfl⟩

/-- Neither an installation nor a revision. -/
def isQuiet : Option Event → Prop
  | some (.installed _) => False
  | some (.revised _) => False
  | _ => True

theorem isCurrent_iff {state : PipelineState} {generation : Nat} :
    state.isCurrent generation = true ↔ state.current = some generation := by
  simp [PipelineState.isCurrent]

theorem isQuiet_map_answered {α : Type} (answered : Option α) (event : α → Event)
    (h : ∀ a, isQuiet (some (event a))) : isQuiet (answered.map event) := by
  cases answered with
  | none => trivial
  | some a => exact h a

theorem askConfirmed_quiet (limits : ClassificationLimits) (resolver : ResolverLimits)
    (working : Working) (factWavesPaused : Bool) :
    isQuiet (askConfirmed limits resolver working factWavesPaused).2 := by
  simp only [askConfirmed]
  split <;> (split <;> trivial)

/-- Readmitting variants changes no result. -/
theorem foldl_readmit_sameResults (generation : ClassificationGeneration) (wtxids : List String)
    (work : ClassificationWork) (h : SameResults generation (generation.setWork work)) :
    SameResults generation (generation.setWork (wtxids.foldl readmit work)) := by
  induction wtxids generalizing work with
  | nil => exact h
  | cons wtxid rest ih =>
    apply ih
    unfold readmit
    split
    · exact h
    · exact ⟨rfl, rfl, rfl, h.classifications, h.outputs, h.outputCacheBytes, h.revision⟩

-- ---------------------------------------------------------------------------
-- Merging
-- ---------------------------------------------------------------------------

/-- What a merge does with the slice's remaining candidates. -/
inductive Rehydrated (resolver : ResolverLimits) (generation : ClassificationGeneration)
    (advance : ClassificationAdvance) (caches : AuxiliaryCaches) :
    Option PendingSlice → Option PendingSlice → ConfirmedScriptCache → ClassificationAdvance → Prop
  | finished : Rehydrated resolver generation advance caches none none caches.confirmed advance
  | stored {pending : PendingSlice} {absorbed : PendingSlice.Absorbed}
      {confirmedCache : ConfirmedScriptCache}
      (hHydrate : pending.hydrateFromCaches generation.variants caches.outputs caches.confirmed
        resolver = .ok (absorbed, confirmedCache)) :
      Rehydrated resolver generation advance caches (some pending) (some absorbed.pending)
        confirmedCache (advance.addAbsorbed absorbed)

/-- The caches a merge of `advance` leaves. -/
def mergedCaches (limits : ClassificationLimits) (state : PipelineState)
    (generation : ClassificationGeneration) (advance : ClassificationAdvance) : AuxiliaryCaches :=
  mergeCaches limits advance.outputs advance.confirmedScripts {
    outputs := generation.work.outputs, outputCacheBytes := generation.work.outputCacheBytes
    confirmed := state.confirmedCache }

/-- The revision of a merge: one more when there are records. -/
def nextRevision (work : ClassificationWork) (advance : ClassificationAdvance) : Option Nat :=
  if advance.classifications.isEmpty then some work.revision else checkedAdd work.revision 1

/-- The generation a merge leaves. -/
def mergedGeneration (limits : ClassificationLimits) (state : PipelineState)
    (generation : ClassificationGeneration) (advance : ClassificationAdvance) (revision : Nat)
    (pending : Option PendingSlice) : ClassificationGeneration :=
  generation.setWork {
    mergeWork generation.work advance (mergedCaches limits state generation advance) with
    revision, pending }

/-- How the merge of a slice of the current generation ends. -/
inductive Merged (limits : ClassificationLimits) (resolver : ResolverLimits)
    (state : PipelineState) (generation : ClassificationGeneration)
    (advance : ClassificationAdvance) (pending : Option PendingSlice) : Action → Prop
  | overflowed (hRevision : nextRevision generation.work advance = none) :
      Merged limits resolver state generation advance pending
        (({ state with
            confirmedCache := (mergedCaches limits state generation advance).confirmed
          }.setGeneration (mergedGeneration limits state generation advance
            generation.work.revision generation.work.pending)),
          .leaving generation.id (.error .generationOverflow), none)
  | panicked {revision : Nat} {candidates : PendingSlice} {panic : Panic}
      (hRevision : nextRevision generation.work advance = some revision)
      (hPending : pending = some candidates)
      (hPanic : candidates.hydrateFromCaches generation.variants
        (mergedCaches limits state generation advance).outputs
        (mergedCaches limits state generation advance).confirmed resolver = .error panic) :
      Merged limits resolver state generation advance pending
        (({ state with
            confirmedCache := (mergedCaches limits state generation advance).confirmed
          }.setGeneration (mergedGeneration limits state generation advance revision
            generation.work.pending)),
          .leaving generation.id (.panic panic), none)
  | reported {revision : Nat} (stored : Option PendingSlice)
      {confirmedCache : ConfirmedScriptCache} {advance' : ClassificationAdvance}
      (hRevision : nextRevision generation.work advance = some revision)
      (hStored : Rehydrated resolver generation advance
        (mergedCaches limits state generation advance) pending stored confirmedCache advance') :
      Merged limits resolver state generation advance pending
        (finishMerge { state with confirmedCache }
          (mergedGeneration limits state generation advance revision
            (stored.or generation.work.pending)) advance')

/-- **What a merge does.** -/
theorem merge_spec (limits : ClassificationLimits) (resolver : ResolverLimits)
    {state : PipelineState} {generation : ClassificationGeneration}
    (advance : ClassificationAdvance) (pending : Option PendingSlice)
    (hCurrent : state.current = some generation.id) :
    Merged limits resolver state generation advance pending
      (merge limits resolver state generation advance pending) := by
  have hIs : state.isCurrent generation.id = true := isCurrent_iff.mpr hCurrent
  simp only [merge, hIs, Bool.not_true, Bool.false_eq_true, if_false]
  cases hRevision : nextRevision generation.work advance with
  | none =>
    have hNext : (if advance.classifications.isEmpty then some generation.work.revision
        else checkedAdd generation.work.revision 1) = none := hRevision
    simp only [mergeWork, hNext]
    exact .overflowed hRevision
  | some revision =>
    have hNext : (if advance.classifications.isEmpty then some generation.work.revision
        else checkedAdd generation.work.revision 1) = some revision := hRevision
    simp only [mergeWork, hNext]
    cases pending with
    | none => exact .reported none hRevision .finished
    | some candidates =>
      cases hHydrate : candidates.hydrateFromCaches generation.variants
          (mergedCaches limits state generation advance).outputs
          (mergedCaches limits state generation advance).confirmed resolver with
      | error panic =>
        have hPanic := hHydrate
        unfold mergedCaches at hPanic
        simp only [hPanic]
        exact .panicked hRevision rfl hHydrate
      | ok hydrated =>
        obtain ⟨absorbed, confirmedCache⟩ := hydrated
        have hStored := hHydrate
        unfold mergedCaches at hStored
        simp only [hStored]
        exact .reported (some absorbed.pending) hRevision (.stored hHydrate)

/-- What every merge leaves, however it ends. -/
theorem merged_state {limits : ClassificationLimits} {resolver : ResolverLimits}
    {state state' : PipelineState} {generation : ClassificationGeneration}
    {advance : ClassificationAdvance} {pending : Option PendingSlice} {call : Call}
    {event : Option Event}
    (h : Merged limits resolver state generation advance pending (state', call, event)) :
    ∃ work confirmedCache,
      state' = { state with confirmedCache }.setGeneration (generation.setWork work) ∧
      work.outputs = (mergedCaches limits state generation advance).outputs ∧
      work.outputCacheBytes = (mergedCaches limits state generation advance).outputCacheBytes ∧
      (confirmedCache = (mergedCaches limits state generation advance).confirmed ∨
        ∃ (candidates : PendingSlice) (absorbed : PendingSlice.Absorbed),
          candidates.hydrateFromCaches generation.variants
            (mergedCaches limits state generation advance).outputs
            (mergedCaches limits state generation advance).confirmed resolver =
              .ok (absorbed, confirmedCache)) := by
  cases h with
  | overflowed => exact ⟨_, _, rfl, rfl, rfl, .inl rfl⟩
  | panicked => exact ⟨_, _, rfl, rfl, rfl, .inl rfl⟩
  | reported stored hRevision hStored =>
    refine ⟨_, _, rfl, rfl, rfl, ?_⟩
    cases hStored with
    | finished => exact .inl rfl
    | stored hHydrate => exact .inr ⟨_, _, hHydrate⟩

-- ---------------------------------------------------------------------------
-- Effects
-- ---------------------------------------------------------------------------

section Crate

variable [BitcoinCrate]

/-- What an action may do to the pipeline. -/
inductive Effect (limits : ClassificationLimits) (state : PipelineState) :
    Call → Option Event → PipelineState → Prop
  | idle {call : Call} {event : Option Event} (hQuiet : isQuiet event) :
      Effect limits state call event state
  | touched {call : Call} {event : Option Event} {id : Nat}
      {generation generation' : ClassificationGeneration} (hQuiet : isQuiet event)
      (hGet : state.generations[id]? = some generation)
      (hSame : SameResults generation generation') :
      Effect limits state call event (state.setGeneration generation')
  | read {call : Call} {id : Nat} {generation : ClassificationGeneration}
      {pending : PendingSlice} {absorbed : PendingSlice.Absorbed}
      {confirmedCache : ConfirmedScriptCache}
      (hGet : state.generations[id]? = some generation)
      (hCurrent : state.current = some generation.id)
      (hHydrate : pending.hydrateFromCaches generation.variants generation.work.outputs
        state.confirmedCache (.production limits.maxAuxiliaryCacheBytes) =
          .ok (absorbed, confirmedCache)) :
      Effect limits state call none { state with confirmedCache }
  | installed {membership : MempoolSnapshot} {variants : BTreeMap Txid CurrentVariant} {id : Nat}
      (hVariants : currentVariants membership = .ok variants)
      (hId : checkedAdd state.nextGeneration 1 = some id) :
      Effect limits state (.installSnapshot membership)
        (some (.installed (installGeneration limits state membership variants id).2))
        (installGeneration limits state membership variants id).1
  | merged {id : Nat} {generation : ClassificationGeneration} {advance : ClassificationAdvance}
      {pending : Option PendingSlice} {state' : PipelineState} {call' : Call}
      {event : Option Event} (hGet : state.generations[id]? = some generation)
      (hCurrent : state.current = some generation.id)
      (hMerge : merge limits (.production limits.maxAuxiliaryCacheBytes) state generation advance
        pending = (state', call', event)) :
      Effect limits state (.merging id advance pending) event state'

/-- An action that leaves the shared state and is quiet. -/
theorem Effect.of_idle {limits : ClassificationLimits} {state state' : PipelineState}
    {call call' callAfter : Call} {event event' : Option Event}
    (h : (state, callAfter, event) = (state', call', event')) (hQuiet : isQuiet event) :
    Effect limits state call event' state' := by
  simp only [Prod.mk.injEq] at h
  obtain ⟨rfl, -, rfl⟩ := h
  exact .idle hQuiet

/-- Classifying installs and publishes nothing. -/
theorem classifyReady_quiet {working : Working} {next : Working → Call × Option Event}
    (h : ∀ working, isQuiet (next working).2) : isQuiet (classifyReady working next).2 := by
  unfold classifyReady
  split
  · trivial
  · exact h _

theorem askParents_quiet (limits : ClassificationLimits) (resolver : ResolverLimits)
    (variants : BTreeMap Txid CurrentVariant) (working : Working) :
    isQuiet (askParents limits resolver variants working).2 := by
  simp only [askParents]
  split <;> (split <;> trivial)

theorem recover_quiet (resolver : ResolverLimits) (working : Working) (deferredOnce : Bool) :
    isQuiet (recover resolver working deferredOnce).2 := by
  refine classifyReady_quiet fun recovered => ?_
  split <;> trivial

/-- Hydrating changes the confirmed cache alone. -/
theorem hydrate_effect {limits : ClassificationLimits} {state state' : PipelineState}
    {call call' : Call} {event : Option Event} {id : Nat} {generation : ClassificationGeneration}
    {working : Working} {next : Working → Call} (hGet : state.generations[id]? = some generation)
    (h : hydrate (.production limits.maxAuxiliaryCacheBytes) state generation working next =
      (state', call', event)) : Effect limits state call event state' := by
  unfold hydrate at h
  cases hCurrent : state.isCurrent generation.id with
  | false =>
    rw [hCurrent] at h
    exact .of_idle h trivial
  | true =>
    simp only [hCurrent, Bool.not_true, Bool.false_eq_true, if_false] at h
    split at h
    · exact .of_idle h trivial
    · next absorbed confirmedCache hHydrate =>
      simp only [Prod.mk.injEq] at h
      obtain ⟨rfl, -, rfl⟩ := h
      exact .read hGet (isCurrent_iff.mp hCurrent) hHydrate

/-- An effect keeps generations under their ids. -/
theorem Filed.effect {limits : ClassificationLimits} {state state' : PipelineState} {call : Call}
    {event : Option Event} (h : Filed state) (hEffect : Effect limits state call event state') :
    Filed state' := by
  cases hEffect with
  | idle => exact h
  | touched _ hGet hSame => exact h.setGeneration hGet hSame.id
  | read => exact ⟨h.id_eq, h.id_le, h.current_eq, h.current_filed⟩
  | @installed membership variants id hVariants hId =>
    obtain ⟨-, rfl⟩ := checkedAdd_eq_some.mp hId
    refine ⟨fun other found hFound => ?_, fun other found hFound => ?_, fun other hOther => ?_,
      fun other hOther => ?_⟩
    · simp only [installGeneration, BTreeMap.getElem?_insert_eq] at hFound
      split at hFound
      · next hEq => rw [← Option.some.inj hFound, ← hEq]
      · exact h.id_eq other found hFound
    · simp only [installGeneration, BTreeMap.getElem?_insert_eq] at hFound
      split at hFound
      · next hEq => exact hEq.ge
      · exact (h.id_le other found hFound).trans (Nat.le_succ _)
    · exact (Option.some.inj hOther).symm
    · obtain rfl := Option.some.inj hOther
      exact ⟨_, by simp only [installGeneration, BTreeMap.getElem?_insert_eq, if_true]; rfl⟩
  | merged hGet hCurrent hMerge =>
    obtain ⟨work, confirmedCache, rfl, -⟩ :=
      merged_state (hMerge ▸ merge_spec limits _ _ _ hCurrent)
    have hRead : Filed { state with confirmedCache } :=
      ⟨h.id_eq, h.id_le, h.current_eq, h.current_filed⟩
    exact hRead.setGeneration hGet rfl

variable [WireJson]

/-- One iteration of a raw fetch changes nothing in the pipeline. -/
theorem rawFetchStep_effect {limits : ClassificationLimits} {state state' : PipelineState}
    {call call' done : Call} {event : Option Event} {id : Nat} {completion : Completion}
    {tasks : FetchTasks ExpectedVariant Transaction}
    {again : FetchTasks ExpectedVariant Transaction → Call}
    (h : rawFetchStep state id completion tasks again done = some (state', call', event)) :
    Effect limits state call event state' := by
  unfold rawFetchStep at h
  split at h
  · exact .of_idle (Option.some.inj h) trivial
  · obtain ⟨⟨next, answered⟩, -, hEq⟩ := Option.map_eq_some_iff.mp h
    exact .of_idle hEq (isQuiet_map_answered _ _ fun _ => trivial)

/-- One iteration of a confirmed fetch changes nothing in the pipeline. -/
theorem confirmedFetchStep_effect {limits : ClassificationLimits} {state state' : PipelineState}
    {call call' done : Call} {event : Option Event} {id : Nat} {completion : Completion}
    {tasks : FetchTasks OutPoint Script} {again : FetchTasks OutPoint Script → Call}
    (h : confirmedFetchStep state id completion tasks again done = some (state', call', event)) :
    Effect limits state call event state' := by
  unfold confirmedFetchStep at h
  split at h
  · exact .of_idle (Option.some.inj h) trivial
  · obtain ⟨⟨next, answered⟩, -, hEq⟩ := Option.map_eq_some_iff.mp h
    exact .of_idle hEq (isQuiet_map_answered _ _ fun _ => trivial)

/-- **Every action has one of the five effects.** -/
theorem callStep_effect {limits : ClassificationLimits} {completion : Completion}
    {state state' : PipelineState} {call call' : Call} {event : Option Event}
    (h : callStep limits completion state call = some (state', call', event)) :
    Effect limits state call event state' := by
  cases call with
  | installSnapshot membership =>
    have hStep := Option.some.inj h
    unfold installSnapshot at hStep
    split at hStep
    · exact .of_idle hStep trivial
    · next variants hVariants =>
      split at hStep
      · exact .of_idle hStep trivial
      · next id hId =>
        simp only [Prod.mk.injEq] at hStep
        obtain ⟨rfl, -, rfl⟩ := hStep
        exact .installed hVariants hId
  | installed _ => cases h
  | classifyNextForGeneration expected => exact .of_idle (Option.some.inj h) trivial
  | awaitingDriver id =>
    obtain ⟨generation, hGet, h⟩ := Option.bind_eq_some_iff.mp h
    split at h
    · cases h
    · simp only [Option.some.injEq, Prod.mk.injEq] at h
      obtain ⟨rfl, -, rfl⟩ := h
      exact .touched trivial hGet ⟨rfl, rfl, rfl, rfl, rfl, rfl, rfl⟩
  | holdingDriver id => exact .of_idle (Option.some.inj h) trivial
  | takingPending id =>
    obtain ⟨generation, hGet, h⟩ := Option.bind_eq_some_iff.mp h
    have hStep := Option.some.inj h
    unfold takePending at hStep
    split at hStep
    · exact .of_idle hStep trivial
    · have hSame : SameResults generation
          (generation.setWork { generation.work with pending := none }) :=
        ⟨rfl, rfl, rfl, rfl, rfl, rfl, rfl⟩
      split at hStep
      all_goals
        simp only [Prod.mk.injEq] at hStep
        obtain ⟨rfl, -, rfl⟩ := hStep
        exact .touched trivial hGet hSame
  | selecting id =>
    obtain ⟨generation, hGet, h⟩ := Option.bind_eq_some_iff.mp h
    have hStep := Option.some.inj h
    simp only [selectCandidates] at hStep
    split at hStep
    all_goals
      simp only [Prod.mk.injEq] at hStep
      obtain ⟨rfl, -, rfl⟩ := hStep
      exact .touched trivial hGet ⟨rfl, rfl, rfl, rfl, rfl, rfl, rfl⟩
  | fetchingRaw id advance tasks => exact rawFetchStep_effect h
  | admitting id advance values =>
    obtain ⟨generation, hGet, h⟩ := Option.bind_eq_some_iff.mp h
    have hStep := Option.some.inj h
    have hSame := foldl_readmit_sameResults generation (retryableVariants values) generation.work
      (SameResults.refl generation)
    simp only [admitTransactions] at hStep
    split at hStep
    all_goals
      simp only [Prod.mk.injEq] at hStep
      obtain ⟨rfl, -, rfl⟩ := hStep
      exact .touched trivial hGet hSame
  | hydrating working =>
    obtain ⟨generation, hGet, h⟩ := Option.bind_eq_some_iff.mp h
    exact hydrate_effect hGet (Option.some.inj h)
  | hydrated working =>
    obtain ⟨generation, hGet, h⟩ := Option.bind_eq_some_iff.mp h
    exact .of_idle (Option.some.inj h) (classifyReady_quiet fun _ => askParents_quiet ..)
  | fetchingParents working parentWave tasks => exact rawFetchStep_effect h
  | askingConfirmed working factWavesPaused =>
    exact .of_idle (Option.some.inj h) (askConfirmed_quiet ..)
  | fetchingConfirmed working tasks => exact confirmedFetchStep_effect h
  | settling working =>
    exact .of_idle (Option.some.inj h) (classifyReady_quiet fun _ => trivial)
  | recovering working deferredOnce => exact .of_idle (Option.some.inj h) trivial
  | rehydrating working deferredOnce =>
    obtain ⟨generation, hGet, h⟩ := Option.bind_eq_some_iff.mp h
    exact hydrate_effect hGet (Option.some.inj h)
  | rehydrated working deferredOnce =>
    exact .of_idle (Option.some.inj h) (recover_quiet ..)
  | relieving working deferredOnce =>
    obtain ⟨generation, hGet, h⟩ := Option.bind_eq_some_iff.mp h
    exact .of_idle (Option.some.inj h) trivial
  | merging id advance pending =>
    obtain ⟨generation, hGet, h⟩ := Option.bind_eq_some_iff.mp h
    have hStep := Option.some.inj h
    cases hCurrent : state.isCurrent generation.id with
    | false =>
      unfold merge at hStep
      rw [hCurrent] at hStep
      exact .of_idle hStep trivial
    | true => exact .merged hGet (isCurrent_iff.mp hCurrent) hStep
  | leaving id result =>
    obtain ⟨generation, hGet, h⟩ := Option.bind_eq_some_iff.mp h
    simp only [Option.some.injEq, Prod.mk.injEq] at h
    obtain ⟨rfl, -, rfl⟩ := h
    exact .touched trivial hGet ⟨rfl, rfl, rfl, rfl, rfl, rfl, rfl⟩
  | returned _ => cases h

end Crate

end MempoolAtlas.Classification
