import MempoolAtlas.Runtime.PublishedSteps
import MempoolAtlas.Runtime.RoundOutcomes

/-!
# The publisher agrees with the pipeline

One source, in any run of the runtime: what its publisher shows of a generation at a
revision is what its pipeline held when it stood there, and the deltas that lead from
one revision to the next arrive one by one, none of them twice and none left out.

## Results

* `Followed.of_run` — a run of the runtime keeps a journal of each of its sources.
* `pipeline_publisher_agree` — the publisher shows what the pipeline held, and gets each delta
  once.
-/

namespace MempoolAtlas.Runtime

open Model Machine Classification Indexes

section Runs

variable [BitcoinCrate] [WireJson] [ResponseEncoder]

/-- A run with this trace from `start` to `world` has been at `earlier`. -/
def Through (sources : List AtlasSource) (start : AtlasState) (trace : List AtlasEvent)
    (world earlier : AtlasState) : Prop :=
  ∃ before after, before ++ after = trace ∧ AtlasRun sources start before earlier ∧
    AtlasRun sources earlier after world

/-- What a source's publisher shows is what its pipeline stood at. -/
structure PublisherAgrees (sources : List AtlasSource) (sourceIndex : Nat) (start : AtlasState)
    (trace : List AtlasEvent) (world : AtlasState) : Prop where
  /-- The pipeline has stood there, with the classifications that are shown. -/
  stood : ∀ generation,
    (world.sources sourceIndex).published.classificationGeneration = some generation →
    ∃ earlier records, Through sources start trace world earlier ∧
      StandsAt (earlier.sources sourceIndex).pipeline generation
        (world.sources sourceIndex).published.classificationRevision records ∧
      SameClassifications (world.sources sourceIndex).published.classifications records
  /-- It has stood there with nothing else, short of the last revision there is. -/
  same : ∀ generation earlier records,
    (world.sources sourceIndex).published.classificationGeneration = some generation →
    Through sources start trace world earlier →
    StandsAt (earlier.sources sourceIndex).pipeline generation
      (world.sources sourceIndex).published.classificationRevision records →
    (world.sources sourceIndex).published.classificationRevision < u64Max →
    SameClassifications (world.sources sourceIndex).published.classifications records
  /-- What is shown is what the deltas up to there make of the map at revision zero. -/
  replayed : ∀ generation,
    (world.sources sourceIndex).published.classificationGeneration = some generation →
    (world.sources sourceIndex).published.classificationRevision ≤
      (deltasOf generation (trace.flatMap (AtlasEvent.emits sourceIndex))).length ∧
    ∃ begun ∈ trace.flatMap (AtlasEvent.begins sourceIndex), begun.generation = generation ∧
      begun.revision = 0 ∧
      (world.sources sourceIndex).published.classifications = replay begun.classifications
        ((deltasOf generation (trace.flatMap (AtlasEvent.emits sourceIndex))).take
          (world.sources sourceIndex).published.classificationRevision)
  revisions : ∀ generation,
    (deltasOf generation (trace.flatMap (AtlasEvent.emits sourceIndex))).map
      ClassificationRevisionDelta.revision =
    List.range' 1 (deltasOf generation (trace.flatMap (AtlasEvent.emits sourceIndex))).length
  accepted : ∀ continues error,
    AtlasEvent.classificationReturned sourceIndex continues (.err error) ∉ trace

/-- What a run from `start` has made of a journal. -/
structure Followed (sources : List AtlasSource) (source : AtlasSource) (sourceIndex : Nat)
    (start : AtlasState) (journal : Journal) (trace : List AtlasEvent) (world : AtlasState)
    (journal' : Journal) : Prop where
  run : AtlasRun sources start trace world
  ordered : world.Ordered sources
  attended : Attended (world.life sourceIndex)
  reached : ∃ history, PipelineReached source.limits history (world.life sourceIndex)
  handedOver : HandedOver journal' (world.life sourceIndex)
  begun : journal'.begun = journal.begun ++ trace.flatMap (AtlasEvent.begins sourceIndex)
  emitted : journal'.emitted = journal.emitted ++ trace.flatMap (AtlasEvent.emits sourceIndex)
  kept : ∀ generation revision records, journal.past generation revision records →
    journal'.past generation revision records
  noted : ∀ generation revision records, journal'.past generation revision records →
    journal.past generation revision records ∨
      ∃ earlier, Through sources start trace world earlier ∧
        StandsAt (earlier.sources sourceIndex).pipeline generation revision records
  accepted : ∀ continues error,
    AtlasEvent.classificationReturned sourceIndex continues (.err error) ∉ trace

variable {sources : List AtlasSource} {source : AtlasSource} {sourceIndex : Nat}
  {start mid world : AtlasState} {trace : List AtlasEvent} {event : AtlasEvent}
  {journal journal' : Journal}

/-- One step further. -/
theorem Through.step {earlier : AtlasState} (h : Through sources start trace mid earlier)
    (hStep : AtlasStep sources mid event world) :
    Through sources start (trace ++ [event]) world earlier := by
  obtain ⟨before, after, rfl, hBefore, hAfter⟩ := h
  exact ⟨before, after ++ [event], (List.append_assoc ..).symm, hBefore,
    hAfter.trans (LabelledRun.single hStep)⟩

/-- A run reaches its end. -/
theorem Through.last (h : AtlasRun sources start trace world) :
    Through sources start trace world world :=
  ⟨trace, [], List.append_nil _, h, .refl⟩

/-- **One step of the runtime.** -/
theorem Followed.step (h : Followed sources source sourceIndex start journal trace mid journal')
    (hSource : sources[sourceIndex]? = some source) (hSound : event.Sound sourceIndex)
    (hStep : AtlasStep sources mid event world) :
    ∃ next, Followed sources source sourceIndex start journal (trace ++ [event]) world next := by
  obtain ⟨history, hReached⟩ := h.reached
  have hLife := life_step h.ordered hSource hStep
  obtain ⟨next, hNext, hHanded⟩ := h.handedOver.step h.attended hReached hSound hLife
  obtain ⟨later, hLater⟩ := hReached.step hLife
  refine ⟨next, h.run.trans (LabelledRun.single hStep), h.ordered.step hStep,
    h.attended.step hLife, ⟨_, hLater⟩, hHanded, ?_, ?_, ?_, ?_, ?_⟩
  · rw [hNext.begun, h.begun, List.flatMap_append, List.append_assoc, List.flatMap_singleton]
  · rw [hNext.emitted, h.emitted, List.flatMap_append, List.append_assoc, List.flatMap_singleton]
  · exact fun generation revision records hPast =>
      hNext.kept _ _ _ (h.kept generation revision records hPast)
  · intro generation revision records hPast
    rcases hNext.noted generation revision records hPast with hBefore | hNow
    · rcases h.noted generation revision records hBefore with hFirst | ⟨earlier, hAt, hStands⟩
      · exact Or.inl hFirst
      · exact Or.inr ⟨earlier, hAt.step hStep, hStands⟩
    · exact Or.inr ⟨world, .last (h.run.trans (LabelledRun.single hStep)), hNow⟩
  · intro continues error hMem
    rcases List.mem_append.mp hMem with hBefore | hNow
    · exact h.accepted continues error hBefore
    · exact h.handedOver.accepts hSound hLife continues error (List.mem_singleton.mp hNow).symm

/-- **A run of the runtime** keeps a journal of each of its sources. -/
theorem Followed.of_run (hSource : sources[sourceIndex]? = some source)
    (hRun : AtlasRun sources start trace world)
    (hSound : ∀ event ∈ trace, event.Sound sourceIndex) (hOrdered : start.Ordered sources)
    (hAttended : Attended (start.life sourceIndex))
    (hReached : ∃ history, PipelineReached source.limits history (start.life sourceIndex))
    (h : HandedOver journal (start.life sourceIndex)) :
    ∃ journal', Followed sources source sourceIndex start journal trace world journal' := by
  have hFirst : Followed sources source sourceIndex start journal [] start journal :=
    ⟨.refl, hOrdered, hAttended, hReached, h, (List.append_nil _).symm, (List.append_nil _).symm,
      fun _ _ _ hPast => hPast, fun _ _ _ hPast => Or.inl hPast, fun _ _ hMem => by cases hMem⟩
  exact hRun.history (fun event => event.Sound sourceIndex)
    (fun past world => ∃ journal',
      Followed sources source sourceIndex start journal past world journal')
    (fun past mid event world hEvent hFollowed hStep => by
      obtain ⟨journal', hFollowed⟩ := hFollowed
      exact hFollowed.step hSource hEvent hStep) hSound ⟨journal, hFirst⟩

/-- Nothing has happened. -/
def Journal.new : Journal where
  past _ _ _ := False
  begun := []
  emitted := []

omit [BitcoinCrate] [WireJson] [ResponseEncoder] in
/-- Before anything happens nothing is owed. -/
theorem handedOver_start (h : start.IsStart sources)
    (hSource : sources[sourceIndex]? = some source) :
    HandedOver .new (start.life sourceIndex) := by
  have hNone : ∀ id : Nat, (start.life sourceIndex).pipeline.standing id = none := by
    intro id
    rw [show (start.life sourceIndex).pipeline = .new source.limits from
      h.pipeline sourceIndex source hSource]
    simp [PipelineState.standing, PipelineState.new]
  have hPublished : (start.life sourceIndex).published = {} := h.published sourceIndex
  have hTurn : (start.life sourceIndex).turn = .away := by
    unfold AtlasState.life
    rw [h.round]
    rfl
  have hStage : (start.life sourceIndex).stage = .idle := by
    unfold AtlasState.life
    rw [h.scheduler]
    rfl
  have hQuiet : (start.life sourceIndex).stage.Quiet := by rw [hStage]; trivial
  have hFiled : ∀ {id : Nat} {standing : Standing} {goal : Prop},
      (start.life sourceIndex).pipeline.standing id = some standing → goal := by
    intro id standing goal hGet
    rw [hNone id] at hGet
    cases hGet
  refine ⟨⟨fun _ _ => hFiled, fun _ _ => hFiled, ?_, fun _ _ _ hPast => hPast.elim,
    fun _ _ _ _ hPast => hPast.elim⟩, ⟨?_, fun _ _ _ hGet => hFiled hGet, fun _ => rfl,
    fun _ _ => rfl⟩, ⟨?_, ?_⟩, ⟨?_, ?_, ?_, ?_, ?_, fun _ _ hGet => hFiled hGet, ?_⟩,
    fun _ _ _ hGet => hFiled hGet, ?_⟩
  · rintro id revision records ⟨standing, hGet, -⟩
    exact hFiled hGet
  · intro generation hGeneration
    rw [hPublished] at hGeneration
    cases hGeneration
  · intro publication hHolds
    rw [hTurn] at hHolds
    exact hHolds.elim
  · intro publication op hEq
    rw [hTurn] at hEq
    cases hEq
  · intro expected call hEq
    rw [hStage] at hEq
    cases hEq
  · intro expected call report delta hEq
    rw [hStage] at hEq
    cases hEq
  · exact fun delta hNow => absurd hNow (hQuiet.not_hands delta)
  · intro continues op hEq
    rw [hStage] at hEq
    cases hEq
  · exact fun delta hNow => absurd hNow (hQuiet.not_publishes delta)
  · exact fun delta hNow => absurd hNow (hQuiet.not_hands delta)
  · rintro (hPending | hActive | hNow | hNow | ⟨outcome, hNow⟩)
    · simp [AtlasState.life, h.scheduler] at hPending
    · simp [AtlasState.life, h.scheduler, ClassificationLoop.active] at hActive
    · exact absurd hStage hNow
    · rw [hTurn] at hNow
      cases hNow
    · rw [hTurn] at hNow
      cases hNow

/-- The journal of a whole run. -/
theorem followed_start (hStart : start.IsStart sources)
    (hSource : sources[sourceIndex]? = some source) (hRun : AtlasRun sources start trace world)
    (hSound : ∀ event ∈ trace, event.Sound sourceIndex) :
    ∃ journal, Followed sources source sourceIndex start .new trace world journal :=
  Followed.of_run hSource hRun hSound hStart.ordered (attended_start hStart sourceIndex)
    ⟨[], pipelineReached_start hStart hSource⟩ (handedOver_start hStart hSource)

/-- What the journal of a run says of the standings the run has been at. -/
theorem same_of_through (hStart : start.IsStart sources)
    (hSource : sources[sourceIndex]? = some source)
    (hSound : ∀ event ∈ trace, event.Sound sourceIndex) {earlier : AtlasState}
    (h : Through sources start trace world earlier) {generation : Nat}
    {records : BTreeMap String CachedClassification}
    (hGeneration :
      (world.sources sourceIndex).published.classificationGeneration = some generation)
    (hStands : StandsAt (earlier.sources sourceIndex).pipeline generation
      (world.sources sourceIndex).published.classificationRevision records)
    (hBounded : (world.sources sourceIndex).published.classificationRevision < u64Max) :
    SameClassifications (world.sources sourceIndex).published.classifications records := by
  obtain ⟨before, after, rfl, hBefore, hAfter⟩ := h
  obtain ⟨first, hFirst⟩ := followed_start hStart hSource hBefore fun event hMem =>
    hSound event (List.mem_append_left _ hMem)
  obtain ⟨last, hLast⟩ := Followed.of_run hSource hAfter
    (fun event hMem => hSound event (List.mem_append_right _ hMem)) hFirst.ordered hFirst.attended
    hFirst.reached hFirst.handedOver
  have hPast := hLast.kept _ _ _ (hFirst.handedOver.remembered.now _ _ _ hStands)
  obtain ⟨-, membership, -, hShows⟩ := hLast.handedOver.agreed.shown generation hGeneration
  obtain ⟨shown, hShown, hSame⟩ := hShows.records
  rw [hLast.handedOver.remembered.unique _ _ _ _ hPast hShown hBounded]
  exact hSame

/-- **Pipeline and publisher agree.** In every run whose memberships name each of their
entries once, as the decoder sees to, and whose publications could be prepared, the
publisher shows what the pipeline held at the published generation and revision, and
refuses no delta. -/
theorem pipeline_publisher_agree (hStart : start.IsStart sources)
    (hSource : sources[sourceIndex]? = some source) (hRun : AtlasRun sources start trace world)
    (hDistinct : ∀ publication, .collected sourceIndex (.ok publication) ∈ trace →
      DistinctEntries publication.membership)
    (hPrepared : ∀ continues error,
      .classificationReturned sourceIndex continues (.err error) ∈ trace →
      error.isPreparation = false) :
    PublisherAgrees sources sourceIndex start trace world := by
  have hSound : ∀ event ∈ trace, event.Sound sourceIndex := by
    intro event hMem
    refine ⟨?_, ?_⟩
    · rintro publication rfl
      exact hDistinct publication hMem
    · rintro continues error rfl
      exact hPrepared continues error hMem
  obtain ⟨journal, hFollowed⟩ := followed_start hStart hSource hRun hSound
  have hAgreed := hFollowed.handedOver.agreed
  have hEmitted : journal.emitted = trace.flatMap (AtlasEvent.emits sourceIndex) :=
    hFollowed.emitted
  have hBegun : journal.begun = trace.flatMap (AtlasEvent.begins sourceIndex) := hFollowed.begun
  refine ⟨fun generation hGeneration => ?_, fun generation earlier records hGeneration hThrough =>
    same_of_through hStart hSource hSound hThrough hGeneration, fun generation hGeneration => ?_,
    fun generation => ?_, hFollowed.accepted⟩
  · obtain ⟨-, membership, -, hShows⟩ := hAgreed.shown generation hGeneration
    obtain ⟨records, hPast, hSame⟩ := hShows.records
    rcases hFollowed.noted _ _ _ hPast with hNone | ⟨earlier, hThrough, hStands⟩
    · exact hNone.elim
    · exact ⟨earlier, records, hThrough, hStands, hSame⟩
  · obtain ⟨-, membership, -, hShows⟩ := hAgreed.shown generation hGeneration
    rw [← hEmitted, ← hBegun]
    exact ⟨hShows.emitted, hShows.replayed⟩
  · rw [← hEmitted]
    exact hAgreed.revisions generation

end Runs

-- ---------------------------------------------------------------------------
-- Runs as data
-- ---------------------------------------------------------------------------

instance ClassificationLoop.decidableHoldsGate (loop : ClassificationLoop) :
    Decidable loop.HoldsGate :=
  match loop with
  | .slicing .. => .isTrue trivial
  | .arriving | .waiting | .draining .. | .picking .. | .acquiring .. | .publishing .. => .isFalse id

instance PollRound.decidableHoldsGate (round : PollRound) : Decidable round.HoldsGate :=
  match round with
  | .collecting .. | .starting .. | .polling .. | .installing .. => .isTrue trivial
  | .idle | .publishing .. | .calling .. | .scheduling .. | .notifying .. => .isFalse id

section Moves

variable [BitcoinCrate] [WireJson] [ResponseEncoder]

/-- The next action of `poll_round` at a time of zero, when the node answers with `snapshot`. -/
def roundMove (sources : List AtlasSource) (snapshot : MempoolSnapshot) (world : AtlasState) :
    Option (AtlasEvent × AtlasState) :=
  match world.round with
  | .idle =>
    if world.scheduler.loop.HoldsGate then none
    else some (.roundStarted, { world with round := .collecting 0 [] })
  | .collecting sourceOrder outcomes =>
    if sourceOrder < sources.length then
      some (.clockRead sourceOrder, { world with round := .starting sourceOrder 0 outcomes })
    else if sourceOrder = sources.length then
      some (.gateReleased, { world with round := .publishing outcomes })
    else none
  | .starting sourceOrder startedAtMs outcomes =>
    some (.pollStarted sourceOrder, { world.setPublished sourceOrder
      (pollStarted startedAtMs (world.sources sourceOrder).published) with
        round := .polling sourceOrder outcomes })
  | .polling sourceOrder outcomes =>
    some (.answered sourceOrder snapshot,
      { world with round := .installing sourceOrder snapshot outcomes })
  | .installing sourceOrder snapshot outcomes =>
    match sources[sourceOrder]? with
    | none => none
    | some source =>
      match installSnapshot source.limits (world.sources sourceOrder).pipeline snapshot with
      | (pipeline, .installed result, _) =>
        some (.collected sourceOrder (result.mapError .classification),
          { world.setPipeline sourceOrder pipeline with
            round := .collecting (sourceOrder + 1)
              (outcomes ++ [(sourceOrder, result.mapError .classification)]) })
      | _ => none
  | .publishing [] => some (.roundEnded, { world with round := .idle })
  | .publishing ((sourceIndex, outcome) :: outcomes) =>
    match outcome.call with
    | some op =>
      some (.outcomeTaken sourceIndex,
        { world with round := .calling sourceIndex outcome op outcomes })
    | none =>
      some (.settled sourceIndex outcome none, { world with round := .publishing outcomes })
  | .calling sourceIndex outcome (.returned result) outcomes =>
    some (.settled sourceIndex outcome (some result),
      { world with round := afterCall sourceIndex outcomes result })
  | .calling sourceIndex outcome op outcomes =>
    match sources[sourceIndex]? with
    | none => none
    | some source =>
      match opStep source.publisher .finished (world.sources sourceIndex).published op with
      | none => none
      | some (published, op', commit) =>
        some (.outcomeActed sourceIndex commit, { world.setPublished sourceIndex published with
          round := .calling sourceIndex outcome op' outcomes })
  | .scheduling sourceIndex outcomes =>
    if sourceIndex < sources.length then
      some (.scheduling (.scheduled sourceIndex), { world with
        scheduler := { world.scheduler with
          pending := world.scheduler.pending.insert sourceIndex
          callers := sourceIndex :: world.scheduler.callers }
        round := .notifying sourceIndex outcomes })
    else none
  | .notifying sourceIndex outcomes =>
    if sourceIndex ∈ world.scheduler.callers then
      some (.scheduling (.notified sourceIndex), { world with
        scheduler := ({ world.scheduler with
          callers := world.scheduler.callers.erase sourceIndex }).notifyOne
        round := .publishing outcomes })
    else none

/-- The next action of `run_classification`, when a task of its slice ends so. -/
def loopMove (sources : List AtlasSource) (completion : Completion) (world : AtlasState) :
    Option (AtlasEvent × AtlasState) :=
  match world.scheduler.loop with
  | .acquiring active sourceIndex =>
    if world.round.HoldsGate then none
    else some (.scheduling (.sliceStarted sourceIndex),
      world.setLoop (.slicing active sourceIndex) .reading)
  | .slicing active sourceIndex =>
    match world.slice with
    | .reading =>
      some (.generationRead sourceIndex, { world with
        slice := .classifying (world.sources sourceIndex).published.classificationGeneration
          (.classifyNextForGeneration
            (world.sources sourceIndex).published.classificationGeneration) })
    | .classifying expected (.returned sliceEnd) =>
      match returnedReport sliceEnd with
      | none => none
      | some report =>
        some (.sliceReturned sourceIndex expected report,
          world.setLoop (.publishing active sourceIndex) (publishClassification report expected))
    | .classifying expected call =>
      match sources[sourceIndex]? with
      | none => none
      | some source =>
        match callStep source.limits completion (world.sources sourceIndex).pipeline call with
        | none => none
        | some (pipeline, call', _) =>
          some (.classified sourceIndex,
            { world.setPipeline sourceIndex pipeline with slice := .classifying expected call' })
    | .none | .publishing .. => none
  | .publishing active sourceIndex =>
    match world.slice with
    | .publishing continues (.returned result) =>
      some (.classificationReturned sourceIndex continues result,
        world.setLoop (reinsert sources.length active sourceIndex
          (continues && result == .published true)) .none)
    | .publishing continues op =>
      match sources[sourceIndex]? with
      | none => none
      | some source =>
        match opStep source.publisher .finished (world.sources sourceIndex).published op with
        | none => none
        | some (published, op', commit) =>
          some (.classificationActed sourceIndex commit,
            { world.setPublished sourceIndex published with slice := .publishing continues op' })
    | .none | .reading | .classifying .. => none
  | .arriving | .waiting | .draining .. | .picking .. =>
    match loopStep sources.length false world.scheduler with
    | none => none
    | some (scheduler, event) => some (.scheduling event, { world with scheduler })

omit [WireJson] in
/-- A move of the round is a step of the program. -/
theorem roundMove_step {sources : List AtlasSource} {snapshot : MempoolSnapshot}
    {world world' : AtlasState} {event : AtlasEvent}
    (h : roundMove sources snapshot world = some (event, world')) :
    RoundStep sources world event world' := by
  unfold roundMove at h
  split at h
  · next hRound =>
    split at h
    · cases h
    · next hGate =>
      cases h
      exact .started hRound hGate
  · next sourceOrder outcomes hRound =>
    split at h
    · next hConfigured =>
      cases h
      exact .clockRead 0 hRound hConfigured
    · split at h
      · next hEnd =>
        cases h
        subst hEnd
        exact .gateReleased hRound
      · cases h
  · next hRound =>
    cases h
    exact .pollStarted hRound
  · next hRound =>
    cases h
    exact .polled snapshot hRound
  · next hRound =>
    split at h
    · cases h
    · next source hSource =>
      split at h
      · next hInstall =>
        cases h
        exact .installed hRound hSource hInstall
      · cases h
  · next hRound =>
    cases h
    exact .ended hRound
  · next hRound =>
    split at h
    · next op hCall =>
      cases h
      exact .taken hRound hCall
    · next hCall =>
      cases h
      exact .logged hRound hCall
  · next hRound =>
    cases h
    exact .settled hRound
  · next hRound =>
    split at h
    · cases h
    · next source hSource =>
      split at h
      · cases h
      · next hStep =>
        cases h
        exact .acted hRound hSource hStep
  · next hRound =>
    split at h
    · next hConfigured =>
      cases h
      exact .scheduled hRound (.insert hConfigured)
    · cases h
  · next hRound =>
    split at h
    · next hCaller =>
      cases h
      exact .notified hRound (.notify hCaller)
    · cases h

/-- A move of the loop is a step of the program. -/
theorem loopMove_step {sources : List AtlasSource} {completion : Completion}
    {world world' : AtlasState} {event : AtlasEvent}
    (h : loopMove sources completion world = some (event, world')) :
    LoopStep sources world event world' := by
  have hFree : world.scheduler.loop.current = none →
      (match loopStep sources.length false world.scheduler with
        | none => none
        | some (scheduler, event) => some (.scheduling event, { world with scheduler })) =
          some (event, world') → LoopStep sources world event world' := by
    intro hCurrent hMove
    split at hMove
    · cases hMove
    · next hStep =>
      cases hMove
      exact .scheduled hCurrent hStep
  unfold loopMove at h
  split at h
  · next hLoop =>
    split at h
    · cases h
    · next hGate =>
      cases h
      exact .sliceStarted hLoop hGate
  · next hLoop =>
    split at h
    · next hSlice =>
      cases h
      exact .generationRead hLoop hSlice
    · next hSlice =>
      split at h
      · cases h
      · next report hResult =>
        cases h
        exact .sliceReturned hLoop hSlice hResult
    · next hSlice =>
      split at h
      · cases h
      · next source hSource =>
        split at h
        · cases h
        · next hStep =>
          cases h
          exact .classified hLoop hSlice hSource hStep
    · cases h
    · cases h
  · next hLoop =>
    split at h
    · next hSlice =>
      cases h
      exact .finished hLoop hSlice
    · next hSlice =>
      split at h
      · cases h
      · next source hSource =>
        split at h
        · cases h
        · next hStep =>
          cases h
          exact .acted hLoop hSlice hSource hStep
    · cases h
    · cases h
    · cases h
  all_goals
    next hLoop =>
    exact hFree (by rw [hLoop]; rfl) h

/-- One action of a run: of the round, or of the loop. -/
inductive AtlasMove where
  | round
  | loop (completion : Completion)

/-- A move of the program. -/
def atlasMove (sources : List AtlasSource) (snapshot : MempoolSnapshot) (move : AtlasMove)
    (world : AtlasState) : Option (AtlasEvent × AtlasState) :=
  match move with
  | .round => roundMove sources snapshot world
  | .loop completion => loopMove sources completion world

/-- The trace of these moves, and where they lead. -/
def atlasPlay (sources : List AtlasSource) (snapshot : MempoolSnapshot) :
    List AtlasMove → AtlasState → Option (List AtlasEvent × AtlasState)
  | [], world => some ([], world)
  | move :: rest, world =>
    match atlasMove sources snapshot move world with
    | none => none
    | some (event, world) =>
      (atlasPlay sources snapshot rest world).map fun played => (event :: played.1, played.2)

/-- What is played is a run. -/
theorem atlasPlay_run {sources : List AtlasSource} {snapshot : MempoolSnapshot}
    {moves : List AtlasMove} {world last : AtlasState} {trace : List AtlasEvent}
    (h : atlasPlay sources snapshot moves world = some (trace, last)) :
    AtlasRun sources world trace last := by
  induction moves generalizing world trace with
  | nil =>
    cases h
    exact .refl
  | cons move rest ih =>
    simp only [atlasPlay] at h
    split at h
    · cases h
    · next event mid hMove =>
      obtain ⟨⟨later, last⟩, hRest, hEq⟩ := Option.map_eq_some_iff.mp h
      cases hEq
      refine .head ?_ (ih hRest)
      cases move with
      | round => exact .round (roundMove_step hMove)
      | loop completion => exact .loop (loopMove_step hMove)

end Moves

-- ---------------------------------------------------------------------------
-- A sample run
-- ---------------------------------------------------------------------------

/-- The source of the sample run. -/
def coreSource : AtlasSource := ⟨⟨"core", "Bitcoin Core", 60⟩, Reference.limits⟩

/-- The payment is polled, published and scheduled; its slice fetches it and its prevout, and what
the slice reports is published. -/
def paymentMoves : List AtlasMove :=
  let step := AtlasMove.loop ⟨0, .joinError⟩
  let answer := fun result =>
    AtlasMove.loop ⟨0, .finished (.ok { responses := [some (.value result)], responseBytes := 0 })⟩
  List.replicate 16 .round ++ List.replicate 11 step ++
    [answer (Reference.quoted MempoolAtlas.Reference.payment.hex)] ++ List.replicate 6 step ++
    [answer (Reference.txOutResult "51")] ++ List.replicate 14 step

/-- What the theorem asks of an event, checked. -/
def AtlasEvent.isSound : AtlasEvent → Bool
  | .collected _ (.ok publication) =>
    (publication.membership.transactions.map (·.txid)).Nodup ∧
      (publication.membership.transactions.map (·.wtxid)).Nodup
  | .classificationReturned _ _ (.err error) => !error.isPreparation
  | _ => true

/-- Whether this event is the end of a slice whose report was published. -/
def AtlasEvent.publishes : AtlasEvent → Bool
  | .classificationReturned _ _ (.published true) => true
  | _ => false

/-- A classified payment: one delta led from the generation's start to what the publisher shows,
and the slice that made it was told that it was published. -/
theorem pipeline_publisher_agree_payment :
    let _ : BitcoinCrate := MempoolAtlas.Reference.crate [MempoolAtlas.Reference.payment]
    let _ : WireJson := Reference.json [MempoolAtlas.Reference.payment.hex, "51"]
    let _ : ResponseEncoder := serdeEncoder
    ∃ trace last, AtlasRun [coreSource] sampleStart trace last ∧
      (last.sources 0).published.classificationGeneration = some 1 ∧
      (last.sources 0).published.classificationRevision = 1 ∧
      (last.sources 0).published.classifications.size = 1 ∧
      trace.any AtlasEvent.publishes = true ∧
      PublisherAgrees [coreSource] 0 sampleStart trace last := by
  intro _ _ _
  have hPlays : (atlasPlay [coreSource] Reference.paymentMembership paymentMoves sampleStart).any
      (fun played =>
        decide ((played.2.sources 0).published.classificationGeneration = some 1) &&
        decide ((played.2.sources 0).published.classificationRevision = 1) &&
        decide ((played.2.sources 0).published.classifications.size = 1) &&
        played.1.any AtlasEvent.publishes && played.1.all AtlasEvent.isSound) = true := by
    decide +kernel
  obtain ⟨⟨trace, last⟩, hPlayed, hChecked⟩ := (Option.any_eq_true ..).mp hPlays
  simp only [Bool.and_eq_true, decide_eq_true_eq, List.all_eq_true] at hChecked
  obtain ⟨⟨⟨⟨hGeneration, hRevision⟩, hSize⟩, hPublishes⟩, hSound⟩ := hChecked
  have hStart : sampleStart.IsStart [coreSource] := sampleStart_isStart _
  have hRun := atlasPlay_run hPlayed
  refine ⟨trace, last, hRun, hGeneration, hRevision, hSize, hPublishes,
    pipeline_publisher_agree hStart rfl hRun ?_ ?_⟩
  · intro publication hMem
    obtain ⟨hTxids, hWtxids⟩ := of_decide_eq_true (hSound _ hMem)
    exact ⟨hTxids, hWtxids⟩
  · intro continues error hMem
    have hKept : (!error.isPreparation) = true := hSound _ hMem
    simpa using hKept

end MempoolAtlas.Runtime
