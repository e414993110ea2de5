import MempoolAtlas.Runtime.PublishedRevisions

/-!
# The steps of a handover

Every step of a source's life, its slices, their publications and its rounds, keeps the
publisher in step with the pipeline, by the journal that notes what the step did.

## Results

* `HandedOver.installed`, `HandedOver.merged`, `HandedOver.deltaActed` — the steps that hand
  something over.
* `HandedOver.step` — every step of a life keeps the publisher in step with the pipeline.
-/

namespace MempoolAtlas.Runtime

open Model Machine Classification Indexes

-- ---------------------------------------------------------------------------
-- What an event adds to the journal
-- ---------------------------------------------------------------------------

/-- What a source's round has installed. -/
def AtlasEvent.begins (sourceIndex : Nat) : AtlasEvent → List ClassificationGenerationStart
  | .collected index (.ok publication) => if index = sourceIndex then [publication] else []
  | _ => []

/-- What a source's slice has reported. -/
def AtlasEvent.emits (sourceIndex : Nat) : AtlasEvent → List ClassificationRevisionDelta
  | .sliceReturned index _ (.ok report) =>
    if index = sourceIndex then report.publication.toList else []
  | _ => []

/-- The journal after a step that leaves the pipeline there. -/
structure Journal.Next (journal : Journal) (sourceIndex : Nat) (event : AtlasEvent)
    (pipeline : PipelineState) (journal' : Journal) : Prop where
  begun : journal'.begun = journal.begun ++ event.begins sourceIndex
  emitted : journal'.emitted = journal.emitted ++ event.emits sourceIndex
  kept : ∀ generation revision records, journal.past generation revision records →
    journal'.past generation revision records
  noted : ∀ generation revision records, journal'.past generation revision records →
    journal.past generation revision records ∨ StandsAt pipeline generation revision records

variable {journal journal' : Journal} {pipeline pipeline' : PipelineState}
  {published published' : CurrentState} {stage stage' : Stage} {turn turn' : Turn}
  {life life' : SourceLife} {source : AtlasSource} {sourceIndex : Nat} {event : AtlasEvent}

/-- A step that emits nothing leaves the journal. -/
theorem Journal.Next.same (hBegins : event.begins sourceIndex = [])
    (hEmits : event.emits sourceIndex = []) :
    journal.Next sourceIndex event pipeline journal where
  begun := by rw [hBegins, List.append_nil]
  emitted := by rw [hEmits, List.append_nil]
  kept _ _ _ hPast := hPast
  noted _ _ _ hPast := Or.inl hPast

/-- A step of another source leaves the journal. -/
theorem other_adds_nothing (hOther : event.source ≠ some sourceIndex) :
    event.begins sourceIndex = [] ∧ event.emits sourceIndex = [] := by
  constructor
  · unfold AtlasEvent.begins
    split
    · exact if_neg fun hEq => hOther (congrArg some hEq)
    · rfl
  · unfold AtlasEvent.emits
    split
    · exact if_neg fun hEq => hOther (congrArg some hEq)
    · rfl

-- ---------------------------------------------------------------------------
-- Frames
-- ---------------------------------------------------------------------------

theorem Agreed.sameStandings (h : Agreed journal pipeline published)
    (hSame : SameStandings pipeline pipeline') : Agreed journal pipeline' published where
  shown generation hGeneration := by
    obtain ⟨hLatest, membership, hMembership, hShows⟩ := h.shown generation hGeneration
    exact ⟨hLatest, membership, hMembership,
      hShows.mono (.refl journal) (KeepsStandings.of_same hSame).movesOn⟩
  fresh id standing hCurrent hGet :=
    h.fresh id standing (hSame.current ▸ hCurrent) (hSame.standing id ▸ hGet)
  revisions := h.revisions
  unfiled id hNone := h.unfiled id (hSame.standing id ▸ hNone)

theorem Op.fits_of_publishes {op : Op} {publication : ClassificationGenerationStart}
    (hOp : op.Publishes publication) (h : op.Fits published) (published' : CurrentState) :
    op.Fits published' := by
  cases op with
  | publishMembership | membershipPrepare => trivial
  | membershipRead | membershipEncode | membershipCommit => exact h
  | _ => exact hOp.elim

theorem Op.updates_unique {op : Op} {generation generation' : Nat}
    {delta delta' : Option ClassificationRevisionDelta}
    {classificationState classificationState' : ClassificationState}
    (h : op.Updates generation delta classificationState)
    (h' : op.Updates generation' delta' classificationState') :
    generation = generation' ∧ delta = delta' := by
  cases op with
  | publishClassificationUpdate =>
    exact ⟨h.1.symm.trans h'.1, h.2.1.symm.trans h'.2.1⟩
  | updatePrepare | updateEncode | updateCommit =>
    exact ⟨h.1.symm.trans h'.1, h.2.1.trans h'.2.1.symm⟩
  | lifecycleRead | lifecycleEncode | lifecycleCommit =>
    exact ⟨h.1.symm.trans h'.1, h.2.1.trans h'.2.1.symm⟩
  | _ => exact h.elim

/-- A publication in flight, and what has been reported before it. -/
theorem StageReady.of_publishing {continues : Bool} {op : Op} (hFits : op.Fits published)
    (hOwn : ∀ generation delta classificationState,
      op.Updates generation (some delta) classificationState → generation = delta.generation)
    (hError : ∀ error, op = .returned (.err error) → error.isPreparation = true)
    (hPublishes : ∀ delta, (Stage.publishing (.publishing continues op)).Publishes delta →
      InFlight journal pipeline published delta)
    (hEmitted : ∀ id standing, pipeline.standing id = some standing →
      ¬ (Stage.publishing (.publishing continues op)).Failed →
      (deltasOf id journal.emitted).length = standing.revision) :
    StageReady journal pipeline published (.publishing (.publishing continues op)) where
  slicing _ _ hEq := by cases hEq
  reported _ _ _ _ hEq := by cases hEq
  hands _ hNow := hNow.elim
  updating := by
    rintro _ _ ⟨⟩
    exact ⟨hFits, hOwn, hError⟩
  publishes := hPublishes
  emitted id standing hGet hFailed _ := hEmitted id standing hGet hFailed
  owed _ hNow := hNow.elim

/-- A publication that carries no delta. -/
theorem StageReady.without_delta {continues : Bool} {op : Op}
    (h : StageReady journal pipeline published stage) (hHands : ∀ delta, ¬ stage.Hands delta)
    (hFailed : ¬ stage.Failed) (hFits : op.Fits published)
    (hNone : ∀ generation delta classificationState,
      ¬ op.Updates generation (some delta) classificationState)
    (hError : ∀ error, op = .returned (.err error) → error.isPreparation = true) :
    StageReady journal pipeline published (.publishing (.publishing continues op)) := by
  refine .of_publishing hFits (fun generation delta classificationState hOp =>
    absurd hOp (hNone generation delta classificationState)) hError ?_ fun id standing hGet _ =>
      h.emitted id standing hGet hFailed fun delta hNow => absurd hNow (hHands delta)
  rintro delta ⟨classificationState, hOp⟩
  exact absurd hOp (hNone delta.generation delta classificationState)

theorem not_failed_of_updates (continues : Bool) {op : Op} {generation : Nat}
    {delta : Option ClassificationRevisionDelta} {classificationState : ClassificationState}
    (hOp : op.Updates generation delta classificationState) :
    ¬ (Stage.publishing (.publishing continues op)).Failed := by
  cases op with
  | returned result => exact hOp.elim
  | _ => exact id

/-- A source at work has begun a generation. -/
theorem HandedOver.begun_of_stage (h : HandedOver journal life) (hStage : life.stage ≠ .idle) :
    life.published.classificationGeneration.isSome :=
  h.begun (Or.inr (Or.inr (Or.inl hStage)))

-- ---------------------------------------------------------------------------
-- Steps of a slice
-- ---------------------------------------------------------------------------

section Slices

variable [BitcoinCrate] {expected : Option Nat} {call : Call}

omit [BitcoinCrate] in
/-- **A merge** raises the revision by one, or leaves it. -/
theorem HandedOver.merged {generation left : Nat} {standing : Standing}
    {batch : List CachedClassification} {result : SliceEnd} (h : HandedOver journal life)
    (hPublished : ∀ latest, life.published.classificationGeneration = some latest →
      latest ≤ life.pipeline.nextGeneration)
    (hFiled : Filed life.pipeline) (hStage : life.stage = .slicing (.classifying expected call))
    (hEnded : call.ended = none) (hGeneration : call.generation? = some generation)
    (hStanding : life.pipeline.standing generation = some standing)
    (hCurrent : life.pipeline.current = some generation)
    (hCurrent' : pipeline'.current = life.pipeline.current)
    (hBatch : ∀ cached ∈ batch, IsEntry standing.membership cached.classification)
    (hStanding' : ∀ id, pipeline'.standing id =
      if generation = id then some (standing.after left batch) else life.pipeline.standing id)
    (hEnds : MergeEnds generation standing.revision batch left result) :
    HandedOver (journal.noting pipeline') { life with
      pipeline := pipeline'
      stage := .slicing (.classifying expected (.leaving generation result)) } := by
  have hReady := h.stage
  have hCaught := h.caughtUp
  rw [hStage] at hReady hCaught
  -- the slice works on the generation that is published
  obtain ⟨worked, latest, -, hLatest, hLe, hWorks⟩ := hReady.slicing expected call rfl
  have hWorked : ∀ worked, Call.WorksOn worked call → worked = generation := by
    rintro worked (rfl | hIs | ⟨ended, rfl⟩)
    · cases hGeneration
    · exact Option.some.inj (hIs.symm.trans hGeneration)
    · cases hGeneration
  have hLatestIs : latest = generation := by
    have hSame := hWorked worked hWorks
    have hBound := hPublished latest hLatest
    have hNewest := hFiled.current_eq generation hCurrent
    omega
  have hIs : life.published.classificationGeneration = some generation := hLatestIs ▸ hLatest
  have hReached : standing.revision = life.published.classificationRevision := by
    refine hCaught generation standing hCurrent hStanding hIs (not_failed_of_ended hEnded) ?_
    rintro delta (hNow | hNow)
    · exact absurd hNow (not_hands_of_ended hEnded delta)
    · exact hNow.elim
  have hEmitted : (deltasOf generation journal.emitted).length = standing.revision :=
    hReady.emitted generation standing hStanding (not_failed_of_ended hEnded)
      fun delta hNow => absurd hNow (not_hands_of_ended hEnded delta)
  obtain ⟨-, membership, hMembership, hShows⟩ := h.agreed.shown generation hIs
  refine ⟨h.remembered.merged hStanding hStanding' hEnds hBatch,
    h.agreed.merged hStanding hStanding' hEnds hCurrent hCurrent' hIs,
    h.turn.mono (journal.extends_noting pipeline') (movesOn_merged hStanding hStanding' hEnds)
      hCurrent', hReady.merged hStanding' hEnds hEnded hWorked hEmitted ?_,
    caughtUp_merged hStanding' hEnds hCurrent hCurrent' hReached, fun _ => ?_⟩
  · intro delta hLeft hRevision hDelta
    exact inFlight_merged hStanding hStanding' h.remembered hBatch hLeft hRevision hDelta hIs
      hReached hEmitted hMembership hShows
  · show life.published.classificationGeneration.isSome
    rw [hIs]
    rfl

variable [WireJson]

/-- **A step of the slice in flight.** -/
theorem HandedOver.classified {history : List Event} {limits : ClassificationLimits}
    {completion : Completion} {call' : Call} {sliceEvent : Option Event}
    (h : HandedOver journal life)
    (hPublished : ∀ latest, life.published.classificationGeneration = some latest →
      latest ≤ life.pipeline.nextGeneration)
    (hReached : PipelineReached limits history life)
    (hStage : life.stage = .slicing (.classifying expected call))
    (hStep : callStep limits completion life.pipeline call = some (pipeline', call', sliceEvent)) :
    ∃ journal', journal.Next sourceIndex (.classified sourceIndex) pipeline' journal' ∧
      HandedOver journal' { life with
        pipeline := pipeline', stage := .slicing (.classifying expected call') } := by
  obtain ⟨hSound, -, hCalls⟩ := hReached.sound
  have hReady := h.stage
  have hCaught := h.caughtUp
  rw [hStage] at hReady hCaught
  have hBegun : life.published.classificationGeneration.isSome :=
    h.begun_of_stage (by simp [hStage])
  -- a slice that only goes on takes everything with it
  have hGoes : SameStandings life.pipeline pipeline' → call.ended = none →
      (∀ generation, Call.WorksOn generation call → Call.WorksOn generation call') →
      call'.publication = none → HandedOver journal { life with
        pipeline := pipeline', stage := .slicing (.classifying expected call') } :=
    fun hSame hEnded hWorks hNone => ⟨h.remembered.same hSame, h.agreed.sameStandings hSame,
      h.turn.mono (.refl journal) (KeepsStandings.of_same hSame).movesOn hSame.current,
      hReady.goes hEnded hSame hWorks hNone, hCaught.goes hEnded hSame, fun _ => hBegun⟩
  obtain ⟨worked, latest, -, -, -, hWorks⟩ := hReady.slicing expected call rfl
  rcases hWorks with rfl | hGeneration | ⟨result, rfl⟩
  · obtain ⟨hPipeline, hRest⟩ := Prod.mk.inj (Option.some.inj hStep)
    obtain ⟨hCall, -⟩ := Prod.mk.inj hRest
    subst hPipeline hCall
    refine ⟨journal, .same rfl rfl, hGoes (.refl _) rfl (fun generation hWorks => ?_) ?_⟩
    · obtain rfl : worked = generation := by
        rcases hWorks with hSame | hNone | ⟨result, hNone⟩
        · exact Option.some.inj (Call.classifyNextForGeneration.inj hSame)
        · cases hNone
        · cases hNone
      unfold beginSlice
      split
      · exact Or.inr (Or.inr ⟨_, rfl⟩)
      · split
        · exact Or.inr (Or.inr ⟨_, rfl⟩)
        · next hIs => exact Or.inr (Or.inl (not_not.mp hIs).symm)
    · unfold beginSlice
      split
      · rfl
      · split <;> rfl
  · cases callStep_sliceMove hSound (hCalls expected call hStage) hGeneration hStep with
    | goes hEnded hSame hCall' hNone =>
      refine ⟨journal, .same rfl rfl, hGoes hSame hEnded (fun generation hWorks => ?_) hNone⟩
      rcases hWorks with rfl | hIs | ⟨result, rfl⟩
      · cases hGeneration
      · rw [hGeneration] at hIs
        exact Or.inr (Or.inl (hIs ▸ hCall'))
      · cases hGeneration
    | ended hSame hCall =>
      subst hCall
      exact ⟨journal, .same rfl rfl, h.remembered.same hSame, h.agreed.sameStandings hSame,
        h.turn.mono (.refl journal) (KeepsStandings.of_same hSame).movesOn hSame.current,
        hReady.ends hSame, hCaught.ends hSame, fun _ => hBegun⟩
    | merged hEnded hStanding hCurrent hCurrent' hBatch hStanding' hEnds =>
      refine ⟨journal.noting pipeline', ⟨(List.append_nil _).symm, (List.append_nil _).symm,
        fun _ _ _ hPast => Or.inl hPast, fun _ _ _ hPast => hPast⟩, ?_⟩
      exact h.merged hPublished hSound.toFiled hStage hEnded hGeneration hStanding hCurrent
        hCurrent' hBatch hStanding' hEnds
  · cases hStep

end Slices

-- ---------------------------------------------------------------------------
-- Steps of a publication
-- ---------------------------------------------------------------------------

theorem deltasOf_concat_self {delta : ClassificationRevisionDelta}
    (emitted : List ClassificationRevisionDelta) :
    deltasOf delta.generation (emitted ++ [delta]) =
      deltasOf delta.generation emitted ++ [delta] := by
  rw [deltasOf_append]
  simp [deltasOf]

theorem deltasOf_concat_other {delta : ClassificationRevisionDelta} {generation : Nat}
    (hOther : delta.generation ≠ generation) (emitted : List ClassificationRevisionDelta) :
    deltasOf generation (emitted ++ [delta]) = deltasOf generation emitted := by
  rw [deltasOf_append]
  simp [deltasOf, hOther]

theorem Journal.extends_reporting (journal : Journal) (delta : ClassificationRevisionDelta) :
    journal.Extends { journal with emitted := journal.emitted ++ [delta] } :=
  ⟨fun _ _ _ hPast => hPast, List.Subset.refl _, List.prefix_append ..⟩

/-- The next revision of a generation is the one its next delta is reported with. -/
theorem Agreed.reporting {delta : ClassificationRevisionDelta}
    (h : Agreed journal pipeline published) {standing : Standing}
    (hGet : pipeline.standing delta.generation = some standing)
    (hOwed : (deltasOf delta.generation journal.emitted).length + 1 = delta.revision) :
    Agreed { journal with emitted := journal.emitted ++ [delta] } pipeline published where
  shown generation hShown := by
    obtain ⟨hLatest, membership, hMembership, hShows⟩ := h.shown generation hShown
    exact ⟨hLatest, membership, hMembership, hShows.mono (journal.extends_reporting delta)
      (KeepsStandings.of_same (.refl pipeline)).movesOn⟩
  fresh := h.fresh
  revisions id := by
    show (deltasOf id (journal.emitted ++ [delta])).map _ =
      List.range' 1 (deltasOf id (journal.emitted ++ [delta])).length
    by_cases hId : delta.generation = id
    · subst hId
      rw [deltasOf_concat_self, List.map_append, h.revisions, List.length_append,
        List.length_singleton, List.range'_1_concat, List.map_singleton, ← hOwed, Nat.add_comm 1]
    · rw [deltasOf_concat_other hId]
      exact h.revisions id
  unfiled id hNone := by
    show deltasOf id (journal.emitted ++ [delta]) = []
    have hOther : delta.generation ≠ id := by
      rintro rfl
      cases hGet.symm.trans hNone
    rw [deltasOf_concat_other hOther]
    exact h.unfiled id hNone

/-- **A slice reports its delta**, which is now on its way. -/
theorem HandedOver.reported {expected : Option Nat} {report : ClassificationSliceReport}
    {delta : ClassificationRevisionDelta} (h : HandedOver journal life)
    (hStage : life.stage = .slicing (.classifying expected (.returned (.report report))))
    (hDelta : report.publication = some delta) :
    HandedOver { journal with emitted := journal.emitted ++ [delta] }
      { life with stage := .publishing (publishClassification (.ok report) expected) } := by
  have hReady := h.stage
  have hCaught := h.caughtUp
  rw [hStage] at hReady hCaught
  have hHands : (Stage.slicing (.classifying expected (.returned (.report report)))).Hands delta :=
    hDelta
  have hOnly : ∀ other,
      (Stage.slicing (.classifying expected (.returned (.report report)))).Hands other →
        other = delta :=
    fun other hOther => Option.some.inj ((show report.publication = some other from
      hOther).symm.trans hDelta)
  have hNotFailed :
      ¬ (Stage.slicing (.classifying expected (.returned (.report report)))).Failed := by
    rintro ⟨panic, hPanic⟩
    cases hPanic
  obtain ⟨hGeneration, hDisposition⟩ := hReady.reported expected _ report delta rfl rfl hDelta
  have hFlight := hReady.hands delta hHands
  have hOwed := hReady.owed delta hHands
  obtain ⟨standing, hGet, hRevision⟩ := hFlight.latest
  obtain ⟨continues, classificationState, hSlice⟩ : ∃ continues classificationState,
      publishClassification (.ok report) expected = .publishing continues
        (.publishClassificationUpdate delta.generation (some delta) classificationState) := by
    simp only [publishClassification, recordClassificationOutcome, ← hGeneration, ← hDelta]
    cases hState : publishedState report.disposition with
    | some classificationState => exact ⟨_, _, rfl⟩
    | none =>
      unfold publishedState at hState
      split at hState
      · cases hState
      · cases hState
      · cases hState
      · next hStale => exact absurd hStale hDisposition
  rw [hSlice]
  refine ⟨⟨h.remembered.distinct, h.remembered.filedFor, h.remembered.now, h.remembered.known,
    h.remembered.unique⟩, h.agreed.reporting hGet hOwed,
    h.turn.mono (journal.extends_reporting delta)
      (KeepsStandings.of_same (.refl life.pipeline)).movesOn rfl, ?_, ?_, fun _ => ?_⟩
  · refine .of_publishing trivial (fun generation other otherState hOp => ?_)
      (fun _ hEq => by cases hEq) (fun other hNow => ?_) fun id found hFound _ => ?_
    · obtain ⟨hSame, hOther⟩ := hOp
      rw [← hSame, ← Option.some.inj hOther.1]
    · obtain ⟨otherState, hOp⟩ := hNow
      rw [← Option.some.inj hOp.2.1]
      exact hFlight
    · show (deltasOf id (journal.emitted ++ [delta])).length = found.revision
      by_cases hId : delta.generation = id
      · subst hId
        obtain rfl : standing = found := Option.some.inj (hGet.symm.trans hFound)
        rw [deltasOf_concat_self, List.length_append, List.length_singleton, hOwed, hRevision]
      · rw [deltasOf_concat_other hId]
        exact hReady.emitted id found hFound hNotFailed fun other hOther => hOnly other hOther ▸ hId
  · intro id found hCurrent hFound hShown _ hFree
    refine hCaught id found hCurrent hFound hShown hNotFailed ?_
    rintro other (hOther | hOther)
    · rw [hOnly other hOther]
      exact hFree delta (Or.inr ⟨classificationState, rfl, rfl, rfl⟩)
    · exact hOther.elim
  · exact h.begun_of_stage (by simp [hStage])

/-- A slice that reports no delta. -/
theorem HandedOver.returned {expected : Option Nat} {sliceEnd : SliceEnd}
    {report : Except ClassificationError ClassificationSliceReport}
    (h : HandedOver journal life)
    (hStage : life.stage = .slicing (.classifying expected (.returned sliceEnd)))
    (hResult : returnedReport sliceEnd = some report) (hNone : sliceEnd.publication = none) :
    HandedOver journal { life with
      stage := .publishing (publishClassification report expected) } := by
  have hReady := h.stage
  have hCaught := h.caughtUp
  rw [hStage] at hReady hCaught
  have hHands : ∀ delta,
      ¬ (Stage.slicing (.classifying expected (.returned sliceEnd))).Hands delta :=
    fun delta hHands => by cases hNone.symm.trans hHands
  have hNotFailed :
      ¬ (Stage.slicing (.classifying expected (.returned sliceEnd))).Failed := by
    rintro ⟨panic, hPanic⟩
    obtain rfl : sliceEnd = .panic panic := Option.some.inj hPanic
    cases hResult
  have hBegun : life.published.classificationGeneration.isSome :=
    h.begun_of_stage (by simp [hStage])
  obtain ⟨continues, op, hSlice, hFits, hOp, hError⟩ : ∃ continues op,
      publishClassification report expected = .publishing continues op ∧
      op.Fits life.published ∧
      (∀ generation delta classificationState,
        ¬ op.Updates generation (some delta) classificationState) ∧
      ∀ error, op = .returned (.err error) → error.isPreparation = true := by
    cases sliceEnd with
    | panic => cases hResult
    | error error =>
      obtain rfl := Option.some.inj hResult
      cases expected with
      | none => exact ⟨_, _, rfl, trivial, fun _ _ _ hOp => hOp, fun _ hEq => (by cases hEq)⟩
      | some generation =>
        refine ⟨_, _, rfl, trivial, fun _ _ _ hOp => ?_, fun _ hEq => (by cases hEq)⟩
        cases hOp.2.1
    | report sliceReport =>
      obtain rfl := Option.some.inj hResult
      have hNone : sliceReport.publication = none := hNone
      simp only [publishClassification, recordClassificationOutcome, hNone]
      split
      · exact ⟨_, _, rfl, trivial, fun _ _ _ hOp => hOp, fun _ hEq => (by cases hEq)⟩
      · refine ⟨_, _, rfl, trivial, fun _ _ _ hOp => ?_, fun _ hEq => (by cases hEq)⟩
        cases hOp.2.1
  rw [hSlice]
  exact ⟨h.remembered, h.agreed, h.turn,
    hReady.without_delta hHands hNotFailed hFits hOp hError,
    hCaught.settled hNotFailed fun delta => ⟨hHands delta, fun hNow => hNow.elim⟩, fun _ => hBegun⟩

section Publications

variable [ResponseEncoder] {continues : Bool} {op op' : Op} {task : TaskOutcome}
  {commit : Option Commit}

/-- **A lifecycle action** keeps the account. -/
theorem HandedOver.lifecycleActed {generation : Nat} {classificationState : ClassificationState}
    (h : HandedOver journal life)
    (hAttended : life.stage.Attended)
    (hStage : life.stage = .publishing (.publishing continues op))
    (hOp : op.Updates generation none classificationState)
    (hStep : opStep source.publisher task life.published op = some (published', op', commit)) :
    HandedOver journal { life with
      published := published', stage := .publishing (.publishing continues op') } := by
  obtain ⟨hShown, hNext⟩ := lifecycle_shown hOp hStep
  have hReady := h.stage.shownOn hAttended (Or.inl hShown)
  have hCaught := h.caughtUp
  rw [hStage] at hReady hCaught
  have hNotFailed := not_failed_of_updates continues hOp
  have hNoDelta : ∀ {other : Op}, other.Updates generation none classificationState →
      ∀ otherGeneration delta otherState,
        ¬ other.Updates otherGeneration (some delta) otherState := by
    intro other hOther otherGeneration delta otherState hSome
    cases (Op.updates_unique hOther hSome).2
  have hBegun : published'.classificationGeneration.isSome := by
    rw [hShown.generation]
    exact h.begun_of_stage (by simp [hStage])
  refine ⟨h.remembered, h.agreed.sameShown hShown, h.turn, ?_, ?_, fun _ => hBegun⟩
  · rcases hNext with ⟨hGoes, hFits⟩ | ⟨result, rfl⟩
    · refine hReady.without_delta (fun _ hNow => hNow.elim) hNotFailed hFits (hNoDelta hGoes) ?_
      rintro error rfl
      exact hGoes.elim
    · refine hReady.without_delta (fun _ hNow => hNow.elim) hNotFailed trivial
        (fun _ _ _ hNow => hNow) ?_
      rintro error ⟨⟩
      refine lifecycle_error hOp (fun hGeneration => ?_) hStep
      exact (h.agreed.shown generation hGeneration).1
  · refine (hCaught.sameShown hShown).settled hNotFailed fun delta =>
      ⟨fun hNow => hNow.elim, fun hNow => ?_⟩
    obtain ⟨otherState, hSome⟩ := hNow
    exact hNoDelta hOp _ _ _ hSome

/-- **A step of a delta on its way.** -/
theorem HandedOver.deltaActed {delta : ClassificationRevisionDelta}
    {classificationState : ClassificationState} (h : HandedOver journal life)
    (hStage : life.stage = .publishing (.publishing continues op))
    (hOp : op.Updates delta.generation (some delta) classificationState)
    (hStep : opStep source.publisher task life.published op = some (published', op', commit)) :
    HandedOver journal { life with
      published := published', stage := .publishing (.publishing continues op') } := by
  have hReady := h.stage
  have hCaught := h.caughtUp
  rw [hStage] at hReady hCaught
  have hNotFailed := not_failed_of_updates continues hOp
  have hBegun : life.published.classificationGeneration.isSome :=
    h.begun_of_stage (by simp [hStage])
  obtain ⟨hFits, -, -⟩ := hReady.updating continues op rfl
  have hFlight := hReady.publishes delta ⟨classificationState, hOp⟩
  have hOnly : ∀ other, (Stage.publishing (.publishing continues op)).Publishes other →
      other = delta := by
    rintro other ⟨otherState, hOther⟩
    exact (Option.some.inj (Op.updates_unique hOp hOther).2).symm
  -- the other generations are as they were when the operation gives up
  have hCaughtOthers : ∀ id standing, life.pipeline.current = some id →
      life.pipeline.standing id = some standing →
      life.published.classificationGeneration = some id → delta.generation ≠ id →
      standing.revision = life.published.classificationRevision := by
    intro id standing hCurrent hGet hShown hOther
    refine hCaught id standing hCurrent hGet hShown hNotFailed ?_
    rintro other (hNow | hNow)
    · exact hNow.elim
    · exact hOnly other hNow ▸ hOther
  cases handing_step hOp hFits (hFlight.expects h.remembered) hStep with
  | goes hOp' hFits' =>
    have hOnly' : ∀ other, (Stage.publishing (.publishing continues op')).Publishes other →
        other = delta := by
      rintro other ⟨otherState, hOther⟩
      exact (Option.some.inj (Op.updates_unique hOp' hOther).2).symm
    refine ⟨h.remembered, h.agreed, h.turn, ?_, ?_, fun _ => hBegun⟩
    · refine .of_publishing hFits' (fun generation other otherState hOther => ?_) ?_
        (fun other hNow => ?_) fun id standing hGet _ => ?_
      · obtain ⟨hSame, hDelta⟩ := Op.updates_unique hOp' hOther
        rw [← hSame, ← Option.some.inj hDelta]
      · rintro error rfl
        exact hOp'.elim
      · rw [hOnly' other hNow]
        exact hFlight
      · exact hReady.emitted id standing hGet hNotFailed fun _ hNow => hNow.elim
    · intro id standing hCurrent hGet hShown _ hFree
      exact hCaughtOthers id standing hCurrent hGet hShown
        (hFree delta (Or.inr ⟨classificationState, hOp'⟩))
  | @failed error hError =>
    have hFailed : (Stage.publishing (.publishing continues (.raise error))).Failed := hError
    refine ⟨h.remembered, h.agreed, h.turn, ?_, ?_, fun _ => hBegun⟩
    · refine .of_publishing trivial (fun _ _ _ hOther => hOther.elim) ?_ ?_
        fun _ _ _ hNot => absurd hFailed hNot
      · rintro _ ⟨⟩
        exact hError
      · rintro other ⟨otherState, hOther⟩
        exact hOther.elim
    · exact fun _ _ _ _ _ hNot => absurd hFailed hNot
  | superseded hGeneration =>
    refine ⟨h.remembered, h.agreed, h.turn, ?_, ?_, fun _ => hBegun⟩
    · exact hReady.without_delta (fun _ hNow => hNow.elim) hNotFailed trivial
        (fun _ _ _ hNow => hNow) fun _ hEq => by cases hEq
    · intro id standing hCurrent hGet hShown _ _
      refine hCaughtOthers id standing hCurrent hGet hShown fun hId => hGeneration ?_
      rw [hId]
      exact hShown
  | committed hGeneration hGeneration' hRevision hMembership hLatest hClassifications =>
    obtain ⟨-, membership, hOwn, hShows⟩ := hFlight.follows hGeneration
    refine ⟨h.remembered, ?_, h.turn, ?_, ?_, fun _ => ?_⟩
    · refine ⟨fun generation hShown => ?_, fun id standing hCurrent hGet hOther => ?_,
        h.agreed.revisions, h.agreed.unfiled⟩
      · obtain rfl := Option.some.inj (hGeneration'.symm.trans hShown)
        refine ⟨hLatest, membership, hMembership.trans hOwn, ?_⟩
        show Shows journal life.pipeline delta.generation membership
          published'.classificationRevision published'.classifications
        rw [hRevision, hClassifications]
        exact hShows
      · refine h.agreed.fresh id standing hCurrent hGet fun hShown => hOther ?_
        exact hGeneration'.trans (hGeneration.symm.trans hShown)
    · refine .of_publishing trivial (fun _ _ _ hOther => hOther.elim)
        (fun _ hEq => by cases hEq) ?_ fun id standing hGet _ => ?_
      · rintro other ⟨otherState, hOther⟩
        exact hOther.elim
      · exact hReady.emitted id standing hGet hNotFailed fun _ hNow => hNow.elim
    · intro id standing hCurrent hGet hShown _ _
      obtain rfl := Option.some.inj (hGeneration'.symm.trans hShown)
      obtain ⟨found, hFound, hReached⟩ := hFlight.latest
      obtain rfl : found = standing := Option.some.inj (hFound.symm.trans hGet)
      exact hReached.trans hRevision.symm
    · show published'.classificationGeneration.isSome
      rw [hGeneration']
      rfl

end Publications

-- ---------------------------------------------------------------------------
-- Steps of a round
-- ---------------------------------------------------------------------------

/-- The turn has moved without a publication. -/
theorem HandedOver.turned (h : HandedOver journal life)
    (hHeld : ∀ publication, turn'.Holds publication → life.turn.Holds publication)
    (hFits : ∀ publication op, turn' = .calling (.ok publication) op → op.Publishes publication →
      ∀ published, op.Fits published)
    (hBegun : turn' = .scheduling ∨
      (∃ outcome, turn' = .calling outcome (.returned (.published true))) →
      life.published.classificationGeneration.isSome) :
    HandedOver journal { life with turn := turn' } := by
  refine ⟨h.remembered, h.agreed, ⟨fun publication hHolds => h.turn.held publication
    (hHeld publication hHolds), hFits⟩, h.stage, h.caughtUp, ?_⟩
  rintro (hPending | hActive | hStage | hTurn)
  · exact h.begun (Or.inl hPending)
  · exact h.begun (Or.inr (Or.inl hActive))
  · exact h.begun (Or.inr (Or.inr (Or.inl hStage)))
  · exact hBegun hTurn

section Rounds

variable [ResponseEncoder] {op op' : Op} {task : TaskOutcome} {commit : Option Commit}
  {outcome : Outcome}

omit [ResponseEncoder] in
/-- Showing the same keeps the account. -/
theorem HandedOver.shownOn (h : HandedOver journal life) (hAttended : life.stage.Attended)
    (hShown : SameShown life.published published') :
    HandedOver journal { life with published := published' } where
  remembered := h.remembered
  agreed := h.agreed.sameShown hShown
  turn := h.turn
  stage := h.stage.shownOn hAttended (Or.inl hShown)
  caughtUp := h.caughtUp.sameShown hShown
  begun hNow := by
    show published'.classificationGeneration.isSome
    rw [hShown.generation]
    exact h.begun hNow

/-- **A step of the call for an outcome.** -/
theorem HandedOver.outcomeActed [BitcoinCrate] (h : HandedOver journal life)
    (hAttended : Attended life) (hTurn : life.turn = .calling outcome op)
    (hStep : opStep source.publisher task life.published op = some (published', op', commit)) :
    HandedOver journal { life with published := published', turn := .calling outcome op' } := by
  have hTurnAttended := hAttended.turn
  have hReady := h.turn
  have hNewer := hAttended.held
  rw [hTurn] at hTurnAttended hReady hNewer
  rcases hTurnAttended with hCalls | ⟨result, rfl, -⟩
  · cases outcome with
    | ok publication =>
      have hOp : op.Publishes publication := hCalls
      have hHeld := hReady.held publication ⟨rfl, hOp⟩
      have hFits := hReady.fits publication op rfl hOp life.published
      cases beginning_step hOp hFits hStep with
      | goes hOp' hFits' =>
        refine h.turned (fun other hHolds => ?_) (fun other otherOp hEq hPublishes => ?_) ?_
        · obtain ⟨hSame, hPublishes⟩ := hHolds
          rw [hTurn]
          exact ⟨hSame, Except.ok.inj hSame ▸ hOp⟩
        · obtain ⟨hOutcome, rfl⟩ := Turn.calling.inj hEq
          exact Op.fits_of_publishes hPublishes hFits'
        · rintro (hNone | ⟨other, hEq⟩)
          · cases hNone
          · obtain ⟨-, rfl⟩ := Turn.calling.inj hEq
            exact hOp'.elim
      | returned hResult =>
        refine h.turned (fun _ hHolds => hHolds.2.elim) (fun _ _ hEq hPublishes => ?_) ?_
        · obtain ⟨-, rfl⟩ := Turn.calling.inj hEq
          exact hPublishes.elim
        · rintro (hNone | ⟨other, hEq⟩)
          · cases hNone
          · obtain ⟨-, hReturned⟩ := Turn.calling.inj hEq
            exact absurd (Op.returned.inj hReturned) hResult
      | committed hGeneration hRevision hMembership hLatest hClassifications =>
        obtain ⟨hZero, hCurrent, hShows⟩ := hHeld
        have hLater : ∀ before, life.published.classificationGeneration = some before →
            before < publication.generation := by
          intro before hBefore
          have hSuperseded := (hNewer publication ⟨rfl, hOp⟩).2
          rw [hBefore] at hSuperseded
          simpa [supersededBy] using hSuperseded
        have hShown : ShownOn life.published published' :=
          Or.inr ⟨publication.generation, hGeneration, hLater⟩
        refine ⟨h.remembered, ?_, ⟨fun _ hHolds => hHolds.2.elim, ?_⟩,
          h.stage.shownOn hAttended.stage hShown, ?_, fun _ => ?_⟩
        · refine ⟨fun generation hIs => ?_, fun id standing hNow hGet hOther => ?_,
            h.agreed.revisions, h.agreed.unfiled⟩
          · obtain rfl := Option.some.inj (hGeneration.symm.trans hIs)
            refine ⟨hLatest, publication.membership, hMembership, ?_⟩
            show Shows journal life.pipeline publication.generation publication.membership
              published'.classificationRevision published'.classifications
            rw [hRevision, hZero, hClassifications]
            exact hShows
          · obtain rfl := Option.some.inj (hCurrent.symm.trans hNow)
            exact absurd hGeneration hOther
        · rintro other otherOp hEq hPublishes
          obtain ⟨-, rfl⟩ := Turn.calling.inj hEq
          exact hPublishes.elim
        · intro id standing hNow hGet hIs _ _
          obtain rfl := Option.some.inj (hGeneration.symm.trans hIs)
          have hFresh := h.agreed.fresh publication.generation standing hCurrent hGet
            fun hBefore => (hLater _ hBefore).false
          rw [hFresh]
          show 0 = published'.classificationRevision
          rw [hRevision, hZero]
        · show published'.classificationGeneration.isSome
          rw [hGeneration]
          rfl
    | error error =>
      cases error with
      | rpc publicMessage =>
        obtain ⟨hShown, hNotTrue⟩ := recording_shown hCalls hStep
        refine (h.shownOn hAttended.stage hShown).turned (fun _ hHolds => ?_)
          (fun _ _ hEq => ?_) ?_
        · cases hHolds.1
        · cases hEq
        · rintro (hNone | ⟨other, hEq⟩)
          · cases hNone
          · obtain ⟨-, hReturned⟩ := Turn.calling.inj hEq
            exact absurd hReturned hNotTrue
      | _ => exact hCalls.elim
  · cases hStep

end Rounds

/-- **An installation** begins a generation the publisher has not seen. -/
theorem HandedOver.installed [BitcoinCrate] {membership : MempoolSnapshot} {id : Nat}
    (h : HandedOver journal life) (limits : ClassificationLimits)
    (variants : BTreeMap Txid CurrentVariant) (hAttended : Attended life)
    (hFiled : Filed life.pipeline)
    (hKeyed : Keyed life.pipeline) (hStage : ∀ slice, life.stage ≠ .slicing slice)
    (hId : checkedAdd life.pipeline.nextGeneration 1 = some id)
    (hDistinct : DistinctEntries membership)
    (hPipeline : pipeline' = (installGeneration limits life.pipeline membership variants id).1)
    {publication : ClassificationGenerationStart}
    (hPublication : publication =
      (installGeneration limits life.pipeline membership variants id).2) :
    HandedOver { journal.noting pipeline' with begun := journal.begun ++ [publication] }
      { life with pipeline := pipeline', turn := .waiting (.ok publication) } := by
  obtain ⟨-, hNext⟩ := checkedAdd_eq_some.mp hId
  have hStanding' : ∀ other, pipeline'.standing other = if id = other then
      some ⟨membership, 0, (carry (currentWork life.pipeline) membership).cached⟩
      else life.pipeline.standing other := by
    rw [hPipeline]
    exact installGeneration_standing limits life.pipeline membership variants id
  have hNew : life.pipeline.standing id = none := by
    unfold PipelineState.standing
    cases hGet : life.pipeline.generations[id]? with
    | none => rfl
    | some generation =>
      have hBound := hFiled.id_le id generation hGet
      omega
  have hCurrent' : pipeline'.current = some id := by rw [hPipeline]; rfl
  have hKeeps : KeepsStandings life.pipeline pipeline' := by
    intro other standing hGet
    rw [hStanding', if_neg]
    · exact hGet
    · rintro rfl
      cases hNew.symm.trans hGet
  have hExtends : journal.Extends { journal.noting pipeline' with
      begun := journal.begun ++ [publication] } :=
    ⟨fun _ _ _ hPast => Or.inl hPast, List.subset_append_left .., List.prefix_rfl⟩
  have hNotShown : life.published.classificationGeneration ≠ some id := by
    intro hIs
    have hBound := hAttended.published id hIs
    omega
  have hNoted := h.remembered.noting hKeeps.movesOn
    (fun other standing hGet => by
      rw [hStanding'] at hGet
      split at hGet
      · rw [← Option.some.inj hGet]
        exact hDistinct
      · exact h.remembered.distinct other standing hGet)
    (fun other standing hGet => by
      rw [hStanding'] at hGet
      split at hGet
      · rw [← Option.some.inj hGet]
        exact carried_filedFor hKeyed membership
      · exact h.remembered.filedFor other standing hGet)
  have hReady := h.stage
  refine ⟨⟨hNoted.distinct, hNoted.filedFor, hNoted.now, hNoted.known, hNoted.unique⟩,
    ?_, ⟨?_, fun _ _ hEq => (by cases hEq)⟩, ?_, ?_, ?_⟩
  · refine ⟨fun generation hIs => ?_, fun other standing hNow hGet _ => ?_, h.agreed.revisions,
      fun other hNone => h.agreed.unfiled other ?_⟩
    · obtain ⟨hLatest, shown, hShown, hShows⟩ := h.agreed.shown generation hIs
      exact ⟨hLatest, shown, hShown, hShows.mono hExtends hKeeps.movesOn⟩
    · obtain rfl : id = other := Option.some.inj (hCurrent'.symm.trans hNow)
      have hAfter := (hStanding' id).symm.trans hGet
      rw [if_pos rfl] at hAfter
      rw [← Option.some.inj hAfter]
    · cases hBefore : life.pipeline.standing other with
      | none => rfl
      | some standing => cases (hKeeps other standing hBefore).symm.trans hNone
  · intro other hHolds
    obtain rfl : publication = other := Except.ok.inj hHolds
    have hGeneration : publication.generation = id := by rw [hPublication]; rfl
    refine ⟨by rw [hPublication]; rfl, hGeneration ▸ hCurrent', ?_⟩
    rw [hGeneration]
    have hNow : pipeline'.standing id = some ⟨membership, 0,
        (carry (currentWork life.pipeline) membership).cached⟩ := by rw [hStanding', if_pos rfl]
    refine ⟨⟨_, hNow, by rw [hPublication]; rfl⟩, ⟨_, Or.inr ⟨_, hNow, rfl, rfl⟩, ?_⟩,
      Nat.zero_le _, publication, List.mem_append_right _ (List.mem_singleton_self _),
      hGeneration, by rw [hPublication]; rfl, rfl⟩
    have hSame := carried_same hKeyed hDistinct
    rw [hPublication]
    exact hSame
  · refine ⟨fun expected call hSlicing => absurd hSlicing (hStage _),
      fun expected call _ _ hSlicing => absurd hSlicing (hStage _), fun delta hNow => ?_,
      hReady.updating, fun delta hNow => (hReady.publishes delta hNow).extends hExtends hKeeps,
      fun other standing hGet hFailed hFree => ?_, hReady.owed⟩
    · unfold Stage.Hands at hNow
      split at hNow
      · next hSlicing => exact absurd hSlicing (hStage _)
      · exact hNow.elim
    · have hAfter := (hStanding' other).symm.trans hGet
      split at hAfter
      · next hIs =>
        subst hIs
        rw [← Option.some.inj hAfter]
        exact congrArg List.length (h.agreed.unfiled id hNew)
      · exact hReady.emitted other standing hAfter hFailed hFree
  · intro other standing hNow _ hIs _ _
    obtain rfl : id = other := Option.some.inj (hCurrent'.symm.trans hNow)
    exact absurd hIs hNotShown
  · rintro (hPending | hActive | hIdle | hNone | ⟨other, hNone⟩)
    · exact h.begun (Or.inl hPending)
    · exact h.begun (Or.inr (Or.inl hActive))
    · exact h.begun (Or.inr (Or.inr (Or.inl hIdle)))
    · cases hNone
    · cases hNone

-- ---------------------------------------------------------------------------
-- Steps
-- ---------------------------------------------------------------------------

/-- What a run must not do: install a membership that names an entry twice, or fail to
prepare a publication. -/
structure AtlasEvent.Sound (sourceIndex : Nat) (event : AtlasEvent) : Prop where
  distinct : ∀ publication, event = .collected sourceIndex (.ok publication) →
    DistinctEntries publication.membership
  prepared : ∀ continues error,
    event = .classificationReturned sourceIndex continues (.err error) →
    error.isPreparation = false

section Steps

variable [BitcoinCrate] [WireJson] [ResponseEncoder]

/-- No publication returns an error. -/
theorem HandedOver.accepts (h : HandedOver journal life) (hSound : event.Sound sourceIndex)
    (hStep : LifeStep source sourceIndex life event life') (continues : Bool)
    (error : RuntimeError) :
    event ≠ .classificationReturned sourceIndex continues (.err error) := by
  rintro rfl
  cases hStep with
  | other hOther => exact hOther rfl
  | finished hStage =>
    have hReady := h.stage
    rw [hStage] at hReady
    have hPreparation := (hReady.updating continues _ rfl).2.2 error rfl
    rw [hSound.prepared continues error rfl] at hPreparation
    cases hPreparation

/-- **One step of a life** keeps the publisher in step with the pipeline. -/
theorem HandedOver.step {history : List Event} (h : HandedOver journal life)
    (hAttended : Attended life) (hReached : PipelineReached source.limits history life)
    (hSound : event.Sound sourceIndex) (hStep : LifeStep source sourceIndex life event life') :
    ∃ journal', journal.Next sourceIndex event life'.pipeline journal' ∧
      HandedOver journal' life' := by
  obtain ⟨hPipelineSound, hKeyed, -⟩ := hReached.sound
  have hAccepts := h.accepts hSound hStep
  cases hStep with
  | other hOther =>
    obtain ⟨hBegins, hEmits⟩ := other_adds_nothing hOther
    exact ⟨journal, .same hBegins hEmits, h⟩
  | drained hStage =>
    refine ⟨journal, .same rfl rfl, h.remembered, h.agreed, h.turn, h.stage, h.caughtUp, ?_⟩
    rintro (hPending | hActive | hRest)
    · cases hPending
    · rcases Bool.or_eq_true_iff.mp hActive with hPending | hActive
      · exact h.begun (Or.inl hPending)
      · exact h.begun (Or.inr (Or.inl hActive))
    · exact h.begun (Or.inr (Or.inr hRest))
  | picked hActive hStage =>
    have hQuiet : life.stage.Quiet := by rw [hStage]; trivial
    exact ⟨journal, .same rfl rfl, h.remembered, h.agreed, h.turn,
      h.stage.quiet hQuiet.not_hands hQuiet.not_failed trivial,
      h.caughtUp.settled hQuiet.not_failed fun delta =>
        ⟨hQuiet.not_hands delta, hQuiet.not_publishes delta⟩,
      fun _ => h.begun (Or.inr (Or.inl hActive))⟩
  | sliceStarted hStage =>
    have hQuiet : life.stage.Quiet := by rw [hStage]; trivial
    exact ⟨journal, .same rfl rfl, h.remembered, h.agreed, h.turn,
      h.stage.quiet hQuiet.not_hands hQuiet.not_failed trivial,
      h.caughtUp.settled hQuiet.not_failed fun delta =>
        ⟨hQuiet.not_hands delta, hQuiet.not_publishes delta⟩,
      fun _ => h.begun_of_stage (by simp [hStage])⟩
  | generationRead hStage =>
    have hQuiet : life.stage.Quiet := by rw [hStage]; trivial
    have hBegun : life.published.classificationGeneration.isSome :=
      h.begun_of_stage (by simp [hStage])
    obtain ⟨generation, hGeneration⟩ := Option.isSome_iff_exists.mp hBegun
    refine ⟨journal, .same rfl rfl, h.remembered, h.agreed, h.turn, ?_,
      h.caughtUp.settled hQuiet.not_failed fun delta =>
        ⟨hQuiet.not_hands delta, hQuiet.not_publishes delta⟩, fun _ => hBegun⟩
    rw [hGeneration]
    exact h.stage.begin hQuiet hGeneration le_rfl (Or.inl rfl) rfl
  | classified hStage hCall =>
    exact h.classified hAttended.published hReached hStage hCall
  | @sliceReturned expected sliceEnd report hStage hResult =>
    cases hDelta : sliceEnd.publication with
    | none =>
      refine ⟨journal, .same rfl ?_, h.returned hStage hResult hDelta⟩
      cases sliceEnd with
      | report sliceReport =>
        obtain rfl := Option.some.inj hResult
        have hNone : sliceReport.publication = none := hDelta
        simp [AtlasEvent.emits, hNone]
      | error error =>
        obtain rfl := Option.some.inj hResult
        rfl
      | panic => cases hResult
    | some delta =>
      cases sliceEnd with
      | report sliceReport =>
        obtain rfl := Option.some.inj hResult
        have hSome : sliceReport.publication = some delta := hDelta
        refine ⟨{ journal with emitted := journal.emitted ++ [delta] },
          ⟨(List.append_nil _).symm, ?_, fun _ _ _ hPast => hPast, fun _ _ _ hPast => Or.inl hPast⟩,
          h.reported hStage hSome⟩
        simp [AtlasEvent.emits, hSome]
      | error => cases hDelta
      | panic => cases hDelta
  | @classificationActed continues op op' task published commit hStage hOp =>
    refine ⟨journal, .same rfl rfl, ?_⟩
    have hStageAttended := hAttended.stage
    rw [hStage] at hStageAttended
    rcases hStageAttended with ⟨generation, delta, classificationState, hUpdates⟩ | ⟨result, rfl⟩
    · cases delta with
      | none => exact h.lifecycleActed hAttended.stage hStage hUpdates hOp
      | some delta =>
        have hReady := h.stage
        rw [hStage] at hReady
        obtain rfl := (hReady.updating continues op rfl).2.1 generation delta classificationState
          hUpdates
        exact h.deltaActed hStage hUpdates hOp
    · cases hOp
  | @finished continues result hStage =>
    have hReady := h.stage
    have hCaught := h.caughtUp
    rw [hStage] at hReady hCaught
    have hNotFailed :
        ¬ (Stage.publishing (.publishing continues (.returned result))).Failed := by
      intro hFailed
      cases result with
      | err error => exact hAccepts continues error rfl
      | done => exact hFailed
      | published => exact hFailed
    have hNoDelta : ∀ delta,
        ¬ (Stage.publishing (.publishing continues (.returned result))).Publishes delta := by
      rintro delta ⟨classificationState, hOp⟩
      exact hOp
    exact ⟨journal, .same rfl rfl, h.remembered, h.agreed, h.turn,
      hReady.quiet (fun _ hNow => hNow) hNotFailed trivial,
      hCaught.settled hNotFailed fun delta => ⟨fun hNow => hNow, hNoDelta delta⟩,
      fun _ => h.begun_of_stage (by simp [hStage])⟩
  | pollStarted startedAtMs =>
    exact ⟨journal, .same rfl rfl, h.shownOn hAttended.stage ⟨rfl, rfl, rfl, rfl, rfl⟩⟩
  | failed error hTurn =>
    refine ⟨journal, .same rfl rfl, h.turned (fun _ hHolds => ?_)
      (fun _ _ hEq => by cases hEq) ?_⟩
    · cases hHolds
    · rintro (hNone | ⟨other, hNone⟩) <;> cases hNone
  | @installed snapshot pipeline sliceEvent result hTurn hStage hInstall =>
    cases installation_of_eq hInstall with
    | failed error =>
      refine ⟨journal, .same rfl rfl, h.turned (fun _ hHolds => ?_)
        (fun _ _ hEq => by cases hEq) ?_⟩
      · cases hHolds
      · rintro (hNone | ⟨other, hNone⟩) <;> cases hNone
    | @installed variants id hVariants hId =>
      have hDistinct : DistinctEntries snapshot := hSound.distinct _ rfl
      have hNext := h.installed source.limits variants hAttended hPipelineSound.toFiled hKeyed
        hStage hId hDistinct rfl rfl
      refine ⟨_, ⟨?_, ?_, ?_, ?_⟩, hNext⟩
      · simp [AtlasEvent.begins, Except.mapError]
      · exact (List.append_nil _).symm
      · exact fun _ _ _ hPast => Or.inl hPast
      · exact fun _ _ _ hPast => hPast
  | @taken outcome op hTurn hCall =>
    refine ⟨journal, .same rfl rfl, h.turned (fun publication hHolds => ?_)
      (fun publication called hEq hPublishes published => ?_) ?_⟩
    · rw [hTurn]
      exact hHolds.1
    · obtain ⟨rfl, rfl⟩ := Turn.calling.inj hEq
      obtain rfl := Option.some.inj hCall
      trivial
    · rintro (hNone | ⟨other, hEq⟩)
      · cases hNone
      · obtain ⟨rfl, rfl⟩ := Turn.calling.inj hEq
        unfold Outcome.call at hCall
        split at hCall <;> cases hCall
  | logged hTurn hCall =>
    refine ⟨journal, .same rfl rfl, h.turned (fun _ hHolds => hHolds.elim)
      (fun _ _ hEq => by cases hEq) ?_⟩
    rintro (hNone | ⟨other, hNone⟩) <;> cases hNone
  | outcomeActed hTurn hOp =>
    exact ⟨journal, .same rfl rfl, h.outcomeActed hAttended hTurn hOp⟩
  | @settled outcome result hTurn =>
    refine ⟨journal, .same rfl rfl, h.turned (fun publication hHolds => ?_) ?_ ?_⟩
    · unfold turnAfterCall at hHolds
      split at hHolds <;> exact hHolds.elim
    · intro publication op hEq
      unfold turnAfterCall at hEq
      split at hEq <;> cases hEq
    · intro hNow
      unfold turnAfterCall at hNow
      split at hNow
      · exact h.begun (Or.inr (Or.inr (Or.inr (Or.inr ⟨outcome, hTurn⟩))))
      · rcases hNow with hNone | ⟨other, hNone⟩ <;> cases hNone
  | scheduled hTurn =>
    have hBegun := h.begun (Or.inr (Or.inr (Or.inr (Or.inl hTurn))))
    exact ⟨journal, .same rfl rfl, h.remembered, h.agreed,
      ⟨fun _ hHolds => hHolds.elim, fun _ _ hEq => (by cases hEq)⟩, h.stage, h.caughtUp,
      fun _ => hBegun⟩

end Steps

end MempoolAtlas.Runtime
