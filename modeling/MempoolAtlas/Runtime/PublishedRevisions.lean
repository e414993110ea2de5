import MempoolAtlas.Runtime.DeltaHandover

/-!
# How far the publisher has followed

What holds of a source between any two steps: its publisher shows a stage its pipeline
has stood at, and only the delta in flight, if there is one, is ahead of it. A slice
that begins, goes on, ends or merges leaves this so.

## Results

* `StageReady.merged`, `caughtUp_merged` — a merge reports the next revision, or none, and the
  source stays caught up.
* `CaughtUp.goes`, `CaughtUp.ends` — so it does when a slice goes on or ends.
-/

namespace MempoolAtlas.Runtime

open Model Machine Classification Indexes

/-- A slice in flight has this delta to report. -/
def Stage.Hands (delta : ClassificationRevisionDelta) : Stage → Prop
  | .slicing (.classifying _ call) => call.publication = some delta
  | _ => False

/-- The stage is publishing this delta. -/
def Stage.Publishes (delta : ClassificationRevisionDelta) : Stage → Prop
  | .publishing (.publishing _ op) =>
    ∃ classificationState, op.Updates delta.generation (some delta) classificationState
  | _ => False

/-- The slice does not come back, or its publication was not prepared. -/
def Stage.Failed : Stage → Prop
  | .slicing (.classifying _ call) => ∃ panic, call.ended = some (.panic panic)
  | .publishing (.publishing _ (.returned (.err error))) => error.isPreparation = true
  | _ => False

/-- The call works on this generation. -/
def Call.WorksOn (generation : Nat) (call : Call) : Prop :=
  call = .classifyNextForGeneration (some generation) ∨ call.generation? = some generation ∨
    ∃ result, call = .returned result

-- ---------------------------------------------------------------------------
-- How far the publisher has followed
-- ---------------------------------------------------------------------------

/-- What is published shows the pipeline's records up to its revision. -/
structure Agreed (journal : Journal) (pipeline : PipelineState) (published : CurrentState) :
    Prop where
  shown : ∀ generation, published.classificationGeneration = some generation →
    published.latest.isSome ∧ ∃ membership, published.membership = some membership ∧
      Shows journal pipeline generation membership published.classificationRevision
        published.classifications
  /-- A generation that has not been published has not been worked on. -/
  fresh : ∀ id standing, pipeline.current = some id → pipeline.standing id = some standing →
    published.classificationGeneration ≠ some id → standing.revision = 0
  revisions : ∀ id, (deltasOf id journal.emitted).map ClassificationRevisionDelta.revision =
    List.range' 1 (deltasOf id journal.emitted).length
  unfiled : ∀ id, pipeline.standing id = none → deltasOf id journal.emitted = []

/-- The turn of a source hands over what the pipeline returned. -/
structure TurnReady (journal : Journal) (pipeline : PipelineState) (turn : Turn) : Prop where
  held : ∀ publication, turn.Holds publication → publication.revision = 0 ∧
    pipeline.current = some publication.generation ∧
    Shows journal pipeline publication.generation publication.membership 0
      publication.classifications
  fits : ∀ publication op, turn = .calling (.ok publication) op → op.Publishes publication →
    ∀ published, op.Fits published

/-- The stage of a source hands over what the pipeline returned. -/
structure StageReady (journal : Journal) (pipeline : PipelineState) (published : CurrentState)
    (stage : Stage) : Prop where
  slicing : ∀ expected call, stage = .slicing (.classifying expected call) →
    ∃ generation latest, expected = some generation ∧
      published.classificationGeneration = some latest ∧ generation ≤ latest ∧
      Call.WorksOn generation call
  reported : ∀ expected call report delta, stage = .slicing (.classifying expected call) →
    call.ended = some (.report report) → report.publication = some delta →
    report.generation = delta.generation ∧ report.disposition ≠ .stale
  hands : ∀ delta, stage.Hands delta →
    InFlight { journal with emitted := journal.emitted ++ [delta] } pipeline published delta
  updating : ∀ continues op, stage = .publishing (.publishing continues op) →
    op.Fits published ∧
    (∀ generation delta classificationState,
      op.Updates generation (some delta) classificationState → generation = delta.generation) ∧
    ∀ error, op = .returned (.err error) → error.isPreparation = true
  publishes : ∀ delta, stage.Publishes delta → InFlight journal pipeline published delta
  emitted : ∀ id standing, pipeline.standing id = some standing → ¬ stage.Failed →
    (∀ delta, stage.Hands delta → delta.generation ≠ id) →
    (deltasOf id journal.emitted).length = standing.revision
  owed : ∀ delta, stage.Hands delta →
    (deltasOf delta.generation journal.emitted).length + 1 = delta.revision

/-- The current generation is published as far as it has come, but for a delta on its way. -/
def CaughtUp (pipeline : PipelineState) (published : CurrentState) (stage : Stage) : Prop :=
  ∀ id standing, pipeline.current = some id → pipeline.standing id = some standing →
    published.classificationGeneration = some id → ¬ stage.Failed →
    (∀ delta, stage.Hands delta ∨ stage.Publishes delta → delta.generation ≠ id) →
    standing.revision = published.classificationRevision

/-- Everything between pipeline and publisher is accounted for. -/
structure HandedOver (journal : Journal) (life : SourceLife) : Prop where
  remembered : Remembered journal life.pipeline
  agreed : Agreed journal life.pipeline life.published
  turn : TurnReady journal life.pipeline life.turn
  stage : StageReady journal life.pipeline life.published life.stage
  caughtUp : CaughtUp life.pipeline life.published life.stage
  /-- Only a source that shows a generation is worked on. -/
  begun : life.pending = true ∨ life.active = true ∨ life.stage ≠ .idle ∨
    life.turn = .scheduling ∨
    (∃ outcome, life.turn = .calling outcome (.returned (.published true))) →
    life.published.classificationGeneration.isSome

variable {journal : Journal} {pipeline : PipelineState} {published published' : CurrentState}
  {stage stage' : Stage} {turn : Turn}

/-- Agreement depends on what is shown. -/
theorem Agreed.sameShown (h : Agreed journal pipeline published)
    (hSame : SameShown published published') : Agreed journal pipeline published' where
  shown generation hGeneration := by
    obtain ⟨hLatest, hShows⟩ := h.shown generation (hSame.generation ▸ hGeneration)
    rw [hSame.latest, hSame.membership, hSame.revision, hSame.classifications]
    exact ⟨hLatest, hShows⟩
  fresh id standing hCurrent hGet hOther :=
    h.fresh id standing hCurrent hGet (hSame.generation ▸ hOther)
  revisions := h.revisions
  unfiled := h.unfiled

/-- Having caught up depends on what is shown. -/
theorem CaughtUp.sameShown (h : CaughtUp pipeline published stage)
    (hSame : SameShown published published') : CaughtUp pipeline published' stage := by
  intro id standing hCurrent hGet hGeneration hFailed hFree
  rw [hSame.revision]
  exact h id standing hCurrent hGet (hSame.generation ▸ hGeneration) hFailed hFree

/-- What the other call shows leaves the slice or its publication ready. -/
theorem StageReady.shownOn (h : StageReady journal pipeline published stage)
    (hAttended : stage.Attended) (hShown : ShownOn published published') :
    StageReady journal pipeline published' stage where
  slicing expected call hSlicing := by
    obtain ⟨generation, latest, hExpected, hLatest, hLe, hWorks⟩ := h.slicing expected call hSlicing
    rcases hShown with hSame | ⟨later, hLater, hNewer⟩
    · exact ⟨generation, latest, hExpected, hSame.generation.trans hLatest, hLe, hWorks⟩
    · exact ⟨generation, later, hExpected, hLater, hLe.trans (hNewer latest hLatest).le, hWorks⟩
  reported := h.reported
  hands delta hHands := (h.hands delta hHands).shownOn hShown
  updating continues op hPublishing := by
    obtain ⟨hFits, hRest⟩ := h.updating continues op hPublishing
    refine ⟨?_, hRest⟩
    subst hPublishing
    rcases hAttended with ⟨generation, delta, classificationState, hOp⟩ | ⟨result, rfl⟩
    · cases delta with
      | none => exact Op.fits_of_no_delta hOp published'
      | some delta =>
        refine hFits.moved hOp fun hGeneration => ?_
        rcases hShown with hSame | ⟨later, hLater, hNewer⟩
        · exact hSame
        · obtain rfl := hRest.1 generation delta classificationState hOp
          obtain ⟨latest, hLatest, hLe⟩ := (h.publishes delta ⟨classificationState, hOp⟩).reached
          have hIs : later = delta.generation :=
            Option.some.inj (hLater.symm.trans hGeneration)
          have hLt := hNewer latest hLatest
          omega
    · trivial
  publishes delta hPublishes := (h.publishes delta hPublishes).shownOn hShown
  emitted := h.emitted
  owed := h.owed

-- ---------------------------------------------------------------------------
-- Steps of the stage
-- ---------------------------------------------------------------------------

/-- Neither a slice nor a publication is in flight. -/
def Stage.Quiet : Stage → Prop
  | .slicing (.classifying ..) | .publishing (.publishing ..) => False
  | _ => True

theorem Stage.Quiet.not_hands (h : stage.Quiet) (delta : ClassificationRevisionDelta) :
    ¬ stage.Hands delta := by
  intro hHands
  unfold Stage.Hands at hHands
  split at hHands
  · exact h
  · exact hHands

theorem Stage.Quiet.not_publishes (h : stage.Quiet) (delta : ClassificationRevisionDelta) :
    ¬ stage.Publishes delta := by
  intro hPublishes
  unfold Stage.Publishes at hPublishes
  split at hPublishes
  · exact h
  · exact hPublishes

theorem Stage.Quiet.not_failed (h : stage.Quiet) : ¬ stage.Failed := by
  intro hFailed
  unfold Stage.Failed at hFailed
  split at hFailed
  · exact h
  · exact h
  · exact hFailed

/-- A quiet stage has nothing to hand over. -/
theorem StageReady.quiet (h : StageReady journal pipeline published stage)
    (hHands : ∀ delta, ¬ stage.Hands delta) (hFailed : ¬ stage.Failed) (hQuiet : stage'.Quiet) :
    StageReady journal pipeline published stage' where
  slicing expected call hSlicing := by
    subst hSlicing
    exact hQuiet.elim
  reported expected call report delta hSlicing := by
    subst hSlicing
    exact hQuiet.elim
  hands delta hNow := absurd hNow (hQuiet.not_hands delta)
  updating continues op hPublishing := by
    subst hPublishing
    exact hQuiet.elim
  publishes delta hNow := absurd hNow (hQuiet.not_publishes delta)
  emitted id standing hGet _ _ :=
    h.emitted id standing hGet hFailed fun delta hNow => absurd hNow (hHands delta)
  owed delta hNow := absurd hNow (hQuiet.not_hands delta)

/-- A stage with nothing in hand has caught up. -/
theorem CaughtUp.settled (h : CaughtUp pipeline published stage) (hFailed : ¬ stage.Failed)
    (hFree : ∀ delta, ¬ stage.Hands delta ∧ ¬ stage.Publishes delta) :
    CaughtUp pipeline published stage' := by
  intro id standing hCurrent hGet hGeneration _ _
  exact h id standing hCurrent hGet hGeneration hFailed fun delta hNow =>
    (hNow.elim (hFree delta).1 (hFree delta).2).elim

/-- A slice that begins has nothing to report yet. -/
theorem StageReady.begin (h : StageReady journal pipeline published stage)
    (hQuiet : stage.Quiet) {generation latest : Nat} {call : Call}
    (hLatest : published.classificationGeneration = some latest) (hLe : generation ≤ latest)
    (hWorks : Call.WorksOn generation call) (hEnded : call.ended = none) :
    StageReady journal pipeline published (.slicing (.classifying (some generation) call)) := by
  have hNone : call.publication = none := by rw [call.publication_eq, hEnded]; rfl
  have hHands : ∀ delta,
      ¬ (Stage.slicing (.classifying (some generation) call)).Hands delta := by
    intro delta hHands
    rw [Stage.Hands, hNone] at hHands
    cases hHands
  refine ⟨?_, ?_, fun delta hNow => absurd hNow (hHands delta),
    fun _ _ hEq => (by cases hEq), fun _ hNow => hNow.elim, ?_,
    fun delta hNow => absurd hNow (hHands delta)⟩
  · rintro expected found ⟨⟩
    exact ⟨generation, latest, rfl, hLatest, hLe, hWorks⟩
  · rintro expected found report delta ⟨⟩ hReport
    rw [hEnded] at hReport
    cases hReport
  · exact fun id standing hGet _ _ => h.emitted id standing hGet hQuiet.not_failed
      fun delta hNow => absurd hNow (hQuiet.not_hands delta)

/-- A slice that has not ended neither fails nor hands anything over. -/
theorem not_hands_of_ended {expected : Option Nat} {call : Call} (h : call.ended = none)
    (delta : ClassificationRevisionDelta) :
    ¬ (Stage.slicing (.classifying expected call)).Hands delta := by
  intro hHands
  rw [Stage.Hands, call.publication_eq, h] at hHands
  cases hHands

theorem not_failed_of_ended {expected : Option Nat} {call : Call} (h : call.ended = none) :
    ¬ (Stage.slicing (.classifying expected call)).Failed := by
  rintro ⟨panic, hPanic⟩
  rw [h] at hPanic
  cases hPanic

/-- The slice goes on without a word. -/
theorem StageReady.goes {pipeline' : PipelineState} {expected : Option Nat} {call call' : Call}
    (h : StageReady journal pipeline published (.slicing (.classifying expected call)))
    (hEnded : call.ended = none) (hSame : SameStandings pipeline pipeline')
    (hWorks : ∀ generation, Call.WorksOn generation call → Call.WorksOn generation call')
    (hNone : call'.publication = none) :
    StageReady journal pipeline' published (.slicing (.classifying expected call')) := by
  have hHands : ∀ delta, ¬ (Stage.slicing (.classifying expected call')).Hands delta := by
    intro delta hHands
    rw [Stage.Hands, hNone] at hHands
    cases hHands
  refine ⟨?_, ?_, fun delta hNow => absurd hNow (hHands delta),
    fun _ _ hEq => (by cases hEq), fun _ hNow => hNow.elim, ?_,
    fun delta hNow => absurd hNow (hHands delta)⟩
  · rintro _ _ ⟨⟩
    obtain ⟨generation, latest, hExpected, hLatest, hLe, hWork⟩ := h.slicing expected call rfl
    exact ⟨generation, latest, hExpected, hLatest, hLe, hWorks generation hWork⟩
  · rintro _ _ report delta ⟨⟩ hReport hDelta
    rw [call'.publication_eq, hReport] at hNone
    cases hDelta.symm.trans hNone
  · intro id standing hGet _ _
    exact h.emitted id standing (hSame.standing id ▸ hGet) (not_failed_of_ended hEnded)
      fun delta hNow => absurd hNow (not_hands_of_ended hEnded delta)

/-- A call that goes on keeps the source caught up. -/
theorem CaughtUp.goes {pipeline' : PipelineState} {expected : Option Nat} {call : Call}
    (h : CaughtUp pipeline published (.slicing (.classifying expected call)))
    (hEnded : call.ended = none) (hSame : SameStandings pipeline pipeline') :
    CaughtUp pipeline' published stage' := by
  intro id standing hCurrent hGet hGeneration _ _
  refine h id standing (hSame.current ▸ hCurrent) (hSame.standing id ▸ hGet) hGeneration
    (not_failed_of_ended hEnded) ?_
  rintro delta (hNow | hNow)
  · exact absurd hNow (not_hands_of_ended hEnded delta)
  · exact hNow.elim

/-- The slice returns what it has ended with. -/
theorem StageReady.ends {pipeline' : PipelineState} {expected : Option Nat} {generation : Nat}
    {result : SliceEnd}
    (h : StageReady journal pipeline published
      (.slicing (.classifying expected (.leaving generation result))))
    (hSame : SameStandings pipeline pipeline') :
    StageReady journal pipeline' published
      (.slicing (.classifying expected (.returned result))) where
  slicing := by
    rintro _ _ ⟨⟩
    obtain ⟨worked, latest, hExpected, hLatest, hLe, -⟩ := h.slicing expected _ rfl
    exact ⟨worked, latest, hExpected, hLatest, hLe, Or.inr (Or.inr ⟨result, rfl⟩)⟩
  reported := by
    rintro _ _ report delta ⟨⟩ hReport hDelta
    exact h.reported expected _ report delta rfl hReport hDelta
  hands delta hNow := (h.hands delta hNow).extends (.refl _) (.of_same hSame)
  updating _ _ hEq := by cases hEq
  publishes _ hNow := hNow.elim
  emitted id standing hGet hFailed hFree :=
    h.emitted id standing (hSame.standing id ▸ hGet) hFailed hFree
  owed := h.owed

/-- A call that ends keeps the source caught up. -/
theorem CaughtUp.ends {pipeline' : PipelineState} {expected : Option Nat} {generation : Nat}
    {result : SliceEnd}
    (h : CaughtUp pipeline published
      (.slicing (.classifying expected (.leaving generation result))))
    (hSame : SameStandings pipeline pipeline') :
    CaughtUp pipeline' published (.slicing (.classifying expected (.returned result))) := by
  intro id standing hCurrent hGet hGeneration hFailed hFree
  exact h id standing (hSame.current ▸ hCurrent) (hSame.standing id ▸ hGet) hGeneration hFailed
    hFree

-- ---------------------------------------------------------------------------
-- Merges
-- ---------------------------------------------------------------------------

theorem TurnReady.mono {journal' : Journal} {pipeline' : PipelineState}
    (h : TurnReady journal pipeline turn) (hExtends : journal.Extends journal')
    (hMoves : MovesOn pipeline pipeline') (hCurrent : pipeline'.current = pipeline.current) :
    TurnReady journal' pipeline' turn where
  held publication hHolds := by
    obtain ⟨hRevision, hIs, hShows⟩ := h.held publication hHolds
    exact ⟨hRevision, hCurrent.trans hIs, hShows.mono hExtends hMoves⟩
  fits := h.fits

/-- Taking note extends the journal. -/
theorem Journal.extends_noting (journal : Journal) (pipeline : PipelineState) :
    journal.Extends (journal.noting pipeline) :=
  ⟨fun _ _ _ hPast => Or.inl hPast, List.Subset.refl _, List.prefix_rfl⟩

section Merged

variable {generation left : Nat} {standing : Standing} {batch : List CachedClassification}
  {result : SliceEnd} {pipeline' : PipelineState}

variable (hStanding : pipeline.standing generation = some standing)
  (hStanding' : ∀ id, pipeline'.standing id =
    if generation = id then some (standing.after left batch) else pipeline.standing id)
include hStanding hStanding'

/-- A merge moves its generation on. -/
theorem movesOn_merged (hEnds : MergeEnds generation standing.revision batch left result) :
    MovesOn pipeline pipeline' := by
  refine ⟨fun id before hGet => ?_⟩
  rw [hStanding']
  split
  · next hId =>
    subst hId
    obtain rfl : standing = before := Option.some.inj (hStanding.symm.trans hGet)
    exact ⟨_, rfl, hEnds.follows⟩
  · exact ⟨before, hGet, .refl before⟩

/-- A merge is remembered. -/
theorem Remembered.merged (h : Remembered journal pipeline)
    (hEnds : MergeEnds generation standing.revision batch left result)
    (hBatch : ∀ cached ∈ batch, IsEntry standing.membership cached.classification) :
    Remembered (journal.noting pipeline') pipeline' := by
  refine h.noting (movesOn_merged hStanding hStanding' hEnds) (fun id after hGet => ?_)
    fun id after hGet => ?_
  · rw [hStanding'] at hGet
    split at hGet
    · rw [← Option.some.inj hGet]
      exact h.distinct generation standing hStanding
    · exact h.distinct id after hGet
  · rw [hStanding'] at hGet
    split at hGet
    · rw [← Option.some.inj hGet]
      exact (h.filedFor generation standing hStanding).foldl_insert hBatch
    · exact h.filedFor id after hGet

/-- **A revision is on its way** to a publisher that has all before it. -/
theorem inFlight_merged (hRemembered : Remembered journal pipeline)
    {delta : ClassificationRevisionDelta} {membership : MempoolSnapshot}
    (hBatch : ∀ cached ∈ batch, IsEntry standing.membership cached.classification)
    (hLeft : left = standing.revision + 1) (hRevision : standing.revision + 1 ≤ u64Max)
    (hDelta : delta = {
      generation, revision := standing.revision + 1
      changed := batch.map CachedClassification.classification })
    (hGeneration : published.classificationGeneration = some generation)
    (hReached : standing.revision = published.classificationRevision)
    (hEmitted : (deltasOf generation journal.emitted).length = standing.revision)
    (hMembership : published.membership = some membership)
    (hShows : Shows journal pipeline generation membership published.classificationRevision
      published.classifications) :
    InFlight { journal.noting pipeline' with emitted := journal.emitted ++ [delta] } pipeline'
      published delta := by
  subst hLeft hDelta
  have hNow : pipeline'.standing generation =
      some (standing.after (standing.revision + 1) batch) := by rw [hStanding', if_pos rfl]
  refine ⟨⟨generation, hGeneration, le_rfl⟩, hRevision, ⟨_, hNow, rfl⟩, fun _ =>
    ⟨by rw [← hReached], membership, hMembership, ?_⟩⟩
  have hOwn : deltasOf generation (journal.emitted ++ [⟨generation, standing.revision + 1,
      batch.map CachedClassification.classification⟩]) =
      deltasOf generation journal.emitted ++ [⟨generation, standing.revision + 1,
        batch.map CachedClassification.classification⟩] := by
    rw [deltasOf_append]
    simp [deltasOf]
  refine ⟨?_, ⟨_, Or.inr ⟨_, hNow, rfl, rfl⟩, ?_⟩, ?_, ?_⟩
  · obtain ⟨found, hFound, rfl⟩ := hShows.standing
    obtain rfl : standing = found := Option.some.inj (hStanding.symm.trans hFound)
    exact ⟨_, hNow, rfl⟩
  · obtain ⟨records, hPast, hSame⟩ := hShows.records
    have hCurrent : records = standing.records :=
      hRemembered.unique generation _ _ _ hPast
        (hRemembered.now generation _ _ ⟨standing, hStanding, hReached, rfl⟩) (by omega)
    subst hCurrent
    exact hSame.foldl_insert (hRemembered.distinct generation standing hStanding).interchangeable
      (hRemembered.filedFor generation standing hStanding) hBatch
  · show _ ≤ (deltasOf generation (journal.emitted ++ _)).length
    rw [hOwn, List.length_append, hEmitted]
    exact le_rfl
  · obtain ⟨start, hMem, hStart, hZero, hReplay⟩ := hShows.replayed
    refine ⟨start, hMem, hStart, hZero, ?_⟩
    show _ = replay _ ((deltasOf generation (journal.emitted ++ _)).take _)
    rw [hOwn, List.take_of_length_le (by rw [List.length_append, hEmitted]; exact le_rfl),
      replay_append]
    rw [List.take_of_length_le (by rw [hEmitted, hReached])] at hReplay
    rw [← hReplay]
    rfl

/-- A merge keeps the agreement up to the published revision. -/
theorem Agreed.merged (h : Agreed journal pipeline published)
    (hEnds : MergeEnds generation standing.revision batch left result)
    (hCurrent : pipeline.current = some generation)
    (hCurrent' : pipeline'.current = pipeline.current)
    (hIs : published.classificationGeneration = some generation) :
    Agreed (journal.noting pipeline') pipeline' published where
  shown shown hShown := by
    obtain ⟨hLatest, membership, hMembership, hShows⟩ := h.shown shown hShown
    exact ⟨hLatest, membership, hMembership, hShows.mono (journal.extends_noting pipeline')
      (movesOn_merged hStanding hStanding' hEnds)⟩
  fresh id after hNow hGet hOther := by
    have hId : generation = id :=
      Option.some.inj (hCurrent.symm.trans (hCurrent'.symm.trans hNow))
    exact absurd (hId ▸ hIs) hOther
  revisions := h.revisions
  unfiled id hNone := by
    refine h.unfiled id ?_
    cases hBefore : pipeline.standing id with
    | none => rfl
    | some before =>
      obtain ⟨after, hAfter, -⟩ :=
        (movesOn_merged hStanding hStanding' hEnds).stays id before hBefore
      cases hAfter.symm.trans hNone

omit hStanding in
/-- The slice that has merged reports the next revision, or none. -/
theorem StageReady.merged {expected : Option Nat} {call : Call}
    (h : StageReady journal pipeline published (.slicing (.classifying expected call)))
    (hEnds : MergeEnds generation standing.revision batch left result)
    (hEnded : call.ended = none)
    (hWorked : ∀ worked, Call.WorksOn worked call → worked = generation)
    (hEmitted : (deltasOf generation journal.emitted).length = standing.revision)
    (hFlight : ∀ delta, left = standing.revision + 1 → standing.revision + 1 ≤ u64Max →
      delta = {
        generation, revision := standing.revision + 1
        changed := batch.map CachedClassification.classification } →
      InFlight { journal.noting pipeline' with emitted := journal.emitted ++ [delta] } pipeline'
        published delta) :
    StageReady (journal.noting pipeline') pipeline' published
      (.slicing (.classifying expected (.leaving generation result))) where
  slicing := by
    rintro _ _ ⟨⟩
    obtain ⟨worked, latest, hExpected, hLatest, hLe, hWorks⟩ := h.slicing expected call rfl
    exact ⟨worked, latest, hExpected, hLatest, hLe,
      Or.inr (Or.inl (congrArg some (hWorked worked hWorks).symm))⟩
  reported := by
    rintro _ _ report delta ⟨⟩ hReport hDelta
    obtain rfl : result = .report report := Option.some.inj hReport
    cases hEnds with
    | unrevised _ hNone => cases hNone.symm.trans hDelta
    | revised _ _ hOwn hGenerationIs hDisposition =>
      rw [← Option.some.inj (hOwn.symm.trans hDelta)]
      exact ⟨hGenerationIs, hDisposition⟩
  hands delta hNow := by
    have hDelta : result.publication = some delta := hNow
    cases hEnds with
    | unrevised _ hNone => cases hNone.symm.trans hDelta
    | revised _ hRevision hOwn =>
      exact hFlight delta rfl hRevision (Option.some.inj (hOwn.symm.trans hDelta)).symm
    | overflowed => cases hDelta
    | panicked => cases hDelta
  updating _ _ hEq := by cases hEq
  publishes _ hNow := hNow.elim
  emitted id after hGet hFailed hFree := by
    have hAfter := (hStanding' id).symm.trans hGet
    split at hAfter
    · next hId =>
      subst hId
      rw [← Option.some.inj hAfter]
      cases hEnds with
      | unrevised | overflowed => exact hEmitted
      | revised _ _ hOwn => exact absurd rfl (hFree _ hOwn)
      | panicked panic => exact absurd ⟨panic, rfl⟩ hFailed
    · exact h.emitted id after hAfter (not_failed_of_ended hEnded)
        fun delta hNow => absurd hNow (not_hands_of_ended hEnded delta)
  owed delta hNow := by
    have hDelta : result.publication = some delta := hNow
    cases hEnds with
    | unrevised _ hNone => cases hNone.symm.trans hDelta
    | revised _ _ hOwn =>
      rw [← Option.some.inj (hOwn.symm.trans hDelta)]
      exact congrArg (· + 1) hEmitted
    | overflowed => cases hDelta
    | panicked => cases hDelta

omit hStanding in
/-- After a merge the source has its delta to publish. -/
theorem caughtUp_merged {expected : Option Nat}
    (hEnds : MergeEnds generation standing.revision batch left result)
    (hCurrent : pipeline.current = some generation)
    (hCurrent' : pipeline'.current = pipeline.current)
    (hReached : standing.revision = published.classificationRevision) :
    CaughtUp pipeline' published
      (.slicing (.classifying expected (.leaving generation result))) := by
  intro id after hNow hGet _ hFailed hFree
  have hId : generation = id :=
    Option.some.inj (hCurrent.symm.trans (hCurrent'.symm.trans hNow))
  subst hId
  have hAfter := (hStanding' generation).symm.trans hGet
  rw [if_pos rfl] at hAfter
  rw [← Option.some.inj hAfter]
  cases hEnds with
  | unrevised | overflowed => exact hReached
  | revised _ _ hOwn => exact absurd rfl (hFree _ (Or.inl hOwn))
  | panicked panic => exact absurd ⟨panic, rfl⟩ hFailed

end Merged

end MempoolAtlas.Runtime
