import MempoolAtlas.Classification.PipelineEffects
import MempoolAtlas.Runtime.PublisherCalls
import MempoolAtlas.Runtime.SourceLife

/-!
# The calls of a source

In every life the operation in flight belongs to the call that the round or the loop
made, and a publication the round holds is newer than the published generation: it is
not refused as superseded.

## Results

* `Attended.step`, `Attended.run` — the operation in flight belongs to the call that was made.
* `supersededBy_eq_false` — a publication newer than what is published is not refused.
-/

namespace MempoolAtlas.Runtime

open Model Machine Classification

section Installations

variable [BitcoinCrate]

/-- What `install_snapshot` does: nothing but an error, or a new current generation. -/
inductive Installation (limits : ClassificationLimits) (snapshot : MempoolSnapshot)
    (pipeline : PipelineState) :
    PipelineState → Except ClassificationError ClassificationGenerationStart → Prop
  | failed (error : ClassificationError) :
      Installation limits snapshot pipeline pipeline (.error error)
  | installed {variants : BTreeMap Txid CurrentVariant} {id : Nat}
      (hVariants : currentVariants snapshot = .ok variants)
      (hId : checkedAdd pipeline.nextGeneration 1 = some id) :
      Installation limits snapshot pipeline
        (installGeneration limits pipeline snapshot variants id).1
        (.ok (installGeneration limits pipeline snapshot variants id).2)

theorem installation_of_eq {limits : ClassificationLimits} {snapshot : MempoolSnapshot}
    {pipeline pipeline' : PipelineState} {event : Option Event}
    {result : Except ClassificationError ClassificationGenerationStart}
    (h : installSnapshot limits pipeline snapshot = (pipeline', .installed result, event)) :
    Installation limits snapshot pipeline pipeline' result := by
  unfold installSnapshot at h
  split at h
  · simp only [Prod.mk.injEq, Call.installed.injEq] at h
    obtain ⟨rfl, rfl, -⟩ := h
    exact .failed _
  · next variants hVariants =>
    split at h
    · simp only [Prod.mk.injEq, Call.installed.injEq] at h
      obtain ⟨rfl, rfl, -⟩ := h
      exact .failed _
    · next id hId =>
      simp only [Prod.mk.injEq, Call.installed.injEq] at h
      obtain ⟨rfl, rfl, -⟩ := h
      exact .installed hVariants hId

theorem nextGeneration_le_effect {limits : ClassificationLimits} {state state' : PipelineState}
    {call : Call} {event : Option Event} (h : Classification.Effect limits state call event state') :
    state.nextGeneration ≤ state'.nextGeneration := by
  cases h with
  | idle | touched | read => exact le_rfl
  | installed hVariants hId =>
    obtain ⟨-, rfl⟩ := checkedAdd_eq_some.mp hId
    exact Nat.le_succ _
  | merged hGet hCurrent hMerge =>
    obtain ⟨work, confirmedCache, rfl, -⟩ :=
      merged_state (hMerge ▸ merge_spec limits _ _ _ hCurrent)
    exact le_rfl

end Installations

-- ---------------------------------------------------------------------------
-- Operations in flight
-- ---------------------------------------------------------------------------

/-- A point of the call for an outcome, before its return. -/
def Outcome.Calls (outcome : Outcome) (op : Op) : Prop :=
  match outcome with
  | .ok publication => op.Publishes publication
  | .error (.rpc publicMessage) => op.Records publicMessage
  | .error _ => False

/-- What the call for an outcome returns, when nothing newer is published. -/
def Outcome.Returns (outcome : Outcome) (result : Return) : Prop :=
  match outcome with
  | .ok _ => result = .published true ∨ ∃ error, result = .err error
  | .error _ => result = .done ∨ ∃ error, result = .err error

/-- The turn's call is the one its outcome asks for. -/
def Turn.Attended : Turn → Prop
  | .calling outcome op => outcome.Calls op ∨ ∃ result, op = .returned result ∧ outcome.Returns result
  | _ => True

/-- A publication that is still to be committed. -/
def Turn.Holds (publication : ClassificationGenerationStart) : Turn → Prop
  | .waiting outcome => outcome = .ok publication
  | .calling outcome op => outcome = .ok publication ∧ op.Publishes publication
  | _ => False

/-- The stage's call is the one its slice asks for. -/
def Stage.Attended : Stage → Prop
  | .publishing (.publishing _ op) =>
    (∃ generation delta classificationState, op.Updates generation delta classificationState) ∨
      ∃ result, op = .returned result
  | _ => True

/-- A source's calls are the ones it asked for. -/
structure Attended (life : SourceLife) : Prop where
  turn : life.turn.Attended
  stage : life.stage.Attended
  published : ∀ generation, life.published.classificationGeneration = some generation →
    generation ≤ life.pipeline.nextGeneration
  held : ∀ publication, life.turn.Holds publication →
    publication.generation ≤ life.pipeline.nextGeneration ∧
      supersededBy life.published.classificationGeneration publication.generation = false

section Lives

variable [BitcoinCrate] [WireJson] [ResponseEncoder] {source : AtlasSource} {sourceIndex : Nat}
  {life life' : SourceLife} {event : AtlasEvent}

omit [BitcoinCrate] [WireJson] [ResponseEncoder] in
theorem attended_publishClassification
    (report : Except ClassificationError ClassificationSliceReport) (expected : Option Nat) :
    (Stage.publishing (publishClassification report expected)).Attended := by
  cases report with
  | error error =>
    cases expected with
    | none => exact Or.inr ⟨_, rfl⟩
    | some generation => exact Or.inl ⟨generation, none, .paused, rfl, rfl, rfl⟩
  | ok report =>
    unfold publishClassification recordClassificationOutcome
    dsimp only
    split
    · exact Or.inr ⟨_, rfl⟩
    · exact Or.inl ⟨_, _, _, rfl, rfl, rfl⟩

omit [BitcoinCrate] [WireJson] [ResponseEncoder] in
theorem supersededBy_eq_false {current : Option Nat} {generation : Nat}
    (h : ∀ id, current = some id → id < generation) : supersededBy current generation = false := by
  cases current with
  | none => rfl
  | some id =>
    have hLess := h id rfl
    simp only [supersededBy, Option.any_some, decide_eq_false_iff_not]
    omega

omit [BitcoinCrate] [WireJson] [ResponseEncoder] in
theorem Outcome.calls_of_call (outcome : Outcome) {op : Op} (h : outcome.call = some op) :
    outcome.Calls op := by
  unfold Outcome.call at h
  split at h
  · obtain rfl := Option.some.inj h
    rfl
  · obtain rfl := Option.some.inj h
    rfl
  · cases h

/-- What one action of the call for an outcome does. -/
inductive OutcomeEffect (publisher : CurrentStatePublisher) (outcome : Outcome)
    (state : CurrentState) : CurrentState → Op → Prop
  | goes {op : Op} (hOp : outcome.Calls op) : OutcomeEffect publisher outcome state state op
  | failed (error : RuntimeError) : OutcomeEffect publisher outcome state state (.raise error)
  | published {publication : ClassificationGenerationStart} (prepared : PreparedObservation)
      (body : Bytes) (hOutcome : outcome = .ok publication) :
      OutcomeEffect publisher outcome state
        (commitMembership publisher publication prepared body state) (.returned (.published true))
  | recorded {publicMessage : String} (body : Bytes)
      (hOutcome : outcome = .error (.rpc publicMessage)) :
      OutcomeEffect publisher outcome state (commitFailure publisher publicMessage body state)
        (.returned .done)

omit [BitcoinCrate] [WireJson] in
/-- One action of an outcome's call. -/
theorem outcome_step {publisher : CurrentStatePublisher} {task : TaskOutcome}
    {state state' : CurrentState} {op op' : Op} {commit : Option Commit} {outcome : Outcome}
    (hOp : outcome.Calls op)
    (hNewer : ∀ publication, outcome = .ok publication →
      supersededBy state.classificationGeneration publication.generation = false)
    (h : opStep publisher task state op = some (state', op', commit)) :
    OutcomeEffect publisher outcome state state' op' := by
  cases outcome with
  | ok publication =>
    cases publishes_step hOp h with
    | goes hOp => exact .goes hOp
    | failed error => exact .failed error
    | superseded hSuperseded =>
      rw [hNewer publication rfl] at hSuperseded
      cases hSuperseded
    | committed prepared body => exact .published prepared body rfl
  | error error =>
    cases error with
    | rpc publicMessage =>
      cases records_step hOp h with
      | goes hOp => exact .goes hOp
      | failed error => exact .failed error
      | committed body => exact .recorded body rfl
    | _ => exact hOp.elim

omit [BitcoinCrate] [WireJson] in
/-- An operation that can act has not returned. -/
theorem not_returned_of_step {publisher : CurrentStatePublisher} {task : TaskOutcome}
    {state state' : CurrentState} {op' : Op} {commit : Option Commit} {result : Return}
    (h : opStep publisher task state (.returned result) = some (state', op', commit)) : False := by
  cases h

/-- **One step** keeps the calls those asked for. -/
theorem Attended.step (h : Attended life) (hStep : LifeStep source sourceIndex life event life') :
    Attended life' := by
  obtain ⟨hTurnAttended, hStageAttended, hPublished, hHeld⟩ := h
  cases hStep with
  | other hOther => exact ⟨hTurnAttended, hStageAttended, hPublished, hHeld⟩
  | drained hStage => exact ⟨hTurnAttended, hStageAttended, hPublished, hHeld⟩
  | picked hActive hStage => exact ⟨hTurnAttended, trivial, hPublished, hHeld⟩
  | sliceStarted hStage => exact ⟨hTurnAttended, trivial, hPublished, hHeld⟩
  | generationRead hStage => exact ⟨hTurnAttended, trivial, hPublished, hHeld⟩
  | classified hStage hCall =>
    have hLe := nextGeneration_le_effect (callStep_effect hCall)
    exact ⟨hTurnAttended, trivial, fun generation hSome => (hPublished generation hSome).trans hLe,
      fun publication hHolds => ⟨(hHeld publication hHolds).1.trans hLe, (hHeld publication hHolds).2⟩⟩
  | sliceReturned hStage hResult =>
    exact ⟨hTurnAttended, attended_publishClassification _ _, hPublished, hHeld⟩
  | classificationActed hStage hOp =>
    rw [hStage] at hStageAttended
    rcases hStageAttended with ⟨generation, delta, classificationState, hUpdates⟩ | ⟨result, rfl⟩
    · have hUpdating := updates_step hUpdates hOp
      have hGeneration := hUpdating.sameStatus.generation
      refine ⟨hTurnAttended, ?_, fun newer hSome => hPublished newer (hGeneration ▸ hSome),
        fun publication hHolds => ⟨(hHeld publication hHolds).1, ?_⟩⟩
      · exact hUpdating.in_flight.imp_left fun hNext => ⟨_, _, _, hNext⟩
      · rw [hGeneration]
        exact (hHeld publication hHolds).2
    · exact (not_returned_of_step hOp).elim
  | finished hStage => exact ⟨hTurnAttended, trivial, hPublished, hHeld⟩
  | pollStarted startedAtMs => exact ⟨hTurnAttended, hStageAttended, hPublished, hHeld⟩
  | failed error hTurn =>
    refine ⟨trivial, hStageAttended, hPublished, fun publication hHolds => ?_⟩
    cases hHolds
  | installed hTurn hStage hInstall =>
    cases installation_of_eq hInstall with
    | failed error =>
      refine ⟨trivial, hStageAttended, hPublished, fun publication hHolds => ?_⟩
      cases hHolds
    | @installed variants id hVariants hId =>
      obtain ⟨-, rfl⟩ := checkedAdd_eq_some.mp hId
      refine ⟨trivial, hStageAttended, fun generation hSome =>
        (hPublished generation hSome).trans (Nat.le_succ _), fun publication hHolds => ?_⟩
      obtain rfl := Except.ok.inj hHolds
      refine ⟨le_rfl, supersededBy_eq_false fun generation hSome => ?_⟩
      exact Nat.lt_succ_of_le (hPublished generation hSome)
  | @taken outcome op hTurn hCall =>
    have hCalls := outcome.calls_of_call hCall
    rw [hTurn] at hHeld
    exact ⟨Or.inl hCalls, hStageAttended, hPublished,
      fun publication hHolds => hHeld publication hHolds.1⟩
  | logged hTurn hCall => exact ⟨trivial, hStageAttended, hPublished, fun _ hHolds => hHolds.elim⟩
  | @outcomeActed outcome op op' task published commit hTurn hOp =>
    rw [hTurn] at hTurnAttended hHeld
    rcases hTurnAttended with hCalls | ⟨result, rfl, -⟩
    · have hOwn : ∀ publication, outcome = .ok publication → op.Publishes publication := by
        rintro publication rfl
        exact hCalls
      have hNewer := fun publication hOutcome =>
        (hHeld publication ⟨hOutcome, hOwn publication hOutcome⟩).2
      cases outcome_step hCalls hNewer hOp with
      | goes hNext =>
        exact ⟨Or.inl hNext, hStageAttended, hPublished,
          fun publication hHolds => hHeld publication ⟨hHolds.1, hOwn publication hHolds.1⟩⟩
      | failed error =>
        refine ⟨Or.inr ⟨_, rfl, ?_⟩, hStageAttended, hPublished,
          fun publication hHolds => hHolds.2.elim⟩
        cases outcome with
        | ok publication => exact Or.inr ⟨error, rfl⟩
        | error _ => exact Or.inr ⟨error, rfl⟩
      | @published publication prepared body hOutcome =>
        have hLe := (hHeld publication ⟨hOutcome, hOwn publication hOutcome⟩).1
        subst hOutcome
        refine ⟨Or.inr ⟨_, rfl, Or.inl rfl⟩, hStageAttended, fun generation hSome => ?_,
          fun publication hHolds => hHolds.2.elim⟩
        obtain rfl := Option.some.inj hSome
        exact hLe
      | recorded body hOutcome =>
        subst hOutcome
        exact ⟨Or.inr ⟨_, rfl, Or.inl rfl⟩, hStageAttended, hPublished,
          fun publication hHolds => hHolds.2.elim⟩
    · exact (not_returned_of_step hOp).elim
  | @settled outcome result hTurn =>
    refine ⟨?_, hStageAttended, hPublished, fun publication hHolds => ?_⟩
    · unfold turnAfterCall
      split <;> trivial
    · unfold turnAfterCall at hHolds
      split at hHolds <;> exact hHolds.elim
  | scheduled hTurn => exact ⟨trivial, hStageAttended, hPublished, fun _ hHolds => hHolds.elim⟩

/-- A run keeps the calls those asked for. -/
theorem Attended.run {trace : List AtlasEvent} (h : Attended life)
    (hRun : LifeRun source sourceIndex life trace life') : Attended life' :=
  hRun.invariant (fun _ _ _ hInv hStep => hInv.step hStep) h

omit [BitcoinCrate] [WireJson] [ResponseEncoder] in
/-- At the start no call is under way. -/
theorem attended_start {sources : List AtlasSource} {world : AtlasState}
    (h : world.IsStart sources) (sourceIndex : Nat) : Attended (world.life sourceIndex) where
  turn := by
    unfold AtlasState.life
    rw [h.round]
    trivial
  stage := by
    unfold AtlasState.life
    rw [h.scheduler]
    trivial
  published generation hSome := by
    unfold AtlasState.life at hSome
    rw [h.published] at hSome
    cases hSome
  held publication hHolds := by
    unfold AtlasState.life at hHolds
    rw [h.round] at hHolds
    exact hHolds.elim

end Lives

end MempoolAtlas.Runtime
