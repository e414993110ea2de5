import MempoolAtlas.Runtime.Publisher

/-!
# One call of the publisher

What a single action of `publish_membership`, of a recorded failure and of
`publish_classification_update` does, by the call it belongs to: the call goes on
without touching the state, returns, or commits. Between two of its actions the
state may have been changed by other calls.

## Results

* `publishes_step`, `records_step`, `updates_step` — one action of each kind of call.
-/

namespace MempoolAtlas.Runtime

open Model Machine Classification

-- ---------------------------------------------------------------------------
-- What stays of a state
-- ---------------------------------------------------------------------------

/-- What a source shows of its snapshot: only commits of a membership and of
classifications change it. -/
structure Retained (before after : CurrentState) : Prop where
  membership : after.membership = before.membership
  latest : after.latest = before.latest
  classifications : after.classifications = before.classifications
  classificationState : after.classificationState = before.classificationState
  generation : after.classificationGeneration = before.classificationGeneration
  revision : after.classificationRevision = before.classificationRevision

theorem Retained.refl (state : CurrentState) : Retained state state := ⟨rfl, rfl, rfl, rfl, rfl, rfl⟩

/-- Retaining composes. -/
theorem Retained.trans {a b c : CurrentState} (hab : Retained a b) (hbc : Retained b c) :
    Retained a c :=
  ⟨hbc.membership.trans hab.membership, hbc.latest.trans hab.latest,
    hbc.classifications.trans hab.classifications,
    hbc.classificationState.trans hab.classificationState,
    hbc.generation.trans hab.generation, hbc.revision.trans hab.revision⟩

/-- What classifying leaves of a published state. -/
structure SameStatus (before after : CurrentState) : Prop where
  lastError : after.lastError = before.lastError
  membership : after.membership = before.membership
  generation : after.classificationGeneration = before.classificationGeneration
  latest : before.latest.isSome → after.latest.isSome

theorem SameStatus.refl (state : CurrentState) : SameStatus state state := ⟨rfl, rfl, rfl, id⟩

-- ---------------------------------------------------------------------------
-- Calls
-- ---------------------------------------------------------------------------

/-- The points of `publish_membership` of a publication. -/
def Op.Publishes (publication : ClassificationGenerationStart) : Op → Prop
  | .publishMembership called | .membershipPrepare called | .membershipRead called _
  | .membershipEncode called _ _ | .membershipCommit called _ _ _ => called = publication
  | _ => False

/-- The points of `publish_failure`. -/
def Op.Records (error : String) : Op → Prop
  | .publishFailure called | .failureEncode called _ | .failureCommit called _ _ => called = error
  | _ => False

/-- The points of `publish_classification_update`; past its first read, a delta
follows the revision that was read. -/
def Op.Updates (generation : Nat) (delta : Option ClassificationRevisionDelta)
    (classificationState : ClassificationState) : Op → Prop
  | .publishClassificationUpdate calledGeneration calledDelta calledState =>
    calledGeneration = generation ∧ calledDelta = delta ∧ calledState = classificationState
  | .updatePrepare update | .updateEncode update _ | .updateCommit update _ _ =>
    update.generation = generation ∧ delta = some update.delta ∧
      update.classificationState = classificationState ∧
      update.delta.revision = update.currentRevision + 1
  | .lifecycleRead calledGeneration calledState | .lifecycleEncode calledGeneration calledState _
  | .lifecycleCommit calledGeneration calledState _ _ =>
    calledGeneration = generation ∧ delta = none ∧ calledState = classificationState
  | _ => False

/-- What an action of `publish_membership` does. -/
inductive Publishing (publisher : CurrentStatePublisher)
    (publication : ClassificationGenerationStart) (state : CurrentState) :
    CurrentState → Op → Option Commit → Prop
  | goes {op : Op} (hOp : op.Publishes publication) :
      Publishing publisher publication state state op none
  | failed (error : RuntimeError) : Publishing publisher publication state state (.raise error) none
  | superseded
      (hSuperseded : supersededBy state.classificationGeneration publication.generation = true) :
      Publishing publisher publication state state (.returned (.published false)) none
  | committed (prepared : PreparedObservation) (body : Bytes) :
      Publishing publisher publication state
        (commitMembership publisher publication prepared body state)
        (.returned (.published true)) (some (.membership publication))

/-- What an action of a recorded failure does. -/
inductive Recording (publisher : CurrentStatePublisher) (error : String) (state : CurrentState) :
    CurrentState → Op → Option Commit → Prop
  | goes {op : Op} (hOp : op.Records error) : Recording publisher error state state op none
  | failed (raised : RuntimeError) : Recording publisher error state state (.raise raised) none
  | committed (body : Bytes) :
      Recording publisher error state (commitFailure publisher error body state)
        (.returned .done) (some (.failure error))

/-- What an action of `publish_classification_update` does. -/
inductive Updating (publisher : CurrentStatePublisher) (generation : Nat)
    (delta : Option ClassificationRevisionDelta) (classificationState : ClassificationState)
    (state : CurrentState) : CurrentState → Op → Option Commit → Prop
  | goes {op : Op} (hOp : op.Updates generation delta classificationState) :
      Updating publisher generation delta classificationState state state op none
  | failed (error : RuntimeError) :
      Updating publisher generation delta classificationState state state (.raise error) none
  | refused (hRefused : state.classificationGeneration ≠ some generation ∨
        ∃ changed, delta = some changed ∧
          changed.revision ≠ state.classificationRevision + 1) :
      Updating publisher generation delta classificationState state state
        (.returned (.published false)) none
  | unchanged (hDelta : delta = none) (hGeneration : state.classificationGeneration = some generation)
      (hState : state.classificationState = some classificationState) :
      Updating publisher generation delta classificationState state state
        (.returned (.published true)) none
  | updated {update : Update} (prepared : PreparedObservation) (body : Bytes)
      (hGeneration : state.classificationGeneration = some generation)
      (hDelta : delta = some update.delta) (hState : update.classificationState = classificationState)
      (hRevision : update.delta.revision = state.classificationRevision + 1) :
      Updating publisher generation delta classificationState state
        (commitUpdate publisher update prepared body state) (.returned (.published true))
        (some (.classifications update.delta update.classificationState))
  | lifecycle (body : Bytes) (hDelta : delta = none)
      (hGeneration : state.classificationGeneration = some generation) :
      Updating publisher generation delta classificationState state
        (commitLifecycle publisher classificationState body state) (.returned (.published true))
        (some (.lifecycle generation classificationState))

theorem Updating.sameStatus {publisher : CurrentStatePublisher} {generation : Nat}
    {delta : Option ClassificationRevisionDelta} {classificationState : ClassificationState}
    {state state' : CurrentState} {op : Op} {commit : Option Commit}
    (h : Updating publisher generation delta classificationState state state' op commit) :
    SameStatus state state' := by
  cases h with
  | goes | failed | refused | unchanged => exact .refl state
  | updated => exact ⟨rfl, rfl, rfl, fun _ => rfl⟩
  | lifecycle => exact ⟨rfl, rfl, rfl, id⟩

/-- A classification call that commits nothing leaves the state. -/
theorem Updating.of_no_commit {publisher : CurrentStatePublisher} {generation : Nat}
    {delta : Option ClassificationRevisionDelta} {classificationState : ClassificationState}
    {state state' : CurrentState} {op : Op}
    (h : Updating publisher generation delta classificationState state state' op none) :
    state' = state := by
  cases h with
  | goes | failed | refused | unchanged => rfl

theorem Updating.in_flight {publisher : CurrentStatePublisher} {generation : Nat}
    {delta : Option ClassificationRevisionDelta} {classificationState : ClassificationState}
    {state state' : CurrentState} {op : Op} {commit : Option Commit}
    (h : Updating publisher generation delta classificationState state state' op commit) :
    op.Updates generation delta classificationState ∨ ∃ result, op = .returned result := by
  cases h with
  | goes hOp => exact Or.inl hOp
  | failed | refused | unchanged | updated | lifecycle => exact Or.inr ⟨_, rfl⟩

section Calls

variable [ResponseEncoder] {publisher : CurrentStatePublisher} {task : TaskOutcome}
  {state state' : CurrentState} {op op' : Op} {commit : Option Commit}

omit [ResponseEncoder] in
theorem withBody_cases (encoded : Except RuntimeError Bytes) (next : Bytes → Op) :
    (∃ error, Op.withBody encoded next = .raise error) ∨
      ∃ body, Op.withBody encoded next = next body := by
  cases encoded with
  | error error => exact Or.inl ⟨error, rfl⟩
  | ok body => exact Or.inr ⟨body, rfl⟩

/-- What one action of a membership call does. -/
theorem publishes_step {publication : ClassificationGenerationStart}
    (hOp : op.Publishes publication)
    (h : opStep publisher task state op = some (state', op', commit)) :
    Publishing publisher publication state state' op' commit := by
  cases op with
  | publishMembership called =>
    obtain rfl : called = publication := hOp
    simp only [opStep, Option.some.injEq, Prod.mk.injEq] at h
    obtain ⟨rfl, rfl, rfl⟩ := h
    unfold startMembership
    split
    · exact .failed _
    · split
      · exact .failed _
      · split
        · exact .failed _
        · split
          · next hSuperseded => exact .superseded hSuperseded
          · exact .goes rfl
  | membershipPrepare called =>
    obtain rfl : called = publication := hOp
    simp only [opStep] at h
    split at h
    · simp only [Option.some.injEq, Prod.mk.injEq] at h
      obtain ⟨rfl, rfl, rfl⟩ := h
      exact .failed _
    · simp only [Option.some.injEq, Prod.mk.injEq] at h
      obtain ⟨rfl, rfl, rfl⟩ := h
      exact .goes rfl
  | membershipRead called prepared =>
    obtain rfl : called = publication := hOp
    simp only [opStep, Option.some.injEq, Prod.mk.injEq] at h
    obtain ⟨rfl, rfl, rfl⟩ := h
    unfold readMembership
    split
    · next hSuperseded => exact .superseded hSuperseded
    · exact .goes rfl
  | membershipEncode called prepared read =>
    obtain rfl : called = publication := hOp
    simp only [opStep, Option.some.injEq, Prod.mk.injEq] at h
    obtain ⟨rfl, rfl, rfl⟩ := h
    rcases withBody_cases (encodeResponse task (responseFromParts publisher read.lastPollStartedAtMs
      (some prepared.latest) (some (startState called.hasEligibleWork)) none))
      (.membershipCommit called prepared read) with ⟨error, hRaise⟩ | ⟨body, hNext⟩
    · rw [hRaise]
      exact .failed error
    · rw [hNext]
      exact .goes rfl
  | membershipCommit called prepared read body =>
    obtain rfl : called = publication := hOp
    simp only [opStep] at h
    split at h
    · next hSuperseded =>
      simp only [Option.some.injEq, Prod.mk.injEq] at h
      obtain ⟨rfl, rfl, rfl⟩ := h
      exact .superseded hSuperseded
    · split at h
      · simp only [Option.some.injEq, Prod.mk.injEq] at h
        obtain ⟨rfl, rfl, rfl⟩ := h
        exact .goes rfl
      · simp only [Option.some.injEq, Prod.mk.injEq] at h
        obtain ⟨rfl, rfl, rfl⟩ := h
        exact .committed prepared body
  | _ => exact hOp.elim

/-- What one action of a failure call does. -/
theorem records_step {error : String} (hOp : op.Records error)
    (h : opStep publisher task state op = some (state', op', commit)) :
    Recording publisher error state state' op' commit := by
  cases op with
  | publishFailure called =>
    obtain rfl : called = error := hOp
    simp only [opStep, Option.some.injEq, Prod.mk.injEq] at h
    obtain ⟨rfl, rfl, rfl⟩ := h
    exact .goes rfl
  | failureEncode called read =>
    obtain rfl : called = error := hOp
    simp only [opStep, Option.some.injEq, Prod.mk.injEq] at h
    obtain ⟨rfl, rfl, rfl⟩ := h
    rcases withBody_cases (encodeResponse task (responseFromParts publisher read.lastPollStartedAtMs
      read.latest read.classificationState (some called))) (.failureCommit called read) with
      ⟨raised, hRaise⟩ | ⟨body, hNext⟩
    · rw [hRaise]
      exact .failed raised
    · rw [hNext]
      exact .goes rfl
  | failureCommit called read body =>
    obtain rfl : called = error := hOp
    simp only [opStep] at h
    split at h
    · simp only [Option.some.injEq, Prod.mk.injEq] at h
      obtain ⟨rfl, rfl, rfl⟩ := h
      exact .goes rfl
    · simp only [Option.some.injEq, Prod.mk.injEq] at h
      obtain ⟨rfl, rfl, rfl⟩ := h
      exact .committed body
  | _ => exact hOp.elim

omit [ResponseEncoder] in
theorem startUpdate_updating {generation : Nat} {delta : ClassificationRevisionDelta}
    {classificationState : ClassificationState} :
    Updating publisher generation (some delta) classificationState state state
      (startUpdate state generation delta classificationState) none := by
  unfold startUpdate
  split
  · next hGeneration => exact .refused (Or.inl hGeneration)
  · split
    · next hRevision =>
      exact .refused (Or.inr ⟨delta, rfl, by omega⟩)
    · split
      · exact .failed _
      · next expectedRevision hExpected =>
        obtain ⟨-, rfl⟩ := checkedAdd_eq_some.mp hExpected
        split
        · exact .failed _
        · next hRevision =>
          split
          · exact .failed _
          · exact .goes ⟨rfl, rfl, rfl, by simpa using hRevision⟩

omit [ResponseEncoder] in
theorem prepareUpdate_updating {update : Update}
    (hRevision : update.delta.revision = update.currentRevision + 1) :
    Updating publisher update.generation (some update.delta) update.classificationState state state
      (prepareUpdate task update) none := by
  unfold prepareUpdate
  dsimp only
  split
  · exact .failed _
  · split
    · exact .failed _
    · exact .goes ⟨rfl, rfl, rfl, hRevision⟩

omit [ResponseEncoder] in
theorem readLifecycle_updating {generation : Nat} {classificationState : ClassificationState} :
    Updating publisher generation none classificationState state state
      (readLifecycle state generation classificationState) none := by
  unfold readLifecycle
  split
  · next hGeneration => exact .refused (Or.inl hGeneration)
  · next hGeneration =>
    split
    · exact .failed _
    · split
      · next hState => exact .unchanged rfl (by simpa using hGeneration) hState
      · exact .goes ⟨rfl, rfl, rfl⟩

/-- What one action of an update does. -/
theorem updates_step {generation : Nat} {delta : Option ClassificationRevisionDelta}
    {classificationState : ClassificationState}
    (hOp : op.Updates generation delta classificationState)
    (h : opStep publisher task state op = some (state', op', commit)) :
    Updating publisher generation delta classificationState state state' op' commit := by
  cases op with
  | publishClassificationUpdate calledGeneration calledDelta calledState =>
    obtain ⟨rfl, rfl, rfl⟩ := hOp
    cases calledDelta with
    | none =>
      simp only [opStep, Option.some.injEq, Prod.mk.injEq] at h
      obtain ⟨rfl, rfl, rfl⟩ := h
      exact .goes ⟨rfl, rfl, rfl⟩
    | some changed =>
      simp only [opStep] at h
      split at h
      · simp only [Option.some.injEq, Prod.mk.injEq] at h
        obtain ⟨rfl, rfl, rfl⟩ := h
        exact .failed _
      · simp only [Option.some.injEq, Prod.mk.injEq] at h
        obtain ⟨rfl, rfl, rfl⟩ := h
        exact startUpdate_updating
  | updatePrepare update =>
    obtain ⟨rfl, rfl, rfl, hRevision⟩ := hOp
    simp only [opStep, Option.some.injEq, Prod.mk.injEq] at h
    obtain ⟨rfl, rfl, rfl⟩ := h
    exact prepareUpdate_updating hRevision
  | updateEncode update prepared =>
    simp only [opStep, Option.some.injEq, Prod.mk.injEq] at h
    obtain ⟨rfl, rfl, rfl⟩ := h
    rcases withBody_cases (encodeResponse task (responseFromParts publisher
      update.lastPollStartedAtMs (some prepared.latest) (some update.classificationState)
      update.lastError)) (.updateCommit update prepared) with ⟨error, hRaise⟩ | ⟨body, hNext⟩
    · rw [hRaise]
      exact .failed error
    · rw [hNext]
      exact .goes hOp
  | updateCommit update prepared body =>
    simp only [opStep] at h
    obtain ⟨rfl, rfl, rfl, hRevision⟩ := hOp
    split at h
    · next hStale =>
      simp only [Option.some.injEq, Prod.mk.injEq] at h
      obtain ⟨rfl, rfl, rfl⟩ := h
      refine .refused (hStale.imp id fun hMoved => ⟨update.delta, rfl, ?_⟩)
      omega
    · next hCurrent =>
      rw [not_or, not_not, not_not] at hCurrent
      split at h
      · simp only [Option.some.injEq, Prod.mk.injEq] at h
        obtain ⟨rfl, rfl, rfl⟩ := h
        exact .goes ⟨rfl, rfl, rfl, hRevision⟩
      · simp only [Option.some.injEq, Prod.mk.injEq] at h
        obtain ⟨rfl, rfl, rfl⟩ := h
        exact .updated prepared body hCurrent.1 rfl rfl (by omega)
  | lifecycleRead calledGeneration calledState =>
    obtain ⟨rfl, rfl, rfl⟩ := hOp
    simp only [opStep, Option.some.injEq, Prod.mk.injEq] at h
    obtain ⟨rfl, rfl, rfl⟩ := h
    exact readLifecycle_updating
  | lifecycleEncode calledGeneration calledState read =>
    obtain ⟨rfl, rfl, rfl⟩ := hOp
    simp only [opStep, Option.some.injEq, Prod.mk.injEq] at h
    obtain ⟨rfl, rfl, rfl⟩ := h
    rcases withBody_cases (encodeResponse task (responseFromParts publisher
      read.lastPollStartedAtMs (some read.latest) (some calledState) read.lastError))
      (.lifecycleCommit calledGeneration calledState read) with ⟨error, hRaise⟩ | ⟨body, hNext⟩
    · rw [hRaise]
      exact .failed error
    · rw [hNext]
      exact .goes ⟨rfl, rfl, rfl⟩
  | lifecycleCommit calledGeneration calledState read body =>
    obtain ⟨rfl, rfl, rfl⟩ := hOp
    simp only [opStep] at h
    split at h
    · next hStale =>
      simp only [Option.some.injEq, Prod.mk.injEq] at h
      obtain ⟨rfl, rfl, rfl⟩ := h
      exact .refused (Or.inl hStale)
    · next hGeneration =>
      split at h
      · simp only [Option.some.injEq, Prod.mk.injEq] at h
        obtain ⟨rfl, rfl, rfl⟩ := h
        exact .goes ⟨rfl, rfl, rfl⟩
      · simp only [Option.some.injEq, Prod.mk.injEq] at h
        obtain ⟨rfl, rfl, rfl⟩ := h
        exact .lifecycle body rfl (by simpa using hGeneration)
  | _ => exact hOp.elim

end Calls

end MempoolAtlas.Runtime
