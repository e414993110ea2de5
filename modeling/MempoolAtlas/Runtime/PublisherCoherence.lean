import Mathlib.Data.Prod.Lex
import Mathlib.Order.WithBot
import MempoolAtlas.Classification.Reference
import MempoolAtlas.Model.Materialization
import MempoolAtlas.Runtime.Publisher
import MempoolAtlas.Web.Wire

/-!
# Coherence of the published state

Whatever operations of one source are in flight and however their actions
interleave, the visible state is coherent: its parts are all there or all
absent, the latest snapshot is the materialization of the membership with the
classifications at the current revision, and the cached body encodes them.

An operation's local values are stale reads. What carries the proof is
`Later`, the order in which the shared state evolves: an unchanged
`status_revision` means unchanged status fields, an unchanged (generation,
revision) pair means unchanged membership, snapshot and classifications. An
operation asserts that its values were read from some coherent earlier state
(`Observed`), which no action of another operation can break, and the guards of
a commit compare exactly the counters that make those values current again.

## Results

* `opStep_effect` — every action is one of the listed effects.
* `Effect.coherent` — one effect keeps the state coherent.
* `published_state_coherent` — coherence in every reachable state.
-/

namespace MempoolAtlas.Runtime

open Model Machine Classification Processes

-- ---------------------------------------------------------------------------
-- How the shared state evolves
-- ---------------------------------------------------------------------------

/-- The (generation, revision) pair, ordered lexicographically; no generation
comes first. -/
def stage (state : CurrentState) : WithBot Nat ×ₗ Nat :=
  toLex (state.classificationGeneration, state.classificationRevision)

/-- One state is no earlier than another: nothing that is published has gone back. -/
structure Later (state state' : CurrentState) : Prop where
  status : state.statusRevision ≤ state'.statusRevision
  stage : stage state ≤ stage state'
  sameStatus : state'.statusRevision = state.statusRevision →
    state'.lastPollStartedAtMs = state.lastPollStartedAtMs ∧
      state'.lastError = state.lastError ∧
      state'.classificationState = state.classificationState ∧
      state'.classificationGeneration = state.classificationGeneration
  sameStage : Runtime.stage state' = Runtime.stage state →
    state'.membership = state.membership ∧ state'.latest = state.latest ∧
      state'.classifications = state.classifications

theorem Later.refl (state : CurrentState) : Later state state :=
  ⟨le_rfl, le_rfl, fun _ => ⟨rfl, rfl, rfl, rfl⟩, fun _ => ⟨rfl, rfl, rfl⟩⟩

/-- Being later composes. -/
theorem Later.trans {a b c : CurrentState} (hab : Later a b) (hbc : Later b c) : Later a c where
  status := hab.status.trans hbc.status
  stage := hab.stage.trans hbc.stage
  sameStatus h := by
    have hb : b.statusRevision = a.statusRevision := by
      have := hab.status
      have := hbc.status
      omega
    obtain ⟨h1, h2, h3, h4⟩ := hab.sameStatus hb
    obtain ⟨k1, k2, k3, k4⟩ := hbc.sameStatus (h.trans hb.symm)
    exact ⟨k1.trans h1, k2.trans h2, k3.trans h3, k4.trans h4⟩
  sameStage h := by
    have hb : Runtime.stage b = Runtime.stage a := le_antisymm (h ▸ hbc.stage) hab.stage
    obtain ⟨h1, h2, h3⟩ := hab.sameStage hb
    obtain ⟨k1, k2, k3⟩ := hbc.sameStage (h.trans hb.symm)
    exact ⟨k1.trans h1, k2.trans h2, k3.trans h3⟩

/-- A change that raises the status revision and no stage goes forward. -/
theorem Later.of_bump {state state' : CurrentState}
    (hBump : state'.statusRevision = wrappingAdd state.statusRevision 1)
    (hNoWrap : state.statusRevision ≤ state'.statusRevision)
    (hStage : Runtime.stage state ≤ Runtime.stage state')
    (hSame : Runtime.stage state' = Runtime.stage state →
      state'.membership = state.membership ∧ state'.latest = state.latest ∧
        state'.classifications = state.classifications) : Later state state' where
  status := hNoWrap
  stage := hStage
  sameStatus h := by
    rw [hBump] at hNoWrap h
    rw [wrappingAdd_one_of_le hNoWrap] at h
    omega
  sameStage := hSame

theorem stage_eq {state state' : CurrentState}
    (hGeneration : state.classificationGeneration = state'.classificationGeneration)
    (hRevision : state.classificationRevision = state'.classificationRevision) :
    stage state = stage state' := by
  rw [stage, stage, hGeneration, hRevision]

/-- In one generation the stage follows the revision. -/
theorem stage_le_of_revision_le {state state' : CurrentState}
    (hGeneration : state'.classificationGeneration = state.classificationGeneration)
    (hRevision : state.classificationRevision ≤ state'.classificationRevision) :
    stage state ≤ stage state' := by
  rw [stage, stage, hGeneration]
  exact Prod.Lex.toLex_le_toLex.mpr (Or.inr ⟨rfl, hRevision⟩)

/-- A generation that is not superseded is a later stage. -/
theorem stage_lt_of_not_superseded {state state' : CurrentState} {generation : Nat}
    (h : supersededBy state.classificationGeneration generation = false)
    (hGeneration : state'.classificationGeneration = some generation) :
    stage state < stage state' := by
  rw [stage, stage, hGeneration, Prod.Lex.toLex_lt_toLex]
  left
  cases hCurrent : state.classificationGeneration with
  | none => exact WithBot.bot_lt_coe generation
  | some current =>
    rw [hCurrent] at h
    simp only [supersededBy, Option.any_some, ge_iff_le, decide_eq_false_iff_not, not_le] at h
    exact WithBot.coe_lt_coe.mpr h

-- ---------------------------------------------------------------------------
-- Prepared observations
-- ---------------------------------------------------------------------------

/-- A preparation that succeeded on these values. -/
def PreparedFrom (membership : MempoolSnapshot) (revision : Nat)
    (classifications : TransactionClassifications) (prepared : PreparedObservation) : Prop :=
  MempoolObservation.materializeRetained membership revision classifications =
    .ok ⟨prepared.latest, prepared.classifications⟩

/-- What is prepared is the observation of its parts. -/
theorem preparedFrom_of_prepareObservation {task : TaskOutcome} {membership : MempoolSnapshot}
    {revision : Nat} {classifications : TransactionClassifications}
    {prepared : PreparedObservation}
    (h : prepareObservation task membership revision classifications = .ok prepared) :
    PreparedFrom membership revision classifications prepared := by
  unfold prepareObservation at h
  split at h
  · cases h
  · split at h
    · cases h
    · next observation hEq =>
      obtain rfl : _ = prepared := by simpa using h
      exact hEq

/-- A preparation returns the classifications it was given. -/
theorem PreparedFrom.classifications_eq {membership : MempoolSnapshot} {revision : Nat}
    {classifications : TransactionClassifications} {prepared : PreparedObservation}
    (h : PreparedFrom membership revision classifications prepared) :
    prepared.classifications = classifications := by
  obtain ⟨-, -, -, hEq⟩ := materializeRetained_eq_ok.mp h
  exact congrArg MempoolObservation.classifications hEq

-- ---------------------------------------------------------------------------
-- Coherent states
-- ---------------------------------------------------------------------------

section Coherence

variable [ResponseEncoder]

/-- A body that encodes the visible state as it was polled at `polled`. -/
def Encodes (publisher : CurrentStatePublisher) (state : CurrentState) (polled : Option Nat)
    (body : Bytes) : Prop :=
  ResponseEncoder.toVec (responseFromParts publisher polled state.latest state.classificationState
    state.lastError) = some body

/-- The parts of a state belong together: its membership, its observation, its stage and its
cached response. -/
structure Coherent (publisher : CurrentStatePublisher) (state : CurrentState) : Prop where
  membershipLatest : state.membership.isSome = state.latest.isSome
  latestGeneration : state.latest.isSome = state.classificationGeneration.isSome
  generationState : state.classificationGeneration.isSome = state.classificationState.isSome
  materialized : ∀ membership latest, state.membership = some membership →
    state.latest = some latest →
    MempoolObservation.materializeRetained membership state.classificationRevision
      state.classifications = .ok ⟨latest, state.classifications⟩
  cached : ∀ response, state.cachedResponse = some response →
    (∃ polled, Encodes publisher state polled response.body) ∧
      response.etag = state.latest.map fun snapshot =>
        etagFor publisher snapshot state.responseRevision

/-- The state before anything is published is coherent. -/
theorem coherent_default (publisher : CurrentStatePublisher) : Coherent publisher {} where
  membershipLatest := rfl
  latestGeneration := rfl
  generationState := rfl
  materialized _ _ h := by cases h
  cached _ h := by cases h

/-- The cached response is the encoding of this very state. -/
def CachesItself (publisher : CurrentStatePublisher) (state : CurrentState) : Prop :=
  ∃ response, state.cachedResponse = some response ∧
    Encodes publisher state state.lastPollStartedAtMs response.body ∧
    response.etag = state.latest.map fun snapshot =>
      etagFor publisher snapshot state.responseRevision

theorem cachesItself_replaceCachedResponse {publisher : CurrentStatePublisher}
    {state : CurrentState} {body : Bytes}
    (h : Encodes publisher state state.lastPollStartedAtMs body) :
    CachesItself publisher (replaceCachedResponse publisher state body) :=
  ⟨_, rfl, h, rfl⟩

/-- A cached response is the encoding of the state it is kept with. -/
theorem CachesItself.cached {publisher : CurrentStatePublisher} {state : CurrentState}
    (h : CachesItself publisher state) (response : CachedSnapshotResponse)
    (hCached : state.cachedResponse = some response) :
    (∃ polled, Encodes publisher state polled response.body) ∧
      response.etag = state.latest.map fun snapshot =>
        etagFor publisher snapshot state.responseRevision := by
  obtain ⟨cached, hEq, hBody, hEtag⟩ := h
  obtain rfl : cached = response := by simpa [hEq] using hCached
  exact ⟨⟨_, hBody⟩, hEtag⟩

-- ---------------------------------------------------------------------------
-- What an operation in flight knows
-- ---------------------------------------------------------------------------

/-- Values read from a coherent state that is no later than this one. -/
def Observed (publisher : CurrentStatePublisher) (state : CurrentState)
    (values : CurrentState → Prop) : Prop :=
  ∃ read, Coherent publisher read ∧ Later read state ∧ values read

/-- What holds of a coherent state has been observed. -/
theorem Observed.now {publisher : CurrentStatePublisher} {state : CurrentState}
    {values : CurrentState → Prop} (hCoherent : Coherent publisher state) (h : values state) :
    Observed publisher state values :=
  ⟨state, hCoherent, Later.refl state, h⟩

/-- What was observed stays observed. -/
theorem Observed.later {publisher : CurrentStatePublisher} {state state' : CurrentState}
    {values : CurrentState → Prop} (h : Observed publisher state values)
    (hLater : Later state state') : Observed publisher state' values := by
  obtain ⟨read, hCoherent, hRead, hValues⟩ := h
  exact ⟨read, hCoherent, hRead.trans hLater, hValues⟩

theorem encodeResponse_eq_ok {task : TaskOutcome} {response : SourceSnapshotResponse}
    {body : Bytes} (h : encodeResponse task response = .ok body) :
    ResponseEncoder.toVec response = some body := by
  unfold encodeResponse at h
  split at h
  · cases h
  · split at h
    · cases h
    · next encoded hEq =>
      obtain rfl : encoded = body := by simpa using h
      exact hEq

/-- What a call read of the membership stood in that state. -/
def MembershipRead.From (read : MembershipRead) (state : CurrentState) : Prop :=
  read.statusRevision = state.statusRevision ∧
    read.currentGeneration = state.classificationGeneration ∧
    read.lastPollStartedAtMs = state.lastPollStartedAtMs

/-- The fields of an update that only its first read sets. -/
def Update.StageFrom (update : Update) (state : CurrentState) : Prop :=
  state.classificationGeneration = some update.generation ∧
    update.currentRevision = state.classificationRevision ∧
    state.membership = some update.membership ∧
    update.classifications = state.classifications

/-- The fields of an update that its loop refreshes. -/
def Update.StatusFrom (update : Update) (state : CurrentState) : Prop :=
  update.statusRevision = state.statusRevision ∧
    update.lastPollStartedAtMs = state.lastPollStartedAtMs ∧
    update.lastError = state.lastError

/-- What the checks before the first read of an update established. -/
structure Update.Checked (publisher : CurrentStatePublisher) (update : Update)
    (state : CurrentState) : Prop where
  generation : update.delta.generation = update.generation
  revision : update.delta.revision = update.currentRevision + 1
  stageFrom : Observed publisher state update.StageFrom
  statusFrom : Observed publisher state update.StatusFrom

/-- What an update prepared from what it read. -/
def Update.Prepared (update : Update) (prepared : PreparedObservation) : Prop :=
  PreparedFrom update.membership update.delta.revision
    (accumulate update.classifications update.delta.changed) prepared

/-- What a lifecycle call read stood in that state. -/
def LifecycleRead.From (generation : Nat) (read : LifecycleRead) (state : CurrentState) : Prop :=
  state.classificationGeneration = some generation ∧
    read.statusRevision = state.statusRevision ∧
    read.currentRevision = state.classificationRevision ∧
    read.lastPollStartedAtMs = state.lastPollStartedAtMs ∧
    state.latest = some read.latest ∧
    read.lastError = state.lastError

/-- What a failure call read stood in that state. -/
def FailureRead.From (read : FailureRead) (state : CurrentState) : Prop :=
  read.statusRevision = state.statusRevision ∧
    read.classificationGeneration = state.classificationGeneration ∧
    read.classificationRevision = state.classificationRevision ∧
    read.lastPollStartedAtMs = state.lastPollStartedAtMs ∧
    read.latest = state.latest ∧
    read.classificationState = state.classificationState

/-- What an operation knows at each point it may have reached. -/
def Op.Knows (publisher : CurrentStatePublisher) (state : CurrentState) : Op → Prop
  | .membershipRead publication prepared =>
    PreparedFrom publication.membership publication.revision publication.classifications prepared
  | .membershipEncode publication prepared read =>
    PreparedFrom publication.membership publication.revision publication.classifications
      prepared ∧ Observed publisher state read.From
  | .membershipCommit publication prepared read body =>
    PreparedFrom publication.membership publication.revision publication.classifications
      prepared ∧ Observed publisher state read.From ∧
      ResponseEncoder.toVec (responseFromParts publisher read.lastPollStartedAtMs
        (some prepared.latest) (some (startState publication.hasEligibleWork)) none) = some body
  | .updatePrepare update => update.Checked publisher state
  | .updateEncode update prepared => update.Checked publisher state ∧ update.Prepared prepared
  | .updateCommit update prepared body =>
    update.Checked publisher state ∧ update.Prepared prepared ∧
      ResponseEncoder.toVec (responseFromParts publisher update.lastPollStartedAtMs
        (some prepared.latest) (some update.classificationState) update.lastError) = some body
  | .lifecycleEncode generation _ read => Observed publisher state (read.From generation)
  | .lifecycleCommit generation classificationState read body =>
    Observed publisher state (read.From generation) ∧
      ResponseEncoder.toVec (responseFromParts publisher read.lastPollStartedAtMs
        (some read.latest) (some classificationState) read.lastError) = some body
  | .failureEncode _ read => Observed publisher state read.From
  | .failureCommit error read body =>
    Observed publisher state read.From ∧
      ResponseEncoder.toVec (responseFromParts publisher read.lastPollStartedAtMs read.latest
        read.classificationState (some error)) = some body
  | _ => True

/-- What an operation knows stays true while the shared state moves on. -/
theorem Op.Knows.later {publisher : CurrentStatePublisher} {state state' : CurrentState} {op : Op}
    (h : op.Knows publisher state) (hLater : Later state state') : op.Knows publisher state' := by
  have hChecked : ∀ {update : Update}, update.Checked publisher state →
      update.Checked publisher state' := fun h =>
    ⟨h.generation, h.revision, h.stageFrom.later hLater, h.statusFrom.later hLater⟩
  cases op with
  | membershipRead publication prepared => exact h
  | membershipEncode publication prepared read => exact ⟨h.1, h.2.later hLater⟩
  | membershipCommit publication prepared read body => exact ⟨h.1, h.2.1.later hLater, h.2.2⟩
  | updatePrepare update => exact hChecked h
  | updateEncode update prepared => exact ⟨hChecked h.1, h.2⟩
  | updateCommit update prepared body => exact ⟨hChecked h.1, h.2⟩
  | lifecycleEncode generation classificationState read => exact Observed.later h hLater
  | lifecycleCommit generation classificationState read body => exact ⟨h.1.later hLater, h.2⟩
  | failureEncode error read => exact Observed.later h hLater
  | failureCommit error read body => exact ⟨h.1.later hLater, h.2⟩
  | recordPollStarted | publishMembership | membershipPrepare | publishClassificationUpdate
  | lifecycleRead | publishFailure | returned => trivial

-- ---------------------------------------------------------------------------
-- One action
-- ---------------------------------------------------------------------------

/-- What one action does to the shared state: nothing, the note of a poll, or
one of four commits whose guards held. -/
inductive Effect (publisher : CurrentStatePublisher) (state : CurrentState) :
    Op → CurrentState → Op → Option Commit → Prop
  | silent (op op' : Op) : Effect publisher state op state op' none
  | polled (startedAtMs : Nat) :
      Effect publisher state (.recordPollStarted startedAtMs) (pollStarted startedAtMs state)
        (.returned .done) none
  | membership {publication : ClassificationGenerationStart} {prepared : PreparedObservation}
      {read : MembershipRead} {body : Bytes}
      (hNewer : supersededBy state.classificationGeneration publication.generation = false)
      (hStatus : state.statusRevision = read.statusRevision) :
      Effect publisher state (.membershipCommit publication prepared read body)
        (commitMembership publisher publication prepared body state)
        (.returned (.published true)) (some (.membership publication))
  | update {update : Update} {prepared : PreparedObservation} {body : Bytes}
      (hGeneration : state.classificationGeneration = some update.generation)
      (hRevision : state.classificationRevision = update.currentRevision)
      (hStatus : state.statusRevision = update.statusRevision) :
      Effect publisher state (.updateCommit update prepared body)
        (commitUpdate publisher update prepared body state) (.returned (.published true))
        (some (.classifications update.delta update.classificationState))
  | lifecycle {generation : Nat} {classificationState : ClassificationState}
      {read : LifecycleRead} {body : Bytes}
      (hGeneration : state.classificationGeneration = some generation)
      (hStatus : state.statusRevision = read.statusRevision)
      (hRevision : state.classificationRevision = read.currentRevision) :
      Effect publisher state (.lifecycleCommit generation classificationState read body)
        (commitLifecycle publisher classificationState body state) (.returned (.published true))
        (some (.lifecycle generation classificationState))
  | failure {error : String} {read : FailureRead} {body : Bytes}
      (hStatus : state.statusRevision = read.statusRevision)
      (hGeneration : state.classificationGeneration = read.classificationGeneration)
      (hRevision : state.classificationRevision = read.classificationRevision) :
      Effect publisher state (.failureCommit error read body)
        (commitFailure publisher error body state) (.returned .done) (some (.failure error))

/-- **What one action can do**: every action is one of the listed effects. -/
theorem opStep_effect {publisher : CurrentStatePublisher} {task : TaskOutcome}
    {state state' : CurrentState} {op op' : Op} {commit : Option Commit}
    (h : opStep publisher task state op = some (state', op', commit)) :
    Effect publisher state op state' op' commit := by
  cases op with
  | recordPollStarted startedAtMs =>
    simp only [opStep, Option.some.injEq, Prod.mk.injEq] at h
    obtain ⟨rfl, rfl, rfl⟩ := h
    exact .polled startedAtMs
  | publishMembership | membershipRead | membershipEncode | updatePrepare | updateEncode
  | lifecycleRead | lifecycleEncode | publishFailure | failureEncode =>
    simp only [opStep, Option.some.injEq, Prod.mk.injEq] at h
    obtain ⟨rfl, rfl, rfl⟩ := h
    exact .silent _ _
  | membershipPrepare publication =>
    simp only [opStep] at h
    split at h <;>
    · simp only [Option.some.injEq, Prod.mk.injEq] at h
      obtain ⟨rfl, rfl, rfl⟩ := h
      exact .silent _ _
  | membershipCommit publication prepared read body =>
    simp only [opStep] at h
    split_ifs at h with hSuperseded hMoved <;>
      simp only [Option.some.injEq, Prod.mk.injEq] at h <;> obtain ⟨rfl, rfl, rfl⟩ := h
    · exact .silent _ _
    · exact .silent _ _
    · simp only [ne_eq, not_or, Decidable.not_not] at hMoved
      exact .membership (by simpa using hSuperseded) hMoved.1
  | publishClassificationUpdate generation delta classificationState =>
    cases delta with
    | none =>
      simp only [opStep, Option.some.injEq, Prod.mk.injEq] at h
      obtain ⟨rfl, rfl, rfl⟩ := h
      exact .silent _ _
    | some delta =>
      simp only [opStep] at h
      split_ifs at h <;> simp only [Option.some.injEq, Prod.mk.injEq] at h <;>
        obtain ⟨rfl, rfl, rfl⟩ := h <;> exact .silent _ _
  | updateCommit update prepared body =>
    simp only [opStep] at h
    split_ifs at h with hStage hStatus <;>
      simp only [Option.some.injEq, Prod.mk.injEq] at h <;> obtain ⟨rfl, rfl, rfl⟩ := h
    · exact .silent _ _
    · exact .silent _ _
    · simp only [ne_eq, not_or, Decidable.not_not] at hStage hStatus
      exact .update hStage.1 hStage.2 hStatus
  | lifecycleCommit generation classificationState read body =>
    simp only [opStep] at h
    split_ifs at h with hGeneration hMoved <;>
      simp only [Option.some.injEq, Prod.mk.injEq] at h <;> obtain ⟨rfl, rfl, rfl⟩ := h
    · exact .silent _ _
    · exact .silent _ _
    · simp only [ne_eq, not_or, Decidable.not_not] at hGeneration hMoved
      exact .lifecycle hGeneration hMoved.1 hMoved.2
  | failureCommit error read body =>
    simp only [opStep] at h
    split_ifs at h with hMoved <;>
      simp only [Option.some.injEq, Prod.mk.injEq] at h <;> obtain ⟨rfl, rfl, rfl⟩ := h
    · exact .silent _ _
    · simp only [ne_eq, not_or, Decidable.not_not] at hMoved
      exact .failure hMoved.1 hMoved.2.1 hMoved.2.2
  | returned result => cases h

/-- The commit of an update raises the revision by exactly one. -/
theorem Update.Checked.revision_eq {publisher : CurrentStatePublisher} {update : Update}
    {state : CurrentState} (h : update.Checked publisher state)
    (hRevision : state.classificationRevision = update.currentRevision) :
    update.delta.revision = state.classificationRevision + 1 := by
  rw [hRevision, h.revision]

/-- An effect never goes back. -/
theorem Effect.later {publisher : CurrentStatePublisher} {state state' : CurrentState}
    {op op' : Op} {commit : Option Commit} (h : Effect publisher state op state' op' commit)
    (hKnows : op.Knows publisher state) (hNoWrap : state.statusRevision ≤ state'.statusRevision) :
    Later state state' := by
  cases h with
  | silent => exact Later.refl state
  | polled startedAtMs =>
    exact Later.of_bump rfl hNoWrap (stage_eq rfl rfl).le fun _ => ⟨rfl, rfl, rfl⟩
  | @membership publication prepared read body hNewer hStatus =>
    have hLt : stage state < stage (commitMembership publisher publication prepared body state) :=
      stage_lt_of_not_superseded hNewer rfl
    exact Later.of_bump rfl hNoWrap hLt.le fun hEq => absurd hEq hLt.ne'
  | @update update prepared body hGeneration hRevision hStatus =>
    obtain ⟨hChecked, -, -⟩ := hKnows
    have hNext := hChecked.revision_eq hRevision
    have hLe : stage state ≤ stage (commitUpdate publisher update prepared body state) :=
      stage_le_of_revision_le rfl (show _ ≤ update.delta.revision by omega)
    have hNe : stage (commitUpdate publisher update prepared body state) ≠ stage state := by
      intro hEq
      have hSame : update.delta.revision = state.classificationRevision :=
        congrArg (fun pair => (ofLex pair).2) hEq
      omega
    by_cases hState : state.classificationState = some update.classificationState
    · exact ⟨hNoWrap, hLe, fun _ => ⟨rfl, rfl, hState.symm, rfl⟩, fun hEq => absurd hEq hNe⟩
    · exact Later.of_bump (if_pos hState) hNoWrap hLe fun hEq => absurd hEq hNe
  | lifecycle => exact Later.of_bump rfl hNoWrap (stage_eq rfl rfl).le fun _ => ⟨rfl, rfl, rfl⟩
  | failure => exact Later.of_bump rfl hNoWrap (stage_eq rfl rfl).le fun _ => ⟨rfl, rfl, rfl⟩

/-- The guards of a commit make what it encoded the state it leaves. -/
theorem Effect.cachesItself {publisher : CurrentStatePublisher} {state state' : CurrentState}
    {op op' : Op} {commit : Commit} (h : Effect publisher state op state' op' (some commit))
    (hKnows : op.Knows publisher state) : CachesItself publisher state' := by
  cases h with
  | @membership publication prepared read body hNewer hStatus =>
    obtain ⟨-, ⟨seen, -, hLater, hSeen, -, hPolled⟩, hBody⟩ := hKnows
    have hSame := hLater.sameStatus (hStatus.trans hSeen)
    rw [hPolled, ← hSame.1] at hBody
    exact cachesItself_replaceCachedResponse hBody
  | @update update prepared body hGeneration hRevision hStatus =>
    obtain ⟨⟨-, -, -, ⟨seen, -, hLater, hSeen, hPolled, hError⟩⟩, -, hBody⟩ := hKnows
    have hSame := hLater.sameStatus (hStatus.trans hSeen)
    rw [hPolled, hError, ← hSame.1, ← hSame.2.1] at hBody
    exact cachesItself_replaceCachedResponse hBody
  | @lifecycle generation classificationState read body hGeneration hStatus hRevision =>
    obtain ⟨⟨seen, -, hLater, hSeenGeneration, hSeen, hSeenRevision, hPolled, hLatest, hError⟩,
      hBody⟩ := hKnows
    have hSame := hLater.sameStatus (hStatus.trans hSeen)
    have hStage := hLater.sameStage
      (stage_eq (hGeneration.trans hSeenGeneration.symm) (hRevision.trans hSeenRevision))
    rw [hPolled, hError, ← hLatest, ← hSame.1, ← hSame.2.1, ← hStage.2.1] at hBody
    exact cachesItself_replaceCachedResponse hBody
  | @failure error read body hStatus hGeneration hRevision =>
    obtain ⟨⟨seen, -, hLater, hSeen, hSeenGeneration, hSeenRevision, hPolled, hLatest, hState⟩,
      hBody⟩ := hKnows
    have hSame := hLater.sameStatus (hStatus.trans hSeen)
    have hStage := hLater.sameStage
      (stage_eq (hGeneration.trans hSeenGeneration) (hRevision.trans hSeenRevision))
    rw [hPolled, hLatest, hState, ← hSame.1, ← hSame.2.2.1, ← hStage.2.1] at hBody
    exact cachesItself_replaceCachedResponse hBody

/-- **One effect keeps the state coherent.** -/
theorem Effect.coherent {publisher : CurrentStatePublisher} {state state' : CurrentState}
    {op op' : Op} {commit : Option Commit} (h : Effect publisher state op state' op' commit)
    (hKnows : op.Knows publisher state) (hCoherent : Coherent publisher state) :
    Coherent publisher state' := by
  have hItself : ∀ made, commit = some made → CachesItself publisher state' := by
    rintro made rfl
    exact h.cachesItself hKnows
  cases h with
  | silent => exact hCoherent
  | polled startedAtMs => exact ⟨hCoherent.1, hCoherent.2, hCoherent.3, hCoherent.4, hCoherent.5⟩
  | @membership publication prepared read body hNewer hStatus =>
    refine ⟨rfl, rfl, rfl, fun membership latest hMembership hLatest => ?_, (hItself _ rfl).cached⟩
    obtain rfl : publication.membership = membership := Option.some.inj hMembership
    obtain rfl : prepared.latest = latest := Option.some.inj hLatest
    have hPrepared : PreparedFrom publication.membership publication.revision _ prepared :=
      hKnows.1
    rw [← hPrepared.classifications_eq] at hPrepared
    exact hPrepared
  | @update update prepared body hGeneration hRevision hStatus =>
    obtain ⟨⟨-, -, ⟨seen, -, hLater, hSeenGeneration, hSeenRevision, hMembership, -⟩, -⟩,
      hPrepared, -⟩ := hKnows
    have hStage := hLater.sameStage
      (stage_eq (hGeneration.trans hSeenGeneration.symm) (hRevision.trans hSeenRevision))
    have hCurrent : state.membership = some update.membership := hStage.1.trans hMembership
    have hSome : state.classificationGeneration.isSome = true := by rw [hGeneration]; rfl
    refine ⟨?_, hSome.symm, hSome, fun membership latest hEq hLatest => ?_, (hItself _ rfl).cached⟩
    · exact (congrArg Option.isSome hCurrent : state.membership.isSome = true)
    · obtain rfl : update.membership = membership := Option.some.inj (hCurrent.symm.trans hEq)
      obtain rfl : prepared.latest = latest := Option.some.inj hLatest
      have hMade : PreparedFrom update.membership update.delta.revision _ prepared := hPrepared
      rw [← hMade.classifications_eq] at hMade
      exact hMade
  | @lifecycle generation classificationState read body hGeneration hStatus hRevision =>
    have hSome : state.classificationGeneration.isSome = true := by rw [hGeneration]; rfl
    exact ⟨hCoherent.1, hCoherent.2, hSome, hCoherent.4, (hItself _ rfl).cached⟩
  | @failure error read body hStatus hGeneration hRevision =>
    exact ⟨hCoherent.1, hCoherent.2, hCoherent.3, hCoherent.4, (hItself _ rfl).cached⟩

-- ---------------------------------------------------------------------------
-- What an operation knows next
-- ---------------------------------------------------------------------------

theorem Op.knows_withBody {publisher : CurrentStatePublisher} {state : CurrentState}
    {encoded : Except RuntimeError Bytes} {next : Bytes → Op}
    (h : ∀ body, encoded = .ok body → (next body).Knows publisher state) :
    (Op.withBody encoded next).Knows publisher state := by
  cases encoded with
  | error error => trivial
  | ok body => exact h body rfl

/-- An update knows the state it read. -/
theorem knows_startUpdate {publisher : CurrentStatePublisher} {state : CurrentState}
    {generation : Nat} {delta : ClassificationRevisionDelta}
    {classificationState : ClassificationState} (hCoherent : Coherent publisher state)
    (hDelta : delta.generation = generation) :
    (startUpdate state generation delta classificationState).Knows publisher state := by
  unfold startUpdate
  split_ifs with hGeneration hRevision
  · trivial
  · trivial
  · split
    · trivial
    · next expectedRevision hExpected =>
      split_ifs with hSequence
      · trivial
      · split
        · trivial
        · next membership hMembership =>
          obtain ⟨-, rfl⟩ := checkedAdd_eq_some.mp hExpected
          simp only [ne_eq, Decidable.not_not] at hGeneration hSequence
          exact ⟨hDelta, hSequence, .now hCoherent ⟨hGeneration, rfl, hMembership, rfl⟩,
            .now hCoherent ⟨rfl, rfl, rfl⟩⟩

theorem knows_prepareUpdate {publisher : CurrentStatePublisher} {state : CurrentState}
    {task : TaskOutcome} {update : Update} (h : update.Checked publisher state) :
    (prepareUpdate task update).Knows publisher state := by
  simp only [prepareUpdate]
  split_ifs
  · trivial
  · split
    · trivial
    · next prepared hPrepared => exact ⟨h, preparedFrom_of_prepareObservation hPrepared⟩

/-- A lifecycle call knows the state it read. -/
theorem knows_readLifecycle {publisher : CurrentStatePublisher} {state : CurrentState}
    {generation : Nat} {classificationState : ClassificationState}
    (hCoherent : Coherent publisher state) :
    (readLifecycle state generation classificationState).Knows publisher state := by
  unfold readLifecycle
  split
  · trivial
  · next hGeneration =>
    split
    · trivial
    · next latest hLatest =>
      split
      · trivial
      · simp only [ne_eq, Decidable.not_not] at hGeneration
        exact .now hCoherent ⟨hGeneration, rfl, rfl, rfl, hLatest, rfl⟩

/-- A silent action leaves its operation knowing what its next point asks. -/
theorem knows_silent {publisher : CurrentStatePublisher} {task : TaskOutcome}
    {state state' : CurrentState} {op op' : Op} (hCoherent : Coherent publisher state)
    (hKnows : op.Knows publisher state)
    (h : opStep publisher task state op = some (state', op', none)) :
    op'.Knows publisher state := by
  cases op with
  | recordPollStarted startedAtMs =>
    simp only [opStep, Option.some.injEq, Prod.mk.injEq] at h
    obtain ⟨-, rfl, -⟩ := h
    trivial
  | publishMembership publication =>
    simp only [opStep, Option.some.injEq, Prod.mk.injEq] at h
    obtain ⟨-, rfl, -⟩ := h
    unfold startMembership
    split_ifs <;> trivial
  | membershipPrepare publication =>
    simp only [opStep] at h
    split at h <;> simp only [Option.some.injEq, Prod.mk.injEq] at h <;> obtain ⟨-, rfl, -⟩ := h
    · trivial
    · next prepared hPrepared => exact preparedFrom_of_prepareObservation hPrepared
  | membershipRead publication prepared =>
    simp only [opStep, Option.some.injEq, Prod.mk.injEq] at h
    obtain ⟨-, rfl, -⟩ := h
    unfold readMembership
    split_ifs
    · trivial
    · exact ⟨hKnows, .now hCoherent ⟨rfl, rfl, rfl⟩⟩
  | membershipEncode publication prepared read =>
    simp only [opStep, Option.some.injEq, Prod.mk.injEq] at h
    obtain ⟨-, rfl, -⟩ := h
    exact Op.knows_withBody fun body hBody => ⟨hKnows.1, hKnows.2, encodeResponse_eq_ok hBody⟩
  | membershipCommit publication prepared read body =>
    simp only [opStep] at h
    split_ifs at h <;> simp only [Option.some.injEq, Prod.mk.injEq, reduceCtorEq, and_false] at h
    · obtain ⟨-, rfl, -⟩ := h
      trivial
    · obtain ⟨-, rfl, -⟩ := h
      exact hKnows.1
  | publishClassificationUpdate generation delta classificationState =>
    cases delta with
    | none =>
      simp only [opStep, Option.some.injEq, Prod.mk.injEq] at h
      obtain ⟨-, rfl, -⟩ := h
      trivial
    | some delta =>
      simp only [opStep] at h
      split_ifs at h with hDelta <;> simp only [Option.some.injEq, Prod.mk.injEq] at h <;>
        obtain ⟨-, rfl, -⟩ := h
      · trivial
      · exact knows_startUpdate hCoherent (by simpa using hDelta)
  | updatePrepare update =>
    simp only [opStep, Option.some.injEq, Prod.mk.injEq] at h
    obtain ⟨-, rfl, -⟩ := h
    exact knows_prepareUpdate hKnows
  | updateEncode update prepared =>
    simp only [opStep, Option.some.injEq, Prod.mk.injEq] at h
    obtain ⟨-, rfl, -⟩ := h
    exact Op.knows_withBody fun body hBody => ⟨hKnows.1, hKnows.2, encodeResponse_eq_ok hBody⟩
  | updateCommit update prepared body =>
    simp only [opStep] at h
    split_ifs at h <;> simp only [Option.some.injEq, Prod.mk.injEq, reduceCtorEq, and_false] at h
    · obtain ⟨-, rfl, -⟩ := h
      trivial
    · obtain ⟨-, rfl, -⟩ := h
      -- the refreshed status fields are this state's own; the rest is as it was
      exact ⟨⟨hKnows.1.generation, hKnows.1.revision, hKnows.1.stageFrom,
        .now hCoherent ⟨rfl, rfl, rfl⟩⟩, hKnows.2.1⟩
  | lifecycleRead generation classificationState =>
    simp only [opStep, Option.some.injEq, Prod.mk.injEq] at h
    obtain ⟨-, rfl, -⟩ := h
    exact knows_readLifecycle hCoherent
  | lifecycleEncode generation classificationState read =>
    simp only [opStep, Option.some.injEq, Prod.mk.injEq] at h
    obtain ⟨-, rfl, -⟩ := h
    exact Op.knows_withBody fun body hBody => ⟨hKnows, encodeResponse_eq_ok hBody⟩
  | lifecycleCommit generation classificationState read body =>
    simp only [opStep] at h
    split_ifs at h <;> simp only [Option.some.injEq, Prod.mk.injEq, reduceCtorEq, and_false] at h
      <;> obtain ⟨-, rfl, -⟩ := h <;> trivial
  | publishFailure error =>
    simp only [opStep, Option.some.injEq, Prod.mk.injEq] at h
    obtain ⟨-, rfl, -⟩ := h
    exact .now hCoherent ⟨rfl, rfl, rfl, rfl, rfl, rfl⟩
  | failureEncode error read =>
    simp only [opStep, Option.some.injEq, Prod.mk.injEq] at h
    obtain ⟨-, rfl, -⟩ := h
    exact Op.knows_withBody fun body hBody => ⟨hKnows, encodeResponse_eq_ok hBody⟩
  | failureCommit error read body =>
    simp only [opStep] at h
    split_ifs at h <;> simp only [Option.some.injEq, Prod.mk.injEq, reduceCtorEq, and_false] at h
    obtain ⟨-, rfl, -⟩ := h
    trivial
  | returned result => cases h

/-- The return of a commit knows nothing, and neither does the note of a poll. -/
theorem Effect.knows_or_silent {publisher : CurrentStatePublisher} {state state' : CurrentState}
    {op op' : Op} {commit : Option Commit} (h : Effect publisher state op state' op' commit) :
    op'.Knows publisher state' ∨ (state' = state ∧ commit = none) := by
  cases h with
  | silent => exact Or.inr ⟨rfl, rfl⟩
  | polled | membership | update | lifecycle | failure => exact Or.inl trivial

/-- The proof outline of the publisher: coherence, what each operation knows,
and that every action only moves the shared state on. -/
def outline (ι : Type) [DecidableEq ι] (publisher : CurrentStatePublisher) :
    Outline (system ι publisher) where
  inv := Coherent publisher
  assertion _ state op := op.Knows publisher state
  guarantee _ := Later
  starts := fun _ hStarts => by cases hStarts <;> trivial
  step := fun {_ state op commit state' op'} hCoherent hKnows hStep => by
    obtain ⟨⟨task, hStep⟩, hNoWrap⟩ := hStep
    have hEffect := opStep_effect hStep
    refine ⟨hEffect.coherent hKnows hCoherent, hEffect.later hKnows hNoWrap, ?_⟩
    rcases hEffect.knows_or_silent with h | ⟨rfl, rfl⟩
    · exact h
    · exact knows_silent hCoherent hKnows hStep
  stable := fun _ _ _ hLater hKnows => hKnows.later hLater

-- ---------------------------------------------------------------------------
-- Every reachable state is coherent
-- ---------------------------------------------------------------------------

variable {ι : Type} [DecidableEq ι] {publisher : CurrentStatePublisher}

/-- The worlds the publisher reaches from its default state. -/
abbrev Reaches (publisher : CurrentStatePublisher) (trace : List (ι × Option Commit))
    (w : World ι CurrentState Op) : Prop :=
  (system ι publisher).Run (initial {}) trace w

theorem Reaches.holds {trace : List (ι × Option Commit)} {w : World ι CurrentState Op}
    (h : Reaches publisher trace w) : (outline ι publisher).Holds w :=
  (outline ι publisher).holds_run h ((outline ι publisher).holds_initial
    (coherent_default publisher))

/-- What a reader of the source can see, but for the time of the last poll. -/
structure View where
  membership : Option MempoolSnapshot
  latest : Option MempoolSnapshot
  classifications : TransactionClassifications
  lastError : Option String
  cachedResponse : Option CachedSnapshotResponse
  classificationGeneration : Option Nat
  classificationRevision : Nat
  classificationState : Option ClassificationState

/-- What a reader sees of a state. -/
def View.of (state : CurrentState) : View where
  membership := state.membership
  latest := state.latest
  classifications := state.classifications
  lastError := state.lastError
  cachedResponse := state.cachedResponse
  classificationGeneration := state.classificationGeneration
  classificationRevision := state.classificationRevision
  classificationState := state.classificationState

/-- Only a commit changes what a reader can see. -/
theorem view_silent {w w' : World ι CurrentState Op} {i : ι}
    (h : (system ι publisher).Step w (i, none) w') : View.of w'.shared = View.of w.shared := by
  cases h with
  | start => rfl
  | act hLocal hStep =>
    obtain ⟨⟨task, hStep⟩, -⟩ := hStep
    cases opStep_effect hStep with
    | silent => rfl
    | polled => rfl

/-- A commit leaves a response that encodes its own state. -/
theorem commit_cachesItself {trace : List (ι × Option Commit)} {w w' : World ι CurrentState Op}
    {i : ι} {commit : Commit} (h : Reaches publisher trace w)
    (hStep : (system ι publisher).Step w (i, some commit) w') :
    CachesItself publisher w'.shared := by
  cases hStep with
  | act hLocal hStep =>
    obtain ⟨⟨task, hStep⟩, -⟩ := hStep
    exact (opStep_effect hStep).cachesItself (h.holds.2 i _ hLocal)

/-- **Coherence under every interleaving.** In every reachable state the parts
of the visible state are coherent, every row of the latest snapshot says what
its detail record says, and the cached body encodes the state as the last
commit of the run left it: since then only polls were recorded. -/
theorem published_state_coherent {trace : List (ι × Option Commit)}
    {w : World ι CurrentState Op} (h : Reaches publisher trace w) :
    Coherent publisher w.shared ∧
      (∀ latest, w.shared.latest = some latest →
        latest.classificationRevision = w.shared.classificationRevision ∧
          ∀ entry ∈ latest.transactions, RowAgrees w.shared.classifications entry) ∧
      ∀ response, w.shared.cachedResponse = some response →
        ∃ i commit before after,
          (system ι publisher).LastEvent (initial {}) trace w i commit before after ∧
            CachesItself publisher after.shared ∧
            Encodes publisher w.shared after.shared.lastPollStartedAtMs response.body := by
  obtain ⟨hCoherent, -⟩ := h.holds
  refine ⟨hCoherent, fun latest hLatest => ?_, fun response hResponse => ?_⟩
  · have hSome : w.shared.membership.isSome = true := by
      rw [hCoherent.membershipLatest, hLatest]
      rfl
    obtain ⟨membership, hMembership⟩ := Option.isSome_iff_exists.mp hSome
    have hMade := hCoherent.materialized membership latest hMembership hLatest
    refine ⟨?_, fun entry hMem => rowAgrees_materialized hMade hMem⟩
    obtain ⟨-, -, -, hEq⟩ := materializeRetained_eq_ok.mp hMade
    exact congrArg (fun made => made.snapshot.classificationRevision) hEq
  · rcases h.silent_or_lastEvent with hSilent | ⟨i, commit, before, after, hLast⟩
    · -- without a commit nothing was ever cached
      have hSame := h.silent_eq View.of view_silent hSilent
      have hNone : w.shared.cachedResponse = none := congrArg View.cachedResponse hSame
      rw [hNone] at hResponse
      cases hResponse
    · refine ⟨i, commit, before, after, hLast, ?_⟩
      obtain ⟨t₁, t₂, -, hBefore, hAfter, hSilent⟩ := hLast.split
      have hItself := commit_cachesItself hBefore hLast.step
      have hSame := hAfter.silent_eq View.of view_silent hSilent
      refine ⟨hItself, ?_⟩
      obtain ⟨cached, hCached, hBody, -⟩ := hItself
      have hResponse' : w.shared.cachedResponse = after.shared.cachedResponse :=
        congrArg View.cachedResponse hSame
      obtain rfl : cached = response := by
        rw [hResponse, hCached] at hResponse'
        exact (Option.some.inj hResponse').symm
      have hLatest : w.shared.latest = after.shared.latest := congrArg View.latest hSame
      have hState : w.shared.classificationState = after.shared.classificationState :=
        congrArg View.classificationState hSame
      have hError : w.shared.lastError = after.shared.lastError := congrArg View.lastError hSame
      unfold Encodes
      rw [hLatest, hState, hError]
      exact hBody

end Coherence

/-- `serde_json::to_vec`. -/
abbrev serdeEncoder : ResponseEncoder where
  toVec response := some (Web.responseJson response).render.toUTF8.toList

-- ---------------------------------------------------------------------------
-- A payment, published and then classified
-- ---------------------------------------------------------------------------

namespace Payment

/-- The publisher of the sample run. -/
def publisher : CurrentStatePublisher := ⟨"core", "Bitcoin Core", 60⟩

/-- The payment's membership, with nothing classified yet. -/
def start : ClassificationGenerationStart where
  generation := 1
  revision := 0
  membership := Reference.paymentMembership
  classifications := ∅
  hasEligibleWork := true

/-- The payment's membership, prepared before it is classified. -/
def unclassified : PreparedObservation where
  latest := materializedSnapshot Reference.paymentMembership 0 ∅
  classifications := ∅

/-- The response body of a published membership. -/
def body (latest : MempoolSnapshot) (classificationState : ClassificationState) : Bytes :=
  (Web.responseJson (responseFromParts publisher none (some latest) (some classificationState)
    none)).render.toUTF8.toList

/-- The state after the payment's membership is committed. -/
def published : CurrentState :=
  commitMembership publisher start unclassified (body unclassified.latest .classifying) {}

section Delta

variable [BitcoinCrate]

/-- The record of the payment. -/
def delta : ClassificationRevisionDelta where
  generation := 1
  revision := 1
  changed := [Reference.paymentRecord]

/-- The payment's membership with its record. -/
def classified : PreparedObservation where
  latest := materializedSnapshot Reference.paymentMembership 1 Reference.paymentClassifications
  classifications := Reference.paymentClassifications

/-- What the update call has read. -/
def update : Update where
  generation := 1
  delta := delta
  classificationState := .complete
  statusRevision := 1
  currentRevision := 0
  membership := Reference.paymentMembership
  classifications := ∅
  lastPollStartedAtMs := none
  lastError := none

/-- The state after the record is committed. -/
def revised : CurrentState :=
  commitUpdate publisher update classified (body classified.latest .complete) published

end Delta

/-- A system in which the publisher's calls can act, as long as no revision wraps. -/
structure Performs (P : Processes Nat CurrentState Op Commit) : Prop where
  starts : ∀ {call}, call.IsCall → P.starts call
  step : ∀ {i state op commit state' op'},
    @opStep serdeEncoder publisher .finished state op = some (state', op', commit) →
    state.statusRevision ≤ state'.statusRevision →
    state.responseRevision ≤ state'.responseRevision → P.step i state op commit state' op'

/-- A failure that was read before the membership was committed. -/
abbrev failing : Op := readFailure {} "timeout"

variable {P : Processes Nat CurrentState Op Commit}

/-- The membership is committed while a failure of an earlier poll is on its way. -/
theorem reaches_published (h : Performs P) :
    ∃ trace, P.Run (initial {}) trace (crew published [.returned (.published true), failing]) := by
  have hCall : startMembership publisher {} start = .membershipPrepare start := by
    simp only [startMembership, ne_eq, not_true_eq_false, if_false, start,
      Std.ExtTreeMap.size_empty]
    rfl
  have hPrepare : prepareObservation .finished start.membership start.revision
      start.classifications = .ok unclassified := by
    unfold prepareObservation
    have hMade : MempoolObservation.materializeRetained start.membership start.revision
        start.classifications = .ok ⟨unclassified.latest, ∅⟩ :=
      materializeRetained_eq_ok.mpr ⟨Reference.paymentMembership_accepted, by decide,
        fun txid record hGet => by simp [start] at hGet, rfl⟩
    rw [hMade]
    rfl
  have hCalled : @opStep serdeEncoder publisher .finished {} (.publishMembership start) =
      some ({}, .membershipPrepare start, none) := by
    simp only [opStep, hCall]
  have hPrepared : @opStep serdeEncoder publisher .finished {} (.membershipPrepare start) =
      some ({}, .membershipRead start unclassified, none) := by
    simp only [opStep, hPrepare]
  have hNone : P.Run (initial {}) [] (crew {} []) := Run.refl
  have hStart := hNone.crew_start (h.starts (.publishMembership start))
  have hPrepares := hStart.crew_act (i := 0) rfl (h.step hCalled le_rfl le_rfl)
  have hReads := hPrepares.crew_act (i := 0) rfl (h.step hPrepared le_rfl le_rfl)
  have hFails := (hReads.crew_start (h.starts (.publishFailure "timeout"))).crew_act (i := 1) rfl
    (h.step rfl le_rfl le_rfl)
  have hEncodes := hFails.crew_act (i := 0) rfl (h.step rfl le_rfl le_rfl)
  have hCommits := hEncodes.crew_act (i := 0) rfl (h.step rfl le_rfl le_rfl)
  exact ⟨_, hCommits.crew_act (i := 0) rfl
    (h.step rfl (show 0 ≤ 1 by decide) (show 0 ≤ 1 by decide))⟩

variable [BitcoinCrate]

/-- The delta waits for its commit; the failure has not gone on. -/
abbrev revising : World Nat CurrentState Op :=
  crew published [.returned (.published true), failing,
    .updateCommit update classified (body classified.latest .complete)]

/-- The payment is classified, by the second commit. -/
abbrev revisedWorld : World Nat CurrentState Op :=
  crew revised [.returned (.published true), failing, .returned (.published true)]

/-- The run reaches the point where the record is about to be committed. -/
theorem reaches_revising (h : Performs P) : ∃ trace, P.Run (initial {}) trace revising := by
  have hStarted : @opStep serdeEncoder publisher .finished published
      (.publishClassificationUpdate 1 (some delta) .complete) =
        some (published, .updatePrepare update, none) := rfl
  have hSize : ¬ Reference.paymentClassifications.size >
      update.membership.transactions.length := by
    simp [Reference.paymentClassifications, update, Reference.paymentMembership, snapshotOf,
      Std.ExtTreeMap.size_insert]
  have hClassifications : accumulate update.classifications update.delta.changed =
      Reference.paymentClassifications := rfl
  have hPrepare : prepareObservation .finished update.membership update.delta.revision
      Reference.paymentClassifications = .ok classified := by
    have hMade : MempoolObservation.materializeRetained update.membership update.delta.revision
        Reference.paymentClassifications = .ok ⟨classified.latest, classified.classifications⟩ :=
      Reference.payment_materializes (show 1 ≤ maxSafeJsonInteger by decide)
    simp only [prepareObservation, hMade]
  have hPrepared : @opStep serdeEncoder publisher .finished published (.updatePrepare update) =
      some (published, .updateEncode update classified, none) := by
    simp only [opStep, prepareUpdate, hClassifications, hPrepare]
    rw [if_neg hSize]
  obtain ⟨trace, hRun⟩ := reaches_published h
  have hStart := hRun.crew_start (h.starts (.publishClassificationUpdate 1 (some delta) .complete))
  have hPrepares := hStart.crew_act (i := 2) rfl (h.step hStarted le_rfl le_rfl)
  have hEncodes := hPrepares.crew_act (i := 2) rfl (h.step hPrepared le_rfl le_rfl)
  exact ⟨_, hEncodes.crew_act (i := 2) rfl (h.step rfl le_rfl le_rfl)⟩

/-- The commit of the record. -/
theorem revising_step (h : Performs P) :
    P.Step revising (2, some (.classifications delta .complete)) revisedWorld :=
  Step.crew_act (i := 2) rfl (h.step rfl (show 1 ≤ 2 by decide) (show 1 ≤ 2 by decide))

omit [BitcoinCrate] in
theorem performs_system : Performs (@system serdeEncoder Nat publisher) where
  starts := id
  step := fun hStep hStatus _ => ⟨⟨.finished, hStep⟩, hStatus⟩

end Payment

/-- Both commits have been made and the failure is still on its way: the payment's row says what
its record says. -/
theorem published_state_coherent_payment :
    let _ := MempoolAtlas.Reference.crate [MempoolAtlas.Reference.payment]
    let _ := serdeEncoder
    Payment.revised.membership = some Reference.paymentMembership ∧
      Payment.revisedWorld.procs 1 = some Payment.failing ∧
      Coherent Payment.publisher Payment.revised ∧
      (∀ entry ∈ Payment.classified.latest.transactions,
        RowAgrees Reference.paymentClassifications entry) ∧
      ∃ i commit before after trace,
        (system Nat Payment.publisher).LastEvent (initial {}) trace Payment.revisedWorld i commit
          before after ∧
        Encodes Payment.publisher Payment.revised after.shared.lastPollStartedAtMs
          (Payment.body Payment.classified.latest .complete) := by
  intro _ _
  obtain ⟨trace, hRun⟩ := Payment.reaches_revising Payment.performs_system
  obtain ⟨hCoherent, hRows, hCached⟩ :=
    published_state_coherent (hRun.tail (Payment.revising_step Payment.performs_system))
  obtain ⟨i, commit, before, after, hLast, -, hEncodes⟩ := hCached _ rfl
  exact ⟨rfl, rfl, hCoherent, (hRows _ rfl).2, i, commit, before, after, _, hLast, hEncodes⟩

end MempoolAtlas.Runtime
