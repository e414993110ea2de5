import MempoolAtlas.Runtime.PublisherHistory

/-!
# Stages of the published state

What the (generation, revision) pair alone guarantees, in every run, whether or
not `status_revision` wraps: an unchanged pair means an unchanged membership,
snapshot and classification map, the snapshot is their materialization for this
source, and the cached body shows that snapshot.

## Results

* `placed_effect` — one effect keeps everything in its place.
* `Comes.stageLater` — along a run no stage goes back.
-/

namespace MempoolAtlas.Runtime

open Model Machine Classification Processes

/-- The generation as an ordered value; no generation comes first. -/
def generationOf (state : CurrentState) : WithBot Nat := state.classificationGeneration

/-- How the staged part of the shared state evolves. -/
structure StageLater (state state' : CurrentState) : Prop where
  stage : stage state ≤ stage state'
  sameGeneration : state'.classificationGeneration = state.classificationGeneration →
    state'.membership = state.membership
  same : Runtime.stage state' = Runtime.stage state →
    state'.latest = state.latest ∧ state'.classifications = state.classifications

theorem StageLater.refl (state : CurrentState) : StageLater state state :=
  ⟨le_rfl, fun _ => rfl, fun _ => ⟨rfl, rfl⟩⟩

/-- The generation alone never goes back. -/
theorem StageLater.generation_le {state state' : CurrentState} (h : StageLater state state') :
    generationOf state ≤ generationOf state' := by
  rcases Prod.Lex.toLex_le_toLex.mp h.stage with hLt | ⟨hEq, -⟩
  · exact hLt.le
  · exact hEq.le

/-- Being at a later stage composes. -/
theorem StageLater.trans {a b c : CurrentState} (hab : StageLater a b) (hbc : StageLater b c) :
    StageLater a c where
  stage := hab.stage.trans hbc.stage
  sameGeneration h := by
    have hac : generationOf c = generationOf a := h
    have hb : generationOf b = generationOf a :=
      le_antisymm (hac ▸ hbc.generation_le) hab.generation_le
    have hb : b.classificationGeneration = a.classificationGeneration := hb
    rw [hbc.sameGeneration (h.trans hb.symm), hab.sameGeneration hb]
  same h := by
    have hb : Runtime.stage b = Runtime.stage a := le_antisymm (h ▸ hbc.stage) hab.stage
    obtain ⟨h1, h2⟩ := hab.same hb
    obtain ⟨k1, k2⟩ := hbc.same (h.trans hb.symm)
    exact ⟨k1.trans h1, k2.trans h2⟩

/-- Values read from an earlier state. -/
def Seen (state : CurrentState) (values : CurrentState → Prop) : Prop :=
  ∃ seen, StageLater seen state ∧ values seen

/-- What was seen stays seen. -/
theorem Seen.later {state state' : CurrentState} {values : CurrentState → Prop}
    (h : Seen state values) (hLater : StageLater state state') : Seen state' values := by
  obtain ⟨seen, hSeen, hValues⟩ := h
  exact ⟨seen, hSeen.trans hLater, hValues⟩

theorem Seen.now {state : CurrentState} {values : CurrentState → Prop} (h : values state) :
    Seen state values :=
  ⟨state, StageLater.refl state, h⟩

section Stages

variable [ResponseEncoder]

/-- Any number of operations of one source in flight, in any run at all. -/
def freeSystem (ι : Type) (publisher : CurrentStatePublisher) :
    Processes ι CurrentState Op Commit where
  starts := Op.IsCall
  step _ state op commit state' op' :=
    ∃ task, opStep publisher task state op = some (state', op', commit)

/-- A body that encodes a response with this snapshot. -/
def BodyOf (latest : Option MempoolSnapshot) (body : Bytes) : Prop :=
  ∃ response, ResponseEncoder.toVec response = some body ∧ response.snapshot = latest

/-- What a state holds belongs to its stage. -/
structure Placed (publisher : CurrentStatePublisher) (state : CurrentState) : Prop where
  membershipLatest : state.membership.isSome = state.latest.isSome
  latestGeneration : state.latest.isSome = state.classificationGeneration.isSome
  sourceId : ∀ membership, state.membership = some membership →
    membership.sourceId = publisher.sourceId
  materialized : ∀ membership latest, state.membership = some membership →
    state.latest = some latest →
    MempoolObservation.materializeRetained membership state.classificationRevision
      state.classifications = .ok ⟨latest, state.classifications⟩
  cached : ∀ response, state.cachedResponse = some response → BodyOf state.latest response.body

/-- Before anything is published nothing is out of place. -/
theorem placed_default (publisher : CurrentStatePublisher) : Placed publisher {} where
  membershipLatest := rfl
  latestGeneration := rfl
  sourceId _ h := by cases h
  materialized _ _ h := by cases h
  cached _ h := by cases h

theorem cached_replaceCachedResponse {publisher : CurrentStatePublisher} {state : CurrentState}
    {body : Bytes} (h : BodyOf state.latest body) (response : CachedSnapshotResponse)
    (hCached : (replaceCachedResponse publisher state body).cachedResponse = some response) :
    BodyOf (replaceCachedResponse publisher state body).latest response.body := by
  obtain rfl := Option.some.inj hCached
  exact h

/-- A membership that passed the source check, prepared. -/
def PreparedMembership (publisher : CurrentStatePublisher)
    (publication : ClassificationGenerationStart) (prepared : PreparedObservation) : Prop :=
  publication.membership.sourceId = publisher.sourceId ∧
    PreparedFrom publication.membership publication.revision publication.classifications prepared

/-- The next revision over the values of an earlier state. -/
def Update.Staged (update : Update) (state : CurrentState) : Prop :=
  update.delta.generation = update.generation ∧
    update.delta.revision = update.currentRevision + 1 ∧ Seen state update.StageFrom

/-- What the staged part of an operation in flight amounts to. -/
def Op.Places (publisher : CurrentStatePublisher) (state : CurrentState) : Op → Prop
  | .membershipPrepare publication => publication.membership.sourceId = publisher.sourceId
  | .membershipRead publication prepared => PreparedMembership publisher publication prepared
  | .membershipEncode publication prepared _ => PreparedMembership publisher publication prepared
  | .membershipCommit publication prepared _ body =>
    PreparedMembership publisher publication prepared ∧ BodyOf (some prepared.latest) body
  | .updatePrepare update => update.Staged state
  | .updateEncode update prepared => update.Staged state ∧ update.Prepared prepared
  | .updateCommit update prepared body =>
    update.Staged state ∧ update.Prepared prepared ∧ BodyOf (some prepared.latest) body
  | .lifecycleEncode generation _ read => Seen state (read.From generation)
  | .lifecycleCommit generation _ read body =>
    Seen state (read.From generation) ∧ BodyOf (some read.latest) body
  | .failureEncode _ read => Seen state read.From
  | .failureCommit _ read body => Seen state read.From ∧ BodyOf read.latest body
  | _ => True

/-- A call's reading stays good at later stages. -/
theorem Op.Places.later {publisher : CurrentStatePublisher} {state state' : CurrentState} {op : Op}
    (h : op.Places publisher state) (hLater : StageLater state state') :
    op.Places publisher state' := by
  have hStaged : ∀ {update : Update}, update.Staged state → update.Staged state' := fun h =>
    ⟨h.1, h.2.1, h.2.2.later hLater⟩
  cases op with
  | membershipPrepare | membershipRead | membershipEncode | membershipCommit => exact h
  | updatePrepare update => exact hStaged h
  | updateEncode update prepared => exact ⟨hStaged h.1, h.2⟩
  | updateCommit update prepared body => exact ⟨hStaged h.1, h.2⟩
  | lifecycleEncode generation classificationState read => exact Seen.later h hLater
  | lifecycleCommit generation classificationState read body => exact ⟨h.1.later hLater, h.2⟩
  | failureEncode error read => exact Seen.later h hLater
  | failureCommit error read body => exact ⟨h.1.later hLater, h.2⟩
  | recordPollStarted | publishMembership | publishClassificationUpdate | lifecycleRead
  | publishFailure | returned => trivial

-- ---------------------------------------------------------------------------
-- One action
-- ---------------------------------------------------------------------------

variable {publisher : CurrentStatePublisher} {state state' : CurrentState} {op op' : Op}

omit [ResponseEncoder] in
/-- The guards of an update make the values it was prepared from current. -/
theorem Update.Staged.current {update : Update} (h : update.Staged state)
    (hGeneration : state.classificationGeneration = some update.generation)
    (hRevision : state.classificationRevision = update.currentRevision) :
    state.membership = some update.membership ∧ update.classifications = state.classifications ∧
      update.delta.revision = state.classificationRevision + 1 := by
  obtain ⟨-, hNext, seen, hLater, hSeenGeneration, hSeenRevision, hMembership, hSeen⟩ := h
  have hSame := hLater.same
    (stage_eq (hGeneration.trans hSeenGeneration.symm) (hRevision.trans hSeenRevision))
  have hKept := hLater.sameGeneration (hGeneration.trans hSeenGeneration.symm)
  exact ⟨hKept.trans hMembership, hSeen.trans hSame.2.symm, by rw [hNext, hRevision]⟩

/-- No effect goes back a stage. -/
theorem stageLater_effect {commit : Option Commit}
    (h : Effect publisher state op state' op' commit) (hPlaces : op.Places publisher state) :
    StageLater state state' := by
  cases h with
  | silent => exact StageLater.refl state
  | polled | lifecycle | failure =>
    exact ⟨(stage_eq rfl rfl).le, fun _ => rfl, fun _ => ⟨rfl, rfl⟩⟩
  | @membership publication prepared read body hNewer =>
    have hLt : stage state < stage (commitMembership publisher publication prepared body state) :=
      stage_lt_of_not_superseded hNewer rfl
    refine ⟨hLt.le, fun hEq => ?_, fun hEq => absurd hEq hLt.ne'⟩
    have hSelf : supersededBy (some publication.generation) publication.generation = true := by
      simp [supersededBy]
    have hGeneration : some publication.generation = state.classificationGeneration := hEq
    rw [hGeneration, hNewer] at hSelf
    cases hSelf
  | @update update prepared body hGeneration hRevision =>
    obtain ⟨-, -, hNext⟩ := hPlaces.1.current hGeneration hRevision
    refine ⟨stage_le_of_revision_le rfl (show _ ≤ update.delta.revision by omega), fun _ => rfl,
      fun hEq => ?_⟩
    have hSame : update.delta.revision = state.classificationRevision :=
      congrArg (fun pair => (ofLex pair).2) hEq
    omega

omit [ResponseEncoder] in
/-- The snapshot that a lifecycle or failure commit has encoded is the current one. -/
theorem latest_of_seen {generation : Option Nat} {revision : Nat} {latest : Option MempoolSnapshot}
    (hSeen : Seen state fun seen => seen.classificationGeneration = generation ∧
      revision = seen.classificationRevision ∧ seen.latest = latest)
    (hGeneration : state.classificationGeneration = generation)
    (hRevision : state.classificationRevision = revision) : state.latest = latest := by
  obtain ⟨seen, hLater, hSeenGeneration, hSeenRevision, hLatest⟩ := hSeen
  have hSame := hLater.same
    (stage_eq (hGeneration.trans hSeenGeneration.symm) (hRevision.trans hSeenRevision))
  exact hSame.1.trans hLatest

/-- **One effect** keeps everything in its place. -/
theorem placed_effect {commit : Option Commit}
    (h : Effect publisher state op state' op' commit) (hPlaces : op.Places publisher state)
    (hPlaced : Placed publisher state) : Placed publisher state' := by
  cases h with
  | silent => exact hPlaced
  | polled => exact ⟨hPlaced.1, hPlaced.2, hPlaced.3, hPlaced.4, hPlaced.5⟩
  | @membership publication prepared read body hNewer =>
    obtain ⟨⟨hSource, hPrepared⟩, hBody⟩ := hPlaces
    refine ⟨rfl, rfl, fun membership hEq => ?_, fun membership latest hEq hLatest => ?_,
      cached_replaceCachedResponse hBody⟩
    · obtain rfl : publication.membership = membership := Option.some.inj hEq
      exact hSource
    · obtain rfl : publication.membership = membership := Option.some.inj hEq
      obtain rfl : prepared.latest = latest := Option.some.inj hLatest
      rw [← hPrepared.classifications_eq] at hPrepared
      exact hPrepared
  | @update update prepared body hGeneration hRevision =>
    obtain ⟨hStaged, hPrepared, hBody⟩ := hPlaces
    obtain ⟨hCurrent, -, -⟩ := hStaged.current hGeneration hRevision
    have hSome : state.classificationGeneration.isSome = true := by rw [hGeneration]; rfl
    refine ⟨?_, hSome.symm, hPlaced.sourceId, fun membership latest hEq hLatest => ?_,
      cached_replaceCachedResponse hBody⟩
    · exact (congrArg Option.isSome hCurrent : state.membership.isSome = true)
    · obtain rfl : update.membership = membership := Option.some.inj (hCurrent.symm.trans hEq)
      obtain rfl : prepared.latest = latest := Option.some.inj hLatest
      have hMade : PreparedFrom update.membership update.delta.revision _ prepared := hPrepared
      rw [← hMade.classifications_eq] at hMade
      exact hMade
  | @lifecycle generation classificationState read body hGeneration hStatus hRevision =>
    obtain ⟨⟨seen, hLater, hFrom⟩, hBody⟩ := hPlaces
    have hLatest : state.latest = some read.latest :=
      latest_of_seen ⟨seen, hLater, hFrom.1, hFrom.2.2.1, hFrom.2.2.2.2.1⟩ hGeneration hRevision
    rw [← hLatest] at hBody
    exact ⟨hPlaced.1, hPlaced.2, hPlaced.3, hPlaced.4, cached_replaceCachedResponse hBody⟩
  | @failure error read body hStatus hGeneration hRevision =>
    obtain ⟨⟨seen, hLater, hFrom⟩, hBody⟩ := hPlaces
    have hLatest : state.latest = read.latest :=
      latest_of_seen ⟨seen, hLater, hFrom.2.1.symm, hFrom.2.2.1, hFrom.2.2.2.2.1.symm⟩
        hGeneration hRevision
    rw [← hLatest] at hBody
    exact ⟨hPlaced.1, hPlaced.2, hPlaced.3, hPlaced.4, cached_replaceCachedResponse hBody⟩

theorem Op.places_withBody {task : TaskOutcome} {response : SourceSnapshotResponse}
    {next : Bytes → Op}
    (h : ∀ body, BodyOf response.snapshot body → (next body).Places publisher state) :
    (Op.withBody (encodeResponse task response) next).Places publisher state := by
  cases hEncoded : encodeResponse task response with
  | error error => trivial
  | ok body => exact h body ⟨response, encodeResponse_eq_ok hEncoded, rfl⟩

theorem places_startUpdate {generation : Nat} {delta : ClassificationRevisionDelta}
    {classificationState : ClassificationState} (hDelta : delta.generation = generation) :
    (startUpdate state generation delta classificationState).Places publisher state := by
  unfold startUpdate
  split_ifs with hGeneration hRevision
  · trivial
  · trivial
  · split
    · trivial
    · next expectedRevision hExpected =>
      split_ifs with hSequence
      · trivial
      · split
        · trivial
        · next membership hMembership =>
          obtain ⟨-, rfl⟩ := checkedAdd_eq_some.mp hExpected
          simp only [ne_eq, Decidable.not_not] at hGeneration hSequence
          exact ⟨hDelta, hSequence, .now ⟨hGeneration, rfl, hMembership, rfl⟩⟩

/-- A silent action of an operation keeps what it amounts to. -/
theorem places_silent {task : TaskOutcome} (hPlaces : op.Places publisher state)
    (h : opStep publisher task state op = some (state', op', none)) :
    op'.Places publisher state := by
  cases op with
  | recordPollStarted startedAtMs =>
    simp only [opStep, Option.some.injEq, Prod.mk.injEq] at h
    obtain ⟨-, rfl, -⟩ := h
    trivial
  | publishMembership publication =>
    simp only [opStep, Option.some.injEq, Prod.mk.injEq] at h
    obtain ⟨-, rfl, -⟩ := h
    unfold startMembership
    split_ifs with hSource
    · trivial
    · trivial
    · trivial
    · trivial
    · have hSame : publication.membership.sourceId = publisher.sourceId := by simpa using hSource
      exact hSame
  | membershipPrepare publication =>
    simp only [opStep] at h
    split at h <;> simp only [Option.some.injEq, Prod.mk.injEq] at h <;> obtain ⟨-, rfl, -⟩ := h
    · trivial
    · next prepared hPrepared => exact ⟨hPlaces, preparedFrom_of_prepareObservation hPrepared⟩
  | membershipRead publication prepared =>
    simp only [opStep, Option.some.injEq, Prod.mk.injEq] at h
    obtain ⟨-, rfl, -⟩ := h
    unfold readMembership
    split_ifs
    · trivial
    · exact hPlaces
  | membershipEncode publication prepared read =>
    simp only [opStep, Option.some.injEq, Prod.mk.injEq] at h
    obtain ⟨-, rfl, -⟩ := h
    exact Op.places_withBody fun body hBody => ⟨hPlaces, hBody⟩
  | membershipCommit publication prepared read body =>
    simp only [opStep] at h
    split_ifs at h <;> simp only [Option.some.injEq, Prod.mk.injEq, reduceCtorEq, and_false] at h
    · obtain ⟨-, rfl, -⟩ := h
      trivial
    · obtain ⟨-, rfl, -⟩ := h
      exact hPlaces.1
  | publishClassificationUpdate generation delta classificationState =>
    cases delta with
    | none =>
      simp only [opStep, Option.some.injEq, Prod.mk.injEq] at h
      obtain ⟨-, rfl, -⟩ := h
      trivial
    | some delta =>
      simp only [opStep] at h
      split_ifs at h with hDelta <;> simp only [Option.some.injEq, Prod.mk.injEq] at h <;>
        obtain ⟨-, rfl, -⟩ := h
      · trivial
      · exact places_startUpdate (by simpa using hDelta)
  | updatePrepare update =>
    simp only [opStep, Option.some.injEq, Prod.mk.injEq] at h
    obtain ⟨-, rfl, -⟩ := h
    simp only [prepareUpdate]
    split_ifs
    · trivial
    · split
      · trivial
      · next prepared hPrepared => exact ⟨hPlaces, preparedFrom_of_prepareObservation hPrepared⟩
  | updateEncode update prepared =>
    simp only [opStep, Option.some.injEq, Prod.mk.injEq] at h
    obtain ⟨-, rfl, -⟩ := h
    exact Op.places_withBody fun body hBody => ⟨hPlaces.1, hPlaces.2, hBody⟩
  | updateCommit update prepared body =>
    simp only [opStep] at h
    split_ifs at h <;> simp only [Option.some.injEq, Prod.mk.injEq, reduceCtorEq, and_false] at h
    · obtain ⟨-, rfl, -⟩ := h
      trivial
    · -- the refresh leaves the staged fields of the update alone
      obtain ⟨-, rfl, -⟩ := h
      exact ⟨hPlaces.1, hPlaces.2.1⟩
  | lifecycleRead generation classificationState =>
    simp only [opStep, Option.some.injEq, Prod.mk.injEq] at h
    obtain ⟨-, rfl, -⟩ := h
    unfold readLifecycle
    split
    · trivial
    · next hGeneration =>
      split
      · trivial
      · next latest hLatest =>
        split
        · trivial
        · exact .now ⟨Decidable.not_not.mp hGeneration, rfl, rfl, rfl, hLatest, rfl⟩
  | lifecycleEncode generation classificationState read =>
    simp only [opStep, Option.some.injEq, Prod.mk.injEq] at h
    obtain ⟨-, rfl, -⟩ := h
    exact Op.places_withBody fun body hBody => ⟨hPlaces, hBody⟩
  | lifecycleCommit generation classificationState read body =>
    simp only [opStep] at h
    split_ifs at h <;> simp only [Option.some.injEq, Prod.mk.injEq, reduceCtorEq, and_false] at h
      <;> obtain ⟨-, rfl, -⟩ := h <;> trivial
  | publishFailure error =>
    simp only [opStep, Option.some.injEq, Prod.mk.injEq] at h
    obtain ⟨-, rfl, -⟩ := h
    exact .now ⟨rfl, rfl, rfl, rfl, rfl, rfl⟩
  | failureEncode error read =>
    simp only [opStep, Option.some.injEq, Prod.mk.injEq] at h
    obtain ⟨-, rfl, -⟩ := h
    exact Op.places_withBody fun body hBody => ⟨hPlaces, hBody⟩
  | failureCommit error read body =>
    simp only [opStep] at h
    split_ifs at h <;> simp only [Option.some.injEq, Prod.mk.injEq, reduceCtorEq, and_false] at h
    obtain ⟨-, rfl, -⟩ := h
    trivial
  | returned result => cases h

/-- The proof outline of the stages. -/
def stageOutline (ι : Type) [DecidableEq ι] (publisher : CurrentStatePublisher) :
    Outline (freeSystem ι publisher) where
  inv := Placed publisher
  assertion _ state op := op.Places publisher state
  guarantee _ := StageLater
  starts := fun _ hStarts => by cases hStarts <;> trivial
  step := fun {_ state op commit state' op'} hPlaced hPlaces hStep => by
    obtain ⟨task, hStep⟩ := hStep
    have hEffect := opStep_effect hStep
    refine ⟨placed_effect hEffect hPlaces hPlaced, stageLater_effect hEffect hPlaces, ?_⟩
    cases commit with
    | none =>
      cases hEffect with
      | silent => exact places_silent hPlaces hStep
      | polled => trivial
    | some commit => rcases hEffect.commit_returns with rfl | rfl <;> trivial
  stable := fun _ _ _ hLater hPlaces => hPlaces.later hLater

-- ---------------------------------------------------------------------------
-- Runs
-- ---------------------------------------------------------------------------

variable {ι : Type} [DecidableEq ι]

/-- The worlds the publisher reaches in any run. -/
abbrev Comes (publisher : CurrentStatePublisher) (trace : List (ι × Option Commit))
    (w : World ι CurrentState Op) : Prop :=
  (freeSystem ι publisher).Run (initial {}) trace w

/-- A run keeps what the outline says. -/
theorem Comes.holds {trace : List (ι × Option Commit)} {w : World ι CurrentState Op}
    (h : Comes publisher trace w) : (stageOutline ι publisher).Holds w :=
  (stageOutline ι publisher).holds_run h
    ((stageOutline ι publisher).holds_initial (placed_default publisher))

/-- Along a run no stage goes back. -/
theorem Comes.stageLater {trace rest : List (ι × Option Commit)} {w w' : World ι CurrentState Op}
    (h : Comes publisher trace w) (hRun : (freeSystem ι publisher).Run w rest w') :
    StageLater w.shared w'.shared :=
  (stageOutline ι publisher).rel_run StageLater.refl (fun hab hbc => hab.trans hbc) (fun hG => hG)
    hRun h.holds

end Stages

end MempoolAtlas.Runtime
