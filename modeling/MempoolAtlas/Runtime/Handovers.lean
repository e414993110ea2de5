import MempoolAtlas.Runtime.PublisherCoherence
import MempoolAtlas.Runtime.PublisherCalls

/-!
# Handing a delta to the publisher

What an action of a publication makes of a published state that the publication
follows: a delta one revision up on its own generation is committed, superseded by
another generation, or its preparation failed; the publisher finds nothing else wrong
with it.

## Results

* `handing_step` — a delta the publisher expects is committed, superseded, or failed to be
  prepared.
* `beginning_step` — `publish_membership` commits the map it was given, or nothing.
* `recording_shown` — a recorded failure changes nothing of the snapshot that is shown.
-/

namespace MempoolAtlas.Runtime

open Model Machine Classification

/-- A failure to prepare a publication: its materialization, its encoding or the task of
one of them. -/
def RuntimeError.isPreparation : RuntimeError → Bool
  | .model _ | .snapshotResponseTask | .snapshotResponseEncoding => true
  | _ => false

/-- The same classifications of the same generation are shown. -/
structure SameShown (before after : CurrentState) : Prop where
  generation : after.classificationGeneration = before.classificationGeneration
  revision : after.classificationRevision = before.classificationRevision
  membership : after.membership = before.membership
  latest : after.latest.isSome = before.latest.isSome
  classifications : after.classifications = before.classifications

theorem SameShown.refl (state : CurrentState) : SameShown state state :=
  ⟨rfl, rfl, rfl, rfl, rfl⟩

/-- The stage an update has read is the published one, while that is of its generation. -/
structure Update.Fits (update : Update) (published : CurrentState) : Prop where
  membership : published.classificationGeneration = some update.generation →
    published.membership = some update.membership
  classifications : published.classificationGeneration = some update.generation →
    published.classifications = update.classifications
  bounded : (accumulate update.classifications update.delta.changed).size ≤
    update.membership.transactions.length

/-- The values an operation holds are what it will commit. -/
def Op.Fits (published : CurrentState) : Op → Prop
  | .updatePrepare update => update.Fits published
  | .updateEncode update prepared | .updateCommit update prepared _ =>
    update.Fits published ∧
      prepared.classifications = accumulate update.classifications update.delta.changed
  | .membershipRead publication prepared | .membershipEncode publication prepared _
  | .membershipCommit publication prepared _ _ =>
    prepared.classifications = publication.classifications
  | _ => True

theorem Update.Fits.moved {update : Update} {published published' : CurrentState}
    (h : update.Fits published)
    (hMoved : published'.classificationGeneration = some update.generation →
      SameShown published published') : update.Fits published' where
  membership hGeneration := by
    have hSame := hMoved hGeneration
    rw [hSame.membership]
    exact h.membership (hSame.generation ▸ hGeneration)
  classifications hGeneration := by
    have hSame := hMoved hGeneration
    rw [hSame.classifications]
    exact h.classifications (hSame.generation ▸ hGeneration)
  bounded := h.bounded

/-- Other operations leave what an update holds fit, or replace its generation. -/
theorem Op.Fits.moved {op : Op} {published published' : CurrentState} {generation : Nat}
    {delta : Option ClassificationRevisionDelta} {classificationState : ClassificationState}
    (h : op.Fits published) (hOp : op.Updates generation delta classificationState)
    (hMoved : published'.classificationGeneration = some generation →
      SameShown published published') : op.Fits published' := by
  cases op with
  | updatePrepare update =>
    obtain ⟨rfl, -⟩ := hOp
    exact Update.Fits.moved h hMoved
  | updateEncode update prepared =>
    obtain ⟨rfl, -⟩ := hOp
    exact ⟨h.1.moved hMoved, h.2⟩
  | updateCommit update prepared body =>
    obtain ⟨rfl, -⟩ := hOp
    exact ⟨h.1.moved hMoved, h.2⟩
  | publishClassificationUpdate | lifecycleRead | lifecycleEncode | lifecycleCommit => trivial
  | _ => exact hOp.elim

/-- An operation without a delta holds nothing to commit to the classifications. -/
theorem Op.fits_of_no_delta {op : Op} {generation : Nat}
    {classificationState : ClassificationState}
    (hOp : op.Updates generation none classificationState) (published : CurrentState) :
    op.Fits published := by
  cases op with
  | updatePrepare | updateEncode | updateCommit => cases hOp.2.1
  | publishClassificationUpdate | lifecycleRead | lifecycleEncode | lifecycleCommit => trivial
  | _ => exact hOp.elim

/-- What a delta in flight expects of a published state of its generation. -/
structure Expects (published : CurrentState) (delta : ClassificationRevisionDelta) : Prop where
  revision : published.classificationRevision + 1 = delta.revision
  bounded : delta.revision ≤ u64Max
  membership : ∃ membership, published.membership = some membership ∧
    (accumulate published.classifications delta.changed).size ≤ membership.transactions.length

/-- What one action of `publish_classification_update` with a delta does. -/
inductive Handing (delta : ClassificationRevisionDelta) (classificationState : ClassificationState)
    (published : CurrentState) : CurrentState → Op → Prop
  | goes {op : Op} (hOp : op.Updates delta.generation (some delta) classificationState)
      (hFits : op.Fits published) : Handing delta classificationState published published op
  | failed {error : RuntimeError} (hError : error.isPreparation = true) :
      Handing delta classificationState published published (.raise error)
  | superseded (hGeneration : published.classificationGeneration ≠ some delta.generation) :
      Handing delta classificationState published published (.returned (.published false))
  | committed {published' : CurrentState}
      (hGeneration : published.classificationGeneration = some delta.generation)
      (hGeneration' : published'.classificationGeneration = some delta.generation)
      (hRevision : published'.classificationRevision = delta.revision)
      (hMembership : published'.membership = published.membership)
      (hLatest : published'.latest.isSome)
      (hClassifications : published'.classifications =
        accumulate published.classifications delta.changed) :
      Handing delta classificationState published published' (.returned (.published true))

/-- What one action of `publish_membership` does. -/
inductive Beginning (publication : ClassificationGenerationStart) (published : CurrentState) :
    CurrentState → Op → Prop
  | goes {op : Op} (hOp : op.Publishes publication) (hFits : op.Fits published) :
      Beginning publication published published op
  | returned {result : Return} (hResult : result ≠ .published true) :
      Beginning publication published published (.returned result)
  | committed {published' : CurrentState}
      (hGeneration : published'.classificationGeneration = some publication.generation)
      (hRevision : published'.classificationRevision = publication.revision)
      (hMembership : published'.membership = some publication.membership)
      (hLatest : published'.latest.isSome)
      (hClassifications : published'.classifications = publication.classifications) :
      Beginning publication published published' (.returned (.published true))

theorem prepareObservation_error {task : TaskOutcome} {membership : MempoolSnapshot}
    {revision : Nat} {classifications : TransactionClassifications} {error : RuntimeError}
    (h : prepareObservation task membership revision classifications = .error error) :
    error.isPreparation = true := by
  unfold prepareObservation at h
  split at h
  · rw [← Except.error.inj h]
    rfl
  · split at h
    · rw [← Except.error.inj h]
      rfl
    · cases h

section Encoded

variable [ResponseEncoder]

/-- An encoding fails as a preparation, or goes on with its body. -/
theorem withBody_encoded (task : TaskOutcome) (response : SourceSnapshotResponse)
    (next : Bytes → Op) :
    (∃ error, error.isPreparation = true ∧
      Op.withBody (encodeResponse task response) next = .raise error) ∨
    ∃ body, Op.withBody (encodeResponse task response) next = next body := by
  cases task with
  | joinError => exact Or.inl ⟨.snapshotResponseTask, rfl, rfl⟩
  | finished =>
    cases hBody : ResponseEncoder.toVec response with
    | none =>
      refine Or.inl ⟨.snapshotResponseEncoding, rfl, ?_⟩
      simp only [encodeResponse, hBody]
      rfl
    | some body =>
      refine Or.inr ⟨body, ?_⟩
      simp only [encodeResponse, hBody]
      rfl

variable {publisher : CurrentStatePublisher} {task : TaskOutcome}
  {published published' : CurrentState} {op op' : Op} {commit : Option Commit}

omit [ResponseEncoder] in
/-- The first read of an expected delta. -/
theorem startUpdate_handing {delta : ClassificationRevisionDelta}
    {classificationState : ClassificationState}
    (hExpects : published.classificationGeneration = some delta.generation →
      Expects published delta) :
    Handing delta classificationState published published
      (startUpdate published delta.generation delta classificationState) := by
  unfold startUpdate
  split
  · next hGeneration => exact .superseded hGeneration
  · next hGeneration =>
    have hIs : published.classificationGeneration = some delta.generation := by
      simpa using hGeneration
    obtain ⟨hRevision, hBounded, membership, hMembership, hSize⟩ := hExpects hIs
    rw [if_neg (by omega), checkedAdd_eq_some.mpr ⟨hRevision ▸ hBounded, rfl⟩]
    dsimp only
    rw [if_neg (by simp [hRevision]), hMembership]
    exact .goes ⟨rfl, rfl, rfl, hRevision.symm⟩ ⟨fun _ => hMembership, fun _ => rfl, hSize⟩

omit [ResponseEncoder] in
theorem prepareUpdate_handing {update : Update} (hFits : update.Fits published)
    (hGeneration : update.generation = update.delta.generation)
    (hRevision : update.delta.revision = update.currentRevision + 1) :
    Handing update.delta update.classificationState published published
      (prepareUpdate task update) := by
  have hOwn : ∀ next : Op, (next = .updatePrepare update ∨ ∃ prepared,
      next = .updateEncode update prepared) →
      next.Updates update.delta.generation (some update.delta) update.classificationState := by
    rintro next (rfl | ⟨prepared, rfl⟩)
    · exact ⟨hGeneration, rfl, rfl, hRevision⟩
    · exact ⟨hGeneration, rfl, rfl, hRevision⟩
  unfold prepareUpdate
  dsimp only
  rw [if_neg (not_lt.mpr hFits.bounded)]
  split
  · next error hError => exact .failed (prepareObservation_error hError)
  · next prepared hPrepared =>
    exact .goes (hOwn _ (Or.inr ⟨prepared, rfl⟩)) ⟨hFits,
      (preparedFrom_of_prepareObservation hPrepared).classifications_eq⟩

/-- **An action of a delta the publisher expects** commits it, gives way to another
generation, or fails to prepare it. -/
theorem handing_step {delta : ClassificationRevisionDelta}
    {classificationState : ClassificationState}
    (hOp : op.Updates delta.generation (some delta) classificationState)
    (hFits : op.Fits published)
    (hExpects : published.classificationGeneration = some delta.generation →
      Expects published delta)
    (h : opStep publisher task published op = some (published', op', commit)) :
    Handing delta classificationState published published' op' := by
  cases op with
  | publishClassificationUpdate calledGeneration calledDelta calledState =>
    obtain ⟨rfl, rfl, rfl⟩ := hOp
    simp only [opStep, ne_eq, not_true_eq_false, if_false, Option.some.injEq, Prod.mk.injEq] at h
    obtain ⟨rfl, rfl, -⟩ := h
    exact startUpdate_handing hExpects
  | updatePrepare update =>
    obtain ⟨hGeneration, hDelta, rfl, hRevision⟩ := hOp
    obtain rfl := Option.some.inj hDelta
    simp only [opStep, Option.some.injEq, Prod.mk.injEq] at h
    obtain ⟨rfl, rfl, -⟩ := h
    exact prepareUpdate_handing hFits hGeneration hRevision
  | updateEncode update prepared =>
    obtain ⟨hGeneration, hDelta, rfl, hRevision⟩ := hOp
    obtain rfl := Option.some.inj hDelta
    simp only [opStep, Option.some.injEq, Prod.mk.injEq] at h
    obtain ⟨rfl, rfl, -⟩ := h
    rcases withBody_encoded task (responseFromParts publisher update.lastPollStartedAtMs
      (some prepared.latest) (some update.classificationState) update.lastError)
      (.updateCommit update prepared) with ⟨error, hError, hRaise⟩ | ⟨body, hNext⟩
    · rw [hRaise]
      exact .failed hError
    · rw [hNext]
      exact .goes ⟨hGeneration, rfl, rfl, hRevision⟩ hFits
  | updateCommit update prepared body =>
    obtain ⟨hGeneration, hDelta, rfl, hRevision⟩ := hOp
    obtain rfl := Option.some.inj hDelta
    simp only [opStep] at h
    split at h
    · next hStale =>
      simp only [Option.some.injEq, Prod.mk.injEq] at h
      obtain ⟨rfl, rfl, -⟩ := h
      refine .superseded fun hIs => ?_
      have hNext := (hExpects hIs).revision
      rcases hStale with hOther | hMoved
      · exact hOther (hGeneration ▸ hIs)
      · omega
    · next hCurrent =>
      rw [not_or, not_not, not_not] at hCurrent
      split at h
      · simp only [Option.some.injEq, Prod.mk.injEq] at h
        obtain ⟨rfl, rfl, -⟩ := h
        exact .goes ⟨hGeneration, rfl, rfl, hRevision⟩
          ⟨⟨hFits.1.membership, hFits.1.classifications, hFits.1.bounded⟩, hFits.2⟩
      · simp only [Option.some.injEq, Prod.mk.injEq] at h
        obtain ⟨rfl, rfl, -⟩ := h
        have hIs := hCurrent.1
        refine .committed (hGeneration ▸ hIs) ?_ rfl rfl rfl ?_
        · show published.classificationGeneration = _
          rw [hIs, hGeneration]
        · show prepared.classifications = _
          rw [hFits.2, hFits.1.classifications hIs]
  | lifecycleRead | lifecycleEncode | lifecycleCommit => cases hOp.2.1
  | _ => exact hOp.elim

/-- A delta's operation shows nothing else; nor does any call without one. -/
theorem lifecycle_shown {generation : Nat} {classificationState : ClassificationState}
    (hOp : op.Updates generation none classificationState)
    (h : opStep publisher task published op = some (published', op', commit)) :
    SameShown published published' ∧
      ((op'.Updates generation none classificationState ∧ op'.Fits published') ∨
        ∃ result, op' = .returned result) := by
  have hUpdating := updates_step hOp h
  cases hUpdating with
  | goes hNext =>
    exact ⟨.refl published, Or.inl ⟨hNext, Op.fits_of_no_delta hNext published⟩⟩
  | failed | refused | unchanged => exact ⟨.refl published, Or.inr ⟨_, rfl⟩⟩
  | updated prepared body hGeneration hDelta => cases hDelta
  | lifecycle => exact ⟨⟨rfl, rfl, rfl, rfl, rfl⟩, Or.inr ⟨_, rfl⟩⟩

/-- What goes wrong without a delta is the preparation too, while a snapshot is shown. -/
theorem lifecycle_error {generation : Nat} {classificationState : ClassificationState}
    {error : RuntimeError} (hOp : op.Updates generation none classificationState)
    (hLatest : published.classificationGeneration = some generation → published.latest.isSome)
    (h : opStep publisher task published op = some (published', .raise error, commit)) :
    error.isPreparation = true := by
  cases op with
  | publishClassificationUpdate calledGeneration calledDelta calledState =>
    obtain ⟨rfl, rfl, rfl⟩ := hOp
    simp [opStep, Op.raise] at h
  | lifecycleRead calledGeneration calledState =>
    obtain ⟨rfl, -, rfl⟩ := hOp
    simp only [opStep, Option.some.injEq, Prod.mk.injEq] at h
    obtain ⟨-, hRaise, -⟩ := h
    unfold readLifecycle at hRaise
    split at hRaise
    · cases hRaise
    · next hGeneration =>
      have hSome := hLatest (by simpa using hGeneration)
      split at hRaise
      · next hNone =>
        rw [hNone] at hSome
        cases hSome
      · split at hRaise <;> cases hRaise
  | lifecycleEncode calledGeneration calledState read =>
    simp only [opStep, Option.some.injEq, Prod.mk.injEq] at h
    obtain ⟨-, hRaise, -⟩ := h
    rcases withBody_encoded task (responseFromParts publisher read.lastPollStartedAtMs
      (some read.latest) (some calledState) read.lastError)
      (.lifecycleCommit calledGeneration calledState read) with
      ⟨found, hError, hFound⟩ | ⟨body, hNext⟩
    · rw [hFound] at hRaise
      rw [← Return.err.inj (Op.returned.inj hRaise)]
      exact hError
    · rw [hNext] at hRaise
      cases hRaise
  | lifecycleCommit calledGeneration calledState read body =>
    simp only [opStep] at h
    split at h
    · cases h
    · split at h <;> cases h
  | updatePrepare | updateEncode | updateCommit => cases hOp.2.1
  | _ => exact hOp.elim

/-- **An action of `publish_membership`** commits the map it was given, or nothing. -/
theorem beginning_step {publication : ClassificationGenerationStart}
    (hOp : op.Publishes publication) (hFits : op.Fits published)
    (h : opStep publisher task published op = some (published', op', commit)) :
    Beginning publication published published' op' := by
  cases op with
  | publishMembership called =>
    obtain rfl : called = publication := hOp
    simp only [opStep, Option.some.injEq, Prod.mk.injEq] at h
    obtain ⟨rfl, rfl, -⟩ := h
    unfold startMembership
    split
    · exact .returned fun hEq => by cases hEq
    · split
      · exact .returned fun hEq => by cases hEq
      · split
        · exact .returned fun hEq => by cases hEq
        · split
          · exact .returned fun hEq => by cases hEq
          · exact .goes rfl trivial
  | membershipPrepare called =>
    obtain rfl : called = publication := hOp
    simp only [opStep] at h
    split at h
    · simp only [Option.some.injEq, Prod.mk.injEq] at h
      obtain ⟨rfl, rfl, -⟩ := h
      exact .returned fun hEq => by cases hEq
    · next prepared hPrepared =>
      simp only [Option.some.injEq, Prod.mk.injEq] at h
      obtain ⟨rfl, rfl, -⟩ := h
      exact .goes rfl (preparedFrom_of_prepareObservation hPrepared).classifications_eq
  | membershipRead called prepared =>
    obtain rfl : called = publication := hOp
    simp only [opStep, Option.some.injEq, Prod.mk.injEq] at h
    obtain ⟨rfl, rfl, -⟩ := h
    unfold readMembership
    split
    · exact .returned fun hEq => by cases hEq
    · exact .goes rfl hFits
  | membershipEncode called prepared read =>
    obtain rfl : called = publication := hOp
    simp only [opStep, Option.some.injEq, Prod.mk.injEq] at h
    obtain ⟨rfl, rfl, -⟩ := h
    rcases withBody_cases (encodeResponse task (responseFromParts publisher read.lastPollStartedAtMs
      (some prepared.latest) (some (startState called.hasEligibleWork)) none))
      (.membershipCommit called prepared read) with ⟨error, hRaise⟩ | ⟨body, hNext⟩
    · rw [hRaise]
      exact .returned fun hEq => by cases hEq
    · rw [hNext]
      exact .goes rfl hFits
  | membershipCommit called prepared read body =>
    obtain rfl : called = publication := hOp
    simp only [opStep] at h
    split at h
    · simp only [Option.some.injEq, Prod.mk.injEq] at h
      obtain ⟨rfl, rfl, -⟩ := h
      exact .returned fun hEq => by cases hEq
    · split at h
      · simp only [Option.some.injEq, Prod.mk.injEq] at h
        obtain ⟨rfl, rfl, -⟩ := h
        exact .goes rfl hFits
      · simp only [Option.some.injEq, Prod.mk.injEq] at h
        obtain ⟨rfl, rfl, -⟩ := h
        exact .committed rfl rfl rfl rfl hFits
  | _ => exact hOp.elim

/-- A recorded failure changes nothing of the snapshot that is shown. -/
theorem recording_shown {message : String} (hOp : op.Records message)
    (h : opStep publisher task published op = some (published', op', commit)) :
    SameShown published published' ∧ op' ≠ .returned (.published true) := by
  cases records_step hOp h with
  | goes hNext =>
    refine ⟨.refl published, ?_⟩
    rintro rfl
    exact hNext.elim
  | failed => exact ⟨.refl published, fun hEq => (by cases hEq)⟩
  | committed => exact ⟨⟨rfl, rfl, rfl, rfl, rfl⟩, fun hEq => (by cases hEq)⟩

end Encoded

end MempoolAtlas.Runtime
