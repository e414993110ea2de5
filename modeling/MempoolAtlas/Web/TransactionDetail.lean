import MempoolAtlas.Api.Serving
import MempoolAtlas.Classification.Reference
import MempoolAtlas.Runtime.PublisherStages
import MempoolAtlas.Web.Wire

/-!
# Transaction detail in the browser

`transactionDetailMatchesSnapshot` of `web/src/api.ts`, which decides whether a
transaction's detail is shown next to a snapshot fetched at another moment. It
compares contents only when the detail is newer; otherwise it trusts the source,
the observation and the revision. Both are sound, whatever was published in
between.

## Results

* `transactionDetailMatchesSnapshot_iff` — when a detail is shown next to a snapshot.
* `accepted_detail_agrees` — whatever was published in between, such a detail agrees with it.
-/

namespace MempoolAtlas.Web

open Machine Model MempoolAtlas.Runtime Classification Api Processes

-- ---------------------------------------------------------------------------
-- api.ts
-- ---------------------------------------------------------------------------

/-- Whether two lists of rules are one. -/
def sameRuleIds (left right : List Bip110RuleId) : Bool :=
  left.length == right.length && left.zipIdx.all fun (rule, index) => right[index]? == some rule

/-- Whether a row has this assessment. -/
def sameAssessment (left : Bip110Assessment) (right : Option Bip110Assessment) : Bool :=
  match right with
  | none => false
  | some right =>
    left.status == right.status && left.primaryRule == right.primaryRule &&
      sameRuleIds left.violatedRules right.violatedRules &&
      sameRuleIds left.unknownRules right.unknownRules

/-- Whether two lists of results agree, evidence apart. -/
def sameCompactClassifications (left right : List ClassificationResult) : Bool :=
  left.length == right.length && left.zipIdx.all fun (result, index) =>
    match right[index]? with
    | none => false
    | some candidate =>
      result.classifierId == candidate.classifierId && result.state == candidate.state &&
        result.primaryLabel == candidate.primaryLabel &&
        result.labels.length == candidate.labels.length &&
        (result.labels.zipIdx.all fun (label, labelIndex) =>
          candidate.labels[labelIndex]? == some label) &&
        result.missingFacts.length == candidate.missingFacts.length &&
        result.missingFacts.zipIdx.all fun (fact, factIndex) =>
          candidate.missingFacts[factIndex]? == some fact

/-- `transactionDetailMatchesSnapshot`: a detail belongs to the snapshot and the row shown. -/
def transactionDetailMatchesSnapshot (snapshot : MempoolSnapshot) (transaction : MempoolEntry)
    (detail : TransactionDetailResponse) : Bool :=
  detail.sourceId == snapshot.sourceId &&
    detail.snapshotObservedAtMs == snapshot.observedAtMs &&
    detail.txid == transaction.txid &&
    detail.wtxid == transaction.wtxid &&
    (detail.classificationRevision == snapshot.classificationRevision ||
      (decide (detail.classificationRevision > snapshot.classificationRevision) &&
        sameAssessment detail.assessment transaction.bip110 &&
        sameCompactClassifications detail.classifications transaction.classifications))

-- ---------------------------------------------------------------------------
-- What the comparisons decide
-- ---------------------------------------------------------------------------

/-- `left.length === right.length && left.every((x, i) => x === right[i])`. -/
theorem everyIndexed_iff {α : Type} [DecidableEq α] {left right : List α} :
    (left.length = right.length ∧
      (left.zipIdx.all fun (x, index) => right[index]? == some x) = true) ↔ left = right := by
  rw [List.all_eq_true]
  constructor
  · rintro ⟨hLen, hAll⟩
    refine List.ext_getElem hLen fun i hLeft hRight => ?_
    have hMem : (left[i], i) ∈ left.zipIdx := by simp [List.mem_zipIdx_iff_getElem?, hLeft]
    have hSame := hAll _ hMem
    rw [beq_iff_eq, List.getElem?_eq_getElem hRight] at hSame
    exact (Option.some.inj hSame).symm
  · rintro rfl
    refine ⟨rfl, ?_⟩
    rintro ⟨x, i⟩ hMem
    rw [List.mem_zipIdx_iff_getElem?] at hMem
    rw [beq_iff_eq]
    exact hMem

theorem sameRuleIds_iff {left right : List Bip110RuleId} :
    sameRuleIds left right = true ↔ left = right := by
  rw [sameRuleIds, Bool.and_eq_true, beq_iff_eq]
  exact everyIndexed_iff

theorem sameAssessment_iff {left : Bip110Assessment} {right : Option Bip110Assessment} :
    sameAssessment left right = true ↔ right = some left := by
  cases right with
  | none => simp [sameAssessment]
  | some right =>
    obtain ⟨status, primaryRule, violatedRules, unknownRules⟩ := left
    obtain ⟨status', primaryRule', violatedRules', unknownRules'⟩ := right
    simp only [sameAssessment, Bool.and_eq_true, sameRuleIds_iff, beq_iff_eq, Option.some.injEq,
      Bip110Assessment.mk.injEq]
    constructor
    · rintro ⟨⟨⟨rfl, rfl⟩, rfl⟩, rfl⟩
      exact ⟨rfl, rfl, rfl, rfl⟩
    · rintro ⟨rfl, rfl, rfl, rfl⟩
      exact ⟨⟨⟨rfl, rfl⟩, rfl⟩, rfl⟩

/-- The comparison of two results: all but their evidence. -/
theorem sameResult_iff {result candidate : ClassificationResult} :
    (result.classifierId == candidate.classifierId && result.state == candidate.state &&
        result.primaryLabel == candidate.primaryLabel &&
        result.labels.length == candidate.labels.length &&
        (result.labels.zipIdx.all fun (label, labelIndex) =>
          candidate.labels[labelIndex]? == some label) &&
        result.missingFacts.length == candidate.missingFacts.length &&
        result.missingFacts.zipIdx.all fun (fact, factIndex) =>
          candidate.missingFacts[factIndex]? == some fact) = true ↔
      result.compact = candidate.compact := by
  obtain ⟨id, state, primary, labels, missing, evidence⟩ := result
  obtain ⟨id', state', primary', labels', missing', evidence'⟩ := candidate
  simp only [Bool.and_eq_true, beq_iff_eq, ClassificationResult.compact,
    ClassificationResult.mk.injEq, and_true]
  rw [and_assoc, everyIndexed_iff]
  constructor
  · rintro ⟨⟨⟨⟨⟨rfl, rfl⟩, rfl⟩, hLen⟩, hLabels⟩, rfl⟩
    exact ⟨rfl, rfl, rfl, everyIndexed_iff.mp ⟨hLen, hLabels⟩, rfl⟩
  · rintro ⟨rfl, rfl, rfl, hLabels, rfl⟩
    obtain ⟨hLen, hLabels⟩ := everyIndexed_iff.mpr hLabels
    exact ⟨⟨⟨⟨⟨rfl, rfl⟩, rfl⟩, hLen⟩, hLabels⟩, rfl⟩

theorem sameCompactClassifications_iff {left right : List ClassificationResult} :
    sameCompactClassifications left right = true ↔
      left.map ClassificationResult.compact = right.map ClassificationResult.compact := by
  rw [sameCompactClassifications, Bool.and_eq_true, beq_iff_eq, List.all_eq_true]
  constructor
  · rintro ⟨hLen, hAll⟩
    refine List.ext_getElem (by simp [hLen]) fun i hLeft hRight => ?_
    rw [List.length_map] at hLeft hRight
    have hMem : (left[i], i) ∈ left.zipIdx := by simp [List.mem_zipIdx_iff_getElem?, hLeft]
    have hSame := hAll _ hMem
    simp only [List.getElem?_eq_getElem hRight] at hSame
    rw [List.getElem_map, List.getElem_map]
    exact sameResult_iff.mp hSame
  · intro hSame
    refine ⟨by simpa using congrArg List.length hSame, ?_⟩
    rintro ⟨result, i⟩ hMem
    rw [List.mem_zipIdx_iff_getElem?] at hMem
    have hAt := congrArg (fun list => list[i]?) hSame
    simp only [List.getElem?_map, hMem, Option.map_some] at hAt
    obtain ⟨candidate, hCandidate, hEq⟩ := Option.map_eq_some_iff.mp hAt.symm
    simp only [hCandidate]
    exact sameResult_iff.mpr hEq.symm

/-- When a detail matches. -/
theorem transactionDetailMatchesSnapshot_iff {snapshot : MempoolSnapshot}
    {transaction : MempoolEntry} {detail : TransactionDetailResponse} :
    transactionDetailMatchesSnapshot snapshot transaction detail = true ↔
      detail.sourceId = snapshot.sourceId ∧ detail.snapshotObservedAtMs = snapshot.observedAtMs ∧
        detail.txid = transaction.txid ∧ detail.wtxid = transaction.wtxid ∧
        (detail.classificationRevision = snapshot.classificationRevision ∨
          snapshot.classificationRevision < detail.classificationRevision ∧
            transaction.bip110 = some detail.assessment ∧
            detail.classifications.map ClassificationResult.compact =
              transaction.classifications.map ClassificationResult.compact) := by
  simp only [transactionDetailMatchesSnapshot, Bool.and_eq_true, Bool.or_eq_true, beq_iff_eq,
    decide_eq_true_eq, gt_iff_lt, sameAssessment_iff, sameCompactClassifications_iff, and_assoc]

-- ---------------------------------------------------------------------------
-- One state
-- ---------------------------------------------------------------------------

/-- What the latest snapshot of a state is to that state. -/
structure Published (publisher : CurrentStatePublisher) (state : CurrentState)
    (latest : MempoolSnapshot) : Prop where
  sourceId : latest.sourceId = publisher.sourceId
  revision : latest.classificationRevision = state.classificationRevision
  rows : ∀ entry ∈ latest.transactions, RowAgrees state.classifications entry
  records : ∀ (txid : String) (classification : TransactionClassification),
    state.classifications[txid]? = some classification → classification.txid = txid
  observed : ∃ membership, state.membership = some membership ∧
    latest.observedAtMs = membership.collectionCompletedAtMs

theorem compact_compact (results : List ClassificationResult) :
    (results.map ClassificationResult.compact).map ClassificationResult.compact =
      results.map ClassificationResult.compact := by
  rw [List.map_map]
  rfl

section Runs

variable [ResponseEncoder] {publisher : CurrentStatePublisher}

/-- What a placed state shows was published. -/
theorem published_of_placed {state : CurrentState} (hPlaced : Placed publisher state)
    {latest : MempoolSnapshot} (hLatest : state.latest = some latest) :
    Published publisher state latest := by
  have hSome : state.membership.isSome = true := by
    rw [hPlaced.membershipLatest, hLatest]
    rfl
  obtain ⟨membership, hMembership⟩ := Option.isSome_iff_exists.mp hSome
  have hMade := hPlaced.materialized membership latest hMembership hLatest
  obtain ⟨-, -, hRecords, hEq⟩ := materializeRetained_eq_ok.mp hMade
  obtain rfl : latest = materializedSnapshot membership state.classificationRevision
    state.classifications := congrArg MempoolObservation.snapshot hEq
  exact ⟨hPlaced.sourceId membership hMembership, rfl,
    fun entry hMem => rowAgrees_materialized hMade hMem,
    fun txid classification hGet => (hRecords txid classification hGet).key,
    membership, hMembership, rfl⟩

/-- The served body encodes a response with the latest snapshot. -/
theorem payload_bodyOf {state : CurrentState} (hPlaced : Placed publisher state)
    {task : TaskOutcome} {payload : SnapshotResponsePayload}
    (h : snapshotResponsePayload publisher task state = .ok payload) :
    BodyOf state.latest payload.body := by
  unfold snapshotResponsePayload at h
  cases hCached : state.cachedResponse with
  | some cached =>
    rw [hCached] at h
    obtain rfl := Except.ok.inj h
    exact hPlaced.cached cached hCached
  | none =>
    rw [hCached] at h
    dsimp only at h
    cases hEncoded : encodeResponse task (snapshotResponse publisher state) with
    | error error =>
      rw [hEncoded] at h
      cases h
    | ok body =>
      rw [hEncoded] at h
      obtain rfl := Except.ok.inj h
      exact ⟨_, encodeResponse_eq_ok hEncoded, rfl⟩

omit [ResponseEncoder] in
/-- A detail is the record of its txid in the state it was read from. -/
theorem transactionDetail_ready {state : CurrentState} {txid : String}
    {detail : TransactionDetailResponse}
    (h : transactionDetail publisher state txid = .ready detail) :
    ∃ latest classification, state.latest = some latest ∧
      state.classifications[txid]? = some classification ∧
      detail = ⟨publisher.sourceId, latest.observedAtMs, state.classificationRevision,
        classification.txid, classification.wtxid, classification.results,
        classification.assessment, classification.rules⟩ := by
  unfold transactionDetail at h
  split at h
  · cases h
  · next latest hLatest =>
    split at h
    · cases h
    · split at h
      · cases h
      · next classification hGet => exact ⟨latest, classification, hLatest, hGet,
          (TransactionLookup.ready.inj h).symm⟩

-- ---------------------------------------------------------------------------
-- Two moments
-- ---------------------------------------------------------------------------

variable {ι : Type} [DecidableEq ι]

/-- **An accepted detail agrees with the snapshot.** A snapshot body and a
detail are served at two moments of a run, in either order. The body encodes a
response such that for its snapshot: an accepted detail has the assessment and,
evidence aside, the results of the row; a detail older than the snapshot is not
accepted; and a detail of the same generation with the same result, no older
than the snapshot, is. -/
theorem accepted_detail_agrees {trace rest : List (ι × Option Commit)}
    {w w' : World ι CurrentState Op} (h : Comes publisher trace w)
    (hRun : (freeSystem ι publisher).Run w rest w')
    (hObserved : w.shared.classificationGeneration ≠ w'.shared.classificationGeneration →
      ∀ latest latest', w.shared.latest = some latest → w'.shared.latest = some latest' →
        latest.observedAtMs ≠ latest'.observedAtMs)
    {shown asked : CurrentState}
    (hOrder : shown = w.shared ∧ asked = w'.shared ∨ shown = w'.shared ∧ asked = w.shared)
    {task : TaskOutcome} {payload : SnapshotResponsePayload}
    (hPayload : snapshotResponsePayload publisher task shown = .ok payload) :
    ∃ response, ResponseEncoder.toVec response = some payload.body ∧
      ∀ snapshot, response.snapshot = some snapshot →
      ∀ txid detail, transactionDetail publisher asked txid = .ready detail →
        (∀ entry ∈ snapshot.transactions,
          transactionDetailMatchesSnapshot snapshot entry detail = true →
            entry.bip110 = some detail.assessment ∧
              entry.classifications = detail.classifications.map ClassificationResult.compact) ∧
        (detail.classificationRevision < snapshot.classificationRevision →
          ∀ entry, transactionDetailMatchesSnapshot snapshot entry detail = false) ∧
        (shown.classificationGeneration = asked.classificationGeneration →
          shown.classifications[txid]? = asked.classifications[txid]? →
          snapshot.classificationRevision ≤ detail.classificationRevision →
          ∀ entry ∈ snapshot.transactions, entry.txid = txid →
            transactionDetailMatchesSnapshot snapshot entry detail = true) := by
  have hLater := h.stageLater hRun
  have hPlaced : Placed publisher w.shared := h.holds.1
  have hPlaced' : Placed publisher w'.shared := (Comes.holds (h.trans hRun)).1
  -- what the order of the two moments does not matter for
  obtain ⟨hShown, hAsked, hStage, hKept, hApart⟩ : Placed publisher shown ∧
      Placed publisher asked ∧
      (stage shown = stage asked → shown.classifications = asked.classifications) ∧
      (shown.classificationGeneration = asked.classificationGeneration →
        shown.membership = asked.membership) ∧
      ∀ latest latest', shown.latest = some latest → asked.latest = some latest' →
        latest.observedAtMs = latest'.observedAtMs →
          shown.classificationGeneration = asked.classificationGeneration := by
    rcases hOrder with ⟨rfl, rfl⟩ | ⟨rfl, rfl⟩
    · refine ⟨hPlaced, hPlaced', fun hEq => (hLater.same hEq.symm).2.symm,
        fun hEq => (hLater.sameGeneration hEq.symm).symm,
        fun latest latest' hLatest hLatest' hSame => ?_⟩
      · by_contra hNe
        exact hObserved hNe latest latest' hLatest hLatest' hSame
    · refine ⟨hPlaced', hPlaced, fun hEq => (hLater.same hEq).2, hLater.sameGeneration,
        fun latest latest' hLatest hLatest' hSame => ?_⟩
      · by_contra hNe
        exact hObserved (Ne.symm hNe) latest' latest hLatest' hLatest hSame.symm
  obtain ⟨response, hBody, hSnapshot⟩ := payload_bodyOf hShown hPayload
  refine ⟨response, hBody, fun snapshot hSome txid detail hDetail => ?_⟩
  have hPublished := published_of_placed hShown (hSnapshot.symm.trans hSome)
  obtain ⟨latest, classification, hLatest, hGet, rfl⟩ := transactionDetail_ready hDetail
  have hAskedPublished := published_of_placed hAsked hLatest
  have hTxid := hAskedPublished.records txid classification hGet
  refine ⟨fun entry hMem hMatch => ?_, fun hOlder entry => ?_,
    fun hGeneration hResult hNewer entry hMem hEntry => ?_⟩
  · obtain ⟨-, hSame, hEntry, -, hEither⟩ := transactionDetailMatchesSnapshot_iff.mp hMatch
    have hRow := hPublished.rows entry hMem
    rcases hEither with hRevision | ⟨-, hAssessment, hResults⟩
    · -- the same observation and revision: the record is the one the row was made from
      have hGeneration := hApart snapshot latest (hSnapshot.symm.trans hSome) hLatest hSame.symm
      have hEq := hStage (stage_eq hGeneration (hPublished.revision.symm.trans hRevision.symm))
      rw [RowAgrees, ← hEntry, hEq, hTxid, hGet] at hRow
      exact ⟨hRow.2.1, hRow.1⟩
    · refine ⟨hAssessment, ?_⟩
      rw [hResults]
      unfold RowAgrees at hRow
      cases hRecord : shown.classifications[entry.txid]? with
      | none =>
        rw [hRecord, hAssessment] at hRow
        cases hRow.2.1
      | some record =>
        rw [hRecord] at hRow
        rw [hRow.1, compact_compact]
  · rw [Bool.eq_false_iff]
    intro hMatch
    have hOlder' : asked.classificationRevision < snapshot.classificationRevision := hOlder
    obtain ⟨-, -, -, -, hRevision | ⟨hRevision, -⟩⟩ :=
      transactionDetailMatchesSnapshot_iff.mp hMatch
    · have hEqual : asked.classificationRevision = snapshot.classificationRevision := hRevision
      omega
    · have hGreater : snapshot.classificationRevision < asked.classificationRevision := hRevision
      omega
  · have hRow := hPublished.rows entry hMem
    rw [RowAgrees, hEntry, hResult, hGet] at hRow
    obtain ⟨hResults, hAssessment, -, hWtxid⟩ := hRow
    have hObservedSame : latest.observedAtMs = snapshot.observedAtMs := by
      obtain ⟨membership, hMembership, hShownAt⟩ := hPublished.observed
      obtain ⟨membership', hMembership', hAskedAt⟩ := hAskedPublished.observed
      have hSame := hKept hGeneration
      rw [hMembership, hMembership'] at hSame
      obtain rfl := Option.some.inj hSame
      rw [hShownAt, hAskedAt]
    refine transactionDetailMatchesSnapshot_iff.mpr ⟨hPublished.sourceId.symm, hObservedSame,
      hTxid.trans hEntry.symm, hWtxid.symm, ?_⟩
    rcases Nat.eq_or_lt_of_le hNewer with hEqual | hLess
    · exact Or.inl hEqual.symm
    · exact Or.inr ⟨hLess, hAssessment, by rw [hResults, compact_compact]⟩

end Runs

/-- The classified payment is published; its detail is accepted next to it. -/
theorem accepted_detail_agrees_payment :
    let _ := Reference.crate [Reference.payment]
    let _ := serdeEncoder
    let publisher : CurrentStatePublisher := ⟨"core", "Bitcoin Core", 60⟩
    ∃ state : CurrentState, state.classificationGeneration = some 1 ∧
      ∃ detail, transactionDetail publisher state Reference.paymentRecord.txid = .ready detail ∧
        ∀ task payload, snapshotResponsePayload publisher task state = .ok payload →
          ∃ response, ResponseEncoder.toVec response = some payload.body ∧
            ∀ snapshot, response.snapshot = some snapshot →
              snapshot.classificationRevision ≤ detail.classificationRevision →
                ∀ entry ∈ snapshot.transactions, entry.txid = Reference.paymentRecord.txid →
                  transactionDetailMatchesSnapshot snapshot entry detail = true := by
  intro _ _ publisher
  let publication : ClassificationGenerationStart := {
    generation := 1, revision := 0, hasEligibleWork := false
    membership := Reference.paymentMembership, classifications := Reference.paymentClassifications }
  let prepared : PreparedObservation := {
    latest := materializedSnapshot Reference.paymentMembership 0 Reference.paymentClassifications
    classifications := Reference.paymentClassifications }
  have hCall : startMembership publisher {} publication = .membershipPrepare publication := by
    have hSize : ¬ Reference.paymentClassifications.size >
        Reference.paymentMembership.transactions.length := by
      simp [Reference.paymentClassifications, Reference.paymentMembership, snapshotOf,
        Std.ExtTreeMap.size_insert]
    simp only [startMembership, ne_eq, not_true_eq_false, if_false, publication, hSize]
    rfl
  have hPrepare : prepareObservation .finished publication.membership publication.revision
      publication.classifications = .ok prepared := by
    unfold prepareObservation
    rw [Reference.payment_materializes (by decide)]
  have hStart : Comes publisher _ (alone {} (.publishMembership publication)) :=
    Run.alone_start (Op.IsCall.publishMembership publication)
  have hCalled : Comes publisher _ (alone {} (.membershipPrepare publication)) :=
    hStart.alone_act ⟨.finished, by rw [opStep, hCall]⟩
  have hPrepared : Comes publisher _ (alone {} (.membershipRead publication prepared)) :=
    hCalled.alone_act ⟨.finished, by rw [opStep, hPrepare]⟩
  have hRead := hPrepared.alone_act ⟨.finished, rfl⟩
  have hEncoded := hRead.alone_act ⟨.finished, rfl⟩
  let body := (responseJson (responseFromParts publisher none (some prepared.latest)
    (some .complete) none)).render.toUTF8.toList
  let state := commitMembership publisher publication prepared body {}
  have hCommitted : Comes publisher _ (alone state (.returned (.published true))) :=
    hEncoded.alone_act ⟨.finished, rfl⟩
  have hGet : prepared.classifications[Reference.paymentRecord.txid]? =
      some Reference.paymentRecord := Std.ExtTreeMap.getElem?_insert_self
  have hRow : (prepared.latest.transactions.any fun entry =>
      entry.txid == Reference.paymentRecord.txid) = true :=
    List.any_eq_true.mpr ⟨_, List.mem_singleton_self _, by
      rw [materializeEntry_txid, beq_iff_eq]
      rfl⟩
  have hLatest : state.latest = some prepared.latest := rfl
  have hClassifications : state.classifications = prepared.classifications := rfl
  obtain ⟨detail, hReady⟩ : ∃ detail, transactionDetail publisher state
      Reference.paymentRecord.txid = .ready detail := by
    unfold transactionDetail
    rw [hLatest, hClassifications]
    dsimp only
    rw [hRow, hGet]
    exact ⟨_, rfl⟩
  refine ⟨state, rfl, detail, hReady, fun task payload hPayload => ?_⟩
  obtain ⟨response, hBody, hAgrees⟩ := accepted_detail_agrees hCommitted Run.refl
    (fun hNe => absurd rfl hNe) (Or.inl ⟨rfl, rfl⟩) hPayload
  exact ⟨response, hBody, fun snapshot hSnapshot =>
    (hAgrees snapshot hSnapshot _ detail hReady).2.2 rfl rfl⟩

end MempoolAtlas.Web
