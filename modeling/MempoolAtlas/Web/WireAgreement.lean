import MempoolAtlas.Classification.Reference
import MempoolAtlas.Classifiers.Publishable
import MempoolAtlas.Model.Validated
import MempoolAtlas.Runtime.Publisher
import MempoolAtlas.Web.SnapshotReading

/-!
# Agreement on the wire

The browser's parser against everything a publisher can encode. The two sides draw
the same boundary but in five places: what a blank text is (the server trims the
Unicode white space, the browser also U+FEFF), for the label and for the error; the
poll interval, which the server does not bound; and two parts of a detail record
the server stores unchecked, the facts of its structure and the names of its
missing facts.

## Results

* `rowsReadable_iff` — the published rows are readable when all detail records are.
* `parseSourceSnapshotResponse_shown` — what the browser makes of what a publisher encodes.
* `snapshot_response_accepted` — when it accepts that, and that it reads it as it was.
-/

namespace MempoolAtlas.Web

open Checks Model Json Machine MempoolAtlas.Runtime Classification.Reference Texts

-- ---------------------------------------------------------------------------
-- Rows
-- ---------------------------------------------------------------------------

/-- What the browser asks of a detail record beyond the server's checks. -/
structure RecordReadable (record : TransactionClassification) : Prop where
  facts : StructureReadable record.transactionStructure
  missing : ∀ result ∈ record.results, ∀ fact ∈ result.missingFacts, isClassifierKey fact = true

/-- The labels of the catalog are well-formed keys. -/
theorem classifierLabels_keys {descriptor : ClassifierDescriptor}
    (hMem : descriptor ∈ classifierCatalog) {key : String}
    (hKey : key ∈ descriptor.labels.map (·.key)) : isClassifierKey key = true := by
  obtain ⟨label, hLabel, rfl⟩ := List.mem_map.mp hKey
  exact ((classifierCatalog_readable descriptor hMem).labels label hLabel).key

/-- A validated result is readable when the names of its missing facts are. -/
theorem resultReadable_compact {result : ClassificationResult} {descriptor : ClassifierDescriptor}
    (hMem : descriptor ∈ classifierCatalog) (hValid : ValidResult result descriptor) :
    ResultReadable descriptor result.compact ↔
      ∀ fact ∈ result.missingFacts, isClassifierKey fact = true := by
  constructor
  · exact fun h => h.facts
  · intro hFacts
    refine ⟨hValid.lens, fun key hKey => ?_, rfl, fun label hLabel => ?_, hValid.labelsDistinct,
      hFacts, hValid.factsDistinct, ?_⟩
    · exact classifierLabels_keys hMem (hValid.declared key (hValid.primary key hKey))
    · exact classifierLabels_keys hMem (hValid.declared label hLabel)
    · have hDeclared : (result.labels.any fun label =>
          !(descriptor.labels.map (·.key)).contains label) = false := by
        rw [List.any_eq_false]
        intro label hLabel
        simpa using hValid.declared label hLabel
      have hPrimary : (result.primaryLabel.any fun primary =>
          !result.labels.contains primary) = false := by
        cases hEq : result.primaryLabel with
        | none => rfl
        | some primary =>
          simpa using hValid.primary primary (by rw [hEq]; rfl)
      simp only [ClassificationResult.compact, hValid.labelled, hDeclared, hPrimary,
        hValid.complete, hValid.incomplete, Bool.or_self]

/-- Valid results, compacted, are readable. -/
theorem resultsReadable_compact {results : List ClassificationResult}
    {catalog : List ClassifierDescriptor} (hValid : List.Forall₂ ValidResult results catalog)
    (hCatalog : ∀ descriptor ∈ catalog, descriptor ∈ classifierCatalog) :
    List.Forall₂ (fun result descriptor => ResultReadable descriptor result.compact)
        results catalog ↔
      ∀ result ∈ results, ∀ fact ∈ result.missingFacts, isClassifierKey fact = true := by
  induction hValid with
  | nil => simp
  | cons hFirst _ ih =>
    obtain ⟨hMem, hRest⟩ := List.forall_mem_cons.mp hCatalog
    rw [List.forall₂_cons, List.forall_mem_cons, resultReadable_compact hMem hFirst, ih hRest]

/-- The assessment of a valid record is readable. -/
theorem assessmentReadable_of_valid {record : TransactionClassification}
    (h : ValidRecord record) : AssessmentReadable record.assessment := by
  refine ⟨h.violated, h.unknown, ?_⟩
  have hStatus := h.status
  have hPrimary := h.primary
  unfold isInconsistent
  unfold statusOf at hStatus
  cases hViolated : record.assessment.violatedRules with
  | nil =>
    have hNone : record.assessment.primaryRule = none := by
      cases hEq : record.assessment.primaryRule with
      | none => rfl
      | some rule =>
        have hMem := hPrimary rule (by rw [hEq]; rfl)
        rw [hViolated] at hMem
        cases hMem
    cases hUnknown : record.assessment.unknownRules with
    | nil => simp [hStatus, hViolated, hUnknown, hNone]
    | cons rule rest => simp [hStatus, hViolated, hUnknown, hNone]
  | cons rule rest =>
    cases hEq : record.assessment.primaryRule with
    | none => simp [hStatus, hViolated]
    | some primary =>
      have hMem := hPrimary primary (by rw [hEq]; rfl)
      rw [hViolated, List.mem_cons] at hMem
      have hViolating : record.assessment.status = .violating := by
        rw [hStatus, hViolated]
        rfl
      simpa [hViolating, Decidable.imp_iff_not_or] using hMem

/-- A valid record's policy result matches its assessment. -/
theorem policyMismatch_of_valid {record : TransactionClassification} (h : ValidRecord record) :
    policyMismatch (record.results.map ClassificationResult.compact) record.assessment =
      false := by
  obtain ⟨policy, hPolicy, hMatches⟩ := h.policy
  have hFound : (record.results.map ClassificationResult.compact).find?
      (fun result => result.classifierId == "knots_bip110") = some policy.compact := by
    rw [List.find?_map]
    have hSame : ((fun result : ClassificationResult => result.classifierId == "knots_bip110") ∘
        ClassificationResult.compact) =
          fun result => result.classifierId == knotsBip110ClassifierId := rfl
    rw [hSame, hPolicy, Option.map_some]
  have hLabel : policyLabel record.assessment.status = statusName record.assessment.status := by
    cases record.assessment.status <;> rfl
  simp only [policyResultMatches, Bool.and_eq_true, beq_iff_eq] at hMatches
  obtain ⟨⟨⟨hPrimary, -⟩, hState⟩, hFacts⟩ := hMatches
  rw [hLabel] at hPrimary
  unfold policyMismatch
  rw [hFound]
  cases hUnknown : record.assessment.unknownRules with
  | nil => simp_all [ClassificationResult.compact]
  | cons rule rest => simp_all [ClassificationResult.compact]

/-- A row `new_variant` has made. -/
def Constructed (entry : MempoolEntry) : Prop :=
  ∃ txid wtxid vsize feeSats enteredAtMs facts,
    MempoolEntry.newVariant txid wtxid vsize feeSats enteredAtMs facts = .ok entry

/-- What `new_variant` has checked, as the browser asks it. -/
theorem Constructed.readable {entry : MempoolEntry} (h : Constructed entry) :
    (entry.vsize ≤ maxSafeInteger ∧ (entry.vsize == 0) = false ∧ entry.weight ≤ maxSafeInteger ∧
      entry.feeSats ≤ maxSafeInteger ∧ entry.enteredAtMs ≤ maxSafeInteger ∧
      entry.ancestorCount ≤ maxSafeInteger ∧ entry.ancestorVsize ≤ maxSafeInteger ∧
      entry.ancestorFeeSats.natAbs ≤ maxSafeInteger ∧ entry.descendantCount ≤ maxSafeInteger ∧
      entry.descendantVsize ≤ maxSafeInteger) ∧
    (entry.weight == 0 || entry.weight > entry.vsize * 4) = false ∧
    (entry.ancestorCount == 0 || entry.descendantCount == 0 ||
      entry.ancestorVsize < entry.vsize || entry.descendantVsize < entry.vsize) = false := by
  obtain ⟨txid, wtxid, vsize, feeSats, enteredAtMs, facts, hNew⟩ := h
  simp only [MempoolEntry.newVariant, bind_eq_ok, ensure_eq_ok, ensureSafeIntegers_eq_ok,
    exists_const, List.forall_mem_cons, List.not_mem_nil, false_implies, implies_true, and_true,
    pure, Except.pure, Except.ok.injEq] at hNew
  obtain ⟨hPositive, ⟨hVsize, hFee, hEntered, hWeight, hAncestors, hAncestorVsize, hDescendants,
    hDescendantVsize⟩, hAncestorFee, hConsistent, hAncestry, rfl⟩ := hNew
  have hFits : saturatingMul vsize 4 = vsize * 4 := by
    unfold saturatingMul
    have hBound : maxSafeJsonInteger * 4 ≤ u64Max := by decide
    omega
  have hSigned : facts.ancestorFeeSats.natAbs ≤ maxSafeInteger :=
    Nat.not_lt.mp (of_decide_eq_false hAncestorFee)
  rw [hFits] at hConsistent
  exact ⟨⟨hVsize, hPositive, hWeight, hFee, hEntered, hAncestors, hAncestorVsize, hSigned,
    hDescendants, hDescendantVsize⟩, hConsistent, hAncestry⟩

/-- A published row is readable when its detail record is. -/
theorem entryReadable_materialized {row : MempoolEntry} (hRow : Constructed row)
    (hTxid : isHash row.txid = true) (hWtxid : isHash row.wtxid = true)
    {classifications : TransactionClassifications}
    (hValid : ∀ record, classifications[row.txid]? = some record → ValidRecord record) :
    EntryReadable classifierCatalog (materializeEntry classifications row) ↔
      ∀ record, classifications[row.txid]? = some record → RecordReadable record := by
  obtain ⟨⟨h1, h2, h3, h4, h5, h6, h7, h8, h9, h10⟩, hWeight, hAncestry⟩ := hRow.readable
  unfold materializeEntry
  cases hGet : classifications[row.txid]? with
  | none =>
    refine ⟨fun _ record hSome => (Option.some_ne_none record hSome.symm).elim, fun _ => ?_⟩
    exact ⟨hTxid, hWtxid, h1, h2, h3, h4, h5, h6, h7, h8, h9, h10, hWeight, hAncestry,
      by simp, by simp, rfl, rfl, rfl⟩
  | some record =>
    have hRecord := hValid record hGet
    have hResults : ResultsReadable classifierCatalog { row with
        classifications := record.results.map ClassificationResult.compact
        bip110 := some record.assessment
        transactionStructure := some record.transactionStructure } ↔
          ∀ result ∈ record.results, ∀ fact ∈ result.missingFacts,
            isClassifierKey fact = true := by
      unfold ResultsReadable
      rw [List.forall₂_map_left_iff]
      exact resultsReadable_compact hRecord.results fun _ hMem => hMem
    simp only [Option.some.injEq, forall_eq']
    constructor
    · intro h
      exact ⟨h.facts record.transactionStructure rfl, hResults.mp h.results⟩
    · intro h
      refine ⟨hTxid, hWtxid, h1, h2, h3, h4, h5, h6, h7, h8, h9, h10, hWeight, hAncestry, ?_, ?_,
        rfl, hResults.mpr h.missing, policyMismatch_of_valid hRecord⟩
      · rintro facts ⟨⟩
        exact h.facts
      · rintro assessment ⟨⟩
        exact assessmentReadable_of_valid hRecord

/-- The published rows are readable when all detail records are, since each has its row. -/
theorem rowsReadable_iff {rows : List MempoolEntry}
    {classifications : TransactionClassifications}
    (hRows : ∀ row ∈ rows, Constructed row ∧ isHash row.txid = true ∧ isHash row.wtxid = true)
    (hRecords : ∀ (txid : String) record, classifications[txid]? = some record →
      MatchesRow rows txid record) :
    (∀ entry ∈ rows.map (materializeEntry classifications),
        EntryReadable classifierCatalog entry) ↔
      ∀ (txid : String) record, classifications[txid]? = some record → RecordReadable record := by
  have hRow : ∀ row ∈ rows,
      (EntryReadable classifierCatalog (materializeEntry classifications row) ↔
        ∀ record, classifications[row.txid]? = some record → RecordReadable record) := by
    intro row hMem
    obtain ⟨hMade, hTxid, hWtxid⟩ := hRows row hMem
    exact entryReadable_materialized hMade hTxid hWtxid fun record hGet =>
      ValidRecord.of_ok (hRecords _ record hGet).valid
  constructor
  · intro h txid record hGet
    obtain ⟨row, hMem, rfl, -⟩ := (hRecords txid record hGet).row
    exact (hRow row hMem).mp (h _ (List.mem_map_of_mem hMem)) record hGet
  · intro h entry hMem
    obtain ⟨row, hRowMem, rfl⟩ := List.mem_map.mp hMem
    exact (hRow row hRowMem).mpr fun record hGet => h _ record hGet

-- ---------------------------------------------------------------------------
-- What a publisher shows
-- ---------------------------------------------------------------------------

/-- What a source shows and encodes: no snapshot yet, or the observation of a
membership with its detail records, at any lifecycle state. -/
inductive Shown (publisher : CurrentStatePublisher) :
    Option MempoolSnapshot → Option ClassificationState → TransactionClassifications → Prop
  | nothing : Shown publisher none none ∅
  | observation {started completed duration revision : Nat} {tip : ChainTip}
      {rows : List MempoolEntry} {membership : MempoolSnapshot}
      {classifications : TransactionClassifications} {observation : MempoolObservation}
      (state : ClassificationState)
      (hMembership : MempoolSnapshot.newWithCollectionWindow publisher.sourceId
        publisher.sourceLabel started completed duration tip rows = .ok membership)
      (hRows : ∀ row ∈ rows, Constructed row ∧ isHash row.txid = true ∧ isHash row.wtxid = true)
      (hTip : isHash tip.hash = true)
      (hObservation : MempoolObservation.materializeRetained membership revision
        classifications = .ok observation) :
      Shown publisher (some observation.snapshot) (some state) classifications

/-- What the browser asks beyond what the server checks. -/
structure WireReadable (publisher : CurrentStatePublisher) (lastError : Option String)
    (classifications : TransactionClassifications) : Prop where
  label : isBlank publisher.sourceLabel = false
  pollInterval : publisher.pollIntervalSeconds ≤ maxSafeInteger
  lastError : ∀ error ∈ lastError, isBlank error = false
  records : ∀ (txid : String) record, classifications[txid]? = some record → RecordReadable record

-- ---------------------------------------------------------------------------
-- Summaries
-- ---------------------------------------------------------------------------

/-- A summary agrees with the snapshot it was made from, so only its error can fail. -/
theorem checkSummary_eq_ok {summary : SourceSummary}
    (hAvailability : summary.availability = match summary.snapshotObservedAtMs, summary.lastError with
      | none, none => .waiting
      | none, some _ => .error
      | some _, none => .ready
      | some _, some _ => .stale)
    (hCount : summary.transactionCount.isSome = summary.snapshotObservedAtMs.isSome)
    (hVsize : summary.totalVsize.isSome = summary.snapshotObservedAtMs.isSome)
    (hTip : summary.chainTip.isSome = summary.snapshotObservedAtMs.isSome)
    (hProgress : summary.classification.isSome = summary.snapshotObservedAtMs.isSome)
    (hTotal : ∀ progress ∈ summary.classification,
      some (progress.classifiedCount + progress.unclassifiedCount) = summary.transactionCount) :
    checkSummary summary = .ok () ↔ ∀ error ∈ summary.lastError, isBlank error = false := by
  obtain ⟨id, label, availability, interval, polled, observed, tip, count, vsize, progress,
    lastError⟩ := summary
  dsimp only at *
  subst hAvailability
  simp only [checkSummary, bind_eq_ok, ensure_eq_ok, exists_const]
  cases observed with
  | none =>
    obtain rfl : tip = none := by simpa using hTip
    obtain rfl : count = none := by simpa using hCount
    obtain rfl : vsize = none := by simpa using hVsize
    obtain rfl : progress = none := by simpa using hProgress
    cases lastError <;> simp
  | some ms =>
    obtain ⟨chainTip, rfl⟩ := Option.isSome_iff_exists.mp hTip
    obtain ⟨total, rfl⟩ := Option.isSome_iff_exists.mp hVsize
    obtain ⟨found, rfl⟩ := Option.isSome_iff_exists.mp hProgress
    obtain rfl := hTotal found rfl
    cases lastError <;> simp

/-- The summary of what is shown fails only over its error. -/
theorem checkSummary_shown {publisher : CurrentStatePublisher} {latest : Option MempoolSnapshot}
    {state : Option ClassificationState} {polled : Option Nat} {lastError : Option String}
    (hState : state.isSome = latest.isSome)
    (hSummarized : ∀ snapshot ∈ latest,
      Summarized snapshot.transactionCount snapshot.bip110Summary) :
    checkSummary (summaryFromParts publisher polled latest state lastError) = .ok () ↔
      ∀ error ∈ lastError, isBlank error = false := by
  cases latest with
  | none =>
    obtain rfl : state = none := by simpa using hState
    refine checkSummary_eq_ok ?_ rfl rfl rfl rfl ?_
    · cases lastError <;> rfl
    · rintro progress ⟨⟩
  | some snapshot =>
    obtain ⟨lifecycle, rfl⟩ := Option.isSome_iff_exists.mp hState
    refine checkSummary_eq_ok ?_ rfl rfl rfl rfl ?_
    · cases lastError <;> rfl
    · rintro progress ⟨⟩
      exact congrArg some (hSummarized snapshot rfl).total

/-- What is shown of a source is readable. -/
theorem summaryReadable_shown {publisher : CurrentStatePublisher}
    (hId : validateSourceId publisher.sourceId = .ok ()) (hInterval : 0 < publisher.pollIntervalSeconds)
    {latest : Option MempoolSnapshot} {state : Option ClassificationState} {polled : Option Nat}
    (hPolled : ∀ ms ∈ polled, ms ≤ maxSafeInteger) {lastError : Option String}
    (hState : state.isSome = latest.isSome)
    (hSummarized : ∀ snapshot ∈ latest,
      Summarized snapshot.transactionCount snapshot.bip110Summary)
    (hSafe : ∀ snapshot ∈ latest, snapshot.observedAtMs ≤ maxSafeInteger ∧
      snapshot.transactionCount ≤ maxSafeInteger ∧ snapshot.totalVsize ≤ maxSafeInteger ∧
      snapshot.classificationRevision ≤ maxSafeInteger ∧
      snapshot.chainTip.height ≤ maxSafeInteger ∧ isHash snapshot.chainTip.hash = true) :
    SummaryReadable (summaryFromParts publisher polled latest state lastError) ↔
      isBlank publisher.sourceLabel = false ∧ publisher.pollIntervalSeconds ≤ maxSafeInteger ∧
        ∀ error ∈ lastError, isBlank error = false := by
  have hCheck := @checkSummary_shown publisher latest state polled lastError hState hSummarized
  constructor
  · intro h
    exact ⟨h.sourceLabel, h.pollInterval, hCheck.mp h.consistent⟩
  · rintro ⟨hLabel, hBound, hError⟩
    have hPositive : (publisher.pollIntervalSeconds == 0) = false := by
      simpa using hInterval.ne'
    refine ⟨isSourceId_of_validated hId, hLabel, hBound, hPositive, hPolled, ?_, ?_, ?_, ?_, ?_,
      hCheck.mpr hError⟩
    · intro ms hMem
      obtain ⟨snapshot, rfl, rfl⟩ := Option.map_eq_some_iff.mp hMem
      exact (hSafe snapshot rfl).1
    · intro n hMem
      obtain ⟨snapshot, rfl, rfl⟩ := Option.map_eq_some_iff.mp hMem
      exact (hSafe snapshot rfl).2.1
    · intro n hMem
      obtain ⟨snapshot, rfl, rfl⟩ := Option.map_eq_some_iff.mp hMem
      exact (hSafe snapshot rfl).2.2.1
    · intro tip hMem
      obtain ⟨snapshot, rfl, rfl⟩ := Option.map_eq_some_iff.mp hMem
      exact (hSafe snapshot rfl).2.2.2.2
    · intro progress hMem
      cases latest with
      | none =>
        obtain rfl : state = none := by simpa using hState
        cases hMem
      | some snapshot =>
        obtain ⟨lifecycle, rfl⟩ := Option.isSome_iff_exists.mp hState
        obtain rfl : ClassificationProgress.fromSnapshot lifecycle snapshot = progress :=
          Option.some.inj hMem
        obtain ⟨-, hCount, -, hRevision, -⟩ := hSafe snapshot rfl
        have hTotal := (hSummarized snapshot rfl).total
        refine ⟨hRevision, ?_, ?_⟩
        · unfold ClassificationProgress.fromSnapshot
          dsimp only
          omega
        · unfold ClassificationProgress.fromSnapshot
          dsimp only
          omega

-- ---------------------------------------------------------------------------
-- Responses
-- ---------------------------------------------------------------------------

/-- A response without a snapshot is read back. -/
theorem parseSourceSnapshotResponse_nothing {source : SourceSummary}
    {parsed : SourceSnapshotResponse} (hNothing : source.snapshotObservedAtMs = none) :
    parseSourceSnapshotResponse (some (responseJson ⟨source, none⟩)) = .ok parsed ↔
      SummaryReadable source ∧ parsed = ⟨source, none⟩ := by
  have hRecord : ∀ message, ensureRecord (some (responseJson ⟨source, none⟩))
      ["source", "snapshot"] message = .ok () := fun message => ensureRecord_obj rfl
  have hSource : get "source" (some (responseJson ⟨source, none⟩)) =
      some (summaryJson source) := rfl
  have hNull : isNull (get "snapshot" (some (responseJson ⟨source, none⟩))) = true := rfl
  simp only [parseSourceSnapshotResponse, hRecord, hSource, hNull, bind_eq_ok,
    parseSourceSummary_json, if_true, exists_const, true_and, and_assoc, exists_and_left,
    exists_eq_left, hNothing, Option.isSome_none, ensure_false, pure, Except.pure,
    Except.ok.injEq]
  rw [eq_comm (a := parsed)]

/-- A response with a snapshot is read back. -/
theorem parseSourceSnapshotResponse_some {source : SourceSummary} {snapshot : MempoolSnapshot}
    {parsed : SourceSnapshotResponse} (hAgree : responseMismatch source snapshot = false)
    {good : Prop} (hSnapshot : ∀ found, parseMempoolSnapshot (some (snapshotJson snapshot)) =
      .ok found ↔ good ∧ found = snapshot) :
    parseSourceSnapshotResponse (some (responseJson ⟨source, some snapshot⟩)) = .ok parsed ↔
      (SummaryReadable source ∧ good) ∧ parsed = ⟨source, some snapshot⟩ := by
  have hRecord : ∀ message, ensureRecord (some (responseJson ⟨source, some snapshot⟩))
      ["source", "snapshot"] message = .ok () := fun message => ensureRecord_obj rfl
  have hSource : get "source" (some (responseJson ⟨source, some snapshot⟩)) =
      some (summaryJson source) := rfl
  have hGet : get "snapshot" (some (responseJson ⟨source, some snapshot⟩)) =
      some (snapshotJson snapshot) := rfl
  have hNull : isNull (some (snapshotJson snapshot)) = false := rfl
  simp only [parseSourceSnapshotResponse, hRecord, hSource, hGet, hNull, bind_eq_ok,
    parseSourceSummary_json, hSnapshot, if_false, Bool.false_eq_true, exists_const, true_and,
    and_assoc, exists_and_left, exists_eq_left, hAgree, ensure_false, pure, Except.pure,
    Except.ok.injEq]
  rw [eq_comm (a := parsed)]

/-- A summary describes the snapshot it was made from. -/
theorem responseMismatch_fromParts {publisher : CurrentStatePublisher} {polled : Option Nat}
    {snapshot : MempoolSnapshot} {state : ClassificationState} {lastError : Option String}
    (hId : snapshot.sourceId = publisher.sourceId)
    (hLabel : snapshot.sourceLabel = publisher.sourceLabel) :
    responseMismatch (summaryFromParts publisher polled (some snapshot) (some state) lastError)
      snapshot = false := by
  have hSource : (summaryFromParts publisher polled (some snapshot) (some state)
      lastError).sourceId = snapshot.sourceId := hId.symm
  have hSourceLabel : (summaryFromParts publisher polled (some snapshot) (some state)
      lastError).sourceLabel = snapshot.sourceLabel := hLabel.symm
  have hObserved : (summaryFromParts publisher polled (some snapshot) (some state)
      lastError).snapshotObservedAtMs = some snapshot.observedAtMs := rfl
  have hCount : (summaryFromParts publisher polled (some snapshot) (some state)
      lastError).transactionCount = some snapshot.transactionCount := rfl
  have hVsize : (summaryFromParts publisher polled (some snapshot) (some state)
      lastError).totalVsize = some snapshot.totalVsize := rfl
  have hTip : (summaryFromParts publisher polled (some snapshot) (some state)
      lastError).chainTip = some snapshot.chainTip := rfl
  have hProgress : (summaryFromParts publisher polled (some snapshot) (some state)
      lastError).classification =
        some (ClassificationProgress.fromSnapshot state snapshot) := rfl
  simp [responseMismatch, hSource, hSourceLabel, hObserved, hCount, hVsize, hTip, hProgress,
    ClassificationProgress.fromSnapshot]

/-- What the browser makes of what a publisher encodes. -/
theorem parseSourceSnapshotResponse_shown {publisher : CurrentStatePublisher}
    (hId : validateSourceId publisher.sourceId = .ok ())
    (hInterval : 0 < publisher.pollIntervalSeconds) {latest : Option MempoolSnapshot}
    {state : Option ClassificationState} {classifications : TransactionClassifications}
    (hShown : Shown publisher latest state classifications) {polled : Option Nat}
    (hPolled : ∀ ms ∈ polled, ms ≤ maxSafeInteger) (lastError : Option String)
    (parsed : SourceSnapshotResponse) :
    parseSourceSnapshotResponse
        (some (responseJson (responseFromParts publisher polled latest state lastError))) =
          .ok parsed ↔
      WireReadable publisher lastError classifications ∧
        parsed = responseFromParts publisher polled latest state lastError := by
  cases hShown with
  | nothing =>
    have hSummary := @summaryReadable_shown publisher hId hInterval none none polled hPolled
      lastError rfl (fun _ h => by cases h) (fun _ h => by cases h)
    unfold responseFromParts
    rw [parseSourceSnapshotResponse_nothing rfl, hSummary]
    constructor
    · rintro ⟨⟨hLabel, hBound, hError⟩, rfl⟩
      exact ⟨⟨hLabel, hBound, hError, fun txid record h => by simp at h⟩, rfl⟩
    · rintro ⟨h, rfl⟩
      exact ⟨⟨h.label, h.pollInterval, h.lastError⟩, rfl⟩
  | @observation started completed duration revision tip rows membership _ observation lifecycle
      hMembership hRows hTip hObservation =>
    obtain ⟨hParts, rfl⟩ := newWithCollectionWindow_eq_ok.mp hMembership
    obtain ⟨-, hRevision, hRecords, rfl⟩ := materializeRetained_eq_ok.mp hObservation
    have hShownParts : AcceptedParts publisher.sourceId publisher.sourceLabel started completed
        duration tip (rows.map (materializeEntry classifications)) :=
      acceptedParts_materialized.mpr hParts
    have hSnapshot := fun found => @parseMempoolSnapshot_json _ _ _ _ _ _ _ _ hShownParts hRevision
      hTip found (materializedSnapshot (snapshotOf publisher.sourceId publisher.sourceLabel started
        completed duration tip rows) revision classifications) rfl
    have hSummarized := summarized_fromTransactions (rows.map (materializeEntry classifications))
    have hSummary := @summaryReadable_shown publisher hId hInterval
      (some (materializedSnapshot (snapshotOf publisher.sourceId publisher.sourceLabel started
        completed duration tip rows) revision classifications)) (some lifecycle) polled hPolled
      lastError rfl (by rintro _ ⟨⟩; exact hSummarized)
      (by
        rintro _ ⟨⟩
        exact ⟨hParts.completedSafe, hShownParts.countSafe, hShownParts.vsizeSafe, hRevision,
          hParts.heightSafe, hTip⟩)
    have hReadable : (∀ entry ∈ rows.map (materializeEntry classifications),
        EntryReadable classifierCatalog entry) ↔
          ∀ (txid : String) record, classifications[txid]? = some record →
            RecordReadable record :=
      rowsReadable_iff hRows hRecords
    unfold responseFromParts
    rw [parseSourceSnapshotResponse_some (responseMismatch_fromParts rfl rfl) hSnapshot, hSummary,
      hReadable]
    constructor
    · rintro ⟨⟨⟨hLabel, hBound, hError⟩, -, hAll⟩, rfl⟩
      exact ⟨⟨hLabel, hBound, hError, hAll⟩, rfl⟩
    · rintro ⟨h, rfl⟩
      exact ⟨⟨⟨h.label, h.pollInterval, h.lastError⟩, h.label, h.records⟩, rfl⟩

/-- **The browser accepts what a publisher encodes exactly when** the conditions
the server leaves open hold; and what it accepts, it reads as it was. -/
theorem snapshot_response_accepted (publisher : CurrentStatePublisher)
    (hId : validateSourceId publisher.sourceId = .ok ())
    (hInterval : 0 < publisher.pollIntervalSeconds) (latest : Option MempoolSnapshot)
    (state : Option ClassificationState) (classifications : TransactionClassifications)
    (hShown : Shown publisher latest state classifications) (polled : Option Nat)
    (hPolled : ∀ ms ∈ polled, ms ≤ maxSafeInteger) (lastError : Option String) :
    ((∃ parsed, parseSourceSnapshotResponse
        (some (responseJson (responseFromParts publisher polled latest state lastError))) =
          .ok parsed) ↔ WireReadable publisher lastError classifications) ∧
      ∀ parsed, parseSourceSnapshotResponse
        (some (responseJson (responseFromParts publisher polled latest state lastError))) =
          .ok parsed → parsed = responseFromParts publisher polled latest state lastError := by
  have hRead := parseSourceSnapshotResponse_shown hId hInterval hShown hPolled lastError
  constructor
  · constructor
    · rintro ⟨parsed, hParsed⟩
      exact ((hRead parsed).mp hParsed).1
    · intro h
      exact ⟨_, (hRead _).mpr ⟨h, rfl⟩⟩
  · intro parsed hParsed
    exact ((hRead parsed).mp hParsed).2

/-- A label of one byte-order mark: to the server it is a text, to the browser it is blank. -/
def blankLabelPublisher : CurrentStatePublisher where
  sourceId := "a"
  sourceLabel := "\uFEFF"
  pollIntervalSeconds := 60

/-- A source without a snapshot is read back. -/
theorem shown_empty {publisher : CurrentStatePublisher}
    (hId : validateSourceId publisher.sourceId = .ok ())
    (hLabel : validateSourceLabel publisher.sourceLabel = .ok ()) :
    Shown publisher (some (materializedSnapshot (snapshotOf publisher.sourceId
      publisher.sourceLabel 0 0 0 sampleTip []) 0 ∅)) (some .complete) ∅ := by
  have hParts : AcceptedParts publisher.sourceId publisher.sourceLabel 0 0 0 sampleTip [] :=
    ⟨hId, hLabel, by decide, by decide, by decide, by decide, rfl, by decide, List.Pairwise.nil,
      by decide, by decide⟩
  have hMembership := newWithCollectionWindow_eq_ok.mpr ⟨hParts, rfl⟩
  have hObservation : MempoolObservation.materializeRetained
      (snapshotOf publisher.sourceId publisher.sourceLabel 0 0 0 sampleTip []) 0 ∅ = .ok _ :=
    materializeRetained_eq_ok.mpr ⟨hParts, by decide, fun txid record h => by simp at h, rfl⟩
  exact Shown.observation .complete hMembership (fun row h => by simp at h) (by decide)
    hObservation

theorem snapshot_response_rejected :
    ¬ ∀ (publisher : CurrentStatePublisher), validateSourceId publisher.sourceId = .ok () →
      validateSourceLabel publisher.sourceLabel = .ok () → 0 < publisher.pollIntervalSeconds →
      ∀ latest state classifications, Shown publisher latest state classifications →
      ∀ polled : Option Nat, (∀ ms ∈ polled, ms ≤ maxSafeInteger) →
      ∀ lastError : Option String, (∀ error ∈ lastError, error.toList.all isWhitespace = false) →
        ∃ parsed, parseSourceSnapshotResponse
          (some (responseJson (responseFromParts publisher polled latest state lastError))) =
            .ok parsed := by
  intro h
  have hId : validateSourceId blankLabelPublisher.sourceId = .ok () := by decide
  have hLabel : validateSourceLabel blankLabelPublisher.sourceLabel = .ok () := by decide
  have hInterval : 0 < blankLabelPublisher.pollIntervalSeconds := by decide
  obtain ⟨parsed, hParsed⟩ := h blankLabelPublisher hId hLabel hInterval _ _ _
    (shown_empty hId hLabel) none (by simp) none (by simp)
  obtain ⟨hReadable, -⟩ := (parseSourceSnapshotResponse_shown hId hInterval
    (shown_empty hId hLabel) (by simp) none parsed).mp hParsed
  have hBlank : isBlank blankLabelPublisher.sourceLabel = true := by decide
  rw [hReadable.label] at hBlank
  cases hBlank

-- ---------------------------------------------------------------------------
-- What the classifier produces
-- ---------------------------------------------------------------------------

section Produced

variable [BitcoinCrate]

/-- A derived structure is readable. -/
theorem structureReadable_of_new {transaction : Transaction} {facts : TransactionStructure}
    (h : Classifiers.transactionStructure transaction = .ok facts) : StructureReadable facts := by
  simp only [Classifiers.transactionStructure, TransactionStructure.new, bind_eq_ok, ensure_eq_ok,
    ensureSafeIntegers_eq_ok, exists_const, List.forall_mem_cons, List.not_mem_nil, false_implies,
    implies_true, and_true, pure, Except.pure, Except.ok.injEq, Bool.or_eq_false_iff,
    beq_eq_false_iff_ne] at h
  obtain ⟨⟨hInput, hOutput⟩, ⟨hInputs, hOutputs, hOpReturn, hSats, hWitness⟩, rfl⟩ := h
  exact ⟨⟨Nat.pos_of_ne_zero hInput, hInputs⟩, ⟨Nat.pos_of_ne_zero hOutput, hOutputs⟩, hOpReturn,
    hSats, hWitness⟩

omit [BitcoinCrate] in
theorem scriptCoverage_keys (allKnown : Bool) :
    ∀ fact ∈ (Classifiers.scriptCoverage allKnown).2, isClassifierKey fact = true := by
  cases allKnown <;> decide

/-- The browser reads every record the classifier makes: only records from
elsewhere can fail the last condition. -/
theorem recordReadable_classifyCandidate (txid wtxid : String) {facts : TransactionStructure}
    {transaction : Transaction} (prevouts : Bip110.PrevoutSet)
    (h : Classifiers.transactionStructure transaction = .ok facts) :
    RecordReadable (Classifiers.classifyCandidate txid wtxid facts transaction prevouts) := by
  refine ⟨structureReadable_of_new h, ?_⟩
  have hPolicy : ∀ assessment : Bip110Assessment,
      ∀ fact ∈ (Classifiers.bip110Result assessment).missingFacts, isClassifierKey fact = true := by
    intro assessment fact hFact
    unfold Classifiers.bip110Result at hFact
    dsimp only at hFact
    split at hFact
    · obtain rfl := List.mem_singleton.mp hFact
      decide
    · cases hFact
  intro result hResult
  have hResults : (Classifiers.classifyCandidate txid wtxid facts transaction prevouts).results =
      [Classifiers.transactionProperties transaction prevouts,
        Classifiers.transactionShape transaction prevouts (Classifiers.dataProtocols transaction),
        Classifiers.dataProtocols transaction, Classifiers.bip110Result _] := rfl
  rw [hResults] at hResult
  simp only [List.mem_cons, List.not_mem_nil, or_false] at hResult
  rcases hResult with rfl | rfl | rfl | rfl
  · exact scriptCoverage_keys _
  · exact scriptCoverage_keys _
  · rintro fact ⟨⟩
  · exact hPolicy _

end Produced

/-- A payment, classified, is on show; its poll interval is an hour. -/
theorem snapshot_response_accepted_payment :
    let _ := Reference.crate [Reference.payment]
    let publisher : CurrentStatePublisher := ⟨"core", "Bitcoin Core", 3600⟩
    ∃ snapshot, snapshot.transactions.map (·.bip110) = [some paymentRecord.assessment] ∧
      ∃ parsed, parseSourceSnapshotResponse (some (responseJson
        (responseFromParts publisher (some 1) (some snapshot) (some .classifying) none))) =
          .ok parsed := by
  intro _ publisher
  have hId : validateSourceId publisher.sourceId = .ok () := by decide
  have hStructure : Classifiers.transactionStructure Reference.payment.transaction =
      .ok paymentFacts := by rfl
  have hMade : Constructed (entryOf Reference.payment) :=
    ⟨_, _, 82, 0, 0, ⟨328, 1, 82, 0, 1, 82, false⟩, rfl⟩
  have hRows : ∀ row ∈ [entryOf Reference.payment], Constructed row ∧ isHash row.txid = true ∧
      isHash row.wtxid = true := by
    intro row hRow
    obtain rfl := List.mem_singleton.mp hRow
    exact ⟨hMade, by decide, by decide⟩
  have hMembership : MempoolSnapshot.newWithCollectionWindow publisher.sourceId
      publisher.sourceLabel 0 0 0 sampleTip [entryOf Reference.payment] = .ok paymentMembership :=
    newWithCollectionWindow_eq_ok.mpr ⟨paymentMembership_accepted, rfl⟩
  have hShown := Shown.observation .classifying hMembership hRows (by decide)
    (@payment_materializes _ 1 (by decide))
  refine ⟨_, ?_, (snapshot_response_accepted publisher hId (by decide) _ _ _ hShown (some 1)
    (by simp [maxSafeInteger]) none).1.mpr ⟨by decide, by decide, by simp, ?_⟩⟩
  · exact congrArg (fun bip110 => [bip110]) bip110_payment
  · intro txid found h
    obtain ⟨-, rfl⟩ := getElem?_paymentClassifications h
    exact recordReadable_classifyCandidate _ _ _ hStructure

end MempoolAtlas.Web
