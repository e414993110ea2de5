import MempoolAtlas.Classification.Reference
import MempoolAtlas.Lib.Tally
import MempoolAtlas.Model.Materialization
import MempoolAtlas.Model.Validated

/-!
# Exact aggregates

The summaries of a materialized snapshot count its rows: those of the lenses by
the results of the rows, the policy summary by their assessments, and the two
agree because a row has all facts of one checked detail record, or none.

## Results

* `exactSummary_classifierSummary` — a lens's summary counts the results of the rows.
* `rowFacts_materialized` — a row has all facts of one checked record, or none.
* `snapshot_aggregates_exact` — the aggregates of every materialized snapshot are exact.
-/

namespace MempoolAtlas.Model

-- ---------------------------------------------------------------------------
-- What is counted
-- ---------------------------------------------------------------------------

/-- A row's result for a lens. -/
def resultOf (id : String) (entry : MempoolEntry) : Option ClassificationResult :=
  entry.classifications.find? fun result => result.classifierId == id

def hasState (id : String) (state : ClassificationResultState) (entry : MempoolEntry) : Bool :=
  (resultOf id entry).any fun result => result.state == state

def carries (id label : String) (entry : MempoolEntry) : Bool :=
  (resultOf id entry).any fun result => result.labels.contains label

def hasStatus (status : Bip110Status) (entry : MempoolEntry) : Bool :=
  entry.bip110.any fun assessment => assessment.status == status

/-- The summary of a lens that counts its rows. -/
structure ExactSummary (rows : List MempoolEntry) (descriptor : ClassifierDescriptor)
    (summary : ClassifierSummary) : Prop where
  lens : summary.classifierId = descriptor.id
  complete : summary.completeCount = rows.countP (hasState descriptor.id .complete)
  incomplete : summary.partialCount = rows.countP (hasState descriptor.id .partialResult)
  unclassified : summary.unclassifiedCount =
    rows.countP fun entry => (resultOf descriptor.id entry).isNone
  total : summary.completeCount + summary.partialCount + summary.unclassifiedCount = rows.length
  labels : ∀ label, summary.labelCounts[label]? =
    if label ∈ descriptor.labels.map (·.key) then some (rows.countP (carries descriptor.id label))
    else none

/-- The policy summary's count of a status. -/
def Bip110Summary.countOf (summary : Bip110Summary) : Bip110Status → Nat
  | .compatible => summary.compatibleCount
  | .violating => summary.violatingCount
  | .indeterminate => summary.indeterminateCount

-- ---------------------------------------------------------------------------
-- The loops
-- ---------------------------------------------------------------------------

theorem countOf_fromTransactions (rows : List MempoolEntry) (status : Bip110Status) :
    (Bip110Summary.fromTransactions rows).countOf status = rows.countP (hasStatus status) := by
  have hStep : ∀ summary : Bip110Summary, ∀ entry ∈ rows, (summary.count entry).countOf status =
      summary.countOf status + if hasStatus status entry then 1 else 0 := by
    intro summary entry _
    unfold Bip110Summary.count hasStatus
    cases entry.bip110 with
    | none => rfl
    | some assessment => cases hStatus : assessment.status <;> cases status <;> simp [hStatus] <;> rfl
  refine (Tally.foldl_count (Bip110Summary.countOf · status) _ hStep _).trans ?_
  cases status <;> exact Nat.zero_add _

theorem unclassified_fromTransactions (rows : List MempoolEntry) :
    (Bip110Summary.fromTransactions rows).unclassifiedCount =
      rows.countP fun entry => entry.bip110.isNone := by
  have hStep : ∀ summary : Bip110Summary, ∀ entry ∈ rows,
      (summary.count entry).unclassifiedCount =
        summary.unclassifiedCount + if entry.bip110.isNone then 1 else 0 := by
    intro summary entry _
    unfold Bip110Summary.count
    cases entry.bip110 with
    | none => rfl
    | some assessment => cases hStatus : assessment.status <;> simp [hStatus]
  exact (Tally.foldl_count Bip110Summary.unclassifiedCount _ hStep _).trans (Nat.zero_add _)

/-- Every row is counted once. -/
theorem total_fromTransactions (rows : List MempoolEntry) :
    let summary := Bip110Summary.fromTransactions rows
    summary.compatibleCount + summary.violatingCount + summary.indeterminateCount +
      summary.unclassifiedCount = rows.length := by
  intro summary
  have hCompatible := countOf_fromTransactions rows .compatible
  have hViolating := countOf_fromTransactions rows .violating
  have hIndeterminate := countOf_fromTransactions rows .indeterminate
  have hUnclassified := unclassified_fromTransactions rows
  have hRows : rows.countP (hasStatus .compatible) + rows.countP (hasStatus .violating) +
      rows.countP (hasStatus .indeterminate) + rows.countP (fun entry => entry.bip110.isNone) =
        rows.length := by
    clear hCompatible hViolating hIndeterminate hUnclassified summary
    induction rows with
    | nil => rfl
    | cons entry rest ih =>
      simp only [List.countP_cons, List.length_cons]
      have hOne : (if hasStatus .compatible entry then 1 else 0) +
          (if hasStatus .violating entry then 1 else 0) +
          (if hasStatus .indeterminate entry then 1 else 0) +
          (if entry.bip110.isNone then 1 else 0) = 1 := by
        unfold hasStatus
        cases entry.bip110 with
        | none => rfl
        | some assessment => cases hStatus : assessment.status <;> simp [hStatus]
      omega
  rw [← hCompatible, ← hViolating, ← hIndeterminate, ← hUnclassified] at hRows
  exact hRows

/-- One row's effect on a label's count. -/
theorem labelCounts_count {id : String} {entry : MempoolEntry} {summary : ClassifierSummary}
    (hDistinct : ∀ result ∈ entry.classifications, result.labels.Nodup) (label : String) :
    (summary.count id entry).labelCounts[label]? =
      summary.labelCounts[label]?.map (· + if carries id label entry then 1 else 0) := by
  unfold ClassifierSummary.count carries resultOf
  cases hResult : entry.classifications.find? (fun result => result.classifierId == id) with
  | none => simp
  | some result =>
    have hLabels := hDistinct result (List.mem_of_find?_eq_some hResult)
    have hCount : result.labels.count label = if result.labels.contains label then 1 else 0 := by
      split
      · next hMem => exact List.count_eq_one_of_mem hLabels (List.contains_iff_mem.mp hMem)
      · next hAbsent =>
        exact List.count_eq_zero_of_not_mem fun hMem => hAbsent (List.contains_iff_mem.mpr hMem)
    dsimp only
    rw [BTreeMap.getElem?_foldl_modify, hCount, Option.any_some]
    cases result.state <;> rfl

theorem exactSummary_classifierSummary {rows : List MempoolEntry}
    (hDistinct : ∀ entry ∈ rows, ∀ result ∈ entry.classifications, result.labels.Nodup)
    (descriptor : ClassifierDescriptor) :
    ExactSummary rows descriptor (classifierSummary rows descriptor) := by
  let start : ClassifierSummary := {
    classifierId := descriptor.id, completeCount := 0, partialCount := 0, unclassifiedCount := 0
    labelCounts := Std.ExtTreeMap.ofList (descriptor.labels.map fun label => (label.key, 0)) }
  have hId : (classifierSummary rows descriptor).classifierId = descriptor.id := by
    have hStep : ∀ summary : ClassifierSummary, ∀ entry : MempoolEntry,
        (summary.count descriptor.id entry).classifierId = summary.classifierId := by
      intro summary entry
      unfold ClassifierSummary.count
      split
      · rfl
      · next result _ => cases result.state <;> rfl
    have hRun : ∀ rows : List MempoolEntry, ∀ summary : ClassifierSummary,
        (rows.foldl (ClassifierSummary.count descriptor.id) summary).classifierId =
          summary.classifierId := by
      intro rows
      induction rows with
      | nil => exact fun _ => rfl
      | cons entry rest ih => exact fun summary => (ih _).trans (hStep summary entry)
    exact hRun rows start
  have hComplete : (classifierSummary rows descriptor).completeCount =
      rows.countP (hasState descriptor.id .complete) := by
    have hStep : ∀ summary : ClassifierSummary, ∀ entry ∈ rows,
        (summary.count descriptor.id entry).completeCount =
          summary.completeCount + if hasState descriptor.id .complete entry then 1 else 0 := by
      intro summary entry _
      unfold ClassifierSummary.count hasState resultOf
      cases entry.classifications.find? (fun result => result.classifierId == descriptor.id) with
      | none => rfl
      | some result => cases hState : result.state <;> simp [hState]
    exact (Tally.foldl_count ClassifierSummary.completeCount _ hStep _).trans (Nat.zero_add _)
  have hPartial : (classifierSummary rows descriptor).partialCount =
      rows.countP (hasState descriptor.id .partialResult) := by
    have hStep : ∀ summary : ClassifierSummary, ∀ entry ∈ rows,
        (summary.count descriptor.id entry).partialCount =
          summary.partialCount + if hasState descriptor.id .partialResult entry then 1 else 0 := by
      intro summary entry _
      unfold ClassifierSummary.count hasState resultOf
      cases entry.classifications.find? (fun result => result.classifierId == descriptor.id) with
      | none => rfl
      | some result => cases hState : result.state <;> simp [hState]
    exact (Tally.foldl_count ClassifierSummary.partialCount _ hStep _).trans (Nat.zero_add _)
  have hUnclassified : (classifierSummary rows descriptor).unclassifiedCount =
      rows.countP fun entry => (resultOf descriptor.id entry).isNone := by
    have hStep : ∀ summary : ClassifierSummary, ∀ entry ∈ rows,
        (summary.count descriptor.id entry).unclassifiedCount =
          summary.unclassifiedCount + if (resultOf descriptor.id entry).isNone then 1 else 0 := by
      intro summary entry _
      unfold ClassifierSummary.count resultOf
      cases entry.classifications.find? (fun result => result.classifierId == descriptor.id) with
      | none => rfl
      | some result => cases hState : result.state <;> simp [hState]
    exact (Tally.foldl_count ClassifierSummary.unclassifiedCount _ hStep _).trans (Nat.zero_add _)
  refine ⟨hId, hComplete, hPartial, hUnclassified, ?_, fun label => ?_⟩
  · rw [hComplete, hPartial, hUnclassified]
    clear hComplete hPartial hUnclassified hId hDistinct start
    induction rows with
    | nil => rfl
    | cons entry rest ih =>
      simp only [List.countP_cons, List.length_cons]
      have hOne : (if hasState descriptor.id .complete entry then 1 else 0) +
          (if hasState descriptor.id .partialResult entry then 1 else 0) +
          (if (resultOf descriptor.id entry).isNone then 1 else 0) = 1 := by
        unfold hasState
        cases resultOf descriptor.id entry with
        | none => rfl
        | some result => cases hState : result.state <;> simp [hState]
      omega
  · refine (Tally.foldl_count? (fun summary : ClassifierSummary => summary.labelCounts[label]?) _
      (fun summary entry hMem => labelCounts_count (hDistinct entry hMem) label) start).trans ?_
    have hStart : start.labelCounts[label]? =
        if label ∈ descriptor.labels.map (·.key) then some 0 else none := by
      rw [← BTreeMap.getElem?_ofList_zero, List.map_map]
      rfl
    rw [hStart]
    split
    · exact congrArg some (Nat.zero_add _)
    · rfl

-- ---------------------------------------------------------------------------
-- Rows of checked records
-- ---------------------------------------------------------------------------

/-- A row with all facts of one checked record, or with none. -/
inductive RowFacts (entry : MempoolEntry) : Prop where
  | record (record : TransactionClassification) (valid : ValidRecord record)
      (results : entry.classifications = record.results.map ClassificationResult.compact)
      (bip110 : entry.bip110 = some record.assessment)
      (facts : entry.transactionStructure = some record.transactionStructure)
  | nothing (results : entry.classifications = []) (bip110 : entry.bip110 = none)
      (facts : entry.transactionStructure = none)

theorem rowFacts_materialized {membership : MempoolSnapshot} {revision : Nat}
    {classifications : TransactionClassifications} {observation : MempoolObservation}
    (h : MempoolObservation.materializeRetained membership revision classifications =
      .ok observation) {entry : MempoolEntry} (hMem : entry ∈ observation.snapshot.transactions) :
    RowFacts entry := by
  have hRow := rowAgrees_materialized h hMem
  obtain ⟨-, -, hRecords, -⟩ := materializeRetained_eq_ok.mp h
  unfold RowAgrees at hRow
  cases hRecord : classifications[entry.txid]? with
  | none =>
    rw [hRecord] at hRow
    exact .nothing hRow.1 hRow.2.1 hRow.2.2
  | some record =>
    rw [hRecord] at hRow
    exact .record record (.of_ok (hRecords _ _ hRecord).valid) hRow.1 hRow.2.1 hRow.2.2.1

/-- The compact results of a record, looked up by lens. -/
theorem find?_compact (results : List ClassificationResult) (id : String) :
    (results.map ClassificationResult.compact).find? (fun result => result.classifierId == id) =
      (results.find? fun result => result.classifierId == id).map ClassificationResult.compact :=
  List.find?_map ..

theorem exists_result {results : List ClassificationResult} {catalog : List ClassifierDescriptor}
    (h : List.Forall₂ ValidResult results catalog) {descriptor : ClassifierDescriptor}
    (hMem : descriptor ∈ catalog) :
    ∃ result ∈ results, result.classifierId = descriptor.id := by
  induction h with
  | nil => cases hMem
  | cons hFirst _ ih =>
    rcases List.mem_cons.mp hMem with rfl | hRest
    · exact ⟨_, List.mem_cons_self, hFirst.lens⟩
    · obtain ⟨result, hIn, hLens⟩ := ih hRest
      exact ⟨result, List.mem_cons_of_mem _ hIn, hLens⟩

theorem RowFacts.labels_nodup {entry : MempoolEntry} (h : RowFacts entry) :
    ∀ result ∈ entry.classifications, result.labels.Nodup := by
  intro result hMem
  cases h with
  | nothing hResults _ _ =>
    rw [hResults] at hMem
    cases hMem
  | record record hValid hResults _ _ =>
    rw [hResults] at hMem
    obtain ⟨full, hFull, rfl⟩ := List.mem_map.mp hMem
    obtain ⟨index, hIndex, rfl⟩ := List.getElem_of_mem hFull
    have hIndex' : index < classifierCatalog.length := hValid.results.length_eq ▸ hIndex
    exact (hValid.results.get hIndex hIndex').labelsDistinct

/-- A lens has no result exactly in the rows without an assessment. -/
theorem RowFacts.isNone_result {entry : MempoolEntry} (h : RowFacts entry)
    {descriptor : ClassifierDescriptor} (hMem : descriptor ∈ classifierCatalog) :
    (resultOf descriptor.id entry).isNone = entry.bip110.isNone := by
  cases h with
  | nothing hResults hBip110 _ =>
    rw [resultOf, hResults, hBip110]
    rfl
  | record record hValid hResults hBip110 _ =>
    obtain ⟨result, hIn, hLens⟩ := exists_result hValid.results hMem
    rw [resultOf, hResults, hBip110, find?_compact, Option.isNone_map]
    rw [Option.isNone_some, ← Option.not_isSome, Bool.not_eq_false', List.find?_isSome]
    exact ⟨result, hIn, beq_iff_eq.mpr hLens⟩

theorem policyLabel_inj {status other : Bip110Status} (h : policyLabel status = policyLabel other) :
    status = other := by
  revert h
  cases status <;> cases other <;> decide

/-- The policy lens labels a row with the status of its assessment. -/
theorem RowFacts.carries_policyLabel {entry : MempoolEntry} (h : RowFacts entry)
    (status : Bip110Status) :
    carries knotsBip110ClassifierId (policyLabel status) entry = hasStatus status entry := by
  cases h with
  | nothing hResults hBip110 _ =>
    rw [carries, resultOf, hResults, hasStatus, hBip110]
    rfl
  | record record hValid hResults hBip110 _ =>
    obtain ⟨policy, hPolicy, hMatches⟩ := hValid.policy
    have hLabels : policy.labels = [policyLabel record.assessment.status] := by
      simp only [policyResultMatches, Bool.and_eq_true, beq_iff_eq] at hMatches
      exact hMatches.1.1.2
    rw [carries, resultOf, hResults, find?_compact, hPolicy, hasStatus, hBip110]
    show policy.labels.contains (policyLabel status) = (record.assessment.status == status)
    rw [hLabels, Bool.eq_iff_iff, List.contains_iff_mem, List.mem_singleton, beq_iff_eq]
    exact ⟨fun hSame => (policyLabel_inj hSame).symm, fun hSame => congrArg policyLabel hSame.symm⟩

/-- The policy labels are labels of the policy lens. -/
theorem policyLabel_declared {descriptor : ClassifierDescriptor}
    (hMem : descriptor ∈ classifierCatalog) (hId : descriptor.id = knotsBip110ClassifierId)
    (status : Bip110Status) : policyLabel status ∈ descriptor.labels.map (·.key) := by
  have hAll : ∀ descriptor ∈ classifierCatalog, descriptor.id = knotsBip110ClassifierId →
      ∀ status ∈ [Bip110Status.compatible, .violating, .indeterminate],
        policyLabel status ∈ descriptor.labels.map (·.key) := by decide
  exact hAll descriptor hMem hId status (by cases status <;> decide)

-- ---------------------------------------------------------------------------
-- The snapshot
-- ---------------------------------------------------------------------------

/-- What a materialized snapshot says of its rows. -/
structure ExactAggregates (snapshot : MempoolSnapshot) : Prop where
  transactionCount : snapshot.transactionCount = snapshot.transactions.length
  totalVsize : snapshot.totalVsize = (snapshot.transactions.map MempoolEntry.vsize).sum
  totalVsizeSafe : snapshot.totalVsize ≤ 2 ^ 53 - 1
  summaries : List.Forall₂ (ExactSummary snapshot.transactions) classifierCatalog
    snapshot.classificationSummaries
  statuses : ∀ status, snapshot.bip110Summary.countOf status =
    snapshot.transactions.countP (hasStatus status)
  unclassified : ∀ summary ∈ snapshot.classificationSummaries,
    summary.unclassifiedCount = snapshot.bip110Summary.unclassifiedCount
  policy : ∀ summary ∈ snapshot.classificationSummaries,
    summary.classifierId = knotsBip110ClassifierId →
      ∀ status, summary.labelCounts[policyLabel status]? =
        some (snapshot.bip110Summary.countOf status)
  progress : ∀ state, let progress := ClassificationProgress.fromSnapshot state snapshot
    progress.classifiedCount + progress.unclassifiedCount = snapshot.transactionCount
  rows : ∀ entry ∈ snapshot.transactions, RowFacts entry

/-- Whatever membership and records `materialize_retained` accepts: the
snapshot's aggregates are exact, its rows are those of the membership, and
each agrees with its record. -/
theorem snapshot_aggregates_exact (membership : MempoolSnapshot) (revision : Nat)
    (classifications : TransactionClassifications) (observation : MempoolObservation)
    (h : MempoolObservation.materializeRetained membership revision classifications =
      .ok observation) :
    ExactAggregates observation.snapshot ∧
      observation.snapshot.transactions.map MempoolEntry.txid =
        membership.transactions.map MempoolEntry.txid ∧
      observation.snapshot.transactions.map MempoolEntry.vsize =
        membership.transactions.map MempoolEntry.vsize ∧
      ∀ entry ∈ observation.snapshot.transactions, RowAgrees classifications entry := by
  have hRows := fun entry => @rowFacts_materialized membership revision classifications observation
    h entry
  have hAgree := fun entry => @rowAgrees_materialized membership revision classifications
    observation h entry
  obtain ⟨hAccepted, -, -, rfl⟩ := materializeRetained_eq_ok.mp h
  let rows := membership.transactions.map (materializeEntry classifications)
  have hExact : ∀ descriptor, ExactSummary rows descriptor (classifierSummary rows descriptor) :=
    exactSummary_classifierSummary fun entry hMem => (hRows entry hMem).labels_nodup
  have hSummaries : List.Forall₂ (ExactSummary rows) classifierCatalog
      (classifierCatalog.map (classifierSummary rows)) :=
    List.forall₂_map_right_iff.mpr (List.forall₂_same.mpr fun descriptor _ => hExact descriptor)
  have hVsizes : rows.map MempoolEntry.vsize = membership.transactions.map MempoolEntry.vsize := by
    simp [rows, Function.comp_def]
  refine ⟨⟨rfl, rfl, ?_, hSummaries, countOf_fromTransactions rows, ?_, ?_, fun state =>
    total_fromTransactions rows, hRows⟩, ?_, hVsizes, hAgree⟩
  · show (rows.map MempoolEntry.vsize).sum ≤ maxSafeJsonInteger
    rw [hVsizes]
    exact hAccepted.vsizeSafe
  · intro summary hMem
    obtain ⟨descriptor, hDescriptor, rfl⟩ := List.mem_map.mp hMem
    refine (hExact descriptor).unclassified.trans (Eq.trans ?_ (unclassified_fromTransactions rows).symm)
    refine List.countP_congr fun entry hEntry => ?_
    rw [(hRows entry hEntry).isNone_result hDescriptor]
  · intro summary hMem hId status
    obtain ⟨descriptor, hDescriptor, rfl⟩ := List.mem_map.mp hMem
    have hLens : descriptor.id = knotsBip110ClassifierId :=
      (hExact descriptor).lens.symm.trans hId
    refine ((hExact descriptor).labels (policyLabel status)).trans ?_
    rw [if_pos (policyLabel_declared hDescriptor hLens status), hLens]
    refine congrArg some (Eq.trans ?_ (countOf_fromTransactions rows status).symm)
    refine List.countP_congr fun entry hEntry => ?_
    rw [(hRows entry hEntry).carries_policyLabel status]
  · simp [materializedSnapshot, snapshotOf, Function.comp_def]

/-- One payment, classified. -/
theorem snapshot_aggregates_exact_payment :
    let _ := MempoolAtlas.Reference.crate [MempoolAtlas.Reference.payment]
    ∃ observation, MempoolObservation.materializeRetained Classification.Reference.paymentMembership
        1 Classification.Reference.paymentClassifications = .ok observation ∧
      ExactAggregates observation.snapshot := by
  intro _
  have hMade := @Classification.Reference.payment_materializes _ 1 (by decide)
  exact ⟨_, hMade, (snapshot_aggregates_exact _ _ _ _ hMade).1⟩

end MempoolAtlas.Model
