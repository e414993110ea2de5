import MempoolAtlas.Web.SnapshotTally

/-!
# Reading back a snapshot

`parseMempoolSnapshot` on the JSON of a snapshot the server accepted: its header and
its summaries pass every check, so it is the label and the rows that decide.

## Results

* `parseBip110Summary_json`, `parseClassifierSummaries_json` — the summaries are read back.
* `parseMempoolSnapshot_json` — a snapshot is, unless its label is blank or a row is refused.
-/

namespace MempoolAtlas.Web

open Checks Model Json

-- ---------------------------------------------------------------------------
-- The summaries
-- ---------------------------------------------------------------------------

/-- An object of distinct keys has under each its value. -/
theorem lookup_of_mem {entries : List (String × Nat)} (hDistinct : (entries.map Prod.fst).Nodup)
    {key : String} {n : Nat} (hMem : (key, n) ∈ entries) :
    (entries.map fun entry => (entry.1, number entry.2)).lookup key = some (number n) := by
  induction entries with
  | nil => cases hMem
  | cons entry rest ih =>
    obtain ⟨hNew, hRest⟩ := List.nodup_cons.mp hDistinct
    rcases List.mem_cons.mp hMem with rfl | hMem
    · simp
    · have hNe : ¬ key = entry.1 := fun hEq =>
        hNew (hEq ▸ List.mem_map.mpr ⟨_, hMem, rfl⟩)
      have hStep : (key == entry.1) = false := by simpa using hNe
      rw [List.map_cons, List.lookup_cons, hStep]
      exact ih hRest hMem

theorem keys_toList_nodup (counts : BTreeMap String Nat) : (counts.toList.map Prod.fst).Nodup := by
  rw [Std.ExtTreeMap.map_fst_toList_eq_keys]
  exact Std.ExtTreeMap.nodup_keys

theorem mem_keys_toList {counts : BTreeMap String Nat} {key : String} :
    key ∈ counts.toList.map Prod.fst ↔ key ∈ counts := by
  rw [Std.ExtTreeMap.map_fst_toList_eq_keys, Std.ExtTreeMap.mem_keys]

/-- An object has exactly the expected keys, in whichever order. -/
theorem hasOnlyKeys_of_perm {fields : List (String × Json)} {expectedKeys : List String}
    (h : (fields.map Prod.fst).Perm expectedKeys) :
    hasOnlyKeys (some (.obj fields)) expectedKeys = true := by
  unfold hasOnlyKeys
  rw [show keys (some (.obj fields)) = fields.map Prod.fst from rfl, Bool.and_eq_true,
    beq_iff_eq, List.all_eq_true]
  exact ⟨h.length_eq, fun key hKey => List.contains_iff_mem.mpr (h.mem_iff.mp hKey)⟩

theorem ofList_lookups {expected : List String} {counts : BTreeMap String Nat}
    (hKeys : ∀ key, key ∈ counts ↔ key ∈ expected) :
    (Std.ExtTreeMap.ofList (expected.map fun key => (key, counts.getD key 0)) :
      BTreeMap String Nat) = counts := by
  apply Std.ExtTreeMap.ext_getElem?
  intro key
  cases hFound : (Std.ExtTreeMap.ofList (expected.map fun key => (key, counts.getD key 0)) :
      BTreeMap String Nat)[key]? with
  | some n =>
    obtain ⟨other, hOther, hEq⟩ := List.mem_map.mp (BTreeMap.of_getElem?_ofList hFound)
    obtain ⟨rfl, rfl⟩ := Prod.mk.inj hEq
    obtain ⟨m, hm⟩ := Option.isSome_iff_exists.mp
      (Std.ExtTreeMap.mem_iff_isSome_getElem?.mp ((hKeys other).mpr hOther))
    rw [Std.ExtTreeMap.getD_eq_getD_getElem?, hm]
    rfl
  | none =>
    have hNot : key ∉ expected := by
      intro hMem
      have hIn : key ∈ (Std.ExtTreeMap.ofList (expected.map fun key => (key, counts.getD key 0)) :
          BTreeMap String Nat) := by
        rw [BTreeMap.mem_ofList_iff, List.map_map]
        exact List.mem_map.mpr ⟨key, hMem, rfl⟩
      rw [Std.ExtTreeMap.mem_iff_isSome_getElem?, hFound] at hIn
      simp at hIn
    rw [Std.ExtTreeMap.getElem?_eq_none fun hMem => hNot ((hKeys key).mp hMem)]

/-- A tallied summary is read back. -/
theorem parseClassifierSummary_json {descriptor : ClassifierDescriptor} {rows : Nat}
    {summary : ClassifierSummary} (hTallied : Tallied descriptor rows summary)
    (hDistinct : (descriptor.labels.map (·.key)).Nodup) (hRows : rows ≤ maxSafeInteger) :
    parseClassifierSummary (some (classifierSummaryJson summary)) descriptor rows =
      .ok summary := by
  have hTotal := hTallied.total
  have hOnly : hasOnlyKeys (some (.obj (summary.labelCounts.toList.map fun entry =>
      (entry.1, number entry.2)))) (descriptor.labels.map (·.key)) = true := by
    refine hasOnlyKeys_of_perm ?_
    rw [List.map_map]
    refine (List.perm_ext_iff_of_nodup (keys_toList_nodup _) hDistinct).mpr fun key => ?_
    rw [← hTallied.keys]
    exact mem_keys_toList
  have hEach : ∀ key ∈ descriptor.labels.map (·.key), ∀ entry,
      (nonNegativeInteger? ((summary.labelCounts.toList.map fun entry =>
        (entry.1, number entry.2)).lookup key)).map (fun count => (key, count)) = some entry ↔
      True ∧ entry = (key, summary.labelCounts.getD key 0) := by
    intro key hKey entry
    obtain ⟨n, hn⟩ := Option.isSome_iff_exists.mp
      (Std.ExtTreeMap.mem_iff_isSome_getElem?.mp ((hTallied.keys key).mpr hKey))
    have hLookup := lookup_of_mem (keys_toList_nodup summary.labelCounts)
      (BTreeMap.mem_toList.mpr hn)
    have hSafe : n ≤ maxSafeInteger := (hTallied.bounded key n hn).trans hRows
    rw [hLookup, Std.ExtTreeMap.getD_eq_getD_getElem?, hn, true_and, Option.map_eq_some_iff]
    constructor
    · rintro ⟨m, hm, rfl⟩
      obtain ⟨-, rfl⟩ := nonNegativeInteger?_number.mp hm
      rfl
    · rintro rfl
      exact ⟨n, nonNegativeInteger?_number.mpr ⟨hSafe, rfl⟩, rfl⟩
  have hCounts : ∀ counts, (descriptor.labels.map (·.key)).mapM (fun key =>
      (nonNegativeInteger? ((summary.labelCounts.toList.map fun entry =>
        (entry.1, number entry.2)).lookup key)).map fun count => (key, count)) =
      some counts ↔ counts = (descriptor.labels.map (·.key)).map fun key =>
        (key, summary.labelCounts.getD key 0) := by
    intro counts
    rw [mapM_eq_some_iff hEach]
    exact ⟨And.right, fun h => ⟨fun _ _ => trivial, h⟩⟩
  have hRecord : ∀ message, ensureRecord (some (classifierSummaryJson summary)) ["classifier_id",
      "complete_count", "partial_count", "unclassified_count", "label_counts"] message = .ok () :=
    fun message => ensureRecord_obj rfl
  have hObject : ∀ fields, isRecord (some (.obj fields)) = true := fun fields => rfl
  simp only [parseClassifierSummary, hRecord, bind_eq_ok, exists_const, true_and]
  simp only [classifierSummaryJson, Json.get, List.lookup, String.reduceBEq, beq_self_eq_true,
    require_eq_ok, ensure_eq_ok, string?_str, nonNegativeInteger?_number, hTallied.lens,
    Option.some.injEq, exists_eq_left', exists_const, bne_eq_false_iff_eq, and_assoc,
    exists_and_left, exists_eq_left, hTotal, true_and, hObject, hOnly, hCounts,
    ofList_lookups hTallied.keys, Bool.not_true, pure, Except.pure, Except.ok.injEq]
  refine ⟨by omega, by omega, by omega, ?_⟩
  rw [← hTallied.lens]

/-- A summary agrees with the counts it was made from. -/
theorem summaryMismatch_countsOf (summary : ClassifierSummary) :
    summaryMismatch summary (countsOf summary) = false := by
  have hLabels : (summary.labelCounts.toList.any fun entry =>
      summary.labelCounts[entry.1]? != some entry.2) = false := by
    rw [List.any_eq_false]
    intro entry hEntry
    rw [BTreeMap.mem_toList.mp hEntry]
    simp
  simp only [summaryMismatch, countsOf, bne_self_eq_false, Bool.or_self, Bool.false_or]
  exact hLabels

/-- The status counts of a summary. -/
def statusCountsOf (summary : Bip110Summary) : StatusCounts where
  compatible := summary.compatibleCount
  violating := summary.violatingCount
  indeterminate := summary.indeterminateCount
  unclassified := summary.unclassifiedCount

/-- The counts of the statuses are those of the summary. -/
theorem statusCounts_fromTransactions (rows : List MempoolEntry) :
    rows.foldl StatusCounts.add {} = statusCountsOf (Bip110Summary.fromTransactions rows) := by
  have hStep : ∀ (summary : Bip110Summary) (entry : MempoolEntry),
      (statusCountsOf summary).add entry = statusCountsOf (summary.count entry) := by
    intro summary entry
    unfold StatusCounts.add Bip110Summary.count
    cases entry.bip110.map Bip110Assessment.status with
    | none => rfl
    | some status => cases status <;> rfl
  have hRun : ∀ summary, rows.foldl StatusCounts.add (statusCountsOf summary) =
      statusCountsOf (rows.foldl Bip110Summary.count summary) := by
    induction rows with
    | nil => exact fun _ => rfl
    | cons entry rest ih =>
      intro summary
      rw [List.foldl_cons, List.foldl_cons, hStep, ih]
  exact hRun {
    evaluatorId := bip110EvaluatorId, evaluatorVersion := bip110EvaluatorVersion
    scope := .knotsMempoolPolicy, compatibleCount := 0, violatingCount := 0
    indeterminateCount := 0, unclassifiedCount := 0 }

/-- What the summary of `rows` rows says. -/
structure Summarized (rows : Nat) (summary : Bip110Summary) : Prop where
  evaluatorId : summary.evaluatorId = bip110EvaluatorId
  evaluatorVersion : summary.evaluatorVersion = bip110EvaluatorVersion
  total : summary.compatibleCount + summary.violatingCount + summary.indeterminateCount +
    summary.unclassifiedCount = rows

/-- The summary is made from the rows. -/
theorem summarized_fromTransactions (rows : List MempoolEntry) :
    Summarized rows.length (Bip110Summary.fromTransactions rows) := by
  induction rows using List.reverseRecOn with
  | nil => exact ⟨rfl, rfl, rfl⟩
  | append_singleton rows entry ih =>
    have hAppend : Bip110Summary.fromTransactions (rows ++ [entry]) =
        (Bip110Summary.fromTransactions rows).count entry := by
      unfold Bip110Summary.fromTransactions
      rw [List.foldl_append]
      rfl
    obtain ⟨hId, hVersion, hTotal⟩ := ih
    rw [hAppend, List.length_append, List.length_singleton]
    unfold Bip110Summary.count
    split
    · exact ⟨hId, hVersion, by simp only; omega⟩
    · exact ⟨hId, hVersion, by simp only; omega⟩
    · exact ⟨hId, hVersion, by simp only; omega⟩
    · exact ⟨hId, hVersion, by simp only; omega⟩

/-- A summary of the rows is read back. -/
theorem parseBip110Summary_json {rows : Nat} {summary : Bip110Summary}
    (hSummarized : Summarized rows summary) (hRows : rows ≤ maxSafeInteger) :
    parseBip110Summary (some (bip110SummaryJson summary)) = .ok summary := by
  have hTotal := hSummarized.total
  have hId : isBlank summary.evaluatorId = false := by
    rw [hSummarized.evaluatorId]
    exact isBlank_ofList rfl
  have hVersion : isBlank summary.evaluatorVersion = false := by
    rw [hSummarized.evaluatorVersion]
    exact isBlank_ofList rfl
  have hRecord : ∀ message, ensureRecord (some (bip110SummaryJson summary)) ["evaluator_id",
      "evaluator_version", "scope", "compatible_count", "violating_count", "indeterminate_count",
      "unclassified_count"] message = .ok () := fun message => ensureRecord_obj rfl
  have hScope : constant? scopeName [.knotsMempoolPolicy]
      (some (.str (scopeName summary.scope))) = some summary.scope := by
    cases summary.scope
    rfl
  simp only [parseBip110Summary, hRecord, bind_eq_ok, exists_const, true_and]
  simp only [bip110SummaryJson, Json.get, List.lookup, String.reduceBEq, beq_self_eq_true,
    require_eq_ok, nonBlankString?_str, hId, hVersion, hScope, nonNegativeInteger?_number,
    and_assoc, exists_and_left, exists_eq_left, true_and, pure, Except.pure]
  exact ⟨by omega, by omega, by omega, by omega, summary.scope, trivial⟩

-- ---------------------------------------------------------------------------
-- Snapshots
-- ---------------------------------------------------------------------------

theorem length_le_utf8Len (cs : List Char) : cs.length ≤ String.utf8Len cs := by
  induction cs with
  | nil => exact Nat.zero_le _
  | cons c rest ih =>
    have hSize := c.utf8Size_pos
    rw [List.length_cons, String.utf8Len_cons]
    omega

/-- A source identifier the server takes is one the browser takes. -/
theorem isSourceId_of_validated {value : String} (h : validateSourceId value = .ok ()) :
    isSourceId value = true := by
  unfold validateSourceId at h
  simp only [ensure_eq_ok, Bool.or_eq_false_iff, decide_eq_false_iff_not, Nat.not_lt,
    Bool.not_eq_false', beq_eq_false_iff_ne] at h
  obtain ⟨⟨⟨⟨hSome, hDot⟩, hDots⟩, hSize⟩, hChars⟩ := h
  have hLength : value.toList.length ≤ 64 := by
    rw [← String.utf8Len_toList] at hSize
    exact (length_le_utf8Len value.toList).trans hSize
  have hPositive : 1 ≤ value.toList.length := by
    rcases Nat.eq_zero_or_pos value.toList.length with hZero | hPos
    · rw [List.length_eq_zero_iff, String.toList_eq_nil_iff] at hZero
      rw [hZero] at hSome
      cases hSome
    · exact hPos
  simp only [isSourceId, Bool.and_eq_true, bne_iff_ne, decide_eq_true_eq]
  exact ⟨⟨⟨⟨hDot, hDots⟩, hPositive⟩, hLength⟩, hChars⟩

section Snapshots

variable {sourceId sourceLabel : String} {started completed duration revision : Nat}
  {tip : ChainTip} {rows : List MempoolEntry}

/-- An accepted snapshot at a revision, before its rows are read. -/
def headerOf (snapshot : MempoolSnapshot) : MempoolSnapshot :=
  { snapshot with classificationSummaries := [], transactions := [] }

variable (hParts : AcceptedParts sourceId sourceLabel started completed duration tip rows)
  (hRevision : revision ≤ maxSafeInteger) (hHash : isHash tip.hash = true)

include hParts hRevision hHash

/-- A header is read back. -/
theorem parseSnapshotHeader_json {header snapshot : MempoolSnapshot}
    (hSnapshot : snapshot = { snapshotOf sourceId sourceLabel started completed duration tip rows
      with classificationRevision := revision }) :
    parseSnapshotHeader (some (snapshotJson snapshot)) = .ok header ↔
      isBlank sourceLabel = false ∧ header = headerOf snapshot := by
  have hRecord : ∀ message, ensureRecord (some (snapshotJson snapshot)) ["source_id",
      "source_label", "collection_started_at_ms", "collection_completed_at_ms",
      "collection_duration_ms", "observed_at_ms", "classification_revision", "chain_tip",
      "transaction_count", "total_vsize", "classifier_catalog", "classification_summaries",
      "bip110_summary", "transactions"] message = .ok () := fun message => ensureRecord_obj rfl
  have hStarted : started ≤ maxSafeInteger := hParts.startedSafe
  have hCompleted : completed ≤ maxSafeInteger := hParts.completedSafe
  have hDuration : duration ≤ maxSafeInteger := hParts.durationSafe
  have hHeight : tip.height ≤ maxSafeInteger := hParts.heightSafe
  have hCount : rows.length ≤ maxSafeInteger := hParts.countSafe
  have hVsize : (rows.map MempoolEntry.vsize).sum ≤ maxSafeInteger := hParts.vsizeSafe
  have hTiming : (decide (completed < started) || duration != completed - started ||
      completed != completed) = false := by
    have hOrdered := hParts.ordered
    have hEq := hParts.duration
    simp only [bne_self_eq_false, Bool.or_false, Bool.or_eq_false_iff, decide_eq_false_iff_not,
      bne_eq_false_iff_eq]
    omega
  have hSummary := parseBip110Summary_json (summarized_fromTransactions rows) hCount
  simp only [parseSnapshotHeader, hRecord, bind_eq_ok, exists_const, true_and]
  subst hSnapshot
  simp only [snapshotJson, snapshotOf, Json.get, List.lookup, String.reduceBEq,
    beq_self_eq_true, require_eq_ok, ensure_eq_ok, filter_string?_str, nonBlankString?_str,
    isSourceId_of_validated hParts.sourceId, nonNegativeInteger?_number, hStarted, hCompleted,
    hDuration, hCount, hVsize, hRevision, array?_arr, Option.isNone_some, parseChainTip_json,
    hHeight, hHash, parseClassifierCatalog_json, hSummary, hTiming, and_assoc, exists_and_left,
    exists_eq_left, exists_const, true_and, Except.ok.injEq, exists_eq_left', pure, Except.pure]
  rw [eq_comm (a := header)]
  rfl

omit hRevision hHash in
/-- The summaries of the lenses are read back. -/
theorem parseClassifierSummaries_json (hReadable : ∀ entry ∈ rows,
      EntryReadable classifierCatalog entry) :
    (((classifierSummaries rows).map classifierSummaryJson).zip classifierCatalog).mapM
        (fun (summary, descriptor) => parseClassifierSummary (some summary) descriptor
          rows.length) =
      .ok (classifierSummaries rows) := by
  have hEach : ∀ descriptor ∈ classifierCatalog, ∀ parsed,
      parseClassifierSummary (some (classifierSummaryJson (classifierSummary rows descriptor)))
          descriptor rows.length = .ok parsed ↔
        True ∧ parsed = classifierSummary rows descriptor := by
    intro descriptor hMem parsed
    rw [parseClassifierSummary_json (tallied_rows classifierCatalog_ids hReadable hMem)
      (classifierCatalog_readable descriptor hMem).labelsDistinct hParts.countSafe]
    simp [eq_comm]
  have hZip : ((classifierSummaries rows).map classifierSummaryJson).zip classifierCatalog =
      classifierCatalog.map fun descriptor =>
        (classifierSummaryJson (classifierSummary rows descriptor), descriptor) := by
    rw [classifierSummaries, List.map_map]
    exact (List.map_prod_right_eq_zip).symm
  rw [hZip, List.mapM_map]
  exact (mapM_eq_ok_iff hEach).mpr ⟨fun _ _ => trivial, rfl⟩

/-- An accepted snapshot is read as it is, unless its label is blank or a row is refused. -/
theorem parseMempoolSnapshot_json {parsed snapshot : MempoolSnapshot}
    (hSnapshot : snapshot = { snapshotOf sourceId sourceLabel started completed duration tip rows
      with classificationRevision := revision }) :
    parseMempoolSnapshot (some (snapshotJson snapshot)) = .ok parsed ↔
      (isBlank sourceLabel = false ∧ ∀ entry ∈ rows, EntryReadable classifierCatalog entry) ∧
        parsed = snapshot := by
  have hHeader : ∀ header, parseSnapshotHeader (some (snapshotJson snapshot)) = .ok header ↔
      isBlank sourceLabel = false ∧ header = headerOf snapshot := fun header =>
    parseSnapshotHeader_json hParts hRevision hHash hSnapshot
  have hRows : get "transactions" (some (snapshotJson snapshot)) =
      some (.arr (snapshot.transactions.map entryJson)) := rfl
  have hSummaries : get "classification_summaries" (some (snapshotJson snapshot)) =
      some (.arr (snapshot.classificationSummaries.map classifierSummaryJson)) := rfl
  have hLoop : ∀ tally, (rows.map entryJson).foldlM (tallyTransaction classifierCatalog)
      (tallyOf classifierCatalog []) = .ok tally ↔
        (∀ entry ∈ rows, EntryReadable classifierCatalog entry) ∧
          tally = tallyOf classifierCatalog rows := fun tally =>
    foldlM_tallyTransaction classifierCatalog_ids (fun _ h => absurd h List.not_mem_nil)
      hParts.sorted hParts.vsizeSafe
  have hStatus : (Bip110Summary.fromTransactions rows).compatibleCount =
        (rows.foldl StatusCounts.add {}).compatible ∧
      (Bip110Summary.fromTransactions rows).violatingCount =
        (rows.foldl StatusCounts.add {}).violating ∧
      (Bip110Summary.fromTransactions rows).indeterminateCount =
        (rows.foldl StatusCounts.add {}).indeterminate ∧
      (Bip110Summary.fromTransactions rows).unclassifiedCount =
        (rows.foldl StatusCounts.add {}).unclassified := by
    rw [statusCounts_fromTransactions]
    exact ⟨rfl, rfl, rfl, rfl⟩
  have hAgree : ((classifierSummaries rows).zip (tallyOf classifierCatalog rows).resultCounts).any
      (fun pair => summaryMismatch pair.1 pair.2) = false := by
    rw [List.any_eq_false]
    rintro ⟨summary, counts⟩ hPair
    obtain ⟨index, hIndex⟩ := List.getElem?_of_mem hPair
    obtain ⟨hSummary, hCounts⟩ := List.getElem?_zip_eq_some.mp hIndex
    rw [classifierSummaries, List.getElem?_map, Option.map_eq_some_iff] at hSummary
    obtain ⟨descriptor, hAt, rfl⟩ := hSummary
    rw [tallyOf, List.getElem?_map, hAt, Option.map_some, Option.some.injEq] at hCounts
    rw [← hCounts, summaryMismatch_countsOf]
    exact Bool.false_ne_true
  simp only [parseMempoolSnapshot, bind_eq_ok, hHeader, and_assoc, exists_and_left, exists_eq_left,
    hRows, hSummaries, array?_arr, require_eq_ok, Option.some.injEq, exists_eq_left', ensure_eq_ok,
    exists_const]
  subst hSnapshot
  dsimp only [headerOf, snapshotOf]
  constructor
  · rintro ⟨hLabel, tally, hTally, -, -, -, summaries, hParsed, -, -, hResult⟩
    obtain ⟨hReadable, rfl⟩ := (hLoop tally).mp hTally
    rw [parseClassifierSummaries_json hParts hReadable, Except.ok.injEq] at hParsed
    subst hParsed
    exact ⟨hLabel, hReadable, (Except.ok.inj hResult).symm⟩
  · rintro ⟨hLabel, hReadable, rfl⟩
    refine ⟨hLabel, _, (hLoop _).mpr ⟨hReadable, rfl⟩, by simp, by simp [tallyOf], ?_, _,
      parseClassifierSummaries_json hParts hReadable, ?_, hAgree, rfl⟩
    · simp [classifierSummaries]
    · simp [tallyOf, ← hStatus.1, ← hStatus.2.1, ← hStatus.2.2.1, ← hStatus.2.2.2]

end Snapshots

end MempoolAtlas.Web
