import MempoolAtlas.Web.Comparison
import MempoolAtlas.Web.SnapshotReading

/-!
# Accepted snapshots

What the rows of a snapshot are known for once `parseMempoolSnapshot` has
accepted any JSON at all: their order, their identifiers and the coupling of
assessment, structure and results.

## Results

* `acceptedRow_of_parsed` — a parsed row has its parts coupled.
* `AcceptedSnapshot.rows` — the rows of an accepted snapshot are sorted and accepted.
-/

namespace MempoolAtlas.Web

open Checks Json Model

/-- A result of a lens that was read. -/
structure AcceptedResult (descriptor : ClassifierDescriptor) (result : ClassificationResult) :
    Prop where
  lens : result.classifierId = descriptor.id
  declared : ∀ label ∈ result.labels, label ∈ descriptor.labels.map (·.key)
  complete : result.state = .complete → result.missingFacts = [] ∧ result.labels ≠ []
  incomplete : result.state = .partialResult → result.missingFacts ≠ []

/-- A row that was read. -/
structure AcceptedRow (catalog : List ClassifierDescriptor) (row : MempoolEntry) : Prop where
  txid : isHash row.txid = true
  vsize : 0 < row.vsize
  assessment : ∀ assessment ∈ row.bip110, isInconsistent assessment = false ∧
    assessment.violatedRules.Nodup ∧ assessment.unknownRules.Nodup
  coupled : row.transactionStructure.isNone = row.bip110.isNone
  nothing : row.bip110 = none → row.classifications = []
  results : row.bip110 ≠ none →
    List.Forall₂ AcceptedResult catalog row.classifications

theorem parseRuleIds_nodup {value : Option Json} {field : String} {rules : List Bip110RuleId}
    (h : parseRuleIds value field = .ok rules) : rules.Nodup := by
  simp only [parseRuleIds, bind_eq_ok, ensure_eq_ok, exists_const, pure, Except.pure,
    Except.ok.injEq] at h
  obtain ⟨_, -, found, -, hDistinct, rfl⟩ := h
  rw [Bool.not_eq_false', decide_eq_true_eq] at hDistinct
  exact hDistinct

/-- A parsed assessment is consistent, its rules distinct. -/
theorem parsed_assessment {value : Option Json} {bip110 : Option Bip110Assessment}
    (h : parseBip110Assessment value = .ok bip110) :
    ∀ assessment ∈ bip110, isInconsistent assessment = false ∧ assessment.violatedRules.Nodup ∧
      assessment.unknownRules.Nodup := by
  rintro assessment rfl
  unfold parseBip110Assessment at h
  split at h
  · cases h
  · simp only [bind_eq_ok, ensure_eq_ok, exists_const, pure, Except.pure, Except.ok.injEq,
      Option.some.injEq] at h
    obtain ⟨_, -, status, -, primary, -, violated, hViolated, unknown, hUnknown, hConsistent, rfl⟩ := h
    exact ⟨hConsistent, parseRuleIds_nodup hViolated, parseRuleIds_nodup hUnknown⟩

/-- A parsed result is accepted by its lens. -/
theorem acceptedResult_of_parsed {value : Option Json} {descriptor : ClassifierDescriptor}
    {result : ClassificationResult} (h : parseClassificationResult value descriptor = .ok result) :
    AcceptedResult descriptor result := by
  simp only [parseClassificationResult, bind_eq_ok, ensure_eq_ok, exists_const, pure, Except.pure,
    Except.ok.injEq, Bool.or_eq_false_iff, bne_eq_false_iff_eq] at h
  obtain ⟨_, -, id, -, hLens, state, -, primary, -, -, labels, -, missing, -,
    ⟨⟨⟨⟨hLabelled, hDeclared⟩, -⟩, hComplete⟩, hIncomplete⟩, rfl⟩ := h
  refine ⟨hLens, fun label hMem => ?_, fun hState => ⟨?_, ?_⟩, fun hState => ?_⟩
  · have hLabel := List.any_eq_false.mp hDeclared label hMem
    rw [Bool.not_eq_true, Bool.not_eq_false'] at hLabel
    exact List.contains_iff_mem.mp hLabel
  · subst hState
    simpa using hComplete
  · subst hState
    simpa using hLabelled
  · subst hState
    simpa using hIncomplete

/-- Parsed results are accepted by the catalog. -/
theorem acceptedResults_of_parsed {value : Option Json} {catalog : List ClassifierDescriptor}
    {results : List ClassificationResult} (h : parseClassificationResults value catalog = .ok results) :
    List.Forall₂ AcceptedResult catalog results := by
  simp only [parseClassificationResults, bind_eq_ok, ensure_eq_ok, exists_const, require_eq_ok,
    bne_eq_false_iff_eq] at h
  obtain ⟨items, -, hLength, hMap⟩ := h
  have hZip : (items.zip catalog).map Prod.snd = catalog := List.map_snd_zip hLength.ge
  rw [← hZip, List.forall₂_map_left_iff]
  exact (mapM_eq_ok.mp hMap).imp fun _ _ hParsed => acceptedResult_of_parsed hParsed

/-- A parsed row is accepted. -/
theorem acceptedRow_of_parsed {value : Option Json} {catalog : List ClassifierDescriptor}
    {row : MempoolEntry} (h : parseTransaction value catalog = .ok row) :
    AcceptedRow catalog row := by
  simp only [parseTransaction, bind_eq_ok, ensure_eq_ok, exists_const, require_eq_ok, pure,
    Except.pure, Except.ok.injEq] at h
  obtain ⟨_, -, txid, hTxid, wtxid, -, vsize, -, hVsize, weight, -, fee, -, entered, -, ancestors, -,
    ancestorVsize, -, ancestorFee, -, descendants, -, descendantVsize, -, replaceable, -, -, -,
    facts, -, bip110, hBip110, hCoupled, results, hResults, -, rfl⟩ := h
  refine ⟨?_, Nat.pos_of_ne_zero (beq_eq_false_iff_ne.mp hVsize), parsed_assessment hBip110,
    bne_eq_false_iff_eq.mp hCoupled, fun hNone => ?_, fun hSome => ?_⟩
  · exact (Option.filter_eq_some_iff.mp hTxid).2
  · dsimp only at hNone
    subst hNone
    simp only [parseRowResults, bind_eq_ok, ensure_eq_ok, exists_const, pure, Except.pure,
      Except.ok.injEq] at hResults
    obtain ⟨_, -, -, rfl⟩ := hResults
    rfl
  · obtain ⟨assessment, rfl⟩ := Option.ne_none_iff_exists'.mp hSome
    exact acceptedResults_of_parsed hResults

-- ---------------------------------------------------------------------------
-- The loop over the rows
-- ---------------------------------------------------------------------------

/-- What the loop has made sure of the rows it has read. -/
structure RowsRead (catalog : List ClassifierDescriptor) (tally : Tally) : Prop where
  sorted : TxidSorted tally.transactions
  previous : tally.previousTxid = tally.transactions.getLast?.map MempoolEntry.txid
  rows : ∀ row ∈ tally.transactions, AcceptedRow catalog row
  totalVsize : tally.totalVsize = (tally.transactions.map MempoolEntry.vsize).sum
  safe : tally.totalVsize ≤ maxSafeInteger

/-- A row after the last one keeps the order. -/
theorem TxidSorted.append_last {rows : List MempoolEntry} {row : MempoolEntry}
    (hSorted : TxidSorted rows)
    (hLast : ∀ last, rows.getLast? = some last → last.txid < row.txid) :
    TxidSorted (rows ++ [row]) := by
  refine List.pairwise_append.mpr
    ⟨hSorted, List.pairwise_singleton _ row, fun other hOther next hNext => ?_⟩
  obtain rfl := List.mem_singleton.mp hNext
  rcases List.eq_nil_or_concat rows with rfl | ⟨front, last, rfl⟩
  · cases hOther
  · rw [List.concat_eq_append] at hSorted hOther hLast
    have hBefore : last.txid < next.txid := hLast last List.getLast?_concat
    rcases List.mem_append.mp hOther with hFront | hSame
    · exact ((List.pairwise_append.mp hSorted).2.2 other hFront last
        (List.mem_singleton_self last)).trans hBefore
    · obtain rfl := List.mem_singleton.mp hSame
      exact hBefore

/-- One more row is read. -/
theorem rowsRead_tallyTransaction {catalog : List ClassifierDescriptor} {tally next : Tally}
    {item : Json} (hRead : RowsRead catalog tally)
    (h : tallyTransaction catalog tally item = .ok next) : RowsRead catalog next := by
  simp only [tallyTransaction, bind_eq_ok, ensure_eq_ok, exists_const, pure, Except.pure,
    Except.ok.injEq] at h
  obtain ⟨row, hRow, hOrder, hSafe, counts, -, rfl⟩ := h
  have hAccepted := acceptedRow_of_parsed hRow
  refine ⟨hRead.sorted.append_last fun last hLast => ?_, ?_, fun other hMem => ?_, ?_, ?_⟩
  · rw [hRead.previous, hLast] at hOrder
    simpa using hOrder
  · rw [List.getLast?_concat]
    rfl
  · rcases List.mem_append.mp hMem with hOld | hNew
    · exact hRead.rows other hOld
    · obtain rfl := List.mem_singleton.mp hNew
      exact hAccepted
  · show tally.totalVsize + row.vsize = _
    rw [hRead.totalVsize, List.map_append, List.sum_append, List.map_singleton, List.sum_singleton]
  · simpa using hSafe

/-- **All rows are read**, in order and accepted. -/
theorem rowsRead_foldlM {catalog : List ClassifierDescriptor} {items : List Json}
    {tally final : Tally} (hRead : RowsRead catalog tally)
    (h : items.foldlM (tallyTransaction catalog) tally = .ok final) : RowsRead catalog final := by
  induction items generalizing tally with
  | nil =>
    obtain rfl : tally = final := by simpa [pure, Except.pure] using h
    exact hRead
  | cons item rest ih =>
    rw [List.foldlM_cons, bind_eq_ok] at h
    obtain ⟨next, hNext, hRest⟩ := h
    exact ih (rowsRead_tallyTransaction hRead hNext) hRest

/-- A snapshot the browser has read from some JSON. -/
def AcceptedSnapshot (snapshot : MempoolSnapshot) : Prop :=
  ∃ value, parseMempoolSnapshot value = .ok snapshot

/-- The rows of an accepted snapshot are sorted and accepted. -/
theorem AcceptedSnapshot.rows {snapshot : MempoolSnapshot} (h : AcceptedSnapshot snapshot) :
    TxidSorted snapshot.transactions ∧
      (∀ row ∈ snapshot.transactions, AcceptedRow snapshot.classifierCatalog row) ∧
      (snapshot.transactions.map MempoolEntry.vsize).sum ≤ maxSafeInteger := by
  obtain ⟨value, h⟩ := h
  simp only [parseMempoolSnapshot, bind_eq_ok, ensure_eq_ok, exists_const, pure, Except.pure,
    Except.ok.injEq] at h
  obtain ⟨header, -, items, -, tally, hTally, -, -, -, -, -, -, -, -, -, rfl⟩ := h
  have hStart : RowsRead header.classifierCatalog {
      previousTxid := none, totalVsize := 0, statusCounts := {}
      resultCounts := header.classifierCatalog.map ResultCounts.ofDescriptor
      transactions := [] } := by
    refine ⟨List.Pairwise.nil, rfl, ?_, rfl, Nat.zero_le _⟩
    rintro row ⟨⟩
  have hRead := rowsRead_foldlM hStart hTally
  exact ⟨hRead.sorted, hRead.rows, hRead.totalVsize ▸ hRead.safe⟩

/-- What the server has accepted is read when its label and its rows are readable. -/
theorem acceptedSnapshot_snapshotOf {sourceId sourceLabel : String}
    {started completed duration : Nat} {tip : ChainTip} {rows : List MempoolEntry}
    (hParts : AcceptedParts sourceId sourceLabel started completed duration tip rows)
    (hHash : isHash tip.hash = true) (hLabel : isBlank sourceLabel = false)
    (hRows : ∀ entry ∈ rows, EntryReadable classifierCatalog entry) :
    AcceptedSnapshot (snapshotOf sourceId sourceLabel started completed duration tip rows) :=
  ⟨_, (parseMempoolSnapshot_json hParts (Nat.zero_le _) hHash rfl).mpr ⟨⟨hLabel, hRows⟩, rfl⟩⟩

-- ---------------------------------------------------------------------------
-- A mixed population
-- ---------------------------------------------------------------------------

/-- An assessment by its rules. -/
def assessmentOf (violated unknown : List Bip110RuleId) : Bip110Assessment where
  status :=
    if violated ≠ [] then .violating else if unknown ≠ [] then .indeterminate else .compatible
  primaryRule := violated.head?
  violatedRules := violated
  unknownRules := unknown

/-- A result with one label. -/
def resultOf (classifierId labelKey : String) (missingFacts : List String) :
    ClassificationResult where
  classifierId
  state := if missingFacts.isEmpty then .complete else .partialResult
  primaryLabel := some labelKey
  labels := [labelKey]
  missingFacts
  evidence := none

/-- A classified row with one label of each lens, partial where rules are unknown. -/
def classifiedRow (digit : Char) (vsize : Nat) (facts : TransactionStructure)
    (protocol : String) (violated unknown : List Bip110RuleId) : MempoolEntry :=
  let missing := fun fact => if unknown.isEmpty then [] else [fact]
  let assessment := assessmentOf violated unknown
  { sampleRow (String.ofList (List.replicate 64 digit)) vsize with
    transactionStructure := some facts
    classifications := [
      resultOf transactionPropertiesClassifierId "version_2" (missing "input_script_pubkeys"),
      resultOf transactionShapeClassifierId "other_shape" (missing "input_script_pubkeys"),
      resultOf dataProtocolsClassifierId protocol [],
      resultOf knotsBip110ClassifierId (statusName assessment.status) (missing "policy_facts")]
    bip110 := some assessment }

/-- Rows of every status, violating ones with all rules known and with some unknown. -/
def mixedRows : List MempoolEntry :=
  [ classifiedRow '1' 600 ⟨2, 1, 0, 5000, 100⟩ "inscription" [.outputSize, .elementSize] [],
    classifiedRow '2' 500 ⟨1, 2, 20, 4000, 0⟩ "runes" [.elementSize] [.taprootAnnex],
    classifiedRow '3' 400 ⟨1, 2, 40, 3000, 0⟩ "omni" [.elementSize] [],
    classifiedRow '4' 200 ⟨1, 2, 0, 2000, 0⟩ "no_detected_protocol" [] [],
    classifiedRow '5' 150 ⟨1, 1, 0, 1000, 0⟩ "no_detected_protocol" [] [.opSuccess],
    sampleRow (String.ofList (List.replicate 64 '6')) 100 ]

/-- Three of those transactions as another source has them, and one of its own. -/
def revisedRows : List MempoolEntry :=
  [ classifiedRow '2' 250 ⟨1, 2, 20, 4000, 0⟩ "runes" [.elementSize, .opSuccess] [],
    classifiedRow '3' 350 ⟨1, 2, 40, 3000, 0⟩ "omni" [.elementSize] [],
    classifiedRow '4' 450 ⟨1, 2, 0, 2000, 0⟩ "no_detected_protocol" [.controlBlockSize] [.opSuccess],
    classifiedRow '7' 150 ⟨1, 2, 0, 900, 0⟩ "stamps" [] [] ]

/-- A source with these rows. -/
def sampleSnapshot (sourceId : String) (rows : List MempoolEntry) : MempoolSnapshot :=
  snapshotOf sourceId sourceId 0 0 0 { height := 1, hash := String.ofList (List.replicate 64 '0') }
    rows

/-- The browser reads each row of both sources, so it accepts them. -/
theorem sampleSnapshots_accepted : AcceptedSnapshot (sampleSnapshot "core" mixedRows) ∧
    AcceptedSnapshot (sampleSnapshot "knots" revisedRows) := by
  have hRead : ∀ rows ∈ [mixedRows, revisedRows], ∀ entry ∈ rows,
      parseTransaction (some (entryJson entry)) classifierCatalog = .ok entry := by decide +kernel
  have hSorted : ∀ rows ∈ [mixedRows, revisedRows],
      rows.Pairwise fun left right => left.txid < right.txid := by decide +kernel
  have hAccepted : ∀ sourceId ∈ ["core", "knots"], ∀ rows ∈ [mixedRows, revisedRows],
      AcceptedSnapshot (sampleSnapshot sourceId rows) := by
    intro sourceId hSource rows hRows
    obtain ⟨hId, hLabel, hBlank⟩ : validateSourceId sourceId = .ok () ∧
        validateSourceLabel sourceId = .ok () ∧ isBlank sourceId = false := by
      revert sourceId
      decide
    obtain ⟨hCount, hVsize⟩ : rows.length ≤ maxSafeJsonInteger ∧
        (rows.map MempoolEntry.vsize).sum ≤ maxSafeJsonInteger := by
      revert rows
      decide
    exact acceptedSnapshot_snapshotOf ⟨hId, hLabel, by decide, by decide, by decide, by decide, rfl,
      by decide, hSorted rows hRows, hCount, hVsize⟩ (by decide) hBlank fun entry hMem =>
        (parseTransaction_json.mp (hRead rows hRows entry hMem)).1
  exact ⟨hAccepted "core" (by simp) mixedRows (by simp),
    hAccepted "knots" (by simp) revisedRows (by simp)⟩

end MempoolAtlas.Web
