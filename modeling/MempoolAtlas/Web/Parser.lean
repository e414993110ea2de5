import MempoolAtlas.Web.Wire

/-!
# The browser's validators

`parseSourceSnapshotResponse` of `web/src/api.ts` with everything it calls. A
parser returns the value it accepts with its static type, or the message of the
`TypeError` it throws; the checks of one `if` share one message. JavaScript
numbers are exact here, since every number is checked to be a safe integer
before it is used.
-/

namespace MempoolAtlas.Web

open Checks Model Json

abbrev Parsed := Except String

-- ---------------------------------------------------------------------------
-- Texts
-- ---------------------------------------------------------------------------

/-- What `String.prototype.trim` strips: `WhiteSpace` and `LineTerminator`. -/
def isJsWhitespace (c : Char) : Bool :=
  (c.val ≥ 0x09 && c.val ≤ 0x0d) || c.val == 0x20 || c.val == 0xa0 || c.val == 0x1680 ||
    (c.val ≥ 0x2000 && c.val ≤ 0x200a) || c.val == 0x2028 || c.val == 0x2029 ||
    c.val == 0x202f || c.val == 0x205f || c.val == 0x3000 || c.val == 0xfeff

/-- `value.trim().length === 0`. -/
def isBlank (value : String) : Bool := value.toList.all isJsWhitespace

/-- A string that is not blank. -/
def nonBlankString? (value : Option Json) : Option String :=
  (string? value).filter fun s => !isBlank s

/-- A source id as the server accepts it. -/
def isSourceId (value : String) : Bool :=
  value != "." && value != ".." && decide (1 ≤ value.toList.length) &&
    decide (value.toList.length ≤ 64) &&
    value.toList.all fun c => isAsciiAlphanumeric c || c == '.' || c == '_' || c == '-'

/-- A lower-case hexadecimal digit. -/
def isLowerHex (c : Char) : Bool :=
  (c.val ≥ 0x30 && c.val ≤ 0x39) || (c.val ≥ 0x61 && c.val ≤ 0x66)

/-- `/^[0-9a-f]{64}$/`. -/
def isHash (value : String) : Bool :=
  decide (value.toList.length = 64) && value.toList.all isLowerHex

def isLowerLetter (c : Char) : Bool := c.val ≥ 0x61 && c.val ≤ 0x7a

def isDigit (c : Char) : Bool := c.val ≥ 0x30 && c.val ≤ 0x39

/-- `/^[a-z][a-z0-9_]*$/`. -/
def isClassifierKey (value : String) : Bool :=
  match value.toList with
  | [] => false
  | first :: rest => isLowerLetter first && rest.all fun c => isLowerLetter c || isDigit c || c == '_'

/-- A well-formed identifier. -/
def hash? (value : Option Json) : Option String := (string? value).filter isHash

/-- A well-formed key of a lens or label. -/
def classifierKey? (value : Option Json) : Option String := (string? value).filter isClassifierKey

/-- Whether an object has these keys and no others. -/
def hasOnlyKeys (value : Option Json) (expectedKeys : List String) : Bool :=
  (keys value).length == expectedKeys.length && (keys value).all expectedKeys.contains

/-- `isRecord(value) && hasOnlyKeys(value, expectedKeys)`. -/
def ensureRecord (value : Option Json) (expectedKeys : List String) (message : String) :
    Parsed Unit :=
  ensure (!isRecord value || !hasOnlyKeys value expectedKeys) message

/-- The constant of an enumeration with this name. -/
def constant? {α : Type} (name : α → String) (all : List α) (value : Option Json) : Option α :=
  (string? value).bind fun s => all.find? fun a => name a == s

-- ---------------------------------------------------------------------------
-- Source summaries
-- ---------------------------------------------------------------------------

/-- The tip of a snapshot. -/
def parseChainTip (value : Option Json) : Parsed ChainTip := do
  ensureRecord value ["height", "hash"] "Invalid chain tip"
  let height ← require (nonNegativeInteger? (get "height" value)) "Invalid chain tip"
  let hash ← require (hash? (get "hash" value)) "Invalid chain tip"
  return { height, hash }

/-- A safe integer or `null`. -/
def parseNullableInteger (value : Option Json) (field : String) : Parsed (Option Nat) :=
  if isNull value then .ok none
  else (require (nonNegativeInteger? value) ("Invalid " ++ field)).map some

/-- The state of a source. -/
def parseAvailability (value : Option Json) : Parsed SourceAvailability :=
  require (constant? availabilityName [.waiting, .ready, .stale, .error] value)
    "Invalid source availability"

/-- The progress of a source, which may be missing. -/
def parseClassificationProgress (value : Option Json) : Parsed (Option ClassificationProgress) :=
  if isNull value then .ok none
  else do
    let invalid := "Invalid classification progress"
    ensureRecord value ["state", "revision", "classified_count", "unclassified_count"] invalid
    let state ← require (constant? classificationStateName [.classifying, .complete, .paused]
      (get "state" value)) invalid
    let revision ← require (nonNegativeInteger? (get "revision" value)) invalid
    let classifiedCount ← require (nonNegativeInteger? (get "classified_count" value)) invalid
    let unclassifiedCount ← require (nonNegativeInteger? (get "unclassified_count" value)) invalid
    return some { state, revision, classifiedCount, unclassifiedCount }

/-- `null`, or a string. -/
def nullableString? (value : Option Json) : Option (Option String) :=
  if isNull value then some none else (string? value).map some

/-- A tip or `null`. -/
def parseNullableChainTip (value : Option Json) : Parsed (Option ChainTip) :=
  if isNull value then .ok none else (parseChainTip value).map some

/-- What the summary says about its snapshot, its progress and its error. -/
def checkSummary (summary : SourceSummary) : Parsed Unit := do
  let hasSnapshot := summary.snapshotObservedAtMs.isSome && summary.transactionCount.isSome &&
    summary.totalVsize.isSome && summary.chainTip.isSome
  let hasNoSnapshot := summary.snapshotObservedAtMs.isNone && summary.transactionCount.isNone &&
    summary.totalVsize.isNone && summary.chainTip.isNone
  ensure (!hasSnapshot && !hasNoSnapshot) "Source summary contains a partial snapshot"
  ensure (hasSnapshot && summary.classification.all fun progress =>
      some (progress.classifiedCount + progress.unclassifiedCount) != summary.transactionCount)
    "Source summary classification does not match its snapshot metadata"
  ensure (!hasSnapshot && summary.classification.isSome)
    "Source without a snapshot unexpectedly contains classification progress"
  ensure ((summary.availability == .waiting || summary.availability == .error) && !hasNoSnapshot)
    "Unavailable source unexpectedly contains a snapshot"
  ensure ((summary.availability == .ready || summary.availability == .stale) && !hasSnapshot)
    "Available source is missing its snapshot"
  ensure ((summary.availability == .waiting || summary.availability == .ready) &&
      summary.lastError.isSome)
    "Healthy source unexpectedly contains an error"
  ensure ((summary.availability == .stale || summary.availability == .error) &&
      summary.lastError.all isBlank)
    "Failed source is missing its error"

/-- `parseSourceSummary`: a source, its fields in agreement. -/
def parseSourceSummary (value : Option Json) : Parsed SourceSummary := do
  let invalid := "Invalid source summary"
  ensureRecord value ["source_id", "source_label", "availability", "poll_interval_seconds",
    "last_poll_started_at_ms", "snapshot_observed_at_ms", "chain_tip", "transaction_count",
    "total_vsize", "classification", "last_error"] invalid
  let sourceId ← require ((string? (get "source_id" value)).filter isSourceId) invalid
  let sourceLabel ← require (nonBlankString? (get "source_label" value)) invalid
  let pollIntervalSeconds ← require (nonNegativeInteger? (get "poll_interval_seconds" value))
    invalid
  ensure (pollIntervalSeconds == 0) invalid
  let lastError ← require (nullableString? (get "last_error" value)) invalid
  let availability ← parseAvailability (get "availability" value)
  let lastPollStartedAtMs ←
    parseNullableInteger (get "last_poll_started_at_ms" value) "last poll time"
  let snapshotObservedAtMs ←
    parseNullableInteger (get "snapshot_observed_at_ms" value) "snapshot observation time"
  let transactionCount ←
    parseNullableInteger (get "transaction_count" value) "transaction count"
  let totalVsize ← parseNullableInteger (get "total_vsize" value) "total vsize"
  let chainTip ← parseNullableChainTip (get "chain_tip" value)
  let classification ← parseClassificationProgress (get "classification" value)
  let summary : SourceSummary := {
    sourceId, sourceLabel, availability, pollIntervalSeconds, lastPollStartedAtMs
    snapshotObservedAtMs, chainTip, transactionCount, totalVsize, classification, lastError }
  checkSummary summary
  return summary

-- ---------------------------------------------------------------------------
-- The classifier catalog
-- ---------------------------------------------------------------------------

/-- A list of distinct keys. -/
def parseStringKeys (value : Option Json) (field : String) : Parsed (List String) := do
  let items ← require (array? value) ("Invalid " ++ field)
  let found ← require (items.mapM fun item => classifierKey? (some item)) ("Invalid " ++ field)
  ensure (!decide found.Nodup) ("Invalid " ++ field)
  return found

/-- The labels of one descriptor, given the keys of those before. -/
def parseLabels (message : String) : List Json → List String → Parsed (List ClassifierLabelDescriptor)
  | [], _ => .ok []
  | item :: rest, seen => do
    ensureRecord (some item) ["key", "label", "description"] message
    let key ← require (classifierKey? (get "key" (some item))) message
    ensure (seen.contains key) message
    let label ← require (nonBlankString? (get "label" (some item))) message
    let description ← require (nonBlankString? (get "description" (some item))) message
    let labels ← parseLabels message rest (seen ++ [key])
    return { key, label, description } :: labels

/-- The descriptors of a catalog, given the identifiers of those before. -/
def parseDescriptors : List Json → List String → Parsed (List ClassifierDescriptor)
  | [], _ => .ok []
  | item :: rest, seen => do
    let invalid := "Invalid classifier descriptor"
    ensureRecord (some item) ["id", "version", "title", "methodology", "semantics",
      "required_facts", "labels"] invalid
    let id ← require (classifierKey? (get "id" (some item))) invalid
    ensure (seen.contains id) invalid
    let version ← require (nonBlankString? (get "version" (some item))) invalid
    let title ← require (nonBlankString? (get "title" (some item))) invalid
    let items ← require (array? (get "labels" (some item))) invalid
    ensure items.isEmpty invalid
    let methodology ← require (constant? methodologyName [.exact, .heuristic, .fingerprint, .policy]
      (get "methodology" (some item))) "Invalid classifier methodology"
    let semantics ← require (constant? semanticsName [.multiLabel, .ruleSet]
      (get "semantics" (some item))) "Invalid classifier semantics"
    let requiredFacts ← parseStringKeys (get "required_facts" (some item))
      "classifier required facts"
    let labels ← parseLabels "Invalid classifier label" items []
    let descriptors ← parseDescriptors rest (seen ++ [id])
    return { id, version, title, methodology, semantics, requiredFacts, labels } :: descriptors

/-- `parseClassifierCatalog`: lenses with distinct ids and labels. -/
def parseClassifierCatalog (value : Option Json) : Parsed (List ClassifierDescriptor) := do
  let items ← require (array? value) "Invalid classifier catalog"
  ensure items.isEmpty "Invalid classifier catalog"
  parseDescriptors items []

-- ---------------------------------------------------------------------------
-- Assessments and results
-- ---------------------------------------------------------------------------

/-- A rule by its name. -/
def parseRuleId (value : Option Json) : Parsed Bip110RuleId :=
  require (constant? ruleIdName Bip110RuleId.all value) "Invalid BIP-110 rule identifier"

/-- A list of distinct rules. -/
def parseRuleIds (value : Option Json) (field : String) : Parsed (List Bip110RuleId) := do
  let items ← require (array? value) ("Invalid " ++ field)
  let rules ← items.mapM fun item => parseRuleId (some item)
  ensure (!decide rules.Nodup) (field ++ " contains duplicate rules")
  return rules

/-- A rule or `null`. -/
def parsePrimaryRule (value : Option Json) : Parsed (Option Bip110RuleId) :=
  if isNull value then .ok none else (parseRuleId value).map some

/-- Whether the status is not the one its rules amount to. -/
def isInconsistent (assessment : Bip110Assessment) : Bool :=
  match assessment.status with
  | .compatible => assessment.primaryRule.isSome || !assessment.violatedRules.isEmpty ||
      !assessment.unknownRules.isEmpty
  | .violating => assessment.violatedRules.isEmpty ||
      assessment.primaryRule.any fun rule => !assessment.violatedRules.contains rule
  | .indeterminate => assessment.primaryRule.isSome || !assessment.violatedRules.isEmpty ||
      assessment.unknownRules.isEmpty

/-- An assessment in agreement with itself, or `null`. -/
def parseBip110Assessment (value : Option Json) : Parsed (Option Bip110Assessment) :=
  if isNull value then .ok none
  else do
    ensureRecord value ["status", "primary_rule", "violated_rules", "unknown_rules"]
      "Invalid BIP-110 assessment"
    let status ← require (constant? statusName [.compatible, .violating, .indeterminate]
      (get "status" value)) "Invalid BIP-110 status"
    let primaryRule ← parsePrimaryRule (get "primary_rule" value)
    let violatedRules ← parseRuleIds (get "violated_rules" value) "violated rules"
    let unknownRules ← parseRuleIds (get "unknown_rules" value) "unknown rules"
    let assessment : Bip110Assessment := { status, primaryRule, violatedRules, unknownRules }
    ensure (isInconsistent assessment) "Inconsistent BIP-110 assessment"
    return some assessment

/-- `null`, or a classifier key. -/
def nullableKey? (value : Option Json) : Option (Option String) :=
  if isNull value then some none else (classifierKey? value).map some

/-- `parseClassificationResult` for the compact results of a snapshot. -/
def parseClassificationResult (value : Option Json) (descriptor : ClassifierDescriptor) :
    Parsed ClassificationResult := do
  let invalid := "Invalid " ++ descriptor.id ++ " classification result"
  ensureRecord value ["classifier_id", "state", "primary_label", "labels", "missing_facts",
    "evidence"] invalid
  let classifierId ← require (string? (get "classifier_id" value)) invalid
  ensure (classifierId != descriptor.id) invalid
  let state ← require (constant? resultStateName [.complete, .partialResult] (get "state" value))
    invalid
  let primaryLabel ← require (nullableKey? (get "primary_label" value)) invalid
  ensure (!isNull (get "evidence" value)) invalid
  let labels ← parseStringKeys (get "labels" value) (descriptor.id ++ " labels")
  let missingFacts ← parseStringKeys (get "missing_facts" value)
    (descriptor.id ++ " missing facts")
  ensure ((labels.isEmpty && state != .partialResult) ||
      (labels.any fun label => !(descriptor.labels.map (·.key)).contains label) ||
      (primaryLabel.any fun primary => !labels.contains primary) ||
      (state == .complete && !missingFacts.isEmpty) ||
      (state == .partialResult && missingFacts.isEmpty))
    ("Inconsistent " ++ descriptor.id ++ " classification result")
  return { classifierId, state, primaryLabel, labels, missingFacts, evidence := none }

/-- A row's results, one for each lens of the catalog. -/
def parseClassificationResults (value : Option Json) (catalog : List ClassifierDescriptor) :
    Parsed (List ClassificationResult) := do
  let items ← require (array? value) "Invalid transaction classifications"
  ensure (items.length != catalog.length) "Invalid transaction classifications"
  (items.zip catalog).mapM fun (item, descriptor) => parseClassificationResult (some item) descriptor

-- ---------------------------------------------------------------------------
-- Transactions
-- ---------------------------------------------------------------------------

/-- A structure, or `null`. -/
def parseTransactionStructure (value : Option Json) : Parsed (Option TransactionStructure) :=
  if isNull value then .ok none
  else do
    let invalid := "Invalid transaction structure"
    ensureRecord value ["input_count", "output_count", "op_return_bytes", "output_sats",
      "witness_bytes"] invalid
    let inputCount ← require (nonNegativeInteger? (get "input_count" value)) invalid
    ensure (inputCount == 0) invalid
    let outputCount ← require (nonNegativeInteger? (get "output_count" value)) invalid
    ensure (outputCount == 0) invalid
    let opReturnBytes ← require (nonNegativeInteger? (get "op_return_bytes" value)) invalid
    let outputSats ← require (nonNegativeInteger? (get "output_sats" value)) invalid
    let witnessBytes ← require (nonNegativeInteger? (get "witness_bytes" value)) invalid
    return some { inputCount, outputCount, opReturnBytes, outputSats, witnessBytes }

/-- The results of a row: none without an assessment, one for each lens with it. -/
def parseRowResults (assessment : Option Bip110Assessment) (value : Option Json)
    (catalog : List ClassifierDescriptor) : Parsed (List ClassificationResult) :=
  match assessment with
  | none => do
    let items ← require (array? value) "Unclassified transaction contains classifier results"
    ensure (!items.isEmpty) "Unclassified transaction contains classifier results"
    return []
  | some _ => parseClassificationResults value catalog

/-- Whether the policy result is not the projection of the assessment. -/
def policyMismatch (classifications : List ClassificationResult) (assessment : Bip110Assessment) :
    Bool :=
  match classifications.find? fun result => result.classifierId == "knots_bip110" with
  | none => true
  | some policy => policy.primaryLabel != some (statusName assessment.status) ||
      (if assessment.unknownRules.isEmpty then
        policy.state != .complete || !policy.missingFacts.isEmpty
      else policy.state != .partialResult || !policy.missingFacts.contains "policy_facts")

/-- `parseTransaction`: a row in agreement with itself and the catalog. -/
def parseTransaction (value : Option Json) (catalog : List ClassifierDescriptor) :
    Parsed MempoolEntry := do
  let invalid := "Invalid transaction"
  ensureRecord value ["txid", "wtxid", "vsize", "weight", "fee_sats", "entered_at_ms",
    "ancestor_count", "ancestor_vsize", "ancestor_fee_sats", "descendant_count",
    "descendant_vsize", "replaceable", "structure", "classifications", "bip110"] invalid
  let txid ← require (hash? (get "txid" value)) invalid
  let wtxid ← require (hash? (get "wtxid" value)) invalid
  let vsize ← require (nonNegativeInteger? (get "vsize" value)) invalid
  ensure (vsize == 0) invalid
  let weight ← require (nonNegativeInteger? (get "weight" value)) invalid
  let feeSats ← require (nonNegativeInteger? (get "fee_sats" value)) invalid
  let enteredAtMs ← require (nonNegativeInteger? (get "entered_at_ms" value)) invalid
  let ancestorCount ← require (nonNegativeInteger? (get "ancestor_count" value)) invalid
  let ancestorVsize ← require (nonNegativeInteger? (get "ancestor_vsize" value)) invalid
  let ancestorFeeSats ← require (safeInteger? (get "ancestor_fee_sats" value)) invalid
  let descendantCount ← require (nonNegativeInteger? (get "descendant_count" value)) invalid
  let descendantVsize ← require (nonNegativeInteger? (get "descendant_vsize" value)) invalid
  let replaceable ← require (bool? (get "replaceable" value)) invalid
  ensure (weight == 0 || weight > vsize * 4) "Transaction reports an inconsistent weight"
  ensure (ancestorCount == 0 || descendantCount == 0 || ancestorVsize < vsize ||
    descendantVsize < vsize) "Transaction reports inconsistent ancestry"
  let transactionStructure ← parseTransactionStructure (get "structure" value)
  let bip110 ← parseBip110Assessment (get "bip110" value)
  ensure (transactionStructure.isNone != bip110.isNone)
    "Transaction couples structure and assessment inconsistently"
  let classifications ← parseRowResults bip110 (get "classifications" value) catalog
  ensure (bip110.any (policyMismatch classifications))
    "Transaction has inconsistent policy projections"
  return {
    txid, wtxid, vsize, weight, feeSats, enteredAtMs, ancestorCount, ancestorVsize
    ancestorFeeSats, descendantCount, descendantVsize, replaceable, transactionStructure
    classifications, bip110 }

-- ---------------------------------------------------------------------------
-- Snapshots
-- ---------------------------------------------------------------------------

/-- `statusCounts`. -/
structure StatusCounts where
  compatible : Nat := 0
  violating : Nat := 0
  indeterminate : Nat := 0
  unclassified : Nat := 0

/-- A row counts under its status. -/
def StatusCounts.add (counts : StatusCounts) (transaction : MempoolEntry) : StatusCounts :=
  match transaction.bip110.map Bip110Assessment.status with
  | none => { counts with unclassified := counts.unclassified + 1 }
  | some .compatible => { counts with compatible := counts.compatible + 1 }
  | some .violating => { counts with violating := counts.violating + 1 }
  | some .indeterminate => { counts with indeterminate := counts.indeterminate + 1 }

/-- One entry of `resultCounts`. -/
structure ResultCounts where
  classifierId : String
  complete : Nat
  partialCount : Nat
  unclassified : Nat
  labels : BTreeMap String Nat

/-- The counts of a lens before any row. -/
def ResultCounts.ofDescriptor (descriptor : ClassifierDescriptor) : ResultCounts where
  classifierId := descriptor.id
  complete := 0
  partialCount := 0
  unclassified := 0
  labels := Std.ExtTreeMap.ofList (descriptor.labels.map fun label => (label.key, 0))

/-- A result counts with its labels. -/
def ResultCounts.add (counts : ResultCounts) (result : ClassificationResult) : ResultCounts :=
  let counted := match result.state with
    | .complete => { counts with complete := counts.complete + 1 }
    | .partialResult => { counts with partialCount := counts.partialCount + 1 }
  { counted with
    labels := result.labels.foldl (fun labels label =>
      labels.insert label (labels.getD label 0 + 1)) counted.labels }

/-- What one transaction adds to the counts of the lens at its index. -/
def countResult (classifications : List ClassificationResult)
    (indexed : (ClassifierDescriptor × ResultCounts) × Nat) : Parsed ResultCounts := do
  let ((descriptor, counts), index) := indexed
  match classifications[index]? with
  | none => return { counts with unclassified := counts.unclassified + 1 }
  | some result =>
    ensure (result.classifierId != descriptor.id)
      "Transaction classifier order does not match catalog"
    return counts.add result

/-- The variables of the loop over the transactions. -/
structure Tally where
  previousTxid : Option String
  totalVsize : Nat
  statusCounts : StatusCounts
  resultCounts : List ResultCounts
  transactions : List MempoolEntry

/-- A row is parsed, must follow the last one, and counts. -/
def tallyTransaction (catalog : List ClassifierDescriptor) (tally : Tally) (item : Json) :
    Parsed Tally := do
  let transaction ← parseTransaction (some item) catalog
  ensure (tally.previousTxid.any fun previous => decide (transaction.txid ≤ previous))
    "Transactions are not strictly ordered by txid"
  let totalVsize := tally.totalVsize + transaction.vsize
  ensure (totalVsize > maxSafeInteger) "Snapshot total vsize is not safely representable"
  let resultCounts ← ((catalog.zip tally.resultCounts).zipIdx).mapM
    (countResult transaction.classifications)
  return {
    previousTxid := some transaction.txid
    totalVsize
    statusCounts := tally.statusCounts.add transaction
    resultCounts
    transactions := tally.transactions ++ [transaction] }

/-- The summary of the verdicts. -/
def parseBip110Summary (value : Option Json) : Parsed Bip110Summary := do
  let invalid := "Invalid BIP-110 summary"
  ensureRecord value ["evaluator_id", "evaluator_version", "scope", "compatible_count",
    "violating_count", "indeterminate_count", "unclassified_count"] invalid
  let evaluatorId ← require (nonBlankString? (get "evaluator_id" value)) invalid
  let evaluatorVersion ← require (nonBlankString? (get "evaluator_version" value)) invalid
  let scope ← require (constant? scopeName [.knotsMempoolPolicy] (get "scope" value)) invalid
  let compatibleCount ← require (nonNegativeInteger? (get "compatible_count" value)) invalid
  let violatingCount ← require (nonNegativeInteger? (get "violating_count" value)) invalid
  let indeterminateCount ← require (nonNegativeInteger? (get "indeterminate_count" value)) invalid
  let unclassifiedCount ← require (nonNegativeInteger? (get "unclassified_count" value)) invalid
  return {
    evaluatorId, evaluatorVersion, scope, compatibleCount, violatingCount, indeterminateCount
    unclassifiedCount }

/-- The summary of a lens, within the number of rows. -/
def parseClassifierSummary (value : Option Json) (descriptor : ClassifierDescriptor)
    (transactionCount : Nat) : Parsed ClassifierSummary := do
  let invalid := "Invalid " ++ descriptor.id ++ " classifier summary"
  ensureRecord value ["classifier_id", "complete_count", "partial_count", "unclassified_count",
    "label_counts"] invalid
  let classifierId ← require (string? (get "classifier_id" value)) invalid
  ensure (classifierId != descriptor.id) invalid
  let completeCount ← require (nonNegativeInteger? (get "complete_count" value)) invalid
  let partialCount ← require (nonNegativeInteger? (get "partial_count" value)) invalid
  let unclassifiedCount ← require (nonNegativeInteger? (get "unclassified_count" value)) invalid
  ensure (completeCount + partialCount + unclassifiedCount != transactionCount) invalid
  let labelCounts := get "label_counts" value
  ensure (!isRecord labelCounts) invalid
  let expectedLabels := descriptor.labels.map (·.key)
  ensure (!hasOnlyKeys labelCounts expectedLabels) ("Invalid " ++ descriptor.id ++ " label counts")
  let counts ← require (expectedLabels.mapM fun key =>
      (nonNegativeInteger? (get key labelCounts)).map fun count => (key, count))
    ("Invalid " ++ descriptor.id ++ " label counts")
  return {
    classifierId, completeCount, partialCount, unclassifiedCount
    labelCounts := Std.ExtTreeMap.ofList counts }

/-- Whether a summary is not what the rows count to. -/
def summaryMismatch (summary : ClassifierSummary) (counts : ResultCounts) : Bool :=
  summary.classifierId != counts.classifierId || summary.completeCount != counts.complete ||
    summary.partialCount != counts.partialCount ||
    summary.unclassifiedCount != counts.unclassified ||
    summary.labelCounts.toList.any fun (label, count) => counts.labels[label]? != some count

/-- The scalar fields of a snapshot, in their static type. -/
def parseSnapshotHeader (value : Option Json) : Parsed MempoolSnapshot := do
  let invalid := "Invalid mempool snapshot"
  ensureRecord value ["source_id", "source_label", "collection_started_at_ms",
    "collection_completed_at_ms", "collection_duration_ms", "observed_at_ms",
    "classification_revision", "chain_tip", "transaction_count", "total_vsize",
    "classifier_catalog", "classification_summaries", "bip110_summary", "transactions"] invalid
  let sourceId ← require ((string? (get "source_id" value)).filter isSourceId) invalid
  let sourceLabel ← require (nonBlankString? (get "source_label" value)) invalid
  let collectionStartedAtMs ←
    require (nonNegativeInteger? (get "collection_started_at_ms" value)) invalid
  let collectionCompletedAtMs ←
    require (nonNegativeInteger? (get "collection_completed_at_ms" value)) invalid
  let collectionDurationMs ←
    require (nonNegativeInteger? (get "collection_duration_ms" value)) invalid
  let observedAtMs ← require (nonNegativeInteger? (get "observed_at_ms" value)) invalid
  let classificationRevision ←
    require (nonNegativeInteger? (get "classification_revision" value)) invalid
  let transactionCount ← require (nonNegativeInteger? (get "transaction_count" value)) invalid
  let totalVsize ← require (nonNegativeInteger? (get "total_vsize" value)) invalid
  ensure (array? (get "transactions" value)).isNone invalid
  ensure (collectionCompletedAtMs < collectionStartedAtMs ||
      collectionDurationMs != collectionCompletedAtMs - collectionStartedAtMs ||
      observedAtMs != collectionCompletedAtMs)
    "Invalid mempool snapshot collection timing"
  let chainTip ← parseChainTip (get "chain_tip" value)
  let classifierCatalog ← parseClassifierCatalog (get "classifier_catalog" value)
  let bip110Summary ← parseBip110Summary (get "bip110_summary" value)
  return {
    sourceId, sourceLabel, collectionStartedAtMs, collectionCompletedAtMs, collectionDurationMs
    observedAtMs, classificationRevision, chainTip, transactionCount, totalVsize
    classifierCatalog, classificationSummaries := [], bip110Summary, transactions := [] }

/-- `parseMempoolSnapshot`: a snapshot whose rows are sorted and count to its summaries. -/
def parseMempoolSnapshot (value : Option Json) : Parsed MempoolSnapshot := do
  let header ← parseSnapshotHeader value
  let items ← require (array? (get "transactions" value)) "Invalid mempool snapshot"
  let tally ← items.foldlM (tallyTransaction header.classifierCatalog) {
    previousTxid := none, totalVsize := 0, statusCounts := {}
    resultCounts := header.classifierCatalog.map ResultCounts.ofDescriptor, transactions := [] }
  ensure (header.transactionCount != items.length)
    "Snapshot transaction count does not match payload"
  ensure (header.totalVsize != tally.totalVsize) "Snapshot total vsize does not match payload"
  let summaries ← require (array? (get "classification_summaries" value))
    "Invalid classification summaries"
  ensure (summaries.length != header.classifierCatalog.length) "Invalid classification summaries"
  let classificationSummaries ← (summaries.zip header.classifierCatalog).mapM
    fun (summary, descriptor) =>
      parseClassifierSummary (some summary) descriptor header.transactionCount
  ensure (header.bip110Summary.compatibleCount != tally.statusCounts.compatible ||
      header.bip110Summary.violatingCount != tally.statusCounts.violating ||
      header.bip110Summary.indeterminateCount != tally.statusCounts.indeterminate ||
      header.bip110Summary.unclassifiedCount != tally.statusCounts.unclassified)
    "BIP-110 summary does not match payload"
  ensure ((classificationSummaries.zip tally.resultCounts).any fun (summary, counts) =>
      summaryMismatch summary counts)
    "Classifier summary does not match payload"
  return { header with classificationSummaries, transactions := tally.transactions }

-- ---------------------------------------------------------------------------
-- Responses
-- ---------------------------------------------------------------------------

/-- Whether the summary does not describe the snapshot. -/
def responseMismatch (source : SourceSummary) (snapshot : MempoolSnapshot) : Bool :=
  snapshot.sourceId != source.sourceId || snapshot.sourceLabel != source.sourceLabel ||
    some snapshot.observedAtMs != source.snapshotObservedAtMs ||
    some snapshot.transactionCount != source.transactionCount ||
    some snapshot.totalVsize != source.totalVsize ||
    some snapshot.chainTip != source.chainTip ||
    source.classification.all fun progress =>
      progress.revision != snapshot.classificationRevision ||
        progress.classifiedCount != snapshot.bip110Summary.compatibleCount +
          snapshot.bip110Summary.violatingCount + snapshot.bip110Summary.indeterminateCount ||
        progress.unclassifiedCount != snapshot.bip110Summary.unclassifiedCount

/-- `parseSourceSnapshotResponse`: a source, and a snapshot of that source when there is one. -/
def parseSourceSnapshotResponse (value : Option Json) : Parsed SourceSnapshotResponse := do
  ensureRecord value ["source", "snapshot"] "Invalid source snapshot response"
  let source ← parseSourceSummary (get "source" value)
  if isNull (get "snapshot" value) then
    ensure source.snapshotObservedAtMs.isSome "Source summary references a missing snapshot"
    return { source, snapshot := none }
  else
    let snapshot ← parseMempoolSnapshot (get "snapshot" value)
    ensure (responseMismatch source snapshot) "Source summary does not match its snapshot"
    return { source, snapshot := some snapshot }

end MempoolAtlas.Web
