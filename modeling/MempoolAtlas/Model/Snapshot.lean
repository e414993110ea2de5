import MempoolAtlas.Lib.BTree
import MempoolAtlas.Lib.Checks
import MempoolAtlas.Lib.Machine
import MempoolAtlas.Lib.Texts
import MempoolAtlas.Bip110.Verdict

/-!
# The published model

`src/model.rs`: the classifier catalog and results, membership rows, snapshots,
transaction details and their validators, as the source computes them. Every
constructor of the source that can refuse its input is an `Except ModelError`
computation making the same checks in the same order.
-/

namespace MempoolAtlas.Model

open Checks Machine Texts

/-- `MAX_SAFE_JSON_INTEGER`: the largest integer that survives JSON in a browser. -/
def maxSafeJsonInteger : Nat := 9007199254740991

def maxBip110DetailExemplarsPerRule : Nat := 1

/-- The evaluator that assessments name. -/
def bip110EvaluatorId : String := "rdts-rules"

def atlasVersion : String := "1.0.0"

/-- The version that assessments name, the program's own. -/
def bip110EvaluatorVersion : String := atlasVersion

def transactionPropertiesClassifierId : String := "transaction_properties"

def transactionShapeClassifierId : String := "transaction_shape"

def dataProtocolsClassifierId : String := "data_protocols"

def knotsBip110ClassifierId : String := "knots_bip110"

-- ---------------------------------------------------------------------------
-- BIP-110 assessment
-- ---------------------------------------------------------------------------

/-- The seven rules, in their order. -/
inductive Bip110RuleId where
  | outputSize
  | elementSize
  | undefinedVersion
  | taprootAnnex
  | controlBlockSize
  | opSuccess
  | tapscriptOpIf
deriving DecidableEq, Repr

namespace Bip110RuleId

/-- Every rule, in the order they are numbered. -/
def all : List Bip110RuleId :=
  [.outputSize, .elementSize, .undefinedVersion, .taprootAnnex, .controlBlockSize, .opSuccess,
    .tapscriptOpIf]

/-- The number of a rule in the proposal's list. -/
def number : Bip110RuleId → Nat
  | .outputSize => 1
  | .elementSize => 2
  | .undefinedVersion => 3
  | .taprootAnnex => 4
  | .controlBlockSize => 5
  | .opSuccess => 6
  | .tapscriptOpIf => 7

end Bip110RuleId

/-- The verdict of an assessment. -/
inductive Bip110Status where
  | compatible
  | violating
  | indeterminate
deriving DecidableEq, Repr

/-- The compact verdict of a row: what it violates, what is unknown, the rule named first. -/
structure Bip110Assessment where
  status : Bip110Status
  primaryRule : Option Bip110RuleId
  violatedRules : List Bip110RuleId
  unknownRules : List Bip110RuleId
deriving DecidableEq, Repr

/-- The verdict of one rule. -/
inductive Bip110RuleVerdict where
  | pass
  | violate
  | unknown
deriving DecidableEq, Repr

/-- What one rule found, with its first exemplars. -/
structure Bip110RuleDetail where
  rule : Bip110RuleId
  number : Nat
  verdict : Bip110RuleVerdict
  evidenceCount : Nat
  evidence : List Bip110.Violation
  missingCount : Nat
  missing : List Bip110.Missing
deriving DecidableEq, Repr

-- ---------------------------------------------------------------------------
-- Classifier catalog and results
-- ---------------------------------------------------------------------------

/-- How a lens decides. -/
inductive ClassifierMethodology where
  | exact
  | heuristic
  | fingerprint
  | policy
deriving DecidableEq, Repr

/-- What the labels of a lens mean. -/
inductive ClassifierSemantics where
  | multiLabel
  | ruleSet
deriving DecidableEq, Repr

/-- A label of a lens: its key, its name and what it says. -/
structure ClassifierLabelDescriptor where
  key : String
  label : String
  description : String
deriving DecidableEq, Repr

/-- A lens of the catalog with its labels. -/
structure ClassifierDescriptor where
  id : String
  version : String
  title : String
  methodology : ClassifierMethodology
  semantics : ClassifierSemantics
  requiredFacts : List String
  labels : List ClassifierLabelDescriptor
deriving DecidableEq, Repr

/-- Whether a result had all the facts it needs. -/
inductive ClassificationResultState where
  | complete
  | partialResult
deriving DecidableEq, Repr

/-- One entry of the `detections` array; a key the JSON object does not have is `none`. -/
structure Detection where
  label : String
  carrier : String
  input : Option Nat := none
  element : Option Nat := none
  output : Option Nat := none
  outputCount : Option Nat := none
  outputs : Option (List Nat) := none
  detection : Option String := none
  confidence : Option String := none
  transport : Option String := none
  marker : Option String := none
  markerOffset : Option Nat := none
  payloadBytes : Option Nat := none
deriving DecidableEq, Repr

/-- The evidence objects of the four lenses, with their JSON keys as fields. -/
inductive Evidence where
  | transactionProperties (version : Int) (inputCount outputCount knownInputScriptCount
      missingInputScriptCount : Nat) (scriptFamilyCounts : List (String × Nat))
      (rbfInputCount witnessInputCount taprootAnnexInputCount : Nat)
  | transactionShape (inputCount outputCount shapeRatio : Nat)
      (mostRepeatedNonzeroOutput : Option (Nat × Nat)) (outputScriptsUnique : Bool)
      (knownInputScriptsUnique : Option Bool) (knownDataProtocol : Bool)
  | dataProtocols (detections : List Detection)
  | knotsBip110 (assessment : Bip110Assessment)
deriving DecidableEq, Repr

/-- What one lens says of a transaction. -/
structure ClassificationResult where
  classifierId : String
  state : ClassificationResultState
  primaryLabel : Option String
  labels : List String
  missingFacts : List String
  evidence : Option Evidence
deriving DecidableEq, Repr

/-- The result as rows carry it, without its evidence. -/
def ClassificationResult.compact (result : ClassificationResult) : ClassificationResult :=
  { result with evidence := none }

/-- What one lens says of all rows together. -/
structure ClassifierSummary where
  classifierId : String
  completeCount : Nat
  partialCount : Nat
  unclassifiedCount : Nat
  labelCounts : BTreeMap String Nat

/-- A label of the catalog. -/
def label (key label description : String) : ClassifierLabelDescriptor :=
  { key := key, label := label, description := description }

/-- `classifier_catalog`: the four lenses, in order. -/
def classifierCatalog : List ClassifierDescriptor :=
  [ { id := transactionPropertiesClassifierId
      version := "1"
      title := "Transaction properties"
      methodology := .exact
      semantics := .multiLabel
      requiredFacts := ["raw_transaction", "input_script_pubkeys"]
      labels := [
        label "version_1" "Version 1" "Serialized transaction version 1.",
        label "version_2" "Version 2" "Serialized transaction version 2.",
        label "version_3" "Version 3" "Serialized transaction version 3.",
        label "version_other" "Other version" "A transaction version other than 1, 2, or 3.",
        label "signals_rbf" "Signals RBF"
          "At least one input explicitly signals BIP-125 replaceability.",
        label "has_witness" "Has witness" "At least one input has witness data.",
        label "has_taproot_annex" "Taproot annex" "A P2TR input has a structural annex candidate.",
        label "p2pk" "P2PK" "A known input or output uses pay-to-public-key.",
        label "bare_multisig" "Bare multisig" "A known input or output uses bare multisig.",
        label "p2pkh" "P2PKH" "A known input or output uses pay-to-public-key-hash.",
        label "p2sh" "P2SH" "A known input or output uses pay-to-script-hash.",
        label "p2wpkh" "P2WPKH" "A known input or output uses native witness public-key-hash.",
        label "p2wsh" "P2WSH" "A known input or output uses native witness script-hash.",
        label "p2tr" "P2TR" "A known input or output uses Taproot.",
        label "p2a" "P2A" "A known input or output uses pay-to-anchor.",
        label "unknown_witness_program" "Other witness program"
          "A known input or output uses another syntactically valid witness program.",
        label "op_return" "OP_RETURN" "An output uses OP_RETURN.",
        label "unknown_script" "Other script"
          "A known input or output script is outside the recognized families."] },
    { id := transactionShapeClassifierId
      version := "2"
      title := "Transaction shape"
      methodology := .heuristic
      semantics := .multiLabel
      requiredFacts := ["raw_transaction", "input_script_pubkeys"]
      labels := [
        label "possible_coinjoin" "Possible CoinJoin"
          "A conservative equal-output, no-script-reuse heuristic.",
        label "consolidation" "Consolidation" "At least five times as many inputs as outputs.",
        label "batch_payout" "Batch payout" "At least five times as many outputs as inputs.",
        label "other_shape" "Other shape"
          "Every registered transaction-shape heuristic was terminal and none matched."] },
    { id := dataProtocolsClassifierId
      version := "2"
      title := "Data protocols"
      methodology := .fingerprint
      semantics := .multiLabel
      requiredFacts := ["raw_transaction"]
      labels := [
        label "inscription" "Inscription" "An Ordinals inscription-envelope fingerprint.",
        label "brc20" "BRC-20" "A JSON-like BRC-20 marker inside an inscription envelope.",
        label "runes" "Runes" "An OP_RETURN OP_13 runestone marker.",
        label "stamps" "Stamps"
          "A bare-multisig carrier whose deobfuscated payload holds a Stamps marker.",
        label "counterparty" "Counterparty"
          "A deobfuscated CNTRPRTY envelope in an OP_RETURN or bare-multisig carrier.",
        label "omni" "Omni" "An OP_RETURN payload beginning with the Omni Class C marker.",
        label "other_op_return" "Other OP_RETURN"
          "An OP_RETURN carrier with no registered OP_RETURN protocol fingerprint.",
        label "no_detected_protocol" "No detected protocol"
          "No registered data-protocol fingerprint fired."] },
    { id := knotsBip110ClassifierId
      version := "1"
      title := "Knots BIP-110 compatibility"
      methodology := .policy
      semantics := .ruleSet
      requiredFacts := ["raw_transaction", "input_script_pubkeys"]
      labels := [
        label "compatible" "Compatible" "No BIP-110 policy violation or missing fact was found.",
        label "violating" "Would violate" "At least one BIP-110 policy violation was proven.",
        label "indeterminate" "Indeterminate"
          "No violation was proven and at least one required fact is missing."] } ]

-- ---------------------------------------------------------------------------
-- Errors
-- ---------------------------------------------------------------------------

/-- Why a value is refused, with the data its message carries. -/
inductive ModelError where
  | invalidSourceId (value : String)
  | invalidSourceLabel (value : String)
  | zeroVsize
  | inconsistentWeight (vsize weight : Nat)
  | inconsistentAncestry (vsize ancestorCount ancestorVsize descendantCount descendantVsize : Nat)
  | emptyTransactionStructure (inputCount outputCount : Nat)
  | unsafeJsonInteger (field : String) (value : Nat)
  | unsafeSignedJsonInteger (field : String) (value : Int)
  | invalidCollectionWindow (startedAtMs completedAtMs : Nat)
  | collectionDurationMismatch (startedAtMs completedAtMs durationMs : Nat)
  | snapshotTooLarge
  | totalVsizeOverflow
  | transactionsNotStrictlySorted
  | classificationKeyMismatch (key txid : String)
  | classificationNotInSnapshot (txid : String)
  | classificationVariantMismatch (txid : String)
  | classificationDetailMissing (txid : String)
  | invalidClassificationDetail (txid reason : String)
deriving DecidableEq, Repr

/-- The check `value > MAX_SAFE_JSON_INTEGER` the source makes field by field. -/
def ensureSafeInteger (field : String) (value : Nat) : Except ModelError Unit :=
  ensure (value > maxSafeJsonInteger) (.unsafeJsonInteger field value)

/-- The first field over the largest safe integer is refused. -/
def ensureSafeIntegers (fields : List (String × Nat)) : Except ModelError Unit :=
  checkAll (fun field => ensureSafeInteger field.1 field.2) fields

-- ---------------------------------------------------------------------------
-- Transaction structure and membership rows
-- ---------------------------------------------------------------------------

/-- The counts and sums of a transaction. -/
structure TransactionStructure where
  inputCount : Nat
  outputCount : Nat
  opReturnBytes : Nat
  outputSats : Nat
  witnessBytes : Nat
deriving DecidableEq, Repr

/-- A transaction has inputs and outputs, and every field is a safe integer. -/
def TransactionStructure.new (inputCount outputCount opReturnBytes outputSats witnessBytes : Nat) :
    Except ModelError TransactionStructure := do
  ensure (inputCount == 0 || outputCount == 0) (.emptyTransactionStructure inputCount outputCount)
  ensureSafeIntegers [("input_count", inputCount), ("output_count", outputCount),
    ("op_return_bytes", opReturnBytes), ("output_sats", outputSats),
    ("witness_bytes", witnessBytes)]
  return { inputCount, outputCount, opReturnBytes, outputSats, witnessBytes }

/-- What a membership says of an entry besides its identifiers and fee. -/
structure MembershipFacts where
  weight : Nat
  ancestorCount : Nat
  ancestorVsize : Nat
  ancestorFeeSats : Int
  descendantCount : Nat
  descendantVsize : Nat
  replaceable : Bool
deriving DecidableEq, Repr

/-- A row: a transaction of the mempool, with what is known of it. -/
structure MempoolEntry where
  txid : String
  wtxid : String
  vsize : Nat
  weight : Nat
  feeSats : Nat
  enteredAtMs : Nat
  ancestorCount : Nat
  ancestorVsize : Nat
  ancestorFeeSats : Int
  descendantCount : Nat
  descendantVsize : Nat
  replaceable : Bool
  transactionStructure : Option TransactionStructure
  classifications : List ClassificationResult
  bip110 : Option Bip110Assessment
deriving DecidableEq, Repr

/-- `MempoolEntry::new_variant`: a row is accepted when its numbers are safe and agree with each
other; nothing is known of it yet. -/
def MempoolEntry.newVariant (txid wtxid : String) (vsize feeSats enteredAtMs : Nat)
    (facts : MembershipFacts) : Except ModelError MempoolEntry := do
  ensure (vsize == 0) .zeroVsize
  ensureSafeIntegers [("vsize", vsize), ("fee_sats", feeSats), ("entered_at_ms", enteredAtMs),
    ("weight", facts.weight), ("ancestor_count", facts.ancestorCount),
    ("ancestor_vsize", facts.ancestorVsize), ("descendant_count", facts.descendantCount),
    ("descendant_vsize", facts.descendantVsize)]
  ensure (facts.ancestorFeeSats.natAbs > maxSafeJsonInteger)
    (.unsafeSignedJsonInteger "ancestor_fee_sats" facts.ancestorFeeSats)
  ensure (facts.weight == 0 || facts.weight > saturatingMul vsize 4)
    (.inconsistentWeight vsize facts.weight)
  ensure (facts.ancestorCount == 0 || facts.descendantCount == 0 || facts.ancestorVsize < vsize ||
      facts.descendantVsize < vsize)
    (.inconsistentAncestry vsize facts.ancestorCount facts.ancestorVsize facts.descendantCount
      facts.descendantVsize)
  return {
    txid, wtxid, vsize, weight := facts.weight, feeSats, enteredAtMs
    ancestorCount := facts.ancestorCount, ancestorVsize := facts.ancestorVsize
    ancestorFeeSats := facts.ancestorFeeSats, descendantCount := facts.descendantCount
    descendantVsize := facts.descendantVsize, replaceable := facts.replaceable
    transactionStructure := none, classifications := [], bip110 := none }

-- ---------------------------------------------------------------------------
-- Snapshots
-- ---------------------------------------------------------------------------

/-- The block a membership was read at. -/
structure ChainTip where
  height : Nat
  hash : String
deriving DecidableEq, Repr

inductive Bip110Scope where
  | knotsMempoolPolicy
deriving DecidableEq, Repr

/-- The verdicts of all rows together. -/
structure Bip110Summary where
  evaluatorId : String
  evaluatorVersion : String
  scope : Bip110Scope
  compatibleCount : Nat
  violatingCount : Nat
  indeterminateCount : Nat
  unclassifiedCount : Nat
deriving DecidableEq, Repr

/-- The loop body of `Bip110Summary::from_transactions`. -/
def Bip110Summary.count (summary : Bip110Summary) (entry : MempoolEntry) : Bip110Summary :=
  match entry.bip110.map Bip110Assessment.status with
  | some .compatible => { summary with compatibleCount := summary.compatibleCount + 1 }
  | some .violating => { summary with violatingCount := summary.violatingCount + 1 }
  | some .indeterminate => { summary with indeterminateCount := summary.indeterminateCount + 1 }
  | none => { summary with unclassifiedCount := summary.unclassifiedCount + 1 }

/-- The summary counts each row once. -/
def Bip110Summary.fromTransactions (transactions : List MempoolEntry) : Bip110Summary :=
  transactions.foldl Bip110Summary.count {
    evaluatorId := bip110EvaluatorId, evaluatorVersion := bip110EvaluatorVersion
    scope := .knotsMempoolPolicy, compatibleCount := 0, violatingCount := 0
    indeterminateCount := 0, unclassifiedCount := 0 }

/-- One transaction's contribution to the summary of one lens. -/
def ClassifierSummary.count (id : String) (summary : ClassifierSummary) (entry : MempoolEntry) :
    ClassifierSummary :=
  match entry.classifications.find? fun result => result.classifierId == id with
  | none => { summary with unclassifiedCount := summary.unclassifiedCount + 1 }
  | some result =>
    let counted := match result.state with
      | .complete => { summary with completeCount := summary.completeCount + 1 }
      | .partialResult => { summary with partialCount := summary.partialCount + 1 }
    { counted with
      labelCounts := result.labels.foldl (fun counts label => counts.modify label (· + 1))
        counted.labelCounts }

/-- What one lens says of the rows: each result's labels are counted once. -/
def classifierSummary (transactions : List MempoolEntry) (descriptor : ClassifierDescriptor) :
    ClassifierSummary :=
  transactions.foldl (ClassifierSummary.count descriptor.id) {
    classifierId := descriptor.id, completeCount := 0, partialCount := 0, unclassifiedCount := 0
    labelCounts := Std.ExtTreeMap.ofList (descriptor.labels.map fun label => (label.key, 0)) }

/-- One summary for each lens of the catalog. -/
def classifierSummaries (transactions : List MempoolEntry) : List ClassifierSummary :=
  classifierCatalog.map (classifierSummary transactions)

/-- A snapshot: its header, its summaries and its rows. -/
structure MempoolSnapshot where
  sourceId : String
  sourceLabel : String
  collectionStartedAtMs : Nat
  collectionCompletedAtMs : Nat
  collectionDurationMs : Nat
  observedAtMs : Nat
  classificationRevision : Nat
  chainTip : ChainTip
  transactionCount : Nat
  totalVsize : Nat
  classifierCatalog : List ClassifierDescriptor
  classificationSummaries : List ClassifierSummary
  bip110Summary : Bip110Summary
  transactions : List MempoolEntry

def isAsciiAlphanumeric (c : Char) : Bool :=
  (c.val ≥ 0x30 && c.val ≤ 0x39) || (c.val ≥ 0x41 && c.val ≤ 0x5a) || (c.val ≥ 0x61 && c.val ≤ 0x7a)

/-- A source id is short, and of the characters a link carries as they are. -/
def validateSourceId (value : String) : Except ModelError Unit :=
  ensure (value.isEmpty || value == "." || value == ".." || value.utf8ByteSize > 64 ||
      !value.toList.all fun c => isAsciiAlphanumeric c || c == '.' || c == '_' || c == '-')
    (.invalidSourceId value)

/-- A label is short and says something. -/
def validateSourceLabel (value : String) : Except ModelError Unit :=
  ensure (value.toList.all isWhitespace || value.utf8ByteSize > 128) (.invalidSourceLabel value)

/-- The sum of the sizes must not overflow. -/
def addVsize (total : Nat) (entry : MempoolEntry) : Except ModelError Nat :=
  match checkedAdd total entry.vsize with
  | some sum => .ok sum
  | none => .error .totalVsizeOverflow

namespace MempoolSnapshot

/-- `new_with_collection_window`: the window is consistent, the rows are strictly sorted and every
number is safe. -/
def newWithCollectionWindow (sourceId sourceLabel : String)
    (collectionStartedAtMs collectionCompletedAtMs collectionDurationMs : Nat)
    (chainTip : ChainTip) (transactions : List MempoolEntry) :
    Except ModelError MempoolSnapshot := do
  validateSourceId sourceId
  validateSourceLabel sourceLabel
  ensureSafeIntegers [("collection_started_at_ms", collectionStartedAtMs),
    ("collection_completed_at_ms", collectionCompletedAtMs),
    ("collection_duration_ms", collectionDurationMs)]
  ensure (collectionCompletedAtMs < collectionStartedAtMs)
    (.invalidCollectionWindow collectionStartedAtMs collectionCompletedAtMs)
  ensure (collectionDurationMs != collectionCompletedAtMs - collectionStartedAtMs)
    (.collectionDurationMismatch collectionStartedAtMs collectionCompletedAtMs
      collectionDurationMs)
  ensureSafeInteger "chain_tip.height" chainTip.height
  ensure ((transactions.zip transactions.tail).any fun (left, right) => right.txid ≤ left.txid)
    .transactionsNotStrictlySorted
  ensure (transactions.length > u64Max || transactions.length > maxSafeJsonInteger)
    .snapshotTooLarge
  let totalVsize ← transactions.foldlM addVsize 0
  ensureSafeInteger "total_vsize" totalVsize
  return {
    sourceId, sourceLabel, collectionStartedAtMs, collectionCompletedAtMs, collectionDurationMs
    observedAtMs := collectionCompletedAtMs, classificationRevision := 0, chainTip
    transactionCount := transactions.length, totalVsize
    classifierCatalog := Model.classifierCatalog
    classificationSummaries := classifierSummaries transactions
    bip110Summary := Bip110Summary.fromTransactions transactions, transactions }

/-- The snapshot at another revision. -/
def withClassificationRevision (snapshot : MempoolSnapshot) (classificationRevision : Nat) :
    Except ModelError MempoolSnapshot := do
  ensureSafeInteger "classification_revision" classificationRevision
  return { snapshot with classificationRevision }

end MempoolSnapshot

-- ---------------------------------------------------------------------------
-- Transaction details and their validators
-- ---------------------------------------------------------------------------

/-- What classification publishes of one transaction. -/
structure TransactionClassification where
  txid : String
  wtxid : String
  transactionStructure : TransactionStructure
  results : List ClassificationResult
  assessment : Bip110Assessment
  rules : List Bip110RuleDetail
deriving DecidableEq, Repr

/-- The records of a source, by transaction identifier. -/
abbrev TransactionClassifications := BTreeMap String TransactionClassification

/-- Whether a list of strings has as many distinct members as members, which the
source decides by collecting it into a set. -/
def allDistinct (values : List String) : Bool :=
  (Std.ExtTreeSet.ofList values : BTreeSet String).size == values.length

/-- A result must be the one its lens may give. -/
def validateClassifierResult (txid : String)
    (pair : ClassificationResult × ClassifierDescriptor) : Except ModelError Unit := do
  let (result, descriptor) := pair
  ensure (result.classifierId != descriptor.id)
    (.invalidClassificationDetail txid "classifier results must use canonical order")
  ensure ((result.labels.isEmpty && result.state != .partialResult) ||
      result.evidence.isNone ||
      (result.state == .complete && !result.missingFacts.isEmpty) ||
      (result.state == .partialResult && result.missingFacts.isEmpty) ||
      (match result.primaryLabel with
        | some primary => !result.labels.contains primary
        | none => false))
    (.invalidClassificationDetail txid
      "classifier result state, labels, or evidence is inconsistent")
  ensure (!allDistinct result.labels ||
      !result.labels.all fun label => (descriptor.labels.map (·.key)).contains label)
    (.invalidClassificationDetail txid
      "classifier result contains duplicate or undeclared labels")
  ensure (!allDistinct result.missingFacts)
    (.invalidClassificationDetail txid "classifier result contains duplicate missing facts")

/-- There is one result for each lens of the catalog, in its order. -/
def validateClassifierResults (txid : String) (results : List ClassificationResult) :
    Except ModelError Unit := do
  ensure (results.length != classifierCatalog.length)
    (.invalidClassificationDetail txid "must contain every classifier result")
  checkAll (validateClassifierResult txid) (results.zip classifierCatalog)

/-- The label of the policy lens for a verdict. -/
def policyLabel : Bip110Status → String
  | .compatible => "compatible"
  | .violating => "violating"
  | .indeterminate => "indeterminate"

/-- The loop body of `validate_classification`: one rule detail against its
canonical rule, with the violated and unknown rules found so far. -/
def validateRuleDetail (txid : String) (found : List Bip110RuleId × List Bip110RuleId)
    (pair : Bip110RuleDetail × Bip110RuleId) :
    Except ModelError (List Bip110RuleId × List Bip110RuleId) := do
  let (detail, expectedRule) := pair
  let (violatedRules, unknownRules) := found
  ensure (detail.rule != expectedRule || detail.number != expectedRule.number)
    (.invalidClassificationDetail txid "rules must use canonical order and numbering")
  ensure (detail.evidence.length > maxBip110DetailExemplarsPerRule ||
      detail.missing.length > maxBip110DetailExemplarsPerRule)
    (.invalidClassificationDetail txid "retained rule exemplars exceed the configured bound")
  ensure (detail.evidenceCount < toU64 detail.evidence.length ||
      detail.missingCount < toU64 detail.missing.length ||
      ((detail.evidenceCount == 0) != detail.evidence.isEmpty) ||
      ((detail.missingCount == 0) != detail.missing.isEmpty))
    (.invalidClassificationDetail txid "rule exemplar counts do not match retained detail")
  match detail.verdict with
  | .pass =>
    ensure (detail.evidenceCount != 0 || detail.missingCount != 0)
      (.invalidClassificationDetail txid
        "a passing rule cannot contain evidence or missing facts")
    return (violatedRules, unknownRules)
  | .violate =>
    ensure (detail.evidenceCount == 0)
      (.invalidClassificationDetail txid "a violating rule must contain evidence")
    return (violatedRules ++ [detail.rule],
      if detail.missingCount > 0 then unknownRules ++ [detail.rule] else unknownRules)
  | .unknown =>
    ensure (detail.evidenceCount != 0 || detail.missingCount == 0)
      (.invalidClassificationDetail txid "an unknown rule must contain only missing facts")
    return (violatedRules, unknownRules ++ [detail.rule])

/-- A violation outweighs what is unknown. -/
def statusOf (violatedRules unknownRules : List Bip110RuleId) : Bip110Status :=
  if violatedRules.isEmpty then
    if unknownRules.isEmpty then .compatible else .indeterminate
  else .violating

/-- Whether the `knots_bip110` result is the projection of the assessment. -/
def policyResultMatches (policy : ClassificationResult) (assessment : Bip110Assessment) : Bool :=
  let expectedPolicyLabel := policyLabel assessment.status
  let policyIsPartial := !assessment.unknownRules.isEmpty
  policy.primaryLabel == some expectedPolicyLabel &&
    policy.labels == [expectedPolicyLabel] &&
    policy.state == (if policyIsPartial then .partialResult else .complete) &&
    policy.missingFacts == (if policyIsPartial then ["policy_facts"] else [])

/-- `validate_classification`: what every published record satisfies. -/
def validateClassification (classification : TransactionClassification) :
    Except ModelError Unit := do
  validateClassifierResults classification.txid classification.results
  match classification.results.find? fun result =>
      result.classifierId == knotsBip110ClassifierId with
  -- the `expect` of the source: canonical results include BIP-110
  | none => .error (.invalidClassificationDetail classification.txid
      "canonical classifier results include BIP-110")
  | some policy =>
    ensure (!policyResultMatches policy classification.assessment)
      (.invalidClassificationDetail classification.txid
        "BIP-110 classifier result does not match its policy assessment")
    ensure (classification.rules.length != Bip110RuleId.all.length)
      (.invalidClassificationDetail classification.txid "must contain all seven rules")
    let (violatedRules, unknownRules) ←
      (classification.rules.zip Bip110RuleId.all).foldlM (validateRuleDetail classification.txid)
        ([], [])
    ensure (classification.assessment.status != statusOf violatedRules unknownRules ||
        classification.assessment.violatedRules != violatedRules ||
        classification.assessment.unknownRules != unknownRules ||
        (match classification.assessment.primaryRule with
          | some rule => !violatedRules.contains rule
          | none => false))
      (.invalidClassificationDetail classification.txid
        "compact assessment does not match rule detail")

-- ---------------------------------------------------------------------------
-- Observations
-- ---------------------------------------------------------------------------

/-- A snapshot with the records behind its rows. -/
structure MempoolObservation where
  snapshot : MempoolSnapshot
  classifications : TransactionClassifications

/-- The membership row with the compact facts of its detail record, or with none. -/
def materializeEntry (classifications : TransactionClassifications) (entry : MempoolEntry) :
    MempoolEntry :=
  match classifications[entry.txid]? with
  | some classification =>
    { entry with
      classifications := classification.results.map ClassificationResult.compact
      bip110 := some classification.assessment
      transactionStructure := some classification.transactionStructure }
  | none => { entry with classifications := [], bip110 := none, transactionStructure := none }

namespace MempoolObservation

/-- The row of a txid. The source binary-searches the strictly sorted rows. -/
def findEntry (transactions : List MempoolEntry) (txid : String) : Option MempoolEntry :=
  transactions.find? fun entry => entry.txid == txid

/-- A record is kept under its identifier, and belongs to a row of the same variant. -/
def checkDetail (snapshot : MempoolSnapshot) (item : String × TransactionClassification) :
    Except ModelError Unit := do
  let (txid, classification) := item
  validateClassification classification
  ensure (txid != classification.txid) (.classificationKeyMismatch txid classification.txid)
  match findEntry snapshot.transactions txid with
  | none => .error (.classificationNotInSnapshot txid)
  | some entry =>
    ensure (entry.wtxid != classification.wtxid ||
        entry.classifications != classification.results.map ClassificationResult.compact ||
        entry.bip110 != some classification.assessment ||
        entry.transactionStructure != some classification.transactionStructure)
      (.classificationVariantMismatch txid)

/-- A classified row has a record. -/
def checkEntry (classifications : TransactionClassifications) (entry : MempoolEntry) :
    Except ModelError Unit :=
  ensure ((!entry.classifications.isEmpty || entry.bip110.isSome ||
      entry.transactionStructure.isSome) && !classifications.contains entry.txid)
    (.classificationDetailMissing entry.txid)

/-- `MempoolObservation::new`: the records and the rows agree. -/
def new (snapshot : MempoolSnapshot) (classifications : TransactionClassifications) :
    Except ModelError MempoolObservation := do
  ensureSafeInteger "classification_revision" snapshot.classificationRevision
  checkAll (checkDetail snapshot) classifications.toList
  checkAll (checkEntry classifications) snapshot.transactions
  return { snapshot, classifications }

/-- Materializes an observation from a classification map already retained
against this exact membership generation. -/
def materializeRetained (membership : MempoolSnapshot) (classificationRevision : Nat)
    (classifications : TransactionClassifications) : Except ModelError MempoolObservation := do
  let snapshot ← MempoolSnapshot.newWithCollectionWindow membership.sourceId
    membership.sourceLabel membership.collectionStartedAtMs membership.collectionCompletedAtMs
    membership.collectionDurationMs membership.chainTip
    (membership.transactions.map (materializeEntry classifications))
  let snapshot ← snapshot.withClassificationRevision classificationRevision
  MempoolObservation.new snapshot classifications

end MempoolObservation

-- ---------------------------------------------------------------------------
-- Source summaries
-- ---------------------------------------------------------------------------

/-- The state a source is served in. -/
inductive SourceAvailability where
  | waiting
  | ready
  | stale
  | error
deriving DecidableEq, Repr

/-- How far a source's classification is. -/
inductive ClassificationState where
  | classifying
  | complete
  | paused
deriving DecidableEq, Repr

/-- How many rows are classified, and whether there is more to do. -/
structure ClassificationProgress where
  state : ClassificationState
  revision : Nat
  classifiedCount : Nat
  unclassifiedCount : Nat
deriving DecidableEq, Repr

/-- The progress of a snapshot counts its classified rows. -/
def ClassificationProgress.fromSnapshot (state : ClassificationState)
    (snapshot : MempoolSnapshot) : ClassificationProgress :=
  let summary := snapshot.bip110Summary
  { state
    revision := snapshot.classificationRevision
    classifiedCount := summary.compatibleCount + summary.violatingCount +
      summary.indeterminateCount
    unclassifiedCount := summary.unclassifiedCount }

/-- What the list of sources says of one. -/
structure SourceSummary where
  sourceId : String
  sourceLabel : String
  availability : SourceAvailability
  pollIntervalSeconds : Nat
  lastPollStartedAtMs : Option Nat
  snapshotObservedAtMs : Option Nat
  chainTip : Option ChainTip
  transactionCount : Option Nat
  totalVsize : Option Nat
  classification : Option ClassificationProgress
  lastError : Option String
deriving DecidableEq, Repr

/-- The body of a snapshot request: the source, and its snapshot when there is one. -/
structure SourceSnapshotResponse where
  source : SourceSummary
  snapshot : Option MempoolSnapshot

end MempoolAtlas.Model
