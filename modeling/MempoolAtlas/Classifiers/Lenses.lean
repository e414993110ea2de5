import MempoolAtlas.Classifiers.DataProtocols
import MempoolAtlas.Bip110.Rules

/-!
# The classifier lenses

The rest of `src/classifiers.rs` and the producer side of
`src/classification.rs`: the structural facts of a raw transaction, the four
independent lenses, and the projection of the policy evidence into the
published assessment and rule details.
-/

namespace MempoolAtlas.Classifiers

open BitcoinCrate Model Machine Bip110

/-- The fewest inputs of a possible CoinJoin. -/
def coinjoinMinInputs : Nat := 5

/-- The fewest outputs of a possible CoinJoin. -/
def coinjoinMinOutputs : Nat := 5

/-- The fewest equal outputs of a possible CoinJoin. -/
def coinjoinMinEqualOutputs : Nat := 3

/-- How many times more inputs or outputs make a shape. -/
def shapeRatio : Nat := 5

/-- The labels of `transaction_properties`, in order. -/
def propertyLabelOrder : List String :=
  ["version_1", "version_2", "version_3", "version_other", "signals_rbf", "has_witness",
    "has_taproot_annex", "p2pk", "bare_multisig", "p2pkh", "p2sh", "p2wpkh", "p2wsh", "p2tr",
    "p2a", "unknown_witness_program", "op_return", "unknown_script"]

/-- The labels of `transaction_shape`, in order. -/
def shapeLabelOrder : List String :=
  ["possible_coinjoin", "consolidation", "batch_payout", "other_shape"]

/-- The labels that were found, in the order of their lens. -/
def orderedLabels (found : BTreeSet String) (order : List String) : List String :=
  order.filter found.contains

section Crate

variable [BitcoinCrate]

-- ---------------------------------------------------------------------------
-- Structure
-- ---------------------------------------------------------------------------

/-- The running `(op_return_bytes, output_sats)` of `transaction_structure`. -/
def addOutput (totals : Nat × Nat) (txout : TxOut) : Nat × Nat :=
  let outputSats := saturatingAdd totals.2 txout.value
  if isOpReturn txout.scriptPubkey then
    (saturatingAdd totals.1 (toU64 (opReturnPayload txout.scriptPubkey).length), outputSats)
  else (totals.1, outputSats)

/-- The counts and sums of a transaction, in 64 bits. -/
def transactionStructure (transaction : Transaction) : Except ModelError TransactionStructure :=
  let (opReturnBytes, outputSats) := transaction.output.foldl addOutput (0, 0)
  TransactionStructure.new (toU64 transaction.input.length) (toU64 transaction.output.length)
    opReturnBytes outputSats (toU64 (totalSize transaction - baseSize transaction))

-- ---------------------------------------------------------------------------
-- Transaction properties
-- ---------------------------------------------------------------------------

/-- The family of a script, by the first template it matches. -/
def scriptFamily (script : Script) : String :=
  if isP2pk script then "p2pk"
  else if isMultisig script then "bare_multisig"
  else if isP2pkh script then "p2pkh"
  else if isP2sh script then "p2sh"
  else if isP2wpkh script then "p2wpkh"
  else if isP2wsh script then "p2wsh"
  else if isP2tr script then "p2tr"
  else if script == [0x51, 0x02, 0x4e, 0x73] then "p2a"
  else if isWitnessProgram script then "unknown_witness_program"
  else if isOpReturn script then "op_return"
  else "unknown_script"

/-- Whether the last of two or more witness elements looks like an annex. -/
def hasAnnexCandidate (input : TxIn) : Bool :=
  input.witness.length ≥ 2 && (match input.witness.getLast? with
    | some element => element.head? == some 0x50
    | none => false)

/-- The accumulators of `transaction_properties`. -/
structure PropertyTally where
  found : BTreeSet String
  familyCounts : BTreeMap String Nat
  knownInputScripts : Nat
  missingInputScripts : Nat
  annexInputCount : Nat

namespace PropertyTally

/-- A family is found once more. -/
def countFamily (tally : PropertyTally) (family : String) : PropertyTally :=
  { tally with
    found := tally.found.insert family
    familyCounts := tally.familyCounts.insert family (tally.familyCounts.getD family 0 + 1) }

/-- An output's family counts. -/
def countOutput (tally : PropertyTally) (txout : TxOut) : PropertyTally :=
  tally.countFamily (scriptFamily txout.scriptPubkey)

/-- An input's family counts when its prevout is known. -/
def countInput (prevouts : PrevoutSet) (tally : PropertyTally) (indexed : TxIn × Nat) :
    PropertyTally :=
  let (input, index) := indexed
  match prevouts.get index with
  | none => { tally with missingInputScripts := tally.missingInputScripts + 1 }
  | some prevout =>
    let known := { tally.countFamily (scriptFamily prevout.scriptPubkey) with
      knownInputScripts := tally.knownInputScripts + 1 }
    if isP2tr prevout.scriptPubkey && hasAnnexCandidate input then
      { known with
        annexInputCount := known.annexInputCount + 1
        found := known.found.insert "has_taproot_annex" }
    else known

end PropertyTally

/-- The label of a version. -/
def versionLabel (version : Int) : String :=
  if version == 1 then "version_1"
  else if version == 2 then "version_2"
  else if version == 3 then "version_3"
  else "version_other"

/-- The inputs that signal replacement. -/
def rbfInputCount (transaction : Transaction) : Nat :=
  transaction.input.countP fun input => sequenceIsRbf input.sequence

/-- The inputs with a witness. -/
def witnessInputCount (transaction : Transaction) : Nat :=
  transaction.input.countP fun input => !input.witness.isEmpty

/-- The labels that need no spent-output script. -/
def serializedProperties (transaction : Transaction) : BTreeSet String :=
  let version := (∅ : BTreeSet String).insert (versionLabel transaction.version)
  let rbf := if rbfInputCount transaction > 0 then version.insert "signals_rbf" else version
  if witnessInputCount transaction > 0 then rbf.insert "has_witness" else rbf

/-- Outputs count first, then inputs. -/
def propertyTally (transaction : Transaction) (prevouts : PrevoutSet) : PropertyTally :=
  let outputs := transaction.output.foldl PropertyTally.countOutput
    { found := serializedProperties transaction, familyCounts := ∅, knownInputScripts := 0
      missingInputScripts := 0, annexInputCount := 0 }
  transaction.input.zipIdx.foldl (PropertyTally.countInput prevouts) outputs

/-- The state and missing-fact list of a lens over the spent-output scripts. -/
def scriptCoverage (allKnown : Bool) : ClassificationResultState × List String :=
  if allKnown then (.complete, []) else (.partialResult, ["input_script_pubkeys"])

/-- `transaction_properties`: version, signals and script families. -/
def transactionProperties (transaction : Transaction) (prevouts : PrevoutSet) :
    ClassificationResult :=
  let tally := propertyTally transaction prevouts
  let (state, missingFacts) := scriptCoverage (tally.missingInputScripts == 0)
  { classifierId := transactionPropertiesClassifierId
    state, primaryLabel := none, labels := orderedLabels tally.found propertyLabelOrder
    missingFacts
    evidence := some (.transactionProperties transaction.version transaction.input.length
      transaction.output.length tally.knownInputScripts tally.missingInputScripts
      tally.familyCounts.toList (rbfInputCount transaction) (witnessInputCount transaction)
      tally.annexInputCount) }

-- ---------------------------------------------------------------------------
-- Transaction shape
-- ---------------------------------------------------------------------------

/-- A nonzero value counts. -/
def countValue (counts : BTreeMap Nat Nat) (txout : TxOut) : BTreeMap Nat Nat :=
  if txout.value > 0 then counts.insert txout.value (counts.getD txout.value 0 + 1) else counts

/-- `max_by_key (count, value)` over the values in increasing order. -/
def laterMaximum (best : Option (Nat × Nat)) (entry : Nat × Nat) : Option (Nat × Nat) :=
  match best with
  | none => some entry
  | some (value, count) =>
    if entry.2 > count || (entry.2 == count && entry.1 ≥ value) then some entry
    else some (value, count)

/-- The most repeated nonzero value. -/
def mostRepeatedNonzeroOutput (transaction : Transaction) : Option (Nat × Nat) :=
  (transaction.output.foldl countValue ∅).toList.foldl laterMaximum none

def allUnique (values : List Script) : Bool := decide values.Nodup

/-- Whether every prevout is known. -/
def allInputScriptsKnown (transaction : Transaction) (prevouts : PrevoutSet) : Bool :=
  transaction.input.length == prevouts.len &&
    (List.range transaction.input.length).all fun index => (prevouts.get index).isSome

/-- Many inputs for each output. -/
def isConsolidation (transaction : Transaction) : Bool :=
  transaction.input.length ≥ shapeRatio && transaction.output.length > 0 &&
    transaction.input.length ≥ saturatingMul transaction.output.length shapeRatio

/-- Many outputs for each input. -/
def isBatchPayout (transaction : Transaction) : Bool :=
  transaction.output.length ≥ shapeRatio && transaction.input.length > 0 &&
    transaction.output.length ≥ saturatingMul transaction.input.length shapeRatio

/-- No two outputs have one script. -/
def uniqueOutputs (transaction : Transaction) : Bool :=
  allUnique (transaction.output.map TxOut.scriptPubkey)

/-- No two inputs have one script, all of them known. -/
def uniqueInputs (transaction : Transaction) (prevouts : PrevoutSet) : Bool :=
  allInputScriptsKnown transaction prevouts &&
    allUnique ((List.range transaction.input.length).filterMap fun index =>
      (prevouts.get index).map PrevoutFacts.scriptPubkey)

/-- Whether the data lens found a protocol. -/
def hasDataProtocol (data : ClassificationResult) : Bool :=
  data.labels.any fun label => label != "no_detected_protocol"

/-- Enough inputs and outputs, equal values, no script used twice and no protocol. -/
def isPossibleCoinjoin (transaction : Transaction) (prevouts : PrevoutSet)
    (data : ClassificationResult) : Bool :=
  transaction.input.length ≥ coinjoinMinInputs && transaction.output.length ≥ coinjoinMinOutputs &&
    (match mostRepeatedNonzeroOutput transaction with
      | some (_, count) => count ≥ coinjoinMinEqualOutputs
      | none => false) &&
    uniqueOutputs transaction && uniqueInputs transaction prevouts && !hasDataProtocol data

/-- The count-based heuristics, then the CoinJoin heuristic, then the negative
claim, which needs every heuristic to be terminal. -/
def shapeLabels (transaction : Transaction) (prevouts : PrevoutSet)
    (data : ClassificationResult) : BTreeSet String :=
  let consolidation : BTreeSet String :=
    if isConsolidation transaction then (∅ : BTreeSet String).insert "consolidation" else ∅
  let batch :=
    if isBatchPayout transaction then consolidation.insert "batch_payout" else consolidation
  let coinjoin :=
    if isPossibleCoinjoin transaction prevouts data then batch.insert "possible_coinjoin" else batch
  if coinjoin.isEmpty && allInputScriptsKnown transaction prevouts then
    coinjoin.insert "other_shape"
  else coinjoin

/-- `transaction_shape`: heuristics over counts, values and scripts. -/
def transactionShape (transaction : Transaction) (prevouts : PrevoutSet)
    (data : ClassificationResult) : ClassificationResult :=
  let found := shapeLabels transaction prevouts data
  let allKnown := allInputScriptsKnown transaction prevouts
  let (state, missingFacts) := scriptCoverage allKnown
  { classifierId := transactionShapeClassifierId
    state, primaryLabel := shapeLabelOrder.find? found.contains
    labels := orderedLabels found shapeLabelOrder, missingFacts
    evidence := some (.transactionShape transaction.input.length transaction.output.length
      shapeRatio (mostRepeatedNonzeroOutput transaction) (uniqueOutputs transaction)
      (if allKnown then some (uniqueInputs transaction prevouts) else none)
      (hasDataProtocol data)) }

-- ---------------------------------------------------------------------------
-- Data protocols and policy
-- ---------------------------------------------------------------------------

/-- The labels of the data lens, which always has one. -/
def dataLabels (analysis : DataAnalysis) : BTreeSet String :=
  if analysis.labels.isEmpty then analysis.labels.insert "no_detected_protocol"
  else analysis.labels

/-- `data_protocols`: what the outputs and witnesses carry. -/
def dataProtocols (transaction : Transaction) : ClassificationResult :=
  let analysis := analyzeData transaction
  let labels := dataLabels analysis
  { classifierId := dataProtocolsClassifierId
    state := .complete, primaryLabel := dataLabelOrder.find? labels.contains
    labels := orderedLabels labels dataLabelOrder, missingFacts := []
    evidence := some (.dataProtocols analysis.detections) }

/-- The assessment as a lens's result. -/
def bip110Result (assessment : Bip110Assessment) : ClassificationResult :=
  let primary := match assessment.status with
    | .compatible => "compatible"
    | .violating => "violating"
    | .indeterminate => "indeterminate"
  let isPartial := !assessment.unknownRules.isEmpty
  { classifierId := knotsBip110ClassifierId
    state := if isPartial then .partialResult else .complete
    primaryLabel := some primary, labels := [primary]
    missingFacts := if isPartial then ["policy_facts"] else []
    evidence := some (.knotsBip110 assessment) }

/-- `classify_transaction`: the results of the four lenses, in the catalog's order. -/
def classifyTransaction (transaction : Transaction) (prevouts : PrevoutSet)
    (bip110 : Bip110Assessment) : List ClassificationResult :=
  let data := dataProtocols transaction
  [transactionProperties transaction prevouts, transactionShape transaction prevouts data, data,
    bip110Result bip110]

-- ---------------------------------------------------------------------------
-- classification.rs: the projection of the policy evidence
-- ---------------------------------------------------------------------------

/-- The rule as the model names it. -/
def publicRuleId : RuleId → Bip110RuleId
  | .outputSize => .outputSize
  | .elementSize => .elementSize
  | .undefinedVersion => .undefinedVersion
  | .taprootAnnex => .taprootAnnex
  | .controlBlockSize => .controlBlockSize
  | .opSuccess => .opSuccess
  | .tapscriptOpIf => .tapscriptOpIf

/-- The verdict as the model names it. -/
def publicVerdict : RuleVerdict → Bip110RuleVerdict
  | .pass => .pass
  | .violate .. => .violate
  | .unknown _ => .unknown

/-- What a rule found, with as many exemplars as are published. -/
def publicRuleDetail (outcome : RuleOutcome) : Bip110RuleDetail :=
  let rule := publicRuleId outcome.rule
  { rule, number := rule.number, verdict := publicVerdict outcome.verdict
    evidenceCount := toU64 outcome.verdict.evidence.length
    evidence := outcome.verdict.evidence.take maxBip110DetailExemplarsPerRule
    missingCount := toU64 outcome.verdict.missing.length
    missing := outcome.verdict.missing.take maxBip110DetailExemplarsPerRule }

/-- The violated and unknown rules after one more outcome. -/
def addOutcome (found : List Bip110RuleId × List Bip110RuleId) (outcome : RuleOutcome) :
    List Bip110RuleId × List Bip110RuleId :=
  let rule := publicRuleId outcome.rule
  match outcome.verdict with
  | .pass => found
  | .violate _ missing =>
    (found.1 ++ [rule], if missing.isEmpty then found.2 else found.2 ++ [rule])
  | .unknown _ => (found.1, found.2 ++ [rule])

/-- The compact assessment of the rules' outcomes. -/
def assessmentFromEvidence (evidence : TxEvidence) : Bip110Assessment :=
  let (violatedRules, unknownRules) := evidence.rules.foldl addOutcome ([], [])
  { status := statusOf violatedRules unknownRules
    primaryRule := evidence.primaryViolation.map fun primary => publicRuleId primary.rule
    violatedRules, unknownRules }

/-- The record before its lenses are run. -/
def classificationFromEvidence (txid wtxid : String) (structure' : TransactionStructure)
    (evidence : TxEvidence) : TransactionClassification :=
  { txid, wtxid, transactionStructure := structure', results := []
    assessment := assessmentFromEvidence evidence
    rules := evidence.rules.map publicRuleDetail }

/-- The classification `classify_ready` publishes for one candidate whose
structure derives. -/
def classifyCandidate (txid wtxid : String) (structure' : TransactionStructure)
    (transaction : Transaction) (prevouts : PrevoutSet) : TransactionClassification :=
  let classification := classificationFromEvidence txid wtxid structure'
    (evaluateMempoolPolicy transaction prevouts)
  { classification with
    results := classifyTransaction transaction prevouts classification.assessment }

end Crate

end MempoolAtlas.Classifiers
