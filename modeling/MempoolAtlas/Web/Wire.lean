import MempoolAtlas.Lib.Json
import MempoolAtlas.Model.Snapshot

/-!
# The wire format

The JSON that serde derives for a snapshot response: the fields of every struct
under their own names, an enumeration by its `snake_case` variant, an absent
value as `null`, a map as an object, integers exact. The evidence objects are
those the lenses build with `json!`.
-/

namespace MempoolAtlas.Web

open Model

/-- A missing value is written as `null`. -/
def optional {α : Type} (toJson : α → Json) : Option α → Json
  | none => .null
  | some a => toJson a

def number (n : Nat) : Json := .num n

/-- An array of strings. -/
def strings (values : List String) : Json := .arr (values.map Json.str)

-- ---------------------------------------------------------------------------
-- Enumerations
-- ---------------------------------------------------------------------------

/-- The `snake_case` name of a rule, in the wire format and in the links alike. -/
def ruleIdName : Bip110RuleId → String
  | .outputSize => "output_size"
  | .elementSize => "element_size"
  | .undefinedVersion => "undefined_version"
  | .taprootAnnex => "taproot_annex"
  | .controlBlockSize => "control_block_size"
  | .opSuccess => "op_success"
  | .tapscriptOpIf => "tapscript_op_if"

/-- The `snake_case` name of a verdict. -/
def statusName : Bip110Status → String
  | .compatible => "compatible"
  | .violating => "violating"
  | .indeterminate => "indeterminate"

/-- The `snake_case` name of how a lens decides. -/
def methodologyName : ClassifierMethodology → String
  | .exact => "exact"
  | .heuristic => "heuristic"
  | .fingerprint => "fingerprint"
  | .policy => "policy"

/-- The `snake_case` name of what the labels of a lens mean. -/
def semanticsName : ClassifierSemantics → String
  | .multiLabel => "multi_label"
  | .ruleSet => "rule_set"

/-- The `snake_case` name of how complete a result is. -/
def resultStateName : ClassificationResultState → String
  | .complete => "complete"
  | .partialResult => "partial"

/-- The `snake_case` name of what the BIP-110 assessments cover. -/
def scopeName : Bip110Scope → String
  | .knotsMempoolPolicy => "knots_mempool_policy"

/-- The `snake_case` name of the state a source is served in. -/
def availabilityName : SourceAvailability → String
  | .waiting => "waiting"
  | .ready => "ready"
  | .stale => "stale"
  | .error => "error"

/-- The `snake_case` name of how far a source's classification is. -/
def classificationStateName : ClassificationState → String
  | .classifying => "classifying"
  | .complete => "complete"
  | .paused => "paused"

-- ---------------------------------------------------------------------------
-- Assessments, results and evidence
-- ---------------------------------------------------------------------------

/-- Rule names, in the order they are listed. -/
def ruleIds (rules : List Bip110RuleId) : Json := strings (rules.map ruleIdName)

/-- A `Bip110Assessment`. -/
def assessmentJson (assessment : Bip110Assessment) : Json := .obj [
  ("status", .str (statusName assessment.status)),
  ("primary_rule", optional (fun rule => .str (ruleIdName rule)) assessment.primaryRule),
  ("violated_rules", ruleIds assessment.violatedRules),
  ("unknown_rules", ruleIds assessment.unknownRules)]

/-- An entry of `detections`, with the keys it has. -/
def detectionJson (detection : Detection) : Json :=
  let optionalField := fun (key : String) (value : Option Json) => value.map fun json => (key, json)
  .obj ([
    some ("label", .str detection.label),
    some ("carrier", .str detection.carrier),
    optionalField "input" (detection.input.map number),
    optionalField "element" (detection.element.map number),
    optionalField "output" (detection.output.map number),
    optionalField "output_count" (detection.outputCount.map number),
    optionalField "outputs" (detection.outputs.map fun outputs => .arr (outputs.map number)),
    optionalField "detection" (detection.detection.map .str),
    optionalField "confidence" (detection.confidence.map .str),
    optionalField "transport" (detection.transport.map .str),
    optionalField "marker" (detection.marker.map .str),
    optionalField "marker_offset" (detection.markerOffset.map number),
    optionalField "payload_bytes" (detection.payloadBytes.map number)].filterMap id)

/-- The evidence object of a lens, with the keys its `json!` gives it. -/
def evidenceJson : Evidence → Json
  | .transactionProperties version inputCount outputCount known missing families rbf witness annex =>
    .obj [
      ("version", .num version),
      ("input_count", number inputCount),
      ("output_count", number outputCount),
      ("known_input_script_count", number known),
      ("missing_input_script_count", number missing),
      ("script_family_counts", .obj (families.map fun (family, count) => (family, number count))),
      ("rbf_input_count", number rbf),
      ("witness_input_count", number witness),
      ("taproot_annex_input_count", number annex)]
  | .transactionShape inputCount outputCount ratio repeated outputsUnique inputsUnique known =>
    .obj [
      ("input_count", number inputCount),
      ("output_count", number outputCount),
      ("shape_ratio", number ratio),
      ("most_repeated_nonzero_output", optional (fun (value, count) =>
        .obj [("value_sats", number value), ("count", number count)]) repeated),
      ("output_scripts_unique", .bool outputsUnique),
      ("known_input_scripts_unique", optional .bool inputsUnique),
      ("known_data_protocol", .bool known)]
  | .dataProtocols detections => .obj [("detections", .arr (detections.map detectionJson))]
  | .knotsBip110 assessment => .obj [("assessment", assessmentJson assessment)]

/-- A `ClassificationResult`. -/
def resultJson (result : ClassificationResult) : Json := .obj [
  ("classifier_id", .str result.classifierId),
  ("state", .str (resultStateName result.state)),
  ("primary_label", optional .str result.primaryLabel),
  ("labels", strings result.labels),
  ("missing_facts", strings result.missingFacts),
  ("evidence", optional evidenceJson result.evidence)]

-- ---------------------------------------------------------------------------
-- Snapshots
-- ---------------------------------------------------------------------------

/-- A label of the catalog. -/
def labelDescriptorJson (label : ClassifierLabelDescriptor) : Json := .obj [
  ("key", .str label.key),
  ("label", .str label.label),
  ("description", .str label.description)]

/-- A lens of the catalog. -/
def descriptorJson (descriptor : ClassifierDescriptor) : Json := .obj [
  ("id", .str descriptor.id),
  ("version", .str descriptor.version),
  ("title", .str descriptor.title),
  ("methodology", .str (methodologyName descriptor.methodology)),
  ("semantics", .str (semanticsName descriptor.semantics)),
  ("required_facts", strings descriptor.requiredFacts),
  ("labels", .arr (descriptor.labels.map labelDescriptorJson))]

/-- A `ClassifierSummary`; its label counts are an object. -/
def classifierSummaryJson (summary : ClassifierSummary) : Json := .obj [
  ("classifier_id", .str summary.classifierId),
  ("complete_count", number summary.completeCount),
  ("partial_count", number summary.partialCount),
  ("unclassified_count", number summary.unclassifiedCount),
  ("label_counts", .obj (summary.labelCounts.toList.map fun (label, count) =>
    (label, number count)))]

/-- A `Bip110Summary`; its rule counts are objects. -/
def bip110SummaryJson (summary : Bip110Summary) : Json := .obj [
  ("evaluator_id", .str summary.evaluatorId),
  ("evaluator_version", .str summary.evaluatorVersion),
  ("scope", .str (scopeName summary.scope)),
  ("compatible_count", number summary.compatibleCount),
  ("violating_count", number summary.violatingCount),
  ("indeterminate_count", number summary.indeterminateCount),
  ("unclassified_count", number summary.unclassifiedCount)]

def chainTipJson (tip : ChainTip) : Json := .obj [
  ("height", number tip.height),
  ("hash", .str tip.hash)]

/-- A `TransactionStructure`. -/
def structureJson (facts : TransactionStructure) : Json := .obj [
  ("input_count", number facts.inputCount),
  ("output_count", number facts.outputCount),
  ("op_return_bytes", number facts.opReturnBytes),
  ("output_sats", number facts.outputSats),
  ("witness_bytes", number facts.witnessBytes)]

/-- A `MempoolEntry`, with every field a row has. -/
def entryJson (entry : MempoolEntry) : Json := .obj [
  ("txid", .str entry.txid),
  ("wtxid", .str entry.wtxid),
  ("vsize", number entry.vsize),
  ("weight", number entry.weight),
  ("fee_sats", number entry.feeSats),
  ("entered_at_ms", number entry.enteredAtMs),
  ("ancestor_count", number entry.ancestorCount),
  ("ancestor_vsize", number entry.ancestorVsize),
  ("ancestor_fee_sats", .num entry.ancestorFeeSats),
  ("descendant_count", number entry.descendantCount),
  ("descendant_vsize", number entry.descendantVsize),
  ("replaceable", .bool entry.replaceable),
  ("structure", optional structureJson entry.transactionStructure),
  ("classifications", .arr (entry.classifications.map resultJson)),
  ("bip110", optional assessmentJson entry.bip110)]

/-- A `MempoolSnapshot`: its header, its summaries and its rows in order. -/
def snapshotJson (snapshot : MempoolSnapshot) : Json := .obj [
  ("source_id", .str snapshot.sourceId),
  ("source_label", .str snapshot.sourceLabel),
  ("collection_started_at_ms", number snapshot.collectionStartedAtMs),
  ("collection_completed_at_ms", number snapshot.collectionCompletedAtMs),
  ("collection_duration_ms", number snapshot.collectionDurationMs),
  ("observed_at_ms", number snapshot.observedAtMs),
  ("classification_revision", number snapshot.classificationRevision),
  ("chain_tip", chainTipJson snapshot.chainTip),
  ("transaction_count", number snapshot.transactionCount),
  ("total_vsize", number snapshot.totalVsize),
  ("classifier_catalog", .arr (snapshot.classifierCatalog.map descriptorJson)),
  ("classification_summaries", .arr (snapshot.classificationSummaries.map classifierSummaryJson)),
  ("bip110_summary", bip110SummaryJson snapshot.bip110Summary),
  ("transactions", .arr (snapshot.transactions.map entryJson))]

-- ---------------------------------------------------------------------------
-- Responses
-- ---------------------------------------------------------------------------

/-- A `ClassificationProgress`. -/
def progressJson (progress : ClassificationProgress) : Json := .obj [
  ("state", .str (classificationStateName progress.state)),
  ("revision", number progress.revision),
  ("classified_count", number progress.classifiedCount),
  ("unclassified_count", number progress.unclassifiedCount)]

/-- A `SourceSummary`. -/
def summaryJson (summary : SourceSummary) : Json := .obj [
  ("source_id", .str summary.sourceId),
  ("source_label", .str summary.sourceLabel),
  ("availability", .str (availabilityName summary.availability)),
  ("poll_interval_seconds", number summary.pollIntervalSeconds),
  ("last_poll_started_at_ms", optional number summary.lastPollStartedAtMs),
  ("snapshot_observed_at_ms", optional number summary.snapshotObservedAtMs),
  ("chain_tip", optional chainTipJson summary.chainTip),
  ("transaction_count", optional number summary.transactionCount),
  ("total_vsize", optional number summary.totalVsize),
  ("classification", optional progressJson summary.classification),
  ("last_error", optional .str summary.lastError)]

/-- The body of `GET /api/sources/:id/snapshot`. -/
def responseJson (response : SourceSnapshotResponse) : Json := .obj [
  ("source", summaryJson response.source),
  ("snapshot", optional snapshotJson response.snapshot)]

end MempoolAtlas.Web
