import MempoolAtlas.Lib.Machine
import MempoolAtlas.Classifiers.Lenses
import MempoolAtlas.Classification.Limits

/-!
# Fetching transactions and prevouts

How `src/classification.rs` asks the node for raw transactions and confirmed
prevouts: the batches, what each response of a batch becomes, and the bounded
set of concurrent batch tasks. The node is not modelled: whatever
`ClassificationRpcClient::send_batch` returns, and in whatever order the tasks
of a wave finish, comes from outside.
-/

namespace MempoolAtlas.Classification

open Machine Model Classifiers BitcoinCrate

/-- `serde_json` on the raw result of one response: a string without escapes,
and the `scriptPubKey.hex` member of a `gettxout` result. -/
class WireJson where
  strFromStr : String → Option String
  getTxOutHex : String → Option String

/-- A transaction to ask for, with what its answer must be. -/
structure ExpectedVariant where
  txid : String
  wtxid : String
  vsize : Nat
deriving DecidableEq, Repr

/-- What an answer says of one item. -/
inductive RpcValue (ν : Type) where
  | found (value : ν)
  /-- The successful no-value shape: a present `result: null`. -/
  | explicitNull
  | retryableFailure
  /-- A standard RPC failure that trips the generation circuit breaker. -/
  | systemicFailure
deriving DecidableEq, Repr

/-- `ClassificationRpcResponse::outcome`. -/
inductive ClassificationRpcOutcome where
  | value (result : String)
  | null
  | rpcError (code : Int)
  | protocolFailure
  | malformed
deriving DecidableEq, Repr

/-- Why a batch has no answer. -/
inductive ClassificationRpcError where
  | responseTooLarge (actual maximum : Nat)
  | other
deriving DecidableEq, Repr

/-- What `send_batch` returns: one response, or none, for each request. -/
structure ClassificationRpcBatch where
  responses : List (Option ClassificationRpcOutcome)
  responseBytes : Nat
deriving DecidableEq, Repr

/-- The answer to a batch. -/
abbrev BatchAnswer := Except ClassificationRpcError ClassificationRpcBatch

/-- The error of a batch as the pipeline counts it. -/
def mapClassificationRpcError : ClassificationRpcError → ClassificationError
  | .responseTooLarge actual maximum => .batchResponseTooLarge actual maximum
  | .other => .batch

-- ---------------------------------------------------------------------------
-- Batches
-- ---------------------------------------------------------------------------

/-- What a raw response is estimated to take: eight bytes for each unit of size, and the JSON. -/
def estimatedRawResponseBytes (expected : ExpectedVariant) : Nat :=
  saturatingAdd (saturatingMul expected.vsize 8) estimatedJsonBytesPerResponse

/-- The estimates of a batch, saturating. -/
def estimatedRawBatchResponseBytes (expected : List ExpectedVariant) : Nat :=
  expected.foldl (fun total variant => saturatingAdd total (estimatedRawResponseBytes variant)) 0

/-- The estimate of a batch of confirmed prevouts. -/
def estimatedConfirmedBatchResponseBytes (outpointCount : Nat) : Nat :=
  saturatingMul outpointCount estimatedGettxoutResponseBytes

/-- The variants of `variants` that fit after `bounded`; the first always does. -/
def boundedVariantsLoop (maximumEntries : Nat) :
    List ExpectedVariant → List ExpectedVariant → Nat → List ExpectedVariant
  | [], bounded, _ => bounded
  | variant :: rest, bounded, estimatedBytes =>
    if bounded.length ≥ maximumEntries then bounded
    else if bounded ≠ [] ∧
        saturatingAdd estimatedBytes (estimatedRawResponseBytes variant) >
          maxRawResponseBytesPerSlice then bounded
    else
      boundedVariantsLoop maximumEntries rest (bounded ++ [variant])
        (saturatingAdd estimatedBytes (estimatedRawResponseBytes variant))

/-- `bounded_variants`: the first variants within the slice's bounds; the first one always
fits. -/
def boundedVariants (variants : List ExpectedVariant) (maximumEntries : Nat) :
    List ExpectedVariant :=
  boundedVariantsLoop maximumEntries variants [] 0

/-- How many of the remaining variants the next batch takes. -/
def rawBatchLength : List ExpectedVariant → Nat → Nat → Nat
  | [], length, _ => length
  | next :: rest, length, estimatedBytes =>
    if length ≥ rawTransactionBatchSize then length
    else if length ≠ 0 ∧
        saturatingAdd estimatedBytes (estimatedRawResponseBytes next) > maxBatchResponseBytes then
      length
    else
      rawBatchLength rest (length + 1)
        (saturatingAdd estimatedBytes (estimatedRawResponseBytes next))

/-- The first `length` items as a batch, with the items left; none when empty. -/
def splitBatch {κ : Type} (length : Nat) (remaining : List κ) : Option (List κ × List κ) :=
  let batch := remaining.take length
  if batch.isEmpty then none else some (batch, remaining.drop length)

/-- `next_raw_transaction_batch`: the next batch and what remains. -/
def nextRawTransactionBatch (remaining : List ExpectedVariant) :
    Option (List ExpectedVariant × List ExpectedVariant) :=
  splitBatch (rawBatchLength remaining 0 0) remaining

/-- The most prevouts whose estimate fits a batch. -/
def maximumConfirmedPrevoutsPerBatch : Nat :=
  min maxGettxoutBatchSize (maxBatchResponseBytes / estimatedGettxoutResponseBytes)

/-- `next_confirmed_prevout_batch`: the next batch and what remains. -/
def nextConfirmedPrevoutBatch (remaining : List OutPoint) :
    Option (List OutPoint × List OutPoint) :=
  splitBatch maximumConfirmedPrevoutsPerBatch remaining

-- ---------------------------------------------------------------------------
-- Responses
-- ---------------------------------------------------------------------------

/-- One response of a batch, with what it adds to the batch's counters. -/
structure ItemFetch (ν : Type) where
  value : RpcValue ν
  failed : Bool := false
  systemic : Bool := false
  missing : Bool := false
deriving DecidableEq, Repr

/-- A failure that may pass. -/
def ItemFetch.retryable {ν : Type} : ItemFetch ν := { value := .retryableFailure, failed := true }

/-- A response that never came. -/
def ItemFetch.missed {ν : Type} : ItemFetch ν :=
  { value := .retryableFailure, failed := true, missing := true }

/-- A failure of the node. -/
def ItemFetch.systemicFailure {ν : Type} : ItemFetch ν :=
  { value := .systemicFailure, failed := true, systemic := true }

/-- The values of a batch, with its failures counted. -/
structure BatchFetch (ν : Type) where
  values : List (RpcValue ν)
  responseFailures : Nat
  systemicResponseFailures : Nat
  missingResponses : Nat
  responseBytes : Nat
deriving DecidableEq, Repr

/-- The items of a batch, counted. -/
def BatchFetch.ofItems {ν : Type} (items : List (ItemFetch ν)) (responseBytes : Nat) :
    BatchFetch ν where
  values := items.map ItemFetch.value
  responseFailures := items.countP ItemFetch.failed
  systemicResponseFailures := items.countP ItemFetch.systemic
  missingResponses := items.countP ItemFetch.missing
  responseBytes

/-- The codes a standard JSON-RPC failure or a warming-up node answers with. -/
def isSystemicCode (code : Int) : Bool := (-32700 ≤ code && code ≤ -32600) || code == -28

section Crate

variable [BitcoinCrate] [WireJson]

/-- The transaction a raw result decodes to, within the size limits. -/
def decodeTransaction (result : String) : Option Transaction :=
  if result.utf8ByteSize > maxTransactionHexCharacters + 2 then none
  else match WireJson.strFromStr result with
    | none => none
    | some hex =>
      if hex.utf8ByteSize > maxTransactionHexCharacters then none else deserializeHex hex

/-- Whether a decoded transaction is the expected variant and its structure derives. -/
def isAdmitted (expected : ExpectedVariant) (transaction : Transaction) : Bool :=
  txidToString (computeTxid transaction) == expected.txid &&
    wtxidToString (computeWtxid transaction) == expected.wtxid &&
    (transactionStructure transaction).isOk

/-- A raw response: the transaction asked for, or a failure. -/
def rawItem (expected : ExpectedVariant) :
    Option ClassificationRpcOutcome → ItemFetch Transaction
  | none => .missed
  | some .protocolFailure => .systemicFailure
  | some (.rpcError code) => if isSystemicCode code then .systemicFailure else .retryable
  | some .null => .retryable
  | some .malformed => .retryable
  | some (.value result) =>
    match decodeTransaction result with
    | none => .retryable
    | some transaction =>
      if isAdmitted expected transaction then { value := .found transaction } else .retryable

/-- `fetch_raw_transactions`: a batch over its estimate is not sent. -/
def fetchRawTransactions (answer : BatchAnswer) (expected : List ExpectedVariant) :
    Except ClassificationError (BatchFetch Transaction) :=
  let estimated := estimatedRawBatchResponseBytes expected
  if estimated > maxBatchResponseBytes then
    .error (.batchResponseEstimateTooLarge estimated maxBatchResponseBytes)
  else match answer with
    | .error error => .error (mapClassificationRpcError error)
    | .ok batch =>
      .ok (.ofItems (List.zipWith rawItem expected batch.responses) batch.responseBytes)

/-- The script a positive `gettxout` result carries, within the size limits. -/
def decodeConfirmedScript (result : String) : Option Script :=
  if result.utf8ByteSize > estimatedGettxoutResponseBytes then none
  else match WireJson.getTxOutHex result with
    | none => none
    | some hex =>
      if hex.utf8ByteSize > maxConfirmedScriptHexCharacters then none else scriptFromHex hex

/-- A `gettxout` response: a script, a null or a failure. -/
def confirmedItem : Option ClassificationRpcOutcome → ItemFetch Script
  | none => .missed
  | some .protocolFailure => .systemicFailure
  | some (.rpcError code) => if isSystemicCode code then .systemicFailure else .retryable
  | some .null => { value := .explicitNull }
  | some .malformed => .retryable
  | some (.value result) =>
    match decodeConfirmedScript result with
    | none => .retryable
    | some script => { value := .found script }

/-- `fetch_confirmed_prevouts`: a batch over its bounds is not sent. -/
def fetchConfirmedPrevouts (answer : BatchAnswer) (outpoints : List OutPoint) :
    Except ClassificationError (BatchFetch Script) :=
  let estimated := estimatedConfirmedBatchResponseBytes outpoints.length
  if outpoints.length > maxGettxoutBatchSize ∨ estimated > maxBatchResponseBytes then
    .error (.batchResponseEstimateTooLarge estimated maxBatchResponseBytes)
  else match answer with
    | .error error => .error (mapClassificationRpcError error)
    | .ok batch => .ok (.ofItems (batch.responses.map confirmedItem) batch.responseBytes)

end Crate

-- ---------------------------------------------------------------------------
-- Concurrent batches
-- ---------------------------------------------------------------------------

/-- What a fetch has gathered so far. -/
structure ConcurrentFetch (κ ν : Type) where
  values : List (κ × RpcValue ν) := []
  responseFailures : Nat := 0
  systemicResponseFailures : Nat := 0
  missingResponses : Nat := 0
  allMissingBatches : Nat := 0
  batchFailures : Nat := 0
  responseBytes : Nat := 0
deriving DecidableEq, Repr

/-- Whether a fetch trips the circuit breaker: no fact wave follows it. -/
def ConcurrentFetch.tripped {κ ν : Type} (fetched : ConcurrentFetch κ ν) : Bool :=
  fetched.batchFailures > 0 || fetched.systemicResponseFailures > 0 ||
    fetched.allMissingBatches > 0

/-- The state of `fetch_…_concurrently`: items not yet batched, the batches in
flight, the iterations of the first spawning loop still to come, and what has
been fetched. -/
structure FetchTasks (κ ν : Type) where
  remaining : List κ
  running : List (List κ)
  lanesLeft : Nat
  stopScheduling : Bool
  fetched : ConcurrentFetch κ ν
deriving DecidableEq, Repr

/-- How one batch task ends: its `JoinError`, or what `send_batch` returned in it. -/
inductive TaskEnd where
  | joinError
  | finished (answer : BatchAnswer)
deriving DecidableEq, Repr

namespace FetchTasks

variable {κ ν : Type}

/-- A fetch before its first batch. -/
def start (items : List κ) (lanes : Nat) : FetchTasks κ ν where
  remaining := items
  running := []
  lanesLeft := lanes
  stopScheduling := false
  fetched := {}

/-- Spawn the next batch, if any is left. -/
def spawnNext (nextBatch : List κ → Option (List κ × List κ)) (tasks : FetchTasks κ ν) :
    Option (FetchTasks κ ν) :=
  (nextBatch tasks.remaining).map fun (batch, rest) =>
    { tasks with remaining := rest, running := tasks.running ++ [batch] }

/-- One iteration of the first spawning loop. -/
def spawnLane (nextBatch : List κ → Option (List κ × List κ)) (isCurrent : Bool)
    (tasks : FetchTasks κ ν) : FetchTasks κ ν :=
  let next := if isCurrent then tasks.spawnNext nextBatch else none
  match next with
  | none => { tasks with lanesLeft := 0 }
  | some spawned => { spawned with lanesLeft := tasks.lanesLeft - 1 }

/-- What a joined task adds. A batch of several requests that all went without a
response is one systemic failure, not a failure of each of them. -/
def collect (batch : List κ) (result : Option (Except ClassificationError (BatchFetch ν)))
    (tasks : FetchTasks κ ν) : FetchTasks κ ν :=
  let fetched := tasks.fetched
  match result with
  | some (.ok values) =>
    let allMissing := batch.length > 1 && values.missingResponses == batch.length
    let rpcValues :=
      if allMissing then values.values.map fun _ => RpcValue.systemicFailure else values.values
    { tasks with
      stopScheduling := tasks.stopScheduling || values.systemicResponseFailures > 0 || allMissing
      fetched := {
        values := fetched.values ++ batch.zip rpcValues
        responseFailures := fetched.responseFailures + values.responseFailures
        systemicResponseFailures :=
          fetched.systemicResponseFailures + values.systemicResponseFailures
        missingResponses := fetched.missingResponses + values.missingResponses
        allMissingBatches := fetched.allMissingBatches + allMissing.toNat
        batchFailures := fetched.batchFailures
        responseBytes := fetched.responseBytes + values.responseBytes } }
  | _ =>
    { tasks with
      stopScheduling := true
      fetched := { fetched with batchFailures := fetched.batchFailures + 1 } }

/-- One iteration of the join loop: the task at `index` ends, and another batch
takes its lane unless scheduling has stopped or the generation is superseded. -/
def join (nextBatch : List κ → Option (List κ × List κ)) (isCurrent : Bool) (batch : List κ)
    (index : Nat) (result : Option (Except ClassificationError (BatchFetch ν)))
    (tasks : FetchTasks κ ν) : FetchTasks κ ν :=
  let joined := { tasks with running := tasks.running.eraseIdx index }.collect batch result
  if joined.stopScheduling = false ∧ isCurrent then (joined.spawnNext nextBatch).getD joined
  else joined

end FetchTasks

end MempoolAtlas.Classification
