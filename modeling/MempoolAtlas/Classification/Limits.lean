import MempoolAtlas.Bitcoin
import MempoolAtlas.Model.Snapshot

/-!
# Limits, handoffs and reports of the classification pipeline

The constants of `src/classification.rs`, the limits a source may be configured
with, and what the pipeline hands to the runtime: the revision-zero start of a
generation, the delta of one later revision and the report of one slice. A
`ClassificationLimits` value carries the bounds that `ClassificationLimits::new`
checks.
-/

namespace MempoolAtlas.Classification

open Model

/-- `RAW_TRANSACTION_BATCH_SIZE`: the most transactions one batch asks for. -/
def rawTransactionBatchSize : Nat := 256

/-- `MAX_GETTXOUT_BATCH_SIZE`: the most outputs one batch asks for. -/
def maxGettxoutBatchSize : Nat := 512

/-- `MAX_RPC_LANES`: the most batches a slice may have in flight. -/
def maxRpcLanes : Nat := 8

/-- `MAX_TRANSACTIONS_PER_SLICE`: the most candidates a slice may be configured to take. -/
def maxTransactionsPerSlice : Nat := 8192

/-- `MAX_BATCH_RESPONSE_BYTES`: the bound on the response of one batch, 16 MiB. -/
def maxBatchResponseBytes : Nat := 16 * 1024 * 1024

/-- `MAX_RAW_RESPONSE_BYTES_PER_SLICE`: the bound on the raw responses a slice plans, 256 MiB. -/
def maxRawResponseBytesPerSlice : Nat := 256 * 1024 * 1024

/-- The bound on the confirmed responses a slice plans, 256 MiB. -/
def maxConfirmedResponseBytesPerSlice : Nat := 256 * 1024 * 1024

/-- `MAX_UNIQUE_PREVOUTS_PER_SLICE`: the most prevouts a window may wait for. -/
def maxUniquePrevoutsPerSlice : Nat := 65536

/-- How often a window asks one source for one fact. -/
def maxFactAttemptsPerSourcePerWindow : Nat := 2

/-- The bound on the scripts a pending window holds. -/
def maxPendingScriptBytes : Nat := maxConfirmedResponseBytesPerSlice

/-- `MAX_AUXILIARY_CACHE_BYTES`: the largest ceiling the two caches may share, 512 MiB. -/
def maxAuxiliaryCacheBytes : Nat := 512 * 1024 * 1024

/-- What a response is estimated to take around its payload. -/
def estimatedJsonBytesPerResponse : Nat := 512

/-- The longest raw transaction that is decoded, in hexadecimal digits. -/
def maxTransactionHexCharacters : Nat := 8000000

/-- The longest confirmed script that is decoded, in hexadecimal digits. -/
def maxConfirmedScriptHexCharacters : Nat := 64 * 1024

/-- What a `gettxout` response is estimated to take: the longest script and its JSON. -/
def estimatedGettxoutResponseBytes : Nat :=
  maxConfirmedScriptHexCharacters + estimatedJsonBytesPerResponse

-- ---------------------------------------------------------------------------
-- Errors and limits
-- ---------------------------------------------------------------------------

/-- Why a call fails, with the data its message carries. -/
inductive ClassificationError where
  | invalidLimits
  | batch
  | batchResponseTooLarge (actual maximum : Nat)
  | batchResponseEstimateTooLarge (estimated maximum : Nat)
  | invalidMembershipTxid (txid : String)
  | generationOverflow
deriving DecidableEq, Repr

/-- The configured bounds of classification, each within its range. -/
structure ClassificationLimits where
  maxTransactionsPerSlice : Nat
  rpcLanes : Nat
  maxAuxiliaryCacheBytes : Nat
  transactionsPos : 0 < maxTransactionsPerSlice
  transactionsLe : maxTransactionsPerSlice ≤ Classification.maxTransactionsPerSlice
  lanesPos : 0 < rpcLanes
  lanesLe : rpcLanes ≤ maxRpcLanes
  cachePos : 0 < maxAuxiliaryCacheBytes
  cacheLe : maxAuxiliaryCacheBytes ≤ Classification.maxAuxiliaryCacheBytes

namespace ClassificationLimits

/-- `ClassificationLimits::new`: every value must be in its range. -/
def new (transactions lanes cacheBytes : Nat) : Except ClassificationError ClassificationLimits :=
  if h : transactions = 0 ∨ transactions > Classification.maxTransactionsPerSlice ∨ lanes = 0 ∨
      lanes > maxRpcLanes ∨ cacheBytes = 0 ∨ cacheBytes > Classification.maxAuxiliaryCacheBytes then
    .error .invalidLimits
  else
    .ok {
      maxTransactionsPerSlice := transactions, rpcLanes := lanes
      maxAuxiliaryCacheBytes := cacheBytes
      transactionsPos := by omega
      transactionsLe := by omega
      lanesPos := by omega
      lanesLe := by omega
      cachePos := by omega
      cacheLe := by omega }

/-- `usize::div_ceil(rpc_lanes, 2)`. -/
def prevoutRpcLanes (limits : ClassificationLimits) : Nat := (limits.rpcLanes + 1) / 2

end ClassificationLimits

/-- The most confirmed prevouts whose estimated responses fit a slice. -/
def maximumConfirmedPrevoutsPerSlice : Nat :=
  min maxUniquePrevoutsPerSlice
    (maxConfirmedResponseBytesPerSlice / estimatedGettxoutResponseBytes)

/-- The bounds of a resolver; the tests of the source choose smaller ones. -/
structure ResolverLimits where
  maxParentTransactionsPerWave : Nat
  maxConfirmedPrevoutsPerWave : Nat
  maxUniquePrevoutsPerWindow : Nat
  maxPendingScriptBytes : Nat
deriving DecidableEq, Repr

/-- `ResolverLimits::production`: the bounds the source runs with. -/
def ResolverLimits.production (maxAuxiliaryCacheBytes : Nat) : ResolverLimits where
  maxParentTransactionsPerWave := maxTransactionsPerSlice
  maxConfirmedPrevoutsPerWave := maximumConfirmedPrevoutsPerSlice
  maxUniquePrevoutsPerWindow := maxUniquePrevoutsPerSlice
  maxPendingScriptBytes := min Classification.maxPendingScriptBytes maxAuxiliaryCacheBytes

-- ---------------------------------------------------------------------------
-- Handoffs and reports
-- ---------------------------------------------------------------------------

/-- What `install_snapshot` returns: the generation, its membership and the records it starts
with. -/
structure ClassificationGenerationStart where
  generation : Nat
  revision : Nat
  hasEligibleWork : Bool
  membership : MempoolSnapshot
  classifications : TransactionClassifications

/-- What a slice publishes: the records it changed and the revision they make. -/
structure ClassificationRevisionDelta where
  generation : Nat
  revision : Nat
  changed : List TransactionClassification
deriving DecidableEq, Repr

/-- How a slice ends: more to do, nothing left, paused, or overtaken by a replacement. -/
inductive ClassificationDisposition where
  | continue
  | complete
  | paused
  | stale
deriving DecidableEq, Repr

end MempoolAtlas.Classification
