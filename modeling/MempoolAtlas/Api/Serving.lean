import MempoolAtlas.Runtime.Publisher

/-!
# Serving the published state

The reads of `src/runtime/publisher.rs` and the two routes of `src/api.rs` that
answer from them: the snapshot of a source, with its conditional requests, and
the detail of one of its transactions. A read takes the lock once, so it is a
function of the state it sees.
-/

namespace MempoolAtlas.Api

open BitcoinCrate Model Machine MempoolAtlas.Runtime Texts

/-- How a snapshot may be cached: only after revalidation. -/
def snapshotCacheControl : String := "public, no-cache, must-revalidate"

/-- How a detail may be cached: not at all. -/
def noStore : String := "no-store"

-- ---------------------------------------------------------------------------
-- publisher.rs: reads
-- ---------------------------------------------------------------------------

/-- The body of a snapshot with its tag. -/
structure SnapshotResponsePayload where
  body : Bytes
  etag : Option String
deriving DecidableEq, Repr

/-- The cached response, or this state encoded for the one reader. -/
def snapshotResponsePayload [ResponseEncoder] (publisher : CurrentStatePublisher)
    (task : TaskOutcome) (state : CurrentState) : Except RuntimeError SnapshotResponsePayload :=
  match state.cachedResponse with
  | some response => .ok { body := response.body, etag := response.etag }
  | none => (encodeResponse task (snapshotResponse publisher state)).map fun body =>
      { body, etag := none }

/-- The detail of a transaction, with the snapshot it belongs to. -/
structure TransactionDetailResponse where
  sourceId : String
  snapshotObservedAtMs : Nat
  classificationRevision : Nat
  txid : String
  wtxid : String
  classifications : List ClassificationResult
  assessment : Bip110Assessment
  rules : List Bip110RuleDetail
deriving DecidableEq, Repr

/-- What looking up a transaction finds. -/
inductive TransactionLookup where
  | ready (detail : TransactionDetailResponse)
  | waitingForSnapshot
  | notPresent
  | unclassified
deriving DecidableEq, Repr

/-- `CurrentStatePublisher::transaction_detail`. The rows are sorted by txid, so
the binary search finds the txid just when a row has it. -/
def transactionDetail (publisher : CurrentStatePublisher) (state : CurrentState)
    (txid : String) : TransactionLookup :=
  match state.latest with
  | none => .waitingForSnapshot
  | some snapshot =>
    if !snapshot.transactions.any fun entry => entry.txid == txid then .notPresent
    else match state.classifications[txid]? with
      | none => .unclassified
      | some classification => .ready {
          sourceId := publisher.sourceId
          snapshotObservedAtMs := snapshot.observedAtMs
          classificationRevision := state.classificationRevision
          txid := classification.txid
          wtxid := classification.wtxid
          classifications := classification.results
          assessment := classification.assessment
          rules := classification.rules }

-- ---------------------------------------------------------------------------
-- api.rs
-- ---------------------------------------------------------------------------

/-- The failures of the two routes, with the value each names in its message. -/
inductive ApiError where
  | sourceNotFound (sourceId : String)
  | snapshotResponse (error : RuntimeError)
  | invalidTxid (txid : String)
  | snapshotNotReady
  | transactionNotPresent (txid : String)
  | transactionUnclassified (txid : String)
deriving DecidableEq, Repr

/-- The status of an error. -/
def ApiError.status : ApiError → Nat
  | sourceNotFound _ | transactionNotPresent _ => 404
  | snapshotResponse _ => 500
  | invalidTxid _ => 400
  | snapshotNotReady | transactionUnclassified _ => 503

/-- A response: its status, its headers and its body. -/
structure Response (α : Type) where
  status : Nat
  cacheControl : String
  etag : Option String
  body : Option α
deriving DecidableEq, Repr

/-- The `If-None-Match` values of a request, each as `HeaderValue::to_str` reads
it: `none` unless all its bytes are visible ASCII. -/
abbrev IfNoneMatch := List (Option String)

/-- The comma-separated candidates of all values. -/
def candidates (headers : IfNoneMatch) : List (List Char) :=
  (headers.filterMap id).flatMap fun value => (value.toList.splitOn ',').map trim

/-- A tag without its weakness mark. -/
def weakEtag (value : List Char) : List Char :=
  if ['W', '/'].isPrefixOf value then value.drop 2 else value

/-- `if_none_match_matches`: some listed tag is the current one, weakly compared. -/
def ifNoneMatchMatches (headers : IfNoneMatch) (currentEtag : String) : Bool :=
  (candidates headers).any fun candidate =>
    candidate == ['*'] || weakEtag candidate == weakEtag currentEtag.toList

/-- The configured sources by their identifier, each with the state it shows. -/
abbrev Registry := BTreeMap String (CurrentStatePublisher × CurrentState)

/-- The snapshot of a source: not modified when the header has its tag. -/
def sourceSnapshot [ResponseEncoder] (registry : Registry) (task : TaskOutcome)
    (sourceId : String) (headers : IfNoneMatch) : Except ApiError (Response Bytes) :=
  match registry[sourceId]? with
  | none => .error (.sourceNotFound sourceId)
  | some (publisher, state) =>
    match snapshotResponsePayload publisher task state with
    | .error error => .error (.snapshotResponse error)
    | .ok payload =>
      let notModified := payload.etag.any (ifNoneMatchMatches headers)
      .ok {
        status := if notModified then 304 else 200
        cacheControl := if payload.etag.isSome then snapshotCacheControl else noStore
        etag := payload.etag
        body := if notModified then none else some payload.body }

/-- The `transaction_detail` route. -/
def transactionDetailRoute [BitcoinCrate] (registry : Registry) (sourceId txid : String) :
    Except ApiError (Response TransactionDetailResponse) :=
  match txidFromStr txid with
  | none => .error (.invalidTxid txid)
  | some canonical =>
    let canonicalTxid := txidToString canonical
    match registry[sourceId]? with
    | none => .error (.sourceNotFound sourceId)
    | some (publisher, state) =>
      match transactionDetail publisher state canonicalTxid with
      | .ready detail =>
        .ok { status := 200, cacheControl := noStore, etag := none, body := some detail }
      | .waitingForSnapshot => .error .snapshotNotReady
      | .notPresent => .error (.transactionNotPresent canonicalTxid)
      | .unclassified => .error (.transactionUnclassified canonicalTxid)

end MempoolAtlas.Api
