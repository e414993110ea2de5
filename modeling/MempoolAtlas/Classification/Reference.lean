import MempoolAtlas.Bitcoin.Reference
import MempoolAtlas.Classification.Pipeline
import MempoolAtlas.Classifiers.Publishable

/-!
# Reference runs

A JSON reader for the pipeline's concrete runs, and runs themselves as data: a
list of moves is played action by action, and what it reaches is reachable.
-/

namespace MempoolAtlas.Classification.Reference

open Processes Model

-- ---------------------------------------------------------------------------
-- JSON
-- ---------------------------------------------------------------------------

/-- A JSON string of plain characters. -/
def quoted (text : String) : String := "\"" ++ text ++ "\""

/-- A `gettxout` result with no other members. -/
def txOutResult (scriptHex : String) : String :=
  "\x7b\"scriptPubKey\":\x7b\"hex\":" ++ quoted scriptHex ++ "\x7d\x7d"

/-- A reader of the results that carry one of `texts`. -/
abbrev json (texts : List String) : WireJson where
  strFromStr result := texts.find? fun text => quoted text == result
  getTxOutHex result := texts.find? fun text => txOutResult text == result

-- ---------------------------------------------------------------------------
-- Runs as data
-- ---------------------------------------------------------------------------

inductive Move where
  | install (membership : MempoolSnapshot)
  | classify (expected : Option Nat)
  | next (call : Nat) (completion : Completion)

/-- A call's next action, when it needs no answer. -/
def Move.step (call : Nat) : Move := .next call ⟨0, .joinError⟩

/-- A call's next action: its first running batch is answered. -/
def Move.answer (call : Nat) (responses : List (Option ClassificationRpcOutcome)) : Move :=
  .next call ⟨0, .finished (.ok { responses, responseBytes := 0 })⟩

structure Played where
  state : PipelineState
  calls : List Call
  trace : List (Nat × Option Event)

section Crate

variable [BitcoinCrate] [WireJson]

def playMove (limits : ClassificationLimits) (played : Played) : Move → Option Played
  | .install membership => some { played with
      calls := played.calls ++ [.installSnapshot membership]
      trace := played.trace ++ [(played.calls.length, none)] }
  | .classify expected => some { played with
      calls := played.calls ++ [.classifyNextForGeneration expected]
      trace := played.trace ++ [(played.calls.length, none)] }
  | .next i completion => do
    let call ← played.calls[i]?
    let (state, call, event) ← callStep limits completion played.state call
    return { state, calls := played.calls.set i call, trace := played.trace ++ [(i, event)] }

def play (limits : ClassificationLimits) (moves : List Move) : Option Played :=
  moves.foldlM (playMove limits) { state := .new limits, calls := [], trace := [] }

variable {P : Processes Nat PipelineState Call Event} {limits : ClassificationLimits}

/-- A move of a system that has the calls and the action it needs. -/
theorem playMove_step {played played' : Played} {move : Move}
    (hStarts : ∀ {call : Call}, call.IsCall → P.starts call)
    (hNext : ∀ {i completion state call event state' call'}, move = .next i completion →
      callStep limits completion state call = some (state', call', event) →
      P.step i state call event state' call')
    (h : playMove limits played move = some played') :
    ∃ event, played'.trace = played.trace ++ [event] ∧
      P.Step (crew played.state played.calls) event (crew played'.state played'.calls) := by
  cases move with
  | install membership =>
    obtain rfl := Option.some.inj h
    exact ⟨_, rfl, Step.crew_start (hStarts (.installSnapshot membership))⟩
  | classify expected =>
    obtain rfl := Option.some.inj h
    exact ⟨_, rfl, Step.crew_start (hStarts (.classifyNextForGeneration expected))⟩
  | next i completion =>
    obtain ⟨call, hCall, h⟩ := Option.bind_eq_some_iff.mp h
    obtain ⟨⟨state, call', event⟩, hStep, h⟩ := Option.bind_eq_some_iff.mp h
    obtain rfl := Option.some.inj h
    exact ⟨_, rfl, Step.crew_act hCall (hNext rfl hStep)⟩

/-- What a list of moves reaches is reachable in every such system. -/
theorem play_runOf {moves : List Move} {played : Played}
    (hStarts : ∀ {call : Call}, call.IsCall → P.starts call)
    (hNext : ∀ {i completion state call event state' call'}, Move.next i completion ∈ moves →
      callStep limits completion state call = some (state', call', event) →
      P.step i state call event state' call')
    (h : play limits moves = some played) :
    P.Run (initial (.new limits)) played.trace (crew played.state played.calls) := by
  have hFold : ∀ (rest : List Move) (start played : Played), rest ⊆ moves →
      P.Run (initial (.new limits)) start.trace (crew start.state start.calls) →
      rest.foldlM (playMove limits) start = some played →
      P.Run (initial (.new limits)) played.trace (crew played.state played.calls) := by
    intro rest
    induction rest with
    | nil =>
      intro start played _ hRun hPlayed
      obtain rfl := Option.some.inj hPlayed
      exact hRun
    | cons move rest ih =>
      intro start played hSub hRun hPlayed
      obtain ⟨hMem, hSub⟩ := List.cons_subset.mp hSub
      rw [List.foldlM_cons] at hPlayed
      obtain ⟨next, hMove, hRest⟩ := Option.bind_eq_some_iff.mp hPlayed
      obtain ⟨event, hTrace, hStep⟩ :=
        playMove_step hStarts (fun hEq hStep => hNext (hEq ▸ hMem) hStep) hMove
      refine ih next played hSub ?_ hRest
      rw [hTrace]
      exact Run.tail hRun hStep
  exact hFold moves _ played (List.Subset.refl _) Run.refl h

theorem play_run {moves : List Move} {played : Played} (h : play limits moves = some played) :
    (system Nat limits).Run (initial (.new limits)) played.trace
      (crew played.state played.calls) :=
  play_runOf id (fun _ hStep => ⟨_, hStep⟩) h

end Crate

-- ---------------------------------------------------------------------------
-- A sample
-- ---------------------------------------------------------------------------

def limits : ClassificationLimits where
  maxTransactionsPerSlice := 16
  rpcLanes := 1
  maxAuxiliaryCacheBytes := 4096
  transactionsPos := by decide
  transactionsLe := by decide
  lanesPos := by decide
  lanesLe := by decide
  cachePos := by decide
  cacheLe := by decide

/-- A membership row of a known transaction. -/
def entryOf (known : MempoolAtlas.Reference.KnownTransaction) : MempoolEntry where
  txid := MempoolAtlas.Reference.showHash known.txid
  wtxid := MempoolAtlas.Reference.showHash known.wtxid
  vsize := known.totalSize
  weight := 4 * known.totalSize
  feeSats := 0
  enteredAtMs := 0
  ancestorCount := 1
  ancestorVsize := known.totalSize
  ancestorFeeSats := 0
  descendantCount := 1
  descendantVsize := known.totalSize
  replaceable := false
  transactionStructure := none
  classifications := []
  bip110 := none

def membershipOf (entries : List MempoolEntry) : MempoolSnapshot where
  sourceId := "core"
  sourceLabel := "Bitcoin Core"
  collectionStartedAtMs := 0
  collectionCompletedAtMs := 0
  collectionDurationMs := 0
  observedAtMs := 0
  classificationRevision := 0
  chainTip := { height := 1, hash := "00" }
  transactionCount := entries.length
  totalVsize := (entries.map MempoolEntry.vsize).sum
  classifierCatalog := []
  classificationSummaries := []
  bip110Summary := Bip110Summary.fromTransactions entries
  transactions := entries

/-- Install one payment and classify it: its transaction and its prevout are
fetched, both caches fill, and the slice reports. -/
def paymentMoves : List Move :=
  [.install (membershipOf [entryOf MempoolAtlas.Reference.payment]), .step 0,
    .classify (some 1), .step 1, .step 1, .step 1, .step 1, .step 1, .step 1,
    .answer 1 [some (.value (quoted MempoolAtlas.Reference.payment.hex))], .step 1, .step 1, .step 1,
    .step 1, .step 1, .step 1, .answer 1 [some (.value (txOutResult "51"))], .step 1, .step 1,
    .step 1, .step 1, .step 1, .step 1, .step 1, .step 1]

-- ---------------------------------------------------------------------------
-- A published sample
-- ---------------------------------------------------------------------------

def sampleTip : ChainTip where
  height := 0
  hash := "0000000000000000000000000000000000000000000000000000000000000000"

/-- A source's membership of one payment. -/
def paymentMembership : MempoolSnapshot :=
  snapshotOf "core" "Bitcoin Core" 0 0 0 sampleTip [entryOf MempoolAtlas.Reference.payment]

def paymentFacts : TransactionStructure := ⟨1, 1, 0, 1000, 0⟩

section Record

variable [BitcoinCrate]

/-- The payment's record, its prevout unknown. -/
def paymentRecord : TransactionClassification :=
  Classifiers.classifyCandidate (entryOf MempoolAtlas.Reference.payment).txid
    (entryOf MempoolAtlas.Reference.payment).wtxid paymentFacts
    MempoolAtlas.Reference.payment.transaction ⟨[none]⟩

def paymentClassifications : TransactionClassifications :=
  (∅ : TransactionClassifications).insert paymentRecord.txid paymentRecord

theorem getElem?_paymentClassifications {txid : String} {record : TransactionClassification}
    (h : paymentClassifications[txid]? = some record) :
    txid = paymentRecord.txid ∧ record = paymentRecord := by
  rw [paymentClassifications, BTreeMap.getElem?_insert_eq] at h
  split at h
  · next hEq => exact ⟨hEq.symm, (Option.some.inj h).symm⟩
  · simp at h

theorem bip110_payment :
    (materializeEntry paymentClassifications (entryOf MempoolAtlas.Reference.payment)).bip110 =
      some paymentRecord.assessment := by
  have hGet : paymentClassifications[(entryOf MempoolAtlas.Reference.payment).txid]? =
      some paymentRecord := Std.ExtTreeMap.getElem?_insert_self
  rw [materializeEntry, hGet]

end Record

theorem paymentMembership_accepted : AcceptedParts "core" "Bitcoin Core" 0 0 0 sampleTip
    [entryOf MempoolAtlas.Reference.payment] :=
  ⟨by decide, by decide, by decide, by decide, by decide, by decide, rfl,
    by decide, List.pairwise_singleton _ _, by decide, by decide⟩

theorem payment_materializes [BitcoinCrate] {revision : Nat}
    (hRevision : revision ≤ maxSafeJsonInteger) :
    MempoolObservation.materializeRetained paymentMembership revision paymentClassifications =
      .ok ⟨materializedSnapshot paymentMembership revision paymentClassifications,
        paymentClassifications⟩ := by
  refine materializeRetained_eq_ok.mpr ⟨paymentMembership_accepted, hRevision, ?_, rfl⟩
  intro txid record h
  obtain ⟨rfl, rfl⟩ := getElem?_paymentClassifications h
  exact ⟨Classifiers.validateClassification_ok _ _ _ _ _, rfl, _, List.mem_singleton_self _, rfl,
    rfl⟩

end MempoolAtlas.Classification.Reference
