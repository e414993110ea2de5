import MempoolAtlas.Classification.ConfirmedCache
import MempoolAtlas.Classification.Fetch

/-!
# The pending slice

`PendingSlice` of `src/classification.rs`: the admitted transactions of one
generation that still wait for facts, the facts they need with the state of
each, and the operations that move facts between their states. A fact is the
script an outpoint pays to.
-/

namespace MempoolAtlas.Classification

open Machine Model Classifiers Bip110 BitcoinCrate

/-- What the membership says of a transaction: its variant and size. -/
structure CurrentVariant where
  wtxid : String
  vsize : Nat
deriving DecidableEq, Repr

/-- A record, with whether a later slice may improve it. -/
structure CachedClassification where
  classification : TransactionClassification
  retryable : Bool
deriving DecidableEq, Repr

/-- A fetched transaction that waits for its turn. -/
structure PreparedCandidate where
  expected : ExpectedVariant
  transaction : Transaction
deriving DecidableEq, Repr

/-- An active candidate: the facts it requires, and the one it asks for next. -/
structure PendingCandidate where
  expected : ExpectedVariant
  transaction : Transaction
  required : List OutPoint
  factCursor : Nat
deriving DecidableEq, Repr

/-- Where a prevout's script is asked for. -/
inductive FactSource where
  | currentParent
  | confirmed
  /-- A mempool parent whose raw lookup did not succeed: a positive `gettxout`
  may prove it just confirmed, a null one proves nothing. -/
  | parentFallback
deriving DecidableEq, Repr

/-- What is known of a prevout. -/
inductive FactState where
  | ready (script : Script)
  | awaiting (source : FactSource) (attempts : Nat)
  /-- A known or planned script that did not fit the pending working set. -/
  | capacityBlocked (source : FactSource)
  /-- Exhausted: its candidates wait for the next membership generation. -/
  | operationallyDeferred
  /-- Created from the successful no-value shape of `gettxout`. -/
  | explicitlyMissing
deriving DecidableEq, Repr

namespace FactState

/-- Where a fact still waiting for its script expects it from. -/
def waitingSource : FactState → Option FactSource
  | .awaiting source _ => some source
  | .capacityBlocked source => some source
  | .ready _ => none
  | .operationallyDeferred => none
  | .explicitlyMissing => none

/-- A fact `classify_ready` accepts. -/
def isTerminal : FactState → Bool
  | .ready _ => true
  | .explicitlyMissing => true
  | _ => false

def isAwaiting : FactState → Bool
  | .awaiting _ _ => true
  | _ => false

def isCapacityBlocked : FactState → Bool
  | .capacityBlocked _ => true
  | _ => false

/-- What a stored script takes of the working set. -/
def readyBytes : FactState → Nat
  | .ready script => estimatedScriptBytes script
  | _ => 0

/-- A parent wave may still ask for it. -/
def isOpenParent : FactState → Bool
  | .awaiting .currentParent attempts => attempts < maxFactAttemptsPerSourcePerWindow
  | _ => false

/-- A confirmed wave may still ask for it. -/
def isOpenConfirmed : FactState → Bool
  | .awaiting .confirmed attempts => attempts < maxFactAttemptsPerSourcePerWindow
  | .awaiting .parentFallback attempts => attempts < maxFactAttemptsPerSourcePerWindow
  | _ => false

/-- `attempts.saturating_add(1)` on a `u8`. -/
def attempted : FactState → FactState
  | .awaiting source attempts => .awaiting source (min (attempts + 1) 255)
  | state => state

def isParentAwaiting : FactState → Bool
  | .awaiting .currentParent _ => true
  | _ => false

/-- The window has asked for it as often as it may. -/
def isExhausted : FactState → Bool
  | .awaiting _ attempts => attempts ≥ maxFactAttemptsPerSourcePerWindow
  | _ => false

end FactState

/-- The working set of a slice: candidates waiting and active, their turns, their facts and the
scripts these hold. -/
structure PendingSlice where
  queued : List PreparedCandidate
  active : BTreeMap String PendingCandidate
  fairOrder : List String
  facts : BTreeMap OutPoint FactState
  deferredFacts : BTreeSet OutPoint
  rawOutputs : BTreeMap Txid CachedOutputs
  pendingScriptBytes : Nat

/-- The output scripts of a fetched transaction, with what they take of the cache. -/
def cachedOutputs (expected : ExpectedVariant) (transaction : Transaction) : CachedOutputs :=
  let scripts := transaction.output.map TxOut.scriptPubkey
  { wtxid := expected.wtxid, scripts
    estimatedBytes := scripts.foldl (fun total script => saturatingAdd total script.length)
      estimatedJsonBytesPerResponse }

/-- The distinct non-null outpoints a transaction spends, in order. -/
def requiredOutpoints (transaction : Transaction) : List OutPoint :=
  let outpoints := (transaction.input.map TxIn.previousOutput).filter fun outpoint =>
    !outpoint.isNull
  (outpoints.foldl (fun set outpoint => set.insert outpoint) (∅ : BTreeSet OutPoint)).toList

namespace PendingSlice

/-- The candidates that are left, active or waiting. -/
def candidateCount (pending : PendingSlice) : Nat :=
  saturatingAdd pending.active.size pending.queued.length

def isEmpty (pending : PendingSlice) : Bool := pending.active.isEmpty && pending.queued.isEmpty

/-- The bytes of all stored scripts, counted anew. -/
def recountScriptBytes (pending : PendingSlice) : PendingSlice :=
  { pending with
    pendingScriptBytes := pending.facts.toList.foldl
      (fun total fact => saturatingAdd total fact.2.readyBytes) 0 }

/-- Keep the facts that some active candidate requires. -/
def dropUnreferencedFacts (pending : PendingSlice) : PendingSlice :=
  let referenced := pending.active.toList.flatMap fun entry => entry.2.required
  { pending with
    facts := pending.facts.filter fun outpoint _ => referenced.contains outpoint
  }.recountScriptBytes

/-- Whether the working set can take another script. -/
def hasPendingScriptCapacity (pending : PendingSlice) (limits : ResolverLimits) : Bool :=
  pending.pendingScriptBytes < limits.maxPendingScriptBytes

-- ---------------------------------------------------------------------------
-- Admission
-- ---------------------------------------------------------------------------

/-- The state a fact starts in. -/
def initialFact (pending : PendingSlice) (variants : BTreeMap Txid CurrentVariant)
    (outpoint : OutPoint) : FactState :=
  if pending.deferredFacts.contains outpoint then .operationallyDeferred
  else .awaiting
    (if variants.contains outpoint.txid then .currentParent else .confirmed) 0

/-- Move one queued candidate to the active ones, with the facts it requires. -/
def activate (pending : PendingSlice) (variants : BTreeMap Txid CurrentVariant)
    (next : PreparedCandidate) : PendingSlice :=
  let required := requiredOutpoints next.transaction
  { pending with
    facts := required.foldl (fun facts outpoint =>
      facts.insertIfNew outpoint (pending.initialFact variants outpoint)) pending.facts
    fairOrder := pending.fairOrder ++ [next.expected.wtxid]
    active := pending.active.insert next.expected.wtxid {
      expected := next.expected, transaction := next.transaction, required, factCursor := 0 } }

/-- Candidates are activated in order until the next one needs more facts than a window has; the
first one always fits. -/
def activateLoop (variants : BTreeMap Txid CurrentVariant) (limits : ResolverLimits) :
    List PreparedCandidate → PendingSlice → PendingSlice
  | [], pending => { pending with queued := [] }
  | next :: rest, pending =>
    let newFacts := (requiredOutpoints next.transaction).countP fun outpoint =>
      !pending.facts.contains outpoint
    if !pending.active.isEmpty ∧
        saturatingAdd pending.facts.size newFacts > limits.maxUniquePrevoutsPerWindow then
      { pending with queued := next :: rest }
    else activateLoop variants limits rest (pending.activate variants next)

/-- `activate_waiting`: the waiting candidates that fit the window become active. -/
def activateWaiting (pending : PendingSlice) (variants : BTreeMap Txid CurrentVariant)
    (limits : ResolverLimits) : PendingSlice :=
  (activateLoop variants limits pending.queued pending).recountScriptBytes

-- ---------------------------------------------------------------------------
-- Storing scripts
-- ---------------------------------------------------------------------------

/-- Store the script of a fact that waits for it, if the working set has room. -/
def storeWaiting (pending : PendingSlice) (outpoint : OutPoint) (script : Script)
    (maximum : Nat) : Bool × PendingSlice :=
  match checkedAdd pending.pendingScriptBytes (estimatedScriptBytes script) with
  | none => (false, pending)
  | some newTotal =>
    if newTotal > maximum then (false, pending)
    else
      (true, {
        pending with
        facts := pending.facts.insert outpoint (.ready script)
        pendingScriptBytes := newTotal })

/-- `store_script`: a stored script stays; what is no longer waited for is not stored. -/
def storeScript (pending : PendingSlice) (outpoint : OutPoint) (script : Script)
    (maximum : Nat) : Bool × PendingSlice :=
  match pending.facts[outpoint]? with
  | some (.ready _) => (true, pending)
  | some (.awaiting _ _) | some (.capacityBlocked _) =>
    pending.storeWaiting outpoint script maximum
  | some .operationallyDeferred | some .explicitlyMissing | none => (false, pending)

/-- A fact still waited for is blocked, with its source. -/
def markCapacityBlocked (pending : PendingSlice) (outpoint : OutPoint) : PendingSlice :=
  match pending.facts[outpoint]?.bind FactState.waitingSource with
  | none => pending
  | some source =>
    { pending with facts := pending.facts.insert outpoint (.capacityBlocked source) }

/-- Store a known script, or mark its fact as blocked by capacity. -/
def absorb (pending : PendingSlice) (outpoint : OutPoint) (script : Script)
    (limits : ResolverLimits) : Bool × PendingSlice :=
  let stored := pending.storeScript outpoint script limits.maxPendingScriptBytes
  if stored.1 then stored else (false, stored.2.markCapacityBlocked outpoint)

/-- The facts still waiting for their script, with where from. -/
def waiting (pending : PendingSlice) : List (OutPoint × FactSource) :=
  pending.facts.toList.filterMap fun fact => fact.2.waitingSource.map fun source =>
    (fact.1, source)

/-- The `(resolved, capacity_deferred)` counters of a pass over waiting facts. -/
structure Absorbed where
  pending : PendingSlice
  resolved : Nat := 0
  capacityDeferred : Nat := 0

/-- A known script is absorbed and counted; an unknown one is passed over. -/
def Absorbed.add (absorbed : Absorbed) (outpoint : OutPoint) (script : Option Script)
    (limits : ResolverLimits) : Absorbed :=
  match script with
  | none => absorbed
  | some script =>
    let stored := absorbed.pending.absorb outpoint script limits
    { pending := stored.2
      resolved := absorbed.resolved + stored.1.toNat
      capacityDeferred := absorbed.capacityDeferred + (!stored.1).toNat }

/-- The script of a parent output: from the slice's own raw transactions, or from
the cached outputs of the exact variant in the membership. -/
def parentScript (rawOutputs : BTreeMap Txid CachedOutputs)
    (variants : BTreeMap Txid CurrentVariant) (outputs : BTreeMap Txid CachedOutputs)
    (outpoint : OutPoint) : Option Script :=
  (rawOutputs[outpoint.txid]?.bind fun cached => cached.script outpoint.vout).or
    (variants[outpoint.txid]?.bind fun expected =>
      (outputs[outpoint.txid]?.filter fun cached => cached.wtxid == expected.wtxid).bind fun cached =>
        cached.script outpoint.vout)

/-- A parent's script is read from the output cache, any other from the confirmed cache, whose
recency moves. -/
def hydrateFromCachesLoop (variants : BTreeMap Txid CurrentVariant)
    (outputs : BTreeMap Txid CachedOutputs) (limits : ResolverLimits) :
    List (OutPoint × FactSource) → Absorbed → ConfirmedScriptCache →
      Except Panic (Absorbed × ConfirmedScriptCache)
  | [], absorbed, confirmed => .ok (absorbed, confirmed)
  | (outpoint, .currentParent) :: rest, absorbed, confirmed =>
    hydrateFromCachesLoop variants outputs limits rest
      (absorbed.add outpoint
        (parentScript absorbed.pending.rawOutputs variants outputs outpoint) limits)
      confirmed
  | (outpoint, .confirmed) :: rest, absorbed, confirmed
  | (outpoint, .parentFallback) :: rest, absorbed, confirmed => do
    let read ← confirmed.get outpoint
    hydrateFromCachesLoop variants outputs limits rest (absorbed.add outpoint read.1 limits) read.2

/-- `hydrate_from_caches`: every waiting fact is looked up. -/
def hydrateFromCaches (pending : PendingSlice) (variants : BTreeMap Txid CurrentVariant)
    (outputs : BTreeMap Txid CachedOutputs) (confirmed : ConfirmedScriptCache)
    (limits : ResolverLimits) : Except Panic (Absorbed × ConfirmedScriptCache) :=
  hydrateFromCachesLoop variants outputs limits pending.waiting { pending } confirmed

/-- The script of a waiting fact among those fetched in the same call. -/
def transientScript (outputs : BTreeMap Txid CachedOutputs) (confirmed : BTreeMap OutPoint Script)
    (outpoint : OutPoint) : FactSource → Option Script
  | .currentParent => outputs[outpoint.txid]?.bind fun cached => cached.script outpoint.vout
  | .confirmed => confirmed[outpoint]?
  | .parentFallback => confirmed[outpoint]?

/-- `hydrate_from_transient`: every waiting fact is looked up among what this call fetched. -/
def hydrateFromTransient (pending : PendingSlice) (outputs : BTreeMap Txid CachedOutputs)
    (confirmed : BTreeMap OutPoint Script) (limits : ResolverLimits) : Absorbed :=
  pending.waiting.foldl (fun absorbed fact =>
    absorbed.add fact.1 (transientScript outputs confirmed fact.1 fact.2) limits) { pending }

-- ---------------------------------------------------------------------------
-- Fact waves
-- ---------------------------------------------------------------------------

/-- The first fact after the candidate's cursor that satisfies `eligible`, with
the cursor that follows it. -/
def nextCandidateFact (candidate : PendingCandidate) (facts : BTreeMap OutPoint FactState)
    (eligible : OutPoint → FactState → Bool) : Option (OutPoint × Nat) :=
  let length := candidate.required.length
  (List.range length).findSome? fun offset =>
    let index := saturatingAdd candidate.factCursor offset % length
    candidate.required[index]?.bind fun outpoint =>
      (facts[outpoint]?.filter (eligible outpoint)).map fun _ => (outpoint, (index + 1) % length)

/-- How a wave selects: which facts a selection may still take, what taking one
does (nothing, when the wave must skip it), and when the wave is full. -/
structure WaveRules (σ : Type) where
  eligible : σ → OutPoint → FactState → Bool
  take : OutPoint → PendingSlice → σ → Option (PendingSlice × σ)
  full : σ → Bool

/-- A wave being selected, with `added_this_round` and whether it returned early. -/
structure Wave (σ : Type) where
  pending : PendingSlice
  selection : σ
  added : Bool := false
  isFull : Bool := false

namespace Wave

variable {σ : Type}

/-- One turn of the fair order. -/
def visit (rules : WaveRules σ) (wave : Wave σ) : Wave σ :=
  match wave.pending.fairOrder with
  | [] => wave
  | key :: rest =>
    let pending := { wave.pending with fairOrder := rest ++ [key] }
    match pending.active[key]? with
    | none => { wave with pending }
    | some candidate =>
      match nextCandidateFact candidate pending.facts (rules.eligible wave.selection) with
      | none => { wave with pending }
      | some (outpoint, factCursor) =>
        let pending := {
          pending with active := pending.active.insert key { candidate with factCursor } }
        match rules.take outpoint pending wave.selection with
        | none => { wave with pending }
        | some (pending, selection) =>
          { pending, selection, added := true, isFull := rules.full selection }

/-- One round of the fair order: each candidate has one turn. -/
def round (rules : WaveRules σ) : Nat → Wave σ → Wave σ
  | 0, wave => wave
  | turns + 1, wave => if wave.isFull then wave else round rules turns (wave.visit rules)

/-- Rounds until one adds nothing or the wave is full. Each round that goes on
takes a fact of its own, so the facts bound the rounds. -/
def rounds (rules : WaveRules σ) : Nat → Wave σ → Wave σ
  | 0, wave => wave
  | fuel + 1, wave =>
    let wave := round rules wave.pending.fairOrder.length { wave with added := false }
    if wave.isFull ∨ !wave.added then wave else rounds rules fuel wave

/-- A whole selection, with fuel for every fact and one round that adds nothing. -/
def select (rules : WaveRules σ) (pending : PendingSlice) (selection : σ) : Wave σ :=
  rounds rules (pending.facts.size + 1) { pending, selection }

end Wave

/-- Rewrite the facts of one parent that await its raw transaction. -/
def mapParentFacts (pending : PendingSlice) (parentTxid : Txid) (f : FactState → FactState) :
    PendingSlice :=
  { pending with
    facts := pending.facts.map fun outpoint state =>
      if outpoint.txid = parentTxid ∧ state.isParentAwaiting then f state else state }

/-- A parent wave counts one attempt for every fact the parent pays. -/
def recordParentAttempt (pending : PendingSlice) (parentTxid : Txid) : PendingSlice :=
  pending.mapParentFacts parentTxid FactState.attempted

/-- The facts of a parent that was not found are asked for as confirmed ones. -/
def fallBackParentToGettxout (pending : PendingSlice) (parentTxid : Txid) : PendingSlice :=
  pending.mapParentFacts parentTxid fun _ => .awaiting .parentFallback 0

/-- A confirmed wave counts one attempt. -/
def recordFactAttempt (pending : PendingSlice) (outpoint : OutPoint) : PendingSlice :=
  { pending with facts := pending.facts.modify outpoint FactState.attempted }

/-- The parents a wave has selected. -/
structure ParentSelection where
  selected : List ExpectedVariant := []
  selectedTxids : BTreeSet Txid := ∅
  estimatedBytes : Nat := 0

/-- A parent joins the wave if its estimate fits; the first one always does. -/
def takeParent [BitcoinCrate] (variants : BTreeMap Txid CurrentVariant) (outpoint : OutPoint)
    (pending : PendingSlice) (selection : ParentSelection) :
    Option (PendingSlice × ParentSelection) :=
  match variants[outpoint.txid]? with
  | none => none
  | some parent =>
    let expected : ExpectedVariant :=
      { txid := txidToString outpoint.txid, wtxid := parent.wtxid, vsize := parent.vsize }
    let estimatedBytes :=
      saturatingAdd selection.estimatedBytes (estimatedRawResponseBytes expected)
    if selection.selected ≠ [] ∧ estimatedBytes > maxRawResponseBytesPerSlice then none
    else
      some (pending.recordParentAttempt outpoint.txid, {
        selected := selection.selected ++ [expected]
        selectedTxids := selection.selectedTxids.insert outpoint.txid
        estimatedBytes })

/-- A parent wave takes each parent once, up to its maximum. -/
def parentRules [BitcoinCrate] (variants : BTreeMap Txid CurrentVariant)
    (limits : ResolverLimits) : WaveRules ParentSelection where
  eligible selection outpoint state :=
    state.isOpenParent && !selection.selectedTxids.contains outpoint.txid
  take := takeParent variants
  full selection := selection.selected.length ≥ limits.maxParentTransactionsPerWave

/-- `next_parent_wave`: nothing is asked for while the working set is full. -/
def nextParentWave [BitcoinCrate] (pending : PendingSlice)
    (variants : BTreeMap Txid CurrentVariant) (limits : ResolverLimits) :
    List ExpectedVariant × PendingSlice :=
  if pending.hasPendingScriptCapacity limits then
    let wave := Wave.select (parentRules variants limits) pending {}
    (wave.selection.selected, wave.pending)
  else ([], pending)

/-- The prevouts a wave has selected. -/
structure ConfirmedSelection where
  selected : List OutPoint := []
  selectedOutpoints : BTreeSet OutPoint := ∅

/-- A confirmed wave takes each prevout once, up to `maximum`. -/
def confirmedRules (maximum : Nat) : WaveRules ConfirmedSelection where
  eligible selection outpoint state :=
    state.isOpenConfirmed && !selection.selectedOutpoints.contains outpoint
  take outpoint pending selection :=
    some (pending.recordFactAttempt outpoint, {
      selected := selection.selected ++ [outpoint]
      selectedOutpoints := selection.selectedOutpoints.insert outpoint })
  full selection := selection.selected.length ≥ maximum

/-- How many prevouts the next confirmed wave may ask for. -/
def confirmedWaveMaximum (pending : PendingSlice) (limits : ResolverLimits) : Nat :=
  let available := limits.maxPendingScriptBytes - pending.pendingScriptBytes
  let maximum :=
    min limits.maxConfirmedPrevoutsPerWave (available / estimatedGettxoutResponseBytes)
  if available > 0 then max maximum 1 else 0

/-- `next_confirmed_wave`: as many prevouts as there is room for, one at least. -/
def nextConfirmedWave (pending : PendingSlice) (limits : ResolverLimits) :
    List OutPoint × PendingSlice :=
  let maximum := pending.confirmedWaveMaximum limits
  if maximum = 0 then ([], pending)
  else
    let wave := Wave.select (confirmedRules maximum) pending {}
    (wave.selection.selected, wave.pending)

-- ---------------------------------------------------------------------------
-- Applying answers
-- ---------------------------------------------------------------------------

/-- A fact is left for the next generation. -/
def deferFact (pending : PendingSlice) (outpoint : OutPoint) : PendingSlice :=
  { pending with
    deferredFacts := pending.deferredFacts.insert outpoint
    facts := pending.facts.modify outpoint fun _ => .operationallyDeferred }

/-- A fact that was asked for often enough is deferred. -/
def deferIfAttemptsExhausted (pending : PendingSlice) (outpoint : OutPoint) : PendingSlice :=
  if pending.facts[outpoint]?.any FactState.isExhausted then pending.deferFact outpoint else pending

/-- The loop of `apply_parent_transaction` over the facts the parent pays. -/
def applyParentOutputs (outputs : CachedOutputs) (limits : ResolverLimits) :
    List OutPoint → Absorbed → Absorbed
  | [], absorbed => absorbed
  | outpoint :: rest, absorbed =>
    match outputs.script outpoint.vout with
    | none =>
      applyParentOutputs outputs limits rest {
        absorbed with pending := absorbed.pending.deferIfAttemptsExhausted outpoint }
    | some script =>
      applyParentOutputs outputs limits rest (absorbed.add outpoint (some script) limits)

/-- `apply_parent_transaction`: every fact the parent pays takes its script, and what the parent
lacks is deferred once exhausted. -/
def applyParentTransaction [BitcoinCrate] (pending : PendingSlice) (expected : ExpectedVariant)
    (transaction : Transaction) (limits : ResolverLimits) : CachedOutputs × Absorbed :=
  let outputs := cachedOutputs expected transaction
  match txidFromStr expected.txid with
  | none => (outputs, { pending })
  | some txid =>
    let outpoints := (pending.facts.toList.filter fun fact =>
      fact.1.txid == txid && fact.2.isParentAwaiting).map Prod.fst
    (outputs, applyParentOutputs outputs limits outpoints { pending })

/-- What `apply_confirmed_value` returns next to the slice. -/
structure ConfirmedApplied where
  pending : PendingSlice
  script : Option Script := none
  resolved : Nat := 0
  missing : Nat := 0
  capacityDeferred : Nat := 0

/-- `apply_confirmed_value`: only a null answer to a confirmed question makes a fact explicitly
missing. -/
def applyConfirmedValue (pending : PendingSlice) (outpoint : OutPoint) (value : RpcValue Script)
    (limits : ResolverLimits) : ConfirmedApplied :=
  match value with
  | .found script =>
    let stored := pending.absorb outpoint script limits
    { pending := stored.2, script := some script, resolved := stored.1.toNat
      capacityDeferred := (!stored.1).toNat }
  | .explicitNull =>
    match pending.facts[outpoint]? with
    | some (.awaiting .confirmed _) =>
      { pending := { pending with facts := pending.facts.insert outpoint .explicitlyMissing }
        missing := 1 }
    | some (.awaiting .parentFallback _) =>
      { pending := pending.deferIfAttemptsExhausted outpoint }
    | _ => { pending }
  | .retryableFailure => { pending := pending.deferIfAttemptsExhausted outpoint }
  | .systemicFailure => { pending }

-- ---------------------------------------------------------------------------
-- Deferring
-- ---------------------------------------------------------------------------

/-- The first fact still awaited, in the fair order, is blocked. -/
def deferOneCapacityBlockedFact (pending : PendingSlice) : Bool × PendingSlice :=
  let outpoint := pending.fairOrder.findSome? fun key =>
    pending.active[key]?.bind fun candidate =>
      candidate.required.find? fun outpoint =>
        pending.facts[outpoint]?.any FactState.isAwaiting
  match outpoint with
  | none => (false, pending)
  | some outpoint => (true, pending.markCapacityBlocked outpoint)

/-- Drop the candidates under `keys`, the turns that are left without one and the facts
that none needs any more. -/
def dropCandidates (pending : PendingSlice) (keys : List String) : PendingSlice :=
  let active := pending.active.filter fun key _ => !keys.contains key
  { pending with
    active
    fairOrder := pending.fairOrder.filter fun key => active.contains key
  }.dropUnreferencedFacts

/-- The candidates that need a deferred fact leave. -/
def deferExhaustedCandidates (pending : PendingSlice) : Nat × PendingSlice :=
  let doomed := (pending.active.toList.filter fun entry =>
    entry.2.required.any fun outpoint =>
      pending.facts[outpoint]? == some FactState.operationallyDeferred).map Prod.fst
  if doomed.isEmpty then (0, pending) else (doomed.length, pending.dropCandidates doomed)

/-- Whether a blocked fact is known from this call only. -/
def hasTransientCapacityBlockedFact (pending : PendingSlice)
    (outputs : BTreeMap Txid CachedOutputs) (confirmed : BTreeMap OutPoint Script) : Bool :=
  pending.facts.toList.any fun fact =>
    match fact.2 with
    | .capacityBlocked .currentParent =>
      (pending.rawOutputs[fact.1.txid]?.bind fun cached => cached.script fact.1.vout).isNone &&
        (outputs[fact.1.txid]?.bind fun cached => cached.script fact.1.vout).isSome
    | .capacityBlocked .confirmed => confirmed.contains fact.1
    | .capacityBlocked .parentFallback => confirmed.contains fact.1
    | _ => false

/-- How many active candidates' required lists name an outpoint. -/
def referenceCount (pending : PendingSlice) (outpoint : OutPoint) : Nat :=
  (pending.active.toList.flatMap fun entry => entry.2.required).count outpoint

/-- The bytes that dropping a candidate would free. -/
def freedBytes (pending : PendingSlice) (candidate : PendingCandidate) : Nat :=
  candidate.required.foldl (fun (total : Nat) (outpoint : OutPoint) =>
    match pending.facts[outpoint]? with
    | some (.ready script) =>
      if pending.referenceCount outpoint = 1 then saturatingAdd total (estimatedScriptBytes script)
      else total
    | _ => total) 0

/-- The first blocked candidate in the fair order that frees the most bytes. -/
def doomedCandidate (pending : PendingSlice) : Option (String × Nat) :=
  pending.fairOrder.foldl (fun doomed key =>
    match pending.active[key]? with
    | none => doomed
    | some candidate =>
      if candidate.required.any fun outpoint =>
          pending.facts[outpoint]?.any FactState.isCapacityBlocked then
        let freed := pending.freedBytes candidate
        if doomed.all fun best => freed > best.2 then some (key, freed) else doomed
      else doomed) none

/-- Drop the candidate under `doomed`, its turn and the facts that none needs any more. -/
def dropCandidate (pending : PendingSlice) (doomed : String) : PendingSlice :=
  { pending with
    active := pending.active.erase doomed
    fairOrder := pending.fairOrder.filter fun key => key != doomed
  }.dropUnreferencedFacts

/-- `defer_capacity_blocked_candidate`: one candidate leaves, the one that frees the most. -/
def deferCapacityBlockedCandidate (pending : PendingSlice) : Nat × PendingSlice :=
  match pending.doomedCandidate with
  | none => (0, pending)
  | some (doomed, _) => (1, pending.dropCandidate doomed)

-- ---------------------------------------------------------------------------
-- Classifying
-- ---------------------------------------------------------------------------

/-- The prevout facts of every input, in input order. -/
def inputFacts (facts : BTreeMap OutPoint FactState) (transaction : Transaction) :
    Except Panic (List (Option PrevoutFacts)) :=
  transaction.input.mapM fun (input : TxIn) =>
    match facts[input.previousOutput]? with
    | some (.ready script) => .ok (some { scriptPubkey := script, creationHeight := none })
    | some .explicitlyMissing => .ok none
    | _ => .error .onlyTerminalCandidates

/-- The prevout set a candidate is evaluated with. -/
def candidatePrevouts (facts : BTreeMap OutPoint FactState) (transaction : Transaction) :
    Except Panic PrevoutSet :=
  if transaction.isCoinbase then .ok .empty
  else (inputFacts facts transaction).map PrevoutSet.fromVec

/-- The record of a candidate whose facts are terminal; a missing one leaves it retryable. -/
def evaluateCandidate [BitcoinCrate] (facts : BTreeMap OutPoint FactState)
    (candidate : PendingCandidate) : Except Panic CachedClassification := do
  let prevouts ← candidatePrevouts facts candidate.transaction
  match transactionStructure candidate.transaction with
  | .error _ => .error .structureVerified
  | .ok structure' =>
    return {
      classification := classifyCandidate candidate.expected.txid candidate.expected.wtxid
        structure' candidate.transaction prevouts
      retryable := prevouts.facts.any Option.isNone }

/-- The candidates all of whose facts are terminal, by key. -/
def readyKeys (pending : PendingSlice) : List String :=
  (pending.active.toList.filter fun entry =>
    entry.2.required.all fun outpoint => pending.facts[outpoint]?.any FactState.isTerminal).map
      Prod.fst

/-- Each ready candidate is removed and evaluated. -/
def classifyReadyLoop [BitcoinCrate] (facts : BTreeMap OutPoint FactState) :
    List String → BTreeMap String PendingCandidate → List CachedClassification →
      Except Panic (List CachedClassification × BTreeMap String PendingCandidate)
  | [], active, classifications => .ok (classifications, active)
  | key :: rest, active, classifications =>
    match active[key]? with
    | none => .error .readyCandidateRemains
    | some candidate => do
      let cached ← evaluateCandidate facts candidate
      classifyReadyLoop facts rest (active.erase key) (classifications ++ [cached])

/-- `classify_ready`: what is ready leaves with its record, and the facts nobody needs are
dropped. -/
def classifyReady [BitcoinCrate] (pending : PendingSlice) :
    Except Panic (List CachedClassification × PendingSlice) := do
  let (classifications, active) ←
    classifyReadyLoop pending.facts pending.readyKeys pending.active []
  return (classifications, {
    pending with
    active
    fairOrder := pending.fairOrder.filter fun key => active.contains key
  }.dropUnreferencedFacts)

-- ---------------------------------------------------------------------------
-- Creation
-- ---------------------------------------------------------------------------

/-- The outputs of the slice's own transactions. -/
def rawOutputsOf [BitcoinCrate] (transactions : List (ExpectedVariant × Transaction)) :
    BTreeMap Txid CachedOutputs :=
  transactions.foldl (fun rawOutputs (expected, transaction) =>
    match txidFromStr expected.txid with
    | none => rawOutputs
    | some txid => rawOutputs.insert txid (cachedOutputs expected transaction)) ∅

/-- `PendingSlice::new`: everything waits, and what fits the window is activated. -/
def new [BitcoinCrate] (transactions : List (ExpectedVariant × Transaction))
    (variants : BTreeMap Txid CurrentVariant) (limits : ResolverLimits) : PendingSlice :=
  PendingSlice.activateWaiting {
    queued := transactions.map fun (expected, transaction) => { expected, transaction }
    active := ∅
    fairOrder := []
    facts := ∅
    deferredFacts := ∅
    rawOutputs := rawOutputsOf transactions
    pendingScriptBytes := 0 } variants limits

end PendingSlice

end MempoolAtlas.Classification
