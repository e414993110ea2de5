import MempoolAtlas.Lib.Processes
import MempoolAtlas.Classification.PendingSlice

/-!
# The classification pipeline

`ClassificationPipeline` of `src/classification.rs`. The coordinator (the
current generation and the confirmed cache) sits behind one lock, the work of a
generation behind another, and a slice holds its generation's driver from its
first step to its last. A call in flight is a `Call`: the point it has reached
with the values it holds. `callStep` is its next atomic action: everything
between two points where it releases a lock or awaits. `system` interleaves any
number of calls; what the node answers, and which batch task ends first, is the
`Completion` the action is given.
-/

namespace MempoolAtlas.Classification

open Machine Model BitcoinCrate

-- ---------------------------------------------------------------------------
-- Work and generations
-- ---------------------------------------------------------------------------

/-- What a generation has done: its records, its cached outputs, what it attempted and the slice
it keeps. -/
structure ClassificationWork where
  classifications : BTreeMap String CachedClassification := ∅
  outputs : BTreeMap Txid CachedOutputs := ∅
  attempted : BTreeSet String := ∅
  rawRetryUsed : BTreeSet String := ∅
  pending : Option PendingSlice := none
  outputCacheBytes : Nat := 0
  revision : Nat := 0

/-- An installed membership with the work on it. -/
structure ClassificationGeneration where
  id : Nat
  membership : MempoolSnapshot
  variants : BTreeMap Txid CurrentVariant
  work : ClassificationWork
  /-- Whether a slice holds the generation's driver. -/
  driverHeld : Bool

/-- The coordinator, with every generation a call in flight may still refer to.
`Arc` identity is the generation's id, which is never reused. -/
structure PipelineState where
  nextGeneration : Nat
  current : Option Nat
  confirmedCache : ConfirmedScriptCache
  generations : BTreeMap Nat ClassificationGeneration

/-- A pipeline before its first membership. -/
def PipelineState.new (limits : ClassificationLimits) : PipelineState where
  nextGeneration := 0
  current := none
  confirmedCache := .new limits.maxAuxiliaryCacheBytes
  generations := ∅

/-- Whether a generation has not been replaced. -/
def PipelineState.isCurrent (state : PipelineState) (generation : Nat) : Bool :=
  state.current == some generation

/-- A generation takes the place of the one under its id. -/
def PipelineState.setGeneration (state : PipelineState) (generation : ClassificationGeneration) :
    PipelineState :=
  { state with generations := state.generations.insert generation.id generation }

/-- The generation with other work. -/
def ClassificationGeneration.setWork (generation : ClassificationGeneration)
    (work : ClassificationWork) : ClassificationGeneration :=
  { generation with work }

/-- The output cache and the confirmed cache, which share one ceiling. -/
structure AuxiliaryCaches where
  outputs : BTreeMap Txid CachedOutputs
  outputCacheBytes : Nat
  confirmed : ConfirmedScriptCache

/-- `insert_outputs`: the outputs of a transaction enter if their cache stays below the ceiling,
and the confirmed cache makes room. -/
def insertOutputs (maximum : Nat) (caches : AuxiliaryCaches) (entry : Txid × CachedOutputs) :
    AuxiliaryCaches :=
  let replacedBytes := (caches.outputs[entry.1]?.map CachedOutputs.estimatedBytes).getD 0
  let base := caches.outputCacheBytes - replacedBytes
  match checkedAdd base entry.2.estimatedBytes with
  | none => caches
  | some newTotal =>
    if newTotal > maximum then caches
    else {
      confirmed := caches.confirmed.reserveForOutputs newTotal
      outputCacheBytes := newTotal
      outputs := caches.outputs.insert entry.1 entry.2 }

/-- A positive script enters the confirmed cache next to the output cache. -/
def insertConfirmed (caches : AuxiliaryCaches) (entry : OutPoint × Script) : AuxiliaryCaches :=
  { caches with
    confirmed := (caches.confirmed.insert entry.1 entry.2 caches.outputCacheBytes).2 }

-- ---------------------------------------------------------------------------
-- Slices
-- ---------------------------------------------------------------------------

/-- What a slice has gathered so far: its records, what it fetched and its counters. -/
structure ClassificationAdvance where
  attempted : Nat := 0
  factRequests : Nat := 0
  factsResolved : Nat := 0
  factsMissing : Nat := 0
  capacityDeferred : Nat := 0
  deferredCandidates : Nat := 0
  classifications : List CachedClassification := []
  outputs : BTreeMap Txid CachedOutputs := ∅
  confirmedScripts : BTreeMap OutPoint Script := ∅
  responseFailures : Nat := 0
  systemicResponseFailures : Nat := 0
  missingResponses : Nat := 0
  allMissingBatches : Nat := 0
  batchFailures : Nat := 0
  responseBytes : Nat := 0

namespace ClassificationAdvance

/-- The counters of a fetch are added. -/
def addFetch {κ ν : Type} (advance : ClassificationAdvance) (fetched : ConcurrentFetch κ ν) :
    ClassificationAdvance :=
  { advance with
    responseFailures := advance.responseFailures + fetched.responseFailures
    systemicResponseFailures :=
      advance.systemicResponseFailures + fetched.systemicResponseFailures
    missingResponses := advance.missingResponses + fetched.missingResponses
    allMissingBatches := advance.allMissingBatches + fetched.allMissingBatches
    batchFailures := advance.batchFailures + fetched.batchFailures
    responseBytes := advance.responseBytes + fetched.responseBytes }

/-- The facts that were resolved or blocked are counted. -/
def addAbsorbed (advance : ClassificationAdvance) (absorbed : PendingSlice.Absorbed) :
    ClassificationAdvance :=
  { advance with
    factsResolved := advance.factsResolved + absorbed.resolved
    capacityDeferred := advance.capacityDeferred + absorbed.capacityDeferred }

/-- New records are gathered. -/
def addClassifications (advance : ClassificationAdvance)
    (classifications : List CachedClassification) : ClassificationAdvance :=
  { advance with classifications := advance.classifications ++ classifications }

/-- Whether some fetch of the slice tripped the circuit breaker. -/
def tripped (advance : ClassificationAdvance) : Bool :=
  advance.batchFailures > 0 || advance.systemicResponseFailures > 0 ||
    advance.allMissingBatches > 0

end ClassificationAdvance

/-- The report of a slice. -/
structure ClassificationSliceReport where
  generation : Nat := 0
  attempted : Nat := 0
  newlyClassified : Nat := 0
  factRequests : Nat := 0
  factsResolved : Nat := 0
  factsMissing : Nat := 0
  capacityDeferred : Nat := 0
  deferredCandidates : Nat := 0
  responseFailures : Nat := 0
  systemicResponseFailures : Nat := 0
  missingResponses : Nat := 0
  batchFailures : Nat := 0
  responseBytes : Nat := 0
  classified : Nat := 0
  remaining : Nat := 0
  complete : Bool
  stale : Bool
  disposition : ClassificationDisposition
  publication : Option ClassificationRevisionDelta

namespace ClassificationSliceReport

/-- There is no membership yet. -/
def waiting : ClassificationSliceReport where
  complete := true
  stale := false
  disposition := .complete
  publication := none

/-- The counters a report takes over from the slice's advance. -/
def ofAdvance (generation : Nat) (advance : ClassificationAdvance) (complete stale : Bool)
    (disposition : ClassificationDisposition) (publication : Option ClassificationRevisionDelta) :
    ClassificationSliceReport where
  generation
  attempted := advance.attempted
  factRequests := advance.factRequests
  factsResolved := advance.factsResolved
  factsMissing := advance.factsMissing
  capacityDeferred := advance.capacityDeferred
  deferredCandidates := advance.deferredCandidates
  responseFailures := advance.responseFailures
  systemicResponseFailures := advance.systemicResponseFailures
  missingResponses := advance.missingResponses
  batchFailures := advance.batchFailures
  responseBytes := advance.responseBytes
  complete
  stale
  disposition
  publication

/-- The slice was overtaken by another membership. -/
def staleAfter (generation : Nat) (advance : ClassificationAdvance) : ClassificationSliceReport :=
  ofAdvance generation advance false true .stale none

end ClassificationSliceReport

/-- How a slice call ends: its report, its error, or an unwinding panic. -/
inductive SliceEnd where
  | report (report : ClassificationSliceReport)
  | error (error : ClassificationError)
  | panic (panic : Panic)

/-- What a slice carries while it works on its pending candidates. -/
structure Working where
  generation : Nat
  advance : ClassificationAdvance
  pending : PendingSlice

/-- A call into the pipeline, by the action it takes next. -/
inductive Call where
  | installSnapshot (membership : MempoolSnapshot)
  | installed (result : Except ClassificationError ClassificationGenerationStart)
  | classifyNextForGeneration (expected : Option Nat)
  | awaitingDriver (generation : Nat)
  | holdingDriver (generation : Nat)
  | takingPending (generation : Nat)
  | selecting (generation : Nat)
  | fetchingRaw (generation : Nat) (advance : ClassificationAdvance)
      (tasks : FetchTasks ExpectedVariant Transaction)
  | admitting (generation : Nat) (advance : ClassificationAdvance)
      (values : List (ExpectedVariant × RpcValue Transaction))
  | hydrating (working : Working)
  | hydrated (working : Working)
  | fetchingParents (working : Working) (parentWave : List ExpectedVariant)
      (tasks : FetchTasks ExpectedVariant Transaction)
  | askingConfirmed (working : Working) (factWavesPaused : Bool)
  | fetchingConfirmed (working : Working) (tasks : FetchTasks OutPoint Script)
  | settling (working : Working)
  | recovering (working : Working) (deferredOnce : Bool)
  | rehydrating (working : Working) (deferredOnce : Bool)
  | rehydrated (working : Working) (deferredOnce : Bool)
  | relieving (working : Working) (deferredOnce : Bool)
  | merging (generation : Nat) (advance : ClassificationAdvance) (pending : Option PendingSlice)
  | leaving (generation : Nat) (result : SliceEnd)
  | returned (result : SliceEnd)

/-- The calls a run may begin with. -/
inductive Call.IsCall : Call → Prop
  | installSnapshot (membership : MempoolSnapshot) : IsCall (.installSnapshot membership)
  | classifyNextForGeneration (expected : Option Nat) :
      IsCall (.classifyNextForGeneration expected)

/-- One answered batch. -/
inductive NodeAnswer where
  | rawTransactions (batch : List ExpectedVariant) (answer : BatchAnswer)
  | txOuts (batch : List OutPoint) (answer : BatchAnswer)

/-- What an action makes visible. -/
inductive Event where
  | installed (start : ClassificationGenerationStart)
  | selected (generation : Nat) (candidates : List ExpectedVariant)
  | requestedParents (generation : Nat) (wave : List ExpectedVariant)
  | requestedPrevouts (generation : Nat) (wave : List OutPoint)
  | answered (generation : Nat) (answer : NodeAnswer)
  | revised (delta : ClassificationRevisionDelta)

/-- Which running batch task the next join yields, and how it ended. -/
structure Completion where
  index : Nat
  taskEnd : TaskEnd

/-- What an action yields: the state, the call's next action and what became visible. -/
abbrev Action := PipelineState × Call × Option Event

/-- The call leaves with nothing done. -/
def Call.stale (generation : Nat) : Call := .leaving generation (.report (.staleAfter generation {}))

/-- The call leaves with what it did counted. -/
def Call.staleAfter (generation : Nat) (advance : ClassificationAdvance) : Call :=
  .leaving generation (.report (.staleAfter generation advance))

/-- The slice at work leaves as overtaken. -/
def Working.staleAfter (working : Working) : Call :=
  .staleAfter working.generation working.advance

-- ---------------------------------------------------------------------------
-- Installation
-- ---------------------------------------------------------------------------

section Crate

variable [BitcoinCrate]

/-- The variants of a membership by transaction identifier; one that does not parse is
refused. -/
def currentVariants (membership : MempoolSnapshot) :
    Except ClassificationError (BTreeMap Txid CurrentVariant) :=
  membership.transactions.foldlM (fun variants entry =>
    match txidFromStr entry.txid with
    | none => .error (.invalidMembershipTxid entry.txid)
    | some txid => .ok (variants.insert txid { wtxid := entry.wtxid, vsize := entry.vsize })) ∅

/-- What an installation carries over from the previous generation. -/
structure Carried where
  cached : BTreeMap String CachedClassification := ∅
  outputs : List (Txid × CachedOutputs) := []
  classifications : TransactionClassifications := ∅

/-- A record is carried over to the same variant of the same transaction. -/
def carryClassification (previous : ClassificationWork) (entry : MempoolEntry)
    (carried : Carried) : Carried :=
  match previous.classifications[entry.wtxid]? with
  | none => carried
  | some cached =>
    if cached.classification.txid = entry.txid then
      { carried with
        cached := carried.cached.insert entry.wtxid cached
        classifications := carried.classifications.insert entry.txid cached.classification }
    else carried

/-- Cached outputs are carried over to the same variant. -/
def carryOutputs (previous : ClassificationWork) (entry : MempoolEntry) (carried : Carried) :
    Carried :=
  match txidFromStr entry.txid with
  | none => carried
  | some txid =>
    match previous.outputs[txid]? with
    | none => carried
    | some outputs =>
      if outputs.wtxid = entry.wtxid then
        { carried with outputs := carried.outputs ++ [(txid, outputs)] }
      else carried

/-- What the rows of a membership take over, in order. -/
def carry (previous : Option ClassificationWork) (membership : MempoolSnapshot) : Carried :=
  match previous with
  | none => {}
  | some previous =>
    membership.transactions.foldl (fun carried entry =>
      carryOutputs previous entry (carryClassification previous entry carried)) {}

/-- An entry the pipeline still has raw work for: no classification, or only a
retryable one. -/
def isUnsettled (classifications : BTreeMap String CachedClassification) (entry : MempoolEntry) :
    Bool :=
  classifications[entry.wtxid]?.all CachedClassification.retryable

/-- The work of the current generation. -/
def currentWork (state : PipelineState) : Option ClassificationWork :=
  (state.current.bind fun id => state.generations[id]?).map ClassificationGeneration.work

/-- The caches after an installation: the new generation starts with no outputs
and takes over those it can carry. -/
def installCaches (limits : ClassificationLimits) (carried : Carried)
    (confirmed : ConfirmedScriptCache) : AuxiliaryCaches :=
  carried.outputs.foldl (insertOutputs limits.maxAuxiliaryCacheBytes)
    { outputs := ∅, outputCacheBytes := 0, confirmed }

/-- The new generation starts with what it carries over, and becomes current. -/
def installGeneration (limits : ClassificationLimits) (state : PipelineState)
    (membership : MempoolSnapshot) (variants : BTreeMap Txid CurrentVariant) (id : Nat) :
    PipelineState × ClassificationGenerationStart :=
  let carried := carry (currentWork state) membership
  let caches := installCaches limits carried state.confirmedCache
  let generation : ClassificationGeneration := {
    id, membership, variants, driverHeld := false
    work := {
      classifications := carried.cached
      outputs := caches.outputs
      outputCacheBytes := caches.outputCacheBytes } }
  ({ nextGeneration := id
     current := some id
     confirmedCache := caches.confirmed
     generations := state.generations.insert id generation },
   { generation := id, revision := 0, membership, classifications := carried.classifications
     hasEligibleWork := membership.transactions.any (isUnsettled carried.cached) })

/-- `install_snapshot`: a membership with an invalid identifier changes nothing. -/
def installSnapshot (limits : ClassificationLimits) (state : PipelineState)
    (membership : MempoolSnapshot) : Action :=
  match currentVariants membership with
  | .error error => (state, .installed (.error error), none)
  | .ok variants =>
    match checkedAdd state.nextGeneration 1 with
    | none => (state, .installed (.error .generationOverflow), none)
    | some id =>
      let (state, start) := installGeneration limits state membership variants id
      (state, .installed (.ok start), some (.installed start))

-- ---------------------------------------------------------------------------
-- Raw candidates
-- ---------------------------------------------------------------------------

/-- A slice waits for the driver of the generation it was called for. -/
def beginSlice (state : PipelineState) (expected : Option Nat) : Call :=
  match state.current with
  | none => .returned (.report .waiting)
  | some id =>
    if expected ≠ some id then .returned (.report (.staleAfter id {})) else .awaitingDriver id

/-- The slice goes on with the candidates left by the last one, or selects new ones. -/
def takePending (state : PipelineState) (generation : ClassificationGeneration) : Action :=
  if !state.isCurrent generation.id then (state, .stale generation.id, none)
  else
    let taken := state.setGeneration
      (generation.setWork { generation.work with pending := none })
    match generation.work.pending with
    | none => (taken, .selecting generation.id, none)
    | some pending =>
      (taken, .hydrating { generation := generation.id, advance := {}, pending }, none)

/-- What a batch asks for a row. -/
def expectedVariant (entry : MempoolEntry) : ExpectedVariant :=
  { txid := entry.txid, wtxid := entry.wtxid, vsize := entry.vsize }

/-- The entries a raw slice may select: those never classified first. -/
def eligibleEntries (membership : MempoolSnapshot) (work : ClassificationWork) :
    List MempoolEntry :=
  let unattempted := membership.transactions.filter fun entry =>
    !work.attempted.contains entry.wtxid
  unattempted.filter (fun entry => !work.classifications.contains entry.wtxid) ++
    unattempted.filter fun entry =>
      work.classifications[entry.wtxid]?.any CachedClassification.retryable

/-- The slice selects its candidates and marks them as attempted. -/
def selectCandidates (limits : ClassificationLimits) (state : PipelineState)
    (generation : ClassificationGeneration) : Action :=
  let candidates := boundedVariants
    ((eligibleEntries generation.membership generation.work).map expectedVariant)
    limits.maxTransactionsPerSlice
  let work := { generation.work with
    attempted := candidates.foldl (fun attempted candidate => attempted.insert candidate.wtxid)
      generation.work.attempted }
  let advance : ClassificationAdvance := { attempted := candidates.length }
  let selected := state.setGeneration (generation.setWork work)
  if candidates.isEmpty then (selected, .merging generation.id advance none, none)
  else
    (selected, .fetchingRaw generation.id advance (.start candidates limits.rpcLanes),
      some (.selected generation.id candidates))

/-- A retryable raw failure gives its variant back once. -/
def readmit (work : ClassificationWork) (wtxid : String) : ClassificationWork :=
  if work.rawRetryUsed.contains wtxid then work
  else { work with
    rawRetryUsed := work.rawRetryUsed.insert wtxid, attempted := work.attempted.erase wtxid }

/-- The variants whose raw lookup may succeed later. -/
def retryableVariants (values : List (ExpectedVariant × RpcValue Transaction)) : List String :=
  (values.filter fun value => value.2 matches .retryableFailure).map fun value => value.1.wtxid

/-- The transactions that were fetched. -/
def foundTransactions (values : List (ExpectedVariant × RpcValue Transaction)) :
    List (ExpectedVariant × Transaction) :=
  values.filterMap fun value =>
    match value.2 with
    | .found transaction => some (value.1, transaction)
    | _ => none

/-- What was fetched becomes the pending slice; what failed is given back once. -/
def admitTransactions (resolver : ResolverLimits) (state : PipelineState)
    (generation : ClassificationGeneration) (advance : ClassificationAdvance)
    (values : List (ExpectedVariant × RpcValue Transaction)) : Action :=
  let admitted := state.setGeneration
    (generation.setWork ((retryableVariants values).foldl readmit generation.work))
  let transactions := foundTransactions values
  if transactions.isEmpty then (admitted, .merging generation.id advance none, none)
  else
    let pending := PendingSlice.new transactions generation.variants resolver
    let outputs := pending.rawOutputs.toList.foldl (fun outputs entry =>
      outputs.insert entry.1 entry.2) advance.outputs
    (admitted,
      .hydrating { generation := generation.id, advance := { advance with outputs }, pending }, none)

-- ---------------------------------------------------------------------------
-- Facts
-- ---------------------------------------------------------------------------

/-- Hydrate a slice of the current generation from the caches. -/
def hydrate (resolver : ResolverLimits) (state : PipelineState)
    (generation : ClassificationGeneration) (working : Working) (next : Working → Call) : Action :=
  if !state.isCurrent generation.id then (state, working.staleAfter, none)
  else
    match working.pending.hydrateFromCaches generation.variants generation.work.outputs
        state.confirmedCache resolver with
    | .error panic => (state, .leaving generation.id (.panic panic), none)
    | .ok (absorbed, confirmedCache) =>
      ({ state with confirmedCache },
        next {
          working with
          advance := working.advance.addAbsorbed absorbed, pending := absorbed.pending }, none)

/-- Classify what is ready, and go on unless that panics. -/
def classifyReady (working : Working) (next : Working → Call × Option Event) :
    Call × Option Event :=
  match working.pending.classifyReady with
  | .error panic => (.leaving working.generation (.panic panic), none)
  | .ok (classifications, pending) =>
    next {
      working with
      advance := working.advance.addClassifications classifications, pending }

/-- A parent wave, unless the breaker tripped or none is needed. -/
def askParents (limits : ClassificationLimits) (resolver : ResolverLimits)
    (variants : BTreeMap Txid CurrentVariant) (working : Working) : Call × Option Event :=
  let pending := working.pending.activateWaiting variants resolver
  let factWavesPaused := working.advance.tripped
  let (parentWave, pending) :=
    if factWavesPaused then ([], pending) else pending.nextParentWave variants resolver
  if parentWave.isEmpty then (.askingConfirmed { working with pending } factWavesPaused, none)
  else
    let advance := { working.advance with
      factRequests := working.advance.factRequests + parentWave.length }
    (.fetchingParents { working with pending, advance } parentWave
        (.start parentWave limits.rpcLanes),
      some (.requestedParents working.generation parentWave))

/-- Applying the values of a parent wave, with the parents resolved so far. -/
structure ParentsApplied where
  pending : PendingSlice
  advance : ClassificationAdvance
  resolved : BTreeSet Txid

/-- A fetched parent pays its facts and counts as resolved. -/
def applyParentValue (resolver : ResolverLimits) (applied : ParentsApplied)
    (fetched : ExpectedVariant × RpcValue Transaction) : ParentsApplied :=
  match txidFromStr fetched.1.txid, fetched.2 with
  | some parentTxid, .found transaction =>
    let (outputs, absorbed) :=
      applied.pending.applyParentTransaction fetched.1 transaction resolver
    { pending := absorbed.pending
      advance := { applied.advance.addAbsorbed absorbed with
        outputs := applied.advance.outputs.insert parentTxid outputs }
      resolved := applied.resolved.insert parentTxid }
  | _, _ => applied

/-- The distinct parents of a wave, in order. -/
def selectedParents (parentWave : List ExpectedVariant) : List Txid :=
  ((parentWave.filterMap fun expected => txidFromStr expected.txid).foldl
    (fun set txid => set.insert txid) (∅ : BTreeSet Txid)).toList

/-- The answers of a parent wave; parents not found are asked for as confirmed ones, unless the
breaker tripped. -/
def applyParents (resolver : ResolverLimits) (working : Working)
    (parentWave : List ExpectedVariant) (fetched : ConcurrentFetch ExpectedVariant Transaction) :
    Call :=
  let applied := fetched.values.foldl (applyParentValue resolver)
    { pending := working.pending, advance := working.advance, resolved := ∅ }
  let unresolved := (selectedParents parentWave).filter fun txid => !applied.resolved.contains txid
  let pending :=
    if fetched.tripped then applied.pending
    else unresolved.foldl PendingSlice.fallBackParentToGettxout applied.pending
  .askingConfirmed { working with pending, advance := applied.advance } fetched.tripped

/-- A confirmed wave, unless the waves are paused or none is needed. -/
def askConfirmed (limits : ClassificationLimits) (resolver : ResolverLimits) (working : Working)
    (factWavesPaused : Bool) : Call × Option Event :=
  let (confirmedWave, pending) :=
    if factWavesPaused then ([], working.pending) else working.pending.nextConfirmedWave resolver
  if confirmedWave.isEmpty then (.settling { working with pending }, none)
  else
    let advance := { working.advance with
      factRequests := working.advance.factRequests + confirmedWave.length }
    (.fetchingConfirmed { working with pending, advance }
        (.start confirmedWave limits.prevoutRpcLanes),
      some (.requestedPrevouts working.generation confirmedWave))

/-- The answer for one prevout. -/
def applyConfirmed (resolver : ResolverLimits) (working : Working)
    (fetched : OutPoint × RpcValue Script) : Working :=
  let applied := working.pending.applyConfirmedValue fetched.1 fetched.2 resolver
  let advance := working.advance
  { working with
    pending := applied.pending
    advance := { advance with
      confirmedScripts := match applied.script with
        | none => advance.confirmedScripts
        | some script => advance.confirmedScripts.insert fetched.1 script
      factsResolved := advance.factsResolved + applied.resolved
      factsMissing := advance.factsMissing + applied.missing
      capacityDeferred := advance.capacityDeferred + applied.capacityDeferred } }

/-- After the waves: a full working set blocks one awaited fact, and exhausted
candidates leave. -/
def settle (resolver : ResolverLimits) (working : Working) : Call × Option Event :=
  let blocked :=
    if working.pending.hasPendingScriptCapacity resolver then (false, working.pending)
    else working.pending.deferOneCapacityBlockedFact
  let (deferred, pending) := blocked.2.deferExhaustedCandidates
  let advance := { working.advance with
    capacityDeferred := working.advance.capacityDeferred + blocked.1.toNat
    deferredCandidates := working.advance.deferredCandidates + deferred }
  (.recovering { working with pending, advance } false, none)

/-- One pass of `recover_known_facts` after its hydration: another one follows
while candidates are classified. -/
def recover (resolver : ResolverLimits) (working : Working) (deferredOnce : Bool) :
    Call × Option Event :=
  let absorbed := working.pending.hydrateFromTransient working.advance.outputs
    working.advance.confirmedScripts resolver
  let classifiedBefore := working.advance.classifications.length
  classifyReady {
    working with
    pending := absorbed.pending, advance := working.advance.addAbsorbed absorbed }
    fun recovered =>
      if recovered.advance.classifications.length = classifiedBefore then
        (.relieving recovered deferredOnce, none)
      else (.recovering recovered deferredOnce, none)

/-- The end of the fact stages: what is left goes back to the generation. -/
def finishFacts (resolver : ResolverLimits) (variants : BTreeMap Txid CurrentVariant)
    (working : Working) : Call :=
  let pending := working.pending.activateWaiting variants resolver
  .merging working.generation working.advance (if pending.isEmpty then none else some pending)

/-- One decision of `resolve_capacity_pressure` after its recovery. -/
def relieve (resolver : ResolverLimits) (variants : BTreeMap Txid CurrentVariant)
    (working : Working) (deferredOnce : Bool) : Call :=
  let transientFactSurvives := working.pending.hasTransientCapacityBlockedFact
    working.advance.outputs working.advance.confirmedScripts
  if deferredOnce ∧ !transientFactSurvives then finishFacts resolver variants working
  else
    let (deferred, pending) := working.pending.deferCapacityBlockedCandidate
    if deferred = 0 then finishFacts resolver variants { working with pending }
    else
      .recovering {
        working with
        pending
        advance := { working.advance with
          deferredCandidates := working.advance.deferredCandidates + deferred } } true

-- ---------------------------------------------------------------------------
-- Merge
-- ---------------------------------------------------------------------------

/-- What the slice fetched enters the caches, outputs first. -/
def mergeCaches (limits : ClassificationLimits) (outputs : BTreeMap Txid CachedOutputs)
    (confirmedScripts : BTreeMap OutPoint Script) (caches : AuxiliaryCaches) : AuxiliaryCaches :=
  confirmedScripts.toList.foldl insertConfirmed
    (outputs.toList.foldl (insertOutputs limits.maxAuxiliaryCacheBytes) caches)

/-- The entries a later slice may still select. -/
def unstarted (membership : MempoolSnapshot) (work : ClassificationWork) : Nat :=
  membership.transactions.countP fun entry =>
    !work.attempted.contains entry.wtxid && isUnsettled work.classifications entry

/-- A tripped breaker pauses, whatever remains. -/
def dispositionOf (systemicFailure : Bool) (remaining : Nat) : ClassificationDisposition :=
  if systemicFailure then .paused else if remaining = 0 then .complete else .continue

/-- The report of a merged slice. -/
def mergedReport (generation : ClassificationGeneration) (advance : ClassificationAdvance) :
    ClassificationSliceReport :=
  let work := generation.work
  let remaining := saturatingAdd (unstarted generation.membership work)
    ((work.pending.map PendingSlice.candidateCount).getD 0)
  let publication :=
    if advance.classifications.isEmpty then none
    else some {
      generation := generation.id, revision := work.revision
      changed := advance.classifications.map CachedClassification.classification }
  { ClassificationSliceReport.ofAdvance generation.id advance
      (remaining = 0 && !advance.tripped) false (dispositionOf advance.tripped remaining)
      publication with
    newlyClassified := advance.classifications.length
    classified := work.classifications.size
    remaining }

/-- The work after a merge, but for its revision and its pending slice. -/
def mergeWork (work : ClassificationWork) (advance : ClassificationAdvance)
    (caches : AuxiliaryCaches) : ClassificationWork :=
  { work with
    outputs := caches.outputs
    outputCacheBytes := caches.outputCacheBytes
    classifications := advance.classifications.foldl (fun classifications cached =>
      classifications.insert cached.classification.wtxid cached) work.classifications }

/-- The end of a merge: the pending slice is stored and the report made. -/
def finishMerge (state : PipelineState) (generation : ClassificationGeneration)
    (advance : ClassificationAdvance) : Action :=
  let report := mergedReport generation advance
  (state.setGeneration generation, .leaving generation.id (.report report),
    report.publication.map .revised)

/-- `merge`: the records and caches of a slice enter its generation if that is still current, and
what they change is published. -/
def merge (limits : ClassificationLimits) (resolver : ResolverLimits) (state : PipelineState)
    (generation : ClassificationGeneration) (advance : ClassificationAdvance)
    (pending : Option PendingSlice) : Action :=
  if !state.isCurrent generation.id then (state, .staleAfter generation.id advance, none)
  else
    let caches := mergeCaches limits advance.outputs advance.confirmedScripts {
      outputs := generation.work.outputs, outputCacheBytes := generation.work.outputCacheBytes
      confirmed := state.confirmedCache }
    let state := { state with confirmedCache := caches.confirmed }
    let work := mergeWork generation.work advance caches
    let revision :=
      if advance.classifications.isEmpty then some work.revision else checkedAdd work.revision 1
    match revision with
    | none =>
      (state.setGeneration (generation.setWork work),
        .leaving generation.id (.error .generationOverflow), none)
    | some revision =>
      let work := { work with revision }
      match pending with
      | none => finishMerge state (generation.setWork work) advance
      | some pending =>
        match pending.hydrateFromCaches generation.variants work.outputs state.confirmedCache
            resolver with
        | .error panic =>
          (state.setGeneration (generation.setWork work), .leaving generation.id (.panic panic),
            none)
        | .ok (absorbed, confirmedCache) =>
          finishMerge { state with confirmedCache }
            (generation.setWork { work with pending := some absorbed.pending })
            (advance.addAbsorbed absorbed)

-- ---------------------------------------------------------------------------
-- Actions
-- ---------------------------------------------------------------------------

variable [WireJson]

/-- One iteration of a concurrent fetch: a lane is spawned, or a running task is
joined, with the answer its batch was fetched from. `none` when the completion
names no running task, or answers with another number of responses than the
batch has requests. -/
def fetchStep {κ ν : Type} (nextBatch : List κ → Option (List κ × List κ))
    (fetchBatch : BatchAnswer → List κ → Except ClassificationError (BatchFetch ν))
    (isCurrent : Bool) (completion : Completion) (tasks : FetchTasks κ ν) :
    Option (FetchTasks κ ν × Option (List κ × BatchAnswer)) :=
  if tasks.lanesLeft > 0 then some (tasks.spawnLane nextBatch isCurrent, none)
  else match tasks.running[completion.index]? with
    | none => none
    | some batch =>
      match completion.taskEnd with
      | .joinError =>
        some (tasks.join nextBatch isCurrent batch completion.index none, none)
      | .finished answer =>
        if answer.toOption.all fun answered => answered.responses.length = batch.length then
          let fetched := fetchBatch answer batch
          some (tasks.join nextBatch isCurrent batch completion.index (some fetched),
            if fetched.isOk then some (batch, answer) else none)
        else none

/-- No batch is in flight and no lane is left. -/
def FetchTasks.isDone {κ ν : Type} (tasks : FetchTasks κ ν) : Bool :=
  tasks.lanesLeft == 0 && tasks.running.isEmpty

/-- Drive a raw fetch, then go on with what it fetched. -/
def rawFetchStep (state : PipelineState) (generation : Nat) (completion : Completion)
    (tasks : FetchTasks ExpectedVariant Transaction)
    (again : FetchTasks ExpectedVariant Transaction → Call) (done : Call) : Option Action :=
  if tasks.isDone then some (state, done, none)
  else
    (fetchStep nextRawTransactionBatch fetchRawTransactions (state.isCurrent generation)
      completion tasks).map fun (tasks, answered) =>
        (state, again tasks, answered.map fun (batch, answer) =>
          .answered generation (.rawTransactions batch answer))

/-- One iteration of a fetch of confirmed prevouts. -/
def confirmedFetchStep (state : PipelineState) (generation : Nat) (completion : Completion)
    (tasks : FetchTasks OutPoint Script) (again : FetchTasks OutPoint Script → Call)
    (done : Call) : Option Action :=
  if tasks.isDone then some (state, done, none)
  else
    (fetchStep nextConfirmedPrevoutBatch fetchConfirmedPrevouts (state.isCurrent generation)
      completion tasks).map fun (tasks, answered) =>
        (state, again tasks, answered.map fun (batch, answer) =>
          .answered generation (.txOuts batch answer))

/-- The next atomic action of a call: the state it leaves, the point it has
reached and what it makes visible. -/
def callStep (limits : ClassificationLimits) (completion : Completion) (state : PipelineState)
    (call : Call) : Option Action :=
  let resolver := ResolverLimits.production limits.maxAuxiliaryCacheBytes
  match call with
  | .installSnapshot membership => some (installSnapshot limits state membership)
  | .installed _ => none
  | .classifyNextForGeneration expected => some (state, beginSlice state expected, none)
  | .awaitingDriver id => do
    let generation ← state.generations[id]?
    if generation.driverHeld then none
    else some (state.setGeneration { generation with driverHeld := true }, .holdingDriver id, none)
  | .holdingDriver id =>
    some (state, if state.isCurrent id then .takingPending id else .stale id, none)
  | .takingPending id => do
    let generation ← state.generations[id]?
    some (takePending state generation)
  | .selecting id => do
    let generation ← state.generations[id]?
    some (selectCandidates limits state generation)
  | .fetchingRaw id advance tasks =>
    let advanced := advance.addFetch tasks.fetched
    rawFetchStep state id completion tasks (.fetchingRaw id advance)
      (if state.isCurrent id then .admitting id advanced tasks.fetched.values
        else .staleAfter id advanced)
  | .admitting id advance values => do
    let generation ← state.generations[id]?
    some (admitTransactions resolver state generation advance values)
  | .hydrating working => do
    let generation ← state.generations[working.generation]?
    some (hydrate resolver state generation working .hydrated)
  | .hydrated working => do
    let generation ← state.generations[working.generation]?
    some (state, classifyReady working (askParents limits resolver generation.variants))
  | .fetchingParents working parentWave tasks =>
    let advanced := { working with advance := working.advance.addFetch tasks.fetched }
    rawFetchStep state working.generation completion tasks (.fetchingParents working parentWave)
      (if state.isCurrent working.generation then
        applyParents resolver advanced parentWave tasks.fetched
      else advanced.staleAfter)
  | .askingConfirmed working factWavesPaused =>
    some (state, askConfirmed limits resolver working factWavesPaused)
  | .fetchingConfirmed working tasks =>
    let advanced := { working with advance := working.advance.addFetch tasks.fetched }
    confirmedFetchStep state working.generation completion tasks (.fetchingConfirmed working)
      (if state.isCurrent working.generation then
        .settling (tasks.fetched.values.foldl (applyConfirmed resolver) advanced)
      else advanced.staleAfter)
  | .settling working => some (state, classifyReady working (settle resolver))
  | .recovering working deferredOnce =>
    some (state,
      if state.isCurrent working.generation then .rehydrating working deferredOnce
      else working.staleAfter, none)
  | .rehydrating working deferredOnce => do
    let generation ← state.generations[working.generation]?
    some (hydrate resolver state generation working fun hydrated =>
      .rehydrated hydrated deferredOnce)
  | .rehydrated working deferredOnce => some (state, recover resolver working deferredOnce)
  | .relieving working deferredOnce => do
    let generation ← state.generations[working.generation]?
    some (state, relieve resolver generation.variants working deferredOnce, none)
  | .merging id advance pending => do
    let generation ← state.generations[id]?
    some (merge limits resolver state generation advance pending)
  | .leaving id result => do
    let generation ← state.generations[id]?
    some (state.setGeneration { generation with driverHeld := false }, .returned result, none)
  | .returned _ => none

/-- Any number of installations and slices of one source in flight. -/
def system (ι : Type) (limits : ClassificationLimits) : Processes ι PipelineState Call Event where
  starts := Call.IsCall
  step _ state call event state' call' :=
    ∃ completion, callStep limits completion state call = some (state', call', event)

end Crate

end MempoolAtlas.Classification
