import MempoolAtlas.Lib.Processes
import MempoolAtlas.Classification.Limits

/-!
# The current-state publisher

`src/runtime/publisher.rs`. One source's visible state sits behind a lock;
`record_poll_started`, `publish_membership`, `publish_classification_update`
(with `publish_lifecycle`) and `publish_failure` read it, prepare or encode
without the lock, and check and commit under it. An operation in flight is an
`Op`: the point it has reached, with the values it has read. `opStep` is its
next atomic action: everything it does while it holds the lock once, or one
blocking task it awaits without the lock. `system` interleaves any number of
operations of one source.
-/

namespace MempoolAtlas.Runtime

open Model Machine Classification

/-- A response body. -/
abbrev Bytes := List UInt8

/-- `serde_json::to_vec` on a snapshot response. -/
class ResponseEncoder where
  toVec : SourceSnapshotResponse → Option Bytes

/-- Why a publication fails. -/
inductive RuntimeError where
  | model (error : ModelError)
  | snapshotSourceMismatch (expected actual : String)
  | classificationGenerationOverflow
  | classificationReportGenerationMismatch (report publication : Nat)
  | classificationRevisionMismatch (publication snapshot : Nat)
  | classificationRevisionSequence (current publication : Nat)
  | classificationsExceedMembership (classified membership : Nat)
  | classificationStateWithoutSnapshot
  | snapshotResponseTask
  | snapshotResponseEncoding
deriving DecidableEq, Repr

/-- What a publisher knows of its source. -/
structure CurrentStatePublisher where
  sourceId : String
  sourceLabel : String
  pollIntervalSeconds : Nat

/-- A cached response: its body and the tag it is served with. -/
structure CachedSnapshotResponse where
  body : Bytes
  etag : Option String
deriving DecidableEq, Repr

/-- What a source has published, with the bookkeeping of its publisher. -/
structure CurrentState where
  lastPollStartedAtMs : Option Nat := none
  membership : Option MempoolSnapshot := none
  latest : Option MempoolSnapshot := none
  classifications : TransactionClassifications := ∅
  lastError : Option String := none
  cachedResponse : Option CachedSnapshotResponse := none
  classificationGeneration : Option Nat := none
  classificationRevision : Nat := 0
  classificationState : Option ClassificationState := none
  statusRevision : Nat := 0
  responseRevision : Nat := 0

/-- A snapshot and its records, ready to be committed. -/
structure PreparedObservation where
  latest : MempoolSnapshot
  classifications : TransactionClassifications

-- ---------------------------------------------------------------------------
-- Responses
-- ---------------------------------------------------------------------------

/-- The summary of a source in some state. -/
def summaryFromParts (publisher : CurrentStatePublisher) (lastPollStartedAtMs : Option Nat)
    (latest : Option MempoolSnapshot) (classificationState : Option ClassificationState)
    (lastError : Option String) : SourceSummary where
  sourceId := publisher.sourceId
  sourceLabel := publisher.sourceLabel
  availability := match latest, lastError with
    | none, none => .waiting
    | none, some _ => .error
    | some _, none => .ready
    | some _, some _ => .stale
  pollIntervalSeconds := publisher.pollIntervalSeconds
  lastPollStartedAtMs
  snapshotObservedAtMs := latest.map MempoolSnapshot.observedAtMs
  chainTip := latest.map MempoolSnapshot.chainTip
  transactionCount := latest.map MempoolSnapshot.transactionCount
  totalVsize := latest.map MempoolSnapshot.totalVsize
  classification := match latest, classificationState with
    | some snapshot, some state => some (ClassificationProgress.fromSnapshot state snapshot)
    | none, none => none
    -- the `debug_assert` arm: snapshot and classification lifecycle must coexist
    | _, _ => none
  lastError

/-- The response every operation encodes, from the parts it has read. -/
def responseFromParts (publisher : CurrentStatePublisher) (lastPollStartedAtMs : Option Nat)
    (latest : Option MempoolSnapshot) (classificationState : Option ClassificationState)
    (lastError : Option String) : SourceSnapshotResponse where
  source := summaryFromParts publisher lastPollStartedAtMs latest classificationState lastError
  snapshot := latest

/-- The response that a state is served with. -/
def snapshotResponse (publisher : CurrentStatePublisher) (state : CurrentState) :
    SourceSnapshotResponse :=
  responseFromParts publisher state.lastPollStartedAtMs state.latest state.classificationState
    state.lastError

/-- How the blocking task of one await ends: it runs, or its `JoinError` is returned. -/
inductive TaskOutcome where
  | finished
  | joinError
deriving DecidableEq, Repr

/-- A blocking task materializes the observation. -/
def prepareObservation (task : TaskOutcome) (membership : MempoolSnapshot) (revision : Nat)
    (classifications : TransactionClassifications) : Except RuntimeError PreparedObservation :=
  match task with
  | .joinError => .error .snapshotResponseTask
  | .finished =>
    match MempoolObservation.materializeRetained membership revision classifications with
    | .error error => .error (.model error)
    | .ok observation =>
      .ok { latest := observation.snapshot, classifications := observation.classifications }

/-- A blocking task encodes the response. -/
def encodeResponse [ResponseEncoder] (task : TaskOutcome) (response : SourceSnapshotResponse) :
    Except RuntimeError Bytes :=
  match task with
  | .joinError => .error .snapshotResponseTask
  | .finished =>
    match ResponseEncoder.toVec response with
    | none => .error .snapshotResponseEncoding
    | some body => .ok body

/-- The tag of a response: the source, the snapshot and the revision of the response. -/
def etagFor (publisher : CurrentStatePublisher) (snapshot : MempoolSnapshot)
    (responseRevision : Nat) : String :=
  "W/\"" ++ publisher.sourceId ++ "-" ++ toString snapshot.observedAtMs ++ "-" ++
    toString responseRevision ++ "\""

/-- A new body raises the revision of the response and takes its tag. -/
def replaceCachedResponse (publisher : CurrentStatePublisher) (state : CurrentState)
    (body : Bytes) : CurrentState :=
  let responseRevision := wrappingAdd state.responseRevision 1
  { state with
    responseRevision
    cachedResponse := some {
      body, etag := state.latest.map fun snapshot => etagFor publisher snapshot responseRevision } }

-- ---------------------------------------------------------------------------
-- Operations in flight
-- ---------------------------------------------------------------------------

/-- What `publish_membership` reads before it encodes. -/
structure MembershipRead where
  statusRevision : Nat
  currentGeneration : Option Nat
  lastPollStartedAtMs : Option Nat

/-- What `publish_classification_update` holds from its first read on; the loop
refreshes the status fields. -/
structure Update where
  generation : Nat
  delta : ClassificationRevisionDelta
  classificationState : ClassificationState
  statusRevision : Nat
  currentRevision : Nat
  membership : MempoolSnapshot
  classifications : TransactionClassifications
  lastPollStartedAtMs : Option Nat
  lastError : Option String

/-- What a lifecycle call has read. -/
structure LifecycleRead where
  statusRevision : Nat
  currentRevision : Nat
  lastPollStartedAtMs : Option Nat
  latest : MempoolSnapshot
  lastError : Option String

/-- What a failure call has read. -/
structure FailureRead where
  statusRevision : Nat
  classificationGeneration : Option Nat
  classificationRevision : Nat
  lastPollStartedAtMs : Option Nat
  latest : Option MempoolSnapshot
  classificationState : Option ClassificationState

/-- What a call returns: the unit of `record_poll_started` and of a recorded
failure, `Ok` of whether it published, or an error. -/
inductive Return where
  | done
  | published (committed : Bool)
  | err (error : RuntimeError)
deriving DecidableEq, Repr

/-- A publisher call, by the action it takes next. -/
inductive Op where
  | recordPollStarted (startedAtMs : Nat)
  | publishMembership (publication : ClassificationGenerationStart)
  | membershipPrepare (publication : ClassificationGenerationStart)
  | membershipRead (publication : ClassificationGenerationStart) (prepared : PreparedObservation)
  | membershipEncode (publication : ClassificationGenerationStart) (prepared : PreparedObservation)
      (read : MembershipRead)
  | membershipCommit (publication : ClassificationGenerationStart) (prepared : PreparedObservation)
      (read : MembershipRead) (body : Bytes)
  | publishClassificationUpdate (generation : Nat) (delta : Option ClassificationRevisionDelta)
      (classificationState : ClassificationState)
  | updatePrepare (update : Update)
  | updateEncode (update : Update) (prepared : PreparedObservation)
  | updateCommit (update : Update) (prepared : PreparedObservation) (body : Bytes)
  | lifecycleRead (generation : Nat) (classificationState : ClassificationState)
  | lifecycleEncode (generation : Nat) (classificationState : ClassificationState)
      (read : LifecycleRead)
  | lifecycleCommit (generation : Nat) (classificationState : ClassificationState)
      (read : LifecycleRead) (body : Bytes)
  | publishFailure (error : String)
  | failureEncode (error : String) (read : FailureRead)
  | failureCommit (error : String) (read : FailureRead) (body : Bytes)
  | returned (result : Return)

/-- The calls an operation may begin with. -/
inductive Op.IsCall : Op → Prop
  | recordPollStarted (startedAtMs : Nat) : IsCall (.recordPollStarted startedAtMs)
  | publishMembership (publication : ClassificationGenerationStart) :
      IsCall (.publishMembership publication)
  | publishClassificationUpdate (generation : Nat) (delta : Option ClassificationRevisionDelta)
      (classificationState : ClassificationState) :
      IsCall (.publishClassificationUpdate generation delta classificationState)
  | publishFailure (error : String) : IsCall (.publishFailure error)

/-- A commit, as its log record names it, with what it published. -/
inductive Commit where
  | membership (publication : ClassificationGenerationStart)
  | classifications (delta : ClassificationRevisionDelta)
      (classificationState : ClassificationState)
  | lifecycle (generation : Nat) (classificationState : ClassificationState)
  | failure (error : String)

/-- The call returns an error. -/
def Op.raise (error : RuntimeError) : Op := .returned (.err error)

-- ---------------------------------------------------------------------------
-- Commits under the write lock
-- ---------------------------------------------------------------------------

/-- `poll_started`: the time of the poll. -/
def pollStarted (startedAtMs : Nat) (state : CurrentState) : CurrentState :=
  { state with
    lastPollStartedAtMs := some startedAtMs
    statusRevision := wrappingAdd state.statusRevision 1 }

/-- Without eligible work classification is complete from the start. -/
def startState (hasEligibleWork : Bool) : ClassificationState :=
  if hasEligibleWork then .classifying else .complete

/-- A membership takes the place of what was published. -/
def commitMembership (publisher : CurrentStatePublisher)
    (publication : ClassificationGenerationStart) (prepared : PreparedObservation) (body : Bytes)
    (state : CurrentState) : CurrentState :=
  replaceCachedResponse publisher
    { state with
      membership := some publication.membership
      latest := some prepared.latest
      classifications := prepared.classifications
      lastError := none
      classificationGeneration := some publication.generation
      classificationRevision := publication.revision
      classificationState := some (startState publication.hasEligibleWork)
      statusRevision := wrappingAdd state.statusRevision 1 }
    body

/-- A revision of the membership is published. -/
def commitUpdate (publisher : CurrentStatePublisher) (update : Update)
    (prepared : PreparedObservation) (body : Bytes) (state : CurrentState) : CurrentState :=
  replaceCachedResponse publisher
    { state with
      latest := some prepared.latest
      classifications := prepared.classifications
      classificationRevision := update.delta.revision
      classificationState := some update.classificationState
      statusRevision :=
        if state.classificationState ≠ some update.classificationState then
          wrappingAdd state.statusRevision 1
        else state.statusRevision }
    body

/-- The state of classification changes. -/
def commitLifecycle (publisher : CurrentStatePublisher) (classificationState : ClassificationState)
    (body : Bytes) (state : CurrentState) : CurrentState :=
  replaceCachedResponse publisher
    { state with
      classificationState := some classificationState
      statusRevision := wrappingAdd state.statusRevision 1 }
    body

/-- The failure is recorded, and what was published stays. -/
def commitFailure (publisher : CurrentStatePublisher) (error : String) (body : Bytes)
    (state : CurrentState) : CurrentState :=
  replaceCachedResponse publisher
    { state with
      lastError := some error
      statusRevision := wrappingAdd state.statusRevision 1 }
    body

-- ---------------------------------------------------------------------------
-- Actions
-- ---------------------------------------------------------------------------

/-- The map after a delta: each changed record replaces the one under its txid. -/
def accumulate (classifications : TransactionClassifications)
    (changed : List TransactionClassification) : TransactionClassifications :=
  changed.foldl (fun map classification => map.insert classification.txid classification)
    classifications

/-- Whether a generation at least as new is already visible. -/
def supersededBy (current : Option Nat) (generation : Nat) : Bool :=
  current.any fun current => current ≥ generation

/-- What `publish_membership` checks first: a publication that does not fit fails, a superseded
one is refused. -/
def startMembership (publisher : CurrentStatePublisher) (state : CurrentState)
    (publication : ClassificationGenerationStart) : Op :=
  if publication.membership.sourceId ≠ publisher.sourceId then
    .raise (.snapshotSourceMismatch publisher.sourceId publication.membership.sourceId)
  else if publication.revision ≠ 0 then
    .raise (.classificationRevisionMismatch publication.revision 0)
  else if publication.classifications.size > publication.membership.transactions.length then
    .raise (.classificationsExceedMembership publication.classifications.size
      publication.membership.transactions.length)
  else if supersededBy state.classificationGeneration publication.generation then
    .returned (.published false)
  else .membershipPrepare publication

/-- What a membership call reads before it encodes. -/
def readMembership (state : CurrentState) (publication : ClassificationGenerationStart)
    (prepared : PreparedObservation) : Op :=
  if supersededBy state.classificationGeneration publication.generation then
    .returned (.published false)
  else
    .membershipEncode publication prepared {
      statusRevision := state.statusRevision
      currentGeneration := state.classificationGeneration
      lastPollStartedAtMs := state.lastPollStartedAtMs }

/-- The first read of `publish_classification_update` with a delta. -/
def startUpdate (state : CurrentState) (generation : Nat) (delta : ClassificationRevisionDelta)
    (classificationState : ClassificationState) : Op :=
  if state.classificationGeneration ≠ some generation then .returned (.published false)
  else if state.classificationRevision ≥ delta.revision then .returned (.published false)
  else match checkedAdd state.classificationRevision 1 with
    | none => .raise .classificationGenerationOverflow
    | some expectedRevision =>
      if delta.revision ≠ expectedRevision then
        .raise (.classificationRevisionSequence state.classificationRevision delta.revision)
      else match state.membership with
        | none => .raise .classificationStateWithoutSnapshot
        | some membership =>
          .updatePrepare {
            generation, delta, classificationState, membership
            statusRevision := state.statusRevision
            currentRevision := state.classificationRevision
            classifications := state.classifications
            lastPollStartedAtMs := state.lastPollStartedAtMs
            lastError := state.lastError }

/-- The update prepares its observation. -/
def prepareUpdate (task : TaskOutcome) (update : Update) : Op :=
  let classifications := accumulate update.classifications update.delta.changed
  if classifications.size > update.membership.transactions.length then
    .raise (.classificationsExceedMembership classifications.size
      update.membership.transactions.length)
  else match prepareObservation task update.membership update.delta.revision classifications with
    | .error error => .raise error
    | .ok prepared => .updateEncode update prepared

/-- What a lifecycle call reads before it encodes. -/
def readLifecycle (state : CurrentState) (generation : Nat)
    (classificationState : ClassificationState) : Op :=
  if state.classificationGeneration ≠ some generation then .returned (.published false)
  else match state.latest with
    | none => .raise .classificationStateWithoutSnapshot
    | some latest =>
      if state.classificationState = some classificationState then .returned (.published true)
      else
        .lifecycleEncode generation classificationState {
          latest
          statusRevision := state.statusRevision
          currentRevision := state.classificationRevision
          lastPollStartedAtMs := state.lastPollStartedAtMs
          lastError := state.lastError }

/-- What a failure call reads before it encodes. -/
def readFailure (state : CurrentState) (error : String) : Op :=
  .failureEncode error {
    statusRevision := state.statusRevision
    classificationGeneration := state.classificationGeneration
    classificationRevision := state.classificationRevision
    lastPollStartedAtMs := state.lastPollStartedAtMs
    latest := state.latest
    classificationState := state.classificationState }

/-- The update reads the status once more. -/
def Update.refresh (update : Update) (state : CurrentState) : Update :=
  { update with
    statusRevision := state.statusRevision
    lastPollStartedAtMs := state.lastPollStartedAtMs
    lastError := state.lastError }

/-- Carry on with an encoded body, or return the error of its task. -/
def Op.withBody (encoded : Except RuntimeError Bytes) (next : Bytes → Op) : Op :=
  match encoded with
  | .error error => .raise error
  | .ok body => next body

section Actions

variable [ResponseEncoder]

/-- The next atomic action of an operation: the state it leaves, the point it
has reached, and the commit it made, if any. -/
def opStep (publisher : CurrentStatePublisher) (task : TaskOutcome) (state : CurrentState) :
    Op → Option (CurrentState × Op × Option Commit)
  | .recordPollStarted startedAtMs => some (pollStarted startedAtMs state, .returned .done, none)
  | .publishMembership publication => some (state, startMembership publisher state publication, none)
  | .membershipPrepare publication =>
    match prepareObservation task publication.membership publication.revision
        publication.classifications with
    | .error error => some (state, .raise error, none)
    | .ok prepared => some (state, .membershipRead publication prepared, none)
  | .membershipRead publication prepared =>
    some (state, readMembership state publication prepared, none)
  | .membershipEncode publication prepared read =>
    let response := responseFromParts publisher read.lastPollStartedAtMs (some prepared.latest)
      (some (startState publication.hasEligibleWork)) none
    some (state, .withBody (encodeResponse task response)
      (.membershipCommit publication prepared read), none)
  | .membershipCommit publication prepared read body =>
    if supersededBy state.classificationGeneration publication.generation then
      some (state, .returned (.published false), none)
    else if state.statusRevision ≠ read.statusRevision ∨
        state.classificationGeneration ≠ read.currentGeneration then
      some (state, .membershipRead publication prepared, none)
    else
      some (commitMembership publisher publication prepared body state,
        .returned (.published true), some (.membership publication))
  | .publishClassificationUpdate generation none classificationState =>
    some (state, .lifecycleRead generation classificationState, none)
  | .publishClassificationUpdate generation (some delta) classificationState =>
    if delta.generation ≠ generation then
      some (state, .raise (.classificationReportGenerationMismatch generation delta.generation),
        none)
    else some (state, startUpdate state generation delta classificationState, none)
  | .updatePrepare update => some (state, prepareUpdate task update, none)
  | .updateEncode update prepared =>
    let response := responseFromParts publisher update.lastPollStartedAtMs (some prepared.latest)
      (some update.classificationState) update.lastError
    some (state, .withBody (encodeResponse task response) (.updateCommit update prepared), none)
  | .updateCommit update prepared body =>
    if state.classificationGeneration ≠ some update.generation ∨
        state.classificationRevision ≠ update.currentRevision then
      some (state, .returned (.published false), none)
    else if state.statusRevision ≠ update.statusRevision then
      some (state, .updateEncode (update.refresh state) prepared, none)
    else
      some (commitUpdate publisher update prepared body state, .returned (.published true),
        some (.classifications update.delta update.classificationState))
  | .lifecycleRead generation classificationState =>
    some (state, readLifecycle state generation classificationState, none)
  | .lifecycleEncode generation classificationState read =>
    let response := responseFromParts publisher read.lastPollStartedAtMs (some read.latest)
      (some classificationState) read.lastError
    some (state, .withBody (encodeResponse task response)
      (.lifecycleCommit generation classificationState read), none)
  | .lifecycleCommit generation classificationState read body =>
    if state.classificationGeneration ≠ some generation then
      some (state, .returned (.published false), none)
    else if state.statusRevision ≠ read.statusRevision ∨
        state.classificationRevision ≠ read.currentRevision then
      some (state, .lifecycleRead generation classificationState, none)
    else
      some (commitLifecycle publisher classificationState body state, .returned (.published true),
        some (.lifecycle generation classificationState))
  | .publishFailure error => some (state, readFailure state error, none)
  | .failureEncode error read =>
    let response := responseFromParts publisher read.lastPollStartedAtMs read.latest
      read.classificationState (some error)
    some (state, .withBody (encodeResponse task response) (.failureCommit error read), none)
  | .failureCommit error read body =>
    if state.statusRevision ≠ read.statusRevision ∨
        state.classificationGeneration ≠ read.classificationGeneration ∨
        state.classificationRevision ≠ read.classificationRevision then
      some (state, .publishFailure error, none)
    else
      some (commitFailure publisher error body state, .returned .done, some (.failure error))
  | .returned _ => none

/-- Any number of operations of one source in flight, in runs in which
`status_revision` never wraps. -/
def system (ι : Type) (publisher : CurrentStatePublisher) :
    Processes ι CurrentState Op Commit where
  starts := Op.IsCall
  step _ state op commit state' op' :=
    (∃ task, opStep publisher task state op = some (state', op', commit)) ∧
      state.statusRevision ≤ state'.statusRevision

end Actions

end MempoolAtlas.Runtime
