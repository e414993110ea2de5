import MempoolAtlas.Classification.Pipeline
import MempoolAtlas.Runtime.Publisher
import MempoolAtlas.Runtime.Scheduling

/-!
# Poll rounds and classification slices

`AtlasRuntime` of `src/runtime.rs`: `poll_round`, `run_classification` and the
methods of `SourceRuntime` they call, over the publisher and the pipeline of every
source, the scheduler and the RPC work gate. A state is what the two loops share and
the point each has reached; an `AtlasStep` is the next atomic action of one of them.
What the clock says, what a node answers and how a blocking task ends is open.
-/

namespace MempoolAtlas.Runtime

open Model Machine Classification

/-- A source with its publisher and its limits. -/
structure AtlasSource where
  publisher : CurrentStatePublisher
  limits : ClassificationLimits

/-- What the tasks of one source share. -/
structure SourceState where
  published : CurrentState
  pipeline : PipelineState

/-- The errors that end a source's turn in a round; of an RPC error only the public
message is used. -/
inductive PollError where
  | invalidSystemClock
  | systemTimeOverflow
  | rpc (publicMessage : String)
  | classification (error : ClassificationError)

/-- How the poll of a source ended. -/
abbrev Outcome := Except PollError ClassificationGenerationStart

/-- Where `poll_round` is, with the outcomes it still holds. -/
inductive PollRound where
  | idle
  /-- Before the turn of a source, or the end of the turns. -/
  | collecting (sourceOrder : Nat) (outcomes : List (Nat × Outcome))
  /-- Before `record_poll_started`. -/
  | starting (sourceOrder startedAtMs : Nat) (outcomes : List (Nat × Outcome))
  /-- In `get_mempool_snapshot`. -/
  | polling (sourceOrder : Nat) (outcomes : List (Nat × Outcome))
  | installing (sourceOrder : Nat) (snapshot : MempoolSnapshot) (outcomes : List (Nat × Outcome))
  /-- Before the next outcome. -/
  | publishing (outcomes : List (Nat × Outcome))
  /-- In `publish_membership` or `record_failure`. -/
  | calling (sourceIndex : Nat) (outcome : Outcome) (op : Op) (outcomes : List (Nat × Outcome))
  /-- In `schedule_classification`, before its insertion and before its notification. -/
  | scheduling (sourceIndex : Nat) (outcomes : List (Nat × Outcome))
  | notifying (sourceIndex : Nat) (outcomes : List (Nat × Outcome))

/-- What `run_classification` holds of a slice. -/
inductive Slice where
  | none
  /-- Before `classification_generation`. -/
  | reading
  | classifying (expected : Option Nat) (call : Call)
  /-- In `publish_classification`, which returns `true` only if `continues`. -/
  | publishing (continues : Bool) (op : Op)

/-- The program's state: its sources, its scheduler, its round and the slice at work. -/
structure AtlasState where
  sources : Nat → SourceState
  scheduler : Scheduler := {}
  slice : Slice := .none
  round : PollRound := .idle

/-- What a step makes visible. -/
inductive AtlasEvent where
  | scheduling (event : SchedulerEvent)
  | generationRead (sourceIndex : Nat)
  | classified (sourceIndex : Nat)
  | sliceReturned (sourceIndex : Nat) (expected : Option Nat)
      (report : Except ClassificationError ClassificationSliceReport)
  | classificationActed (sourceIndex : Nat) (commit : Option Commit)
  | classificationReturned (sourceIndex : Nat) (continues : Bool) (result : Return)
  | roundStarted
  | clockRead (sourceIndex : Nat)
  | pollStarted (sourceIndex : Nat)
  | answered (sourceIndex : Nat) (snapshot : MempoolSnapshot)
  /-- The end of a source's turn. -/
  | collected (sourceIndex : Nat) (outcome : Outcome)
  | gateReleased
  | outcomeTaken (sourceIndex : Nat)
  | outcomeActed (sourceIndex : Nat) (commit : Option Commit)
  /-- An outcome is dealt with; `none` is one that is only logged. -/
  | settled (sourceIndex : Nat) (outcome : Outcome) (result : Option Return)
  | roundEnded

-- ---------------------------------------------------------------------------
-- runtime.rs
-- ---------------------------------------------------------------------------

/-- The rounds between `rpc_work_gate.acquire()` and the drop of the permit. -/
def PollRound.HoldsGate : PollRound → Prop
  | .collecting .. | .starting .. | .polling .. | .installing .. => True
  | _ => False

/-- The loop holds the gate while a slice is at work. -/
def ClassificationLoop.HoldsGate : ClassificationLoop → Prop
  | .slicing .. => True
  | _ => False

/-- What `poll_round` calls for an outcome; it only logs the other errors. -/
def Outcome.call : Outcome → Option Op
  | .ok publication => some (.publishMembership publication)
  | .error (.rpc publicMessage) => some (.publishFailure publicMessage)
  | .error _ => none

/-- After the call for an outcome: `Ok(true)` of a publication is scheduled. -/
def afterCall (sourceIndex : Nat) (outcomes : List (Nat × Outcome)) : Return → PollRound
  | .published true => .scheduling sourceIndex outcomes
  | _ => .publishing outcomes

/-- The state `record_classification_outcome` publishes for a disposition. -/
def publishedState : ClassificationDisposition → Option ClassificationState
  | .continue => some .classifying
  | .complete => some .complete
  | .paused => some .paused
  | .stale => none

/-- A report is logged, and a paused one recorded. -/
def recordClassificationOutcome (report : ClassificationSliceReport) : Slice :=
  match publishedState report.disposition with
  | none => .publishing false (.returned (.published false))
  | some classificationState =>
    .publishing (report.disposition == .continue)
      (.publishClassificationUpdate report.generation report.publication classificationState)

/-- A failed slice pauses its source. -/
def recordClassificationError (expected : Option Nat) : Slice :=
  match expected with
  | none => .publishing false (.returned (.published false))
  | some generation =>
    .publishing false (.publishClassificationUpdate generation none .paused)

/-- What a slice ended with goes to the publisher. -/
def publishClassification (report : Except ClassificationError ClassificationSliceReport)
    (expected : Option Nat) : Slice :=
  match report with
  | .ok report => recordClassificationOutcome report
  | .error _ => recordClassificationError expected

/-- What `classify_next_for_generation` returns; a panic does not return. -/
def returnedReport : SliceEnd → Option (Except ClassificationError ClassificationSliceReport)
  | .report report => some (.ok report)
  | .error error => some (.error error)
  | .panic _ => none

/-- One source changes. -/
def AtlasState.setSource (world : AtlasState) (sourceIndex : Nat) (source : SourceState) :
    AtlasState :=
  { world with sources := Function.update world.sources sourceIndex source }

/-- What one source has published changes. -/
def AtlasState.setPublished (world : AtlasState) (sourceIndex : Nat) (published : CurrentState) :
    AtlasState :=
  world.setSource sourceIndex { world.sources sourceIndex with published }

/-- The pipeline of one source changes. -/
def AtlasState.setPipeline (world : AtlasState) (sourceIndex : Nat) (pipeline : PipelineState) :
    AtlasState :=
  world.setSource sourceIndex { world.sources sourceIndex with pipeline }

/-- The loop goes on. -/
def AtlasState.setLoop (world : AtlasState) (loop : ClassificationLoop) (slice : Slice) :
    AtlasState :=
  { world with scheduler := { world.scheduler with loop }, slice }

/-- The action of the scheduler that an action of the runtime is. -/
def AtlasEvent.schedulerEvent : AtlasEvent → Option SchedulerEvent
  | .scheduling event => some event
  | .sliceReturned sourceIndex _ _ => some (.sliceEnded sourceIndex)
  | .classificationReturned sourceIndex continues result =>
    some (.finished sourceIndex (continues && result == .published true))
  | _ => none

section Steps

variable [BitcoinCrate] [WireJson] [ResponseEncoder]

/-- The next action of `run_classification`. -/
inductive LoopStep (sources : List AtlasSource) (world : AtlasState) :
    AtlasEvent → AtlasState → Prop
  | scheduled {scheduler : Scheduler} {event : SchedulerEvent}
      (hFree : world.scheduler.loop.current = none)
      (hStep : loopStep sources.length false world.scheduler = some (scheduler, event)) :
      LoopStep sources world (.scheduling event) { world with scheduler }
  | sliceStarted {active : BTreeSet Nat} {sourceIndex : Nat}
      (hLoop : world.scheduler.loop = .acquiring active sourceIndex)
      (hGate : ¬ world.round.HoldsGate) :
      LoopStep sources world (.scheduling (.sliceStarted sourceIndex))
        (world.setLoop (.slicing active sourceIndex) .reading)
  | generationRead {active : BTreeSet Nat} {sourceIndex : Nat}
      (hLoop : world.scheduler.loop = .slicing active sourceIndex)
      (hSlice : world.slice = .reading) :
      LoopStep sources world (.generationRead sourceIndex) { world with
        slice := .classifying (world.sources sourceIndex).published.classificationGeneration
          (.classifyNextForGeneration
            (world.sources sourceIndex).published.classificationGeneration) }
  | classified {active : BTreeSet Nat} {sourceIndex : Nat} {source : AtlasSource}
      {expected : Option Nat} {call call' : Call} {completion : Completion}
      {pipeline : PipelineState} {event : Option Event}
      (hLoop : world.scheduler.loop = .slicing active sourceIndex)
      (hSlice : world.slice = .classifying expected call)
      (hSource : sources[sourceIndex]? = some source)
      (hStep : callStep source.limits completion (world.sources sourceIndex).pipeline call =
        some (pipeline, call', event)) :
      LoopStep sources world (.classified sourceIndex)
        { world.setPipeline sourceIndex pipeline with slice := .classifying expected call' }
  | sliceReturned {active : BTreeSet Nat} {sourceIndex : Nat} {expected : Option Nat}
      {sliceEnd : SliceEnd} {report : Except ClassificationError ClassificationSliceReport}
      (hLoop : world.scheduler.loop = .slicing active sourceIndex)
      (hSlice : world.slice = .classifying expected (.returned sliceEnd))
      (hResult : returnedReport sliceEnd = some report) :
      LoopStep sources world (.sliceReturned sourceIndex expected report)
        (world.setLoop (.publishing active sourceIndex) (publishClassification report expected))
  | acted {active : BTreeSet Nat} {sourceIndex : Nat} {source : AtlasSource} {continues : Bool}
      {op op' : Op} {task : TaskOutcome} {published : CurrentState} {commit : Option Commit}
      (hLoop : world.scheduler.loop = .publishing active sourceIndex)
      (hSlice : world.slice = .publishing continues op)
      (hSource : sources[sourceIndex]? = some source)
      (hStep : opStep source.publisher task (world.sources sourceIndex).published op =
        some (published, op', commit)) :
      LoopStep sources world (.classificationActed sourceIndex commit)
        { world.setPublished sourceIndex published with slice := .publishing continues op' }
  | finished {active : BTreeSet Nat} {sourceIndex : Nat} {continues : Bool} {result : Return}
      (hLoop : world.scheduler.loop = .publishing active sourceIndex)
      (hSlice : world.slice = .publishing continues (.returned result)) :
      LoopStep sources world (.classificationReturned sourceIndex continues result)
        (world.setLoop (reinsert sources.length active sourceIndex
          (continues && result == .published true)) .none)

/-- The next action of `poll_round`. -/
inductive RoundStep (sources : List AtlasSource) (world : AtlasState) :
    AtlasEvent → AtlasState → Prop
  | started (hRound : world.round = .idle) (hGate : ¬ world.scheduler.loop.HoldsGate) :
      RoundStep sources world .roundStarted { world with round := .collecting 0 [] }
  | clockRead {sourceOrder : Nat} {outcomes : List (Nat × Outcome)} (startedAtMs : Nat)
      (hRound : world.round = .collecting sourceOrder outcomes)
      (hConfigured : sourceOrder < sources.length) :
      RoundStep sources world (.clockRead sourceOrder)
        { world with round := .starting sourceOrder startedAtMs outcomes }
  | clockFailed {sourceOrder : Nat} {outcomes : List (Nat × Outcome)} {error : PollError}
      (hRound : world.round = .collecting sourceOrder outcomes)
      (hConfigured : sourceOrder < sources.length)
      (hError : error = .invalidSystemClock ∨ error = .systemTimeOverflow) :
      RoundStep sources world (.collected sourceOrder (.error error)) { world with
        round := .collecting (sourceOrder + 1) (outcomes ++ [(sourceOrder, .error error)]) }
  | pollStarted {sourceOrder startedAtMs : Nat} {outcomes : List (Nat × Outcome)}
      (hRound : world.round = .starting sourceOrder startedAtMs outcomes) :
      RoundStep sources world (.pollStarted sourceOrder)
        { world.setPublished sourceOrder
            (pollStarted startedAtMs (world.sources sourceOrder).published) with
          round := .polling sourceOrder outcomes }
  | polled {sourceOrder : Nat} {outcomes : List (Nat × Outcome)} (snapshot : MempoolSnapshot)
      (hRound : world.round = .polling sourceOrder outcomes) :
      RoundStep sources world (.answered sourceOrder snapshot)
        { world with round := .installing sourceOrder snapshot outcomes }
  | pollFailed {sourceOrder : Nat} {outcomes : List (Nat × Outcome)} (publicMessage : String)
      (hRound : world.round = .polling sourceOrder outcomes) :
      RoundStep sources world (.collected sourceOrder (.error (.rpc publicMessage))) { world with
        round := .collecting (sourceOrder + 1)
          (outcomes ++ [(sourceOrder, .error (.rpc publicMessage))]) }
  | installed {sourceOrder : Nat} {snapshot : MempoolSnapshot} {outcomes : List (Nat × Outcome)}
      {source : AtlasSource} {pipeline : PipelineState} {event : Option Event}
      {result : Except ClassificationError ClassificationGenerationStart}
      (hRound : world.round = .installing sourceOrder snapshot outcomes)
      (hSource : sources[sourceOrder]? = some source)
      (hInstall : installSnapshot source.limits (world.sources sourceOrder).pipeline snapshot =
        (pipeline, .installed result, event)) :
      RoundStep sources world (.collected sourceOrder (result.mapError .classification))
        { world.setPipeline sourceOrder pipeline with
          round := .collecting (sourceOrder + 1)
            (outcomes ++ [(sourceOrder, result.mapError .classification)]) }
  | gateReleased {outcomes : List (Nat × Outcome)}
      (hRound : world.round = .collecting sources.length outcomes) :
      RoundStep sources world .gateReleased { world with round := .publishing outcomes }
  | taken {sourceIndex : Nat} {outcome : Outcome} {op : Op} {outcomes : List (Nat × Outcome)}
      (hRound : world.round = .publishing ((sourceIndex, outcome) :: outcomes))
      (hCall : outcome.call = some op) :
      RoundStep sources world (.outcomeTaken sourceIndex)
        { world with round := .calling sourceIndex outcome op outcomes }
  | logged {sourceIndex : Nat} {outcome : Outcome} {outcomes : List (Nat × Outcome)}
      (hRound : world.round = .publishing ((sourceIndex, outcome) :: outcomes))
      (hCall : outcome.call = none) :
      RoundStep sources world (.settled sourceIndex outcome none)
        { world with round := .publishing outcomes }
  | acted {sourceIndex : Nat} {outcome : Outcome} {op op' : Op} {outcomes : List (Nat × Outcome)}
      {source : AtlasSource} {task : TaskOutcome} {published : CurrentState}
      {commit : Option Commit}
      (hRound : world.round = .calling sourceIndex outcome op outcomes)
      (hSource : sources[sourceIndex]? = some source)
      (hStep : opStep source.publisher task (world.sources sourceIndex).published op =
        some (published, op', commit)) :
      RoundStep sources world (.outcomeActed sourceIndex commit)
        { world.setPublished sourceIndex published with
          round := .calling sourceIndex outcome op' outcomes }
  | settled {sourceIndex : Nat} {outcome : Outcome} {result : Return}
      {outcomes : List (Nat × Outcome)}
      (hRound : world.round = .calling sourceIndex outcome (.returned result) outcomes) :
      RoundStep sources world (.settled sourceIndex outcome (some result))
        { world with round := afterCall sourceIndex outcomes result }
  | scheduled {sourceIndex : Nat} {outcomes : List (Nat × Outcome)} {scheduler : Scheduler}
      (hRound : world.round = .scheduling sourceIndex outcomes)
      (hStep : SchedulerStep sources.length world.scheduler (.scheduled sourceIndex) scheduler) :
      RoundStep sources world (.scheduling (.scheduled sourceIndex))
        { world with scheduler, round := .notifying sourceIndex outcomes }
  | notified {sourceIndex : Nat} {outcomes : List (Nat × Outcome)} {scheduler : Scheduler}
      (hRound : world.round = .notifying sourceIndex outcomes)
      (hStep : SchedulerStep sources.length world.scheduler (.notified sourceIndex) scheduler) :
      RoundStep sources world (.scheduling (.notified sourceIndex))
        { world with scheduler, round := .publishing outcomes }
  | ended (hRound : world.round = .publishing []) :
      RoundStep sources world .roundEnded { world with round := .idle }

/-- The two loops of `AtlasRuntime::run`, joined. -/
inductive AtlasStep (sources : List AtlasSource) (world : AtlasState) (event : AtlasEvent)
    (world' : AtlasState) : Prop
  | loop (hStep : LoopStep sources world event world')
  | round (hStep : RoundStep sources world event world')

/-- A run of the program. -/
abbrev AtlasRun (sources : List AtlasSource) := LabelledRun (AtlasStep sources)

/-- The state `AtlasRuntime::new` starts from. -/
structure AtlasState.IsStart (sources : List AtlasSource) (world : AtlasState) : Prop where
  scheduler : world.scheduler = {}
  slice : world.slice = .none
  round : world.round = .idle
  published : ∀ sourceIndex, (world.sources sourceIndex).published = {}
  pipeline : ∀ sourceIndex source, sources[sourceIndex]? = some source →
    (world.sources sourceIndex).pipeline = .new source.limits

end Steps

end MempoolAtlas.Runtime
