import MempoolAtlas.Runtime.FairScheduling
import MempoolAtlas.Runtime.Rounds

/-!
# The life of one source

What the two loops do to one source, seen from that source: whether it is pending
or active, where the round and the loop are with it, and the state it publishes.
Whatever the other sources do, its own life only takes the steps of `LifeStep`
(`run_life`): what is proved of such lives holds in every run of the runtime.

## Results

* `schedulerRun_of_run` — the scheduler of a run of the runtime runs as it does alone.
* `life_step`, `run_life` — a source of a run takes the steps of its own life.
-/

namespace MempoolAtlas.Runtime

open Model Machine Classification

/-- Where a round is with a source. -/
inductive Turn where
  | away
  | waiting (outcome : Outcome)
  | calling (outcome : Outcome) (op : Op)
  | scheduling

/-- Where the classification loop is with a source. -/
inductive Stage where
  | idle
  | picked
  | slicing (slice : Slice)
  | publishing (slice : Slice)

/-- What the program holds for one source. -/
structure SourceLife where
  published : CurrentState
  pipeline : PipelineState
  pending : Bool
  active : Bool
  turn : Turn
  stage : Stage

/-- The turn of a source whose outcome is collected. -/
def waitingTurn (outcomes : List (Nat × Outcome)) (sourceIndex : Nat) : Turn :=
  match outcomes.lookup sourceIndex with
  | some outcome => .waiting outcome
  | none => .away

/-- The turn of a source in a round. -/
def PollRound.turn (round : PollRound) (sourceIndex : Nat) : Turn :=
  match round with
  | .idle => .away
  | .collecting _ outcomes | .starting _ _ outcomes | .polling _ outcomes
  | .installing _ _ outcomes | .publishing outcomes | .notifying _ outcomes =>
    waitingTurn outcomes sourceIndex
  | .calling called outcome op outcomes =>
    if called = sourceIndex then .calling outcome op else waitingTurn outcomes sourceIndex
  | .scheduling scheduled outcomes =>
    if scheduled = sourceIndex then .scheduling else waitingTurn outcomes sourceIndex

/-- The stage of a source in the loop. -/
def ClassificationLoop.stage (loop : ClassificationLoop) (slice : Slice) (sourceIndex : Nat) :
    Stage :=
  match loop with
  | .acquiring _ picked => if picked = sourceIndex then .picked else .idle
  | .slicing _ picked => if picked = sourceIndex then .slicing slice else .idle
  | .publishing _ picked => if picked = sourceIndex then .publishing slice else .idle
  | _ => .idle

/-- The life of a source in the program's state. -/
def AtlasState.life (world : AtlasState) (sourceIndex : Nat) : SourceLife where
  published := (world.sources sourceIndex).published
  pipeline := (world.sources sourceIndex).pipeline
  pending := world.scheduler.pending.contains sourceIndex
  active := world.scheduler.loop.active.contains sourceIndex
  turn := world.round.turn sourceIndex
  stage := world.scheduler.loop.stage world.slice sourceIndex

/-- The source whose life an event changes, but for `drained`, which may change all. -/
def AtlasEvent.source : AtlasEvent → Option Nat
  | .scheduling (.scheduled sourceIndex) | .scheduling (.picked (some sourceIndex))
  | .scheduling (.sliceStarted sourceIndex) | .generationRead sourceIndex
  | .classified sourceIndex | .sliceReturned sourceIndex _ _ | .classificationActed sourceIndex _
  | .classificationReturned sourceIndex _ _ | .pollStarted sourceIndex | .collected sourceIndex _
  | .outcomeTaken sourceIndex | .outcomeActed sourceIndex _ | .settled sourceIndex _ _ =>
    some sourceIndex
  | _ => none

/-- The turn of a source after the call for its outcome. -/
def turnAfterCall : Return → Turn
  | .published true => .scheduling
  | _ => .away

section Lives

variable [BitcoinCrate] [WireJson] [ResponseEncoder]

/-- What one step of the program does to one source. -/
inductive LifeStep (source : AtlasSource) (sourceIndex : Nat) (life : SourceLife) :
    AtlasEvent → SourceLife → Prop
  | other {event : AtlasEvent} (hOther : event.source ≠ some sourceIndex) :
      LifeStep source sourceIndex life event life
  | drained (hStage : life.stage = .idle) :
      LifeStep source sourceIndex life (.scheduling .drained)
        { life with pending := false, active := life.pending || life.active }
  | picked (hActive : life.active = true) (hStage : life.stage = .idle) :
      LifeStep source sourceIndex life (.scheduling (.picked (some sourceIndex)))
        { life with active := false, stage := .picked }
  | sliceStarted (hStage : life.stage = .picked) :
      LifeStep source sourceIndex life (.scheduling (.sliceStarted sourceIndex))
        { life with stage := .slicing .reading }
  | generationRead (hStage : life.stage = .slicing .reading) :
      LifeStep source sourceIndex life (.generationRead sourceIndex) { life with
        stage := .slicing (.classifying life.published.classificationGeneration
          (.classifyNextForGeneration life.published.classificationGeneration)) }
  | classified {expected : Option Nat} {call call' : Call} {completion : Completion}
      {pipeline : PipelineState} {event : Option Event}
      (hStage : life.stage = .slicing (.classifying expected call))
      (hStep : callStep source.limits completion life.pipeline call =
        some (pipeline, call', event)) :
      LifeStep source sourceIndex life (.classified sourceIndex)
        { life with pipeline, stage := .slicing (.classifying expected call') }
  | sliceReturned {expected : Option Nat} {sliceEnd : SliceEnd}
      {report : Except ClassificationError ClassificationSliceReport}
      (hStage : life.stage = .slicing (.classifying expected (.returned sliceEnd)))
      (hResult : returnedReport sliceEnd = some report) :
      LifeStep source sourceIndex life (.sliceReturned sourceIndex expected report)
        { life with stage := .publishing (publishClassification report expected) }
  | classificationActed {continues : Bool} {op op' : Op} {task : TaskOutcome}
      {published : CurrentState} {commit : Option Commit}
      (hStage : life.stage = .publishing (.publishing continues op))
      (hStep : opStep source.publisher task life.published op = some (published, op', commit)) :
      LifeStep source sourceIndex life (.classificationActed sourceIndex commit)
        { life with published, stage := .publishing (.publishing continues op') }
  | finished {continues : Bool} {result : Return}
      (hStage : life.stage = .publishing (.publishing continues (.returned result))) :
      LifeStep source sourceIndex life (.classificationReturned sourceIndex continues result)
        { life with
          active := (continues && result == .published true) || life.active, stage := .idle }
  | pollStarted (startedAtMs : Nat) :
      LifeStep source sourceIndex life (.pollStarted sourceIndex)
        { life with published := pollStarted startedAtMs life.published }
  | failed (error : PollError) (hTurn : life.turn = .away) :
      LifeStep source sourceIndex life (.collected sourceIndex (.error error))
        { life with turn := .waiting (.error error) }
  | installed {snapshot : MempoolSnapshot} {pipeline : PipelineState} {event : Option Event}
      {result : Except ClassificationError ClassificationGenerationStart}
      (hTurn : life.turn = .away) (hStage : ∀ slice, life.stage ≠ .slicing slice)
      (hInstall : installSnapshot source.limits life.pipeline snapshot =
        (pipeline, .installed result, event)) :
      LifeStep source sourceIndex life
        (.collected sourceIndex (result.mapError .classification))
        { life with pipeline, turn := .waiting (result.mapError .classification) }
  | taken {outcome : Outcome} {op : Op} (hTurn : life.turn = .waiting outcome)
      (hCall : outcome.call = some op) :
      LifeStep source sourceIndex life (.outcomeTaken sourceIndex)
        { life with turn := .calling outcome op }
  | logged {outcome : Outcome} (hTurn : life.turn = .waiting outcome)
      (hCall : outcome.call = none) :
      LifeStep source sourceIndex life (.settled sourceIndex outcome none)
        { life with turn := .away }
  | outcomeActed {outcome : Outcome} {op op' : Op} {task : TaskOutcome}
      {published : CurrentState} {commit : Option Commit}
      (hTurn : life.turn = .calling outcome op)
      (hStep : opStep source.publisher task life.published op = some (published, op', commit)) :
      LifeStep source sourceIndex life (.outcomeActed sourceIndex commit)
        { life with published, turn := .calling outcome op' }
  | settled {outcome : Outcome} {result : Return}
      (hTurn : life.turn = .calling outcome (.returned result)) :
      LifeStep source sourceIndex life (.settled sourceIndex outcome (some result))
        { life with turn := turnAfterCall result }
  | scheduled (hTurn : life.turn = .scheduling) :
      LifeStep source sourceIndex life (.scheduling (.scheduled sourceIndex))
        { life with pending := true, turn := .away }

/-- The life of a source over a run. -/
abbrev LifeRun (source : AtlasSource) (sourceIndex : Nat) :=
  LabelledRun (LifeStep source sourceIndex)

end Lives

-- ---------------------------------------------------------------------------
-- The order of a round
-- ---------------------------------------------------------------------------

/-- The sources a round holds are those of its turns so far, or the rest of all. -/
def PollRound.Ordered (sources : Nat) : PollRound → Prop
  | .idle => True
  | .collecting sourceOrder outcomes =>
    sourceOrder ≤ sources ∧ outcomes.map Prod.fst = List.range sourceOrder
  | .starting sourceOrder _ outcomes | .polling sourceOrder outcomes
  | .installing sourceOrder _ outcomes =>
    sourceOrder < sources ∧ outcomes.map Prod.fst = List.range sourceOrder
  | .publishing outcomes => ∃ settled, settled ++ outcomes.map Prod.fst = List.range sources
  | .calling sourceIndex _ _ outcomes | .scheduling sourceIndex outcomes
  | .notifying sourceIndex outcomes =>
    ∃ settled, settled ++ sourceIndex :: outcomes.map Prod.fst = List.range sources

/-- Outcomes are collected in the order of the sources. -/
structure AtlasState.Ordered (sources : List AtlasSource) (world : AtlasState) : Prop where
  scheduled : Scheduled sources.length world.scheduler
  gate : world.round.HoldsGate → ¬ world.scheduler.loop.HoldsGate
  round : world.round.Ordered sources.length

theorem nodup_of_rest {sources : Nat} {settled rest : List Nat}
    (h : settled ++ rest = List.range sources) : rest.Nodup :=
  (List.nodup_append.mp (h ▸ List.nodup_range)).2.1

theorem waitingTurn_cons_self (outcome : Outcome) (outcomes : List (Nat × Outcome))
    (sourceIndex : Nat) :
    waitingTurn ((sourceIndex, outcome) :: outcomes) sourceIndex = .waiting outcome := by
  simp [waitingTurn]

theorem waitingTurn_cons_ne {waiting sourceIndex : Nat} (h : waiting ≠ sourceIndex)
    (outcome : Outcome) (outcomes : List (Nat × Outcome)) :
    waitingTurn ((waiting, outcome) :: outcomes) sourceIndex = waitingTurn outcomes sourceIndex := by
  simp [waitingTurn, List.lookup_cons, beq_false_of_ne h.symm]

theorem waitingTurn_of_not_mem {outcomes : List (Nat × Outcome)} {sourceIndex : Nat}
    (h : sourceIndex ∉ outcomes.map Prod.fst) : waitingTurn outcomes sourceIndex = .away := by
  unfold waitingTurn
  rw [List.lookup_eq_none_iff.mpr]
  intro pair hMem
  refine bne_iff_ne.mpr fun hEqual => h (List.mem_map.mpr ⟨pair, hMem, hEqual.symm⟩)

theorem waitingTurn_append {outcomes : List (Nat × Outcome)} {waiting sourceIndex : Nat}
    {outcome : Outcome} (h : waiting ≠ sourceIndex) :
    waitingTurn (outcomes ++ [(waiting, outcome)]) sourceIndex =
      waitingTurn outcomes sourceIndex := by
  unfold waitingTurn
  rw [List.lookup_append]
  cases outcomes.lookup sourceIndex with
  | some found => rfl
  | none => simp [List.lookup_cons, beq_false_of_ne h.symm]

theorem waitingTurn_append_self {outcomes : List (Nat × Outcome)} {sourceIndex : Nat}
    {outcome : Outcome} (h : sourceIndex ∉ outcomes.map Prod.fst) :
    waitingTurn (outcomes ++ [(sourceIndex, outcome)]) sourceIndex = .waiting outcome := by
  have hNone : outcomes.lookup sourceIndex = none := by
    have hAway := waitingTurn_of_not_mem h
    unfold waitingTurn at hAway
    cases hFind : outcomes.lookup sourceIndex with
    | none => rfl
    | some found =>
      rw [hFind] at hAway
      cases hAway
  unfold waitingTurn
  rw [List.lookup_append, hNone]
  simp

-- ---------------------------------------------------------------------------
-- The scheduler of the runtime
-- ---------------------------------------------------------------------------

section Refinement

variable [BitcoinCrate] [WireJson] [ResponseEncoder] {sources : List AtlasSource}
  {world world' : AtlasState} {event : AtlasEvent}

/-- An action of the runtime is one of its scheduler, or leaves the scheduler alone. -/
theorem schedulerStep_of_step (h : AtlasStep sources world event world') :
    (event.schedulerEvent = none ∧ world'.scheduler = world.scheduler) ∨
      ∃ schedulerEvent, event.schedulerEvent = some schedulerEvent ∧
        SchedulerStep sources.length world.scheduler schedulerEvent world'.scheduler := by
  cases h with
  | loop hStep =>
    cases hStep with
    | scheduled hFree hStep => exact Or.inr ⟨_, rfl, .loop false hStep⟩
    | sliceStarted hLoop hGate =>
      refine Or.inr ⟨_, rfl, .loop false ?_⟩
      unfold loopStep
      rw [hLoop]
      rfl
    | sliceReturned hLoop hSlice hResult =>
      refine Or.inr ⟨_, rfl, .loop false ?_⟩
      unfold loopStep
      rw [hLoop]
      rfl
    | @finished active sourceIndex continues result hLoop hSlice =>
      refine Or.inr ⟨_, rfl, .loop (continues && result == .published true) ?_⟩
      unfold loopStep
      rw [hLoop]
      rfl
    | generationRead | classified | acted => exact Or.inl ⟨rfl, rfl⟩
  | round hStep =>
    cases hStep with
    | scheduled hRound hStep => exact Or.inr ⟨_, rfl, hStep⟩
    | notified hRound hStep => exact Or.inr ⟨_, rfl, hStep⟩
    | started | clockRead | clockFailed | pollStarted | polled | pollFailed | installed
    | gateReleased | taken | logged | acted | settled | ended => exact Or.inl ⟨rfl, rfl⟩

/-- **The scheduler of a run of the runtime** runs as the scheduler alone does. -/
theorem schedulerRun_of_run {trace : List AtlasEvent} (h : AtlasRun sources world trace world') :
    SchedulerRun sources.length world.scheduler (trace.filterMap AtlasEvent.schedulerEvent)
      world'.scheduler := by
  induction h with
  | refl => exact .refl
  | @head world mid last event trace hStep hRun ih =>
    rcases schedulerStep_of_step hStep with ⟨hNone, hSame⟩ | ⟨schedulerEvent, hSome, hMoves⟩
    · rw [List.filterMap_cons_none hNone]
      rw [hSame] at ih
      exact ih
    · rw [List.filterMap_cons_some hSome]
      exact .head hMoves ih

omit [WireJson] in
/-- A round goes on in the order of its sources. -/
theorem PollRound.Ordered.step (h : world.round.Ordered sources.length)
    (hStep : RoundStep sources world event world') : world'.round.Ordered sources.length := by
  cases hStep with
  | started hRound hGate => exact ⟨Nat.zero_le _, rfl⟩
  | clockRead startedAtMs hRound hConfigured =>
    rw [hRound] at h
    exact ⟨hConfigured, h.2⟩
  | clockFailed hRound hConfigured hError =>
    rw [hRound] at h
    exact ⟨hConfigured, by rw [List.map_append, h.2, List.range_succ]; rfl⟩
  | pollStarted hRound =>
    rw [hRound] at h
    exact h
  | polled snapshot hRound =>
    rw [hRound] at h
    exact h
  | pollFailed publicMessage hRound =>
    rw [hRound] at h
    exact ⟨h.1, by rw [List.map_append, h.2, List.range_succ]; rfl⟩
  | installed hRound hSource hInstall =>
    rw [hRound] at h
    exact ⟨h.1, by rw [List.map_append, h.2, List.range_succ]; rfl⟩
  | gateReleased hRound =>
    rw [hRound] at h
    exact ⟨[], h.2⟩
  | taken hRound hCall =>
    rw [hRound] at h
    exact h
  | @logged sourceIndex outcome outcomes hRound hCall =>
    rw [hRound] at h
    obtain ⟨settled, hSettled⟩ := h
    exact ⟨settled ++ [sourceIndex], by rw [← hSettled]; simp⟩
  | acted hRound hSource hStep =>
    rw [hRound] at h
    exact h
  | @settled sourceIndex outcome result outcomes hRound =>
    rw [hRound] at h
    obtain ⟨settled, hSettled⟩ := h
    unfold afterCall
    split
    · exact ⟨settled, hSettled⟩
    · exact ⟨settled ++ [sourceIndex], by rw [← hSettled]; simp⟩
  | scheduled hRound hStep =>
    rw [hRound] at h
    exact h
  | @notified sourceIndex outcomes scheduler hRound hStep =>
    rw [hRound] at h
    obtain ⟨settled, hSettled⟩ := h
    exact ⟨settled ++ [sourceIndex], by rw [← hSettled]; simp⟩
  | ended hRound => trivial

/-- Who holds the RPC work gate goes on alone. -/
theorem gate_step (h : world.round.HoldsGate → ¬ world.scheduler.loop.HoldsGate)
    (hStep : AtlasStep sources world event world') :
    world'.round.HoldsGate → ¬ world'.scheduler.loop.HoldsGate := by
  cases hStep with
  | loop hStep =>
    cases hStep with
    | scheduled hFree hStep =>
      intro hGate
      cases loopStep_effect hStep with
      | woken | slept | drained | exhausted | picked => exact id
      | sliceStarted hLoop | sliceEnded hLoop | finished _ hLoop =>
        rw [hLoop] at hFree
        cases hFree
    | sliceStarted hLoop hGate => exact fun hHeld => absurd hHeld hGate
    | sliceReturned | finished => exact fun _ => id
    | generationRead | classified | acted => exact h
  | round hStep =>
    cases hStep with
    | started hRound hGate => exact fun _ => hGate
    | clockRead _ hRound | clockFailed hRound | pollStarted hRound | polled _ hRound
    | pollFailed _ hRound | installed hRound =>
      rw [hRound] at h
      exact fun _ => h trivial
    | settled hRound =>
      unfold afterCall
      intro hHeld
      dsimp only at hHeld
      split at hHeld <;> exact hHeld.elim
    | gateReleased | taken | logged | acted | scheduled | notified | ended =>
      exact fun hHeld => hHeld.elim

/-- One step keeps the order. -/
theorem AtlasState.Ordered.step (h : world.Ordered sources)
    (hStep : AtlasStep sources world event world') : world'.Ordered sources := by
  refine ⟨?_, gate_step h.gate hStep, ?_⟩
  · rcases schedulerStep_of_step hStep with ⟨-, hSame⟩ | ⟨schedulerEvent, -, hMoves⟩
    · rw [hSame]
      exact h.scheduled
    · exact h.scheduled.step hMoves
  · cases hStep with
    | loop hStep =>
      cases hStep with
      | scheduled | sliceStarted | generationRead | classified | sliceReturned | acted | finished =>
        exact h.round
    | round hStep => exact h.round.step hStep

-- ---------------------------------------------------------------------------
-- One source of the runtime
-- ---------------------------------------------------------------------------

omit [BitcoinCrate] [WireJson] [ResponseEncoder] in
theorem contains_congr {left right : BTreeSet Nat} {sourceIndex : Nat}
    (h : sourceIndex ∈ left ↔ sourceIndex ∈ right) :
    left.contains sourceIndex = right.contains sourceIndex := by
  rw [Bool.eq_iff_iff, Std.ExtTreeSet.contains_iff_mem, Std.ExtTreeSet.contains_iff_mem]
  exact h

omit [BitcoinCrate] [WireJson] [ResponseEncoder] in
theorem contains_takePending (pending active : BTreeSet Nat) (sourceIndex : Nat) :
    (takePendingClassification pending active).contains sourceIndex =
      (pending.contains sourceIndex || active.contains sourceIndex) := by
  rw [Bool.eq_iff_iff, Bool.or_eq_true, Std.ExtTreeSet.contains_iff_mem,
    Std.ExtTreeSet.contains_iff_mem, Std.ExtTreeSet.contains_iff_mem]
  exact mem_takePending

omit [BitcoinCrate] [WireJson] [ResponseEncoder] in
theorem life_congr {sourceIndex : Nat}
    (hSource : world'.sources sourceIndex = world.sources sourceIndex)
    (hPending : sourceIndex ∈ world'.scheduler.pending ↔ sourceIndex ∈ world.scheduler.pending)
    (hActive : sourceIndex ∈ world'.scheduler.loop.active ↔
      sourceIndex ∈ world.scheduler.loop.active)
    (hTurn : world'.round.turn sourceIndex = world.round.turn sourceIndex)
    (hStage : world'.scheduler.loop.stage world'.slice sourceIndex =
      world.scheduler.loop.stage world.slice sourceIndex) :
    world'.life sourceIndex = world.life sourceIndex := by
  unfold AtlasState.life
  rw [hSource, hTurn, hStage, contains_congr hPending, contains_congr hActive]

theorem LifeStep.unchanged {source : AtlasSource} {sourceIndex : Nat} {life life' : SourceLife}
    (hOther : event.source ≠ some sourceIndex) (hLife : life' = life) :
    LifeStep source sourceIndex life event life' :=
  hLife ▸ .other hOther

/-- A step of the loop is one of the source's life. -/
theorem life_loopStep {source : AtlasSource} {sourceIndex : Nat}
    (hSource : sources[sourceIndex]? = some source)
    (hStep : LoopStep sources world event world') :
    LifeStep source sourceIndex (world.life sourceIndex) event (world'.life sourceIndex) := by
  cases hStep with
  | scheduled hFree hStep =>
    cases loopStep_effect hStep with
    | woken hLoop hPermit =>
      refine .unchanged (by simp [AtlasEvent.source]) (life_congr rfl Iff.rfl ?_ rfl ?_)
      · rw [hLoop]
        rfl
      · rw [hLoop]
        rfl
    | slept hLoop hPermit =>
      refine .unchanged (by simp [AtlasEvent.source]) (life_congr rfl Iff.rfl ?_ rfl ?_)
      · rw [hLoop]
        rfl
      · rw [hLoop]
        rfl
    | @drained active pointer hLoop =>
      have hLife : AtlasState.life { world with scheduler := { world.scheduler with
          pending := ∅
          loop := .picking (takePendingClassification world.scheduler.pending active) pointer } }
          sourceIndex = { world.life sourceIndex with
            pending := false
            active := (world.life sourceIndex).pending || (world.life sourceIndex).active } := by
        simp [AtlasState.life, ClassificationLoop.active, ClassificationLoop.stage, hLoop,
          contains_takePending]
      rw [hLife]
      refine .drained ?_
      simp [AtlasState.life, ClassificationLoop.stage, hLoop]
    | @exhausted active pointer hLoop hNone =>
      refine .unchanged (by simp [AtlasEvent.source]) (life_congr rfl Iff.rfl ?_ rfl ?_)
      · rw [hLoop]
        simp [ClassificationLoop.active, nextSource_eq_none hNone sourceIndex]
      · rw [hLoop]
        rfl
    | @picked active pointer picked hLoop hNext =>
      by_cases hOwn : picked = sourceIndex
      · subst hOwn
        have hMem := mem_of_nextSource hNext
        have hLife : AtlasState.life { world with scheduler := { world.scheduler with
            loop := .acquiring (active.erase picked) picked } } picked =
              { world.life picked with active := false, stage := .picked } := by
          simp [AtlasState.life, ClassificationLoop.active, ClassificationLoop.stage]
        rw [hLife]
        refine .picked ?_ ?_
        · simp [AtlasState.life, ClassificationLoop.active, hLoop, hMem]
        · simp [AtlasState.life, ClassificationLoop.stage, hLoop]
      · refine .unchanged (by simpa [AtlasEvent.source] using hOwn)
          (life_congr rfl Iff.rfl ?_ rfl ?_)
        · rw [hLoop]
          simp only [ClassificationLoop.active, BTreeSet.mem_erase_iff]
          exact ⟨fun hMem => hMem.2, fun hMem => ⟨fun hEqual => hOwn hEqual.symm, hMem⟩⟩
        · rw [hLoop]
          simp [ClassificationLoop.stage, hOwn]
    | sliceStarted hLoop | sliceEnded hLoop | finished _ hLoop =>
      rw [hLoop] at hFree
      cases hFree
  | @sliceStarted active picked hLoop hGate =>
    by_cases hOwn : picked = sourceIndex
    · subst hOwn
      have hLife : (world.setLoop (.slicing active picked) .reading).life picked =
          { world.life picked with stage := .slicing .reading } := by
        simp [AtlasState.life, AtlasState.setLoop, ClassificationLoop.active,
          ClassificationLoop.stage, hLoop]
      rw [hLife]
      refine .sliceStarted ?_
      simp [AtlasState.life, ClassificationLoop.stage, hLoop]
    · refine .unchanged (by simpa [AtlasEvent.source] using hOwn)
        (life_congr rfl Iff.rfl ?_ rfl ?_)
      · rw [hLoop]
        rfl
      · rw [hLoop]
        simp [AtlasState.setLoop, ClassificationLoop.stage, hOwn]
  | @generationRead active picked hLoop hSlice =>
    by_cases hOwn : picked = sourceIndex
    · subst hOwn
      have hLife : AtlasState.life { world with
            slice := .classifying (world.sources picked).published.classificationGeneration
              (.classifyNextForGeneration
                (world.sources picked).published.classificationGeneration) } picked =
          { world.life picked with
            stage := .slicing (.classifying
              (world.life picked).published.classificationGeneration (.classifyNextForGeneration
                (world.life picked).published.classificationGeneration)) } := by
        simp [AtlasState.life, ClassificationLoop.stage, hLoop]
      rw [hLife]
      refine .generationRead ?_
      simp [AtlasState.life, ClassificationLoop.stage, hLoop, hSlice]
    · refine .unchanged (by simpa [AtlasEvent.source] using hOwn)
        (life_congr rfl Iff.rfl Iff.rfl rfl ?_)
      simp [ClassificationLoop.stage, hLoop, hOwn]
  | @classified active picked pickedSource expected call call' completion pipeline event hLoop
      hSlice hPicked hStep =>
    by_cases hOwn : picked = sourceIndex
    · subst hOwn
      obtain rfl : pickedSource = source := by simpa [hSource] using hPicked.symm
      have hLife : AtlasState.life { world.setPipeline picked pipeline with
          slice := .classifying expected call' } picked = { world.life picked with
            pipeline, stage := .slicing (.classifying expected call') } := by
        simp [AtlasState.life, AtlasState.setPipeline, AtlasState.setSource,
          ClassificationLoop.stage, hLoop]
      rw [hLife]
      refine .classified ?_ hStep
      simp [AtlasState.life, ClassificationLoop.stage, hLoop, hSlice]
    · refine .unchanged (by simpa [AtlasEvent.source] using hOwn)
        (life_congr ?_ Iff.rfl Iff.rfl rfl ?_)
      · simp [AtlasState.setPipeline, AtlasState.setSource, Function.update_of_ne (Ne.symm hOwn)]
      · simp [AtlasState.setPipeline, AtlasState.setSource, ClassificationLoop.stage, hLoop, hOwn]
  | @sliceReturned active picked expected sliceEnd report hLoop hSlice hResult =>
    by_cases hOwn : picked = sourceIndex
    · subst hOwn
      have hLife : (world.setLoop (.publishing active picked)
          (publishClassification report expected)).life picked = { world.life picked with
            stage := .publishing (publishClassification report expected) } := by
        simp [AtlasState.life, AtlasState.setLoop, ClassificationLoop.active,
          ClassificationLoop.stage, hLoop]
      rw [hLife]
      refine .sliceReturned ?_ hResult
      simp [AtlasState.life, ClassificationLoop.stage, hLoop, hSlice]
    · refine .unchanged (by simpa [AtlasEvent.source] using hOwn)
        (life_congr rfl Iff.rfl ?_ rfl ?_)
      · rw [hLoop]
        rfl
      · rw [hLoop]
        simp [AtlasState.setLoop, ClassificationLoop.stage, hOwn]
  | @acted active picked pickedSource continues op op' task published commit hLoop hSlice hPicked
      hStep =>
    by_cases hOwn : picked = sourceIndex
    · subst hOwn
      obtain rfl : pickedSource = source := by simpa [hSource] using hPicked.symm
      have hLife : AtlasState.life { world.setPublished picked published with
          slice := .publishing continues op' } picked = { world.life picked with
            published, stage := .publishing (.publishing continues op') } := by
        simp [AtlasState.life, AtlasState.setPublished, AtlasState.setSource,
          ClassificationLoop.stage, hLoop]
      rw [hLife]
      refine .classificationActed ?_ hStep
      simp [AtlasState.life, ClassificationLoop.stage, hLoop, hSlice]
    · refine .unchanged (by simpa [AtlasEvent.source] using hOwn)
        (life_congr ?_ Iff.rfl Iff.rfl rfl ?_)
      · simp [AtlasState.setPublished, AtlasState.setSource, Function.update_of_ne (Ne.symm hOwn)]
      · simp [AtlasState.setPublished, AtlasState.setSource, ClassificationLoop.stage, hLoop, hOwn]
  | @finished active picked continues result hLoop hSlice =>
    by_cases hOwn : picked = sourceIndex
    · subst hOwn
      have hLife : (world.setLoop (reinsert sources.length active picked
          (continues && result == .published true)) .none).life picked = { world.life picked with
            active := (continues && result == .published true) || (world.life picked).active
            stage := .idle } := by
        cases hContinues : continues && result == .published true with
        | true =>
          simp [AtlasState.life, AtlasState.setLoop, ClassificationLoop.active,
            ClassificationLoop.stage, reinsert]
        | false =>
          simp [AtlasState.life, AtlasState.setLoop, ClassificationLoop.active,
            ClassificationLoop.stage, reinsert, hLoop]
      rw [hLife]
      refine .finished ?_
      simp [AtlasState.life, ClassificationLoop.stage, hLoop, hSlice]
    · refine .unchanged (by simpa [AtlasEvent.source] using hOwn)
        (life_congr rfl Iff.rfl ?_ rfl ?_)
      · rw [hLoop]
        simp only [AtlasState.setLoop, reinsert, ClassificationLoop.active]
        split
        · rw [BTreeSet.mem_insert_iff]
          exact or_iff_right fun hEqual => hOwn hEqual.symm
        · exact Iff.rfl
      · rw [hLoop]
        simp [AtlasState.setLoop, reinsert, ClassificationLoop.stage, hOwn]

omit [BitcoinCrate] [WireJson] [ResponseEncoder] in
/-- A round that only changes what it does itself. -/
theorem life_of_round {sourceIndex : Nat} (round : PollRound) :
    AtlasState.life { world with round } sourceIndex =
      { world.life sourceIndex with turn := round.turn sourceIndex } := rfl

omit [BitcoinCrate] [WireJson] [ResponseEncoder] in
theorem life_of_round_eq {sourceIndex : Nat} {round : PollRound}
    (h : round.turn sourceIndex = world.round.turn sourceIndex) :
    AtlasState.life { world with round } sourceIndex = world.life sourceIndex := by
  rw [life_of_round, h]
  rfl

omit [BitcoinCrate] [WireJson] [ResponseEncoder] in
theorem collecting_turn {sourceOrder : Nat} {outcomes : List (Nat × Outcome)}
    (h : outcomes.map Prod.fst = List.range sourceOrder) (outcome : Outcome) (sourceIndex : Nat) :
    (PollRound.collecting (sourceOrder + 1) (outcomes ++ [(sourceOrder, outcome)])).turn
        sourceIndex =
      if sourceOrder = sourceIndex then .waiting outcome else waitingTurn outcomes sourceIndex := by
  split
  · next hOwn =>
    subst hOwn
    exact waitingTurn_append_self (by simp [h])
  · next hOther => exact waitingTurn_append hOther

omit [BitcoinCrate] [WireJson] [ResponseEncoder] in
/-- The source whose turn it is has no outcome yet. -/
theorem turn_away {sourceOrder : Nat} {outcomes : List (Nat × Outcome)}
    (h : outcomes.map Prod.fst = List.range sourceOrder) :
    waitingTurn outcomes sourceOrder = .away :=
  waitingTurn_of_not_mem (by simp [h])

omit [BitcoinCrate] [WireJson] [ResponseEncoder] in
/-- Nor has the source whose outcome has been taken. -/
theorem taken_away {sources sourceIndex : Nat} {outcomes : List (Nat × Outcome)}
    (h : ∃ settled, settled ++ sourceIndex :: outcomes.map Prod.fst = List.range sources) :
    waitingTurn outcomes sourceIndex = .away := by
  obtain ⟨settled, hSettled⟩ := h
  exact waitingTurn_of_not_mem (List.nodup_cons.mp (nodup_of_rest hSettled)).1

theorem life_failed {source : AtlasSource} {sourceIndex sourceOrder : Nat}
    {outcomes : List (Nat × Outcome)} (error : PollError)
    (hTurn : world.round.turn sourceIndex = waitingTurn outcomes sourceIndex)
    (hOrder : outcomes.map Prod.fst = List.range sourceOrder) :
    LifeStep source sourceIndex (world.life sourceIndex) (.collected sourceOrder (.error error))
      (AtlasState.life { world with
        round := .collecting (sourceOrder + 1) (outcomes ++ [(sourceOrder, .error error)]) }
        sourceIndex) := by
  have hNext := collecting_turn hOrder (.error error) sourceIndex
  rw [life_of_round (.collecting (sourceOrder + 1) _), hNext]
  by_cases hOwn : sourceOrder = sourceIndex
  · subst hOwn
    rw [if_pos rfl]
    exact .failed error (hTurn.trans (turn_away hOrder))
  · rw [if_neg hOwn, ← hTurn]
    exact .unchanged (by simpa [AtlasEvent.source] using hOwn) rfl

/-- A step of the round is one of the source's life. -/
theorem life_roundStep {source : AtlasSource} {sourceIndex : Nat} (h : world.Ordered sources)
    (hSource : sources[sourceIndex]? = some source)
    (hStep : RoundStep sources world event world') :
    LifeStep source sourceIndex (world.life sourceIndex) event (world'.life sourceIndex) := by
  have hOrder := h.round
  cases hStep with
  | started hRound hGate =>
    refine .unchanged (by simp [AtlasEvent.source]) (life_of_round_eq ?_)
    rw [hRound]
    rfl
  | clockRead startedAtMs hRound hConfigured =>
    refine .unchanged (by simp [AtlasEvent.source]) (life_of_round_eq ?_)
    rw [hRound]
    rfl
  | clockFailed hRound hConfigured hError =>
    rw [hRound] at hOrder
    exact life_failed _ (by rw [hRound]; rfl) hOrder.2
  | @pollStarted sourceOrder startedAtMs outcomes hRound =>
    by_cases hOwn : sourceOrder = sourceIndex
    · subst hOwn
      have hLife : AtlasState.life { world.setPublished sourceOrder
            (Runtime.pollStarted startedAtMs (world.sources sourceOrder).published) with
          round := .polling sourceOrder outcomes } sourceOrder = { world.life sourceOrder with
            published := Runtime.pollStarted startedAtMs (world.life sourceOrder).published } := by
        simp [AtlasState.life, AtlasState.setPublished, AtlasState.setSource, PollRound.turn, hRound]
      rw [hLife]
      exact .pollStarted startedAtMs
    · refine .unchanged (by simpa [AtlasEvent.source] using hOwn)
        (life_congr ?_ Iff.rfl Iff.rfl ?_ rfl)
      · simp [AtlasState.setPublished, AtlasState.setSource, Function.update_of_ne (Ne.symm hOwn)]
      · rw [hRound]
        rfl
  | polled snapshot hRound =>
    refine .unchanged (by simp [AtlasEvent.source]) (life_of_round_eq ?_)
    rw [hRound]
    rfl
  | pollFailed publicMessage hRound =>
    rw [hRound] at hOrder
    exact life_failed _ (by rw [hRound]; rfl) hOrder.2
  | @installed sourceOrder snapshot outcomes picked pipeline event result hRound hPicked hInstall =>
    have hFree := h.gate (by rw [hRound]; trivial)
    rw [hRound] at hOrder
    by_cases hOwn : sourceOrder = sourceIndex
    · subst hOwn
      obtain rfl : picked = source := by simpa [hSource] using hPicked.symm
      have hLife : AtlasState.life { world.setPipeline sourceOrder pipeline with
          round := .collecting (sourceOrder + 1)
            (outcomes ++ [(sourceOrder, result.mapError .classification)]) } sourceOrder =
          { world.life sourceOrder with
            pipeline, turn := .waiting (result.mapError .classification) } := by
        have hTurn := collecting_turn hOrder.2 (result.mapError .classification) sourceOrder
        rw [if_pos rfl] at hTurn
        simp [AtlasState.life, AtlasState.setPipeline, AtlasState.setSource, hTurn]
      rw [hLife]
      refine .installed ?_ (fun slice hStage => ?_) hInstall
      · simp [AtlasState.life, hRound, PollRound.turn, turn_away hOrder.2]
      · unfold AtlasState.life ClassificationLoop.stage at hStage
        cases hLoop : world.scheduler.loop with
        | slicing active index =>
          rw [hLoop] at hFree
          exact hFree trivial
        | acquiring | publishing =>
          rw [hLoop] at hStage
          dsimp only at hStage
          split at hStage <;> cases hStage
        | arriving | waiting | draining | picking =>
          rw [hLoop] at hStage
          cases hStage
    · refine .unchanged (by simpa [AtlasEvent.source] using hOwn)
        (life_congr ?_ Iff.rfl Iff.rfl ?_ rfl)
      · simp [AtlasState.setPipeline, AtlasState.setSource, Function.update_of_ne (Ne.symm hOwn)]
      · rw [hRound]
        dsimp only
        rw [collecting_turn hOrder.2, if_neg hOwn]
        rfl
  | gateReleased hRound =>
    refine .unchanged (by simp [AtlasEvent.source]) (life_of_round_eq ?_)
    rw [hRound]
    rfl
  | @taken index outcome op outcomes hRound hCall =>
    by_cases hOwn : index = sourceIndex
    · subst hOwn
      rw [life_of_round (.calling index outcome op outcomes), PollRound.turn, if_pos rfl]
      refine .taken ?_ hCall
      simp [AtlasState.life, hRound, PollRound.turn, waitingTurn_cons_self]
    · refine .unchanged (by simpa [AtlasEvent.source] using hOwn) (life_of_round_eq ?_)
      rw [hRound]
      simp [PollRound.turn, hOwn, waitingTurn_cons_ne hOwn]
  | @logged index outcome outcomes hRound hCall =>
    rw [hRound] at hOrder
    by_cases hOwn : index = sourceIndex
    · subst hOwn
      rw [life_of_round (.publishing outcomes), PollRound.turn, taken_away hOrder]
      refine .logged ?_ hCall
      simp [AtlasState.life, hRound, PollRound.turn, waitingTurn_cons_self]
    · refine .unchanged (by simpa [AtlasEvent.source] using hOwn) (life_of_round_eq ?_)
      rw [hRound]
      simp [PollRound.turn, waitingTurn_cons_ne hOwn]
  | @acted index outcome op op' outcomes picked task published commit hRound hPicked hStep =>
    by_cases hOwn : index = sourceIndex
    · subst hOwn
      obtain rfl : picked = source := by simpa [hSource] using hPicked.symm
      have hLife : AtlasState.life { world.setPublished index published with
          round := .calling index outcome op' outcomes } index = { world.life index with
            published, turn := .calling outcome op' } := by
        simp [AtlasState.life, AtlasState.setPublished, AtlasState.setSource, PollRound.turn]
      rw [hLife]
      refine .outcomeActed ?_ hStep
      simp [AtlasState.life, hRound, PollRound.turn]
    · refine .unchanged (by simpa [AtlasEvent.source] using hOwn)
        (life_congr ?_ Iff.rfl Iff.rfl ?_ rfl)
      · simp [AtlasState.setPublished, AtlasState.setSource, Function.update_of_ne (Ne.symm hOwn)]
      · rw [hRound]
        simp [PollRound.turn, hOwn]
  | @settled index outcome result outcomes hRound =>
    rw [hRound] at hOrder
    by_cases hOwn : index = sourceIndex
    · subst hOwn
      have hTurn : (afterCall index outcomes result).turn index = turnAfterCall result := by
        cases result with
        | published committed =>
          cases committed with
          | true => simp [afterCall, turnAfterCall, PollRound.turn]
          | false => exact taken_away hOrder
        | done | err => exact taken_away hOrder
      rw [life_of_round (afterCall index outcomes result), hTurn]
      refine .settled ?_
      simp [AtlasState.life, hRound, PollRound.turn]
    · refine .unchanged (by simpa [AtlasEvent.source] using hOwn) (life_of_round_eq ?_)
      rw [hRound]
      unfold afterCall
      split <;> simp [PollRound.turn, hOwn]
  | @scheduled index outcomes scheduler hRound hStep =>
    rw [hRound] at hOrder
    cases hStep with
    | insert hConfigured =>
      by_cases hOwn : index = sourceIndex
      · subst hOwn
        have hLife : AtlasState.life { world with
            scheduler := { world.scheduler with
              pending := world.scheduler.pending.insert index
              callers := index :: world.scheduler.callers }
            round := .notifying index outcomes } index = { world.life index with
              pending := true, turn := .away } := by
          simp [AtlasState.life, PollRound.turn, taken_away hOrder]
        rw [hLife]
        refine .scheduled ?_
        simp [AtlasState.life, hRound, PollRound.turn]
      · refine .unchanged (by simpa [AtlasEvent.source] using hOwn)
          (life_congr rfl ?_ Iff.rfl ?_ rfl)
        · rw [BTreeSet.mem_insert_iff]
          exact or_iff_right fun hEqual => hOwn hEqual.symm
        · rw [hRound]
          simp [PollRound.turn, hOwn]
    | loop continues hStep => cases loopStep_effect hStep
  | @notified index outcomes scheduler hRound hStep =>
    cases hStep with
    | notify hCaller =>
      refine .unchanged (by simp [AtlasEvent.source]) (life_congr rfl ?_ ?_ ?_ ?_)
      · unfold Scheduler.notifyOne
        split <;> rfl
      · unfold Scheduler.notifyOne
        split
        · next hWaiting =>
          rw [hWaiting]
          rfl
        · exact Iff.rfl
      · rw [hRound]
        rfl
      · unfold Scheduler.notifyOne
        split
        · next hWaiting =>
          rw [hWaiting]
          rfl
        · rfl
    | loop continues hStep => cases loopStep_effect hStep
  | ended hRound =>
    refine .unchanged (by simp [AtlasEvent.source]) (life_of_round_eq ?_)
    rw [hRound]
    rfl

/-- **Every step of the program** is one of the source's life. -/
theorem life_step {source : AtlasSource} {sourceIndex : Nat} (h : world.Ordered sources)
    (hSource : sources[sourceIndex]? = some source)
    (hStep : AtlasStep sources world event world') :
    LifeStep source sourceIndex (world.life sourceIndex) event (world'.life sourceIndex) := by
  cases hStep with
  | loop hStep => exact life_loopStep hSource hStep
  | round hStep => exact life_roundStep h hSource hStep

/-- **A source of a run lives its own life**, whatever the others do. -/
theorem run_life {source : AtlasSource} {sourceIndex : Nat} {trace : List AtlasEvent}
    (hRun : AtlasRun sources world trace world') (h : world.Ordered sources)
    (hSource : sources[sourceIndex]? = some source) :
    LifeRun source sourceIndex (world.life sourceIndex) trace (world'.life sourceIndex) := by
  induction hRun with
  | refl => exact .refl
  | head hStep hRun ih => exact .head (life_step h hSource hStep) (ih (h.step hStep))

omit [BitcoinCrate] [WireJson] [ResponseEncoder] in
theorem AtlasState.IsStart.ordered (h : world.IsStart sources) : world.Ordered sources where
  scheduled := by
    rw [h.scheduler]
    exact scheduled_start _
  gate hHeld := by
    rw [h.round] at hHeld
    exact hHeld.elim
  round := by
    rw [h.round]
    trivial

/-- A run keeps the order. -/
theorem ordered_run {trace : List AtlasEvent} (h : world.Ordered sources)
    (hRun : AtlasRun sources world trace world') : world'.Ordered sources :=
  hRun.invariant (fun _ _ _ hOrdered hStep => hOrdered.step hStep) h

end Refinement

end MempoolAtlas.Runtime
