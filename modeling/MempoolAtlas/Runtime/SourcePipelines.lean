import MempoolAtlas.Classification.Replacement
import MempoolAtlas.Classification.Soundness
import MempoolAtlas.Runtime.SourceLife

/-!
# The pipelines of the runtime

What the two loops do to the pipeline of one source, its installations and its slices,
is one of the runs the pipeline has by itself: every property of those runs holds of
every source in every run of the runtime.

## Results

* `pipelineReached_run` — every pipeline of the runtime is a run of the pipeline.
* `PipelineReached.sound` — what holds of those runs holds of a source's.
-/

namespace MempoolAtlas.Runtime

open Model Machine Classification Processes

section Runs

variable [BitcoinCrate] [WireJson]

/-- The pipeline of a life is where some run of the pipeline alone left it, which made
the events of `history`; a slice in flight is one of its calls. -/
def PipelineReached (limits : ClassificationLimits) (history : List Event) (life : SourceLife) :
    Prop :=
  ∃ trace calls,
    (Classification.system Nat limits).Run (Processes.initial (.new limits)) trace
      (crew life.pipeline calls) ∧
    trace.filterMap Prod.snd = history ∧
    ∀ expected call, life.stage = .slicing (.classifying expected call) →
      ∃ i : Nat, calls[i]? = some call

variable {limits : ClassificationLimits} {history : List Event} {life : SourceLife}

theorem PipelineReached.congr {life' : SourceLife} (h : PipelineReached limits history life)
    (hPipeline : life'.pipeline = life.pipeline)
    (hStage : ∀ expected call, life'.stage = .slicing (.classifying expected call) →
      life.stage = .slicing (.classifying expected call)) :
    PipelineReached limits history life' := by
  obtain ⟨trace, calls, hRun, hHistory, hCalls⟩ := h
  exact ⟨trace, calls, hPipeline ▸ hRun, hHistory,
    fun expected call hSlicing => hCalls expected call (hStage expected call hSlicing)⟩

/-- A call that begins has made no event yet. -/
theorem PipelineReached.begin {life' : SourceLife} {expected : Option Nat} {call : Call}
    (h : PipelineReached limits history life) (hPipeline : life'.pipeline = life.pipeline)
    (hStage : life'.stage = .slicing (.classifying expected call)) (hStarts : call.IsCall) :
    PipelineReached limits history life' := by
  obtain ⟨trace, calls, hRun, hHistory, -⟩ := h
  refine ⟨trace ++ [(calls.length, none)], calls ++ [call], ?_, ?_, fun _ found hSlicing => ?_⟩
  · rw [hPipeline]
    exact hRun.crew_start hStarts
  · rw [List.filterMap_append, hHistory]
    exact List.append_nil history
  · obtain ⟨-, rfl⟩ := Slice.classifying.inj (Stage.slicing.inj (hStage.symm.trans hSlicing))
    exact ⟨calls.length, List.getElem?_concat_length ..⟩

/-- The next action of the slice in flight. -/
theorem PipelineReached.act {life' : SourceLife} {expected : Option Nat} {call call' : Call}
    {completion : Completion} {event : Option Event} (h : PipelineReached limits history life)
    (hStage : life.stage = .slicing (.classifying expected call))
    (hStep : callStep limits completion life.pipeline call =
      some (life'.pipeline, call', event))
    (hStage' : life'.stage = .slicing (.classifying expected call')) :
    PipelineReached limits (history ++ event.toList) life' := by
  obtain ⟨trace, calls, hRun, hHistory, hCalls⟩ := h
  obtain ⟨i, hCall⟩ := hCalls expected call hStage
  refine ⟨trace ++ [(i, event)], calls.set i call', hRun.crew_act hCall ⟨completion, hStep⟩, ?_,
    fun _ found hSlicing => ⟨i, ?_⟩⟩
  · rw [List.filterMap_append, hHistory]
    cases event <;> rfl
  · obtain ⟨-, rfl⟩ := Slice.classifying.inj (Stage.slicing.inj (hStage'.symm.trans hSlicing))
    have hLt : i < calls.length := (List.getElem?_eq_some_iff.mp hCall).1
    simp [hLt]

/-- An installation that begins and ends while no slice is in flight. -/
theorem PipelineReached.install {life' : SourceLife} {snapshot : MempoolSnapshot} {call' : Call}
    {event : Option Event} (h : PipelineReached limits history life)
    (hInstall : installSnapshot limits life.pipeline snapshot = (life'.pipeline, call', event))
    (hStage : ∀ slice, life'.stage ≠ .slicing slice) :
    PipelineReached limits (history ++ event.toList) life' := by
  obtain ⟨trace, calls, hRun, hHistory, -⟩ := h
  have hBegin := hRun.crew_start (Call.IsCall.installSnapshot snapshot)
  have hAct := hBegin.crew_act (List.getElem?_concat_length ..)
    (show (Classification.system Nat limits).step calls.length life.pipeline _ _ _ _ from
      ⟨⟨0, .joinError⟩, congrArg some hInstall⟩)
  refine ⟨_, _, hAct, ?_, fun expected call hSlicing => absurd hSlicing (hStage _)⟩
  rw [List.filterMap_append, List.filterMap_append, hHistory]
  cases event <;> simp

variable [ResponseEncoder] {source : AtlasSource} {sourceIndex : Nat} {life' : SourceLife}
  {event : AtlasEvent}

/-- **One step of a life** is no step of its pipeline, or one of its calls moving on. -/
theorem PipelineReached.step (h : PipelineReached source.limits history life)
    (hStep : LifeStep source sourceIndex life event life') :
    ∃ later, PipelineReached source.limits (history ++ later) life' := by
  have hKept : ∀ {life'' : SourceLife}, life''.pipeline = life.pipeline →
      (∀ expected call, life''.stage = .slicing (.classifying expected call) →
        life.stage = .slicing (.classifying expected call)) →
      ∃ later, PipelineReached source.limits (history ++ later) life'' :=
    fun hPipeline hStage => ⟨[], by
      rw [List.append_nil]
      exact h.congr hPipeline hStage⟩
  cases hStep with
  | other | drained | pollStarted | failed | taken | logged | outcomeActed | settled | scheduled =>
    exact hKept rfl fun _ _ hSlicing => hSlicing
  | picked | sliceStarted | sliceReturned | classificationActed | finished =>
    exact hKept rfl fun _ _ hSlicing => by cases hSlicing
  | generationRead hStage =>
    refine ⟨[], ?_⟩
    rw [List.append_nil]
    exact h.begin rfl rfl (.classifyNextForGeneration _)
  | classified hStage hCall => exact ⟨_, h.act hStage hCall rfl⟩
  | installed hTurn hStage hInstall => exact ⟨_, h.install hInstall hStage⟩

theorem PipelineReached.run {trace : List AtlasEvent}
    (h : PipelineReached source.limits history life)
    (hRun : LifeRun source sourceIndex life trace life') :
    ∃ later, PipelineReached source.limits (history ++ later) life' := by
  induction hRun generalizing history with
  | refl => exact ⟨[], by rwa [List.append_nil]⟩
  | head hStep _ ih =>
    obtain ⟨first, hFirst⟩ := h.step hStep
    obtain ⟨rest, hRest⟩ := ih hFirst
    exact ⟨first ++ rest, by rwa [← List.append_assoc]⟩

omit [ResponseEncoder] in
theorem pipelineReached_start {sources : List AtlasSource} {world : AtlasState}
    (h : world.IsStart sources) (hSource : sources[sourceIndex]? = some source) :
    PipelineReached source.limits [] (world.life sourceIndex) := by
  refine ⟨[], [], ?_, rfl, fun expected call hSlicing => ?_⟩
  · rw [show (world.life sourceIndex).pipeline = .new source.limits from
      h.pipeline sourceIndex source hSource]
    exact Run.refl
  · unfold AtlasState.life at hSlicing
    rw [h.scheduler] at hSlicing
    cases hSlicing

/-- **Every pipeline of the runtime is a run of the pipeline.** -/
theorem pipelineReached_run {sources : List AtlasSource} {start world : AtlasState}
    {trace : List AtlasEvent} (hStart : start.IsStart sources)
    (hRun : AtlasRun sources start trace world)
    (hSource : sources[sourceIndex]? = some source) :
    ∃ history, PipelineReached source.limits history (world.life sourceIndex) := by
  obtain ⟨later, hLater⟩ := (pipelineReached_start hStart hSource).run
    (run_life hRun hStart.ordered hSource)
  exact ⟨later, hLater⟩

omit [ResponseEncoder] in
/-- What holds of every run of the pipeline holds of a source's. -/
theorem PipelineReached.sound (h : PipelineReached limits history life) :
    PipelineSound limits history life.pipeline ∧ Keyed life.pipeline ∧
      ∀ expected call, life.stage = .slicing (.classifying expected call) →
        CallSound history life.pipeline call := by
  obtain ⟨trace, calls, hRun, rfl, hCalls⟩ := h
  obtain ⟨hPipeline, hSound⟩ := sound_run limits hRun
  refine ⟨hPipeline, (filed_keyed_run hRun).2, fun expected call hSlicing => ?_⟩
  obtain ⟨i, hCall⟩ := hCalls expected call hSlicing
  exact hSound i call hCall

end Runs

end MempoolAtlas.Runtime
