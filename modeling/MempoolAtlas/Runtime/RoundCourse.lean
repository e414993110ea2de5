import MempoolAtlas.Runtime.Rounds
import MempoolAtlas.Runtime.SourceCalls

/-!
# The course of a poll round

One `poll_round`, from its start to its end, whatever the classification loop does in
between: its turns and its settlements go once through the sources in order, and each
source's settlement is of what its own node answered.

## Results

* `round_course` — every source has one turn and one settlement, in order.
* `settled_own` — a source's settlement is of what its own node answered.
-/

namespace MempoolAtlas.Runtime

open Model Machine Classification

-- ---------------------------------------------------------------------------
-- The course of a round
-- ---------------------------------------------------------------------------

/-- The source whose outcome a step collects. -/
def AtlasEvent.collectedSource : AtlasEvent → Option Nat
  | .collected sourceIndex _ => some sourceIndex
  | _ => none

/-- The source whose outcome a step settles. -/
def AtlasEvent.settledSource : AtlasEvent → Option Nat
  | .settled sourceIndex _ _ => some sourceIndex
  | _ => none

/-- The sources whose turns a trace ends, in order. -/
def turns (trace : List AtlasEvent) : List Nat := trace.filterMap AtlasEvent.collectedSource

/-- The sources whose outcomes a trace settles, in order. -/
def settlements (trace : List AtlasEvent) : List Nat := trace.filterMap AtlasEvent.settledSource

/-- How far a round has come that began with `past`. -/
def PollRound.Progress (sources : Nat) (past : List AtlasEvent) : PollRound → Prop
  | .idle => turns past = List.range sources ∧ settlements past = List.range sources
  | .collecting sourceOrder _ => turns past = List.range sourceOrder ∧ settlements past = []
  | .starting sourceOrder _ _ | .polling sourceOrder _ | .installing sourceOrder _ _ =>
    turns past = List.range sourceOrder ∧ settlements past = []
  | .publishing outcomes | .notifying _ outcomes | .scheduling _ outcomes =>
    turns past = List.range sources ∧
      settlements past ++ outcomes.map Prod.fst = List.range sources
  | .calling sourceIndex _ _ outcomes =>
    turns past = List.range sources ∧
      settlements past ++ sourceIndex :: outcomes.map Prod.fst = List.range sources

theorem turns_append (past : List AtlasEvent) (event : AtlasEvent) :
    turns (past ++ [event]) = turns past ++ event.collectedSource.toList := by
  unfold turns
  rw [List.filterMap_append]
  cases hSource : event.collectedSource with
  | none => rw [List.filterMap_cons_none hSource]; rfl
  | some sourceIndex => rw [List.filterMap_cons_some hSource]; rfl

theorem settlements_append (past : List AtlasEvent) (event : AtlasEvent) :
    settlements (past ++ [event]) = settlements past ++ event.settledSource.toList := by
  unfold settlements
  rw [List.filterMap_append]
  cases hSource : event.settledSource with
  | none => rw [List.filterMap_cons_none hSource]; rfl
  | some sourceIndex => rw [List.filterMap_cons_some hSource]; rfl

/-- A source has had its turn just when its outcome was collected. -/
theorem mem_turns {trace : List AtlasEvent} {sourceIndex : Nat} :
    sourceIndex ∈ turns trace ↔ ∃ outcome, .collected sourceIndex outcome ∈ trace := by
  unfold turns
  rw [List.mem_filterMap]
  constructor
  · rintro ⟨event, hMem, hSource⟩
    cases event with
    | collected collected outcome =>
      obtain rfl := Option.some.inj hSource
      exact ⟨outcome, hMem⟩
    | _ => cases hSource
  · rintro ⟨outcome, hMem⟩
    exact ⟨_, hMem, rfl⟩

/-- A source is settled just when its outcome was. -/
theorem mem_settlements {trace : List AtlasEvent} {sourceIndex : Nat} :
    sourceIndex ∈ settlements trace ↔
      ∃ outcome result, .settled sourceIndex outcome result ∈ trace := by
  unfold settlements
  rw [List.mem_filterMap]
  constructor
  · rintro ⟨event, hMem, hSource⟩
    cases event with
    | settled settled outcome result =>
      obtain rfl := Option.some.inj hSource
      exact ⟨outcome, result, hMem⟩
    | _ => cases hSource
  · rintro ⟨outcome, result, hMem⟩
    exact ⟨_, hMem, rfl⟩

section Rounds

variable [BitcoinCrate] [WireJson] [ResponseEncoder] {sources : List AtlasSource}
  {world world' : AtlasState} {event : AtlasEvent}

omit [BitcoinCrate] [WireJson] [ResponseEncoder] in
/-- An event that neither ends a turn nor settles an outcome. -/
theorem PollRound.Progress.quiet {past : List AtlasEvent} {round : PollRound} {count : Nat}
    (h : round.Progress count past) (hTurn : event.collectedSource = none)
    (hSettled : event.settledSource = none) : round.Progress count (past ++ [event]) := by
  have hTurns : turns (past ++ [event]) = turns past := by
    rw [turns_append, hTurn]
    exact List.append_nil _
  have hSettlements : settlements (past ++ [event]) = settlements past := by
    rw [settlements_append, hSettled]
    exact List.append_nil _
  unfold PollRound.Progress at h ⊢
  rw [hTurns, hSettlements]
  exact h

theorem LoopStep.round_eq (hStep : LoopStep sources world event world') :
    world'.round = world.round ∧ event.collectedSource = none ∧ event.settledSource = none := by
  cases hStep with
  | scheduled | sliceStarted | generationRead | classified | sliceReturned | acted | finished =>
    exact ⟨rfl, rfl, rfl⟩

/-- One more action of a round that does not start another. -/
theorem PollRound.Progress.step {past : List AtlasEvent}
    (h : world.round.Progress sources.length past) (hOrdered : world.round.Ordered sources.length)
    (hEvent : event ≠ .roundStarted) (hStep : AtlasStep sources world event world') :
    world'.round.Progress sources.length (past ++ [event]) := by
  cases hStep with
  | loop hStep =>
    obtain ⟨hRound, hTurn, hSettled⟩ := hStep.round_eq
    rw [hRound]
    exact h.quiet hTurn hSettled
  | round hStep =>
    cases hStep with
    | started hRound hGate => exact absurd rfl hEvent
    | clockRead startedAtMs hRound hConfigured =>
      rw [hRound] at h
      exact PollRound.Progress.quiet h rfl rfl
    | @clockFailed sourceOrder outcomes error hRound hConfigured hError =>
      rw [hRound] at h
      exact ⟨by rw [turns_append, h.1, List.range_succ]; rfl, by rw [settlements_append, h.2]; rfl⟩
    | pollStarted hRound =>
      rw [hRound] at h
      exact PollRound.Progress.quiet h rfl rfl
    | polled snapshot hRound =>
      rw [hRound] at h
      exact PollRound.Progress.quiet h rfl rfl
    | pollFailed publicMessage hRound =>
      rw [hRound] at h
      exact ⟨by rw [turns_append, h.1, List.range_succ]; rfl, by rw [settlements_append, h.2]; rfl⟩
    | installed hRound hSource hInstall =>
      rw [hRound] at h
      exact ⟨by rw [turns_append, h.1, List.range_succ]; rfl, by rw [settlements_append, h.2]; rfl⟩
    | @gateReleased outcomes hRound =>
      rw [hRound] at h hOrdered
      refine PollRound.Progress.quiet ?_ rfl rfl
      exact ⟨h.1, by rw [h.2, hOrdered.2]; rfl⟩
    | taken hRound hCall =>
      rw [hRound] at h
      exact PollRound.Progress.quiet h rfl rfl
    | @logged sourceIndex outcome outcomes hRound hCall =>
      rw [hRound] at h
      exact ⟨by rw [turns_append, h.1]; exact List.append_nil _, by
        rw [settlements_append, ← h.2]; simp [AtlasEvent.settledSource]⟩
    | acted hRound hSource hStep =>
      rw [hRound] at h
      exact PollRound.Progress.quiet h rfl rfl
    | @settled sourceIndex outcome result outcomes hRound =>
      rw [hRound] at h
      have hAfter : turns (past ++ [.settled sourceIndex outcome (some result)]) =
            List.range sources.length ∧
          settlements (past ++ [.settled sourceIndex outcome (some result)]) ++
            outcomes.map Prod.fst = List.range sources.length :=
        ⟨by rw [turns_append, h.1]; exact List.append_nil _, by
          rw [settlements_append, ← h.2]; simp [AtlasEvent.settledSource]⟩
      unfold afterCall
      split <;> exact hAfter
    | scheduled hRound hStep =>
      rw [hRound] at h
      exact PollRound.Progress.quiet h rfl rfl
    | notified hRound hStep =>
      rw [hRound] at h
      exact PollRound.Progress.quiet h rfl rfl
    | ended hRound =>
      rw [hRound] at h
      refine PollRound.Progress.quiet ⟨h.1, ?_⟩ rfl rfl
      rw [← h.2]
      exact (List.append_nil _).symm

/-- **The course of a complete round**: every source has one turn and one settlement,
in configured order. -/
theorem round_course {trace : List AtlasEvent} (hOrdered : world.Ordered sources)
    (hRun : AtlasRun sources world (.roundStarted :: trace) world')
    (hOne : AtlasEvent.roundStarted ∉ trace) (hEnd : world'.round = .idle) :
    turns trace = List.range sources.length ∧ settlements trace = List.range sources.length := by
  cases hRun with
  | @head _ mid _ _ _ hStep hRun =>
    have hFirst : mid.round.Progress sources.length [] ∧ mid.Ordered sources := by
      refine ⟨?_, hOrdered.step hStep⟩
      cases hStep with
      | loop hStep => cases hStep
      | round hStep =>
        cases hStep with
        | started hRound hGate => exact ⟨rfl, rfl⟩
    have hLast := hRun.history (fun event => event ≠ .roundStarted)
      (fun past world => world.round.Progress sources.length past ∧ world.Ordered sources)
      (fun past s e s' hEvent hInv hStep =>
        ⟨hInv.1.step hInv.2.round hEvent hStep, hInv.2.step hStep⟩)
      (fun event hMem hEqual => hOne (hEqual ▸ hMem)) hFirst
    have hProgress := hLast.1
    rw [hEnd] at hProgress
    exact hProgress

end Rounds

-- ---------------------------------------------------------------------------
-- Whose outcomes a round settles
-- ---------------------------------------------------------------------------

/-- Every publication among the outcomes is of what its own source's node answered. -/
def Answered (past : List AtlasEvent) (outcomes : List (Nat × Outcome)) : Prop :=
  ∀ pair ∈ outcomes, ∀ publication, pair.2 = .ok publication →
    .answered pair.1 publication.membership ∈ past

/-- Every outcome in hand was collected. -/
def PollRound.Sourced (past : List AtlasEvent) : PollRound → Prop
  | .idle => True
  | .collecting _ outcomes | .starting _ _ outcomes | .polling _ outcomes | .publishing outcomes
  | .scheduling _ outcomes | .notifying _ outcomes => Answered past outcomes
  | .installing sourceOrder snapshot outcomes =>
    .answered sourceOrder snapshot ∈ past ∧ Answered past outcomes
  | .calling sourceIndex outcome _ outcomes => Answered past ((sourceIndex, outcome) :: outcomes)

theorem Answered.mono {past : List AtlasEvent} {outcomes : List (Nat × Outcome)}
    (h : Answered past outcomes) (event : AtlasEvent) : Answered (past ++ [event]) outcomes :=
  fun pair hMem publication hOk => List.mem_append_left _ (h pair hMem publication hOk)

theorem Answered.append {past : List AtlasEvent} {outcomes : List (Nat × Outcome)}
    (h : Answered past outcomes) {sourceIndex : Nat} {outcome : Outcome}
    (hOutcome : ∀ publication, outcome = .ok publication →
      .answered sourceIndex publication.membership ∈ past) :
    Answered past (outcomes ++ [(sourceIndex, outcome)]) := by
  intro pair hMem publication hOk
  rcases List.mem_append.mp hMem with hEarlier | hLast
  · exact h pair hEarlier publication hOk
  · obtain rfl := List.mem_singleton.mp hLast
    exact hOutcome publication hOk

theorem PollRound.Sourced.mono {past : List AtlasEvent} {round : PollRound}
    (h : round.Sourced past) (event : AtlasEvent) : round.Sourced (past ++ [event]) := by
  cases round with
  | idle => trivial
  | installing => exact ⟨List.mem_append_left _ h.1, h.2.mono event⟩
  | collecting | starting | polling | publishing | scheduling | notifying | calling =>
    exact Answered.mono h event

section Sourcing

variable [BitcoinCrate] [WireJson] [ResponseEncoder] {sources : List AtlasSource}
  {world world' : AtlasState} {event : AtlasEvent}

omit [BitcoinCrate] [WireJson] [ResponseEncoder] in
theorem Answered.tail {past : List AtlasEvent} {pair : Nat × Outcome}
    {outcomes : List (Nat × Outcome)} (h : Answered past (pair :: outcomes)) :
    Answered past outcomes :=
  fun other hMem => h other (List.mem_cons_of_mem pair hMem)

/-- One step keeps the outcomes collected. -/
theorem PollRound.Sourced.step {past : List AtlasEvent} (h : world.round.Sourced past)
    (hStep : AtlasStep sources world event world') :
    world'.round.Sourced (past ++ [event]) ∧
      ∀ sourceIndex publication result, event = .settled sourceIndex (.ok publication) result →
        .answered sourceIndex publication.membership ∈ past := by
  cases hStep with
  | loop hStep =>
    obtain ⟨hRound, -, hSettled⟩ := hStep.round_eq
    refine ⟨by rw [hRound]; exact h.mono event, ?_⟩
    rintro sourceIndex publication result rfl
    cases hSettled
  | round hStep =>
    cases hStep with
    | started hRound hGate => exact ⟨fun pair hMem => absurd hMem List.not_mem_nil, by simp⟩
    | clockRead startedAtMs hRound hConfigured =>
      rw [hRound] at h
      exact ⟨Answered.mono h _, by simp⟩
    | clockFailed hRound hConfigured hError =>
      rw [hRound] at h
      exact ⟨(Answered.append h fun _ hOk => by cases hOk).mono _, by simp⟩
    | pollStarted hRound =>
      rw [hRound] at h
      exact ⟨Answered.mono h _, by simp⟩
    | polled snapshot hRound =>
      rw [hRound] at h
      exact ⟨⟨List.mem_append_right _ List.mem_cons_self, Answered.mono h _⟩, by simp⟩
    | pollFailed publicMessage hRound =>
      rw [hRound] at h
      exact ⟨(Answered.append h fun _ hOk => by cases hOk).mono _, by simp⟩
    | @installed sourceOrder snapshot outcomes source pipeline event result hRound hSource
        hInstall =>
      rw [hRound] at h
      refine ⟨(h.2.append fun publication hOk => ?_).mono _, by simp⟩
      cases installation_of_eq hInstall with
      | failed error => cases hOk
      | installed hVariants hId =>
        obtain rfl := Except.ok.inj hOk
        exact h.1
    | gateReleased hRound =>
      rw [hRound] at h
      exact ⟨Answered.mono h _, by simp⟩
    | taken hRound hCall =>
      rw [hRound] at h
      exact ⟨Answered.mono h _, by simp⟩
    | @logged sourceIndex outcome outcomes hRound hCall =>
      rw [hRound] at h
      refine ⟨Answered.mono (Answered.tail h) _, ?_⟩
      rintro _ publication result hEqual
      obtain ⟨rfl, rfl, -⟩ := AtlasEvent.settled.inj hEqual
      exact h _ List.mem_cons_self publication rfl
    | acted hRound hSource hStep =>
      rw [hRound] at h
      exact ⟨Answered.mono h _, by simp⟩
    | @settled sourceIndex outcome result outcomes hRound =>
      rw [hRound] at h
      refine ⟨?_, ?_⟩
      · have hRest := Answered.mono (Answered.tail h) (.settled sourceIndex outcome (some result))
        unfold afterCall
        split <;> exact hRest
      · rintro _ publication returned hEqual
        obtain ⟨rfl, rfl, -⟩ := AtlasEvent.settled.inj hEqual
        exact h _ List.mem_cons_self publication rfl
    | scheduled hRound hStep =>
      rw [hRound] at h
      exact ⟨Answered.mono h _, by simp⟩
    | notified hRound hStep =>
      rw [hRound] at h
      exact ⟨Answered.mono h _, by simp⟩
    | ended hRound => exact ⟨trivial, by simp⟩

/-- A source's publication is of what its own node answered in the round. -/
theorem settled_own {trace : List AtlasEvent}
    (hRun : AtlasRun sources world (.roundStarted :: trace) world') {sourceIndex : Nat}
    {publication : ClassificationGenerationStart} {result : Option Return}
    (hSettled : .settled sourceIndex (.ok publication) result ∈ trace) :
    .answered sourceIndex publication.membership ∈ trace := by
  cases hRun with
  | @head _ mid _ _ _ hStep hRun =>
    have hFirst : mid.round.Sourced [] := by
      cases hStep with
      | loop hStep => cases hStep
      | round hStep =>
        cases hStep with
        | started hRound hGate => exact fun pair hMem => by cases hMem
    obtain ⟨before, after, rfl⟩ := List.append_of_mem hSettled
    obtain ⟨left, right, hBefore, hSettle, -⟩ := hRun.split_at
    have hSourced := hBefore.history (fun _ => True)
      (fun past world => world.round.Sourced past)
      (fun past s e s' _ hInv hStep => (hInv.step hStep).1) (fun _ _ => trivial) hFirst
    exact List.mem_append_left _ ((hSourced.step hSettle).2 sourceIndex publication result rfl)

/-- An event leaves every source alone but its own. -/
theorem sources_of_other (hStep : AtlasStep sources world event world') {sourceIndex : Nat}
    (hOther : event.source ≠ some sourceIndex) :
    world'.sources sourceIndex = world.sources sourceIndex := by
  have hUpdate : ∀ {changed : Nat} (source : SourceState), some changed ≠ some sourceIndex →
      Function.update world.sources changed source sourceIndex = world.sources sourceIndex :=
    fun source hNe => Function.update_of_ne (fun hEqual => hNe (congrArg some hEqual.symm)) _ _
  cases hStep with
  | loop hStep =>
    cases hStep with
    | classified | acted => exact hUpdate _ hOther
    | scheduled | sliceStarted | generationRead | sliceReturned | finished => rfl
  | round hStep =>
    cases hStep with
    | pollStarted | installed | acted => exact hUpdate _ hOther
    | started | clockRead | clockFailed | polled | pollFailed | gateReleased | taken | logged
    | settled | scheduled | notified | ended => rfl

end Sourcing

end MempoolAtlas.Runtime
