import MempoolAtlas.Classification.Reference
import MempoolAtlas.Runtime.RoundCourse

/-!
# What a poll round reports

What one source shows after `poll_round` is what its settlement says. Only an RPC
error reaches `record_failure`: a source whose poll failed otherwise, or whose
publication failed, keeps the error it had.

## Results

* `InHand.run`, `Settled.run` — a source keeps its outcome until it settles, and stays settled.
* `poll_round_reports` — what every source shows after a round, exactly when its failures are
  recorded.
* `poll_round_silent_clock` — a failure the round only logs.
-/

namespace MempoolAtlas.Runtime

open Model Machine Classification

-- ---------------------------------------------------------------------------
-- One source in a round
-- ---------------------------------------------------------------------------

/-- What a settlement says of the state a source shows, which was `before` when the
round took it up. -/
def Reported (before : CurrentState) (outcome : Outcome) (result : Option Return)
    (after : CurrentState) : Prop :=
  match outcome, result with
  | .ok publication, some (.published true) =>
    after.lastError = none ∧ after.latest.isSome ∧
      after.membership = some publication.membership ∧
      after.classificationGeneration = some publication.generation
  | .ok _, some (.err _) => after.lastError = before.lastError
  | .error (.rpc publicMessage), some .done => after.lastError = some publicMessage
  | .error (.rpc _), some (.err _) => after.lastError = before.lastError
  | .error .invalidSystemClock, none | .error .systemTimeOverflow, none
  | .error (.classification _), none => after.lastError = before.lastError
  | _, _ => False

/-- The settlements of a source that failed. -/
def IsFailure : Outcome → Option Return → Prop
  | .ok _, some (.published _) => False
  | _, _ => True

theorem Reported.sameStatus {before after after' : CurrentState} {outcome : Outcome}
    {result : Option Return} (h : Reported before outcome result after)
    (hSame : SameStatus after after') : Reported before outcome result after' := by
  unfold Reported at h ⊢
  split at h
  · exact ⟨hSame.lastError.trans h.1, hSame.latest h.2.1, hSame.membership.trans h.2.2.1,
      hSame.generation.trans h.2.2.2⟩
  all_goals first | exact hSame.lastError.trans h | exact h

section Lives

variable [BitcoinCrate] [WireJson] [ResponseEncoder] {source : AtlasSource} {sourceIndex : Nat}
  {life life' : SourceLife} {event : AtlasEvent} {before : CurrentState} {outcome : Outcome}
  {clean : Prop}

/-- What an action of a life does to the published state, but for the calls of the
round. -/
theorem status_step (hAttended : Attended life)
    (hStep : LifeStep source sourceIndex life event life')
    (hOther : ∀ commit, event ≠ .outcomeActed sourceIndex commit) :
    SameStatus life.published life'.published ∧
      ((∀ commit, event ≠ .classificationActed sourceIndex (some commit)) →
        Retained life.published life'.published) := by
  cases hStep with
  | other | drained | picked | sliceStarted | generationRead | classified | sliceReturned
  | finished | failed | installed | taken | logged | settled | scheduled =>
    exact ⟨.refl _, fun _ => .refl _⟩
  | pollStarted startedAtMs => exact ⟨⟨rfl, rfl, rfl, id⟩, fun _ => ⟨rfl, rfl, rfl, rfl, rfl, rfl⟩⟩
  | @classificationActed continues op op' task published commit hStage hOp =>
    have hStageAttended := hAttended.stage
    rw [hStage] at hStageAttended
    rcases hStageAttended with ⟨generation, delta, classificationState, hUpdates⟩ | ⟨result, rfl⟩
    · have hUpdating := updates_step hUpdates hOp
      refine ⟨hUpdating.sameStatus, fun hNone => ?_⟩
      cases commit with
      | none =>
        rw [hUpdating.of_no_commit]
        exact .refl _
      | some commit => exact absurd rfl (hNone commit)
    · exact (not_returned_of_step hOp).elim
  | @outcomeActed _ _ _ _ _ commit hTurn hOp => exact absurd rfl (hOther commit)

/-- Before its turn ends, a round leaves a source alone. -/
theorem away_step (hAway : life.turn = .away) (hAttended : Attended life)
    (hStep : LifeStep source sourceIndex life event life')
    (hNone : ∀ outcome, event ≠ .collected sourceIndex outcome) :
    life'.turn = .away ∧ SameStatus life.published life'.published ∧
      ((∀ commit, event ≠ .classificationActed sourceIndex (some commit)) →
        Retained life.published life'.published) := by
  have hTurn : life'.turn = .away ∧ ∀ commit, event ≠ .outcomeActed sourceIndex commit := by
    cases hStep with
    | other hOther =>
      refine ⟨hAway, ?_⟩
      rintro commit rfl
      exact hOther rfl
    | drained | picked | sliceStarted | generationRead | classified | sliceReturned
    | classificationActed | finished | pollStarted => exact ⟨hAway, by simp⟩
    | failed error => exact absurd rfl (hNone _)
    | installed => exact absurd rfl (hNone _)
    | taken hTurn | logged hTurn | outcomeActed hTurn | settled hTurn | scheduled hTurn =>
      rw [hAway] at hTurn
      cases hTurn
  exact ⟨hTurn.1, status_step hAttended hStep hTurn.2⟩

omit [BitcoinCrate] [WireJson] [ResponseEncoder] in
/-- A failure leaves its error. -/
theorem IsFailure.lastError_eq {after : CurrentState} {result : Option Return}
    (h : Reported before outcome result after) (hFailure : IsFailure outcome result) :
    after.lastError = before.lastError ∨
      ∃ publicMessage, outcome = .error (.rpc publicMessage) ∧ result = some .done := by
  unfold Reported at h
  split at h
  · exact hFailure.elim
  · exact Or.inl h
  · exact Or.inr ⟨_, rfl, rfl⟩
  · exact Or.inl h
  · exact Or.inl h
  · exact Or.inl h
  · exact Or.inl h
  · exact h.elim

omit [BitcoinCrate] [WireJson] [ResponseEncoder] in
/-- An outcome that is reported failed or was published. -/
theorem Reported.failure_or_published {after : CurrentState} {result : Option Return}
    (h : Reported before outcome result after) : IsFailure outcome result ∨
      ∃ publication, outcome = .ok publication ∧ result = some (.published true) := by
  unfold Reported at h
  split at h
  · exact Or.inr ⟨_, rfl, rfl⟩
  · exact Or.inl trivial
  · exact Or.inl trivial
  · exact Or.inl trivial
  · exact Or.inl trivial
  · exact Or.inl trivial
  · exact Or.inl trivial
  · exact h.elim

/-- What a round has left alone since it took a source up. -/
def Undisturbed (clean : Prop) (before after : CurrentState) : Prop :=
  after.lastError = before.lastError ∧ (clean → Retained before after)

/-- Between the end of a source's turn and its settlement. -/
inductive InHand (before : CurrentState) (outcome : Outcome) (clean : Prop) (life : SourceLife) :
    Prop
  | waiting (hTurn : life.turn = .waiting outcome)
      (hUntouched : Undisturbed clean before life.published)
  | calling (op : Op) (hTurn : life.turn = .calling outcome op) (hCalls : outcome.Calls op)
      (hUntouched : Undisturbed clean before life.published)
  | returned (result : Return) (hTurn : life.turn = .calling outcome (.returned result))
      (hReported : Reported before outcome (some result) life.published)
      (hRetained : clean → IsFailure outcome (some result) → Retained before life.published)

omit [BitcoinCrate] [WireJson] [ResponseEncoder] in
/-- What the loop does in between. -/
theorem InHand.same (h : InHand before outcome clean life) (hTurn : life'.turn = life.turn)
    (hStatus : SameStatus life.published life'.published)
    (hRetained : clean → Retained life.published life'.published) :
    InHand before outcome clean life' := by
  have hUntouched : Undisturbed clean before life.published →
      Undisturbed clean before life'.published := fun hBefore =>
    ⟨hStatus.lastError.trans hBefore.1, fun hClean => (hBefore.2 hClean).trans (hRetained hClean)⟩
  cases h with
  | waiting hWas hBefore => exact .waiting (hTurn.trans hWas) (hUntouched hBefore)
  | calling op hWas hCalls hBefore => exact .calling op (hTurn.trans hWas) hCalls (hUntouched hBefore)
  | returned result hWas hReported hKept =>
    exact .returned result (hTurn.trans hWas) (hReported.sameStatus hStatus)
      fun hClean hFailure => (hKept hClean hFailure).trans (hRetained hClean)

omit [BitcoinCrate] [WireJson] [ResponseEncoder] in
/-- One action of the call for an outcome. -/
theorem InHand.acted {publisher : CurrentStatePublisher} {published : CurrentState} {op' : Op}
    (hCalls : ∃ op, outcome.Calls op) (hUntouched : Undisturbed clean before life.published)
    (hEffect : OutcomeEffect publisher outcome life.published published op') :
    InHand before outcome clean { life with published, turn := .calling outcome op' } := by
  cases hEffect with
  | goes hOp => exact .calling op' rfl hOp hUntouched
  | failed error =>
    obtain ⟨op, hCalls⟩ := hCalls
    refine .returned (.err error) rfl ?_ fun hClean _ => hUntouched.2 hClean
    cases outcome with
    | ok publication => exact hUntouched.1
    | error pollError =>
      cases pollError with
      | rpc publicMessage => exact hUntouched.1
      | _ => exact hCalls.elim
  | published prepared body hOutcome =>
    subst hOutcome
    exact .returned _ rfl ⟨rfl, rfl, rfl, rfl⟩ fun _ hFailure => hFailure.elim
  | recorded body hOutcome =>
    subst hOutcome
    refine .returned _ rfl rfl fun hClean _ => (hUntouched.2 hClean).trans ?_
    exact ⟨rfl, rfl, rfl, rfl, rfl, rfl⟩

/-- One step of a source whose outcome is in hand. -/
theorem InHand.step (h : InHand before outcome clean life) (hAttended : Attended life)
    (hStep : LifeStep source sourceIndex life event life')
    (hOpen : ∀ settled result, event ≠ .settled sourceIndex settled result)
    (hClean : clean → ∀ commit, event ≠ .classificationActed sourceIndex (some commit)) :
    InHand before outcome clean life' := by
  have hLoop : (∀ commit, event ≠ .outcomeActed sourceIndex commit) → life'.turn = life.turn →
      InHand before outcome clean life' := by
    intro hOther hTurn
    obtain ⟨hStatus, hRetained⟩ := status_step hAttended hStep hOther
    exact h.same hTurn hStatus fun hIs => hRetained (hClean hIs)
  cases hStep with
  | other hOther =>
    refine hLoop ?_ rfl
    rintro commit rfl
    exact hOther rfl
  | drained | picked | sliceStarted | generationRead | classified | sliceReturned
  | classificationActed | finished | pollStarted => exact hLoop (by simp) rfl
  | failed error hTurn =>
    cases h with
    | waiting hWas | calling _ hWas | returned _ hWas =>
      rw [hTurn] at hWas
      cases hWas
  | installed hTurn =>
    cases h with
    | waiting hWas | calling _ hWas | returned _ hWas =>
      rw [hTurn] at hWas
      cases hWas
  | scheduled hTurn =>
    cases h with
    | waiting hWas | calling _ hWas | returned _ hWas =>
      rw [hTurn] at hWas
      cases hWas
  | @taken held op hTurn hCall =>
    cases h with
    | waiting hWas hUntouched =>
      rw [hTurn] at hWas
      obtain rfl := Turn.waiting.inj hWas
      exact .calling op rfl (held.calls_of_call hCall) hUntouched
    | calling _ hWas | returned _ hWas =>
      rw [hTurn] at hWas
      cases hWas
  | @outcomeActed called op op' task published commit hTurn hOp =>
    cases h with
    | waiting hWas =>
      rw [hTurn] at hWas
      cases hWas
    | calling inFlight hWas hCalls hUntouched =>
      rw [hTurn] at hWas
      obtain ⟨rfl, rfl⟩ := Turn.calling.inj hWas
      have hHeld := hAttended.held
      rw [hTurn] at hHeld
      refine InHand.acted ⟨op, hCalls⟩ hUntouched (outcome_step hCalls ?_ hOp)
      rintro publication rfl
      exact (hHeld publication ⟨rfl, hCalls⟩).2
    | returned result hWas =>
      rw [hTurn] at hWas
      obtain ⟨rfl, rfl⟩ := Turn.calling.inj hWas
      exact (not_returned_of_step hOp).elim
  | logged => exact absurd rfl (hOpen _ _)
  | settled => exact absurd rfl (hOpen _ _)

/-- From its settlement a round leaves a source alone. -/
structure Settled (before : CurrentState) (outcome : Outcome) (result : Option Return)
    (clean : Prop) (life : SourceLife) : Prop where
  turn : life.turn = .away ∨ life.turn = .scheduling
  reported : Reported before outcome result life.published
  retained : clean → IsFailure outcome result → Retained before life.published

omit [BitcoinCrate] [WireJson] [ResponseEncoder] in
theorem not_calls_returned {result : Return} (h : outcome.Calls (.returned result)) : False := by
  unfold Outcome.Calls at h
  split at h <;> exact h

/-- Settling reports the outcome. -/
theorem InHand.settle (h : InHand before outcome clean life) {settled : Outcome}
    {result : Option Return}
    (hStep : LifeStep source sourceIndex life (.settled sourceIndex settled result) life') :
    settled = outcome ∧ Settled before outcome result clean life' ∧
      (result = some (.published true) → life'.turn = .scheduling) := by
  cases hStep with
  | other hOther => exact absurd rfl hOther
  | @logged _ hTurn hCall =>
    cases h with
    | waiting hWas hUntouched =>
      rw [hTurn] at hWas
      obtain rfl := Turn.waiting.inj hWas
      refine ⟨rfl, ⟨Or.inl rfl, ?_, fun hClean _ => hUntouched.2 hClean⟩, fun h => by cases h⟩
      cases settled with
      | ok publication => cases hCall
      | error error =>
        cases error with
        | rpc publicMessage => cases hCall
        | _ => exact hUntouched.1
    | calling _ hWas | returned _ hWas =>
      rw [hTurn] at hWas
      cases hWas
  | @settled _ returned hTurn =>
    cases h with
    | waiting hWas =>
      rw [hTurn] at hWas
      cases hWas
    | calling op hWas hCalls =>
      rw [hTurn] at hWas
      obtain ⟨rfl, rfl⟩ := Turn.calling.inj hWas
      exact (not_calls_returned hCalls).elim
    | returned result hWas hReported hRetained =>
      rw [hTurn] at hWas
      obtain ⟨rfl, hResult⟩ := Turn.calling.inj hWas
      obtain rfl := Op.returned.inj hResult
      refine ⟨rfl, ⟨?_, hReported, hRetained⟩, ?_⟩
      · unfold turnAfterCall
        split
        · exact Or.inr rfl
        · exact Or.inl rfl
      · intro hSuccess
        obtain rfl := Option.some.inj hSuccess
        rfl

/-- One step of a source whose outcome is settled. -/
theorem Settled.step {result : Option Return} (h : Settled before outcome result clean life)
    (hAttended : Attended life) (hStep : LifeStep source sourceIndex life event life')
    (hNone : ∀ outcome, event ≠ .collected sourceIndex outcome)
    (hClean : clean → ∀ commit, event ≠ .classificationActed sourceIndex (some commit)) :
    Settled before outcome result clean life' := by
  have hTurn : (life'.turn = .away ∨ life'.turn = .scheduling) ∧
      ∀ commit, event ≠ .outcomeActed sourceIndex commit := by
    cases hStep with
    | other hOther =>
      refine ⟨h.turn, ?_⟩
      rintro commit rfl
      exact hOther rfl
    | drained | picked | sliceStarted | generationRead | classified | sliceReturned
    | classificationActed | finished | pollStarted => exact ⟨h.turn, by simp⟩
    | failed error => exact absurd rfl (hNone _)
    | installed => exact absurd rfl (hNone _)
    | taken hTurn | logged hTurn | outcomeActed hTurn | settled hTurn =>
      have hWas := h.turn
      rw [hTurn] at hWas
      rcases hWas with hWas | hWas <;> cases hWas
    | scheduled hTurn => exact ⟨Or.inl rfl, by simp⟩
  obtain ⟨hStatus, hRetained⟩ := status_step hAttended hStep hTurn.2
  exact ⟨hTurn.1, h.reported.sameStatus hStatus, fun hIs hFailure =>
    (h.retained hIs hFailure).trans (hRetained (hClean hIs))⟩

/-- A source that is to be scheduled leaves that point by being scheduled. -/
theorem scheduling_run {trace : List AtlasEvent} (hTurn : life.turn = .scheduling)
    (hRun : LifeRun source sourceIndex life trace life') :
    life'.turn = .scheduling ∨ .scheduling (.scheduled sourceIndex) ∈ trace := by
  induction hRun with
  | refl => exact Or.inl hTurn
  | head hStep hRun ih =>
    cases hStep with
    | scheduled => exact Or.inr List.mem_cons_self
    | failed _ hWas | installed hWas | taken hWas | logged hWas | outcomeActed hWas
    | settled hWas =>
      rw [hTurn] at hWas
      cases hWas
    | other | drained | picked | sliceStarted | generationRead | classified | sliceReturned
    | classificationActed | finished | pollStarted =>
      exact (ih hTurn).imp_right (List.mem_cons_of_mem _)

/-- A source that is away stays away until its turn. -/
theorem away_run {trace : List AtlasEvent} (hRun : LifeRun source sourceIndex life trace life')
    (hAttended : Attended life) (hAway : life.turn = .away)
    (hNone : sourceIndex ∉ turns trace)
    (hClean : clean → ∀ commit, .classificationActed sourceIndex (some commit) ∉ trace) :
    life'.turn = .away ∧ Undisturbed clean life.published life'.published := by
  induction hRun with
  | refl => exact ⟨hAway, rfl, fun _ => .refl _⟩
  | @head life mid last event trace hStep hRun ih =>
    have hOther : ∀ outcome, event ≠ .collected sourceIndex outcome := by
      rintro outcome rfl
      exact hNone (mem_turns.mpr ⟨outcome, List.mem_cons_self⟩)
    obtain ⟨hTurn, hStatus, hRetained⟩ := away_step hAway hAttended hStep hOther
    have hRest : sourceIndex ∉ turns trace := by
      intro hMem
      obtain ⟨outcome, hMem⟩ := mem_turns.mp hMem
      exact hNone (mem_turns.mpr ⟨outcome, List.mem_cons_of_mem event hMem⟩)
    obtain ⟨hLast, hError, hKept⟩ := ih (hAttended.step hStep) hTurn hRest
      fun hIs commit hMem => hClean hIs commit (List.mem_cons_of_mem event hMem)
    refine ⟨hLast, hError.trans hStatus.lastError, fun hIs => ?_⟩
    refine (hRetained ?_).trans (hKept hIs)
    rintro commit rfl
    exact hClean hIs commit List.mem_cons_self

/-- A source whose outcome is in hand keeps it until it settles. -/
theorem InHand.run {trace : List AtlasEvent} (h : InHand before outcome clean life)
    (hRun : LifeRun source sourceIndex life trace life') (hAttended : Attended life)
    (hOpen : sourceIndex ∉ settlements trace)
    (hClean : clean → ∀ commit, .classificationActed sourceIndex (some commit) ∉ trace) :
    InHand before outcome clean life' := by
  induction hRun with
  | refl => exact h
  | @head life mid last event trace hStep hRun ih =>
    have hNext : InHand before outcome clean mid := by
      refine h.step hAttended hStep ?_ ?_
      · rintro settled result rfl
        exact hOpen (mem_settlements.mpr ⟨settled, result, List.mem_cons_self⟩)
      · rintro hIs commit rfl
        exact hClean hIs commit List.mem_cons_self
    refine ih hNext (hAttended.step hStep) (fun hMem => hOpen ?_) fun hIs commit hMem =>
      hClean hIs commit (List.mem_cons_of_mem event hMem)
    obtain ⟨settled, result, hMem⟩ := mem_settlements.mp hMem
    exact mem_settlements.mpr ⟨settled, result, List.mem_cons_of_mem event hMem⟩

/-- A settled source stays settled. -/
theorem Settled.run {trace : List AtlasEvent} {result : Option Return}
    (h : Settled before outcome result clean life)
    (hRun : LifeRun source sourceIndex life trace life') (hAttended : Attended life)
    (hNone : sourceIndex ∉ turns trace)
    (hClean : clean → ∀ commit, .classificationActed sourceIndex (some commit) ∉ trace) :
    Settled before outcome result clean life' := by
  induction hRun with
  | refl => exact h
  | @head life mid last event trace hStep hRun ih =>
    have hNext : Settled before outcome result clean mid := by
      refine h.step hAttended hStep ?_ ?_
      · rintro collected rfl
        exact hNone (mem_turns.mpr ⟨collected, List.mem_cons_self⟩)
      · rintro hIs commit rfl
        exact hClean hIs commit List.mem_cons_self
    refine ih hNext (hAttended.step hStep) (fun hMem => hNone ?_) fun hIs commit hMem =>
      hClean hIs commit (List.mem_cons_of_mem event hMem)
    obtain ⟨collected, hMem⟩ := mem_turns.mp hMem
    exact mem_turns.mpr ⟨collected, List.mem_cons_of_mem event hMem⟩

/-- The end of a source's turn. -/
theorem inHand_of_collected (hUntouched : Undisturbed clean before life.published)
    (hStep : LifeStep source sourceIndex life (.collected sourceIndex outcome) life') :
    InHand before outcome clean life' := by
  cases hStep with
  | other hOther => exact absurd rfl hOther
  | failed error hTurn => exact .waiting rfl hUntouched
  | installed hTurn hStage hInstall => exact .waiting rfl hUntouched

omit [BitcoinCrate] [WireJson] [ResponseEncoder] in
theorem turns_split {first rest : List AtlasEvent} {collected : Outcome}
    (h : (turns (first ++ .collected sourceIndex collected :: rest)).Nodup) :
    sourceIndex ∉ turns first ∧ sourceIndex ∉ turns rest := by
  have hSplit : turns (first ++ .collected sourceIndex collected :: rest) =
      turns first ++ sourceIndex :: turns rest := by
    unfold turns
    rw [List.filterMap_append]
    rfl
  rw [hSplit] at h
  obtain ⟨-, hRest, hApart⟩ := List.nodup_append.mp h
  exact ⟨fun hMem => hApart sourceIndex hMem sourceIndex List.mem_cons_self rfl,
    (List.nodup_cons.mp hRest).1⟩

omit [BitcoinCrate] [WireJson] [ResponseEncoder] in
theorem settlements_split {first rest : List AtlasEvent} {settled : Outcome}
    {result : Option Return}
    (h : (settlements (first ++ .settled sourceIndex settled result :: rest)).Nodup) :
    sourceIndex ∉ settlements first ∧ sourceIndex ∉ settlements rest := by
  have hSplit : settlements (first ++ .settled sourceIndex settled result :: rest) =
      settlements first ++ sourceIndex :: settlements rest := by
    unfold settlements
    rw [List.filterMap_append]
    rfl
  rw [hSplit] at h
  obtain ⟨-, hRest, hApart⟩ := List.nodup_append.mp h
  exact ⟨fun hMem => hApart sourceIndex hMem sourceIndex List.mem_cons_self rfl,
    (List.nodup_cons.mp hRest).1⟩

/-- **A source's round**: what its settlement says holds at the end. -/
theorem source_round {trace : List AtlasEvent} {result : Option Return}
    (hRun : LifeRun source sourceIndex life trace life') (hAttended : Attended life)
    (hAway : life.turn = .away) (hTurns : (turns trace).Nodup)
    (hSettlements : (settlements trace).Nodup) (hEnd : life'.turn = .away)
    (hSettled : .settled sourceIndex outcome result ∈ trace)
    (hClean : clean → ∀ commit, .classificationActed sourceIndex (some commit) ∉ trace) :
    Reported life.published outcome result life'.published ∧
      (clean → IsFailure outcome result → Retained life.published life'.published) ∧
      (result = some (.published true) → .scheduling (.scheduled sourceIndex) ∈ trace) := by
  obtain ⟨early, after, rfl⟩ := List.append_of_mem hSettled
  obtain ⟨unsettled, settled, hEarly, hSettle, hAfter⟩ := hRun.split_at
  have hSettledEarly := (settlements_split hSettlements).1
  have hCleanEarly : clean → ∀ commit, .classificationActed sourceIndex (some commit) ∉ early :=
    fun hIs commit hMem => hClean hIs commit (List.mem_append_left _ hMem)
  have hCleanAfter : clean → ∀ commit, .classificationActed sourceIndex (some commit) ∉ after :=
    fun hIs commit hMem => hClean hIs commit
      (List.mem_append_right _ (List.mem_cons_of_mem _ hMem))
  by_cases hCollected : sourceIndex ∈ turns early
  · obtain ⟨collected, hMem⟩ := mem_turns.mp hCollected
    obtain ⟨first, held, rfl⟩ := List.append_of_mem hMem
    obtain ⟨turned, taken, hFirst, hCollect, hHeld⟩ := hEarly.split_at
    rw [List.append_assoc, List.cons_append] at hTurns
    obtain ⟨hFirstTurns, hRestTurns⟩ := turns_split hTurns
    have hAfterTurns : sourceIndex ∉ turns after := by
      intro hLater
      obtain ⟨later, hLater⟩ := mem_turns.mp hLater
      exact hRestTurns (mem_turns.mpr
        ⟨later, List.mem_append_right _ (List.mem_cons_of_mem _ hLater)⟩)
    have hHeldSettlements : sourceIndex ∉ settlements held := by
      intro hOpen
      obtain ⟨other, returned, hOpen⟩ := mem_settlements.mp hOpen
      exact hSettledEarly (mem_settlements.mpr
        ⟨other, returned, List.mem_append_right _ (List.mem_cons_of_mem _ hOpen)⟩)
    obtain ⟨-, hUntouched⟩ := away_run hFirst hAttended hAway hFirstTurns
      fun hIs commit hMem => hCleanEarly hIs commit (List.mem_append_left _ hMem)
    have hTurned := hAttended.run hFirst
    have hInHand := (inHand_of_collected hUntouched hCollect).run hHeld (hTurned.step hCollect)
      hHeldSettlements fun hIs commit hMem =>
        hCleanEarly hIs commit (List.mem_append_right _ (List.mem_cons_of_mem _ hMem))
    have hUnsettled := hAttended.run hEarly
    obtain ⟨rfl, hDone, hScheduling⟩ := hInHand.settle hSettle
    have hLast := hDone.run hAfter (hUnsettled.step hSettle) hAfterTurns hCleanAfter
    refine ⟨hLast.reported, hLast.retained, fun hSuccess => ?_⟩
    rcases scheduling_run (hScheduling hSuccess) hAfter with hStill | hScheduled
    · rw [hEnd] at hStill
      cases hStill
    · exact List.mem_append_right _ (List.mem_cons_of_mem _ hScheduled)
  · -- a source without an outcome in hand has nothing to settle
    have hStill := (away_run hEarly hAttended hAway hCollected hCleanEarly).1
    cases hSettle with
    | other hOther => exact absurd rfl hOther
    | logged hTurn | settled hTurn =>
      rw [hStill] at hTurn
      cases hTurn

end Lives

-- ---------------------------------------------------------------------------
-- Complete rounds
-- ---------------------------------------------------------------------------

/-- What a source shows as its availability. -/
def AtlasSource.availability (source : AtlasSource) (published : CurrentState) :
    SourceAvailability :=
  (snapshotResponse source.publisher published).source.availability

/-- The availability of a source, by its snapshot and its last error. -/
theorem availability_eq (source : AtlasSource) (published : CurrentState) :
    source.availability published =
      match published.latest, published.lastError with
      | none, none => .waiting
      | none, some _ => .error
      | some _, none => .ready
      | some _, some _ => .stale := rfl

theorem availability_of_error {source : AtlasSource} {published : CurrentState}
    (h : published.lastError ≠ none) :
    source.availability published = if published.latest.isSome then .stale else .error := by
  obtain ⟨message, hError⟩ := Option.ne_none_iff_exists'.mp h
  rw [availability_eq, hError]
  cases published.latest with
  | none => rfl
  | some latest => rfl

theorem availability_of_ready {source : AtlasSource} {published : CurrentState}
    (hError : published.lastError = none) (hLatest : published.latest.isSome) :
    source.availability published = .ready := by
  obtain ⟨latest, hLatest⟩ := Option.isSome_iff_exists.mp hLatest
  rw [availability_eq, hError, hLatest]

section Complete

variable [BitcoinCrate] [WireJson] [ResponseEncoder]

/-- What a complete round is to do, from `first` to `last`; `trace` is what follows its
start. -/
structure RoundReports (sources : List AtlasSource) (first : AtlasState) (trace : List AtlasEvent)
    (last : AtlasState) : Prop where
  /-- Every source is polled once and settled once, in configured order. -/
  course : turns trace = List.range sources.length ∧ settlements trace = List.range sources.length
  isolated : ∀ before event after left right, trace = before ++ event :: after →
    AtlasRun sources first (.roundStarted :: before) left → AtlasStep sources left event right →
    ∀ sourceIndex, event.source ≠ some sourceIndex →
      right.sources sourceIndex = left.sources sourceIndex
  own : ∀ sourceIndex publication result,
    .settled sourceIndex (.ok publication) result ∈ trace →
    .answered sourceIndex publication.membership ∈ trace
  /-- A source either failed or published. -/
  settled : ∀ sourceIndex outcome result, .settled sourceIndex outcome result ∈ trace →
    IsFailure outcome result ∨
      ∃ publication, outcome = .ok publication ∧ result = some (.published true)
  failed : ∀ sourceIndex source outcome result, sources[sourceIndex]? = some source →
    .settled sourceIndex outcome result ∈ trace → IsFailure outcome result →
    (last.sources sourceIndex).published.lastError ≠ none ∧
      source.availability (last.sources sourceIndex).published =
        (if (last.sources sourceIndex).published.latest.isSome then .stale else .error) ∧
      ((∀ commit, .classificationActed sourceIndex (some commit) ∉ trace) →
        Retained (first.sources sourceIndex).published (last.sources sourceIndex).published)
  succeeded : ∀ sourceIndex source publication, sources[sourceIndex]? = some source →
    .settled sourceIndex (.ok publication) (some (.published true)) ∈ trace →
    source.availability (last.sources sourceIndex).published = .ready ∧
      (last.sources sourceIndex).published.membership = some publication.membership ∧
      (last.sources sourceIndex).published.classificationGeneration =
        some publication.generation ∧
      .scheduling (.scheduled sourceIndex) ∈ trace

/-- Every source that fails has its failure recorded, as only RPC failures are, or had
an error before the round. -/
def FailuresRecorded (first : AtlasState) (trace : List AtlasEvent) : Prop :=
  ∀ sourceIndex outcome result, .settled sourceIndex outcome result ∈ trace →
    IsFailure outcome result →
    (∃ publicMessage, outcome = .error (.rpc publicMessage) ∧ result = some .done) ∨
      (first.sources sourceIndex).published.lastError ≠ none

/-- A round starts when none is under way. -/
theorem idle_of_started {sources : List AtlasSource} {first last : AtlasState}
    {trace : List AtlasEvent} (hRun : AtlasRun sources first (.roundStarted :: trace) last) :
    first.round = .idle := by
  cases hRun with
  | head hStep hRun =>
    cases hStep with
    | loop hStep => cases hStep
    | round hStep =>
      cases hStep with
      | started hRound hGate => exact hRound

/-- **A complete round reports what happened just when its failures are recorded**: every source
is settled once, in order and on its own; a failed one keeps its snapshot and is served as
failed or stale, a published one as ready. Failures other than RPC errors are only logged. -/
theorem poll_round_reports {sources : List AtlasSource} {start first last : AtlasState}
    {earlier trace : List AtlasEvent} (hStart : start.IsStart sources)
    (hEarlier : AtlasRun sources start earlier first)
    (hRound : AtlasRun sources first (.roundStarted :: trace) last)
    (hOne : AtlasEvent.roundStarted ∉ trace) (hEnd : last.round = .idle) :
    RoundReports sources first trace last ↔ FailuresRecorded first trace := by
  have hOrdered := ordered_run hStart.ordered hEarlier
  have hCourse := round_course hOrdered hRound hOne hEnd
  have hIdle : first.round = .idle := idle_of_started hRound
  have hSource : ∀ sourceIndex outcome result, .settled sourceIndex outcome result ∈ trace →
      ∃ source, sources[sourceIndex]? = some source := by
    intro sourceIndex outcome result hSettled
    have hMem := mem_settlements.mpr ⟨outcome, result, hSettled⟩
    rw [hCourse.2, List.mem_range] at hMem
    exact ⟨_, List.getElem?_eq_getElem hMem⟩
  have hReported : ∀ sourceIndex outcome result, .settled sourceIndex outcome result ∈ trace →
      Reported (first.sources sourceIndex).published outcome result
          (last.sources sourceIndex).published ∧
        ((∀ commit, .classificationActed sourceIndex (some commit) ∉ trace) →
          IsFailure outcome result →
          Retained (first.sources sourceIndex).published (last.sources sourceIndex).published) ∧
        (result = some (.published true) → .scheduling (.scheduled sourceIndex) ∈ trace) := by
    intro sourceIndex outcome result hSettled
    obtain ⟨source, hIndex⟩ := hSource sourceIndex outcome result hSettled
    have hAttended := (attended_start hStart sourceIndex).run
      (run_life hEarlier hStart.ordered hIndex)
    have hLife := run_life hRound hOrdered hIndex
    cases hLife with
    | head hStep hLife =>
      cases hStep with
      | other hOther =>
        refine source_round hLife hAttended ?_ ?_ ?_ ?_ hSettled fun hClean => hClean
        · simp [AtlasState.life, hIdle, PollRound.turn]
        · rw [hCourse.1]
          exact List.nodup_range
        · rw [hCourse.2]
          exact List.nodup_range
        · simp [AtlasState.life, hEnd, PollRound.turn]
  refine ⟨fun hReports sourceIndex outcome result hSettled hFailure => ?_, fun hRecorded => ?_⟩
  · obtain ⟨source, hIndex⟩ := hSource sourceIndex outcome result hSettled
    obtain ⟨hError, -⟩ := hReports.failed sourceIndex source outcome result hIndex hSettled hFailure
    obtain ⟨hShown, -⟩ := hReported sourceIndex outcome result hSettled
    rcases hFailure.lastError_eq hShown with hSame | hRpc
    · exact Or.inr (hSame ▸ hError)
    · exact Or.inl hRpc
  · refine ⟨hCourse, ?_, fun _ _ _ hSettled => settled_own hRound hSettled, ?_, ?_, ?_⟩
    · rintro before event after left right - - hStep sourceIndex hOther
      exact sources_of_other hStep hOther
    · intro sourceIndex outcome result hSettled
      exact (hReported sourceIndex outcome result hSettled).1.failure_or_published
    · intro sourceIndex source outcome result hIndex hSettled hFailure
      obtain ⟨hShown, hRetained, -⟩ := hReported sourceIndex outcome result hSettled
      have hError : (last.sources sourceIndex).published.lastError ≠ none := by
        rcases hRecorded sourceIndex outcome result hSettled hFailure with
          ⟨publicMessage, rfl, rfl⟩ | hBefore
        · have hMessage : (last.sources sourceIndex).published.lastError = some publicMessage :=
            hShown
          rw [hMessage]
          exact Option.some_ne_none _
        · rcases hFailure.lastError_eq hShown with hSame | ⟨publicMessage, rfl, rfl⟩
          · rwa [hSame]
          · have hMessage : (last.sources sourceIndex).published.lastError = some publicMessage :=
              hShown
            rw [hMessage]
            exact Option.some_ne_none _
      exact ⟨hError, availability_of_error hError, fun hClean => hRetained hClean hFailure⟩
    · intro sourceIndex source publication hIndex hSettled
      obtain ⟨⟨hError, hLatest, hMembership, hGeneration⟩, -, hScheduled⟩ :=
        hReported sourceIndex _ _ hSettled
      exact ⟨availability_of_ready hError hLatest, hMembership, hGeneration, hScheduled rfl⟩

end Complete

-- ---------------------------------------------------------------------------
-- Sample rounds
-- ---------------------------------------------------------------------------

/-- One configured source, and the state its runtime starts from. -/
def sampleSource : AtlasSource := ⟨⟨"a", "A", 60⟩, Reference.limits⟩

/-- A program with one source, before its first round. -/
def sampleStart : AtlasState where
  sources _ := ⟨{}, .new Reference.limits⟩

section Samples

variable [BitcoinCrate] [WireJson]

omit [BitcoinCrate] [WireJson] in
theorem sampleStart_isStart (publisher : CurrentStatePublisher) :
    sampleStart.IsStart [⟨publisher, Reference.limits⟩] where
  scheduler := rfl
  slice := rfl
  round := rfl
  published _ := rfl
  pipeline sourceIndex source hSource := by
    obtain rfl : source = ⟨publisher, Reference.limits⟩ := by
      rw [List.getElem?_singleton] at hSource
      split at hSource
      · exact (Option.some.inj hSource).symm
      · cases hSource
    rfl

/-- What `serde_json` writes for a source whose first poll failed. -/
abbrev unavailableEncoder : ResponseEncoder where
  toVec _ := some ("\x7b\"source\":\x7b\"source_id\":\"a\",\"source_label\":\"A\"," ++
    "\"availability\":\"error\",\"poll_interval_seconds\":60," ++
    "\"last_poll_started_at_ms\":5,\"snapshot_observed_at_ms\":null,\"chain_tip\":null," ++
    "\"transaction_count\":null,\"total_vsize\":null,\"classification\":null," ++
    "\"last_error\":\"timeout\"\x7d,\"snapshot\":null\x7d").toUTF8.toList

/-- A round whose only poll fails by an RPC error that is then recorded. -/
def unavailableRound : List AtlasEvent :=
  [.clockRead 0, .pollStarted 0, .collected 0 (.error (.rpc "timeout")), .gateReleased,
    .outcomeTaken 0, .outcomeActed 0 none, .outcomeActed 0 none,
    .outcomeActed 0 (some (.failure "timeout")),
    .settled 0 (.error (.rpc "timeout")) (some .done), .roundEnded]

/-- The sample round runs to its end. -/
theorem unavailableRound_run : ∃ last,
    @AtlasRun _ _ unavailableEncoder [sampleSource] sampleStart
      (.roundStarted :: unavailableRound) last ∧ last.round = .idle := by
  let _ := unavailableEncoder
  refine LabelledRun.extend (.round (.started rfl id)) ?_
  refine LabelledRun.extend (.round (.clockRead 5 rfl (by decide))) ?_
  refine LabelledRun.extend (.round (.pollStarted rfl)) ?_
  refine LabelledRun.extend (.round (.pollFailed "timeout" rfl)) ?_
  refine LabelledRun.extend (.round (.gateReleased rfl)) ?_
  refine LabelledRun.extend (.round (.taken rfl rfl)) ?_
  refine LabelledRun.extend (.round (.acted rfl rfl (show opStep _ .finished _ _ = _ from rfl))) ?_
  refine LabelledRun.extend (.round (.acted rfl rfl (show opStep _ .finished _ _ = _ from rfl))) ?_
  refine LabelledRun.extend (.round (.acted rfl rfl (show opStep _ .finished _ _ = _ from rfl))) ?_
  refine LabelledRun.extend (.round (.settled rfl)) (LabelledRun.extend (.round (.ended rfl)) ?_)
  exact ⟨_, .refl, rfl⟩

omit [BitcoinCrate] [WireJson] in
theorem failuresRecorded_unavailableRound : FailuresRecorded sampleStart unavailableRound := by
  intro sourceIndex outcome result hSettled hFailure
  simp only [unavailableRound, List.mem_cons, List.not_mem_nil, or_false, reduceCtorEq, false_or,
    AtlasEvent.settled.injEq] at hSettled
  obtain ⟨-, rfl, rfl⟩ := hSettled
  exact Or.inl ⟨_, rfl, rfl⟩

end Samples

/-- The sample round: the node cannot be reached, and the source is served as failed. -/
theorem poll_round_reports_unavailable : ∃ last,
    @RoundReports (MempoolAtlas.Reference.crate []) (Reference.json []) unavailableEncoder
      [sampleSource] sampleStart unavailableRound last := by
  let _ : BitcoinCrate := MempoolAtlas.Reference.crate []
  let _ : WireJson := Reference.json []
  let _ := unavailableEncoder
  have hStart : sampleStart.IsStart [sampleSource] := sampleStart_isStart _
  obtain ⟨last, hRun, hEnd⟩ := unavailableRound_run
  refine ⟨last, (poll_round_reports hStart LabelledRun.refl hRun ?_ hEnd).mpr
    failuresRecorded_unavailableRound⟩
  simp [unavailableRound]

/-- A source whose system clock reads before the Unix epoch: its turn fails, the round
only logs the failure, and the source still shows no error. -/
theorem poll_round_silent_clock : ∃ last,
    @AtlasRun (MempoolAtlas.Reference.crate []) (Reference.json []) unavailableEncoder
      [sampleSource] sampleStart
      [.roundStarted, .collected 0 (.error .invalidSystemClock), .gateReleased,
        .settled 0 (.error .invalidSystemClock) none, .roundEnded] last ∧
    last.round = .idle ∧ (last.sources 0).published.lastError = none ∧
    ¬ @RoundReports (MempoolAtlas.Reference.crate []) (Reference.json []) unavailableEncoder
      [sampleSource] sampleStart
      [.collected 0 (.error .invalidSystemClock), .gateReleased,
        .settled 0 (.error .invalidSystemClock) none, .roundEnded] last := by
  let _ : BitcoinCrate := MempoolAtlas.Reference.crate []
  let _ : WireJson := Reference.json []
  let _ := unavailableEncoder
  refine LabelledRun.extend (.round (.started rfl id)) ?_
  refine LabelledRun.extend (.round (.clockFailed rfl (by decide) (Or.inl rfl))) ?_
  refine LabelledRun.extend (.round (.gateReleased rfl)) ?_
  refine LabelledRun.extend (.round (.logged rfl rfl)) (LabelledRun.extend (.round (.ended rfl)) ?_)
  refine ⟨_, .refl, rfl, rfl, fun hReports => ?_⟩
  obtain ⟨hError, -⟩ := hReports.failed 0 sampleSource (.error .invalidSystemClock) none rfl
    (by simp) trivial
  exact hError rfl

end MempoolAtlas.Runtime
