import MempoolAtlas.Runtime.PublisherCoherence

/-!
# The history of the published state

What the commits of a run do to the visible state, one after another: the
(generation, revision) pair only grows, a delta commit adds its records to the
map the previous commits left and raises the revision by one, and nothing but a
later delta that names a txid or a newer membership touches its record. An
operation that returns `Ok(false)` or an error made no commit at all.

## Results

* `step_effect` — every step is an action of an operation, or starts one.
* `published_history` — monotonicity, and no update lost, from every reachable state on.
-/

namespace MempoolAtlas.Runtime

open Model Machine Classification Processes

-- ---------------------------------------------------------------------------
-- Accumulated classifications
-- ---------------------------------------------------------------------------

/-- A delta leaves the records it does not name. -/
theorem accumulate_of_not_named {classifications : TransactionClassifications}
    {changed : List TransactionClassification} {txid : String}
    (h : ∀ classification ∈ changed, classification.txid ≠ txid) :
    (accumulate classifications changed)[txid]? = classifications[txid]? := by
  induction changed generalizing classifications with
  | nil => rfl
  | cons first rest ih =>
    obtain ⟨hFirst, hRest⟩ := List.forall_mem_cons.mp h
    have hStep : accumulate classifications (first :: rest) =
        accumulate (classifications.insert first.txid first) rest := rfl
    rw [hStep, ih hRest, Std.ExtTreeMap.getElem?_insert]
    simp [hFirst]

/-- A txid a delta names gets a record of that delta. -/
theorem accumulate_of_named {classifications : TransactionClassifications}
    {changed : List TransactionClassification} {classification : TransactionClassification}
    (h : classification ∈ changed) :
    ∃ record ∈ changed, record.txid = classification.txid ∧
      (accumulate classifications changed)[classification.txid]? = some record := by
  induction changed generalizing classifications classification with
  | nil => simp at h
  | cons first rest ih =>
    have hStep : accumulate classifications (first :: rest) =
        accumulate (classifications.insert first.txid first) rest := rfl
    rw [hStep]
    by_cases hNamed : ∃ other ∈ rest, other.txid = classification.txid
    · obtain ⟨other, hOther, hTxid⟩ := hNamed
      obtain ⟨record, hMem, hRecord, hGet⟩ := ih hOther
      exact ⟨record, List.mem_cons_of_mem _ hMem, hRecord.trans hTxid, hTxid ▸ hGet⟩
    · have hFirst : classification = first := by
        rcases List.mem_cons.mp h with hEq | hMem
        · exact hEq
        · exact absurd ⟨classification, hMem, rfl⟩ hNamed
      subst hFirst
      refine ⟨classification, List.mem_cons_self .., rfl, ?_⟩
      rw [accumulate_of_not_named fun other hMem hTxid => hNamed ⟨other, hMem, hTxid⟩]
      exact Std.ExtTreeMap.getElem?_insert_self

-- ---------------------------------------------------------------------------
-- What each commit does
-- ---------------------------------------------------------------------------

/-- A delta commit: its records over the map just before it, one revision up. -/
structure DeltaCommitted (state : CurrentState) (delta : ClassificationRevisionDelta)
    (state' : CurrentState) : Prop where
  generation : state.classificationGeneration = some delta.generation
  generation_eq : state'.classificationGeneration = state.classificationGeneration
  revision : state'.classificationRevision = state.classificationRevision + 1
  revision_eq : state'.classificationRevision = delta.revision
  classifications : state'.classifications = accumulate state.classifications delta.changed

/-- Every commit but a delta or a membership leaves the classifications and
their stage. -/
theorem Effect.classifications_eq {publisher : CurrentStatePublisher}
    {state state' : CurrentState} {op op' : Op} {commit : Option Commit}
    (h : Effect publisher state op state' op' commit)
    (hDelta : ∀ delta classificationState,
      commit ≠ some (.classifications delta classificationState))
    (hMembership : ∀ publication, commit ≠ some (.membership publication)) :
    state'.classifications = state.classifications ∧
      state'.classificationGeneration = state.classificationGeneration := by
  cases h with
  | membership => exact absurd rfl (hMembership _)
  | update => exact absurd rfl (hDelta _ _)
  | silent | polled | lifecycle | failure => exact ⟨rfl, rfl⟩

/-- A membership commit is of a later generation than the one it replaces. -/
theorem Effect.membership_later {publisher : CurrentStatePublisher}
    {state state' : CurrentState} {op op' : Op} {publication : ClassificationGenerationStart}
    {generation : Nat}
    (h : Effect publisher state op state' op' (some (.membership publication)))
    (hGeneration : state.classificationGeneration = some generation) :
    generation < publication.generation := by
  cases h with
  | membership hNewer =>
    simpa [supersededBy, hGeneration] using hNewer

/-- A commit is the last action of its operation, and a successful one. -/
theorem Effect.commit_returns {publisher : CurrentStatePublisher} {state state' : CurrentState}
    {op op' : Op} {commit : Commit}
    (h : Effect publisher state op state' op' (some commit)) :
    op' = .returned .done ∨ op' = .returned (.published true) := by
  cases h with
  | failure => exact Or.inl rfl
  | membership | update | lifecycle => exact Or.inr rfl

section History

variable [ResponseEncoder] {publisher : CurrentStatePublisher}

theorem Effect.deltaCommitted {state state' : CurrentState} {op op' : Op}
    {delta : ClassificationRevisionDelta} {classificationState : ClassificationState}
    (h : Effect publisher state op state' op' (some (.classifications delta classificationState)))
    (hKnows : op.Knows publisher state) : DeltaCommitted state delta state' := by
  cases h with
  | @update update prepared body hGeneration hRevision hStatus =>
    obtain ⟨hChecked, hPrepared, -⟩ := hKnows
    have hNext := hChecked.revision_eq hRevision
    obtain ⟨hDelta, -, ⟨seen, -, hLater, hSeenGeneration, hSeenRevision, -, hSeen⟩, -⟩ := hChecked
    have hStage := hLater.sameStage
      (stage_eq (hGeneration.trans hSeenGeneration.symm) (hRevision.trans hSeenRevision))
    have hMade : prepared.classifications =
        accumulate update.classifications update.delta.changed :=
      PreparedFrom.classifications_eq hPrepared
    refine ⟨by rw [hGeneration, hDelta], rfl, hNext, rfl, ?_⟩
    rw [hStage.2.2, ← hSeen, ← hMade]
    rfl

-- ---------------------------------------------------------------------------
-- Runs
-- ---------------------------------------------------------------------------

variable {ι : Type} [DecidableEq ι]

/-- Every step of a reachable world is one action of an operation, or starts one. -/
theorem step_effect {trace : List (ι × Option Commit)} {w w' : World ι CurrentState Op} {i : ι}
    {commit : Option Commit} (h : Reaches publisher trace w)
    (hStep : (system ι publisher).Step w (i, commit) w') :
    (w'.shared = w.shared ∧ commit = none) ∨
      ∃ op op', w.procs i = some op ∧ w'.procs i = some op' ∧ op.Knows publisher w.shared ∧
        Effect publisher w.shared op w'.shared op' commit := by
  cases hStep with
  | start => exact Or.inl ⟨rfl, rfl⟩
  | act hLocal hAct =>
    obtain ⟨⟨task, hAct⟩, -⟩ := hAct
    exact Or.inr ⟨_, _, hLocal, Function.update_self .., h.holds.2 i _ hLocal, opStep_effect hAct⟩

/-- The shared state of a reachable world only moves on. -/
theorem Reaches.later {trace rest : List (ι × Option Commit)} {w w' : World ι CurrentState Op}
    (h : Reaches publisher trace w) (hRun : (system ι publisher).Run w rest w') :
    Later w.shared w'.shared :=
  (outline ι publisher).rel_run Later.refl (fun hab hbc => hab.trans hbc) (fun hG => hG) hRun
    h.holds

/-- No delta of the generation names the txid, and no membership of a later
generation is committed. -/
def Untouched (generation : Nat) (txid : String) (events : List (ι × Option Commit)) : Prop :=
  ∀ event ∈ events,
    (∀ delta classificationState, event.2 = some (.classifications delta classificationState) →
      delta.generation = generation →
        ∀ classification ∈ delta.changed, classification.txid ≠ txid) ∧
    ∀ publication, event.2 = some (.membership publication) → publication.generation ≤ generation

theorem classification_stays {trace rest : List (ι × Option Commit)}
    {w w' : World ι CurrentState Op} (h : Reaches publisher trace w)
    (hRun : (system ι publisher).Run w rest w') {generation : Nat} {txid : String}
    (hGeneration : w.shared.classificationGeneration = some generation)
    (hUntouched : Untouched generation txid rest) :
    w'.shared.classificationGeneration = some generation ∧
      w'.shared.classifications[txid]? = w.shared.classifications[txid]? := by
  induction hRun with
  | refl => exact ⟨hGeneration, rfl⟩
  | @tail rest mid last event hRest hStep ih =>
    obtain ⟨hMid, hGet⟩ := ih fun event hMem => hUntouched event (List.mem_append_left _ hMem)
    obtain ⟨hDelta, hMembership⟩ := hUntouched event (by simp)
    obtain ⟨i, commit⟩ := event
    rcases step_effect (h.trans hRest) hStep with
      ⟨hEq, rfl⟩ | ⟨op, op', -, -, hKnows, hEffect⟩
    · rw [hEq]
      exact ⟨hMid, hGet⟩
    · by_cases hIsDelta : ∃ delta classificationState,
          commit = some (.classifications delta classificationState)
      · obtain ⟨delta, classificationState, rfl⟩ := hIsDelta
        have hCommitted := hEffect.deltaCommitted hKnows
        have hSame : delta.generation = generation :=
          Option.some.inj (hCommitted.generation.symm.trans hMid)
        refine ⟨hCommitted.generation_eq.trans hMid, ?_⟩
        rw [hCommitted.classifications,
          accumulate_of_not_named (hDelta delta classificationState rfl hSame), hGet]
      · by_cases hIsMembership : ∃ publication, commit = some (.membership publication)
        · obtain ⟨publication, rfl⟩ := hIsMembership
          have hLater := hEffect.membership_later hMid
          have hNot := hMembership publication rfl
          omega
        · have hSame := hEffect.classifications_eq
            (fun delta classificationState hEq => hIsDelta ⟨delta, classificationState, hEq⟩)
            (fun publication hEq => hIsMembership ⟨publication, hEq⟩)
          rw [hSame.1, hSame.2]
          exact ⟨hMid, hGet⟩

/-- An operation that has committed has returned, and not with a refusal. -/
theorem committed_returned {trace : List (ι × Option Commit)} {w : World ι CurrentState Op}
    (h : Reaches publisher trace w) {i : ι} {commit : Commit} (hMem : (i, some commit) ∈ trace) :
    w.procs i = some (.returned .done) ∨ w.procs i = some (.returned (.published true)) := by
  induction h with
  | refl => simp at hMem
  | @tail trace mid last event hRun hStep ih =>
    have hKept : ∀ result, mid.procs i = some (.returned result) →
        last.procs i = some (.returned result) := by
      intro result hReturned
      cases hStep with
      | @start j op hFree hStarts =>
        have hne : i ≠ j := by
          rintro rfl
          rw [hFree] at hReturned
          cases hReturned
        simpa [Function.update_of_ne hne] using hReturned
      | @act j op op' event state' hLocal hAct =>
        have hne : i ≠ j := by
          rintro rfl
          obtain rfl : .returned result = op := by simpa [hReturned] using hLocal
          obtain ⟨⟨task, hAct⟩, -⟩ := hAct
          cases hAct
        simpa [Function.update_of_ne hne] using hReturned
    rcases List.mem_append.mp hMem with hMem | hMem
    · exact (ih hMem).imp (hKept _) (hKept _)
    · obtain rfl : event = (i, some commit) := (List.mem_singleton.mp hMem).symm
      rcases step_effect hRun hStep with ⟨-, hNone⟩ | ⟨op, op', -, hNext, -, hEffect⟩
      · cases hNone
      · rw [hNext]
        exact hEffect.commit_returns.imp (congrArg some) (congrArg some)

/-- `Ok(false)` or an error. -/
def Return.refused : Return → Bool
  | .published committed => !committed
  | .err _ => true
  | .done => false

/-- **Monotonicity and no lost update.** From every reachable state: the
(generation, revision) pair never decreases; a delta commit raises the revision
by exactly one and its map is the one just before it with its own records in
place; a record stays until a later delta of its generation names its txid or a
newer membership is committed; and an operation that was refused made no commit,
so what it leaves is what the last commit of another operation left. -/
theorem published_history {trace : List (ι × Option Commit)} {w : World ι CurrentState Op}
    (h : Reaches publisher trace w) :
    (∀ rest w', (system ι publisher).Run w rest w' → stage w.shared ≤ stage w'.shared) ∧
      (∀ i delta classificationState w', (system ι publisher).Step w
          (i, some (.classifications delta classificationState)) w' →
        DeltaCommitted w.shared delta w'.shared ∧
          ∀ classification ∈ delta.changed, ∃ record ∈ delta.changed,
            record.txid = classification.txid ∧
              w'.shared.classifications[classification.txid]? = some record) ∧
      (∀ rest w' generation txid classification, (system ι publisher).Run w rest w' →
        w.shared.classificationGeneration = some generation →
        w.shared.classifications[txid]? = some classification → Untouched generation txid rest →
        w'.shared.classifications[txid]? = some classification) ∧
      ∀ i result, w.procs i = some (.returned result) → result.refused = true →
        (∀ event ∈ trace, event.1 = i → event.2 = none) ∧
          (View.of w.shared = View.of {} ∨
            ∃ j commit before after, j ≠ i ∧
              (system ι publisher).LastEvent (initial {}) trace w j commit before after ∧
              View.of w.shared = View.of after.shared) := by
  refine ⟨fun rest w' hRun => (h.later hRun).stage, ?_, ?_, ?_⟩
  · intro i delta classificationState w' hStep
    rcases step_effect h hStep with ⟨-, hNone⟩ | ⟨op, op', -, -, hKnows, hEffect⟩
    · cases hNone
    · have hCommitted := hEffect.deltaCommitted hKnows
      refine ⟨hCommitted, fun classification hMem => ?_⟩
      rw [hCommitted.classifications]
      exact accumulate_of_named hMem
  · intro rest w' generation txid classification hRun hGeneration hGet hUntouched
    rw [(classification_stays h hRun hGeneration hUntouched).2, hGet]
  · intro i result hReturned hRefused
    have hSilent : ∀ commit, (i, some commit) ∉ trace := by
      intro commit hMem
      rcases committed_returned h hMem with hDone | hDone <;>
      · rw [hReturned] at hDone
        cases hDone
        cases hRefused
    refine ⟨fun event hMem hI => ?_, ?_⟩
    · obtain ⟨j, commit⟩ := event
      obtain rfl : j = i := hI
      cases commit with
      | none => rfl
      | some commit => exact absurd hMem (hSilent commit)
    · rcases h.silent_or_lastEvent with hNone | ⟨j, commit, before, after, hLast⟩
      · exact Or.inl (h.silent_eq View.of view_silent hNone)
      · obtain ⟨t₁, t₂, hTrace, -, hAfter, hRest⟩ := hLast.split
        refine Or.inr ⟨j, commit, before, after, ?_, hLast,
          hAfter.silent_eq View.of view_silent hRest⟩
        rintro rfl
        exact hSilent commit (by rw [hTrace]; simp)

end History

/-- From the unclassified payment on: the delta raises the revision by one and brings its record,
the record stays while the same delta is refused, and the refused call committed nothing. -/
theorem published_history_payment :
    let _ := MempoolAtlas.Reference.crate [MempoolAtlas.Reference.payment]
    let _ := serdeEncoder
    stage Payment.published ≤ stage Payment.revised ∧
      DeltaCommitted Payment.published Payment.delta Payment.revised ∧
      ∃ rest w, (system Nat Payment.publisher).Run Payment.revisedWorld rest w ∧
        w.procs 3 = some (.returned (.published false)) ∧
        w.shared.classifications[Reference.paymentRecord.txid]? =
          some Reference.paymentRecord ∧
        ∃ trace j commit before after, j ≠ 3 ∧
          (system Nat Payment.publisher).LastEvent (initial {}) trace w j commit before after ∧
          View.of w.shared = View.of after.shared := by
  intro _ _
  obtain ⟨trace, hRun⟩ := Payment.reaches_revising Payment.performs_system
  have hStep := Payment.revising_step Payment.performs_system
  have hRevised := hRun.tail hStep
  obtain ⟨hStages, hDeltas, -, -⟩ := published_history hRun
  obtain ⟨hCommitted, hNamed⟩ := hDeltas _ _ _ _ hStep
  obtain ⟨record, hMem, -, hGet⟩ := hNamed _ (List.mem_singleton_self _)
  obtain rfl := List.mem_singleton.mp hMem
  have hBefore : (system Nat Payment.publisher).Run Payment.revisedWorld []
      (crew Payment.revised [_, _, _]) := Run.refl
  have hAsked := hBefore.crew_start (Payment.performs_system.starts
    (.publishClassificationUpdate 1 (some Payment.delta) .complete))
  have hAgain := hAsked.crew_act (i := 3) rfl (Payment.performs_system.step rfl le_rfl le_rfl)
  obtain ⟨-, -, hStays, -⟩ := published_history hRevised
  obtain ⟨-, -, -, hReturned⟩ := published_history (hRevised.trans hAgain)
  obtain ⟨-, hInitial | ⟨j, commit, before, after, hne, hLast, hView⟩⟩ :=
    hReturned 3 (.published false) rfl rfl
  · have hNone : some _ = none := congrArg View.latest hInitial
    cases hNone
  · refine ⟨hStages _ _ (Run.single hStep), hCommitted, _, _, hAgain, rfl, ?_, _, j, commit,
      before, after, hne, hLast, hView⟩
    refine hStays _ _ 1 _ _ hAgain rfl hGet ?_
    intro event hMem
    obtain rfl : event = (3, none) := by simpa using hMem
    exact ⟨fun _ _ hEvent => (by cases hEvent), fun _ hEvent => (by cases hEvent)⟩

end MempoolAtlas.Runtime
