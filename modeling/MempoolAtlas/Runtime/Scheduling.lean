import MempoolAtlas.Lib.BTree
import MempoolAtlas.Lib.Runs

/-!
# Scheduling

`schedule_classification` and `run_classification` of `src/runtime.rs`, with the
slices and what becomes of them left open. A call of `schedule_classification`
inserts its source and then notifies, in two actions; the loop takes what is
pending, picks the next source of its active set in turn, waits for the RPC work
gate, runs a slice, publishes what came of it, and puts the source back when it is
to continue. `Notify::notify_one` wakes the waiting loop or leaves one permit.
-/

namespace MempoolAtlas.Runtime

/-- Where `run_classification` is. -/
inductive ClassificationLoop where
  /-- Before `notified().await`. -/
  | arriving
  | waiting
  /-- Before `take_pending_classification`. -/
  | draining (active : BTreeSet Nat) (nextSourceIndex : Nat)
  | picking (active : BTreeSet Nat) (nextSourceIndex : Nat)
  /-- Waiting for the gate with the picked source. -/
  | acquiring (active : BTreeSet Nat) (sourceIndex : Nat)
  | slicing (active : BTreeSet Nat) (sourceIndex : Nat)
  | publishing (active : BTreeSet Nat) (sourceIndex : Nat)

/-- The scheduler's share of the state: the pending set, the loop and its notification. -/
structure Scheduler where
  /-- `classification_pending`. -/
  pending : BTreeSet Nat := ∅
  /-- The permit `classification_wakeup` stores. -/
  permit : Bool := false
  /-- The sources of the calls between their insertion and their notification. -/
  callers : List Nat := []
  loop : ClassificationLoop := .arriving

/-- What the scheduler does. -/
inductive SchedulerEvent where
  | scheduled (sourceIndex : Nat)
  | notified (sourceIndex : Nat)
  | awaited
  | drained
  | picked (sourceIndex : Option Nat)
  | sliceStarted (sourceIndex : Nat)
  | sliceEnded (sourceIndex : Nat)
  | finished (sourceIndex : Nat) (continues : Bool)
deriving DecidableEq, Repr

-- ---------------------------------------------------------------------------
-- runtime.rs
-- ---------------------------------------------------------------------------

/-- The body of the outer loop, from its start. -/
def ClassificationLoop.awake : ClassificationLoop := .draining ∅ 0

/-- A notification is stored, once. -/
def Scheduler.notifyOne (scheduler : Scheduler) : Scheduler :=
  match scheduler.loop with
  | .waiting => { scheduler with loop := .awake }
  | _ => { scheduler with permit := true }

/-- `notified().await`, reached. -/
def Scheduler.notified (scheduler : Scheduler) : Scheduler :=
  if scheduler.permit then { scheduler with permit := false, loop := .awake }
  else { scheduler with loop := .waiting }

/-- `active.append(&mut pending)`. -/
def takePendingClassification (pending active : BTreeSet Nat) : BTreeSet Nat :=
  pending.toList.foldl (fun active sourceIndex => active.insert sourceIndex) active

/-- `active.range(next..).next()`, or else `active.first()`. -/
def nextSource (active : BTreeSet Nat) (nextSourceIndex : Nat) : Option Nat :=
  (active.toList.find? fun sourceIndex => decide (nextSourceIndex ≤ sourceIndex)).or
    active.toList.head?

/-- `active` after the slice of a source, and where the search goes on. -/
def reinsert (sources : Nat) (active : BTreeSet Nat) (sourceIndex : Nat) (continues : Bool) :
    ClassificationLoop :=
  .draining (if continues then active.insert sourceIndex else active) ((sourceIndex + 1) % sources)

/-- The next action of the loop; `continues` is what `publish_classification`
returns when the action is its return. -/
def loopStep (sources : Nat) (continues : Bool) (scheduler : Scheduler) :
    Option (Scheduler × SchedulerEvent) :=
  match scheduler.loop with
  | .arriving => some (scheduler.notified, .awaited)
  | .waiting => none
  | .draining active nextSourceIndex =>
    some ({ scheduler with
      pending := ∅
      loop := .picking (takePendingClassification scheduler.pending active) nextSourceIndex },
      .drained)
  | .picking active nextSourceIndex =>
    match nextSource active nextSourceIndex with
    | none => some ({ scheduler with loop := .arriving }, .picked none)
    | some sourceIndex =>
      some ({ scheduler with loop := .acquiring (active.erase sourceIndex) sourceIndex },
        .picked (some sourceIndex))
  | .acquiring active sourceIndex =>
    some ({ scheduler with loop := .slicing active sourceIndex }, .sliceStarted sourceIndex)
  | .slicing active sourceIndex =>
    some ({ scheduler with loop := .publishing active sourceIndex }, .sliceEnded sourceIndex)
  | .publishing active sourceIndex =>
    some ({ scheduler with loop := reinsert sources active sourceIndex continues },
      .finished sourceIndex continues)

/-- One action: of a call of `schedule_classification`, or of the loop. -/
inductive SchedulerStep (sources : Nat) : Scheduler → SchedulerEvent → Scheduler → Prop
  | insert {scheduler : Scheduler} {sourceIndex : Nat} (hConfigured : sourceIndex < sources) :
      SchedulerStep sources scheduler (.scheduled sourceIndex)
        { scheduler with
          pending := scheduler.pending.insert sourceIndex
          callers := sourceIndex :: scheduler.callers }
  | notify {scheduler : Scheduler} {sourceIndex : Nat}
      (hCaller : sourceIndex ∈ scheduler.callers) :
      SchedulerStep sources scheduler (.notified sourceIndex)
        ({ scheduler with callers := scheduler.callers.erase sourceIndex }).notifyOne
  | loop {scheduler scheduler' : Scheduler} {event : SchedulerEvent} (continues : Bool)
      (hStep : loopStep sources continues scheduler = some (scheduler', event)) :
      SchedulerStep sources scheduler event scheduler'

/-- A run of the scheduler alone. -/
abbrev SchedulerRun (sources : Nat) := LabelledRun (SchedulerStep sources)

-- ---------------------------------------------------------------------------
-- Round robin
-- ---------------------------------------------------------------------------

/-- Taking the pending sources adds them to the active ones. -/
theorem mem_takePending {pending active : BTreeSet Nat} {sourceIndex : Nat} :
    sourceIndex ∈ takePendingClassification pending active ↔
      sourceIndex ∈ pending ∨ sourceIndex ∈ active := by
  unfold takePendingClassification
  rw [BTreeSet.mem_foldl_insert, Std.ExtTreeSet.mem_toList]

/-- How far a source is ahead of the pointer, going up and round. -/
def ahead (sources pointer sourceIndex : Nat) : Nat :=
  if pointer ≤ sourceIndex then sourceIndex - pointer else sourceIndex + sources - pointer

/-- There is no next source just when none is active. -/
theorem nextSource_eq_none {active : BTreeSet Nat} {pointer : Nat}
    (h : nextSource active pointer = none) (sourceIndex : Nat) : sourceIndex ∉ active := by
  unfold nextSource at h
  rw [Option.or_eq_none_iff, List.head?_eq_none_iff] at h
  intro hMem
  rw [← Std.ExtTreeSet.mem_toList, h.2] at hMem
  cases hMem

/-- The next source is an active one. -/
theorem mem_of_nextSource {active : BTreeSet Nat} {pointer sourceIndex : Nat}
    (h : nextSource active pointer = some sourceIndex) : sourceIndex ∈ active := by
  unfold nextSource at h
  rw [← Std.ExtTreeSet.mem_toList]
  rcases Option.or_eq_some_iff.mp h with hFound | ⟨-, hFirst⟩
  · exact List.mem_of_find?_eq_some hFound
  · exact List.mem_of_head? hFirst

/-- The picked source is the nearest one ahead. -/
theorem nextSource_eq_some {sources pointer sourceIndex : Nat} {active : BTreeSet Nat}
    (h : nextSource active pointer = some sourceIndex)
    (hConfigured : ∀ other ∈ active, other < sources) :
    sourceIndex ∈ active ∧
      ∀ other ∈ active, ahead sources pointer sourceIndex ≤ ahead sources pointer other := by
  have hOrdered : active.toList.Pairwise fun left right => left < right :=
    Std.ExtTreeSet.ordered_toList.imp fun hLess => Nat.compare_eq_lt.mp hLess
  have hPicked := h
  unfold nextSource at h
  cases hFind : active.toList.find? fun sourceIndex => decide (pointer ≤ sourceIndex) with
  | some found =>
    rw [hFind, Option.some_or] at h
    obtain rfl := Option.some.inj h
    obtain ⟨hAfter, before, after, hList, hBefore⟩ := List.find?_eq_some_iff_append.mp hFind
    rw [decide_eq_true_eq] at hAfter
    have hMem := mem_of_nextSource hPicked
    refine ⟨hMem, fun other hOther => ?_⟩
    have hBound := hConfigured found hMem
    rw [← Std.ExtTreeSet.mem_toList, hList] at hOther
    rw [hList] at hOrdered
    rcases List.mem_append.mp hOther with hEarlier | hLater
    · have hLess := hBefore other hEarlier
      rw [Bool.not_eq_true', decide_eq_false_iff_not] at hLess
      unfold ahead
      rw [if_pos hAfter, if_neg hLess]
      omega
    · rcases List.mem_cons.mp hLater with rfl | hLater
      · exact le_rfl
      · have hGreater : found < other :=
          (List.pairwise_cons.mp (List.pairwise_append.mp hOrdered).2.1).1 other hLater
        unfold ahead
        rw [if_pos hAfter, if_pos (by omega)]
        omega
  | none =>
    rw [hFind, Option.none_or] at h
    obtain ⟨rest, hList⟩ := List.head?_eq_some_iff.mp h
    have hMem := mem_of_nextSource hPicked
    have hAll : ∀ other ∈ active, ¬ pointer ≤ other := by
      intro other hOther
      have hNone := List.find?_eq_none.mp hFind other (Std.ExtTreeSet.mem_toList.mpr hOther)
      simpa using hNone
    refine ⟨hMem, fun other hOther => ?_⟩
    have hFirst : sourceIndex ≤ other := by
      rw [← Std.ExtTreeSet.mem_toList, hList] at hOther
      rw [hList] at hOrdered
      rcases List.mem_cons.mp hOther with rfl | hRest
      · exact le_rfl
      · exact ((List.pairwise_cons.mp hOrdered).1 other hRest).le
    unfold ahead
    rw [if_neg (hAll sourceIndex hMem), if_neg (hAll other hOther)]
    omega

/-- What one action of the loop does. -/
inductive LoopEffect (sources : Nat) (scheduler : Scheduler) : SchedulerEvent → Scheduler → Prop
  | woken (hLoop : scheduler.loop = .arriving) (hPermit : scheduler.permit = true) :
      LoopEffect sources scheduler .awaited
        { scheduler with permit := false, loop := .awake }
  | slept (hLoop : scheduler.loop = .arriving) (hPermit : scheduler.permit = false) :
      LoopEffect sources scheduler .awaited { scheduler with loop := .waiting }
  | drained {active : BTreeSet Nat} {pointer : Nat}
      (hLoop : scheduler.loop = .draining active pointer) :
      LoopEffect sources scheduler .drained { scheduler with
        pending := ∅, loop := .picking (takePendingClassification scheduler.pending active) pointer }
  | exhausted {active : BTreeSet Nat} {pointer : Nat}
      (hLoop : scheduler.loop = .picking active pointer) (hNone : nextSource active pointer = none) :
      LoopEffect sources scheduler (.picked none) { scheduler with loop := .arriving }
  | picked {active : BTreeSet Nat} {pointer sourceIndex : Nat}
      (hLoop : scheduler.loop = .picking active pointer)
      (hNext : nextSource active pointer = some sourceIndex) :
      LoopEffect sources scheduler (.picked (some sourceIndex))
        { scheduler with loop := .acquiring (active.erase sourceIndex) sourceIndex }
  | sliceStarted {active : BTreeSet Nat} {sourceIndex : Nat}
      (hLoop : scheduler.loop = .acquiring active sourceIndex) :
      LoopEffect sources scheduler (.sliceStarted sourceIndex)
        { scheduler with loop := .slicing active sourceIndex }
  | sliceEnded {active : BTreeSet Nat} {sourceIndex : Nat}
      (hLoop : scheduler.loop = .slicing active sourceIndex) :
      LoopEffect sources scheduler (.sliceEnded sourceIndex)
        { scheduler with loop := .publishing active sourceIndex }
  | finished {active : BTreeSet Nat} {sourceIndex : Nat} (continues : Bool)
      (hLoop : scheduler.loop = .publishing active sourceIndex) :
      LoopEffect sources scheduler (.finished sourceIndex continues)
        { scheduler with loop := reinsert sources active sourceIndex continues }

/-- **What one step of the loop does.** -/
theorem loopStep_effect {sources : Nat} {continues : Bool} {scheduler scheduler' : Scheduler}
    {event : SchedulerEvent}
    (h : loopStep sources continues scheduler = some (scheduler', event)) :
    LoopEffect sources scheduler event scheduler' := by
  unfold loopStep at h
  cases hLoop : scheduler.loop with
  | arriving =>
    rw [hLoop] at h
    obtain ⟨rfl, rfl⟩ := Prod.mk.inj (Option.some.inj h)
    unfold Scheduler.notified
    split
    · next hPermit => exact .woken hLoop hPermit
    · next hPermit => exact .slept hLoop (by simpa using hPermit)
  | waiting =>
    rw [hLoop] at h
    cases h
  | draining active pointer =>
    rw [hLoop] at h
    obtain ⟨rfl, rfl⟩ := Prod.mk.inj (Option.some.inj h)
    exact .drained hLoop
  | picking active pointer =>
    rw [hLoop] at h
    dsimp only at h
    split at h
    · next hNone =>
      obtain ⟨rfl, rfl⟩ := Prod.mk.inj (Option.some.inj h)
      exact .exhausted hLoop hNone
    · next sourceIndex hNext =>
      obtain ⟨rfl, rfl⟩ := Prod.mk.inj (Option.some.inj h)
      exact .picked hLoop hNext
  | acquiring active sourceIndex =>
    rw [hLoop] at h
    obtain ⟨rfl, rfl⟩ := Prod.mk.inj (Option.some.inj h)
    exact .sliceStarted hLoop
  | slicing active sourceIndex =>
    rw [hLoop] at h
    obtain ⟨rfl, rfl⟩ := Prod.mk.inj (Option.some.inj h)
    exact .sliceEnded hLoop
  | publishing active sourceIndex =>
    rw [hLoop] at h
    obtain ⟨rfl, rfl⟩ := Prod.mk.inj (Option.some.inj h)
    exact .finished continues hLoop

-- ---------------------------------------------------------------------------
-- What holds in every state
-- ---------------------------------------------------------------------------

namespace ClassificationLoop

/-- The sources that the loop has in hand. -/
def active : ClassificationLoop → BTreeSet Nat
  | .arriving | .waiting => ∅
  | .draining active _ | .picking active _ => active
  | .acquiring active _ | .slicing active _ | .publishing active _ => active

/-- The source that has been picked and not yet put back or let go. -/
def current : ClassificationLoop → Option Nat
  | .acquiring _ sourceIndex | .slicing _ sourceIndex | .publishing _ sourceIndex =>
    some sourceIndex
  | _ => none

/-- Where the next search starts. -/
def pointer (sources : Nat) : ClassificationLoop → Nat
  | .arriving | .waiting => 0
  | .draining _ pointer | .picking _ pointer => pointer
  | .acquiring _ sourceIndex | .slicing _ sourceIndex | .publishing _ sourceIndex =>
    (sourceIndex + 1) % sources

/-- Past `notified().await`. -/
def IsAwake (loop : ClassificationLoop) : Prop := loop ≠ .arriving ∧ loop ≠ .waiting

/-- Whether the loop takes what is pending before it sleeps. -/
def WillDrain : ClassificationLoop → Prop
  | .arriving | .waiting => False
  | .picking active pointer => nextSource active pointer ≠ none
  | _ => True

end ClassificationLoop

/-- The sources are configured ones, the picked one is out of the active set, and
what is pending will be taken. -/
structure Scheduled (sources : Nat) (scheduler : Scheduler) : Prop where
  pending : ∀ sourceIndex ∈ scheduler.pending, sourceIndex < sources
  active : ∀ sourceIndex ∈ scheduler.loop.active, sourceIndex < sources
  current : ∀ sourceIndex ∈ scheduler.loop.current, sourceIndex < sources
  pointer : scheduler.loop.pointer sources = 0 ∨ scheduler.loop.pointer sources < sources
  apart : ∀ sourceIndex ∈ scheduler.loop.current, sourceIndex ∉ scheduler.loop.active
  wakeful : ∀ sourceIndex ∈ scheduler.pending, scheduler.permit = true ∨
    scheduler.loop.WillDrain ∨ sourceIndex ∈ scheduler.callers

/-- A new scheduler is in order. -/
theorem scheduled_start (sources : Nat) : Scheduled sources {} where
  pending _ h := by simp at h
  active _ h := by simp [ClassificationLoop.active] at h
  current _ h := by simp [ClassificationLoop.current] at h
  pointer := Or.inl rfl
  apart _ h := by simp [ClassificationLoop.current] at h
  wakeful _ h := by simp at h

theorem pointer_lt {sources sourceIndex : Nat} (h : sourceIndex < sources) :
    (sourceIndex + 1) % sources < sources :=
  Nat.mod_lt _ (Nat.zero_lt_of_lt h)

/-- A step of the loop keeps the scheduler in order. -/
theorem Scheduled.loop {sources : Nat} {scheduler scheduler' : Scheduler} {event : SchedulerEvent}
    (h : Scheduled sources scheduler) (hEffect : LoopEffect sources scheduler event scheduler') :
    Scheduled sources scheduler' := by
  obtain ⟨hPending, hActive, hCurrent, hPointer, hApart, hWakeful⟩ := h
  cases hEffect with
  | woken hLoop hPermit =>
    exact ⟨hPending, by simp [ClassificationLoop.awake, ClassificationLoop.active],
      by simp [ClassificationLoop.awake, ClassificationLoop.current], Or.inl rfl,
      by simp [ClassificationLoop.awake, ClassificationLoop.current],
      fun _ _ => Or.inr (Or.inl trivial)⟩
  | slept hLoop hPermit =>
    refine ⟨hPending, by simp [ClassificationLoop.active], by simp [ClassificationLoop.current],
      Or.inl rfl, by simp [ClassificationLoop.current], fun sourceIndex hMem => ?_⟩
    rcases hWakeful sourceIndex hMem with hStored | hDrain | hCaller
    · rw [hPermit] at hStored
      cases hStored
    · rw [hLoop] at hDrain
      exact hDrain.elim
    · exact Or.inr (Or.inr hCaller)
  | @drained active pointer hLoop =>
    rw [hLoop] at hActive hPointer
    refine ⟨by simp, fun sourceIndex hMem => ?_, by simp [ClassificationLoop.current], hPointer,
      by simp [ClassificationLoop.current], by simp⟩
    rcases mem_takePending.mp hMem with hWas | hWas
    · exact hPending sourceIndex hWas
    · exact hActive sourceIndex hWas
  | @exhausted active pointer hLoop hNone =>
    refine ⟨hPending, by simp [ClassificationLoop.active], by simp [ClassificationLoop.current],
      Or.inl rfl, by simp [ClassificationLoop.current], fun sourceIndex hMem => ?_⟩
    rcases hWakeful sourceIndex hMem with hStored | hDrain | hCaller
    · exact Or.inl hStored
    · rw [hLoop] at hDrain
      exact absurd hNone hDrain
    · exact Or.inr (Or.inr hCaller)
  | @picked active pointer sourceIndex hLoop hNext =>
    rw [hLoop] at hActive
    obtain ⟨hMem, -⟩ := nextSource_eq_some hNext hActive
    have hBound := hActive sourceIndex hMem
    refine ⟨hPending, fun other hOther => ?_, ?_, Or.inr (pointer_lt hBound), ?_,
      fun _ _ => Or.inr (Or.inl trivial)⟩
    · exact hActive other (BTreeSet.mem_erase_iff.mp hOther).2
    · rintro _ ⟨⟩
      exact hBound
    · rintro _ ⟨⟩ hErased
      exact (BTreeSet.mem_erase_iff.mp hErased).1 rfl
  | @sliceStarted active sourceIndex hLoop =>
    rw [hLoop] at hActive hCurrent hPointer hApart
    exact ⟨hPending, hActive, hCurrent, hPointer, hApart, fun _ _ => Or.inr (Or.inl trivial)⟩
  | @sliceEnded active sourceIndex hLoop =>
    rw [hLoop] at hActive hCurrent hPointer hApart
    exact ⟨hPending, hActive, hCurrent, hPointer, hApart, fun _ _ => Or.inr (Or.inl trivial)⟩
  | @finished active sourceIndex continues hLoop =>
    rw [hLoop] at hActive hCurrent hPointer
    refine ⟨hPending, fun other hOther => ?_, by simp [reinsert, ClassificationLoop.current],
      hPointer, by simp [reinsert, ClassificationLoop.current],
      fun _ _ => Or.inr (Or.inl trivial)⟩
    simp only [reinsert, ClassificationLoop.active] at hOther
    split at hOther
    · rcases BTreeSet.mem_insert_iff.mp hOther with rfl | hWas
      · exact hCurrent other rfl
      · exact hActive other hWas
    · exact hActive other hOther

/-- One step keeps the scheduler in order. -/
theorem Scheduled.step {sources : Nat} {scheduler scheduler' : Scheduler} {event : SchedulerEvent}
    (h : Scheduled sources scheduler) (hStep : SchedulerStep sources scheduler event scheduler') :
    Scheduled sources scheduler' := by
  cases hStep with
  | @insert sourceIndex hConfigured =>
    refine ⟨fun other hOther => ?_, h.active, h.current, h.pointer, h.apart, fun other hOther => ?_⟩
    · rcases BTreeSet.mem_insert_iff.mp hOther with rfl | hWas
      · exact hConfigured
      · exact h.pending other hWas
    · rcases BTreeSet.mem_insert_iff.mp hOther with rfl | hWas
      · exact Or.inr (Or.inr List.mem_cons_self)
      · rcases h.wakeful other hWas with hStored | hDrain | hCaller
        · exact Or.inl hStored
        · exact Or.inr (Or.inl hDrain)
        · exact Or.inr (Or.inr (List.mem_cons_of_mem sourceIndex hCaller))
  | @notify sourceIndex hCaller =>
    by_cases hLoop : scheduler.loop = .waiting
    · have hNotified : ({ scheduler with
          callers := scheduler.callers.erase sourceIndex } : Scheduler).notifyOne =
            { scheduler with callers := scheduler.callers.erase sourceIndex, loop := .awake } := by
        simp only [Scheduler.notifyOne, hLoop]
      rw [hNotified]
      exact ⟨h.pending, by simp [ClassificationLoop.awake, ClassificationLoop.active],
        by simp [ClassificationLoop.awake, ClassificationLoop.current], Or.inl rfl,
        by simp [ClassificationLoop.awake, ClassificationLoop.current],
        fun _ _ => Or.inr (Or.inl trivial)⟩
    · have hNotified : ({ scheduler with
          callers := scheduler.callers.erase sourceIndex } : Scheduler).notifyOne =
            { scheduler with callers := scheduler.callers.erase sourceIndex, permit := true } := by
        unfold Scheduler.notifyOne
        split
        · next hWaiting => exact absurd hWaiting hLoop
        · rfl
      rw [hNotified]
      exact ⟨h.pending, h.active, h.current, h.pointer, h.apart, fun _ _ => Or.inl rfl⟩
  | loop continues hStep => exact h.loop (loopStep_effect hStep)

/-- A run keeps the scheduler in order. -/
theorem Scheduled.run {sources : Nat} {scheduler scheduler' : Scheduler}
    {trace : List SchedulerEvent} (h : Scheduled sources scheduler)
    (hRun : SchedulerRun sources scheduler trace scheduler') : Scheduled sources scheduler' :=
  hRun.invariant (fun _ _ _ hInv hStep => hInv.step hStep) h

end MempoolAtlas.Runtime
