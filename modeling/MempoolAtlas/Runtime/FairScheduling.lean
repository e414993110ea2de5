import MempoolAtlas.Runtime.Scheduling

/-!
# Fair scheduling

A scheduled source is pending, active or picked until a slice of it starts, and what
is pending is taken before the loop sleeps. Between the moment a source is scheduled
or put back and its next slice, every other source starts at most one slice: the
sources that started one since are farther ahead of the pointer than it is.

## Results

* `Queued.run` — until its own slice starts a source goes on waiting.
* `Passed.next` — picking another source brings the waiting one nearer.
* `scheduling_fair` — no scheduled source is dropped, and none is bypassed twice.
-/

namespace MempoolAtlas.Runtime

/-- The source whose slice an event starts. -/
def SchedulerEvent.sliced : SchedulerEvent → Option Nat
  | .sliceStarted sourceIndex => some sourceIndex
  | _ => none

/-- The sources whose slices a trace starts, in order. -/
def slices (trace : List SchedulerEvent) : List Nat := trace.filterMap SchedulerEvent.sliced

-- ---------------------------------------------------------------------------
-- Distances
-- ---------------------------------------------------------------------------

section Distances

variable {sources pointer left right picked : Nat}

/-- Two sources are never equally far ahead. -/
theorem ahead_inj (hPointer : pointer = 0 ∨ pointer < sources) (hLeft : left < sources)
    (hRight : right < sources) (h : ahead sources pointer left = ahead sources pointer right) :
    left = right := by
  unfold ahead at h
  split at h <;> split at h <;> omega

/-- Past the picked source, every source farther ahead is nearer by as much. -/
theorem ahead_next (hPointer : pointer = 0 ∨ pointer < sources) (hPicked : picked < sources)
    (hLeft : left < sources)
    (hLess : ahead sources pointer picked < ahead sources pointer left) :
    ahead sources ((picked + 1) % sources) left =
      ahead sources pointer left - ahead sources pointer picked - 1 := by
  have hNext : (picked + 1) % sources = picked + 1 ∨
      picked + 1 = sources ∧ (picked + 1) % sources = 0 := by
    rcases Nat.lt_or_ge (picked + 1) sources with hSmall | hLarge
    · exact Or.inl (Nat.mod_eq_of_lt hSmall)
    · have hEqual : picked + 1 = sources := by omega
      exact Or.inr ⟨hEqual, by rw [hEqual, Nat.mod_self]⟩
  unfold ahead at hLess ⊢
  rcases hNext with hNext | ⟨hLast, hNext⟩
  · rw [hNext]
    split at hLess <;> split at hLess <;> split <;> omega
  · rw [hNext]
    split at hLess <;> split at hLess <;> split <;> omega

/-- The picked source itself is then the farthest. -/
theorem ahead_picked (hPicked : picked < sources) :
    ahead sources ((picked + 1) % sources) picked = sources - 1 := by
  rcases Nat.lt_or_ge (picked + 1) sources with hSmall | hLarge
  · rw [Nat.mod_eq_of_lt hSmall]
    unfold ahead
    rw [if_neg (by omega)]
    omega
  · have hEqual : picked + 1 = sources := by omega
    rw [hEqual, Nat.mod_self]
    unfold ahead
    rw [if_pos (Nat.zero_le _)]
    omega

/-- Every other source is nearer than the picked one. -/
theorem ahead_lt_picked (hPicked : picked < sources) (hLeft : left < sources)
    (hOther : left ≠ picked) : ahead sources ((picked + 1) % sources) left <
      ahead sources ((picked + 1) % sources) picked := by
  have hPointer := pointer_lt hPicked
  have hBound : ahead sources ((picked + 1) % sources) left < sources := by
    unfold ahead
    split <;> omega
  have hApart : ahead sources ((picked + 1) % sources) left ≠
      ahead sources ((picked + 1) % sources) picked :=
    fun hEqual => hOther (ahead_inj (Or.inr hPointer) hLeft hPicked hEqual)
  rw [ahead_picked hPicked] at hApart ⊢
  omega

end Distances

-- ---------------------------------------------------------------------------
-- The wait for a slice
-- ---------------------------------------------------------------------------

/-- The sources that started a slice are farther ahead than the waiting one. -/
def Passed (sources sourceIndex pointer : Nat) (started : List Nat) : Prop :=
  ∀ other ∈ started, other < sources ∧
    ahead sources pointer sourceIndex < ahead sources pointer other

/-- Where a source waits for its next slice, with the sources that started one
since it was scheduled or put back. -/
def Queued (sources sourceIndex : Nat) (started : List Nat) (scheduler : Scheduler) : Prop :=
  match scheduler.loop with
  | .arriving | .waiting => sourceIndex ∈ scheduler.pending ∧ started = []
  | .draining active pointer =>
    (sourceIndex ∈ scheduler.pending ∨ sourceIndex ∈ active) ∧
      Passed sources sourceIndex pointer started
  | .picking active pointer =>
    sourceIndex ∈ active ∧ Passed sources sourceIndex pointer started ∨
      sourceIndex ∈ scheduler.pending ∧ started = []
  | .acquiring active picked =>
    picked = sourceIndex ∨
      (sourceIndex ∈ scheduler.pending ∨ sourceIndex ∈ active) ∧ picked ∉ started ∧
        Passed sources sourceIndex ((picked + 1) % sources) started
  | .slicing active picked | .publishing active picked =>
    (sourceIndex ∈ scheduler.pending ∨ sourceIndex ∈ active) ∧
      Passed sources sourceIndex ((picked + 1) % sources) started

/-- The same after an event: a slice it starts is that of a source that had started
none, or the waited for one. -/
def QueuedAfter (sources sourceIndex : Nat) (started : List Nat) (event : SchedulerEvent)
    (scheduler : Scheduler) : Prop :=
  match event with
  | .sliceStarted other => other = sourceIndex ∨
      other ∉ started ∧ Queued sources sourceIndex (other :: started) scheduler
  | _ => Queued sources sourceIndex started scheduler

section Queue

variable {sources sourceIndex : Nat} {started : List Nat} {scheduler scheduler' : Scheduler}
  {event : SchedulerEvent}

theorem passed_nil (pointer : Nat) : Passed sources sourceIndex pointer [] := by
  simp [Passed]

/-- A source that has just been inserted. -/
theorem queued_of_pending (h : sourceIndex ∈ scheduler.pending) :
    Queued sources sourceIndex [] scheduler := by
  unfold Queued
  split
  · exact ⟨h, rfl⟩
  · exact ⟨h, rfl⟩
  · exact ⟨Or.inl h, passed_nil _⟩
  · exact Or.inr ⟨h, rfl⟩
  · exact Or.inr ⟨Or.inl h, List.not_mem_nil, passed_nil _⟩
  · exact ⟨Or.inl h, passed_nil _⟩
  · exact ⟨Or.inl h, passed_nil _⟩

/-- More pending sources change nothing. -/
theorem Queued.mono (h : Queued sources sourceIndex started scheduler)
    (hLoop : scheduler'.loop = scheduler.loop)
    (hPending : ∀ other ∈ scheduler.pending, other ∈ scheduler'.pending) :
    Queued sources sourceIndex started scheduler' := by
  unfold Queued at h ⊢
  rw [hLoop]
  cases hAt : scheduler.loop with
  | arriving =>
    rw [hAt] at h
    exact ⟨hPending _ h.1, h.2⟩
  | waiting =>
    rw [hAt] at h
    exact ⟨hPending _ h.1, h.2⟩
  | draining active pointer =>
    rw [hAt] at h
    exact ⟨h.1.imp_left (hPending _), h.2⟩
  | picking active pointer =>
    rw [hAt] at h
    exact h.imp_right fun hWaits => ⟨hPending _ hWaits.1, hWaits.2⟩
  | acquiring active picked =>
    rw [hAt] at h
    exact h.imp_right fun hWaits => ⟨hWaits.1.imp_left (hPending _), hWaits.2⟩
  | slicing active picked =>
    rw [hAt] at h
    exact ⟨h.1.imp_left (hPending _), h.2⟩
  | publishing active picked =>
    rw [hAt] at h
    exact ⟨h.1.imp_left (hPending _), h.2⟩

/-- Picking another source leaves the waiting one nearer than those that started. -/
theorem Passed.next {pointer picked : Nat} {active : BTreeSet Nat}
    (h : Passed sources sourceIndex pointer started)
    (hPointer : pointer = 0 ∨ pointer < sources)
    (hActive : ∀ other ∈ active, other < sources) (hWaits : sourceIndex ∈ active)
    (hNext : nextSource active pointer = some picked) (hOther : picked ≠ sourceIndex) :
    picked ∉ started ∧ Passed sources sourceIndex ((picked + 1) % sources) started := by
  obtain ⟨hPicked, hNearest⟩ := nextSource_eq_some hNext hActive
  have hNearer : ahead sources pointer picked < ahead sources pointer sourceIndex := by
    refine lt_of_le_of_ne (hNearest sourceIndex hWaits) fun hEqual => hOther ?_
    exact ahead_inj hPointer (hActive picked hPicked) (hActive sourceIndex hWaits) hEqual
  refine ⟨fun hStarted => ?_, fun other hStarted => ⟨(h other hStarted).1, ?_⟩⟩
  · exact absurd (h picked hStarted).2 (by omega)
  · obtain ⟨hBound, hFarther⟩ := h other hStarted
    rw [ahead_next hPointer (hActive picked hPicked) (hActive sourceIndex hWaits) hNearer,
      ahead_next hPointer (hActive picked hPicked) hBound (hNearer.trans hFarther)]
    omega

/-- A step of the loop passes a queued source at most once for each other source. -/
theorem Queued.loop (h : Queued sources sourceIndex started scheduler)
    (hScheduled : Scheduled sources scheduler)
    (hEffect : LoopEffect sources scheduler event scheduler') :
    QueuedAfter sources sourceIndex started event scheduler' := by
  unfold Queued at h
  cases hEffect with
  | woken hLoop hPermit =>
    rw [hLoop] at h
    obtain ⟨hMem, rfl⟩ := h
    exact ⟨Or.inl hMem, passed_nil 0⟩
  | slept hLoop hPermit =>
    rw [hLoop] at h
    exact h
  | @drained active pointer hLoop =>
    rw [hLoop] at h
    exact Or.inl ⟨mem_takePending.mpr h.1, h.2⟩
  | @exhausted active pointer hLoop hNone =>
    rw [hLoop] at h
    rcases h with hActive | hWaits
    · exact absurd hActive.1 (nextSource_eq_none hNone sourceIndex)
    · exact hWaits
  | @picked active pointer other hLoop hNext =>
    have hActive := hScheduled.active
    have hPointer := hScheduled.pointer
    rw [hLoop] at h hActive hPointer
    by_cases hOwn : other = sourceIndex
    · exact Or.inl hOwn
    rcases h with ⟨hWaits, hPassed⟩ | ⟨hWaits, rfl⟩
    · obtain ⟨hNew, hAfter⟩ := hPassed.next hPointer hActive hWaits hNext hOwn
      refine Or.inr ⟨Or.inr ?_, hNew, hAfter⟩
      exact BTreeSet.mem_erase_iff.mpr ⟨fun hEqual => hOwn hEqual.symm, hWaits⟩
    · exact Or.inr ⟨Or.inl hWaits, List.not_mem_nil, passed_nil _⟩
  | @sliceStarted active other hLoop =>
    have hCurrent := hScheduled.current
    have hActive := hScheduled.active
    rw [hLoop] at h hCurrent hActive
    by_cases hOwn : other = sourceIndex
    · exact Or.inl hOwn
    rcases h with hOwn' | ⟨hWaits, hNew, hPassed⟩
    · exact absurd hOwn' hOwn
    have hOther : other < sources := hCurrent other rfl
    refine Or.inr ⟨hNew, hWaits, fun third hThird => ?_⟩
    rcases List.mem_cons.mp hThird with rfl | hStarted
    · have hBound : sourceIndex < sources :=
        hWaits.elim (hScheduled.pending sourceIndex) (hActive sourceIndex)
      exact ⟨hOther, ahead_lt_picked hOther hBound fun hEqual => hOwn hEqual.symm⟩
    · exact hPassed third hStarted
  | sliceEnded hLoop =>
    rw [hLoop] at h
    exact h
  | @finished active other continues hLoop =>
    rw [hLoop] at h
    refine ⟨h.1.imp_right fun hActive => ?_, h.2⟩
    split
    · exact BTreeSet.mem_insert_iff.mpr (Or.inr hActive)
    · exact hActive

theorem Queued.notify (h : Queued sources sourceIndex started scheduler) :
    Queued sources sourceIndex started scheduler.notifyOne := by
  unfold Scheduler.notifyOne
  split
  · next hWaiting =>
    unfold Queued at h
    rw [hWaiting] at h
    obtain ⟨hMem, rfl⟩ := h
    exact ⟨Or.inl hMem, passed_nil 0⟩
  · exact h.mono rfl fun _ hMem => hMem

/-- **One step keeps a queued source queued**, or starts it. -/
theorem Queued.step (h : Queued sources sourceIndex started scheduler)
    (hScheduled : Scheduled sources scheduler)
    (hStep : SchedulerStep sources scheduler event scheduler') :
    QueuedAfter sources sourceIndex started event scheduler' := by
  cases hStep with
  | insert hConfigured =>
    exact h.mono rfl fun _ hMem => BTreeSet.mem_insert_iff.mpr (Or.inr hMem)
  | notify hCaller =>
    exact Queued.notify (h.mono rfl fun _ hMem => hMem)
  | loop continues hStep => exact h.loop hScheduled (loopStep_effect hStep)

/-- Until its own slice starts a source goes on waiting, and no source starts two. -/
theorem Queued.run {trace : List SchedulerEvent}
    (h : Queued sources sourceIndex started scheduler) (hScheduled : Scheduled sources scheduler)
    (hRun : SchedulerRun sources scheduler trace scheduler')
    (hNone : SchedulerEvent.sliceStarted sourceIndex ∉ trace) :
    (slices trace).Nodup ∧ (∀ other ∈ slices trace, other ∉ started) ∧
      ∃ later, Queued sources sourceIndex later scheduler' := by
  induction hRun generalizing started with
  | refl => exact ⟨List.nodup_nil, by simp [slices], started, h⟩
  | @head scheduler mid last event trace hStep hRun ih =>
    rw [List.mem_cons, not_or] at hNone
    have hNext := h.step hScheduled hStep
    cases event with
    | sliceStarted other =>
      rcases hNext with rfl | ⟨hNew, hAfter⟩
      · exact absurd rfl hNone.1
      obtain ⟨hNodup, hApart, hLast⟩ := ih hAfter (hScheduled.step hStep) hNone.2
      have hFresh : other ∉ slices trace := fun hMem => hApart other hMem List.mem_cons_self
      refine ⟨List.nodup_cons.mpr ⟨hFresh, hNodup⟩, fun third hThird => ?_, hLast⟩
      rcases List.mem_cons.mp hThird with rfl | hLater
      · exact hNew
      · exact fun hStarted => hApart third hLater (List.mem_cons_of_mem other hStarted)
    | _ => exact ih hNext (hScheduled.step hStep) hNone.2

end Queue

theorem Queued.placed {sources sourceIndex : Nat} {started : List Nat} {scheduler : Scheduler}
    (h : Queued sources sourceIndex started scheduler) :
    sourceIndex ∈ scheduler.pending ∨ sourceIndex ∈ scheduler.loop.active ∨
      scheduler.loop.current = some sourceIndex := by
  unfold Queued at h
  cases hLoop : scheduler.loop with
  | arriving =>
    rw [hLoop] at h
    exact Or.inl h.1
  | waiting =>
    rw [hLoop] at h
    exact Or.inl h.1
  | draining active pointer =>
    rw [hLoop] at h
    exact h.1.imp_right Or.inl
  | picking active pointer =>
    rw [hLoop] at h
    rcases h with hActive | hPending
    · exact Or.inr (Or.inl hActive.1)
    · exact Or.inl hPending.1
  | acquiring active picked =>
    rw [hLoop] at h
    rcases h with rfl | ⟨hWaits, -⟩
    · exact Or.inr (Or.inr rfl)
    · exact hWaits.imp_right Or.inl
  | slicing active picked =>
    rw [hLoop] at h
    exact h.1.imp_right Or.inl
  | publishing active picked =>
    rw [hLoop] at h
    exact h.1.imp_right Or.inl

/-- A loop that will drain is awake. -/
theorem ClassificationLoop.WillDrain.isAwake {loop : ClassificationLoop} (h : loop.WillDrain) :
    loop.IsAwake := by
  constructor
  · rintro rfl
    exact h
  · rintro rfl
    exact h

-- ---------------------------------------------------------------------------
-- Stopped sources
-- ---------------------------------------------------------------------------

/-- Neither pending nor active nor picked. -/
structure Idle (sourceIndex : Nat) (scheduler : Scheduler) : Prop where
  pending : sourceIndex ∉ scheduler.pending
  active : sourceIndex ∉ scheduler.loop.active
  current : scheduler.loop.current ≠ some sourceIndex

section Stopped

variable {sources sourceIndex : Nat} {scheduler scheduler' : Scheduler} {event : SchedulerEvent}

/-- Only a call inserts a source. -/
theorem not_pending_step (h : sourceIndex ∉ scheduler.pending)
    (hStep : SchedulerStep sources scheduler event scheduler')
    (hOther : event ≠ .scheduled sourceIndex) : sourceIndex ∉ scheduler'.pending := by
  cases hStep with
  | @insert other hConfigured =>
    intro hMem
    rcases BTreeSet.mem_insert_iff.mp hMem with rfl | hWas
    · exact hOther rfl
    · exact h hWas
  | notify hCaller =>
    unfold Scheduler.notifyOne
    split
    · exact h
    · exact h
  | loop continues hStep =>
    cases loopStep_effect hStep with
    | drained hLoop => simp
    | _ => exact h

/-- A source that is not scheduled does not become pending. -/
theorem not_pending_run {trace : List SchedulerEvent} (h : sourceIndex ∉ scheduler.pending)
    (hRun : SchedulerRun sources scheduler trace scheduler')
    (hNone : SchedulerEvent.scheduled sourceIndex ∉ trace) :
    sourceIndex ∉ scheduler'.pending := by
  induction hRun with
  | refl => exact h
  | head hStep _ ih =>
    rw [List.mem_cons, not_or] at hNone
    exact ih (not_pending_step h hStep fun hEqual => hNone.1 hEqual.symm) hNone.2

/-- An idle source stays idle until it is scheduled. -/
theorem Idle.step (h : Idle sourceIndex scheduler)
    (hStep : SchedulerStep sources scheduler event scheduler')
    (hOther : event ≠ .scheduled sourceIndex) : Idle sourceIndex scheduler' := by
  have hPending := not_pending_step h.pending hStep hOther
  obtain ⟨hNot, hActive, hCurrent⟩ := h
  cases hStep with
  | insert hConfigured => exact ⟨hPending, hActive, hCurrent⟩
  | notify hCaller =>
    refine ⟨hPending, ?_, ?_⟩
    · unfold Scheduler.notifyOne
      split
      · simp [ClassificationLoop.awake, ClassificationLoop.active]
      · exact hActive
    · unfold Scheduler.notifyOne
      split
      · simp [ClassificationLoop.awake, ClassificationLoop.current]
      · exact hCurrent
  | loop continues hStep =>
    cases loopStep_effect hStep with
    | woken hLoop hPermit =>
      exact ⟨hPending, by simp [ClassificationLoop.awake, ClassificationLoop.active],
        by simp [ClassificationLoop.awake, ClassificationLoop.current]⟩
    | slept hLoop hPermit =>
      exact ⟨hPending, by simp [ClassificationLoop.active], by simp [ClassificationLoop.current]⟩
    | drained hLoop =>
      rw [hLoop] at hActive
      refine ⟨hPending, fun hMem => ?_, by simp [ClassificationLoop.current]⟩
      exact (mem_takePending.mp hMem).elim hNot hActive
    | exhausted hLoop hNone =>
      exact ⟨hPending, by simp [ClassificationLoop.active], by simp [ClassificationLoop.current]⟩
    | @picked active pointer other hLoop hNext =>
      rw [hLoop] at hActive
      refine ⟨hPending, fun hMem => hActive (BTreeSet.mem_erase_iff.mp hMem).2, fun hEqual => ?_⟩
      obtain rfl := Option.some.inj hEqual
      have hMem := mem_of_nextSource hNext
      exact hActive hMem
    | sliceStarted hLoop =>
      rw [hLoop] at hActive hCurrent
      exact ⟨hPending, hActive, hCurrent⟩
    | sliceEnded hLoop =>
      rw [hLoop] at hActive hCurrent
      exact ⟨hPending, hActive, hCurrent⟩
    | @finished active other continues hLoop =>
      rw [hLoop] at hActive hCurrent
      refine ⟨hPending, fun hMem => ?_, by simp [reinsert, ClassificationLoop.current]⟩
      simp only [reinsert, ClassificationLoop.active] at hMem
      split at hMem
      · rcases BTreeSet.mem_insert_iff.mp hMem with rfl | hWas
        · exact hCurrent rfl
        · exact hActive hWas
      · exact hActive hMem

/-- A run leaves an idle source idle until it is scheduled. -/
theorem Idle.run {trace : List SchedulerEvent} (h : Idle sourceIndex scheduler)
    (hRun : SchedulerRun sources scheduler trace scheduler')
    (hNone : SchedulerEvent.scheduled sourceIndex ∉ trace) : Idle sourceIndex scheduler' := by
  induction hRun with
  | refl => exact h
  | head hStep _ ih =>
    rw [List.mem_cons, not_or] at hNone
    exact ih (h.step hStep fun hEqual => hNone.1 hEqual.symm) hNone.2

/-- After a slice that stopped, a source that was not scheduled since is idle. -/
theorem idle_of_stopped (h : Scheduled sources scheduler) (hPending : sourceIndex ∉ scheduler.pending)
    (hStep : SchedulerStep sources scheduler (.finished sourceIndex false) scheduler') :
    Idle sourceIndex scheduler' := by
  have hLater := not_pending_step hPending hStep (by simp)
  cases hStep with
  | loop continues hStep =>
    cases loopStep_effect hStep with
    | @finished active _ _ hLoop =>
      have hApart := h.apart
      rw [hLoop] at hApart
      exact ⟨hLater, hApart sourceIndex rfl, by simp [reinsert, ClassificationLoop.current]⟩

/-- A slice that starts is that of the picked source. -/
theorem current_of_sliceStarted
    (hStep : SchedulerStep sources scheduler (.sliceStarted sourceIndex) scheduler') :
    scheduler.loop.current = some sourceIndex := by
  cases hStep with
  | loop continues hStep =>
    cases loopStep_effect hStep with
    | sliceStarted hLoop =>
      rw [hLoop]
      rfl

/-- A drain leaves nothing pending. -/
theorem not_pending_of_drained (hStep : SchedulerStep sources scheduler .drained scheduler') :
    sourceIndex ∉ scheduler'.pending := by
  cases hStep with
  | loop continues hStep =>
    cases loopStep_effect hStep with
    | drained hLoop => simp

end Stopped

-- ---------------------------------------------------------------------------
-- Fairness
-- ---------------------------------------------------------------------------

/-- Waiting with a wake-up to come, active, or picked and being sliced. What is pending
without a stored permit or an awake loop belongs to a call that is about to notify. -/
def Scheduler.Holds (scheduler : Scheduler) (sourceIndex : Nat) : Prop :=
  sourceIndex ∈ scheduler.pending ∧ (scheduler.permit = true ∨ scheduler.loop.IsAwake ∨
      sourceIndex ∈ scheduler.callers) ∨
    sourceIndex ∈ scheduler.loop.active ∨ scheduler.loop.current = some sourceIndex

/-- What holds of a queued source in a scheduler in order. -/
theorem Scheduled.holds {sources sourceIndex : Nat} {started : List Nat} {scheduler : Scheduler}
    (h : Scheduled sources scheduler) (hQueued : Queued sources sourceIndex started scheduler) :
    scheduler.Holds sourceIndex := by
  rcases hQueued.placed with hPending | hElsewhere
  · refine Or.inl ⟨hPending, ?_⟩
    rcases h.wakeful sourceIndex hPending with hPermit | hDrain | hCaller
    · exact Or.inl hPermit
    · exact Or.inr (Or.inl hDrain.isAwake)
    · exact Or.inr (Or.inr hCaller)
  · exact Or.inr hElsewhere

/-- A source waits from the moment it is scheduled or put back. -/
theorem queued_of_moment {sources sourceIndex : Nat} {scheduler scheduler' : Scheduler}
    {event : SchedulerEvent} (hStep : SchedulerStep sources scheduler event scheduler')
    (hMoment : event = .scheduled sourceIndex ∨ event = .finished sourceIndex true) :
    Queued sources sourceIndex [] scheduler' := by
  rcases hMoment with rfl | rfl
  · cases hStep with
    | insert hConfigured => exact queued_of_pending (BTreeSet.mem_insert_iff.mpr (Or.inl rfl))
    | loop continues hStep => cases loopStep_effect hStep
  · cases hStep with
    | loop continues hStep =>
      cases loopStep_effect hStep with
      | finished _ hLoop =>
        exact ⟨Or.inr (BTreeSet.mem_insert_iff.mpr (Or.inl rfl)), passed_nil _⟩

/-- **Scheduling is fair**: a scheduled source is never dropped, no other source is started twice
before it, and no source is started that was not scheduled. -/
theorem scheduling_fair {sources : Nat} {scheduler : Scheduler} {trace : List SchedulerEvent}
    (hRun : SchedulerRun sources {} trace scheduler) (sourceIndex : Nat) :
    (∀ before after, trace = before ++ .scheduled sourceIndex :: after →
      SchedulerEvent.sliceStarted sourceIndex ∉ after → scheduler.Holds sourceIndex) ∧
    (∀ before moment after, trace = before ++ moment :: after →
      moment = .scheduled sourceIndex ∨ moment = .finished sourceIndex true →
      SchedulerEvent.sliceStarted sourceIndex ∉ after → (slices after).Nodup) ∧
    ∀ before during after later, trace = before ++ .drained :: (during ++
      .finished sourceIndex false :: (after ++ .sliceStarted sourceIndex :: later)) →
      SchedulerEvent.scheduled sourceIndex ∈ during ++ after := by
  refine ⟨fun before after hTrace hNone => ?_, fun before moment after hTrace hMoment hNone => ?_,
    fun before during after later hTrace => ?_⟩
  · subst hTrace
    obtain ⟨_, reached, hBefore, hStep, hAfter⟩ := hRun.split_at
    have hReached := ((scheduled_start sources).run hBefore).step hStep
    obtain ⟨-, -, _, hQueued⟩ :=
      (queued_of_moment hStep (Or.inl rfl)).run hReached hAfter hNone
    exact (hReached.run hAfter).holds hQueued
  · subst hTrace
    obtain ⟨_, reached, hBefore, hStep, hAfter⟩ := hRun.split_at
    have hReached := ((scheduled_start sources).run hBefore).step hStep
    exact ((queued_of_moment hStep hMoment).run hReached hAfter hNone).1
  · subst hTrace
    by_contra hNone
    rw [List.mem_append, not_or] at hNone
    obtain ⟨_, drained, hBefore, hDrained, hRest⟩ := hRun.split_at
    obtain ⟨sliced, stopped, hDuring, hStopped, hRest⟩ := hRest.split_at
    obtain ⟨picked, _, hAfter, hSliced, -⟩ := hRest.split_at
    have hInvariant := (((scheduled_start sources).run hBefore).step hDrained).run hDuring
    have hPending : sourceIndex ∉ sliced.pending :=
      not_pending_run (not_pending_of_drained hDrained) hDuring hNone.1
    have hIdle := (idle_of_stopped hInvariant hPending hStopped).run hAfter hNone.2
    exact hIdle.current (current_of_sliceStarted hSliced)

section Sample

theorem loopStep_picking {sources pointer sourceIndex : Nat} {active : BTreeSet Nat}
    {scheduler : Scheduler} (continues : Bool) (hLoop : scheduler.loop = .picking active pointer)
    (hNext : nextSource active pointer = some sourceIndex) :
    loopStep sources continues scheduler = some
      ({ scheduler with loop := .acquiring (active.erase sourceIndex) sourceIndex },
        .picked (some sourceIndex)) := by
  unfold loopStep
  rw [hLoop]
  simp only [hNext]

/-- Two sources are scheduled, and the first one is sliced and put back before the
second call has notified. -/
theorem twoSources_run : ∃ scheduler, SchedulerRun 2 {}
    [.scheduled 0, .scheduled 1, .notified 0, .awaited, .drained, .picked (some 0),
      .sliceStarted 0, .sliceEnded 0, .finished 0 true] scheduler ∧ scheduler.callers = [1] := by
  refine LabelledRun.extend (.insert (by decide)) (LabelledRun.extend (.insert (by decide)) ?_)
  refine LabelledRun.extend (.notify (by decide)) ?_
  refine LabelledRun.extend (.loop true rfl) (LabelledRun.extend (.loop true rfl) ?_)
  refine LabelledRun.extend (.loop true (loopStep_picking true rfl (by decide))) ?_
  refine LabelledRun.extend (.loop true rfl) (LabelledRun.extend (.loop true rfl) ?_)
  refine LabelledRun.extend (.loop true rfl) ?_
  exact ⟨_, .refl, rfl⟩

/-- The sample run: two sources, one scheduled while the other is at work. -/
theorem scheduling_fair_twoSources : ∃ scheduler : Scheduler, scheduler.Holds 1 := by
  obtain ⟨scheduler, hRun, -⟩ := twoSources_run
  refine ⟨scheduler, (scheduling_fair hRun 1).1 [.scheduled 0] _ rfl ?_⟩
  decide

end Sample

end MempoolAtlas.Runtime
