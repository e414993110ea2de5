import MempoolAtlas.Lib.Greedy
import MempoolAtlas.Lib.Rings
import MempoolAtlas.Classification.PendingWindow
import MempoolAtlas.Classification.Waves

/-!
# Fair waves

What the waves select from a slice whose representation is sound: every open fact up to
the bound of the wave, once each, the candidates taking turns.

## Results

* `confirmedCourse_spec` — what any number of turns has taken.
* `fairConfirmedWave`, `boundedParentWave` — the two kinds of wave.
* `waves_fair` — what the waves of a represented slice select.
* `represented_run` — every slice a run comes to is represented.
-/

namespace MempoolAtlas.Classification

open Machine Model BitcoinCrate Rings

namespace PendingSlice

/-- **The representation invariant**, with the cursors of the candidates in their facts. -/
structure Represented (limits : ResolverLimits) (pending : PendingSlice) : Prop extends
    Window limits pending where
  placed : ∀ (key : String) candidate, pending.active[key]? = some candidate →
    PlacedCandidate candidate

/-- The outpoints a confirmed wave may select. -/
def openConfirmed (pending : PendingSlice) : List OutPoint :=
  (pending.facts.filter fun _ state => state.isOpenConfirmed).keys

variable {limits : ResolverLimits} {pending : PendingSlice} {maximum : Nat}

theorem mem_openConfirmed {outpoint : OutPoint} : outpoint ∈ pending.openConfirmed ↔
    ∃ state, pending.facts[outpoint]? = some state ∧ state.isOpenConfirmed = true := by
  rw [openConfirmed, BTreeMap.mem_keys_iff]
  simp only [Std.ExtTreeMap.getElem?_filter', Option.filter_eq_some_iff]

/-- No fact is open twice. -/
theorem openConfirmed_nodup (pending : PendingSlice) : pending.openConfirmed.Nodup :=
  BTreeMap.nodup_keys _

theorem openConfirmed_length_le (pending : PendingSlice) :
    pending.openConfirmed.length ≤ pending.facts.size := by
  rw [openConfirmed, Std.ExtTreeMap.length_keys]
  exact Std.ExtTreeMap.size_filter_le_size

theorem Represented.fairOrder_nodup (h : Represented limits pending) :
    pending.fairOrder.Nodup :=
  h.fairOrder.symm.nodup (BTreeMap.nodup_keys _)

theorem Represented.mem_fairOrder (h : Represented limits pending) {key : String}
    {candidate : PendingCandidate} (hActive : pending.active[key]? = some candidate) :
    key ∈ pending.fairOrder :=
  h.fairOrder.mem_iff.mpr (BTreeMap.mem_keys_iff.mpr ⟨candidate, hActive⟩)

-- ---------------------------------------------------------------------------
-- Turns of a confirmed wave
-- ---------------------------------------------------------------------------

/-- A confirmed wave of the slice after some turns. -/
def confirmedCourse (pending : PendingSlice) (maximum turns : Nat) : Wave ConfirmedSelection :=
  (Wave.visit (confirmedRules maximum))^[turns] { pending, selection := {} }

/-- What the turns of a confirmed wave have done to the slice. -/
structure ConfirmedCourse (pending : PendingSlice) (maximum turns : Nat)
    (wave : Wave ConfirmedSelection) : Prop where
  nodup : wave.selection.selected.Nodup
  awaited : ∀ outpoint ∈ wave.selection.selected, outpoint ∈ pending.openConfirmed
  outpoints : ∀ outpoint : OutPoint, outpoint ∈ wave.selection.selectedOutpoints ↔
    outpoint ∈ wave.selection.selected
  full : wave.isFull = decide (maximum ≤ wave.selection.selected.length)
  facts : ∀ outpoint : OutPoint, wave.pending.facts[outpoint]? =
    if outpoint ∈ wave.selection.selected then pending.facts[outpoint]?.map FactState.attempted
    else pending.facts[outpoint]?
  active : ∀ key : String, Option.Rel SameCandidate pending.active[key]? wave.pending.active[key]?
  placed : ∀ (key : String) candidate, wave.pending.active[key]? = some candidate →
    PlacedCandidate candidate
  fairOrder : wave.pending.fairOrder = pending.fairOrder.rotate turns
  frame : wave.pending = { pending with
    facts := wave.pending.facts
    active := wave.pending.active
    fairOrder := wave.pending.fairOrder }

/-- The course before the first turn. -/
theorem confirmedCourse_zero (h : Represented limits pending) (hMaximum : maximum ≠ 0) :
    ConfirmedCourse pending maximum 0 (pending.confirmedCourse maximum 0) where
  nodup := List.nodup_nil
  awaited outpoint hMem := absurd hMem List.not_mem_nil
  outpoints outpoint := by
    show outpoint ∈ (∅ : BTreeSet OutPoint) ↔ outpoint ∈ []
    simp
  full := by
    show false = decide (maximum ≤ 0)
    simp [hMaximum]
  facts outpoint := by
    show pending.facts[outpoint]? = if outpoint ∈ [] then _ else _
    rw [if_neg List.not_mem_nil]
  active key := rel_refl SameCandidate.refl _
  placed := h.placed
  fairOrder := (List.rotate_zero _).symm
  frame := rfl

/-- Turning a cursor. -/
theorem insert_cursor_same {active active' : BTreeMap String PendingCandidate}
    (h : ∀ key : String, Option.Rel SameCandidate active[key]? active'[key]?) {key : String}
    {candidate : PendingCandidate} (hActive : active'[key]? = some candidate) (factCursor : Nat)
    (other : String) : Option.Rel SameCandidate active[other]?
      (active'.insert key { candidate with factCursor })[other]? := by
  rw [BTreeMap.getElem?_insert_eq]
  split
  · next hEq =>
    have hRel := h key
    rw [hActive] at hRel
    rw [← hEq]
    exact @rel_trans _ SameCandidate (fun _ _ _ => SameCandidate.trans) _ _ _ hRel
      (.some ⟨rfl, rfl, rfl⟩)
  · exact h other

theorem ConfirmedCourse.placed_cursor {turns : Nat} {wave : Wave ConfirmedSelection}
    (h : ConfirmedCourse pending maximum turns wave) {key : String}
    {candidate : PendingCandidate} (hActive : wave.pending.active[key]? = some candidate)
    {factCursor : Nat} (hCursor : factCursor < candidate.required.length) (other : String)
    (candidate' : PendingCandidate)
    (hGet : (wave.pending.active.insert key { candidate with factCursor })[other]? =
      some candidate') : PlacedCandidate candidate' := by
  rw [BTreeMap.getElem?_insert_eq] at hGet
  split at hGet
  · obtain rfl := Option.some.inj hGet
    exact ⟨Nat.le_of_lt hCursor, (h.placed key candidate hActive).length_le⟩
  · exact h.placed other candidate' hGet

/-- A fact the wave may still select was open at its start. -/
theorem ConfirmedCourse.eligible {turns : Nat} {wave : Wave ConfirmedSelection}
    (h : ConfirmedCourse pending maximum turns wave) {outpoint : OutPoint} :
    (∃ state, wave.pending.facts[outpoint]? = some state ∧
        (confirmedRules maximum).eligible wave.selection outpoint state = true) ↔
      outpoint ∈ pending.openConfirmed ∧ outpoint ∉ wave.selection.selected := by
  have hEligible : ∀ state, (confirmedRules maximum).eligible wave.selection outpoint state = true ↔
      state.isOpenConfirmed = true ∧ outpoint ∉ wave.selection.selected := by
    intro state
    rw [← h.outpoints outpoint]
    simp [confirmedRules, ← Std.ExtTreeSet.contains_iff_mem]
  simp only [hEligible, mem_openConfirmed]
  rw [h.facts outpoint]
  constructor
  · rintro ⟨state, hGet, hOpen, hFresh⟩
    rw [if_neg hFresh] at hGet
    exact ⟨⟨state, hGet, hOpen⟩, hFresh⟩
  · rintro ⟨⟨state, hGet, hOpen⟩, hFresh⟩
    rw [if_neg hFresh]
    exact ⟨state, hGet, hOpen, hFresh⟩

/-- A turn of a confirmed wave: the front candidate has nothing left to select, or one of
its open facts is selected. -/
structure Passes (pending : PendingSlice) (wave wave' : Wave ConfirmedSelection) : Prop where
  selection : wave'.selection = wave.selection
  nothing : ∀ (key : String) candidate, wave.pending.fairOrder.head? = some key →
    wave.pending.active[key]? = some candidate → ∀ outpoint ∈ candidate.required,
    outpoint ∈ pending.openConfirmed → outpoint ∈ wave.selection.selected

/-- A turn selects a fact of the candidate whose turn it is. -/
structure Selects (pending : PendingSlice) (wave wave' : Wave ConfirmedSelection) (key : String)
    (outpoint : OutPoint) : Prop where
  turn : wave.pending.fairOrder.head? = some key
  required : ∃ candidate, wave.pending.active[key]? = some candidate ∧
    outpoint ∈ candidate.required
  open_fact : outpoint ∈ pending.openConfirmed
  fresh : outpoint ∉ wave.selection.selected
  selected : wave'.selection.selected = wave.selection.selected ++ [outpoint]

/-- **One turn of a confirmed wave**: it passes, or selects one fact. -/
theorem ConfirmedCourse.visit {turns : Nat} {wave : Wave ConfirmedSelection}
    (h : ConfirmedCourse pending maximum turns wave) :
    ConfirmedCourse pending maximum (turns + 1) (wave.visit (confirmedRules maximum)) ∧
      (Passes pending wave (wave.visit (confirmedRules maximum)) ∨
        ∃ key outpoint, Selects pending wave (wave.visit (confirmedRules maximum)) key outpoint) := by
  have hRotate : (Wave.turned wave.pending).fairOrder = pending.fairOrder.rotate (turns + 1) := by
    show wave.pending.fairOrder.rotate 1 = _
    rw [h.fairOrder, List.rotate_rotate]
  have hFrame : Wave.turned wave.pending = { pending with
      facts := wave.pending.facts
      active := wave.pending.active
      fairOrder := wave.pending.fairOrder.rotate 1 } := by
    rw [Wave.turned, h.frame]
  have hTurned : ConfirmedCourse pending maximum (turns + 1)
      { wave with pending := Wave.turned wave.pending } :=
    { h with
      fairOrder := hRotate
      frame := hFrame }
  generalize hVisit : wave.visit (confirmedRules maximum) = visited
  cases hVisit ▸ Wave.turn (confirmedRules maximum) wave with
  | nobody hOrder =>
    refine ⟨{ h with fairOrder := ?_ }, Or.inl ⟨rfl, fun key candidate hHead => ?_⟩⟩
    · rw [hOrder, ← hRotate]
      show [] = wave.pending.fairOrder.rotate 1
      rw [hOrder, List.rotate_nil]
    · rw [hOrder] at hHead
      cases hHead
  | gone hHead hGone =>
    refine ⟨hTurned, Or.inl ⟨rfl, fun key candidate hKey hActive => ?_⟩⟩
    obtain rfl := Option.some.inj (hHead.symm.trans hKey)
    rw [hGone] at hActive
    cases hActive
  | @idle front candidate hHead hActive hNext =>
    refine ⟨hTurned, Or.inl ⟨rfl, fun key candidate' hKey hActive' outpoint hRequired hOpen => ?_⟩⟩
    obtain rfl := Option.some.inj (hHead.symm.trans hKey)
    obtain rfl := Option.some.inj (hActive.symm.trans hActive')
    by_contra hFresh
    obtain ⟨state, hState, hEligible⟩ := h.eligible.mpr ⟨hOpen, hFresh⟩
    rw [nextCandidateFact_eq_none (h.placed front candidate hActive) hNext hRequired hState]
      at hEligible
    cases hEligible
  | skipped hHead hActive hNext hPending hTake => cases hTake
  | @served front candidate outpoint factCursor taken taken' selection hHead hActive hNext hPending
      hTake =>
    obtain ⟨hRequired, hEligible, hCursor⟩ := nextCandidateFact_eq_some hNext
    obtain ⟨hOpen, hFresh⟩ := h.eligible.mp hEligible
    obtain ⟨rfl, rfl⟩ := Prod.mk.inj (Option.some.inj hTake)
    subst hPending
    refine ⟨{
      nodup := ?_, awaited := ?_, outpoints := ?_, full := rfl, facts := ?_
      active := insert_cursor_same h.active hActive factCursor
      placed := h.placed_cursor hActive hCursor, fairOrder := hRotate, frame := ?_ },
        Or.inr ⟨front, outpoint, hHead, ⟨candidate, hActive, hRequired⟩, hOpen, hFresh, rfl⟩⟩
    · exact List.nodup_append.mpr ⟨h.nodup, List.nodup_singleton _, fun a hA b hB => by
        rw [List.mem_singleton.mp hB]
        exact fun hEq => hFresh (hEq ▸ hA)⟩
    · intro other hMem
      rcases List.mem_append.mp hMem with hBefore | hNow
      · exact h.awaited other hBefore
      · rw [List.mem_singleton.mp hNow]
        exact hOpen
    · intro other
      show other ∈ wave.selection.selectedOutpoints.insert outpoint ↔
        other ∈ wave.selection.selected ++ [outpoint]
      rw [BTreeSet.mem_insert_iff, List.mem_append, List.mem_singleton, h.outpoints other, or_comm]
    · intro other
      show (wave.pending.facts.modify outpoint FactState.attempted)[other]? =
        if other ∈ wave.selection.selected ++ [outpoint] then _ else _
      rw [Std.ExtTreeMap.getElem?_modify]
      split
      · next hEq =>
        obtain rfl := Std.LawfulEqCmp.compare_eq_iff_eq.mp hEq
        rw [h.facts, if_neg hFresh, if_pos (List.mem_append_right _ (List.mem_singleton_self _))]
      · next hNe =>
        have hOther : other ≠ outpoint := by
          rintro rfl
          exact hNe Std.ReflCmp.compare_self
        simp only [List.mem_append, List.mem_singleton, hOther, or_false]
        exact h.facts other
    · show PendingSlice.recordFactAttempt _ outpoint = _
      rw [recordFactAttempt, hFrame]

theorem confirmedCourse_succ (pending : PendingSlice) (maximum turns : Nat) :
    pending.confirmedCourse maximum (turns + 1) =
      (pending.confirmedCourse maximum turns).visit (confirmedRules maximum) := by
  rw [confirmedCourse, Function.iterate_succ_apply']
  rfl

/-- **Any number of turns** keeps the course. -/
theorem confirmedCourse_spec (h : Represented limits pending) (hMaximum : maximum ≠ 0)
    (turns : Nat) :
    ConfirmedCourse pending maximum turns (pending.confirmedCourse maximum turns) := by
  induction turns with
  | zero => exact confirmedCourse_zero h hMaximum
  | succ turns ih =>
    rw [confirmedCourse_succ]
    exact ih.visit.1

/-- A turn passes or selects. -/
theorem confirmedCourse_turn (h : Represented limits pending) (hMaximum : maximum ≠ 0)
    (turns : Nat) :
    Passes pending (pending.confirmedCourse maximum turns)
        (pending.confirmedCourse maximum (turns + 1)) ∨
      ∃ key outpoint, Selects pending (pending.confirmedCourse maximum turns)
        (pending.confirmedCourse maximum (turns + 1)) key outpoint := by
  rw [confirmedCourse_succ]
  exact (confirmedCourse_spec h hMaximum turns).visit.2

/-- What is selected stays selected. -/
theorem confirmedCourse_keeps (h : Represented limits pending) (hMaximum : maximum ≠ 0)
    {turn later : Nat} (hLater : turn ≤ later) :
    (pending.confirmedCourse maximum turn).selection.selected <+:
      (pending.confirmedCourse maximum later).selection.selected := by
  induction later, hLater using Nat.le_induction with
  | base => exact List.prefix_refl _
  | succ later _ ih =>
    rcases confirmedCourse_turn h hMaximum later with hPasses | ⟨key, outpoint, hSelects⟩
    · rw [hPasses.selection]
      exact ih
    · rw [hSelects.selected]
      exact ih.trans (List.prefix_append _ _)

/-- The candidate has an open fact that the wave has not selected so far. -/
def Wants (pending : PendingSlice) (selected : List OutPoint) (key : String) : Prop :=
  ∃ candidate, pending.active[key]? = some candidate ∧
    ∃ outpoint ∈ candidate.required, outpoint ∈ pending.openConfirmed ∧ outpoint ∉ selected

/-- At its turn, a candidate that wants a fact gets one. -/
theorem selects_of_wants (h : Represented limits pending) (hMaximum : maximum ≠ 0) {turn : Nat}
    {key : String}
    (hTurn : (pending.confirmedCourse maximum turn).pending.fairOrder.head? = some key)
    (hWants : pending.Wants (pending.confirmedCourse maximum turn).selection.selected key) :
    ∃ outpoint, Selects pending (pending.confirmedCourse maximum turn)
      (pending.confirmedCourse maximum (turn + 1)) key outpoint := by
  obtain ⟨candidate, hActive, wanted, hRequired, hOpen, hFresh⟩ := hWants
  rcases confirmedCourse_turn h hMaximum turn with hPasses | ⟨front, outpoint, hSelects⟩
  · have hRel := (confirmedCourse_spec h hMaximum turn).active key
    rw [hActive] at hRel
    cases hNow : (pending.confirmedCourse maximum turn).pending.active[key]? with
    | none =>
      rw [hNow] at hRel
      cases hRel
    | some candidate' =>
      rw [hNow] at hRel
      cases hRel with
      | some hSame =>
        exact absurd (hPasses.nothing key candidate' hTurn hNow wanted
          (hSame.required ▸ hRequired) hOpen) hFresh
  · obtain rfl := Option.some.inj (hTurn.symm.trans hSelects.turn)
    exact ⟨outpoint, hSelects⟩

-- ---------------------------------------------------------------------------
-- The confirmed wave
-- ---------------------------------------------------------------------------

/-- How the candidates take turns in a confirmed wave: the wave is what some turns leave,
between two turns that serve a candidate everybody who wants a fact is served, and a wave
that its bound cuts off ends behind the candidate it has just served. -/
structure RoundRobin (pending : PendingSlice) (maximum turns : Nat) (selected : List OutPoint)
    (pending' : PendingSlice) : Prop where
  selected_eq : (pending.confirmedCourse maximum turns).selection.selected = selected
  pending_eq : (pending.confirmedCourse maximum turns).pending = pending'
  fairOrder : pending'.fairOrder = pending.fairOrder.rotate turns
  each_turn : ∀ turn < turns,
    (pending.confirmedCourse maximum (turn + 1)).selection =
        (pending.confirmedCourse maximum turn).selection ∨
      ∃ key outpoint, Selects pending (pending.confirmedCourse maximum turn)
        (pending.confirmedCourse maximum (turn + 1)) key outpoint
  fair : ∀ (first later : Nat) (key : String) (outpoint outpoint' : OutPoint),
    first < later → later < turns →
    Selects pending (pending.confirmedCourse maximum first)
      (pending.confirmedCourse maximum (first + 1)) key outpoint →
    Selects pending (pending.confirmedCourse maximum later)
      (pending.confirmedCourse maximum (later + 1)) key outpoint' →
    ∀ other, other ≠ key →
      pending.Wants (pending.confirmedCourse maximum later).selection.selected other →
      ∃ middle outpoint'', first < middle ∧ middle < later ∧
        Selects pending (pending.confirmedCourse maximum middle)
          (pending.confirmedCourse maximum (middle + 1)) other outpoint''
  cut_off : selected ≠ [] → selected.length = maximum → ∃ last key outpoint rest, turns = last + 1 ∧
    Selects pending (pending.confirmedCourse maximum last)
      (pending.confirmedCourse maximum (last + 1)) key outpoint ∧
    (pending.confirmedCourse maximum last).pending.fairOrder = key :: rest ∧
    pending'.fairOrder = rest ++ [key]

/-- What a confirmed wave selects and what it leaves. -/
structure FairConfirmedWave (limits : ResolverLimits) (pending : PendingSlice)
    (selected : List OutPoint) (pending' : PendingSlice) : Prop where
  nodup : selected.Nodup
  asked : ∀ outpoint ∈ selected, ∃ source attempts,
    pending.facts[outpoint]? = some (.awaiting source attempts) ∧ source ≠ .currentParent ∧
      attempts < maxFactAttemptsPerSourcePerWindow ∧
      pending'.facts[outpoint]? = some (.awaiting source (attempts + 1))
  others : ∀ outpoint ∉ selected, pending'.facts[outpoint]? = pending.facts[outpoint]?
  length : selected.length =
    min (pending.confirmedWaveMaximum limits) pending.openConfirmed.length
  active : ∀ key : String, Option.Rel SameCandidate pending.active[key]? pending'.active[key]?
  frame : pending' = { pending with
    facts := pending'.facts
    active := pending'.active
    fairOrder := pending'.fairOrder }
  round_robin : ∃ turns,
    RoundRobin pending (pending.confirmedWaveMaximum limits) turns selected pending'

/-- Between two selections for one candidate there is one for every other that still wants a
fact. -/
theorem course_fair (h : Represented limits pending) (hMaximum : maximum ≠ 0)
    {first later : Nat} {key : String} {outpoint outpoint' : OutPoint} (hLater : first < later)
    (hFirst : Selects pending (pending.confirmedCourse maximum first)
      (pending.confirmedCourse maximum (first + 1)) key outpoint)
    (hAgain : Selects pending (pending.confirmedCourse maximum later)
      (pending.confirmedCourse maximum (later + 1)) key outpoint')
    {other : String} (hNe : other ≠ key)
    (hWants : pending.Wants (pending.confirmedCourse maximum later).selection.selected other) :
    ∃ middle outpoint'', first < middle ∧ middle < later ∧
      Selects pending (pending.confirmedCourse maximum middle)
        (pending.confirmedCourse maximum (middle + 1)) other outpoint'' := by
  have hOrder := fun turn => (confirmedCourse_spec h hMaximum turn).fairOrder
  obtain ⟨candidate, hActive, wanted, hRequired, hOpen, hFresh⟩ := hWants
  obtain ⟨middle, hAfter, hBefore, hTurn⟩ := exists_turn_between h.fairOrder_nodup hLater
    (hOrder first ▸ hFirst.turn) (hOrder later ▸ hAgain.turn) (h.mem_fairOrder hActive) hNe
  have hStill : pending.Wants (pending.confirmedCourse maximum middle).selection.selected other :=
    ⟨candidate, hActive, wanted, hRequired, hOpen, fun hMem =>
      hFresh ((confirmedCourse_keeps h hMaximum (Nat.le_of_lt hBefore)).subset hMem)⟩
  obtain ⟨outpoint'', hSelects⟩ :=
    selects_of_wants h hMaximum ((hOrder middle).symm ▸ hTurn) hStill
  exact ⟨middle, outpoint'', hAfter, hBefore, hSelects⟩

/-- The turn that fills the wave is the last. -/
theorem course_cut_off (h : Represented limits pending) (hMaximum : maximum ≠ 0) {turns : Nat}
    (hOpen : ∀ i < turns, (pending.confirmedCourse maximum i).isFull = false)
    (hLength : (pending.confirmedCourse maximum turns).selection.selected.length = maximum) :
    ∃ last key outpoint rest, turns = last + 1 ∧
      Selects pending (pending.confirmedCourse maximum last)
        (pending.confirmedCourse maximum (last + 1)) key outpoint ∧
      (pending.confirmedCourse maximum last).pending.fairOrder = key :: rest ∧
      (pending.confirmedCourse maximum turns).pending.fairOrder = rest ++ [key] := by
  cases turns with
  | zero => exact absurd hLength.symm hMaximum
  | succ last =>
    have hBefore := hOpen last (Nat.lt_succ_self last)
    rw [(confirmedCourse_spec h hMaximum last).full] at hBefore
    rcases confirmedCourse_turn h hMaximum last with hPasses | ⟨key, outpoint, hSelects⟩
    · rw [hPasses.selection] at hLength
      simp [hLength] at hBefore
    · obtain ⟨rest, hRest⟩ := List.head?_eq_some_iff.mp hSelects.turn
      refine ⟨last, key, outpoint, rest, rfl, hSelects, hRest, ?_⟩
      rw [(confirmedCourse_spec h hMaximum (last + 1)).fairOrder, ← List.rotate_rotate,
        ← (confirmedCourse_spec h hMaximum last).fairOrder, hRest, List.rotate_cons_succ,
        List.rotate_zero]

/-- A wave that is not full and has taken nothing for a whole round has left nothing. -/
theorem course_idle (h : Represented limits pending) (hMaximum : maximum ≠ 0) {start turns : Nat}
    (hRound : turns = start + (pending.confirmedCourse maximum start).pending.fairOrder.length)
    (hIdle : ∀ i, start ≤ i → i ≤ turns → (pending.confirmedCourse maximum i).selection =
      (pending.confirmedCourse maximum start).selection) {outpoint : OutPoint}
    (hOpen : outpoint ∈ pending.openConfirmed) :
    outpoint ∈ (pending.confirmedCourse maximum turns).selection.selected := by
  by_contra hFresh
  have hOrder := fun turn => (confirmedCourse_spec h hMaximum turn).fairOrder
  obtain ⟨state, hState, -⟩ := mem_openConfirmed.mp hOpen
  obtain ⟨key, candidate, hActive, hRequired⟩ :=
    (h.facts outpoint).mp (Std.ExtTreeMap.mem_iff_isSome_getElem?.mpr (by rw [hState]; rfl))
  obtain ⟨turn, hFrom, hBefore, hTurn⟩ := exists_turn (h.mem_fairOrder hActive) start
  rw [hOrder, List.length_rotate] at hRound
  have hWithin : turn < turns := hRound ▸ hBefore
  have hSame : (pending.confirmedCourse maximum turn).selection =
      (pending.confirmedCourse maximum turns).selection :=
    (hIdle turn hFrom (Nat.le_of_lt hWithin)).trans
      (hIdle turns (by omega) (Nat.le_refl turns)).symm
  have hWants : pending.Wants (pending.confirmedCourse maximum turn).selection.selected key :=
    ⟨candidate, hActive, outpoint, hRequired, hOpen, hSame ▸ hFresh⟩
  obtain ⟨taken, hSelects⟩ := selects_of_wants h hMaximum ((hOrder turn).symm ▸ hTurn) hWants
  have hAfter := hSelects.selected
  rw [hIdle (turn + 1) (by omega) hWithin, hIdle turn hFrom (Nat.le_of_lt hWithin)] at hAfter
  have hLength := congrArg List.length hAfter
  rw [List.length_append, List.length_singleton] at hLength
  omega

theorem confirmedRules_grows (maximum : Nat) :
    Wave.Grows (confirmedRules maximum) fun selection => selection.selected.length := by
  intro outpoint pending pending' selection selection' hTake
  obtain ⟨-, rfl⟩ := Prod.mk.inj (Option.some.inj hTake)
  show selection.selected.length < (selection.selected ++ [outpoint]).length
  rw [List.length_append, List.length_singleton]
  exact Nat.lt_succ_self _

/-- A wave selects no more than is open. -/
theorem ConfirmedCourse.length_le {turns : Nat} {wave : Wave ConfirmedSelection}
    (h : ConfirmedCourse pending maximum turns wave) :
    wave.selection.selected.length ≤ pending.openConfirmed.length :=
  (List.subperm_of_subset h.nodup h.awaited).length_le

/-- A selected fact has been attempted once more. -/
theorem ConfirmedCourse.asked {turns : Nat} {wave : Wave ConfirmedSelection}
    (h : ConfirmedCourse pending maximum turns wave) {outpoint : OutPoint}
    (hMem : outpoint ∈ wave.selection.selected) : ∃ source attempts,
    pending.facts[outpoint]? = some (.awaiting source attempts) ∧ source ≠ .currentParent ∧
      attempts < maxFactAttemptsPerSourcePerWindow ∧
      wave.pending.facts[outpoint]? = some (.awaiting source (attempts + 1)) := by
  obtain ⟨state, hState, hOpen⟩ := mem_openConfirmed.mp (h.awaited outpoint hMem)
  have hAfter := h.facts outpoint
  rw [if_pos hMem, hState, Option.map_some] at hAfter
  have hOnce : ∀ {attempts : Nat}, attempts < maxFactAttemptsPerSourcePerWindow →
      min (attempts + 1) 255 = attempts + 1 := by
    intro attempts hLt
    unfold maxFactAttemptsPerSourcePerWindow at hLt
    omega
  match state, hOpen with
  | .awaiting .confirmed attempts, hOpen =>
    have hLt : attempts < maxFactAttemptsPerSourcePerWindow := of_decide_eq_true hOpen
    refine ⟨.confirmed, attempts, hState, by simp, hLt, ?_⟩
    rw [hAfter, FactState.attempted, hOnce hLt]
  | .awaiting .parentFallback attempts, hOpen =>
    have hLt : attempts < maxFactAttemptsPerSourcePerWindow := of_decide_eq_true hOpen
    refine ⟨.parentFallback, attempts, hState, by simp, hLt, ?_⟩
    rw [hAfter, FactState.attempted, hOnce hLt]

/-- The length of the selection while the wave goes on, and after its last turn. -/
theorem course_length_le (h : Represented limits pending) (hMaximum : maximum ≠ 0) {turns : Nat}
    (hOpen : ∀ i < turns, (pending.confirmedCourse maximum i).isFull = false) :
    (pending.confirmedCourse maximum turns).selection.selected.length ≤ maximum := by
  cases turns with
  | zero => exact Nat.zero_le _
  | succ last =>
    have hBefore := hOpen last (Nat.lt_succ_self last)
    rw [(confirmedCourse_spec h hMaximum last).full, decide_eq_false_iff_not, not_le] at hBefore
    rcases confirmedCourse_turn h hMaximum last with hPasses | ⟨key, outpoint, hSelects⟩
    · rw [hPasses.selection]
      exact Nat.le_of_lt hBefore
    · rw [hSelects.selected, List.length_append, List.length_singleton]
      exact hBefore

/-- What `select` leaves is what some turns leave: the wave is full, or nothing is left. -/
theorem exists_confirmedCourse (h : Represented limits pending) (hMaximum : maximum ≠ 0) :
    ∃ turns, ((Wave.select (confirmedRules maximum) pending {}).pending =
          (pending.confirmedCourse maximum turns).pending ∧
        (Wave.select (confirmedRules maximum) pending {}).selection =
          (pending.confirmedCourse maximum turns).selection) ∧
      (∀ i < turns, (pending.confirmedCourse maximum i).isFull = false) ∧
      (pending.confirmedCourse maximum turns).selection.selected.length =
        min maximum pending.openConfirmed.length := by
  obtain ⟨turns, hTurns⟩ := Wave.exists_roundsOf (confirmedRules_grows maximum)
    (pending.facts.size + 1) { pending, selection := {} }
  have hCore : (Wave.select (confirmedRules maximum) pending {}).core =
      (pending.confirmedCourse maximum turns).core := hTurns.eq_iterate
  have hCourse := confirmedCourse_spec h hMaximum turns
  have hFull : (Wave.select (confirmedRules maximum) pending {}).isFull =
      (pending.confirmedCourse maximum turns).isFull := congrArg (fun core => core.2.2) hCore
  have hLe := course_length_le h hMaximum hTurns.open_before
  refine ⟨turns, ⟨congrArg (fun core => core.1) hCore, congrArg (fun core => core.2.1) hCore⟩,
    hTurns.open_before, ?_⟩
  have hOpen := hCourse.length_le
  rcases hTurns.ended with hDone | ⟨start, hRound, hIdle⟩ | hSpent
  · have hEnough := hCourse.full.symm.trans (hFull.symm.trans hDone)
    rw [decide_eq_true_eq] at hEnough
    omega
  · have hAll : pending.openConfirmed.length ≤
        (pending.confirmedCourse maximum turns).selection.selected.length :=
      (List.subperm_of_subset pending.openConfirmed_nodup
        fun outpoint hMem => course_idle h hMaximum hRound hIdle hMem).length_le
    omega
  · have hFacts := pending.openConfirmed_length_le
    have hMany : 0 + (pending.facts.size + 1) ≤
        (pending.confirmedCourse maximum turns).selection.selected.length := hSpent
    omega

/-- **A confirmed wave is fair.** -/
theorem fairConfirmedWave (h : Represented limits pending) :
    FairConfirmedWave limits pending (pending.nextConfirmedWave limits).1
      (pending.nextConfirmedWave limits).2 := by
  by_cases hMaximum : pending.confirmedWaveMaximum limits = 0
  · have hNone : pending.nextConfirmedWave limits = ([], pending) := by
      rw [nextConfirmedWave, if_pos hMaximum]
    rw [hNone]
    refine ⟨List.nodup_nil, fun outpoint hMem => absurd hMem List.not_mem_nil, fun _ _ => rfl, ?_,
      fun key => rel_refl SameCandidate.refl _, rfl, 0, rfl, rfl, (List.rotate_zero _).symm, ?_, ?_,
      fun hNonempty => absurd rfl hNonempty⟩
    · rw [hMaximum, Nat.zero_min]
      rfl
    · exact fun turn hLt => (Nat.not_lt_zero turn hLt).elim
    · exact fun first later key outpoint outpoint' _ hLt => (Nat.not_lt_zero later hLt).elim
  · obtain ⟨turns, ⟨hPending, hSelection⟩, hOpen, hLength⟩ := exists_confirmedCourse h hMaximum
    have hCourse := confirmedCourse_spec h hMaximum turns
    have hWave : pending.nextConfirmedWave limits =
        ((pending.confirmedCourse (pending.confirmedWaveMaximum limits) turns).selection.selected,
          (pending.confirmedCourse (pending.confirmedWaveMaximum limits) turns).pending) := by
      rw [nextConfirmedWave, if_neg hMaximum, ← hPending, ← hSelection]
    rw [hWave]
    exact {
      nodup := hCourse.nodup
      asked := fun outpoint hMem => hCourse.asked hMem
      others := fun outpoint hOther => by rw [hCourse.facts, if_neg hOther]
      length := hLength
      active := hCourse.active
      frame := hCourse.frame
      round_robin := ⟨turns, {
        selected_eq := rfl
        pending_eq := rfl
        fairOrder := hCourse.fairOrder
        each_turn := fun turn _ => (confirmedCourse_turn h hMaximum turn).imp
          Passes.selection id
        fair := fun first later key outpoint outpoint' hLater _ hFirst hAgain other hNe hWants =>
          course_fair h hMaximum hLater hFirst hAgain hNe hWants
        cut_off := fun _ hFull => course_cut_off h hMaximum hOpen hFull }⟩ }

-- ---------------------------------------------------------------------------
-- The parent wave
-- ---------------------------------------------------------------------------

section ParentWave

variable [BitcoinCrate] {variants : BTreeMap Txid CurrentVariant}

theorem txidToString_injective {txid txid' : Txid}
    (h : BitcoinCrate.txidToString txid = BitcoinCrate.txidToString txid') : txid = txid' := by
  have hParsed := congrArg BitcoinCrate.txidFromStr h
  rw [BitcoinCrate.txidFromStr_txidToString, BitcoinCrate.txidFromStr_txidToString] at hParsed
  exact Option.some.inj hParsed

/-- A fact of a selected parent that awaits its raw transaction. -/
def Asked (selected : List ExpectedVariant) (outpoint : OutPoint) (state : FactState) : Prop :=
  BitcoinCrate.txidToString outpoint.txid ∈ selected.map ExpectedVariant.txid ∧
    state.isParentAwaiting = true

instance (selected : List ExpectedVariant) (outpoint : OutPoint) (state : FactState) :
    Decidable (Asked selected outpoint state) :=
  inferInstanceAs (Decidable (_ ∧ _))

/-- What a parent wave selects and what it leaves. -/
structure BoundedParentWave (variants : BTreeMap Txid CurrentVariant) (pending : PendingSlice)
    (selected : List ExpectedVariant) (pending' : PendingSlice) : Prop where
  nodup : (selected.map ExpectedVariant.txid).Nodup
  awaited : ∀ expected ∈ selected, ∃ (outpoint : OutPoint) (state : FactState)
    (parent : CurrentVariant), pending.facts[outpoint]? = some state ∧
    state.isOpenParent = true ∧ variants[outpoint.txid]? = some parent ∧
    expected = {
      txid := BitcoinCrate.txidToString outpoint.txid, wtxid := parent.wtxid
      vsize := parent.vsize }
  bytes : (selected.map estimatedRawResponseBytes).sum ≤ maxRawResponseBytesPerSlice ∨
    selected.length = 1
  facts : ∀ outpoint : OutPoint, pending'.facts[outpoint]? =
    pending.facts[outpoint]?.map fun state =>
      if Asked selected outpoint state then state.attempted else state
  active : ∀ key : String, Option.Rel SameCandidate pending.active[key]? pending'.active[key]?
  rotated : ∃ turns, pending'.fairOrder = pending.fairOrder.rotate turns
  frame : pending' = { pending with
    facts := pending'.facts
    active := pending'.active
    fairOrder := pending'.fairOrder }

/-- What the turns of a parent wave have done to the slice. -/
structure ParentCourse (variants : BTreeMap Txid CurrentVariant) (pending : PendingSlice)
    (wave : Wave ParentSelection) : Prop where
  toWave : BoundedParentWave variants pending wave.selection.selected wave.pending
  txids : ∀ txid : Txid, txid ∈ wave.selection.selectedTxids ↔
    BitcoinCrate.txidToString txid ∈ wave.selection.selected.map ExpectedVariant.txid
  estimate : wave.selection.estimatedBytes =
    Greedy.weigh estimatedRawResponseBytes wave.selection.selected

/-- The course of a parent wave before its first turn. -/
theorem parentCourse_start (variants : BTreeMap Txid CurrentVariant) (pending : PendingSlice) :
    ParentCourse variants pending { pending, selection := {} } where
  toWave := {
    nodup := List.nodup_nil
    awaited := fun expected hMem => absurd hMem List.not_mem_nil
    bytes := Or.inl (Nat.zero_le _)
    facts := fun outpoint => by
      have hNone : (fun state : FactState =>
          if Asked [] outpoint state then state.attempted else state) = id := by
        funext state
        rw [if_neg fun hAsked => absurd hAsked.1 List.not_mem_nil]
        rfl
      rw [hNone, Option.map_id]
      rfl
    active := fun key => rel_refl SameCandidate.refl _
    rotated := ⟨0, (List.rotate_zero _).symm⟩
    frame := rfl }
  txids txid := by
    show txid ∈ (∅ : BTreeSet Txid) ↔ BitcoinCrate.txidToString txid ∈ []
    simp
  estimate := rfl

/-- Asking one more parent asks its facts, and those of no parent before. -/
theorem asked_append {selected : List ExpectedVariant} {outpoint : OutPoint}
    {parent : CurrentVariant} {expected : ExpectedVariant}
    (hExpected : expected = {
      txid := BitcoinCrate.txidToString outpoint.txid, wtxid := parent.wtxid
      vsize := parent.vsize })
    (hFresh : BitcoinCrate.txidToString outpoint.txid ∉ selected.map ExpectedVariant.txid)
    (other : OutPoint) (state : FactState) :
    (if Asked (selected ++ [expected]) other state then state.attempted else state) =
      let asked := if Asked selected other state then state.attempted else state
      if other.txid = outpoint.txid ∧ asked.isParentAwaiting = true then asked.attempted
      else asked := by
  have hMem : BitcoinCrate.txidToString other.txid ∈
      (selected ++ [expected]).map ExpectedVariant.txid ↔
        BitcoinCrate.txidToString other.txid ∈ selected.map ExpectedVariant.txid ∨
          other.txid = outpoint.txid := by
    rw [List.map_append, List.mem_append, List.map_singleton, List.mem_singleton, hExpected]
    exact or_congr_right ⟨txidToString_injective, congrArg _⟩
  simp only [Asked, hMem]
  by_cases hEarlier : BitcoinCrate.txidToString other.txid ∈ selected.map ExpectedVariant.txid
  · have hOther : other.txid ≠ outpoint.txid := fun hEq => hFresh (hEq ▸ hEarlier)
    simp only [hEarlier, hOther, or_false, true_and, false_and, if_false]
  · simp only [hEarlier, false_or, false_and, if_false]

/-- What taking a parent does. -/
theorem takeParent_eq_some {outpoint : OutPoint} {pending' : PendingSlice}
    {selection selection' : ParentSelection}
    (h : takeParent variants outpoint pending selection = some (pending', selection')) :
    ∃ (parent : CurrentVariant) (expected : ExpectedVariant),
      variants[outpoint.txid]? = some parent ∧
      expected = {
        txid := BitcoinCrate.txidToString outpoint.txid, wtxid := parent.wtxid
        vsize := parent.vsize } ∧
      (selection.selected = [] ∨ saturatingAdd selection.estimatedBytes
        (estimatedRawResponseBytes expected) ≤ maxRawResponseBytesPerSlice) ∧
      pending' = pending.recordParentAttempt outpoint.txid ∧
      selection' = {
        selected := selection.selected ++ [expected]
        selectedTxids := selection.selectedTxids.insert outpoint.txid
        estimatedBytes := saturatingAdd selection.estimatedBytes
          (estimatedRawResponseBytes expected) } := by
  unfold takeParent at h
  split at h
  · cases h
  · next parent hParent =>
    simp only at h
    split at h
    · cases h
    · next hFits =>
      obtain ⟨rfl, rfl⟩ := Prod.mk.inj (Option.some.inj h)
      refine ⟨parent, _, hParent, rfl, ?_, rfl, rfl⟩
      by_cases hFirst : selection.selected = []
      · exact Or.inl hFirst
      · exact Or.inr (Nat.not_lt.mp fun hOver => hFits ⟨hFirst, hOver⟩)

omit [BitcoinCrate] in
/-- What the estimates of the selection come to. -/
theorem estimate_le {selected : List ExpectedVariant}
    (h : Greedy.weigh estimatedRawResponseBytes selected ≤ maxRawResponseBytesPerSlice) :
    (selected.map estimatedRawResponseBytes).sum ≤ maxRawResponseBytesPerSlice := by
  rw [Greedy.weigh_eq] at h
  have hRange : maxRawResponseBytesPerSlice < u64Max := by decide
  omega

/-- **One turn of a parent wave** keeps its course. -/
theorem ParentCourse.visit {wave : Wave ParentSelection}
    (h : ParentCourse variants pending wave) :
    ParentCourse variants pending (wave.visit (parentRules variants limits)) := by
  obtain ⟨turns, hTurns⟩ := h.toWave.rotated
  have hRotate : ∃ turns, (Wave.turned wave.pending).fairOrder = pending.fairOrder.rotate turns := by
    refine ⟨turns + 1, ?_⟩
    show wave.pending.fairOrder.rotate 1 = _
    rw [hTurns, List.rotate_rotate]
  have hFrame : Wave.turned wave.pending = { pending with
      facts := wave.pending.facts
      active := wave.pending.active
      fairOrder := wave.pending.fairOrder.rotate 1 } := by
    rw [Wave.turned, h.toWave.frame]
  have hTurned : ParentCourse variants pending
      { wave with pending := Wave.turned wave.pending } :=
    { h with toWave := { h.toWave with rotated := hRotate, frame := hFrame } }
  generalize hVisit : wave.visit (parentRules variants limits) = visited
  cases hVisit ▸ Wave.turn (parentRules variants limits) wave with
  | nobody => exact h
  | gone => exact hTurned
  | idle => exact hTurned
  | @skipped key candidate outpoint factCursor taken hHead hActive hNext hPending hTake =>
    subst hPending
    exact { h with
      toWave := { h.toWave with
        active := insert_cursor_same h.toWave.active hActive factCursor
        rotated := hRotate
        frame := by rw [hFrame] } }
  | @served key candidate outpoint factCursor taken taken' selection hHead hActive hNext hPending
      hTake =>
    obtain ⟨hRequired, ⟨state, hState, hEligible⟩, hCursor⟩ := nextCandidateFact_eq_some hNext
    obtain ⟨parent, expected, hParent, hExpected, hFits, rfl, rfl⟩ := takeParent_eq_some hTake
    have hOpen : state.isOpenParent = true ∧ outpoint.txid ∉ wave.selection.selectedTxids := by
      simpa [parentRules, ← Std.ExtTreeSet.contains_iff_mem] using hEligible
    have hTxid : expected.txid = BitcoinCrate.txidToString outpoint.txid := by rw [hExpected]
    have hFresh : expected.txid ∉ wave.selection.selected.map ExpectedVariant.txid := by
      rw [hTxid, ← h.txids]
      exact hOpen.2
    have hBefore : pending.facts[outpoint]? = some state := by
      rw [h.toWave.facts] at hState
      obtain ⟨state', hStart, hSame⟩ := Option.map_eq_some_iff.mp hState
      rw [if_neg fun hAsked => hOpen.2 ((h.txids outpoint.txid).mpr hAsked.1)] at hSame
      rw [hStart, hSame]
    have hWeigh : saturatingAdd wave.selection.estimatedBytes (estimatedRawResponseBytes expected) =
        Greedy.weigh estimatedRawResponseBytes (wave.selection.selected ++ [expected]) := by
      rw [h.estimate, Greedy.weigh_append_singleton]
    subst hPending
    refine {
      toWave := {
        nodup := ?_, awaited := ?_, bytes := ?_, facts := ?_
        active := insert_cursor_same h.toWave.active hActive factCursor
        rotated := hRotate, frame := ?_ }
      txids := ?_, estimate := hWeigh }
    · rw [List.map_append]
      exact List.nodup_append.mpr ⟨h.toWave.nodup, List.nodup_singleton _, fun a hA b hB => by
        rw [List.mem_singleton.mp hB]
        exact fun hEq => hFresh (hEq ▸ hA)⟩
    · intro other hMem
      rcases List.mem_append.mp hMem with hEarlier | hNow
      · exact h.toWave.awaited other hEarlier
      · rw [List.mem_singleton.mp hNow]
        exact ⟨outpoint, state, parent, hBefore, hOpen.1, hParent, hExpected⟩
    · rcases hFits with hFirst | hWithin
      · exact Or.inr (by rw [hFirst]; rfl)
      · exact Or.inl (estimate_le (hWeigh ▸ hWithin))
    · intro other
      show (wave.pending.facts.map _)[other]? = _
      rw [Std.ExtTreeMap.getElem?_map, h.toWave.facts, Option.map_map]
      refine congrArg (fun f => Option.map f pending.facts[other]?) (funext fun before => ?_)
      exact (asked_append hExpected (hTxid ▸ hFresh) other before).symm
    · show PendingSlice.recordParentAttempt _ outpoint.txid = _
      rw [recordParentAttempt, mapParentFacts, hFrame]
    · intro txid
      show txid ∈ wave.selection.selectedTxids.insert outpoint.txid ↔
        BitcoinCrate.txidToString txid ∈
          (wave.selection.selected ++ [expected]).map ExpectedVariant.txid
      rw [BTreeSet.mem_insert_iff, List.map_append, List.mem_append, List.map_singleton,
        List.mem_singleton, ← h.txids, or_comm, hExpected]
      exact or_congr_right ⟨congrArg _, txidToString_injective⟩

theorem parentRules_grows (variants : BTreeMap Txid CurrentVariant) (limits : ResolverLimits) :
    Wave.Grows (parentRules variants limits) fun selection => selection.selected.length := by
  intro outpoint pending pending' selection selection' hTake
  obtain ⟨parent, expected, -, -, -, -, rfl⟩ := takeParent_eq_some hTake
  show selection.selected.length < (selection.selected ++ [expected]).length
  rw [List.length_append, List.length_singleton]
  exact Nat.lt_succ_self _

/-- **A parent wave is bounded** and asks for each parent once. -/
theorem boundedParentWave (variants : BTreeMap Txid CurrentVariant) (pending : PendingSlice)
    (limits : ResolverLimits) :
    BoundedParentWave variants pending (pending.nextParentWave variants limits).1
      (pending.nextParentWave variants limits).2 := by
  have hCourse : ∀ turns, ParentCourse variants pending
      ((Wave.visit (parentRules variants limits))^[turns] { pending, selection := {} }) := by
    intro turns
    induction turns with
    | zero => exact parentCourse_start variants pending
    | succ turns ih =>
      rw [Function.iterate_succ_apply']
      exact ih.visit
  unfold nextParentWave
  split
  · obtain ⟨turns, hTurns⟩ := Wave.exists_roundsOf (parentRules_grows variants limits)
      (pending.facts.size + 1) { pending, selection := {} }
    have hPending := congrArg (fun core => core.1) hTurns.eq_iterate
    have hSelection := congrArg (fun core => core.2.1) hTurns.eq_iterate
    have hWave := (hCourse turns).toWave
    simp only [Wave.core] at hPending hSelection
    rw [← hPending, ← hSelection] at hWave
    exact hWave
  · exact (parentCourse_start variants pending).toWave

/-- **Waves.** Whatever slice of sound representation and whatever limits. -/
theorem waves_fair (limits : ResolverLimits) (variants : BTreeMap Txid CurrentVariant)
    (pending : PendingSlice) (h : Represented limits pending) :
    FairConfirmedWave limits pending (pending.nextConfirmedWave limits).1
        (pending.nextConfirmedWave limits).2 ∧
      BoundedParentWave variants pending (pending.nextParentWave variants limits).1
        (pending.nextParentWave variants limits).2 :=
  ⟨fairConfirmedWave h, boundedParentWave variants pending limits⟩

end ParentWave

-- ---------------------------------------------------------------------------
-- Every slice of a run is represented
-- ---------------------------------------------------------------------------

/-- The cursors of the candidates are in their facts. -/
def Placed (pending : PendingSlice) : Prop :=
  ∀ (key : String) candidate, pending.active[key]? = some candidate → PlacedCandidate candidate

theorem Placed.congr {pending' : PendingSlice} (h : Placed pending)
    (hActive : pending'.active = pending.active) : Placed pending' := fun key candidate hGet =>
  h key candidate (hActive ▸ hGet)

/-- Dropping candidates keeps the cursors in place. -/
theorem Placed.keep {pending' : PendingSlice} (h : Placed pending)
    (hActive : ∀ (key : String) candidate, pending'.active[key]? = some candidate →
      pending.active[key]? = some candidate) : Placed pending' := fun key candidate hGet =>
  h key candidate (hActive key candidate hGet)

/-- Every operation keeps the cursors in place. -/
theorem closed_placed (limits : ResolverLimits) : Closed limits Placed where
  store script h _ _ := by
    unfold storeWaiting
    split
    · exact h
    · split
      · exact h
      · exact h.congr rfl
  block outpoint h := by
    unfold markCapacityBlocked
    split
    · exact h
    · exact h.congr rfl
  attempt outpoint h := h.congr rfl
  parentAttempt parentTxid h := h.congr rfl
  fallBack parentTxid h := h.congr rfl
  defer h _ := h.congr rfl
  miss h _ := h.congr rfl
  cursor {pending key candidate factCursor} h hActive hCursor := by
    intro other candidate' hGet
    replace hGet : (pending.active.insert key { candidate with factCursor })[other]? =
      some candidate' := hGet
    rw [BTreeMap.getElem?_insert_eq] at hGet
    split at hGet
    · obtain rfl := Option.some.inj hGet
      exact ⟨Nat.le_of_lt hCursor, (h key candidate hActive).length_le⟩
    · exact h other candidate' hGet
  rotate h _ := h.congr rfl

theorem length_foldl_insert (outpoints : List OutPoint) (set : BTreeSet OutPoint) :
    (outpoints.foldl (fun set outpoint => set.insert outpoint) set).toList.length ≤
      set.toList.length + outpoints.length := by
  induction outpoints generalizing set with
  | nil => exact Nat.le_refl _
  | cons outpoint rest ih =>
    have hInsert : (set.insert outpoint).size ≤ set.size + 1 := Std.ExtTreeSet.size_insert_le
    have hRest := ih (set.insert outpoint)
    simp only [Std.ExtTreeSet.length_toList, List.foldl_cons, List.length_cons] at hRest ⊢
    omega

theorem requiredOutpoints_length_le (transaction : Transaction) :
    (requiredOutpoints transaction).length ≤ transaction.input.length := by
  have hFold := length_foldl_insert ((transaction.input.map TxIn.previousOutput).filter
    fun outpoint => !outpoint.isNull) ∅
  have hFilter := List.length_filter_le (fun outpoint : OutPoint => !outpoint.isNull)
    (transaction.input.map TxIn.previousOutput)
  rw [List.length_map] at hFilter
  have hEmpty : (∅ : BTreeSet OutPoint).toList.length = 0 := by simp
  rw [hEmpty, Nat.zero_add] at hFold
  exact hFold.trans hFilter

/-- A transaction whose inputs are no more than a machine can index. -/
def Indexable (transaction : Transaction) : Prop := 2 * transaction.input.length ≤ u64Max

/-- A new candidate's cursor is in place. -/
theorem Placed.activate (h : Placed pending) (variants : BTreeMap Txid CurrentVariant)
    {next : PreparedCandidate} (hNext : Indexable next.transaction) :
    Placed (pending.activate variants next) := by
  intro key candidate hGet
  replace hGet : (pending.active.insert next.expected.wtxid _)[key]? = some candidate := hGet
  rw [BTreeMap.getElem?_insert_eq] at hGet
  split at hGet
  · obtain rfl := Option.some.inj hGet
    have hLength := requiredOutpoints_length_le next.transaction
    unfold Indexable at hNext
    exact ⟨Nat.zero_le _, by dsimp only; omega⟩
  · exact h key candidate hGet

theorem Placed.activateLoop (variants : BTreeMap Txid CurrentVariant) (limits : ResolverLimits) :
    ∀ (queued : List PreparedCandidate) (pending : PendingSlice), Placed pending →
      (∀ candidate ∈ queued, Indexable candidate.transaction) →
      Placed (PendingSlice.activateLoop variants limits queued pending)
  | [], pending, h, _ => h.congr rfl
  | next :: rest, pending, h, hQueued => by
    unfold PendingSlice.activateLoop
    simp only
    split
    · exact h.congr rfl
    · exact Placed.activateLoop variants limits rest _
        (h.activate variants (hQueued next List.mem_cons_self))
        fun candidate hMem => hQueued candidate (List.mem_cons_of_mem next hMem)

end PendingSlice

namespace Ledger

open PendingSlice Relation

variable [BitcoinCrate] {limits : ResolverLimits}
  {transactions : List (ExpectedVariant × Transaction)}

/-- One operation on a slice keeps the cursors in place. -/
theorem placed_step (hIndexable : ∀ admitted ∈ transactions, Indexable admitted.2)
    {ledger ledger' : Ledger} (hKept : Kept limits transactions ledger)
    (h : Placed ledger.pending) (hStep : Step limits ledger ledger') : Placed ledger'.pending := by
  have hClosed := closed_placed limits
  cases hStep with
  | activateWaiting variants =>
    exact (Placed.activateLoop variants limits ledger.pending.queued ledger.pending h
      fun candidate hMem => hIndexable _ (hKept.holds.1 candidate hMem)).congr rfl
  | hydrateFromCaches hHydrate => exact hClosed.hydrateFromCaches h hHydrate
  | hydrateFromTransient outputs confirmed =>
    exact hClosed.hydrateFromTransient h outputs confirmed
  | nextParentWave variants => exact hClosed.nextParentWave h variants
  | nextConfirmedWave => exact hClosed.nextConfirmedWave h
  | applyParentTransaction expected transaction =>
    exact hClosed.applyParentTransaction h expected transaction
  | fallBackParentToGettxout parentTxid => exact hClosed.fallBack parentTxid h
  | applyConfirmedValue outpoint value => exact hClosed.applyConfirmedValue h outpoint value
  | markCapacityBlocked outpoint => exact hClosed.block outpoint h
  | deferOneCapacityBlockedFact => exact hClosed.deferOneCapacityBlockedFact h
  | deferIfAttemptsExhausted outpoint => exact hClosed.deferIfAttemptsExhausted h outpoint
  | deferExhaustedCandidates =>
    show Placed ledger.pending.deferExhaustedCandidates.2
    simp only [deferExhaustedCandidates]
    split
    · exact h
    · exact h.keep fun key candidate hGet => (dropCandidates_get.mp hGet).1
  | deferCapacityBlockedCandidate =>
    show Placed ledger.pending.deferCapacityBlockedCandidate.2
    unfold deferCapacityBlockedCandidate
    split
    · exact h
    · exact h.keep fun key candidate hGet => (dropCandidate_get.mp hGet).1
  | @classifyReady result hReady =>
    obtain ⟨classifications, pending'⟩ := result
    obtain ⟨-, rfl⟩ := classifyReady_eq_ok.mp hReady
    refine h.keep fun key candidate hGet => ?_
    replace hGet : (eraseAll ledger.pending.readyKeys ledger.pending.active)[key]? =
      some candidate := hGet
    rw [eraseAll_get] at hGet
    split at hGet
    · cases hGet
    · exact hGet

/-- **Every slice a run comes to is represented.** -/
theorem represented_run (limits : ResolverLimits)
    (hDistinct : (transactions.map fun admitted => admitted.1.wtxid).Nodup)
    (hIndexable : ∀ admitted ∈ transactions, Indexable admitted.2)
    (variants : BTreeMap Txid CurrentVariant) {ledger : Ledger}
    (hRun : ReflTransGen (Step limits) (start transactions variants limits) ledger) :
    Represented limits ledger.pending := by
  have hStart := kept_start limits hDistinct variants
  have hPlaced : Placed (start transactions variants limits).pending := by
    refine (Placed.activateLoop variants limits _ _ ?_ ?_).congr rfl
    · intro key candidate hGet
      replace hGet : (∅ : BTreeMap String PendingCandidate)[key]? = some candidate := hGet
      rw [Std.ExtTreeMap.getElem?_empty] at hGet
      cases hGet
    · intro candidate hMem
      obtain ⟨admitted, hAdmitted, rfl⟩ := List.mem_map.mp hMem
      exact hIndexable admitted hAdmitted
  have hLater : Kept limits transactions ledger ∧ Placed ledger.pending := by
    induction hRun with
    | refl => exact ⟨hStart, hPlaced⟩
    | tail _ hStep ih =>
      exact ⟨(ih.1.step hDistinct hStep).toKept, placed_step hIndexable ih.1 ih.2 hStep⟩
  exact ⟨hLater.1.window, hLater.2⟩

end Ledger

/-- A candidate that spends two outputs. -/
def twoInputs : List (ExpectedVariant × Transaction) :=
  let spend (vout : UInt32) : TxIn :=
    { previousOutput := ⟨7, vout⟩, scriptSig := [], sequence := 0, witness := [] }
  [({ txid := "01", wtxid := "11", vsize := 100 },
    { version := 2, lockTime := 0, input := [spend 0, spend 1], output := [] })]

/-- Limits under which a wave asks for one prevout. -/
def oneAtATime : ResolverLimits :=
  { ResolverLimits.production 4096 with maxConfirmedPrevoutsPerWave := 1 }

/-- Its slice. -/
def twoInputsSlice : PendingSlice := @PendingSlice.new (Reference.crate []) twoInputs ∅ oneAtATime

theorem twoInputsSlice_represented : PendingSlice.Represented oneAtATime twoInputsSlice := by
  let _ : BitcoinCrate := Reference.crate []
  have hDistinct : (twoInputs.map fun admitted => admitted.1.wtxid).Nodup := by decide
  have hIndexable : ∀ admitted ∈ twoInputs, PendingSlice.Indexable admitted.2 := by
    intro admitted hMem
    rw [List.mem_singleton.mp hMem]
    show 2 * 2 ≤ u64Max
    decide
  exact Ledger.represented_run oneAtATime hDistinct hIndexable ∅ .refl

namespace PendingSlice

/-- The sample slice: two inputs, asked for one at a time. -/
theorem waves_fair_twoInputs :
    FairConfirmedWave oneAtATime twoInputsSlice (twoInputsSlice.nextConfirmedWave oneAtATime).1
        (twoInputsSlice.nextConfirmedWave oneAtATime).2 ∧
      @BoundedParentWave (Reference.crate []) ∅ twoInputsSlice
        (@nextParentWave (Reference.crate []) twoInputsSlice ∅ oneAtATime).1
        (@nextParentWave (Reference.crate []) twoInputsSlice ∅ oneAtATime).2 :=
  @waves_fair (Reference.crate []) oneAtATime ∅ twoInputsSlice twoInputsSlice_represented

/-- A wave turns the cursor of the candidate it serves. -/
theorem waves_fair_cursor_twoInputs :
    ¬ ∀ (limits : ResolverLimits) (pending : PendingSlice), Represented limits pending →
      (pending.nextConfirmedWave limits).2.active = pending.active := by
  intro h
  have hSame := h oneAtATime twoInputsSlice twoInputsSlice_represented
  have hBefore : twoInputsSlice.active["11"]?.map PendingCandidate.factCursor = some 0 := by
    decide
  have hAfter : (twoInputsSlice.nextConfirmedWave oneAtATime).2.active["11"]?.map
      PendingCandidate.factCursor = some 1 := by
    decide
  rw [hSame, hBefore] at hAfter
  cases hAfter

end PendingSlice

end MempoolAtlas.Classification
