import MempoolAtlas.Classification.FactMoves

/-!
# Waves, turn by turn

A wave gives the candidates of the fair order one turn each, round after round. What it
leaves is what some number of turns leave, and it ends when it is full or after a round
in which nobody took anything; the bound on its rounds is never what ends it.

## Results

* `exists_roundOf`, `exists_roundsOf` — a wave is some number of turns, and how it ends.
-/

namespace MempoolAtlas.Classification

open Machine Model

namespace PendingSlice

-- ---------------------------------------------------------------------------
-- A candidate's next fact
-- ---------------------------------------------------------------------------

/-- A cursor within the candidate's facts, of which there are no more than a machine
can index. -/
structure PlacedCandidate (candidate : PendingCandidate) : Prop where
  cursor_le : candidate.factCursor ≤ candidate.required.length
  length_le : 2 * candidate.required.length ≤ u64Max

variable {candidate : PendingCandidate} {facts : BTreeMap OutPoint FactState}
  {eligible : OutPoint → FactState → Bool}

/-- The next fact of a candidate, with its place. -/
theorem nextCandidateFact_eq_some {outpoint : OutPoint} {factCursor : Nat}
    (h : nextCandidateFact candidate facts eligible = some (outpoint, factCursor)) :
    outpoint ∈ candidate.required ∧
      (∃ state, facts[outpoint]? = some state ∧ eligible outpoint state = true) ∧
      factCursor < candidate.required.length := by
  obtain ⟨offset, -, hFound⟩ := List.exists_of_findSome?_eq_some h
  obtain ⟨found, hRequired, hFound⟩ := Option.bind_eq_some_iff.mp hFound
  obtain ⟨state, hState, hPair⟩ := Option.map_eq_some_iff.mp hFound
  obtain ⟨rfl, rfl⟩ := Prod.mk.inj hPair
  have hMem := List.mem_of_getElem? hRequired
  rw [Option.filter_eq_some_iff] at hState
  exact ⟨hMem, ⟨state, hState⟩, Nat.mod_lt _ (List.length_pos_of_mem hMem)⟩

/-- The search from the cursor comes past every fact of the candidate. -/
theorem nextCandidateFact_eq_none (hPlaced : PlacedCandidate candidate)
    (h : nextCandidateFact candidate facts eligible = none) {outpoint : OutPoint}
    (hMem : outpoint ∈ candidate.required) {state : FactState}
    (hState : facts[outpoint]? = some state) : eligible outpoint state = false := by
  obtain ⟨place, hPlace, hGet⟩ := List.mem_iff_getElem.mp hMem
  have hCursor := hPlaced.cursor_le
  have hLength := hPlaced.length_le
  obtain ⟨offset, hOffset, hIndex⟩ : ∃ offset < candidate.required.length,
      saturatingAdd candidate.factCursor offset % candidate.required.length = place := by
    rcases Nat.lt_or_ge place candidate.factCursor with hBefore | hAfter
    · refine ⟨place + candidate.required.length - candidate.factCursor, by omega, ?_⟩
      rw [saturatingAdd_of_le (by omega)]
      have hSum : candidate.factCursor + (place + candidate.required.length -
          candidate.factCursor) = place + candidate.required.length := by omega
      rw [hSum, Nat.add_mod_right, Nat.mod_eq_of_lt hPlace]
    · refine ⟨place - candidate.factCursor, by omega, ?_⟩
      rw [saturatingAdd_of_le (by omega)]
      have hSum : candidate.factCursor + (place - candidate.factCursor) = place := by omega
      rw [hSum, Nat.mod_eq_of_lt hPlace]
  have hNone := List.findSome?_eq_none_iff.mp h offset (List.mem_range.mpr hOffset)
  simp only [hIndex, List.getElem?_eq_getElem hPlace, hGet, Option.bind_some, hState,
    Option.map_eq_none_iff, Option.filter_eq_none_iff] at hNone
  simpa using hNone

-- ---------------------------------------------------------------------------
-- Turns
-- ---------------------------------------------------------------------------

namespace Wave

variable {σ : Type} {rules : WaveRules σ}

/-- What a turn reads and writes. -/
def core (wave : Wave σ) : PendingSlice × σ × Bool := (wave.pending, wave.selection, wave.isFull)

theorem core_visit {wave wave' : Wave σ} (h : wave.core = wave'.core) :
    (wave.visit rules).core = (wave'.visit rules).core := by
  obtain ⟨pending, selection, added, isFull⟩ := wave
  obtain ⟨pending', selection', added', isFull'⟩ := wave'
  obtain ⟨rfl, hRest⟩ := Prod.mk.inj h
  obtain ⟨rfl, rfl⟩ := Prod.mk.inj hRest
  simp only [visit]
  split
  · rfl
  · split
    · rfl
    · split
      · rfl
      · split <;> rfl

theorem core_iterate {wave wave' : Wave σ} (h : wave.core = wave'.core) (turns : Nat) :
    ((visit rules)^[turns] wave).core = ((visit rules)^[turns] wave').core := by
  induction turns with
  | zero => exact h
  | succ turns ih =>
    rw [Function.iterate_succ_apply', Function.iterate_succ_apply']
    exact core_visit ih

/-- The fair order with its front candidate at the back. -/
def turned (pending : PendingSlice) : PendingSlice :=
  { pending with fairOrder := pending.fairOrder.rotate 1 }

/-- What one turn does: the front candidate is gone, has nothing eligible, has a fact the
wave must skip, or is served. -/
inductive Turn (rules : WaveRules σ) (wave : Wave σ) : Wave σ → Prop
  | nobody : wave.pending.fairOrder = [] → Turn rules wave wave
  | gone {key : String} : wave.pending.fairOrder.head? = some key →
      wave.pending.active[key]? = none →
      Turn rules wave { wave with pending := turned wave.pending }
  | idle {key : String} {candidate : PendingCandidate} :
      wave.pending.fairOrder.head? = some key → wave.pending.active[key]? = some candidate →
      nextCandidateFact candidate wave.pending.facts (rules.eligible wave.selection) = none →
      Turn rules wave { wave with pending := turned wave.pending }
  | skipped {key : String} {candidate : PendingCandidate} {outpoint : OutPoint} {factCursor : Nat}
      {pending : PendingSlice} :
      wave.pending.fairOrder.head? = some key → wave.pending.active[key]? = some candidate →
      nextCandidateFact candidate wave.pending.facts (rules.eligible wave.selection) =
        some (outpoint, factCursor) →
      pending = { turned wave.pending with
        active := wave.pending.active.insert key { candidate with factCursor } } →
      rules.take outpoint pending wave.selection = none →
      Turn rules wave { wave with pending }
  | served {key : String} {candidate : PendingCandidate} {outpoint : OutPoint} {factCursor : Nat}
      {pending pending' : PendingSlice} {selection : σ} :
      wave.pending.fairOrder.head? = some key → wave.pending.active[key]? = some candidate →
      nextCandidateFact candidate wave.pending.facts (rules.eligible wave.selection) =
        some (outpoint, factCursor) →
      pending = { turned wave.pending with
        active := wave.pending.active.insert key { candidate with factCursor } } →
      rules.take outpoint pending wave.selection = some (pending', selection) →
      Turn rules wave {
        pending := pending'
        selection
        added := true
        isFull := rules.full selection }

/-- **What one turn does.** -/
theorem turn (rules : WaveRules σ) (wave : Wave σ) : Turn rules wave (wave.visit rules) := by
  cases hOrder : wave.pending.fairOrder with
  | nil =>
    have hVisit : wave.visit rules = wave := by simp only [visit, hOrder]
    rw [hVisit]
    exact .nobody hOrder
  | cons key rest =>
    have hHead : wave.pending.fairOrder.head? = some key := by rw [hOrder, List.head?_cons]
    have hTurned : turned wave.pending = { wave.pending with fairOrder := rest ++ [key] } := by
      rw [turned, hOrder, List.rotate_cons_succ, List.rotate_zero]
    cases hActive : wave.pending.active[key]? with
    | none =>
      have hVisit : wave.visit rules = { wave with pending := turned wave.pending } := by
        simp only [visit, hOrder, hActive, hTurned]
      rw [hVisit]
      exact .gone hHead hActive
    | some candidate =>
      cases hNext :
          nextCandidateFact candidate wave.pending.facts (rules.eligible wave.selection) with
      | none =>
        have hVisit : wave.visit rules = { wave with pending := turned wave.pending } := by
          simp only [visit, hOrder, hActive, hNext, hTurned]
        rw [hVisit]
        exact .idle hHead hActive hNext
      | some next =>
        obtain ⟨outpoint, factCursor⟩ := next
        cases hTake : rules.take outpoint { turned wave.pending with
            active := wave.pending.active.insert key { candidate with factCursor } }
            wave.selection with
        | none =>
          have hVisit : wave.visit rules = { wave with
              pending := { turned wave.pending with
                active := wave.pending.active.insert key { candidate with factCursor } } } := by
            rw [hTurned] at hTake ⊢
            simp only [visit, hOrder, hActive, hNext, hTake]
          rw [hVisit]
          exact .skipped hHead hActive hNext rfl hTake
        | some taken =>
          obtain ⟨pending', selection⟩ := taken
          have hVisit : wave.visit rules = {
              pending := pending'
              selection
              added := true
              isFull := rules.full selection } := by
            rw [hTurned] at hTake
            simp only [visit, hOrder, hActive, hNext, hTake]
          rw [hVisit]
          exact .served hHead hActive hNext rfl hTake

/-- A turn that adds nothing leaves the selection, and so do all before it. -/
theorem visit_added_false {wave : Wave σ} (h : (wave.visit rules).added = false) :
    wave.added = false ∧ (wave.visit rules).selection = wave.selection := by
  generalize hVisit : wave.visit rules = visited at h
  cases hVisit ▸ turn rules wave with
  | nobody => exact ⟨h, rfl⟩
  | gone => exact ⟨h, rfl⟩
  | idle => exact ⟨h, rfl⟩
  | skipped => exact ⟨h, rfl⟩
  | served => cases h

/-- Taking makes a selection larger. -/
def Grows (rules : WaveRules σ) (size : σ → Nat) : Prop :=
  ∀ {outpoint : OutPoint} {pending pending' : PendingSlice} {selection selection' : σ},
    rules.take outpoint pending selection = some (pending', selection') →
    size selection < size selection'

variable {size : σ → Nat}

/-- A turn that adds something adds one. -/
theorem visit_size (hGrows : Grows rules size) (wave : Wave σ) :
    size wave.selection ≤ size (wave.visit rules).selection ∧
      (wave.added = false → (wave.visit rules).added = true →
        size wave.selection < size (wave.visit rules).selection) := by
  have hIdle : wave.added = false → wave.added = true →
      size wave.selection < size wave.selection := fun hBefore hAfter =>
    absurd (hBefore.symm.trans hAfter) (by simp)
  generalize hVisit : wave.visit rules = visited
  cases hVisit ▸ turn rules wave with
  | nobody => exact ⟨Nat.le_refl _, hIdle⟩
  | gone => exact ⟨Nat.le_refl _, hIdle⟩
  | idle => exact ⟨Nat.le_refl _, hIdle⟩
  | skipped => exact ⟨Nat.le_refl _, hIdle⟩
  | served hHead hActive hNext hPending hTake =>
    exact ⟨Nat.le_of_lt (hGrows hTake), fun _ _ => hGrows hTake⟩

/-- How a round goes: turns until the wave is full or everybody has had one. -/
structure RoundOf (rules : WaveRules σ) (turns : Nat) (wave : Wave σ) (taken : Nat) : Prop where
  le_turns : taken ≤ turns
  eq_iterate : wave.round rules turns = (visit rules)^[taken] wave
  open_before : ∀ i < taken, ((visit rules)^[i] wave).isFull = false
  complete : (wave.round rules turns).isFull = false → taken = turns

/-- A round is its turns, up to the full wave. -/
theorem exists_roundOf (rules : WaveRules σ) (turns : Nat) (wave : Wave σ) :
    ∃ taken, RoundOf rules turns wave taken := by
  induction turns generalizing wave with
  | zero => exact ⟨0, Nat.le_refl 0, rfl, fun i hLt => (Nat.not_lt_zero i hLt).elim, fun _ => rfl⟩
  | succ turns ih =>
    cases hFull : wave.isFull with
    | true =>
      have hRound : wave.round rules (turns + 1) = wave := by rw [round, if_pos hFull]
      refine ⟨0, Nat.zero_le _, hRound, fun i hLt => (Nat.not_lt_zero i hLt).elim, fun hOpen => ?_⟩
      rw [hRound, hFull] at hOpen
      cases hOpen
    | false =>
      have hRound : wave.round rules (turns + 1) = (wave.visit rules).round rules turns := by
        rw [round, if_neg (by simp [hFull])]
      obtain ⟨taken, hTaken⟩ := ih (wave.visit rules)
      refine ⟨taken + 1, Nat.succ_le_succ hTaken.le_turns, ?_, fun i hLt => ?_, fun hOpen => ?_⟩
      · rw [hRound, hTaken.eq_iterate, Function.iterate_succ_apply]
      · cases i with
        | zero => exact hFull
        | succ i =>
          rw [Function.iterate_succ_apply]
          exact hTaken.open_before i (Nat.lt_of_succ_lt_succ hLt)
      · rw [hTaken.complete (hRound ▸ hOpen)]

theorem iterate_size (hGrows : Grows rules size) (turns : Nat) (wave : Wave σ) :
    size wave.selection ≤ size ((visit rules)^[turns] wave).selection := by
  induction turns with
  | zero => exact Nat.le_refl _
  | succ turns ih =>
    rw [Function.iterate_succ_apply']
    exact ih.trans (visit_size hGrows _).1

/-- Turns after which nothing has been added took nothing. -/
theorem iterate_added_false {turns : Nat} {wave : Wave σ}
    (h : ((visit rules)^[turns] wave).added = false) :
    ∀ i ≤ turns, ((visit rules)^[i] wave).selection = wave.selection := by
  induction turns with
  | zero =>
    intro i hLe
    rw [Nat.le_zero.mp hLe]
    rfl
  | succ turns ih =>
    rw [Function.iterate_succ_apply'] at h
    obtain ⟨hBefore, hSame⟩ := visit_added_false h
    intro i hLe
    rcases Nat.lt_or_ge i (turns + 1) with hLt | hGe
    · exact ih hBefore i (Nat.le_of_lt_succ hLt)
    · rw [Nat.le_antisymm hLe hGe, Function.iterate_succ_apply', hSame]
      exact ih hBefore turns (Nat.le_refl _)

theorem iterate_added_true (hGrows : Grows rules size) {turns : Nat} {wave : Wave σ}
    (hBefore : wave.added = false) (h : ((visit rules)^[turns] wave).added = true) :
    size wave.selection < size ((visit rules)^[turns] wave).selection := by
  induction turns with
  | zero => exact absurd (hBefore.symm.trans h) (by simp)
  | succ turns ih =>
    rw [Function.iterate_succ_apply'] at h ⊢
    cases hAdded : ((visit rules)^[turns] wave).added with
    | true => exact (ih hAdded).trans_le (visit_size hGrows _).1
    | false => exact (iterate_size hGrows turns wave).trans_lt ((visit_size hGrows _).2 hAdded h)

/-- How a wave goes: turns until it is full, or until a whole round took nothing, or for
as many rounds as it may have, each of which took something. -/
structure RoundsOf (rules : WaveRules σ) (size : σ → Nat) (fuel : Nat) (wave : Wave σ)
    (turns : Nat) : Prop where
  eq_iterate : (wave.rounds rules fuel).core = ((visit rules)^[turns] wave).core
  open_before : ∀ i < turns, ((visit rules)^[i] wave).isFull = false
  ended : (wave.rounds rules fuel).isFull = true ∨
    (∃ start, turns = start + ((visit rules)^[start] wave).pending.fairOrder.length ∧
      ∀ i, start ≤ i → i ≤ turns →
        ((visit rules)^[i] wave).selection = ((visit rules)^[start] wave).selection) ∨
    size wave.selection + fuel ≤ size ((visit rules)^[turns] wave).selection

/-- The rounds are their turns, one after the other. -/
theorem exists_roundsOf (hGrows : Grows rules size) (fuel : Nat) (wave : Wave σ) :
    ∃ turns, RoundsOf rules size fuel wave turns := by
  induction fuel generalizing wave with
  | zero =>
    exact ⟨0, rfl, fun i hLt => (Nat.not_lt_zero i hLt).elim, Or.inr (Or.inr (Nat.le_refl _))⟩
  | succ fuel ih =>
    obtain ⟨taken, hTaken⟩ :=
      exists_roundOf rules wave.pending.fairOrder.length { wave with added := false }
    -- turns do not depend on what the round has added so far
    have hCore : ∀ i, ((visit rules)^[i] { wave with added := false }).core =
        ((visit rules)^[i] wave).core :=
      fun i => core_iterate (show Wave.core { wave with added := false } = wave.core from rfl) i
    have hFull : ∀ i, ((visit rules)^[i] { wave with added := false }).isFull =
        ((visit rules)^[i] wave).isFull := fun i => congrArg (fun c => c.2.2) (hCore i)
    have hSelection : ∀ i, ((visit rules)^[i] { wave with added := false }).selection =
        ((visit rules)^[i] wave).selection := fun i => congrArg (fun c => c.2.1) (hCore i)
    have hOpen : ∀ i < taken, ((visit rules)^[i] wave).isFull = false := fun i hLt =>
      (hFull i).symm.trans (hTaken.open_before i hLt)
    cases hEnd : (Wave.round rules wave.pending.fairOrder.length
        { wave with added := false }).isFull with
    | true =>
      have hRounds : wave.rounds rules (fuel + 1) =
          Wave.round rules wave.pending.fairOrder.length { wave with added := false } := by
        simp only [rounds, hEnd, true_or, if_true]
      exact ⟨taken, by rw [hRounds, hTaken.eq_iterate, hCore], hOpen, Or.inl (hRounds ▸ hEnd)⟩
    | false =>
      have hAll := hTaken.complete hEnd
      cases hAdded : (Wave.round rules wave.pending.fairOrder.length
          { wave with added := false }).added with
      | false =>
        have hRounds : wave.rounds rules (fuel + 1) =
            Wave.round rules wave.pending.fairOrder.length { wave with added := false } := by
          simp only [rounds, hEnd, hAdded, Bool.not_false, or_true, if_true]
        have hIdle := iterate_added_false (hTaken.eq_iterate ▸ hAdded)
        refine ⟨taken, by rw [hRounds, hTaken.eq_iterate, hCore], hOpen,
          Or.inr (Or.inl ⟨0, by rw [Nat.zero_add]; exact hAll, fun i _ hLe => ?_⟩)⟩
        rw [← hSelection i]
        exact hIdle i hLe
      | true =>
        have hRounds : wave.rounds rules (fuel + 1) =
            (Wave.round rules wave.pending.fairOrder.length
              { wave with added := false }).rounds rules fuel := by
          rw [rounds]
          simp only [hEnd, hAdded, Bool.not_true, Bool.false_eq_true, or_self, if_false]
        obtain ⟨turns, hTurns⟩ := ih (Wave.round rules wave.pending.fairOrder.length
          { wave with added := false })
        have hShift : ∀ i, ((visit rules)^[i] (Wave.round rules wave.pending.fairOrder.length
            { wave with added := false })).core = ((visit rules)^[i + taken] wave).core := by
          intro i
          rw [hTaken.eq_iterate, ← Function.iterate_add_apply]
          exact hCore (i + taken)
        refine ⟨turns + taken, ?_, fun i hLt => ?_, ?_⟩
        · rw [hRounds, hTurns.eq_iterate, hShift]
        · rcases Nat.lt_or_ge i taken with hFirst | hLater
          · exact hOpen i hFirst
          · have hAt := hTurns.open_before (i - taken) (by omega)
            have hShifted := congrArg (fun c => c.2.2) (hShift (i - taken))
            rw [Nat.sub_add_cancel hLater] at hShifted
            exact hShifted.symm.trans hAt
        · rw [hRounds]
          rcases hTurns.ended with hDone | ⟨start, hLast, hSame⟩ | hSpent
          · exact Or.inl hDone
          · refine Or.inr (Or.inl ⟨start + taken, ?_, fun i hGe hLe => ?_⟩)
            · have hLength := congrArg (fun c => c.1.fairOrder.length) (hShift start)
              simp only [core] at hLength
              omega
            · have hAt := hSame (i - taken) (by omega) (by omega)
              have hShifted := congrArg (fun c => c.2.1) (hShift (i - taken))
              have hStart := congrArg (fun c => c.2.1) (hShift start)
              rw [Nat.sub_add_cancel (by omega)] at hShifted
              exact hShifted.symm.trans (hAt.trans hStart)
          · refine Or.inr (Or.inr ?_)
            have hFirst := iterate_added_true hGrows rfl (hTaken.eq_iterate ▸ hAdded)
            have hShifted := congrArg (fun c => size c.2.1) (hShift turns)
            simp only [core] at hShifted
            rw [hTaken.eq_iterate] at hSpent hShifted
            dsimp only at hFirst
            omega

end Wave

end PendingSlice

end MempoolAtlas.Classification
