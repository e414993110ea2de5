import Mathlib.Logic.Relation
import MempoolAtlas.Classification.CacheBudget

/-!
# How facts move

The state machine of one fact, and what the operations of a pending slice do in
its terms. Between admission and the removal of a candidate, an operation only
moves facts along `FactMove`, turns cursors and reorders the fair order; `Moved`
says so, and every operation is shown to satisfy it. `given` is what makes a
script acceptable for an outpoint, `missing` what makes its absence certain.

## Results

* `moved_of_facts` — a pass over the facts that moves each of them moves the slice.
* `hydrateFromCaches_moved`, `applyParentTransaction_moved`, `applyConfirmedValue_moved` — the
  operations of a slice move facts only so.
-/

namespace MempoolAtlas.Classification

open Machine Model Relation

/-- One move of the fact at `outpoint`. -/
inductive FactMove (given : OutPoint → Script → Prop) (missing : OutPoint → Prop)
    (outpoint : OutPoint) : FactState → FactState → Prop
  | attempt (source : FactSource) (attempts : Nat) :
      FactMove given missing outpoint (.awaiting source attempts)
        (.awaiting source (min (attempts + 1) 255))
  | fallBack (attempts : Nat) :
      FactMove given missing outpoint (.awaiting .currentParent attempts)
        (.awaiting .parentFallback 0)
  | block {state : FactState} {source : FactSource} (hWaiting : state.waitingSource = some source) :
      FactMove given missing outpoint state (.capacityBlocked source)
  | store {state : FactState} {source : FactSource} {script : Script}
      (hWaiting : state.waitingSource = some source) (hGiven : given outpoint script) :
      FactMove given missing outpoint state (.ready script)
  | defer {source : FactSource} {attempts : Nat}
      (hExhausted : maxFactAttemptsPerSourcePerWindow ≤ attempts) :
      FactMove given missing outpoint (.awaiting source attempts) .operationallyDeferred
  | miss {attempts : Nat} (hMissing : missing outpoint) :
      FactMove given missing outpoint (.awaiting .confirmed attempts) .explicitlyMissing

/-- Any number of moves of the fact at `outpoint`. -/
abbrev FactMoves (given : OutPoint → Script → Prop) (missing : OutPoint → Prop)
    (outpoint : OutPoint) : FactState → FactState → Prop :=
  ReflTransGen (FactMove given missing outpoint)

/-- A candidate but for its cursor. -/
structure SameCandidate (candidate candidate' : PendingCandidate) : Prop where
  expected : candidate'.expected = candidate.expected
  transaction : candidate'.transaction = candidate.transaction
  required : candidate'.required = candidate.required

theorem SameCandidate.refl (candidate : PendingCandidate) : SameCandidate candidate candidate :=
  ⟨rfl, rfl, rfl⟩

theorem SameCandidate.trans {a b c : PendingCandidate} (h₁ : SameCandidate a b)
    (h₂ : SameCandidate b c) : SameCandidate a c :=
  ⟨h₂.expected.trans h₁.expected, h₂.transaction.trans h₁.transaction,
    h₂.required.trans h₁.required⟩

namespace PendingSlice

/-- Facts have moved; the candidates are the same, in some fair order. -/
structure Moved (given : OutPoint → Script → Prop) (missing : OutPoint → Prop)
    (pending pending' : PendingSlice) : Prop where
  facts : ∀ outpoint : OutPoint, Option.Rel (FactMoves given missing outpoint)
    pending.facts[outpoint]? pending'.facts[outpoint]?
  active : ∀ key : String, Option.Rel SameCandidate pending.active[key]? pending'.active[key]?
  fairOrder : pending'.fairOrder.Perm pending.fairOrder
  queued : pending'.queued = pending.queued
  rawOutputs : pending'.rawOutputs = pending.rawOutputs

variable {given : OutPoint → Script → Prop} {missing : OutPoint → Prop}

theorem rel_refl {α : Type} {r : α → α → Prop} (h : ∀ a, r a a) (o : Option α) :
    Option.Rel r o o := by
  cases o with
  | none => exact .none
  | some a => exact .some (h a)

theorem rel_trans {α : Type} {r : α → α → Prop} (h : ∀ a b c, r a b → r b c → r a c)
    {o₁ o₂ o₃ : Option α} (h₁ : Option.Rel r o₁ o₂) (h₂ : Option.Rel r o₂ o₃) :
    Option.Rel r o₁ o₃ := by
  cases h₁ with
  | none => exact h₂
  | some hab =>
    cases h₂ with
    | some hbc => exact .some (h _ _ _ hab hbc)

theorem Moved.refl (pending : PendingSlice) : Moved given missing pending pending :=
  ⟨fun _ => rel_refl (fun _ => ReflTransGen.refl) _, fun _ => rel_refl SameCandidate.refl _,
    List.Perm.refl _, rfl, rfl⟩

theorem Moved.trans {a b c : PendingSlice} (h₁ : Moved given missing a b)
    (h₂ : Moved given missing b c) : Moved given missing a c :=
  ⟨fun outpoint => rel_trans (fun _ _ _ => ReflTransGen.trans) (h₁.facts outpoint) (h₂.facts outpoint),
    fun key => @rel_trans _ SameCandidate (fun _ _ _ => SameCandidate.trans) _ _ _ (h₁.active key)
      (h₂.active key),
    h₂.fairOrder.trans h₁.fairOrder, h₂.queued.trans h₁.queued,
    h₂.rawOutputs.trans h₁.rawOutputs⟩

/-- The state a moved fact comes from. -/
theorem Moved.fact_from {pending pending' : PendingSlice} (h : Moved given missing pending pending')
    {outpoint : OutPoint} {state' : FactState} (hGet : pending'.facts[outpoint]? = some state') :
    ∃ state, pending.facts[outpoint]? = some state ∧ FactMoves given missing outpoint state state' := by
  have hRel := h.facts outpoint
  rw [hGet] at hRel
  cases hOld : pending.facts[outpoint]? with
  | none =>
    rw [hOld] at hRel
    cases hRel
  | some state =>
    rw [hOld] at hRel
    cases hRel with
    | some hMoves => exact ⟨state, rfl, hMoves⟩

theorem Moved.fact_to {pending pending' : PendingSlice} (h : Moved given missing pending pending')
    {outpoint : OutPoint} {state : FactState} (hGet : pending.facts[outpoint]? = some state) :
    ∃ state', pending'.facts[outpoint]? = some state' ∧
      FactMoves given missing outpoint state state' := by
  have hRel := h.facts outpoint
  rw [hGet] at hRel
  cases hNew : pending'.facts[outpoint]? with
  | none =>
    rw [hNew] at hRel
    cases hRel
  | some state' =>
    rw [hNew] at hRel
    cases hRel with
    | some hMoves => exact ⟨state', rfl, hMoves⟩

theorem Moved.active_from {pending pending' : PendingSlice}
    (h : Moved given missing pending pending') {key : String} {candidate' : PendingCandidate}
    (hGet : pending'.active[key]? = some candidate') :
    ∃ candidate, pending.active[key]? = some candidate ∧ SameCandidate candidate candidate' := by
  have hRel := h.active key
  rw [hGet] at hRel
  cases hOld : pending.active[key]? with
  | none =>
    rw [hOld] at hRel
    cases hRel
  | some candidate =>
    rw [hOld] at hRel
    cases hRel with
    | some hSame => exact ⟨candidate, rfl, hSame⟩

-- ---------------------------------------------------------------------------
-- One fact at a time
-- ---------------------------------------------------------------------------

/-- A pass over the facts that moves each of them. -/
theorem moved_of_facts {pending pending' : PendingSlice}
    (hFacts : ∀ outpoint : OutPoint, Option.Rel (FactMoves given missing outpoint)
      pending.facts[outpoint]? pending'.facts[outpoint]?)
    (hActive : pending'.active = pending.active) (hOrder : pending'.fairOrder = pending.fairOrder)
    (hQueued : pending'.queued = pending.queued)
    (hRaw : pending'.rawOutputs = pending.rawOutputs) : Moved given missing pending pending' :=
  ⟨hFacts, fun key => by rw [hActive]; exact rel_refl SameCandidate.refl _, by rw [hOrder], hQueued,
    hRaw⟩

theorem moved_insert {pending : PendingSlice} {outpoint : OutPoint} {state state' : FactState}
    (hGet : pending.facts[outpoint]? = some state)
    (hMove : FactMove given missing outpoint state state') (pendingScriptBytes : Nat)
    (deferredFacts : BTreeSet OutPoint) :
    Moved given missing pending {
      pending with
      facts := pending.facts.insert outpoint state', pendingScriptBytes, deferredFacts } := by
  refine moved_of_facts (fun other => ?_) rfl rfl rfl rfl
  show Option.Rel _ _ (pending.facts.insert outpoint state')[other]?
  rw [BTreeMap.getElem?_insert_eq]
  split
  · next hEq =>
    rw [← hEq, hGet]
    exact .some (ReflTransGen.single hMove)
  · exact rel_refl (fun _ => ReflTransGen.refl) _

theorem moved_modify {pending : PendingSlice} {outpoint : OutPoint} {f : FactState → FactState}
    (hMove : ∀ state, pending.facts[outpoint]? = some state →
      FactMoves given missing outpoint state (f state)) (deferredFacts : BTreeSet OutPoint) :
    Moved given missing pending {
      pending with facts := pending.facts.modify outpoint f, deferredFacts } := by
  refine moved_of_facts (fun other => ?_) rfl rfl rfl rfl
  show Option.Rel _ _ (pending.facts.modify outpoint f)[other]?
  rw [Std.ExtTreeMap.getElem?_modify]
  split
  · next hEq =>
    rw [← Std.LawfulEqCmp.compare_eq_iff_eq.mp hEq]
    cases hGet : pending.facts[outpoint]? with
    | none => exact .none
    | some state => exact .some (hMove state hGet)
  · exact rel_refl (fun _ => ReflTransGen.refl) _

theorem recountScriptBytes_moved (pending : PendingSlice) :
    Moved given missing pending pending.recountScriptBytes :=
  moved_of_facts (fun _ => rel_refl (fun _ => ReflTransGen.refl) _) rfl rfl rfl rfl

-- ---------------------------------------------------------------------------
-- Storing scripts
-- ---------------------------------------------------------------------------

theorem storeWaiting_moved {pending : PendingSlice} {outpoint : OutPoint} {script : Script}
    {state : FactState} {source : FactSource} (maximum : Nat)
    (hGet : pending.facts[outpoint]? = some state) (hWaiting : state.waitingSource = some source)
    (hGiven : given outpoint script) :
    Moved given missing pending (pending.storeWaiting outpoint script maximum).2 := by
  unfold storeWaiting
  split
  · exact Moved.refl pending
  · split
    · exact Moved.refl pending
    · exact moved_insert hGet (.store hWaiting hGiven) _ _

theorem storeScript_moved (pending : PendingSlice) {outpoint : OutPoint} {script : Script}
    (maximum : Nat) (hGiven : given outpoint script) :
    Moved given missing pending (pending.storeScript outpoint script maximum).2 := by
  unfold storeScript
  split
  · exact Moved.refl pending
  · next source _ hGet => exact @storeWaiting_moved _ _ _ _ _ _ source maximum hGet rfl hGiven
  · next source hGet => exact @storeWaiting_moved _ _ _ _ _ _ source maximum hGet rfl hGiven
  all_goals exact Moved.refl pending

theorem markCapacityBlocked_moved (pending : PendingSlice) (outpoint : OutPoint) :
    Moved given missing pending (pending.markCapacityBlocked outpoint) := by
  unfold markCapacityBlocked
  split
  · exact Moved.refl pending
  · next source hSource =>
    obtain ⟨state, hGet, hWaiting⟩ := Option.bind_eq_some_iff.mp hSource
    exact moved_insert hGet (.block hWaiting) _ _

theorem absorb_moved (pending : PendingSlice) {outpoint : OutPoint} {script : Script}
    (limits : ResolverLimits) (hGiven : given outpoint script) :
    Moved given missing pending (pending.absorb outpoint script limits).2 := by
  have hStored : Moved given missing pending
      (pending.storeScript outpoint script limits.maxPendingScriptBytes).2 :=
    storeScript_moved pending _ hGiven
  simp only [absorb]
  split
  · exact hStored
  · exact hStored.trans (markCapacityBlocked_moved _ outpoint)

theorem Absorbed.add_moved (absorbed : Absorbed) {outpoint : OutPoint} {script : Option Script}
    (limits : ResolverLimits) (hGiven : ∀ s, script = some s → given outpoint s) :
    Moved given missing absorbed.pending (absorbed.add outpoint script limits).pending := by
  cases script with
  | none => exact Moved.refl _
  | some s => exact absorb_moved absorbed.pending limits (hGiven s rfl)

theorem hydrateFromCachesLoop_moved {variants : BTreeMap Txid CurrentVariant}
    {outputs : BTreeMap Txid CachedOutputs} {limits : ResolverLimits}
    {rawOutputs : BTreeMap Txid CachedOutputs}
    (hParent : ∀ outpoint script, parentScript rawOutputs variants outputs outpoint = some script →
      given outpoint script) :
    ∀ (waiting : List (OutPoint × FactSource)) (absorbed : Absorbed)
      (confirmed : ConfirmedScriptCache) (absorbed' : Absorbed)
      (confirmed' : ConfirmedScriptCache), confirmed.Accounted none →
      absorbed.pending.rawOutputs = rawOutputs →
      (∀ (outpoint : OutPoint) entry, confirmed.entries[outpoint]? = some entry →
        given outpoint entry.script) →
      hydrateFromCachesLoop variants outputs limits waiting absorbed confirmed =
        .ok (absorbed', confirmed') →
      Moved given missing absorbed.pending absorbed'.pending
  | [], absorbed, confirmed, absorbed', confirmed', _, _, _, h => by
    obtain ⟨rfl, -⟩ : absorbed = absorbed' ∧ confirmed = confirmed' := by
      simpa [hydrateFromCachesLoop] using h
    exact Moved.refl _
  | (outpoint, source) :: rest, absorbed, confirmed, absorbed', confirmed', hAcc, hRaw, hCache, h => by
    have hRead : (do
        let read ← confirmed.get outpoint
        hydrateFromCachesLoop variants outputs limits rest (absorbed.add outpoint read.1 limits)
          read.2) = .ok (absorbed', confirmed') →
        Moved given missing absorbed.pending absorbed'.pending := by
      intro hLoop
      obtain ⟨cache', hGet, hSame, hAcc'⟩ := ConfirmedScriptCache.get_spec hAcc outpoint
      rw [hGet] at hLoop
      have hAdd : Moved given missing absorbed.pending (absorbed.add outpoint
          (confirmed.entries[outpoint]?.map ConfirmedCacheEntry.script) limits).pending := by
        refine absorbed.add_moved limits fun script hScript => ?_
        obtain ⟨entry, hEntry, rfl⟩ := Option.map_eq_some_iff.mp hScript
        exact hCache outpoint entry hEntry
      refine hAdd.trans (hydrateFromCachesLoop_moved hParent rest _ cache' absorbed' confirmed' hAcc'
        (hAdd.rawOutputs.trans hRaw) ?_ hLoop)
      intro other entry hEntry
      have hFact := hSame.entries other
      rw [hEntry, Option.map_some] at hFact
      obtain ⟨old, hOld, hEq⟩ := Option.map_eq_some_iff.mp hFact.symm
      have hScript : old.script = entry.script := congrArg Prod.fst hEq
      rw [← hScript]
      exact hCache other old hOld
    cases source with
    | currentParent =>
      have hAdd : Moved given missing absorbed.pending (absorbed.add outpoint
          (parentScript absorbed.pending.rawOutputs variants outputs outpoint) limits).pending :=
        absorbed.add_moved limits fun script hScript => hParent outpoint script (hRaw ▸ hScript)
      exact hAdd.trans (hydrateFromCachesLoop_moved hParent rest _ confirmed absorbed' confirmed'
        hAcc (hAdd.rawOutputs.trans hRaw) hCache h)
    | confirmed => exact hRead h
    | parentFallback => exact hRead h

theorem hydrateFromCaches_moved {pending : PendingSlice} {variants : BTreeMap Txid CurrentVariant}
    {outputs : BTreeMap Txid CachedOutputs} {confirmed confirmed' : ConfirmedScriptCache}
    {limits : ResolverLimits} {absorbed : Absorbed} (hAcc : confirmed.Accounted none)
    (hParent : ∀ outpoint script,
      parentScript pending.rawOutputs variants outputs outpoint = some script →
        given outpoint script)
    (hCache : ∀ (outpoint : OutPoint) entry, confirmed.entries[outpoint]? = some entry →
      given outpoint entry.script)
    (h : pending.hydrateFromCaches variants outputs confirmed limits = .ok (absorbed, confirmed')) :
    Moved given missing pending absorbed.pending :=
  hydrateFromCachesLoop_moved hParent _ _ confirmed absorbed confirmed' hAcc rfl hCache h

theorem hydrateFromTransient_moved (pending : PendingSlice) {outputs : BTreeMap Txid CachedOutputs}
    {confirmed : BTreeMap OutPoint Script} (limits : ResolverLimits)
    (hGiven : ∀ outpoint source script,
      transientScript outputs confirmed outpoint source = some script → given outpoint script) :
    Moved given missing pending (pending.hydrateFromTransient outputs confirmed limits).pending := by
  refine List.foldlRecOn (motive := fun absorbed : Absorbed =>
    Moved given missing pending absorbed.pending) _ _ (Moved.refl pending) ?_
  intro absorbed hMoved fact _
  exact hMoved.trans (absorbed.add_moved limits fun script hScript => hGiven _ _ script hScript)

-- ---------------------------------------------------------------------------
-- Waves
-- ---------------------------------------------------------------------------

/-- What every fact a wave takes is allowed to do. -/
def WaveRules.Moving {σ : Type} (rules : WaveRules σ) (given : OutPoint → Script → Prop)
    (missing : OutPoint → Prop) : Prop :=
  ∀ {outpoint : OutPoint} {pending pending' : PendingSlice} {selection selection' : σ},
    rules.take outpoint pending selection = some (pending', selection') →
    Moved given missing pending pending'

theorem rotate_moved {pending : PendingSlice} {key : String} {rest : List String}
    (h : pending.fairOrder = key :: rest) :
    Moved given missing pending { pending with fairOrder := rest ++ [key] } :=
  ⟨fun _ => rel_refl (fun _ => ReflTransGen.refl) _, fun _ => rel_refl SameCandidate.refl _,
    by rw [h]; exact List.perm_append_singleton key rest, rfl, rfl⟩

theorem cursor_moved (pending : PendingSlice) {key : String} {candidate : PendingCandidate}
    (h : pending.active[key]? = some candidate) (factCursor : Nat) :
    Moved given missing pending {
      pending with active := pending.active.insert key { candidate with factCursor } } := by
  refine ⟨fun _ => rel_refl (fun _ => ReflTransGen.refl) _, fun other => ?_, List.Perm.refl _, rfl,
    rfl⟩
  show Option.Rel _ _ (pending.active.insert key _)[other]?
  rw [BTreeMap.getElem?_insert_eq]
  split
  · next hEq =>
    rw [← hEq, h]
    exact .some ⟨rfl, rfl, rfl⟩
  · exact rel_refl SameCandidate.refl _

theorem Wave.visit_moved {σ : Type} {rules : WaveRules σ} (hRules : rules.Moving given missing)
    (wave : Wave σ) : Moved given missing wave.pending (wave.visit rules).pending := by
  simp only [Wave.visit]
  split
  · exact Moved.refl _
  · next key rest hOrder =>
    have hRotate : Moved given missing wave.pending
        { wave.pending with fairOrder := rest ++ [key] } := rotate_moved hOrder
    split
    · exact hRotate
    · next candidate hGet =>
      split
      · exact hRotate
      · next outpoint factCursor _ =>
        have hCursor := hRotate.trans
          (cursor_moved { wave.pending with fairOrder := rest ++ [key] } hGet factCursor)
        split
        · exact hCursor
        · next pending selection hTake => exact hCursor.trans (hRules hTake)

theorem Wave.round_moved {σ : Type} {rules : WaveRules σ} (hRules : rules.Moving given missing)
    (turns : Nat) (wave : Wave σ) :
    Moved given missing wave.pending (wave.round rules turns).pending := by
  induction turns generalizing wave with
  | zero => exact Moved.refl _
  | succ turns ih =>
    unfold Wave.round
    split
    · exact Moved.refl _
    · exact (wave.visit_moved hRules).trans (ih _)

theorem Wave.rounds_moved {σ : Type} {rules : WaveRules σ} (hRules : rules.Moving given missing)
    (fuel : Nat) (wave : Wave σ) :
    Moved given missing wave.pending (wave.rounds rules fuel).pending := by
  induction fuel generalizing wave with
  | zero => exact Moved.refl _
  | succ fuel ih =>
    have hRound := Wave.round_moved hRules wave.pending.fairOrder.length { wave with added := false }
    simp only [Wave.rounds]
    split
    · exact hRound
    · exact hRound.trans (ih _)

theorem Wave.select_moved {σ : Type} {rules : WaveRules σ} (hRules : rules.Moving given missing)
    (pending : PendingSlice) (selection : σ) :
    Moved given missing pending (Wave.select rules pending selection).pending :=
  Wave.rounds_moved hRules _ { pending, selection }

theorem mapParentFacts_moved (pending : PendingSlice) (parentTxid : Txid)
    {f : FactState → FactState}
    (hMove : ∀ outpoint attempts,
      FactMove given missing outpoint (.awaiting .currentParent attempts)
        (f (.awaiting .currentParent attempts))) :
    Moved given missing pending (pending.mapParentFacts parentTxid f) := by
  refine moved_of_facts (fun outpoint => ?_) rfl rfl rfl rfl
  show Option.Rel _ _ (pending.facts.map _)[outpoint]?
  rw [Std.ExtTreeMap.getElem?_map]
  cases hGet : pending.facts[outpoint]? with
  | none => exact .none
  | some state =>
    refine .some ?_
    dsimp only
    split
    · next hParent =>
      match state, hParent.2 with
      | .awaiting .currentParent attempts, _ => exact ReflTransGen.single (hMove outpoint attempts)
    · exact ReflTransGen.refl

theorem recordParentAttempt_moved (pending : PendingSlice) (parentTxid : Txid) :
    Moved given missing pending (pending.recordParentAttempt parentTxid) :=
  mapParentFacts_moved pending parentTxid fun _ attempts => .attempt .currentParent attempts

theorem fallBackParentToGettxout_moved (pending : PendingSlice) (parentTxid : Txid) :
    Moved given missing pending (pending.fallBackParentToGettxout parentTxid) :=
  mapParentFacts_moved pending parentTxid fun _ attempts => .fallBack attempts

theorem recordFactAttempt_moved (pending : PendingSlice) (outpoint : OutPoint) :
    Moved given missing pending (pending.recordFactAttempt outpoint) := by
  refine moved_modify (fun state _ => ?_) _
  cases state with
  | awaiting source attempts => exact ReflTransGen.single (.attempt source attempts)
  | _ => exact ReflTransGen.refl

theorem parentRules_moving [BitcoinCrate] (variants : BTreeMap Txid CurrentVariant)
    (limits : ResolverLimits) : (parentRules variants limits).Moving given missing := by
  intro outpoint pending pending' selection selection' hTake
  have hTake' : takeParent variants outpoint pending selection = some (pending', selection') := hTake
  simp only [takeParent] at hTake'
  split at hTake'
  · cases hTake'
  · split at hTake'
    · cases hTake'
    · simp only [Option.some.injEq, Prod.mk.injEq] at hTake'
      rw [← hTake'.1]
      exact recordParentAttempt_moved pending outpoint.txid

theorem confirmedRules_moving (maximum : Nat) :
    (confirmedRules maximum).Moving given missing := by
  intro outpoint pending pending' selection selection' hTake
  simp only [confirmedRules, Option.some.injEq, Prod.mk.injEq] at hTake
  rw [← hTake.1]
  exact recordFactAttempt_moved pending outpoint

theorem nextParentWave_moved [BitcoinCrate] (pending : PendingSlice)
    (variants : BTreeMap Txid CurrentVariant) (limits : ResolverLimits) :
    Moved given missing pending (pending.nextParentWave variants limits).2 := by
  simp only [nextParentWave]
  split
  · exact Wave.select_moved (parentRules_moving variants limits) pending {}
  · exact Moved.refl pending

theorem nextConfirmedWave_moved (pending : PendingSlice) (limits : ResolverLimits) :
    Moved given missing pending (pending.nextConfirmedWave limits).2 := by
  simp only [nextConfirmedWave]
  split
  · exact Moved.refl pending
  · exact Wave.select_moved (confirmedRules_moving _) pending {}

-- ---------------------------------------------------------------------------
-- Answers and deferrals
-- ---------------------------------------------------------------------------

theorem deferIfAttemptsExhausted_moved (pending : PendingSlice) (outpoint : OutPoint) :
    Moved given missing pending (pending.deferIfAttemptsExhausted outpoint) := by
  unfold deferIfAttemptsExhausted
  split
  · next hExhausted =>
    refine moved_modify (fun state hGet => ?_) _
    rw [hGet, Option.any_some] at hExhausted
    match state, hExhausted with
    | .awaiting source attempts, hExhausted =>
      exact ReflTransGen.single (.defer (by simpa [FactState.isExhausted] using hExhausted))
  · exact Moved.refl pending

theorem applyParentOutputs_moved {outputs : CachedOutputs} {limits : ResolverLimits} :
    ∀ (outpoints : List OutPoint) (absorbed : Absorbed),
      (∀ outpoint ∈ outpoints, ∀ script, outputs.script outpoint.vout = some script →
        given outpoint script) →
      Moved given missing absorbed.pending
        (applyParentOutputs outputs limits outpoints absorbed).pending
  | [], absorbed, _ => Moved.refl _
  | outpoint :: rest, absorbed, hGiven => by
    have hRest := fun other hOther => hGiven other (List.mem_cons_of_mem outpoint hOther)
    simp only [applyParentOutputs]
    split
    · exact (deferIfAttemptsExhausted_moved absorbed.pending outpoint).trans
        (applyParentOutputs_moved rest { absorbed with
          pending := absorbed.pending.deferIfAttemptsExhausted outpoint } hRest)
    · next script hScript =>
      have hAdd : Moved given missing absorbed.pending
          (absorbed.add outpoint (some script) limits).pending :=
        absorbed.add_moved limits fun s hSome => by
          rw [← Option.some.inj hSome]
          exact hGiven outpoint List.mem_cons_self script hScript
      exact hAdd.trans (applyParentOutputs_moved rest _ hRest)

theorem applyParentTransaction_moved [BitcoinCrate] (pending : PendingSlice)
    {expected : ExpectedVariant} {transaction : Transaction} (limits : ResolverLimits)
    (hGiven : ∀ outpoint script, BitcoinCrate.txidFromStr expected.txid = some outpoint.txid →
      (cachedOutputs expected transaction).script outpoint.vout = some script →
      given outpoint script) :
    Moved given missing pending
      (pending.applyParentTransaction expected transaction limits).2.pending := by
  simp only [applyParentTransaction]
  split
  · exact Moved.refl pending
  · next txid hTxid =>
    refine applyParentOutputs_moved _ { pending } fun outpoint hMem script hScript => ?_
    refine hGiven outpoint script ?_ hScript
    obtain ⟨⟨found, state⟩, hFact, rfl⟩ := List.mem_map.mp hMem
    have hCond := (List.mem_filter.mp hFact).2
    simp only [Bool.and_eq_true, beq_iff_eq] at hCond
    rw [hCond.1]
    exact hTxid

theorem applyConfirmedValue_moved (pending : PendingSlice) {outpoint : OutPoint}
    {value : RpcValue Script} (limits : ResolverLimits)
    (hFound : ∀ script, value = .found script → given outpoint script)
    (hNull : value = .explicitNull → ∀ attempts,
      pending.facts[outpoint]? = some (.awaiting .confirmed attempts) → missing outpoint) :
    Moved given missing pending (pending.applyConfirmedValue outpoint value limits).pending := by
  cases value with
  | found script => exact absorb_moved pending limits (hFound script rfl)
  | explicitNull =>
    simp only [applyConfirmedValue]
    split
    · next attempts hGet => exact moved_insert hGet (.miss (hNull rfl attempts hGet)) _ _
    · exact deferIfAttemptsExhausted_moved pending outpoint
    · exact Moved.refl pending
  | retryableFailure => exact deferIfAttemptsExhausted_moved pending outpoint
  | systemicFailure => exact Moved.refl pending

theorem deferOneCapacityBlockedFact_moved (pending : PendingSlice) :
    Moved given missing pending pending.deferOneCapacityBlockedFact.2 := by
  simp only [deferOneCapacityBlockedFact]
  split
  · exact Moved.refl pending
  · exact markCapacityBlocked_moved pending _

end PendingSlice

end MempoolAtlas.Classification
