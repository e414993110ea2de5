import MempoolAtlas.Classification.PendingWindow

/-!
# Capacity pressure

`resolve_capacity_pressure` with the `recover_known_facts` it repeats, step by step.
Between two steps the call releases its locks, so each step may find any caches and any
current generation. A call that goes on has removed a candidate, and one that returns has
classified what it could and keeps every script that only it has fetched.

## Results

* `pressureStep_of_callStep` — the steps are those of a slice of the pipeline.
* `PressureStep.rank_lt` — between two removals the stages go forward.
* `underPressure_run` — a run under pressure keeps the account.
* `capacity_pressure` — the call returns, and what it has done by then.
-/

namespace MempoolAtlas.Classification

open Machine Model Relation BitcoinCrate PendingSlice

-- ---------------------------------------------------------------------------
-- Hydration
-- ---------------------------------------------------------------------------

namespace PendingSlice

variable {pending : PendingSlice} {limits : ResolverLimits}

/-- No hydration changes which candidates are active. -/
theorem closed_active (limits : ResolverLimits) (start : PendingSlice) :
    Closed limits fun pending => ∀ key, key ∈ pending.active ↔ key ∈ start.active where
  store script h _ _ := by
    unfold storeWaiting
    split
    · exact h
    · split
      · exact h
      · exact h
  block outpoint h := by
    unfold markCapacityBlocked
    split
    · exact h
    · exact h
  attempt outpoint h := h
  parentAttempt parentTxid h := h
  fallBack parentTxid h := h
  defer h _ := h
  miss h _ := h
  cursor {pending key candidate factCursor} h hActive _ := by
    intro other
    show other ∈ pending.active.insert key _ ↔ _
    rw [Std.ExtTreeMap.mem_insert, h other, Std.LawfulEqCmp.compare_eq_iff_eq, or_iff_right_iff_imp]
    rintro rfl
    exact (h key).mp (Std.ExtTreeMap.mem_iff_isSome_getElem?.mpr (by rw [hActive]; rfl))
  rotate h _ := h

theorem insert_awaits {facts : BTreeMap OutPoint FactState} {outpoint other : OutPoint}
    {state : FactState} {source : FactSource} {attempts : Nat} (hState : state.isAwaiting = false)
    (h : (facts.insert outpoint state)[other]? = some (.awaiting source attempts)) :
    other ≠ outpoint ∧ facts[other]? = some (.awaiting source attempts) := by
  rw [BTreeMap.getElem?_insert_eq] at h
  split at h
  · rw [Option.some.inj h] at hState
    cases hState
  · next hNe => exact ⟨Ne.symm hNe, h⟩

/-- Blocking a fact leaves the others awaited. -/
theorem markCapacityBlocked_awaits {outpoint other : OutPoint} {source : FactSource}
    {attempts : Nat} (h : (pending.markCapacityBlocked outpoint).facts[other]? =
      some (.awaiting source attempts)) :
    other ≠ outpoint ∧ pending.facts[other]? = some (.awaiting source attempts) := by
  unfold markCapacityBlocked at h
  split at h
  · next hSource =>
    refine ⟨?_, h⟩
    rintro rfl
    rw [h] at hSource
    cases hSource
  · exact insert_awaits rfl h

/-- A script absorbed leaves its fact no longer awaited, and makes no other fact so. -/
theorem absorb_awaits {outpoint other : OutPoint} {script : Script} {source : FactSource}
    {attempts : Nat}
    (h : (pending.absorb outpoint script limits).2.facts[other]? =
      some (.awaiting source attempts)) :
    other ≠ outpoint ∧ pending.facts[other]? = some (.awaiting source attempts) := by
  have hWaiting : (pending.storeWaiting outpoint script limits.maxPendingScriptBytes =
      (false, pending)) ∨ ∃ pendingScriptBytes,
      pending.storeWaiting outpoint script limits.maxPendingScriptBytes = (true, {
        pending with
        facts := pending.facts.insert outpoint (.ready script), pendingScriptBytes }) := by
    unfold storeWaiting
    split
    · exact Or.inl rfl
    · split
      · exact Or.inl rfl
      · exact Or.inr ⟨_, rfl⟩
  have hStore : pending.storeScript outpoint script limits.maxPendingScriptBytes =
        (false, pending) ∨
      (∃ held, pending.facts[outpoint]? = some (.ready held) ∧
        pending.storeScript outpoint script limits.maxPendingScriptBytes = (true, pending)) ∨
      ∃ pendingScriptBytes, pending.storeScript outpoint script limits.maxPendingScriptBytes =
        (true, { pending with
          facts := pending.facts.insert outpoint (.ready script), pendingScriptBytes }) := by
    unfold storeScript
    split
    · next held hHeld => exact Or.inr (Or.inl ⟨held, hHeld, rfl⟩)
    · exact hWaiting.imp_right Or.inr
    · exact hWaiting.imp_right Or.inr
    all_goals exact Or.inl rfl
  simp only [absorb] at h
  rcases hStore with hRefused | ⟨held, hHeld, hStored⟩ | ⟨pendingScriptBytes, hStored⟩
  · rw [hRefused] at h
    exact markCapacityBlocked_awaits h
  · rw [hStored] at h
    refine ⟨?_, h⟩
    rintro rfl
    rw [if_pos rfl, hHeld] at h
    cases h
  · rw [hStored] at h
    exact insert_awaits rfl h

/-- What is still awaited after a pass over the transient scripts has none there. -/
theorem hydrateFromTransient_awaits {outputs : BTreeMap Txid CachedOutputs}
    {confirmed : BTreeMap OutPoint Script} {outpoint : OutPoint} {source : FactSource}
    {attempts : Nat} (h : (pending.hydrateFromTransient outputs confirmed limits).pending.facts[
      outpoint]? = some (.awaiting source attempts)) :
    transientScript outputs confirmed outpoint source = none := by
  have hFold : ∀ (waiting : List (OutPoint × FactSource)) (absorbed : Absorbed),
      (waiting.foldl (fun absorbed fact =>
        absorbed.add fact.1 (transientScript outputs confirmed fact.1 fact.2) limits)
        absorbed).pending.facts[outpoint]? = some (.awaiting source attempts) →
      absorbed.pending.facts[outpoint]? = some (.awaiting source attempts) ∧
        ∀ held, (outpoint, held) ∈ waiting →
          transientScript outputs confirmed outpoint held = none := by
    intro waiting
    induction waiting with
    | nil => exact fun absorbed hGet => ⟨hGet, fun held hMem => absurd hMem List.not_mem_nil⟩
    | cons fact rest ih =>
      intro absorbed hGet
      obtain ⟨hAfter, hRest⟩ := ih _ hGet
      cases hScript : transientScript outputs confirmed fact.1 fact.2 with
      | none =>
        simp only [hScript] at hAfter
        refine ⟨hAfter, fun held hMem => ?_⟩
        rcases List.mem_cons.mp hMem with hEq | hMem
        · rw [← hEq] at hScript
          exact hScript
        · exact hRest held hMem
      | some script =>
        simp only [hScript] at hAfter
        obtain ⟨hNe, hBefore⟩ := absorb_awaits hAfter
        refine ⟨hBefore, fun held hMem => ?_⟩
        rcases List.mem_cons.mp hMem with hEq | hMem
        · exact absurd (congrArg Prod.fst hEq) hNe
        · exact hRest held hMem
  obtain ⟨hStart, hNone⟩ := hFold pending.waiting { pending } h
  refine hNone source (List.mem_filterMap.mpr ⟨(outpoint, .awaiting source attempts),
    BTreeMap.mem_toList.mpr hStart, rfl⟩)

/-- A search that keeps what it has found found nothing among what it passed. -/
theorem foldl_eq_none {α β : Type} {f : Option α → β → Option α}
    (hKeeps : ∀ found item, ∃ found', f (some found) item = some found') {items : List β}
    (h : items.foldl f none = none) : ∀ item ∈ items, f none item = none := by
  have hStays : ∀ (items : List β) (found : α), ∃ found', items.foldl f (some found) =
      some found' := by
    intro items
    induction items with
    | nil => exact fun found => ⟨found, rfl⟩
    | cons item rest ih =>
      intro found
      obtain ⟨found', hFound⟩ := hKeeps found item
      rw [List.foldl_cons, hFound]
      exact ih found'
  induction items with
  | nil => exact fun item hMem => absurd hMem List.not_mem_nil
  | cons first rest ih =>
    rw [List.foldl_cons] at h
    cases hFirst : f none first with
    | some found =>
      obtain ⟨found', hFound⟩ := hStays rest found
      rw [hFirst, hFound] at h
      cases h
    | none =>
      rw [hFirst] at h
      intro item hMem
      rcases List.mem_cons.mp hMem with rfl | hMem
      · exact hFirst
      · exact ih h item hMem

/-- With nobody to defer, nobody in the fair order requires a blocked fact. -/
theorem doomedCandidate_eq_none (h : pending.doomedCandidate = none) {key : String}
    {candidate : PendingCandidate} (hOrder : key ∈ pending.fairOrder)
    (hActive : pending.active[key]? = some candidate) :
    ∀ outpoint ∈ candidate.required,
      pending.facts[outpoint]?.any FactState.isCapacityBlocked = false := by
  have hPassed := foldl_eq_none (fun found item => ?_) h key hOrder
  · dsimp only at hPassed
    rw [hActive] at hPassed
    dsimp only at hPassed
    split at hPassed
    · cases hPassed
    · next hNot =>
      simp only [Bool.not_eq_true, List.any_eq_false] at hNot
      exact fun outpoint hMem => by simpa using hNot outpoint hMem
  · dsimp only
    split
    · exact ⟨found, rfl⟩
    · split
      · split
        · exact ⟨_, rfl⟩
        · exact ⟨found, rfl⟩
      · exact ⟨found, rfl⟩

theorem size_active_eq {pending' : PendingSlice}
    (h : ∀ key, key ∈ pending'.active ↔ key ∈ pending.active) :
    pending'.active.size = pending.active.size := by
  rw [← Std.ExtTreeMap.length_keys, ← Std.ExtTreeMap.length_keys]
  exact (BTreeMap.keys_perm h).length_eq

/-- Losing a candidate and gaining none. -/
theorem size_active_lt {pending' : PendingSlice}
    (h : ∀ key, key ∈ pending'.active → key ∈ pending.active) {key : String}
    (hBefore : key ∈ pending.active) (hAfter : key ∉ pending'.active) :
    pending'.active.size < pending.active.size := by
  rw [← Std.ExtTreeMap.length_keys, ← Std.ExtTreeMap.length_keys]
  have hSub : key :: pending'.active.keys ⊆ pending.active.keys := by
    intro other hMem
    rw [Std.ExtTreeMap.mem_keys]
    rcases List.mem_cons.mp hMem with rfl | hMem
    · exact hBefore
    · exact h other (Std.ExtTreeMap.mem_keys.mp hMem)
  have hNodup : (key :: pending'.active.keys).Nodup :=
    List.nodup_cons.mpr ⟨fun hMem => hAfter (Std.ExtTreeMap.mem_keys.mp hMem),
      BTreeMap.nodup_keys _⟩
  exact (List.subperm_of_subset hNodup hSub).length_le

end PendingSlice

-- ---------------------------------------------------------------------------
-- The call
-- ---------------------------------------------------------------------------

/-- A point of the call, with the candidates it has deferred. -/
structure Pressure where
  call : Call
  deferred : List String := []

/-- The candidate the next decision defers. -/
def Working.doomed (working : Working) (deferredOnce : Bool) : Option String :=
  if deferredOnce ∧ !working.pending.hasTransientCapacityBlockedFact working.advance.outputs
      working.advance.confirmedScripts then none
  else working.pending.doomedCandidate.map Prod.fst

/-- One step of the call, in whatever state of the pipeline it finds. -/
inductive PressureStep [BitcoinCrate] (resolver : ResolverLimits) : Pressure → Pressure → Prop
  | check (state : PipelineState) (working : Working) (deferredOnce : Bool)
      (deferred : List String) :
      PressureStep resolver ⟨.recovering working deferredOnce, deferred⟩
        ⟨if state.isCurrent working.generation then .rehydrating working deferredOnce
          else working.staleAfter, deferred⟩
  | rehydrate (state : PipelineState) (generation : ClassificationGeneration) (working : Working)
      (deferredOnce : Bool) (deferred : List String) :
      PressureStep resolver ⟨.rehydrating working deferredOnce, deferred⟩
        ⟨(hydrate resolver state generation working fun hydrated =>
          .rehydrated hydrated deferredOnce).2.1, deferred⟩
  | recover (working : Working) (deferredOnce : Bool) (deferred : List String) :
      PressureStep resolver ⟨.rehydrated working deferredOnce, deferred⟩
        ⟨(recover resolver working deferredOnce).1, deferred⟩
  | relieve (variants : BTreeMap Txid CurrentVariant) (working : Working) (deferredOnce : Bool)
      (deferred : List String) :
      PressureStep resolver ⟨.relieving working deferredOnce, deferred⟩
        ⟨relieve resolver variants working deferredOnce,
          deferred ++ (working.doomed deferredOnce).toList⟩

/-- A point of the call before it has returned. -/
def Call.underPressure : Call → Option (Working × Bool)
  | .recovering working deferredOnce => some (working, deferredOnce)
  | .rehydrating working deferredOnce => some (working, deferredOnce)
  | .rehydrated working deferredOnce => some (working, deferredOnce)
  | .relieving working deferredOnce => some (working, deferredOnce)
  | _ => none

variable {resolver : ResolverLimits}

/-- The steps are those of a slice of the pipeline. -/
theorem pressureStep_of_callStep [BitcoinCrate] [WireJson] {limits : ClassificationLimits}
    {completion : Completion}
    {state state' : PipelineState} {call call' : Call} {event : Option Event}
    (h : callStep limits completion state call = some (state', call', event))
    (hCall : call.underPressure.isSome = true) (deferred : List String) :
    ∃ deferred', PressureStep (.production limits.maxAuxiliaryCacheBytes) ⟨call, deferred⟩
      ⟨call', deferred'⟩ := by
  cases call with
  | recovering working deferredOnce =>
    obtain ⟨-, rfl, -⟩ : state = state' ∧ _ = call' ∧ _ = event := by
      simpa [callStep] using h
    exact ⟨_, .check state working deferredOnce deferred⟩
  | rehydrating working deferredOnce =>
    obtain ⟨generation, -, hStep⟩ := Option.bind_eq_some_iff.mp h
    have hCall := congrArg (fun action : Action => action.2.1) (Option.some.inj hStep)
    dsimp only at hCall
    rw [← hCall]
    exact ⟨_, .rehydrate state generation working deferredOnce deferred⟩
  | rehydrated working deferredOnce =>
    have hCall := congrArg (fun action : Action => action.2.1) (Option.some.inj h)
    dsimp only at hCall
    rw [← hCall]
    exact ⟨_, .recover working deferredOnce deferred⟩
  | relieving working deferredOnce =>
    obtain ⟨generation, -, hStep⟩ := Option.bind_eq_some_iff.mp h
    have hCall := congrArg (fun action : Action => action.2.1) (Option.some.inj hStep)
    dsimp only at hCall
    rw [← hCall]
    exact ⟨_, .relieve generation.variants working deferredOnce deferred⟩
  | _ => cases hCall

-- ---------------------------------------------------------------------------
-- One step
-- ---------------------------------------------------------------------------

/-- What a pass leaves when it has classified nothing: nobody is ready, and no script
waits in the transient maps but for room. -/
structure Recovered (working : Working) : Prop where
  classified : ∀ (key : String) candidate, working.pending.active[key]? = some candidate →
    ¬ ∀ outpoint ∈ candidate.required, ∃ state : FactState,
      working.pending.facts[outpoint]? = some state ∧ state.isTerminal = true
  hydrated : ∀ (outpoint : OutPoint) source attempts,
    working.pending.facts[outpoint]? = some (.awaiting source attempts) →
    transientScript working.advance.outputs working.advance.confirmedScripts outpoint source = none

/-- What a pass does after its hydration: it panics, goes on with fewer candidates, or is
the last. -/
theorem recover_cases [BitcoinCrate] (resolver : ResolverLimits) (working : Working)
    (deferredOnce : Bool) :
    (∃ panic, (recover resolver working deferredOnce).1 =
        .leaving working.generation (.panic panic)) ∨
      ∃ recovered : Working, (∃ absorbed classifications,
          absorbed = working.pending.hydrateFromTransient working.advance.outputs
            working.advance.confirmedScripts resolver ∧
          absorbed.pending.classifyReady = .ok (classifications, recovered.pending)) ∧
        (((recover resolver working deferredOnce).1 = .recovering recovered deferredOnce ∧
            recovered.pending.active.size < working.pending.active.size) ∨
          ((recover resolver working deferredOnce).1 = .relieving recovered deferredOnce ∧
            recovered.pending.active.size ≤ working.pending.active.size ∧
            Recovered recovered)) := by
  have hActive : ∀ key, key ∈ (working.pending.hydrateFromTransient working.advance.outputs
      working.advance.confirmedScripts resolver).pending.active ↔ key ∈ working.pending.active :=
    (closed_active resolver working.pending).hydrateFromTransient (fun _ => Iff.rfl) _ _
  have hAwaits : ∀ (outpoint : OutPoint) source attempts, _ → transientScript
      working.advance.outputs working.advance.confirmedScripts outpoint source = none :=
    fun outpoint source attempts =>
      @hydrateFromTransient_awaits working.pending resolver _ _ outpoint source attempts
  unfold recover
  generalize working.pending.hydrateFromTransient working.advance.outputs
    working.advance.confirmedScripts resolver = absorbed at hActive hAwaits
  cases hReady : absorbed.pending.classifyReady with
  | error panic => exact Or.inl ⟨panic, by simp only [Classification.classifyReady, hReady]⟩
  | ok result =>
    obtain ⟨classifications, pending'⟩ := result
    obtain ⟨hEach, hPending⟩ := classifyReady_eq_ok.mp hReady
    have hLength := hEach.length_eq
    refine Or.inr ⟨{ working with
      pending := pending'
      advance := (working.advance.addAbsorbed absorbed).addClassifications classifications },
      ⟨absorbed, classifications, rfl, hReady⟩, ?_⟩
    have hErased : ∀ key : String, pending'.active[key]? =
        if key ∈ absorbed.pending.readyKeys then none else absorbed.pending.active[key]? := by
      rw [hPending]
      exact eraseAll_get absorbed.pending.readyKeys absorbed.pending.active
    have hFewer : ∀ key, key ∈ pending'.active → key ∈ working.pending.active := by
      intro key hMem
      rw [← hActive]
      rw [Std.ExtTreeMap.mem_iff_isSome_getElem?, hErased key] at hMem
      split at hMem
      · cases hMem
      · exact Std.ExtTreeMap.mem_iff_isSome_getElem?.mpr hMem
    cases classifications with
    | nil =>
      have hNobody : absorbed.pending.readyKeys = [] := List.eq_nil_of_length_eq_zero hLength
      refine Or.inr ⟨?_, ?_, ⟨?_, ?_⟩⟩
      · simp only [Classification.classifyReady, hReady, ClassificationAdvance.addClassifications,
          ClassificationAdvance.addAbsorbed, List.append_nil, if_true]
      · refine Nat.le_of_eq (size_active_eq fun key => ⟨hFewer key, fun hMem => ?_⟩)
        rw [← hActive, Std.ExtTreeMap.mem_iff_isSome_getElem?] at hMem
        rw [Std.ExtTreeMap.mem_iff_isSome_getElem?, hErased key, hNobody, if_neg List.not_mem_nil]
        exact hMem
      · intro key candidate hCandidate hAll
        rw [hErased key, hNobody, if_neg List.not_mem_nil] at hCandidate
        have hReadyKey : key ∈ absorbed.pending.readyKeys := by
          refine mem_readyKeys.mpr ⟨candidate, hCandidate, fun outpoint hMem => ?_⟩
          obtain ⟨state, hState, hTerminal⟩ := hAll outpoint hMem
          rw [hPending] at hState
          exact ⟨state, ((dropUnreferencedFacts_get _).mp hState).1, hTerminal⟩
        rw [hNobody] at hReadyKey
        cases hReadyKey
      · intro outpoint source attempts hState
        rw [hPending] at hState
        exact hAwaits outpoint source attempts ((dropUnreferencedFacts_get _).mp hState).1
    | cons cached rest =>
      have hSome : absorbed.pending.readyKeys ≠ [] := by
        intro hNobody
        rw [hNobody] at hLength
        cases hLength
      obtain ⟨key, hKey⟩ := List.exists_mem_of_ne_nil _ hSome
      obtain ⟨candidate, hCandidate, -⟩ := mem_readyKeys.mp hKey
      refine Or.inl ⟨?_, size_active_lt hFewer ((hActive key).mp
        (Std.ExtTreeMap.mem_iff_isSome_getElem?.mpr (by rw [hCandidate]; rfl))) fun hMem => ?_⟩
      · have hMore : (working.advance.classifications ++ cached :: rest).length ≠
            working.advance.classifications.length := by simp
        simp only [Classification.classifyReady, hReady]
        exact congrArg Prod.fst (if_neg hMore)
      · rw [Std.ExtTreeMap.mem_iff_isSome_getElem?, hErased key, if_pos hKey] at hMem
        cases hMem

/-- What a decision does: it defers a candidate that requires a blocked fact, or the call
returns. -/
theorem relieve_cases (resolver : ResolverLimits) (variants : BTreeMap Txid CurrentVariant)
    (working : Working) (deferredOnce : Bool) :
    (∃ key candidate advance, working.doomed deferredOnce = some key ∧
        working.pending.active[key]? = some candidate ∧
        (∃ outpoint ∈ candidate.required,
          working.pending.facts[outpoint]?.any FactState.isCapacityBlocked = true) ∧
        relieve resolver variants working deferredOnce =
          .recovering { working with
            pending := working.pending.dropCandidate key
            advance } true) ∨
      (working.doomed deferredOnce = none ∧
        relieve resolver variants working deferredOnce =
          finishFacts resolver variants working ∧
        ((deferredOnce = true ∧ working.pending.hasTransientCapacityBlockedFact
            working.advance.outputs working.advance.confirmedScripts = false) ∨
          working.pending.doomedCandidate = none)) := by
  unfold relieve Working.doomed
  by_cases hDone : deferredOnce = true ∧ !working.pending.hasTransientCapacityBlockedFact
      working.advance.outputs working.advance.confirmedScripts
  · refine Or.inr ⟨if_pos hDone, if_pos hDone, Or.inl ⟨hDone.1, by simpa using hDone.2⟩⟩
  · rw [if_neg hDone]
    cases hDoomed : working.pending.doomedCandidate with
    | none =>
      refine Or.inr ⟨rfl, ?_, Or.inr rfl⟩
      simp only [if_neg hDone, deferCapacityBlockedCandidate, hDoomed, if_true]
    | some found =>
      obtain ⟨key, freed⟩ := found
      obtain ⟨candidate, hActive, hBlocked⟩ := doomedCandidate_spec hDoomed
      refine Or.inl ⟨key, candidate, { working.advance with
        deferredCandidates := working.advance.deferredCandidates + 1 }, rfl, hActive, hBlocked, ?_⟩
      simp only [if_neg hDone, deferCapacityBlockedCandidate, hDoomed, one_ne_zero, if_false]

/-- What a hydration under the locks does. -/
theorem hydrate_cases (resolver : ResolverLimits) (state : PipelineState)
    (generation : ClassificationGeneration) (working : Working) (next : Working → Call) :
    (hydrate resolver state generation working next).2.1 = working.staleAfter ∨
      (∃ panic, (hydrate resolver state generation working next).2.1 =
        .leaving generation.id (.panic panic)) ∨
      ∃ (absorbed : Absorbed) (confirmed : ConfirmedScriptCache),
        working.pending.hydrateFromCaches generation.variants generation.work.outputs
          state.confirmedCache resolver = .ok (absorbed, confirmed) ∧
        (hydrate resolver state generation working next).2.1 = next { working with
          advance := working.advance.addAbsorbed absorbed
          pending := absorbed.pending } := by
  unfold hydrate
  split
  · exact Or.inl rfl
  · cases hHydrate : working.pending.hydrateFromCaches generation.variants
        generation.work.outputs state.confirmedCache resolver with
    | error panic => exact Or.inr (Or.inl ⟨panic, rfl⟩)
    | ok result => exact Or.inr (Or.inr ⟨result.1, result.2, rfl, rfl⟩)

-- ---------------------------------------------------------------------------
-- Termination
-- ---------------------------------------------------------------------------

/-- How far the call is from its end. -/
def Call.rank : Call → Nat
  | .recovering working _ => 4 * working.pending.active.size + 4
  | .rehydrating working _ => 4 * working.pending.active.size + 3
  | .rehydrated working _ => 4 * working.pending.active.size + 2
  | .relieving working _ => 4 * working.pending.active.size + 1
  | _ => 0

/-- Dropping a candidate leaves fewer. -/
theorem size_dropCandidate_lt {pending : PendingSlice} {key : String}
    {candidate : PendingCandidate} (hActive : pending.active[key]? = some candidate) :
    (pending.dropCandidate key).active.size < pending.active.size := by
  refine size_active_lt (fun other hMem => ?_)
    (Std.ExtTreeMap.mem_iff_isSome_getElem?.mpr (by rw [hActive]; rfl)) fun hMem => ?_
  · obtain ⟨held, hHeld⟩ :=
      Option.isSome_iff_exists.mp (Std.ExtTreeMap.mem_iff_isSome_getElem?.mp hMem)
    rw [Std.ExtTreeMap.mem_iff_isSome_getElem?, (dropCandidate_get.mp hHeld).1]
    rfl
  · obtain ⟨held, hHeld⟩ :=
      Option.isSome_iff_exists.mp (Std.ExtTreeMap.mem_iff_isSome_getElem?.mp hMem)
    exact (dropCandidate_get.mp hHeld).2 rfl

/-- Between two removals the stages go forward. -/
theorem PressureStep.rank_lt [BitcoinCrate] {p p' : Pressure} (h : PressureStep resolver p p') :
    p'.call.rank < p.call.rank := by
  cases h with
  | check state working deferredOnce deferred =>
    dsimp only
    split
    · exact Nat.lt_succ_self _
    · exact Nat.succ_pos _
  | rehydrate state generation working deferredOnce deferred =>
    rcases hydrate_cases resolver state generation working
      (fun hydrated => .rehydrated hydrated deferredOnce) with hStale | ⟨panic, hPanic⟩ |
      ⟨absorbed, confirmed, hHydrate, hCall⟩
    · rw [hStale]
      exact Nat.succ_pos _
    · rw [hPanic]
      exact Nat.succ_pos _
    · have hSize := size_active_eq ((closed_active resolver working.pending).hydrateFromCaches
        (fun _ => Iff.rfl) hHydrate)
      rw [hCall]
      show 4 * absorbed.pending.active.size + 2 < 4 * working.pending.active.size + 3
      omega
  | recover working deferredOnce deferred =>
    rcases recover_cases resolver working deferredOnce with ⟨panic, hPanic⟩ |
      ⟨recovered, -, ⟨hCall, hFewer⟩ | ⟨hCall, hSize, -⟩⟩
    · rw [hPanic]
      exact Nat.succ_pos _
    · rw [hCall]
      show 4 * recovered.pending.active.size + 4 < 4 * working.pending.active.size + 2
      omega
    · rw [hCall]
      show 4 * recovered.pending.active.size + 1 < 4 * working.pending.active.size + 2
      omega
  | relieve variants working deferredOnce deferred =>
    rcases relieve_cases resolver variants working deferredOnce with
      ⟨key, candidate, advance, -, hActive, -, hCall⟩ | ⟨-, hCall, -⟩
    · have hFewer := size_dropCandidate_lt hActive
      rw [hCall]
      show 4 * (working.pending.dropCandidate key).active.size + 4 <
        4 * working.pending.active.size + 1
      omega
    · rw [hCall]
      exact Nat.succ_pos _

-- ---------------------------------------------------------------------------
-- The invariant
-- ---------------------------------------------------------------------------

/-- What holds at every point of the call. -/
structure UnderPressure (resolver : ResolverLimits) (p : Pressure) : Prop where
  window : ∀ working deferredOnce, p.call.underPressure = some (working, deferredOnce) →
    Window resolver working.pending
  once : ∀ working deferredOnce, p.call.underPressure = some (working, deferredOnce) →
    (deferredOnce = true ↔ p.deferred ≠ [])
  recovered : ∀ working deferredOnce, p.call = .relieving working deferredOnce →
    Recovered working

/-- A point that is no decision. -/
theorem UnderPressure.point {p p' : Pressure} {working working' : Working}
    {deferredOnce : Bool} (h : UnderPressure resolver p)
    (hPoint : p.call.underPressure = some (working, deferredOnce))
    (hPoint' : p'.call.underPressure = some (working', deferredOnce))
    (hDeferred : p'.deferred = p.deferred) (hWindow : Window resolver working'.pending)
    (hRecovered : ∀ w d, p'.call = .relieving w d → Recovered w) :
    UnderPressure resolver p' where
  window w d hSome := by
    obtain ⟨rfl, rfl⟩ := Prod.mk.inj (Option.some.inj (hPoint'.symm.trans hSome))
    exact hWindow
  once w d hSome := by
    obtain ⟨rfl, rfl⟩ := Prod.mk.inj (Option.some.inj (hPoint'.symm.trans hSome))
    rw [hDeferred]
    exact h.once working deferredOnce hPoint
  recovered := hRecovered

/-- The call has returned. -/
theorem underPressure_of_returned {p : Pressure} (hEnd : p.call.underPressure = none) :
    UnderPressure resolver p where
  window w d hSome := by
    rw [hEnd] at hSome
    cases hSome
  once w d hSome := by
    rw [hEnd] at hSome
    cases hSome
  recovered w d hCall := by
    rw [hCall] at hEnd
    cases hEnd

/-- **One step under pressure** keeps the account. -/
theorem UnderPressure.step [BitcoinCrate] {p p' : Pressure} (h : UnderPressure resolver p)
    (hStep : PressureStep resolver p p') : UnderPressure resolver p' := by
  cases hStep with
  | check state working deferredOnce deferred =>
    by_cases hCurrent : state.isCurrent working.generation = true
    · rw [if_pos hCurrent]
      exact h.point rfl rfl rfl (h.window working deferredOnce rfl) fun w d hCall => by cases hCall
    · rw [if_neg hCurrent]
      exact underPressure_of_returned rfl
  | rehydrate state generation working deferredOnce deferred =>
    rcases hydrate_cases resolver state generation working
      (fun hydrated => .rehydrated hydrated deferredOnce) with hStale | ⟨panic, hPanic⟩ |
      ⟨absorbed, confirmed, hHydrate, hCall⟩
    · rw [hStale]
      exact underPressure_of_returned rfl
    · rw [hPanic]
      exact underPressure_of_returned rfl
    · have hBefore := h.window working deferredOnce rfl
      have hWindow := hBefore.moved ((closed_counted resolver working.pending).hydrateFromCaches
        hBefore.closed hHydrate)
      rw [hCall]
      exact h.point rfl rfl rfl hWindow fun w d hCall => by cases hCall
  | recover working deferredOnce deferred =>
    rcases recover_cases resolver working deferredOnce with ⟨panic, hPanic⟩ |
      ⟨recovered, ⟨absorbed, classifications, rfl, hReady⟩, hEnd⟩
    · rw [hPanic]
      exact underPressure_of_returned rfl
    · have hBefore := h.window working deferredOnce rfl
      have hHydrated := hBefore.moved
        ((closed_counted resolver working.pending).hydrateFromTransient hBefore.closed
          working.advance.outputs working.advance.confirmedScripts)
      have hWindow : Window resolver recovered.pending := by
        rw [(classifyReady_eq_ok.mp hReady).2]
        refine hHydrated.keep fun key candidate hGet => ?_
        rw [eraseAll_get] at hGet
        split at hGet
        · cases hGet
        · exact hGet
      rcases hEnd with ⟨hCall, -⟩ | ⟨hCall, -, hRecovered⟩
      · rw [hCall]
        exact h.point rfl rfl rfl hWindow fun w d hCall => by cases hCall
      · rw [hCall]
        refine h.point rfl rfl rfl hWindow fun w d hEq => ?_
        obtain ⟨rfl, -⟩ := Call.relieving.inj hEq
        exact hRecovered
  | relieve variants working deferredOnce deferred =>
    rcases relieve_cases resolver variants working deferredOnce with
      ⟨key, candidate, advance, hDoomed, hActive, -, hCall⟩ | ⟨-, hCall, -⟩
    · have hWindow : Window resolver (working.pending.dropCandidate key) :=
        (h.window working deferredOnce rfl).dropCandidate key
      rw [hCall, hDoomed]
      refine ⟨fun w d hSome => ?_, fun w d hSome => ?_, fun w d hCall => by cases hCall⟩
      · obtain ⟨rfl, rfl⟩ := Prod.mk.inj (Option.some.inj hSome)
        exact hWindow
      · obtain ⟨rfl, rfl⟩ := Prod.mk.inj (Option.some.inj hSome)
        simp
    · rw [hCall]
      exact underPressure_of_returned rfl

/-- **A run under pressure** keeps the account. -/
theorem underPressure_run [BitcoinCrate] {start : Working} (hWindow : Window resolver start.pending)
    {p : Pressure} (hRun : ReflTransGen (PressureStep resolver) ⟨.recovering start false, []⟩ p) :
    UnderPressure resolver p := by
  induction hRun with
  | refl =>
    refine ⟨fun w d hSome => ?_, fun w d hSome => ?_, fun w d hCall => by cases hCall⟩
    · obtain ⟨rfl, rfl⟩ := Prod.mk.inj (Option.some.inj hSome)
      exact hWindow
    · obtain ⟨rfl, rfl⟩ := Prod.mk.inj (Option.some.inj hSome)
      simp
  | tail _ hStep ih => exact ih.step hStep

-- ---------------------------------------------------------------------------
-- What a call that returns has done
-- ---------------------------------------------------------------------------

/-- The script of a fact is held by the transient maps of the call, and by nothing that
outlives it. -/
def OnlyTransient (working : Working) (outpoint : OutPoint) (source : FactSource) : Prop :=
  transientScript working.advance.outputs working.advance.confirmedScripts outpoint source ≠ none ∧
    (source = .currentParent →
      (working.pending.rawOutputs[outpoint.txid]?.bind fun cached =>
        cached.script outpoint.vout) = none)

/-- What a call that returns leaves: everything that can be classified has been, and either
nobody is blocked or somebody was deferred, and no script the call alone has fetched is
lost to a fact that is still required. -/
structure PressureResolved (working : Working) (deferred : List String) : Prop where
  classified : ∀ (key : String) candidate, working.pending.active[key]? = some candidate →
    ¬ ∀ outpoint ∈ candidate.required, ∃ state : FactState,
      working.pending.facts[outpoint]? = some state ∧ state.isTerminal = true
  blocked : (∀ (key : String) candidate, working.pending.active[key]? = some candidate →
      ∀ outpoint ∈ candidate.required,
        working.pending.facts[outpoint]?.any FactState.isCapacityBlocked = false) ∨
    (deferred ≠ [] ∧ ∀ (outpoint : OutPoint) source,
      working.pending.facts[outpoint]? = some (.capacityBlocked source) →
      ¬ OnlyTransient working outpoint source)
  kept : ∀ (outpoint : OutPoint) state source, working.pending.facts[outpoint]? = some state →
    state.waitingSource = some source → ¬ OnlyTransient working outpoint source

theorem not_onlyTransient_of_blocked {working : Working}
    (h : working.pending.hasTransientCapacityBlockedFact working.advance.outputs
      working.advance.confirmedScripts = false) {outpoint : OutPoint} {source : FactSource}
    (hFact : working.pending.facts[outpoint]? = some (.capacityBlocked source)) :
    ¬ OnlyTransient working outpoint source := by
  rintro ⟨hScript, hRaw⟩
  have hNone := List.any_eq_false.mp h (outpoint, .capacityBlocked source)
    (BTreeMap.mem_toList.mpr hFact)
  cases source with
  | currentParent =>
    have hOutputs : (working.advance.outputs[outpoint.txid]?.bind fun cached =>
        cached.script outpoint.vout).isSome = true := Option.isSome_iff_ne_none.mpr hScript
    simp [hRaw rfl, hOutputs] at hNone
  | confirmed =>
    have hConfirmed : working.advance.confirmedScripts[outpoint]?.isSome = true :=
      Option.isSome_iff_ne_none.mpr hScript
    exact hNone (Std.ExtTreeMap.contains_iff_mem.mpr
      (Std.ExtTreeMap.mem_iff_isSome_getElem?.mpr hConfirmed))
  | parentFallback =>
    have hConfirmed : working.advance.confirmedScripts[outpoint]?.isSome = true :=
      Option.isSome_iff_ne_none.mpr hScript
    exact hNone (Std.ExtTreeMap.contains_iff_mem.mpr
      (Std.ExtTreeMap.mem_iff_isSome_getElem?.mpr hConfirmed))

/-- When the pressure ends nothing blocked is known from the call alone. -/
theorem UnderPressure.resolved {working : Working} {deferredOnce : Bool}
    {deferred : List String}
    (h : UnderPressure resolver ⟨.relieving working deferredOnce, deferred⟩)
    (hReturns : (deferredOnce = true ∧ working.pending.hasTransientCapacityBlockedFact
        working.advance.outputs working.advance.confirmedScripts = false) ∨
      working.pending.doomedCandidate = none) : PressureResolved working deferred := by
  have hWindow := h.window working deferredOnce rfl
  have hRecovered := h.recovered working deferredOnce rfl
  have hBlocked : (∀ (key : String) candidate, working.pending.active[key]? = some candidate →
      ∀ outpoint ∈ candidate.required,
        working.pending.facts[outpoint]?.any FactState.isCapacityBlocked = false) ∨
      (deferred ≠ [] ∧ ∀ (outpoint : OutPoint) source,
        working.pending.facts[outpoint]? = some (.capacityBlocked source) →
        ¬ OnlyTransient working outpoint source) := by
    rcases hReturns with ⟨hOnce, hTransient⟩ | hNobody
    · exact Or.inr ⟨(h.once working deferredOnce rfl).mp hOnce, fun outpoint source hFact =>
        not_onlyTransient_of_blocked hTransient hFact⟩
    · refine Or.inl fun key candidate hActive => doomedCandidate_eq_none hNobody ?_ hActive
      exact hWindow.fairOrder.mem_iff.mpr (BTreeMap.mem_keys_iff.mpr ⟨candidate, hActive⟩)
  refine ⟨hRecovered.classified, hBlocked, fun outpoint state source hFact hWaiting => ?_⟩
  match state, hWaiting with
  | .awaiting held attempts, hWaiting =>
    obtain rfl := Option.some.inj hWaiting
    exact fun hOnly => hOnly.1 (hRecovered.hydrated outpoint held attempts hFact)
  | .capacityBlocked held, hWaiting =>
    obtain rfl := Option.some.inj hWaiting
    rcases hBlocked with hNobody | ⟨-, hTransient⟩
    · -- somebody active requires every fact of the table
      obtain ⟨key, candidate, hActive, hRequired⟩ := (hWindow.facts outpoint).mp
        (Std.ExtTreeMap.mem_iff_isSome_getElem?.mpr (by rw [hFact]; rfl))
      have hNot := hNobody key candidate hActive outpoint hRequired
      rw [hFact] at hNot
      cases hNot
    · exact hTransient outpoint held hFact

/-- What a call of `resolve_capacity_pressure` is bound to. It returns `true` with the slice
that its last decision finishes. -/
structure CapacityPressure [BitcoinCrate] (resolver : ResolverLimits) (start : Working) : Prop where
  terminates : WellFounded fun p' p => PressureStep resolver p p'
  removes : ∀ (working : Working) deferredOnce deferred p' next again,
    PressureStep resolver ⟨.rehydrated working deferredOnce, deferred⟩ p' ∨
      PressureStep resolver ⟨.relieving working deferredOnce, deferred⟩ p' →
    p'.call = .recovering next again → next.pending.active.size < working.pending.active.size
  resolved : ∀ variants (working : Working) deferredOnce deferred,
    ReflTransGen (PressureStep resolver) ⟨.recovering start false, []⟩
      ⟨.relieving working deferredOnce, deferred⟩ →
    relieve resolver variants working deferredOnce = finishFacts resolver variants working →
    PressureResolved working deferred
  unblocked : ∀ variants (working : Working) deferred,
    ReflTransGen (PressureStep resolver) ⟨.recovering start false, []⟩
      ⟨.relieving working false, deferred⟩ →
    (∀ outpoint : OutPoint,
      working.pending.facts[outpoint]?.any FactState.isCapacityBlocked = false) →
    deferred = [] ∧ working.doomed false = none ∧
      relieve resolver variants working false = finishFacts resolver variants working
  deferral : ∀ (working : Working) deferredOnce key, working.doomed deferredOnce = some key →
    ∃ candidate, working.pending.active[key]? = some candidate ∧
      ∃ outpoint ∈ candidate.required,
        working.pending.facts[outpoint]?.any FactState.isCapacityBlocked = true

theorem finishFacts_ne_recovering {variants : BTreeMap Txid CurrentVariant}
    {working next : Working} {again : Bool} :
    finishFacts resolver variants working ≠ .recovering next again := by
  intro hCall
  cases hCall

/-- A step that goes round again has removed a candidate. -/
theorem removes_candidate [BitcoinCrate] {working next : Working} {deferredOnce again : Bool}
    {deferred : List String} {p' : Pressure}
    (h : PressureStep resolver ⟨.rehydrated working deferredOnce, deferred⟩ p' ∨
      PressureStep resolver ⟨.relieving working deferredOnce, deferred⟩ p')
    (hNext : p'.call = .recovering next again) :
    next.pending.active.size < working.pending.active.size := by
  have hRank : p'.call.rank < 4 * working.pending.active.size + 2 := by
    rcases h with hStep | hStep
    · exact hStep.rank_lt
    · exact hStep.rank_lt.trans (Nat.lt_succ_self _)
  rw [hNext] at hRank
  have hNextRank : (Call.recovering next again).rank = 4 * next.pending.active.size + 4 := rfl
  omega

/-- **Capacity pressure.** Whatever slice of sound representation, whatever limits, and
whatever the call finds in the caches each time it takes the locks. -/
theorem capacity_pressure [BitcoinCrate] (resolver : ResolverLimits) (start : Working)
    (hWindow : Window resolver start.pending) : CapacityPressure resolver start where
  terminates := Subrelation.wf (fun hStep => hStep.rank_lt)
    (InvImage.wf (fun p : Pressure => p.call.rank) Nat.lt_wfRel.wf)
  removes _ _ _ _ _ _ := removes_candidate
  resolved variants working deferredOnce deferred hRun hReturns := by
    refine (underPressure_run hWindow hRun).resolved ?_
    rcases relieve_cases resolver variants working deferredOnce with
      ⟨key, candidate, advance, -, -, -, hCall⟩ | ⟨-, -, hWhy⟩
    · exact absurd (hReturns.symm.trans hCall) finishFacts_ne_recovering
    · exact hWhy
  unblocked variants working deferred hRun hNone := by
    have hOnce := (underPressure_run hWindow hRun).once working false rfl
    have hDeferred : deferred = [] := by
      by_contra hSome
      cases hOnce.mpr hSome
    rcases relieve_cases resolver variants working false with
      ⟨key, candidate, advance, -, -, ⟨outpoint, -, hBlocked⟩, -⟩ | ⟨hDoomed, hCall, -⟩
    · rw [hNone outpoint] at hBlocked
      cases hBlocked
    · exact ⟨hDeferred, hDoomed, hCall⟩
  deferral working deferredOnce key hDoomed := by
    rcases relieve_cases resolver ∅ working deferredOnce with
      ⟨other, candidate, advance, hOther, hActive, hBlocked, -⟩ | ⟨hNone, -, -⟩
    · obtain rfl := Option.some.inj (hOther.symm.trans hDoomed)
      exact ⟨candidate, hActive, hBlocked⟩
    · rw [hNone] at hDoomed
      cases hDoomed

/-- A slice of two candidates that spend the same output, as the call finds it. -/
def twoSpendsWorking : Working where
  generation := 1
  advance := {}
  pending := @PendingSlice.new (Reference.crate []) Ledger.twoSpends ∅
    (ResolverLimits.production 4096)

/-- The sample slice: two spends of one output. -/
theorem capacity_pressure_twoSpends :
    @CapacityPressure (Reference.crate []) (ResolverLimits.production 4096) twoSpendsWorking := by
  let _ : BitcoinCrate := Reference.crate []
  have hDistinct : (Ledger.twoSpends.map fun admitted => admitted.1.wtxid).Nodup := by decide
  have hKept := Ledger.kept_start (ResolverLimits.production 4096) hDistinct ∅
  exact capacity_pressure (ResolverLimits.production 4096) twoSpendsWorking hKept.window

end MempoolAtlas.Classification
