import MempoolAtlas.Classification.Waves

/-!
# Rules for a pending window

The edits the operations of a pending slice are made of, but for those that change
which candidates are active. A property that every edit keeps is kept by every such
operation, whatever scripts, answers and caches it is given.

## Results

* `nextParentWave`, `nextConfirmedWave` — selecting a wave keeps what every edit keeps.
* `hydrateFromCaches`, `applyParentTransaction`, `applyConfirmedValue` — so do the operations
  that store scripts.
-/

namespace MempoolAtlas.Classification

open Machine Model BitcoinCrate

namespace PendingSlice

/-- A property of slices that every edit keeps. -/
structure Closed (limits : ResolverLimits) (P : PendingSlice → Prop) : Prop where
  store : ∀ {pending : PendingSlice} {outpoint : OutPoint} {state : FactState}
    {source : FactSource} (script : Script), P pending →
    pending.facts[outpoint]? = some state → state.waitingSource = some source →
    P (pending.storeWaiting outpoint script limits.maxPendingScriptBytes).2
  block : ∀ {pending : PendingSlice} (outpoint : OutPoint), P pending →
    P (pending.markCapacityBlocked outpoint)
  attempt : ∀ {pending : PendingSlice} (outpoint : OutPoint), P pending →
    P (pending.recordFactAttempt outpoint)
  parentAttempt : ∀ {pending : PendingSlice} (parentTxid : Txid), P pending →
    P (pending.recordParentAttempt parentTxid)
  fallBack : ∀ {pending : PendingSlice} (parentTxid : Txid), P pending →
    P (pending.fallBackParentToGettxout parentTxid)
  defer : ∀ {pending : PendingSlice} {outpoint : OutPoint}, P pending →
    pending.facts[outpoint]?.any FactState.isExhausted = true → P (pending.deferFact outpoint)
  miss : ∀ {pending : PendingSlice} {outpoint : OutPoint} {attempts : Nat}, P pending →
    pending.facts[outpoint]? = some (.awaiting .confirmed attempts) →
    P { pending with facts := pending.facts.insert outpoint .explicitlyMissing }
  cursor : ∀ {pending : PendingSlice} {key : String} {candidate : PendingCandidate}
    {factCursor : Nat}, P pending → pending.active[key]? = some candidate →
    factCursor < candidate.required.length →
    P { pending with active := pending.active.insert key { candidate with factCursor } }
  rotate : ∀ {pending : PendingSlice} {key : String} {rest : List String}, P pending →
    pending.fairOrder = key :: rest → P { pending with fairOrder := rest ++ [key] }

namespace Closed

variable {limits : ResolverLimits} {P : PendingSlice → Prop} {pending : PendingSlice}

-- ---------------------------------------------------------------------------
-- Scripts
-- ---------------------------------------------------------------------------

theorem storeScript (hP : Closed limits P) (h : P pending) (outpoint : OutPoint)
    (script : Script) :
    P (pending.storeScript outpoint script limits.maxPendingScriptBytes).2 := by
  unfold PendingSlice.storeScript
  split
  · exact h
  · next source attempts hGet => exact hP.store script h hGet rfl
  · next source hGet => exact hP.store script h hGet rfl
  all_goals exact h

theorem absorb (hP : Closed limits P) (h : P pending) (outpoint : OutPoint) (script : Script) :
    P (pending.absorb outpoint script limits).2 := by
  have hStored := hP.storeScript h outpoint script
  simp only [PendingSlice.absorb]
  split
  · exact hStored
  · exact hP.block outpoint hStored

theorem add (hP : Closed limits P) {absorbed : Absorbed} (h : P absorbed.pending)
    (outpoint : OutPoint) (script : Option Script) :
    P (absorbed.add outpoint script limits).pending := by
  cases script with
  | none => exact h
  | some script => exact hP.absorb h outpoint script

theorem hydrateFromCachesLoop (hP : Closed limits P) {variants : BTreeMap Txid CurrentVariant}
    {outputs : BTreeMap Txid CachedOutputs} :
    ∀ (waiting : List (OutPoint × FactSource)) (absorbed : Absorbed)
      (confirmed : ConfirmedScriptCache) {absorbed' : Absorbed}
      {confirmed' : ConfirmedScriptCache}, P absorbed.pending →
      PendingSlice.hydrateFromCachesLoop variants outputs limits waiting absorbed confirmed =
        .ok (absorbed', confirmed') →
      P absorbed'.pending
  | [], absorbed, confirmed, absorbed', confirmed', h, hLoop => by
    obtain ⟨rfl, -⟩ := Prod.mk.inj (Except.ok.inj hLoop)
    exact h
  | (outpoint, source) :: rest, absorbed, confirmed, absorbed', confirmed', h, hLoop => by
    have hRead : (do
        let read ← confirmed.get outpoint
        PendingSlice.hydrateFromCachesLoop variants outputs limits rest
          (absorbed.add outpoint read.1 limits) read.2) = .ok (absorbed', confirmed') →
        P absorbed'.pending := by
      intro hRest
      obtain ⟨read, -, hRest⟩ := Checks.bind_eq_ok.mp hRest
      exact hydrateFromCachesLoop hP rest _ _ (hP.add h outpoint read.1) hRest
    cases source with
    | currentParent => exact hydrateFromCachesLoop hP rest _ _ (hP.add h outpoint _) hLoop
    | confirmed => exact hRead hLoop
    | parentFallback => exact hRead hLoop

/-- Hydrating from the caches keeps what every operation keeps. -/
theorem hydrateFromCaches (hP : Closed limits P) {variants : BTreeMap Txid CurrentVariant}
    {outputs : BTreeMap Txid CachedOutputs} {confirmed confirmed' : ConfirmedScriptCache}
    {absorbed : Absorbed} (h : P pending)
    (hHydrate : pending.hydrateFromCaches variants outputs confirmed limits =
      .ok (absorbed, confirmed')) :
    P absorbed.pending :=
  hP.hydrateFromCachesLoop pending.waiting { pending } confirmed h hHydrate

theorem hydrateFromTransient (hP : Closed limits P) (h : P pending)
    (outputs : BTreeMap Txid CachedOutputs) (confirmed : BTreeMap OutPoint Script) :
    P (pending.hydrateFromTransient outputs confirmed limits).pending := by
  have hFold : ∀ (waiting : List (OutPoint × FactSource)) (absorbed : Absorbed),
      P absorbed.pending → P (waiting.foldl (fun absorbed fact =>
        absorbed.add fact.1 (transientScript outputs confirmed fact.1 fact.2) limits)
        absorbed).pending := by
    intro waiting
    induction waiting with
    | nil => exact fun _ hAbsorbed => hAbsorbed
    | cons fact rest ih => exact fun absorbed hAbsorbed => ih _ (hP.add hAbsorbed fact.1 _)
  exact hFold _ _ h

-- ---------------------------------------------------------------------------
-- Waves
-- ---------------------------------------------------------------------------

/-- What a wave takes keeps the property. -/
def Takes (P : PendingSlice → Prop) {σ : Type} (rules : WaveRules σ) : Prop :=
  ∀ {outpoint : OutPoint} {pending pending' : PendingSlice} {selection selection' : σ},
    P pending → rules.take outpoint pending selection = some (pending', selection') → P pending'

/-- A turn of a wave keeps it. -/
theorem visit (hP : Closed limits P) {σ : Type} {rules : WaveRules σ} (hRules : Takes P rules)
    {wave : Wave σ} (h : P wave.pending) : P (wave.visit rules).pending := by
  simp only [Wave.visit]
  split
  · exact h
  · next key rest hOrder =>
    have hRotated := hP.rotate h hOrder
    split
    · exact hRotated
    · next candidate hGet =>
      split
      · exact hRotated
      · next hNext =>
        have hTurned := hP.cursor hRotated hGet (nextCandidateFact_eq_some hNext).2.2
        split
        · exact hTurned
        · next hTake => exact hRules hTurned hTake

theorem round (hP : Closed limits P) {σ : Type} {rules : WaveRules σ} (hRules : Takes P rules)
    (turns : Nat) {wave : Wave σ} (h : P wave.pending) : P (wave.round rules turns).pending := by
  induction turns generalizing wave with
  | zero => exact h
  | succ turns ih =>
    unfold Wave.round
    split
    · exact h
    · exact ih (hP.visit hRules h)

theorem rounds (hP : Closed limits P) {σ : Type} {rules : WaveRules σ} (hRules : Takes P rules)
    (fuel : Nat) {wave : Wave σ} (h : P wave.pending) : P (wave.rounds rules fuel).pending := by
  induction fuel generalizing wave with
  | zero => exact h
  | succ fuel ih =>
    have hRound : P (Wave.round rules wave.pending.fairOrder.length
        { wave with added := false }).pending := hP.round hRules _ h
    simp only [Wave.rounds]
    split
    · exact hRound
    · exact ih hRound

/-- A parent wave keeps it. -/
theorem nextParentWave [BitcoinCrate] (hP : Closed limits P) (h : P pending)
    (variants : BTreeMap Txid CurrentVariant) :
    P (pending.nextParentWave variants limits).2 := by
  have hRules : Takes P (parentRules variants limits) := by
    intro outpoint pending pending' selection selection' hBefore hTake
    have hTaken : takeParent variants outpoint pending selection = some (pending', selection') :=
      hTake
    simp only [takeParent] at hTaken
    split at hTaken
    · cases hTaken
    · split at hTaken
      · cases hTaken
      · obtain ⟨rfl, -⟩ := Prod.mk.inj (Option.some.inj hTaken)
        exact hP.parentAttempt outpoint.txid hBefore
  simp only [PendingSlice.nextParentWave]
  split
  · exact hP.rounds hRules _ h
  · exact h

/-- A confirmed wave keeps it. -/
theorem nextConfirmedWave (hP : Closed limits P) (h : P pending) :
    P (pending.nextConfirmedWave limits).2 := by
  have hRules : ∀ maximum, Takes P (confirmedRules maximum) := by
    intro maximum outpoint pending pending' selection selection' hBefore hTake
    obtain ⟨rfl, -⟩ := Prod.mk.inj (Option.some.inj hTake)
    exact hP.attempt outpoint hBefore
  simp only [PendingSlice.nextConfirmedWave]
  split
  · exact h
  · exact hP.rounds (hRules _) _ h

-- ---------------------------------------------------------------------------
-- Answers
-- ---------------------------------------------------------------------------

theorem deferIfAttemptsExhausted (hP : Closed limits P) (h : P pending) (outpoint : OutPoint) :
    P (pending.deferIfAttemptsExhausted outpoint) := by
  unfold PendingSlice.deferIfAttemptsExhausted
  split
  · next hExhausted => exact hP.defer h hExhausted
  · exact h

theorem applyParentOutputs (hP : Closed limits P) (outputs : CachedOutputs)
    (outpoints : List OutPoint) {absorbed : Absorbed} (h : P absorbed.pending) :
    P (PendingSlice.applyParentOutputs outputs limits outpoints absorbed).pending := by
  induction outpoints generalizing absorbed with
  | nil => exact h
  | cons outpoint rest ih =>
    simp only [PendingSlice.applyParentOutputs]
    split
    · exact ih (hP.deferIfAttemptsExhausted h outpoint)
    · exact ih (hP.add h outpoint _)

/-- Applying a parent keeps it. -/
theorem applyParentTransaction [BitcoinCrate] (hP : Closed limits P) (h : P pending)
    (expected : ExpectedVariant) (transaction : Transaction) :
    P (pending.applyParentTransaction expected transaction limits).2.pending := by
  simp only [PendingSlice.applyParentTransaction]
  split
  · exact h
  · exact hP.applyParentOutputs _ _ h

/-- Applying a confirmed value keeps it. -/
theorem applyConfirmedValue (hP : Closed limits P) (h : P pending) (outpoint : OutPoint)
    (value : RpcValue Script) : P (pending.applyConfirmedValue outpoint value limits).pending := by
  cases value with
  | found script => exact hP.absorb h outpoint script
  | explicitNull =>
    simp only [PendingSlice.applyConfirmedValue]
    split
    · next hGet => exact hP.miss h hGet
    · exact hP.deferIfAttemptsExhausted h outpoint
    · exact h
  | retryableFailure => exact hP.deferIfAttemptsExhausted h outpoint
  | systemicFailure => exact h

theorem deferOneCapacityBlockedFact (hP : Closed limits P) (h : P pending) :
    P pending.deferOneCapacityBlockedFact.2 := by
  simp only [PendingSlice.deferOneCapacityBlockedFact]
  split
  · exact h
  · exact hP.block _ h

end Closed

end PendingSlice

end MempoolAtlas.Classification
