import MempoolAtlas.Classification.CacheAccounting
import MempoolAtlas.Classification.PipelineEffects
import MempoolAtlas.Classification.Reference

/-!
# The shared auxiliary-cache budget

The output cache of the current generation and the confirmed cache share one
byte ceiling. `Balanced` is what both sides of the balance keep through every
insertion, `CacheBudget` what every reachable state of the pipeline satisfies.
The exact versions of the cache passes refuse any subtraction that would clip
and any fallback of `shrink_to`; on reachable states they never refuse.

## Results

* `insertOutputs_spec`, `mergeCaches_spec`, `installCaches_spec` — each keeps the balance and
  clips nothing.
* `CacheBudget.run` — along a run the caches stay within their ceiling.
* `auxiliary_cache_budget` — the budget of every reachable state, and that no pass clips or falls
  back.
-/

namespace MempoolAtlas.Classification

open Machine Model

/-- The bytes of all cached outputs. -/
def outputBytes (outputs : BTreeMap Txid CachedOutputs) : Nat :=
  BTreeMap.sumBy (fun _ cached => cached.estimatedBytes) outputs

/-- Both caches account for what they hold, within the ceiling they share. -/
structure Balanced (maximum : Nat) (caches : AuxiliaryCaches) : Prop where
  accounted : caches.confirmed.Accounted none
  maximum_eq : caches.confirmed.maximumBytes = maximum
  outputs_eq : caches.outputCacheBytes = outputBytes caches.outputs
  share : caches.outputCacheBytes + caches.confirmed.estimatedBytes ≤ maximum

-- ---------------------------------------------------------------------------
-- Exact passes
-- ---------------------------------------------------------------------------

/-- `insertOutputs`, refusing a clipped subtraction or a fallback. -/
def insertOutputsExact (maximum : Nat) (caches : AuxiliaryCaches) (entry : Txid × CachedOutputs) :
    Option AuxiliaryCaches := do
  let replacedBytes := (caches.outputs[entry.1]?.map CachedOutputs.estimatedBytes).getD 0
  let base ← checkedSub caches.outputCacheBytes replacedBytes
  match checkedAdd base entry.2.estimatedBytes with
  | none => return caches
  | some newTotal =>
    if newTotal > maximum then return caches
    else
      let confirmed ← caches.confirmed.reserveForOutputsExact newTotal
      return {
        confirmed, outputCacheBytes := newTotal
        outputs := caches.outputs.insert entry.1 entry.2 }

/-- `insert_confirmed` without a clipped count. -/
def insertConfirmedExact (caches : AuxiliaryCaches) (entry : OutPoint × Script) :
    Option AuxiliaryCaches := do
  let inserted ← caches.confirmed.insertExact entry.1 entry.2 caches.outputCacheBytes
  return { caches with confirmed := inserted.2 }

/-- The merge of the caches without a clipped count. -/
def mergeCachesExact (limits : ClassificationLimits) (outputs : BTreeMap Txid CachedOutputs)
    (confirmedScripts : BTreeMap OutPoint Script) (caches : AuxiliaryCaches) :
    Option AuxiliaryCaches := do
  let caches ← outputs.toList.foldlM (insertOutputsExact limits.maxAuxiliaryCacheBytes) caches
  confirmedScripts.toList.foldlM insertConfirmedExact caches

/-- The carry-over of the caches without a clipped count. -/
def installCachesExact (limits : ClassificationLimits) (carried : Carried)
    (confirmed : ConfirmedScriptCache) : Option AuxiliaryCaches :=
  carried.outputs.foldlM (insertOutputsExact limits.maxAuxiliaryCacheBytes)
    { outputs := ∅, outputCacheBytes := 0, confirmed }

-- ---------------------------------------------------------------------------
-- One insertion
-- ---------------------------------------------------------------------------

theorem replaced_le_outputBytes (outputs : BTreeMap Txid CachedOutputs) (txid : Txid) :
    (outputs[txid]?.map CachedOutputs.estimatedBytes).getD 0 ≤ outputBytes outputs := by
  cases hGet : outputs[txid]? with
  | none => exact Nat.zero_le _
  | some cached => exact BTreeMap.le_sumBy (fun _ (c : CachedOutputs) => c.estimatedBytes) hGet

/-- Inserting outputs adds their bytes in place of the old ones. -/
theorem outputBytes_insert (outputs : BTreeMap Txid CachedOutputs) (txid : Txid)
    (cached : CachedOutputs) : outputBytes (outputs.insert txid cached) =
      outputBytes outputs - (outputs[txid]?.map CachedOutputs.estimatedBytes).getD 0 +
        cached.estimatedBytes := by
  unfold outputBytes
  cases hGet : outputs[txid]? with
  | none =>
    have hNew : txid ∉ outputs := by
      rw [Std.ExtTreeMap.mem_iff_isSome_getElem?, hGet]
      simp
    rw [BTreeMap.sumBy_insert_of_not_mem _ cached hNew, Option.map_none, Option.getD_none,
      Nat.sub_zero, Nat.add_comm]
  | some old =>
    have hSum := BTreeMap.sumBy_insert_of_mem (fun _ (c : CachedOutputs) => c.estimatedBytes) hGet
      cached
    have hLe := BTreeMap.le_sumBy (fun _ (c : CachedOutputs) => c.estimatedBytes) hGet
    rw [Option.map_some, Option.getD_some]
    omega

/-- **`insert_outputs`** keeps the balance, and clips nothing. -/
theorem insertOutputs_spec {maximum : Nat} {caches : AuxiliaryCaches} (h : Balanced maximum caches)
    (entry : Txid × CachedOutputs) :
    insertOutputsExact maximum caches entry = some (insertOutputs maximum caches entry) ∧
      Balanced maximum (insertOutputs maximum caches entry) := by
  have hReplaced := replaced_le_outputBytes caches.outputs entry.1
  rw [← h.outputs_eq] at hReplaced
  have hInsert := outputBytes_insert caches.outputs entry.1 entry.2
  rw [← h.outputs_eq] at hInsert
  simp only [insertOutputsExact, insertOutputs, checkedSub_eq_some.mpr ⟨hReplaced, rfl⟩,
    Option.bind_eq_bind, Option.bind_some]
  cases hTotal : checkedAdd (caches.outputCacheBytes -
      (caches.outputs[entry.1]?.map CachedOutputs.estimatedBytes).getD 0)
      entry.2.estimatedBytes with
  | none => exact ⟨rfl, h⟩
  | some newTotal =>
    obtain ⟨-, hNew⟩ := checkedAdd_eq_some.mp hTotal
    by_cases hGt : newTotal > maximum
    · simp only [if_pos hGt]
      exact ⟨rfl, h⟩
    · simp only [if_neg hGt]
      obtain ⟨hExact, hAcc, hShrunk, hShare⟩ :=
        ConfirmedScriptCache.reserveForOutputs_spec h.accounted
          (by rw [h.maximum_eq]; omega : newTotal ≤ caches.confirmed.maximumBytes)
      rw [hExact]
      refine ⟨rfl, hAcc, hShrunk.maximum.trans h.maximum_eq, ?_, ?_⟩
      · rw [hInsert, hNew]
      · rw [← h.maximum_eq]
        exact hShare

/-- **`insert_confirmed`** keeps the balance, and clips nothing. -/
theorem insertConfirmed_spec {maximum : Nat} {caches : AuxiliaryCaches}
    (h : Balanced maximum caches) (entry : OutPoint × Script) :
    insertConfirmedExact caches entry = some (insertConfirmed caches entry) ∧
      Balanced maximum (insertConfirmed caches entry) := by
  have hShare := h.share
  rw [← h.maximum_eq] at hShare
  obtain ⟨hExact, hAcc, hMaximum, hShare'⟩ :=
    ConfirmedScriptCache.insert_spec h.accounted hShare entry.1 entry.2
  refine ⟨?_, hAcc, hMaximum.trans h.maximum_eq, h.outputs_eq, ?_⟩
  · rw [insertConfirmedExact, hExact]
    rfl
  · rw [← h.maximum_eq]
    exact hShare'

-- ---------------------------------------------------------------------------
-- Whole passes
-- ---------------------------------------------------------------------------

/-- A pass of insertions, each of which the exact one agrees with. -/
theorem foldlM_eq_foldl {α β : Type} (P : β → Prop) {step : β → α → β} {exact' : β → α → Option β}
    (hStep : ∀ b a, P b → exact' b a = some (step b a) ∧ P (step b a)) (entries : List α) {b : β}
    (h : P b) : entries.foldlM exact' b = some (entries.foldl step b) ∧ P (entries.foldl step b) := by
  induction entries generalizing b with
  | nil => exact ⟨rfl, h⟩
  | cons a rest ih =>
    obtain ⟨hExact, hNext⟩ := hStep b a h
    rw [List.foldlM_cons, hExact]
    exact ih hNext

/-- A merge keeps the balance, and clips nothing. -/
theorem mergeCaches_spec (limits : ClassificationLimits) (outputs : BTreeMap Txid CachedOutputs)
    (confirmedScripts : BTreeMap OutPoint Script) {caches : AuxiliaryCaches}
    (h : Balanced limits.maxAuxiliaryCacheBytes caches) :
    mergeCachesExact limits outputs confirmedScripts caches =
        some (mergeCaches limits outputs confirmedScripts caches) ∧
      Balanced limits.maxAuxiliaryCacheBytes
        (mergeCaches limits outputs confirmedScripts caches) := by
  obtain ⟨hOutputs, hBalanced⟩ :=
    foldlM_eq_foldl (Balanced limits.maxAuxiliaryCacheBytes)
      (fun _ entry hb => insertOutputs_spec hb entry) outputs.toList h
  obtain ⟨hConfirmed, hDone⟩ :=
    foldlM_eq_foldl (Balanced limits.maxAuxiliaryCacheBytes)
      (fun _ entry hb => insertConfirmed_spec hb entry) confirmedScripts.toList hBalanced
  refine ⟨?_, hDone⟩
  rw [mergeCachesExact, hOutputs]
  exact hConfirmed

/-- A new generation takes over the ceiling with no outputs of its own. -/
theorem balanced_empty {maximum : Nat} {confirmed : ConfirmedScriptCache}
    (h : confirmed.Accounted none) (hMaximum : confirmed.maximumBytes = maximum) :
    Balanced maximum { outputs := ∅, outputCacheBytes := 0, confirmed } where
  accounted := h
  maximum_eq := hMaximum
  outputs_eq := (BTreeMap.sumBy_empty _).symm
  share := by
    rw [Nat.zero_add, ← hMaximum]
    exact h.fits

/-- A carry-over keeps the balance, and clips nothing. -/
theorem installCaches_spec (limits : ClassificationLimits) (carried : Carried)
    {confirmed : ConfirmedScriptCache} (h : confirmed.Accounted none)
    (hMaximum : confirmed.maximumBytes = limits.maxAuxiliaryCacheBytes) :
    installCachesExact limits carried confirmed = some (installCaches limits carried confirmed) ∧
      Balanced limits.maxAuxiliaryCacheBytes (installCaches limits carried confirmed) :=
  foldlM_eq_foldl (Balanced limits.maxAuxiliaryCacheBytes)
    (fun _ entry hb => insertOutputs_spec hb entry) carried.outputs (balanced_empty h hMaximum)

/-- Reading the cache for a whole slice keeps its facts and its accounting, and
never meets a missing entry. -/
theorem hydrateLoop_spec (variants : BTreeMap Txid CurrentVariant)
    (outputs : BTreeMap Txid CachedOutputs) (limits : ResolverLimits) :
    ∀ (waiting : List (OutPoint × FactSource)) (absorbed : PendingSlice.Absorbed)
      (confirmed : ConfirmedScriptCache), confirmed.Accounted none →
      ∃ absorbed' confirmed',
        PendingSlice.hydrateFromCachesLoop variants outputs limits waiting absorbed confirmed =
          .ok (absorbed', confirmed') ∧
        confirmed.SameFacts confirmed' ∧ confirmed'.Accounted none
  | [], absorbed, confirmed, h =>
    ⟨absorbed, confirmed, rfl, ConfirmedScriptCache.SameFacts.refl confirmed, h⟩
  | (outpoint, source) :: rest, absorbed, confirmed, h => by
    have hRead : ∃ absorbed' confirmed', (do
        let read ← confirmed.get outpoint
        PendingSlice.hydrateFromCachesLoop variants outputs limits rest
          (absorbed.add outpoint read.1 limits) read.2) = .ok (absorbed', confirmed') ∧
        confirmed.SameFacts confirmed' ∧ confirmed'.Accounted none := by
      obtain ⟨cache', hGet, hSame, hAcc⟩ := ConfirmedScriptCache.get_spec h outpoint
      obtain ⟨absorbed', confirmed', hRest, hSame', hAcc'⟩ :=
        hydrateLoop_spec variants outputs limits rest _ cache' hAcc
      refine ⟨absorbed', confirmed', ?_, hSame.trans hSame', hAcc'⟩
      rw [hGet]
      exact hRest
    cases source with
    | currentParent => exact hydrateLoop_spec variants outputs limits rest _ confirmed h
    | confirmed => exact hRead
    | parentFallback => exact hRead

/-- Hydrating reads the confirmed cache and keeps its account. -/
theorem hydrateFromCaches_spec (pending : PendingSlice) (variants : BTreeMap Txid CurrentVariant)
    (outputs : BTreeMap Txid CachedOutputs) (limits : ResolverLimits)
    {confirmed : ConfirmedScriptCache} (h : confirmed.Accounted none) :
    ∃ absorbed confirmed', pending.hydrateFromCaches variants outputs confirmed limits =
        .ok (absorbed, confirmed') ∧
      confirmed.SameFacts confirmed' ∧ confirmed'.Accounted none :=
  hydrateLoop_spec variants outputs limits pending.waiting { pending } confirmed h

-- ---------------------------------------------------------------------------
-- Runs
-- ---------------------------------------------------------------------------

/-- The caches of the current generation and the coordinator. -/
def generationCaches (state : PipelineState) (generation : ClassificationGeneration) :
    AuxiliaryCaches where
  outputs := generation.work.outputs
  outputCacheBytes := generation.work.outputCacheBytes
  confirmed := state.confirmedCache

/-- The two caches of the current generation are within their ceiling. -/
structure CacheBudget (limits : ClassificationLimits) (state : PipelineState) : Prop
    extends Filed state where
  accounted : state.confirmedCache.Accounted none
  maximum_eq : state.confirmedCache.maximumBytes = limits.maxAuxiliaryCacheBytes
  balanced : ∀ id generation, state.current = some id → state.generations[id]? = some generation →
    Balanced limits.maxAuxiliaryCacheBytes (generationCaches state generation)

theorem cacheBudget_new (limits : ClassificationLimits) :
    CacheBudget limits (PipelineState.new limits) where
  toFiled := filed_new limits
  accounted := by
    have hLe := limits.cacheLe
    refine ConfirmedScriptCache.accounted_new (hLe.trans ?_)
    decide
  maximum_eq := rfl
  balanced id generation hCurrent := by simp [PipelineState.new] at hCurrent

section Crate

variable [BitcoinCrate]

/-- Any effect keeps the budget. -/
theorem CacheBudget.effect {limits : ClassificationLimits} {state state' : PipelineState}
    {call : Call} {event : Option Event} (h : CacheBudget limits state)
    (hEffect : Effect limits state call event state') : CacheBudget limits state' := by
  have hFiled := h.toFiled.effect hEffect
  cases hEffect with
  | idle => exact h
  | @touched _ _ id generation generation' _ hGet hSame =>
    refine ⟨hFiled, h.accounted, h.maximum_eq, fun other current hCurrent hOther => ?_⟩
    rw [setGeneration_get] at hOther
    split at hOther
    · next hId =>
      obtain rfl := Option.some.inj hOther
      have hOld : generation.id = id := h.id_eq id generation hGet
      have hBalanced := h.balanced other generation hCurrent
        (by rw [← hId, hSame.id, hOld]; exact hGet)
      unfold generationCaches at hBalanced ⊢
      rw [hSame.outputs, hSame.outputCacheBytes]
      exact hBalanced
    · exact h.balanced other current hCurrent hOther
  | @read _ id generation pending absorbed confirmedCache hGet hCurrent hHydrate =>
    obtain ⟨absorbed', confirmed', hOk, hSame, hAcc⟩ := hydrateFromCaches_spec pending
      generation.variants generation.work.outputs
      (.production limits.maxAuxiliaryCacheBytes) h.accounted
    obtain ⟨rfl, rfl⟩ : absorbed' = absorbed ∧ confirmed' = confirmedCache := by
      simpa using hOk.symm.trans hHydrate
    have hMaximum := hSame.maximum.trans h.maximum_eq
    refine ⟨hFiled, hAcc, hMaximum, fun other current hOther hGetOther => ?_⟩
    have hBalanced := h.balanced other current hOther hGetOther
    exact ⟨hAcc, hMaximum, hBalanced.outputs_eq, by
      show _ + confirmed'.estimatedBytes ≤ _
      rw [hSame.bytes]
      exact hBalanced.share⟩
  | @installed membership variants id hVariants hId =>
    obtain ⟨-, hBalanced⟩ := installCaches_spec limits (carry (currentWork state) membership)
      h.accounted h.maximum_eq
    refine ⟨hFiled, hBalanced.accounted, hBalanced.maximum_eq, fun other current hOther hGet => ?_⟩
    obtain rfl : id = other := by simpa [installGeneration] using hOther
    have hNew := hGet
    simp only [installGeneration, BTreeMap.getElem?_insert_eq, if_true, Option.some.injEq] at hNew
    subst hNew
    exact hBalanced
  | @merged id generation advance pending state' call' event hGet hCurrent hMerge =>
    obtain ⟨work, confirmedCache, rfl, hOutputs, hBytes, hConfirmed⟩ :=
      merged_state (hMerge ▸ merge_spec limits _ advance pending hCurrent)
    have hOld : generation.id = id := h.id_eq id generation hGet
    have hBefore := h.balanced generation.id generation hCurrent (by rw [hOld]; exact hGet)
    obtain ⟨-, hBalanced⟩ := mergeCaches_spec limits advance.outputs advance.confirmedScripts hBefore
    have hReads : confirmedCache.Accounted none ∧
        confirmedCache.maximumBytes = limits.maxAuxiliaryCacheBytes ∧
        confirmedCache.estimatedBytes =
          (mergedCaches limits state generation advance).confirmed.estimatedBytes := by
      rcases hConfirmed with rfl | ⟨candidates, absorbed, hHydrate⟩
      · exact ⟨hBalanced.accounted, hBalanced.maximum_eq, rfl⟩
      · obtain ⟨absorbed', confirmed', hOk, hSame, hAcc⟩ := hydrateFromCaches_spec candidates
          generation.variants (mergedCaches limits state generation advance).outputs
          (.production limits.maxAuxiliaryCacheBytes) hBalanced.accounted
        obtain ⟨-, rfl⟩ : absorbed' = absorbed ∧ confirmed' = confirmedCache := by
          simpa using hOk.symm.trans hHydrate
        exact ⟨hAcc, hSame.maximum.trans hBalanced.maximum_eq, hSame.bytes⟩
    obtain ⟨hAcc, hMaximum, hEstimated⟩ := hReads
    refine ⟨hFiled, hAcc, hMaximum, fun other current hOther hGetOther => ?_⟩
    rw [setGeneration_get] at hGetOther
    split at hGetOther
    · obtain rfl := Option.some.inj hGetOther
      refine ⟨hAcc, hMaximum, ?_, ?_⟩
      · show work.outputCacheBytes = outputBytes work.outputs
        rw [hOutputs, hBytes]
        exact hBalanced.outputs_eq
      · show work.outputCacheBytes + confirmedCache.estimatedBytes ≤ _
        rw [hBytes, hEstimated]
        exact hBalanced.share
    · next hNe =>
      refine absurd ?_ hNe
      have hSame : some generation.id = some other := hCurrent.symm.trans hOther
      exact Option.some.inj hSame

variable [WireJson] {ι : Type} [DecidableEq ι]

/-- **Along a run** the caches stay within their ceiling. -/
theorem CacheBudget.run {limits : ClassificationLimits} {w w' : World ι PipelineState Call}
    {trace : List (ι × Option Event)} (hRun : (system ι limits).Run w trace w')
    (h : CacheBudget limits w.shared) : CacheBudget limits w'.shared := by
  induction hRun with
  | refl => exact h
  | tail _ hStep ih =>
    cases hStep with
    | start => exact ih
    | act _ hAct =>
      obtain ⟨completion, hCall⟩ := hAct
      exact ih.effect (callStep_effect hCall)

/-- **The shared auxiliary-cache budget.** After any run of installations and
slices: the current generation's output cache counts the bytes it holds, the
confirmed cache counts its own, its LRU order pairs each entry with a stamp of
its own, and the two fit the ceiling together. Whatever the next installation
carries and whatever the next merge stores, no subtraction clips and no
fallback of `shrink_to` is taken. -/
theorem auxiliary_cache_budget (limits : ClassificationLimits) {w : World ι PipelineState Call}
    {trace : List (ι × Option Event)}
    (hRun : (system ι limits).Run (Processes.initial (.new limits)) trace w) :
    (∀ id generation, w.shared.current = some id → w.shared.generations[id]? = some generation →
      generation.work.outputCacheBytes = outputBytes generation.work.outputs ∧
      generation.work.outputCacheBytes + w.shared.confirmedCache.estimatedBytes ≤
        limits.maxAuxiliaryCacheBytes) ∧
    w.shared.confirmedCache.estimatedBytes =
      BTreeMap.sumBy (fun _ entry => entry.estimatedBytes) w.shared.confirmedCache.entries ∧
    (∀ key, key ∈ w.shared.confirmedCache.lru ↔
      ∃ entry, w.shared.confirmedCache.entries[key.outpoint]? = some entry ∧
        entry.stamp = key.stamp) ∧
    (∀ (outpoint outpoint' : OutPoint) entry entry',
      w.shared.confirmedCache.entries[outpoint]? = some entry →
      w.shared.confirmedCache.entries[outpoint']? = some entry' → entry.stamp = entry'.stamp →
      outpoint = outpoint') ∧
    (∀ membership, installCachesExact limits (carry (currentWork w.shared) membership)
        w.shared.confirmedCache =
      some (installCaches limits (carry (currentWork w.shared) membership)
        w.shared.confirmedCache)) ∧
    ∀ id generation outputs confirmedScripts, w.shared.current = some id →
      w.shared.generations[id]? = some generation →
      mergeCachesExact limits outputs confirmedScripts (generationCaches w.shared generation) =
        some (mergeCaches limits outputs confirmedScripts
          (generationCaches w.shared generation)) := by
  have h : CacheBudget limits w.shared := CacheBudget.run hRun (cacheBudget_new limits)
  refine ⟨fun id generation hCurrent hGet => ?_, h.accounted.bytes_eq, fun key => ?_, ?_, ?_, ?_⟩
  · have hBalanced := h.balanced id generation hCurrent hGet
    exact ⟨hBalanced.outputs_eq, hBalanced.share⟩
  · rw [h.accounted.mem_lru key]
    exact and_iff_right (by simp)
  · intro outpoint outpoint' entry entry' hEntry hEntry' hStamp
    have hKey := (h.accounted.mem_lru ⟨entry.stamp, outpoint⟩).mpr ⟨by simp, entry, hEntry, rfl⟩
    have hKey' := (h.accounted.mem_lru ⟨entry'.stamp, outpoint'⟩).mpr
      ⟨by simp, entry', hEntry', rfl⟩
    have hSame : (⟨entry.stamp, outpoint⟩ : LruKey) = ⟨entry'.stamp, outpoint'⟩ :=
      h.accounted.unique hKey hKey' hStamp
    exact congrArg LruKey.outpoint hSame
  · intro membership
    exact (installCaches_spec limits _ h.accounted h.maximum_eq).1
  · intro id generation outputs confirmedScripts hCurrent hGet
    exact (mergeCaches_spec limits outputs confirmedScripts
      (h.balanced id generation hCurrent hGet)).1

end Crate

/-- The sample run: one transaction's outputs and one confirmed script share the
ceiling. -/
theorem auxiliary_cache_budget_payment :
    ∃ outputs confirmed, 0 < outputBytes outputs ∧ 0 < confirmed ∧
      outputBytes outputs + confirmed ≤ Reference.limits.maxAuxiliaryCacheBytes := by
  let _ := MempoolAtlas.Reference.crate [MempoolAtlas.Reference.payment]
  let _ := Reference.json [MempoolAtlas.Reference.payment.hex, "51"]
  have hPlay : (Reference.play Reference.limits Reference.paymentMoves).any (fun played =>
      played.state.current == some 1 && 0 < played.state.confirmedCache.estimatedBytes &&
        played.state.generations[1]?.any fun generation => 0 < generation.work.outputCacheBytes) =
      true := by decide +kernel
  obtain ⟨played, hPlayed, hFilled⟩ := (Option.any_eq_true ..).mp hPlay
  simp only [Bool.and_eq_true, beq_iff_eq, decide_eq_true_eq, Option.any_eq_true] at hFilled
  obtain ⟨⟨hCurrent, hConfirmed⟩, generation, hGet, hOutputs⟩ := hFilled
  obtain ⟨hBudget, -⟩ := auxiliary_cache_budget Reference.limits (Reference.play_run hPlayed)
  obtain ⟨hSum, hShare⟩ := hBudget 1 generation hCurrent hGet
  exact ⟨generation.work.outputs, _, hSum ▸ hOutputs, hConfirmed, hSum ▸ hShare⟩

end MempoolAtlas.Classification
