import MempoolAtlas.Classification.Batching
import MempoolAtlas.Classification.FairWaves
import MempoolAtlas.Classification.Fetched
import MempoolAtlas.Classification.SoundCaches

/-!
# Only answers decide

Every classification the pipeline publishes was evaluated with nothing but the node's
answers, along any interleaving of installations and slices: an invariant of the shared
state, an assertion for each point a call can reach, and the step that keeps both. The
history is fixed while one action is taken, its own event included; afterwards it may
only grow.

## Results

* `callStep_sound` — one action keeps everything sound.
* `sound_run` — what every reachable state satisfies.
* `policy_facts_sound` — what the next revision publishes, and every fact it may rest on, came
  from the node.
-/

namespace MempoolAtlas.Classification

open Machine Model Processes BitcoinCrate

-- ---------------------------------------------------------------------------
-- What is kept
-- ---------------------------------------------------------------------------

/-- The generation was installed for this membership. -/
def Installed (history : List Event) (generation : Nat) (membership : MempoolSnapshot) : Prop :=
  ∃ start, Event.installed start ∈ history ∧ start.generation = generation ∧
    start.membership = membership

section Crate

variable [BitcoinCrate] [WireJson]

/-- Evaluated by some generation, for the membership it was installed for. -/
def EverEvaluated (history : List Event) (cached : CachedClassification) : Prop :=
  ∃ generation membership, Installed history generation membership ∧
    WasEvaluated history generation membership cached

/-- What a generation holds comes from answers about its membership. -/
structure GenerationSound (history : List Event) (generation : ClassificationGeneration) :
    Prop where
  installed : Installed history generation.id generation.membership
  variants : currentVariants generation.membership = .ok generation.variants
  outputs : OutputsSound history generation.work.outputs
  classifications : ∀ (wtxid : String) cached,
    generation.work.classifications[wtxid]? = some cached → EverEvaluated history cached
  pending : ∀ pending, generation.work.pending = some pending →
    PendingSound history generation.id generation.membership pending

/-- The shared state: both caches within their budget, and all it holds is sound. -/
structure PipelineSound (limits : ClassificationLimits) (history : List Event)
    (state : PipelineState) : Prop extends CacheBudget limits state where
  confirmed : ConfirmedSound history state.confirmedCache
  generations : ∀ (id : Nat) generation, state.generations[id]? = some generation →
    GenerationSound history generation

/-- What a slice has gathered comes from answers. -/
structure AdvanceSound (history : List Event) (generation : Nat) (membership : MempoolSnapshot)
    (advance : ClassificationAdvance) : Prop where
  outputs : ∀ (txid : Txid) cached, advance.outputs[txid]? = some cached →
    OutputsFrom history membership txid cached
  confirmedScripts : ∀ (outpoint : OutPoint) script,
    advance.confirmedScripts[outpoint]? = some script → PositiveAnswer history outpoint script
  classifications : ∀ cached ∈ advance.classifications,
    WasEvaluated history generation membership cached

/-- A slice at work is sound. -/
structure WorkingSound (history : List Event) (membership : MempoolSnapshot) (working : Working) :
    Prop where
  advance : AdvanceSound history working.generation membership working.advance
  pending : PendingSound history working.generation membership working.pending

/-- An entry of the membership, asked for as itself. -/
def IsCandidate (membership : MempoolSnapshot) (expected : ExpectedVariant) : Prop :=
  ∃ entry ∈ membership.transactions, expected = expectedVariant entry

/-- What holds for the membership of a filed generation. -/
def ForGeneration (state : PipelineState) (id : Nat) (p : MempoolSnapshot → Prop) : Prop :=
  ∃ generation, state.generations[id]? = some generation ∧ p generation.membership

/-- What a slice works on is sound for the generation it belongs to. -/
def WorkingFor (history : List Event) (state : PipelineState) (working : Working) : Prop :=
  ForGeneration state working.generation fun membership => WorkingSound history membership working

/-- What a call carries is sound for the generation it works on. -/
def CallSound (history : List Event) (state : PipelineState) : Call → Prop
  | .fetchingRaw id advance tasks => ForGeneration state id fun membership =>
      AdvanceSound history id membership advance ∧
        TasksSound (IsCandidate membership) (RawFollows history) tasks
  | .admitting id advance values => ForGeneration state id fun membership =>
      AdvanceSound history id membership advance ∧
        ∀ value ∈ values, IsCandidate membership value.1 ∧ RawFollows history value.1 value.2
  | .hydrating working | .hydrated working | .askingConfirmed working _ | .settling working
  | .recovering working _ | .rehydrating working _ | .rehydrated working _
  | .relieving working _ => WorkingFor history state working
  | .fetchingParents working _ tasks =>
    ForGeneration state working.generation fun membership =>
      WorkingSound history membership working ∧
        TasksSound (ParentRow membership) (RawFollows history) tasks
  | .fetchingConfirmed working tasks =>
    WorkingFor history state working ∧
      TasksSound (fun _ => True) (ConfirmedFollows history working.generation) tasks
  | .merging id advance pending => ForGeneration state id fun membership =>
      AdvanceSound history id membership advance ∧
        ∀ remaining, pending = some remaining → PendingSound history id membership remaining
  | _ => True

-- ---------------------------------------------------------------------------
-- Histories grow, generations stay
-- ---------------------------------------------------------------------------

variable {history history' : List Event}

omit [BitcoinCrate] [WireJson] in
theorem Installed.mono (hSub : history ⊆ history') {generation : Nat} {membership : MempoolSnapshot}
    (h : Installed history generation membership) : Installed history' generation membership := by
  obtain ⟨start, hMem, hRest⟩ := h
  exact ⟨start, hSub hMem, hRest⟩

theorem EverEvaluated.mono (hSub : history ⊆ history') {cached : CachedClassification}
    (h : EverEvaluated history cached) : EverEvaluated history' cached := by
  obtain ⟨generation, membership, hInstalled, hEvaluated⟩ := h
  exact ⟨generation, membership, hInstalled.mono hSub, hEvaluated.mono hSub⟩

/-- A longer history keeps a generation sound. -/
theorem GenerationSound.mono (hSub : history ⊆ history') {generation : ClassificationGeneration}
    (h : GenerationSound history generation) : GenerationSound history' generation where
  installed := h.installed.mono hSub
  variants := h.variants
  outputs := h.outputs.mono hSub
  classifications wtxid cached hGet := (h.classifications wtxid cached hGet).mono hSub
  pending pending hPending := (h.pending pending hPending).mono hSub

/-- A longer history keeps the pipeline sound. -/
theorem PipelineSound.mono (hSub : history ⊆ history') {limits : ClassificationLimits}
    {state : PipelineState} (h : PipelineSound limits history state) :
    PipelineSound limits history' state where
  toCacheBudget := h.toCacheBudget
  confirmed := h.confirmed.mono hSub
  generations id generation hGet := (h.generations id generation hGet).mono hSub

theorem AdvanceSound.mono (hSub : history ⊆ history') {generation : Nat}
    {membership : MempoolSnapshot} {advance : ClassificationAdvance}
    (h : AdvanceSound history generation membership advance) :
    AdvanceSound history' generation membership advance where
  outputs txid cached hGet := (h.outputs txid cached hGet).mono hSub
  confirmedScripts outpoint script hGet := (h.confirmedScripts outpoint script hGet).mono hSub
  classifications cached hMem := (h.classifications cached hMem).mono hSub

theorem WorkingSound.mono (hSub : history ⊆ history') {membership : MempoolSnapshot}
    {working : Working} (h : WorkingSound history membership working) :
    WorkingSound history' membership working :=
  ⟨h.advance.mono hSub, h.pending.mono hSub⟩

/-- Every filed generation stays filed, with the membership it has. -/
def Keeps (state state' : PipelineState) : Prop :=
  ∀ (id : Nat) generation, state.generations[id]? = some generation →
    ∃ generation', state'.generations[id]? = some generation' ∧
      generation'.membership = generation.membership

omit [BitcoinCrate] [WireJson] in
theorem Keeps.refl (state : PipelineState) : Keeps state state :=
  fun _ generation hGet => ⟨generation, hGet, rfl⟩

omit [BitcoinCrate] [WireJson] in
theorem Keeps.trans {a b c : PipelineState} (h₁ : Keeps a b) (h₂ : Keeps b c) : Keeps a c := by
  intro id generation hGet
  obtain ⟨generation', hGet', hSame⟩ := h₁ id generation hGet
  obtain ⟨generation'', hGet'', hSame'⟩ := h₂ id generation' hGet'
  exact ⟨generation'', hGet'', hSame'.trans hSame⟩

omit [BitcoinCrate] [WireJson] in
/-- A generation that replaces itself keeps its membership. -/
theorem keeps_setGeneration {state : PipelineState} (hFiled : Filed state) {id : Nat}
    {generation generation' : ClassificationGeneration}
    (hGet : state.generations[id]? = some generation) (hId : generation'.id = generation.id)
    (hSame : generation'.membership = generation.membership) :
    Keeps state (state.setGeneration generation') := by
  intro other found hFound
  rw [setGeneration_get]
  split
  · next hEq =>
    refine ⟨generation', rfl, hSame.trans ?_⟩
    have hOther : other = id := hEq.symm.trans (hId.trans (hFiled.id_eq id generation hGet))
    rw [hOther, hGet] at hFound
    rw [Option.some.inj hFound]
  · exact ⟨found, hFound, rfl⟩

omit [WireJson] in
/-- Generations are never taken out, and never given another membership. -/
theorem Effect.keeps {limits : ClassificationLimits} {state state' : PipelineState} {call : Call}
    {event : Option Event} (h : Effect limits state call event state') (hFiled : Filed state) :
    Keeps state state' := by
  cases h with
  | idle => exact Keeps.refl _
  | touched _ hGet hSame => exact keeps_setGeneration hFiled hGet hSame.id hSame.membership
  | read => exact Keeps.refl _
  | @installed membership variants id _ hId =>
    intro other found hFound
    obtain ⟨-, rfl⟩ := checkedAdd_eq_some.mp hId
    have hBound := hFiled.id_le other found hFound
    refine ⟨found, ?_, rfl⟩
    simp only [installGeneration, BTreeMap.getElem?_insert_eq]
    rw [if_neg (by omega)]
    exact hFound
  | merged hGet hCurrent hMerge =>
    obtain ⟨work, confirmedCache, rfl, -⟩ :=
      merged_state (hMerge ▸ merge_spec limits _ _ _ hCurrent)
    have hRead : Filed { state with confirmedCache } :=
      ⟨hFiled.id_eq, hFiled.id_le, hFiled.current_eq, hFiled.current_filed⟩
    exact keeps_setGeneration hRead hGet rfl rfl

omit [BitcoinCrate] [WireJson] in
theorem ForGeneration.keep {state state' : PipelineState} (hKeeps : Keeps state state') {id : Nat}
    {p p' : MempoolSnapshot → Prop} (hImp : ∀ membership, p membership → p' membership)
    (h : ForGeneration state id p) : ForGeneration state' id p' := by
  obtain ⟨generation, hGet, hHolds⟩ := h
  obtain ⟨generation', hGet', hSame⟩ := hKeeps id generation hGet
  exact ⟨generation', hGet', hSame ▸ hImp _ hHolds⟩

theorem WorkingFor.mono (hSub : history ⊆ history') {state state' : PipelineState}
    (hKeeps : Keeps state state') {working : Working} (h : WorkingFor history state working) :
    WorkingFor history' state' working :=
  ForGeneration.keep hKeeps (fun _ => WorkingSound.mono hSub) h

/-- **What others do leaves a call sound.** -/
theorem CallSound.mono (hSub : history ⊆ history') {state state' : PipelineState}
    (hKeeps : Keeps state state') {call : Call} (h : CallSound history state call) :
    CallSound history' state' call := by
  cases call with
  | fetchingRaw id advance tasks =>
    simp only [CallSound] at h ⊢
    exact h.keep hKeeps fun _ hBoth => ⟨hBoth.1.mono hSub,
      hBoth.2.mono (fun _ hAsked => hAsked) fun _ _ => RawFollows.mono hSub⟩
  | admitting id advance values =>
    simp only [CallSound] at h ⊢
    exact h.keep hKeeps fun _ hBoth => ⟨hBoth.1.mono hSub, fun value hMem =>
      ⟨(hBoth.2 value hMem).1, (hBoth.2 value hMem).2.mono hSub⟩⟩
  | hydrating working => exact WorkingFor.mono hSub hKeeps h
  | hydrated working => exact WorkingFor.mono hSub hKeeps h
  | askingConfirmed working paused => exact WorkingFor.mono hSub hKeeps h
  | settling working => exact WorkingFor.mono hSub hKeeps h
  | recovering working once => exact WorkingFor.mono hSub hKeeps h
  | rehydrating working once => exact WorkingFor.mono hSub hKeeps h
  | rehydrated working once => exact WorkingFor.mono hSub hKeeps h
  | relieving working once => exact WorkingFor.mono hSub hKeeps h
  | fetchingParents working wave tasks =>
    simp only [CallSound] at h ⊢
    exact h.keep hKeeps fun _ hBoth => ⟨hBoth.1.mono hSub,
      hBoth.2.mono (fun _ hAsked => hAsked) fun _ _ => RawFollows.mono hSub⟩
  | fetchingConfirmed working tasks =>
    exact ⟨h.1.mono hSub hKeeps,
      h.2.mono (fun _ hAsked => hAsked) fun _ _ => ConfirmedFollows.mono hSub⟩
  | merging id advance pending =>
    simp only [CallSound] at h ⊢
    exact h.keep hKeeps fun _ hBoth => ⟨hBoth.1.mono hSub, fun remaining hSome =>
      (hBoth.2 remaining hSome).mono hSub⟩
  | installSnapshot _ => trivial
  | installed _ => trivial
  | classifyNextForGeneration _ => trivial
  | awaitingDriver _ => trivial
  | holdingDriver _ => trivial
  | takingPending _ => trivial
  | selecting _ => trivial
  | leaving _ _ => trivial
  | returned _ => trivial

-- ---------------------------------------------------------------------------
-- Slices
-- ---------------------------------------------------------------------------

theorem WorkingFor.at {state : PipelineState} {working : Working}
    (h : WorkingFor history state working) {generation : ClassificationGeneration}
    (hGet : state.generations[working.generation]? = some generation) :
    WorkingSound history generation.membership working := by
  obtain ⟨found, hFound, hSound⟩ := h
  rw [hGet] at hFound
  rw [Option.some.inj hFound]
  exact hSound

/-- A slice that has gathered nothing is sound. -/
theorem advanceSound_start (generation : Nat) (membership : MempoolSnapshot) (attempted : Nat) :
    AdvanceSound history generation membership { attempted } where
  outputs txid cached hGet := by simp at hGet
  confirmedScripts outpoint script hGet := by simp at hGet
  classifications cached hMem := absurd hMem List.not_mem_nil

variable {generation : Nat} {membership : MempoolSnapshot}

/-- Only its scripts and its classifications make an advance sound. -/
theorem AdvanceSound.congr {advance advance' : ClassificationAdvance}
    (h : AdvanceSound history generation membership advance)
    (hOutputs : advance'.outputs = advance.outputs)
    (hConfirmed : advance'.confirmedScripts = advance.confirmedScripts)
    (hClassifications : advance'.classifications = advance.classifications) :
    AdvanceSound history generation membership advance' where
  outputs txid cached hGet := h.outputs txid cached (hOutputs ▸ hGet)
  confirmedScripts outpoint script hGet := h.confirmedScripts outpoint script (hConfirmed ▸ hGet)
  classifications cached hMem := h.classifications cached (hClassifications ▸ hMem)

/-- The script of a parent output is that of a member: the slice fetched it, or the
cache has it under the identifiers of an entry. -/
theorem parentScript_from {variants : BTreeMap Txid CurrentVariant}
    (hVariants : currentVariants membership = .ok variants) {pending : PendingSlice}
    (hPending : PendingSound history generation membership pending)
    {outputs : BTreeMap Txid CachedOutputs} (hOutputs : OutputsSound history outputs)
    {outpoint : OutPoint} {script : Script}
    (h : PendingSlice.parentScript pending.rawOutputs variants outputs outpoint = some script) :
    FromMember history membership outpoint script := by
  rcases Option.or_eq_some_iff.mp h with hRaw | ⟨-, hCached⟩
  · obtain ⟨cached, hGet, hScript⟩ := Option.bind_eq_some_iff.mp hRaw
    exact (hPending.raw outpoint.txid cached hGet).fromMember hScript
  · obtain ⟨variant, hVariant, hCached⟩ := Option.bind_eq_some_iff.mp hCached
    obtain ⟨cached, hFiltered, hScript⟩ := Option.bind_eq_some_iff.mp hCached
    obtain ⟨hGet, hWtxid⟩ := Option.filter_eq_some_iff.mp hFiltered
    obtain ⟨expected, transaction, hRaw, hTxid, rfl⟩ := hOutputs outpoint.txid cached hGet
    obtain ⟨entry, hMem, hEntry, rfl⟩ := (currentVariants_spec hVariants outpoint.txid).1 variant
      hVariant
    have hSame : expected.wtxid = entry.wtxid := by simpa [cachedOutputs] using hWtxid
    exact fromMember_of_row hRaw ⟨entry, hMem, outpoint.txid, hEntry, hTxid, hSame.symm⟩ hTxid
      hScript

/-- **Hydration from the caches** keeps a slice sound. -/
theorem PendingSound.hydrateFromCaches {variants : BTreeMap Txid CurrentVariant}
    (hVariants : currentVariants membership = .ok variants) {pending : PendingSlice}
    (h : PendingSound history generation membership pending) {outputs : BTreeMap Txid CachedOutputs}
    (hOutputs : OutputsSound history outputs) {confirmed confirmed' : ConfirmedScriptCache}
    (hAccounted : confirmed.Accounted none) (hConfirmed : ConfirmedSound history confirmed)
    {limits : ResolverLimits} {absorbed : PendingSlice.Absorbed}
    (hHydrate : pending.hydrateFromCaches variants outputs confirmed limits =
      .ok (absorbed, confirmed')) :
    PendingSound history generation membership absorbed.pending ∧
      ConfirmedSound history confirmed' := by
  constructor
  · exact h.moved (PendingSlice.hydrateFromCaches_moved hAccounted
      (fun outpoint script hScript => Or.inl (parentScript_from hVariants h hOutputs hScript))
      (fun outpoint entry hEntry => Or.inr (hConfirmed outpoint entry hEntry)) hHydrate)
  · obtain ⟨absorbed', confirmed'', hOk, hSame, -⟩ :=
      hydrateFromCaches_spec pending variants outputs limits hAccounted
    obtain ⟨-, rfl⟩ := Prod.mk.inj (Except.ok.inj (hOk.symm.trans hHydrate))
    exact hConfirmed.sameFacts hSame

/-- Classifying what is ready panics, or goes on with a sound slice. -/
theorem WorkingSound.classifyReady {working : Working}
    (h : WorkingSound history membership working) (next : Working → Call × Option Event) :
    (∃ panic, Classification.classifyReady working next =
        (.leaving working.generation (.panic panic), none)) ∨
      ∃ working', working'.generation = working.generation ∧
        WorkingSound history membership working' ∧
        Classification.classifyReady working next = next working' := by
  unfold Classification.classifyReady
  cases hReady : working.pending.classifyReady with
  | error panic => exact Or.inl ⟨panic, rfl⟩
  | ok ready =>
    obtain ⟨classifications, pending⟩ := ready
    obtain ⟨hEvaluated, hPending⟩ := h.pending.classifyReady hReady
    refine Or.inr ⟨{ working with
      advance := working.advance.addClassifications classifications, pending }, rfl,
      ⟨⟨h.advance.outputs, h.advance.confirmedScripts, ?_⟩, hPending⟩, rfl⟩
    intro cached hMem
    rcases List.mem_append.mp hMem with hOld | hNew
    · exact h.advance.classifications cached hOld
    · exact hEvaluated cached hNew

/-- The outputs of fetched transactions are sound. -/
theorem rawOutputsOf_sound {variants : BTreeMap Txid CurrentVariant}
    (hVariants : currentVariants membership = .ok variants) :
    ∀ (transactions : List (ExpectedVariant × Transaction)),
      (∀ admitted ∈ transactions, CandidateFrom history membership admitted.1 admitted.2) →
      ∀ (txid : Txid) cached, (PendingSlice.rawOutputsOf transactions)[txid]? = some cached →
        OutputsFrom history membership txid cached := by
  intro transactions hFrom
  refine List.foldlRecOn (motive := fun rawOutputs : BTreeMap Txid CachedOutputs =>
    ∀ (txid : Txid) cached, rawOutputs[txid]? = some cached →
      OutputsFrom history membership txid cached) _ _ (fun txid cached hGet => ?_) ?_
  · simp at hGet
  · intro rawOutputs hOutputs admitted hMem txid cached hGet
    obtain ⟨expected, transaction⟩ := admitted
    obtain ⟨hRaw, entry, hEntry, rfl⟩ := hFrom _ hMem
    dsimp only at hGet
    split at hGet
    · exact hOutputs txid cached hGet
    · next parsed hParsed =>
      rw [BTreeMap.getElem?_insert_eq] at hGet
      split at hGet
      · next hSame =>
        exact ⟨_, transaction, hRaw, row_expectedVariant hVariants hEntry, hSame ▸ hParsed,
          (Option.some.inj hGet).symm⟩
      · exact hOutputs txid cached hGet

/-- **A new slice is sound** when the node answered its transactions. -/
theorem pendingSound_new {variants : BTreeMap Txid CurrentVariant}
    (hVariants : currentVariants membership = .ok variants)
    {transactions : List (ExpectedVariant × Transaction)}
    (hFrom : ∀ admitted ∈ transactions, CandidateFrom history membership admitted.1 admitted.2)
    (limits : ResolverLimits) :
    PendingSound history generation membership (PendingSlice.new transactions variants limits) := by
  refine PendingSound.activateWaiting hVariants ⟨fun outpoint state hGet => ?_,
    rawOutputsOf_sound hVariants transactions hFrom, fun candidate hMem => ?_,
    fun key candidate hGet => ?_⟩ limits
  · simp at hGet
  · obtain ⟨admitted, hAdmitted, rfl⟩ := List.mem_map.mp hMem
    exact hFrom admitted hAdmitted
  · simp at hGet

-- ---------------------------------------------------------------------------
-- Fact waves
-- ---------------------------------------------------------------------------

/-- Asking for parents is sound. -/
theorem askParents_sound {state : PipelineState} {working : Working}
    {generation : ClassificationGeneration}
    (hGet : state.generations[working.generation]? = some generation)
    (hVariants : currentVariants generation.membership = .ok generation.variants)
    (h : WorkingSound history generation.membership working) (limits : ClassificationLimits)
    (resolver : ResolverLimits) :
    CallSound history state (askParents limits resolver generation.variants working).1 := by
  have hActivated := h.pending.activateWaiting hVariants resolver
  simp only [askParents]
  split
  · split
    · exact ⟨generation, hGet, h.advance, hActivated⟩
    · next hSome => exact absurd rfl hSome
  · split
    · exact ⟨generation, hGet, h.advance,
        hActivated.moved (PendingSlice.nextParentWave_moved _ _ _)⟩
    · refine ⟨generation, hGet, ⟨h.advance.congr rfl rfl rfl,
        hActivated.moved (PendingSlice.nextParentWave_moved _ _ _)⟩, .start (fun expected hMem => ?_) _⟩
      obtain ⟨outpoint, state, parent, -, -, hParent, rfl⟩ :=
        (PendingSlice.boundedParentWave generation.variants
          (working.pending.activateWaiting generation.variants resolver) resolver).awaited
          expected hMem
      exact parentRow_of_variant hVariants hParent

/-- One answered parent: its outputs are kept, and its facts are given. -/
theorem applyParentValue_sound {resolver : ResolverLimits} {applied : ParentsApplied}
    (hPending : PendingSound history generation membership applied.pending)
    (hAdvance : AdvanceSound history generation membership applied.advance)
    {fetched : ExpectedVariant × RpcValue Transaction} (hRow : Row membership fetched.1)
    (hFollows : RawFollows history fetched.1 fetched.2) :
    PendingSound history generation membership (applyParentValue resolver applied fetched).pending ∧
      AdvanceSound history generation membership
        (applyParentValue resolver applied fetched).advance := by
  unfold applyParentValue
  split
  · next parentTxid transaction hTxid hFound =>
    rw [hFound] at hFollows
    refine ⟨hPending.moved (PendingSlice.applyParentTransaction_moved _ _
      fun outpoint script hSame hScript => Or.inl (fromMember_of_row hFollows hRow hSame hScript)),
      fun txid cached hGet => ?_, hAdvance.confirmedScripts, hAdvance.classifications⟩
    have hInserted : (applied.advance.outputs.insert parentTxid
        (applied.pending.applyParentTransaction fetched.1 transaction resolver).1)[txid]? =
        some cached := hGet
    rw [BTreeMap.getElem?_insert_eq] at hInserted
    split at hInserted
    · next hEq =>
      refine ⟨fetched.1, transaction, hFollows, hRow, hEq ▸ hTxid, ?_⟩
      rw [← Option.some.inj hInserted, PendingSlice.applyParentTransaction, hTxid]
    · exact hAdvance.outputs txid cached hInserted
  · exact ⟨hPending, hAdvance⟩

/-- Applying parents is sound. -/
theorem applyParents_sound {state : PipelineState} {resolver : ResolverLimits} {working : Working}
    {generation : ClassificationGeneration}
    (hGet : state.generations[working.generation]? = some generation)
    (h : WorkingSound history generation.membership working) (parentWave : List ExpectedVariant)
    {fetched : ConcurrentFetch ExpectedVariant Transaction}
    (hFetched : ∀ value ∈ fetched.values,
      ParentRow generation.membership value.1 ∧ RawFollows history value.1 value.2) :
    CallSound history state (applyParents resolver working parentWave fetched) := by
  have hApplied : PendingSound history working.generation generation.membership
        (fetched.values.foldl (applyParentValue resolver)
          { pending := working.pending, advance := working.advance, resolved := ∅ }).pending ∧
      AdvanceSound history working.generation generation.membership
        (fetched.values.foldl (applyParentValue resolver)
          { pending := working.pending, advance := working.advance, resolved := ∅ }).advance := by
    refine List.foldlRecOn (motive := fun applied : ParentsApplied =>
      PendingSound history working.generation generation.membership applied.pending ∧
        AdvanceSound history working.generation generation.membership applied.advance) _ _
      ⟨h.pending, h.advance⟩ ?_
    intro applied hBoth value hMem
    obtain ⟨hRow, hFollows⟩ := hFetched value hMem
    exact applyParentValue_sound hBoth.1 hBoth.2 hRow.row hFollows
  refine ⟨generation, hGet, hApplied.2, ?_⟩
  simp only
  split
  · exact hApplied.1
  · refine List.foldlRecOn (motive := PendingSound history working.generation generation.membership)
      _ _ hApplied.1 ?_
    intro pending hPending txid _
    exact hPending.moved (PendingSlice.fallBackParentToGettxout_moved pending txid)

/-- Asking for confirmed prevouts is sound. -/
theorem askConfirmed_sound {state : PipelineState} {working : Working}
    (h : WorkingFor history state working) (limits : ClassificationLimits)
    (resolver : ResolverLimits) (factWavesPaused : Bool) :
    CallSound history state (askConfirmed limits resolver working factWavesPaused).1 := by
  obtain ⟨generation, hGet, hWorking⟩ := h
  have hWave := hWorking.pending.moved
    (PendingSlice.nextConfirmedWave_moved working.pending resolver)
  simp only [askConfirmed]
  split
  · split
    · exact ⟨generation, hGet, hWorking⟩
    · next hSome => exact absurd rfl hSome
  · split
    · exact ⟨generation, hGet, hWorking.advance, hWave⟩
    · exact ⟨⟨generation, hGet, hWorking.advance.congr rfl rfl rfl, hWave⟩,
        .start (fun _ _ => trivial) _⟩

/-- One answered prevout: a script is kept, an absence is the node's own. -/
theorem applyConfirmed_sound {resolver : ResolverLimits} {working : Working}
    (h : WorkingSound history membership working) {fetched : OutPoint × RpcValue Script}
    (hFollows : ConfirmedFollows history working.generation fetched.1 fetched.2) :
    WorkingSound history membership (applyConfirmed resolver working fetched) := by
  refine ⟨⟨h.advance.outputs, fun outpoint script hGet => ?_, h.advance.classifications⟩,
    h.pending.moved (PendingSlice.applyConfirmedValue_moved _ _ (fun script hFound => ?_)
      fun hNull _ _ => ?_)⟩
  · cases hValue : fetched.2 with
    | found found =>
      rw [hValue] at hFollows
      simp only [applyConfirmed, hValue, PendingSlice.applyConfirmedValue,
        BTreeMap.getElem?_insert_eq] at hGet
      split at hGet
      · next hEq =>
        rw [← hEq, ← Option.some.inj hGet]
        exact hFollows
      · exact h.advance.confirmedScripts outpoint script hGet
    | explicitNull =>
      refine h.advance.confirmedScripts outpoint script ?_
      have hScript : (working.pending.applyConfirmedValue fetched.1 .explicitNull
          resolver).script = none := by
        unfold PendingSlice.applyConfirmedValue
        dsimp only
        split <;> rfl
      simp only [applyConfirmed, hValue, hScript] at hGet
      exact hGet
    | retryableFailure =>
      refine h.advance.confirmedScripts outpoint script ?_
      simpa only [applyConfirmed, hValue, PendingSlice.applyConfirmedValue] using hGet
    | systemicFailure =>
      refine h.advance.confirmedScripts outpoint script ?_
      simpa only [applyConfirmed, hValue, PendingSlice.applyConfirmedValue] using hGet
  · rw [hFound] at hFollows
    exact Or.inr hFollows
  · rw [hNull] at hFollows
    exact hFollows

/-- Settling is sound. -/
theorem settle_sound {state : PipelineState} {working : Working}
    (h : WorkingFor history state working) (resolver : ResolverLimits) :
    CallSound history state (settle resolver working).1 := by
  obtain ⟨generation, hGet, hWorking⟩ := h
  have hBlocked : PendingSound history working.generation generation.membership
      (if working.pending.hasPendingScriptCapacity resolver then (false, working.pending)
        else working.pending.deferOneCapacityBlockedFact).2 := by
    split
    · exact hWorking.pending
    · exact hWorking.pending.moved (PendingSlice.deferOneCapacityBlockedFact_moved _)
  exact ⟨generation, hGet, hWorking.advance.congr rfl rfl rfl, hBlocked.deferExhausted⟩

/-- The scripts a slice fetched itself are given. -/
theorem transientScript_given {advance : ClassificationAdvance}
    (h : AdvanceSound history generation membership advance) {outpoint : OutPoint}
    {source : FactSource} {script : Script}
    (hScript : PendingSlice.transientScript advance.outputs advance.confirmedScripts outpoint
      source = some script) : Given history membership outpoint script := by
  cases source with
  | currentParent =>
    obtain ⟨cached, hGet, hOutput⟩ := Option.bind_eq_some_iff.mp hScript
    exact Or.inl ((h.outputs outpoint.txid cached hGet).fromMember hOutput)
  | confirmed => exact Or.inr (h.confirmedScripts outpoint script hScript)
  | parentFallback => exact Or.inr (h.confirmedScripts outpoint script hScript)

theorem WorkingSound.absorbed {working : Working} (h : WorkingSound history membership working)
    (resolver : ResolverLimits) : WorkingSound history membership { working with
      pending := (working.pending.hydrateFromTransient working.advance.outputs
        working.advance.confirmedScripts resolver).pending
      advance := working.advance.addAbsorbed (working.pending.hydrateFromTransient
        working.advance.outputs working.advance.confirmedScripts resolver) } :=
  ⟨h.advance.congr rfl rfl rfl, h.pending.moved
    (PendingSlice.hydrateFromTransient_moved _ _ fun _ _ _ => transientScript_given h.advance)⟩

/-- Recovering is sound. -/
theorem recover_sound {state : PipelineState} {working : Working}
    (h : WorkingFor history state working) (resolver : ResolverLimits) (deferredOnce : Bool) :
    CallSound history state (recover resolver working deferredOnce).1 := by
  obtain ⟨generation, hGet, hWorking⟩ := h
  simp only [recover]
  rcases (hWorking.absorbed resolver).classifyReady _ with ⟨panic, hPanic⟩ | ⟨working', hSame, hSound, hNext⟩
  · rw [hPanic]
    trivial
  · rw [hNext]
    have hFor : WorkingFor history state working' := ⟨generation, hSame ▸ hGet, hSound⟩
    split <;> exact hFor

theorem finishFacts_sound {state : PipelineState} {working : Working}
    {generation : ClassificationGeneration}
    (hGet : state.generations[working.generation]? = some generation)
    (hVariants : currentVariants generation.membership = .ok generation.variants)
    (h : WorkingSound history generation.membership working) (resolver : ResolverLimits) :
    CallSound history state (finishFacts resolver generation.variants working) := by
  have hActivated := h.pending.activateWaiting hVariants resolver
  refine ⟨generation, hGet, h.advance, fun remaining hSome => ?_⟩
  split at hSome
  · cases hSome
  · rw [← Option.some.inj hSome]
    exact hActivated

/-- Relieving is sound. -/
theorem relieve_sound {state : PipelineState} {working : Working}
    {generation : ClassificationGeneration}
    (hGet : state.generations[working.generation]? = some generation)
    (hVariants : currentVariants generation.membership = .ok generation.variants)
    (h : WorkingSound history generation.membership working) (resolver : ResolverLimits)
    (deferredOnce : Bool) :
    CallSound history state (relieve resolver generation.variants working deferredOnce) := by
  simp only [relieve]
  split
  · exact finishFacts_sound hGet hVariants h resolver
  · split
    · have hDeferred : WorkingSound history generation.membership { working with
          pending := working.pending.deferCapacityBlockedCandidate.2 } :=
        ⟨h.advance, h.pending.deferBlocked⟩
      refine finishFacts_sound ?_ hVariants hDeferred resolver
      exact hGet
    · exact ⟨generation, hGet, h.advance.congr rfl rfl rfl, h.pending.deferBlocked⟩

-- ---------------------------------------------------------------------------
-- The shared state
-- ---------------------------------------------------------------------------

variable {limits : ClassificationLimits} {state state' : PipelineState}

/-- Filing a sound generation again. -/
theorem PipelineSound.setGeneration (h : PipelineSound limits history state)
    {generation : ClassificationGeneration} (hSound : GenerationSound history generation)
    (hBudget : CacheBudget limits (state.setGeneration generation)) :
    PipelineSound limits history (state.setGeneration generation) where
  toCacheBudget := hBudget
  confirmed := h.confirmed
  generations id found hGet := by
    rw [setGeneration_get] at hGet
    split at hGet
    · rw [← Option.some.inj hGet]
      exact hSound
    · exact h.generations id found hGet

/-- A generation whose work holds no more than it did. -/
theorem GenerationSound.setWork {generation : ClassificationGeneration}
    (h : GenerationSound history generation) {work : ClassificationWork}
    (hOutputs : work.outputs = generation.work.outputs)
    (hClassifications : work.classifications = generation.work.classifications)
    (hPending : ∀ pending, work.pending = some pending → generation.work.pending = some pending) :
    GenerationSound history (generation.setWork work) where
  installed := h.installed
  variants := h.variants
  outputs := fun txid cached hGet => h.outputs txid cached (hOutputs ▸ hGet)
  classifications wtxid cached hGet := h.classifications wtxid cached (hClassifications ▸ hGet)
  pending pending hSome := h.pending pending (hPending pending hSome)

/-- Every record an installation carries was evaluated, every output was seen. -/
theorem carry_sound (h : PipelineSound limits history state) (membership : MempoolSnapshot) :
    (∀ (wtxid : String) cached,
      (carry (currentWork state) membership).cached[wtxid]? = some cached →
        EverEvaluated history cached) ∧
    ∀ entry ∈ (carry (currentWork state) membership).outputs,
      OutputsSeen history entry.1 entry.2 := by
  cases hWork : currentWork state with
  | none =>
    refine ⟨fun wtxid cached hGet => ?_, fun entry hMem => absurd hMem List.not_mem_nil⟩
    simp [carry] at hGet
  | some previous =>
    obtain ⟨generation, hCurrent, rfl⟩ := Option.map_eq_some_iff.mp hWork
    obtain ⟨id, -, hGet⟩ := Option.bind_eq_some_iff.mp hCurrent
    have hGeneration := h.generations id generation hGet
    have hFrom := carry_from generation.work membership
    exact ⟨fun wtxid cached hGet => hGeneration.classifications wtxid cached
      (hFrom.cached wtxid cached hGet),
      fun entry hMem => hGeneration.outputs entry.1 entry.2 (hFrom.outputs entry hMem)⟩

/-- An installation is sound. -/
theorem installGeneration_sound (h : PipelineSound limits history state)
    {membership : MempoolSnapshot} {variants : BTreeMap Txid CurrentVariant} {id : Nat}
    (hVariants : currentVariants membership = .ok variants)
    (hInstalled : .installed (installGeneration limits state membership variants id).2 ∈ history)
    (hBudget : CacheBudget limits (installGeneration limits state membership variants id).1) :
    PipelineSound limits history (installGeneration limits state membership variants id).1 := by
  obtain ⟨hCached, hOutputs⟩ := carry_sound h membership
  have hCaches := SoundCaches.installCaches h.accounted h.maximum_eq h.confirmed hOutputs
  refine ⟨hBudget, hCaches.confirmed, fun other found hFound => ?_⟩
  simp only [installGeneration, BTreeMap.getElem?_insert_eq] at hFound
  split at hFound
  · rw [← Option.some.inj hFound]
    exact ⟨⟨_, hInstalled, rfl, rfl⟩, hVariants, hCaches.outputs, hCached,
      fun pending hNone => by cases hNone⟩
  · exact h.generations other found hFound

omit [BitcoinCrate] [WireJson] in
/-- The records of a merged slice join those of its generation. -/
theorem mergeWork_classifications (work : ClassificationWork) (advance : ClassificationAdvance)
    (caches : AuxiliaryCaches) {wtxid : String} {cached : CachedClassification}
    (h : (mergeWork work advance caches).classifications[wtxid]? = some cached) :
    cached ∈ advance.classifications ∨ work.classifications[wtxid]? = some cached := by
  have hFold : ∀ (classified : List CachedClassification)
      (start : BTreeMap String CachedClassification),
      (classified.foldl (fun classifications cached =>
        classifications.insert cached.classification.wtxid cached) start)[wtxid]? = some cached →
      cached ∈ classified ∨ start[wtxid]? = some cached := by
    intro classified
    induction classified with
    | nil => exact fun start hGet => Or.inr hGet
    | cons first rest ih =>
      intro start hGet
      rcases ih _ hGet with hMem | hStart
      · exact Or.inl (List.mem_cons_of_mem first hMem)
      · rw [BTreeMap.getElem?_insert_eq] at hStart
        split at hStart
        · rw [← Option.some.inj hStart]
          exact Or.inl List.mem_cons_self
        · exact Or.inr hStart
  exact hFold advance.classifications work.classifications h

/-- **Merging keeps the shared state sound.** -/
theorem merged_sound (h : PipelineSound limits history state) {id : Nat}
    {generation : ClassificationGeneration} (hGet : state.generations[id]? = some generation)
    (hCurrent : state.current = some generation.id) {resolver : ResolverLimits}
    {advance : ClassificationAdvance} {pending : Option PendingSlice} {call : Call}
    {event : Option Event}
    (hAdvance : AdvanceSound history generation.id generation.membership advance)
    (hPending : ∀ remaining, pending = some remaining →
      PendingSound history generation.id generation.membership remaining)
    (hMerged : Merged limits resolver state generation advance pending (state', call, event))
    (hBudget : CacheBudget limits state') : PipelineSound limits history state' := by
  have hGeneration := h.generations id generation hGet
  have hId : state.generations[generation.id]? = some generation := by
    rw [h.id_eq id generation hGet]
    exact hGet
  have hBefore : SoundCaches history limits.maxAuxiliaryCacheBytes
      (generationCaches state generation) :=
    ⟨h.balanced generation.id generation hCurrent hId, hGeneration.outputs, h.confirmed⟩
  have hCaches : SoundCaches history limits.maxAuxiliaryCacheBytes
      (mergedCaches limits state generation advance) :=
    hBefore.mergeCaches (fun txid cached hSeen => (hAdvance.outputs txid cached hSeen).seen)
      hAdvance.confirmedScripts
  -- whatever revision and slice the merge stores
  have hStored : ∀ (revision : Nat) (stored : Option PendingSlice),
      (∀ remaining, stored = some remaining →
        PendingSound history generation.id generation.membership remaining) →
      GenerationSound history (mergedGeneration limits state generation advance revision stored) := by
    intro revision stored hSlice
    refine ⟨hGeneration.installed, hGeneration.variants, hCaches.outputs, fun wtxid cached hFound => ?_,
      hSlice⟩
    rcases mergeWork_classifications generation.work advance
      (mergedCaches limits state generation advance) hFound with hNew | hOld
    · exact ⟨generation.id, generation.membership, hGeneration.installed,
        hAdvance.classifications cached hNew⟩
    · exact hGeneration.classifications wtxid cached hOld
  -- whatever confirmed cache it leaves
  have hFiled : ∀ (confirmedCache : ConfirmedScriptCache) (generation' : ClassificationGeneration),
      ConfirmedSound history confirmedCache → GenerationSound history generation' →
      CacheBudget limits ({ state with confirmedCache }.setGeneration generation') →
      PipelineSound limits history ({ state with confirmedCache }.setGeneration generation') := by
    intro confirmedCache generation' hConfirmed hNew hKept
    refine ⟨hKept, hConfirmed, fun other found hFound => ?_⟩
    rw [setGeneration_get] at hFound
    split at hFound
    · rw [← Option.some.inj hFound]
      exact hNew
    · exact h.generations other found hFound
  cases hMerged with
  | overflowed =>
    exact hFiled _ _ hCaches.confirmed (hStored _ _ hGeneration.pending) hBudget
  | panicked =>
    exact hFiled _ _ hCaches.confirmed (hStored _ _ hGeneration.pending) hBudget
  | reported stored _ hRehydrated =>
    cases hRehydrated with
    | finished =>
      exact hFiled _ _ hCaches.confirmed (hStored _ _ hGeneration.pending) hBudget
    | stored hHydrate =>
      obtain ⟨hSlice, hConfirmed⟩ := (hPending _ rfl).hydrateFromCaches hGeneration.variants
        hCaches.outputs hCaches.accounted hCaches.confirmed hHydrate
      refine hFiled _ _ hConfirmed (hStored _ _ fun remaining hSome => ?_) hBudget
      rw [Option.some_or, Option.some.injEq] at hSome
      rw [← hSome]
      exact hSlice

-- ---------------------------------------------------------------------------
-- Actions
-- ---------------------------------------------------------------------------

theorem rawFetchStep_sound {id : Nat} {completion : Completion}
    {tasks : FetchTasks ExpectedVariant Transaction}
    {again : FetchTasks ExpectedVariant Transaction → Call} {done call' : Call}
    {event : Option Event} {asked : ExpectedVariant → Prop}
    (hStep : rawFetchStep state id completion tasks again done = some (state', call', event))
    (hEvent : ∀ e, event = some e → e ∈ history)
    (hTasks : TasksSound asked (RawFollows history) tasks) :
    state' = state ∧ (call' = done ∨
      ∃ tasks', call' = again tasks' ∧ TasksSound asked (RawFollows history) tasks') := by
  unfold rawFetchStep at hStep
  split at hStep
  · obtain ⟨rfl, hRest⟩ := Prod.mk.inj (Option.some.inj hStep)
    exact ⟨rfl, Or.inl (Prod.mk.inj hRest).1.symm⟩
  · obtain ⟨⟨tasks', answered⟩, hFetch, hEq⟩ := Option.map_eq_some_iff.mp hStep
    obtain ⟨rfl, hRest⟩ := Prod.mk.inj hEq
    obtain ⟨rfl, rfl⟩ := Prod.mk.inj hRest
    refine ⟨rfl, Or.inr ⟨tasks', rfl, hTasks.fetchStep nextRawTransactionBatch_cuts hFetch
      (fun _ => trivial) fun batch answer values hAnswered hValues => ?_⟩⟩
    have hRecorded : .answered id (.rawTransactions batch answer) ∈ history :=
      hEvent _ (by rw [hAnswered, Option.map_some])
    exact fetchRawTransactions_follows hValues hRecorded

theorem confirmedFetchStep_sound {id : Nat} {completion : Completion}
    {tasks : FetchTasks OutPoint Script} {again : FetchTasks OutPoint Script → Call}
    {done call' : Call} {event : Option Event} {asked : OutPoint → Prop}
    (hStep : confirmedFetchStep state id completion tasks again done = some (state', call', event))
    (hEvent : ∀ e, event = some e → e ∈ history)
    (hTasks : TasksSound asked (ConfirmedFollows history id) tasks) :
    state' = state ∧ (call' = done ∨
      ∃ tasks', call' = again tasks' ∧ TasksSound asked (ConfirmedFollows history id) tasks') := by
  unfold confirmedFetchStep at hStep
  split at hStep
  · obtain ⟨rfl, hRest⟩ := Prod.mk.inj (Option.some.inj hStep)
    exact ⟨rfl, Or.inl (Prod.mk.inj hRest).1.symm⟩
  · obtain ⟨⟨tasks', answered⟩, hFetch, hEq⟩ := Option.map_eq_some_iff.mp hStep
    obtain ⟨rfl, hRest⟩ := Prod.mk.inj hEq
    obtain ⟨rfl, rfl⟩ := Prod.mk.inj hRest
    refine ⟨rfl, Or.inr ⟨tasks', rfl, hTasks.fetchStep nextConfirmedPrevoutBatch_cuts hFetch
      (fun _ => trivial) fun batch answer values hAnswered hValues => ?_⟩⟩
    exact fetchConfirmedPrevouts_follows hValues
      (hEvent _ (by rw [hAnswered, Option.map_some]))

/-- A slice hydrated from the caches, with the cache its reads leave. -/
theorem hydrate_sound (h : PipelineSound limits history state) {working : Working}
    {generation : ClassificationGeneration} {resolver : ResolverLimits} {next : Working → Call}
    {call' : Call} {event : Option Event}
    (hGet : state.generations[working.generation]? = some generation)
    (hWorking : WorkingSound history generation.membership working)
    (hStep : hydrate resolver state generation working next = (state', call', event))
    (hNext : ∀ working', WorkingFor history state working' → CallSound history state (next working')) :
    ConfirmedSound history state'.confirmedCache ∧ state'.generations = state.generations ∧
      CallSound history state call' := by
  unfold hydrate at hStep
  split at hStep
  · obtain ⟨rfl, hRest⟩ := Prod.mk.inj hStep
    obtain ⟨rfl, -⟩ := Prod.mk.inj hRest
    exact ⟨h.confirmed, rfl, trivial⟩
  · split at hStep
    · obtain ⟨rfl, hRest⟩ := Prod.mk.inj hStep
      obtain ⟨rfl, -⟩ := Prod.mk.inj hRest
      exact ⟨h.confirmed, rfl, trivial⟩
    · next absorbed confirmedCache hHydrate =>
      obtain ⟨rfl, hRest⟩ := Prod.mk.inj hStep
      obtain ⟨rfl, -⟩ := Prod.mk.inj hRest
      have hGeneration := h.generations _ generation hGet
      obtain ⟨hPending, hConfirmed⟩ := hWorking.pending.hydrateFromCaches hGeneration.variants
        hGeneration.outputs h.accounted h.confirmed hHydrate
      exact ⟨hConfirmed, rfl, hNext _ ⟨generation, hGet, hWorking.advance.congr rfl rfl rfl,
        hPending⟩⟩

omit [WireJson] in
omit [BitcoinCrate] in
/-- What a slice selects is a row without a settled record. -/
theorem selected_isCandidate (limits : ClassificationLimits) (generation : ClassificationGeneration)
    {expected : ExpectedVariant}
    (h : expected ∈ boundedVariants
      ((eligibleEntries generation.membership generation.work).map expectedVariant)
      limits.maxTransactionsPerSlice) : IsCandidate generation.membership expected := by
  rw [boundedVariants_eq] at h
  obtain ⟨entry, hMem, rfl⟩ := List.mem_map.mp (List.mem_of_mem_take h)
  refine ⟨entry, ?_, rfl⟩
  rcases List.mem_append.mp hMem with hFirst | hRetry
  · exact List.mem_of_mem_filter (List.mem_of_mem_filter hFirst)
  · exact List.mem_of_mem_filter (List.mem_of_mem_filter hRetry)

/-- Admitting transactions is sound. -/
theorem admit_sound {generation : ClassificationGeneration} {id : Nat}
    (hGet : state.generations[id]? = some generation) (hId : generation.id = id)
    (hVariants : currentVariants generation.membership = .ok generation.variants)
    {advance : ClassificationAdvance}
    (hAdvance : AdvanceSound history id generation.membership advance)
    {values : List (ExpectedVariant × RpcValue Transaction)}
    (hValues : ∀ value ∈ values,
      IsCandidate generation.membership value.1 ∧ RawFollows history value.1 value.2)
    (resolver : ResolverLimits) :
    CallSound history state
      (admitTransactions resolver state generation advance values).2.1 := by
  have hFrom : ∀ admitted ∈ foundTransactions values,
      CandidateFrom history generation.membership admitted.1 admitted.2 := by
    intro admitted hMem
    obtain ⟨⟨expected, value⟩, hValue, hFound⟩ := List.mem_filterMap.mp hMem
    obtain ⟨hEntry, hFollows⟩ := hValues _ hValue
    cases value with
    | found transaction =>
      obtain rfl := Option.some.inj hFound
      exact ⟨hFollows, hEntry⟩
    | explicitNull => cases hFound
    | retryableFailure => cases hFound
    | systemicFailure => cases hFound
  have hPending : PendingSound history id generation.membership
      (PendingSlice.new (foundTransactions values) generation.variants resolver) :=
    pendingSound_new hVariants hFrom resolver
  simp only [admitTransactions]
  split
  · exact ⟨generation, hId ▸ hGet, hId ▸ hAdvance, fun remaining hNone => by cases hNone⟩
  · refine ⟨generation, hId ▸ hGet, ⟨fun txid cached hFound => ?_, hAdvance.confirmedScripts,
      hId ▸ hAdvance.classifications⟩, hId ▸ hPending⟩
    rcases BTreeMap.of_getElem?_foldl_insert hFound with hNew | hOld
    · exact hPending.raw txid cached (BTreeMap.mem_toList.mp hNew)
    · exact hAdvance.outputs txid cached hOld

/-- Whatever a retryable answer gives back, the results of the work stay. -/
theorem GenerationSound.readmitted {generation : ClassificationGeneration}
    (h : GenerationSound history generation) (wtxids : List String) :
    GenerationSound history (generation.setWork (wtxids.foldl readmit generation.work)) := by
  have hSame := foldl_readmit_sameResults generation wtxids generation.work (.refl generation)
  refine h.setWork hSame.outputs hSame.classifications fun pending hPending => ?_
  have hKept : (wtxids.foldl readmit generation.work).pending = generation.work.pending := by
    refine List.foldlRecOn (motive := fun work : ClassificationWork =>
      work.pending = generation.work.pending) _ _ rfl ?_
    intro work hWork wtxid _
    unfold readmit
    split
    · exact hWork
    · exact hWork
  exact hKept ▸ hPending

/-- A cache that was only read leaves the state sound. -/
theorem PipelineSound.read (h : PipelineSound limits history state)
    (hConfirmed : ConfirmedSound history state'.confirmedCache)
    (hSame : state'.generations = state.generations) (hBudget : CacheBudget limits state') :
    PipelineSound limits history state' :=
  ⟨hBudget, hConfirmed, fun id generation hGet => h.generations id generation (hSame ▸ hGet)⟩

/-- **One action keeps everything sound**: the shared state, and what the call that
takes it carries. -/
theorem callStep_sound {completion : Completion} {call call' : Call} {event : Option Event}
    (h : PipelineSound limits history state) (hCall : CallSound history state call)
    (hStep : callStep limits completion state call = some (state', call', event))
    (hEvent : ∀ e, event = some e → e ∈ history) :
    PipelineSound limits history state' ∧ CallSound history state' call' := by
  have hEffect := callStep_effect hStep
  have hBudget := h.toCacheBudget.effect hEffect
  suffices hBoth : PipelineSound limits history state' ∧ CallSound history state call' from
    ⟨hBoth.1, hBoth.2.mono (List.Subset.refl _) (hEffect.keeps h.toFiled)⟩
  cases call with
  | installSnapshot membership =>
    have hEq := Option.some.inj hStep
    unfold installSnapshot at hEq
    split at hEq
    · cases hEq
      exact ⟨h, trivial⟩
    · next variants hVariants =>
      split at hEq
      · cases hEq
        exact ⟨h, trivial⟩
      · cases hEq
        exact ⟨installGeneration_sound h hVariants (hEvent _ rfl) hBudget, trivial⟩
  | installed result => cases hStep
  | classifyNextForGeneration expected =>
    cases Option.some.inj hStep
    refine ⟨h, ?_⟩
    unfold beginSlice
    split
    · trivial
    · split <;> trivial
  | awaitingDriver id =>
    obtain ⟨generation, hGet, hStep⟩ := Option.bind_eq_some_iff.mp hStep
    split at hStep
    · cases hStep
    · cases Option.some.inj hStep
      have hGeneration := h.generations id generation hGet
      exact ⟨h.setGeneration ⟨hGeneration.installed, hGeneration.variants, hGeneration.outputs,
        hGeneration.classifications, hGeneration.pending⟩ hBudget, trivial⟩
  | holdingDriver id =>
    cases Option.some.inj hStep
    refine ⟨h, ?_⟩
    split <;> trivial
  | takingPending id =>
    obtain ⟨generation, hGet, hStep⟩ := Option.bind_eq_some_iff.mp hStep
    have hGeneration := h.generations id generation hGet
    have hId : state.generations[generation.id]? = some generation := by
      rw [h.id_eq id generation hGet]
      exact hGet
    have hTaken : GenerationSound history
        (generation.setWork { generation.work with pending := none }) :=
      hGeneration.setWork rfl rfl fun pending hNone => by cases hNone
    have hEq := Option.some.inj hStep
    unfold takePending at hEq
    split at hEq
    · cases hEq
      exact ⟨h, trivial⟩
    · split at hEq
      · cases hEq
        exact ⟨h.setGeneration hTaken hBudget, trivial⟩
      · next pending hPending =>
        cases hEq
        exact ⟨h.setGeneration hTaken hBudget, generation, hId, advanceSound_start _ _ 0,
          hGeneration.pending pending hPending⟩
  | selecting id =>
    obtain ⟨generation, hGet, hStep⟩ := Option.bind_eq_some_iff.mp hStep
    have hGeneration := h.generations id generation hGet
    have hId : state.generations[generation.id]? = some generation := by
      rw [h.id_eq id generation hGet]
      exact hGet
    have hEq := Option.some.inj hStep
    simp only [selectCandidates] at hEq
    split at hEq
    · cases hEq
      exact ⟨h.setGeneration (hGeneration.setWork rfl rfl fun _ hSome => hSome) hBudget, generation, hId,
        advanceSound_start _ _ _, fun remaining hNone => by cases hNone⟩
    · cases hEq
      exact ⟨h.setGeneration (hGeneration.setWork rfl rfl fun _ hSome => hSome) hBudget, generation, hId,
        advanceSound_start _ _ _, .start (fun _ => selected_isCandidate limits generation) _⟩
  | fetchingRaw id advance tasks =>
    obtain ⟨generation, hGet, hAdvance, hTasks⟩ := hCall
    obtain ⟨rfl, hDone | ⟨tasks', hAgain, hTasks'⟩⟩ := rawFetchStep_sound hStep hEvent hTasks
    · refine ⟨h, ?_⟩
      rw [hDone]
      split
      · exact ⟨generation, hGet, hAdvance.congr rfl rfl rfl, hTasks.values⟩
      · trivial
    · rw [hAgain]
      exact ⟨h, generation, hGet, hAdvance, hTasks'⟩
  | admitting id advance values =>
    obtain ⟨found, hFound, hAdvance, hValues⟩ := hCall
    obtain ⟨generation, hGet, hStep⟩ := Option.bind_eq_some_iff.mp hStep
    obtain rfl : found = generation := Option.some.inj (hFound.symm.trans hGet)
    have hGeneration := h.generations id found hGet
    have hNext := admit_sound hGet (h.id_eq id found hGet) hGeneration.variants hAdvance hValues
      (.production limits.maxAuxiliaryCacheBytes)
    rw [Option.some.inj hStep] at hNext
    refine ⟨?_, hNext⟩
    have hEq := Option.some.inj hStep
    simp only [admitTransactions] at hEq
    split at hEq
    · cases hEq
      exact h.setGeneration (hGeneration.readmitted _) hBudget
    · cases hEq
      exact h.setGeneration (hGeneration.readmitted _) hBudget
  | hydrating working =>
    obtain ⟨generation, hGet, hStep⟩ := Option.bind_eq_some_iff.mp hStep
    obtain ⟨hConfirmed, hSame, hNext⟩ := hydrate_sound h hGet (WorkingFor.at hCall hGet)
      (Option.some.inj hStep) fun working' hWorking => hWorking
    exact ⟨h.read hConfirmed hSame hBudget, hNext⟩
  | hydrated working =>
    obtain ⟨generation, hGet, hStep⟩ := Option.bind_eq_some_iff.mp hStep
    have hWorking : WorkingSound history generation.membership working := WorkingFor.at hCall hGet
    have hVariants := (h.generations _ generation hGet).variants
    have hEq := Option.some.inj hStep
    rcases hWorking.classifyReady (askParents limits (.production limits.maxAuxiliaryCacheBytes)
      generation.variants) with ⟨panic, hPanic⟩ | ⟨working', hSame, hSound, hNext⟩
    · rw [hPanic] at hEq
      cases hEq
      exact ⟨h, trivial⟩
    · have hAsked := askParents_sound (hSame ▸ hGet) hVariants hSound limits
        (.production limits.maxAuxiliaryCacheBytes)
      obtain ⟨rfl, hRest⟩ := Prod.mk.inj (hNext ▸ hEq)
      rw [hRest] at hAsked
      exact ⟨h, hAsked⟩
  | fetchingParents working parentWave tasks =>
    obtain ⟨generation, hGet, hWorking, hTasks⟩ := hCall
    obtain ⟨rfl, hDone | ⟨tasks', hAgain, hTasks'⟩⟩ := rawFetchStep_sound hStep hEvent hTasks
    · refine ⟨h, ?_⟩
      rw [hDone]
      split
      · have hAdvanced : WorkingSound history generation.membership { working with
            advance := working.advance.addFetch tasks.fetched } :=
          ⟨hWorking.advance.congr rfl rfl rfl, hWorking.pending⟩
        refine applyParents_sound ?_ hAdvanced parentWave hTasks.values
        exact hGet
      · trivial
    · rw [hAgain]
      exact ⟨h, generation, hGet, hWorking, hTasks'⟩
  | askingConfirmed working factWavesPaused =>
    have hNext := askConfirmed_sound hCall limits (.production limits.maxAuxiliaryCacheBytes)
      factWavesPaused
    obtain ⟨rfl, hRest⟩ := Prod.mk.inj (Option.some.inj hStep)
    rw [hRest] at hNext
    exact ⟨h, hNext⟩
  | fetchingConfirmed working tasks =>
    obtain ⟨⟨generation, hGet, hWorking⟩, hTasks⟩ := hCall
    obtain ⟨rfl, hDone | ⟨tasks', hAgain, hTasks'⟩⟩ := confirmedFetchStep_sound hStep hEvent hTasks
    · refine ⟨h, ?_⟩
      rw [hDone]
      split
      · have hApplied : (tasks.fetched.values.foldl
              (applyConfirmed (.production limits.maxAuxiliaryCacheBytes))
              { working with advance := working.advance.addFetch tasks.fetched }).generation =
              working.generation ∧
            WorkingSound history generation.membership (tasks.fetched.values.foldl
              (applyConfirmed (.production limits.maxAuxiliaryCacheBytes))
              { working with advance := working.advance.addFetch tasks.fetched }) := by
          refine List.foldlRecOn (motive := fun applied : Working =>
            applied.generation = working.generation ∧
              WorkingSound history generation.membership applied) _ _
            ⟨rfl, hWorking.advance.congr rfl rfl rfl, hWorking.pending⟩ ?_
          intro applied hApplied value hMem
          refine ⟨hApplied.1, applyConfirmed_sound hApplied.2 ?_⟩
          rw [hApplied.1]
          exact (hTasks.values value hMem).2
        refine ⟨generation, ?_, hApplied.2⟩
        rw [hApplied.1]
        exact hGet
      · trivial
    · rw [hAgain]
      exact ⟨h, ⟨generation, hGet, hWorking⟩, hTasks'⟩
  | settling working =>
    obtain ⟨generation, hGet, hWorking⟩ := hCall
    have hEq := Option.some.inj hStep
    rcases hWorking.classifyReady (settle (.production limits.maxAuxiliaryCacheBytes)) with
      ⟨panic, hPanic⟩ | ⟨working', hSame, hSound, hNext⟩
    · rw [hPanic] at hEq
      cases hEq
      exact ⟨h, trivial⟩
    · rw [hNext] at hEq
      cases hEq
      exact ⟨h, settle_sound ⟨generation, hSame ▸ hGet, hSound⟩ _⟩
  | recovering working deferredOnce =>
    cases Option.some.inj hStep
    refine ⟨h, ?_⟩
    split
    · exact hCall
    · trivial
  | rehydrating working deferredOnce =>
    obtain ⟨generation, hGet, hStep⟩ := Option.bind_eq_some_iff.mp hStep
    obtain ⟨hConfirmed, hSame, hNext⟩ := hydrate_sound h hGet (WorkingFor.at hCall hGet)
      (Option.some.inj hStep) fun working' hWorking => hWorking
    exact ⟨h.read hConfirmed hSame hBudget, hNext⟩
  | rehydrated working deferredOnce =>
    have hNext := recover_sound hCall (.production limits.maxAuxiliaryCacheBytes) deferredOnce
    obtain ⟨rfl, hRest⟩ := Prod.mk.inj (Option.some.inj hStep)
    rw [hRest] at hNext
    exact ⟨h, hNext⟩
  | relieving working deferredOnce =>
    obtain ⟨generation, hGet, hStep⟩ := Option.bind_eq_some_iff.mp hStep
    have hNext := relieve_sound hGet (h.generations _ generation hGet).variants
      (WorkingFor.at hCall hGet) (.production limits.maxAuxiliaryCacheBytes) deferredOnce
    cases Option.some.inj hStep
    exact ⟨h, hNext⟩
  | merging id advance pending =>
    obtain ⟨found, hFound, hAdvance, hPending⟩ := hCall
    obtain ⟨generation, hGet, hMerge⟩ := Option.bind_eq_some_iff.mp hStep
    obtain rfl : found = generation := Option.some.inj (hFound.symm.trans hGet)
    obtain rfl := h.id_eq id found hGet
    have hEq := Option.some.inj hMerge
    cases hCurrent : state.isCurrent found.id with
    | false =>
      unfold merge at hEq
      rw [hCurrent] at hEq
      cases hEq
      exact ⟨h, trivial⟩
    | true =>
      have hMerged := merge_spec limits (.production limits.maxAuxiliaryCacheBytes) advance pending
        (isCurrent_iff.mp hCurrent)
      rw [hEq] at hMerged
      refine ⟨merged_sound h hGet (isCurrent_iff.mp hCurrent) hAdvance hPending hMerged hBudget, ?_⟩
      cases hMerged with
      | overflowed => trivial
      | panicked => trivial
      | reported => trivial
  | leaving id result =>
    obtain ⟨generation, hGet, hStep⟩ := Option.bind_eq_some_iff.mp hStep
    cases Option.some.inj hStep
    have hGeneration := h.generations id generation hGet
    exact ⟨h.setGeneration ⟨hGeneration.installed, hGeneration.variants, hGeneration.outputs,
      hGeneration.classifications, hGeneration.pending⟩ hBudget, trivial⟩
  | returned result => cases hStep

/-- **What a revision publishes was evaluated** for the membership of its generation. -/
theorem revised_sound {completion : Completion} {call call' : Call}
    {delta : ClassificationRevisionDelta} (h : PipelineSound limits history state)
    (hCall : CallSound history state call)
    (hStep : callStep limits completion state call = some (state', call', some (.revised delta))) :
    ∃ membership, Installed history delta.generation membership ∧
      ∀ record ∈ delta.changed, ∃ cached, cached.classification = record ∧
        WasEvaluated history delta.generation membership cached := by
  cases callStep_effect hStep with
  | idle hQuiet => exact hQuiet.elim
  | touched hQuiet => exact hQuiet.elim
  | @merged id generation advance pending _ _ _ hGet hCurrent hMerge =>
    obtain ⟨found, hFound, hAdvance, -⟩ := hCall
    obtain rfl : found = generation := Option.some.inj (hFound.symm.trans hGet)
    obtain rfl := h.id_eq id found hGet
    have hMerged := merge_spec limits (.production limits.maxAuxiliaryCacheBytes) advance pending
      hCurrent
    rw [hMerge] at hMerged
    generalize hAction : (state', _, some (Event.revised delta)) = action at hMerged
    cases hMerged with
    | overflowed => cases hAction
    | panicked => cases hAction
    | @reported revision stored confirmedCache advance' hRevision hStored =>
      have hSame : advance'.classifications = advance.classifications := by
        cases hStored with
        | finished => rfl
        | stored => rfl
      obtain ⟨-, hRest⟩ := Prod.mk.inj hAction
      obtain ⟨-, hEvent⟩ := Prod.mk.inj hRest
      obtain ⟨published, hPublished, hDelta⟩ := Option.map_eq_some_iff.mp hEvent.symm
      obtain rfl := Event.revised.inj hDelta
      simp only [mergedReport] at hPublished
      split at hPublished
      · cases hPublished
      · obtain rfl := Option.some.inj hPublished
        refine ⟨found.membership, (h.generations _ found hGet).installed, fun record hMem => ?_⟩
        obtain ⟨cached, hCached, rfl⟩ := List.mem_map.mp hMem
        exact ⟨cached, rfl, hAdvance.classifications cached (hSame ▸ hCached)⟩

-- ---------------------------------------------------------------------------
-- Runs
-- ---------------------------------------------------------------------------

/-- A new pipeline is sound. -/
theorem pipelineSound_new (limits : ClassificationLimits) :
    PipelineSound limits [] (PipelineState.new limits) where
  toCacheBudget := cacheBudget_new limits
  confirmed outpoint entry hEntry := by
    simp [PipelineState.new, ConfirmedScriptCache.new] at hEntry
  generations id generation hGet := by simp [PipelineState.new] at hGet

/-- The proof outline: nothing another call does takes an answer back, or gives a
generation another membership. -/
def soundness (ι : Type) (limits : ClassificationLimits) :
    Outline (system ι limits).recorded where
  inv s := PipelineSound limits s.2 s.1
  assertion _ s call := CallSound s.2 s.1 call
  guarantee _ s s' := s.2 ⊆ s'.2 ∧ Keeps s.1 s'.1
  starts := by
    rintro i s call - hStarts
    cases hStarts with
    | installSnapshot => trivial
    | classifyNextForGeneration => trivial
  step := by
    rintro i s call event s' call' hInv hCall ⟨⟨completion, hStep⟩, hHistory⟩
    have hSub : s.2 ⊆ s'.2 := by
      rw [hHistory]
      exact List.subset_append_left ..
    have hEvent : ∀ e, event = some e → e ∈ s'.2 := by
      rintro e rfl
      rw [hHistory]
      exact List.mem_append_right _ (List.mem_singleton_self e)
    have hKeeps := (callStep_effect hStep).keeps hInv.toFiled
    obtain ⟨hInv', hCall'⟩ := callStep_sound (hInv.mono hSub)
      (hCall.mono hSub (Keeps.refl _)) hStep hEvent
    exact ⟨hInv', ⟨hSub, hKeeps⟩, hCall'⟩
  stable := by
    rintro i j s s' call - - - ⟨hSub, hKeeps⟩ hCall
    exact hCall.mono hSub hKeeps

variable {ι : Type} [DecidableEq ι]

/-- What every reachable state satisfies. -/
theorem sound_run (limits : ClassificationLimits) {w : World ι PipelineState Call}
    {trace : List (ι × Option Event)}
    (hRun : (system ι limits).Run (Processes.initial (.new limits)) trace w) :
    PipelineSound limits (trace.filterMap Prod.snd) w.shared ∧
      ∀ i call, w.procs i = some call → CallSound (trace.filterMap Prod.snd) w.shared call :=
  (soundness ι limits).holds_run hRun.recorded
    ((soundness ι limits).holds_initial (pipelineSound_new limits))

/-- The slice a call works on, with its generation. -/
def Call.held : Call → Option (Nat × PendingSlice)
  | .hydrating working | .hydrated working | .askingConfirmed working _ | .settling working
  | .recovering working _ | .rehydrating working _ | .rehydrated working _
  | .relieving working _ | .fetchingParents working _ _ | .fetchingConfirmed working _ =>
    some (working.generation, working.pending)
  | .merging id _ pending => pending.map fun pending => (id, pending)
  | _ => none

/-- The slice a call holds is sound. -/
theorem held_sound {call : Call} (h : CallSound history state call) {id : Nat}
    {pending : PendingSlice} (hHeld : call.held = some (id, pending)) :
    ForGeneration state id fun membership => PendingSound history id membership pending := by
  have hWorks : ∀ {working : Working}, WorkingFor history state working →
      some (working.generation, working.pending) = some (id, pending) →
      ForGeneration state id fun membership => PendingSound history id membership pending := by
    rintro working ⟨generation, hGet, hWorking⟩ hEq
    obtain ⟨rfl, rfl⟩ := Prod.mk.inj (Option.some.inj hEq)
    exact ⟨generation, hGet, hWorking.pending⟩
  cases call with
  | hydrating working => exact hWorks h hHeld
  | hydrated working => exact hWorks h hHeld
  | askingConfirmed working _ => exact hWorks h hHeld
  | settling working => exact hWorks h hHeld
  | recovering working _ => exact hWorks h hHeld
  | rehydrating working _ => exact hWorks h hHeld
  | rehydrated working _ => exact hWorks h hHeld
  | relieving working _ => exact hWorks h hHeld
  | fetchingParents working _ _ =>
    obtain ⟨generation, hGet, hWorking, -⟩ := h
    exact hWorks ⟨generation, hGet, hWorking⟩ hHeld
  | fetchingConfirmed working _ => exact hWorks h.1 hHeld
  | merging id' _ slice =>
    obtain ⟨generation, hGet, -, hPending⟩ := h
    obtain ⟨remaining, hSome, hEq⟩ := Option.map_eq_some_iff.mp hHeld
    obtain ⟨rfl, rfl⟩ := Prod.mk.inj hEq
    exact ⟨generation, hGet, hPending remaining hSome⟩
  | installSnapshot _ => cases hHeld
  | installed _ => cases hHeld
  | classifyNextForGeneration _ => cases hHeld
  | awaitingDriver _ => cases hHeld
  | holdingDriver _ => cases hHeld
  | takingPending _ => cases hHeld
  | selecting _ => cases hHeld
  | fetchingRaw _ _ _ => cases hHeld
  | admitting _ _ _ => cases hHeld
  | leaving _ _ => cases hHeld
  | returned _ => cases hHeld

omit [BitcoinCrate] [WireJson] [DecidableEq ι] in
/-- A slice in flight, or left for the next one. -/
def HasSlice (w : World ι PipelineState Call) (generation : Nat) (pending : PendingSlice) : Prop :=
  (∃ i call, w.procs i = some call ∧ call.held = some (generation, pending)) ∨
    ∃ filed, w.shared.generations[generation]? = some filed ∧ filed.work.pending = some pending

theorem hasSlice_sound (limits : ClassificationLimits) {w : World ι PipelineState Call}
    {trace : List (ι × Option Event)}
    (hRun : (system ι limits).Run (Processes.initial (.new limits)) trace w) {generation : Nat}
    {pending : PendingSlice} (hSlice : HasSlice w generation pending) :
    ∃ membership, Installed (trace.filterMap Prod.snd) generation membership ∧
      PendingSound (trace.filterMap Prod.snd) generation membership pending := by
  obtain ⟨hState, hCalls⟩ := sound_run limits hRun
  obtain ⟨filed, hGet, hSound⟩ : ForGeneration w.shared generation fun membership =>
      PendingSound (trace.filterMap Prod.snd) generation membership pending := by
    rcases hSlice with ⟨i, call, hLocal, hHeld⟩ | ⟨filed, hGet, hPending⟩
    · exact held_sound (hCalls i call hLocal) hHeld
    · have hStored := (hState.generations generation filed hGet).pending pending hPending
      rw [hState.id_eq generation filed hGet] at hStored
      exact ⟨filed, hGet, hStored⟩
  have hInstalled := (hState.generations generation filed hGet).installed
  rw [hState.id_eq generation filed hGet] at hInstalled
  exact ⟨filed.membership, hInstalled, hSound⟩

/-- **Policy facts are sound.** After any run of installations and slices, whatever
the node answers and in whatever order its batches end: what the next revision
publishes was evaluated for the membership of its generation, each input with the
script of a member's output, the script of a positive answer for the outpoint, or as
missing; a fact is missing only by the node's own null for an outpoint that no member
pays; and the caches hold nothing but answers. -/
theorem policy_facts_sound (limits : ClassificationLimits) {w : World ι PipelineState Call}
    {trace : List (ι × Option Event)}
    (hRun : (system ι limits).Run (Processes.initial (.new limits)) trace w) :
    (∀ i delta w', (system ι limits).Step w (i, some (.revised delta)) w' →
      ∃ membership, Installed (trace.filterMap Prod.snd) delta.generation membership ∧
        ∀ record ∈ delta.changed, ∃ cached, cached.classification = record ∧
          WasEvaluated (trace.filterMap Prod.snd) delta.generation membership cached) ∧
    (∀ generation pending, HasSlice w generation pending →
      ∃ membership, Installed (trace.filterMap Prod.snd) generation membership ∧
        ∀ outpoint : OutPoint,
          (pending.facts[outpoint]? = some .explicitlyMissing →
            Missing (trace.filterMap Prod.snd) generation membership outpoint) ∧
          ∀ script, pending.facts[outpoint]? = some (.ready script) →
            Given (trace.filterMap Prod.snd) membership outpoint script) ∧
    (∀ (id : Nat) generation, w.shared.generations[id]? = some generation →
      OutputsSound (trace.filterMap Prod.snd) generation.work.outputs ∧
        ∀ (wtxid : String) cached, generation.work.classifications[wtxid]? = some cached →
          EverEvaluated (trace.filterMap Prod.snd) cached) ∧
    ConfirmedSound (trace.filterMap Prod.snd) w.shared.confirmedCache := by
  obtain ⟨hState, hCalls⟩ := sound_run limits hRun
  refine ⟨fun i delta w' hStep => ?_, fun generation pending hSlice => ?_, fun id generation hGet => ?_,
    hState.confirmed⟩
  · cases hStep with
    | act hLocal hAct =>
      obtain ⟨completion, hCall⟩ := hAct
      exact revised_sound hState (hCalls i _ hLocal) hCall
  · obtain ⟨membership, hInstalled, hSound⟩ := hasSlice_sound limits hRun hSlice
    exact ⟨membership, hInstalled, fun outpoint =>
      ⟨fun hMissing => (hSound.facts outpoint _ hMissing).1,
        fun script hReady => (hSound.facts outpoint _ hReady).1⟩⟩
  · have hGeneration := hState.generations id generation hGet
    exact ⟨hGeneration.outputs, hGeneration.classifications⟩

end Crate

/-- The classifications an event publishes. -/
def Event.changed : Event → List TransactionClassification
  | .revised delta => delta.changed
  | _ => []

theorem Event.of_mem_changed {event : Event} {record : TransactionClassification}
    (h : record ∈ event.changed) : ∃ delta, event = .revised delta ∧ record ∈ delta.changed := by
  cases event with
  | revised delta => exact ⟨delta, rfl, h⟩
  | _ => cases h

/-- The sample run: the payment is fetched and classified, and its record published. -/
theorem policy_facts_sound_payment :
    let _ := MempoolAtlas.Reference.crate [MempoolAtlas.Reference.payment]
    let _ := Reference.json [MempoolAtlas.Reference.payment.hex, "51"]
    ∃ history generation membership record cached, cached.classification = record ∧
      Installed history generation membership ∧
      WasEvaluated history generation membership cached := by
  intro _ _
  have hPlay : (Reference.play Reference.limits (Reference.paymentMoves.take 23)).any (fun played =>
      played.calls[1]?.any fun call =>
        (callStep Reference.limits ⟨0, .joinError⟩ played.state call).any fun action =>
          action.2.2.any fun event => !event.changed.isEmpty) = true := by decide +kernel
  obtain ⟨played, hPlayed, hPublishes⟩ := (Option.any_eq_true ..).mp hPlay
  obtain ⟨call, hCall, hPublishes⟩ := (Option.any_eq_true ..).mp hPublishes
  obtain ⟨⟨state', call', made⟩, hStep, hPublishes⟩ := (Option.any_eq_true ..).mp hPublishes
  obtain ⟨event, hMade, hPublishes⟩ := (Option.any_eq_true ..).mp hPublishes
  obtain ⟨record, hMem⟩ := List.exists_mem_of_ne_nil event.changed (by simpa using hPublishes)
  obtain ⟨delta, rfl, hMem⟩ := Event.of_mem_changed hMem
  obtain rfl : made = some (.revised delta) := hMade
  obtain ⟨hRevised, -⟩ := policy_facts_sound Reference.limits (Reference.play_run hPlayed)
  obtain ⟨membership, hInstalled, hEvaluated⟩ :=
    hRevised 1 delta _ (Step.crew_act hCall ⟨⟨0, .joinError⟩, hStep⟩)
  obtain ⟨cached, hRecord, hCached⟩ := hEvaluated record hMem
  exact ⟨_, delta.generation, membership, record, cached, hRecord, hInstalled, hCached⟩

end MempoolAtlas.Classification
