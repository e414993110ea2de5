import MempoolAtlas.Classification.Soundness

/-!
# When a slice panics

The only panic a run of installations and slices can reach is that of `classify_ready`
on a transaction that spends the null outpoint without being a coinbase: it requires no
fact for such an input, but looks one up. Every other `expect` of the slice code holds.

## Results

* `callStep_not_panicked` — one action does not panic while only accepted transactions are
  answered.
* `classifier_never_panics` — when no call of a run panics, and exactly when a held slice does.
* `classifier_panics_on_two_null_inputs` — a slice that unwinds.
-/

namespace MempoolAtlas.Classification

open Machine Model Processes BitcoinCrate

/-- The call has unwound, or is about to. -/
def Call.panicked : Call → Bool
  | .leaving _ (.panic _) => true
  | .returned (.panic _) => true
  | _ => false

section Crate

variable [BitcoinCrate] [WireJson]

/-- Every transaction the node has answered for its variant is of an accepted shape. -/
def AllNullFree (history : List Event) : Prop :=
  ∀ expected transaction, RawAnswer history expected transaction → NullFree transaction

variable {history : List Event} {limits : ClassificationLimits} {state state' : PipelineState}

theorem AllNullFree.mono {history' : List Event} (hSub : history ⊆ history')
    (h : AllNullFree history') : AllNullFree history :=
  fun expected transaction hRaw => h expected transaction (hRaw.mono hSub)

/-- A sound slice of accepted transactions classifies what is ready. -/
theorem AllNullFree.classifyReady (h : AllNullFree history) {generation : Nat}
    {membership : MempoolSnapshot} {pending : PendingSlice}
    (hPending : PendingSound history generation membership pending) :
    ∃ result, pending.classifyReady = .ok result :=
  (classifyReady_isOk_iff hPending).mpr fun key _ candidate hGet =>
    h candidate.expected candidate.transaction (hPending.active key candidate hGet).1.raw

/-- A candidate without null outpoints among several inputs does not panic. -/
theorem AllNullFree.not_panicked (h : AllNullFree history) {membership : MempoolSnapshot}
    {working : Working} (hWorking : WorkingSound history membership working)
    {next : Working → Call × Option Event} (hNext : ∀ working', (next working').1.panicked = false) :
    (Classification.classifyReady working next).1.panicked = false := by
  obtain ⟨result, hReady⟩ := h.classifyReady hWorking.pending
  unfold Classification.classifyReady
  rw [hReady]
  exact hNext _

omit [WireJson] in
theorem askParents_not_panicked (resolver : ResolverLimits)
    (variants : BTreeMap Txid CurrentVariant) (working : Working) :
    (askParents limits resolver variants working).1.panicked = false := by
  simp only [askParents]
  split <;> (split <;> rfl)

omit [BitcoinCrate] [WireJson] in
theorem recover_next_not_panicked (classified : Nat) (deferredOnce : Bool) (recovered : Working) :
    (if recovered.advance.classifications.length = classified then
      ((.relieving recovered deferredOnce, none) : Call × Option Event)
      else (.recovering recovered deferredOnce, none)).1.panicked = false := by
  split <;> rfl

omit [WireJson] in
omit [BitcoinCrate] in
theorem relieve_not_panicked (resolver : ResolverLimits) (variants : BTreeMap Txid CurrentVariant)
    (working : Working) (deferredOnce : Bool) :
    (relieve resolver variants working deferredOnce).panicked = false := by
  simp only [relieve]
  split
  · rfl
  · split <;> rfl

omit [BitcoinCrate] [WireJson] in
/-- Reading the caches never meets a missing entry. -/
theorem hydrate_not_panicked (h : CacheBudget limits state) {working : Working}
    {generation : ClassificationGeneration} {resolver : ResolverLimits} {next : Working → Call}
    (hNext : ∀ working', (next working').panicked = false) :
    (hydrate resolver state generation working next).2.1.panicked = false := by
  unfold hydrate
  split
  · rfl
  · obtain ⟨absorbed, confirmed', hOk, -⟩ := hydrateFromCaches_spec working.pending
      generation.variants generation.work.outputs resolver h.accounted
    rw [hOk]
    exact hNext _

omit [BitcoinCrate] [WireJson] in
/-- A merge does not panic. -/
theorem merge_not_panicked [BitcoinCrate] (h : CacheBudget limits state) {id : Nat}
    {generation : ClassificationGeneration} (hGet : state.generations[id]? = some generation)
    (resolver : ResolverLimits) (advance : ClassificationAdvance) (pending : Option PendingSlice) :
    (merge limits resolver state generation advance pending).2.1.panicked = false := by
  cases hIs : state.isCurrent generation.id with
  | false =>
    unfold merge
    rw [hIs]
    rfl
  | true =>
    have hCurrent := isCurrent_iff.mp hIs
    have hMerged := merge_spec limits resolver advance pending hCurrent
    generalize merge limits resolver state generation advance pending = action at hMerged
    cases hMerged with
    | overflowed => rfl
    | reported => rfl
    | panicked _ _ hPanic =>
      have hBefore := h.balanced generation.id generation hCurrent
        (by rw [h.id_eq id generation hGet]; exact hGet)
      obtain ⟨-, hBalanced⟩ :=
        mergeCaches_spec limits advance.outputs advance.confirmedScripts hBefore
      obtain ⟨absorbed, confirmed', hOk, -⟩ := hydrateFromCaches_spec _ generation.variants
        (mergedCaches limits state generation advance).outputs resolver hBalanced.accounted
      have hBoth := hOk.symm.trans hPanic
      cases hBoth

/-- **One action does not panic** while only accepted transactions are answered. -/
theorem callStep_not_panicked {completion : Completion} {call call' : Call}
    {event : Option Event} (h : PipelineSound limits history state)
    (hCall : CallSound history state call) (hFree : AllNullFree history)
    (hBefore : call.panicked = false)
    (hStep : callStep limits completion state call = some (state', call', event))
    (hEvent : ∀ e, event = some e → e ∈ history) : call'.panicked = false := by
  have hOf : ∀ {action : Action}, some action = some (state', call', event) →
      action.2.1.panicked = false → call'.panicked = false := by
    rintro action hEq hAction
    rw [Option.some.inj hEq] at hAction
    exact hAction
  cases call with
  | installSnapshot membership =>
    refine hOf hStep ?_
    unfold installSnapshot
    split
    · rfl
    · split <;> rfl
  | installed result => cases hStep
  | classifyNextForGeneration expected =>
    refine hOf hStep ?_
    unfold beginSlice
    split
    · rfl
    · split <;> rfl
  | awaitingDriver id =>
    obtain ⟨generation, -, hStep⟩ := Option.bind_eq_some_iff.mp hStep
    split at hStep
    · cases hStep
    · exact hOf hStep rfl
  | holdingDriver id =>
    refine hOf hStep ?_
    dsimp only
    split <;> rfl
  | takingPending id =>
    obtain ⟨generation, -, hStep⟩ := Option.bind_eq_some_iff.mp hStep
    refine hOf hStep ?_
    unfold takePending
    split
    · rfl
    · split <;> rfl
  | selecting id =>
    obtain ⟨generation, -, hStep⟩ := Option.bind_eq_some_iff.mp hStep
    refine hOf hStep ?_
    simp only [selectCandidates]
    split <;> rfl
  | fetchingRaw id advance tasks =>
    obtain ⟨generation, -, -, hTasks⟩ := hCall
    obtain ⟨-, hDone | ⟨tasks', hAgain, -⟩⟩ := rawFetchStep_sound hStep hEvent hTasks
    · rw [hDone]
      split <;> rfl
    · rw [hAgain]
      rfl
  | admitting id advance values =>
    obtain ⟨generation, -, hStep⟩ := Option.bind_eq_some_iff.mp hStep
    refine hOf hStep ?_
    simp only [admitTransactions]
    split <;> rfl
  | hydrating working =>
    obtain ⟨generation, -, hStep⟩ := Option.bind_eq_some_iff.mp hStep
    exact hOf hStep (hydrate_not_panicked h.toCacheBudget fun _ => rfl)
  | hydrated working =>
    obtain ⟨generation, hGet, hStep⟩ := Option.bind_eq_some_iff.mp hStep
    exact hOf hStep (hFree.not_panicked (WorkingFor.at hCall hGet) fun _ =>
      askParents_not_panicked ..)
  | fetchingParents working parentWave tasks =>
    obtain ⟨generation, -, -, hTasks⟩ := hCall
    obtain ⟨-, hDone | ⟨tasks', hAgain, -⟩⟩ := rawFetchStep_sound hStep hEvent hTasks
    · rw [hDone]
      split <;> rfl
    · rw [hAgain]
      rfl
  | askingConfirmed working factWavesPaused =>
    refine hOf hStep ?_
    simp only [askConfirmed]
    split <;> (split <;> rfl)
  | fetchingConfirmed working tasks =>
    obtain ⟨-, hTasks⟩ := hCall
    obtain ⟨-, hDone | ⟨tasks', hAgain, -⟩⟩ := confirmedFetchStep_sound hStep hEvent hTasks
    · rw [hDone]
      split <;> rfl
    · rw [hAgain]
      rfl
  | settling working =>
    obtain ⟨generation, -, hWorking⟩ := hCall
    exact hOf hStep (hFree.not_panicked hWorking fun _ => rfl)
  | recovering working deferredOnce =>
    refine hOf hStep ?_
    dsimp only
    split <;> rfl
  | rehydrating working deferredOnce =>
    obtain ⟨generation, -, hStep⟩ := Option.bind_eq_some_iff.mp hStep
    exact hOf hStep (hydrate_not_panicked h.toCacheBudget fun _ => rfl)
  | rehydrated working deferredOnce =>
    obtain ⟨generation, -, hWorking⟩ := hCall
    exact hOf hStep (hFree.not_panicked (hWorking.absorbed _) fun _ =>
      recover_next_not_panicked ..)
  | relieving working deferredOnce =>
    obtain ⟨generation, -, hStep⟩ := Option.bind_eq_some_iff.mp hStep
    exact hOf hStep (relieve_not_panicked ..)
  | merging id advance pending =>
    obtain ⟨generation, hGet, hStep⟩ := Option.bind_eq_some_iff.mp hStep
    exact hOf hStep (merge_not_panicked h.toCacheBudget hGet ..)
  | leaving id result =>
    obtain ⟨generation, -, hStep⟩ := Option.bind_eq_some_iff.mp hStep
    refine hOf hStep ?_
    cases result with
    | report => rfl
    | error => rfl
    | panic => cases hBefore
  | returned result => cases hStep

/-- The outline of soundness, with what it says of panics: they stay away while every
answer in the history is of an accepted shape. -/
def panicFreedom (ι : Type) (limits : ClassificationLimits) :
    Outline (system ι limits).recorded where
  inv := (soundness ι limits).inv
  assertion i s call := (soundness ι limits).assertion i s call ∧
    (AllNullFree s.2 → call.panicked = false)
  guarantee := (soundness ι limits).guarantee
  starts := by
    rintro i s call hInv hStarts
    refine ⟨(soundness ι limits).starts hInv hStarts, fun _ => ?_⟩
    cases hStarts <;> rfl
  step := by
    rintro i s call event s' call' hInv ⟨hCall, hBefore⟩ hAct
    obtain ⟨hInv', hGuarantee, hCall'⟩ := (soundness ι limits).step hInv hCall hAct
    refine ⟨hInv', hGuarantee, hCall', fun hFree => ?_⟩
    obtain ⟨⟨completion, hStep⟩, hHistory⟩ := hAct
    have hSub : s.2 ⊆ s'.2 := hGuarantee.1
    refine callStep_not_panicked (PipelineSound.mono hSub hInv)
      (CallSound.mono hSub (Keeps.refl _) hCall) hFree (hBefore (hFree.mono hSub)) hStep ?_
    rintro e rfl
    rw [hHistory]
    exact List.mem_append_right _ (List.mem_singleton_self e)
  stable := by
    rintro i j s s' call hOther hInv hInv' hGuarantee ⟨hCall, hBefore⟩
    exact ⟨(soundness ι limits).stable hOther hInv hInv' hGuarantee hCall,
      fun hFree => hBefore (hFree.mono hGuarantee.1)⟩

variable {ι : Type} [DecidableEq ι]

/-- **The classifier's panics.** In every run in which all transactions the node
answers for their variants are coinbases or spend no null outpoint, no call panics; and
whatever it answers, a slice that is held classifies what is ready without a panic
exactly when its ready candidates are of those shapes. -/
theorem classifier_never_panics (limits : ClassificationLimits) {w : World ι PipelineState Call}
    {trace : List (ι × Option Event)}
    (hRun : (system ι limits).Run (Processes.initial (.new limits)) trace w) :
    (AllNullFree (trace.filterMap Prod.snd) →
      ∀ i call, w.procs i = some call → call.panicked = false) ∧
    ∀ generation pending, HasSlice w generation pending →
      ((∃ result, pending.classifyReady = .ok result) ↔
        ∀ key ∈ pending.readyKeys, ∀ candidate : PendingCandidate,
          pending.active[key]? = some candidate → NullFree candidate.transaction) := by
  refine ⟨fun hFree i call hLocal => ?_, fun generation pending hSlice => ?_⟩
  · obtain ⟨-, hCalls⟩ := (panicFreedom ι limits).holds_run hRun.recorded
      ((panicFreedom ι limits).holds_initial (pipelineSound_new limits))
    exact (hCalls i call hLocal).2 hFree
  · obtain ⟨membership, -, hSound⟩ := hasSlice_sound limits hRun hSlice
    exact classifyReady_isOk_iff hSound

end Crate

/-- The payment runs to its report: the node's only answer has one ordinary input. -/
theorem classifier_never_panics_payment :
    let _ := MempoolAtlas.Reference.crate [MempoolAtlas.Reference.payment]
    let _ := Reference.json [MempoolAtlas.Reference.payment.hex, "51"]
    ∃ played, Reference.play Reference.limits Reference.paymentMoves = some played ∧
      ∀ (i : Nat) call, played.calls[i]? = some call → call.panicked = false := by
  intro _ _
  have hPlay : (Reference.play Reference.limits Reference.paymentMoves).isSome = true := by
    decide +kernel
  obtain ⟨played, hPlayed⟩ := Option.isSome_iff_exists.mp hPlay
  have hRun := Reference.play_run hPlayed
  obtain ⟨hNever, -⟩ := classifier_never_panics Reference.limits hRun
  refine ⟨played, hPlayed, hNever fun expected transaction hRaw => Or.inr ?_⟩
  -- the crate knows no other transaction
  obtain ⟨-, -, -, -, result, -, -, -, hDecoded, -⟩ := hRaw
  have hKnown : transaction = MempoolAtlas.Reference.payment.transaction := by
    unfold decodeTransaction at hDecoded
    split at hDecoded
    · cases hDecoded
    · split at hDecoded
      · cases hDecoded
      · split at hDecoded
        · cases hDecoded
        · obtain ⟨known, hFound, rfl⟩ := Option.map_eq_some_iff.mp hDecoded
          rw [List.mem_singleton.mp (List.mem_of_find?_eq_some hFound)]
  rw [hKnown]
  decide

-- ---------------------------------------------------------------------------
-- A transaction that spends the null outpoint twice
-- ---------------------------------------------------------------------------

/-- Two null inputs, one P2WPKH output: no coinbase, which has one input. -/
def twoNullInputs : MempoolAtlas.Reference.KnownTransaction where
  transaction := {
    version := 2
    lockTime := 0
    input := List.replicate 2 ⟨⟨0, 0xffffffff⟩, [], 0xffffffff, []⟩
    output := [⟨1000, 0x00 :: 0x14 :: List.replicate 20 0⟩] }
  hex := "0200000002" ++
    "0000000000000000000000000000000000000000000000000000000000000000ffffffff00ffffffff" ++
    "0000000000000000000000000000000000000000000000000000000000000000ffffffff00ffffffff" ++
    "01e803000000000000160014" ++ "000000000000000000000000000000000000000000000000"
  txid := 0xbc783923b7d103f5fc2479524def80f8917a21478bd4629fcac5057bcc080b80
  wtxid := 0xbc783923b7d103f5fc2479524def80f8917a21478bd4629fcac5057bcc080b80
  totalSize := 123
  baseSize := 123

/-- Install it, fetch it, and classify it: it requires no fact. -/
def twoNullInputsMoves : List Reference.Move :=
  [.install (Reference.membershipOf [Reference.entryOf twoNullInputs]), .step 0,
    .classify (some 1), .step 1, .step 1, .step 1, .step 1, .step 1, .step 1,
    .answer 1 [some (.value (Reference.quoted twoNullInputs.hex))], .step 1, .step 1, .step 1,
    .step 1]

/-- The panic a slice leaves its generation by. -/
def Call.panic : Call → Option (Nat × Panic)
  | .leaving generation (.panic panic) => some (generation, panic)
  | _ => none

/-- A call that panicked leaves with its panic. -/
theorem Call.eq_of_panic {call : Call} {generation : Nat} {panic : Panic}
    (h : call.panic = some (generation, panic)) : call = .leaving generation (.panic panic) := by
  unfold Call.panic at h
  split at h
  · obtain ⟨rfl, rfl⟩ := Prod.mk.inj (Option.some.inj h)
    rfl
  · cases h

/-- **The slice unwinds**: the null outpoint is looked up, but never a fact. -/
theorem classifier_panics_on_two_null_inputs :
    let _ := MempoolAtlas.Reference.crate [twoNullInputs]
    let _ := Reference.json [twoNullInputs.hex]
    ∃ w trace, (system Nat Reference.limits).Run (Processes.initial (.new Reference.limits)) trace w ∧
      w.procs 1 = some (.leaving 1 (.panic .onlyTerminalCandidates)) := by
  intro _ _
  have hPlay : (Reference.play Reference.limits twoNullInputsMoves).any (fun played =>
      played.calls[1]?.bind Call.panic == some (1, .onlyTerminalCandidates)) = true := by
    decide +kernel
  obtain ⟨played, hPlayed, hPanic⟩ := (Option.any_eq_true ..).mp hPlay
  obtain ⟨call, hCall, hPanic⟩ := Option.bind_eq_some_iff.mp (beq_iff_eq.mp hPanic)
  refine ⟨_, _, Reference.play_run hPlayed, ?_⟩
  show played.calls[1]? = _
  rw [hCall, Call.eq_of_panic hPanic]

end MempoolAtlas.Classification
