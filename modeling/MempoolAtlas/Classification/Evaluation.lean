import MempoolAtlas.Classification.Provenance

/-!
# Classifying what is ready

What `classify_ready` returns, when it panics instead, and that every
classification it returns was evaluated with nothing but the node's answers.

## Results

* `classifyReady_eq` — what `classify_ready` does.
* `evaluateCandidate_sound` — a record is evaluated with sound facts.
* `classifyReady_isOk_iff` — when it panics instead.
-/

namespace MempoolAtlas.Classification

open Machine Model Classifiers Bip110 BitcoinCrate

/-- The two shapes `classify_ready` accepts: a coinbase, whose inputs it does not
look up, or a transaction that spends no null outpoint. -/
def NullFree (transaction : Transaction) : Prop :=
  transaction.isCoinbase = true ∨
    ∀ input ∈ transaction.input, input.previousOutput.isNull = false

-- ---------------------------------------------------------------------------
-- Ready candidates
-- ---------------------------------------------------------------------------

namespace PendingSlice

theorem nodup_keys {ν : Type} (m : BTreeMap String ν) : (m.toList.map Prod.fst).Nodup := by
  rw [Std.ExtTreeMap.map_fst_toList_eq_keys]
  refine Std.ExtTreeMap.distinct_keys.imp ?_
  intro a b hab heq
  exact hab (by rw [heq]; exact Std.ReflCmp.compare_self)

theorem nodup_readyKeys (pending : PendingSlice) : pending.readyKeys.Nodup :=
  (nodup_keys pending.active).sublist (List.Sublist.map Prod.fst List.filter_sublist)

/-- A key is ready when its candidate's facts are all terminal. -/
theorem mem_readyKeys {pending : PendingSlice} {key : String} :
    key ∈ pending.readyKeys ↔ ∃ candidate : PendingCandidate,
      pending.active[key]? = some candidate ∧
      ∀ outpoint ∈ candidate.required, ∃ state : FactState,
        pending.facts[outpoint]? = some state ∧ state.isTerminal = true := by
  simp only [readyKeys, List.mem_map, List.mem_filter, Prod.exists, BTreeMap.mem_toList,
    List.all_eq_true, Option.any_eq_true, exists_and_right, exists_eq_right]

/-- The candidates left after those under `keys` are taken out. -/
def eraseAll (keys : List String) (active : BTreeMap String PendingCandidate) :
    BTreeMap String PendingCandidate :=
  keys.foldl (fun active key => active.erase key) active

theorem eraseAll_get (keys : List String) (active : BTreeMap String PendingCandidate)
    (key : String) :
    (eraseAll keys active)[key]? = if key ∈ keys then none else active[key]? := by
  unfold eraseAll
  induction keys generalizing active with
  | nil => simp
  | cons k rest ih =>
    rw [List.foldl_cons, ih, BTreeMap.getElem?_erase_eq]
    simp only [List.mem_cons]
    by_cases hRest : key ∈ rest
    · simp [hRest]
    · by_cases hEq : k = key
      · simp [hEq]
      · simp [hRest, hEq, Ne.symm hEq]

section Crate

variable [BitcoinCrate]

/-- The evaluation of one ready candidate. -/
def evaluateKey (facts : BTreeMap OutPoint FactState) (active : BTreeMap String PendingCandidate)
    (key : String) : Except Panic CachedClassification :=
  match active[key]? with
  | none => .error .readyCandidateRemains
  | some candidate => evaluateCandidate facts candidate

theorem evaluateKey_eq_ok {facts : BTreeMap OutPoint FactState}
    {active : BTreeMap String PendingCandidate} {key : String} {cached : CachedClassification} :
    evaluateKey facts active key = .ok cached ↔ ∃ candidate, active[key]? = some candidate ∧
      evaluateCandidate facts candidate = .ok cached := by
  unfold evaluateKey
  cases active[key]? <;> simp

/-- The loop evaluates its keys in order and takes them out. Since no key comes
twice, taking one out does not hide another. -/
theorem classifyReadyLoop_eq {facts : BTreeMap OutPoint FactState}
    {start : BTreeMap String PendingCandidate} : ∀ (keys : List String)
      (active : BTreeMap String PendingCandidate) (classifications : List CachedClassification),
      keys.Nodup → (∀ key ∈ keys, active[key]? = start[key]?) →
      classifyReadyLoop facts keys active classifications =
        (keys.mapM (evaluateKey facts start)).map fun evaluated =>
          (classifications ++ evaluated, eraseAll keys active)
  | [], active, classifications, _, _ => by
    show _ = Except.ok (classifications ++ [], active)
    rw [List.append_nil]
    rfl
  | key :: rest, active, classifications, hNodup, hSame => by
    obtain ⟨hNotMem, hRest⟩ := List.nodup_cons.mp hNodup
    have hKey := hSame key List.mem_cons_self
    have hLater : ∀ other ∈ rest, (active.erase key)[other]? = start[other]? := by
      intro other hOther
      rw [BTreeMap.getElem?_erase_eq, if_neg, hSame other (List.mem_cons_of_mem key hOther)]
      rintro rfl
      exact hNotMem hOther
    rw [List.mapM_cons]
    unfold classifyReadyLoop
    rw [hKey]
    cases hGet : start[key]? with
    | none =>
      have hNone : evaluateKey facts start key = .error .readyCandidateRemains := by
        rw [evaluateKey, hGet]
      rw [hNone]
      rfl
    | some candidate =>
      have hSome : evaluateKey facts start key = evaluateCandidate facts candidate := by
        rw [evaluateKey, hGet]
      rw [hSome]
      show (evaluateCandidate facts candidate >>= fun cached =>
        classifyReadyLoop facts rest (active.erase key) (classifications ++ [cached])) = _
      cases evaluateCandidate facts candidate with
      | error panic => rfl
      | ok cached =>
        show classifyReadyLoop facts rest (active.erase key) (classifications ++ [cached]) = _
        rw [classifyReadyLoop_eq rest (active.erase key) _ hRest hLater]
        show _ = Except.map _ (rest.mapM (evaluateKey facts start) >>= fun evaluated =>
          Except.ok (cached :: evaluated))
        cases rest.mapM (evaluateKey facts start) with
        | error panic => rfl
        | ok evaluated =>
          show Except.ok (classifications ++ [cached] ++ evaluated, _) =
            Except.ok (classifications ++ (cached :: evaluated), _)
          rw [List.append_assoc]
          rfl

/-- What is left when the ready candidates have gone. -/
def withoutReady (pending : PendingSlice) : PendingSlice :=
  let active := eraseAll pending.readyKeys pending.active
  { pending with
    active
    fairOrder := pending.fairOrder.filter fun key => active.contains key
  }.dropUnreferencedFacts

/-- **What `classify_ready` does.** -/
theorem classifyReady_eq (pending : PendingSlice) : pending.classifyReady =
    (pending.readyKeys.mapM (evaluateKey pending.facts pending.active)).map fun evaluated =>
      (evaluated, pending.withoutReady) := by
  unfold classifyReady
  rw [classifyReadyLoop_eq pending.readyKeys pending.active [] (nodup_readyKeys pending)
    fun _ _ => rfl]
  cases pending.readyKeys.mapM (evaluateKey pending.facts pending.active) <;> rfl

/-- What classifying the ready candidates yields. -/
theorem classifyReady_eq_ok {pending pending' : PendingSlice}
    {classifications : List CachedClassification} :
    pending.classifyReady = .ok (classifications, pending') ↔
      List.Forall₂ (fun key cached => evaluateKey pending.facts pending.active key = .ok cached)
        pending.readyKeys classifications ∧ pending' = pending.withoutReady := by
  rw [classifyReady_eq]
  cases hEvaluated : pending.readyKeys.mapM (evaluateKey pending.facts pending.active) with
  | error panic =>
    have hNone : ¬ List.Forall₂ (fun key cached =>
        evaluateKey pending.facts pending.active key = .ok cached) pending.readyKeys
        classifications := by
      rw [← Checks.mapM_eq_ok, hEvaluated]
      simp
    simp [Except.map, hNone]
  | ok evaluated =>
    rw [← Checks.mapM_eq_ok, hEvaluated]
    simp [Except.map, eq_comm]

end Crate

end PendingSlice

-- ---------------------------------------------------------------------------
-- Evaluated classifications
-- ---------------------------------------------------------------------------

section Crate

variable [BitcoinCrate] [WireJson]

/-- What one input's fact may be: the script its outpoint was given, or nothing
for an outpoint known to be missing. -/
def InputFact (history : List Event) (generation : Nat) (membership : MempoolSnapshot)
    (input : TxIn) : Option PrevoutFacts → Prop
  | some fact => Given history membership input.previousOutput fact.scriptPubkey
  | none => Missing history generation membership input.previousOutput

/-- A classification evaluated for an entry of the membership, with the
transaction the node answered for it and, unless that is a coinbase, one fact
for each input. -/
structure Evaluated (history : List Event) (generation : Nat) (membership : MempoolSnapshot)
    (expected : ExpectedVariant) (transaction : Transaction) (facts : TransactionStructure)
    (prevouts : PrevoutSet) (cached : CachedClassification) : Prop where
  candidate : CandidateFrom history membership expected transaction
  derived : transactionStructure transaction = .ok facts
  classification : cached.classification =
    classifyCandidate expected.txid expected.wtxid facts transaction prevouts
  retryable : cached.retryable = prevouts.facts.any Option.isNone
  coinbase : transaction.isCoinbase = true → prevouts = .empty
  inputs : transaction.isCoinbase = false →
    List.Forall₂ (InputFact history generation membership) transaction.input prevouts.facts

/-- A record comes from evaluating a fetched transaction with facts from answers. -/
def WasEvaluated (history : List Event) (generation : Nat) (membership : MempoolSnapshot)
    (cached : CachedClassification) : Prop :=
  ∃ expected transaction facts prevouts,
    Evaluated history generation membership expected transaction facts prevouts cached

variable {history history' : List Event} {generation : Nat} {membership : MempoolSnapshot}

theorem InputFact.mono (hSub : history ⊆ history') {input : TxIn} {fact : Option PrevoutFacts}
    (h : InputFact history generation membership input fact) :
    InputFact history' generation membership input fact := by
  cases fact with
  | some fact => exact Given.mono hSub h
  | none => exact Missing.mono hSub h

theorem WasEvaluated.mono (hSub : history ⊆ history') {cached : CachedClassification}
    (h : WasEvaluated history generation membership cached) :
    WasEvaluated history' generation membership cached := by
  obtain ⟨expected, transaction, facts, prevouts, hEvaluated⟩ := h
  exact ⟨expected, transaction, facts, prevouts, hEvaluated.candidate.mono hSub,
    hEvaluated.derived, hEvaluated.classification, hEvaluated.retryable, hEvaluated.coinbase,
    fun hNot => (hEvaluated.inputs hNot).imp fun _ _ => InputFact.mono hSub⟩

/-- The facts a candidate is evaluated with are those of its own inputs. -/
theorem inputFacts_sound {facts : BTreeMap OutPoint FactState}
    (hFacts : ∀ (outpoint : OutPoint) state, facts[outpoint]? = some state →
      FactSound history generation membership outpoint state)
    {transaction : Transaction} {found : List (Option PrevoutFacts)}
    (h : PendingSlice.inputFacts facts transaction = .ok found) :
    List.Forall₂ (InputFact history generation membership) transaction.input found := by
  refine (Checks.mapM_eq_ok.mp h).imp fun input fact hFact => ?_
  split at hFact
  · next script hGet =>
    rw [← Except.ok.inj hFact]
    exact hFacts input.previousOutput (.ready script) hGet
  · next hGet =>
    rw [← Except.ok.inj hFact]
    exact hFacts input.previousOutput .explicitlyMissing hGet
  · cases hFact

/-- **A record is evaluated** with sound facts. -/
theorem evaluateCandidate_sound {facts : BTreeMap OutPoint FactState}
    (hFacts : ∀ (outpoint : OutPoint) state, facts[outpoint]? = some state →
      FactSound history generation membership outpoint state)
    {candidate : PendingCandidate} {cached : CachedClassification}
    (hFrom : CandidateFrom history membership candidate.expected candidate.transaction)
    (h : PendingSlice.evaluateCandidate facts candidate = .ok cached) :
    WasEvaluated history generation membership cached := by
  obtain ⟨prevouts, hPrevouts, h⟩ := Checks.bind_eq_ok.mp h
  split at h
  · cases h
  · next derived hDerived =>
    obtain rfl := Except.ok.inj h
    refine ⟨candidate.expected, candidate.transaction, derived, prevouts, hFrom, hDerived, rfl, rfl,
      fun hCoinbase => ?_, fun hCoinbase => ?_⟩
    · rw [PendingSlice.candidatePrevouts, if_pos hCoinbase] at hPrevouts
      exact (Except.ok.inj hPrevouts).symm
    · rw [PendingSlice.candidatePrevouts, if_neg (by simp [hCoinbase])] at hPrevouts
      cases hFound : PendingSlice.inputFacts facts candidate.transaction with
      | error panic =>
        rw [hFound] at hPrevouts
        cases hPrevouts
      | ok found =>
        rw [hFound] at hPrevouts
        obtain rfl := Except.ok.inj hPrevouts
        exact inputFacts_sound hFacts hFound

/-- **Only answers decide a classification**, and the candidates that stay are
as sound as before. -/
theorem PendingSound.classifyReady {pending pending' : PendingSlice}
    {classifications : List CachedClassification}
    (h : PendingSound history generation membership pending)
    (hReady : pending.classifyReady = .ok (classifications, pending')) :
    (∀ cached ∈ classifications, WasEvaluated history generation membership cached) ∧
      PendingSound history generation membership pending' := by
  obtain ⟨hEvaluated, rfl⟩ := PendingSlice.classifyReady_eq_ok.mp hReady
  constructor
  · intro cached hMem
    obtain ⟨i, hLt, rfl⟩ := List.mem_iff_getElem.mp hMem
    have hKey := hEvaluated.get (hEvaluated.length_eq ▸ hLt) hLt
    obtain ⟨candidate, hGet, hCached⟩ := PendingSlice.evaluateKey_eq_ok.mp hKey
    exact evaluateCandidate_sound (fun outpoint state hFact => (h.facts outpoint state hFact).1)
      (h.active _ candidate hGet).1 hCached
  · refine h.keep _ fun key candidate hGet => ?_
    rw [PendingSlice.eraseAll_get] at hGet
    split at hGet
    · cases hGet
    · exact hGet

-- ---------------------------------------------------------------------------
-- Panics
-- ---------------------------------------------------------------------------

/-- A ready candidate's inputs are all looked up exactly when none of them spends
the null outpoint, which is never a fact. -/
theorem inputFacts_isOk_iff {pending : PendingSlice}
    (h : PendingSound history generation membership pending) {key : String}
    {candidate : PendingCandidate} (hGet : pending.active[key]? = some candidate)
    (hReady : key ∈ pending.readyKeys) :
    (∃ found, PendingSlice.inputFacts pending.facts candidate.transaction = .ok found) ↔
      ∀ input ∈ candidate.transaction.input, input.previousOutput.isNull = false := by
  constructor
  · rintro ⟨found, hFound⟩ input hMem
    have hAll := Checks.mapM_eq_ok.mp hFound
    obtain ⟨i, hLt, rfl⟩ := List.mem_iff_getElem.mp hMem
    have hFact := hAll.get hLt (hAll.length_eq ▸ hLt)
    split at hFact
    · next script hReady => exact (h.facts _ _ hReady).2
    · next hMissing => exact (h.facts _ _ hMissing).2
    · cases hFact
  · intro hNull
    obtain ⟨ready, hActive, hTerminal⟩ := PendingSlice.mem_readyKeys.mp hReady
    obtain rfl : candidate = ready := Option.some.inj (hGet.symm.trans hActive)
    have hRequired := (h.active key candidate hGet).2.1
    refine Checks.mapM_isOk fun input hMem => ?_
    have hNeeded : input.previousOutput ∈ candidate.required := by
      rw [hRequired]
      exact mem_requiredOutpoints.mpr ⟨hNull input hMem, input, hMem, rfl⟩
    obtain ⟨state, hState, hDone⟩ := hTerminal _ hNeeded
    rw [hState]
    match state, hDone with
    | .ready script, _ => exact ⟨_, rfl⟩
    | .explicitlyMissing, _ => exact ⟨_, rfl⟩

/-- A ready candidate evaluates exactly when it has one of the accepted shapes. -/
theorem evaluateCandidate_isOk_iff {pending : PendingSlice}
    (h : PendingSound history generation membership pending) {key : String}
    {candidate : PendingCandidate} (hGet : pending.active[key]? = some candidate)
    (hReady : key ∈ pending.readyKeys) :
    (∃ cached, PendingSlice.evaluateCandidate pending.facts candidate = .ok cached) ↔
      NullFree candidate.transaction := by
  obtain ⟨-, -, derived, hDerived⟩ := (h.active key candidate hGet).1.raw.admitted
  unfold PendingSlice.evaluateCandidate PendingSlice.candidatePrevouts NullFree
  cases hCoinbase : candidate.transaction.isCoinbase with
  | true =>
    simp only [if_true, hDerived, true_or, iff_true]
    exact ⟨_, rfl⟩
  | false =>
    rw [← inputFacts_isOk_iff h hGet hReady]
    simp only [Bool.false_eq_true, if_false, hDerived, false_or]
    cases PendingSlice.inputFacts pending.facts candidate.transaction with
    | error panic => simp [Except.map, Bind.bind, Except.bind]
    | ok found => simp [Except.map, Bind.bind, Except.bind, pure, Except.pure]

/-- **When `classify_ready` panics**: exactly when some ready candidate spends the
null outpoint without being a coinbase. -/
theorem classifyReady_isOk_iff {pending : PendingSlice}
    (h : PendingSound history generation membership pending) :
    (∃ result, pending.classifyReady = .ok result) ↔
      ∀ key ∈ pending.readyKeys, ∀ candidate : PendingCandidate,
        pending.active[key]? = some candidate → NullFree candidate.transaction := by
  constructor
  · rintro ⟨⟨classifications, pending'⟩, hOk⟩ key hKey candidate hGet
    obtain ⟨hEvaluated, -⟩ := PendingSlice.classifyReady_eq_ok.mp hOk
    obtain ⟨i, hLt, rfl⟩ := List.mem_iff_getElem.mp hKey
    obtain ⟨found, hFound, hCached⟩ := PendingSlice.evaluateKey_eq_ok.mp
      (hEvaluated.get hLt (hEvaluated.length_eq ▸ hLt))
    obtain rfl : candidate = found := Option.some.inj (hGet.symm.trans hFound)
    exact (evaluateCandidate_isOk_iff h hGet hKey).mp ⟨_, hCached⟩
  · intro hFree
    obtain ⟨evaluated, hEvaluated⟩ : ∃ evaluated, pending.readyKeys.mapM
        (PendingSlice.evaluateKey pending.facts pending.active) = .ok evaluated := by
      refine Checks.mapM_isOk fun key hKey => ?_
      obtain ⟨candidate, hGet, -⟩ := PendingSlice.mem_readyKeys.mp hKey
      obtain ⟨cached, hCached⟩ :=
        (evaluateCandidate_isOk_iff h hGet hKey).mpr (hFree key hKey candidate hGet)
      exact ⟨cached, PendingSlice.evaluateKey_eq_ok.mpr ⟨candidate, hGet, hCached⟩⟩
    rw [PendingSlice.classifyReady_eq, hEvaluated]
    exact ⟨_, rfl⟩

end Crate

end MempoolAtlas.Classification
