import MempoolAtlas.Lib.Checks
import MempoolAtlas.Classification.FactMoves

/-!
# Where facts come from

What the node must have answered before a script, an absence or a transaction
may be relied on, and that every operation of a pending slice relies on nothing
else. The history is the list of events so far; an answer once given stays.

## Results

* `currentVariants_spec` — a variant is filed exactly for the entries that parse to it.
* `PendingSound.moved`, `PendingSound.activateWaiting` — moving facts and activation keep a slice
  sound.
-/

namespace MempoolAtlas.Classification

open Machine Model Classifiers Bip110 BitcoinCrate

section Crate

variable [BitcoinCrate] [WireJson]

-- ---------------------------------------------------------------------------
-- Answers
-- ---------------------------------------------------------------------------

/-- The node answered a `getrawtransaction` request for `expected` with this
transaction, whose identifiers are the expected ones and whose structure derives. -/
def RawAnswer (history : List Event) (expected : ExpectedVariant) (transaction : Transaction) :
    Prop :=
  ∃ (generation : Nat) (batch : List ExpectedVariant) (answered : ClassificationRpcBatch) (i : Nat)
      (result : String),
    .answered generation (.rawTransactions batch (.ok answered)) ∈ history ∧
    batch[i]? = some expected ∧ answered.responses[i]? = some (some (.value result)) ∧
    decodeTransaction result = some transaction ∧ isAdmitted expected transaction = true

/-- The node answered a `gettxout` request for `outpoint` with this script. -/
def PositiveAnswer (history : List Event) (outpoint : OutPoint) (script : Script) : Prop :=
  ∃ (generation : Nat) (batch : List OutPoint) (answered : ClassificationRpcBatch) (i : Nat)
      (result : String),
    .answered generation (.txOuts batch (.ok answered)) ∈ history ∧
    batch[i]? = some outpoint ∧ answered.responses[i]? = some (some (.value result)) ∧
    decodeConfirmedScript result = some script

/-- The node answered a `gettxout` request that a slice of `generation` made for
`outpoint` with a present `result: null`. -/
def NullAnswer (history : List Event) (generation : Nat) (outpoint : OutPoint) : Prop :=
  ∃ (batch : List OutPoint) (answered : ClassificationRpcBatch) (i : Nat),
    .answered generation (.txOuts batch (.ok answered)) ∈ history ∧
    batch[i]? = some outpoint ∧ answered.responses[i]? = some (some .null)

/-- A raw answer that is taken has the identifiers it was asked for. -/
theorem RawAnswer.admitted {history : List Event} {expected : ExpectedVariant}
    {transaction : Transaction} (h : RawAnswer history expected transaction) :
    txidToString (computeTxid transaction) = expected.txid ∧
      wtxidToString (computeWtxid transaction) = expected.wtxid ∧
      ∃ facts, transactionStructure transaction = .ok facts := by
  obtain ⟨-, -, -, -, -, -, -, -, -, hAdmitted⟩ := h
  simp only [isAdmitted, Bool.and_eq_true, beq_iff_eq] at hAdmitted
  obtain ⟨⟨hTxid, hWtxid⟩, hStructure⟩ := hAdmitted
  refine ⟨hTxid, hWtxid, ?_⟩
  cases hFacts : transactionStructure transaction with
  | ok facts => exact ⟨facts, rfl⟩
  | error e =>
    rw [hFacts] at hStructure
    cases hStructure

/-- Where the script of a member's output comes from: a raw transaction whose
identifiers are those of an entry of the membership. -/
def FromMember (history : List Event) (membership : MempoolSnapshot) (outpoint : OutPoint)
    (script : Script) : Prop :=
  ∃ entry ∈ membership.transactions, ∃ expected transaction,
    RawAnswer history expected transaction ∧
    txidFromStr entry.txid = some (computeTxid transaction) ∧
    entry.wtxid = wtxidToString (computeWtxid transaction) ∧
    computeTxid transaction = outpoint.txid ∧
    transaction.output[outpoint.vout.toNat]?.map TxOut.scriptPubkey = some script

/-- A script was given for an outpoint: by a parent in the membership, or by a positive
answer. -/
def Given (history : List Event) (membership : MempoolSnapshot) (outpoint : OutPoint)
    (script : Script) : Prop :=
  FromMember history membership outpoint script ∨ PositiveAnswer history outpoint script

/-- The outpoint's transaction is not in the membership. -/
def NotMember (membership : MempoolSnapshot) (outpoint : OutPoint) : Prop :=
  ∀ entry ∈ membership.transactions, txidFromStr entry.txid ≠ some outpoint.txid

/-- The outpoint is spent for all the node knows, and no member pays it. -/
def Missing (history : List Event) (generation : Nat) (membership : MempoolSnapshot)
    (outpoint : OutPoint) : Prop :=
  NullAnswer history generation outpoint ∧ NotMember membership outpoint

/-- A variant asked for on behalf of an entry of the membership. -/
def Row (membership : MempoolSnapshot) (expected : ExpectedVariant) : Prop :=
  ∃ entry ∈ membership.transactions, ∃ txid, txidFromStr entry.txid = some txid ∧
    txidFromStr expected.txid = some txid ∧ entry.wtxid = expected.wtxid

/-- A parent as a wave asks for it: an entry of the membership, under its txid's own text. -/
def ParentRow (membership : MempoolSnapshot) (expected : ExpectedVariant) : Prop :=
  ∃ entry ∈ membership.transactions, ∃ txid, txidFromStr entry.txid = some txid ∧
    expected = { txid := txidToString txid, wtxid := entry.wtxid, vsize := entry.vsize }

/-- Outputs the node answered for `txid`. -/
def OutputsSeen (history : List Event) (txid : Txid) (cached : CachedOutputs) : Prop :=
  ∃ expected transaction, RawAnswer history expected transaction ∧
    txidFromStr expected.txid = some txid ∧ cached = cachedOutputs expected transaction

/-- Cached outputs come from a fetched transaction in the membership. -/
def OutputsFrom (history : List Event) (membership : MempoolSnapshot) (txid : Txid)
    (cached : CachedOutputs) : Prop :=
  ∃ expected transaction, RawAnswer history expected transaction ∧ Row membership expected ∧
    txidFromStr expected.txid = some txid ∧ cached = cachedOutputs expected transaction

theorem OutputsFrom.seen {history : List Event} {membership : MempoolSnapshot} {txid : Txid}
    {cached : CachedOutputs} (h : OutputsFrom history membership txid cached) :
    OutputsSeen history txid cached := by
  obtain ⟨expected, transaction, hRaw, -, hTxid, hCached⟩ := h
  exact ⟨expected, transaction, hRaw, hTxid, hCached⟩

omit [BitcoinCrate] [WireJson] in
theorem cachedOutputs_script (expected : ExpectedVariant) (transaction : Transaction)
    (vout : UInt32) : (cachedOutputs expected transaction).script vout =
      transaction.output[vout.toNat]?.map TxOut.scriptPubkey := by
  simp [CachedOutputs.script, cachedOutputs]

/-- A cached output of a row is the script of a member. -/
theorem fromMember_of_row {history : List Event} {membership : MempoolSnapshot}
    {expected : ExpectedVariant} {transaction : Transaction} {outpoint : OutPoint} {script : Script}
    (hRaw : RawAnswer history expected transaction) (hRow : Row membership expected)
    (hTxid : txidFromStr expected.txid = some outpoint.txid)
    (hScript : (cachedOutputs expected transaction).script outpoint.vout = some script) :
    FromMember history membership outpoint script := by
  obtain ⟨entry, hMem, txid, hEntry, hExpected, hWtxid⟩ := hRow
  obtain ⟨hComputed, hComputedW, -⟩ := hRaw.admitted
  -- the display form parses back to the computed identifier
  have hParse : txidFromStr expected.txid = some (computeTxid transaction) := by
    rw [← hComputed, txidFromStr_txidToString]
  have hSame : computeTxid transaction = outpoint.txid := by
    rw [hParse, Option.some.injEq] at hTxid
    exact hTxid
  refine ⟨entry, hMem, expected, transaction, hRaw, ?_, by rw [hWtxid, hComputedW], hSame, ?_⟩
  · rw [hEntry, ← hExpected, hParse]
  · rw [← cachedOutputs_script expected transaction]
    exact hScript

/-- A script of cached outputs is one of their transaction's outputs. -/
theorem OutputsFrom.fromMember {history : List Event} {membership : MempoolSnapshot}
    {outpoint : OutPoint} {cached : CachedOutputs} {script : Script}
    (h : OutputsFrom history membership outpoint.txid cached)
    (hScript : cached.script outpoint.vout = some script) :
    FromMember history membership outpoint script := by
  obtain ⟨expected, transaction, hRaw, hRow, hTxid, rfl⟩ := h
  exact fromMember_of_row hRaw hRow hTxid hScript

-- ---------------------------------------------------------------------------
-- The membership's variants
-- ---------------------------------------------------------------------------

omit [WireJson] in
theorem currentVariants_fold {entries : List MempoolEntry} {start variants : BTreeMap Txid CurrentVariant}
    (h : entries.foldlM (fun variants entry =>
      match txidFromStr entry.txid with
      | none => Except.error (ClassificationError.invalidMembershipTxid entry.txid)
      | some txid => Except.ok (variants.insert txid { wtxid := entry.wtxid, vsize := entry.vsize }))
      start = Except.ok variants) (txid : Txid) :
    (∀ variant, variants[txid]? = some variant → start[txid]? = some variant ∨
      ∃ entry ∈ entries, txidFromStr entry.txid = some txid ∧
        variant = { wtxid := entry.wtxid, vsize := entry.vsize }) ∧
    (variants[txid]? = none →
      start[txid]? = none ∧ ∀ entry ∈ entries, txidFromStr entry.txid ≠ some txid) ∧
    ∀ entry ∈ entries, (txidFromStr entry.txid).isSome := by
  induction entries generalizing start with
  | nil =>
    obtain rfl : start = variants := Except.ok.inj h
    exact ⟨fun _ => Or.inl, fun hNone => ⟨hNone, by simp⟩, by simp⟩
  | cons entry rest ih =>
    rw [List.foldlM_cons] at h
    obtain ⟨next, hNext, hRest⟩ := Checks.bind_eq_ok.mp h
    split at hNext
    · cases hNext
    · next parsed hParsed =>
      obtain rfl := Except.ok.inj hNext
      obtain ⟨hSome, hNone, hAll⟩ := ih hRest
      refine ⟨fun variant hGet => ?_, fun hGet => ?_, ?_⟩
      · rcases hSome variant hGet with hStart | ⟨found, hMem, hFound⟩
        · rw [BTreeMap.getElem?_insert_eq] at hStart
          split at hStart
          · next hEq =>
            exact Or.inr ⟨entry, List.mem_cons_self, by rw [hParsed, hEq],
              (Option.some.inj hStart).symm⟩
          · exact Or.inl hStart
        · exact Or.inr ⟨found, List.mem_cons_of_mem entry hMem, hFound⟩
      · obtain ⟨hStart, hRestNone⟩ := hNone hGet
        rw [BTreeMap.getElem?_insert_eq] at hStart
        split at hStart
        · cases hStart
        · next hNe =>
          refine ⟨hStart, List.forall_mem_cons.mpr ⟨fun hEq => hNe ?_, hRestNone⟩⟩
          rw [hParsed, Option.some.injEq] at hEq
          exact hEq
      · exact List.forall_mem_cons.mpr ⟨by rw [hParsed]; rfl, hAll⟩

omit [WireJson] in
/-- A variant is filed under a txid exactly for the entries that parse to it. -/
theorem currentVariants_spec {membership : MempoolSnapshot} {variants : BTreeMap Txid CurrentVariant}
    (h : currentVariants membership = .ok variants) (txid : Txid) :
    (∀ variant, variants[txid]? = some variant →
      ∃ entry ∈ membership.transactions, txidFromStr entry.txid = some txid ∧
        variant = { wtxid := entry.wtxid, vsize := entry.vsize }) ∧
    (variants[txid]? = none →
      ∀ entry ∈ membership.transactions, txidFromStr entry.txid ≠ some txid) := by
  obtain ⟨hSome, hNone, -⟩ := currentVariants_fold h txid
  refine ⟨fun variant hGet => (hSome variant hGet).resolve_left (by simp), fun hGet => (hNone hGet).2⟩

omit [WireJson] in
/-- Every row of an installed membership has an identifier that parses. -/
theorem currentVariants_parse {membership : MempoolSnapshot} {variants : BTreeMap Txid CurrentVariant}
    (h : currentVariants membership = .ok variants) {entry : MempoolEntry}
    (hMem : entry ∈ membership.transactions) : (txidFromStr entry.txid).isSome :=
  (currentVariants_fold h 0).2.2 entry hMem

omit [WireJson] in
/-- A parent asked for is a row of the membership. -/
theorem ParentRow.row {membership : MempoolSnapshot} {expected : ExpectedVariant}
    (h : ParentRow membership expected) : Row membership expected := by
  obtain ⟨entry, hMem, txid, hTxid, rfl⟩ := h
  exact ⟨entry, hMem, txid, hTxid, txidFromStr_txidToString txid, rfl⟩

omit [WireJson] in
/-- The parents a wave may ask for are rows. -/
theorem parentRow_of_variant {membership : MempoolSnapshot}
    {variants : BTreeMap Txid CurrentVariant} (h : currentVariants membership = .ok variants)
    {txid : Txid} {variant : CurrentVariant} (hGet : variants[txid]? = some variant) :
    ParentRow membership
      { txid := txidToString txid, wtxid := variant.wtxid, vsize := variant.vsize } := by
  obtain ⟨entry, hMem, hTxid, rfl⟩ := (currentVariants_spec h txid).1 variant hGet
  exact ⟨entry, hMem, txid, hTxid, rfl⟩

omit [WireJson] in
/-- A candidate is a row of the membership. -/
theorem row_expectedVariant {membership : MempoolSnapshot} {variants : BTreeMap Txid CurrentVariant}
    (h : currentVariants membership = .ok variants) {entry : MempoolEntry}
    (hMem : entry ∈ membership.transactions) : Row membership (expectedVariant entry) := by
  obtain ⟨txid, hTxid⟩ := Option.isSome_iff_exists.mp (currentVariants_parse h hMem)
  exact ⟨entry, hMem, txid, hTxid, hTxid, rfl⟩

-- ---------------------------------------------------------------------------
-- Histories only grow
-- ---------------------------------------------------------------------------

variable {history history' : List Event}

theorem RawAnswer.mono (hSub : history ⊆ history') {expected : ExpectedVariant}
    {transaction : Transaction} (h : RawAnswer history expected transaction) :
    RawAnswer history' expected transaction := by
  obtain ⟨generation, batch, answered, i, result, hMem, hRest⟩ := h
  exact ⟨generation, batch, answered, i, result, hSub hMem, hRest⟩

theorem PositiveAnswer.mono (hSub : history ⊆ history') {outpoint : OutPoint} {script : Script}
    (h : PositiveAnswer history outpoint script) : PositiveAnswer history' outpoint script := by
  obtain ⟨generation, batch, answered, i, result, hMem, hRest⟩ := h
  exact ⟨generation, batch, answered, i, result, hSub hMem, hRest⟩

omit [BitcoinCrate] [WireJson] in
theorem NullAnswer.mono (hSub : history ⊆ history') {generation : Nat} {outpoint : OutPoint}
    (h : NullAnswer history generation outpoint) : NullAnswer history' generation outpoint := by
  obtain ⟨batch, answered, i, hMem, hRest⟩ := h
  exact ⟨batch, answered, i, hSub hMem, hRest⟩

theorem Given.mono (hSub : history ⊆ history') {membership : MempoolSnapshot} {outpoint : OutPoint}
    {script : Script} (h : Given history membership outpoint script) :
    Given history' membership outpoint script := by
  rcases h with ⟨entry, hMem, expected, transaction, hRaw, hRest⟩ | hPositive
  · exact Or.inl ⟨entry, hMem, expected, transaction, hRaw.mono hSub, hRest⟩
  · exact Or.inr (hPositive.mono hSub)

omit [WireJson] in
theorem Missing.mono (hSub : history ⊆ history') {generation : Nat} {membership : MempoolSnapshot}
    {outpoint : OutPoint} (h : Missing history generation membership outpoint) :
    Missing history' generation membership outpoint :=
  ⟨h.1.mono hSub, h.2⟩

theorem OutputsSeen.mono (hSub : history ⊆ history') {txid : Txid} {cached : CachedOutputs}
    (h : OutputsSeen history txid cached) : OutputsSeen history' txid cached := by
  obtain ⟨expected, transaction, hRaw, hRest⟩ := h
  exact ⟨expected, transaction, hRaw.mono hSub, hRest⟩

theorem OutputsFrom.mono (hSub : history ⊆ history') {membership : MempoolSnapshot} {txid : Txid}
    {cached : CachedOutputs} (h : OutputsFrom history membership txid cached) :
    OutputsFrom history' membership txid cached := by
  obtain ⟨expected, transaction, hRaw, hRest⟩ := h
  exact ⟨expected, transaction, hRaw.mono hSub, hRest⟩

-- ---------------------------------------------------------------------------
-- Pending slices
-- ---------------------------------------------------------------------------

/-- What a fact's state says about the node's answers. -/
def FactSound (history : List Event) (generation : Nat) (membership : MempoolSnapshot)
    (outpoint : OutPoint) : FactState → Prop
  | .ready script => Given history membership outpoint script
  | .explicitlyMissing => Missing history generation membership outpoint
  | .awaiting .confirmed _ => NotMember membership outpoint
  | .capacityBlocked .confirmed => NotMember membership outpoint
  | _ => True

/-- An admitted candidate: an entry of the membership, and the transaction the
node answered for it. -/
structure CandidateFrom (history : List Event) (membership : MempoolSnapshot)
    (expected : ExpectedVariant) (transaction : Transaction) : Prop where
  raw : RawAnswer history expected transaction
  entry : ∃ entry ∈ membership.transactions, expected = expectedVariant entry

/-- Every fact and every candidate of a slice comes from an answer. -/
structure PendingSound (history : List Event) (generation : Nat) (membership : MempoolSnapshot)
    (pending : PendingSlice) : Prop where
  facts : ∀ (outpoint : OutPoint) state, pending.facts[outpoint]? = some state →
    FactSound history generation membership outpoint state ∧ outpoint.isNull = false
  raw : ∀ (txid : Txid) cached, pending.rawOutputs[txid]? = some cached →
    OutputsFrom history membership txid cached
  queued : ∀ candidate ∈ pending.queued,
    CandidateFrom history membership candidate.expected candidate.transaction
  active : ∀ (key : String) candidate, pending.active[key]? = some candidate →
    CandidateFrom history membership candidate.expected candidate.transaction ∧
      candidate.required = requiredOutpoints candidate.transaction ∧
      ∀ outpoint ∈ candidate.required, (pending.facts[outpoint]?).isSome

theorem FactSound.mono (hSub : history ⊆ history') {generation : Nat} {membership : MempoolSnapshot}
    {outpoint : OutPoint} {state : FactState}
    (h : FactSound history generation membership outpoint state) :
    FactSound history' generation membership outpoint state := by
  cases state with
  | ready script => exact Given.mono hSub h
  | explicitlyMissing => exact Missing.mono hSub h
  | awaiting source attempts => cases source <;> exact h
  | capacityBlocked source => cases source <;> exact h
  | operationallyDeferred => trivial

theorem CandidateFrom.mono (hSub : history ⊆ history') {membership : MempoolSnapshot}
    {expected : ExpectedVariant} {transaction : Transaction}
    (h : CandidateFrom history membership expected transaction) :
    CandidateFrom history' membership expected transaction :=
  ⟨h.raw.mono hSub, h.entry⟩

theorem PendingSound.mono (hSub : history ⊆ history') {generation : Nat}
    {membership : MempoolSnapshot} {pending : PendingSlice}
    (h : PendingSound history generation membership pending) :
    PendingSound history' generation membership pending where
  facts outpoint state hGet := ⟨(h.facts outpoint state hGet).1.mono hSub,
    (h.facts outpoint state hGet).2⟩
  raw txid cached hGet := (h.raw txid cached hGet).mono hSub
  queued candidate hMem := (h.queued candidate hMem).mono hSub
  active key candidate hGet := ⟨(h.active key candidate hGet).1.mono hSub,
    (h.active key candidate hGet).2⟩

/-- One move keeps a fact sound: a script was given, and an absence is never
concluded but for an outpoint that awaits its own `gettxout` answer. -/
theorem factSound_move {generation : Nat} {membership : MempoolSnapshot} {outpoint : OutPoint}
    {state state' : FactState}
    (hMove : FactMove (Given history membership) (NullAnswer history generation) outpoint state state')
    (h : FactSound history generation membership outpoint state) :
    FactSound history generation membership outpoint state' := by
  cases hMove with
  | attempt source attempts => cases source <;> exact h
  | fallBack => trivial
  | @block _ source hWaiting =>
    cases source with
    | currentParent => trivial
    | parentFallback => trivial
    | confirmed =>
      match state, hWaiting with
      | .awaiting .confirmed _, _ => exact h
      | .capacityBlocked .confirmed, _ => exact h
  | store _ hGiven => exact hGiven
  | defer => trivial
  | miss hNull => exact ⟨hNull, h⟩

/-- A fact that moves stays sound. -/
theorem factSound_moves {generation : Nat} {membership : MempoolSnapshot} {outpoint : OutPoint}
    {state state' : FactState}
    (hMoves : FactMoves (Given history membership) (NullAnswer history generation) outpoint state
      state') (h : FactSound history generation membership outpoint state) :
    FactSound history generation membership outpoint state' := by
  induction hMoves with
  | refl => exact h
  | tail _ hMove ih => exact factSound_move hMove ih

/-- **Moving facts keeps a slice sound.** -/
theorem PendingSound.moved {generation : Nat} {membership : MempoolSnapshot}
    {pending pending' : PendingSlice} (h : PendingSound history generation membership pending)
    (hMoved : PendingSlice.Moved (Given history membership) (NullAnswer history generation)
      pending pending') : PendingSound history generation membership pending' where
  facts outpoint state' hGet := by
    obtain ⟨state, hOld, hMoves⟩ := hMoved.fact_from hGet
    obtain ⟨hSound, hNull⟩ := h.facts outpoint state hOld
    exact ⟨factSound_moves hMoves hSound, hNull⟩
  raw txid cached hGet := h.raw txid cached (hMoved.rawOutputs ▸ hGet)
  queued candidate hMem := h.queued candidate (hMoved.queued ▸ hMem)
  active key candidate' hGet := by
    obtain ⟨candidate, hOld, hSame⟩ := hMoved.active_from hGet
    obtain ⟨hFrom, hRequired, hFacts⟩ := h.active key candidate hOld
    rw [hSame.expected, hSame.transaction, hSame.required]
    refine ⟨hFrom, hRequired, fun outpoint hMem => ?_⟩
    obtain ⟨state, hState⟩ := Option.isSome_iff_exists.mp (hFacts outpoint hMem)
    obtain ⟨state', hState', -⟩ := hMoved.fact_to hState
    rw [hState']
    rfl

-- ---------------------------------------------------------------------------
-- Admission and removal
-- ---------------------------------------------------------------------------

omit [BitcoinCrate] [WireJson] in
/-- A candidate requires the non-null outpoints it spends. -/
theorem mem_requiredOutpoints {transaction : Transaction} {outpoint : OutPoint} :
    outpoint ∈ requiredOutpoints transaction ↔
      outpoint.isNull = false ∧ ∃ input ∈ transaction.input, input.previousOutput = outpoint := by
  simp only [requiredOutpoints, Std.ExtTreeSet.mem_toList, BTreeSet.mem_foldl_insert,
    List.mem_filter, List.mem_map, Bool.not_eq_true', Std.ExtTreeSet.not_mem_empty, or_false]
  tauto

omit [BitcoinCrate] [WireJson] in
/-- Activation adds the facts a candidate requires. -/
theorem activate_facts (pending : PendingSlice) (variants : BTreeMap Txid CurrentVariant)
    (next : PreparedCandidate) (outpoint : OutPoint) :
    (pending.activate variants next).facts[outpoint]? = pending.facts[outpoint]?.or
      (if outpoint ∈ requiredOutpoints next.transaction then
        some (pending.initialFact variants outpoint) else none) :=
  BTreeMap.getElem?_foldl_insertIfNew ..

/-- A new fact is sound. -/
theorem initialFact_sound {generation : Nat} {membership : MempoolSnapshot}
    {variants : BTreeMap Txid CurrentVariant} (hVariants : currentVariants membership = .ok variants)
    (pending : PendingSlice) (outpoint : OutPoint) :
    FactSound history generation membership outpoint (pending.initialFact variants outpoint) := by
  unfold PendingSlice.initialFact
  split
  · trivial
  · split
    · trivial
    · next hNot =>
      refine (currentVariants_spec hVariants outpoint.txid).2 ?_
      rw [Std.ExtTreeMap.contains_eq_isSome_getElem?] at hNot
      simpa using hNot

theorem PendingSound.activate {generation : Nat} {membership : MempoolSnapshot}
    {variants : BTreeMap Txid CurrentVariant} (hVariants : currentVariants membership = .ok variants)
    {pending : PendingSlice} (h : PendingSound history generation membership pending)
    {next : PreparedCandidate}
    (hNext : CandidateFrom history membership next.expected next.transaction) :
    PendingSound history generation membership (pending.activate variants next) where
  facts outpoint state hGet := by
    rw [activate_facts] at hGet
    cases hOld : pending.facts[outpoint]? with
    | some old =>
      rw [hOld, Option.some_or, Option.some.injEq] at hGet
      exact hGet ▸ h.facts outpoint old hOld
    | none =>
      rw [hOld, Option.none_or] at hGet
      split at hGet
      · next hRequired =>
        rw [← Option.some.inj hGet]
        exact ⟨initialFact_sound hVariants pending outpoint, (mem_requiredOutpoints.mp hRequired).1⟩
      · cases hGet
  raw := h.raw
  queued := h.queued
  active key candidate hGet := by
    have hCases : (pending.active.insert next.expected.wtxid _)[key]? = some candidate := hGet
    rw [BTreeMap.getElem?_insert_eq] at hCases
    split at hCases
    · rw [← Option.some.inj hCases]
      refine ⟨hNext, rfl, fun outpoint hMem => ?_⟩
      have hRequired : outpoint ∈ requiredOutpoints next.transaction := hMem
      rw [activate_facts, if_pos hRequired]
      cases pending.facts[outpoint]? <;> rfl
    · obtain ⟨hFrom, hRequired, hFacts⟩ := h.active key candidate hCases
      refine ⟨hFrom, hRequired, fun outpoint hMem => ?_⟩
      obtain ⟨state, hState⟩ := Option.isSome_iff_exists.mp (hFacts outpoint hMem)
      rw [activate_facts, hState]
      rfl

theorem PendingSound.activateLoop {generation : Nat} {membership : MempoolSnapshot}
    {variants : BTreeMap Txid CurrentVariant} (hVariants : currentVariants membership = .ok variants)
    (limits : ResolverLimits) : ∀ (queued : List PreparedCandidate) (pending : PendingSlice),
      PendingSound history generation membership pending →
      (∀ candidate ∈ queued,
        CandidateFrom history membership candidate.expected candidate.transaction) →
      PendingSound history generation membership
        (PendingSlice.activateLoop variants limits queued pending)
  | [], pending, h, _ => ⟨h.facts, h.raw, fun _ hMem => (List.not_mem_nil hMem).elim, h.active⟩
  | next :: rest, pending, h, hQueued => by
    simp only [PendingSlice.activateLoop]
    split
    · exact ⟨h.facts, h.raw, hQueued, h.active⟩
    · exact PendingSound.activateLoop hVariants limits rest _
        (h.activate hVariants (hQueued next List.mem_cons_self))
        fun candidate hMem => hQueued candidate (List.mem_cons_of_mem next hMem)

/-- Activation keeps the slice sound. -/
theorem PendingSound.activateWaiting {generation : Nat} {membership : MempoolSnapshot}
    {variants : BTreeMap Txid CurrentVariant} (hVariants : currentVariants membership = .ok variants)
    {pending : PendingSlice} (h : PendingSound history generation membership pending)
    (limits : ResolverLimits) :
    PendingSound history generation membership (pending.activateWaiting variants limits) :=
  (PendingSound.activateLoop hVariants limits pending.queued pending h h.queued).moved
    (PendingSlice.recountScriptBytes_moved _)

omit [BitcoinCrate] [WireJson] in
theorem dropUnreferencedFacts_get (pending : PendingSlice) {outpoint : OutPoint}
    {state : FactState} : pending.dropUnreferencedFacts.facts[outpoint]? = some state ↔
      pending.facts[outpoint]? = some state ∧
        ∃ (key : String) (candidate : PendingCandidate),
          pending.active[key]? = some candidate ∧ outpoint ∈ candidate.required := by
  show (pending.facts.filter _)[outpoint]? = some state ↔ _
  rw [Std.ExtTreeMap.getElem?_filter', Option.filter_eq_some_iff]
  simp only [List.contains_iff_mem, List.mem_flatMap, Prod.exists, BTreeMap.mem_toList]

/-- Leaving candidates out, and with them the facts only they need. -/
theorem PendingSound.keep {generation : Nat} {membership : MempoolSnapshot}
    {pending : PendingSlice} (h : PendingSound history generation membership pending)
    {active : BTreeMap String PendingCandidate} (fairOrder : List String)
    (hActive : ∀ (key : String) candidate, active[key]? = some candidate →
      pending.active[key]? = some candidate) :
    PendingSound history generation membership
      { pending with active, fairOrder }.dropUnreferencedFacts where
  facts outpoint state hGet := h.facts outpoint state ((dropUnreferencedFacts_get _).mp hGet).1
  raw := h.raw
  queued := h.queued
  active key candidate hGet := by
    have hKept : active[key]? = some candidate := hGet
    obtain ⟨hFrom, hRequired, hFacts⟩ := h.active key candidate (hActive key candidate hKept)
    refine ⟨hFrom, hRequired, fun outpoint hMem => ?_⟩
    obtain ⟨state, hState⟩ := Option.isSome_iff_exists.mp (hFacts outpoint hMem)
    have hFact := (dropUnreferencedFacts_get { pending with active, fairOrder }).mpr
      ⟨hState, key, candidate, hKept, hMem⟩
    rw [hFact]
    rfl

/-- Dropping candidates keeps the slice sound. -/
theorem PendingSound.dropCandidates {generation : Nat} {membership : MempoolSnapshot}
    {pending : PendingSlice} (h : PendingSound history generation membership pending)
    (keys : List String) :
    PendingSound history generation membership (pending.dropCandidates keys) := by
  refine h.keep _ fun key candidate hGet => ?_
  rw [Std.ExtTreeMap.getElem?_filter', Option.filter_eq_some_iff] at hGet
  exact hGet.1

/-- Deferring exhausted candidates keeps the slice sound. -/
theorem PendingSound.deferExhausted {generation : Nat} {membership : MempoolSnapshot}
    {pending : PendingSlice} (h : PendingSound history generation membership pending) :
    PendingSound history generation membership pending.deferExhaustedCandidates.2 := by
  simp only [PendingSlice.deferExhaustedCandidates]
  split
  · exact h
  · exact h.dropCandidates _

theorem PendingSound.dropCandidate {generation : Nat} {membership : MempoolSnapshot}
    {pending : PendingSlice} (h : PendingSound history generation membership pending)
    (doomed : String) :
    PendingSound history generation membership (pending.dropCandidate doomed) := by
  refine h.keep _ fun key candidate hGet => ?_
  rw [BTreeMap.getElem?_erase_eq] at hGet
  split at hGet
  · cases hGet
  · exact hGet

/-- Deferring a blocked candidate keeps the slice sound. -/
theorem PendingSound.deferBlocked {generation : Nat} {membership : MempoolSnapshot}
    {pending : PendingSlice} (h : PendingSound history generation membership pending) :
    PendingSound history generation membership pending.deferCapacityBlockedCandidate.2 := by
  simp only [PendingSlice.deferCapacityBlockedCandidate]
  split
  · exact h
  · exact h.dropCandidate _

end Crate

end MempoolAtlas.Classification
