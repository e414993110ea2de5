import MempoolAtlas.Bitcoin.Reference
import MempoolAtlas.Lib.KeyedSort
import MempoolAtlas.Model.Materialization

/-!
# Membership decoding

`src/rpc.rs`: the visitor that reads a verbose `getrawmempool` object pair by
pair, the per-entry rules, and the sort and uniqueness checks behind it. What
is accepted is exactly a valid mempool, and the accepted list is the one the
snapshot constructor, every binary search and every merge-join rely on.

A document is the list of its key/value pairs in document order. The typed
read of one value (serde's derived code) is a parameter `readEntry`; values the
visitor skips are not read.

## Results

* `decodeRawMempool_eq_ok` — what a document is decoded to, and when.
* `membership_decoding_exact` — the accepted documents, and the sorted membership each describes.
-/

namespace MempoolAtlas.Rpc

open Checks KeyedSort Machine Model BitcoinCrate HashText

/-- `MAX_SUPPORTED_MEMPOOL_ENTRIES`: the largest limit that may be configured. -/
def maxSupportedMempoolEntries : Nat := 200000

-- ---------------------------------------------------------------------------
-- Wire types and errors
-- ---------------------------------------------------------------------------

/-- The fees of an entry as the node sends them. -/
structure RawMempoolFeesWire where
  base : Nat
  /-- Delta-adjusted, so possibly below `base` and below zero. -/
  ancestor : Int
deriving DecidableEq, Repr

/-- An entry as the node sends it. -/
structure RawMempoolEntryWire where
  wtxid : String
  vsize : Nat
  weight : Nat
  time : Nat
  ancestorCount : Nat
  ancestorVsize : Nat
  descendantCount : Nat
  descendantVsize : Nat
  replaceable : Bool
  fees : RawMempoolFeesWire
deriving DecidableEq, Repr

/-- Why a response is refused, with the data its message carries. -/
inductive RpcError where
  | getRawMempool
  | invalidMempoolEntryLimit (configured maximum : Nat)
  | snapshotTooLarge (actual maximum : Nat)
  | invalidTxid (value : String)
  | invalidWtxid (value : String)
  | duplicateTxid (txid : String)
  | duplicateWtxid (wtxid : String)
  | entryTimeOverflow (txid : String) (timeSeconds : Nat)
  | invalidEntryFacts (txid : String) (source : ModelError)
deriving DecidableEq, Repr

/-- The configured limit is positive and supported. -/
def validateConfiguredLimit (maximum : Nat) : Except RpcError Unit :=
  ensure (maximum == 0 || maximum > maxSupportedMempoolEntries)
    (.invalidMempoolEntryLimit maximum maxSupportedMempoolEntries)

/-- A membership over the limit is refused. -/
def enforceSnapshotLimit (actual maximum : Nat) : Except RpcError Unit :=
  ensure (toU64 actual > maximum) (.snapshotTooLarge (toU64 actual) maximum)

-- ---------------------------------------------------------------------------
-- One entry
-- ---------------------------------------------------------------------------

/-- One entry: identifiers in canonical form, amounts in satoshis, then `new_variant`. -/
def decodeEntry [HashText] (value : String) (entry : RawMempoolEntryWire) :
    Except RpcError MempoolEntry := do
  let txid ← require (txidFromStr value) (.invalidTxid value)
  let txid := txidToString txid
  let wtxid ← require (wtxidFromStr entry.wtxid) (.invalidWtxid entry.wtxid)
  let wtxid := wtxidToString wtxid
  let enteredAtMs ← require (checkedMul entry.time 1000) (.entryTimeOverflow txid entry.time)
  (MempoolEntry.newVariant txid wtxid entry.vsize entry.fees.base enteredAtMs {
    weight := entry.weight
    ancestorCount := entry.ancestorCount
    ancestorVsize := entry.ancestorVsize
    ancestorFeeSats := entry.fees.ancestor
    descendantCount := entry.descendantCount
    descendantVsize := entry.descendantVsize
    replaceable := entry.replaceable }).mapError (.invalidEntryFacts txid)

-- ---------------------------------------------------------------------------
-- The visitor
-- ---------------------------------------------------------------------------

/-- `RawMempoolWire`: the entries, or the first validation error. -/
abbrev RawMempoolWire := Except RpcError (List MempoolEntry)

/-- The locals of `visit_map`. -/
structure RawMempoolVisit where
  entries : List MempoolEntry
  validationError : Option RpcError
  observedEntries : Nat

section
variable [HashText] {Value : Type} (readEntry : Value → Option RawMempoolEntryWire)
  (maximum : Nat)

/-- The loop body of `visit_map`. -/
def RawMempoolVisit.visitPair (visit : RawMempoolVisit) (pair : String × Value) :
    Except RpcError RawMempoolVisit := do
  let visit := { visit with observedEntries := saturatingAdd visit.observedEntries 1 }
  if visit.validationError.isSome then
    return visit
  if visit.observedEntries > maximum then
    return { visit with
      validationError := some (.snapshotTooLarge visit.observedEntries maximum) }
  let wire ← require (readEntry pair.2) .getRawMempool
  match decodeEntry pair.1 wire with
  | .ok entry => return { visit with entries := visit.entries ++ [entry] }
  | .error error => return { visit with validationError := some error }

/-- The visitor of the map: entries are decoded until one is invalid, and counted all the
same. -/
def visitMap (document : List (String × Value)) : Except RpcError RawMempoolWire := do
  let visit ← document.foldlM (RawMempoolVisit.visitPair readEntry maximum)
    { entries := [], validationError := none, observedEntries := 0 }
  return match visit.validationError with
    | none => .ok visit.entries
    | some error => .error error

/-- The first value that a set insertion finds already there. -/
def firstRepeated (seen : BTreeSet String) : List String → Option String
  | [] => none
  | value :: rest =>
    if seen.contains value then some value else firstRepeated (seen.insert value) rest

/-- The entries in order, unless one was invalid, there are too many or two have one
identifier. -/
def intoEntries (wire : RawMempoolWire) : Except RpcError (List MempoolEntry) := do
  let entries ← wire
  enforceSnapshotLimit entries.length maximum
  let entries := sortBy MempoolEntry.txid entries
  match repeatedNeighbours MempoolEntry.txid entries with
  | some (left, _) => .error (.duplicateTxid left.txid)
  | none =>
    match firstRepeated ∅ (entries.map MempoolEntry.wtxid) with
    | some duplicate => .error (.duplicateWtxid duplicate)
    | none => return entries

/-- The `getrawmempool` read of `get_mempool_snapshot`, with the entry cap it
sets for the visitor and passes to `into_entries`. -/
def decodeRawMempool (document : List (String × Value)) : Except RpcError (List MempoolEntry) := do
  let wire ← visitMap readEntry maximum document
  intoEntries maximum wire

end

-- ---------------------------------------------------------------------------
-- What a valid entry is
-- ---------------------------------------------------------------------------

/-- The canonical form of a transaction identifier. -/
def canonicalTxid [HashText] (value : String) : Option String :=
  (txidFromStr value).map txidToString

/-- The canonical form of a witness identifier. -/
def canonicalWtxid [HashText] (value : String) : Option String :=
  (wtxidFromStr value).map wtxidToString

/-- The rules one entry is held to, by itself. -/
structure ValidEntry [HashText] (value : String) (entry : RawMempoolEntryWire) : Prop where
  txid : (canonicalTxid value).isSome
  wtxid : (canonicalWtxid entry.wtxid).isSome
  entered : entry.time * 1000 ≤ maxSafeJsonInteger
  vsize : 0 < entry.vsize ∧ entry.vsize ≤ maxSafeJsonInteger
  fee : entry.fees.base ≤ maxSafeJsonInteger
  weight : 0 < entry.weight ∧ entry.weight ≤ entry.vsize * 4 ∧ entry.weight ≤ maxSafeJsonInteger
  ancestorFee : entry.fees.ancestor.natAbs ≤ maxSafeJsonInteger
  ancestors : 0 < entry.ancestorCount ∧ entry.ancestorCount ≤ maxSafeJsonInteger
  ancestorVsize : entry.vsize ≤ entry.ancestorVsize ∧ entry.ancestorVsize ≤ maxSafeJsonInteger
  descendants : 0 < entry.descendantCount ∧ entry.descendantCount ≤ maxSafeJsonInteger
  descendantVsize :
    entry.vsize ≤ entry.descendantVsize ∧ entry.descendantVsize ≤ maxSafeJsonInteger

/-- The membership row of a valid entry. -/
def entryOf [HashText] (value : String) (entry : RawMempoolEntryWire) : MempoolEntry where
  txid := (canonicalTxid value).getD ""
  wtxid := (canonicalWtxid entry.wtxid).getD ""
  vsize := entry.vsize
  weight := entry.weight
  feeSats := entry.fees.base
  enteredAtMs := entry.time * 1000
  ancestorCount := entry.ancestorCount
  ancestorVsize := entry.ancestorVsize
  ancestorFeeSats := entry.fees.ancestor
  descendantCount := entry.descendantCount
  descendantVsize := entry.descendantVsize
  replaceable := entry.replaceable
  transactionStructure := none
  classifications := []
  bip110 := none

theorem mapError_eq_ok {ε ε' α : Type} {x : Except ε α} {f : ε → ε'} {a : α} :
    x.mapError f = .ok a ↔ x = .ok a := by
  cases x <;> simp [Except.mapError]

theorem canonicalTxid_eq_some [HashText] {value txid : String} :
    canonicalTxid value = some txid ↔ ∃ hash, txidFromStr value = some hash ∧
      txidToString hash = txid := Option.map_eq_some_iff

theorem canonicalWtxid_eq_some [HashText] {value wtxid : String} :
    canonicalWtxid value = some wtxid ↔ ∃ hash, wtxidFromStr value = some hash ∧
      wtxidToString hash = wtxid := Option.map_eq_some_iff

/-- When a row is accepted, and which row it is. -/
theorem newVariant_eq_ok {txid wtxid : String} {vsize feeSats enteredAtMs : Nat}
    {facts : MembershipFacts} {entry : MempoolEntry} :
    MempoolEntry.newVariant txid wtxid vsize feeSats enteredAtMs facts = .ok entry ↔
      ((0 < vsize ∧ vsize ≤ maxSafeJsonInteger) ∧ feeSats ≤ maxSafeJsonInteger ∧
        enteredAtMs ≤ maxSafeJsonInteger ∧
        (0 < facts.weight ∧ facts.weight ≤ vsize * 4 ∧ facts.weight ≤ maxSafeJsonInteger) ∧
        facts.ancestorFeeSats.natAbs ≤ maxSafeJsonInteger ∧
        (0 < facts.ancestorCount ∧ facts.ancestorCount ≤ maxSafeJsonInteger) ∧
        (vsize ≤ facts.ancestorVsize ∧ facts.ancestorVsize ≤ maxSafeJsonInteger) ∧
        (0 < facts.descendantCount ∧ facts.descendantCount ≤ maxSafeJsonInteger) ∧
        vsize ≤ facts.descendantVsize ∧ facts.descendantVsize ≤ maxSafeJsonInteger) ∧
      entry = {
        txid, wtxid, vsize, weight := facts.weight, feeSats, enteredAtMs
        ancestorCount := facts.ancestorCount, ancestorVsize := facts.ancestorVsize
        ancestorFeeSats := facts.ancestorFeeSats, descendantCount := facts.descendantCount
        descendantVsize := facts.descendantVsize, replaceable := facts.replaceable
        transactionStructure := none, classifications := [], bip110 := none } := by
  have hMax : maxSafeJsonInteger * 4 ≤ u64Max := by decide
  unfold MempoolEntry.newVariant saturatingMul
  simp only [bind_eq_ok, ensure_eq_ok, ensureSafeIntegers_eq_ok, exists_const,
    List.forall_mem_cons, List.not_mem_nil, false_implies, implies_true, and_true, pure,
    Except.pure, Except.ok.injEq, Bool.or_eq_false_iff, beq_eq_false_iff_ne, ne_eq,
    decide_eq_false_iff_not, not_lt, gt_iff_lt]
  constructor
  · rintro ⟨hVsize, ⟨hSafe, hFee, hEntered, hWeight, hCount, hAncestors, hDescendant, hDescendants⟩,
      hAncestorFee, ⟨hPositive, hConsistent⟩, ⟨⟨⟨hAncestor, hOne⟩, hCovers⟩, hCoversToo⟩, hEntry⟩
    exact ⟨by omega, hEntry.symm⟩
  · rintro ⟨h, rfl⟩
    exact ⟨by omega, by omega, by omega, by omega, by omega, rfl⟩

/-- When an entry is accepted, and which row it makes. -/
theorem decodeEntry_eq_ok [HashText] {value : String} {wire : RawMempoolEntryWire}
    {entry : MempoolEntry} :
    decodeEntry value wire = .ok entry ↔
      ValidEntry value wire ∧ entry = entryOf value wire := by
  have hMax := maxSafeJsonInteger_le
  unfold decodeEntry
  simp only [bind_eq_ok, require_eq_ok, checkedMul_eq_some, mapError_eq_ok, newVariant_eq_ok]
  constructor
  · rintro ⟨txid, hTxid, wtxid, hWtxid, enteredAtMs, ⟨-, rfl⟩, h, rfl⟩
    have hCanonical : canonicalTxid value = some (txidToString txid) :=
      canonicalTxid_eq_some.mpr ⟨txid, hTxid, rfl⟩
    have hCanonicalW : canonicalWtxid wire.wtxid = some (wtxidToString wtxid) :=
      canonicalWtxid_eq_some.mpr ⟨wtxid, hWtxid, rfl⟩
    obtain ⟨hVsize, hFee, hEntered, hWeight, hAncestorFee, hAncestors, hAncestorVsize,
      hDescendants, hDescendantVsize⟩ := h
    refine ⟨⟨by rw [hCanonical]; rfl, by rw [hCanonicalW]; rfl, hEntered, hVsize, hFee, hWeight,
      hAncestorFee, hAncestors, hAncestorVsize, hDescendants, hDescendantVsize⟩, ?_⟩
    rw [entryOf, hCanonical, hCanonicalW]
    rfl
  · rintro ⟨h, rfl⟩
    obtain ⟨text, hText⟩ := Option.isSome_iff_exists.mp h.txid
    obtain ⟨textW, hTextW⟩ := Option.isSome_iff_exists.mp h.wtxid
    obtain ⟨txid, hTxid, rfl⟩ := canonicalTxid_eq_some.mp hText
    obtain ⟨wtxid, hWtxid, rfl⟩ := canonicalWtxid_eq_some.mp hTextW
    refine ⟨txid, hTxid, wtxid, hWtxid, wire.time * 1000, ⟨h.entered.trans hMax, rfl⟩,
      ⟨h.vsize, h.fee, h.entered, h.weight, h.ancestorFee, h.ancestors, h.ancestorVsize,
        h.descendants, h.descendantVsize⟩, ?_⟩
    rw [entryOf, hText, hTextW]
    rfl

-- ---------------------------------------------------------------------------
-- The visitor's run
-- ---------------------------------------------------------------------------

section
variable [HashText] {Value : Type} {readEntry : Value → Option RawMempoolEntryWire}
  {maximum : Nat}

/-- A pair whose value has the typed shape and decodes to this row. -/
def Decodes (readEntry : Value → Option RawMempoolEntryWire) (pair : String × Value)
    (entry : MempoolEntry) : Prop :=
  ∃ wire, readEntry pair.2 = some wire ∧ decodeEntry pair.1 wire = .ok entry

/-- Once a validation error is set, the rest of the object is skipped. -/
theorem foldlM_rejected {error : RpcError} (document : List (String × Value))
    {visit : RawMempoolVisit} (hError : visit.validationError = some error) :
    ∃ observed, document.foldlM (RawMempoolVisit.visitPair readEntry maximum) visit =
      .ok { visit with observedEntries := observed } := by
  induction document generalizing visit with
  | nil => exact ⟨visit.observedEntries, rfl⟩
  | cons pair rest ih =>
    have hStep : visit.visitPair readEntry maximum pair =
        .ok { visit with observedEntries := saturatingAdd visit.observedEntries 1 } := by
      simp only [RawMempoolVisit.visitPair, hError, Option.isSome_some, if_true, pure, Except.pure]
    obtain ⟨observed, hRest⟩ := @ih
      { visit with observedEntries := saturatingAdd visit.observedEntries 1 } hError
    exact ⟨observed, by rw [List.foldlM_cons, hStep]; exact hRest⟩

/-- What one more pair does to a visit without an error. -/
theorem visitPair_clean {visit : RawMempoolVisit} (hClean : visit.validationError = none)
    (hObserved : visit.observedEntries = visit.entries.length) (hFits : maximum < u64Max)
    (hWithin : visit.entries.length ≤ maximum) {pair : String × Value} {next : RawMempoolVisit}
    (h : visit.visitPair readEntry maximum pair = .ok next) :
    next.validationError.isSome ∨
      ∃ entry, Decodes readEntry pair entry ∧ visit.entries.length + 1 ≤ maximum ∧
        next = { entries := visit.entries ++ [entry], validationError := none,
                 observedEntries := visit.entries.length + 1 } := by
  have hCount : saturatingAdd visit.observedEntries 1 = visit.entries.length + 1 := by
    rw [hObserved]
    exact saturatingAdd_of_le (by omega)
  simp only [RawMempoolVisit.visitPair, hClean, hCount, Option.isSome_none, Bool.false_eq_true,
    if_false] at h
  split at h
  · left
    simp only [pure, Except.pure, Except.ok.injEq] at h
    rw [← h]
    rfl
  · next hRoom =>
    obtain ⟨wire, hWire, h⟩ := bind_eq_ok.mp h
    rw [require_eq_ok] at hWire
    cases hEntry : decodeEntry pair.1 wire with
    | error error =>
      left
      simp only [hEntry, pure, Except.pure, Except.ok.injEq] at h
      rw [← h]
      rfl
    | ok entry =>
      right
      simp only [hEntry, pure, Except.pure, Except.ok.injEq] at h
      exact ⟨entry, ⟨wire, hWire, hEntry⟩, by omega, h.symm⟩

theorem visitPair_decodes {visit : RawMempoolVisit} (hClean : visit.validationError = none)
    (hObserved : visit.observedEntries = visit.entries.length) (hFits : maximum < u64Max)
    (hRoom : visit.entries.length + 1 ≤ maximum) {pair : String × Value} {entry : MempoolEntry}
    (hDecodes : Decodes readEntry pair entry) :
    visit.visitPair readEntry maximum pair =
      .ok { entries := visit.entries ++ [entry], validationError := none,
            observedEntries := visit.entries.length + 1 } := by
  have hCount : saturatingAdd visit.observedEntries 1 = visit.entries.length + 1 := by
    rw [hObserved]
    exact saturatingAdd_of_le (by omega)
  obtain ⟨wire, hWire, hEntry⟩ := hDecodes
  have hWithin : ¬visit.entries.length + 1 > maximum := by omega
  simp only [RawMempoolVisit.visitPair, hClean, hCount, Option.isSome_none, Bool.false_eq_true,
    if_false, hWithin]
  refine bind_eq_ok.mpr ⟨wire, require_eq_ok.mpr hWire, ?_⟩
  rw [hEntry]
  rfl

/-- The loop ends without an error exactly when every pair decodes and all of
them fit; it has then kept one row a pair, in document order. -/
theorem foldlM_visitPair {document : List (String × Value)} {visit final : RawMempoolVisit}
    (hClean : visit.validationError = none)
    (hObserved : visit.observedEntries = visit.entries.length) (hFits : maximum < u64Max)
    (hWithin : visit.entries.length ≤ maximum) :
    (document.foldlM (RawMempoolVisit.visitPair readEntry maximum) visit = .ok final ∧
        final.validationError = none) ↔
      ∃ decoded, List.Forall₂ (Decodes readEntry) document decoded ∧
        visit.entries.length + document.length ≤ maximum ∧
        final = { entries := visit.entries ++ decoded, validationError := none,
                  observedEntries := visit.entries.length + document.length } := by
  induction document generalizing visit with
  | nil =>
    simp only [List.foldlM_nil, List.forall₂_nil_left_iff, exists_eq_left, List.length_nil,
      add_zero, List.append_nil, pure, Except.pure, Except.ok.injEq]
    constructor
    · rintro ⟨rfl, -⟩
      refine ⟨hWithin, ?_⟩
      rw [← hObserved, ← hClean]
    · rintro ⟨-, rfl⟩
      refine ⟨?_, rfl⟩
      rw [← hObserved, ← hClean]
  | cons pair rest ih =>
    rw [List.foldlM_cons, bind_eq_ok]
    constructor
    · rintro ⟨⟨next, hNext, hRest⟩, hFinal⟩
      rcases visitPair_clean hClean hObserved hFits hWithin hNext with
        hError | ⟨entry, hEntry, hRoom, rfl⟩
      · obtain ⟨error, hError⟩ := Option.isSome_iff_exists.mp hError
        obtain ⟨observed, hSkipped⟩ := foldlM_rejected rest hError
        rw [hSkipped, Except.ok.injEq] at hRest
        rw [← hRest, hError] at hFinal
        cases hFinal
      · obtain ⟨decoded, hDecoded, hLength, rfl⟩ :=
          (ih rfl (by simp) (by simpa using hRoom)).mp ⟨hRest, hFinal⟩
        simp only [List.length_append, List.length_singleton] at hLength
        refine ⟨entry :: decoded, .cons hEntry hDecoded, by rw [List.length_cons]; omega, ?_⟩
        simp [Nat.add_comm, Nat.add_left_comm]
    · rintro ⟨decoded, hDecoded, hLength, rfl⟩
      obtain ⟨entry, decoded, hEntry, hRest, rfl⟩ := List.forall₂_cons_left_iff.mp hDecoded
      rw [List.length_cons] at hLength
      have hStep := visitPair_decodes hClean hObserved hFits (by omega) hEntry
      have hFinal : (⟨visit.entries ++ entry :: decoded, none,
          visit.entries.length + (rest.length + 1)⟩ : RawMempoolVisit) =
          ⟨visit.entries ++ [entry] ++ decoded, none,
            (visit.entries ++ [entry]).length + rest.length⟩ := by
        simp [Nat.add_comm, Nat.add_left_comm]
      have hTail := (@ih ⟨visit.entries ++ [entry], none, visit.entries.length + 1⟩
        rfl (by simp) (by simp; omega)).mpr ⟨decoded, hRest, by simp; omega, hFinal⟩
      exact ⟨⟨_, hStep, hTail.1⟩, rfl⟩

/-- The visitor accepts a map just when every entry decodes and there is room. -/
theorem visitMap_eq_ok {document : List (String × Value)} {entries : List MempoolEntry}
    (hFits : maximum < u64Max) :
    visitMap readEntry maximum document = .ok (.ok entries) ↔
      List.Forall₂ (Decodes readEntry) document entries ∧ document.length ≤ maximum := by
  have hRun := fun final => @foldlM_visitPair _ _ readEntry maximum document ⟨[], none, 0⟩ final rfl
    rfl hFits (Nat.zero_le _)
  unfold visitMap
  rw [bind_eq_ok]
  constructor
  · rintro ⟨final, hFinal, h⟩
    cases hError : final.validationError with
    | some error => simp [hError, pure, Except.pure] at h
    | none =>
      obtain ⟨decoded, hDecoded, hLength, rfl⟩ := (hRun final).mp ⟨hFinal, hError⟩
      simp only [List.nil_append, pure, Except.pure, Except.ok.injEq] at h
      subst h
      exact ⟨hDecoded, by simpa using hLength⟩
  · rintro ⟨hDecoded, hLength⟩
    obtain ⟨hFinal, -⟩ := (hRun _).mpr ⟨entries, hDecoded, by simpa using hLength, rfl⟩
    exact ⟨_, hFinal, rfl⟩

-- ---------------------------------------------------------------------------
-- Sorting and uniqueness
-- ---------------------------------------------------------------------------

omit [HashText] in
theorem firstRepeated_eq_none {seen : BTreeSet String} {values : List String} :
    firstRepeated seen values = none ↔ values.Nodup ∧ ∀ value ∈ values, value ∉ seen := by
  induction values generalizing seen with
  | nil => simp [firstRepeated]
  | cons value rest ih =>
    rw [firstRepeated, List.nodup_cons, List.forall_mem_cons]
    split
    · next hSeen =>
      have hMem : value ∈ seen := Std.ExtTreeSet.contains_iff_mem.mp hSeen
      constructor
      · intro h
        cases h
      · rintro ⟨-, hNot, -⟩
        exact absurd hMem hNot
    · next hNew =>
      have hNot : value ∉ seen := fun hMem => hNew (Std.ExtTreeSet.contains_iff_mem.mpr hMem)
      have hInsert : ∀ other, other ∉ seen.insert value ↔ value ≠ other ∧ other ∉ seen := by
        intro other
        rw [Std.ExtTreeSet.mem_insert, Std.LawfulEqCmp.compare_eq_iff_eq, not_or]
      simp only [ih, hInsert]
      constructor
      · rintro ⟨hRest, hNew⟩
        exact ⟨⟨fun hMem => (hNew value hMem).1 rfl, hRest⟩, hNot, fun other hMem =>
          (hNew other hMem).2⟩
      · rintro ⟨⟨hValue, hRest⟩, -, hNew⟩
        exact ⟨hRest, fun other hMem => ⟨fun hEq => hValue (hEq ▸ hMem), hNew other hMem⟩⟩

omit [HashText] in
/-- The entries come out sorted just when none repeats. -/
theorem intoEntries_eq_ok {entries sorted : List MempoolEntry} (hFits : maximum < u64Max) :
    intoEntries maximum (.ok entries) = .ok sorted ↔
      entries.length ≤ maximum ∧ (entries.map MempoolEntry.txid).Nodup ∧
        (entries.map MempoolEntry.wtxid).Nodup ∧ sorted = sortBy MempoolEntry.txid entries := by
  have hCount : toU64 entries.length ≤ maximum ↔ entries.length ≤ maximum := by
    unfold toU64
    omega
  have hWtxids : ((sortBy MempoolEntry.txid entries).map MempoolEntry.wtxid).Nodup ↔
      (entries.map MempoolEntry.wtxid).Nodup :=
    ((perm_sortBy entries).map MempoolEntry.wtxid).nodup_iff
  have hWtxidCheck := @firstRepeated_eq_none ∅
    ((sortBy MempoolEntry.txid entries).map MempoolEntry.wtxid)
  have hTxidCheck : repeatedNeighbours MempoolEntry.txid (sortBy MempoolEntry.txid entries) = none ↔
      (entries.map MempoolEntry.txid).Nodup := repeatedNeighbours_sortBy
  simp only [hWtxids, Std.ExtTreeSet.not_mem_empty, not_false_eq_true, implies_true,
    and_true] at hWtxidCheck
  unfold intoEntries enforceSnapshotLimit
  simp only [bind_eq_ok, Except.ok.injEq, exists_eq_left', ensure_eq_ok, exists_const,
    decide_eq_false_iff_not, not_lt, gt_iff_lt, hCount]
  refine and_congr_right fun _ => ?_
  rw [← hTxidCheck, ← hWtxidCheck]
  cases repeatedNeighbours MempoolEntry.txid (sortBy MempoolEntry.txid entries) with
  | some pair => simp
  | none =>
    cases firstRepeated ∅ ((sortBy MempoolEntry.txid entries).map MempoolEntry.wtxid) with
    | some duplicate => simp
    | none => simp [pure, Except.pure, eq_comm]

/-- A decoded document, before it is put in order. -/
theorem decodeRawMempool_eq_ok {document : List (String × Value)} {entries : List MempoolEntry}
    (hFits : maximum < u64Max) :
    decodeRawMempool readEntry maximum document = .ok entries ↔
      document.length ≤ maximum ∧ ∃ decoded, List.Forall₂ (Decodes readEntry) document decoded ∧
        (decoded.map MempoolEntry.txid).Nodup ∧ (decoded.map MempoolEntry.wtxid).Nodup ∧
        entries = sortBy MempoolEntry.txid decoded := by
  unfold decodeRawMempool
  rw [bind_eq_ok]
  constructor
  · rintro ⟨wire, hWire, h⟩
    cases wire with
    | error error => cases h
    | ok decoded =>
      obtain ⟨hDecoded, hLength⟩ := (visitMap_eq_ok hFits).mp hWire
      obtain ⟨-, hTxids, hWtxids, rfl⟩ := (intoEntries_eq_ok hFits).mp h
      exact ⟨hLength, decoded, hDecoded, hTxids, hWtxids, rfl⟩
  · rintro ⟨hLength, decoded, hDecoded, hTxids, hWtxids, rfl⟩
    have hCount : decoded.length ≤ maximum := hDecoded.length_eq ▸ hLength
    exact ⟨.ok decoded, (visitMap_eq_ok hFits).mpr ⟨hDecoded, hLength⟩,
      (intoEntries_eq_ok hFits).mpr ⟨hCount, hTxids, hWtxids, rfl⟩⟩

-- ---------------------------------------------------------------------------
-- Valid mempools
-- ---------------------------------------------------------------------------

/-- The canonical wtxid a value names, when it can be read at all. -/
def valueWtxid (readEntry : Value → Option RawMempoolEntryWire) (value : Value) : Option String :=
  (readEntry value).bind fun wire => canonicalWtxid wire.wtxid

/-- What a verbose mempool object has to be. -/
structure ValidMempool (readEntry : Value → Option RawMempoolEntryWire) (maximum : Nat)
    (document : List (String × Value)) : Prop where
  count : document.length ≤ maximum
  entries : ∀ pair ∈ document, ∃ wire, readEntry pair.2 = some wire ∧ ValidEntry pair.1 wire
  txids : (document.map fun pair => canonicalTxid pair.1).Nodup
  wtxids : (document.map fun pair => valueWtxid readEntry pair.2).Nodup

theorem decodes_iff {pair : String × Value} {entry : MempoolEntry} :
    Decodes readEntry pair entry ↔
      ∃ wire, readEntry pair.2 = some wire ∧ ValidEntry pair.1 wire ∧
        entry = entryOf pair.1 wire := by
  simp only [Decodes, decodeEntry_eq_ok]

theorem Decodes.txid {pair : String × Value} {entry : MempoolEntry}
    (h : Decodes readEntry pair entry) : canonicalTxid pair.1 = some entry.txid := by
  obtain ⟨wire, -, hValid, rfl⟩ := decodes_iff.mp h
  obtain ⟨txid, hTxid⟩ := Option.isSome_iff_exists.mp hValid.txid
  rw [entryOf, hTxid]
  rfl

theorem Decodes.wtxid {pair : String × Value} {entry : MempoolEntry}
    (h : Decodes readEntry pair entry) : valueWtxid readEntry pair.2 = some entry.wtxid := by
  obtain ⟨wire, hWire, hValid, rfl⟩ := decodes_iff.mp h
  obtain ⟨wtxid, hWtxid⟩ := Option.isSome_iff_exists.mp hValid.wtxid
  rw [valueWtxid, hWire, Option.bind_some, entryOf, hWtxid]
  rfl

/-- Names read off the pairs are the names of the rows. -/
theorem nodup_names {document : List (String × Value)} {decoded : List MempoolEntry}
    {named : String × Value → Option String} {name : MempoolEntry → String}
    (hNamed : ∀ pair entry, Decodes readEntry pair entry → named pair = some (name entry))
    (hDecoded : List.Forall₂ (Decodes readEntry) document decoded) :
    (document.map named).Nodup ↔ (decoded.map name).Nodup := by
  have hNames : document.map named = (decoded.map name).map some := by
    induction hDecoded with
    | nil => rfl
    | cons hEntry _ ih => rw [List.map_cons, hNamed _ _ hEntry, ih, List.map_cons, List.map_cons]
  rw [hNames, List.nodup_map_iff (Option.some_injective String)]

theorem exists_decoded {document : List (String × Value)}
    (h : ∀ pair ∈ document, ∃ wire, readEntry pair.2 = some wire ∧ ValidEntry pair.1 wire) :
    ∃ decoded, List.Forall₂ (Decodes readEntry) document decoded := by
  induction document with
  | nil => exact ⟨[], .nil⟩
  | cons pair rest ih =>
    obtain ⟨⟨wire, hWire, hValid⟩, hRest⟩ := List.forall_mem_cons.mp h
    obtain ⟨decoded, hDecoded⟩ := ih hRest
    exact ⟨entryOf pair.1 wire :: decoded, .cons (decodes_iff.mpr ⟨wire, hWire, hValid, rfl⟩)
      hDecoded⟩

/-- A document is accepted just when it is valid. -/
theorem decodeRawMempool_isOk {document : List (String × Value)} (hFits : maximum < u64Max) :
    (∃ entries, decodeRawMempool readEntry maximum document = .ok entries) ↔
      ValidMempool readEntry maximum document := by
  simp only [decodeRawMempool_eq_ok hFits]
  constructor
  · rintro ⟨_, hCount, decoded, hDecoded, hTxids, hWtxids, -⟩
    refine ⟨hCount, fun pair hPair => ?_,
      (nodup_names (fun _ _ => Decodes.txid) hDecoded).mpr hTxids,
      (nodup_names (fun _ _ => Decodes.wtxid) hDecoded).mpr hWtxids⟩
    obtain ⟨index, hIndex, rfl⟩ := List.getElem_of_mem hPair
    have hEntry := hDecoded.get hIndex (hDecoded.length_eq ▸ hIndex)
    obtain ⟨wire, hWire, hValid, -⟩ := decodes_iff.mp hEntry
    exact ⟨wire, hWire, hValid⟩
  · rintro ⟨hCount, hEntries, hTxids, hWtxids⟩
    obtain ⟨decoded, hDecoded⟩ := exists_decoded hEntries
    exact ⟨_, hCount, decoded, hDecoded, (nodup_names (fun _ _ => Decodes.txid) hDecoded).mp hTxids,
      (nodup_names (fun _ _ => Decodes.wtxid) hDecoded).mp hWtxids, rfl⟩

/-- Two spellings of one pair: only the case of hexadecimal digits differs. -/
def Respells (readEntry : Value → Option RawMempoolEntryWire) (pair pair' : String × Value) :
    Prop :=
  hexFold pair.1 = hexFold pair'.1 ∧
    ∃ wire wtxid, readEntry pair.2 = some wire ∧ hexFold wire.wtxid = hexFold wtxid ∧
      readEntry pair'.2 = some { wire with wtxid }

/-- Another spelling of the identifiers decodes to the same row. -/
theorem Respells.decodes {pair pair' : String × Value} {entry : MempoolEntry}
    (h : Respells readEntry pair pair') (hEntry : Decodes readEntry pair entry) :
    Decodes readEntry pair' entry := by
  obtain ⟨hKey, wire, wtxid, hWire, hWtxid, hWire'⟩ := h
  have hTxid : txidFromStr pair'.1 = txidFromStr pair.1 := by
    rw [← txidFromStr_hexFold pair'.1, ← hKey, txidFromStr_hexFold]
  have hSame : wtxidFromStr wtxid = wtxidFromStr wire.wtxid := by
    rw [← wtxidFromStr_hexFold wtxid, ← hWtxid, wtxidFromStr_hexFold]
  obtain ⟨wire₁, hWire₁, hValid, rfl⟩ := decodes_iff.mp hEntry
  obtain rfl := Option.some.inj (hWire.symm.trans hWire₁)
  have hCanonical : canonicalTxid pair'.1 = canonicalTxid pair.1 := by
    rw [canonicalTxid, hTxid, canonicalTxid]
  have hCanonicalW : canonicalWtxid wtxid = canonicalWtxid wire.wtxid := by
    rw [canonicalWtxid, hSame, canonicalWtxid]
  refine decodes_iff.mpr ⟨_, hWire', { hValid with
    txid := hCanonical ▸ hValid.txid
    wtxid := hCanonicalW ▸ hValid.wtxid }, ?_⟩
  rw [entryOf, entryOf, hCanonical, hCanonicalW]

/-- What the accepted list is to its document. -/
structure MembershipOf (readEntry : Value → Option RawMempoolEntryWire)
    (document : List (String × Value)) (entries : List MempoolEntry) : Prop where
  sorted : entries.Pairwise fun left right => left.txid < right.txid
  complete : ∃ decoded, decoded.Perm entries ∧
    List.Forall₂ (fun pair entry => ∃ wire, readEntry pair.2 = some wire ∧
      entry = entryOf pair.1 wire) document decoded
  lowerCase : ∀ entry ∈ entries, hexFold entry.txid = entry.txid ∧
    hexFold entry.wtxid = entry.wtxid

theorem Decodes.lowerCase {pair : String × Value} {entry : MempoolEntry}
    (h : Decodes readEntry pair entry) :
    hexFold entry.txid = entry.txid ∧ hexFold entry.wtxid = entry.wtxid := by
  obtain ⟨txid, -, hTxid⟩ := canonicalTxid_eq_some.mp h.txid
  obtain ⟨wire, hWire, hWtxid⟩ := Option.bind_eq_some_iff.mp h.wtxid
  obtain ⟨wtxid, -, hWtxid⟩ := canonicalWtxid_eq_some.mp hWtxid
  rw [← hTxid, ← hWtxid]
  exact ⟨hexFold_txidToString txid, hexFold_wtxidToString wtxid⟩

/-- The decoded entries, sorted, are the membership of their document. -/
theorem membershipOf_decoded {document : List (String × Value)} {decoded : List MempoolEntry}
    (hDecoded : List.Forall₂ (Decodes readEntry) document decoded)
    (hTxids : (decoded.map MempoolEntry.txid).Nodup) :
    MembershipOf readEntry document (sortBy MempoolEntry.txid decoded) where
  sorted := pairwise_lt_sortBy hTxids
  complete := ⟨decoded, (perm_sortBy decoded).symm, hDecoded.imp fun pair entry hEntry => by
    obtain ⟨wire, hWire, -, hEntry⟩ := decodes_iff.mp hEntry
    exact ⟨wire, hWire, hEntry⟩⟩
  lowerCase := by
    intro entry hEntry
    obtain ⟨index, hIndex, rfl⟩ := List.getElem_of_mem ((perm_sortBy decoded).mem_iff.mp hEntry)
    exact (hDecoded.get (hDecoded.length_eq ▸ hIndex) hIndex).lowerCase

/-- A collection window `new_with_collection_window` accepts. -/
structure ValidWindow (startedAtMs completedAtMs durationMs : Nat) : Prop where
  started : startedAtMs ≤ maxSafeJsonInteger
  completed : completedAtMs ≤ maxSafeJsonInteger
  ordered : startedAtMs ≤ completedAtMs
  duration : durationMs = completedAtMs - startedAtMs

omit [HashText] in
theorem lt_u64Max_of_configured {maximum : Nat}
    (hConfigured : validateConfiguredLimit maximum = .ok ()) :
    maximum ≤ maxSupportedMempoolEntries ∧ maximum < u64Max := by
  rw [validateConfiguredLimit, ensure_eq_ok] at hConfigured
  simp only [Bool.or_eq_false_iff, decide_eq_false_iff_not, not_lt, gt_iff_lt] at hConfigured
  have hLe := hConfigured.2
  exact ⟨hLe, hLe.trans_lt (by decide)⟩

/-- **Decoding a membership is exact**: it accepts the valid documents and returns the sorted
membership they describe, whatever the order and the spelling of the document; a snapshot of it
is refused only for its total size. -/
theorem membership_decoding_exact (readEntry : Value → Option RawMempoolEntryWire) (maximum : Nat)
    (document : List (String × Value))
    (hConfigured : validateConfiguredLimit maximum = .ok ()) :
    ((∃ entries, decodeRawMempool readEntry maximum document = .ok entries) ↔
      ValidMempool readEntry maximum document) ∧
    ∀ entries, decodeRawMempool readEntry maximum document = .ok entries →
      MembershipOf readEntry document entries ∧
      (∀ permuted, permuted.Perm document →
        decodeRawMempool readEntry maximum permuted = .ok entries) ∧
      (∀ respelled, List.Forall₂ (Respells readEntry) document respelled →
        decodeRawMempool readEntry maximum respelled = .ok entries) ∧
      ∀ sourceId sourceLabel startedAtMs completedAtMs durationMs chainTip,
        validateSourceId sourceId = .ok () → validateSourceLabel sourceLabel = .ok () →
        ValidWindow startedAtMs completedAtMs durationMs →
        chainTip.height ≤ maxSafeJsonInteger →
        ((∃ snapshot, MempoolSnapshot.newWithCollectionWindow sourceId sourceLabel startedAtMs
            completedAtMs durationMs chainTip entries = .ok snapshot) ↔
          (entries.map MempoolEntry.vsize).sum ≤ maxSafeJsonInteger) := by
  obtain ⟨hSupported, hFits⟩ := lt_u64Max_of_configured hConfigured
  refine ⟨decodeRawMempool_isOk hFits, fun entries hEntries => ?_⟩
  obtain ⟨hCount, decoded, hDecoded, hTxids, hWtxids, rfl⟩ :=
    (decodeRawMempool_eq_ok hFits).mp hEntries
  have hMembership := membershipOf_decoded hDecoded hTxids
  refine ⟨hMembership, fun permuted hPerm => ?_, fun respelled hRespelled => ?_, ?_⟩
  · obtain ⟨decoded', hDecoded', hPerm'⟩ := List.perm_comp_forall₂ hPerm hDecoded
    have hTxids' := (hPerm'.map MempoolEntry.txid).nodup_iff.mpr hTxids
    refine (decodeRawMempool_eq_ok hFits).mpr ⟨hPerm.length_eq ▸ hCount, decoded', hDecoded',
      hTxids', (hPerm'.map MempoolEntry.wtxid).nodup_iff.mpr hWtxids, ?_⟩
    exact sortBy_eq_of_perm hPerm'.symm hTxids
  · have hSame : List.Forall₂ (Decodes readEntry) respelled decoded := by
      clear hEntries hCount hTxids hWtxids hMembership
      induction hRespelled generalizing decoded with
      | nil => rwa [List.forall₂_nil_left_iff] at hDecoded ⊢
      | cons hPair _ ih =>
        obtain ⟨entry, rest, hEntry, hRest, rfl⟩ := List.forall₂_cons_left_iff.mp hDecoded
        exact .cons (hPair.decodes hEntry) (ih rest hRest)
    exact (decodeRawMempool_eq_ok hFits).mpr ⟨hRespelled.length_eq ▸ hCount, decoded, hSame,
      hTxids, hWtxids, rfl⟩
  · intro sourceId sourceLabel startedAtMs completedAtMs durationMs chainTip hId hLabel hWindow hTip
    have hLength : (sortBy MempoolEntry.txid decoded).length ≤ maxSafeJsonInteger := by
      rw [(perm_sortBy decoded).length_eq, ← hDecoded.length_eq]
      exact hCount.trans (hSupported.trans (by decide))
    simp only [newWithCollectionWindow_eq_ok]
    constructor
    · rintro ⟨snapshot, hParts, -⟩
      exact hParts.vsizeSafe
    · intro hVsize
      have hCompleted := hWindow.completed
      have hDuration := hWindow.duration
      exact ⟨_, ⟨hId, hLabel, hWindow.started, hWindow.completed, by omega, hWindow.ordered,
        hWindow.duration, hTip, hMembership.sorted, hLength, hVsize⟩, rfl⟩

end

/-- A minimal entry whose wtxid is the given hash. -/
def plainEntry (hash : BitVec 256) : RawMempoolEntryWire where
  wtxid := Reference.showHash hash
  vsize := 141
  weight := 561
  time := 1721234000
  ancestorCount := 1
  ancestorVsize := 141
  descendantCount := 1
  descendantVsize := 141
  replaceable := false
  fees := { base := 1200, ancestor := 1200 }

/-- Two entries in descending order of their keys. -/
def twoEntries : List (String × RawMempoolEntryWire) :=
  [(Reference.showHash 2, plainEntry 2), (Reference.showHash 1, plainEntry 1)]

theorem canonicalTxid_showHash (hash : BitVec 256) :
    @canonicalTxid (Reference.hashText []) (Reference.showHash hash) =
      some (Reference.showHash hash) := by
  show (Reference.readHash (Reference.showHash hash)).map Reference.showHash = _
  rw [Reference.readHash_showHash, Option.map_some]

theorem canonicalWtxid_showHash (hash : BitVec 256) :
    @canonicalWtxid (Reference.hashText []) (Reference.showHash hash) =
      some (Reference.showHash hash) := canonicalTxid_showHash hash

theorem showHash_two_ne_one : Reference.showHash 2 ≠ Reference.showHash 1 := by
  intro h
  have hSame := congrArg Reference.readHash h
  rw [Reference.readHash_showHash, Reference.readHash_showHash] at hSame
  exact absurd (Option.some.inj hSame) (by decide)

/-- A document of two entries is valid. -/
theorem validMempool_twoEntries :
    @ValidMempool (Reference.hashText []) RawMempoolEntryWire some 2 twoEntries := by
  let _ : HashText := Reference.hashText []
  have hEntry : ∀ hash, ValidEntry (Reference.showHash hash) (plainEntry hash) := by
    intro hash
    have hTxid := canonicalTxid_showHash hash
    have hWtxid := canonicalWtxid_showHash hash
    refine ⟨by rw [hTxid]; rfl, by rw [plainEntry, hWtxid]; rfl, ?_, ?_, ?_, ?_, ?_, ?_, ?_, ?_, ?_⟩
    all_goals
      simp only [plainEntry]
      decide
  have hWtxids : ∀ hash, valueWtxid some (plainEntry hash) = some (Reference.showHash hash) :=
    fun hash => canonicalWtxid_showHash hash
  have hDistinct : [some (Reference.showHash 2), some (Reference.showHash 1)].Nodup :=
    List.nodup_cons.mpr ⟨fun hMem => showHash_two_ne_one (by simpa using hMem),
      List.nodup_singleton _⟩
  refine ⟨by decide, ?_, ?_, ?_⟩
  · intro pair hPair
    simp only [twoEntries, List.mem_cons, List.not_mem_nil, or_false] at hPair
    rcases hPair with rfl | rfl
    · exact ⟨_, rfl, hEntry 2⟩
    · exact ⟨_, rfl, hEntry 1⟩
  · simp only [twoEntries, List.map_cons, List.map_nil, canonicalTxid_showHash]
    exact hDistinct
  · simp only [twoEntries, List.map_cons, List.map_nil, hWtxids]
    exact hDistinct

/-- The sample document: two entries, listed against their order. -/
theorem membership_decoding_exact_twoEntries :
    ∃ entries,
      @decodeRawMempool (Reference.hashText []) RawMempoolEntryWire some 2 twoEntries =
        .ok entries ∧
      @MembershipOf (Reference.hashText []) RawMempoolEntryWire some twoEntries entries := by
  let _ : HashText := Reference.hashText []
  obtain ⟨hAccepts, hAccepted⟩ := membership_decoding_exact some 2 twoEntries rfl
  obtain ⟨entries, hEntries⟩ := hAccepts.mpr validMempool_twoEntries
  exact ⟨entries, hEntries, (hAccepted entries hEntries).1⟩

end MempoolAtlas.Rpc
