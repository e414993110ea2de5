import Mathlib.Data.String.Basic
import MempoolAtlas.Model.Snapshot

/-!
# Materialization

What `MempoolSnapshot::new_with_collection_window` accepts and what
`MempoolObservation::materialize_retained` returns. Materializing a membership
keeps every field its constructor checks, so only the detail records and the
revision can refuse it; and the rows it returns are the membership rows with
the compact facts of their detail records.

## Results

* `newWithCollectionWindow_eq_ok` — when a snapshot is accepted, and which one it is.
* `materializeRetained_eq_ok` — when an observation is materialized, and what is returned.
* `rowAgrees_materialized` — every row agrees with its record.
-/

namespace MempoolAtlas.Model

open Checks Machine

-- ---------------------------------------------------------------------------
-- The strictly sorted rows of a membership
-- ---------------------------------------------------------------------------

/-- The check on adjacent rows makes all rows strictly increasing. -/
theorem pairwise_of_adjacent {transactions : List MempoolEntry}
    (h : ((transactions.zip transactions.tail).any
      fun (left, right) => right.txid ≤ left.txid) = false) :
    transactions.Pairwise fun left right => left.txid < right.txid := by
  have hTrans : ∀ {a b c : MempoolEntry}, a.txid < b.txid → b.txid < c.txid → a.txid < c.txid :=
    fun hab hbc => lt_trans hab hbc
  induction transactions with
  | nil => exact List.Pairwise.nil
  | cons first rest ih =>
    cases rest with
    | nil => simp
    | cons second rest =>
      simp only [List.tail_cons, List.zip_cons_cons, List.any_cons, Bool.or_eq_false_iff,
        decide_eq_false_iff_not, not_le] at h
      have hRest := ih (by simpa using h.2)
      refine List.Pairwise.cons (fun row hRow => ?_) hRest
      rcases List.mem_cons.mp hRow with rfl | hRow
      · exact h.1
      · exact hTrans h.1 ((List.pairwise_cons.mp hRest).1 row hRow)

theorem adjacent_of_pairwise {transactions : List MempoolEntry}
    (h : transactions.Pairwise fun left right => left.txid < right.txid) :
    ((transactions.zip transactions.tail).any
      fun (left, right) => right.txid ≤ left.txid) = false := by
  induction transactions with
  | nil => rfl
  | cons first rest ih =>
    cases rest with
    | nil => rfl
    | cons second rest =>
      obtain ⟨hFirst, hRest⟩ := List.pairwise_cons.mp h
      have hLt : first.txid < second.txid := hFirst second (List.mem_cons_self ..)
      have hTail := ih hRest
      simp only [List.tail_cons, List.zip_cons_cons, List.any_cons] at hTail ⊢
      rw [hTail, Bool.or_false, decide_eq_false_iff_not, not_le]
      exact hLt

/-- The rows whose txids strictly increase are found by their txid. -/
theorem findEntry_of_mem {transactions : List MempoolEntry}
    (hSorted : transactions.Pairwise fun left right => left.txid < right.txid)
    {entry : MempoolEntry} (hMem : entry ∈ transactions) :
    MempoolObservation.findEntry transactions entry.txid = some entry := by
  induction transactions with
  | nil => simp at hMem
  | cons first rest ih =>
    obtain ⟨hFirst, hRest⟩ := List.pairwise_cons.mp hSorted
    rcases List.mem_cons.mp hMem with rfl | hMem
    · simp [MempoolObservation.findEntry]
    · have hne : first.txid ≠ entry.txid := (hFirst entry hMem).ne
      have hRestFound := ih hRest hMem
      unfold MempoolObservation.findEntry at hRestFound ⊢
      rw [List.find?_cons_of_neg (by simpa using hne), hRestFound]

/-- A row that is found is a row. -/
theorem mem_of_findEntry {transactions : List MempoolEntry} {txid : String} {entry : MempoolEntry}
    (h : MempoolObservation.findEntry transactions txid = some entry) :
    entry ∈ transactions ∧ entry.txid = txid :=
  ⟨List.mem_of_find?_eq_some h, by simpa using List.find?_some h⟩

-- ---------------------------------------------------------------------------
-- Accepted memberships
-- ---------------------------------------------------------------------------

/-- The sizes add up just when their sum fits. -/
theorem foldlM_addVsize_eq_ok {transactions : List MempoolEntry} {start total : Nat} :
    (transactions.foldlM addVsize start = .ok total ∧ start ≤ u64Max) ↔
      start + (transactions.map MempoolEntry.vsize).sum = total ∧ total ≤ u64Max := by
  induction transactions generalizing start with
  | nil =>
    simp only [List.foldlM_nil, List.map_nil, List.sum_nil, add_zero]
    constructor
    · rintro ⟨h, hLe⟩
      obtain rfl : start = total := by simpa [pure, Except.pure] using h
      exact ⟨rfl, hLe⟩
    · rintro ⟨rfl, hLe⟩
      exact ⟨rfl, hLe⟩
  | cons entry rest ih =>
    rw [List.foldlM_cons, bind_eq_ok, List.map_cons, List.sum_cons]
    constructor
    · rintro ⟨⟨sum, hSum, hRest⟩, -⟩
      unfold addVsize at hSum
      split at hSum
      · next value hAdd =>
        obtain ⟨hLe, rfl⟩ := checkedAdd_eq_some.mp hAdd
        obtain rfl : start + entry.vsize = sum := by simpa using hSum
        have := ih.mp ⟨hRest, hLe⟩
        omega
      · cases hSum
    · rintro ⟨hTotal, hLe⟩
      have hAdd : checkedAdd start entry.vsize = some (start + entry.vsize) :=
        checkedAdd_eq_some.mpr ⟨by omega, rfl⟩
      have hRest := ih.mpr (show start + entry.vsize + _ = total ∧ _ from ⟨by omega, hLe⟩)
      exact ⟨⟨start + entry.vsize, by rw [addVsize, hAdd], hRest.1⟩, by omega⟩

/-- What `new_with_collection_window` checks of the parts of a snapshot. -/
structure AcceptedParts (sourceId sourceLabel : String)
    (collectionStartedAtMs collectionCompletedAtMs collectionDurationMs : Nat)
    (chainTip : ChainTip) (transactions : List MempoolEntry) : Prop where
  sourceId : validateSourceId sourceId = .ok ()
  sourceLabel : validateSourceLabel sourceLabel = .ok ()
  startedSafe : collectionStartedAtMs ≤ maxSafeJsonInteger
  completedSafe : collectionCompletedAtMs ≤ maxSafeJsonInteger
  durationSafe : collectionDurationMs ≤ maxSafeJsonInteger
  ordered : collectionStartedAtMs ≤ collectionCompletedAtMs
  duration : collectionDurationMs = collectionCompletedAtMs - collectionStartedAtMs
  heightSafe : chainTip.height ≤ maxSafeJsonInteger
  sorted : transactions.Pairwise fun left right => left.txid < right.txid
  countSafe : transactions.length ≤ maxSafeJsonInteger
  vsizeSafe : (transactions.map MempoolEntry.vsize).sum ≤ maxSafeJsonInteger

theorem ensureSafeInteger_eq_ok {field : String} {value : Nat} {u : Unit} :
    ensureSafeInteger field value = .ok u ↔ value ≤ maxSafeJsonInteger := by
  simp [ensureSafeInteger, ensure_eq_ok]

theorem ensureSafeIntegers_eq_ok {fields : List (String × Nat)} {u : Unit} :
    ensureSafeIntegers fields = .ok u ↔ ∀ field ∈ fields, field.2 ≤ maxSafeJsonInteger := by
  simp only [ensureSafeIntegers, checkAll_eq_ok, ensureSafeInteger_eq_ok]

theorem maxSafeJsonInteger_le : maxSafeJsonInteger ≤ u64Max := by decide

/-- The snapshot `new_with_collection_window` builds from accepted parts. -/
def snapshotOf (sourceId sourceLabel : String)
    (collectionStartedAtMs collectionCompletedAtMs collectionDurationMs : Nat)
    (chainTip : ChainTip) (transactions : List MempoolEntry) : MempoolSnapshot where
  sourceId
  sourceLabel
  collectionStartedAtMs
  collectionCompletedAtMs
  collectionDurationMs
  observedAtMs := collectionCompletedAtMs
  classificationRevision := 0
  chainTip
  transactionCount := transactions.length
  totalVsize := (transactions.map MempoolEntry.vsize).sum
  classifierCatalog := Model.classifierCatalog
  classificationSummaries := classifierSummaries transactions
  bip110Summary := Bip110Summary.fromTransactions transactions
  transactions

/-- When a snapshot is accepted, and which one it is. -/
theorem newWithCollectionWindow_eq_ok {sourceId sourceLabel : String}
    {started completed duration : Nat} {tip : ChainTip} {transactions : List MempoolEntry}
    {snapshot : MempoolSnapshot} :
    MempoolSnapshot.newWithCollectionWindow sourceId sourceLabel started completed duration tip
        transactions = .ok snapshot ↔
      AcceptedParts sourceId sourceLabel started completed duration tip transactions ∧
        snapshot = snapshotOf sourceId sourceLabel started completed duration tip transactions := by
  unfold MempoolSnapshot.newWithCollectionWindow
  simp only [bind_eq_ok, ensure_eq_ok, ensureSafeInteger_eq_ok, ensureSafeIntegers_eq_ok,
    exists_const, List.forall_mem_cons, List.not_mem_nil, false_implies, implies_true, and_true]
  constructor
  · rintro ⟨_, hId, _, hLabel, ⟨hStarted, hCompleted, hDuration⟩, hOrder, hEq, hHeight, hSorted,
      hCount, total, hTotal, hVsize, hSnapshot⟩
    have hSum := (foldlM_addVsize_eq_ok.mp ⟨hTotal, Nat.zero_le _⟩).1
    rw [zero_add] at hSum
    simp only [decide_eq_false_iff_not, not_lt, bne_eq_false_iff_eq, Bool.or_eq_false_iff] at *
    refine ⟨⟨hId, hLabel, hStarted, hCompleted, hDuration, hOrder, hEq, hHeight,
      pairwise_of_adjacent hSorted, hCount.2, hSum ▸ hVsize⟩, ?_⟩
    simp only [pure, Except.pure, Except.ok.injEq] at hSnapshot
    rw [← hSnapshot, snapshotOf, hSum]
  · rintro ⟨h, rfl⟩
    have hCount := h.countSafe
    have hVsize := h.vsizeSafe
    have hMax := maxSafeJsonInteger_le
    have hTotal : transactions.foldlM addVsize 0 = .ok _ ∧ 0 ≤ u64Max :=
      foldlM_addVsize_eq_ok.mpr ⟨Nat.zero_add _, hVsize.trans hMax⟩
    refine ⟨_, h.sourceId, _, h.sourceLabel, ⟨h.startedSafe, h.completedSafe, h.durationSafe⟩,
      by simpa using h.ordered, by simpa using h.duration, h.heightSafe,
      adjacent_of_pairwise h.sorted, ?_, _, hTotal.1, hVsize, rfl⟩
    simp only [Bool.or_eq_false_iff, decide_eq_false_iff_not, not_lt]
    exact ⟨hCount.trans hMax, hCount⟩

/-- A membership the constructor accepted. -/
def Accepted (membership : MempoolSnapshot) : Prop :=
  MempoolSnapshot.newWithCollectionWindow membership.sourceId membership.sourceLabel
    membership.collectionStartedAtMs membership.collectionCompletedAtMs
    membership.collectionDurationMs membership.chainTip membership.transactions = .ok membership

@[simp] theorem materializeEntry_txid (classifications : TransactionClassifications)
    (entry : MempoolEntry) : (materializeEntry classifications entry).txid = entry.txid := by
  unfold materializeEntry
  split <;> rfl

@[simp] theorem materializeEntry_wtxid (classifications : TransactionClassifications)
    (entry : MempoolEntry) : (materializeEntry classifications entry).wtxid = entry.wtxid := by
  unfold materializeEntry
  split <;> rfl

@[simp] theorem materializeEntry_vsize (classifications : TransactionClassifications)
    (entry : MempoolEntry) : (materializeEntry classifications entry).vsize = entry.vsize := by
  unfold materializeEntry
  split <;> rfl

/-- Materializing the rows changes nothing the constructor checks. -/
theorem acceptedParts_materialized {sourceId sourceLabel : String}
    {started completed duration : Nat} {tip : ChainTip} {transactions : List MempoolEntry}
    {classifications : TransactionClassifications} :
    AcceptedParts sourceId sourceLabel started completed duration tip
        (transactions.map (materializeEntry classifications)) ↔
      AcceptedParts sourceId sourceLabel started completed duration tip transactions := by
  have hVsize : ((transactions.map (materializeEntry classifications)).map
      MempoolEntry.vsize) = transactions.map MempoolEntry.vsize := by
    simp [Function.comp_def]
  constructor
  · rintro ⟨h1, h2, h3, h4, h5, h6, h7, h8, hSorted, hCount, hSum⟩
    rw [List.length_map] at hCount
    rw [hVsize] at hSum
    rw [List.pairwise_map] at hSorted
    exact ⟨h1, h2, h3, h4, h5, h6, h7, h8, by simpa using hSorted, hCount, hSum⟩
  · rintro ⟨h1, h2, h3, h4, h5, h6, h7, h8, hSorted, hCount, hSum⟩
    refine ⟨h1, h2, h3, h4, h5, h6, h7, h8, ?_, by rwa [List.length_map], by rwa [hVsize]⟩
    rw [List.pairwise_map]
    simpa using hSorted

-- ---------------------------------------------------------------------------
-- Materialized observations
-- ---------------------------------------------------------------------------

/-- A detail record belongs to its row: same key, same variant. -/
structure MatchesRow (transactions : List MempoolEntry) (txid : String)
    (classification : TransactionClassification) : Prop where
  valid : validateClassification classification = .ok ()
  key : classification.txid = txid
  row : ∃ entry ∈ transactions, entry.txid = txid ∧ entry.wtxid = classification.wtxid

/-- The snapshot a materialization returns. -/
def materializedSnapshot (membership : MempoolSnapshot) (classificationRevision : Nat)
    (classifications : TransactionClassifications) : MempoolSnapshot :=
  { snapshotOf membership.sourceId membership.sourceLabel membership.collectionStartedAtMs
      membership.collectionCompletedAtMs membership.collectionDurationMs membership.chainTip
      (membership.transactions.map (materializeEntry classifications)) with
    classificationRevision }

/-- When a record passes its check. -/
theorem checkDetail_eq_ok {snapshot : MempoolSnapshot} {txid : String}
    {classification : TransactionClassification} :
    MempoolObservation.checkDetail snapshot (txid, classification) = .ok () ↔
      validateClassification classification = .ok () ∧ classification.txid = txid ∧
        ∃ entry, MempoolObservation.findEntry snapshot.transactions txid = some entry ∧
          entry.wtxid = classification.wtxid ∧
          entry.classifications = classification.results.map ClassificationResult.compact ∧
          entry.bip110 = some classification.assessment ∧
          entry.transactionStructure = some classification.transactionStructure := by
  unfold MempoolObservation.checkDetail
  simp only [bind_eq_ok, ensure_eq_ok, exists_const, bne_eq_false_iff_eq]
  constructor
  · rintro ⟨_, hValid, hKey, hRow⟩
    split at hRow
    · cases hRow
    · next entry hFind =>
      simp only [ensure_eq_ok, Bool.or_eq_false_iff, bne_eq_false_iff_eq] at hRow
      exact ⟨hValid, hKey.symm, entry, hFind, hRow.1.1.1, hRow.1.1.2, hRow.1.2, hRow.2⟩
  · rintro ⟨hValid, hKey, entry, hFind, hWtxid, hResults, hBip110, hStructure⟩
    refine ⟨_, hValid, hKey.symm, ?_⟩
    rw [hFind]
    simp [hWtxid, hResults, hBip110, hStructure]

/-- A materialized row carries the facts of its detail record, so the checks of
`MempoolObservation::new` come down to the records matching their rows. -/
theorem checkDetail_materialized {membership : MempoolSnapshot} {revision : Nat}
    {classifications : TransactionClassifications}
    (hSorted : membership.transactions.Pairwise fun left right => left.txid < right.txid)
    {txid : String} {classification : TransactionClassification}
    (hGet : classifications[txid]? = some classification) :
    MempoolObservation.checkDetail (materializedSnapshot membership revision classifications)
        (txid, classification) = .ok () ↔
      MatchesRow membership.transactions txid classification := by
  have hRows : (materializedSnapshot membership revision classifications).transactions =
      membership.transactions.map (materializeEntry classifications) := rfl
  rw [checkDetail_eq_ok, hRows]
  constructor
  · rintro ⟨hValid, hKey, entry, hFind, hWtxid, -⟩
    obtain ⟨hMem, hTxid⟩ := mem_of_findEntry hFind
    obtain ⟨row, hRow, rfl⟩ := List.mem_map.mp hMem
    exact ⟨hValid, hKey, row, hRow, by simpa using hTxid, by simpa using hWtxid⟩
  · rintro ⟨hValid, hKey, row, hRow, hTxid, hWtxid⟩
    have hSorted' : (membership.transactions.map (materializeEntry classifications)).Pairwise
        fun left right => left.txid < right.txid := by
      rw [List.pairwise_map]
      simpa using hSorted
    have hFind := findEntry_of_mem hSorted'
      (List.mem_map_of_mem (f := materializeEntry classifications) hRow)
    rw [materializeEntry_txid, hTxid] at hFind
    refine ⟨hValid, hKey, _, hFind, by simpa using hWtxid, ?_⟩
    simp [materializeEntry, hTxid, hGet]

/-- A materialized row passes its check. -/
theorem checkEntry_materialized (classifications : TransactionClassifications)
    (entry : MempoolEntry) :
    MempoolObservation.checkEntry classifications (materializeEntry classifications entry) =
      .ok () := by
  rw [MempoolObservation.checkEntry, ensure_eq_ok, materializeEntry_txid]
  cases hGet : classifications[entry.txid]? with
  | none => simp [materializeEntry, hGet]
  | some classification =>
    have hMem : classifications.contains entry.txid = true := by
      rw [Std.ExtTreeMap.contains_eq_isSome_getElem?, hGet]
      rfl
    simp [hMem]

/-- `materialize_retained` returns exactly the materialized snapshot with the
classifications it was given, when the parts are accepted, the revision is safe
and every detail record belongs to its row. -/
theorem materializeRetained_eq_ok {membership : MempoolSnapshot} {revision : Nat}
    {classifications : TransactionClassifications} {observation : MempoolObservation} :
    MempoolObservation.materializeRetained membership revision classifications =
        .ok observation ↔
      AcceptedParts membership.sourceId membership.sourceLabel membership.collectionStartedAtMs
          membership.collectionCompletedAtMs membership.collectionDurationMs membership.chainTip
          membership.transactions ∧
        revision ≤ maxSafeJsonInteger ∧
        (∀ txid classification, classifications[txid]? = some classification →
          MatchesRow membership.transactions txid classification) ∧
        observation = ⟨materializedSnapshot membership revision classifications,
          classifications⟩ := by
  unfold MempoolObservation.materializeRetained MempoolSnapshot.withClassificationRevision
    MempoolObservation.new
  simp only [bind_eq_ok, newWithCollectionWindow_eq_ok, acceptedParts_materialized,
    ensureSafeInteger_eq_ok, exists_const, checkAll_eq_ok, pure, Except.pure, Except.ok.injEq]
  constructor
  · rintro ⟨_, ⟨hAccepted, rfl⟩, _, ⟨hRevision, rfl⟩, -, hDetails, -, rfl⟩
    refine ⟨hAccepted, hRevision, fun txid classification hGet => ?_, rfl⟩
    have hDetail : MempoolObservation.checkDetail
        (materializedSnapshot membership revision classifications) (txid, classification) =
          .ok () := hDetails _ (BTreeMap.mem_toList.mpr hGet)
    exact (checkDetail_materialized hAccepted.sorted hGet).mp hDetail
  · rintro ⟨hAccepted, hRevision, hDetails, rfl⟩
    refine ⟨_, ⟨hAccepted, rfl⟩, _, ⟨hRevision, rfl⟩, hRevision, ?_, ?_, rfl⟩
    · rintro ⟨txid, classification⟩ hMem
      have hGet := BTreeMap.mem_toList.mp hMem
      exact (checkDetail_materialized hAccepted.sorted hGet).mpr (hDetails txid _ hGet)
    · intro entry hMem
      obtain ⟨row, -, rfl⟩ := List.mem_map.mp hMem
      exact checkEntry_materialized classifications row

/-- A row is what its detail record says, or says nothing. -/
def RowAgrees (classifications : TransactionClassifications) (entry : MempoolEntry) : Prop :=
  match classifications[entry.txid]? with
  | some classification =>
    entry.classifications = classification.results.map ClassificationResult.compact ∧
      entry.bip110 = some classification.assessment ∧
      entry.transactionStructure = some classification.transactionStructure ∧
      entry.wtxid = classification.wtxid
  | none => entry.classifications = [] ∧ entry.bip110 = none ∧ entry.transactionStructure = none

/-- Every row of a materialized observation agrees with its record. -/
theorem rowAgrees_materialized {membership : MempoolSnapshot} {revision : Nat}
    {classifications : TransactionClassifications} {observation : MempoolObservation}
    (h : MempoolObservation.materializeRetained membership revision classifications =
      .ok observation) {entry : MempoolEntry} (hMem : entry ∈ observation.snapshot.transactions) :
    RowAgrees classifications entry := by
  obtain ⟨hAccepted, -, hRows, rfl⟩ := materializeRetained_eq_ok.mp h
  obtain ⟨row, hRow, rfl⟩ := List.mem_map.mp hMem
  unfold RowAgrees
  rw [materializeEntry_txid]
  cases hGet : classifications[row.txid]? with
  | none => simp [materializeEntry, hGet]
  | some classification =>
    obtain ⟨-, -, other, hOther, hTxid, hWtxid⟩ := hRows _ _ hGet
    have hSame : other = row := by
      have hFound := findEntry_of_mem hAccepted.sorted hOther
      rw [hTxid, findEntry_of_mem hAccepted.sorted hRow] at hFound
      exact (Option.some.inj hFound).symm
    subst hSame
    simp [materializeEntry, hGet, hWtxid]

end MempoolAtlas.Model
