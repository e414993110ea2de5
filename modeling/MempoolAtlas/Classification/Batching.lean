import MempoolAtlas.Lib.Greedy
import MempoolAtlas.Classification.Fetched
import MempoolAtlas.Classification.Reference

/-!
# Raw batches and their estimates

The slice, the batches of a slice and the check before a batch is sent each bound the
same estimate. The first two let the first item through whatever it weighs, the third
does not, so a row is either within the third bound or its batch is never sent.

## Results

* `boundedVariants_eq` — the slice takes a greedy prefix.
* `rawTransactionBatchesLoop_spec` — what it takes is cut into batches within their bounds.
* `fetchRawTransactions_estimate` — a batch is refused unsent just when its estimate is over the
  bound.
* `batchedWithinEstimates_iff` — no batch is, just when every row taken fits one batch.
-/

namespace MempoolAtlas.Classification

open Machine Model BitcoinCrate Greedy

/-- The largest `vsize` whose estimated response fits one batch. -/
def maxBatchVsize : Nat := (maxBatchResponseBytes - estimatedJsonBytesPerResponse) / 8

/-- The rows whose estimate fits a batch. -/
theorem estimatedRawResponseBytes_le_iff (variant : ExpectedVariant) :
    estimatedRawResponseBytes variant ≤ maxBatchResponseBytes ↔ variant.vsize ≤ maxBatchVsize := by
  unfold estimatedRawResponseBytes saturatingAdd saturatingMul maxBatchVsize maxBatchResponseBytes
    estimatedJsonBytesPerResponse u64Max
  omega

/-- A batch of one row is within the bound just when the row is. -/
theorem estimatedRawBatchResponseBytes_singleton_le_iff (variant : ExpectedVariant) :
    estimatedRawBatchResponseBytes [variant] ≤ maxBatchResponseBytes ↔
      variant.vsize ≤ maxBatchVsize := by
  rw [← estimatedRawResponseBytes_le_iff]
  show saturatingAdd 0 (estimatedRawResponseBytes variant) ≤ _ ↔ _
  unfold saturatingAdd maxBatchResponseBytes u64Max
  omega

-- ---------------------------------------------------------------------------
-- The slice and the batches are greedy prefixes
-- ---------------------------------------------------------------------------

theorem boundedVariantsLoop_eq (maximumEntries : Nat) (variants bounded : List ExpectedVariant) :
    boundedVariantsLoop maximumEntries variants bounded
        (weigh estimatedRawResponseBytes bounded) =
      bounded ++ variants.take (greedyLength estimatedRawResponseBytes maximumEntries
        maxRawResponseBytesPerSlice variants bounded.length
        (weigh estimatedRawResponseBytes bounded) - bounded.length) := by
  induction variants generalizing bounded with
  | nil => simp [boundedVariantsLoop]
  | cons variant rest ih =>
    have hNonempty : bounded ≠ [] ↔ bounded.length ≠ 0 := by
      rw [ne_eq, ne_eq, List.length_eq_zero_iff]
    unfold boundedVariantsLoop greedyLength
    simp only [hNonempty]
    split
    · simp
    · split
      · simp
      · have hNext := ih (bounded ++ [variant])
        have hLater := (greedyLength_spec estimatedRawResponseBytes maximumEntries
          maxRawResponseBytesPerSlice rest (bounded ++ [variant])).1
        rw [weigh_append_singleton, List.length_append, List.length_singleton] at hNext hLater
        rw [hNext, List.append_assoc, List.singleton_append, ← List.take_succ_cons]
        congr 2
        omega

/-- The slice takes a greedy prefix. -/
theorem boundedVariants_eq (variants : List ExpectedVariant) (maximumEntries : Nat) :
    boundedVariants variants maximumEntries =
      greedy estimatedRawResponseBytes maximumEntries maxRawResponseBytesPerSlice variants :=
  boundedVariantsLoop_eq maximumEntries variants []

/-- A batch is a greedy prefix of what remains. -/
theorem rawBatchLength_eq (remaining : List ExpectedVariant) (length estimatedBytes : Nat) :
    rawBatchLength remaining length estimatedBytes =
      greedyLength estimatedRawResponseBytes rawTransactionBatchSize maxBatchResponseBytes
        remaining length estimatedBytes := by
  induction remaining generalizing length estimatedBytes with
  | nil => rfl
  | cons next rest ih => simp only [rawBatchLength, greedyLength, ih]

/-- The batch cut next, when there is one. -/
theorem nextRawTransactionBatch_eq_some {remaining batch rest : List ExpectedVariant} :
    nextRawTransactionBatch remaining = some (batch, rest) ↔
      batch ≠ [] ∧ remaining = batch ++ rest ∧ batch = greedy estimatedRawResponseBytes
        rawTransactionBatchSize maxBatchResponseBytes remaining := by
  rw [nextRawTransactionBatch, rawBatchLength_eq, splitBatch_eq_some]
  constructor
  · rintro ⟨hNonempty, rfl, rfl⟩
    exact ⟨hNonempty, (List.take_append_drop _ _).symm, rfl⟩
  · rintro ⟨hNonempty, hSplit, rfl⟩
    refine ⟨hNonempty, rfl, List.append_cancel_left (hSplit.symm.trans ?_)⟩
    exact (List.take_append_drop _ _).symm

/-- While variants remain, a batch is cut. -/
theorem nextRawTransactionBatch_isSome {remaining : List ExpectedVariant} (h : remaining ≠ []) :
    (nextRawTransactionBatch remaining).isSome := by
  obtain ⟨first, rest, rfl⟩ := List.exists_cons_of_ne_nil h
  have hFirst : [] ++ [first] <+: greedy estimatedRawResponseBytes rawTransactionBatchSize
      maxBatchResponseBytes (first :: rest) :=
    (greedy_takes_iff _ _ _ rfl).mpr ⟨by decide, Or.inl rfl⟩
  have hNonempty : greedy estimatedRawResponseBytes rawTransactionBatchSize maxBatchResponseBytes
      (first :: rest) ≠ [] := by
    intro hNil
    rw [hNil] at hFirst
    simp at hFirst
  rw [Option.isSome_iff_exists]
  exact ⟨(_, _), nextRawTransactionBatch_eq_some.mpr
    ⟨hNonempty, (List.take_append_drop _ _).symm, rfl⟩⟩

/-- A batch is one item, or its estimate is within the bound; it is never too long. -/
theorem nextRawTransactionBatch_bounds {remaining batch rest : List ExpectedVariant}
    (h : nextRawTransactionBatch remaining = some (batch, rest)) :
    batch.length ≤ rawTransactionBatchSize ∧
      ((∃ variant, batch = [variant]) ∨
        estimatedRawBatchResponseBytes batch ≤ maxBatchResponseBytes) := by
  obtain ⟨hNonempty, hSplit, hBatch⟩ := nextRawTransactionBatch_eq_some.mp h
  obtain ⟨taken, last, rfl⟩ := (List.eq_nil_or_concat' batch).resolve_left hNonempty
  have hRemaining : remaining = taken ++ last :: rest := by
    rw [hSplit, List.append_assoc, List.singleton_append]
  have hTakes := (greedy_takes_iff estimatedRawResponseBytes rawTransactionBatchSize
    maxBatchResponseBytes hRemaining).mp (by rw [← hBatch])
  refine ⟨?_, hTakes.2.imp (fun hNil => ⟨last, by rw [hNil, List.nil_append]⟩) id⟩
  rw [List.length_append, List.length_singleton]
  exact hTakes.1

-- ---------------------------------------------------------------------------
-- The batches of a slice
-- ---------------------------------------------------------------------------

/-- The loop that cuts batches. -/
def rawTransactionBatchesLoop : Nat → List ExpectedVariant → List (List ExpectedVariant)
  | 0, _ => []
  | fuel + 1, remaining =>
    match nextRawTransactionBatch remaining with
    | none => []
    | some (batch, rest) => batch :: rawTransactionBatchesLoop fuel rest

/-- The batches cut from a slice until nothing remains. -/
def rawTransactionBatches (expected : List ExpectedVariant) : List (List ExpectedVariant) :=
  rawTransactionBatchesLoop expected.length expected

/-- **The loop partitions** what it is given into batches within their bounds. -/
theorem rawTransactionBatchesLoop_spec (fuel : Nat) {remaining : List ExpectedVariant}
    (hFuel : remaining.length ≤ fuel) :
    (rawTransactionBatchesLoop fuel remaining).flatten = remaining ∧
      ∀ batch ∈ rawTransactionBatchesLoop fuel remaining, batch ≠ [] ∧
        batch.length ≤ rawTransactionBatchSize ∧ ((∃ variant, batch = [variant]) ∨
          estimatedRawBatchResponseBytes batch ≤ maxBatchResponseBytes) := by
  induction fuel generalizing remaining with
  | zero =>
    obtain rfl := List.length_eq_zero_iff.mp (Nat.le_zero.mp hFuel)
    exact ⟨rfl, fun _ hMem => (List.not_mem_nil hMem).elim⟩
  | succ fuel ih =>
    unfold rawTransactionBatchesLoop
    split
    · next hNone =>
      have hEmpty : remaining = [] := by
        by_contra hSome
        have hCut := nextRawTransactionBatch_isSome hSome
        rw [hNone] at hCut
        cases hCut
      exact ⟨hEmpty.symm, fun _ hMem => (List.not_mem_nil hMem).elim⟩
    · next batch rest hCut =>
      obtain ⟨hNonempty, rfl, -⟩ := nextRawTransactionBatch_eq_some.mp hCut
      have hShorter : rest.length ≤ fuel := by
        have hPositive := List.length_pos_iff.mpr hNonempty
        rw [List.length_append] at hFuel
        omega
      obtain ⟨hFlatten, hBatches⟩ := ih hShorter
      refine ⟨by rw [List.flatten_cons, hFlatten], List.forall_mem_cons.mpr ⟨?_, hBatches⟩⟩
      exact ⟨hNonempty, nextRawTransactionBatch_bounds hCut⟩

section Crate

variable [BitcoinCrate] [WireJson]

/-- A batch is refused unsent exactly when its estimate is over the bound. -/
theorem fetchRawTransactions_estimate (answer : BatchAnswer) (batch : List ExpectedVariant) :
    (∃ estimated maximum, fetchRawTransactions answer batch =
        .error (.batchResponseEstimateTooLarge estimated maximum)) ↔
      maxBatchResponseBytes < estimatedRawBatchResponseBytes batch := by
  simp only [fetchRawTransactions]
  split
  · next hOver => exact ⟨fun _ => hOver, fun _ => ⟨_, _, rfl⟩⟩
  · next hWithin =>
    refine ⟨?_, fun hOver => absurd hOver hWithin⟩
    rintro ⟨estimated, maximum, hError⟩
    cases answer with
    | ok => cases hError
    | error error => cases error <;> cases hError

/-- The variants a slice takes are cut, in order, into batches none of which its own
estimate holds back. -/
structure BatchedWithinEstimates (variants : List ExpectedVariant) (maximumEntries : Nat) :
    Prop where
  bounded_prefix : boundedVariants variants maximumEntries <+: variants
  bounded_nonempty : variants ≠ [] → boundedVariants variants maximumEntries ≠ []
  partition : (rawTransactionBatches (boundedVariants variants maximumEntries)).flatten =
    boundedVariants variants maximumEntries
  nonempty : ∀ batch ∈ rawTransactionBatches (boundedVariants variants maximumEntries), batch ≠ []
  length_le : ∀ batch ∈ rawTransactionBatches (boundedVariants variants maximumEntries),
    batch.length ≤ rawTransactionBatchSize
  estimate_le : ∀ batch ∈ rawTransactionBatches (boundedVariants variants maximumEntries),
    estimatedRawBatchResponseBytes batch ≤ maxBatchResponseBytes
  sent : ∀ batch ∈ rawTransactionBatches (boundedVariants variants maximumEntries),
    ∀ answer estimated maximum, fetchRawTransactions answer batch ≠
      .error (.batchResponseEstimateTooLarge estimated maximum)

/-- **Raw batching stays within its own estimates exactly when every row the slice takes
fits one batch.** -/
theorem batchedWithinEstimates_iff (variants : List ExpectedVariant)
    (maximumEntries : Nat) :
    BatchedWithinEstimates variants maximumEntries ↔
      (variants = [] ∨ 0 < maximumEntries) ∧
        ∀ taken variant rest, variants = taken ++ variant :: rest →
          Takes estimatedRawResponseBytes maximumEntries maxRawResponseBytesPerSlice taken variant →
          variant.vsize ≤ maxBatchVsize := by
  have hSpec := rawTransactionBatchesLoop_spec _
    (Nat.le_refl (boundedVariants variants maximumEntries).length)
  constructor
  · intro h
    constructor
    · by_contra hNone
      obtain ⟨hSome, hZero⟩ := not_or.mp hNone
      obtain ⟨first, rest, rfl⟩ := List.exists_cons_of_ne_nil hSome
      refine h.bounded_nonempty hSome ?_
      unfold boundedVariants boundedVariantsLoop
      rw [if_pos (by simpa using hZero)]
    · intro taken variant rest hSplit hTakes
      have hTaken := (greedy_takes_iff estimatedRawResponseBytes maximumEntries
        maxRawResponseBytesPerSlice hSplit).mpr hTakes
      rw [← boundedVariants_eq] at hTaken
      -- the row is in some batch, whose estimate covers its own
      have hMem : variant ∈ (rawTransactionBatches
          (boundedVariants variants maximumEntries)).flatten := by
        rw [h.partition]
        exact hTaken.subset (List.mem_append_right _ (List.mem_singleton_self variant))
      obtain ⟨batch, hBatch, hIn⟩ := List.mem_flatten.mp hMem
      rw [← estimatedRawBatchResponseBytes_singleton_le_iff]
      exact (weigh_singleton_le estimatedRawResponseBytes hIn).trans (h.estimate_le batch hBatch)
  · rintro ⟨hSome, hFits⟩
    have hSmall : ∀ variant ∈ boundedVariants variants maximumEntries,
        variant.vsize ≤ maxBatchVsize := by
      intro variant hMem
      obtain ⟨taken, later, hBounded⟩ := List.append_of_mem hMem
      have hPrefix : boundedVariants variants maximumEntries <+: variants := by
        rw [boundedVariants_eq]
        exact greedy_prefix ..
      obtain ⟨rest, hRest⟩ := hPrefix
      have hSplit : variants = taken ++ variant :: (later ++ rest) := by
        rw [← hRest, hBounded, List.append_assoc, List.cons_append]
      refine hFits taken variant _ hSplit ((greedy_takes_iff _ _ _ hSplit).mp ?_)
      rw [← boundedVariants_eq, hBounded]
      exact ⟨later, by simp⟩
    have hEstimates : ∀ batch ∈ rawTransactionBatches (boundedVariants variants maximumEntries),
        estimatedRawBatchResponseBytes batch ≤ maxBatchResponseBytes := by
      intro batch hBatch
      rcases (hSpec.2 batch hBatch).2.2 with ⟨variant, rfl⟩ | hWithin
      · rw [estimatedRawBatchResponseBytes_singleton_le_iff]
        refine hSmall variant (hSpec.1 ▸ ?_)
        exact List.mem_flatten.mpr ⟨[variant], hBatch, List.mem_singleton_self variant⟩
      · exact hWithin
    refine ⟨by rw [boundedVariants_eq]; exact greedy_prefix .., fun hVariants => ?_, hSpec.1,
      fun batch hBatch => (hSpec.2 batch hBatch).1, fun batch hBatch => (hSpec.2 batch hBatch).2.1,
      hEstimates, fun batch hBatch answer estimated maximum hError => ?_⟩
    · obtain ⟨first, rest, rfl⟩ := List.exists_cons_of_ne_nil hVariants
      have hFirst := (greedy_takes_iff estimatedRawResponseBytes maximumEntries
        maxRawResponseBytesPerSlice (List.nil_append (first :: rest)).symm).mpr
        ⟨hSome.resolve_left hVariants, Or.inl rfl⟩
      rw [boundedVariants_eq]
      intro hNil
      rw [hNil] at hFirst
      simp at hFirst
    · have hOver := (fetchRawTransactions_estimate answer batch).mp ⟨estimated, maximum, hError⟩
      exact absurd (hEstimates batch hBatch) (Nat.not_le.mpr hOver)

end Crate

/-- A row a membership may have, of the least `vsize` whose batch is held back. -/
def oversizedRow : MempoolEntry where
  txid := String.ofList (List.replicate 64 '0')
  wtxid := String.ofList (List.replicate 64 '1')
  vsize := maxBatchVsize + 1
  weight := 4
  feeSats := 0
  enteredAtMs := 0
  ancestorCount := 1
  ancestorVsize := maxBatchVsize + 1
  ancestorFeeSats := 0
  descendantCount := 1
  descendantVsize := maxBatchVsize + 1
  replaceable := false
  transactionStructure := none
  classifications := []
  bip110 := none

/-- A membership of that row and a payment is installed, and its first slice runs to its
report; the only batch it waits for is the row's. -/
def oversizedMoves : List Reference.Move :=
  [.install (Reference.membershipOf [oversizedRow,
      Reference.entryOf MempoolAtlas.Reference.payment]), .step 0,
    .classify (some 1), .step 1, .step 1, .step 1, .step 1, .step 1, .step 1, .answer 1 [none],
    .step 1, .step 1, .step 1]

/-- The report a call leaves with. -/
def Call.report : Call → Option ClassificationSliceReport
  | .leaving _ (.report report) => some report
  | _ => none

/-- The row is accepted, its batch is never sent, and the slice pauses with the payment
attempted and left unclassified. -/
theorem raw_batching_oversizedRow :
    MempoolEntry.newVariant oversizedRow.txid oversizedRow.wtxid oversizedRow.vsize
        oversizedRow.feeSats oversizedRow.enteredAtMs {
          weight := oversizedRow.weight, ancestorCount := oversizedRow.ancestorCount
          ancestorVsize := oversizedRow.ancestorVsize
          ancestorFeeSats := oversizedRow.ancestorFeeSats
          descendantCount := oversizedRow.descendantCount
          descendantVsize := oversizedRow.descendantVsize
          replaceable := oversizedRow.replaceable } = .ok oversizedRow ∧
      ¬ @BatchedWithinEstimates
        (MempoolAtlas.Reference.crate [MempoolAtlas.Reference.payment])
        (Reference.json [MempoolAtlas.Reference.payment.hex])
        [expectedVariant oversizedRow] maxTransactionsPerSlice ∧
      (@Reference.play (MempoolAtlas.Reference.crate [MempoolAtlas.Reference.payment])
        (Reference.json [MempoolAtlas.Reference.payment.hex]) Reference.limits
          oversizedMoves).any (fun played => (played.calls[1]?.bind Call.report).any fun report =>
            report.disposition == .paused && report.attempted == 2 && report.batchFailures == 1 &&
              report.newlyClassified == 0 && report.remaining == 0) = true := by
  let _ := MempoolAtlas.Reference.crate [MempoolAtlas.Reference.payment]
  let _ := Reference.json [MempoolAtlas.Reference.payment.hex]
  refine ⟨by decide, fun h => ?_, by decide +kernel⟩
  have hBatch : [expectedVariant oversizedRow] ∈ rawTransactionBatches
      (boundedVariants [expectedVariant oversizedRow] maxTransactionsPerSlice) := by
    decide +kernel
  have hOver : maxBatchResponseBytes <
      estimatedRawBatchResponseBytes [expectedVariant oversizedRow] := by decide +kernel
  obtain ⟨estimated, maximum, hHeld⟩ :=
    (fetchRawTransactions_estimate (.error .other) [expectedVariant oversizedRow]).mpr hOver
  exact h.sent _ hBatch (.error .other) estimated maximum hHeld

end MempoolAtlas.Classification
