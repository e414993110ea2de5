import MempoolAtlas.Lib.InsertionMap
import MempoolAtlas.Web.ViewState

/-!
# Slices of the policy view

`web/src/comparison-policy-view.ts`: the totals one pass over the rows of a
region keeps for each status, rule and signature, and the matrix row they make.
Totals of accepted snapshots stay below `Number.MAX_SAFE_INTEGER`, so the sums
are exact.

## Results

* `foldl_addTransaction` — the slice counts the rows of its region and stays sound.
* `finishSlice_totals`, `finishSlice_violating` — the finished slice answers as it was counted.
* `matrixRow_shown` — what a row shows and leaves out are the exact violations.
-/

namespace MempoolAtlas.Web

open Model

/-- The most combinations that a matrix row names. -/
def comparisonPolicyMatrixChipLimit : Nat := 3

/-- The four rows of the matrix. -/
inductive ComparisonPolicyMatrixRowKey where
  | leftOnlyLeft
  | commonLeft
  | commonRight
  | rightOnlyRight
deriving DecidableEq, Repr

/-- How many transactions, and their size. -/
structure ComparisonPolicyTotals where
  count : Nat
  vsize : Nat
deriving DecidableEq, Repr

/-- The totals of one signature. -/
structure SignatureAccumulator extends ComparisonPolicyTotals where
  signature : ViolationSignature
deriving DecidableEq, Repr

/-- A slice: the rows of one region as one side has them. -/
structure SliceSpec where
  key : ComparisonPolicyMatrixRowKey
  region : ComparisonRegionKey
  side : ComparisonSide
deriving DecidableEq, Repr

/-- What a slice has counted so far. -/
structure SliceAccumulator where
  spec : SliceSpec
  population : ComparisonPolicyTotals
  statusTotals : ComparisonPolicyStatus → ComparisonPolicyTotals
  ruleTotals : Bip110RuleId → ComparisonPolicyTotals
  signatures : InsertionMap String SignatureAccumulator

/-- The counts of a slice, its signatures ordered. -/
structure ComparisonPolicySlice where
  region : ComparisonRegionKey
  side : ComparisonSide
  population : ComparisonPolicyTotals
  statusTotals : ComparisonPolicyStatus → ComparisonPolicyTotals
  ruleTotals : Bip110RuleId → ComparisonPolicyTotals
  exactSignatures : List SignatureAccumulator
  partialSignatures : List SignatureAccumulator

/-- A slice with the totals of its signatures by key. -/
structure SliceState where
  slice : ComparisonPolicySlice
  signatureTotals : InsertionMap String ComparisonPolicyTotals

/-- How many rows have each status. -/
structure ComparisonPolicyMatrixStatusCounts where
  compatible : Nat
  violating : Nat
  indeterminate : Nat
  unclassified : Nat
deriving DecidableEq, Repr

/-- A combination of violations and how many rows have it. -/
structure ComparisonPolicyMatrixExactCombination where
  signature : ViolationSignature
  count : Nat
deriving DecidableEq, Repr

/-- The combinations a row does not name. -/
structure ComparisonPolicyMatrixExactOverflow where
  combinationCount : Nat
  transactionCount : Nat
deriving DecidableEq, Repr

/-- A row of the matrix. -/
structure ComparisonPolicyMatrixRow extends SliceSpec where
  sourceId : String
  sourceLabel : String
  populationCount : Nat
  statusCounts : ComparisonPolicyMatrixStatusCounts
  exactViolationCount : Nat
  partialViolationCount : Nat
  dominantExactCombinations : List ComparisonPolicyMatrixExactCombination
  exactCombinationOverflow : ComparisonPolicyMatrixExactOverflow
deriving DecidableEq, Repr

/-- What the left side alone holds. -/
def leftOnlySpec : SliceSpec where
  key := .leftOnlyLeft
  region := .leftOnly
  side := .left

/-- What both hold, as the left side has it. -/
def commonLeftSpec : SliceSpec where
  key := .commonLeft
  region := .common
  side := .left

/-- What both hold, as the right side has it. -/
def commonRightSpec : SliceSpec where
  key := .commonRight
  region := .common
  side := .right

/-- What the right side alone holds. -/
def rightOnlySpec : SliceSpec where
  key := .rightOnlyRight
  region := .rightOnly
  side := .right

/-- The slices, in the order of the matrix. -/
def sliceSpecs : List SliceSpec := [leftOnlySpec, commonLeftSpec, commonRightSpec, rightOnlySpec]

-- ---------------------------------------------------------------------------
-- The pass over the rows
-- ---------------------------------------------------------------------------

def emptyTotals : ComparisonPolicyTotals := ⟨0, 0⟩

/-- One transaction more. -/
def addToTotals (totals : ComparisonPolicyTotals) (transaction : MempoolEntry) :
    ComparisonPolicyTotals where
  count := totals.count + 1
  vsize := totals.vsize + transaction.vsize

/-- `addToTotals(totals[key], transaction)`. -/
def addAt {κ : Type} [DecidableEq κ] (totals : κ → ComparisonPolicyTotals) (key : κ)
    (transaction : MempoolEntry) : κ → ComparisonPolicyTotals :=
  Function.update totals key (addToTotals (totals key) transaction)

/-- A slice before it counts anything. -/
def accumulatorFor (spec : SliceSpec) : SliceAccumulator where
  spec
  population := emptyTotals
  statusTotals _ := emptyTotals
  ruleTotals _ := emptyTotals
  signatures := .empty

/-- The status of an assessment. -/
def ComparisonPolicyStatus.ofStatus : Bip110Status → ComparisonPolicyStatus
  | .compatible => .compatible
  | .violating => .violating
  | .indeterminate => .indeterminate

/-- The status of a row; one without an assessment is unclassified. -/
def policyStatus (transaction : MempoolEntry) : ComparisonPolicyStatus :=
  match transaction.bip110 with
  | none => .unclassified
  | some assessment => .ofStatus assessment.status

/-- The accumulator of a signature, made by its first transaction. -/
def addSignature (signature : ViolationSignature) (transaction : MempoolEntry) :
    Option SignatureAccumulator → SignatureAccumulator
  | none => { signature, count := 1, vsize := transaction.vsize }
  | some totals => { addToTotals totals.toComparisonPolicyTotals transaction with
      signature := totals.signature }

/-- `addTransaction`: a row counts in its slice, its status, its rules and its signature. -/
def addTransaction (accumulator : SliceAccumulator) (transaction : MempoolEntry) :
    SliceAccumulator :=
  let counted := { accumulator with
    population := addToTotals accumulator.population transaction
    statusTotals := addAt accumulator.statusTotals (policyStatus transaction) transaction }
  match transaction.bip110 with
  | none => counted
  | some assessment =>
    let ruled := { counted with
      ruleTotals := assessment.violatedRules.foldl
        (fun totals rule => addAt totals rule transaction) counted.ruleTotals }
    match violationSignature assessment with
    | none => ruled
    | some signature => { ruled with
        signatures := ruled.signatures.upsert signature.key (addSignature signature transaction) }

/-- The row a slice needs; an entry without it is an error. -/
def requiredTransaction (entry : ComparedTransaction) (spec : SliceSpec) :
    Except String MempoolEntry :=
  match sourceEntry entry spec.side with
  | none => .error ("Comparison policy slice " ++ regionName spec.region ++ "/" ++
      sideName spec.side ++ " is missing its source entry")
  | some transaction => .ok transaction

-- ---------------------------------------------------------------------------
-- Slices and rows
-- ---------------------------------------------------------------------------

/-- `finishSlice`: the signatures are ordered, exact ones apart from partial ones. -/
def finishSlice (collation : Collation) (accumulator : SliceAccumulator) : SliceState :=
  let signatures := accumulator.signatures.values.mergeSort fun left right =>
    (compareViolationSignatures collation left.signature right.signature).isLE
  { slice := {
      region := accumulator.spec.region
      side := accumulator.spec.side
      population := accumulator.population
      statusTotals := accumulator.statusTotals
      ruleTotals := accumulator.ruleTotals
      exactSignatures := signatures.filter fun bucket => bucket.signature.completeness = .exact
      partialSignatures :=
        signatures.filter fun bucket => bucket.signature.completeness = .partialRules }
    signatureTotals := .ofList (signatures.map fun bucket =>
      (bucket.signature.key, bucket.toComparisonPolicyTotals)) }

/-- The largest count first, then by label. -/
def compareCombinations (collation : Collation)
    (left right : ComparisonPolicyMatrixExactCombination) : Ordering :=
  (compare right.count left.count).then
    (collation.compare left.signature.key right.signature.key)

/-- The source of a side. -/
def sourceOf (comparison : CurrentComparison) : ComparisonSide → SourceSummary
  | .left => comparison.left.source
  | .right => comparison.right.source

/-- The row of the matrix that a slice makes. -/
def matrixRow (collation : Collation) (comparison : CurrentComparison) (spec : SliceSpec)
    (slice : ComparisonPolicySlice) : ComparisonPolicyMatrixRow :=
  let combinations := (slice.exactSignatures.map fun bucket =>
    ComparisonPolicyMatrixExactCombination.mk bucket.signature bucket.count).mergeSort
      fun left right => (compareCombinations collation left right).isLE
  let hiddenCombinations := combinations.drop comparisonPolicyMatrixChipLimit
  let source := sourceOf comparison spec.side
  { spec with
    sourceId := source.sourceId
    sourceLabel := source.sourceLabel
    populationCount := slice.population.count
    statusCounts := {
      compatible := (slice.statusTotals .compatible).count
      violating := (slice.statusTotals .violating).count
      indeterminate := (slice.statusTotals .indeterminate).count
      unclassified := (slice.statusTotals .unclassified).count }
    exactViolationCount := (slice.exactSignatures.map (·.count)).sum
    partialViolationCount := (slice.partialSignatures.map (·.count)).sum
    dominantExactCombinations := combinations.take comparisonPolicyMatrixChipLimit
    exactCombinationOverflow := {
      combinationCount := hiddenCombinations.length
      transactionCount := (hiddenCombinations.map (·.count)).sum } }

/-- Whether a row matches a filter. -/
def filterMatches (transaction : MempoolEntry) : ComparisonPolicyFilter → Bool
  | .all => true
  | .status status => policyStatus transaction = status
  | .rule rule => match transaction.bip110 with
    | none => false
    | some assessment => assessment.violatedRules.contains rule
  | .signature signature => match transaction.bip110 with
    | none => false
    | some assessment => (violationSignature assessment).map (·.key) = some signature

-- ---------------------------------------------------------------------------
-- What the pass counts
-- ---------------------------------------------------------------------------

/-- The totals of rows counted at once. -/
def populationOf (rows : List MempoolEntry) : ComparisonPolicyTotals where
  count := rows.length
  vsize := (rows.map MempoolEntry.vsize).sum

/-- The totals a filter is answered from. -/
def SliceAccumulator.totals (accumulator : SliceAccumulator) :
    ComparisonPolicyFilter → ComparisonPolicyTotals
  | .all => accumulator.population
  | .status status => accumulator.statusTotals status
  | .rule rule => accumulator.ruleTotals rule
  | .signature signature =>
    ((accumulator.signatures.get? signature).map (·.toComparisonPolicyTotals)).getD emptyTotals

/-- Totals count the rows and sum their sizes. -/
theorem foldl_addToTotals (rows : List MempoolEntry) (totals : ComparisonPolicyTotals) :
    rows.foldl addToTotals totals =
      ⟨totals.count + rows.length, totals.vsize + (rows.map MempoolEntry.vsize).sum⟩ := by
  induction rows generalizing totals with
  | nil => rfl
  | cons row rest ih =>
    rw [List.foldl_cons, ih]
    simp only [addToTotals, List.length_cons, List.map_cons, List.sum_cons,
      ComparisonPolicyTotals.mk.injEq]
    omega

theorem addAt_apply {κ : Type} [DecidableEq κ] (totals : κ → ComparisonPolicyTotals) (key k : κ)
    (transaction : MempoolEntry) :
    addAt totals key transaction k =
      if key = k then addToTotals (totals k) transaction else totals k := by
  unfold addAt
  by_cases h : key = k
  · subst h
    rw [Function.update_self, if_pos rfl]
  · rw [Function.update_of_ne (Ne.symm h), if_neg h]

/-- Each rule once, so each of its totals once. -/
theorem foldl_addAt_apply (rules : List Bip110RuleId) (hNodup : rules.Nodup)
    (totals : Bip110RuleId → ComparisonPolicyTotals) (transaction : MempoolEntry)
    (rule : Bip110RuleId) :
    rules.foldl (fun totals rule => addAt totals rule transaction) totals rule =
      if rule ∈ rules then addToTotals (totals rule) transaction else totals rule := by
  induction rules generalizing totals with
  | nil => rfl
  | cons first rest ih =>
    obtain ⟨hNew, hRest⟩ := List.nodup_cons.mp hNodup
    rw [List.foldl_cons, ih hRest, addAt_apply]
    by_cases hSame : first = rule
    · subst hSame
      rw [if_neg hNew, if_pos rfl, if_pos List.mem_cons_self]
    · have hMem : rule ∈ first :: rest ↔ rule ∈ rest := by
        rw [List.mem_cons]
        exact or_iff_right (Ne.symm hSame)
      rw [if_neg hSame]
      simp only [hMem]

/-- A signature goes with a violation. -/
theorem violationSignature_eq_none {assessment : Bip110Assessment} :
    violationSignature assessment = none ↔ assessment.status ≠ .violating := by
  unfold violationSignature
  split
  · next h => exact iff_of_true rfl h
  · next h => exact iff_of_false (fun hNone => nomatch hNone) h

section Step

variable (accumulator : SliceAccumulator) (transaction : MempoolEntry)

theorem addTransaction_spec : (addTransaction accumulator transaction).spec = accumulator.spec := by
  unfold addTransaction
  dsimp only
  split
  · rfl
  · split <;> rfl

theorem addTransaction_population : (addTransaction accumulator transaction).population =
    addToTotals accumulator.population transaction := by
  unfold addTransaction
  dsimp only
  split
  · rfl
  · split <;> rfl

theorem addTransaction_statusTotals : (addTransaction accumulator transaction).statusTotals =
    addAt accumulator.statusTotals (policyStatus transaction) transaction := by
  unfold addTransaction
  dsimp only
  split
  · rfl
  · split <;> rfl

theorem addTransaction_ruleTotals : (addTransaction accumulator transaction).ruleTotals =
    ((transaction.bip110.map (·.violatedRules)).getD []).foldl
      (fun totals rule => addAt totals rule transaction) accumulator.ruleTotals := by
  unfold addTransaction
  dsimp only
  split
  · next hNone => rw [hNone]; rfl
  · next hSome => split <;> rw [hSome] <;> rfl

theorem addTransaction_signatures : (addTransaction accumulator transaction).signatures =
    match transaction.bip110.bind violationSignature with
    | none => accumulator.signatures
    | some signature =>
      accumulator.signatures.upsert signature.key (addSignature signature transaction) := by
  unfold addTransaction
  dsimp only
  split
  · next hNone => rw [hNone]; rfl
  · next hSome => split <;> next hSignature => rw [hSome, Option.bind_some, hSignature]

end Step

/-- Adding a transaction counts it for the filters it matches. -/
theorem totals_addTransaction {transaction : MempoolEntry}
    (hNodup : ∀ assessment ∈ transaction.bip110, assessment.violatedRules.Nodup)
    (accumulator : SliceAccumulator) (filter : ComparisonPolicyFilter) :
    (addTransaction accumulator transaction).totals filter =
      if filterMatches transaction filter then addToTotals (accumulator.totals filter) transaction
      else accumulator.totals filter := by
  cases filter with
  | all => exact addTransaction_population accumulator transaction
  | status status =>
    show (addTransaction accumulator transaction).statusTotals status = _
    rw [addTransaction_statusTotals, addAt_apply]
    simp only [filterMatches, decide_eq_true_eq]
    rfl
  | rule rule =>
    show (addTransaction accumulator transaction).ruleTotals rule = _
    rw [addTransaction_ruleTotals]
    cases hBip110 : transaction.bip110 with
    | none => simp [filterMatches, hBip110, SliceAccumulator.totals]
    | some assessment =>
      rw [Option.map_some, Option.getD_some, foldl_addAt_apply _ (hNodup assessment hBip110)]
      simp only [filterMatches, hBip110, List.contains_iff_mem]
      rfl
  | signature key =>
    show (((addTransaction accumulator transaction).signatures.get? key).map _).getD _ = _
    rw [addTransaction_signatures]
    cases hBip110 : transaction.bip110 with
    | none => simp [filterMatches, hBip110, SliceAccumulator.totals]
    | some assessment =>
      rw [Option.bind_some]
      cases hSignature : violationSignature assessment with
      | none => simp [filterMatches, hBip110, hSignature, SliceAccumulator.totals]
      | some signature =>
        dsimp only
        rw [InsertionMap.get?_upsert]
        by_cases hSame : signature.key = key
        · subst hSame
          simp only [filterMatches, hBip110, hSignature, Option.map_some, decide_true, if_true,
            Option.getD_some, SliceAccumulator.totals]
          cases accumulator.signatures.get? signature.key with
          | none =>
            simp [addSignature, addToTotals, emptyTotals]
          | some totals => rfl
        · simp [filterMatches, hBip110, hSignature, SliceAccumulator.totals, hSame]

/-- What the pass keeps true of an accumulator. -/
structure SliceAccumulator.Sound (accumulator : SliceAccumulator) : Prop where
  keyed : ∀ key bucket, accumulator.signatures.get? key = some bucket → bucket.signature.key = key
  statuses : (accumulator.statusTotals .compatible).count +
    (accumulator.statusTotals .violating).count + (accumulator.statusTotals .indeterminate).count +
      (accumulator.statusTotals .unclassified).count = accumulator.population.count
  buckets : (accumulator.signatures.values.map fun bucket => bucket.count).sum =
    (accumulator.statusTotals .violating).count

/-- An empty slice is sound. -/
theorem accumulatorFor_sound (spec : SliceSpec) : (accumulatorFor spec).Sound where
  keyed _ _ h := nomatch h
  statuses := rfl
  buckets := rfl

theorem count_addAt {κ : Type} [DecidableEq κ] (totals : κ → ComparisonPolicyTotals) (key k : κ)
    (transaction : MempoolEntry) :
    (addAt totals key transaction k).count = (totals k).count + if key = k then 1 else 0 := by
  rw [addAt_apply]
  split <;> rfl

theorem ofStatus_eq_violating {status : Bip110Status} :
    ComparisonPolicyStatus.ofStatus status = .violating ↔ status = .violating := by
  cases status <;> decide

/-- A row is violating just when it has a signature. -/
theorem policyStatus_violating {transaction : MempoolEntry} :
    policyStatus transaction = .violating ↔
      (transaction.bip110.bind violationSignature).isSome = true := by
  unfold policyStatus
  cases transaction.bip110 with
  | none => exact iff_of_false (fun h => nomatch h) (fun h => nomatch h)
  | some assessment =>
    rw [Option.bind_some, Option.isSome_iff_ne_none, Ne, violationSignature_eq_none, not_not]
    exact ofStatus_eq_violating

theorem addSignature_count (signature : ViolationSignature) (transaction : MempoolEntry)
    (bucket : Option SignatureAccumulator) :
    (addSignature signature transaction bucket).count =
      (bucket.map fun bucket => bucket.count).getD 0 + 1 := by
  cases bucket <;> rfl

/-- **One more row keeps the slice sound.** -/
theorem addTransaction_sound {accumulator : SliceAccumulator} (h : accumulator.Sound)
    (transaction : MempoolEntry) : (addTransaction accumulator transaction).Sound := by
  have hViolating := @policyStatus_violating transaction
  refine ⟨?_, ?_, ?_⟩
  · intro key bucket hBucket
    rw [addTransaction_signatures] at hBucket
    split at hBucket
    · exact h.keyed key bucket hBucket
    · next signature _ =>
      rw [InsertionMap.get?_upsert] at hBucket
      split at hBucket
      · next hSame =>
        obtain rfl := Option.some.inj hBucket
        cases hOld : accumulator.signatures.get? signature.key with
        | none => exact hSame
        | some old => exact (h.keyed _ old hOld).trans hSame
      · exact h.keyed key bucket hBucket
  · rw [addTransaction_statusTotals, addTransaction_population]
    have hOld := h.statuses
    simp only [count_addAt, addToTotals]
    cases policyStatus transaction <;> simp <;> omega
  · rw [addTransaction_statusTotals, addTransaction_signatures, count_addAt, ← h.buckets]
    split
    · next hNone =>
      rw [hNone] at hViolating
      rw [if_neg fun hStatus => by cases hViolating.mp hStatus]
      rfl
    · next signature hSome =>
      rw [hSome] at hViolating
      rw [if_pos (hViolating.mpr rfl)]
      exact InsertionMap.sum_upsertEntries (fun bucket : SignatureAccumulator => bucket.count)
        signature.key _ accumulator.signatures.distinct (addSignature_count signature transaction _)

/-- What the pass has counted after the rows. -/
structure SliceAccumulator.Counts (accumulator : SliceAccumulator) (rows : List MempoolEntry) :
    Prop extends accumulator.Sound where
  totals : ∀ filter, accumulator.totals filter =
    populationOf (rows.filter fun row => filterMatches row filter)

/-- **A list of rows**: the slice counts them, and stays sound. -/
theorem foldl_addTransaction (spec : SliceSpec) {rows : List MempoolEntry}
    (hNodup : ∀ row ∈ rows, ∀ assessment ∈ row.bip110, assessment.violatedRules.Nodup) :
    (rows.foldl addTransaction (accumulatorFor spec)).Counts rows ∧
      (rows.foldl addTransaction (accumulatorFor spec)).spec = spec := by
  have hRun : ∀ accumulator : SliceAccumulator, accumulator.Sound →
      (rows.foldl addTransaction accumulator).Sound ∧
        (rows.foldl addTransaction accumulator).spec = accumulator.spec ∧
        ∀ filter, (rows.foldl addTransaction accumulator).totals filter =
          (rows.filter fun row => filterMatches row filter).foldl addToTotals
            (accumulator.totals filter) := by
    induction rows with
    | nil => exact fun _ hSound => ⟨hSound, rfl, fun _ => rfl⟩
    | cons row rest ih =>
      intro accumulator hSound
      obtain ⟨hNext, hSpec, hTotals⟩ := ih (fun other hMem => hNodup other (List.mem_cons_of_mem _ hMem))
        (addTransaction accumulator row) (addTransaction_sound hSound row)
      refine ⟨hNext, hSpec.trans (addTransaction_spec accumulator row), fun filter => ?_⟩
      rw [List.foldl_cons, hTotals, totals_addTransaction (hNodup row List.mem_cons_self),
        List.filter_cons]
      split <;> rfl
  obtain ⟨hSound, hSpec, hTotals⟩ := hRun (accumulatorFor spec) (accumulatorFor_sound spec)
  refine ⟨⟨hSound, fun filter => ?_⟩, hSpec⟩
  have hStart : (accumulatorFor spec).totals filter = emptyTotals := by
    cases filter <;> rfl
  rw [hTotals, hStart, foldl_addToTotals, populationOf, emptyTotals, Nat.zero_add, Nat.zero_add]

-- ---------------------------------------------------------------------------
-- What a slice answers
-- ---------------------------------------------------------------------------

/-- The totals `population` reads for a filter. -/
def SliceState.totals (state : SliceState) : ComparisonPolicyFilter → ComparisonPolicyTotals
  | .all => state.slice.population
  | .status status => state.slice.statusTotals status
  | .rule rule => state.slice.ruleTotals rule
  | .signature signature => (state.signatureTotals.get? signature).getD emptyTotals

/-- Exact and partial signatures together are all of them. -/
theorem sum_filter_completeness (buckets : List SignatureAccumulator) :
    ((buckets.filter fun bucket => bucket.signature.completeness = .exact).map (·.count)).sum +
        ((buckets.filter fun bucket =>
          bucket.signature.completeness = .partialRules).map (·.count)).sum =
      (buckets.map fun bucket => bucket.count).sum := by
  induction buckets with
  | nil => rfl
  | cons bucket rest ih =>
    rw [List.filter_cons, List.filter_cons, List.map_cons, List.sum_cons, ← ih]
    cases bucket.signature.completeness <;> simp <;> omega

section Finish

variable (collation : Collation) {accumulator : SliceAccumulator}

/-- Sorting the buckets and keying them again changes no answer. -/
theorem finishSlice_totals (h : accumulator.Sound) (filter : ComparisonPolicyFilter) :
    (finishSlice collation accumulator).totals filter = accumulator.totals filter := by
  cases filter with
  | all => rfl
  | status => rfl
  | rule => rfl
  | signature key =>
    have hPerm := List.mergeSort_perm accumulator.signatures.values fun left right =>
      (compareViolationSignatures collation left.signature right.signature).isLE
    have hKeys : accumulator.signatures.values.map (fun bucket => bucket.signature.key) =
        accumulator.signatures.keys := by
      unfold InsertionMap.values InsertionMap.keys
      rw [List.map_map]
      refine List.map_congr_left fun entry hMem => ?_
      exact h.keyed _ _ (InsertionMap.get?_eq_some_iff.mpr hMem)
    have hNodup : (((accumulator.signatures.values.mergeSort fun left right =>
        (compareViolationSignatures collation left.signature right.signature).isLE).map
          fun bucket => (bucket.signature.key, bucket.toComparisonPolicyTotals)).map
            Prod.fst).Nodup := by
      rw [List.map_map]
      refine (hPerm.map _).nodup_iff.mpr ?_
      exact hKeys ▸ accumulator.signatures.distinct
    show ((InsertionMap.ofList _).get? key).getD _ = _
    rw [InsertionMap.get?_ofList hNodup]
    refine congrArg (Option.getD · emptyTotals) (Option.ext fun totals => ?_)
    rw [InsertionMap.lookup_eq_some_iff hNodup, List.mem_map, Option.map_eq_some_iff]
    constructor
    · rintro ⟨bucket, hMem, hSame⟩
      obtain ⟨rfl, rfl⟩ := Prod.mk.inj hSame
      obtain ⟨found, hFound⟩ := InsertionMap.mem_values_iff.mp (hPerm.mem_iff.mp hMem)
      exact ⟨bucket, h.keyed found bucket hFound ▸ hFound, rfl⟩
    · rintro ⟨bucket, hFound, rfl⟩
      refine ⟨bucket, hPerm.mem_iff.mpr (InsertionMap.mem_values_iff.mpr ⟨key, hFound⟩), ?_⟩
      rw [h.keyed key bucket hFound]

/-- The exact and the partial buckets hold the violating rows. -/
theorem finishSlice_violating (h : accumulator.Sound) :
    ((finishSlice collation accumulator).slice.exactSignatures.map (·.count)).sum +
        ((finishSlice collation accumulator).slice.partialSignatures.map (·.count)).sum =
      (accumulator.statusTotals .violating).count := by
  rw [← h.buckets]
  exact (sum_filter_completeness _).trans ((List.mergeSort_perm _ _).map _).sum_eq

/-- What a row shows and what it leaves out are the exact violations. -/
theorem matrixRow_shown (comparison : CurrentComparison) (spec : SliceSpec)
    (slice : ComparisonPolicySlice) :
    ((matrixRow collation comparison spec slice).dominantExactCombinations.map (·.count)).sum +
        (matrixRow collation comparison spec slice).exactCombinationOverflow.transactionCount =
      (matrixRow collation comparison spec slice).exactViolationCount := by
  unfold matrixRow
  dsimp only
  rw [← List.sum_append, ← List.map_append, List.take_append_drop,
    ((List.mergeSort_perm _ _).map _).sum_eq, List.map_map]
  rfl

end Finish

end MempoolAtlas.Web
