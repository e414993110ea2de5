import MempoolAtlas.Lib.BoundedSample
import MempoolAtlas.Lib.Texts
import MempoolAtlas.Web.Accepted
import MempoolAtlas.Web.PolicySlices

/-!
# The policy view of a comparison

`ComparisonPolicyView` of `web/src/comparison-policy-view.ts`: the four slices
and matrix rows it is built with, and the populations it answers from them with
a sample of their entries, kept under the filter's key from then on.

## Results

* `filterKey_inj` — the key of a filter names it.
* `population_eq` — one call answers with the plain population.
* `comparison_policy_view` — so do any calls over two accepted snapshots, and the rows add up.
-/

namespace MempoolAtlas.Web

open Checks Model Texts

/-- `COMPARISON_POLICY_SAMPLE_LIMIT`: the most transactions a population shows. -/
def comparisonPolicySampleLimit : Nat := 12

/-- The population of a filter: its totals and the sample it shows. -/
structure ComparisonPolicyPopulation extends ComparisonPolicyTotals where
  sample : List ComparedTransaction
deriving DecidableEq, Repr

/-- The view: its rows, the counted slices and the populations answered so far. -/
structure ComparisonPolicyView where
  comparison : CurrentComparison
  rows : List ComparisonPolicyMatrixRow
  slices : InsertionMap String SliceState
  populations : InsertionMap String ComparisonPolicyPopulation

-- ---------------------------------------------------------------------------
-- Keys
-- ---------------------------------------------------------------------------

/-- The key of a slice; a region held by one side has one. -/
def sliceKey (region : ComparisonRegionKey) (side : ComparisonSide) : String :=
  regionName region ++ ":" ++ sideName (policySideForRegion region side)

/-- The key of a filter. -/
def filterKey : ComparisonPolicyFilter → String
  | .all => "all"
  | .status status => "status:" ++ policyStatusName status
  | .rule rule => "rule:" ++ ruleIdName rule
  | .signature signature => "signature:" ++ signature

/-- The key of a cached population. -/
def populationKey (region : ComparisonRegionKey) (side : ComparisonSide)
    (filter : ComparisonPolicyFilter) : String :=
  sliceKey region side ++ ":" ++ filterKey filter

-- ---------------------------------------------------------------------------
-- Samples
-- ---------------------------------------------------------------------------

/-- The largest transactions first, then by identifier. -/
def compareSampleEntries (collation : Collation) (side : ComparisonSide)
    (left right : ComparedTransaction) : Ordering :=
  (compare (sideVsize side right) (sideVsize side left)).then
    (collation.compare left.txid right.txid)

/-- `compareSampleEntries(left, right, side) <= 0`. -/
def notAfter (collation : Collation) (side : ComparisonSide) (left right : ComparedTransaction) :
    Bool :=
  (compareSampleEntries collation side left right).isLE

/-- The sample keeps the first transactions in that order. -/
def addToBoundedSample (collation : Collation) (side : ComparisonSide) :
    List ComparedTransaction → ComparedTransaction → List ComparedTransaction :=
  BoundedSample.add (notAfter collation side) comparisonPolicySampleLimit

/-- Whether the entry's transaction on a side matches. -/
def selects (side : ComparisonSide) (filter : ComparisonPolicyFilter)
    (entry : ComparedTransaction) : Bool :=
  match sourceEntry entry side with
  | none => false
  | some transaction => filterMatches transaction filter

/-- The scan of a region's entries. -/
def sampleOf (collation : Collation) (side : ComparisonSide) (filter : ComparisonPolicyFilter)
    (entries : List ComparedTransaction) : List ComparedTransaction :=
  entries.foldl (fun sample entry =>
    if selects side filter entry then addToBoundedSample collation side sample entry else sample) []

-- ---------------------------------------------------------------------------
-- The view
-- ---------------------------------------------------------------------------

/-- An entry counts on its slice's side, which must hold it. -/
def addRequired (spec : SliceSpec) (accumulator : SliceAccumulator)
    (entry : ComparedTransaction) : Except String SliceAccumulator := do
  return addTransaction accumulator (← requiredTransaction entry spec)

/-- One common entry counts on both sides. -/
def addCommon (accumulators : SliceAccumulator × SliceAccumulator)
    (entry : ComparedTransaction) : Except String (SliceAccumulator × SliceAccumulator) := do
  let commonLeft ← addRequired commonLeftSpec accumulators.1 entry
  let commonRight ← addRequired commonRightSpec accumulators.2 entry
  return (commonLeft, commonRight)

/-- The message for a slice that was not built. -/
def missingSlice (region : ComparisonRegionKey) (side : ComparisonSide) : String :=
  "Missing comparison policy slice " ++ regionName region ++ "/" ++ sideName side

/-- The state of a slice. -/
def sliceState (slices : InsertionMap String SliceState) (region : ComparisonRegionKey)
    (side : ComparisonSide) : Except String SliceState :=
  match slices.get? (sliceKey region side) with
  | none => .error (missingSlice region side)
  | some state => .ok state

/-- The constructor. -/
def buildComparisonPolicyView (collation : Collation) (comparison : CurrentComparison) :
    Except String ComparisonPolicyView := do
  let leftOnly ← comparison.leftOnly.foldlM (addRequired leftOnlySpec) (accumulatorFor leftOnlySpec)
  let (commonLeft, commonRight) ← comparison.common.foldlM addCommon
    (accumulatorFor commonLeftSpec, accumulatorFor commonRightSpec)
  let rightOnly ← comparison.rightOnly.foldlM (addRequired rightOnlySpec)
    (accumulatorFor rightOnlySpec)
  let slices := [leftOnly, commonLeft, commonRight, rightOnly].foldl
    (fun slices accumulator => slices.set (sliceKey accumulator.spec.region accumulator.spec.side)
      (finishSlice collation accumulator)) InsertionMap.empty
  let rows ← sliceSpecs.mapM fun spec => do
    let state ← sliceState slices spec.region spec.side
    return matrixRow collation comparison spec state.slice
  return { comparison, rows, slices, populations := .empty }

/-- `population`, with the view it leaves. -/
def ComparisonPolicyView.population (collation : Collation) (view : ComparisonPolicyView)
    (region : ComparisonRegionKey) (side : ComparisonSide) (filter : ComparisonPolicyFilter) :
    Except String (ComparisonPolicyPopulation × ComparisonPolicyView) :=
  let effectiveSide := policySideForRegion region side
  let key := populationKey region effectiveSide filter
  match view.populations.get? key with
  | some cached => .ok (cached, view)
  | none => do
    let state ← sliceState view.slices region effectiveSide
    let totals := state.totals filter
    let population :=
      if totals.count = 0 then { count := 0, vsize := 0, sample := [] }
      else { totals with
        sample := sampleOf collation effectiveSide filter (view.comparison.entries region) }
    return (population, { view with populations := view.populations.set key population })

/-- A call of `population` for its effect on the view alone. -/
def callPopulation (collation : Collation) (view : ComparisonPolicyView)
    (call : ComparisonRegionKey × ComparisonSide × ComparisonPolicyFilter) :
    Except String ComparisonPolicyView := do
  let answered ← view.population collation call.1 call.2.1 call.2.2
  return answered.2

-- ---------------------------------------------------------------------------
-- Keys tell the questions apart
-- ---------------------------------------------------------------------------

theorem regionName_not_colon (region : ComparisonRegionKey) : ':' ∉ (regionName region).toList := by
  cases region <;> decide

theorem sideName_not_colon (side : ComparisonSide) : ':' ∉ (sideName side).toList := by
  cases side <;> decide

theorem regionName_inj {region region' : ComparisonRegionKey}
    (h : regionName region = regionName region') : region = region' := by
  have hRead := comparisonRegion_name (some region)
  rw [Option.map_some, h] at hRead
  exact Option.some.inj (hRead.symm.trans (comparisonRegion_name (some region')))

theorem sideName_inj {side side' : ComparisonSide} (h : sideName side = sideName side') :
    side = side' := by
  have hRead := comparisonSide_name (some side)
  rw [Option.map_some, h] at hRead
  exact Option.some.inj (hRead.symm.trans (comparisonSide_name (some side')))

theorem policyStatusName_inj {status status' : ComparisonPolicyStatus}
    (h : policyStatusName status = policyStatusName status') : status = status' := by
  have hRead := comparisonPolicyStatus_name status
  rw [h, comparisonPolicyStatus_name] at hRead
  exact (Option.some.inj hRead).symm

theorem ruleIdName_inj {rule rule' : Bip110RuleId} (h : ruleIdName rule = ruleIdName rule') :
    rule = rule' := by
  have hRead := ruleId_ruleIdName rule
  rw [h, ruleId_ruleIdName] at hRead
  exact (Option.some.inj hRead).symm

/-- The kind and the payload of a filter that has one. -/
def filterParts : ComparisonPolicyFilter → Option (String × String)
  | .all => none
  | .status status => some ("status", policyStatusName status)
  | .rule rule => some ("rule", ruleIdName rule)
  | .signature signature => some ("signature", signature)

theorem cutColon_filterKey (filter : ComparisonPolicyFilter) :
    cutColon (filterKey filter) = filterParts filter := by
  have hStatus : "status:" = "status" ++ ":" := by decide
  have hRule : "rule:" = "rule" ++ ":" := by decide
  have hSignature : "signature:" = "signature" ++ ":" := by decide
  cases filter with
  | all => decide
  | status status => rw [filterKey, hStatus, cutColon_append (by decide)]; rfl
  | rule rule => rw [filterKey, hRule, cutColon_append (by decide)]; rfl
  | signature signature => rw [filterKey, hSignature, cutColon_append (by decide)]; rfl

/-- The key of a filter names it. -/
theorem filterKey_inj {filter filter' : ComparisonPolicyFilter}
    (h : filterKey filter = filterKey filter') : filter = filter' := by
  have hParts := congrArg cutColon h
  rw [cutColon_filterKey, cutColon_filterKey] at hParts
  cases filter <;> cases filter' <;> simp [filterParts] at hParts
  · rfl
  · exact congrArg _ (ruleIdName_inj hParts)
  · exact congrArg _ (policyStatusName_inj hParts)
  · exact congrArg _ hParts

/-- The key of a slice names its region and the side that counts. -/
theorem sliceKey_inj {region region' : ComparisonRegionKey} {side side' : ComparisonSide}
    (h : sliceKey region side = sliceKey region' side') :
    region = region' ∧ policySideForRegion region side = policySideForRegion region' side' := by
  obtain ⟨hRegion, hSide⟩ :=
    colon_inj (regionName_not_colon region) (regionName_not_colon region') h
  exact ⟨regionName_inj hRegion, sideName_inj hSide⟩

/-- The key of a population names the region, the side looked at and the filter. -/
theorem populationKey_inj {region region' : ComparisonRegionKey} {side side' : ComparisonSide}
    {filter filter' : ComparisonPolicyFilter}
    (h : populationKey region side filter = populationKey region' side' filter') :
    region = region' ∧ policySideForRegion region side = policySideForRegion region' side' ∧
      filter = filter' := by
  unfold populationKey sliceKey at h
  simp only [String.append_assoc] at h
  obtain ⟨hRegion, hRest⟩ := colon_inj (regionName_not_colon region)
    (regionName_not_colon region') (by simpa only [String.append_assoc] using h)
  obtain ⟨hSide, hFilter⟩ := colon_inj (sideName_not_colon _) (sideName_not_colon _)
    (by simpa only [String.append_assoc] using hRest)
  exact ⟨regionName_inj hRegion, sideName_inj hSide, filterKey_inj hFilter⟩

-- ---------------------------------------------------------------------------
-- The entries of a region
-- ---------------------------------------------------------------------------

/-- The rows of a side. -/
def sideRows (comparison : CurrentComparison) : ComparisonSide → List MempoolEntry
  | .left => comparison.left.snapshot.transactions
  | .right => comparison.right.snapshot.transactions

/-- An entry has a row, with its txid, on the side its region is looked at from. -/
theorem PartitionsUnion.source {comparison : CurrentComparison} (h : PartitionsUnion comparison)
    {region : ComparisonRegionKey} {side : ComparisonSide}
    (hSide : policySideForRegion region side = side) {entry : ComparedTransaction}
    (hMem : entry ∈ comparison.entries region) :
    ∃ row ∈ sideRows comparison side, sourceEntry entry side = some row ∧ row.txid = entry.txid := by
  cases region with
  | common =>
    obtain ⟨left, hLeft, right, hRight, hSame, rfl⟩ := (h.common entry).mp hMem
    cases side with
    | left => exact ⟨left, hLeft, rfl, rfl⟩
    | right => exact ⟨right, hRight, rfl, hSame.symm⟩
  | leftOnly =>
    obtain ⟨left, hLeft, -, rfl⟩ := (h.leftOnly entry).mp hMem
    obtain rfl : ComparisonSide.left = side := hSide
    exact ⟨left, hLeft, rfl, rfl⟩
  | rightOnly =>
    obtain ⟨right, hRight, -, rfl⟩ := (h.rightOnly entry).mp hMem
    obtain rfl : ComparisonSide.right = side := hSide
    exact ⟨right, hRight, rfl, rfl⟩

/-- The rows a region has on a side. -/
def regionRows (comparison : CurrentComparison) (region : ComparisonRegionKey)
    (side : ComparisonSide) : List MempoolEntry :=
  (comparison.entries region).filterMap fun entry => sourceEntry entry side

theorem populationOf_filterMap (side : ComparisonSide) (filter : ComparisonPolicyFilter)
    (entries : List ComparedTransaction) :
    populationOf ((entries.filterMap fun entry => sourceEntry entry side).filter fun row =>
        filterMatches row filter) =
      ⟨(entries.filter (selects side filter)).length,
        ((entries.filter (selects side filter)).map (sideVsize side)).sum⟩ := by
  induction entries with
  | nil => rfl
  | cons entry rest ih =>
    cases hSource : sourceEntry entry side with
    | none =>
      have hSelects : selects side filter entry = false := by
        rw [selects, hSource]
      rw [List.filterMap_cons, hSource,
        List.filter_cons_of_neg (by rw [hSelects]; exact Bool.false_ne_true)]
      exact ih
    | some row =>
      have hSelects : selects side filter entry = filterMatches row filter := by
        rw [selects, hSource]
      have hVsize : sideVsize side entry = row.vsize := by
        rw [sideVsize, hSource]
        rfl
      rw [List.filterMap_cons, hSource]
      dsimp only
      rw [List.filter_cons, List.filter_cons, hSelects]
      split
      · obtain ⟨hCount, hSum⟩ := ComparisonPolicyTotals.mk.inj ih
        rw [populationOf, List.length_cons, List.length_cons, List.map_cons, List.map_cons,
          List.sum_cons, List.sum_cons, hVsize, hCount, hSum]
      · exact ih

-- ---------------------------------------------------------------------------
-- Samples
-- ---------------------------------------------------------------------------

/-- The larger entry first, and of two as large the one whose txid comes first. -/
def LargerFirst (collation : Collation) (side : ComparisonSide)
    (left right : ComparedTransaction) : Prop :=
  sideVsize side right < sideVsize side left ∨
    sideVsize side left = sideVsize side right ∧ collation.compare left.txid right.txid = .lt

section Samples

variable (collation : Collation) (side : ComparisonSide)

/-- The order of samples is transitive. -/
theorem compareSampleEntries_trans : Std.TransCmp (compareSampleEntries collation side) := by
  have hTxid := collation.trans
  have hVsize : Std.TransCmp fun left right : ComparedTransaction =>
      compare (sideVsize side right) (sideVsize side left) :=
    inferInstanceAs (Std.TransCmp fun left right =>
      compareOn (sideVsize side) right left)
  have hText : Std.TransCmp fun left right : ComparedTransaction =>
      collation.compare left.txid right.txid := {
    eq_swap := hTxid.eq_swap
    isLE_trans := hTxid.isLE_trans }
  exact inferInstanceAs (Std.TransCmp (compareLex
    (fun left right : ComparedTransaction => compare (sideVsize side right) (sideVsize side left))
    fun left right : ComparedTransaction => collation.compare left.txid right.txid))

theorem notAfter_trans (a b c : ComparedTransaction) (hab : notAfter collation side a b)
    (hbc : notAfter collation side b c) : notAfter collation side a c :=
  (compareSampleEntries_trans collation side).isLE_trans hab hbc

theorem notAfter_total (a b : ComparedTransaction) :
    notAfter collation side a b ∨ notAfter collation side b a := by
  have hSwap := (compareSampleEntries_trans collation side).eq_swap (a := a) (b := b)
  unfold notAfter
  rw [hSwap]
  cases compareSampleEntries collation side b a <;> simp

/-- Entries with hash txids tie only when the txids are the same. -/
theorem largerFirst_of_notAfter {a b : ComparedTransaction} (ha : isHash a.txid = true)
    (hb : isHash b.txid = true) (hNe : a.txid ≠ b.txid) (h : notAfter collation side a b = true) :
    LargerFirst collation side a b := by
  rw [notAfter, compareSampleEntries, Ordering.isLE_then_iff_or, Nat.compare_eq_lt,
    Nat.compare_eq_eq] at h
  rcases h with hLt | ⟨hSame, hText⟩
  · exact .inl hLt
  · refine .inr ⟨hSame.symm, ?_⟩
    rcases Ordering.isLE_iff_eq_lt_or_eq_eq.mp hText with hLt | hEq
    · exact hLt
    · exact absurd (collation.distinct _ _ ha hb hEq) hNe

/-- Entries with well-formed identifiers that tie are one transaction. -/
theorem notAfter_antisymm {a b : ComparedTransaction} (ha : isHash a.txid = true)
    (hb : isHash b.txid = true) (hab : notAfter collation side a b = true)
    (hba : notAfter collation side b a = true) : a.txid = b.txid := by
  have hOriented := compareSampleEntries_trans collation side
  have hEq : compareSampleEntries collation side a b = .eq :=
    Std.OrientedCmp.isLE_antisymm hab hba
  rw [compareSampleEntries, Ordering.then_eq_eq] at hEq
  exact collation.distinct _ _ ha hb hEq.2

/-- The scan keeps a bounded sample of what it selects. -/
theorem sampleOf_eq (filter : ComparisonPolicyFilter) (entries : List ComparedTransaction) :
    sampleOf collation side filter entries = (entries.filter (selects side filter)).foldl
      (BoundedSample.add (notAfter collation side) comparisonPolicySampleLimit) [] := by
  rw [List.foldl_filter]
  rfl

end Samples

-- ---------------------------------------------------------------------------
-- What a population is to be
-- ---------------------------------------------------------------------------

/-- The entries of a region a filter selects on a side. -/
def selectedEntries (comparison : CurrentComparison) (region : ComparisonRegionKey)
    (side : ComparisonSide) (filter : ComparisonPolicyFilter) : List ComparedTransaction :=
  (comparison.entries region).filter (selects side filter)

/-- The population counted from the entries at once, the sample sorted whole. -/
def plainPopulation (collation : Collation) (comparison : CurrentComparison)
    (region : ComparisonRegionKey) (side : ComparisonSide) (filter : ComparisonPolicyFilter) :
    ComparisonPolicyPopulation :=
  let selected := selectedEntries comparison region side filter
  { count := selected.length
    vsize := (selected.map (sideVsize side)).sum
    sample := (selected.mergeSort (notAfter collation side)).take comparisonPolicySampleLimit }

/-- The compared rows of two accepted snapshots. -/
structure AcceptedComparison (comparison : CurrentComparison) : Prop
    extends PartitionsUnion comparison where
  rows : ∀ side, ∀ row ∈ sideRows comparison side, isHash row.txid = true ∧
    ∀ assessment ∈ row.bip110, assessment.violatedRules.Nodup

theorem AcceptedComparison.txid_isHash {comparison : CurrentComparison}
    (h : AcceptedComparison comparison) {region : ComparisonRegionKey}
    {entry : ComparedTransaction} (hMem : entry ∈ comparison.entries region) :
    isHash entry.txid = true := by
  obtain ⟨row, hRow, -, hTxid⟩ :=
    h.source (policySideForRegion_self region .left) hMem
  exact hTxid ▸ (h.rows _ row hRow).1

theorem AcceptedComparison.regionRows_nodup {comparison : CurrentComparison}
    (h : AcceptedComparison comparison) {region : ComparisonRegionKey} {side : ComparisonSide}
    (hSide : policySideForRegion region side = side) :
    ∀ row ∈ regionRows comparison region side, ∀ assessment ∈ row.bip110,
      assessment.violatedRules.Nodup := by
  intro row hRow
  obtain ⟨entry, hMem, hSource⟩ := List.mem_filterMap.mp hRow
  obtain ⟨found, hFound, hSame, -⟩ := h.source hSide hMem
  obtain rfl := Option.some.inj (hSame.symm.trans hSource)
  exact (h.rows side found hFound).2

/-- The scan of the entries, in whatever order, keeps the front of the sorted selection. -/
theorem AcceptedComparison.sampleOf_perm {comparison : CurrentComparison}
    (h : AcceptedComparison comparison) (collation : Collation) (region : ComparisonRegionKey)
    (side : ComparisonSide) (filter : ComparisonPolicyFilter) {entries : List ComparedTransaction}
    (hPerm : entries.Perm (comparison.entries region)) :
    sampleOf collation side filter entries =
      (plainPopulation collation comparison region side filter).sample := by
  rw [sampleOf_eq]
  refine BoundedSample.sampled_eq (notAfter_trans collation side) (notAfter_total collation side)
    (fun a ha b hb hab hba => ?_) (hPerm.filter _)
  have ha := (List.mem_filter.mp ha).1
  have hb := (List.mem_filter.mp hb).1
  exact h.entry_unique ha hb
    (notAfter_antisymm collation side (h.txid_isHash ha) (h.txid_isHash hb) hab hba)

/-- The sorted selection is the one with this order. -/
theorem AcceptedComparison.sorted_selection {comparison : CurrentComparison}
    (h : AcceptedComparison comparison) (collation : Collation) (region : ComparisonRegionKey)
    (side : ComparisonSide) (filter : ComparisonPolicyFilter) :
    ((selectedEntries comparison region side filter).mergeSort (notAfter collation side)).Pairwise
      (LargerFirst collation side) := by
  have hSorted := List.pairwise_mergeSort (notAfter_trans collation side) (fun a b => by
    rw [Bool.or_eq_true]
    exact notAfter_total collation side a b) (selectedEntries comparison region side filter)
  have hPerm := List.mergeSort_perm (selectedEntries comparison region side filter)
    (notAfter collation side)
  have hDistinct : ((selectedEntries comparison region side filter).mergeSort
      (notAfter collation side)).Pairwise fun a b => a.txid ≠ b.txid :=
    ((List.Pairwise.filter _ (h.sorted region)).imp fun hLt => hLt.ne).perm hPerm.symm
      fun hNe => hNe.symm
  refine (hSorted.and hDistinct).imp_of_mem fun ha hb hBoth => ?_
  have hMem : ∀ entry, entry ∈ (selectedEntries comparison region side filter).mergeSort
      (notAfter collation side) → entry ∈ comparison.entries region := fun entry hEntry =>
    (List.mem_filter.mp (hPerm.mem_iff.mp hEntry)).1
  exact largerFirst_of_notAfter collation side (h.txid_isHash (hMem _ ha))
    (h.txid_isHash (hMem _ hb)) hBoth.2 hBoth.1

-- ---------------------------------------------------------------------------
-- What the constructor makes
-- ---------------------------------------------------------------------------

theorem addRequired_ok {spec : SliceSpec} {entry : ComparedTransaction} {row : MempoolEntry}
    (h : sourceEntry entry spec.side = some row) (accumulator : SliceAccumulator) :
    addRequired spec accumulator entry = .ok (addTransaction accumulator row) := by
  rw [addRequired, requiredTransaction, h]
  rfl

/-- A slice's entries all count. -/
theorem foldlM_addRequired {spec : SliceSpec} {entries : List ComparedTransaction}
    (h : ∀ entry ∈ entries, ∃ row, sourceEntry entry spec.side = some row)
    (accumulator : SliceAccumulator) :
    entries.foldlM (addRequired spec) accumulator =
      .ok ((entries.filterMap fun entry => sourceEntry entry spec.side).foldl addTransaction
        accumulator) := by
  induction entries generalizing accumulator with
  | nil => rfl
  | cons entry rest ih =>
    obtain ⟨row, hRow⟩ := h entry List.mem_cons_self
    rw [List.foldlM_cons, addRequired_ok hRow, List.filterMap_cons, hRow]
    exact ih (fun other hMem => h other (List.mem_cons_of_mem _ hMem)) _

/-- The common entries all count, on both sides. -/
theorem foldlM_addCommon {entries : List ComparedTransaction}
    (hLeft : ∀ entry ∈ entries, ∃ row, sourceEntry entry .left = some row)
    (hRight : ∀ entry ∈ entries, ∃ row, sourceEntry entry .right = some row)
    (accumulators : SliceAccumulator × SliceAccumulator) :
    entries.foldlM addCommon accumulators =
      .ok ((entries.filterMap fun entry => sourceEntry entry .left).foldl addTransaction
          accumulators.1,
        (entries.filterMap fun entry => sourceEntry entry .right).foldl addTransaction
          accumulators.2) := by
  induction entries generalizing accumulators with
  | nil => rfl
  | cons entry rest ih =>
    obtain ⟨left, hLeftRow⟩ := hLeft entry List.mem_cons_self
    obtain ⟨right, hRightRow⟩ := hRight entry List.mem_cons_self
    have hStep : addCommon accumulators entry =
        .ok (addTransaction accumulators.1 left, addTransaction accumulators.2 right) := by
      rw [addCommon, @addRequired_ok commonLeftSpec entry left hLeftRow,
        @addRequired_ok commonRightSpec entry right hRightRow]
      rfl
    rw [List.foldlM_cons, hStep, List.filterMap_cons, hLeftRow, List.filterMap_cons, hRightRow]
    exact ih (fun other hMem => hLeft other (List.mem_cons_of_mem _ hMem))
      (fun other hMem => hRight other (List.mem_cons_of_mem _ hMem)) _

/-- The accumulator of a slice once its rows are counted. -/
def countedSlice (comparison : CurrentComparison) (spec : SliceSpec) : SliceAccumulator :=
  (regionRows comparison spec.region spec.side).foldl addTransaction (accumulatorFor spec)

/-- The slice that answers for a side of a region. -/
def specOf (region : ComparisonRegionKey) (side : ComparisonSide) : SliceSpec :=
  match region, side with
  | .leftOnly, _ => leftOnlySpec
  | .common, .left => commonLeftSpec
  | .common, .right => commonRightSpec
  | .rightOnly, _ => rightOnlySpec

theorem specOf_region (region : ComparisonRegionKey) (side : ComparisonSide) :
    (specOf region side).region = region := by
  cases region <;> cases side <;> rfl

theorem specOf_side (region : ComparisonRegionKey) (side : ComparisonSide) :
    (specOf region side).side = policySideForRegion region side := by
  cases region <;> cases side <;> rfl

theorem sliceSpecs_side {spec : SliceSpec} (h : spec ∈ sliceSpecs) :
    policySideForRegion spec.region spec.side = spec.side := by
  revert spec
  decide

theorem sliceKey_eq_iff {region region' : ComparisonRegionKey} {side side' : ComparisonSide} :
    sliceKey region side = sliceKey region' side' ↔
      region = region' ∧ policySideForRegion region side = policySideForRegion region' side' := by
  constructor
  · exact sliceKey_inj
  · rintro ⟨rfl, hSide⟩
    rw [sliceKey, sliceKey, hSide]

/-- The finished slices under their keys. -/
def builtSlices (collation : Collation) (comparison : CurrentComparison) :
    InsertionMap String SliceState :=
  sliceSpecs.foldl (fun slices spec => slices.set (sliceKey spec.region spec.side)
    (finishSlice collation (countedSlice comparison spec))) .empty

/-- Every region and side has the slice its rows make. -/
theorem get?_builtSlices (collation : Collation) (comparison : CurrentComparison)
    (region : ComparisonRegionKey) (side : ComparisonSide) :
    (builtSlices collation comparison).get? (sliceKey region side) =
      some (finishSlice collation (countedSlice comparison (specOf region side))) := by
  simp only [builtSlices, sliceSpecs, List.foldl_cons, List.foldl_nil, InsertionMap.get?_set,
    sliceKey_eq_iff]
  cases region <;> cases side <;> rfl

/-- The view as it is built, before any call. -/
def builtView (collation : Collation) (comparison : CurrentComparison) :
    ComparisonPolicyView where
  comparison
  rows := sliceSpecs.map fun spec =>
    matrixRow collation comparison spec
      (finishSlice collation (countedSlice comparison spec)).slice
  slices := builtSlices collation comparison
  populations := .empty

section Build

variable {comparison : CurrentComparison} (h : AcceptedComparison comparison)
  (collation : Collation)

include h

/-- A counted slice counts its rows. -/
theorem countedSlice_counts {spec : SliceSpec} (hSpec : spec ∈ sliceSpecs) :
    (countedSlice comparison spec).Counts (regionRows comparison spec.region spec.side) ∧
      (countedSlice comparison spec).spec = spec :=
  foldl_addTransaction spec (h.regionRows_nodup (sliceSpecs_side hSpec))

/-- **The constructor builds the view** of an accepted comparison, and never throws. -/
theorem buildComparisonPolicyView_eq :
    buildComparisonPolicyView collation comparison = .ok (builtView collation comparison) := by
  have hSource : ∀ spec ∈ sliceSpecs, ∀ entry ∈ comparison.entries spec.region,
      ∃ row, sourceEntry entry spec.side = some row := by
    intro spec hSpec entry hMem
    obtain ⟨row, -, hRow, -⟩ := h.source (sliceSpecs_side hSpec) hMem
    exact ⟨row, hRow⟩
  have hLeftOnly : comparison.leftOnly.foldlM (addRequired leftOnlySpec)
      (accumulatorFor leftOnlySpec) = .ok (countedSlice comparison leftOnlySpec) :=
    foldlM_addRequired (hSource leftOnlySpec (by decide)) _
  have hCommon : comparison.common.foldlM addCommon
      (accumulatorFor commonLeftSpec, accumulatorFor commonRightSpec) =
        .ok (countedSlice comparison commonLeftSpec, countedSlice comparison commonRightSpec) :=
    foldlM_addCommon (hSource commonLeftSpec (by decide)) (hSource commonRightSpec (by decide)) _
  have hRightOnly : comparison.rightOnly.foldlM (addRequired rightOnlySpec)
      (accumulatorFor rightOnlySpec) = .ok (countedSlice comparison rightOnlySpec) :=
    foldlM_addRequired (hSource rightOnlySpec (by decide)) _
  have hSpecs : ∀ spec ∈ sliceSpecs, (countedSlice comparison spec).spec = spec :=
    fun spec hSpec => (countedSlice_counts h hSpec).2
  have hSlices : [countedSlice comparison leftOnlySpec, countedSlice comparison commonLeftSpec,
      countedSlice comparison commonRightSpec, countedSlice comparison rightOnlySpec].foldl
        (fun slices accumulator =>
          slices.set (sliceKey accumulator.spec.region accumulator.spec.side)
            (finishSlice collation accumulator)) .empty = builtSlices collation comparison := by
    simp only [List.foldl_cons, List.foldl_nil, builtSlices, sliceSpecs,
      hSpecs leftOnlySpec (by decide), hSpecs commonLeftSpec (by decide),
      hSpecs commonRightSpec (by decide), hSpecs rightOnlySpec (by decide)]
  have hState : ∀ spec ∈ sliceSpecs, sliceState (builtSlices collation comparison) spec.region
      spec.side = .ok (finishSlice collation (countedSlice comparison spec)) := by
    intro spec hSpec
    have hSelf : specOf spec.region spec.side = spec := by
      revert spec
      decide
    rw [sliceState, get?_builtSlices, hSelf]
  have hRows : (sliceSpecs.mapM fun spec => do
      let state ← sliceState (builtSlices collation comparison) spec.region spec.side
      return matrixRow collation comparison spec state.slice) =
        .ok (sliceSpecs.map fun spec => matrixRow collation comparison spec
          (finishSlice collation (countedSlice comparison spec)).slice) := by
    refine mapM_eq_ok.mpr (List.forall₂_map_right_iff.mpr (List.forall₂_same.mpr fun spec hSpec => ?_))
    rw [hState spec hSpec]
    rfl
  rw [buildComparisonPolicyView, hLeftOnly, hCommon, hRightOnly]
  simp only [bind, Except.bind, hSlices, pure, Except.pure] at hRows ⊢
  rw [hRows]
  rfl

end Build

-- ---------------------------------------------------------------------------
-- What a view keeps
-- ---------------------------------------------------------------------------

/-- A view over its comparison whose cached populations are the plain ones. -/
structure ComparisonPolicyView.Sound (view : ComparisonPolicyView) (collation : Collation)
    (comparison : CurrentComparison) : Prop where
  compared : view.comparison = comparison
  sliced : view.slices = builtSlices collation comparison
  cached : ∀ region side filter population,
    view.populations.get? (populationKey region side filter) = some population →
      population = plainPopulation collation comparison region (policySideForRegion region side)
        filter

/-- The view as built is sound. -/
theorem builtView_sound (collation : Collation) (comparison : CurrentComparison) :
    (builtView collation comparison).Sound collation comparison where
  compared := rfl
  sliced := rfl
  cached _ _ _ _ hGet := nomatch hGet

section Population

variable {comparison : CurrentComparison} (h : AcceptedComparison comparison)
  (collation : Collation)

include h

/-- The totals of a slice under a filter are those of the rows that match. -/
theorem finishedSlice_totals (region : ComparisonRegionKey) (side : ComparisonSide)
    (filter : ComparisonPolicyFilter) :
    (finishSlice collation (countedSlice comparison (specOf region side))).totals filter =
      (plainPopulation collation comparison region (policySideForRegion region side)
        filter).toComparisonPolicyTotals := by
  have hSpec : specOf region side ∈ sliceSpecs := by
    cases region <;> cases side <;> decide
  have hCounts := (countedSlice_counts h hSpec).1
  rw [specOf_region, specOf_side] at hCounts
  rw [finishSlice_totals collation hCounts.toSound, hCounts.totals, regionRows,
    populationOf_filterMap]
  rfl

/-- One call answers with the plain population and leaves the view sound. -/
theorem population_eq {view : ComparisonPolicyView} (hView : view.Sound collation comparison)
    (region : ComparisonRegionKey) (side : ComparisonSide) (filter : ComparisonPolicyFilter) :
    ∃ next : ComparisonPolicyView,
      view.population collation region side filter =
        .ok (plainPopulation collation comparison region (policySideForRegion region side) filter,
          next) ∧
      next.Sound collation comparison := by
  have hSelf := policySideForRegion_self region side
  cases hCached : view.populations.get?
      (populationKey region (policySideForRegion region side) filter) with
  | some population =>
    have hPlain := hView.cached _ _ _ _ hCached
    rw [hSelf] at hPlain
    refine ⟨view, ?_, hView⟩
    rw [ComparisonPolicyView.population]
    dsimp only
    rw [hCached, hPlain]
  | none =>
    have hState : sliceState view.slices region (policySideForRegion region side) =
        .ok (finishSlice collation
          (countedSlice comparison (specOf region (policySideForRegion region side)))) := by
      rw [sliceState, hView.sliced, get?_builtSlices]
    have hTotals := finishedSlice_totals h collation region (policySideForRegion region side) filter
    rw [hSelf] at hTotals
    have hSample := h.sampleOf_perm collation region (policySideForRegion region side) filter
      (List.Perm.refl _)
    have hPopulation :
        (if (plainPopulation collation comparison region (policySideForRegion region side)
              filter).count = 0 then { count := 0, vsize := 0, sample := [] }
          else {
            (plainPopulation collation comparison region (policySideForRegion region side)
              filter).toComparisonPolicyTotals with
            sample := sampleOf collation (policySideForRegion region side) filter
              (view.comparison.entries region) } : ComparisonPolicyPopulation) =
          plainPopulation collation comparison region (policySideForRegion region side) filter := by
      split
      · next hZero =>
        have hNone : selectedEntries comparison region (policySideForRegion region side) filter =
            [] := List.length_eq_zero_iff.mp hZero
        simp only [plainPopulation, hNone, List.mergeSort_nil, List.take_nil, List.map_nil,
          List.sum_nil, List.length_nil]
      · rw [hView.compared, hSample]
    refine ⟨{ view with
        populations := view.populations.set
          (populationKey region (policySideForRegion region side) filter)
          (plainPopulation collation comparison region (policySideForRegion region side) filter) },
      ?_, hView.compared, hView.sliced, ?_⟩
    · rw [ComparisonPolicyView.population]
      dsimp only
      rw [hCached]
      dsimp only
      rw [hState]
      simp only [bind, Except.bind, pure, Except.pure, hTotals, hPopulation]
    · intro region' side' filter' population hGet
      dsimp only at hGet
      rw [InsertionMap.get?_set] at hGet
      split at hGet
      · next hKey =>
        obtain ⟨rfl, hSide, rfl⟩ := populationKey_inj hKey
        rw [← hSide, hSelf]
        exact (Option.some.inj hGet).symm
      · exact hView.cached _ _ _ _ hGet

/-- **A list of calls**: none fails, and each leaves a sound view. -/
theorem foldlM_callPopulation
    (calls : List (ComparisonRegionKey × ComparisonSide × ComparisonPolicyFilter))
    {view : ComparisonPolicyView} (hView : view.Sound collation comparison) :
    ∃ after : ComparisonPolicyView, calls.foldlM (callPopulation collation) view = .ok after ∧
      after.Sound collation comparison := by
  induction calls generalizing view with
  | nil => exact ⟨view, rfl, hView⟩
  | cons call rest ih =>
    obtain ⟨next, hCall, hNext⟩ := population_eq h collation hView call.1 call.2.1 call.2.2
    obtain ⟨after, hRest, hAfter⟩ := ih hNext
    refine ⟨after, ?_, hAfter⟩
    rw [List.foldlM_cons, callPopulation, hCall]
    exact hRest

end Population

/-- An answer about the selected entries: their number and vsize, and the first of them
from the largest down. -/
structure AnswersFor (collation : Collation) (comparison : CurrentComparison)
    (region : ComparisonRegionKey) (side : ComparisonSide) (filter : ComparisonPolicyFilter)
    (population : ComparisonPolicyPopulation) : Prop where
  count : population.count = (selectedEntries comparison region side filter).length
  vsize : population.vsize =
    ((selectedEntries comparison region side filter).map (sideVsize side)).sum
  sample : ∃ sorted : List ComparedTransaction,
    sorted.Perm (selectedEntries comparison region side filter) ∧
      sorted.Pairwise (LargerFirst collation side) ∧ population.sample = sorted.take 12
  anyOrder : ∀ entries : List ComparedTransaction, entries.Perm (comparison.entries region) →
    sampleOf collation side filter entries = population.sample

/-- The counts of a row agree with each other and with its region. -/
structure AddsUp (comparison : CurrentComparison) (row : ComparisonPolicyMatrixRow) : Prop where
  population : row.populationCount = (comparison.entries row.region).length
  statuses : row.statusCounts.compatible + row.statusCounts.violating +
    row.statusCounts.indeterminate + row.statusCounts.unclassified = row.populationCount
  violating : row.exactViolationCount + row.partialViolationCount = row.statusCounts.violating
  shown : (row.dominantExactCombinations.map (·.count)).sum +
    row.exactCombinationOverflow.transactionCount = row.exactViolationCount

/-- What a population answers about the rows. -/
theorem AcceptedComparison.answersFor {comparison : CurrentComparison}
    (h : AcceptedComparison comparison) (collation : Collation) (region : ComparisonRegionKey)
    (side : ComparisonSide) (filter : ComparisonPolicyFilter) :
    AnswersFor collation comparison region side filter
      (plainPopulation collation comparison region side filter) where
  count := rfl
  vsize := rfl
  sample := ⟨_, List.mergeSort_perm _ _, h.sorted_selection collation region side filter, rfl⟩
  anyOrder _ hPerm := h.sampleOf_perm collation region side filter hPerm

/-- The counts of a matrix row add up. -/
theorem AcceptedComparison.addsUp {comparison : CurrentComparison}
    (h : AcceptedComparison comparison) (collation : Collation) {spec : SliceSpec}
    (hSpec : spec ∈ sliceSpecs) :
    AddsUp comparison (matrixRow collation comparison spec
      (finishSlice collation (countedSlice comparison spec)).slice) := by
  obtain ⟨hCounts, -⟩ := countedSlice_counts h hSpec
  refine ⟨?_, hCounts.statuses, finishSlice_violating collation hCounts.toSound,
    matrixRow_shown collation comparison spec _⟩
  have hAll : (comparison.entries spec.region).filter (selects spec.side .all) =
      comparison.entries spec.region := by
    refine List.filter_eq_self.mpr fun entry hMem => ?_
    obtain ⟨row, -, hRow, -⟩ := h.source (sliceSpecs_side hSpec) hMem
    rw [selects, hRow]
    rfl
  have hTotals := congrArg ComparisonPolicyTotals.count (hCounts.totals .all)
  rw [regionRows, populationOf_filterMap, hAll] at hTotals
  exact hTotals

/-- Comparing two accepted snapshots makes an accepted comparison. -/
theorem acceptedComparison {left right : LoadedSourceSnapshot}
    (hLeft : AcceptedSnapshot left.snapshot) (hRight : AcceptedSnapshot right.snapshot)
    {comparison : CurrentComparison} (h : compareCurrentSnapshots left right = .ok comparison) :
    AcceptedComparison comparison := by
  obtain ⟨hSortedLeft, hRowsLeft, -⟩ := hLeft.rows
  obtain ⟨hSortedRight, hRowsRight, -⟩ := hRight.rows
  obtain ⟨-, rfl, rfl, -⟩ := compareCurrentSnapshots_eq_ok h
  refine ⟨partitionsUnion hSortedLeft hSortedRight h, fun side row hRow => ?_⟩
  cases side with
  | left =>
    have hAccepted := hRowsLeft row hRow
    exact ⟨hAccepted.txid, fun assessment hMem => (hAccepted.assessment assessment hMem).2.1⟩
  | right =>
    have hAccepted := hRowsRight row hRow
    exact ⟨hAccepted.txid, fun assessment hMem => (hAccepted.assessment assessment hMem).2.1⟩

/-- The view of two accepted snapshots is built; after any calls it answers each question
with the plain filter's count, vsize and sample, and its rows add up. -/
theorem comparison_policy_view (collation : Collation) (left right : LoadedSourceSnapshot)
    (hLeft : AcceptedSnapshot left.snapshot) (hRight : AcceptedSnapshot right.snapshot)
    (comparison : CurrentComparison)
    (hCompared : compareCurrentSnapshots left right = .ok comparison) :
    ∃ view, buildComparisonPolicyView collation comparison = .ok view ∧
      (∀ calls : List (ComparisonRegionKey × ComparisonSide × ComparisonPolicyFilter),
        ∃ after : ComparisonPolicyView,
          calls.foldlM (callPopulation collation) view = .ok after ∧
            ∀ region side filter, ∃ population next,
              after.population collation region side filter = .ok (population, next) ∧
                AnswersFor collation comparison region (policySideForRegion region side) filter
                  population) ∧
      view.rows.map (·.toSliceSpec) = sliceSpecs ∧ ∀ row ∈ view.rows, AddsUp comparison row := by
  have h := acceptedComparison hLeft hRight hCompared
  refine ⟨_, buildComparisonPolicyView_eq h collation, fun calls => ?_, ?_, ?_⟩
  · obtain ⟨after, hCalls, hAfter⟩ :=
      foldlM_callPopulation h collation calls (builtView_sound collation comparison)
    refine ⟨after, hCalls, fun region side filter => ?_⟩
    obtain ⟨next, hPopulation, -⟩ := population_eq h collation hAfter region side filter
    exact ⟨_, next, hPopulation, h.answersFor collation region _ filter⟩
  · rw [builtView, List.map_map]
    rfl
  · intro row hRow
    obtain ⟨spec, hSpec, rfl⟩ := List.mem_map.mp hRow
    exact h.addsUp collation hSpec

/-- Texts in the order of their code points. -/
def codePointCollation : Collation where
  compare := compare
  trans := inferInstance
  distinct _ _ _ _ h := Std.LawfulEqOrd.eq_of_compare h

/-- Two sources with three transactions in common, assessed differently: after questions about
other populations, the violating common ones are counted and sampled on either side. -/
theorem comparison_policy_view_mixed :
    ∃ comparison view after, compareCurrentSnapshots
        ⟨(sampleSide "core" 0 []).source, sampleSnapshot "core" mixedRows⟩
        ⟨(sampleSide "knots" 0 []).source, sampleSnapshot "knots" revisedRows⟩ = .ok comparison ∧
      buildComparisonPolicyView codePointCollation comparison = .ok view ∧
      (∀ row ∈ view.rows, AddsUp comparison row) ∧
      [(.leftOnly, .left, .rule .elementSize), (.common, .right, .signature "exact:02"),
        (.common, .left, .status .violating)].foldlM (callPopulation codePointCollation) view =
          .ok after ∧
      (∃ population next, after.population codePointCollation .common .left
          (.status .violating) = .ok (population, next) ∧
        population.count = 2 ∧ population.vsize = 900 ∧
        population.sample.map (sideVsize .left) = [500, 400]) ∧
      ∃ population next, after.population codePointCollation .common .right
          (.status .violating) = .ok (population, next) ∧
        population.count = 3 ∧ population.vsize = 1050 ∧
        population.sample.map (sideVsize .right) = [450, 350, 250] := by
  obtain ⟨hCore, hKnots⟩ := sampleSnapshots_accepted
  have hNe : (sampleSnapshot "core" mixedRows).sourceId ≠
      (sampleSnapshot "knots" revisedRows).sourceId := by decide
  have hCompared : compareCurrentSnapshots
      ⟨(sampleSide "core" 0 []).source, sampleSnapshot "core" mixedRows⟩
      ⟨(sampleSide "knots" 0 []).source, sampleSnapshot "knots" revisedRows⟩ = .ok _ := if_neg hNe
  obtain ⟨view, hView, hAnswers, -, hRows⟩ :=
    comparison_policy_view codePointCollation _ _ hCore hKnots _ hCompared
  obtain ⟨after, hCalls, hAsk⟩ := hAnswers [(.leftOnly, .left, .rule .elementSize),
    (.common, .right, .signature "exact:02"), (.common, .left, .status .violating)]
  refine ⟨_, view, after, hCompared, hView, hRows, hCalls, ?_, ?_⟩
  · obtain ⟨population, next, hPopulation, hFor⟩ := hAsk .common .left (.status .violating)
    have hSample := hFor.anyOrder _ (List.Perm.refl _)
    refine ⟨population, next, hPopulation, hFor.count.trans (by decide +kernel),
      hFor.vsize.trans (by decide +kernel), ?_⟩
    rw [← hSample]
    decide +kernel
  · obtain ⟨population, next, hPopulation, hFor⟩ := hAsk .common .right (.status .violating)
    have hSample := hFor.anyOrder _ (List.Perm.refl _)
    refine ⟨population, next, hPopulation, hFor.count.trans (by decide +kernel),
      hFor.vsize.trans (by decide +kernel), ?_⟩
    rw [← hSample]
    decide +kernel

end MempoolAtlas.Web
