import MempoolAtlas.Lib.Histogram
import MempoolAtlas.Web.PanelGroups

/-!
# Spectra and densities

`web/src/fee-distribution.ts`: the stacked histogram of a list of groups along
one logarithmic axis, and the density of transactions over two.

## Results

* `buildSpectrum_weighs` — a spectrum conserves the weight of its groups.
* `buildDensity_weighs` — a density that of its transactions.
-/

namespace MempoolAtlas.Web

open Histogram Model

/-- The logarithmic axes: `FEE_RATE_DOMAIN`, `VSIZE_DOMAIN`, `DATA_BYTES_DOMAIN`,
`IO_COUNT_DOMAIN` and `OUTPUT_VALUE_DOMAIN`. -/
inductive LogDomain where
  | feeRate
  | vsize
  | dataBytes
  | ioCount
  | outputValue
deriving DecidableEq, Repr

/-- Of `logDomainPosition`'s logarithms, that a position is between the ends. -/
structure LogPositions where
  logDomainPosition : LogDomain → ℚ → ℚ
  nonneg : ∀ domain value, 0 ≤ logDomainPosition domain value
  le_one : ∀ domain value, logDomainPosition domain value ≤ 1

/-- Satoshis for each unit of size. -/
def transactionFeeRate (transaction : MempoolEntry) : ℚ :=
  if 0 < transaction.vsize then transaction.feeSats / transaction.vsize else 0

/-- `transaction-facts.ts` -/
def ancestorFeeRate (transaction : MempoolEntry) : ℚ :=
  if 0 < transaction.ancestorVsize then transaction.ancestorFeeSats / transaction.ancestorVsize
  else 0

-- ---------------------------------------------------------------------------
-- Densities
-- ---------------------------------------------------------------------------

/-- A grid of weights over two axes. -/
structure JointDensity where
  columns : Nat
  rows : Nat
  cells : List Nat
  columnTotals : List Nat
  rowTotals : List Nat
  maxCell : Nat
  totalWeight : Nat
deriving DecidableEq, Repr

/-- The columns of the joint density. -/
def jointColumns : Nat := 22
/-- The rows of the joint density. -/
def jointRows : Nat := 14

/-- A value of a transaction along an axis. -/
structure Axis where
  domain : LogDomain
  value : MempoolEntry → ℚ

/-- Where a transaction stands on an axis. -/
def Axis.position (axis : Axis) (positions : LogPositions) (transaction : MempoolEntry) : ℚ :=
  positions.logDomainPosition axis.domain (axis.value transaction)

/-- A transaction adds its weight to its cell. -/
def JointDensity.add (positions : LogPositions) (metric : DistributionMetric) (x y : Axis)
    (density : JointDensity) (transaction : MempoolEntry) : JointDensity :=
  let weight := metricWeight transaction metric
  if weight ≤ 0 then density
  else
    let column := binOf density.columns (x.position positions transaction)
    let row := binOf density.rows (y.position positions transaction)
    let index := row * density.columns + column
    let updated := (density.cells[index.toNat]?).getD 0 + weight
    { density with
      cells := raise density.cells index weight
      columnTotals := raise density.columnTotals column weight
      rowTotals := raise density.rowTotals row weight
      totalWeight := density.totalWeight + weight
      maxCell := if density.maxCell < updated then updated else density.maxCell }

/-- The grid of some transactions over two axes. -/
def buildDensity (positions : LogPositions) (transactions : List MempoolEntry)
    (metric : DistributionMetric) (x y : Axis) (columns rows : Nat) : JointDensity :=
  transactions.foldl (JointDensity.add positions metric x y) {
    columns, rows
    cells := List.replicate (columns * rows) 0
    columnTotals := List.replicate columns 0
    rowTotals := List.replicate rows 0
    maxCell := 0
    totalWeight := 0 }

/-- `buildJointDensity`: fee rate against size. -/
def buildJointDensity (positions : LogPositions) (transactions : List MempoolEntry)
    (metric : DistributionMetric) (columns rows : Nat) : JointDensity :=
  buildDensity positions transactions metric ⟨.feeRate, transactionFeeRate⟩
    ⟨.vsize, fun transaction => transaction.vsize⟩ columns rows

/-- A count of the structure; of an unknown one it is zero. -/
def structureCount (count : TransactionStructure → Nat) (transaction : MempoolEntry) : Nat :=
  (transaction.transactionStructure.map count).getD 0

/-- `buildComplexityDensity`: inputs against outputs, of the rows whose structure is known. -/
def buildComplexityDensity (positions : LogPositions) (transactions : List MempoolEntry)
    (metric : DistributionMetric) (columns rows : Nat) : JointDensity :=
  buildDensity positions
    (transactions.filter fun transaction => transaction.transactionStructure.isSome) metric
    ⟨.ioCount, fun transaction => structureCount (·.inputCount) transaction⟩
    ⟨.ioCount, fun transaction => structureCount (·.outputCount) transaction⟩ columns rows

-- ---------------------------------------------------------------------------
-- Spectra
-- ---------------------------------------------------------------------------

/-- A group's part of a bin. -/
structure SpectrumBinSegment where
  key : String
  label : String
  color : String
  weight : Nat
deriving DecidableEq, Repr

/-- A bin of a spectrum. -/
structure SpectrumBin where
  total : Nat := 0
  segments : List SpectrumBinSegment := []
deriving DecidableEq, Repr

/-- A spectrum: its bins and the weight they hold. -/
structure FeeSpectrum where
  bins : List SpectrumBin
  maxBin : Nat
  totalWeight : Nat
deriving DecidableEq, Repr

/-- The bins of a spectrum. -/
def spectrumBins : Nat := 22

/-- The weights of one group by bin. -/
structure GroupBins where
  weights : List Nat
  groupWeight : Nat

/-- A transaction adds its weight to its bin. -/
def GroupBins.add (positions : LogPositions) (metric : DistributionMetric) (axis : Axis)
    (binCount : Nat) (group : GroupBins) (transaction : MempoolEntry) : GroupBins :=
  let weight := metricWeight transaction metric
  if weight ≤ 0 then group
  else {
    weights := raise group.weights (binOf binCount (axis.position positions transaction)) weight
    groupWeight := group.groupWeight + weight }

/-- What a group weighs in each bin. -/
def groupBins (positions : LogPositions) (metric : DistributionMetric) (axis : Axis)
    (binCount : Nat) (transactions : List MempoolEntry) : GroupBins :=
  transactions.foldl (GroupBins.add positions metric axis binCount)
    ⟨List.replicate binCount 0, 0⟩

/-- A group adds its segment to a bin, unless it weighs nothing there. -/
def FeeSpectrum.addBin (group : TransactionGroup) (weights : List Nat) (spectrum : FeeSpectrum)
    (bin : Nat) : FeeSpectrum :=
  let weight := (weights[bin]?).getD 0
  if weight ≤ 0 then spectrum
  else match spectrum.bins[bin]? with
    | none => spectrum
    | some entry =>
      let total := entry.total + weight
      { spectrum with
        bins := spectrum.bins.set bin {
          total
          segments := entry.segments ++
            [{ key := group.key, label := group.label, color := group.color, weight }] }
        maxBin := if spectrum.maxBin < total then total else spectrum.maxBin }

/-- A group adds its segments to the bins. -/
def FeeSpectrum.addGroup (positions : LogPositions) (metric : DistributionMetric) (axis : Axis)
    (binCount : Nat) (spectrum : FeeSpectrum) (group : TransactionGroup) : FeeSpectrum :=
  let filled := groupBins positions metric axis binCount group.transactions
  if filled.groupWeight = 0 then spectrum
  else (List.range binCount).foldl (FeeSpectrum.addBin group filled.weights)
    { spectrum with totalWeight := spectrum.totalWeight + filled.groupWeight }

/-- The groups over the bins of one axis. -/
def buildSpectrum (positions : LogPositions) (groups : List TransactionGroup)
    (metric : DistributionMetric) (axis : Axis) (binCount : Nat) : FeeSpectrum :=
  groups.foldl (FeeSpectrum.addGroup positions metric axis binCount)
    { bins := List.replicate binCount {}, maxBin := 0, totalWeight := 0 }

/-- `buildFeeSpectrum`: the groups over fee rates. -/
def buildFeeSpectrum (positions : LogPositions) (groups : List TransactionGroup)
    (metric : DistributionMetric) (binCount : Nat) : FeeSpectrum :=
  buildSpectrum positions groups metric ⟨.feeRate, transactionFeeRate⟩ binCount

-- ---------------------------------------------------------------------------
-- What a density weighs
-- ---------------------------------------------------------------------------

/-- The cells and the totals of a density of its size all sum to one weight. -/
structure DensityWeighs (columns rows weight : Nat) (density : JointDensity) : Prop where
  wide : density.columns = columns
  high : density.rows = rows
  cellCount : density.cells.length = columns * rows
  columnCount : density.columnTotals.length = columns
  rowCount : density.rowTotals.length = rows
  total : density.totalWeight = weight
  cells : density.cells.sum = weight
  columnTotals : density.columnTotals.sum = weight
  rowTotals : density.rowTotals.sum = weight

/-- Every transaction falls in a bin. -/
theorem Axis.binOf_inRange (axis : Axis) (positions : LogPositions) {count : Nat} (h : 0 < count)
    (transaction : MempoolEntry) :
    InRange count (binOf count (axis.position positions transaction)) :=
  Histogram.binOf_inRange h (positions.nonneg _ _)

/-- One transaction adds its weight. -/
theorem densityWeighs_add {positions : LogPositions} {metric : DistributionMetric} {x y : Axis}
    {columns rows weight : Nat} (hColumns : 0 < columns) (hRows : 0 < rows)
    {density : JointDensity} (h : DensityWeighs columns rows weight density)
    (transaction : MempoolEntry) :
    DensityWeighs columns rows (weight + metricWeight transaction metric)
      (density.add positions metric x y transaction) := by
  have hColumn := x.binOf_inRange positions hColumns transaction
  have hRow := y.binOf_inRange positions hRows transaction
  unfold JointDensity.add
  dsimp only
  split
  · next hNone =>
    rw [Nat.le_zero.mp hNone]
    exact h
  · rw [h.wide, h.high]
    refine ⟨rfl, rfl, ?_, ?_, ?_, ?_, ?_, ?_, ?_⟩
    · rw [length_raise, h.cellCount]
    · rw [length_raise, h.columnCount]
    · rw [length_raise, h.rowCount]
    · rw [h.total]
    · rw [sum_raise (h.cellCount.symm ▸ hRow.rowMajor hColumn), h.cells]
    · rw [sum_raise (h.columnCount.symm ▸ hColumn), h.columnTotals]
    · rw [sum_raise (h.rowCount.symm ▸ hRow), h.rowTotals]

theorem densityWeighs_foldl (positions : LogPositions) (metric : DistributionMetric) (x y : Axis)
    {columns rows weight : Nat} (hColumns : 0 < columns) (hRows : 0 < rows)
    {density : JointDensity} (h : DensityWeighs columns rows weight density)
    (transactions : List MempoolEntry) :
    DensityWeighs columns rows (weight + totalWeight metric transactions)
      (transactions.foldl (JointDensity.add positions metric x y) density) := by
  induction transactions generalizing density weight with
  | nil => exact h
  | cons transaction rest ih =>
    rw [List.foldl_cons, totalWeight_cons, ← Nat.add_assoc]
    exact ih (densityWeighs_add hColumns hRows h transaction)

/-- **A density conserves the weight** of its transactions. -/
theorem buildDensity_weighs (positions : LogPositions) (transactions : List MempoolEntry)
    (metric : DistributionMetric) (x y : Axis) {columns rows : Nat} (hColumns : 0 < columns)
    (hRows : 0 < rows) :
    DensityWeighs columns rows (totalWeight metric transactions)
      (buildDensity positions transactions metric x y columns rows) := by
  have hStart : DensityWeighs columns rows 0 {
      columns, rows
      cells := List.replicate (columns * rows) 0
      columnTotals := List.replicate columns 0
      rowTotals := List.replicate rows 0
      maxCell := 0
      totalWeight := 0 } := by
    constructor <;> simp
  have hAll := densityWeighs_foldl positions metric x y hColumns hRows hStart transactions
  rwa [Nat.zero_add] at hAll

-- ---------------------------------------------------------------------------
-- What a spectrum weighs
-- ---------------------------------------------------------------------------

/-- A spectrum of one size and total whose bins sum to a weight, each the sum of its
segments. -/
structure BinsWeigh (binCount total weight : Nat) (spectrum : FeeSpectrum) : Prop where
  size : spectrum.bins.length = binCount
  total : spectrum.totalWeight = total
  bins : (spectrum.bins.map (·.total)).sum = weight
  segments : ∀ bin ∈ spectrum.bins, bin.total = (bin.segments.map (·.weight)).sum

/-- The bins of a spectrum sum to its own total. -/
abbrev SpectrumWeighs (binCount weight : Nat) (spectrum : FeeSpectrum) : Prop :=
  BinsWeigh binCount weight weight spectrum

/-- The bins of a group hold its weight. -/
theorem groupBins_weigh (positions : LogPositions) (metric : DistributionMetric) (axis : Axis)
    {binCount : Nat} (h : 0 < binCount) (transactions : List MempoolEntry) :
    let filled := groupBins positions metric axis binCount transactions
    filled.weights.length = binCount ∧ filled.weights.sum = totalWeight metric transactions ∧
      filled.groupWeight = totalWeight metric transactions := by
  induction transactions using List.reverseRecOn with
  | nil => exact ⟨List.length_replicate, by simp [groupBins], rfl⟩
  | append_singleton transactions transaction ih =>
    obtain ⟨hLength, hSum, hWeight⟩ := ih
    have hBin := axis.binOf_inRange positions h transaction
    have hTotal : totalWeight metric (transactions ++ [transaction]) =
        totalWeight metric transactions + metricWeight transaction metric := by
      rw [totalWeight_append, totalWeight_cons, totalWeight_nil, Nat.add_zero]
    have hLast : groupBins positions metric axis binCount (transactions ++ [transaction]) =
        (groupBins positions metric axis binCount transactions).add positions metric axis binCount
          transaction := by
      rw [groupBins, List.foldl_append]
      rfl
    rw [hLast, hTotal, GroupBins.add]
    dsimp only
    split
    · next hNone =>
      rw [Nat.le_zero.mp hNone]
      exact ⟨hLength, hSum, hWeight⟩
    · refine ⟨?_, ?_, ?_⟩
      · rw [length_raise, hLength]
      · rw [sum_raise (hLength.symm ▸ hBin), hSum]
      · rw [hWeight]

theorem binsWeigh_addBin {group : TransactionGroup} {weights : List Nat}
    {binCount total weight : Nat} {spectrum : FeeSpectrum}
    (h : BinsWeigh binCount total weight spectrum) {bin : Nat} (hBin : bin < binCount) :
    BinsWeigh binCount total (weight + (weights[bin]?).getD 0)
      (spectrum.addBin group weights bin) := by
  unfold FeeSpectrum.addBin
  dsimp only
  split
  · next hNone =>
    rw [Nat.le_zero.mp hNone]
    exact h
  · have hPlace : bin < spectrum.bins.length := h.size.symm ▸ hBin
    have hEntry : spectrum.bins[bin]? = some spectrum.bins[bin] := List.getElem?_eq_getElem hPlace
    rw [hEntry]
    refine ⟨?_, h.total, ?_, fun other hMem => ?_⟩
    · rw [List.length_set, h.size]
    · rw [sum_map_set hEntry rfl, h.bins]
    · rcases List.mem_or_eq_of_mem_set hMem with hOld | rfl
      · exact h.segments other hOld
      · dsimp only
        rw [List.map_append, List.sum_append, ← h.segments _ (List.getElem_mem hPlace)]
        simp

theorem binsWeigh_foldl (group : TransactionGroup) (weights : List Nat)
    {binCount total weight : Nat} {spectrum : FeeSpectrum}
    (h : BinsWeigh binCount total weight spectrum) {places : List Nat}
    (hPlaces : ∀ bin ∈ places, bin < binCount) :
    BinsWeigh binCount total
      (weight + (places.map fun bin => (weights[bin]?).getD 0).sum)
      (places.foldl (FeeSpectrum.addBin group weights) spectrum) := by
  induction places generalizing spectrum weight with
  | nil => exact h
  | cons bin rest ih =>
    obtain ⟨hBin, hRest⟩ := List.forall_mem_cons.mp hPlaces
    rw [List.foldl_cons, List.map_cons, List.sum_cons, ← Nat.add_assoc]
    exact ih (binsWeigh_addBin h hBin) hRest

/-- One group adds its weight. -/
theorem spectrumWeighs_addGroup {positions : LogPositions} {metric : DistributionMetric}
    {axis : Axis} {binCount weight : Nat} (hCount : 0 < binCount) {spectrum : FeeSpectrum}
    (h : SpectrumWeighs binCount weight spectrum) (group : TransactionGroup) :
    SpectrumWeighs binCount (weight + totalWeight metric group.transactions)
      (spectrum.addGroup positions metric axis binCount group) := by
  obtain ⟨hLength, hSum, hWeight⟩ :=
    groupBins_weigh positions metric axis hCount group.transactions
  unfold FeeSpectrum.addGroup
  dsimp only
  split
  · next hNone =>
    rw [← hWeight, hNone]
    exact h
  · have hStart : BinsWeigh binCount
        (spectrum.totalWeight + totalWeight metric group.transactions) weight
        { spectrum with totalWeight := spectrum.totalWeight +
          (groupBins positions metric axis binCount group.transactions).groupWeight } :=
      ⟨h.size, by rw [hWeight], h.bins, h.segments⟩
    obtain ⟨hBins, hTotal, hAll, hSegments⟩ :=
      binsWeigh_foldl group (groupBins positions metric axis binCount group.transactions).weights
        hStart fun bin (hMem : bin ∈ List.range binCount) => List.mem_range.mp hMem
    refine ⟨hBins, hTotal.trans (by rw [h.total]), ?_, hSegments⟩
    rw [hAll, map_range_getD hLength, hSum]

theorem spectrumWeighs_foldl (positions : LogPositions) (metric : DistributionMetric)
    (axis : Axis) {binCount weight : Nat} (hCount : 0 < binCount) {spectrum : FeeSpectrum}
    (h : SpectrumWeighs binCount weight spectrum) (groups : List TransactionGroup) :
    SpectrumWeighs binCount (weight + totalWeight metric (groups.flatMap (·.transactions)))
      (groups.foldl (FeeSpectrum.addGroup positions metric axis binCount) spectrum) := by
  induction groups generalizing spectrum weight with
  | nil => exact h
  | cons group rest ih =>
    rw [List.foldl_cons, List.flatMap_cons, totalWeight_append, ← Nat.add_assoc]
    exact ih (spectrumWeighs_addGroup hCount h group)

/-- **A spectrum conserves the weight** of its groups. -/
theorem buildSpectrum_weighs (positions : LogPositions) (groups : List TransactionGroup)
    (metric : DistributionMetric) (axis : Axis) {binCount : Nat} (hCount : 0 < binCount) :
    SpectrumWeighs binCount (totalWeight metric (groups.flatMap (·.transactions)))
      (buildSpectrum positions groups metric axis binCount) := by
  have hStart : SpectrumWeighs binCount 0
      { bins := List.replicate binCount {}, maxBin := 0, totalWeight := 0 } := by
    refine ⟨List.length_replicate, rfl, by simp, fun bin hMem => ?_⟩
    rw [List.eq_of_mem_replicate hMem]
    rfl
  have hAll := spectrumWeighs_foldl positions metric axis hCount hStart groups
  rwa [Nat.zero_add] at hAll

end MempoolAtlas.Web
