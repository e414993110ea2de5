import MempoolAtlas.Lib.Histogram
import MempoolAtlas.Web.Composition

/-!
# Age mosaic

`web/src/mosaic.ts`: each group of a population as a column of age bands, the
ages measured from the observation.

## Results

* `bandIndex_lt` — every age falls in a band.
* `buildAgeMosaic_weighs` — the mosaic holds the weight of its groups, once.
-/

namespace MempoolAtlas.Web

open Histogram Model

/-- A band of the mosaic: the ages below `maxAgeMs`, or all that remain. -/
structure AgeBand where
  key : String
  label : String
  color : String
  maxAgeMs : Option Int
deriving DecidableEq, Repr

/-- The `AGE_BANDS` of the panel, from the youngest to the oldest. -/
def ageBands : List AgeBand :=
  [ { key := "under_10m", label := "< 10 min", color := "#b9eff3", maxAgeMs := some 600000 },
    { key := "under_1h", label := "10–60 min", color := "#72c8d6", maxAgeMs := some 3600000 },
    { key := "under_6h", label := "1–6 h", color := "#4397ac", maxAgeMs := some 21600000 },
    { key := "under_24h", label := "6–24 h", color := "#2f6a80", maxAgeMs := some 86400000 },
    { key := "over_24h", label := "> 24 h", color := "#28495c", maxAgeMs := none } ]

/-- A cell of a column: one band's share of the group. -/
structure MosaicCell where
  bandKey : String
  bandLabel : String
  bandColor : String
  count : Nat
  weight : Nat
  share : ℚ
deriving DecidableEq, Repr

/-- A column of the mosaic: one group over the bands it has transactions in. -/
structure MosaicColumn where
  key : String
  label : String
  color : String
  count : Nat
  weight : Nat
  share : ℚ
  cells : List MosaicCell
deriving DecidableEq, Repr

/-- The mosaic: its columns and the weight they share. -/
structure AgeMosaic where
  columns : List MosaicColumn
  totalWeight : Nat
deriving DecidableEq, Repr

/-- The first band that an age fits, the last when none does. -/
def bandIndex (ageMs : Int) : Nat :=
  (ageBands.findIdx? fun band => band.maxAgeMs.all fun maxAgeMs => ageMs < maxAgeMs).getD
    (ageBands.length - 1)

/-- What a band of a group has gathered. -/
structure BandWeight where
  count : Nat := 0
  weight : Nat := 0
deriving DecidableEq, Repr

/-- What the bands of a group have gathered. -/
structure BandWeights where
  bands : List BandWeight
  groupWeight : Nat

/-- A transaction is counted in the band of its age at the observation. -/
def BandWeights.add (observedAtMs : Int) (metric : DistributionMetric) (group : BandWeights)
    (transaction : MempoolEntry) : BandWeights :=
  let weight := metricWeight transaction metric
  if weight ≤ 0 then group
  else
    let ageMs := max 0 (observedAtMs - transaction.enteredAtMs)
    match group.bands[bandIndex ageMs]? with
    | none => group
    | some entry => {
        bands := group.bands.set (bandIndex ageMs)
          { count := entry.count + 1, weight := entry.weight + weight }
        groupWeight := group.groupWeight + weight }

/-- The bands of a group's transactions. -/
def bandWeights (observedAtMs : Int) (metric : DistributionMetric)
    (transactions : List MempoolEntry) : BandWeights :=
  transactions.foldl (BandWeights.add observedAtMs metric) ⟨ageBands.map fun _ => {}, 0⟩

/-- The cell of a band; an empty band has none. -/
def mosaicCell (groupWeight : Nat) (band : AgeBand) (entry : BandWeight) : List MosaicCell :=
  if entry.weight = 0 then []
  else [{
    bandKey := band.key, bandLabel := band.label, bandColor := band.color
    count := entry.count, weight := entry.weight, share := entry.weight / groupWeight }]

/-- The column of a group; its cells are its filled bands. -/
def mosaicColumn (group : TransactionGroup) (filled : BandWeights) : MosaicColumn where
  key := group.key
  label := group.label
  color := group.color
  count := group.transactions.length
  weight := filled.groupWeight
  share := 0
  cells := (ageBands.zip filled.bands).flatMap fun entry =>
    mosaicCell filled.groupWeight entry.1 entry.2

/-- A group without weight has no column. -/
def AgeMosaic.addGroup (observedAtMs : Int) (metric : DistributionMetric) (mosaic : AgeMosaic)
    (group : TransactionGroup) : AgeMosaic :=
  let filled := bandWeights observedAtMs metric group.transactions
  if filled.groupWeight = 0 then mosaic
  else {
    columns := mosaic.columns ++ [mosaicColumn group filled]
    totalWeight := mosaic.totalWeight + filled.groupWeight }

/-- `buildAgeMosaic`: the groups in order, over their age bands. -/
def buildAgeMosaic (groups : List TransactionGroup) (observedAtMs : Int)
    (metric : DistributionMetric) : AgeMosaic :=
  let mosaic := groups.foldl (AgeMosaic.addGroup observedAtMs metric) ⟨[], 0⟩
  { mosaic with columns := mosaic.columns.map fun column =>
      { column with share := shareOf column.weight mosaic.totalWeight } }

-- ---------------------------------------------------------------------------
-- What a mosaic weighs
-- ---------------------------------------------------------------------------

/-- The columns of a mosaic sum to one weight, each the sum of its cells. -/
structure MosaicWeighs (weight : Nat) (mosaic : AgeMosaic) : Prop where
  total : mosaic.totalWeight = weight
  columns : (mosaic.columns.map (·.weight)).sum = weight
  cells : ∀ column ∈ mosaic.columns, (column.cells.map (·.weight)).sum = column.weight

/-- Every age falls in a band. -/
theorem bandIndex_lt (ageMs : Int) : bandIndex ageMs < ageBands.length := by
  unfold bandIndex
  cases hFound : ageBands.findIdx? fun band =>
      band.maxAgeMs.all fun maxAgeMs => ageMs < maxAgeMs with
  | none => decide
  | some index => exact (List.findIdx?_eq_some_iff_findIdx_eq.mp hFound).1

/-- The bands of a group hold its weight and its transactions, once each. -/
theorem bandWeights_weigh (observedAtMs : Int) (metric : DistributionMetric)
    (transactions : List MempoolEntry) :
    let filled := bandWeights observedAtMs metric transactions
    filled.bands.length = ageBands.length ∧
      (filled.bands.map (·.weight)).sum = totalWeight metric transactions ∧
      filled.groupWeight = totalWeight metric transactions := by
  induction transactions using List.reverseRecOn with
  | nil => exact ⟨List.length_map _, rfl, rfl⟩
  | append_singleton transactions transaction ih =>
    obtain ⟨hLength, hSum, hWeight⟩ := ih
    have hTotal : totalWeight metric (transactions ++ [transaction]) =
        totalWeight metric transactions + metricWeight transaction metric := by
      rw [totalWeight_append, totalWeight_cons, totalWeight_nil, Nat.add_zero]
    have hLast : bandWeights observedAtMs metric (transactions ++ [transaction]) =
        (bandWeights observedAtMs metric transactions).add observedAtMs metric transaction := by
      rw [bandWeights, List.foldl_append]
      rfl
    rw [hLast, hTotal, BandWeights.add]
    dsimp only
    split
    · next hNone =>
      rw [Nat.le_zero.mp hNone]
      exact ⟨hLength, hSum, hWeight⟩
    · have hPlace := bandIndex_lt (max 0 (observedAtMs - transaction.enteredAtMs))
      rw [← hLength] at hPlace
      have hEntry := List.getElem?_eq_getElem hPlace
      rw [hEntry]
      refine ⟨by rw [List.length_set, hLength], ?_, by rw [hWeight]⟩
      rw [sum_map_set hEntry rfl, hSum]

/-- Leaving out empty bands loses no weight. -/
theorem mosaicCells_weight (groupWeight : Nat) {bands : List AgeBand} {entries : List BandWeight}
    (h : entries.length = bands.length) :
    (((bands.zip entries).flatMap fun entry => mosaicCell groupWeight entry.1 entry.2).map
      (·.weight)).sum = (entries.map (·.weight)).sum := by
  induction bands generalizing entries with
  | nil => rw [List.length_eq_zero_iff.mp h]; rfl
  | cons band rest ih =>
    cases entries with
    | nil => cases h
    | cons entry others =>
      have hCell : ((mosaicCell groupWeight band entry).map (·.weight)).sum = entry.weight := by
        unfold mosaicCell
        split
        · next hZero => exact hZero.symm
        · exact List.sum_singleton
      rw [List.zip_cons_cons, List.flatMap_cons, List.map_append, List.sum_append, hCell,
        ih (Nat.succ.inj h), List.map_cons, List.sum_cons]

/-- One group adds its own weight to the mosaic. -/
theorem mosaicWeighs_addGroup {observedAtMs : Int} {metric : DistributionMetric} {weight : Nat}
    {mosaic : AgeMosaic} (h : MosaicWeighs weight mosaic) (group : TransactionGroup) :
    MosaicWeighs (weight + totalWeight metric group.transactions)
      (mosaic.addGroup observedAtMs metric group) := by
  obtain ⟨hLength, hSum, hWeight⟩ := bandWeights_weigh observedAtMs metric group.transactions
  unfold AgeMosaic.addGroup
  dsimp only
  split
  · next hNone =>
    rw [← hWeight, hNone]
    exact h
  · refine ⟨by rw [h.total, hWeight], ?_, fun column hMem => ?_⟩
    · rw [List.map_append, List.sum_append, h.columns, List.map_singleton, List.sum_singleton]
      exact congrArg (weight + ·) hWeight
    · rcases List.mem_append.mp hMem with hOld | hNew
      · exact h.cells column hOld
      · obtain rfl := List.mem_singleton.mp hNew
        exact ((mosaicCells_weight _ hLength).trans hSum).trans hWeight.symm

/-- A list of groups adds its weight to the mosaic. -/
theorem mosaicWeighs_foldl (observedAtMs : Int) (metric : DistributionMetric) {weight : Nat}
    {mosaic : AgeMosaic} (h : MosaicWeighs weight mosaic) (groups : List TransactionGroup) :
    MosaicWeighs (weight + totalWeight metric (groups.flatMap (·.transactions)))
      (groups.foldl (AgeMosaic.addGroup observedAtMs metric) mosaic) := by
  induction groups generalizing mosaic weight with
  | nil => exact h
  | cons group rest ih =>
    rw [List.foldl_cons, List.flatMap_cons, totalWeight_append, ← Nat.add_assoc]
    exact ih (mosaicWeighs_addGroup h group)

/-- **The mosaic conserves the weight** of the transactions its groups hold. -/
theorem buildAgeMosaic_weighs (groups : List TransactionGroup) (observedAtMs : Int)
    (metric : DistributionMetric) :
    MosaicWeighs (totalWeight metric (groups.flatMap (·.transactions)))
      (buildAgeMosaic groups observedAtMs metric) := by
  have hAll := mosaicWeighs_foldl observedAtMs metric
    (⟨rfl, rfl, fun _ hMem => (nomatch hMem)⟩ : MosaicWeighs 0 ⟨[], 0⟩) groups
  rw [Nat.zero_add] at hAll
  refine ⟨hAll.total, ?_, fun column hMem => ?_⟩
  · unfold buildAgeMosaic
    dsimp only
    rw [List.map_map]
    exact hAll.columns
  · obtain ⟨found, hFound, rfl⟩ := List.mem_map.mp hMem
    exact hAll.cells found hFound

end MempoolAtlas.Web
