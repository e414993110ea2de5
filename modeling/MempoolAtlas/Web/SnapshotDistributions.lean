import MempoolAtlas.Web.Mosaic
import MempoolAtlas.Web.PolicyView
import MempoolAtlas.Web.Spectra
import MempoolAtlas.Web.TerrainGroups

/-!
# Snapshot distributions

`web/src/snapshot-distributions.ts`: the nine distribution panels of a snapshot
and the totals they are read against.

## Results

* `buildSnapshotDistributionModel_conserves` — the panels conserve the population.
* `population_conserved` — whatever the lens, the metric and the limits, every terrain and panel
  covers the rows.
-/

namespace MempoolAtlas.Web

open Model

/-- How many transactions, and their size. -/
structure DistributionPopulationTotals where
  count : Nat := 0
  vsize : Nat := 0
deriving DecidableEq, Repr

namespace DistributionPopulationTotals

/-- One transaction more. -/
def addTransaction (totals : DistributionPopulationTotals) (transaction : MempoolEntry) :
    DistributionPopulationTotals :=
  { count := totals.count + 1, vsize := totals.vsize + transaction.vsize }

/-- What the totals weigh under a metric. -/
def weight (totals : DistributionPopulationTotals) : DistributionMetric → Nat
  | .count => totals.count
  | .vsize => totals.vsize

end DistributionPopulationTotals

/-- The totals of all rows, of those with a structure, of those that carry data and of the
replaceable ones. -/
structure SnapshotDistributionTotals where
  population : DistributionPopulationTotals := {}
  structured : DistributionPopulationTotals := {}
  carrier : DistributionPopulationTotals := {}
  replaceable : DistributionPopulationTotals := {}
deriving DecidableEq, Repr

/-- `structure?.op_return_bytes ?? 0` -/
def opReturnBytes (transaction : MempoolEntry) : Nat := structureCount (·.opReturnBytes) transaction

/-- The groups with the rows that are kept; empty ones are left out. -/
def filteredGroups (groups : List TransactionGroup) (keep : MempoolEntry → Bool) :
    List TransactionGroup :=
  (groups.map fun group => { group with transactions := group.transactions.filter keep }).filter
    fun group => 0 < group.transactions.length

/-- A row counts in every population it belongs to. -/
def SnapshotDistributionTotals.add (totals : SnapshotDistributionTotals)
    (transaction : MempoolEntry) : SnapshotDistributionTotals :=
  let totals := { totals with population := totals.population.addTransaction transaction }
  let totals := match transaction.transactionStructure with
    | none => totals
    | some facts =>
      let totals := { totals with structured := totals.structured.addTransaction transaction }
      if 0 < facts.opReturnBytes then
        { totals with carrier := totals.carrier.addTransaction transaction }
      else totals
  if transaction.replaceable then
    { totals with replaceable := totals.replaceable.addTransaction transaction }
  else totals

/-- The totals of a snapshot. -/
def buildTotals (transactions : List MempoolEntry) : SnapshotDistributionTotals :=
  transactions.foldl SnapshotDistributionTotals.add {}

/-- What the panels are built from. -/
structure SnapshotDistributionInput where
  transactions : List MempoolEntry
  classifierCatalog : List ClassifierDescriptor
  selectedClassifier : Option ClassifierDescriptor
  observedAtMs : Int
  metric : DistributionMetric
  groupLimit : Nat
  dataGroupLimit : Nat

/-- The panels. -/
structure SnapshotDistributionModel where
  composition : List CompositionBar
  feeSpectrum : FeeSpectrum
  ancestorFeeSpectrum : FeeSpectrum
  jointDensity : JointDensity
  ageMosaic : AgeMosaic
  dataSpectrum : FeeSpectrum
  complexityDensity : JointDensity
  entanglement : List CompositionBar
  valueSpectrum : FeeSpectrum
  totals : SnapshotDistributionTotals

/-- `buildSnapshotDistributionModel`: every panel over one grouping of the rows. -/
def buildSnapshotDistributionModel (collation : Collation) (formatCount : Nat → String)
    (positions : LogPositions) (input : SnapshotDistributionInput) : SnapshotDistributionModel :=
  let groups := (panelBucketGroups collation formatCount input.transactions
    input.selectedClassifier input.metric input.groupLimit).map (·.toTransactionGroup)
  let dataDescriptor := input.classifierCatalog.find? fun descriptor =>
    descriptor.id == "data_protocols"
  let carrierGroups := filteredGroups
    ((panelBucketGroups collation formatCount input.transactions dataDescriptor input.metric
      input.dataGroupLimit).map (·.toTransactionGroup))
    fun transaction => 0 < opReturnBytes transaction
  let structuredGroups := filteredGroups groups fun transaction =>
    transaction.transactionStructure.isSome
  { composition := buildCompositionBars collation input.transactions input.classifierCatalog
      input.metric compositionMaxSegments
    feeSpectrum := buildFeeSpectrum positions groups input.metric spectrumBins
    ancestorFeeSpectrum := buildSpectrum positions groups input.metric
      ⟨.feeRate, ancestorFeeRate⟩ spectrumBins
    jointDensity := buildJointDensity positions input.transactions input.metric jointColumns
      jointRows
    ageMosaic := buildAgeMosaic groups input.observedAtMs input.metric
    dataSpectrum := buildSpectrum positions carrierGroups input.metric
      ⟨.dataBytes, fun transaction => opReturnBytes transaction⟩ spectrumBins
    complexityDensity := buildComplexityDensity positions input.transactions input.metric
      jointColumns jointRows
    entanglement := buildEntanglementBars input.transactions input.metric
    valueSpectrum := buildSpectrum positions structuredGroups input.metric
      ⟨.outputValue, fun transaction => structureCount (·.outputSats) transaction⟩ spectrumBins
    totals := buildTotals input.transactions }

-- ---------------------------------------------------------------------------
-- Totals
-- ---------------------------------------------------------------------------

/-- The totals of a list of transactions. -/
def totalsOf (transactions : List MempoolEntry) : DistributionPopulationTotals where
  count := transactions.length
  vsize := sumVsize transactions

/-- Totals weigh what their rows weigh. -/
theorem totalsOf_weight (transactions : List MempoolEntry) (metric : DistributionMetric) :
    (totalsOf transactions).weight metric = totalWeight metric transactions := by
  cases metric with
  | count => exact (totalWeight_count transactions).symm
  | vsize => rfl

theorem totalsOf_append (transactions : List MempoolEntry) (transaction : MempoolEntry) :
    totalsOf (transactions ++ [transaction]) = (totalsOf transactions).addTransaction transaction := by
  simp [totalsOf, DistributionPopulationTotals.addTransaction, sumVsize]

/-- Each total is that of the transactions it is about. -/
theorem buildTotals_eq (transactions : List MempoolEntry) : buildTotals transactions = {
    population := totalsOf transactions
    structured := totalsOf (transactions.filter fun transaction =>
      transaction.transactionStructure.isSome)
    carrier := totalsOf (transactions.filter fun transaction => 0 < opReturnBytes transaction)
    replaceable := totalsOf (transactions.filter (·.replaceable)) } := by
  induction transactions using List.reverseRecOn with
  | nil => rfl
  | append_singleton transactions transaction ih =>
    have hFilter : ∀ keep : MempoolEntry → Bool,
        totalsOf ((transactions ++ [transaction]).filter keep) =
          if keep transaction then (totalsOf (transactions.filter keep)).addTransaction transaction
          else totalsOf (transactions.filter keep) := by
      intro keep
      rw [List.filter_append, List.filter_singleton]
      cases keep transaction with
      | true => exact totalsOf_append _ transaction
      | false => simp
    rw [buildTotals, List.foldl_append, ← buildTotals, ih, hFilter, hFilter, hFilter,
      totalsOf_append, List.foldl_cons, List.foldl_nil, SnapshotDistributionTotals.add]
    cases hFacts : transaction.transactionStructure with
    | none =>
      have hBytes : opReturnBytes transaction = 0 := by
        rw [opReturnBytes, structureCount, hFacts, Option.map_none, Option.getD_none]
      cases transaction.replaceable <;> simp [hBytes]
    | some facts =>
      have hBytes : opReturnBytes transaction = facts.opReturnBytes := by
        rw [opReturnBytes, structureCount, hFacts, Option.map_some, Option.getD_some]
      by_cases hCarrier : 0 < facts.opReturnBytes <;>
        cases transaction.replaceable <;> simp [hBytes, hCarrier]

/-- Filtering groups keeps the rows that are kept. -/
theorem filteredGroups_flatMap (groups : List TransactionGroup) (keep : MempoolEntry → Bool) :
    (filteredGroups groups keep).flatMap (·.transactions) =
      (groups.flatMap (·.transactions)).filter keep := by
  induction groups with
  | nil => rfl
  | cons group rest ih =>
    rw [List.flatMap_cons, List.filter_append, ← ih, filteredGroups, List.map_cons, List.filter_cons]
    split
    · rw [List.flatMap_cons]
      rfl
    · next hNone =>
      have hEmpty : group.transactions.filter keep = [] := by
        simpa using hNone
      rw [hEmpty, List.nil_append]
      rfl

-- ---------------------------------------------------------------------------
-- Conservation
-- ---------------------------------------------------------------------------

/-- Every panel weighs what its total does. -/
structure PanelsConserve (metric : DistributionMetric) (catalog : List ClassifierDescriptor)
    (model : SnapshotDistributionModel) : Prop where
  lenses : model.composition.map (·.classifierId) = catalog.map (·.id)
  composition : ∀ bar ∈ model.composition, bar.weight metric = model.totals.population.weight metric
  feeSpectrum : SpectrumWeighs spectrumBins (model.totals.population.weight metric) model.feeSpectrum
  ancestorFeeSpectrum : SpectrumWeighs spectrumBins (model.totals.population.weight metric)
    model.ancestorFeeSpectrum
  jointDensity : DensityWeighs jointColumns jointRows (model.totals.population.weight metric)
    model.jointDensity
  ageMosaic : MosaicWeighs (model.totals.population.weight metric) model.ageMosaic
  entanglement : ∀ bar ∈ model.entanglement,
    bar.weight metric = model.totals.population.weight metric
  valueSpectrum : SpectrumWeighs spectrumBins (model.totals.structured.weight metric)
    model.valueSpectrum
  complexityDensity : DensityWeighs jointColumns jointRows (model.totals.structured.weight metric)
    model.complexityDensity
  dataSpectrum : SpectrumWeighs spectrumBins (model.totals.carrier.weight metric) model.dataSpectrum

/-- The groups of a panel, kept or not, weigh what the transactions do. -/
theorem panelGroups_weight (collation : Collation) (formatCount : Nat → String)
    (transactions : List MempoolEntry) (descriptor : Option ClassifierDescriptor)
    (metric : DistributionMetric) (limit : Nat) (keep : MempoolEntry → Bool) :
    totalWeight metric ((filteredGroups ((panelBucketGroups collation formatCount transactions
      descriptor metric limit).map (·.toTransactionGroup)) keep).flatMap (·.transactions)) =
        totalWeight metric (transactions.filter keep) := by
  rw [filteredGroups_flatMap, List.flatMap_map]
  exact totalWeight_perm ((panelBucketGroups_perm collation formatCount transactions descriptor
    metric limit).filter keep)

/-- **The panels conserve the population.** -/
theorem buildSnapshotDistributionModel_conserves (collation : Collation)
    (formatCount : Nat → String) (positions : LogPositions) (input : SnapshotDistributionInput) :
    PanelsConserve input.metric input.classifierCatalog
      (buildSnapshotDistributionModel collation formatCount positions input) := by
  have hTotals := buildTotals_eq input.transactions
  have hGroups : totalWeight input.metric (((panelBucketGroups collation formatCount
      input.transactions input.selectedClassifier input.metric input.groupLimit).map
        (·.toTransactionGroup)).flatMap (·.transactions)) =
          totalWeight input.metric input.transactions := by
    rw [List.flatMap_map]
    exact totalWeight_perm (panelBucketGroups_perm _ _ _ _ _ _)
  unfold buildSnapshotDistributionModel
  constructor <;> dsimp only
  · rw [buildCompositionBars, List.map_map]
    refine List.map_congr_left fun descriptor _ => ?_
    rw [Function.comp_apply, buildCompositionBar]
    dsimp only
    split <;> rfl
  · intro bar hBar
    obtain ⟨descriptor, -, rfl⟩ := List.mem_map.mp hBar
    rw [buildCompositionBar_weight, hTotals, totalsOf_weight]
  · rw [hTotals, totalsOf_weight, ← hGroups]
    exact buildSpectrum_weighs _ _ _ _ (by decide)
  · rw [hTotals, totalsOf_weight, ← hGroups]
    exact buildSpectrum_weighs _ _ _ _ (by decide)
  · rw [hTotals, totalsOf_weight]
    exact buildDensity_weighs _ _ _ _ _ (by decide) (by decide)
  · rw [hTotals, totalsOf_weight, ← hGroups]
    exact buildAgeMosaic_weighs _ _ _
  · intro bar hBar
    rw [buildEntanglementBars_weight hBar, hTotals, totalsOf_weight]
  · rw [hTotals, totalsOf_weight, ← panelGroups_weight collation formatCount input.transactions
      input.selectedClassifier input.metric input.groupLimit]
    exact buildSpectrum_weighs _ _ _ _ (by decide)
  · rw [hTotals, totalsOf_weight]
    exact buildDensity_weighs _ _ _ _ _ (by decide) (by decide)
  · rw [hTotals, totalsOf_weight, ← panelGroups_weight collation formatCount input.transactions]
    exact buildSpectrum_weighs _ _ _ _ (by decide)

/-- Buckets that hold each transaction once, shared as a generic lens reads them. -/
structure BucketsConserve (transactions : List MempoolEntry) (descriptor : ClassifierDescriptor)
    (buckets : List ClassifierBucket) : Prop extends
    BucketsPartition transactions descriptor buckets where
  placed : ∀ transaction ∈ transactions,
    ∃! bucket, bucket ∈ buckets ∧ transaction ∈ bucket.transactions
  shared : descriptor.id ≠ transactionPropertiesClassifierId →
    ∀ first ∈ transactions, ∀ second ∈ transactions,
      (∃ bucket ∈ buckets, first ∈ bucket.transactions ∧ second ∈ bucket.transactions) ↔
        coverage descriptor first = coverage descriptor second ∧
          SameDeclared descriptor (lensLabels descriptor first) (lensLabels descriptor second)

/-- The buckets of a lens conserve the rows. -/
theorem classifierBuckets_conserve (collation : Collation) (transactions : List MempoolEntry)
    (descriptor : ClassifierDescriptor) :
    BucketsConserve transactions descriptor
      (classifierBuckets collation transactions descriptor) := by
  have hBuckets := classifierBuckets_partition collation transactions descriptor
  exact ⟨hBuckets, fun transaction hMem => hBuckets.existsUnique hMem,
    fun hGeneric first hFirst second hSecond =>
      (hBuckets.shared_iff hFirst hSecond).trans (bucketKey_eq_iff hGeneric)⟩

/-- Whatever the lens, the metric and the limits, every terrain and every panel of an
accepted list covers it. -/
theorem population_conserved (collation : Collation) (formatCount : Nat → String)
    (positions : LogPositions) (snapshot : MempoolSnapshot) (hSnapshot : AcceptedSnapshot snapshot)
    (input : SnapshotDistributionInput) (hInput : input.transactions = snapshot.transactions) :
    (∀ descriptor, BucketsConserve snapshot.transactions descriptor
        (classifierBuckets collation snapshot.transactions descriptor)) ∧
      (∀ descriptor, ((classifierTerrainGroups collation snapshot.transactions
        descriptor).flatMap fun group =>
          group.regions.map fun region => (region.key, region.transactions)).Perm
            ((classifierBuckets collation snapshot.transactions descriptor).map fun bucket =>
              (bucket.key, bucket.transactions))) ∧
      TerrainConserves collation snapshot.transactions
        (terrainGroups collation snapshot.transactions) ∧
      (∀ descriptor metric limit,
        ((panelBucketGroups collation formatCount snapshot.transactions descriptor metric
          limit).flatMap (·.transactions)).Perm snapshot.transactions ∧
        ∀ transaction ∈ snapshot.transactions, ∃! group,
          group ∈ panelBucketGroups collation formatCount snapshot.transactions descriptor metric
            limit ∧ transaction ∈ group.transactions) ∧
      PanelsConserve input.metric input.classifierCatalog
        (buildSnapshotDistributionModel collation formatCount positions input) ∧
      (buildSnapshotDistributionModel collation formatCount positions input).totals.population =
        totalsOf snapshot.transactions := by
  have hDistinct : snapshot.transactions.Nodup :=
    hSnapshot.rows.1.imp fun hBefore hSame => hBefore.ne (congrArg MempoolEntry.txid hSame)
  refine ⟨fun descriptor => classifierBuckets_conserve collation snapshot.transactions descriptor,
    fun descriptor => classifierTerrainGroups_regions collation snapshot.transactions descriptor,
    terrainGroups_conserve collation snapshot.transactions, fun descriptor metric limit => ?_,
    buildSnapshotDistributionModel_conserves collation formatCount positions input, ?_⟩
  · exact ⟨panelBucketGroups_perm collation formatCount snapshot.transactions descriptor metric
      limit, fun transaction hMem => panelBucketGroups_existsUnique collation formatCount hDistinct
        descriptor metric limit hMem⟩
  · show (buildTotals input.transactions).population = _
    rw [buildTotals_eq, hInput]

/-- The catalog's data-protocols lens. -/
def mixedLens : ClassifierDescriptor := classifierCatalog.get ⟨2, by decide⟩

/-- Its buckets of the mixed population, in the order they are met. -/
def mixedBuckets : List (InsertionMap.Bucket ClassifierBucketSignature MempoolEntry) :=
  (InsertionMap.bucketBy
    (fun transaction => some (classifierBucketForTransaction mixedLens transaction))
    ClassifierBucketSignature.key mixedRows).values

/-- They are sorted already, and so are the rows of each. -/
theorem classifierBuckets_mixedRows :
    classifierBuckets codePointCollation mixedRows mixedLens = mixedBuckets.map fun bucket =>
      { finishBucket codePointCollation mixedLens 6 bucket with transactions := bucket.items } := by
  have hSorted : ∀ bucket ∈ mixedBuckets, bucket.items.Pairwise fun left right =>
      ((compare right.vsize left.vsize).then
        (codePointCollation.compare left.txid right.txid)).isLE := by
    decide +kernel
  show (mixedBuckets.mergeSort _).map _ = _
  rw [List.mergeSort_of_pairwise (by decide +kernel)]
  refine List.map_congr_left ?_
  intro bucket hMem
  have hSame : sortPopulation codePointCollation bucket.items = bucket.items :=
    List.mergeSort_of_pairwise (hSorted bucket hMem)
  simp only [finishBucket, hSame]
  rfl

/-- The mixed population by size under the data-protocols lens, with room for two groups. -/
def mixedInput : SnapshotDistributionInput where
  transactions := mixedRows
  classifierCatalog := classifierCatalog
  selectedClassifier := some mixedLens
  observedAtMs := 0
  metric := .vsize
  groupLimit := 2
  dataGroupLimit := panelGroupLimit

/-- Its two largest protocols have a group each, and three buckets go into a third; every panel
weighs what the rows it is about do. -/
theorem population_conserved_mixed :
    let groups := panelBucketGroups codePointCollation Nat.repr mixedRows
      mixedInput.selectedClassifier .vsize 2
    let model := buildSnapshotDistributionModel codePointCollation Nat.repr
      ⟨fun _ _ => 0, fun _ _ => le_rfl, fun _ _ => zero_le_one⟩ mixedInput
    groups.map (fun group => (group.label, totalWeight .vsize group.transactions)) =
        [("Inscription", 600), ("Runes", 500), ("3 more buckets", 850)] ∧
      (groups.flatMap (·.transactions)).Perm mixedRows ∧
      (∀ bar ∈ model.composition, bar.weight .vsize = 1950) ∧
      model.feeSpectrum.totalWeight = 1950 ∧ (model.feeSpectrum.bins.map (·.total)).sum = 1950 ∧
      model.ageMosaic.totalWeight = 1950 ∧ model.valueSpectrum.totalWeight = 1850 ∧
      model.dataSpectrum.totalWeight = 900 := by
  intro groups model
  obtain ⟨-, -, -, hGroups, hPanels, -⟩ := population_conserved codePointCollation Nat.repr
    ⟨fun _ _ => 0, fun _ _ => le_rfl, fun _ _ => zero_le_one⟩ (sampleSnapshot "core" mixedRows)
    sampleSnapshots_accepted.1 mixedInput rfl
  refine ⟨?_, (hGroups _ _ _).1, fun bar hMem => (hPanels.composition bar hMem).trans ?_,
    hPanels.feeSpectrum.total.trans ?_, hPanels.feeSpectrum.bins.trans ?_,
    hPanels.ageMosaic.total.trans ?_, hPanels.valueSpectrum.total.trans ?_,
    hPanels.dataSpectrum.total.trans ?_⟩
  · have hLargest : largestBuckets .vsize 2
        (classifierBuckets codePointCollation mixedRows mixedLens) =
          ["complete:0", "complete:2"] := by
      rw [classifierBuckets_mixedRows, largestBuckets,
        List.mergeSort_of_pairwise (by decide +kernel)]
      decide +kernel
    simp only [groups, mixedInput, panelBucketGroups, hLargest]
    rw [classifierBuckets_mixedRows]
    decide +kernel
  all_goals decide +kernel

end MempoolAtlas.Web
