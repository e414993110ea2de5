import MempoolAtlas.Web.PanelGroups

/-!
# Composition bars

`web/src/composition.ts`: a population as one bar for each lens, its smaller
buckets rolled into one segment, and the two bars over mempool ancestry.

## Results

* `buildCompositionBar_weight` — a lens's bar holds the weight of all transactions.
* `buildEntanglementBars_weight` — so do the bars over ancestors and descendants.
-/

namespace MempoolAtlas.Web

open Model

/-- A segment of a bar: a label's transactions, their `vsize` and its share. -/
structure CompositionSegment where
  key : String
  label : String
  color : String
  count : Nat
  vsize : Nat
  share : ℚ
  bucketCount : Nat
deriving DecidableEq, Repr

/-- A bar of segments, under its title. -/
structure CompositionBar where
  classifierId : String
  title : String
  segments : List CompositionSegment
deriving DecidableEq, Repr

/-- `COMPOSITION_MAX_SEGMENTS`: the most segments a bar shows before its overflow. -/
def compositionMaxSegments : Nat := 8

/-- What a segment weighs under the selected metric. -/
def segmentWeight (segment : CompositionSegment) : DistributionMetric → Nat
  | .count => segment.count
  | .vsize => segment.vsize

/-- A share of a total; of nothing it is zero. -/
def shareOf (weight total : Nat) : ℚ := if total = 0 then 0 else weight / total

/-- The segment of one bucket of a lens. -/
def bucketSegment (descriptor : ClassifierDescriptor) (metric : DistributionMetric) (total : Nat)
    (bucket : ClassifierBucket) : CompositionSegment where
  key := bucket.key
  label := classifierBucketLabel descriptor bucket.toClassifierBucketSignature
  color := classifierBucketColor descriptor bucket.toClassifierBucketSignature
  count := bucket.count
  vsize := bucket.vsize
  share := shareOf (bucketWeight bucket metric) total
  bucketCount := 1

/-- The overflow before it has gathered anything. -/
def emptyOverflow : CompositionSegment where
  key := "overflow"
  label := ""
  color := "#3d4c5a"
  count := 0
  vsize := 0
  share := 0
  bucketCount := 0

/-- The segments that stay on their own, and the overflow of those that do not. -/
structure CompositionSplit where
  segments : List CompositionSegment := []
  overflow : Option CompositionSegment := none

/-- A retained bucket stays on its own, any other is gathered in the overflow. -/
def CompositionSplit.add (retained : List String) (split : CompositionSplit)
    (bucket : CompositionSegment) : CompositionSplit :=
  if retained.contains bucket.key then { split with segments := split.segments ++ [bucket] }
  else
    let overflow := split.overflow.getD emptyOverflow
    { split with overflow := some { overflow with
        count := overflow.count + bucket.count
        vsize := overflow.vsize + bucket.vsize
        share := overflow.share + bucket.share
        bucketCount := overflow.bucketCount + 1 } }

/-- The overflow with its label, when there is one. -/
def overflowSegment (overflow : Option CompositionSegment) : List CompositionSegment :=
  (overflow.map fun segment =>
    { segment with label := segment.bucketCount.repr ++ " more buckets" }).toList

/-- `buildCompositionBar`: the heaviest buckets on their own, in the catalog's order, the rest as
one overflow segment. -/
def buildCompositionBar (collation : Collation) (transactions : List MempoolEntry)
    (descriptor : ClassifierDescriptor) (metric : DistributionMetric) (maxSegments : Nat) :
    CompositionBar :=
  let buckets := (classifierBuckets collation transactions descriptor).map
    (bucketSegment descriptor metric (totalWeight metric transactions))
  if buckets.length ≤ maxSegments then
    { classifierId := descriptor.id, title := descriptor.title, segments := buckets }
  else
    let keep := max 1 (maxSegments - 1)
    let retained := ((buckets.mergeSort fun left right =>
      segmentWeight right metric ≤ segmentWeight left metric).take keep).map (·.key)
    let split := buckets.foldl (CompositionSplit.add retained) {}
    { classifierId := descriptor.id, title := descriptor.title
      segments := split.segments ++ overflowSegment split.overflow }

/-- One bar for each lens of the catalog. -/
def buildCompositionBars (collation : Collation) (transactions : List MempoolEntry)
    (catalog : List ClassifierDescriptor) (metric : DistributionMetric) (maxSegments : Nat) :
    List CompositionBar :=
  catalog.map fun descriptor =>
    buildCompositionBar collation transactions descriptor metric maxSegments

-- ---------------------------------------------------------------------------
-- Relatives
-- ---------------------------------------------------------------------------

/-- A band of the entanglement bars: the counts below `maximum`. -/
structure RelativeBand where
  key : String
  label : String
  color : String
  maximum : Option Nat
deriving DecidableEq, Repr

/-- The bands from no relatives to ten or more. -/
def relativeBands : List RelativeBand :=
  [ { key := "alone", label := "None", color := "#3d4c5a", maximum := some 1 },
    { key := "one", label := "1", color := "#72c8d6", maximum := some 2 },
    { key := "few", label := "2–4", color := "#4397ac", maximum := some 5 },
    { key := "several", label := "5–9", color := "#2f6a80", maximum := some 10 },
    { key := "many", label := "10+", color := "#9a7735", maximum := none } ]

/-- The band that a count of relatives falls in. -/
def relativeBand (count : Nat) : RelativeBand :=
  (relativeBands.find? fun band => band.maximum.all fun maximum => count < maximum).getD
    { key := "many", label := "10+", color := "#9a7735", maximum := none }

/-- What a band has gathered. -/
structure BandEntry where
  band : RelativeBand
  count : Nat
  vsize : Nat
deriving DecidableEq, Repr

/-- A transaction joins the entry of its band, which it may open. -/
def BandEntry.add (band : RelativeBand) (transaction : MempoolEntry) (found : Option BandEntry) :
    BandEntry :=
  let entry := found.getD { band, count := 0, vsize := 0 }
  { entry with count := entry.count + 1, vsize := entry.vsize + transaction.vsize }

/-- The bands of some transactions, by their counts. -/
def bandEntries (transactions : List MempoolEntry) (countOf : MempoolEntry → Nat) :
    InsertionMap String BandEntry :=
  InsertionMap.group (fun transaction => (relativeBand (countOf transaction)).key)
    (fun transaction => .add (relativeBand (countOf transaction)) transaction) transactions .empty

/-- The segment of a band. -/
def bandSegment (metric : DistributionMetric) (total : Nat) (band : RelativeBand)
    (entry : BandEntry) : CompositionSegment where
  key := band.key
  label := band.label
  color := band.color
  count := entry.count
  vsize := entry.vsize
  share := shareOf (match metric with | .count => entry.count | .vsize => entry.vsize) total
  bucketCount := 0

/-- A bar over the bands of one count; bands without transactions have no segment. -/
def relativeBar (title : String) (transactions : List MempoolEntry) (metric : DistributionMetric)
    (countOf : MempoolEntry → Nat) : CompositionBar where
  classifierId := title
  title
  segments := relativeBands.flatMap fun band =>
    (((bandEntries transactions countOf).get? band.key).map
      (bandSegment metric (totalWeight metric transactions) band)).toList

/-- `buildEntanglementBars`: one bar over the ancestors, one over the descendants. -/
def buildEntanglementBars (transactions : List MempoolEntry) (metric : DistributionMetric) :
    List CompositionBar :=
  [ relativeBar "Unconfirmed ancestors" transactions metric fun transaction =>
      transaction.ancestorCount - 1,
    relativeBar "Unconfirmed descendants" transactions metric fun transaction =>
      transaction.descendantCount - 1 ]

-- ---------------------------------------------------------------------------
-- What a bar weighs
-- ---------------------------------------------------------------------------

/-- What some segments weigh together. -/
def segmentsWeight (metric : DistributionMetric) (segments : List CompositionSegment) : Nat :=
  (segments.map fun segment => segmentWeight segment metric).sum

/-- What a bar weighs under a metric. -/
def CompositionBar.weight (bar : CompositionBar) (metric : DistributionMetric) : Nat :=
  segmentsWeight metric bar.segments

theorem segmentsWeight_append (metric : DistributionMetric)
    (first second : List CompositionSegment) :
    segmentsWeight metric (first ++ second) =
      segmentsWeight metric first + segmentsWeight metric second := by
  rw [segmentsWeight, List.map_append, List.sum_append]
  rfl

theorem segmentsWeight_singleton (metric : DistributionMetric) (segment : CompositionSegment) :
    segmentsWeight metric [segment] = segmentWeight segment metric := List.sum_singleton

/-- The buckets of a lens, as segments, weigh what the transactions weigh. -/
theorem bucketSegments_weight (collation : Collation) (transactions : List MempoolEntry)
    (descriptor : ClassifierDescriptor) (metric : DistributionMetric) (total : Nat) :
    segmentsWeight metric ((classifierBuckets collation transactions descriptor).map
      (bucketSegment descriptor metric total)) = totalWeight metric transactions := by
  have hBuckets := classifierBuckets_partition collation transactions descriptor
  rw [← totalWeight_perm hBuckets.all, totalWeight_flatMap, segmentsWeight, List.map_map]
  refine congrArg List.sum (List.map_congr_left fun bucket hMem => ?_)
  rw [← hBuckets.weight hMem metric]
  cases metric <;> rfl

/-- Leaving out an empty overflow loses no weight. -/
theorem overflowSegment_weight (metric : DistributionMetric) (overflow : Option CompositionSegment) :
    segmentsWeight metric (overflowSegment overflow) =
      segmentWeight (overflow.getD emptyOverflow) metric := by
  cases overflow <;> cases metric <;> rfl

/-- Nothing is lost between the retained segments and the overflow. -/
theorem compositionSplit_weight (metric : DistributionMetric) (retained : List String)
    (buckets : List CompositionSegment) :
    let split := buckets.foldl (CompositionSplit.add retained) {}
    segmentsWeight metric split.segments +
      segmentWeight (split.overflow.getD emptyOverflow) metric = segmentsWeight metric buckets := by
  induction buckets using List.reverseRecOn with
  | nil => cases metric <;> rfl
  | append_singleton buckets bucket ih =>
    rw [List.foldl_append, segmentsWeight_append, segmentsWeight_singleton, ← ih, List.foldl_cons,
      List.foldl_nil, CompositionSplit.add]
    split
    · dsimp only
      rw [segmentsWeight_append, segmentsWeight_singleton]
      omega
    · dsimp only
      rw [Option.getD_some, Nat.add_assoc]
      cases metric <;> rfl

/-- **A composition bar conserves the weight**: its segments and its overflow hold every
transaction once. -/
theorem buildCompositionBar_weight (collation : Collation) (transactions : List MempoolEntry)
    (descriptor : ClassifierDescriptor) (metric : DistributionMetric) (maxSegments : Nat) :
    (buildCompositionBar collation transactions descriptor metric maxSegments).weight metric =
      totalWeight metric transactions := by
  have hBuckets := bucketSegments_weight collation transactions descriptor metric
    (totalWeight metric transactions)
  unfold buildCompositionBar CompositionBar.weight
  dsimp only
  split
  · exact hBuckets
  · rw [segmentsWeight_append, overflowSegment_weight, compositionSplit_weight]
    exact hBuckets

-- ---------------------------------------------------------------------------
-- What a bar over relatives weighs
-- ---------------------------------------------------------------------------

theorem relativeBands_keys : (relativeBands.map (·.key)).Nodup := by decide

/-- Every count falls in one of the bands. -/
theorem relativeBand_key_mem (count : Nat) :
    (relativeBand count).key ∈ relativeBands.map (·.key) := by
  unfold relativeBand
  cases hFound : relativeBands.find? fun band =>
      band.maximum.all fun maximum => count < maximum with
  | none => decide
  | some band => exact List.mem_map.mpr ⟨band, List.mem_of_find?_eq_some hFound, rfl⟩

/-- What a band's entry weighs under a metric. -/
def BandEntry.weight (entry : BandEntry) : DistributionMetric → Nat
  | .count => entry.count
  | .vsize => entry.vsize

/-- The entry of a band weighs what its own transactions do. -/
theorem foldl_bandEntry (metric : DistributionMetric) (countOf : MempoolEntry → Nat)
    (transactions : List MempoolEntry) (start : Option BandEntry) :
    ((transactions.foldl (fun value transaction =>
      some (BandEntry.add (relativeBand (countOf transaction)) transaction value)) start).map
        fun entry => entry.weight metric).getD 0 =
      (start.map fun entry => entry.weight metric).getD 0 + totalWeight metric transactions := by
  induction transactions generalizing start with
  | nil => rfl
  | cons transaction rest ih =>
    rw [List.foldl_cons, ih, totalWeight_cons, ← Nat.add_assoc]
    refine congrArg (· + totalWeight metric rest) ?_
    cases start <;> cases metric <;> simp [BandEntry.add, BandEntry.weight, metricWeight]

/-- The segment of a band weighs what the transactions of that band weigh. -/
theorem bandSegments_weight (metric : DistributionMetric) (total : Nat)
    (transactions : List MempoolEntry) (countOf : MempoolEntry → Nat) (band : RelativeBand) :
    segmentsWeight metric (((bandEntries transactions countOf).get? band.key).map
      (bandSegment metric total band)).toList =
      totalWeight metric (transactions.filter fun transaction =>
        (relativeBand (countOf transaction)).key = band.key) := by
  have hEntry := foldl_bandEntry metric countOf (transactions.filter fun transaction =>
    (relativeBand (countOf transaction)).key = band.key) none
  rw [Option.map_none, Option.getD_none, Nat.zero_add] at hEntry
  rw [← hEntry, bandEntries, InsertionMap.get?_group, InsertionMap.get?_empty]
  cases List.foldl _ _ _ with
  | none => rfl
  | some entry => cases metric <;> rfl

/-- The bands of one count hold every transaction once. -/
theorem relativeBar_weight (title : String) (transactions : List MempoolEntry)
    (metric : DistributionMetric) (countOf : MempoolEntry → Nat) :
    (relativeBar title transactions metric countOf).weight metric =
      totalWeight metric transactions := by
  have hBands := InsertionMap.flatMap_filter_perm
    (fun transaction => (relativeBand (countOf transaction)).key) relativeBands_keys
    fun transaction (_ : transaction ∈ transactions) => relativeBand_key_mem (countOf transaction)
  rw [← totalWeight_perm hBands, List.flatMap_map, totalWeight_flatMap]
  unfold relativeBar CompositionBar.weight
  dsimp only
  generalize relativeBands = bands
  induction bands with
  | nil => rfl
  | cons band rest ih =>
    rw [List.flatMap_cons, segmentsWeight_append, ih, bandSegments_weight, List.map_cons,
      List.sum_cons]

/-- **The entanglement bars conserve the weight** of the transactions. -/
theorem buildEntanglementBars_weight {transactions : List MempoolEntry}
    {metric : DistributionMetric} {bar : CompositionBar}
    (h : bar ∈ buildEntanglementBars transactions metric) :
    bar.weight metric = totalWeight metric transactions := by
  rcases List.mem_cons.mp h with rfl | h
  · exact relativeBar_weight _ _ _ _
  · obtain rfl := List.mem_singleton.mp h
    exact relativeBar_weight _ _ _ _

end MempoolAtlas.Web
