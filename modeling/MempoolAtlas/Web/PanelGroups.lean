import MempoolAtlas.Web.ClassifierBuckets

/-!
# Panel groups

`web/src/panel-groups.ts`: the largest buckets of a lens as the series of a
panel, with one group for all others.

## Results

* `panelBucketGroups_perm`, `panelBucketGroups_existsUnique` — the groups hold every transaction,
  in one group each.
-/

namespace MempoolAtlas.Web

open Model

/-- Whether weights are counts or sizes. -/
inductive DistributionMetric where
  | count
  | vsize
deriving DecidableEq, Repr

/-- What a transaction weighs. -/
def metricWeight (transaction : MempoolEntry) : DistributionMetric → Nat
  | .count => 1
  | .vsize => transaction.vsize

/-- What a list of transactions weighs under a metric. -/
def totalWeight (metric : DistributionMetric) (transactions : List MempoolEntry) : Nat :=
  (transactions.map fun transaction => metricWeight transaction metric).sum

/-- A group of transactions, with its label and colour. -/
structure TransactionGroup where
  key : String
  label : String
  color : String
  transactions : List MempoolEntry

/-- A group with the bucket behind it; an aggregate has none. -/
structure PanelBucketGroup extends TransactionGroup where
  bucketKey : Option String

/-- The most groups that a panel shows. -/
def panelGroupLimit : Nat := 6

/-- What a bucket weighs. -/
def bucketWeight (bucket : ClassifierBucket) : DistributionMetric → Nat
  | .count => bucket.count
  | .vsize => bucket.vsize

/-- The group of a bucket. -/
def bucketGroup (descriptor : ClassifierDescriptor) (bucket : ClassifierBucket) :
    PanelBucketGroup :=
  let bucketLabel := classifierBucketLabel descriptor bucket.toClassifierBucketSignature
  { key := bucket.key
    label := if bucket.state = .partialResult then bucketLabel ++ " · partial" else bucketLabel
    color := classifierBucketColor descriptor bucket.toClassifierBucketSignature
    transactions := bucket.transactions
    bucketKey := some bucket.key }

/-- The groups so far, and what goes into the one for all others. -/
structure PanelSplit where
  groups : List PanelBucketGroup := []
  rest : List MempoolEntry := []
  restCount : Nat := 0

/-- A bucket among the largest is a group of its own, any other joins the overflow. -/
def PanelSplit.add (descriptor : ClassifierDescriptor) (largest : List String) (split : PanelSplit)
    (bucket : ClassifierBucket) : PanelSplit :=
  if largest.contains bucket.key then
    { split with groups := split.groups ++ [bucketGroup descriptor bucket] }
  else { split with rest := split.rest ++ bucket.transactions, restCount := split.restCount + 1 }

/-- The keys of the `limit` buckets that weigh most. -/
def largestBuckets (metric : DistributionMetric) (limit : Nat) (buckets : List ClassifierBucket) :
    List String :=
  ((buckets.mergeSort fun left right =>
    bucketWeight right metric ≤ bucketWeight left metric).take limit).map (·.key)

/-- `formatCount` is `countFormat.format`, which the browser's locale decides. -/
def panelBucketGroups (collation : Collation) (formatCount : Nat → String)
    (transactions : List MempoolEntry) (descriptor : Option ClassifierDescriptor)
    (metric : DistributionMetric) (limit : Nat) : List PanelBucketGroup :=
  match descriptor with
  | none => [{
      key := "all", label := "All transactions", color := "#93a7b8", transactions
      bucketKey := none }]
  | some descriptor =>
    let buckets := classifierBuckets collation transactions descriptor
    let largest := largestBuckets metric limit buckets
    let split := buckets.foldl (PanelSplit.add descriptor largest) {}
    if 0 < split.restCount then
      split.groups ++ [{
        key := "overflow"
        label := formatCount split.restCount ++ " more buckets"
        color := "#3d4c5a"
        transactions := split.rest
        bucketKey := none }]
    else split.groups

-- ---------------------------------------------------------------------------
-- Weights
-- ---------------------------------------------------------------------------

/-- The order does not change the weight. -/
theorem totalWeight_perm {metric : DistributionMetric} {first second : List MempoolEntry}
    (h : first.Perm second) : totalWeight metric first = totalWeight metric second :=
  (h.map _).sum_eq

@[simp] theorem totalWeight_nil (metric : DistributionMetric) : totalWeight metric [] = 0 := rfl

@[simp] theorem totalWeight_cons (metric : DistributionMetric) (transaction : MempoolEntry)
    (rest : List MempoolEntry) :
    totalWeight metric (transaction :: rest) =
      metricWeight transaction metric + totalWeight metric rest := List.sum_cons

theorem totalWeight_append (metric : DistributionMetric) (first second : List MempoolEntry) :
    totalWeight metric (first ++ second) = totalWeight metric first + totalWeight metric second := by
  rw [totalWeight, List.map_append, List.sum_append]
  rfl

theorem totalWeight_flatMap {α : Type} (metric : DistributionMetric) (parts : List α)
    (held : α → List MempoolEntry) :
    totalWeight metric (parts.flatMap held) =
      (parts.map fun part => totalWeight metric (held part)).sum := by
  induction parts with
  | nil => rfl
  | cons part rest ih => rw [List.flatMap_cons, totalWeight_append, ih, List.map_cons, List.sum_cons]

/-- By count, transactions weigh as many as they are. -/
theorem totalWeight_count (transactions : List MempoolEntry) :
    totalWeight .count transactions = transactions.length := by
  show (transactions.map fun _ => 1).sum = transactions.length
  rw [List.map_const', List.sum_replicate, smul_eq_mul, Nat.mul_one]

/-- A bucket weighs what its transactions do. -/
theorem BucketsPartition.weight {transactions : List MempoolEntry}
    {descriptor : ClassifierDescriptor} {buckets : List ClassifierBucket}
    (h : BucketsPartition transactions descriptor buckets) {bucket : ClassifierBucket}
    (hMem : bucket ∈ buckets) (metric : DistributionMetric) :
    bucketWeight bucket metric = totalWeight metric bucket.transactions := by
  obtain ⟨hCount, hVsize⟩ := h.counts bucket hMem
  cases metric with
  | count => exact hCount.trans (totalWeight_count _).symm
  | vsize => exact hVsize

-- ---------------------------------------------------------------------------
-- The groups partition the list
-- ---------------------------------------------------------------------------

/-- A split holds the transactions of the buckets it has seen. -/
structure SplitHolds (buckets : List ClassifierBucket) (split : PanelSplit) : Prop where
  all : ((split.groups.flatMap (·.transactions)) ++ split.rest).Perm
    (buckets.flatMap (·.transactions))
  rest : split.restCount = 0 → split.rest = []

theorem splitHolds_add {descriptor : ClassifierDescriptor} {largest : List String}
    {buckets : List ClassifierBucket} {split : PanelSplit} (h : SplitHolds buckets split)
    (bucket : ClassifierBucket) :
    SplitHolds (buckets ++ [bucket]) (split.add descriptor largest bucket) := by
  have hBuckets : (buckets ++ [bucket]).flatMap (·.transactions) =
      buckets.flatMap (·.transactions) ++ bucket.transactions := by
    rw [List.flatMap_append, List.flatMap_singleton]
  unfold PanelSplit.add
  split
  · refine ⟨?_, h.rest⟩
    rw [hBuckets, List.flatMap_append, List.flatMap_singleton, List.append_assoc]
    refine ((List.perm_append_comm).append_left _).trans ?_
    rw [← List.append_assoc]
    exact h.all.append_right bucket.transactions
  · refine ⟨?_, fun hZero => absurd hZero (Nat.succ_ne_zero _)⟩
    rw [hBuckets, ← List.append_assoc]
    exact h.all.append_right bucket.transactions

/-- The groups and the overflow hold every bucket. -/
theorem splitHolds_foldl (descriptor : ClassifierDescriptor) (largest : List String)
    (buckets : List ClassifierBucket) :
    SplitHolds buckets (buckets.foldl (PanelSplit.add descriptor largest) {}) := by
  induction buckets using List.reverseRecOn with
  | nil => exact ⟨List.Perm.refl _, fun _ => rfl⟩
  | append_singleton buckets bucket ih =>
    rw [List.foldl_append]
    exact splitHolds_add ih bucket

/-- **The groups of a panel hold every transaction once.** -/
theorem panelBucketGroups_perm (collation : Collation) (formatCount : Nat → String)
    (transactions : List MempoolEntry) (descriptor : Option ClassifierDescriptor)
    (metric : DistributionMetric) (limit : Nat) :
    ((panelBucketGroups collation formatCount transactions descriptor metric limit).flatMap
      (·.transactions)).Perm transactions := by
  cases descriptor with
  | none =>
    rw [panelBucketGroups, List.flatMap_singleton]
  | some descriptor =>
    have hHolds := splitHolds_foldl descriptor (largestBuckets metric limit
      (classifierBuckets collation transactions descriptor))
        (classifierBuckets collation transactions descriptor)
    have hAll := (classifierBuckets_partition collation transactions descriptor).all
    unfold panelBucketGroups
    dsimp only
    split
    · rw [List.flatMap_append, List.flatMap_singleton]
      exact hHolds.all.trans hAll
    · next hNone =>
      have hRest := hHolds.rest (Nat.eq_zero_of_not_pos hNone)
      have hGroups := hHolds.all
      rw [hRest, List.append_nil] at hGroups
      exact hGroups.trans hAll

/-- What a flattened list without duplicates holds is in one of its parts. -/
theorem existsUnique_part {α β : Type} {parts : List α} {held : α → List β}
    (h : (parts.flatMap held).Nodup) {item : β} (hMem : item ∈ parts.flatMap held) :
    ∃! part, part ∈ parts ∧ item ∈ held part := by
  obtain ⟨part, hPart, hHeld⟩ := List.mem_flatMap.mp hMem
  refine ⟨part, ⟨hPart, hHeld⟩, fun other ⟨hOther, hOtherHeld⟩ => ?_⟩
  by_contra hNe
  obtain ⟨-, hDisjoint⟩ := List.nodup_flatMap.mp h
  have hSymm : Std.Symm (Function.onFun List.Disjoint held) := ⟨fun _ _ hApart => hApart.symm⟩
  have hApart := hDisjoint.forall hOther hPart hNe
  exact hApart hOtherHeld hHeld

/-- Distinct transactions are in one group each. -/
theorem panelBucketGroups_existsUnique (collation : Collation) (formatCount : Nat → String)
    {transactions : List MempoolEntry} (h : transactions.Nodup)
    (descriptor : Option ClassifierDescriptor) (metric : DistributionMetric) (limit : Nat)
    {transaction : MempoolEntry} (hMem : transaction ∈ transactions) :
    ∃! group, group ∈ panelBucketGroups collation formatCount transactions descriptor metric limit ∧
      transaction ∈ group.transactions := by
  have hPerm := panelBucketGroups_perm collation formatCount transactions descriptor metric limit
  exact existsUnique_part (hPerm.nodup_iff.mpr h) (hPerm.mem_iff.mpr hMem)

end MempoolAtlas.Web
