import MempoolAtlas.Lib.InsertionMap
import MempoolAtlas.Lib.Texts
import MempoolAtlas.Web.Signatures
import MempoolAtlas.Web.TerrainLayout

/-!
# Classifier buckets

`web/src/classifier-terrain.ts`: the bucket of a transaction under one lens, by
coverage state and declared labels or, for the transaction properties, by script
profile; the buckets of a list, and the terrain sections they make.

## Results

* `bucketKey_eq_iff` — under a lens with plain buckets, a key is the coverage and the declared
  labels.
* `classifierBuckets_partition` — the buckets partition the rows.
* `classifierTerrainGroups_regions` — the regions of a terrain are its buckets, in sections by
  state.
-/

namespace MempoolAtlas.Web

open Model Texts

-- ---------------------------------------------------------------------------
-- Signatures of buckets
-- ---------------------------------------------------------------------------

/-- `ClassificationResultState | "unavailable"`. -/
inductive ClassifierTerrainSectionKey where
  | complete
  | partialResult
  | unavailable
deriving DecidableEq, Repr

namespace ClassifierTerrainSectionKey

/-- The section of a result's coverage. -/
def ofState : ClassificationResultState → ClassifierTerrainSectionKey
  | .complete => .complete
  | .partialResult => .partialResult

/-- Where a section stands. -/
def order : ClassifierTerrainSectionKey → Nat
  | .complete => 0
  | .partialResult => 1
  | .unavailable => 2

/-- The sections, in order. -/
def all : List ClassifierTerrainSectionKey := [.complete, .partialResult, .unavailable]

end ClassifierTerrainSectionKey

/-- How a bucket presents itself, where its labels do not say it. -/
structure ClassifierBucketPresentation where
  label : String
  description : String
  color : String
  order : Nat
deriving DecidableEq, Repr

/-- What makes a bucket: its key, its coverage and its labels. -/
structure ClassifierBucketSignature where
  key : String
  state : ClassifierTerrainSectionKey
  labelKeys : List String
  observedLabelKeys : Option (List String) := none
  presentation : Option ClassifierBucketPresentation := none
deriving DecidableEq, Repr

/-- A bucket with its transactions. -/
structure ClassifierBucket extends ClassifierBucketSignature where
  transactions : List MempoolEntry
  count : Nat
  vsize : Nat
  totalShare : ℚ

/-- A group of script families that the panel shows as one. -/
structure PropertyProfile where
  key : String
  label : String
  description : String
  color : String
  labelKeys : List String
deriving DecidableEq, Repr

/-- The colours of labels, by index. -/
def labelColors : List String :=
  ["#53d9d4", "#62a9d9", "#7f9be2", "#9c8ee0", "#b989d0", "#d97ab8", "#f46f93", "#f58a8a",
    "#e1aa4b", "#8fcf72"]

/-- The profile of what no other profile names. -/
def otherPropertyProfile : PropertyProfile where
  key := "other"
  label := "Anchor / other scripts"
  description := "Observed scripts use P2A, another witness version, an unrecognized family, " ++
    "or no recognized payment-script group."
  color := "#8798a6"
  labelKeys := ["p2a", "unknown_witness_program", "unknown_script"]

/-- The profiles, in order. -/
def transactionPropertyProfiles : List PropertyProfile :=
  [ { key := "legacy"
      label := "Legacy / P2SH"
      description :=
        "Observed input and output scripts are confined to legacy or P2SH families."
      color := "#62a9d9"
      labelKeys := ["p2pk", "bare_multisig", "p2pkh", "p2sh"] },
    { key := "segwit_v0"
      label := "SegWit v0"
      description :=
        "Observed input and output scripts are confined to native SegWit v0 families."
      color := "#53d9d4"
      labelKeys := ["p2wpkh", "p2wsh"] },
    { key := "taproot"
      label := "Taproot"
      description := "Observed input and output scripts are confined to the Taproot family."
      color := "#9c8ee0"
      labelKeys := ["p2tr"] },
    otherPropertyProfile ]

/-- The profile of families from several profiles. -/
def mixedPropertyProfile : PropertyProfile where
  key := "mixed"
  label := "Multiple script groups"
  description := "Observed inputs and outputs span more than one broad script group."
  color := "#e1aa4b"
  labelKeys := []

/-- A row's result under a lens. -/
def classificationResult (transaction : MempoolEntry) (classifierId : String) :
    Option ClassificationResult :=
  transaction.classifications.find? fun result => result.classifierId == classifierId

/-- Which labels of the catalog a result has, by index. -/
def labelIndexes (descriptor : ClassifierDescriptor) (labels : List String) : List Nat :=
  (List.range descriptor.labels.length).filter fun index =>
    (descriptor.labels[index]?).any fun label => labels.contains label.key

/-- `indexes.join(".")`. -/
def joinIndexes (indexes : List Nat) : String :=
  String.ofList (['.'].intercalate (indexes.map fun index => index.repr.toList))

/-- The signature of a result: its coverage and the labels the catalog declares. -/
def signatureForResult (descriptor : ClassifierDescriptor) (state : ClassificationResultState)
    (labels : List String) : ClassifierBucketSignature :=
  let indexes := labelIndexes descriptor labels
  { key := resultStateName state ++ ":" ++
      if indexes.length = 0 then "none" else joinIndexes indexes
    state := .ofState state
    labelKeys := indexes.map fun index =>
      ((descriptor.labels[index]?).map (·.key)).getD ("unknown_" ++ index.repr) }

/-- The profile that one observed script group selects, and its place. -/
def propertyProfile (labels : List String) : PropertyProfile × Nat :=
  let matchingProfiles := transactionPropertyProfiles.filter fun profile =>
    profile.labelKeys.any fun labelKey => labels.contains labelKey
  match matchingProfiles with
  | [profile] => (profile, transactionPropertyProfiles.idxOf profile)
  | _ :: _ :: _ => (mixedPropertyProfile, transactionPropertyProfiles.length)
  | [] => (otherPropertyProfile, transactionPropertyProfiles.idxOf otherPropertyProfile)

/-- The signature under `transaction_properties`: its profile. -/
def transactionPropertySignature (state : ClassificationResultState) (labels : List String) :
    ClassifierBucketSignature :=
  let profile := propertyProfile labels
  { key := resultStateName state ++ ":profile_" ++ profile.1.key
    state := .ofState state
    labelKeys := []
    presentation := some {
      label := profile.1.label, description := profile.1.description, color := profile.1.color
      order := profile.2 } }

/-- The signature of a row without a result. -/
def unavailableSignature : ClassifierBucketSignature where
  key := "unavailable"
  state := .unavailable
  labelKeys := []

/-- The bucket a row belongs to. -/
def classifierBucketForTransaction (descriptor : ClassifierDescriptor)
    (transaction : MempoolEntry) : ClassifierBucketSignature :=
  match classificationResult transaction descriptor.id with
  | none => unavailableSignature
  | some result =>
    if descriptor.id = transactionPropertiesClassifierId then
      transactionPropertySignature result.state result.labels
    else signatureForResult descriptor result.state result.labels

-- ---------------------------------------------------------------------------
-- Buckets
-- ---------------------------------------------------------------------------

/-- Sets of labels in the order of the catalog. -/
def compareIndexSets : List Nat → List Nat → Ordering
  | [], right => compare 0 right.length
  | left, [] => compare left.length 0
  | first :: left, second :: right => (compare first second).then (compareIndexSets left right)

/-- Buckets by section, then by labels. -/
def compareBuckets (descriptor : ClassifierDescriptor) (left right : ClassifierBucketSignature) :
    Ordering :=
  if left.state ≠ right.state then compare left.state.order right.state.order
  else if left.presentation.isSome ∨ right.presentation.isSome then
    compare ((left.presentation.map (·.order)).getD 9007199254740991)
      ((right.presentation.map (·.order)).getD 9007199254740991)
  else compareIndexSets (labelIndexes descriptor left.labelKeys)
    (labelIndexes descriptor right.labelKeys)

/-- The larger transaction first, and of two as large the one whose txid comes first. -/
def sortPopulation (collation : Collation) (transactions : List MempoolEntry) :
    List MempoolEntry :=
  transactions.mergeSort fun left right =>
    ((compare right.vsize left.vsize).then (collation.compare left.txid right.txid)).isLE

/-- The labels of the descriptor that some entry of a summary bucket has. -/
def observedLabels (descriptor : ClassifierDescriptor) (entries : List MempoolEntry) :
    List String :=
  (descriptor.labels.map (·.key)).filter fun key => entries.any fun transaction =>
    ((classificationResult transaction descriptor.id).map (·.labels.contains key)).getD false

/-- A bucket with its totals and its rows in order. -/
def finishBucket (collation : Collation) (descriptor : ClassifierDescriptor) (total : Nat)
    (bucket : InsertionMap.Bucket ClassifierBucketSignature MempoolEntry) : ClassifierBucket where
  key := bucket.signature.key
  state := bucket.signature.state
  labelKeys := bucket.signature.labelKeys
  observedLabelKeys :=
    if bucket.signature.presentation.isNone then none
    else some (observedLabels descriptor bucket.items)
  presentation := bucket.signature.presentation
  transactions := sortPopulation collation bucket.items
  count := bucket.items.length
  vsize := sumVsize bucket.items
  totalShare := if total = 0 then 0 else bucket.items.length / total

/-- `classifierBuckets`: the rows by signature, the buckets in order. -/
def classifierBuckets (collation : Collation) (transactions : List MempoolEntry)
    (descriptor : ClassifierDescriptor) : List ClassifierBucket :=
  let buckets := InsertionMap.bucketBy
    (fun transaction => some (classifierBucketForTransaction descriptor transaction))
    ClassifierBucketSignature.key transactions
  (buckets.values.mergeSort fun left right =>
    (compareBuckets descriptor left.signature right.signature).isLE).map
      (finishBucket collation descriptor transactions.length)

/-- The terrain of a lens: its sections with their buckets. -/
def classifierTerrainGroups (collation : Collation) (transactions : List MempoolEntry)
    (descriptor : ClassifierDescriptor) :
    List (BucketTerrainSectionGroup ClassifierTerrainSectionKey String ClassifierBucketSignature) :=
  let buckets := classifierBuckets collation transactions descriptor
  ClassifierTerrainSectionKey.all.filterMap fun sectionKey =>
    let sectionBuckets := buckets.filter fun bucket => bucket.state = sectionKey
    if sectionBuckets.length = 0 then none
    else some {
      key := sectionKey
      transactions := sectionBuckets.flatMap (·.transactions)
      regions := sectionBuckets.map fun bucket => {
        key := bucket.key, sectionKey
        signature := bucket.toClassifierBucketSignature
        transactions := bucket.transactions }
      nested := sectionBuckets.length > 1 }

-- ---------------------------------------------------------------------------
-- Presentation
-- ---------------------------------------------------------------------------

/-- The name of a bucket. -/
def classifierBucketLabel (descriptor : ClassifierDescriptor)
    (signature : ClassifierBucketSignature) : String :=
  if signature.state = .unavailable then "Result unavailable"
  else match signature.presentation with
    | some presentation => presentation.label
    | none =>
      if signature.labelKeys.length = 0 then "No labels"
      else
        let labelsByKey := InsertionMap.ofList (descriptor.labels.map fun label =>
          (label.key, label.label))
        " + ".intercalate (signature.labelKeys.map fun key => (labelsByKey.get? key).getD key)

/-- The colour of a bucket. -/
def classifierBucketColor (descriptor : ClassifierDescriptor)
    (signature : ClassifierBucketSignature) : String :=
  if signature.state = .unavailable then "#697988"
  else match signature.presentation with
    | some presentation => presentation.color
    | none => match signature.labelKeys.head? with
      | none => "#8798a6"
      | some first =>
        let firstIndex := ((descriptor.labels.map (·.key)).idxOf? first).getD 0
        (labelColors[firstIndex % labelColors.length]?).getD ""

-- ---------------------------------------------------------------------------
-- What a key says
-- ---------------------------------------------------------------------------

/-- A label counts when the catalog declares it and the result has it. -/
theorem mem_labelIndexes {descriptor : ClassifierDescriptor} {labels : List String} {index : Nat} :
    index ∈ labelIndexes descriptor labels ↔
      ∃ label, descriptor.labels[index]? = some label ∧ label.key ∈ labels := by
  rw [labelIndexes, List.mem_filter, List.mem_range, Option.any_eq_true]
  simp only [List.contains_iff_mem]
  constructor
  · exact And.right
  · rintro ⟨label, hLabel, hMem⟩
    exact ⟨(List.getElem?_eq_some_iff.mp hLabel).1, label, hLabel, hMem⟩

/-- Two lists of labels with the same declared ones. -/
def SameDeclared (descriptor : ClassifierDescriptor) (labels labels' : List String) : Prop :=
  ∀ label ∈ descriptor.labels, label.key ∈ labels ↔ label.key ∈ labels'

/-- Two results have one set of indexes just when they agree on the declared labels. -/
theorem labelIndexes_eq_iff {descriptor : ClassifierDescriptor} {labels labels' : List String} :
    labelIndexes descriptor labels = labelIndexes descriptor labels' ↔
      SameDeclared descriptor labels labels' := by
  constructor
  · intro h label hLabel
    obtain ⟨index, hIndex⟩ := List.mem_iff_getElem?.mp hLabel
    have hBoth : index ∈ labelIndexes descriptor labels ↔ index ∈ labelIndexes descriptor labels' := by
      rw [h]
    simpa only [mem_labelIndexes, hIndex, Option.some.injEq, exists_eq_left'] using hBoth
  · intro h
    unfold labelIndexes
    refine List.filter_congr fun index _ => ?_
    cases hLabel : descriptor.labels[index]? with
    | none => rfl
    | some label =>
      have hSame := h label (List.mem_of_getElem? hLabel)
      rw [Option.any_some, Option.any_some, Bool.eq_iff_iff, List.contains_iff_mem,
        List.contains_iff_mem, hSame]

theorem joinIndexes_ne_none {indexes : List Nat} (h : indexes ≠ []) : joinIndexes indexes ≠ "none" := by
  intro hNone
  have hText : ['.'].intercalate (indexes.map fun index => index.repr.toList) = "none".toList :=
    String.ofList_injective (hNone.trans String.ofList_toList.symm)
  have hSplit := congrArg (List.splitOn '.') hText
  rw [List.splitOn_intercalate '.' (fun text hMem => by
    obtain ⟨index, -, rfl⟩ := List.mem_map.mp hMem
    exact not_mem_repr (by decide) index) (by simpa using h)] at hSplit
  have hParts : "none".toList.splitOn '.' = ["none".toList] := by decide
  obtain ⟨first, rest, rfl⟩ := List.exists_cons_of_ne_nil h
  rw [hParts, List.map_cons] at hSplit
  have hLetter : 'n' ∈ first.repr.toList := (List.cons.inj hSplit).1 ▸ by decide
  exact not_mem_repr (by decide) first hLetter

/-- The text of an index set names it. -/
theorem indexesText_inj {indexes indexes' : List Nat}
    (h : (if indexes.length = 0 then "none" else joinIndexes indexes) =
      if indexes'.length = 0 then "none" else joinIndexes indexes') : indexes = indexes' := by
  cases indexes with
  | nil =>
    cases indexes' with
    | nil => rfl
    | cons first rest => exact absurd h.symm (joinIndexes_ne_none (List.cons_ne_nil first rest))
  | cons first rest =>
    cases indexes' with
    | nil => exact absurd h (joinIndexes_ne_none (List.cons_ne_nil first rest))
    | cons first' rest' =>
      exact intercalate_repr_inj (by decide) (List.cons_ne_nil _ _) (List.cons_ne_nil _ _)
        (String.ofList_injective h)

theorem resultStateName_not_colon (state : ClassificationResultState) :
    ':' ∉ (resultStateName state).toList := by
  cases state <;> decide

theorem resultStateName_inj {state state' : ClassificationResultState}
    (h : resultStateName state = resultStateName state') : state = state' := by
  revert h
  cases state <;> cases state' <;> decide

/-- A key names the coverage and the declared labels. -/
theorem signatureForResult_key_iff {descriptor : ClassifierDescriptor}
    {state state' : ClassificationResultState} {labels labels' : List String} :
    (signatureForResult descriptor state labels).key =
        (signatureForResult descriptor state' labels').key ↔
      state = state' ∧ SameDeclared descriptor labels labels' := by
  constructor
  · intro h
    obtain ⟨hState, hText⟩ :=
      colon_inj (resultStateName_not_colon state) (resultStateName_not_colon state') h
    exact ⟨resultStateName_inj hState, labelIndexes_eq_iff.mp (indexesText_inj hText)⟩
  · rintro ⟨rfl, hSame⟩
    unfold signatureForResult
    rw [labelIndexes_eq_iff.mpr hSame]

theorem signatureForResult_key_ne {descriptor : ClassifierDescriptor}
    {state : ClassificationResultState} {labels : List String} :
    (signatureForResult descriptor state labels).key ≠ "unavailable" := by
  intro h
  have hColon : ':' ∈ (signatureForResult descriptor state labels).key.toList := by
    simp [signatureForResult]
  rw [h] at hColon
  revert hColon
  decide

/-- The coverage a lens has of a transaction. -/
def coverage (descriptor : ClassifierDescriptor) (transaction : MempoolEntry) :
    Option ClassificationResultState :=
  (classificationResult transaction descriptor.id).map (·.state)

/-- The labels of a row under a lens. -/
def lensLabels (descriptor : ClassifierDescriptor) (transaction : MempoolEntry) : List String :=
  ((classificationResult transaction descriptor.id).map (·.labels)).getD []

/-- Under a lens with plain buckets, a key is the coverage and the declared labels. -/
theorem bucketKey_eq_iff {descriptor : ClassifierDescriptor}
    (h : descriptor.id ≠ transactionPropertiesClassifierId) {first second : MempoolEntry} :
    (classifierBucketForTransaction descriptor first).key =
        (classifierBucketForTransaction descriptor second).key ↔
      coverage descriptor first = coverage descriptor second ∧
        SameDeclared descriptor (lensLabels descriptor first) (lensLabels descriptor second) := by
  unfold classifierBucketForTransaction coverage lensLabels
  cases classificationResult first descriptor.id with
  | none =>
    cases classificationResult second descriptor.id with
    | none => exact iff_of_true rfl ⟨rfl, fun _ _ => Iff.rfl⟩
    | some result =>
      simp only [if_neg h, Option.map_none, Option.map_some]
      exact iff_of_false (fun hKey => signatureForResult_key_ne hKey.symm) (by simp)
  | some result =>
    cases classificationResult second descriptor.id with
    | none =>
      simp only [if_neg h, Option.map_none, Option.map_some]
      exact iff_of_false (fun hKey => signatureForResult_key_ne hKey) (by simp)
    | some other =>
      simp only [if_neg h, Option.map_some, Option.getD_some, Option.some.injEq]
      exact signatureForResult_key_iff

-- ---------------------------------------------------------------------------
-- What the buckets hold
-- ---------------------------------------------------------------------------

theorem sortPopulation_perm (collation : Collation) (transactions : List MempoolEntry) :
    (sortPopulation collation transactions).Perm transactions := List.mergeSort_perm _ _

/-- Buckets of distinct keys that hold every transaction once, each those of its key. -/
structure BucketsPartition (transactions : List MempoolEntry) (descriptor : ClassifierDescriptor)
    (buckets : List ClassifierBucket) : Prop where
  keys : (buckets.map (·.key)).Nodup
  all : (buckets.flatMap (·.transactions)).Perm transactions
  own : ∀ bucket ∈ buckets, bucket.transactions.Perm (transactions.filter fun transaction =>
    (classifierBucketForTransaction descriptor transaction).key = bucket.key)
  counts : ∀ bucket ∈ buckets, bucket.count = bucket.transactions.length ∧
    bucket.vsize = sumVsize bucket.transactions
  state : ∀ bucket ∈ buckets, ∃ transaction ∈ bucket.transactions,
    (classifierBucketForTransaction descriptor transaction).state = bucket.state

theorem sumVsize_perm {first second : List MempoolEntry} (h : first.Perm second) :
    sumVsize first = sumVsize second := (h.map _).sum_eq

/-- **The buckets partition the rows.** -/
theorem classifierBuckets_partition (collation : Collation) (transactions : List MempoolEntry)
    (descriptor : ClassifierDescriptor) :
    BucketsPartition transactions descriptor
      (classifierBuckets collation transactions descriptor) := by
  have hPerm := List.mergeSort_perm (InsertionMap.bucketBy
    (fun transaction => some (classifierBucketForTransaction descriptor transaction))
    ClassifierBucketSignature.key transactions).values fun left right =>
      (compareBuckets descriptor left.signature right.signature).isLE
  have hBucket : ∀ bucket ∈ classifierBuckets collation transactions descriptor,
      ∃ found, InsertionMap.BucketOf
          (fun transaction => some (classifierBucketForTransaction descriptor transaction))
          ClassifierBucketSignature.key transactions found.signature.key found ∧
        bucket = finishBucket collation descriptor transactions.length found := by
    intro bucket hMem
    obtain ⟨found, hFound, rfl⟩ := List.mem_map.mp hMem
    exact ⟨found, InsertionMap.bucketOf_of_mem _ _ (hPerm.mem_iff.mp hFound), rfl⟩
  refine ⟨?_, ?_, fun bucket hMem => ?_, fun bucket hMem => ?_, fun bucket hMem => ?_⟩
  · rw [classifierBuckets, List.map_map]
    exact (hPerm.map _).nodup_iff.mpr (InsertionMap.bucketBy_keys
      (fun transaction => some (classifierBucketForTransaction descriptor transaction))
      ClassifierBucketSignature.key transactions)
  · have hAll := InsertionMap.flatMap_bucketBy
      (fun transaction => some (classifierBucketForTransaction descriptor transaction))
      ClassifierBucketSignature.key transactions
    simp only [Option.isSome_some, List.filter_true] at hAll
    refine List.Perm.trans ?_ hAll
    rw [classifierBuckets, List.flatMap_map]
    exact (List.Perm.flatMap_left _ fun found _ => sortPopulation_perm collation found.items).trans
      (hPerm.flatMap_right _)
  · obtain ⟨found, hFound, rfl⟩ := hBucket bucket hMem
    refine (sortPopulation_perm collation found.items).trans (List.Perm.of_eq ?_)
    rw [hFound.items]
    simp [InsertionMap.withKey, finishBucket]
  · obtain ⟨found, -, rfl⟩ := hBucket bucket hMem
    have hSorted := sortPopulation_perm collation found.items
    exact ⟨hSorted.length_eq.symm, (sumVsize_perm hSorted).symm⟩
  · obtain ⟨found, hFound, rfl⟩ := hBucket bucket hMem
    obtain ⟨transaction, hTransaction, hSigned⟩ := hFound.signed
    refine ⟨transaction, (sortPopulation_perm collation found.items).mem_iff.mpr hTransaction, ?_⟩
    rw [Option.some.inj hSigned]
    rfl

/-- A row is in the bucket whose key is its own. -/
theorem BucketsPartition.mem_iff {transactions : List MempoolEntry}
    {descriptor : ClassifierDescriptor} {buckets : List ClassifierBucket}
    (h : BucketsPartition transactions descriptor buckets) {bucket : ClassifierBucket}
    (hBucket : bucket ∈ buckets) {transaction : MempoolEntry} :
    transaction ∈ bucket.transactions ↔ transaction ∈ transactions ∧
      (classifierBucketForTransaction descriptor transaction).key = bucket.key := by
  rw [(h.own bucket hBucket).mem_iff, List.mem_filter, decide_eq_true_eq]

/-- Each transaction is in one bucket, the one of its key. -/
theorem BucketsPartition.existsUnique {transactions : List MempoolEntry}
    {descriptor : ClassifierDescriptor} {buckets : List ClassifierBucket}
    (h : BucketsPartition transactions descriptor buckets) {transaction : MempoolEntry}
    (hMem : transaction ∈ transactions) :
    ∃! bucket, bucket ∈ buckets ∧ transaction ∈ bucket.transactions := by
  have hAll := h.all.mem_iff.mpr hMem
  obtain ⟨bucket, hBucket, hHeld⟩ := List.mem_flatMap.mp hAll
  refine ⟨bucket, ⟨hBucket, hHeld⟩, fun other hOther => ?_⟩
  have hKey := ((h.mem_iff hBucket).mp hHeld).2
  have hOtherKey := ((h.mem_iff hOther.1).mp hOther.2).2
  exact List.inj_on_of_nodup_map h.keys hOther.1 hBucket (hOtherKey.symm.trans hKey)

/-- Two transactions share a bucket when their keys are the same. -/
theorem BucketsPartition.shared_iff {transactions : List MempoolEntry}
    {descriptor : ClassifierDescriptor} {buckets : List ClassifierBucket}
    (h : BucketsPartition transactions descriptor buckets) {first second : MempoolEntry}
    (hFirst : first ∈ transactions) (hSecond : second ∈ transactions) :
    (∃ bucket ∈ buckets, first ∈ bucket.transactions ∧ second ∈ bucket.transactions) ↔
      (classifierBucketForTransaction descriptor first).key =
        (classifierBucketForTransaction descriptor second).key := by
  constructor
  · rintro ⟨bucket, hBucket, hHeld, hHeld'⟩
    exact ((h.mem_iff hBucket).mp hHeld).2.trans ((h.mem_iff hBucket).mp hHeld').2.symm
  · intro hSame
    obtain ⟨bucket, ⟨hBucket, hHeld⟩, -⟩ := h.existsUnique hFirst
    have hKey := ((h.mem_iff hBucket).mp hHeld).2
    exact ⟨bucket, hBucket, hHeld, (h.mem_iff hBucket).mpr ⟨hSecond, hSame.symm.trans hKey⟩⟩

-- ---------------------------------------------------------------------------
-- What the sections hold
-- ---------------------------------------------------------------------------

/-- The sections together hold every bucket once. -/
theorem flatMap_sections (buckets : List ClassifierBucket) :
    (ClassifierTerrainSectionKey.all.flatMap fun sectionKey =>
      buckets.filter fun bucket => bucket.state = sectionKey).Perm buckets := by
  refine InsertionMap.flatMap_filter_perm (fun bucket : ClassifierBucket => bucket.state)
    (by decide) fun bucket _ => ?_
  cases bucket.state <;> decide

/-- The regions of a terrain are its buckets, in sections by state. -/
theorem classifierTerrainGroups_regions (collation : Collation) (transactions : List MempoolEntry)
    (descriptor : ClassifierDescriptor) :
    ((classifierTerrainGroups collation transactions descriptor).flatMap fun group =>
      group.regions.map fun region => (region.key, region.transactions)).Perm
        ((classifierBuckets collation transactions descriptor).map fun bucket =>
          (bucket.key, bucket.transactions)) := by
  have hSections := (flatMap_sections (classifierBuckets collation transactions descriptor)).map
    fun bucket => (bucket.key, bucket.transactions)
  refine List.Perm.trans (List.Perm.of_eq ?_) hSections
  rw [classifierTerrainGroups, List.map_flatMap]
  generalize ClassifierTerrainSectionKey.all = keys
  induction keys with
  | nil => rfl
  | cons sectionKey rest ih =>
    rw [List.filterMap_cons, List.flatMap_cons]
    split
    · next hNone =>
      have hEmpty : (classifierBuckets collation transactions descriptor).filter
          (fun bucket => bucket.state = sectionKey) = [] := by
        by_contra hSome
        dsimp only at hNone
        rw [if_neg fun hZero => hSome (List.length_eq_zero_iff.mp hZero)] at hNone
        cases hNone
      rw [ih, hEmpty]
      rfl
    · next group hGroup =>
      dsimp only at hGroup
      split at hGroup
      · cases hGroup
      · obtain rfl := Option.some.inj hGroup
        rw [List.flatMap_cons, ih, List.map_map]
        rfl

end MempoolAtlas.Web
