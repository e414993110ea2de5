import MempoolAtlas.Web.Accepted
import MempoolAtlas.Web.ClassifierBuckets

/-!
# Terrain groups

`web/src/terrain.ts`: the populations of the violation signatures and of the
status regions, and the sections of the BIP-110 terrain, which hold the same
transactions region by region.

## Results

* `terrainRegions_perm` — the regions are those of the statuses and those of the signatures.
* `terrainGroups_conserve` — the terrain holds each row once, where it belongs.
-/

namespace MempoolAtlas.Web

open Model

/-- The regions of rows without a violation. -/
inductive StatusRegionKey where
  | compatible
  | indeterminate
  | unclassified
deriving DecidableEq, Repr

/-- The sections of the terrain. -/
inductive TerrainSectionKey where
  | compatible
  | indeterminate
  | violatingExact
  | violatingIncomplete
  | unclassified
deriving DecidableEq, Repr

namespace StatusRegionKey

def name : StatusRegionKey → String
  | .compatible => "compatible"
  | .indeterminate => "indeterminate"
  | .unclassified => "unclassified"

def sectionKey : StatusRegionKey → TerrainSectionKey
  | .compatible => .compatible
  | .indeterminate => .indeterminate
  | .unclassified => .unclassified

def all : List StatusRegionKey := [.compatible, .indeterminate, .unclassified]

end StatusRegionKey

/-- How many rows a region has, and their share. -/
structure StatusPopulation where
  transactions : List MempoolEntry
  count : Nat
  vsize : Nat
  totalShare : ℚ

/-- The population of a signature. -/
structure SignaturePopulation extends StatusPopulation where
  signature : ViolationSignature

/-- The share of a count; of no rows it is zero. -/
def populationShare (transactions : List MempoolEntry) (count : Nat) : ℚ :=
  if transactions.length = 0 then 0 else count / transactions.length

/-- A selection in its order, with its totals. -/
def populationFrom (transactions sorted : List MempoolEntry) : StatusPopulation where
  transactions := sorted
  count := sorted.length
  vsize := sumVsize sorted
  totalShare := populationShare transactions sorted.length

/-- The signature of a violating row. -/
def transactionSignature (transaction : MempoolEntry) : Option ViolationSignature :=
  transaction.bip110.bind violationSignature

/-- One population for each signature, ordered. -/
def signaturePopulations (collation : Collation) (transactions : List MempoolEntry) :
    List SignaturePopulation :=
  let groups := InsertionMap.bucketBy transactionSignature ViolationSignature.key transactions
  (groups.values.mergeSort fun left right =>
    (compareViolationSignatures collation left.signature right.signature).isLE).map fun group =>
      { populationFrom transactions (sortPopulation collation group.items) with
        signature := group.signature }

/-- Whether a transaction is of a status region. -/
def hasStatus (key : StatusRegionKey) (transaction : MempoolEntry) : Bool :=
  match key with
  | .unclassified => transaction.bip110.isNone
  | .compatible => transaction.bip110.any fun assessment => assessment.status = .compatible
  | .indeterminate => transaction.bip110.any fun assessment => assessment.status = .indeterminate

/-- The population of a status. -/
def statusPopulation (collation : Collation) (transactions : List MempoolEntry)
    (key : StatusRegionKey) : StatusPopulation :=
  populationFrom transactions (sortPopulation collation (transactions.filter (hasStatus key)))

-- ---------------------------------------------------------------------------
-- Sections
-- ---------------------------------------------------------------------------

/-- A region of the terrain with its rows. -/
abbrev TerrainRegionGroup :=
  BucketTerrainRegionGroup TerrainSectionKey String (Option ViolationSignature)

/-- A section of the terrain with its regions. -/
abbrev TerrainSectionGroup :=
  BucketTerrainSectionGroup TerrainSectionKey String (Option ViolationSignature)

/-- The lists the loop over the transactions fills. -/
structure TerrainLists where
  compatible : List MempoolEntry := []
  indeterminate : List MempoolEntry := []
  unclassified : List MempoolEntry := []
  signatures : InsertionMap String (InsertionMap.Bucket ViolationSignature MempoolEntry) := .empty

/-- A row goes to the list of its status or its signature. -/
def TerrainLists.add (lists : TerrainLists) (transaction : MempoolEntry) : TerrainLists :=
  match transaction.bip110 with
  | none => { lists with unclassified := lists.unclassified ++ [transaction] }
  | some assessment => match assessment.status with
    | .compatible => { lists with compatible := lists.compatible ++ [transaction] }
    | .indeterminate => { lists with indeterminate := lists.indeterminate ++ [transaction] }
    | .violating => match violationSignature assessment with
      | none => lists
      | some signature => { lists with
          signatures := lists.signatures.upsert signature.key (.add signature transaction) }

/-- Exact and partial signatures have sections of their own. -/
def signatureSection (signature : ViolationSignature) : TerrainSectionKey :=
  match signature.completeness with
  | .exact => .violatingExact
  | .partialRules => .violatingIncomplete

/-- The section of a status; without rows there is none. -/
def statusGroup (key : StatusRegionKey) (entries : List MempoolEntry) :
    List TerrainSectionGroup :=
  if entries.length = 0 then []
  else [{
    key := key.sectionKey
    transactions := entries
    regions := [{
      key := key.name, sectionKey := key.sectionKey, signature := none, transactions := entries }]
    nested := false }]

/-- A section of signatures; without rows there is none. -/
def violatingGroup (sectionKey : TerrainSectionKey) (regions : List TerrainRegionGroup) :
    List TerrainSectionGroup :=
  if 0 < regions.length then [{
    key := sectionKey
    transactions := regions.flatMap (·.transactions)
    regions
    nested := true }]
  else []

/-- `terrainGroups`: the sections in order, each with its regions. -/
def terrainGroups (collation : Collation) (transactions : List MempoolEntry) :
    List TerrainSectionGroup :=
  let lists := transactions.foldl TerrainLists.add {}
  let signatureGroups := (lists.signatures.values.mergeSort fun left right =>
    (compareViolationSignatures collation left.signature right.signature).isLE).map fun group =>
      { key := group.signature.key, sectionKey := signatureSection group.signature
        signature := some group.signature, transactions := group.items : TerrainRegionGroup }
  statusGroup .compatible lists.compatible ++ statusGroup .indeterminate lists.indeterminate ++
    violatingGroup .violatingExact
      (signatureGroups.filter fun group => group.sectionKey = .violatingExact) ++
    violatingGroup .violatingIncomplete
      (signatureGroups.filter fun group => group.sectionKey = .violatingIncomplete) ++
    statusGroup .unclassified lists.unclassified

-- ---------------------------------------------------------------------------
-- The region of a transaction
-- ---------------------------------------------------------------------------

namespace StatusRegionKey

theorem name_inj {key other : StatusRegionKey} (h : key.name = other.name) : key = other := by
  revert h
  cases key <;> cases other <;> decide

theorem name_not_colon (key : StatusRegionKey) : ':' ∉ key.name.toList := by
  cases key <;> decide

theorem mem_all (key : StatusRegionKey) : key ∈ all := by
  cases key <;> decide

end StatusRegionKey

theorem signatureKey_colon (violatedMask unknownMask : Nat) :
    ':' ∈ (signatureKey violatedMask unknownMask).toList := by
  unfold signatureKey
  split
  · simp
  · simp

theorem violationSignature_some {assessment : Bip110Assessment} {signature : ViolationSignature}
    (h : violationSignature assessment = some signature) :
    assessment.status = .violating ∧ signature.key =
      signatureKey (ruleMask assessment.violatedRules) (ruleMask assessment.unknownRules) := by
  unfold violationSignature at h
  split at h
  · cases h
  · next hStatus =>
    obtain rfl := Option.some.inj h
    exact ⟨not_not.mp hStatus, rfl⟩

theorem signature_colon {transaction : MempoolEntry} {signature : ViolationSignature}
    (h : transactionSignature transaction = some signature) : ':' ∈ signature.key.toList := by
  obtain ⟨assessment, -, hSignature⟩ := Option.bind_eq_some_iff.mp h
  rw [(violationSignature_some hSignature).2]
  exact signatureKey_colon _ _

/-- A transaction in a status region. -/
structure InStatus (transaction : MempoolEntry) (key : StatusRegionKey) : Prop where
  region : terrainRegionKey transaction = .ok key.name
  status : ∀ other, hasStatus other transaction = decide (key = other)
  unsigned : transactionSignature transaction = none

/-- A transaction with a violation signature. -/
structure InSignature (transaction : MempoolEntry) (signature : ViolationSignature) : Prop where
  region : terrainRegionKey transaction = .ok signature.key
  status : ∀ other, hasStatus other transaction = false
  signed : transactionSignature transaction = some signature

/-- Every row has a region. -/
theorem inStatus_or_inSignature (transaction : MempoolEntry) :
    (∃ key, InStatus transaction key) ∨ ∃ signature, InSignature transaction signature := by
  cases hAssessment : transaction.bip110 with
  | none =>
    refine .inl ⟨.unclassified, terrainRegionKey_unclassified hAssessment, fun other => ?_, ?_⟩
    · cases other <;> simp [hasStatus, hAssessment]
    · rw [transactionSignature, hAssessment, Option.bind_none]
  | some assessment =>
    have hSigned : transactionSignature transaction = violationSignature assessment := by
      rw [transactionSignature, hAssessment, Option.bind_some]
    cases hStatus : assessment.status with
    | compatible =>
      have hNot : assessment.status ≠ .violating := by simp [hStatus]
      refine .inl ⟨.compatible, ?_, fun other => ?_, ?_⟩
      · rw [terrainRegionKey_status hAssessment hNot, hStatus]
        rfl
      · cases other <;> simp [hasStatus, hAssessment, hStatus]
      · rw [hSigned, violationSignature, if_pos hNot]
    | indeterminate =>
      have hNot : assessment.status ≠ .violating := by simp [hStatus]
      refine .inl ⟨.indeterminate, ?_, fun other => ?_, ?_⟩
      · rw [terrainRegionKey_status hAssessment hNot, hStatus]
        rfl
      · cases other <;> simp [hasStatus, hAssessment, hStatus]
      · rw [hSigned, violationSignature, if_pos hNot]
    | violating =>
      obtain ⟨signature, hSignature⟩ : ∃ signature, violationSignature assessment = some signature :=
        ⟨_, by rw [violationSignature, if_neg (not_not.mpr hStatus)]⟩
      refine .inr ⟨signature, ?_, fun other => ?_, hSigned.trans hSignature⟩
      · rw [terrainRegionKey_violating hAssessment hStatus, (violationSignature_some hSignature).2]
      · cases other <;> simp [hasStatus, hAssessment, hStatus]

/-- A status region has the transactions of its status. -/
theorem terrainRegionKey_name_iff {transaction : MempoolEntry} {key : StatusRegionKey} :
    terrainRegionKey transaction = .ok key.name ↔ hasStatus key transaction = true := by
  rcases inStatus_or_inSignature transaction with ⟨own, h⟩ | ⟨signature, h⟩
  · rw [h.region, h.status, decide_eq_true_eq]
    exact ⟨fun hSame => StatusRegionKey.name_inj (Except.ok.inj hSame),
      fun hSame => congrArg (fun key => Except.ok (StatusRegionKey.name key)) hSame⟩
  · rw [h.region, h.status]
    refine iff_of_false (fun hSame => ?_) Bool.false_ne_true
    have hColon := signature_colon h.signed
    rw [Except.ok.inj hSame] at hColon
    exact key.name_not_colon hColon

/-- A key with a colon is the region of those whose signature has it. -/
theorem terrainRegionKey_key_iff {transaction : MempoolEntry} {key : String}
    (hColon : ':' ∈ key.toList) :
    terrainRegionKey transaction = .ok key ↔
      ((transactionSignature transaction).any fun signature => signature.key = key) = true := by
  rcases inStatus_or_inSignature transaction with ⟨own, h⟩ | ⟨signature, h⟩
  · rw [h.region, h.unsigned, Option.any_none]
    refine iff_of_false (fun hSame => ?_) Bool.false_ne_true
    exact own.name_not_colon ((Except.ok.inj hSame) ▸ hColon)
  · rw [h.region, h.signed, Option.any_some, decide_eq_true_eq, Except.ok.injEq]

-- ---------------------------------------------------------------------------
-- What the loop collects
-- ---------------------------------------------------------------------------

/-- The lists after the loop, each with the transactions that belong to it. -/
structure Collected (transactions : List MempoolEntry) (lists : TerrainLists) : Prop where
  compatible : lists.compatible = transactions.filter (hasStatus .compatible)
  indeterminate : lists.indeterminate = transactions.filter (hasStatus .indeterminate)
  unclassified : lists.unclassified = transactions.filter (hasStatus .unclassified)
  signatures : lists.signatures =
    InsertionMap.bucketBy transactionSignature ViolationSignature.key transactions

/-- One more row is collected. -/
theorem collected_add {transactions : List MempoolEntry} {lists : TerrainLists}
    (h : Collected transactions lists) (transaction : MempoolEntry) :
    Collected (transactions ++ [transaction]) (lists.add transaction) := by
  have hBuckets := InsertionMap.bucketBy_append transactionSignature ViolationSignature.key
    transactions transaction
  cases hAssessment : transaction.bip110 with
  | none =>
    have hAdd : lists.add transaction =
        { lists with unclassified := lists.unclassified ++ [transaction] } := by
      rw [TerrainLists.add, hAssessment]
    have hNone : transactionSignature transaction = none := by
      rw [transactionSignature, hAssessment, Option.bind_none]
    rw [hNone] at hBuckets
    rw [hAdd]
    refine ⟨?_, ?_, ?_, h.signatures.trans hBuckets.symm⟩
    · simpa [hasStatus, hAssessment] using h.compatible
    · simpa [hasStatus, hAssessment] using h.indeterminate
    · simpa [hasStatus, hAssessment] using h.unclassified
  | some assessment =>
    have hSigned : transactionSignature transaction = violationSignature assessment := by
      rw [transactionSignature, hAssessment, Option.bind_some]
    rw [hSigned] at hBuckets
    cases hStatus : assessment.status with
    | compatible =>
      have hAdd : lists.add transaction =
          { lists with compatible := lists.compatible ++ [transaction] } := by
        rw [TerrainLists.add, hAssessment]
        simp only [hStatus]
      rw [violationSignature, if_pos (by simp [hStatus])] at hBuckets
      rw [hAdd]
      refine ⟨?_, ?_, ?_, h.signatures.trans hBuckets.symm⟩
      · simpa [hasStatus, hAssessment, hStatus] using h.compatible
      · simpa [hasStatus, hAssessment, hStatus] using h.indeterminate
      · simpa [hasStatus, hAssessment, hStatus] using h.unclassified
    | indeterminate =>
      have hAdd : lists.add transaction =
          { lists with indeterminate := lists.indeterminate ++ [transaction] } := by
        rw [TerrainLists.add, hAssessment]
        simp only [hStatus]
      rw [violationSignature, if_pos (by simp [hStatus])] at hBuckets
      rw [hAdd]
      refine ⟨?_, ?_, ?_, h.signatures.trans hBuckets.symm⟩
      · simpa [hasStatus, hAssessment, hStatus] using h.compatible
      · simpa [hasStatus, hAssessment, hStatus] using h.indeterminate
      · simpa [hasStatus, hAssessment, hStatus] using h.unclassified
    | violating =>
      obtain ⟨signature, hSignature⟩ : ∃ signature, violationSignature assessment = some signature :=
        ⟨_, by rw [violationSignature, if_neg (not_not.mpr hStatus)]⟩
      have hAdd : lists.add transaction = { lists with
          signatures := lists.signatures.upsert signature.key (.add signature transaction) } := by
        rw [TerrainLists.add, hAssessment]
        simp only [hStatus, hSignature]
      rw [hSignature] at hBuckets
      rw [hAdd]
      refine ⟨?_, ?_, ?_, ?_⟩
      · simpa [hasStatus, hAssessment, hStatus] using h.compatible
      · simpa [hasStatus, hAssessment, hStatus] using h.indeterminate
      · simpa [hasStatus, hAssessment, hStatus] using h.unclassified
      · rw [hBuckets, ← h.signatures]

/-- The scan collects every row, in order. -/
theorem collected_foldl (transactions : List MempoolEntry) :
    Collected transactions (transactions.foldl TerrainLists.add {}) := by
  induction transactions using List.reverseRecOn with
  | nil => exact ⟨rfl, rfl, rfl, rfl⟩
  | append_singleton transactions transaction ih =>
    rw [List.foldl_append]
    exact collected_add ih transaction

-- ---------------------------------------------------------------------------
-- Regions
-- ---------------------------------------------------------------------------

/-- The regions of all sections. -/
def terrainRegions (groups : List TerrainSectionGroup) : List TerrainRegionGroup :=
  groups.flatMap (·.regions)

/-- The region of a status. -/
def statusRegions (transactions : List MempoolEntry) (key : StatusRegionKey) :
    List TerrainRegionGroup :=
  terrainRegions (statusGroup key (transactions.filter (hasStatus key)))

/-- The region of a bucket of violating transactions. -/
def signatureRegion (group : InsertionMap.Bucket ViolationSignature MempoolEntry) :
    TerrainRegionGroup where
  key := group.signature.key
  sectionKey := signatureSection group.signature
  signature := some group.signature
  transactions := group.items

/-- The buckets of the violating transactions, in the order of their signatures. -/
def signatureGroups (collation : Collation) (transactions : List MempoolEntry) :
    List (InsertionMap.Bucket ViolationSignature MempoolEntry) :=
  (InsertionMap.bucketBy transactionSignature ViolationSignature.key
    transactions).values.mergeSort fun left right =>
      (compareViolationSignatures collation left.signature right.signature).isLE

theorem mem_statusRegions {transactions : List MempoolEntry} {key : StatusRegionKey}
    {region : TerrainRegionGroup} :
    region ∈ statusRegions transactions key ↔
      transactions.filter (hasStatus key) ≠ [] ∧ region = {
        key := key.name, sectionKey := key.sectionKey, signature := none
        transactions := transactions.filter (hasStatus key) } := by
  unfold statusRegions statusGroup terrainRegions
  split
  · next hNone => simp [List.length_eq_zero_iff.mp hNone]
  · next hSome =>
    rw [List.flatMap_singleton, List.mem_singleton]
    exact (and_iff_right fun hNil => hSome (by rw [hNil]; rfl)).symm

theorem violatingGroup_regions (sectionKey : TerrainSectionKey)
    (regions : List TerrainRegionGroup) :
    terrainRegions (violatingGroup sectionKey regions) = regions := by
  unfold violatingGroup terrainRegions
  split
  · rw [List.flatMap_singleton]
  · next hNone => simp [List.length_eq_zero_iff.mp (Nat.eq_zero_of_not_pos hNone)]

theorem signatureSections_perm (groups : List TerrainRegionGroup)
    (h : ∀ group ∈ groups, group.sectionKey = .violatingExact ∨
      group.sectionKey = .violatingIncomplete) :
    ((groups.filter fun group => group.sectionKey = .violatingExact) ++
      groups.filter fun group => group.sectionKey = .violatingIncomplete).Perm groups := by
  have hOther : (groups.filter fun group => group.sectionKey = .violatingIncomplete) =
      groups.filter fun group => !decide (group.sectionKey = .violatingExact) := by
    refine List.filter_congr fun group hMem => ?_
    rcases h group hMem with hSection | hSection <;> simp [hSection]
  rw [hOther]
  exact List.filter_append_perm _ _

/-- The regions are those of the statuses and those of the signatures. -/
theorem terrainRegions_perm (collation : Collation) (transactions : List MempoolEntry) :
    (terrainRegions (terrainGroups collation transactions)).Perm
      ((StatusRegionKey.all.flatMap (statusRegions transactions)) ++
        (signatureGroups collation transactions).map signatureRegion) := by
  obtain ⟨hCompatible, hIndeterminate, hUnclassified, hSignatures⟩ := collected_foldl transactions
  have hSections := signatureSections_perm
    ((signatureGroups collation transactions).map signatureRegion) fun group hMem => by
      obtain ⟨found, -, rfl⟩ := List.mem_map.mp hMem
      show signatureSection found.signature = _ ∨ signatureSection found.signature = _
      unfold signatureSection
      cases found.signature.completeness <;> simp
  have hSplit : ∀ first second : List TerrainSectionGroup,
      terrainRegions (first ++ second) = terrainRegions first ++ terrainRegions second :=
    fun first second => List.flatMap_append
  unfold terrainGroups
  dsimp only
  rw [hCompatible, hIndeterminate, hUnclassified, hSignatures, hSplit, hSplit, hSplit, hSplit,
    violatingGroup_regions, violatingGroup_regions]
  show (statusRegions transactions .compatible ++ statusRegions transactions .indeterminate ++ _ ++ _ ++
    statusRegions transactions .unclassified).Perm _
  have hAll : StatusRegionKey.all.flatMap (statusRegions transactions) =
      statusRegions transactions .compatible ++ statusRegions transactions .indeterminate ++
        statusRegions transactions .unclassified := by
    simp [StatusRegionKey.all]
  rw [hAll, List.append_assoc _ (List.filter _ _) (List.filter _ _), List.append_assoc _ (_ ++ _),
    List.append_assoc _ (statusRegions transactions .unclassified)]
  exact (List.perm_append_comm.trans (hSections.append_left _)).append_left _

/-- A region holds the rows that belong to it. -/
theorem terrainRegions_own {collation : Collation} {transactions : List MempoolEntry}
    {region : TerrainRegionGroup}
    (h : region ∈ terrainRegions (terrainGroups collation transactions)) :
    region.transactions =
      transactions.filter fun transaction => terrainRegionKey transaction = .ok region.key := by
  rcases List.mem_append.mp ((terrainRegions_perm collation transactions).mem_iff.mp h) with
    hStatus | hSignature
  · obtain ⟨key, -, hRegion⟩ := List.mem_flatMap.mp hStatus
    obtain ⟨-, rfl⟩ := mem_statusRegions.mp hRegion
    refine List.filter_congr fun transaction _ => ?_
    rw [Bool.eq_iff_iff, decide_eq_true_eq]
    exact terrainRegionKey_name_iff.symm
  · obtain ⟨group, hGroup, rfl⟩ := List.mem_map.mp hSignature
    have hBucket := InsertionMap.bucketOf_of_mem transactionSignature ViolationSignature.key
      ((List.mergeSort_perm _ _).mem_iff.mp hGroup)
    obtain ⟨first, -, hSigned⟩ := hBucket.signed
    show group.items = _
    rw [hBucket.items]
    refine List.filter_congr fun transaction _ => ?_
    rw [Bool.eq_iff_iff, decide_eq_true_eq]
    exact (terrainRegionKey_key_iff (signature_colon hSigned)).symm

theorem statusRegion_keys (transactions : List MempoolEntry) :
    ((StatusRegionKey.all.flatMap (statusRegions transactions)).map (·.key)).Sublist
      (StatusRegionKey.all.map StatusRegionKey.name) := by
  rw [List.map_flatMap, ← List.flatMap_pure_eq_map]
  refine List.Sublist.flatMap_right _ fun key _ => ?_
  unfold statusRegions statusGroup terrainRegions
  split
  · exact List.nil_sublist _
  · exact List.Sublist.refl _

theorem signatureGroups_keys (collation : Collation) (transactions : List MempoolEntry) :
    ((signatureGroups collation transactions).map (·.signature.key)).Nodup :=
  ((List.mergeSort_perm _ _).map _).nodup_iff.mpr (InsertionMap.bucketBy_keys _ _ transactions)

/-- No two regions have one key. -/
theorem terrainRegions_keys (collation : Collation) (transactions : List MempoolEntry) :
    ((terrainRegions (terrainGroups collation transactions)).map (·.key)).Nodup := by
  refine ((terrainRegions_perm collation transactions).map _).nodup_iff.mpr ?_
  rw [List.map_append, List.map_map]
  refine List.Nodup.append ((statusRegion_keys transactions).nodup (by decide))
    (signatureGroups_keys collation transactions) fun key hStatus hSignature => ?_
  obtain ⟨status, -, rfl⟩ := List.mem_map.mp ((statusRegion_keys transactions).subset hStatus)
  obtain ⟨group, hGroup, hKey⟩ := List.mem_map.mp hSignature
  have hBucket := InsertionMap.bucketOf_of_mem transactionSignature ViolationSignature.key
    ((List.mergeSort_perm _ _).mem_iff.mp hGroup)
  obtain ⟨first, -, hSigned⟩ := hBucket.signed
  have hColon := signature_colon hSigned
  rw [show group.signature.key = status.name from hKey] at hColon
  exact status.name_not_colon hColon

/-- Each transaction has the region of its key. -/
theorem exists_terrainRegion (collation : Collation) {transactions : List MempoolEntry}
    {transaction : MempoolEntry} (h : transaction ∈ transactions) :
    ∃ region ∈ terrainRegions (terrainGroups collation transactions),
      terrainRegionKey transaction = .ok region.key := by
  have hPerm := terrainRegions_perm collation transactions
  rcases inStatus_or_inSignature transaction with ⟨key, hIn⟩ | ⟨signature, hIn⟩
  · have hHeld : transaction ∈ transactions.filter (hasStatus key) :=
      List.mem_filter.mpr ⟨h, by rw [hIn.status, decide_eq_true rfl]⟩
    refine ⟨_, hPerm.mem_iff.mpr (List.mem_append_left _ (List.mem_flatMap.mpr
      ⟨key, key.mem_all, mem_statusRegions.mpr ⟨List.ne_nil_of_mem hHeld, rfl⟩⟩)), hIn.region⟩
  · obtain ⟨bucket, hBucket, hKey, -⟩ := InsertionMap.exists_bucket transactionSignature
      ViolationSignature.key h hIn.signed
    refine ⟨signatureRegion bucket, hPerm.mem_iff.mpr (List.mem_append_right _ (List.mem_map.mpr
      ⟨bucket, (List.mergeSort_perm _ _).mem_iff.mpr hBucket, rfl⟩)), ?_⟩
    rw [hIn.region, ← hKey]
    rfl

-- ---------------------------------------------------------------------------
-- Conservation
-- ---------------------------------------------------------------------------

/-- The terrain holds each transaction in the region of its key, with the counts
and sizes of the populations. -/
structure TerrainConserves (collation : Collation) (transactions : List MempoolEntry)
    (groups : List TerrainSectionGroup) : Prop where
  keys : ((terrainRegions groups).map (·.key)).Nodup
  own : ∀ region ∈ terrainRegions groups, region.transactions =
    transactions.filter fun transaction => terrainRegionKey transaction = .ok region.key
  placed : ∀ transaction ∈ transactions, ∃! region, region ∈ terrainRegions groups ∧
    transaction ∈ region.transactions
  all : ((terrainRegions groups).flatMap (·.transactions)).Perm transactions
  sections : ∀ group ∈ groups, group.transactions = group.regions.flatMap (·.transactions)
  signatures : (((terrainRegions groups).filter (·.signature.isSome)).map fun region =>
      (region.key, region.transactions.length, sumVsize region.transactions)).Perm
    ((signaturePopulations collation transactions).map fun population =>
      (population.signature.key, population.count, population.vsize))
  statuses : ∀ status : StatusRegionKey,
    let held := ((terrainRegions groups).filter (·.key = status.name)).flatMap (·.transactions)
    (statusPopulation collation transactions status).count = held.length ∧
      (statusPopulation collation transactions status).vsize = sumVsize held

theorem statusGroup_sections {key : StatusRegionKey} {entries : List MempoolEntry}
    {group : TerrainSectionGroup} (h : group ∈ statusGroup key entries) :
    group.transactions = group.regions.flatMap (·.transactions) := by
  unfold statusGroup at h
  split at h
  · cases h
  · obtain rfl := List.mem_singleton.mp h
    exact (List.append_nil entries).symm

theorem violatingGroup_sections {sectionKey : TerrainSectionKey}
    {regions : List TerrainRegionGroup} {group : TerrainSectionGroup}
    (h : group ∈ violatingGroup sectionKey regions) :
    group.transactions = group.regions.flatMap (·.transactions) := by
  unfold violatingGroup at h
  split at h
  · obtain rfl := List.mem_singleton.mp h
    rfl
  · cases h

/-- A section holds what its regions hold. -/
theorem terrainGroups_sections {collation : Collation} {transactions : List MempoolEntry}
    {group : TerrainSectionGroup} (h : group ∈ terrainGroups collation transactions) :
    group.transactions = group.regions.flatMap (·.transactions) := by
  simp only [terrainGroups, List.mem_append] at h
  rcases h with (((h | h) | h) | h) | h
  · exact statusGroup_sections h
  · exact statusGroup_sections h
  · exact violatingGroup_sections h
  · exact violatingGroup_sections h
  · exact statusGroup_sections h

/-- **Every row stands in exactly one region.** -/
theorem terrainRegions_placed (collation : Collation) {transactions : List MempoolEntry}
    {transaction : MempoolEntry} (h : transaction ∈ transactions) :
    ∃! region, region ∈ terrainRegions (terrainGroups collation transactions) ∧
      transaction ∈ region.transactions := by
  obtain ⟨region, hRegion, hKey⟩ := exists_terrainRegion collation h
  refine ⟨region, ⟨hRegion, ?_⟩, fun other ⟨hOther, hHeld⟩ => ?_⟩
  · rw [terrainRegions_own hRegion]
    exact List.mem_filter.mpr ⟨h, decide_eq_true hKey⟩
  · rw [terrainRegions_own hOther] at hHeld
    have hOtherKey := of_decide_eq_true (List.mem_filter.mp hHeld).2
    exact List.inj_on_of_nodup_map (terrainRegions_keys collation transactions) hOther hRegion
      (Except.ok.inj (hOtherKey.symm.trans hKey))

/-- The regions together hold every row once. -/
theorem terrainRegions_all (collation : Collation) (transactions : List MempoolEntry) :
    ((terrainRegions (terrainGroups collation transactions)).flatMap (·.transactions)).Perm
      transactions := by
  have hKeys : ((terrainRegions (terrainGroups collation transactions)).map fun region =>
      (Except.ok region.key : Except String String)).Nodup := by
    have hMap := (terrainRegions_keys collation transactions).map
      (f := fun key => (Except.ok key : Except String String)) fun _ _ => Except.ok.inj
    rwa [List.map_map] at hMap
  have hPlace : ∀ transaction ∈ transactions, terrainRegionKey transaction ∈
      (terrainRegions (terrainGroups collation transactions)).map fun region =>
        (Except.ok region.key : Except String String) := by
    intro transaction hMem
    obtain ⟨region, hRegion, hKey⟩ := exists_terrainRegion collation hMem
    exact List.mem_map.mpr ⟨region, hRegion, hKey.symm⟩
  have hPerm := InsertionMap.flatMap_filter_perm terrainRegionKey hKeys hPlace
  rw [List.flatMap_map] at hPerm
  refine (List.Perm.of_eq ?_).trans hPerm
  exact List.flatMap_congr fun region hRegion => terrainRegions_own hRegion

theorem statusRegions_unsigned (transactions : List MempoolEntry) :
    (StatusRegionKey.all.flatMap (statusRegions transactions)).filter (·.signature.isSome) = [] := by
  rw [List.filter_eq_nil_iff]
  intro region hMem
  obtain ⟨key, -, hRegion⟩ := List.mem_flatMap.mp hMem
  obtain ⟨-, rfl⟩ := mem_statusRegions.mp hRegion
  exact Bool.false_ne_true

/-- The regions with a signature are those of the signatures' populations. -/
theorem terrainRegions_signatures (collation : Collation) (transactions : List MempoolEntry) :
    (((terrainRegions (terrainGroups collation transactions)).filter
        (·.signature.isSome)).map fun region =>
      (region.key, region.transactions.length, sumVsize region.transactions)).Perm
        ((signaturePopulations collation transactions).map fun population =>
          (population.signature.key, population.count, population.vsize)) := by
  have hSigned : ((signatureGroups collation transactions).map signatureRegion).filter
      (·.signature.isSome) = (signatureGroups collation transactions).map signatureRegion := by
    rw [List.filter_eq_self]
    intro region hMem
    obtain ⟨group, -, rfl⟩ := List.mem_map.mp hMem
    rfl
  refine (((terrainRegions_perm collation transactions).filter _).map _).trans (.of_eq ?_)
  rw [List.filter_append, statusRegions_unsigned, List.nil_append, hSigned, List.map_map]
  show _ = ((signatureGroups collation transactions).map _).map _
  rw [List.map_map]
  refine List.map_congr_left fun group _ => ?_
  have hSorted := sortPopulation_perm collation group.items
  exact congrArg (Prod.mk group.signature.key)
    (Prod.ext hSorted.length_eq.symm (sumVsize_perm hSorted).symm)

/-- What the region of a status holds, when it has one. -/
theorem statusRegion_held (collation : Collation) (transactions : List MempoolEntry)
    (status : StatusRegionKey) :
    (((terrainRegions (terrainGroups collation transactions)).filter
      (·.key = status.name)).flatMap (·.transactions)).Perm
        (transactions.filter (hasStatus status)) := by
  have hAll := (terrainRegions_all collation transactions).filter (hasStatus status)
  refine (List.Perm.of_eq ?_).trans hAll
  have hOwn : ∀ region ∈ terrainRegions (terrainGroups collation transactions),
      region.transactions.filter (hasStatus status) =
        if region.key = status.name then region.transactions else [] := by
    intro region hRegion
    have hKey : ∀ transaction ∈ region.transactions,
        hasStatus status transaction = decide (region.key = status.name) := by
      intro transaction hMem
      rw [terrainRegions_own hRegion] at hMem
      have hPlace := of_decide_eq_true (List.mem_filter.mp hMem).2
      rw [Bool.eq_iff_iff, ← terrainRegionKey_name_iff, hPlace, decide_eq_true_eq, Except.ok.injEq]
    by_cases hSame : region.key = status.name
    · rw [if_pos hSame, List.filter_eq_self]
      exact fun transaction hMem => (hKey transaction hMem).trans (decide_eq_true hSame)
    · rw [if_neg hSame, List.filter_eq_nil_iff]
      intro transaction hMem
      rw [hKey transaction hMem, decide_eq_true_eq]
      exact hSame
  rw [List.filter_flatMap, List.flatMap_congr hOwn]
  generalize terrainRegions (terrainGroups collation transactions) = regions
  induction regions with
  | nil => rfl
  | cons region rest ih =>
    rw [List.filter_cons, List.flatMap_cons, ← ih]
    by_cases hSame : region.key = status.name
    · simp [hSame]
    · simp [hSame]

/-- **The terrain conserves the rows**: each stands once, where it belongs. -/
theorem terrainGroups_conserve (collation : Collation) (transactions : List MempoolEntry) :
    TerrainConserves collation transactions (terrainGroups collation transactions) where
  keys := terrainRegions_keys collation transactions
  own _ hRegion := terrainRegions_own hRegion
  placed _ hMem := terrainRegions_placed collation hMem
  all := terrainRegions_all collation transactions
  sections _ hGroup := terrainGroups_sections hGroup
  signatures := terrainRegions_signatures collation transactions
  statuses status := by
    have hHeld := statusRegion_held collation transactions status
    have hSorted := sortPopulation_perm collation (transactions.filter (hasStatus status))
    exact ⟨hSorted.length_eq.trans hHeld.length_eq.symm,
      (sumVsize_perm hSorted).trans (sumVsize_perm hHeld).symm⟩

end MempoolAtlas.Web
