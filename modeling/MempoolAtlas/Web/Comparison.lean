import Mathlib.Data.String.Basic
import MempoolAtlas.Lib.Bisection
import MempoolAtlas.Model.Snapshot

/-!
# Comparing two snapshots

`web/src/comparison-model.ts`: the merge-join of two txid-sorted snapshots into
the three membership regions with their totals, and the lookups by binary
search over the regions. Txids are lower-case hexadecimal texts, which
JavaScript's `<` orders as `String` does here; totals of snapshots stay below
`Number.MAX_SAFE_INTEGER`, so the sums are exact.

## Results

* `joinLoop_joined` — the merge of sorted rows is the partition.
* `compareCurrentSnapshots_swap` — the other way round, the sides are exchanged.
* `findComparedTransaction_iff` — bisection finds an identifier exactly where it stands.
* `comparison_merge_join` — the comparison of two sorted snapshots.
-/

namespace MempoolAtlas.Web

open Bisection Model

/-- One of the two sources compared. -/
inductive ComparisonSide where
  | left
  | right
deriving DecidableEq, Repr

/-- A region of the comparison: what both hold, or one alone. -/
inductive ComparisonRegionKey where
  | common
  | leftOnly
  | rightOnly
deriving DecidableEq, Repr

/-- A snapshot with the source it was loaded from. -/
structure LoadedSourceSnapshot where
  source : SourceSummary
  snapshot : MempoolSnapshot

/-- A transaction of the comparison, with each side's row of it. -/
structure ComparedTransaction where
  txid : String
  left : Option MempoolEntry
  right : Option MempoolEntry
  sameWtxid : Option Bool
deriving DecidableEq, Repr

/-- The counts and sizes of the regions. -/
structure ComparisonTotals where
  unionCount : Nat
  commonCount : Nat
  commonLeftVsize : Nat
  commonRightVsize : Nat
  leftOnlyCount : Nat
  leftOnlyVsize : Nat
  rightOnlyCount : Nat
  rightOnlyVsize : Nat
deriving DecidableEq, Repr

/-- The comparison: its two snapshots, its regions and their totals. -/
structure CurrentComparison where
  left : LoadedSourceSnapshot
  right : LoadedSourceSnapshot
  observedSkewMs : Nat
  earlierSide : Option ComparisonSide
  common : List ComparedTransaction
  leftOnly : List ComparedTransaction
  rightOnly : List ComparedTransaction
  totals : ComparisonTotals

/-- `Bip110Status | "unclassified"`. -/
inductive ComparisonPolicyStatus where
  | compatible
  | violating
  | indeterminate
  | unclassified
deriving DecidableEq, Repr

/-- What the policy view shows: everything, one rule, one status or one signature. -/
inductive ComparisonPolicyFilter where
  | all
  | rule (rule : Bip110RuleId)
  | status (status : ComparisonPolicyStatus)
  | signature (signature : String)
deriving DecidableEq, Repr

/-- The entry of a transaction that one side or both hold. -/
def comparedEntry (left right : Option MempoolEntry) : ComparedTransaction where
  txid := ((left.map (·.txid)).or (right.map (·.txid))).getD ""
  left
  right
  sameWtxid :=
    match left, right with
    | some left, some right => some (left.wtxid == right.wtxid)
    | _, _ => none

-- ---------------------------------------------------------------------------
-- The merge-join
-- ---------------------------------------------------------------------------

/-- The accumulators of `compareCurrentSnapshots`. -/
structure JoinState where
  common : List ComparedTransaction := []
  leftOnly : List ComparedTransaction := []
  rightOnly : List ComparedTransaction := []
  commonLeftVsize : Nat := 0
  commonRightVsize : Nat := 0
  leftOnlyVsize : Nat := 0
  rightOnlyVsize : Nat := 0

/-- Both sides hold the transaction. -/
def JoinState.pushCommon (state : JoinState) (left right : MempoolEntry) : JoinState :=
  { state with
    common := state.common ++ [comparedEntry (some left) (some right)]
    commonLeftVsize := state.commonLeftVsize + left.vsize
    commonRightVsize := state.commonRightVsize + right.vsize }

/-- The left side alone holds the transaction. -/
def JoinState.pushLeftOnly (state : JoinState) (left : MempoolEntry) : JoinState :=
  { state with
    leftOnly := state.leftOnly ++ [comparedEntry (some left) none]
    leftOnlyVsize := state.leftOnlyVsize + left.vsize }

/-- The right side alone holds the transaction. -/
def JoinState.pushRightOnly (state : JoinState) (right : MempoolEntry) : JoinState :=
  { state with
    rightOnly := state.rightOnly ++ [comparedEntry none (some right)]
    rightOnlyVsize := state.rightOnlyVsize + right.vsize }

/-- The two-pointer loop, on what is left of each side. -/
def joinLoop : List MempoolEntry → List MempoolEntry → JoinState → JoinState
  | [], [], state => state
  | [], right :: rights, state => joinLoop [] rights (state.pushRightOnly right)
  | left :: lefts, [], state => joinLoop lefts [] (state.pushLeftOnly left)
  | left :: lefts, right :: rights, state =>
    if left.txid = right.txid then joinLoop lefts rights (state.pushCommon left right)
    else if left.txid < right.txid then joinLoop lefts (right :: rights) (state.pushLeftOnly left)
    else joinLoop (left :: lefts) rights (state.pushRightOnly right)
termination_by lefts rights => lefts.length + rights.length

/-- The side observed first, if one was. -/
def earlierSide (leftObserved rightObserved : Nat) : Option ComparisonSide :=
  if leftObserved = rightObserved then none
  else if leftObserved < rightObserved then some .left
  else some .right

/-- `compareCurrentSnapshots`: two sources that differ, joined by transaction identifier. -/
def compareCurrentSnapshots (left right : LoadedSourceSnapshot) :
    Except String CurrentComparison :=
  if left.snapshot.sourceId = right.snapshot.sourceId then
    .error "A comparison requires two distinct sources"
  else
    let state := joinLoop left.snapshot.transactions right.snapshot.transactions {}
    .ok {
      left, right
      observedSkewMs :=
        ((left.snapshot.observedAtMs : Int) - right.snapshot.observedAtMs).natAbs
      earlierSide := earlierSide left.snapshot.observedAtMs right.snapshot.observedAtMs
      common := state.common
      leftOnly := state.leftOnly
      rightOnly := state.rightOnly
      totals := {
        unionCount := state.common.length + state.leftOnly.length + state.rightOnly.length
        commonCount := state.common.length
        commonLeftVsize := state.commonLeftVsize
        commonRightVsize := state.commonRightVsize
        leftOnlyCount := state.leftOnly.length
        leftOnlyVsize := state.leftOnlyVsize
        rightOnlyCount := state.rightOnly.length
        rightOnlyVsize := state.rightOnlyVsize } }

-- ---------------------------------------------------------------------------
-- Lookups
-- ---------------------------------------------------------------------------

/-- The entries of a region. -/
def CurrentComparison.entries (comparison : CurrentComparison) :
    ComparisonRegionKey → List ComparedTransaction
  | .common => comparison.common
  | .leftOnly => comparison.leftOnly
  | .rightOnly => comparison.rightOnly

/-- The entry of an identifier in a region, by bisection, with its place. -/
def findComparedTransaction (entries : List ComparedTransaction) (txid : String) :
    Option (Nat × ComparedTransaction) :=
  match lowerBound (fun entry => decide (entry.txid < txid)) entries 0 entries.length with
  | none => none
  | some low =>
    match entries[low]? with
    | none => none
    | some candidate => if candidate.txid = txid then some (low, candidate) else none

/-- Where a transaction stands in the comparison. -/
structure ComparisonTransactionLookup where
  region : ComparisonRegionKey
  index : Nat
  entry : ComparedTransaction
deriving DecidableEq, Repr

/-- The regions in the order they are searched. -/
def comparisonRegions : List ComparisonRegionKey := [.common, .leftOnly, .rightOnly]

/-- The regions are searched in turn: what both hold, the left side's, the right side's. -/
def lookupComparisonTransaction (comparison : CurrentComparison) (txid : String) :
    Option ComparisonTransactionLookup :=
  comparisonRegions.findSome? fun region =>
    (findComparedTransaction (comparison.entries region) txid).map fun found =>
      { region, index := found.1, entry := found.2 }

/-- The row of one side. -/
def sourceEntry (entry : ComparedTransaction) : ComparisonSide → Option MempoolEntry
  | .left => entry.left
  | .right => entry.right

/-- The side whose assessments a region shows; the common region leaves the choice. -/
def policySideForRegion (region : ComparisonRegionKey) (preferred : ComparisonSide) :
    ComparisonSide :=
  match region with
  | .leftOnly => .left
  | .rightOnly => .right
  | .common => preferred

/-- The side of a region is its own side. -/
theorem policySideForRegion_self (region : ComparisonRegionKey) (side : ComparisonSide) :
    policySideForRegion region (policySideForRegion region side) =
      policySideForRegion region side := by
  cases region <;> rfl

-- ---------------------------------------------------------------------------
-- What the loop leaves
-- ---------------------------------------------------------------------------

/-- Rows in strictly increasing order of their txids. -/
def TxidSorted (transactions : List MempoolEntry) : Prop :=
  transactions.Pairwise fun left right => left.txid < right.txid

/-- Whether some rows hold an identifier. -/
def holds (transactions : List MempoolEntry) (txid : String) : Bool :=
  transactions.any fun transaction => transaction.txid == txid

theorem holds_iff {transactions : List MempoolEntry} {txid : String} :
    holds transactions txid = true ↔ ∃ transaction ∈ transactions, transaction.txid = txid := by
  simp [holds]

/-- The rows of one side that the other shares, and those it does not. -/
def shared (transactions others : List MempoolEntry) : List MempoolEntry :=
  transactions.filter fun transaction => holds others transaction.txid

/-- The rows that the other side lacks. -/
def unshared (transactions others : List MempoolEntry) : List MempoolEntry :=
  transactions.filter fun transaction => !holds others transaction.txid

/-- What the loop is to leave, given what it starts from. -/
structure JoinState.Joined (start final : JoinState) (lefts rights : List MempoolEntry) : Prop where
  common : final.common = start.common ++
    ((shared lefts rights).zip (shared rights lefts)).map fun (left, right) =>
      comparedEntry (some left) (some right)
  paired : List.Forall₂ (fun left right => left.txid = right.txid) (shared lefts rights)
    (shared rights lefts)
  leftOnly : final.leftOnly = start.leftOnly ++
    (unshared lefts rights).map fun left => comparedEntry (some left) none
  rightOnly : final.rightOnly = start.rightOnly ++
    (unshared rights lefts).map fun right => comparedEntry none (some right)
  commonLeftVsize : final.commonLeftVsize =
    start.commonLeftVsize + ((shared lefts rights).map MempoolEntry.vsize).sum
  commonRightVsize : final.commonRightVsize =
    start.commonRightVsize + ((shared rights lefts).map MempoolEntry.vsize).sum
  leftOnlyVsize : final.leftOnlyVsize =
    start.leftOnlyVsize + ((unshared lefts rights).map MempoolEntry.vsize).sum
  rightOnlyVsize : final.rightOnlyVsize =
    start.rightOnlyVsize + ((unshared rights lefts).map MempoolEntry.vsize).sum

/-- A row that precedes all of the other side is not on it. -/
theorem holds_of_lt {transactions : List MempoolEntry} {txid : String}
    (h : ∀ transaction ∈ transactions, txid < transaction.txid) : holds transactions txid = false := by
  rw [Bool.eq_false_iff, Ne, holds_iff]
  rintro ⟨transaction, hMem, rfl⟩
  exact lt_irrefl _ (h transaction hMem)

theorem holds_cons_of_ne {transaction : MempoolEntry} {transactions : List MempoolEntry}
    {txid : String} (h : transaction.txid ≠ txid) :
    holds (transaction :: transactions) txid = holds transactions txid := by
  simp [holds, h]

theorem holds_cons_self {transaction : MempoolEntry} {transactions : List MempoolEntry}
    {txid : String} (h : transaction.txid = txid) :
    holds (transaction :: transactions) txid = true := by
  simp [holds, h]

/-- A row no other row shares does not count for the other side. -/
theorem shared_cons_of_ne {transaction : MempoolEntry} {transactions others : List MempoolEntry}
    (h : ∀ other ∈ transactions, transaction.txid ≠ other.txid) :
    shared transactions (transaction :: others) = shared transactions others ∧
      unshared transactions (transaction :: others) = unshared transactions others := by
  constructor
  · exact List.filter_congr fun other hMem => by rw [holds_cons_of_ne (h other hMem)]
  · exact List.filter_congr fun other hMem => by rw [holds_cons_of_ne (h other hMem)]

theorem TxidSorted.head_lt {transaction : MempoolEntry} {transactions : List MempoolEntry}
    (h : TxidSorted (transaction :: transactions)) {other : MempoolEntry}
    (hMem : other ∈ transactions) : transaction.txid < other.txid :=
  (List.pairwise_cons.mp h).1 other hMem

theorem TxidSorted.tail {transaction : MempoolEntry} {transactions : List MempoolEntry}
    (h : TxidSorted (transaction :: transactions)) : TxidSorted transactions :=
  (List.pairwise_cons.mp h).2

/-- A head before the other side's head is before all of it. -/
theorem TxidSorted.lt_of_lt {txid : String} {transaction : MempoolEntry}
    {transactions : List MempoolEntry} (h : TxidSorted (transaction :: transactions))
    (hLt : txid < transaction.txid) :
    ∀ other ∈ transaction :: transactions, txid < other.txid := by
  intro other hMem
  rcases List.mem_cons.mp hMem with rfl | hMem
  · exact hLt
  · exact hLt.trans (h.head_lt hMem)

/-- A left row before all right rows is pushed to the left. -/
theorem JoinState.Joined.left {state final : JoinState} {left : MempoolEntry}
    {lefts rights : List MempoolEntry} (h : (state.pushLeftOnly left).Joined final lefts rights)
    (hBefore : ∀ right ∈ rights, left.txid < right.txid) :
    state.Joined final (left :: lefts) rights := by
  have hAbsent : holds rights left.txid = false := holds_of_lt hBefore
  have hShared : shared (left :: lefts) rights = shared lefts rights :=
    List.filter_cons_of_neg (by rw [hAbsent]; decide)
  have hUnshared : unshared (left :: lefts) rights = left :: unshared lefts rights :=
    List.filter_cons_of_pos (by rw [hAbsent]; decide)
  obtain ⟨hOther, hOther'⟩ := @shared_cons_of_ne left rights lefts
    fun right hMem => (hBefore right hMem).ne
  refine ⟨?_, ?_, ?_, ?_, ?_, ?_, ?_, ?_⟩
  · rw [hShared, hOther, h.common]
    rfl
  · rw [hShared, hOther]
    exact h.paired
  · rw [hUnshared, h.leftOnly, List.map_cons]
    exact List.append_assoc ..
  · rw [hOther', h.rightOnly]
    rfl
  · rw [hShared, h.commonLeftVsize]
    rfl
  · rw [hOther, h.commonRightVsize]
    rfl
  · rw [hUnshared, h.leftOnlyVsize, List.map_cons, List.sum_cons]
    exact Nat.add_assoc ..
  · rw [hOther', h.rightOnlyVsize]
    rfl

/-- A right row before all left rows is pushed to the right. -/
theorem JoinState.Joined.right {state final : JoinState} {right : MempoolEntry}
    {lefts rights : List MempoolEntry} (h : (state.pushRightOnly right).Joined final lefts rights)
    (hBefore : ∀ left ∈ lefts, right.txid < left.txid) :
    state.Joined final lefts (right :: rights) := by
  have hAbsent : holds lefts right.txid = false := holds_of_lt hBefore
  have hShared : shared (right :: rights) lefts = shared rights lefts :=
    List.filter_cons_of_neg (by rw [hAbsent]; decide)
  have hUnshared : unshared (right :: rights) lefts = right :: unshared rights lefts :=
    List.filter_cons_of_pos (by rw [hAbsent]; decide)
  obtain ⟨hOther, hOther'⟩ := @shared_cons_of_ne right lefts rights
    fun left hMem => (hBefore left hMem).ne
  refine ⟨?_, ?_, ?_, ?_, ?_, ?_, ?_, ?_⟩
  · rw [hShared, hOther, h.common]
    rfl
  · rw [hShared, hOther]
    exact h.paired
  · rw [hOther', h.leftOnly]
    rfl
  · rw [hUnshared, h.rightOnly, List.map_cons]
    exact List.append_assoc ..
  · rw [hOther, h.commonLeftVsize]
    rfl
  · rw [hShared, h.commonRightVsize]
    rfl
  · rw [hOther', h.leftOnlyVsize]
    rfl
  · rw [hUnshared, h.rightOnlyVsize, List.map_cons, List.sum_cons]
    exact Nat.add_assoc ..

/-- Two heads with one txid are pushed as a pair. -/
theorem JoinState.Joined.both {state final : JoinState} {left right : MempoolEntry}
    {lefts rights : List MempoolEntry}
    (h : (state.pushCommon left right).Joined final lefts rights) (hSame : left.txid = right.txid)
    (hLeft : ∀ other ∈ lefts, left.txid < other.txid)
    (hRight : ∀ other ∈ rights, right.txid < other.txid) :
    state.Joined final (left :: lefts) (right :: rights) := by
  obtain ⟨hOther, hOther'⟩ := @shared_cons_of_ne right lefts rights
    fun other hMem => hSame ▸ (hLeft other hMem).ne
  obtain ⟨hOwn, hOwn'⟩ := @shared_cons_of_ne left rights lefts
    fun other hMem => hSame.symm ▸ (hRight other hMem).ne
  have hShared : shared (left :: lefts) (right :: rights) = left :: shared lefts rights := by
    rw [← hOther]
    exact List.filter_cons_of_pos (holds_cons_self hSame.symm)
  have hShared' : shared (right :: rights) (left :: lefts) = right :: shared rights lefts := by
    rw [← hOwn]
    exact List.filter_cons_of_pos (holds_cons_self hSame)
  have hUnshared : unshared (left :: lefts) (right :: rights) = unshared lefts rights := by
    rw [← hOther']
    exact List.filter_cons_of_neg (by rw [holds_cons_self hSame.symm]; decide)
  have hUnshared' : unshared (right :: rights) (left :: lefts) = unshared rights lefts := by
    rw [← hOwn']
    exact List.filter_cons_of_neg (by rw [holds_cons_self hSame]; decide)
  refine ⟨?_, ?_, ?_, ?_, ?_, ?_, ?_, ?_⟩
  · rw [hShared, hShared', h.common, List.zip_cons_cons, List.map_cons]
    exact List.append_assoc ..
  · rw [hShared, hShared']
    exact .cons hSame h.paired
  · rw [hUnshared, h.leftOnly]
    rfl
  · rw [hUnshared', h.rightOnly]
    rfl
  · rw [hShared, h.commonLeftVsize, List.map_cons, List.sum_cons]
    exact Nat.add_assoc ..
  · rw [hShared', h.commonRightVsize, List.map_cons, List.sum_cons]
    exact Nat.add_assoc ..
  · rw [hUnshared, h.leftOnlyVsize]
    rfl
  · rw [hUnshared', h.rightOnlyVsize]
    rfl

/-- **The merge of sorted rows** is the partition: what both hold, what each holds alone. -/
theorem joinLoop_joined (lefts rights : List MempoolEntry) (state : JoinState)
    (hLeft : TxidSorted lefts) (hRight : TxidSorted rights) :
    state.Joined (joinLoop lefts rights state) lefts rights := by
  induction lefts, rights, state using joinLoop.induct with
  | case1 state =>
    rw [joinLoop]
    exact ⟨(List.append_nil _).symm, .nil, (List.append_nil _).symm, (List.append_nil _).symm,
      rfl, rfl, rfl, rfl⟩
  | case2 right rights state ih =>
    rw [joinLoop]
    refine (ih hLeft hRight.tail).right fun left hMem => ?_
    cases hMem
  | case3 left lefts state ih =>
    rw [joinLoop]
    refine (ih hLeft.tail hRight).left fun right hMem => ?_
    cases hMem
  | case4 left lefts right rights state hSame ih =>
    rw [joinLoop, if_pos hSame]
    exact (ih hLeft.tail hRight.tail).both hSame (fun _ => hLeft.head_lt) fun _ => hRight.head_lt
  | case5 left lefts right rights state hNe hLt ih =>
    rw [joinLoop, if_neg hNe, if_pos hLt]
    exact (ih hLeft.tail hRight).left (hRight.lt_of_lt hLt)
  | case6 left lefts right rights state hNe hNotLt ih =>
    have hGt : right.txid < left.txid := lt_of_le_of_ne (not_lt.mp hNotLt) (Ne.symm hNe)
    rw [joinLoop, if_neg hNe, if_neg hNotLt]
    exact (ih hLeft hRight.tail).right (hLeft.lt_of_lt hGt)

-- ---------------------------------------------------------------------------
-- The regions
-- ---------------------------------------------------------------------------

/-- Compared rows in strictly increasing order of their txids. -/
def EntriesSorted (entries : List ComparedTransaction) : Prop :=
  entries.Pairwise fun left right => left.txid < right.txid

/-- Every txid of the union is in one region, with each side's own row. -/
structure PartitionsUnion (comparison : CurrentComparison) : Prop where
  common : ∀ entry, entry ∈ comparison.common ↔
    ∃ left ∈ comparison.left.snapshot.transactions,
      ∃ right ∈ comparison.right.snapshot.transactions,
        left.txid = right.txid ∧ entry = comparedEntry (some left) (some right)
  leftOnly : ∀ entry, entry ∈ comparison.leftOnly ↔
    ∃ left ∈ comparison.left.snapshot.transactions,
      (∀ right ∈ comparison.right.snapshot.transactions, right.txid ≠ left.txid) ∧
        entry = comparedEntry (some left) none
  rightOnly : ∀ entry, entry ∈ comparison.rightOnly ↔
    ∃ right ∈ comparison.right.snapshot.transactions,
      (∀ left ∈ comparison.left.snapshot.transactions, left.txid ≠ right.txid) ∧
        entry = comparedEntry none (some right)
  sorted : ∀ region, EntriesSorted (comparison.entries region)
  leftCount : comparison.common.length + comparison.leftOnly.length =
    comparison.left.snapshot.transactions.length
  rightCount : comparison.common.length + comparison.rightOnly.length =
    comparison.right.snapshot.transactions.length

/-- The vsize one side reports for a compared row. -/
def sideVsize (side : ComparisonSide) (entry : ComparedTransaction) : Nat :=
  ((sourceEntry entry side).map MempoolEntry.vsize).getD 0

/-- Counts and vsize totals are those of the regions, and add up to the sides. -/
structure ExactTotals (comparison : CurrentComparison) : Prop where
  unionCount : comparison.totals.unionCount =
    comparison.common.length + comparison.leftOnly.length + comparison.rightOnly.length
  commonCount : comparison.totals.commonCount = comparison.common.length
  leftOnlyCount : comparison.totals.leftOnlyCount = comparison.leftOnly.length
  rightOnlyCount : comparison.totals.rightOnlyCount = comparison.rightOnly.length
  commonLeftVsize : comparison.totals.commonLeftVsize =
    (comparison.common.map (sideVsize .left)).sum
  commonRightVsize : comparison.totals.commonRightVsize =
    (comparison.common.map (sideVsize .right)).sum
  leftOnlyVsize : comparison.totals.leftOnlyVsize =
    (comparison.leftOnly.map (sideVsize .left)).sum
  rightOnlyVsize : comparison.totals.rightOnlyVsize =
    (comparison.rightOnly.map (sideVsize .right)).sum
  leftTotal : comparison.totals.commonLeftVsize + comparison.totals.leftOnlyVsize =
    (comparison.left.snapshot.transactions.map MempoolEntry.vsize).sum
  rightTotal : comparison.totals.commonRightVsize + comparison.totals.rightOnlyVsize =
    (comparison.right.snapshot.transactions.map MempoolEntry.vsize).sum

/-- Sorted rows hold an identifier once. -/
theorem txid_unique {transactions : List MempoolEntry} (h : TxidSorted transactions)
    {a b : MempoolEntry} (ha : a ∈ transactions) (hb : b ∈ transactions)
    (hSame : a.txid = b.txid) : a = b := by
  induction transactions with
  | nil => cases ha
  | cons first rest ih =>
    rcases List.mem_cons.mp ha with hFirst | hRest
    · rcases List.mem_cons.mp hb with hFirst' | hRest'
      · exact hFirst.trans hFirst'.symm
      · exact absurd (hFirst ▸ hSame) (h.head_lt hRest').ne
    · rcases List.mem_cons.mp hb with hFirst' | hRest'
      · exact absurd (hFirst' ▸ hSame).symm (h.head_lt hRest).ne
      · exact ih h.tail hRest hRest'

theorem mem_shared {transactions others : List MempoolEntry} {transaction : MempoolEntry} :
    transaction ∈ shared transactions others ↔
      transaction ∈ transactions ∧ ∃ other ∈ others, other.txid = transaction.txid := by
  rw [shared, List.mem_filter, holds_iff]

theorem mem_unshared {transactions others : List MempoolEntry} {transaction : MempoolEntry} :
    transaction ∈ unshared transactions others ↔
      transaction ∈ transactions ∧ ∀ other ∈ others, other.txid ≠ transaction.txid := by
  rw [unshared, List.mem_filter, Bool.not_eq_true', Bool.eq_false_iff, Ne, holds_iff]
  simp only [not_exists, not_and]

/-- What a side shares and what it does not are its rows. -/
theorem shared_append_unshared (transactions others : List MempoolEntry) :
    (shared transactions others ++ unshared transactions others).Perm transactions :=
  List.filter_append_perm ..

/-- A pair of the two shared lists is a pair of rows with one txid. -/
theorem mem_zip_shared {lefts rights : List MempoolEntry} (hRight : TxidSorted rights)
    (hPaired : List.Forall₂ (fun left right => left.txid = right.txid) (shared lefts rights)
      (shared rights lefts)) {left right : MempoolEntry} :
    (left, right) ∈ (shared lefts rights).zip (shared rights lefts) ↔
      left ∈ lefts ∧ right ∈ rights ∧ left.txid = right.txid := by
  constructor
  · intro hMem
    obtain ⟨hLeftMem, hRightMem⟩ := List.of_mem_zip hMem
    exact ⟨(mem_shared.mp hLeftMem).1, (mem_shared.mp hRightMem).1,
      (List.forall₂_iff_zip.mp hPaired).2 hMem⟩
  · rintro ⟨hLeftMem, hRightMem, hSame⟩
    have hShared : left ∈ shared lefts rights := mem_shared.mpr ⟨hLeftMem, right, hRightMem, hSame.symm⟩
    obtain ⟨index, hIndex, rfl⟩ := List.getElem_of_mem hShared
    have hIndex' : index < (shared rights lefts).length := hPaired.length_eq ▸ hIndex
    have hPartner := hPaired.get hIndex hIndex'
    have hPartnerMem := (mem_shared.mp (List.getElem_mem hIndex')).1
    have hEq : (shared rights lefts)[index] = right :=
      txid_unique hRight hPartnerMem hRightMem (hPartner.symm.trans hSame)
    rw [← hEq, ← List.getElem_zip (h := by rw [List.length_zip]; omega)]
    exact List.getElem_mem _

/-- Entries with the identifiers of sorted rows are sorted. -/
theorem pairwise_of_map_txid {entries : List ComparedTransaction}
    {transactions : List MempoolEntry} (hSorted : TxidSorted transactions)
    (hTxids : entries.map ComparedTransaction.txid = transactions.map MempoolEntry.txid) :
    EntriesSorted entries := by
  have hMap : (entries.map ComparedTransaction.txid).Pairwise (· < ·) := by
    rw [hTxids, List.pairwise_map]
    exact hSorted
  exact List.pairwise_map.mp hMap

/-- A comparison that was made, through what its loop left. -/
theorem compareCurrentSnapshots_eq_ok {left right : LoadedSourceSnapshot}
    {comparison : CurrentComparison} (h : compareCurrentSnapshots left right = .ok comparison) :
    left.snapshot.sourceId ≠ right.snapshot.sourceId ∧ comparison.left = left ∧
      comparison.right = right ∧ ∃ state,
        state = joinLoop left.snapshot.transactions right.snapshot.transactions {} ∧
        comparison.common = state.common ∧ comparison.leftOnly = state.leftOnly ∧
        comparison.rightOnly = state.rightOnly ∧
        comparison.totals = {
          unionCount := state.common.length + state.leftOnly.length + state.rightOnly.length
          commonCount := state.common.length
          commonLeftVsize := state.commonLeftVsize
          commonRightVsize := state.commonRightVsize
          leftOnlyCount := state.leftOnly.length
          leftOnlyVsize := state.leftOnlyVsize
          rightOnlyCount := state.rightOnly.length
          rightOnlyVsize := state.rightOnlyVsize } := by
  unfold compareCurrentSnapshots at h
  split at h
  · cases h
  · next hNe =>
    obtain rfl := Except.ok.inj h
    exact ⟨hNe, rfl, rfl, _, rfl, rfl, rfl, rfl, rfl⟩

section
variable {left right : LoadedSourceSnapshot} {comparison : CurrentComparison}
  (hLeft : TxidSorted left.snapshot.transactions)
  (hRight : TxidSorted right.snapshot.transactions)
  (hCompared : compareCurrentSnapshots left right = .ok comparison)

include hLeft hRight hCompared

/-- The regions partition the union of the two sides. -/
theorem partitionsUnion : PartitionsUnion comparison := by
  obtain ⟨-, rfl, rfl, state, hState, hCommon, hLeftOnly, hRightOnly, -⟩ :=
    compareCurrentSnapshots_eq_ok hCompared
  have hJoined := joinLoop_joined _ _ {} hLeft hRight
  rw [← hState] at hJoined
  have hLength := hJoined.paired.length_eq
  have hFirsts := List.map_fst_zip hLength.le
  rw [hJoined.common, List.nil_append] at hCommon
  rw [hJoined.leftOnly, List.nil_append] at hLeftOnly
  rw [hJoined.rightOnly, List.nil_append] at hRightOnly
  have hSharedSorted : TxidSorted (shared comparison.left.snapshot.transactions
      comparison.right.snapshot.transactions) := hLeft.filter _
  have hLeftOnlySorted : TxidSorted (unshared comparison.left.snapshot.transactions
      comparison.right.snapshot.transactions) := hLeft.filter _
  have hRightOnlySorted : TxidSorted (unshared comparison.right.snapshot.transactions
      comparison.left.snapshot.transactions) := hRight.filter _
  refine ⟨fun entry => ?_, fun entry => ?_, fun entry => ?_, fun region => ?_, ?_, ?_⟩
  · rw [hCommon, List.mem_map, Prod.exists]
    simp only [mem_zip_shared hRight hJoined.paired]
    constructor
    · rintro ⟨left, right, ⟨hLeftMem, hRightMem, hSame⟩, rfl⟩
      exact ⟨left, hLeftMem, right, hRightMem, hSame, rfl⟩
    · rintro ⟨left, hLeftMem, right, hRightMem, hSame, rfl⟩
      exact ⟨left, right, ⟨hLeftMem, hRightMem, hSame⟩, rfl⟩
  · rw [hLeftOnly, List.mem_map]
    simp only [mem_unshared]
    constructor
    · rintro ⟨left, ⟨hMem, hAlone⟩, rfl⟩
      exact ⟨left, hMem, hAlone, rfl⟩
    · rintro ⟨left, hMem, hAlone, rfl⟩
      exact ⟨left, ⟨hMem, hAlone⟩, rfl⟩
  · rw [hRightOnly, List.mem_map]
    simp only [mem_unshared]
    constructor
    · rintro ⟨right, ⟨hMem, hAlone⟩, rfl⟩
      exact ⟨right, hMem, hAlone, rfl⟩
    · rintro ⟨right, hMem, hAlone, rfl⟩
      exact ⟨right, ⟨hMem, hAlone⟩, rfl⟩
  · cases region with
    | common =>
      refine pairwise_of_map_txid hSharedSorted ?_
      refine Eq.trans ?_ (congrArg (List.map MempoolEntry.txid) hFirsts)
      show comparison.common.map ComparedTransaction.txid = _
      rw [hCommon, List.map_map, List.map_map]
      rfl
    | leftOnly =>
      refine pairwise_of_map_txid hLeftOnlySorted ?_
      show comparison.leftOnly.map ComparedTransaction.txid = _
      rw [hLeftOnly, List.map_map]
      rfl
    | rightOnly =>
      refine pairwise_of_map_txid hRightOnlySorted ?_
      show comparison.rightOnly.map ComparedTransaction.txid = _
      rw [hRightOnly, List.map_map]
      rfl
  · have hPerm := (shared_append_unshared comparison.left.snapshot.transactions
      comparison.right.snapshot.transactions).length_eq
    rw [List.length_append] at hPerm
    rw [hCommon, hLeftOnly, List.length_map, List.length_map, List.length_zip, ← hLength,
      Nat.min_self]
    exact hPerm
  · have hPerm := (shared_append_unshared comparison.right.snapshot.transactions
      comparison.left.snapshot.transactions).length_eq
    rw [List.length_append] at hPerm
    rw [hCommon, hRightOnly, List.length_map, List.length_map, List.length_zip, hLength,
      Nat.min_self]
    exact hPerm

/-- The totals count what the regions hold. -/
theorem exactTotals : ExactTotals comparison := by
  obtain ⟨-, rfl, rfl, state, hState, hCommon, hLeftOnly, hRightOnly, hTotals⟩ :=
    compareCurrentSnapshots_eq_ok hCompared
  have hJoined := joinLoop_joined _ _ {} hLeft hRight
  rw [← hState] at hJoined
  have hLength := hJoined.paired.length_eq
  have hFirsts := List.map_fst_zip hLength.le
  have hSeconds := List.map_snd_zip hLength.ge
  have hLeftSum := ((shared_append_unshared comparison.left.snapshot.transactions
    comparison.right.snapshot.transactions).map MempoolEntry.vsize).sum_eq
  have hRightSum := ((shared_append_unshared comparison.right.snapshot.transactions
    comparison.left.snapshot.transactions).map MempoolEntry.vsize).sum_eq
  rw [List.map_append, List.sum_append] at hLeftSum hRightSum
  have hCommonLeft := hJoined.commonLeftVsize
  have hCommonRight := hJoined.commonRightVsize
  have hLeftVsize := hJoined.leftOnlyVsize
  have hRightVsize := hJoined.rightOnlyVsize
  simp only [Nat.zero_add] at hCommonLeft hCommonRight hLeftVsize hRightVsize
  refine ⟨by rw [hTotals, hCommon, hLeftOnly, hRightOnly], by rw [hTotals, hCommon],
    by rw [hTotals, hLeftOnly], by rw [hTotals, hRightOnly], ?_, ?_, ?_, ?_, ?_, ?_⟩
  · rw [hTotals, hCommon, hJoined.common, List.nil_append, List.map_map]
    show state.commonLeftVsize = _
    rw [hCommonLeft]
    nth_rewrite 1 [← hFirsts]
    rw [List.map_map]
    rfl
  · rw [hTotals, hCommon, hJoined.common, List.nil_append, List.map_map]
    show state.commonRightVsize = _
    rw [hCommonRight]
    nth_rewrite 1 [← hSeconds]
    rw [List.map_map]
    rfl
  · rw [hTotals, hLeftOnly, hJoined.leftOnly, List.nil_append, List.map_map]
    exact hLeftVsize
  · rw [hTotals, hRightOnly, hJoined.rightOnly, List.nil_append, List.map_map]
    exact hRightVsize
  · rw [hTotals]
    show state.commonLeftVsize + state.leftOnlyVsize = _
    rw [hCommonLeft, hLeftVsize]
    exact hLeftSum
  · rw [hTotals]
    show state.commonRightVsize + state.rightOnlyVsize = _
    rw [hCommonRight, hRightVsize]
    exact hRightSum

end

-- ---------------------------------------------------------------------------
-- The other way round
-- ---------------------------------------------------------------------------

/-- The other side. -/
def ComparisonSide.swap : ComparisonSide → ComparisonSide
  | .left => .right
  | .right => .left

/-- The entry seen from the other side. -/
def ComparedTransaction.swap (entry : ComparedTransaction) : ComparedTransaction :=
  { entry with left := entry.right, right := entry.left }

/-- The totals with the sides exchanged. -/
def ComparisonTotals.swap (totals : ComparisonTotals) : ComparisonTotals where
  unionCount := totals.unionCount
  commonCount := totals.commonCount
  commonLeftVsize := totals.commonRightVsize
  commonRightVsize := totals.commonLeftVsize
  leftOnlyCount := totals.rightOnlyCount
  leftOnlyVsize := totals.rightOnlyVsize
  rightOnlyCount := totals.leftOnlyCount
  rightOnlyVsize := totals.leftOnlyVsize

/-- The sides change places; skew, union and common rows stay. -/
def CurrentComparison.swap (comparison : CurrentComparison) : CurrentComparison where
  left := comparison.right
  right := comparison.left
  observedSkewMs := comparison.observedSkewMs
  earlierSide := comparison.earlierSide.map ComparisonSide.swap
  common := comparison.common.map ComparedTransaction.swap
  leftOnly := comparison.rightOnly.map ComparedTransaction.swap
  rightOnly := comparison.leftOnly.map ComparedTransaction.swap
  totals := comparison.totals.swap

/-- The state of the merge with the sides exchanged. -/
def JoinState.swap (state : JoinState) : JoinState where
  common := state.common.map ComparedTransaction.swap
  leftOnly := state.rightOnly.map ComparedTransaction.swap
  rightOnly := state.leftOnly.map ComparedTransaction.swap
  commonLeftVsize := state.commonRightVsize
  commonRightVsize := state.commonLeftVsize
  leftOnlyVsize := state.rightOnlyVsize
  rightOnlyVsize := state.leftOnlyVsize

@[simp] theorem swap_comparedEntry_left (left : MempoolEntry) :
    (comparedEntry (some left) none).swap = comparedEntry none (some left) := rfl

@[simp] theorem swap_comparedEntry_right (right : MempoolEntry) :
    (comparedEntry none (some right)).swap = comparedEntry (some right) none := rfl

theorem swap_comparedEntry_both {left right : MempoolEntry} (h : left.txid = right.txid) :
    (comparedEntry (some left) (some right)).swap = comparedEntry (some right) (some left) := by
  simp only [comparedEntry, ComparedTransaction.swap, Option.map_some, Option.some_or,
    Option.getD_some, h, ComparedTransaction.mk.injEq, true_and, Option.some.injEq]
  exact Bool.beq_comm

theorem swap_pushLeftOnly (state : JoinState) (left : MempoolEntry) :
    (state.pushLeftOnly left).swap = state.swap.pushRightOnly left := by
  simp [JoinState.swap, JoinState.pushLeftOnly, JoinState.pushRightOnly]

theorem swap_pushRightOnly (state : JoinState) (right : MempoolEntry) :
    (state.pushRightOnly right).swap = state.swap.pushLeftOnly right := by
  simp [JoinState.swap, JoinState.pushLeftOnly, JoinState.pushRightOnly]

theorem swap_pushCommon {state : JoinState} {left right : MempoolEntry}
    (h : left.txid = right.txid) :
    (state.pushCommon left right).swap = state.swap.pushCommon right left := by
  simp [JoinState.swap, JoinState.pushCommon, swap_comparedEntry_both h]

/-- Merging the other way round exchanges the sides. -/
theorem swap_joinLoop (lefts rights : List MempoolEntry) (state : JoinState) :
    (joinLoop lefts rights state).swap = joinLoop rights lefts state.swap := by
  induction lefts, rights, state using joinLoop.induct with
  | case1 state => rw [joinLoop, joinLoop]
  | case2 right rights state ih =>
    rw [joinLoop, joinLoop, ih, swap_pushRightOnly]
  | case3 left lefts state ih =>
    rw [joinLoop, joinLoop, ih, swap_pushLeftOnly]
  | case4 left lefts right rights state hSame ih =>
    rw [joinLoop, joinLoop, if_pos hSame, if_pos hSame.symm, ih, swap_pushCommon hSame]
  | case5 left lefts right rights state hNe hLt ih =>
    rw [joinLoop, joinLoop, if_neg hNe, if_pos hLt, if_neg (Ne.symm hNe), if_neg hLt.not_gt, ih,
      swap_pushLeftOnly]
  | case6 left lefts right rights state hNe hNotLt ih =>
    have hGt : right.txid < left.txid := lt_of_le_of_ne (not_lt.mp hNotLt) (Ne.symm hNe)
    rw [joinLoop, joinLoop, if_neg hNe, if_neg hNotLt, if_neg (Ne.symm hNe), if_pos hGt, ih,
      swap_pushRightOnly]

theorem swap_earlierSide (leftObserved rightObserved : Nat) :
    (earlierSide leftObserved rightObserved).map ComparisonSide.swap =
      earlierSide rightObserved leftObserved := by
  rcases Nat.lt_trichotomy leftObserved rightObserved with hLt | rfl | hGt
  · rw [earlierSide, earlierSide, if_neg hLt.ne, if_pos hLt, if_neg hLt.ne', if_neg hLt.not_gt]
    rfl
  · simp [earlierSide]
  · rw [earlierSide, earlierSide, if_neg hGt.ne', if_neg hGt.not_gt, if_neg hGt.ne, if_pos hGt]
    rfl

/-- **Comparing the other way round** exchanges the sides and nothing else. -/
theorem compareCurrentSnapshots_swap {left right : LoadedSourceSnapshot}
    {comparison : CurrentComparison} (h : compareCurrentSnapshots left right = .ok comparison) :
    compareCurrentSnapshots right left = .ok comparison.swap := by
  unfold compareCurrentSnapshots at h
  split at h
  · cases h
  · next hNe =>
    obtain rfl := Except.ok.inj h
    have hLoop := swap_joinLoop left.snapshot.transactions right.snapshot.transactions {}
    have hStart : JoinState.swap {} = {} := rfl
    rw [hStart] at hLoop
    rw [compareCurrentSnapshots, if_neg (Ne.symm hNe), ← hLoop, ← swap_earlierSide]
    simp only [CurrentComparison.swap, ComparisonTotals.swap, JoinState.swap, List.length_map,
      Except.ok.injEq, CurrentComparison.mk.injEq, ComparisonTotals.mk.injEq, true_and, and_true]
    omega

-- ---------------------------------------------------------------------------
-- What a lookup finds
-- ---------------------------------------------------------------------------

/-- Bisection finds an identifier exactly where it stands. -/
theorem findComparedTransaction_iff {entries : List ComparedTransaction}
    (hSorted : EntriesSorted entries) (txid : String) (index : Nat) (entry : ComparedTransaction) :
    findComparedTransaction entries txid = some (index, entry) ↔
      entries[index]? = some entry ∧ entry.txid = txid := by
  obtain ⟨found, hFound, hOnly⟩ := lowerBound_of_increasing hSorted txid
  rw [hOnly index entry, findComparedTransaction, hFound]
  dsimp only
  cases hRow : entries[found]? with
  | none => simp
  | some candidate =>
    dsimp only
    split
    · next hSame =>
      constructor
      · intro h
        obtain ⟨rfl, rfl⟩ := Prod.mk.inj (Option.some.inj h)
        exact ⟨rfl, rfl, hSame⟩
      · rintro ⟨rfl, hEntry, -⟩
        rw [Option.some.inj hEntry]
    · next hOther =>
      constructor
      · intro h
        cases h
      · rintro ⟨-, hEntry, hSame⟩
        rw [Option.some.inj hEntry] at hOther
        exact absurd hSame hOther

/-- Bisection finds nothing exactly when no entry has the identifier. -/
theorem findComparedTransaction_eq_none {entries : List ComparedTransaction}
    (hSorted : EntriesSorted entries) (txid : String) :
    findComparedTransaction entries txid = none ↔ ∀ entry ∈ entries, entry.txid ≠ txid := by
  rw [Option.eq_none_iff_forall_ne_some]
  constructor
  · intro h entry hMem hSame
    obtain ⟨index, hIndex⟩ := List.mem_iff_getElem?.mp hMem
    exact h (index, entry) ((findComparedTransaction_iff hSorted ..).mpr ⟨hIndex, hSame⟩)
  · rintro h ⟨index, entry⟩ hFound
    obtain ⟨hEntry, hSame⟩ := (findComparedTransaction_iff hSorted ..).mp hFound
    exact h entry (List.mem_of_getElem? hEntry) hSame

/-- The region of an entry says which sides hold it. -/
theorem PartitionsUnion.heldBy {comparison : CurrentComparison} (h : PartitionsUnion comparison)
    {region : ComparisonRegionKey} {entry : ComparedTransaction}
    (hMem : entry ∈ comparison.entries region) :
    holds comparison.left.snapshot.transactions entry.txid = decide (region ≠ .rightOnly) ∧
      holds comparison.right.snapshot.transactions entry.txid = decide (region ≠ .leftOnly) := by
  cases region with
  | common =>
    obtain ⟨left, hLeft, right, hRight, hSame, rfl⟩ := (h.common entry).mp hMem
    exact ⟨holds_iff.mpr ⟨left, hLeft, rfl⟩, holds_iff.mpr ⟨right, hRight, hSame.symm⟩⟩
  | leftOnly =>
    obtain ⟨left, hLeft, hAlone, rfl⟩ := (h.leftOnly entry).mp hMem
    refine ⟨holds_iff.mpr ⟨left, hLeft, rfl⟩, Bool.eq_false_iff.mpr fun hHolds => ?_⟩
    obtain ⟨right, hRight, hSame⟩ := holds_iff.mp hHolds
    exact hAlone right hRight hSame
  | rightOnly =>
    obtain ⟨right, hRight, hAlone, rfl⟩ := (h.rightOnly entry).mp hMem
    refine ⟨Bool.eq_false_iff.mpr fun hHolds => ?_, holds_iff.mpr ⟨right, hRight, rfl⟩⟩
    obtain ⟨left, hLeft, hSame⟩ := holds_iff.mp hHolds
    exact hAlone left hLeft hSame

/-- One txid, one region. -/
theorem PartitionsUnion.region_unique {comparison : CurrentComparison}
    (h : PartitionsUnion comparison) {region region' : ComparisonRegionKey}
    {entry entry' : ComparedTransaction} (hMem : entry ∈ comparison.entries region)
    (hMem' : entry' ∈ comparison.entries region') (hSame : entry.txid = entry'.txid) :
    region = region' := by
  obtain ⟨hLeft, hRight⟩ := h.heldBy hMem
  obtain ⟨hLeft', hRight'⟩ := h.heldBy hMem'
  rw [hSame, hLeft'] at hLeft
  rw [hSame, hRight'] at hRight
  revert hLeft hRight
  cases region <;> cases region' <;> decide

/-- An identifier stands in one region, once. -/
theorem PartitionsUnion.entry_unique {comparison : CurrentComparison}
    (h : PartitionsUnion comparison) {region : ComparisonRegionKey}
    {entry entry' : ComparedTransaction} (hMem : entry ∈ comparison.entries region)
    (hMem' : entry' ∈ comparison.entries region) (hSame : entry.txid = entry'.txid) :
    entry = entry' := by
  obtain ⟨i, hi, rfl⟩ := List.getElem_of_mem hMem
  obtain ⟨j, hj, rfl⟩ := List.getElem_of_mem hMem'
  have hSorted := List.pairwise_iff_getElem.mp (h.sorted region)
  rcases Nat.lt_trichotomy i j with hLt | rfl | hGt
  · exact absurd hSame (hSorted i j hi hj hLt).ne
  · rfl
  · exact absurd hSame (hSorted j i hj hi hGt).ne'

/-- What either side holds has an entry, and nothing else has. -/
theorem PartitionsUnion.exists_entry {comparison : CurrentComparison}
    (h : PartitionsUnion comparison) (txid : String) :
    (∃ region, ∃ entry ∈ comparison.entries region, entry.txid = txid) ↔
      holds comparison.left.snapshot.transactions txid = true ∨
        holds comparison.right.snapshot.transactions txid = true := by
  constructor
  · rintro ⟨region, entry, hMem, rfl⟩
    obtain ⟨hLeft, hRight⟩ := h.heldBy hMem
    rw [hLeft, hRight]
    cases region <;> decide
  · intro hHeld
    cases hLeft : holds comparison.left.snapshot.transactions txid with
    | true =>
      obtain ⟨left, hLeftMem, rfl⟩ := holds_iff.mp hLeft
      cases hRight : holds comparison.right.snapshot.transactions left.txid with
      | true =>
        obtain ⟨right, hRightMem, hSame⟩ := holds_iff.mp hRight
        exact ⟨.common, comparedEntry (some left) (some right),
          (h.common _).mpr ⟨left, hLeftMem, right, hRightMem, hSame.symm, rfl⟩, rfl⟩
      | false =>
        refine ⟨.leftOnly, comparedEntry (some left) none,
          (h.leftOnly _).mpr ⟨left, hLeftMem, fun right hRightMem hSame => ?_, rfl⟩, rfl⟩
        rw [holds_iff.mpr ⟨right, hRightMem, hSame⟩] at hRight
        cases hRight
    | false =>
      rw [hLeft] at hHeld
      obtain ⟨right, hRightMem, rfl⟩ := holds_iff.mp (hHeld.resolve_left Bool.false_ne_true)
      refine ⟨.rightOnly, comparedEntry none (some right),
        (h.rightOnly _).mpr ⟨right, hRightMem, fun left hLeftMem hSame => ?_, rfl⟩, rfl⟩
      rw [holds_iff.mpr ⟨left, hLeftMem, hSame⟩] at hLeft
      cases hLeft

/-- **A lookup finds the entry** of an identifier, wherever it stands. -/
theorem lookupComparisonTransaction_eq_some {comparison : CurrentComparison}
    (h : PartitionsUnion comparison) (txid : String) (region : ComparisonRegionKey) (index : Nat)
    (entry : ComparedTransaction) :
    lookupComparisonTransaction comparison txid = some { region, index, entry } ↔
      (comparison.entries region)[index]? = some entry ∧ entry.txid = txid := by
  constructor
  · intro hFound
    obtain ⟨region', -, hRegion⟩ := List.exists_of_findSome?_eq_some hFound
    obtain ⟨⟨index', entry'⟩, hEntry, hSame⟩ := Option.map_eq_some_iff.mp hRegion
    obtain ⟨rfl, rfl, rfl⟩ := ComparisonTransactionLookup.mk.inj hSame
    exact (findComparedTransaction_iff (h.sorted _) ..).mp hEntry
  · rintro ⟨hEntry, rfl⟩
    have hMem : entry ∈ comparison.entries region := List.mem_of_getElem? hEntry
    have hHere : findComparedTransaction (comparison.entries region) entry.txid =
        some (index, entry) := (findComparedTransaction_iff (h.sorted _) ..).mpr ⟨hEntry, rfl⟩
    have hElsewhere : ∀ other, other ≠ region →
        findComparedTransaction (comparison.entries other) entry.txid = none := by
      intro other hOther
      rw [findComparedTransaction_eq_none (h.sorted _)]
      exact fun entry' hMem' hSame => hOther (h.region_unique hMem' hMem hSame)
    cases region <;>
      simp [lookupComparisonTransaction, comparisonRegions, hHere, hElsewhere]

/-- A lookup finds nothing just when neither side holds the identifier. -/
theorem lookupComparisonTransaction_eq_none {comparison : CurrentComparison}
    (h : PartitionsUnion comparison) (txid : String) :
    lookupComparisonTransaction comparison txid = none ↔
      holds comparison.left.snapshot.transactions txid = false ∧
        holds comparison.right.snapshot.transactions txid = false := by
  have hExists := h.exists_entry txid
  rw [lookupComparisonTransaction, List.findSome?_eq_none_iff]
  constructor
  · intro hNone
    rw [← Bool.not_eq_true, ← Bool.not_eq_true, ← not_or, ← hExists]
    rintro ⟨region, entry, hMem, hSame⟩
    have hRegion := Option.map_eq_none_iff.mp (hNone region (by cases region <;> decide))
    exact (findComparedTransaction_eq_none (h.sorted _) _).mp hRegion entry hMem hSame
  · intro hNeither region _
    rw [← Bool.not_eq_true, ← Bool.not_eq_true, ← not_or, ← hExists] at hNeither
    rw [Option.map_eq_none_iff, findComparedTransaction_eq_none (h.sorted _)]
    exact fun entry hMem hSame => hNeither ⟨region, entry, hMem, hSame⟩

/-- Snapshots of two sources, sorted by txid, are compared; the regions
partition the union of their rows, the totals are those of the regions, the
other order gives the same with the sides swapped, and lookups find the one
row of a txid. -/
theorem comparison_merge_join (left right : LoadedSourceSnapshot)
    (hLeft : TxidSorted left.snapshot.transactions)
    (hRight : TxidSorted right.snapshot.transactions) :
    ((∃ comparison, compareCurrentSnapshots left right = .ok comparison) ↔
      left.snapshot.sourceId ≠ right.snapshot.sourceId) ∧
    ∀ comparison, compareCurrentSnapshots left right = .ok comparison →
      comparison.left = left ∧ comparison.right = right ∧
      PartitionsUnion comparison ∧ ExactTotals comparison ∧
      compareCurrentSnapshots right left = .ok comparison.swap ∧
      (∀ region txid index entry,
        findComparedTransaction (comparison.entries region) txid = some (index, entry) ↔
          (comparison.entries region)[index]? = some entry ∧ entry.txid = txid) ∧
      (∀ txid region index entry,
        lookupComparisonTransaction comparison txid = some { region, index, entry } ↔
          (comparison.entries region)[index]? = some entry ∧ entry.txid = txid) ∧
      (∀ region region' entry entry', entry ∈ comparison.entries region →
        entry' ∈ comparison.entries region' → entry.txid = entry'.txid →
          region = region' ∧ entry = entry') ∧
      ∀ txid, lookupComparisonTransaction comparison txid = none ↔
        holds left.snapshot.transactions txid = false ∧
          holds right.snapshot.transactions txid = false := by
  constructor
  · constructor
    · rintro ⟨comparison, hCompared⟩
      exact (compareCurrentSnapshots_eq_ok hCompared).1
    · intro hNe
      exact ⟨_, if_neg hNe⟩
  · intro comparison hCompared
    obtain ⟨-, hSame, hSame', -⟩ := compareCurrentSnapshots_eq_ok hCompared
    have hUnion := partitionsUnion hLeft hRight hCompared
    refine ⟨hSame, hSame', hUnion, exactTotals hLeft hRight hCompared,
      compareCurrentSnapshots_swap hCompared,
      fun region => findComparedTransaction_iff (hUnion.sorted region),
      lookupComparisonTransaction_eq_some hUnion,
      fun region region' entry entry' hMem hMem' hTxid => ?_, fun txid => ?_⟩
    · obtain rfl := hUnion.region_unique hMem hMem' hTxid
      exact ⟨rfl, hUnion.entry_unique hMem hMem' hTxid⟩
    · rw [lookupComparisonTransaction_eq_none hUnion, hSame, hSame']

section Sample

def sampleRow (txid : String) (vsize : Nat) : MempoolEntry where
  txid
  wtxid := txid
  vsize
  weight := 4 * vsize
  feeSats := 0
  enteredAtMs := 0
  ancestorCount := 1
  ancestorVsize := vsize
  ancestorFeeSats := 0
  descendantCount := 1
  descendantVsize := vsize
  replaceable := false
  transactionStructure := none
  classifications := []
  bip110 := none

def sampleSide (sourceId : String) (observedAtMs : Nat) (rows : List MempoolEntry) :
    LoadedSourceSnapshot where
  source := {
    sourceId, sourceLabel := sourceId, availability := .ready, pollIntervalSeconds := 60
    lastPollStartedAtMs := none, snapshotObservedAtMs := none, chainTip := none
    transactionCount := none, totalVsize := none, classification := none, lastError := none }
  snapshot := {
    sourceId, sourceLabel := sourceId, collectionStartedAtMs := 0
    collectionCompletedAtMs := 0, collectionDurationMs := 0, observedAtMs
    classificationRevision := 0, chainTip := { height := 1, hash := "00" }
    transactionCount := rows.length, totalVsize := (rows.map MempoolEntry.vsize).sum
    classifierCatalog := [], classificationSummaries := []
    bip110Summary := Bip110Summary.fromTransactions rows, transactions := rows }

end Sample

def sampleLeft : LoadedSourceSnapshot :=
  sampleSide "core" 5 [sampleRow "0a" 100, sampleRow "1b" 200]

def sampleRight : LoadedSourceSnapshot :=
  sampleSide "knots" 7 [sampleRow "1b" 200, sampleRow "2c" 400, sampleRow "3d" 500]

theorem sampleLeft_sorted : TxidSorted sampleLeft.snapshot.transactions := by
  unfold TxidSorted
  decide

theorem sampleRight_sorted : TxidSorted sampleRight.snapshot.transactions := by
  unfold TxidSorted
  decide

/-- Two sources sharing one row of four. -/
theorem comparison_merge_join_oneShared :
    ∃ comparison, compareCurrentSnapshots sampleLeft sampleRight = .ok comparison ∧
      PartitionsUnion comparison ∧ comparison.totals.unionCount = 4 ∧
      comparison.totals.rightOnlyVsize = 900 := by
  obtain ⟨hMade, hAll⟩ :=
    comparison_merge_join sampleLeft sampleRight sampleLeft_sorted sampleRight_sorted
  obtain ⟨comparison, hCompared⟩ := hMade.mpr (by decide)
  obtain ⟨-, -, hUnion, -, -⟩ := hAll comparison hCompared
  obtain rfl := Except.ok.inj hCompared
  have hFirst : "0a" < "1b" := by decide
  refine ⟨_, hCompared, hUnion, ?_, ?_⟩ <;>
    simp [joinLoop, sampleLeft, sampleRight, sampleSide, sampleRow, hFirst,
      JoinState.pushLeftOnly, JoinState.pushCommon, JoinState.pushRightOnly]

end MempoolAtlas.Web
