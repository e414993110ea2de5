import MempoolAtlas.Lib.InsertionMap
import MempoolAtlas.Lib.Tilings
import MempoolAtlas.Model.Snapshot

/-!
# Packing a terrain

`web/src/bucket-terrain.ts`: the subdivision of a rectangle by weights, driven
by a stack of frames, and the packing of transactions into the cells it leaves
or into a grid. Extents are rationals.

## Results

* `pieces_packs`, `splitWeightedRegions_tiles` — the cells of a subdivision tile it, each with
  its share.
* `gridCell_tiles` — the cells of a grid do.
* `packTransactions_cells` — each transaction has one cell, of the area its metric is due.
-/

namespace MempoolAtlas.Web

open Model Tilings

/-- Whether areas follow the count or the size. -/
inductive BucketTerrainMode where
  | count
  | vsize
deriving DecidableEq, Repr

/-- A rectangle with exact sides. -/
abbrev BucketTerrainRect := Rect ℚ

-- ---------------------------------------------------------------------------
-- Subdivision
-- ---------------------------------------------------------------------------

/-- A range of items that share a rectangle. -/
structure Frame where
  start : Nat
  stop : Nat
  rect : BucketTerrainRect

/-- The sums before each weight, and the sum of all. -/
def prefixSums (weights : List ℚ) : List ℚ :=
  weights.foldl (fun sums weight => sums ++ [sums.getLast?.getD 0 + weight]) [0]

/-- The sum up to an index. -/
def sumAt (sums : List ℚ) (index : Nat) : ℚ := sums[index]?.getD 0

/-- How a loop looks for the item its range is split before. -/
structure SplitSearch where
  find (sums : List ℚ) (start stop : Nat) (halfway : ℚ) : Nat
  bounds : ∀ sums start stop halfway, start + 1 < stop →
    start < find sums start stop halfway ∧ find sums start stop halfway < stop

/-- The two parts of a rectangle cut at a ratio across its longer extent. -/
def cutRect (rect : BucketTerrainRect) (ratio : ℚ) : BucketTerrainRect × BucketTerrainRect :=
  if rect.height ≤ rect.width then
    ({ rect with width := rect.width * ratio },
      { rect with x := rect.x + rect.width * ratio, width := rect.width - rect.width * ratio })
  else
    ({ rect with height := rect.height * ratio },
      { rect with y := rect.y + rect.height * ratio, height := rect.height - rect.height * ratio })

/-- Where a range is split, and the share of its weight that comes before. -/
def splitAt (search : SplitSearch) (sums : List ℚ) (start stop : Nat) : Nat × ℚ :=
  let total := sumAt sums stop - sumAt sums start
  let split := search.find sums start stop (sumAt sums start + total / 2)
  let firstWeight := sumAt sums split - sumAt sums start
  (split, if total = 0 then 1 / 2 else firstWeight / total)

/-- Both halves of a split have an item. -/
theorem splitAt_bounds (search : SplitSearch) (sums : List ℚ) {start stop : Nat}
    (h : start + 1 < stop) :
    start < (splitAt search sums start stop).1 ∧ (splitAt search sums start stop).1 < stop :=
  search.bounds _ _ _ _ h

/-- What a loop does with the cell of an index, where the index has an item. -/
def visitItem {α σ : Type} (items : List α) (step : σ → α → BucketTerrainRect → σ) (state : σ)
    (index : Nat) (rect : BucketTerrainRect) : σ :=
  match items[index]? with
  | none => state
  | some item => step state item rect

section Loop

variable {σ : Type} (search : SplitSearch) (sums : List ℚ)
  (visit : σ → Nat → BucketTerrainRect → σ)

/-- What a frame weighs on the stack: more than its two parts together. -/
def Frame.pending (frame : Frame) : Nat := max 1 (2 * (frame.stop - frame.start) - 1)

/-- The loop over the stack, whose top is the head. -/
def subdivideLoop : List Frame → σ → σ
  | [], state => state
  | frame :: stack, state =>
    if _hEmpty : frame.stop ≤ frame.start then subdivideLoop stack state
    else if _hSingle : frame.stop - frame.start = 1 then
      subdivideLoop stack (visit state frame.start frame.rect)
    else
      let split := splitAt search sums frame.start frame.stop
      let parts := cutRect frame.rect split.2
      subdivideLoop ({ start := frame.start, stop := split.1, rect := parts.1 } ::
        { start := split.1, stop := frame.stop, rect := parts.2 } :: stack) state
termination_by stack => (stack.map Frame.pending).sum
decreasing_by
  · simp only [List.map_cons, List.sum_cons, Frame.pending]
    omega
  · simp only [List.map_cons, List.sum_cons, Frame.pending]
    omega
  · have hBounds := @splitAt_bounds search sums frame.start frame.stop (by omega)
    simp only [List.map_cons, List.sum_cons, Frame.pending]
    omega

end Loop

-- ---------------------------------------------------------------------------
-- Searches
-- ---------------------------------------------------------------------------

/-- The linear search of `splitWeightedRegions`, up to the last item. -/
def advance (sums : List ℚ) (halfway : ℚ) (last split : Nat) : Nat :=
  if split < last ∧ sums[split]?.any (fun sum => decide (sum < halfway)) = true then
    advance sums halfway last (split + 1)
  else split
termination_by last - split

/-- The binary search of `packTransactions`. -/
def bisect (sums : List ℚ) (halfway : ℚ) (low high : Nat) : Nat :=
  if low < high then
    let middle := (low + high) / 2
    if sumAt sums middle < halfway then bisect sums halfway (middle + 1) high
    else bisect sums halfway low middle
  else low
termination_by high - low

theorem advance_bounds {sums : List ℚ} {halfway : ℚ} {last split : Nat} (h : split ≤ last) :
    split ≤ advance sums halfway last split ∧ advance sums halfway last split ≤ last := by
  induction split using advance.induct sums halfway last with
  | case1 split hNext ih =>
    rw [advance, if_pos hNext]
    have hStep := ih hNext.1
    omega
  | case2 split hStop =>
    rw [advance, if_neg hStop]
    omega

/-- The search of `splitWeightedRegions`, one item after the other. -/
def linearSearch : SplitSearch where
  find sums start stop halfway := advance sums halfway (stop - 1) (start + 1)
  bounds sums start stop halfway h := by
    have hBounds := @advance_bounds sums halfway (stop - 1) (start + 1) (by omega)
    omega

/-- The search of `packTransactions`, by bisection. -/
def binarySearch : SplitSearch where
  find sums start stop halfway :=
    min (stop - 1) (max (start + 1) (bisect sums halfway (start + 1) (stop - 1)))
  bounds _ _ _ _ h := by omega

-- ---------------------------------------------------------------------------
-- Regions
-- ---------------------------------------------------------------------------

/-- An item with the weight its area follows. -/
structure WeightedItem (Key : Type) where
  key : Key
  weight : ℚ
deriving DecidableEq, Repr

/-- `splitWeightedRegions`: a rectangle for each item, by weight. -/
def splitWeightedRegions {Key : Type} [DecidableEq Key] (items : List (WeightedItem Key))
    (rect : BucketTerrainRect) : InsertionMap Key BucketTerrainRect :=
  subdivideLoop linearSearch (prefixSums (items.map (·.weight)))
    (visitItem items fun result item rect => result.set item.key rect)
    [{ start := 0, stop := items.length, rect }] .empty

-- ---------------------------------------------------------------------------
-- Transactions
-- ---------------------------------------------------------------------------

/-- The size of some rows. -/
def sumVsize (transactions : List MempoolEntry) : Nat :=
  (transactions.map MempoolEntry.vsize).sum

/-- What some rows weigh in a mode. -/
def metric (transactions : List MempoolEntry) : BucketTerrainMode → Nat
  | .count => transactions.length
  | .vsize => sumVsize transactions

/-- The glyph of a row, with its region and its section. -/
structure BucketTerrainGlyph (SectionKey RegionKey : Type) where
  txid : String
  regionKey : RegionKey
  sectionKey : SectionKey
  rect : BucketTerrainRect
  vsize : Nat
deriving DecidableEq, Repr

/-- The gap around a glyph. -/
def glyphGap : ℚ := 32 / 100

/-- A rectangle with its edges moved inwards. -/
def insetRect (rect : BucketTerrainRect) (inset : ℚ) : BucketTerrainRect where
  x := rect.x + inset
  y := rect.y + inset
  width := max 0 (rect.width - inset * 2)
  height := max 0 (rect.height - inset * 2)

section Glyphs

variable {SectionKey RegionKey : Type} (regionKey : RegionKey) (sectionKey : SectionKey)

/-- The glyph of a row in its cell. -/
def transactionGlyph (transaction : MempoolEntry) (rect : BucketTerrainRect) :
    BucketTerrainGlyph SectionKey RegionKey :=
  let adaptiveGap := min glyphGap (min (rect.width * (35 / 1000)) (rect.height * (35 / 1000)))
  { txid := transaction.txid, regionKey, sectionKey
    rect := insetRect rect adaptiveGap
    vsize := transaction.vsize }

/-- `Math.ceil(Math.sqrt(value))`: the least number whose square is not below. -/
def ceilSqrt (value : ℚ) : Nat :=
  let whole := ⌈value⌉.toNat
  if whole = 0 then 0 else (whole - 1).sqrt + 1

/-- The cell of the transaction at an index, in a grid of this many columns. -/
def gridCell (count columns : Nat) (rect : BucketTerrainRect) (index : Nat) : BucketTerrainRect :=
  let rows := (count + columns - 1) / columns
  let completeRowHeight := rect.height * columns / count
  let finalRowCount := count - columns * (rows - 1)
  let finalRowHeight := rect.height * finalRowCount / count
  let column := index % columns
  let row := index / columns
  let finalRow := row = rows - 1
  let rowColumns := if finalRow then finalRowCount else columns
  let cellWidth := rect.width / rowColumns
  let cellHeight := if finalRow then finalRowHeight else completeRowHeight
  { x := rect.x + column * cellWidth
    y := rect.y + row * completeRowHeight
    width := cellWidth
    height := cellHeight }

/-- The glyphs of a grid of this many columns. -/
def packGrid (columns : Nat) (transactions : List MempoolEntry) (rect : BucketTerrainRect) :
    List (BucketTerrainGlyph SectionKey RegionKey) :=
  transactions.mapIdx fun index transaction =>
    transactionGlyph regionKey sectionKey transaction
      (gridCell transactions.length columns rect index)

/-- The columns that make nearly square cells. -/
def gridColumns (count : Nat) (rect : BucketTerrainRect) : Nat :=
  let aspectRatio := rect.width / max rect.height 1
  min count (max 1 (ceilSqrt (count * aspectRatio)))

/-- One cell of a grid for each row. -/
def packCountTransactions (transactions : List MempoolEntry) (rect : BucketTerrainRect) :
    List (BucketTerrainGlyph SectionKey RegionKey) :=
  packGrid regionKey sectionKey (gridColumns transactions.length rect) transactions rect

/-- `packTransactions`: a grid by count, a subdivision by size. -/
def packTransactions (transactions : List MempoolEntry) (rect : BucketTerrainRect)
    (mode : BucketTerrainMode) : List (BucketTerrainGlyph SectionKey RegionKey) :=
  if transactions.length = 0 ∨ rect.width ≤ 0 ∨ rect.height ≤ 0 then []
  else match mode with
    | .count => packCountTransactions regionKey sectionKey transactions rect
    | .vsize => subdivideLoop binarySearch
        (prefixSums (transactions.map fun transaction => (transaction.vsize : ℚ)))
        (visitItem transactions fun glyphs transaction rect =>
          glyphs ++ [transactionGlyph regionKey sectionKey transaction rect])
        [{ start := 0, stop := transactions.length, rect }] []

end Glyphs

-- ---------------------------------------------------------------------------
-- What the loop visits
-- ---------------------------------------------------------------------------

/-- The items of a range with their rectangles, without the stack. -/
def pieces (search : SplitSearch) (sums : List ℚ) (start stop : Nat) (rect : BucketTerrainRect) :
    List (Nat × BucketTerrainRect) :=
  if _hEmpty : stop ≤ start then []
  else if _hSingle : stop - start = 1 then [(start, rect)]
  else
    let split := splitAt search sums start stop
    let parts := cutRect rect split.2
    pieces search sums start split.1 parts.1 ++ pieces search sums split.1 stop parts.2
termination_by stop - start
decreasing_by
  · have hBounds := @splitAt_bounds search sums start stop (by omega)
    omega
  · have hBounds := @splitAt_bounds search sums start stop (by omega)
    omega

/-- The stack is worked off piece by piece, from its top. -/
theorem subdivideLoop_eq {σ : Type} (search : SplitSearch) (sums : List ℚ)
    (visit : σ → Nat → BucketTerrainRect → σ) (stack : List Frame) (state : σ) :
    subdivideLoop search sums visit stack state =
      (stack.flatMap fun frame => pieces search sums frame.start frame.stop frame.rect).foldl
        (fun state piece => visit state piece.1 piece.2) state := by
  induction stack, state using subdivideLoop.induct search sums visit with
  | case1 state => rw [subdivideLoop]; rfl
  | case2 frame stack state hEmpty ih =>
    rw [subdivideLoop, dif_pos hEmpty, ih, List.flatMap_cons, pieces, dif_pos hEmpty,
      List.nil_append]
  | case3 frame stack state hSome hSingle ih =>
    rw [subdivideLoop, dif_neg hSome, dif_pos hSingle, ih, List.flatMap_cons, pieces,
      dif_neg hSome, dif_pos hSingle]
    rfl
  | case4 frame stack state hSome hMany split parts ih =>
    have hPieces : pieces search sums frame.start frame.stop frame.rect =
        pieces search sums frame.start split.1 parts.1 ++
          pieces search sums split.1 frame.stop parts.2 := by
      rw [pieces, dif_neg hSome, dif_neg hMany]
    rw [subdivideLoop, dif_neg hSome, dif_neg hMany]
    refine ih.trans ?_
    rw [List.flatMap_cons, List.flatMap_cons, List.flatMap_cons, hPieces, List.append_assoc]

-- ---------------------------------------------------------------------------
-- Sums
-- ---------------------------------------------------------------------------

theorem prefixSums_append (weights : List ℚ) (weight : ℚ) :
    prefixSums (weights ++ [weight]) =
      prefixSums weights ++ [(prefixSums weights).getLast?.getD 0 + weight] := by
  rw [prefixSums, List.foldl_append]
  rfl

/-- The running sums are the sums of the first items. -/
theorem prefixSums_eq (weights : List ℚ) :
    prefixSums weights = (List.range (weights.length + 1)).map fun i => (weights.take i).sum := by
  induction weights using List.reverseRecOn with
  | nil => rfl
  | append_singleton weights weight ih =>
    have hLast : (prefixSums weights).getLast?.getD 0 = weights.sum := by
      rw [ih, List.range_succ, List.map_append, List.map_singleton, List.getLast?_concat,
        List.take_length]
      rfl
    have hOld : (List.range (weights.length + 1)).map (fun i => (weights.take i).sum) =
        (List.range (weights.length + 1)).map fun i => ((weights ++ [weight]).take i).sum := by
      refine List.map_congr_left fun i hi => ?_
      rw [List.take_append_of_le_length (Nat.le_of_lt_succ (List.mem_range.mp hi))]
    have hAll : (weights ++ [weight]).take (weights.length + 1) = weights ++ [weight] :=
      List.take_of_length_le (by simp)
    rw [prefixSums_append, hLast, ih, hOld, List.length_append, List.length_singleton,
      List.range_succ (n := weights.length + 1), List.map_append, List.map_singleton, hAll,
      List.sum_append, List.sum_singleton]

theorem sumAt_prefixSums {weights : List ℚ} {index : Nat} (h : index ≤ weights.length) :
    sumAt (prefixSums weights) index = (weights.take index).sum := by
  rw [sumAt, prefixSums_eq, List.getElem?_map, List.getElem?_range (Nat.lt_succ_of_le h)]
  rfl

/-- The weight of an item is what its sums differ by. -/
theorem sumAt_succ {weights : List ℚ} {index : Nat} {weight : ℚ}
    (h : weights[index]? = some weight) :
    sumAt (prefixSums weights) (index + 1) = sumAt (prefixSums weights) index + weight := by
  obtain ⟨hIndex, rfl⟩ := List.getElem?_eq_some_iff.mp h
  rw [sumAt_prefixSums hIndex, sumAt_prefixSums hIndex.le, List.take_add_one,
    List.getElem?_eq_getElem hIndex, List.sum_append]
  simp

/-- Sums that grow with each item of a range. -/
def Growing (sums : List ℚ) (start stop : Nat) : Prop :=
  ∀ index, start ≤ index → index < stop → sumAt sums index < sumAt sums (index + 1)

theorem Growing.sub {sums : List ℚ} {start stop low high : Nat} (h : Growing sums start stop)
    (hLow : start ≤ low) (hHigh : high ≤ stop) : Growing sums low high :=
  fun index hStart hStop => h index (hLow.trans hStart) (hStop.trans_le hHigh)

theorem Growing.lt {sums : List ℚ} {start stop : Nat} (h : Growing sums start stop)
    (hLt : start < stop) : sumAt sums start < sumAt sums stop := by
  induction stop, hLt using Nat.le_induction with
  | base => exact h start le_rfl (Nat.lt_succ_self start)
  | succ stop hLe ih =>
    exact (ih (h.sub le_rfl (Nat.le_succ stop))).trans
      (h stop (Nat.le_of_succ_le hLe) (Nat.lt_succ_self stop))

/-- With positive weights the running sums grow. -/
theorem growing_prefixSums {weights : List ℚ} (h : ∀ weight ∈ weights, 0 < weight) :
    Growing (prefixSums weights) 0 weights.length := by
  intro index _ hIndex
  rw [sumAt_succ (List.getElem?_eq_getElem hIndex)]
  exact lt_add_of_pos_right _ (h _ (List.getElem_mem hIndex))

-- ---------------------------------------------------------------------------
-- What the cells are
-- ---------------------------------------------------------------------------

/-- Cutting a rectangle leaves a tiling by two. -/
theorem cutRect_tiles {rect : BucketTerrainRect} {ratio : ℚ} (hRect : rect.Positive)
    (hPositive : 0 < ratio) (hLess : ratio < 1) :
    Tiles rect [(cutRect rect ratio).1, (cutRect rect ratio).2] := by
  unfold cutRect
  split
  · exact tiles_cut_width hRect.2 (mul_pos hRect.1 hPositive) (mul_lt_of_lt_one_right hRect.1 hLess)
  · exact tiles_cut_height hRect.1 (mul_pos hRect.2 hPositive) (mul_lt_of_lt_one_right hRect.2 hLess)

/-- The two parts share the area by the ratio. -/
theorem cutRect_area (rect : BucketTerrainRect) (ratio : ℚ) :
    (cutRect rect ratio).1.area = rect.area * ratio ∧
      (cutRect rect ratio).2.area = rect.area * (1 - ratio) := by
  unfold cutRect Rect.area
  split
  · constructor <;> ring
  · constructor <;> ring

/-- The share of a range that grows is the part of its weight before the split. -/
theorem splitAt_share (search : SplitSearch) {sums : List ℚ} {start stop : Nat}
    (hMany : start + 1 < stop) (h : Growing sums start stop) :
    (splitAt search sums start stop).2 =
        (sumAt sums (splitAt search sums start stop).1 - sumAt sums start) /
          (sumAt sums stop - sumAt sums start) ∧
      0 < (splitAt search sums start stop).2 ∧ (splitAt search sums start stop).2 < 1 := by
  obtain ⟨hAfter, hBefore⟩ := splitAt_bounds search sums hMany
  have hTotal : 0 < sumAt sums stop - sumAt sums start := sub_pos.mpr (h.lt (by omega))
  have hShare : (splitAt search sums start stop).2 =
      (sumAt sums (splitAt search sums start stop).1 - sumAt sums start) /
        (sumAt sums stop - sumAt sums start) := if_neg hTotal.ne'
  have hFirst : sumAt sums start < sumAt sums (splitAt search sums start stop).1 :=
    (h.sub le_rfl hBefore.le).lt hAfter
  have hSecond : sumAt sums (splitAt search sums start stop).1 < sumAt sums stop :=
    (h.sub hAfter.le le_rfl).lt hBefore
  refine ⟨hShare, ?_, ?_⟩
  · rw [hShare]
    exact div_pos (sub_pos.mpr hFirst) hTotal
  · rw [hShare, div_lt_one hTotal]
    exact sub_lt_sub_right hSecond _

/-- The items of a range in order, in cells that tile its rectangle by their weights. -/
structure Packs (sums : List ℚ) (start stop : Nat) (rect : BucketTerrainRect)
    (cells : List (Nat × BucketTerrainRect)) : Prop where
  indices : cells.map Prod.fst = List.range' start (stop - start)
  tiles : Tiles rect (cells.map Prod.snd)
  areas : ∀ cell ∈ cells, cell.2.area = rect.area *
    ((sumAt sums (cell.1 + 1) - sumAt sums cell.1) / (sumAt sums stop - sumAt sums start))

/-- **The subdivision packs**: its cells tile the rectangle, each with its share of the area. -/
theorem pieces_packs (search : SplitSearch) {sums : List ℚ} {start stop : Nat}
    {rect : BucketTerrainRect} (hLt : start < stop) (hSums : Growing sums start stop)
    (hRect : rect.Positive) : Packs sums start stop rect (pieces search sums start stop rect) := by
  induction start, stop, rect using pieces.induct search sums with
  | case1 start stop rect hEmpty => exact absurd hLt (Nat.not_lt.mpr hEmpty)
  | case2 start stop rect hSome hSingle =>
    have hPieces : pieces search sums start stop rect = [(start, rect)] := by
      rw [pieces, dif_neg hSome, dif_pos hSingle]
    have hStop : stop = start + 1 := by omega
    rw [hPieces, hStop]
    refine ⟨?_, Tiles.single hRect, fun cell hCell => ?_⟩
    · rw [Nat.add_sub_cancel_left]
      rfl
    · obtain rfl := List.mem_singleton.mp hCell
      have hPositive := sub_pos.mpr (hSums start le_rfl hLt)
      rw [div_self hPositive.ne', mul_one]
  | case3 start stop rect hSome hMany split parts ihFirst ihSecond =>
    have hStart : start + 1 < stop := by omega
    obtain ⟨hAfter, hBefore⟩ : start < split.1 ∧ split.1 < stop :=
      splitAt_bounds search sums hStart
    obtain ⟨hShare, hPositive, hLess⟩ : split.2 = (sumAt sums split.1 - sumAt sums start) /
        (sumAt sums stop - sumAt sums start) ∧ 0 < split.2 ∧ split.2 < 1 :=
      splitAt_share search hStart hSums
    have hCut := cutRect_tiles hRect hPositive hLess
    obtain ⟨hFirstArea, hSecondArea⟩ := cutRect_area rect split.2
    have hFirst := ihFirst hAfter (hSums.sub le_rfl hBefore.le) (hCut.positive _ List.mem_cons_self)
    have hSecond := ihSecond hBefore (hSums.sub hAfter.le le_rfl)
      (hCut.positive _ (List.mem_cons_of_mem _ List.mem_cons_self))
    have hPieces : pieces search sums start stop rect =
        pieces search sums start split.1 parts.1 ++ pieces search sums split.1 stop parts.2 := by
      rw [pieces, dif_neg hSome, dif_neg hMany]
    have hTotal : sumAt sums stop - sumAt sums start ≠ 0 := (sub_pos.mpr (hSums.lt hLt)).ne'
    have hFirstTotal : sumAt sums split.1 - sumAt sums start ≠ 0 :=
      (sub_pos.mpr ((hSums.sub le_rfl hBefore.le).lt hAfter)).ne'
    have hSecondTotal : sumAt sums stop - sumAt sums split.1 ≠ 0 :=
      (sub_pos.mpr ((hSums.sub hAfter.le le_rfl).lt hBefore)).ne'
    have hRest : 1 - split.2 = (sumAt sums stop - sumAt sums split.1) /
        (sumAt sums stop - sumAt sums start) := by
      rw [hShare]
      field_simp
      ring
    rw [hPieces]
    refine ⟨?_, ?_, fun cell hCell => ?_⟩
    · have hSplit : stop - start = split.1 - start + (stop - split.1) := by omega
      have hMiddle : split.1 = start + (split.1 - start) := by omega
      rw [List.map_append, hFirst.indices, hSecond.indices, hSplit, ← List.range'_append_1,
        ← hMiddle]
    · rw [List.map_append]
      exact hCut.append hFirst.tiles hSecond.tiles
    · rcases List.mem_append.mp hCell with hMem | hMem
      · rw [hFirst.areas cell hMem, hFirstArea, hShare]
        field_simp
      · rw [hSecond.areas cell hMem, hSecondArea, hRest]
        field_simp

section Items

variable {α σ : Type} (items : List α) (weight : α → ℚ)

/-- Visiting the cells from an index on pairs the items from there with them. -/
theorem foldl_visit (step : σ → α → BucketTerrainRect → σ)
    {cells : List (Nat × BucketTerrainRect)} {start : Nat}
    (h : cells.map Prod.fst = List.range' start (items.length - start)) (state : σ) :
    cells.foldl (fun state cell => visitItem items step state cell.1 cell.2) state =
      ((items.drop start).zip (cells.map Prod.snd)).foldl
        (fun state pair => step state pair.1 pair.2) state := by
  induction cells generalizing start state with
  | nil => simp
  | cons cell rest ih =>
    rw [List.map_cons] at h
    have hSome : start < items.length := by
      by_contra hNone
      rw [Nat.sub_eq_zero_of_le (Nat.not_lt.mp hNone)] at h
      cases h
    have hCount : items.length - start = items.length - (start + 1) + 1 := by omega
    rw [hCount, List.range'_succ] at h
    obtain ⟨hHead, hTail⟩ := List.cons.inj h
    have hVisit : visitItem items step state cell.1 cell.2 = step state items[start] cell.2 := by
      rw [visitItem, hHead, List.getElem?_eq_getElem hSome]
    rw [List.foldl_cons, hVisit, ih hTail, List.drop_eq_getElem_cons hSome, List.map_cons, List.zip_cons_cons,
      List.foldl_cons]

theorem map_snd_areas {sums : List ℚ} {start stop : Nat} {rect : BucketTerrainRect}
    {cells : List (Nat × BucketTerrainRect)} (h : Packs sums start stop rect cells) :
    List.Forall₂ (fun index cell => cell.area = rect.area *
        ((sumAt sums (index + 1) - sumAt sums index) / (sumAt sums stop - sumAt sums start)))
      (List.range' start (stop - start)) (cells.map Prod.snd) := by
  rw [← h.indices, List.forall₂_map_left_iff, List.forall₂_map_right_iff, List.forall₂_same]
  exact h.areas

/-- The loop over positive weights hands each item one cell of a tiling by weight. -/
theorem subdivideLoop_items (search : SplitSearch) (hItems : items ≠ [])
    (hWeights : ∀ item ∈ items, 0 < weight item) {rect : BucketTerrainRect}
    (hRect : rect.Positive) (step : σ → α → BucketTerrainRect → σ) (state : σ) :
    ∃ cells : List BucketTerrainRect, Tiles rect cells ∧
      List.Forall₂ (fun item cell =>
        cell.area = rect.area * (weight item / (items.map weight).sum)) items cells ∧
      subdivideLoop search (prefixSums (items.map weight)) (visitItem items step)
        [{ start := 0, stop := items.length, rect }] state =
          (items.zip cells).foldl (fun state pair => step state pair.1 pair.2) state := by
  have hGrowing : Growing (prefixSums (items.map weight)) 0 items.length := by
    have hAll := @growing_prefixSums (items.map weight) fun found hFound => by
      obtain ⟨item, hItem, rfl⟩ := List.mem_map.mp hFound
      exact hWeights item hItem
    rwa [List.length_map] at hAll
  have hPacks := pieces_packs search (List.length_pos_iff.mpr hItems) hGrowing hRect
  refine ⟨_, hPacks.tiles, ?_, ?_⟩
  · have hAreas := map_snd_areas hPacks
    have hLength := hAreas.length_eq
    rw [Nat.sub_zero, List.length_range'] at hLength
    rw [Nat.sub_zero] at hAreas
    refine List.forall₂_iff_get.mpr ⟨hLength, fun i hi hCell => ?_⟩
    have hArea := (List.forall₂_iff_get.mp hAreas).2 i (by rwa [List.length_range']) hCell
    have hWeight : (items.map weight)[i]? = some (weight items[i]) := by
      rw [List.getElem?_map, List.getElem?_eq_getElem hi, Option.map_some]
    have hStart : sumAt (prefixSums (items.map weight)) 0 = 0 := by
      rw [sumAt_prefixSums (Nat.zero_le _)]
      rfl
    have hStop : sumAt (prefixSums (items.map weight)) items.length = (items.map weight).sum := by
      rw [sumAt_prefixSums (List.length_map _).ge, List.take_of_length_le (List.length_map _).le]
    have hIndex : (List.range' 0 items.length).get ⟨i, by rwa [List.length_range']⟩ = i := by
      simp
    rw [hIndex, sumAt_succ hWeight, hStart, hStop, add_sub_cancel_left, sub_zero] at hArea
    exact hArea
  · rw [subdivideLoop_eq, List.flatMap_singleton]
    exact foldl_visit items step hPacks.indices state

end Items

/-- Each key has one cell, the cells tile the rectangle, and their areas are as the weights. -/
theorem splitWeightedRegions_tiles {Key : Type} [DecidableEq Key] {items : List (WeightedItem Key)}
    (hItems : items ≠ []) (hKeys : (items.map (·.key)).Nodup)
    (hWeights : ∀ item ∈ items, 0 < item.weight) {rect : BucketTerrainRect}
    (hRect : rect.Positive) :
    ∃ cells : List BucketTerrainRect, Tiles rect cells ∧
      List.Forall₂ (fun item cell => (splitWeightedRegions items rect).get? item.key = some cell ∧
        cell.area = rect.area * (item.weight / (items.map (·.weight)).sum)) items cells ∧
      (∀ key cell, (splitWeightedRegions items rect).get? key = some cell →
        key ∈ items.map (·.key)) := by
  obtain ⟨cells, hTiles, hAreas, hLoop⟩ := subdivideLoop_items items (·.weight) linearSearch hItems
    hWeights hRect (fun result item rect => InsertionMap.set result item.key rect) .empty
  have hResult : splitWeightedRegions items rect =
      .ofList ((items.map (·.key)).zip cells) := by
    unfold splitWeightedRegions
    rw [hLoop, InsertionMap.ofList, List.zip_map_left, List.foldl_map]
    rfl
  have hLength := hAreas.length_eq
  have hFst : ((items.map (·.key)).zip cells).map Prod.fst = items.map (·.key) :=
    List.map_fst_zip (by rw [List.length_map]; exact hLength.le)
  have hNodup : (((items.map (·.key)).zip cells).map Prod.fst).Nodup := by rwa [hFst]
  have hGet : ∀ key cell, (splitWeightedRegions items rect).get? key = some cell ↔
      (key, cell) ∈ (items.map (·.key)).zip cells := by
    intro key cell
    rw [hResult, InsertionMap.get?_ofList hNodup, InsertionMap.lookup_eq_some_iff hNodup]
  refine ⟨cells, hTiles, ?_, fun key cell hFound => ?_⟩
  · refine List.forall₂_iff_get.mpr ⟨hLength, fun i hi hCell => ⟨(hGet _ _).mpr ?_, ?_⟩⟩
    · refine List.mem_of_getElem? (i := i) ?_
      rw [List.getElem?_zip_eq_some, List.getElem?_map, List.getElem?_eq_getElem hi]
      exact ⟨rfl, List.getElem?_eq_getElem hCell⟩
    · exact (List.forall₂_iff_get.mp hAreas).2 i hi hCell
  · exact (List.of_mem_zip ((hGet key cell).mp hFound)).1

-- ---------------------------------------------------------------------------
-- The grid
-- ---------------------------------------------------------------------------

/-- Numbers row by row: the complete rows, then the last one. -/
theorem range_rows (rows columns last : Nat) :
    List.range (rows * columns + last) =
      ((List.range rows).flatMap fun row =>
        (List.range columns).map fun column => row * columns + column) ++
        (List.range last).map fun column => rows * columns + column := by
  rw [List.range_add]
  congr 1
  induction rows with
  | zero => simp
  | succ rows ih =>
    rw [Nat.succ_mul, List.range_add, ih, List.range_succ, List.flatMap_append,
      List.flatMap_singleton]

section Grid

variable {count columns : Nat} (hColumns : 0 < columns) (hCount : columns ≤ count)

/-- The complete rows, and how many cells the last row has. -/
def completeRows (count columns : Nat) : Nat := (count + columns - 1) / columns - 1

/-- The cells of the last row. -/
def lastRow (count columns : Nat) : Nat := count - columns * completeRows count columns

include hColumns hCount in
/-- The complete rows and the last one hold every cell. -/
theorem grid_count : completeRows count columns * columns + lastRow count columns = count ∧
    0 < lastRow count columns ∧ lastRow count columns ≤ columns := by
  have hRows : 0 < (count + columns - 1) / columns := Nat.div_pos (by omega) hColumns
  have hLow := Nat.div_mul_le_self (count + columns - 1) columns
  have hHigh := Nat.lt_div_mul_add (a := count + columns - 1) hColumns
  have hSplit : (count + columns - 1) / columns = completeRows count columns + 1 := by
    unfold completeRows
    omega
  rw [hSplit, Nat.succ_mul] at hLow hHigh
  unfold lastRow
  rw [Nat.mul_comm columns]
  omega

include hColumns in
theorem gridCell_complete (rect : BucketTerrainRect) {row column : Nat}
    (hRow : row < completeRows count columns) (hColumn : column < columns) :
    gridCell count columns rect (row * columns + column) = {
      x := rect.x + column * (rect.width / columns)
      y := rect.y + row * (rect.height * columns / count)
      width := rect.width / columns
      height := rect.height * columns / count } := by
  have hMod : (row * columns + column) % columns = column := by
    rw [Nat.add_comm, Nat.add_mul_mod_self_right, Nat.mod_eq_of_lt hColumn]
  have hDiv : (row * columns + column) / columns = row := by
    rw [Nat.add_comm, Nat.add_mul_div_right _ _ hColumns, Nat.div_eq_of_lt hColumn, Nat.zero_add]
  have hNotFinal : row ≠ (count + columns - 1) / columns - 1 := hRow.ne
  simp only [gridCell, hMod, hDiv, if_neg hNotFinal]

include hColumns hCount in
theorem gridCell_last (rect : BucketTerrainRect) {column : Nat}
    (hColumn : column < lastRow count columns) :
    gridCell count columns rect (completeRows count columns * columns + column) = {
      x := rect.x + column * (rect.width / lastRow count columns)
      y := rect.y + completeRows count columns * (rect.height * columns / count)
      width := rect.width / lastRow count columns
      height := rect.height * lastRow count columns / count } := by
  have hLess : column < columns := hColumn.trans_le (grid_count hColumns hCount).2.2
  have hMod : (completeRows count columns * columns + column) % columns = column := by
    rw [Nat.add_comm, Nat.add_mul_mod_self_right, Nat.mod_eq_of_lt hLess]
  have hDiv : (completeRows count columns * columns + column) / columns =
      completeRows count columns := by
    rw [Nat.add_comm, Nat.add_mul_div_right _ _ hColumns, Nat.div_eq_of_lt hLess, Nat.zero_add]
  have hFinal : completeRows count columns = (count + columns - 1) / columns - 1 := rfl
  simp only [gridCell, hMod, hDiv, if_pos hFinal]
  rfl

include hColumns hCount in
/-- Every cell of the grid has the same area. -/
theorem gridCell_area {rect : BucketTerrainRect} {index : Nat} (hIndex : index < count) :
    (gridCell count columns rect index).area = rect.area * (1 / count) := by
  have hCountPos : (count : ℚ) ≠ 0 := Nat.cast_ne_zero.mpr (by omega)
  have hColumnsPos : (columns : ℚ) ≠ 0 := Nat.cast_ne_zero.mpr (by omega)
  obtain ⟨hTotal, hLast, -⟩ := grid_count hColumns hCount
  have hLastPos : (lastRow count columns : ℚ) ≠ 0 := Nat.cast_ne_zero.mpr (by omega)
  have hMem : index ∈ List.range (completeRows count columns * columns + lastRow count columns) :=
    List.mem_range.mpr (by omega)
  rw [range_rows, List.mem_append, List.mem_flatMap] at hMem
  rcases hMem with ⟨row, hRow, hMem⟩ | hMem
  · obtain ⟨column, hColumn, rfl⟩ := List.mem_map.mp hMem
    rw [gridCell_complete hColumns rect (List.mem_range.mp hRow) (List.mem_range.mp hColumn)]
    unfold Rect.area
    field_simp
  · obtain ⟨column, hColumn, rfl⟩ := List.mem_map.mp hMem
    rw [gridCell_last hColumns hCount rect (List.mem_range.mp hColumn)]
    unfold Rect.area
    field_simp

include hColumns hCount in
/-- The cells of a grid tile it: the complete rows, then the last. -/
theorem gridCell_tiles {rect : BucketTerrainRect} (hRect : rect.Positive) :
    Tiles rect ((List.range count).map (gridCell count columns rect)) := by
  obtain ⟨hTotal, hLast, -⟩ := grid_count hColumns hCount
  have hCountPos : (0 : ℚ) < count := Nat.cast_pos.mpr (by omega)
  have hColumnsPos : (0 : ℚ) < columns := Nat.cast_pos.mpr hColumns
  have hLastPos : (0 : ℚ) < lastRow count columns := Nat.cast_pos.mpr hLast
  have hSum : (completeRows count columns : ℚ) * columns + lastRow count columns = count := by
    exact_mod_cast hTotal
  have hHeight : 0 < rect.height * columns / count :=
    div_pos (mul_pos hRect.2 hColumnsPos) hCountPos
  have hLastHeight : 0 < rect.height * lastRow count columns / count :=
    div_pos (mul_pos hRect.2 hLastPos) hCountPos
  have hRest : rect.height - completeRows count columns * (rect.height * columns / count) =
      rect.height * lastRow count columns / count := by
    rw [← hSum]
    field_simp
    ring
  have hRow : ∀ row : BucketTerrainRect, row.Positive → ∀ cells : Nat, 0 < cells →
      Tiles row ((List.range cells).map fun column : Nat =>
        { row with x := row.x + column * (row.width / cells), width := row.width / cells }) := by
    intro row hPositive cells hCells
    have hCellsPos : (0 : ℚ) < cells := Nat.cast_pos.mpr hCells
    exact tiles_columns hPositive.2 (div_pos hPositive.1 hCellsPos) hCells
      (mul_div_cancel₀ _ hCellsPos.ne')
  have hCells : (List.range count).map (gridCell count columns rect) =
      ((List.range (completeRows count columns)).flatMap fun row : Nat =>
        (List.range columns).map fun column : Nat =>
          ({ x := rect.x + column * (rect.width / columns)
             y := rect.y + row * (rect.height * columns / count)
             width := rect.width / columns
             height := rect.height * columns / count } : BucketTerrainRect)) ++
        (List.range (lastRow count columns)).map fun column : Nat =>
          ({ x := rect.x + column * (rect.width / lastRow count columns)
             y := rect.y + completeRows count columns * (rect.height * columns / count)
             width := rect.width / lastRow count columns
             height := rect.height * lastRow count columns / count } : BucketTerrainRect) := by
    have hRange := (congrArg List.range hTotal.symm).trans (range_rows ..)
    rw [hRange, List.map_append, List.map_flatMap, List.map_map]
    congr 1
    · refine List.flatMap_congr fun row hMem => ?_
      rw [List.map_map]
      refine List.map_congr_left fun column hColumn => ?_
      exact gridCell_complete hColumns rect (List.mem_range.mp hMem) (List.mem_range.mp hColumn)
    · refine List.map_congr_left fun column hColumn => ?_
      exact gridCell_last hColumns hCount rect (List.mem_range.mp hColumn)
  rw [hCells]
  rcases Nat.eq_zero_or_pos (completeRows count columns) with hNone | hSome
  · have hWhole : rect.height * lastRow count columns / count = rect.height := by
      rw [← hSum, hNone, Nat.cast_zero, zero_mul, zero_add, mul_div_cancel_right₀ _ hLastPos.ne']
    rw [hNone, hWhole, Nat.cast_zero, zero_mul, add_zero]
    exact hRow rect hRect _ hLast
  · have hSomePos : (0 : ℚ) < completeRows count columns := Nat.cast_pos.mpr hSome
    have hLess : completeRows count columns * (rect.height * columns / count) < rect.height := by
      rw [← sub_pos, hRest]
      exact hLastHeight
    have hCut := tiles_cut_height hRect.1 (mul_pos hSomePos hHeight) hLess
    rw [hRest] at hCut
    have hComplete := @tiles_rows ℚ _ _ _
      { rect with height := completeRows count columns * (rect.height * columns / count) }
      (rect.height * columns / count) hRect.1 hHeight _ hSome rfl
    have hRows := hComplete.flatMap fun row _ => hRow
      { rect with
        y := rect.y + row * (rect.height * columns / count)
        height := rect.height * columns / count } ⟨hRect.1, hHeight⟩ columns hColumns
    have hFinal := hRow
      { rect with
        y := rect.y + completeRows count columns * (rect.height * columns / count)
        height := rect.height * lastRow count columns / count } ⟨hRect.1, hLastHeight⟩ _ hLast
    exact hCut.append hRows hFinal

end Grid

-- ---------------------------------------------------------------------------
-- Packing
-- ---------------------------------------------------------------------------

theorem insetRect_within {rect : BucketTerrainRect} {inset : ℚ} (hInset : 0 ≤ inset)
    (hWidth : inset * 2 < rect.width) (hHeight : inset * 2 < rect.height) :
    (insetRect rect inset).Positive ∧ (insetRect rect inset).Within rect := by
  have hWide : max 0 (rect.width - inset * 2) = rect.width - inset * 2 :=
    max_eq_right (sub_pos.mpr hWidth).le
  have hHigh : max 0 (rect.height - inset * 2) = rect.height - inset * 2 :=
    max_eq_right (sub_pos.mpr hHeight).le
  unfold insetRect Rect.Positive Rect.Within
  rw [hWide, hHigh]
  dsimp only
  refine ⟨⟨sub_pos.mpr hWidth, sub_pos.mpr hHeight⟩, ⟨?_, ?_⟩, ?_, ?_⟩ <;> linarith

/-- There is a column, and no more columns than rows to place. -/
theorem gridColumns_bounds {count : Nat} (h : count ≠ 0) (rect : BucketTerrainRect) :
    0 < gridColumns count rect ∧ gridColumns count rect ≤ count := by
  unfold gridColumns
  dsimp only
  omega

section Packing

variable {SectionKey RegionKey : Type} (regionKey : RegionKey) (sectionKey : SectionKey)

/-- The gap around a glyph leaves it inside its cell. -/
theorem transactionGlyph_within (transaction : MempoolEntry) {cell : BucketTerrainRect}
    (hCell : cell.Positive) :
    (transactionGlyph regionKey sectionKey transaction cell).rect.Positive ∧
      (transactionGlyph regionKey sectionKey transaction cell).rect.Within cell := by
  obtain ⟨hWidth, hHeight⟩ := hCell
  refine insetRect_within ?_ ?_ ?_
  · exact le_min (by decide +kernel) (le_min (by positivity) (by positivity))
  · have hGap := (min_le_right glyphGap _).trans
      (min_le_left (cell.width * (35 / 1000)) (cell.height * (35 / 1000)))
    linarith
  · have hGap := (min_le_right glyphGap _).trans
      (min_le_right (cell.width * (35 / 1000)) (cell.height * (35 / 1000)))
    linarith

/-- The glyphs stand in their cells, in order. -/
theorem packGrid_eq (columns : Nat) (transactions : List MempoolEntry) (rect : BucketTerrainRect) :
    packGrid regionKey sectionKey columns transactions rect =
      List.zipWith (transactionGlyph regionKey sectionKey) transactions
        ((List.range transactions.length).map (gridCell transactions.length columns rect)) := by
  refine List.ext_getElem (by simp [packGrid]) fun i hi hi' => ?_
  simp [packGrid]

/-- A grid of any number of columns has one cell of the same area for each transaction. -/
theorem packGrid_cells {columns : Nat} {transactions : List MempoolEntry} (hColumns : 0 < columns)
    (hCount : columns ≤ transactions.length) {rect : BucketTerrainRect} (hRect : rect.Positive) :
    ∃ cells, Tiles rect cells ∧
      List.Forall₂ (fun _ cell => cell.area = rect.area * (1 / transactions.length)) transactions
        cells ∧
      packGrid regionKey sectionKey columns transactions rect =
        List.zipWith (transactionGlyph regionKey sectionKey) transactions cells := by
  refine ⟨_, gridCell_tiles hColumns hCount hRect, ?_, packGrid_eq regionKey sectionKey columns _ _⟩
  refine List.forall₂_iff_get.mpr ⟨by simp, fun i hi hCell => ?_⟩
  simp only [List.get_eq_getElem, List.getElem_map, List.getElem_range]
  exact gridCell_area hColumns hCount hi

theorem foldl_append_glyph {α β γ : Type} (make : α → β → γ) (pairs : List (α × β))
    (start : List γ) :
    pairs.foldl (fun made pair => made ++ [make pair.1 pair.2]) start =
      start ++ pairs.map fun pair => make pair.1 pair.2 := by
  induction pairs generalizing start with
  | nil => simp
  | cons pair rest ih => rw [List.foldl_cons, ih, List.append_assoc]; rfl

theorem cast_sumVsize (transactions : List MempoolEntry) :
    (transactions.map fun transaction => (transaction.vsize : ℚ)).sum = sumVsize transactions := by
  rw [sumVsize, Nat.cast_list_sum, List.map_map]
  rfl

/-- Each transaction has one cell of a tiling, of the area its metric is due. -/
theorem packTransactions_cells {transactions : List MempoolEntry} (hSome : transactions ≠ [])
    (hVsize : ∀ transaction ∈ transactions, 0 < transaction.vsize) {rect : BucketTerrainRect}
    (hRect : rect.Positive) (mode : BucketTerrainMode) :
    ∃ cells, Tiles rect cells ∧
      List.Forall₂ (fun transaction cell => cell.area =
        rect.area * (metric [transaction] mode / metric transactions mode)) transactions cells ∧
      packTransactions regionKey sectionKey transactions rect mode =
        List.zipWith (transactionGlyph regionKey sectionKey) transactions cells := by
  have hLength : transactions.length ≠ 0 := fun hNone => hSome (List.length_eq_zero_iff.mp hNone)
  have hDrawn : ¬(transactions.length = 0 ∨ rect.width ≤ 0 ∨ rect.height ≤ 0) := by
    rintro (hNone | hFlat | hFlat)
    · exact hLength hNone
    · exact hFlat.not_gt hRect.1
    · exact hFlat.not_gt hRect.2
  unfold packTransactions
  rw [if_neg hDrawn]
  cases mode with
  | count =>
    obtain ⟨hColumns, hCount⟩ := gridColumns_bounds hLength rect
    obtain ⟨cells, hTiles, hAreas, hGlyphs⟩ :=
      packGrid_cells regionKey sectionKey hColumns hCount hRect
    refine ⟨cells, hTiles, hAreas.imp fun transaction cell hArea => ?_, hGlyphs⟩
    rw [hArea]
    simp [metric]
  | vsize =>
    obtain ⟨cells, hTiles, hAreas, hLoop⟩ := subdivideLoop_items transactions
      (fun transaction => (transaction.vsize : ℚ)) binarySearch hSome
      (fun transaction hMem => Nat.cast_pos.mpr (hVsize transaction hMem)) hRect
      (fun glyphs transaction rect =>
        glyphs ++ [transactionGlyph regionKey sectionKey transaction rect]) []
    refine ⟨cells, hTiles, hAreas.imp fun transaction cell hArea => ?_, ?_⟩
    · rw [hArea, cast_sumVsize]
      simp [metric, sumVsize]
    · refine hLoop.trans ?_
      rw [foldl_append_glyph, List.nil_append, List.map_zip_eq_zipWith]
      rfl

end Packing

end MempoolAtlas.Web
