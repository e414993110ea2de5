import Mathlib

/-!
# Tilings of rectangles

Rectangles over an ordered field, and lists of them that tile a parent: cutting
a rectangle in two, in equal strips, and tiling the parts of a tiling again.

## Results

* `Tiles.flatMap` — the parts of a tiling are tiled in turn.
* `tiles_cut_width`, `tiles_cut_height` — a cut leaves a tiling by two.
* `tiles_columns`, `tiles_rows` — so do equal strips.
-/

namespace MempoolAtlas.Tilings

universe u v

/-- A corner and the extents from it. -/
structure Rect (K : Type u) where
  x : K
  y : K
  width : K
  height : K
deriving DecidableEq, Repr

variable {K : Type u} [Field K] [LinearOrder K]

namespace Rect

/-- The area of a rectangle. -/
def area (rect : Rect K) : K := rect.width * rect.height

/-- Both sides are positive. -/
def Positive (rect : Rect K) : Prop := 0 < rect.width ∧ 0 < rect.height

/-- The points of a rectangle. -/
def points (rect : Rect K) : Set (K × K) :=
  {p | (rect.x ≤ p.1 ∧ p.1 ≤ rect.x + rect.width) ∧ rect.y ≤ p.2 ∧ p.2 ≤ rect.y + rect.height}

/-- The points strictly inside. -/
def interior (rect : Rect K) : Set (K × K) :=
  {p | (rect.x < p.1 ∧ p.1 < rect.x + rect.width) ∧ rect.y < p.2 ∧ p.2 < rect.y + rect.height}

/-- One rectangle lies in another. -/
def Within (inner outer : Rect K) : Prop :=
  (outer.x ≤ inner.x ∧ inner.x + inner.width ≤ outer.x + outer.width) ∧
    outer.y ≤ inner.y ∧ inner.y + inner.height ≤ outer.y + outer.height

/-- The two axes exchanged. -/
def transpose (rect : Rect K) : Rect K where
  x := rect.y
  y := rect.x
  width := rect.height
  height := rect.width

theorem Within.refl (rect : Rect K) : rect.Within rect := ⟨⟨le_rfl, le_rfl⟩, le_rfl, le_rfl⟩

/-- Lying within composes. -/
theorem Within.trans {first second third : Rect K} (h : first.Within second)
    (h' : second.Within third) : first.Within third :=
  ⟨⟨h'.1.1.trans h.1.1, h.1.2.trans h'.1.2⟩, h'.2.1.trans h.2.1, h.2.2.trans h'.2.2⟩

/-- What lies within has its inside within. -/
theorem Within.interior_subset {inner outer : Rect K} (h : inner.Within outer) :
    inner.interior ⊆ outer.interior := fun _ hp =>
  ⟨⟨h.1.1.trans_lt hp.1.1, hp.1.2.trans_le h.1.2⟩, h.2.1.trans_lt hp.2.1, hp.2.2.trans_le h.2.2⟩

theorem mem_points_transpose {rect : Rect K} {p : K × K} :
    p ∈ rect.transpose.points ↔ p.swap ∈ rect.points := and_comm

theorem mem_interior_transpose {rect : Rect K} {p : K × K} :
    p ∈ rect.transpose.interior ↔ p.swap ∈ rect.interior := and_comm

theorem disjoint_transpose {first second : Rect K} (h : Disjoint first.interior second.interior) :
    Disjoint first.transpose.interior second.transpose.interior := by
  rw [Set.disjoint_left] at h ⊢
  intro p hFirst hSecond
  exact h (mem_interior_transpose.mp hFirst) (mem_interior_transpose.mp hSecond)

variable [IsStrictOrderedRing K]

theorem Positive.area_pos {rect : Rect K} (h : rect.Positive) : 0 < rect.area := mul_pos h.1 h.2

/-- A rectangle whose points are another's lies within it. -/
theorem within_of_points_subset {inner outer : Rect K} (hPositive : inner.Positive)
    (h : inner.points ⊆ outer.points) : inner.Within outer := by
  have hWidth : inner.x ≤ inner.x + inner.width := le_add_of_nonneg_right hPositive.1.le
  have hHeight : inner.y ≤ inner.y + inner.height := le_add_of_nonneg_right hPositive.2.le
  have hLow := @h (inner.x, inner.y) ⟨⟨le_rfl, hWidth⟩, le_rfl, hHeight⟩
  have hHigh := @h (inner.x + inner.width, inner.y + inner.height)
    ⟨⟨hWidth, le_rfl⟩, hHeight, le_rfl⟩
  exact ⟨⟨hLow.1.1, hHigh.1.2⟩, hLow.2.1, hHigh.2.2⟩

end Rect

-- ---------------------------------------------------------------------------
-- Tilings
-- ---------------------------------------------------------------------------

/-- Positive parts that cover the parent and overlap nowhere. -/
structure Tiles (parent : Rect K) (parts : List (Rect K)) : Prop where
  positive : ∀ part ∈ parts, part.Positive
  covers : ∀ p, p ∈ parent.points ↔ ∃ part ∈ parts, p ∈ part.points
  disjoint : parts.Pairwise fun first second => Disjoint first.interior second.interior

/-- A rectangle tiles itself. -/
theorem Tiles.single {rect : Rect K} (h : rect.Positive) : Tiles rect [rect] where
  positive part hMem := List.mem_singleton.mp hMem ▸ h
  covers p := by simp
  disjoint := List.pairwise_singleton _ _

/-- A tiling, transposed. -/
theorem Tiles.transpose {parent : Rect K} {parts : List (Rect K)} (h : Tiles parent parts) :
    Tiles parent.transpose (parts.map Rect.transpose) where
  positive part hMem := by
    obtain ⟨found, hFound, rfl⟩ := List.mem_map.mp hMem
    exact (h.positive found hFound).symm
  covers p := by
    rw [Rect.mem_points_transpose, h.covers]
    constructor
    · rintro ⟨part, hMem, hp⟩
      exact ⟨part.transpose, List.mem_map_of_mem hMem, Rect.mem_points_transpose.mpr hp⟩
    · rintro ⟨part, hMem, hp⟩
      obtain ⟨found, hFound, rfl⟩ := List.mem_map.mp hMem
      exact ⟨found, hFound, Rect.mem_points_transpose.mp hp⟩
  disjoint := List.pairwise_map.mpr (h.disjoint.imp Rect.disjoint_transpose)

section Ordered

variable [IsStrictOrderedRing K]

/-- A part lies within the whole. -/
theorem Tiles.within {parent : Rect K} {parts : List (Rect K)} (h : Tiles parent parts)
    {part : Rect K} (hMem : part ∈ parts) : part.Within parent :=
  Rect.within_of_points_subset (h.positive part hMem) fun p hp => (h.covers p).mpr ⟨part, hMem, hp⟩

/-- Parts of disjoint rectangles are disjoint. -/
theorem Tiles.disjoint_parts {parent other : Rect K} {parts others : List (Rect K)}
    (h : Tiles parent parts) (hOther : Tiles other others)
    (hDisjoint : Disjoint parent.interior other.interior) :
    ∀ first ∈ parts, ∀ second ∈ others, Disjoint first.interior second.interior :=
  fun _ hFirst _ hSecond => hDisjoint.mono (h.within hFirst).interior_subset
    (hOther.within hSecond).interior_subset

/-- The parts of a tiling are tiled in turn. -/
theorem Tiles.flatMap {ι : Type v} {parent : Rect K} {items : List ι} {rect : ι → Rect K}
    {parts : ι → List (Rect K)} (h : Tiles parent (items.map rect))
    (hParts : ∀ item ∈ items, Tiles (rect item) (parts item)) :
    Tiles parent (items.flatMap parts) where
  positive part hMem := by
    obtain ⟨item, hItem, hPart⟩ := List.mem_flatMap.mp hMem
    exact (hParts item hItem).positive part hPart
  covers p := by
    rw [h.covers]
    constructor
    · rintro ⟨part, hMem, hp⟩
      obtain ⟨item, hItem, rfl⟩ := List.mem_map.mp hMem
      obtain ⟨inner, hInner, hp⟩ := ((hParts item hItem).covers p).mp hp
      exact ⟨inner, List.mem_flatMap.mpr ⟨item, hItem, hInner⟩, hp⟩
    · rintro ⟨inner, hMem, hp⟩
      obtain ⟨item, hItem, hInner⟩ := List.mem_flatMap.mp hMem
      exact ⟨rect item, List.mem_map_of_mem hItem,
        ((hParts item hItem).covers p).mpr ⟨inner, hInner, hp⟩⟩
  disjoint := by
    rw [List.pairwise_flatMap]
    refine ⟨fun item hItem => (hParts item hItem).disjoint, ?_⟩
    exact (List.pairwise_map.mp h.disjoint).imp_of_mem fun hFirst hSecond hDisjoint =>
      (hParts _ hFirst).disjoint_parts (hParts _ hSecond) hDisjoint

/-- The parts of a tiling in two are tiled in turn. -/
theorem Tiles.append {parent first second : Rect K} {firsts seconds : List (Rect K)}
    (h : Tiles parent [first, second]) (hFirst : Tiles first firsts)
    (hSecond : Tiles second seconds) : Tiles parent (firsts ++ seconds) := by
  have hBoth := @Tiles.flatMap K _ _ _ _ parent [(first, firsts), (second, seconds)] Prod.fst
    Prod.snd h (by
      intro item hItem
      rcases List.mem_cons.mp hItem with rfl | hItem
      · exact hFirst
      · obtain rfl := List.mem_singleton.mp hItem
        exact hSecond)
  simpa using hBoth

-- ---------------------------------------------------------------------------
-- Cuts
-- ---------------------------------------------------------------------------

/-- A cut down the rectangle, this far from its left side. -/
theorem tiles_cut_width {rect : Rect K} {width : K} (hHeight : 0 < rect.height)
    (hPositive : 0 < width) (hLess : width < rect.width) :
    Tiles rect [{ rect with width },
      { rect with x := rect.x + width, width := rect.width - width }] where
  positive part hMem := by
    rcases List.mem_cons.mp hMem with rfl | hMem
    · exact ⟨hPositive, hHeight⟩
    · obtain rfl := List.mem_singleton.mp hMem
      exact ⟨sub_pos.mpr hLess, hHeight⟩
  covers p := by
    have hEnd : rect.x + width + (rect.width - width) = rect.x + rect.width := by ring
    have hStart : rect.x ≤ rect.x + width := le_add_of_nonneg_right hPositive.le
    have hMiddle : rect.x + width ≤ rect.x + rect.width := add_le_add_right hLess.le _
    constructor
    · intro hp
      rcases le_total p.1 (rect.x + width) with hLeft | hRight
      · exact ⟨_, List.mem_cons_self, ⟨hp.1.1, hLeft⟩, hp.2⟩
      · exact ⟨_, List.mem_cons_of_mem _ List.mem_cons_self,
          ⟨hRight, hp.1.2.trans hEnd.ge⟩, hp.2⟩
    · rintro ⟨part, hMem, hp⟩
      rcases List.mem_cons.mp hMem with rfl | hMem
      · exact ⟨⟨hp.1.1, hp.1.2.trans hMiddle⟩, hp.2⟩
      · obtain rfl := List.mem_singleton.mp hMem
        exact ⟨⟨hStart.trans hp.1.1, hp.1.2.trans hEnd.le⟩, hp.2⟩
  disjoint := by
    refine List.pairwise_pair.mpr (Set.disjoint_left.mpr fun p hFirst hSecond => ?_)
    exact lt_asymm hFirst.1.2 hSecond.1.1

/-- A cut across the rectangle. -/
theorem tiles_cut_height {rect : Rect K} {height : K} (hWidth : 0 < rect.width)
    (hPositive : 0 < height) (hLess : height < rect.height) :
    Tiles rect [{ rect with height },
      { rect with y := rect.y + height, height := rect.height - height }] :=
  (@tiles_cut_width K _ _ _ rect.transpose height hWidth hPositive hLess).transpose

/-- Strips of one width, side by side. -/
theorem tiles_columns {rect : Rect K} {width : K} (hHeight : 0 < rect.height) (hWidth : 0 < width)
    {columns : Nat} (hColumns : 0 < columns) (hTotal : columns * width = rect.width) :
    Tiles rect ((List.range columns).map fun column : Nat =>
      { rect with x := rect.x + column * width, width }) := by
  induction columns, hColumns using Nat.le_induction generalizing rect with
  | base =>
    have hSelf : { rect with x := rect.x + ((0 : Nat) : K) * width, width } = rect := by
      rw [Nat.cast_zero, zero_mul, add_zero]
      rw [Nat.cast_one, one_mul] at hTotal
      rw [hTotal]
    rw [List.range_one, List.map_singleton, hSelf]
    exact Tiles.single ⟨hTotal ▸ by simpa using hWidth, hHeight⟩
  | succ columns hColumns ih =>
    have hPositive : 0 < (columns : K) * width := mul_pos (Nat.cast_pos.mpr hColumns) hWidth
    have hRest : rect.width - columns * width = width := by
      rw [← hTotal]
      push_cast
      ring
    have hLess : columns * width < rect.width := by
      rw [← sub_pos, hRest]
      exact hWidth
    have hCut := tiles_cut_width hHeight hPositive hLess
    rw [hRest] at hCut
    rw [List.range_succ, List.map_append, List.map_singleton]
    exact hCut.append (@ih { rect with width := columns * width } hHeight rfl)
      (Tiles.single ⟨hWidth, hHeight⟩)

/-- Strips of one height, one under the other. -/
theorem tiles_rows {rect : Rect K} {height : K} (hWidth : 0 < rect.width) (hHeight : 0 < height)
    {rows : Nat} (hRows : 0 < rows) (hTotal : rows * height = rect.height) :
    Tiles rect ((List.range rows).map fun row : Nat =>
      { rect with y := rect.y + row * height, height }) := by
  have hColumns := (@tiles_columns K _ _ _ rect.transpose height hWidth hHeight rows hRows
    hTotal).transpose
  rw [List.map_map] at hColumns
  exact hColumns

end Ordered

end MempoolAtlas.Tilings
