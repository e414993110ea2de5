import MempoolAtlas.Web.Comparison
import MempoolAtlas.Web.TerrainPacking

/-!
# Terrain layout

`createBucketTerrainLayout` of `web/src/bucket-terrain.ts`: sections share the
canvas by weight, the regions of a nested section share its content, and every
region packs its transactions, each level inset and under its label strip.

## Results

* `tiles_sections`, `tiles_regions` — the sections tile the canvas, the regions their section.
* `createBucketTerrainLayout_drawsEach` — the layout draws each row once.
* `terrain_tiling` — weighted regions, packed transactions and whole layouts tile what they are
  given.
-/

namespace MempoolAtlas.Web

open Model Tilings

/-- A region to place: its rows and what it is called. -/
structure BucketTerrainRegionGroup (SectionKey RegionKey Signature : Type) where
  key : RegionKey
  sectionKey : SectionKey
  signature : Signature
  transactions : List MempoolEntry

/-- A section to place, with its regions. -/
structure BucketTerrainSectionGroup (SectionKey RegionKey Signature : Type) where
  key : SectionKey
  transactions : List MempoolEntry
  regions : List (BucketTerrainRegionGroup SectionKey RegionKey Signature)
  nested : Bool

/-- A placed section. -/
structure BucketTerrainSection (SectionKey : Type) where
  key : SectionKey
  rect : BucketTerrainRect
  contentRect : BucketTerrainRect
  transactionCount : Nat
  totalVsize : Nat
  weight : Nat
  labelHeight : ℚ

/-- A placed region. -/
structure BucketTerrainRegion (SectionKey RegionKey Signature : Type) where
  key : RegionKey
  sectionKey : SectionKey
  signature : Signature
  rect : BucketTerrainRect
  contentRect : BucketTerrainRect
  transactionCount : Nat
  totalVsize : Nat
  weight : Nat
  labelHeight : ℚ

/-- The layout: sections, regions and glyphs. -/
structure BucketTerrainLayout (SectionKey RegionKey Signature : Type) where
  width : ℚ
  height : ℚ
  mode : BucketTerrainMode
  sections : List (BucketTerrainSection SectionKey)
  regions : List (BucketTerrainRegion SectionKey RegionKey Signature)
  glyphs : List (BucketTerrainGlyph SectionKey RegionKey)

/-- The gap around a section. -/
def sectionGap : ℚ := 4

/-- The room for a section's label. -/
def sectionLabelHeight : ℚ := 42

/-- The gap around a region. -/
def regionGap : ℚ := 3

/-- The room for a region's label. -/
def regionLabelHeight : ℚ := 36

/-- The least extent that an inset leaves. -/
def minContentExtent : ℚ := 1 / 2

/-- An inset that leaves content, however small the rectangle. -/
def adaptiveInsetRect (rect : BucketTerrainRect) (preferredInset : ℚ) : BucketTerrainRect :=
  let maximumInset := max 0 (min rect.width rect.height / 2 - minContentExtent / 2)
  insetRect rect (min preferredInset maximumInset)

/-- A label's height, less when there is little room. -/
def adaptiveLabelHeight (availableHeight preferredHeight proportionalHeight : ℚ) : ℚ :=
  max 0 (min preferredHeight
    (min (availableHeight * proportionalHeight) (availableHeight - minContentExtent)))

/-- What a label strip leaves of a rectangle. -/
def belowLabel (rect : BucketTerrainRect) (labelHeight : ℚ) : BucketTerrainRect :=
  { rect with y := rect.y + labelHeight, height := max 0 (rect.height - labelHeight) }

section Layout

variable {SectionKey RegionKey Signature : Type} (mode : BucketTerrainMode)

/-- A section in its rectangle, below its label. -/
def layoutSection (rawRect : BucketTerrainRect)
    (group : BucketTerrainSectionGroup SectionKey RegionKey Signature) :
    BucketTerrainSection SectionKey :=
  let rect := adaptiveInsetRect rawRect (sectionGap / 2)
  let labelHeight := adaptiveLabelHeight rect.height sectionLabelHeight (16 / 100)
  { key := group.key, rect
    contentRect := adaptiveInsetRect (belowLabel rect labelHeight) 2
    transactionCount := group.transactions.length
    totalVsize := sumVsize group.transactions
    weight := metric group.transactions mode
    labelHeight }

/-- A region in its rectangle, below its label when it has one. -/
def layoutRegion (rawRegionRect : BucketTerrainRect) (nested : Bool) (sectionKey : SectionKey)
    (regionGroup : BucketTerrainRegionGroup SectionKey RegionKey Signature) :
    BucketTerrainRegion SectionKey RegionKey Signature :=
  let rect := if nested then adaptiveInsetRect rawRegionRect (regionGap / 2) else rawRegionRect
  let labelHeight :=
    if nested then adaptiveLabelHeight rect.height regionLabelHeight (2 / 10) else 0
  { key := regionGroup.key, sectionKey, signature := regionGroup.signature, rect
    contentRect := adaptiveInsetRect (belowLabel rect labelHeight) 3
    transactionCount := regionGroup.transactions.length
    totalVsize := sumVsize regionGroup.transactions
    weight := metric regionGroup.transactions mode
    labelHeight }

variable [DecidableEq SectionKey] [DecidableEq RegionKey]

/-- The rectangles of a section's regions; a section that is not nested has one. -/
def regionRects (contentRect : BucketTerrainRect)
    (group : BucketTerrainSectionGroup SectionKey RegionKey Signature) :
    InsertionMap RegionKey BucketTerrainRect :=
  if group.nested then
    splitWeightedRegions (group.regions.map fun regionGroup =>
      { key := regionGroup.key, weight := metric regionGroup.transactions mode }) contentRect
  else match group.regions.head? with
    | none => .empty
    | some first => InsertionMap.empty.set first.key contentRect

/-- The regions of a section with their groups. -/
def layoutRegions (contentRect : BucketTerrainRect)
    (group : BucketTerrainSectionGroup SectionKey RegionKey Signature) :
    List (BucketTerrainRegion SectionKey RegionKey Signature ×
      BucketTerrainRegionGroup SectionKey RegionKey Signature) :=
  group.regions.map fun regionGroup =>
    (layoutRegion mode (((regionRects mode contentRect group).get? regionGroup.key).getD
      contentRect) group.nested group.key regionGroup, regionGroup)

/-- The sections with their groups. -/
def layoutSections (canvas : BucketTerrainRect)
    (groups : List (BucketTerrainSectionGroup SectionKey RegionKey Signature)) :
    List (BucketTerrainSection SectionKey ×
      BucketTerrainSectionGroup SectionKey RegionKey Signature) :=
  let sectionRects := splitWeightedRegions (groups.map fun group =>
    { key := group.key, weight := metric group.transactions mode }) canvas
  groups.map fun group =>
    (layoutSection mode ((sectionRects.get? group.key).getD ⟨0, 0, 0, 0⟩) group, group)

/-- `createBucketTerrainLayout`: sections, their regions and the glyphs of their rows, by
weight. -/
def createBucketTerrainLayout
    (groups : List (BucketTerrainSectionGroup SectionKey RegionKey Signature))
    (width height : ℚ) : BucketTerrainLayout SectionKey RegionKey Signature :=
  let safeWidth := max 1 width
  let safeHeight := max 1 height
  let sections := layoutSections mode ⟨0, 0, safeWidth, safeHeight⟩ groups
  let regions := sections.flatMap fun (drawn, group) => layoutRegions mode drawn.contentRect group
  { width := safeWidth, height := safeHeight, mode
    sections := sections.map Prod.fst
    regions := regions.map Prod.fst
    glyphs := regions.flatMap fun (region, regionGroup) =>
      packTransactions region.key region.sectionKey regionGroup.transactions region.contentRect
        mode }

end Layout

-- ---------------------------------------------------------------------------
-- Insets and labels
-- ---------------------------------------------------------------------------

/-- An inset leaves a part of any rectangle, however small. -/
theorem adaptiveInsetRect_within {rect : BucketTerrainRect} (hRect : rect.Positive)
    {preferredInset : ℚ} (hPreferred : 0 ≤ preferredInset) :
    (adaptiveInsetRect rect preferredInset).Positive ∧
      (adaptiveInsetRect rect preferredInset).Within rect := by
  obtain ⟨hWidth, hHeight⟩ := hRect
  have hShort : 0 < min rect.width rect.height := lt_min hWidth hHeight
  have hMaximum : max 0 (min rect.width rect.height / 2 - minContentExtent / 2) * 2 <
      min rect.width rect.height := by
    unfold minContentExtent
    rcases max_choice 0 (min rect.width rect.height / 2 - 1 / 2 / 2) with hNone | hSome
    · rw [hNone, zero_mul]
      exact hShort
    · rw [hSome]
      linarith
  have hInset : min preferredInset
      (max 0 (min rect.width rect.height / 2 - minContentExtent / 2)) * 2 <
        min rect.width rect.height :=
    (mul_le_mul_of_nonneg_right (min_le_right _ _) zero_le_two).trans_lt hMaximum
  exact insetRect_within (le_min hPreferred (le_max_left _ _))
    (hInset.trans_le (min_le_left _ _)) (hInset.trans_le (min_le_right _ _))

/-- A label leaves room below it. -/
theorem adaptiveLabelHeight_lt {availableHeight preferredHeight proportionalHeight : ℚ}
    (hAvailable : 0 < availableHeight) (hProportional : proportionalHeight < 1) :
    0 ≤ adaptiveLabelHeight availableHeight preferredHeight proportionalHeight ∧
      adaptiveLabelHeight availableHeight preferredHeight proportionalHeight <
        availableHeight := by
  refine ⟨le_max_left _ _, max_lt hAvailable ?_⟩
  have hShare : availableHeight * proportionalHeight < availableHeight :=
    mul_lt_of_lt_one_right hAvailable hProportional
  exact ((min_le_right _ _).trans (min_le_left _ _)).trans_lt hShare

theorem belowLabel_within {rect : BucketTerrainRect} (hRect : rect.Positive) {labelHeight : ℚ}
    (hLabel : 0 ≤ labelHeight) (hLess : labelHeight < rect.height) :
    (belowLabel rect labelHeight).Positive ∧ (belowLabel rect labelHeight).Within rect := by
  have hHeight : max 0 (rect.height - labelHeight) = rect.height - labelHeight :=
    max_eq_right (sub_pos.mpr hLess).le
  unfold belowLabel Rect.Positive Rect.Within
  rw [hHeight]
  dsimp only
  refine ⟨⟨hRect.1, sub_pos.mpr hLess⟩, ⟨le_rfl, le_rfl⟩, ?_, ?_⟩ <;> linarith

section Levels

variable {SectionKey RegionKey Signature : Type} (mode : BucketTerrainMode)

/-- A section's content lies in its rectangle. -/
theorem layoutSection_within {rawRect : BucketTerrainRect} (hRect : rawRect.Positive)
    (group : BucketTerrainSectionGroup SectionKey RegionKey Signature) :
    (layoutSection mode rawRect group).contentRect.Positive ∧
      (layoutSection mode rawRect group).contentRect.Within rawRect := by
  obtain ⟨hInset, hOuter⟩ := @adaptiveInsetRect_within _ hRect (sectionGap / 2) (by decide +kernel)
  obtain ⟨hLabel, hLess⟩ := @adaptiveLabelHeight_lt _ sectionLabelHeight (16 / 100) hInset.2
    (by norm_num)
  obtain ⟨hBelow, hMiddle⟩ := belowLabel_within hInset hLabel hLess
  obtain ⟨hContent, hInner⟩ := @adaptiveInsetRect_within _ hBelow 2 zero_le_two
  exact ⟨hContent, (hInner.trans hMiddle).trans hOuter⟩

/-- A region's content lies in its rectangle. -/
theorem layoutRegion_within {rawRegionRect : BucketTerrainRect} (hRect : rawRegionRect.Positive)
    (nested : Bool) (sectionKey : SectionKey)
    (regionGroup : BucketTerrainRegionGroup SectionKey RegionKey Signature) :
    (layoutRegion mode rawRegionRect nested sectionKey regionGroup).contentRect.Positive ∧
      (layoutRegion mode rawRegionRect nested sectionKey regionGroup).contentRect.Within
        rawRegionRect := by
  cases nested with
  | true =>
    obtain ⟨hInset, hOuter⟩ := @adaptiveInsetRect_within _ hRect (regionGap / 2) (by decide +kernel)
    obtain ⟨hLabel, hLess⟩ := @adaptiveLabelHeight_lt _ regionLabelHeight (2 / 10) hInset.2
      (by norm_num)
    obtain ⟨hBelow, hMiddle⟩ := belowLabel_within hInset hLabel hLess
    obtain ⟨hContent, hInner⟩ := @adaptiveInsetRect_within _ hBelow 3 zero_le_three
    exact ⟨hContent, (hInner.trans hMiddle).trans hOuter⟩
  | false =>
    obtain ⟨hBelow, hMiddle⟩ := belowLabel_within hRect le_rfl hRect.2
    obtain ⟨hContent, hInner⟩ := @adaptiveInsetRect_within _ hBelow 3 zero_le_three
    exact ⟨hContent, hInner.trans hMiddle⟩

end Levels

-- ---------------------------------------------------------------------------
-- Glyphs of a region
-- ---------------------------------------------------------------------------

/-- Glyphs that lie apart, each inside a rectangle. -/
structure Drawn {SectionKey RegionKey : Type} (rect : BucketTerrainRect)
    (glyphs : List (BucketTerrainGlyph SectionKey RegionKey)) : Prop where
  inside : ∀ glyph ∈ glyphs, glyph.rect.Positive ∧ glyph.rect.Within rect
  apart : glyphs.Pairwise fun first second => Disjoint first.rect.interior second.rect.interior

section Regions

variable {SectionKey RegionKey : Type} (regionKey : RegionKey) (sectionKey : SectionKey)

theorem zipWith_glyph_keys {transactions : List MempoolEntry} {cells : List BucketTerrainRect}
    (h : transactions.length = cells.length) :
    (List.zipWith (transactionGlyph regionKey sectionKey) transactions cells).map
        (fun glyph => (glyph.sectionKey, glyph.regionKey, glyph.txid)) =
      transactions.map fun transaction => (sectionKey, regionKey, transaction.txid) := by
  refine List.ext_getElem (by simp [h]) fun i hi hi' => ?_
  simp [transactionGlyph]

/-- The rows of a region are drawn in it. -/
theorem packTransactions_drawn {transactions : List MempoolEntry}
    (hVsize : ∀ transaction ∈ transactions, 0 < transaction.vsize) {rect : BucketTerrainRect}
    (hRect : rect.Positive) (mode : BucketTerrainMode) :
    Drawn rect (packTransactions regionKey sectionKey transactions rect mode) ∧
      (packTransactions regionKey sectionKey transactions rect mode).map
          (fun glyph => (glyph.sectionKey, glyph.regionKey, glyph.txid)) =
        transactions.map fun transaction => (sectionKey, regionKey, transaction.txid) := by
  rcases eq_or_ne transactions [] with rfl | hSome
  · exact ⟨⟨fun glyph hMem => (nomatch hMem), List.Pairwise.nil⟩, rfl⟩
  · obtain ⟨cells, hTiles, hAreas, hGlyphs⟩ :=
      packTransactions_cells regionKey sectionKey hSome hVsize hRect mode
    have hLength := hAreas.length_eq
    rw [hGlyphs]
    refine ⟨⟨fun glyph hMem => ?_, ?_⟩, zipWith_glyph_keys regionKey sectionKey hLength⟩
    · obtain ⟨i, hi, rfl⟩ := List.getElem_of_mem hMem
      rw [List.getElem_zipWith]
      have hCell := List.getElem_mem (l := cells) (n := i) (by simp at hi; omega)
      obtain ⟨hPositive, hWithin⟩ :=
        transactionGlyph_within regionKey sectionKey _ (hTiles.positive _ hCell)
      exact ⟨hPositive, hWithin.trans (hTiles.within hCell)⟩
    · refine List.pairwise_iff_getElem.mpr fun i j hi hj hLt => ?_
      rw [List.getElem_zipWith, List.getElem_zipWith]
      have hFirst := List.getElem_mem (l := cells) (n := i) (by simp at hi; omega)
      have hSecond := List.getElem_mem (l := cells) (n := j) (by simp at hj; omega)
      have hApart := List.pairwise_iff_getElem.mp hTiles.disjoint i j (by simp at hi; omega)
        (by simp at hj; omega) hLt
      exact hApart.mono
        (transactionGlyph_within _ _ _ (hTiles.positive _ hFirst)).2.interior_subset
        (transactionGlyph_within _ _ _ (hTiles.positive _ hSecond)).2.interior_subset

end Regions

/-- Drawings inside disjoint rectangles are one drawing. -/
theorem Drawn.flatMap {ι SectionKey RegionKey : Type} {outer : BucketTerrainRect} {items : List ι}
    {rect : ι → BucketTerrainRect} {glyphs : ι → List (BucketTerrainGlyph SectionKey RegionKey)}
    (hWithin : ∀ item ∈ items, (rect item).Within outer)
    (hApart : items.Pairwise fun first second =>
      Disjoint (rect first).interior (rect second).interior)
    (hDrawn : ∀ item ∈ items, Drawn (rect item) (glyphs item)) :
    Drawn outer (items.flatMap glyphs) where
  inside glyph hMem := by
    obtain ⟨item, hItem, hGlyph⟩ := List.mem_flatMap.mp hMem
    obtain ⟨hPositive, hInside⟩ := (hDrawn item hItem).inside glyph hGlyph
    exact ⟨hPositive, hInside.trans (hWithin item hItem)⟩
  apart := by
    rw [List.pairwise_flatMap]
    refine ⟨fun item hItem => (hDrawn item hItem).apart, hApart.imp_of_mem ?_⟩
    intro first second hFirst hSecond hDisjoint glyph hGlyph other hOther
    exact hDisjoint.mono ((hDrawn first hFirst).inside glyph hGlyph).2.interior_subset
      ((hDrawn second hSecond).inside other hOther).2.interior_subset

/-- What is drawn in a part is drawn in the whole. -/
theorem Drawn.within {SectionKey RegionKey : Type} {inner outer : BucketTerrainRect}
    {glyphs : List (BucketTerrainGlyph SectionKey RegionKey)} (h : Drawn inner glyphs)
    (hWithin : inner.Within outer) : Drawn outer glyphs where
  inside glyph hMem := ⟨(h.inside glyph hMem).1, (h.inside glyph hMem).2.trans hWithin⟩
  apart := h.apart

-- ---------------------------------------------------------------------------
-- The levels of a layout
-- ---------------------------------------------------------------------------

/-- Rows weigh something. -/
theorem metric_pos {transactions : List MempoolEntry} (hSome : transactions ≠ [])
    (hVsize : ∀ transaction ∈ transactions, 0 < transaction.vsize) (mode : BucketTerrainMode) :
    0 < metric transactions mode := by
  obtain ⟨first, rest, rfl⟩ := List.exists_cons_of_ne_nil hSome
  cases mode with
  | count => exact Nat.succ_pos _
  | vsize =>
    have hFirst := hVsize first List.mem_cons_self
    show 0 < ((first :: rest).map MempoolEntry.vsize).sum
    rw [List.map_cons, List.sum_cons]
    omega

/-- Looked up by their keys, the rectangles of weighted items tile. -/
theorem splitWeightedRegions_map {α Key : Type} [DecidableEq Key] {items : List α}
    (key : α → Key) (weight : α → ℚ) (fallback : BucketTerrainRect) (hItems : items ≠ [])
    (hKeys : (items.map key).Nodup) (hWeights : ∀ item ∈ items, 0 < weight item)
    {rect : BucketTerrainRect} (hRect : rect.Positive) :
    Tiles rect (items.map fun item =>
      ((splitWeightedRegions (items.map fun item => WeightedItem.mk (key item) (weight item))
        rect).get? (key item)).getD fallback) := by
  have hMapped : (items.map fun item => WeightedItem.mk (key item) (weight item)) ≠ [] := by
    simpa using hItems
  obtain ⟨cells, hTiles, hCells, -⟩ := splitWeightedRegions_tiles hMapped
    (by rw [List.map_map]; exact hKeys) (fun found hFound => by
      obtain ⟨item, hItem, rfl⟩ := List.mem_map.mp hFound
      exact hWeights item hItem) hRect
  rw [List.forall₂_map_left_iff] at hCells
  have hSame : (items.map fun item =>
      ((splitWeightedRegions (items.map fun item => WeightedItem.mk (key item) (weight item))
        rect).get? (key item)).getD fallback) = cells := by
    refine List.forall₂_eq_eq_eq ▸ ?_
    rw [List.forall₂_map_left_iff]
    exact hCells.imp fun item cell hCell => by rw [hCell.1]; rfl
  rw [hSame]
  exact hTiles

section Structure

variable {SectionKey RegionKey Signature : Type}

/-- A group structure nothing of which is empty: distinct keys, and one region where a
section is not nested. -/
structure GroupStructure
    (groups : List (BucketTerrainSectionGroup SectionKey RegionKey Signature)) : Prop where
  sectionKeys : (groups.map (·.key)).Nodup
  regionKeys : ∀ group ∈ groups, (group.regions.map (·.key)).Nodup
  single : ∀ group ∈ groups, group.nested = false → group.regions.length = 1
  sections : ∀ group ∈ groups, group.transactions ≠ []
  regions : ∀ group ∈ groups, ∀ region ∈ group.regions, region.transactions ≠ []
  vsizes : ∀ group ∈ groups, (∀ transaction ∈ group.transactions, 0 < transaction.vsize) ∧
    ∀ region ∈ group.regions, ∀ transaction ∈ region.transactions, 0 < transaction.vsize

variable [DecidableEq SectionKey] [DecidableEq RegionKey] (mode : BucketTerrainMode)
  {groups : List (BucketTerrainSectionGroup SectionKey RegionKey Signature)}

omit [DecidableEq RegionKey] in
/-- The sections tile the canvas. -/
theorem tiles_sections (h : GroupStructure groups) (hGroups : groups ≠ [])
    {canvas : BucketTerrainRect} (hCanvas : canvas.Positive) :
    Tiles canvas (groups.map fun group =>
      ((splitWeightedRegions (groups.map fun group =>
        WeightedItem.mk group.key (metric group.transactions mode : ℚ)) canvas).get?
          group.key).getD ⟨0, 0, 0, 0⟩) :=
  splitWeightedRegions_map (·.key) (fun group => (metric group.transactions mode : ℚ)) _ hGroups
    h.sectionKeys (fun group hMem => Nat.cast_pos.mpr
      (metric_pos (h.sections group hMem) (h.vsizes group hMem).1 mode)) hCanvas

omit [DecidableEq SectionKey] in
/-- The regions tile their section. -/
theorem tiles_regions (h : GroupStructure groups)
    {group : BucketTerrainSectionGroup SectionKey RegionKey Signature} (hMem : group ∈ groups)
    (hRegions : group.regions ≠ []) {contentRect : BucketTerrainRect}
    (hContent : contentRect.Positive) :
    Tiles contentRect (group.regions.map fun regionGroup =>
      ((regionRects mode contentRect group).get? regionGroup.key).getD contentRect) := by
  unfold regionRects
  cases hNested : group.nested with
  | true =>
    exact splitWeightedRegions_map (·.key)
      (fun regionGroup => (metric regionGroup.transactions mode : ℚ)) _ hRegions
      (h.regionKeys group hMem) (fun regionGroup hRegion => Nat.cast_pos.mpr
        (metric_pos (h.regions group hMem regionGroup hRegion)
          ((h.vsizes group hMem).2 regionGroup hRegion) mode)) hContent
  | false =>
    obtain ⟨only, hOnly⟩ := List.length_eq_one_iff.mp (h.single group hMem hNested)
    have hRect : (((InsertionMap.empty.set only.key contentRect).get? only.key).getD
        contentRect : BucketTerrainRect) = contentRect := by
      rw [InsertionMap.get?_set, if_pos rfl]
      rfl
    rw [hOnly]
    simp only [Bool.false_eq_true, if_false, List.head?_cons, List.map_singleton, hRect]
    exact Tiles.single hContent

omit [DecidableEq SectionKey] in
/-- The regions of a section: content inside the section's, apart, under the groups' keys. -/
theorem layoutRegions_spec (h : GroupStructure groups)
    {group : BucketTerrainSectionGroup SectionKey RegionKey Signature} (hMem : group ∈ groups)
    {contentRect : BucketTerrainRect} (hContent : contentRect.Positive) :
    (∀ entry ∈ layoutRegions mode contentRect group, entry.1.contentRect.Positive ∧
      entry.1.contentRect.Within contentRect) ∧
    (layoutRegions mode contentRect group).Pairwise fun first second =>
      Disjoint first.1.contentRect.interior second.1.contentRect.interior := by
  rcases eq_or_ne group.regions [] with hNone | hSome
  · rw [layoutRegions, hNone]
    exact ⟨fun entry hEntry => (nomatch hEntry), List.Pairwise.nil⟩
  · have hTiles := tiles_regions mode h hMem hSome hContent
    have hRaw : ∀ regionGroup ∈ group.regions,
        (((regionRects mode contentRect group).get? regionGroup.key).getD contentRect).Positive ∧
          (((regionRects mode contentRect group).get? regionGroup.key).getD contentRect).Within
            contentRect := fun regionGroup hRegion =>
      ⟨hTiles.positive _ (List.mem_map_of_mem hRegion), hTiles.within (List.mem_map_of_mem hRegion)⟩
    constructor
    · intro entry hEntry
      obtain ⟨regionGroup, hRegion, rfl⟩ := List.mem_map.mp hEntry
      obtain ⟨hPositive, hWithin⟩ := layoutRegion_within mode (hRaw regionGroup hRegion).1
        group.nested group.key regionGroup
      exact ⟨hPositive, hWithin.trans (hRaw regionGroup hRegion).2⟩
    · refine List.pairwise_map.mpr ((List.pairwise_map.mp hTiles.disjoint).imp_of_mem ?_)
      intro first second hFirst hSecond hApart
      exact hApart.mono
        (layoutRegion_within mode (hRaw first hFirst).1 _ _ first).2.interior_subset
        (layoutRegion_within mode (hRaw second hSecond).1 _ _ second).2.interior_subset

omit [DecidableEq RegionKey] in
/-- The sections of a canvas: content inside it and apart. -/
theorem layoutSections_spec (h : GroupStructure groups) {canvas : BucketTerrainRect}
    (hCanvas : canvas.Positive) :
    (∀ entry ∈ layoutSections mode canvas groups, entry.1.contentRect.Positive ∧
      entry.1.contentRect.Within canvas ∧ entry.2 ∈ groups) ∧
    (layoutSections mode canvas groups).Pairwise fun first second =>
      Disjoint first.1.contentRect.interior second.1.contentRect.interior := by
  rcases eq_or_ne groups [] with rfl | hSome
  · exact ⟨fun entry hEntry => (nomatch hEntry), List.Pairwise.nil⟩
  · have hTiles := tiles_sections mode h hSome hCanvas
    have hRaw := fun group hGroup => hTiles.positive _ (List.mem_map_of_mem (a := group) hGroup)
    constructor
    · intro entry hEntry
      obtain ⟨group, hGroup, rfl⟩ := List.mem_map.mp hEntry
      obtain ⟨hPositive, hWithin⟩ := layoutSection_within mode (hRaw group hGroup) group
      exact ⟨hPositive, hWithin.trans (hTiles.within (List.mem_map_of_mem hGroup)), hGroup⟩
    · refine List.pairwise_map.mpr ((List.pairwise_map.mp hTiles.disjoint).imp_of_mem ?_)
      intro first second hFirst hSecond hApart
      exact hApart.mono (layoutSection_within mode (hRaw first hFirst) first).2.interior_subset
        (layoutSection_within mode (hRaw second hSecond) second).2.interior_subset

/-- The glyphs of a section. -/
def sectionGlyphs (drawn : BucketTerrainSection SectionKey)
    (group : BucketTerrainSectionGroup SectionKey RegionKey Signature) :
    List (BucketTerrainGlyph SectionKey RegionKey) :=
  (layoutRegions mode drawn.contentRect group).flatMap fun (region, regionGroup) =>
    packTransactions region.key region.sectionKey regionGroup.transactions region.contentRect mode

omit [DecidableEq SectionKey] in
/-- The rows of a section are drawn in it. -/
theorem sectionGlyphs_drawn (h : GroupStructure groups)
    {group : BucketTerrainSectionGroup SectionKey RegionKey Signature} (hMem : group ∈ groups)
    {drawn : BucketTerrainSection SectionKey} (hContent : drawn.contentRect.Positive) :
    Drawn drawn.contentRect (sectionGlyphs mode drawn group) ∧
      (sectionGlyphs mode drawn group).map
          (fun glyph => (glyph.sectionKey, glyph.regionKey, glyph.txid)) =
        group.regions.flatMap fun regionGroup => regionGroup.transactions.map fun transaction =>
          (group.key, regionGroup.key, transaction.txid) := by
  obtain ⟨hInside, hApart⟩ := layoutRegions_spec mode h hMem hContent
  have hPacked : ∀ entry ∈ layoutRegions mode drawn.contentRect group,
      Drawn entry.1.contentRect (packTransactions entry.1.key entry.1.sectionKey
          entry.2.transactions entry.1.contentRect mode) ∧
        (packTransactions entry.1.key entry.1.sectionKey entry.2.transactions
          entry.1.contentRect mode).map
            (fun glyph => (glyph.sectionKey, glyph.regionKey, glyph.txid)) =
          entry.2.transactions.map fun transaction =>
            (entry.1.sectionKey, entry.1.key, transaction.txid) := by
    intro entry hEntry
    obtain ⟨regionGroup, hRegion, rfl⟩ := List.mem_map.mp hEntry
    exact packTransactions_drawn _ _ ((h.vsizes group hMem).2 regionGroup hRegion)
      (hInside _ hEntry).1 mode
  constructor
  · exact Drawn.flatMap (fun entry hEntry => (hInside entry hEntry).2) hApart
      fun entry hEntry => (hPacked entry hEntry).1
  · rw [sectionGlyphs, List.map_flatMap, List.flatMap_congr fun entry hEntry =>
      (hPacked entry hEntry).2, layoutRegions, List.flatMap_map]
    rfl

/-- A layout with one glyph for each transaction of each region, inside the region's content. -/
structure DrawsEach
    (groups : List (BucketTerrainSectionGroup SectionKey RegionKey Signature))
    (layout : BucketTerrainLayout SectionKey RegionKey Signature) : Prop where
  regions : layout.regions.map (fun region => (region.sectionKey, region.key)) =
    groups.flatMap fun group => group.regions.map fun regionGroup => (group.key, regionGroup.key)
  glyphs : layout.glyphs.map (fun glyph => (glyph.sectionKey, glyph.regionKey, glyph.txid)) =
    groups.flatMap fun group => group.regions.flatMap fun regionGroup =>
      regionGroup.transactions.map fun transaction =>
        (group.key, regionGroup.key, transaction.txid)
  inside : ∀ glyph ∈ layout.glyphs, 0 < glyph.rect.area ∧
    ∃ region ∈ layout.regions, region.sectionKey = glyph.sectionKey ∧
      region.key = glyph.regionKey ∧ glyph.rect.Within region.contentRect
  apart : layout.glyphs.Pairwise fun first second =>
    Disjoint first.rect.interior second.rect.interior

/-- **The layout draws each row once**, where it belongs. -/
theorem createBucketTerrainLayout_drawsEach (h : GroupStructure groups) (width height : ℚ) :
    DrawsEach groups (createBucketTerrainLayout mode groups width height) := by
  have hCanvas : Rect.Positive (⟨0, 0, max 1 width, max 1 height⟩ : BucketTerrainRect) :=
    ⟨zero_lt_one.trans_le (le_max_left _ _), zero_lt_one.trans_le (le_max_left _ _)⟩
  obtain ⟨hInside, hApart⟩ := layoutSections_spec mode h hCanvas
  have hGlyphs : (createBucketTerrainLayout mode groups width height).glyphs =
      (layoutSections mode ⟨0, 0, max 1 width, max 1 height⟩ groups).flatMap
        fun (drawn, group) => sectionGlyphs mode drawn group := List.flatMap_assoc
  have hSection : ∀ entry ∈ layoutSections mode ⟨0, 0, max 1 width, max 1 height⟩ groups,
      Drawn entry.1.contentRect (sectionGlyphs mode entry.1 entry.2) ∧
        (sectionGlyphs mode entry.1 entry.2).map
            (fun glyph => (glyph.sectionKey, glyph.regionKey, glyph.txid)) =
          entry.2.regions.flatMap fun regionGroup => regionGroup.transactions.map
            fun transaction => (entry.2.key, regionGroup.key, transaction.txid) :=
    fun entry hEntry =>
      sectionGlyphs_drawn mode h (hInside entry hEntry).2.2 (hInside entry hEntry).1
  have hDrawn : Drawn ⟨0, 0, max 1 width, max 1 height⟩
      (createBucketTerrainLayout mode groups width height).glyphs := by
    rw [hGlyphs]
    exact Drawn.flatMap (fun entry hEntry => (hInside entry hEntry).2.1) hApart
      fun entry hEntry => (hSection entry hEntry).1
  refine ⟨?_, ?_, fun glyph hGlyph => ⟨(hDrawn.inside glyph hGlyph).1.area_pos, ?_⟩, hDrawn.apart⟩
  · simp only [createBucketTerrainLayout, layoutSections, layoutRegions, List.flatMap_map,
      List.map_map, List.map_flatMap]
    rfl
  · rw [hGlyphs, List.map_flatMap, List.flatMap_congr fun entry hEntry =>
      (hSection entry hEntry).2, layoutSections, List.flatMap_map]
  · rw [hGlyphs] at hGlyph
    obtain ⟨⟨drawn, group⟩, hEntry, hGlyph⟩ := List.mem_flatMap.mp hGlyph
    obtain ⟨⟨region, regionGroup⟩, hRegion, hPacked⟩ := List.mem_flatMap.mp hGlyph
    obtain ⟨hContent, -, hGroup⟩ := hInside _ hEntry
    obtain ⟨hPositive, -⟩ := (layoutRegions_spec mode h hGroup hContent).1 _ hRegion
    have hMember : regionGroup ∈ group.regions := by
      obtain ⟨found, hFound, hSame⟩ := List.mem_map.mp hRegion
      exact (Prod.mk.inj hSame).2 ▸ hFound
    obtain ⟨hRegionDrawn, hKeys⟩ := packTransactions_drawn region.key region.sectionKey
      ((h.vsizes group hGroup).2 regionGroup hMember) hPositive mode
    have hKey := List.mem_map_of_mem
      (f := fun glyph => (glyph.sectionKey, glyph.regionKey, glyph.txid)) hPacked
    rw [hKeys] at hKey
    obtain ⟨transaction, -, hSame⟩ := List.mem_map.mp hKey
    refine ⟨region, ?_, (Prod.mk.inj hSame).1, (Prod.mk.inj (Prod.mk.inj hSame).2).1,
      (hRegionDrawn.inside glyph hPacked).2⟩
    exact List.mem_map.mpr ⟨_, List.mem_flatMap.mpr ⟨_, hEntry, hRegion⟩, rfl⟩

end Structure

/-- With nothing to place, no rectangles cover the parent. -/
theorem terrain_tiling_empty :
    ¬ ∀ (items : List (WeightedItem String)) (rect : BucketTerrainRect), rect.Positive →
      (items.map (·.key)).Nodup → (∀ item ∈ items, 0 < item.weight) →
      ∃ cells : List BucketTerrainRect, Tiles rect cells ∧ List.Forall₂ (fun item cell =>
        (splitWeightedRegions items rect).get? item.key = some cell ∧
          cell.area = rect.area * (item.weight / (items.map (·.weight)).sum)) items cells := by
  intro h
  obtain ⟨cells, hTiles, hCells⟩ := h [] ⟨0, 0, 1, 1⟩ ⟨zero_lt_one, zero_lt_one⟩ List.nodup_nil
    fun item hItem => (nomatch hItem)
  cases hCells
  have hCorner : ((0, 0) : ℚ × ℚ) ∈ (⟨0, 0, 1, 1⟩ : BucketTerrainRect).points := by
    simp [Rect.points]
  obtain ⟨part, hPart, -⟩ := (hTiles.covers _).mp hCorner
  cases hPart

/-- Weighted regions, packed transactions and whole layouts tile what they are given, once
there is something to place. -/
theorem terrain_tiling {Key SectionKey RegionKey Signature : Type} [DecidableEq Key]
    [DecidableEq SectionKey] [DecidableEq RegionKey] (rect : BucketTerrainRect)
    (hRect : rect.Positive) (items : List (WeightedItem Key)) (hKeys : (items.map (·.key)).Nodup)
    (hWeights : ∀ item ∈ items, 0 < item.weight) (transactions : List MempoolEntry)
    (hVsize : ∀ transaction ∈ transactions, 0 < transaction.vsize) (regionKey : RegionKey)
    (sectionKey : SectionKey)
    (groups : List (BucketTerrainSectionGroup SectionKey RegionKey Signature))
    (hGroups : GroupStructure groups) (width height : ℚ) :
    (∀ key, ((splitWeightedRegions items rect).get? key).isSome = true ↔
      key ∈ items.map (·.key)) ∧
    (items ≠ [] → ∃ cells : List BucketTerrainRect, Tiles rect cells ∧
      List.Forall₂ (fun item cell => (splitWeightedRegions items rect).get? item.key = some cell ∧
        cell.area = rect.area * (item.weight / (items.map (·.weight)).sum)) items cells) ∧
    (transactions ≠ [] → (∀ mode, ∃ cells, Tiles rect cells ∧
        List.Forall₂ (fun transaction cell => cell.area =
          rect.area * (metric [transaction] mode / metric transactions mode)) transactions cells ∧
        packTransactions regionKey sectionKey transactions rect mode =
          List.zipWith (transactionGlyph regionKey sectionKey) transactions cells) ∧
      ∀ columns, 0 < columns → columns ≤ transactions.length → ∃ cells, Tiles rect cells ∧
        List.Forall₂ (fun _ cell => cell.area = rect.area * (1 / transactions.length)) transactions
          cells ∧
        packGrid regionKey sectionKey columns transactions rect =
          List.zipWith (transactionGlyph regionKey sectionKey) transactions cells) ∧
    ∀ mode, DrawsEach groups (createBucketTerrainLayout mode groups width height) := by
  refine ⟨fun key => ?_, fun hItems => ?_, fun hSome => ⟨fun mode => ?_, ?_⟩, fun mode => ?_⟩
  · rcases eq_or_ne items [] with rfl | hItems
    · rw [splitWeightedRegions, subdivideLoop_eq, List.flatMap_singleton, pieces]
      exact iff_of_false (by simp) (by simp)
    · obtain ⟨cells, -, hCells, hOnly⟩ := splitWeightedRegions_tiles hItems hKeys hWeights hRect
      rw [Option.isSome_iff_exists]
      constructor
      · rintro ⟨cell, hFound⟩
        exact hOnly key cell hFound
      · intro hMem
        obtain ⟨item, hItem, rfl⟩ := List.mem_map.mp hMem
        obtain ⟨i, hi, rfl⟩ := List.getElem_of_mem hItem
        exact ⟨_, ((List.forall₂_iff_get.mp hCells).2 i hi (hCells.length_eq ▸ hi)).1⟩
  · obtain ⟨cells, hTiles, hCells, -⟩ := splitWeightedRegions_tiles hItems hKeys hWeights hRect
    exact ⟨cells, hTiles, hCells⟩
  · exact packTransactions_cells regionKey sectionKey hSome hVsize hRect mode
  · exact fun columns hColumns hCount => packGrid_cells regionKey sectionKey hColumns hCount hRect
  · exact createBucketTerrainLayout_drawsEach mode hGroups width height

/-- Two keys of weights one and two, and a section of one region with one row. -/
theorem terrain_tiling_oneRow :
    let items : List (WeightedItem String) := [⟨"a", 1⟩, ⟨"b", 2⟩]
    let groups : List (BucketTerrainSectionGroup String String Unit) :=
      [⟨"s", [sampleRow "0a" 100], [⟨"r", "s", (), [sampleRow "0a" 100]⟩], false⟩]
    (∃ cells : List BucketTerrainRect, Tiles ⟨0, 0, 3, 1⟩ cells ∧ cells.length = 2) ∧
      DrawsEach groups (createBucketTerrainLayout .vsize groups 640 480) ∧ items.length = 2 := by
  intro items groups
  have hGroups : GroupStructure groups :=
    ⟨by simp [groups], by simp [groups], by simp [groups], by simp [groups], by simp [groups],
      by simp [groups, sampleRow]⟩
  obtain ⟨-, hItems, -, hDraws⟩ := terrain_tiling ⟨0, 0, 3, 1⟩ ⟨by norm_num, by norm_num⟩ items
    (by simp [items]) (by simp [items]) [sampleRow "0a" 100] (by simp [sampleRow]) "r" "s" groups
    hGroups 640 480
  obtain ⟨cells, hTiles, hCells⟩ := hItems (List.cons_ne_nil _ _)
  exact ⟨⟨cells, hTiles, hCells.length_eq.symm⟩, hDraws .vsize, rfl⟩

end MempoolAtlas.Web
