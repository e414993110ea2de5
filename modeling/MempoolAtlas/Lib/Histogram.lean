import Mathlib.Algebra.BigOperators.Group.List.Basic
import Mathlib.Data.Rat.Floor
import Mathlib.Tactic

/-!
# Histograms

Cells that weights are added to one at a time, each at an index of the range;
whatever the indices, the cells sum to the weights. The index of a position in
the unit interval is in the range, the last one at its end.

## Results

* `binOf_inRange` — a position falls in a cell.
* `sum_raise` — a raised cell adds its weight to the sum.
-/

namespace MempoolAtlas.Histogram

/-- The cell of a position among `count` cells. -/
def binOf (count : Nat) (position : ℚ) : Int := min (count - 1) ⌊position * count⌋

/-- Add a weight to the cell at an index; there is none below zero. -/
def raise (cells : List Nat) (index : Int) (weight : Nat) : List Nat :=
  match index with
  | .ofNat place => cells.set place ((cells[place]?).getD 0 + weight)
  | .negSucc _ => cells

/-- An index of a range. -/
def InRange (count : Nat) (index : Int) : Prop := 0 ≤ index ∧ index < count

theorem binOf_inRange {count : Nat} (h : 0 < count) {position : ℚ} (hLower : 0 ≤ position) :
    InRange count (binOf count position) := by
  constructor
  · refine le_min (by omega) (Int.floor_nonneg.mpr (mul_nonneg hLower (Nat.cast_nonneg count)))
  · exact (min_le_left _ _).trans_lt (by omega)

/-- The cell of a row and a column. -/
theorem InRange.rowMajor {rows columns : Nat} {row column : Int} (hRow : InRange rows row)
    (hColumn : InRange columns column) :
    InRange (columns * rows) (row * columns + column) := by
  obtain ⟨hRowLow, hRowHigh⟩ := hRow
  obtain ⟨hColumnLow, hColumnHigh⟩ := hColumn
  constructor
  · exact add_nonneg (mul_nonneg hRowLow (Int.natCast_nonneg columns)) hColumnLow
  · have hStep : (row + 1) * columns ≤ (rows : Int) * columns :=
      mul_le_mul_of_nonneg_right hRowHigh (Int.natCast_nonneg columns)
    push_cast
    linarith

@[simp] theorem length_raise (cells : List Nat) (index : Int) (weight : Nat) :
    (raise cells index weight).length = cells.length := by
  cases index with
  | ofNat place => exact List.length_set
  | negSucc place => rfl

theorem sum_raise {cells : List Nat} {index : Int} (h : InRange cells.length index)
    (weight : Nat) : (raise cells index weight).sum = cells.sum + weight := by
  obtain ⟨place, rfl⟩ := Int.eq_ofNat_of_zero_le h.1
  have hPlace : place < cells.length := by exact_mod_cast h.2
  have hCell : cells[place]? = some cells[place] := List.getElem?_eq_getElem hPlace
  have hSplit : cells.sum =
      (cells.take place).sum + (cells[place] + (cells.drop (place + 1)).sum) := by
    rw [← List.sum_cons, ← List.drop_eq_getElem_cons hPlace, List.sum_take_add_sum_drop]
  show (cells.set place ((cells[place]?).getD 0 + weight)).sum = _
  rw [hCell, Option.getD_some, List.sum_set, if_pos hPlace, hSplit]
  omega

/-- An entry that weighs more where it stands. -/
theorem sum_map_set {α : Type} {weight : α → Nat} {entries : List α} {place gain : Nat}
    {old new : α} (hOld : entries[place]? = some old) (hNew : weight new = weight old + gain) :
    ((entries.set place new).map weight).sum = (entries.map weight).sum + gain := by
  obtain ⟨hPlace, rfl⟩ := List.getElem?_eq_some_iff.mp hOld
  have hCell : (entries.map weight)[place]? = some (weight entries[place]) := by
    rw [List.getElem?_map, hOld, Option.map_some]
  have hRaise : (entries.set place new).map weight = raise (entries.map weight) place gain := by
    show _ = (entries.map weight).set place _
    rw [List.map_set, hCell, Option.getD_some, hNew]
  rw [hRaise, sum_raise]
  exact ⟨Int.natCast_nonneg place, by rw [List.length_map]; exact_mod_cast hPlace⟩

/-- Cells read by their places are the cells. -/
theorem map_range_getD {cells : List Nat} {count : Nat} (h : cells.length = count) :
    ((List.range count).map fun place => (cells[place]?).getD 0) = cells := by
  refine List.ext_getElem (by simp [h]) fun place hLeft hRight => ?_
  rw [List.getElem_map, List.getElem_range, List.getElem?_eq_getElem hRight, Option.getD_some]

end MempoolAtlas.Histogram
