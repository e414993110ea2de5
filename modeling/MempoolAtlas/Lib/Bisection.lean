import Mathlib.Tactic

/-!
# Lower-bound search

Binary search over the half-open interval `[low, high)` for the first row that
is not below a bound. When the rows below it come first, the answer splits the
interval into those rows and the others; in rows with increasing keys it finds
the row of a key.

## Results

* `lowerBound_spec` — the answer splits the interval at the bound.
* `lowerBound_of_increasing` — with increasing keys, the row of a key.
-/

namespace MempoolAtlas.Bisection

universe u v

variable {α : Type u}

/-- The search loop; `none` when it reads past the rows. -/
def lowerBound (below : α → Bool) (rows : List α) (low high : Nat) : Option Nat :=
  if _h : low < high then
    let middle := low + (high - low) / 2
    match rows[middle]? with
    | none => none
    | some row =>
      if below row then lowerBound below rows (middle + 1) high
      else lowerBound below rows low middle
  else some low
termination_by high - low

/-- The rows below the bound come before the others. -/
def Splits (below : α → Bool) (rows : List α) : Prop :=
  rows.Pairwise fun row later => below later = true → below row = true

theorem Splits.getElem {below : α → Bool} {rows : List α} (h : Splits below rows) {i j : Nat}
    {row later : α} (hLt : i < j) (hRow : rows[i]? = some row) (hLater : rows[j]? = some later)
    (hBelow : below later = true) : below row = true := by
  obtain ⟨hi, rfl⟩ := List.getElem?_eq_some_iff.mp hRow
  obtain ⟨hj, rfl⟩ := List.getElem?_eq_some_iff.mp hLater
  exact List.pairwise_iff_getElem.mp h i j hi hj hLt hBelow

/-- Rows before the answer are below the bound, the answer and what follows are not. -/
theorem lowerBound_spec {below : α → Bool} {rows : List α} (hSplits : Splits below rows)
    {low high : Nat} (hHigh : high ≤ rows.length) (hLow : low ≤ high)
    (hBefore : ∀ i row, i < low → rows[i]? = some row → below row = true)
    (hAfter : ∀ i row, high ≤ i → rows[i]? = some row → below row = false) :
    ∃ found, lowerBound below rows low high = some found ∧
      (∀ i row, i < found → rows[i]? = some row → below row = true) ∧
      ∀ i row, found ≤ i → rows[i]? = some row → below row = false := by
  induction low, high using lowerBound.induct below rows with
  | case1 low high hLt middle hNone =>
    have hMiddle : middle < rows.length := by omega
    rw [List.getElem?_eq_getElem hMiddle] at hNone
    cases hNone
  | case2 low high hLt middle row hRow hBelow ih =>
    have hMiddle : middle < high := by omega
    have hStep : lowerBound below rows low high = lowerBound below rows (middle + 1) high := by
      rw [lowerBound, dif_pos hLt]
      show (match rows[middle]? with | none => none | some row => _) = _
      rw [hRow]
      exact if_pos hBelow
    rw [hStep]
    refine ih hHigh (by omega) (fun i other hi hOther => ?_) hAfter
    rcases Nat.lt_succ_iff_lt_or_eq.mp hi with hi | rfl
    · exact hSplits.getElem hi hOther hRow hBelow
    · rw [hRow] at hOther
      exact Option.some.inj hOther ▸ hBelow
  | case3 low high hLt middle row hRow hNot ih =>
    have hMiddle : middle < high := by omega
    have hFalse : below row = false := Bool.eq_false_iff.mpr hNot
    have hStep : lowerBound below rows low high = lowerBound below rows low middle := by
      rw [lowerBound, dif_pos hLt]
      show (match rows[middle]? with | none => none | some row => _) = _
      rw [hRow]
      exact if_neg hNot
    rw [hStep]
    refine ih (by omega) (by omega) hBefore (fun i other hi hOther => ?_)
    rcases Nat.eq_or_lt_of_le hi with rfl | hi
    · rw [hRow] at hOther
      exact Option.some.inj hOther ▸ hFalse
    · by_contra hBelow
      exact hNot (hSplits.getElem hi hRow hOther (Bool.of_not_eq_false hBelow))
  | case4 low high hEnd =>
    rw [lowerBound, dif_neg hEnd]
    have hSame : low = high := by omega
    exact ⟨low, rfl, hBefore, fun i row hi => hAfter i row (hSame ▸ hi)⟩

variable {κ : Type v} [LinearOrder κ] {key : α → κ}

theorem splits_of_increasing {rows : List α}
    (hSorted : rows.Pairwise fun row later => key row < key later) (bound : κ) :
    Splits (fun row => decide (key row < bound)) rows :=
  hSorted.imp fun hLt hBelow => by
    rw [decide_eq_true_eq] at hBelow ⊢
    exact hLt.trans hBelow

/-- The row of a key in rows with increasing keys: searched for, then compared. -/
theorem lowerBound_of_increasing {rows : List α}
    (hSorted : rows.Pairwise fun row later => key row < key later) (bound : κ) :
    ∃ found, lowerBound (fun row => decide (key row < bound)) rows 0 rows.length = some found ∧
      ∀ i row, rows[i]? = some row ∧ key row = bound ↔
        i = found ∧ rows[found]? = some row ∧ key row = bound := by
  obtain ⟨found, hFound, hBefore, hAfter⟩ := lowerBound_spec (splits_of_increasing hSorted bound)
    le_rfl (Nat.zero_le _) (fun i _ hi => absurd hi (Nat.not_lt_zero i)) (fun i row hi hRow => by
      rw [List.getElem?_eq_none hi] at hRow
      cases hRow)
  refine ⟨found, hFound, fun i row => ⟨?_, ?_⟩⟩
  · rintro ⟨hRow, rfl⟩
    rcases Nat.lt_trichotomy i found with hLt | rfl | hGt
    · have hBelow := hBefore i row hLt hRow
      rw [decide_eq_true_eq] at hBelow
      exact absurd hBelow (lt_irrefl _)
    · exact ⟨rfl, hRow, rfl⟩
    · obtain ⟨hi, rfl⟩ := List.getElem?_eq_some_iff.mp hRow
      have hIn : found < rows.length := hGt.trans hi
      have hNot := hAfter found _ le_rfl (List.getElem?_eq_getElem hIn)
      rw [decide_eq_false_iff_not] at hNot
      exact absurd (List.pairwise_iff_getElem.mp hSorted found i hIn hi hGt) hNot
  · rintro ⟨rfl, hRow, hKey⟩
    exact ⟨hRow, hKey⟩

end MempoolAtlas.Bisection
