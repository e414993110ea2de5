import Mathlib.Data.List.Sort

/-!
# Sorting rows by a key

Rows sorted by a key are strictly increasing exactly when no key repeats, which
a look at neighbours decides. Distinct keys leave only one sorted list, so the
order the rows came in does not matter.

## Results

* `pairwise_lt_iff` — sorted rows increase strictly just when no key repeats.
* `sortBy_eq_of_perm` — with distinct keys the order of arrival is forgotten.
-/

namespace MempoolAtlas.KeyedSort

universe u v

variable {α : Type u} {κ : Type v} [LinearOrder κ] (key : α → κ)

/-- The rows in the order of their keys. -/
def sortBy (rows : List α) : List α := rows.mergeSort fun left right => key left ≤ key right

/-- The first two neighbours with one key. -/
def repeatedNeighbours (rows : List α) : Option (α × α) :=
  (rows.zip rows.tail).find? fun (left, right) => key left == key right

variable {key}

theorem perm_sortBy (rows : List α) : (sortBy key rows).Perm rows := List.mergeSort_perm ..

theorem pairwise_sortBy (rows : List α) :
    (sortBy key rows).Pairwise fun left right => key left ≤ key right := by
  have hSorted := @List.pairwise_mergeSort _ (fun left right => decide (key left ≤ key right))
    (fun a b c hab hbc => by
      rw [decide_eq_true_eq] at hab hbc ⊢
      exact hab.trans hbc)
    (fun a b => by
      rw [Bool.or_eq_true, decide_eq_true_eq, decide_eq_true_eq]
      exact le_total _ _) rows
  exact hSorted.imp fun h => by simpa using h

/-- In sorted rows, no neighbours share a key exactly when no rows do. -/
theorem repeatedNeighbours_eq_none {rows : List α}
    (hSorted : rows.Pairwise fun left right => key left ≤ key right) :
    repeatedNeighbours key rows = none ↔ rows.Pairwise fun left right => key left < key right := by
  unfold repeatedNeighbours
  induction rows with
  | nil => simp
  | cons first rest ih =>
    cases rest with
    | nil => simp
    | cons second rest =>
      obtain ⟨hFirst, hRest⟩ := List.pairwise_cons.mp hSorted
      have hLe : key first ≤ key second := hFirst second List.mem_cons_self
      have hTail := ih hRest
      rw [List.tail_cons] at hTail ⊢
      rw [List.zip_cons_cons]
      by_cases hSame : key first = key second
      · rw [List.find?_cons_of_pos (by simpa using hSame)]
        constructor
        · intro h
          cases h
        · intro h
          exact absurd ((List.pairwise_cons.mp h).1 second List.mem_cons_self) hSame.not_lt
      · rw [List.find?_cons_of_neg (by simpa using hSame), hTail]
        refine ⟨fun h => List.Pairwise.cons (fun row hRow => ?_) h,
          fun h => (List.pairwise_cons.mp h).2⟩
        have hLt : key first < key second := lt_of_le_of_ne hLe hSame
        rcases List.mem_cons.mp hRow with rfl | hRow
        · exact hLt
        · exact hLt.trans ((List.pairwise_cons.mp h).1 row hRow)

theorem pairwise_lt_iff {rows : List α}
    (hSorted : rows.Pairwise fun left right => key left ≤ key right) :
    (rows.Pairwise fun left right => key left < key right) ↔ (rows.map key).Nodup := by
  rw [List.Nodup, List.pairwise_map]
  constructor
  · exact fun h => h.imp ne_of_lt
  · exact fun h => hSorted.imp₂ (fun _ _ => lt_of_le_of_ne) h

theorem repeatedNeighbours_sortBy {rows : List α} :
    repeatedNeighbours key (sortBy key rows) = none ↔ (rows.map key).Nodup := by
  have hSorted := @pairwise_sortBy _ _ _ key rows
  rw [repeatedNeighbours_eq_none hSorted, pairwise_lt_iff hSorted]
  exact ((perm_sortBy rows).map key).nodup_iff

theorem pairwise_lt_sortBy {rows : List α} (hDistinct : (rows.map key).Nodup) :
    (sortBy key rows).Pairwise fun left right => key left < key right :=
  (repeatedNeighbours_eq_none (pairwise_sortBy rows)).mp (repeatedNeighbours_sortBy.mpr hDistinct)

/-- With distinct keys the order of arrival is forgotten. -/
theorem sortBy_eq_of_perm {rows rows' : List α} (hPerm : rows.Perm rows')
    (hDistinct : (rows.map key).Nodup) : sortBy key rows = sortBy key rows' := by
  have hDistinct' : (rows'.map key).Nodup := (hPerm.map key).nodup_iff.mp hDistinct
  have hSame : (sortBy key rows).Perm (sortBy key rows') :=
    (perm_sortBy rows).trans (hPerm.trans (perm_sortBy rows').symm)
  exact hSame.eq_of_pairwise (fun _ _ _ _ hLt hGt => absurd (hLt.trans hGt) (lt_irrefl _))
    (pairwise_lt_sortBy hDistinct) (pairwise_lt_sortBy hDistinct')

end MempoolAtlas.KeyedSort
