import Mathlib.Tactic

/-!
# Byte-weighted LRU lists

A bounded cache as the list of its entries, the least recently used first: what it
holds for a key, what a use does to the order, and which entries leave to make room.

## Results

* `total_shrink_le` — a shrunk list is within its bound.
* `lt_total_of_lt_evictions` — no entry leaves before it has to.
-/

namespace MempoolAtlas.Lru

variable {κ ν : Type}

-- ---------------------------------------------------------------------------
-- Making room
-- ---------------------------------------------------------------------------

section Weight

variable (weight : ν → Nat)

def total (entries : List (κ × ν)) : Nat := (entries.map fun entry => weight entry.2).sum

/-- How many of the least recent entries have to leave to meet a bound: as few as
possible. -/
def evictions (bound : Nat) (entries : List (κ × ν)) : Nat :=
  (List.range entries.length).findIdx fun count => total weight (entries.drop count) ≤ bound

/-- The entries that stay under a bound. -/
def shrink (bound : Nat) (entries : List (κ × ν)) : List (κ × ν) :=
  entries.drop (evictions weight bound entries)

variable {weight} {bound : Nat} {entries : List (κ × ν)}

theorem shrink_of_le (h : total weight entries ≤ bound) : shrink weight bound entries = entries := by
  cases entries with
  | nil => rfl
  | cons entry rest =>
    have hNone : evictions weight bound (entry :: rest) = 0 := by
      rw [evictions, List.length_cons, List.range_succ_eq_map, List.findIdx_cons]
      simp [h]
    rw [shrink, hNone, List.drop_zero]

/-- While the bound is not met, the least recent entry leaves. -/
theorem shrink_cons_of_lt {entry : κ × ν} (h : bound < total weight (entry :: entries)) :
    shrink weight bound (entry :: entries) = shrink weight bound entries := by
  have hOne : evictions weight bound (entry :: entries) = evictions weight bound entries + 1 := by
    rw [evictions, List.length_cons, List.range_succ_eq_map, List.findIdx_cons]
    have hOver : decide (total weight ((entry :: entries).drop 0) ≤ bound) = false := by
      rw [decide_eq_false_iff_not, List.drop_zero, not_le]
      exact h
    rw [hOver, cond_false, List.findIdx_map]
    rfl
  rw [shrink, hOne, List.drop_succ_cons, shrink]

theorem total_shrink_le (bound : Nat) (entries : List (κ × ν)) :
    total weight (shrink weight bound entries) ≤ bound := by
  induction entries with
  | nil => exact Nat.zero_le _
  | cons entry rest ih =>
    rcases Nat.lt_or_ge bound (total weight (entry :: rest)) with hOver | hFits
    · rw [shrink_cons_of_lt hOver]
      exact ih
    · rw [shrink_of_le hFits]
      exact hFits

/-- **No shorter prefix would do.** -/
theorem lt_total_of_lt_evictions {count : Nat} (h : count < evictions weight bound entries) :
    bound < total weight (entries.drop count) := by
  have hNot := List.not_of_lt_findIdx h
  rw [List.getElem_range] at hNot
  simpa using hNot

end Weight

-- ---------------------------------------------------------------------------
-- Using an entry
-- ---------------------------------------------------------------------------

variable [DecidableEq κ]

/-- The entries without the one of a key. -/
def without (key : κ) (entries : List (κ × ν)) : List (κ × ν) :=
  entries.filter fun entry => entry.1 ≠ key

/-- A use moves the entry of the key to the most recent end. -/
def touch (key : κ) (entries : List (κ × ν)) : List (κ × ν) :=
  match entries.lookup key with
  | none => entries
  | some value => without key entries ++ [(key, value)]

variable {key : κ} {value : ν} {entries : List (κ × ν)}

theorem lookup_eq_some_iff (hNodup : (entries.map Prod.fst).Nodup) :
    entries.lookup key = some value ↔ (key, value) ∈ entries := by
  induction entries with
  | nil => simp
  | cons entry rest ih =>
    obtain ⟨key', value'⟩ := entry
    obtain ⟨hFresh, hRest⟩ := List.nodup_cons.mp hNodup
    rw [List.lookup_cons, List.mem_cons, Prod.mk.injEq]
    by_cases hKey : key = key'
    · subst hKey
      have hAbsent : (key, value) ∉ rest := fun hMem =>
        hFresh (List.mem_map.mpr ⟨(key, value), hMem, rfl⟩)
      simp [hAbsent, eq_comm]
    · have hOther : (key == key') = false := by simpa using hKey
      rw [hOther, ih hRest]
      simp [hKey]

theorem without_of_absent (h : key ∉ entries.map Prod.fst) : without key entries = entries := by
  refine List.filter_eq_self.mpr fun entry hMem => ?_
  rw [decide_eq_true_eq]
  rintro rfl
  exact h (List.mem_map_of_mem hMem)

end MempoolAtlas.Lru
