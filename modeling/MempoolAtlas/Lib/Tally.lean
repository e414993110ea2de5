import MempoolAtlas.Lib.BTree

/-!
# Tallies

A loop over a list that raises a counter for some of its items ends with the
number of those items; a map of counters starts at zero for its keys and each
`modify` raises the one it names.

## Results

* `foldl_count` — a counter ends with the number of counted items.
* `getElem?_foldl_modify` — a counter of a map with the number of times it was named.
-/

namespace MempoolAtlas

namespace Tally

universe u v

/-- A counter that each counted item raises by one. -/
theorem foldl_count {σ : Type u} {α : Type v} {step : σ → α → σ} (counter : σ → Nat)
    (counted : α → Bool) {items : List α}
    (hStep : ∀ state, ∀ item ∈ items,
      counter (step state item) = counter state + if counted item then 1 else 0) (state : σ) :
    counter (items.foldl step state) = counter state + items.countP counted := by
  induction items generalizing state with
  | nil => simp
  | cons item rest ih =>
    obtain ⟨hItem, hRest⟩ : (∀ state, counter (step state item) =
        counter state + if counted item then 1 else 0) ∧ ∀ state, ∀ other ∈ rest,
          counter (step state other) = counter state + if counted other then 1 else 0 :=
      ⟨fun state => hStep state item List.mem_cons_self,
        fun state other hMem => hStep state other (List.mem_cons_of_mem _ hMem)⟩
    rw [List.foldl_cons, ih hRest, hItem, List.countP_cons]
    omega

/-- The same for a counter that may be missing, and then stays so. -/
theorem foldl_count? {σ : Type u} {α : Type v} {step : σ → α → σ} (counter : σ → Option Nat)
    (counted : α → Bool) {items : List α}
    (hStep : ∀ state, ∀ item ∈ items,
      counter (step state item) = (counter state).map (· + if counted item then 1 else 0))
    (state : σ) :
    counter (items.foldl step state) = (counter state).map (· + items.countP counted) := by
  induction items generalizing state with
  | nil => simp
  | cons item rest ih =>
    rw [List.foldl_cons, ih fun state other hMem => hStep state other (List.mem_cons_of_mem _ hMem),
      hStep state item List.mem_cons_self, Option.map_map, List.countP_cons]
    refine congrArg (fun raise => (counter state).map raise) (funext fun n => ?_)
    simp only [Function.comp_apply]
    omega

end Tally

namespace BTreeMap

variable {κ : Type} [Ord κ] [Std.TransOrd κ] [Std.LawfulEqOrd κ]

omit [Std.LawfulEqOrd κ] in
theorem mem_ofList_iff [BEq κ] [LawfulBEq κ] [Std.LawfulBEqOrd κ] {ν : Type}
    {entries : List (κ × ν)} {key : κ} :
    key ∈ (Std.ExtTreeMap.ofList entries : BTreeMap κ ν) ↔ key ∈ entries.map Prod.fst := by
  rw [Std.ExtTreeMap.mem_ofList, List.contains_iff_mem]

theorem of_getElem?_ofList [DecidableEq κ] {ν : Type} {entries : List (κ × ν)} {key : κ} {value : ν}
    (h : (Std.ExtTreeMap.ofList entries : BTreeMap κ ν)[key]? = some value) :
    (key, value) ∈ entries := by
  rw [Std.ExtTreeMap.ofList_eq_foldl] at h
  rcases BTreeMap.of_getElem?_foldl_insert h with hMem | hNone
  · exact hMem
  · simp at hNone

/-- Counters that start at zero. -/
theorem getElem?_ofList_zero [DecidableEq κ] [Std.LawfulBEqOrd κ] (keys : List κ) (key : κ) :
    (Std.ExtTreeMap.ofList (keys.map fun key => (key, 0)) : BTreeMap κ Nat)[key]? =
      if key ∈ keys then some 0 else none := by
  cases hFound : (Std.ExtTreeMap.ofList (keys.map fun key => (key, 0)) : BTreeMap κ Nat)[key]? with
  | none =>
    rw [if_neg]
    intro hMem
    have hIn : key ∈ (Std.ExtTreeMap.ofList (keys.map fun key => (key, 0)) : BTreeMap κ Nat) := by
      rw [mem_ofList_iff, List.map_map]
      exact List.mem_map.mpr ⟨key, hMem, rfl⟩
    rw [Std.ExtTreeMap.mem_iff_isSome_getElem?, hFound] at hIn
    cases hIn
  | some value =>
    obtain ⟨other, hMem, hSame⟩ := List.mem_map.mp (of_getElem?_ofList hFound)
    obtain ⟨rfl, rfl⟩ := Prod.mk.inj hSame
    rw [if_pos hMem]

/-- A counter is raised as often as it is named. -/
theorem getElem?_foldl_modify [DecidableEq κ] (keys : List κ) (counts : BTreeMap κ Nat) (key : κ) :
    (keys.foldl (fun counts key => counts.modify key (· + 1)) counts)[key]? =
      counts[key]?.map (· + keys.count key) := by
  induction keys generalizing counts with
  | nil => simp
  | cons first rest ih =>
    rw [List.foldl_cons, ih, Std.ExtTreeMap.getElem?_modify, List.count_cons]
    simp only [Std.LawfulEqCmp.compare_eq_iff_eq, beq_iff_eq]
    by_cases hSame : first = key
    · rw [if_pos hSame, if_pos hSame, hSame, Option.map_map]
      refine congrArg (fun raise => counts[key]?.map raise) (funext fun n => ?_)
      simp only [Function.comp_apply]
      omega
    · rw [if_neg hSame, if_neg hSame, Nat.add_zero]

end BTreeMap

end MempoolAtlas
