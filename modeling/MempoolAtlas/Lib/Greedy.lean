import MempoolAtlas.Lib.Machine

/-!
# Greedy prefixes

A greedy pass over weighted items takes them in order while it has taken fewer than
its capacity and the next one fits its bound; the first item always fits. What it takes
is the longest prefix that is allowed.

## Results

* `greedy_prefix` — what is taken is a prefix.
* `greedy_takes_iff` — an item is taken just when all before it are and it may be next.
-/

namespace MempoolAtlas.Greedy

open Machine

variable {α : Type} (weight : α → Nat)

/-- The weight of some items, saturating. -/
def weigh (items : List α) : Nat :=
  items.foldl (fun total item => saturatingAdd total (weight item)) 0

/-- A saturating sum is the sum, cut off. -/
theorem weigh_eq (items : List α) : weigh weight items = min (items.map weight).sum u64Max := by
  rw [weigh, foldl_saturatingAdd weight items (Nat.zero_le _), Nat.zero_add]

/-- One more item adds its weight. -/
theorem weigh_append_singleton (items : List α) (item : α) :
    weigh weight (items ++ [item]) = saturatingAdd (weigh weight items) (weight item) := by
  rw [weigh, List.foldl_append]
  rfl

/-- Fewer items weigh no more. -/
theorem weigh_mono {items items' : List α} (h : items.Sublist items') :
    weigh weight items ≤ weigh weight items' := by
  rw [weigh_eq, weigh_eq]
  have hSum := (h.map weight).sum_le_sum fun _ _ => Nat.zero_le _
  omega

theorem weigh_singleton_le {items : List α} {item : α} (h : item ∈ items) :
    weigh weight [item] ≤ weigh weight items :=
  weigh_mono weight (List.singleton_sublist.mpr h)

variable (capacity bound : Nat)

/-- How many items a pass has taken at its end, after `length` that weigh `total`. -/
def greedyLength : List α → Nat → Nat → Nat
  | [], length, _ => length
  | next :: rest, length, total =>
    if length ≥ capacity then length
    else if length ≠ 0 ∧ saturatingAdd total (weight next) > bound then length
    else greedyLength rest (length + 1) (saturatingAdd total (weight next))

/-- Whether a pass that has taken `taken` takes `next` too. -/
def Takes (taken : List α) (next : α) : Prop :=
  taken.length < capacity ∧ (taken = [] ∨ weigh weight (taken ++ [next]) ≤ bound)

/-- **What the greedy loop takes**, from any point on. -/
theorem greedyLength_spec (rest taken : List α) :
    taken.length ≤ greedyLength weight capacity bound rest taken.length (weigh weight taken) ∧
      ∀ middle next after, rest = middle ++ next :: after →
        (taken.length + middle.length <
            greedyLength weight capacity bound rest taken.length (weigh weight taken) ↔
          Takes weight capacity bound (taken ++ middle) next) := by
  induction rest generalizing taken with
  | nil =>
    refine ⟨Nat.le_refl _, fun middle next after hSplit => ?_⟩
    simp at hSplit
  | cons first rest ih =>
    have hFirst : saturatingAdd (weigh weight taken) (weight first) =
        weigh weight (taken ++ [first]) := (weigh_append_singleton weight taken first).symm
    unfold greedyLength
    rw [hFirst]
    split
    · next hFull =>
      refine ⟨Nat.le_refl _, fun middle next after _ => ⟨fun hLt => ?_, fun hTakes => ?_⟩⟩
      · omega
      · have hLength := hTakes.1
        rw [List.length_append] at hLength
        omega
    · next hRoom =>
      split
      · next hHeavy =>
        refine ⟨Nat.le_refl _, fun middle next after hSplit => ⟨fun hLt => ?_, fun hTakes => ?_⟩⟩
        · omega
        · have hTaken : taken ≠ [] := fun hNil => hHeavy.1 (by rw [hNil]; rfl)
          -- whatever comes later includes the item that does not fit
          have hPrefix : (taken ++ [first]).Sublist (taken ++ middle ++ [next]) := by
            rw [List.append_assoc]
            refine List.Sublist.append_left ?_ taken
            cases middle with
            | nil =>
              obtain ⟨rfl, -⟩ := List.cons.inj hSplit
              exact List.Sublist.refl _
            | cons m middle =>
              obtain ⟨rfl, -⟩ := List.cons.inj hSplit
              exact (List.nil_sublist _).cons_cons first
          have hLe := weigh_mono weight hPrefix
          rcases hTakes.2 with hNil | hFits
          · exact absurd (List.append_eq_nil_iff.mp hNil).1 hTaken
          · omega
      · next hFits =>
        have hIh := ih (taken ++ [first])
        rw [List.length_append, List.length_singleton] at hIh
        refine ⟨Nat.le_of_succ_le hIh.1, fun middle next after hSplit => ?_⟩
        cases middle with
        | nil =>
          obtain ⟨rfl, -⟩ := List.cons.inj hSplit
          rw [List.append_nil, List.length_nil, Nat.add_zero]
          refine ⟨fun _ => ⟨Nat.not_le.mp hRoom, ?_⟩, fun _ => hIh.1⟩
          by_cases hNil : taken = []
          · exact Or.inl hNil
          · refine Or.inr (Nat.not_lt.mp fun hHeavy => hFits ⟨fun hZero => ?_, hHeavy⟩)
            exact hNil (List.length_eq_zero_iff.mp hZero)
        | cons m middle =>
          obtain ⟨rfl, hRest⟩ := List.cons.inj hSplit
          have hLater := hIh.2 middle next after hRest
          rw [List.append_assoc, List.singleton_append] at hLater
          rw [← hLater, List.length_cons]
          constructor <;> intro hLt <;> omega

/-- What a pass takes. -/
def greedy (items : List α) : List α :=
  items.take (greedyLength weight capacity bound items 0 0)

variable {items : List α}

/-- What is taken is a prefix. -/
theorem greedy_prefix : greedy weight capacity bound items <+: items := List.take_prefix _ _

/-- **A pass takes an item exactly when it takes all before it and may take it next.** -/
theorem greedy_takes_iff {taken : List α} {next : α} {after : List α}
    (hItems : items = taken ++ next :: after) :
    taken ++ [next] <+: greedy weight capacity bound items ↔
      Takes weight capacity bound taken next := by
  have hSpec := (greedyLength_spec weight capacity bound items []).2 taken next after hItems
  rw [List.nil_append, List.length_nil, Nat.zero_add] at hSpec
  rw [← hSpec, greedy]
  have hPrefix : taken ++ [next] <+: items := ⟨after, by rw [hItems]; simp⟩
  rw [List.prefix_take_iff, List.length_append, List.length_singleton, and_iff_right hPrefix]
  exact Nat.succ_le_iff

end MempoolAtlas.Greedy
