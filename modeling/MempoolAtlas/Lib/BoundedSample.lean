import Mathlib.Data.List.Sort
import Mathlib.Tactic

/-!
# Bounded samples

The first rows of an order, kept while the rows come by one at a time: each is
put behind the kept ones not after it, and what exceeds the limit is dropped.
However the rows come, the sample is the front of the sorted list.

## Results

* `foldl_add` — a bounded scan keeps the first items of the sorted whole.
* `sampled_eq` — whatever order they come in.
-/

namespace MempoolAtlas.BoundedSample

universe u

variable {α : Type u} (before : α → α → Bool) (limit : Nat)

/-- Put an item behind those not after it. -/
def insertSorted (item : α) : List α → List α
  | [] => [item]
  | first :: rest =>
    if before first item then first :: insertSorted item rest else item :: first :: rest

/-- The same on a sample of at most `limit` items, as a loop writes it. -/
def add (sample : List α) (item : α) : List α :=
  let index := sample.findIdx fun other => !before other item
  if limit ≤ index then sample
  else
    let inserted := sample.insertIdx index item
    if limit < inserted.length then inserted.dropLast else inserted

variable {before limit}

theorem insertSorted_cons_of_before {first item : α} (h : before first item = true)
    (rest : List α) :
    insertSorted before item (first :: rest) = first :: insertSorted before item rest := by
  rw [insertSorted, if_pos h]

theorem insertSorted_cons_of_not {first item : α} (h : before first item = false)
    (rest : List α) : insertSorted before item (first :: rest) = item :: first :: rest := by
  rw [insertSorted, h]
  exact if_neg Bool.false_ne_true

/-- An insertion adds one item. -/
theorem perm_insertSorted (sample : List α) (item : α) :
    (insertSorted before item sample).Perm (item :: sample) := by
  induction sample with
  | nil => exact List.Perm.refl _
  | cons first rest ih =>
    cases hBefore : before first item with
    | true =>
      rw [insertSorted_cons_of_before hBefore]
      exact (ih.cons first).trans (List.Perm.swap item first rest)
    | false => rw [insertSorted_cons_of_not hBefore]

/-- An insertion keeps the order. -/
theorem pairwise_insertSorted (hTrans : ∀ a b c, before a b → before b c → before a c)
    (hTotal : ∀ a b, before a b ∨ before b a) {sample : List α}
    (hSorted : sample.Pairwise (before · ·)) (item : α) :
    (insertSorted before item sample).Pairwise (before · ·) := by
  induction sample with
  | nil => exact List.pairwise_singleton _ item
  | cons first rest ih =>
    obtain ⟨hFirst, hRest⟩ := List.pairwise_cons.mp hSorted
    cases hBefore : before first item with
    | true =>
      rw [insertSorted_cons_of_before hBefore, List.pairwise_cons]
      refine ⟨fun other hMem => ?_, ih hRest⟩
      rcases List.mem_cons.mp ((perm_insertSorted rest item).mem_iff.mp hMem) with rfl | hMem
      · exact hBefore
      · exact hFirst other hMem
    | false =>
      have hItem : before item first = true :=
        (hTotal item first).resolve_right (by rw [hBefore]; exact Bool.false_ne_true)
      rw [insertSorted_cons_of_not hBefore, List.pairwise_cons]
      refine ⟨fun other hMem => ?_, hSorted⟩
      rcases List.mem_cons.mp hMem with rfl | hMem
      · exact hItem
      · exact hTrans _ _ _ hItem (hFirst other hMem)

/-- Only the kept items decide what is kept next. -/
theorem take_insertSorted (sample : List α) (item : α) :
    (insertSorted before item (sample.take limit)).take limit =
      (insertSorted before item sample).take limit := by
  induction sample generalizing limit with
  | nil => rw [List.take_nil]
  | cons first rest ih =>
    cases limit with
    | zero => rfl
    | succ limit =>
      rw [List.take_succ_cons]
      cases hBefore : before first item with
      | true =>
        rw [insertSorted_cons_of_before hBefore, insertSorted_cons_of_before hBefore,
          List.take_succ_cons, List.take_succ_cons, ih]
      | false =>
        rw [insertSorted_cons_of_not hBefore, insertSorted_cons_of_not hBefore,
          List.take_succ_cons, List.take_succ_cons]
        cases limit with
        | zero => rfl
        | succ limit =>
          rw [List.take_succ_cons, List.take_succ_cons, List.take_take,
            Nat.min_eq_left (Nat.le_succ limit)]

theorem insertIdx_findIdx (sample : List α) (item : α) :
    sample.insertIdx (sample.findIdx fun other => !before other item) item =
      insertSorted before item sample := by
  induction sample with
  | nil => rfl
  | cons first rest ih =>
    cases hBefore : before first item with
    | true =>
      rw [insertSorted_cons_of_before hBefore, List.findIdx_cons, hBefore, ← ih]
      rfl
    | false =>
      rw [insertSorted_cons_of_not hBefore, List.findIdx_cons, hBefore]
      rfl

/-- Items that all come before are all kept. -/
theorem insertSorted_of_all {sample : List α} {item : α}
    (h : ∀ other ∈ sample, before other item = true) :
    insertSorted before item sample = sample ++ [item] := by
  induction sample with
  | nil => rfl
  | cons first rest ih =>
    rw [insertSorted_cons_of_before (h first List.mem_cons_self), List.cons_append,
      ih fun other hMem => h other (List.mem_cons_of_mem _ hMem)]

/-- Adding to a sample inserts, and cuts to the limit. -/
theorem add_eq {sample : List α} (h : sample.length ≤ limit) (item : α) :
    add before limit sample item = (insertSorted before item sample).take limit := by
  have hIndex : (sample.findIdx fun other => !before other item) ≤ sample.length :=
    List.findIdx_le_length
  have hLength : (insertSorted before item sample).length = sample.length + 1 :=
    (perm_insertSorted sample item).length_eq
  rw [add]
  dsimp only
  split
  · next hFull =>
    have hNone : (sample.findIdx fun other => !before other item) = sample.length := by omega
    have hAll : ∀ other ∈ sample, before other item = true := fun other hMem => by
      have hOther := List.findIdx_eq_length.mp hNone other hMem
      rwa [Bool.not_eq_false'] at hOther
    rw [insertSorted_of_all hAll, List.take_left' (by omega)]
  · rw [insertIdx_findIdx]
    split
    · rw [List.dropLast_eq_take, hLength]
      congr 1
      omega
    · rw [List.take_of_length_le (by omega)]

/-- **A bounded scan** keeps the first items of the sorted whole. -/
theorem foldl_add (items sample : List α) :
    items.foldl (add before limit) (sample.take limit) =
      (items.foldl (fun sample item => insertSorted before item sample) sample).take limit := by
  induction items generalizing sample with
  | nil => rfl
  | cons item rest ih =>
    rw [List.foldl_cons, List.foldl_cons, add_eq (List.length_take_le _ _), take_insertSorted, ih]

/-- Inserting one by one sorts. -/
theorem foldl_insertSorted (hTrans : ∀ a b c, before a b → before b c → before a c)
    (hTotal : ∀ a b, before a b ∨ before b a) {items sample : List α}
    (hSorted : sample.Pairwise (before · ·)) :
    (items.foldl (fun sample item => insertSorted before item sample) sample).Pairwise (before · ·) ∧
      (items.foldl (fun sample item => insertSorted before item sample) sample).Perm
        (items ++ sample) := by
  induction items generalizing sample with
  | nil => exact ⟨hSorted, List.Perm.refl _⟩
  | cons item rest ih =>
    obtain ⟨hPairwise, hPerm⟩ := ih (pairwise_insertSorted hTrans hTotal hSorted item)
    refine ⟨hPairwise, hPerm.trans ?_⟩
    exact ((perm_insertSorted sample item).append_left rest).trans List.perm_middle

/-- The sample of the items, whatever order they come in. -/
theorem sampled_eq (hTrans : ∀ a b c, before a b → before b c → before a c)
    (hTotal : ∀ a b, before a b ∨ before b a) {items items' : List α}
    (hDistinct : ∀ a ∈ items, ∀ b ∈ items, before a b → before b a → a = b)
    (hPerm : items'.Perm items) :
    items'.foldl (add before limit) [] = (items.mergeSort before).take limit := by
  obtain ⟨hPairwise, hSame⟩ := @foldl_insertSorted _ before hTrans hTotal items' [] List.Pairwise.nil
  rw [List.append_nil] at hSame
  have hFold := @foldl_add _ before limit items' []
  rw [List.take_nil] at hFold
  have hMerged := List.pairwise_mergeSort hTrans (fun a b => by
    rw [Bool.or_eq_true]
    exact hTotal a b) items
  have hEq := (hSame.trans (hPerm.trans (List.mergeSort_perm items before).symm)).eq_of_pairwise
    (fun a b ha hb => hDistinct a ((hSame.trans hPerm).mem_iff.mp ha) b
      ((List.mergeSort_perm items before).mem_iff.mp hb)) hPairwise hMerged
  rw [hFold, hEq]

end MempoolAtlas.BoundedSample
