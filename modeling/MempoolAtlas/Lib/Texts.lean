import Mathlib.Data.List.Basic
import Mathlib.Tactic

/-!
# Texts

Trimmed texts, decimal texts, and texts put together at a separator that none of
them holds: the last two are read back in one way only.

## Results

* `append_cons_inj`, `colon_inj` — a separator ends both first parts at one place.
* `repr_toList_inj`, `intercalate_repr_inj` — decimal texts, alone and joined.
-/

namespace MempoolAtlas.Texts

/-- `char::is_whitespace`: the Unicode `White_Space` property. -/
def isWhitespace (c : Char) : Bool :=
  (c.val ≥ 0x09 && c.val ≤ 0x0d) || c.val == 0x20 || c.val == 0x85 || c.val == 0xa0 ||
    c.val == 0x1680 || (c.val ≥ 0x2000 && c.val ≤ 0x200a) || c.val == 0x2028 || c.val == 0x2029 ||
    c.val == 0x202f || c.val == 0x205f || c.val == 0x3000

/-- `str::trim`. -/
def trim (text : List Char) : List Char :=
  ((text.dropWhile isWhitespace).reverse.dropWhile isWhitespace).reverse

theorem not_mem_repr {c : Char} (h : c.isDigit = false) (n : Nat) : c ∉ n.repr.toList := by
  intro hMem
  rw [Nat.repr_eq_ofList_toDigits, String.toList_ofList] at hMem
  rw [Nat.isDigit_of_mem_toDigits (by decide) (by decide) hMem] at h
  cases h

theorem repr_toList_inj {n m : Nat} (h : n.repr.toList = m.repr.toList) : n = m := by
  rw [Nat.repr_eq_ofList_toDigits, Nat.repr_eq_ofList_toDigits, String.toList_ofList,
    String.toList_ofList] at h
  have hRead := congrArg (fun digits => Nat.ofDigitChars 10 digits 0) h
  simpa using hRead

/-- A separator that occurs in neither first part ends both at one place. -/
theorem append_cons_inj {c : Char} {first first' rest rest' : List Char} (hFirst : c ∉ first)
    (hFirst' : c ∉ first') (h : first ++ c :: rest = first' ++ c :: rest') :
    first = first' ∧ rest = rest' := by
  induction first generalizing first' with
  | nil =>
    cases first' with
    | nil => exact ⟨rfl, (List.cons.inj h).2⟩
    | cons head tail =>
      obtain ⟨rfl, -⟩ := List.cons.inj h
      exact absurd (List.mem_cons_self ..) hFirst'
  | cons head tail ih =>
    cases first' with
    | nil =>
      obtain ⟨rfl, -⟩ := List.cons.inj h
      exact absurd (List.mem_cons_self ..) hFirst
    | cons head' tail' =>
      obtain ⟨rfl, hTail⟩ := List.cons.inj h
      obtain ⟨rfl, hRest⟩ := ih (fun hMem => hFirst (List.mem_cons_of_mem _ hMem))
        (fun hMem => hFirst' (List.mem_cons_of_mem _ hMem)) hTail
      exact ⟨rfl, hRest⟩

theorem colon_inj {front front' back back' : String} (hFront : ':' ∉ front.toList)
    (hFront' : ':' ∉ front'.toList) (h : front ++ ":" ++ back = front' ++ ":" ++ back') :
    front = front' ∧ back = back' := by
  have hList : front.toList ++ ':' :: back.toList = front'.toList ++ ':' :: back'.toList := by
    simpa using congrArg String.toList h
  obtain ⟨hSame, hRest⟩ := append_cons_inj hFront hFront' hList
  exact ⟨String.toList_inj.mp hSame, String.toList_inj.mp hRest⟩

/-- Numbers joined at a separator that is no digit. -/
theorem intercalate_repr_inj {separator : Char} (hSeparator : separator.isDigit = false)
    {numbers numbers' : List Nat} (hSome : numbers ≠ []) (hSome' : numbers' ≠ [])
    (h : [separator].intercalate (numbers.map fun number => number.repr.toList) =
      [separator].intercalate (numbers'.map fun number => number.repr.toList)) :
    numbers = numbers' := by
  have hApart : ∀ numbers : List Nat,
      ∀ text ∈ numbers.map fun number => number.repr.toList, separator ∉ text := by
    intro numbers text hText
    obtain ⟨number, -, rfl⟩ := List.mem_map.mp hText
    exact not_mem_repr hSeparator number
  have hSplit := congrArg (List.splitOn separator) h
  rw [List.splitOn_intercalate separator (hApart numbers) (by simpa using hSome),
    List.splitOn_intercalate separator (hApart numbers') (by simpa using hSome')] at hSplit
  exact List.map_injective_iff.mpr (fun _ _ hText => repr_toList_inj hText) hSplit

end MempoolAtlas.Texts
