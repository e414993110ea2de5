import Mathlib.Tactic
import Mathlib.Algebra.Order.BigOperators.Group.List

/-!
# Ordered maps with weights

Rust's `BTreeMap` and `BTreeSet` are Lean's extensional tree maps and sets over
the key's own comparison, so two maps with the same lookups are equal and
iteration is in key order. What the standard library does not have is the sum
of a weight over a map's entries and how the map operations change it; the
byte accounting of every cache is stated with it.

## Results

* `keys_insert_perm`, `toList_erase_perm` — the entries after an update.
* `sumBy_insert_of_mem`, `sumBy_erase` — how the total weight changes.
* `size_mul_le_sumBy` — a weight bounds the number of entries.
* `toList_eq_of_mem_iff` — a sorted list of a set's members is the set in order.
-/

namespace MempoolAtlas

/-- A map ordered by its keys. -/
abbrev BTreeMap (κ ν : Type) [Ord κ] : Type := Std.ExtTreeMap κ ν compare

/-- An ordered set. -/
abbrev BTreeSet (κ : Type) [Ord κ] : Type := Std.ExtTreeSet κ compare

namespace BTreeMap

variable {κ ν : Type} [Ord κ] [Std.TransOrd κ] [Std.LawfulEqOrd κ]

/-- An insertion changes its key alone. -/
theorem getElem?_insert_eq [DecidableEq κ] (m : BTreeMap κ ν) (k k' : κ) (v : ν) :
    (m.insert k v)[k']? = if k = k' then some v else m[k']? := by
  rw [Std.ExtTreeMap.getElem?_insert]
  simp only [Std.LawfulEqCmp.compare_eq_iff_eq]

/-- An erasure changes its key alone. -/
theorem getElem?_erase_eq [DecidableEq κ] (m : BTreeMap κ ν) (k k' : κ) :
    (m.erase k)[k']? = if k = k' then none else m[k']? := by
  rw [Std.ExtTreeMap.getElem?_erase]
  simp only [Std.LawfulEqCmp.compare_eq_iff_eq]

/-- Inserting what is new under each of `keys`. -/
theorem getElem?_foldl_insertIfNew [DecidableEq κ] (f : κ → ν) (keys : List κ) (m : BTreeMap κ ν)
    (k : κ) : (keys.foldl (fun m k => m.insertIfNew k (f k)) m)[k]? =
      m[k]?.or (if k ∈ keys then some (f k) else none) := by
  induction keys generalizing m with
  | nil => simp
  | cons a rest ih =>
    rw [List.foldl_cons, ih, Std.ExtTreeMap.getElem?_insertIfNew]
    simp only [Std.LawfulEqCmp.compare_eq_iff_eq, List.mem_cons]
    by_cases hEq : a = k
    · subst hEq
      cases hGet : m[a]? with
      | none =>
        have hNot : a ∉ m := by
          rw [Std.ExtTreeMap.mem_iff_isSome_getElem?, hGet]
          simp
        simp [hNot]
      | some v =>
        have hMem : a ∈ m := by
          rw [Std.ExtTreeMap.mem_iff_isSome_getElem?, hGet]
          rfl
        simp [hMem]
    · simp [hEq, Ne.symm hEq]

/-- What writing a list of entries over a map leaves. -/
theorem of_getElem?_foldl_insert [DecidableEq κ] {entries : List (κ × ν)} {m : BTreeMap κ ν}
    {k : κ} {v : ν} (h : (entries.foldl (fun m e => m.insert e.1 e.2) m)[k]? = some v) :
    (k, v) ∈ entries ∨ m[k]? = some v := by
  induction entries generalizing m with
  | nil => exact Or.inr h
  | cons entry rest ih =>
    rcases ih h with hMem | hGet
    · exact Or.inl (List.mem_cons_of_mem entry hMem)
    · rw [getElem?_insert_eq] at hGet
      split at hGet
      · next hEq =>
        refine Or.inl ?_
        rw [← hEq, ← Option.some.inj hGet]
        exact List.mem_cons_self
      · exact Or.inr hGet

/-- Where no key comes twice, every inserted entry is found. -/
theorem getElem?_foldl_insert_iff [DecidableEq κ] {entries : List (κ × ν)}
    (hNodup : (entries.map Prod.fst).Nodup) {m : BTreeMap κ ν} {k : κ} {v : ν} :
    (entries.foldl (fun m e => m.insert e.1 e.2) m)[k]? = some v ↔
      (k, v) ∈ entries ∨ (k ∉ entries.map Prod.fst ∧ m[k]? = some v) := by
  induction entries generalizing m with
  | nil => simp
  | cons entry rest ih =>
    obtain ⟨key, value⟩ := entry
    obtain ⟨hFresh, hRest⟩ := List.nodup_cons.mp hNodup
    rw [List.foldl_cons, ih hRest, getElem?_insert_eq, List.map_cons, List.mem_cons, List.mem_cons,
      Prod.mk.injEq]
    by_cases hKey : key = k
    · subst hKey
      have hAbsent : (key, v) ∉ rest := fun hMem =>
        hFresh (List.mem_map.mpr ⟨(key, v), hMem, rfl⟩)
      simp only [hAbsent, false_or, if_true, Option.some.injEq, true_and, not_true_eq_false,
        true_or, false_and, or_false]
      exact ⟨fun h => h.2.symm, fun h => ⟨hFresh, h.symm⟩⟩
    · simp only [hKey, Ne.symm hKey, if_false, false_and, false_or]

/-- The sum of a weight over the entries of a map. -/
def sumBy {M : Type} [AddCommMonoid M] (f : κ → ν → M) (m : BTreeMap κ ν) : M :=
  (m.toList.map fun entry => f entry.1 entry.2).sum

/-- The entries of a map. -/
theorem mem_toList {m : BTreeMap κ ν} {k : κ} {v : ν} :
    (k, v) ∈ m.toList ↔ m[k]? = some v :=
  Std.ExtTreeMap.mem_toList_iff_getElem?_eq_some

theorem nodup_toList (m : BTreeMap κ ν) : m.toList.Nodup := by
  have h := Std.ExtTreeMap.distinct_keys_toList (t := m)
  refine h.imp ?_
  intro a b hab heq
  exact hab (by rw [heq]; exact Std.ReflCmp.compare_self)

theorem nodup_keys (m : BTreeMap κ ν) : m.keys.Nodup := by
  refine Std.ExtTreeMap.distinct_keys.imp ?_
  intro a b hab heq
  exact hab (by rw [heq]; exact Std.ReflCmp.compare_self)

theorem mem_keys_iff {m : BTreeMap κ ν} {k : κ} : k ∈ m.keys ↔ ∃ v, m[k]? = some v := by
  rw [Std.ExtTreeMap.mem_keys, Std.ExtTreeMap.mem_iff_isSome_getElem?, Option.isSome_iff_exists]

/-- Maps with the same keys list them alike. -/
theorem keys_perm {ν' : Type} {m : BTreeMap κ ν} {m' : BTreeMap κ ν'}
    (h : ∀ k, k ∈ m ↔ k ∈ m') : m.keys.Perm m'.keys := by
  rw [List.perm_ext_iff_of_nodup (nodup_keys m) (nodup_keys m')]
  intro k
  rw [Std.ExtTreeMap.mem_keys, Std.ExtTreeMap.mem_keys, h]

theorem keys_insert_perm {m : BTreeMap κ ν} {k : κ} (v : ν) (hk : k ∉ m) :
    (m.insert k v).keys.Perm (k :: m.keys) := by
  have hNew : k ∉ m.keys := by rwa [Std.ExtTreeMap.mem_keys]
  rw [List.perm_ext_iff_of_nodup (nodup_keys _) (List.nodup_cons.mpr ⟨hNew, nodup_keys m⟩)]
  intro k'
  rw [Std.ExtTreeMap.mem_keys, Std.ExtTreeMap.mem_insert, List.mem_cons, Std.ExtTreeMap.mem_keys,
    Std.LawfulEqCmp.compare_eq_iff_eq, eq_comm]

/-- A map's keys are those left when some are taken out, and those taken out. -/
theorem keys_append_perm {m m' : BTreeMap κ ν} {gone : List κ} (hNodup : gone.Nodup)
    (hLeft : ∀ k, k ∈ m' ↔ k ∈ m ∧ k ∉ gone) (hGone : ∀ k ∈ gone, k ∈ m) :
    (m'.keys ++ gone).Perm m.keys := by
  have hDisjoint : ∀ k ∈ m'.keys, ∀ k' ∈ gone, k ≠ k' := by
    rintro k hKept _ hMem rfl
    exact ((hLeft k).mp (Std.ExtTreeMap.mem_keys.mp hKept)).2 hMem
  rw [List.perm_ext_iff_of_nodup
    (List.nodup_append.mpr ⟨nodup_keys m', hNodup, hDisjoint⟩) (nodup_keys m)]
  intro k
  rw [List.mem_append, Std.ExtTreeMap.mem_keys, Std.ExtTreeMap.mem_keys, hLeft]
  by_cases hMem : k ∈ gone
  · simp [hMem, hGone k hMem]
  · simp [hMem]

/-- Inserting a new key adds one entry. -/
theorem toList_insert_perm_of_not_mem {m : BTreeMap κ ν} {k : κ} (v : ν) (hk : k ∉ m) :
    (m.insert k v).toList.Perm ((k, v) :: m.toList) := by
  have hnone : m[k]? = none := Std.ExtTreeMap.getElem?_eq_none hk
  have hnew : (k, v) ∉ m.toList := by
    rw [mem_toList, hnone]
    simp
  rw [List.perm_ext_iff_of_nodup (nodup_toList _) (List.nodup_cons.mpr ⟨hnew, nodup_toList _⟩)]
  rintro ⟨k', v'⟩
  rw [mem_toList, List.mem_cons, mem_toList, Std.ExtTreeMap.getElem?_insert]
  by_cases h : k = k'
  · subst h
    simp [hnone, eq_comm]
  · simp [h, Ne.symm h]

/-- Erasing a key takes one entry away. -/
theorem toList_erase_perm {m : BTreeMap κ ν} {k : κ} {v : ν} (h : m[k]? = some v) :
    m.toList.Perm ((k, v) :: (m.erase k).toList) := by
  have hgone : (k, v) ∉ (m.erase k).toList := by
    rw [mem_toList]
    simp
  rw [List.perm_ext_iff_of_nodup (nodup_toList _) (List.nodup_cons.mpr ⟨hgone, nodup_toList _⟩)]
  rintro ⟨k', v'⟩
  rw [mem_toList, List.mem_cons, mem_toList, Std.ExtTreeMap.getElem?_erase]
  by_cases hk : k = k'
  · subst hk
    simp [h, eq_comm]
  · simp [hk, Ne.symm hk]

/-- Erasing a key before inserting it does nothing. -/
theorem erase_insert (m : BTreeMap κ ν) (k : κ) (v : ν) :
    (m.erase k).insert k v = m.insert k v := by
  apply Std.ExtTreeMap.ext_getElem?
  intro k'
  by_cases h : k = k' <;> simp [Std.ExtTreeMap.getElem?_insert, Std.ExtTreeMap.getElem?_erase, h]

section Sums

variable {M : Type} [AddCommMonoid M] (f : κ → ν → M)

omit [Std.LawfulEqOrd κ] in
@[simp] theorem sumBy_empty : sumBy f (∅ : BTreeMap κ ν) = 0 := by
  have h : (∅ : BTreeMap κ ν).toList = [] :=
    Std.ExtTreeMap.toList_eq_nil_iff.mpr rfl
  rw [sumBy, h]
  rfl

/-- A new key adds its weight. -/
theorem sumBy_insert_of_not_mem {m : BTreeMap κ ν} {k : κ} (v : ν) (hk : k ∉ m) :
    sumBy f (m.insert k v) = f k v + sumBy f m := by
  unfold sumBy
  rw [((toList_insert_perm_of_not_mem v hk).map _).sum_eq]
  rfl

/-- Erasing a key takes its weight away. -/
theorem sumBy_erase {m : BTreeMap κ ν} {k : κ} {v : ν} (h : m[k]? = some v) :
    sumBy f m = f k v + sumBy f (m.erase k) := by
  unfold sumBy
  rw [((toList_erase_perm h).map _).sum_eq]
  rfl

/-- Replacing an entry trades its old weight for the new one. -/
theorem sumBy_insert_of_mem {m : BTreeMap κ ν} {k : κ} {v : ν} (h : m[k]? = some v) (v' : ν) :
    f k v + sumBy f (m.insert k v') = f k v' + sumBy f m := by
  have hgone : k ∉ m.erase k := by simp
  rw [← erase_insert, sumBy_insert_of_not_mem f v' hgone, sumBy_erase f h]
  rw [← add_assoc, ← add_assoc, add_comm (f k v)]

/-- Entries of no weight that are new under each of `keys`. -/
theorem sumBy_foldl_insertIfNew [DecidableEq κ] {g : κ → ν} (hZero : ∀ k, f k (g k) = 0)
    (keys : List κ) (m : BTreeMap κ ν) :
    sumBy f (keys.foldl (fun m k => m.insertIfNew k (g k)) m) = sumBy f m := by
  induction keys generalizing m with
  | nil => rfl
  | cons k rest ih =>
    rw [List.foldl_cons, ih]
    by_cases hk : k ∈ m
    · have hSame : m.insertIfNew k (g k) = m := by
        apply Std.ExtTreeMap.ext_getElem?
        intro k'
        rw [Std.ExtTreeMap.getElem?_insertIfNew, if_neg]
        exact fun h => h.2 hk
      rw [hSame]
    · have hNew : m.insertIfNew k (g k) = m.insert k (g k) := by
        apply Std.ExtTreeMap.ext_getElem?
        intro k'
        rw [Std.ExtTreeMap.getElem?_insertIfNew, Std.ExtTreeMap.getElem?_insert]
        simp only [hk, not_false_eq_true, and_true]
      rw [hNew, sumBy_insert_of_not_mem f _ hk, hZero, zero_add]

/-- The weights of a map's entries decide their sum. -/
theorem sumBy_eq_of_map_eq {μ : Type} {m m' : BTreeMap κ ν} (g : ν → μ) (w : μ → M)
    (h : ∀ k : κ, m'[k]?.map g = m[k]?.map g) :
    sumBy (fun _ v => w (g v)) m' = sumBy (fun _ v => w (g v)) m := by
  have hMap : m'.map (fun _ => g) = m.map fun _ => g := by
    apply Std.ExtTreeMap.ext_getElem?
    intro k
    rw [Std.ExtTreeMap.getElem?_map, Std.ExtTreeMap.getElem?_map]
    exact h k
  have hSum : ∀ t : BTreeMap κ ν,
      sumBy (fun _ v => w (g v)) t = sumBy (fun _ x => w x) (t.map fun _ => g) := by
    intro t
    unfold sumBy
    rw [Std.ExtTreeMap.toList_map, List.map_map]
    rfl
  rw [hSum, hSum, hMap]

end Sums

section Bounds

variable (f : κ → ν → Nat)

omit [Std.LawfulEqOrd κ] in
/-- Filtering does not add weight. -/
theorem sumBy_filter_le (p : κ → ν → Bool) (m : BTreeMap κ ν) :
    sumBy f (m.filter p) ≤ sumBy f m := by
  unfold sumBy
  rw [Std.ExtTreeMap.toList_filter]
  exact (List.filter_sublist.map _).sum_le_sum fun _ _ => Nat.zero_le _

/-- An entry weighs no more than the map. -/
theorem le_sumBy {m : BTreeMap κ ν} {k : κ} {v : ν} (h : m[k]? = some v) : f k v ≤ sumBy f m := by
  rw [sumBy_erase f h]
  exact Nat.le_add_right _ _

/-- A map whose entries each weigh at least `c` has at most its total weight
over `c` entries. -/
theorem size_mul_le_sumBy {m : BTreeMap κ ν} {c : Nat}
    (h : ∀ k v, m[k]? = some v → c ≤ f k v) : m.size * c ≤ sumBy f m := by
  have hall : ∀ x ∈ m.toList.map fun entry => f entry.1 entry.2, c ≤ x := by
    intro x hx
    obtain ⟨⟨k, v⟩, hmem, rfl⟩ := List.mem_map.mp hx
    exact h k v (mem_toList.mp hmem)
  have hsum := List.card_nsmul_le_sum _ c hall
  rwa [List.length_map, Std.ExtTreeMap.length_toList, smul_eq_mul] at hsum

end Bounds

end BTreeMap

namespace BTreeSet

variable {κ : Type} [Ord κ] [Std.TransOrd κ] [Std.LawfulEqOrd κ]

theorem mem_insert_iff {t : BTreeSet κ} {k a : κ} : a ∈ t.insert k ↔ a = k ∨ a ∈ t := by
  rw [Std.ExtTreeSet.mem_insert, Std.LawfulEqCmp.compare_eq_iff_eq, eq_comm]

theorem mem_erase_iff {t : BTreeSet κ} {k a : κ} : a ∈ t.erase k ↔ a ≠ k ∧ a ∈ t := by
  rw [Std.ExtTreeSet.mem_erase, ne_eq, Std.LawfulEqCmp.compare_eq_iff_eq, eq_comm]

theorem mem_foldl_insert {keys : List κ} {t : BTreeSet κ} {a : κ} :
    a ∈ keys.foldl (fun t k => t.insert k) t ↔ a ∈ keys ∨ a ∈ t := by
  induction keys generalizing t with
  | nil => simp
  | cons k rest ih =>
    rw [List.foldl_cons, ih, mem_insert_iff, List.mem_cons]
    tauto

theorem nodup_toList (t : BTreeSet κ) : t.toList.Nodup := by
  refine Std.ExtTreeSet.distinct_toList.imp ?_
  intro a b hab heq
  exact hab (by rw [heq]; exact Std.ReflCmp.compare_self)

/-- A sorted list of a set's members is the set in order. -/
theorem toList_eq_of_mem_iff {t : BTreeSet κ} {l : List κ}
    (hSorted : l.Pairwise fun a b => compare a b = .lt) (hMem : ∀ k, k ∈ l ↔ k ∈ t) :
    t.toList = l := by
  have hNodup : l.Nodup := hSorted.imp fun {a b} hLt hEq => by
    have hSelf : compare b b = .eq := Std.ReflCmp.compare_self
    rw [hEq, hSelf] at hLt
    cases hLt
  have hPerm : t.toList.Perm l := (List.perm_ext_iff_of_nodup (nodup_toList t) hNodup).mpr
    fun k => Std.ExtTreeSet.mem_toList.trans (hMem k).symm
  have hAsymm : ∀ a b, a ∈ t.toList → b ∈ l → compare a b = .lt → compare b a = .lt → a = b :=
    fun a b _ _ hLt hGt => absurd hGt (Std.OrientedCmp.not_lt_of_lt hLt)
  exact hPerm.eq_of_pairwise hAsymm Std.ExtTreeSet.ordered_toList hSorted

/-- A member above all others comes last. -/
theorem toList_insert_of_above {t : BTreeSet κ} {k : κ} (h : ∀ a ∈ t, compare a k = .lt) :
    (t.insert k).toList = t.toList ++ [k] := by
  refine toList_eq_of_mem_iff (List.pairwise_append.mpr ⟨Std.ExtTreeSet.ordered_toList,
    List.pairwise_singleton _ _, fun a hA b hB => ?_⟩) fun a => ?_
  · rw [List.mem_singleton.mp hB]
    exact h a (Std.ExtTreeSet.mem_toList.mp hA)
  · rw [List.mem_append, List.mem_singleton, Std.ExtTreeSet.mem_toList, mem_insert_iff, or_comm]

theorem toList_erase [DecidableEq κ] (t : BTreeSet κ) (k : κ) :
    (t.erase k).toList = t.toList.filter fun a => a ≠ k := by
  refine toList_eq_of_mem_iff (Std.ExtTreeSet.ordered_toList.filter _) fun a => ?_
  rw [List.mem_filter, Std.ExtTreeSet.mem_toList, decide_eq_true_eq, mem_erase_iff, and_comm]

omit [Std.LawfulEqOrd κ] in
theorem size_insert_of_not_mem {t : BTreeSet κ} {k : κ} (h : k ∉ t) :
    (t.insert k).size = t.size + 1 := by
  rw [Std.ExtTreeSet.size_insert, if_neg (by simpa using h)]

end BTreeSet

end MempoolAtlas
