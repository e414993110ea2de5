import MempoolAtlas.Lib.BTree

/-!
# Two indexes of one set of records

The same records filed twice, under a key each names itself and under an index each
names itself, the second time inside a larger value. Writing a record to both keeps the
two in agreement wherever, among the records that may occur, a key and an index name the
same record.

## Results

* `SameRecords.foldl_insert` — writing a batch to both keeps them in agreement.
-/

namespace MempoolAtlas.Indexes

variable {κ ι ρ σ : Type} [Ord κ] [Std.TransOrd κ] [Std.LawfulEqOrd κ] [DecidableEq κ]
  [Ord ι] [Std.TransOrd ι] [Std.LawfulEqOrd ι] [DecidableEq ι]
  {key : ρ → κ} {index : ρ → ι} {record : σ → ρ}

/-- `first` files under their keys exactly the records that `second` holds. -/
def SameRecords (key : ρ → κ) (record : σ → ρ) (first : BTreeMap κ ρ) (second : BTreeMap ι σ) :
    Prop :=
  ∀ (k : κ) r, first[k]? = some r ↔
    key r = k ∧ ∃ (i : ι) (s : σ), second[i]? = some s ∧ record s = r

/-- Every entry is filed under its record's own index, and its record may occur. -/
def FiledBy (index : ρ → ι) (record : σ → ρ) (occurs : ρ → Prop) (m : BTreeMap ι σ) : Prop :=
  ∀ (i : ι) s, m[i]? = some s → index (record s) = i ∧ occurs (record s)

/-- Among the records that may occur, a key names what an index names. -/
def Interchangeable (key : ρ → κ) (index : ρ → ι) (occurs : ρ → Prop) : Prop :=
  ∀ r r', occurs r → occurs r' → (key r = key r' ↔ index r = index r')

variable {occurs : ρ → Prop} {first : BTreeMap κ ρ} {second : BTreeMap ι σ}

theorem FiledBy.insert (h : FiledBy index record occurs second) {s : σ} (hs : occurs (record s)) :
    FiledBy index record occurs (second.insert (index (record s)) s) := by
  intro i s' hGet
  rw [BTreeMap.getElem?_insert_eq] at hGet
  split at hGet
  · next hEq =>
    rw [← Option.some.inj hGet]
    exact ⟨hEq, hs⟩
  · exact h i s' hGet

theorem SameRecords.insert (hSame : Interchangeable key index occurs)
    (hFiled : FiledBy index record occurs second) (h : SameRecords key record first second)
    {s : σ} (hs : occurs (record s)) :
    SameRecords key record (first.insert (key (record s)) (record s))
      (second.insert (index (record s)) s) := by
  intro k r
  rw [BTreeMap.getElem?_insert_eq]
  split
  · next hKey =>
    constructor
    · intro hEq
      obtain rfl := Option.some.inj hEq
      exact ⟨hKey, index (record s), s, by rw [BTreeMap.getElem?_insert_eq, if_pos rfl], rfl⟩
    · rintro ⟨hOwn, i, s', hGet, rfl⟩
      rw [BTreeMap.getElem?_insert_eq] at hGet
      split at hGet
      · rw [Option.some.inj hGet]
      · next hIndex =>
        -- another record under this key would have the index of `s`
        obtain ⟨hAt, hOccurs⟩ := hFiled i s' hGet
        exact absurd (((hSame _ _ hs hOccurs).mp (hKey.trans hOwn.symm)).trans hAt) hIndex
  · next hKey =>
    rw [h k r]
    refine and_congr_right fun hOwn => ?_
    constructor
    · rintro ⟨i, s', hGet, rfl⟩
      refine ⟨i, s', ?_, rfl⟩
      obtain ⟨hAt, hOccurs⟩ := hFiled i s' hGet
      rw [BTreeMap.getElem?_insert_eq, if_neg fun hIndex => hKey ?_]
      · exact hGet
      · exact ((hSame _ _ hs hOccurs).mpr (hIndex.trans hAt.symm)).trans hOwn
    · rintro ⟨i, s', hGet, rfl⟩
      rw [BTreeMap.getElem?_insert_eq] at hGet
      split at hGet
      · rw [← Option.some.inj hGet] at hOwn
        exact absurd hOwn hKey
      · exact ⟨i, s', hGet, rfl⟩

theorem FiledBy.foldl_insert (h : FiledBy index record occurs second) {batch : List σ}
    (hBatch : ∀ s ∈ batch, occurs (record s)) :
    FiledBy index record occurs
      (batch.foldl (fun m s => m.insert (index (record s)) s) second) := by
  induction batch generalizing second with
  | nil => exact h
  | cons s rest ih =>
    obtain ⟨hs, hRest⟩ := List.forall_mem_cons.mp hBatch
    exact ih (h.insert hs) hRest

/-- **Writing a batch to both** keeps them in agreement. -/
theorem SameRecords.foldl_insert (hSame : Interchangeable key index occurs)
    (hFiled : FiledBy index record occurs second) (h : SameRecords key record first second)
    {batch : List σ} (hBatch : ∀ s ∈ batch, occurs (record s)) :
    SameRecords key record
      ((batch.map record).foldl (fun m r => m.insert (key r) r) first)
      (batch.foldl (fun m s => m.insert (index (record s)) s) second) := by
  induction batch generalizing first second with
  | nil => exact h
  | cons s rest ih =>
    obtain ⟨hs, hRest⟩ := List.forall_mem_cons.mp hBatch
    exact ih (hFiled.insert hs) (h.insert hSame hFiled hs) hRest

omit [DecidableEq κ] [DecidableEq ι] [Std.LawfulEqOrd ι] in
/-- An index is no larger than a list that names all its keys. -/
theorem SameRecords.size_le (h : SameRecords key record first second)
    (hFiled : FiledBy index record occurs second) {keys : List κ}
    (hKeys : ∀ r, occurs r → key r ∈ keys) : first.size ≤ keys.length := by
  rw [← Std.ExtTreeMap.length_keys]
  refine (List.subperm_of_subset (BTreeMap.nodup_keys first) fun k hMem => ?_).length_le
  obtain ⟨r, hGet⟩ := BTreeMap.mem_keys_iff.mp hMem
  obtain ⟨rfl, i, s, hSecond, rfl⟩ := (h k r).mp hGet
  exact hKeys _ (hFiled i s hSecond).2

end MempoolAtlas.Indexes
