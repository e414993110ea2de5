import Mathlib.Data.List.Nodup
import Mathlib.Tactic

/-!
# Maps in insertion order

A map that iterates its keys in the order they were first set, as a `Map` of
JavaScript does, with the update that groups a list of items by a key.

## Results

* `get?_upsert` — an update changes its key alone.
* `get?_bucketBy`, `flatMap_bucketBy` — a bucket holds the items of its key, and the buckets
  every item once.
-/

namespace MempoolAtlas

universe u v w

/-- Distinct keys with their values, in the order they were set. -/
structure InsertionMap (κ : Type u) (ν : Type v) where
  entries : List (κ × ν)
  distinct : (entries.map Prod.fst).Nodup

namespace InsertionMap

variable {κ : Type u} {ν : Type v} [DecidableEq κ]

/-- The map without entries. -/
def empty : InsertionMap κ ν := ⟨[], List.nodup_nil⟩

/-- The value of a key. -/
def get? (map : InsertionMap κ ν) (key : κ) : Option ν := map.entries.lookup key

/-- The values, in the order of their keys' insertion. -/
def values (map : InsertionMap κ ν) : List ν := map.entries.map Prod.snd

/-- The keys, in the order of their insertion. -/
def keys (map : InsertionMap κ ν) : List κ := map.entries.map Prod.fst

/-- Update the entry of a key where it stands, or append one. -/
def upsertEntries (key : κ) (update : Option ν → ν) : List (κ × ν) → List (κ × ν)
  | [] => [(key, update none)]
  | entry :: rest =>
    if entry.1 = key then (entry.1, update (some entry.2)) :: rest
    else entry :: upsertEntries key update rest

theorem map_fst_upsertEntries (key : κ) (update : Option ν → ν) (entries : List (κ × ν)) :
    (upsertEntries key update entries).map Prod.fst =
      if key ∈ entries.map Prod.fst then entries.map Prod.fst
      else entries.map Prod.fst ++ [key] := by
  induction entries with
  | nil => rfl
  | cons entry rest ih =>
    rw [upsertEntries]
    by_cases hSame : entry.1 = key
    · rw [if_pos hSame, List.map_cons, List.map_cons,
        if_pos (hSame ▸ List.mem_cons_self : key ∈ entry.1 :: rest.map Prod.fst)]
    · rw [if_neg hSame, List.map_cons, List.map_cons, ih]
      by_cases hMem : key ∈ rest.map Prod.fst
      · rw [if_pos hMem, if_pos (List.mem_cons_of_mem _ hMem)]
      · rw [if_neg hMem, if_neg]
        · rfl
        · rintro (_ | ⟨_, h⟩)
          · exact hSame rfl
          · exact hMem h

/-- A key's value is updated in place, or added at the end. -/
def upsert (map : InsertionMap κ ν) (key : κ) (update : Option ν → ν) : InsertionMap κ ν where
  entries := upsertEntries key update map.entries
  distinct := by
    rw [map_fst_upsertEntries]
    split
    · exact map.distinct
    · next hNew =>
      refine List.Nodup.append map.distinct (List.nodup_singleton key) ?_
      intro other hMem hOther
      rw [List.mem_singleton] at hOther
      exact hNew (hOther ▸ hMem)

/-- A key takes a value. -/
def set (map : InsertionMap κ ν) (key : κ) (value : ν) : InsertionMap κ ν :=
  map.upsert key fun _ => value

@[simp] theorem get?_empty (key : κ) : (empty : InsertionMap κ ν).get? key = none := rfl

theorem lookup_cons_of_eq {found key : κ} (h : found = key) (value : ν) (rest : List (κ × ν)) :
    ((found, value) :: rest).lookup key = some value := by
  rw [List.lookup_cons, beq_iff_eq.mpr h.symm]

theorem lookup_cons_of_ne {found key : κ} (h : found ≠ key) (value : ν) (rest : List (κ × ν)) :
    ((found, value) :: rest).lookup key = rest.lookup key := by
  rw [List.lookup_cons, beq_eq_false_iff_ne.mpr (Ne.symm h)]

theorem lookup_upsertEntries (key other : κ) (update : Option ν → ν) (entries : List (κ × ν)) :
    (upsertEntries key update entries).lookup other =
      if key = other then some (update (entries.lookup key)) else entries.lookup other := by
  induction entries with
  | nil =>
    rw [upsertEntries]
    split
    · next hOther => exact lookup_cons_of_eq hOther _ []
    · next hOther => exact lookup_cons_of_ne hOther _ []
  | cons entry rest ih =>
    obtain ⟨found, value⟩ := entry
    rw [upsertEntries]
    by_cases hSame : found = key
    · rw [if_pos hSame, lookup_cons_of_eq hSame]
      split
      · next hOther => exact lookup_cons_of_eq (hSame.trans hOther) _ rest
      · next hOther =>
        have hNe : found ≠ other := hSame ▸ hOther
        rw [lookup_cons_of_ne hNe, lookup_cons_of_ne hNe]
    · rw [if_neg hSame, lookup_cons_of_ne hSame]
      by_cases hHere : found = other
      · rw [lookup_cons_of_eq hHere, lookup_cons_of_eq hHere,
          if_neg fun hOther => hSame (hHere.trans hOther.symm)]
      · rw [lookup_cons_of_ne hHere, lookup_cons_of_ne hHere, ih]

/-- An update changes its key alone. -/
theorem get?_upsert (map : InsertionMap κ ν) (key other : κ) (update : Option ν → ν) :
    (map.upsert key update).get? other =
      if key = other then some (update (map.get? key)) else map.get? other :=
  lookup_upsertEntries key other update map.entries

/-- Setting a key changes it alone. -/
theorem get?_set (map : InsertionMap κ ν) (key other : κ) (value : ν) :
    (map.set key value).get? other = if key = other then some value else map.get? other :=
  get?_upsert map key other _

theorem lookup_eq_some_iff {entries : List (κ × ν)} (h : (entries.map Prod.fst).Nodup) {key : κ}
    {value : ν} : entries.lookup key = some value ↔ (key, value) ∈ entries := by
  induction entries with
  | nil => simp
  | cons entry rest ih =>
    obtain ⟨hNew, hRest⟩ := List.nodup_cons.mp h
    obtain ⟨found, kept⟩ := entry
    rw [List.mem_cons]
    by_cases hSame : found = key
    · subst hSame
      rw [lookup_cons_of_eq rfl]
      constructor
      · intro hValue
        exact .inl (Prod.ext rfl (Option.some.inj hValue).symm)
      · rintro (hEntry | hMem)
        · exact congrArg some (Prod.mk.inj hEntry).2.symm
        · exact absurd (List.mem_map.mpr ⟨_, hMem, rfl⟩) hNew
    · rw [lookup_cons_of_ne hSame, ih hRest]
      constructor
      · exact .inr
      · rintro (hEntry | hMem)
        · exact absurd (congrArg Prod.fst hEntry).symm hSame
        · exact hMem

/-- A key has a value just when they are an entry. -/
theorem get?_eq_some_iff {map : InsertionMap κ ν} {key : κ} {value : ν} :
    map.get? key = some value ↔ (key, value) ∈ map.entries := lookup_eq_some_iff map.distinct

theorem mem_values_iff {map : InsertionMap κ ν} {value : ν} :
    value ∈ map.values ↔ ∃ key, map.get? key = some value := by
  rw [values, List.mem_map]
  constructor
  · rintro ⟨⟨key, found⟩, hMem, rfl⟩
    exact ⟨key, get?_eq_some_iff.mpr hMem⟩
  · rintro ⟨key, hFound⟩
    exact ⟨(key, value), get?_eq_some_iff.mp hFound, rfl⟩

theorem mem_keys_iff {map : InsertionMap κ ν} {key : κ} :
    key ∈ map.keys ↔ (map.get? key).isSome = true := by
  rw [keys, List.mem_map, Option.isSome_iff_exists]
  constructor
  · rintro ⟨⟨found, value⟩, hMem, rfl⟩
    exact ⟨value, get?_eq_some_iff.mpr hMem⟩
  · rintro ⟨value, hFound⟩
    exact ⟨(key, value), get?_eq_some_iff.mp hFound, rfl⟩

/-- The map of a list of entries; a later entry of a key replaces an earlier one. -/
def ofList (entries : List (κ × ν)) : InsertionMap κ ν :=
  entries.foldl (fun map entry => map.set entry.1 entry.2) empty

/-- Setting distinct keys one by one. -/
theorem get?_foldl_set (entries : List (κ × ν)) (start : InsertionMap κ ν)
    (h : (entries.map Prod.fst).Nodup) (key : κ) :
    (entries.foldl (fun map entry => map.set entry.1 entry.2) start).get? key =
      (entries.lookup key).or (start.get? key) := by
  induction entries generalizing start with
  | nil => rfl
  | cons entry rest ih =>
    obtain ⟨hNew, hRest⟩ := List.nodup_cons.mp h
    obtain ⟨found, value⟩ := entry
    rw [List.foldl_cons, ih _ hRest, get?_set]
    by_cases hSame : found = key
    · have hNone : rest.lookup key = none := by
        rw [Option.eq_none_iff_forall_ne_some]
        intro other hOther
        exact hNew (hSame ▸ List.mem_map.mpr ⟨_, (lookup_eq_some_iff hRest).mp hOther, rfl⟩)
      rw [lookup_cons_of_eq hSame, hNone, if_pos hSame]
      rfl
    · rw [lookup_cons_of_ne hSame, if_neg hSame]

/-- A map of distinct keys has their values. -/
theorem get?_ofList {entries : List (κ × ν)} (h : (entries.map Prod.fst).Nodup) (key : κ) :
    (ofList entries).get? key = entries.lookup key := by
  rw [ofList, get?_foldl_set entries empty h, get?_empty, Option.or_none]

-- ---------------------------------------------------------------------------
-- Grouping
-- ---------------------------------------------------------------------------

section Group

variable {α : Type w} (key : α → κ) (update : α → Option ν → ν)

/-- The loop that updates the group of each item. -/
def group (items : List α) (start : InsertionMap κ ν) : InsertionMap κ ν :=
  items.foldl (fun map item => map.upsert (key item) (update item)) start

/-- A group is what its own items make of it. -/
theorem get?_group (items : List α) (start : InsertionMap κ ν) (k : κ) :
    (group key update items start).get? k =
      (items.filter fun item => key item = k).foldl (fun value item => some (update item value))
        (start.get? k) := by
  induction items generalizing start with
  | nil => rfl
  | cons item rest ih =>
    rw [group, List.foldl_cons, ← group, ih, get?_upsert]
    by_cases hSame : key item = k
    · have hFilter : (item :: rest).filter (fun item => decide (key item = k)) =
          item :: rest.filter fun item => decide (key item = k) :=
        List.filter_cons_of_pos (decide_eq_true hSame)
      rw [if_pos hSame, hFilter, List.foldl_cons, hSame]
    · have hFilter : (item :: rest).filter (fun item => decide (key item = k)) =
          rest.filter fun item => decide (key item = k) :=
        List.filter_cons_of_neg (by rwa [decide_eq_true_eq])
      rw [if_neg hSame, hFilter]

theorem sum_upsertEntries (weight : ν → Nat) (key : κ) (update : Option ν → ν)
    {entries : List (κ × ν)} (h : (entries.map Prod.fst).Nodup) {gain : Nat}
    (hGain : weight (update (entries.lookup key)) =
      ((entries.lookup key).map weight).getD 0 + gain) :
    (((upsertEntries key update entries).map Prod.snd).map weight).sum =
      ((entries.map Prod.snd).map weight).sum + gain := by
  induction entries with
  | nil =>
    simp only [upsertEntries, List.map_cons, List.map_nil, List.sum_cons, List.sum_nil]
    simp only [List.lookup_nil, Option.map_none, Option.getD_none] at hGain
    omega
  | cons entry rest ih =>
    obtain ⟨hNew, hRest⟩ := List.nodup_cons.mp h
    obtain ⟨found, kept⟩ := entry
    rw [upsertEntries]
    by_cases hSame : found = key
    · rw [lookup_cons_of_eq hSame, Option.map_some, Option.getD_some] at hGain
      rw [if_pos hSame]
      simp only [List.map_cons, List.sum_cons, hGain]
      omega
    · rw [lookup_cons_of_ne hSame] at hGain
      rw [if_neg hSame, List.map_cons, List.map_cons, List.sum_cons, ih hRest hGain, List.map_cons,
        List.map_cons, List.sum_cons]
      omega

end Group

-- ---------------------------------------------------------------------------
-- Buckets
-- ---------------------------------------------------------------------------

/-- Selections by the keys of a list hold its items once, when each has one of the keys. -/
theorem flatMap_filter_perm {α : Type w} (keyOf : α → κ) {keys : List κ} (hKeys : keys.Nodup)
    {items : List α} (h : ∀ item ∈ items, keyOf item ∈ keys) :
    (keys.flatMap fun k => items.filter fun item => keyOf item = k).Perm items := by
  induction keys generalizing items with
  | nil =>
    obtain rfl := List.eq_nil_iff_forall_not_mem.mpr fun item hMem => (nomatch h item hMem)
    exact List.Perm.refl _
  | cons k rest ih =>
    obtain ⟨hNew, hRest⟩ := List.nodup_cons.mp hKeys
    have hOthers : ∀ item ∈ items.filter fun item => !decide (keyOf item = k),
        keyOf item ∈ rest := by
      intro item hMem
      obtain ⟨hItem, hNe⟩ := List.mem_filter.mp hMem
      exact (List.mem_cons.mp (h item hItem)).resolve_left (by simpa using hNe)
    have hSame : rest.flatMap (fun other => items.filter fun item => keyOf item = other) =
        rest.flatMap fun other => (items.filter fun item => !decide (keyOf item = k)).filter
          fun item => keyOf item = other := by
      refine List.flatMap_congr fun other hOther => ?_
      rw [List.filter_filter]
      refine List.filter_congr fun item _ => ?_
      by_cases hItem : keyOf item = other
      · have hNe : keyOf item ≠ k := fun hEq => hNew (hEq.symm.trans hItem ▸ hOther)
        simp [hItem, hItem ▸ hNe]
      · simp [hItem]
    rw [List.flatMap_cons, hSame]
    exact ((ih hRest hOthers).append_left _).trans (List.filter_append_perm _ _)

/-- Items with the signature the first of them had. -/
structure Bucket (σ : Type u) (α : Type v) where
  signature : σ
  items : List α

/-- An item joins its bucket, which it may open. -/
def Bucket.add {σ : Type u} {α : Type v} (signature : σ) (item : α) :
    Option (Bucket σ α) → Bucket σ α
  | none => { signature, items := [item] }
  | some bucket => { bucket with items := bucket.items ++ [item] }

section Buckets

variable {σ : Type v} {α : Type w} (signatureOf : α → Option σ) (key : σ → κ)

/-- Items that have a signature, in one bucket for each key of one. -/
def bucketBy (items : List α) : InsertionMap κ (Bucket σ α) :=
  items.foldl (fun map item => match signatureOf item with
    | none => map
    | some signature => map.upsert (key signature) (Bucket.add signature item)) empty

/-- The items whose signature has a key. -/
def withKey (items : List α) (k : κ) : List α :=
  items.filter fun item => (signatureOf item).any fun signature => key signature = k

/-- One more item joins its bucket. -/
theorem bucketBy_append (items : List α) (item : α) :
    bucketBy signatureOf key (items ++ [item]) = match signatureOf item with
      | none => bucketBy signatureOf key items
      | some signature => (bucketBy signatureOf key items).upsert (key signature)
          (Bucket.add signature item) := by
  rw [bucketBy, List.foldl_append]
  rfl

/-- What a bucket is after the items: all of its key, under the signature of one of them. -/
structure BucketOf (items : List α) (k : κ) (bucket : Bucket σ α) : Prop where
  items : bucket.items = withKey signatureOf key items k
  keyed : key bucket.signature = k
  signed : ∃ item ∈ bucket.items, signatureOf item = some bucket.signature

/-- **A bucket holds the items of its key**, in order, and has one of their signatures. -/
theorem get?_bucketBy (items : List α) (k : κ) :
    (∀ bucket, (bucketBy signatureOf key items).get? k = some bucket →
      BucketOf signatureOf key items k bucket) ∧
    ((bucketBy signatureOf key items).get? k = none → withKey signatureOf key items k = []) := by
  induction items using List.reverseRecOn with
  | nil => exact ⟨fun bucket h => (nomatch h), fun _ => rfl⟩
  | append_singleton items item ih =>
    obtain ⟨ihSome, ihNone⟩ := ih
    have hWith : withKey signatureOf key (items ++ [item]) k =
        withKey signatureOf key items k ++
          if (signatureOf item).any (fun signature => key signature = k) then [item] else [] := by
      rw [withKey, List.filter_append, List.filter_singleton, cond_eq_ite]
      rfl
    rw [bucketBy_append]
    cases hSignature : signatureOf item with
    | none =>
      rw [hSignature] at hWith
      simp only [Option.any_none, Bool.false_eq_true, if_false, List.append_nil] at hWith
      constructor
      · intro bucket hBucket
        obtain ⟨hItems, hKey, hSigned⟩ := ihSome bucket hBucket
        exact ⟨hItems.trans hWith.symm, hKey, hSigned⟩
      · intro hNone
        exact hWith.trans (ihNone hNone)
    | some signature =>
      rw [hSignature] at hWith
      dsimp only
      rw [get?_upsert]
      by_cases hSame : key signature = k
      · simp only [Option.any_some, hSame, decide_true, if_true] at hWith
        rw [if_pos hSame]
        refine ⟨fun bucket hBucket => ?_, fun hNone => (nomatch hNone)⟩
        obtain rfl := Option.some.inj hBucket
        cases hOld : (bucketBy signatureOf key items).get? (key signature) with
        | none =>
          rw [hSame] at hOld
          refine ⟨?_, hSame, item, List.mem_singleton_self item, hSignature⟩
          rw [hWith, ihNone hOld]
          rfl
        | some old =>
          rw [hSame] at hOld
          obtain ⟨hItems, hKey, first, hFirst, hSigned⟩ := ihSome old hOld
          refine ⟨?_, hKey, first, List.mem_append_left _ hFirst, hSigned⟩
          rw [hWith, ← hItems]
          rfl
      · simp only [Option.any_some, hSame, decide_false, Bool.false_eq_true, if_false,
          List.append_nil] at hWith
        rw [if_neg hSame]
        constructor
        · intro bucket hBucket
          obtain ⟨hItems, hKey, hSigned⟩ := ihSome bucket hBucket
          exact ⟨hItems.trans hWith.symm, hKey, hSigned⟩
        · intro hNone
          exact hWith.trans (ihNone hNone)

theorem flatMap_upsertEntries (k : κ) (signature : σ) (item : α) (entries : List (κ × Bucket σ α)) :
    ((upsertEntries k (Bucket.add signature item) entries).flatMap fun entry =>
      entry.2.items).Perm ((entries.flatMap fun entry => entry.2.items) ++ [item]) := by
  induction entries with
  | nil => exact List.Perm.refl _
  | cons entry rest ih =>
    rw [upsertEntries]
    split
    · rw [List.flatMap_cons, List.flatMap_cons]
      show (entry.2.items ++ [item] ++ _).Perm _
      rw [List.append_assoc, List.append_assoc]
      exact (List.perm_append_comm).append_left entry.2.items
    · rw [List.flatMap_cons, List.flatMap_cons, List.append_assoc]
      exact ih.append_left entry.2.items

/-- The buckets hold the items that have a signature, each once. -/
theorem flatMap_bucketBy (items : List α) :
    ((bucketBy signatureOf key items).values.flatMap Bucket.items).Perm
      (items.filter fun item => (signatureOf item).isSome) := by
  induction items using List.reverseRecOn with
  | nil => exact List.Perm.refl _
  | append_singleton items item ih =>
    rw [bucketBy_append, List.filter_append, List.filter_singleton]
    cases hSignature : signatureOf item with
    | none => simpa using ih
    | some signature =>
      have hStep := flatMap_upsertEntries (key signature) signature item
        (bucketBy signatureOf key items).entries
      rw [values, List.flatMap_map] at ih ⊢
      exact hStep.trans (ih.append_right [item])

/-- Each bucket under its own key, no key twice. -/
theorem bucketBy_keys (items : List α) :
    ((bucketBy signatureOf key items).values.map fun bucket => key bucket.signature).Nodup := by
  have hKeys : (bucketBy signatureOf key items).values.map (fun bucket => key bucket.signature) =
      (bucketBy signatureOf key items).keys := by
    rw [values, keys, List.map_map]
    refine List.map_congr_left fun entry hMem => ?_
    exact ((get?_bucketBy signatureOf key items entry.1).1 entry.2
      (get?_eq_some_iff.mpr hMem)).keyed
  rw [hKeys]
  exact (bucketBy signatureOf key items).distinct

/-- A bucket holds the items of its signature's key. -/
theorem bucketOf_of_mem {items : List α} {bucket : Bucket σ α}
    (h : bucket ∈ (bucketBy signatureOf key items).values) :
    BucketOf signatureOf key items (key bucket.signature) bucket := by
  obtain ⟨k, hFound⟩ := mem_values_iff.mp h
  have hBucket := (get?_bucketBy signatureOf key items k).1 bucket hFound
  exact hBucket.keyed ▸ hBucket

/-- An item with a signature has its bucket. -/
theorem exists_bucket {items : List α} {item : α} (hMem : item ∈ items) {signature : σ}
    (hSignature : signatureOf item = some signature) :
    ∃ bucket ∈ (bucketBy signatureOf key items).values,
      key bucket.signature = key signature ∧ item ∈ bucket.items := by
  have hWith : item ∈ withKey signatureOf key items (key signature) :=
    List.mem_filter.mpr ⟨hMem, by simp [hSignature]⟩
  obtain ⟨hSome, hNone⟩ := get?_bucketBy signatureOf key items (key signature)
  cases hFound : (bucketBy signatureOf key items).get? (key signature) with
  | none =>
    rw [hNone hFound] at hWith
    cases hWith
  | some bucket =>
    obtain ⟨hItems, hKey, -⟩ := hSome bucket hFound
    exact ⟨bucket, mem_values_iff.mpr ⟨_, hFound⟩, hKey, hItems ▸ hWith⟩

end Buckets

end InsertionMap

end MempoolAtlas
