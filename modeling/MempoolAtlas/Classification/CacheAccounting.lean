import MempoolAtlas.Classification.ConfirmedCache

/-!
# The confirmed cache's accounting

What every operation of the confirmed-script cache keeps: its byte count is the
sum over its entries, its LRU order pairs every entry with its own stamp, and it
stays within its ceiling. Reading an entry and inserting one both leave the
order with one entry unstamped for a moment; `Indexed` names that hole.

## Results

* `get_spec`, `insert_spec` — reading and inserting keep the account.
* `shrinkTo_spec` — `shrink_to` reaches its target without a fallback.
* `reserveForOutputs_spec` — so does making room for outputs.
-/

namespace MempoolAtlas.Classification

open Machine

theorem estimatedJsonBytes_le_script (script : Script) :
    estimatedJsonBytesPerResponse ≤ estimatedScriptBytes script := by
  unfold estimatedScriptBytes saturatingAdd estimatedJsonBytesPerResponse u64Max
  omega

/-- What an entry is worth whatever its stamp. -/
def ConfirmedCacheEntry.unstamped (entry : ConfirmedCacheEntry) : Script × Nat :=
  (entry.script, entry.estimatedBytes)

namespace ConfirmedScriptCache

/-- The LRU order holds exactly the pair of each entry with its stamp, but for
the entry at `hole`, which has none. -/
structure Indexed (cache : ConfirmedScriptCache) (hole : Option OutPoint) : Prop where
  mem_lru : ∀ key, key ∈ cache.lru ↔ hole ≠ some key.outpoint ∧
    ∃ entry, cache.entries[key.outpoint]? = some entry ∧ entry.stamp = key.stamp
  unique : ∀ {key key'}, key ∈ cache.lru → key' ∈ cache.lru → key.stamp = key'.stamp → key = key'

/-- The index and the entries agree, and the byte count is their sum within the ceiling. -/
structure Accounted (cache : ConfirmedScriptCache) (hole : Option OutPoint) : Prop
    extends Indexed cache hole where
  fresh : ∀ key ∈ cache.lru, key.stamp < cache.nextStamp
  nextStamp_le : cache.nextStamp ≤ u64Max
  bytes_eq : cache.estimatedBytes = BTreeMap.sumBy (fun _ entry => entry.estimatedBytes) cache.entries
  weight : ∀ (outpoint : OutPoint) entry, cache.entries[outpoint]? = some entry →
    entry.estimatedBytes = estimatedScriptBytes entry.script
  fits : cache.estimatedBytes ≤ cache.maximumBytes
  maximum_le : cache.maximumBytes ≤ u64Max

/-- The same scripts under the same ceiling, stamped as they may be. -/
structure SameFacts (cache cache' : ConfirmedScriptCache) : Prop where
  entries : ∀ outpoint : OutPoint, cache'.entries[outpoint]?.map ConfirmedCacheEntry.unstamped =
    cache.entries[outpoint]?.map ConfirmedCacheEntry.unstamped
  bytes : cache'.estimatedBytes = cache.estimatedBytes
  maximum : cache'.maximumBytes = cache.maximumBytes

theorem SameFacts.refl (cache : ConfirmedScriptCache) : SameFacts cache cache := ⟨fun _ => rfl, rfl, rfl⟩

theorem SameFacts.trans {a b c : ConfirmedScriptCache} (h₁ : SameFacts a b) (h₂ : SameFacts b c) :
    SameFacts a c :=
  ⟨fun outpoint => (h₂.entries outpoint).trans (h₁.entries outpoint), h₂.bytes.trans h₁.bytes,
    h₂.maximum.trans h₁.maximum⟩

/-- Restamping an entry changes no fact. -/
theorem sameFacts_stamp {cache : ConfirmedScriptCache} {outpoint : OutPoint}
    {entry : ConfirmedCacheEntry} (h : cache.entries[outpoint]? = some entry) (stamp nextStamp : Nat)
    (lru : BTreeSet LruKey) :
    SameFacts cache {
      cache with
      entries := cache.entries.insert outpoint { entry with stamp }
      lru, nextStamp } := by
  refine ⟨fun other => ?_, rfl, rfl⟩
  rw [BTreeMap.getElem?_insert_eq]
  split
  · next hEq =>
    rw [← hEq, h]
    rfl
  · rfl

theorem SameFacts.weight {cache cache' : ConfirmedScriptCache} (h : SameFacts cache cache')
    (hWeight : ∀ (outpoint : OutPoint) entry, cache.entries[outpoint]? = some entry →
      entry.estimatedBytes = estimatedScriptBytes entry.script) :
    ∀ (outpoint : OutPoint) entry, cache'.entries[outpoint]? = some entry →
      entry.estimatedBytes = estimatedScriptBytes entry.script := by
  intro outpoint entry hEntry
  have hSame := h.entries outpoint
  rw [hEntry, Option.map_some] at hSame
  obtain ⟨old, hOld, hEq⟩ := Option.map_eq_some_iff.mp hSame.symm
  obtain ⟨hScript, hBytes⟩ := Prod.mk.injEq .. ▸ hEq
  have hOldWeight := hWeight outpoint old hOld
  rw [← hBytes, ← hScript]
  exact hOldWeight

/-- The same facts weigh the same. -/
theorem SameFacts.sum {cache cache' : ConfirmedScriptCache} (h : SameFacts cache cache') :
    BTreeMap.sumBy (fun _ entry => entry.estimatedBytes) cache'.entries =
      BTreeMap.sumBy (fun _ entry => entry.estimatedBytes) cache.entries :=
  BTreeMap.sumBy_eq_of_map_eq ConfirmedCacheEntry.unstamped Prod.snd h.entries

/-- The accounting of a cache that holds the same facts under an order of its own. -/
theorem Accounted.of_sameFacts {cache cache' : ConfirmedScriptCache} {hole hole' : Option OutPoint}
    (h : cache.Accounted hole) (hSame : SameFacts cache cache') (hIndexed : cache'.Indexed hole')
    (hFresh : ∀ key ∈ cache'.lru, key.stamp < cache'.nextStamp)
    (hNext : cache'.nextStamp ≤ u64Max) : cache'.Accounted hole' where
  toIndexed := hIndexed
  fresh := hFresh
  nextStamp_le := hNext
  bytes_eq := by rw [hSame.bytes, h.bytes_eq, hSame.sum]
  weight := hSame.weight h.weight
  fits := by rw [hSame.bytes, hSame.maximum]; exact h.fits
  maximum_le := by rw [hSame.maximum]; exact h.maximum_le

/-- An empty cache is accounted for. -/
theorem accounted_new {maximumBytes : Nat} (h : maximumBytes ≤ u64Max) :
    (new maximumBytes).Accounted none where
  mem_lru key := by simp [new]
  unique hKey := by simp [new] at hKey
  fresh key hKey := by simp [new] at hKey
  nextStamp_le := Nat.zero_le _
  bytes_eq := (BTreeMap.sumBy_empty _).symm
  weight outpoint entry hEntry := by simp [new] at hEntry
  fits := Nat.zero_le _
  maximum_le := h

-- ---------------------------------------------------------------------------
-- Stamps
-- ---------------------------------------------------------------------------

theorem Indexed.outpoint_inj {cache : ConfirmedScriptCache} {hole : Option OutPoint}
    (h : cache.Indexed hole) {key key' : LruKey} (hKey : key ∈ cache.lru) (hKey' : key' ∈ cache.lru)
    (hEq : key.outpoint = key'.outpoint) : key = key' := by
  obtain ⟨-, entry, hEntry, hStamp⟩ := (h.mem_lru key).mp hKey
  obtain ⟨-, entry', hEntry', hStamp'⟩ := (h.mem_lru key').mp hKey'
  rw [hEq, hEntry', Option.some.injEq] at hEntry
  exact h.unique hKey hKey' (by rw [← hStamp, ← hStamp', hEntry])

/-- No outpoint stands in the index twice. -/
theorem Indexed.nodup_ordered {cache : ConfirmedScriptCache} {hole : Option OutPoint}
    (h : cache.Indexed hole) : (cache.lru.toList.map LruKey.outpoint).Nodup := by
  refine List.Nodup.map_on ?_ (BTreeSet.nodup_toList _)
  intro key hKey key' hKey' hEq
  rw [Std.ExtTreeSet.mem_toList] at hKey hKey'
  exact h.outpoint_inj hKey hKey' hEq

/-- The entries outnumber the pairs of the order. -/
theorem Indexed.size_lru_le {cache : ConfirmedScriptCache} {hole : Option OutPoint}
    (h : cache.Indexed hole) : cache.lru.size ≤ cache.entries.size := by
  have hSub : ∀ outpoint ∈ cache.lru.toList.map LruKey.outpoint, outpoint ∈ cache.entries.keys := by
    intro outpoint hMem
    obtain ⟨key, hKey, rfl⟩ := List.mem_map.mp hMem
    rw [Std.ExtTreeSet.mem_toList] at hKey
    obtain ⟨-, entry, hEntry, -⟩ := (h.mem_lru key).mp hKey
    rw [Std.ExtTreeMap.mem_keys]
    exact Std.ExtTreeMap.mem_iff_isSome_getElem?.mpr (by rw [hEntry]; rfl)
  have hLen := (List.subperm_of_subset h.nodup_ordered hSub).length_le
  rwa [List.length_map, Std.ExtTreeSet.length_toList, Std.ExtTreeMap.length_keys] at hLen

/-- Entries weigh at least one response estimate each, so a cache within its
ceiling never holds as many entries as there are stamps. -/
theorem Accounted.size_lt {cache : ConfirmedScriptCache} {hole : Option OutPoint}
    (h : cache.Accounted hole) : cache.entries.size < u64Max := by
  have hWeigh := BTreeMap.size_mul_le_sumBy
    (fun (_ : OutPoint) (entry : ConfirmedCacheEntry) => entry.estimatedBytes)
    fun outpoint entry hEntry => (estimatedJsonBytes_le_script _).trans
      (h.weight outpoint entry hEntry).ge
  have hFits := h.fits
  have hMaximum := h.maximum_le
  rw [h.bytes_eq] at hFits
  unfold estimatedJsonBytesPerResponse at hWeigh
  unfold u64Max at *
  omega

/-- The renumbering loop after `index` outpoints, with `rest` to come. -/
structure Restamping (cache : ConfirmedScriptCache) (hole : Option OutPoint) (rest : List OutPoint)
    (index : Nat) : Prop where
  present : ∀ outpoint ∈ rest, ∃ entry, cache.entries[outpoint]? = some entry
  nodup : rest.Nodup
  mem_lru : ∀ key, key ∈ cache.lru ↔ key.outpoint ∉ rest ∧ hole ≠ some key.outpoint ∧
    ∃ entry, cache.entries[key.outpoint]? = some entry ∧ entry.stamp = key.stamp
  hole_not_mem : ∀ outpoint ∈ rest, hole ≠ some outpoint
  unique : ∀ {key key'}, key ∈ cache.lru → key' ∈ cache.lru → key.stamp = key'.stamp → key = key'
  below : ∀ key ∈ cache.lru, key.stamp < index
  size_eq : cache.lru.size = index

theorem Restamping.step {cache : ConfirmedScriptCache} {hole : Option OutPoint}
    {outpoint : OutPoint} {rest : List OutPoint} {index : Nat} {entry : ConfirmedCacheEntry}
    (h : cache.Restamping hole (outpoint :: rest) index)
    (hEntry : cache.entries[outpoint]? = some entry) :
    Restamping {
      cache with
      entries := cache.entries.insert outpoint { entry with stamp := index }
      lru := cache.lru.insert ⟨index, outpoint⟩ } hole rest (index + 1) := by
  obtain ⟨hNotMem, hNodup⟩ := List.nodup_cons.mp h.nodup
  have hNew : (⟨index, outpoint⟩ : LruKey) ∉ cache.lru := fun hMem =>
    Nat.lt_irrefl _ (h.below _ hMem)
  have hBelow : ∀ key ∈ cache.lru, key.stamp ≠ index := fun key hKey =>
    Nat.ne_of_lt (h.below key hKey)
  refine ⟨?_, hNodup, ?_, fun other hOther => h.hole_not_mem other (List.mem_cons_of_mem _ hOther),
    ?_, ?_, ?_⟩
  · intro other hOther
    obtain ⟨entry', hEntry'⟩ := h.present other (List.mem_cons_of_mem _ hOther)
    rw [BTreeMap.getElem?_insert_eq]
    split
    · exact ⟨_, rfl⟩
    · exact ⟨entry', hEntry'⟩
  · intro key
    show key ∈ cache.lru.insert _ ↔ _ ∧ _ ∧ ∃ entry', (cache.entries.insert _ _)[_]? = _ ∧ _
    rw [BTreeSet.mem_insert_iff, BTreeMap.getElem?_insert_eq, h.mem_lru key]
    by_cases hKey : outpoint = key.outpoint
    · subst hKey
      have hHole := h.hole_not_mem key.outpoint List.mem_cons_self
      have hEta : key = ⟨index, key.outpoint⟩ ↔ index = key.stamp := by
        constructor
        · intro hEq
          rw [hEq]
        · intro hEq
          rw [hEq]
      rw [if_pos rfl, hEta]
      simp [hNotMem, hHole]
    · have hNe : key ≠ ⟨index, outpoint⟩ := fun hEq => hKey (by rw [hEq])
      rw [if_neg hKey]
      simp [hNe, Ne.symm hKey]
  · intro key key' hKey hKey' hStamp
    rw [BTreeSet.mem_insert_iff] at hKey hKey'
    rcases hKey with rfl | hKey <;> rcases hKey' with rfl | hKey'
    · rfl
    · exact absurd hStamp.symm (hBelow key' hKey')
    · exact absurd hStamp (hBelow key hKey)
    · exact h.unique hKey hKey' hStamp
  · intro key hKey
    rw [BTreeSet.mem_insert_iff] at hKey
    rcases hKey with rfl | hKey
    · exact Nat.lt_succ_self _
    · exact Nat.lt_succ_of_lt (h.below key hKey)
  · rw [BTreeSet.size_insert_of_not_mem hNew, h.size_eq]

/-- **Renumbering**: the facts stay, and the index agrees. -/
theorem restamp_spec {hole : Option OutPoint} : ∀ (rest : List OutPoint) (index : Nat)
    (cache : ConfirmedScriptCache), cache.Restamping hole rest index →
    (restamp rest index cache).Restamping hole [] (index + rest.length) ∧
      SameFacts cache (restamp rest index cache)
  | [], index, cache, h => ⟨h, SameFacts.refl cache⟩
  | outpoint :: rest, index, cache, h => by
    obtain ⟨entry, hEntry⟩ := h.present outpoint List.mem_cons_self
    obtain ⟨hDone, hSame⟩ := restamp_spec rest (index + 1) _ (h.step hEntry)
    simp only [restamp, hEntry]
    refine ⟨?_, (sameFacts_stamp hEntry index _ _).trans hSame⟩
    have hLen : index + (outpoint :: rest).length = index + 1 + rest.length := by
      rw [List.length_cons]
      omega
    rw [hLen]
    exact hDone

/-- Where the renumbering loop starts. -/
theorem Accounted.restamping {cache : ConfirmedScriptCache} {hole : Option OutPoint}
    (h : cache.Accounted hole) :
    Restamping { cache with lru := ∅ } hole (cache.lru.toList.map LruKey.outpoint) 0 := by
  refine ⟨?_, h.nodup_ordered, ?_, ?_, ?_, ?_, rfl⟩
  · intro outpoint hMem
    obtain ⟨key, hKey, rfl⟩ := List.mem_map.mp hMem
    rw [Std.ExtTreeSet.mem_toList] at hKey
    obtain ⟨-, entry, hEntry, -⟩ := (h.mem_lru key).mp hKey
    exact ⟨entry, hEntry⟩
  · intro key
    refine ⟨fun hKey => by simp at hKey, ?_⟩
    rintro ⟨hNot, hHole, hEntry⟩
    refine absurd (List.mem_map.mpr ⟨key, ?_, rfl⟩) hNot
    rw [Std.ExtTreeSet.mem_toList]
    exact (h.mem_lru key).mpr ⟨hHole, hEntry⟩
  · intro outpoint hMem
    obtain ⟨key, hKey, rfl⟩ := List.mem_map.mp hMem
    rw [Std.ExtTreeSet.mem_toList] at hKey
    exact ((h.mem_lru key).mp hKey).1
  · intro key key' hKey
    simp at hKey
  · intro key hKey
    simp at hKey

/-- `renumber` keeps the facts and frees the stamps. -/
theorem renumber_spec {cache : ConfirmedScriptCache} {hole : Option OutPoint}
    (h : cache.Accounted hole) : SameFacts cache cache.renumber ∧ cache.renumber.Indexed hole ∧
      (∀ key ∈ cache.renumber.lru, key.stamp < cache.renumber.nextStamp) ∧
      cache.renumber.nextStamp < u64Max := by
  have hStart := h.restamping
  obtain ⟨hDone, hSame⟩ := restamp_spec _ 0 _ hStart
  have hIndexed : cache.renumber.Indexed hole :=
    ⟨fun key => (hDone.mem_lru key).trans ⟨And.right, fun hKey => ⟨List.not_mem_nil, hKey⟩⟩,
      hDone.unique⟩
  have hFacts : SameFacts cache cache.renumber := ⟨hSame.entries, hSame.bytes, hSame.maximum⟩
  refine ⟨hFacts, hIndexed, fun key hKey => ?_, ?_⟩
  · show key.stamp < (restamp _ 0 _).lru.size
    rw [hDone.size_eq]
    exact hDone.below key hKey
  · show (restamp _ 0 _).lru.size < u64Max
    rw [hDone.size_eq, Nat.zero_add, List.length_map, Std.ExtTreeSet.length_toList]
    exact lt_of_le_of_lt h.size_lru_le h.size_lt

/-- A stamp above every stamp in use, the facts unchanged. -/
theorem allocateStamp_spec {cache : ConfirmedScriptCache} {hole : Option OutPoint}
    (h : cache.Accounted hole) : SameFacts cache cache.allocateStamp.2 ∧
      cache.allocateStamp.2.Indexed hole ∧
      (∀ key ∈ cache.allocateStamp.2.lru, key.stamp < cache.allocateStamp.1) ∧
      cache.allocateStamp.2.nextStamp = cache.allocateStamp.1 + 1 ∧
      cache.allocateStamp.1 + 1 ≤ u64Max := by
  unfold allocateStamp
  by_cases hFull : cache.nextStamp = u64Max
  · obtain ⟨hSame, hIndexed, hBelow, hLt⟩ := renumber_spec h
    rw [if_pos hFull]
    exact ⟨⟨hSame.entries, hSame.bytes, hSame.maximum⟩, ⟨hIndexed.mem_lru, hIndexed.unique⟩, hBelow,
      rfl, hLt⟩
  · have hLe := h.nextStamp_le
    rw [if_neg hFull]
    exact ⟨⟨fun _ => rfl, rfl, rfl⟩, ⟨h.mem_lru, h.unique⟩, h.fresh, rfl,
      by show cache.nextStamp + 1 ≤ u64Max; omega⟩

/-- Store an entry where the hole is, under a stamp above all others. -/
theorem Indexed.fill {cache : ConfirmedScriptCache} {outpoint : OutPoint}
    (h : cache.Indexed (some outpoint)) (entry : ConfirmedCacheEntry)
    (hAbove : ∀ key ∈ cache.lru, key.stamp < entry.stamp) (estimatedBytes : Nat) :
    Indexed {
      cache with
      entries := cache.entries.insert outpoint entry
      lru := cache.lru.insert ⟨entry.stamp, outpoint⟩
      estimatedBytes } none := by
  have hNe : ∀ key ∈ cache.lru, key.stamp ≠ entry.stamp := fun key hKey =>
    Nat.ne_of_lt (hAbove key hKey)
  refine ⟨fun key => ?_, fun {key key'} hKey hKey' hStamp => ?_⟩
  · show key ∈ cache.lru.insert _ ↔ _ ∧ ∃ entry', (cache.entries.insert _ _)[_]? = _ ∧ _
    rw [BTreeSet.mem_insert_iff, BTreeMap.getElem?_insert_eq, h.mem_lru key]
    by_cases hKey : outpoint = key.outpoint
    · subst hKey
      have hEta : key = ⟨entry.stamp, key.outpoint⟩ ↔ entry.stamp = key.stamp := by
        constructor
        · intro hEq
          rw [hEq]
        · intro hEq
          rw [hEq]
      rw [if_pos rfl, hEta]
      simp
    · have hKeyNe : key ≠ ⟨entry.stamp, outpoint⟩ := fun hEq => hKey (by rw [hEq])
      rw [if_neg hKey]
      simp [hKeyNe, hKey]
  · rw [BTreeSet.mem_insert_iff] at hKey hKey'
    rcases hKey with rfl | hKey <;> rcases hKey' with rfl | hKey'
    · rfl
    · exact absurd hStamp.symm (hNe key' hKey')
    · exact absurd hStamp (hNe key hKey)
    · exact h.unique hKey hKey' hStamp

/-- An outpoint the cache does not hold may be left out of the order. -/
theorem Indexed.open {cache : ConfirmedScriptCache} (h : cache.Indexed none) {outpoint : OutPoint}
    (hNone : cache.entries[outpoint]? = none) : cache.Indexed (some outpoint) := by
  refine ⟨fun key => ?_, h.unique⟩
  rw [h.mem_lru key]
  refine ⟨fun ⟨_, entry, hEntry, hStamp⟩ => ⟨fun hEq => ?_, entry, hEntry, hStamp⟩,
    fun ⟨_, hEntry⟩ => ⟨by simp, hEntry⟩⟩
  rw [Option.some.injEq] at hEq
  rw [← hEq, hNone] at hEntry
  cases hEntry

-- ---------------------------------------------------------------------------
-- Reading
-- ---------------------------------------------------------------------------

/-- The entry being read leaves the order until it is stamped again. -/
theorem Accounted.untrack {cache : ConfirmedScriptCache} (h : cache.Accounted none)
    {outpoint : OutPoint} {entry : ConfirmedCacheEntry}
    (hEntry : cache.entries[outpoint]? = some entry) :
    (cache.untrack ⟨entry.stamp, outpoint⟩).Accounted (some outpoint) := by
  refine Accounted.of_sameFacts h ⟨fun _ => rfl, rfl, rfl⟩ ⟨fun key => ?_, ?_⟩ ?_ h.nextStamp_le
  · show key ∈ cache.lru.erase _ ↔ _
    rw [BTreeSet.mem_erase_iff, h.mem_lru key]
    refine ⟨fun ⟨hNe, _, other, hOther, hStamp⟩ => ⟨fun hEq => hNe ?_, other, hOther, hStamp⟩,
      fun ⟨hNe, hOther⟩ => ⟨fun hEq => hNe (by rw [hEq]), by simp, hOther⟩⟩
    rw [Option.some.injEq] at hEq
    rw [← hEq, hEntry, Option.some.injEq] at hOther
    rw [hEq, hOther, hStamp]
  · intro key key' hKey hKey' hStamp
    exact h.unique (BTreeSet.mem_erase_iff.mp hKey).2 (BTreeSet.mem_erase_iff.mp hKey').2 hStamp
  · intro key hKey
    exact h.fresh key (BTreeSet.mem_erase_iff.mp hKey).2

/-- A read answers from the entries, keeps every fact and never meets a missing
entry. -/
theorem get_spec {cache : ConfirmedScriptCache} (h : cache.Accounted none) (outpoint : OutPoint) :
    ∃ cache', cache.get outpoint =
        .ok (cache.entries[outpoint]?.map ConfirmedCacheEntry.script, cache') ∧
      SameFacts cache cache' ∧ cache'.Accounted none := by
  cases hEntry : cache.entries[outpoint]? with
  | none =>
    simp only [get, hEntry]
    exact ⟨cache, rfl, SameFacts.refl cache, h⟩
  | some entry =>
    have hOpen := h.untrack hEntry
    obtain ⟨hSame, hIndexed, hBelow, hNext, hLe⟩ := allocateStamp_spec hOpen
    simp only [get, hEntry]
    generalize (cache.untrack ⟨entry.stamp, outpoint⟩).allocateStamp = allocated
      at hSame hIndexed hBelow hNext hLe ⊢
    have hOpened : (cache.untrack ⟨entry.stamp, outpoint⟩).entries[outpoint]? = some entry := hEntry
    have hCurrent := hSame.entries outpoint
    rw [hOpened, Option.map_some] at hCurrent
    obtain ⟨current, hGet, -⟩ := Option.map_eq_some_iff.mp hCurrent
    have hStamped := sameFacts_stamp hGet allocated.1 allocated.2.nextStamp
      (allocated.2.lru.insert ⟨allocated.1, outpoint⟩)
    have hFacts : SameFacts cache _ :=
      SameFacts.trans ⟨fun other => hSame.entries other, hSame.bytes, hSame.maximum⟩ hStamped
    refine ⟨_, by simp only [hGet, Option.map_some], hFacts, ?_⟩
    refine h.of_sameFacts hFacts
      (hIndexed.fill { current with stamp := allocated.1 } hBelow _) ?_ ?_
    · intro key hKey
      show key.stamp < allocated.2.nextStamp
      rw [hNext]
      rcases BTreeSet.mem_insert_iff.mp hKey with rfl | hKey
      · exact Nat.lt_succ_self _
      · exact Nat.lt_succ_of_lt (hBelow key hKey)
    · show allocated.2.nextStamp ≤ u64Max
      rw [hNext]
      exact hLe

-- ---------------------------------------------------------------------------
-- Evicting and shrinking
-- ---------------------------------------------------------------------------

/-- An entry weighs no more than the cache. -/
theorem Accounted.bytes_le {cache : ConfirmedScriptCache} {hole : Option OutPoint}
    (h : cache.Accounted hole) {outpoint : OutPoint} {entry : ConfirmedCacheEntry}
    (hEntry : cache.entries[outpoint]? = some entry) :
    entry.estimatedBytes ≤ cache.estimatedBytes := by
  rw [h.bytes_eq]
  exact BTreeMap.le_sumBy (fun _ (entry : ConfirmedCacheEntry) => entry.estimatedBytes) hEntry

/-- An eviction keeps the account. -/
theorem Accounted.evict {cache : ConfirmedScriptCache} (h : cache.Accounted none) (key : LruKey)
    {entry : ConfirmedCacheEntry} (hEntry : cache.entries[key.outpoint]? = some entry)
    (hStamp : entry.stamp = key.stamp) :
    (cache.evict key (cache.estimatedBytes - entry.estimatedBytes)).Accounted none := by
  have hKey : key ∈ cache.lru := (h.mem_lru key).mpr ⟨by simp, entry, hEntry, hStamp⟩
  have hSum := BTreeMap.sumBy_erase
    (fun (_ : OutPoint) (entry : ConfirmedCacheEntry) => entry.estimatedBytes) hEntry
  have hBytes := h.bytes_eq
  refine ⟨⟨fun other => ?_, ?_⟩, ?_, h.nextStamp_le, ?_, ?_, ?_, h.maximum_le⟩
  · show other ∈ cache.lru.erase key ↔ _ ∧ ∃ entry', (cache.entries.erase key.outpoint)[_]? = _ ∧ _
    rw [BTreeSet.mem_erase_iff, BTreeMap.getElem?_erase_eq, h.mem_lru other]
    by_cases hOther : key.outpoint = other.outpoint
    · rw [if_pos hOther]
      refine ⟨fun ⟨hNe, hMem⟩ => absurd ?_ hNe, fun ⟨_, _, hNone, _⟩ => by cases hNone⟩
      exact h.toIndexed.outpoint_inj ((h.mem_lru other).mpr hMem) hKey hOther.symm
    · rw [if_neg hOther]
      exact ⟨fun ⟨_, hMem⟩ => hMem, fun hMem => ⟨fun hEq => hOther (by rw [hEq]), hMem⟩⟩
  · intro other other' hOther hOther' hEq
    exact h.unique (BTreeSet.mem_erase_iff.mp hOther).2 (BTreeSet.mem_erase_iff.mp hOther').2 hEq
  · intro other hOther
    exact h.fresh other (BTreeSet.mem_erase_iff.mp hOther).2
  · show cache.estimatedBytes - entry.estimatedBytes = _
    rw [hBytes, hSum]
    exact Nat.add_sub_cancel_left ..
  · intro outpoint other hOther
    have hOld : (cache.entries.erase key.outpoint)[outpoint]? = some other := hOther
    rw [BTreeMap.getElem?_erase_eq] at hOld
    split at hOld
    · cases hOld
    · exact h.weight outpoint other hOld
  · exact le_trans (Nat.sub_le ..) h.fits

/-- What a cache operation that only drops entries leaves: entries it had, under
the same ceiling. -/
structure Shrunk (cache cache' : ConfirmedScriptCache) : Prop where
  entries : ∀ (outpoint : OutPoint) entry, cache'.entries[outpoint]? = some entry →
    cache.entries[outpoint]? = some entry
  maximum : cache'.maximumBytes = cache.maximumBytes

theorem Shrunk.refl (cache : ConfirmedScriptCache) : Shrunk cache cache := ⟨fun _ _ => id, rfl⟩

theorem Shrunk.trans {a b c : ConfirmedScriptCache} (h₁ : Shrunk a b) (h₂ : Shrunk b c) :
    Shrunk a c :=
  ⟨fun outpoint entry h => h₁.entries outpoint entry (h₂.entries outpoint entry h),
    h₂.maximum.trans h₁.maximum⟩

theorem Shrunk.absent {cache cache' : ConfirmedScriptCache} (h : Shrunk cache cache')
    {outpoint : OutPoint} (hNone : cache.entries[outpoint]? = none) :
    cache'.entries[outpoint]? = none := by
  refine Option.eq_none_iff_forall_not_mem.mpr fun entry hEntry => ?_
  have hOld := h.entries outpoint entry hEntry
  rw [hNone] at hOld
  cases hOld

theorem shrunk_evict (cache : ConfirmedScriptCache) (key : LruKey) (bytes : Nat) :
    Shrunk cache (cache.evict key bytes) := by
  refine ⟨fun outpoint entry hEntry => ?_, rfl⟩
  have hOld : (cache.entries.erase key.outpoint)[outpoint]? = some entry := hEntry
  rw [BTreeMap.getElem?_erase_eq] at hOld
  split at hOld
  · cases hOld
  · exact hOld

/-- The loop of `shrink_to` over the pairs still in the order: each one names an
entry under its own stamp, so no fallback is taken and no subtraction clips. -/
theorem shrinkLoop_spec (targetBytes : Nat) : ∀ (order : List LruKey)
    (cache : ConfirmedScriptCache), cache.Accounted none → order.Nodup →
    (∀ key, key ∈ cache.lru ↔ key ∈ order) →
    shrinkLoopExact targetBytes order cache = some (shrinkLoop targetBytes order cache) ∧
      (shrinkLoop targetBytes order cache).Accounted none ∧
      Shrunk cache (shrinkLoop targetBytes order cache) ∧
      (shrinkLoop targetBytes order cache).estimatedBytes ≤ targetBytes
  | [], cache, h, _, hOrder => by
    have hEmpty : cache.entries = ∅ := by
      refine Std.ExtTreeMap.ext_getElem? fun outpoint => ?_
      cases hEntry : cache.entries[outpoint]? with
      | none => simp
      | some entry =>
        have hKey := (h.mem_lru ⟨entry.stamp, outpoint⟩).mpr ⟨by simp, entry, hEntry, rfl⟩
        exact absurd ((hOrder _).mp hKey) List.not_mem_nil
    have hBytes := h.bytes_eq
    rw [hEmpty, BTreeMap.sumBy_empty] at hBytes
    have hLe : ¬ cache.estimatedBytes > targetBytes := by omega
    simp only [shrinkLoopExact, shrinkLoop, if_neg hLe]
    exact ⟨trivial, h, Shrunk.refl cache, by omega⟩
  | key :: rest, cache, h, hNodup, hOrder => by
    obtain ⟨hNotMem, hNodupRest⟩ := List.nodup_cons.mp hNodup
    by_cases hGt : cache.estimatedBytes > targetBytes
    · obtain ⟨-, entry, hEntry, hStamp⟩ :=
        (h.mem_lru key).mp ((hOrder key).mpr List.mem_cons_self)
      have hRest : ∀ other, other ∈
          (cache.evict key (cache.estimatedBytes - entry.estimatedBytes)).lru ↔ other ∈ rest := by
        intro other
        show other ∈ cache.lru.erase key ↔ _
        rw [BTreeSet.mem_erase_iff, hOrder other, List.mem_cons]
        refine ⟨fun ⟨hNe, hMem⟩ => hMem.resolve_left hNe, fun hMem => ⟨fun hEq => ?_, Or.inr hMem⟩⟩
        exact hNotMem (hEq ▸ hMem)
      obtain ⟨hExact, hAcc, hShrunk, hLe⟩ :=
        shrinkLoop_spec targetBytes rest _ (h.evict key hEntry hStamp) hNodupRest hRest
      have hSub := checkedSub_eq_some.mpr ⟨h.bytes_le hEntry, rfl⟩
      simp only [shrinkLoopExact, shrinkLoop, if_pos hGt, hEntry, hStamp, ne_eq, not_true_eq_false,
        if_false, hSub, Option.bind_eq_bind, Option.bind_some]
      exact ⟨hExact, hAcc, (shrunk_evict cache key _).trans hShrunk, hLe⟩
    · simp only [shrinkLoopExact, shrinkLoop, if_neg hGt]
      exact ⟨trivial, h, Shrunk.refl cache, by omega⟩

/-- **`shrink_to`** reaches its target without a fallback. -/
theorem shrinkTo_spec {cache : ConfirmedScriptCache} (h : cache.Accounted none)
    (targetBytes : Nat) : cache.shrinkToExact targetBytes = some (cache.shrinkTo targetBytes) ∧
      (cache.shrinkTo targetBytes).Accounted none ∧ Shrunk cache (cache.shrinkTo targetBytes) ∧
      (cache.shrinkTo targetBytes).estimatedBytes ≤ targetBytes :=
  shrinkLoop_spec targetBytes cache.lru.toList cache h (BTreeSet.nodup_toList _)
    fun _ => Std.ExtTreeSet.mem_toList.symm

/-- `reserve_for_outputs` makes room without a fallback. -/
theorem reserveForOutputs_spec {cache : ConfirmedScriptCache} (h : cache.Accounted none)
    {outputBytes : Nat} (hOutput : outputBytes ≤ cache.maximumBytes) :
    cache.reserveForOutputsExact outputBytes = some (cache.reserveForOutputs outputBytes) ∧
      (cache.reserveForOutputs outputBytes).Accounted none ∧
      Shrunk cache (cache.reserveForOutputs outputBytes) ∧
      outputBytes + (cache.reserveForOutputs outputBytes).estimatedBytes ≤ cache.maximumBytes := by
  obtain ⟨hExact, hAcc, hShrunk, hLe⟩ := shrinkTo_spec h (cache.maximumBytes - outputBytes)
  refine ⟨?_, hAcc, hShrunk, ?_⟩
  · rw [reserveForOutputsExact, checkedSub_eq_some.mpr ⟨hOutput, rfl⟩]
    exact hExact
  · have hBound : (cache.reserveForOutputs outputBytes).estimatedBytes ≤
        cache.maximumBytes - outputBytes := hLe
    omega

/-- `remove` takes an entry's bytes away, unclipped. -/
theorem remove_spec {cache : ConfirmedScriptCache} (h : cache.Accounted none)
    (outpoint : OutPoint) : cache.removeExact outpoint = some (cache.remove outpoint) ∧
      (cache.remove outpoint).Accounted none ∧ Shrunk cache (cache.remove outpoint) ∧
      (cache.remove outpoint).estimatedBytes ≤ cache.estimatedBytes ∧
      (cache.remove outpoint).entries[outpoint]? = none := by
  unfold removeExact remove
  cases hEntry : cache.entries[outpoint]? with
  | none => exact ⟨rfl, h, Shrunk.refl cache, le_refl _, hEntry⟩
  | some existing =>
    have hSub := checkedSub_eq_some.mpr ⟨h.bytes_le hEntry, rfl⟩
    simp only [hSub, Option.bind_eq_bind, Option.bind_some]
    refine ⟨rfl, h.evict ⟨existing.stamp, outpoint⟩ hEntry rfl, shrunk_evict .., ?_, ?_⟩
    · exact Nat.sub_le ..
    · show (cache.entries.erase outpoint)[outpoint]? = none
      rw [BTreeMap.getElem?_erase_eq, if_pos rfl]

-- ---------------------------------------------------------------------------
-- Inserting
-- ---------------------------------------------------------------------------

/-- A new entry is accounted for. -/
theorem push_spec {cache : ConfirmedScriptCache} (h : cache.Accounted none) {outpoint : OutPoint}
    (hNone : cache.entries[outpoint]? = none) (script : Script)
    (hRoom : cache.estimatedBytes + estimatedScriptBytes script ≤ cache.maximumBytes) :
    (cache.push outpoint script).Accounted none ∧
      (cache.push outpoint script).estimatedBytes =
        cache.estimatedBytes + estimatedScriptBytes script ∧
      (cache.push outpoint script).maximumBytes = cache.maximumBytes := by
  have hOpen : cache.Accounted (some outpoint) :=
    h.of_sameFacts (SameFacts.refl cache) (h.toIndexed.open hNone) h.fresh h.nextStamp_le
  obtain ⟨hSame, hIndexed, hBelow, hNext, hLe⟩ := allocateStamp_spec hOpen
  unfold push
  generalize cache.allocateStamp = allocated at hSame hIndexed hBelow hNext hLe ⊢
  have hMaximum := h.maximum_le
  have hBytes : saturatingAdd allocated.2.estimatedBytes (estimatedScriptBytes script) =
      cache.estimatedBytes + estimatedScriptBytes script := by
    rw [hSame.bytes]
    exact saturatingAdd_of_le (by omega)
  have hAbsent : outpoint ∉ allocated.2.entries := by
    intro hMem
    have hSome := Std.ExtTreeMap.mem_iff_isSome_getElem?.mp hMem
    have hEq := hSame.entries outpoint
    rw [hNone, Option.map_none, Option.map_eq_none_iff] at hEq
    rw [hEq] at hSome
    cases hSome
  refine ⟨⟨hIndexed.fill _ hBelow _, ?_, ?_, ?_, ?_, ?_, ?_⟩, hBytes, hSame.maximum⟩
  · intro key hKey
    show key.stamp < allocated.2.nextStamp
    rw [hNext]
    rcases BTreeSet.mem_insert_iff.mp hKey with rfl | hKey
    · exact Nat.lt_succ_self _
    · exact Nat.lt_succ_of_lt (hBelow key hKey)
  · show allocated.2.nextStamp ≤ u64Max
    rw [hNext]
    exact hLe
  · show saturatingAdd _ _ = BTreeMap.sumBy _ (allocated.2.entries.insert _ _)
    rw [hBytes, BTreeMap.sumBy_insert_of_not_mem _ _ hAbsent, hSame.sum, h.bytes_eq, Nat.add_comm]
  · intro other entry hEntry
    have hCases : (allocated.2.entries.insert outpoint _)[other]? = some entry := hEntry
    rw [BTreeMap.getElem?_insert_eq] at hCases
    split at hCases
    · rw [← Option.some.inj hCases]
    · exact hSame.weight h.weight other entry hCases
  · show saturatingAdd _ _ ≤ allocated.2.maximumBytes
    rw [hBytes, hSame.maximum]
    exact hRoom
  · show allocated.2.maximumBytes ≤ u64Max
    rw [hSame.maximum]
    exact hMaximum

/-- **`insert`** keeps the cache within its share of the ceiling, next to `reservedBytes` for
outputs, without a fallback. -/
theorem insert_spec {cache : ConfirmedScriptCache} (h : cache.Accounted none) {reservedBytes : Nat}
    (hShare : reservedBytes + cache.estimatedBytes ≤ cache.maximumBytes) (outpoint : OutPoint)
    (script : Script) :
    cache.insertExact outpoint script reservedBytes =
        some (cache.insert outpoint script reservedBytes) ∧
      (cache.insert outpoint script reservedBytes).2.Accounted none ∧
      (cache.insert outpoint script reservedBytes).2.maximumBytes = cache.maximumBytes ∧
      reservedBytes + (cache.insert outpoint script reservedBytes).2.estimatedBytes ≤
        cache.maximumBytes := by
  obtain ⟨hRemoved, hAcc, hShrunk, hLess, hNone⟩ := remove_spec h outpoint
  unfold insertExact insert
  by_cases hConflict : cache.conflicts outpoint script
  · rw [if_pos hConflict, if_pos hConflict, hRemoved]
    exact ⟨rfl, hAcc, hShrunk.maximum, le_trans (Nat.add_le_add_left hLess _) hShare⟩
  · have hAvailable : checkedSub cache.maximumBytes reservedBytes =
        some (cache.maximumBytes - reservedBytes) := checkedSub_eq_some.mpr ⟨by omega, rfl⟩
    simp only [hConflict, hAvailable, Bool.false_eq_true, if_false, Option.bind_eq_bind,
      Option.bind_some]
    by_cases hLarge : estimatedScriptBytes script > cache.maximumBytes - reservedBytes
    · rw [if_pos hLarge, if_pos hLarge]
      exact ⟨rfl, h, rfl, hShare⟩
    · rw [if_neg hLarge, if_neg hLarge]
      have hTarget := checkedSub_eq_some.mpr
        ⟨(by omega : estimatedScriptBytes script ≤ cache.maximumBytes - reservedBytes), rfl⟩
      obtain ⟨hExact, hAcc', hShrunk', hLe⟩ := shrinkTo_spec hAcc
        (cache.maximumBytes - reservedBytes - estimatedScriptBytes script)
      have hMaximum := hShrunk'.maximum.trans hShrunk.maximum
      obtain ⟨hPushed, hBytes, hPushMaximum⟩ :=
        push_spec hAcc' (hShrunk'.absent hNone) script (by rw [hMaximum]; omega)
      simp only [hTarget, hRemoved, hExact, Option.bind_some]
      refine ⟨rfl, hPushed, hPushMaximum.trans hMaximum, ?_⟩
      show reservedBytes + (ConfirmedScriptCache.push _ _ _).estimatedBytes ≤ _
      rw [hBytes]
      omega

end ConfirmedScriptCache

end MempoolAtlas.Classification
