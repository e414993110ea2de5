import MempoolAtlas.Lib.Lru
import MempoolAtlas.Classification.CacheAccounting

/-!
# The confirmed cache as an LRU list

What the confirmed cache is for: outpoints with their scripts, the least recently used
first, under one ceiling. The cache keeps that list in two maps and a counter of stamps;
`contents` reads it off them, and every call answers and changes it as the list would.

## Results

* `get_contents`, `insert_contents`, `shrinkTo_contents` — each operation does to the contents
  what the list's does.
* `confirmed_cache_refines_lru` — the cache is an exact byte-weighted LRU.
-/

namespace MempoolAtlas.Classification

open Machine Lru

/-- A call of the confirmed cache. -/
inductive CacheCall where
  | get (outpoint : OutPoint)
  | insert (outpoint : OutPoint) (script : Script) (reservedBytes : Nat)
  | reserveForOutputs (outputBytes : Nat)

/-- What a call replies. -/
inductive CacheReply where
  | script (held : Option Script)
  | stored (isStored : Bool)
  | reserved
deriving DecidableEq

-- ---------------------------------------------------------------------------
-- The list
-- ---------------------------------------------------------------------------

/-- Outpoints with their scripts, the least recently used first. -/
abbrev Recency : Type := List (OutPoint × Script)

namespace Recency

/-- Two scripts for one outpoint are both distrusted; a script too large for the room is
not stored; any other takes the most recent place. -/
def insert (maximumBytes : Nat) (outpoint : OutPoint) (script : Script) (reservedBytes : Nat)
    (recency : Recency) : Bool × Recency :=
  let room := maximumBytes - reservedBytes
  if (recency.lookup outpoint).any fun held => held ≠ script then
    (false, without outpoint recency)
  else if estimatedScriptBytes script > room then (false, recency)
  else
    (true, shrink estimatedScriptBytes (room - estimatedScriptBytes script)
      (without outpoint recency) ++ [(outpoint, script)])

def reply (maximumBytes : Nat) (recency : Recency) : CacheCall → CacheReply × Recency
  | .get outpoint => (.script (recency.lookup outpoint), touch outpoint recency)
  | .insert outpoint script reservedBytes =>
    let inserted := recency.insert maximumBytes outpoint script reservedBytes
    (.stored inserted.1, inserted.2)
  | .reserveForOutputs outputBytes =>
    (.reserved, shrink estimatedScriptBytes (maximumBytes - outputBytes) recency)

def replies (maximumBytes : Nat) : List CacheCall → Recency → List CacheReply × Recency
  | [], recency => ([], recency)
  | call :: rest, recency =>
    let first := recency.reply maximumBytes call
    let later := replies maximumBytes rest first.2
    (first.1 :: later.1, later.2)

end Recency

-- ---------------------------------------------------------------------------
-- The list a cache keeps
-- ---------------------------------------------------------------------------

namespace ConfirmedScriptCache

def reply (cache : ConfirmedScriptCache) : CacheCall →
    Except Panic (CacheReply × ConfirmedScriptCache)
  | .get outpoint => do
    let (script, cache) ← cache.get outpoint
    return (.script script, cache)
  | .insert outpoint script reservedBytes =>
    let inserted := cache.insert outpoint script reservedBytes
    return (.stored inserted.1, inserted.2)
  | .reserveForOutputs outputBytes => return (.reserved, cache.reserveForOutputs outputBytes)

def replies : List CacheCall → ConfirmedScriptCache →
    Except Panic (List CacheReply × ConfirmedScriptCache)
  | [], cache => return ([], cache)
  | call :: rest, cache => do
    let (first, cache) ← cache.reply call
    let (later, cache) ← replies rest cache
    return (first :: later, cache)

/-- The outpoints in the order of their stamps. -/
def order (cache : ConfirmedScriptCache) : List OutPoint :=
  cache.lru.toList.map LruKey.outpoint

/-- The pair the cache holds for an outpoint. -/
def pair? (cache : ConfirmedScriptCache) (outpoint : OutPoint) : Option (OutPoint × Script) :=
  cache.entries[outpoint]?.map fun entry => (outpoint, entry.script)

/-- **The list a cache keeps.** -/
def contents (cache : ConfirmedScriptCache) : Recency := cache.order.filterMap cache.pair?

variable {cache cache' : ConfirmedScriptCache} {hole : Option OutPoint} {outpoint : OutPoint}

/-- The pairs of a cache depend on its facts only. -/
theorem pair?_congr (h : SameFacts cache cache') : cache'.pair? = cache.pair? := by
  funext outpoint
  have hEntries := congrArg (Option.map fun held : Script × Nat => (outpoint, held.1))
    (h.entries outpoint)
  rw [Option.map_map, Option.map_map] at hEntries
  exact hEntries

theorem pair?_fst {pair : OutPoint × Script} (h : cache.pair? outpoint = some pair) :
    pair.1 = outpoint := by
  obtain ⟨entry, -, rfl⟩ := Option.map_eq_some_iff.mp h
  rfl

/-- Leaving an outpoint out of the order leaves its pair out of the list. -/
theorem filterMap_without (cache : ConfirmedScriptCache) (outpoint : OutPoint)
    (order : List OutPoint) :
    (order.filter fun other => other ≠ outpoint).filterMap cache.pair? =
      without outpoint (order.filterMap cache.pair?) := by
  induction order with
  | nil => rfl
  | cons other rest ih =>
    cases hPair : cache.pair? other with
    | none =>
      rw [List.filterMap_cons_none hPair, ← ih, List.filter_cons]
      split
      · rw [List.filterMap_cons_none hPair]
      · rfl
    | some pair =>
      rw [List.filterMap_cons_some hPair, without, List.filter_cons, List.filter_cons,
        pair?_fst hPair]
      split
      · rw [List.filterMap_cons_some hPair, ih, without]
      · rw [ih, without]

/-- The order lists what the cache holds. -/
theorem mem_order (h : cache.Indexed none) :
    outpoint ∈ cache.order ↔ ∃ entry, cache.entries[outpoint]? = some entry := by
  rw [order, List.mem_map]
  constructor
  · rintro ⟨key, hKey, rfl⟩
    rw [Std.ExtTreeSet.mem_toList] at hKey
    obtain ⟨-, entry, hEntry, -⟩ := (h.mem_lru key).mp hKey
    exact ⟨entry, hEntry⟩
  · rintro ⟨entry, hEntry⟩
    refine ⟨⟨entry.stamp, outpoint⟩, Std.ExtTreeSet.mem_toList.mpr ?_, rfl⟩
    exact (h.mem_lru _).mpr ⟨by simp, entry, hEntry, rfl⟩

theorem mem_contents (h : cache.Indexed none) {script : Script} :
    (outpoint, script) ∈ cache.contents ↔
      cache.entries[outpoint]?.map ConfirmedCacheEntry.script = some script := by
  rw [contents, List.mem_filterMap]
  constructor
  · rintro ⟨other, -, hPair⟩
    obtain ⟨entry, hEntry, hEq⟩ := Option.map_eq_some_iff.mp hPair
    obtain ⟨rfl, rfl⟩ := Prod.mk.inj hEq
    rw [hEntry, Option.map_some]
  · intro hScript
    obtain ⟨entry, hEntry, rfl⟩ := Option.map_eq_some_iff.mp hScript
    exact ⟨outpoint, (mem_order h).mpr ⟨entry, hEntry⟩, by rw [pair?, hEntry, Option.map_some]⟩

/-- The contents are in the order of their use. -/
theorem keys_contents (h : cache.Indexed none) : cache.contents.map Prod.fst = cache.order := by
  rw [contents, List.map_filterMap]
  have hEach : ∀ outpoint ∈ cache.order, (cache.pair? outpoint).map Prod.fst = some outpoint := by
    intro outpoint hMem
    obtain ⟨entry, hEntry⟩ := (mem_order h).mp hMem
    rw [pair?, hEntry]
    rfl
  rw [List.filterMap_congr hEach, List.filterMap_some]

theorem nodup_keys_contents (h : cache.Indexed none) :
    (cache.contents.map Prod.fst).Nodup := by
  rw [keys_contents h]
  exact h.nodup_ordered

/-- A lookup in the contents is one in the cache. -/
theorem lookup_contents (h : cache.Indexed none) (outpoint : OutPoint) :
    cache.contents.lookup outpoint =
      cache.entries[outpoint]?.map ConfirmedCacheEntry.script := by
  refine Option.ext fun script => ?_
  rw [lookup_eq_some_iff (nodup_keys_contents h), mem_contents h]

/-- The list weighs what the cache counts. -/
theorem total_contents (h : cache.Accounted none) :
    total estimatedScriptBytes cache.contents = cache.estimatedBytes := by
  have hEntries : ((cache.entries.toList.map fun entry => (entry.1, entry.2.script)).map
      Prod.fst).Nodup := by
    have hKeys := BTreeMap.nodup_keys cache.entries
    rw [← Std.ExtTreeMap.map_fst_toList_eq_keys] at hKeys
    rw [List.map_map]
    exact hKeys
  have hPerm : cache.contents.Perm
      (cache.entries.toList.map fun entry => (entry.1, entry.2.script)) := by
    rw [List.perm_ext_iff_of_nodup (nodup_keys_contents h.toIndexed).of_map hEntries.of_map]
    rintro ⟨outpoint, script⟩
    rw [mem_contents h.toIndexed, List.mem_map, Option.map_eq_some_iff]
    constructor
    · rintro ⟨entry, hEntry, rfl⟩
      exact ⟨(outpoint, entry), BTreeMap.mem_toList.mpr hEntry, rfl⟩
    · rintro ⟨⟨other, entry⟩, hMem, hEq⟩
      obtain ⟨rfl, rfl⟩ := Prod.mk.inj hEq
      exact ⟨entry, BTreeMap.mem_toList.mp hMem, rfl⟩
  rw [total, (hPerm.map fun entry => estimatedScriptBytes entry.2).sum_eq, List.map_map, h.bytes_eq,
    BTreeMap.sumBy]
  refine congrArg List.sum (List.map_congr_left fun entry hMem => ?_)
  exact (h.weight entry.1 entry.2 (BTreeMap.mem_toList.mp hMem)).symm

-- ---------------------------------------------------------------------------
-- Stamps
-- ---------------------------------------------------------------------------

/-- A stamp above all others puts its outpoint at the most recent end. -/
theorem toList_insert_stamp {lru : BTreeSet LruKey} {stamp : Nat} (outpoint : OutPoint)
    (hAbove : ∀ key ∈ lru, key.stamp < stamp) :
    (lru.insert ⟨stamp, outpoint⟩).toList = lru.toList ++ [⟨stamp, outpoint⟩] := by
  refine BTreeSet.toList_insert_of_above fun key hKey => ?_
  show (compare key.stamp stamp).then _ = .lt
  rw [Nat.compare_eq_lt.mpr (hAbove key hKey)]
  rfl

/-- Renumbering keeps the order. -/
theorem restamp_order : ∀ (rest : List OutPoint) (index : Nat) (cache : ConfirmedScriptCache),
    cache.Restamping hole rest index → (restamp rest index cache).order = cache.order ++ rest
  | [], index, cache, _ => (List.append_nil _).symm
  | outpoint :: rest, index, cache, h => by
    obtain ⟨entry, hEntry⟩ := h.present outpoint List.mem_cons_self
    have hLater := restamp_order rest (index + 1) _ (h.step hEntry)
    have hOne : (cache.lru.insert ⟨index, outpoint⟩).toList.map LruKey.outpoint =
        cache.order ++ [outpoint] := by
      rw [toList_insert_stamp outpoint h.below, List.map_append]
      rfl
    simp only [restamp, hEntry]
    rw [hLater]
    show (cache.lru.insert ⟨index, outpoint⟩).toList.map LruKey.outpoint ++ rest = _
    rw [hOne, List.append_assoc]
    rfl

/-- **Renumbering keeps the order**, also while an entry is out of it. -/
theorem renumber_order (h : cache.Accounted hole) : cache.renumber.order = cache.order :=
  restamp_order _ 0 _ h.restamping

/-- A new stamp keeps the order. -/
theorem allocateStamp_order (h : cache.Accounted hole) :
    cache.allocateStamp.2.order = cache.order := by
  unfold allocateStamp
  split
  · exact renumber_order h
  · rfl

/-- Unlinking a pair leaves its outpoint out of the order. -/
theorem order_erase (h : cache.Indexed none) {key : LruKey} (hKey : key ∈ cache.lru) :
    (cache.lru.erase key).toList.map LruKey.outpoint =
      cache.order.filter fun other => other ≠ key.outpoint := by
  rw [BTreeSet.toList_erase, order, List.filter_map]
  refine congrArg (List.map LruKey.outpoint) (List.filter_congr fun other hOther => ?_)
  rw [Std.ExtTreeSet.mem_toList] at hOther
  by_cases hEq : other = key
  · simp [hEq]
  · have hOutpoint : other.outpoint ≠ key.outpoint := fun hSame =>
      hEq (h.outpoint_inj hOther hKey hSame)
    simp [hEq, hOutpoint]

-- ---------------------------------------------------------------------------
-- Reading
-- ---------------------------------------------------------------------------

/-- **`get` touches** what it finds. -/
theorem get_contents (h : cache.Accounted none) (outpoint : OutPoint) :
    ∃ cache', cache.get outpoint = .ok (cache.contents.lookup outpoint, cache') ∧
      cache'.contents = touch outpoint cache.contents ∧ cache'.Accounted none ∧
      cache'.maximumBytes = cache.maximumBytes := by
  obtain ⟨cache', hGet, hSame, hAccounted⟩ := get_spec h outpoint
  rw [lookup_contents h.toIndexed]
  refine ⟨cache', hGet, ?_, hAccounted, hSame.maximum⟩
  unfold touch
  rw [lookup_contents h.toIndexed]
  cases hEntry : cache.entries[outpoint]? with
  | none =>
    rw [get, hEntry] at hGet
    obtain ⟨-, rfl⟩ := Prod.mk.inj (Except.ok.inj hGet)
    rfl
  | some entry =>
    have hOpen := h.untrack hEntry
    have hKey : (⟨entry.stamp, outpoint⟩ : LruKey) ∈ cache.lru :=
      (h.mem_lru _).mpr ⟨by simp, entry, hEntry, rfl⟩
    obtain ⟨hStampSame, -, hBelow, -, -⟩ := allocateStamp_spec hOpen
    have hOrder : (cache.untrack ⟨entry.stamp, outpoint⟩).allocateStamp.2.order =
        cache.order.filter fun other => other ≠ outpoint :=
      (allocateStamp_order hOpen).trans (order_erase h.toIndexed hKey)
    have hAfter : cache'.order = (cache.order.filter fun other => other ≠ outpoint) ++
        [outpoint] := by
      simp only [get, hEntry] at hGet
      generalize (cache.untrack ⟨entry.stamp, outpoint⟩).allocateStamp = allocated
        at hGet hBelow hOrder
      split at hGet
      · cases hGet
      · obtain ⟨-, rfl⟩ := Prod.mk.inj (Except.ok.inj hGet)
        rw [← hOrder]
        show (allocated.2.lru.insert ⟨allocated.1, outpoint⟩).toList.map LruKey.outpoint = _
        rw [toList_insert_stamp outpoint hBelow, List.map_append]
        rfl
    rw [contents, hAfter, pair?_congr hSame, List.filterMap_append, filterMap_without]
    refine congrArg (without outpoint cache.contents ++ ·) ?_
    have hPair : cache.pair? outpoint = some (outpoint, entry.script) := by
      rw [pair?, hEntry]
      rfl
    rw [List.filterMap_cons_some hPair]
    rfl

-- ---------------------------------------------------------------------------
-- Making room
-- ---------------------------------------------------------------------------

/-- **One eviction** takes the least recently used pair. -/
theorem evict_contents (h : cache.Accounted none) {key : LruKey} {entry : ConfirmedCacheEntry}
    (hEntry : cache.entries[key.outpoint]? = some entry) (hStamp : entry.stamp = key.stamp)
    (bytes : Nat) : (cache.evict key bytes).contents = without key.outpoint cache.contents := by
  have hKey : key ∈ cache.lru := (h.mem_lru key).mpr ⟨by simp, entry, hEntry, hStamp⟩
  rw [contents, contents, ← filterMap_without]
  show ((cache.lru.erase key).toList.map LruKey.outpoint).filterMap _ = _
  rw [order_erase h.toIndexed hKey]
  refine List.filterMap_congr fun other hOther => ?_
  have hNe : key.outpoint ≠ other := Ne.symm (by simpa using (List.mem_filter.mp hOther).2)
  show ((cache.entries.erase key.outpoint)[other]?).map _ = _
  rw [BTreeMap.getElem?_erase_eq, if_neg hNe]
  rfl

/-- **The eviction loop** is the shrinking of the reference. -/
theorem shrinkLoop_contents (bound : Nat) : ∀ (keys : List LruKey) (cache : ConfirmedScriptCache),
    cache.Accounted none → cache.lru.toList = keys →
    (shrinkLoop bound keys cache).contents = shrink estimatedScriptBytes bound cache.contents
  | [], cache, h, hKeys => by
    have hEmpty : cache.contents = [] := by
      rw [contents, order, hKeys]
      rfl
    have hBytes := total_contents h
    rw [hEmpty] at hBytes
    have hLe : ¬ cache.estimatedBytes > bound := by
      rw [← hBytes]
      exact Nat.not_lt_zero bound
    rw [shrinkLoop, if_neg hLe, hEmpty]
    rfl
  | key :: rest, cache, h, hKeys => by
    have hNodup := BTreeSet.nodup_toList cache.lru
    rw [hKeys] at hNodup
    have hMem : key ∈ cache.lru := by
      rw [← Std.ExtTreeSet.mem_toList, hKeys]
      exact List.mem_cons_self
    obtain ⟨-, entry, hEntry, hStamp⟩ := (h.mem_lru key).mp hMem
    by_cases hOver : cache.estimatedBytes > bound
    · have hRest : (cache.lru.erase key).toList = rest := by
        have hKey : ∀ other ∈ rest, decide (other ≠ key) = true := by
          intro other hOther
          rw [decide_eq_true_eq]
          rintro rfl
          exact (List.nodup_cons.mp hNodup).1 hOther
        rw [BTreeSet.toList_erase, hKeys, List.filter_cons_of_neg (by simp),
          List.filter_eq_self.mpr hKey]
      have hContents : cache.contents = (key.outpoint, entry.script) ::
          (cache.evict key (cache.estimatedBytes - entry.estimatedBytes)).contents := by
        have hPair : cache.pair? key.outpoint = some (key.outpoint, entry.script) := by
          rw [pair?, hEntry]
          rfl
        have hOrder : cache.order = key.outpoint :: rest.map LruKey.outpoint := by
          rw [order, hKeys, List.map_cons]
        have hFresh : key.outpoint ∉ rest.map LruKey.outpoint := by
          have hOrdered := h.nodup_ordered
          rw [hKeys, List.map_cons] at hOrdered
          exact (List.nodup_cons.mp hOrdered).1
        have hOthers : ∀ other ∈ rest.map LruKey.outpoint,
            decide (other ≠ key.outpoint) = true := by
          intro other hOther
          rw [decide_eq_true_eq]
          rintro rfl
          exact hFresh hOther
        rw [evict_contents h hEntry hStamp, contents, ← filterMap_without, hOrder,
          List.filterMap_cons_some hPair, List.filter_cons_of_neg (by simp),
          List.filter_eq_self.mpr hOthers]
      simp only [shrinkLoop, if_pos hOver, hEntry, hStamp, ne_eq, not_true_eq_false, if_false]
      rw [shrinkLoop_contents bound rest _ (h.evict key hEntry hStamp) hRest, hContents,
        shrink_cons_of_lt]
      rw [← hContents, total_contents h]
      exact hOver
    · rw [shrinkLoop, if_neg hOver, shrink_of_le]
      rw [total_contents h]
      exact Nat.not_lt.mp hOver

/-- `shrink_to` shrinks the contents. -/
theorem shrinkTo_contents (h : cache.Accounted none) (bound : Nat) :
    (cache.shrinkTo bound).contents = shrink estimatedScriptBytes bound cache.contents :=
  shrinkLoop_contents bound cache.lru.toList cache h rfl

-- ---------------------------------------------------------------------------
-- Inserting
-- ---------------------------------------------------------------------------

/-- `remove` takes a pair out. -/
theorem remove_contents (h : cache.Accounted none) (outpoint : OutPoint) :
    (cache.remove outpoint).contents = without outpoint cache.contents := by
  unfold remove
  cases hEntry : cache.entries[outpoint]? with
  | none =>
    refine (without_of_absent ?_).symm
    rw [keys_contents h.toIndexed, mem_order h.toIndexed]
    rintro ⟨entry, hSome⟩
    rw [hEntry] at hSome
    cases hSome
  | some existing => exact evict_contents h hEntry rfl _

/-- A new pair is the most recently used. -/
theorem push_contents (h : cache.Accounted none) {outpoint : OutPoint}
    (hNone : cache.entries[outpoint]? = none) (script : Script) :
    (cache.push outpoint script).contents = cache.contents ++ [(outpoint, script)] := by
  have hOpen : cache.Accounted (some outpoint) :=
    h.of_sameFacts (SameFacts.refl cache) (h.toIndexed.open hNone) h.fresh h.nextStamp_le
  obtain ⟨hSame, hIndexed, hBelow, -, -⟩ := allocateStamp_spec hOpen
  have hOrder : (cache.push outpoint script).order = cache.order ++ [outpoint] := by
    rw [← allocateStamp_order hOpen]
    show (cache.allocateStamp.2.lru.insert ⟨cache.allocateStamp.1, outpoint⟩).toList.map
      LruKey.outpoint = _
    rw [toList_insert_stamp outpoint hBelow, List.map_append]
    rfl
  have hPair : ∀ other, (cache.push outpoint script).pair? other =
      if outpoint = other then some (outpoint, script) else cache.pair? other := by
    intro other
    rw [← pair?_congr hSame]
    show ((cache.allocateStamp.2.entries.insert outpoint _)[other]?).map _ = _
    rw [BTreeMap.getElem?_insert_eq]
    split
    · next hEq =>
      rw [hEq]
      rfl
    · rfl
  rw [contents, hOrder, List.filterMap_append, contents]
  congr 1
  · refine List.filterMap_congr fun other hOther => ?_
    obtain ⟨entry, hEntry⟩ := (mem_order h.toIndexed).mp hOther
    rw [hPair, if_neg]
    rintro rfl
    rw [hNone] at hEntry
    cases hEntry
  · rw [List.filterMap_cons_some (by rw [hPair, if_pos rfl])]
    rfl

/-- An insertion keeps the accounting, whatever is reserved. -/
theorem insert_accounted (h : cache.Accounted none) (outpoint : OutPoint) (script : Script)
    (reservedBytes : Nat) : (cache.insert outpoint script reservedBytes).2.Accounted none ∧
      (cache.insert outpoint script reservedBytes).2.maximumBytes = cache.maximumBytes := by
  obtain ⟨-, hRemoved, hShrunk, -, hNone⟩ := remove_spec h outpoint
  unfold insert
  split
  · exact ⟨hRemoved, hShrunk.maximum⟩
  · dsimp only
    split
    · exact ⟨h, rfl⟩
    · next hRoom =>
      obtain ⟨-, hAccounted, hShrunk', hLe⟩ := shrinkTo_spec hRemoved
        (cache.maximumBytes - reservedBytes - estimatedScriptBytes script)
      have hMaximum := hShrunk'.maximum.trans hShrunk.maximum
      obtain ⟨hPushed, -, hPushMaximum⟩ :=
        push_spec hAccounted (hShrunk'.absent hNone) script (by rw [hMaximum]; omega)
      exact ⟨hPushed, hPushMaximum.trans hMaximum⟩

/-- **`insert` refines** the reference's. -/
theorem insert_contents (h : cache.Accounted none) (outpoint : OutPoint) (script : Script)
    (reservedBytes : Nat) :
    ((cache.insert outpoint script reservedBytes).1,
        (cache.insert outpoint script reservedBytes).2.contents) =
      cache.contents.insert cache.maximumBytes outpoint script reservedBytes := by
  obtain ⟨-, hRemoved, -, -, hNone⟩ := remove_spec h outpoint
  have hConflicts : cache.conflicts outpoint script =
      (cache.contents.lookup outpoint).any fun held => held ≠ script := by
    rw [lookup_contents h.toIndexed, conflicts, Option.any_map]
  simp only [insert, Recency.insert, hConflicts]
  split
  · rw [remove_contents h]
  · split
    · rfl
    · obtain ⟨-, hAccounted, hShrunk, -⟩ := shrinkTo_spec hRemoved
        (cache.maximumBytes - reservedBytes - estimatedScriptBytes script)
      rw [push_contents hAccounted (hShrunk.absent hNone), shrinkTo_contents hRemoved,
        remove_contents h]

-- ---------------------------------------------------------------------------
-- Calls
-- ---------------------------------------------------------------------------

/-- One call answers, and changes the list, as the list would. -/
theorem reply_refines (h : cache.Accounted none) (call : CacheCall) :
    ∃ cache', cache.reply call =
        .ok ((cache.contents.reply cache.maximumBytes call).1, cache') ∧
      cache'.contents = (cache.contents.reply cache.maximumBytes call).2 ∧
      cache'.Accounted none ∧ cache'.maximumBytes = cache.maximumBytes := by
  cases call with
  | get outpoint =>
    obtain ⟨cache', hGet, hRest⟩ := get_contents h outpoint
    exact ⟨cache', by rw [reply, hGet]; rfl, hRest⟩
  | insert outpoint script reservedBytes =>
    have hInsert := insert_contents h outpoint script reservedBytes
    refine ⟨(cache.insert outpoint script reservedBytes).2, ?_, congrArg Prod.snd hInsert,
      insert_accounted h outpoint script reservedBytes⟩
    rw [Recency.reply, ← hInsert]
    rfl
  | reserveForOutputs outputBytes =>
    obtain ⟨-, hAccounted, hShrunk, -⟩ := shrinkTo_spec h (cache.maximumBytes - outputBytes)
    exact ⟨cache.reserveForOutputs outputBytes, rfl, shrinkTo_contents h _, hAccounted,
      hShrunk.maximum⟩

/-- What a consistent cache promises: it holds, under the stamps it has, the list that the
calls made of it. -/
structure Refines (cache : ConfirmedScriptCache) (calls : List CacheCall)
    (cache' : ConfirmedScriptCache) : Prop where
  replies : cache.replies calls =
    .ok ((Recency.replies cache.maximumBytes calls cache.contents).1, cache')
  contents : cache'.contents = (Recency.replies cache.maximumBytes calls cache.contents).2
  accounted : cache'.Accounted none
  maximum : cache'.maximumBytes = cache.maximumBytes

/-- **A list of calls** refines the reference. -/
theorem replies_refine (calls : List CacheCall) : ∀ (cache : ConfirmedScriptCache),
    cache.Accounted none → ∃ cache', Refines cache calls cache' := by
  induction calls with
  | nil => exact fun cache h => ⟨cache, rfl, rfl, h, rfl⟩
  | cons call rest ih =>
    intro cache h
    obtain ⟨next, hReply, hContents, hAccounted, hMaximum⟩ := reply_refines h call
    obtain ⟨last, hRest⟩ := ih next hAccounted
    refine ⟨last, ?_, ?_, hRest.accounted, hRest.maximum.trans hMaximum⟩
    · rw [replies, hReply]
      show (do
        let (later, cache) ← next.replies rest
        return (_ :: later, cache)) = _
      rw [hRest.replies, hMaximum, hContents]
      rfl
    · rw [hRest.contents, hMaximum, hContents]
      rfl

/-- What leaves to meet a bound is the shortest least recent prefix that does. -/
def ShortestEvictions (recency : Recency) : Prop :=
  ∀ bound, ∃ count, shrink estimatedScriptBytes bound recency = recency.drop count ∧
    total estimatedScriptBytes (recency.drop count) ≤ bound ∧
    ∀ fewer < count, bound < total estimatedScriptBytes (recency.drop fewer)

/-- **The cache is an exact byte-weighted LRU.** Whatever calls, from any consistent state;
a renumbering, also with an entry out of the order, keeps the order and leaves every stamp
its own outpoint. -/
theorem confirmed_cache_refines_lru (cache : ConfirmedScriptCache) (h : cache.Accounted none)
    (calls : List CacheCall) : ∃ cache', Refines cache calls cache' ∧
      ShortestEvictions cache'.contents ∧
      (∀ hole, cache'.Accounted hole → cache'.renumber.order = cache'.order ∧
        cache'.renumber.Indexed hole ∧
        ∀ key ∈ cache'.renumber.lru, key.stamp < cache'.renumber.nextStamp) := by
  obtain ⟨cache', hRefines⟩ := replies_refine calls cache h
  refine ⟨cache', hRefines, fun bound => ⟨_, rfl, total_shrink_le bound _, fun fewer hFewer =>
    lt_total_of_lt_evictions hFewer⟩, fun hole hAccounted => ?_⟩
  obtain ⟨-, hIndexed, hBelow, -⟩ := renumber_spec hAccounted
  exact ⟨renumber_order hAccounted, hIndexed, hBelow⟩

/-- A cache of one entry whose stamps have run out. -/
def spentStamps : ConfirmedScriptCache :=
  { ((new 4096).insert ⟨7, 0⟩ [0x51] 0).2 with nextStamp := u64Max }

theorem spentStamps_accounted : spentStamps.Accounted none := by
  have hNew : (new 4096).Accounted none := accounted_new (by decide)
  have hOne := (insert_accounted hNew ⟨7, 0⟩ [0x51] 0).1
  exact hOne.of_sameFacts ⟨fun _ => rfl, rfl, rfl⟩ ⟨hOne.mem_lru, hOne.unique⟩
    (fun key hKey => (hOne.fresh key hKey).trans_le hOne.nextStamp_le) (Nat.le_refl _)

/-- The sample cache, whose stamps are spent: the calls renumber it and evict. -/
theorem confirmed_cache_refines_lru_spentStamps :
    ∃ cache', Refines spentStamps
        [.get ⟨7, 0⟩, .insert ⟨8, 1⟩ [0x52] 1024, .reserveForOutputs 4000] cache' ∧
      ShortestEvictions cache'.contents ∧
      (∀ hole, cache'.Accounted hole → cache'.renumber.order = cache'.order ∧
        cache'.renumber.Indexed hole ∧
        ∀ key ∈ cache'.renumber.lru, key.stamp < cache'.renumber.nextStamp) :=
  confirmed_cache_refines_lru spentStamps spentStamps_accounted _

end ConfirmedScriptCache

end MempoolAtlas.Classification
