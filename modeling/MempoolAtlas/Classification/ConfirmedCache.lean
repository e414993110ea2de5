import MempoolAtlas.Lib.BTree
import MempoolAtlas.Lib.Machine
import MempoolAtlas.Classification.Limits

/-!
# The auxiliary caches

The two caches of `src/classification.rs` that share one byte ceiling: the
positive-only LRU cache of confirmed scripts, which outlives a generation, and
the cached outputs of raw transactions, which belong to one. Operations follow
the source; `shrinkToExact`, `insertExact` and `insertOutputsExact` are the same
operations with every `saturating_sub` checked and every fallback branch of
`shrink_to` refused, and exist to be compared with them.
-/

namespace MempoolAtlas.Classification

open Machine

/-- The `expect` and `unreachable!` sites of the classification pipeline that a
caller's data could reach. -/
inductive Panic where
  /-- `"confirmed cache entry remains present"` -/
  | confirmedEntryRemains
  /-- `"ready candidate remains active"` -/
  | readyCandidateRemains
  /-- `"only terminal candidates are classified"` -/
  | onlyTerminalCandidates
  /-- `"structure derivability is verified when raw transactions are admitted"` -/
  | structureVerified
deriving DecidableEq, Repr

/-- The output scripts of a transaction, with what they take of the cache. -/
structure CachedOutputs where
  wtxid : String
  scripts : List Script
  estimatedBytes : Nat
deriving DecidableEq, Repr

/-- The script of an output. -/
def CachedOutputs.script (outputs : CachedOutputs) (vout : UInt32) : Option Script :=
  outputs.scripts[vout.toNat]?

/-- What a script takes of the cache. -/
def estimatedScriptBytes (script : Script) : Nat :=
  saturatingAdd script.length estimatedJsonBytesPerResponse

/-- A cached script with the stamp of its last use. -/
structure ConfirmedCacheEntry where
  script : Script
  estimatedBytes : Nat
  stamp : Nat
deriving DecidableEq, Repr

/-- The `(stamp, outpoint)` pairs of the LRU order. -/
structure LruKey where
  stamp : Nat
  outpoint : OutPoint
deriving DecidableEq, Repr

namespace LruKey

instance : Ord LruKey := ⟨compareLex (compareOn stamp) (compareOn outpoint)⟩

instance : Std.TransOrd LruKey :=
  inferInstanceAs (Std.TransCmp (compareLex (compareOn stamp) (compareOn outpoint)))

instance : Std.LawfulEqOrd LruKey where
  eq_of_compare {a b} h := by
    have hLex : compareLex (compareOn stamp) (compareOn outpoint) a b = .eq := h
    rw [compareLex_eq_eq] at hLex
    obtain ⟨hStamp, hOutpoint⟩ := hLex
    obtain ⟨aStamp, aOutpoint⟩ := a
    obtain ⟨bStamp, bOutpoint⟩ := b
    simp only [compareOn, Std.LawfulEqCmp.compare_eq_iff_eq] at hStamp hOutpoint
    rw [hStamp, hOutpoint]

end LruKey

/-- The cache: its entries, its index by recency and its byte count. -/
structure ConfirmedScriptCache where
  entries : BTreeMap OutPoint ConfirmedCacheEntry
  lru : BTreeSet LruKey
  estimatedBytes : Nat
  maximumBytes : Nat
  nextStamp : Nat

namespace ConfirmedScriptCache

/-- An empty cache under a ceiling. -/
def new (maximumBytes : Nat) : ConfirmedScriptCache where
  entries := ∅
  lru := ∅
  estimatedBytes := 0
  maximumBytes
  nextStamp := 0

-- ---------------------------------------------------------------------------
-- Stamps
-- ---------------------------------------------------------------------------

/-- The renumbering loop of `allocate_stamp`. -/
def restamp : List OutPoint → Nat → ConfirmedScriptCache → ConfirmedScriptCache
  | [], _, cache => cache
  | outpoint :: rest, index, cache =>
    match cache.entries[outpoint]? with
    | none => restamp rest (index + 1) cache
    | some entry =>
      restamp rest (index + 1) {
        cache with
        entries := cache.entries.insert outpoint { entry with stamp := index }
        lru := cache.lru.insert ⟨index, outpoint⟩ }

/-- `renumber`: stamps start over, in the order of use. -/
def renumber (cache : ConfirmedScriptCache) : ConfirmedScriptCache :=
  let ordered := cache.lru.toList.map LruKey.outpoint
  let cache := restamp ordered 0 { cache with lru := ∅ }
  { cache with nextStamp := cache.lru.size }

/-- The next stamp; spent stamps are renumbered first. -/
def allocateStamp (cache : ConfirmedScriptCache) : Nat × ConfirmedScriptCache :=
  let cache := if cache.nextStamp = u64Max then cache.renumber else cache
  (cache.nextStamp, { cache with nextStamp := cache.nextStamp + 1 })

-- ---------------------------------------------------------------------------
-- Reading, shrinking, inserting
-- ---------------------------------------------------------------------------

/-- `lru.remove(key)`. -/
def untrack (cache : ConfirmedScriptCache) (key : LruKey) : ConfirmedScriptCache :=
  { cache with lru := cache.lru.erase key }

/-- `get`: what is found becomes the most recently used. -/
def get (cache : ConfirmedScriptCache) (outpoint : OutPoint) :
    Except Panic (Option Script × ConfirmedScriptCache) :=
  match cache.entries[outpoint]? with
  | none => .ok (none, cache)
  | some entry =>
    let allocated := (cache.untrack ⟨entry.stamp, outpoint⟩).allocateStamp
    match allocated.2.entries[outpoint]? with
    | none => .error .confirmedEntryRemains
    | some current =>
      .ok (some entry.script, {
        allocated.2 with
        entries := allocated.2.entries.insert outpoint { current with stamp := allocated.1 }
        lru := allocated.2.lru.insert ⟨allocated.1, outpoint⟩ })

/-- Drop the entry a pair of the LRU order stands for. -/
def evict (cache : ConfirmedScriptCache) (key : LruKey) (bytes : Nat) : ConfirmedScriptCache :=
  { cache with
    lru := cache.lru.erase key
    entries := cache.entries.erase key.outpoint
    estimatedBytes := bytes }

/-- The loop of `shrink_to`, over what `pop_first` yields: the LRU order itself. -/
def shrinkLoop (targetBytes : Nat) : List LruKey → ConfirmedScriptCache → ConfirmedScriptCache
  | [], cache =>
    if cache.estimatedBytes > targetBytes then { cache with entries := ∅, estimatedBytes := 0 }
    else cache
  | key :: rest, cache =>
    if cache.estimatedBytes > targetBytes then
      match cache.entries[key.outpoint]? with
      | none => shrinkLoop targetBytes rest (cache.untrack key)
      | some entry =>
        if entry.stamp ≠ key.stamp then
          shrinkLoop targetBytes rest (cache.untrack key)
        else
          shrinkLoop targetBytes rest
            (cache.evict key (cache.estimatedBytes - entry.estimatedBytes))
    else cache

/-- `shrink_to`: the least recently used entries go until the rest fits. -/
def shrinkTo (cache : ConfirmedScriptCache) (targetBytes : Nat) : ConfirmedScriptCache :=
  shrinkLoop targetBytes cache.lru.toList cache

/-- The cache makes room for the output cache. -/
def reserveForOutputs (cache : ConfirmedScriptCache) (outputBytes : Nat) : ConfirmedScriptCache :=
  cache.shrinkTo (cache.maximumBytes - outputBytes)

/-- `entries.remove(outpoint)` with its LRU pair and its bytes. -/
def remove (cache : ConfirmedScriptCache) (outpoint : OutPoint) : ConfirmedScriptCache :=
  match cache.entries[outpoint]? with
  | none => cache
  | some existing =>
    cache.evict ⟨existing.stamp, outpoint⟩ (cache.estimatedBytes - existing.estimatedBytes)

/-- Store an entry under a fresh stamp. -/
def push (cache : ConfirmedScriptCache) (outpoint : OutPoint) (script : Script) :
    ConfirmedScriptCache :=
  let allocated := cache.allocateStamp
  { allocated.2 with
    estimatedBytes := saturatingAdd allocated.2.estimatedBytes (estimatedScriptBytes script)
    entries := allocated.2.entries.insert outpoint {
      script, estimatedBytes := estimatedScriptBytes script, stamp := allocated.1 }
    lru := allocated.2.lru.insert ⟨allocated.1, outpoint⟩ }

/-- Whether another script is already held for the outpoint. -/
def conflicts (cache : ConfirmedScriptCache) (outpoint : OutPoint) (script : Script) : Bool :=
  cache.entries[outpoint]?.any fun existing => existing.script ≠ script

/-- `insert`: a script too large for what is left is refused. -/
def insert (cache : ConfirmedScriptCache) (outpoint : OutPoint) (script : Script)
    (reservedBytes : Nat) : Bool × ConfirmedScriptCache :=
  if cache.conflicts outpoint script then (false, cache.remove outpoint)
  else
    let available := cache.maximumBytes - reservedBytes
    if estimatedScriptBytes script > available then (false, cache)
    else
      (true, ((cache.remove outpoint).shrinkTo (available - estimatedScriptBytes script)).push
        outpoint script)

-- ---------------------------------------------------------------------------
-- The same operations, refusing every clipped subtraction and fallback
-- ---------------------------------------------------------------------------

/-- The eviction loop where an index without its entry is an error. -/
def shrinkLoopExact (targetBytes : Nat) :
    List LruKey → ConfirmedScriptCache → Option ConfirmedScriptCache
  | [], cache => if cache.estimatedBytes > targetBytes then none else some cache
  | key :: rest, cache =>
    if cache.estimatedBytes > targetBytes then do
      let entry ← cache.entries[key.outpoint]?
      if entry.stamp ≠ key.stamp then none
      else
        let bytes ← checkedSub cache.estimatedBytes entry.estimatedBytes
        shrinkLoopExact targetBytes rest (cache.evict key bytes)
    else some cache

/-- `shrink_to` without a fallback. -/
def shrinkToExact (cache : ConfirmedScriptCache) (targetBytes : Nat) :
    Option ConfirmedScriptCache :=
  shrinkLoopExact targetBytes cache.lru.toList cache

/-- `reserve_for_outputs` without a fallback. -/
def reserveForOutputsExact (cache : ConfirmedScriptCache) (outputBytes : Nat) :
    Option ConfirmedScriptCache := do
  let target ← checkedSub cache.maximumBytes outputBytes
  cache.shrinkToExact target

/-- `remove` without a clipped count. -/
def removeExact (cache : ConfirmedScriptCache) (outpoint : OutPoint) :
    Option ConfirmedScriptCache :=
  match cache.entries[outpoint]? with
  | none => some cache
  | some existing => do
    let bytes ← checkedSub cache.estimatedBytes existing.estimatedBytes
    return cache.evict ⟨existing.stamp, outpoint⟩ bytes

/-- `insert` without a fallback. -/
def insertExact (cache : ConfirmedScriptCache) (outpoint : OutPoint) (script : Script)
    (reservedBytes : Nat) : Option (Bool × ConfirmedScriptCache) :=
  if cache.conflicts outpoint script then do
    let cache ← cache.removeExact outpoint
    return (false, cache)
  else do
    let available ← checkedSub cache.maximumBytes reservedBytes
    if estimatedScriptBytes script > available then return (false, cache)
    else
      let target ← checkedSub available (estimatedScriptBytes script)
      let cache ← cache.removeExact outpoint
      let cache ← cache.shrinkToExact target
      return (true, cache.push outpoint script)

end ConfirmedScriptCache

end MempoolAtlas.Classification
