import MempoolAtlas.Classification.CacheBudget
import MempoolAtlas.Classification.Evaluation
import MempoolAtlas.Classification.Recency

/-!
# The caches hold answers only

What an insertion adds to the output cache and the confirmed cache, and that both
hold nothing but what the node answered: outputs of raw transactions, and scripts of
positive `gettxout` answers. A null or a failure is never stored in either.

## Results

* `SoundCaches.mergeCaches`, `SoundCaches.installCaches` — a merge and a carry-over keep the
  caches sound.
-/

namespace MempoolAtlas.Classification

open Machine Model BitcoinCrate

-- ---------------------------------------------------------------------------
-- What an insertion adds
-- ---------------------------------------------------------------------------

namespace ConfirmedScriptCache

/-- What an insertion leaves in the cache. -/
theorem mem_recencyInsert {maximumBytes reservedBytes : Nat} {outpoint : OutPoint}
    {script : Script} {recency : Recency} {pair : OutPoint × Script}
    (h : pair ∈ (recency.insert maximumBytes outpoint script reservedBytes).2) :
    pair = (outpoint, script) ∨ pair ∈ recency := by
  simp only [Recency.insert] at h
  split at h
  · exact Or.inr (List.mem_of_mem_filter h)
  · split at h
    · exact Or.inr h
    · rcases List.mem_append.mp h with hOld | hNew
      · exact Or.inr (List.mem_of_mem_filter (List.mem_of_mem_drop hOld))
      · exact Or.inl (List.mem_singleton.mp hNew)

/-- An entry after an insertion is the inserted one, or holds what it held before. -/
theorem insert_entry {cache : ConfirmedScriptCache} (h : cache.Accounted none)
    {outpoint other : OutPoint} {script : Script} {reservedBytes : Nat}
    {entry : ConfirmedCacheEntry}
    (hEntry : (cache.insert outpoint script reservedBytes).2.entries[other]? = some entry) :
    (other = outpoint ∧ entry.script = script) ∨
      ∃ old, cache.entries[other]? = some old ∧ old.script = entry.script := by
  obtain ⟨hAccounted, -⟩ := insert_accounted h outpoint script reservedBytes
  have hContents := congrArg Prod.snd (insert_contents h outpoint script reservedBytes)
  have hMem : (other, entry.script) ∈ (cache.insert outpoint script reservedBytes).2.contents := by
    rw [mem_contents hAccounted.toIndexed, hEntry, Option.map_some]
  rw [show (cache.insert outpoint script reservedBytes).2.contents = _ from hContents] at hMem
  rcases mem_recencyInsert hMem with hNew | hOld
  · obtain ⟨rfl, hScript⟩ := Prod.mk.inj hNew
    exact Or.inl ⟨rfl, hScript⟩
  · rw [mem_contents h.toIndexed] at hOld
    obtain ⟨old, hGet, hScript⟩ := Option.map_eq_some_iff.mp hOld
    exact Or.inr ⟨old, hGet, hScript⟩

end ConfirmedScriptCache

-- ---------------------------------------------------------------------------
-- Sound caches
-- ---------------------------------------------------------------------------

section Crate

variable [BitcoinCrate] [WireJson]

/-- Every script of a confirmed cache was answered for its outpoint. -/
def ConfirmedSound (history : List Event) (cache : ConfirmedScriptCache) : Prop :=
  ∀ (outpoint : OutPoint) entry, cache.entries[outpoint]? = some entry →
    PositiveAnswer history outpoint entry.script

/-- All outputs of an output cache are those of transactions the node answered. -/
def OutputsSound (history : List Event) (outputs : BTreeMap Txid CachedOutputs) : Prop :=
  ∀ (txid : Txid) cached, outputs[txid]? = some cached → OutputsSeen history txid cached

/-- Both caches hold answers only, within the ceiling they share. -/
structure SoundCaches (history : List Event) (maximum : Nat) (caches : AuxiliaryCaches) : Prop
    extends Balanced maximum caches where
  outputs : OutputsSound history caches.outputs
  confirmed : ConfirmedSound history caches.confirmed

variable {history history' : List Event}

theorem ConfirmedSound.mono (hSub : history ⊆ history') {cache : ConfirmedScriptCache}
    (h : ConfirmedSound history cache) : ConfirmedSound history' cache :=
  fun outpoint entry hEntry => (h outpoint entry hEntry).mono hSub

theorem OutputsSound.mono (hSub : history ⊆ history') {outputs : BTreeMap Txid CachedOutputs}
    (h : OutputsSound history outputs) : OutputsSound history' outputs :=
  fun txid cached hGet => (h txid cached hGet).mono hSub

/-- Evictions keep the cache sound. -/
theorem ConfirmedSound.shrunk {cache cache' : ConfirmedScriptCache}
    (h : ConfirmedSound history cache) (hShrunk : ConfirmedScriptCache.Shrunk cache cache') :
    ConfirmedSound history cache' :=
  fun outpoint entry hEntry => h outpoint entry (hShrunk.entries outpoint entry hEntry)

omit [BitcoinCrate] [WireJson] in
/-- The entry a restamped one comes from. -/
theorem ConfirmedScriptCache.SameFacts.entry_from {cache cache' : ConfirmedScriptCache}
    (h : ConfirmedScriptCache.SameFacts cache cache') {outpoint : OutPoint}
    {entry : ConfirmedCacheEntry} (hEntry : cache'.entries[outpoint]? = some entry) :
    ∃ old, cache.entries[outpoint]? = some old ∧ old.script = entry.script := by
  have hFact := h.entries outpoint
  rw [hEntry, Option.map_some] at hFact
  obtain ⟨old, hOld, hEq⟩ := Option.map_eq_some_iff.mp hFact.symm
  exact ⟨old, hOld, congrArg Prod.fst hEq⟩

theorem ConfirmedSound.sameFacts {cache cache' : ConfirmedScriptCache}
    (h : ConfirmedSound history cache) (hSame : ConfirmedScriptCache.SameFacts cache cache') :
    ConfirmedSound history cache' := by
  intro outpoint entry hEntry
  obtain ⟨old, hOld, hScript⟩ := hSame.entry_from hEntry
  rw [← hScript]
  exact h outpoint old hOld

/-- Inserting outputs keeps the caches sound. -/
theorem SoundCaches.insertOutputs {maximum : Nat} {caches : AuxiliaryCaches}
    (h : SoundCaches history maximum caches) {entry : Txid × CachedOutputs}
    (hEntry : OutputsSeen history entry.1 entry.2) :
    SoundCaches history maximum (insertOutputs maximum caches entry) := by
  refine ⟨(insertOutputs_spec h.toBalanced entry).2, ?_, ?_⟩
  · unfold Classification.insertOutputs
    dsimp only
    split
    · exact h.outputs
    · split
      · exact h.outputs
      · intro txid cached hGet
        dsimp only at hGet
        rw [BTreeMap.getElem?_insert_eq] at hGet
        split at hGet
        · next hTxid =>
          rw [← hTxid, ← Option.some.inj hGet]
          exact hEntry
        · exact h.outputs txid cached hGet
  · unfold Classification.insertOutputs
    dsimp only
    split
    · exact h.confirmed
    · next newTotal _ =>
      split
      · exact h.confirmed
      · next hFits =>
        obtain ⟨-, -, hShrunk, -⟩ := ConfirmedScriptCache.reserveForOutputs_spec h.accounted
          (by rw [h.maximum_eq]; omega : newTotal ≤ caches.confirmed.maximumBytes)
        exact h.confirmed.shrunk hShrunk

/-- Inserting a script keeps the caches sound. -/
theorem SoundCaches.insertConfirmed {maximum : Nat} {caches : AuxiliaryCaches}
    (h : SoundCaches history maximum caches) {entry : OutPoint × Script}
    (hEntry : PositiveAnswer history entry.1 entry.2) :
    SoundCaches history maximum (insertConfirmed caches entry) := by
  refine ⟨(insertConfirmed_spec h.toBalanced entry).2, h.outputs, fun outpoint found hFound => ?_⟩
  rcases ConfirmedScriptCache.insert_entry h.accounted hFound with ⟨rfl, hScript⟩ |
    ⟨old, hOld, hScript⟩
  · rw [hScript]
    exact hEntry
  · rw [← hScript]
    exact h.confirmed outpoint old hOld

/-- A merge adds what its slice fetched. -/
theorem SoundCaches.mergeCaches {limits : ClassificationLimits} {caches : AuxiliaryCaches}
    (h : SoundCaches history limits.maxAuxiliaryCacheBytes caches)
    {outputs : BTreeMap Txid CachedOutputs} (hOutputs : OutputsSound history outputs)
    {confirmedScripts : BTreeMap OutPoint Script}
    (hConfirmed : ∀ (outpoint : OutPoint) script, confirmedScripts[outpoint]? = some script →
      PositiveAnswer history outpoint script) :
    SoundCaches history limits.maxAuxiliaryCacheBytes
      (mergeCaches limits outputs confirmedScripts caches) := by
  unfold Classification.mergeCaches
  refine List.foldlRecOn (motive := SoundCaches history limits.maxAuxiliaryCacheBytes) _ _ ?_ ?_
  · refine List.foldlRecOn (motive := SoundCaches history limits.maxAuxiliaryCacheBytes) _ _ h ?_
    intro caches hCaches entry hMem
    exact hCaches.insertOutputs (hOutputs entry.1 entry.2 (BTreeMap.mem_toList.mp hMem))
  · intro caches hCaches entry hMem
    exact hCaches.insertConfirmed (hConfirmed entry.1 entry.2 (BTreeMap.mem_toList.mp hMem))

-- ---------------------------------------------------------------------------
-- Carrying
-- ---------------------------------------------------------------------------

/-- What an installation carries: classifications and outputs of the previous
generation. -/
structure CarriedFrom (previous : ClassificationWork) (carried : Carried) : Prop where
  cached : ∀ (wtxid : String) cached, carried.cached[wtxid]? = some cached →
    previous.classifications[wtxid]? = some cached
  outputs : ∀ entry ∈ carried.outputs, previous.outputs[entry.1]? = some entry.2

omit [WireJson] in
theorem CarriedFrom.entry {previous : ClassificationWork} {carried : Carried}
    (h : CarriedFrom previous carried) (entry : MempoolEntry) :
    CarriedFrom previous
      (carryOutputs previous entry (carryClassification previous entry carried)) := by
  have hClassified : CarriedFrom previous (carryClassification previous entry carried) := by
    unfold carryClassification
    split
    · exact h
    · next cached hGet =>
      split
      · refine ⟨fun wtxid found hFound => ?_, h.outputs⟩
        dsimp only at hFound
        rw [BTreeMap.getElem?_insert_eq] at hFound
        split at hFound
        · next hEq =>
          rw [← hEq, ← Option.some.inj hFound]
          exact hGet
        · exact h.cached wtxid found hFound
      · exact h
  unfold carryOutputs
  split
  · exact hClassified
  · next txid hTxid =>
    split
    · exact hClassified
    · next outputs hGet =>
      split
      · refine ⟨hClassified.cached, fun found hMem => ?_⟩
        rcases List.mem_append.mp hMem with hOld | hNew
        · exact hClassified.outputs found hOld
        · rw [List.mem_singleton.mp hNew]
          exact hGet
      · exact hClassified

omit [WireJson] in
/-- What is carried over was there before. -/
theorem carry_from (previous : ClassificationWork) (membership : MempoolSnapshot) :
    CarriedFrom previous (carry (some previous) membership) := by
  refine List.foldlRecOn (motive := CarriedFrom previous) _ _ ⟨fun _ _ h => ?_, fun _ h => ?_⟩ ?_
  · simp at h
  · exact absurd h List.not_mem_nil
  · intro carried hCarried entry _
    exact hCarried.entry entry

/-- A carry-over keeps the caches sound. -/
theorem SoundCaches.installCaches {limits : ClassificationLimits} {carried : Carried}
    {confirmed : ConfirmedScriptCache} (hAccounted : confirmed.Accounted none)
    (hMaximum : confirmed.maximumBytes = limits.maxAuxiliaryCacheBytes)
    (hConfirmed : ConfirmedSound history confirmed)
    (hOutputs : ∀ entry ∈ carried.outputs, OutputsSeen history entry.1 entry.2) :
    SoundCaches history limits.maxAuxiliaryCacheBytes (installCaches limits carried confirmed) := by
  refine List.foldlRecOn (motive := SoundCaches history limits.maxAuxiliaryCacheBytes) _ _ ?_ ?_
  · refine ⟨balanced_empty hAccounted hMaximum, fun txid cached hGet => ?_, hConfirmed⟩
    simp at hGet
  · intro caches hCaches entry hMem
    exact hCaches.insertOutputs (hOutputs entry hMem)

end Crate

end MempoolAtlas.Classification
