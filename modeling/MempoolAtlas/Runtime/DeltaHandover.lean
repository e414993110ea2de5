import MempoolAtlas.Classification.Revisions
import MempoolAtlas.Runtime.Handovers
import MempoolAtlas.Runtime.SourceCalls
import MempoolAtlas.Runtime.SourcePipelines

/-!
# Deltas on their way to the publisher

A source's pipeline and its publisher name the same stages: a generation at a revision.
The journal of a life holds what the pipeline has stood at, what the installations began
with and what the slices reported. `HandedOver` says how far the publisher has followed
it, with the one delta that may be on its way.

## Results

* `replay_append` — deltas replay one part after the other.
* `KeepsStandings.movesOn`, `InFlight.extends` — a pipeline that keeps its standings moves on,
  and a longer journal keeps what is in flight.
-/

namespace MempoolAtlas.Runtime

open Model Machine Classification Indexes

-- ---------------------------------------------------------------------------
-- Journals
-- ---------------------------------------------------------------------------

/-- What a pipeline has emitted, and what it started from. -/
structure Journal where
  /-- The generation has stood at the revision with the records. -/
  past : Nat → Nat → BTreeMap String CachedClassification → Prop
  begun : List ClassificationGenerationStart
  emitted : List ClassificationRevisionDelta

/-- The deltas of one generation. -/
def deltasOf (generation : Nat) (emitted : List ClassificationRevisionDelta) :
    List ClassificationRevisionDelta :=
  emitted.filter fun delta => delta.generation == generation

/-- The map after the changes of some deltas, one after another. -/
def replay (classifications : TransactionClassifications)
    (deltas : List ClassificationRevisionDelta) : TransactionClassifications :=
  deltas.foldl (fun map delta => accumulate map delta.changed) classifications

/-- Replaying one part after the other. -/
theorem replay_append (classifications : TransactionClassifications)
    (first second : List ClassificationRevisionDelta) :
    replay classifications (first ++ second) = replay (replay classifications first) second :=
  List.foldl_append ..

/-- A journal with more in it. -/
structure Journal.Extends (journal journal' : Journal) : Prop where
  past : ∀ generation revision records, journal.past generation revision records →
    journal'.past generation revision records
  begun : journal.begun ⊆ journal'.begun
  emitted : journal.emitted <+: journal'.emitted

theorem Journal.Extends.refl (journal : Journal) : journal.Extends journal :=
  ⟨fun _ _ _ h => h, List.Subset.refl _, List.prefix_rfl⟩

theorem deltasOf_append (generation : Nat) (first second : List ClassificationRevisionDelta) :
    deltasOf generation (first ++ second) =
      deltasOf generation first ++ deltasOf generation second :=
  List.filter_append ..

theorem deltasOf_mono (generation : Nat) {emitted emitted' : List ClassificationRevisionDelta}
    (h : emitted <+: emitted') : deltasOf generation emitted <+: deltasOf generation emitted' :=
  h.filter _

theorem take_eq_take {α : Type} {l l' : List α} (h : l <+: l') {n : Nat} (hn : n ≤ l.length) :
    l'.take n = l.take n := by
  obtain ⟨rest, rfl⟩ := h
  exact List.take_append_of_le_length hn

-- ---------------------------------------------------------------------------
-- What the pipeline has stood at
-- ---------------------------------------------------------------------------

/-- A generation of the pipeline stands at a revision with these records. -/
def StandsAt (pipeline : PipelineState) (generation revision : Nat)
    (records : BTreeMap String CachedClassification) : Prop :=
  ∃ standing, pipeline.standing generation = some standing ∧ standing.revision = revision ∧
    standing.records = records

/-- The journal takes note of where the pipeline stands. -/
def Journal.noting (journal : Journal) (pipeline : PipelineState) : Journal where
  past generation revision records :=
    journal.past generation revision records ∨ StandsAt pipeline generation revision records
  begun := journal.begun
  emitted := journal.emitted

/-- The journal knows how the pipeline came to its records. -/
structure Remembered (journal : Journal) (pipeline : PipelineState) : Prop where
  distinct : ∀ (id : Nat) standing, pipeline.standing id = some standing →
    DistinctEntries standing.membership
  filedFor : ∀ (id : Nat) standing, pipeline.standing id = some standing →
    FiledFor standing.membership standing.records
  now : ∀ id revision records, StandsAt pipeline id revision records →
    journal.past id revision records
  known : ∀ id revision records, journal.past id revision records →
    ∃ standing, pipeline.standing id = some standing ∧ FiledFor standing.membership records ∧
      revision ≤ standing.revision ∧
      (revision = standing.revision → revision < u64Max → records = standing.records)
  unique : ∀ id revision records records', journal.past id revision records →
    journal.past id revision records' → revision < u64Max → records = records'

variable {journal journal' : Journal} {pipeline pipeline' : PipelineState}

theorem Remembered.same (h : Remembered journal pipeline)
    (hSame : SameStandings pipeline pipeline') : Remembered journal pipeline' where
  distinct id standing hGet := h.distinct id standing (hSame.standing id ▸ hGet)
  filedFor id standing hGet := h.filedFor id standing (hSame.standing id ▸ hGet)
  now id revision records hStands := by
    obtain ⟨standing, hGet, hRest⟩ := hStands
    exact h.now id revision records ⟨standing, hSame.standing id ▸ hGet, hRest⟩
  known id revision records hPast := by
    obtain ⟨standing, hGet, hRest⟩ := h.known id revision records hPast
    exact ⟨standing, (hSame.standing id).trans hGet, hRest⟩
  unique := h.unique

/-- **The journal goes on** with what the pipeline stands at next. -/
theorem Remembered.noting (h : Remembered journal pipeline) (hMoves : MovesOn pipeline pipeline')
    (hDistinct : ∀ (id : Nat) standing, pipeline'.standing id = some standing →
      DistinctEntries standing.membership)
    (hFiled : ∀ (id : Nat) standing, pipeline'.standing id = some standing →
      FiledFor standing.membership standing.records) :
    Remembered (journal.noting pipeline') pipeline' := by
  -- what was known of an earlier stage, at the standing that follows
  have hKnown : ∀ id revision records, journal.past id revision records →
      ∃ standing', pipeline'.standing id = some standing' ∧
        FiledFor standing'.membership records ∧ revision ≤ standing'.revision ∧
        (revision = standing'.revision → revision < u64Max → records = standing'.records) := by
    intro id revision records hPast
    obtain ⟨standing, hGet, hFor, hLe, hSame⟩ := h.known id revision records hPast
    obtain ⟨standing', hGet', hFollows⟩ := hMoves.stays id standing hGet
    refine ⟨standing', hGet', hFollows.membership ▸ hFor, hLe.trans hFollows.revision,
      fun hEq hLt => ?_⟩
    have hStill : standing'.revision = standing.revision :=
      le_antisymm (hEq ▸ hLe) hFollows.revision
    rw [hSame (hEq.trans hStill) hLt,
      hFollows.records hStill (by rw [← hStill, ← hEq]; exact hLt)]
  refine ⟨hDistinct, hFiled, fun id revision records hStands => Or.inr hStands, ?_, ?_⟩
  · rintro id revision records (hPast | ⟨standing, hGet, rfl, rfl⟩)
    · exact hKnown id revision records hPast
    · exact ⟨standing, hGet, hFiled id standing hGet, le_rfl, fun _ _ => rfl⟩
  · have hMixed : ∀ id revision records records', journal.past id revision records →
        StandsAt pipeline' id revision records' → revision < u64Max → records = records' := by
      rintro id revision records records' hPast ⟨standing', hGet', rfl, rfl⟩ hLt
      obtain ⟨found, hFound, -, -, hSame⟩ := hKnown id standing'.revision records hPast
      obtain rfl : found = standing' := Option.some.inj (hFound.symm.trans hGet')
      exact hSame rfl hLt
    rintro id revision records records' (hPast | hNow) (hPast' | hNow') hLt
    · exact h.unique id revision records records' hPast hPast' hLt
    · exact hMixed id revision records records' hPast hNow' hLt
    · exact (hMixed id revision records' records hPast' hNow hLt).symm
    · obtain ⟨standing, hGet, -, rfl⟩ := hNow
      obtain ⟨standing', hGet', -, rfl⟩ := hNow'
      rw [Option.some.inj (hGet.symm.trans hGet')]

-- ---------------------------------------------------------------------------
-- What a map of classifications shows
-- ---------------------------------------------------------------------------

/-- The classifications are those of the generation at the revision: the records it
stood at, and what its deltas up to there make of the map it began with. -/
structure Shows (journal : Journal) (pipeline : PipelineState) (generation : Nat)
    (membership : MempoolSnapshot) (revision : Nat)
    (classifications : TransactionClassifications) : Prop where
  standing : ∃ standing, pipeline.standing generation = some standing ∧
    standing.membership = membership
  records : ∃ records, journal.past generation revision records ∧
    SameClassifications classifications records
  emitted : revision ≤ (deltasOf generation journal.emitted).length
  replayed : ∃ start ∈ journal.begun, start.generation = generation ∧ start.revision = 0 ∧
    classifications = replay start.classifications
      ((deltasOf generation journal.emitted).take revision)

variable {generation revision : Nat} {membership : MempoolSnapshot}
  {classifications : TransactionClassifications}

theorem Shows.mono (h : Shows journal pipeline generation membership revision classifications)
    (hExtends : journal.Extends journal') (hMoves : MovesOn pipeline pipeline') :
    Shows journal' pipeline' generation membership revision classifications where
  standing := by
    obtain ⟨standing, hGet, hMembership⟩ := h.standing
    obtain ⟨standing', hGet', hFollows⟩ := hMoves.stays generation standing hGet
    exact ⟨standing', hGet', hFollows.membership.trans hMembership⟩
  records := by
    obtain ⟨records, hPast, hSame⟩ := h.records
    exact ⟨records, hExtends.past generation revision records hPast, hSame⟩
  emitted := h.emitted.trans (deltasOf_mono generation hExtends.emitted).length_le
  replayed := by
    obtain ⟨start, hMem, hStart, hZero, hReplay⟩ := h.replayed
    refine ⟨start, hExtends.begun hMem, hStart, hZero, hReplay.trans ?_⟩
    rw [take_eq_take (deltasOf_mono generation hExtends.emitted) h.emitted]

/-- No more is shown than the membership has. -/
theorem Shows.size_le (h : Shows journal pipeline generation membership revision classifications)
    (hRemembered : Remembered journal pipeline) :
    classifications.size ≤ membership.transactions.length := by
  obtain ⟨standing, hGet, rfl⟩ := h.standing
  obtain ⟨records, hPast, hSame⟩ := h.records
  obtain ⟨found, hFound, hFiled, -⟩ := hRemembered.known generation revision records hPast
  obtain rfl : found = standing := Option.some.inj (hFound.symm.trans hGet)
  have hKeys : ∀ record, IsEntry found.membership record →
      record.txid ∈ found.membership.transactions.map MempoolEntry.txid := by
    rintro record ⟨entry, hMem, hTxid, -⟩
    exact hTxid ▸ List.mem_map_of_mem hMem
  have hBound := hSame.size_le hFiled hKeys
  rwa [List.length_map] at hBound

-- ---------------------------------------------------------------------------
-- Deltas in flight
-- ---------------------------------------------------------------------------

/-- A delta on its way is the next one of what is published. -/
structure InFlight (journal : Journal) (pipeline : PipelineState) (published : CurrentState)
    (delta : ClassificationRevisionDelta) : Prop where
  reached : ∃ latest, published.classificationGeneration = some latest ∧
    delta.generation ≤ latest
  bounded : delta.revision ≤ u64Max
  latest : ∃ standing, pipeline.standing delta.generation = some standing ∧
    standing.revision = delta.revision
  follows : published.classificationGeneration = some delta.generation →
    published.classificationRevision + 1 = delta.revision ∧
    ∃ membership, published.membership = some membership ∧
      Shows journal pipeline delta.generation membership delta.revision
        (accumulate published.classifications delta.changed)

variable {published published' : CurrentState} {delta : ClassificationRevisionDelta}

/-- A delta on its way is the one expected. -/
theorem InFlight.expects (h : InFlight journal pipeline published delta)
    (hRemembered : Remembered journal pipeline)
    (hGeneration : published.classificationGeneration = some delta.generation) :
    Expects published delta := by
  obtain ⟨hRevision, membership, hMembership, hShows⟩ := h.follows hGeneration
  exact ⟨hRevision, h.bounded, membership, hMembership, hShows.size_le hRemembered⟩

/-- Another call has shown nothing, or a later generation. -/
def ShownOn (published published' : CurrentState) : Prop :=
  SameShown published published' ∨
    ∃ generation, published'.classificationGeneration = some generation ∧
      ∀ before, published.classificationGeneration = some before → before < generation

theorem InFlight.shownOn (h : InFlight journal pipeline published delta)
    (hShown : ShownOn published published') : InFlight journal pipeline published' delta := by
  obtain ⟨latest, hLatest, hLe⟩ := h.reached
  rcases hShown with hSame | ⟨later, hLater, hNewer⟩
  · refine ⟨⟨latest, hSame.generation.trans hLatest, hLe⟩, h.bounded, h.latest,
      fun hGeneration => ?_⟩
    rw [hSame.revision, hSame.membership, hSame.classifications]
    exact h.follows (hSame.generation ▸ hGeneration)
  · have hLt := hNewer latest hLatest
    refine ⟨⟨later, hLater, hLe.trans hLt.le⟩, h.bounded, h.latest, fun hGeneration => ?_⟩
    have hIs : later = delta.generation := Option.some.inj (hLater.symm.trans hGeneration)
    omega

/-- Every generation stands where it stood. -/
def KeepsStandings (pipeline pipeline' : PipelineState) : Prop :=
  ∀ (id : Nat) standing, pipeline.standing id = some standing →
    pipeline'.standing id = some standing

theorem KeepsStandings.of_same (h : SameStandings pipeline pipeline') :
    KeepsStandings pipeline pipeline' :=
  fun id _ hGet => (h.standing id).trans hGet

theorem KeepsStandings.movesOn (h : KeepsStandings pipeline pipeline') :
    MovesOn pipeline pipeline' :=
  ⟨fun id standing hGet => ⟨standing, h id standing hGet, .refl standing⟩⟩

/-- Later deltas do not overtake one on its way. -/
theorem InFlight.extends (h : InFlight journal pipeline published delta)
    (hExtends : journal.Extends journal') (hKeeps : KeepsStandings pipeline pipeline') :
    InFlight journal' pipeline' published delta where
  reached := h.reached
  bounded := h.bounded
  latest := by
    obtain ⟨standing, hGet, hRevision⟩ := h.latest
    exact ⟨standing, hKeeps _ standing hGet, hRevision⟩
  follows hGeneration := by
    obtain ⟨hRevision, membership, hMembership, hShows⟩ := h.follows hGeneration
    exact ⟨hRevision, membership, hMembership, hShows.mono hExtends hKeeps.movesOn⟩

end MempoolAtlas.Runtime
