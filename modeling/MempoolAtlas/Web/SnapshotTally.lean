import MempoolAtlas.Lib.Tally
import MempoolAtlas.Web.Readable

/-!
# The tallies of a snapshot

The browser recounts the rows it reads. Its counts are those the server put into
the summaries: lens by lens the same result is found, by position here and by
identifier there, and every label that is counted has been declared.

## Results

* `tallyTransaction_json` — one turn of the recount.
* `foldlM_tallyTransaction` — the tally of the rows is the one their summaries say.
-/

namespace MempoolAtlas.Web

open Checks Model Json

-- ---------------------------------------------------------------------------
-- Label counts
-- ---------------------------------------------------------------------------

/-- The label counts of a lens after one more result. -/
def countLabels (counts : BTreeMap String Nat) (labels : List String) : BTreeMap String Nat :=
  labels.foldl (fun counts label => counts.modify label (· + 1)) counts

theorem mem_countLabels {counts : BTreeMap String Nat} {labels : List String} {key : String} :
    key ∈ countLabels counts labels ↔ key ∈ counts := by
  unfold countLabels
  induction labels generalizing counts with
  | nil => rfl
  | cons label rest ih =>
    rw [List.foldl_cons, ih, Std.ExtTreeMap.mem_modify]

/-- Increasing a count that is there, as the browser writes it. -/
theorem insert_succ_eq_modify {counts : BTreeMap String Nat} {label : String}
    (h : label ∈ counts) :
    counts.insert label (counts.getD label 0 + 1) = counts.modify label (· + 1) := by
  apply Std.ExtTreeMap.ext_getElem?
  intro key
  rw [Std.ExtTreeMap.mem_iff_isSome_getElem?] at h
  obtain ⟨n, hn⟩ := Option.isSome_iff_exists.mp h
  rw [Std.ExtTreeMap.getElem?_insert, Std.ExtTreeMap.getElem?_modify,
    Std.ExtTreeMap.getD_eq_getD_getElem?, hn]
  split <;> rfl

theorem foldl_insert_eq_countLabels {labels : List String} {counts : BTreeMap String Nat}
    (h : ∀ label ∈ labels, label ∈ counts) :
    labels.foldl (fun counts label => counts.insert label (counts.getD label 0 + 1)) counts =
      countLabels counts labels := by
  unfold countLabels
  induction labels generalizing counts with
  | nil => rfl
  | cons label rest ih =>
    obtain ⟨hLabel, hRest⟩ := List.forall_mem_cons.mp h
    rw [List.foldl_cons, List.foldl_cons, insert_succ_eq_modify hLabel]
    exact ih fun other hOther => Std.ExtTreeMap.mem_modify.mpr (hRest other hOther)

/-- Distinct labels each raise their count by one. -/
theorem getElem?_countLabels {labels : List String} {counts : BTreeMap String Nat}
    (hDistinct : labels.Nodup) (key : String) :
    (countLabels counts labels)[key]? =
      counts[key]?.map fun n => if key ∈ labels then n + 1 else n := by
  rw [countLabels, BTreeMap.getElem?_foldl_modify]
  refine congrArg (fun raise => counts[key]?.map raise) (funext fun n => ?_)
  split
  · next hMem => rw [List.count_eq_one_of_mem hDistinct hMem]
  · next hAbsent => rw [List.count_eq_zero_of_not_mem hAbsent, Nat.add_zero]

-- ---------------------------------------------------------------------------
-- The counts of a lens
-- ---------------------------------------------------------------------------

/-- The browser's counts for the server's summary of a lens. -/
def countsOf (summary : ClassifierSummary) : ResultCounts where
  classifierId := summary.classifierId
  complete := summary.completeCount
  partialCount := summary.partialCount
  unclassified := summary.unclassifiedCount
  labels := summary.labelCounts

/-- What a summary of `rows` rows counts. -/
structure Tallied (descriptor : ClassifierDescriptor) (rows : Nat) (summary : ClassifierSummary) :
    Prop where
  lens : summary.classifierId = descriptor.id
  total : summary.completeCount + summary.partialCount + summary.unclassifiedCount = rows
  keys : ∀ key, key ∈ summary.labelCounts ↔ key ∈ descriptor.labels.map (·.key)
  bounded : ∀ (key : String) (n : Nat), summary.labelCounts[key]? = some n → n ≤ rows

/-- The result at the position of a lens is the one with its identifier. -/
theorem find?_lens {results : List ClassificationResult} {catalog : List ClassifierDescriptor}
    (hResults : List.Forall₂ (fun result descriptor => ResultReadable descriptor result)
      results catalog)
    (hIds : (catalog.map (·.id)).Nodup) {index : Nat} {descriptor : ClassifierDescriptor}
    (hAt : catalog[index]? = some descriptor) :
    results.find? (fun result => result.classifierId == descriptor.id) = results[index]? := by
  induction hResults generalizing index with
  | nil => simp at hAt
  | cons hFirst _ ih =>
    obtain ⟨hId, hRest⟩ := List.nodup_cons.mp hIds
    cases index with
    | zero =>
      obtain rfl : _ = descriptor := Option.some.inj hAt
      rw [List.find?_cons_of_pos (by simpa using hFirst.lens)]
      rfl
    | succ index =>
      rw [List.getElem?_cons_succ] at hAt
      have hNe : ¬ (_ : ClassifierDescriptor).id = descriptor.id := fun hSame =>
        hId (List.mem_map.mpr ⟨descriptor, List.mem_of_getElem? hAt, hSame.symm⟩)
      rw [List.find?_cons_of_neg (by simpa [hFirst.lens] using hNe), ih hRest hAt,
        List.getElem?_cons_succ]

/-- The results of a readable row are those of its lenses. -/
theorem ResultsReadable.cases {catalog : List ClassifierDescriptor} {entry : MempoolEntry}
    (h : ResultsReadable catalog entry) :
    entry.classifications = [] ∨
      List.Forall₂ (fun result descriptor => ResultReadable descriptor result)
        entry.classifications catalog := by
  unfold ResultsReadable at h
  cases hBip110 : entry.bip110 with
  | none =>
    rw [hBip110] at h
    exact Or.inl h
  | some assessment =>
    rw [hBip110] at h
    exact Or.inr h

section Counts

variable {catalog : List ClassifierDescriptor} (hIds : (catalog.map (·.id)).Nodup)
  {entry : MempoolEntry} (hReadable : ResultsReadable catalog entry) {index : Nat}
  {descriptor : ClassifierDescriptor} (hAt : catalog[index]? = some descriptor)
  {summary : ClassifierSummary} {rows : Nat} (hTallied : Tallied descriptor rows summary)

include hIds hReadable hAt

/-- What the two programs look at for a lens: no result, or the same readable one. -/
theorem lens_result :
    (entry.classifications.find? (fun result => result.classifierId == descriptor.id) = none ∧
        entry.classifications[index]? = none) ∨
      ∃ result, entry.classifications.find? (fun result =>
            result.classifierId == descriptor.id) = some result ∧
          entry.classifications[index]? = some result ∧ ResultReadable descriptor result := by
  rcases hReadable.cases with hNone | hResults
  · rw [hNone]
    exact Or.inl ⟨rfl, rfl⟩
  · have hSame := find?_lens hResults hIds hAt
    have hLength : index < entry.classifications.length := by
      rw [hResults.length_eq]
      exact (List.getElem?_eq_some_iff.mp hAt).1
    have hResult : entry.classifications[index]? = some entry.classifications[index] :=
      List.getElem?_eq_getElem hLength
    refine Or.inr ⟨entry.classifications[index], hSame.trans hResult, hResult, ?_⟩
    obtain ⟨hBound, rfl⟩ := List.getElem?_eq_some_iff.mp hAt
    exact hResults.get hLength hBound

include hTallied

/-- A result counts as its summary does. -/
theorem countResult_countsOf :
    countResult entry.classifications ((descriptor, countsOf summary), index) =
      .ok (countsOf (summary.count descriptor.id entry)) := by
  unfold countResult ClassifierSummary.count
  dsimp only
  rcases lens_result hIds hReadable hAt with ⟨hFind, hGet⟩ | ⟨result, hFind, hGet, hResult⟩
  · rw [hFind, hGet]
    rfl
  · have hDeclared : ∀ label ∈ result.labels, label ∈ summary.labelCounts := by
      intro label hLabel
      rw [hTallied.keys]
      have hAll := hResult.consistent
      simp only [Bool.or_eq_false_iff, List.any_eq_false, Bool.not_eq_true,
        Bool.not_eq_false', List.contains_iff_mem] at hAll
      exact hAll.1.1.1.2 label hLabel
    have hLabels := foldl_insert_eq_countLabels hDeclared
    rw [hFind, hGet]
    simp only [hResult.lens, bne_self_eq_false, ensure_false, ResultCounts.add, countsOf]
    cases result.state <;> simp [Bind.bind, Except.bind, pure, Except.pure, hLabels, countLabels]

/-- One more row is tallied. -/
theorem Tallied.count : Tallied descriptor (rows + 1) (summary.count descriptor.id entry) := by
  unfold ClassifierSummary.count
  rcases lens_result hIds hReadable hAt with ⟨hFind, -⟩ | ⟨result, hFind, -, hResult⟩
  · rw [hFind]
    have hTotal := hTallied.total
    exact ⟨hTallied.lens, by simp only; omega, hTallied.keys,
      fun key n hn => (hTallied.bounded key n hn).trans (Nat.le_succ rows)⟩
  · rw [hFind]
    have hTotal := hTallied.total
    have hKeys : ∀ key, key ∈ countLabels summary.labelCounts result.labels ↔
        key ∈ descriptor.labels.map (·.key) := fun key =>
      mem_countLabels.trans (hTallied.keys key)
    have hBounded : ∀ (key : String) (n : Nat),
        (countLabels summary.labelCounts result.labels)[key]? = some n → n ≤ rows + 1 := by
      intro key n hn
      rw [getElem?_countLabels hResult.labelsDistinct, Option.map_eq_some_iff] at hn
      obtain ⟨m, hm, rfl⟩ := hn
      have hLe := hTallied.bounded key m hm
      split <;> omega
    dsimp only
    cases result.state
    · exact ⟨hTallied.lens, by simp only; omega, hKeys, hBounded⟩
    · exact ⟨hTallied.lens, by simp only; omega, hKeys, hBounded⟩

end Counts

/-- Before any row nothing is tallied. -/
theorem tallied_start {descriptor : ClassifierDescriptor} :
    Tallied descriptor 0 (classifierSummary [] descriptor) := by
  refine ⟨rfl, rfl, fun key => ?_, fun key n hn => ?_⟩
  · unfold classifierSummary
    rw [List.foldl_nil, BTreeMap.mem_ofList_iff, List.map_map]
    rfl
  · unfold classifierSummary at hn
    rw [List.foldl_nil] at hn
    obtain ⟨label, -, hEq⟩ := List.mem_map.mp (BTreeMap.of_getElem?_ofList hn)
    exact le_of_eq (Prod.mk.inj hEq).2.symm

/-- The summary of a lens after one more row. -/
theorem classifierSummary_append (rows : List MempoolEntry) (entry : MempoolEntry)
    (descriptor : ClassifierDescriptor) :
    classifierSummary (rows ++ [entry]) descriptor =
      (classifierSummary rows descriptor).count descriptor.id entry := by
  unfold classifierSummary
  rw [List.foldl_append]
  rfl

-- ---------------------------------------------------------------------------
-- The loop over the rows
-- ---------------------------------------------------------------------------

/-- What the loop has found after `rows`. -/
def tallyOf (catalog : List ClassifierDescriptor) (rows : List MempoolEntry) : Tally where
  previousTxid := rows.getLast?.map MempoolEntry.txid
  totalVsize := (rows.map MempoolEntry.vsize).sum
  statusCounts := rows.foldl StatusCounts.add {}
  resultCounts := catalog.map fun descriptor => countsOf (classifierSummary rows descriptor)
  transactions := rows

section Loop

variable {catalog : List ClassifierDescriptor} (hIds : (catalog.map (·.id)).Nodup)

include hIds

/-- A lens's summary tallies the rows. -/
theorem tallied_rows {rows : List MempoolEntry}
    (hReadable : ∀ entry ∈ rows, EntryReadable catalog entry) {descriptor : ClassifierDescriptor}
    (hMem : descriptor ∈ catalog) :
    Tallied descriptor rows.length (classifierSummary rows descriptor) := by
  obtain ⟨index, hAt⟩ := List.getElem?_of_mem hMem
  induction rows using List.reverseRecOn with
  | nil => exact tallied_start
  | append_singleton rows entry ih =>
    have hRows : Tallied descriptor rows.length (classifierSummary rows descriptor) :=
      ih fun other hOther => hReadable other (List.mem_append_left _ hOther)
    have hEntry := (hReadable entry (by simp)).results
    rw [classifierSummary_append, List.length_append]
    exact hRows.count hIds hEntry hAt

theorem resultCounts_eq {rows : List MempoolEntry} {entry : MempoolEntry}
    (hRows : ∀ entry ∈ rows, EntryReadable catalog entry)
    (hEntry : EntryReadable catalog entry) :
    ((catalog.zip (tallyOf catalog rows).resultCounts).zipIdx).mapM
        (countResult entry.classifications) =
      .ok (tallyOf catalog (rows ++ [entry])).resultCounts := by
  have hEach : ∀ item ∈ (catalog.zip (tallyOf catalog rows).resultCounts).zipIdx,
      ∀ counts, countResult entry.classifications item = .ok counts ↔
        True ∧ counts = countsOf (classifierSummary (rows ++ [entry]) item.1.1) := by
    rintro ⟨⟨descriptor, found⟩, index⟩ hItem counts
    obtain ⟨hAt, hFound⟩ := List.getElem?_zip_eq_some.mp (List.mem_zipIdx_iff_getElem?.mp hItem)
    have hEq : found = countsOf (classifierSummary rows descriptor) := by
      rw [tallyOf, List.getElem?_map, hAt] at hFound
      exact (Option.some.inj hFound).symm
    have hTallied := tallied_rows hIds hRows (List.mem_of_getElem? hAt)
    rw [hEq, countResult_countsOf hIds hEntry.results hAt hTallied, classifierSummary_append,
      Except.ok.injEq, true_and, eq_comm]
  rw [mapM_eq_ok_iff hEach]
  refine ⟨fun _ _ => trivial, ?_⟩
  have hLength : catalog.length ≤ (tallyOf catalog rows).resultCounts.length :=
    le_of_eq (by simp [tallyOf])
  have hSplit : (fun item : (ClassifierDescriptor × ResultCounts) × Nat =>
      countsOf (classifierSummary (rows ++ [entry]) item.1.1)) =
        (fun descriptor => countsOf (classifierSummary (rows ++ [entry]) descriptor)) ∘
          Prod.fst ∘ Prod.fst := rfl
  rw [hSplit, ← List.map_map, ← List.map_map, List.zipIdx_map_fst, List.map_fst_zip hLength]
  rfl

/-- One turn of the loop: a readable row in order is counted, any other is refused. -/
theorem tallyTransaction_json {rows : List MempoolEntry} {entry : MempoolEntry} {tally : Tally}
    (hRows : ∀ entry ∈ rows, EntryReadable catalog entry)
    (hSorted : ∀ other ∈ rows, other.txid < entry.txid)
    (hVsize : (rows.map MempoolEntry.vsize).sum + entry.vsize ≤ maxSafeInteger) :
    tallyTransaction catalog (tallyOf catalog rows) (entryJson entry) = .ok tally ↔
      EntryReadable catalog entry ∧ tally = tallyOf catalog (rows ++ [entry]) := by
  have hOrder : ((tallyOf catalog rows).previousTxid.any
      fun previous => decide (entry.txid ≤ previous)) = false := by
    unfold tallyOf
    cases hLast : rows.getLast? with
    | none => rfl
    | some last => simpa using hSorted last (List.mem_of_getLast? hLast)
  have hSafe : decide ((tallyOf catalog rows).totalVsize + entry.vsize > maxSafeInteger) = false :=
    decide_eq_false (Nat.not_lt.mpr hVsize)
  have hNext : ∀ counts, counts = (tallyOf catalog (rows ++ [entry])).resultCounts →
      ({ previousTxid := some entry.txid
         totalVsize := (tallyOf catalog rows).totalVsize + entry.vsize
         statusCounts := (tallyOf catalog rows).statusCounts.add entry
         resultCounts := counts
         transactions := (tallyOf catalog rows).transactions ++ [entry] } : Tally) =
        tallyOf catalog (rows ++ [entry]) := by
    rintro counts rfl
    simp [tallyOf]
  unfold tallyTransaction
  simp only [bind_eq_ok, parseTransaction_json, and_assoc, exists_and_left, exists_eq_left]
  constructor
  · rintro ⟨hEntry, _, _, _, _, counts, hCounts, hTally⟩
    rw [resultCounts_eq hIds hRows hEntry] at hCounts
    exact ⟨hEntry, (Except.ok.inj hTally).symm.trans (hNext counts (Except.ok.inj hCounts).symm)⟩
  · rintro ⟨hEntry, rfl⟩
    refine ⟨hEntry, (), ensure_eq_ok.mpr hOrder, (), ensure_eq_ok.mpr hSafe, _,
      resultCounts_eq hIds hRows hEntry, ?_⟩
    exact congrArg Except.ok (hNext _ rfl)

/-- **The tally of the rows** is the one their summaries say. -/
theorem foldlM_tallyTransaction {rest rows : List MempoolEntry} {tally : Tally}
    (hRows : ∀ entry ∈ rows, EntryReadable catalog entry)
    (hSorted : (rows ++ rest).Pairwise fun left right => left.txid < right.txid)
    (hVsize : ((rows ++ rest).map MempoolEntry.vsize).sum ≤ maxSafeInteger) :
    (rest.map entryJson).foldlM (tallyTransaction catalog) (tallyOf catalog rows) = .ok tally ↔
      (∀ entry ∈ rest, EntryReadable catalog entry) ∧ tally = tallyOf catalog (rows ++ rest) := by
  induction rest generalizing rows with
  | nil => simp [pure, Except.pure, eq_comm]
  | cons entry rest ih =>
    have hBefore : ∀ other ∈ rows, other.txid < entry.txid := fun other hOther =>
      (List.pairwise_append.mp hSorted).2.2 other hOther entry List.mem_cons_self
    have hFits : (rows.map MempoolEntry.vsize).sum + entry.vsize ≤ maxSafeInteger := by
      rw [List.map_append, List.sum_append, List.map_cons, List.sum_cons] at hVsize
      omega
    have hShift : rows ++ entry :: rest = (rows ++ [entry]) ++ rest := by simp
    rw [hShift] at hSorted hVsize
    rw [List.map_cons, List.foldlM_cons, bind_eq_ok, List.forall_mem_cons, hShift]
    constructor
    · rintro ⟨next, hNext, hRest⟩
      obtain ⟨hEntry, rfl⟩ := (tallyTransaction_json hIds hRows hBefore hFits).mp hNext
      have hAll : ∀ other ∈ rows ++ [entry], EntryReadable catalog other :=
        List.forall_mem_append.mpr ⟨hRows, List.forall_mem_singleton.mpr hEntry⟩
      obtain ⟨hOthers, hTally⟩ := (ih hAll hSorted hVsize).mp hRest
      exact ⟨⟨hEntry, hOthers⟩, hTally⟩
    · rintro ⟨⟨hEntry, hOthers⟩, hTally⟩
      have hAll : ∀ other ∈ rows ++ [entry], EntryReadable catalog other :=
        List.forall_mem_append.mpr ⟨hRows, List.forall_mem_singleton.mpr hEntry⟩
      exact ⟨_, (tallyTransaction_json hIds hRows hBefore hFits).mpr ⟨hEntry, rfl⟩,
        (ih hAll hSorted hVsize).mpr ⟨hOthers, hTally⟩⟩

end Loop

end MempoolAtlas.Web
