import MempoolAtlas.Model.Snapshot

/-!
# Validated detail records

What a record that `validate_classification` accepts looks like, read off its checks.

## Results

* `ValidResult.of_ok`, `ValidRecord.of_ok` — what a checked result and a checked record are known
  for.
-/

namespace MempoolAtlas.Model

open Checks

theorem nodup_of_allDistinct {values : List String} (h : allDistinct values = true) :
    values.Nodup := by
  have hSize : (Std.ExtTreeSet.ofList values : BTreeSet String).size = values.length := by
    simpa [allDistinct] using h
  have hPerm : (Std.ExtTreeSet.ofList values : BTreeSet String).toList.Perm values.dedup := by
    rw [List.perm_ext_iff_of_nodup (BTreeSet.nodup_toList _) (List.nodup_dedup values)]
    intro value
    rw [Std.ExtTreeSet.mem_toList, Std.ExtTreeSet.mem_ofList, List.contains_iff_mem,
      List.mem_dedup]
  have hLength : values.dedup.length = values.length := by
    rw [← hPerm.length_eq, Std.ExtTreeSet.length_toList, hSize]
  rw [← (List.dedup_sublist values).eq_of_length hLength]
  exact List.nodup_dedup values

/-- A result `validate_classifier_result` accepts for its lens. -/
structure ValidResult (result : ClassificationResult) (descriptor : ClassifierDescriptor) :
    Prop where
  lens : result.classifierId = descriptor.id
  labelled : (result.labels.isEmpty && result.state != .partialResult) = false
  complete : (result.state == .complete && !result.missingFacts.isEmpty) = false
  incomplete : (result.state == .partialResult && result.missingFacts.isEmpty) = false
  primary : ∀ primary ∈ result.primaryLabel, primary ∈ result.labels
  declared : ∀ label ∈ result.labels, label ∈ descriptor.labels.map (·.key)
  labelsDistinct : result.labels.Nodup
  factsDistinct : result.missingFacts.Nodup

theorem ValidResult.of_ok {txid : String} {result : ClassificationResult}
    {descriptor : ClassifierDescriptor}
    (h : validateClassifierResult txid (result, descriptor) = .ok ()) :
    ValidResult result descriptor := by
  simp only [validateClassifierResult, bind_eq_ok, ensure_eq_ok, exists_const,
    Bool.or_eq_false_iff, bne_eq_false_iff_eq, Bool.not_eq_false'] at h
  obtain ⟨hLens, ⟨⟨⟨⟨hLabelled, -⟩, hComplete⟩, hIncomplete⟩, hPrimary⟩, ⟨hDistinct, hDeclared⟩,
    hFacts⟩ := h
  refine ⟨hLens, hLabelled, hComplete, hIncomplete, fun primary hMem => ?_, fun label hMem => ?_,
    nodup_of_allDistinct hDistinct, nodup_of_allDistinct hFacts⟩
  · rw [Option.mem_def.mp hMem] at hPrimary
    simpa using hPrimary
  · exact List.contains_iff_mem.mp (List.all_eq_true.mp hDeclared label hMem)

theorem validResults_of_ok {txid : String} {results : List ClassificationResult}
    (h : validateClassifierResults txid results = .ok ()) :
    List.Forall₂ ValidResult results classifierCatalog := by
  simp only [validateClassifierResults, bind_eq_ok, ensure_eq_ok, exists_const,
    bne_eq_false_iff_eq, checkAll_eq_ok] at h
  rw [List.forall₂_iff_zip]
  exact ⟨h.1, fun hMem => ValidResult.of_ok (h.2 _ hMem)⟩

-- ---------------------------------------------------------------------------
-- Rules
-- ---------------------------------------------------------------------------

/-- The rules the loop collects come in the order of the rules it has gone through. -/
theorem validateRuleDetail_sublist {txid : String} {found next : List Bip110RuleId × List Bip110RuleId}
    {detail : Bip110RuleDetail} {rule : Bip110RuleId} {seen : List Bip110RuleId}
    (h : validateRuleDetail txid found (detail, rule) = .ok next)
    (hViolated : found.1.Sublist seen) (hUnknown : found.2.Sublist seen) :
    next.1.Sublist (seen ++ [rule]) ∧ next.2.Sublist (seen ++ [rule]) := by
  obtain ⟨violated, unknown⟩ := found
  simp only [validateRuleDetail, bind_eq_ok, ensure_eq_ok, exists_const, Bool.or_eq_false_iff,
    bne_eq_false_iff_eq] at h
  obtain ⟨⟨hRule, -⟩, -, -, h⟩ := h
  have hKept : ∀ {rules : List Bip110RuleId}, rules.Sublist seen → rules.Sublist (seen ++ [rule]) :=
    fun hSub => hSub.trans (List.sublist_append_left seen [rule])
  have hAdded : ∀ {rules : List Bip110RuleId}, rules.Sublist seen →
      (rules ++ [detail.rule]).Sublist (seen ++ [rule]) := by
    intro rules hSub
    rw [hRule]
    exact hSub.append (List.Sublist.refl [rule])
  cases hVerdict : detail.verdict with
  | pass =>
    simp only [hVerdict, bind_eq_ok, pure, Except.pure, Except.ok.injEq] at h
    obtain ⟨-, -, rfl⟩ := h
    exact ⟨hKept hViolated, hKept hUnknown⟩
  | violate =>
    simp only [hVerdict, bind_eq_ok, pure, Except.pure, Except.ok.injEq] at h
    obtain ⟨-, -, rfl⟩ := h
    refine ⟨hAdded hViolated, ?_⟩
    dsimp only
    split
    · exact hAdded hUnknown
    · exact hKept hUnknown
  | unknown =>
    simp only [hVerdict, bind_eq_ok, pure, Except.pure, Except.ok.injEq] at h
    obtain ⟨-, -, rfl⟩ := h
    exact ⟨hKept hViolated, hAdded hUnknown⟩

theorem foldlM_validateRuleDetail_sublist {txid : String}
    {pairs : List (Bip110RuleDetail × Bip110RuleId)}
    {found result : List Bip110RuleId × List Bip110RuleId} {seen : List Bip110RuleId}
    (h : pairs.foldlM (validateRuleDetail txid) found = .ok result)
    (hViolated : found.1.Sublist seen) (hUnknown : found.2.Sublist seen) :
    result.1.Sublist (seen ++ pairs.map Prod.snd) ∧
      result.2.Sublist (seen ++ pairs.map Prod.snd) := by
  induction pairs generalizing found seen with
  | nil =>
    obtain rfl : found = result := by simpa [pure, Except.pure] using h
    rw [List.map_nil, List.append_nil]
    exact ⟨hViolated, hUnknown⟩
  | cons pair rest ih =>
    rw [List.foldlM_cons, bind_eq_ok] at h
    obtain ⟨next, hNext, hRest⟩ := h
    obtain ⟨hNextViolated, hNextUnknown⟩ := validateRuleDetail_sublist hNext hViolated hUnknown
    have hAll := ih hRest hNextViolated hNextUnknown
    rwa [List.append_assoc] at hAll

/-- What `validate_classification` has checked of a record. -/
structure ValidRecord (record : TransactionClassification) : Prop where
  results : List.Forall₂ ValidResult record.results classifierCatalog
  policy : ∃ policy, record.results.find? (fun result =>
      result.classifierId == knotsBip110ClassifierId) = some policy ∧
    policyResultMatches policy record.assessment = true
  status : record.assessment.status =
    statusOf record.assessment.violatedRules record.assessment.unknownRules
  primary : ∀ rule ∈ record.assessment.primaryRule, rule ∈ record.assessment.violatedRules
  violated : record.assessment.violatedRules.Nodup
  unknown : record.assessment.unknownRules.Nodup

theorem ValidRecord.of_ok {record : TransactionClassification}
    (h : validateClassification record = .ok ()) : ValidRecord record := by
  unfold validateClassification at h
  rw [bind_eq_ok] at h
  obtain ⟨_, hResults, h⟩ := h
  split at h
  · cases h
  · next policy hPolicy =>
    simp only [bind_eq_ok, ensure_eq_ok, exists_const, Bool.not_eq_false', bne_eq_false_iff_eq,
      Bool.or_eq_false_iff] at h
    obtain ⟨hMatches, hLength, found, hRules, ⟨⟨hStatus, hViolated⟩, hUnknown⟩, hPrimary⟩ := h
    have hAll : (record.rules.zip Bip110RuleId.all).map Prod.snd = Bip110RuleId.all :=
      List.map_snd_zip (le_of_eq hLength.symm)
    obtain ⟨hSubViolated, hSubUnknown⟩ := foldlM_validateRuleDetail_sublist hRules
      (List.Sublist.refl []) (List.Sublist.refl [])
    have hDistinct : Bip110RuleId.all.Nodup := by decide
    rw [List.nil_append, hAll] at hSubViolated hSubUnknown
    refine ⟨validResults_of_ok hResults, ⟨policy, hPolicy, hMatches⟩, ?_, fun rule hMem => ?_,
      ?_, ?_⟩
    · rw [hViolated, hUnknown]
      exact hStatus
    · rw [Option.mem_def.mp hMem] at hPrimary
      rw [hViolated]
      simpa using hPrimary
    · rw [hViolated]
      exact hDistinct.sublist hSubViolated
    · rw [hUnknown]
      exact hDistinct.sublist hSubUnknown

end MempoolAtlas.Model
