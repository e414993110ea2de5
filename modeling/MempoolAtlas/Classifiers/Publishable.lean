import MempoolAtlas.Bip110.Outcomes
import MempoolAtlas.Bitcoin.Reference
import MempoolAtlas.Classifiers.Assessment
import MempoolAtlas.Model.Materialization

/-!
# Everything the classifier produces is publishable

The validators of the published model accept every classification the producer
builds. The producer and the validator state the same rules independently:
the projection of the evidence against the loop over rule details, the four
lenses against the catalog. `ConsistentResult` is what the validator asks of
one result; each lens is shown to be consistent with its own descriptor.

## Results

* `validateClassifierResults_ok` — the four results pass together.
* `produced_classifications_publishable` — every record the producer builds passes both
  validators.
-/

namespace MempoolAtlas.Classifiers

open BitcoinCrate Checks Model Machine Bip110

-- ---------------------------------------------------------------------------
-- One classifier result
-- ---------------------------------------------------------------------------

theorem allDistinct_of_nodup {values : List String} (h : values.Nodup) :
    allDistinct values = true := by
  have hDistinct : values.Pairwise fun a b => ¬ compare a b = .eq :=
    h.imp fun hne hEq => hne (Std.LawfulEqCmp.eq_of_compare hEq)
  have hSize := Std.ExtTreeSet.size_ofList hDistinct
  exact beq_iff_eq.mpr hSize

/-- What `validate_classifier_results` asks of one result. -/
structure ConsistentResult (result : ClassificationResult) (descriptor : ClassifierDescriptor) :
    Prop where
  id : result.classifierId = descriptor.id
  labelled : result.labels ≠ [] ∨ result.state = .partialResult
  evidence : result.evidence.isSome = true
  complete : result.state = .complete → result.missingFacts = []
  partialFacts : result.state = .partialResult → result.missingFacts ≠ []
  primary : ∀ primary, result.primaryLabel = some primary → primary ∈ result.labels
  labelsNodup : result.labels.Nodup
  declared : ∀ label ∈ result.labels, label ∈ descriptor.labels.map (·.key)
  missingNodup : result.missingFacts.Nodup

/-- A consistent result passes. -/
theorem validateClassifierResult_ok {txid : String} {result : ClassificationResult}
    {descriptor : ClassifierDescriptor} (h : ConsistentResult result descriptor) :
    validateClassifierResult txid (result, descriptor) = .ok () := by
  have hLabels : (result.labels.isEmpty && result.state != .partialResult) = false := by
    rcases h.labelled with hLabels | hPartial
    · simp [hLabels]
    · simp [hPartial]
  have hEvidence : result.evidence.isNone = false := by
    have := h.evidence
    cases hCase : result.evidence <;> simp_all
  have hComplete : (result.state == .complete && !result.missingFacts.isEmpty) = false := by
    cases hState : result.state with
    | complete => simp [h.complete hState]
    | partialResult => rfl
  have hPartial : (result.state == .partialResult && result.missingFacts.isEmpty) = false := by
    cases hState : result.state with
    | complete => rfl
    | partialResult => simp [h.partialFacts hState]
  have hDeclared : (result.labels.all fun label =>
      (descriptor.labels.map (·.key)).contains label) = true := by
    rw [List.all_eq_true]
    exact fun label hMem => List.contains_iff_mem.mpr (h.declared label hMem)
  unfold validateClassifierResult
  simp only [bind_eq_ok, ensure_eq_ok, exists_const, bne_eq_false_iff_eq]
  refine ⟨h.id, ?_, ?_, ?_⟩
  · rw [hLabels, hEvidence, hComplete, hPartial]
    cases hPrimary : result.primaryLabel with
    | none => rfl
    | some primary => simp [h.primary primary hPrimary]
  · rw [allDistinct_of_nodup h.labelsNodup, hDeclared]
    rfl
  · rw [allDistinct_of_nodup h.missingNodup]
    rfl

-- ---------------------------------------------------------------------------
-- Transaction properties and shape
-- ---------------------------------------------------------------------------

/-- The state and missing facts of a lens over spent scripts agree. -/
theorem scriptCoverage_consistent (allKnown : Bool) :
    ((scriptCoverage allKnown).1 = .complete → (scriptCoverage allKnown).2 = []) ∧
      ((scriptCoverage allKnown).1 = .partialResult → (scriptCoverage allKnown).2 ≠ []) ∧
      (scriptCoverage allKnown).2.Nodup := by
  cases allKnown <;> decide

-- ---------------------------------------------------------------------------
-- Rule details
-- ---------------------------------------------------------------------------

/-- The counts and exemplars a detail keeps of a list agree. -/
theorem exemplars_agree {α : Type} (items : List α) :
    (items.take maxBip110DetailExemplarsPerRule).length ≤ maxBip110DetailExemplarsPerRule ∧
      toU64 (items.take maxBip110DetailExemplarsPerRule).length ≤ toU64 items.length ∧
      (toU64 items.length == 0) = (items.take maxBip110DetailExemplarsPerRule).isEmpty := by
  cases items with
  | nil => simp [toU64]
  | cons first rest =>
    have hTake : (first :: rest).take maxBip110DetailExemplarsPerRule = [first] := by
      simp [maxBip110DetailExemplarsPerRule]
    have hCount : toU64 (first :: rest).length ≠ 0 := by simp
    rw [hTake]
    refine ⟨le_rfl, ?_, by simp⟩
    have hOne : toU64 [first].length = 1 := by
      show min 1 u64Max = 1
      decide
    rw [hOne]
    exact Nat.one_le_iff_ne_zero.mpr hCount

/-- One step of the validator over the details the producer builds. -/
theorem validateRuleDetail_ok (txid : String) (found : List Bip110RuleId × List Bip110RuleId)
    {outcome : RuleOutcome} (h : outcome.verdict.Proven) :
    validateRuleDetail txid found (publicRuleDetail outcome, publicRuleId outcome.rule) =
      .ok (addOutcome found outcome) := by
  obtain ⟨violatedRules, unknownRules⟩ := found
  obtain ⟨hEvidence, hEvidenceCount, hEvidenceEmpty⟩ := exemplars_agree outcome.verdict.evidence
  obtain ⟨hMissing, hMissingCount, hMissingEmpty⟩ := exemplars_agree outcome.verdict.missing
  unfold validateRuleDetail
  simp only [bind_eq_ok, ensure_eq_ok, exists_const]
  refine ⟨by simp [publicRuleDetail], ?_, ?_, ?_⟩
  · simp only [publicRuleDetail, Bool.or_eq_false_iff]
    exact ⟨decide_eq_false (not_lt.mpr hEvidence), decide_eq_false (not_lt.mpr hMissing)⟩
  · simp only [publicRuleDetail, Bool.or_eq_false_iff, bne_eq_false_iff_eq]
    exact ⟨⟨⟨decide_eq_false (not_lt.mpr hEvidenceCount),
      decide_eq_false (not_lt.mpr hMissingCount)⟩, hEvidenceEmpty⟩, hMissingEmpty⟩
  · cases hVerdict : outcome.verdict with
    | pass =>
      simp [publicRuleDetail, publicVerdict, addOutcome, hVerdict, RuleVerdict.evidence,
        RuleVerdict.missing, bind_eq_ok, ensure_eq_ok, pure, Except.pure]
    | violate evidence missing =>
      rw [hVerdict] at h
      have hCount : toU64 evidence.length ≠ 0 := by simpa [RuleVerdict.Proven] using h
      cases missing with
      | nil =>
        simp [publicRuleDetail, publicVerdict, addOutcome, hVerdict, RuleVerdict.evidence,
          RuleVerdict.missing, bind_eq_ok, ensure_eq_ok, hCount, pure, Except.pure]
      | cons first rest =>
        simp [publicRuleDetail, publicVerdict, addOutcome, hVerdict, RuleVerdict.evidence,
          RuleVerdict.missing, bind_eq_ok, ensure_eq_ok, hCount, pure, Except.pure]
    | unknown missing =>
      rw [hVerdict] at h
      have hCount : toU64 missing.length ≠ 0 := by simpa [RuleVerdict.Proven] using h
      simp [publicRuleDetail, publicVerdict, addOutcome, hVerdict, RuleVerdict.evidence,
        RuleVerdict.missing, bind_eq_ok, ensure_eq_ok, hCount, pure, Except.pure]

/-- Proven outcomes pass, and their rules are gathered. -/
theorem foldlM_validateRuleDetail (txid : String) {outcomes : List RuleOutcome}
    (h : ∀ outcome ∈ outcomes, outcome.verdict.Proven)
    (found : List Bip110RuleId × List Bip110RuleId) :
    ((outcomes.map publicRuleDetail).zip
        (outcomes.map fun outcome => publicRuleId outcome.rule)).foldlM
      (validateRuleDetail txid) found = .ok (outcomes.foldl addOutcome found) := by
  induction outcomes generalizing found with
  | nil => rfl
  | cons first rest ih =>
    obtain ⟨hFirst, hRest⟩ := List.forall_mem_cons.mp h
    rw [List.map_cons, List.map_cons, List.zip_cons_cons, List.foldlM_cons, bind_eq_ok]
    exact ⟨_, validateRuleDetail_ok txid found hFirst, ih hRest _⟩

section Crate

variable [BitcoinCrate]

theorem mem_propertyTally_of_serialized {transaction : Transaction} {prevouts : PrevoutSet}
    {label : String} (h : label ∈ serializedProperties transaction) :
    label ∈ (propertyTally transaction prevouts).found := by
  have hOutputs : ∀ (outputs : List TxOut) (tally : PropertyTally), label ∈ tally.found →
      label ∈ (outputs.foldl PropertyTally.countOutput tally).found := by
    intro outputs
    induction outputs with
    | nil => exact fun _ hMem => hMem
    | cons txout rest ih =>
      intro tally hMem
      exact ih _ (by simp [PropertyTally.countOutput, PropertyTally.countFamily, hMem])
  have hInputs : ∀ (inputs : List (TxIn × Nat)) (tally : PropertyTally), label ∈ tally.found →
      label ∈ (inputs.foldl (PropertyTally.countInput prevouts) tally).found := by
    intro inputs
    induction inputs with
    | nil => exact fun _ hMem => hMem
    | cons indexed rest ih =>
      intro tally hMem
      exact ih _ (PropertyTally.mem_countInput hMem indexed)
  exact hInputs _ _ (hOutputs _ _ h)

omit [BitcoinCrate] in
theorem versionLabel_mem (transaction : Transaction) :
    versionLabel transaction.version ∈ serializedProperties transaction := by
  unfold serializedProperties
  split_ifs <;> simp

/-- `transaction_properties` gives a consistent result. -/
theorem transactionProperties_consistent (transaction : Transaction) (prevouts : PrevoutSet) :
    ConsistentResult (transactionProperties transaction prevouts) classifierCatalog[0] := by
  have hVersion : versionLabel transaction.version ∈ propertyLabelOrder := by
    unfold versionLabel
    split_ifs <;> decide
  obtain ⟨hComplete, hPartial, hNodup⟩ := scriptCoverage_consistent
    ((propertyTally transaction prevouts).missingInputScripts == 0)
  exact {
    id := rfl
    labelled := Or.inl (orderedLabels_ne_nil hVersion
      (mem_propertyTally_of_serialized (versionLabel_mem transaction)))
    evidence := rfl
    complete := hComplete
    partialFacts := hPartial
    primary := fun _ hPrimary => by cases hPrimary
    labelsNodup := orderedLabels_nodup (by decide) _
    declared := fun _ hMem => (mem_orderedLabels.mp hMem).1
    missingNodup := hNodup }

omit [BitcoinCrate] in
theorem shapeLabels_declared (transaction : Transaction) (prevouts : PrevoutSet)
    (data : ClassificationResult) :
    DeclaredIn shapeLabelOrder (shapeLabels transaction prevouts data) := by
  have hConsolidation := DeclaredIn.ite (isConsolidation transaction = true)
    ((declaredIn_empty shapeLabelOrder).insert "consolidation" (by decide)) (declaredIn_empty _)
  have hBatch := DeclaredIn.ite (isBatchPayout transaction = true)
    (hConsolidation.insert "batch_payout" (by decide)) hConsolidation
  have hCoinjoin := DeclaredIn.ite (isPossibleCoinjoin transaction prevouts data = true)
    (hBatch.insert "possible_coinjoin" (by decide)) hBatch
  exact .ite _ (hCoinjoin.insert "other_shape" (by decide)) hCoinjoin

omit [BitcoinCrate] in
/-- With every script known, a transaction without a positive label is `other_shape`. -/
theorem shapeLabels_ne_empty {transaction : Transaction} {prevouts : PrevoutSet}
    {data : ClassificationResult} (h : allInputScriptsKnown transaction prevouts = true) :
    (shapeLabels transaction prevouts data).isEmpty = false := by
  have hFallback : ∀ found : BTreeSet String,
      (if found.isEmpty && allInputScriptsKnown transaction prevouts then
        found.insert "other_shape" else found).isEmpty = false := by
    intro found
    rw [h, Bool.and_true]
    split
    · simp
    · next hFound => simpa using hFound
  exact hFallback _

omit [BitcoinCrate] in
/-- `transaction_shape` gives a consistent result. -/
theorem transactionShape_consistent (transaction : Transaction) (prevouts : PrevoutSet)
    (data : ClassificationResult) :
    ConsistentResult (transactionShape transaction prevouts data) classifierCatalog[1] := by
  obtain ⟨hComplete, hPartial, hNodup⟩ := scriptCoverage_consistent
    (allInputScriptsKnown transaction prevouts)
  have hLabelled : orderedLabels (shapeLabels transaction prevouts data) shapeLabelOrder ≠ [] ∨
      (scriptCoverage (allInputScriptsKnown transaction prevouts)).1 = .partialResult := by
    cases hKnown : allInputScriptsKnown transaction prevouts with
    | false => exact Or.inr rfl
    | true =>
      obtain ⟨label, hMem⟩ := exists_mem_of_isEmpty_eq_false (shapeLabels_ne_empty hKnown)
      exact Or.inl (orderedLabels_ne_nil (shapeLabels_declared _ _ _ label hMem) hMem)
  exact {
    id := rfl
    labelled := hLabelled
    evidence := rfl
    complete := hComplete
    partialFacts := hPartial
    primary := fun _ hPrimary => find_mem_orderedLabels hPrimary
    labelsNodup := orderedLabels_nodup (by decide) _
    declared := fun _ hMem => (mem_orderedLabels.mp hMem).1
    missingNodup := hNodup }

-- ---------------------------------------------------------------------------
-- Data protocols and policy
-- ---------------------------------------------------------------------------

omit [BitcoinCrate] in
theorem declaredIn_detect {analysis : DataAnalysis}
    (h : DeclaredIn dataLabelOrder analysis.labels) (label : String)
    (hOrder : label ∈ dataLabelOrder) {evidence : Detection} (hLabel : evidence.label = label) :
    DeclaredIn dataLabelOrder (analysis.detect evidence).labels :=
  h.insert _ (hLabel ▸ hOrder)

theorem declaredIn_analyzeWitness {analysis : DataAnalysis}
    (h : DeclaredIn dataLabelOrder analysis.labels) (indexed : List Script × Nat) :
    DeclaredIn dataLabelOrder (analyzeWitness analysis indexed).labels := by
  obtain ⟨witness, input⟩ := indexed
  have hPattern : ∀ evidence : Detection, evidence.label = "inscription" →
      DeclaredIn dataLabelOrder
        (if witness.any fun element => containsMarker element ordEnvelopeBytes then
          analysis.detect evidence else analysis).labels := by
    intro evidence hLabel
    split
    · exact declaredIn_detect h "inscription" (by decide) hLabel
    · exact h
  simp only [analyzeWitness]
  split
  · split
    · split
      · exact declaredIn_detect (declaredIn_detect h "inscription" (by decide) rfl) "brc20"
          (by decide) rfl
      · exact declaredIn_detect h "inscription" (by decide) rfl
    · exact hPattern _ rfl
  · exact hPattern _ rfl

theorem declaredIn_analyzeOpReturn (key : Option (List UInt8)) {analysis : DataAnalysis}
    (h : DeclaredIn dataLabelOrder analysis.labels) (indexed : TxOut × Nat) :
    DeclaredIn dataLabelOrder (analyzeOpReturn key analysis indexed).labels := by
  simp only [analyzeOpReturn]
  split_ifs
  · exact h
  · exact declaredIn_detect h "runes" (by decide) rfl
  · exact declaredIn_detect h "counterparty" (by decide) rfl
  · exact declaredIn_detect h "omni" (by decide) rfl
  · exact declaredIn_detect h "other_op_return" (by decide) rfl

theorem declaredIn_analyzeMultisigCarriers (transaction : Transaction)
    (key : Option (List UInt8)) {analysis : DataAnalysis}
    (h : DeclaredIn dataLabelOrder analysis.labels) :
    DeclaredIn dataLabelOrder (analyzeMultisigCarriers transaction key analysis).labels := by
  have hStamps : ∀ carriers,
      DeclaredIn dataLabelOrder (detectStamps carriers key analysis).labels := by
    intro carriers
    simp only [detectStamps]
    split
    · exact h
    · split
      · exact h
      · split
        · exact h
        · exact declaredIn_detect h "stamps" (by decide) rfl
  simp only [analyzeMultisigCarriers, detectMultisigCounterparty]
  split
  · exact h
  · split
    · exact hStamps _
    · split
      · exact declaredIn_detect (hStamps _) "counterparty" (by decide) rfl
      · exact declaredIn_detect (declaredIn_detect (hStamps _) "counterparty" (by decide) rfl)
          "stamps" (by decide) rfl

theorem declaredIn_analyzeData (transaction : Transaction) :
    DeclaredIn dataLabelOrder (analyzeData transaction).labels := by
  have hWitnesses : ∀ (witnesses : List (List Script × Nat)) (analysis : DataAnalysis),
      DeclaredIn dataLabelOrder analysis.labels →
        DeclaredIn dataLabelOrder (witnesses.foldl analyzeWitness analysis).labels := by
    intro witnesses
    induction witnesses with
    | nil => exact fun _ h => h
    | cons first rest ih => exact fun _ h => ih _ (declaredIn_analyzeWitness h first)
  have hOutputs : ∀ (outputs : List (TxOut × Nat)) (analysis : DataAnalysis),
      DeclaredIn dataLabelOrder analysis.labels → DeclaredIn dataLabelOrder
        (outputs.foldl (analyzeOpReturn (arc4Key transaction)) analysis).labels := by
    intro outputs
    induction outputs with
    | nil => exact fun _ h => h
    | cons first rest ih => exact fun _ h => ih _ (declaredIn_analyzeOpReturn _ h first)
  exact declaredIn_analyzeMultisigCarriers _ _
    (hOutputs _ _ (hWitnesses _ _ (declaredIn_empty dataLabelOrder)))

/-- `data_protocols` gives a consistent result. -/
theorem dataProtocols_consistent (transaction : Transaction) :
    ConsistentResult (dataProtocols transaction) classifierCatalog[2] := by
  have hDeclared : DeclaredIn dataLabelOrder (dataLabels (analyzeData transaction)) :=
    .ite _ ((declaredIn_analyzeData transaction).insert _ (by decide))
      (declaredIn_analyzeData transaction)
  have hNonempty : (dataLabels (analyzeData transaction)).isEmpty = false := by
    unfold dataLabels
    split
    · simp
    · next hFound => simpa using hFound
  obtain ⟨label, hMem⟩ := exists_mem_of_isEmpty_eq_false hNonempty
  exact {
    id := rfl
    labelled := Or.inl (orderedLabels_ne_nil (hDeclared label hMem) hMem)
    evidence := rfl
    complete := fun _ => rfl
    partialFacts := fun hState => by cases hState
    primary := fun _ hPrimary => find_mem_orderedLabels hPrimary
    labelsNodup := orderedLabels_nodup (by decide) _
    declared := fun _ hLabel => (mem_orderedLabels.mp hLabel).1
    missingNodup := List.nodup_nil }

omit [BitcoinCrate] in
/-- The policy lens gives a consistent result. -/
theorem bip110Result_consistent (assessment : Bip110Assessment) :
    ConsistentResult (bip110Result assessment) classifierCatalog[3] where
  id := rfl
  labelled := Or.inl (List.cons_ne_nil _ _)
  evidence := rfl
  complete hState := by
    cases hUnknown : assessment.unknownRules.isEmpty <;> simp_all [bip110Result]
  partialFacts hState := by
    cases hUnknown : assessment.unknownRules.isEmpty <;> simp_all [bip110Result]
  primary _ hPrimary := by
    have hEq := Option.some.inj hPrimary
    simp [bip110Result, ← hEq]
  labelsNodup := List.nodup_singleton _
  declared label hMem := by
    have hEq := List.mem_singleton.mp hMem
    rw [hEq]
    cases assessment.status <;> decide
  missingNodup := by
    cases hUnknown : assessment.unknownRules.isEmpty <;> simp [bip110Result, hUnknown]

/-- The four results pass together. -/
theorem validateClassifierResults_ok (txid : String) (transaction : Transaction)
    (prevouts : PrevoutSet) (assessment : Bip110Assessment) :
    validateClassifierResults txid (classifyTransaction transaction prevouts assessment) =
      .ok () := by
  unfold validateClassifierResults
  rw [bind_eq_ok]
  refine ⟨(), ensure_eq_ok.mpr rfl, checkAll_eq_ok.mpr fun pair hMem => ?_⟩
  have hZip : (classifyTransaction transaction prevouts assessment).zip classifierCatalog =
      [(transactionProperties transaction prevouts, classifierCatalog[0]),
        (transactionShape transaction prevouts (dataProtocols transaction), classifierCatalog[1]),
        (dataProtocols transaction, classifierCatalog[2]),
        (bip110Result assessment, classifierCatalog[3])] := rfl
  rw [hZip] at hMem
  simp only [List.mem_cons, List.not_mem_nil, or_false] at hMem
  rcases hMem with rfl | rfl | rfl | rfl
  · exact validateClassifierResult_ok (transactionProperties_consistent transaction prevouts)
  · exact validateClassifierResult_ok (transactionShape_consistent transaction prevouts _)
  · exact validateClassifierResult_ok (dataProtocols_consistent transaction)
  · exact validateClassifierResult_ok (bip110Result_consistent assessment)

-- ---------------------------------------------------------------------------
-- The whole record
-- ---------------------------------------------------------------------------

omit [BitcoinCrate] in
/-- The policy result matches its assessment. -/
theorem policyResultMatches_bip110Result (assessment : Bip110Assessment) :
    policyResultMatches (bip110Result assessment) assessment = true := by
  unfold policyResultMatches bip110Result policyLabel
  cases assessment.status <;> simp

/-- **Every record that is made passes** its check. -/
theorem validateClassification_ok (txid wtxid : String) (facts : TransactionStructure)
    (transaction : Transaction) (prevouts : PrevoutSet) :
    validateClassification (classifyCandidate txid wtxid facts transaction prevouts) = .ok () := by
  have hRules : ∀ outcome ∈ (evaluateMempoolPolicy transaction prevouts).rules,
      outcome.verdict.Proven := by
    intro outcome hMem
    rw [evaluateMempoolPolicy_rules] at hMem
    obtain ⟨rule, -, rfl⟩ := List.mem_map.mp hMem
    exact policyVerdict_proven transaction prevouts rule
  have hOrder : (evaluateMempoolPolicy transaction prevouts).rules.map
      (fun outcome => publicRuleId outcome.rule) = Bip110RuleId.all := rfl
  have hFold := foldlM_validateRuleDetail txid hRules ([], [])
  rw [hOrder, foldl_addOutcome, List.nil_append, List.nil_append] at hFold
  have hPolicy : (classifyCandidate txid wtxid facts transaction prevouts).results.find?
      (fun result => result.classifierId == knotsBip110ClassifierId) =
        some (bip110Result (assessmentFromEvidence (evaluateMempoolPolicy transaction prevouts))) :=
    rfl
  unfold validateClassification
  rw [hPolicy, bind_eq_ok]
  refine ⟨(), validateClassifierResults_ok _ _ _ _, ?_⟩
  simp only [bind_eq_ok, ensure_eq_ok, exists_const]
  refine ⟨?_, rfl, _, hFold, ?_⟩
  · rw [Bool.not_eq_false']
    exact policyResultMatches_bip110Result _
  · have hStatus := assessment_status (evaluateMempoolPolicy transaction prevouts)
    have hViolated := assessment_violatedRules (evaluateMempoolPolicy transaction prevouts)
    have hUnknown := assessment_unknownRules (evaluateMempoolPolicy transaction prevouts)
    have hAssessment : (classifyCandidate txid wtxid facts transaction prevouts).assessment =
        assessmentFromEvidence (evaluateMempoolPolicy transaction prevouts) := rfl
    simp only [hAssessment, hStatus, hViolated, hUnknown, bne_self_eq_false, Bool.false_or]
    cases hPrimary : (evaluateMempoolPolicy transaction prevouts).primaryViolation with
    | none => simp [assessmentFromEvidence, hPrimary]
    | some primary =>
      have hViolate := policyVerdict_primary hPrimary
      have hMem : publicRuleId primary.rule ∈
          (evaluateMempoolPolicy transaction prevouts).rules.filterMap violatedRule := by
        rw [mem_violatedRules, evaluateMempoolPolicy_rules]
        have hAll : primary.rule ∈ allRules := by cases primary.rule <;> decide
        exact ⟨_, List.mem_map_of_mem hAll, hViolate, rfl⟩
      simpa [assessmentFromEvidence, hPrimary] using hMem

/-- **Everything the classifier produces is publishable.** The record built for
a transaction whose structure derives, over any prevout set, passes both
validators; so a map of such records that match the rows of an accepted
membership materializes. -/
theorem produced_classifications_publishable :
    (∀ (txid wtxid : String) (facts : TransactionStructure) (transaction : Transaction)
        (prevouts : PrevoutSet), transactionStructure transaction = .ok facts →
      validateClassification (classifyCandidate txid wtxid facts transaction prevouts) = .ok () ∧
        validateClassifierResults txid
          (classifyCandidate txid wtxid facts transaction prevouts).results = .ok ()) ∧
    ∀ (sourceId sourceLabel : String) (started completed duration : Nat) (tip : ChainTip)
        (rows : List MempoolEntry) (membership : MempoolSnapshot) (revision : Nat)
        (classifications : TransactionClassifications),
      MempoolSnapshot.newWithCollectionWindow sourceId sourceLabel started completed duration tip
        rows = .ok membership →
      revision ≤ maxSafeJsonInteger →
      (∀ txid classification, classifications[txid]? = some classification →
        ∃ entry ∈ membership.transactions, entry.txid = txid ∧
          ∃ facts transaction prevouts, transactionStructure transaction = .ok facts ∧
            classification = classifyCandidate txid entry.wtxid facts transaction prevouts) →
      ∃ observation,
        MempoolObservation.materializeRetained membership revision classifications =
          .ok observation := by
  refine ⟨fun txid wtxid facts transaction prevouts _ =>
    ⟨validateClassification_ok _ _ _ _ _, validateClassifierResults_ok _ _ _ _⟩, ?_⟩
  intro sourceId sourceLabel started completed duration tip rows membership revision
    classifications hMembership hRevision hProduced
  obtain ⟨hAccepted, rfl⟩ := newWithCollectionWindow_eq_ok.mp hMembership
  refine ⟨_, materializeRetained_eq_ok.mpr ⟨hAccepted, hRevision, ?_, rfl⟩⟩
  intro txid classification hGet
  obtain ⟨entry, hMem, hTxid, facts, transaction, prevouts, -, rfl⟩ := hProduced _ _ hGet
  exact ⟨validateClassification_ok _ _ _ _ _, rfl, entry, hMem, hTxid, rfl⟩

end Crate

/-- The sample record: a payment with its prevout unknown. -/
theorem produced_classifications_publishable_payment :
    let _ := Reference.crate [Reference.payment]
    validateClassification (classifyCandidate "a" "b" ⟨1, 1, 0, 1000, 0⟩
      Reference.payment.transaction ⟨[none]⟩) = .ok () := by
  intro _
  have hStructure : transactionStructure Reference.payment.transaction =
      .ok ⟨1, 1, 0, 1000, 0⟩ := by rfl
  exact (produced_classifications_publishable.1 "a" "b" _ _ ⟨[none]⟩ hStructure).1

end MempoolAtlas.Classifiers
