import MempoolAtlas.Bip110.Refinement
import MempoolAtlas.Bitcoin.Reference
import MempoolAtlas.Classifiers.Assessment

/-!
# Later facts only answer unknowns

Every lens of one transaction under a prevout set, against the same lens under
a set that fills some of its missing slots: what the first concludes the second
concludes too.

## Results

* `transactionProperties_mono`, `transactionShape_mono` — with more facts a lens keeps its
  labels.
* `later_facts_only_answer_unknowns` — nothing a lens or a rule concluded is taken back.
-/

namespace MempoolAtlas.Classifiers

open BitcoinCrate Model Machine Bip110

theorem orderedLabels_mono {found found' : BTreeSet String} (h : ∀ label ∈ found, label ∈ found')
    {order : List String} {label : String} (hMem : label ∈ orderedLabels found order) :
    label ∈ orderedLabels found' order := by
  rw [mem_orderedLabels] at hMem ⊢
  exact ⟨hMem.1, h label hMem.2⟩

section Crate

variable [BitcoinCrate] {prevouts prevouts' : PrevoutSet}

-- ---------------------------------------------------------------------------
-- Transaction properties
-- ---------------------------------------------------------------------------

/-- Every label one tally has found, the other has found. -/
def PropertyTally.FoundIn (tally tally' : PropertyTally) : Prop :=
  ∀ label ∈ tally.found, label ∈ tally'.found

/-- One input with more facts finds no fewer labels. -/
theorem PropertyTally.countInput_mono (hFills : prevouts.Fills prevouts')
    {tally tally' : PropertyTally} (h : tally.FoundIn tally') (indexed : TxIn × Nat) :
    (tally.countInput prevouts indexed).FoundIn (tally'.countInput prevouts' indexed) := by
  intro label hMem
  obtain ⟨input, index⟩ := indexed
  cases hGet : prevouts.get index with
  | none =>
    have hBefore : label ∈ tally.found := by
      simpa only [PropertyTally.countInput, hGet] using hMem
    exact PropertyTally.mem_countInput (h label hBefore) _
  | some facts =>
    have hGet' := hFills.agrees index facts hGet
    simp only [PropertyTally.countInput, PropertyTally.countFamily, hGet, hGet'] at hMem ⊢
    split at hMem <;> simp_all only [ite_true, ite_false, Bool.false_eq_true,
      Std.ExtTreeSet.mem_insert]
    · exact hMem.imp_right fun hMem => hMem.imp_right (h label)
    · exact hMem.imp_right (h label)

/-- With more facts `transaction_properties` keeps its labels. -/
theorem transactionProperties_mono (hFills : prevouts.Fills prevouts') (tx : Transaction)
    {label : String} (h : label ∈ (transactionProperties tx prevouts).labels) :
    label ∈ (transactionProperties tx prevouts').labels := by
  have hTally : (propertyTally tx prevouts).FoundIn (propertyTally tx prevouts') := by
    unfold propertyTally
    exact List.foldl_rel (fun _ hMem => hMem) fun indexed _ _ _ hFound =>
      PropertyTally.countInput_mono hFills hFound indexed
  exact orderedLabels_mono hTally h

-- ---------------------------------------------------------------------------
-- Transaction shape
-- ---------------------------------------------------------------------------

omit [BitcoinCrate] in
/-- When every prevout is known. -/
theorem allInputScriptsKnown_iff {tx : Transaction} :
    allInputScriptsKnown tx prevouts = true ↔
      tx.input.length = prevouts.len ∧
        ∀ index < tx.input.length, (prevouts.get index).isSome = true := by
  simp [allInputScriptsKnown]

omit [BitcoinCrate] in
/-- The labels that only count inputs and outputs. -/
theorem mem_shapeLabels_of_count {tx : Transaction} {data : ClassificationResult} {label : String}
    (h : (label = "consolidation" ∧ isConsolidation tx = true) ∨
      (label = "batch_payout" ∧ isBatchPayout tx = true)) :
    label ∈ shapeLabels tx prevouts data := by
  unfold shapeLabels
  rcases h with ⟨rfl, hCount⟩ | ⟨rfl, hCount⟩ <;> simp only [hCount, if_true] <;>
    split_ifs <;> simp

omit [BitcoinCrate] in
/-- While a spent script is missing, only the counts give a label. -/
theorem count_of_mem_shapeLabels {tx : Transaction} {data : ClassificationResult} {label : String}
    (hUnknown : allInputScriptsKnown tx prevouts = false)
    (h : label ∈ shapeLabels tx prevouts data) :
    (label = "consolidation" ∧ isConsolidation tx = true) ∨
      (label = "batch_payout" ∧ isBatchPayout tx = true) := by
  have hInputs : uniqueInputs tx prevouts = false := by simp [uniqueInputs, hUnknown]
  have hCoinjoin : isPossibleCoinjoin tx prevouts data = false := by
    simp [isPossibleCoinjoin, hInputs]
  simp only [shapeLabels, hCoinjoin, hUnknown, Bool.and_false, Bool.false_eq_true, if_false] at h
  by_cases hConsolidation : isConsolidation tx = true <;>
    by_cases hBatch : isBatchPayout tx = true <;>
    simp only [hConsolidation, hBatch, if_true, Bool.false_eq_true, if_false,
      Std.ExtTreeSet.mem_insert, Std.LawfulEqCmp.compare_eq_iff_eq, Std.ExtTreeSet.not_mem_empty,
      or_false, and_true] at h ⊢
  · exact h.symm.imp Eq.symm Eq.symm
  · exact Or.inl h.symm
  · exact Or.inr h.symm

omit [BitcoinCrate] in
/-- With more facts `transaction_shape` keeps its positive labels. -/
theorem transactionShape_mono (hFills : prevouts.Fills prevouts') (tx : Transaction)
    (data : ClassificationResult) {label : String}
    (h : label ∈ (transactionShape tx prevouts data).labels) :
    label ∈ (transactionShape tx prevouts' data).labels := by
  by_cases hKnown : allInputScriptsKnown tx prevouts = true
  · -- with every script known there is nothing left to fill in
    obtain ⟨hLen, hAll⟩ := allInputScriptsKnown_iff.mp hKnown
    rw [hFills.eq_of_known fun index hIndex => hAll index (hLen ▸ hIndex)]
    exact h
  · refine orderedLabels_mono (fun label hMem => ?_) h
    exact mem_shapeLabels_of_count (count_of_mem_shapeLabels (by simpa using hKnown) hMem)

-- ---------------------------------------------------------------------------
-- The assessment
-- ---------------------------------------------------------------------------

/-- With more facts a violation stays one. -/
theorem assessment_violating_mono (hFills : prevouts.Fills prevouts') {tx : Transaction}
    (h : (assessmentFromEvidence (evaluateMempoolPolicy tx prevouts)).status = .violating) :
    (assessmentFromEvidence (evaluateMempoolPolicy tx prevouts')).status = .violating := by
  rw [assessment_violating, evaluateMempoolPolicy_rules] at h ⊢
  obtain ⟨_, hMem, hViolate⟩ := h
  obtain ⟨rule, hRule, rfl⟩ := List.mem_map.mp hMem
  exact ⟨_, List.mem_map_of_mem hRule, (policyVerdict_refines hFills tx rule).violate hViolate⟩

/-- **Missing facts never fabricate a conclusion.** For every transaction and
every prevout set, of its input length or not, filling any missing slots keeps every rule's evidence, violations and passes, the primary
violation, a violating status and every label, and does not touch the data
protocols. -/
theorem later_facts_only_answer_unknowns (tx : Transaction) (prevouts prevouts' : PrevoutSet)
    (hFills : prevouts.Fills prevouts') :
    let evidence := evaluateMempoolPolicy tx prevouts
    let evidence' := evaluateMempoolPolicy tx prevouts'
    let results := classifyTransaction tx prevouts (assessmentFromEvidence evidence)
    let results' := classifyTransaction tx prevouts' (assessmentFromEvidence evidence')
    List.Forall₂ (fun outcome outcome' => outcome.rule = outcome'.rule ∧
        VerdictRefines outcome.verdict outcome'.verdict) evidence.rules evidence'.rules ∧
      evidence.rules.map RuleOutcome.rule = allRules ∧
      (∀ primary, evidence.primaryViolation = some primary →
        evidence'.primaryViolation = some primary) ∧
      ((assessmentFromEvidence evidence).status = .violating →
        (assessmentFromEvidence evidence').status = .violating) ∧
      (∀ label ∈ (transactionProperties tx prevouts).labels,
        label ∈ (transactionProperties tx prevouts').labels) ∧
      (∀ label ∈ (transactionShape tx prevouts (dataProtocols tx)).labels,
        label ∈ (transactionShape tx prevouts' (dataProtocols tx)).labels) ∧
      results[2]? = results'[2]? := by
  intro evidence evidence' results results'
  refine ⟨?_, ?_, fun primary => primaryViolation_refines hFills, assessment_violating_mono hFills,
    fun label => transactionProperties_mono hFills tx,
    fun label => transactionShape_mono hFills tx (dataProtocols tx), rfl⟩
  · rw [evaluateMempoolPolicy_rules, evaluateMempoolPolicy_rules, List.forall₂_map_left_iff,
      List.forall₂_map_right_iff, List.forall₂_same]
    exact fun rule _ => ⟨rfl, policyVerdict_refines hFills tx rule⟩
  · rw [evaluateMempoolPolicy_rules, List.map_map]
    rfl

end Crate

/-- Two inputs of which the second one's script becomes known. -/
theorem later_facts_only_answer_unknowns_two_inputs :
    let _ := Reference.crate []
    let input : TxIn := ⟨⟨1, 0⟩, [], 0xffffffff, []⟩
    let script : Script := 0x00 :: 0x14 :: List.replicate 20 0
    let tx : Transaction := ⟨2, 0, [input, input], [⟨1000, script⟩]⟩
    ∀ label ∈ (transactionProperties tx ⟨[none, none]⟩).labels,
      label ∈ (transactionProperties tx ⟨[none, some ⟨script, none⟩]⟩).labels := by
  intro _ input script tx
  have hFills : PrevoutSet.Fills ⟨[none, none]⟩ ⟨[none, some ⟨script, none⟩]⟩ := by
    refine ⟨rfl, fun index facts hGet => ?_⟩
    match index with
    | 0 | 1 | n + 2 => simp [PrevoutSet.get] at hGet
  obtain ⟨-, -, -, -, hProperties, -⟩ := later_facts_only_answer_unknowns tx _ _ hFills
  exact hProperties

end MempoolAtlas.Classifiers
