import MempoolAtlas.Bip110.Readings
import MempoolAtlas.Bitcoin.Reference

/-!
# Consensus and mempool policy

The two modes of one evaluator read the same inputs. Consensus skips a
grandfathered prevout and proves nothing while a creation height is unknown, so
whatever it reports, policy reports too; and where every height is known and
none is grandfathered the two agree on everything.

## Results

* `specifiedVerdict_within` — a consensus verdict lies within the policy's.
* `evaluation_modes_agree` — how the two modes report, in general and where they agree.
-/

namespace MempoolAtlas.Bip110

section Crate

variable [BitcoinCrate]

omit [BitcoinCrate] in
/-- A prevout whose creation height is known and not grandfathered. -/
def Provable (ctx : EvaluationContext) (facts : PrevoutFacts) : Prop :=
  ∃ height, facts.creationHeight = some height ∧ ctx.isGrandfathered height ≠ some true

omit [BitcoinCrate] in
/-- When a coin is judged under the consensus rules. -/
theorem provable_iff {ctx : EvaluationContext} {facts : PrevoutFacts} :
    Provable ctx facts ↔ facts.creationHeight.isSome = true ∧ isExempt ctx facts = false := by
  unfold Provable isExempt
  cases facts.creationHeight with
  | none => simp
  | some height =>
    cases hGrandfathered : ctx.isGrandfathered height with
    | none => simp [hGrandfathered]
    | some exempt => cases exempt <;> simp [hGrandfathered]

omit [BitcoinCrate] in
instance (ctx : EvaluationContext) (facts : PrevoutFacts) : Decidable (Provable ctx facts) :=
  decidable_of_iff _ provable_iff.symm

/-- The matches of one rule over the inputs that consensus can prove. -/
def consensusEvidence (tx : Transaction) (ctx : EvaluationContext) (prevouts : PrevoutSet)
    (rule : RuleId) : List Violation :=
  if tx.isCoinbase then []
  else tx.input.zipIdx.flatMap fun (txin, i) =>
    match prevouts.get i with
    | none => []
    | some facts =>
      if Provable ctx facts then Reading.evidenceOf rule (evaluateInput i txin facts.scriptPubkey)
      else []

-- ---------------------------------------------------------------------------
-- One input
-- ---------------------------------------------------------------------------

variable {prevouts : PrevoutSet} {ctx : EvaluationContext}

/-- A judged coin reads alike in both modes. -/
theorem reading_consensus_eq (indexed : TxIn × Nat)
    (h : ∀ facts, prevouts.get indexed.2 = some facts → Provable ctx facts) :
    reading prevouts (.consensus ctx) indexed = reading prevouts .mempoolPolicy indexed := by
  unfold reading
  cases hGet : prevouts.get indexed.2 with
  | none => rfl
  | some facts =>
    obtain ⟨hHeight, hExempt⟩ := provable_iff.mp (h facts hGet)
    simp [hHeight, hExempt]

/-- What consensus proves of an input, policy proves. -/
theorem reading_evidence_sublist (indexed : TxIn × Nat) (rule : RuleId) :
    ((reading prevouts (.consensus ctx) indexed).evidence rule).Sublist
      ((reading prevouts .mempoolPolicy indexed).evidence rule) := by
  unfold reading
  cases hGet : prevouts.get indexed.2 with
  | none => exact List.Sublist.refl _
  | some facts =>
    dsimp only
    split
    · exact List.nil_sublist _
    · split
      · exact List.Sublist.refl _
      · exact List.nil_sublist _

/-- An input in which policy finds nothing and misses nothing. -/
theorem reading_clean (indexed : TxIn × Nat) (rule : RuleId)
    (hEvidence : (reading prevouts .mempoolPolicy indexed).evidence rule = [])
    (hMissing : (reading prevouts .mempoolPolicy indexed).missing rule = []) :
    (reading prevouts (.consensus ctx) indexed).missing rule = [] := by
  unfold reading at hEvidence hMissing ⊢
  cases hGet : prevouts.get indexed.2 with
  | none => simp [hGet, Reading.missing] at hMissing
  | some facts =>
    simp only [hGet, Reading.evidence, Reading.evidenceOf, List.map_eq_nil_iff,
      List.filter_eq_nil_iff, decide_eq_true_eq] at hEvidence
    dsimp only
    split
    · rfl
    · split
      · rfl
      · -- without a match of the rule, the unknown height is no gap for it
        simp only [Reading.missing, List.any_eq_true, beq_iff_eq]
        rw [if_neg]
        rintro ⟨found, hMem, hRule⟩
        exact hEvidence found hMem hRule

-- ---------------------------------------------------------------------------
-- Verdicts
-- ---------------------------------------------------------------------------

/-- What the consensus verdict of a rule is next to its policy verdict. -/
structure ConsensusWithin (consensus policy : RuleVerdict) : Prop where
  evidence : consensus.evidence.Sublist policy.evidence
  pass : policy.isPass = true → consensus.isPass = true
  violate : consensus.isViolate = true → policy.isViolate = true

omit [BitcoinCrate] in
@[simp] theorem verdictOf_evidence (evidence : List Violation) (missing : List Missing) :
    (verdictOf evidence missing).evidence = evidence := by
  unfold verdictOf
  split_ifs with hEvidence hMissing
  · rfl
  · simpa [RuleVerdict.evidence, eq_comm] using hEvidence
  · simpa [RuleVerdict.evidence, eq_comm] using hEvidence

omit [BitcoinCrate] in
theorem verdictOf_isPass {evidence : List Violation} {missing : List Missing} :
    (verdictOf evidence missing).isPass = true ↔ evidence = [] ∧ missing = [] := by
  unfold verdictOf
  split_ifs <;> simp_all [RuleVerdict.isPass]

omit [BitcoinCrate] in
theorem verdictOf_isViolate {evidence : List Violation} {missing : List Missing} :
    (verdictOf evidence missing).isViolate = true ↔ evidence ≠ [] := by
  unfold verdictOf
  split_ifs <;> simp_all [RuleVerdict.isViolate]

/-- The consensus violations are among the policy's. -/
theorem readings_sublist (tx : Transaction) (rule : RuleId) :
    ((readings tx prevouts (.consensus ctx)).flatMap (Reading.evidence rule)).Sublist
      ((readings tx prevouts .mempoolPolicy).flatMap (Reading.evidence rule)) := by
  unfold readings
  split
  · exact List.Sublist.refl _
  · rw [List.flatMap_map, List.flatMap_map]
    induction tx.input.zipIdx with
    | nil => exact List.Sublist.refl _
    | cons indexed rest ih =>
      rw [List.flatMap_cons, List.flatMap_cons]
      exact (reading_evidence_sublist indexed rule).append ih

/-- What the policy finds clean is clean by consensus. -/
theorem readings_clean (tx : Transaction) (rule : RuleId)
    (hEvidence : (readings tx prevouts .mempoolPolicy).flatMap (Reading.evidence rule) = [])
    (hMissing : (readings tx prevouts .mempoolPolicy).flatMap (Reading.missing rule) = []) :
    (readings tx prevouts (.consensus ctx)).flatMap (Reading.missing rule) = [] := by
  unfold readings at hEvidence hMissing ⊢
  split
  · rfl
  · next hCoinbase =>
    rw [if_neg hCoinbase, List.flatMap_map, List.flatMap_eq_nil_iff] at hEvidence hMissing
    rw [List.flatMap_map, List.flatMap_eq_nil_iff]
    exact fun indexed hMem =>
      reading_clean indexed rule (hEvidence indexed hMem) (hMissing indexed hMem)

/-- **A consensus verdict lies within the policy's.** -/
theorem specifiedVerdict_within (tx : Transaction) (rule : RuleId) :
    ConsensusWithin (specifiedVerdict tx (readings tx prevouts (.consensus ctx)) rule)
      (specifiedVerdict tx (readings tx prevouts .mempoolPolicy) rule) := by
  unfold specifiedVerdict
  split
  · exact ⟨List.Sublist.refl _, id, id⟩
  · have hSub := @readings_sublist _ prevouts ctx tx rule
    refine ⟨?_, fun hPass => ?_, fun hViolate => ?_⟩
    · rw [verdictOf_evidence, verdictOf_evidence]
      exact hSub
    · obtain ⟨hEvidence, hMissing⟩ := verdictOf_isPass.mp hPass
      rw [hEvidence] at hSub
      exact verdictOf_isPass.mpr
        ⟨List.sublist_nil.mp hSub, readings_clean tx rule hEvidence hMissing⟩
    · rw [verdictOf_isViolate] at hViolate ⊢
      intro hNil
      rw [hNil] at hSub
      exact hViolate (List.sublist_nil.mp hSub)

theorem readings_consensus_evidence (tx : Transaction) (rule : RuleId) :
    (readings tx prevouts (.consensus ctx)).flatMap (Reading.evidence rule) =
      consensusEvidence tx ctx prevouts rule := by
  unfold readings consensusEvidence
  split
  · rfl
  · rw [List.flatMap_map]
    congr 1
    funext ⟨txin, i⟩
    cases hGet : prevouts.get i with
    | none => simp [reading, hGet, Reading.evidence]
    | some facts =>
      cases hExempt : isExempt ctx facts <;> cases hHeight : facts.creationHeight <;>
        simp [reading, hGet, Reading.evidence, provable_iff, hExempt, hHeight]

/-- **The two modes agree.** With every present fact provable they report the
same; in general consensus reports, rule by rule, part of what policy reports,
and counts the matches of just the provable inputs. -/
theorem evaluation_modes_agree (tx : Transaction) (ctx : EvaluationContext)
    (prevouts : PrevoutSet) (hActive : ctx.rdtsActive = true) :
    ((∀ index facts, prevouts.get index = some facts → Provable ctx facts) →
      (evaluateConsensus tx ctx prevouts).rules = (evaluateMempoolPolicy tx prevouts).rules ∧
        (evaluateConsensus tx ctx prevouts).primaryViolation =
          (evaluateMempoolPolicy tx prevouts).primaryViolation) ∧
    List.Forall₂ (fun consensus policy => consensus.rule = policy.rule ∧
        ConsensusWithin consensus.verdict policy.verdict)
      (evaluateConsensus tx ctx prevouts).rules (evaluateMempoolPolicy tx prevouts).rules ∧
    ∀ outcome ∈ (evaluateConsensus tx ctx prevouts).rules, outcome.rule ≠ .outputSize →
      outcome.verdict.evidence = consensusEvidence tx ctx prevouts outcome.rule := by
  have hConsensus : evaluateConsensus tx ctx prevouts =
      evaluateApplied tx prevouts (.consensus ctx) := by
    rw [evaluateConsensus, hActive]
    rfl
  obtain ⟨hRules, hPrimary⟩ := evaluateApplied_eq tx prevouts (.consensus ctx)
  obtain ⟨hPolicyRules, hPolicyPrimary⟩ := evaluateApplied_eq tx prevouts .mempoolPolicy
  rw [hConsensus, evaluateMempoolPolicy]
  refine ⟨fun hProvable => ?_, ?_, ?_⟩
  · have hReadings : readings tx prevouts (.consensus ctx) = readings tx prevouts .mempoolPolicy := by
      unfold readings
      split
      · rfl
      · exact List.map_congr_left fun indexed _ =>
          reading_consensus_eq indexed fun facts => hProvable indexed.2 facts
    rw [hRules, hPolicyRules, hPrimary, hPolicyPrimary, hReadings]
    exact ⟨rfl, rfl⟩
  · rw [hRules, hPolicyRules, List.forall₂_map_left_iff, List.forall₂_map_right_iff,
      List.forall₂_same]
    exact fun rule _ => ⟨rfl, specifiedVerdict_within tx rule⟩
  · rw [hRules]
    intro found hMem hNe
    obtain ⟨rule, -, rfl⟩ := List.mem_map.mp hMem
    have hInput : rule ≠ .outputSize := hNe
    show (specifiedVerdict tx _ rule).evidence = consensusEvidence tx ctx prevouts rule
    rw [specifiedVerdict, if_neg hInput, verdictOf_evidence, readings_consensus_evidence]

end Crate

/-- A payment whose prevout was created inside the active window. -/
theorem evaluation_modes_agree_payment :
    let _ := Reference.crate [Reference.payment]
    let script : Script := 0x51 :: 0x20 :: List.replicate 32 0
    (evaluateConsensus Reference.payment.transaction ⟨some 100, 200⟩ ⟨[some ⟨script, some 150⟩]⟩).rules =
      (evaluateMempoolPolicy Reference.payment.transaction ⟨[some ⟨script, some 150⟩]⟩).rules := by
  intro _ script
  obtain ⟨hSame, -⟩ := evaluation_modes_agree Reference.payment.transaction ⟨some 100, 200⟩
    ⟨[some ⟨script, some 150⟩]⟩ (by decide)
  refine (hSame fun index facts hGet => ?_).1
  match index with
  | 0 =>
    obtain rfl := Option.some.inj hGet
    exact ⟨150, rfl, by decide⟩
  | n + 1 => simp [PrevoutSet.get] at hGet

end MempoolAtlas.Bip110
