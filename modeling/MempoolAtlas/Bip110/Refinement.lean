import MempoolAtlas.Bip110.Outcomes

/-!
# Filling in missing facts

Two policy evaluations of one transaction, under a prevout set and under one
that knows more. A missing fact adds no violation and, while no violation has
been found, keeps the evaluation from naming a primary one; so everything the
first evaluation concludes the second concludes too. The invariant of the two
loops is `Related`: violations accumulate in both, and as long as nothing was
unknown to the first they are the same.

## Results

* `evaluateInputs_related` — filling in facts keeps the two loops related.
* `policyVerdict_refines` — a verdict with more facts refines the one before.
* `primaryViolation_refines` — a primary violation stays one.
-/

namespace MempoolAtlas.Bip110

namespace PrevoutSet

/-- The second set has the same slots and agrees with the first wherever the
first has a fact. -/
structure Fills (prevouts prevouts' : PrevoutSet) : Prop where
  len : prevouts'.len = prevouts.len
  agrees : ∀ index facts, prevouts.get index = some facts → prevouts'.get index = some facts

/-- A set with a fact in every slot can only be filled by itself. -/
theorem Fills.eq_of_known {prevouts prevouts' : PrevoutSet} (h : Fills prevouts prevouts')
    (hKnown : ∀ index < prevouts.len, (prevouts.get index).isSome = true) :
    prevouts' = prevouts := by
  obtain ⟨facts⟩ := prevouts
  obtain ⟨facts'⟩ := prevouts'
  have hLen : facts'.length = facts.length := h.len
  congr 1
  apply List.ext_getElem hLen
  intro index hIndex' hIndex
  obtain ⟨fact, hFact⟩ := Option.isSome_iff_exists.mp (hKnown index hIndex)
  have hFact' := h.agrees index fact hFact
  simp only [get, List.getElem?_eq_getElem hIndex, List.getElem?_eq_getElem hIndex',
    Option.join_some] at hFact hFact'
  rw [hFact, hFact']

end PrevoutSet

-- ---------------------------------------------------------------------------
-- The two loops
-- ---------------------------------------------------------------------------

theorem pushViolation_sublist {violations violations' : RuleId → List Violation}
    (h : ∀ rule, (violations rule).Sublist (violations' rule)) (found : PrimaryViolation)
    (rule : RuleId) :
    (pushViolation violations found rule).Sublist (pushViolation violations' found rule) := by
  unfold pushViolation
  by_cases hRule : rule = found.rule
  · subst hRule
    rw [Function.update_self, Function.update_self]
    exact (h found.rule).append_right _
  · rw [Function.update_of_ne hRule, Function.update_of_ne hRule]
    exact h rule

theorem pushViolations_sublist {violations violations' : RuleId → List Violation}
    (h : ∀ rule, (violations rule).Sublist (violations' rule)) (found : List PrimaryViolation) :
    ∀ rule, (found.foldl pushViolation violations rule).Sublist
      (found.foldl pushViolation violations' rule) := by
  induction found generalizing violations violations' with
  | nil => exact h
  | cons first rest ih => exact ih (pushViolation_sublist h first)

theorem sublist_pushViolation (violations : RuleId → List Violation) (found : PrimaryViolation)
    (rule : RuleId) : (violations rule).Sublist (pushViolation violations found rule) := by
  unfold pushViolation
  by_cases hRule : rule = found.rule
  · subst hRule
    rw [Function.update_self]
    exact List.sublist_append_left ..
  · rw [Function.update_of_ne hRule]

theorem sublist_pushViolations (found : List PrimaryViolation) (violations : RuleId → List Violation)
    (rule : RuleId) : (violations rule).Sublist (found.foldl pushViolation violations rule) := by
  induction found generalizing violations with
  | nil => exact List.Sublist.refl _
  | cons first rest ih => exact (sublist_pushViolation violations first rule).trans (ih _)

/-- What the loop over fewer facts knows of the loop over more. -/
structure Related (acc acc' : Accumulators) : Prop where
  violations : ∀ rule, (acc.violations rule).Sublist (acc'.violations rule)
  known : ∀ rule, acc.unknowns rule = [] → acc' = acc
  open' : acc.primaryViolation = none → acc.primaryBlocked = false → acc' = acc
  primary : ∀ primary, acc.primaryViolation = some primary → acc'.primaryViolation = some primary

theorem Related.refl (acc : Accumulators) : Related acc acc :=
  ⟨fun _ => List.Sublist.refl _, fun _ _ => rfl, fun _ _ => rfl, fun _ h => h⟩

/-- An input unknown to the first loop: whatever the second finds there, the
first has recorded the gap. -/
theorem Related.unknown {acc acc' acc'' : Accumulators} {input : Nat} (h : Related acc acc')
    (hViolations : ∀ rule, (acc'.violations rule).Sublist (acc''.violations rule))
    (hPrimary : ∀ primary, acc'.primaryViolation = some primary →
      acc''.primaryViolation = some primary) :
    Related
      { acc with
        unknowns := pushUnknownAll acc.unknowns (.scriptPubKey input)
        primaryBlocked := acc.primaryBlocked || acc.primaryViolation.isNone } acc'' where
  violations rule := (h.violations rule).trans (hViolations rule)
  known rule hNil := by simp [pushUnknownAll] at hNil
  open' hNone hOpen := by
    have hNone' : acc.primaryViolation = none := hNone
    simp [hNone'] at hOpen
  primary primary hSome := hPrimary primary (h.primary primary hSome)

/-- The matches of an input both loops know. -/
theorem Related.recordMatches {acc acc' : Accumulators} (h : Related acc acc')
    (found : List PrimaryViolation) :
    Related (recordMatches found acc) (recordMatches found acc') := by
  by_cases hSame : acc' = acc
  · subst hSame
    exact Related.refl _
  refine ⟨pushViolations_sublist h.violations found, fun rule hNil => ?_, fun hNone hOpen => ?_,
    fun primary hSome => ?_⟩
  · exact absurd (h.known rule hNil) hSame
  · have hNone' : acc.primaryViolation = none := by
      by_contra hSome
      obtain ⟨primary, hPrimary⟩ := Option.ne_none_iff_exists'.mp hSome
      simp [Bip110.recordMatches, hPrimary] at hNone
    exact absurd (h.open' hNone' hOpen) hSame
  · cases hPrimary : acc.primaryViolation with
    | none =>
      -- the first loop is past a gap, so it names no primary violation any more
      have hBlocked : acc.primaryBlocked = true := by
        by_contra hOpen
        exact hSame (h.open' hPrimary (by simpa using hOpen))
      simp [Bip110.recordMatches, hPrimary, hBlocked] at hSome
    | some first =>
      have hFirst := h.primary first hPrimary
      simp only [Bip110.recordMatches, hPrimary, hFirst] at hSome ⊢
      exact hSome

-- ---------------------------------------------------------------------------
-- Verdicts
-- ---------------------------------------------------------------------------

/-- A verdict under more facts: its evidence extends the first, a violation
stays one and a pass stays one. -/
structure VerdictRefines (verdict verdict' : RuleVerdict) : Prop where
  evidence : verdict.evidence.Sublist verdict'.evidence
  violate : verdict.isViolate = true → verdict'.isViolate = true
  pass : verdict.isPass = true → verdict'.isPass = true

theorem VerdictRefines.refl (verdict : RuleVerdict) : VerdictRefines verdict verdict :=
  ⟨List.Sublist.refl _, fun h => h, fun h => h⟩

/-- Related accumulators give verdicts that refine. -/
theorem Related.verdict {acc acc' : Accumulators} (h : Related acc acc') (rule : RuleId) :
    VerdictRefines (inputRule acc rule) (inputRule acc' rule) := by
  refine ⟨?_, fun hViolate => ?_, fun hPass => ?_⟩
  · rw [inputRule_evidence, inputRule_evidence]
    exact h.violations rule
  · rw [inputRule_isViolate] at hViolate ⊢
    intro hNil
    have hSub := h.violations rule
    rw [hNil] at hSub
    exact hViolate (List.sublist_nil.mp hSub)
  · have hKnown := ((inputRule_isPass acc rule).mp hPass).2
    rw [h.known rule hKnown]
    exact hPass

section Crate

variable [BitcoinCrate] {prevouts prevouts' : PrevoutSet}

/-- **One input** keeps the accumulators related. -/
theorem Related.input (hFills : prevouts.Fills prevouts') {acc acc' : Accumulators}
    (h : Related acc acc') (indexed : TxIn × Nat) :
    Related (evaluateInputFacts prevouts .mempoolPolicy acc indexed)
      (evaluateInputFacts prevouts' .mempoolPolicy acc' indexed) := by
  obtain ⟨txin, i⟩ := indexed
  cases hGet : prevouts.get i with
  | some facts =>
    have hGet' := hFills.agrees i facts hGet
    simp only [Bip110.evaluateInputFacts, hGet, hGet']
    exact h.recordMatches _
  | none =>
    have hUnknown : evaluateInputFacts prevouts .mempoolPolicy acc (txin, i) =
        { acc with
          unknowns := pushUnknownAll acc.unknowns (.scriptPubKey i)
          primaryBlocked := acc.primaryBlocked || acc.primaryViolation.isNone } := by
      simp only [Bip110.evaluateInputFacts, hGet]
    rw [hUnknown]
    cases hGet' : prevouts'.get i with
    | none =>
      apply h.unknown
      · intro rule
        simp only [Bip110.evaluateInputFacts, hGet']
        exact List.Sublist.refl _
      · intro primary hPrimary
        simpa only [Bip110.evaluateInputFacts, hGet'] using hPrimary
    | some facts =>
      apply h.unknown
      · intro rule
        simp only [Bip110.evaluateInputFacts, hGet']
        exact sublist_pushViolations _ acc'.violations rule
      · intro primary hPrimary
        simp [Bip110.evaluateInputFacts, hGet', Bip110.recordMatches, hPrimary]

/-- Filling in facts relates the accumulators. -/
theorem evaluateInputs_related (hFills : prevouts.Fills prevouts') (tx : Transaction) :
    Related (evaluateInputs tx prevouts .mempoolPolicy)
      (evaluateInputs tx prevouts' .mempoolPolicy) := by
  unfold evaluateInputs
  split
  · exact Related.refl _
  · exact List.foldl_rel (Related.refl _) fun indexed _ _ _ h =>
      h.input hFills indexed

-- ---------------------------------------------------------------------------
-- Both evaluations
-- ---------------------------------------------------------------------------

/-- **A verdict with more facts** refines the one before. -/
theorem policyVerdict_refines (hFills : prevouts.Fills prevouts') (tx : Transaction)
    (rule : RuleId) :
    VerdictRefines (policyVerdict tx prevouts rule) (policyVerdict tx prevouts' rule) := by
  unfold policyVerdict
  split
  · exact VerdictRefines.refl _
  · exact (evaluateInputs_related hFills tx).verdict rule

/-- A primary violation stays one. -/
theorem primaryViolation_refines (hFills : prevouts.Fills prevouts') {tx : Transaction}
    {primary : PrimaryViolation}
    (h : (evaluateMempoolPolicy tx prevouts).primaryViolation = some primary) :
    (evaluateMempoolPolicy tx prevouts').primaryViolation = some primary :=
  (evaluateInputs_related hFills tx).primary primary h

end Crate

end MempoolAtlas.Bip110
