import MempoolAtlas.Bip110.Rules

/-!
# The outcomes of a policy evaluation

The seven outcomes as verdicts of the final accumulators, and where a primary
violation comes from: every match of an input is of an input-scoped rule, so
the rule a primary violation names is one that has evidence.

## Results

* `policyVerdict_proven` — every verdict comes with its evidence.
* `policyVerdict_primary` — the rule a primary violation names is violated.
-/

namespace MempoolAtlas.Bip110

open BitcoinCrate

-- ---------------------------------------------------------------------------
-- Verdicts of the accumulators
-- ---------------------------------------------------------------------------

/-- The evidence of a rule over the inputs. -/
@[simp] theorem inputRule_evidence (acc : Accumulators) (rule : RuleId) :
    (inputRule acc rule).evidence = acc.violations rule := by
  unfold inputRule
  split_ifs with hViolations hUnknowns
  · rfl
  · simpa [RuleVerdict.evidence] using hViolations
  · simpa [RuleVerdict.evidence] using hViolations

/-- A rule is violated just when an input violates it. -/
theorem inputRule_isViolate (acc : Accumulators) (rule : RuleId) :
    (inputRule acc rule).isViolate = true ↔ acc.violations rule ≠ [] := by
  unfold inputRule
  split_ifs <;> simp_all [RuleVerdict.isViolate]

/-- A rule passes just when no input violates it and none is unknown. -/
theorem inputRule_isPass (acc : Accumulators) (rule : RuleId) :
    (inputRule acc rule).isPass = true ↔ acc.violations rule = [] ∧ acc.unknowns rule = [] := by
  unfold inputRule
  split_ifs <;> simp_all [RuleVerdict.isPass]

/-- The output rule is violated just when an output is too large. -/
theorem outputRule_isViolate (tx : Transaction) :
    (outputRule tx).isViolate = true ↔ outputSizeViolations tx ≠ [] := by
  unfold outputRule
  cases outputSizeViolations tx <;> simp [RuleVerdict.isViolate]

/-- A verdict says no more than it carries: a violation has evidence and an
unknown misses a fact. -/
def RuleVerdict.Proven : RuleVerdict → Prop
  | .pass => True
  | .violate evidence _ => evidence ≠ []
  | .unknown missing => missing ≠ []

/-- A verdict over the inputs comes with its evidence. -/
theorem inputRule_proven (acc : Accumulators) (rule : RuleId) : (inputRule acc rule).Proven := by
  unfold inputRule
  split_ifs with hViolations hUnknowns
  · simpa [RuleVerdict.Proven] using hViolations
  · simpa [RuleVerdict.Proven] using hUnknowns
  · trivial

/-- A verdict over the outputs comes with its evidence. -/
theorem outputRule_proven (tx : Transaction) : (outputRule tx).Proven := by
  unfold outputRule
  cases outputSizeViolations tx with
  | nil => trivial
  | cons first rest => exact List.cons_ne_nil first rest

-- ---------------------------------------------------------------------------
-- Matches are input-scoped
-- ---------------------------------------------------------------------------

/-- Every match is of one of the six input-scoped rules. -/
def InputScoped (found : List PrimaryViolation) : Prop := ∀ m ∈ found, m.rule ∈ inputScoped

theorem InputScoped.append {first second : List PrimaryViolation} (hFirst : InputScoped first)
    (hSecond : InputScoped second) : InputScoped (first ++ second) := fun m hMem =>
  (List.mem_append.mp hMem).elim (hFirst m) (hSecond m)

theorem inputScoped_nil : InputScoped [] := fun _ hMem => by simp at hMem

theorem inputScoped_singleton {m : PrimaryViolation} (h : m.rule ∈ inputScoped) :
    InputScoped [m] := by
  simpa [InputScoped] using h

theorem inputScoped_map {α : Type} {f : α → PrimaryViolation} (rule : RuleId)
    (hRule : ∀ a, (f a).rule = rule) (hScoped : rule ∈ inputScoped) (items : List α) :
    InputScoped (items.map f) := by
  intro m hMem
  obtain ⟨a, -, rfl⟩ := List.mem_map.mp hMem
  rw [hRule a]
  exact hScoped

section Crate

variable [BitcoinCrate] (input : Nat)

theorem inputScoped_pushViolations (kind : ScriptKind) (script : Script) :
    InputScoped (pushViolations input kind script) :=
  inputScoped_map .elementSize (fun _ => rfl) (by decide) _

omit [BitcoinCrate] in
theorem inputScoped_witnessItems (items : List Script) :
    InputScoped (witnessItemViolations input items) :=
  inputScoped_map .elementSize (fun _ => rfl) (by decide) _

omit [BitcoinCrate] in
theorem inputScoped_annex (annex : Option Script) :
    InputScoped (annex.toList.map (annexMatch input)) :=
  inputScoped_map .taprootAnnex (fun _ => rfl) (by decide) _

theorem inputScoped_tapscript (sp : TaprootScriptPath) :
    InputScoped (evaluateTapscript input sp) := by
  unfold evaluateTapscript
  refine InputScoped.append (InputScoped.append ?_ (inputScoped_witnessItems input _)) ?_
  · exact inputScoped_map .opSuccess (fun _ => rfl) (by decide) _
  · intro m hMem
    obtain ⟨⟨pos, found⟩, hSorted, rfl⟩ := List.mem_map.mp hMem
    rw [List.mem_insertionSort, List.mem_append] at hSorted
    rcases hSorted with hPush | hOpIf
    · obtain ⟨push, hFrom, hEq⟩ := List.mem_map.mp hPush
      obtain ⟨-, rfl⟩ := Prod.mk.inj hEq
      exact inputScoped_pushViolations input .tapscript _ _ hFrom
    · split at hOpIf
      · obtain ⟨opIf, -, hEq⟩ := List.mem_map.mp hOpIf
        obtain ⟨-, rfl⟩ := Prod.mk.inj hEq
        show RuleId.tapscriptOpIf ∈ inputScoped
        decide
      · simp at hOpIf

theorem inputScoped_taprootScriptPath (sp : TaprootScriptPath) :
    InputScoped (evaluateTaprootScriptPath input sp) := by
  have hAnnex := inputScoped_annex input sp.annex
  have hControl : InputScoped (if sp.control.length > taprootControlMaxSizeReduced then
      [ruleMatch .controlBlockSize (.controlBlockTooLarge input sp.control.length
        (some ((sp.control.length - taprootControlBaseSize) / taprootControlNodeSize))
        taprootControlMaxSizeReduced)]
      else []) := by
    split
    · exact inputScoped_singleton (show RuleId.controlBlockSize ∈ inputScoped by decide)
    · exact inputScoped_nil
  simp only [evaluateTaprootScriptPath]
  split
  · exact hAnnex
  · split
    · exact hAnnex.append hControl
    · split
      · exact (hAnnex.append hControl).append
          (inputScoped_singleton (show RuleId.undefinedVersion ∈ inputScoped by decide))
      · exact (hAnnex.append hControl).append (inputScoped_tapscript input sp)

theorem inputScoped_taproot (items : List Script) : InputScoped (evaluateTaproot input items) := by
  unfold evaluateTaproot
  split
  · exact inputScoped_nil
  · exact inputScoped_annex input _
  · exact inputScoped_taprootScriptPath input _

theorem inputScoped_witnessSpend (program : List UInt8) (version : UInt8) (items : List Script)
    (isP2sh : Bool) : InputScoped (evaluateWitnessSpend input program version items isP2sh) := by
  have hUndefined : ∀ version isP2sh nonEmpty,
      InputScoped [undefinedWitnessMatch input version isP2sh nonEmpty] := fun _ _ _ =>
    inputScoped_singleton (show RuleId.undefinedVersion ∈ inputScoped by decide)
  unfold evaluateWitnessSpend evaluateP2wsh
  split_ifs
  · split
    · exact inputScoped_nil
    · exact (inputScoped_witnessItems input _).append (inputScoped_pushViolations input _ _)
  · exact inputScoped_witnessItems input _
  · exact inputScoped_nil
  · exact inputScoped_taproot input items
  · exact inputScoped_nil
  · exact hUndefined _ _ _
  · exact hUndefined _ _ _

omit [BitcoinCrate] in
theorem inputScoped_scriptSigItems (instructions : List (Nat × Instruction)) :
    InputScoped (scriptSigItemMatches input instructions) := by
  intro m hMem
  obtain ⟨⟨pos, instruction⟩, -, hFound⟩ := List.mem_filterMap.mp hMem
  cases instruction with
  | op opcode => cases hFound
  | pushBytes bytes =>
    simp only [Option.ite_none_right_eq_some, Option.some.injEq] at hFound
    obtain ⟨-, rfl⟩ := hFound
    show RuleId.elementSize ∈ inputScoped
    decide

theorem inputScoped_p2sh (txin : TxIn) (items : List Script) :
    InputScoped (evaluateP2shSpend input txin items) := by
  unfold evaluateP2shSpend
  split
  · exact inputScoped_nil
  · split
    · exact inputScoped_nil
    · exact inputScoped_scriptSigItems input _
    · refine InputScoped.append ((inputScoped_scriptSigItems input _).append
        (inputScoped_pushViolations input _ _)) ?_
      split
      · split
        · exact inputScoped_witnessSpend input _ _ _ _
        · exact inputScoped_nil
      · exact inputScoped_nil

/-- What an input violates is a rule about inputs. -/
theorem inputScoped_evaluateInput (txin : TxIn) (spk : Script) :
    InputScoped (evaluateInput input txin spk) := by
  unfold evaluateInput evaluateLegacySpend
  split
  · exact inputScoped_p2sh input txin _
  · split
    · exact inputScoped_witnessSpend input _ _ _ _
    · exact (inputScoped_pushViolations input _ _).append (inputScoped_pushViolations input _ _)

-- ---------------------------------------------------------------------------
-- The primary violation
-- ---------------------------------------------------------------------------

/-- A primary violation is of rule 1 with an oversized output, or of an
input-scoped rule that has evidence. -/
def PrimaryProven (tx : Transaction) (acc : Accumulators) : Prop :=
  ∀ primary, acc.primaryViolation = some primary →
    (primary.rule = .outputSize ∧ outputSizeViolations tx ≠ []) ∨
      (primary.rule ∈ inputScoped ∧ acc.violations primary.rule ≠ [])

omit [BitcoinCrate] in
theorem pushViolation_ne_nil {violations : RuleId → List Violation} {rule : RuleId}
    (found : PrimaryViolation) (h : violations rule ≠ [] ∨ found.rule = rule) :
    pushViolation violations found rule ≠ [] := by
  unfold pushViolation
  by_cases hRule : rule = found.rule
  · subst hRule
    simp
  · rw [Function.update_of_ne hRule]
    exact h.resolve_right fun hEq => hRule hEq.symm

omit [BitcoinCrate] in
theorem pushViolations_ne_nil {violations : RuleId → List Violation} {rule : RuleId}
    (found : List PrimaryViolation) (h : violations rule ≠ [] ∨ ∃ m ∈ found, m.rule = rule) :
    found.foldl pushViolation violations rule ≠ [] := by
  induction found generalizing violations with
  | nil => simpa using h
  | cons first rest ih =>
    apply ih
    rcases h with hNe | ⟨m, hMem, hRule⟩
    · exact Or.inl (pushViolation_ne_nil first (Or.inl hNe))
    · rcases List.mem_cons.mp hMem with rfl | hMem
      · exact Or.inl (pushViolation_ne_nil m (Or.inr hRule))
      · exact Or.inr ⟨m, hMem, hRule⟩

omit [BitcoinCrate] in
/-- **One more input** keeps the primary violation proven. -/
theorem PrimaryProven.recordMatches {tx : Transaction} {acc : Accumulators}
    (h : PrimaryProven tx acc) {found : List PrimaryViolation} (hFound : InputScoped found) :
    PrimaryProven tx (recordMatches found acc) := by
  intro primary hPrimary
  simp only [Bip110.recordMatches] at hPrimary ⊢
  split at hPrimary
  · have hMem : primary ∈ found := List.mem_of_head? hPrimary
    exact Or.inr ⟨hFound primary hMem, pushViolations_ne_nil found (Or.inr ⟨primary, hMem, rfl⟩)⟩
  · exact (h primary hPrimary).imp_right fun ⟨hScoped, hNe⟩ =>
      ⟨hScoped, pushViolations_ne_nil found (Or.inl hNe)⟩

/-- After all inputs the primary violation is among the violated rules. -/
theorem primaryProven_evaluateInputs (tx : Transaction) (prevouts : PrevoutSet) :
    PrimaryProven tx (evaluateInputs tx prevouts .mempoolPolicy) := by
  have hInitial : PrimaryProven tx (initialAccumulators tx) := by
    intro primary hPrimary
    obtain ⟨evidence, hHead, rfl⟩ := Option.map_eq_some_iff.mp hPrimary
    exact Or.inl ⟨rfl, List.ne_nil_of_mem (List.mem_of_head? hHead)⟩
  unfold evaluateInputs
  split
  · exact hInitial
  · refine List.foldlRecOn _ _ hInitial fun acc hAcc indexed _ => ?_
    obtain ⟨txin, i⟩ := indexed
    cases hGet : prevouts.get i with
    | none =>
      simp only [evaluateInputFacts, hGet]
      exact hAcc
    | some facts =>
      simp only [evaluateInputFacts, hGet]
      exact hAcc.recordMatches (inputScoped_evaluateInput _ _ _)

-- ---------------------------------------------------------------------------
-- The seven outcomes
-- ---------------------------------------------------------------------------

/-- The verdict of one rule in the evidence of the policy evaluation. -/
def policyVerdict (tx : Transaction) (prevouts : PrevoutSet) (rule : RuleId) : RuleVerdict :=
  if rule = .outputSize then outputRule tx
  else inputRule (evaluateInputs tx prevouts .mempoolPolicy) rule

/-- All seven rules, in report order. -/
def allRules : List RuleId := .outputSize :: inputScoped

/-- The outcomes, rule by rule. -/
theorem evaluateMempoolPolicy_rules (tx : Transaction) (prevouts : PrevoutSet) :
    (evaluateMempoolPolicy tx prevouts).rules =
      allRules.map fun rule => outcome rule (policyVerdict tx prevouts rule) := rfl

/-- Every verdict comes with its evidence. -/
theorem policyVerdict_proven (tx : Transaction) (prevouts : PrevoutSet) (rule : RuleId) :
    (policyVerdict tx prevouts rule).Proven := by
  unfold policyVerdict
  split
  · exact outputRule_proven tx
  · exact inputRule_proven _ rule

/-- The rule a primary violation names is violated. -/
theorem policyVerdict_primary {tx : Transaction} {prevouts : PrevoutSet}
    {primary : PrimaryViolation}
    (h : (evaluateMempoolPolicy tx prevouts).primaryViolation = some primary) :
    (policyVerdict tx prevouts primary.rule).isViolate = true := by
  unfold policyVerdict
  rcases primaryProven_evaluateInputs tx prevouts primary h with ⟨hRule, hOutputs⟩ | ⟨hScoped, hNe⟩
  · rw [if_pos hRule]
    exact (outputRule_isViolate tx).mpr hOutputs
  · have hNotOutput : primary.rule ≠ .outputSize := by
      intro hEq
      rw [hEq] at hScoped
      revert hScoped
      decide
    rw [if_neg hNotOutput]
    exact (inputRule_isViolate _ _).mpr hNe

end Crate

end MempoolAtlas.Bip110
