import MempoolAtlas.Classifiers.Lenses

/-!
# The published assessment and labels

The projection of the policy evidence in closed form: which rules an assessment
lists as violated and as unknown, and when its status is violating. And what
every lens relies on when it lists the labels it has found in their order.

## Results

* `assessment_status`, `assessment_violating` — the status of an assessment, off its rules.
* `mem_orderedLabels` — the ordered labels are those found that the lens has.
-/

namespace MempoolAtlas.Classifiers

open Model Machine Bip110

/-- The rule an outcome adds to the violated rules. -/
def violatedRule (outcome : RuleOutcome) : Option Bip110RuleId :=
  if outcome.verdict.isViolate then some (publicRuleId outcome.rule) else none

/-- The rule an outcome adds to the unknown rules. -/
def unknownRule (outcome : RuleOutcome) : Option Bip110RuleId :=
  match outcome.verdict with
  | .pass => none
  | .violate _ missing => if missing.isEmpty then none else some (publicRuleId outcome.rule)
  | .unknown _ => some (publicRuleId outcome.rule)

theorem addOutcome_eq (found : List Bip110RuleId × List Bip110RuleId) (outcome : RuleOutcome) :
    addOutcome found outcome =
      (found.1 ++ (violatedRule outcome).toList, found.2 ++ (unknownRule outcome).toList) := by
  unfold addOutcome violatedRule unknownRule
  cases outcome.verdict with
  | pass => simp [RuleVerdict.isViolate]
  | unknown missing => simp [RuleVerdict.isViolate]
  | violate evidence missing => cases missing <;> simp [RuleVerdict.isViolate]

/-- The violated and the unknown rules of some outcomes. -/
theorem foldl_addOutcome (outcomes : List RuleOutcome)
    (found : List Bip110RuleId × List Bip110RuleId) :
    outcomes.foldl addOutcome found =
      (found.1 ++ outcomes.filterMap violatedRule, found.2 ++ outcomes.filterMap unknownRule) := by
  induction outcomes generalizing found with
  | nil => simp
  | cons first rest ih =>
    rw [List.foldl_cons, ih, addOutcome_eq]
    cases hViolated : violatedRule first <;> cases hUnknown : unknownRule first <;>
      simp [hViolated, hUnknown]

@[simp] theorem assessment_violatedRules (evidence : TxEvidence) :
    (assessmentFromEvidence evidence).violatedRules = evidence.rules.filterMap violatedRule := by
  simp [assessmentFromEvidence, foldl_addOutcome]

@[simp] theorem assessment_unknownRules (evidence : TxEvidence) :
    (assessmentFromEvidence evidence).unknownRules = evidence.rules.filterMap unknownRule := by
  simp [assessmentFromEvidence, foldl_addOutcome]

/-- The status of an assessment follows its rules. -/
theorem assessment_status (evidence : TxEvidence) :
    (assessmentFromEvidence evidence).status =
      statusOf (evidence.rules.filterMap violatedRule) (evidence.rules.filterMap unknownRule) := by
  simp [assessmentFromEvidence, foldl_addOutcome]

theorem statusOf_eq_violating {violatedRules unknownRules : List Bip110RuleId} :
    statusOf violatedRules unknownRules = .violating ↔ violatedRules ≠ [] := by
  unfold statusOf
  split_ifs with hViolated hUnknown
  · simpa using hViolated
  · simpa using hViolated
  · simpa using hViolated

/-- A rule is violated just when its outcome is. -/
theorem mem_violatedRules {outcomes : List RuleOutcome} {rule : Bip110RuleId} :
    rule ∈ outcomes.filterMap violatedRule ↔
      ∃ outcome ∈ outcomes, outcome.verdict.isViolate = true ∧ publicRuleId outcome.rule = rule := by
  simp [List.mem_filterMap, violatedRule]

/-- An assessment is violating just when some outcome is. -/
theorem assessment_violating (evidence : TxEvidence) :
    (assessmentFromEvidence evidence).status = .violating ↔
      ∃ outcome ∈ evidence.rules, outcome.verdict.isViolate = true := by
  rw [assessment_status, statusOf_eq_violating]
  constructor
  · intro hNonempty
    obtain ⟨rule, hRule⟩ := List.exists_mem_of_ne_nil _ hNonempty
    obtain ⟨outcome, hMem, hViolate, -⟩ := mem_violatedRules.mp hRule
    exact ⟨outcome, hMem, hViolate⟩
  · rintro ⟨outcome, hMem, hViolate⟩
    exact List.ne_nil_of_mem (mem_violatedRules.mpr ⟨outcome, hMem, hViolate, rfl⟩)

-- ---------------------------------------------------------------------------
-- Labels in their order
-- ---------------------------------------------------------------------------

/-- The ordered labels are those found that the lens has. -/
theorem mem_orderedLabels {found : BTreeSet String} {order : List String} {label : String} :
    label ∈ orderedLabels found order ↔ label ∈ order ∧ label ∈ found := by
  simp [orderedLabels, List.mem_filter]

theorem orderedLabels_nodup {order : List String} (h : order.Nodup) (found : BTreeSet String) :
    (orderedLabels found order).Nodup :=
  h.filter _

theorem orderedLabels_ne_nil {found : BTreeSet String} {order : List String} {label : String}
    (hOrder : label ∈ order) (hFound : label ∈ found) : orderedLabels found order ≠ [] :=
  List.ne_nil_of_mem (mem_orderedLabels.mpr ⟨hOrder, hFound⟩)

/-- The primary label is the first one found, so it is among the labels. -/
theorem find_mem_orderedLabels {found : BTreeSet String} {order : List String} {label : String}
    (h : order.find? found.contains = some label) : label ∈ orderedLabels found order :=
  mem_orderedLabels.mpr ⟨List.mem_of_find?_eq_some h, by simpa using List.find?_some h⟩

theorem exists_mem_of_isEmpty_eq_false {found : BTreeSet String} (h : found.isEmpty = false) :
    ∃ label, label ∈ found := by
  have hNonempty : found.toList ≠ [] := by
    intro hNil
    rw [Std.ExtTreeSet.toList_eq_nil_iff.mp hNil] at h
    simp at h
  obtain ⟨label, hMem⟩ := List.exists_mem_of_ne_nil _ hNonempty
  exact ⟨label, Std.ExtTreeSet.mem_toList.mp hMem⟩

/-- Only labels of the order have been found. -/
def DeclaredIn (order : List String) (found : BTreeSet String) : Prop :=
  ∀ label ∈ found, label ∈ order

/-- No label is out of order before any is found. -/
theorem declaredIn_empty (order : List String) : DeclaredIn order ∅ := fun _ hMem => by
  simp at hMem

/-- One more declared label. -/
theorem DeclaredIn.insert {order : List String} {found : BTreeSet String}
    (h : DeclaredIn order found) (label : String) (hLabel : label ∈ order) :
    DeclaredIn order (found.insert label) := by
  intro other hMem
  rcases Std.ExtTreeSet.mem_insert.mp hMem with hEq | hMem
  · rw [Std.LawfulEqCmp.compare_eq_iff_eq] at hEq
    exact hEq ▸ hLabel
  · exact h other hMem

theorem DeclaredIn.ite {order : List String} (condition : Prop) [Decidable condition]
    {found found' : BTreeSet String} (h : DeclaredIn order found) (h' : DeclaredIn order found') :
    DeclaredIn order (if condition then found else found') := by
  split
  · exact h
  · exact h'

/-- A known input only adds labels. -/
theorem PropertyTally.mem_countInput [BitcoinCrate] {prevouts : PrevoutSet} {tally : PropertyTally}
    {label : String} (h : label ∈ tally.found) (indexed : TxIn × Nat) :
    label ∈ (tally.countInput prevouts indexed).found := by
  obtain ⟨input, index⟩ := indexed
  cases hGet : prevouts.get index with
  | none => simpa only [PropertyTally.countInput, hGet] using h
  | some facts =>
    simp only [PropertyTally.countInput, PropertyTally.countFamily, hGet]
    split <;> simp [h]

end MempoolAtlas.Classifiers
