import MempoolAtlas.Bip110.Outcomes

/-!
# What each input contributes

The declarative side of `evaluate_applied`. A `Reading` says what one input is
to an evaluation: without facts, exempt, counted with its matches, or matched
but unproven for want of a creation height. Evidence, missing facts and the
primary violation of a transaction are read off the list of its readings, in
either mode, and the accumulating loop is shown to compute just that.

## Results

* `evaluateApplied_eq` — `evaluate_applied` in either mode, off the readings.
* `mempool_policy_specification` — the policy evaluation in closed form.
-/

namespace MempoolAtlas.Bip110

-- ---------------------------------------------------------------------------
-- Readings
-- ---------------------------------------------------------------------------

/-- What reading one input adds. -/
inductive Reading where
  /-- No prevout facts. -/
  | unseen (input : Nat)
  /-- A grandfathered prevout. -/
  | exempt
  | counted (found : List PrimaryViolation)
  /-- The script is known, the creation height is not. -/
  | unproven (input : Nat) (found : List PrimaryViolation)

namespace Reading

/-- The evidence of one rule among matches. -/
def evidenceOf (rule : RuleId) (found : List PrimaryViolation) : List Violation :=
  (found.filter fun m => m.rule = rule).map PrimaryViolation.evidence

/-- The violations a reading adds to a rule. -/
def evidence (rule : RuleId) : Reading → List Violation
  | counted found => evidenceOf rule found
  | _ => []

/-- The facts a reading leaves open for a rule. -/
def missing (rule : RuleId) : Reading → List Missing
  | unseen input => [.scriptPubKey input]
  | unproven input found => if found.any fun m => m.rule == rule then [.creationHeight input] else []
  | _ => []

/-- What an input decides about the primary violation: its first match, or that
none can be named; `none` when the next input decides. -/
def decides : Reading → Option (Option PrimaryViolation)
  | unseen _ => some none
  | exempt => none
  | counted found => found.head?.map some
  | unproven _ found => if found.isEmpty then none else some none

/-- One turn of the loop, by reading. -/
def apply (acc : Accumulators) : Reading → Accumulators
  | unseen input =>
    { acc with
      unknowns := pushUnknownAll acc.unknowns (.scriptPubKey input)
      primaryBlocked := acc.primaryBlocked || acc.primaryViolation.isNone }
  | exempt => acc
  | counted found => recordMatches found acc
  | unproven input found => recordHeightUnknown input found acc

end Reading

-- ---------------------------------------------------------------------------
-- The loop over readings
-- ---------------------------------------------------------------------------

theorem foldl_pushViolation (found : List PrimaryViolation) (violations : RuleId → List Violation)
    (rule : RuleId) : found.foldl pushViolation violations rule =
      violations rule ++ Reading.evidenceOf rule found := by
  induction found generalizing violations with
  | nil => simp [Reading.evidenceOf]
  | cons first rest ih =>
    rw [List.foldl_cons, ih]
    unfold pushViolation Reading.evidenceOf
    by_cases hRule : first.rule = rule
    · subst hRule
      rw [Function.update_self, List.filter_cons_of_pos (by simp), List.map_cons,
        List.append_assoc]
      rfl
    · rw [Function.update_of_ne (Ne.symm hRule), List.filter_cons_of_neg (by simp [hRule])]

/-- What the rest of the loop may still name, given what it has named so far. -/
def primaryAfter (acc : Accumulators) (readings : List Reading) : Option PrimaryViolation :=
  if acc.primaryViolation.isNone && !acc.primaryBlocked then
    (readings.findSome? Reading.decides).join
  else acc.primaryViolation

/-- The first deciding reading decides. -/
theorem primaryAfter_cons (acc : Accumulators) (first : Reading) (rest : List Reading) :
    primaryAfter (first.apply acc) rest = primaryAfter acc (first :: rest) := by
  unfold primaryAfter
  cases hPrimary : acc.primaryViolation with
  | some primary =>
    -- a primary violation, once named, stays
    cases first <;> simp [Reading.apply, recordMatches, recordHeightUnknown, hPrimary]
  | none =>
    cases hBlocked : acc.primaryBlocked with
    | true =>
      cases first <;> simp [Reading.apply, recordMatches, recordHeightUnknown, hPrimary, hBlocked]
    | false =>
      rw [List.findSome?_cons]
      cases first with
      | unseen input => simp [Reading.apply, Reading.decides, hPrimary, hBlocked]
      | exempt => simp [Reading.apply, Reading.decides, hPrimary, hBlocked]
      | counted found =>
        cases found <;> simp [Reading.apply, Reading.decides, recordMatches, hPrimary, hBlocked]
      | unproven input found =>
        cases found <;>
          simp [Reading.apply, Reading.decides, recordHeightUnknown, hPrimary, hBlocked]

/-- A reading adds its violations. -/
theorem apply_violations (acc : Accumulators) (reading : Reading) (rule : RuleId) :
    (reading.apply acc).violations rule = acc.violations rule ++ reading.evidence rule := by
  cases reading with
  | counted found => exact foldl_pushViolation found acc.violations rule
  | _ => exact (List.append_nil _).symm

/-- A reading adds its open facts. -/
theorem apply_unknowns (acc : Accumulators) (reading : Reading) (rule : RuleId) :
    (reading.apply acc).unknowns rule = acc.unknowns rule ++ reading.missing rule := by
  cases reading with
  | unseen input => rfl
  | exempt => exact (List.append_nil _).symm
  | counted found => exact (List.append_nil _).symm
  | unproven input found =>
    simp only [Reading.apply, recordHeightUnknown, Reading.missing]
    split
    · rfl
    · exact (List.append_nil _).symm

/-- **The loop in closed form.** -/
theorem foldl_apply (readings : List Reading) (acc : Accumulators) :
    (∀ rule, (readings.foldl Reading.apply acc).violations rule =
      acc.violations rule ++ readings.flatMap (Reading.evidence rule)) ∧
    (∀ rule, (readings.foldl Reading.apply acc).unknowns rule =
      acc.unknowns rule ++ readings.flatMap (Reading.missing rule)) ∧
    (readings.foldl Reading.apply acc).primaryViolation = primaryAfter acc readings := by
  induction readings generalizing acc with
  | nil =>
    refine ⟨fun _ => by simp, fun _ => by simp, ?_⟩
    unfold primaryAfter
    cases hPrimary : acc.primaryViolation <;> simp [hPrimary]
  | cons first rest ih =>
    obtain ⟨hViolations, hUnknowns, hPrimary⟩ := ih (first.apply acc)
    refine ⟨fun rule => ?_, fun rule => ?_, ?_⟩
    · rw [List.foldl_cons, hViolations, apply_violations, List.flatMap_cons, List.append_assoc]
    · rw [List.foldl_cons, hUnknowns, apply_unknowns, List.flatMap_cons, List.append_assoc]
    · rw [List.foldl_cons, hPrimary, primaryAfter_cons]

-- ---------------------------------------------------------------------------
-- The readings of a transaction
-- ---------------------------------------------------------------------------

section Crate

variable [BitcoinCrate]

/-- Whether the consensus evaluation skips an input for its prevout's height. -/
def isExempt (ctx : EvaluationContext) (facts : PrevoutFacts) : Bool :=
  match facts.creationHeight with
  | some height => (ctx.isGrandfathered height).getD false
  | none => false

/-- The reading of an input. -/
def reading (prevouts : PrevoutSet) (applicability : Applicability) (indexed : TxIn × Nat) :
    Reading :=
  match prevouts.get indexed.2 with
  | none => .unseen indexed.2
  | some facts =>
    let found := evaluateInput indexed.2 indexed.1 facts.scriptPubkey
    match applicability with
    | .mempoolPolicy => .counted found
    | .consensus ctx =>
      if isExempt ctx facts then .exempt
      else if facts.creationHeight.isSome then .counted found
      else .unproven indexed.2 found

/-- The readings of all inputs, in order. -/
def readings (tx : Transaction) (prevouts : PrevoutSet) (applicability : Applicability) :
    List Reading :=
  if tx.isCoinbase then [] else tx.input.zipIdx.map (reading prevouts applicability)

theorem evaluateInputFacts_eq (prevouts : PrevoutSet) (applicability : Applicability)
    (acc : Accumulators) (indexed : TxIn × Nat) :
    evaluateInputFacts prevouts applicability acc indexed =
      (reading prevouts applicability indexed).apply acc := by
  obtain ⟨txin, i⟩ := indexed
  unfold reading
  cases hGet : prevouts.get i with
  | none => simp only [evaluateInputFacts, hGet, Reading.apply]
  | some facts =>
    cases applicability with
    | mempoolPolicy => simp only [evaluateInputFacts, hGet, Reading.apply]
    | consensus ctx =>
      cases hHeight : facts.creationHeight with
      | none =>
        simp [evaluateInputFacts, hGet, hHeight, isExempt, Reading.apply]
      | some height =>
        cases hExempt : (ctx.isGrandfathered height).getD false <;>
          simp [evaluateInputFacts, hGet, hHeight, isExempt, hExempt, Reading.apply]

/-- **The loop over the inputs** applies their readings in order. -/
theorem evaluateInputs_eq (tx : Transaction) (prevouts : PrevoutSet)
    (applicability : Applicability) : evaluateInputs tx prevouts applicability =
      (readings tx prevouts applicability).foldl Reading.apply (initialAccumulators tx) := by
  unfold evaluateInputs readings
  split
  · rfl
  · rw [List.foldl_map]
    congr 1
    funext acc indexed
    exact evaluateInputFacts_eq prevouts applicability acc indexed

/-- The verdict that evidence and missing facts amount to. -/
def verdictOf (evidence : List Violation) (missing : List Missing) : RuleVerdict :=
  if evidence ≠ [] then .violate evidence missing
  else if missing ≠ [] then .unknown missing
  else .pass

/-- The verdict of one rule, read off the outputs or the readings. -/
def specifiedVerdict (tx : Transaction) (readings : List Reading) (rule : RuleId) : RuleVerdict :=
  if rule = .outputSize then verdictOf (outputSizeViolations tx) []
  else verdictOf (readings.flatMap (Reading.evidence rule))
    (readings.flatMap (Reading.missing rule))

/-- The primary violation, read off the outputs or the readings. -/
def specifiedPrimary (tx : Transaction) (readings : List Reading) : Option PrimaryViolation :=
  ((outputSizeViolations tx).head?.map (ruleMatch .outputSize)).or
    (readings.findSome? Reading.decides).join

omit [BitcoinCrate] in
/-- The verdict of a rule over the inputs. -/
theorem inputRule_eq (acc : Accumulators) (rule : RuleId) :
    inputRule acc rule = verdictOf (acc.violations rule) (acc.unknowns rule) := by
  unfold inputRule verdictOf
  simp only [Bool.not_eq_true', List.isEmpty_eq_false_iff]

omit [BitcoinCrate] in
/-- The verdict of the output rule. -/
theorem outputRule_eq (tx : Transaction) :
    outputRule tx = verdictOf (outputSizeViolations tx) [] := by
  unfold outputRule verdictOf
  cases outputSizeViolations tx <;> rfl

/-- **`evaluate_applied` in either mode**, off the readings. -/
theorem evaluateApplied_eq (tx : Transaction) (prevouts : PrevoutSet)
    (applicability : Applicability) :
    (evaluateApplied tx prevouts applicability).rules =
      allRules.map (fun rule =>
        outcome rule (specifiedVerdict tx (readings tx prevouts applicability) rule)) ∧
    (evaluateApplied tx prevouts applicability).primaryViolation =
      specifiedPrimary tx (readings tx prevouts applicability) := by
  obtain ⟨hViolations, hUnknowns, hPrimary⟩ :=
    foldl_apply (readings tx prevouts applicability) (initialAccumulators tx)
  rw [← evaluateInputs_eq] at hViolations hUnknowns hPrimary
  constructor
  · have hOutput : specifiedVerdict tx (readings tx prevouts applicability) .outputSize =
        outputRule tx := by
      rw [specifiedVerdict, if_pos rfl, outputRule_eq]
    have hInputs : ∀ rule ∈ inputScoped,
        inputRule (evaluateInputs tx prevouts applicability) rule =
          specifiedVerdict tx (readings tx prevouts applicability) rule := by
      intro rule hMem
      have hNe : rule ≠ .outputSize := by
        rintro rfl
        revert hMem
        decide
      rw [specifiedVerdict, if_neg hNe, inputRule_eq, hViolations, hUnknowns]
      rfl
    show outcome .outputSize (outputRule tx) :: inputScoped.map _ = _
    rw [allRules, List.map_cons, hOutput]
    congr 1
    exact List.map_congr_left fun rule hMem => by rw [hInputs rule hMem]
  · show (evaluateInputs tx prevouts applicability).primaryViolation = _
    rw [hPrimary]
    unfold primaryAfter specifiedPrimary initialAccumulators
    cases (outputSizeViolations tx).head? <;> simp

-- ---------------------------------------------------------------------------
-- Mempool policy
-- ---------------------------------------------------------------------------

omit [BitcoinCrate] in
/-- The size an output script may have: its first byte decides. -/
def outputLimit (script : Script) : Nat := if script.head? = some 0x6a then 83 else 34

omit [BitcoinCrate] in
/-- The outputs over their limit, in `vout` order. -/
def oversizedOutputs (tx : Transaction) : List Violation :=
  (tx.output.zipIdx.filter fun (txout, _) =>
      txout.scriptPubkey.length > outputLimit txout.scriptPubkey).map fun (txout, vout) =>
    .outputScriptTooLarge vout txout.scriptPubkey.length (txout.scriptPubkey.head? = some 0x6a)
      (outputLimit txout.scriptPubkey)

/-- The matches of one rule over the inputs with facts, in input order. -/
def policyEvidence (tx : Transaction) (prevouts : PrevoutSet) (rule : RuleId) : List Violation :=
  tx.input.zipIdx.flatMap fun (txin, i) =>
    match prevouts.get i with
    | none => []
    | some facts => Reading.evidenceOf rule (evaluateInput i txin facts.scriptPubkey)

omit [BitcoinCrate] in
/-- The inputs without facts, in input order. -/
def policyMissing (tx : Transaction) (prevouts : PrevoutSet) : List Missing :=
  (tx.input.zipIdx.filter fun (_, i) => (prevouts.get i).isNone).map fun (_, i) => .scriptPubKey i

/-- The first input that lacks facts or has a match, and its first match. -/
def decisiveMatch (tx : Transaction) (prevouts : PrevoutSet) : Option PrimaryViolation :=
  (tx.input.zipIdx.find? fun (txin, i) => (prevouts.get i).all fun facts =>
      evaluateInput i txin facts.scriptPubkey ≠ []).bind fun (txin, i) =>
    (prevouts.get i).bind fun facts => (evaluateInput i txin facts.scriptPubkey).head?

omit [BitcoinCrate] in
theorem outputSizeViolations_eq (tx : Transaction) :
    outputSizeViolations tx = oversizedOutputs tx := by
  unfold outputSizeViolations oversizedOutputs
  rw [← List.filterMap_eq_map, List.filterMap_filter]
  apply List.filterMap_congr
  rintro ⟨⟨value, script⟩, vout⟩ -
  cases script with
  | nil => simp [outputLimit]
  | cons first rest =>
    by_cases hReturn : first = 0x6a
    · simp [outputLimit, opReturn, maxOutputDataSize, hReturn]
    · have hBeq : (first == 0x6a) = false := by simpa using hReturn
      simp [outputLimit, opReturn, maxOutputScriptSize, hReturn, hBeq]

/-- The violations of a rule are those of the policy. -/
theorem readings_evidence {tx : Transaction} (h : tx.isCoinbase = false) (prevouts : PrevoutSet)
    (rule : RuleId) : (readings tx prevouts .mempoolPolicy).flatMap (Reading.evidence rule) =
      policyEvidence tx prevouts rule := by
  unfold readings policyEvidence
  rw [if_neg (by simp [h]), List.flatMap_map]
  congr 1
  funext ⟨txin, i⟩
  cases hGet : prevouts.get i <;> simp [reading, hGet, Reading.evidence]

/-- The open facts of a rule are those of the policy. -/
theorem readings_missing {tx : Transaction} (h : tx.isCoinbase = false) (prevouts : PrevoutSet)
    (rule : RuleId) : (readings tx prevouts .mempoolPolicy).flatMap (Reading.missing rule) =
      policyMissing tx prevouts := by
  unfold readings policyMissing
  rw [if_neg (by simp [h]), List.flatMap_map]
  induction tx.input.zipIdx with
  | nil => rfl
  | cons indexed rest ih =>
    rw [List.flatMap_cons, ih, List.filter_cons]
    cases hGet : prevouts.get indexed.2 <;> simp [reading, hGet, Reading.missing]

/-- The first deciding reading is the policy's decisive match. -/
theorem readings_decides {tx : Transaction} (h : tx.isCoinbase = false) (prevouts : PrevoutSet) :
    ((readings tx prevouts .mempoolPolicy).findSome? Reading.decides).join =
      decisiveMatch tx prevouts := by
  unfold readings decisiveMatch
  rw [if_neg (by simp [h]), List.findSome?_map]
  induction tx.input.zipIdx with
  | nil => rfl
  | cons indexed rest ih =>
    rw [List.findSome?_cons, List.find?_cons]
    cases hGet : prevouts.get indexed.2 with
    | none => simp [reading, hGet, Reading.decides]
    | some facts =>
      cases hFound : evaluateInput indexed.2 indexed.1 facts.scriptPubkey with
      | nil => simpa [reading, hGet, hFound, Reading.decides] using ih
      | cons first later => simp [reading, hGet, hFound, Reading.decides]

/-- **The policy evaluation in closed form.** Rule 1 is decided by the outputs
alone; every other rule of a transaction that is not a coinbase by the matches
of its known inputs and by the inputs without facts. -/
theorem mempool_policy_specification (tx : Transaction) (prevouts : PrevoutSet) :
    (evaluateMempoolPolicy tx prevouts).rules =
      [(.outputSize, 1), (.elementSize, 2), (.undefinedVersion, 3), (.taprootAnnex, 4),
        (.controlBlockSize, 5), (.opSuccess, 6), (.tapscriptOpIf, 7)].map (fun (rule, number) =>
          { rule, number
            verdict :=
              if rule = .outputSize then
                if oversizedOutputs tx = [] then .pass else .violate (oversizedOutputs tx) []
              else if tx.isCoinbase = true then .pass
              else if policyEvidence tx prevouts rule ≠ [] then
                .violate (policyEvidence tx prevouts rule) (policyMissing tx prevouts)
              else if policyMissing tx prevouts ≠ [] then .unknown (policyMissing tx prevouts)
              else .pass }) ∧
    (evaluateMempoolPolicy tx prevouts).primaryViolation =
      match oversizedOutputs tx with
      | evidence :: _ => some { rule := .outputSize, evidence }
      | [] => if tx.isCoinbase = true then none else decisiveMatch tx prevouts := by
  obtain ⟨hRules, hPrimary⟩ := evaluateApplied_eq tx prevouts .mempoolPolicy
  have hOutput : specifiedVerdict tx (readings tx prevouts .mempoolPolicy) .outputSize =
      if oversizedOutputs tx = [] then .pass else .violate (oversizedOutputs tx) [] := by
    rw [specifiedVerdict, if_pos rfl, outputSizeViolations_eq, verdictOf]
    cases oversizedOutputs tx <;> rfl
  have hInput : ∀ rule, rule ≠ .outputSize →
      specifiedVerdict tx (readings tx prevouts .mempoolPolicy) rule =
        if tx.isCoinbase = true then .pass
        else verdictOf (policyEvidence tx prevouts rule) (policyMissing tx prevouts) := by
    intro rule hNe
    rw [specifiedVerdict, if_neg hNe]
    cases hCoinbase : tx.isCoinbase with
    | true => simp [readings, hCoinbase, verdictOf]
    | false => rw [readings_evidence hCoinbase, readings_missing hCoinbase, if_neg (by simp)]
  constructor
  · rw [evaluateMempoolPolicy, hRules]
    simp only [allRules, inputScoped, List.map_cons, List.map_nil, hOutput,
      hInput _ (by decide : RuleId.elementSize ≠ .outputSize),
      hInput _ (by decide : RuleId.undefinedVersion ≠ .outputSize),
      hInput _ (by decide : RuleId.taprootAnnex ≠ .outputSize),
      hInput _ (by decide : RuleId.controlBlockSize ≠ .outputSize),
      hInput _ (by decide : RuleId.opSuccess ≠ .outputSize),
      hInput _ (by decide : RuleId.tapscriptOpIf ≠ .outputSize)]
    rfl
  · rw [evaluateMempoolPolicy, hPrimary, specifiedPrimary, outputSizeViolations_eq]
    cases oversizedOutputs tx with
    | cons evidence rest => rfl
    | nil =>
      cases hCoinbase : tx.isCoinbase with
      | true => simp [readings, hCoinbase]
      | false => simpa using readings_decides hCoinbase prevouts

end Crate

end MempoolAtlas.Bip110
