import MempoolAtlas.Bip110.InputRules
import MempoolAtlas.Bip110.Modes
import MempoolAtlas.Classifiers.Refinement
import MempoolAtlas.Classification.PendingSlice
import MempoolAtlas.Bitcoin.Reference

/-!
# Independent readings of the same bytes

The annex, the missing scripts and the inferred Tapscript are each read twice or
three times: by the property lens, by the rules, by the shape lens, by the data
protocols and by `classify_ready`. They agree, given that the `bitcoin` crate's
two templates are the byte patterns it documents.

## Results

* `propertyTally_spec` — what the property lens counts.
* `inferredTapscript_eq` — one inferred Tapscript for the protocols and the rules.
* `independent_readings_agree` — the readings of annexes, missing scripts and Tapscripts agree.
* `templateLaws_reference` — the reference crate's templates obey the laws.
-/

namespace MempoolAtlas.Classification

open BitcoinCrate Model Machine Classifiers Bip110

/-- The byte patterns of two script templates of the `bitcoin` crate. -/
structure TemplateLaws [BitcoinCrate] : Prop where
  isP2tr : ∀ script : Script, isP2tr script = true ↔
    ∃ program : List UInt8, program.length = 32 ∧ script = 0x51 :: 0x20 :: program
  isP2sh : ∀ script : Script, isP2sh script = true → script.length = 23

-- ---------------------------------------------------------------------------
-- The annex rule of one input
-- ---------------------------------------------------------------------------

section Crate

variable [BitcoinCrate] (input : Nat)

/-- The annex matches among `found`. -/
abbrev annexEvidence (found : List PrimaryViolation) : List Violation :=
  Reading.evidenceOf .taprootAnnex found

omit [BitcoinCrate] in
theorem annexEvidence_append (first second : List PrimaryViolation) :
    annexEvidence (first ++ second) = annexEvidence first ++ annexEvidence second := by
  simp [Reading.evidenceOf]

omit [BitcoinCrate] in
theorem annexEvidence_eq_nil {found : List PrimaryViolation}
    (h : ∀ m ∈ found, m.rule ≠ .taprootAnnex) : annexEvidence found = [] := by
  rw [annexEvidence, Reading.evidenceOf, List.map_eq_nil_iff, List.filter_eq_nil_iff]
  simpa using h

omit [BitcoinCrate] in
theorem annexEvidence_map {α : Type} {f : α → PrimaryViolation} (items : List α)
    (h : ∀ a, (f a).rule ≠ .taprootAnnex) : annexEvidence (items.map f) = [] := by
  refine annexEvidence_eq_nil fun m hMem => ?_
  obtain ⟨a, -, rfl⟩ := List.mem_map.mp hMem
  exact h a

omit [BitcoinCrate] in
theorem annexEvidence_items (items : List Script) :
    annexEvidence (witnessItemViolations input items) = [] :=
  annexEvidence_map _ fun _ => RuleId.noConfusion

theorem annexEvidence_pushes (kind : ScriptKind) (script : Script) :
    annexEvidence (pushViolations input kind script) = [] :=
  annexEvidence_map _ fun _ => RuleId.noConfusion

/-- A Tapscript leaf is no evidence of an annex. -/
theorem annexEvidence_tapscript (sp : TaprootScriptPath) :
    annexEvidence (evaluateTapscript input sp) = [] := by
  refine annexEvidence_eq_nil fun m hMem hRule => ?_
  unfold evaluateTapscript at hMem
  rcases List.mem_append.mp hMem with hMem | hMem
  · rcases List.mem_append.mp hMem with hMem | hMem
    · obtain ⟨_, -, rfl⟩ := List.mem_map.mp hMem
      cases hRule
    · obtain ⟨_, -, rfl⟩ := List.mem_map.mp hMem
      cases hRule
  · obtain ⟨⟨position, found⟩, hSorted, rfl⟩ := List.mem_map.mp hMem
    rw [List.mem_insertionSort, List.mem_append] at hSorted
    rcases hSorted with hPush | hOpIf
    · obtain ⟨push, hFrom, hEq⟩ := List.mem_map.mp hPush
      obtain ⟨-, rfl⟩ := Prod.mk.inj hEq
      obtain ⟨_, -, rfl⟩ := List.mem_map.mp hFrom
      cases hRule
    · split at hOpIf
      · obtain ⟨opIf, -, hEq⟩ := List.mem_map.mp hOpIf
        obtain ⟨-, rfl⟩ := Prod.mk.inj hEq
        cases hRule
      · cases hOpIf

omit [BitcoinCrate] in
theorem annexEvidence_annex (annex : Option Script) :
    (annexEvidence (annex.toList.map (annexMatch input))).length = annex.toList.length := by
  cases annex <;> rfl

/-- A script path is evidence of its annex, once. -/
theorem annexEvidence_scriptPath (sp : TaprootScriptPath) :
    (annexEvidence (evaluateTaprootScriptPath input sp)).length = sp.annex.toList.length := by
  have hAnnex := annexEvidence_annex input sp.annex
  unfold evaluateTaprootScriptPath
  dsimp only
  split
  · exact hAnnex
  · have hControl : annexEvidence (if sp.control.length > taprootControlMaxSizeReduced then
        [ruleMatch .controlBlockSize (.controlBlockTooLarge input sp.control.length
          (some ((sp.control.length - taprootControlBaseSize) / taprootControlNodeSize))
          taprootControlMaxSizeReduced)]
        else []) = [] := by
      split <;> rfl
    split
    · rw [annexEvidence_append, hControl, List.append_nil]
      exact hAnnex
    · split
      · rw [annexEvidence_append, annexEvidence_append, hControl, List.append_nil]
        rw [show annexEvidence [ruleMatch .undefinedVersion _] = [] from rfl, List.append_nil]
        exact hAnnex
      · rw [annexEvidence_append, annexEvidence_append, hControl, annexEvidence_tapscript,
          List.append_nil, List.append_nil]
        exact hAnnex

/-- Taproot reports its annex exactly when the property lens sees a candidate. -/
theorem annexEvidence_taproot (items : List Script) :
    (annexEvidence (evaluateTaproot input items)).length =
      if items.length ≥ 2 ∧ items.getLast?.any (fun last => last.head? == some 0x50) then 1
      else 0 := by
  have hSplit : (splitAnnex items).2.toList.length =
      if items.length ≥ 2 ∧ items.getLast?.any (fun last => last.head? == some 0x50) then 1
      else 0 := by
    unfold splitAnnex
    cases hLast : items.getLast? with
    | none => simp
    | some last =>
      by_cases hTwo : items.length ≥ 2 <;> by_cases hTag : last.head? = some 0x50 <;>
        simp [hTwo, hTag, annexTag]
  rw [← hSplit]
  unfold evaluateTaproot decomposeTaproot
  by_cases hEmpty : items.isEmpty = true
  · rw [List.isEmpty_iff.mp hEmpty]
    rfl
  · rw [if_neg hEmpty]
    obtain ⟨stack, annex⟩ := splitAnnex items
    dsimp only
    cases stack.reverse with
    | nil => exact annexEvidence_annex input annex
    | cons control rest =>
      cases rest with
      | nil => exact annexEvidence_annex input annex
      | cons script args => exact annexEvidence_scriptPath input _

/-- A witness spend is evidence of an annex when it is a Taproot spend with one. -/
theorem annexEvidence_witnessSpend (program : List UInt8) (version : UInt8) (items : List Script)
    (isP2sh : Bool) :
    annexEvidence (evaluateWitnessSpend input program version items isP2sh) =
      if version = 1 ∧ program.length = 32 ∧ isP2sh = false then
        annexEvidence (evaluateTaproot input items)
      else [] := by
  unfold evaluateWitnessSpend evaluateP2wsh
  by_cases hZero : version = 0
  · subst hZero
    have hNot : ¬ ((0 : UInt8) = 1 ∧ program.length = 32 ∧ isP2sh = false) := fun h =>
      absurd h.1 (by decide)
    rw [if_neg hNot, if_pos (by decide)]
    split
    · cases items.getLast? with
      | none => rfl
      | some script =>
        dsimp only
        rw [annexEvidence_append, annexEvidence_items, annexEvidence_pushes]
        rfl
    · split
      · exact annexEvidence_items input items
      · rfl
  · rw [if_neg (by simpa using hZero)]
    by_cases hTaproot : version = 1 ∧ program.length = 32 ∧ isP2sh = false
    · obtain ⟨rfl, hLen, rfl⟩ := hTaproot
      rw [if_pos (by simp [hLen]), if_pos ⟨rfl, hLen, rfl⟩]
    · rw [if_neg hTaproot, if_neg]
      · split
        · split <;> rfl
        · rfl
      · intro h
        simp only [Bool.and_eq_true, beq_iff_eq, Bool.not_eq_true'] at h
        exact hTaproot ⟨h.1.1, h.1.2, h.2⟩

/-- A P2SH spend is no evidence of an annex. -/
theorem annexEvidence_p2sh (txin : TxIn) (items : List Script) :
    annexEvidence (evaluateP2shSpend input txin items) = [] := by
  have hItems : ∀ instructions, annexEvidence (scriptSigItemMatches input instructions) = [] := by
    intro instructions
    refine annexEvidence_eq_nil fun m hMem hRule => ?_
    obtain ⟨⟨position, instruction⟩, -, hFound⟩ := List.mem_filterMap.mp hMem
    cases instruction with
    | op opcode => cases hFound
    | pushBytes bytes =>
      simp only [Option.ite_none_right_eq_some, Option.some.injEq] at hFound
      obtain ⟨-, rfl⟩ := hFound
      cases hRule
  unfold evaluateP2shSpend
  split
  · rfl
  · split
    · rfl
    · exact hItems _
    · dsimp only
      rw [annexEvidence_append, annexEvidence_append, hItems, annexEvidence_pushes]
      split
      · split
        · rw [annexEvidence_witnessSpend, if_neg (by simp)]
          rfl
        · rfl
      · rfl

omit [BitcoinCrate] in
theorem isWitnessProgram_p2tr {program : List UInt8} (hLen : program.length = 32) :
    IsWitnessProgram (0x51 :: 0x20 :: program) 1 program := by
  have hProgram : IsWitnessProgram (_ :: UInt8.ofNat program.length :: program) 1 program :=
    IsWitnessProgram.mk (by decide) (by omega) (by omega)
  rw [hLen] at hProgram
  exact hProgram

/-- A P2TR script is the version 1 program of 32 bytes. -/
theorem isP2tr_iff (hTemplates : TemplateLaws) {spk : Script} {wp : WitnessProgram}
    (hParse : parseWitnessProgram spk = some wp) :
    isP2tr spk = true ↔ wp.version = 1 ∧ wp.program.length = 32 := by
  rw [hTemplates.isP2tr spk]
  constructor
  · rintro ⟨program, hLen, rfl⟩
    rw [parseWitnessProgram_eq_some.mpr (isWitnessProgram_p2tr hLen)] at hParse
    obtain rfl := Option.some.inj hParse
    exact ⟨rfl, hLen⟩
  · rintro ⟨hOne, hLen⟩
    obtain ⟨version, program⟩ := wp
    obtain rfl : version = 1 := hOne
    cases parseWitnessProgram_eq_some.mp hParse with
    | mk =>
      refine ⟨program, hLen, ?_⟩
      rw [hLen]
      rfl

/-- What is no witness program is no Taproot output. -/
theorem isP2tr_eq_false (hTemplates : TemplateLaws) {spk : Script}
    (hParse : parseWitnessProgram spk = none) : isP2tr spk = false := by
  rw [Bool.eq_false_iff]
  intro hP2tr
  obtain ⟨program, hLen, rfl⟩ := (hTemplates.isP2tr spk).mp hP2tr
  exact parseWitnessProgram_eq_none.mp hParse 1 program (isWitnessProgram_p2tr hLen)

/-- **Rule 4 of one input** is the annex candidate of the property lens. -/
theorem annexEvidence_input (hTemplates : TemplateLaws) (txin : TxIn) (spk : Script) :
    (annexEvidence (evaluateInput input txin spk)).length =
      if isP2tr spk ∧ hasAnnexCandidate txin then 1 else 0 := by
  have hCandidate : hasAnnexCandidate txin = true ↔ txin.witness.length ≥ 2 ∧
      txin.witness.getLast?.any (fun last => last.head? == some 0x50) = true := by
    unfold hasAnnexCandidate
    cases txin.witness.getLast? <;> simp
  have hNotTaproot : isP2tr spk = false →
      (if isP2tr spk ∧ hasAnnexCandidate txin then 1 else 0) = 0 := fun h => by simp [h]
  unfold evaluateInput
  by_cases hP2sh : isP2sh spk = true
  · rw [if_pos hP2sh, annexEvidence_p2sh, hNotTaproot]
    · rfl
    · rw [Bool.eq_false_iff]
      intro hP2tr
      obtain ⟨program, hLen, rfl⟩ := (hTemplates.isP2tr spk).mp hP2tr
      have hShort := hTemplates.isP2sh _ hP2sh
      simp only [List.length_cons, hLen] at hShort
      omega
  · rw [if_neg hP2sh]
    cases hParse : parseWitnessProgram spk with
    | none =>
      dsimp only
      rw [evaluateLegacySpend, annexEvidence_append, annexEvidence_pushes, annexEvidence_pushes,
        hNotTaproot (isP2tr_eq_false hTemplates hParse)]
      rfl
    | some wp =>
      have hP2tr := isP2tr_iff hTemplates hParse
      dsimp only
      rw [annexEvidence_witnessSpend]
      by_cases hTaproot : wp.version = 1 ∧ wp.program.length = 32
      · rw [if_pos ⟨hTaproot.1, hTaproot.2, rfl⟩, annexEvidence_taproot]
        simp only [hP2tr.mpr hTaproot, hCandidate, true_and]
      · rw [if_neg (fun h => hTaproot ⟨h.1, h.2.1⟩),
          hNotTaproot (Bool.eq_false_iff.mpr fun h => hTaproot (hP2tr.mp h))]
        rfl

-- ---------------------------------------------------------------------------
-- All inputs
-- ---------------------------------------------------------------------------

/-- The inputs without a spent-output script. -/
def unseenInputs (transaction : Transaction) (prevouts : PrevoutSet) : Nat :=
  transaction.input.zipIdx.countP fun indexed => (prevouts.get indexed.2).isNone

/-- Whether an input spends a Taproot output with an annex. -/
def spendsAnnex (prevouts : PrevoutSet) (indexed : TxIn × Nat) : Bool :=
  (prevouts.get indexed.2).any fun facts =>
    isP2tr facts.scriptPubkey && hasAnnexCandidate indexed.1

/-- The P2TR inputs whose witness ends in an annex. -/
def annexInputs (transaction : Transaction) (prevouts : PrevoutSet) : Nat :=
  transaction.input.zipIdx.countP (spendsAnnex prevouts)

omit [BitcoinCrate] in
/-- The policy misses a fact for each unseen input. -/
theorem length_policyMissing (transaction : Transaction) (prevouts : PrevoutSet) :
    (policyMissing transaction prevouts).length = unseenInputs transaction prevouts := by
  rw [policyMissing, List.length_map, ← List.countP_eq_length_filter]
  rfl

/-- The policy has evidence for each input that spends an annex. -/
theorem length_policyEvidence (hTemplates : TemplateLaws) (transaction : Transaction)
    (prevouts : PrevoutSet) :
    (policyEvidence transaction prevouts .taprootAnnex).length =
      annexInputs transaction prevouts := by
  unfold policyEvidence annexInputs
  induction transaction.input.zipIdx with
  | nil => rfl
  | cons indexed rest ih =>
    obtain ⟨txin, i⟩ := indexed
    rw [List.flatMap_cons, List.length_append, ih, List.countP_cons, Nat.add_comm]
    congr 1
    cases hGet : prevouts.get i with
    | none => simp [spendsAnnex, hGet]
    | some facts =>
      have hInput := annexEvidence_input i hTemplates txin facts.scriptPubkey
      simpa [spendsAnnex, hGet] using hInput

theorem scriptFamily_ne_annex (script : Script) : scriptFamily script ≠ "has_taproot_annex" := by
  unfold scriptFamily
  split_ifs <;> decide

/-- One input of the property lens: what it adds to each counter. -/
theorem countInput_spec (prevouts : PrevoutSet) (tally : PropertyTally) (indexed : TxIn × Nat) :
    (tally.countInput prevouts indexed).missingInputScripts =
        tally.missingInputScripts + (if (prevouts.get indexed.2).isNone then 1 else 0) ∧
    (tally.countInput prevouts indexed).annexInputCount =
        tally.annexInputCount + (if spendsAnnex prevouts indexed then 1 else 0) ∧
    ("has_taproot_annex" ∈ (tally.countInput prevouts indexed).found ↔
      "has_taproot_annex" ∈ tally.found ∨ spendsAnnex prevouts indexed = true) := by
  obtain ⟨txin, i⟩ := indexed
  cases hGet : prevouts.get i with
  | none => simp [PropertyTally.countInput, spendsAnnex, hGet]
  | some facts =>
    have hFamily := scriptFamily_ne_annex facts.scriptPubkey
    cases hAnnex : isP2tr facts.scriptPubkey && hasAnnexCandidate txin <;>
      simp [PropertyTally.countInput, PropertyTally.countFamily, spendsAnnex, hGet, hAnnex, hFamily]

theorem foldl_countInput (prevouts : PrevoutSet) (inputs : List (TxIn × Nat))
    (tally : PropertyTally) :
    (inputs.foldl (PropertyTally.countInput prevouts) tally).missingInputScripts =
        tally.missingInputScripts + inputs.countP (fun indexed => (prevouts.get indexed.2).isNone) ∧
    (inputs.foldl (PropertyTally.countInput prevouts) tally).annexInputCount =
        tally.annexInputCount + inputs.countP (spendsAnnex prevouts) ∧
    ("has_taproot_annex" ∈ (inputs.foldl (PropertyTally.countInput prevouts) tally).found ↔
      "has_taproot_annex" ∈ tally.found ∨ 0 < inputs.countP (spendsAnnex prevouts)) := by
  induction inputs generalizing tally with
  | nil => simp
  | cons first rest ih =>
    obtain ⟨hMissing, hAnnex, hFound⟩ := ih (tally.countInput prevouts first)
    obtain ⟨hMissing', hAnnex', hFound'⟩ := countInput_spec prevouts tally first
    rw [List.foldl_cons, List.countP_cons, List.countP_cons]
    refine ⟨?_, ?_, ?_⟩
    · rw [hMissing, hMissing']
      omega
    · rw [hAnnex, hAnnex']
      omega
    · rw [hFound, hFound']
      cases spendsAnnex prevouts first <;> simp

theorem foldl_countOutput (outputs : List TxOut) (tally : PropertyTally) :
    (outputs.foldl PropertyTally.countOutput tally).missingInputScripts =
        tally.missingInputScripts ∧
    (outputs.foldl PropertyTally.countOutput tally).annexInputCount = tally.annexInputCount ∧
    ("has_taproot_annex" ∈ (outputs.foldl PropertyTally.countOutput tally).found ↔
      "has_taproot_annex" ∈ tally.found) := by
  induction outputs generalizing tally with
  | nil => simp
  | cons first rest ih =>
    obtain ⟨hMissing, hAnnex, hFound⟩ := ih (tally.countOutput first)
    refine ⟨hMissing, hAnnex, ?_⟩
    rw [List.foldl_cons, hFound]
    simp [PropertyTally.countOutput, PropertyTally.countFamily, scriptFamily_ne_annex]

omit [BitcoinCrate] in
theorem not_mem_serializedProperties (transaction : Transaction) :
    "has_taproot_annex" ∉ serializedProperties transaction := by
  have hVersion : versionLabel transaction.version ≠ "has_taproot_annex" := by
    unfold versionLabel
    split_ifs <;> decide
  unfold serializedProperties
  dsimp only
  split_ifs <;> simp [hVersion]

/-- **The tally counts** unseen inputs and annexes. -/
theorem propertyTally_spec (transaction : Transaction) (prevouts : PrevoutSet) :
    (propertyTally transaction prevouts).missingInputScripts =
        unseenInputs transaction prevouts ∧
    (propertyTally transaction prevouts).annexInputCount = annexInputs transaction prevouts ∧
    ("has_taproot_annex" ∈ (propertyTally transaction prevouts).found ↔
      0 < annexInputs transaction prevouts) := by
  unfold propertyTally
  dsimp only
  obtain ⟨hMissing, hAnnex, hFound⟩ := foldl_countInput prevouts transaction.input.zipIdx
    (transaction.output.foldl PropertyTally.countOutput
      { found := serializedProperties transaction, familyCounts := ∅, knownInputScripts := 0
        missingInputScripts := 0, annexInputCount := 0 })
  obtain ⟨hMissing', hAnnex', hFound'⟩ := foldl_countOutput transaction.output
    { found := serializedProperties transaction, familyCounts := ∅, knownInputScripts := 0
      missingInputScripts := 0, annexInputCount := 0 }
  refine ⟨?_, ?_, ?_⟩
  · rw [hMissing, hMissing', Nat.zero_add]
    rfl
  · rw [hAnnex, hAnnex', Nat.zero_add]
    rfl
  · rw [hFound, hFound', or_iff_right (not_mem_serializedProperties transaction)]
    rfl

-- ---------------------------------------------------------------------------
-- Coverage
-- ---------------------------------------------------------------------------

section Coverage

variable {transaction : Transaction} {prevouts : PrevoutSet}

omit [BitcoinCrate] in
/-- No input is unseen just when every prevout is known. -/
theorem unseenInputs_eq_zero : unseenInputs transaction prevouts = 0 ↔
    ∀ i < transaction.input.length, (prevouts.get i).isSome = true := by
  unfold unseenInputs
  rw [List.countP_eq_zero]
  constructor
  · intro h i hBound
    have hMem : (transaction.input[i], i) ∈ transaction.input.zipIdx := by
      simp [List.mem_zipIdx_iff_getElem?]
    rw [← Option.not_isNone, Bool.not_eq_true']
    exact Bool.eq_false_iff.mpr (h _ hMem)
  · rintro h ⟨txin, i⟩ hMem
    have hBound : i < transaction.input.length := by
      rw [List.mem_zipIdx_iff_getElem?] at hMem
      exact (List.getElem?_eq_some_iff.mp hMem).1
    have hSome := h i hBound
    rwa [← Option.not_isNone, Bool.not_eq_true', ← Bool.not_eq_true] at hSome

omit [BitcoinCrate] in
theorem allInputScriptsKnown_iff (hLen : prevouts.len = transaction.input.length) :
    allInputScriptsKnown transaction prevouts = true ↔ unseenInputs transaction prevouts = 0 := by
  rw [unseenInputs_eq_zero, allInputScriptsKnown, hLen]
  simp

omit [BitcoinCrate] in
theorem any_isNone_iff (hLen : prevouts.len = transaction.input.length) :
    prevouts.facts.any Option.isNone = true ↔ unseenInputs transaction prevouts ≠ 0 := by
  rw [Ne, unseenInputs_eq_zero, ← hLen, List.any_eq_true]
  constructor
  · rintro ⟨fact, hMem, hNone⟩ hAll
    obtain ⟨i, hBound, rfl⟩ := List.getElem_of_mem hMem
    have hSome := hAll i hBound
    rw [PrevoutSet.get, List.getElem?_eq_getElem hBound, Option.join_some,
      ← Option.not_isNone, hNone] at hSome
    cases hSome
  · intro hSome
    simp only [not_forall] at hSome
    obtain ⟨i, hBound, hUnseen⟩ := hSome
    refine ⟨_, List.getElem_mem hBound, ?_⟩
    rwa [PrevoutSet.get, List.getElem?_eq_getElem hBound, Option.join_some,
      Option.not_isSome_iff_eq_none, ← Option.isNone_iff_eq_none] at hUnseen

omit [BitcoinCrate] in
theorem scriptCoverage_state (allKnown : Bool) :
    (scriptCoverage allKnown).1 = .partialResult ↔ allKnown = false := by
  cases allKnown <;> simp [scriptCoverage]

/-- `transaction_properties` is partial just when an input is unseen. -/
theorem transactionProperties_incomplete :
    (transactionProperties transaction prevouts).state = .partialResult ↔
      unseenInputs transaction prevouts ≠ 0 := by
  have hMissing := (propertyTally_spec transaction prevouts).1
  show (scriptCoverage ((propertyTally transaction prevouts).missingInputScripts == 0)).1 = _ ↔ _
  rw [scriptCoverage_state, hMissing]
  simp

omit [BitcoinCrate] in
/-- `transaction_shape` is partial just when an input is unseen. -/
theorem transactionShape_incomplete (hLen : prevouts.len = transaction.input.length)
    (data : ClassificationResult) :
    (transactionShape transaction prevouts data).state = .partialResult ↔
      unseenInputs transaction prevouts ≠ 0 := by
  show (scriptCoverage (allInputScriptsKnown transaction prevouts)).1 = _ ↔ _
  rw [scriptCoverage_state, Ne, ← allInputScriptsKnown_iff hLen, Bool.not_eq_true]

/-- The verdict of a rule over the inputs. -/
theorem policy_verdict (hCoinbase : transaction.isCoinbase = false) {found : RuleOutcome}
    (hMem : found ∈ (evaluateMempoolPolicy transaction prevouts).rules) :
    found.verdict = if found.rule = .outputSize then verdictOf (outputSizeViolations transaction) []
      else verdictOf (policyEvidence transaction prevouts found.rule)
        (policyMissing transaction prevouts) := by
  rw [evaluateMempoolPolicy, (evaluateApplied_eq transaction prevouts .mempoolPolicy).1] at hMem
  obtain ⟨rule, -, rfl⟩ := List.mem_map.mp hMem
  show specifiedVerdict transaction _ rule = _
  rw [specifiedVerdict, readings_evidence hCoinbase, readings_missing hCoinbase]
  rfl

omit [BitcoinCrate] in
@[simp] theorem verdictOf_missing (evidence : List Violation) (missing : List Missing) :
    (verdictOf evidence missing).missing = missing := by
  unfold verdictOf
  split_ifs with hEvidence hMissing
  · rfl
  · rfl
  · simpa [RuleVerdict.missing, eq_comm] using hMissing

omit [BitcoinCrate] in
theorem unknownRule_verdictOf {found : RuleOutcome} {evidence : List Violation}
    {missing : List Missing} (hVerdict : found.verdict = verdictOf evidence missing) :
    unknownRule found = if missing = [] then none else some (publicRuleId found.rule) := by
  unfold unknownRule
  rw [hVerdict, verdictOf]
  cases evidence <;> cases missing <;> simp

/-- A rule is unknown just when an input is unseen. -/
theorem unknownRules_iff (hCoinbase : transaction.isCoinbase = false) :
    (assessmentFromEvidence (evaluateMempoolPolicy transaction prevouts)).unknownRules ≠ [] ↔
      unseenInputs transaction prevouts ≠ 0 := by
  rw [← length_policyMissing, Ne, Ne, not_iff_not, List.length_eq_zero_iff,
    assessment_unknownRules, List.filterMap_eq_nil_iff]
  constructor
  · intro hNone
    have hRules := (evaluateApplied_eq transaction prevouts .mempoolPolicy).1
    have hMem : outcome .elementSize (specifiedVerdict transaction
        (readings transaction prevouts .mempoolPolicy) .elementSize) ∈
        (evaluateMempoolPolicy transaction prevouts).rules := by
      rw [evaluateMempoolPolicy, hRules]
      exact List.mem_map_of_mem (by decide)
    have hUnknown := unknownRule_verdictOf (policy_verdict hCoinbase hMem)
    rw [hNone _ hMem] at hUnknown
    by_contra hMissing
    rw [if_neg hMissing] at hUnknown
    cases hUnknown
  · intro hMissing found hMem
    have hVerdict := policy_verdict hCoinbase hMem
    by_cases hOutput : found.rule = .outputSize
    · rw [if_pos hOutput] at hVerdict
      rw [unknownRule_verdictOf hVerdict, if_pos rfl]
    · rw [if_neg hOutput] at hVerdict
      rw [unknownRule_verdictOf hVerdict, if_pos hMissing]

omit [BitcoinCrate] in
/-- The policy lens is partial just when a rule is unknown. -/
theorem bip110Result_incomplete (assessment : Bip110Assessment) :
    (bip110Result assessment).state = .partialResult ↔ assessment.unknownRules ≠ [] := by
  unfold bip110Result
  cases assessment.unknownRules <;> simp

end Coverage

-- ---------------------------------------------------------------------------
-- Inferred Tapscript
-- ---------------------------------------------------------------------------

omit [BitcoinCrate] in
/-- `analyze_witness` takes the annex off as `split_annex` does. -/
theorem inferredTapscript_eq (items : List Script) :
    inferredTapscript items =
      match (splitAnnex items).1.reverse with
      | control :: element :: rest =>
        if control.length ≥ 33 && (control.length - 33) % 32 == 0 &&
            (control.head?.map fun leaf => leaf &&& 0xfe) == some 0xc0 then
          some (rest.length, element)
        else none
      | _ => none := by
  unfold inferredTapscript splitAnnex
  cases items.getLast? with
  | none => rfl
  | some last =>
    have hTag : annexTag = 0x50 := rfl
    rw [hTag]
    dsimp only
    cases decide (items.length ≥ 2) && last.head? == some 0x50 with
    | true => rfl
    | false => rfl

omit [BitcoinCrate] in
/-- **The inferred Tapscript** of the data protocols is the leaf script of the
Taproot decomposition, where its control block is aligned and of leaf version
`0xc0`. -/
theorem inferredTapscript_eq_some {items : List Script} {index : Nat} {element : Script} :
    inferredTapscript items = some (index, element) ↔
      ∃ path, decomposeTaproot items = .scriptPath path ∧
        taprootControlBaseSize ≤ path.control.length ∧
        (path.control.length - taprootControlBaseSize) % taprootControlNodeSize = 0 ∧
        path.leafVersion = some 0xc0 ∧ index = path.args.length ∧ element = path.script := by
  rw [inferredTapscript_eq]
  unfold decomposeTaproot
  by_cases hEmpty : items.isEmpty = true
  · rw [List.isEmpty_iff.mp hEmpty]
    simp [splitAnnex]
  · rw [if_neg hEmpty]
    obtain ⟨stack, annex⟩ := splitAnnex items
    dsimp only
    cases stack.reverse with
    | nil => simp
    | cons control rest =>
      cases rest with
      | nil => simp
      | cons script args =>
        simp only [Option.ite_none_right_eq_some, Bool.and_eq_true, decide_eq_true_eq, beq_iff_eq,
          Option.some.injEq, Prod.mk.injEq, TaprootSpend.scriptPath.injEq, exists_eq_left',
          List.length_reverse, TaprootScriptPath.leafVersion, taprootControlBaseSize,
          taprootControlNodeSize, taprootLeafMask]
        constructor
        · rintro ⟨⟨⟨hBase, hNodes⟩, hLeaf⟩, rfl, rfl⟩
          exact ⟨hBase, hNodes, hLeaf, rfl, rfl⟩
        · rintro ⟨hBase, hNodes, hLeaf, rfl, rfl⟩
          exact ⟨⟨⟨hBase, hNodes⟩, hLeaf⟩, rfl, rfl⟩

/-- **Independent readings agree**: the annexes and the missing scripts counted
by the property lens and by the rules, the five marks of a partial reading, and
the inferred Tapscript. -/
theorem independent_readings_agree (hTemplates : TemplateLaws) (transaction : Transaction)
    (prevouts : PrevoutSet) (hCoinbase : transaction.isCoinbase = false)
    (hLen : prevouts.len = transaction.input.length) :
    let properties := transactionProperties transaction prevouts
    let shape := transactionShape transaction prevouts (dataProtocols transaction)
    let policy := evaluateMempoolPolicy transaction prevouts
    let assessment := assessmentFromEvidence policy
    policy.rules.map RuleOutcome.rule = allRules ∧
    (∃ version inputs outputs known missing families rbf witness annex,
      properties.evidence = some (.transactionProperties version inputs outputs known missing
        families rbf witness annex) ∧
      (∀ found ∈ policy.rules, found.rule = .taprootAnnex →
        found.verdict.evidence.length = annex ∧
          (publicRuleDetail found).evidenceCount = toU64 annex) ∧
      ∀ found ∈ policy.rules, found.rule ≠ .outputSize →
        found.verdict.missing.length = missing ∧
          (publicRuleDetail found).missingCount = toU64 missing) ∧
    ("has_taproot_annex" ∈ properties.labels ↔ .taprootAnnex ∈ assessment.violatedRules) ∧
    (properties.state = .partialResult ↔ shape.state = .partialResult) ∧
    (properties.state = .partialResult ↔ assessment.unknownRules ≠ []) ∧
    (properties.state = .partialResult ↔ (bip110Result assessment).state = .partialResult) ∧
    (∀ facts candidate cached, candidate.transaction = transaction →
      PendingSlice.candidatePrevouts facts transaction = .ok prevouts →
      PendingSlice.evaluateCandidate facts candidate = .ok cached →
        cached.classification.results =
          [properties, shape, dataProtocols transaction, bip110Result assessment] ∧
        (properties.state = .partialResult ↔ cached.retryable = true)) ∧
    ∀ items index element, inferredTapscript items = some (index, element) ↔
      ∃ path, decomposeTaproot items = .scriptPath path ∧
        taprootControlBaseSize ≤ path.control.length ∧
        (path.control.length - taprootControlBaseSize) % taprootControlNodeSize = 0 ∧
        path.leafVersion = some 0xc0 ∧ index = path.args.length ∧ element = path.script := by
  intro properties shape policy assessment
  obtain ⟨hMissing, hAnnex, hFound⟩ := propertyTally_spec transaction prevouts
  have hRules : policy.rules.map RuleOutcome.rule = allRules := by
    show (evaluateMempoolPolicy transaction prevouts).rules.map RuleOutcome.rule = allRules
    rw [evaluateMempoolPolicy, (evaluateApplied_eq transaction prevouts .mempoolPolicy).1,
      List.map_map]
    exact List.map_id _
  have hAnnexEvidence : ∀ found ∈ policy.rules, found.rule = .taprootAnnex →
      found.verdict.evidence.length = annexInputs transaction prevouts := by
    intro found hMem hRule
    have hVerdict := policy_verdict hCoinbase hMem
    rw [hRule, if_neg (by decide)] at hVerdict
    rw [hVerdict, verdictOf_evidence, length_policyEvidence hTemplates]
  have hMissingFacts : ∀ found ∈ policy.rules, found.rule ≠ .outputSize →
      found.verdict.missing.length = unseenInputs transaction prevouts := by
    intro found hMem hRule
    have hVerdict := policy_verdict hCoinbase hMem
    rw [if_neg hRule] at hVerdict
    rw [hVerdict, verdictOf_missing, length_policyMissing]
  have hPartial := @transactionProperties_incomplete _ transaction prevouts
  have hShape := transactionShape_incomplete hLen (dataProtocols transaction)
  have hUnknown := @unknownRules_iff _ transaction prevouts hCoinbase
  refine ⟨hRules, ?_, ?_, ?_, ?_, ?_, ?_, fun _ _ _ => inferredTapscript_eq_some⟩
  · refine ⟨_, _, _, _, _, _, _, _, _, rfl, fun found hMem hRule => ?_,
      fun found hMem hRule => ?_⟩
    · rw [hAnnex, ← hAnnexEvidence found hMem hRule]
      exact ⟨rfl, rfl⟩
    · rw [hMissing, ← hMissingFacts found hMem hRule]
      exact ⟨rfl, rfl⟩
  · show "has_taproot_annex" ∈ orderedLabels (propertyTally transaction prevouts).found
      propertyLabelOrder ↔ _
    rw [mem_orderedLabels, hFound, and_iff_right (by decide), assessment_violatedRules,
      mem_violatedRules]
    have hRule : .taprootAnnex ∈ policy.rules.map RuleOutcome.rule := by
      rw [hRules]
      decide
    obtain ⟨found, hMem, hEq⟩ := List.mem_map.mp hRule
    have hViolate : ∀ other ∈ policy.rules, other.rule = .taprootAnnex →
        (other.verdict.isViolate = true ↔ 0 < annexInputs transaction prevouts) := by
      intro other hOther hAnnexRule
      have hVerdict := policy_verdict hCoinbase hOther
      rw [hAnnexRule, if_neg (by decide)] at hVerdict
      rw [hVerdict, verdictOf_isViolate, ← length_policyEvidence hTemplates, List.length_pos_iff]
    constructor
    · exact fun hSome => ⟨found, hMem, (hViolate found hMem hEq).mpr hSome, by rw [hEq]; rfl⟩
    · rintro ⟨other, hOther, hIs, hPublic⟩
      refine (hViolate other hOther ?_).mp hIs
      cases hCase : other.rule <;> rw [hCase] at hPublic <;> first | rfl | cases hPublic
  · rw [hPartial, hShape]
  · rw [hPartial, hUnknown]
  · rw [hPartial, bip110Result_incomplete, hUnknown]
  · intro facts candidate cached hTransaction hPrevouts hCached
    subst hTransaction
    unfold PendingSlice.evaluateCandidate at hCached
    rw [hPrevouts] at hCached
    simp only [bind, Except.bind] at hCached
    split at hCached
    · cases hCached
    · obtain rfl := Except.ok.inj hCached
      exact ⟨rfl, by rw [hPartial, any_isNone_iff hLen]⟩

end Crate

-- ---------------------------------------------------------------------------
-- The reference crate
-- ---------------------------------------------------------------------------

/-- The reference crate's templates obey the laws. -/
theorem templateLaws_reference (table : List Reference.KnownTransaction) :
    @TemplateLaws (Reference.crate table) := by
  refine @TemplateLaws.mk (Reference.crate table) (fun script => ?_) (fun script h => ?_)
  · show Reference.matchesTemplate [0x51, 0x20] 32 [] script = true ↔ _
    simp only [Reference.matchesTemplate, Bool.and_eq_true, beq_iff_eq, List.drop_eq_nil_iff]
    constructor
    · rintro ⟨⟨hLen, hTake⟩, -⟩
      have hLen' : script.length = 34 := hLen
      refine ⟨script.drop 2, by rw [List.length_drop, hLen'], ?_⟩
      calc script = script.take 2 ++ script.drop 2 := (List.take_append_drop 2 script).symm
        _ = 0x51 :: 0x20 :: script.drop 2 := congrArg (· ++ script.drop 2) hTake
    · rintro ⟨program, hLen, rfl⟩
      simp [hLen]
  · have hTemplate : Reference.matchesTemplate [0xa9, 0x14] 20 [0x87] script = true := h
    simp only [Reference.matchesTemplate, Bool.and_eq_true, beq_iff_eq] at hTemplate
    exact hTemplate.1.1

/-- A payment that spends an unknown output: partial in every reading. -/
theorem independent_readings_agree_payment :
    let _ := Reference.crate [Reference.payment]
    let transaction := Reference.payment.transaction
    (transactionProperties transaction ⟨[none]⟩).state = .partialResult ↔
      (transactionShape transaction ⟨[none]⟩ (dataProtocols transaction)).state =
        .partialResult := by
  intro _ transaction
  exact (independent_readings_agree (templateLaws_reference _) transaction ⟨[none]⟩
    (by decide) (by decide)).2.2.2.1

end MempoolAtlas.Classification
