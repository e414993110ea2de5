import MempoolAtlas.Classifiers.Assessment

/-!
# What each carrier contributes

The data-protocol lens as a list of findings: each witness, each OP_RETURN output and
the multisig carriers of a transaction contribute their own, and the analysis keeps the
labels of all of them and the first few as evidence.

## Results

* `analyzeData_eq` — the lens keeps the labels of every finding and evidence of the first ones.
* `mem_labels_analyzeData` — a label is given just when some finding has it.
-/

namespace MempoolAtlas.Classifiers

open BitcoinCrate Model

/-- The analysis that has met `findings`, with evidence of the first `cap`. -/
def DataAnalysis.ofFindings (cap : Nat) (findings : List Detection) : DataAnalysis where
  labels := findings.foldl (fun labels finding => labels.insert finding.label) ∅
  detections := findings.take cap

/-- The labels are those of all findings, capped or not. -/
theorem DataAnalysis.mem_labels_ofFindings {cap : Nat} {findings : List Detection}
    {label : String} :
    label ∈ (ofFindings cap findings).labels ↔ ∃ finding ∈ findings, finding.label = label := by
  have hFold : label ∈ (findings.map Detection.label).foldl (fun t k => t.insert k)
      (∅ : BTreeSet String) ↔ label ∈ findings.map Detection.label ∨ label ∈ (∅ : BTreeSet String) :=
    BTreeSet.mem_foldl_insert
  rw [List.foldl_map] at hFold
  rw [ofFindings, hFold, List.mem_map]
  simp

/-- A detection is one more finding. -/
theorem DataAnalysis.detect_ofFindings (findings : List Detection) (finding : Detection) :
    (ofFindings maxDetectionEvidence findings).detect finding =
      ofFindings maxDetectionEvidence (findings ++ [finding]) := by
  unfold detect ofFindings
  congr 1
  · rw [List.foldl_append]
    rfl
  · rw [List.length_take]
    split
    · next hRoom =>
      rw [List.take_of_length_le (by omega), List.take_of_length_le]
      rw [List.length_append, List.length_singleton]
      omega
    · next hFull =>
      rw [List.take_append_of_le_length (by omega)]

/-- A loop of analyses gathers its findings in order. -/
theorem foldl_findings {α : Type} {analyze : DataAnalysis → α → DataAnalysis}
    {findingsOf : α → List Detection}
    (h : ∀ past value, analyze (.ofFindings maxDetectionEvidence past) value =
      .ofFindings maxDetectionEvidence (past ++ findingsOf value))
    (values : List α) (past : List Detection) :
    values.foldl analyze (.ofFindings maxDetectionEvidence past) =
      .ofFindings maxDetectionEvidence (past ++ values.flatMap findingsOf) := by
  induction values generalizing past with
  | nil => rw [List.foldl_nil, List.flatMap_nil, List.append_nil]
  | cons value values ih => rw [List.foldl_cons, h, ih, List.flatMap_cons, List.append_assoc]

section Crate

variable [BitcoinCrate]

-- ---------------------------------------------------------------------------
-- Witnesses
-- ---------------------------------------------------------------------------

/-- The envelope of the inferred leaf script of a witness, with the leaf's index. -/
def witnessEnvelope (witness : List Script) : Option (Nat × OrdEnvelope) :=
  (inferredTapscript witness).bind fun leaf => (parseOrdEnvelope leaf.2).map (Prod.mk leaf.1)

/-- The findings of one witness. -/
def witnessFindings (indexed : List Script × Nat) : List Detection :=
  let (witness, input) := indexed
  match witnessEnvelope witness with
  | some (elementIndex, envelope) =>
    { label := "inscription", carrier := "witness", input := some input
      element := some elementIndex, detection := some "decoded_envelope" } ::
      if envelope.brc20Marker then
        [{ label := "brc20", carrier := "witness", input := some input
           element := some elementIndex, detection := some "decoded_envelope" }]
      else []
  | none =>
    if witness.any fun element => containsMarker element ordEnvelopeBytes then
      [{ label := "inscription", carrier := "witness", input := some input
         detection := some "byte_pattern", confidence := some "low" }]
    else []

/-- Analysing a witness adds its findings. -/
theorem analyzeWitness_ofFindings (past : List Detection) (indexed : List Script × Nat) :
    analyzeWitness (.ofFindings maxDetectionEvidence past) indexed =
      .ofFindings maxDetectionEvidence (past ++ witnessFindings indexed) := by
  obtain ⟨witness, input⟩ := indexed
  have hPattern : witnessEnvelope witness = none →
      (if witness.any fun element => containsMarker element ordEnvelopeBytes then
        (DataAnalysis.ofFindings maxDetectionEvidence past).detect
          { label := "inscription", carrier := "witness", input := some input
            detection := some "byte_pattern", confidence := some "low" }
      else .ofFindings maxDetectionEvidence past) =
        .ofFindings maxDetectionEvidence (past ++ witnessFindings (witness, input)) := by
    intro hNone
    simp only [witnessFindings, hNone]
    split
    · rw [DataAnalysis.detect_ofFindings]
    · rw [List.append_nil]
  simp only [analyzeWitness]
  cases hTapscript : inferredTapscript witness with
  | none => exact hPattern (by rw [witnessEnvelope, hTapscript, Option.bind_none])
  | some leaf =>
    obtain ⟨elementIndex, element⟩ := leaf
    cases hParse : parseOrdEnvelope element with
    | none =>
      simp only [hParse]
      exact hPattern (by rw [witnessEnvelope, hTapscript, Option.bind_some, hParse, Option.map_none])
    | some envelope =>
      have hEnvelope : witnessEnvelope witness = some (elementIndex, envelope) := by
        rw [witnessEnvelope, hTapscript, Option.bind_some, hParse, Option.map_some]
      simp only [hParse, witnessFindings, hEnvelope, DataAnalysis.detect_ofFindings]
      split
      · rw [List.append_assoc, List.singleton_append]
      · rfl

-- ---------------------------------------------------------------------------
-- OP_RETURN outputs
-- ---------------------------------------------------------------------------

/-- The marker that ARC4 has to bring out of an OP_RETURN payload. -/
def carriesCounterparty (key : Option (List UInt8)) (payload : List UInt8) : Bool :=
  key.any fun key => payload.length ≥ cntrprtyPrefix.length &&
    (cntrprtyOffset (Arc4.apply key payload) false).isSome

/-- The finding of one `OP_RETURN`. -/
def opReturnFinding (key : Option (List UInt8)) (script : Script) (output : Nat) : Detection :=
  let payload := opReturnPayload script
  if List.isPrefixOf [0x6a, 0x5d] script then
    { label := "runes", carrier := "op_return", output := some output }
  else if carriesCounterparty key payload then
    { label := "counterparty", carrier := "op_return", output := some output
      detection := some "arc4_decrypted_prefix", payloadBytes := some payload.length }
  else if omniPrefix.isPrefixOf payload then
    { label := "omni", carrier := "op_return", output := some output
      detection := some "payload_prefix" }
  else { label := "other_op_return", carrier := "op_return", output := some output }

/-- The findings of one output. -/
def opReturnFindings (key : Option (List UInt8)) (indexed : TxOut × Nat) : List Detection :=
  if isOpReturn indexed.1.scriptPubkey then
    [opReturnFinding key indexed.1.scriptPubkey indexed.2]
  else []

theorem analyzeOpReturn_eq (key : Option (List UInt8)) (analysis : DataAnalysis)
    (indexed : TxOut × Nat) :
    analyzeOpReturn key analysis indexed =
      if isOpReturn indexed.1.scriptPubkey then
        analysis.detect (opReturnFinding key indexed.1.scriptPubkey indexed.2)
      else analysis := by
  obtain ⟨txout, output⟩ := indexed
  simp only [analyzeOpReturn, opReturnFinding, apply_ite analysis.detect]
  cases isOpReturn txout.scriptPubkey with
  | false => rfl
  | true => cases key <;> rfl

/-- Analysing an output adds its findings. -/
theorem analyzeOpReturn_ofFindings (key : Option (List UInt8)) (past : List Detection)
    (indexed : TxOut × Nat) :
    analyzeOpReturn key (.ofFindings maxDetectionEvidence past) indexed =
      .ofFindings maxDetectionEvidence (past ++ opReturnFindings key indexed) := by
  rw [analyzeOpReturn_eq, opReturnFindings]
  split
  · exact DataAnalysis.detect_ofFindings _ _
  · rw [List.append_nil]

-- ---------------------------------------------------------------------------
-- Bare multisig
-- ---------------------------------------------------------------------------

/-- The finding of the outputs to burn keys. -/
def stampsFindings (carriers : List MultisigCarrier) (key : Option (List UInt8)) :
    List Detection :=
  let found := carrierChunks MultisigCarrier.stampsChunk carriers
  let data := (found.map Prod.snd).flatten
  if found.isEmpty then []
  else
    match key.bind fun key => stampMarker (Arc4.apply key data) with
    | none => []
    | some (marker, offset) =>
      let transport :=
        if (key.any fun key => containsMarker (Arc4.apply key data) cntrprtyPrefix) then
          "counterparty"
        else "pure"
      [{ carrierEvidence (found.map Prod.fst) "stamps" "arc4_decrypted_marker" with
         transport := some transport, marker := some marker, markerOffset := some offset
         payloadBytes := some data.length }]

/-- The first candidate stream that carries the Counterparty marker, with its outputs, how
it does and its decoded form. -/
def provenStream (carriers : List MultisigCarrier) (key : Option (List UInt8)) :
    Option (List Nat × String × List UInt8) :=
  (counterpartyCandidates (carrierChunks MultisigCarrier.counterpartyChunk carriers)).findSome?
    fun candidate => (counterpartyStream key candidate.2).map (Prod.mk candidate.1)

/-- The findings of the Counterparty streams. -/
def counterpartyFindings (carriers : List MultisigCarrier) (key : Option (List UInt8)) :
    List Detection :=
  match provenStream carriers key with
  | none => []
  | some (outputs, detection, decoded) =>
    { carrierEvidence outputs "counterparty" detection with
      payloadBytes := some decoded.length } ::
      match stampMarker decoded with
      | none => []
      | some (marker, offset) =>
        [{ carrierEvidence outputs "stamps" "counterparty_envelope_marker" with
           transport := some "counterparty", marker := some marker
           markerOffset := some offset }]

/-- The findings of the multisig carriers. -/
def multisigFindings (transaction : Transaction) (key : Option (List UInt8)) : List Detection :=
  stampsFindings (multisigCarriers transaction) key ++
    counterpartyFindings (multisigCarriers transaction) key

omit [BitcoinCrate] in
theorem detectStamps_ofFindings (carriers : List MultisigCarrier) (key : Option (List UInt8))
    (past : List Detection) :
    detectStamps carriers key (.ofFindings maxDetectionEvidence past) =
      .ofFindings maxDetectionEvidence (past ++ stampsFindings carriers key) := by
  simp only [detectStamps, stampsFindings]
  split
  · rw [List.append_nil]
  · cases key with
    | none => simp only [Option.bind_none, List.append_nil]
    | some key =>
      simp only [Option.bind_some, Option.any_some]
      split
      · simp_all only [List.append_nil]
      · simp_all only [DataAnalysis.detect_ofFindings]

omit [BitcoinCrate] in
theorem detectMultisigCounterparty_ofFindings (carriers : List MultisigCarrier)
    (key : Option (List UInt8)) (past : List Detection) :
    detectMultisigCounterparty carriers key (.ofFindings maxDetectionEvidence past) =
      .ofFindings maxDetectionEvidence (past ++ counterpartyFindings carriers key) := by
  simp only [detectMultisigCounterparty, counterpartyFindings]
  rw [show ((counterpartyCandidates
      (carrierChunks MultisigCarrier.counterpartyChunk carriers)).findSome?
        fun candidate => (counterpartyStream key candidate.2).map fun stream =>
          (candidate.1, stream)) = provenStream carriers key from rfl]
  cases provenStream carriers key with
  | none => simp only [List.append_nil]
  | some proven =>
    obtain ⟨outputs, detection, decoded⟩ := proven
    cases hMarker : stampMarker decoded with
    | none => simp only [hMarker, DataAnalysis.detect_ofFindings]
    | some marker =>
      simp only [hMarker, DataAnalysis.detect_ofFindings, List.append_assoc,
        List.singleton_append]

/-- Analysing the carriers adds their findings. -/
theorem analyzeMultisigCarriers_ofFindings (transaction : Transaction)
    (key : Option (List UInt8)) (past : List Detection) :
    analyzeMultisigCarriers transaction key (.ofFindings maxDetectionEvidence past) =
      .ofFindings maxDetectionEvidence (past ++ multisigFindings transaction key) := by
  simp only [analyzeMultisigCarriers, multisigFindings]
  split
  · next hEmpty =>
    rw [List.isEmpty_iff.mp hEmpty]
    exact congrArg _ (List.append_nil past).symm
  · rw [detectStamps_ofFindings, detectMultisigCounterparty_ofFindings, List.append_assoc]

-- ---------------------------------------------------------------------------
-- The transaction
-- ---------------------------------------------------------------------------

/-- All findings of a transaction, in order. -/
def dataFindings (transaction : Transaction) : List Detection :=
  (transaction.input.map TxIn.witness).zipIdx.flatMap witnessFindings ++
    transaction.output.zipIdx.flatMap (opReturnFindings (arc4Key transaction)) ++
    multisigFindings transaction (arc4Key transaction)

/-- The lens keeps the labels of every finding and evidence of the first ones. -/
theorem analyzeData_eq (transaction : Transaction) :
    analyzeData transaction =
      .ofFindings maxDetectionEvidence (dataFindings transaction) := by
  have hEmpty : DataAnalysis.empty = .ofFindings maxDetectionEvidence [] := rfl
  simp only [analyzeData, hEmpty, foldl_findings analyzeWitness_ofFindings,
    foldl_findings (analyzeOpReturn_ofFindings _), analyzeMultisigCarriers_ofFindings,
    List.nil_append, dataFindings]

/-- A label is given just when some finding has it. -/
theorem mem_labels_analyzeData {transaction : Transaction} {label : String} :
    label ∈ (analyzeData transaction).labels ↔
      ∃ finding ∈ dataFindings transaction, finding.label = label := by
  rw [analyzeData_eq, DataAnalysis.mem_labels_ofFindings]

theorem mem_labels_analyzeWitness {indexed : List Script × Nat} {label : String} :
    label ∈ (analyzeWitness .empty indexed).labels ↔
      ∃ finding ∈ witnessFindings indexed, finding.label = label := by
  have hEmpty : DataAnalysis.empty = .ofFindings maxDetectionEvidence [] := rfl
  rw [hEmpty, analyzeWitness_ofFindings, DataAnalysis.mem_labels_ofFindings, List.nil_append]

theorem mem_labels_analyzeMultisigCarriers {transaction : Transaction}
    {key : Option (List UInt8)} {label : String} :
    label ∈ (analyzeMultisigCarriers transaction key .empty).labels ↔
      ∃ finding ∈ multisigFindings transaction key, finding.label = label := by
  have hEmpty : DataAnalysis.empty = .ofFindings maxDetectionEvidence [] := rfl
  rw [hEmpty, analyzeMultisigCarriers_ofFindings, DataAnalysis.mem_labels_ofFindings,
    List.nil_append]

/-- What a witness may be found to be. -/
theorem label_of_witnessFindings {indexed : List Script × Nat} {finding : Detection}
    (h : finding ∈ witnessFindings indexed) :
    finding.label = "inscription" ∨ finding.label = "brc20" := by
  simp only [witnessFindings] at h
  split at h
  · rcases List.mem_cons.mp h with rfl | h
    · exact Or.inl rfl
    · split at h
      · exact Or.inr (congrArg Detection.label (List.mem_singleton.mp h))
      · cases h
  · split at h
    · exact Or.inl (congrArg Detection.label (List.mem_singleton.mp h))
    · cases h

theorem label_of_opReturnFinding (key : Option (List UInt8)) (script : Script) (output : Nat) :
    (opReturnFinding key script output).label ∈
      ["runes", "counterparty", "omni", "other_op_return"] := by
  simp only [opReturnFinding, apply_ite Detection.label]
  split_ifs <;> decide

/-- What an `OP_RETURN` may be found to be. -/
theorem label_of_opReturnFindings {key : Option (List UInt8)} {indexed : TxOut × Nat}
    {finding : Detection} (h : finding ∈ opReturnFindings key indexed) :
    finding.label ∈ ["runes", "counterparty", "omni", "other_op_return"] := by
  unfold opReturnFindings at h
  split at h
  · rw [List.mem_singleton.mp h]
    exact label_of_opReturnFinding _ _ _
  · cases h

/-- What multisig carriers may be found to be. -/
theorem label_of_multisigFindings {transaction : Transaction} {key : Option (List UInt8)}
    {finding : Detection} (h : finding ∈ multisigFindings transaction key) :
    finding.label = "stamps" ∨ finding.label = "counterparty" := by
  rcases List.mem_append.mp h with h | h
  · simp only [stampsFindings] at h
    split at h
    · cases h
    · split at h
      · cases h
      · exact Or.inl (congrArg Detection.label (List.mem_singleton.mp h))
  · simp only [counterpartyFindings] at h
    split at h
    · cases h
    · rcases List.mem_cons.mp h with rfl | h
      · exact Or.inr rfl
      · split at h
        · cases h
        · exact Or.inl (congrArg Detection.label (List.mem_singleton.mp h))

end Crate

end MempoolAtlas.Classifiers
