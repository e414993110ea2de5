import MempoolAtlas.Bitcoin.Reference
import MempoolAtlas.Classifiers.Envelopes
import MempoolAtlas.Classifiers.MultisigStreams
import MempoolAtlas.Classifiers.Publishable

/-!
# OP_RETURN carriers and the label set

Data pushes in any form decode to the bytes they carry, so an OP_RETURN output that
carries an obfuscated Counterparty message is labelled as one. The labels of a
transaction are those its carriers contribute, one for each OP_RETURN output.

## Results

* `opReturnPayload_of_pushes` — the payload of pushes is what they push.
* `op_return_carriers` — an encoded message is detected, and the labels are those of the
  carriers.
* `decodesPushes_reference` — the reference crate decodes pushes.
-/

namespace MempoolAtlas.Classifiers

open BitcoinCrate Model

-- ---------------------------------------------------------------------------
-- Data pushes
-- ---------------------------------------------------------------------------

/-- The bytes that push `data`. -/
inductive EncodesPush (data : List UInt8) : Script → Prop
  | direct (hLength : data.length ≤ 75) : EncodesPush data (UInt8.ofNat data.length :: data)
  | pushData {opcode : UInt8} {width : Nat} (hOpcode : (opcode, width) ∈ pushDataForms)
      (hLength : data.length < 256 ^ width) :
      EncodesPush data (opcode :: (lengthBytes width data.length ++ data))

/-- A script that pushes these data, each in one of the four ways. -/
inductive EncodesPushes : List (List UInt8) → Script → Prop
  | nil : EncodesPushes [] []
  | cons {data : List UInt8} {pushes : List (List UInt8)} {bytes script : Script}
      (hPush : EncodesPush data bytes) (hPushes : EncodesPushes pushes script) :
      EncodesPushes (data :: pushes) (bytes ++ script)

/-- No push begins with `OP_13`. -/
theorem EncodesPushes.not_runes {pushes : List (List UInt8)} {script : Script}
    (h : EncodesPushes pushes script) : ¬ [0x5d] <+: script := by
  cases h with
  | nil => decide
  | cons hPush hPushes =>
    rintro ⟨rest, hRest⟩
    cases hPush with
    | direct hLength =>
      have hHead := congrArg UInt8.toNat (List.cons.inj hRest).1
      rw [UInt8.toNat_ofNat', Nat.mod_eq_of_lt (by omega)] at hHead
      have hOp13 : UInt8.toNat 0x5d = 93 := rfl
      omega
    | pushData hOpcode =>
      have hHead := (List.cons.inj hRest).1
      rw [← hHead] at hOpcode
      revert hOpcode
      simp [pushDataForms]

section Crate

variable [BitcoinCrate]

/-- What the crate documents of its script readers: data pushes are decoded to the bytes
they carry, and a script that begins with `OP_RETURN` is an OP_RETURN script. -/
structure DecodesPushes : Prop where
  instructions : ∀ pushes script, EncodesPushes pushes script →
    instructions script = pushes.map fun data => .ok (.pushBytes data)
  isOpReturn : ∀ script, isOpReturn (0x6a :: script) = true

/-- The payload of pushes is what they push. -/
theorem opReturnPayload_of_pushes (hCrate : DecodesPushes) {pushes : List (List UInt8)}
    {script : Script} (h : EncodesPushes pushes script) :
    opReturnPayload (0x6a :: script) = pushes.flatten := by
  have hDecoded : decodedInstructions script = some (pushes.map Instruction.pushBytes) := by
    rw [decodedInstructions, hCrate.instructions pushes script h]
    clear h
    induction pushes with
    | nil => rfl
    | cons data pushes ih =>
      rw [List.map_cons, List.mapM_cons, ih]
      rfl
  have hPushes : ∀ pushed : Instruction → Option (List UInt8),
      (∀ bytes, pushed (.pushBytes bytes) = some bytes) →
      (pushes.map Instruction.pushBytes).mapM pushed = some pushes := by
    intro pushed hPushed
    clear h hDecoded
    induction pushes with
    | nil => rfl
    | cons data pushes ih =>
      rw [List.map_cons, List.mapM_cons, hPushed, ih]
      rfl
  simp only [opReturnPayload, hDecoded]
  rw [hPushes _ fun _ => rfl]

-- ---------------------------------------------------------------------------
-- OP_RETURN labels
-- ---------------------------------------------------------------------------

/-- The label an OP_RETURN output contributes: the first fingerprint that fires. -/
def opReturnLabel (key : Option (List UInt8)) (script : Script) : String :=
  if [0x6a, 0x5d] <+: script then "runes"
  else if ∃ bytes ∈ key, cntrprtyPrefix <+: Arc4.apply bytes (opReturnPayload script) then
    "counterparty"
  else if omniPrefix <+: opReturnPayload script then "omni"
  else "other_op_return"

/-- A finding has the label of its payload. -/
theorem label_opReturnFinding (key : Option (List UInt8)) (script : Script) (output : Nat) :
    (opReturnFinding key script output).label = opReturnLabel key script := by
  have hCounterparty : carriesCounterparty key (opReturnPayload script) = true ↔
      ∃ bytes ∈ key, cntrprtyPrefix <+: Arc4.apply bytes (opReturnPayload script) := by
    rw [carriesCounterparty, Option.any_eq_true]
    refine exists_congr fun bytes => and_congr_right fun _ => ?_
    rw [Bool.and_eq_true, decide_eq_true_eq, cntrprtyOffset_isSome_false, CarriesAt,
      List.drop_zero]
    refine and_iff_right_of_imp fun hPrefix => ?_
    have hLe := hPrefix.length_le
    rwa [Arc4.length_apply] at hLe
  simp only [opReturnFinding, apply_ite Detection.label, opReturnLabel, List.isPrefixOf_iff_prefix,
    hCounterparty]

/-- What an OP_RETURN output adds to the labels: exactly one of them. -/
theorem labels_analyzeOpReturn (key : Option (List UInt8)) (analysis : DataAnalysis)
    (txout : TxOut) (output : Nat) :
    (analyzeOpReturn key analysis (txout, output)).labels =
      if isOpReturn txout.scriptPubkey then
        analysis.labels.insert (opReturnLabel key txout.scriptPubkey)
      else analysis.labels := by
  rw [analyzeOpReturn_eq]
  split
  · rw [← label_opReturnFinding _ _ output]
    rfl
  · rfl

/-- **A message gives its label** however it is split into pushes. -/
theorem opReturnLabel_of_message (hCrate : DecodesPushes) {key message : List UInt8}
    {pushes : List (List UInt8)} {script : Script} (h : EncodesPushes pushes script)
    (hMessage : pushes.flatten = Arc4.apply key (cntrprtyPrefix ++ message)) :
    opReturnLabel (some key) (0x6a :: script) = "counterparty" := by
  have hRunes : ¬ [0x6a, 0x5d] <+: 0x6a :: script := by
    rw [List.cons_prefix_cons]
    exact fun hPrefix => h.not_runes hPrefix.2
  have hPayload : Arc4.apply key (opReturnPayload (0x6a :: script)) = cntrprtyPrefix ++ message := by
    rw [opReturnPayload_of_pushes hCrate h, hMessage, Arc4.apply_apply]
  rw [opReturnLabel, if_neg hRunes, if_pos ⟨key, rfl, hPayload ▸ List.prefix_append _ _⟩]

-- ---------------------------------------------------------------------------
-- The label set
-- ---------------------------------------------------------------------------

/-- Some carrier of the transaction contributes the label. -/
inductive Contributes (transaction : Transaction) (label : String) : Prop
  | witness {witness : List Script} {input : Nat}
      (hInput : (witness, input) ∈ (transaction.input.map TxIn.witness).zipIdx)
      (hLabel : label ∈ (analyzeWitness .empty (witness, input)).labels)
  | opReturn {txout : TxOut} (hOutput : txout ∈ transaction.output)
      (hOpReturn : isOpReturn txout.scriptPubkey = true)
      (hLabel : label = opReturnLabel (arc4Key transaction) txout.scriptPubkey)
  | multisig (hLabel : label ∈
      (analyzeMultisigCarriers transaction (arc4Key transaction) .empty).labels)

/-- A label is contributed just when a finding has it. -/
theorem contributes_iff {transaction : Transaction} {label : String} :
    Contributes transaction label ↔ ∃ finding ∈ dataFindings transaction, finding.label = label := by
  constructor
  · intro h
    cases h with
    | witness hInput hLabel =>
      obtain ⟨finding, hMem, hIs⟩ := mem_labels_analyzeWitness.mp hLabel
      exact ⟨finding, List.mem_append_left _ (List.mem_append_left _
        (List.mem_flatMap.mpr ⟨_, hInput, hMem⟩)), hIs⟩
    | @opReturn txout hOutput hOpReturn hLabel =>
      obtain ⟨index, hIndex⟩ := List.mem_iff_getElem?.mp hOutput
      refine ⟨opReturnFinding (arc4Key transaction) txout.scriptPubkey index, List.mem_append_left _
        (List.mem_append_right _ (List.mem_flatMap.mpr
          ⟨_, List.mk_mem_zipIdx_iff_getElem?.mpr hIndex, ?_⟩)), ?_⟩
      · rw [opReturnFindings, if_pos hOpReturn]
        exact List.mem_singleton_self _
      · rw [label_opReturnFinding, hLabel]
    | multisig hLabel =>
      obtain ⟨finding, hMem, hIs⟩ := mem_labels_analyzeMultisigCarriers.mp hLabel
      exact ⟨finding, List.mem_append_right _ hMem, hIs⟩
  · rintro ⟨finding, hMem, hIs⟩
    rcases List.mem_append.mp hMem with hMem | hMultisig
    · rcases List.mem_append.mp hMem with hWitness | hOpReturn
      · obtain ⟨⟨witness, input⟩, hInput, hFinding⟩ := List.mem_flatMap.mp hWitness
        exact .witness hInput (mem_labels_analyzeWitness.mpr ⟨finding, hFinding, hIs⟩)
      · obtain ⟨⟨txout, output⟩, hOutput, hFinding⟩ := List.mem_flatMap.mp hOpReturn
        unfold opReturnFindings at hFinding
        split at hFinding
        · next hOp =>
          refine .opReturn (List.mem_iff_getElem?.mpr
            ⟨output, List.mk_mem_zipIdx_iff_getElem?.mp hOutput⟩) hOp ?_
          rw [← hIs, List.mem_singleton.mp hFinding, label_opReturnFinding]
        · cases hFinding
    · exact .multisig (mem_labels_analyzeMultisigCarriers.mpr ⟨finding, hMultisig, hIs⟩)

theorem mem_dataLabelOrder_of_contributes {transaction : Transaction} {label : String}
    (h : Contributes transaction label) : label ∈ dataLabelOrder :=
  declaredIn_analyzeData transaction label (mem_labels_analyzeData.mpr (contributes_iff.mp h))

/-- What a transaction's carriers are to be labelled. -/
structure CarriersLabelled (transaction : Transaction) : Prop where
  /-- Each OP_RETURN output adds the label of its first fingerprint, and no other output. -/
  opReturn : ∀ txout ∈ transaction.output, ∀ output analysis,
    (analyzeOpReturn (arc4Key transaction) analysis (txout, output)).labels =
      if isOpReturn txout.scriptPubkey then
        analysis.labels.insert (opReturnLabel (arc4Key transaction) txout.scriptPubkey)
      else analysis.labels
  union : ∀ label, label ∈ (dataProtocols transaction).labels ↔
    Contributes transaction label ∨
      label = "no_detected_protocol" ∧ ∀ other, ¬ Contributes transaction other
  undetected : "no_detected_protocol" ∈ (dataProtocols transaction).labels ↔
    ∀ label, ¬ Contributes transaction label
  /-- The cap bounds the evidence and not the labels. -/
  uncapped : analyzeData transaction =
      .ofFindings maxDetectionEvidence (dataFindings transaction) ∧
    ∀ cap, (DataAnalysis.ofFindings cap (dataFindings transaction)).labels =
      (analyzeData transaction).labels

/-- The labels of the lens are those contributed, or the one that says there are none. -/
theorem mem_labels_dataProtocols {transaction : Transaction} {label : String} :
    label ∈ (dataProtocols transaction).labels ↔
      Contributes transaction label ∨
        label = "no_detected_protocol" ∧ ∀ other, ¬ Contributes transaction other := by
  constructor
  · intro hLabel
    by_cases hOther : label = "no_detected_protocol"
    · have hFound : label ∈ dataLabels (analyzeData transaction) :=
        (mem_orderedLabels.mp hLabel).2
      unfold dataLabels at hFound
      split at hFound
      · next hEmpty =>
        refine Or.inr ⟨hOther, fun other hContributes => ?_⟩
        have hMem := mem_labels_analyzeData.mpr (contributes_iff.mp hContributes)
        rw [Std.ExtTreeSet.isEmpty_iff.mp hEmpty] at hMem
        exact Std.ExtTreeSet.not_mem_empty hMem
      · exact Or.inl (contributes_iff.mpr (mem_labels_analyzeData.mp hFound))
    · exact Or.inl (contributes_iff.mpr (findings_ne_nil_of_label hOther hLabel))
  · rintro (hContributes | ⟨rfl, hNone⟩)
    · exact labels_of_finding (mem_dataLabelOrder_of_contributes hContributes)
        (contributes_iff.mp hContributes)
    · refine mem_orderedLabels.mpr ⟨by decide, ?_⟩
      have hEmpty : (analyzeData transaction).labels.isEmpty = true := by
        by_contra hSome
        obtain ⟨label, hMem⟩ := exists_mem_of_isEmpty_eq_false (by simpa using hSome)
        exact hNone label (contributes_iff.mpr (mem_labels_analyzeData.mp hMem))
      rw [dataLabels, if_pos hEmpty]
      exact Std.ExtTreeSet.mem_insert_self

theorem not_contributes_no_detected_protocol (transaction : Transaction) :
    ¬ Contributes transaction "no_detected_protocol" := by
  intro hContributes
  obtain ⟨finding, hMem, hLabel⟩ := contributes_iff.mp hContributes
  rcases List.mem_append.mp hMem with hMem | hMultisig
  · rcases List.mem_append.mp hMem with hWitness | hOpReturn
    · obtain ⟨indexed, -, hFinding⟩ := List.mem_flatMap.mp hWitness
      rcases label_of_witnessFindings hFinding with hIs | hIs
      · exact absurd (hIs.symm.trans hLabel) (by decide)
      · exact absurd (hIs.symm.trans hLabel) (by decide)
    · obtain ⟨indexed, -, hFinding⟩ := List.mem_flatMap.mp hOpReturn
      have hIs := label_of_opReturnFindings hFinding
      rw [hLabel] at hIs
      exact absurd hIs (by decide)
  · rcases label_of_multisigFindings hMultisig with hIs | hIs
    · exact absurd (hIs.symm.trans hLabel) (by decide)
    · exact absurd (hIs.symm.trans hLabel) (by decide)

/-- Every carrier contributes its label. -/
theorem carriersLabelled (transaction : Transaction) : CarriersLabelled transaction where
  opReturn txout _ output analysis := labels_analyzeOpReturn _ analysis txout output
  union _ := mem_labels_dataProtocols
  undetected := by
    rw [mem_labels_dataProtocols,
      or_iff_right (not_contributes_no_detected_protocol transaction), and_iff_right rfl]
  uncapped := ⟨analyzeData_eq transaction, fun cap => by rw [analyzeData_eq]; rfl⟩

/-- Detection undoes the encoding of a Counterparty message, and the labels of a
transaction are those of its carriers. -/
theorem op_return_carriers (hCrate : DecodesPushes) :
    (∀ transaction key, arc4Key transaction = some key →
      ∀ message pushes script value output analysis, EncodesPushes pushes script →
        pushes.flatten = Arc4.apply key (cntrprtyPrefix ++ message) →
        (analyzeOpReturn (arc4Key transaction) analysis
          (⟨value, 0x6a :: script⟩, output)).labels = analysis.labels.insert "counterparty") ∧
    (∀ transaction, CarriersLabelled transaction) ∧
    ∀ key data, Arc4.apply key (Arc4.apply key data) = data ∧
      ∀ count, Arc4.apply key (data.take count) = (Arc4.apply key data).take count := by
  refine ⟨fun transaction key hKey message pushes script value output analysis hPushes hMessage => ?_,
    carriersLabelled, fun key data => ⟨Arc4.apply_apply key data, fun count => ?_⟩⟩
  · rw [labels_analyzeOpReturn, if_pos (hCrate.isOpReturn script), hKey,
      opReturnLabel_of_message hCrate hPushes hMessage]
  · have hPrefix := Arc4.apply_prefix key (List.take_prefix count data)
    rw [List.prefix_iff_eq_take, Arc4.length_apply, List.length_take] at hPrefix
    rw [hPrefix, List.take_eq_take_iff, Arc4.length_apply]
    omega

end Crate

-- ---------------------------------------------------------------------------
-- The reference decoder
-- ---------------------------------------------------------------------------

theorem littleEndian_lengthBytes (width n : Nat) (h : n < 256 ^ width) :
    Reference.littleEndian (lengthBytes width n) = n := by
  induction width generalizing n with
  | zero =>
    rw [pow_zero] at h
    rw [lengthBytes, Reference.littleEndian]
    omega
  | succ width ih =>
    have hRest : n / 256 < 256 ^ width := by
      rw [Nat.div_lt_iff_lt_mul (by decide), ← pow_succ]
      exact h
    rw [lengthBytes, Reference.littleEndian, ih _ hRest, UInt8.toNat_ofNat']
    omega

theorem decodePush_lengthBytes {width : Nat} {data : List UInt8}
    (h : data.length < 256 ^ width) (script : Script) :
    Reference.decodePush width (lengthBytes width data.length ++ (data ++ script)) =
      some (data, script, width + data.length) := by
  have hTake : (lengthBytes width data.length ++ (data ++ script)).take width =
      lengthBytes width data.length := List.take_left' (length_lengthBytes _ _)
  have hDrop : (lengthBytes width data.length ++ (data ++ script)).drop width = data ++ script :=
    List.drop_left' (length_lengthBytes _ _)
  simp only [Reference.decodePush, hTake, hDrop, littleEndian_lengthBytes _ _ h]
  rw [if_neg, List.take_left, List.drop_left]
  simp only [List.length_append, length_lengthBytes, not_or, not_lt]
  omega

/-- One push and what follows it. -/
theorem decodeFrom_push {data bytes : Script} (h : EncodesPush data bytes) (script : Script)
    (fuel pos : Nat) :
    ∃ pos', Reference.decodeFrom (fuel + 1) pos (bytes ++ script) =
      .ok (pos, .pushBytes data) :: Reference.decodeFrom fuel pos' script := by
  cases h with
  | direct hLength =>
    have hOp : (UInt8.ofNat data.length).toNat = data.length := by
      rw [UInt8.toNat_ofNat', Nat.mod_eq_of_lt (by omega)]
    refine ⟨pos + 1 + data.length, ?_⟩
    have hEnough : ¬ (data ++ script).length < data.length := by
      rw [List.length_append]
      omega
    rw [List.cons_append, Reference.decodeFrom]
    simp only [hOp, hLength, if_true, hEnough, if_false, List.take_left, List.drop_left]
  | @pushData opcode width hOpcode hLength =>
    refine ⟨pos + 1 + (width + data.length), ?_⟩
    have hPush := decodePush_lengthBytes hLength script
    simp only [pushDataForms, List.mem_cons, List.not_mem_nil, or_false, Prod.mk.injEq]
      at hOpcode
    rcases hOpcode with ⟨rfl, rfl⟩ | ⟨rfl, rfl⟩ | ⟨rfl, rfl⟩
    all_goals
      rw [List.cons_append, Reference.decodeFrom]
      simp [hPush]

/-- A script of pushes decodes to them. -/
theorem decodeFrom_pushes {pushes : List (List UInt8)} {script : Script}
    (h : EncodesPushes pushes script) (fuel pos : Nat) (hFuel : script.length ≤ fuel) :
    (Reference.decodeFrom fuel pos script).map (fun item => item.map Prod.snd) =
      pushes.map fun data => .ok (.pushBytes data) := by
  induction h generalizing fuel pos with
  | nil => cases fuel <;> rfl
  | @cons data pushes bytes script hPush _ ih =>
    have hNonempty : 0 < bytes.length := by
      cases hPush with
      | direct => exact Nat.succ_pos _
      | pushData => exact Nat.succ_pos _
    rw [List.length_append] at hFuel
    obtain ⟨fuel, rfl⟩ := Nat.exists_eq_add_one_of_ne_zero (show fuel ≠ 0 by omega)
    obtain ⟨pos', hDecoded⟩ := decodeFrom_push hPush script fuel pos
    rw [hDecoded, List.map_cons, List.map_cons, ih fuel pos' (by omega)]
    rfl

/-- The reference crate decodes pushes. -/
theorem decodesPushes_reference (table : List Reference.KnownTransaction) :
    @DecodesPushes (Reference.crate table) :=
  @DecodesPushes.mk (Reference.crate table)
    (fun _ script h => decodeFrom_pushes h script.length 0 le_rfl) (fun _ => rfl)

/-- An obfuscated Counterparty message in two pushes: its prefix, and what follows it under
a length byte. -/
theorem op_return_carriers_split :
    (@analyzeOpReturn (Reference.crate []) (arc4Key laterStamp) .empty
        (⟨0, 0x6a :: (0x08 :: firstChunk ++ 0x4c :: 0x06 :: secondChunk.drop 8)⟩, 0)).labels =
      DataAnalysis.empty.labels.insert "counterparty" ∧
    @CarriersLabelled (Reference.crate []) laterStamp := by
  let _ : BitcoinCrate := Reference.crate []
  obtain ⟨hMessages, hLabelled, -⟩ := op_return_carriers (decodesPushes_reference [])
  have hPushes : EncodesPushes [firstChunk, secondChunk.drop 8]
      (0x08 :: firstChunk ++ 0x4c :: 0x06 :: secondChunk.drop 8) :=
    .cons (@EncodesPush.direct firstChunk (by decide))
      (.cons (@EncodesPush.pushData (secondChunk.drop 8) 0x4c 1 (by decide) (by decide)) .nil)
  have hMessage : [firstChunk, secondChunk.drop 8].flatten =
      Arc4.apply laterStampKey (cntrprtyPrefix ++ asciiBytes "stamp:") := by
    rw [Arc4.apply_eq_packed (by decide)]
    decide +kernel
  exact ⟨hMessages laterStamp laterStampKey arc4Key_laterStamp _ _ _ 0 0 .empty hPushes hMessage,
    hLabelled laterStamp⟩

end MempoolAtlas.Classifiers
