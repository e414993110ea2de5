import MempoolAtlas.Bitcoin.Reference
import MempoolAtlas.Classifiers.DataFindings

/-!
# Inscription envelopes

The envelopes of an inferred leaf script: `OP_FALSE OP_IF <push "ord">`, data pushes up
to `OP_ENDIF`, and a body after the first empty push in tag position. An opening anywhere
is found; the BRC-20 marker is searched in the body of the first envelope only.

## Results

* `findEnvelope_spec` — the classifier reads the first envelope, or there is none.
* `envelopes_detected_iff` — the detections are exact just when the first body speaks for the
  script.
-/

namespace MempoolAtlas.Classifiers

open BitcoinCrate Model Streams

-- ---------------------------------------------------------------------------
-- Openings and bodies
-- ---------------------------------------------------------------------------

/-- `OP_FALSE OP_IF` and the push of `ord`. -/
def envelopeOpening : List Instruction := [.pushBytes [], .op 0x63, .pushBytes ordProtocolId]

/-- An envelope of data pushes opens after `before` and ends with its `OP_ENDIF`. -/
def IsEnvelope (decoded before : List Instruction) (contents : List (List UInt8)) : Prop :=
  ∃ after, decoded =
    before ++ (envelopeOpening ++ (contents.map Instruction.pushBytes ++ .op 0x68 :: after))

/-- Every envelope consists of data pushes up to its `OP_ENDIF`. -/
def DataEnvelopes (decoded : List Instruction) : Prop :=
  ∀ before rest, decoded = before ++ (envelopeOpening ++ rest) →
    ∃ contents, IsEnvelope decoded before contents

/-- The data pushes up to an `OP_ENDIF`. -/
def readContents : List Instruction → Option (List (List UInt8))
  | .pushBytes bytes :: rest => (readContents rest).map (bytes :: ·)
  | .op opcode :: _ => if opcode = 0x68 then some [] else none
  | [] => none

/-- Contents are read up to `OP_ENDIF`. -/
theorem readContents_eq_some {rest : List Instruction} {contents : List (List UInt8)} :
    readContents rest = some contents ↔
      ∃ after, rest = contents.map Instruction.pushBytes ++ .op 0x68 :: after := by
  induction rest generalizing contents with
  | nil => simp [readContents]
  | cons instruction rest ih =>
    cases instruction with
    | pushBytes bytes =>
      rw [readContents, Option.map_eq_some_iff]
      constructor
      · rintro ⟨contents, hRest, rfl⟩
        obtain ⟨after, rfl⟩ := ih.mp hRest
        exact ⟨after, rfl⟩
      · rintro ⟨after, hRest⟩
        cases contents with
        | nil => cases hRest
        | cons first contents =>
          obtain ⟨hHead, hTail⟩ := List.cons.inj hRest
          cases hHead
          exact ⟨contents, ih.mpr ⟨after, hTail⟩, rfl⟩
    | op opcode =>
      rw [readContents]
      constructor
      · intro h
        split at h
        · next hEndif =>
          obtain rfl := Option.some.inj h
          exact ⟨rest, by rw [hEndif, List.map_nil, List.nil_append]⟩
        · cases h
      · rintro ⟨after, hRest⟩
        cases contents with
        | nil =>
          cases hRest
          rfl
        | cons first contents => cases hRest

/-- An envelope is an opening with contents. -/
theorem isEnvelope_iff {decoded before : List Instruction} {contents : List (List UInt8)} :
    IsEnvelope decoded before contents ↔
      ∃ rest, decoded = before ++ (envelopeOpening ++ rest) ∧ readContents rest = some contents := by
  constructor
  · rintro ⟨after, hSplit⟩
    exact ⟨_, hSplit, readContents_eq_some.mpr ⟨after, rfl⟩⟩
  · rintro ⟨rest, hSplit, hRest⟩
    obtain ⟨after, rfl⟩ := readContents_eq_some.mp hRest
    exact ⟨after, hSplit⟩

/-- Every opening starts an envelope, decidably. -/
theorem dataEnvelopes_iff {decoded : List Instruction} :
    DataEnvelopes decoded ↔ ∀ offset < decoded.length, envelopeOpening <+: decoded.drop offset →
      (readContents (decoded.drop (offset + 3))).isSome = true := by
  constructor
  · rintro hData offset hOffset ⟨rest, hRest⟩
    have hSplit : decoded = decoded.take offset ++ (envelopeOpening ++ rest) := by
      rw [hRest, List.take_append_drop]
    obtain ⟨contents, hEnvelope⟩ := hData _ _ hSplit
    obtain ⟨rest', hSplit', hContents⟩ := isEnvelope_iff.mp hEnvelope
    have hSame : rest = rest' :=
      List.append_cancel_left (List.append_cancel_left (hSplit.symm.trans hSplit'))
    have hDrop : decoded.drop (offset + 3) = rest := by
      rw [← List.drop_drop, ← hRest]
      rfl
    rw [hDrop, hSame, hContents]
    rfl
  · intro hChecked before rest hSplit
    have hDrop : decoded.drop before.length = envelopeOpening ++ rest := by
      rw [hSplit, List.drop_left]
    have hDropRest : decoded.drop (before.length + 3) = rest := by
      rw [← List.drop_drop, hDrop]
      rfl
    have hLength : before.length < decoded.length := by
      rw [hSplit, List.length_append, List.length_append]
      exact Nat.lt_add_of_pos_right (Nat.add_pos_left (by decide) _)
    have hSome := hChecked before.length hLength ⟨rest, hDrop.symm⟩
    obtain ⟨contents, hContents⟩ := Option.isSome_iff_exists.mp hSome
    exact ⟨contents, isEnvelope_iff.mpr ⟨rest, hSplit, hDropRest ▸ hContents⟩⟩

instance (decoded : List Instruction) : Decidable (DataEnvelopes decoded) :=
  decidable_of_iff _ dataEnvelopes_iff.symm

/-- The pushes after the first empty one in tag position, joined. -/
def envelopeBody : List (List UInt8) → List UInt8
  | [] => []
  | [] :: body => body.flatten
  | [_ :: _] => []
  | (_ :: _) :: _ :: rest => envelopeBody rest

/-- The BRC-20 marker stands in a body, ASCII whitespace aside. -/
def HasBrc20 (contents : List (List UInt8)) : Prop :=
  brc20ProtocolMarker <:+: (envelopeBody contents).filter fun byte =>
    !OrdEnvelope.isAsciiWhitespace byte

instance (contents : List (List UInt8)) : Decidable (HasBrc20 contents) :=
  inferInstanceAs (Decidable (brc20ProtocolMarker <:+: _))

-- ---------------------------------------------------------------------------
-- The body scanner
-- ---------------------------------------------------------------------------

/-- The window of an envelope's body as a scanner. -/
def OrdEnvelope.scanner (envelope : OrdEnvelope) : Scanner UInt8 :=
  { window := envelope.bodyWindow, found := envelope.brc20Marker }

theorem OrdEnvelope.scanner_pushByte (envelope : OrdEnvelope) (byte : UInt8) :
    (envelope.pushByte byte).scanner = envelope.scanner.push brc20ProtocolMarker byte := by
  simp only [scanner, pushByte, Scanner.push, slide, Bool.beq_eq_decide_eq, decide_eq_true_eq]
  rfl

/-- The body pushes are scanned as one stream. -/
theorem OrdEnvelope.scanner_pushBodies (pushes : List (List UInt8)) (envelope : OrdEnvelope) :
    (pushes.foldl pushBody envelope).scanner =
      (pushes.flatten.filter fun byte => !isAsciiWhitespace byte).foldl
        (Scanner.push brc20ProtocolMarker) envelope.scanner := by
  induction pushes generalizing envelope with
  | nil => rfl
  | cons push pushes ih =>
    have hPush : ∀ (bytes : List UInt8) (envelope : OrdEnvelope),
        (bytes.foldl pushByte envelope).scanner =
          bytes.foldl (Scanner.push brc20ProtocolMarker) envelope.scanner := by
      intro bytes
      induction bytes with
      | nil => exact fun _ => rfl
      | cons byte bytes ihBytes =>
        intro envelope
        rw [List.foldl_cons, ihBytes, scanner_pushByte, List.foldl_cons]
    rw [List.foldl_cons, ih, pushBody, hPush, List.flatten_cons, List.filter_append,
      List.foldl_append]

/-- The body pushes of an envelope all count. -/
theorem readEnvelope_body (pushes : List (List UInt8)) (after : List Instruction)
    (envelope : OrdEnvelope) :
    readEnvelope true envelope (pushes.map Instruction.pushBytes ++ .op 0x68 :: after) =
      pushes.foldl OrdEnvelope.pushBody envelope := by
  induction pushes generalizing envelope with
  | nil => rfl
  | cons push pushes ih => exact ih _

/-- What is read of an envelope of data pushes. -/
theorem readEnvelope_contents (contents : List (List UInt8)) (after : List Instruction) :
    (readEnvelope false .empty
        (contents.map Instruction.pushBytes ++ .op 0x68 :: after)).brc20Marker = true ↔
      HasBrc20 contents := by
  have hScan : ∀ pushes : List (List UInt8),
      (pushes.foldl OrdEnvelope.pushBody .empty).brc20Marker = true ↔
        brc20ProtocolMarker <:+: pushes.flatten.filter fun byte =>
          !OrdEnvelope.isAsciiWhitespace byte := by
    intro pushes
    have hScanner := OrdEnvelope.scanner_pushBodies pushes .empty
    have hFold := Scanner.foldl_push (show brc20ProtocolMarker ≠ [] by decide)
      (pushes.flatten.filter fun byte => !OrdEnvelope.isAsciiWhitespace byte)
    have hFound := congrArg Scanner.found (hScanner.trans hFold)
    simp only [OrdEnvelope.scanner] at hFound
    rw [hFound, decide_eq_true_eq]
  have hNone : ¬ brc20ProtocolMarker <:+: [] := by decide
  unfold HasBrc20
  fun_induction envelopeBody contents with
  | case1 => simp [readEnvelope, OrdEnvelope.empty, hNone]
  | case2 body =>
    rw [List.map_cons, List.cons_append, readEnvelope, readEnvelope_body]
    exact hScan body
  | case3 => simp [readEnvelope, OrdEnvelope.empty, hNone]
  | case4 byte tag value rest ih =>
    rw [List.map_cons, List.map_cons, List.cons_append, List.cons_append, readEnvelope]
    exact ih

-- ---------------------------------------------------------------------------
-- The first opening
-- ---------------------------------------------------------------------------

theorem findEnvelope_cons (instruction : Instruction) (rest : List Instruction) :
    findEnvelope (instruction :: rest) =
      if envelopeOpening <+: instruction :: rest then
        some (readEnvelope false .empty (rest.drop 2))
      else findEnvelope rest := by
  conv_lhs => unfold findEnvelope
  split
  · next first opcode protocol rest hEq =>
    obtain ⟨rfl, rfl⟩ := List.cons.inj hEq
    have hCond : (first.isEmpty && opcode == 0x63 && protocol == ordProtocolId) = true ↔
        envelopeOpening <+: .pushBytes first :: .op opcode :: .pushBytes protocol :: rest := by
      rw [Bool.and_eq_true, Bool.and_eq_true, List.isEmpty_iff, beq_iff_eq, beq_iff_eq,
        envelopeOpening, List.cons_prefix_cons, List.cons_prefix_cons, List.cons_prefix_cons,
        Instruction.pushBytes.injEq, Instruction.op.injEq, Instruction.pushBytes.injEq, and_assoc]
      exact and_congr eq_comm (and_congr eq_comm (eq_comm.trans (and_iff_left List.nil_prefix).symm))
    simp only [hCond, List.drop_succ_cons, List.drop_zero]
  · next head tail hNot hEq =>
    rw [if_neg]
    · exact congrArg findEnvelope (List.cons.inj hEq).2.symm
    · rintro ⟨after, hAfter⟩
      obtain ⟨hHead, hTail⟩ := List.cons.inj (hAfter.trans hEq)
      exact hNot [] 0x63 ordProtocolId after hHead.symm hTail.symm
  · next hEq => cases hEq

/-- No envelope opens earlier. -/
def IsFirst (decoded before : List Instruction) : Prop :=
  ∀ before' rest', decoded = before' ++ (envelopeOpening ++ rest') →
    before.length ≤ before'.length

/-- **The classifier reads the first envelope**, or there is none. -/
theorem findEnvelope_spec (decoded : List Instruction) :
    (findEnvelope decoded = none ∧ ¬ envelopeOpening <:+: decoded) ∨
      ∃ before rest, decoded = before ++ (envelopeOpening ++ rest) ∧ IsFirst decoded before ∧
        findEnvelope decoded = some (readEnvelope false .empty rest) := by
  induction decoded with
  | nil => exact Or.inl ⟨rfl, by decide⟩
  | cons instruction rest ih =>
    rw [findEnvelope_cons]
    split
    · next hPrefix =>
      obtain ⟨after, hAfter⟩ := hPrefix
      refine Or.inr ⟨[], after, hAfter.symm, fun _ _ _ => Nat.zero_le _, ?_⟩
      have hRest : rest.drop 2 = after := by
        have hTail : [.op 0x63, .pushBytes ordProtocolId] ++ after = rest :=
          (List.cons.inj hAfter).2
        rw [← hTail]
        rfl
      rw [hRest]
    · next hPrefix =>
      rcases ih with ⟨hNone, hNot⟩ | ⟨before, after, hSplit, hFirst, hFound⟩
      · refine Or.inl ⟨hNone, fun hInfix => ?_⟩
        rcases List.infix_cons_iff.mp hInfix with hHead | hTail
        · exact hPrefix hHead
        · exact hNot hTail
      · refine Or.inr ⟨instruction :: before, after, by rw [hSplit, List.cons_append], ?_, hFound⟩
        intro before' rest' hSplit'
        cases before' with
        | nil => exact absurd ⟨rest', hSplit'.symm⟩ hPrefix
        | cons first before' =>
          have hTail := (List.cons.inj hSplit').2
          exact Nat.succ_le_succ (hFirst before' rest' hTail)

-- ---------------------------------------------------------------------------
-- Detection
-- ---------------------------------------------------------------------------

section Crate

variable [BitcoinCrate] {witness : List Script} {input elementIndex : Nat} {leaf : Script}
  {decoded : List Instruction}

theorem witnessEnvelope_eq (hLeaf : inferredTapscript witness = some (elementIndex, leaf))
    (hDecoded : decodedInstructions leaf = some decoded) :
    witnessEnvelope witness = (findEnvelope decoded).map (Prod.mk elementIndex) := by
  rw [witnessEnvelope, hLeaf, Option.bind_some, parseOrdEnvelope, hDecoded, Option.bind_some]

/-- The detections of a witness are its findings. -/
theorem mem_detections_analyzeWitness {finding : Detection} :
    finding ∈ (analyzeWitness .empty (witness, input)).detections ↔
      finding ∈ witnessFindings (witness, input) := by
  have hLength : (witnessFindings (witness, input)).length ≤ maxDetectionEvidence := by
    simp only [witnessFindings, maxDetectionEvidence]
    split
    · split <;> simp
    · split <;> simp
  have hAnalysis : analyzeWitness .empty (witness, input) =
      .ofFindings maxDetectionEvidence (witnessFindings (witness, input)) :=
    analyzeWitness_ofFindings [] (witness, input)
  rw [hAnalysis, DataAnalysis.ofFindings, List.take_of_length_le hLength]

/-- The evidence of the decoded envelope of a leaf script. -/
def inscriptionDetection (input elementIndex : Nat) : Detection where
  label := "inscription"
  carrier := "witness"
  input := some input
  element := some elementIndex
  detection := some "decoded_envelope"

/-- What is to be detected of a leaf script that decodes. -/
structure EnvelopesDetected (witness : List Script) (input elementIndex : Nat)
    (decoded : List Instruction) : Prop where
  inscription : inscriptionDetection input elementIndex ∈
    (analyzeWitness .empty (witness, input)).detections ↔ envelopeOpening <:+: decoded
  brc20 : DataEnvelopes decoded →
    ("brc20" ∈ (analyzeWitness .empty (witness, input)).labels ↔
      ∃ before contents, IsEnvelope decoded before contents ∧ HasBrc20 contents)

/-- Where the envelopes are of data pushes, a marker in the body of any of them comes with
one in the body of the first. -/
def FirstBodySpeaks (decoded : List Instruction) : Prop :=
  DataEnvelopes decoded → ∀ before contents, IsEnvelope decoded before contents →
    IsFirst decoded before →
    (∃ later laterContents, IsEnvelope decoded later laterContents ∧ HasBrc20 laterContents) →
    HasBrc20 contents

omit [BitcoinCrate] in
theorem inscription_ne_brc20 : "inscription" ≠ "brc20" := by decide

/-- An inscription is detected just when the script has an envelope. -/
theorem inscription_detected (hLeaf : inferredTapscript witness = some (elementIndex, leaf))
    (hDecoded : decodedInstructions leaf = some decoded) :
    inscriptionDetection input elementIndex ∈
      (analyzeWitness .empty (witness, input)).detections ↔ envelopeOpening <:+: decoded := by
  rw [mem_detections_analyzeWitness]
  simp only [witnessFindings, witnessEnvelope_eq hLeaf hDecoded]
  rcases findEnvelope_spec decoded with ⟨hNone, hNot⟩ | ⟨before, rest, hSplit, -, hFound⟩
  · rw [hNone]
    refine iff_of_false (fun hMem => ?_) hNot
    simp only [Option.map_none] at hMem
    split at hMem
    · have hEq := List.mem_singleton.mp hMem
      simp [inscriptionDetection] at hEq
    · cases hMem
  · rw [hFound]
    refine iff_of_true List.mem_cons_self ⟨before, rest, ?_⟩
    rw [hSplit, List.append_assoc]

/-- What the code finds: the marker in what it reads of the first envelope. -/
theorem brc20_detected (hLeaf : inferredTapscript witness = some (elementIndex, leaf))
    (hDecoded : decodedInstructions leaf = some decoded) (hData : DataEnvelopes decoded) :
    "brc20" ∈ (analyzeWitness .empty (witness, input)).labels ↔
      ∃ before contents, IsEnvelope decoded before contents ∧ IsFirst decoded before ∧
        HasBrc20 contents := by
  rw [mem_labels_analyzeWitness]
  simp only [witnessFindings, witnessEnvelope_eq hLeaf hDecoded]
  rcases findEnvelope_spec decoded with ⟨hNone, hNot⟩ | ⟨before, rest, hSplit, hFirst, hFound⟩
  · rw [hNone]
    refine iff_of_false ?_ ?_
    · rintro ⟨finding, hMem, hLabel⟩
      simp only [Option.map_none] at hMem
      split at hMem
      · rw [List.mem_singleton.mp hMem] at hLabel
        exact absurd hLabel inscription_ne_brc20
      · cases hMem
    · rintro ⟨before, contents, ⟨after, hSplit⟩, -⟩
      refine hNot ⟨before, contents.map Instruction.pushBytes ++ .op 0x68 :: after, ?_⟩
      rw [hSplit, List.append_assoc]
  · have hRest : ∀ other contents, IsEnvelope decoded other contents → IsFirst decoded other →
        ∃ after, rest = contents.map Instruction.pushBytes ++ .op 0x68 :: after := by
      rintro other contents ⟨after, hOther⟩ hOtherFirst
      have hLength : before.length = other.length :=
        Nat.le_antisymm (hFirst _ _ hOther) (hOtherFirst _ _ hSplit)
      have hTail := (List.append_inj (hSplit.symm.trans hOther) hLength).2
      exact ⟨after, List.append_cancel_left hTail⟩
    rw [hFound]
    simp only [Option.map_some, List.mem_cons, exists_eq_or_imp]
    constructor
    · rintro (hLabel | ⟨finding, hMem, hLabel⟩)
      · exact absurd hLabel (by decide)
      · split at hMem
        · next hMarker =>
          obtain ⟨contents, hEnvelope⟩ := hData before rest hSplit
          obtain ⟨after, hContents⟩ := hRest before contents hEnvelope hFirst
          rw [hContents, readEnvelope_contents] at hMarker
          exact ⟨before, contents, hEnvelope, hFirst, hMarker⟩
        · cases hMem
    · rintro ⟨other, contents, hEnvelope, hOtherFirst, hBrc20⟩
      obtain ⟨after, hContents⟩ := hRest other contents hEnvelope hOtherFirst
      right
      rw [hContents, if_pos ((readEnvelope_contents contents after).mpr hBrc20)]
      exact ⟨_, List.mem_singleton_self _, rfl⟩

/-- A witness that is found to carry BRC-20 is found to carry an inscription. -/
theorem inscription_of_brc20 {indexed : List Script × Nat} {finding : Detection}
    (hMem : finding ∈ witnessFindings indexed) (hLabel : finding.label = "brc20") :
    ∃ finding ∈ witnessFindings indexed, finding.label = "inscription" := by
  obtain ⟨witness, input⟩ := indexed
  simp only [witnessFindings] at hMem ⊢
  split at hMem
  · exact ⟨_, List.mem_cons_self, rfl⟩
  · split at hMem
    · rw [List.mem_singleton.mp hMem] at hLabel
      exact absurd hLabel inscription_ne_brc20
    · cases hMem

/-- A label of the lens comes from a finding. -/
theorem findings_ne_nil_of_label {transaction : Transaction} {label : String}
    (hOther : label ≠ "no_detected_protocol") (h : label ∈ (dataProtocols transaction).labels) :
    ∃ finding ∈ dataFindings transaction, finding.label = label := by
  have hFound : label ∈ dataLabels (analyzeData transaction) := (mem_orderedLabels.mp h).2
  unfold dataLabels at hFound
  split at hFound
  · next hEmpty =>
    rcases BTreeSet.mem_insert_iff.mp hFound with hSame | hFound
    · exact absurd hSame hOther
    · exact mem_labels_analyzeData.mp hFound
  · exact mem_labels_analyzeData.mp hFound

/-- A finding's label is a label of the lens. -/
theorem labels_of_finding {transaction : Transaction} {label : String}
    (hOrder : label ∈ dataLabelOrder)
    (h : ∃ finding ∈ dataFindings transaction, finding.label = label) :
    label ∈ (dataProtocols transaction).labels := by
  have hFound : label ∈ (analyzeData transaction).labels := mem_labels_analyzeData.mpr h
  refine mem_orderedLabels.mpr ⟨hOrder, ?_⟩
  unfold dataLabels
  split
  · exact BTreeSet.mem_insert_iff.mpr (Or.inr hFound)
  · exact hFound

/-- Every transaction labelled `brc20` is labelled `inscription`. -/
theorem inscription_label_of_brc20 {transaction : Transaction}
    (h : "brc20" ∈ (dataProtocols transaction).labels) :
    "inscription" ∈ (dataProtocols transaction).labels := by
  obtain ⟨finding, hMem, hLabel⟩ := findings_ne_nil_of_label (by decide) h
  refine labels_of_finding (by decide) ?_
  rcases List.mem_append.mp hMem with hMem | hMultisig
  · rcases List.mem_append.mp hMem with hWitness | hOpReturn
    · obtain ⟨indexed, hIndexed, hFinding⟩ := List.mem_flatMap.mp hWitness
      obtain ⟨inscription, hInscription, hIs⟩ := inscription_of_brc20 hFinding hLabel
      exact ⟨inscription, List.mem_append_left _ (List.mem_append_left _
        (List.mem_flatMap.mpr ⟨indexed, hIndexed, hInscription⟩)), hIs⟩
    · obtain ⟨indexed, -, hFinding⟩ := List.mem_flatMap.mp hOpReturn
      have hOther := label_of_opReturnFindings hFinding
      rw [hLabel] at hOther
      exact absurd hOther (by decide)
  · rcases label_of_multisigFindings hMultisig with hOther | hOther
    · exact absurd (hOther.symm.trans hLabel) (by decide)
    · exact absurd (hOther.symm.trans hLabel) (by decide)

/-- **The detections are exact just when the first body speaks for the script**: either it holds
the BRC-20 marker or no later body does. -/
theorem envelopes_detected_iff (hLeaf : inferredTapscript witness = some (elementIndex, leaf))
    (hDecoded : decodedInstructions leaf = some decoded) :
    (EnvelopesDetected witness input elementIndex decoded ↔ FirstBodySpeaks decoded) ∧
      ∀ transaction : Transaction, "brc20" ∈ (dataProtocols transaction).labels →
        "inscription" ∈ (dataProtocols transaction).labels := by
  refine ⟨?_, fun _ hBrc20 => inscription_label_of_brc20 hBrc20⟩
  constructor
  · rintro hDetected hData before contents hEnvelope hFirst hSome
    have hLabel := (hDetected.brc20 hData).mpr hSome
    obtain ⟨other, otherContents, ⟨after', hOther⟩, hOtherFirst, hBrc20⟩ :=
      (brc20_detected hLeaf hDecoded hData).mp hLabel
    obtain ⟨after, hSplit⟩ := hEnvelope
    have hLength : before.length = other.length :=
      Nat.le_antisymm (hFirst _ _ hOther) (hOtherFirst _ _ hSplit)
    have hTail := List.append_cancel_left (List.append_inj (hSplit.symm.trans hOther) hLength).2
    rw [← readEnvelope_contents contents after, hTail, readEnvelope_contents]
    exact hBrc20
  · refine fun hSpeaks => ⟨inscription_detected hLeaf hDecoded, fun hData => ?_⟩
    rw [brc20_detected hLeaf hDecoded hData]
    constructor
    · rintro ⟨before, contents, hEnvelope, -, hBrc20⟩
      exact ⟨before, contents, hEnvelope, hBrc20⟩
    · rintro ⟨before, contents, hEnvelope, hBrc20⟩
      rcases findEnvelope_spec decoded with ⟨-, hNot⟩ | ⟨first, rest, hSplit, hFirst, -⟩
      · obtain ⟨after, hSplit⟩ := hEnvelope
        refine absurd ⟨before, contents.map Instruction.pushBytes ++ .op 0x68 :: after, ?_⟩ hNot
        rw [hSplit, List.append_assoc]
      · obtain ⟨firstContents, hFirstEnvelope⟩ := hData first rest hSplit
        exact ⟨first, firstContents, hFirstEnvelope, hFirst,
          hSpeaks hData first firstContents hFirstEnvelope hFirst
            ⟨before, contents, hEnvelope, hBrc20⟩⟩

end Crate

-- ---------------------------------------------------------------------------
-- A second envelope
-- ---------------------------------------------------------------------------

/-- An envelope around a body. -/
def ordEnvelopeScript (body : List UInt8) : Script :=
  ordEnvelopeBytes ++ [0x00, UInt8.ofNat body.length] ++ body ++ [0x68]

/-- A leaf script of two inscriptions, a greeting and a BRC-20 body, and its control
block. -/
def twoEnvelopes : List Script :=
  [ordEnvelopeScript (asciiBytes "hi") ++ ordEnvelopeScript (asciiBytes "\x7b\"p\":\"brc-20\"\x7d"),
    0xc0 :: List.replicate 32 0x02]

/-- The instructions of the two envelopes. -/
def twoEnvelopesDecoded : List Instruction :=
  envelopeOpening ++ [.pushBytes [], .pushBytes (asciiBytes "hi"), .op 0x68] ++ envelopeOpening ++
    [.pushBytes [], .pushBytes (asciiBytes "\x7b\"p\":\"brc-20\"\x7d"), .op 0x68]

theorem inferredTapscript_twoEnvelopes :
    inferredTapscript twoEnvelopes = some (0, twoEnvelopes.headD []) := by decide

theorem decodedInstructions_twoEnvelopes :
    @decodedInstructions (Reference.crate []) (twoEnvelopes.headD []) =
      some twoEnvelopesDecoded := by
  decide

/-- The sample witness: the BRC-20 body stands in the second envelope. -/
theorem envelopes_detected_iff_twoEnvelopes :
    (@EnvelopesDetected (Reference.crate []) twoEnvelopes 0 0 twoEnvelopesDecoded ↔
      FirstBodySpeaks twoEnvelopesDecoded) ∧
    ∀ transaction : Transaction,
      "brc20" ∈ (@dataProtocols (Reference.crate []) transaction).labels →
        "inscription" ∈ (@dataProtocols (Reference.crate []) transaction).labels :=
  @envelopes_detected_iff (Reference.crate []) _ _ _ _ _ inferredTapscript_twoEnvelopes
    decodedInstructions_twoEnvelopes

/-- The second inscription is BRC-20, and `brc20` is not found. -/
theorem envelopes_detected_second_body :
    inferredTapscript twoEnvelopes = some (0, twoEnvelopes.headD []) ∧
    @decodedInstructions (Reference.crate []) (twoEnvelopes.headD []) =
      some twoEnvelopesDecoded ∧
    DataEnvelopes twoEnvelopesDecoded ∧
    ¬ @EnvelopesDetected (Reference.crate []) twoEnvelopes 0 0 twoEnvelopesDecoded := by
  let _ : BitcoinCrate := Reference.crate []
  have hData : DataEnvelopes twoEnvelopesDecoded := by decide +kernel
  refine ⟨inferredTapscript_twoEnvelopes, decodedInstructions_twoEnvelopes, hData,
    fun hDetected => ?_⟩
  have hSecond : IsEnvelope twoEnvelopesDecoded (twoEnvelopesDecoded.take 6)
      [[], asciiBytes "\x7b\"p\":\"brc-20\"\x7d"] := ⟨[], by decide +kernel⟩
  have hLabel := (hDetected.brc20 hData).mpr ⟨_, _, hSecond, by decide +kernel⟩
  obtain ⟨before, contents, hEnvelope, hFirst, hBrc20⟩ := (brc20_detected
    inferredTapscript_twoEnvelopes decodedInstructions_twoEnvelopes hData).mp hLabel
  obtain ⟨rest, hSplit, hContents⟩ := isEnvelope_iff.mp hEnvelope
  have hBefore : before = [] := by
    have hLe : before.length ≤ ([] : List Instruction).length :=
      hFirst [] (twoEnvelopesDecoded.drop 3) (by decide)
    exact List.eq_nil_of_length_eq_zero (Nat.le_zero.mp hLe)
  rw [hBefore, List.nil_append] at hSplit
  have hRest : rest = twoEnvelopesDecoded.drop 3 := by
    rw [hSplit]
    rfl
  have hHi : readContents (twoEnvelopesDecoded.drop 3) = some [[], asciiBytes "hi"] := by
    decide
  rw [hRest, hHi] at hContents
  obtain rfl := Option.some.inj hContents
  revert hBrc20
  decide

end MempoolAtlas.Classifiers
