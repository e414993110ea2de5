import MempoolAtlas.Classifiers.Arc4
import MempoolAtlas.Model.Snapshot

/-!
# Data-protocol fingerprints

The `data_protocols` lens of `src/classifiers.rs`: inscription envelopes in
witnesses, OP_RETURN carriers and bare-multisig carriers.
-/

namespace MempoolAtlas.Classifiers

open BitcoinCrate Model

/-- The bytes of an ASCII text. -/
def asciiBytes (text : String) : List UInt8 := text.toList.map fun c => UInt8.ofNat c.toNat

/-- `OP_FALSE OP_IF` and the push of `ord`, byte by byte. -/
def ordEnvelopeBytes : List UInt8 := [0x00, 0x63, 0x03, 0x6f, 0x72, 0x64]

/-- The identifier of the inscription envelope. -/
def ordProtocolId : List UInt8 := asciiBytes "ord"

/-- What a BRC-20 body contains, white space left out. -/
def brc20ProtocolMarker : List UInt8 := asciiBytes "\"p\":\"brc-20\""

/-- The prefix of a Counterparty message. -/
def cntrprtyPrefix : List UInt8 := asciiBytes "CNTRPRTY"

/-- The prefix of an Omni message. -/
def omniPrefix : List UInt8 := asciiBytes "omni"

/-- The markers of a Stamps payload. -/
def stampMarkers : List String := ["stamp:", "STAMP:", "stamps:", "STAMPS:"]

/-- A key of repeated bytes, which nobody can sign with. -/
def burnKey (first fill last : UInt8) : List UInt8 := first :: List.replicate 31 fill ++ [last]

/-- The burn keys that Stamps outputs are addressed to. -/
def stampsBurnKeys : List (List UInt8) :=
  [burnKey 0x02 0x22 0x22, burnKey 0x03 0x33 0x33, burnKey 0x02 0x02 0x02, burnKey 0x03 0x03 0x02,
    burnKey 0x03 0x03 0x03]

/-- The most outputs that one detection lists. -/
def maxCarrierEvidence : Nat := 8

/-- The most detections that the evidence lists. -/
def maxDetectionEvidence : Nat := 16

/-- The labels of the lens, in the order of precedence. -/
def dataLabelOrder : List String :=
  ["inscription", "brc20", "runes", "stamps", "counterparty", "omni", "other_op_return",
    "no_detected_protocol"]

/-- The offset of the first window of `data` equal to `marker`. -/
def markerOffset (marker : List UInt8) : List UInt8 → Option Nat
  | [] => if marker.isEmpty then some 0 else none
  | byte :: data =>
    if marker.isPrefixOf (byte :: data) then some 0 else (markerOffset marker data).map (· + 1)

/-- Whether a payload has a marker anywhere. -/
def containsMarker (payload marker : List UInt8) : Bool := (markerOffset marker payload).isSome

/-- What was detected: every label, and the evidence up to its limit. -/
structure DataAnalysis where
  labels : BTreeSet String
  detections : List Detection

namespace DataAnalysis

def empty : DataAnalysis := { labels := ∅, detections := [] }

/-- A detection adds its label, and its evidence while there is room. -/
def detect (analysis : DataAnalysis) (evidence : Detection) : DataAnalysis :=
  { labels := analysis.labels.insert evidence.label
    detections :=
      if analysis.detections.length < maxDetectionEvidence then analysis.detections ++ [evidence]
      else analysis.detections }

end DataAnalysis

-- ---------------------------------------------------------------------------
-- Instruction lists
-- ---------------------------------------------------------------------------

section Crate

variable [BitcoinCrate]

/-- Every instruction of a script, or `none` when one does not decode. -/
def decodedInstructions (script : Script) : Option (List Instruction) :=
  (instructions script).mapM fun item => item.toOption

/-- The payload of an `OP_RETURN`: its pushes joined, or the bytes as they are when they do not
decode to pushes. -/
def opReturnPayload (script : Script) : List UInt8 :=
  match script with
  | [] => []
  | _ :: remainder =>
    match decodedInstructions remainder with
    | none => remainder
    | some decoded =>
      match decoded.mapM fun
        | Instruction.pushBytes bytes => some bytes
        | .op _ => none with
      | none => remainder
      | some pushes => pushes.flatten

/-- The number that `OP_1` to `OP_16` push. -/
def pushnum (opcode : UInt8) : Option Nat :=
  if 0x51 ≤ opcode && opcode ≤ 0x60 then some (opcode.toNat - 0x50) else none

/-- `OP_m <key>.. OP_n OP_CHECKMULTISIG`: its threshold and its key slots. -/
def parseBareMultisig (script : Script) : Option (Nat × List (List UInt8)) := do
  let decoded ← decodedInstructions script
  match decoded with
  | .op requiredOpcode :: rest =>
    let required ← pushnum requiredOpcode
    match rest.reverse with
    | .op checkMultisig :: .op totalOpcode :: reversedKeys =>
      if checkMultisig != 0xae then none
      else
        let total ← pushnum totalOpcode
        let keys ← reversedKeys.reverse.mapM fun
          | .pushBytes bytes => some bytes
          | .op _ => none
        if total == keys.length && required ≥ 1 && required ≤ total then some (required, keys)
        else none
    | _ => none
  | _ => none

-- ---------------------------------------------------------------------------
-- Inscription envelopes
-- ---------------------------------------------------------------------------

/-- What an envelope's body has shown: the last bytes, and whether the marker was among them. -/
structure OrdEnvelope where
  bodyWindow : List UInt8
  brc20Marker : Bool
deriving DecidableEq, Repr

namespace OrdEnvelope

def empty : OrdEnvelope := { bodyWindow := [], brc20Marker := false }

/-- White space as `u8::is_ascii_whitespace` has it. -/
def isAsciiWhitespace (byte : UInt8) : Bool :=
  byte == 0x20 || byte == 0x09 || byte == 0x0a || byte == 0x0c || byte == 0x0d

/-- The window moves on by one byte. -/
def pushByte (envelope : OrdEnvelope) (byte : UInt8) : OrdEnvelope :=
  let kept :=
    if envelope.bodyWindow.length == brc20ProtocolMarker.length then envelope.bodyWindow.tail
    else envelope.bodyWindow
  let bodyWindow := kept ++ [byte]
  { bodyWindow, brc20Marker := envelope.brc20Marker || bodyWindow == brc20ProtocolMarker }

/-- A body push, its white space left out. -/
def pushBody (envelope : OrdEnvelope) (bytes : List UInt8) : OrdEnvelope :=
  (bytes.filter fun byte => !isAsciiWhitespace byte).foldl pushByte envelope

end OrdEnvelope

/-- The instructions after `OP_FALSE OP_IF "ord"`: tag and value pushes in
pairs up to the first empty push in tag position, then body pushes. -/
def readEnvelope : Bool → OrdEnvelope → List Instruction → OrdEnvelope
  | _, envelope, [] => envelope
  | _, envelope, .op _ :: _ => envelope
  | true, envelope, .pushBytes bytes :: rest => readEnvelope true (envelope.pushBody bytes) rest
  | false, envelope, .pushBytes [] :: rest => readEnvelope true envelope rest
  | false, envelope, .pushBytes (_ :: _) :: .pushBytes _ :: rest => readEnvelope false envelope rest
  | false, envelope, .pushBytes (_ :: _) :: _ => envelope

/-- The first `OP_FALSE OP_IF "ord"` of an instruction list starts the envelope. -/
def findEnvelope : List Instruction → Option OrdEnvelope
  | .pushBytes first :: .op opcode :: .pushBytes protocol :: rest =>
    if first.isEmpty && opcode == 0x63 && protocol == ordProtocolId then
      some (readEnvelope false OrdEnvelope.empty rest)
    else findEnvelope (.op opcode :: .pushBytes protocol :: rest)
  | _ :: rest => findEnvelope rest
  | [] => none

/-- `parse_ord_envelope`: the first envelope of a script whose instructions all decode. -/
def parseOrdEnvelope (script : Script) : Option OrdEnvelope :=
  (decodedInstructions script).bind findEnvelope

/-- The inferred leaf script of a witness with its element index: the element
before an aligned control block of leaf version `0xc0`, after annex removal. -/
def inferredTapscript (elements : List Script) : Option (Nat × Script) :=
  let stack := match elements.getLast? with
    | some last =>
      if elements.length ≥ 2 && last.head? == some 0x50 then elements.dropLast else elements
    | none => elements
  match stack.reverse with
  | control :: element :: rest =>
    if control.length ≥ 33 && (control.length - 33) % 32 == 0 &&
        (control.head?.map fun leaf => leaf &&& 0xfe) == some 0xc0 then
      some (rest.length, element)
    else none
  | _ => none

/-- The leaf script of one witness. -/
def analyzeWitness (analysis : DataAnalysis) (indexed : List Script × Nat) : DataAnalysis :=
  let (witness, input) := indexed
  let bytePattern (analysis : DataAnalysis) : DataAnalysis :=
    if witness.any fun element => containsMarker element ordEnvelopeBytes then
      analysis.detect { label := "inscription", carrier := "witness", input := some input
                        detection := some "byte_pattern", confidence := some "low" }
    else analysis
  match inferredTapscript witness with
  | some (elementIndex, element) =>
    match parseOrdEnvelope element with
    | some envelope =>
      let analysis := analysis.detect
        { label := "inscription", carrier := "witness", input := some input
          element := some elementIndex, detection := some "decoded_envelope" }
      if envelope.brc20Marker then
        analysis.detect
          { label := "brc20", carrier := "witness", input := some input
            element := some elementIndex, detection := some "decoded_envelope" }
      else analysis
    | none => bytePattern analysis
  | none => bytePattern analysis

-- ---------------------------------------------------------------------------
-- OP_RETURN carriers
-- ---------------------------------------------------------------------------

/-- The txid of the first input in display byte order: least significant byte first of the
internal big-endian number. -/
def arc4Key (transaction : Transaction) : Option (List UInt8) :=
  transaction.input.head?.map fun input =>
    (List.range 32).map fun index =>
      UInt8.ofNat (input.previousOutput.txid.toNat / 2 ^ (8 * index))

/-- Where a Counterparty message starts, after a length byte where one is allowed. -/
def cntrprtyOffset (data : List UInt8) (allowLengthPrefix : Bool) : Option Nat :=
  if cntrprtyPrefix.isPrefixOf data then some 0
  else if allowLengthPrefix && data.length > cntrprtyPrefix.length &&
      (data.drop 1).take cntrprtyPrefix.length == cntrprtyPrefix then some 1
  else none

/-- One output: an `OP_RETURN` carries Runes, Counterparty, Omni or something else. -/
def analyzeOpReturn (key : Option (List UInt8)) (analysis : DataAnalysis)
    (indexed : TxOut × Nat) : DataAnalysis :=
  let (txout, output) := indexed
  let script := txout.scriptPubkey
  if !isOpReturn script then analysis
  else
    let payload := opReturnPayload script
    let isCounterparty := match key with
      | some key => payload.length ≥ cntrprtyPrefix.length &&
          (cntrprtyOffset (Arc4.apply key payload) false).isSome
      | none => false
    if List.isPrefixOf [0x6a, 0x5d] script then
      analysis.detect { label := "runes", carrier := "op_return", output := some output }
    else if isCounterparty then
      analysis.detect { label := "counterparty", carrier := "op_return", output := some output
                        detection := some "arc4_decrypted_prefix"
                        payloadBytes := some payload.length }
    else if omniPrefix.isPrefixOf payload then
      analysis.detect { label := "omni", carrier := "op_return", output := some output
                        detection := some "payload_prefix" }
    else
      analysis.detect { label := "other_op_return", carrier := "op_return", output := some output }

-- ---------------------------------------------------------------------------
-- Bare-multisig carriers
-- ---------------------------------------------------------------------------

/-- A bare multisig output that may carry data. -/
structure MultisigCarrier where
  output : Nat
  required : Nat
  keys : List (List UInt8)
deriving DecidableEq, Repr

/-- Whether a key is one that Stamps outputs are addressed to. -/
def isStampsBurnKey (key : List UInt8) : Bool := stampsBurnKeys.contains key

/-- The payload of a compressed key: without its first and last byte. -/
def compressedKeyPayload (key : List UInt8) : Option (List UInt8) :=
  if key.length != 33 then none else some ((key.drop 1).take 31)

namespace MultisigCarrier

/-- The payload of the first two keys of a carrier. -/
def compressedPairChunk (carrier : MultisigCarrier) : Option (List UInt8) := do
  let first ← carrier.keys[0]? >>= compressedKeyPayload
  let second ← carrier.keys[1]? >>= compressedKeyPayload
  return first ++ second

/-- The payload of a Stamps carrier. -/
def stampsChunk (carrier : MultisigCarrier) : Option (List UInt8) :=
  match carrier.keys with
  | [_, _, third] =>
    if carrier.required != 1 || !isStampsBurnKey third then none else carrier.compressedPairChunk
  | _ => none

/-- The payload of a Counterparty carrier. -/
def counterpartyChunk (carrier : MultisigCarrier) : Option (List UInt8) :=
  match carrier.keys with
  | [_, _, _] => carrier.compressedPairChunk
  | [_, key] =>
    match key with
    | [] => none
    | length :: payload =>
      if length.toNat ≤ payload.length then some (payload.take length.toNat) else none
  | _ => none

end MultisigCarrier

/-- The bare multisig outputs of a transaction, in order. -/
def multisigCarriers (transaction : Transaction) : List MultisigCarrier :=
  transaction.output.zipIdx.filterMap fun (txout, output) =>
    (parseBareMultisig txout.scriptPubkey).map fun (required, keys) => { output, required, keys }

/-- The outputs and payload chunks of the carriers that have one, in output order. -/
def carrierChunks (chunkOf : MultisigCarrier → Option (List UInt8))
    (carriers : List MultisigCarrier) : List (Nat × List UInt8) :=
  carriers.filterMap fun carrier => (chunkOf carrier).map fun chunk => (carrier.output, chunk)

/-- The first marker of a payload, with where it stands. -/
def stampMarker (data : List UInt8) : Option (String × Nat) :=
  stampMarkers.findSome? fun marker =>
    (markerOffset (asciiBytes marker) data).map fun offset => (marker, offset)

/-- The evidence for some outputs, listed up to the limit. -/
def carrierEvidence (outputs : List Nat) (label detection : String) : Detection :=
  { label, carrier := "bare_multisig", outputCount := some outputs.length
    outputs := some (outputs.take maxCarrierEvidence), detection := some detection }

/-- Stamps in the outputs to the burn keys. -/
def detectStamps (carriers : List MultisigCarrier) (key : Option (List UInt8))
    (analysis : DataAnalysis) : DataAnalysis :=
  let found := carrierChunks MultisigCarrier.stampsChunk carriers
  if found.isEmpty then analysis
  else
    match key with
    | none => analysis
    | some key =>
      let data := (found.map Prod.snd).flatten
      let decrypted := Arc4.apply key data
      match stampMarker decrypted with
      | none => analysis
      | some (marker, offset) =>
        let transport := if containsMarker decrypted cntrprtyPrefix then "counterparty" else "pure"
        analysis.detect
          { carrierEvidence (found.map Prod.fst) "stamps" "arc4_decrypted_marker" with
            transport := some transport, marker := some marker, markerOffset := some offset
            payloadBytes := some data.length }

/-- How a stream proves the Counterparty marker, with its decoded form. -/
def counterpartyStream (key : Option (List UInt8)) (data : List UInt8) :
    Option (String × List UInt8) :=
  if data.length < cntrprtyPrefix.length then none
  else if (cntrprtyOffset data false).isSome then some ("plaintext_prefix", data)
  else
    match key with
    | none => none
    | some key =>
      let decrypted := Arc4.apply key data
      if (cntrprtyOffset decrypted true).isNone then none
      else some ("arc4_decrypted_prefix", decrypted)

/-- The streams that may hold a message: all carriers joined, or one alone. -/
def counterpartyCandidates (found : List (Nat × List UInt8)) : List (List Nat × List UInt8) :=
  let joined :=
    if found.length > 1 then [(found.map Prod.fst, (found.map Prod.snd).flatten)] else []
  joined ++ found.map fun (output, chunk) => ([output], chunk)

/-- The first candidate that proves the marker is reported, and no later one. -/
def detectMultisigCounterparty (carriers : List MultisigCarrier) (key : Option (List UInt8))
    (analysis : DataAnalysis) : DataAnalysis :=
  let candidates := counterpartyCandidates (carrierChunks MultisigCarrier.counterpartyChunk carriers)
  match candidates.findSome? fun (outputs, data) =>
      (counterpartyStream key data).map fun stream => (outputs, stream) with
  | none => analysis
  | some (outputs, detection, decoded) =>
    let analysis := analysis.detect
      { carrierEvidence outputs "counterparty" detection with payloadBytes := some decoded.length }
    match stampMarker decoded with
    | none => analysis
    | some (marker, offset) =>
      analysis.detect
        { carrierEvidence outputs "stamps" "counterparty_envelope_marker" with
          transport := some "counterparty", marker := some marker, markerOffset := some offset }

/-- Stamps and Counterparty in the bare multisig outputs. -/
def analyzeMultisigCarriers (transaction : Transaction) (key : Option (List UInt8))
    (analysis : DataAnalysis) : DataAnalysis :=
  let carriers := multisigCarriers transaction
  if carriers.isEmpty then analysis
  else detectMultisigCounterparty carriers key (detectStamps carriers key analysis)

-- ---------------------------------------------------------------------------
-- The lens
-- ---------------------------------------------------------------------------

/-- `analyze_data`: the witnesses, the `OP_RETURN` outputs, then the multisig carriers. -/
def analyzeData (transaction : Transaction) : DataAnalysis :=
  let key := arc4Key transaction
  let witnesses := (transaction.input.map TxIn.witness).zipIdx.foldl analyzeWitness
    DataAnalysis.empty
  let opReturns := transaction.output.zipIdx.foldl (analyzeOpReturn key) witnesses
  analyzeMultisigCarriers transaction key opReturns

end Crate

end MempoolAtlas.Classifiers
