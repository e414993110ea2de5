import MempoolAtlas.Bip110.Verdict
import Mathlib.Data.List.Sort

/-!
# BIP-110 rules 2–7 for one input

`src/bip110/witness.rs`, `script_scan.rs` and `rules/script_rules.rs`. Each
supported input is inspected for every independently provable violation, and
matches are returned in the enforcement client's check order. The bytes of a
script are decoded by the `bitcoin` crate (`BitcoinCrate.instructionIndices`).
-/

namespace MempoolAtlas.Bip110

open BitcoinCrate

-- ---------------------------------------------------------------------------
-- witness.rs
-- ---------------------------------------------------------------------------

/-- A version and a program. -/
structure WitnessProgram where
  version : UInt8
  program : List UInt8
deriving DecidableEq, Repr

/-- `parse_witness_program`: a version opcode and one push of 2 to 40 bytes. -/
def parseWitnessProgram (spk : Script) : Option WitnessProgram :=
  if spk.length < 4 || spk.length > 42 then none
  else
    match spk with
    | op :: push :: program =>
      if op != 0x00 && !(0x51 ≤ op && op ≤ 0x60) then none
      else if push.toNat + 2 != spk.length then none
      else some { version := if op == 0x00 then 0 else op - 0x50, program := program }
    | _ => none

/-- A script path: its arguments, its leaf, its control block and its annex. -/
structure TaprootScriptPath where
  args : List Script
  script : Script
  control : Script
  annex : Option Script
deriving DecidableEq, Repr

/-- The leaf version of the control block. -/
def TaprootScriptPath.leafVersion (sp : TaprootScriptPath) : Option UInt8 :=
  sp.control.head?.map fun b => b &&& taprootLeafMask

/-- How a Taproot output is spent. -/
inductive TaprootSpend where
  | empty
  | keyPath (annex : Option Script)
  | scriptPath (path : TaprootScriptPath)
deriving DecidableEq, Repr

/-- The annex rule of the client: at least two items, the last one non-empty
and starting with the annex tag. -/
def splitAnnex (items : List Script) : List Script × Option Script :=
  match items.getLast? with
  | some last =>
    if items.length ≥ 2 && last.head? == some annexTag then (items.dropLast, some last)
    else (items, none)
  | none => (items, none)

/-- `decompose_taproot`: the annex comes off first. -/
def decomposeTaproot (items : List Script) : TaprootSpend :=
  if items.isEmpty then .empty
  else
    let (stack, annex) := splitAnnex items
    match stack.reverse with
    | control :: script :: args =>
      .scriptPath { args := args.reverse, script := script, control := control, annex := annex }
    | _ => .keyPath annex

-- ---------------------------------------------------------------------------
-- script_scan.rs
-- ---------------------------------------------------------------------------

/-- Whether an opcode is an `OP_SUCCESS`. -/
def isOpSuccess (opcode : UInt8) : Bool :=
  opcode == 80
    || opcode == 98
    || (126 ≤ opcode && opcode ≤ 129)
    || (131 ≤ opcode && opcode ≤ 134)
    || (137 ≤ opcode && opcode ≤ 138)
    || (141 ≤ opcode && opcode ≤ 142)
    || (149 ≤ opcode && opcode ≤ 153)
    || (187 ≤ opcode && opcode ≤ 254)

/-- The items an iterator yields before its first error, where every scan stops. -/
def untilError {α : Type} : List (Except Unit α) → List α
  | .ok a :: rest => a :: untilError rest
  | _ => []

section Crate

variable [BitcoinCrate]

/-- The pushes over a limit, with their places. -/
def pushesOver (script : Script) (limit : Nat) : List (Nat × Nat) :=
  (untilError (instructionIndices script)).filterMap fun
    | (pos, .pushBytes bytes) => if bytes.length > limit then some (pos, bytes.length) else none
    | (_, .op _) => none

/-- The `OP_SUCCESS` opcodes, with their places. -/
def opSuccesses (script : Script) : List (Nat × UInt8) :=
  (untilError (instructionIndices script)).filterMap fun
    | (pos, .op byte) => if isOpSuccess byte then some (pos, byte) else none
    | (_, .pushBytes _) => none

/-- The first `OP_IF` or `OP_NOTIF`. -/
def firstTapscriptOpIf (script : Script) : Option (Nat × UInt8) :=
  (untilError (instructionIndices script)).findSome? fun
    | (pos, .op byte) => if byte == 0x63 || byte == 0x64 then some (pos, byte) else none
    | (_, .pushBytes _) => none

-- ---------------------------------------------------------------------------
-- rules/script_rules.rs
-- ---------------------------------------------------------------------------

/-- A match of a rule with its evidence. -/
def ruleMatch (rule : RuleId) (evidence : Violation) : PrimaryViolation :=
  { rule := rule, evidence := evidence }

/-- A push over the element size. -/
def pushMatch (inputIndex : Nat) (scriptKind : ScriptKind) (opcodePos len : Nat) :
    PrimaryViolation :=
  ruleMatch .elementSize
    (.pushTooLarge inputIndex scriptKind opcodePos len maxScriptElementSizeReduced)

/-- Witness items over the element size. -/
def witnessItemViolations (inputIndex : Nat) (items : List Script) : List PrimaryViolation :=
  (items.zipIdx.filter fun (item, _) => item.length > maxScriptElementSizeReduced).map
    fun (item, itemIndex) =>
      ruleMatch .elementSize
        (.witnessItemTooLarge inputIndex itemIndex item.length maxScriptElementSizeReduced)

/-- Pushes of a script over the element size. -/
def pushViolations (inputIndex : Nat) (scriptKind : ScriptKind) (script : Script) :
    List PrimaryViolation :=
  (pushesOver script maxScriptElementSizeReduced).map fun (opcodePos, len) =>
    pushMatch inputIndex scriptKind opcodePos len

/-- `none` is the source's `unreachable!` arm. -/
def violationOpcodePos : Violation → Option Nat
  | .pushTooLarge _ _ opcodePos _ _ => some opcodePos
  | .opSuccessPresent _ _ opcodePos => some opcodePos
  | .tapscriptOpIf _ _ opcodePos => some opcodePos
  | _ => none

/-- A spend without a witness program or script hash. -/
def evaluateLegacySpend (inputIndex : Nat) (txin : TxIn) (spk : Script) : List PrimaryViolation :=
  pushViolations inputIndex .scriptSig txin.scriptSig ++
    pushViolations inputIndex .scriptPubKey spk

/-- The match of an annex. -/
def annexMatch (inputIndex : Nat) (annex : Script) : PrimaryViolation :=
  ruleMatch .taprootAnnex (.taprootAnnexPresent inputIndex annex.length)

/-- The script checks once the leaf is known to be a Tapscript: every
`OP_SUCCESS`, then the arguments, then oversized pushes and the first
conditional merged by opcode position. -/
def evaluateTapscript (inputIndex : Nat) (sp : TaprootScriptPath) : List PrimaryViolation :=
  let successes := opSuccesses sp.script
  let pushes := (pushViolations inputIndex .tapscript sp.script).map fun m =>
    ((violationOpcodePos m.evidence).getD 0, m)
  let opIf :=
    if successes.isEmpty then
      (firstTapscriptOpIf sp.script).toList.map fun (opcodePos, opcode) =>
        (opcodePos, ruleMatch .tapscriptOpIf (.tapscriptOpIf inputIndex opcode opcodePos))
    else []
  let scriptMatches := (pushes ++ opIf).insertionSort fun a b => a.1 ≤ b.1
  (successes.map fun (opcodePos, opcode) =>
      ruleMatch .opSuccess (.opSuccessPresent inputIndex opcode opcodePos)) ++
    witnessItemViolations inputIndex sp.args ++
    scriptMatches.map Prod.snd

/-- A Taproot script path: its control block, its annex and its leaf. -/
def evaluateTaprootScriptPath (inputIndex : Nat) (sp : TaprootScriptPath) :
    List PrimaryViolation :=
  let annexMatches := sp.annex.toList.map (annexMatch inputIndex)
  let clen := sp.control.length
  let aligned := taprootControlBaseSize ≤ clen &&
    (clen - taprootControlBaseSize) % taprootControlNodeSize == 0
  if !aligned then annexMatches
  else
    let controlMatches :=
      if clen > taprootControlMaxSizeReduced then
        [ruleMatch .controlBlockSize (.controlBlockTooLarge inputIndex clen
          (some ((clen - taprootControlBaseSize) / taprootControlNodeSize))
          taprootControlMaxSizeReduced)]
      else []
    match sp.leafVersion with
    -- an aligned control block has a leaf byte, so the source's `expect` holds
    | none => annexMatches ++ controlMatches
    | some leafVersion =>
      if leafVersion != taprootLeafTapscript then
        annexMatches ++ controlMatches ++
          [ruleMatch .undefinedVersion (.undefinedTapleafVersion inputIndex leafVersion)]
      else annexMatches ++ controlMatches ++ evaluateTapscript inputIndex sp

/-- A Taproot spend, by its path. -/
def evaluateTaproot (inputIndex : Nat) (items : List Script) : List PrimaryViolation :=
  match decomposeTaproot items with
  | .empty => []
  | .keyPath annex => annex.toList.map (annexMatch inputIndex)
  | .scriptPath sp => evaluateTaprootScriptPath inputIndex sp

/-- A P2WSH spend: its items and its script. -/
def evaluateP2wsh (inputIndex : Nat) (items : List Script) : List PrimaryViolation :=
  match items.getLast? with
  | none => []
  | some script =>
    witnessItemViolations inputIndex items.dropLast ++
      pushViolations inputIndex .witnessScript script

/-- The match of an undefined witness version. -/
def undefinedWitnessMatch (inputIndex : Nat) (version : UInt8) (isP2sh nonEmptyP2a : Bool) :
    PrimaryViolation :=
  ruleMatch .undefinedVersion (.undefinedWitnessVersion inputIndex version isP2sh nonEmptyP2a)

/-- The spend of a witness program, by its version. -/
def evaluateWitnessSpend (inputIndex : Nat) (program : List UInt8) (version : UInt8)
    (items : List Script) (isP2sh : Bool) : List PrimaryViolation :=
  if version == 0 then
    if program.length == 32 then evaluateP2wsh inputIndex items
    else if program.length == 20 then witnessItemViolations inputIndex items
    else []
  else if version == 1 && program.length == 32 && !isP2sh then evaluateTaproot inputIndex items
  else if version == 1 && !isP2sh && program == [0x4e, 0x73] then
    if items.isEmpty then [] else [undefinedWitnessMatch inputIndex 1 false true]
  else [undefinedWitnessMatch inputIndex version isP2sh false]

/-- Whether an instruction only pushes. -/
def isPushOnly : Instruction → Bool
  | .pushBytes _ => true
  | .op opcode => opcode == 0x4f || (0x51 ≤ opcode && opcode ≤ 0x60)

/-- The instructions of a push-only script; `none` when one does not decode or
is not a push. -/
def pushOnlyInstructions : List (Except Unit (Nat × Instruction)) → Option (List (Nat × Instruction))
  | [] => some []
  | .ok item :: rest =>
    if isPushOnly item.2 then (pushOnlyInstructions rest).map (item :: ·) else none
  | .error _ :: _ => none

/-- The bytes `CScript() << redeemScript` puts before the pushed data, or `none`
from `2^32` bytes on. -/
def canonicalPushHeader (len : Nat) : Option (List UInt8) :=
  if len < 0x4c then some [UInt8.ofNat len]
  else if len ≤ 0xff then some [0x4c, UInt8.ofNat len]
  else if len ≤ 0xffff then some [0x4d, UInt8.ofNat len, UInt8.ofNat (len / 2 ^ 8)]
  else if len ≤ 0xffffffff then
    some [0x4e, UInt8.ofNat len, UInt8.ofNat (len / 2 ^ 8), UInt8.ofNat (len / 2 ^ 16),
      UInt8.ofNat (len / 2 ^ 24)]
  else none

/-- Whether a `scriptSig` is the canonical push of the redeem script. -/
def isCanonicalSinglePush (scriptSig redeemScript : Script) : Bool :=
  match canonicalPushHeader redeemScript.length with
  | none => false
  | some header =>
    scriptSig.length == header.length + redeemScript.length &&
      scriptSig.take header.length == header && scriptSig.drop header.length == redeemScript

/-- Oversized byte pushes of the scriptSig before its final redeemScript item. -/
def scriptSigItemMatches (inputIndex : Nat) (instructions : List (Nat × Instruction)) :
    List PrimaryViolation :=
  instructions.filterMap fun
    | (opcodePos, .pushBytes bytes) =>
      if bytes.length > maxScriptElementSizeReduced then
        some (pushMatch inputIndex .scriptSig opcodePos bytes.length)
      else none
    | _ => none

/-- A P2SH spend, with the program its redeem script may nest. -/
def evaluateP2shSpend (inputIndex : Nat) (txin : TxIn) (witnessItems : List Script) :
    List PrimaryViolation :=
  match pushOnlyInstructions (instructionIndices txin.scriptSig) with
  | none => []
  | some instructions =>
    match instructions.getLast? with
    | none => []
    | some (_, .op _) => scriptSigItemMatches inputIndex instructions.dropLast
    | some (_, .pushBytes redeemScript) =>
      let stackMatches := scriptSigItemMatches inputIndex instructions.dropLast
      let redeemMatches := pushViolations inputIndex .redeemScript redeemScript
      let nestedMatches :=
        if instructions.length == 1 && isCanonicalSinglePush txin.scriptSig redeemScript then
          match parseWitnessProgram redeemScript with
          | some wp => evaluateWitnessSpend inputIndex wp.program wp.version witnessItems true
          | none => []
        else []
      stackMatches ++ redeemMatches ++ nestedMatches

/-- Rules 2–7 for one non-coinbase input and the scriptPubKey it spends. -/
def evaluateInput (inputIndex : Nat) (txin : TxIn) (spk : Script) : List PrimaryViolation :=
  if isP2sh spk then evaluateP2shSpend inputIndex txin txin.witness
  else
    match parseWitnessProgram spk with
    | some wp => evaluateWitnessSpend inputIndex wp.program wp.version txin.witness false
    | none => evaluateLegacySpend inputIndex txin spk

end Crate

end MempoolAtlas.Bip110
