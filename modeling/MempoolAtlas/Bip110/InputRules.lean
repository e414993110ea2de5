import MempoolAtlas.Bip110.Scripts
import MempoolAtlas.Bitcoin.Reference

/-!
# The per-input rules, shape by shape

What the enforcement client reports for one spent output, as a relation with a
constructor for each shape of spend, over the parts a spend is made of: a
script's pushes, a witness program, a stack with its annex removed, a control
block of `33 + 32 * depth` bytes. `evaluate_input` is shown to compute exactly
this relation. The one thing assumed of the instruction decoder is that it
yields its items at increasing positions.

## Results

* `evaluateTapscript_eq` — the order in which a Tapscript's matches are reported.
* `nestedMatches_eq`, `inputMatches_eq` — the rules of each shape are what the code finds.
* `evaluateInput_specification` — `evaluate_input` is the per-input specification.
-/

namespace MempoolAtlas.Bip110

open BitcoinCrate

-- ---------------------------------------------------------------------------
-- Byte-level shapes
-- ---------------------------------------------------------------------------

/-- The shortest push of `data`: an opcode that is the length itself, or one of
the three with a length field. -/
inductive CanonicalPush (data : Script) : Script → Prop
  | direct (hLen : data.length < 0x4c) : CanonicalPush data (lengthBytes 1 data.length ++ data)
  | pushData1 (hMin : 0x4c ≤ data.length) (hLen : data.length < 2 ^ 8) :
      CanonicalPush data (0x4c :: lengthBytes 1 data.length ++ data)
  | pushData2 (hMin : 2 ^ 8 ≤ data.length) (hLen : data.length < 2 ^ 16) :
      CanonicalPush data (0x4d :: lengthBytes 2 data.length ++ data)
  | pushData4 (hMin : 2 ^ 16 ≤ data.length) (hLen : data.length < 2 ^ 32) :
      CanonicalPush data (0x4e :: lengthBytes 4 data.length ++ data)

/-- A version opcode and one direct push of 2 to 40 bytes. -/
inductive IsWitnessProgram : Script → UInt8 → List UInt8 → Prop
  | mk {version : UInt8} {program : List UInt8} (hVersion : version ≤ 16)
      (hMin : 2 ≤ program.length) (hMax : program.length ≤ 40) :
      IsWitnessProgram ((if version = 0 then 0x00 else 0x50 + version) ::
        UInt8.ofNat program.length :: program) version program

/-- A witness stack with its annex taken off: the last of at least two items,
when it starts with the annex tag. -/
inductive AnnexRemoved : List Script → List Script → Option Script → Prop
  | tagged {stack : List Script} {annex : Script} (hStack : stack ≠ [])
      (hTag : annex.head? = some 0x50) : AnnexRemoved (stack ++ [annex]) stack (some annex)
  | plain {stack : List Script}
      (hPlain : ∀ rest last, stack = rest ++ [last] → rest ≠ [] → last.head? ≠ some 0x50) :
      AnnexRemoved stack stack none

/-- A control block with `depth` Merkle nodes. -/
def IsControl (control : Script) (depth : Nat) : Prop := control.length = 33 + 32 * depth

/-- A push of more bytes than the reduced limit allows. -/
def oversizePush (input : Nat) (kind : ScriptKind) : Nat × Instruction → Option PrimaryViolation
  | (position, .pushBytes bytes) =>
    if bytes.length > 256 then
      some { rule := .elementSize, evidence := .pushTooLarge input kind position bytes.length 256 }
    else none
  | (_, .op _) => none

/-- An oversized item with its index in the stack. -/
def oversizeItem (input : Nat) (indexed : Script × Nat) : Option PrimaryViolation :=
  if indexed.1.length > 256 then
    some {
      rule := .elementSize
      evidence := .witnessItemTooLarge input indexed.2 indexed.1.length 256 }
  else none

/-- Witness items over the element size. -/
def oversizeItems (input : Nat) (items : List Script) : List PrimaryViolation :=
  items.zipIdx.filterMap (oversizeItem input)

/-- An `OP_SUCCESS` with its place. -/
def successOpcode (input : Nat) : Nat × Instruction → Option PrimaryViolation
  | (position, .op opcode) =>
    if isOpSuccess opcode then
      some { rule := .opSuccess, evidence := .opSuccessPresent input opcode position }
    else none
  | (_, .pushBytes _) => none

/-- One pass over the instructions of a Tapscript that is executed: oversized
pushes, and the first conditional while `watching`. -/
def executed (input : Nat) : Bool → List (Nat × Instruction) → List PrimaryViolation
  | _, [] => []
  | watching, (position, .pushBytes bytes) :: rest =>
    (oversizePush input .tapscript (position, .pushBytes bytes)).toList ++
      executed input watching rest
  | watching, (position, .op opcode) :: rest =>
    if watching ∧ (opcode = 0x63 ∨ opcode = 0x64) then
      { rule := .tapscriptOpIf, evidence := .tapscriptOpIf input opcode position } ::
        executed input false rest
    else executed input watching rest

section Crate

variable [BitcoinCrate]

/-- The instructions of a script up to the first that does not decode. -/
def instructionsOf (script : Script) : List (Nat × Instruction) :=
  untilError (instructionIndices script)

/-- Pushes over the element size. -/
def oversizePushes (input : Nat) (kind : ScriptKind) (script : Script) : List PrimaryViolation :=
  (instructionsOf script).filterMap (oversizePush input kind)

/-- The `OP_SUCCESS` opcodes of a script. -/
def successOpcodes (input : Nat) (script : Script) : List PrimaryViolation :=
  (instructionsOf script).filterMap (successOpcode input)

/-- The instruction decoder moves forward. -/
def PositionsIncrease : Prop :=
  ∀ script : Script, (instructionsOf script).Pairwise fun a b => a.1 < b.1

-- ---------------------------------------------------------------------------
-- Spends
-- ---------------------------------------------------------------------------

/-- What follows the annex in a script-path spend. -/
inductive LeafMatches (input : Nat) (args : List Script) (script control : Script) :
    List PrimaryViolation → Prop
  | misaligned (hControl : ∀ depth, ¬ IsControl control depth) :
      LeafMatches input args script control []
  | otherLeaf {depth : Nat} {first : UInt8} (hControl : IsControl control depth)
      (hFirst : control.head? = some first) (hLeaf : first &&& 0xfe ≠ 0xc0) :
      LeafMatches input args script control
        ((if depth > 7 then [{
            rule := .controlBlockSize
            evidence := .controlBlockTooLarge input control.length (some depth) 257 }] else []) ++
          [{ rule := .undefinedVersion
             evidence := .undefinedTapleafVersion input (first &&& 0xfe) }])
  | tapscript {depth : Nat} {first : UInt8} (hControl : IsControl control depth)
      (hFirst : control.head? = some first) (hLeaf : first &&& 0xfe = 0xc0) :
      LeafMatches input args script control
        ((if depth > 7 then [{
            rule := .controlBlockSize
            evidence := .controlBlockTooLarge input control.length (some depth) 257 }] else []) ++
          successOpcodes input script ++ oversizeItems input args ++
          executed input (successOpcodes input script).isEmpty (instructionsOf script))

omit [BitcoinCrate] in
/-- The match of an annex. -/
def annexMatches (input : Nat) (annex : Option Script) : List PrimaryViolation :=
  annex.toList.map fun annex =>
    { rule := .taprootAnnex, evidence := .taprootAnnexPresent input annex.length }

/-- What a Taproot spend matches, by the shape of its stack. -/
inductive TaprootMatches (input : Nat) : List Script → List PrimaryViolation → Prop
  | empty : TaprootMatches input [] []
  | keyPath {items : List Script} {signature : Script} {annex : Option Script}
      (hAnnex : AnnexRemoved items [signature] annex) :
      TaprootMatches input items (annexMatches input annex)
  | scriptPath {items args : List Script} {script control : Script} {annex : Option Script}
      {found : List PrimaryViolation}
      (hAnnex : AnnexRemoved items (args ++ [script, control]) annex)
      (hLeaf : LeafMatches input args script control found) :
      TaprootMatches input items (annexMatches input annex ++ found)

/-- A version whose spends the client has no rules for. -/
def upgradable (input : Nat) (version : UInt8) (isP2sh p2aNonEmpty : Bool) : PrimaryViolation where
  rule := .undefinedVersion
  evidence := .undefinedWitnessVersion input version isP2sh p2aNonEmpty

/-- The spend of a witness program, native or nested in P2SH. -/
inductive WitnessMatches (input : Nat) (isP2sh : Bool) :
    UInt8 → List UInt8 → List Script → List PrimaryViolation → Prop
  | p2wshEmpty {program : List UInt8} (hLen : program.length = 32) :
      WitnessMatches input isP2sh 0 program [] []
  | p2wsh {program : List UInt8} {args : List Script} {script : Script}
      (hLen : program.length = 32) :
      WitnessMatches input isP2sh 0 program (args ++ [script])
        (oversizeItems input args ++ oversizePushes input .witnessScript script)
  | p2wpkh {program : List UInt8} {items : List Script} (hLen : program.length = 20) :
      WitnessMatches input isP2sh 0 program items (oversizeItems input items)
  | otherV0 {program : List UInt8} {items : List Script} (hScript : program.length ≠ 32)
      (hKey : program.length ≠ 20) : WitnessMatches input isP2sh 0 program items []
  | taproot {program : List UInt8} {items : List Script} {found : List PrimaryViolation}
      (hNative : isP2sh = false) (hLen : program.length = 32)
      (hFound : TaprootMatches input items found) : WitnessMatches input isP2sh 1 program items found
  | p2aEmpty (hNative : isP2sh = false) : WitnessMatches input isP2sh 1 [0x4e, 0x73] [] []
  | p2aNonEmpty {items : List Script} (hNative : isP2sh = false) (hItems : items ≠ []) :
      WitnessMatches input isP2sh 1 [0x4e, 0x73] items [upgradable input 1 false true]
  | undefined {version : UInt8} {program : List UInt8} {items : List Script}
      (hVersion : version ≠ 0)
      (hOther : ¬ (version = 1 ∧ isP2sh = false ∧
        (program.length = 32 ∨ program = [0x4e, 0x73]))) :
      WitnessMatches input isP2sh version program items [upgradable input version isP2sh false]

/-- The nested spend, reached only through one canonical push of a witness program. -/
inductive NestedMatches (input : Nat) (scriptSig : Script) (before : List (Nat × Instruction))
    (redeemScript : Script) (items : List Script) : List PrimaryViolation → Prop
  | nested {version : UInt8} {program : List UInt8} {found : List PrimaryViolation}
      (hSingle : before = []) (hPush : CanonicalPush redeemScript scriptSig)
      (hProgram : IsWitnessProgram redeemScript version program)
      (hFound : WitnessMatches input true version program items found) :
      NestedMatches input scriptSig before redeemScript items found
  | none (hNone : ¬ (before = [] ∧ CanonicalPush redeemScript scriptSig ∧
        ∃ version program, IsWitnessProgram redeemScript version program)) :
      NestedMatches input scriptSig before redeemScript items []

/-- A scriptSig that decodes to these instructions, all of them pushes. -/
def PushOnly (scriptSig : Script) (instructions : List (Nat × Instruction)) : Prop :=
  instructionIndices scriptSig = instructions.map .ok ∧
    ∀ item ∈ instructions, isPushOnly item.2 = true

/-- What a P2SH spend matches, by its redeem script. -/
inductive P2shMatches (input : Nat) (txin : TxIn) : List PrimaryViolation → Prop
  | notPushOnly (h : ∀ instructions, ¬ PushOnly txin.scriptSig instructions) :
      P2shMatches input txin []
  | empty (h : PushOnly txin.scriptSig []) : P2shMatches input txin []
  | numeric {before : List (Nat × Instruction)} {position : Nat} {opcode : UInt8}
      (h : PushOnly txin.scriptSig (before ++ [(position, .op opcode)])) :
      P2shMatches input txin (before.filterMap (oversizePush input .scriptSig))
  | redeem {before : List (Nat × Instruction)} {position : Nat} {redeemScript : Script}
      {nested : List PrimaryViolation}
      (h : PushOnly txin.scriptSig (before ++ [(position, .pushBytes redeemScript)]))
      (hNested : NestedMatches input txin.scriptSig before redeemScript txin.witness nested) :
      P2shMatches input txin (before.filterMap (oversizePush input .scriptSig) ++
        oversizePushes input .redeemScript redeemScript ++ nested)

/-- **What the client reports for one input.** -/
inductive InputMatches (input : Nat) (txin : TxIn) (spk : Script) : List PrimaryViolation → Prop
  | p2sh {found : List PrimaryViolation} (hP2sh : isP2sh spk = true)
      (hFound : P2shMatches input txin found) : InputMatches input txin spk found
  | native {version : UInt8} {program : List UInt8} {found : List PrimaryViolation}
      (hNot : isP2sh spk = false) (hProgram : IsWitnessProgram spk version program)
      (hFound : WitnessMatches input false version program txin.witness found) :
      InputMatches input txin spk found
  | legacy (hNot : isP2sh spk = false)
      (hNone : ∀ version program, ¬ IsWitnessProgram spk version program) :
      InputMatches input txin spk (oversizePushes input .scriptSig txin.scriptSig ++
        oversizePushes input .scriptPubKey spk)

-- ---------------------------------------------------------------------------
-- Items and pushes
-- ---------------------------------------------------------------------------

omit [BitcoinCrate] in
theorem oversizeItems_eq (input : Nat) (items : List Script) :
    oversizeItems input items = witnessItemViolations input items := by
  unfold oversizeItems witnessItemViolations
  rw [← List.filterMap_eq_map, List.filterMap_filter]
  apply List.filterMap_congr
  rintro ⟨item, index⟩ -
  by_cases hLen : item.length > 256
  · simp [oversizeItem, maxScriptElementSizeReduced, hLen, ruleMatch]
  · simp [oversizeItem, maxScriptElementSizeReduced, hLen]

theorem oversizePushes_eq (input : Nat) (kind : ScriptKind) (script : Script) :
    oversizePushes input kind script = pushViolations input kind script := by
  unfold oversizePushes pushViolations pushesOver instructionsOf
  rw [List.map_filterMap]
  apply List.filterMap_congr
  rintro ⟨position, instruction⟩ -
  cases instruction with
  | op opcode => rfl
  | pushBytes bytes =>
    by_cases hLen : bytes.length > 256
    · simp [oversizePush, maxScriptElementSizeReduced, hLen, pushMatch, ruleMatch]
    · simp [oversizePush, maxScriptElementSizeReduced, hLen]

omit [BitcoinCrate] in
theorem oversizeScriptSig_eq (input : Nat) (instructions : List (Nat × Instruction)) :
    instructions.filterMap (oversizePush input .scriptSig) =
      scriptSigItemMatches input instructions := by
  unfold scriptSigItemMatches
  apply List.filterMap_congr
  rintro ⟨position, instruction⟩ -
  cases instruction with
  | op opcode => rfl
  | pushBytes bytes => rfl

theorem successOpcodes_eq (input : Nat) (script : Script) :
    successOpcodes input script = (opSuccesses script).map fun (position, opcode) =>
      ruleMatch .opSuccess (.opSuccessPresent input opcode position) := by
  unfold successOpcodes opSuccesses instructionsOf
  rw [List.map_filterMap]
  apply List.filterMap_congr
  rintro ⟨position, instruction⟩ -
  cases instruction with
  | pushBytes bytes => rfl
  | op opcode => cases hSuccess : isOpSuccess opcode <;> simp [successOpcode, hSuccess, ruleMatch]

-- ---------------------------------------------------------------------------
-- The merged order of a Tapscript
-- ---------------------------------------------------------------------------

omit [BitcoinCrate] in
/-- `executed` with the position of each match. -/
def executedAt (input : Nat) : Bool → List (Nat × Instruction) → List (Nat × PrimaryViolation)
  | _, [] => []
  | watching, (position, .pushBytes bytes) :: rest =>
    ((oversizePush input .tapscript (position, .pushBytes bytes)).toList.map fun m =>
      (position, m)) ++ executedAt input watching rest
  | watching, (position, .op opcode) :: rest =>
    if watching ∧ (opcode = 0x63 ∨ opcode = 0x64) then
      (position, { rule := .tapscriptOpIf, evidence := .tapscriptOpIf input opcode position }) ::
        executedAt input false rest
    else executedAt input watching rest

omit [BitcoinCrate] in
theorem executedAt_map (input : Nat) : ∀ (watching : Bool) (instructions : List (Nat × Instruction)),
    (executedAt input watching instructions).map Prod.snd = executed input watching instructions
  | _, [] => rfl
  | watching, (position, .pushBytes bytes) :: rest => by
    rw [executedAt, executed, List.map_append, List.map_map, executedAt_map input watching rest]
    congr 1
    exact List.map_id _
  | watching, (position, .op opcode) :: rest => by
    unfold executedAt executed
    split
    · rw [List.map_cons, executedAt_map input false rest]
    · exact executedAt_map input watching rest

omit [BitcoinCrate] in
/-- A match stands at the position of its instruction. -/
theorem executedAt_position (input : Nat) : ∀ (watching : Bool)
    (instructions : List (Nat × Instruction)),
    ∀ m ∈ executedAt input watching instructions, ∃ item ∈ instructions, item.1 = m.1
  | _, [], m, hMem => by simp [executedAt] at hMem
  | watching, (position, .pushBytes bytes) :: rest, m, hMem => by
    rw [executedAt, List.mem_append, List.mem_map] at hMem
    rcases hMem with ⟨found, -, rfl⟩ | hMem
    · exact ⟨_, List.mem_cons_self, rfl⟩
    · obtain ⟨item, hItem, hEq⟩ := executedAt_position input watching rest m hMem
      exact ⟨item, List.mem_cons_of_mem _ hItem, hEq⟩
  | watching, (position, .op opcode) :: rest, m, hMem => by
    unfold executedAt at hMem
    split at hMem
    · rcases List.mem_cons.mp hMem with rfl | hMem
      · exact ⟨_, List.mem_cons_self, rfl⟩
      · obtain ⟨item, hItem, hEq⟩ := executedAt_position input false rest m hMem
        exact ⟨item, List.mem_cons_of_mem _ hItem, hEq⟩
    · obtain ⟨item, hItem, hEq⟩ := executedAt_position input watching rest m hMem
      exact ⟨item, List.mem_cons_of_mem _ hItem, hEq⟩

omit [BitcoinCrate] in
theorem executedAt_sorted (input : Nat) : ∀ (watching : Bool)
    (instructions : List (Nat × Instruction)), (instructions.Pairwise fun a b => a.1 < b.1) →
    (executedAt input watching instructions).Pairwise fun a b => a.1 < b.1
  | _, [], _ => List.Pairwise.nil
  | watching, (position, .pushBytes bytes) :: rest, hSorted => by
    obtain ⟨hFirst, hRest⟩ := List.pairwise_cons.mp hSorted
    have hTail := executedAt_sorted input watching rest hRest
    rw [executedAt, List.pairwise_append]
    refine ⟨?_, hTail, fun a ha b hb => ?_⟩
    · cases oversizePush input .tapscript (position, .pushBytes bytes) <;> simp
    · obtain ⟨found, -, rfl⟩ := List.mem_map.mp ha
      obtain ⟨item, hItem, hEq⟩ := executedAt_position input watching rest b hb
      rw [← hEq]
      exact hFirst item hItem
  | watching, (position, .op opcode) :: rest, hSorted => by
    obtain ⟨hFirst, hRest⟩ := List.pairwise_cons.mp hSorted
    unfold executedAt
    split
    · refine List.pairwise_cons.mpr ⟨fun b hb => ?_, executedAt_sorted input false rest hRest⟩
      obtain ⟨item, hItem, hEq⟩ := executedAt_position input false rest b hb
      rw [← hEq]
      exact hFirst item hItem
    · exact executedAt_sorted input watching rest hRest

omit [BitcoinCrate] in
/-- The first conditional of an instruction list, as the scan finds it. -/
def firstConditional (instructions : List (Nat × Instruction)) : Option (Nat × UInt8) :=
  instructions.findSome? fun
    | (pos, .op byte) => if byte == 0x63 || byte == 0x64 then some (pos, byte) else none
    | (_, .pushBytes _) => none

omit [BitcoinCrate] in
theorem executedAt_perm (input : Nat) : ∀ (watching : Bool)
    (instructions : List (Nat × Instruction)),
    (executedAt input watching instructions).Perm
      ((instructions.filterMap fun item =>
          (oversizePush input .tapscript item).map fun m => (item.1, m)) ++
        if watching then (firstConditional instructions).toList.map fun (position, opcode) =>
          (position, { rule := .tapscriptOpIf, evidence := .tapscriptOpIf input opcode position })
        else [])
  | watching, [] => by cases watching <;> exact List.Perm.refl _
  | watching, (position, .pushBytes bytes) :: rest => by
    have hRest := executedAt_perm input watching rest
    have hConditional : firstConditional ((position, .pushBytes bytes) :: rest) =
        firstConditional rest := rfl
    rw [executedAt, List.filterMap_cons, hConditional]
    cases oversizePush input .tapscript (position, .pushBytes bytes) with
    | none => exact hRest
    | some found => exact hRest.cons _
  | watching, (position, .op opcode) :: rest => by
    have hPushes : ((position, Instruction.op opcode) :: rest).filterMap (fun item =>
        (oversizePush input .tapscript item).map fun m => (item.1, m)) =
        rest.filterMap fun item =>
          (oversizePush input .tapscript item).map fun m => (item.1, m) := rfl
    unfold executedAt
    rw [hPushes]
    split
    · next hWatch =>
      have hFound : firstConditional ((position, .op opcode) :: rest) = some (position, opcode) := by
        unfold firstConditional
        rw [List.findSome?_cons]
        simp [hWatch.2]
      have hRest := executedAt_perm input false rest
      rw [if_neg (by simp), List.append_nil] at hRest
      rw [if_pos hWatch.1, hFound]
      exact (hRest.cons _).trans (List.perm_append_singleton _ _).symm
    · next hNot =>
      have hRest := executedAt_perm input watching rest
      cases watching with
      | false => exact hRest
      | true =>
        have hOpcode : ¬ (opcode = 0x63 ∨ opcode = 0x64) := fun h => hNot ⟨rfl, h⟩
        have hSkip : firstConditional ((position, .op opcode) :: rest) = firstConditional rest := by
          unfold firstConditional
          rw [List.findSome?_cons]
          simp [not_or.mp hOpcode]
        rw [hSkip]
        exact hRest

omit [BitcoinCrate] in
/-- A sort by position is the order of the script when no two positions agree. -/
theorem sorted_eq_of_perm {found executed : List (Nat × PrimaryViolation)}
    (hPerm : executed.Perm found) (hSorted : executed.Pairwise fun a b => a.1 < b.1) :
    found.insertionSort (fun a b => a.1 ≤ b.1) = executed := by
  let order : Nat × PrimaryViolation → Nat × PrimaryViolation → Prop := fun a b => a.1 ≤ b.1
  have hTotal : Std.Total order := ⟨fun a b => Nat.le_total a.1 b.1⟩
  have hTrans : IsTrans _ order := ⟨fun _ _ _ => Nat.le_trans⟩
  have hSame : (found.insertionSort order).Perm executed :=
    (List.perm_insertionSort order found).trans hPerm.symm
  have hNodup : (executed.map Prod.fst).Nodup := by
    rw [List.Nodup, List.pairwise_map]
    exact hSorted.imp fun h => Nat.ne_of_lt h
  refine List.Perm.eq_of_pairwise ?_ (List.pairwise_insertionSort order found)
    (hSorted.imp Nat.le_of_lt) hSame
  intro a b ha hb hab hba
  exact List.inj_on_of_nodup_map hNodup (hSame.mem_iff.mp ha) hb (Nat.le_antisymm hab hba)

/-- **The order of a Tapscript's matches.** -/
theorem evaluateTapscript_eq (hDecoder : PositionsIncrease) (input : Nat) (sp : TaprootScriptPath) :
    evaluateTapscript input sp = successOpcodes input sp.script ++ oversizeItems input sp.args ++
      executed input (successOpcodes input sp.script).isEmpty (instructionsOf sp.script) := by
  have hPushes : (pushViolations input .tapscript sp.script).map
      (fun m => ((violationOpcodePos m.evidence).getD 0, m)) =
      (instructionsOf sp.script).filterMap fun item =>
        (oversizePush input .tapscript item).map fun m => (item.1, m) := by
    rw [← oversizePushes_eq, oversizePushes, List.map_filterMap]
    apply List.filterMap_congr
    rintro ⟨position, instruction⟩ -
    cases instruction with
    | op opcode => rfl
    | pushBytes bytes =>
      by_cases hLen : bytes.length > 256
      · simp [oversizePush, hLen, violationOpcodePos]
      · simp [oversizePush, hLen]
  have hEmpty : (successOpcodes input sp.script).isEmpty = (opSuccesses sp.script).isEmpty := by
    rw [successOpcodes_eq, List.isEmpty_map]
  have hSort := sorted_eq_of_perm
    (executedAt_perm input (opSuccesses sp.script).isEmpty (instructionsOf sp.script))
    (executedAt_sorted input (opSuccesses sp.script).isEmpty _ (hDecoder sp.script))
  unfold evaluateTapscript
  rw [hPushes, hEmpty, successOpcodes_eq, oversizeItems_eq, ← executedAt_map, ← hSort]
  rfl

-- ---------------------------------------------------------------------------
-- Witness programs and canonical pushes
-- ---------------------------------------------------------------------------

omit [BitcoinCrate] in
/-- The opcode of a witness version, and the version of an opcode. -/
theorem version_opcode (op version : UInt8) :
    (op = 0 ∧ version = 0 ∨ (0x51 ≤ op ∧ op ≤ 0x60) ∧ version = op - 0x50) ↔
      op = (if version = 0 then 0x00 else 0x50 + version) ∧ version ≤ 16 := by
  have hOp := op.toNat_lt
  have hVersion := version.toNat_lt
  split
  · next h =>
    subst h
    constructor
    · rintro (⟨hOpZero, -⟩ | ⟨⟨hLow, hHigh⟩, hSub⟩)
      · exact ⟨hOpZero, by decide⟩
      · have hNat := congrArg UInt8.toNat hSub
        simp only [UInt8.le_iff_toNat_le, UInt8.toNat_sub, UInt8.toNat_ofNat] at hLow hHigh hNat
        omega
    · exact fun h => .inl ⟨h.1, rfl⟩
  · next h =>
    simp only [UInt8.le_iff_toNat_le, ← UInt8.toNat_inj, UInt8.toNat_sub, UInt8.toNat_add,
      UInt8.toNat_ofNat] at h ⊢
    omega

omit [BitcoinCrate] in
theorem parseWitnessProgram_cons (op push : UInt8) (program : List UInt8) (version : UInt8)
    (found : List UInt8) :
    parseWitnessProgram (op :: push :: program) = some ⟨version, found⟩ ↔
      (2 ≤ program.length ∧ program.length ≤ 40) ∧ push.toNat = program.length ∧ found = program ∧
        (op = 0 ∧ version = 0 ∨ (0x51 ≤ op ∧ op ≤ 0x60) ∧ version = op - 0x50) := by
  unfold parseWitnessProgram
  by_cases hSize : 2 ≤ program.length ∧ program.length ≤ 40
  · have hBounds : ((op :: push :: program).length < 4 || (op :: push :: program).length > 42) =
        false := by
      simp only [List.length_cons, Bool.or_eq_false_iff, decide_eq_false_iff_not]
      omega
    have hLen : (push.toNat + 2 != (op :: push :: program).length) =
        !(decide (push.toNat = program.length)) := by
      rw [Bool.eq_iff_iff]
      simp
    rw [hBounds]
    show (if (op != 0x00 && !(decide (0x51 ≤ op) && decide (op ≤ 0x60))) = true then none
      else if (push.toNat + 2 != (op :: push :: program).length) = true then none
      else some (WitnessProgram.mk (if (op == 0x00) = true then 0 else op - 0x50) program)) =
        some ⟨version, found⟩ ↔ _
    rw [hLen]
    by_cases hPush : push.toNat = program.length
    · by_cases hZero : op = 0
      · subst hZero
        have hOut : ¬ ((0x51 : UInt8) ≤ 0 ∧ (0 : UInt8) ≤ 0x60) := by decide
        simp only [hSize, hPush, hOut, bne_self_eq_false, Bool.false_and, Bool.false_eq_true,
          decide_true, Bool.not_true, if_false, beq_self_eq_true, if_true, Option.some.injEq,
          WitnessProgram.mk.injEq, true_and, false_and, or_false, and_self]
        exact ⟨fun h => ⟨h.2.symm, h.1.symm⟩, fun h => ⟨h.2.symm, h.1.symm⟩⟩
      · have hBne : (op != 0x00) = true := by simpa using hZero
        have hBeq : (op == 0x00) = false := by simpa using hZero
        by_cases hRange : 0x51 ≤ op ∧ op ≤ 0x60
        · simp only [hSize, hPush, hZero, hBne, hBeq, hRange, decide_true, Bool.and_self,
            Bool.not_true, Bool.and_false, Bool.false_eq_true, if_false, Option.some.injEq,
            WitnessProgram.mk.injEq, true_and, false_and, false_or, and_self]
          exact ⟨fun h => ⟨h.2.symm, h.1.symm⟩, fun h => ⟨h.2.symm, h.1.symm⟩⟩
        · have hOut : (decide (0x51 ≤ op) && decide (op ≤ 0x60)) = false := by
            simpa [-UInt8.not_le] using hRange
          simp [hBne, hOut, hZero, hRange, -UInt8.not_le]
    · simp [hPush]
  · have hBounds : ((op :: push :: program).length < 4 || (op :: push :: program).length > 42) =
        true := by
      simp only [List.length_cons, Bool.or_eq_true, decide_eq_true_eq]
      omega
    rw [hBounds]
    simp [hSize]

omit [BitcoinCrate] in
/-- `parse_witness_program` reads exactly the witness programs. -/
theorem parseWitnessProgram_eq_some {spk : Script} {version : UInt8} {program : List UInt8} :
    parseWitnessProgram spk = some ⟨version, program⟩ ↔ IsWitnessProgram spk version program := by
  constructor
  · intro h
    match spk, h with
    | op :: push :: rest, h =>
      obtain ⟨⟨hMin, hMax⟩, hPush, rfl, hVersion⟩ :=
        (parseWitnessProgram_cons op push rest version program).mp h
      obtain ⟨rfl, hLe⟩ := (version_opcode op version).mp hVersion
      have hByte : push = UInt8.ofNat program.length := by rw [← hPush, UInt8.ofNat_toNat]
      rw [hByte]
      exact .mk hLe hMin hMax
  · rintro ⟨hVersion, hMin, hMax⟩
    refine (parseWitnessProgram_cons _ _ _ _ _).mpr ⟨⟨hMin, hMax⟩, ?_, rfl, ?_⟩
    · rw [UInt8.toNat_ofNat']
      omega
    · exact (version_opcode _ _).mpr ⟨rfl, hVersion⟩

omit [BitcoinCrate] in
theorem parseWitnessProgram_eq_none {spk : Script} : parseWitnessProgram spk = none ↔
    ∀ version program, ¬ IsWitnessProgram spk version program := by
  rw [Option.eq_none_iff_forall_ne_some]
  constructor
  · exact fun h version program hProgram => h _ (parseWitnessProgram_eq_some.mpr hProgram)
  · exact fun h wp hSome => h wp.version wp.program (parseWitnessProgram_eq_some.mp hSome)

omit [BitcoinCrate] in
/-- A canonical push is its header and its data, and the header decides its form. -/
theorem canonicalPush_iff {scriptSig data : Script} : CanonicalPush data scriptSig ↔
    ∃ header, canonicalPushHeader data.length = some header ∧ scriptSig = header ++ data := by
  unfold canonicalPushHeader
  constructor
  · rintro (hLen | ⟨hMin, hLen⟩ | ⟨hMin, hLen⟩ | ⟨hMin, hLen⟩)
    · exact ⟨_, if_pos hLen, rfl⟩
    · refine ⟨0x4c :: lengthBytes 1 data.length, ?_, rfl⟩
      rw [if_neg (by omega), if_pos (by omega)]
      rfl
    · refine ⟨0x4d :: lengthBytes 2 data.length, ?_, rfl⟩
      rw [if_neg (by omega), if_neg (by omega), if_pos (by omega)]
      simp [lengthBytes]
    · refine ⟨0x4e :: lengthBytes 4 data.length, ?_, rfl⟩
      rw [if_neg (by omega), if_neg (by omega), if_neg (by omega), if_pos (by omega)]
      simp [lengthBytes, Nat.div_div_eq_div_mul]
  · rintro ⟨header, hHeader, rfl⟩
    split_ifs at hHeader with hDirect hOne hTwo hFour
    · obtain rfl := Option.some.inj hHeader
      exact .direct hDirect
    · obtain rfl := Option.some.inj hHeader
      exact .pushData1 (by omega) (by omega)
    · obtain rfl := Option.some.inj hHeader
      have hPush : CanonicalPush data _ := .pushData2 (by omega) (by omega)
      simpa [lengthBytes] using hPush
    · obtain rfl := Option.some.inj hHeader
      have hPush : CanonicalPush data _ := .pushData4 (by omega) (by omega)
      simpa [lengthBytes, Nat.div_div_eq_div_mul] using hPush

omit [BitcoinCrate] in
/-- `is_canonical_single_push` accepts exactly the canonical push. -/
theorem isCanonicalSinglePush_iff {scriptSig data : Script} :
    isCanonicalSinglePush scriptSig data = true ↔ CanonicalPush data scriptSig := by
  rw [canonicalPush_iff]
  unfold isCanonicalSinglePush
  cases canonicalPushHeader data.length with
  | none => simp
  | some header =>
    simp only [Bool.and_eq_true, beq_iff_eq, Option.some.injEq, exists_eq_left']
    constructor
    · rintro ⟨⟨-, hTake⟩, hDrop⟩
      rw [← List.take_append_drop header.length scriptSig, hTake, hDrop]
    · rintro rfl
      simp

-- ---------------------------------------------------------------------------
-- Taproot
-- ---------------------------------------------------------------------------

omit [BitcoinCrate] in
/-- `split_annex` takes off what the relation takes off. -/
theorem splitAnnex_eq {items stack : List Script} {annex : Option Script}
    (h : AnnexRemoved items stack annex) : splitAnnex items = (stack, annex) := by
  unfold splitAnnex
  cases h with
  | @tagged stack annex hStack hTag =>
    have hLen : 0 < stack.length := List.length_pos_iff.mpr hStack
    have hTwo : 2 ≤ (stack ++ [annex]).length := by
      rw [List.length_append, List.length_singleton]
      omega
    simp only [List.getLast?_concat, hTwo, hTag, annexTag, decide_true, beq_self_eq_true,
      Bool.and_true, if_true, List.dropLast_concat]
  | plain hPlain =>
    cases hLast : items.getLast? with
    | none => rfl
    | some last =>
      obtain ⟨rest, rfl⟩ := List.getLast?_eq_some_iff.mp hLast
      have hNot : ((rest ++ [last]).length ≥ 2 && last.head? == some annexTag) = false := by
        by_cases hRest : rest = []
        · simp [hRest]
        · simp [hPlain rest last rfl hRest, annexTag]
      dsimp only
      rw [hNot]
      rfl

omit [BitcoinCrate] in
/-- Every stack has an annex removed, or has none. -/
theorem exists_annexRemoved (items : List Script) (hItems : items ≠ []) :
    ∃ stack annex, AnnexRemoved items stack annex ∧ stack ≠ [] := by
  by_cases hTagged : ∃ rest last, items = rest ++ [last] ∧ rest ≠ [] ∧ last.head? = some 0x50
  · obtain ⟨rest, last, rfl, hRest, hTag⟩ := hTagged
    exact ⟨rest, some last, .tagged hRest hTag, hRest⟩
  · refine ⟨items, none, .plain fun rest last hEq hRest hTag => ?_, hItems⟩
    exact hTagged ⟨rest, last, hEq, hRest, hTag⟩

omit [BitcoinCrate] in
theorem decomposeTaproot_keyPath {items : List Script} {signature : Script} {annex : Option Script}
    (h : AnnexRemoved items [signature] annex) : decomposeTaproot items = .keyPath annex := by
  have hItems : items.isEmpty = false := by
    cases h <;> rfl
  unfold decomposeTaproot
  rw [hItems, splitAnnex_eq h]
  rfl

omit [BitcoinCrate] in
theorem decomposeTaproot_scriptPath {items args : List Script} {script control : Script}
    {annex : Option Script} (h : AnnexRemoved items (args ++ [script, control]) annex) :
    decomposeTaproot items = .scriptPath { args, script, control, annex } := by
  have hItems : items.isEmpty = false := by
    cases h <;> simp
  unfold decomposeTaproot
  rw [hItems, splitAnnex_eq h]
  simp

omit [BitcoinCrate] in
/-- The alignment test of the source, by Merkle depth. -/
theorem aligned_iff {control : Script} :
    (taprootControlBaseSize ≤ control.length &&
      (control.length - taprootControlBaseSize) % taprootControlNodeSize == 0) = true ↔
      ∃ depth, IsControl control depth := by
  show (decide (33 ≤ control.length) && (control.length - 33) % 32 == 0) = true ↔ _
  simp only [Bool.and_eq_true, decide_eq_true_eq, beq_iff_eq, IsControl]
  constructor
  · rintro ⟨hBase, hNode⟩
    exact ⟨(control.length - 33) / 32, by omega⟩
  · rintro ⟨depth, hLen⟩
    omega

/-- A Tapscript leaf matches what the code finds. -/
theorem leafMatches_eq (hDecoder : PositionsIncrease) {input : Nat} {sp : TaprootScriptPath}
    {found : List PrimaryViolation}
    (h : LeafMatches input sp.args sp.script sp.control found) :
    evaluateTaprootScriptPath input sp = annexMatches input sp.annex ++ found := by
  have hAnnex : sp.annex.toList.map (annexMatch input) = annexMatches input sp.annex := rfl
  have hSize : ∀ depth, IsControl sp.control depth →
      (if sp.control.length > taprootControlMaxSizeReduced then
        [ruleMatch .controlBlockSize (.controlBlockTooLarge input sp.control.length
          (some ((sp.control.length - taprootControlBaseSize) / taprootControlNodeSize))
          taprootControlMaxSizeReduced)]
      else []) = if depth > 7 then [{
        rule := .controlBlockSize
        evidence := .controlBlockTooLarge input sp.control.length (some depth) 257 }] else [] := by
    intro depth hLen
    unfold IsControl at hLen
    show (if sp.control.length > 257 then [PrimaryViolation.mk .controlBlockSize
      (.controlBlockTooLarge input sp.control.length (some ((sp.control.length - 33) / 32)) 257)]
      else []) = _
    by_cases hDeep : depth > 7
    · rw [if_pos (by omega), if_pos hDeep, show (sp.control.length - 33) / 32 = depth by omega]
    · rw [if_neg (by omega), if_neg hDeep]
  unfold evaluateTaprootScriptPath
  cases h with
  | misaligned hControl =>
    have hNot := aligned_iff.not.mpr (not_exists.mpr hControl)
    simp only [hAnnex, hNot, Bool.not_false, if_true, List.append_nil]
  | @otherLeaf depth first hControl hFirst hLeaf =>
    have hAligned := aligned_iff.mpr ⟨depth, hControl⟩
    have hVersion : sp.leafVersion = some (first &&& taprootLeafMask) := by
      rw [TaprootScriptPath.leafVersion, hFirst]
      rfl
    have hOther : (first &&& taprootLeafMask != taprootLeafTapscript) = true := by
      simpa [taprootLeafMask, taprootLeafTapscript] using hLeaf
    simp only [hAnnex, hAligned, hSize depth hControl, hVersion, hOther, Bool.not_true,
      Bool.false_eq_true, if_false, if_true, List.append_assoc]
    rfl
  | @tapscript depth first hControl hFirst hLeaf =>
    have hAligned := aligned_iff.mpr ⟨depth, hControl⟩
    have hVersion : sp.leafVersion = some (first &&& taprootLeafMask) := by
      rw [TaprootScriptPath.leafVersion, hFirst]
      rfl
    have hOther : (first &&& taprootLeafMask != taprootLeafTapscript) = false := by
      simpa [taprootLeafMask, taprootLeafTapscript] using hLeaf
    simp only [hAnnex, hAligned, hSize depth hControl, hVersion, hOther, Bool.not_true,
      Bool.false_eq_true, if_false, evaluateTapscript_eq hDecoder, List.append_assoc]

/-- A Taproot spend matches what the code finds. -/
theorem taprootMatches_eq (hDecoder : PositionsIncrease) {input : Nat} {items : List Script}
    {found : List PrimaryViolation} (h : TaprootMatches input items found) :
    evaluateTaproot input items = found := by
  unfold evaluateTaproot
  cases h with
  | empty => rfl
  | keyPath hAnnex =>
    rw [decomposeTaproot_keyPath hAnnex]
    rfl
  | scriptPath hAnnex hLeaf =>
    rw [decomposeTaproot_scriptPath hAnnex]
    exact leafMatches_eq hDecoder hLeaf

theorem exists_leafMatches (input : Nat) (args : List Script) (script control : Script) :
    ∃ found, LeafMatches input args script control found := by
  by_cases hControl : ∃ depth, IsControl control depth
  · obtain ⟨depth, hDepth⟩ := hControl
    cases control with
    | nil =>
      have hLen : (0 : Nat) = 33 + 32 * depth := hDepth
      omega
    | cons first rest =>
      by_cases hLeaf : first &&& 0xfe = 0xc0
      · exact ⟨_, .tapscript hDepth rfl hLeaf⟩
      · exact ⟨_, .otherLeaf hDepth rfl hLeaf⟩
  · exact ⟨_, .misaligned (not_exists.mp hControl)⟩

theorem exists_taprootMatches (input : Nat) (items : List Script) :
    ∃ found, TaprootMatches input items found := by
  by_cases hItems : items = []
  · subst hItems
    exact ⟨_, .empty⟩
  · obtain ⟨stack, annex, hAnnex, hStack⟩ := exists_annexRemoved items hItems
    obtain ⟨rest, control, rfl⟩ := List.eq_nil_or_concat stack |>.resolve_left hStack
    rcases List.eq_nil_or_concat rest with rfl | ⟨args, script, rfl⟩
    · exact ⟨_, .keyPath hAnnex⟩
    · obtain ⟨found, hFound⟩ := exists_leafMatches input args script control
      exact ⟨_, .scriptPath (by simpa using hAnnex) hFound⟩

-- ---------------------------------------------------------------------------
-- Witness spends
-- ---------------------------------------------------------------------------

/-- A witness program's spend matches what the code finds. -/
theorem witnessMatches_eq (hDecoder : PositionsIncrease) {input : Nat} {isP2sh : Bool}
    {version : UInt8} {program : List UInt8} {items : List Script} {found : List PrimaryViolation}
    (h : WitnessMatches input isP2sh version program items found) :
    evaluateWitnessSpend input program version items isP2sh = found := by
  have hZero : ((0 : UInt8) == 0) = true := by decide
  unfold evaluateWitnessSpend
  cases h with
  | p2wshEmpty hLen =>
    rw [if_pos hZero, if_pos (by simpa using hLen)]
    rfl
  | @p2wsh _ args script hLen =>
    rw [if_pos hZero, if_pos (by simpa using hLen), evaluateP2wsh, List.getLast?_concat,
      List.dropLast_concat, oversizeItems_eq, oversizePushes_eq]
  | p2wpkh hLen =>
    rw [if_pos hZero, if_neg (by simp [hLen]), if_pos (by simpa using hLen), oversizeItems_eq]
  | otherV0 hScript hKey =>
    rw [if_pos hZero, if_neg (by simpa using hScript), if_neg (by simpa using hKey)]
  | taproot hNative hLen hFound =>
    rw [if_neg (by decide), if_pos (by simp [hLen, hNative])]
    exact taprootMatches_eq hDecoder hFound
  | p2aEmpty hNative =>
    subst hNative
    rfl
  | p2aNonEmpty hNative hItems =>
    subst hNative
    rw [if_neg (by decide), if_neg (by decide), if_pos (by decide), if_neg (by simpa using hItems)]
    rfl
  | undefined hVersion hOther =>
    rw [if_neg (by simpa using hVersion), if_neg, if_neg]
    · rfl
    · intro hP2a
      simp only [Bool.and_eq_true, beq_iff_eq, Bool.not_eq_true'] at hP2a
      exact hOther ⟨hP2a.1.1, hP2a.1.2, .inr hP2a.2⟩
    · intro hTaproot
      simp only [Bool.and_eq_true, beq_iff_eq, Bool.not_eq_true'] at hTaproot
      exact hOther ⟨hTaproot.1.1, hTaproot.2, .inl hTaproot.1.2⟩

theorem exists_witnessMatches (input : Nat) (isP2sh : Bool) (version : UInt8)
    (program : List UInt8) (items : List Script) :
    ∃ found, WitnessMatches input isP2sh version program items found := by
  by_cases hZero : version = 0
  · subst hZero
    by_cases hScript : program.length = 32
    · rcases List.eq_nil_or_concat items with rfl | ⟨args, script, rfl⟩
      · exact ⟨_, .p2wshEmpty hScript⟩
      · rw [List.concat_eq_append]
        exact ⟨_, .p2wsh hScript⟩
    · by_cases hKey : program.length = 20
      · exact ⟨_, .p2wpkh hKey⟩
      · exact ⟨_, .otherV0 hScript hKey⟩
  · by_cases hOther : version = 1 ∧ isP2sh = false ∧
        (program.length = 32 ∨ program = [0x4e, 0x73])
    · obtain ⟨rfl, hNative, hLen | rfl⟩ := hOther
      · obtain ⟨found, hFound⟩ := exists_taprootMatches input items
        exact ⟨found, .taproot hNative hLen hFound⟩
      · by_cases hItems : items = []
        · subst hItems
          exact ⟨_, .p2aEmpty hNative⟩
        · exact ⟨_, .p2aNonEmpty hNative hItems⟩
    · exact ⟨_, .undefined hZero hOther⟩

-- ---------------------------------------------------------------------------
-- P2SH
-- ---------------------------------------------------------------------------

omit [BitcoinCrate] in
theorem pushOnlyInstructions_eq_some {items : List (Except Unit (Nat × Instruction))}
    {instructions : List (Nat × Instruction)} :
    pushOnlyInstructions items = some instructions ↔
      items = instructions.map .ok ∧ ∀ item ∈ instructions, isPushOnly item.2 = true := by
  induction items generalizing instructions with
  | nil =>
    cases instructions with
    | nil => simp [pushOnlyInstructions]
    | cons first rest => simp [pushOnlyInstructions]
  | cons first rest ih =>
    cases first with
    | error e => cases instructions <;> simp [pushOnlyInstructions]
    | ok item =>
      cases hPush : isPushOnly item.2 with
      | false =>
        cases instructions with
        | nil => simp [pushOnlyInstructions, hPush]
        | cons found more =>
          simp only [pushOnlyInstructions, hPush, Bool.false_eq_true, if_false, reduceCtorEq,
            List.map_cons, List.cons.injEq, Except.ok.injEq, false_iff, not_and]
          rintro ⟨rfl, -⟩ hAll
          simpa [hPush] using hAll item List.mem_cons_self
      | true =>
        cases instructions with
        | nil => simp [pushOnlyInstructions, hPush]
        | cons found more =>
          simp only [pushOnlyInstructions, hPush, if_true, Option.map_eq_some_iff, ih,
            List.map_cons, List.cons.injEq, Except.ok.injEq, List.forall_mem_cons]
          constructor
          · rintro ⟨_, ⟨hRest, hAll⟩, rfl, rfl⟩
            exact ⟨⟨rfl, hRest⟩, hPush, hAll⟩
          · rintro ⟨⟨rfl, hRest⟩, -, hAll⟩
            exact ⟨more, ⟨hRest, hAll⟩, rfl, rfl⟩

/-- A `scriptSig` is push-only just when the code reads its pushes. -/
theorem pushOnly_iff {scriptSig : Script} {instructions : List (Nat × Instruction)} :
    PushOnly scriptSig instructions ↔
      pushOnlyInstructions (instructionIndices scriptSig) = some instructions :=
  pushOnlyInstructions_eq_some.symm

/-- A nested spend matches what the code finds. -/
theorem nestedMatches_eq (hDecoder : PositionsIncrease) {input : Nat} {scriptSig : Script}
    {before : List (Nat × Instruction)} {last : Nat × Instruction} {redeemScript : Script}
    {items : List Script} {found : List PrimaryViolation}
    (h : NestedMatches input scriptSig before redeemScript items found) :
    (if (before ++ [last]).length == 1 && isCanonicalSinglePush scriptSig redeemScript then
      match parseWitnessProgram redeemScript with
      | some wp => evaluateWitnessSpend input wp.program wp.version items true
      | none => []
    else []) = found := by
  have hSingle : ((before ++ [last]).length == 1) = true ↔ before = [] := by
    rw [beq_iff_eq, List.length_append, List.length_singleton, Nat.add_eq_right,
      List.length_eq_zero_iff]
  cases h with
  | nested hBefore hPush hProgram hFound =>
    rw [if_pos (by rw [hSingle.mpr hBefore, isCanonicalSinglePush_iff.mpr hPush]; rfl),
      parseWitnessProgram_eq_some.mpr hProgram]
    exact witnessMatches_eq hDecoder hFound
  | none hNone =>
    split
    · next hBoth =>
      obtain ⟨hLength, hPush⟩ := (Bool.and_eq_true _ _).mp hBoth
      split
      · next wp hProgram =>
        exact absurd ⟨hSingle.mp hLength, isCanonicalSinglePush_iff.mp hPush, wp.version,
          wp.program, parseWitnessProgram_eq_some.mp hProgram⟩ hNone
      · rfl
    · rfl

theorem exists_nestedMatches (input : Nat) (scriptSig : Script) (before : List (Nat × Instruction))
    (redeemScript : Script) (items : List Script) :
    ∃ found, NestedMatches input scriptSig before redeemScript items found := by
  by_cases hNested : before = [] ∧ CanonicalPush redeemScript scriptSig ∧
      ∃ version program, IsWitnessProgram redeemScript version program
  · obtain ⟨hSingle, hPush, version, program, hProgram⟩ := hNested
    obtain ⟨found, hFound⟩ := exists_witnessMatches input true version program items
    exact ⟨found, .nested hSingle hPush hProgram hFound⟩
  · exact ⟨_, .none hNested⟩

/-- A P2SH spend matches what the code finds. -/
theorem p2shMatches_eq (hDecoder : PositionsIncrease) {input : Nat} {txin : TxIn}
    {found : List PrimaryViolation} (h : P2shMatches input txin found) :
    evaluateP2shSpend input txin txin.witness = found := by
  unfold evaluateP2shSpend
  cases h with
  | notPushOnly hNone =>
    have hParse : pushOnlyInstructions (instructionIndices txin.scriptSig) = none :=
      Option.eq_none_iff_forall_ne_some.mpr fun instructions hSome =>
        hNone instructions (pushOnly_iff.mpr hSome)
    rw [hParse]
  | empty hPush =>
    rw [pushOnly_iff.mp hPush]
    rfl
  | numeric hPush =>
    rw [pushOnly_iff.mp hPush]
    dsimp only
    rw [List.getLast?_concat, List.dropLast_concat, oversizeScriptSig_eq]
  | redeem hPush hNested =>
    rw [pushOnly_iff.mp hPush]
    dsimp only
    rw [List.getLast?_concat, List.dropLast_concat, oversizeScriptSig_eq, oversizePushes_eq]
    exact congrArg _ (nestedMatches_eq hDecoder hNested)

theorem exists_p2shMatches (input : Nat) (txin : TxIn) : ∃ found, P2shMatches input txin found := by
  by_cases hPush : ∃ instructions, PushOnly txin.scriptSig instructions
  · obtain ⟨instructions, hPush⟩ := hPush
    rcases List.eq_nil_or_concat instructions with rfl | ⟨before, ⟨position, last⟩, rfl⟩
    · exact ⟨_, .empty hPush⟩
    · rw [List.concat_eq_append] at hPush
      cases last with
      | op opcode => exact ⟨_, .numeric hPush⟩
      | pushBytes redeemScript =>
        obtain ⟨nested, hNested⟩ :=
          exists_nestedMatches input txin.scriptSig before redeemScript txin.witness
        exact ⟨_, .redeem hPush hNested⟩
  · exact ⟨_, .notPushOnly (not_exists.mp hPush)⟩

-- ---------------------------------------------------------------------------
-- One input
-- ---------------------------------------------------------------------------

/-- **The rules of an input are what the code evaluates.** -/
theorem inputMatches_eq (hDecoder : PositionsIncrease) {input : Nat} {txin : TxIn} {spk : Script}
    {found : List PrimaryViolation} (h : InputMatches input txin spk found) :
    evaluateInput input txin spk = found := by
  unfold evaluateInput
  cases h with
  | p2sh hP2sh hFound =>
    rw [if_pos hP2sh]
    exact p2shMatches_eq hDecoder hFound
  | native hNot hProgram hFound =>
    rw [if_neg (by simp [hNot]), parseWitnessProgram_eq_some.mpr hProgram]
    exact witnessMatches_eq hDecoder hFound
  | legacy hNot hNone =>
    rw [if_neg (by simp [hNot]), parseWitnessProgram_eq_none.mpr hNone, evaluateLegacySpend,
      oversizePushes_eq, oversizePushes_eq]

/-- Every input has matches by the rules. -/
theorem exists_inputMatches (input : Nat) (txin : TxIn) (spk : Script) :
    ∃ found, InputMatches input txin spk found := by
  cases hP2sh : isP2sh spk with
  | true =>
    obtain ⟨found, hFound⟩ := exists_p2shMatches input txin
    exact ⟨found, .p2sh hP2sh hFound⟩
  | false =>
    by_cases hProgram : ∃ version program, IsWitnessProgram spk version program
    · obtain ⟨version, program, hProgram⟩ := hProgram
      obtain ⟨found, hFound⟩ := exists_witnessMatches input false version program txin.witness
      exact ⟨found, .native hP2sh hProgram hFound⟩
    · simp only [not_exists] at hProgram
      exact ⟨_, .legacy hP2sh hProgram⟩

/-- **`evaluate_input` is the per-input specification.** For every input and every
spent script it returns exactly what the shape of the spend calls for. -/
theorem evaluateInput_specification (hDecoder : PositionsIncrease) (input : Nat) (txin : TxIn)
    (spk : Script) (found : List PrimaryViolation) :
    evaluateInput input txin spk = found ↔ InputMatches input txin spk found := by
  constructor
  · rintro rfl
    obtain ⟨found, hFound⟩ := exists_inputMatches input txin spk
    exact inputMatches_eq hDecoder hFound ▸ hFound
  · exact inputMatches_eq hDecoder

end Crate

-- ---------------------------------------------------------------------------
-- The reference decoder
-- ---------------------------------------------------------------------------

/-- What the reference decoder yields from a position lies behind it, in order. -/
def InOrder (position : Nat) (items : List (Except Unit (Nat × Instruction))) : Prop :=
  (untilError items).Pairwise (fun a b => a.1 < b.1) ∧
    ∀ item ∈ untilError items, position ≤ item.1

theorem InOrder.cons {position next : Nat} {items : List (Except Unit (Nat × Instruction))}
    (instruction : Instruction) (hNext : position < next) (h : InOrder next items) :
    InOrder position (.ok (position, instruction) :: items) := by
  obtain ⟨hSorted, hFrom⟩ := h
  refine ⟨List.pairwise_cons.mpr ⟨fun b hb => hNext.trans_le (hFrom b hb), hSorted⟩, ?_⟩
  refine List.forall_mem_cons.mpr ⟨Nat.le_refl position, fun b hb => ?_⟩
  exact (hNext.trans_le (hFrom b hb)).le

/-- Instructions are decoded at increasing places. -/
theorem decodeFrom_inOrder : ∀ (fuel position : Nat) (bytes : List UInt8),
    InOrder position (Reference.decodeFrom fuel position bytes)
  | 0, _, _ => ⟨List.Pairwise.nil, by simp [Reference.decodeFrom, untilError]⟩
  | _ + 1, _, [] => ⟨List.Pairwise.nil, by simp [Reference.decodeFrom, untilError]⟩
  | fuel + 1, position, op :: rest => by
    have hNone : InOrder position [.error ()] := ⟨List.Pairwise.nil, by simp [untilError]⟩
    have hPush : ∀ (data after : List UInt8) (span : Nat), InOrder position
        (.ok (position, .pushBytes data) ::
          Reference.decodeFrom fuel (position + 1 + span) after) := fun _ after span =>
      (decodeFrom_inOrder fuel (position + 1 + span) after).cons _ (by omega)
    have hOp : InOrder position
        (.ok (position, .op op) :: Reference.decodeFrom fuel (position + 1) rest) :=
      (decodeFrom_inOrder fuel (position + 1) rest).cons _ (by omega)
    unfold Reference.decodeFrom
    dsimp only
    split_ifs
    · exact hNone
    · exact hPush (rest.take op.toNat) (rest.drop op.toNat) op.toNat
    · cases Reference.decodePush 1 rest with
      | none => exact hNone
      | some pushed => exact hPush pushed.1 pushed.2.1 pushed.2.2
    · cases Reference.decodePush 2 rest with
      | none => exact hNone
      | some pushed => exact hPush pushed.1 pushed.2.1 pushed.2.2
    · cases Reference.decodePush 4 rest with
      | none => exact hNone
      | some pushed => exact hPush pushed.1 pushed.2.1 pushed.2.2
    · exact hOp

theorem positionsIncrease_reference (table : List Reference.KnownTransaction) :
    let _ := Reference.crate table
    PositionsIncrease := by
  intro _ script
  exact (decodeFrom_inOrder script.length 0 script).1

/-- A Tapscript with an oversized push before its first conditional. -/
theorem evaluateInput_specification_tapscript :
    let _ := Reference.crate []
    let data : List UInt8 := List.replicate 257 0
    let leaf : Script := [0x4d, 0x01, 0x01] ++ data ++ [0x63]
    let control : Script := 0xc0 :: List.replicate 32 0
    let txin : TxIn := ⟨⟨1, 0⟩, [], 0xffffffff, [leaf, control]⟩
    InputMatches 0 txin (0x51 :: 0x20 :: List.replicate 32 0)
      [⟨.elementSize, .pushTooLarge 0 .tapscript 0 257 256⟩,
        ⟨.tapscriptOpIf, .tapscriptOpIf 0 0x63 260⟩] := by
  intro _ data leaf control txin
  refine (evaluateInput_specification (positionsIncrease_reference []) 0 txin _ _).mp ?_
  decide +kernel

end MempoolAtlas.Bip110
