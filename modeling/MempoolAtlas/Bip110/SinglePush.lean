import MempoolAtlas.Bip110.InputRules

/-!
# Canonical single pushes

`is_canonical_single_push` gates the nested witness rules. Here it is followed
slice by slice, so that an index out of range would show, and the encoding it
accepts is read back under the instruction grammar of scripts.

## Results

* `checkedCanonicalSinglePush_eq` — no slice is out of range.
* `existsUnique_canonicalPush` — data below `2^32` bytes has exactly one canonical push.
* `canonicalSinglePush_exact` — which scripts are accepted, and what they decode to.
-/

namespace MempoolAtlas.Bip110

-- ---------------------------------------------------------------------------
-- The source's slices
-- ---------------------------------------------------------------------------

/-- `&bytes[..end]`; `none` is the out-of-range panic. -/
def sliceTo (bytes : Script) (stop : Nat) : Option Script :=
  if stop ≤ bytes.length then some (bytes.take stop) else none

/-- `&bytes[start..]`; `none` is the out-of-range panic. -/
def sliceFrom (bytes : Script) (start : Nat) : Option Script :=
  if start ≤ bytes.length then some (bytes.drop start) else none

/-- The length of a push's header. -/
def pushHeaderLen (len : Nat) : Option Nat :=
  if len < 0x4c then some 1
  else if len ≤ 0xff then some 2
  else if len ≤ 0xffff then some 3
  else if len ≤ 0xffffffff then some 5
  else none

/-- The comparison of the header; the last arm is `unreachable!`. -/
def headerMatches (scriptSig : Script) (len : Nat) : Nat → Option Bool
  | 1 => scriptSig[0]?.map (· == UInt8.ofNat len)
  | 2 => (sliceTo scriptSig 2).map (· == [0x4c, UInt8.ofNat len])
  | 3 => (sliceTo scriptSig 3).map (· == [0x4d, UInt8.ofNat len, UInt8.ofNat (len >>> 8)])
  | 5 => (sliceTo scriptSig 5).map (· == [0x4e, UInt8.ofNat len, UInt8.ofNat (len >>> 8),
      UInt8.ofNat (len >>> 16), UInt8.ofNat (len >>> 24)])
  | _ => none

/-- `is_canonical_single_push` with its panics. -/
def checkedCanonicalSinglePush (scriptSig redeemScript : Script) : Option Bool :=
  let len := redeemScript.length
  match pushHeaderLen len with
  | none => some false
  | some headerLen =>
    if scriptSig.length ≠ headerLen + len then some false
    else do
      let headerMatches ← headerMatches scriptSig len headerLen
      if headerMatches then (sliceFrom scriptSig headerLen).map (· == redeemScript)
      else some false

/-- The four header comparisons, by the header they compare with. -/
theorem headerMatches_eq {scriptSig : Script} {len : Nat} {header : List UInt8}
    (hHeader : canonicalPushHeader len = some header)
    (hLength : scriptSig.length = header.length + len) :
    pushHeaderLen len = some header.length ∧
      headerMatches scriptSig len header.length =
        some (scriptSig.take header.length == header) := by
  have hSlice : sliceTo scriptSig header.length = some (scriptSig.take header.length) :=
    if_pos (by omega)
  unfold canonicalPushHeader at hHeader
  unfold pushHeaderLen
  split_ifs at hHeader with hDirect hOne hTwo hFour
  · obtain rfl := Option.some.inj hHeader
    refine ⟨if_pos hDirect, ?_⟩
    cases scriptSig with
    | nil =>
      simp only [List.length_nil, List.length_singleton] at hLength
      omega
    | cons first rest => simp [headerMatches]
  · obtain rfl := Option.some.inj hHeader
    refine ⟨by rw [if_neg hDirect, if_pos hOne]; rfl, ?_⟩
    exact congrArg (Option.map _) hSlice
  · obtain rfl := Option.some.inj hHeader
    refine ⟨by rw [if_neg hDirect, if_neg hOne, if_pos hTwo]; rfl, ?_⟩
    simp only [headerMatches, List.length_cons, List.length_nil, Nat.shiftRight_eq_div_pow]
    exact congrArg (Option.map _) hSlice
  · obtain rfl := Option.some.inj hHeader
    refine ⟨by rw [if_neg hDirect, if_neg hOne, if_neg hTwo, if_pos hFour]; rfl, ?_⟩
    simp only [headerMatches, List.length_cons, List.length_nil, Nat.shiftRight_eq_div_pow]
    exact congrArg (Option.map _) hSlice

theorem pushHeaderLen_eq_none {len : Nat} (h : canonicalPushHeader len = none) :
    pushHeaderLen len = none := by
  unfold canonicalPushHeader at h
  unfold pushHeaderLen
  split_ifs at h ⊢
  rfl

/-- No slice is out of range, and the arm that is not reachable is not reached. -/
theorem checkedCanonicalSinglePush_eq (scriptSig redeemScript : Script) :
    checkedCanonicalSinglePush scriptSig redeemScript =
      some (isCanonicalSinglePush scriptSig redeemScript) := by
  unfold checkedCanonicalSinglePush isCanonicalSinglePush
  cases hHeader : canonicalPushHeader redeemScript.length with
  | none =>
    simp only [pushHeaderLen_eq_none hHeader]
  | some header =>
    by_cases hLength : scriptSig.length = header.length + redeemScript.length
    · obtain ⟨hLen, hMatches⟩ := headerMatches_eq hHeader hLength
      have hRest : sliceFrom scriptSig header.length = some (scriptSig.drop header.length) :=
        if_pos (by omega)
      simp only [hLen]
      rw [if_neg (not_not.mpr hLength), hMatches, Option.bind_eq_bind, Option.bind_some, hRest,
        Option.map_some, beq_iff_eq.mpr hLength, Bool.true_and]
      cases scriptSig.take header.length == header
      · rfl
      · rfl
    · have hLen : pushHeaderLen redeemScript.length = some header.length := by
        have hFull : (header ++ redeemScript).length = header.length + redeemScript.length :=
          List.length_append
        exact (headerMatches_eq hHeader hFull).1
      simp only [hLen]
      rw [if_pos hLength, beq_eq_false_iff_ne.mpr hLength, Bool.false_and, Bool.false_and]

-- ---------------------------------------------------------------------------
-- The instruction grammar
-- ---------------------------------------------------------------------------

/-- One instruction at the front of a script, and the script after it. -/
inductive FirstInstruction : Script → Instruction → Script → Prop
  | direct {data rest : Script} (hLen : data.length < 0x4c) :
      FirstInstruction (UInt8.ofNat data.length :: (data ++ rest)) (.pushBytes data) rest
  | pushData {opcode : UInt8} {width : Nat} {data rest : Script}
      (hForm : (opcode, width) ∈ pushDataForms) (hLen : data.length < 256 ^ width) :
      FirstInstruction (opcode :: (lengthBytes width data.length ++ (data ++ rest)))
        (.pushBytes data) rest
  | op {opcode : UInt8} {rest : Script} (hOpcode : 0x4e < opcode) :
      FirstInstruction (opcode :: rest) (.op opcode) rest

/-- A script and the instructions it decodes to. -/
inductive ScriptInstructions : Script → List Instruction → Prop
  | nil : ScriptInstructions [] []
  | cons {script rest : Script} {instruction : Instruction} {instructions : List Instruction}
      (hFirst : FirstInstruction script instruction rest)
      (hRest : ScriptInstructions rest instructions) :
      ScriptInstructions script (instruction :: instructions)

theorem lengthBytes_injective {width len len' : Nat} (hLen : len < 256 ^ width)
    (hLen' : len' < 256 ^ width) (h : lengthBytes width len = lengthBytes width len') :
    len = len' := by
  induction width generalizing len len' with
  | zero =>
    rw [pow_zero] at hLen hLen'
    omega
  | succ width ih =>
    rw [pow_succ] at hLen hLen'
    obtain ⟨hByte, hRest⟩ := List.cons.inj h
    have hLow := congrArg UInt8.toNat hByte
    rw [UInt8.toNat_ofNat', UInt8.toNat_ofNat'] at hLow
    have hHigh := ih (Nat.div_lt_of_lt_mul (by omega)) (Nat.div_lt_of_lt_mul (by omega)) hRest
    omega

theorem toNat_direct {data : Script} (hLen : data.length < 0x4c) :
    (UInt8.ofNat data.length).toNat = data.length := by
  rw [UInt8.toNat_ofNat', Nat.mod_eq_of_lt (by omega)]

theorem toNat_pushData {opcode : UInt8} {width : Nat} (hForm : (opcode, width) ∈ pushDataForms) :
    opcode.toNat = 0x4c ∧ width = 1 ∨ opcode.toNat = 0x4d ∧ width = 2 ∨
      opcode.toNat = 0x4e ∧ width = 4 := by
  simp only [pushDataForms, List.mem_cons, List.not_mem_nil, or_false, Prod.mk.injEq] at hForm
  rcases hForm with ⟨rfl, rfl⟩ | ⟨rfl, rfl⟩ | ⟨rfl, rfl⟩
  · exact .inl ⟨rfl, rfl⟩
  · exact .inr (.inl ⟨rfl, rfl⟩)
  · exact .inr (.inr ⟨rfl, rfl⟩)

/-- The first byte tells the three forms apart, and its length field the data. -/
theorem FirstInstruction.unique {script rest rest' : Script}
    {instruction instruction' : Instruction}
    (h : FirstInstruction script instruction rest)
    (h' : FirstInstruction script instruction' rest') :
    instruction = instruction' ∧ rest = rest' := by
  generalize hScript : script = script' at h'
  cases h with
  | @direct data rest hLen =>
    have hByte := toNat_direct hLen
    cases h' with
    | @direct data' rest' hLen' =>
      obtain ⟨hHead, hTail⟩ := List.cons.inj hScript
      have hSame : data.length = data'.length := by
        rw [← hByte, hHead, toNat_direct hLen']
      obtain ⟨rfl, rfl⟩ := List.append_inj hTail hSame
      exact ⟨rfl, rfl⟩
    | pushData hForm =>
      have hHead := congrArg UInt8.toNat (List.cons.inj hScript).1
      have hOpcode := toNat_pushData hForm
      omega
    | op hOpcode =>
      have hHead := congrArg UInt8.toNat (List.cons.inj hScript).1
      have hHigh : 0x4e < _ := UInt8.lt_iff_toNat_lt.mp hOpcode
      omega
  | @pushData opcode width data rest hForm hLen =>
    have hOpcode := toNat_pushData hForm
    cases h' with
    | direct hLen' =>
      have hHead := congrArg UInt8.toNat (List.cons.inj hScript).1
      have hByte := toNat_direct hLen'
      omega
    | @pushData opcode' width' data' rest' hForm' hLen' =>
      obtain ⟨rfl, hTail⟩ := List.cons.inj hScript
      obtain rfl : width = width' := by
        have hOpcode' := toNat_pushData hForm'
        omega
      obtain ⟨hField, hBody⟩ := List.append_inj hTail
        (by rw [length_lengthBytes, length_lengthBytes])
      obtain ⟨rfl, rfl⟩ := List.append_inj hBody (lengthBytes_injective hLen hLen' hField)
      exact ⟨rfl, rfl⟩
    | op hHigh =>
      have hHead := congrArg UInt8.toNat (List.cons.inj hScript).1
      have hHigh : 0x4e < _ := UInt8.lt_iff_toNat_lt.mp hHigh
      omega
  | @op opcode rest hOpcode =>
    have hHigh : 0x4e < _ := UInt8.lt_iff_toNat_lt.mp hOpcode
    cases h' with
    | direct hLen' =>
      have hHead := congrArg UInt8.toNat (List.cons.inj hScript).1
      have hByte := toNat_direct hLen'
      omega
    | pushData hForm =>
      have hHead := congrArg UInt8.toNat (List.cons.inj hScript).1
      have hPush := toNat_pushData hForm
      omega
    | op =>
      obtain ⟨rfl, rfl⟩ := List.cons.inj hScript
      exact ⟨rfl, rfl⟩

/-- A script has one reading. -/
theorem ScriptInstructions.unique {script : Script} {instructions instructions' : List Instruction}
    (h : ScriptInstructions script instructions) (h' : ScriptInstructions script instructions') :
    instructions = instructions' := by
  induction h generalizing instructions' with
  | nil =>
    cases h' with
    | nil => rfl
    | cons hFirst => cases hFirst
  | cons hFirst _ ih =>
    cases h' with
    | nil => cases hFirst
    | cons hFirst' hRest' =>
      obtain ⟨rfl, rfl⟩ := hFirst.unique hFirst'
      rw [ih hRest']

-- ---------------------------------------------------------------------------
-- Canonical pushes under the grammar
-- ---------------------------------------------------------------------------

/-- A canonical push reads as its data. -/
theorem CanonicalPush.scriptInstructions {data scriptSig : Script}
    (h : CanonicalPush data scriptSig) : ScriptInstructions scriptSig [.pushBytes data] := by
  cases h with
  | direct hLen =>
    have hFirst := @FirstInstruction.direct data [] hLen
    rw [List.append_nil] at hFirst
    exact .cons hFirst .nil
  | pushData1 _ hLen =>
    have hFirst := @FirstInstruction.pushData 0x4c 1 data [] (by decide) hLen
    rw [List.append_nil] at hFirst
    exact .cons hFirst .nil
  | pushData2 _ hLen =>
    have hFirst := @FirstInstruction.pushData 0x4d 2 data [] (by decide) hLen
    rw [List.append_nil] at hFirst
    exact .cons hFirst .nil
  | pushData4 _ hLen =>
    have hFirst := @FirstInstruction.pushData 0x4e 4 data [] (by decide) hLen
    rw [List.append_nil] at hFirst
    exact .cons hFirst .nil

/-- Below `2^32` bytes there is exactly one canonical push. -/
theorem existsUnique_canonicalPush {data : Script} (hLen : data.length < 2 ^ 32) :
    ∃! scriptSig, CanonicalPush data scriptSig := by
  have hHeader : ∃ header, canonicalPushHeader data.length = some header := by
    unfold canonicalPushHeader
    split_ifs
    · exact ⟨_, rfl⟩
    · exact ⟨_, rfl⟩
    · exact ⟨_, rfl⟩
    · exact ⟨_, rfl⟩
    · omega
  obtain ⟨header, hHeader⟩ := hHeader
  refine ⟨header ++ data, canonicalPush_iff.mpr ⟨header, hHeader, rfl⟩, fun scriptSig hPush => ?_⟩
  obtain ⟨header', hHeader', rfl⟩ := canonicalPush_iff.mp hPush
  rw [Option.some.inj (hHeader.symm.trans hHeader')]

/-- `is_canonical_single_push` accepts the canonical push and nothing else, which
decodes to that one push, and never indexes out of range. -/
theorem canonicalSinglePush_exact (scriptSig redeemScript : Script) :
    (∃ accepts, checkedCanonicalSinglePush scriptSig redeemScript = some accepts) ∧
      (redeemScript.length < 2 ^ 32 →
        (∃! canonical, CanonicalPush redeemScript canonical) ∧
        (checkedCanonicalSinglePush scriptSig redeemScript = some true ↔
          CanonicalPush redeemScript scriptSig) ∧
        (checkedCanonicalSinglePush scriptSig redeemScript = some true →
          ∀ instructions, ScriptInstructions scriptSig instructions ↔
            instructions = [.pushBytes redeemScript])) := by
  have hAccepts : checkedCanonicalSinglePush scriptSig redeemScript = some true ↔
      CanonicalPush redeemScript scriptSig := by
    rw [checkedCanonicalSinglePush_eq, Option.some.injEq, isCanonicalSinglePush_iff]
  refine ⟨⟨_, checkedCanonicalSinglePush_eq scriptSig redeemScript⟩, fun hLen =>
    ⟨existsUnique_canonicalPush hLen, hAccepts, fun hTrue instructions => ?_⟩⟩
  have hPush := (hAccepts.mp hTrue).scriptInstructions
  constructor
  · exact fun hRead => hRead.unique hPush
  · rintro rfl
    exact hPush

/-- A redeem script of 76 bytes, the shortest with a length field. -/
def longRedeemScript : Script := List.replicate 76 0x51

/-- Its canonical push carries the length in one byte, and decodes to that push only. -/
theorem canonicalSinglePush_exact_pushData1 :
    checkedCanonicalSinglePush (0x4c :: 0x4c :: longRedeemScript) longRedeemScript = some true ∧
      CanonicalPush longRedeemScript (0x4c :: 0x4c :: longRedeemScript) ∧
      ∀ instructions, ScriptInstructions (0x4c :: 0x4c :: longRedeemScript) instructions ↔
        instructions = [.pushBytes longRedeemScript] := by
  obtain ⟨-, hExact⟩ :=
    canonicalSinglePush_exact (0x4c :: 0x4c :: longRedeemScript) longRedeemScript
  obtain ⟨-, hAccepts, hDecodes⟩ := hExact (by decide)
  have hTrue : checkedCanonicalSinglePush (0x4c :: 0x4c :: longRedeemScript) longRedeemScript =
      some true := by decide
  exact ⟨hTrue, hAccepts.mp hTrue, hDecodes hTrue⟩

end MempoolAtlas.Bip110
