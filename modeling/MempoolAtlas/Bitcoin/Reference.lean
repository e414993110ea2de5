import MempoolAtlas.Bitcoin

/-!
# A reference crate

A `BitcoinCrate` that runs on concrete inputs. Identifiers print and parse as
the crate's do (hexadecimal, bytes reversed), scripts decode and match their
templates byte by byte, and what would need the consensus codec or SHA-256 is
read from a table of known transactions.

## Results

* `parseBytes_displayBytes`, `readHash_showHash` — a printed hash parses back.
* `readHash_hexFold`, `hexFold_showHash` — the case of the digits does not matter.
* `crate`, `hashText` — the crate and its text forms, with a table of transactions.
-/

namespace MempoolAtlas.Reference

-- ---------------------------------------------------------------------------
-- Hexadecimal
-- ---------------------------------------------------------------------------

/-- A lower-case hexadecimal digit. -/
def hexDigit (n : Nat) : Char :=
  if n < 10 then Char.ofNat (0x30 + n) else Char.ofNat (0x57 + n)

/-- The value of a hexadecimal digit of either case. -/
def hexValue (c : Char) : Option Nat :=
  let code := c.toNat
  if 0x30 ≤ code ∧ code ≤ 0x39 then some (code - 0x30)
  else if 0x61 ≤ code ∧ code ≤ 0x66 then some (code - 0x57)
  else if 0x41 ≤ code ∧ code ≤ 0x46 then some (code - 0x37)
  else none

theorem hexValue_hexDigit : ∀ n < 16, hexValue (hexDigit n) = some n := by decide

/-- The bytes of a script written in hexadecimal. -/
def parseHex : List Char → Option (List UInt8)
  | [] => some []
  | high :: low :: rest => do
    let high ← hexValue high
    let low ← hexValue low
    let bytes ← parseHex rest
    return UInt8.ofNat (high * 16 + low) :: bytes
  | [_] => none

/-- The lowest `count` bytes of a number, lowest byte first: the display order
of a hash held as one big-endian number. -/
def displayBytes : Nat → Nat → List Char
  | 0, _ => []
  | count + 1, n =>
    hexDigit (n % 256 / 16) :: hexDigit (n % 16) :: displayBytes count (n / 256)

/-- The number that `displayBytes` shows, read from exactly `count` bytes. -/
def parseBytes : Nat → List Char → Option Nat
  | 0, [] => some 0
  | count + 1, high :: low :: rest => do
    let high ← hexValue high
    let low ← hexValue low
    let n ← parseBytes count rest
    return high * 16 + low + 256 * n
  | _, _ => none

/-- A number that fits its bytes parses back from their display. -/
theorem parseBytes_displayBytes (count n : Nat) (h : n < 256 ^ count) :
    parseBytes count (displayBytes count n) = some n := by
  induction count generalizing n with
  | zero =>
    obtain rfl : n = 0 := by simpa using h
    rfl
  | succ count ih =>
    have hRest : n / 256 < 256 ^ count := by
      rw [Nat.div_lt_iff_lt_mul (by decide), ← pow_succ]
      exact h
    have hHigh := hexValue_hexDigit (n % 256 / 16) (by omega)
    have hLow := hexValue_hexDigit (n % 16) (by omega)
    simp only [displayBytes, parseBytes, hHigh, hLow, ih _ hRest, Option.bind_eq_bind,
      Option.bind_some, Option.pure_def, Option.some.injEq]
    omega

/-- A hash as it is displayed: 64 hexadecimal digits. -/
def showHash (hash : BitVec 256) : String := String.ofList (displayBytes 32 hash.toNat)

/-- The hash that 64 hexadecimal digits display. -/
def readHash (text : String) : Option (BitVec 256) :=
  (parseBytes 32 text.toList).map (BitVec.ofNat 256)

/-- A displayed hash parses back. -/
theorem readHash_showHash (hash : BitVec 256) : readHash (showHash hash) = some hash := by
  rw [readHash, showHash, String.toList_ofList, parseBytes_displayBytes _ _ (by omega),
    Option.map_some, BitVec.ofNat_toNat, BitVec.setWidth_eq]

theorem hexValue_upper : ∀ n < 0x47, 0x41 ≤ n →
    hexValue (Char.ofNat (n + 0x20)) = hexValue (Char.ofNat n) := by decide

theorem hexValue_foldDigit (c : Char) : hexValue (foldDigit c) = hexValue c := by
  unfold foldDigit
  split
  · next hUpper =>
    rw [hexValue_upper c.toNat (by omega) hUpper.1, Char.ofNat_toNat]
  · rfl

theorem parseBytes_foldDigit (count : Nat) (digits : List Char) :
    parseBytes count (digits.map foldDigit) = parseBytes count digits := by
  induction count generalizing digits with
  | zero => cases digits <;> rfl
  | succ count ih =>
    match digits with
    | [] => rfl
    | [digit] => rfl
    | high :: low :: rest =>
      simp only [List.map_cons, parseBytes, hexValue_foldDigit, ih]

theorem foldDigit_hexDigit : ∀ n < 16, foldDigit (hexDigit n) = hexDigit n := by decide

theorem map_foldDigit_displayBytes (count n : Nat) :
    (displayBytes count n).map foldDigit = displayBytes count n := by
  induction count generalizing n with
  | zero => rfl
  | succ count ih =>
    rw [displayBytes, List.map_cons, List.map_cons, foldDigit_hexDigit _ (by omega),
      foldDigit_hexDigit _ (by omega), ih]

/-- The case of its digits does not change the hash. -/
theorem readHash_hexFold (text : String) : readHash (hexFold text) = readHash text := by
  rw [readHash, hexFold, String.toList_ofList, parseBytes_foldDigit, readHash]

/-- A hash is displayed in lower case. -/
theorem hexFold_showHash (hash : BitVec 256) : hexFold (showHash hash) = showHash hash := by
  rw [hexFold, showHash, String.toList_ofList, map_foldDigit_displayBytes]

-- ---------------------------------------------------------------------------
-- Scripts
-- ---------------------------------------------------------------------------

/-- The number whose bytes are listed lowest first. -/
def littleEndian : List UInt8 → Nat
  | [] => 0
  | byte :: rest => byte.toNat + 256 * littleEndian rest

/-- A push whose length takes the first `width` bytes of `rest`: the data, the
bytes after it and the bytes it spans; `none` when the script ends too early. -/
def decodePush (width : Nat) (rest : List UInt8) : Option (List UInt8 × List UInt8 × Nat) :=
  let len := littleEndian (rest.take width)
  let body := rest.drop width
  if rest.length < width ∨ body.length < len then none
  else some (body.take len, body.drop len, width + len)

/-- The items of `instruction_indices` from byte `pos` on. -/
def decodeFrom : Nat → Nat → List UInt8 → List (Except Unit (Nat × Instruction))
  | 0, _, _ => []
  | _, _, [] => []
  | fuel + 1, pos, op :: rest =>
    let push := fun pushed => match pushed with
      | none => [.error ()]
      | some (data, after, span) =>
        .ok (pos, .pushBytes data) :: decodeFrom fuel (pos + 1 + span) after
    if op.toNat ≤ 75 then
      push (if rest.length < op.toNat then none
        else some (rest.take op.toNat, rest.drop op.toNat, op.toNat))
    else if op = 0x4c then push (decodePush 1 rest)
    else if op = 0x4d then push (decodePush 2 rest)
    else if op = 0x4e then push (decodePush 4 rest)
    else .ok (pos, .op op) :: decodeFrom fuel (pos + 1) rest

/-- Whether a script is `head`, then `count` bytes, then `tail`. -/
def matchesTemplate (head : List UInt8) (count : Nat) (tail : List UInt8) (script : Script) : Bool :=
  script.length == head.length + count + tail.length &&
    script.take head.length == head && script.drop (head.length + count) == tail

/-- A version opcode and one push of 2 to 40 bytes. -/
def isWitnessTemplate (script : Script) : Bool :=
  match script with
  | version :: push :: program =>
    (version == 0 || (0x51 ≤ version && version ≤ 0x60)) && push.toNat == program.length &&
      2 ≤ program.length && program.length ≤ 40
  | _ => false

/-- `Opcode::decode_pushnum`: `OP_PUSHNUM_1` to `OP_PUSHNUM_16`. -/
def decodePushnum (op : UInt8) : Option UInt8 :=
  if 0x51 ≤ op && op ≤ 0x60 then some (op - 0x50) else none

/-- The rest of a bare multisig output: public keys, their number and
`OP_CHECKMULTISIG`, with `keys` of them counted so far. -/
def multisigKeys (required : UInt8) : UInt8 → List (Except Unit (Nat × Instruction)) → Bool
  | keys, .ok (_, .pushBytes _) :: rest => multisigKeys required (keys + 1) rest
  | keys, .ok (_, .op op) :: rest =>
    (decodePushnum op).all (· == keys) && required ≤ keys &&
      match rest with
      | [.ok (_, .op last)] => last == 0xae
      | _ => false
  | _, _ => false

def isMultisigTemplate (script : Script) : Bool :=
  match decodeFrom script.length 0 script with
  | .ok (_, .op op) :: rest =>
    (decodePushnum op).any fun required => multisigKeys required 0 rest
  | _ => false

-- ---------------------------------------------------------------------------
-- The crate
-- ---------------------------------------------------------------------------

/-- A transaction with its serialization and its hashes. -/
structure KnownTransaction where
  transaction : Transaction
  hex : String
  txid : Txid
  wtxid : Wtxid
  totalSize : Nat
  baseSize : Nat

/-- The entry of a table for a transaction. -/
def KnownTransaction.find (table : List KnownTransaction) (transaction : Transaction) :
    Option KnownTransaction :=
  table.find? fun known => known.transaction == transaction

/-- The crate on the transactions of a table. -/
abbrev crate (table : List KnownTransaction) : BitcoinCrate where
  instructionIndices script := decodeFrom script.length 0 script
  isP2pk script := matchesTemplate [0x21] 33 [0xac] script || matchesTemplate [0x41] 65 [0xac] script
  isMultisig := isMultisigTemplate
  isP2pkh := matchesTemplate [0x76, 0xa9, 0x14] 20 [0x88, 0xac]
  isP2sh := matchesTemplate [0xa9, 0x14] 20 [0x87]
  isP2wpkh := matchesTemplate [0x00, 0x14] 20 []
  isP2wsh := matchesTemplate [0x00, 0x20] 32 []
  isP2tr := matchesTemplate [0x51, 0x20] 32 []
  isWitnessProgram := isWitnessTemplate
  isOpReturn script := script.head? == some 0x6a
  computeTxid transaction := ((KnownTransaction.find table transaction).map (·.txid)).getD 0
  computeWtxid transaction := ((KnownTransaction.find table transaction).map (·.wtxid)).getD 0
  totalSize transaction := ((KnownTransaction.find table transaction).map (·.totalSize)).getD 0
  baseSize transaction := ((KnownTransaction.find table transaction).map (·.baseSize)).getD 0
  deserializeHex hex := (table.find? fun known => known.hex == hex).map (·.transaction)
  scriptFromHex hex := parseHex hex.toList
  txidFromStr := readHash
  txidToString := showHash
  wtxidToString := showHash
  txidFromStr_txidToString := readHash_showHash

/-- The crate with the text forms of its identifiers. -/
abbrev hashText (table : List KnownTransaction) : HashText where
  toBitcoinCrate := crate table
  wtxidFromStr := readHash
  wtxidFromStr_wtxidToString := readHash_showHash
  txidFromStr_hexFold := readHash_hexFold
  wtxidFromStr_hexFold := readHash_hexFold
  hexFold_txidToString := hexFold_showHash
  hexFold_wtxidToString := hexFold_showHash

/-- An unsigned payment: one input, one P2WPKH output. -/
def payment : KnownTransaction where
  transaction := {
    version := 2
    lockTime := 0
    input := [⟨⟨1, 0⟩, [], 0xffffffff, []⟩]
    output := [⟨1000, 0x00 :: 0x14 :: List.replicate 20 0⟩] }
  hex := "020000000100000000000000000000000000000000000000000000000000000000000000010000000000" ++
    "ffffffff01e803000000000000160014000000000000000000000000000000000000000000000000"
  txid := 0x82b6bf2e3b2e9c931d98cf8f3d1e054101feaca1a66a2f954defc1d4658a96f6
  wtxid := 0x82b6bf2e3b2e9c931d98cf8f3d1e054101feaca1a66a2f954defc1d4658a96f6
  totalSize := 82
  baseSize := 82

end MempoolAtlas.Reference
