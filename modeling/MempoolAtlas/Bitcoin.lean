import Mathlib.Tactic

/-!
# The `bitcoin` crate

The transaction data types the program reads, and the crate's functions over
them. What the crate documents in one line is defined here: the null outpoint,
a coinbase, the BIP-125 sequence test. Everything whose code is outside the
repository (hashing, serialized sizes, script predicates, the instruction
decoder, hex parsing) is a field of `BitcoinCrate`, so every result holds for
whatever those functions compute. The one law the program relies on is that a
transaction identifier parses back from its display form.
-/

namespace MempoolAtlas

/-- Script bytes, `Script` and `ScriptBuf` alike. -/
abbrev Script := List UInt8

/-- The push opcodes followed by a length field, with its width. -/
def pushDataForms : List (UInt8 × Nat) := [(0x4c, 1), (0x4d, 2), (0x4e, 4)]

/-- The `width` lowest bytes of a length, lowest first. -/
def lengthBytes : Nat → Nat → List UInt8
  | 0, _ => []
  | width + 1, n => UInt8.ofNat n :: lengthBytes width (n / 256)

/-- The bytes of a length are as many as its width. -/
theorem length_lengthBytes (width n : Nat) : (lengthBytes width n).length = width := by
  induction width generalizing n with
  | zero => rfl
  | succ width ih => rw [lengthBytes, List.length_cons, ih]

/-- A transaction identifier: its 32 internal bytes as one big-endian number,
which orders as the crate's byte order does. -/
abbrev Txid := BitVec 256

/-- A witness identifier. -/
abbrev Wtxid := BitVec 256

instance : Std.TransOrd Txid := BitVec.instTransOrd

/-- An output of a transaction. -/
structure OutPoint where
  txid : Txid
  vout : UInt32
deriving DecidableEq, Repr

namespace OutPoint

instance : Ord OutPoint := ⟨compareLex (compareOn txid) (compareOn vout)⟩

instance : Std.TransOrd OutPoint :=
  inferInstanceAs (Std.TransCmp (compareLex (compareOn txid) (compareOn vout)))

instance : Std.LawfulEqOrd OutPoint where
  eq_of_compare {a b} h := by
    have hLex : compareLex (compareOn txid) (compareOn vout) a b = .eq := h
    rw [compareLex_eq_eq] at hLex
    obtain ⟨hTxid, hVout⟩ := hLex
    obtain ⟨aTxid, aVout⟩ := a
    obtain ⟨bTxid, bVout⟩ := b
    simp only [compareOn, Std.LawfulEqCmp.compare_eq_iff_eq] at hTxid hVout
    rw [hTxid, hVout]

/-- `OutPoint::is_null`: the all-zero txid with `vout == u32::MAX`. -/
def isNull (o : OutPoint) : Bool := o.txid == 0 && o.vout == 0xffffffff

end OutPoint

/-- An input. -/
structure TxIn where
  previousOutput : OutPoint
  scriptSig : Script
  sequence : UInt32
  witness : List Script
deriving DecidableEq, Repr

/-- An output. -/
structure TxOut where
  value : Nat
  scriptPubkey : Script
deriving DecidableEq, Repr

/-- A transaction. -/
structure Transaction where
  version : Int
  lockTime : UInt32
  input : List TxIn
  output : List TxOut
deriving DecidableEq, Repr

namespace Transaction

/-- `Transaction::is_coinbase`: exactly one input, and it spends the null outpoint. -/
def isCoinbase (tx : Transaction) : Bool :=
  match tx.input with
  | [input] => input.previousOutput.isNull
  | _ => false

end Transaction

/-- `Sequence::is_rbf`: the sequence number is below `Sequence::MIN_NO_RBF`. -/
def sequenceIsRbf (sequence : UInt32) : Bool := sequence < 0xfffffffe

/-- An instruction of a script. -/
inductive Instruction where
  | pushBytes (bytes : List UInt8)
  | op (opcode : UInt8)
deriving DecidableEq, Repr

/-- The functions of the `bitcoin` crate whose code is outside the repository.
`instructionIndices` is the list of items the iterator of the same name yields:
each decoded instruction with its byte offset, or the decoding error. -/
class BitcoinCrate where
  instructionIndices : Script → List (Except Unit (Nat × Instruction))
  isP2pk : Script → Bool
  isMultisig : Script → Bool
  isP2pkh : Script → Bool
  isP2sh : Script → Bool
  isP2wpkh : Script → Bool
  isP2wsh : Script → Bool
  isP2tr : Script → Bool
  isWitnessProgram : Script → Bool
  isOpReturn : Script → Bool
  computeTxid : Transaction → Txid
  computeWtxid : Transaction → Wtxid
  totalSize : Transaction → Nat
  baseSize : Transaction → Nat
  deserializeHex : String → Option Transaction
  scriptFromHex : String → Option Script
  txidFromStr : String → Option Txid
  txidToString : Txid → String
  wtxidToString : Wtxid → String
  txidFromStr_txidToString : ∀ txid, txidFromStr (txidToString txid) = some txid

namespace BitcoinCrate

/-- `Script::instructions`: the same items without their offsets. -/
def instructions [BitcoinCrate] (script : Script) : List (Except Unit Instruction) :=
  (instructionIndices script).map fun item => item.map Prod.snd

end BitcoinCrate

/-- A hexadecimal digit as it is printed. -/
def foldDigit (c : Char) : Char :=
  if 0x41 ≤ c.toNat ∧ c.toNat ≤ 0x46 then Char.ofNat (c.toNat + 0x20) else c

/-- A text with its hexadecimal digits in lower case. -/
def hexFold (text : String) : String := String.ofList (text.toList.map foldDigit)

/-- The text forms of both identifiers: they parse back from what is printed,
in either case of the digits, and print in lower case. -/
class HashText extends BitcoinCrate where
  wtxidFromStr : String → Option Wtxid
  wtxidFromStr_wtxidToString : ∀ wtxid, wtxidFromStr (wtxidToString wtxid) = some wtxid
  txidFromStr_hexFold : ∀ text, txidFromStr (hexFold text) = txidFromStr text
  wtxidFromStr_hexFold : ∀ text, wtxidFromStr (hexFold text) = wtxidFromStr text
  hexFold_txidToString : ∀ txid, hexFold (txidToString txid) = txidToString txid
  hexFold_wtxidToString : ∀ wtxid, hexFold (wtxidToString wtxid) = wtxidToString wtxid

end MempoolAtlas
