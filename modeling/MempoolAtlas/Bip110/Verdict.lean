import MempoolAtlas.Bitcoin

/-!
# BIP-110 verdicts, prevout facts and constants

`src/bip110/verdict.rs`, `prevout.rs` and the constants of `context.rs`. A
verdict carries evidence: a violation records the numbers that prove it, and an
unknown records exactly which fact was missing.
-/

namespace MempoolAtlas.Bip110

-- ---------------------------------------------------------------------------
-- context.rs
-- ---------------------------------------------------------------------------

/-- The largest output script, an `OP_RETURN` apart. -/
def maxOutputScriptSize : Nat := 34

/-- The largest `OP_RETURN` output script. -/
def maxOutputDataSize : Nat := 83

/-- The largest element of a stack or a script. -/
def maxScriptElementSizeReduced : Nat := 256

/-- The size of a control block without a path. -/
def taprootControlBaseSize : Nat := 33

/-- The size of a node of the path. -/
def taprootControlNodeSize : Nat := 32

/-- The longest path. -/
def taprootControlMaxNodeCountReduced : Nat := 7

/-- The largest control block. -/
def taprootControlMaxSizeReduced : Nat :=
  taprootControlBaseSize + taprootControlNodeSize * taprootControlMaxNodeCountReduced

/-- The first byte of an annex. -/
def annexTag : UInt8 := 0x50

/-- The bits of a control byte that are the leaf version. -/
def taprootLeafMask : UInt8 := 0xfe

/-- The leaf version of Tapscript. -/
def taprootLeafTapscript : UInt8 := 0xc0

/-- The opcode of an `OP_RETURN` output. -/
def opReturn : UInt8 := 0x6a

-- ---------------------------------------------------------------------------
-- verdict.rs
-- ---------------------------------------------------------------------------

/-- The seven rules. -/
inductive RuleId where
  | outputSize
  | elementSize
  | undefinedVersion
  | taprootAnnex
  | controlBlockSize
  | opSuccess
  | tapscriptOpIf
deriving DecidableEq, Repr

/-- The number of a rule. -/
def RuleId.number : RuleId → Nat
  | .outputSize => 1
  | .elementSize => 2
  | .undefinedVersion => 3
  | .taprootAnnex => 4
  | .controlBlockSize => 5
  | .opSuccess => 6
  | .tapscriptOpIf => 7

/-- Which script an in-script push was found in. -/
inductive ScriptKind where
  | witnessScript
  | tapscript
  | scriptSig
  | redeemScript
  | scriptPubKey
deriving DecidableEq, Repr

/-- A single proven violation, carrying the numbers that prove it. -/
inductive Violation where
  | outputScriptTooLarge (vout len : Nat) (isOpReturn : Bool) (limit : Nat)
  | witnessItemTooLarge (input itemIndex len limit : Nat)
  | pushTooLarge (input : Nat) (script : ScriptKind) (opcodePos len limit : Nat)
  | undefinedWitnessVersion (input : Nat) (version : UInt8) (p2shWrapped p2aNonEmptyWitness : Bool)
  | undefinedTapleafVersion (input : Nat) (leafVersion : UInt8)
  | taprootAnnexPresent (input annexLen : Nat)
  | controlBlockTooLarge (input len : Nat) (depth : Option Nat) (limit : Nat)
  | opSuccessPresent (input : Nat) (opcode : UInt8) (opcodePos : Nat)
  | tapscriptOpIf (input : Nat) (opcode : UInt8) (opcodePos : Nat)
deriving DecidableEq, Repr

/-- A missing fact that prevents a definite verdict for an input-scoped rule. -/
inductive Missing where
  | scriptPubKey (input : Nat)
  | creationHeight (input : Nat)
  | unsupportedSpend (input : Nat) (reason : String)
deriving DecidableEq, Repr

/-- The verdict of a rule, with its evidence. -/
inductive RuleVerdict where
  | pass
  | violate (evidence : List Violation) (missing : List Missing)
  | unknown (missing : List Missing)
deriving DecidableEq, Repr

namespace RuleVerdict

/-- The proven violations of a verdict; only `violate` carries any. -/
def evidence : RuleVerdict → List Violation
  | violate evidence _ => evidence
  | _ => []

/-- The missing facts of a verdict. -/
def missing : RuleVerdict → List Missing
  | pass => []
  | violate _ missing => missing
  | unknown missing => missing

def isViolate : RuleVerdict → Bool
  | violate .. => true
  | _ => false

def isPass : RuleVerdict → Bool
  | pass => true
  | _ => false

end RuleVerdict

/-- A rejecting rule and its evidence. -/
structure PrimaryViolation where
  rule : RuleId
  evidence : Violation
deriving DecidableEq, Repr

/-- A rule with its verdict. -/
structure RuleOutcome where
  rule : RuleId
  number : Nat
  verdict : RuleVerdict
deriving DecidableEq, Repr

/-- The rule-applicability model; `consensus` exists in test builds only. -/
inductive EvaluationMode where
  | consensus
  | mempoolPolicy
deriving DecidableEq, Repr

/-- What the rules say of a transaction. -/
structure TxEvidence where
  evaluationMode : EvaluationMode
  rulesApplied : Bool
  isCoinbase : Bool
  primaryViolation : Option PrimaryViolation
  rules : List RuleOutcome
deriving DecidableEq, Repr

-- ---------------------------------------------------------------------------
-- prevout.rs
-- ---------------------------------------------------------------------------

/-- What is known of a prevout. -/
structure PrevoutFacts where
  scriptPubkey : Script
  creationHeight : Option Nat
deriving DecidableEq, Repr

/-- Per-input prevout facts, indexed by input position. -/
structure PrevoutSet where
  facts : List (Option PrevoutFacts)
deriving DecidableEq, Repr

namespace PrevoutSet

/-- `PrevoutSet::default()`. -/
def empty : PrevoutSet := ⟨[]⟩

/-- A set of facts, one for each input. -/
def fromVec (facts : List (Option PrevoutFacts)) : PrevoutSet := ⟨facts⟩

/-- The facts of an input, when they are known. -/
def get (prevouts : PrevoutSet) (index : Nat) : Option PrevoutFacts :=
  prevouts.facts[index]?.join

/-- How many inputs the set is for. -/
def len (prevouts : PrevoutSet) : Nat := prevouts.facts.length

end PrevoutSet

end MempoolAtlas.Bip110
