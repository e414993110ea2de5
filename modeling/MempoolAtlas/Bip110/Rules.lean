import MempoolAtlas.Bip110.Scripts
import MempoolAtlas.Lib.Machine

/-!
# BIP-110 evaluation of one transaction

`src/bip110/rules/mod.rs` and the evaluation context of `context.rs`: the
per-transaction orchestration of the seven rules, as mempool policy and as
consensus.
-/

namespace MempoolAtlas.Bip110

-- ---------------------------------------------------------------------------
-- context.rs
-- ---------------------------------------------------------------------------

/-- How long the proposal is active, in blocks. -/
def activeDuration : Nat := 52416

/-- The height of the activation, if there is one, and of the spend. -/
structure EvaluationContext where
  activationHeight : Option Nat
  spendHeight : Nat
deriving DecidableEq, Repr

namespace EvaluationContext

/-- Heights are `u32`; the end of the window saturates at `u32::MAX`. -/
def rdtsActive (ctx : EvaluationContext) : Bool :=
  match ctx.activationHeight with
  | some h => h ≤ ctx.spendHeight && ctx.spendHeight < min (h + activeDuration) (2 ^ 32 - 1)
  | none => false

/-- Whether a coin is older than the activation. -/
def isGrandfathered (ctx : EvaluationContext) (creationHeight : Nat) : Option Bool :=
  ctx.activationHeight.map fun h => creationHeight < h

end EvaluationContext

-- ---------------------------------------------------------------------------
-- rules/mod.rs
-- ---------------------------------------------------------------------------

/-- The six input-scoped rules, in report order. -/
def inputScoped : List RuleId :=
  [.elementSize, .undefinedVersion, .taprootAnnex, .controlBlockSize, .opSuccess, .tapscriptOpIf]

/-- Which evaluation the rules are applied for. -/
inductive Applicability where
  | consensus (ctx : EvaluationContext)
  | mempoolPolicy
deriving DecidableEq, Repr

/-- The outcome of a rule. -/
def outcome (rule : RuleId) (verdict : RuleVerdict) : RuleOutcome :=
  { rule := rule, number := rule.number, verdict := verdict }

/-- Every rule-1 violation in output order. -/
def outputSizeViolations (tx : Transaction) : List Violation :=
  tx.output.zipIdx.filterMap fun (txout, vout) =>
    match txout.scriptPubkey with
    | [] => none
    | first :: _ =>
      let isOpReturn := first == opReturn
      let limit := if isOpReturn then maxOutputDataSize else maxOutputScriptSize
      if txout.scriptPubkey.length > limit then
        some (.outputScriptTooLarge vout txout.scriptPubkey.length isOpReturn limit)
      else none

/-- The accumulators of `evaluate_applied`. The source's two arrays of six
slots are functions of the rule here; the slot of `outputSize`, which the
arrays do not have, is never read. -/
structure Accumulators where
  violations : RuleId → List Violation
  unknowns : RuleId → List Missing
  primaryViolation : Option PrimaryViolation
  primaryBlocked : Bool

/-- A missing fact leaves every input rule open. -/
def pushUnknownAll (unknowns : RuleId → List Missing) (missing : Missing) :
    RuleId → List Missing :=
  fun rule => unknowns rule ++ [missing]

/-- A violation is recorded under its rule. -/
def pushViolation (violations : RuleId → List Violation) (ruleMatch : PrimaryViolation) :
    RuleId → List Violation :=
  Function.update violations ruleMatch.rule (violations ruleMatch.rule ++ [ruleMatch.evidence])

/-- The matches of an input are recorded. -/
def recordMatches (found : List PrimaryViolation) (acc : Accumulators) : Accumulators :=
  { acc with
    primaryViolation :=
      if acc.primaryViolation.isNone && !acc.primaryBlocked then found.head?
      else acc.primaryViolation
    violations := found.foldl pushViolation acc.violations }

/-- A consensus match whose creation height is unknown: no violation is proven,
and each affected rule misses the height once. -/
def recordHeightUnknown (input : Nat) (found : List PrimaryViolation) (acc : Accumulators) :
    Accumulators :=
  { acc with
    primaryBlocked := acc.primaryBlocked || (!found.isEmpty && acc.primaryViolation.isNone)
    unknowns := fun rule =>
      if found.any fun m => m.rule == rule then acc.unknowns rule ++ [.creationHeight input]
      else acc.unknowns rule }

section Crate

variable [BitcoinCrate]

/-- The loop body of `evaluate_applied` for input `i`. -/
def evaluateInputFacts (prevouts : PrevoutSet) (applicability : Applicability)
    (acc : Accumulators) (indexed : TxIn × Nat) : Accumulators :=
  let (txin, i) := indexed
  match prevouts.get i with
  | none =>
    { acc with
      unknowns := pushUnknownAll acc.unknowns (.scriptPubKey i)
      primaryBlocked := acc.primaryBlocked || acc.primaryViolation.isNone }
  | some facts =>
    match applicability with
    | .mempoolPolicy => recordMatches (evaluateInput i txin facts.scriptPubkey) acc
    | .consensus ctx =>
      let grandfathered := match facts.creationHeight with
        | some height => (ctx.isGrandfathered height).getD false
        | none => false
      if grandfathered then acc
      else
        let found := evaluateInput i txin facts.scriptPubkey
        match facts.creationHeight with
        | some _ => recordMatches found acc
        | none => recordHeightUnknown i found acc

/-- Before any input: the output rule. -/
def initialAccumulators (tx : Transaction) : Accumulators :=
  { violations := fun _ => []
    unknowns := fun _ => []
    primaryViolation := (outputSizeViolations tx).head?.map (ruleMatch .outputSize)
    primaryBlocked := false }

/-- The verdict of the output rule. -/
def outputRule (tx : Transaction) : RuleVerdict :=
  match outputSizeViolations tx with
  | [] => .pass
  | evidence => .violate evidence []

/-- The verdict of a rule over the inputs. -/
def inputRule (acc : Accumulators) (rule : RuleId) : RuleVerdict :=
  if !(acc.violations rule).isEmpty then .violate (acc.violations rule) (acc.unknowns rule)
  else if !(acc.unknowns rule).isEmpty then .unknown (acc.unknowns rule)
  else .pass

/-- The loop over the inputs. -/
def evaluateInputs (tx : Transaction) (prevouts : PrevoutSet) (applicability : Applicability) :
    Accumulators :=
  if tx.isCoinbase then initialAccumulators tx
  else tx.input.zipIdx.foldl (evaluateInputFacts prevouts applicability) (initialAccumulators tx)

/-- The seven outcomes, with the primary violation. -/
def evaluateApplied (tx : Transaction) (prevouts : PrevoutSet) (applicability : Applicability) :
    TxEvidence :=
  let acc := evaluateInputs tx prevouts applicability
  { evaluationMode := match applicability with
      | .mempoolPolicy => .mempoolPolicy
      | .consensus _ => .consensus
    rulesApplied := true
    isCoinbase := tx.isCoinbase
    primaryViolation := acc.primaryViolation
    rules := outcome .outputSize (outputRule tx) ::
      inputScoped.map fun rule => outcome rule (inputRule acc rule) }

/-- `evaluate_mempool_policy`: every rule applies to every coin. -/
def evaluateMempoolPolicy (tx : Transaction) (prevouts : PrevoutSet) : TxEvidence :=
  evaluateApplied tx prevouts .mempoolPolicy

/-- The outcomes of a spend that the rules do not apply to. -/
def allPass : List RuleOutcome :=
  (RuleId.outputSize :: inputScoped).map fun rule => outcome rule .pass

/-- `evaluate_consensus`: the rules apply while the proposal is active, to coins it does not
grandfather. -/
def evaluateConsensus (tx : Transaction) (ctx : EvaluationContext) (prevouts : PrevoutSet) :
    TxEvidence :=
  if !ctx.rdtsActive then
    { evaluationMode := .consensus
      rulesApplied := false
      isCoinbase := tx.isCoinbase
      primaryViolation := none
      rules := allPass }
  else evaluateApplied tx prevouts (.consensus ctx)

end Crate

end MempoolAtlas.Bip110
