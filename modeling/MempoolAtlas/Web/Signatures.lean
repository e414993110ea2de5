import Mathlib.Data.String.Basic
import MempoolAtlas.Web.Parser

/-!
# Violation signatures

`web/src/terrain.ts`: the bit masks of rule sets, the signature of a violating
assessment with its key, and the terrain region of a transaction. A region key
is the status' own name, or the key of the signature.

## Results

* `testBit_ruleMask`, `mem_rulesForMask` — a mask has the bits of its rules.
* `terrainRegionKey_violating` — a violating row has its signature for a region.
-/

namespace MempoolAtlas.Web

open Model

-- ---------------------------------------------------------------------------
-- Masks
-- ---------------------------------------------------------------------------

/-- The mask of all seven rules. -/
def ruleMaskLimit : Nat := 1 <<< Bip110RuleId.all.length - 1

/-- `RULE_BITS`: each rule has the bit of its place in `RULE_IDS`. -/
def ruleBit (rule : Bip110RuleId) : Nat := 1 <<< Bip110RuleId.all.idxOf rule

/-- The mask of some rules. -/
def ruleMask (rules : List Bip110RuleId) : Nat :=
  rules.foldl (fun mask rule => mask ||| ruleBit rule) 0 &&& ruleMaskLimit

/-- The rules of a mask, in order. -/
def rulesForMask (mask : Nat) : List Bip110RuleId :=
  Bip110RuleId.all.filter fun rule => (ruleBit rule &&& mask) != 0

/-- `toString(16).padStart(2, "0")`. -/
def paddedHex (mask : Nat) : String := String.ofList ((Nat.toDigits 16 mask).leftpad 2 '0')

/-- A mask in two hexadecimal digits. -/
def encodeMask (mask : Nat) : String := paddedHex (mask &&& ruleMaskLimit)

-- ---------------------------------------------------------------------------
-- Signatures
-- ---------------------------------------------------------------------------

/-- Whether every rule of a violation is known. -/
inductive Completeness where
  | exact
  | partialRules
deriving DecidableEq, Repr

/-- What makes a violation's region: which rules it violates and which are unknown. -/
structure ViolationSignature where
  key : String
  completeness : Completeness
  violatedMask : Nat
  unknownMask : Nat
  violatedRules : List Bip110RuleId
  unknownRules : List Bip110RuleId
  foundationRule : Option Bip110RuleId
deriving DecidableEq, Repr

/-- The key of the rule sets with these masks. -/
def signatureKey (violatedMask unknownMask : Nat) : String :=
  if unknownMask = 0 then "exact:" ++ encodeMask violatedMask
  else "partial:" ++ encodeMask violatedMask ++ ":" ++ encodeMask unknownMask

/-- The signature of a violating assessment. -/
def violationSignature (assessment : Bip110Assessment) : Option ViolationSignature :=
  if assessment.status ≠ .violating then none
  else
    let violatedMask := ruleMask assessment.violatedRules
    let unknownMask := ruleMask assessment.unknownRules
    some {
      key := signatureKey violatedMask unknownMask
      completeness := if unknownMask = 0 then .exact else .partialRules
      violatedMask, unknownMask
      violatedRules := rulesForMask violatedMask
      unknownRules := rulesForMask unknownMask
      foundationRule := (rulesForMask violatedMask).getLast? }

/-- What `localeCompare` promises under any locale: one order of all texts, in
which two transaction identifiers tie only when they are the same. -/
structure Collation where
  compare : String → String → Ordering
  trans : Std.TransCmp compare
  distinct : ∀ left right, isHash left = true → isHash right = true →
    compare left right = .eq → left = right

/-- `inverseGrayRank`'s loop. -/
def grayLoop (gray rank : Nat) : Nat :=
  if 0 < gray then grayLoop (gray >>> 1) (rank ^^^ (gray >>> 1)) else rank
termination_by gray
decreasing_by
  rw [Nat.shiftRight_one]
  omega

/-- Where a mask stands in the Gray order, so that neighbours differ in one rule. -/
def inverseGrayRank (mask : Nat) : Nat :=
  grayLoop (mask &&& ruleMaskLimit) (mask &&& ruleMaskLimit) &&& ruleMaskLimit

/-- Exact signatures first, then by the Gray rank of their masks, then by key. -/
def compareViolationSignatures (collation : Collation) (left right : ViolationSignature) :
    Ordering :=
  if left.completeness ≠ right.completeness then
    if left.completeness = .exact then .lt else .gt
  else
    (compare (inverseGrayRank left.violatedMask) (inverseGrayRank right.violatedMask)).then
      ((compare (inverseGrayRank left.unknownMask) (inverseGrayRank right.unknownMask)).then
        (collation.compare left.key right.key))

/-- `terrainRegionKey`: the status of a row, or the signature of its violation. -/
def terrainRegionKey (transaction : MempoolEntry) : Except String String :=
  match transaction.bip110 with
  | none => .ok "unclassified"
  | some assessment =>
    if assessment.status ≠ .violating then .ok (statusName assessment.status)
    else match violationSignature assessment with
      | none => .error "Violating assessment is missing its rule signature"
      | some signature => .ok signature.key

-- ---------------------------------------------------------------------------
-- What a mask says
-- ---------------------------------------------------------------------------

theorem ruleMaskLimit_eq : ruleMaskLimit = 2 ^ 7 - 1 := rfl

theorem ruleBit_eq (rule : Bip110RuleId) : ruleBit rule = 2 ^ Bip110RuleId.all.idxOf rule := by
  cases rule <;> rfl

theorem mem_all (rule : Bip110RuleId) : rule ∈ Bip110RuleId.all := by
  cases rule <;> decide

theorem idxOf_rule_lt (rule : Bip110RuleId) : Bip110RuleId.all.idxOf rule < 7 := by
  cases rule <;> decide

theorem idxOf_rule_inj {rule other : Bip110RuleId}
    (h : Bip110RuleId.all.idxOf rule = Bip110RuleId.all.idxOf other) : rule = other :=
  (List.idxOf_inj (mem_all rule)).mp h

theorem testBit_foldl_ruleBit (rules : List Bip110RuleId) (mask i : Nat) :
    (rules.foldl (fun mask rule => mask ||| ruleBit rule) mask).testBit i =
      (mask.testBit i || rules.any fun rule => decide (Bip110RuleId.all.idxOf rule = i)) := by
  induction rules generalizing mask with
  | nil => simp
  | cons rule rest ih =>
    rw [List.foldl_cons, ih, Nat.testBit_or, ruleBit_eq, Nat.testBit_two_pow, List.any_cons,
      Bool.or_assoc]

/-- The bit of a rule is set when the rule is in the list. -/
theorem testBit_ruleMask (rules : List Bip110RuleId) (rule : Bip110RuleId) :
    (ruleMask rules).testBit (Bip110RuleId.all.idxOf rule) = decide (rule ∈ rules) := by
  rw [ruleMask, Nat.testBit_and, testBit_foldl_ruleBit, ruleMaskLimit_eq,
    Nat.testBit_two_pow_sub_one, decide_eq_true (idxOf_rule_lt rule), Bool.and_true,
    Nat.zero_testBit, Bool.false_or]
  rw [Bool.eq_iff_iff, List.any_eq_true, decide_eq_true_eq]
  constructor
  · rintro ⟨other, hMem, hSame⟩
    exact idxOf_rule_inj (of_decide_eq_true hSame) ▸ hMem
  · intro hMem
    exact ⟨rule, hMem, decide_eq_true rfl⟩

theorem ruleMask_lt (rules : List Bip110RuleId) : ruleMask rules < 128 := by
  have hLe : ruleMask rules ≤ ruleMaskLimit := Nat.and_le_right
  have hLimit : ruleMaskLimit = 127 := rfl
  omega

theorem and_ruleMaskLimit {mask : Nat} (h : mask < 128) : mask &&& ruleMaskLimit = mask := by
  rw [ruleMaskLimit_eq, Nat.and_two_pow_sub_one_eq_mod, Nat.mod_eq_of_lt h]

/-- The mask is zero just when there is no rule. -/
theorem ruleMask_eq_zero {rules : List Bip110RuleId} : ruleMask rules = 0 ↔ rules = [] := by
  constructor
  · intro hZero
    rw [List.eq_nil_iff_forall_not_mem]
    intro rule hMem
    have hBit := testBit_ruleMask rules rule
    rw [hZero, Nat.zero_testBit] at hBit
    exact of_decide_eq_false hBit.symm hMem
  · rintro rfl
    rfl

theorem two_pow_and_ne_zero {place mask : Nat} :
    2 ^ place &&& mask ≠ 0 ↔ mask.testBit place = true := by
  constructor
  · intro hNe
    by_contra hClear
    refine hNe (Nat.eq_of_testBit_eq fun i => ?_)
    rw [Nat.testBit_and, Nat.testBit_two_pow, Nat.zero_testBit]
    by_cases hSame : place = i
    · rw [← hSame, Bool.of_not_eq_true hClear, Bool.and_false]
    · rw [decide_eq_false hSame, Bool.false_and]
  · intro hSet hZero
    have hBit : (2 ^ place &&& mask).testBit place = true := by
      rw [Nat.testBit_and, hSet, Nat.testBit_two_pow_self, Bool.and_self]
    rw [hZero, Nat.zero_testBit] at hBit
    cases hBit

/-- A mask has the rules whose bits it has. -/
theorem mem_rulesForMask {mask : Nat} {rule : Bip110RuleId} :
    rule ∈ rulesForMask mask ↔ mask.testBit (Bip110RuleId.all.idxOf rule) = true := by
  rw [rulesForMask, List.mem_filter, ruleBit_eq, bne_iff_ne, two_pow_and_ne_zero]
  exact and_iff_right (mem_all rule)

/-- A row without an assessment is unclassified. -/
theorem terrainRegionKey_unclassified {transaction : MempoolEntry}
    (h : transaction.bip110 = none) : terrainRegionKey transaction = .ok "unclassified" := by
  rw [terrainRegionKey, h]

/-- A row without a violation has its status for a region. -/
theorem terrainRegionKey_status {transaction : MempoolEntry} {assessment : Bip110Assessment}
    (h : transaction.bip110 = some assessment) (hStatus : assessment.status ≠ .violating) :
    terrainRegionKey transaction = .ok (statusName assessment.status) := by
  rw [terrainRegionKey, h]
  exact if_pos hStatus

/-- A violating row has its signature for a region. -/
theorem terrainRegionKey_violating {transaction : MempoolEntry} {assessment : Bip110Assessment}
    (h : transaction.bip110 = some assessment) (hStatus : assessment.status = .violating) :
    terrainRegionKey transaction =
      .ok (signatureKey (ruleMask assessment.violatedRules) (ruleMask assessment.unknownRules)) := by
  rw [terrainRegionKey, h]
  dsimp only
  rw [if_neg (not_not.mpr hStatus), violationSignature, if_neg (not_not.mpr hStatus)]

end MempoolAtlas.Web
