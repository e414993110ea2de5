import Mathlib
import MempoolAtlas.Lib.SearchParams
import MempoolAtlas.Web.Comparison
import MempoolAtlas.Web.Parser
import MempoolAtlas.Web.Signatures

/-!
# View state in the URL

`web/src/view-state.ts`: what a page shows, read from and written to the query of
its location. The reader drops what it does not know; the writer passes every
value through the reader of its parameter first.

## Results

* `parse_serialize_filter` — a linkable filter survives its link.
* `parseNodeViewState_hexCase`, `parseComparisonViewState_hexCase` — the case of hexadecimal
  digits does not matter.
* `view_state_survives_url` — every view a page can show survives its URL.
-/

namespace MempoolAtlas.Web

open Model SearchParams

/-- What is selected on the terrain: a rule or a region. -/
inductive TerrainSelection where
  | rule (rule : Bip110RuleId)
  | region (regionKey : String)
deriving DecidableEq, Repr

/-- What the view of one source keeps in its link. -/
structure NodeViewState where
  source : Option String
  classifier : Option String
  selection : Option TerrainSelection
  txid : Option String
deriving DecidableEq, Repr

/-- What the comparison keeps in its link. -/
structure ComparisonViewState where
  left : Option String
  right : Option String
  region : Option ComparisonRegionKey
  side : Option ComparisonSide
  filter : ComparisonPolicyFilter
  txid : Option String
deriving DecidableEq, Repr

-- ---------------------------------------------------------------------------
-- Values
-- ---------------------------------------------------------------------------

/-- The value of a key that is given once; a repeated key counts as missing. -/
def singleValue (params : Params) (key : String) : Option String :=
  match getAll params key with
  | [value] => some value
  | _ => none

/-- A source id in its accepted form, or nothing. -/
def sourceId (value : Option String) : Option String := value.filter isSourceId

/-- A classifier key in its accepted form, or nothing. -/
def classifierId (value : Option String) : Option String := value.filter isClassifierKey

/-- A hexadecimal digit of either case. -/
def isHexDigit (c : Char) : Bool :=
  (c.val ≥ 0x30 && c.val ≤ 0x39) || (c.val ≥ 0x61 && c.val ≤ 0x66) ||
    (c.val ≥ 0x41 && c.val ≤ 0x46)

def toLowerCase (value : String) : String := String.ofList (value.toList.map Char.toLower)

/-- `/^[0-9a-f]{64}$/i`. -/
def isTxid (value : String) : Bool :=
  decide (value.toList.length = 64) && value.toList.all isHexDigit

/-- A transaction identifier, in lower case. -/
def txid (value : Option String) : Option String := (value.filter isTxid).map toLowerCase

/-- The rule a text names. -/
def ruleId (value : Option String) : Option Bip110RuleId :=
  value.bind fun value => Bip110RuleId.all.find? fun rule => ruleIdName rule == value

/-- A status that is a region of its own. -/
def statusRegion (value : String) : Option String :=
  if value = "compatible" ∨ value = "indeterminate" ∨ value = "unclassified" then some value
  else none

/-- The name of a status, as links have it. -/
def policyStatusName : ComparisonPolicyStatus → String
  | .compatible => "compatible"
  | .violating => "violating"
  | .indeterminate => "indeterminate"
  | .unclassified => "unclassified"

/-- The status a text names. -/
def comparisonPolicyStatus (value : String) : Option ComparisonPolicyStatus :=
  [ComparisonPolicyStatus.compatible, .violating, .indeterminate, .unclassified].find? fun status =>
    policyStatusName status == value

/-- The value of the digits; `Number.parseInt(value, 16)`. -/
def parseHex (digits : List Char) : Nat :=
  digits.foldl (fun value digit => 16 * value + (digitValue digit).getD 0) 0

/-- A mask of rules in two hexadecimal digits, in canonical form; zero and values past the rules
are refused. -/
def encodedMask (value : String) : Option String :=
  if (value.toList.length = 1 ∨ value.toList.length = 2) ∧ value.toList.all isHexDigit = true then
    let mask := parseHex value.toList
    if 0 < mask ∧ mask ≤ ruleMaskLimit then some (paddedHex mask) else none
  else none

/-- `value.split(":")`. -/
def splitColons (value : String) : List String := (value.toList.splitOn ':').map String.ofList

/-- `violationSignature` of `view-state.ts`. -/
def signatureOf (value : String) : Option String :=
  match splitColons value with
  | [kind, violated] =>
    if kind = "exact" then do
      let violated ← encodedMask violated
      return "exact:" ++ violated
    else none
  | [kind, violated, unknown] =>
    if kind = "partial" then do
      let violated ← encodedMask violated
      let unknown ← encodedMask unknown
      return "partial:" ++ violated ++ ":" ++ unknown
    else none
  | _ => none

/-- A region of the terrain: a status or a signature, in canonical form. -/
def terrainRegion (value : Option String) : Option String :=
  value.bind fun value => (statusRegion value).or (signatureOf value)

/-- The name of a region of the comparison, as links have it. -/
def regionName : ComparisonRegionKey → String
  | .common => "common"
  | .leftOnly => "left_only"
  | .rightOnly => "right_only"

/-- The region of the comparison a text names. -/
def comparisonRegion (value : Option String) : Option ComparisonRegionKey :=
  value.bind fun value => comparisonRegions.find? fun region => regionName region == value

/-- The name of a side, as links have it. -/
def sideName : ComparisonSide → String
  | .left => "left"
  | .right => "right"

/-- The side a text names. -/
def comparisonSide (value : Option String) : Option ComparisonSide :=
  value.bind fun value => [ComparisonSide.left, .right].find? fun side => sideName side == value

-- ---------------------------------------------------------------------------
-- The policy filter
-- ---------------------------------------------------------------------------

/-- The texts before and after the first colon. -/
def cutColon (value : String) : Option (String × String) :=
  match value.toList.dropWhile (· != ':') with
  | [] => none
  | _ :: payload =>
    some (String.ofList (value.toList.takeWhile (· != ':')), String.ofList payload)

/-- The filter a text names; whatever is not one shows everything. -/
def parseComparisonPolicyFilter (value : Option String) : ComparisonPolicyFilter :=
  match value with
  | none => .all
  | some value =>
    if value = "all" then .all
    else match cutColon value with
      | none => .all
      | some (kind, payload) =>
        if kind = "rule" then ((ruleId (some payload)).map .rule).getD .all
        else if kind = "status" then ((comparisonPolicyStatus payload).map .status).getD .all
        else if kind = "signature" then ((signatureOf payload).map .signature).getD .all
        else .all

/-- A filter as links have it; what shows everything is left out. -/
def serializeComparisonPolicyFilter : ComparisonPolicyFilter → Option String
  | .all => none
  | .rule rule => (ruleId (some (ruleIdName rule))).map fun rule => "rule:" ++ ruleIdName rule
  | .status status =>
    (comparisonPolicyStatus (policyStatusName status)).map fun status =>
      "status:" ++ policyStatusName status
  | .signature signature => (signatureOf signature).map fun signature => "signature:" ++ signature

-- ---------------------------------------------------------------------------
-- The two pages
-- ---------------------------------------------------------------------------

/-- `parseNodeViewState`: each field is read on its own; a rule and a region
together select neither. -/
def parseNodeViewState (params : Params) : NodeViewState :=
  let rule := ruleId (singleValue params "rule")
  let region := terrainRegion (singleValue params "region")
  { source := sourceId (singleValue params "source")
    classifier := classifierId (singleValue params "classifier")
    selection :=
      match rule, region with
      | some _, some _ => none
      | some rule, none => some (.rule rule)
      | none, some region => some (.region region)
      | none, none => none
    txid := txid (singleValue params "txid") }

/-- `params.set(key, value)` when there is a value. -/
def setSome (params : Params) (key : String) (value : Option String) : Params :=
  match value with
  | none => params
  | some value => set params key value

/-- The parameters of a node's link. -/
def nodeParams (state : NodeViewState) : Params :=
  let params := setSome [] "source" (sourceId state.source)
  let params := setSome params "classifier" (classifierId state.classifier)
  let params := match state.selection with
    | some (.rule rule) => setSome params "rule" ((ruleId (some (ruleIdName rule))).map ruleIdName)
    | some (.region regionKey) => setSome params "region" (terrainRegion (some regionKey))
    | none => params
  setSome params "txid" (txid state.txid)

/-- `serializeNodeViewState`: the link of a node's view. -/
def serializeNodeViewState (codec : Codec) (state : NodeViewState) : String :=
  codec.encode (nodeParams state)

/-- Both sources of a pair, when they are two. -/
def validPair (left right : Option String) : Option (String × String) :=
  match left, right with
  | some left, some right => if left = right then none else some (left, right)
  | _, _ => none

/-- `parseComparisonViewState`: the two sources count only together, and differ. -/
def parseComparisonViewState (params : Params) : ComparisonViewState :=
  let pair := validPair (sourceId (singleValue params "left")) (sourceId (singleValue params "right"))
  { left := pair.map Prod.fst
    right := pair.map Prod.snd
    region := comparisonRegion (singleValue params "region")
    side := comparisonSide (singleValue params "side")
    filter := parseComparisonPolicyFilter (singleValue params "filter")
    txid := txid (singleValue params "txid") }

/-- The parameters of a comparison's link. -/
def comparisonParams (state : ComparisonViewState) : Params :=
  let pair := validPair (sourceId state.left) (sourceId state.right)
  let params := setSome [] "left" (pair.map Prod.fst)
  let params := setSome params "right" (pair.map Prod.snd)
  let params := setSome params "region"
    ((comparisonRegion (state.region.map regionName)).map regionName)
  let params := setSome params "side" ((comparisonSide (state.side.map sideName)).map sideName)
  let params := setSome params "filter" (serializeComparisonPolicyFilter state.filter)
  setSome params "txid" (txid state.txid)

/-- `serializeComparisonViewState`: the link of a comparison. -/
def serializeComparisonViewState (codec : Codec) (state : ComparisonViewState) : String :=
  codec.encode (comparisonParams state)

-- ---------------------------------------------------------------------------
-- Readers read what they gave
-- ---------------------------------------------------------------------------

theorem filter_filter_self {α : Type} (keep : α → Bool) (value : Option α) :
    (value.filter keep).filter keep = value.filter keep := by
  cases value with
  | none => rfl
  | some value => cases hKeep : keep value <;> simp [Option.filter, hKeep]

/-- The letters in both cases, as far as the readers tell them apart. -/
theorem letters : ∀ n < 26, let upper := Char.ofNat (65 + n); let lower := Char.ofNat (97 + n)
    upper.toLower = lower ∧ lower.toLower = lower ∧ isHexDigit lower = isHexDigit upper ∧
      digitValue lower = digitValue upper ∧ (lower = ':' ↔ upper = ':') := by decide

/-- What `toLower` does to a character. -/
theorem toLower_cases (c : Char) :
    c.toLower = c ∨ ∃ n < 26, c = Char.ofNat (65 + n) ∧ c.toLower = Char.ofNat (97 + n) := by
  by_cases hUpper : 65 ≤ c.toNat ∧ c.toNat ≤ 90
  · right
    have hChar : c = Char.ofNat c.toNat := (Char.ofNat_toNat c).symm
    refine ⟨c.toNat - 65, by omega, ?_, ?_⟩
    · rw [Nat.add_sub_cancel' hUpper.1]
      exact hChar
    · have hOne := (letters (c.toNat - 65) (by omega)).1
      rwa [Nat.add_sub_cancel' hUpper.1, ← hChar] at hOne
  · left
    rw [Char.toLower, dif_neg]
    intro h
    exact hUpper ⟨h.1, h.2⟩

theorem toLower_toLower (c : Char) : c.toLower.toLower = c.toLower := by
  rcases toLower_cases c with h | ⟨n, hn, -, hLower⟩
  · rw [h, h]
  · rw [hLower, (letters n hn).2.1]

theorem isHexDigit_toLower (c : Char) : isHexDigit c.toLower = isHexDigit c := by
  rcases toLower_cases c with h | ⟨n, hn, hUpper, hLower⟩
  · rw [h]
  · rw [hLower, (letters n hn).2.2.1, ← hUpper]

theorem digitValue_toLower (c : Char) : digitValue c.toLower = digitValue c := by
  rcases toLower_cases c with h | ⟨n, hn, hUpper, hLower⟩
  · rw [h]
  · rw [hLower, (letters n hn).2.2.2.1, ← hUpper]

theorem toLower_eq_colon (c : Char) : c.toLower = ':' ↔ c = ':' := by
  rcases toLower_cases c with h | ⟨n, hn, hUpper, hLower⟩
  · rw [h]
  · rw [hLower, (letters n hn).2.2.2.2, ← hUpper]

@[simp] theorem toList_toLowerCase (value : String) :
    (toLowerCase value).toList = value.toList.map Char.toLower := String.toList_ofList

theorem all_isHexDigit_toLower (digits : List Char) :
    (digits.map Char.toLower).all isHexDigit = digits.all isHexDigit := by
  rw [List.all_map]
  exact congrArg digits.all (funext isHexDigit_toLower)

theorem parseHex_toLower (digits : List Char) :
    parseHex (digits.map Char.toLower) = parseHex digits := by
  rw [parseHex, List.foldl_map, parseHex]
  exact congrArg (fun step => digits.foldl step 0)
    (funext fun value => funext fun digit => by rw [digitValue_toLower])

theorem toLowerCase_toLowerCase (value : String) :
    toLowerCase (toLowerCase value) = toLowerCase value := by
  rw [toLowerCase, toList_toLowerCase, List.map_map]
  exact congrArg (fun step => String.ofList (value.toList.map step)) (funext toLower_toLower)

theorem isTxid_toLowerCase (value : String) : isTxid (toLowerCase value) = isTxid value := by
  rw [isTxid, toList_toLowerCase, List.length_map, all_isHexDigit_toLower, isTxid]

/-- An accepted source id is accepted again. -/
theorem sourceId_sourceId (value : Option String) : sourceId (sourceId value) = sourceId value :=
  filter_filter_self isSourceId value

/-- An accepted classifier key is accepted again. -/
theorem classifierId_classifierId (value : Option String) :
    classifierId (classifierId value) = classifierId value := filter_filter_self isClassifierKey value

theorem txid_toLowerCase (value : String) : txid (some (toLowerCase value)) = txid (some value) := by
  rw [txid, txid, Option.filter_some, Option.filter_some, isTxid_toLowerCase]
  split
  · rw [Option.map_some, Option.map_some, toLowerCase_toLowerCase]
  · rfl

/-- A canonical identifier reads back as itself. -/
theorem txid_txid (value : Option String) : txid (txid value) = txid value := by
  cases value with
  | none => rfl
  | some value =>
    cases hTxid : isTxid value with
    | true =>
      have hRead : txid (some value) = some (toLowerCase value) := by
        rw [txid, Option.filter_some, hTxid]
        rfl
      rw [hRead, txid_toLowerCase, hRead]
    | false =>
      have hRead : txid (some value) = none := by
        rw [txid, Option.filter_some, hTxid]
        rfl
      rw [hRead]
      rfl

/-- Every rule is read back from its name. -/
theorem ruleId_ruleIdName (rule : Bip110RuleId) : ruleId (some (ruleIdName rule)) = some rule := by
  cases rule <;> decide

/-- Every status is read back from its name. -/
theorem comparisonPolicyStatus_name (status : ComparisonPolicyStatus) :
    comparisonPolicyStatus (policyStatusName status) = some status := by
  cases status <;> decide

/-- Every region is read back from its name. -/
theorem comparisonRegion_name (region : Option ComparisonRegionKey) :
    comparisonRegion (region.map regionName) = region := by
  rcases region with _ | _ | _ | _ <;> decide

/-- Every side is read back from its name. -/
theorem comparisonSide_name (side : Option ComparisonSide) :
    comparisonSide (side.map sideName) = side := by
  rcases side with _ | _ | _ <;> decide

theorem statusRegion_eq_some {value region : String} (h : statusRegion value = some region) :
    region = value := by
  unfold statusRegion at h
  split at h
  · exact (Option.some.inj h).symm
  · cases h

-- ---------------------------------------------------------------------------
-- Masks and signatures
-- ---------------------------------------------------------------------------

/-- The two digits of a mask. -/
theorem maskDigits : ∀ mask < 128,
    let digits := (Nat.toDigits 16 mask).leftpad 2 '0'
    digits.length = 2 ∧ digits.all isHexDigit = true ∧ parseHex digits = mask ∧ ':' ∉ digits := by
  decide

/-- A canonical mask reads back as itself. -/
theorem encodedMask_paddedHex (mask : Nat) (hLt : mask < 128) (h : 0 < mask) :
    encodedMask (paddedHex mask) = some (paddedHex mask) := by
  obtain ⟨hLength, hDigits, hValue, -⟩ := maskDigits mask hLt
  have hLimit : mask ≤ ruleMaskLimit := Nat.le_of_lt_succ hLt
  rw [encodedMask, paddedHex, String.toList_ofList, if_pos ⟨.inr hLength, hDigits⟩]
  dsimp only
  rw [hValue, if_pos ⟨h, hLimit⟩, paddedHex]

theorem paddedHex_not_colon (mask : Nat) (hLt : mask < 128) : ':' ∉ (paddedHex mask).toList := by
  rw [paddedHex, String.toList_ofList]
  exact (maskDigits mask hLt).2.2.2

/-- What is accepted as a mask is the canonical form of one. -/
theorem encodedMask_eq_some {value encoded : String} (h : encodedMask value = some encoded) :
    ∃ mask, 0 < mask ∧ mask < 128 ∧ encoded = paddedHex mask := by
  unfold encodedMask at h
  split at h
  · dsimp only at h
    split at h
    · next hBounds =>
      exact ⟨_, hBounds.1, Nat.lt_succ_of_le hBounds.2, (Option.some.inj h).symm⟩
    · cases h
  · cases h

/-- The case of its digits does not change a mask. -/
theorem encodedMask_toLowerCase (value : String) :
    encodedMask (toLowerCase value) = encodedMask value := by
  rw [encodedMask, toList_toLowerCase, List.length_map, all_isHexDigit_toLower, parseHex_toLower,
    encodedMask]

theorem splitColons_append {kind : String} (h : ':' ∉ kind.toList) (rest : String) :
    splitColons (kind ++ ":" ++ rest) = kind :: splitColons rest := by
  have hList : (kind ++ ":" ++ rest).toList = kind.toList ++ ':' :: rest.toList := by simp
  rw [splitColons, hList, List.splitOn_append_cons_self_of_not_mem h, List.map_cons,
    String.ofList_toList, splitColons]

theorem splitColons_of_not_mem {value : String} (h : ':' ∉ value.toList) :
    splitColons value = [value] := by
  rw [splitColons, List.splitOn_eq_singleton h, List.map_singleton, String.ofList_toList]

theorem exact_colon : "exact:" = "exact" ++ ":" := rfl

theorem partial_colon : "partial:" = "partial" ++ ":" := rfl

theorem signatureOf_exact {mask : Nat} (h : 0 < mask) (hLt : mask < 128) :
    signatureOf ("exact:" ++ paddedHex mask) = some ("exact:" ++ paddedHex mask) := by
  have hSplit : splitColons ("exact:" ++ paddedHex mask) = ["exact", paddedHex mask] := by
    rw [exact_colon, splitColons_append (by decide),
      splitColons_of_not_mem (paddedHex_not_colon mask hLt)]
  rw [signatureOf, hSplit]
  dsimp only
  rw [if_pos rfl, encodedMask_paddedHex mask hLt h]
  rfl

theorem signatureOf_partial {violated unknown : Nat} (hViolated : 0 < violated)
    (hViolatedLt : violated < 128) (hUnknown : 0 < unknown) (hUnknownLt : unknown < 128) :
    signatureOf ("partial:" ++ paddedHex violated ++ ":" ++ paddedHex unknown) =
      some ("partial:" ++ paddedHex violated ++ ":" ++ paddedHex unknown) := by
  have hSplit : splitColons ("partial:" ++ paddedHex violated ++ ":" ++ paddedHex unknown) =
      ["partial", paddedHex violated, paddedHex unknown] := by
    have hAssoc : "partial:" ++ paddedHex violated ++ ":" ++ paddedHex unknown =
        "partial" ++ ":" ++ (paddedHex violated ++ ":" ++ paddedHex unknown) := by
      rw [partial_colon]
      simp only [String.append_assoc]
    rw [hAssoc, splitColons_append (by decide),
      splitColons_append (paddedHex_not_colon violated hViolatedLt),
      splitColons_of_not_mem (paddedHex_not_colon unknown hUnknownLt)]
  rw [signatureOf, hSplit]
  dsimp only
  rw [if_pos rfl, encodedMask_paddedHex violated hViolatedLt hViolated,
    encodedMask_paddedHex unknown hUnknownLt hUnknown]
  rfl

/-- The signatures that are read: an exact one, or a partial one, of sets that are not empty. -/
theorem signatureOf_eq_some {value key : String} (h : signatureOf value = some key) :
    (∃ mask, 0 < mask ∧ mask < 128 ∧ key = "exact:" ++ paddedHex mask) ∨
      ∃ violated unknown, 0 < violated ∧ violated < 128 ∧ 0 < unknown ∧ unknown < 128 ∧
        key = "partial:" ++ paddedHex violated ++ ":" ++ paddedHex unknown := by
  unfold signatureOf at h
  split at h
  · split at h
    · obtain ⟨violated, hViolated, hKey⟩ := Option.bind_eq_some_iff.mp h
      obtain ⟨mask, hPos, hLt, rfl⟩ := encodedMask_eq_some hViolated
      exact .inl ⟨mask, hPos, hLt, (Option.some.inj hKey).symm⟩
    · cases h
  · split at h
    · obtain ⟨violated, hViolated, hRest⟩ := Option.bind_eq_some_iff.mp h
      obtain ⟨unknown, hUnknown, hKey⟩ := Option.bind_eq_some_iff.mp hRest
      obtain ⟨mask, hPos, hLt, rfl⟩ := encodedMask_eq_some hViolated
      obtain ⟨mask', hPos', hLt', rfl⟩ := encodedMask_eq_some hUnknown
      exact .inr ⟨mask, mask', hPos, hLt, hPos', hLt', (Option.some.inj hKey).symm⟩
    · cases h
  · cases h

/-- A canonical signature reads back as itself. -/
theorem signatureOf_signatureOf {value key : String} (h : signatureOf value = some key) :
    signatureOf key = some key := by
  rcases signatureOf_eq_some h with ⟨mask, hPos, hLt, rfl⟩ |
    ⟨violated, unknown, hViolated, hViolatedLt, hUnknown, hUnknownLt, rfl⟩
  · exact signatureOf_exact hPos hLt
  · exact signatureOf_partial hViolated hViolatedLt hUnknown hUnknownLt

theorem terrainRegion_of_signatureOf {key : String} (h : signatureOf key = some key) :
    terrainRegion (some key) = some key := by
  show (statusRegion key).or (signatureOf key) = some key
  cases hStatus : statusRegion key with
  | none => exact h
  | some region =>
    rw [statusRegion_eq_some hStatus]
    rfl

/-- A canonical region reads back as itself. -/
theorem terrainRegion_terrainRegion {value : Option String} {key : String}
    (h : terrainRegion value = some key) : terrainRegion (some key) = some key := by
  obtain ⟨value, rfl, hValue⟩ := Option.bind_eq_some_iff.mp h
  rcases Option.or_eq_some_iff.mp hValue with hStatus | ⟨-, hSignature⟩
  · rw [statusRegion_eq_some hStatus] at h ⊢
    have hSame := statusRegion_eq_some hStatus
    show (statusRegion value).or _ = _
    rw [hStatus, hSame]
    rfl
  · exact terrainRegion_of_signatureOf (signatureOf_signatureOf hSignature)

-- ---------------------------------------------------------------------------
-- The policy filter
-- ---------------------------------------------------------------------------

theorem cutColon_append {kind : String} (h : ':' ∉ kind.toList) (payload : String) :
    cutColon (kind ++ ":" ++ payload) = some (kind, payload) := by
  have hList : (kind ++ ":" ++ payload).toList = kind.toList ++ ':' :: payload.toList := by simp
  have hKind : ∀ c ∈ kind.toList, (c != ':') = true := fun c hMem =>
    bne_iff_ne.mpr fun hColon => h (hColon ▸ hMem)
  rw [cutColon, hList, List.dropWhile_append_of_pos hKind, List.dropWhile_cons_of_neg (by decide),
    List.takeWhile_append_of_pos hKind, List.takeWhile_cons_of_neg (by decide), List.append_nil,
    String.ofList_toList]
  dsimp only
  rw [String.ofList_toList]

/-- A text with a colon is not one without. -/
theorem append_colon_ne {kind payload text : String} (h : ':' ∉ text.toList) :
    kind ++ ":" ++ payload ≠ text := by
  rintro rfl
  exact h (by simp)

theorem parseComparisonPolicyFilter_append {kind : String} (h : ':' ∉ kind.toList)
    (payload : String) :
    parseComparisonPolicyFilter (some (kind ++ ":" ++ payload)) =
      if kind = "rule" then ((ruleId (some payload)).map .rule).getD .all
      else if kind = "status" then ((comparisonPolicyStatus payload).map .status).getD .all
      else if kind = "signature" then ((signatureOf payload).map .signature).getD .all
      else .all := by
  rw [parseComparisonPolicyFilter, if_neg (append_colon_ne (by decide)), cutColon_append h]

/-- A filter that can be linked: its signature, if any, is one that is read. -/
def Linkable : ComparisonPolicyFilter → Prop
  | .signature signature => signatureOf signature = some signature
  | _ => True

/-- A filter read from a link can be written to one. -/
theorem linkable_parse (value : Option String) : Linkable (parseComparisonPolicyFilter value) := by
  unfold parseComparisonPolicyFilter
  split
  · trivial
  · split
    · trivial
    · split
      · trivial
      · next kind payload _ =>
        split
        · cases ruleId (some payload) <;> trivial
        · split
          · cases comparisonPolicyStatus payload <;> trivial
          · split
            · cases hSignature : signatureOf payload with
              | none => trivial
              | some signature => exact signatureOf_signatureOf hSignature
            · trivial

/-- **A linkable filter survives its link.** -/
theorem parse_serialize_filter {filter : ComparisonPolicyFilter} (h : Linkable filter) :
    parseComparisonPolicyFilter (serializeComparisonPolicyFilter filter) = filter := by
  have hRule : "rule:" = "rule" ++ ":" := rfl
  have hStatus : "status:" = "status" ++ ":" := rfl
  have hSignature : "signature:" = "signature" ++ ":" := rfl
  cases filter with
  | all => rfl
  | rule rule =>
    rw [serializeComparisonPolicyFilter, ruleId_ruleIdName, Option.map_some, hRule,
      parseComparisonPolicyFilter_append (by decide), if_pos rfl, ruleId_ruleIdName]
    rfl
  | status status =>
    rw [serializeComparisonPolicyFilter, comparisonPolicyStatus_name, Option.map_some, hStatus,
      parseComparisonPolicyFilter_append (by decide), if_neg (by decide), if_pos rfl,
      comparisonPolicyStatus_name]
    rfl
  | signature signature =>
    have hRead : signatureOf signature = some signature := h
    rw [serializeComparisonPolicyFilter, hRead, Option.map_some, hSignature,
      parseComparisonPolicyFilter_append (by decide), if_neg (by decide), if_neg (by decide),
      if_pos rfl, hRead]
    rfl

-- ---------------------------------------------------------------------------
-- Writing and reading back
-- ---------------------------------------------------------------------------

@[simp] theorem singleValue_setSome_self (params : Params) (key : String) (value : Option String) :
    singleValue (setSome params key value) key = value.or (singleValue params key) := by
  cases value with
  | none => rfl
  | some value =>
    rw [setSome, singleValue, getAll_set_self]
    rfl

theorem singleValue_setSome_of_ne {key other : String} (h : other ≠ key) (params : Params)
    (value : Option String) :
    singleValue (setSome params key value) other = singleValue params other := by
  cases value with
  | none => rfl
  | some value => rw [setSome, singleValue, getAll_set_of_ne h, singleValue]

theorem singleValue_nil (key : String) : singleValue [] key = none := rfl

/-- What the query of a selection carries. -/
def selectedRule : Option TerrainSelection → Option String
  | some (.rule rule) => (ruleId (some (ruleIdName rule))).map ruleIdName
  | _ => none

/-- The region of a selection, in canonical form. -/
def selectedRegion : Option TerrainSelection → Option String
  | some (.region regionKey) => terrainRegion (some regionKey)
  | _ => none

/-- The parameters of a node's link are set one after the other, on nothing. -/
theorem nodeParams_eq (state : NodeViewState) :
    nodeParams state = setSome (setSome (setSome (setSome (setSome [] "source"
      (sourceId state.source)) "classifier" (classifierId state.classifier)) "rule"
      (selectedRule state.selection)) "region" (selectedRegion state.selection)) "txid"
      (txid state.txid) := by
  unfold nodeParams
  rcases state.selection with _ | _ | _ <;> rfl

/-- What a node's link reads back: each field in canonical form. -/
theorem parseNodeViewState_nodeParams (state : NodeViewState) :
    parseNodeViewState (nodeParams state) = {
      source := sourceId state.source
      classifier := classifierId state.classifier
      selection := state.selection.bind fun
        | .rule rule => some (.rule rule)
        | .region regionKey => (terrainRegion (some regionKey)).map .region
      txid := txid state.txid } := by
  have hRule : ruleId (selectedRule state.selection) =
      state.selection.bind fun | .rule rule => some rule | .region _ => none := by
    rcases state.selection with _ | rule | regionKey
    · rfl
    · show ruleId ((ruleId (some (ruleIdName rule))).map ruleIdName) = some rule
      rw [ruleId_ruleIdName, Option.map_some, ruleId_ruleIdName]
    · rfl
  have hRegion : terrainRegion (selectedRegion state.selection) = selectedRegion state.selection := by
    rcases state.selection with _ | rule | regionKey
    · rfl
    · rfl
    · show terrainRegion (terrainRegion (some regionKey)) = terrainRegion (some regionKey)
      cases hRead : terrainRegion (some regionKey) with
      | none => rfl
      | some key => exact terrainRegion_terrainRegion hRead
  rw [nodeParams_eq, parseNodeViewState]
  simp only [singleValue_setSome_self, singleValue_setSome_of_ne, singleValue_nil, ne_eq,
    String.reduceEq, not_false_eq_true, Option.or_none, sourceId_sourceId,
    classifierId_classifierId, txid_txid, hRule, hRegion]
  congr 1
  rcases state.selection with _ | rule | regionKey
  · rfl
  · rfl
  · cases hRead : terrainRegion (some regionKey) <;> simp [selectedRegion, hRead]

theorem validPair_eq_some {left right : Option String} {pair : String × String}
    (h : validPair left right = some pair) :
    left = some pair.1 ∧ right = some pair.2 ∧ pair.1 ≠ pair.2 := by
  unfold validPair at h
  split at h
  · split at h
    · cases h
    · next hNe =>
      obtain rfl := Option.some.inj h
      exact ⟨rfl, rfl, hNe⟩
  · cases h

/-- The pair that is written is the pair that is read. -/
theorem validPair_validPair (left right : Option String) :
    let pair := validPair (sourceId left) (sourceId right)
    validPair (sourceId (pair.map Prod.fst)) (sourceId (pair.map Prod.snd)) = pair := by
  intro pair
  cases hPair : pair with
  | none => rfl
  | some found =>
    obtain ⟨hLeft, hRight, hNe⟩ := validPair_eq_some hPair
    rw [Option.map_some, Option.map_some, ← hLeft, ← hRight, sourceId_sourceId,
      sourceId_sourceId, hLeft, hRight]
    exact if_neg hNe

/-- What a comparison's link reads back: each field in canonical form. -/
theorem parseComparisonViewState_comparisonParams {state : ComparisonViewState}
    (h : Linkable state.filter) :
    parseComparisonViewState (comparisonParams state) = {
      left := (validPair (sourceId state.left) (sourceId state.right)).map Prod.fst
      right := (validPair (sourceId state.left) (sourceId state.right)).map Prod.snd
      region := state.region
      side := state.side
      filter := state.filter
      txid := txid state.txid } := by
  rw [parseComparisonViewState, comparisonParams]
  simp only [singleValue_setSome_self, singleValue_setSome_of_ne, singleValue_nil, ne_eq,
    String.reduceEq, not_false_eq_true, Option.or_none, validPair_validPair, comparisonRegion_name,
    comparisonSide_name, txid_txid, parse_serialize_filter h]

/-- **A node's view read from a link survives it.** -/
theorem parseNodeViewState_nodeParams_parse (params : Params) :
    parseNodeViewState (nodeParams (parseNodeViewState params)) = parseNodeViewState params := by
  rw [parseNodeViewState_nodeParams]
  simp only [parseNodeViewState, sourceId_sourceId, classifierId_classifierId, txid_txid]
  congr 1
  cases ruleId (singleValue params "rule") with
  | none =>
    cases hRegion : terrainRegion (singleValue params "region") with
    | none => rfl
    | some region =>
      show (terrainRegion (some region)).map TerrainSelection.region = some (.region region)
      rw [terrainRegion_terrainRegion hRegion]
      rfl
  | some rule => cases terrainRegion (singleValue params "region") <;> rfl

/-- **A comparison read from a link survives it.** -/
theorem parseComparisonViewState_comparisonParams_parse (params : Params) :
    parseComparisonViewState (comparisonParams (parseComparisonViewState params)) =
      parseComparisonViewState params := by
  rw [parseComparisonViewState_comparisonParams (linkable_parse _)]
  simp only [parseComparisonViewState, validPair_validPair, txid_txid]

-- ---------------------------------------------------------------------------
-- Queries that say the same
-- ---------------------------------------------------------------------------

/-- The order of the parameters does not change a value. -/
theorem singleValue_perm {params params' : Params} (h : params.Perm params') (key : String) :
    singleValue params key = singleValue params' key := by
  have hAll := getAll_perm h key
  rw [singleValue, singleValue]
  match hValues : getAll params key with
  | [] =>
    rw [hValues] at hAll
    rw [hAll.symm.eq_nil]
  | [value] =>
    rw [hValues] at hAll
    rw [List.singleton_perm.mp hAll]
  | _ :: _ :: _ =>
    rw [hValues] at hAll
    match hValues' : getAll params' key with
    | [] => exact absurd (hValues' ▸ hAll.length_eq) (by simp)
    | [_] => exact absurd (hValues' ▸ hAll.length_eq) (by simp)
    | _ :: _ :: _ => rfl

/-- A query without its unknown parameters and those it repeats. -/
def readable (keys : List String) (params : Params) : Params :=
  params.filter fun pair => keys.contains pair.1 && (getAll params pair.1).length == 1

/-- Parameters nobody reads do not change a value. -/
theorem singleValue_readable {keys : List String} {key : String} (h : key ∈ keys)
    (params : Params) : singleValue (readable keys params) key = singleValue params key := by
  have hAll : getAll (readable keys params) key =
      if (getAll params key).length = 1 then getAll params key else [] := by
    rw [readable, getAll, List.filter_filter]
    split
    · next hOne =>
      rw [getAll]
      refine congrArg (List.map Prod.snd) (List.filter_congr fun pair _ => ?_)
      by_cases hKey : pair.1 = key
      · simp [hKey, h, hOne]
      · simp [hKey]
    · next hMany =>
      rw [List.map_eq_nil_iff, List.filter_eq_nil_iff]
      intro pair _
      by_cases hKey : pair.1 = key
      · simp [hKey, hMany]
      · simp [hKey]
  rw [singleValue, singleValue, hAll]
  cases getAll params key with
  | nil => rfl
  | cons value rest =>
    cases rest with
    | nil => rfl
    | cons => rfl

/-- Signatures that differ in the case of their masks only. -/
def MaskCase (value value' : String) : Prop :=
  ∃ kind mask mask', ':' ∉ kind.toList ∧ value = kind ++ ":" ++ mask ∧
    value' = kind ++ ":" ++ mask' ∧ toLowerCase mask = toLowerCase mask'

/-- Values that differ in the case of hexadecimal digits only: of a txid, or of
the masks after `lead` in the parameter that carries them. -/
def HexCase (maskKey lead key value value' : String) : Prop :=
  value = value' ∨ key = "txid" ∧ toLowerCase value = toLowerCase value' ∨
    key = maskKey ∧ ∃ signature signature', value = lead ++ signature ∧
      value' = lead ++ signature' ∧ MaskCase signature signature'

/-- Two links that differ in the case of hexadecimal digits only. -/
def SameUpToHexCase (maskKey lead : String) (params params' : Params) : Prop :=
  List.Forall₂ (fun pair pair' => pair.1 = pair'.1 ∧ HexCase maskKey lead pair.1 pair.2 pair'.2)
    params params'

theorem getAll_hexCase {maskKey lead : String} {params params' : Params}
    (h : SameUpToHexCase maskKey lead params params') (key : String) :
    List.Forall₂ (HexCase maskKey lead key) (getAll params key) (getAll params' key) := by
  induction h with
  | nil => exact .nil
  | @cons pair pair' rest rest' hPair _ ih =>
    obtain ⟨hKey, hCase⟩ := hPair
    by_cases hHere : pair.1 = key
    · rw [getAll_cons_of_eq hHere, getAll_cons_of_eq (hKey ▸ hHere)]
      exact .cons (hHere ▸ hCase) ih
    · rw [getAll_cons_of_ne hHere, getAll_cons_of_ne (hKey ▸ hHere)]
      exact ih

/-- Readers that do not see the case read the same from both queries. -/
theorem read_hexCase {α : Type} {maskKey lead key : String} {params params' : Params}
    (h : SameUpToHexCase maskKey lead params params') (read : Option String → α)
    (hRead : ∀ value value', HexCase maskKey lead key value value' →
      read (some value) = read (some value')) :
    read (singleValue params key) = read (singleValue params' key) := by
  have hAll := getAll_hexCase h key
  rw [singleValue, singleValue]
  match getAll params key, getAll params' key, hAll with
  | [], [], .nil => rfl
  | [value], [value'], .cons hCase .nil => exact hRead value value' hCase
  | _ :: _ :: _, _ :: _ :: _, .cons _ (.cons _ _) => rfl

theorem splitOn_map_toLower (text : List Char) :
    (text.map Char.toLower).splitOn ':' = (text.splitOn ':').map (List.map Char.toLower) := by
  induction text with
  | nil => rfl
  | cons c rest ih =>
    rw [List.map_cons, List.splitOn_cons_eq_if_modifyHead, List.splitOn_cons_eq_if_modifyHead, ih]
    by_cases hColon : c = ':'
    · rw [if_pos (by rw [beq_iff_eq, toLower_eq_colon]; exact hColon),
        if_pos (by rw [beq_iff_eq]; exact hColon), List.map_cons]
      rfl
    · rw [if_neg (by rw [beq_iff_eq, toLower_eq_colon]; exact hColon),
        if_neg (by rw [beq_iff_eq]; exact hColon)]
      cases rest.splitOn ':' <;> rfl

theorem encodedMasks_toLowerCase (value : String) :
    (splitColons (toLowerCase value)).map encodedMask = (splitColons value).map encodedMask := by
  rw [splitColons, toList_toLowerCase, splitOn_map_toLower, splitColons, List.map_map, List.map_map,
    List.map_map]
  refine List.map_congr_left fun part _ => ?_
  have hLower := encodedMask_toLowerCase (String.ofList part)
  rw [toLowerCase, String.toList_ofList] at hLower
  exact hLower

/-- A signature's reading, from its kind and the readings of its masks. -/
theorem signatureOf_append {kind : String} (h : ':' ∉ kind.toList) (rest : String) :
    signatureOf (kind ++ ":" ++ rest) =
      match (splitColons rest).map encodedMask with
      | [violated] => if kind = "exact" then violated.map fun violated => "exact:" ++ violated else none
      | [violated, unknown] =>
        if kind = "partial" then violated.bind fun violated => unknown.map fun unknown =>
          "partial:" ++ violated ++ ":" ++ unknown
        else none
      | _ => none := by
  rw [signatureOf, splitColons_append h]
  match splitColons rest with
  | [] => rfl
  | [violated] =>
    show (if kind = "exact" then _ else _) = if kind = "exact" then _ else _
    cases encodedMask violated <;> rfl
  | [violated, unknown] =>
    show (if kind = "partial" then _ else _) = if kind = "partial" then _ else _
    cases encodedMask violated <;> cases encodedMask unknown <;> rfl
  | _ :: _ :: _ :: _ => rfl

/-- The case of its masks does not change a signature. -/
theorem signatureOf_maskCase {value value' : String} (h : MaskCase value value') :
    signatureOf value = signatureOf value' := by
  obtain ⟨kind, mask, mask', hKind, rfl, rfl, hSame⟩ := h
  rw [signatureOf_append hKind, signatureOf_append hKind, ← encodedMasks_toLowerCase mask, hSame,
    encodedMasks_toLowerCase]

theorem statusRegion_append (kind rest : String) : statusRegion (kind ++ ":" ++ rest) = none := by
  refine if_neg ?_
  rintro (h | h | h)
  · exact append_colon_ne (by decide) h
  · exact append_colon_ne (by decide) h
  · exact append_colon_ne (by decide) h

theorem terrainRegion_maskCase {value value' : String} (h : MaskCase value value') :
    terrainRegion (some value) = terrainRegion (some value') := by
  have hSignature := signatureOf_maskCase h
  obtain ⟨kind, mask, mask', -, rfl, rfl, -⟩ := h
  show (statusRegion _).or _ = (statusRegion _).or _
  rw [statusRegion_append, statusRegion_append, hSignature]

theorem txid_of_toLowerCase {value value' : String} (h : toLowerCase value = toLowerCase value') :
    txid (some value) = txid (some value') := by
  rw [← txid_toLowerCase, h, txid_toLowerCase]

theorem parseComparisonPolicyFilter_maskCase {signature signature' : String}
    (h : MaskCase signature signature') :
    parseComparisonPolicyFilter (some ("signature:" ++ signature)) =
      parseComparisonPolicyFilter (some ("signature:" ++ signature')) := by
  have hSignature : "signature:" = "signature" ++ ":" := rfl
  rw [hSignature, parseComparisonPolicyFilter_append (by decide),
    parseComparisonPolicyFilter_append (by decide), signatureOf_maskCase h]
  rfl

/-- The parameters a node's link reads. -/
def nodeKeys : List String := ["source", "classifier", "rule", "region", "txid"]

/-- The parameters a comparison's link reads. -/
def comparisonKeys : List String := ["left", "right", "region", "side", "filter", "txid"]

/-- A node's view depends on its own parameters only. -/
theorem parseNodeViewState_congr {params params' : Params}
    (h : ∀ key ∈ nodeKeys, singleValue params key = singleValue params' key) :
    parseNodeViewState params = parseNodeViewState params' := by
  simp only [nodeKeys, List.forall_mem_cons, List.not_mem_nil, false_implies, implies_true,
    and_true] at h
  obtain ⟨hSource, hClassifier, hRule, hRegion, hTxid⟩ := h
  rw [parseNodeViewState, parseNodeViewState, hSource, hClassifier, hRule, hRegion, hTxid]

/-- A comparison depends on its own parameters only. -/
theorem parseComparisonViewState_congr {params params' : Params}
    (h : ∀ key ∈ comparisonKeys, singleValue params key = singleValue params' key) :
    parseComparisonViewState params = parseComparisonViewState params' := by
  simp only [comparisonKeys, List.forall_mem_cons, List.not_mem_nil, false_implies, implies_true,
    and_true] at h
  obtain ⟨hLeft, hRight, hRegion, hSide, hFilter, hTxid⟩ := h
  rw [parseComparisonViewState, parseComparisonViewState, hLeft, hRight, hRegion, hSide, hFilter,
    hTxid]

/-- A parameter whose value keeps its case. -/
theorem singleValue_hexCase {maskKey lead key : String} {params params' : Params}
    (h : SameUpToHexCase maskKey lead params params') (hTxid : key ≠ "txid")
    (hMask : key ≠ maskKey) : singleValue params key = singleValue params' key :=
  read_hexCase h id fun value value' hCase => by
    rcases hCase with rfl | ⟨hKey, -⟩ | ⟨hKey, -⟩
    · rfl
    · exact absurd hKey hTxid
    · exact absurd hKey hMask

theorem txid_hexCase {maskKey lead : String} (hMask : "txid" ≠ maskKey) {params params' : Params}
    (h : SameUpToHexCase maskKey lead params params') :
    txid (singleValue params "txid") = txid (singleValue params' "txid") :=
  read_hexCase h txid fun value value' hCase => by
    rcases hCase with rfl | ⟨-, hLower⟩ | ⟨hKey, -⟩
    · rfl
    · exact txid_of_toLowerCase hLower
    · exact absurd hKey hMask

/-- The case of hexadecimal digits does not change a node's view. -/
theorem parseNodeViewState_hexCase {params params' : Params}
    (h : SameUpToHexCase "region" "" params params') :
    parseNodeViewState params = parseNodeViewState params' := by
  have hRegion : terrainRegion (singleValue params "region") =
      terrainRegion (singleValue params' "region") :=
    read_hexCase h terrainRegion fun value value' hCase => by
      rcases hCase with rfl | ⟨hKey, -⟩ | ⟨-, signature, signature', rfl, rfl, hMask⟩
      · rfl
      · exact absurd hKey (by decide)
      · rw [String.empty_append, String.empty_append]
        exact terrainRegion_maskCase hMask
  rw [parseNodeViewState, parseNodeViewState, hRegion, txid_hexCase (by decide) h,
    singleValue_hexCase h (by decide) (by decide : "source" ≠ "region"),
    singleValue_hexCase h (by decide) (by decide : "classifier" ≠ "region"),
    singleValue_hexCase h (by decide) (by decide : "rule" ≠ "region")]

/-- The case of hexadecimal digits does not change a comparison. -/
theorem parseComparisonViewState_hexCase {params params' : Params}
    (h : SameUpToHexCase "filter" "signature:" params params') :
    parseComparisonViewState params = parseComparisonViewState params' := by
  have hFilter : parseComparisonPolicyFilter (singleValue params "filter") =
      parseComparisonPolicyFilter (singleValue params' "filter") :=
    read_hexCase h parseComparisonPolicyFilter fun value value' hCase => by
      rcases hCase with rfl | ⟨hKey, -⟩ | ⟨-, signature, signature', rfl, rfl, hMask⟩
      · rfl
      · exact absurd hKey (by decide)
      · exact parseComparisonPolicyFilter_maskCase hMask
  rw [parseComparisonViewState, parseComparisonViewState, hFilter, txid_hexCase (by decide) h,
    singleValue_hexCase h (by decide) (by decide : "left" ≠ "filter"),
    singleValue_hexCase h (by decide) (by decide : "right" ≠ "filter"),
    singleValue_hexCase h (by decide) (by decide : "region" ≠ "filter"),
    singleValue_hexCase h (by decide) (by decide : "side" ≠ "filter")]

-- ---------------------------------------------------------------------------
-- Selectable populations
-- ---------------------------------------------------------------------------

theorem parsed_consistent {value : Option Json} {assessment : Bip110Assessment}
    (h : parseBip110Assessment value = .ok (some assessment)) : isInconsistent assessment = false := by
  unfold parseBip110Assessment at h
  split at h
  · cases h
  · simp only [Checks.bind_eq_ok, Checks.ensure_eq_ok, exists_const, pure, Except.pure,
      Except.ok.injEq, Option.some.injEq] at h
    obtain ⟨_, -, status, -, primary, -, violated, -, unknown, -, hConsistent, rfl⟩ := h
    exact hConsistent

/-- The signature key of a violating assessment is read as it is. -/
theorem signatureOf_signatureKey {assessment : Bip110Assessment}
    (h : isInconsistent assessment = false) (hStatus : assessment.status = .violating) :
    let key := signatureKey (ruleMask assessment.violatedRules) (ruleMask assessment.unknownRules)
    signatureOf key = some key := by
  have hViolated : assessment.violatedRules ≠ [] := by
    rintro hNone
    rw [isInconsistent, hStatus, hNone] at h
    cases h
  have hPos : 0 < ruleMask assessment.violatedRules :=
    Nat.pos_of_ne_zero fun hZero => hViolated (ruleMask_eq_zero.mp hZero)
  have hLt := ruleMask_lt assessment.violatedRules
  have hUnknownLt := ruleMask_lt assessment.unknownRules
  dsimp only
  rw [signatureKey, encodeMask, encodeMask, and_ruleMaskLimit hLt, and_ruleMaskLimit hUnknownLt]
  split
  · exact signatureOf_exact hPos hLt
  · next hNe => exact signatureOf_partial hPos hLt (Nat.pos_of_ne_zero hNe) hUnknownLt

theorem terrainRegion_of_status {value : String}
    (h : value = "compatible" ∨ value = "indeterminate" ∨ value = "unclassified") :
    terrainRegion (some value) = some value := by
  show (statusRegion value).or _ = _
  rw [statusRegion, if_pos h]
  rfl

/-- The region of a transaction with a consistent assessment is one that links accept. -/
theorem terrainRegion_terrainRegionKey {transaction : MempoolEntry}
    (h : ∀ assessment ∈ transaction.bip110, isInconsistent assessment = false) :
    ∃ key, terrainRegionKey transaction = .ok key ∧ terrainRegion (some key) = some key := by
  cases hAssessment : transaction.bip110 with
  | none =>
    exact ⟨_, terrainRegionKey_unclassified hAssessment,
      terrainRegion_of_status (.inr (.inr rfl))⟩
  | some assessment =>
    by_cases hStatus : assessment.status = .violating
    · exact ⟨_, terrainRegionKey_violating hAssessment hStatus, terrainRegion_of_signatureOf
        (signatureOf_signatureKey (h assessment hAssessment) hStatus)⟩
    · refine ⟨_, terrainRegionKey_status hAssessment hStatus, terrainRegion_of_status ?_⟩
      cases hName : assessment.status with
      | compatible => exact .inl rfl
      | violating => exact absurd hName hStatus
      | indeterminate => exact .inr (.inl rfl)

-- ---------------------------------------------------------------------------
-- The law
-- ---------------------------------------------------------------------------

section
variable {σ : Type} (codec : Codec) (parse : Params → σ) (serialize : σ → String)

/-- What a query is rewritten to. -/
def canonicalQuery (query : String) : String := serialize (parse (codec.decode query))

/-- Reading what was written gives the state back, and what was written is one
text for all queries that say the same. -/
structure SurvivesUrl (keys : List String) (maskKey lead : String) : Prop where
  roundTrip : ∀ query, parse (codec.decode (serialize (parse (codec.decode query)))) =
    parse (codec.decode query)
  idempotent : ∀ query, canonicalQuery codec parse serialize
      (canonicalQuery codec parse serialize query) = canonicalQuery codec parse serialize query
  separates : ∀ query query', canonicalQuery codec parse serialize query =
    canonicalQuery codec parse serialize query' ↔
      parse (codec.decode query) = parse (codec.decode query')
  order : ∀ query query', (codec.decode query).Perm (codec.decode query') →
    canonicalQuery codec parse serialize query = canonicalQuery codec parse serialize query'
  hexCase : ∀ query query',
    SameUpToHexCase maskKey lead (codec.decode query) (codec.decode query') →
      canonicalQuery codec parse serialize query = canonicalQuery codec parse serialize query'
  absent : ∀ query query', codec.decode query' = readable keys (codec.decode query) →
    canonicalQuery codec parse serialize query = canonicalQuery codec parse serialize query'

variable {codec parse serialize}

/-- What a view needs to survive its link: a round trip on read views, and reading that looks at
its own parameters, in any order and any case. -/
theorem SurvivesUrl.of_roundTrip {keys : List String} {maskKey lead : String}
    (hRound : ∀ params, parse (codec.decode (serialize (parse params))) = parse params)
    (hReads : ∀ params params', (∀ key ∈ keys, singleValue params key = singleValue params' key) →
      parse params = parse params')
    (hCase : ∀ params params', SameUpToHexCase maskKey lead params params' →
      parse params = parse params') :
    SurvivesUrl codec parse serialize keys maskKey lead where
  roundTrip query := hRound (codec.decode query)
  idempotent query := congrArg serialize (hRound (codec.decode query))
  separates query query' := by
    constructor
    · intro h
      rw [← hRound (codec.decode query), ← hRound (codec.decode query')]
      exact congrArg (fun text => parse (codec.decode text)) h
    · intro h
      exact congrArg serialize h
  order query query' h :=
    congrArg serialize (hReads _ _ fun key _ => singleValue_perm h key)
  hexCase query query' h := congrArg serialize (hCase _ _ h)
  absent query query' h := by
    refine congrArg serialize (hReads _ _ fun key hKey => ?_)
    rw [h, singleValue_readable hKey]

end

/-- Node and comparison views survive the URL, filters survive their parameter,
and every region, signature, rule and status a page can select is linked
and restored. -/
theorem view_state_survives_url (codec : Codec) :
    SurvivesUrl codec parseNodeViewState (serializeNodeViewState codec) nodeKeys "region" "" ∧
    SurvivesUrl codec parseComparisonViewState (serializeComparisonViewState codec) comparisonKeys
      "filter" "signature:" ∧
    (∀ value, parseComparisonPolicyFilter (serializeComparisonPolicyFilter
      (parseComparisonPolicyFilter value)) = parseComparisonPolicyFilter value) ∧
    (∀ value bip110, parseBip110Assessment value = .ok bip110 →
      (∀ transaction : MempoolEntry, transaction.bip110 = bip110 →
        ∃ key, terrainRegionKey transaction = .ok key ∧ terrainRegion (some key) = some key ∧
          ∀ state : NodeViewState, state.selection = some (.region key) →
            (parseNodeViewState (codec.decode (serializeNodeViewState codec state))).selection =
              state.selection) ∧
      ∀ signature, bip110.bind violationSignature = some signature →
        signatureOf signature.key = some signature.key ∧
        ∀ state : ComparisonViewState, state.filter = .signature signature.key →
          (parseComparisonViewState (codec.decode (serializeComparisonViewState codec state))).filter
            = state.filter) ∧
    (∀ state : NodeViewState, ∀ rule, state.selection = some (.rule rule) →
      (parseNodeViewState (codec.decode (serializeNodeViewState codec state))).selection =
        state.selection) ∧
    ∀ state : ComparisonViewState, (∀ signature, state.filter ≠ .signature signature) →
      (parseComparisonViewState (codec.decode (serializeComparisonViewState codec state))).filter =
        state.filter := by
  have hNode : ∀ state, codec.decode (serializeNodeViewState codec state) = nodeParams state :=
    fun state => codec.decode_encode _
  have hComparison : ∀ state,
      codec.decode (serializeComparisonViewState codec state) = comparisonParams state :=
    fun state => codec.decode_encode _
  refine ⟨?_, ?_, ?_, ?_, ?_, ?_⟩
  · refine .of_roundTrip (fun params => ?_) (fun _ _ => parseNodeViewState_congr)
      fun _ _ => parseNodeViewState_hexCase
    rw [hNode]
    exact parseNodeViewState_nodeParams_parse params
  · refine .of_roundTrip (fun params => ?_) (fun _ _ => parseComparisonViewState_congr)
      fun _ _ => parseComparisonViewState_hexCase
    rw [hComparison]
    exact parseComparisonViewState_comparisonParams_parse params
  · intro value
    exact parse_serialize_filter (linkable_parse value)
  · intro value bip110 hParsed
    have hConsistent : ∀ assessment ∈ bip110, isInconsistent assessment = false := by
      rintro assessment rfl
      exact parsed_consistent hParsed
    refine ⟨fun transaction hSame => ?_, fun signature hSignature => ?_⟩
    · obtain ⟨key, hKey, hRead⟩ := terrainRegion_terrainRegionKey (hSame ▸ hConsistent)
      refine ⟨key, hKey, hRead, fun state hState => ?_⟩
      rw [hNode, parseNodeViewState_nodeParams, hState, Option.bind_some]
      exact congrArg (Option.map TerrainSelection.region) hRead
    · obtain ⟨assessment, rfl, hViolation⟩ := Option.bind_eq_some_iff.mp hSignature
      unfold violationSignature at hViolation
      split at hViolation
      · cases hViolation
      · next hStatus =>
        obtain rfl := Option.some.inj hViolation
        have hRead := signatureOf_signatureKey (hConsistent assessment rfl) (not_not.mp hStatus)
        refine ⟨hRead, fun state hState => ?_⟩
        have hLinkable : Linkable state.filter := by
          rw [hState]
          exact hRead
        rw [hComparison, parseComparisonViewState_comparisonParams hLinkable]
  · intro state rule hState
    rw [hNode, parseNodeViewState_nodeParams, hState]
    rfl
  · intro state hState
    have hLinkable : Linkable state.filter := by
      cases hFilter : state.filter with
      | signature signature => exact absurd hFilter (hState signature)
      | _ => trivial
    rw [hComparison, parseComparisonViewState_comparisonParams hLinkable]

/-- A violating assessment with two rules violated and two unknown. -/
def partialAssessment : Bip110Assessment where
  status := .violating
  primaryRule := some .outputSize
  violatedRules := [.outputSize, .undefinedVersion]
  unknownRules := [.elementSize, .taprootAnnex]

/-- The browser's own coding, and a partial signature in upper case with a digit missing: both
pages write the canonical query and read it back, and the region of the assessment is linked. -/
theorem view_state_survives_url_partialSignature :
    let node := canonicalQuery formUrlEncoded parseNodeViewState
      (serializeNodeViewState formUrlEncoded)
    let comparison := canonicalQuery formUrlEncoded parseComparisonViewState
      (serializeComparisonViewState formUrlEncoded)
    let query := "?zoom=2&region=partial%3A5%3A0A&source=core"
    let filter := "?filter=signature:partial:5:0A&right=knots&left=core"
    node query = "source=core&region=partial%3A05%3A0a" ∧ node (node query) = node query ∧
      node "?source=core&region=partial:5:0a" = node query ∧
      comparison filter = "left=core&right=knots&filter=signature%3Apartial%3A05%3A0a" ∧
      comparison (comparison filter) = comparison filter ∧
      signatureOf "partial:05:0a" = some "partial:05:0a" ∧
      (parseComparisonViewState (formUrlEncoded.decode (serializeComparisonViewState formUrlEncoded
        ⟨none, none, none, none, .signature "partial:05:0a", none⟩))).filter =
          .signature "partial:05:0a" := by
  obtain ⟨hNode, hComparison, -, hSignatures, -, -⟩ := view_state_survives_url formUrlEncoded
  have hParsed : parseBip110Assessment (some (assessmentJson partialAssessment)) =
      .ok (some partialAssessment) := by decide +kernel
  obtain ⟨signature, hSignature, hText⟩ : ∃ signature,
      violationSignature partialAssessment = some signature ∧ signature.key = "partial:05:0a" :=
    ⟨_, rfl, by decide +kernel⟩
  obtain ⟨hKey, hLinked⟩ := (hSignatures _ _ hParsed).2 signature hSignature
  rw [hText] at hKey hLinked
  refine ⟨by decide +kernel, hNode.idempotent _, ?_, by decide +kernel, hComparison.idempotent _,
    hKey, hLinked _ rfl⟩
  exact (hNode.separates _ _).mpr (by decide +kernel)

example : nodeParams (parseNodeViewState [("txid", "x"), ("region", "partial:5:0A"), ("zoom", "2")]) =
    [("region", "partial:05:0a")] := by decide

end MempoolAtlas.Web
