import Mathlib.Data.List.Basic
import Mathlib.Data.String.Basic
import Mathlib.Tactic

/-!
# Query parameters

The ordered pairs of a query string with the reading and replacing of a key, and
the codecs between them and texts. The one that browsers use writes a pair as
`name=value` with everything else percent-encoded; it reads back what it wrote.

## Results

* `getAll_set_self`, `getAll_set_of_ne` — what setting a key does to its values and to the
  others.
* `decodeText_encodeText`, `decodePairs_encodePairs` — the browsers' codec reads back what it
  wrote.
-/

namespace MempoolAtlas.SearchParams

/-- The pairs of a query, in order. -/
abbrev Params := List (String × String)

/-- `getAll(key)`: every value of a key, in order. -/
def getAll (params : Params) (key : String) : List String :=
  (params.filter fun pair => pair.1 == key).map Prod.snd

/-- Replace the first pair with the key and drop its others, or append one. -/
def set (params : Params) (key value : String) : Params :=
  match params with
  | [] => [(key, value)]
  | pair :: rest =>
    if pair.1 = key then (key, value) :: rest.filter fun other => other.1 != key
    else pair :: set rest key value

/-- A reader and a writer of queries; what is written reads back. -/
structure Codec where
  decode : String → Params
  encode : Params → String
  decode_encode : ∀ params, decode (encode params) = params

theorem getAll_cons_of_eq {pair : String × String} {rest : Params} {key : String}
    (h : pair.1 = key) : getAll (pair :: rest) key = pair.2 :: getAll rest key := by
  rw [getAll, List.filter_cons_of_pos (by rw [h]; exact beq_self_eq_true key), List.map_cons]
  rfl

theorem getAll_cons_of_ne {pair : String × String} {rest : Params} {key : String}
    (h : pair.1 ≠ key) : getAll (pair :: rest) key = getAll rest key := by
  rw [getAll, List.filter_cons_of_neg (by rw [beq_iff_eq]; exact h)]
  rfl

theorem getAll_filter_ne_self (params : Params) (key : String) :
    getAll (params.filter fun other => other.1 != key) key = [] := by
  rw [getAll, List.filter_filter, List.map_eq_nil_iff, List.filter_eq_nil_iff]
  intro pair _
  simp

theorem getAll_filter_ne {params : Params} {key other : String} (h : other ≠ key) :
    getAll (params.filter fun pair => pair.1 != key) other = getAll params other := by
  rw [getAll, List.filter_filter, getAll]
  refine congrArg (List.map Prod.snd) (List.filter_congr fun pair _ => ?_)
  rw [Bool.eq_iff_iff, Bool.and_eq_true, beq_iff_eq, bne_iff_ne]
  exact ⟨And.left, fun hOther => ⟨hOther, hOther ▸ h⟩⟩

/-- A set key has the one value. -/
theorem getAll_set_self (params : Params) (key value : String) :
    getAll (set params key value) key = [value] := by
  induction params with
  | nil => rw [set, getAll_cons_of_eq rfl]; rfl
  | cons pair rest ih =>
    rw [set]
    split
    · rw [getAll_cons_of_eq rfl, getAll_filter_ne_self]
    · next hNe => rw [getAll_cons_of_ne hNe, ih]

/-- Setting a key leaves the others. -/
theorem getAll_set_of_ne {key other : String} (h : other ≠ key) (params : Params)
    (value : String) : getAll (set params key value) other = getAll params other := by
  induction params with
  | nil => rw [set, getAll_cons_of_ne (Ne.symm h)]
  | cons pair rest ih =>
    rw [set]
    split
    · next hSame =>
      have hNe : pair.1 ≠ other := hSame ▸ Ne.symm h
      rw [getAll_cons_of_ne (Ne.symm h), getAll_filter_ne h, getAll_cons_of_ne hNe]
    · by_cases hOther : pair.1 = other
      · rw [getAll_cons_of_eq hOther, getAll_cons_of_eq hOther, ih]
      · rw [getAll_cons_of_ne hOther, getAll_cons_of_ne hOther, ih]

/-- The order of the pairs does not count for a key that occurs once. -/
theorem getAll_perm {params params' : Params} (h : params.Perm params') (key : String) :
    (getAll params key).Perm (getAll params' key) := (h.filter _).map _

-- ---------------------------------------------------------------------------
-- Form encoding
-- ---------------------------------------------------------------------------

/-- Characters that are written as they are. -/
def isPlain (c : Char) : Bool :=
  c.isAlphanum || c == '*' || c == '-' || c == '.' || c == '_'

/-- An upper-case hexadecimal digit. -/
def hexDigit (n : Nat) : Char := (Nat.digitChar n).toUpper

/-- A byte as `%` and two digits. -/
def percentEncode (byte : UInt8) : List Char :=
  ['%', hexDigit (byte.toNat / 16), hexDigit (byte.toNat % 16)]

/-- A character as it is, as `+`, or its UTF-8 bytes in percent form. -/
def encodeChar (c : Char) : List Char :=
  if c = ' ' then ['+']
  else if isPlain c then [c]
  else (String.utf8EncodeChar c).flatMap percentEncode

def encodeText (text : String) : List Char := text.toList.flatMap encodeChar

/-- A key and its value. -/
def encodePair (pair : String × String) : List Char :=
  encodeText pair.1 ++ '=' :: encodeText pair.2

def encodePairs (params : Params) : String :=
  String.ofList (['&'].intercalate (params.map encodePair))

/-- The value of a hexadecimal digit of either case. -/
def digitValue (c : Char) : Option Nat :=
  if '0' ≤ c ∧ c ≤ '9' then some (c.toNat - 48)
  else if 'a' ≤ c ∧ c ≤ 'f' then some (c.toNat - 87)
  else if 'A' ≤ c ∧ c ≤ 'F' then some (c.toNat - 55)
  else none

/-- The bytes of an encoded text; a `%` without two digits stands for itself. -/
def decodeBytes : List Char → List UInt8
  | [] => []
  | c :: rest =>
    if c = '+' then 0x20 :: decodeBytes rest
    else if c = '%' then
      match rest with
      | high :: low :: tail =>
        match digitValue high, digitValue low with
        | some high, some low => UInt8.ofNat (16 * high + low) :: decodeBytes tail
        | _, _ => 0x25 :: decodeBytes (high :: low :: tail)
      | tail => 0x25 :: decodeBytes tail
    else String.utf8EncodeChar c ++ decodeBytes rest
termination_by text => text.length

/-- A UTF-8 sequence that is not complete: the continuation bytes that are missing, the
range of the next one, and the bits so far. -/
structure Utf8Sequence where
  needed : Nat
  lower : Nat := 0x80
  upper : Nat := 0xbf
  codePoint : Nat
deriving DecidableEq

/-- What a byte begins: a character (a replacement character where no sequence begins with
it), or a sequence. -/
def utf8Lead (byte : Nat) : Char ⊕ Utf8Sequence :=
  if byte ≤ 0x7f then .inl (Char.ofNat byte)
  else if byte < 0xc2 then .inl '\uFFFD'
  else if byte ≤ 0xdf then .inr { needed := 1, codePoint := byte - 0xc0 }
  else if byte = 0xe0 then .inr { needed := 2, lower := 0xa0, codePoint := 0 }
  else if byte = 0xed then .inr { needed := 2, upper := 0x9f, codePoint := 0xd }
  else if byte ≤ 0xef then .inr { needed := 2, codePoint := byte - 0xe0 }
  else if byte = 0xf0 then .inr { needed := 3, lower := 0x90, codePoint := 0 }
  else if byte = 0xf4 then .inr { needed := 3, upper := 0x8f, codePoint := 4 }
  else if byte ≤ 0xf3 then .inr { needed := 3, codePoint := byte - 0xf0 }
  else .inl '\uFFFD'

/-- The characters of bytes, from inside a sequence or between two. A part that is no UTF-8
ends at the first byte that does not go on with it, and reads as one replacement character. -/
def decodeUtf8 : Option Utf8Sequence → List UInt8 → List Char
  | none, [] => []
  | some _, [] => ['\uFFFD']
  | sequence, byte :: rest =>
    let begun := match utf8Lead byte.toNat with
      | .inl c => c :: decodeUtf8 none rest
      | .inr sequence => decodeUtf8 (some sequence) rest
    match sequence with
    | none => begun
    | some ⟨needed, lower, upper, bits⟩ =>
      if lower ≤ byte.toNat ∧ byte.toNat ≤ upper then
        let codePoint := bits * 64 + (byte.toNat - 0x80)
        if needed = 1 then Char.ofNat codePoint :: decodeUtf8 none rest
        else decodeUtf8 (some { needed := needed - 1, codePoint }) rest
      else '\uFFFD' :: begun

def decodeText (text : List Char) : String := String.ofList (decodeUtf8 none (decodeBytes text))

/-- A key and its value, cut at the first `=`. -/
def decodePair (part : List Char) : String × String :=
  (decodeText (part.takeWhile (· != '=')), decodeText ((part.dropWhile (· != '=')).drop 1))

/-- The leading `?` of a location's search is not part of it. -/
def stripQuestion (text : List Char) : List Char :=
  match text with
  | '?' :: rest => rest
  | _ => text

def decodePairs (text : String) : Params :=
  (((stripQuestion text.toList).splitOn '&').filter fun part => !part.isEmpty).map decodePair

-- ---------------------------------------------------------------------------
-- The round trip
-- ---------------------------------------------------------------------------

theorem digitValue_hexDigit : ∀ n < 16, digitValue (hexDigit n) = some n := by
  decide

theorem decodeBytes_percentEncode (byte : UInt8) (rest : List Char) :
    decodeBytes (percentEncode byte ++ rest) = byte :: decodeBytes rest := by
  have hByte : byte.toNat < 256 := byte.toNat_lt
  have hHigh := digitValue_hexDigit (byte.toNat / 16) (by omega)
  have hLow := digitValue_hexDigit (byte.toNat % 16) (by omega)
  show decodeBytes ('%' :: hexDigit (byte.toNat / 16) :: hexDigit (byte.toNat % 16) :: rest) = _
  rw [decodeBytes, if_neg (by decide), if_pos rfl, hHigh, hLow]
  dsimp only
  rw [Nat.div_add_mod, UInt8.ofNat_toNat]

theorem decodeBytes_percentEncodes (bytes : List UInt8) (rest : List Char) :
    decodeBytes (bytes.flatMap percentEncode ++ rest) = bytes ++ decodeBytes rest := by
  induction bytes with
  | nil => rfl
  | cons byte bytes ih =>
    rw [List.flatMap_cons, List.append_assoc, decodeBytes_percentEncode, ih]
    rfl

theorem decodeBytes_encodeChar (c : Char) (rest : List Char) :
    decodeBytes (encodeChar c ++ rest) = String.utf8EncodeChar c ++ decodeBytes rest := by
  unfold encodeChar
  split
  · next hSpace =>
    subst hSpace
    show decodeBytes ('+' :: rest) = _
    rw [decodeBytes.eq_def]
    dsimp only
    rw [if_pos rfl]
    rfl
  · split
    · next hPlain =>
      have hPlus : c ≠ '+' := fun h => by rw [h] at hPlain; revert hPlain; decide
      have hPercent : c ≠ '%' := fun h => by rw [h] at hPlain; revert hPlain; decide
      show decodeBytes (c :: rest) = _
      rw [decodeBytes.eq_def]
      dsimp only
      rw [if_neg hPlus, if_neg hPercent]
    · exact decodeBytes_percentEncodes _ rest

/-- An encoded text decodes to its bytes. -/
theorem decodeBytes_encodeText (text : List Char) :
    decodeBytes (text.flatMap encodeChar) = text.flatMap String.utf8EncodeChar := by
  induction text with
  | nil => rw [List.flatMap_nil, decodeBytes]; rfl
  | cons c text ih => rw [List.flatMap_cons, List.flatMap_cons, decodeBytes_encodeChar, ih]

theorem toNat_byte {n : Nat} (h : n < 256) : (UInt8.ofNat n).toNat = n := by
  rw [UInt8.toNat_ofNat', Nat.mod_eq_of_lt h]

theorem decodeUtf8_char {n : Nat} (hByte : n < 256) {c : Char} (h : utf8Lead n = .inl c)
    (rest : List UInt8) : decodeUtf8 none (UInt8.ofNat n :: rest) = c :: decodeUtf8 none rest := by
  rw [decodeUtf8]
  simp only [toNat_byte hByte, h]

theorem decodeUtf8_lead {n : Nat} (hByte : n < 256) {sequence : Utf8Sequence}
    (h : utf8Lead n = .inr sequence) (rest : List UInt8) :
    decodeUtf8 none (UInt8.ofNat n :: rest) = decodeUtf8 (some sequence) rest := by
  rw [decodeUtf8]
  simp only [toNat_byte hByte, h]

/-- A continuation byte in its range adds its six bits. -/
theorem decodeUtf8_continuation {needed lower upper bits n : Nat}
    (h : lower ≤ n + 0x80 ∧ n + 0x80 ≤ upper) (hUpper : upper < 256) (rest : List UInt8) :
    decodeUtf8 (some ⟨needed, lower, upper, bits⟩) (UInt8.ofNat (n + 0x80) :: rest) =
      if needed = 1 then Char.ofNat (bits * 64 + n) :: decodeUtf8 none rest
      else decodeUtf8 (some { needed := needed - 1, codePoint := bits * 64 + n }) rest := by
  rw [decodeUtf8]
  simp only [toNat_byte (show n + 0x80 < 256 by omega), if_pos h, Nat.add_sub_cancel]

theorem utf8Lead_two : ∀ n < 32, 2 ≤ n →
    utf8Lead (n + 0xc0) = .inr { needed := 1, codePoint := n } := by decide

theorem utf8Lead_three : ∀ n < 16, utf8Lead (n + 0xe0) = .inr {
    needed := 2
    lower := if n = 0 then 0xa0 else 0x80
    upper := if n = 13 then 0x9f else 0xbf
    codePoint := n } := by decide

theorem utf8Lead_four : ∀ n < 5, utf8Lead (n + 0xf0) = .inr {
    needed := 3
    lower := if n = 0 then 0x90 else 0x80
    upper := if n = 4 then 0x8f else 0xbf
    codePoint := n } := by decide

/-- A character reads back from its own bytes. -/
theorem decodeUtf8_utf8EncodeChar (c : Char) (rest : List UInt8) :
    decodeUtf8 none (String.utf8EncodeChar c ++ rest) = c :: decodeUtf8 none rest := by
  obtain ⟨v, hValue⟩ : ∃ v, c.val.toNat = v := ⟨_, rfl⟩
  have hValid : v < 0xd800 ∨ 0xdfff < v ∧ v < 0x110000 := hValue ▸ c.valid
  have hChar : Char.ofNat v = c := hValue ▸ Char.ofNat_toNat c
  unfold String.utf8EncodeChar
  simp only [hValue]
  split
  · next hOne =>
    exact decodeUtf8_char (by omega) (by rw [utf8Lead, if_pos hOne, hChar]) rest
  · split
    · have hLead := utf8Lead_two (v / 64 % 32) (by omega) (by omega)
      rw [List.cons_append, List.cons_append, List.nil_append, decodeUtf8_lead (by omega) hLead,
        decodeUtf8_continuation (by omega) (by omega), if_pos rfl,
        show v / 64 % 32 * 64 + v % 64 = v by omega, hChar]
    · split
      · have hLead := utf8Lead_three (v / 4096 % 16) (by omega)
        rw [List.cons_append, List.cons_append, List.cons_append, List.nil_append,
          decodeUtf8_lead (by omega) hLead,
          decodeUtf8_continuation (by split_ifs <;> omega) (by split_ifs <;> omega),
          if_neg (by decide), decodeUtf8_continuation (by omega) (by omega), if_pos rfl,
          show (v / 4096 % 16 * 64 + v / 64 % 64) * 64 + v % 64 = v by omega, hChar]
      · have hLead := utf8Lead_four (v / 262144 % 8) (by omega)
        rw [List.cons_append, List.cons_append, List.cons_append, List.cons_append,
          List.nil_append, decodeUtf8_lead (by omega) hLead,
          decodeUtf8_continuation (by split_ifs <;> omega) (by split_ifs <;> omega),
          if_neg (by decide), decodeUtf8_continuation (by omega) (by omega), if_neg (by decide),
          decodeUtf8_continuation (by omega) (by omega), if_pos rfl,
          show ((v / 262144 % 8 * 64 + v / 4096 % 64) * 64 + v / 64 % 64) * 64 + v % 64 = v by
            omega, hChar]

/-- The UTF-8 bytes of a text decode to it. -/
theorem decodeUtf8_flatMap (text : List Char) :
    decodeUtf8 none (text.flatMap String.utf8EncodeChar) = text := by
  induction text with
  | nil => rfl
  | cons c text ih => rw [List.flatMap_cons, decodeUtf8_utf8EncodeChar, ih]

example : decodeUtf8 none [0x61, 0xff, 0xe2, 0x82, 0x62] = ['a', '\uFFFD', '\uFFFD', 'b'] := by
  decide

/-- A text reads back from its form encoding. -/
theorem decodeText_encodeText (text : String) : decodeText (encodeText text) = text := by
  rw [decodeText, encodeText, decodeBytes_encodeText, decodeUtf8_flatMap, String.ofList_toList]

/-- What separates pairs, names and values is not in an encoded text. -/
theorem encodeText_separator {text : String} {c : Char} (h : c ∈ encodeText text) :
    c ≠ '&' ∧ c ≠ '=' ∧ c ≠ '?' := by
  have hDigits : ∀ n < 16, hexDigit n ≠ '&' ∧ hexDigit n ≠ '=' ∧ hexDigit n ≠ '?' := by
    decide
  obtain ⟨d, -, hMem⟩ := List.mem_flatMap.mp h
  unfold encodeChar at hMem
  split at hMem
  · obtain rfl := List.mem_singleton.mp hMem
    decide
  · split at hMem
    · next hPlain =>
      obtain rfl := List.mem_singleton.mp hMem
      refine ⟨?_, ?_, ?_⟩ <;> rintro rfl <;> revert hPlain <;> decide
    · obtain ⟨byte, -, hByte⟩ := List.mem_flatMap.mp hMem
      have hLt : byte.toNat < 256 := byte.toNat_lt
      simp only [percentEncode, List.mem_cons, List.not_mem_nil, or_false] at hByte
      rcases hByte with rfl | rfl | rfl
      · decide
      · exact hDigits _ (by omega)
      · exact hDigits _ (by omega)

theorem encodePair_separator {pair : String × String} {c : Char} (h : c ∈ encodePair pair) :
    c ≠ '&' ∧ c ≠ '?' := by
  rcases List.mem_append.mp h with hName | hRest
  · exact ⟨(encodeText_separator hName).1, (encodeText_separator hName).2.2⟩
  · rcases List.mem_cons.mp hRest with rfl | hValue
    · decide
    · exact ⟨(encodeText_separator hValue).1, (encodeText_separator hValue).2.2⟩

/-- An encoded pair decodes to itself. -/
theorem decodePair_encodePair (pair : String × String) : decodePair (encodePair pair) = pair := by
  have hName : ∀ c ∈ encodeText pair.1, (c != '=') = true := fun c hMem =>
    bne_iff_ne.mpr (encodeText_separator hMem).2.1
  rw [decodePair, encodePair, List.takeWhile_append_of_pos hName,
    List.takeWhile_cons_of_neg (by decide), List.append_nil, List.dropWhile_append_of_pos hName,
    List.dropWhile_cons_of_neg (by decide), List.drop_one, List.tail_cons, decodeText_encodeText,
    decodeText_encodeText]

theorem stripQuestion_of_not_mem {text : List Char} (h : '?' ∉ text) : stripQuestion text = text := by
  unfold stripQuestion
  split
  · exact absurd List.mem_cons_self h
  · rfl

theorem encodePairs_not_question (params : Params) :
    '?' ∉ ['&'].intercalate (params.map encodePair) := by
  induction params with
  | nil => simp
  | cons pair rest ih =>
    cases rest with
    | nil =>
      rw [List.map_singleton, List.intercalate_singleton]
      exact fun hMem => (encodePair_separator hMem).2 rfl
    | cons next rest =>
      rw [List.map_cons, List.map_cons, List.intercalate_cons_cons, ← List.map_cons,
        List.mem_append, List.mem_append, List.mem_singleton]
      rintro ((hMem | hMem) | hMem)
      · exact (encodePair_separator hMem).2 rfl
      · revert hMem
        decide
      · exact ih hMem

theorem decodePairs_encodePairs (params : Params) : decodePairs (encodePairs params) = params := by
  rw [decodePairs, encodePairs, String.toList_ofList,
    stripQuestion_of_not_mem (encodePairs_not_question params)]
  cases params with
  | nil => rfl
  | cons pair rest =>
    have hSeparated : ∀ part ∈ (pair :: rest).map encodePair, '&' ∉ part := by
      intro part hPart hIn
      obtain ⟨other, -, rfl⟩ := List.mem_map.mp hPart
      exact (encodePair_separator hIn).1 rfl
    have hNonempty : ∀ part ∈ (pair :: rest).map encodePair, (!part.isEmpty) = true := by
      intro part hPart
      obtain ⟨other, -, rfl⟩ := List.mem_map.mp hPart
      rw [encodePair]
      cases encodeText other.1 <;> rfl
    rw [List.splitOn_intercalate '&' hSeparated (by simp), List.filter_eq_self.mpr hNonempty,
      List.map_map]
    exact List.map_id'' decodePair_encodePair _

/-- The codec of browsers. -/
def formUrlEncoded : Codec where
  decode := decodePairs
  encode := encodePairs
  decode_encode := decodePairs_encodePairs

example : encodePairs [("left", "core"), ("filter", "signature:exact:05")] =
    "left=core&filter=signature%3Aexact%3A05" := by decide

end MempoolAtlas.SearchParams
