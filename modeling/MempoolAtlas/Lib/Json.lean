import Mathlib.Tactic

/-!
# JSON values as JavaScript reads them

A JSON document with exact integers. A value that JavaScript may find
`undefined` is an `Option Json`. Objects have each key once, as they do after
`JSON.parse`.
-/

namespace MempoolAtlas

/-- A JSON value; its numbers are integers. -/
inductive Json where
  | null
  | bool (b : Bool)
  | num (n : Int)
  | str (s : String)
  | arr (items : List Json)
  | obj (fields : List (String × Json))

namespace Json

/-- `Number.MAX_SAFE_INTEGER`. -/
def maxSafeInteger : Nat := 2 ^ 53 - 1

/-- `typeof value === "object" && value !== null`. -/
def isRecord : Option Json → Bool
  | some (.arr _) => true
  | some (.obj _) => true
  | _ => false

/-- `Object.keys`. -/
def keys : Option Json → List String
  | some (.arr items) => (List.range items.length).map toString
  | some (.obj fields) => fields.map Prod.fst
  | _ => []

/-- A property by its name. -/
def get (key : String) : Option Json → Option Json
  | some (.obj fields) => fields.lookup key
  | _ => none

def isNull : Option Json → Bool
  | some .null => true
  | _ => false

/-- A string. -/
def string? : Option Json → Option String
  | some (.str s) => some s
  | _ => none

/-- A boolean. -/
def bool? : Option Json → Option Bool
  | some (.bool b) => some b
  | _ => none

/-- The items of what `Array.isArray` accepts. -/
def array? : Option Json → Option (List Json)
  | some (.arr items) => some items
  | _ => none

/-- The entries of an object. -/
def object? : Option Json → Option (List (String × Json))
  | some (.obj fields) => some fields
  | _ => none

/-- `Number.isSafeInteger`. -/
def safeInteger? : Option Json → Option Int
  | some (.num n) => if n.natAbs ≤ maxSafeInteger then some n else none
  | _ => none

/-- A safe integer that is not negative. -/
def nonNegativeInteger? (value : Option Json) : Option Nat :=
  (safeInteger? value).bind fun n => if 0 ≤ n then some n.toNat else none

-- ---------------------------------------------------------------------------
-- Text
-- ---------------------------------------------------------------------------

/-- A character of a text between quotation marks. -/
def escape (c : Char) : String :=
  if c.toNat = 0x22 then "\\\""
  else if c.toNat = 0x5c then "\\\\"
  else if c.toNat = 8 then "\\b"
  else if c.toNat = 9 then "\\t"
  else if c.toNat = 10 then "\\n"
  else if c.toNat = 12 then "\\f"
  else if c.toNat = 13 then "\\r"
  else if c.toNat < 32 then
    "\\u00" ++ String.singleton (Nat.digitChar (c.toNat / 16)) ++
      String.singleton (Nat.digitChar (c.toNat % 16))
  else String.singleton c

/-- A string as JSON writes it. -/
def quote (s : String) : String := "\"" ++ String.join (s.toList.map escape) ++ "\""

mutual

/-- The text without white space. -/
def render : Json → String
  | .null => "null"
  | .bool b => if b then "true" else "false"
  | .num n => toString n
  | .str s => quote s
  | .arr items => "[" ++ ",".intercalate (renderItems items) ++ "]"
  | .obj fields => "\x7b" ++ ",".intercalate (renderFields fields) ++ "\x7d"

def renderItems : List Json → List String
  | [] => []
  | item :: rest => render item :: renderItems rest

def renderFields : List (String × Json) → List String
  | [] => []
  | (key, value) :: rest => (quote key ++ ":" ++ render value) :: renderFields rest

end

example : render (.obj [("a", .arr [.num (-1), .null]), ("b", .str "x\n\"")]) =
    "\x7b\"a\":[-1,null],\"b\":\"x\\n\\\"\"\x7d" := by
  decide

-- ---------------------------------------------------------------------------
-- Values by their kind
-- ---------------------------------------------------------------------------

@[simp] theorem string?_str (s : String) : string? (some (.str s)) = some s := rfl

@[simp] theorem bool?_bool (b : Bool) : bool? (some (.bool b)) = some b := rfl

@[simp] theorem array?_arr (items : List Json) : array? (some (.arr items)) = some items := rfl

@[simp] theorem object?_obj (fields : List (String × Json)) :
    object? (some (.obj fields)) = some fields := rfl

@[simp] theorem isNull_null : isNull (some .null) = true := rfl

@[simp] theorem isNull_num (n : Int) : isNull (some (.num n)) = false := rfl

@[simp] theorem isNull_str (s : String) : isNull (some (.str s)) = false := rfl

@[simp] theorem isNull_obj (fields : List (String × Json)) :
    isNull (some (.obj fields)) = false := rfl

/-- A safe integer is read as itself. -/
theorem safeInteger?_num {n m : Int} :
    safeInteger? (some (.num n)) = some m ↔ n.natAbs ≤ maxSafeInteger ∧ m = n := by
  simp [safeInteger?, eq_comm]

/-- A safe number is read as itself. -/
theorem nonNegativeInteger?_num {n m : Nat} :
    nonNegativeInteger? (some (.num n)) = some m ↔ n ≤ maxSafeInteger ∧ m = n := by
  by_cases h : n ≤ maxSafeInteger <;>
    simp [nonNegativeInteger?, safeInteger?, h, eq_comm]

end Json

end MempoolAtlas
