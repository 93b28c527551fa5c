import RosettaGateway.Json.Number

/-!
# JSON values

A value is what a text stands for, except that a number stays as it is spelled (see `Json.Number`).
The members of an object keep their order; a value made from text has each key once (see
`Json.setMember`).

`Json.compress` is the compact text of a value, with the keys of every object in ascending order.
-/

namespace RosettaGateway

/-- A JSON value. -/
inductive Json where
  | null
  | bool (b : Bool)
  | number (n : Json.Number)
  | string (s : String)
  | array (items : List Json)
  | object (members : List (String × Json))
  deriving Inhabited

namespace Json

/-- A natural number as a value. -/
def ofNat (n : Nat) : Json := .number (.ofNat n)

/-- An integer as a value. -/
def ofInt (i : Int) : Json := .number (.ofInt i)

/-- Whether a value is `null`. -/
def isNull : Json → Bool
  | .null => true
  | _ => false

/-- The boolean a value is, if it is one. -/
def bool? : Json → Option Bool
  | .bool b => some b
  | _ => none

/-- The string a value is, if it is one. -/
def string? : Json → Option String
  | .string s => some s
  | _ => none

/-- The value stored under a key of an object. -/
def get? (key : String) : Json → Option Json
  | .object members => members.lookup key
  | _ => none

/-- Sets a key: in the place it already has, or behind all others. -/
def setMember {α : Type} (key : String) (value : α) : List (String × α) → List (String × α)
  | [] => [(key, value)]
  | (k, v) :: rest =>
    if k = key then (key, value) :: rest else (k, v) :: setMember key value rest

/-! ### Compact text -/

/-- The written form of one character inside a string. -/
def escapeChar (c : Char) : List Char :=
  if c = '"' then ['\\', '"']
  else if c = '\\' then ['\\', '\\']
  else if c = '\x08' then ['\\', 'b']
  else if c = '\x0c' then ['\\', 'f']
  else if c = '\n' then ['\\', 'n']
  else if c = '\r' then ['\\', 'r']
  else if c = '\t' then ['\\', 't']
  -- The control characters without a letter of their own are given by number.
  else if c.toNat < 0x20 then
    let hex := "0123456789abcdef".toList
    ['\\', 'u', '0', '0', hex.getD (c.toNat / 16) '0', hex.getD (c.toNat % 16) '0']
  else [c]

/-- A string between quotes, with the characters that need it escaped. -/
def quote (s : String) : String :=
  String.ofList ('"' :: s.toList.flatMap escapeChar ++ ['"'])

/-- Members in ascending order of their keys; the order is that of code points. -/
def sortMembers {α : Type} (members : List (String × α)) : List (String × α) :=
  members.mergeSort fun a b => decide (a.1 ≤ b.1)

mutual

/-- The compact text of a value. -/
def compress : Json → String
  | .null => "null"
  | .bool b => if b then "true" else "false"
  | .number n => n.text
  | .string s => quote s
  | .array items => "[" ++ String.intercalate "," (compressItems items) ++ "]"
  | .object members =>
    let written := (sortMembers (compressMembers members)).map fun m => quote m.1 ++ ":" ++ m.2
    "\x7b" ++ String.intercalate "," written ++ "\x7d"

/-- The compact text of each item of an array. -/
def compressItems : List Json → List String
  | [] => []
  | item :: rest => compress item :: compressItems rest

/-- The compact text of each member of an object, beside its key. -/
def compressMembers : List (String × Json) → List (String × String)
  | [] => []
  | (key, value) :: rest => (key, compress value) :: compressMembers rest

end

end Json

end RosettaGateway
