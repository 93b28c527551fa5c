import RosettaGateway.Json.Basic

/-!
# JSON text

Reading a text never fails: `Document.ofText` gives the syntax tree as far as the text goes, and
where the text breaks off or stops being JSON the tree has a leaf `broken`. The tree is in the order
of the text, with repeated keys still there, so that a reader can go through it from the front and
answer with the first fault it meets. `Document.value?` turns a tree without faults into a value.

A string may hold an escaped surrogate that stands alone. Such a string cannot be read, though it
can be skipped; its leaf is `unpaired`.
-/

namespace RosettaGateway

/-- The syntax tree of a JSON text. A key that cannot be read is `none`. -/
inductive Document where
  | null
  | bool (b : Bool)
  | number (n : Json.Number)
  | string (s : String)
  | unpaired
  | array (items : List Document)
  | object (members : List (Option String × Document))
  | broken
  deriving Inhabited

namespace Document

/-! ### Lexical rules -/

/-- The four blanks of JSON. -/
def isBlank (c : Char) : Bool := c == ' ' || c == '\t' || c == '\n' || c == '\r'

/-- Drops blanks in front. -/
def skip (cs : List Char) : List Char := cs.dropWhile isBlank

/-- A string in the course of being read: its characters in reverse, a first surrogate that waits
for its partner, and whether a surrogate has been left alone. -/
structure Scan where
  chars : List Char := []
  first : Option Nat := none
  alone : Bool := false

namespace Scan

/-- Appends a character. -/
def push (s : Scan) (c : Char) : Scan :=
  { chars := c :: s.chars, first := none, alone := s.alone || s.first.isSome }

/-- Appends an escaped code unit. -/
def pushUnit (s : Scan) (n : Nat) : Scan :=
  -- The first half of a pair waits for the second one.
  if 0xD800 ≤ n ∧ n < 0xDC00 then
    { s with first := some n, alone := s.alone || s.first.isSome }
  else if 0xDC00 ≤ n ∧ n < 0xE000 then
    match s.first with
    | some m =>
      { s with chars := Char.ofNat (0x10000 + (m - 0xD800) * 0x400 + (n - 0xDC00)) :: s.chars,
               first := none }
    | none => { s with alone := true }
  else s.push (Char.ofNat n)

/-- The string read, unless it has a surrogate alone. -/
def finish (s : Scan) : Option String :=
  if s.alone || s.first.isSome then none else some (String.ofList s.chars.reverse)

end Scan

/-- The value of a hexadecimal digit. -/
def hexValue? (c : Char) : Option Nat :=
  (Numeral.digitValue c).filter (· < 16)

/-- The value of four hexadecimal digits. -/
def hexUnit? (a b c d : Char) : Option Nat :=
  match hexValue? a, hexValue? b, hexValue? c, hexValue? d with
  | some a, some b, some c, some d => some (((a * 16 + b) * 16 + c) * 16 + d)
  | _, _, _, _ => none

/-- Reads a string from behind its opening quote to behind its closing one. -/
def scanString (s : Scan) : List Char → Option (Option String × List Char)
  | [] => none
  | '"' :: rest => some (s.finish, rest)
  | '\\' :: 'u' :: a :: b :: c :: d :: rest =>
    match hexUnit? a b c d with
    | some n => scanString (s.pushUnit n) rest
    | none => none
  | '\\' :: '"' :: rest => scanString (s.push '"') rest
  | '\\' :: '\\' :: rest => scanString (s.push '\\') rest
  | '\\' :: '/' :: rest => scanString (s.push '/') rest
  | '\\' :: 'b' :: rest => scanString (s.push '\x08') rest
  | '\\' :: 'f' :: rest => scanString (s.push '\x0c') rest
  | '\\' :: 'n' :: rest => scanString (s.push '\n') rest
  | '\\' :: 'r' :: rest => scanString (s.push '\r') rest
  | '\\' :: 't' :: rest => scanString (s.push '\t') rest
  -- There are no escapes but these, and control characters have to be escaped.
  | '\\' :: _ => none
  | c :: rest => if c.toNat < 0x20 then none else scanString (s.push c) rest

/-- Splits off the digits in front. -/
def scanDigits (cs : List Char) : List Json.Digit × List Char :=
  ((cs.takeWhile Char.isDigit).map Json.Digit.ofChar, cs.dropWhile Char.isDigit)

/-- The whole part of a number: a zero alone, or digits that do not begin with a zero. -/
def scanWhole (cs : List Char) : Option (Nat × List Char) :=
  match scanDigits cs with
  | ([], _) => none
  -- A zero in front of other digits ends no number; it spoils it.
  | (0 :: _ :: _, _) => none
  | (digits, rest) => some (Json.Digit.value digits, rest)

/-- The fraction of a number, if a point follows. -/
def scanFraction : List Char → Option (List Json.Digit × List Char)
  | '.' :: cs =>
    match scanDigits cs with
    | ([], _) => none
    | (digits, rest) => some (digits, rest)
  | cs => some ([], cs)

/-- The sign of an exponent, if there is one. -/
def scanSign : List Char → Bool × List Char
  | '+' :: rest => (false, rest)
  | '-' :: rest => (true, rest)
  | cs => (false, cs)

/-- The exponent of a number, if a letter `e` of either case follows. -/
def scanExponent (cs : List Char) : Option (Option Json.Exponent × List Char) :=
  match cs with
  | [] => some (none, [])
  | c :: rest =>
    if c = 'e' ∨ c = 'E' then
      let (negative, rest) := scanSign rest
      match scanDigits rest with
      | ([], _) => none
      | (first :: others, rest) => some (some ⟨negative, first, others⟩, rest)
    else some (none, cs)

/-- A number behind its sign. -/
def scanMagnitude (negative : Bool) (cs : List Char) : Option (Json.Number × List Char) := do
  let (whole, cs) ← scanWhole cs
  let (fraction, cs) ← scanFraction cs
  let (exponent, cs) ← scanExponent cs
  return (⟨negative, whole, fraction, exponent⟩, cs)

/-- A number and what follows it. -/
def scanNumber : List Char → Option (Json.Number × List Char)
  | '-' :: cs => scanMagnitude true cs
  | cs => scanMagnitude false cs

/-! ### Trees -/

mutual

/-- Reads one value. There is no rest when the text broke. -/
def scanValue : Nat → List Char → Document × Option (List Char)
  | 0, _ => (.broken, none)
  | fuel + 1, text =>
    match skip text with
    | 'n' :: 'u' :: 'l' :: 'l' :: rest => (.null, some rest)
    | 't' :: 'r' :: 'u' :: 'e' :: rest => (.bool true, some rest)
    | 'f' :: 'a' :: 'l' :: 's' :: 'e' :: rest => (.bool false, some rest)
    | '"' :: rest =>
      match scanString {} rest with
      | some (some s, rest) => (.string s, some rest)
      | some (none, rest) => (.unpaired, some rest)
      | none => (.broken, none)
    | '[' :: rest =>
      let (items, rest) := scanItems fuel true rest
      (.array items, rest)
    | '\x7b' :: rest =>
      let (members, rest) := scanMembers fuel true rest
      (.object members, rest)
    | cs =>
      match scanNumber cs with
      | some (n, rest) => (.number n, some rest)
      | none => (.broken, none)

/-- Reads the items of an array up to its closing bracket; `atStart` holds directly behind the
opening one. -/
def scanItems : Nat → Bool → List Char → List Document × Option (List Char)
  | 0, _, _ => ([.broken], none)
  | fuel + 1, atStart, text =>
    match skip text with
    | ']' :: rest => ([], some rest)
    | ',' :: rest =>
      if atStart then ([.broken], none)
      else scanItem fuel rest
    | rest =>
      if atStart then scanItem fuel rest
      else ([.broken], none)

/-- Reads an item and the items behind it. -/
def scanItem : Nat → List Char → List Document × Option (List Char)
  | 0, _ => ([.broken], none)
  | fuel + 1, text =>
    match scanValue fuel text with
    | (item, none) => ([item], none)
    | (item, some rest) =>
      let (items, rest) := scanItems fuel false rest
      (item :: items, rest)

/-- Reads the members of an object up to its closing brace. -/
def scanMembers : Nat → Bool → List Char → List (Option String × Document) × Option (List Char)
  | 0, _, _ => ([(none, .broken)], none)
  | fuel + 1, atStart, text =>
    match skip text with
    | '\x7d' :: rest => ([], some rest)
    | ',' :: rest =>
      if atStart then ([(none, .broken)], none)
      else scanMember fuel rest
    | rest =>
      if atStart then scanMember fuel rest
      else ([(none, .broken)], none)

/-- Reads a key, its value and the members behind it. -/
def scanMember : Nat → List Char → List (Option String × Document) × Option (List Char)
  | 0, _ => ([(none, .broken)], none)
  | fuel + 1, text =>
    match skip text with
    | '"' :: rest =>
      match scanString {} rest with
      | none => ([(none, .broken)], none)
      | some (key, rest) =>
        match skip rest with
        | ':' :: rest =>
          match scanValue fuel rest with
          | (value, none) => ([(key, value)], none)
          | (value, some rest) =>
            let (members, rest) := scanMembers fuel false rest
            ((key, value) :: members, rest)
        | _ => ([(key, .broken)], none)
    | _ => ([(none, .broken)], none)

end

/-- The tree of a text, and whether nothing but blanks follows it. Each step of the reading takes a
character or enters what it has just seen, so three steps for each character are enough. -/
def ofText (text : List Char) : Document × Bool :=
  match scanValue (3 * text.length + 3) text with
  | (tree, none) => (tree, true)
  | (tree, some rest) => (tree, (skip rest).isEmpty)

/-! ### Values -/

/-- Containers may stand in each other down to this depth. -/
def maxDepth : Nat := 127

mutual

/-- The value of a tree that has no fault and is nested at most `depth` deep. Of members with the
same key the last one counts. -/
def value? (depth : Nat) : Document → Option Json
  | .null => some .null
  | .bool b => some (.bool b)
  | .number n => some (.number n.unsignedZero)
  | .string s => some (.string s)
  | .unpaired => none
  | .array items =>
    match depth with
    | 0 => none
    | depth + 1 => (itemValues? depth items).map .array
  | .object members =>
    match depth with
    | 0 => none
    | depth + 1 => (memberValues? depth [] members).map .object
  | .broken => none

/-- The values of the items of an array. -/
def itemValues? (depth : Nat) : List Document → Option (List Json)
  | [] => some []
  | item :: rest =>
    match value? depth item with
    | none => none
    | some v => (itemValues? depth rest).map (v :: ·)

/-- The members of an object, on top of those already there. -/
def memberValues? (depth : Nat) (done : List (String × Json)) :
    List (Option String × Document) → Option (List (String × Json))
  | [] => some done
  -- A key that cannot be read leaves the whole object without a value.
  | (none, _) :: _ => none
  | (some key, tree) :: rest =>
    match value? depth tree with
    | none => none
    | some v => memberValues? depth (Json.setMember key v done) rest

end

mutual

/-- Whether a tree has no break in it, which is all that is asked of what is skipped. -/
def intact : Document → Bool
  | .broken => false
  | .array items => intactItems items
  | .object members => intactMembers members
  | _ => true

/-- Whether no item of an array is broken. -/
def intactItems : List Document → Bool
  | [] => true
  | item :: rest => item.intact && intactItems rest

/-- Whether no member of an object is broken. -/
def intactMembers : List (Option String × Document) → Bool
  | [] => true
  | (_, tree) :: rest => tree.intact && intactMembers rest

end

mutual

/-- The value of a tree however deep, with what has no value left out. It is asked for only when the
parts that matter have been checked. -/
def salvage : Document → Json
  | .null => .null
  | .bool b => .bool b
  | .number n => .number n.unsignedZero
  | .string s => .string s
  | .unpaired => .null
  | .array items => .array (salvageItems items)
  | .object members => .object (salvageMembers [] members)
  | .broken => .null

/-- The values of the items of an array. -/
def salvageItems : List Document → List Json
  | [] => []
  | item :: rest => item.salvage :: salvageItems rest

/-- The members of an object, on top of those already there. -/
def salvageMembers (done : List (String × Json)) :
    List (Option String × Document) → List (String × Json)
  | [] => done
  | (none, _) :: rest => salvageMembers done rest
  | (some key, tree) :: rest => salvageMembers (Json.setMember key tree.salvage done) rest

end

end Document

/-- The value a text stands for, if it is JSON from one end to the other. -/
def Json.ofText? (text : String) : Option Json :=
  match Document.ofText text.toList with
  | (tree, true) => tree.value? Document.maxDepth
  | (_, false) => none

end RosettaGateway
