import RosettaGateway.Json.Document
import RosettaGateway.Json.Spelling

/-!
# Typed JSON

A `Json.Codec α` says three things about a type `α`: how its values are written, which values are
read back, and how a text that should hold one is checked. Reading undoes writing; the check is
there because a text is read from the front, and the first fault met decides whether the text is
malformed or merely of the wrong type.

Records are products of fields. A field has a name and other names under which it is accepted;
unknown members are ignored; a field that is there twice, under whatever names, refuses the record.
A record may also be given as an array of its fields in their order, of which trailing ones may be
left out when they have a default.

`Codec.ofText` reads from a text and `Codec.ofJson` from a value; the latter looks at the spelling
of the numbers first (see `Json.Spelling`).
-/

namespace RosettaGateway.Json

/-- Why a text does not give a value of the type asked for: it is not JSON (or nested too deep), or
it is JSON for something else. -/
inductive Fault where
  | malformed
  | mismatch
  deriving DecidableEq

/-- The first fault of a tree, read as one type, with so many levels of nesting left. -/
abbrev Check := Nat → Document → Option Fault

/-- How the values of a type are written, read and checked. -/
structure Codec (α : Type) where
  check : Check
  read : Json → Option α
  write : α → Json

/-- The fault of a tree that is not of the type asked for. Scalars are read before they are refused,
containers are not. -/
def misfit : Document → Fault
  | .broken => .malformed
  | .unpaired => .malformed
  | _ => .mismatch

/-- Checks a free-form value: any tree that has a value. -/
def checkFree : Check := fun depth tree =>
  match tree.value? depth with
  | some _ => none
  | none => some .malformed

/-- Checks a value that is read as free-form first and interpreted then. -/
def checkValue {α : Type} (read : Json → Option α) : Check := fun depth tree =>
  match tree.value? depth with
  | none => some .malformed
  | some v => if (read v).isSome then none else some .mismatch

/-- The first fault of a list of trees, each read in the same way. -/
def checkEach (check : Check) (depth : Nat) (trees : List Document) : Option Fault :=
  trees.findSome? (check depth)

namespace Codec

/-! ### Scalars -/

/-- Strings that a function can make sense of. -/
def text {α : Type} (parse : String → Option α) (print : α → String) : Codec α where
  check := fun _ tree =>
    match tree with
    | .string s => if (parse s).isSome then none else some .mismatch
    | other => some (misfit other)
  read
    | .string s => parse s
    | _ => none
  write a := .string (print a)

/-- Strings. -/
def string : Codec String := text some id

/-- Booleans. -/
def bool : Codec Bool where
  check := fun _ tree =>
    match tree with
    | .bool _ => none
    | other => some (misfit other)
  read
    | .bool b => some b
    | _ => none
  write := .bool

/-- The integer a value is, if it is one. -/
def integer? : Json → Option Int
  | .number n => n.integer?
  | _ => none

/-- The natural number a value is, if it is one. -/
def natural? : Json → Option Nat
  | .number n => n.natural?
  | _ => none

/-- Checks a number that has to be an integer of some kind. One that is too large for any number is
malformed. -/
def checkNumber (accepts : Json.Number → Bool) : Check := fun _ tree =>
  match tree with
  | .number n =>
    if n.overflows then some .malformed
    else if accepts n then none
    else some .mismatch
  | other => some (misfit other)

/-- Integers within bounds. In a text a zero with a minus sign counts as a fraction. -/
def integer (low high : Int) : Codec Int where
  check := checkNumber fun n =>
    !n.isMinusZero && n.integer?.any fun i => decide (low ≤ i ∧ i ≤ high)
  read v := (integer? v).filter fun i => decide (low ≤ i ∧ i ≤ high)
  write := ofInt

/-- Natural numbers up to a bound. -/
def natural (high : Nat) : Codec Nat where
  check := checkNumber fun n => n.natural?.any fun i => decide (i ≤ high)
  read v := (natural? v).filter fun n => decide (n ≤ high)
  write := ofNat

/-- Signed integers of 64 bits. -/
def int64 : Codec Int := integer (-0x8000000000000000) 0x7fffffffffffffff

/-- Free-form values. -/
def free : Codec Json where
  check := checkFree
  read := some
  write := id

/-- Values that are read as free-form and interpreted then. -/
def interpreted {α : Type} (read : Json → Option α) (write : α → Json) : Codec α where
  check := checkValue read
  read := read
  write := write

/-! ### Containers -/

/-- A value or `null`. -/
def nullable {α : Type} (c : Codec α) : Codec (Option α) where
  check := fun depth tree =>
    match tree with
    | .null => none
    | other => c.check depth other
  read
    | .null => some none
    | v => (c.read v).map some
  write
    | none => .null
    | some a => c.write a

/-- Arrays of values of one type. -/
def list {α : Type} (c : Codec α) : Codec (List α) where
  check := fun depth tree =>
    match tree with
    | .array items =>
      match depth with
      | 0 => some .malformed
      | depth + 1 => checkEach c.check depth items
    | other => some (misfit other)
  read
    | .array items => items.mapM c.read
    | _ => none
  write as := .array (as.map c.write)

/-- Reads a value that has been free-form until now. -/
def ofJson {α : Type} (c : Codec α) (v : Json) : Option α := c.read v.short

/-- Reads a value from all of a text. The first fault of the text counts; what follows the value
counts only if there is none. -/
def ofText {α : Type} (c : Codec α) (text : String) : Except Fault α :=
  let (tree, alone) := Document.ofText text.toList
  match c.check Document.maxDepth tree with
  | some fault => .error fault
  | none =>
    -- The tree has been checked as far as it matters; what is skipped may still have no value.
    if alone then
      match c.read tree.salvage with
      | some a => .ok a
      | none => .error .mismatch
    else .error .malformed

end Codec

end RosettaGateway.Json
