import RosettaGateway.Text.Numeral
import RosettaGateway.Toml.Fraction

/-!
# TOML values

A TOML document is a table. While it is read its tables grow, and how a table came about decides
what may still be added to it: one that a header defined is not defined again, one that dotted keys
made takes only dotted keys, and one that was only passed through may still be defined. `Node` keeps
this apart; `Node.toToml` forgets it.

Numbers have any size while a document is read. Whether a reader can hold them is asked only where a
value is looked at, be it to skip it, by `Toml.fits`.
-/

namespace RosettaGateway

/-- A TOML value. Times are kept as they are written. -/
inductive Toml where
  | string (s : String)
  | integer (i : Int)
  | fraction (f : Toml.Fraction)
  | boolean (b : Bool)
  | time (text : String)
  | array (items : List Toml)
  | table (members : List (String × Toml))

namespace Toml

mutual

/-- Whether every number in a value can be held. -/
def fits : Toml → Bool
  | .string _ => true
  | .integer i => Numeral.fits i
  | .fraction f => f.fits
  | .boolean _ => true
  | .time _ => true
  | .array items => itemsFit items
  | .table members => membersFit members

/-- Whether every number in the items of an array can be held. -/
def itemsFit : List Toml → Bool
  | [] => true
  | v :: rest => v.fits && itemsFit rest

/-- Whether every number in the members of a table can be held. -/
def membersFit : List (String × Toml) → Bool
  | [] => true
  | (_, v) :: rest => v.fits && membersFit rest

end

/-- How a table came about. -/
inductive Origin where
  | passed
  | dotted
  | defined
  deriving DecidableEq

/-- A part of a document that is being read. -/
inductive Node where
  | value (v : Toml)
  | table (origin : Origin) (members : List (String × Node))
  | tables (items : List (List (String × Node)))

mutual

/-- The value of a node. -/
def Node.toToml : Node → Toml
  | .value v => v
  | .table _ members => .table (membersToToml members)
  | .tables items => .array (tablesToToml items)

/-- The values of the members of a table. -/
def membersToToml : List (String × Node) → List (String × Toml)
  | [] => []
  | (key, node) :: rest => (key, node.toToml) :: membersToToml rest

/-- The values of the tables of an array. -/
def tablesToToml : List (List (String × Node)) → List Toml
  | [] => []
  | members :: rest => .table (membersToToml members) :: tablesToToml rest

end

/-- The members of a table that is being read. -/
abbrev Members := List (String × Node)

/-- Replaces the node of a key. -/
def replace (key : String) (node : Node) (members : Members) : Members :=
  members.map fun m => if m.1 = key then (key, node) else m

/-- Changes the table at a path. Tables on the way are entered, and made where there are none; of an
array of tables the last one is entered. With `dotted` the path is the front of a dotted key, which
does not enter a table that a header defined. -/
def change (dotted : Bool) (f : Origin → Members → Option Members) :
    Origin → List String → Members → Option Members
  | origin, [], members => f origin members
  | _, key :: path, members =>
    match members.lookup key with
    | none => do
      let origin : Origin := if dotted then .dotted else .passed
      let inner ← change dotted f origin path []
      return members ++ [(key, .table origin inner)]
    | some (.value _) => none
    | some (.table origin inner) =>
      -- What a header defined is closed to dotted keys from elsewhere.
      if dotted ∧ origin = .defined then none
      else do
        let inner ← change dotted f origin path inner
        return replace key (.table origin inner) members
    | some (.tables items) => do
      let last ← items.getLast?
      let last ← change dotted f .defined path last
      return replace key (.tables (items.dropLast ++ [last])) members

/-- Splits a path into the way and the last key. -/
def splitPath : List String → Option (List String × String)
  | [] => none
  | [key] => some ([], key)
  | key :: rest => (splitPath rest).map fun (way, last) => (key :: way, last)

/-- Adds a value under a dotted key to a table. -/
def insert (path : List String) (v : Toml) (members : Members) : Option Members := do
  let (way, key) ← splitPath path
  change true (fun origin inner =>
    if !way.isEmpty && origin != .dotted then none
    else if (inner.lookup key).isSome then none
    else some (inner ++ [(key, .value v)])) .defined way members

/-- Adds a value under a dotted key to the table of a header. -/
def insertAt (header path : List String) (v : Toml) (root : Members) : Option Members :=
  change false (fun _ members => insert path v members) .defined header root

/-- Defines the table of a header. -/
def define (header : List String) (root : Members) : Option Members := do
  let (way, key) ← splitPath header
  change false (fun _ members =>
    match members.lookup key with
    | none => some (members ++ [(key, .table .defined [])])
    -- A table that deeper headers have only passed through can be defined once.
    | some (.table .passed inner) => some (replace key (.table .defined inner) members)
    | _ => none) .defined way root

/-- Adds a table to the array of a header. -/
def extend (header : List String) (root : Members) : Option Members := do
  let (way, key) ← splitPath header
  change false (fun _ members =>
    match members.lookup key with
    | none => some (members ++ [(key, .tables [[]])])
    | some (.tables items) => some (replace key (.tables (items ++ [[]])) members)
    | _ => none) .defined way root

end Toml

end RosettaGateway
