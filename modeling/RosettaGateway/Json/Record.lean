import RosettaGateway.Json.Codec

/-!
# Records

A record is built from fields with `Record.required`, `Record.defaulted` and `Record.optional`,
which `Record.and` puts in order and `Record.map` turns into a structure. `Record.codec` is the
codec of the record as a whole.

Reading goes in two steps. `slots` finds, for each field, the value given for it, and knows nothing
of types; the record's `read` then interprets the slots, and knows nothing of names.
-/

namespace RosettaGateway.Json

/-- A field of a record: its name, the other names it is accepted under, whether it must be there,
and the check of its value. -/
structure Field where
  name : String
  aliases : List String := []
  mandatory : Bool
  check : Check

/-- Whether a key names a field. -/
def Field.names (f : Field) (key : String) : Bool := key == f.name || f.aliases.contains key

/-- The value an object gives for a field: none, one, or too many. -/
def slotOf (f : Field) (members : List (String × Json)) : Option (Option Json) :=
  match members.filter fun m => f.names m.1 with
  | [] => some none
  | [m] => some (some m.2)
  | _ => none

/-- The values given for the fields of a record, as an object or as an array. -/
def slots (fields : List Field) : Json → Option (List (Option Json))
  | .object members => fields.mapM fun f => slotOf f members
  | .array items =>
    if items.length ≤ fields.length then
      some (items.map some ++ List.replicate (fields.length - items.length) none)
    else none
  | _ => none

/-! ### Checking the text of a record -/

/-- The first fault among the members of an object. `seen` lists the fields already met. -/
def checkMembers (fields : List Field) (depth : Nat) :
    List String → List (Option String × Document) → Option Fault
  | seen, [] =>
    if fields.any fun f => f.mandatory && !seen.contains f.name then some .mismatch else none
  | _, (none, _) :: _ => some .malformed
  | seen, (some key, tree) :: rest =>
    match fields.find? fun f => f.names key with
    -- A member nobody asked for is skipped, for which it only has to be JSON.
    | none => if tree.intact then checkMembers fields depth seen rest else some .malformed
    | some f =>
      -- A field given twice is refused before its second value is read.
      if seen.contains f.name then some .mismatch
      else
        match f.check depth tree with
        | some fault => some fault
        | none => checkMembers fields depth (f.name :: seen) rest

/-- The first fault among the items of an array that stands for a record. -/
def checkItems (depth : Nat) : List Field → List Document → Option Fault
  | [], [] => none
  -- When all fields have been read the bracket has to close.
  | [], _ :: _ => some .malformed
  | fields, [] => if fields.any (·.mandatory) then some .mismatch else none
  | f :: fields, tree :: rest =>
    match f.check depth tree with
    | some fault => some fault
    | none => checkItems depth fields rest

/-- The first fault of a tree that should be a record. -/
def checkRecord (fields : List Field) : Check := fun depth tree =>
  match tree, depth with
  | .object _, 0 => some .malformed
  | .array _, 0 => some .malformed
  | .object members, depth + 1 => checkMembers fields depth [] members
  | .array items, depth + 1 => checkItems depth fields items
  | other, _ => some (misfit other)

/-! ### Building records -/

/-- The fields of a record in order, what their slots mean, and how they are written. -/
structure Record (α : Type) where
  fields : List Field
  read : List (Option Json) → Option α
  write : α → List (String × Json)

namespace Record

variable {α β : Type}

/-- A field that must be there. -/
def required (name : String) (c : Codec α) (aliases : List String := []) : Record α where
  fields := [{ name, aliases, mandatory := true, check := c.check }]
  read
    | [some v] => c.read v
    | _ => none
  write a := [(name, c.write a)]

/-- A field that has a default. -/
def defaulted (name : String) (c : Codec α) (default : α) (aliases : List String := []) :
    Record α where
  fields := [{ name, aliases, mandatory := false, check := c.check }]
  read
    | [some v] => c.read v
    | [none] => some default
    | _ => none
  write a := [(name, c.write a)]

/-- A field that may be missing or `null`, and is left out when it is. -/
def optional (name : String) (c : Codec α) (aliases : List String := []) : Record (Option α) where
  fields := [{ name, aliases, mandatory := false, check := c.nullable.check }]
  read
    | [some v] => c.nullable.read v
    | [none] => some none
    | _ => none
  write
    | some a => [(name, c.write a)]
    | none => []

/-- A field that holds a list, which is left out when it is empty. -/
def listed (name : String) (c : Codec α) (aliases : List String := []) : Record (List α) where
  fields := [{ name, aliases, mandatory := false, check := c.list.check }]
  read
    | [some v] => c.list.read v
    | [none] => some []
    | _ => none
  write
    | [] => []
    | as => [(name, c.list.write as)]

/-- The fields of one record, then those of another. -/
def and (a : Record α) (b : Record β) : Record (α × β) where
  fields := a.fields ++ b.fields
  read slots :=
    match a.read (slots.take a.fields.length), b.read (slots.drop a.fields.length) with
    | some x, some y => some (x, y)
    | _, _ => none
  write p := a.write p.1 ++ b.write p.2

/-- The same fields for another type. -/
def map (r : Record α) (make : α → β) (parts : β → α) : Record β where
  fields := r.fields
  read slots := (r.read slots).map make
  write b := r.write (parts b)

/-- The codec of a record. -/
def codec (r : Record α) : Codec α where
  check := checkRecord r.fields
  read v := (slots r.fields v).bind r.read
  write a := .object (r.write a)

end Record

end RosettaGateway.Json
