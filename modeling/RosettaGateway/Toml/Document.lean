import RosettaGateway.Toml.Scalar

/-!
# TOML documents

A document is a list of lines: headers, which open a table, and entries, which add a value to it.
Values are scalars, arrays and inline tables; arrays and inline tables may go over several lines and
end in a comma. A document with any fault has no value.
-/

namespace RosettaGateway.Toml

/-- Drops blanks, ends of lines and comments, as they may stand within arrays and inline tables. -/
def skipLines : Nat → List Char → Option (List Char)
  | 0, _ => none
  | fuel + 1, cs => do
    let rest ← comment? (skipBlanks cs)
    match newline? rest with
    | some rest => skipLines fuel rest
    | none => return rest

/-- Drops what `skipLines` drops. -/
def skipSpace (cs : List Char) : Option (List Char) := skipLines (cs.length + 1) cs

/-- Whether a character may stand in a key without quotes. -/
def isBare (c : Char) : Bool := c.isAlphanum || c == '_' || c == '-'

/-- Reads one part of a key. Keys stand on one line. -/
def keyPart? (cs : List Char) : Option (String × List Char) :=
  match cs with
  | [] => none
  | c :: rest =>
    if c = '"' ∨ c = tick then line c (c == '"') (rest.length + 1) [] rest
    else
      match cs.span isBare with
      | ([], _) => none
      | (part, rest) => some (String.ofList part, rest)

/-- Reads a dotted key. -/
def key? : Nat → List Char → Option (List String × List Char)
  | 0, _ => none
  | fuel + 1, cs => do
    let (part, rest) ← keyPart? (skipBlanks cs)
    match skipBlanks rest with
    | '.' :: rest =>
      let (others, rest) ← key? fuel rest
      return (part :: others, rest)
    | rest => return ([part], rest)

/-- Arrays and inline tables may stand in each other down to this depth, and a dotted key has at
most so many parts. -/
def maxDepth : Nat := 80

/-- Reads the dotted key in front. -/
def path? (cs : List Char) : Option (List String × List Char) :=
  (key? (cs.length + 1) cs).filter fun (path, _) => path.length ≤ maxDepth

mutual

/-- Reads a value, with so many levels of nesting left. -/
def value? : Nat → Nat → List Char → Option (Toml × List Char)
  | 0, _, _ => none
  | fuel + 1, depth, cs =>
    match cs, depth with
    | [], _ => none
    | '[' :: _, 0 => none
    | '\x7b' :: _, 0 => none
    | '[' :: rest, depth + 1 =>
      (items? fuel depth rest).map fun (items, rest) => (.array items, rest)
    | '\x7b' :: rest, depth + 1 =>
      (entries? fuel depth [] rest).map fun (members, rest) =>
        (.table (membersToToml members), rest)
    | c :: rest, _ =>
      if c = '"' ∨ c = tick then (string? (c :: rest)).map fun (s, rest) => (.string s, rest)
      else
        let (w, rest) := word (c :: rest)
        (ofWord? w).map fun v => (v, rest)

/-- Reads the items of an array up to its end. -/
def items? : Nat → Nat → List Char → Option (List Toml × List Char)
  | 0, _, _ => none
  | fuel + 1, depth, cs => do
    let cs ← skipSpace cs
    match cs with
    | ']' :: rest => return ([], rest)
    | cs =>
      let (v, rest) ← value? fuel depth cs
      let rest ← skipSpace rest
      match rest with
      | ',' :: rest =>
        let (vs, rest) ← items? fuel depth rest
        return (v :: vs, rest)
      | ']' :: rest => return ([v], rest)
      | _ => none

/-- Reads the entries of an inline table up to its end, on top of those already there. -/
def entries? : Nat → Nat → Members → List Char → Option (Members × List Char)
  | 0, _, _, _ => none
  | fuel + 1, depth, members, cs => do
    let cs ← skipSpace cs
    match cs with
    | '\x7d' :: rest => return (members, rest)
    | cs =>
      let (path, rest) ← path? cs
      let rest ← skipSpace rest
      match rest with
      | '=' :: rest =>
        let rest ← skipSpace rest
        let (v, rest) ← value? fuel depth rest
        let members ← insert path v members
        let rest ← skipSpace rest
        match rest with
        | ',' :: rest => entries? fuel depth members rest
        | '\x7d' :: rest => return (members, rest)
        | _ => none
      | _ => none

end

/-- Takes the rest of a line: blanks and a comment. -/
def endOfLine? (cs : List Char) : Option (List Char) := do
  let rest ← comment? (skipBlanks cs)
  if rest.isEmpty then return [] else newline? rest

/-- Reads a document line by line: the header of the open table and the tables read so far. -/
def document? : Nat → List String → Members → List Char → Option Members
  | 0, _, _, _ => none
  | fuel + 1, header, root, cs =>
    match skipBlanks cs with
    | [] => some root
    | '[' :: '[' :: rest => do
      let (path, rest) ← path? rest
      match rest with
      | ']' :: ']' :: rest =>
        let root ← extend path root
        let rest ← endOfLine? rest
        document? fuel path root rest
      | _ => none
    | '[' :: rest => do
      let (path, rest) ← path? rest
      match rest with
      | ']' :: rest =>
        let root ← define path root
        let rest ← endOfLine? rest
        document? fuel path root rest
      | _ => none
    | cs =>
      match endOfLine? cs with
      | some rest => document? fuel header root rest
      | none => do
        let (path, rest) ← path? cs
        match rest with
        | '=' :: rest =>
          let (v, rest) ← value? (2 * rest.length + 2) maxDepth (skipBlanks rest)
          let root ← insertAt header path v root
          let rest ← endOfLine? rest
          document? fuel header root rest
        | _ => none

/-- Drops the mark that some editors put in front of a text. -/
def dropMark : List Char → List Char
  | '\ufeff' :: rest => rest
  | cs => cs

/-- The members of the table a text stands for. -/
def ofText? (text : String) : Option (List (String × Toml)) :=
  let cs := dropMark text.toList
  (document? (cs.length + 1) [] [] cs).map membersToToml

end RosettaGateway.Toml
