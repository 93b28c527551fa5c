import RosettaGateway.Text.Numeral
import RosettaGateway.Toml.Basic

/-!
# TOML scalars

Each reader takes a text from the front and gives a value and the rest. Strings stand in double
quotes, where a backslash escapes, or in single quotes, where nothing does; with three quotes they
may go over several lines. All other scalars are words, and a word is read as a whole.
-/

namespace RosettaGateway.Toml

/-- The single quote. -/
def tick : Char := Char.ofNat 39

/-- Whether a character may stand in comments and strings: anything but control characters, of which
the tab is allowed. -/
def isPlain (c : Char) : Bool := c == '\t' || (32 ≤ c.toNat && c.toNat != 127)

/-- Takes the end of a line. -/
def newline? : List Char → Option (List Char)
  | '\n' :: rest => some rest
  | '\r' :: '\n' :: rest => some rest
  | _ => none

/-- Drops blanks and tabs. -/
def skipBlanks (cs : List Char) : List Char := cs.dropWhile fun c => c == ' ' || c == '\t'

/-- Takes a comment, if there is one, up to the end of the line. -/
def comment? : List Char → Option (List Char)
  | '#' :: rest =>
    let after := rest.dropWhile isPlain
    if after.isEmpty || (newline? after).isSome then some after else none
  | cs => some cs

/-! ### Strings -/

/-- The value of a hexadecimal number of fixed width, and the rest. -/
def hexNumber? (width : Nat) (cs : List Char) : Option (Nat × List Char) :=
  let digits := cs.take width
  if digits.length = width ∧ digits.all (fun c => (Numeral.digitValue c).any (· < 16)) then
    some (digits.foldl (fun acc c => acc * 16 + (Numeral.digitValue c).getD 0) 0, cs.drop width)
  else none

/-- A character given by its number. -/
def scalar? (width : Nat) (cs : List Char) : Option (Char × List Char) := do
  let (n, rest) ← hexNumber? width cs
  if n.isValidChar then return (Char.ofNat n, rest) else none

/-- Takes what follows a backslash. -/
def escape? : List Char → Option (Char × List Char)
  | 'b' :: rest => some ('\x08', rest)
  | 't' :: rest => some ('\t', rest)
  | 'n' :: rest => some ('\n', rest)
  | 'f' :: rest => some ('\x0c', rest)
  | 'r' :: rest => some ('\r', rest)
  | 'e' :: rest => some ('\x1b', rest)
  | '"' :: rest => some ('"', rest)
  | '\\' :: rest => some ('\\', rest)
  | 'x' :: rest => scalar? 2 rest
  | 'u' :: rest => scalar? 4 rest
  | 'U' :: rest => scalar? 8 rest
  | _ => none

/-- Drops blanks, tabs and ends of lines. -/
def skipGap : List Char → List Char
  | '\r' :: '\n' :: rest => skipGap rest
  | c :: rest => if c == ' ' || c == '\t' || c == '\n' then skipGap rest else c :: rest
  | [] => []

/-- Drops the gap behind a backslash at the end of a line. -/
def skipLineEnding (cs : List Char) : Option (List Char) :=
  (newline? (skipBlanks cs)).map skipGap

/-- Reads a string on one line, up to its closing quote. `done` holds the characters before, the
last one first. -/
def line (quote : Char) (escapes : Bool) : Nat → List Char → List Char → Option (String × List Char)
  | 0, _, _ => none
  | _ + 1, _, [] => none
  | fuel + 1, done, c :: rest =>
    if c == quote then some (String.ofList done.reverse, rest)
    else if escapes && c == '\\' then do
      let (e, rest) ← escape? rest
      line quote escapes fuel (e :: done) rest
    else if isPlain c then line quote escapes fuel (c :: done) rest
    else none

/-- Reads a string over several lines, up to its three closing quotes. Up to two quotes may stand
right before them. Ends of lines are kept as they are. -/
def lines (quote : Char) (escapes : Bool) :
    Nat → List Char → List Char → Option (String × List Char)
  | 0, _, _ => none
  | _ + 1, _, [] => none
  | fuel + 1, done, c :: rest =>
    if c == quote then
      let quotes := (c :: rest).takeWhile (· == quote)
      let after := (c :: rest).dropWhile (· == quote)
      -- Of a row of quotes the last three close the string.
      if quotes.length < 3 then lines quote escapes fuel (quotes ++ done) after
      else if quotes.length ≤ 5 then
        some (String.ofList (done.reverse ++ quotes.drop 3), after)
      else none
    else if escapes && c == '\\' then
      match skipLineEnding rest with
      | some rest => lines quote escapes fuel done rest
      | none => do
        let (e, rest) ← escape? rest
        lines quote escapes fuel (e :: done) rest
    else if isPlain c || c == '\n' || (c == '\r' && rest.head? == some '\n') then
      lines quote escapes fuel (c :: done) rest
    else none

/-- Reads a string that starts with a quote. -/
def string? : List Char → Option (String × List Char)
  | a :: b :: c :: rest =>
    if a ≠ '"' ∧ a ≠ tick then none
    else if b = a ∧ c = a then
      lines a (a == '"') (rest.length + 1) [] ((newline? rest).getD rest)
    else line a (a == '"') (rest.length + 3) [] (b :: c :: rest)
  | [a, b] => if (a = '"' ∨ a = tick) ∧ b = a then some ("", []) else none
  | _ => none

/-! ### Words -/

/-- The digits of a number, with single underscores between them taken out. -/
def digits? (isDigit : Char → Bool) : List Char → Option (List Char)
  | [] => none
  | [c] => if isDigit c then some [c] else none
  | c :: '_' :: rest => if isDigit c then (digits? isDigit rest).map (c :: ·) else none
  | c :: rest => if isDigit c then (digits? isDigit rest).map (c :: ·) else none

/-- Reads digits of a base. -/
def based? (base : Nat) (cs : List Char) : Option Nat :=
  (digits? (fun c => (Numeral.digitValue c).any (· < base)) cs).map fun digits =>
    digits.foldl (fun acc c => acc * base + (Numeral.digitValue c).getD 0) 0

/-- Reads digits of base ten without a zero in front. -/
def decimal? : List Char → Option Nat
  | ['0'] => some 0
  | '0' :: _ => none
  | cs => based? 10 cs

/-- Splits a sign off a number. -/
def signed : List Char → Bool × List Char
  | '-' :: rest => (true, rest)
  | '+' :: rest => (false, rest)
  | cs => (false, cs)

/-- Reads an integer. -/
def integer? : List Char → Option Int
  | '0' :: 'x' :: rest => (based? 16 rest).map Int.ofNat
  | '0' :: 'o' :: rest => (based? 8 rest).map Int.ofNat
  | '0' :: 'b' :: rest => (based? 2 rest).map Int.ofNat
  | cs =>
    let (negative, rest) := signed cs
    (decimal? rest).map fun n => if negative then -(n : Int) else n

/-- Reads an exponent: a sign or none, and digits. -/
def exponent? (cs : List Char) : Option Int :=
  let (negative, rest) := signed cs
  (based? 10 rest).map fun n => if negative then -(n : Int) else n

/-- Reads a fraction: a whole part, and decimals, an exponent or both. -/
def fraction? (cs : List Char) : Option Fraction :=
  let (negative, body) := signed cs
  if body == "inf".toList then some (.infinite negative)
  else if body == "nan".toList then some .notANumber
  else do
    let (mantissa, behind) := body.span fun c => c != 'e' && c != 'E'
    let (whole, decimals) := mantissa.span (· != '.')
    -- A number with neither is an integer.
    if decimals.isEmpty && behind.isEmpty then none
    else do
      let _ ← decimal? whole
      let front ← digits? Char.isDigit whole
      let places ← if decimals.isEmpty then some [] else digits? Char.isDigit (decimals.drop 1)
      let exponent ← if behind.isEmpty then some 0 else exponent? (behind.drop 1)
      let digits ← based? 10 (front ++ places)
      return .finite ⟨negative, digits, exponent - places.length⟩

/-- A number of two digits. -/
def pair? : List Char → Option Nat
  | [a, b] => if a.isDigit && b.isDigit then some ((a.toNat - 48) * 10 + (b.toNat - 48)) else none
  | _ => none

/-- The number of days of a month. -/
def daysOf (year month : Nat) : Nat :=
  if month = 2 then if year % 4 = 0 ∧ (year % 100 ≠ 0 ∨ year % 400 = 0) then 29 else 28
  else if month = 4 ∨ month = 6 ∨ month = 9 ∨ month = 11 then 30
  else 31

/-- Whether a word is a date. -/
def isDate (cs : List Char) : Bool :=
  match cs with
  | [a, b, c, d, '-', e, f, '-', g, h] =>
    match pair? [a, b], pair? [c, d], pair? [e, f], pair? [g, h] with
    | some century, some year, some month, some day =>
      1 ≤ month && month ≤ 12 && 1 ≤ day && day ≤ daysOf (century * 100 + year) month
    | _, _, _, _ => false
  | _ => false

/-- Whether a word is a time of the day. Seconds and their decimals may be left out. -/
def isClock (cs : List Char) : Bool :=
  let hourAndMinute := match cs.take 5 with
    | [a, b, ':', c, d] => (pair? [a, b]).any (· < 24) && (pair? [c, d]).any (· < 60)
    | _ => false
  let rest := match cs.drop 5 with
    | [] => true
    | ':' :: e :: f :: [] => (pair? [e, f]).any (· ≤ 60)
    | ':' :: e :: f :: '.' :: decimals =>
      (pair? [e, f]).any (· ≤ 60) && !decimals.isEmpty && decimals.all Char.isDigit
    | _ => false
  hourAndMinute && rest

/-- Whether a word is a time of the day with or without its offset. -/
def isOffsetClock (cs : List Char) : Bool :=
  match cs.reverse with
  | 'Z' :: rest => isClock rest.reverse
  | 'z' :: rest => isClock rest.reverse
  | d :: c :: ':' :: b :: a :: sign :: rest =>
    if sign == '+' || sign == '-' then
      isClock rest.reverse && (pair? [a, b]).any (· < 24) && (pair? [c, d]).any (· < 60)
    else isClock cs
  | _ => isClock cs

/-- Whether a word is a date, a time of the day, or both. -/
def isTime (cs : List Char) : Bool :=
  isDate cs || isClock cs ||
    match cs.drop 10 with
    | mark :: clock =>
      (mark == 'T' || mark == 't' || mark == ' ') && isDate (cs.take 10) && isOffsetClock clock
    | [] => false

/-- Whether a character may stand in a word. -/
def isWordChar (c : Char) : Bool := c.isAlphanum || "+-_.:".toList.contains c

/-- Takes a word. A date may be followed by one blank and a time. -/
def word (cs : List Char) : List Char × List Char :=
  let (first, rest) := cs.span isWordChar
  match isDate first, rest with
  -- A digit behind the blank makes the date the first half of a time.
  | true, ' ' :: d :: more =>
    if d.isDigit then
      let (second, rest) := (d :: more).span isWordChar
      (first ++ ' ' :: second, rest)
    else (first, rest)
  | _, _ => (first, rest)

/-- The value of a word. -/
def ofWord? (cs : List Char) : Option Toml :=
  if cs == "true".toList then some (.boolean true)
  else if cs == "false".toList then some (.boolean false)
  else
    match integer? cs with
    | some i => some (.integer i)
    | none =>
      match fraction? cs with
      | some f => some (.fraction f)
      | none => if isTime cs then some (.time (String.ofList cs)) else none

end RosettaGateway.Toml
