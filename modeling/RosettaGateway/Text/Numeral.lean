/-!
# Integers written as text

Amounts and counters reach the gateway in several spellings. This module holds the reading rules,
each as a function on lists of characters:

- `plain?` reads digits and nothing else;
- `natural?` reads digits of a radix up to 36 behind an optional plus sign, and skips the
  underscores that group them;
- `integer?` puts an optional minus sign in front of a decimal `natural?`;
- `unsigned?` reads decimal or `0x` hexadecimal text with blanks around it, which is how a node may
  render a quantity.

`fits` says whether an integer is a machine number.
-/

namespace RosettaGateway.Numeral

/-- A character counts as blank when Unicode gives it the property White_Space. -/
def isBlank (c : Char) : Bool :=
  let n := c.toNat
  (0x09 ≤ n && n ≤ 0x0D) || n == 0x20 || n == 0x85 || n == 0xA0 || n == 0x1680 ||
    (0x2000 ≤ n && n ≤ 0x200A) || n == 0x2028 || n == 0x2029 || n == 0x202F || n == 0x205F ||
    n == 0x3000

/-- Drops the blanks at both ends. -/
def trim (cs : List Char) : List Char :=
  ((cs.dropWhile isBlank).reverse.dropWhile isBlank).reverse

/-- The value of a digit, letters of either case standing for ten and up. -/
def digitValue (c : Char) : Option Nat :=
  if '0' ≤ c ∧ c ≤ '9' then some (c.toNat - '0'.toNat)
  else if 'a' ≤ c ∧ c ≤ 'z' then some (c.toNat - 'a'.toNat + 10)
  else if 'A' ≤ c ∧ c ≤ 'Z' then some (c.toNat - 'A'.toNat + 10)
  else none

/-- Appends the digits of a text to a number already read; underscores stand for nothing. -/
def appendDigits? (radix : Nat) : Nat → List Char → Option Nat
  | acc, [] => some acc
  | acc, c :: rest =>
    if c = '_' then appendDigits? radix acc rest
    else
      match digitValue c with
      | some d => if d < radix then appendDigits? radix (acc * radix + d) rest else none
      | none => none

/-- Drops one leading plus sign, unless a second one follows it. -/
def dropPlus : List Char → List Char
  | '+' :: rest => if rest.head? = some '+' then '+' :: rest else rest
  | cs => cs

/-- Reads a natural number: an optional plus sign, then digits of which the first is a real one. -/
def natural? (radix : Nat) (cs : List Char) : Option Nat :=
  match dropPlus cs with
  | [] => none
  -- An underscore groups digits; in front there is nothing to group.
  | '_' :: _ => none
  | digits => appendDigits? radix 0 digits

/-- Reads a decimal integer. A minus sign is only a sign when no plus sign follows it. -/
def integer? : List Char → Option Int
  | '-' :: rest =>
    -- Of a minus and a plus sign only one can be meant.
    if rest.head? = some '+' then none else (natural? 10 rest).map fun n => -(n : Int)
  | cs => (natural? 10 cs).map Int.ofNat

/-- Reads a quantity as decimal or `0x` hexadecimal text, blanks around it allowed. The bare marker
`0x` stands for zero. -/
def unsigned? (cs : List Char) : Option Nat :=
  match trim cs with
  | '0' :: 'x' :: digits => if digits.isEmpty then some 0 else natural? 16 digits
  | '0' :: 'X' :: digits => if digits.isEmpty then some 0 else natural? 16 digits
  | digits => natural? 10 digits

/-- Reads decimal digits without sign or grouping. -/
def plain? (cs : List Char) : Option Nat :=
  if cs.isEmpty then none
  else if cs.all Char.isDigit then natural? 10 cs
  else none

/-- The decimal text of a natural number. -/
def ofNat (n : Nat) : String := String.ofList (Nat.toDigits 10 n)

/-- The decimal text of an integer. -/
def ofInt : Int → String
  | .ofNat n => ofNat n
  | .negSucc n => "-" ++ ofNat (n + 1)

/-- Whether an integer has at most 128 bits, with a sign or without. -/
def fits (i : Int) : Bool :=
  -0x80000000000000000000000000000000 ≤ i && i < 0x100000000000000000000000000000000

/-- Natural numbers below the bound have at most 128 bits. -/
theorem fits_natCast {n : Nat} (h : n < 0x100000000000000000000000000000000) : fits n = true := by
  have low : (-0x80000000000000000000000000000000 : Int) ≤ n := by omega
  have high : (n : Int) < 0x100000000000000000000000000000000 := by omega
  simp only [fits, low, high, decide_true, Bool.and_self]

end RosettaGateway.Numeral
