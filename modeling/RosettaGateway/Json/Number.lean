import RosettaGateway.Text.Binary64
import RosettaGateway.Text.Numeral

/-!
# JSON numbers

A number is kept as it is spelled, because amounts are wider than any machine number and because
whether a number counts as an integer depends on its spelling: one with a fraction or an exponent
does not, whatever its value. The whole part has no zeros in front, so it is a natural number; in a
fraction and in an exponent the zeros count. A letter of either case and a missing sign in front of
an exponent make no difference.

Where an integer is asked for, other numbers are read as binary ones before they are refused. A
number that is too large even for that is not merely of the wrong kind (`Number.overflows`).
-/

namespace RosettaGateway.Json

/-- A decimal digit. -/
abbrev Digit := Fin 10

namespace Digit

/-- The digit zero. -/
def zero : Digit := ⟨0, by decide⟩

/-- The character of a digit. -/
def toChar (d : Digit) : Char := Nat.digitChar d.val

/-- The digit of a character from `0` to `9`. -/
def ofChar (c : Char) : Digit := Fin.ofNat 10 (c.toNat - '0'.toNat)

/-- The number that digits stand for. -/
def value (digits : List Digit) : Nat := digits.foldl (fun acc d => acc * 10 + d.val) 0

/-- Reading undoes writing. -/
@[simp] theorem ofChar_toChar : ∀ d : Digit, ofChar d.toChar = d := by decide

end Digit

/-- An exponent: its sign and its digits, of which there is one at least. -/
structure Exponent where
  negative : Bool
  first : Digit
  others : List Digit
  deriving DecidableEq

/-- A number. Without a point there are no digits of a fraction. -/
structure Number where
  negative : Bool := false
  whole : Nat
  fraction : List Digit := []
  exponent : Option Exponent := none
  deriving DecidableEq, Inhabited

namespace Number

/-- The number of a natural number. -/
def ofNat (n : Nat) : Number := { whole := n }

/-- The number of an integer. -/
def ofInt : Int → Number
  | .ofNat n => { whole := n }
  | .negSucc n => { negative := true, whole := n + 1 }

/-- Whether a number has neither a fraction nor an exponent. -/
def isWhole (n : Number) : Bool := n.fraction.isEmpty && n.exponent.isNone

/-- The natural number that is spelled by digits alone. -/
def natural? (n : Number) : Option Nat :=
  if n.isWhole && !n.negative then some n.whole else none

/-- The integer that is spelled by digits and a minus sign or none. -/
def integer? (n : Number) : Option Int :=
  if n.isWhole then some (if n.negative then -(n.whole : Int) else n.whole) else none

/-- Whether a number is a zero with a minus sign. -/
def isMinusZero (n : Number) : Bool := n.isWhole && n.negative && n.whole == 0

/-- The number as a value. There a zero that is an integer has no sign. -/
def unsignedZero (n : Number) : Number := if n.isMinusZero then ofNat 0 else n

@[simp] theorem natural?_ofNat (n : Nat) : (ofNat n).natural? = some n := rfl

@[simp] theorem integer?_ofInt (i : Int) : (ofInt i).integer? = some i := by
  cases i with
  | ofNat n => rfl
  | negSucc n => exact congrArg some (Int.negSucc_eq n).symm

/-! ### Binary reading -/

/-- The digits of the whole part. -/
def wholeDigits (n : Number) : List Digit := (Nat.toDigits 10 n.whole).map Digit.ofChar

/-- Appends the digits in front of the point to a word of 64 bits. From the first one that does not
fit they count as zeros. The second component is the power of ten that is left out. -/
def appendFront : Nat → List Digit → Nat × Int
  | word, [] => (word, 0)
  | word, d :: rest =>
    if word * 10 + d.val < UInt64.size then appendFront (word * 10 + d.val) rest
    else (word, (d :: rest).length)

/-- Appends the digits behind the point. From the first one that does not fit they are left out. -/
def appendBehind : Nat × Int → List Digit → Nat × Int
  | (word, power), [] => (word, power)
  | (word, power), d :: rest =>
    if word * 10 + d.val < UInt64.size then appendBehind (word * 10 + d.val, power - 1) rest
    else (word, power)

/-- The power of ten an exponent stands for. -/
def power : Option Exponent → Int
  | none => 0
  | some e =>
    let size : Int := Digit.value (e.first :: e.others)
    if e.negative then -size else size

/-- Whether a number is rounded to infinity when it is read in binary. The digits and the power of
ten are rounded first, then their product. -/
def overflows (n : Number) : Bool :=
  let (word, left) := appendBehind (appendFront 0 n.wholeDigits) n.fraction
  match left + power n.exponent with
  | .ofNat e =>
    word != 0 && (Binary64.ceiling ≤ e ||
      Binary64.overflow ≤ Binary64.round word * Binary64.round (Nat.pow 10 e))
  | .negSucc _ => false

/-! ### Writing -/

/-- The text of a fraction. -/
def fractionText : List Digit → List Char
  | [] => []
  | digits => '.' :: digits.map Digit.toChar

/-- The text of an exponent, which always has a sign. -/
def exponentText : Option Exponent → List Char
  | none => []
  | some e => 'e' :: (if e.negative then '-' else '+') :: (e.first :: e.others).map Digit.toChar

/-- The text of a number. -/
def text (n : Number) : String :=
  (if n.negative then "-" else "") ++ Numeral.ofNat n.whole ++
    String.ofList (fractionText n.fraction ++ exponentText n.exponent)

end Number

end RosettaGateway.Json
