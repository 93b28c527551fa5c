import RosettaGateway.Json.Basic
import RosettaGateway.Text.Shortest

/-!
# Spelling of numbers

When a value is taken over into another type, the numbers in it are looked at once more. An integer
of at most 128 bits stays as it is. Any other number, unless it is too large, is held in binary for
a moment, and if its spelling is the shortest one without an exponent, it gets the spelling that
binary numbers have here: `Number.ofBinary` puts an exponent behind numbers that are very large or
very small. All other spellings stay. Of two shortest spellings that are equally near, the one that
is looked for has the greater digits and the one that is given the even ones.

So `0.0000001` becomes `1e-7` and a one with forty zeros becomes `1e+40`, which is no integer, while
a one with forty zeros and a one is still an integer. `Json.short` does this everywhere in a value.
-/

namespace RosettaGateway.Json

/-- The exponent of an integer. -/
def Exponent.ofInt (i : Int) : Exponent :=
  match (Nat.toDigits 10 i.natAbs).map Digit.ofChar with
  | [] => ⟨false, .zero, []⟩
  | first :: others => ⟨i < 0, first, others⟩

namespace Number

/-- Whether a number is an integer of at most 128 bits. -/
def isMachine (n : Number) : Bool := n.integer?.any Numeral.fits

/-- The digits of a number without an exponent, and the power of ten behind the last one. A whole
number is taken without the zeros at its end. -/
def decimal (n : Number) : Nat × Int :=
  let digits := n.wholeDigits ++ n.fraction
  let zeros := if n.fraction.isEmpty then (digits.reverse.takeWhile (· = .zero)).length else 0
  (Digit.value (digits.take (digits.length - zeros)), (zeros : Int) - n.fraction.length)

/-- The number with a point and without an exponent. There is a digit behind the point at least. -/
def positional (negative : Bool) (digits : Nat) (power : Int) : Number :=
  match power with
  | .ofNat zeros => { negative, whole := digits * Nat.pow 10 zeros, fraction := [.zero] }
  | .negSucc places =>
    let one := Nat.pow 10 (places + 1)
    { negative
      whole := digits / one
      -- The one in front keeps the zeros behind the point.
      fraction := (wholeDigits { whole := one + digits % one }).tail }

/-- The number with one digit in front of the point and with an exponent. -/
def scientific (negative : Bool) (digits : Nat) (power : Int) : Number :=
  match wholeDigits { whole := digits } with
  | [] => { negative, whole := 0 }
  | first :: fraction =>
    { negative, whole := first.val, fraction,
      exponent := some (.ofInt (power + fraction.length)) }

/-- The spelling of a binary number with given digits. From the sixteenth place in front of the
point to the fifth behind it the first digit needs no exponent. -/
def ofBinary (negative : Bool) (digits : Nat) (power : Int) : Number :=
  let place := power + (wholeDigits { whole := digits }).length - 1
  if -5 ≤ place ∧ place ≤ 15 then positional negative digits power
  else scientific negative digits power

/-- The spelling of a number in a value that is taken over. -/
def short (n : Number) : Number :=
  if n.isMachine || n.exponent.isSome || Binary64.overflow ≤ n.whole then n
  else
    let (digits, power) := n.decimal
    let x := Binary64.nearest (Ratio.mulPow { num := digits } 10 power)
    if x.isShortest .up digits power then
      match x.digits? .even power with
      | some digits => ofBinary n.negative digits power
      | none => n
    else n

theorem short_of_isMachine {n : Number} (h : n.isMachine) : n.short = n := by
  simp [short, h]

theorem short_of_exponent {n : Number} (h : n.exponent.isSome) : n.short = n := by
  simp [short, h]

theorem short_ofNat {n : Nat} (h : n < 0x100000000000000000000000000000000) :
    (ofNat n).short = ofNat n := by
  apply short_of_isMachine
  have whole : (ofNat n).integer? = some (n : Int) := rfl
  rw [isMachine, whole, Option.any_some]
  exact Numeral.fits_natCast h

end Number

mutual

/-- The value with the spelling its numbers have when it is taken over. -/
def short : Json → Json
  | .null => .null
  | .bool b => .bool b
  | .number n => .number n.short
  | .string s => .string s
  | .array items => .array (shortItems items)
  | .object members => .object (shortMembers members)

/-- The items of an array, each taken over. -/
def shortItems : List Json → List Json
  | [] => []
  | item :: rest => item.short :: shortItems rest

/-- The members of an object, each taken over under its key. -/
def shortMembers : List (String × Json) → List (String × Json)
  | [] => []
  | (key, value) :: rest => (key, value.short) :: shortMembers rest

end

/-- When an object is taken over, its keys stay as they are. -/
theorem keys_shortMembers (members : List (String × Json)) :
    (shortMembers members).map Prod.fst = members.map Prod.fst := by
  induction members with
  | nil => rfl
  | cons m rest ih => simp [shortMembers, ih]

end RosettaGateway.Json
