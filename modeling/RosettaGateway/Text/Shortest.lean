import RosettaGateway.Text.Binary64

/-!
# Shortest decimal digits

Decimal digits tell a binary number if the number is the nearest one to them. The points with a
given power of ten behind the last digit form a grid; a grid with a larger power needs fewer digits,
and its points are on every finer grid as well. So digits are the shortest for a number if they tell
it and no digits on the next coarser grid do.
-/

namespace RosettaGateway.Binary64

/-- Which digits are chosen if two are equally near: the greater ones or the even ones. -/
inductive Tie where
  | up
  | even

/-- Whether the greater ones of two equally near digits are chosen. -/
def Tie.isUpward (tie : Tie) (below : Nat) : Bool :=
  match tie with
  | .up => true
  | .even => below % 2 = 1

/-- Whether digits with a power of ten behind the last one tell a number. -/
def tells (digits : Nat) (power : Int) (x : Binary64) : Bool :=
  nearest (Ratio.mulPow { num := digits } 10 power) = x

/-- The digits on a grid that tell a number, and of several such the nearest. What tells a number
forms an interval around it, so nothing but its two neighbours on the grid has to be tried. -/
def digits? (tie : Tie) (power : Int) (x : Binary64) : Option Nat :=
  let scaled := x.toRatio.mulPow 10 (-power)
  let below := scaled.num / scaled.den
  let rest := 2 * (scaled.num % scaled.den)
  match tells below power x, tells (below + 1) power x with
  | false, false => none
  | true, false => some below
  | false, true => some (below + 1)
  | true, true =>
    if scaled.den < rest ∨ (scaled.den = rest ∧ tie.isUpward below) then some (below + 1)
    else some below

/-- Whether digits are the shortest ones that tell a number. -/
def isShortest (tie : Tie) (digits : Nat) (power : Int) (x : Binary64) : Bool :=
  (x.digits? tie (power + 1)).isNone && x.digits? tie power == some digits

/-- Digits that are found on a grid tell the number. -/
theorem tells_of_digits? {tie : Tie} {power : Int} {x : Binary64} {digits : Nat}
    (h : x.digits? tie power = some digits) : tells digits power x = true := by
  simp only [digits?] at h
  grind

end RosettaGateway.Binary64
