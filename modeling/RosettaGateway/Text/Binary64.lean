/-!
# Binary numbers of 64 bits

Some readers hold numbers in binary with 53 places and exponents up to 971. No value is computed
that way here, but it may decide whether a text can be read at all, because a number that would be
rounded to infinity is refused, and how a number is spelled. All of this is decided on natural
numbers.

`divNearest_mul_le` and `le_divNearest_mul` say that a rounded quotient is at most half away from
the quotient.
-/

namespace RosettaGateway

/-- A fraction of natural numbers, which need not be in lowest terms. -/
structure Ratio where
  num : Nat
  den : Nat := 1

/-- A fraction times a power. -/
def Ratio.mulPow (r : Ratio) (base : Nat) (e : Int) : Ratio :=
  ⟨r.num * Nat.pow base e.toNat, r.den * Nat.pow base (-e).toNat⟩

/-- A number that can be held, without its sign: a mantissa below `2 ^ 53`, times a power of two.
Only numbers with the least exponent have mantissas below `2 ^ 52`. -/
structure Binary64 where
  mantissa : Nat
  exponent : Int
  deriving DecidableEq

namespace Binary64

/-- The quotient of two numbers, rounded; a half goes to the even neighbour. -/
def divNearest (a b : Nat) : Nat :=
  let whole := a / b
  let rest := 2 * (a % b)
  if b < rest ∨ (b = rest ∧ whole % 2 = 1) then whole + 1 else whole

theorem divNearest_mul_le (a b : Nat) : 2 * (divNearest a b * b) ≤ 2 * a + b := by
  have whole := Nat.div_add_mod' a b
  have step : (a / b + 1) * b = a / b * b + b := Nat.succ_mul _ _
  simp only [divNearest]
  split <;> omega

theorem le_divNearest_mul {a b : Nat} (h : 0 < b) : 2 * a ≤ 2 * (divNearest a b * b) + b := by
  have whole := Nat.div_add_mod' a b
  have small := Nat.mod_lt a h
  have step : (a / b + 1) * b = a / b * b + b := Nat.succ_mul _ _
  simp only [divNearest]
  split <;> omega

/-! ### Natural numbers -/

/-- The least number that is rounded to infinity. It is halfway between the largest number that can
be held and the next power of two. -/
def overflow : Nat := (Nat.pow 2 54 - 1) * Nat.pow 2 970

/-- The nearest number with 53 places, and of two that are equally near the even one. -/
def round (n : Nat) : Nat :=
  let unit := Nat.pow 2 (n.log2 - 52)
  divNearest n unit * unit

/-- A number that has no more than 53 places stays as it is. -/
theorem round_of_lt {n : Nat} (h : n < Nat.pow 2 53) : round n = n := by
  have places : n.log2 - 52 = 0 := by
    by_cases hn : n = 0
    · subst hn
      rfl
    · have := (Nat.log2_lt hn).mpr h
      omega
  simp [round, divNearest, places, Nat.mod_one]

/-- The least power of ten that overflows. -/
def ceiling : Nat := 309

/-- Two words do not overflow, and that power of ten does. -/
theorem overflow_bounds : 2 * UInt64.size < overflow ∧ overflow ≤ Nat.pow 10 ceiling := by
  decide +kernel

theorem overflow_pos : 0 < overflow := Nat.lt_of_le_of_lt (Nat.zero_le _) overflow_bounds.1

theorem overflow_le_pow_ceiling : overflow ≤ Nat.pow 10 ceiling := overflow_bounds.2

/-! ### Fractions -/

/-- The exponent with which a fraction is held. The mantissa gets 53 places, or fewer if that takes
an exponent that is too small. -/
def exponentOf (r : Ratio) : Int :=
  let least : Int := (r.num.log2 : Int) - r.den.log2 - 53
  let scaled := r.mulPow 2 (-least)
  let exponent := if Nat.pow 2 53 * scaled.den ≤ scaled.num then least + 1 else least
  if exponent < -1074 then -1074 else exponent

/-- The nearest number to a fraction, and of two that are equally near the one with the even
mantissa. The exponents are not bounded above. -/
def nearest (r : Ratio) : Binary64 :=
  if r.num = 0 then ⟨0, -1074⟩
  else
    let exponent := exponentOf r
    let scaled := r.mulPow 2 (-exponent)
    let mantissa := divNearest scaled.num scaled.den
    -- Rounding up may need one place more.
    if mantissa = Nat.pow 2 53 then ⟨Nat.pow 2 52, exponent + 1⟩ else ⟨mantissa, exponent⟩

/-- The number as a fraction. -/
def toRatio (x : Binary64) : Ratio := Ratio.mulPow { num := x.mantissa } 2 x.exponent

end Binary64

end RosettaGateway
