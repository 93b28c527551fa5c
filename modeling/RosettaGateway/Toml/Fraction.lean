import RosettaGateway.Text.Binary64

/-!
# Fractions in TOML

A number with a point or an exponent is a decimal number of any length; the words `inf` and `nan`
stand for what is none. Such a number is held in binary, and `Decimal.fits` says whether it is small
enough for that. This is decided exactly, on the digits: the main statements `fits_ofNat` and
`fits_negSucc` say that the limits on the exponents, which keep the powers of ten small, make no
difference.
-/

namespace RosettaGateway.Toml

/-- A decimal number: digits, and the power of ten they are multiplied with. -/
structure Decimal where
  negative : Bool
  digits : Nat
  exponent : Int
  deriving DecidableEq

open Binary64 (overflow ceiling overflow_pos overflow_le_pow_ceiling)

namespace Decimal

/-- Whether a number is not rounded to infinity. -/
def fits (d : Decimal) : Bool :=
  match d.exponent with
  | .ofNat e => d.digits * Nat.pow 10 (Nat.min e ceiling) < overflow
  -- So many places make the number smaller than one.
  | .negSucc e => d.digits < overflow * Nat.pow 10 (Nat.min (e + 1) (d.digits.log2 + 1))

theorem pow_le_pow (m e : Nat) (h : m ≤ e) : Nat.pow 10 m ≤ Nat.pow 10 e :=
  Nat.pow_le_pow_right (by decide) h

/-- A whole number fits if it is below the bound. -/
theorem fits_ofNat (negative : Bool) (n e : Nat) :
    fits ⟨negative, n, .ofNat e⟩ = decide (n * Nat.pow 10 e < overflow) := by
  by_cases he : e ≤ ceiling
  · simp only [fits, Nat.min_eq_left he]
  · have he : ceiling ≤ e := by omega
    cases n with
    | zero => simp only [fits, Nat.zero_mul]
    | succ n =>
      have large (k : Nat) (h : ceiling ≤ k) : ¬(n + 1) * Nat.pow 10 k < overflow :=
        Nat.not_lt.mpr <| calc
          overflow ≤ Nat.pow 10 ceiling := overflow_le_pow_ceiling
          _ ≤ Nat.pow 10 k := pow_le_pow ceiling k h
          _ ≤ (n + 1) * Nat.pow 10 k := Nat.le_mul_of_pos_left _ (by omega)
      simp only [fits, Nat.min_eq_right he, large ceiling (Nat.le_refl _), large e he]

/-- A number with places behind the point fits if it is below the bound with as many zeros. -/
theorem fits_negSucc (negative : Bool) (n e : Nat) :
    fits ⟨negative, n, .negSucc e⟩ = decide (n < overflow * Nat.pow 10 (e + 1)) := by
  by_cases he : e + 1 ≤ n.log2 + 1
  · simp only [fits, Nat.min_eq_left he]
  · have he : n.log2 + 1 ≤ e + 1 := by omega
    have small (k : Nat) (h : n.log2 + 1 ≤ k) : n < overflow * Nat.pow 10 k :=
      calc
        n < Nat.pow 2 (n.log2 + 1) := Nat.lt_log2_self
        _ ≤ Nat.pow 10 (n.log2 + 1) := Nat.pow_le_pow_left (by decide) _
        _ ≤ Nat.pow 10 k := pow_le_pow _ k h
        _ ≤ overflow * Nat.pow 10 k := Nat.le_mul_of_pos_left _ overflow_pos
    simp only [fits, Nat.min_eq_right he, small (n.log2 + 1) (Nat.le_refl _), small (e + 1) he]

end Decimal

/-- A number with a point or an exponent, or a word that stands in the place of one. -/
inductive Fraction where
  | finite (d : Decimal)
  | infinite (negative : Bool)
  | notANumber
  deriving DecidableEq

/-- Whether a fraction can be held. Infinity that is meant is no overflow. -/
def Fraction.fits : Fraction → Bool
  | .finite d => d.fits
  | .infinite _ => true
  | .notANumber => true

end RosettaGateway.Toml
