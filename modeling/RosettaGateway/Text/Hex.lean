/-!
# Hexadecimal text

Byte strings travel as pairs of hexadecimal digits, most often behind the marker `0x`. Writing
uses lower case; reading takes either case and one marker, `0x` or `0X`, if there is one.

Main statement: reading what was written gives the bytes back (`decode?_encode`).
-/

namespace RosettaGateway

/-- A byte string. -/
abbrev Octets := List UInt8

namespace Hex

/-- The lower-case digit of a value below sixteen. -/
def digit (n : Nat) : Char := "0123456789abcdef".toList.getD n '0'

/-- The value of a hexadecimal digit of either case. -/
def value? (c : Char) : Option Nat :=
  if '0' ≤ c ∧ c ≤ '9' then some (c.toNat - '0'.toNat)
  else if 'a' ≤ c ∧ c ≤ 'f' then some (c.toNat - 'a'.toNat + 10)
  else if 'A' ≤ c ∧ c ≤ 'F' then some (c.toNat - 'A'.toNat + 10)
  else none

/-- Two digits for each byte, the high one first. -/
def digits : Octets → List Char
  | [] => []
  | b :: rest => digit (b.toNat / 16) :: digit (b.toNat % 16) :: digits rest

/-- Reads pairs of digits; an odd digit or any other character is refused. -/
def decode? : List Char → Option Octets
  | [] => some []
  | [_] => none
  | high :: low :: rest =>
    match value? high, value? low, decode? rest with
    | some h, some l, some bytes => some (UInt8.ofNat (h * 16 + l) :: bytes)
    | _, _, _ => none

/-- Drops one marker `0x` or `0X` in front. -/
def dropMarker : List Char → List Char
  | '0' :: 'x' :: rest => rest
  | '0' :: 'X' :: rest => rest
  | cs => cs

/-- The digits of a byte string without a marker. -/
def plain (bytes : Octets) : String := String.ofList (digits bytes)

/-- The digits of a byte string behind `0x`. -/
def marked (bytes : Octets) : String := String.ofList ('0' :: 'x' :: digits bytes)

/-- Reads a byte string behind an optional marker. -/
def ofText? (s : String) : Option Octets := decode? (dropMarker s.toList)

theorem value?_digit {n : Nat} (h : n < 16) : value? (digit n) = some n := by
  have : ∀ m ∈ List.range 16, value? (digit m) = some m := by decide
  exact this n (List.mem_range.mpr h)

/-- Reading the digits of a byte string gives it back. -/
theorem decode?_digits (bytes : Octets) : decode? (digits bytes) = some bytes := by
  induction bytes with
  | nil => rfl
  | cons b rest ih =>
    have hb : b.toNat < 256 := b.toNat_lt
    simp only [digits, decode?, value?_digit (show b.toNat / 16 < 16 by omega),
      value?_digit (show b.toNat % 16 < 16 by omega), ih,
      show b.toNat / 16 * 16 + b.toNat % 16 = b.toNat by omega, UInt8.ofNat_toNat]

@[simp] theorem length_digits (bytes : Octets) : (digits bytes).length = 2 * bytes.length := by
  induction bytes with
  | nil => rfl
  | cons b rest ih => simp only [digits, List.length_cons, ih]; omega

end Hex

end RosettaGateway
