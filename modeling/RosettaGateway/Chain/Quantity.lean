import RosettaGateway.Json.Codec

/-!
# Quantities in JSON

Nodes render a quantity as a number, as decimal text or as `0x` hexadecimal text, and a missing one
as `null`. Amounts in wei have any size and are written as decimal text; counters have 64 bits and
are written as numbers.
-/

namespace RosettaGateway

namespace Wei

/-- The amount a value stands for. A number is read as its text, like a string. -/
def ofJson? : Json → Option Nat
  | .null => some 0
  | .number n => Numeral.unsigned? n.text.toList
  | .string s => Numeral.unsigned? s.toList
  | _ => none

/-- The decimal text of an amount. -/
def toJson (n : Nat) : Json := .string (Numeral.ofNat n)

/-- Amounts as JSON. -/
def json : Json.Codec Nat := Json.Codec.interpreted ofJson? toJson

end Wei

namespace Counter

/-- The counter that a natural number is, if it fits. -/
def ofNat? (n : Nat) : Option UInt64 :=
  if n < UInt64.size then some (UInt64.ofNat n) else none

/-- The counter a value stands for. A number has to be spelled by digits alone. -/
def ofJson? : Json → Option UInt64
  | .null => some 0
  | .number n => n.natural?.bind ofNat?
  | .string s => (Numeral.unsigned? s.toList).bind ofNat?
  | _ => none

/-- A counter as a number. -/
def toJson (n : UInt64) : Json := .ofNat n.toNat

/-- Counters as JSON. -/
def json : Json.Codec UInt64 := Json.Codec.interpreted ofJson? toJson

end Counter

end RosettaGateway
