import RosettaGateway.Hash.Keccak

/-!
# Addresses and byte strings

An account address is twenty bytes. It is written with a checksum in the case of its letters: a
letter is a capital when the digit of the hash of the lower-case form at the same position is eight
or more. Reading takes any mixture of cases and an optional marker, so the checksum is never
checked. Whether a text is an address can be told from its bytes alone (`Address.isHex`).

A byte string as a JSON value is its marked hexadecimal form; `null` reads as the empty string.
-/

namespace RosettaGateway

/-- Whether a byte of a text is a hexadecimal digit of either case. -/
def Hex.isDigitByte (b : UInt8) : Bool :=
  (0x30 ≤ b && b ≤ 0x39) || (0x41 ≤ b && b ≤ 0x46) || (0x61 ≤ b && b ≤ 0x66)

/-- Twenty bytes. -/
structure Address where
  bytes : Octets
  length_eq : bytes.length = 20
  deriving DecidableEq

namespace Address

/-- The address of twenty bytes; any other number of bytes is refused. -/
def ofBytes? (bytes : Octets) : Option Address :=
  if h : bytes.length = 20 then some ⟨bytes, h⟩ else none

/-- The address of zero bytes. -/
def zero : Address := ⟨List.replicate 20 0, List.length_replicate⟩

instance : Inhabited Address := ⟨zero⟩

/-- Capitalises a letter when its digit of the digest is eight or more. -/
def caseOf (c : Char) (digestDigit : Char) : Char :=
  if digestDigit ∈ ['8', '9', 'a', 'b', 'c', 'd', 'e', 'f'] then c.toUpper else c

/-- The hexadecimal digits of an address with their checksum case. -/
def checksumDigits (a : Address) : List Char :=
  let lower := Hex.digits a.bytes
  let digest := Hex.digits (keccakText (String.ofList lower)).bytes
  List.zipWith caseOf lower digest

/-- The written form of an address. -/
def toText (a : Address) : String := String.ofList ('0' :: 'x' :: a.checksumDigits)

/-- Reads an address: forty digits behind an optional marker. -/
def ofText? (s : String) : Option Address := (Hex.ofText? s).bind ofBytes?

/-- Whether a text is an address: behind an optional marker it has forty bytes, all of which are
digits. -/
def isHex (s : String) : Bool :=
  let body := Utf8.encode (String.ofList (Hex.dropMarker s.toList))
  body.length == 40 && body.all Hex.isDigitByte

/-- Addresses as JSON strings. -/
def json : Json.Codec Address := Json.Codec.text ofText? toText

end Address

namespace Octets

/-- Byte strings as JSON. -/
def json : Json.Codec Octets where
  check := fun depth tree =>
    match tree with
    | .null => none
    | other => (Json.Codec.text Hex.ofText? Hex.marked).check depth other
  read
    | .null => some []
    | .string s => Hex.ofText? s
    | _ => none
  write bytes := .string (Hex.marked bytes)

end Octets

end RosettaGateway
