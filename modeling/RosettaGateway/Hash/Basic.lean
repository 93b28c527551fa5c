import RosettaGateway.Json.Codec
import RosettaGateway.Text.Hex

/-!
# Hashes

A hash is thirty-two bytes. Blocks and transactions are named by hashes; as text a hash is `0x`
followed by sixty-four lower-case digits, and it is read with either marker or none, in either case.
-/

namespace RosettaGateway

/-- Thirty-two bytes. -/
structure Hash where
  bytes : Octets
  length_eq : bytes.length = 32
  deriving DecidableEq

namespace Hash

/-- The hash of thirty-two bytes; any other number of bytes is refused. -/
def ofBytes? (bytes : Octets) : Option Hash :=
  if h : bytes.length = 32 then some ⟨bytes, h⟩ else none

/-- The hash of zero bytes, which stands for one that was not given. -/
def zero : Hash := ⟨List.replicate 32 0, List.length_replicate⟩

instance : Inhabited Hash := ⟨zero⟩

/-- The written form of a hash. -/
def toText (h : Hash) : String := Hex.marked h.bytes

/-- Reads a hash: sixty-four digits behind an optional marker. -/
def ofText? (s : String) : Option Hash := (Hex.ofText? s).bind ofBytes?

/-- Hashes as JSON strings. -/
def json : Json.Codec Hash := Json.Codec.text ofText? toText

end Hash

end RosettaGateway
