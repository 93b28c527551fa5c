import RosettaGateway.Proofs.Wire

/-!
# Parts of the wire form

The bodies of transactions are put together from a few parts. Each of them tells where it ends, so
that it can be read from the front of any bytes (`Tx.WirePart.delimited`). This has to be shown: a
header is written in front of the payload that it measures, from sizes that are told apart from the
writing, and the fields of a structure are read from all that follows the header and measured only
then.

Therefore no form of a value is the beginning of the form of another one
(`Tx.WirePart.eq_of_isPrefix`).
-/

namespace RosettaGateway.Tx

open Rlp (Codec)

/-- What the bodies of transactions are put together from, and the body of a contract call. -/
inductive WirePart where
  | coins
  | address
  | bytes
  | input
  | output
  | split
  | call

namespace WirePart

/-- The values of a part. -/
def Value : WirePart → Type
  | .coins => Coins
  | .address => Address
  | .bytes => Octets
  | .input => Input
  | .output => Output
  | .split => Split
  | .call => SmartContract

/-- How the values of a part are written and read. -/
def codec : (part : WirePart) → Codec part.Value
  | .coins => Codec.coins
  | .address => Codec.address
  | .bytes => Codec.bytes
  | .input => Input.wire
  | .output => Output.wire
  | .split => Split.wire
  | .call => SmartContract.wire

theorem exact_codec (part : WirePart) : part.codec.Exact := by
  cases part with
  | coins => exact Codec.exact_coins
  | address => exact Codec.exact_address
  | bytes => exact Codec.exact_bytes
  | input => exact Input.exact_wire
  | output => exact Output.exact_wire
  | split => exact Split.exact_wire
  | call => exact SmartContract.exact_wire

/-- No value is written as the beginning of what another one is written as. -/
theorem eq_of_isPrefix {part : WirePart} {v v' : part.Value}
    (h_fits : (part.codec.encode v').length < 2 ^ 64)
    (h_front : part.codec.encode v <+: part.codec.encode v') : v = v' := by
  obtain ⟨rest, h_eq⟩ := h_front
  have h_fits' : (part.codec.encode v ++ rest).length < 2 ^ 64 := h_eq ▸ h_fits
  rw [← List.append_nil (part.codec.encode v')] at h_eq
  exact (part.exact_codec.encode_append_inj h_fits' h_eq).1

/-- **Parts tell where they end.** The size that is told of a value is the number of bytes it is
written in. In front of any bytes the value is read back and these bytes are left, if its form is
short enough for a header; and whatever is read as the value, leaving some bytes, is its form in
front of these bytes. -/
theorem delimited (part : WirePart) (v : part.Value) :
    part.codec.size v = (part.codec.encode v).length ∧
    (∀ rest, (part.codec.encode v).length < 2 ^ 64 →
      part.codec.decode (part.codec.encode v ++ rest) = .ok (v, rest)) ∧
    ∀ bytes rest, part.codec.decode bytes = .ok (v, rest) →
      bytes = part.codec.encode v ++ rest := by
  have h_exact := part.exact_codec
  refine ⟨h_exact.size_eq v, fun rest h_fits => ?_, fun bytes rest h_read => ?_⟩
  · exact h_exact.decode_encode v rest h_fits
  · exact h_exact.eq_of_decode bytes v rest h_read

/-- With thirty bytes of a signature an input has a payload of 56 bytes, the first number that
needs a long header. -/
theorem delimited_input :
    let v : Input := { address := .zero, signature := List.replicate 30 1 }
    (Input.wire.encode v).length < 2 ^ 64 ∧ Input.wire.size v = 58 ∧
      Input.wire.decode (Input.wire.encode v ++ [0x80]) = .ok (v, [0x80]) := by
  intro v
  obtain ⟨h_size, h_read, -⟩ := delimited .input v
  have h_58 : Input.wire.size v = 58 := by decide +kernel
  have h_length : (Input.wire.encode v).length = 58 := h_size.symm.trans h_58
  have h_fits : (Input.wire.encode v).length < 2 ^ 64 := by
    rw [h_length]
    decide
  exact ⟨h_fits, h_58, h_read [0x80] h_fits⟩

end WirePart

end RosettaGateway.Tx
