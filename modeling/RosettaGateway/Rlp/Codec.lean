import RosettaGateway.Chain.Address
import RosettaGateway.Chain.Coins
import RosettaGateway.Rlp.Header

/-!
# Codecs of the wire format

A `Rlp.Codec α` writes values as bytes, reads one from the front of a byte string, and tells how
many bytes it writes. Structures are products of codecs behind one list header, which is written
before its payload and therefore relies on the sizes. The fields of a structure are read from all
that follows the header, and only then is it checked that they took up the announced number of
bytes.
-/

namespace RosettaGateway.Rlp

/-- How the values of a type are written and read, and their written size. -/
structure Codec (α : Type) where
  encode : α → Octets
  size : α → Nat
  decode : Octets → Except Error (α × Octets)

/-- Reads the payload of an item that has to be a string, or has to be a list. -/
def decodePayload (isList : Bool) (bytes : Octets) : Except Error (Octets × Octets) :=
  match Header.decode bytes with
  | .error e => .error e
  | .ok (h, rest) =>
    if h.isList = isList then .ok (rest.take h.payload, rest.drop h.payload)
    else .error (if isList then .unexpectedString else .unexpectedList)

/-- The item of a byte string. -/
def encodeBytes (bytes : Octets) : Octets :=
  match bytes with
  | [b] => if b < 0x80 then [b] else Header.encode ⟨false, 1⟩ ++ [b]
  | _ => Header.encode ⟨false, bytes.length⟩ ++ bytes

/-- The size of the item of a byte string. -/
def bytesSize (bytes : Octets) : Nat :=
  match bytes with
  | [b] => if b < 0x80 then 1 else 2
  | _ => Header.size bytes.length + bytes.length

namespace Codec

variable {α β : Type}

/-- Byte strings of any length. -/
def bytes : Codec Octets where
  encode := encodeBytes
  size := bytesSize
  decode := decodePayload false

/-- Byte strings that a function can make sense of, which gives its own error. -/
def refined (make : Octets → Except Error α) (parts : α → Octets) : Codec α where
  encode a := encodeBytes (parts a)
  size a := bytesSize (parts a)
  decode b :=
    match decodePayload false b with
    | .error e => .error e
    | .ok (payload, rest) =>
      match make payload with
      | .error e => .error e
      | .ok a => .ok (a, rest)

/-- Natural numbers of any size, written as their bytes without a leading zero. -/
def natural : Codec Nat :=
  refined
    (fun payload =>
      if payload.head? = some 0 then .error .leadingZero else .ok (BigEndian.toNat payload))
    BigEndian.naturalBytes

/-- The number of a payload of at most so many bytes without a leading zero. -/
def decodeWord (width : Nat) (payload : Octets) : Except Error Nat :=
  if width < payload.length then .error .overflow
  else if payload.head? = some 0 then .error .leadingZero
  else .ok (BigEndian.toNat payload)

/-- Numbers of 64 bits. -/
def uint64 : Codec UInt64 :=
  refined (fun payload => (decodeWord 8 payload).map UInt64.ofNat)
    fun n => BigEndian.naturalBytes n.toNat

/-- Numbers of 8 bits. -/
def uint8 : Codec UInt8 :=
  refined (fun payload => (decodeWord 1 payload).map UInt8.ofNat)
    fun n => BigEndian.naturalBytes n.toNat

/-- Addresses. -/
def address : Codec Address :=
  refined
    (fun payload =>
      match Address.ofBytes? payload with
      | some a => .ok a
      | none => .error .unexpectedLength)
    Address.bytes

/-- Texts. -/
def text : Codec String :=
  refined
    (fun payload =>
      match Utf8.decode? payload with
      | some s => .ok s
      | none => .error .invalidString)
    Utf8.encode

/-- One value, then another. -/
def and (a : Codec α) (b : Codec β) : Codec (α × β) where
  encode p := a.encode p.1 ++ b.encode p.2
  size p := a.size p.1 + b.size p.2
  decode bytes :=
    match a.decode bytes with
    | .error e => .error e
    | .ok (x, rest) =>
      match b.decode rest with
      | .error e => .error e
      | .ok (y, rest) => .ok ((x, y), rest)

/-- The same bytes for another type. -/
def map (c : Codec α) (make : α → β) (parts : β → α) : Codec β where
  encode b := c.encode (parts b)
  size b := c.size (parts b)
  decode bytes :=
    match c.decode bytes with
    | .error e => .error e
    | .ok (a, rest) => .ok (make a, rest)

/-- Fields behind a list header. -/
def structured (c : Codec α) : Codec α where
  encode a := Header.encode ⟨true, c.size a⟩ ++ c.encode a
  size a := Header.size (c.size a) + c.size a
  decode bytes :=
    match Header.decode bytes with
    | .error e => .error e
    | .ok (h, payload) =>
      if h.isList then
        -- The payload here is all that follows, so the fields may take up more than announced.
        match c.decode payload with
        | .error e => .error e
        | .ok (a, rest) =>
          let consumed := payload.length - rest.length
          if consumed = h.payload then .ok (a, rest)
          else .error (.listLength consumed h.payload)
      else .error .unexpectedString

/-- Reads items until nothing is left. Each takes at least one byte, so there are at most as many as
bytes. -/
def decodeAll (decode : Octets → Except Error (α × Octets)) : Nat → Octets → Except Error (List α)
  | _, [] => .ok []
  | 0, _ :: _ => .error .inputTooShort
  | fuel + 1, bytes =>
    match decode bytes with
    | .error e => .error e
    | .ok (a, rest) =>
      match decodeAll decode fuel rest with
      | .error e => .error e
      | .ok as => .ok (a :: as)

/-- Lists of values; their items have to fill the payload exactly. -/
def list (c : Codec α) : Codec (List α) where
  encode as := Header.encode ⟨true, total (as.map c.size)⟩ ++ as.flatMap c.encode
  size as := Header.size (total (as.map c.size)) + total (as.map c.size)
  decode bytes :=
    match decodePayload true bytes with
    | .error e => .error e
    | .ok (payload, rest) =>
      match decodeAll c.decode payload.length payload with
      | .error e => .error e
      | .ok as => .ok (as, rest)

/-- Coins. -/
def coins : Codec Coins :=
  ((natural.and natural).map (fun (theta, tfuel) => ⟨theta, tfuel⟩)
    (fun c => (c.theta, c.tfuel))).structured

end Codec

end RosettaGateway.Rlp
