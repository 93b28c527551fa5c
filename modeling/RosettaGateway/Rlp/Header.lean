import RosettaGateway.Text.BigEndian
import RosettaGateway.Text.Numeral

/-!
# Headers of the wire format

Every item of the wire format is a string of bytes or a list of items. A header says which, and how
many bytes the payload has; a single byte below `0x80` is its own item and has no header. There is
one way to write each header, and reading refuses all others.
-/

namespace RosettaGateway.Rlp

/-- Why bytes are not an item of the kind asked for. -/
inductive Error where
  | inputTooShort
  | nonCanonicalSingleByte
  | nonCanonicalSize
  | leadingZero
  | overflow
  | unexpectedList
  | unexpectedString
  | unexpectedLength
  | invalidString
  | listLength (got expected : Nat)
  deriving DecidableEq

/-- The number of bytes of a row of items with these numbers of bytes. -/
def total : List Nat → Nat
  | [] => 0
  | n :: rest => n + total rest

/-- Items written one after the other have the bytes of all of them together. -/
theorem length_flatMap {α : Type} (encode : α → Octets) (as : List α) :
    (as.flatMap encode).length = total (as.map fun a => (encode a).length) := by
  induction as with
  | nil => rfl
  | cons a rest ih => simp [total, ih]

/-- A header: whether the item is a list, and the number of bytes of its payload. -/
structure Header where
  isList : Bool
  payload : Nat
  deriving DecidableEq

namespace Header

/-- The bytes of a header. -/
def encode (h : Header) : Octets :=
  let short : UInt8 := if h.isList then 0xC0 else 0x80
  if h.payload < 56 then [short + UInt8.ofNat h.payload]
  else
    let size := BigEndian.naturalBytes h.payload
    (short + 55 + UInt8.ofNat size.length) :: size

/-- The number of bytes of a header with so long a payload. -/
def size (payload : Nat) : Nat :=
  if payload < 56 then 1 else 1 + (BigEndian.naturalBytes payload).length

/-- Reads the payload's length of the long form, given in so many bytes. -/
def decodeLength (count : Nat) (bytes : Octets) : Except Error (Nat × Octets) :=
  if bytes.length < count then .error .inputTooShort
  else if bytes.head? = some 0 then .error .leadingZero
  else
    let payload := BigEndian.toNat (bytes.take count)
    if payload < 56 then .error .nonCanonicalSize else .ok (payload, bytes.drop count)

/-- Refuses a header whose payload is longer than what is left. -/
def bounded (isList : Bool) (payload : Nat) (rest : Octets) : Except Error (Header × Octets) :=
  if rest.length < payload then .error .inputTooShort else .ok (⟨isList, payload⟩, rest)

/-- Reads a header. The rest begins with the payload, which for a single small byte is that byte. -/
def decode : Octets → Except Error (Header × Octets)
  | [] => .error .inputTooShort
  | b :: rest =>
    -- The byte is the whole item and stays in front.
    if b < 0x80 then .ok (⟨false, 1⟩, b :: rest)
    else if b < 0xB8 then
      let payload := b.toNat - 0x80
      if payload = 1 then
        match rest with
        | [] => .error .inputTooShort
        -- A small byte has to stand alone.
        | c :: _ => if c < 0x80 then .error .nonCanonicalSingleByte else bounded false payload rest
      else bounded false payload rest
    else if b < 0xC0 then
      match decodeLength (b.toNat - 0xB7) rest with
      | .error e => .error e
      | .ok (payload, rest) => bounded false payload rest
    else if b < 0xF8 then bounded true (b.toNat - 0xC0) rest
    else
      match decodeLength (b.toNat - 0xF7) rest with
      | .error e => .error e
      | .ok (payload, rest) => bounded true payload rest

end Header

namespace Error

/-- The text of a refusal. -/
def message : Error → String
  | .inputTooShort => "input too short"
  | .nonCanonicalSingleByte => "non-canonical single byte"
  | .nonCanonicalSize => "non-canonical size"
  | .leadingZero => "leading zero"
  | .overflow => "overflow"
  | .unexpectedList => "unexpected list"
  | .unexpectedString => "unexpected string"
  | .unexpectedLength => "unexpected length"
  | .invalidString => "invalid string"
  | .listLength got expected =>
    "unexpected list length (got " ++ Numeral.ofNat got ++ ", expected " ++
      Numeral.ofNat expected ++ ")"

end Error

end RosettaGateway.Rlp
