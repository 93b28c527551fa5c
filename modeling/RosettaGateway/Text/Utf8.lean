import RosettaGateway.Text.Hex

/-!
# Texts as bytes

The bytes of a text are its UTF-8 form, and bytes that are no UTF-8 are no text. The two directions
are inverse (`decode?_encode`, `encode_of_decode?`), so a text is determined by its bytes.
-/

namespace RosettaGateway.Utf8

/-- The bytes of a text. -/
def encode (s : String) : Octets := s.toByteArray.data.toList

/-- The text that bytes stand for, if there is one. -/
def decode? (bytes : Octets) : Option String := String.fromUTF8? ⟨bytes.toArray⟩

theorem decode?_encode (s : String) : decode? (encode s) = some s := by
  have h : (⟨(encode s).toArray⟩ : ByteArray) = s.toByteArray := by simp [encode]
  simp only [decode?, h, String.fromUTF8?, s.isValidUTF8, dite_true]
  rfl

theorem encode_of_decode? {bytes : Octets} {s : String} (h : decode? bytes = some s) :
    encode s = bytes := by
  simp only [decode?, String.fromUTF8?] at h
  split at h
  · cases h; rfl
  · cases h

end RosettaGateway.Utf8
