import RosettaGateway.Proofs.Rlp.Header
import RosettaGateway.Rlp.Codec

/-!
# Exact codecs

A codec of the wire format is exact (`Rlp.Codec.Exact`) when it tells the number of bytes it
writes, writes one byte at least, reads back what it has written in front of any other bytes, and
reads nothing else: what it reads is the written form of the value and then the rest. The last
clause leaves each value one written form.

The scalar codecs are exact, and every way to build a codec from others keeps exactness, so that a
codec of a structure is exact by the way it is put together:

* `exact_refined` — byte strings that a partial inverse of their writer makes sense of;
* `Exact.and`, `Exact.map` — products, and the same bytes for another type;
* `Exact.structured` — fields behind a list header;
* `Exact.list` — lists of values.

Reading back is only claimed for forms shorter than `2 ^ 64` bytes, since a header has no more than
eight bytes for a length. What `structured` and `list` need from their parts beyond the two round
trips is the size: the header goes in front and is written first.
-/

namespace RosettaGateway.Rlp

variable {α β : Type}

/-! ### Payloads -/

/-- A small byte is its own item. -/
theorem encodeBytes_small {b : UInt8} (h : b < 0x80) : encodeBytes [b] = [b] := if_pos h

/-- All other strings have a header. -/
theorem encodeBytes_of_not_small {bytes : Octets} (h : ∀ b, bytes = [b] → ¬ b < 0x80) :
    encodeBytes bytes = Header.encode ⟨false, bytes.length⟩ ++ bytes := by
  unfold encodeBytes
  split
  · next b => exact if_neg (h b rfl)
  · rfl

/-- The size of an item is the number of its bytes. -/
theorem bytesSize_eq (bytes : Octets) : bytesSize bytes = (encodeBytes bytes).length := by
  unfold bytesSize encodeBytes
  split
  · next b =>
    split
    · rfl
    · rw [List.length_append, Header.length_encode]
      rfl
  · rw [List.length_append, Header.length_encode]

theorem encodeBytes_pos (bytes : Octets) : 0 < (encodeBytes bytes).length := by
  unfold encodeBytes
  split
  · split <;> simp
  · rw [List.length_append, Header.length_encode]
    exact Nat.add_pos_left (Header.size_pos _) _

/-- A payload of a kind, behind its header, is read back. -/
theorem decodePayload_encode {isList : Bool} {payload rest : Octets}
    (h_fits : payload.length < 2 ^ 64)
    (h_rest : Header.Announces ⟨isList, payload.length⟩ (payload ++ rest)) :
    decodePayload isList (Header.encode ⟨isList, payload.length⟩ ++ payload ++ rest) =
      .ok (payload, rest) := by
  unfold decodePayload
  rw [List.append_assoc, Header.decode_encode h_fits h_rest]
  simp only [if_true, List.take_left', List.drop_left']

/-- A string is read back. -/
theorem decodePayload_encodeBytes {bytes : Octets} (h_fits : (encodeBytes bytes).length < 2 ^ 64)
    (rest : Octets) : decodePayload false (encodeBytes bytes ++ rest) = .ok (bytes, rest) := by
  by_cases h_small : ∀ b, bytes = [b] → ¬ b < 0x80
  · rw [encodeBytes_of_not_small h_small] at h_fits ⊢
    rw [List.length_append] at h_fits
    refine decodePayload_encode (by omega) ⟨by simp, fun h_one b h_head => ?_⟩
    obtain ⟨c, rfl⟩ := List.length_eq_one_iff.mp (congrArg Header.payload h_one)
    obtain rfl : c = b := Option.some.inj h_head
    exact h_small c rfl
  · push Not at h_small
    obtain ⟨b, rfl, h_b⟩ := h_small
    rw [encodeBytes_small h_b]
    unfold decodePayload
    rw [List.singleton_append, Header.decode, if_pos h_b]
    rfl

/-- What is read as a string is its written form and then the rest. -/
theorem eq_of_decodePayload_string {bytes payload rest : Octets}
    (h_dec : decodePayload false bytes = .ok (payload, rest)) :
    bytes = encodeBytes payload ++ rest := by
  unfold decodePayload at h_dec
  split at h_dec
  · cases h_dec
  next h tail h_header =>
  split at h_dec
  swap
  · cases h_dec
  next h_string =>
  cases h_dec
  rcases Header.eq_of_decode h_header with ⟨b, others, rfl, h_b, rfl, rfl⟩ | ⟨rfl, h_rest⟩
  · rw [show (b :: others).take 1 = [b] from rfl, encodeBytes_small h_b]
    rfl
  · -- With a header the payload cannot be a small byte, and the header is the one to be written.
    obtain ⟨isList, payload⟩ := h
    obtain rfl : isList = false := h_string
    obtain ⟨h_enough, h_alone⟩ := h_rest
    have h_length : (tail.take payload).length = payload := by
      rw [List.length_take]
      exact Nat.min_eq_left h_enough
    have h_small : ∀ b, tail.take payload = [b] → ¬ b < 0x80 := by
      intro b h_b
      have h_one : payload = 1 := by rw [← h_length, h_b]; rfl
      refine h_alone (by rw [h_one]) b ?_
      rw [← List.take_append_drop payload tail, h_b]
      rfl
    rw [encodeBytes_of_not_small h_small, h_length, List.append_assoc, List.take_append_drop]

/-- What is read as a list is its header, its payload and the rest. -/
theorem eq_of_decodePayload_list {bytes payload rest : Octets}
    (h_dec : decodePayload true bytes = .ok (payload, rest)) :
    bytes = Header.encode ⟨true, payload.length⟩ ++ payload ++ rest := by
  unfold decodePayload at h_dec
  split at h_dec
  · cases h_dec
  next h tail h_header =>
  split at h_dec
  swap
  · cases h_dec
  next h_list =>
  cases h_dec
  rcases Header.eq_of_decode h_header with ⟨b, others, rfl, h_b, rfl, rfl⟩ | ⟨rfl, h_rest⟩
  · -- A small byte stands for itself, and is no list.
    cases h_list
  · obtain ⟨isList, payload⟩ := h
    obtain rfl : isList = true := h_list
    have h_length : (tail.take payload).length = payload := by
      rw [List.length_take]
      exact Nat.min_eq_left h_rest.1
    rw [h_length, List.append_assoc, List.take_append_drop]

/-! ### Exactness -/

namespace Codec

/-- **Exactness** of a codec: sizes are right, and reading and writing are inverse to each other
in front of any rest. -/
structure Exact (c : Codec α) : Prop where
  /-- The size is the number of bytes that are written. -/
  size_eq : ∀ a, c.size a = (c.encode a).length
  /-- No value is written as nothing. -/
  pos : ∀ a, 0 < (c.encode a).length
  /-- What is written is read back, whatever follows it. -/
  decode_encode : ∀ a rest, (c.encode a).length < 2 ^ 64 →
    c.decode (c.encode a ++ rest) = .ok (a, rest)
  /-- Nothing else is read. -/
  eq_of_decode : ∀ bytes a rest, c.decode bytes = .ok (a, rest) → bytes = c.encode a ++ rest

/-- **A written form tells where it ends**: of two byte strings that begin with written forms and are
equal, the values and the rests are equal. -/
theorem Exact.encode_append_inj {c : Codec α} (hc : c.Exact) {a a' : α} {rest rest' : Octets}
    (h_fits : (c.encode a ++ rest).length < 2 ^ 64)
    (h_eq : c.encode a ++ rest = c.encode a' ++ rest') : a = a' ∧ rest = rest' := by
  have h_fits' : (c.encode a' ++ rest').length < 2 ^ 64 := h_eq ▸ h_fits
  rw [List.length_append] at h_fits h_fits'
  have h_read := hc.decode_encode a rest (by omega)
  -- The same bytes are read once as one value and once as the other.
  rw [h_eq, hc.decode_encode a' rest' (by omega)] at h_read
  cases h_read
  exact ⟨rfl, rfl⟩

/-- Byte strings. -/
theorem exact_bytes : bytes.Exact where
  size_eq := bytesSize_eq
  pos := encodeBytes_pos
  decode_encode _ rest h_fits := decodePayload_encodeBytes h_fits rest
  eq_of_decode _ _ _ h_dec := eq_of_decodePayload_string h_dec

/-- Byte strings with a meaning: the two functions have to be inverse where both are defined. -/
theorem exact_refined {make : Octets → Except Error α} {parts : α → Octets}
    (h_make : ∀ a, make (parts a) = .ok a) (h_parts : ∀ b a, make b = .ok a → parts a = b) :
    (refined make parts).Exact where
  size_eq a := bytesSize_eq (parts a)
  pos a := encodeBytes_pos (parts a)
  decode_encode a rest h_fits := by
    simp only [refined]
    rw [decodePayload_encodeBytes h_fits]
    simp only [h_make]
  eq_of_decode b a rest h_dec := by
    simp only [refined] at h_dec ⊢
    split at h_dec
    · cases h_dec
    next payload tail h_payload =>
    split at h_dec
    · cases h_dec
    next a' h_a =>
    cases h_dec
    rw [h_parts payload a h_a]
    exact eq_of_decodePayload_string h_payload

/-! ### Scalars -/

/-- Natural numbers of any size. -/
theorem exact_natural : natural.Exact := by
  refine exact_refined (fun n => ?_) (fun b n h_make => ?_)
  · rw [if_neg (BigEndian.head?_naturalBytes n), BigEndian.toNat_naturalBytes]
  · split at h_make
    · cases h_make
    next h_head =>
    cases h_make
    exact BigEndian.naturalBytes_toNat h_head

/-- Machine numbers of some width in bytes. -/
theorem exact_word {width : Nat} {ofNat : Nat → α} {toNat : α → Nat}
    (h_lt : ∀ a, toNat a < 256 ^ width) (h_ofNat : ∀ a, ofNat (toNat a) = a)
    (h_toNat : ∀ n, n < 256 ^ width → toNat (ofNat n) = n) :
    (refined (fun payload => (decodeWord width payload).map ofNat)
      fun a => BigEndian.naturalBytes (toNat a)).Exact := by
  refine exact_refined (fun a => ?_) (fun b a h_make => ?_)
  · have h_length := BigEndian.length_naturalBytes_le (h_lt a)
    unfold decodeWord
    rw [if_neg (Nat.not_lt.mpr h_length), if_neg (BigEndian.head?_naturalBytes _),
      BigEndian.toNat_naturalBytes]
    exact congrArg Except.ok (h_ofNat a)
  · unfold decodeWord at h_make
    split at h_make
    · cases h_make
    next h_length =>
    split at h_make
    · cases h_make
    next h_head =>
    cases h_make
    -- No more bytes than the width make no larger number, and no zero leads them.
    have h_pow : 256 ^ b.length ≤ 256 ^ width :=
      Nat.pow_le_pow_right (by decide) (Nat.not_lt.mp h_length)
    rw [h_toNat _ (Nat.lt_of_lt_of_le (BigEndian.toNat_lt b) h_pow)]
    exact BigEndian.naturalBytes_toNat h_head

/-- Numbers of 64 bits. -/
theorem exact_uint64 : uint64.Exact :=
  exact_word (fun n => n.toNat_lt) (fun _ => UInt64.ofNat_toNat)
    (fun _ h => UInt64.toNat_ofNat_of_lt' h)

/-- Numbers of 8 bits. -/
theorem exact_uint8 : uint8.Exact :=
  exact_word (fun n => n.toNat_lt) (fun _ => UInt8.ofNat_toNat)
    (fun _ h => UInt8.toNat_ofNat_of_lt' h)

/-- Addresses. -/
theorem exact_address : address.Exact := by
  refine exact_refined (fun a => ?_) (fun b a h_make => ?_)
  · rw [Address.ofBytes?, dif_pos a.length_eq]
  · unfold Address.ofBytes? at h_make
    split at h_make
    · next h_some =>
      split at h_some
      · cases h_some
        cases h_make
        rfl
      · cases h_some
    · cases h_make

/-- Texts. -/
theorem exact_text : text.Exact := by
  refine exact_refined (fun s => ?_) (fun b s h_make => ?_)
  · rw [Utf8.decode?_encode]
  · split at h_make
    · next h_some =>
      cases h_make
      exact Utf8.encode_of_decode? h_some
    · cases h_make

/-! ### Structures -/

/-- One value, then another. -/
theorem Exact.and {a : Codec α} {b : Codec β} (ha : a.Exact) (hb : b.Exact) : (a.and b).Exact where
  size_eq p := by
    simp only [Codec.and]
    rw [ha.size_eq, hb.size_eq, List.length_append]
  pos p := by
    have := ha.pos p.1
    simp only [Codec.and, List.length_append]
    omega
  decode_encode p rest h_fits := by
    simp only [Codec.and] at h_fits ⊢
    rw [List.length_append] at h_fits
    rw [List.append_assoc, ha.decode_encode p.1 _ (by omega)]
    simp only
    rw [hb.decode_encode p.2 rest (by omega)]
  eq_of_decode bytes p rest h_dec := by
    simp only [Codec.and] at h_dec ⊢
    split at h_dec
    · cases h_dec
    next x tail h_x =>
    split at h_dec
    · cases h_dec
    next y tail' h_y =>
    cases h_dec
    rw [ha.eq_of_decode _ _ _ h_x, hb.eq_of_decode _ _ _ h_y, List.append_assoc]

/-- The same bytes for another type, given by a bijection. -/
theorem Exact.map {c : Codec α} {make : α → β} {parts : β → α} (hc : c.Exact)
    (h_make : ∀ b, make (parts b) = b) (h_parts : ∀ a, parts (make a) = a) :
    (c.map make parts).Exact where
  size_eq b := hc.size_eq (parts b)
  pos b := hc.pos (parts b)
  decode_encode b rest h_fits := by
    simp only [Codec.map] at h_fits ⊢
    rw [hc.decode_encode _ _ h_fits]
    simp only [h_make]
  eq_of_decode bytes b rest h_dec := by
    simp only [Codec.map] at h_dec ⊢
    split at h_dec
    · cases h_dec
    next a tail h_a =>
    cases h_dec
    rw [h_parts]
    exact hc.eq_of_decode _ _ _ h_a

/-- Fields behind a list header. The fields are read from all that follows, but they take up what
was announced and nothing more, since they are exact themselves. -/
theorem Exact.structured {c : Codec α} (hc : c.Exact) : c.structured.Exact where
  size_eq a := by
    simp only [Codec.structured]
    rw [List.length_append, Header.length_encode, hc.size_eq]
  pos a := by
    simp only [Codec.structured]
    rw [List.length_append, Header.length_encode]
    exact Nat.add_pos_left (Header.size_pos _) _
  decode_encode a rest h_fits := by
    simp only [Codec.structured] at h_fits ⊢
    rw [hc.size_eq, List.length_append] at h_fits
    have h_enough : (c.encode a).length ≤ (c.encode a ++ rest).length := by
      rw [List.length_append]
      omega
    rw [hc.size_eq, List.append_assoc,
      Header.decode_encode (show (c.encode a).length < 2 ^ 64 by omega)
        (Header.announces_list h_enough)]
    simp only [if_true]
    rw [hc.decode_encode a rest (by omega)]
    simp only [List.length_append, Nat.add_sub_cancel, if_true]
  eq_of_decode bytes a rest h_dec := by
    simp only [Codec.structured] at h_dec ⊢
    split at h_dec
    · cases h_dec
    next h payload h_header =>
    split at h_dec
    swap
    · cases h_dec
    next h_list =>
    split at h_dec
    · cases h_dec
    next a' tail h_fields =>
    split at h_dec
    swap
    · cases h_dec
    next h_consumed =>
    cases h_dec
    have h_payload := hc.eq_of_decode _ _ _ h_fields
    rcases Header.eq_of_decode h_header with ⟨_, _, _, _, rfl, _⟩ | ⟨rfl, -⟩
    · cases h_list
    · obtain ⟨isList, count⟩ := h
      obtain rfl : isList = true := h_list
      -- The fields have used up what was announced, so this is their own size.
      have h_count : c.size a = count := by
        rw [hc.size_eq, ← show payload.length - rest.length = count from h_consumed, h_payload,
          List.length_append, Nat.add_sub_cancel]
      rw [h_count, List.append_assoc, ← h_payload]

/-! ### Lists -/

/-- The items of a payload are read back, given fuel for each of them. -/
theorem decodeAll_flatMap {c : Codec α} (hc : c.Exact) (as : List α) {fuel : Nat}
    (h_fuel : as.length ≤ fuel) (h_fits : (as.flatMap c.encode).length < 2 ^ 64) :
    decodeAll c.decode fuel (as.flatMap c.encode) = .ok as := by
  induction as generalizing fuel with
  | nil => cases fuel <;> rfl
  | cons a rest ih =>
    rw [List.flatMap_cons, List.length_append] at h_fits
    obtain ⟨b, others, h_enc⟩ := List.exists_cons_of_length_pos (hc.pos a)
    cases fuel with
    | zero => cases h_fuel
    | succ fuel =>
      -- An item has a byte, so the payload is not empty and one more round is made.
      have h_item := hc.decode_encode a (rest.flatMap c.encode) (by omega)
      rw [List.flatMap_cons]
      rw [h_enc, List.cons_append] at h_item ⊢
      simp only [decodeAll, h_item]
      rw [ih (Nat.le_of_succ_le_succ h_fuel) (by omega)]

/-- Items that are read from a payload fill it. -/
theorem eq_of_decodeAll {c : Codec α} (hc : c.Exact) {fuel : Nat} {bytes : Octets} {as : List α}
    (h_dec : decodeAll c.decode fuel bytes = .ok as) : bytes = as.flatMap c.encode := by
  induction fuel generalizing bytes as with
  | zero =>
    cases bytes with
    | nil =>
      cases h_dec
      rfl
    | cons b rest => cases h_dec
  | succ fuel ih =>
    cases bytes with
    | nil =>
      cases h_dec
      rfl
    | cons b rest =>
      simp only [decodeAll] at h_dec
      split at h_dec
      · cases h_dec
      next a tail h_a =>
      split at h_dec
      · cases h_dec
      next others h_others =>
      cases h_dec
      rw [hc.eq_of_decode _ _ _ h_a, ih h_others, List.flatMap_cons]

/-- Each item of a list takes one byte at least. -/
theorem length_le_length_flatMap {c : Codec α} (hc : c.Exact) (as : List α) :
    as.length ≤ (as.flatMap c.encode).length := by
  induction as with
  | nil => exact Nat.le_refl 0
  | cons a rest ih =>
    have := hc.pos a
    rw [List.flatMap_cons, List.length_append, List.length_cons]
    omega

/-- The announced size of a list is the number of bytes of its items. -/
theorem total_map_size {c : Codec α} (hc : c.Exact) (as : List α) :
    total (as.map c.size) = (as.flatMap c.encode).length := by
  rw [length_flatMap, List.map_congr_left fun a _ => hc.size_eq a]

/-- Lists of values. -/
theorem Exact.list {c : Codec α} (hc : c.Exact) : c.list.Exact where
  size_eq as := by
    simp only [Codec.list]
    rw [List.length_append, Header.length_encode, total_map_size hc]
  pos as := by
    simp only [Codec.list]
    rw [List.length_append, Header.length_encode]
    exact Nat.add_pos_left (Header.size_pos _) _
  decode_encode as rest h_fits := by
    simp only [Codec.list, total_map_size hc, List.length_append] at h_fits ⊢
    rw [decodePayload_encode (by omega) (Header.announces_list (by simp))]
    simp only
    rw [decodeAll_flatMap hc as (length_le_length_flatMap hc as) (by omega)]
  eq_of_decode bytes as rest h_dec := by
    simp only [Codec.list, total_map_size hc] at h_dec ⊢
    split at h_dec
    · cases h_dec
    next payload tail h_payload =>
    split at h_dec
    · cases h_dec
    next as' h_all =>
    cases h_dec
    rw [eq_of_decodePayload_list h_payload, eq_of_decodeAll hc h_all]

/-- Coins. -/
theorem exact_coins : coins.Exact :=
  ((exact_natural.and exact_natural).map (fun _ => rfl) (fun _ => rfl)).structured

end Codec

end RosettaGateway.Rlp
