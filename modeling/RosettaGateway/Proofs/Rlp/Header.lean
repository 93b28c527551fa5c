import Mathlib.Algebra.Group.Nat.Even
import Mathlib.Data.List.Induction
import RosettaGateway.Rlp.Header

/-!
# Headers have one written form

A header that is written is read back (`Header.decode_encode`), and a header that is read was
written: the bytes are the header and what follows it, unless they begin with a small byte, which
is an item without a header (`Header.eq_of_decode`). The second statement is what makes the wire
format canonical. Each refusal of `Header.decode` is needed for it: the long form of a short
payload, a leading zero in a length, and a header in front of a small byte.

The numbers in long headers are big-endian without a leading zero, so the same two statements come
first for `BigEndian.naturalBytes`: `BigEndian.toNat_naturalBytes` undoes writing, and
`BigEndian.naturalBytes_toNat` says that bytes without a leading zero are the only form.
-/

namespace RosettaGateway

namespace BigEndian

theorem toNat_nil : toNat [] = 0 := rfl

/-- Bytes stand for a number below the power of 256 that has one more byte. -/
theorem toNat_lt (bytes : Octets) : toNat bytes < 256 ^ bytes.length := by
  induction bytes using List.reverseRecOn with
  | nil => exact Nat.one_pos
  | append_singleton init b ih =>
    have h_b := b.toNat_lt
    rw [toNat_append, List.length_append, List.length_singleton, Nat.pow_succ]
    omega

/-- A number that is not zero has the bytes of its quotient, then the byte of its rest. -/
theorem naturalBytes_of_ne_zero {n : Nat} (h : n ≠ 0) :
    naturalBytes n = naturalBytes (n / 256) ++ [UInt8.ofNat (n % 256)] := by
  rw [naturalBytes, if_neg h]

@[simp] theorem naturalBytes_zero : naturalBytes 0 = [] := by
  rw [naturalBytes, if_pos rfl]

theorem naturalBytes_ne_nil {n : Nat} (h : n ≠ 0) : naturalBytes n ≠ [] := by
  rw [naturalBytes_of_ne_zero h]
  exact List.append_ne_nil_of_right_ne_nil _ (List.cons_ne_nil _ _)

/-- The bytes of a number have no leading zero. -/
theorem head?_naturalBytes (n : Nat) : (naturalBytes n).head? ≠ some 0 := by
  induction n using naturalBytes.induct with
  | case1 => simp
  | case2 n h ih =>
    rw [naturalBytes_of_ne_zero h]
    by_cases h_quot : n / 256 = 0
    · -- The number is its own last byte.
      rw [h_quot, naturalBytes_zero, List.nil_append, List.head?_cons]
      intro h_zero
      have h_byte := congrArg UInt8.toNat (Option.some.inj h_zero)
      rw [UInt8.toNat_ofNat'] at h_byte
      have h_zero' : (0 : UInt8).toNat = 0 := rfl
      omega
    · have h_some := List.isSome_head?.mpr (naturalBytes_ne_nil h_quot)
      rw [List.head?_append, Option.or_of_isSome h_some]
      exact ih

/-- A number below a power of 256 has no more bytes than the exponent says. -/
theorem length_naturalBytes_le {n width : Nat} (h : n < 256 ^ width) :
    (naturalBytes n).length ≤ width := by
  induction width generalizing n with
  | zero =>
    obtain rfl : n = 0 := by rw [Nat.pow_zero] at h; omega
    rw [naturalBytes_zero, List.length_nil]
  | succ width ih =>
    by_cases h_zero : n = 0
    · rw [h_zero, naturalBytes_zero]
      exact Nat.zero_le _
    · have h_quot : n / 256 < 256 ^ width := by
        rw [Nat.pow_succ] at h
        omega
      rw [naturalBytes_of_ne_zero h_zero, List.length_append, List.length_singleton]
      exact Nat.succ_le_succ (ih h_quot)

/-- Bytes without a leading zero are the written form of the number they stand for. -/
theorem naturalBytes_toNat {bytes : Octets} (h : bytes.head? ≠ some 0) :
    naturalBytes (toNat bytes) = bytes := by
  induction bytes using List.reverseRecOn with
  | nil => exact naturalBytes_zero
  | append_singleton init b ih =>
    have h_b := b.toNat_lt
    have h_mod : (toNat init * 256 + b.toNat) % 256 = b.toNat := by omega
    have h_div : (toNat init * 256 + b.toNat) / 256 = toNat init := by omega
    rw [toNat_append]
    -- A single byte is not zero; of several bytes those in front are a number that is not zero.
    cases init with
    | nil =>
      have h_ne : b.toNat ≠ 0 := fun h_zero => h (congrArg some (UInt8.toNat_inj.mp h_zero))
      have h_all : toNat [] * 256 + b.toNat = b.toNat := by rw [toNat_nil]; omega
      rw [naturalBytes_of_ne_zero (by omega), h_div, h_mod, toNat_nil, naturalBytes_zero,
        UInt8.ofNat_toNat]
    | cons a rest =>
      have h_init : naturalBytes (toNat (a :: rest)) = a :: rest := ih h
      have h_ne : toNat (a :: rest) ≠ 0 := by
        intro h_zero
        rw [h_zero, naturalBytes_zero] at h_init
        exact List.cons_ne_nil _ _ h_init.symm
      rw [naturalBytes_of_ne_zero (by omega), h_div, h_mod, h_init, UInt8.ofNat_toNat]

end BigEndian

namespace Rlp.Header

open BigEndian

/-- The first byte of a short header is the one of an empty payload. -/
def shortBase : Bool → Nat
  | true => 0xC0
  | false => 0x80

/-- A long header with so many bytes of length begins with this number and their count. -/
def longBase : Bool → Nat
  | true => 0xF7
  | false => 0xB7

/-! ### Writing -/

/-- The byte of a short header. -/
theorem encode_short {h : Header} (h_payload : h.payload < 56) :
    ∃ b : UInt8, h.encode = [b] ∧ b.toNat = shortBase h.isList + h.payload := by
  refine ⟨_, if_pos h_payload, ?_⟩
  cases h_list : h.isList <;> simp [shortBase, UInt8.toNat_add, UInt8.toNat_ofNat'] <;> omega

/-- The bytes of a long header: a byte that counts, then the length. -/
theorem encode_long {h : Header} (h_payload : ¬ h.payload < 56)
    (h_length : (naturalBytes h.payload).length ≤ 8) :
    ∃ b : UInt8, h.encode = b :: naturalBytes h.payload ∧
      b.toNat = longBase h.isList + (naturalBytes h.payload).length := by
  refine ⟨_, if_neg h_payload, ?_⟩
  cases h_list : h.isList <;> simp [longBase, UInt8.toNat_add, UInt8.toNat_ofNat'] <;> omega

/-- The size of a header is the number of its bytes. -/
theorem length_encode (h : Header) : h.encode.length = size h.payload := by
  unfold encode size
  by_cases h_payload : h.payload < 56
  · rw [if_pos h_payload, if_pos h_payload, List.length_singleton]
  · rw [if_neg h_payload, if_neg h_payload, List.length_cons, Nat.add_comm]

theorem size_pos (payload : Nat) : 0 < size payload := by
  unfold size
  split <;> omega

/-! ### Reading -/

/-- Whether a header may stand in front of some bytes: its payload is there, and it is not a small
byte, which stands alone. -/
def Announces (h : Header) (rest : Octets) : Prop :=
  h.payload ≤ rest.length ∧ (h = ⟨false, 1⟩ → ∀ b, rest.head? = some b → ¬ b < 0x80)

theorem announces_list {payload : Nat} {rest : Octets} (h : payload ≤ rest.length) :
    Announces ⟨true, payload⟩ rest :=
  ⟨h, fun h_eq => absurd (congrArg isList h_eq) Bool.noConfusion⟩

theorem bounded_of_le {isList : Bool} {payload : Nat} {rest : Octets} (h : payload ≤ rest.length) :
    bounded isList payload rest = .ok (⟨isList, payload⟩, rest) :=
  if_neg (Nat.not_lt.mpr h)

theorem of_bounded {isList : Bool} {payload : Nat} {bytes rest : Octets} {h : Header}
    (h_dec : bounded isList payload bytes = .ok (h, rest)) :
    h = ⟨isList, payload⟩ ∧ rest = bytes ∧ payload ≤ bytes.length := by
  unfold bounded at h_dec
  split at h_dec
  · cases h_dec
  · next h_le =>
    cases h_dec
    exact ⟨rfl, rfl, Nat.not_lt.mp h_le⟩

/-- The length of a long payload is read back. -/
theorem decodeLength_naturalBytes {payload : Nat} (h_payload : ¬ payload < 56) (rest : Octets) :
    decodeLength (naturalBytes payload).length (naturalBytes payload ++ rest) =
      .ok (payload, rest) := by
  have h_ne : naturalBytes payload ≠ [] := naturalBytes_ne_nil (by omega)
  have h_head : (naturalBytes payload ++ rest).head? ≠ some 0 := by
    rw [List.head?_append, Option.or_of_isSome (List.isSome_head?.mpr h_ne)]
    exact head?_naturalBytes payload
  unfold decodeLength
  rw [if_neg (by rw [List.length_append]; omega), if_neg h_head, List.take_left',
    List.drop_left', toNat_naturalBytes]
  · exact if_neg h_payload
  · rfl
  · rfl

/-- A length that is read is long, and its bytes were in front. -/
theorem eq_of_decodeLength {count payload : Nat} {bytes rest : Octets} (h_count : 0 < count)
    (h_dec : decodeLength count bytes = .ok (payload, rest)) :
    ¬ payload < 56 ∧ (naturalBytes payload).length = count ∧
      bytes = naturalBytes payload ++ rest := by
  unfold decodeLength at h_dec
  split at h_dec
  · cases h_dec
  split at h_dec
  · cases h_dec
  next h_enough h_head =>
  simp only at h_dec
  split at h_dec
  · cases h_dec
  next h_long =>
  cases h_dec
  -- The first byte of the length is the first one that follows.
  have h_take : (bytes.take count).head? ≠ some 0 := by
    rwa [List.head?_take, if_neg (by omega)]
  rw [naturalBytes_toNat h_take]
  refine ⟨h_long, ?_, (List.take_append_drop count bytes).symm⟩
  rw [List.length_take]
  omega

/-- A short header that is written is read back. -/
theorem decode_encode_short {h : Header} {rest : Octets} (h_payload : h.payload < 56)
    (h_rest : h.Announces rest) : decode (h.encode ++ rest) = .ok (h, rest) := by
  obtain ⟨isList, payload⟩ := h
  obtain ⟨h_enough, h_alone⟩ := h_rest
  obtain ⟨b, h_enc, h_b⟩ := encode_short h_payload
  rw [h_enc, List.singleton_append]
  simp only [decode, UInt8.lt_iff_toNat_lt, UInt8.reduceToNat]
  cases isList with
  | false =>
    have h_b : b.toNat = 0x80 + payload := h_b
    have h_payload : payload < 56 := h_payload
    rw [if_neg (by omega), if_pos (by omega), show b.toNat - 0x80 = payload by omega,
      bounded_of_le h_enough]
    split
    · next h_one =>
      -- A payload of one byte is looked at, since a small byte has no header.
      subst h_one
      cases rest with
      | nil => exact absurd h_enough (by simp)
      | cons c tail => exact if_neg (UInt8.lt_iff_toNat_lt.not.mp (h_alone rfl c rfl))
    · rfl
  | true =>
    have h_b : b.toNat = 0xC0 + payload := h_b
    have h_payload : payload < 56 := h_payload
    rw [if_neg (by omega), if_neg (by omega), if_neg (by omega), if_pos (by omega),
      show b.toNat - 0xC0 = payload by omega, bounded_of_le h_enough]

/-- A long header that is written is read back. -/
theorem decode_encode_long {h : Header} {rest : Octets} (h_payload : ¬ h.payload < 56)
    (h_fits : h.payload < 2 ^ 64) (h_enough : h.payload ≤ rest.length) :
    decode (h.encode ++ rest) = .ok (h, rest) := by
  obtain ⟨isList, payload⟩ := h
  have h_length : (naturalBytes payload).length ≤ 8 :=
    length_naturalBytes_le (by simpa using h_fits)
  have h_pos : 0 < (naturalBytes payload).length := by
    apply List.length_pos_iff.mpr
    exact naturalBytes_ne_nil fun h_zero => h_payload (by simp [h_zero])
  obtain ⟨b, h_enc, h_b⟩ := encode_long (h := ⟨isList, payload⟩) h_payload h_length
  rw [h_enc, List.cons_append]
  simp only [decode, UInt8.lt_iff_toNat_lt, UInt8.reduceToNat]
  -- The first byte tells the kind and how many bytes the length takes.
  cases isList with
  | false =>
    have h_b : b.toNat = 0xB7 + (naturalBytes payload).length := h_b
    rw [if_neg (by omega), if_neg (by omega), if_pos (by omega),
      show b.toNat - 0xB7 = (naturalBytes payload).length by omega,
      decodeLength_naturalBytes h_payload]
    exact bounded_of_le h_enough
  | true =>
    have h_b : b.toNat = 0xF7 + (naturalBytes payload).length := h_b
    rw [if_neg (by omega), if_neg (by omega), if_neg (by omega), if_neg (by omega),
      show b.toNat - 0xF7 = (naturalBytes payload).length by omega,
      decodeLength_naturalBytes h_payload]
    exact bounded_of_le h_enough

/-- **A header that is written is read back**, if it may stand in front of what follows. -/
theorem decode_encode {h : Header} {rest : Octets} (h_fits : h.payload < 2 ^ 64)
    (h_rest : h.Announces rest) : decode (h.encode ++ rest) = .ok (h, rest) := by
  by_cases h_payload : h.payload < 56
  · exact decode_encode_short h_payload h_rest
  · exact decode_encode_long h_payload h_fits h_rest.1

/-- A short header is determined by its byte. -/
theorem encode_eq_of_short {isList : Bool} {payload : Nat} {b : UInt8} (h_payload : payload < 56)
    (h_b : b.toNat = shortBase isList + payload) : encode ⟨isList, payload⟩ = [b] := by
  obtain ⟨c, h_enc, h_c⟩ := encode_short (h := ⟨isList, payload⟩) h_payload
  rw [h_enc, UInt8.toNat_inj.mp (h_c.trans h_b.symm)]

/-- A long header is determined by its first byte and its length. -/
theorem encode_eq_of_long {isList : Bool} {payload : Nat} {b : UInt8} (h_payload : ¬ payload < 56)
    (h_length : (naturalBytes payload).length ≤ 8)
    (h_b : b.toNat = longBase isList + (naturalBytes payload).length) :
    encode ⟨isList, payload⟩ = b :: naturalBytes payload := by
  obtain ⟨c, h_enc, h_c⟩ := encode_long (h := ⟨isList, payload⟩) h_payload h_length
  rw [h_enc, UInt8.toNat_inj.mp (h_c.trans h_b.symm)]

/-- A short header whose payload is there was written as its byte. -/
theorem eq_of_bounded_short {isList : Bool} {payload : Nat} {b : UInt8} {tail rest : Octets}
    {h : Header} (h_dec : bounded isList payload tail = .ok (h, rest)) (h_payload : payload < 56)
    (h_b : b.toNat = shortBase isList + payload) :
    h = ⟨isList, payload⟩ ∧ b :: tail = h.encode ++ rest ∧ payload ≤ rest.length := by
  obtain ⟨rfl, rfl, h_enough⟩ := of_bounded h_dec
  rw [encode_eq_of_short h_payload h_b]
  exact ⟨rfl, rfl, h_enough⟩

/-- A long header whose payload is there was written as its first byte and its length. -/
theorem eq_of_bounded_long {isList : Bool} {count payload : Nat} {b : UInt8}
    {tail behind rest : Octets} {h : Header}
    (h_length : decodeLength count tail = .ok (payload, behind))
    (h_dec : bounded isList payload behind = .ok (h, rest)) (h_pos : 0 < count)
    (h_count : count ≤ 8) (h_b : b.toNat = longBase isList + count) :
    h = ⟨isList, payload⟩ ∧ b :: tail = h.encode ++ rest ∧ ¬ payload < 56 ∧
      payload ≤ rest.length := by
  obtain ⟨rfl, rfl, h_enough⟩ := of_bounded h_dec
  obtain ⟨h_payload, rfl, rfl⟩ := eq_of_decodeLength h_pos h_length
  rw [encode_eq_of_long h_payload h_count h_b]
  exact ⟨rfl, rfl, h_payload, h_enough⟩

/-- **Headers are canonical.** Bytes that are read as a header and a rest begin with a small byte,
or they are the written form of the header and then the rest. -/
theorem eq_of_decode {bytes rest : Octets} {h : Header} (h_dec : decode bytes = .ok (h, rest)) :
    (∃ b tail, bytes = b :: tail ∧ b < 0x80 ∧ h = ⟨false, 1⟩ ∧ rest = b :: tail) ∨
      (bytes = h.encode ++ rest ∧ h.Announces rest) := by
  cases bytes with
  | nil => cases h_dec
  | cons b tail =>
    have h_byte := b.toNat_lt
    simp only [decode, UInt8.lt_iff_toNat_lt, UInt8.reduceToNat] at h_dec
    by_cases h_small : b.toNat < 0x80
    · rw [if_pos h_small] at h_dec
      cases h_dec
      exact .inl ⟨b, tail, rfl, UInt8.lt_iff_toNat_lt.mpr h_small, rfl, rfl⟩
    right
    rw [if_neg h_small] at h_dec
    -- The ranges of the first byte: a string with a short header, a string with a long one, and
    -- then the same of a list.
    by_cases h_string : b.toNat < 0xB8
    · rw [if_pos h_string] at h_dec
      have h_b : b.toNat = shortBase false + (b.toNat - 0x80) := by simp only [shortBase]; omega
      by_cases h_one : b.toNat - 0x80 = 1
      · rw [if_pos h_one] at h_dec
        cases tail with
        | nil => cases h_dec
        | cons c tail =>
          simp only at h_dec
          split at h_dec
          · cases h_dec
          next h_alone =>
          obtain ⟨rfl, h_bytes, h_enough⟩ := eq_of_bounded_short h_dec (by omega) h_b
          obtain ⟨-, rfl, -⟩ := of_bounded h_dec
          refine ⟨h_bytes, h_enough, fun _ d h_d => ?_⟩
          obtain rfl : c = d := Option.some.inj h_d
          exact UInt8.lt_iff_toNat_lt.not.mpr h_alone
      · rw [if_neg h_one] at h_dec
        obtain ⟨rfl, h_bytes, h_enough⟩ := eq_of_bounded_short h_dec (by omega) h_b
        exact ⟨h_bytes, h_enough, fun h_eq => absurd (congrArg payload h_eq) h_one⟩
    rw [if_neg h_string] at h_dec
    by_cases h_long : b.toNat < 0xC0
    · rw [if_pos h_long] at h_dec
      split at h_dec
      · cases h_dec
      next payload behind h_length =>
      have h_b : b.toNat = longBase false + (b.toNat - 0xB7) := by simp only [longBase]; omega
      obtain ⟨rfl, h_bytes, h_payload, h_enough⟩ :=
        eq_of_bounded_long h_length h_dec (by omega) (by omega) h_b
      refine ⟨h_bytes, h_enough, fun h_eq => ?_⟩
      have h_one : payload = 1 := congrArg Header.payload h_eq
      omega
    rw [if_neg h_long] at h_dec
    by_cases h_list : b.toNat < 0xF8
    · rw [if_pos h_list] at h_dec
      have h_b : b.toNat = shortBase true + (b.toNat - 0xC0) := by simp only [shortBase]; omega
      obtain ⟨rfl, h_bytes, h_enough⟩ := eq_of_bounded_short h_dec (by omega) h_b
      exact ⟨h_bytes, announces_list h_enough⟩
    · rw [if_neg h_list] at h_dec
      split at h_dec
      · cases h_dec
      next payload behind h_length =>
      have h_b : b.toNat = longBase true + (b.toNat - 0xF7) := by simp only [longBase]; omega
      obtain ⟨rfl, h_bytes, -, h_enough⟩ :=
        eq_of_bounded_long h_length h_dec (by omega) (by omega) h_b
      exact ⟨h_bytes, announces_list h_enough⟩

end Rlp.Header

end RosettaGateway
