import Mathlib.Data.List.Induction
import RosettaGateway.Chain.Address
import RosettaGateway.Hash.Basic
import RosettaGateway.Text.Numeral

/-!
# Texts are read back

Amounts, counters, byte strings and addresses travel as texts. Each way of writing one has a reader
that gives the value back:

* `Numeral.integer?_ofInt` and `Numeral.unsigned?_ofNat` — numbers;
* `Hex.ofText?_marked` and `Hex.ofText?_plain` — byte strings;
* `Address.ofText?_toText` — addresses, in whatever case the checksum puts their letters;
* `Hash.ofText?_toText` — hashes.

The readers of numbers accept more than what is written here: signs, underscores, blanks and a radix
marker. So a text is first seen to hold digits alone (`isDigit_of_mem_toDigits`,
`isBlank_of_mem_toDigits`), of which none is taken for one of these.
-/

namespace RosettaGateway

/-! ### Characters -/

namespace Ascii

/-- What is claimed of the characters below `128` can be checked one by one. -/
theorem forall_of_lt {P : Char → Prop} (h_all : ∀ n < 128, P (Char.ofNat n)) {c : Char}
    (h_lt : c.toNat < 128) : P c := by
  have h_c := h_all c.toNat h_lt
  rwa [Char.ofNat_toNat] at h_c

/-- The other characters have no case. -/
theorem toLower_of_le {c : Char} (h_le : 128 ≤ c.toNat) : c.toLower = c := by
  unfold Char.toLower
  split
  · next h_upper =>
    have h_Z : c.toNat ≤ 90 := UInt32.le_iff_toNat_le.mp h_upper.2
    omega
  · rfl

end Ascii

namespace Numeral

/-! ### Digits -/

theorem appendDigits?_append (radix acc : Nat) (xs ys : List Char) :
    appendDigits? radix acc (xs ++ ys) =
      (appendDigits? radix acc xs).bind fun n => appendDigits? radix n ys := by
  induction xs generalizing acc with
  | nil => rfl
  | cons c rest ih =>
    rw [List.cons_append, appendDigits?, appendDigits?]
    split
    · exact ih acc
    · split
      · split
        · exact ih _
        · rfl
      · rfl

/-- The digits up to fifteen have the value they are written for, and none is an underscore. -/
theorem digitValue_digitChar {d : Nat} (h_lt : d < 16) :
    Nat.digitChar d ≠ '_' ∧ digitValue (Nat.digitChar d) = some d := by
  have h_all : ∀ m ∈ List.range 16,
      Nat.digitChar m ≠ '_' ∧ digitValue (Nat.digitChar m) = some m := by decide
  exact h_all d (List.mem_range.mpr h_lt)

theorem appendDigits?_digitChar {radix d : Nat} (h_radix : radix ≤ 16) (h_lt : d < radix)
    (acc : Nat) :
    appendDigits? radix acc [Nat.digitChar d] = some (acc * radix + d) := by
  obtain ⟨h_grouping, h_value⟩ := digitValue_digitChar (Nat.lt_of_lt_of_le h_lt h_radix)
  rw [appendDigits?, if_neg h_grouping, h_value]
  show (if d < radix then _ else none) = _
  rw [if_pos h_lt]
  rfl

/-- The digits of a number are read back, in every radix up to sixteen. -/
theorem appendDigits?_toDigits {radix : Nat} (h_one : 1 < radix) (h_radix : radix ≤ 16) (n : Nat) :
    appendDigits? radix 0 (Nat.toDigits radix n) = some n := by
  induction n using Nat.strongRecOn with
  | ind n ih =>
    rw [Nat.toDigits_eq_if h_one]
    split
    · next h_lt =>
      rw [appendDigits?_digitChar h_radix h_lt, Nat.zero_mul, Nat.zero_add]
    · next h_le =>
      -- All digits but the last one are those of the quotient.
      have h_smaller : n / radix < n := Nat.div_lt_self (by omega) h_one
      rw [appendDigits?_append, ih _ h_smaller, Option.bind_some,
        appendDigits?_digitChar h_radix (Nat.mod_lt n (by omega)), Nat.div_add_mod']

/-- A decimal text starts with a digit, so with no sign. -/
theorem exists_cons_toDigits (n : Nat) : ∃ c rest, Nat.toDigits 10 n = c :: rest ∧ c.isDigit := by
  obtain ⟨c, rest, h_cons⟩ := List.exists_cons_of_ne_nil (Nat.toDigits_ne_nil (n := n) (b := 10))
  refine ⟨c, rest, h_cons, ?_⟩
  apply Nat.isDigit_of_mem_toDigits (b := 10) (n := n) (by decide) (by decide)
  rw [h_cons]
  exact List.mem_cons_self

/-- The digits of a number are the characters of small values. -/
theorem exists_digitChar_of_mem {radix : Nat} (h_one : 1 < radix) (n : Nat) :
    ∀ c ∈ Nat.toDigits radix n, ∃ d < radix, c = Nat.digitChar d := by
  induction n using Nat.strongRecOn with
  | ind n ih =>
    rw [Nat.toDigits_eq_if h_one]
    split
    · next h_lt =>
      intro c h_mem
      exact ⟨n, h_lt, List.mem_singleton.mp h_mem⟩
    · next h_le =>
      intro c h_mem
      rcases List.mem_append.mp h_mem with h_front | h_last
      · exact ih (n / radix) (Nat.div_lt_self (by omega) h_one) c h_front
      · exact ⟨n % radix, Nat.mod_lt n (by omega), List.mem_singleton.mp h_last⟩

/-- A digit is no blank and no plus sign, and it groups nothing. -/
theorem isBlank_of_mem_toDigits {radix : Nat} (h_one : 1 < radix) (h_radix : radix ≤ 16) {n : Nat}
    {c : Char} (h_mem : c ∈ Nat.toDigits radix n) : isBlank c = false ∧ c ≠ '+' ∧ c ≠ '_' := by
  obtain ⟨d, h_lt, rfl⟩ := exists_digitChar_of_mem h_one n c h_mem
  have h_all : ∀ d ∈ List.range 16, isBlank (Nat.digitChar d) = false ∧
      Nat.digitChar d ≠ '+' ∧ Nat.digitChar d ≠ '_' := by decide
  exact h_all d (List.mem_range.mpr (Nat.lt_of_lt_of_le h_lt h_radix))

/-- Without signs and grouping the digits are read one by one. -/
theorem natural?_eq_appendDigits? {radix : Nat} {cs : List Char} (h_some : cs ≠ [])
    (h_plain : ∀ c ∈ cs, c ≠ '+' ∧ c ≠ '_') : natural? radix cs = appendDigits? radix 0 cs := by
  obtain ⟨c, rest, rfl⟩ := List.exists_cons_of_ne_nil h_some
  obtain ⟨h_plus, h_grouping⟩ := h_plain c List.mem_cons_self
  have h_drop : dropPlus (c :: rest) = c :: rest := by
    unfold dropPlus
    split
    · next h_eq => exact absurd (List.cons.inj h_eq).1 h_plus
    · rfl
  rw [natural?, h_drop]
  split
  · next h_nil => cases h_nil
  · next h_eq => exact absurd (List.cons.inj h_eq).1 h_grouping
  · rfl

theorem natural?_toDigits {radix : Nat} (h_one : 1 < radix) (h_radix : radix ≤ 16) (n : Nat) :
    natural? radix (Nat.toDigits radix n) = some n := by
  rw [natural?_eq_appendDigits? Nat.toDigits_ne_nil fun _ h_mem =>
    (isBlank_of_mem_toDigits h_one h_radix h_mem).2, appendDigits?_toDigits h_one h_radix]

/-- Where there is no blank, none is dropped. -/
theorem trim_of_not_blank {cs : List Char} (h_blank : ∀ c ∈ cs, isBlank c = false) :
    trim cs = cs := by
  have h_drop : ∀ xs : List Char, (∀ c ∈ xs, isBlank c = false) → xs.dropWhile isBlank = xs := by
    intro xs h_xs
    cases xs with
    | nil => rfl
    | cons c rest =>
      rw [List.dropWhile_cons, h_xs c List.mem_cons_self]
      rfl
  have h_reverse : ∀ c ∈ cs.reverse, isBlank c = false := fun c h_mem =>
    h_blank c (List.mem_reverse.mp h_mem)
  rw [trim, h_drop cs h_blank, h_drop cs.reverse h_reverse, List.reverse_reverse]

/-! ### Decimal texts -/

@[simp] theorem toList_ofNat (n : Nat) : (ofNat n).toList = Nat.toDigits 10 n :=
  String.toList_ofList

/-- **A decimal integer is read back.** -/
theorem integer?_ofInt (i : Int) : integer? (ofInt i).toList = some i := by
  cases i with
  | ofNat n =>
    obtain ⟨c, rest, h_cons, h_digit⟩ := exists_cons_toDigits n
    have h_read : natural? 10 (Nat.toDigits 10 n) = some n :=
      natural?_toDigits (by decide) (by decide) n
    rw [ofInt, toList_ofNat, integer?]
    · rw [h_read]
      rfl
    · -- No digit is taken for a minus sign.
      intro tail h_minus
      rw [h_cons] at h_minus
      cases h_minus
      exact absurd h_digit (by decide)
  | negSucc n =>
    obtain ⟨c, rest, h_cons, h_digit⟩ := exists_cons_toDigits (n + 1)
    have h_text : (ofInt (Int.negSucc n)).toList = '-' :: Nat.toDigits 10 (n + 1) := by
      rw [ofInt, String.toList_append, toList_ofNat]
      rfl
    -- A second sign would be refused, and no digit is one.
    have h_plus : (Nat.toDigits 10 (n + 1)).head? ≠ some '+' := by
      rw [h_cons, List.head?_cons]
      intro h_eq
      cases h_eq
      exact absurd h_digit (by decide)
    rw [h_text, integer?, if_neg h_plus, natural?_toDigits (by decide) (by decide)]
    rfl

theorem isDigit_of_mem_toDigits (n : Nat) : ∀ c ∈ Nat.toDigits 10 n, c.isDigit := fun _ h_mem =>
  Nat.isDigit_of_mem_toDigits (by decide) (by decide) h_mem

/-- A text without blanks and markers is read in decimal. -/
theorem unsigned?_eq_natural? {cs : List Char} (h_blank : ∀ c ∈ cs, isBlank c = false)
    (h_marker : ∀ c ∈ cs, c ≠ 'x' ∧ c ≠ 'X') : unsigned? cs = natural? 10 cs := by
  rw [unsigned?, trim_of_not_blank h_blank]
  split
  · exact absurd rfl (h_marker 'x' (by simp)).1
  · exact absurd rfl (h_marker 'X' (by simp)).2
  · rfl

/-- **A decimal quantity is read back.** Behind a leading zero there is no radix marker. -/
theorem unsigned?_ofNat (n : Nat) : unsigned? (ofNat n).toList = some n := by
  have h_blank : ∀ c ∈ Nat.toDigits 10 n, isBlank c = false := fun _ h_mem =>
    (isBlank_of_mem_toDigits (by decide) (by decide) h_mem).1
  have h_marker : ∀ c ∈ Nat.toDigits 10 n, c ≠ 'x' ∧ c ≠ 'X' := by
    intro c h_mem
    have h_digit := isDigit_of_mem_toDigits n c h_mem
    exact ⟨fun h_c => absurd (h_c ▸ h_digit) (by decide),
      fun h_c => absurd (h_c ▸ h_digit) (by decide)⟩
  rw [toList_ofNat, unsigned?_eq_natural? h_blank h_marker,
    natural?_toDigits (by decide) (by decide)]

end Numeral

namespace Hex

/-! ### Byte strings -/

/-- A byte string behind its marker is read back. -/
theorem ofText?_marked (bytes : Octets) : ofText? (marked bytes) = some bytes := by
  rw [ofText?, marked, String.toList_ofList]
  exact decode?_digits bytes

/-- The digits of values below sixteen are neither marker. -/
theorem digit_ne_marker {n : Nat} (h_lt : n < 16) : digit n ≠ 'x' ∧ digit n ≠ 'X' := by
  have h_all : ∀ m ∈ List.range 16, digit m ≠ 'x' ∧ digit m ≠ 'X' := by decide
  exact h_all n (List.mem_range.mpr h_lt)

/-- A byte string without a marker is read back: no digit is taken for one. -/
theorem ofText?_plain (bytes : Octets) : ofText? (plain bytes) = some bytes := by
  rw [ofText?, plain, String.toList_ofList]
  have h_same : dropMarker (digits bytes) = digits bytes := by
    cases bytes with
    | nil => rfl
    | cons b rest =>
      obtain ⟨h_x, h_X⟩ := digit_ne_marker (Nat.mod_lt b.toNat (by decide : 0 < 16))
      unfold dropMarker
      split
      · next h_eq =>
        simp only [digits, List.cons.injEq] at h_eq
        exact absurd h_eq.2.1 h_x
      · next h_eq =>
        simp only [digits, List.cons.injEq] at h_eq
        exact absurd h_eq.2.1 h_X
      · rfl
  rw [h_same, decode?_digits]

end Hex

/-! ### Addresses and hashes -/

namespace Address

/-- A digit keeps its value in the case the checksum gives it. -/
theorem value?_caseOf {n : Nat} (h_lt : n < 16) (digestDigit : Char) :
    Hex.value? (caseOf (Hex.digit n) digestDigit) = some n := by
  have h_all : ∀ m ∈ List.range 16,
      Hex.value? (Hex.digit m).toUpper = some m ∧ Hex.value? (Hex.digit m) = some m := by decide
  obtain ⟨h_upper, h_lower⟩ := h_all n (List.mem_range.mpr h_lt)
  unfold caseOf
  split
  · exact h_upper
  · exact h_lower

/-- Bytes are read back from digits of any case, if there is a letter of the digest for each. -/
theorem decode?_zipWith_caseOf (bytes : Octets) (digest : List Char)
    (h_length : 2 * bytes.length ≤ digest.length) :
    Hex.decode? (List.zipWith caseOf (Hex.digits bytes) digest) = some bytes := by
  induction bytes generalizing digest with
  | nil => rfl
  | cons b rest ih =>
    match digest, h_length with
    | [], h_length => simp at h_length
    | [_], h_length => simp at h_length; omega
    | d :: d' :: digest, h_length =>
      have h_rest : 2 * rest.length ≤ digest.length := by
        simp only [List.length_cons] at h_length
        omega
      have h_byte : b.toNat < 256 := b.toNat_lt
      have h_high : b.toNat / 16 < 16 := by omega
      have h_low : b.toNat % 16 < 16 := by omega
      have h_sum : b.toNat / 16 * 16 + b.toNat % 16 = b.toNat := by omega
      simp only [Hex.digits, List.zipWith_cons_cons, Hex.decode?, value?_caseOf h_high,
        value?_caseOf h_low, ih digest h_rest, h_sum, UInt8.ofNat_toNat]

/-- The digest has a letter for each digit of an address. -/
theorem decode?_checksumDigits (a : Address) : Hex.decode? a.checksumDigits = some a.bytes := by
  have h_length : 2 * a.bytes.length ≤
      (Hex.digits (keccakText (String.ofList (Hex.digits a.bytes))).bytes).length := by
    rw [Hex.length_digits, a.length_eq, Hash.length_eq]
    decide
  exact decode?_zipWith_caseOf a.bytes _ h_length

/-- **An address is read back.** -/
theorem ofText?_toText (a : Address) : ofText? a.toText = some a := by
  have h_digits : Hex.ofText? a.toText = some a.bytes := by
    rw [Hex.ofText?, toText, String.toList_ofList]
    exact decode?_checksumDigits a
  rw [ofText?, h_digits, Option.bind_some, ofBytes?, dif_pos a.length_eq]

end Address

namespace Hash

/-- A hash is read back. -/
theorem ofText?_toText (h : Hash) : ofText? h.toText = some h := by
  rw [ofText?, toText, Hex.ofText?_marked, Option.bind_some, ofBytes?, dif_pos h.length_eq]

end Hash

end RosettaGateway
