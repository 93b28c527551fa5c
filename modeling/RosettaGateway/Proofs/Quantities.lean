import Mathlib.Algebra.Group.Nat.Defs
import RosettaGateway.Proofs.Json.Checking

/-!
# Quantities of a node

There are two readers of quantities. Amounts are read as text, and a number as the text that it is
spelled with. Counters have 64 bits; a number is asked for the integer that it is.

`Json.quantities_read` says that these are one reading up to the size, and that it knows every way
in which nodes render a number (`Json.Renders`). The two agree on numbers because the text of a
number is read as the digits that spell it (`Json.Number.unsigned?_text`): a sign in front, a point
and the letter of an exponent are no decimal digits, and the reader of texts skips none of them.

Numbers are meant as values hold them. A text may spell zero as `-0`, but as a value this is the
number `0` (`Json.Number.unsignedZero`), and it is read like any other zero.
-/

namespace RosettaGateway

/-! ### Padding and letter case -/

namespace Numeral

/-- Blanks around a text are dropped. -/
theorem trim_append {front back cs : List Char} (h_front : ∀ c ∈ front, isBlank c = true)
    (h_back : ∀ c ∈ back, isBlank c = true) : trim (front ++ cs ++ back) = trim cs := by
  have h_reverse : ∀ c ∈ back.reverse, isBlank c = true := fun c h_mem =>
    h_back c (List.mem_reverse.mp h_mem)
  have h_none : back.dropWhile isBlank = [] := by
    rw [← List.append_nil back, List.dropWhile_append_of_pos h_back]
    rfl
  rw [trim, trim, List.append_assoc, List.dropWhile_append_of_pos h_front, List.dropWhile_append]
  split
  · next h_empty => rw [h_none, List.isEmpty_iff.mp h_empty]
  · rw [List.reverse_append, List.dropWhile_append_of_pos h_reverse]

/-- Zeros in front of digits make no difference. -/
theorem appendDigits?_zeros {radix : Nat} (h_radix : 0 < radix) (zeros : Nat) (cs : List Char) :
    appendDigits? radix 0 (List.replicate zeros '0' ++ cs) = appendDigits? radix 0 cs := by
  induction zeros with
  | zero => rfl
  | succ zeros ih =>
    rw [List.replicate_succ, List.cons_append, appendDigits?, if_neg (by decide)]
    show (if 0 < radix then appendDigits? radix (0 * radix + 0) _ else none) = _
    rw [if_pos h_radix, Nat.zero_mul]
    exact ih

/-- In either case a character has the same value and is of the same kind. -/
theorem kind_toLower (c : Char) :
    digitValue c.toLower = digitValue c ∧ isBlank c.toLower = isBlank c ∧
      (c.toLower = '+' ↔ c = '+') ∧ (c.toLower = '_' ↔ c = '_') := by
  by_cases h_ascii : c.toNat < 128
  · exact Ascii.forall_of_lt (P := fun c => digitValue c.toLower = digitValue c ∧
      isBlank c.toLower = isBlank c ∧ (c.toLower = '+' ↔ c = '+') ∧ (c.toLower = '_' ↔ c = '_'))
      (by decide) h_ascii
  · rw [Ascii.toLower_of_le (Nat.not_lt.mp h_ascii)]
    exact ⟨rfl, rfl, Iff.rfl, Iff.rfl⟩

theorem appendDigits?_map_toLower (radix acc : Nat) (cs : List Char) :
    appendDigits? radix acc (cs.map Char.toLower) = appendDigits? radix acc cs := by
  induction cs generalizing acc with
  | nil => rfl
  | cons c rest ih =>
    obtain ⟨h_value, -, -, h_grouping⟩ := kind_toLower c
    simp only [List.map_cons, appendDigits?, h_value, h_grouping, ih]

/-- The digits of a number have no capitals. -/
theorem map_toLower_toDigits {radix : Nat} (h_one : 1 < radix) (h_radix : radix ≤ 16) (n : Nat) :
    (Nat.toDigits radix n).map Char.toLower = Nat.toDigits radix n := by
  refine (List.map_congr_left fun c h_mem => ?_).trans (List.map_id _)
  obtain ⟨d, h_lt, rfl⟩ := exists_digitChar_of_mem h_one n c h_mem
  have h_all : ∀ d ∈ List.range 16, (Nat.digitChar d).toLower = Nat.digitChar d := by decide
  exact h_all d (List.mem_range.mpr (Nat.lt_of_lt_of_le h_lt h_radix))

/-! ### Spelling numbers -/

/-- Some characters spell a number in a radix: its digits, in either case, behind any number of
zeros. -/
inductive SpelledBy (radix n : Nat) : List Char → Prop
  | intro (zeros : Nat) {digits : List Char}
      (h_digits : digits.map Char.toLower = Nat.toDigits radix n) :
    SpelledBy radix n (List.replicate zeros '0' ++ digits)

theorem spelledBy_toDigits {radix : Nat} (h_one : 1 < radix) (h_radix : radix ≤ 16) (n : Nat) :
    SpelledBy radix n (Nat.toDigits radix n) :=
  .intro 0 (map_toLower_toDigits h_one h_radix n)

/-- Blanks around a quantity make no difference. -/
theorem unsigned?_append {front back : List Char} (cs : List Char)
    (h_front : ∀ c ∈ front, isBlank c = true) (h_back : ∀ c ∈ back, isBlank c = true) :
    unsigned? (front ++ cs ++ back) = unsigned? cs := by
  rw [unsigned?, unsigned?, trim_append h_front h_back]

section

variable {radix n : Nat} {cs : List Char}

theorem SpelledBy.ne_nil (h_cs : SpelledBy radix n cs) : cs ≠ [] := by
  obtain ⟨zeros, h_digits⟩ := h_cs
  refine List.append_ne_nil_of_right_ne_nil _ fun h_nil => ?_
  rw [h_nil] at h_digits
  exact Nat.toDigits_ne_nil h_digits.symm

/-- A character of a spelling is a digit of some number in lower case. -/
theorem SpelledBy.exists_mem (h_cs : SpelledBy radix n cs) {c : Char} (h_mem : c ∈ cs) :
    ∃ m, c.toLower ∈ Nat.toDigits radix m := by
  obtain ⟨zeros, h_digits⟩ := h_cs
  rcases List.mem_append.mp h_mem with h_zero | h_digit
  · rw [List.eq_of_mem_replicate h_zero]
    exact ⟨0, by rw [Nat.toDigits_zero]; decide⟩
  · exact ⟨n, h_digits ▸ List.mem_map_of_mem h_digit⟩

/-- A spelling is no blank, has no sign and groups nothing. -/
theorem SpelledBy.isPlain (h_one : 1 < radix) (h_radix : radix ≤ 16)
    (h_cs : SpelledBy radix n cs) : ∀ c ∈ cs, isBlank c = false ∧ c ≠ '+' ∧ c ≠ '_' := by
  intro c h_mem
  obtain ⟨m, h_m⟩ := h_cs.exists_mem h_mem
  obtain ⟨-, h_blank, h_plus, h_grouping⟩ := kind_toLower c
  obtain ⟨h_c, h_c_plus, h_c_grouping⟩ := isBlank_of_mem_toDigits h_one h_radix h_m
  exact ⟨h_blank ▸ h_c, h_plus.not.mp h_c_plus, h_grouping.not.mp h_c_grouping⟩

theorem SpelledBy.natural?_eq (h_one : 1 < radix) (h_radix : radix ≤ 16)
    (h_cs : SpelledBy radix n cs) : natural? radix cs = some n := by
  rw [natural?_eq_appendDigits? h_cs.ne_nil fun c h_mem =>
    (h_cs.isPlain h_one h_radix c h_mem).2]
  obtain ⟨zeros, h_digits⟩ := h_cs
  rw [appendDigits?_zeros (Nat.lt_trans Nat.zero_lt_one h_one), ← appendDigits?_map_toLower,
    h_digits, appendDigits?_toDigits h_one h_radix]

/-- **A spelling in decimal is read.** -/
theorem SpelledBy.unsigned?_decimal (h_cs : SpelledBy 10 n cs) : unsigned? cs = some n := by
  have h_marker : ∀ c ∈ cs, c ≠ 'x' ∧ c ≠ 'X' := by
    intro c h_mem
    obtain ⟨m, h_m⟩ := h_cs.exists_mem h_mem
    have h_digit := isDigit_of_mem_toDigits m c.toLower h_m
    constructor
    · rintro rfl
      exact absurd h_digit (by decide)
    · rintro rfl
      exact absurd h_digit (by decide)
  rw [unsigned?_eq_natural? (fun c h_mem => (h_cs.isPlain (by decide) (by decide) c h_mem).1)
    h_marker, h_cs.natural?_eq (by decide) (by decide)]

/-- **A spelling in hexadecimal is read** behind either marker. -/
theorem SpelledBy.unsigned?_hexadecimal {marker : Char} (h_cs : SpelledBy 16 n cs)
    (h_marker : marker = 'x' ∨ marker = 'X') : unsigned? ('0' :: marker :: cs) = some n := by
  have h_some : cs.isEmpty = false := List.isEmpty_eq_false_iff.mpr h_cs.ne_nil
  have h_read := h_cs.natural?_eq (by decide) (by decide)
  have h_blank : ∀ c ∈ '0' :: marker :: cs, isBlank c = false := by
    intro c h_mem
    rcases List.mem_cons.mp h_mem with rfl | h_mem
    · decide
    rcases List.mem_cons.mp h_mem with rfl | h_digit
    · rcases h_marker with rfl | rfl <;> decide
    · exact (h_cs.isPlain (by decide) (by decide) c h_digit).1
  rw [unsigned?, trim_of_not_blank h_blank]
  rcases h_marker with rfl | rfl
  · simp only [h_some, Bool.false_eq_true, if_false, h_read]
  · simp only [h_some, Bool.false_eq_true, if_false, h_read]

end

/-! ### Characters that are not read -/

theorem appendDigits?_eq_none {radix acc : Nat} {cs : List Char} {c : Char} (h_mem : c ∈ cs)
    (h_grouping : c ≠ '_') (h_digit : ∀ d ∈ digitValue c, radix ≤ d) :
    appendDigits? radix acc cs = none := by
  induction cs generalizing acc with
  | nil => cases h_mem
  | cons b rest ih =>
    rw [appendDigits?]
    -- The character stops the reading, if nothing in front of it has done so.
    rcases List.mem_cons.mp h_mem with rfl | h_rest
    · rw [if_neg h_grouping]
      split
      · next d h_d => rw [if_neg (Nat.not_lt.mpr (h_digit d h_d))]
      · rfl
    · split
      · exact ih h_rest
      · split
        · split
          · exact ih h_rest
          · rfl
        · rfl

/-- A text is no number if it has a character that is no digit, unless this stands for a plus sign
or for grouping. -/
theorem natural?_eq_none {radix : Nat} {cs : List Char} {c : Char} (h_mem : c ∈ cs)
    (h_plus : c ≠ '+') (h_grouping : c ≠ '_') (h_digit : ∀ d ∈ digitValue c, radix ≤ d) :
    natural? radix cs = none := by
  -- A plus sign is all that is dropped.
  have h_kept : c ∈ dropPlus cs := by
    unfold dropPlus
    split
    · next rest =>
      rcases List.mem_cons.mp h_mem with rfl | h_rest
      · exact absurd rfl h_plus
      · split
        · exact h_mem
        · exact h_rest
    · exact h_mem
  rw [natural?]
  split
  · rfl
  · rfl
  · exact appendDigits?_eq_none h_kept h_grouping h_digit

end Numeral

/-! ### Numbers as text -/

namespace Json.Number

variable {n : Number}

/-- The characters that numbers are spelled with. -/
def alphabet : List Char := "0123456789-.e+".toList

theorem mem_text {c : Char} (h_mem : c ∈ n.text.toList) : c ∈ alphabet := by
  have h_toChar : ∀ d : Digit, d.toChar ∈ alphabet := by decide
  have h_digits : ∀ digits : List Digit, c ∈ digits.map Digit.toChar → c ∈ alphabet := by
    intro digits h_c
    obtain ⟨d, -, rfl⟩ := List.mem_map.mp h_c
    exact h_toChar d
  rw [Document.toList_text] at h_mem
  simp only [List.mem_append] at h_mem
  -- The parts are the sign, the digits in front of the point, those behind it and the exponent.
  rcases h_mem with h_sign | h_whole | h_fraction | h_exponent
  · split at h_sign
    · rw [List.mem_singleton.mp h_sign]
      decide
    · cases h_sign
  · obtain ⟨d, h_lt, rfl⟩ := Numeral.exists_digitChar_of_mem (by decide) n.whole c h_whole
    exact h_toChar ⟨d, h_lt⟩
  · match n.fraction, h_fraction with
    | d :: rest, h_fraction =>
      rcases List.mem_cons.mp h_fraction with rfl | h_c
      · decide
      · exact h_digits _ h_c
  · match n.exponent, h_exponent with
    | some e, h_exponent =>
      rcases List.mem_cons.mp h_exponent with rfl | h_c
      · decide
      rcases List.mem_cons.mp h_c with rfl | h_c
      · split <;> decide
      · exact h_digits _ h_c

/-- A number is spelled by more than digits: it has a sign, a fraction or an exponent. -/
def IsDecorated (n : Number) : Prop := n.negative = true ∨ n.fraction ≠ [] ∨ n.exponent ≠ none

/-- Each of these is seen in the text by a character. -/
theorem IsDecorated.exists_mem_text (h_n : n.IsDecorated) :
    ∃ c ∈ n.text.toList, c = '-' ∨ c = '.' ∨ c = 'e' := by
  simp only [Document.toList_text, List.mem_append]
  rcases h_n with h_sign | h_fraction | h_exponent
  · exact ⟨'-', Or.inl (by rw [h_sign]; decide), Or.inl rfl⟩
  · obtain ⟨d, rest, h_f⟩ := List.exists_cons_of_ne_nil h_fraction
    exact ⟨'.', Or.inr (Or.inr (Or.inl (by rw [h_f]; exact List.mem_cons_self))),
      Or.inr (Or.inl rfl)⟩
  · obtain ⟨e, h_e⟩ := Option.ne_none_iff_exists'.mp h_exponent
    exact ⟨'e', Or.inr (Or.inr (Or.inr (by rw [h_e]; exact List.mem_cons_self))),
      Or.inr (Or.inr rfl)⟩

theorem IsDecorated.natural?_eq_none (h_n : n.IsDecorated) : n.natural? = none := by
  obtain ⟨negative, whole, fraction, exponent⟩ := n
  cases negative <;> cases fraction <;> cases exponent <;>
    simp_all [IsDecorated, Number.natural?, isWhole]

theorem eq_ofNat_of_not_isDecorated (h_n : ¬ n.IsDecorated) : n = ofNat n.whole := by
  obtain ⟨negative, whole, fraction, exponent⟩ := n
  simp only [IsDecorated, not_or, ne_eq, Decidable.not_not, Bool.not_eq_true] at h_n
  obtain ⟨rfl, rfl, rfl⟩ := h_n
  rfl

/-- **The text of a number is read as its digits**, and as nothing if there is more to it. -/
theorem unsigned?_text (n : Number) : Numeral.unsigned? n.text.toList = n.natural? := by
  have h_all : ∀ c ∈ alphabet, (!Numeral.isBlank c && (c != 'x' && c != 'X')) = true :=
    List.all_eq_true.mp (by decide)
  have h_plain : ∀ c ∈ n.text.toList, Numeral.isBlank c = false ∧ c ≠ 'x' ∧ c ≠ 'X' := by
    intro c h_mem
    simpa using h_all c (mem_text h_mem)
  rw [Numeral.unsigned?_eq_natural? (fun c h_mem => (h_plain c h_mem).1)
    fun c h_mem => (h_plain c h_mem).2]
  by_cases h_n : n.IsDecorated
  · obtain ⟨c, h_mem, h_c⟩ := h_n.exists_mem_text
    -- The letter of an exponent stands for fourteen, which is no decimal digit either.
    have h_none : c ≠ '+' ∧ c ≠ '_' ∧ ∀ d ∈ Numeral.digitValue c, 10 ≤ d := by
      rcases h_c with rfl | rfl | rfl <;> decide
    obtain ⟨h_plus, h_grouping, h_digit⟩ := h_none
    rw [h_n.natural?_eq_none, Numeral.natural?_eq_none h_mem h_plus h_grouping h_digit]
  · rw [eq_ofNat_of_not_isDecorated h_n, natural?_ofNat, Document.toList_text]
    show Numeral.natural? 10 (Nat.toDigits 10 n.whole ++ []) = _
    rw [List.append_nil, Numeral.natural?_toDigits (by decide) (by decide)]

end Json.Number

/-! ### The two readers -/

theorem Wei.ofJson?_number (n : Json.Number) : ofJson? (.number n) = n.natural? := n.unsigned?_text

theorem Counter.ofNat?_eq_some_iff {n : Nat} {c : UInt64} : ofNat? n = some c ↔ c.toNat = n := by
  unfold ofNat?
  split
  · next h_fits =>
    have h_nat : (UInt64.ofNat n).toNat = n := UInt64.toNat_ofNat_of_lt' h_fits
    rw [Option.some.injEq, ← UInt64.toNat_inj, h_nat, eq_comm]
  · next h_fits =>
    refine iff_of_false nofun ?_
    rintro rfl
    exact h_fits c.toNat_lt

/-- **A counter is an amount that fits.** -/
theorem Counter.ofJson?_eq (v : Json) : ofJson? v = (Wei.ofJson? v).bind ofNat? := by
  cases v with
  | null => rfl
  | number n =>
    rw [Wei.ofJson?_number]
    rfl
  | string s => rfl
  | bool b => rfl
  | array items => rfl
  | object members => rfl

namespace Json

/-- A value renders a natural number as nodes do: as a number that is spelled by its digits, or as a
text, in decimal, or in hexadecimal behind a marker, with blanks around it. -/
inductive Renders : Json → Nat → Prop
  | number (n : Nat) : Renders (.ofNat n) n
  | decimal {n : Nat} {front digits back : List Char} (h_digits : Numeral.SpelledBy 10 n digits)
      (h_front : ∀ c ∈ front, Numeral.isBlank c = true)
      (h_back : ∀ c ∈ back, Numeral.isBlank c = true) :
    Renders (.string (String.ofList (front ++ digits ++ back))) n
  | hexadecimal {n : Nat} {front digits back : List Char} {marker : Char}
      (h_digits : Numeral.SpelledBy 16 n digits) (h_marker : marker = 'x' ∨ marker = 'X')
      (h_front : ∀ c ∈ front, Numeral.isBlank c = true)
      (h_back : ∀ c ∈ back, Numeral.isBlank c = true) :
    Renders (.string (String.ofList (front ++ '0' :: marker :: digits ++ back))) n

theorem Renders.wei {v : Json} {n : Nat} (h_v : v.Renders n) : Wei.ofJson? v = some n := by
  cases h_v with
  | number => exact Wei.ofJson?_number _
  | decimal h_digits h_front h_back =>
    rw [Wei.ofJson?, String.toList_ofList, Numeral.unsigned?_append _ h_front h_back,
      h_digits.unsigned?_decimal]
  | hexadecimal h_digits h_marker h_front h_back =>
    rw [Wei.ofJson?, String.toList_ofList, Numeral.unsigned?_append _ h_front h_back,
      h_digits.unsigned?_hexadecimal h_marker]

/-- **Quantities.** From every value the two readers take the same number, a counter exactly where
the number has at most 64 bits; every way of rendering a number is read as this number; and a number
with a sign, a fraction or an exponent is read by neither. -/
theorem quantities_read :
    (∀ (v : Json) (n : Nat),
      (Counter.ofJson? v).map UInt64.toNat = some n ↔ Wei.ofJson? v = some n ∧ n < 2 ^ 64) ∧
    (∀ (v : Json) (n : Nat), v.Renders n → Wei.ofJson? v = some n) ∧
    ∀ n : Number, n.IsDecorated →
      Wei.ofJson? (.number n) = none ∧ Counter.ofJson? (.number n) = none := by
  refine ⟨fun v n => ?_, fun v n h_v => h_v.wei, fun n h_n => ?_⟩
  · -- A counter is an amount that has to fit.
    rw [Counter.ofJson?_eq, Option.map_eq_some_iff]
    constructor
    · rintro ⟨c, h_c, rfl⟩
      obtain ⟨m, h_m, h_fits⟩ := Option.bind_eq_some_iff.mp h_c
      obtain rfl := Counter.ofNat?_eq_some_iff.mp h_fits
      exact ⟨h_m, c.toNat_lt⟩
    · rintro ⟨h_n, h_lt⟩
      have h_nat : (UInt64.ofNat n).toNat = n := UInt64.toNat_ofNat_of_lt' h_lt
      refine ⟨UInt64.ofNat n, ?_, h_nat⟩
      rw [h_n, Option.bind_some, Counter.ofNat?_eq_some_iff, h_nat]
  · have h_none : Wei.ofJson? (.number n) = none := by
      rw [Wei.ofJson?_number, h_n.natural?_eq_none]
    exact ⟨h_none, by rw [Counter.ofJson?_eq, h_none, Option.bind_none]⟩

/-- Hexadecimal text in mixed case with zeros and two sorts of blanks, and a thousand with an
exponent. -/
theorem quantities_read_spaced :
    let v : Json := .string (String.ofList ['\u3000', ' ', '0', 'X', '0', '0', 'f', 'F', '\n'])
    let thousand : Number := { whole := 1, exponent := some ⟨false, 3, []⟩ }
    v.Renders 255 ∧ Wei.ofJson? v = some 255 ∧ (Counter.ofJson? v).map UInt64.toNat = some 255 ∧
      thousand.IsDecorated ∧ Wei.ofJson? (.number thousand) = none ∧
      Counter.ofJson? (.number thousand) = none := by
  intro v thousand
  have h_digits : Numeral.SpelledBy 16 255 ['0', '0', 'f', 'F'] := .intro 2 (by decide)
  have h_v : v.Renders 255 :=
    @Renders.hexadecimal 255 ['\u3000', ' '] _ ['\n'] 'X' h_digits (Or.inr rfl)
      (List.all_eq_true.mp (by decide)) (List.all_eq_true.mp (by decide))
  have h_thousand : thousand.IsDecorated := Or.inr (Or.inr nofun)
  obtain ⟨h_alike, h_rendered, h_decorated⟩ := quantities_read
  have h_wei := h_rendered v 255 h_v
  exact ⟨h_v, h_wei, (h_alike v 255).mpr ⟨h_wei, by decide⟩, h_thousand,
    h_decorated thousand h_thousand⟩

end Json

end RosettaGateway
