import RosettaGateway.Json.Document
import RosettaGateway.Proofs.Text

/-!
# Texts of values are read back

`Json.print` is the compact text of a value with the members of every object in their order, which
is the text that is kept of a record. `Document.ofText_print` says that reading this text gives the
tree of the value, to its last detail: every number as it is spelled and every member in its place.

The reading goes through the text from the front, so for each part of a text the statement is about
the part and whatever follows it. What follows a value is a comma or a closing bracket, or nothing
(`Closes`): a digit would belong to a number in front of it. Three steps for each character are
enough, which is shown for values, items and members by one induction (`scanValue_print`).
-/

namespace RosettaGateway

/-! ### Printing -/

namespace Json

mutual

/-- The compact text of a value. -/
def print : Json → List Char
  | .null => ['n', 'u', 'l', 'l']
  | .bool true => ['t', 'r', 'u', 'e']
  | .bool false => ['f', 'a', 'l', 's', 'e']
  | .number n => n.text.toList
  | .string s => '"' :: s.toList.flatMap escapeChar ++ ['"']
  | .array items => '[' :: printItems true items
  | .object members => '\x7b' :: printMembers true members

/-- The text of the items of an array, with the closing bracket. Only the first one has no comma in
front of it. -/
def printItems (atStart : Bool) : List Json → List Char
  | [] => [']']
  | item :: rest => (if atStart then [] else [',']) ++ (item.print ++ printItems false rest)

/-- The text of the members of an object, with the closing brace. -/
def printMembers (atStart : Bool) : List (String × Json) → List Char
  | [] => ['\x7d']
  | (key, value) :: rest =>
    (if atStart then [] else [',']) ++ ('"' :: key.toList.flatMap escapeChar ++
      ('"' :: ':' :: (value.print ++ printMembers false rest)))

end

end Json

namespace Document

mutual

/-- The tree of a value. -/
def ofJson : Json → Document
  | .null => .null
  | .bool b => .bool b
  | .number n => .number n
  | .string s => .string s
  | .array items => .array (ofItems items)
  | .object members => .object (ofMembers members)

/-- The trees of the items of an array. -/
def ofItems : List Json → List Document
  | [] => []
  | item :: rest => ofJson item :: ofItems rest

/-- The trees of the members of an object. -/
def ofMembers : List (String × Json) → List (Option String × Document)
  | [] => []
  | (key, value) :: rest => (some key, ofJson value) :: ofMembers rest

end

/-- What may follow a value. -/
def Closes (rest : List Char) : Prop := ∀ c ∈ rest.head?, c = ',' ∨ c = ']' ∨ c = '\x7d'

theorem closes_nil : Closes [] := nofun

theorem closes_cons {c : Char} (h_c : c = ',' ∨ c = ']' ∨ c = '\x7d') (rest : List Char) :
    Closes (c :: rest) := by
  rintro _ ⟨⟩
  exact h_c

/-! ### Strings -/

theorem hexUnit?_control {n : Nat} (h_lt : n < 0x20) :
    hexUnit? '0' '0' ("0123456789abcdef".toList.getD (n / 16) '0')
      ("0123456789abcdef".toList.getD (n % 16) '0') = some n := by
  have h_all : ∀ m ∈ List.range 0x20,
      hexUnit? '0' '0' ("0123456789abcdef".toList.getD (m / 16) '0')
        ("0123456789abcdef".toList.getD (m % 16) '0') = some m := by decide
  exact h_all n (List.mem_range.mpr h_lt)

/-- A character that is no control character, no quote and no backslash stands for itself. -/
theorem scanString_cons {c : Char} (h_quote : c ≠ '"') (h_escape : c ≠ '\\')
    (h_control : ¬ c.toNat < 0x20) (s : Scan) (rest : List Char) :
    scanString s (c :: rest) = scanString (s.push c) rest := by
  rw [scanString, if_neg h_control]
  -- No other rule applies: they all ask for a quote or a backslash.
  · exact h_quote
  all_goals
    intros
    exact absurd ‹c = '\\'› h_escape

/-- An escaped character is read back. -/
theorem scanString_escapeChar (c : Char) (s : Scan) (rest : List Char) :
    scanString s (Json.escapeChar c ++ rest) = scanString (s.push c) rest := by
  unfold Json.escapeChar
  split
  · next h_c => subst h_c; rfl
  split
  · next h_c => subst h_c; rfl
  split
  · next h_c => subst h_c; rfl
  split
  · next h_c => subst h_c; rfl
  split
  · next h_c => subst h_c; rfl
  split
  · next h_c => subst h_c; rfl
  split
  · next h_c => subst h_c; rfl
  split
  · -- A control character is written by its number.
    next h_control =>
    have h_unit := hexUnit?_control h_control
    have h_push : s.pushUnit c.toNat = s.push c := by
      rw [Scan.pushUnit, if_neg (by omega), if_neg (by omega), Char.ofNat_toNat]
    simp only [List.cons_append, List.nil_append]
    rw [scanString, h_unit]
    show scanString (s.pushUnit c.toNat) rest = _
    rw [h_push]
  · next h_quote h_escape _ _ _ _ _ h_control =>
    exact scanString_cons h_quote h_escape h_control s rest

/-- The text of a string is read back. -/
theorem scanString_print (cs done rest : List Char) :
    scanString { chars := done } (cs.flatMap Json.escapeChar ++ '"' :: rest) =
      some (some (String.ofList (done.reverse ++ cs)), rest) := by
  induction cs generalizing done with
  | nil => simp [scanString, Scan.finish]
  | cons c cs ih =>
    rw [List.flatMap_cons, List.append_assoc, scanString_escapeChar]
    show scanString { chars := c :: done } _ = _
    rw [ih, List.reverse_cons, List.append_assoc, List.singleton_append]

/-! ### Numbers -/

/-- No digit comes first. -/
def NoDigit (rest : List Char) : Prop := ∀ c ∈ rest.head?, c.isDigit = false

theorem noDigit_cons {c : Char} (h_c : c.isDigit = false) (rest : List Char) :
    NoDigit (c :: rest) := by
  rintro _ ⟨⟩
  exact h_c

theorem Closes.noDigit {rest : List Char} (h_rest : Closes rest) : NoDigit rest := by
  intro c h_mem
  rcases h_rest c h_mem with rfl | rfl | rfl <;> rfl

theorem isDigit_toChar : ∀ d : Json.Digit, d.toChar.isDigit = true := by decide

/-- Digits are read up to the first character that is none. -/
theorem scanDigits_append (digits : List Json.Digit) {rest : List Char} (h_rest : NoDigit rest) :
    scanDigits (digits.map Json.Digit.toChar ++ rest) = (digits, rest) := by
  have h_all : ∀ c ∈ digits.map Json.Digit.toChar, c.isDigit = true := by
    intro c h_mem
    obtain ⟨d, -, rfl⟩ := List.mem_map.mp h_mem
    exact isDigit_toChar d
  -- What follows adds no digit.
  have h_take : rest.takeWhile Char.isDigit = [] := by
    cases rest with
    | nil => rfl
    | cons c rest => rw [List.takeWhile_cons, h_rest c rfl]; rfl
  have h_drop : rest.dropWhile Char.isDigit = rest := by
    cases rest with
    | nil => rfl
    | cons c rest => rw [List.dropWhile_cons, h_rest c rfl]; rfl
  rw [scanDigits, List.takeWhile_append_of_pos h_all, List.dropWhile_append_of_pos h_all, h_take,
    h_drop, List.append_nil, List.map_map]
  have h_digits : Json.Digit.ofChar ∘ Json.Digit.toChar = id := funext Json.Digit.ofChar_toChar
  rw [h_digits, List.map_id]

/-- The decimal digits of a number. -/
def digitsOf (n : Nat) : List Json.Digit := (Nat.toDigits 10 n).map Json.Digit.ofChar

theorem ofChar_digitChar {d : Nat} (h_lt : d < 10) :
    Json.Digit.ofChar (Nat.digitChar d) = ⟨d, h_lt⟩ :=
  Json.Digit.ofChar_toChar ⟨d, h_lt⟩

theorem map_toChar_digitsOf (n : Nat) : (digitsOf n).map Json.Digit.toChar = Nat.toDigits 10 n := by
  rw [digitsOf, List.map_map]
  refine (List.map_congr_left fun c h_mem => ?_).trans (List.map_id _)
  obtain ⟨d, h_lt, rfl⟩ := Numeral.exists_digitChar_of_mem (by decide) n c h_mem
  rw [Function.comp_apply, ofChar_digitChar h_lt]
  rfl

theorem digitsOf_of_lt {n : Nat} (h_lt : n < 10) : digitsOf n = [⟨n, h_lt⟩] := by
  rw [digitsOf, Nat.toDigits_eq_if (by decide), if_pos h_lt, List.map_singleton,
    ofChar_digitChar h_lt]

/-- The digits of a number of two or more are those of the tenth of it, and a last one. -/
theorem digitsOf_of_le {n : Nat} (h_le : 10 ≤ n) :
    digitsOf n = digitsOf (n / 10) ++ [⟨n % 10, Nat.mod_lt n (by decide)⟩] := by
  rw [digitsOf, Nat.toDigits_eq_if (by decide), if_neg (Nat.not_lt.mpr h_le), List.map_append,
    List.map_singleton, ofChar_digitChar (Nat.mod_lt n (by decide))]
  rfl

theorem value_digitsOf (n : Nat) : Json.Digit.value (digitsOf n) = n := by
  induction n using Nat.strongRecOn with
  | ind n ih =>
    by_cases h_lt : n < 10
    · rw [digitsOf_of_lt h_lt]
      exact Nat.zero_add n
    · have h_le : 10 ≤ n := Nat.not_lt.mp h_lt
      have h_rest : Json.Digit.value (digitsOf (n / 10)) = n / 10 := ih (n / 10) (by omega)
      rw [digitsOf_of_le h_le, Json.Digit.value, List.foldl_append]
      show Json.Digit.value (digitsOf (n / 10)) * 10 + n % 10 = n
      omega

/-- A number does not begin with a zero, unless it is zero. -/
theorem digitsOf_ne_zero_cons (n : Nat) (d : Json.Digit) (digits : List Json.Digit) :
    digitsOf n ≠ 0 :: d :: digits := by
  induction n using Nat.strongRecOn generalizing d digits with
  | ind n ih =>
    intro h_digits
    by_cases h_lt : n < 10
    · rw [digitsOf_of_lt h_lt] at h_digits
      cases h_digits
    · have h_le : 10 ≤ n := Nat.not_lt.mp h_lt
      rw [digitsOf_of_le h_le] at h_digits
      match h_tenth : digitsOf (n / 10) with
      | [] =>
        rw [h_tenth] at h_digits
        exact absurd (congrArg List.length h_digits) (by simp)
      | [first] =>
        -- A tenth that is written as zero is zero, but there are ten or more.
        rw [h_tenth] at h_digits
        obtain ⟨rfl, -⟩ := List.cons.inj h_digits
        have h_value := value_digitsOf (n / 10)
        rw [h_tenth] at h_value
        have h_zero : Json.Digit.value [(0 : Json.Digit)] = 0 := rfl
        omega
      | first :: second :: others =>
        rw [h_tenth] at h_digits
        obtain ⟨rfl, -⟩ := List.cons.inj h_digits
        exact ih (n / 10) (by omega) _ _ h_tenth

theorem scanWhole_append (n : Nat) {rest : List Char} (h_rest : NoDigit rest) :
    scanWhole (Nat.toDigits 10 n ++ rest) = some (n, rest) := by
  rw [scanWhole, ← map_toChar_digitsOf, scanDigits_append _ h_rest]
  split
  · next h_nil =>
    have h_digits := (Prod.mk.inj h_nil).1
    rw [digitsOf, List.map_eq_nil_iff] at h_digits
    exact absurd h_digits Nat.toDigits_ne_nil
  · next h_zero => exact absurd (Prod.mk.inj h_zero).1 (digitsOf_ne_zero_cons n _ _)
  · next h_digits =>
    obtain ⟨rfl, rfl⟩ := Prod.mk.inj h_digits
    rw [value_digitsOf]

theorem scanFraction_append (digits : List Json.Digit) {rest : List Char} (h_rest : NoDigit rest)
    (h_point : rest.head? ≠ some '.') :
    scanFraction (Json.Number.fractionText digits ++ rest) = some (digits, rest) := by
  cases digits with
  | nil =>
    show scanFraction rest = _
    unfold scanFraction
    split
    · exact absurd rfl h_point
    · rfl
  | cons d digits =>
    show scanFraction ('.' :: ((d :: digits).map Json.Digit.toChar ++ rest)) = _
    rw [scanFraction, scanDigits_append _ h_rest]

theorem scanSign_cons (negative : Bool) (rest : List Char) :
    scanSign ((if negative then '-' else '+') :: rest) = (negative, rest) := by
  cases negative <;> rfl

theorem scanExponent_append (exponent : Option Json.Exponent) {rest : List Char}
    (h_rest : NoDigit rest) (h_letter : ∀ c ∈ rest.head?, c ≠ 'e' ∧ c ≠ 'E') :
    scanExponent (Json.Number.exponentText exponent ++ rest) = some (exponent, rest) := by
  cases exponent with
  | none =>
    show scanExponent rest = _
    cases rest with
    | nil => rfl
    | cons c rest =>
      obtain ⟨h_lower, h_upper⟩ := h_letter c rfl
      rw [scanExponent, if_neg (by simp [h_lower, h_upper])]
  | some e =>
    obtain ⟨negative, first, others⟩ := e
    show scanExponent ('e' :: (if negative then '-' else '+') ::
      ((first :: others).map Json.Digit.toChar ++ rest)) = _
    simp only [scanExponent, true_or, if_true, scanSign_cons, scanDigits_append _ h_rest]

/-- Behind the digits of a number there is no digit, whether an exponent follows or nothing of the
number does. -/
theorem noDigit_exponentText (exponent : Option Json.Exponent) {rest : List Char}
    (h_rest : Closes rest) : NoDigit (Json.Number.exponentText exponent ++ rest) := by
  cases exponent with
  | none => exact h_rest.noDigit
  | some e => exact noDigit_cons rfl _

theorem head?_exponentText_ne (exponent : Option Json.Exponent) {rest : List Char}
    (h_rest : Closes rest) : (Json.Number.exponentText exponent ++ rest).head? ≠ some '.' := by
  cases exponent with
  | none =>
    intro h_point
    rcases h_rest '.' h_point with h_c | h_c | h_c <;> cases h_c
  | some e => exact fun h_point => absurd (Option.some.inj h_point) (by decide)

theorem noDigit_fractionText (digits : List Json.Digit) {rest : List Char} (h_rest : NoDigit rest) :
    NoDigit (Json.Number.fractionText digits ++ rest) := by
  cases digits with
  | nil => exact h_rest
  | cons d digits => exact noDigit_cons rfl _

/-- The text of a number is its sign, its digits, its fraction and its exponent. -/
theorem toList_text (n : Json.Number) :
    n.text.toList = (if n.negative then ['-'] else []) ++ (Nat.toDigits 10 n.whole ++
      (Json.Number.fractionText n.fraction ++ Json.Number.exponentText n.exponent)) := by
  rw [Json.Number.text, String.toList_append, String.toList_append, String.toList_ofList,
    Numeral.toList_ofNat, List.append_assoc]
  cases n.negative <;> rfl

theorem scanMagnitude_append (n : Json.Number) {rest : List Char} (h_rest : Closes rest) :
    scanMagnitude n.negative (Nat.toDigits 10 n.whole ++
      (Json.Number.fractionText n.fraction ++ (Json.Number.exponentText n.exponent ++ rest))) =
      some (n, rest) := by
  have h_exponent := noDigit_exponentText n.exponent h_rest
  have h_letter : ∀ c ∈ rest.head?, c ≠ 'e' ∧ c ≠ 'E' := by
    intro c h_mem
    rcases h_rest c h_mem with rfl | rfl | rfl <;> decide
  have h_whole := scanWhole_append n.whole (noDigit_fractionText n.fraction h_exponent)
  have h_fraction :=
    scanFraction_append n.fraction h_exponent (head?_exponentText_ne n.exponent h_rest)
  simp only [scanMagnitude, h_whole, h_fraction, scanExponent_append _ h_rest.noDigit h_letter,
    Option.bind_eq_bind, Option.bind_some, Option.pure_def]

/-- **The text of a number is read back**, to the spelling. -/
theorem scanNumber_text (n : Json.Number) {rest : List Char} (h_rest : Closes rest) :
    scanNumber (n.text.toList ++ rest) = some (n, rest) := by
  have h_magnitude := scanMagnitude_append n h_rest
  obtain ⟨negative, whole, fraction, exponent⟩ := n
  rw [toList_text, List.append_assoc, List.append_assoc, List.append_assoc]
  cases negative with
  | true => exact h_magnitude
  | false =>
    -- Without a sign the number begins with a digit.
    obtain ⟨c, digits, h_cons, h_digit⟩ := Numeral.exists_cons_toDigits whole
    rw [h_cons] at h_magnitude
    simp only [Bool.false_eq_true, if_false, List.nil_append, h_cons]
    show scanNumber (c :: _) = _
    unfold scanNumber
    split
    · next h_sign =>
      obtain ⟨rfl, -⟩ := List.cons.inj h_sign
      cases h_digit
    · exact h_magnitude

/-! ### Values -/

theorem skip_cons {c : Char} (h_c : isBlank c = false) (rest : List Char) :
    skip (c :: rest) = c :: rest := by
  rw [skip, List.dropWhile_cons, h_c]
  rfl

/-- What comes first in the text of a value: no blank, no comma and no closing bracket. -/
def Opens (c : Char) : Prop := isBlank c = false ∧ c ≠ ',' ∧ c ≠ ']' ∧ c ≠ '\x7d'

theorem opens_of_isDigit {c : Char} (h_digit : c.isDigit = true) : Opens c := by
  refine ⟨?_, ?_, ?_, ?_⟩
  · refine Bool.eq_false_iff.mpr fun h_blank => ?_
    simp only [isBlank, Bool.or_eq_true, beq_iff_eq, or_assoc] at h_blank
    rcases h_blank with rfl | rfl | rfl | rfl <;> cases h_digit
  · rintro rfl
    cases h_digit
  · rintro rfl
    cases h_digit
  · rintro rfl
    cases h_digit

/-- The text of a number begins with a minus sign or a digit. -/
theorem exists_cons_text (n : Json.Number) :
    ∃ c rest, n.text.toList = c :: rest ∧ (c = '-' ∨ c.isDigit = true) := by
  rw [toList_text]
  cases n.negative with
  | true => exact ⟨'-', _, rfl, Or.inl rfl⟩
  | false =>
    obtain ⟨c, digits, h_cons, h_digit⟩ := Numeral.exists_cons_toDigits n.whole
    rw [h_cons]
    exact ⟨c, _, rfl, Or.inr h_digit⟩

theorem exists_cons_print (v : Json) : ∃ c rest, v.print = c :: rest ∧ Opens c := by
  cases v with
  | number n =>
    obtain ⟨c, rest, h_text, h_first⟩ := exists_cons_text n
    refine ⟨c, rest, h_text, ?_⟩
    rcases h_first with rfl | h_digit
    · exact ⟨rfl, by decide, by decide, by decide⟩
    · exact opens_of_isDigit h_digit
  | bool b => cases b <;> exact ⟨_, _, rfl, rfl, by decide, by decide, by decide⟩
  | _ => exact ⟨_, _, rfl, rfl, by decide, by decide, by decide⟩

theorem closes_printItems (items : List Json) (rest : List Char) :
    Closes (Json.printItems false items ++ rest) := by
  cases items with
  | nil => exact closes_cons (by simp) rest
  | cons item items => exact closes_cons (by simp) _

theorem closes_printMembers (members : List (String × Json)) (rest : List Char) :
    Closes (Json.printMembers false members ++ rest) := by
  cases members with
  | nil => exact closes_cons (by simp) rest
  | cons m members => exact closes_cons (by simp) _

theorem scanValue_number (n : Json.Number) (fuel : Nat) {rest : List Char} (h_rest : Closes rest) :
    scanValue (fuel + 1) (n.text.toList ++ rest) = (.number n, some rest) := by
  have h_number := scanNumber_text n h_rest
  obtain ⟨c, text, h_text, h_first⟩ := exists_cons_text n
  have h_blank : isBlank c = false := by
    rcases h_first with rfl | h_digit
    · rfl
    · exact (opens_of_isDigit h_digit).1
  rw [h_text, List.cons_append] at h_number ⊢
  rw [scanValue, skip_cons h_blank]
  -- None of the other values begins with a minus sign or a digit.
  split <;> simp_all

theorem length_print_pos (v : Json) : 1 ≤ v.print.length := by
  obtain ⟨c, rest, h_print, -⟩ := exists_cons_print v
  rw [h_print]
  exact Nat.succ_pos _

theorem length_printItems_pos (atStart : Bool) (items : List Json) :
    1 ≤ (Json.printItems atStart items).length := by
  cases items with
  | nil => exact Nat.le_refl 1
  | cons item items =>
    have h_pos := length_print_pos item
    rw [Json.printItems, List.length_append, List.length_append]
    omega

mutual

/-- The text of a value is read up to its end, whatever follows it. -/
theorem scanValue_print (v : Json) (fuel : Nat) (rest : List Char)
    (h_fuel : 3 * v.print.length ≤ fuel) (h_rest : Closes rest) :
    scanValue fuel (v.print ++ rest) = (ofJson v, some rest) := by
  have h_pos := length_print_pos v
  obtain ⟨fuel, rfl⟩ : ∃ n, fuel = n + 1 := ⟨fuel - 1, by omega⟩
  match v with
  | .null => rfl
  | .bool true => rfl
  | .bool false => rfl
  | .number n => exact scanValue_number n fuel h_rest
  | .string s =>
    have h_string := scanString_print s.toList [] rest
    simp only [Json.print, List.cons_append, List.append_assoc, List.nil_append]
    rw [scanValue, skip_cons rfl]
    show (match scanString {} (s.toList.flatMap Json.escapeChar ++ '"' :: rest) with
      | some (some s, rest) => (Document.string s, some rest)
      | some (none, rest) => (.unpaired, some rest)
      | none => (.broken, none)) = _
    rw [h_string, List.reverse_nil, List.nil_append, String.ofList_toList]
    rfl
  | .array items =>
    have h_items := scanItems_print items true fuel rest (by
      simp only [Json.print, List.length_cons] at h_fuel
      omega)
    rw [Json.print, List.cons_append, scanValue, skip_cons rfl]
    show (Document.array (scanItems fuel true _).1, (scanItems fuel true _).2) = _
    rw [h_items]
    rfl
  | .object members =>
    have h_members := scanMembers_print members true fuel rest (by
      simp only [Json.print, List.length_cons] at h_fuel
      omega)
    rw [Json.print, List.cons_append, scanValue, skip_cons rfl]
    show (Document.object (scanMembers fuel true _).1, (scanMembers fuel true _).2) = _
    rw [h_members]
    rfl

/-- So are the items of an array with its closing bracket. -/
theorem scanItems_print (items : List Json) (atStart : Bool) (fuel : Nat) (rest : List Char)
    (h_fuel : 3 * (Json.printItems atStart items).length ≤ fuel) :
    scanItems fuel atStart (Json.printItems atStart items ++ rest) =
      (ofItems items, some rest) := by
  match items with
  | [] =>
    obtain ⟨fuel, rfl⟩ : ∃ n, fuel = n + 1 :=
      ⟨fuel - 1, by simp [Json.printItems] at h_fuel; omega⟩
    rfl
  | item :: items =>
    have h_pos := length_print_pos item
    have h_close := length_printItems_pos false items
    have h_length : (Json.printItems atStart (item :: items)).length =
        (if atStart then [] else [',']).length + (item.print.length +
          (Json.printItems false items).length) := by
      rw [Json.printItems, List.length_append, List.length_append]
    obtain ⟨fuel, rfl⟩ : ∃ n, fuel = n + 2 := ⟨fuel - 2, by omega⟩
    -- What counts is that the item is read, and then the items behind it.
    have h_item : scanItem (fuel + 1) (item.print ++ (Json.printItems false items ++ rest)) =
        (ofJson item :: ofItems items, some rest) := by
      rw [scanItem, scanValue_print item fuel _ (by omega) (closes_printItems items rest)]
      show (ofJson item :: (scanItems fuel false _).1, (scanItems fuel false _).2) = _
      rw [scanItems_print items false fuel rest (by omega)]
    cases atStart with
    | true =>
      obtain ⟨c, text, h_print, h_blank, h_comma, h_bracket, -⟩ := exists_cons_print item
      simp only [Json.printItems, if_true, List.nil_append, List.append_assoc]
      rw [h_print, List.cons_append] at h_item ⊢
      rw [scanItems, skip_cons h_blank]
      split <;> simp_all [ofItems]
    | false =>
      simp only [Json.printItems, Bool.false_eq_true, if_false, List.append_assoc]
      exact h_item

/-- So are the members of an object with its closing brace. -/
theorem scanMembers_print (members : List (String × Json)) (atStart : Bool) (fuel : Nat)
    (rest : List Char) (h_fuel : 3 * (Json.printMembers atStart members).length ≤ fuel) :
    scanMembers fuel atStart (Json.printMembers atStart members ++ rest) =
      (ofMembers members, some rest) := by
  match members with
  | [] =>
    obtain ⟨fuel, rfl⟩ : ∃ n, fuel = n + 1 :=
      ⟨fuel - 1, by simp [Json.printMembers] at h_fuel; omega⟩
    rfl
  | (key, value) :: members =>
    have h_pos := length_print_pos value
    have h_length : 3 + value.print.length + (Json.printMembers false members).length ≤
        (Json.printMembers atStart ((key, value) :: members)).length := by
      simp only [Json.printMembers, List.length_append, List.length_cons]
      omega
    -- One step goes to the list and one to the key; the rest is enough for the value and the
    -- others.
    obtain ⟨fuel, rfl⟩ : ∃ n, fuel = n + 2 := ⟨fuel - 2, by omega⟩
    have h_member : scanMember (fuel + 1) ('"' :: (key.toList.flatMap Json.escapeChar ++
        '"' :: ':' :: (value.print ++ (Json.printMembers false members ++ rest)))) =
        ((some key, ofJson value) :: ofMembers members, some rest) := by
      have h_key := scanString_print key.toList []
        (':' :: (value.print ++ (Json.printMembers false members ++ rest)))
      have h_colon : isBlank ':' = false := rfl
      rw [scanMember, skip_cons rfl]
      simp only [h_key, List.reverse_nil, List.nil_append, String.ofList_toList, skip_cons h_colon,
        scanValue_print value fuel _ (by omega) (closes_printMembers members rest),
        scanMembers_print members false fuel rest (by omega)]
    cases atStart with
    | true =>
      simp only [Json.printMembers, if_true, List.nil_append, List.append_assoc, List.cons_append]
      exact h_member
    | false =>
      simp only [Json.printMembers, Bool.false_eq_true, if_false, List.append_assoc,
        List.cons_append]
      exact h_member

end

/-- **The text of a value is read as its tree**, and nothing is left of it. -/
theorem ofText_print (v : Json) : ofText v.print = (ofJson v, true) := by
  have h_scan := scanValue_print v (3 * v.print.length + 3) [] (by omega) closes_nil
  rw [List.append_nil] at h_scan
  rw [ofText, h_scan]
  rfl

end Document

/-! ### The text of an answer -/

namespace Json

mutual

/-- The value with the members of every object in ascending order of their keys. -/
def sorted : Json → Json
  | .array items => .array (sortedItems items)
  | .object members => .object (sortMembers (sortedMembers members))
  | v => v

/-- The items of an array, each sorted. -/
def sortedItems : List Json → List Json
  | [] => []
  | item :: rest => item.sorted :: sortedItems rest

/-- The members of an object in their order, with each value sorted. -/
def sortedMembers : List (String × Json) → List (String × Json)
  | [] => []
  | (key, value) :: rest => (key, value.sorted) :: sortedMembers rest

end

/-- Texts with commas between them: all but the first one have a comma in front. -/
theorem toList_intercalate_cons (text : String) (texts : List String) :
    (String.intercalate "," (text :: texts)).toList =
      text.toList ++ texts.flatMap fun t => ',' :: t.toList := by
  induction texts generalizing text with
  | nil => rw [String.intercalate_singleton, List.flatMap_nil, List.append_nil]
  | cons t texts ih =>
    rw [String.intercalate_cons_cons, String.toList_append, ih, String.toList_append,
      List.flatMap_cons, List.append_assoc]
    rfl

/-- The text of a member of an object. -/
def printMember (m : String × Json) : String := quote m.1 ++ ":" ++ String.ofList m.2.print

/-- Values are put in order with their keys. -/
theorem sortMembers_map {α β : Type} (g : α → β) (members : List (String × α)) :
    sortMembers (members.map fun m => (m.1, g m.2)) =
      (sortMembers members).map fun m => (m.1, g m.2) := by
  have h_keys : ∀ a ∈ members, ∀ b ∈ members, decide (a.1 ≤ b.1) =
      decide (((a.1, g a.2) : String × β).1 ≤ ((b.1, g b.2) : String × β).1) := fun _ _ _ _ => rfl
  exact (List.map_mergeSort h_keys).symm

theorem printItems_false (items : List Json) :
    printItems false items =
      ((items.map fun v => String.ofList v.print).flatMap fun t => ',' :: t.toList) ++ [']'] := by
  induction items with
  | nil => rfl
  | cons item items ih =>
    rw [printItems, ih, List.map_cons, List.flatMap_cons, String.toList_ofList]
    simp

theorem printMembers_false (members : List (String × Json)) :
    printMembers false members =
      ((members.map printMember).flatMap fun t => ',' :: t.toList) ++ ['\x7d'] := by
  induction members with
  | nil => rfl
  | cons m members ih =>
    rw [printMembers, ih, List.map_cons, List.flatMap_cons]
    simp [printMember, quote]

theorem print_array (items : List Json) :
    String.ofList (array items).print =
      "[" ++ String.intercalate "," (items.map fun v => String.ofList v.print) ++ "]" := by
  apply String.toList_inj.mp
  cases items with
  | nil => rfl
  | cons item items =>
    rw [String.toList_append, String.toList_append, List.map_cons, toList_intercalate_cons,
      String.toList_ofList, String.toList_ofList, print, printItems, printItems_false]
    simp

theorem print_object (members : List (String × Json)) :
    String.ofList (object members).print =
      "\x7b" ++ String.intercalate "," (members.map printMember) ++ "\x7d" := by
  apply String.toList_inj.mp
  cases members with
  | nil => rfl
  | cons m members =>
    rw [String.toList_append, String.toList_append, List.map_cons, toList_intercalate_cons,
      String.toList_ofList, print, printMembers, printMembers_false]
    simp [printMember, quote]

mutual

/-- **The text of an answer** is that of the sorted value. -/
theorem compress_eq_print (v : Json) : v.compress = String.ofList v.sorted.print := by
  match v with
  | .null => rfl
  | .bool true => rfl
  | .bool false => rfl
  | .number n => exact String.ofList_toList.symm
  | .string s => rfl
  | .array items => rw [sorted, print_array, compress, compressItems_eq_print]
  | .object members =>
    -- The texts of the members are sorted by their keys, which is how the members are sorted.
    have h_texts : (sortMembers (compressMembers members)).map (fun m => quote m.1 ++ ":" ++ m.2) =
        (sortMembers (sortedMembers members)).map printMember := by
      rw [compressMembers_eq_print, sortMembers_map fun v : Json => String.ofList v.print,
        List.map_map]
      rfl
    rw [sorted, print_object, ← h_texts, compress]

theorem compressItems_eq_print (items : List Json) :
    compressItems items = (sortedItems items).map fun v => String.ofList v.print := by
  match items with
  | [] => rfl
  | item :: items =>
    rw [compressItems, compress_eq_print item, compressItems_eq_print items, sortedItems,
      List.map_cons]

theorem compressMembers_eq_print (members : List (String × Json)) :
    compressMembers members =
      (sortedMembers members).map fun m => (m.1, String.ofList m.2.print) := by
  match members with
  | [] => rfl
  | (key, value) :: members =>
    rw [compressMembers, compress_eq_print value, compressMembers_eq_print members, sortedMembers,
      List.map_cons]

end

end Json

end RosettaGateway
