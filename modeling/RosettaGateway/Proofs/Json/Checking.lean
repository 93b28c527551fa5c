import RosettaGateway.Proofs.Json.Faithful
import RosettaGateway.Proofs.Json.Printing

/-!
# Typed values are read back from texts

A text is checked before a value is read from it, with one check for each codec. That a value is
read back from its text is therefore more than that it is read back from what is written for it:

* the text has the tree of what is written (`Document.ofText_print`);
* the tree has this value, if it `Json.fits`: it is not nested too deep, and it is one that a text
  can stand for (`Document.value?_ofJson`); otherwise it has none (`Document.fits_of_value?`);
* the checks find no fault in it (`Json.Codec.Accepts`).

`Json.Codec.ofText_toText` puts these together. The law of the checks passes from fields to records
in the way reading does: `Json.Record.Accepts` says of each written member that a field is found for
it, whose check it passes, and `Record.Accepts.and` joins two records. `Record.check_of_codec` goes
the other way, from a record without a fault to each of its members.
-/

namespace RosettaGateway

namespace Document

/-! ### Values of trees -/

mutual

/-- What has a value within some depth is salvaged as this value. -/
theorem salvage_of_value? {depth : Nat} {v : Json} (tree : Document)
    (h_value : tree.value? depth = some v) : tree.salvage = v := by
  match tree, depth, h_value with
  | .null, _, h_value | .bool b, _, h_value | .number n, _, h_value | .string s, _, h_value =>
    exact Option.some.inj h_value
  | .unpaired, _, h_value | .broken, _, h_value => cases h_value
  | .array items, 0, h_value | .object members, 0, h_value => cases h_value
  | .array items, depth + 1, h_value =>
    obtain ⟨vs, h_items, rfl⟩ := Option.map_eq_some_iff.mp h_value
    rw [salvage, salvageItems_of_itemValues? items h_items]
  | .object members, depth + 1, h_value =>
    obtain ⟨vs, h_members, rfl⟩ := Option.map_eq_some_iff.mp h_value
    rw [salvage, salvageMembers_of_memberValues? members h_members]

/-- So are the items of an array. -/
theorem salvageItems_of_itemValues? {depth : Nat} {vs : List Json} (items : List Document)
    (h_values : itemValues? depth items = some vs) : salvageItems items = vs := by
  match items, h_values with
  | [], h_values => exact Option.some.inj h_values
  | item :: items, h_values =>
    rw [itemValues?] at h_values
    split at h_values
    · cases h_values
    · next v h_item =>
      obtain ⟨rest, h_rest, rfl⟩ := Option.map_eq_some_iff.mp h_values
      rw [salvageItems, salvage_of_value? item h_item, salvageItems_of_itemValues? items h_rest]

/-- So are the members of an object. -/
theorem salvageMembers_of_memberValues? {depth : Nat} {done vs : List (String × Json)}
    (members : List (Option String × Document))
    (h_values : memberValues? depth done members = some vs) :
    salvageMembers done members = vs := by
  match members, h_values with
  | [], h_values => exact Option.some.inj h_values
  | (none, _) :: _, h_values => cases h_values
  | (some key, tree) :: members, h_values =>
    rw [memberValues?] at h_values
    split at h_values
    · cases h_values
    · next v h_tree =>
      rw [salvageMembers, salvage_of_value? tree h_tree,
        salvageMembers_of_memberValues? members h_values]

end

end Document

namespace Json

mutual

/-- Whether a value can stand in a text as it is: containers stand in each other down to a depth at
most, no object has a key twice, and no zero that is an integer has a sign. -/
def fits (depth : Nat) : Json → Bool
  | .number n => !n.isMinusZero
  | .array items =>
    match depth with
    | 0 => false
    | depth + 1 => fitsItems depth items
  | .object members =>
    match depth with
    | 0 => false
    | depth + 1 => decide (members.map Prod.fst).Nodup && fitsMembers depth members
  | _ => true

/-- Whether all items of an array fit. -/
def fitsItems (depth : Nat) : List Json → Bool
  | [] => true
  | item :: rest => item.fits depth && fitsItems depth rest

/-- Whether the values of all members of an object fit. -/
def fitsMembers (depth : Nat) : List (String × Json) → Bool
  | [] => true
  | (_, value) :: rest => value.fits depth && fitsMembers depth rest

end

theorem fitsItems_iff {depth : Nat} {items : List Json} :
    fitsItems depth items ↔ ∀ v ∈ items, v.fits depth := by
  induction items with
  | nil => simp [fitsItems]
  | cons item items ih => rw [fitsItems, Bool.and_eq_true, ih, List.forall_mem_cons]

theorem fitsMembers_iff {depth : Nat} {members : List (String × Json)} :
    fitsMembers depth members ↔ ∀ m ∈ members, m.2.fits depth := by
  induction members with
  | nil => simp [fitsMembers]
  | cons m members ih => rw [fitsMembers, Bool.and_eq_true, ih, List.forall_mem_cons]

/-- An object fits one level deeper than what is in it. -/
theorem fits_object {depth : Nat} {members : List (String × Json)}
    (h_nodup : (members.map Prod.fst).Nodup) (h_fits : ∀ m ∈ members, m.2.fits depth) :
    (object members).fits (depth + 1) := by
  rw [fits, Bool.and_eq_true, decide_eq_true_eq]
  exact ⟨h_nodup, fitsMembers_iff.mpr h_fits⟩

/-- Whether a text can stand for a value, if it may be nested as deep as need be. -/
def WellFormed (v : Json) : Prop := ∃ depth, v.fits depth

theorem WellFormed.of_mem_array {items : List Json} (h_formed : (array items).WellFormed) :
    ∀ v ∈ items, v.WellFormed := by
  obtain ⟨depth, h_fits⟩ := h_formed
  -- A container stands at some level, and what is in it one level deeper.
  cases depth with
  | zero => cases h_fits
  | succ depth => exact fun v h_mem => ⟨depth, fitsItems_iff.mp h_fits v h_mem⟩

theorem WellFormed.of_mem_object {members : List (String × Json)}
    (h_formed : (object members).WellFormed) :
    (members.map Prod.fst).Nodup ∧ ∀ m ∈ members, m.2.WellFormed := by
  obtain ⟨depth, h_fits⟩ := h_formed
  cases depth with
  | zero => cases h_fits
  | succ depth =>
    rw [fits, Bool.and_eq_true, decide_eq_true_eq] at h_fits
    exact ⟨h_fits.1, fun m h_mem => ⟨depth, fitsMembers_iff.mp h_fits.2 m h_mem⟩⟩

/-- A new key is set behind all others. -/
theorem setMember_of_not_mem {α : Type} {key : String} {value : α} {members : List (String × α)}
    (h_new : key ∉ members.map Prod.fst) :
    setMember key value members = members ++ [(key, value)] := by
  induction members with
  | nil => rfl
  | cons m members ih =>
    rw [List.map_cons, List.mem_cons, not_or] at h_new
    rw [setMember, if_neg (Ne.symm h_new.1), ih h_new.2, List.cons_append]

end Json

namespace Document

mutual

/-- **The tree of a value that fits has this value.** -/
theorem value?_ofJson {depth : Nat} (v : Json) (h_fits : v.fits depth) :
    (ofJson v).value? depth = some v := by
  match v, depth, h_fits with
  | .null, _, _ | .bool b, _, _ | .string s, _, _ => rfl
  | .number n, _, h_fits =>
    have h_sign : n.isMinusZero = false := by simpa [Json.fits] using h_fits
    rw [ofJson, value?, Json.Number.unsignedZero, h_sign]
    rfl
  | .array items, depth + 1, h_fits =>
    rw [ofJson, value?, itemValues?_ofItems items h_fits]
    rfl
  | .object members, depth + 1, h_fits =>
    rw [Json.fits, Bool.and_eq_true, decide_eq_true_eq] at h_fits
    rw [ofJson, value?, memberValues?_ofMembers members [] h_fits.2 h_fits.1]
    rfl

theorem itemValues?_ofItems {depth : Nat} (items : List Json)
    (h_fits : Json.fitsItems depth items) : itemValues? depth (ofItems items) = some items := by
  match items, h_fits with
  | [], _ => rfl
  | item :: items, h_fits =>
    rw [Json.fitsItems, Bool.and_eq_true] at h_fits
    rw [ofItems, itemValues?, value?_ofJson item h_fits.1]
    show (itemValues? depth (ofItems items)).map (item :: ·) = _
    rw [itemValues?_ofItems items h_fits.2]
    rfl

theorem memberValues?_ofMembers {depth : Nat} (members done : List (String × Json))
    (h_fits : Json.fitsMembers depth members) (h_nodup : ((done ++ members).map Prod.fst).Nodup) :
    memberValues? depth done (ofMembers members) = some (done ++ members) := by
  match members, h_fits with
  | [], _ => rw [ofMembers, memberValues?, List.append_nil]
  | (key, value) :: members, h_fits =>
    rw [Json.fitsMembers, Bool.and_eq_true] at h_fits
    -- A key that is new is put behind the others, so the members stay in order.
    have h_new : key ∉ done.map Prod.fst := by
      rw [List.map_append, List.map_cons, List.nodup_append] at h_nodup
      exact fun h_mem => h_nodup.2.2 key h_mem key List.mem_cons_self rfl
    rw [ofMembers, memberValues?, value?_ofJson value h_fits.1]
    show memberValues? depth (Json.setMember key value done) (ofMembers members) = _
    rw [Json.setMember_of_not_mem h_new, List.append_cons done (key, value) members]
    rw [List.append_cons] at h_nodup
    exact memberValues?_ofMembers members _ h_fits.2 h_nodup

end

mutual

/-- Conversely, a value that a text can stand for fits where its tree has a value. -/
theorem fits_of_value? {depth : Nat} {w : Json} (v : Json) (h_formed : v.WellFormed)
    (h_value : (ofJson v).value? depth = some w) : v.fits depth := by
  match v, depth, h_value with
  | .null, _, _ | .bool _, _, _ | .string _, _, _ => rfl
  | .number _, _, _ =>
    obtain ⟨_, h_fits⟩ := h_formed
    exact h_fits
  | .array items, depth + 1, h_value =>
    obtain ⟨vs, h_items, -⟩ := Option.map_eq_some_iff.mp h_value
    exact fits_of_itemValues? items h_formed.of_mem_array h_items
  | .object members, depth + 1, h_value =>
    obtain ⟨vs, h_members, -⟩ := Option.map_eq_some_iff.mp h_value
    obtain ⟨h_nodup, h_parts⟩ := h_formed.of_mem_object
    rw [Json.fits, Bool.and_eq_true, decide_eq_true_eq]
    exact ⟨h_nodup, fits_of_memberValues? members h_parts h_members⟩

theorem fits_of_itemValues? {depth : Nat} {vs : List Json} (items : List Json)
    (h_formed : ∀ v ∈ items, v.WellFormed) (h_values : itemValues? depth (ofItems items) = some vs) :
    Json.fitsItems depth items := by
  match items, h_formed, h_values with
  | [], _, _ => rfl
  | item :: items, h_formed, h_values =>
    rw [ofItems, itemValues?] at h_values
    split at h_values
    · cases h_values
    · next v h_item =>
      obtain ⟨rest, h_rest, -⟩ := Option.map_eq_some_iff.mp h_values
      rw [List.forall_mem_cons] at h_formed
      rw [Json.fitsItems, Bool.and_eq_true]
      exact ⟨fits_of_value? item h_formed.1 h_item, fits_of_itemValues? items h_formed.2 h_rest⟩

theorem fits_of_memberValues? {depth : Nat} {done vs : List (String × Json)}
    (members : List (String × Json)) (h_formed : ∀ m ∈ members, m.2.WellFormed)
    (h_values : memberValues? depth done (ofMembers members) = some vs) :
    Json.fitsMembers depth members := by
  match members, h_formed, h_values with
  | [], _, _ => rfl
  | (key, value) :: members, h_formed, h_values =>
    rw [ofMembers, memberValues?] at h_values
    split at h_values
    · cases h_values
    · next v h_value =>
      rw [List.forall_mem_cons] at h_formed
      rw [Json.fitsMembers, Bool.and_eq_true]
      exact ⟨fits_of_value? value h_formed.1 h_value,
        fits_of_memberValues? members h_formed.2 h_values⟩

end

/-- The tree of a value that fits is salvaged as this value. -/
theorem salvage_ofJson {depth : Nat} {v : Json} (h_fits : v.fits depth) :
    (ofJson v).salvage = v :=
  salvage_of_value? _ (value?_ofJson v h_fits)

theorem ofItems_eq_map (items : List Json) : ofItems items = items.map ofJson := by
  induction items with
  | nil => rfl
  | cons item rest ih => rw [ofItems, ih, List.map_cons]

end Document

/-! ### Numbers that do not overflow -/

/-- Rounding does not double a number. -/
theorem Binary64.round_le (n : Nat) : round n ≤ 2 * n := by
  by_cases h_zero : n = 0
  · subst h_zero
    decide
  · have h_unit : Nat.pow 2 (n.log2 - 52) ≤ n := calc
      2 ^ (n.log2 - 52) ≤ 2 ^ n.log2 := Nat.pow_le_pow_right (by decide) (Nat.sub_le _ _)
      _ ≤ n := Nat.log2_self_le h_zero
    have h_half := divNearest_mul_le n (Nat.pow 2 (n.log2 - 52))
    rw [round]
    omega

namespace Json

namespace Number

theorem le_foldl_digits (digits : List Digit) (word : Nat) :
    word ≤ digits.foldl (fun acc d => acc * 10 + d.val) word := by
  induction digits generalizing word with
  | nil => exact Nat.le_refl word
  | cons d rest ih =>
    have h_rest := ih (word * 10 + d.val)
    rw [List.foldl_cons]
    omega

/-- Digits that make a number of 64 bits are all appended. -/
theorem appendFront_of_lt (digits : List Digit) (word : Nat)
    (h_lt : digits.foldl (fun acc d => acc * 10 + d.val) word < UInt64.size) :
    appendFront word digits = (digits.foldl (fun acc d => acc * 10 + d.val) word, 0) := by
  induction digits generalizing word with
  | nil => rfl
  | cons d rest ih =>
    rw [List.foldl_cons] at h_lt ⊢
    have h_word := le_foldl_digits rest (word * 10 + d.val)
    rw [appendFront, if_pos (Nat.lt_of_le_of_lt h_word h_lt), ih _ h_lt]

/-- An integer of 64 bits is not too large. -/
theorem overflows_of_lt {n : Number} (h_whole : n.isWhole) (h_lt : n.whole < UInt64.size) :
    n.overflows = false := by
  obtain ⟨negative, whole, fraction, exponent⟩ := n
  rw [isWhole, Bool.and_eq_true, List.isEmpty_iff, Option.isNone_iff_eq_none] at h_whole
  obtain ⟨rfl, rfl⟩ := h_whole
  have h_small : whole < UInt64.size := h_lt
  have h_digits : (Document.digitsOf whole).foldl (fun acc d => acc * 10 + d.val) 0 = whole :=
    Document.value_digitsOf whole
  have h_front : appendFront 0 (Number.wholeDigits ⟨negative, whole, [], none⟩) = (whole, 0) := by
    have h_append := appendFront_of_lt (Document.digitsOf whole) 0 (h_digits.symm ▸ h_small)
    rwa [h_digits] at h_append
  have h_one : Binary64.round (Nat.pow 10 0) = 1 := Binary64.round_of_lt (by decide)
  have h_round : Binary64.round whole * 1 < Binary64.overflow := calc
    Binary64.round whole * 1 ≤ 2 * UInt64.size := by
      have h_le := Binary64.round_le whole
      omega
    _ < Binary64.overflow := Binary64.overflow_bounds.1
  -- Without a fraction and an exponent there is no power of ten, so the digits decide.
  rw [overflows, h_front]
  show (whole != 0 && (decide (Binary64.ceiling ≤ 0) ||
    decide (Binary64.overflow ≤ Binary64.round whole * Binary64.round (Nat.pow 10 0)))) = false
  rw [h_one, decide_eq_false (Nat.not_le.mpr h_round), Bool.or_false,
    decide_eq_false (by decide), Bool.and_false]

theorem isMinusZero_ofInt (i : Int) : (ofInt i).isMinusZero = false := by
  cases i <;> rfl

end Number

/-! ### Codecs -/

namespace Codec

variable {α : Type} {depth : Nat} {c : Codec α} {a : α}

/-- What is written for a value can stand in a text, down to a depth, and has no fault there. -/
structure Accepts (depth : Nat) (c : Codec α) (a : α) : Prop where
  fits : (c.write a).fits depth
  check : c.check depth (.ofJson (c.write a)) = none

/-- The text that is kept of a value. -/
def toText (c : Codec α) (a : α) : String := String.ofList (c.write a).print

/-- **A value is read back from its text**, if it is read back from what is written for it and the
checks find no fault there. -/
theorem ofText_toText (h_keeps : c.Keeps id a) (h_accepts : c.Accepts Document.maxDepth a) :
    c.ofText (c.toText a) = .ok a := by
  have h_read : c.read (c.write a) = some a := h_keeps
  rw [ofText, toText, String.toList_ofList, Document.ofText_print]
  simp only [h_accepts.check, Document.salvage_ofJson h_accepts.fits, h_read, if_true]

/-- The checks find no fault in a text that gives a value. -/
theorem check_of_ofText_toText {b : α} (h_text : c.ofText (c.toText a) = .ok b) :
    c.check Document.maxDepth (.ofJson (c.write a)) = none := by
  rw [ofText, toText, String.toList_ofList, Document.ofText_print] at h_text
  simp only at h_text
  split at h_text
  · cases h_text
  · assumption

/-- A fault that the checks find is the answer to the text. -/
theorem ofText_toText_of_fault {fault : Fault}
    (h_fault : c.check Document.maxDepth (.ofJson (c.write a)) = some fault) :
    c.ofText (c.toText a) = .error fault := by
  rw [ofText, toText, String.toList_ofList, Document.ofText_print]
  simp only [h_fault]

theorem Accepts.text {parse : String → Option α} {print : α → String}
    (h_parse : parse (print a) = some a) : (Codec.text parse print).Accepts depth a where
  fits := rfl
  check := by
    show (if (parse (print a)).isSome then none else some Fault.mismatch) = none
    rw [h_parse]
    rfl

theorem accepts_string (s : String) : Codec.string.Accepts depth s := Accepts.text rfl

theorem accepts_bool (b : Bool) : Codec.bool.Accepts depth b := ⟨rfl, rfl⟩

theorem Accepts.interpreted {read : Json → Option α} {write : α → Json}
    (h_fits : (write a).fits depth) (h_read : read (write a) = some a) :
    (Codec.interpreted read write).Accepts depth a where
  fits := h_fits
  check := by
    show checkValue read depth (.ofJson (write a)) = none
    simp only [checkValue, Document.value?_ofJson (write a) h_fits, h_read, Option.isSome_some,
      if_true]

theorem accepts_natural {high n : Nat} (h_high : n ≤ high) (h_lt : n < UInt64.size) :
    (Codec.natural high).Accepts depth n where
  fits := rfl
  check := by
    have h_over : (Number.ofNat n).overflows = false := Number.overflows_of_lt rfl h_lt
    show checkNumber (fun n => n.natural?.any fun i => decide (i ≤ high)) depth
      (.number (.ofNat n)) = none
    simp [checkNumber, h_over, h_high]

theorem accepts_int64 {i : Int} (h_low : -0x8000000000000000 ≤ i)
    (h_high : i ≤ 0x7fffffffffffffff) : Codec.int64.Accepts depth i where
  fits := by
    show (!(Number.ofInt i).isMinusZero) = true
    rw [Number.isMinusZero_ofInt]
    rfl
  check := by
    -- Both bounds lie within what can be read as a number at all.
    have h_over : (Number.ofInt i).overflows = false := by
      refine Number.overflows_of_lt (by cases i <;> rfl) ?_
      cases i with
      | ofNat n =>
        have h_le : (n : Int) ≤ 0x7fffffffffffffff := h_high
        show n < 0x10000000000000000
        omega
      | negSucc n =>
        show n + 1 < 0x10000000000000000
        omega
    show checkNumber (fun n => !n.isMinusZero && n.integer?.any fun i =>
        decide (-0x8000000000000000 ≤ i ∧ i ≤ 0x7fffffffffffffff)) depth
      (.number (.ofInt i)) = none
    simp [checkNumber, h_over, Number.isMinusZero_ofInt, h_low, h_high]

/-- A null has no fault, and anything else has none as the value has none. -/
theorem Accepts.check_nullable (hc : c.Accepts depth a) :
    c.nullable.check depth (.ofJson (c.write a)) = none := by
  have h_check := hc.check
  -- The check looks at the tree alone, and it does not matter what was written there.
  generalize Document.ofJson (c.write a) = tree at h_check ⊢
  cases tree with
  | null => rfl
  | _ => exact h_check

/-- The text of a list is that of its items, one level deeper. -/
theorem Accepts.list {as : List α} (hc : ∀ a ∈ as, c.Accepts depth a) :
    c.list.Accepts (depth + 1) as where
  fits := by
    show fitsItems depth (as.map c.write) = true
    rw [fitsItems_iff]
    intro v h_mem
    obtain ⟨a, h_mem', rfl⟩ := List.mem_map.mp h_mem
    exact (hc a h_mem').fits
  check := by
    show checkEach c.check depth (Document.ofItems (as.map c.write)) = none
    rw [Document.ofItems_eq_map, checkEach, List.findSome?_eq_none_iff]
    intro tree h_mem
    obtain ⟨v, h_mem', rfl⟩ := List.mem_map.mp h_mem
    obtain ⟨a, h_mem'', rfl⟩ := List.mem_map.mp h_mem'
    exact (hc a h_mem'').check

end Codec

/-! ### Records -/

/-- Members under different keys have no fault, if for each of them the field of its name is found
and has none, and no field is missing that has to be there. -/
theorem checkMembers_ofMembers {fields : List Field} {depth : Nat}
    (members : List (String × Json)) (seen : List String)
    (h_nodup : (members.map Prod.fst).Nodup) (h_new : ∀ m ∈ members, m.1 ∉ seen)
    (h_check : ∀ m ∈ members, ∃ field, fields.find? (·.names m.1) = some field ∧
      field.name = m.1 ∧ field.check depth (.ofJson m.2) = none)
    (h_given : ∀ field ∈ fields, field.mandatory → field.name ∈ seen ∨
      field.name ∈ members.map Prod.fst) :
    checkMembers fields depth seen (Document.ofMembers members) = none := by
  induction members generalizing seen with
  | nil =>
    have h_none : (fields.any fun f => f.mandatory && !seen.contains f.name) = false := by
      rw [List.any_eq_false]
      intro field h_mem
      rw [Bool.and_eq_true, Bool.not_eq_true', not_and, Bool.not_eq_false, List.contains_iff_mem]
      exact fun h_mandatory => (h_given field h_mem h_mandatory).resolve_right List.not_mem_nil
    rw [Document.ofMembers, checkMembers, h_none]
    rfl
  | cons m members ih =>
    obtain ⟨key, value⟩ := m
    obtain ⟨field, h_find, rfl, h_value⟩ := h_check _ List.mem_cons_self
    rw [List.map_cons, List.nodup_cons] at h_nodup
    -- The key has not been seen, so it is no duplicate.
    have h_unseen : seen.contains field.name = false := by
      rw [← Bool.not_eq_true, List.contains_iff_mem]
      exact h_new _ List.mem_cons_self
    rw [Document.ofMembers, checkMembers, h_find]
    simp only [h_unseen, Bool.false_eq_true, if_false, h_value]
    refine ih (field.name :: seen) h_nodup.2 ?_ ?_ ?_
    · intro m h_mem
      rw [List.mem_cons, not_or]
      refine ⟨fun h_name => h_nodup.1 ?_, h_new m (List.mem_cons_of_mem _ h_mem)⟩
      show field.name ∈ members.map Prod.fst
      rw [← h_name]
      exact List.mem_map_of_mem h_mem
    · exact fun m h_mem => h_check m (List.mem_cons_of_mem _ h_mem)
    · -- A field that has to be there was seen, is this one, or is still to come.
      intro other h_mem h_mandatory
      rw [List.mem_cons]
      rcases h_given other h_mem h_mandatory with h_seen | h_member
      · exact Or.inl (Or.inr h_seen)
      · rw [List.map_cons, List.mem_cons] at h_member
        exact h_member.imp_left Or.inl

/-- Members without a fault pass the checks of the fields that are found for them. -/
theorem check_of_checkMembers {fields : List Field} {depth : Nat} {members : List (String × Json)}
    {seen : List String}
    (h_none : checkMembers fields depth seen (Document.ofMembers members) = none)
    {m : String × Json} (h_mem : m ∈ members) {field : Field}
    (h_find : fields.find? (·.names m.1) = some field) :
    field.check depth (.ofJson m.2) = none := by
  induction members generalizing seen with
  | nil => cases h_mem
  | cons first members ih =>
    obtain ⟨key, value⟩ := first
    rw [Document.ofMembers, checkMembers] at h_none
    rcases List.mem_cons.mp h_mem with rfl | h_later
    · rw [h_find] at h_none
      simp only at h_none
      split at h_none
      · cases h_none
      · split at h_none
        · cases h_none
        · assumption
    · -- Whichever field the first member is for, the others are checked as well.
      split at h_none
      · split at h_none
        · exact ih h_none h_later
        · cases h_none
      · split at h_none
        · cases h_none
        · split at h_none
          · cases h_none
          · exact ih h_none h_later

namespace Record

variable {α β : Type} {depth : Nat}

/-- What is written for a value can stand in the text of an object and has no fault there. -/
structure Accepts (depth : Nat) (r : Record α) (a : α) : Prop where
  fits : ∀ m ∈ r.write a, m.2.fits depth
  given : ∀ field ∈ r.fields, field.mandatory → field.name ∈ (r.write a).map Prod.fst
  nodup : r.keys.Nodup → ((r.write a).map Prod.fst).Nodup
  check : r.keys.Nodup → ∀ m ∈ r.write a, ∃ field,
    r.fields.find? (·.names m.1) = some field ∧ field.name = m.1 ∧
      field.check depth (.ofJson m.2) = none

theorem Accepts.mem_keys {r : Record α} {a : α} (hr : r.Accepts depth a) (h_nodup : r.keys.Nodup)
    {key : String} (h_mem : key ∈ (r.write a).map Prod.fst) : key ∈ r.keys := by
  obtain ⟨m, h_member, rfl⟩ := List.mem_map.mp h_mem
  obtain ⟨field, h_find, -⟩ := hr.check h_nodup m h_member
  have h_names := List.find?_some h_find
  rw [← names_iff, names, List.any_eq_true]
  exact ⟨field, List.mem_of_find?_eq_some h_find, h_names⟩

theorem Accepts.single (field : Field) {read : List (Option Json) → Option α}
    {write : α → List (String × Json)} {a : α} {v : Json} (h_write : write a = [(field.name, v)])
    (h_fits : v.fits depth) (h_check : field.check depth (.ofJson v) = none) :
    Accepts depth ⟨[field], read, write⟩ a where
  fits m h_mem := by
    have h_only : m ∈ [(field.name, v)] := h_write ▸ h_mem
    rw [List.mem_singleton.mp h_only]
    exact h_fits
  given other h_mem _ := by
    show other.name ∈ (write a).map Prod.fst
    rw [List.mem_singleton.mp h_mem, h_write]
    exact List.mem_singleton_self _
  nodup _ := by
    show ((write a).map Prod.fst).Nodup
    rw [h_write]
    exact List.nodup_cons.mpr ⟨List.not_mem_nil, List.nodup_nil⟩
  check _ m h_mem := by
    have h_only : m ∈ [(field.name, v)] := h_write ▸ h_mem
    rw [List.mem_singleton.mp h_only]
    exact ⟨field, by simp [Field.names], rfl, h_check⟩

theorem Accepts.absent (field : Field) {read : List (Option Json) → Option α}
    {write : α → List (String × Json)} {a : α} (h_write : write a = [])
    (h_spare : field.mandatory = false) : Accepts depth ⟨[field], read, write⟩ a where
  fits m h_mem := by
    have h_never : m ∈ [] := h_write ▸ h_mem
    cases h_never
  given other h_mem h_mandatory := by
    rw [List.mem_singleton.mp h_mem, h_spare] at h_mandatory
    cases h_mandatory
  nodup _ := by
    show ((write a).map Prod.fst).Nodup
    rw [h_write]
    exact List.nodup_nil
  check _ m h_mem := by
    have h_never : m ∈ [] := h_write ▸ h_mem
    cases h_never

section Fields

variable {name : String} {c : Codec α} {aliases : List String} {a : α}

theorem Accepts.required (hc : c.Accepts depth a) :
    (Record.required name c aliases).Accepts depth a :=
  Accepts.single ⟨name, aliases, true, c.check⟩ rfl hc.fits hc.check

theorem Accepts.defaulted {default : α} (hc : c.Accepts depth a) :
    (Record.defaulted name c default aliases).Accepts depth a :=
  Accepts.single ⟨name, aliases, false, c.check⟩ rfl hc.fits hc.check

theorem Accepts.optional {given : Option α} (hc : ∀ a ∈ given, c.Accepts depth a) :
    (Record.optional name c aliases).Accepts depth given := by
  cases given with
  | none => exact Accepts.absent ⟨name, aliases, false, c.nullable.check⟩ rfl rfl
  | some a =>
    exact Accepts.single ⟨name, aliases, false, c.nullable.check⟩ rfl (hc a rfl).fits
      (hc a rfl).check_nullable

theorem Accepts.listed {as : List α} (hc : c.list.Accepts depth as) :
    (Record.listed name c aliases).Accepts depth as := by
  cases as with
  | nil => exact Accepts.absent ⟨name, aliases, false, c.list.check⟩ rfl rfl
  | cons a rest =>
    exact Accepts.single ⟨name, aliases, false, c.list.check⟩ rfl hc.fits hc.check

end Fields

/-- Two records have no fault together if neither has one. -/
theorem Accepts.and {a : Record α} {b : Record β} {p : α × β} (ha : a.Accepts depth p.1)
    (hb : b.Accepts depth p.2) : (a.and b).Accepts depth p where
  fits m h_mem := (List.mem_append.mp h_mem).elim (ha.fits m) (hb.fits m)
  given field h_mem h_mandatory := by
    show field.name ∈ (a.write p.1 ++ b.write p.2).map Prod.fst
    rw [List.map_append, List.mem_append]
    exact (List.mem_append.mp h_mem).imp (ha.given field · h_mandatory)
      (hb.given field · h_mandatory)
  nodup h_nodup := by
    rw [keys_and, List.nodup_append] at h_nodup
    obtain ⟨h_left, h_right, h_disjoint⟩ := h_nodup
    show ((a.write p.1 ++ b.write p.2).map Prod.fst).Nodup
    rw [List.map_append, List.nodup_append]
    refine ⟨ha.nodup h_left, hb.nodup h_right, fun key h_key other h_other => ?_⟩
    exact h_disjoint key (ha.mem_keys h_left h_key) other (hb.mem_keys h_right h_other)
  check h_nodup m h_mem := by
    rw [keys_and, List.nodup_append] at h_nodup
    obtain ⟨h_left, h_right, h_disjoint⟩ := h_nodup
    show ∃ field, (a.fields ++ b.fields).find? (·.names m.1) = some field ∧ _
    rw [List.find?_append]
    rcases List.mem_append.mp h_mem with h_first | h_second
    · obtain ⟨field, h_find, h_field⟩ := ha.check h_left m h_first
      exact ⟨field, by rw [h_find, Option.some_or], h_field⟩
    · obtain ⟨field, h_find, h_field⟩ := hb.check h_right m h_second
      have h_key := hb.mem_keys h_right (List.mem_map_of_mem h_second)
      -- The name of the second record is none of the first one.
      have h_none : a.fields.find? (·.names m.1) = none := by
        rw [List.find?_eq_none]
        intro other h_other h_names
        refine h_disjoint m.1 ?_ m.1 h_key rfl
        rw [← names_iff, names, List.any_eq_true]
        exact ⟨other, h_other, h_names⟩
      exact ⟨field, by rw [h_none, Option.none_or, h_find], h_field⟩

theorem Accepts.map {r : Record α} {make : α → β} {parts : β → α} {b : β}
    (hr : r.Accepts depth (parts b)) : (r.map make parts).Accepts depth b :=
  ⟨hr.fits, hr.given, hr.nodup, hr.check⟩

/-- Without a fault in a record there is none in what is written for its fields. -/
theorem check_of_codec {r : Record α} {a : α}
    (h_check : r.codec.check (depth + 1) (.ofJson (r.codec.write a)) = none)
    {m : String × Json} (h_mem : m ∈ r.write a) {field : Field}
    (h_find : r.fields.find? (·.names m.1) = some field) :
    field.check depth (.ofJson m.2) = none := by
  have h_members : checkMembers r.fields depth [] (Document.ofMembers (r.write a)) = none := h_check
  exact check_of_checkMembers h_members h_mem h_find

/-- The text of a record is that of its members, one level deeper. -/
theorem Accepts.codec {r : Record α} {a : α} (hr : r.Accepts depth a)
    (h_distinct : r.distinct = true) : r.codec.Accepts (depth + 1) a where
  fits := fits_object (hr.nodup (of_decide_eq_true h_distinct)) hr.fits
  check := by
    have h_nodup : r.keys.Nodup := of_decide_eq_true h_distinct
    show checkMembers r.fields depth [] (Document.ofMembers (r.write a)) = none
    exact checkMembers_ofMembers _ [] (hr.nodup h_nodup) (fun _ _ => List.not_mem_nil)
      (hr.check h_nodup) fun field h_mem h_mandatory => Or.inr (hr.given field h_mem h_mandatory)

end Record

end Json

end RosettaGateway
