import RosettaGateway.Proofs.Text

/-!
# What is read as hexadecimal text

Addresses, hashes and byte strings are read from texts that spell digits (`Hex.Spells`), and differ
in how many digits they admit (`Hex.Reads`). `Hex.decode?_eq_some_iff` says what digits are read as,
which is the bytes that have these digits, up to the case of letters; so no reader tells two cases
apart, and the checksum of an address, which is in the case of its letters, may be any.

Whether a text is an address is also told from its bytes, without reading it (`Address.isHex`). A
character beyond `128` takes several bytes, of which the first is never a digit, so that forty bytes
that are digits are forty characters (`Hex.all_isDigitByte_encode`).

`Hex.texts_read` puts this together for the three readers.
-/

namespace RosettaGateway

/-! ### Digits -/

namespace Hex

/-- A hexadecimal digit of either case. -/
def IsDigit (c : Char) : Prop := '0' ≤ c ∧ c ≤ '9' ∨ 'a' ≤ c ∧ c ≤ 'f' ∨ 'A' ≤ c ∧ c ≤ 'F'

instance : DecidablePred IsDigit := fun _ => inferInstanceAs (Decidable (_ ∨ _ ∨ _))

theorem IsDigit.lt {c : Char} (h_c : IsDigit c) : c.toNat < 128 := by
  have h_le : ∀ {d : Char}, c ≤ d → d.toNat < 128 → c.toNat < 128 := fun h_d h_lt =>
    Nat.lt_of_le_of_lt (UInt32.le_iff_toNat_le.mp h_d) h_lt
  rcases h_c with ⟨-, h_9⟩ | ⟨-, h_f⟩ | ⟨-, h_F⟩
  · exact h_le h_9 (by decide)
  · exact h_le h_f (by decide)
  · exact h_le h_F (by decide)

theorem isSome_value?_iff (c : Char) : (value? c).isSome = true ↔ IsDigit c := by
  unfold value? IsDigit
  split
  · next h => simp [h]
  · split
    · next h => simp [h]
    · split
      · next h => simp [h]
      · next h_9 h_f h_F => simp [h_9, h_f, h_F]

/-- In either case a digit has the same value. -/
theorem value?_toLower (c : Char) : value? c.toLower = value? c := by
  by_cases h_ascii : c.toNat < 128
  · exact Ascii.forall_of_lt (P := fun c => value? c.toLower = value? c) (by decide) h_ascii
  · rw [Ascii.toLower_of_le (Nat.not_lt.mp h_ascii)]

/-- A digit with some value is the digit of this value, up to its case. -/
theorem toLower_of_value? {c : Char} {n : Nat} (h_value : value? c = some n) :
    n < 16 ∧ c.toLower = digit n := by
  have h_c : IsDigit c := (isSome_value?_iff c).mp (h_value ▸ rfl)
  exact Ascii.forall_of_lt (P := fun c => ∀ n ∈ value? c, n < 16 ∧ c.toLower = digit n)
    (by decide) h_c.lt n h_value

/-- The halves of bytes, the high one of each first. -/
def halves (bytes : Octets) : List Nat := bytes.flatMap fun b => [b.toNat / 16, b.toNat % 16]

theorem digits_eq_map (bytes : Octets) : digits bytes = (halves bytes).map digit := by
  induction bytes with
  | nil => rfl
  | cons b rest ih =>
    rw [digits, ih]
    rfl

theorem lt_of_mem_halves {bytes : Octets} {n : Nat} (h_mem : n ∈ halves bytes) : n < 16 := by
  obtain ⟨b, -, h_n⟩ := List.mem_flatMap.mp h_mem
  have h_b := b.toNat_lt
  rcases List.mem_cons.mp h_n with rfl | h_n
  · omega
  · rw [List.mem_singleton.mp h_n]
    omega

theorem decode?_map_toLower : ∀ cs : List Char, decode? (cs.map Char.toLower) = decode? cs
  | [] => rfl
  | [_] => rfl
  | high :: low :: rest => by
    simp only [List.map_cons, decode?, value?_toLower, decode?_map_toLower rest]

/-- A pair of digits is read if both and all behind them are. -/
theorem decode?_pair_eq_some_iff {high low : Char} {rest : List Char} {bytes : Octets} :
    decode? (high :: low :: rest) = some bytes ↔ ∃ h l bytes', value? high = some h ∧
      value? low = some l ∧ decode? rest = some bytes' ∧
      bytes = UInt8.ofNat (h * 16 + l) :: bytes' := by
  rw [decode?]
  cases value? high with
  | none => simp
  | some h =>
    cases value? low with
    | none => simp
    | some l =>
      cases decode? rest with
      | none => simp
      | some bytes' => simp [eq_comm]

theorem map_toLower_of_decode? : ∀ {cs : List Char} {bytes : Octets},
    decode? cs = some bytes → cs.map Char.toLower = digits bytes
  | [], _, h_read => by
    cases h_read
    rfl
  | [_], _, h_read => by cases h_read
  | high :: low :: rest, _, h_read => by
    obtain ⟨h, l, bytes, h_high, h_low, h_rest, rfl⟩ := decode?_pair_eq_some_iff.mp h_read
    obtain ⟨h_lt, h_high⟩ := toLower_of_value? h_high
    obtain ⟨l_lt, h_low⟩ := toLower_of_value? h_low
    have h_byte : (UInt8.ofNat (h * 16 + l)).toNat = h * 16 + l :=
      UInt8.toNat_ofNat_of_lt' (by show _ < 256; omega)
    rw [List.map_cons, List.map_cons, map_toLower_of_decode? h_rest, digits, h_byte, h_high, h_low,
      show (h * 16 + l) / 16 = h by omega, show (h * 16 + l) % 16 = l by omega]

/-- **What digits are read as**: the bytes with these digits, up to the case of letters. -/
theorem decode?_eq_some_iff {cs : List Char} {bytes : Octets} :
    decode? cs = some bytes ↔ cs.map Char.toLower = digits bytes := by
  refine ⟨map_toLower_of_decode?, fun h_digits => ?_⟩
  rw [← decode?_map_toLower, h_digits, decode?_digits]

/-- **Which digits are read**: those that make pairs. -/
theorem isSome_decode?_iff : ∀ cs : List Char,
    (decode? cs).isSome = true ↔ 2 ∣ cs.length ∧ ∀ c ∈ cs, IsDigit c
  | [] => by simp [decode?]
  | [_] => by simp [decode?]
  | high :: low :: rest => by
    have ih := isSome_decode?_iff rest
    have h_length : 2 ∣ (high :: low :: rest).length ↔ 2 ∣ rest.length := by
      simp only [List.length_cons]
      omega
    rw [h_length, List.forall_mem_cons, List.forall_mem_cons, ← isSome_value?_iff,
      ← isSome_value?_iff, and_left_comm, and_left_comm (a := 2 ∣ _), ← ih, decode?]
    cases value? high <;> cases value? low <;> cases decode? rest <;> simp

/-! ### Texts -/

/-- A text spells digits: they are all of it, or what stands behind one marker. -/
inductive Spells (ds : List Char) : String → Prop
  | plain : Spells ds (String.ofList ds)
  | lower : Spells ds (String.ofList ('0' :: 'x' :: ds))
  | upper : Spells ds (String.ofList ('0' :: 'X' :: ds))

variable {ds : List Char} {s : String}

theorem spells_dropMarker (s : String) : Spells (dropMarker s.toList) s := by
  have h_all : ∀ cs : List Char, Spells (dropMarker cs) (String.ofList cs) := by
    intro cs
    unfold dropMarker
    split
    · exact .lower
    · exact .upper
    · exact .plain
  have h_s := h_all s.toList
  rwa [String.ofList_toList] at h_s

/-- Digits have no marker that could be dropped. -/
theorem Spells.dropMarker_eq (h_s : Spells ds s) (h_ds : ∀ c ∈ ds, IsDigit c) :
    dropMarker s.toList = ds := by
  cases h_s with
  | lower => rw [String.toList_ofList]; rfl
  | upper => rw [String.toList_ofList]; rfl
  | plain =>
    rw [String.toList_ofList]
    unfold dropMarker
    split
    · exact absurd (h_ds 'x' (by simp)) (by decide)
    · exact absurd (h_ds 'X' (by simp)) (by decide)
    · rfl

theorem Spells.ofText?_eq (h_s : Spells ds s) (h_ds : ∀ c ∈ ds, IsDigit c) :
    ofText? s = decode? ds := by
  rw [ofText?, h_s.dropMarker_eq h_ds]

/-- The digits that a text spells are what is left of it without a marker. -/
theorem exists_spells_iff {P : List Char → Prop} :
    (∃ ds, Spells ds s ∧ P ds ∧ ∀ c ∈ ds, IsDigit c) ↔
      P (dropMarker s.toList) ∧ ∀ c ∈ dropMarker s.toList, IsDigit c := by
  constructor
  · rintro ⟨ds, h_s, h_P, h_ds⟩
    rw [h_s.dropMarker_eq h_ds]
    exact ⟨h_P, h_ds⟩
  · rintro ⟨h_P, h_ds⟩
    exact ⟨_, spells_dropMarker s, h_P, h_ds⟩

theorem forall_isDigit_map_toLower_iff :
    (∀ c ∈ ds.map Char.toLower, IsDigit c) ↔ ∀ c ∈ ds, IsDigit c := by
  simp only [List.forall_mem_map, ← isSome_value?_iff, value?_toLower]

/-! ### Readers -/

/-- A reader accepts the spellings of digits and nothing else, if it admits their number, and it
tells neither the markers nor the cases of a letter apart. -/
structure Reads {α : Type} (read : String → Option α) (admits : Nat → Prop) : Prop where
  isSome_iff : ∀ s, (read s).isSome = true ↔
    ∃ ds, Spells ds s ∧ admits ds.length ∧ ∀ c ∈ ds, IsDigit c
  congr : ∀ {ds ds' : List Char} {s s' : String}, Spells ds s → Spells ds' s' →
    (∀ c ∈ ds, IsDigit c) → ds.map Char.toLower = ds'.map Char.toLower → read s = read s'

/-- Byte strings are read from any even number of digits. -/
theorem reads_ofText? : Reads ofText? (2 ∣ ·) where
  isSome_iff s := (isSome_decode?_iff _).trans
    (exists_spells_iff (P := fun ds => 2 ∣ ds.length)).symm
  congr {ds ds' s s'} h_s h_s' h_ds h_case := by
    have h_ds' : ∀ c ∈ ds', IsDigit c := by
      rwa [← forall_isDigit_map_toLower_iff, ← h_case, forall_isDigit_map_toLower_iff]
    rw [h_s.ofText?_eq h_ds, h_s'.ofText?_eq h_ds', ← decode?_map_toLower, h_case,
      decode?_map_toLower]

theorem length_of_decode? {bytes : Octets} (h_read : decode? ds = some bytes) :
    ds.length = 2 * bytes.length := by
  rw [← List.length_map (f := Char.toLower), decode?_eq_some_iff.mp h_read, length_digits]

/-- Where byte strings have to be of one length, one number of digits is admitted. -/
theorem reads_bind {α : Type} (make : Octets → Option α) (count : Nat)
    (h_make : ∀ bytes, (make bytes).isSome = true ↔ bytes.length = count) :
    Reads (fun s => (ofText? s).bind make) (· = 2 * count) where
  isSome_iff s := by
    rw [exists_spells_iff (P := fun ds => ds.length = 2 * count)]
    constructor
    · intro h_read
      obtain ⟨a, h_a⟩ := Option.isSome_iff_exists.mp h_read
      obtain ⟨bytes, h_bytes, h_some⟩ := Option.bind_eq_some_iff.mp h_a
      obtain ⟨-, h_ds⟩ := (isSome_decode?_iff _).mp (Option.isSome_of_eq_some h_bytes)
      rw [length_of_decode? h_bytes, (h_make bytes).mp (Option.isSome_of_eq_some h_some)]
      exact ⟨rfl, h_ds⟩
    · -- An even number of digits makes bytes, and the number of these decides.
      rintro ⟨h_count, h_ds⟩
      obtain ⟨bytes, h_bytes⟩ := Option.isSome_iff_exists.mp
        ((isSome_decode?_iff _).mpr ⟨⟨count, h_count⟩, h_ds⟩)
      have h_length := length_of_decode? h_bytes
      rw [ofText?, h_bytes, Option.bind_some, h_make]
      omega
  congr h_s h_s' h_ds h_case := by
    rw [reads_ofText?.congr h_s h_s' h_ds h_case]

end Hex

/-! ### Bytes of a text -/

namespace Hex

/-- A digit is a byte of its own, and of all characters only digits have nothing but digits as their
bytes. -/
theorem isDigitByte_utf8EncodeChar (c : Char) :
    ((String.utf8EncodeChar c).all isDigitByte = true ↔ IsDigit c) ∧
      (IsDigit c → (String.utf8EncodeChar c).length = 1) := by
  by_cases h_ascii : c.toNat < 128
  · exact Ascii.forall_of_lt (P := fun c => ((String.utf8EncodeChar c).all isDigitByte = true ↔
      IsDigit c) ∧ (IsDigit c → (String.utf8EncodeChar c).length = 1)) (by decide) h_ascii
  · have h_c : ¬ IsDigit c := fun h_c => h_ascii h_c.lt
    refine ⟨iff_of_false (fun h_all => ?_) h_c, fun h_digit => absurd h_digit h_c⟩
    -- The first of several bytes is beyond all digits.
    obtain ⟨b, rest, h_bytes, h_b⟩ :
        ∃ b rest, String.utf8EncodeChar c = b :: rest ∧ 128 ≤ b.toNat := by
      have h_v : ¬ c.val.toNat ≤ 127 := fun h_le => h_ascii (Nat.lt_succ_of_le h_le)
      simp only [String.utf8EncodeChar, if_neg h_v]
      split
      · exact ⟨_, _, rfl, by rw [UInt8.toNat_ofNat']; omega⟩
      · split
        · exact ⟨_, _, rfl, by rw [UInt8.toNat_ofNat']; omega⟩
        · exact ⟨_, _, rfl, by rw [UInt8.toNat_ofNat']; omega⟩
    rw [h_bytes, List.all_cons, Bool.and_eq_true] at h_all
    have h_digit := h_all.1
    simp only [isDigitByte, Bool.or_eq_true, Bool.and_eq_true, decide_eq_true_eq,
      UInt8.le_iff_toNat_le, UInt8.reduceToNat] at h_digit
    omega

theorem encode_ofList (cs : List Char) :
    Utf8.encode (String.ofList cs) = cs.flatMap String.utf8EncodeChar := by
  rw [Utf8.encode, String.toByteArray_ofList, List.utf8Encode, List.toList_data_toByteArray]

/-- The bytes of a text are digits just if its characters are, and then there are as many. -/
theorem all_isDigitByte_encode (cs : List Char) :
    ((Utf8.encode (String.ofList cs)).all isDigitByte = true ↔ ∀ c ∈ cs, IsDigit c) ∧
      ((∀ c ∈ cs, IsDigit c) → (Utf8.encode (String.ofList cs)).length = cs.length) := by
  rw [encode_ofList]
  induction cs with
  | nil => simp
  | cons c rest ih =>
    obtain ⟨ih_all, ih_length⟩ := ih
    obtain ⟨h_all, h_length⟩ := isDigitByte_utf8EncodeChar c
    rw [List.flatMap_cons, List.all_append, Bool.and_eq_true, h_all, ih_all, List.forall_mem_cons,
      List.length_append, List.length_cons]
    exact ⟨Iff.rfl, fun ⟨h_c, h_rest⟩ => by rw [h_length h_c, ih_length h_rest, Nat.add_comm]⟩

end Hex

/-! ### Addresses and hashes -/

theorem Hash.reads_ofText? : Hex.Reads Hash.ofText? (· = 64) :=
  Hex.reads_bind Hash.ofBytes? 32 fun bytes => by
    unfold Hash.ofBytes?
    split <;> simp [*]

namespace Address

theorem reads_ofText? : Hex.Reads ofText? (· = 40) :=
  Hex.reads_bind ofBytes? 20 fun bytes => by
    unfold ofBytes?
    split <;> simp [*]

/-- The check of the bytes of a text admits what is read. -/
theorem isHex_eq (s : String) : isHex s = (ofText? s).isSome := by
  obtain ⟨h_all, h_length⟩ := Hex.all_isDigitByte_encode (Hex.dropMarker s.toList)
  rw [Bool.eq_iff_iff, reads_ofText?.isSome_iff,
    Hex.exists_spells_iff (P := fun ds => ds.length = 40), isHex, Bool.and_eq_true, h_all,
    beq_iff_eq]
  exact and_congr_left fun h_ds => by rw [h_length h_ds]

/-- Without its capitals the written form is the marked digits. -/
theorem map_toLower_toText (a : Address) :
    a.toText.toList.map Char.toLower = (Hex.marked a.bytes).toList := by
  have h_digits : a.checksumDigits.map Char.toLower = Hex.digits a.bytes :=
    Hex.decode?_eq_some_iff.mp (decode?_checksumDigits a)
  rw [toText, Hex.marked, String.toList_ofList, String.toList_ofList, List.map_cons, List.map_cons,
    h_digits]
  rfl

/-- The digit of a digest makes a capital if it stands for eight or more. -/
theorem caseOf_digit {n : Nat} (h_lt : n < 16) (c : Char) :
    caseOf c (Hex.digit n) = if 8 ≤ n then c.toUpper else c := by
  have h_all : ∀ n ∈ List.range 16,
      (Hex.digit n ∈ ['8', '9', 'a', 'b', 'c', 'd', 'e', 'f'] ↔ 8 ≤ n) := by decide
  simp only [caseOf, h_all n (List.mem_range.mpr h_lt)]

theorem zipWith_caseOf (cs : List Char) {halves : List Nat} (h_halves : ∀ n ∈ halves, n < 16) :
    List.zipWith caseOf cs (halves.map Hex.digit) =
      List.zipWith (fun c n => if 8 ≤ n then c.toUpper else c) cs halves := by
  induction halves generalizing cs with
  | nil => rw [List.map_nil, List.zipWith_nil_right, List.zipWith_nil_right]
  | cons n rest ih =>
    cases cs with
    | nil => rfl
    | cons c cs =>
      obtain ⟨h_n, h_rest⟩ := List.forall_mem_cons.mp h_halves
      rw [List.map_cons, List.zipWith_cons_cons, List.zipWith_cons_cons, caseOf_digit h_n,
        ih cs h_rest]

/-- **Checksums.** A letter of the written form is a capital where the half byte of the digest at
its place is eight or more. -/
theorem checksumDigits_eq (a : Address) :
    a.checksumDigits = List.zipWith (fun c n => if 8 ≤ n then c.toUpper else c)
      (Hex.digits a.bytes) (Hex.halves (keccakText (Hex.plain a.bytes)).bytes) := by
  rw [← zipWith_caseOf _ fun _ => Hex.lt_of_mem_halves, ← Hex.digits_eq_map]
  rfl

end Address

namespace Hex

/-- **Text forms.** Addresses, hashes and byte strings are read back from what is written of them.
An address is written as its marked digits, with the capitals that its checksum asks for. What is
read has forty, sixty-four or any even number of digits behind one marker or none, and nothing else
is read; neither the marker nor the case of letters makes a difference. The check of the bytes of a
text admits what is read as an address. -/
theorem texts_read :
    (∀ a : Address, Address.ofText? a.toText = some a ∧
      a.toText.toList.map Char.toLower = (marked a.bytes).toList ∧
      a.checksumDigits = List.zipWith (fun c n => if 8 ≤ n then c.toUpper else c)
        (digits a.bytes) (halves (keccakText (plain a.bytes)).bytes)) ∧
    (∀ s, (Address.ofText? s).isSome = Address.isHex s) ∧ Reads Address.ofText? (· = 40) ∧
    (∀ h : Hash, Hash.ofText? h.toText = some h) ∧ Reads Hash.ofText? (· = 64) ∧
    (∀ bytes, ofText? (marked bytes) = some bytes) ∧ Reads ofText? (2 ∣ ·) := by
  refine ⟨fun a => ?_, fun s => ?_, ?_, ?_, ?_, ?_, ?_⟩
  · exact ⟨a.ofText?_toText, a.map_toLower_toText, a.checksumDigits_eq⟩
  · exact (Address.isHex_eq s).symm
  · exact Address.reads_ofText?
  · exact Hash.ofText?_toText
  · exact Hash.reads_ofText?
  · exact ofText?_marked
  · exact reads_ofText?

/-- Capitals behind a marker and small letters without one are the same address. -/
theorem texts_read_capitals :
    let ds := List.replicate 40 'B'
    let ds' := List.replicate 40 'b'
    Spells ds (String.ofList ('0' :: 'X' :: ds)) ∧ Spells ds' (String.ofList ds') ∧
      (∀ c ∈ ds, IsDigit c) ∧ ds.map Char.toLower = ds'.map Char.toLower ∧
      (Address.ofText? (String.ofList ds')).isSome = true ∧
      Address.ofText? (String.ofList ('0' :: 'X' :: ds)) = Address.ofText? (String.ofList ds') := by
  intro ds ds'
  have h_ds : ∀ c ∈ ds, IsDigit c := List.forall_mem_replicate.mpr (Or.inr (by decide))
  have h_ds' : ∀ c ∈ ds', IsDigit c := List.forall_mem_replicate.mpr (Or.inr (by decide))
  have h_case : ds.map Char.toLower = ds'.map Char.toLower := by decide
  obtain ⟨-, -, h_reads, -⟩ := texts_read
  exact ⟨.upper, .plain, h_ds, h_case, (h_reads.isSome_iff _).mpr ⟨ds', .plain, rfl, h_ds'⟩,
    h_reads.congr .upper .plain h_ds h_case⟩

end Hex

end RosettaGateway
