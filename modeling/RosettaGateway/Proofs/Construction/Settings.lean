import RosettaGateway.Proofs.Construction.Payloads
import RosettaGateway.Proofs.Metadata
import RosettaGateway.Proofs.Quantities

/-!
# Settings of a construction

A client may choose the gas limit, the gas price and the data of a contract call. `preprocess` hands
these settings on as they are spelt, together with what is known from the operations alone.

* `Json.Spells`, `Json.SpellsBytes` — the spellings of a number and of a byte string;
* `Metadata.Chosen` — a setting is the one that the client has given, or else a default;
* `Construction.Heeds` — a call has the settings that the client has chosen;
* `Construction.optionsOf` — the options of `preprocess`, in which the settings are unchanged
  (`Construction.present?_optionsOf`).
-/

namespace RosettaGateway

/-! ### Spellings -/

namespace Json

/-- A value spells a natural number: as a number, as decimal text, or as hexadecimal text behind its
marker. -/
inductive Spells : Json → Nat → Prop
  | number (n : Nat) : Spells (.ofNat n) n
  | decimal (n : Nat) : Spells (.string (Numeral.ofNat n)) n
  | hexadecimal (n : Nat) :
    Spells (.string (String.ofList ('0' :: 'x' :: Nat.toDigits 16 n))) n

/-- A value spells a byte string: as digits behind a marker, or without one. -/
inductive SpellsBytes : Json → Octets → Prop
  | marked (bytes : Octets) : SpellsBytes (.string (Hex.marked bytes)) bytes
  | plain (bytes : Octets) : SpellsBytes (.string (Hex.plain bytes)) bytes

variable {v : Json} {n : Nat} {bytes : Octets}

theorem Spells.isNull (h_spells : v.Spells n) : v.isNull = false := by
  cases h_spells <;> rfl

theorem SpellsBytes.isNull (h_spells : v.SpellsBytes bytes) : v.isNull = false := by
  cases h_spells <;> rfl

theorem Spells.renders (h_spells : v.Spells n) : v.Renders n := by
  cases h_spells with
  | number => exact .number n
  | decimal =>
    have h_text : (Json.string (String.ofList ([] ++ Nat.toDigits 10 n ++ []))).Renders n :=
      .decimal (Numeral.spelledBy_toDigits (by decide) (by decide) n) nofun nofun
    rwa [List.append_nil] at h_text
  | hexadecimal =>
    have h_text :
        (Json.string (String.ofList ([] ++ '0' :: 'x' :: Nat.toDigits 16 n ++ []))).Renders n :=
      .hexadecimal (Numeral.spelledBy_toDigits (by decide) (by decide) n) (Or.inl rfl) nofun nofun
    rwa [List.append_nil] at h_text

/-- A counter is an amount that fits. -/
theorem Spells.counter (h_spells : v.Spells n) : Counter.ofJson? v = Counter.ofNat? n := by
  rw [Counter.ofJson?_eq, h_spells.renders.wei, Option.bind_some]

theorem SpellsBytes.readBytes (h_spells : v.SpellsBytes bytes) :
    Metadata.readBytes v = .ok bytes := by
  cases h_spells with
  | marked => simp only [Metadata.readBytes, Metadata.readString, Hex.ofText?_marked]
  | plain => simp only [Metadata.readBytes, Metadata.readString, Hex.ofText?_plain]

end Json

/-- A counter in decimal is read as it is. -/
theorem Metadata.readCounter_decimal (n : UInt64) :
    readCounter (.string (Numeral.ofNat n.toNat)) = .ok n := by
  rw [readCounter, (Json.Spells.decimal n.toNat).counter, Counter.ofNat?_eq_some_iff.mpr rfl]

/-! ### Settings -/

namespace Metadata

variable {α : Type} {m m' : Metadata} {key : String} {reading : Json → Except EntryFault α}

/-- A setting is what an entry is read as, or a default if the entry is missing or `null`. -/
def Chosen (m : Metadata) (key : String) (reading : Json → Except EntryFault α) (default a : α) :
    Prop :=
  m.present? key = none ∧ a = default ∨ ∃ v, m.present? key = some v ∧ reading v = .ok a

theorem present?_eq_some_iff {v : Json} :
    m.present? key = some v ↔ m.get? key = some v ∧ v.isNull = false := by
  rw [present?, Option.filter_eq_some_iff]
  simp

/-- The entries under some keys, without those that are `null`. -/
def given (m : Metadata) (keys : List String) : List (String × Json) :=
  keys.filterMap fun key => (m.present? key).map (key, ·)

theorem mem_given {keys : List String} {v : Json} (h_key : key ∈ keys)
    (h_present : m.present? key = some v) : (key, v) ∈ m.given keys :=
  List.mem_filterMap.mpr ⟨key, h_key, by rw [h_present]; rfl⟩

theorem keys_given_sublist (m : Metadata) (keys : List String) :
    ((m.given keys).map Prod.fst).Sublist keys := by
  induction keys with
  | nil => exact .slnil
  | cons key rest ih =>
    cases h_present : m.present? key with
    | none =>
      rw [given, List.filterMap_cons_none (by rw [h_present]; rfl)]
      exact ih.cons key
    | some v =>
      rw [given, List.filterMap_cons_some (by rw [h_present]; rfl), List.map_cons]
      exact ih.cons_cons key

theorem not_mem_keys_given (h_present : m.present? key = none) (keys : List String) :
    key ∉ (m.given keys).map Prod.fst := by
  intro h_in
  obtain ⟨⟨_, v⟩, h_mem, rfl⟩ := List.mem_map.mp h_in
  obtain ⟨key', -, h_some⟩ := List.mem_filterMap.mp h_mem
  obtain ⟨v', h_given, h_eq⟩ := Option.map_eq_some_iff.mp h_some
  cases h_eq
  rw [h_given] at h_present
  cases h_present

/-- What is read from an entry does not depend on other entries. -/
theorem read?_congr (h_present : m.present? key = m'.present? key) :
    m.read? key reading = m'.read? key reading := by
  rw [read?, read?, h_present]

theorem chosen_of_read? {found : Option α} (h_read : m.read? key reading = .ok found)
    (default : α) : m.Chosen key reading default (found.getD default) := by
  unfold read? at h_read
  split at h_read
  · next h_none =>
    cases h_read
    exact Or.inl ⟨h_none, rfl⟩
  · next v h_some =>
    split at h_read
    · next a h_a =>
      cases h_read
      exact Or.inr ⟨v, h_some, h_a⟩
    · cases h_read

/-- A setting that is there is not the default. -/
theorem Chosen.reading_eq {default a : α} (h_chosen : m.Chosen key reading default a) {v : Json}
    (h_get : m.get? key = some v) (h_null : v.isNull = false) : reading v = .ok a := by
  have h_there : m.present? key = some v := present?_eq_some_iff.mpr ⟨h_get, h_null⟩
  rcases h_chosen with ⟨h_none, -⟩ | ⟨v', h_some, h_read⟩
  · rw [h_there] at h_none
    cases h_none
  · rw [h_there] at h_some
    cases h_some
    exact h_read

end Metadata

namespace Construction

/-- A contract call heeds what the client has chosen: each setting is the one that was given, in
whatever spelling it can be read from, and those that were not given are the defaults for the
height. -/
structure Heeds (chosen : Metadata) (height : UInt64) (call : Tx.SmartContract) : Prop where
  gasLimit : chosen.Chosen "gas_limit" Metadata.readCounter (Chain.maxGasLimit height) call.gasLimit
  gasPrice : chosen.Chosen "gas_price" Metadata.readAmount (Chain.minimumGasPrice height)
    call.gasPrice
  data : chosen.Chosen "data" Metadata.readBytes [] call.data

namespace Heeds

variable {chosen : Metadata} {height : UInt64} {call : Tx.SmartContract} {v : Json} {n : Nat}
  {bytes : Octets}

/-- A gas limit that is given is that of the call, as a number, in decimal and in hexadecimal. -/
theorem toNat_gasLimit (h_heeds : Heeds chosen height call)
    (h_get : chosen.get? "gas_limit" = some v) (h_spells : v.Spells n) :
    call.gasLimit.toNat = n := by
  have h_read := h_heeds.gasLimit.reading_eq h_get h_spells.isNull
  rw [Metadata.readCounter, h_spells.counter] at h_read
  split at h_read
  · next h_fits =>
    cases h_read
    exact Counter.ofNat?_eq_some_iff.mp h_fits
  · cases h_read

theorem gasPrice_eq (h_heeds : Heeds chosen height call)
    (h_get : chosen.get? "gas_price" = some v) (h_spells : v.Spells n) : call.gasPrice = n := by
  have h_read := h_heeds.gasPrice.reading_eq h_get h_spells.isNull
  rw [Metadata.readAmount, h_spells.renders.wei] at h_read
  cases h_read
  rfl

theorem data_eq (h_heeds : Heeds chosen height call) (h_get : chosen.get? "data" = some v)
    (h_spells : v.SpellsBytes bytes) : call.data = bytes := by
  have h_read := h_heeds.data.reading_eq h_get h_spells.isNull
  rw [h_spells.readBytes] at h_read
  cases h_read
  rfl

end Heeds

/-! ### Options -/

/-- The options that go with an intent. -/
def intentOptions (intent : Intent) : List (String × Json) :=
  [("type", .ofNat intent.kind.code.toNat), ("signer", .string intent.signer.toText)] ++
    intent.fee?.toList.map fun fee => ("fee", .string (Numeral.ofInt fee))

/-- The options that go with an intent and the settings of a client. -/
def optionsOf (intent : Intent) (chosen : Metadata) : List (String × Json) :=
  intentOptions intent ++ chosen.given callSettings

variable {ops : List Operation} {caller : Option Metadata} {options chosen : Metadata}
  {intent : Intent}

theorem preprocess_eq_ok_iff :
    preprocess ops caller = .ok options ↔
      ∃ intent, intentOf ops = .ok intent ∧
        options = .ofList (optionsOf intent (caller.getD .empty)) := by
  simp only [preprocess, Outcome.bind_eq_ok_iff, Outcome.pure_eq_ok_iff]
  rfl

theorem keys_intentOptions_sublist (intent : Intent) :
    ((intentOptions intent).map Prod.fst).Sublist ["type", "signer", "fee"] := by
  rw [intentOptions, List.map_append]
  refine (List.Sublist.refl ["type", "signer"]).append ?_
  cases intent.fee? with
  | none => exact List.nil_sublist _
  | some fee => exact List.Sublist.refl _

/-- Each option has a key of its own. -/
theorem nodup_optionsOf (intent : Intent) (chosen : Metadata) :
    ((optionsOf intent chosen).map Prod.fst).Nodup := by
  have h_keys : ((optionsOf intent chosen).map Prod.fst).Sublist
      (["type", "signer", "fee"] ++ callSettings) := by
    rw [optionsOf, List.map_append]
    exact (keys_intentOptions_sublist intent).append (chosen.keys_given_sublist callSettings)
  exact h_keys.nodup (by decide)

theorem get?_intentOption {key : String} {v : Json} (h_mem : (key, v) ∈ intentOptions intent)
    (chosen : Metadata) : (Metadata.ofList (optionsOf intent chosen)).get? key = some v :=
  Metadata.get?_ofList_of_mem (nodup_optionsOf intent chosen) (List.mem_append_left _ h_mem)

/-- **The settings are handed on as they are.** -/
theorem present?_optionsOf {key : String} (h_key : key ∈ callSettings) :
    (Metadata.ofList (optionsOf intent chosen)).present? key = chosen.present? key := by
  cases h_present : chosen.present? key with
  | some v =>
    have h_mem : (key, v) ∈ optionsOf intent chosen :=
      List.mem_append_right _ (Metadata.mem_given h_key h_present)
    exact Metadata.present?_eq_some_iff.mpr
      ⟨Metadata.get?_ofList_of_mem (nodup_optionsOf intent chosen) h_mem,
        (Metadata.present?_eq_some_iff.mp h_present).2⟩
  | none =>
    -- What stands in front of the settings has other keys, so a setting that is absent stays so.
    have h_apart : ∀ key ∈ callSettings, key ∉ ["type", "signer", "fee"] := by decide
    have h_out : key ∉ (optionsOf intent chosen).map Prod.fst := by
      rw [optionsOf, List.map_append, List.mem_append, not_or]
      exact ⟨fun h_in => h_apart key h_key ((keys_intentOptions_sublist intent).subset h_in),
        Metadata.not_mem_keys_given h_present callSettings⟩
    rw [Metadata.present?, Metadata.get?_ofList_of_not_mem h_out, Option.filter_none]

theorem counter?_type (intent : Intent) (chosen : Metadata) :
    (Metadata.ofList (optionsOf intent chosen)).counter? "type" =
      .ok (some intent.kind.code.toUInt64) := by
  refine Metadata.read?_of_get? (get?_intentOption List.mem_cons_self chosen) rfl ?_
  exact Metadata.readCounter_toJson intent.kind.code.toUInt64

theorem address?_signer (intent : Intent) (chosen : Metadata) :
    (Metadata.ofList (optionsOf intent chosen)).address? "signer" = .ok (some intent.signer) :=
  Metadata.address?_of_get?
    (get?_intentOption (List.mem_cons_of_mem _ List.mem_cons_self) chosen)

/-- The fee of a send is among the options. -/
theorem amount?_fee {fee : Nat} (h_fee : intent.fee? = some (fee : Int)) (chosen : Metadata) :
    (Metadata.ofList (optionsOf intent chosen)).amount? "fee" = .ok (some fee) := by
  have h_mem : ("fee", Wei.toJson fee) ∈ intentOptions intent := by
    rw [intentOptions, h_fee]
    exact List.mem_append_right _ List.mem_cons_self
  exact Metadata.amount?_of_get? (get?_intentOption h_mem chosen)

end Construction

end RosettaGateway
