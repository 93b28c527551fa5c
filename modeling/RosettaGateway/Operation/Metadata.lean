import RosettaGateway.Tx.Error

/-!
# Metadata

Operations, transactions and requests carry free-form entries. `Metadata` is a map from keys to JSON
values that keeps the order of the keys; the readers below give an entry as a value of a type. An
entry that is `null` counts as missing in all of them. `get?_insert` is the law of the map.
-/

namespace RosettaGateway

/-- Free-form entries, each key once. -/
structure Metadata where
  entries : List (String × Json)
  nodup : (entries.map Prod.fst).Nodup

namespace Metadata

theorem mem_keys_setMember {key k : String} {value : Json} {entries : List (String × Json)} :
    k ∈ (Json.setMember key value entries).map Prod.fst ↔ k = key ∨ k ∈ entries.map Prod.fst := by
  induction entries with
  | nil => simp [Json.setMember]
  | cons e rest ih =>
    obtain ⟨k', v'⟩ := e
    by_cases h : k' = key
    · simp [Json.setMember, h]
    · simp only [Json.setMember, if_neg h, List.map_cons, List.mem_cons, ih]
      grind

theorem nodup_setMember {key : String} {value : Json} {entries : List (String × Json)}
    (h : (entries.map Prod.fst).Nodup) :
    ((Json.setMember key value entries).map Prod.fst).Nodup := by
  induction entries with
  | nil => simp [Json.setMember]
  | cons e rest ih =>
    obtain ⟨k, v⟩ := e
    rw [List.map_cons, List.nodup_cons] at h
    by_cases hk : k = key
    · subst hk
      simpa [Json.setMember] using h
    · simp only [Json.setMember, if_neg hk, List.map_cons, List.nodup_cons]
      exact ⟨fun hm => (mem_keys_setMember.mp hm).elim hk h.1, ih h.2⟩

theorem lookup_cons_eq {key k : String} {value : Json} {entries : List (String × Json)} :
    ((key, value) :: entries).lookup k = if k = key then some value else entries.lookup k := by
  rw [List.lookup_cons]
  by_cases h : k = key
  · rw [if_pos h, beq_iff_eq.mpr h]
  · rw [if_neg h, beq_eq_false_iff_ne.mpr h]

theorem lookup_setMember {key k : String} {value : Json} {entries : List (String × Json)} :
    (Json.setMember key value entries).lookup k =
      if k = key then some value else entries.lookup k := by
  induction entries with
  | nil => exact lookup_cons_eq
  | cons e rest ih =>
    obtain ⟨k', v⟩ := e
    rw [Json.setMember]
    by_cases h : k' = key
    · rw [if_pos h, lookup_cons_eq, lookup_cons_eq, h]
      by_cases hk : k = key
      · rw [if_pos hk, if_pos hk]
      · rw [if_neg hk, if_neg hk, if_neg hk]
    · rw [if_neg h, lookup_cons_eq, lookup_cons_eq, ih]
      by_cases hk : k = k'
      · rw [if_pos hk, if_pos hk, if_neg (hk ▸ h)]
      · rw [if_neg hk, if_neg hk]

/-- No entries. -/
def empty : Metadata := ⟨[], List.nodup_nil⟩

instance : Inhabited Metadata := ⟨empty⟩

/-- Sets an entry. -/
def insert (m : Metadata) (key : String) (value : Json) : Metadata :=
  ⟨Json.setMember key value m.entries, nodup_setMember m.nodup⟩

/-- The entries of a list; of those with the same key the last one counts. -/
def ofList (members : List (String × Json)) : Metadata :=
  members.foldl (fun m e => m.insert e.1 e.2) empty

/-- The value of an entry, which may be `null`. -/
def get? (m : Metadata) (key : String) : Option Json := m.entries.lookup key

@[simp] theorem get?_empty (key : String) : empty.get? key = none := rfl

theorem get?_insert (m : Metadata) (key k : String) (value : Json) :
    (m.insert key value).get? k = if k = key then some value else m.get? k :=
  lookup_setMember

/-- The value of an entry that is not `null`. -/
def present? (m : Metadata) (key : String) : Option Json := (m.get? key).filter fun v => !v.isNull

/-- Metadata as JSON objects. -/
def json : Json.Codec Metadata where
  check := fun depth tree =>
    match tree with
    | .object _ => Json.checkFree depth tree
    | other => some (Json.misfit other)
  read
    | .object members => some (ofList members)
    | _ => none
  write m := .object m.entries

/-! ### Typed entries -/

/-- What an entry has to be. -/
def read? {α : Type} (m : Metadata) (key : String) (reading : Json → Except EntryFault α) :
    Except TxError (Option α) :=
  match m.present? key with
  | none => .ok none
  | some v =>
    match reading v with
    | .ok a => .ok (some a)
    | .error fault => .error (.invalidEntry key fault)

/-- Turns a missing entry into an error. -/
def demand {α : Type} (key : String) : Except TxError (Option α) → Except TxError α
  | .ok (some a) => .ok a
  | .ok none => .error (.missingEntry key)
  | .error e => .error e

/-- Reads a counter. -/
def readCounter (v : Json) : Except EntryFault UInt64 :=
  match Counter.ofJson? v with
  | some n => .ok n
  | none => .error (.notInteger v)

/-- Reads a number of eight bits. -/
def readByte (v : Json) : Except EntryFault UInt8 :=
  match readCounter v with
  | .ok n => if n.toNat < 256 then .ok n.toUInt8 else .error (.outOfRange n)
  | .error fault => .error fault

/-- Reads an amount. -/
def readAmount (v : Json) : Except EntryFault Nat :=
  match Wei.ofJson? v with
  | some n => .ok n
  | none => .error (.notAmount v)

/-- Reads a string. -/
def readString : Json → Except EntryFault String
  | .string s => .ok s
  | v => .error (.notString v)

/-- Reads a byte string. -/
def readBytes (v : Json) : Except EntryFault Octets :=
  match readString v with
  | .ok s =>
    match Hex.ofText? s with
    | some bytes => .ok bytes
    | none => .error .notHex
  | .error fault => .error fault

/-- Reads an address. -/
def readAddress (v : Json) : Except EntryFault Address :=
  match readString v with
  | .ok s =>
    match Address.ofText? s with
    | some a => .ok a
    | none => .error (.notAddress s)
  | .error fault => .error fault

/-- Reads a value of a type with a JSON codec. -/
def readAs {α : Type} (c : Json.Codec α) (v : Json) : Except EntryFault α :=
  match c.ofJson v with
  | some a => .ok a
  | none => .error .notReadable

/-- The counter of an entry. -/
def counter? (m : Metadata) (key : String) : Except TxError (Option UInt64) :=
  m.read? key readCounter

/-- The number of eight bits of an entry. -/
def byte? (m : Metadata) (key : String) : Except TxError (Option UInt8) := m.read? key readByte

/-- The amount of an entry. -/
def amount? (m : Metadata) (key : String) : Except TxError (Option Nat) := m.read? key readAmount

/-- The string of an entry. -/
def string? (m : Metadata) (key : String) : Except TxError (Option String) := m.read? key readString

/-- The byte string of an entry. -/
def bytes? (m : Metadata) (key : String) : Except TxError (Option Octets) := m.read? key readBytes

/-- The address of an entry. -/
def address? (m : Metadata) (key : String) : Except TxError (Option Address) :=
  m.read? key readAddress

/-- The value of an entry with a JSON codec. -/
def typed? {α : Type} (m : Metadata) (key : String) (c : Json.Codec α) :
    Except TxError (Option α) := m.read? key (readAs c)

end Metadata

end RosettaGateway
