import RosettaGateway.Operation.OfTx
import RosettaGateway.Operation.ToTx
import RosettaGateway.Proofs.Json.Faithful

/-!
# Entries are read back

The metadata of a transaction and of its operations are written as entries and read as typed values.
`Metadata.get?_ofList_of_mem` finds an entry of a list in which each key stands once; the section
below it says, for each way of writing an entry, that the reader for it gives the value back.

Two statements sum this up for what is written about transactions:

* `Operation.input_of_metadata` — the sequence and the signature of a signing party are read from
  the operation that carries them, whatever the metadata of the transaction says;
* `Tx.get?_metadata` — every entry of a transaction is found under its key.
-/

namespace RosettaGateway

namespace Metadata

/-! ### Entries of a list -/

theorem get?_foldl_of_not_mem {members : List (String × Json)} {key : String}
    (h_out : key ∉ members.map Prod.fst) (m : Metadata) :
    (members.foldl (fun m e => m.insert e.1 e.2) m).get? key = m.get? key := by
  induction members generalizing m with
  | nil => rfl
  | cons e rest ih =>
    rw [List.map_cons, List.mem_cons, not_or] at h_out
    rw [List.foldl_cons, ih h_out.2, get?_insert, if_neg h_out.1]

theorem get?_foldl_of_mem {members : List (String × Json)} {key : String} {v : Json}
    (h_nodup : (members.map Prod.fst).Nodup) (h_mem : (key, v) ∈ members) (m : Metadata) :
    (members.foldl (fun m e => m.insert e.1 e.2) m).get? key = some v := by
  induction members generalizing m with
  | nil => cases h_mem
  | cons e rest ih =>
    rw [List.map_cons, List.nodup_cons] at h_nodup
    rw [List.foldl_cons]
    rcases List.mem_cons.mp h_mem with rfl | h_rest
    · rw [get?_foldl_of_not_mem h_nodup.1, get?_insert, if_pos rfl]
    · exact ih h_nodup.2 h_rest _

/-- An entry of a list is found under its key, if each key stands there once. -/
theorem get?_ofList_of_mem {members : List (String × Json)} {key : String} {v : Json}
    (h_nodup : (members.map Prod.fst).Nodup) (h_mem : (key, v) ∈ members) :
    (ofList members).get? key = some v :=
  get?_foldl_of_mem h_nodup h_mem empty

/-- There is nothing under a key that does not stand in the list. -/
theorem get?_ofList_of_not_mem {members : List (String × Json)} {key : String}
    (h_out : key ∉ members.map Prod.fst) : (ofList members).get? key = none :=
  get?_foldl_of_not_mem h_out empty

/-! ### Typed entries -/

section Written

variable {m : Metadata} {key : String}

theorem read?_of_get? {α : Type} {reading : Json → Except EntryFault α} {v : Json} {a : α}
    (h_get : m.get? key = some v) (h_null : v.isNull = false) (h_read : reading v = .ok a) :
    m.read? key reading = .ok (some a) := by
  have h_present : m.present? key = some v := by
    rw [present?, h_get, Option.filter_some, h_null]
    rfl
  simp only [read?, h_present, h_read]

theorem read?_of_absent {α : Type} {reading : Json → Except EntryFault α}
    (h_get : m.get? key = none) : m.read? key reading = .ok none := by
  have h_present : m.present? key = none := by
    rw [present?, h_get, Option.filter_none]
  simp only [read?, h_present]

theorem readCounter_toJson (n : UInt64) : readCounter (Counter.toJson n) = .ok n := by
  rw [readCounter, Counter.ofJson?_toJson]

theorem counterOr_of_get? {n default : UInt64} (h_get : m.get? key = some (Counter.toJson n)) :
    m.counterOr key default = .ok n := by
  rw [counterOr, counter?, read?_of_get? h_get rfl (readCounter_toJson n)]
  rfl

theorem byte?_of_get? {n : UInt8} (h_get : m.get? key = some (Tx.purposeJson.write n)) :
    m.byte? key = .ok (some n) := by
  refine read?_of_get? h_get rfl ?_
  have h_written : Tx.purposeJson.write n = Counter.toJson n.toUInt64 := rfl
  have h_byte : n.toUInt64.toNat < 256 := n.toNat_lt
  rw [h_written, readByte, readCounter_toJson]
  show (if n.toUInt64.toNat < 256 then Except.ok n.toUInt64.toUInt8 else _) = _
  rw [if_pos h_byte, UInt8.toUInt8_toUInt64]

theorem amount?_of_get? {n : Nat} (h_get : m.get? key = some (Wei.toJson n)) :
    m.amount? key = .ok (some n) := by
  refine read?_of_get? h_get rfl ?_
  rw [readAmount, Wei.ofJson?_toJson]

theorem stringOrEmpty_of_get? {s : String} (h_get : m.get? key = some (.string s)) :
    m.stringOrEmpty key = .ok s := by
  have h_read : readString (.string s) = .ok s := rfl
  rw [stringOrEmpty, string?, read?_of_get? h_get rfl h_read]
  rfl

theorem bytes?_of_get? {bytes : Octets} (h_get : m.get? key = some (Octets.json.write bytes)) :
    m.bytes? key = .ok (some bytes) := by
  refine read?_of_get? h_get rfl ?_
  show readBytes (.string (Hex.marked bytes)) = _
  simp only [readBytes, readString, Hex.ofText?_marked]

theorem bytesOrEmpty_of_get? {bytes : Octets}
    (h_get : m.get? key = some (Octets.json.write bytes)) : m.bytesOrEmpty key = .ok bytes := by
  rw [bytesOrEmpty, bytes?_of_get? h_get]
  rfl

theorem bytesOrEmpty_of_absent (h_get : m.get? key = none) : m.bytesOrEmpty key = .ok [] := by
  rw [bytesOrEmpty, bytes?, read?_of_absent h_get]
  rfl

theorem address?_of_get? {a : Address} (h_get : m.get? key = some (Address.json.write a)) :
    m.address? key = .ok (some a) := by
  refine read?_of_get? h_get rfl ?_
  show readAddress (.string a.toText) = _
  simp only [readAddress, readString, Address.ofText?_toText]

theorem typed?_of_get? {α : Type} {c : Json.Codec α} {a : α} (hc : c.Faithful)
    (h_get : m.get? key = some (c.write a)) (h_null : (c.write a).isNull = false) :
    m.typed? key c = .ok (some a) := by
  refine read?_of_get? h_get h_null ?_
  rw [readAs, hc a]

end Written

end Metadata

/-! ### Signing parties -/

namespace Tx

theorem Input.get?_metadata (i : Input) :
    i.metadata.get? "sequence" = some (Counter.toJson i.sequence) ∧
      i.metadata.get? "signature" = some (Octets.json.write i.signature) := by
  have h_nodup : (["sequence", "signature"] : List String).Nodup := by decide
  exact ⟨Metadata.get?_ofList_of_mem h_nodup List.mem_cons_self,
    Metadata.get?_ofList_of_mem h_nodup (List.mem_cons_of_mem _ List.mem_cons_self)⟩

end Tx

/-- **A signing party is read back** from an operation with its sequence and its signature. The
metadata of the transaction is not asked. -/
theorem Operation.input_of_metadata {op : Operation} {i : Tx.Input}
    (h_metadata : op.metadata = some i.metadata) (m : Metadata) (account : Address)
    (coins : Coins) :
    op.input m account coins = .ok ⟨account, coins, i.sequence, i.signature⟩ := by
  obtain ⟨h_sequence, h_signature⟩ := i.get?_metadata
  have h_seq : op.sequence m = .ok i.sequence := by
    simp only [Operation.sequence, h_metadata, Option.bind_some, h_sequence,
      Metadata.readCounter_toJson]
  have h_sig : op.signature m = .ok i.signature := by
    rw [Operation.signature, h_metadata, Option.getD_some, Metadata.bytes?_of_get? h_signature]
    rfl
  rw [Operation.input, h_seq, h_sig]
  rfl

/-! ### Transactions -/

namespace Tx

/-- The entries of a transaction have different keys. -/
theorem nodup_entries (tx : Tx) :
    ((typeEntry tx.kind.code.toNat :: tx.entries).map Prod.fst).Nodup := by
  cases tx with
  | depositStakeV2 body =>
    -- Entries of this kind may be left out, so its keys are some of six.
    have h_entry : ∀ key bytes, ((bytesEntry key bytes).map Prod.fst).Sublist [key] := by
      intro key bytes
      unfold bytesEntry
      split
      · exact List.nil_sublist _
      · exact List.Sublist.refl _
    have h_sub : ((typeEntry (depositStakeV2 body).kind.code.toNat ::
        (depositStakeV2 body).entries).map Prod.fst).Sublist
        ["type", "purpose", "holder", "bls_pub_key", "bls_pop", "holder_sig"] := by
      simp only [entries, List.map_cons, List.map_append]
      exact ((((List.Sublist.refl ["type", "purpose", "holder"]).append
        (h_entry "bls_pub_key" body.blsPubkey)).append
        (h_entry "bls_pop" body.blsPop)).append (h_entry "holder_sig" body.holderSig))
    exact h_sub.nodup (by decide)
  | _ => simp [entries, typeEntry]

/-- **Every entry of a transaction is found** under its key. -/
theorem get?_metadata {tx : Tx} {key : String} {v : Json} (h_mem : (key, v) ∈ tx.entries) :
    tx.metadata.get? key = some v :=
  Metadata.get?_ofList_of_mem tx.nodup_entries (List.mem_cons_of_mem _ h_mem)

theorem mem_bytesEntry {k key : String} {v : Json} {bytes : Octets} :
    (k, v) ∈ bytesEntry key bytes ↔
      k = key ∧ v = Octets.json.write bytes ∧ bytes.isEmpty = false := by
  unfold bytesEntry
  cases bytes.isEmpty with
  | true => simp
  | false => simp

/-- A byte string that is left out when it is empty is read back. -/
theorem bytesOrEmpty_metadata {tx : Tx} {key : String} {bytes : Octets}
    (h_entry : ∀ v, (key, v) ∈ typeEntry tx.kind.code.toNat :: tx.entries ↔
      (key, v) ∈ bytesEntry key bytes) :
    tx.metadata.bytesOrEmpty key = .ok bytes := by
  cases h_empty : bytes.isEmpty with
  | true =>
    rw [List.isEmpty_iff.mp h_empty]
    refine Metadata.bytesOrEmpty_of_absent (Metadata.get?_ofList_of_not_mem fun h_key => ?_)
    obtain ⟨⟨_, v⟩, h_mem, rfl⟩ := List.mem_map.mp h_key
    -- Under this key there could only be a string that is not empty.
    have h_given := (mem_bytesEntry.mp ((h_entry v).mp h_mem)).2.2
    rw [h_empty] at h_given
    cases h_given
  | false =>
    have h_mem := (h_entry _).mpr (mem_bytesEntry.mpr ⟨rfl, rfl, h_empty⟩)
    exact Metadata.bytesOrEmpty_of_get? (Metadata.get?_ofList_of_mem tx.nodup_entries h_mem)

end Tx

end RosettaGateway
