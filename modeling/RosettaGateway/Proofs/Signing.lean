import RosettaGateway.Proofs.Wire

/-!
# What a signer commits to

The bytes that are signed hold the name of the chain and the wire form of the transaction without
its signatures, one behind the other and wrapped as the data of an otherwise empty transaction.
Nothing from outside tells where one part stops and the next one starts. Each part tells it by
itself, and so nothing is lost:

* `Tx.envelope_injective` — the data is read off its wrapping;
* `Rlp.Codec.Exact.encode_append_inj` — the name of the chain ends where its form says;
* `Tx.toBytes_injective` — the rest is the form of one transaction only.

`Tx.signBytes_eq_iff` puts these together: two signers sign the same bytes just when they sign the
same transaction for the same chain. Signatures have no part in it (`Tx.signBytes_mapInputs`), which
is what allows a signature to be put into the transaction it signs (`Tx.signBytes_setSignature`).
-/

namespace RosettaGateway

namespace Tx

open Rlp (Codec encodeBytes)
open Rlp.Codec (exact_bytes exact_text)

/-! ### Signatures -/

section Inputs

variable {f : Input → Input}

/-- A change of signatures alone is not seen once the signatures are taken off. -/
theorem unsigned_mapInputs (h_only : ∀ i, { f i with signature := [] } = { i with signature := [] })
    (tx : Tx) : (tx.mapInputs f).unsigned = tx.unsigned := by
  rw [unsigned, unsigned, mapInputs_mapInputs]
  exact congrArg (tx.mapInputs ·) (funext h_only)

/-- **The signed bytes do not depend on signatures.** -/
theorem signBytes_mapInputs (h_only : ∀ i, { f i with signature := [] } = { i with signature := [] })
    (chainId : String) (tx : Tx) : (tx.mapInputs f).signBytes chainId = tx.signBytes chainId := by
  rw [signBytes, signBytes, unsigned_mapInputs h_only]

end Inputs

/-- To put a signature on the inputs of an account is to change signatures alone. -/
theorem signature_only (a : Address) (signature : Octets) (i : Input) :
    { (if i.address = a then { i with signature } else i : Input) with signature := [] } =
      { i with signature := [] } := by
  split <;> rfl

/-- A signed transaction is the same as the unsigned one, but for signatures. -/
theorem unsigned_setSignature (tx : Tx) (a : Address) (signature : Octets) :
    (tx.setSignature a signature).unsigned = tx.unsigned :=
  unsigned_mapInputs (signature_only a signature) tx

/-- A signature signs the transaction that it is put into. -/
theorem signBytes_setSignature (chainId : String) (tx : Tx) (a : Address) (signature : Octets) :
    (tx.setSignature a signature).signBytes chainId = tx.signBytes chainId :=
  signBytes_mapInputs (signature_only a signature) chainId tx

/-- Without its signatures a transaction is not signed. -/
theorem isSigned_unsigned (tx : Tx) : tx.unsigned.isSigned = false := by
  rw [isSigned, unsigned, signingInputs_mapInputs]
  refine List.any_eq_false.mpr fun i h_mem => ?_
  obtain ⟨i', -, rfl⟩ := List.mem_map.mp h_mem
  exact Bool.false_ne_true

theorem kind_setSignature (tx : Tx) (a : Address) (signature : Octets) :
    (tx.setSignature a signature).kind = tx.kind :=
  kind_mapInputs _ tx

theorem signer?_setSignature (tx : Tx) (a : Address) (signature : Octets) :
    (tx.setSignature a signature).signer? = tx.signer? := by
  refine signer?_mapInputs (fun i => ?_) tx
  split <;> rfl

/-- A signature that is there already may be put there again. -/
theorem setSignature_setSignature (tx : Tx) (a : Address) (signature : Octets) :
    (tx.setSignature a signature).setSignature a signature = tx.setSignature a signature := by
  rw [setSignature, setSignature, mapInputs_mapInputs]
  refine congrArg (tx.mapInputs ·) (funext fun i => ?_)
  by_cases h_owner : i.address = a
  · simp only [if_pos h_owner]
  · simp only [if_neg h_owner]

/-- The signer owns a signing input. -/
theorem signedBy_of_signer? {tx : Tx} {a : Address} (h_signer : tx.signer? = some a) :
    tx.signedBy a = true := by
  cases tx with
  | send body =>
    obtain ⟨i, h_head, rfl⟩ := Option.map_eq_some_iff.mp h_signer
    exact List.any_eq_true.mpr ⟨i, List.mem_of_mem_head? h_head, decide_eq_true rfl⟩
  | servicePayment body =>
    -- Both parties of a service payment sign, and the signer is the second one.
    cases h_signer
    simp [signedBy, signingInputs]
  | _ =>
    cases h_signer
    simp [signedBy, signingInputs]

/-! ### The wrapping -/

/-- The wrapping is a list of byte strings. -/
theorem envelope_eq (data : Octets) : envelope data = Codec.bytes.list.encode (envelopeFields data) :=
  rfl

/-- Data is not longer than its wrapping. -/
theorem length_le_envelope (data : Octets) : data.length ≤ (envelope data).length := by
  have h_item : data.length ≤ (encodeBytes data).length := by
    unfold encodeBytes
    split
    · split <;> simp
    · rw [List.length_append]
      exact Nat.le_add_left _ _
  have h_items : (encodeBytes data).length ≤ ((envelopeFields data).flatMap encodeBytes).length := by
    simp only [envelopeFields, List.flatMap_cons, List.length_append]
    omega
  calc data.length
      ≤ ((envelopeFields data).flatMap encodeBytes).length := Nat.le_trans h_item h_items
    _ ≤ (envelope data).length := by
        rw [envelope, List.length_append]
        exact Nat.le_add_left _ _

/-- **The data is read off its wrapping.** -/
theorem envelope_injective {data data' : Octets} (h_fits : (envelope data).length < 2 ^ 64)
    (h_eq : envelope data = envelope data') : data = data' := by
  rw [envelope_eq] at h_fits h_eq
  rw [envelope_eq] at h_eq
  rw [← List.append_nil (Codec.bytes.list.encode (envelopeFields data))] at h_fits h_eq
  rw [← List.append_nil (Codec.bytes.list.encode (envelopeFields data'))] at h_eq
  have h_fields := (exact_bytes.list.encode_append_inj h_fits h_eq).1
  -- All fields but the data are the same in every wrapping.
  simpa only [envelopeFields, List.cons.injEq, true_and, and_true] using h_fields

/-! ### The signed bytes -/

/-- Transactions of the same wire form are equal. -/
theorem toBytes_injective {tx tx' : Tx} (h_fits : tx.toBytes.length < 2 ^ 64)
    (h_eq : tx.toBytes = tx'.toBytes) : tx = tx' := by
  have h_read := ofBytes_toBytes_append tx [] h_fits
  rw [h_eq, ofBytes_toBytes_append tx' [] (h_eq ▸ h_fits), if_pos rfl, if_pos rfl] at h_read
  exact (Except.ok.inj h_read).symm

/-- The wire form that is signed is not longer than the signed bytes. -/
theorem length_toBytes_unsigned_le (chainId : String) (tx : Tx) :
    tx.unsigned.toBytes.length ≤ (tx.signBytes chainId).length := by
  refine Nat.le_trans ?_ (length_le_envelope _)
  rw [List.length_append]
  exact Nat.le_add_left _ _

/-- Who signs the same bytes signs the same transaction for the same chain. -/
theorem eq_of_signBytes {chainId chainId' : String} {tx tx' : Tx}
    (h_fits : (tx.signBytes chainId).length < 2 ^ 64)
    (h_eq : tx.signBytes chainId = tx'.signBytes chainId') :
    chainId = chainId' ∧ tx.unsigned = tx'.unsigned := by
  have h_unsigned := Nat.lt_of_le_of_lt (length_toBytes_unsigned_le chainId tx) h_fits
  have h_data := Nat.lt_of_le_of_lt (length_le_envelope _) h_fits
  obtain ⟨h_chain, h_wire⟩ := exact_text.encode_append_inj h_data (envelope_injective h_fits h_eq)
  exact ⟨h_chain, toBytes_injective h_unsigned h_wire⟩

/-- **What is signed is the chain and the unsigned transaction, and nothing else.** Two signed byte
strings are equal just when the chains and the transactions without their signatures are; whatever
signatures the inputs carry, the signed bytes are the same; and bytes that are signed for one chain,
kind or body are signed for no other one. -/
theorem signBytes_eq_iff (chainId chainId' : String) (tx tx' : Tx)
    (h_fits : (tx.signBytes chainId).length < 2 ^ 64) :
    (tx.signBytes chainId = tx'.signBytes chainId' ↔
      chainId = chainId' ∧ tx.unsigned = tx'.unsigned) ∧
    (∀ signature : Input → Octets,
      (tx.mapInputs fun i => { i with signature := signature i }).signBytes chainId =
        tx.signBytes chainId) ∧
    (chainId ≠ chainId' ∨ tx.kind ≠ tx'.kind ∨ tx.unsigned.encodeBody ≠ tx'.unsigned.encodeBody →
      tx.signBytes chainId ≠ tx'.signBytes chainId') := by
  refine ⟨⟨eq_of_signBytes h_fits, ?_⟩, fun signature => ?_, fun h_apart h_eq => ?_⟩
  · rintro ⟨rfl, h_unsigned⟩
    rw [signBytes, signBytes, h_unsigned]
  · have h_only : ∀ i : Input, { i with signature := [] } = { i with signature := [] } := fun _ => rfl
    exact signBytes_mapInputs (f := fun i => { i with signature := signature i }) h_only chainId tx
  · obtain ⟨h_chain, h_unsigned⟩ := eq_of_signBytes h_fits h_eq
    have h_kind : tx.kind = tx'.kind := by
      have h_same := congrArg kind h_unsigned
      rwa [unsigned, unsigned, kind_mapInputs, kind_mapInputs] at h_same
    rcases h_apart with h_ne | h_ne | h_ne
    · exact h_ne h_chain
    · exact h_ne h_kind
    · exact h_ne (congrArg encodeBody h_unsigned)

/-- A send that is signed already: its signature is not signed, but the chain is. -/
theorem signBytes_eq_iff_signed :
    let tx : Tx := .send ⟨.ofTfuel 1, [⟨.zero, ⟨1, 3⟩, 7, [9, 9]⟩], [⟨.zero, ⟨1, 2⟩⟩]⟩
    (tx.signBytes "privatenet").length < 2 ^ 64 ∧
      tx.signBytes "privatenet" = tx.unsigned.signBytes "privatenet" ∧
      tx.signBytes "privatenet" ≠ tx.signBytes "mainnet" := by
  intro tx
  have h_fits : (tx.signBytes "privatenet").length < 2 ^ 64 := by decide +kernel
  have h_same : tx.unsigned = tx.unsigned.unsigned := rfl
  refine ⟨h_fits, ?_, ?_⟩
  · exact (signBytes_eq_iff _ _ tx tx.unsigned h_fits).1.mpr ⟨rfl, h_same⟩
  · exact (signBytes_eq_iff _ _ tx tx h_fits).2.2 (Or.inl (by decide))

end Tx

end RosettaGateway
