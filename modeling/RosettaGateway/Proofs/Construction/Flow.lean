import RosettaGateway.Proofs.Attaching
import RosettaGateway.Proofs.Construction.Combine
import RosettaGateway.Proofs.Construction.Payloads

/-!
# A construction is completed

Whoever signs the hash that comes with an unsigned transaction gets a signed one. Each step reads the
transaction from hex once more, so this needs that the steps agree on it: the hash that is checked is
the one that was given out, and the signed transaction shows the same operations.

* `Tx.map_bare_operations_setSignature` — signatures are seen in the metadata of operations and
  nowhere else;
* `Tx.signer_of_asks` — all inputs of a transaction that is asked for are those of its signer;
* `Construction.combine_payloads` — the steps one after the other, for any signature that recovers to
  the account of the payload. Nothing is used of the recovery but that it is a function.

The transaction that is given out as unsigned may carry a signature already, from the metadata of the
operations or of the request. It has no part in the hash, and the new signature takes its place.
-/

namespace RosettaGateway

/-- An operation without its metadata. -/
def Operation.bare (op : Operation) : Operation := { op with metadata := none }

namespace Tx

/-! ### Signatures and legs -/

/-- The operations of a transaction are the same with another signature, but for their metadata. -/
theorem map_bare_operations_setSignature (tx : Tx) (a : Address) (signature : Octets)
    (context : TxContext) :
    ((tx.setSignature a signature).describe context).operations.map Operation.bare =
      (tx.describe context).operations.map Operation.bare := by
  have h_operation : ∀ leg status i, Operation.bare (Leg.operation leg status i) =
      (leg.mapMetadata fun _ => none).operation status i := fun _ _ _ => rfl
  rw [describe, describe, Operation.map_ofLegs h_operation, Operation.map_ofLegs h_operation,
    setSignature, map_mapMetadata_legs_mapInputs (signature_only a signature) fun _ => rfl]

/-- A signer signs for an input. -/
theorem signingInputs_ne_nil {tx : Tx} {a : Address} (h_signer : tx.signer? = some a) :
    tx.signingInputs ≠ [] := by
  intro h_none
  have h_signed := signedBy_of_signer? h_signer
  rw [signedBy, h_none] at h_signed
  cases h_signed

/-- When all inputs are those of one account, its signature is on all of them. -/
theorem signature_of_mem_setSignature {tx : Tx} {a : Address}
    (h_owner : ∀ i ∈ tx.signingInputs, i.address = a) (signature : Octets) :
    ∀ i ∈ (tx.setSignature a signature).signingInputs, i.signature = signature := by
  intro i h_mem
  rw [setSignature, signingInputs_mapInputs] at h_mem
  obtain ⟨i', h_mem', rfl⟩ := List.mem_map.mp h_mem
  rw [if_pos (h_owner i' h_mem')]

/-- **All inputs are those of the signer** in a transaction with the legs that an intent asks for: a
second input would have legs where the outputs have theirs. -/
theorem signer_of_asks {tx : Tx} {signer : Address} {legs : List Leg}
    (h_asks : Intent.Asks tx.kind signer legs) (h_signer : tx.signer? = some signer)
    (h_legs : (tx.legs {}).map Leg.bare = legs) : ∀ i ∈ tx.signingInputs, i.address = signer := by
  cases tx with
  | smartContract body =>
    intro i h_mem
    obtain rfl := List.mem_singleton.mp h_mem
    exact Option.some.inj h_signer
  | send body =>
    obtain ⟨fee, inputs, outputs⟩ := body
    match inputs with
    | [] => cases h_signer
    | [payer] =>
      intro i h_mem
      obtain rfl := List.mem_singleton.mp h_mem
      exact Option.some.inj h_signer
    | payer :: other :: others =>
      cases h_asks with
      | send =>
        -- The third leg is the first output of the intent, and would be a leg of the second input.
        simp only [Tx.legs, Send.legs, Send.inputPair, List.flatMap_cons, List.append_assoc,
          List.cons_append, List.nil_append, List.map_cons, List.cons.injEq] at h_legs
        have h_third := congrArg Leg.type h_legs.2.2.1
        cases h_third
  | _ => cases h_asks

end Tx

namespace Construction

variable {chainId unsigned : String} {ops : List Operation} {m : Metadata}
  {payload : SigningPayload}

/-- **The steps of a construction lead to a signed transaction.** What is given out to be signed names
an account and a hash. Take any signature that recovers from the hash to the account. Given for this
account it makes a signed transaction, of which every input carries it. The signed transaction can be
looked into: its signer is the account of the payload and nobody else, and its operations are those of
the unsigned transaction but for their metadata. Its hash is the hash of its bytes. -/
theorem combine_payloads (h_payloads : payloads chainId ops m = .ok (unsigned, payload))
    (h_fits : unsigned.length < 2 * 2 ^ 64) :
    ∃ (signer : Address) (digest : Hash),
      Address.ofText? payload.account.address = some signer ∧
      Hex.ofText? payload.hexBytes = some digest.bytes ∧
      ∀ (signature : Octets) (s : SignatureText), recoverAddress digest signature = .ok signer →
        Address.ofText? s.payload.account.address = some signer →
        Hex.ofText? s.hexBytes = some signature →
        ∃ signed, combine chainId unsigned [s] = .ok signed ∧
          (signed.length < 2 * 2 ^ 64 →
            ∃ (tx : Tx) (bytes : Octets) (before after : ParsedTransaction),
              Hex.ofText? signed = some bytes ∧ Tx.ofBytes bytes = .ok tx ∧
              tx.signingInputs ≠ [] ∧ (∀ i ∈ tx.signingInputs, i.signature = signature) ∧
              parse unsigned false = .ok before ∧ parse signed true = .ok after ∧
              after.signers = some [payload.account] ∧
              after.description.operations.map Operation.bare =
                before.description.operations.map Operation.bare ∧
              hash signed = .ok (keccak256 bytes)) := by
  obtain ⟨tx, signer, legs, h_asks, -, -, h_signer, h_legs, rfl, rfl⟩ :=
    exists_tx_of_payloads h_payloads
  refine ⟨signer, keccak256 (tx.signBytes chainId), Address.ofText?_toText signer,
    Hex.ofText?_plain _, fun signature s h_recovered h_claimed h_signature => ?_⟩
  have h_kind := kind_of_asks h_asks
  rw [length_plain] at h_fits
  have h_arrives := txOf_plain tx (by omega)
  have h_attach : attach chainId tx s = .ok (tx.setSignature signer signature) :=
    attach_eq_ok_iff.mpr ⟨signer, signature, h_claimed, h_signer, h_signature, h_recovered, rfl⟩
  refine ⟨Hex.plain (tx.setSignature signer signature).toBytes,
    combine_eq_ok_iff.mpr ⟨s, tx, _, rfl, h_arrives, h_kind, h_attach, rfl⟩, fun h_fits' => ?_⟩
  rw [length_plain] at h_fits'
  -- The signature changes neither the signer nor the kind, so what comes out can be looked into.
  have h_signer' : (tx.setSignature signer signature).signer? = some signer := by
    rw [Tx.signer?_setSignature, h_signer]
  have h_kind' : (tx.setSignature signer signature).kind = .send ∨
      (tx.setSignature signer signature).kind = .smartContract := by
    rw [Tx.kind_setSignature]
    exact h_kind
  obtain ⟨bytes, h_hex, h_read⟩ :=
    txOf_eq_ok_iff.mp (txOf_plain (tx.setSignature signer signature) (by omega))
  have h_owner := Tx.signer_of_asks h_asks h_signer h_legs
  exact ⟨tx.setSignature signer signature, bytes, _, _, h_hex, h_read,
    Tx.signingInputs_ne_nil h_signer', Tx.signature_of_mem_setSignature h_owner signature,
    parse_plain (by omega) h_kind h_signer false, parse_plain (by omega) h_kind' h_signer' true,
    rfl, Tx.map_bare_operations_setSignature tx signer signature {},
    (Tx.constructionHash_eq h_hex _).mpr ⟨_, h_read, rfl⟩⟩

/-! ### A call that comes with a signature -/

namespace SampleCall

/-- The operations of the call. -/
def asked : List Operation :=
  [SampleSend.operation "SmartContractTxFrom" "0xe1ab8145f7e55dc933d51a18c793f901a3a0b276" "-5"
      "TFUEL",
    SampleSend.operation "SmartContractTxTo" "0x0000000000000000000000000000000000000000" "5"
      "TFUEL"]

/-- A hash is read from its own digits. -/
theorem eq_of_plain {digest digest' : Hash}
    (h_read : Hex.ofText? (Hex.plain digest.bytes) = some digest'.bytes) : digest' = digest := by
  obtain ⟨bytes, _⟩ := digest
  obtain ⟨bytes', _⟩ := digest'
  obtain rfl : bytes = bytes' := Option.some.inj ((Hex.ofText?_plain bytes).symm.trans h_read)
  rfl

/-- What the request tells of the call, with some bytes in the place of a signature. -/
def told : Metadata :=
  .ofList [("sequence", .string "1"), ("gas_limit", .string "21000"), ("gas_price", .string "4"),
    ("signature", .string "0x09")]

theorem payloads_eq : payloads "tn" asked told =
    .ok (Hex.plain (call.setSignature signer [9]).toBytes, ⟨.ofAddress signer,
      Hex.plain (keccak256 (call.signBytes "tn")).bytes, signatureType⟩) := by
  rw [← Tx.signBytes_setSignature "tn" call signer [9]]
  exact payloads_eq_ok_iff.mpr
    ⟨_, 1, call.setSignature signer [9], rfl, rfl, rfl, rfl, rfl⟩

theorem combine_told : combine "tn" (Hex.plain (call.setSignature signer [9]).toBytes) [text] =
    .ok (Hex.plain (call.setSignature signer signature).toBytes) := by
  have h_hash := recovers.2
  rw [← Tx.signBytes_setSignature "tn" call signer [9]] at h_hash
  have h_attach : attach "tn" (call.setSignature signer [9]) text =
      .ok (call.setSignature signer signature) :=
    attach_eq_ok_iff.mpr ⟨signer, signature, Address.ofText?_toText signer, rfl,
      Hex.ofText?_plain signature, h_hash, rfl⟩
  have h_fits : (call.setSignature signer [9]).toBytes.length < 2 ^ 64 := by
    rw [length_toBytes.2.1]
    decide
  exact combine_eq_ok_iff.mpr ⟨text, call.setSignature signer [9], _, rfl, txOf_plain _ h_fits,
    Or.inr rfl, h_attach, rfl⟩

/-- The signature of the call takes the place of the bytes that were there. -/
theorem combine_payloads_told :
    let unsigned := Hex.plain (call.setSignature signer [9]).toBytes
    (∃ payload, payloads "tn" asked told = .ok (unsigned, payload)) ∧
    unsigned.length < 2 * 2 ^ 64 ∧
    recoverAddress (keccak256 (call.signBytes "tn")) signature = .ok signer ∧
    ∃ signed, combine "tn" unsigned [text] = .ok signed ∧ signed.length < 2 * 2 ^ 64 ∧
      ∃ parsed, parse signed true = .ok parsed ∧ parsed.signers = some [.ofAddress signer] := by
  intro unsigned
  have h_fits : unsigned.length < 2 * 2 ^ 64 := by
    rw [length_plain, length_toBytes.2.1]
    decide
  obtain ⟨a, digest, h_account, h_digest, h_complete⟩ := combine_payloads payloads_eq h_fits
  obtain rfl : a = signer :=
    Option.some.inj (h_account.symm.trans (Address.ofText?_toText signer))
  obtain rfl := eq_of_plain h_digest
  obtain ⟨signed, h_combine, h_signed⟩ := h_complete signature text recovers.2
    (Address.ofText?_toText signer) (Hex.ofText?_plain signature)
  have h_fits' : signed.length < 2 * 2 ^ 64 := by
    obtain rfl := Except.ok.inj (h_combine.symm.trans combine_told)
    rw [length_plain, length_toBytes.2.2]
    decide
  obtain ⟨-, -, -, parsed, -, -, -, -, -, h_parse, h_signers, -⟩ := h_signed h_fits'
  exact ⟨⟨_, payloads_eq⟩, h_fits, recovers.2, signed, h_combine, h_fits', parsed, h_parse,
    h_signers⟩

end SampleCall

end Construction

end RosettaGateway
