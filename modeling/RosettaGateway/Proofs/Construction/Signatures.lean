import RosettaGateway.Proofs.Construction.Flow

/-!
# Who has signed

On its way through a construction a transaction is called unsigned first and signed later. Neither
is a matter of how it travels, but of what stands in its inputs, and this module says what that is.

* `Construction.payloads_signature` — what is given out to be signed carries the signature that the
  metadata tell: the one of the first operation or else of the request. It is unsigned when neither
  tells one, and the hash to sign is that of the transaction without it.
* `Construction.combine_signs` — what comes back is signed for the inputs of its signer. Inputs of
  other accounts stay as they are, as there is only one signature. Who looks into a transaction is
  told the account that signs it, if the transaction is said to be signed.

The examples show what this leaves open: a transaction that is given out with a signature, one that
comes back with an input that nobody has signed, and one that nobody has signed at all but for which
a signer is told.
-/

namespace RosettaGateway

/-! ### Inputs that are signed -/

namespace Tx

variable {tx : Tx} {a : Address} {signature : Octets}

/-- A transaction whose inputs carry the same signature is unsigned when this is the empty one. -/
theorem isSigned_eq_false_iff (h_inputs : tx.signingInputs ≠ [])
    (h_each : ∀ i ∈ tx.signingInputs, i.signature = signature) :
    tx.isSigned = false ↔ signature = [] := by
  rw [isSigned, List.any_eq_false]
  constructor
  · intro h_none
    obtain ⟨i, h_mem⟩ := List.exists_mem_of_ne_nil _ h_inputs
    have h_unsigned := h_none i h_mem
    rw [Input.isSigned_iff, not_not, h_each i h_mem] at h_unsigned
    exact h_unsigned
  · intro h_empty i h_mem
    rw [Input.isSigned_iff, not_not, h_each i h_mem, h_empty]

/-- A signature signs all inputs of its account. -/
theorem isSigned_of_mem_setSignature (h_signature : signature ≠ []) :
    ∀ i ∈ (tx.setSignature a signature).signingInputs, i.address = a → i.isSigned = true := by
  intro i h_mem h_address
  rw [Input.isSigned_iff, signature_of_address i h_mem h_address]
  exact h_signature

/-- The inputs of other accounts are left as they are. -/
theorem mem_setSignature_iff {i : Input} (h_other : i.address ≠ a) :
    i ∈ (tx.setSignature a signature).signingInputs ↔ i ∈ tx.signingInputs := by
  rw [setSignature, signingInputs_mapInputs, List.mem_map]
  constructor
  · rintro ⟨i', h_mem, rfl⟩
    by_cases h_owner : i'.address = a
    · rw [if_pos h_owner] at h_other
      exact absurd h_owner h_other
    · rw [if_neg h_owner]
      exact h_mem
  · intro h_mem
    exact ⟨i, h_mem, if_neg h_other⟩

/-- **A signature of one account** signs all inputs just when those of other accounts are signed. -/
theorem forall_isSigned_setSignature_iff (h_signature : signature ≠ []) :
    (∀ i ∈ (tx.setSignature a signature).signingInputs, i.isSigned = true) ↔
      ∀ i ∈ tx.signingInputs, i.address ≠ a → i.isSigned = true := by
  rw [setSignature, signingInputs_mapInputs, List.forall_mem_map]
  refine forall₂_congr fun i _ => ?_
  -- An input of the account is signed now; any other is as it was.
  by_cases h_owner : i.address = a
  · simp only [if_pos h_owner, Input.isSigned_iff]
    exact ⟨fun _ h_other => absurd h_owner h_other, fun _ => h_signature⟩
  · rw [if_neg h_owner]
    exact ⟨fun h_signed _ => h_signed, fun h_signed => h_signed h_owner⟩

/-- The signer owns an input. -/
theorem exists_input_of_signer? (h_signer : tx.signer? = some a) :
    ∃ i ∈ tx.signingInputs, i.address = a :=
  signedBy_iff.mp (signedBy_of_signer? h_signer)

/-- A contract call has one input, which is that of its signer. -/
theorem address_of_call (h_call : tx.kind = .smartContract) (h_signer : tx.signer? = some a) :
    ∀ i ∈ tx.signingInputs, i.address = a := by
  cases tx with
  | smartContract body =>
    intro i h_mem
    obtain rfl := List.mem_singleton.mp h_mem
    exact Option.some.inj h_signer
  | _ => cases h_call

end Tx

/-! ### The signature of what is built -/

section Built

variable {op : Operation} {ops : List Operation} {m : Metadata} {legs : List Leg} {tx : Tx}

theorem Operation.signature_of_input {account : Address} {coins : Coins} {i : Tx.Input}
    (h_input : op.input m account coins = .ok i) : op.signature m = .ok i.signature := by
  simp only [input, Outcome.bind_eq_ok_iff, Outcome.pure_eq_ok_iff] at h_input
  obtain ⟨sequence, -, signature, h_signature, rfl⟩ := h_input
  exact h_signature

/-- A signature that is told nowhere is empty. -/
theorem Operation.signature_of_absent
    (h_own : op.metadata.bind (·.present? "signature") = none)
    (h_told : m.present? "signature" = none) : op.signature m = .ok [] := by
  have h_absent : (op.metadata.getD .empty).present? "signature" = none := by
    cases h_metadata : op.metadata with
    | none => rfl
    | some own =>
      rw [h_metadata] at h_own
      exact h_own
  simp only [signature, Metadata.bytesOrEmpty, Metadata.bytes?, Metadata.read?, h_absent, h_told]
  rfl

/-- **What is built carries the signature of the first operation** on every input. -/
theorem Tx.exists_signature_of_asks {k : Tx.Kind} {signer : Address}
    (h_asks : Intent.Asks k signer legs) (h_moves : List.Forall₂ Operation.Moves ops legs)
    (h_build : ofOperations k ops m = .ok tx) :
    ∃ op ∈ ops.head?, ∃ signature, op.signature m = .ok signature ∧
      ∀ i ∈ tx.signingInputs, i.signature = signature := by
  -- Either kind that can be built has a single input, which the first operation describes.
  cases h_asks with
  | send payer receiver spent received fee =>
    obtain ⟨first, h_first, last, -, -, h_eq⟩ := send_of_moves h_moves
    rw [h_eq] at h_build
    obtain ⟨i, h_input, rfl⟩ := Outcome.map_eq_ok_iff.mp h_build
    refine ⟨first, h_first, i.signature, Operation.signature_of_input h_input, fun i' h_mem => ?_⟩
    obtain rfl := List.mem_singleton.mp h_mem
    rfl
  | smartContract sender recipient paid received =>
    obtain ⟨first, h_first, h_eq⟩ := call_of_moves h_moves
    rw [h_eq] at h_build
    simp only [Outcome.bind_eq_ok_iff, Outcome.pure_eq_ok_iff] at h_build
    obtain ⟨i, h_input, gasLimit, -, gasPrice, -, data, -, rfl⟩ := h_build
    refine ⟨first, h_first, i.signature, Operation.signature_of_input h_input, fun i' h_mem => ?_⟩
    obtain rfl := List.mem_singleton.mp h_mem
    rfl

end Built

namespace Construction

/-! ### What is given out -/

section GivenOut

variable {chainId unsigned : String} {ops : List Operation} {m : Metadata}
  {payload : SigningPayload}

/-- **What is given out carries the signature that the metadata tell.** All inputs of the
transaction carry the signature of the first operation, which is looked for in its own metadata and
then in those of the request. So it is unsigned just when this is empty, as it is when neither tells
one. The hash of the payload is that of the transaction without any signature. -/
theorem payloads_signature (h_payloads : payloads chainId ops m = .ok (unsigned, payload))
    (h_fits : unsigned.length < 2 * 2 ^ 64) :
    ∃ (tx : Tx) (op : Operation) (signature : Octets),
      txOf unsigned = .ok tx ∧ tx.signingInputs ≠ [] ∧ op ∈ ops.head? ∧
      op.signature m = .ok signature ∧ (∀ i ∈ tx.signingInputs, i.signature = signature) ∧
      (tx.isSigned = false ↔ signature = []) ∧
      (op.metadata.bind (·.present? "signature") = none → m.present? "signature" = none →
        tx.isSigned = false) ∧
      payload.hexBytes = Hex.plain (keccak256 (tx.unsigned.signBytes chainId)).bytes := by
  obtain ⟨tx, signer, legs, h_asks, h_moves, h_build, h_signer, -, rfl, rfl⟩ :=
    exists_tx_of_payloads h_payloads
  -- Nothing but the first operation describes the signer, and its signature is the only one.
  obtain ⟨op, h_head, signature, h_signature, h_each⟩ :=
    Tx.exists_signature_of_asks h_asks h_moves h_build
  have h_inputs := Tx.signingInputs_ne_nil h_signer
  have h_signed := Tx.isSigned_eq_false_iff h_inputs h_each
  have h_hash : tx.unsigned.signBytes chainId = tx.signBytes chainId :=
    Tx.signBytes_mapInputs (f := fun i => { i with signature := [] }) (fun _ => rfl) chainId tx
  rw [length_plain] at h_fits
  refine ⟨tx, op, signature, txOf_plain tx (by omega), h_inputs, h_head, h_signature, h_each,
    h_signed, fun h_own h_told => h_signed.mpr ?_, by rw [h_hash]⟩
  exact Except.ok.inj (h_signature.symm.trans (Operation.signature_of_absent h_own h_told))

end GivenOut

namespace SampleSend

/-- Nobody has signed the send: no signature is told. -/
theorem payloads_signature_spelt :
    let unsigned := Hex.plain send.toBytes
    (∃ payload, payloads "tn" asked (.ofList [("sequence", .string "1")]) =
      .ok (unsigned, payload)) ∧
    unsigned.length < 2 * 2 ^ 64 ∧ ∃ tx, txOf unsigned = .ok tx ∧ tx.isSigned = false := by
  intro unsigned
  obtain ⟨tx, op, -, h_tx, -, h_head, -, -, -, h_unsigned, -⟩ :=
    payloads_signature payloads_eq length_plain_send
  obtain rfl := Option.some.inj h_head
  exact ⟨⟨_, payloads_eq⟩, length_plain_send, tx, h_tx, h_unsigned rfl rfl⟩

end SampleSend

/-- Not everything that is given out is unsigned: the call that comes with a signature keeps it. -/
theorem SampleCall.not_payloads_unsigned :
    ¬ ∀ (chainId : String) (ops : List Operation) (m : Metadata) (unsigned : String)
      (payload : SigningPayload) (tx : Tx), payloads chainId ops m = .ok (unsigned, payload) →
        txOf unsigned = .ok tx → tx.isSigned = false := by
  intro h_all
  have h_fits : (call.setSignature signer [9]).toBytes.length < 2 ^ 64 := by
    rw [length_toBytes.2.1]
    decide
  have h_unsigned := h_all "tn" asked told _ _ _ payloads_eq (txOf_plain _ h_fits)
  cases h_unsigned

/-! ### What comes back -/

section ComesBack

variable {transaction : String} {parsed : ParsedTransaction}

/-- A signature that recovers to an account has sixty-five bytes. -/
theorem length_of_recoverAddress {digest : Hash} {signature : Octets} {a : Address}
    (h_recovered : recoverAddress digest signature = .ok a) : signature.length = 65 := by
  unfold recoverAddress at h_recovered
  split at h_recovered
  · next h_length => exact of_decide_eq_true h_length
  · cases h_recovered

/-- A transaction that is said to be signed is looked into, and its signer is told. -/
theorem parse_signed_eq_ok_iff :
    parse transaction true = .ok parsed ↔
      ∃ tx signer, txOf transaction = .ok tx ∧ (tx.kind = .send ∨ tx.kind = .smartContract) ∧
        tx.signer? = some signer ∧ parsed = ⟨tx.describe {}, some [.ofAddress signer]⟩ := by
  simp only [parse, Outcome.bind_eq_ok_iff, requireConstructible_eq_ok_iff, if_true]
  constructor
  · rintro ⟨tx, h_tx, -, h_kind, h_rest⟩
    split at h_rest
    · next signer h_signer =>
      cases h_rest
      exact ⟨tx, signer, h_tx, h_kind, h_signer, rfl⟩
    · cases h_rest
  · rintro ⟨tx, signer, h_tx, h_kind, h_signer, rfl⟩
    refine ⟨tx, h_tx, (), h_kind, ?_⟩
    rw [h_signer]
    rfl

/-- **What comes back is signed for the account that signs it.** This account owns an input of the
transaction that comes back, and all its inputs carry a signature. The inputs of other accounts are
as they were, so that all inputs are signed just when those were signed before, and those of a
contract call always are. Who looks into it is told this account. For any transaction that is said
to be signed, whatever signatures it carries, the account that is told is the one that signs it. -/
theorem combine_signs (chainId unsigned : String) (signatures : List SignatureText) :
    (∀ out, combine chainId unsigned signatures = .ok out → out.length < 2 * 2 ^ 64 →
      ∃ (tx signed : Tx) (signer : Address), txOf unsigned = .ok tx ∧ txOf out = .ok signed ∧
        signed.signer? = some signer ∧ (∃ i ∈ signed.signingInputs, i.address = signer) ∧
        (∀ i ∈ signed.signingInputs, i.address = signer → i.isSigned = true) ∧
        (∀ i, i.address ≠ signer → (i ∈ signed.signingInputs ↔ i ∈ tx.signingInputs)) ∧
        ((∀ i ∈ signed.signingInputs, i.isSigned = true) ↔
          ∀ i ∈ tx.signingInputs, i.address ≠ signer → i.isSigned = true) ∧
        (signed.kind = .smartContract → ∀ i ∈ signed.signingInputs, i.isSigned = true) ∧
        parse out true = .ok ⟨signed.describe {}, some [.ofAddress signer]⟩) ∧
    ∀ transaction parsed, parse transaction true = .ok parsed →
      ∃ tx signer, txOf transaction = .ok tx ∧ tx.signer? = some signer ∧
        parsed.signers = some [.ofAddress signer] := by
  refine ⟨fun out h_combine h_fits => ?_, fun transaction parsed h_parse => ?_⟩
  · obtain ⟨s, tx, signed, -, h_tx, h_kind, h_attach, rfl⟩ := combine_eq_ok_iff.mp h_combine
    obtain ⟨signer, signature, -, h_signer, -, h_recovered, rfl⟩ := attach_eq_ok_iff.mp h_attach
    -- No account is recovered from an empty signature.
    have h_signature : signature ≠ [] := by
      rintro rfl
      cases length_of_recoverAddress h_recovered
    have h_signer' := (Tx.signer?_setSignature tx signer signature).trans h_signer
    have h_kind' : (tx.setSignature signer signature).kind = .send ∨
        (tx.setSignature signer signature).kind = .smartContract := by
      rw [Tx.kind_setSignature]
      exact h_kind
    rw [length_plain] at h_fits
    have h_out := txOf_plain (tx.setSignature signer signature) (by omega)
    have h_own : ∀ i ∈ (tx.setSignature signer signature).signingInputs, i.address = signer →
        i.isSigned = true := Tx.isSigned_of_mem_setSignature h_signature
    exact ⟨tx, tx.setSignature signer signature, signer, h_tx, h_out, h_signer',
      Tx.exists_input_of_signer? h_signer', h_own, fun i => Tx.mem_setSignature_iff,
      Tx.forall_isSigned_setSignature_iff h_signature,
      fun h_call i h_mem => h_own i h_mem (Tx.address_of_call h_call h_signer' i h_mem),
      parse_plain (by omega) h_kind' h_signer' true⟩
  · obtain ⟨tx, signer, h_tx, -, h_signer, rfl⟩ := parse_signed_eq_ok_iff.mp h_parse
    exact ⟨tx, signer, h_tx, h_signer, rfl⟩

end ComesBack

namespace SampleCall

/-- The call is signed when it comes back. -/
theorem combine_signs_call :
    let out := Hex.plain (call.setSignature signer signature).toBytes
    combine "tn" (Hex.plain call.toBytes) [text] = .ok out ∧ out.length < 2 * 2 ^ 64 ∧
      ∃ signed, txOf out = .ok signed ∧ signed.isSigned = true := by
  intro out
  have h_fits : out.length < 2 * 2 ^ 64 := by
    rw [length_plain, length_toBytes.2.2]
    decide
  obtain ⟨-, signed, a, -, h_out, -, ⟨i, h_mem, h_owner⟩, h_own, -⟩ :=
    (combine_signs "tn" (Hex.plain call.toBytes) [text]).1 out combine_eq h_fits
  exact ⟨combine_eq, h_fits, signed, h_out, List.any_eq_true.mpr ⟨i, h_mem, h_own i h_mem h_owner⟩⟩

/-- A send that two accounts pay for. -/
def shared : Tx :=
  .send ⟨{}, [⟨signer, ⟨0, 5⟩, 1, []⟩, ⟨SampleSend.payer, ⟨0, 6⟩, 1, []⟩], [⟨.zero, ⟨0, 11⟩⟩]⟩

/-- The signature of the shared send by the account of the private key five. -/
def sharedSignature : Octets :=
  [0xb9, 0x33, 0x45, 0x15, 0x26, 0x81, 0xc8, 0x3e, 0x02, 0xb8, 0xb2, 0x6e, 0x4b, 0x45, 0xb7, 0xb8,
    0x97, 0x1d, 0x11, 0x0f, 0x4a, 0x9d, 0x41, 0x9e, 0xc4, 0x37, 0x6f, 0x54, 0x93, 0x6e, 0x8d, 0x7d,
    0x61, 0xde, 0x40, 0xa2, 0x6d, 0xa4, 0x33, 0xe1, 0xd6, 0x0a, 0x0e, 0x74, 0x58, 0x06, 0xfd, 0xb0,
    0xb2, 0x41, 0x30, 0x42, 0x06, 0x18, 0x98, 0x5c, 0xc5, 0xe1, 0x15, 0x8c, 0xad, 0xff, 0xba, 0x32,
    0x00]

/-- The signature of the shared send as the signer gives it. -/
def sharedText : SignatureText where
  payload := ⟨.ofAddress signer, Hex.plain (shared.signingHash "tn").bytes, signatureType⟩
  publicKey := ⟨"", curve⟩
  signatureType := signatureType
  hexBytes := Hex.plain sharedSignature

/-- The shared send on the wire, unsigned and with the signature. -/
theorem length_toBytes_shared :
    shared.toBytes.length = 87 ∧
      (shared.setSignature signer sharedSignature).toBytes.length = 155 := by
  decide +kernel

/-- The shared send arrives, unsigned and with the signature. -/
theorem txOf_shared :
    txOf (Hex.plain shared.toBytes) = .ok shared ∧
      txOf (Hex.plain (shared.setSignature signer sharedSignature).toBytes) =
        .ok (shared.setSignature signer sharedSignature) := by
  constructor
  · apply txOf_plain
    rw [length_toBytes_shared.1]
    decide
  · apply txOf_plain
    rw [length_toBytes_shared.2]
    decide

theorem combine_shared : combine "tn" (Hex.plain shared.toBytes) [sharedText] =
    .ok (Hex.plain (shared.setSignature signer sharedSignature).toBytes) := by
  have h_recovered : recoverAddress (keccak256 (shared.signBytes "tn")) sharedSignature =
      .ok signer := by
    rw [← recovers.1, Keccak.keccak256_eq]
    exact recoverAddress_of_recoverKey? rfl rfl (Or.inl rfl) (by decide +kernel)
  have h_attach : attach "tn" shared sharedText =
      .ok (shared.setSignature signer sharedSignature) :=
    attach_eq_ok_iff.mpr ⟨signer, sharedSignature, Address.ofText?_toText signer, rfl,
      Hex.ofText?_plain sharedSignature, h_recovered, rfl⟩
  exact combine_eq_ok_iff.mpr ⟨sharedText, shared, _, rfl, txOf_shared.1, Or.inl rfl, h_attach, rfl⟩

/-- Not all that comes back is signed: one of the two who pay has not signed the shared send. And a
signer is told for transactions that nobody has signed. -/
theorem not_signed_of_combine_of_parse :
    (¬ ∀ (chainId unsigned : String) (signatures : List SignatureText) (out : String) (tx : Tx),
      combine chainId unsigned signatures = .ok out → txOf out = .ok tx →
        ∀ i ∈ tx.signingInputs, i.isSigned = true) ∧
    ¬ ∀ (transaction : String) (parsed : ParsedTransaction) (tx : Tx) (a : Address),
      parse transaction true = .ok parsed → txOf transaction = .ok tx →
        parsed.signers = some [.ofAddress a] →
          ∀ i ∈ tx.signingInputs, i.address = a → i.isSigned = true := by
  constructor
  · -- The input of the other payer is still empty.
    intro h_all
    have h_signed := h_all "tn" _ _ _ _ combine_shared txOf_shared.2
      ⟨SampleSend.payer, ⟨0, 6⟩, 1, []⟩ (by decide)
    cases h_signed
  · -- The shared send is said to be signed before anybody has signed it.
    intro h_all
    have h_signer : shared.signer? = some signer := rfl
    have h_parse : parse (Hex.plain shared.toBytes) true =
        .ok ⟨shared.describe {}, some [.ofAddress signer]⟩ :=
      parse_signed_eq_ok_iff.mpr ⟨shared, signer, txOf_shared.1, Or.inl rfl, h_signer, rfl⟩
    have h_signed := h_all _ _ shared signer h_parse txOf_shared.1 rfl
      ⟨signer, ⟨0, 5⟩, 1, []⟩ (by decide) rfl
    cases h_signed

end SampleCall

end Construction

end RosettaGateway
