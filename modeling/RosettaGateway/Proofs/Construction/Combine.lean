import RosettaGateway.Proofs.Construction.Basic
import RosettaGateway.Proofs.Keccak
import RosettaGateway.Proofs.Signing

/-!
# Putting a signature into a transaction

`Construction.combine` makes a signed transaction of an unsigned one. When it does so, and what it
makes, is said without a word about the curve: of the recovery of a signer from a signature nothing
is used but that it is a function.

* `attach_eq_ok_iff` — a signature is attached just when the account it is given for is the signer
  of the transaction, and the one that the signature recovers to from the signed bytes;
* `combine_eq_ok_iff` — there is one signature, it is for a transaction that can be constructed, and
  it is attached.

What comes out differs from what went in by the signatures of the signer's inputs alone. It has the
signed bytes it had before (`Tx.signBytes_setSignature`), so that the same signature is attached to
it once more, to no effect (`attach_setSignature`). `combine_ok` says all this of the transactions
as they travel.
-/

namespace RosettaGateway.Construction

variable {chainId : String} {tx signed : Tx} {s : SignatureText}

/-- The check of a signature succeeds when it recovers to the signer. -/
theorem verifySignature_eq_ok_iff {message signature : Octets} {signer : Address} {u : Unit} :
    verifySignature message signature signer = .ok u ↔
      recoverAddress (keccak256 message) signature = .ok signer := by
  unfold verifySignature
  cases recoverAddress (keccak256 message) signature with
  | error e => simp
  | ok recovered =>
    simp only [Except.ok.injEq]
    split
    · next h_same => simp [h_same]
    · next h_other => simp [h_other]

/-- **A signature is attached** just when it is given for the signer of the transaction and recovers
to this account from the bytes that are to be signed. -/
theorem attach_eq_ok_iff :
    attach chainId tx s = .ok signed ↔
      ∃ signer signature, Address.ofText? s.payload.account.address = some signer ∧
        tx.signer? = some signer ∧ Hex.ofText? s.hexBytes = some signature ∧
        recoverAddress (keccak256 (tx.signBytes chainId)) signature = .ok signer ∧
        signed = tx.setSignature signer signature := by
  unfold attach
  cases h_claimed : Address.ofText? s.payload.account.address with
  | none => simp
  | some claimed =>
    by_cases h_signer : tx.signer? = some claimed
    · simp only [h_signer, ne_eq, not_true_eq_false, if_false, Outcome.bind_eq_ok_iff,
        Outcome.mapError_eq_ok_iff, Outcome.pure_eq_ok_iff, verifySignature_eq_ok_iff,
        bytesOf_eq_ok_iff, Option.some.injEq]
      constructor
      · rintro ⟨signature, h_signature, -, h_recovered, rfl⟩
        exact ⟨claimed, signature, rfl, rfl, h_signature, h_recovered, rfl⟩
      · rintro ⟨signer, signature, rfl, -, h_signature, h_recovered, rfl⟩
        exact ⟨signature, h_signature, (), h_recovered, rfl⟩
    · simp only [ne_eq, h_signer, not_false_eq_true, if_true, Option.some.injEq, reduceCtorEq,
        false_iff]
      -- The account of the signature is the only candidate, and it is not the signer.
      rintro ⟨signer, signature, rfl, h_same, -⟩
      exact h_signer h_same

/-- A signature is attached once more, and changes nothing. -/
theorem attach_setSignature {signer : Address} {signature : Octets}
    (h_attach : attach chainId tx s = .ok (tx.setSignature signer signature))
    (h_claimed : Address.ofText? s.payload.account.address = some signer)
    (h_signature : Hex.ofText? s.hexBytes = some signature) :
    attach chainId (tx.setSignature signer signature) s =
      .ok (tx.setSignature signer signature) := by
  obtain ⟨signer', signature', h_claimed', h_signer, h_signature', h_recovered, -⟩ :=
    attach_eq_ok_iff.mp h_attach
  obtain rfl := Option.some.inj (h_claimed.symm.trans h_claimed')
  obtain rfl := Option.some.inj (h_signature.symm.trans h_signature')
  refine attach_eq_ok_iff.mpr ⟨signer, signature, h_claimed, ?_, h_signature, ?_, ?_⟩
  · rw [Tx.signer?_setSignature, h_signer]
  · rw [Tx.signBytes_setSignature, h_recovered]
  · rw [Tx.setSignature_setSignature]

/-- **A signed transaction is made** of exactly one signature and a transaction that can be
constructed, to which it is attached. -/
theorem combine_eq_ok_iff {unsigned out : String} {signatures : List SignatureText} :
    combine chainId unsigned signatures = .ok out ↔
      ∃ s tx signed, signatures = [s] ∧ txOf unsigned = .ok tx ∧
        (tx.kind = .send ∨ tx.kind = .smartContract) ∧ attach chainId tx s = .ok signed ∧
        out = Hex.plain signed.toBytes := by
  match signatures with
  | [] => simp [combine]
  | [s] =>
    simp only [combine, Outcome.bind_eq_ok_iff, Outcome.pure_eq_ok_iff,
      requireConstructible_eq_ok_iff]
    constructor
    · rintro ⟨tx, h_tx, -, h_kind, signed, h_attach, rfl⟩
      exact ⟨s, tx, signed, rfl, h_tx, h_kind, h_attach, rfl⟩
    · rintro ⟨_, tx, signed, h_one, h_tx, h_kind, h_attach, rfl⟩
      cases h_one
      exact ⟨tx, h_tx, (), h_kind, signed, h_attach, rfl⟩
  | _ :: _ :: _ => simp [combine]

/-- **A signed transaction is the unsigned one with the signer's signature, and there is none
without it.** If a signed transaction comes out then there is one signature, given for the signer of
a send or a contract call, and it recovers to this account from the bytes that are to be signed. What
comes out is the transaction that went in, with the signature on each input of the signer, of which
there is one at least, and nothing else changed; so it has the same unsigned form and the same bytes
to sign. With the same signature it comes out of itself. -/
theorem combine_ok {unsigned out : String} {signatures : List SignatureText}
    (h_combine : combine chainId unsigned signatures = .ok out)
    (h_fits : out.length < 2 * 2 ^ 64) :
    combine chainId out signatures = .ok out ∧
    ∃ (s : SignatureText) (tx signed : Tx) (signer : Address) (signature : Octets),
      signatures = [s] ∧ txOf unsigned = .ok tx ∧
      (tx.kind = .send ∨ tx.kind = .smartContract) ∧
      Address.ofText? s.payload.account.address = some signer ∧ tx.signer? = some signer ∧
      Hex.ofText? s.hexBytes = some signature ∧
      recoverAddress (keccak256 (tx.signBytes chainId)) signature = .ok signer ∧
      txOf out = .ok signed ∧
      signed = tx.mapInputs (fun i => if i.address = signer then { i with signature } else i) ∧
      (∃ i ∈ signed.signingInputs, i.address = signer) ∧
      (∀ i ∈ signed.signingInputs, i.address = signer → i.signature = signature) ∧
      signed.unsigned = tx.unsigned ∧ signed.signBytes chainId = tx.signBytes chainId := by
  obtain ⟨s, tx, signed, rfl, h_tx, h_kind, h_attach, rfl⟩ := combine_eq_ok_iff.mp h_combine
  obtain ⟨signer, signature, h_claimed, h_signer, h_signature, h_recovered, rfl⟩ :=
    attach_eq_ok_iff.mp h_attach
  rw [length_plain] at h_fits
  have h_out := txOf_plain (tx.setSignature signer signature) (by omega)
  -- The signature is put where it already is, so once more makes no difference.
  have h_again : combine chainId (Hex.plain (tx.setSignature signer signature).toBytes) [s] =
      .ok (Hex.plain (tx.setSignature signer signature).toBytes) := by
    refine combine_eq_ok_iff.mpr ⟨s, _, _, rfl, h_out, ?_,
      attach_setSignature h_attach h_claimed h_signature, rfl⟩
    rw [Tx.kind_setSignature]
    exact h_kind
  refine ⟨h_again, s, tx, tx.setSignature signer signature, signer, signature, rfl, h_tx, h_kind,
    h_claimed, h_signer, h_signature, h_recovered, h_out, rfl, ?_, ?_,
    Tx.unsigned_setSignature _ _ _, Tx.signBytes_setSignature _ _ _ _⟩
  · -- The signer of the signed transaction is still the same account, and owns an input.
    have h_owner := Tx.signedBy_of_signer? ((Tx.signer?_setSignature tx signer signature).trans
      h_signer)
    obtain ⟨i, h_mem, h_address⟩ := List.any_eq_true.mp h_owner
    exact ⟨i, h_mem, of_decide_eq_true h_address⟩
  · -- An input is of the signer after the signature is put on it just when it was before.
    intro i h_mem h_address
    rw [Tx.setSignature, Tx.signingInputs_mapInputs] at h_mem
    obtain ⟨i', -, rfl⟩ := List.mem_map.mp h_mem
    by_cases h_owner : i'.address = signer
    · rw [if_pos h_owner]
    · rw [if_neg h_owner] at h_address
      exact absurd h_address h_owner

/-! ### A contract call with its signature -/

deriving instance DecidableEq for PublicKey

/-- A signature that recovers to a key recovers to its account. -/
theorem recoverAddress_of_recoverKey? {digest : Hash} {signature : Octets} {number : UInt8}
    {k : PublicKey} (h_length : signature.length = 65) (h_number : signature[64]? = some number)
    (h_known : number = 0 ∨ number = 1 ∨ number = 27 ∨ number = 28)
    (h_key : recoverKey? digest (BigEndian.toNat (signature.take 32))
      (BigEndian.toNat ((signature.drop 32).take 32)) (number == 1 || number == 28) = some k) :
    recoverAddress digest signature = .ok k.address := by
  simp only [recoverAddress, h_number, h_length, decide_true, if_pos h_known, h_key]

namespace SampleCall

/-- The account of the private key five. -/
def signer : Address :=
  ⟨[0xe1, 0xab, 0x81, 0x45, 0xf7, 0xe5, 0x5d, 0xc9, 0x33, 0xd5,
    0x1a, 0x18, 0xc7, 0x93, 0xf9, 0x01, 0xa3, 0xa0, 0xb2, 0x76], rfl⟩

/-- The public key of the private key five. -/
def publicKey : PublicKey :=
  ⟨0x2f8bde4d1a07209355b4a7250a5c5128e88b84bddc619ab7cba8d569b240efe4,
    0xd8ac222636e5e3d6d4dba9dda6c9c426f788271bab0d6840dca87d3aa6ac62d6⟩

/-- The call: five for the account of zeros. -/
def call : Tx := .smartContract ⟨⟨signer, ⟨0, 5⟩, 1, []⟩, ⟨.zero, ⟨0, 5⟩⟩, 21000, 4, []⟩

/-- The signature of the call for the chain `tn`. -/
def signature : Octets :=
  [0xd6, 0x3b, 0xa6, 0xc0, 0x89, 0xe1, 0x78, 0x1b, 0xe4, 0xdd, 0x75, 0xcf, 0x6c, 0xeb, 0x42, 0xb0,
    0x24, 0xb9, 0x74, 0x37, 0xa6, 0xdf, 0x13, 0xde, 0x3d, 0x13, 0x06, 0x9d, 0x3c, 0x81, 0x2c, 0xec,
    0x3c, 0x83, 0x03, 0x7f, 0xa8, 0x0c, 0x68, 0xeb, 0xf5, 0x0e, 0x08, 0x5d, 0x0c, 0xd3, 0xa8, 0x12,
    0x81, 0x7a, 0x3a, 0x31, 0xcf, 0x53, 0xe7, 0x99, 0xeb, 0xe1, 0xe6, 0xc6, 0x70, 0x7a, 0xa7, 0x8c,
    0x01]

/-- The signature as the signer gives it. -/
def text : SignatureText where
  payload := ⟨.ofAddress signer, Hex.plain (call.signingHash "tn").bytes, signatureType⟩
  publicKey := ⟨"", curve⟩
  signatureType := signatureType
  hexBytes := Hex.plain signature

/-- The call on the wire, without a signature, with a single byte in its place, and signed. -/
theorem length_toBytes :
    call.toBytes.length = 60 ∧ (call.setSignature signer [9]).toBytes.length = 60 ∧
      (call.setSignature signer signature).toBytes.length = 127 := by
  decide +kernel

/-- The public key is the one of the signer, and the signature recovers to it. -/
theorem recovers : publicKey.address = signer ∧
    recoverAddress (keccak256 (call.signBytes "tn")) signature = .ok signer := by
  have h_address : publicKey.address = signer := by
    simp only [PublicKey.address, Keccak.keccak256_eq]
    decide +kernel
  refine ⟨h_address, ?_⟩
  rw [← h_address, Keccak.keccak256_eq]
  exact recoverAddress_of_recoverKey? rfl rfl (Or.inr (Or.inl rfl)) (by decide +kernel)

theorem combine_eq : combine "tn" (Hex.plain call.toBytes) [text] =
    .ok (Hex.plain (call.setSignature signer signature).toBytes) := by
  have h_attach : attach "tn" call text = .ok (call.setSignature signer signature) :=
    attach_eq_ok_iff.mpr ⟨signer, signature, Address.ofText?_toText signer, rfl,
      Hex.ofText?_plain signature, recovers.2, rfl⟩
  have h_fits : call.toBytes.length < 2 ^ 64 := by
    rw [length_toBytes.1]
    decide
  exact combine_eq_ok_iff.mpr ⟨text, call, _, rfl, txOf_plain call h_fits, Or.inr rfl, h_attach,
    rfl⟩

/-- The signed call goes through once more, and comes out as it was. -/
theorem combine_ok_again :
    let unsigned := Hex.plain call.toBytes
    let out := Hex.plain (call.setSignature signer signature).toBytes
    combine "tn" unsigned [text] = .ok out ∧ out.length < 2 * 2 ^ 64 ∧
      out ≠ unsigned ∧ combine "tn" out [text] = .ok out := by
  intro unsigned out
  have h_fits : out.length < 2 * 2 ^ 64 := by
    rw [length_plain, length_toBytes.2.2]
    decide
  have h_other : out ≠ unsigned := by
    intro h_same
    have h_lengths := congrArg String.length h_same
    rw [length_plain, length_plain, length_toBytes.1, length_toBytes.2.2] at h_lengths
    exact absurd h_lengths (by decide)
  exact ⟨combine_eq, h_fits, h_other, (combine_ok combine_eq h_fits).1⟩

end SampleCall

end RosettaGateway.Construction
