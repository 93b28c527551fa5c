import RosettaGateway.Api.Construction
import RosettaGateway.Proofs.Rlp.Codec
import RosettaGateway.Proofs.Text

/-!
# The wire form of a transaction

The wire form is a bijection between transactions and the byte strings that are accepted:

* `Tx.ofBytes_toBytes` — what is written is read back, for every transaction whose form is short
  enough for the headers of the format;
* `Tx.toBytes_of_ofBytes` — what is read was written, so that no two byte strings are the same
  transaction, and the hash of the bytes is the hash of the transaction.

Both come from the exactness of the codecs of the twelve bodies (`Rlp.Codec.Exact`). A body is
read under the kind that stands in front of it (`decodeBody_encodeBody`, `eq_of_decodeBody`).
-/

namespace RosettaGateway

namespace Tx

open Rlp (Codec)
open Rlp.Codec

/-! ### Parts and bodies -/

theorem Input.exact_wire : Input.wire.Exact :=
  ((exact_address.and <| exact_coins.and <| exact_uint64.and exact_bytes).map
    (fun _ => rfl) (fun _ => rfl)).structured

theorem Output.exact_wire : Output.wire.Exact :=
  ((exact_address.and exact_coins).map (fun _ => rfl) (fun _ => rfl)).structured

theorem Split.exact_wire : Split.wire.Exact :=
  ((exact_address.and exact_uint64).map (fun _ => rfl) (fun _ => rfl)).structured

theorem Coinbase.exact_wire : Coinbase.wire.Exact :=
  ((Input.exact_wire.and <| Output.exact_wire.list.and exact_uint64).map
    (fun _ => rfl) (fun _ => rfl)).structured

theorem Slash.exact_wire : Slash.wire.Exact :=
  ((Input.exact_wire.and <| exact_address.and <| exact_uint64.and exact_bytes).map
    (fun _ => rfl) (fun _ => rfl)).structured

theorem Send.exact_wire : Send.wire.Exact :=
  ((exact_coins.and <| Input.exact_wire.list.and Output.exact_wire.list).map
    (fun _ => rfl) (fun _ => rfl)).structured

theorem ReserveFund.exact_wire : ReserveFund.wire.Exact :=
  ((exact_coins.and <| Input.exact_wire.and <| exact_text.list.and <|
    exact_coins.and exact_uint64).map (fun _ => rfl) (fun _ => rfl)).structured

theorem ReleaseFund.exact_wire : ReleaseFund.wire.Exact :=
  ((exact_coins.and <| Input.exact_wire.and exact_uint64).map
    (fun _ => rfl) (fun _ => rfl)).structured

theorem ServicePayment.exact_wire : ServicePayment.wire.Exact :=
  ((exact_coins.and <| Input.exact_wire.and <| Input.exact_wire.and <|
    exact_uint64.and <| exact_uint64.and exact_text).map
    (fun _ => rfl) (fun _ => rfl)).structured

theorem SplitRule.exact_wire : SplitRule.wire.Exact :=
  ((exact_coins.and <| exact_text.and <| Input.exact_wire.and <|
    Split.exact_wire.list.and exact_uint64).map (fun _ => rfl) (fun _ => rfl)).structured

theorem SmartContract.exact_wire : SmartContract.wire.Exact :=
  ((Input.exact_wire.and <| Output.exact_wire.and <| exact_uint64.and <|
    exact_natural.and exact_bytes).map (fun _ => rfl) (fun _ => rfl)).structured

theorem DepositStake.exact_wire : DepositStake.wire.Exact :=
  ((exact_coins.and <| Input.exact_wire.and <| Output.exact_wire.and exact_uint8).map
    (fun _ => rfl) (fun _ => rfl)).structured

theorem DepositStakeV2.exact_wire : DepositStakeV2.wire.Exact :=
  ((exact_coins.and <| Input.exact_wire.and <| Output.exact_wire.and <|
    exact_uint8.and <| exact_bytes.and <| exact_bytes.and exact_bytes).map
    (fun _ => rfl) (fun _ => rfl)).structured

theorem WithdrawStake.exact_wire : WithdrawStake.wire.Exact :=
  ((exact_coins.and <| Input.exact_wire.and <| Output.exact_wire.and exact_uint8).map
    (fun _ => rfl) (fun _ => rfl)).structured

theorem StakeRewardDistribution.exact_wire : StakeRewardDistribution.wire.Exact :=
  ((exact_coins.and <| Input.exact_wire.and <| Output.exact_wire.and exact_uint64).map
    (fun _ => rfl) (fun _ => rfl)).structured

section Wrap

variable {α : Type} {c : Codec α} {make : α → Tx}

/-- An exact codec reads back a body as a transaction. -/
theorem wrap_decode_encode (hc : c.Exact) (body : α) {rest : Octets}
    (h_fits : (c.encode body).length < 2 ^ 64) :
    wrap make (c.decode (c.encode body ++ rest)) = .ok (make body, rest) := by
  rw [hc.decode_encode body rest h_fits]
  rfl

/-- An exact codec reads nothing else as a transaction. -/
theorem eq_of_wrap_decode (hc : c.Exact) {bytes rest : Octets} {tx : Tx}
    (h_dec : wrap make (c.decode bytes) = .ok (tx, rest)) :
    ∃ body, tx = make body ∧ bytes = c.encode body ++ rest := by
  unfold wrap at h_dec
  split at h_dec
  · next body tail h_body =>
    cases h_dec
    exact ⟨body, rfl, hc.eq_of_decode _ _ _ h_body⟩
  · cases h_dec

end Wrap

/-- A body is read back under its kind. -/
theorem decodeBody_encodeBody (tx : Tx) (rest : Octets) (h_fits : tx.encodeBody.length < 2 ^ 64) :
    decodeBody tx.kind (tx.encodeBody ++ rest) = .ok (tx, rest) := by
  cases tx with
  | coinbase body => exact wrap_decode_encode Coinbase.exact_wire body h_fits
  | slash body => exact wrap_decode_encode Slash.exact_wire body h_fits
  | send body => exact wrap_decode_encode Send.exact_wire body h_fits
  | reserveFund body => exact wrap_decode_encode ReserveFund.exact_wire body h_fits
  | releaseFund body => exact wrap_decode_encode ReleaseFund.exact_wire body h_fits
  | servicePayment body => exact wrap_decode_encode ServicePayment.exact_wire body h_fits
  | splitRule body => exact wrap_decode_encode SplitRule.exact_wire body h_fits
  | smartContract body => exact wrap_decode_encode SmartContract.exact_wire body h_fits
  | depositStake body => exact wrap_decode_encode DepositStake.exact_wire body h_fits
  | withdrawStake body => exact wrap_decode_encode WithdrawStake.exact_wire body h_fits
  | depositStakeV2 body => exact wrap_decode_encode DepositStakeV2.exact_wire body h_fits
  | stakeRewardDistribution body =>
    exact wrap_decode_encode StakeRewardDistribution.exact_wire body h_fits

/-- A body that is read under a kind is of that kind, and its form was in front. -/
theorem eq_of_decodeBody {k : Kind} {bytes rest : Octets} {tx : Tx}
    (h_dec : decodeBody k bytes = .ok (tx, rest)) :
    tx.kind = k ∧ bytes = tx.encodeBody ++ rest := by
  cases k with
  | coinbase =>
    obtain ⟨body, rfl, rfl⟩ := eq_of_wrap_decode Coinbase.exact_wire h_dec
    exact ⟨rfl, rfl⟩
  | slash =>
    obtain ⟨body, rfl, rfl⟩ := eq_of_wrap_decode Slash.exact_wire h_dec
    exact ⟨rfl, rfl⟩
  | send =>
    obtain ⟨body, rfl, rfl⟩ := eq_of_wrap_decode Send.exact_wire h_dec
    exact ⟨rfl, rfl⟩
  | reserveFund =>
    obtain ⟨body, rfl, rfl⟩ := eq_of_wrap_decode ReserveFund.exact_wire h_dec
    exact ⟨rfl, rfl⟩
  | releaseFund =>
    obtain ⟨body, rfl, rfl⟩ := eq_of_wrap_decode ReleaseFund.exact_wire h_dec
    exact ⟨rfl, rfl⟩
  | servicePayment =>
    obtain ⟨body, rfl, rfl⟩ := eq_of_wrap_decode ServicePayment.exact_wire h_dec
    exact ⟨rfl, rfl⟩
  | splitRule =>
    obtain ⟨body, rfl, rfl⟩ := eq_of_wrap_decode SplitRule.exact_wire h_dec
    exact ⟨rfl, rfl⟩
  | smartContract =>
    obtain ⟨body, rfl, rfl⟩ := eq_of_wrap_decode SmartContract.exact_wire h_dec
    exact ⟨rfl, rfl⟩
  | depositStake =>
    obtain ⟨body, rfl, rfl⟩ := eq_of_wrap_decode DepositStake.exact_wire h_dec
    exact ⟨rfl, rfl⟩
  | withdrawStake =>
    obtain ⟨body, rfl, rfl⟩ := eq_of_wrap_decode WithdrawStake.exact_wire h_dec
    exact ⟨rfl, rfl⟩
  | depositStakeV2 =>
    obtain ⟨body, rfl, rfl⟩ := eq_of_wrap_decode DepositStakeV2.exact_wire h_dec
    exact ⟨rfl, rfl⟩
  | stakeRewardDistribution =>
    obtain ⟨body, rfl, rfl⟩ := eq_of_wrap_decode StakeRewardDistribution.exact_wire h_dec
    exact ⟨rfl, rfl⟩

/-! ### Kinds -/

/-- Only its own number names a kind. -/
theorem Kind.toUInt64_code_of_ofCode? {code : UInt64} {k : Kind} (h : Kind.ofCode? code = some k) :
    k.code.toUInt64 = code := by
  obtain ⟨h_lt, h_k⟩ := List.getElem?_eq_some_iff.mp h
  have h_all : ∀ (n : Nat) (h_n : n < Kind.all.length),
      (Kind.all[n]).code.toUInt64 = UInt64.ofNat n := by
    decide
  rw [← h_k, h_all _ h_lt, UInt64.ofNat_toNat]

theorem Kind.code_of_ofCode? {code : UInt8} {k : Kind} (h : Kind.ofCode? code.toUInt64 = some k) :
    k.code = code := by
  have h_code := congrArg UInt64.toUInt8 (toUInt64_code_of_ofCode? h)
  rwa [UInt8.toUInt8_toUInt64, UInt8.toUInt8_toUInt64] at h_code

theorem kindOfCode_code (k : Kind) : kindOfCode k.code.toUInt64 = .ok k := by
  rw [kindOfCode, Kind.ofCode?_code]

theorem code_of_kindOfCode {code : UInt8} {k : Kind} (h : kindOfCode code.toUInt64 = .ok k) :
    k.code = code := by
  unfold kindOfCode at h
  split at h
  · next h_some =>
    cases h
    exact Kind.code_of_ofCode? h_some
  · cases h

/-! ### Transactions -/

/-- The wire form of a transaction is read up to its end, and only the end of the bytes may
follow it. -/
theorem ofBytes_toBytes_append (tx : Tx) (rest : Octets) (h_fits : tx.toBytes.length < 2 ^ 64) :
    ofBytes (tx.toBytes ++ rest) =
      if rest = [] then .ok tx else .error (.trailingBytes rest.length) := by
  rw [toBytes, List.length_append] at h_fits
  unfold ofBytes toBytes
  -- The kind comes first and is written like any number of eight bits.
  rw [List.append_assoc, exact_uint8.decode_encode _ _ (by omega)]
  simp only [kindOfCode_code]
  rw [decodeBody_encodeBody tx rest (by omega)]
  cases rest with
  | nil => rfl
  | cons b tail => rfl

/-- What is read from all of a byte string was its wire form. -/
theorem toBytes_eq {bytes : Octets} {tx : Tx} (h : ofBytes bytes = .ok tx) :
    tx.toBytes = bytes := by
  unfold ofBytes at h
  split at h
  · cases h
  next code rest h_code =>
  split at h
  · cases h
  next k h_kind =>
  split at h
  · cases h
  · next h_body =>
    cases h
    -- Nothing is left over, so the bytes are those of the kind and of the body.
    obtain ⟨rfl, rfl⟩ := eq_of_decodeBody h_body
    rw [exact_uint8.eq_of_decode _ _ _ h_code, List.append_nil, toBytes,
      code_of_kindOfCode h_kind]
  · cases h

/-- The hash that is told for bytes in hex is the hash of the bytes, and it is told if they are a
transaction. -/
theorem constructionHash_eq {s : String} {bytes : Octets} (h_s : Hex.ofText? s = some bytes)
    (hash : Hash) :
    Construction.hash s = .ok hash ↔ ∃ tx, ofBytes bytes = .ok tx ∧ hash = keccak256 bytes := by
  have h_bytes : Construction.bytesOf s = .ok bytes := by rw [Construction.bytesOf, h_s]
  rw [Construction.hash, Construction.txOf, h_bytes]
  simp only [bind, Except.bind]
  cases h_tx : ofBytes bytes with
  | error e => simp
  | ok tx => simp [pure, Except.pure, eq_comm]

/-- **Round trip.** The wire form of a transaction is read back as the transaction, if it is short
enough for the length of a header to be written in eight bytes. -/
theorem ofBytes_toBytes (tx : Tx) (h_fits : tx.toBytes.length < 2 ^ 64) :
    ofBytes tx.toBytes = .ok tx := by
  have h := ofBytes_toBytes_append tx [] h_fits
  rwa [List.append_nil, if_pos rfl] at h

/-- The body of this withdrawal has 56 bytes, the first number that needs a long header. -/
theorem ofBytes_toBytes_withdrawal :
    let tx : Tx := .withdrawStake ⟨.ofTfuel 1, { address := .zero }, { address := .zero }, 0⟩
    tx.toBytes.length < 2 ^ 64 ∧ ofBytes tx.toBytes = .ok tx := by
  have h_fits : (withdrawStake ⟨.ofTfuel 1, { address := .zero }, { address := .zero },
      0⟩).toBytes.length < 2 ^ 64 := by decide +kernel
  exact ⟨h_fits, ofBytes_toBytes _ h_fits⟩

/-- **The wire form is canonical.** A byte string that is read as a transaction is the wire form of
it, so no other byte string is read as the same one; and however the bytes are spelled in hex, a
hash is told for them just when they are a transaction, and it is the hash of the transaction. -/
theorem toBytes_of_ofBytes (bytes : Octets) :
    (∀ tx, ofBytes bytes = .ok tx → tx.toBytes = bytes) ∧
      (∀ tx other, ofBytes bytes = .ok tx → ofBytes other = .ok tx → other = bytes) ∧
      ∀ s hash, Hex.ofText? s = some bytes →
        (Construction.hash s = .ok hash ↔ ∃ tx, ofBytes bytes = .ok tx ∧ hash = tx.hash) := by
  refine ⟨fun tx h => toBytes_eq h, fun tx other h h_other => ?_, fun s hash h_s => ?_⟩
  · exact (toBytes_eq h_other).symm.trans (toBytes_eq h)
  · rw [constructionHash_eq h_s]
    constructor
    · rintro ⟨tx, h_tx, rfl⟩
      exact ⟨tx, h_tx, by rw [Tx.hash, toBytes_eq h_tx]⟩
    · rintro ⟨tx, h_tx, rfl⟩
      exact ⟨tx, h_tx, by rw [Tx.hash, toBytes_eq h_tx]⟩

/-- The bytes of an empty send. -/
theorem toBytes_of_ofBytes_send :
    let bytes : Octets := [0x02, 0xC5, 0xC2, 0x80, 0x80, 0xC0, 0xC0]
    let tx : Tx := .send ⟨{}, [], []⟩
    ofBytes bytes = .ok tx ∧ tx.toBytes = bytes ∧
      Construction.hash (Hex.marked bytes) = .ok tx.hash := by
  have h_tx : ofBytes [0x02, 0xC5, 0xC2, 0x80, 0x80, 0xC0, 0xC0] = .ok (.send ⟨{}, [], []⟩) := rfl
  obtain ⟨h_bytes, -, h_hash⟩ := toBytes_of_ofBytes [0x02, 0xC5, 0xC2, 0x80, 0x80, 0xC0, 0xC0]
  have h_hex : Hex.ofText? (Hex.marked [0x02, 0xC5, 0xC2, 0x80, 0x80, 0xC0, 0xC0]) =
      some [0x02, 0xC5, 0xC2, 0x80, 0x80, 0xC0, 0xC0] := Hex.ofText?_marked _
  exact ⟨h_tx, h_bytes _ h_tx, (h_hash _ _ h_hex).mpr ⟨_, h_tx, rfl⟩⟩

end Tx

end RosettaGateway
