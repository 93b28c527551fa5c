import RosettaGateway.Tx.Parts

/-!
# Bodies of transactions

One structure for each kind, with its codecs. The fields stand in the order of the wire form, which
is also their order when a body is given as a JSON array. A JSON field is known by its name and by
the capitalised name some nodes use.
-/

namespace RosettaGateway.Tx

open Json (Record)

/-- Purposes as JSON: numbers up to 255, never texts. -/
def purposeJson : Json.Codec UInt8 where
  check := (Json.Codec.natural 255).check
  read v := ((Json.Codec.natural 255).read v).map UInt8.ofNat
  write n := .ofNat n.toNat

/-- Pays the proposer of a block and others at its height. -/
structure Coinbase where
  proposer : Input
  outputs : List Output
  blockHeight : UInt64
  deriving DecidableEq

/-- Punishes an account that overspent its reserve. -/
structure Slash where
  proposer : Input
  slashedAddress : Address
  reserveSequence : UInt64
  slashProof : Octets
  deriving DecidableEq

/-- Moves coins from inputs to outputs. -/
structure Send where
  fee : Coins
  inputs : List Input
  outputs : List Output
  deriving DecidableEq

/-- Sets funds aside for resources. -/
structure ReserveFund where
  fee : Coins
  source : Input
  resourceIds : List String
  collateral : Coins
  duration : UInt64
  deriving DecidableEq

/-- Gives reserved funds back. -/
structure ReleaseFund where
  fee : Coins
  source : Input
  reserveSequence : UInt64
  deriving DecidableEq

/-- Pays for a resource out of a reserve. -/
structure ServicePayment where
  fee : Coins
  source : Input
  target : Input
  paymentSequence : UInt64
  reserveSequence : UInt64
  resourceId : String
  deriving DecidableEq

/-- Fixes who shares in the payments for a resource. -/
structure SplitRule where
  fee : Coins
  resourceId : String
  initiator : Input
  splits : List Split
  duration : UInt64
  deriving DecidableEq

/-- Calls a contract. -/
structure SmartContract where
  sender : Input
  recipient : Output
  gasLimit : UInt64
  gasPrice : Nat
  data : Octets
  deriving DecidableEq

/-- Stakes coins with a holder. -/
structure DepositStake where
  fee : Coins
  source : Input
  holder : Output
  purpose : UInt8
  deriving DecidableEq

/-- Stakes coins with a holder that registers its keys. -/
structure DepositStakeV2 where
  fee : Coins
  source : Input
  holder : Output
  purpose : UInt8
  blsPubkey : Octets
  blsPop : Octets
  holderSig : Octets
  deriving DecidableEq

/-- Takes a stake back from a holder; it is paid out after the locking period. -/
structure WithdrawStake where
  fee : Coins
  source : Input
  holder : Output
  purpose : UInt8
  deriving DecidableEq

/-- Fixes who receives a part of the rewards of a holder. -/
structure StakeRewardDistribution where
  fee : Coins
  holder : Input
  beneficiary : Output
  splitBasisPoint : UInt64
  deriving DecidableEq

namespace Coinbase

/-- The body as JSON. -/
def json : Json.Codec Coinbase :=
  (((Record.required "proposer" Input.json ["Proposer"]).and <|
    (Record.defaulted "outputs" Output.json.list [] ["Outputs"]).and
    (Record.defaulted "block_height" Counter.json 0 ["BlockHeight"])).map
      (fun (proposer, outputs, blockHeight) =>
        ⟨proposer, outputs, blockHeight⟩)
      (fun tx =>
        (tx.proposer, tx.outputs, tx.blockHeight))).codec

/-- The body on the wire. -/
def wire : Rlp.Codec Coinbase :=
  ((Input.wire.and <| Output.wire.list.and Rlp.Codec.uint64).map
      (fun (proposer, outputs, blockHeight) =>
        ⟨proposer, outputs, blockHeight⟩)
      (fun tx =>
        (tx.proposer, tx.outputs, tx.blockHeight))).structured

end Coinbase

namespace Slash

/-- The body as JSON. -/
def json : Json.Codec Slash :=
  (((Record.required "proposer" Input.json ["Proposer"]).and <|
    (Record.defaulted "slashed_address" Address.json Address.zero ["SlashedAddress"]).and <|
    (Record.defaulted "reserve_sequence" Counter.json 0 ["ReserveSequence"]).and
    (Record.defaulted "slash_proof" Octets.json [] ["SlashProof"])).map
      (fun (proposer, slashedAddress, reserveSequence, slashProof) =>
        ⟨proposer, slashedAddress, reserveSequence, slashProof⟩)
      (fun tx =>
        (tx.proposer, tx.slashedAddress, tx.reserveSequence, tx.slashProof))).codec

/-- The body on the wire. -/
def wire : Rlp.Codec Slash :=
  ((Input.wire.and <| Rlp.Codec.address.and <| Rlp.Codec.uint64.and Rlp.Codec.bytes).map
      (fun (proposer, slashedAddress, reserveSequence, slashProof) =>
        ⟨proposer, slashedAddress, reserveSequence, slashProof⟩)
      (fun tx =>
        (tx.proposer, tx.slashedAddress, tx.reserveSequence, tx.slashProof))).structured

end Slash

namespace Send

/-- The body as JSON. -/
def json : Json.Codec Send :=
  (((Record.defaulted "fee" Coins.json {} ["Fee"]).and <|
    (Record.defaulted "inputs" Input.json.list [] ["Inputs"]).and
    (Record.defaulted "outputs" Output.json.list [] ["Outputs"])).map
      (fun (fee, inputs, outputs) =>
        ⟨fee, inputs, outputs⟩)
      (fun tx =>
        (tx.fee, tx.inputs, tx.outputs))).codec

/-- The body on the wire. -/
def wire : Rlp.Codec Send :=
  ((Rlp.Codec.coins.and <| Input.wire.list.and Output.wire.list).map
      (fun (fee, inputs, outputs) =>
        ⟨fee, inputs, outputs⟩)
      (fun tx =>
        (tx.fee, tx.inputs, tx.outputs))).structured

end Send

namespace ReserveFund

/-- The body as JSON. -/
def json : Json.Codec ReserveFund :=
  (((Record.defaulted "fee" Coins.json {} ["Fee"]).and <|
    (Record.required "source" Input.json ["Source"]).and <|
    (Record.defaulted "resource_ids" Json.Codec.string.list [] ["ResourceIDs"]).and <|
    (Record.defaulted "collateral" Coins.json {} ["Collateral"]).and
    (Record.defaulted "duration" Counter.json 0 ["Duration"])).map
      (fun (fee, source, resourceIds, collateral, duration) =>
        ⟨fee, source, resourceIds, collateral, duration⟩)
      (fun tx =>
        (tx.fee, tx.source, tx.resourceIds, tx.collateral, tx.duration))).codec

/-- The body on the wire. -/
def wire : Rlp.Codec ReserveFund :=
  ((Rlp.Codec.coins.and <| Input.wire.and <| Rlp.Codec.text.list.and <|
    Rlp.Codec.coins.and Rlp.Codec.uint64).map
      (fun (fee, source, resourceIds, collateral, duration) =>
        ⟨fee, source, resourceIds, collateral, duration⟩)
      (fun tx =>
        (tx.fee, tx.source, tx.resourceIds, tx.collateral, tx.duration))).structured

end ReserveFund

namespace ReleaseFund

/-- The body as JSON. -/
def json : Json.Codec ReleaseFund :=
  (((Record.defaulted "fee" Coins.json {} ["Fee"]).and <|
    (Record.required "source" Input.json ["Source"]).and
    (Record.defaulted "reserve_sequence" Counter.json 0 ["ReserveSequence"])).map
      (fun (fee, source, reserveSequence) =>
        ⟨fee, source, reserveSequence⟩)
      (fun tx =>
        (tx.fee, tx.source, tx.reserveSequence))).codec

/-- The body on the wire. -/
def wire : Rlp.Codec ReleaseFund :=
  ((Rlp.Codec.coins.and <| Input.wire.and Rlp.Codec.uint64).map
      (fun (fee, source, reserveSequence) =>
        ⟨fee, source, reserveSequence⟩)
      (fun tx =>
        (tx.fee, tx.source, tx.reserveSequence))).structured

end ReleaseFund

namespace ServicePayment

/-- The body as JSON. -/
def json : Json.Codec ServicePayment :=
  (((Record.defaulted "fee" Coins.json {} ["Fee"]).and <|
    (Record.required "source" Input.json ["Source"]).and <|
    (Record.required "target" Input.json ["Target"]).and <|
    (Record.defaulted "payment_sequence" Counter.json 0 ["PaymentSequence"]).and <|
    (Record.defaulted "reserve_sequence" Counter.json 0 ["ReserveSequence"]).and
    (Record.defaulted "resource_id" Json.Codec.string "" ["ResourceID"])).map
      (fun (fee, source, target, paymentSequence, reserveSequence, resourceId) =>
        ⟨fee, source, target, paymentSequence, reserveSequence, resourceId⟩)
      (fun tx =>
        (tx.fee, tx.source, tx.target, tx.paymentSequence, tx.reserveSequence,
          tx.resourceId))).codec

/-- The body on the wire. -/
def wire : Rlp.Codec ServicePayment :=
  ((Rlp.Codec.coins.and <| Input.wire.and <| Input.wire.and <|
    Rlp.Codec.uint64.and <| Rlp.Codec.uint64.and Rlp.Codec.text).map
      (fun (fee, source, target, paymentSequence, reserveSequence, resourceId) =>
        ⟨fee, source, target, paymentSequence, reserveSequence, resourceId⟩)
      (fun tx =>
        (tx.fee, tx.source, tx.target, tx.paymentSequence, tx.reserveSequence,
          tx.resourceId))).structured

end ServicePayment

namespace SplitRule

/-- The body as JSON. -/
def json : Json.Codec SplitRule :=
  (((Record.defaulted "fee" Coins.json {} ["Fee"]).and <|
    (Record.defaulted "resource_id" Json.Codec.string "" ["ResourceID"]).and <|
    (Record.required "initiator" Input.json ["Initiator"]).and <|
    (Record.defaulted "splits" Split.json.list [] ["Splits"]).and
    (Record.defaulted "duration" Counter.json 0 ["Duration"])).map
      (fun (fee, resourceId, initiator, splits, duration) =>
        ⟨fee, resourceId, initiator, splits, duration⟩)
      (fun tx =>
        (tx.fee, tx.resourceId, tx.initiator, tx.splits, tx.duration))).codec

/-- The body on the wire. -/
def wire : Rlp.Codec SplitRule :=
  ((Rlp.Codec.coins.and <| Rlp.Codec.text.and <| Input.wire.and <|
    Split.wire.list.and Rlp.Codec.uint64).map
      (fun (fee, resourceId, initiator, splits, duration) =>
        ⟨fee, resourceId, initiator, splits, duration⟩)
      (fun tx =>
        (tx.fee, tx.resourceId, tx.initiator, tx.splits, tx.duration))).structured

end SplitRule

namespace SmartContract

/-- The body as JSON. -/
def json : Json.Codec SmartContract :=
  (((Record.required "from" Input.json ["From"]).and <|
    (Record.required "to" Output.json ["To"]).and <|
    (Record.defaulted "gas_limit" Counter.json 0 ["GasLimit"]).and <|
    (Record.defaulted "gas_price" Wei.json 0 ["GasPrice"]).and
    (Record.defaulted "data" Octets.json [] ["Data"])).map
      (fun (sender, recipient, gasLimit, gasPrice, data) =>
        ⟨sender, recipient, gasLimit, gasPrice, data⟩)
      (fun tx =>
        (tx.sender, tx.recipient, tx.gasLimit, tx.gasPrice, tx.data))).codec

/-- The body on the wire. -/
def wire : Rlp.Codec SmartContract :=
  ((Input.wire.and <| Output.wire.and <| Rlp.Codec.uint64.and <|
    Rlp.Codec.natural.and Rlp.Codec.bytes).map
      (fun (sender, recipient, gasLimit, gasPrice, data) =>
        ⟨sender, recipient, gasLimit, gasPrice, data⟩)
      (fun tx =>
        (tx.sender, tx.recipient, tx.gasLimit, tx.gasPrice, tx.data))).structured

end SmartContract

namespace DepositStake

/-- The body as JSON. -/
def json : Json.Codec DepositStake :=
  (((Record.defaulted "fee" Coins.json {} ["Fee"]).and <|
    (Record.required "source" Input.json ["Source"]).and <|
    (Record.required "holder" Output.json ["Holder"]).and
    (Record.defaulted "purpose" purposeJson 0 ["Purpose"])).map
      (fun (fee, source, holder, purpose) =>
        ⟨fee, source, holder, purpose⟩)
      (fun tx =>
        (tx.fee, tx.source, tx.holder, tx.purpose))).codec

/-- The body on the wire. -/
def wire : Rlp.Codec DepositStake :=
  ((Rlp.Codec.coins.and <| Input.wire.and <| Output.wire.and Rlp.Codec.uint8).map
      (fun (fee, source, holder, purpose) =>
        ⟨fee, source, holder, purpose⟩)
      (fun tx =>
        (tx.fee, tx.source, tx.holder, tx.purpose))).structured

end DepositStake

namespace DepositStakeV2

/-- The body as JSON. -/
def json : Json.Codec DepositStakeV2 :=
  (((Record.defaulted "fee" Coins.json {} ["Fee"]).and <|
    (Record.required "source" Input.json ["Source"]).and <|
    (Record.required "holder" Output.json ["Holder"]).and <|
    (Record.defaulted "purpose" purposeJson 0 ["Purpose"]).and <|
    (Record.defaulted "bls_pubkey" Octets.json [] ["BlsPubkey"]).and <|
    (Record.defaulted "bls_pop" Octets.json [] ["BlsPop"]).and
    (Record.defaulted "holder_sig" Octets.json [] ["HolderSig"])).map
      (fun (fee, source, holder, purpose, blsPubkey, blsPop, holderSig) =>
        ⟨fee, source, holder, purpose, blsPubkey, blsPop, holderSig⟩)
      (fun tx =>
        (tx.fee, tx.source, tx.holder, tx.purpose, tx.blsPubkey, tx.blsPop, tx.holderSig))).codec

/-- The body on the wire. -/
def wire : Rlp.Codec DepositStakeV2 :=
  ((Rlp.Codec.coins.and <| Input.wire.and <| Output.wire.and <|
    Rlp.Codec.uint8.and <| Rlp.Codec.bytes.and <| Rlp.Codec.bytes.and Rlp.Codec.bytes).map
      (fun (fee, source, holder, purpose, blsPubkey, blsPop, holderSig) =>
        ⟨fee, source, holder, purpose, blsPubkey, blsPop, holderSig⟩)
      (fun tx =>
        (tx.fee, tx.source, tx.holder, tx.purpose, tx.blsPubkey, tx.blsPop,
          tx.holderSig))).structured

end DepositStakeV2

namespace WithdrawStake

/-- The body as JSON. -/
def json : Json.Codec WithdrawStake :=
  (((Record.defaulted "fee" Coins.json {} ["Fee"]).and <|
    (Record.required "source" Input.json ["Source"]).and <|
    (Record.required "holder" Output.json ["Holder"]).and
    (Record.defaulted "purpose" purposeJson 0 ["Purpose"])).map
      (fun (fee, source, holder, purpose) =>
        ⟨fee, source, holder, purpose⟩)
      (fun tx =>
        (tx.fee, tx.source, tx.holder, tx.purpose))).codec

/-- The body on the wire. -/
def wire : Rlp.Codec WithdrawStake :=
  ((Rlp.Codec.coins.and <| Input.wire.and <| Output.wire.and Rlp.Codec.uint8).map
      (fun (fee, source, holder, purpose) =>
        ⟨fee, source, holder, purpose⟩)
      (fun tx =>
        (tx.fee, tx.source, tx.holder, tx.purpose))).structured

end WithdrawStake

namespace StakeRewardDistribution

/-- The body as JSON. -/
def json : Json.Codec StakeRewardDistribution :=
  (((Record.defaulted "fee" Coins.json {} ["Fee"]).and <|
    (Record.required "holder" Input.json ["Holder"]).and <|
    (Record.required "beneficiary" Output.json ["Beneficiary"]).and
    (Record.defaulted "split_basis_point" Counter.json 0 ["SplitBasisPoint"])).map
      (fun (fee, holder, beneficiary, splitBasisPoint) =>
        ⟨fee, holder, beneficiary, splitBasisPoint⟩)
      (fun tx =>
        (tx.fee, tx.holder, tx.beneficiary, tx.splitBasisPoint))).codec

/-- The body on the wire. -/
def wire : Rlp.Codec StakeRewardDistribution :=
  ((Rlp.Codec.coins.and <| Input.wire.and <| Output.wire.and Rlp.Codec.uint64).map
      (fun (fee, holder, beneficiary, splitBasisPoint) =>
        ⟨fee, holder, beneficiary, splitBasisPoint⟩)
      (fun tx =>
        (tx.fee, tx.holder, tx.beneficiary, tx.splitBasisPoint))).structured

end StakeRewardDistribution

end RosettaGateway.Tx
