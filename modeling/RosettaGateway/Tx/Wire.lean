import RosettaGateway.Tx.Error

/-!
# The wire form of transactions

A transaction is written as its kind and its body, one behind the other. Its hash is the hash of
these bytes.

What a signer signs is the name of the chain and the transaction without signatures, wrapped as the
data of an otherwise empty transaction of another chain, so that common wallets can sign it.
-/

namespace RosettaGateway.Tx

open Rlp (encodeBytes)

/-- The body of a transaction on the wire. -/
def encodeBody : Tx → Octets
  | .coinbase body => Coinbase.wire.encode body
  | .slash body => Slash.wire.encode body
  | .send body => Send.wire.encode body
  | .reserveFund body => ReserveFund.wire.encode body
  | .releaseFund body => ReleaseFund.wire.encode body
  | .servicePayment body => ServicePayment.wire.encode body
  | .splitRule body => SplitRule.wire.encode body
  | .smartContract body => SmartContract.wire.encode body
  | .depositStake body => DepositStake.wire.encode body
  | .withdrawStake body => WithdrawStake.wire.encode body
  | .depositStakeV2 body => DepositStakeV2.wire.encode body
  | .stakeRewardDistribution body => StakeRewardDistribution.wire.encode body

/-- The wire form of a transaction. -/
def toBytes (tx : Tx) : Octets := Rlp.Codec.uint8.encode tx.kind.code ++ tx.encodeBody

/-- The hash of a transaction. -/
def hash (tx : Tx) : Hash := keccak256 tx.toBytes

/-- What a decoder gives, as a transaction. -/
def wrap {α : Type} (make : α → Tx) :
    Except Rlp.Error (α × Octets) → Except Rlp.Error (Tx × Octets)
  | .ok (body, rest) => .ok (make body, rest)
  | .error e => .error e

/-- Reads the body of a transaction of a given kind. -/
def decodeBody (k : Kind) (bytes : Octets) : Except Rlp.Error (Tx × Octets) :=
  match k with
  | .coinbase => wrap .coinbase (Coinbase.wire.decode bytes)
  | .slash => wrap .slash (Slash.wire.decode bytes)
  | .send => wrap .send (Send.wire.decode bytes)
  | .reserveFund => wrap .reserveFund (ReserveFund.wire.decode bytes)
  | .releaseFund => wrap .releaseFund (ReleaseFund.wire.decode bytes)
  | .servicePayment => wrap .servicePayment (ServicePayment.wire.decode bytes)
  | .splitRule => wrap .splitRule (SplitRule.wire.decode bytes)
  | .smartContract => wrap .smartContract (SmartContract.wire.decode bytes)
  | .depositStake => wrap .depositStake (DepositStake.wire.decode bytes)
  | .withdrawStake => wrap .withdrawStake (WithdrawStake.wire.decode bytes)
  | .depositStakeV2 => wrap .depositStakeV2 (DepositStakeV2.wire.decode bytes)
  | .stakeRewardDistribution =>
    wrap .stakeRewardDistribution (StakeRewardDistribution.wire.decode bytes)

/-- Reads the kind of a transaction given by its number. -/
def kindOfCode (code : UInt64) : Except TxError Kind :=
  match Kind.ofCode? code with
  | some k => .ok k
  | none => .error (.unknownKind code)

/-- Reads a transaction from all of a byte string. -/
def ofBytes (bytes : Octets) : Except TxError Tx :=
  match Rlp.Codec.uint8.decode bytes with
  | .error e => .error (.wire e)
  | .ok (code, rest) =>
    match kindOfCode code.toUInt64 with
    | .error e => .error e
    | .ok k =>
      match decodeBody k rest with
      | .error e => .error (.wire e)
      | .ok (tx, []) => .ok tx
      | .ok (_, trailing) => .error (.trailingBytes trailing.length)

/-- Reads the body of a transaction of a given kind. -/
def ofJson (k : Kind) (raw : Json) : Except TxError Tx :=
  match ofJson? k raw with
  | some tx => .ok tx
  | none => .error .malformedJson

/-! ### What is signed -/

/-- The fields of the wrapping transaction: sequence, price and limit of gas, recipient, value,
data, and the three parts of its signature. -/
def envelopeFields (data : Octets) : List Octets :=
  [[], [], [], List.replicate 20 0, [], data, [], [], []]

/-- Wraps data as the data of an otherwise empty transaction. -/
def envelope (data : Octets) : Octets :=
  let fields := envelopeFields data
  Rlp.Header.encode ⟨true, Rlp.total (fields.map Rlp.bytesSize)⟩ ++ fields.flatMap encodeBytes

/-- The bytes a signer signs. -/
def signBytes (chainId : String) (tx : Tx) : Octets :=
  envelope (Rlp.Codec.text.encode chainId ++ tx.unsigned.toBytes)

/-- The hash a signer signs. -/
def signingHash (chainId : String) (tx : Tx) : Hash := keccak256 (tx.signBytes chainId)

end RosettaGateway.Tx
