import RosettaGateway.Chain.Parameters
import RosettaGateway.Operation.Layout

/-!
# Transaction of operations

`Tx.ofOperations` builds the transaction of a kind from its operations and the metadata. It takes
the layout that `Tx.describe` gives and no other; operations that are left over are refused.

The sequence and the signature of a signing party are looked up in the metadata of its operation
first and then in the metadata of the transaction, where requests put the sequence.
-/

namespace RosettaGateway

namespace Metadata

/-- The counter of an entry, or a default. -/
def counterOr (m : Metadata) (key : String) (default : UInt64) : Except TxError UInt64 := do
  let n ← m.counter? key
  return n.getD default

/-- The byte string of an entry, or the empty one. -/
def bytesOrEmpty (m : Metadata) (key : String) : Except TxError Octets := do
  let bytes ← m.bytes? key
  return bytes.getD []

/-- The string of an entry, or the empty one. -/
def stringOrEmpty (m : Metadata) (key : String) : Except TxError String := do
  let s ← m.string? key
  return s.getD ""

end Metadata

namespace Operation

/-- The sequence of a signing party. An entry of the operation counts even if it is `null`, which is
zero. -/
def sequence (op : Operation) (m : Metadata) : Except TxError UInt64 :=
  match op.metadata.bind (·.get? "sequence") with
  | none => m.counterOr "sequence" 0
  | some v =>
    match Metadata.readCounter v with
    | .ok n => .ok n
    | .error fault => .error (.invalidEntry "sequence" fault)

/-- The signature of a signing party. -/
def signature (op : Operation) (m : Metadata) : Except TxError Octets := do
  let own ← (op.metadata.getD .empty).bytes? "signature"
  match own with
  | some bytes => return bytes
  | none => m.bytesOrEmpty "signature"

/-- The input of a signing party. -/
def input (op : Operation) (m : Metadata) (account : Address) (coins : Coins) :
    Except TxError Tx.Input := do
  let sequence ← op.sequence m
  let signature ← op.signature m
  return ⟨account, coins, sequence, signature⟩

end Operation

namespace Tx

/-- Reads the legs of a party that pays, and the fee, which is its own. The party signs on its first
leg, or on the fee if it has no other. -/
def payingParty (cursor : Cursor) (type : OperationType) (m : Metadata) :
    Except TxError (Coins × Input × Cursor) := do
  let (party, cursor) ← cursor.party type true
  let (fee, cursor) ← cursor.fee (party.map (·.account))
  let coins := (party.map (·.coins)).getD {}
  let source ← ((party.map (·.first)).getD fee.source).input m fee.payer coins
  return (.ofTfuel fee.amount, source, cursor)

/-- Reads the holder of a stake. -/
def holderOf (m : Metadata) : Except TxError Output := do
  let account ← Metadata.demand "holder" (m.address? "holder")
  return ⟨account, {}⟩

/-- Reads the purpose of a stake. -/
def purposeOf (m : Metadata) : Except TxError UInt8 := Metadata.demand "purpose" (m.byte? "purpose")

namespace Coinbase

/-- Reads an output. -/
def output (op : Operation) : Except TxError Output := do
  let leg ← op.posting
  leg.requireCoin .coinbase .tfuel
  let amount ← leg.credit .coinbase
  return ⟨leg.account, .ofTfuel amount⟩

/-- Builds the body from operations. -/
def ofOperations (cursor : Cursor) (m : Metadata) : Except TxError (Coinbase × Cursor) := do
  let (proposer, cursor) ← cursor.one .coinbaseProposer
  let outputs ← (cursor.run .coinbaseOutput).mapM output
  let proposer ← proposer.source.input m proposer.account {}
  let blockHeight ← m.counterOr "block_height" 0
  return (⟨proposer, outputs, blockHeight⟩, cursor.skipRun .coinbaseOutput)

end Coinbase

namespace Slash

/-- Builds the body from operations. -/
def ofOperations (cursor : Cursor) (m : Metadata) : Except TxError (Slash × Cursor) := do
  let (proposer, cursor) ← cursor.one .slashProposer
  let proposer ← proposer.source.input m proposer.account {}
  let slashedAddress ← Metadata.demand "slashed_address" (m.address? "slashed_address")
  let reserveSequence ← m.counterOr "reserve_sequence" 0
  let slashProof ← m.bytesOrEmpty "slash_proof"
  return (⟨proposer, slashedAddress, reserveSequence, slashProof⟩, cursor)

end Slash

namespace Send

/-- Reads the pair of legs of an input, and what its TFUEL leg pays. The input that pays the fee has
the first pair, at position zero; its TFUEL leg does not show the fee and may even receive. -/
def inputOf (m : Metadata) (position : Nat) (theta tfuel : Posting) :
    Except TxError (Int × Input) := do
  let paid ← theta.debit .send
  let net : Int ←
    -- The fee is added to the first input once it has been read.
    if position = 0 then .ok (-tfuel.value) else (tfuel.debit .send).map Int.ofNat
  let i ← theta.source.input m theta.account ⟨paid, net.toNat⟩
  return (net, i)

/-- Reads the pair of legs of an output. -/
def outputOf (_ : Nat) (theta tfuel : Posting) : Except TxError Output := do
  let received ← theta.credit .send
  let receivedTfuel ← tfuel.credit .send
  return ⟨theta.account, ⟨received, receivedTfuel⟩⟩

/-- Adds the fee to what the first input spends. -/
def withFee (net : Int) (payer : Input) (fee : Nat) : Except TxError Input :=
  if 0 ≤ net + fee then
    .ok { payer with coins := { payer.coins with tfuel := (net + fee).toNat } }
  else .error (.layout .send .feeNotCovered)

/-- Builds the body from operations. -/
def ofOperations (cursor : Cursor) (m : Metadata) : Except TxError (Send × Cursor) := do
  let (inputs, cursor) ← cursor.pairs .sendInput (inputOf m)
  let (outputs, cursor) ← cursor.pairs .sendOutput outputOf
  match inputs with
  | [] => .error (.layout .send .noInput)
  | (net, payer) :: others =>
    let (fee, cursor) ← cursor.fee (some payer.address)
    let payer ← withFee net payer fee.amount
    return (⟨.ofTfuel fee.amount, payer :: others.map Prod.snd, outputs⟩, cursor)

end Send

namespace ReserveFund

/-- Builds the body from operations. -/
def ofOperations (cursor : Cursor) (m : Metadata) : Except TxError (ReserveFund × Cursor) := do
  let (fee, source, cursor) ← payingParty cursor .reserveFundSource m
  let resourceIds ← m.typed? "resource_ids" Json.Codec.string.list
  let collateral ← m.typed? "collateral" Coins.json
  let duration ← m.counterOr "duration" 0
  return (⟨fee, source, resourceIds.getD [], collateral.getD {}, duration⟩, cursor)

end ReserveFund

namespace ReleaseFund

/-- Builds the body from operations. -/
def ofOperations (cursor : Cursor) (m : Metadata) : Except TxError (ReleaseFund × Cursor) := do
  let (fee, source, cursor) ← payingParty cursor .releaseFundSource m
  let reserveSequence ← m.counterOr "reserve_sequence" 0
  return (⟨fee, source, reserveSequence⟩, cursor)

end ReleaseFund

namespace ServicePayment

/-- Builds the body from operations. -/
def ofOperations (cursor : Cursor) (m : Metadata) : Except TxError (ServicePayment × Cursor) := do
  let (sourceLeg, cursor) ← cursor.one .servicePaymentSource
  sourceLeg.requireCoin .servicePayment .tfuel
  let (targetLeg, cursor) ← cursor.one .servicePaymentTarget
  targetLeg.requireCoin .servicePayment .tfuel
  let (fee, cursor) ← cursor.fee (some targetLeg.account)
  let paid ← sourceLeg.debit .servicePayment
  let source ← sourceLeg.source.input m sourceLeg.account (.ofTfuel paid)
  let received ← targetLeg.credit .servicePayment
  let target ← targetLeg.source.input m targetLeg.account (.ofTfuel received)
  let paymentSequence ← m.counterOr "payment_sequence" 0
  let reserveSequence ← m.counterOr "reserve_sequence" 0
  let resourceId ← m.stringOrEmpty "resource_id"
  return (⟨.ofTfuel fee.amount, source, target, paymentSequence, reserveSequence, resourceId⟩,
    cursor)

end ServicePayment

namespace SplitRule

/-- Builds the body from operations. -/
def ofOperations (cursor : Cursor) (m : Metadata) : Except TxError (SplitRule × Cursor) := do
  let (leg, cursor) ← cursor.one .splitRuleInitiator
  leg.requireCoin .splitRule .tfuel
  let (fee, cursor) ← cursor.fee (some leg.account)
  let resourceId ← m.stringOrEmpty "resource_id"
  let paid ← leg.debit .splitRule
  let initiator ← leg.source.input m leg.account (.ofTfuel paid)
  let splits ← m.typed? "splits" Split.json.list
  let duration ← m.counterOr "duration" 0
  return (⟨.ofTfuel fee.amount, resourceId, initiator, splits.getD [], duration⟩, cursor)

end SplitRule

namespace SmartContract

/-- Builds the body from operations. -/
def ofOperations (cursor : Cursor) (m : Metadata) : Except TxError (SmartContract × Cursor) := do
  let (sender, cursor) ← cursor.party .smartContractFrom true
  let (recipient, cursor) ← cursor.party .smartContractTo false
  match sender, recipient with
  | none, _ => .error (.layout .smartContract (.missing OperationType.smartContractFrom.name))
  | _, none => .error (.layout .smartContract (.missing OperationType.smartContractTo.name))
  | some sender, some recipient =>
    let source ← sender.first.input m sender.account sender.coins
    let gasLimit ← m.counterOr "gas_limit" Chain.defaultGasLimit
    let gasPrice ← m.amount? "gas_price"
    let data ← m.bytesOrEmpty "data"
    return (⟨source, ⟨recipient.account, recipient.coins⟩, gasLimit, gasPrice.getD 0, data⟩, cursor)

end SmartContract

namespace DepositStake

/-- Builds the body from operations. -/
def ofOperations (cursor : Cursor) (m : Metadata) : Except TxError (DepositStake × Cursor) := do
  let (fee, source, cursor) ← payingParty cursor .depositStakeSource m
  let holder ← holderOf m
  let purpose ← purposeOf m
  return (⟨fee, source, holder, purpose⟩, cursor)

end DepositStake

namespace DepositStakeV2

/-- Builds the body from operations. -/
def ofOperations (cursor : Cursor) (m : Metadata) : Except TxError (DepositStakeV2 × Cursor) := do
  let (fee, source, cursor) ← payingParty cursor .depositStakeSource m
  let holder ← holderOf m
  let purpose ← purposeOf m
  let blsPubkey ← m.bytesOrEmpty "bls_pub_key"
  let blsPop ← m.bytesOrEmpty "bls_pop"
  let holderSig ← m.bytesOrEmpty "holder_sig"
  return (⟨fee, source, holder, purpose, blsPubkey, blsPop, holderSig⟩, cursor)

end DepositStakeV2

namespace WithdrawStake

/-- Builds the body from operations. -/
def ofOperations (cursor : Cursor) (m : Metadata) : Except TxError (WithdrawStake × Cursor) := do
  let (fee, cursor) ← cursor.fee none
  let source ← fee.source.input m fee.payer {}
  let holder ← holderOf m
  let purpose ← purposeOf m
  return (⟨.ofTfuel fee.amount, source, holder, purpose⟩, cursor)

end WithdrawStake

namespace StakeRewardDistribution

/-- Builds the body from operations. -/
def ofOperations (cursor : Cursor) (m : Metadata) :
    Except TxError (StakeRewardDistribution × Cursor) := do
  let (party, cursor) ← cursor.party .stakeRewardBeneficiary false
  let (fee, cursor) ← cursor.fee none
  let account ← match party with
    | some party => .ok party.account
    | none => Metadata.demand "beneficiary" (m.address? "beneficiary")
  let holder ← fee.source.input m fee.payer {}
  let splitBasisPoint ← m.counterOr "split_basis_point" 0
  let beneficiary : Output := ⟨account, (party.map (·.coins)).getD {}⟩
  return (⟨.ofTfuel fee.amount, holder, beneficiary, splitBasisPoint⟩, cursor)

end StakeRewardDistribution

/-- Builds a transaction from the front of a list of operations. -/
def readLayout (m : Metadata) (cursor : Cursor) : Except TxError (Tx × Cursor) :=
  match cursor.kind with
  | .coinbase => (Coinbase.ofOperations cursor m).map (.map .coinbase id)
  | .slash => (Slash.ofOperations cursor m).map (.map .slash id)
  | .send => (Send.ofOperations cursor m).map (.map .send id)
  | .reserveFund => (ReserveFund.ofOperations cursor m).map (.map .reserveFund id)
  | .releaseFund => (ReleaseFund.ofOperations cursor m).map (.map .releaseFund id)
  | .servicePayment => (ServicePayment.ofOperations cursor m).map (.map .servicePayment id)
  | .splitRule => (SplitRule.ofOperations cursor m).map (.map .splitRule id)
  | .smartContract => (SmartContract.ofOperations cursor m).map (.map .smartContract id)
  | .depositStake => (DepositStake.ofOperations cursor m).map (.map .depositStake id)
  | .withdrawStake => (WithdrawStake.ofOperations cursor m).map (.map .withdrawStake id)
  | .depositStakeV2 => (DepositStakeV2.ofOperations cursor m).map (.map .depositStakeV2 id)
  | .stakeRewardDistribution =>
    (StakeRewardDistribution.ofOperations cursor m).map (.map .stakeRewardDistribution id)

/-- The transaction of a kind with the given operations and metadata. -/
def ofOperations (k : Kind) (ops : List Operation) (m : Metadata) : Except TxError Tx := do
  let (tx, cursor) ← readLayout m (.start k ops)
  cursor.finish
  return tx

end Tx

end RosettaGateway
