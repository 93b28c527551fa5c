import RosettaGateway.Tx.Body
import RosettaGateway.Tx.Kind

/-!
# Transactions

`Tx` is a transaction of any kind. Its signing inputs are the parties that carry a signature;
`Tx.mapInputs` changes them and nothing else, and everything about signatures is said through these
two.
-/

namespace RosettaGateway

/-- A transaction. -/
inductive Tx where
  | coinbase (body : Tx.Coinbase)
  | slash (body : Tx.Slash)
  | send (body : Tx.Send)
  | reserveFund (body : Tx.ReserveFund)
  | releaseFund (body : Tx.ReleaseFund)
  | servicePayment (body : Tx.ServicePayment)
  | splitRule (body : Tx.SplitRule)
  | smartContract (body : Tx.SmartContract)
  | depositStake (body : Tx.DepositStake)
  | withdrawStake (body : Tx.WithdrawStake)
  | depositStakeV2 (body : Tx.DepositStakeV2)
  | stakeRewardDistribution (body : Tx.StakeRewardDistribution)
  deriving DecidableEq

namespace Tx

/-- The kind of a transaction. -/
def kind : Tx → Kind
  | .coinbase _ => .coinbase
  | .slash _ => .slash
  | .send _ => .send
  | .reserveFund _ => .reserveFund
  | .releaseFund _ => .releaseFund
  | .servicePayment _ => .servicePayment
  | .splitRule _ => .splitRule
  | .smartContract _ => .smartContract
  | .depositStake _ => .depositStake
  | .withdrawStake _ => .withdrawStake
  | .depositStakeV2 _ => .depositStakeV2
  | .stakeRewardDistribution _ => .stakeRewardDistribution

/-! ### JSON -/

/-- Reads the body of a transaction of a given kind. -/
def ofJson? (k : Kind) (raw : Json) : Option Tx :=
  match k with
  | .coinbase => (Coinbase.json.ofJson raw).map .coinbase
  | .slash => (Slash.json.ofJson raw).map .slash
  | .send => (Send.json.ofJson raw).map .send
  | .reserveFund => (ReserveFund.json.ofJson raw).map .reserveFund
  | .releaseFund => (ReleaseFund.json.ofJson raw).map .releaseFund
  | .servicePayment => (ServicePayment.json.ofJson raw).map .servicePayment
  | .splitRule => (SplitRule.json.ofJson raw).map .splitRule
  | .smartContract => (SmartContract.json.ofJson raw).map .smartContract
  | .depositStake => (DepositStake.json.ofJson raw).map .depositStake
  | .withdrawStake => (WithdrawStake.json.ofJson raw).map .withdrawStake
  | .depositStakeV2 => (DepositStakeV2.json.ofJson raw).map .depositStakeV2
  | .stakeRewardDistribution =>
    (StakeRewardDistribution.json.ofJson raw).map .stakeRewardDistribution

/-- The body of a transaction as JSON. -/
def toJson : Tx → Json
  | .coinbase body => Coinbase.json.write body
  | .slash body => Slash.json.write body
  | .send body => Send.json.write body
  | .reserveFund body => ReserveFund.json.write body
  | .releaseFund body => ReleaseFund.json.write body
  | .servicePayment body => ServicePayment.json.write body
  | .splitRule body => SplitRule.json.write body
  | .smartContract body => SmartContract.json.write body
  | .depositStake body => DepositStake.json.write body
  | .withdrawStake body => WithdrawStake.json.write body
  | .depositStakeV2 body => DepositStakeV2.json.write body
  | .stakeRewardDistribution body => StakeRewardDistribution.json.write body

/-! ### Signatures -/

/-- The parties that carry a signature. -/
def signingInputs : Tx → List Input
  | .coinbase body => [body.proposer]
  | .slash body => [body.proposer]
  | .send body => body.inputs
  | .reserveFund body => [body.source]
  | .releaseFund body => [body.source]
  | .servicePayment body => [body.source, body.target]
  | .splitRule body => [body.initiator]
  | .smartContract body => [body.sender]
  | .depositStake body => [body.source]
  | .withdrawStake body => [body.source]
  | .depositStakeV2 body => [body.source]
  | .stakeRewardDistribution body => [body.holder]

/-- Changes every party that carries a signature. -/
def mapInputs (f : Input → Input) : Tx → Tx
  | .coinbase body => .coinbase { body with proposer := f body.proposer }
  | .slash body => .slash { body with proposer := f body.proposer }
  | .send body => .send { body with inputs := body.inputs.map f }
  | .reserveFund body => .reserveFund { body with source := f body.source }
  | .releaseFund body => .releaseFund { body with source := f body.source }
  | .servicePayment body =>
    .servicePayment { body with source := f body.source, target := f body.target }
  | .splitRule body => .splitRule { body with initiator := f body.initiator }
  | .smartContract body => .smartContract { body with sender := f body.sender }
  | .depositStake body => .depositStake { body with source := f body.source }
  | .withdrawStake body => .withdrawStake { body with source := f body.source }
  | .depositStakeV2 body => .depositStakeV2 { body with source := f body.source }
  | .stakeRewardDistribution body => .stakeRewardDistribution { body with holder := f body.holder }

@[simp] theorem kind_mapInputs (f : Input → Input) (tx : Tx) : (tx.mapInputs f).kind = tx.kind := by
  cases tx <;> rfl

@[simp] theorem signingInputs_mapInputs (f : Input → Input) (tx : Tx) :
    (tx.mapInputs f).signingInputs = tx.signingInputs.map f := by
  cases tx <;> rfl

/-- Two changes one after the other are one change. -/
@[simp] theorem mapInputs_mapInputs (f g : Input → Input) (tx : Tx) :
    (tx.mapInputs f).mapInputs g = tx.mapInputs fun i => g (f i) := by
  cases tx <;> simp [mapInputs, Function.comp_def]

/-- The account that signs the transaction when it is constructed. A service payment is signed by
its target, and a send without inputs by nobody. -/
def signer? : Tx → Option Address
  | .coinbase body => some body.proposer.address
  | .slash body => some body.proposer.address
  | .send body => body.inputs.head?.map (·.address)
  | .reserveFund body => some body.source.address
  | .releaseFund body => some body.source.address
  | .servicePayment body => some body.target.address
  | .splitRule body => some body.initiator.address
  | .smartContract body => some body.sender.address
  | .depositStake body => some body.source.address
  | .withdrawStake body => some body.source.address
  | .depositStakeV2 body => some body.source.address
  | .stakeRewardDistribution body => some body.holder.address

/-- The signer is told by accounts alone. -/
theorem signer?_mapInputs {f : Input → Input} (h_address : ∀ i, (f i).address = i.address)
    (tx : Tx) : (tx.mapInputs f).signer? = tx.signer? := by
  cases tx with
  | send body => simp [mapInputs, signer?, List.head?_map, Function.comp_def, h_address]
  | _ => simp [mapInputs, signer?, h_address]

/-- Whether an account owns a signing input. -/
def signedBy (tx : Tx) (a : Address) : Bool := tx.signingInputs.any fun i => i.address = a

/-- Puts a signature on every signing input of an account. -/
def setSignature (tx : Tx) (a : Address) (signature : Octets) : Tx :=
  tx.mapInputs fun i => if i.address = a then { i with signature } else i

/-- Whether any input carries a signature. -/
def isSigned (tx : Tx) : Bool := tx.signingInputs.any Input.isSigned

/-- The transaction without its signatures. -/
def unsigned (tx : Tx) : Tx := tx.mapInputs fun i => { i with signature := [] }

end Tx

end RosettaGateway
