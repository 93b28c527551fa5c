import RosettaGateway.Operation.Basic
import RosettaGateway.Stake.Return

/-!
# Operations of a transaction

`Tx.describe` gives the operations and the metadata of a transaction. What is paid is negative, what
is received positive, and fees are negative for the one who pays them. Legs come in the order
inputs, outputs, fee, and THETA before TFUEL within a party.

The sequence and the signature of a signing party ride on its first leg, or on the fee when it has
no other leg. A contract call has two views: before it is in a block, the amounts it names; after,
what the block says has moved, then the price of the gas.
-/

namespace RosettaGateway

/-- How much the balance of an account changed by a contract call. The token is 0 for THETA and 1
for TFUEL; others are not shown. -/
structure BalanceChange where
  address : Address
  token : UInt64 := 0
  isNegative : Bool := false
  delta : Nat := 0
  deriving DecidableEq

namespace BalanceChange

open Json (Record)

/-- Balance changes as JSON. -/
def json : Json.Codec BalanceChange :=
  (((Record.required "address" Address.json ["Address"]).and <|
    (Record.defaulted "token_type" Counter.json 0 ["TokenType"]).and <|
    (Record.defaulted "is_negative" Json.Codec.bool false ["IsNegative"]).and
    (Record.defaulted "delta" Wei.json 0 ["Delta"])).map
      (fun (address, token, isNegative, delta) => ⟨address, token, isNegative, delta⟩)
      (fun c => (c.address, c.token, c.isNegative, c.delta))).codec

/-- The coin that changed, if it is one of the two. -/
def coin? (c : BalanceChange) : Option Denom :=
  if c.token = 0 then some .theta else if c.token = 1 then some .tfuel else none

end BalanceChange

/-- What is known of a transaction besides itself: the status of its block, the gas it used and the
balance changes of a contract call. Without balance changes a call is shown as it was asked for. -/
structure TxContext where
  status : Option String := none
  gasUsed : UInt64 := 0
  changes : Option (List BalanceChange) := none

/-- The operations and the metadata of a transaction. -/
structure Description where
  metadata : Metadata
  operations : List Operation

namespace Tx

/-- The sequence and the signature of a signing party. -/
def Input.metadata (i : Input) : Metadata :=
  .ofList [("sequence", Counter.toJson i.sequence), ("signature", .string (Hex.marked i.signature))]

/-- The legs of a party for the coins it has any of. -/
def partyLegs (type : OperationType) (account : Address) (coins : Coins) (outgoing : Bool)
    (metadata : Option Metadata) : List Leg :=
  (Denom.all.filter fun d => coins.get d ≠ 0).map fun d =>
    { type, account, coin := d, metadata,
      value := if outgoing then -(coins.get d : Int) else coins.get d }

/-- The legs of a party that pays and signs. -/
def inputLegs (type : OperationType) (i : Input) : List Leg :=
  partyLegs type i.address i.coins true (some i.metadata)

/-- The leg of the fee. -/
def feeLeg (payer : Address) (fee : Coins) (metadata : Option Metadata) : Leg :=
  { type := .fee, account := payer, value := -(fee.tfuel : Int), coin := .tfuel, metadata }

/-- The legs of a party that pays and signs, then its fee. -/
def inputAndFee (type : OperationType) (i : Input) (fee : Coins) : List Leg :=
  -- Without another leg the fee is where the party signs.
  let legs := inputLegs type i
  legs ++ [feeLeg i.address fee (if legs.isEmpty then some i.metadata else none)]

/-- A leg in TFUEL. -/
def tfuelLeg (type : OperationType) (account : Address) (value : Int)
    (metadata : Option Metadata := none) : Leg :=
  { type, account, value, coin := .tfuel, metadata }

/-- A leg in THETA. -/
def thetaLeg (type : OperationType) (account : Address) (value : Int)
    (metadata : Option Metadata := none) : Leg :=
  { type, account, value, coin := .theta, metadata }

namespace Send

/-- Both legs of an input, the second one without a part of its amount that is shown elsewhere. -/
def inputPair (i : Input) (apart : Nat) : List Leg :=
  [thetaLeg .sendInput i.address (-(i.coins.theta : Int)) (some i.metadata),
    tfuelLeg .sendInput i.address (-((i.coins.tfuel : Int) - apart)) (some i.metadata)]

/-- Both legs of an output. -/
def outputPair (o : Output) : List Leg :=
  [thetaLeg .sendOutput o.address o.coins.theta, tfuelLeg .sendOutput o.address o.coins.tfuel]

/-- The legs of a send. The first input pays the fee, which its TFUEL leg does not show. -/
def legs (tx : Send) : List Leg :=
  match tx.inputs with
  | [] => tx.outputs.flatMap outputPair
  | payer :: others =>
    inputPair payer tx.fee.tfuel ++ others.flatMap (inputPair · 0) ++
      tx.outputs.flatMap outputPair ++ [feeLeg payer.address tx.fee none]

end Send

namespace SmartContract

/-- The leg of a balance change. -/
def changeLeg? (c : BalanceChange) : Option Leg :=
  match c.coin? with
  | none => none
  | some d =>
    if c.delta = 0 then none
    else
      some {
        type := if c.isNegative then .smartContractFrom else .smartContractTo
        account := c.address
        value := if c.isNegative then -(c.delta : Int) else c.delta
        coin := d }

/-- The legs of a call in a block: what moved, then the price of the gas, if any was used. -/
def effectLegs (tx : SmartContract) (changes : List BalanceChange) (gasUsed : UInt64) : List Leg :=
  changes.filterMap changeLeg? ++
    if gasUsed = 0 then []
    else [tfuelLeg .fee tx.sender.address (-((tx.gasPrice * gasUsed.toNat : Nat) : Int))]

/-- The legs of a call before it is in a block. -/
def intentLegs (tx : SmartContract) : List Leg :=
  let sender := tx.sender
  let recipient := tx.recipient
  (if sender.coins.theta = 0 then []
    else [thetaLeg .smartContractFrom sender.address (-(sender.coins.theta : Int))
      (some sender.metadata)]) ++
  [tfuelLeg .smartContractFrom sender.address (-(sender.coins.tfuel : Int))
    (some sender.metadata)] ++
  (if recipient.coins.theta = 0 then []
    else [thetaLeg .smartContractTo recipient.address recipient.coins.theta]) ++
  [tfuelLeg .smartContractTo recipient.address recipient.coins.tfuel]

end SmartContract

/-- The legs of a transaction. -/
def legs (context : TxContext) : Tx → List Leg
  | .coinbase tx =>
    tfuelLeg .coinbaseProposer tx.proposer.address 0 (some tx.proposer.metadata) ::
      tx.outputs.map fun o => tfuelLeg .coinbaseOutput o.address o.coins.tfuel
  | .slash tx => [thetaLeg .slashProposer tx.proposer.address 0 (some tx.proposer.metadata)]
  | .send tx => tx.legs
  | .reserveFund tx => inputAndFee .reserveFundSource tx.source tx.fee
  | .releaseFund tx => inputAndFee .releaseFundSource tx.source tx.fee
  | .servicePayment tx =>
    [tfuelLeg .servicePaymentSource tx.source.address (-(tx.source.coins.tfuel : Int))
        (some tx.source.metadata),
      tfuelLeg .servicePaymentTarget tx.target.address tx.target.coins.tfuel
        (some tx.target.metadata),
      feeLeg tx.target.address tx.fee none]
  | .splitRule tx =>
    [tfuelLeg .splitRuleInitiator tx.initiator.address (-(tx.initiator.coins.tfuel : Int))
        (some tx.initiator.metadata),
      feeLeg tx.initiator.address tx.fee none]
  | .smartContract tx =>
    match context.changes with
    | some changes => tx.effectLegs changes context.gasUsed
    | none => tx.intentLegs
  | .depositStake tx => inputAndFee .depositStakeSource tx.source tx.fee
  | .withdrawStake tx => [feeLeg tx.source.address tx.fee (some tx.source.metadata)]
  | .depositStakeV2 tx => inputAndFee .depositStakeSource tx.source tx.fee
  | .stakeRewardDistribution tx =>
    partyLegs .stakeRewardBeneficiary tx.beneficiary.address tx.beneficiary.coins false none ++
      [feeLeg tx.holder.address tx.fee (some tx.holder.metadata)]

/-- An entry for a byte string that is left out when it is empty. -/
def bytesEntry (key : String) (bytes : Octets) : List (String × Json) :=
  if bytes.isEmpty then [] else [(key, Octets.json.write bytes)]

/-- The entries that describe a transaction besides its legs. -/
def entries : Tx → List (String × Json)
  | .coinbase tx => [("block_height", Counter.toJson tx.blockHeight)]
  | .slash tx =>
    [("slashed_address", Address.json.write tx.slashedAddress),
      ("reserve_sequence", Counter.toJson tx.reserveSequence),
      ("slash_proof", Octets.json.write tx.slashProof)]
  | .send tx => [("fee", Coins.json.write tx.fee)]
  | .reserveFund tx =>
    [("collateral", Coins.json.write tx.collateral),
      ("resource_ids", Json.Codec.string.list.write tx.resourceIds),
      ("duration", Counter.toJson tx.duration)]
  | .releaseFund tx => [("reserve_sequence", Counter.toJson tx.reserveSequence)]
  | .servicePayment tx =>
    [("payment_sequence", Counter.toJson tx.paymentSequence),
      ("reserve_sequence", Counter.toJson tx.reserveSequence),
      ("resource_id", .string tx.resourceId)]
  | .splitRule tx =>
    [("resource_id", .string tx.resourceId), ("splits", Split.json.list.write tx.splits),
      ("duration", Counter.toJson tx.duration)]
  | .smartContract tx =>
    [("gas_limit", Counter.toJson tx.gasLimit), ("gas_price", Wei.toJson tx.gasPrice),
      ("data", Octets.json.write tx.data)]
  | .depositStake tx =>
    [("purpose", purposeJson.write tx.purpose), ("holder", Address.json.write tx.holder.address)]
  | .withdrawStake tx =>
    [("purpose", purposeJson.write tx.purpose), ("holder", Address.json.write tx.holder.address)]
  | .depositStakeV2 tx =>
    [("purpose", purposeJson.write tx.purpose), ("holder", Address.json.write tx.holder.address)] ++
      bytesEntry "bls_pub_key" tx.blsPubkey ++ bytesEntry "bls_pop" tx.blsPop ++
      bytesEntry "holder_sig" tx.holderSig
  | .stakeRewardDistribution tx =>
    [("split_basis_point", Counter.toJson tx.splitBasisPoint),
      ("beneficiary", Address.json.write tx.beneficiary.address)]

/-- The entry that tells the kind of a transaction by its number. -/
def typeEntry (code : Nat) : String × Json := ("type", .ofNat code)

/-- The metadata of a transaction. -/
def metadata (tx : Tx) : Metadata := .ofList (typeEntry tx.kind.code.toNat :: tx.entries)

/-- The operations and the metadata of a transaction. -/
def describe (context : TxContext) (tx : Tx) : Description :=
  ⟨tx.metadata, Operation.ofLegs context.status (tx.legs context)⟩

end Tx

/-- The description of a stake that is paid back: its amount goes to the account that had staked it.
-/
def StakeReturn.describe (r : StakeReturn) (status : Option String) : Description where
  metadata := .ofList
    [Tx.typeEntry Tx.Kind.withdrawStake.code.toNat, ("purpose", Tx.purposeJson.write r.tx.purpose),
      ("holder", Address.json.write r.tx.holder.address)]
  operations := Operation.ofLegs status
    (Tx.partyLegs .withdrawStakeSource r.tx.source.address r.tx.source.coins false
      (some r.tx.source.metadata))

end RosettaGateway
