/-!
# Kinds of transactions

The chain numbers twelve kinds of transactions. `Tx.Kind.code` is the number, which also leads the
wire form, and `Tx.Kind.name` the name used in messages.
-/

namespace RosettaGateway.Tx

/-- The kind of a transaction. -/
inductive Kind where
  | coinbase
  | slash
  | send
  | reserveFund
  | releaseFund
  | servicePayment
  | splitRule
  | smartContract
  | depositStake
  | withdrawStake
  | depositStakeV2
  | stakeRewardDistribution
  deriving DecidableEq

namespace Kind

/-- All kinds, in the order of their numbers. -/
def all : List Kind :=
  [.coinbase, .slash, .send, .reserveFund, .releaseFund, .servicePayment, .splitRule,
    .smartContract, .depositStake, .withdrawStake, .depositStakeV2, .stakeRewardDistribution]

/-- The number of a kind. -/
def code : Kind → UInt8
  | .coinbase => 0
  | .slash => 1
  | .send => 2
  | .reserveFund => 3
  | .releaseFund => 4
  | .servicePayment => 5
  | .splitRule => 6
  | .smartContract => 7
  | .depositStake => 8
  | .withdrawStake => 9
  | .depositStakeV2 => 10
  | .stakeRewardDistribution => 11

/-- The kind of a number. -/
def ofCode? (code : UInt64) : Option Kind := all[code.toNat]?

/-- The name of a kind. -/
def name : Kind → String
  | .coinbase => "CoinbaseTx"
  | .slash => "SlashTx"
  | .send => "SendTx"
  | .reserveFund => "ReserveFundTx"
  | .releaseFund => "ReleaseFundTx"
  | .servicePayment => "ServicePaymentTx"
  | .splitRule => "SplitRuleTx"
  | .smartContract => "SmartContractTx"
  | .depositStake => "DepositStakeTx"
  | .withdrawStake => "WithdrawStakeTx"
  | .depositStakeV2 => "DepositStakeTxV2"
  | .stakeRewardDistribution => "StakeRewardDistributionTx"

@[simp] theorem ofCode?_code (k : Kind) : ofCode? k.code.toUInt64 = some k := by
  cases k <;> rfl

end Kind

end RosettaGateway.Tx
