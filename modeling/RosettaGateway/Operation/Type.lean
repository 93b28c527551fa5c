/-!
# Types of operations

Each party of a transaction has a type of operation of its own, named after the transaction and the
party; fees have one type for all transactions.
-/

namespace RosettaGateway

/-- The type of an operation. -/
inductive OperationType where
  | coinbaseProposer
  | coinbaseOutput
  | slashProposer
  | sendInput
  | sendOutput
  | reserveFundSource
  | releaseFundSource
  | servicePaymentSource
  | servicePaymentTarget
  | splitRuleInitiator
  | smartContractFrom
  | smartContractTo
  | depositStakeSource
  | depositStakeHolder
  | withdrawStakeSource
  | withdrawStakeHolder
  | stakeRewardHolder
  | stakeRewardBeneficiary
  | fee
  deriving DecidableEq

namespace OperationType

/-- All types, in the order in which they are listed. -/
def all : List OperationType :=
  [.coinbaseProposer, .coinbaseOutput, .slashProposer, .sendInput, .sendOutput,
    .reserveFundSource, .releaseFundSource, .servicePaymentSource, .servicePaymentTarget,
    .splitRuleInitiator, .smartContractFrom, .smartContractTo, .depositStakeSource,
    .depositStakeHolder, .withdrawStakeSource, .withdrawStakeHolder, .stakeRewardHolder,
    .stakeRewardBeneficiary, .fee]

/-- The name of a type. -/
def name : OperationType → String
  | .coinbaseProposer => "CoinbaseTxProposer"
  | .coinbaseOutput => "CoinbaseTxOutput"
  | .slashProposer => "SlashTxProposer"
  | .sendInput => "SendTxInput"
  | .sendOutput => "SendTxOutput"
  | .reserveFundSource => "ReserveFundTxSource"
  | .releaseFundSource => "ReleaseFundTxSource"
  | .servicePaymentSource => "ServicePaymentTxSource"
  | .servicePaymentTarget => "ServicePaymentTxTarget"
  | .splitRuleInitiator => "SplitRuleTxInitiator"
  | .smartContractFrom => "SmartContractTxFrom"
  | .smartContractTo => "SmartContractTxTo"
  | .depositStakeSource => "DepositStakeTxSource"
  | .depositStakeHolder => "DepositStakeTxHolder"
  | .withdrawStakeSource => "WithdrawStakeTxSource"
  | .withdrawStakeHolder => "WithdrawStakeTxHolder"
  | .stakeRewardHolder => "StakeRewardDistributionTxHolder"
  | .stakeRewardBeneficiary => "StakeRewardDistributionTxBeneficiary"
  | .fee => "TxFee"

/-- The type of a name. -/
def ofName? (s : String) : Option OperationType := all.find? fun t => t.name == s

end OperationType

end RosettaGateway
