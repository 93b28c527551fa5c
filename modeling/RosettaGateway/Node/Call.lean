import RosettaGateway.Stake.Pool

/-!
# Requests to a node

One constructor for each thing the gateway asks a node. Numbers are sent as texts.
-/

namespace RosettaGateway

/-- A request to a node. An account without a height is the latest one. -/
inductive NodeCall where
  | status
  | account (address : Address) (height : Option UInt64)
  | blockAt (height : UInt64)
  | blockOf (hash : Hash)
  | transaction (hash : Hash)
  | pendingTransactions
  | peers (skipEdgeNode : Bool)
  | stakePool (purpose : StakePurpose) (height : UInt64)
  | edgeNodeStake (height : UInt64) (source holder : Address)
  | broadcast (wire : Octets)
  deriving DecidableEq

namespace NodeCall

/-- The method of a request. -/
def method : NodeCall → String
  | .status => "theta.GetStatus"
  | .account _ _ => "theta.GetAccount"
  | .blockAt _ => "theta.GetBlockByHeight"
  | .blockOf _ => "theta.GetBlock"
  | .transaction _ => "theta.GetTransaction"
  | .pendingTransactions => "theta.GetPendingTransactions"
  | .peers _ => "theta.GetPeers"
  | .stakePool .validator _ => "theta.GetVcpByHeight"
  | .stakePool .guardian _ => "theta.GetGcpByHeight"
  | .stakePool .eliteEdgeNode _ => "theta.GetEenpByHeight"
  | .edgeNodeStake _ _ _ => "theta.GetEenpStakeByHeight"
  | .broadcast _ => "theta.BroadcastRawTransactionAsync"

/-- A height as a parameter. -/
def heightText (height : UInt64) : Json := .string (Numeral.ofNat height.toNat)

/-- The parameters of a request. -/
def params : NodeCall → Json
  | .status => .object []
  | .account address none => .object [("address", .string address.toText)]
  | .account address (some height) =>
    .object [("address", .string address.toText), ("height", heightText height)]
  | .blockAt height => .object [("height", heightText height)]
  | .blockOf hash => .object [("hash", .string hash.toText)]
  | .transaction hash => .object [("hash", .string hash.toText)]
  | .pendingTransactions => .object []
  | .peers skipEdgeNode => .object [("skip_edge_node", .bool skipEdgeNode)]
  | .stakePool _ height => .object [("height", heightText height)]
  | .edgeNodeStake height source holder =>
    .object [("height", heightText height), ("source", .string source.toText),
      ("holder", .string holder.toText), ("withdrawn_only", .bool true)]
  | .broadcast wire => .object [("tx_bytes", .string (Hex.plain wire))]

end NodeCall

end RosettaGateway
