import RosettaGateway.Api.Identifier
import RosettaGateway.Api.Query

/-!
# The gateway and its network

A gateway serves one network, and it may have no node to ask. Requests are admitted only if they
name this network, and those that need the node only if there is one. Besides, this module answers
what the network is, how far its node has come, and what the gateway can do.
-/

namespace RosettaGateway

/-- What a gateway is set up with. -/
structure Gateway where
  chainId : String
  online : Bool := true
  version : String := "1.4.10"
  deriving DecidableEq

namespace Gateway

/-- The network the gateway serves. -/
def network (g : Gateway) : NetworkIdentifier := ⟨Chain.name, g.chainId, none⟩

/-- Refuses what needs the node when there is none. -/
def requireOnline (g : Gateway) : Except ApiError Unit :=
  if g.online then .ok () else .error .unavailableOffline

/-- Refuses a request for another network. Names are compared without regard to the case of letters.
-/
def checkNetwork (g : Gateway) : Option NetworkIdentifier → Except ApiError Unit
  | none => .error .missingNetwork
  | some n =>
    if foldCase n.blockchain ≠ foldCase Chain.name then .error .invalidBlockchain
    else if n.subNetwork.isSome then .error .invalidSubnetwork
    else if foldCase n.network ≠ foldCase g.chainId then .error .invalidNetwork
    else .ok ()

/-- Refuses a request for another network, if it names one. -/
def checkNetworkIfGiven (g : Gateway) : Option NetworkIdentifier → Except ApiError Unit
  | none => .ok ()
  | some n => g.checkNetwork (some n)

/-- Admits a request that needs the node. -/
def allow (g : Gateway) (n : Option NetworkIdentifier) : Except ApiError Unit := do
  g.requireOnline
  g.checkNetwork n

end Gateway

/-- How far the node has come, and its peers. -/
structure NetworkStatus where
  block : BlockIdentifier
  timestamp : Int
  genesis : BlockIdentifier
  currentIndex : Int
  targetIndex : Int
  synced : Bool
  peers : List String

namespace NetworkStatus

/-- The status of a network as JSON. -/
def toJson (s : NetworkStatus) : Json :=
  .object [("current_block_identifier", BlockIdentifier.json.write s.block),
    ("current_block_timestamp", .ofInt s.timestamp),
    ("genesis_block_identifier", BlockIdentifier.json.write s.genesis),
    ("sync_status", .object [("current_index", .ofInt s.currentIndex),
      ("target_index", .ofInt s.targetIndex), ("synced", .bool s.synced)]),
    ("peers", .array (s.peers.map fun peer => .object [("peer_id", .string peer)]))]

/-- Asks the node for its status and its peers. Edge nodes are left out of the peers unless the
request says otherwise. -/
def query (metadata : Option Metadata) : Query NetworkStatus := do
  let s ← Query.status
  let skipEdgeNode := ((metadata.bind (·.get? "skip_edge_node")).bind Json.bool?).getD true
  let peers ← Query.find (.peers skipEdgeNode) peersJson fun _ => .nodeStatusUnavailable
  return {
    block := .ofBlock s.finalizedHeight s.finalizedHash
    timestamp := milliseconds s.finalizedTime
    genesis := ⟨0, s.genesisHash.toText⟩
    currentIndex := indexOfHeight s.finalizedHeight
    targetIndex := indexOfHeight s.currentHeight
    synced := !s.syncing
    peers := peers.getD [] }

end NetworkStatus

/-- What the gateway can do: the statuses and types of operations it shows, and the errors it gives.
-/
def Gateway.options (g : Gateway) : Json :=
  .object [
    ("version", .object [
      ("rosetta_version", .string g.version),
      ("node_version", .string "0.1.0")]),
    ("allow", .object [
      ("operation_statuses", .array (BlockStatus.all.map fun s =>
        .object [("status", .string s.name), ("successful", .bool s.isSuccessful)])),
      ("operation_types", .array (OperationType.all.map fun t => .string t.name)),
      ("errors", .array ApiError.catalog),
      ("historical_balance_lookup", .bool true),
      ("call_methods", .array []),
      ("balance_exemptions", .array []),
      ("mempool_coins", .bool true)])]

end RosettaGateway
