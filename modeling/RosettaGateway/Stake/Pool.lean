import RosettaGateway.Chain.Address
import RosettaGateway.Chain.Parameters
import RosettaGateway.Hash.Basic

/-!
# Stake pools

The stakes of one purpose form a pool: the holders in their order, and with each holder the stakes
others placed with it. A node tells the pool at a height as a list of snapshots, each with the block
it was taken at; the first one is the one at the height.
-/

namespace RosettaGateway

open Json (Record)

/-- A stake in a pool. -/
structure Stake where
  source : Address
  amount : Nat := 0
  withdrawn : Bool := false
  returnHeight : UInt64 := 0
  deriving DecidableEq

/-- Stakes as JSON. -/
def Stake.json : Json.Codec Stake :=
  (((Record.required "source" Address.json ["Source"]).and <|
    (Record.defaulted "amount" Wei.json 0 ["Amount"]).and <|
    (Record.defaulted "withdrawn" Json.Codec.bool false ["Withdrawn"]).and
    (Record.defaulted "return_height" Counter.json 0 ["ReturnHeight"])).map
      (fun (source, amount, withdrawn, returnHeight) => ⟨source, amount, withdrawn, returnHeight⟩)
      (fun s => (s.source, s.amount, s.withdrawn, s.returnHeight))).codec

/-- A holder and the stakes placed with it. -/
structure StakeHolder where
  holder : Address
  stakes : List Stake := []
  deriving DecidableEq

/-- Holders as JSON. -/
def StakeHolder.json : Json.Codec StakeHolder :=
  (((Record.required "holder" Address.json ["Holder"]).and
    (Record.defaulted "stakes" Stake.json.list [] ["Stakes"])).map
      (fun (holder, stakes) => ⟨holder, stakes⟩)
      (fun h => (h.holder, h.stakes))).codec

/-- The holders of a pool at a block. -/
structure PoolSnapshot where
  block : Hash := .zero
  holders : List StakeHolder := []
  deriving DecidableEq

namespace PoolSnapshot

/-- The stake of a source with a holder; if there are several, the first one. -/
def stake? (p : PoolSnapshot) (holder source : Address) : Option Stake :=
  ((p.holders.filter (·.holder = holder)).flatMap (·.stakes)).find? (·.source = source)

/-- The withdrawn stakes, each with its holder, in the order of the pool. -/
def withdrawn (p : PoolSnapshot) : List (Address × Stake) :=
  (p.holders.flatMap fun h => h.stakes.map fun s => (h.holder, s)).filter (·.2.withdrawn)

end PoolSnapshot

namespace StakePurpose

/-- All purposes, in the order of their numbers. -/
def all : List StakePurpose := [.validator, .guardian, .eliteEdgeNode]

/-- The name of the pool of a purpose. -/
def poolName : StakePurpose → String
  | .validator => "vcp"
  | .guardian => "gcp"
  | .eliteEdgeNode => "eenp"

/-- The member that holds the snapshots of a pool. -/
def snapshotsField : StakePurpose → String
  | .validator => "BlockHashVcpPairs"
  | .guardian => "BlockHashGcpPairs"
  | .eliteEdgeNode => "BlockHashEenpPairs"

/-- The member that holds the holders in a snapshot; in two of the pools they lie one level deeper.
-/
def holdersField (purpose : StakePurpose) : Record (Option (List StakeHolder)) :=
  let holders := StakeHolder.json.list
  match purpose with
  | .validator =>
    (Record.optional "Vcp"
      (Record.optional "SortedCandidates" holders ["sorted_candidates"]).codec ["vcp"]).map
        Option.join some
  | .guardian =>
    (Record.optional "Gcp"
      (Record.optional "SortedGuardians" holders ["sorted_guardians"]).codec ["gcp"]).map
        Option.join some
  | .eliteEdgeNode => Record.optional "EENs" holders ["eens"]

/-- Snapshots of a pool as JSON. -/
def snapshotJson (purpose : StakePurpose) : Json.Codec PoolSnapshot :=
  (((Record.defaulted "BlockHash" Hash.json .zero ["block_hash"]).and purpose.holdersField).map
      (fun (block, holders) => ⟨block, holders.getD []⟩)
      (fun p => (p.block, some p.holders))).codec

/-- The answer of a node about a pool as JSON. -/
def snapshotsJson (purpose : StakePurpose) : Json.Codec (Option (List PoolSnapshot)) :=
  (Record.optional purpose.snapshotsField purpose.snapshotJson.list).codec

/-- Reads the answer of a node about a pool. The answer may be that there is no snapshot. -/
def readSnapshot? (purpose : StakePurpose) : Json → Option (Option PoolSnapshot)
  | .null => some none
  -- A node may list more snapshots; the first is the one that was asked for.
  | v => (purpose.snapshotsJson.ofJson v).map fun snapshots => (snapshots.getD []).head?

end StakePurpose

end RosettaGateway
