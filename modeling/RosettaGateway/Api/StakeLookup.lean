import RosettaGateway.Api.Query

/-!
# Resolving withdrawn stakes

A withdrawal names the source, the holder and the purpose of a stake, but not its amount. The amount
is in the pool of the purpose at the height of the withdrawal. Elite edge nodes are too many for
that; the node looks up one of their stakes directly.
-/

namespace RosettaGateway

namespace ApiError

/-- What a failure of the node becomes when a stake is looked up. -/
def ofStakeLookup (e : NodeError) : ApiError := .stakeUnresolved e.message

/-- The error of a stake with an unknown purpose. -/
def unknownPurpose (purpose : UInt8) : ApiError :=
  .stakeUnresolved ("unknown stake purpose " ++ Numeral.ofNat purpose.toNat)

/-- The error of a height without a pool. -/
def noPool (purpose : StakePurpose) (height : UInt64) : ApiError :=
  .stakeUnresolved ("no " ++ purpose.poolName ++ " at height " ++ Numeral.ofNat height.toNat)

/-- The error of a stake that is not in its pool. -/
def noStake (source holder : Address) (height : UInt64) : ApiError :=
  .stakeUnresolved ("no stake from " ++ source.toText ++ " with " ++ holder.toText ++
    " at height " ++ Numeral.ofNat height.toNat)

end ApiError

namespace Query

/-- The pool of a purpose at a height, if the node has one. -/
def pool (purpose : StakePurpose) (height : UInt64) : Query (Option PoolSnapshot) :=
  ask (.stakePool purpose height)
    (fun reply => NodeReply.read (.stakePool purpose height) purpose.readSnapshot?
      (NodeReply.orNull reply))
    .ofStakeLookup

/-- The stake a withdrawal takes back, as the node knows it at a height. -/
def withdrawnStake (purpose : StakePurpose) (height : UInt64) (source holder : Address) :
    Query (Option Stake) :=
  match purpose with
  | .eliteEdgeNode => do
    let found ← find (.edgeNodeStake height source holder) edgeNodeStakeJson .ofStakeLookup
    return found.join
  | purpose => do
    let found ← pool purpose height
    let snapshot ← demand (.noPool purpose height) found
    return snapshot.stake? holder source

/-- The amount a withdrawal takes back. -/
def resolveStake (height : UInt64) (tx : Tx.WithdrawStake) : Query Nat := do
  let purpose ← demand (.unknownPurpose tx.purpose) (StakePurpose.ofCode? tx.purpose)
  let source := tx.source.address
  let holder := tx.holder.address
  let found ← withdrawnStake purpose height source holder
  let stake ← demand (.noStake source holder height) found
  return stake.amount

end Query

end RosettaGateway
