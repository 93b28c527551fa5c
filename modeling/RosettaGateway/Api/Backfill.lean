import RosettaGateway.Api.StakeLookup

/-!
# Backfill

Stakes that were withdrawn before the gateway looked are found in the pools at the height of the
node's snapshot. The backfill schedules their returns, each one block after its return height, under
an identifier from the pool. A stake whose withdrawal was seen in a block has a return already,
under the hash of the withdrawal, and is left out. The backfill runs once.
-/

namespace RosettaGateway

/-- Returns to be added at some heights, in ascending order of the heights. -/
abbrev Schedule := List (UInt64 × List StakeReturn)

namespace Schedule

/-- Adds a return at a height, behind those that are there. -/
def insert (height : UInt64) (r : StakeReturn) : Schedule → Schedule
  | [] => [(height, [r])]
  | (h, returns) :: rest =>
    if height = h then (h, returns ++ [r]) :: rest
    else if height < h then (height, [r]) :: (h, returns) :: rest
    else (h, returns) :: insert height r rest

/-- The schedule of a list of returns with their heights. -/
def ofList (returns : List (UInt64 × StakeReturn)) : Schedule :=
  returns.foldl (fun s e => insert e.1 e.2 s) []

end Schedule

namespace Ledger

/-- Whether a return with the parties and the purpose of a withdrawal is due at a height. -/
def hasReturnOf (ledger : Ledger) (height : UInt64) (tx : Tx.WithdrawStake) : Bool :=
  (ledger.due height).any fun r =>
    r.tx.source.address = tx.source.address ∧ r.tx.holder.address = tx.holder.address ∧
      r.tx.purpose = tx.purpose

/-- Whether a return of a stake is due at its return height or one block after. -/
def alreadyScheduled (ledger : Ledger) (height : UInt64) (tx : Tx.WithdrawStake) : Bool :=
  ledger.hasReturnOf height tx || ledger.hasReturnOf (Chain.saturatingAdd height 1) tx

/-- Adds the returns of a schedule height by height, and counts those that were not known. -/
def putAll (ledger : Ledger) : Schedule → Ledger × Nat
  | [] => (ledger, 0)
  | (height, returns) :: rest =>
    let (between, count) := ledger.put height returns
    let (after, others) := between.putAll rest
    (after, count + others)

end Ledger

namespace Backfill

/-- The withdrawal that would have given rise to a stake of a pool being withdrawn. -/
def withdrawal (purpose : StakePurpose) (holder : Address) (stake : Stake) : Tx.WithdrawStake where
  fee := {}
  source := { address := stake.source }
  holder := { address := holder }
  purpose := purpose.code

/-- The return of a withdrawn stake, unless it is scheduled. -/
def return? (ledger : Ledger) (purpose : StakePurpose) (block : Hash) (place : Nat)
    (holder : Address) (stake : Stake) : Option (UInt64 × StakeReturn) :=
  let tx := withdrawal purpose holder stake
  if ledger.alreadyScheduled stake.returnHeight tx then none
  else
    some (Chain.saturatingAdd stake.returnHeight 1,
      .ofWithdrawal (StakeReturn.snapshotIdentifier purpose.poolName block place) tx stake.amount)

/-- The returns a pool gives rise to, with their heights. A missing pool gives none. -/
def returnsOf (ledger : Ledger) (purpose : StakePurpose) :
    Option PoolSnapshot → List (UInt64 × StakeReturn)
  | none => []
  | some p =>
    -- Places count withdrawn stakes, also those that are scheduled already.
    p.withdrawn.zipIdx.filterMap fun ((holder, stake), place) =>
      return? ledger purpose p.block place holder stake

/-- All pools at a height. -/
def pools (height : UInt64) : Query (List (StakePurpose × Option PoolSnapshot)) :=
  StakePurpose.all.mapM fun purpose => do
    let found ← Query.pool purpose height
    return (purpose, found)

/-- The schedule that some pools give rise to. -/
def scheduleOf (ledger : Ledger) (pools : List (StakePurpose × Option PoolSnapshot)) : Schedule :=
  .ofList (pools.flatMap fun (purpose, found) => returnsOf ledger purpose found)

/-- Schedules the returns of all withdrawn stakes in the pools, and tells how many were added. -/
def run : Update Nat := do
  let ledger ← Update.ledger
  if ledger.backfilled then return 0
  else
    let status ← Query.status.toUpdate
    let found ← (pools status.snapshotHeight).toUpdate
    -- All pools are read before the first return is put down.
    let (after, count) := ledger.putAll (scheduleOf ledger found)
    Update.setLedger after.mark
    return count

end Backfill

end RosettaGateway
