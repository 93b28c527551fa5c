import RosettaGateway.Chain.Parameters
import RosettaGateway.Tx.Basic

/-!
# Stake returns

The transaction that withdraws a stake only pays its fee. The stake itself comes back when the
locking period is over, in a block that has no transaction for it; a `StakeReturn` is the note of
it, with the amount that comes back in the place of the coins of the source.

A withdrawal is published under an identifier of its own, so that the identifier of the transaction
is free for its return. A return that was found in a pool, and whose withdrawal is not known, gets
an identifier from the pool, the block and its place in the pool.
-/

namespace RosettaGateway

/-- A stake that comes back. -/
structure StakeReturn where
  hash : Hash
  tx : Tx.WithdrawStake
  deriving DecidableEq

namespace StakeReturn

open Json (Record)

/-- Stake returns as JSON. -/
def json : Json.Codec StakeReturn :=
  (((Record.required "tx_hash" Hash.json ["hash"]).and
    (Record.required "tx" Tx.WithdrawStake.json)).map
      (fun (hash, tx) => ⟨hash, tx⟩)
      (fun r => (r.hash, r.tx))).codec

/-- The coin in which the stake of a purpose comes back; an unknown purpose counts as THETA. -/
def coinOf (purpose : UInt8) : Denom :=
  match StakePurpose.ofCode? purpose with
  | some p => p.denom
  | none => .theta

/-- The return of a stake of a given amount. -/
def ofWithdrawal (hash : Hash) (tx : Tx.WithdrawStake) (amount : Nat) : StakeReturn where
  hash := hash
  tx := { tx with source := { tx.source with
    coins := ({} : Coins).set (coinOf tx.purpose) amount } }

/-- The text behind the identifier of a withdrawal. -/
def withdrawalText (hash : Hash) : String := "stake_withdraw_" ++ hash.toText

/-- The identifier a withdrawal is published under. -/
def withdrawalIdentifier (hash : Hash) : Hash := keccakText (withdrawalText hash)

/-- The text behind the identifier of a return found in a pool. -/
def snapshotText (pool : String) (block : Hash) (place : Nat) : String :=
  pool ++ "_stake_return_" ++ block.toText ++ "_" ++ Numeral.ofNat place

/-- The identifier of a return found in a pool. -/
def snapshotIdentifier (pool : String) (block : Hash) (place : Nat) : Hash :=
  keccakText (snapshotText pool block place)

end StakeReturn

end RosettaGateway
