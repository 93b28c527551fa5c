import RosettaGateway.Api.Lookup
import RosettaGateway.Api.StakeLookup
import RosettaGateway.Tx.Wire

/-!
# Blocks

A block as clients see it has the transactions of the node's block in their order, then the stakes
that come back at its height. A transaction that cannot be read is shown by its kind alone.

A withdrawal of a stake is published under an identifier of its own, and its return is put into the
ledger for the height at which the locking period ends. As nothing else would tell that the stake
comes back, a withdrawal that cannot be read, or whose stake cannot be found, fails the whole block.
-/

namespace RosettaGateway

/-- A block as clients see it. -/
structure Block where
  identifier : BlockIdentifier
  parent : BlockIdentifier
  timestamp : Int
  transactions : List Transaction
  metadata : Metadata

namespace Block

/-- Blocks as JSON. -/
def toJson (b : Block) : Json :=
  .object [("block", .object [("block_identifier", BlockIdentifier.json.write b.identifier),
    ("parent_block_identifier", BlockIdentifier.json.write b.parent),
    ("timestamp", .ofInt b.timestamp),
    ("transactions", .array (b.transactions.map Transaction.toJson)),
    ("metadata", Metadata.json.write b.metadata)])]

/-- The block of a node's block with the given transactions. -/
def ofNode (b : NodeBlock) (transactions : List Transaction) : Block where
  identifier := .ofBlock b.height b.hash
  parent := .ofBlock b.parentHeight b.parent
  timestamp := milliseconds b.timestamp
  transactions := transactions
  metadata := .ofList [("status", .string b.status.name),
    ("transactions_hash", .string b.transactionsHash.toText),
    ("state_hash", .string b.stateHash.toText), ("proposer", .string b.proposer.toText)]

end Block

namespace Transaction

/-- A transaction of a kind or a form that cannot be read. -/
def unread (hash : Hash) (code : UInt64) : Transaction :=
  ⟨hash, .ofList [("type", Counter.toJson code)], []⟩

/-- A stake that comes back, in a block with the given status. -/
def ofReturn (status : String) (r : StakeReturn) : Transaction := ⟨r.hash, r.describe (some status)⟩

end Transaction

/-- Reads the transaction in a node's answer. -/
def Tx.ofNode (code : UInt64) (raw : Json) : Except TxError Tx := do
  let k ← Tx.kindOfCode code
  Tx.ofJson k raw

/-- What a block tells of a transaction in it. -/
def BlockTx.context (tx : BlockTx) (status : BlockStatus) : TxContext :=
  ⟨some status.name, tx.gasUsed, some (tx.changes.getD [])⟩

namespace Query

/-- The block a request names. The index outweighs the hash. -/
def namedBlock : PartialBlockIdentifier → Query NodeBlock
  | ⟨some index, _⟩ => blockWithIndex index
  | ⟨none, some hash⟩ => blockWithHash hash
  | ⟨none, none⟩ => fail .missingBlockIdentifier

/-- A transaction by its hash. The ledger has no part in it. -/
def transaction (hash : String) (otherwise : ApiError) : Query Transaction := do
  let hash ← hashOf hash
  let found ← find (.transaction hash) NodeTransaction.json fun _ => otherwise
  let tx ← demand .transactionNotFound (found.filter (·.isFound))
  match Tx.ofNode tx.code tx.raw with
  | .error _ => return .unread hash tx.code
  | .ok body => return ⟨hash, body.describe ⟨some tx.status, tx.gasUsed, some (tx.changes.getD [])⟩⟩

end Query

namespace Update

/-- Puts the return of a withdrawal into the ledger. -/
def scheduleReturn (height : UInt64) (hash : Hash) (tx : Tx.WithdrawStake) (amount : Nat) :
    Update Unit := do
  let l ← ledger
  setLedger (l.put (Chain.returnHeight height) [.ofWithdrawal hash tx amount]).1

/-- Shows a transaction of a block, and schedules the return of a withdrawal. -/
def blockTransaction (b : NodeBlock) (tx : BlockTx) : Update Transaction :=
  match Tx.ofNode tx.code tx.raw with
  | .error e =>
    -- Without its withdrawal the return of a stake would be lost, so the block is not shown.
    if tx.code = Tx.Kind.withdrawStake.code.toUInt64 then
      (Query.fail (.unreadableTransaction (tx.hash.toText ++ ": " ++ e.message))).toUpdate
    else return .unread tx.hash tx.code
  | .ok body =>
    let description := body.describe (tx.context b.status)
    match body with
    | .withdrawStake withdrawal => do
      let amount ← (Query.resolveStake b.height withdrawal).toUpdate
      scheduleReturn b.height tx.hash withdrawal amount
      return ⟨StakeReturn.withdrawalIdentifier tx.hash, description⟩
    | _ => return ⟨tx.hash, description⟩

/-- The stakes that come back in a block. -/
def returns (b : NodeBlock) : Update (List Transaction) := do
  let l ← ledger
  return (l.due b.height).map (Transaction.ofReturn b.status.name)

/-- The block a request names. -/
def block (identifier : PartialBlockIdentifier) : Update Block := do
  let b ← (Query.namedBlock identifier).toUpdate
  let shown ← b.txs.mapM (blockTransaction b)
  let returned ← returns b
  return .ofNode b (shown ++ returned)

end Update

end RosettaGateway
