import RosettaGateway.Node.Call
import RosettaGateway.Node.Error
import RosettaGateway.Operation.OfTx

/-!
# Answers of a node

The gateway reads of an answer what it needs. Nodes write some names in their own capitalised form,
so most members are known under two names. An object a node does not have comes back as an error
with a code of its own, or as `null`.
-/

namespace RosettaGateway

open Json (Record)

/-- What a node answers to one request. -/
abbrev NodeReply := Except NodeError Json

/-- How far a node has come. -/
structure NodeStatus where
  chainId : String
  peerId : String
  finalizedHash : Hash
  finalizedHeight : UInt64
  finalizedTime : UInt64
  currentHeight : UInt64
  syncing : Bool
  genesisHash : Hash
  snapshotHeight : UInt64
  snapshotHash : Hash

/-- Statuses of nodes as JSON. -/
def NodeStatus.json : Json.Codec NodeStatus :=
  (((Record.defaulted "chain_id" Json.Codec.string "").and <|
    (Record.defaulted "peer_id" Json.Codec.string "").and <|
    (Record.defaulted "latest_finalized_block_hash" Hash.json .zero).and <|
    (Record.defaulted "latest_finalized_block_height" Counter.json 0).and <|
    (Record.defaulted "latest_finalized_block_time" Counter.json 0).and <|
    (Record.defaulted "current_height" Counter.json 0).and <|
    (Record.defaulted "syncing" Json.Codec.bool false).and <|
    (Record.defaulted "genesis_block_hash" Hash.json .zero).and <|
    (Record.defaulted "snapshot_block_height" Counter.json 0).and
    (Record.defaulted "snapshot_block_hash" Hash.json .zero)).map
      (fun (chainId, peerId, finalizedHash, finalizedHeight, finalizedTime, currentHeight, syncing,
          genesisHash, snapshotHeight, snapshotHash) =>
        ⟨chainId, peerId, finalizedHash, finalizedHeight, finalizedTime, currentHeight, syncing,
          genesisHash, snapshotHeight, snapshotHash⟩)
      (fun s => (s.chainId, s.peerId, s.finalizedHash, s.finalizedHeight, s.finalizedTime,
        s.currentHeight, s.syncing, s.genesisHash, s.snapshotHeight, s.snapshotHash))).codec

/-- The state of an account. An address the chain has never seen has nothing. -/
structure NodeAccount where
  sequence : UInt64 := 0
  coins : Coins := {}

/-- States of accounts as JSON. -/
def NodeAccount.json : Json.Codec NodeAccount :=
  (((Record.defaulted "sequence" Counter.json 0 ["Sequence"]).and
    (Record.defaulted "coins" Coins.json {} ["Coins"])).map
      (fun (sequence, coins) => ⟨sequence, coins⟩)
      (fun a => (a.sequence, a.coins))).codec

/-- The gas a receipt tells, as JSON. -/
def receiptJson : Json.Codec UInt64 :=
  (Record.defaulted "gas_used" Counter.json 0 ["GasUsed"]).codec

/-- The balance changes of a transaction as JSON. -/
def balanceChangesJson : Json.Codec (List BalanceChange) :=
  (Record.defaulted "balance_changes" BalanceChange.json.list [] ["BalanceChanges"]).codec

/-- A transaction in a block. -/
structure BlockTx where
  raw : Json
  code : UInt64
  hash : Hash
  receipt : Option UInt64
  changes : Option (List BalanceChange)

namespace BlockTx

/-- Transactions in blocks as JSON. -/
def json : Json.Codec BlockTx :=
  (((Record.defaulted "raw" Json.Codec.free .null).and <|
    (Record.required "type" Counter.json).and <|
    (Record.required "hash" Hash.json).and <|
    (Record.optional "receipt" receiptJson).and
    (Record.optional "balance_changes" balanceChangesJson)).map
      (fun (raw, code, hash, receipt, changes) => ⟨raw, code, hash, receipt, changes⟩)
      (fun tx => (tx.raw, tx.code, tx.hash, tx.receipt, tx.changes))).codec

/-- The gas the transaction used. -/
def gasUsed (tx : BlockTx) : UInt64 := tx.receipt.getD 0

end BlockTx

/-- A block. Its time is in seconds. -/
structure NodeBlock where
  chainId : String
  height : UInt64
  hash : Hash
  parent : Hash
  transactionsHash : Hash
  stateHash : Hash
  timestamp : UInt64
  proposer : Address
  status : BlockStatus
  transactions : Option (List BlockTx)

namespace NodeBlock

/-- Blocks as JSON. -/
def json : Json.Codec NodeBlock :=
  (((Record.defaulted "chain_id" Json.Codec.string "").and <|
    (Record.required "height" Counter.json).and <|
    (Record.required "hash" Hash.json).and <|
    (Record.defaulted "parent" Hash.json .zero).and <|
    (Record.defaulted "transactions_hash" Hash.json .zero).and <|
    (Record.defaulted "state_hash" Hash.json .zero).and <|
    (Record.defaulted "timestamp" Counter.json 0).and <|
    (Record.defaulted "proposer" Address.json .zero).and <|
    (Record.required "status" BlockStatus.json).and
    (Record.optional "transactions" BlockTx.json.list)).map
      (fun (chainId, height, hash, parent, transactionsHash, stateHash, timestamp, proposer, status,
          transactions) =>
        ⟨chainId, height, hash, parent, transactionsHash, stateHash, timestamp, proposer, status,
          transactions⟩)
      (fun b => (b.chainId, b.height, b.hash, b.parent, b.transactionsHash, b.stateHash,
        b.timestamp, b.proposer, b.status, b.transactions))).codec

/-- The height of the block before; the first block counts as its own predecessor. -/
def parentHeight (b : NodeBlock) : UInt64 := if b.height = 0 then 0 else b.height - 1

/-- The transactions of the block. -/
def txs (b : NodeBlock) : List BlockTx := b.transactions.getD []

end NodeBlock

/-- What a node knows of a transaction. -/
structure NodeTransaction where
  blockHash : Hash
  blockHeight : UInt64
  status : String
  hash : Hash
  code : UInt64
  raw : Json
  receipt : Option UInt64
  changes : Option (List BalanceChange)

namespace NodeTransaction

/-- What nodes know of transactions, as JSON. Nodes misspell the name of the balance changes. -/
def json : Json.Codec NodeTransaction :=
  (((Record.defaulted "block_hash" Hash.json .zero).and <|
    (Record.defaulted "block_height" Counter.json 0).and <|
    (Record.defaulted "status" Json.Codec.string "").and <|
    (Record.defaulted "hash" Hash.json .zero).and <|
    (Record.defaulted "type" Counter.json 0).and <|
    (Record.defaulted "transaction" Json.Codec.free .null).and <|
    (Record.optional "receipt" receiptJson).and
    (Record.optional "blance_changes" balanceChangesJson ["balance_changes"])).map
      (fun (blockHash, blockHeight, status, hash, code, raw, receipt, changes) =>
        ⟨blockHash, blockHeight, status, hash, code, raw, receipt, changes⟩)
      (fun tx => (tx.blockHash, tx.blockHeight, tx.status, tx.hash, tx.code, tx.raw, tx.receipt,
        tx.changes))).codec

/-- Whether the node has seen the transaction. -/
def isFound (tx : NodeTransaction) : Bool :=
  tx.status != "" && tx.status != "not_found" && !tx.raw.isNull

/-- The gas the transaction used. -/
def gasUsed (tx : NodeTransaction) : UInt64 := tx.receipt.getD 0

end NodeTransaction

/-- The hashes of the transactions that wait for a block, as JSON. -/
def pendingJson : Json.Codec (List String) :=
  (Record.defaulted "tx_hashes" Json.Codec.string.list []).codec

/-- The peers of a node as JSON. -/
def peersJson : Json.Codec (List String) :=
  (Record.defaulted "peers" Json.Codec.string.list []).codec

/-- The stake of an elite edge node as JSON. -/
def edgeNodeStakeJson : Json.Codec (Option Stake) := (Record.optional "stake" Stake.json).codec

/-- The hash of a transaction that was taken in, as JSON. -/
def broadcastJson : Json.Codec Hash := (Record.required "hash" Hash.json).codec

namespace NodeReply

/-- Reads a reply. -/
def read {α : Type} (call : NodeCall) (reading : Json → Option α) : NodeReply → Except NodeError α
  | .error e => .error e
  | .ok v =>
    match reading v with
    | some a => .ok a
    | none => .error (.malformed call.method)

/-- Takes a reply that tells that the node does not have the object as `null`. -/
def orNull : NodeReply → NodeReply
  | .error e => if e.isNotFound then .ok .null else .error e
  | .ok v => .ok v

/-- Reads a reply about an object the node may not have. -/
def find {α : Type} (call : NodeCall) (reading : Json → Option α) (reply : NodeReply) :
    Except NodeError (Option α) :=
  read call (fun v => if v.isNull then some none else (reading v).map some) reply.orNull

end NodeReply

end RosettaGateway
