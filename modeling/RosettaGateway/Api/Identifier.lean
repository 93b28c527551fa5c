import RosettaGateway.Operation.OfTx

/-!
# Identifiers

How clients name networks, blocks and transactions, and how the answers name them. An index of a
block is a signed number; a height is read as one by its bits.
-/

namespace RosettaGateway

open Json (Record)

/-- A network as clients name it. -/
structure NetworkIdentifier where
  blockchain : String
  network : String
  subNetwork : Option String := none
  deriving DecidableEq

/-- The part of a network that a request names. -/
def subNetworkJson : Json.Codec String := (Record.required "network" Json.Codec.string).codec

/-- Networks as JSON. -/
def NetworkIdentifier.json : Json.Codec NetworkIdentifier :=
  (((Record.required "blockchain" Json.Codec.string).and <|
    (Record.required "network" Json.Codec.string).and
    (Record.optional "sub_network_identifier" subNetworkJson)).map
      (fun (blockchain, network, subNetwork) => ⟨blockchain, network, subNetwork⟩)
      (fun n => (n.blockchain, n.network, n.subNetwork))).codec

/-- A height as an index. -/
def indexOfHeight (height : UInt64) : Int := height.toInt64.toInt

/-- An index as a height. -/
def heightOfIndex (index : Int) : UInt64 := (Int64.ofInt index).toUInt64

/-- Seconds as milliseconds, held within the range of signed numbers. -/
def milliseconds (seconds : UInt64) : Int :=
  let ms := indexOfHeight seconds * 1000
  if ms < -0x8000000000000000 then -0x8000000000000000
  else if 0x7fffffffffffffff < ms then 0x7fffffffffffffff
  else ms

/-- A block by its index and its hash. -/
structure BlockIdentifier where
  index : Int
  hash : String
  deriving DecidableEq

namespace BlockIdentifier

/-- The identifier of a block of the chain. -/
def ofBlock (height : UInt64) (hash : Hash) : BlockIdentifier := ⟨indexOfHeight height, hash.toText⟩

/-- Identifiers of blocks as JSON. -/
def json : Json.Codec BlockIdentifier :=
  (((Record.required "index" Json.Codec.int64).and
    (Record.required "hash" Json.Codec.string)).map
      (fun (index, hash) => ⟨index, hash⟩)
      (fun b => (b.index, b.hash))).codec

end BlockIdentifier

/-- A block by its index, its hash, both or neither. -/
structure PartialBlockIdentifier where
  index : Option Int := none
  hash : Option String := none
  deriving DecidableEq

/-- Partial identifiers of blocks as JSON. -/
def PartialBlockIdentifier.json : Json.Codec PartialBlockIdentifier :=
  (((Record.optional "index" Json.Codec.int64).and
    (Record.optional "hash" Json.Codec.string)).map
      (fun (index, hash) => ⟨index, hash⟩)
      (fun b => (b.index, b.hash))).codec

/-- The hash of a transaction as JSON. -/
def transactionIdentifierJson : Json.Codec String :=
  (Record.required "hash" Json.Codec.string).codec

/-- A transaction as clients see it. -/
structure Transaction where
  hash : Hash
  description : Description

/-- Transactions as JSON. -/
def Transaction.toJson (t : Transaction) : Json :=
  .object [("transaction_identifier", transactionIdentifierJson.write t.hash.toText),
    ("operations", Operation.json.list.write t.description.operations),
    ("metadata", Metadata.json.write t.description.metadata)]

end RosettaGateway
