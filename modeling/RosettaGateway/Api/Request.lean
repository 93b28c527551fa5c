import RosettaGateway.Api.Construction

/-!
# Requests

Each endpoint takes requests of one form. `Endpoint.read` reads the request of an endpoint from the
text of its body. The fields of a body are listed in their order, which counts when it is given as
an array.
-/

namespace RosettaGateway

open Json (Record)

/-- The endpoints that take requests. -/
inductive Endpoint where
  | networkList
  | networkStatus
  | networkOptions
  | accountBalance
  | accountCoins
  | block
  | blockTransaction
  | mempool
  | mempoolTransaction
  | derive
  | preprocess
  | metadata
  | payloads
  | parse
  | combine
  | hash
  | submit
  deriving DecidableEq

/-- A request to the gateway, with the network it names. -/
inductive Request where
  | networkList (metadata : Option Metadata)
  | networkStatus (network : Option NetworkIdentifier) (metadata : Option Metadata)
  | networkOptions (network : Option NetworkIdentifier) (metadata : Option Metadata)
  | accountBalance (network : Option NetworkIdentifier) (account : AccountIdentifier)
      (block : Option PartialBlockIdentifier) (currencies : Option (List Currency))
  | accountCoins (network : Option NetworkIdentifier) (account : AccountIdentifier)
      (includeMempool : Bool) (currencies : Option (List Currency))
  | block (network : Option NetworkIdentifier) (identifier : PartialBlockIdentifier)
  | blockTransaction (network : Option NetworkIdentifier) (block : Option BlockIdentifier)
      (hash : String)
  | mempool (network : Option NetworkIdentifier) (metadata : Option Metadata)
  | mempoolTransaction (network : Option NetworkIdentifier) (hash : String)
  | derive (network : Option NetworkIdentifier) (key : Option KeyText) (metadata : Option Metadata)
  | preprocess (network : Option NetworkIdentifier) (ops : List Operation)
      (metadata : Option Metadata)
  | metadata (network : Option NetworkIdentifier) (options : Option Metadata)
  | payloads (network : Option NetworkIdentifier) (ops : List Operation)
      (metadata : Option Metadata)
  | parse (network : Option NetworkIdentifier) (signed : Bool) (transaction : String)
  | combine (network : Option NetworkIdentifier) (unsigned : String)
      (signatures : List SignatureText)
  | hash (network : Option NetworkIdentifier) (transaction : String)
  | submit (network : Option NetworkIdentifier) (transaction : String)

namespace Endpoint

/-- All endpoints. -/
def all : List Endpoint :=
  [.networkList, .networkStatus, .networkOptions, .accountBalance, .accountCoins, .block,
    .blockTransaction, .mempool, .mempoolTransaction, .derive, .preprocess, .metadata, .payloads,
    .parse, .combine, .hash, .submit]

/-- Where an endpoint is found. -/
def path : Endpoint → String
  | .networkList => "/network/list"
  | .networkStatus => "/network/status"
  | .networkOptions => "/network/options"
  | .accountBalance => "/account/balance"
  | .accountCoins => "/account/coins"
  | .block => "/block"
  | .blockTransaction => "/block/transaction"
  | .mempool => "/mempool"
  | .mempoolTransaction => "/mempool/transaction"
  | .derive => "/construction/derive"
  | .preprocess => "/construction/preprocess"
  | .metadata => "/construction/metadata"
  | .payloads => "/construction/payloads"
  | .parse => "/construction/parse"
  | .combine => "/construction/combine"
  | .hash => "/construction/hash"
  | .submit => "/construction/submit"

/-- The endpoint at a path. -/
def ofPath? (path : String) : Option Endpoint := all.find? fun e => e.path == path

/-- The network a request names. -/
def network : Record (Option NetworkIdentifier) :=
  .optional "network_identifier" NetworkIdentifier.json

/-- The metadata of a request. -/
def metadataField : Record (Option Metadata) := .optional "metadata" Metadata.json

/-- The account of a request. -/
def account : Record AccountIdentifier := .required "account_identifier" AccountIdentifier.json

/-- The currencies a request selects. -/
def currencies : Record (Option (List Currency)) := .optional "currencies" Currency.json.list

/-- The transaction a request names. -/
def transaction : Record String := .required "transaction_identifier" transactionIdentifierJson

/-- The operations of a request. -/
def operations : Record (List Operation) := .required "operations" Operation.json.list

/-- A field that holds a text. -/
def textField (name : String) : Record String := .required name Json.Codec.string

/-- Reads a body with the given fields. -/
def body {α : Type} (fields : Record α) (make : α → Request) (text : String) :
    Except Json.Fault Request :=
  (fields.codec.ofText text).map make

/-- Reads the body of a request to an endpoint. -/
def read : Endpoint → String → Except Json.Fault Request
  | .networkList => body metadataField .networkList
  | .networkStatus => body (network.and metadataField) fun (n, m) => .networkStatus n m
  | .networkOptions => body (network.and metadataField) fun (n, m) => .networkOptions n m
  | .accountBalance =>
    body (network.and <| account.and <|
        (Record.optional "block_identifier" PartialBlockIdentifier.json).and currencies)
      fun (n, a, b, cs) => .accountBalance n a b cs
  | .accountCoins =>
    body (network.and <| account.and <|
        (Record.defaulted "include_mempool" Json.Codec.bool false).and currencies)
      fun (n, a, m, cs) => .accountCoins n a m cs
  | .block =>
    body (network.and (Record.defaulted "block_identifier" PartialBlockIdentifier.json {}))
      fun (n, b) => .block n b
  | .blockTransaction =>
    body (network.and <|
        (Record.optional "block_identifier" BlockIdentifier.json).and transaction)
      fun (n, b, t) => .blockTransaction n b t
  | .mempool => body (network.and metadataField) fun (n, m) => .mempool n m
  | .mempoolTransaction => body (network.and transaction) fun (n, t) => .mempoolTransaction n t
  | .derive =>
    body (network.and <| (Record.optional "public_key" KeyText.json).and metadataField)
      fun (n, k, m) => .derive n k m
  | .preprocess =>
    body (network.and <| operations.and metadataField) fun (n, ops, m) => .preprocess n ops m
  | .metadata =>
    body (network.and (Record.optional "options" Metadata.json)) fun (n, m) => .metadata n m
  | .payloads =>
    body (network.and <| operations.and metadataField) fun (n, ops, m) => .payloads n ops m
  | .parse =>
    body (network.and <|
        (Record.required "signed" Json.Codec.bool).and (textField "transaction"))
      fun (n, s, t) => .parse n s t
  | .combine =>
    body (network.and <| (textField "unsigned_transaction").and
        (Record.defaulted "signatures" SignatureText.json.list []))
      fun (n, t, ss) => .combine n t ss
  | .hash => body (network.and (textField "signed_transaction")) fun (n, t) => .hash n t
  | .submit => body (network.and (textField "signed_transaction")) fun (n, t) => .submit n t

end Endpoint

end RosettaGateway
