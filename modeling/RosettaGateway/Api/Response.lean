import RosettaGateway.Api.Account
import RosettaGateway.Api.Block
import RosettaGateway.Api.Network
import RosettaGateway.Api.Request

/-!
# Responses

`Gateway.answer` says what a request gives. A request is admitted first: is there a node, if one is
needed, and is it for this network. Only `/block` can change the ledger; every other request is a
query.
-/

namespace RosettaGateway

/-- What a request gives. -/
inductive Response where
  | networks (networks : List NetworkIdentifier)
  | status (status : NetworkStatus)
  | options (gateway : Gateway)
  | balances (state : AccountState)
  | coins (state : AccountState)
  | block (block : Block)
  | transaction (transaction : Transaction)
  | pending (hashes : List String)
  | account (account : AccountIdentifier)
  | preprocessed (options : Metadata)
  | metadata (metadata : ConstructionMetadata)
  | payloads (unsigned : String) (payload : SigningPayload)
  | parsed (parsed : ParsedTransaction)
  | signed (transaction : String)
  | hash (hash : Hash)

namespace Response

/-- Responses as JSON. -/
def toJson : Response → Json
  | .networks ns => .object [("network_identifiers", NetworkIdentifier.json.list.write ns)]
  | .status s => s.toJson
  | .options g => g.options
  | .balances a => a.balancesJson
  | .coins a => a.coinsJson
  | .block b => b.toJson
  | .transaction t => .object [("transaction", t.toJson)]
  | .pending hashes =>
    .object [("transaction_identifiers", transactionIdentifierJson.list.write hashes)]
  | .account a => .object [("account_identifier", AccountIdentifier.json.write a)]
  | .preprocessed m => .object [("options", Metadata.json.write m)]
  | .metadata m => m.toJson
  | .payloads unsigned p =>
    .object [("unsigned_transaction", .string unsigned),
      ("payloads", SigningPayload.json.list.write [p])]
  | .parsed p => p.toJson
  | .signed t => .object [("signed_transaction", .string t)]
  | .hash h => .object [("transaction_identifier", transactionIdentifierJson.write h.toText)]

end Response

namespace Gateway

/-- The hashes of the transactions that wait for a block. -/
def pending : Query (List String) := do
  let found ← Query.find .pendingTransactions pendingJson fun _ => .mempoolUnavailable
  return found.getD []

/-- What a request other than `/block` gives. -/
def look (g : Gateway) : Request → Query Response
  | .networkList _ => return .networks [g.network]
  | .networkStatus n metadata => do
    Query.ofExcept (g.allow n)
    let status ← NetworkStatus.query metadata
    return .status status
  | .networkOptions n _ => do
    Query.ofExcept (g.checkNetwork n)
    return .options g
  | .accountBalance n account block currencies => do
    Query.ofExcept (g.allow n)
    let state ← Query.balances account.address block currencies
    return .balances state
  | .accountCoins n account _ currencies => do
    Query.ofExcept (g.allow n)
    let state ← Query.coins account.address currencies
    return .coins state
  | .block _ _ => Query.fail .notImplemented
  | .blockTransaction n _ hash => do
    Query.ofExcept (g.allow n)
    let transaction ← Query.transaction hash .blockTransactionUnavailable
    return .transaction transaction
  | .mempool n _ => do
    Query.ofExcept (g.allow n)
    let hashes ← pending
    return .pending hashes
  | .mempoolTransaction n hash => do
    Query.ofExcept (g.allow n)
    let transaction ← Query.transaction hash .mempoolTransactionUnavailable
    return .transaction transaction
  | .derive n key _ => Query.ofExcept do
    g.checkNetworkIfGiven n
    let account ← Construction.derive key
    return .account account
  | .preprocess n ops metadata => Query.ofExcept do
    g.checkNetwork n
    let options ← Construction.preprocess ops metadata
    return .preprocessed options
  | .metadata n options => do
    Query.ofExcept (g.allow n)
    let metadata ← ConstructionMetadata.query (options.getD .empty)
    return .metadata metadata
  | .payloads n ops metadata => Query.ofExcept do
    g.checkNetwork n
    let (unsigned, payload) ← Construction.payloads g.chainId ops (metadata.getD .empty)
    return .payloads unsigned payload
  | .parse n signed transaction => Query.ofExcept do
    g.checkNetwork n
    let parsed ← Construction.parse transaction signed
    return .parsed parsed
  | .combine n unsigned signatures => Query.ofExcept do
    g.checkNetwork n
    let transaction ← Construction.combine g.chainId unsigned signatures
    return .signed transaction
  | .hash n transaction => Query.ofExcept do
    g.checkNetworkIfGiven n
    let hash ← Construction.hash transaction
    return .hash hash
  | .submit n transaction => do
    Query.ofExcept (g.allow n)
    let hash ← Query.submit transaction
    return .hash hash

/-- What a request gives. -/
def answer (g : Gateway) : Request → Update Response
  | .block n identifier => do
    (Query.ofExcept (g.allow n)).toUpdate
    let block ← Update.block identifier
    return .block block
  | request => (g.look request).toUpdate

end Gateway

end RosettaGateway
