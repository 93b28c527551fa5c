import RosettaGateway.Curve.Signature
import RosettaGateway.Node.Error
import RosettaGateway.Tx.Error

/-!
# Errors of the API

Every failure a client sees is one of thirty-nine errors. An error has a number, a text, and a flag
that says whether the same request may succeed later. Some carry a reason, which follows a fixed
text. The last section says what failures of the parts become.
-/

namespace RosettaGateway

/-- An error of the API. -/
inductive ApiError where
  | chainIdUnavailable
  | invalidBlockchain
  | invalidSubnetwork
  | invalidNetwork
  | missingNetwork
  | latestBlockUnavailable
  | genesisBlockUnavailable
  | accountUnavailable
  | missingBlockIdentifier
  | invalidAddress
  | missingSubAccount
  | blockUnavailable
  | notImplemented
  | transactionsUnavailable
  | submitFailed (reason : String)
  | nonceUnavailable
  | malformedValue (reason : String)
  | nodeStatusUnavailable
  | invalidInput (reason : String)
  | unsupportedKeyType
  | unreadableTransaction (reason : String)
  | invalidGasPrice
  | unreadableValue (reason : String)
  | constructionCheck (reason : String)
  | internal (reason : String)
  | feeExceeded
  | gasNotEstimated (reason : String)
  | gasNotSuggested (reason : String)
  | blockTransactionUnavailable
  | mempoolUnavailable
  | mempoolTransactionUnavailable
  | unavailableOffline
  | recordNotFound
  | unmatchedOperations (reason : String)
  | signatureRefused (reason : String)
  | transactionNotFound
  | stakeUnresolved (reason : String)
  | nodeUnavailable (reason : String)
  | blockNotFound
  deriving DecidableEq

namespace ApiError

/-- All errors in the order of their numbers, those with a reason without one. -/
def all : List ApiError :=
  [.chainIdUnavailable, .invalidBlockchain, .invalidSubnetwork, .invalidNetwork, .missingNetwork,
    .latestBlockUnavailable, .genesisBlockUnavailable, .accountUnavailable, .missingBlockIdentifier,
    .invalidAddress, .missingSubAccount, .blockUnavailable, .notImplemented,
    .transactionsUnavailable, .submitFailed "", .nonceUnavailable, .malformedValue "",
    .nodeStatusUnavailable, .invalidInput "", .unsupportedKeyType, .unreadableTransaction "",
    .invalidGasPrice, .unreadableValue "", .constructionCheck "", .internal "", .feeExceeded,
    .gasNotEstimated "", .gasNotSuggested "", .blockTransactionUnavailable, .mempoolUnavailable,
    .mempoolTransactionUnavailable, .unavailableOffline, .recordNotFound, .unmatchedOperations "",
    .signatureRefused "", .transactionNotFound, .stakeUnresolved "", .nodeUnavailable "",
    .blockNotFound]

/-- The number of an error. -/
def code : ApiError → Nat
  | .chainIdUnavailable => 1
  | .invalidBlockchain => 2
  | .invalidSubnetwork => 3
  | .invalidNetwork => 4
  | .missingNetwork => 5
  | .latestBlockUnavailable => 6
  | .genesisBlockUnavailable => 7
  | .accountUnavailable => 8
  | .missingBlockIdentifier => 9
  | .invalidAddress => 10
  | .missingSubAccount => 11
  | .blockUnavailable => 12
  | .notImplemented => 13
  | .transactionsUnavailable => 14
  | .submitFailed _ => 15
  | .nonceUnavailable => 16
  | .malformedValue _ => 17
  | .nodeStatusUnavailable => 18
  | .invalidInput _ => 19
  | .unsupportedKeyType => 20
  | .unreadableTransaction _ => 21
  | .invalidGasPrice => 22
  | .unreadableValue _ => 23
  | .constructionCheck _ => 24
  | .internal _ => 25
  | .feeExceeded => 26
  | .gasNotEstimated _ => 27
  | .gasNotSuggested _ => 28
  | .blockTransactionUnavailable => 29
  | .mempoolUnavailable => 30
  | .mempoolTransactionUnavailable => 31
  | .unavailableOffline => 32
  | .recordNotFound => 33
  | .unmatchedOperations _ => 34
  | .signatureRefused _ => 35
  | .transactionNotFound => 36
  | .stakeUnresolved _ => 37
  | .nodeUnavailable _ => 38
  | .blockNotFound => 39

/-- The fixed text of an error, and the reason it carries. -/
def parts : ApiError → String × Option String
  | .chainIdUnavailable => ("unable to get chain ID", none)
  | .invalidBlockchain => ("invalid blockchain specified in network identifier", none)
  | .invalidSubnetwork => ("invalid sub-network identifier", none)
  | .invalidNetwork => ("invalid network specified in network identifier", none)
  | .missingNetwork => ("network identifier is missing", none)
  | .latestBlockUnavailable => ("unable to get latest block", none)
  | .genesisBlockUnavailable => ("unable to get genesis block", none)
  | .accountUnavailable => ("unable to get account", none)
  | .missingBlockIdentifier => ("missing block hash or height for querying block", none)
  | .invalidAddress => ("invalid account address", none)
  | .missingSubAccount => ("a valid subaccount must be specified", none)
  | .blockUnavailable => ("unable to get block", none)
  | .notImplemented => ("operation not implemented", none)
  | .transactionsUnavailable => ("unable to get transactions", none)
  | .submitFailed reason => ("unable to submit transaction", some reason)
  | .nonceUnavailable => ("unable to get next nonce", none)
  | .malformedValue reason => ("malformed value", some reason)
  | .nodeStatusUnavailable => ("unable to get node status", none)
  | .invalidInput reason => ("Invalid input param", some reason)
  | .unsupportedKeyType => ("unsupported public key type", none)
  | .unreadableTransaction reason => ("unable to parse transaction", some reason)
  | .invalidGasPrice => ("invalid gas price", none)
  | .unreadableValue reason => ("unmarshal error", some reason)
  | .constructionCheck reason => ("operation construction check error", some reason)
  | .internal reason => ("Internal error", some reason)
  | .feeExceeded => ("exceeded max fee", none)
  | .gasNotEstimated reason => ("unable to estimate gas", some reason)
  | .gasNotSuggested reason => ("unable to get suggest gas", some reason)
  | .blockTransactionUnavailable => ("unable to get block transaction", none)
  | .mempoolUnavailable => ("unable to get mempool", none)
  | .mempoolTransactionUnavailable => ("unable to get mempool transaction", none)
  | .unavailableOffline => ("Endpoint unavailable offline", none)
  | .recordNotFound => ("db key not found", none)
  | .unmatchedOperations reason =>
    ("operations do not match any supported transaction", some reason)
  | .signatureRefused reason => ("signature verification failed", some reason)
  | .transactionNotFound => ("transaction not found", none)
  | .stakeUnresolved reason => ("unable to resolve staked amount", some reason)
  | .nodeUnavailable reason => ("upstream node unavailable", some reason)
  | .blockNotFound => ("block not found", none)

/-- The text of an error. -/
def message (e : ApiError) : String :=
  match e.parts with
  | (text, none) => text
  | (text, some reason) => text ++ ": " ++ reason

/-- Whether the same request may succeed later. -/
def isRetriable : ApiError → Bool
  | .chainIdUnavailable => true
  | .latestBlockUnavailable => true
  | .genesisBlockUnavailable => true
  | .accountUnavailable => true
  | .nonceUnavailable => true
  | .nodeStatusUnavailable => true
  | .constructionCheck _ => true
  | .feeExceeded => true
  | .gasNotEstimated _ => true
  | .gasNotSuggested _ => true
  | .blockTransactionUnavailable => true
  | .mempoolUnavailable => true
  | .mempoolTransactionUnavailable => true
  | .nodeUnavailable _ => true
  | _ => false

/-- An error with a text, as JSON. -/
def jsonWith (e : ApiError) (text : String) : Json :=
  .object [("code", .ofNat e.code), ("message", .string text), ("retriable", .bool e.isRetriable)]

/-- Errors as JSON. -/
def toJson (e : ApiError) : Json := e.jsonWith e.message

/-- The list of all errors as clients are told it: without reasons. -/
def catalog : List Json := all.map fun e => e.jsonWith e.parts.1

/-! ### Failures of the parts -/

/-- What a refused transaction or list of operations becomes. -/
def ofTx : TxError → ApiError
  | .unmatched faults => .unmatchedOperations (TxError.unmatchedText faults)
  | .operand (.address _) => .invalidAddress
  | .operand .missingAccount => .invalidAddress
  | .wire cause => .unreadableTransaction (TxError.wire cause).message
  | .trailingBytes count => .unreadableTransaction (TxError.trailingBytes count).message
  | .unknownKind code => .unreadableTransaction (TxError.unknownKind code).message
  | e => .invalidInput e.message

/-- What a refused key or signature becomes. -/
def ofKey : KeyError → ApiError
  | .malformedPublicKey => .invalidInput KeyError.malformedPublicKey.message
  | e => .signatureRefused e.message

/-- What a failure of the node becomes: an outage that may pass, or the error of the endpoint. -/
def ofNode (otherwise : NodeError → ApiError) (e : NodeError) : ApiError :=
  if e.isTransient then .nodeUnavailable e.message else otherwise e

end ApiError

end RosettaGateway
