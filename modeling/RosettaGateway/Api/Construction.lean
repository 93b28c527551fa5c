import RosettaGateway.Api.Lookup
import RosettaGateway.Operation.Intent
import RosettaGateway.Operation.ToTx
import RosettaGateway.Tx.Wire

/-!
# Construction

A client builds a transaction in steps. From its operations the gateway tells what it needs to know
of the chain (`preprocess`), asks the node for it (`metadata`), and gives the unsigned transaction
with the hash to sign (`payloads`). From transaction and signature it makes the signed transaction
(`combine`). In between the client may look into a transaction (`parse`) and hash it (`hash`); in
the end it is sent to the node (`submit`). Transactions travel as plain hex of their wire form.
-/

namespace RosettaGateway

open Json (Record)

/-- A public key as clients give it. -/
structure KeyText where
  hexBytes : String
  curveType : String

/-- Public keys as JSON. -/
def KeyText.json : Json.Codec KeyText :=
  (((Record.required "hex_bytes" Json.Codec.string).and
    (Record.required "curve_type" Json.Codec.string)).map
      (fun (hexBytes, curveType) => ⟨hexBytes, curveType⟩)
      (fun k => (k.hexBytes, k.curveType))).codec

/-- What an account has to sign. -/
structure SigningPayload where
  account : AccountIdentifier
  hexBytes : String
  signatureType : String

/-- Signing payloads as JSON. -/
def SigningPayload.json : Json.Codec SigningPayload :=
  (((Record.required "account_identifier" AccountIdentifier.json).and <|
    (Record.required "hex_bytes" Json.Codec.string).and
    (Record.required "signature_type" Json.Codec.string)).map
      (fun (account, hexBytes, signatureType) => ⟨account, hexBytes, signatureType⟩)
      (fun p => (p.account, p.hexBytes, p.signatureType))).codec

/-- A signature with what it signs. -/
structure SignatureText where
  payload : SigningPayload
  publicKey : KeyText
  signatureType : String
  hexBytes : String

/-- Signatures as JSON. -/
def SignatureText.json : Json.Codec SignatureText :=
  (((Record.required "signing_payload" SigningPayload.json).and <|
    (Record.required "public_key" KeyText.json).and <|
    (Record.required "signature_type" Json.Codec.string).and
    (Record.required "hex_bytes" Json.Codec.string)).map
      (fun (payload, publicKey, signatureType, hexBytes) =>
        ⟨payload, publicKey, signatureType, hexBytes⟩)
      (fun s => (s.payload, s.publicKey, s.signatureType, s.hexBytes))).codec

/-- What a transaction in hex tells. -/
structure ParsedTransaction where
  description : Description
  signers : Option (List AccountIdentifier)

/-- Parsed transactions as JSON. -/
def ParsedTransaction.toJson (p : ParsedTransaction) : Json :=
  .object <| [("operations", Operation.json.list.write p.description.operations),
    ("metadata", Metadata.json.write p.description.metadata)] ++
    match p.signers with
    | none => []
    | some signers => [("account_identifier_signers", AccountIdentifier.json.list.write signers)]

namespace Construction

/-- The curve of all keys. -/
def curve : String := "secp256k1"

/-- The type of all signatures. -/
def signatureType : String := "ecdsa_recovery"

/-- Reads bytes in hex. -/
def bytesOf (s : String) : Except ApiError Octets :=
  match Hex.ofText? s with
  | some bytes => .ok bytes
  | none => .error (.invalidInput (TxError.hex s).message)

/-- Reads a transaction in hex. -/
def txOf (s : String) : Except ApiError Tx := do
  let bytes ← bytesOf s
  match Tx.ofBytes bytes with
  | .ok tx => .ok tx
  | .error e => .error (.unreadableTransaction e.message)

/-- The error of a kind that cannot be constructed. -/
def unsupported (k : Tx.Kind) : ApiError :=
  .invalidInput ("unsupported transaction type " ++ k.name)

/-- Refuses a kind that cannot be constructed. -/
def requireConstructible (k : Tx.Kind) : Except ApiError Unit :=
  if k = .send ∨ k = .smartContract then .ok () else .error (unsupported k)

/-- The account of a public key. -/
def derive (key : Option KeyText) : Except ApiError AccountIdentifier :=
  match key with
  | none => .error (.invalidInput "public key missing")
  | some key =>
    if key.curveType ≠ curve then
      .error (.invalidInput ("unsupported curve type " ++ key.curveType))
    else do
      let bytes ← bytesOf key.hexBytes
      if bytes.isEmpty then .error (.invalidInput "empty public key")
      else
        match PublicKey.ofBytes? bytes with
        | some k => .ok (.ofAddress k.address)
        | none => .error (.ofKey .malformedPublicKey)

/-- Reads the intent behind operations, and checks its accounts. -/
def intentOf (ops : List Operation) : Except ApiError Intent := do
  let intent ← (Intent.ofOperations ops).mapError .ofTx
  intent.validate.mapError .ofTx
  return intent

/-- The settings that a client may choose for a contract call. -/
def callSettings : List String := ["gas_limit", "gas_price", "data"]

/-- What is needed to know of the chain for some operations: the kind, the signer, the fee of a
send, and the settings of the client. -/
def preprocess (ops : List Operation) (metadata : Option Metadata) : Except ApiError Metadata := do
  let intent ← intentOf ops
  let fee := intent.fee?.toList.map fun fee => ("fee", Json.string (Numeral.ofInt fee))
  let settings := callSettings.filterMap fun key =>
    ((metadata.getD .empty).present? key).map (key, ·)
  return .ofList ([("type", .ofNat intent.kind.code.toNat),
    ("signer", .string intent.signer.toText)] ++ fee ++ settings)

/-- The unsigned transaction of some operations, and what its signer has to sign. -/
def payloads (chainId : String) (ops : List Operation) (m : Metadata) :
    Except ApiError (String × SigningPayload) := do
  let intent ← intentOf ops
  let _ ← (Metadata.demand "sequence" (m.counter? "sequence")).mapError .ofTx
  let tx ← (Tx.ofOperations intent.kind ops m).mapError .ofTx
  return (Hex.plain tx.toBytes,
    ⟨.ofAddress intent.signer, Hex.plain (tx.signingHash chainId).bytes, signatureType⟩)

/-- Looks into a transaction; for a signed one the signer is told. -/
def parse (transaction : String) (signed : Bool) : Except ApiError ParsedTransaction := do
  let tx ← txOf transaction
  requireConstructible tx.kind
  let description := tx.describe {}
  if signed then
    match tx.signer? with
    | some signer => return ⟨description, some [.ofAddress signer]⟩
    | none => .error (.unreadableTransaction "transaction has no signer")
  else return ⟨description, none⟩

/-- Checks that a signature is the one of the signer of a transaction, and puts it there. -/
def attach (chainId : String) (tx : Tx) (s : SignatureText) : Except ApiError Tx := do
  match Address.ofText? s.payload.account.address with
  | none => .error .invalidAddress
  | some claimed =>
    if tx.signer? ≠ some claimed then
      .error (.signatureRefused (claimed.toText ++ " does not sign this transaction"))
    else
      let signature ← bytesOf s.hexBytes
      (verifySignature (tx.signBytes chainId) signature claimed).mapError .ofKey
      return tx.setSignature claimed signature

/-- The signed transaction of an unsigned one and exactly one signature. -/
def combine (chainId : String) (unsigned : String) :
    List SignatureText → Except ApiError String
  | [s] => do
    let tx ← txOf unsigned
    requireConstructible tx.kind
    let signed ← attach chainId tx s
    return Hex.plain signed.toBytes
  | _ => .error (.invalidInput "need exact 1 signature")

/-- The hash of a transaction in hex. -/
def hash (transaction : String) : Except ApiError Hash := do
  let bytes ← bytesOf transaction
  -- The hash is of the bytes as they are, but they have to be a transaction.
  let _ ← txOf transaction
  return keccak256 bytes

/-- What the chain tells for a construction: the sequence of the signer and, by kind, the fee or the
settings of the call, each with the amount to expect as a fee. -/
def settingsFor (k : Tx.Kind) (options : Metadata) (height : UInt64) :
    Except ApiError (List (String × Json) × Nat) :=
  match k with
  | .send => do
    let asked ← (options.amount? "fee").mapError .ofTx
    -- A fee of zero asks for none in particular.
    let fee := (asked.filter (· ≠ 0)).getD (Chain.minimumSendFee height)
    return ([("fee", Wei.toJson fee)], fee)
  | .smartContract => do
    let gasLimit ← (options.counter? "gas_limit").mapError .ofTx
    let gasLimit := gasLimit.getD (Chain.maxGasLimit height)
    let gasPrice ← (options.amount? "gas_price").mapError .ofTx
    let gasPrice := gasPrice.getD (Chain.minimumGasPrice height)
    let data ← (options.bytes? "data").mapError .ofTx
    return ([("gas_limit", .string (Numeral.ofNat gasLimit.toNat)),
      ("gas_price", Wei.toJson gasPrice), ("data", .string (Hex.plain (data.getD [])))],
      gasPrice * gasLimit.toNat)
  | k => .error (unsupported k)

end Construction

/-- What the chain tells for a construction, and the fee to expect. -/
structure ConstructionMetadata where
  metadata : Metadata
  suggestedFee : Nat

namespace ConstructionMetadata

/-- The metadata of a construction as JSON. -/
def toJson (c : ConstructionMetadata) : Json :=
  .object [("metadata", Metadata.json.write c.metadata),
    ("suggested_fee", Amount.json.list.write [.ofInt c.suggestedFee .tfuel])]

/-- Asks the node for what a construction needs. -/
def query (options : Metadata) : Query ConstructionMetadata := do
  let signer ← Query.ofTx (options.address? "signer")
  let signer ← Query.demand (.invalidInput "empty signer address") signer
  let code ← Query.ofTx (options.counter? "type")
  let code ← Query.demand (.invalidInput "tx type missing in metadata") code
  let k ← Query.ofTx (Tx.kindOfCode code)
  let status ← Query.status
  let found ← Query.find (.account signer none) NodeAccount.json fun _ => .accountUnavailable
  let account ← Query.demand .accountUnavailable found
  let (settings, fee) ← Query.ofExcept (Construction.settingsFor k options status.currentHeight)
  return ⟨.ofList (("sequence", Counter.toJson (account.sequence + 1)) :: settings), fee⟩

end ConstructionMetadata

/-- Sends a signed transaction to the node, and tells the hash it was given. -/
def Query.submit (transaction : String) : Query Hash := do
  let bytes ← ofExcept (Construction.bytesOf transaction)
  fetch (.broadcast bytes) broadcastJson fun e => .submitFailed e.message

end RosettaGateway
