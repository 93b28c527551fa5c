import RosettaGateway.Operation.Metadata
import RosettaGateway.Operation.Type

/-!
# Operations

An operation is the effect of a transaction on one account in one currency. The operations of a
transaction are numbered from zero, and each after the first names the one before it as related.

Requests bring operations whose account, amount and type are just texts, so an `Operation` holds
texts, and `Operation.address`, `Operation.value` and `Operation.coin` say what they mean. A `Leg`
is an operation before it gets its number and its texts; `Operation.ofLegs` gives these to a list of
legs.
-/

namespace RosettaGateway

open Json (Record)

/-- An account as the API names it. -/
structure AccountIdentifier where
  address : String
  subAccount : Option String := none
  metadata : Option Metadata := none

namespace AccountIdentifier

/-- The account of an address. -/
def ofAddress (a : Address) : AccountIdentifier := { address := a.toText }

/-- Accounts as JSON. -/
def json : Json.Codec AccountIdentifier :=
  (((Record.required "address" Json.Codec.string).and <|
    (Record.optional "sub_account" (Record.required "address" Json.Codec.string).codec).and
    (Record.optional "metadata" Metadata.json)).map
      (fun (address, subAccount, metadata) => ⟨address, subAccount, metadata⟩)
      (fun a => (a.address, a.subAccount, a.metadata))).codec

end AccountIdentifier

/-- An amount as the API gives it: a signed decimal number of smallest units. -/
structure Amount where
  value : String
  currency : Currency
  deriving DecidableEq

namespace Amount

/-- An amount of a coin. -/
def ofInt (value : Int) (coin : Denom) : Amount := ⟨Numeral.ofInt value, coin.currency⟩

/-- Amounts as JSON. -/
def json : Json.Codec Amount :=
  (((Record.required "value" Json.Codec.string).and
    (Record.required "currency" Currency.json)).map
      (fun (value, currency) => ⟨value, currency⟩)
      (fun a => (a.value, a.currency))).codec

end Amount

/-- An operation. -/
structure Operation where
  index : Int
  related : List Int := []
  type : String
  status : Option String := none
  account : Option AccountIdentifier := none
  amount : Option Amount := none
  metadata : Option Metadata := none

namespace Operation

/-- The number of an operation as JSON. -/
def identifierJson : Json.Codec Int := (Record.required "index" Json.Codec.int64).codec

/-- Operations as JSON. -/
def json : Json.Codec Operation :=
  (((Record.required "operation_identifier" identifierJson).and <|
    (Record.listed "related_operations" identifierJson).and <|
    (Record.required "type" Json.Codec.string).and <|
    (Record.optional "status" Json.Codec.string).and <|
    (Record.optional "account" AccountIdentifier.json).and <|
    (Record.optional "amount" Amount.json).and
    (Record.optional "metadata" Metadata.json)).map
      (fun (index, related, type, status, account, amount, metadata) =>
        ⟨index, related, type, status, account, amount, metadata⟩)
      (fun op =>
        (op.index, op.related, op.type, op.status, op.account, op.amount, op.metadata))).codec

/-! ### What the texts mean -/

/-- The type of an operation, if it is a known one. -/
def type? (op : Operation) : Option OperationType := OperationType.ofName? op.type

/-- The account of an operation. -/
def address (op : Operation) : Except OperandError Address :=
  match op.account with
  | none => .error .missingAccount
  | some account =>
    match Address.ofText? account.address with
    | some a => .ok a
    | none => .error (.address account.address)

/-- The amount of an operation. -/
def value (op : Operation) : Except OperandError Int :=
  match op.amount with
  | none => .error .missingAmount
  | some amount =>
    match Numeral.integer? amount.value.toList with
    | some i => .ok i
    | none => .error (.amount amount.value)

/-- The coin of an operation. -/
def coin (op : Operation) : Except OperandError Denom :=
  match op.amount with
  | none => .error .missingAmount
  | some amount =>
    match Denom.ofCurrency? amount.currency with
    | some d => .ok d
    | none => .error (.currency amount.currency.symbol)

end Operation

/-- An operation before it is numbered. -/
structure Leg where
  type : OperationType
  account : Address
  value : Int
  coin : Denom
  metadata : Option Metadata := none

/-- The operation of a leg with a number and a status. -/
def Leg.operation (leg : Leg) (status : Option String) (index : Nat) : Operation where
  index := index
  related := if index = 0 then [] else [(index : Int) - 1]
  type := leg.type.name
  status := status
  account := some (.ofAddress leg.account)
  amount := some (.ofInt leg.value leg.coin)
  metadata := leg.metadata

/-- Numbers legs, chains each to the one before it, and gives all the same status. -/
def Operation.ofLegs (status : Option String) (legs : List Leg) : List Operation :=
  legs.mapIdx fun index leg => leg.operation status index

end RosettaGateway
