import RosettaGateway.Operation.Basic

/-!
# Layouts

The operations of a transaction stand in an order that its kind fixes. A `Cursor` walks a list of
operations from the front and reads what the layout of a kind allows next: one leg, the legs of a
party, legs in pairs, the fee. Legs are read one after the other, and each is read in full before
the next, so the first fault of a list is the one that is reported.
-/

namespace RosettaGateway

/-- An operation with its account, coin and value read. -/
structure Posting where
  source : Operation
  account : Address
  coin : Denom
  value : Int

namespace Operation

/-- Reads the account, the coin and the value of an operation, in this order. -/
def posting (op : Operation) : Except TxError Posting :=
  match op.address, op.coin, op.value with
  | .ok account, .ok coin, .ok value => .ok ⟨op, account, coin, value⟩
  | .error cause, _, _ => .error (.operand cause)
  | _, .error cause, _ => .error (.operand cause)
  | _, _, .error cause => .error (.operand cause)

end Operation

namespace Posting

/-- What a leg pays; refused if it receives. -/
def debit (k : Tx.Kind) (leg : Posting) : Except TxError Nat :=
  if leg.value ≤ 0 then .ok (-leg.value).toNat
  else .error (.layout k (.positive leg.source.type leg.source.index))

/-- What a leg receives; refused if it pays. -/
def credit (k : Tx.Kind) (leg : Posting) : Except TxError Nat :=
  if 0 ≤ leg.value then .ok leg.value.toNat
  else .error (.layout k (.negative leg.source.type leg.source.index))

/-- What a leg pays or receives. -/
def amount (k : Tx.Kind) (outgoing : Bool) (leg : Posting) : Except TxError Nat :=
  if outgoing then leg.debit k else leg.credit k

/-- Refuses a leg in another coin. -/
def requireCoin (k : Tx.Kind) (leg : Posting) (coin : Denom) : Except TxError Unit :=
  if leg.coin = coin then .ok ()
  else .error (.layout k (.wrongCoin leg.source.type leg.source.index coin))

/-- Refuses a leg of another account. -/
def requireAccount (k : Tx.Kind) (leg : Posting) (account : Address) : Except TxError Unit :=
  if leg.account = account then .ok ()
  else .error (.layout k (.wrongAccount leg.source.type leg.source.index account))

end Posting

/-- A party with at most one leg for each coin. The first leg carries its sequence and signature. -/
structure Party where
  account : Address
  first : Operation
  coins : Coins := {}
  seen : List Denom := []

namespace Party

/-- Adds a leg to a party. -/
def add (k : Tx.Kind) (type : OperationType) (outgoing : Bool) (party : Party) (leg : Posting) :
    Except TxError Party := do
  leg.requireAccount k party.account
  if leg.coin ∈ party.seen then
    .error (.layout k (.duplicate leg.coin type.name))
  else
    let amount ← leg.amount k outgoing
    return { party with coins := party.coins.set leg.coin amount, seen := leg.coin :: party.seen }

/-- The party of a run of legs, if there are any. -/
def ofRun (k : Tx.Kind) (type : OperationType) (outgoing : Bool) :
    List Operation → Except TxError (Option Party)
  | [] => .ok none
  | op :: others => do
    let leg ← op.posting
    let party ← add k type outgoing ⟨leg.account, op, {}, []⟩ leg
    let party ← others.foldlM (fun party op => do
      let leg ← op.posting
      add k type outgoing party leg) party
    return some party

end Party

/-- The fee of a transaction, in TFUEL, and the operation that pays it. -/
structure FeeLeg where
  payer : Address
  amount : Nat
  source : Operation

/-- How far a list of operations has been read. -/
structure Cursor where
  kind : Tx.Kind
  position : Nat
  rest : List Operation

namespace Cursor

/-- The start of a list of operations. -/
def start (k : Tx.Kind) (ops : List Operation) : Cursor := ⟨k, 0, ops⟩

/-- The operations of a type that come next. -/
def run (cursor : Cursor) (type : OperationType) : List Operation :=
  cursor.rest.takeWhile fun op => op.type == type.name

/-- The cursor behind the operations of a type that come next. -/
def skipRun (cursor : Cursor) (type : OperationType) : Cursor where
  kind := cursor.kind
  position := cursor.position + (cursor.run type).length
  rest := cursor.rest.dropWhile fun op => op.type == type.name

/-- Reads an operation of a type. -/
def one (cursor : Cursor) (type : OperationType) : Except TxError (Posting × Cursor) :=
  match cursor.rest with
  | [] => .error (.layout cursor.kind (.expected type.name cursor.position none))
  | op :: rest =>
    if op.type = type.name then do
      let leg ← op.posting
      return (leg, ⟨cursor.kind, cursor.position + 1, rest⟩)
    else .error (.layout cursor.kind (.expected type.name cursor.position (some op.type)))

/-- Reads the legs of a party, if it has any. -/
def party (cursor : Cursor) (type : OperationType) (outgoing : Bool) :
    Except TxError (Option Party × Cursor) := do
  let party ← Party.ofRun cursor.kind type outgoing (cursor.run type)
  return (party, cursor.skipRun type)

/-- Reads the fee, which the given account has to pay if one is given. -/
def fee (cursor : Cursor) (payer : Option Address) : Except TxError (FeeLeg × Cursor) := do
  let (leg, cursor) ← cursor.one .fee
  leg.requireCoin cursor.kind .tfuel
  match payer with
  | some account => leg.requireAccount cursor.kind account
  | none => .ok ()
  let amount ← leg.debit cursor.kind
  return (⟨leg.account, amount, leg.source⟩, cursor)

/-- Refuses operations that are left over. -/
def finish (cursor : Cursor) : Except TxError Unit :=
  match cursor.rest with
  | [] => .ok ()
  | op :: _ => .error (.layout cursor.kind (.unexpected op.type cursor.position))

/-- Reads a run of legs in pairs, the THETA leg of an account and then its TFUEL leg, and gives each
pair to a reader together with its position. `next` is the type of the operation behind the run. -/
def pairsOf {α : Type} (k : Tx.Kind) (type : OperationType) (next : Option String)
    (read : Nat → Posting → Posting → Except TxError α) (position : Nat) :
    List Operation → Except TxError (List α)
  | [] => .ok []
  -- An odd leg is read before its partner is missed.
  | [op] => do
    let theta ← op.posting
    theta.requireCoin k .theta
    .error (.layout k (.expected type.name (position + 1) next))
  | op :: op' :: rest => do
    let theta ← op.posting
    theta.requireCoin k .theta
    let tfuel ← op'.posting
    tfuel.requireCoin k .tfuel
    tfuel.requireAccount k theta.account
    let a ← read position theta tfuel
    let others ← pairsOf k type next read (position + 2) rest
    return a :: others

/-- Reads the pairs of legs of a type. -/
def pairs {α : Type} (cursor : Cursor) (type : OperationType)
    (read : Nat → Posting → Posting → Except TxError α) : Except TxError (List α × Cursor) := do
  let after := cursor.skipRun type
  let items ← pairsOf cursor.kind type (after.rest.head?.map (·.type)) read cursor.position
    (cursor.run type)
  return (items, after)

end Cursor

end RosettaGateway
