import RosettaGateway.Operation.Layout

/-!
# Intents

Two kinds of transactions can be built from scratch: a send from one account to another, and a
contract call. Each has slots, which the operations fill in order; an `Intent` is a list of
operations that fills the slots of one of them. `Intent.validate` checks that the legs of a send
name two accounts only.
-/

namespace RosettaGateway

/-- What an operation has to be in its place: its type, its coin, and whether it pays. -/
structure Slot where
  type : OperationType
  coin : Denom
  outgoing : Bool
  deriving DecidableEq

namespace Slot

/-- Whether a value has the sign of the slot; zero has both. -/
def admits (slot : Slot) (value : Int) : Bool :=
  if slot.outgoing then value ≤ 0 else 0 ≤ value

/-- Turns a fault of an operand into one of its place. -/
def lift {α : Type} (position : Nat) : Except OperandError α → Except SlotFault α
  | .ok a => .ok a
  | .error cause => .error (.operand position cause)

/-- Fills a slot with an operation. -/
def fill (k : Tx.Kind) (position : Nat) (slot : Slot) (op : Operation) :
    Except SlotFault Posting :=
  if op.type ≠ slot.type.name then
    .error (.wrongType k position op.type slot.type.name)
  else do
    let account ← lift position op.address
    let coin ← lift position op.coin
    if coin ≠ slot.coin then
      .error (.wrongCoin k position slot.coin)
    else
      let value ← lift position op.value
      if slot.admits value then return ⟨op, account, coin, value⟩
      else .error (.wrongSign k position)

end Slot

/-- What is to be built. -/
inductive Intent where
  | send (paidTheta paidTfuel receivedTheta receivedTfuel fee : Posting)
  | smartContract (paid received : Posting)

namespace Intent

/-- Fills the slots of a send: both legs of the sender, both legs of the receiver, the fee. -/
def ofSend : List Operation → Except SlotFault Intent
  | [a, b, c, d, e] => do
    let paidTheta ← Slot.fill .send 0 ⟨.sendInput, .theta, true⟩ a
    let paidTfuel ← Slot.fill .send 1 ⟨.sendInput, .tfuel, true⟩ b
    let receivedTheta ← Slot.fill .send 2 ⟨.sendOutput, .theta, false⟩ c
    let receivedTfuel ← Slot.fill .send 3 ⟨.sendOutput, .tfuel, false⟩ d
    let fee ← Slot.fill .send 4 ⟨.fee, .tfuel, true⟩ e
    return .send paidTheta paidTfuel receivedTheta receivedTfuel fee
  | ops => .error (.count .send 5 ops.length)

/-- Fills the slots of a contract call: what the sender pays, what the contract receives. -/
def ofSmartContract : List Operation → Except SlotFault Intent
  | [a, b] => do
    let paid ← Slot.fill .smartContract 0 ⟨.smartContractFrom, .tfuel, true⟩ a
    let received ← Slot.fill .smartContract 1 ⟨.smartContractTo, .tfuel, false⟩ b
    return .smartContract paid received
  | ops => .error (.count .smartContract 2 ops.length)

/-- The intent behind a list of operations. A list that fits no kind is refused with the fault of
each. -/
def ofOperations (ops : List Operation) : Except TxError Intent :=
  match ofSend ops with
  | .ok intent => .ok intent
  | .error sendFault =>
    match ofSmartContract ops with
    | .ok intent => .ok intent
    | .error callFault => .error (.unmatched [sendFault, callFault])

/-- The kind of the transaction. -/
def kind : Intent → Tx.Kind
  | .send .. => .send
  | .smartContract .. => .smartContract

/-- The legs, in the order of the operations. -/
def legs : Intent → List Posting
  | .send a b c d e => [a, b, c, d, e]
  | .smartContract a b => [a, b]

/-- The account that signs, which is the one of the first operation. -/
def signer : Intent → Address
  | .send paidTheta _ _ _ _ => paidTheta.account
  | .smartContract paid _ => paid.account

/-- The fee of a send. A contract call has none; it pays for gas. -/
def fee? : Intent → Option Int
  | .send _ _ _ _ fee => some (-fee.value)
  | .smartContract .. => none

/-- Checks the accounts of a send: both legs of the sender and the fee name one account, both legs
of the receiver name another. -/
def validate : Intent → Except TxError Unit
  | .smartContract .. => .ok ()
  | .send paidTheta paidTfuel receivedTheta receivedTfuel fee =>
    if paidTheta.account ≠ paidTfuel.account ∨ paidTfuel.account ≠ fee.account then
      .error (.layout .send .senderDiffers)
    else if receivedTheta.account ≠ receivedTfuel.account then
      .error (.layout .send .receiverDiffers)
    else if paidTfuel.account = receivedTfuel.account then
      .error (.layout .send .sameAccount)
    else .ok ()

end Intent

end RosettaGateway
