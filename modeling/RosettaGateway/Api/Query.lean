import RosettaGateway.Api.Error
import RosettaGateway.Node.Dialogue
import RosettaGateway.Stake.Ledger

/-!
# Queries and updates

A `Query` asks the node and ends with a result or an error; it cannot touch the ledger. An `Update`
may change the ledger as well, and what it has changed stays when it fails later. Every query is an
update that leaves the ledger alone.
-/

namespace RosettaGateway

/-- A computation that asks the node and may fail. -/
abbrev Query (α : Type) := ExceptT ApiError Dialogue α

/-- A computation that asks the node, may change the ledger and may fail. -/
abbrev Update (α : Type) := ExceptT ApiError (StateT Ledger Dialogue) α

namespace Query

/-- The query that ends at once with a given outcome. -/
def ofExcept {α : Type} (outcome : Except ApiError α) : Query α := ExceptT.mk (.done outcome)

/-- Ends with an error. -/
def fail {α : Type} (e : ApiError) : Query α := ofExcept (.error e)

/-- Ends with an error if there is no value. -/
def demand {α : Type} (e : ApiError) : Option α → Query α
  | some a => ofExcept (.ok a)
  | none => fail e

/-- The result of a part that may refuse. -/
def ofTx {α : Type} (outcome : Except TxError α) : Query α := ofExcept (outcome.mapError .ofTx)

/-- Asks the node one thing and interprets the reply. -/
def ask {α : Type} (call : NodeCall) (interpret : NodeReply → Except NodeError α)
    (otherwise : NodeError → ApiError) : Query α :=
  ExceptT.mk <| .ask call fun reply => .done ((interpret reply).mapError (.ofNode otherwise))

/-- Asks the node for something it has to have. -/
def fetch {α : Type} (call : NodeCall) (c : Json.Codec α) (otherwise : NodeError → ApiError) :
    Query α :=
  ask call (NodeReply.read call c.ofJson) otherwise

/-- Asks the node for something it may not have. -/
def find {α : Type} (call : NodeCall) (c : Json.Codec α) (otherwise : NodeError → ApiError) :
    Query (Option α) :=
  ask call (NodeReply.find call c.ofJson) otherwise

/-- The status of the node. -/
def status : Query NodeStatus := fetch .status NodeStatus.json fun _ => .nodeStatusUnavailable

/-- A query as an update that leaves the ledger alone. -/
def toUpdate {α : Type} (q : Query α) : Update α :=
  ExceptT.mk fun ledger => do
    let outcome ← ExceptT.run q
    return (outcome, ledger)

end Query

namespace Update

/-- The ledger as it is. -/
def ledger : Update Ledger := ExceptT.mk fun l => .done (.ok l, l)

/-- Replaces the ledger. -/
def setLedger (l : Ledger) : Update Unit := ExceptT.mk fun _ => .done (.ok (), l)

end Update

end RosettaGateway
