import RosettaGateway.Api.Lookup

/-!
# Accounts

Balances of an account at a block, and its coins at the latest state. An account the chain has never
seen has nothing.
-/

namespace RosettaGateway

/-- The coins that a list of currencies selects, in the order of the coins; without a list, all.
Unknown currencies select nothing. -/
def selectedCoins : Option (List Currency) → List Denom
  | none => Denom.all
  | some currencies =>
    Denom.all.filter fun d => currencies.any fun c => Denom.ofSymbol? c.symbol == some d

/-- Amounts of an account at a block, and its sequence. -/
structure AccountState where
  block : BlockIdentifier
  amounts : List (Denom × Nat)
  sequence : UInt64

namespace AccountState

/-- What the API says of an account. -/
def ofNode (block : BlockIdentifier) (currencies : Option (List Currency)) (account : NodeAccount) :
    AccountState where
  block := block
  amounts := (selectedCoins currencies).map fun d => (d, account.coins.get d)
  sequence := account.sequence

/-- The sequence of an account as metadata. -/
def metadataJson (a : AccountState) : Json :=
  .object [("sequence_number", Counter.toJson a.sequence)]

/-- An amount as JSON. -/
def amountJson (d : Denom) (n : Nat) : Json := Amount.json.write (.ofInt n d)

/-- The balances of an account as JSON. -/
def balancesJson (a : AccountState) : Json :=
  .object [("block_identifier", BlockIdentifier.json.write a.block),
    ("balances", .array (a.amounts.map fun (d, n) => amountJson d n)),
    ("metadata", a.metadataJson)]

/-- The coins of an account as JSON. -/
def coinsJson (a : AccountState) : Json :=
  .object [("block_identifier", BlockIdentifier.json.write a.block),
    ("coins", .array (a.amounts.map fun (d, n) =>
      .object [("coin_identifier", .object [("identifier", .string d.coinIdentifier)]),
        ("amount", amountJson d n)])),
    ("metadata", a.metadataJson)]

end AccountState

namespace Query

/-- Reads the address in a request. -/
def addressOf (s : String) : Query Address := demand .invalidAddress (Address.ofText? s)

/-- The block a request for balances means. Index and hash together are taken as they are; half an
identifier is completed; without one it is the last final block. -/
def resolveBlock : Option PartialBlockIdentifier → Query BlockIdentifier
  | none => finalizedBlock
  -- Nothing is asked here, so index and hash may belong to different blocks.
  | some ⟨some index, some hash⟩ => ofExcept (.ok ⟨index, hash⟩)
  | some ⟨some index, none⟩ => do
    let b ← blockWithIndex index
    return .ofBlock b.height b.hash
  | some ⟨none, some hash⟩ => do
    let b ← blockWithHash hash
    return .ofBlock b.height b.hash
  | some ⟨none, none⟩ => finalizedBlock

/-- The account of an address. -/
def account (address : Address) (height : Option UInt64) : Query NodeAccount := do
  let found ← find (.account address height) NodeAccount.json fun _ => .accountUnavailable
  return found.getD {}

/-- The balances of an account at a block. -/
def balances (address : String) (block : Option PartialBlockIdentifier)
    (currencies : Option (List Currency)) : Query AccountState := do
  let address ← addressOf address
  let block ← resolveBlock block
  let state ← account address (some (heightOfIndex block.index))
  return .ofNode block currencies state

/-- The coins of an account at the latest state. -/
def coins (address : String) (currencies : Option (List Currency)) : Query AccountState := do
  let address ← addressOf address
  let block ← finalizedBlock
  let state ← account address none
  return .ofNode block currencies state

end Query

end RosettaGateway
