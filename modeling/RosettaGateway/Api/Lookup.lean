import RosettaGateway.Api.Identifier
import RosettaGateway.Api.Query

/-!
# Looking up blocks

Clients name blocks by index or by hash; the node is asked for a height or a hash.
-/

namespace RosettaGateway.Query

/-- Reads the hash in a request. -/
def hashOf (s : String) : Query Hash :=
  demand (.invalidInput ("invalid hash " ++ s)) (Hash.ofText? s)

/-- Reads the height in a request. -/
def heightOf (index : Int) : Query UInt64 :=
  if index < 0 then fail (.invalidInput ("negative block index " ++ Numeral.ofInt index))
  else ofExcept (.ok (UInt64.ofNat index.toNat))

/-- The block the node names for a request. -/
def block (call : NodeCall) : Query NodeBlock := do
  let found ← find call NodeBlock.json fun _ => .blockUnavailable
  demand .blockNotFound found

/-- The block with an index. -/
def blockWithIndex (index : Int) : Query NodeBlock := do
  let height ← heightOf index
  block (.blockAt height)

/-- The block with a hash. -/
def blockWithHash (s : String) : Query NodeBlock := do
  let hash ← hashOf s
  block (.blockOf hash)

/-- The last block that is final. -/
def finalizedBlock : Query BlockIdentifier := do
  let s ← status
  return .ofBlock s.finalizedHeight s.finalizedHash

end RosettaGateway.Query
