import RosettaGateway.Rlp.Codec

/-!
# Parts of transactions

A party that spends and signs is an `Input`, a party that receives an `Output`, and a `Split` gives
a party a share. Each comes with its JSON and its wire codec.
-/

namespace RosettaGateway.Tx

open Json (Record)

/-- A party that spends coins and signs. The signature is empty until there is one. -/
structure Input where
  address : Address
  coins : Coins := {}
  sequence : UInt64 := 0
  signature : Octets := []
  deriving DecidableEq

/-- A party that receives coins. -/
structure Output where
  address : Address
  coins : Coins := {}
  deriving DecidableEq

/-- The share of a party. -/
structure Split where
  address : Address
  percentage : UInt64
  deriving DecidableEq

namespace Input

/-- Whether the input carries a signature. -/
def isSigned (i : Input) : Bool := !i.signature.isEmpty

/-- Inputs as JSON. -/
def json : Json.Codec Input :=
  (((Record.required "address" Address.json ["Address"]).and <|
    (Record.defaulted "coins" Coins.json {} ["Coins"]).and <|
    (Record.defaulted "sequence" Counter.json 0 ["Sequence"]).and
    (Record.defaulted "signature" Octets.json [] ["Signature"])).map
      (fun (address, coins, sequence, signature) => ⟨address, coins, sequence, signature⟩)
      (fun i => (i.address, i.coins, i.sequence, i.signature))).codec

/-- Inputs on the wire. -/
def wire : Rlp.Codec Input :=
  ((Rlp.Codec.address.and <| Rlp.Codec.coins.and <| Rlp.Codec.uint64.and Rlp.Codec.bytes).map
      (fun (address, coins, sequence, signature) => ⟨address, coins, sequence, signature⟩)
      (fun i => (i.address, i.coins, i.sequence, i.signature))).structured

end Input

namespace Output

/-- Outputs as JSON. -/
def json : Json.Codec Output :=
  (((Record.required "address" Address.json ["Address"]).and
    (Record.defaulted "coins" Coins.json {} ["Coins"])).map
      (fun (address, coins) => ⟨address, coins⟩)
      (fun o => (o.address, o.coins))).codec

/-- Outputs on the wire. -/
def wire : Rlp.Codec Output :=
  ((Rlp.Codec.address.and Rlp.Codec.coins).map
      (fun (address, coins) => ⟨address, coins⟩)
      (fun o => (o.address, o.coins))).structured

end Output

namespace Split

/-- Shares as JSON. -/
def json : Json.Codec Split :=
  (((Record.required "address" Address.json ["Address"]).and
    (Record.defaulted "percentage" Counter.json 0 ["Percentage"])).map
      (fun (address, percentage) => ⟨address, percentage⟩)
      (fun s => (s.address, s.percentage))).codec

/-- Shares on the wire. -/
def wire : Rlp.Codec Split :=
  ((Rlp.Codec.address.and Rlp.Codec.uint64).map
      (fun (address, percentage) => ⟨address, percentage⟩)
      (fun s => (s.address, s.percentage))).structured

end Split

end RosettaGateway.Tx
