import RosettaGateway.Chain.Quantity
import RosettaGateway.Json.Record

/-!
# Coins

The chain has two coins, THETA and TFUEL, each with eighteen decimals. `Denom` names a coin,
`Currency` is how the API names it, and `Coins` is an amount of each.
-/

namespace RosettaGateway

/-- Lower case for the letters A to Z; all other characters stay. -/
def foldCase (s : String) : List Char := s.toList.map Char.toLower

/-- A currency as the API names it. -/
structure Currency where
  symbol : String
  decimals : Nat
  deriving DecidableEq

/-- One of the two coins. -/
inductive Denom where
  | theta
  | tfuel
  deriving DecidableEq

namespace Denom

/-- Both coins, in the order in which they are listed. -/
def all : List Denom := [.theta, .tfuel]

/-- The symbol of a coin. -/
def symbol : Denom → String
  | .theta => "THETA"
  | .tfuel => "TFUEL"

/-- The name of the smallest unit of a coin. -/
def coinIdentifier : Denom → String
  | .theta => "ThetaWei"
  | .tfuel => "TFuelWei"

/-- The number of decimals of every coin. -/
def decimals : Nat := 18

/-- The currency of a coin. -/
def currency (d : Denom) : Currency := ⟨d.symbol, decimals⟩

/-- The coin of a symbol or of the name of a smallest unit, in any letter case. -/
def ofSymbol? (s : String) : Option Denom :=
  all.find? fun d => foldCase s == foldCase d.symbol || foldCase s == foldCase d.coinIdentifier

/-- The coin of a currency. -/
def ofCurrency? (c : Currency) : Option Denom :=
  if c.decimals = decimals then ofSymbol? c.symbol else none

end Denom

/-- Currencies as JSON. -/
def Currency.json : Json.Codec Currency :=
  (((Json.Record.required "symbol" Json.Codec.string).and
    (Json.Record.required "decimals" (Json.Codec.natural (UInt32.size - 1)))).map
      (fun (symbol, decimals) => ⟨symbol, decimals⟩)
      (fun c => (c.symbol, c.decimals))).codec

/-- An amount of each coin, in wei. -/
structure Coins where
  theta : Nat := 0
  tfuel : Nat := 0
  deriving DecidableEq, Inhabited

namespace Coins

/-- An amount of TFUEL. -/
def ofTfuel (n : Nat) : Coins := ⟨0, n⟩

/-- The amount of one coin. -/
def get (c : Coins) : Denom → Nat
  | .theta => c.theta
  | .tfuel => c.tfuel

/-- Replaces the amount of one coin. -/
def set (c : Coins) (d : Denom) (n : Nat) : Coins :=
  match d with
  | .theta => { c with theta := n }
  | .tfuel => { c with tfuel := n }

@[simp] theorem get_set (c : Coins) (d : Denom) (n : Nat) : (c.set d n).get d = n := by
  cases d <;> rfl

theorem get_set_of_ne (c : Coins) {d other : Denom} (h : d ≠ other) (n : Nat) :
    (c.set d n).get other = c.get other := by
  cases d <;> cases other <;> simp_all [get, set]

/-- Coins as JSON. -/
def json : Json.Codec Coins :=
  (((Json.Record.defaulted "thetawei" Wei.json 0 ["ThetaWei"]).and
    (Json.Record.defaulted "tfuelwei" Wei.json 0 ["TFuelWei"])).map
      (fun (theta, tfuel) => ⟨theta, tfuel⟩)
      (fun c => (c.theta, c.tfuel))).codec

end Coins

end RosettaGateway
