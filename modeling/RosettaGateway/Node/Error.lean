import RosettaGateway.Text.Numeral

/-!
# Failures of a node

A request to a node fails because the node cannot be reached, because it takes too long, because it
answers with an error, or because its answer cannot be read. The first two may pass by themselves;
an answer, even a bad one, is final.
-/

namespace RosettaGateway

namespace Elapsed

/-- Decimals behind a point, without zeros at the end; nothing if there are none. -/
def fraction (width n : Nat) : List Char :=
  let digits := Nat.toDigits 10 n
  let padded := List.replicate (width - digits.length) '0' ++ digits
  match (padded.reverse.dropWhile (· == '0')).reverse with
  | [] => []
  | kept => '.' :: kept

/-- A time in nanoseconds, in the greatest unit of which it has one or more. -/
def toText (nanoseconds : Nat) : String :=
  let inUnit (size decimals : Nat) (unit : String) : String :=
    Numeral.ofNat (nanoseconds / size) ++
      String.ofList (fraction decimals (nanoseconds % size)) ++ unit
  if 1_000_000_000 ≤ nanoseconds then inUnit 1_000_000_000 9 "s"
  else if 1_000_000 ≤ nanoseconds then inUnit 1_000_000 6 "ms"
  else if 1_000 ≤ nanoseconds then inUnit 1_000 3 "µs"
  else Numeral.ofNat nanoseconds ++ "ns"

end Elapsed

/-- Why a request to a node has no result. -/
inductive NodeError where
  | unreachable (reason : String)
  | timeout (nanoseconds : Nat)
  | remote (code : Int) (message : String)
  | malformed (method : String)
  deriving DecidableEq

namespace NodeError

/-- The code of the answer of a node that does not know what it is asked for. -/
def notFoundCode : Int := -32000

/-- Whether the same request may succeed later. -/
def isTransient : NodeError → Bool
  | .unreachable _ => true
  | .timeout _ => true
  | .remote _ _ => false
  | .malformed _ => false

/-- Whether the node does not know what it was asked for. -/
def isNotFound : NodeError → Bool
  | .remote code _ => code == notFoundCode
  | _ => false

/-- The text of a failure. -/
def message : NodeError → String
  | .unreachable reason => "Node unreachable: " ++ reason
  | .timeout nanoseconds => "Node request timed out after " ++ Elapsed.toText nanoseconds
  | .remote code message => "Node error " ++ Numeral.ofInt code ++ ": " ++ message
  | .malformed method => "Malformed node response: " ++ method ++ ": not an answer to this request"

end NodeError

end RosettaGateway
