import RosettaGateway.Text.Numeral

/-!
# Socket addresses

A socket address is an IP address and a port. The IP address is four numbers with points between
them, or in brackets eight groups of hexadecimal digits with colons between them. There one run of
zero groups may be left out between two colons, the last two groups may be written as four numbers,
and a scope may follow. An address is written in the shortest form: the longest run of two or more
zero groups, the first of them if there are several, is left out.
-/

namespace RosettaGateway

/-- An IP address with a port. -/
inductive SocketAddress where
  | v4 (octets : List Nat) (port : Nat)
  | v6 (groups : List Nat) (scope : Nat) (port : Nat)
  deriving DecidableEq

namespace SocketAddress

/-- Reads a number from the front: as many digits as there are, at most `width`, and not above
`limit`. -/
def number? (base width limit : Nat) (zeroInFront : Bool) (cs : List Char) :
    Option (Nat × List Char) :=
  let (digits, rest) := cs.span fun c => (Numeral.digitValue c).any (· < base)
  let n := digits.foldl (fun acc c => acc * base + (Numeral.digitValue c).getD 0) 0
  if digits.isEmpty || width < digits.length || limit < n then none
  else if !zeroInFront && digits.head? == some '0' && 1 < digits.length then none
  else some (n, rest)

/-- Takes a character from the front. -/
def char? (c : Char) : List Char → Option (List Char)
  | d :: rest => if c = d then some rest else none
  | [] => none

/-- Reads four numbers with points between them. -/
def v4? (cs : List Char) : Option (List Nat × List Char) := do
  let (a, rest) ← number? 10 3 255 false cs
  let rest ← char? '.' rest
  let (b, rest) ← number? 10 3 255 false rest
  let rest ← char? '.' rest
  let (c, rest) ← number? 10 3 255 false rest
  let rest ← char? '.' rest
  let (d, rest) ← number? 10 3 255 false rest
  return ([a, b, c, d], rest)

/-- Takes the colon before a group, of which the first has none. -/
def separator? (isFirst : Bool) (cs : List Char) : Option (List Char) :=
  if isFirst then some cs else char? ':' cs

/-- Reads up to so many groups, and tells whether they end in four numbers. -/
def groups (isFirst : Bool) : Nat → List Char → List Nat × Bool × List Char
  | 0, cs => ([], false, cs)
  | count + 1, cs =>
    -- Four numbers stand for two groups, so there has to be room for two.
    let embedded := if count = 0 then none else (separator? isFirst cs).bind v4?
    match embedded with
    | some ([a, b, c, d], rest) => ([a * 256 + b, c * 256 + d], true, rest)
    | _ =>
      match (separator? isFirst cs).bind (number? 16 4 65535 true) with
      | none => ([], false, cs)
      | some (g, rest) =>
        let (others, ends, rest) := groups false count rest
        (g :: others, ends, rest)

/-- Reads eight groups, of which a run of zeros may be left out. -/
def v6? (cs : List Char) : Option (List Nat × List Char) :=
  let (front, ends, rest) := groups true 8 cs
  if front.length = 8 then some (front, rest)
  else if ends then none
  else
    match rest with
    -- What is left out is one group at least.
    | ':' :: ':' :: rest =>
      let (back, _, rest) := groups true (7 - front.length) rest
      some (front ++ List.replicate (8 - front.length - back.length) 0 ++ back, rest)
    | _ => none

/-- Reads the port behind a colon. -/
def port? (cs : List Char) : Option (Nat × List Char) :=
  (char? ':' cs).bind fun rest => number? 10 rest.length 65535 true rest

/-- Reads the scope behind a percent sign, if there is one. -/
def scope? : List Char → Option (Nat × List Char)
  | '%' :: rest => number? 10 rest.length (UInt32.size - 1) true rest
  | cs => some (0, cs)

/-- Reads an address with four numbers. -/
def socketV4? (cs : List Char) : Option SocketAddress := do
  let (octets, rest) ← v4? cs
  let (port, rest) ← port? rest
  if rest.isEmpty then return .v4 octets port else none

/-- Reads an address in brackets. -/
def socketV6? (cs : List Char) : Option SocketAddress := do
  let rest ← char? '[' cs
  let (groups, rest) ← v6? rest
  let (scope, rest) ← scope? rest
  let rest ← char? ']' rest
  let (port, rest) ← port? rest
  if rest.isEmpty then return .v6 groups scope port else none

/-- Reads an address. -/
def ofText? (s : String) : Option SocketAddress :=
  match socketV4? s.toList with
  | some a => some a
  | none => socketV6? s.toList

/-! ### Writing -/

/-- Four numbers with points between them. -/
def octetsText (octets : List Nat) : String :=
  String.intercalate "." (octets.map Numeral.ofNat)

/-- Groups with colons between them. -/
def groupsText (groups : List Nat) : String :=
  String.intercalate ":" (groups.map fun g => String.ofList (Nat.toDigits 16 g))

/-- How many zero groups stand at the front. -/
def zeros (groups : List Nat) : Nat := (groups.takeWhile (· == 0)).length

/-- The place and the length of the longest run of zero groups; the first of the longest. -/
def longestRun : List Nat → Nat × Nat
  | [] => (0, 0)
  | g :: rest =>
    let here := zeros (g :: rest)
    let (place, length) := longestRun rest
    if length ≤ here then (0, here) else (place + 1, length)

/-- The shortest form of eight groups. -/
def v6Text (groups : List Nat) : String :=
  match groups with
  | [0, 0, 0, 0, 0, 65535, a, b] =>
    "::ffff:" ++ octetsText [a / 256, a % 256, b / 256, b % 256]
  | groups =>
    let (place, length) := longestRun groups
    if length < 2 then groupsText groups
    else groupsText (groups.take place) ++ "::" ++ groupsText (groups.drop (place + length))

/-- The written form of an address. -/
def toText : SocketAddress → String
  | .v4 octets port => octetsText octets ++ ":" ++ Numeral.ofNat port
  | .v6 groups scope port =>
    let suffix := if scope = 0 then "" else "%" ++ Numeral.ofNat scope
    "[" ++ v6Text groups ++ suffix ++ "]:" ++ Numeral.ofNat port

end SocketAddress

end RosettaGateway
