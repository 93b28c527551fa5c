import RosettaGateway.Text.Hex

/-!
# The curve secp256k1

The points of `y² = x³ + 7` over the field of `p` elements. Points are computed with in Jacobian
coordinates, `(X, Y, Z)` standing for `(X / Z², Y / Z³)`, and `Z = 0` for the point at infinity;
`Point.affine?` goes back to plain coordinates.
-/

namespace RosettaGateway.Secp256k1

/-- The size of the field. -/
def p : Nat := 0xfffffffffffffffffffffffffffffffffffffffffffffffffffffffefffffc2f

/-- The order of the group. -/
def n : Nat := 0xFFFFFFFFFFFFFFFFFFFFFFFFFFFFFFFEBAAEDCE6AF48A03BBFD25E8CD0364141

/-- Powers modulo `m`, by repeated squaring. -/
def powMod (m base : Nat) : Nat → Nat
  | 0 => 1 % m
  | e + 1 =>
    let half := powMod m base ((e + 1) / 2)
    let square := half * half % m
    if (e + 1) % 2 = 1 then square * base % m else square
termination_by e => e
decreasing_by omega

/-- The inverse modulo a prime. -/
def invMod (m a : Nat) : Nat := powMod m a (m - 2)

/-- The difference modulo `m` of two numbers below it. -/
def subMod (m a b : Nat) : Nat := (a + (m - b % m)) % m

/-- A point in Jacobian coordinates. -/
structure Point where
  x : Nat
  y : Nat
  z : Nat

namespace Point

/-- The point at infinity. -/
def infinity : Point := ⟨1, 1, 0⟩

/-- The point with given plain coordinates. -/
def ofAffine (x y : Nat) : Point := ⟨x, y, 1⟩

/-- The generator of the group. -/
def generator : Point :=
  ofAffine 0x79BE667EF9DCBBAC55A06295CE870B07029BFCDB2DCE28D959F2815B16F81798
    0x483ADA7726A3C4655DA4FBFC0E1108A8FD17B448A68554199C47D08FFB10D4B8

/-- The plain coordinates of a point, which the point at infinity lacks. -/
def affine? (a : Point) : Option (Nat × Nat) :=
  if a.z % p = 0 then none
  else
    let inverse := invMod p a.z
    let square := inverse * inverse % p
    some (a.x * square % p, a.y * (square * inverse % p) % p)

/-- Twice a point. -/
def double (a : Point) : Point :=
  if a.z = 0 ∨ a.y = 0 then infinity
  else
    let ySquare := a.y * a.y % p
    let s := 4 * a.x * ySquare % p
    let m := 3 * a.x * a.x % p
    let x := subMod p (m * m % p) (2 * s % p)
    let y := subMod p (m * subMod p s x % p) (8 * ySquare * ySquare % p)
    ⟨x, y, 2 * a.y * a.z % p⟩

/-- The sum of two points. -/
def add (a b : Point) : Point :=
  if a.z = 0 then b
  else if b.z = 0 then a
  else
    let za := a.z * a.z % p
    let zb := b.z * b.z % p
    let ua := a.x * zb % p
    let ub := b.x * za % p
    let sa := a.y * (zb * b.z % p) % p
    let sb := b.y * (za * a.z % p) % p
    let h := subMod p ub ua
    let r := subMod p sb sa
    -- Equal first coordinates: the points are the same or each other's negative.
    if h = 0 then
      if r = 0 then double a else infinity
    else
      let hSquare := h * h % p
      let hCube := hSquare * h % p
      let v := ua * hSquare % p
      let x := subMod p (subMod p (r * r % p) hCube) (2 * v % p)
      let y := subMod p (r * subMod p v x % p) (sa * hCube % p)
      ⟨x, y, h * (a.z * b.z % p) % p⟩

/-- A multiple of a point, for factors below `2 ^ 256`. -/
def multiple (k : Nat) (a : Point) : Point :=
  (List.range 256).foldr (fun i acc => if k.testBit i then add acc.double a else acc.double)
    infinity

/-- The point with a given first coordinate and a second coordinate of given parity. -/
def ofX? (x : Nat) (odd : Bool) : Option Point :=
  if p ≤ x then none
  else
    let square := (x * x % p * x + 7) % p
    -- As `p` leaves 3 when divided by 4, this power is a root of every square.
    let root := powMod p square ((p + 1) / 4)
    if root * root % p = square then
      some (ofAffine x (if decide (root % 2 = 1) = odd then root else p - root))
    else none

end Point

end RosettaGateway.Secp256k1
