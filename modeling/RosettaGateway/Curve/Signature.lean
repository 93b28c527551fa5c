import RosettaGateway.Chain.Address
import RosettaGateway.Curve.Secp256k1
import RosettaGateway.Hash.Sha256
import RosettaGateway.Text.BigEndian

/-!
# Keys and recoverable signatures

A signature is `r`, `s` and a recovery number, 65 bytes in all. From it and the signed hash the
public key can be recovered, and from the public key the address: the last twenty bytes of the hash
of the key's coordinates. Signing chooses its nonce by the deterministic generator of RFC 6979 and
always gives the smaller of the two possible values of `s`.
-/

namespace RosettaGateway

open Secp256k1

/-- Why a key or a signature is refused. -/
inductive KeyError where
  | signatureLength (got : Nat)
  | recoveryNumber (got : Nat)
  | malformedSignature
  | malformedPublicKey
  | privateKey
  | signerMismatch (expected recovered : Address)
  deriving DecidableEq

namespace KeyError

/-- The text of a refusal. -/
def message : KeyError → String
  | .signatureLength got =>
    "Invalid signature: expected 65 bytes, got " ++ Numeral.ofNat got
  | .recoveryNumber got => "Invalid signature: invalid recovery id " ++ Numeral.ofNat got
  | .malformedSignature => "Invalid signature: malformed signature"
  | .malformedPublicKey => "Invalid public key: malformed public key"
  | .privateKey => "Invalid private key"
  | .signerMismatch expected recovered =>
    "Signature does not match signer " ++ Hex.plain expected.bytes ++ ", recovered " ++
      Hex.plain recovered.bytes

end KeyError

/-! ### Public keys -/

/-- A public key: the coordinates of a point of the curve. -/
structure PublicKey where
  x : Nat
  y : Nat

namespace PublicKey

/-- The point of a key. -/
def point (k : PublicKey) : Point := Point.ofAffine k.x k.y

/-- The key of a point that is not at infinity. -/
def ofPoint? (a : Point) : Option PublicKey := a.affine?.map fun (x, y) => ⟨x, y⟩

/-- The short form: the parity of the second coordinate, then the first coordinate. -/
def compressed (k : PublicKey) : Octets :=
  (if k.y % 2 = 1 then 3 else 2) :: BigEndian.fixedBytes 32 k.x

/-- Reads a key of 33 bytes (marked 2 or 3 for the parity) or of 65 bytes (marked 4, or 6 or 7 with
a parity that has to fit). -/
def ofBytes? : Octets → Option PublicKey
  | [] => none
  | mark :: rest =>
    if rest.length = 32 ∧ (mark = 2 ∨ mark = 3) then
      (Point.ofX? (BigEndian.toNat rest) (mark == 3)).bind ofPoint?
    else if rest.length = 64 ∧ (mark = 4 ∨ mark = 6 ∨ mark = 7) then
      let x := BigEndian.toNat (rest.take 32)
      let y := BigEndian.toNat (rest.drop 32)
      if x < p ∧ y < p ∧ y * y % p = (x * x % p * x + 7) % p ∧
          (mark = 4 ∨ (mark = 7 ↔ y % 2 = 1)) then some ⟨x, y⟩
      else none
    else none

/-- The address of a key: the last twenty bytes of the hash of its coordinates. -/
def address (k : PublicKey) : Address :=
  let digest := keccak256 (BigEndian.fixedBytes 32 k.x ++ BigEndian.fixedBytes 32 k.y)
  ⟨digest.bytes.drop 12, by simp [digest.length_eq]⟩

end PublicKey

/-! ### Recovery -/

/-- The key under which `r` and `s` are a signature of a hash, the parity of the nonce's point being
given. -/
def recoverKey? (digest : Hash) (r s : Nat) (odd : Bool) : Option PublicKey :=
  if r = 0 ∨ n ≤ r ∨ s = 0 ∨ n ≤ s then none
  else
    (Point.ofX? r odd).bind fun nonce =>
      -- `r` times the key is `s` times the nonce's point less the hash times the generator.
      let inverse := invMod n r
      let u1 := (n - BigEndian.toNat digest.bytes % n * inverse % n) % n
      let u2 := s * inverse % n
      PublicKey.ofPoint? (Point.add (Point.generator.multiple u1) (nonce.multiple u2))

/-- The address that signed a hash. The last byte of a signature is 0 or 1, or 27 or 28. -/
def recoverAddress (digest : Hash) (signature : Octets) : Except KeyError Address :=
  match signature[64]?, decide (signature.length = 65) with
  | some v, true =>
    if v = 0 ∨ v = 1 ∨ v = 27 ∨ v = 28 then
      let r := BigEndian.toNat (signature.take 32)
      let s := BigEndian.toNat ((signature.drop 32).take 32)
      match recoverKey? digest r s (v == 1 || v == 28) with
      | some k => .ok k.address
      | none => .error .malformedSignature
    else .error (.recoveryNumber v.toNat)
  | _, _ => .error (.signatureLength signature.length)

/-- Checks that a signature of the hash of a message is the one of an address. -/
def verifySignature (message signature : Octets) (signer : Address) : Except KeyError Unit :=
  match recoverAddress (keccak256 message) signature with
  | .error e => .error e
  | .ok recovered =>
    if recovered = signer then .ok () else .error (.signerMismatch signer recovered)

/-! ### Signing -/

/-- The state of the nonce generator. -/
structure NonceState where
  key : Octets
  value : Octets

namespace NonceState

/-- Mixes a byte and a seed into the state. -/
def mix (s : NonceState) (mark : UInt8) (seed : Octets) : NonceState :=
  let key := Sha256.hmac s.key (s.value ++ mark :: seed)
  ⟨key, Sha256.hmac key s.value⟩

/-- The state for a seed. -/
def seeded (seed : Octets) : NonceState :=
  let blank : NonceState := ⟨List.replicate 32 0, List.replicate 32 1⟩
  (blank.mix 0 seed).mix 1 seed

/-- The next output, which is also the new value. -/
def next (s : NonceState) : NonceState := { s with value := Sha256.hmac s.key s.value }

end NonceState

/-- A private key: a number from one to below the order of the group. -/
structure PrivateKey where
  secret : Nat

namespace PrivateKey

/-- Reads a key of thirty-two bytes. -/
def ofBytes? (bytes : Octets) : Option PrivateKey :=
  let secret := BigEndian.toNat bytes
  if bytes.length = 32 ∧ 0 < secret ∧ secret < n then some ⟨secret⟩ else none

/-- Drops every marker `0x` in front. -/
def dropMarkers : List Char → List Char
  | '0' :: 'x' :: rest => dropMarkers rest
  | cs => cs

/-- Reads a key from sixty-four digits behind any number of markers `0x`. -/
def ofText (s : String) : Except KeyError PrivateKey :=
  match (Hex.decode? (dropMarkers s.toList)).bind ofBytes? with
  | some k => .ok k
  | none => .error .privateKey

/-- The public key of a private key. -/
def publicKey? (k : PrivateKey) : Option PublicKey :=
  PublicKey.ofPoint? (Point.generator.multiple k.secret)

/-- The signature with one nonce, if the nonce gives one. -/
def signWith? (k : PrivateKey) (digest : Hash) (nonce : Nat) : Option Octets :=
  if nonce = 0 ∨ n ≤ nonce then none
  else
    (Point.generator.multiple nonce).affine?.bind fun (x, y) =>
      let r := x % n
      let s := (BigEndian.toNat digest.bytes % n + r * k.secret) % n * invMod n nonce % n
      if r = 0 ∨ s = 0 then none
      else
        -- Of `s` and its negative the smaller is given; taking the other one turns the point over.
        let high := n / 2 < s
        let odd := decide (y % 2 = 1)
        let number := (if n ≤ x then 2 else 0) + (if odd != decide high then 1 else 0)
        some (BigEndian.fixedBytes 32 r ++ BigEndian.fixedBytes 32 (if high then n - s else s) ++
          [UInt8.ofNat number])

/-- Tries nonces until one gives a signature. -/
def signFrom (k : PrivateKey) (digest : Hash) : Nat → NonceState → Option Octets
  | 0, _ => none
  | tries + 1, s =>
    let s := s.next
    match k.signWith? digest (BigEndian.toNat s.value) with
    | some signature => some signature
    | none => signFrom k digest tries (s.mix 0 [])

/-- The seed of the nonce generator: the secret, then the hash as a number below the order. -/
def seed (k : PrivateKey) (digest : Hash) : Octets :=
  BigEndian.fixedBytes 32 k.secret ++ BigEndian.fixedBytes 32 (BigEndian.toNat digest.bytes % n)

/-- The signature of a hash. A nonce fails with a chance below `2 ^ -120`, so few tries are enough.
-/
def sign (k : PrivateKey) (digest : Hash) : Option Octets :=
  k.signFrom digest 8 (NonceState.seeded (k.seed digest))

end PrivateKey

end RosettaGateway
