import RosettaGateway.Hash.Basic
import RosettaGateway.Text.Utf8

/-!
# Keccak-256

The sponge over the permutation of 1600 bits with a rate of 136 bytes and the padding `10…01`, as it
was before the standard gave it a suffix. The state is twenty-five lanes of 64 bits; the lane in
column `x` and row `y` has the number `x + 5 * y`. Each step of a round is given by the formula for
one lane of its result.
-/

namespace RosettaGateway.Keccak

/-- The state of the sponge. -/
abbrev State := Vector UInt64 25

/-- The lane of a number, counted around. -/
def lane (s : State) (i : Nat) : UInt64 := s.get ⟨i % 25, Nat.mod_lt _ (by decide)⟩

/-- Rotation to the left. -/
def rotate (w : UInt64) (n : UInt64) : UInt64 :=
  if n = 0 then w else (w <<< n) ||| (w >>> (64 - n))

/-- By how much each lane is rotated. -/
def offsets : Vector UInt64 25 := #v[
  0, 1, 62, 28, 27,
  36, 44, 6, 55, 20,
  3, 10, 43, 25, 39,
  41, 45, 15, 21, 8,
  18, 2, 61, 56, 14]

/-- What each round adds to the first lane. -/
def roundConstants : List UInt64 := [
  0x0000000000000001, 0x0000000000008082, 0x800000000000808A, 0x8000000080008000,
  0x000000000000808B, 0x0000000080000001, 0x8000000080008081, 0x8000000000008009,
  0x000000000000008A, 0x0000000000000088, 0x0000000080008009, 0x000000008000000A,
  0x000000008000808B, 0x800000000000008B, 0x8000000000008089, 0x8000000000008003,
  0x8000000000008002, 0x8000000000000080, 0x000000000000800A, 0x800000008000000A,
  0x8000000080008081, 0x8000000000008080, 0x0000000080000001, 0x8000000080008008]

/-- Adds to each lane the parities of the two neighbouring columns. -/
def theta (a : State) : State :=
  let parity : Vector UInt64 5 := Vector.ofFn fun x =>
    lane a x ^^^ lane a (x + 5) ^^^ lane a (x + 10) ^^^ lane a (x + 15) ^^^ lane a (x + 20)
  let at5 (x : Nat) : UInt64 := parity.get ⟨x % 5, Nat.mod_lt _ (by decide)⟩
  let mix : Vector UInt64 5 := Vector.ofFn fun x => at5 (x + 4) ^^^ rotate (at5 (x + 1)) 1
  Vector.ofFn fun i => a[i] ^^^ mix.get ⟨i.val % 5, Nat.mod_lt _ (by decide)⟩

/-- Rotates the lanes and moves each to its new place. -/
def rhoPi (a : State) : State :=
  Vector.ofFn fun i =>
    let x := i.val % 5
    let y := i.val / 5
    -- The lane in column `u` and row `v` goes to column `v` and row `2 * u + 3 * v`.
    let source := (x + 3 * y) % 5 + 5 * x
    rotate (lane a source) (lane offsets source)

/-- Combines each lane with the two behind it in its row. -/
def chi (b : State) : State :=
  Vector.ofFn fun i =>
    let x := i.val % 5
    let row := i.val - x
    b[i] ^^^ (~~~ lane b (row + (x + 1) % 5) &&& lane b (row + (x + 2) % 5))

/-- One round. -/
def round (a : State) (constant : UInt64) : State :=
  let b := chi (rhoPi (theta a))
  b.set 0 (b[0] ^^^ constant)

/-- The permutation. -/
def permute (a : State) : State := roundConstants.foldl round a

/-- Bytes in each block. -/
def rate : Nat := 136

/-- The number that bytes stand for, the lowest first. -/
def word (bytes : Octets) : UInt64 :=
  bytes.foldr (fun b acc => (acc <<< 8) ||| b.toUInt64) 0

/-- The eight bytes of a lane, the lowest first. -/
def wordBytes (w : UInt64) : Octets :=
  [w.toUInt8, (w >>> 8).toUInt8, (w >>> 16).toUInt8, (w >>> 24).toUInt8,
   (w >>> 32).toUInt8, (w >>> 40).toUInt8, (w >>> 48).toUInt8, (w >>> 56).toUInt8]

/-- Adds a block to the state and permutes. -/
def absorb (s : State) (block : Octets) : State :=
  permute (Vector.ofFn fun i =>
    if i.val < 17 then s[i] ^^^ word ((block.drop (8 * i.val)).take 8) else s[i])

/-- Fills a message up to whole blocks. -/
def pad (message : Octets) : Octets :=
  let missing := rate - message.length % rate
  -- With one byte missing the first and the last bit of the padding share it.
  if missing = 1 then message ++ [0x81]
  else message ++ 0x01 :: (List.replicate (missing - 2) 0 ++ [0x80])

/-- Absorbs so many blocks, one after the other. -/
def absorbBlocks : Nat → State → Octets → State
  | 0, s, _ => s
  | n + 1, s, bytes => absorbBlocks n (absorb s (bytes.take rate)) (bytes.drop rate)

end RosettaGateway.Keccak

namespace RosettaGateway

/-- The Keccak-256 hash of a byte string. -/
def keccak256 (message : Octets) : Hash :=
  let padded := Keccak.pad message
  let s := Keccak.absorbBlocks (padded.length / Keccak.rate) (Vector.replicate 25 0) padded
  ⟨Keccak.wordBytes s[0] ++ Keccak.wordBytes s[1] ++ Keccak.wordBytes s[2] ++
    Keccak.wordBytes s[3], rfl⟩

/-- The Keccak-256 hash of a text, taken as UTF-8. -/
def keccakText (s : String) : Hash := keccak256 (Utf8.encode s)

end RosettaGateway
