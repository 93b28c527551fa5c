import RosettaGateway.Text.BigEndian

/-!
# SHA-256 and HMAC

The hash of FIPS 180-4 on blocks of sixty-four bytes, and the keyed hash over it. Both serve the
choice of signature nonces.
-/

namespace RosettaGateway.Sha256

/-- The eight words carried from block to block. -/
abbrev State := Vector UInt32 8

/-- Rotation to the right. -/
def rotate (w : UInt32) (n : UInt32) : UInt32 := (w >>> n) ||| (w <<< (32 - n))

/-- The words before the first block. -/
def start : State := #v[
  0x6a09e667, 0xbb67ae85, 0x3c6ef372, 0xa54ff53a, 0x510e527f, 0x9b05688c, 0x1f83d9ab, 0x5be0cd19]

/-- What each round adds. -/
def roundConstants : List UInt32 := [
  0x428a2f98, 0x71374491, 0xb5c0fbcf, 0xe9b5dba5, 0x3956c25b, 0x59f111f1, 0x923f82a4, 0xab1c5ed5,
  0xd807aa98, 0x12835b01, 0x243185be, 0x550c7dc3, 0x72be5d74, 0x80deb1fe, 0x9bdc06a7, 0xc19bf174,
  0xe49b69c1, 0xefbe4786, 0x0fc19dc6, 0x240ca1cc, 0x2de92c6f, 0x4a7484aa, 0x5cb0a9dc, 0x76f988da,
  0x983e5152, 0xa831c66d, 0xb00327c8, 0xbf597fc7, 0xc6e00bf3, 0xd5a79147, 0x06ca6351, 0x14292967,
  0x27b70a85, 0x2e1b2138, 0x4d2c6dfc, 0x53380d13, 0x650a7354, 0x766a0abb, 0x81c2c92e, 0x92722c85,
  0xa2bfe8a1, 0xa81a664b, 0xc24b8b70, 0xc76c51a3, 0xd192e819, 0xd6990624, 0xf40e3585, 0x106aa070,
  0x19a4c116, 0x1e376c08, 0x2748774c, 0x34b0bcb5, 0x391c0cb3, 0x4ed8aa4a, 0x5b9cca4f, 0x682e6ff3,
  0x748f82ee, 0x78a5636f, 0x84c87814, 0x8cc70208, 0x90befffa, 0xa4506ceb, 0xbef9a3f7, 0xc67178f2]

/-- The number that four bytes stand for, the highest first. -/
def word (bytes : Octets) : UInt32 :=
  bytes.foldl (fun acc b => (acc <<< 8) ||| b.toUInt32) 0

/-- The four bytes of a word, the highest first. -/
def wordBytes (w : UInt32) : Octets :=
  [(w >>> 24).toUInt8, (w >>> 16).toUInt8, (w >>> 8).toUInt8, w.toUInt8]

/-- The word that follows sixteen words of the schedule. -/
def nextWord (w : Vector UInt32 16) : UInt32 :=
  let s0 := rotate w[1] 7 ^^^ rotate w[1] 18 ^^^ (w[1] >>> 3)
  let s1 := rotate w[14] 17 ^^^ rotate w[14] 19 ^^^ (w[14] >>> 10)
  w[0] + s0 + w[9] + s1

/-- The window of the schedule one step on. -/
def slide (w : Vector UInt32 16) : Vector UInt32 16 :=
  let next := nextWord w
  Vector.ofFn fun i => if h : i.val + 1 < 16 then w[i.val + 1] else next

/-- One round on the working words, with the first word of the schedule's window. -/
def round (s : State × Vector UInt32 16) (constant : UInt32) : State × Vector UInt32 16 :=
  let (v, w) := s
  let s1 := rotate v[4] 6 ^^^ rotate v[4] 11 ^^^ rotate v[4] 25
  let choice := (v[4] &&& v[5]) ^^^ (~~~ v[4] &&& v[6])
  let t1 := v[7] + s1 + choice + constant + w[0]
  let s0 := rotate v[0] 2 ^^^ rotate v[0] 13 ^^^ rotate v[0] 22
  let majority := (v[0] &&& v[1]) ^^^ (v[0] &&& v[2]) ^^^ (v[1] &&& v[2])
  let t2 := s0 + majority
  (#v[t1 + t2, v[0], v[1], v[2], v[3] + t1, v[4], v[5], v[6]], slide w)

/-- Works one block into the state. -/
def compress (s : State) (block : Octets) : State :=
  let window : Vector UInt32 16 := Vector.ofFn fun i => word ((block.drop (4 * i.val)).take 4)
  let (v, _) := roundConstants.foldl round (s, window)
  Vector.ofFn fun i => s[i] + v[i]

/-- Fills a message up to whole blocks, its length in bits at the end. -/
def pad (message : Octets) : Octets :=
  -- The mark and the length take nine bytes of the last block.
  let zeros := (55 + 64 - message.length % 64) % 64
  message ++ 0x80 :: (List.replicate zeros 0 ++ BigEndian.fixedBytes 8 (8 * message.length))

/-- Works so many blocks into the state. -/
def compressBlocks : Nat → State → Octets → State
  | 0, s, _ => s
  | n + 1, s, bytes => compressBlocks n (compress s (bytes.take 64)) (bytes.drop 64)

/-- The hash of a message. -/
def hash (message : Octets) : Octets :=
  let padded := pad message
  (compressBlocks (padded.length / 64) start padded).toList.flatMap wordBytes

/-- The keyed hash of a message, for keys of at most sixty-four bytes. -/
def hmac (key message : Octets) : Octets :=
  let block := key ++ List.replicate (64 - key.length) 0
  hash (block.map (· ^^^ 0x5c) ++ hash (block.map (· ^^^ 0x36) ++ message))

end RosettaGateway.Sha256
