import HiveRelay.Pow.TokenCodec

/-!
# The hash functions of the sandbox script

The sandbox script may not import anything, so `sandbox-adapter.js` computes SHA-256 and HMAC by
itself, on 32-bit words. The length of the padded message is a 32-bit number there, which overflows
for messages of `2 ^ 31 - 72` bytes or more; below that bound the functions are as they are written
here.
-/

namespace HiveRelay.Pow

namespace Sandbox

def sha256K : List UInt32 := [
  0x428a2f98, 0x71374491, 0xb5c0fbcf, 0xe9b5dba5, 0x3956c25b, 0x59f111f1, 0x923f82a4, 0xab1c5ed5,
  0xd807aa98, 0x12835b01, 0x243185be, 0x550c7dc3, 0x72be5d74, 0x80deb1fe, 0x9bdc06a7, 0xc19bf174,
  0xe49b69c1, 0xefbe4786, 0x0fc19dc6, 0x240ca1cc, 0x2de92c6f, 0x4a7484aa, 0x5cb0a9dc, 0x76f988da,
  0x983e5152, 0xa831c66d, 0xb00327c8, 0xbf597fc7, 0xc6e00bf3, 0xd5a79147, 0x06ca6351, 0x14292967,
  0x27b70a85, 0x2e1b2138, 0x4d2c6dfc, 0x53380d13, 0x650a7354, 0x766a0abb, 0x81c2c92e, 0x92722c85,
  0xa2bfe8a1, 0xa81a664b, 0xc24b8b70, 0xc76c51a3, 0xd192e819, 0xd6990624, 0xf40e3585, 0x106aa070,
  0x19a4c116, 0x1e376c08, 0x2748774c, 0x34b0bcb5, 0x391c0cb3, 0x4ed8aa4a, 0x5b9cca4f, 0x682e6ff3,
  0x748f82ee, 0x78a5636f, 0x84c87814, 0x8cc70208, 0x90befffa, 0xa4506ceb, 0xbef9a3f7, 0xc67178f2]

def rotr (x n : UInt32) : UInt32 := (x >>> n) ||| (x <<< (32 - n))

/-- The length that a message is padded to. -/
def paddedLength (length : ℕ) : ℕ := ((length + 8) / 64 + 1) * 64

/-- A message, the byte `0x80`, zeros, and the length in bits. -/
def padded (message : Bytes) : Bytes :=
  message ++ ([0x80] ++ (List.replicate (paddedLength message.length - message.length - 9) 0 ++
    Bytes.ofNat 8 (message.length * 8)))

/-- The big-endian words of a string. -/
def words (b : Bytes) : ℕ → List UInt32
  | 0 => []
  | count + 1 => UInt32.ofNat (Bytes.toNat (b.take 4)) :: words (b.drop 4) count

/-- The next word of a schedule that is held newest first: `w[t - 2]` is the second of it. -/
def nextWord (w : List UInt32) : UInt32 :=
  let w2 := w.getD 1 0
  let w15 := w.getD 14 0
  let s0 := rotr w15 7 ^^^ rotr w15 18 ^^^ (w15 >>> 3)
  let s1 := rotr w2 17 ^^^ rotr w2 19 ^^^ (w2 >>> 10)
  w.getD 15 0 + s0 + w.getD 6 0 + s1

/-- A schedule with `count` more words. -/
def extend : ℕ → List UInt32 → List UInt32
  | 0, w => w
  | count + 1, w => extend count (nextWord w :: w)

/-- The eight words `h0` to `h7`, and the working variables `a` to `h`. -/
structure HashState where
  (a b c d e f g h : UInt32)

/-- One of the 64 rounds, with its constant and its word. -/
def round (s : HashState) (kw : UInt32 × UInt32) : HashState :=
  let s1Big := rotr s.e 6 ^^^ rotr s.e 11 ^^^ rotr s.e 25
  let ch := (s.e &&& s.f) ^^^ (~~~ s.e &&& s.g)
  let temp1 := s.h + s1Big + ch + kw.1 + kw.2
  let s0Big := rotr s.a 2 ^^^ rotr s.a 13 ^^^ rotr s.a 22
  let maj := (s.a &&& s.b) ^^^ (s.a &&& s.c) ^^^ (s.b &&& s.c)
  let temp2 := s0Big + maj
  ⟨temp1 + temp2, s.a, s.b, s.c, s.d + temp1, s.e, s.f, s.g⟩

/-- What a block of 64 bytes does to the state. -/
def compress (s : HashState) (block : Bytes) : HashState :=
  let w := (extend 48 (words block 16).reverse).reverse
  let r := (sha256K.zip w).foldl round s
  ⟨s.a + r.a, s.b + r.b, s.c + r.c, s.d + r.d, s.e + r.e, s.f + r.f, s.g + r.g, s.h + r.h⟩

/-- The state after a number of blocks. -/
def compressAll (s : HashState) (b : Bytes) : ℕ → HashState
  | 0 => s
  | count + 1 => compressAll (compress s (b.take 64)) (b.drop 64) count

/-- The state that `sha256` starts from. -/
def initialState : HashState :=
  ⟨0x6a09e667, 0xbb67ae85, 0x3c6ef372, 0xa54ff53a, 0x510e527f, 0x9b05688c, 0x1f83d9ab, 0x5be0cd19⟩

def digest (s : HashState) : Bytes :=
  [s.a, s.b, s.c, s.d, s.e, s.f, s.g, s.h].flatMap fun word => Bytes.ofNat 4 word.toNat

def sha256 (message : Bytes) : Bytes :=
  digest (compressAll initialState (padded message) (paddedLength message.length / 64))

/-- A key, padded with zeros to 64 bytes. -/
def paddedKey (key : Bytes) : Bytes :=
  let k := if 64 < key.length then sha256 key else key
  k ++ List.replicate (64 - k.length) 0

def hmacSha256 (key data : Bytes) : Bytes :=
  let inner := (paddedKey key).map (· ^^^ 0x36) ++ data
  let outer := (paddedKey key).map (· ^^^ 0x5c) ++ sha256 inner
  sha256 outer

theorem length_sha256 (message : Bytes) : (sha256 message).length = 32 := by
  simp [sha256, digest]

/-- The hash functions of the script as primitives. -/
def primitives : Primitives where
  hmacSha256 := hmacSha256
  sha256 := sha256
  length_hmacSha256 _ _ := length_sha256 _
  length_sha256 := length_sha256

example : sha256 (ascii "abc") =
    [0xba, 0x78, 0x16, 0xbf, 0x8f, 0x01, 0xcf, 0xea, 0x41, 0x41, 0x40, 0xde, 0x5d, 0xae, 0x22, 0x23,
     0xb0, 0x03, 0x61, 0xa3, 0x96, 0x17, 0x7a, 0x9c, 0xb4, 0x10, 0xff, 0x61, 0xf2, 0x00, 0x15,
     0xad] := by
  decide +kernel

end Sandbox

end HiveRelay.Pow
