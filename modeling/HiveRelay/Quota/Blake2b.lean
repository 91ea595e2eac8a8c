import HiveRelay.Pow.Sha256
import HiveRelay.Quota.WalRecords

/-!
# BLAKE2b-256

The hash that the quota is used with. It is there to evaluate the model on concrete frames.
-/

namespace HiveRelay.Quota.Blake2b

open List

def iv : List UInt64 := [0x6a09e667f3bcc908, 0xbb67ae8584caa73b, 0x3c6ef372fe94f82b, 0xa54ff53a5f1d36f1,
  0x510e527fade682d1, 0x9b05688c2b3e6c1f, 0x1f83d9abfb41bd6b, 0x5be0cd19137e2179]

/-- The order of the words of a block in each of the twelve rounds. -/
def sigma : List (List ℕ) := [[0, 1, 2, 3, 4, 5, 6, 7, 8, 9, 10, 11, 12, 13, 14, 15],
  [14, 10, 4, 8, 9, 15, 13, 6, 1, 12, 0, 2, 11, 7, 5, 3],
  [11, 8, 12, 0, 5, 2, 15, 13, 10, 14, 3, 6, 7, 1, 9, 4],
  [7, 9, 3, 1, 13, 12, 11, 14, 2, 6, 5, 10, 4, 0, 15, 8],
  [9, 0, 5, 7, 2, 4, 10, 15, 14, 1, 11, 12, 6, 8, 3, 13],
  [2, 12, 6, 10, 0, 11, 8, 3, 4, 13, 7, 5, 15, 14, 1, 9],
  [12, 5, 1, 15, 14, 13, 4, 10, 0, 7, 6, 3, 9, 2, 8, 11],
  [13, 11, 7, 14, 12, 1, 3, 9, 5, 0, 15, 4, 8, 6, 2, 10],
  [6, 15, 14, 9, 11, 3, 0, 8, 12, 2, 13, 7, 1, 4, 10, 5],
  [10, 2, 8, 4, 7, 6, 1, 5, 15, 11, 9, 14, 3, 12, 13, 0],
  [0, 1, 2, 3, 4, 5, 6, 7, 8, 9, 10, 11, 12, 13, 14, 15],
  [14, 10, 4, 8, 9, 15, 13, 6, 1, 12, 0, 2, 11, 7, 5, 3]]

/-- The positions that the eight mixing steps of a round work on. -/
def lanes : List (ℕ × ℕ × ℕ × ℕ) := [(0, 4, 8, 12), (1, 5, 9, 13), (2, 6, 10, 14), (3, 7, 11, 15),
  (0, 5, 10, 15), (1, 6, 11, 12), (2, 7, 8, 13), (3, 4, 9, 14)]

def rotr (x n : UInt64) : UInt64 := (x >>> n) ||| (x <<< (64 - n))

/-- A mixing step with two words of the block. -/
def mix (v : List UInt64) (lane : ℕ × ℕ × ℕ × ℕ) (x y : UInt64) : List UInt64 :=
  let a := v.getD lane.1 0 + v.getD lane.2.1 0 + x
  let d := rotr (v.getD lane.2.2.2 0 ^^^ a) 32
  let c := v.getD lane.2.2.1 0 + d
  let b := rotr (v.getD lane.2.1 0 ^^^ c) 24
  let a := a + b + y
  let d := rotr (d ^^^ a) 16
  let c := c + d
  let b := rotr (b ^^^ c) 63
  (((v.set lane.1 a).set lane.2.1 b).set lane.2.2.1 c).set lane.2.2.2 d

/-- The mixing steps of a round, with the words in its order. -/
def mixAll (v : List UInt64) : List (ℕ × ℕ × ℕ × ℕ) → List UInt64 → List UInt64
  | lane :: lanes, x :: y :: rest => mixAll (mix v lane x y) lanes rest
  | _, _ => v

/-- The little-endian words of a block. -/
def words (b : Bytes) : ℕ → List UInt64
  | 0 => []
  | count + 1 => UInt64.ofNat (Bytes.toNatLE (b.take 8)) :: words (b.drop 8) count

/-- What a block of 128 bytes does to the state, where `count` bytes were read. -/
def compress (h : List UInt64) (block : Bytes) (count : ℕ) (final : Bool) : List UInt64 :=
  let m := words block 16
  let v := h ++ iv
  let v := v.set 12 (v.getD 12 0 ^^^ UInt64.ofNat count)
  let v := if final then v.set 14 (~~~ v.getD 14 0) else v
  let v := sigma.foldl (fun v order => mixAll v lanes (order.map fun i => m.getD i 0)) v
  zipWith (· ^^^ ·) h (zipWith (· ^^^ ·) (v.take 8) (v.drop 8))

/-- The state after the rest of a message; all blocks but the last are full. -/
def compressAll (h : List UInt64) (message : Bytes) (read : ℕ) : ℕ → List UInt64
  | 0 => compress h (message ++ replicate (128 - message.length) 0) (read + message.length) true
  | blocks + 1 => compressAll (compress h (message.take 128) (read + 128) false) (message.drop 128)
      (read + 128) blocks

/-- BLAKE2b with an output of 32 bytes and no key. -/
def hash (message : Bytes) : Bytes :=
  let h := iv.set 0 (iv.getD 0 0 ^^^ 0x01010020)
  let state := compressAll h message 0 ((message.length - 1) / 128)
  [state.getD 0 0, state.getD 1 0, state.getD 2 0, state.getD 3 0].flatMap fun word =>
    Bytes.ofNatLE 8 word.toNat

theorem length_hash (message : Bytes) : (hash message).length = 32 := by
  simp [hash]

/-- The hash functions of the stores. -/
def crypto : Crypto where
  blake2b256 := hash
  hmacSha256 := Pow.Sandbox.hmacSha256
  length_blake2b256 := length_hash
  length_hmacSha256 := Pow.Sandbox.primitives.length_hmacSha256

example : hash (ascii "abc") =
    [0xbd, 0xdd, 0x81, 0x3c, 0x63, 0x42, 0x39, 0x72, 0x31, 0x71, 0xef, 0x3f, 0xee, 0x98, 0x57, 0x9b,
     0x94, 0x96, 0x4e, 0x3b, 0xb1, 0xcb, 0x3e, 0x42, 0x72, 0x62, 0xc8, 0xc0, 0x68, 0xd5, 0x23,
     0x19] := by
  decide +kernel

end HiveRelay.Quota.Blake2b
