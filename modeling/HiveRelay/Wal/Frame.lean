import HiveRelay.Lib.Bytes
import HiveRelay.Lib.Guard

/-!
# The version-2 WAL frame

`encodeWalFrame`, `inspectBlindWalFrameV2Header` and `decodeBlindWalFrameV2` of
`packages/blind-daemon/transaction-store.js`, over byte strings. A frame is a 192-byte header, the
payload and a 32-byte checksum:

```
0   magic "HRWL"          50  virtualBucket u16     128 durabilityContinuityHash
4   version = 2           52  mapGeneration u64     160 payload hash
5   type                  60  ownerFenceTokenHash   192 payload
6   totalLength u32       92  payloadLength u32     ..  checksum
10  sequence u64          96  previousWalHash
18  transactionId
```

The hash is a parameter. All the frame codec needs of BLAKE2b-256 is that a digest has 32 bytes,
so that is the only fact `Blake2b256` carries; no result about the log rests on collision
resistance.
-/

namespace HiveRelay.Wal

open List
open Bytes

/-- The hash function of the store, BLAKE2b with a 32-byte digest. -/
structure Blake2b256 where
  /-- The digest of a byte string. -/
  digest : Bytes → Bytes
  /-- Digests have 32 bytes. -/
  length_digest : ∀ b, (digest b).length = 32

attribute [simp] Blake2b256.length_digest

/-- A digest that can be evaluated: a polynomial in the bytes, at a base above every byte value.
Concrete logs are built with it. -/
def polynomialDigest : Blake2b256 where
  digest b := Bytes.ofNat 31 (b.foldl (fun acc byte => (acc * 257 + byte.toNat + 1) % 2 ^ 248) 0) ++ [1]
  length_digest b := by simp

/-- The error classes the store throws: a caller's `TypeError`, an error of the file system,
`BlindStoreBoundsError` and `BlindWalIntegrityError`. -/
inductive WalError where
  | type (message : String)
  | system (code : String)
  | bounds (message : String)
  | integrity (message : String)
  deriving DecidableEq

/-- `WAL_MAGIC`, the ASCII bytes of `HRWL`. -/
def walMagic : Bytes := [0x48, 0x52, 0x57, 0x4c]

def walVersion : UInt8 := 2

def walHeaderBytes : ℕ := 192

def walChecksumBytes : ℕ := 32

def walMinFrameBytes : ℕ := 224

def maxU64 : ℕ := 2 ^ 64 - 1

theorem one_inU64 : 0 < 1 ∧ 1 ≤ maxU64 := by decide

def zero32 : Bytes := List.replicate 32 0

/-- `WAL_CHECKSUM_DOMAIN`, the ASCII bytes of `hiverelay.blind.wal-frame-checksum.v1`. -/
def walChecksumDomain : Bytes :=
  "hiverelay.blind.wal-frame-checksum.v1".toList.map fun c => UInt8.ofNat c.toNat

/-- `WAL_HASH_DOMAIN`, the ASCII bytes of `hiverelay.blind.wal-frame-hash.v1`. -/
def walHashDomain : Bytes :=
  "hiverelay.blind.wal-frame-hash.v1".toList.map fun c => UInt8.ofNat c.toNat

def frameChecksum (H : Blake2b256) (prefixAndPayload : Bytes) : Bytes :=
  H.digest (walChecksumDomain ++ prefixAndPayload)

def frameHash (H : Blake2b256) (completeFrame : Bytes) : Bytes :=
  H.digest (walHashDomain ++ completeFrame)

@[simp] theorem length_frameChecksum (H : Blake2b256) (b : Bytes) :
    (frameChecksum H b).length = 32 := H.length_digest _

@[simp] theorem length_frameHash (H : Blake2b256) (b : Bytes) : (frameHash H b).length = 32 := H.length_digest _

/-! ### Encoding -/

/-- The argument of `encodeWalFrame`. -/
structure WalFrameValue where
  (type sequence : ℕ)
  transactionId : Bytes
  (virtualBucket mapGeneration : ℕ)
  (ownerFenceTokenHash durabilityContinuityHash previousWalHash payload : Bytes)
  deriving DecidableEq

/-- The 192 header bytes `encodeWalFrame` writes. -/
def walHeader (H : Blake2b256) (v : WalFrameValue) : Bytes :=
  walMagic ++ ([walVersion, UInt8.ofNat v.type] ++ (Bytes.ofNat 4 (walMinFrameBytes + v.payload.length) ++
    (Bytes.ofNat 8 v.sequence ++ (v.transactionId ++ (Bytes.ofNat 2 v.virtualBucket ++
      (Bytes.ofNat 8 v.mapGeneration ++ (v.ownerFenceTokenHash ++ (Bytes.ofNat 4 v.payload.length ++
        (v.previousWalHash ++ (v.durabilityContinuityHash ++ H.digest v.payload))))))))))

/-- The bytes of a complete frame: header, payload, checksum of both. -/
def frameBytes (H : Blake2b256) (v : WalFrameValue) : Bytes :=
  walHeader H v ++ (v.payload ++ frameChecksum H (walHeader H v ++ v.payload))

/-- What `encodeWalFrame` checks of its argument before it writes a byte. -/
structure WalFrameValue.Encodable (v : WalFrameValue) (maximumPayloadBytes : ℕ) : Prop where
  type : 1 ≤ v.type ∧ v.type ≤ 255
  sequence : 0 < v.sequence ∧ v.sequence ≤ maxU64
  transactionId : v.transactionId.length = 32 ∧ isZero v.transactionId = false
  virtualBucket : v.virtualBucket ≤ 0xffff
  mapGeneration : v.mapGeneration ≤ maxU64
  ownerFenceTokenHash : v.ownerFenceTokenHash.length = 32 ∧ isZero v.ownerFenceTokenHash = false
  durabilityContinuityHash : v.durabilityContinuityHash.length = 32 ∧ isZero v.durabilityContinuityHash = false
  previousWalHash : v.previousWalHash.length = 32
  payload : v.payload.length ≤ maximumPayloadBytes

/-- `encodeWalFrame`. The checks run in the order of the source, and the first that fails throws. -/
def encodeWalFrame (H : Blake2b256) (v : WalFrameValue) (maximumPayloadBytes : ℕ) :
    Except WalError Bytes := do
  require (1 ≤ v.type ∧ v.type ≤ 255) (.type "WAL frame type is outside 1..255")
  require (v.sequence ≤ maxU64) (.type "WAL sequence is outside u64")
  require (0 < v.sequence) (.type "WAL sequence must be nonzero")
  require (v.transactionId.length = 32) (.type "transactionId must be exactly 32 bytes")
  require (isZero v.transactionId = false) (.type "transactionId must be nonzero")
  require (v.virtualBucket ≤ 0xffff) (.type "virtualBucket is outside 0..65535")
  require (v.mapGeneration ≤ maxU64) (.type "mapGeneration is outside u64")
  require (v.ownerFenceTokenHash.length = 32) (.type "ownerFenceTokenHash must be exactly 32 bytes")
  require (isZero v.ownerFenceTokenHash = false) (.type "ownerFenceTokenHash must be nonzero")
  require (v.durabilityContinuityHash.length = 32) (.type "durabilityContinuityHash must be exactly 32 bytes")
  require (isZero v.durabilityContinuityHash = false) (.type "durabilityContinuityHash must be nonzero")
  require (v.previousWalHash.length = 32) (.type "previousWalHash must be exactly 32 bytes")
  require (v.payload.length ≤ maximumPayloadBytes) (.bounds s!"WAL payload exceeds {maximumPayloadBytes} bytes")
  return frameBytes H v

theorem encodeWalFrame_eq_ok {H : Blake2b256} {v : WalFrameValue} {m : ℕ} {b : Bytes} :
    encodeWalFrame H v m = .ok b ↔ v.Encodable m ∧ b = frameBytes H v := by
  simp only [encodeWalFrame, guards_eq_ok]
  constructor
  · rintro ⟨h1, h2, h3, h4, h5, h6, h7, h8, h9, h10, h11, h12, h13, rfl⟩
    exact ⟨⟨h1, ⟨h3, h2⟩, ⟨h4, h5⟩, h6, h7, ⟨h8, h9⟩, ⟨h10, h11⟩, h12, h13⟩, rfl⟩
  · rintro ⟨h, rfl⟩
    exact ⟨h.type, h.sequence.2, h.sequence.1, h.transactionId.1, h.transactionId.2,
      h.virtualBucket, h.mapGeneration, h.ownerFenceTokenHash.1, h.ownerFenceTokenHash.2,
      h.durabilityContinuityHash.1, h.durabilityContinuityHash.2, h.previousWalHash, h.payload,
      rfl⟩

/-! ### Header inspection and decoding -/

/-- The result of `inspectBlindWalFrameV2Header`. -/
structure WalHeader where
  (type totalLength payloadLength sequence : ℕ)
  transactionId : Bytes
  (virtualBucket mapGeneration : ℕ)
  (ownerFenceTokenHash previousWalHash durabilityContinuityHash payloadHash : Bytes)
  deriving DecidableEq

/-- The fields of a header, each read from its fixed offset. -/
def readHeader (header : Bytes) : WalHeader where
  type := toNat (header.window 5 1)
  totalLength := toNat (header.window 6 4)
  payloadLength := toNat (header.window 92 4)
  sequence := toNat (header.window 10 8)
  transactionId := header.window 18 32
  virtualBucket := toNat (header.window 50 2)
  mapGeneration := toNat (header.window 52 8)
  ownerFenceTokenHash := header.window 60 32
  previousWalHash := header.window 96 32
  durabilityContinuityHash := header.window 128 32
  payloadHash := header.window 160 32

/-- `inspectBlindWalFrameV2Header`, on the 192 header bytes. -/
def inspectHeader (header : Bytes) (maximumPayloadBytes : ℕ) : Except WalError WalHeader := do
  let h := readHeader header
  require (header.window 0 4 = walMagic) (.integrity "WAL frame magic mismatch")
  require (header.window 4 1 = [walVersion]) (.integrity "unknown WAL frame version")
  require (h.type ≠ 0) (.integrity "WAL frame type zero is forbidden")
  require (h.totalLength = walMinFrameBytes + h.payloadLength) (.integrity "WAL frame length fields disagree")
  require (h.payloadLength ≤ maximumPayloadBytes) (.integrity "WAL payload exceeds the configured recovery bound")
  require (h.sequence ≠ 0) (.integrity "WAL sequence zero is forbidden")
  require (isZero h.transactionId = false) (.integrity "WAL transaction ID must be nonzero")
  require (h.mapGeneration ≠ 0) (.integrity "WAL map generation must be nonzero")
  require (isZero h.ownerFenceTokenHash = false) (.integrity "WAL writer fence token hash must be nonzero")
  require (isZero h.durabilityContinuityHash = false) (.integrity "WAL durability continuity hash must be nonzero")
  return h

/-- A decoded frame, as `decodeBlindWalFrameV2` returns it. -/
structure WalFrame where
  (type sequence : ℕ)
  transactionId : Bytes
  (virtualBucket mapGeneration : ℕ)
  (ownerFenceTokenHash previousWalHash durabilityContinuityHash payload payloadHash walHash : Bytes)
  frameBytes : ℕ

/-- `decodeBlindWalFrameV2`. -/
def decodeFrame (H : Blake2b256) (frame : Bytes) (expectedSequence : ℕ)
    (expectedPreviousWalHash expectedDurabilityContinuityHash : Bytes)
    (maximumPayloadBytes : ℕ) : Except WalError WalFrame := do
  require (walMinFrameBytes ≤ frame.length) (.integrity "WAL frame is shorter than its fixed envelope")
  let header ← inspectHeader (frame.window 0 walHeaderBytes) maximumPayloadBytes
  require (header.totalLength = frame.length) (.integrity "WAL frame length fields disagree")
  require (header.sequence = expectedSequence) (.integrity "WAL sequence gap or fork")
  require (header.previousWalHash = expectedPreviousWalHash) (.integrity "WAL predecessor hash fork")
  require (header.durabilityContinuityHash = expectedDurabilityContinuityHash)
    (.integrity "WAL durability continuity binding mismatch")
  let payload := frame.window walHeaderBytes header.payloadLength
  require (H.digest payload = header.payloadHash) (.integrity "WAL payload hash mismatch")
  let checksumOffset := frame.length - walChecksumBytes
  require (frameChecksum H (frame.take checksumOffset) = frame.drop checksumOffset)
    (.integrity "WAL frame checksum mismatch")
  return {
    type := header.type
    sequence := header.sequence
    transactionId := header.transactionId
    virtualBucket := header.virtualBucket
    mapGeneration := header.mapGeneration
    ownerFenceTokenHash := header.ownerFenceTokenHash
    previousWalHash := header.previousWalHash
    durabilityContinuityHash := header.durabilityContinuityHash
    payload := payload
    payloadHash := header.payloadHash
    walHash := frameHash H frame
    frameBytes := frame.length }

theorem decodeFrame_eq_ok {H : Blake2b256} {frame : Bytes} {sequence m : ℕ}
    {previous continuity : Bytes} {decoded : WalFrame}
    (h : decodeFrame H frame sequence previous continuity m = .ok decoded) :
    decoded.sequence = sequence ∧ decoded.frameBytes = frame.length ∧
      ∃ header, inspectHeader (frame.window 0 walHeaderBytes) m = .ok header ∧
        header.totalLength = frame.length ∧ decoded.sequence = header.sequence ∧
        header.previousWalHash = previous := by
  simp only [decodeFrame, guards_eq_ok] at h
  obtain ⟨-, header, hheader, htotal, hseq, hprevious, -, -, -, rfl⟩ := h
  exact ⟨hseq, rfl, header, hheader, htotal, rfl, hprevious⟩

theorem walMinFrameBytes_le_of_inspectHeader {b : Bytes} {m : ℕ} {header : WalHeader}
    (h : inspectHeader b m = .ok header) : walMinFrameBytes ≤ header.totalLength := by
  simp only [inspectHeader, guards_eq_ok] at h
  obtain ⟨-, -, -, htotal, -, -, -, -, -, -, rfl⟩ := h
  rw [htotal]
  exact Nat.le_add_right _ _

/-! ### Reading back what was written -/

section RoundTrip

variable {H : Blake2b256} {v : WalFrameValue} {m : ℕ}

theorem WalFrameValue.Encodable.length_walHeader (h : v.Encodable m) : (walHeader H v).length = walHeaderBytes := by
  simp [walHeader, walMagic, walHeaderBytes, h.transactionId.1, h.ownerFenceTokenHash.1,
    h.previousWalHash, h.durabilityContinuityHash.1]

theorem WalFrameValue.Encodable.length_frameBytes (h : v.Encodable m) :
    (frameBytes H v).length = walMinFrameBytes + v.payload.length := by
  simp only [frameBytes, length_append, h.length_walHeader, length_frameChecksum,
    walHeaderBytes, walMinFrameBytes]
  omega

/-- The header record the fields of `v` make. -/
def WalFrameValue.header (H : Blake2b256) (v : WalFrameValue) : WalHeader where
  __ := v
  totalLength := walMinFrameBytes + v.payload.length
  payloadLength := v.payload.length
  payloadHash := H.digest v.payload

theorem readHeader_walHeader (h : v.Encodable m) (hm : walMinFrameBytes + m < 2 ^ 32) :
    readHeader (walHeader H v) = v.header H := by
  have htx := h.transactionId.1
  have hfence := h.ownerFenceTokenHash.1
  have hprev := h.previousWalHash
  have hcont := h.durabilityContinuityHash.1
  have hmagic : walMagic.length = 4 := rfl
  have htype : toNat [UInt8.ofNat v.type] = v.type := by
    have := h.type.2
    simp [Bytes.toNat]
    omega
  have hseq : toNat (Bytes.ofNat 8 v.sequence) = v.sequence :=
    toNat_ofNat (by have := h.sequence.2; simp only [maxU64] at this; omega)
  have hmap : toNat (Bytes.ofNat 8 v.mapGeneration) = v.mapGeneration :=
    toNat_ofNat (by have := h.mapGeneration; simp only [maxU64] at this; omega)
  have hbucket : toNat (Bytes.ofNat 2 v.virtualBucket) = v.virtualBucket :=
    toNat_ofNat (by have := h.virtualBucket; omega)
  have hlen : toNat (Bytes.ofNat 4 v.payload.length) = v.payload.length :=
    toNat_ofNat (by have := h.payload; omega)
  have htotal : toNat (Bytes.ofNat 4 (walMinFrameBytes + v.payload.length)) = walMinFrameBytes + v.payload.length :=
    toNat_ofNat (by have := h.payload; omega)
  rw [readHeader, walHeader,
    show [walVersion, UInt8.ofNat v.type] = [walVersion] ++ [UInt8.ofNat v.type] from rfl]
  simp (disch := simp [htx, hfence, hprev, hcont, hmagic]) only [append_assoc,
    window_append_right, window_append_left, window_all, hmagic, htx, hfence, hprev, hcont,
    length_ofNat, length_singleton, Nat.reduceSub, htype, hseq, hmap, hbucket, hlen, htotal]
  rfl

theorem inspectHeader_walHeader (h : v.Encodable m) (hm : walMinFrameBytes + m < 2 ^ 32)
    (hgen : v.mapGeneration ≠ 0) : inspectHeader (walHeader H v) m = .ok (v.header H) := by
  have hmagic : window (walHeader H v) 0 4 = walMagic := window_append_left _ rfl
  have hversion : window (walHeader H v) 4 1 = [walVersion] := by
    exact window_append_left (a := [walVersion]) _ rfl
  simp only [inspectHeader, guards_eq_ok, readHeader_walHeader h hm]
  exact ⟨hmagic, hversion, Nat.one_le_iff_ne_zero.mp h.type.1, rfl, h.payload,
    h.sequence.1.ne', h.transactionId.2, hgen, h.ownerFenceTokenHash.2,
    h.durabilityContinuityHash.2, trivial⟩

/-- The decoded frame the fields of `v` make. -/
def WalFrameValue.decoded (H : Blake2b256) (v : WalFrameValue) : WalFrame where
  __ := v
  payloadHash := H.digest v.payload
  walHash := frameHash H (frameBytes H v)
  frameBytes := walMinFrameBytes + v.payload.length

theorem decodeFrame_frameBytes (h : v.Encodable m) (hm : walMinFrameBytes + m < 2 ^ 32) (hgen : v.mapGeneration ≠ 0) :
    decodeFrame H (frameBytes H v) v.sequence v.previousWalHash v.durabilityContinuityHash m = .ok (v.decoded H) := by
  have hlen := h.length_frameBytes (H := H)
  have hheader : window (frameBytes H v) 0 walHeaderBytes = walHeader H v :=
    window_append_left _ h.length_walHeader
  have hpayload : window (frameBytes H v) walHeaderBytes v.payload.length = v.payload := by
    rw [frameBytes, window_append_right _ _ h.length_walHeader.le, h.length_walHeader, Nat.sub_self]
    exact window_append_left _ rfl
  have hsplit : frameBytes H v = (walHeader H v ++ v.payload) ++ frameChecksum H (walHeader H v ++ v.payload) := by
    rw [frameBytes, append_assoc]
  have hoff : (frameBytes H v).length - walChecksumBytes = (walHeader H v ++ v.payload).length := by
    rw [hlen, length_append, h.length_walHeader]
    simp only [walMinFrameBytes, walChecksumBytes, walHeaderBytes]
    omega
  have htake : (frameBytes H v).take ((frameBytes H v).length - walChecksumBytes) = walHeader H v ++ v.payload := by
    rw [hoff, hsplit, take_left]
  have hdrop : (frameBytes H v).drop ((frameBytes H v).length - walChecksumBytes) =
      frameChecksum H (walHeader H v ++ v.payload) := by
    rw [hoff, hsplit, drop_left]
  simp only [decodeFrame, guards_eq_ok]
  refine ⟨by rw [hlen]; exact Nat.le_add_right _ _, v.header H,
    by rw [hheader]; exact inspectHeader_walHeader h hm hgen, ?_⟩
  rw [htake, hdrop]
  refine ⟨hlen.symm, rfl, rfl, rfl, ?_, rfl, ?_⟩
  · rw [WalFrameValue.header, hpayload]
  · simp only [WalFrameValue.decoded, WalFrameValue.header, hpayload, hlen]

end RoundTrip

/-! ### The bindings of a store -/

/-- What the constructor of `BlindTransactionStore` pins for every frame it writes or accepts. The
fields carry the checks of the constructor, so a store with unusable bindings cannot be built. -/
structure StoreBindings where
  mapGeneration : ℕ
  (ownerFenceTokenHash durabilityContinuityHash : Bytes)
  maximumWalPayloadBytes : ℕ
  mapGeneration_range : 0 < mapGeneration ∧ mapGeneration ≤ maxU64
  ownerFenceTokenHash_nonzero : ownerFenceTokenHash.length = 32 ∧ isZero ownerFenceTokenHash = false
  durabilityContinuityHash_nonzero : durabilityContinuityHash.length = 32 ∧ isZero durabilityContinuityHash = false
  maximumWalPayloadBytes_range : 1024 ≤ maximumWalPayloadBytes ∧ maximumWalPayloadBytes ≤ 16 * 1024 * 1024

/-- Bindings to build concrete logs with. -/
def sampleBindings : StoreBindings where
  mapGeneration := 1
  ownerFenceTokenHash := List.replicate 32 1
  durabilityContinuityHash := List.replicate 32 2
  maximumWalPayloadBytes := 65536
  mapGeneration_range := one_inU64
  ownerFenceTokenHash_nonzero := by decide
  durabilityContinuityHash_nonzero := by decide
  maximumWalPayloadBytes_range := by decide

/-- The value a caller passes to `append` or `appendAndApply`. -/
structure AppendValue where
  type : ℕ
  transactionId : Bytes
  virtualBucket : ℕ
  payload : Bytes

/-- The frame value `#commitWalGroup` encodes for an appended value at a position of the chain. -/
def StoreBindings.frameValue (B : StoreBindings) (sequence : ℕ) (previousWalHash : Bytes)
    (value : AppendValue) : WalFrameValue where
  __ := value
  sequence := sequence
  mapGeneration := B.mapGeneration
  ownerFenceTokenHash := B.ownerFenceTokenHash
  durabilityContinuityHash := B.durabilityContinuityHash
  previousWalHash := previousWalHash

/-- The frame at a position of a concrete log. -/
def sampleFrame (sequence : ℕ) (previousWalHash : Bytes) : WalFrameValue :=
  sampleBindings.frameValue sequence previousWalHash
    { type := 1, transactionId := List.replicate 32 3, virtualBucket := 0, payload := [7] }

theorem StoreBindings.frame_fits (B : StoreBindings) : walMinFrameBytes + B.maximumWalPayloadBytes < 2 ^ 32 := by
  have := B.maximumWalPayloadBytes_range.2
  simp only [walMinFrameBytes]
  omega

end HiveRelay.Wal
