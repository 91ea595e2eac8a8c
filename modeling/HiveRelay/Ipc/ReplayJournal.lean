import HiveRelay.Lib.Bytes
import HiveRelay.Lib.Guard
import HiveRelay.Lib.OrderedMap

/-!
# The replay journal of private IPC

`private-ipc-replay-journal-v2.js` keeps the tuples that were consumed: a header, and frames of 160
bytes that consume a tuple or let it expire. Each frame has its sequence number, the hash of the one
before and a MAC. `recoverJournal` reads a file back; what is left of a frame at its end is cut off.

The hash and the MAC are parameters, of which the codec uses that their outputs have 32 bytes.
-/

namespace HiveRelay.Ipc

open List Bytes

/-! ### Constants -/

def ascii (text : String) : Bytes := text.toList.map fun c => UInt8.ofNat c.toNat

def headerMagic : Bytes := ascii "HRRPJ002"

def frameMagic : Bytes := ascii "HRR2"

def headerBytes : ℕ := 320

def frameBytes : ℕ := 160

def capacity : ℕ := 4096

def maximumRecords : ℕ := 8192

/-- `ACCEPTED_RECORD_MAXIMUM_TTL_MILLIS`. -/
def maximumTtlMillis : ℕ := 15000

/-- `RECOVERED_ENTRY_MINIMUM_RETENTION_MILLIS`. -/
def minimumRetentionMillis : ℕ := 15000

/-- `STARTUP_WRITE_QUARANTINE_MILLIS`. -/
def quarantineMillis : ℕ := 15000

def headerMacDomain : Bytes := ascii "hiverelay.blind.private-ipc-replay-journal-header-mac.v2"

def frameChecksumDomain : Bytes :=
  ascii "hiverelay.blind.private-ipc-replay-journal-frame-checksum.v2"

def frameMacDomain : Bytes := ascii "hiverelay.blind.private-ipc-replay-journal-frame-mac.v2"

def chainAnchorDomain : Bytes := ascii "hiverelay.blind.private-ipc-replay-journal-chain-anchor.v2"

def frameHashDomain : Bytes := ascii "hiverelay.blind.private-ipc-replay-journal-frame-hash.v2"

/-! ### Errors -/

inductive ErrorCode where
  | integrity | identityMismatch | clockUnsafe | quarantine | expired | replay | busy | unavailable
  | poisoned | aborted | typeError | reservationInvalid

structure Failure where
  code : ErrorCode
  message : String

/-! ### The codec -/

structure Crypto where
  blake2b256 : Bytes → Bytes
  hmacSha256 : Bytes → Bytes → Bytes
  length_blake2b256 : ∀ b, (blake2b256 b).length = 32
  length_hmacSha256 : ∀ key b, (hmacSha256 key b).length = 32

attribute [simp] Crypto.length_blake2b256 Crypto.length_hmacSha256

/-- What `exactIdentity` returns, and the keys of `deriveKeys`. -/
structure Launch where
  (launchTopologyHash relayPublicKey storeId durabilityContinuityHash durabilityProfileHash : Bytes)
  storeFormatHash : Bytes
  mapGeneration : ℕ
  (ownerFenceTokenHash headerKey recordKey : Bytes)
  lengths : launchTopologyHash.length = 32 ∧ relayPublicKey.length = 32 ∧ storeId.length = 32 ∧
    durabilityContinuityHash.length = 32 ∧ durabilityProfileHash.length = 32 ∧
    storeFormatHash.length = 32 ∧ ownerFenceTokenHash.length = 32
  mapGeneration_u64 : mapGeneration < 2 ^ 64

inductive FrameType where
  | consume | expire

def FrameType.byte : FrameType → UInt8
  | .consume => 1
  | .expire => 2

def FrameType.ofByte (b : UInt8) : Option FrameType :=
  if b = 1 then some .consume else if b = 2 then some .expire else none

structure Spec where
  type : FrameType
  replayTupleHash : Bytes
  ttlMillis : ℕ

/-- The times to live that a frame may have. -/
def TtlValid (type : FrameType) (ttlMillis : ℕ) : Prop :=
  match type with
  | .consume => 1 ≤ ttlMillis ∧ ttlMillis ≤ maximumTtlMillis
  | .expire => ttlMillis = 0

instance (type : FrameType) (ttlMillis : ℕ) : Decidable (TtlValid type ttlMillis) := by
  cases type <;> simp only [TtlValid] <;> infer_instance

def Spec.Valid (spec : Spec) : Prop :=
  TtlValid spec.type spec.ttlMillis ∧ spec.replayTupleHash.length = 32

section Codec

variable (C : Crypto) (L : Launch)

def hash (domain value : Bytes) : Bytes := C.blake2b256 (domain ++ value)

def hmac (key domain value : Bytes) : Bytes := C.hmacSha256 key (domain ++ value)

@[simp] theorem length_hash (domain value : Bytes) : (hash C domain value).length = 32 :=
  C.length_blake2b256 _

@[simp] theorem length_hmac (key domain value : Bytes) : (hmac C key domain value).length = 32 :=
  C.length_hmacSha256 _ _

/-- The fields of a header that its MAC is over. -/
def headerParts (generation : ℕ) : List Bytes :=
  [headerMagic, ofNat 2 2, ofNat 2 headerBytes, ofNat 2 frameBytes,
    ofNat 2 capacity, ofNat 4 maximumTtlMillis, ofNat 8 generation, ofNat 4 0,
    L.launchTopologyHash, L.relayPublicKey, L.storeId, L.durabilityContinuityHash,
    L.durabilityProfileHash, L.storeFormatHash, ofNat 8 L.mapGeneration, L.ownerFenceTokenHash,
    replicate 24 0]

def encodeHeader (generation : ℕ) : Bytes :=
  (headerParts L generation ++ [hmac C L.headerKey headerMacDomain (headerParts L generation).flatten]).flatten

/-- `decodeHeader`: the generation of a header. -/
def decodeHeader (header : Bytes) : Except Failure ℕ := do
  require (header.length = headerBytes) ⟨.typeError, "private IPC replay journal header"⟩
  require (header.window 0 8 = headerMagic ∧ header.window 8 2 = ofNat 2 2 ∧
      header.window 10 2 = ofNat 2 headerBytes ∧ header.window 12 2 = ofNat 2 frameBytes ∧
      header.window 14 2 = ofNat 2 capacity ∧
      header.window 16 4 = ofNat 4 maximumTtlMillis ∧ header.window 28 4 = ofNat 4 0 ∧
      (header.window 264 24).isZero)
    ⟨.integrity, "private IPC replay journal header has an unknown or non-canonical format"⟩
  let generation := toNat (header.window 20 8)
  require (generation ≠ 0) ⟨.integrity, "private IPC replay journal generation zero is forbidden"⟩
  let field (offset : ℕ) (expected : Bytes) (name : String) : Except Failure Unit :=
    require (header.window offset 32 = expected)
      ⟨.identityMismatch, "private IPC replay journal " ++ name ++ " does not match this launch"⟩
  field 32 L.launchTopologyHash "launchTopologyHash"
  field 64 L.relayPublicKey "relayPublicKey"
  field 96 L.storeId "storeId"
  field 128 L.durabilityContinuityHash "durabilityContinuityHash"
  field 160 L.durabilityProfileHash "durabilityProfileHash"
  field 192 L.storeFormatHash "storeFormatHash"
  require (toNat (header.window 224 8) = L.mapGeneration)
    ⟨.identityMismatch, "private IPC replay journal mapGeneration does not match this launch"⟩
  field 232 L.ownerFenceTokenHash "ownerFenceTokenHash"
  require (header.window 288 32 = hmac C L.headerKey headerMacDomain (header.take 288))
    ⟨.integrity, "private IPC replay journal header MAC is invalid"⟩
  pure generation

def chainAnchor (header : Bytes) : Bytes := hash C chainAnchorDomain header

def frameHash (frame : Bytes) : Bytes := hash C frameHashDomain frame

/-- The fields of a frame that its checksum is over. -/
def frameParts (spec : Spec) (sequence generation : ℕ) (previousFrameHash : Bytes) : List Bytes :=
  [frameMagic, [2], [spec.type.byte], ofNat 2 frameBytes, ofNat 8 sequence,
    ofNat 8 generation, spec.replayTupleHash, ofNat 4 spec.ttlMillis, ofNat 4 0,
    previousFrameHash]

/-- `encodeFrame`, of a frame that can be written. -/
def encodeFrame (header : Bytes) (spec : Spec) (sequence generation : ℕ) (previousFrameHash : Bytes) : Bytes :=
  let parts := frameParts spec sequence generation previousFrameHash
  let checked := parts ++ [hash C frameChecksumDomain parts.flatten]
  (checked ++ [hmac C L.recordKey frameMacDomain (chainAnchor C header ++ checked.flatten)]).flatten

/-- What `decodeFrame` returns. -/
structure Frame where
  type : FrameType
  replayTupleHash : Bytes
  ttlMillis : ℕ
  hash : Bytes

def decodeFrame (frame : Bytes) (sequence generation : ℕ) (previousFrameHash header : Bytes) :
    Except Failure Frame := do
  require (frame.length = frameBytes) ⟨.typeError, "private IPC replay journal frame"⟩
  require (frame.window 0 4 = frameMagic ∧ frame.window 4 1 = [2] ∧
      frame.window 6 2 = ofNat 2 frameBytes ∧ frame.window 60 4 = ofNat 4 0)
    ⟨.integrity, "private IPC replay journal frame has an unknown or non-canonical format"⟩
  let type ← demand ((frame.window 5 1).head?.bind FrameType.ofByte)
    ⟨.integrity, "private IPC replay journal frame type is unknown"⟩
  require (toNat (frame.window 8 8) = sequence ∧
      toNat (frame.window 16 8) = generation ∧ frame.window 64 32 = previousFrameHash)
    ⟨.integrity, "private IPC replay journal sequence, generation, or hash chain is invalid"⟩
  require (frame.window 96 32 = hash C frameChecksumDomain (frame.take 96) ∧ frame.window 128 32 =
        hmac C L.recordKey frameMacDomain (chainAnchor C header ++ frame.take 128))
    ⟨.integrity, "private IPC replay journal frame checksum or MAC is invalid"⟩
  let ttlMillis := toNat (frame.window 56 4)
  require (TtlValid type ttlMillis) ⟨.integrity, "private IPC replay journal frame TTL is invalid"⟩
  pure ⟨type, frame.window 24 32, ttlMillis, frameHash C frame⟩

end Codec

/-! ### What is written is read back -/

variable {previous : Bytes} {sequence : ℕ}

section RoundTrip

variable {C : Crypto} {L : Launch}

theorem length_headerParts (generation : ℕ) : (headerParts L generation).flatten.length = 288 := by
  obtain ⟨h1, h2, h3, h4, h5, h6, h7⟩ := L.lengths
  simp [headerParts, headerMagic, ascii, h1, h2, h3, h4, h5, h6, h7]

theorem length_encodeHeader (generation : ℕ) : (encodeHeader C L generation).length = headerBytes := by
  rw [encodeHeader, flatten_append, length_append, length_headerParts]
  simp [headerBytes]

variable {generation : ℕ}

theorem decodeHeader_encodeHeader (hpos : generation ≠ 0) (hu64 : generation < 2 ^ 64) :
    decodeHeader C L (encodeHeader C L generation) = .ok generation := by
  obtain ⟨h1, h2, h3, h4, h5, h6, h7⟩ := L.lengths
  have hmagic : headerMagic.length = 8 := rfl
  have htake : (encodeHeader C L generation).take 288 = (headerParts L generation).flatten := by
    rw [encodeHeader, flatten_append, ← @length_headerParts L generation, take_left]
  have hreads : Reads (encodeHeader C L generation) 0 _ := reads_flatten _
  simp only [headerParts, cons_append, nil_append, Reads, hmagic, length_ofNat, h1, h2, h3, h4, h5, h6, h7,
    length_replicate, length_hmac, Nat.reduceAdd] at hreads
  obtain ⟨r0, r8, r10, r12, r14, r16, r20, r28, r32, r64, r96, r128, r160, r192, r224, r232, r264, r288, -⟩ := hreads
  have hmap := L.mapGeneration_u64
  simp only [decodeHeader, guards_eq_ok, r20, r224, r264, htake, toNat_ofNat (show generation < 256 ^ 8 by omega),
    toNat_ofNat (show L.mapGeneration < 256 ^ 8 by omega)]
  exact ⟨length_encodeHeader generation, ⟨r0, r8, r10, r12, r14, r16, r28, by decide⟩, hpos, r32, r64, r96, r128, r160,
    r192, trivial, r232, r288, trivial⟩

theorem FrameType.ofByte_byte (type : FrameType) : FrameType.ofByte type.byte = some type := by
  cases type <;> rfl

variable {spec : Spec}

theorem length_frameParts (hspec : spec.Valid) (hprevious : previous.length = 32) (sequence generation : ℕ) :
    (frameParts spec sequence generation previous).flatten.length = 96 := by
  have hmagic : frameMagic.length = 4 := rfl
  simp [frameParts, hmagic, hspec.2, hprevious]

theorem length_encodeFrame {header : Bytes} (hspec : spec.Valid)
    (hprevious : previous.length = 32) (sequence generation : ℕ) :
    (encodeFrame C L header spec sequence generation previous).length = frameBytes := by
  simp only [encodeFrame, flatten_append, length_append, length_frameParts hspec hprevious]
  simp [frameBytes]

/-- **A frame is read back** in its place of the chain. -/
theorem decodeFrame_encodeFrame {header : Bytes}
    (hspec : spec.Valid) (hprevious : previous.length = 32) (hsequence : sequence < 2 ^ 64)
    (hgeneration : generation < 2 ^ 64) :
    decodeFrame C L (encodeFrame C L header spec sequence generation previous) sequence generation previous header =
      .ok ⟨spec.type, spec.replayTupleHash, spec.ttlMillis,
        frameHash C (encodeFrame C L header spec sequence generation previous)⟩ := by
  set frame := encodeFrame C L header spec sequence generation previous with hframe
  have hmagic : frameMagic.length = 4 := rfl
  have htuple : spec.replayTupleHash.length = 32 := hspec.2
  have hparts := length_frameParts hspec hprevious sequence generation
  have htake : frame.take 96 = (frameParts spec sequence generation previous).flatten := by
    rw [hframe, encodeFrame, append_assoc, flatten_append, ← hparts, take_left]
  set checked := frameParts spec sequence generation previous ++
    [hash C frameChecksumDomain (frameParts spec sequence generation previous).flatten] with hchecked
  have hcheckedLength : checked.flatten.length = 128 := by
    rw [hchecked, flatten_append, length_append, hparts]
    simp
  have htake' : frame.take 128 = checked.flatten := by
    rw [hframe, encodeFrame, flatten_append, ← hcheckedLength, take_left]
  have hreads : Reads frame 0 _ := reads_flatten _
  simp only [frameParts, cons_append, nil_append, Reads, hmagic, length_ofNat, length_singleton, htuple, hprevious,
    length_hash, length_hmac, Nat.reduceAdd] at hreads
  obtain ⟨r0, r4, r5, r6, r8, r16, r24, r56, r60, r64, r96, r128, -⟩ := hreads
  have hbound : spec.ttlMillis < 256 ^ 4 := by
    have := hspec.1
    unfold TtlValid at this
    split at this
    · have h := this.2
      unfold maximumTtlMillis at h
      omega
    · rw [this]
      decide
  simp only [decodeFrame, guards_eq_ok, htake, htake', r5, r8, r16, r24, r56,
    toNat_ofNat (show sequence < 256 ^ 8 by omega), toNat_ofNat (show generation < 256 ^ 8 by omega),
    toNat_ofNat hbound]
  exact ⟨length_encodeFrame hspec hprevious sequence generation, ⟨r0, r4, r6, r60⟩, spec.type,
    FrameType.ofByte_byte spec.type, ⟨trivial, trivial, r64⟩, ⟨r96, r128⟩, hspec.1, rfl⟩

end RoundTrip

/-! ### Recovery -/

structure RecoveredEntry where
  (generation sequence : ℕ)

/-- What a frame does to the tuples that are live. -/
def replayOne (generation : ℕ) (live : OrderedMap Bytes RecoveredEntry) (sequence : ℕ)
    (type : FrameType) (tuple : Bytes) : Except Failure (OrderedMap Bytes RecoveredEntry) :=
  match type with
  | .consume => do
    require (live.has tuple = false ∧ live.size < capacity)
      ⟨.integrity, "private IPC replay journal recovered a duplicate or over-capacity consume"⟩
    pure (live.set tuple ⟨generation, sequence⟩)
  | .expire => do
    require (live.has tuple = true)
      ⟨.integrity, "private IPC replay journal recovered an expire without a live consume"⟩
    pure (live.delete tuple)

/-- What a run of frames leaves, after `sequence` frames. -/
def replaySpecs (generation : ℕ) :
    OrderedMap Bytes RecoveredEntry → ℕ → List Spec → Except Failure (OrderedMap Bytes RecoveredEntry)
  | live, _, [] => pure live
  | live, sequence, spec :: specs => do
    let live' ← replayOne generation live (sequence + 1) spec.type spec.replayTupleHash
    replaySpecs generation live' (sequence + 1) specs

section Recovery

variable (C : Crypto) (L : Launch)

/-- The loop of `recoverJournal` over the complete frames of a file. -/
def recoverLoop (content header : Bytes) (generation : ℕ) : ℕ → ℕ → OrderedMap Bytes RecoveredEntry → Bytes →
      Except Failure (OrderedMap Bytes RecoveredEntry × Bytes)
  | 0, _, live, previousFrameHash => pure (live, previousFrameHash)
  | count + 1, index, live, previousFrameHash => do
    let frame ← decodeFrame C L (content.window (headerBytes + index * frameBytes) frameBytes)
      (index + 1) generation previousFrameHash header
    let live' ← replayOne generation live (index + 1) frame.type frame.replayTupleHash
    recoverLoop content header generation count (index + 1) live' frame.hash

/-- What `recoverJournal` leaves in the state; the file is cut to `offset` bytes. -/
structure Recovery where
  header : Bytes
  (generation sequence : ℕ)
  previousFrameHash : Bytes
  (offset recordCount : ℕ)
  recovered : OrderedMap Bytes RecoveredEntry

def recoverJournal (content : Bytes) : Except Failure Recovery := do
  require (headerBytes ≤ content.length)
    ⟨.integrity, "private IPC replay journal is shorter than its complete header"⟩
  require (content.length ≤ headerBytes + maximumRecords * frameBytes + frameBytes - 1)
    ⟨.integrity, "private IPC replay journal exceeds its bounded on-disk record limit"⟩
  let header : Bytes := content.take headerBytes
  let generation ← decodeHeader C L header
  let completeFrames := (content.length - headerBytes) / frameBytes
  require (completeFrames ≤ maximumRecords)
    ⟨.integrity, "private IPC replay journal contains too many complete records"⟩
  let result ← recoverLoop C L content header generation completeFrames 0 .empty (chainAnchor C header)
  pure
    { header := header
      generation := generation
      sequence := completeFrames
      previousFrameHash := result.2
      offset := headerBytes + completeFrames * frameBytes
      recordCount := completeFrames
      recovered := result.1 }

/-- The frames of a run of them, as `appendFrameSpecs` and `compactJournal` encode it. -/
def encodeChain (header : Bytes) (generation : ℕ) : ℕ → Bytes → List Spec → List Bytes
  | _, _, [] => []
  | sequence, previousFrameHash, spec :: specs =>
    let frame := encodeFrame C L header spec (sequence + 1) generation previousFrameHash
    frame :: encodeChain header generation (sequence + 1) (frameHash C frame) specs

/-- The hash of the last frame of a run. -/
def chainEnd (header : Bytes) (generation : ℕ) : ℕ → Bytes → List Spec → Bytes
  | _, previousFrameHash, [] => previousFrameHash
  | sequence, previousFrameHash, spec :: specs =>
    let frame := encodeFrame C L header spec (sequence + 1) generation previousFrameHash
    chainEnd header generation (sequence + 1) (frameHash C frame) specs

def journalBytes (generation : ℕ) (specs : List Spec) : Bytes :=
  encodeHeader C L generation ++ (encodeChain C L (encodeHeader C L generation) generation 0
      (chainAnchor C (encodeHeader C L generation)) specs).flatten

end Recovery

section Recovered

variable {C : Crypto} {L : Launch} {header : Bytes} {generation : ℕ}

theorem length_chainAnchor (header : Bytes) : (chainAnchor C header).length = 32 := by
  simp [chainAnchor]

theorem length_frameHash (frame : Bytes) : (frameHash C frame).length = 32 := by
  simp [frameHash]

variable {specs : List Spec}

theorem encodeChain_append {more : List Spec} : encodeChain C L header generation sequence previous (specs ++ more) =
      encodeChain C L header generation sequence previous specs ++
        encodeChain C L header generation (sequence + specs.length)
          (chainEnd C L header generation sequence previous specs) more := by
  induction specs generalizing sequence previous with
  | nil => rfl
  | cons spec specs ih =>
    rw [cons_append, encodeChain, encodeChain, ih, length_cons, chainEnd,
      cons_append, Nat.add_right_comm, Nat.add_assoc]

theorem chainEnd_append {more : List Spec} : chainEnd C L header generation sequence previous (specs ++ more) =
      chainEnd C L header generation (sequence + specs.length)
        (chainEnd C L header generation sequence previous specs) more := by
  induction specs generalizing sequence previous with
  | nil => rfl
  | cons spec specs ih =>
    rw [cons_append, chainEnd, ih, length_cons, chainEnd, Nat.add_right_comm, Nat.add_assoc]

theorem length_encodeChain : (encodeChain C L header generation sequence previous specs).length = specs.length := by
  induction specs generalizing sequence previous with
  | nil => rfl
  | cons spec specs ih => rw [encodeChain, length_cons, ih, length_cons]

theorem length_of_mem_encodeChain
    (hspecs : ∀ spec ∈ specs, spec.Valid) (hprevious : previous.length = 32) {frame : Bytes}
    (h : frame ∈ encodeChain C L header generation sequence previous specs) :
    frame.length = frameBytes := by
  induction specs generalizing sequence previous with
  | nil => exact absurd h not_mem_nil
  | cons spec specs ih =>
    rcases mem_cons.mp h with rfl | h
    · exact length_encodeFrame (hspecs spec mem_cons_self) hprevious _ _
    · exact ih (fun s hs => hspecs s (mem_cons_of_mem _ hs)) (length_frameHash _) h

theorem length_flatten_encodeChain (hspecs : ∀ spec ∈ specs, spec.Valid) (hprevious : previous.length = 32) :
    (encodeChain C L header generation sequence previous specs).flatten.length = specs.length * frameBytes := by
  induction specs generalizing sequence previous with
  | nil => rw [encodeChain, flatten_nil, length_nil, length_nil, Nat.zero_mul]
  | cons spec specs ih =>
    rw [encodeChain, flatten_cons, length_append,
      length_encodeFrame (hspecs spec mem_cons_self) hprevious,
      ih (fun s hs => hspecs s (mem_cons_of_mem _ hs)) (length_frameHash _), length_cons,
      Nat.add_mul, Nat.one_mul, Nat.add_comm]

theorem length_journalBytes {specs : List Spec} (hspecs : ∀ spec ∈ specs, spec.Valid) :
    (journalBytes C L generation specs).length = headerBytes + specs.length * frameBytes := by
  rw [journalBytes, length_append, length_encodeHeader, length_flatten_encodeChain hspecs (length_chainAnchor _)]

theorem recoverLoop_encodeChain {content : Bytes} {index : ℕ} {live : OrderedMap Bytes RecoveredEntry}
    (hspecs : ∀ spec ∈ specs, spec.Valid) (hprevious : previous.length = 32)
    (hindex : index + specs.length < 2 ^ 64) (hgeneration : generation < 2 ^ 64)
    (hcontent : ∀ i frame, (encodeChain C L header generation index previous specs)[i]? = some frame →
      window content (headerBytes + (index + i) * frameBytes) frameBytes = frame) :
    recoverLoop C L content header generation specs.length index live previous =
      (replaySpecs generation live index specs).map fun live' =>
        (live', chainEnd C L header generation index previous specs) := by
  induction specs generalizing index previous live with
  | nil => rfl
  | cons spec specs ih =>
    rw [length_cons] at hindex
    have hframe := hcontent 0 _ rfl
    rw [Nat.add_zero] at hframe
    rw [length_cons, recoverLoop, replaySpecs, chainEnd, hframe,
      decodeFrame_encodeFrame (hspecs spec mem_cons_self) hprevious (by omega) hgeneration]
    simp only [Except.ok_bind]
    cases replayOne generation live (index + 1) spec.type spec.replayTupleHash with
    | error e => rfl
    | ok live' =>
      refine ih (fun s hs => hspecs s (mem_cons_of_mem _ hs)) (length_frameHash _) (by omega)
        fun i frame hi => ?_
      have := hcontent (i + 1) frame hi
      rwa [show index + (i + 1) = index + 1 + i by omega] at this

theorem window_flatten_chunk {chunks : List Bytes} {size i : ℕ} {chunk : Bytes}
    (hsize : ∀ c ∈ chunks, c.length = size) (h : chunks[i]? = some chunk) :
    Bytes.window chunks.flatten (i * size) size = chunk := by
  refine window_flatten h ?_ (hsize chunk (mem_of_getElem? h))
  have hi := (List.getElem?_eq_some_iff.mp h).1
  have hall : ∀ l : List Bytes, (∀ c ∈ l, c.length = size) → l.flatten.length = l.length * size := by
    intro l hl
    induction l with
    | nil => simp
    | cons c l ih =>
      rw [flatten_cons, length_append, hl c mem_cons_self,
        ih fun c' hc' => hl c' (mem_cons_of_mem _ hc'), length_cons, Nat.add_mul]
      omega
  rw [hall _ fun c hc => hsize c (mem_of_mem_take hc), length_take, min_eq_left hi.le]

/-- The frames of a run that fit in a prefix of the journal. -/
def wholeFrames (n : ℕ) : ℕ := (n - headerBytes) / frameBytes

/-- **A journal that is cut off** anywhere past its header is read back to the frames that are left
whole. -/
theorem recoverJournal_cut {specs : List Spec} {n : ℕ} {live : OrderedMap Bytes RecoveredEntry}
    (hgeneration : generation ≠ 0 ∧ generation < 2 ^ 64) (hspecs : ∀ spec ∈ specs, spec.Valid)
    (hcount : specs.length ≤ maximumRecords) (hn : headerBytes ≤ n)
    (hle : n ≤ headerBytes + specs.length * frameBytes)
    (hlive : replaySpecs generation .empty 0 (specs.take (wholeFrames n)) = .ok live) :
    recoverJournal C L ((journalBytes C L generation specs).take n) =
      .ok { header := encodeHeader C L generation
            generation := generation
            sequence := wholeFrames n
            previousFrameHash := chainEnd C L (encodeHeader C L generation) generation 0
              (chainAnchor C (encodeHeader C L generation)) (specs.take (wholeFrames n))
            offset := headerBytes + wholeFrames n * frameBytes
            recordCount := wholeFrames n
            recovered := live } := by
  set header := encodeHeader C L generation with hheader
  have hlength : ((journalBytes C L generation specs).take n).length = n := by
    rw [length_take, length_journalBytes hspecs, min_eq_left hle]
  have hwhole : wholeFrames n ≤ specs.length := by
    refine Nat.div_le_of_le_mul ?_
    rw [Nat.mul_comm]
    omega
  have hfits : wholeFrames n * frameBytes ≤ n - headerBytes := Nat.div_mul_le_self _ _
  have hhead : ((journalBytes C L generation specs).take n).take headerBytes = header := by
    rw [take_take, min_eq_left hn, journalBytes, ← hheader,
      ← @length_encodeHeader C L generation, take_left]
  have htakeLength : (specs.take (wholeFrames n)).length = wholeFrames n := by
    rw [length_take, min_eq_left hwhole]
  have hcontent : ∀ i frame, (encodeChain C L header generation 0 (chainAnchor C header)
      (specs.take (wholeFrames n)))[i]? = some frame →
      window ((journalBytes C L generation specs).take n)
        (headerBytes + (0 + i) * frameBytes) frameBytes = frame := by
    intro i frame hi
    have hi' : i < wholeFrames n := by
      have := (List.getElem?_eq_some_iff.mp hi).1
      rwa [length_encodeChain, htakeLength] at this
    have hget : (encodeChain C L header generation 0 (chainAnchor C header) specs)[i]? =
        some frame := by
      rw [← take_append_drop (wholeFrames n) specs, encodeChain_append,
        getElem?_append_left (by rw [length_encodeChain, htakeLength]; exact hi'), hi]
    have hend : (i + 1) * frameBytes ≤ wholeFrames n * frameBytes := Nat.mul_le_mul_right _ hi'
    rw [Nat.add_mul, Nat.one_mul] at hend
    rw [Nat.zero_add, window_take _ (by omega), journalBytes, ← hheader,
      window_append_right _ _ (by rw [hheader, length_encodeHeader]; omega), hheader,
      length_encodeHeader, Nat.add_sub_cancel_left]
    exact window_flatten_chunk (fun c hc => length_of_mem_encodeChain hspecs (length_chainAnchor _) hc) hget
  have hloop : recoverLoop C L ((journalBytes C L generation specs).take n) header generation
      (specs.take (wholeFrames n)).length 0 .empty (chainAnchor C header) = _ :=
    recoverLoop_encodeChain (fun s hs => hspecs s (mem_of_mem_take hs)) (length_chainAnchor _)
      (by unfold maximumRecords at hcount; omega) hgeneration.2 hcontent
  rw [htakeLength, hlive] at hloop
  simp only [recoverJournal, guards_eq_ok, hlength, hhead, hheader,
    decodeHeader_encodeHeader hgeneration.1 hgeneration.2]
  refine ⟨hn, ?_, generation, rfl, ?_, _, hloop, rfl⟩
  · have hpos : 1 ≤ frameBytes := by decide
    have := Nat.mul_le_mul_right frameBytes hcount
    omega
  · exact hwhole.trans hcount

end Recovered

end HiveRelay.Ipc
