import HiveRelay.Lib.Bytes
import HiveRelay.Lib.Guard
import Mathlib.Data.Int.Order.Basic
import Mathlib.Order.Lattice.Nat

/-!
# Dispatch frames and their outer envelope

`dispatch.js` and `outer-envelope.js` of `packages/blind-protocol`. A frame has a header of fixed layout with
two lengths, then the body; an envelope is a version, a class, the length of the frame, the frame, and padding
up to the size of the class. The encoder and the decoder make the same tests on the numbers of a frame, so
each accepts what the other makes. The table of operation profiles is a parameter.

## Main definitions

* `Accepted` — the tests of a frame

## Main results

* `decodeDispatchFrame_eq_ok` — what is accepted
* `dispatch_framing` — both directions, with the envelope
-/

namespace HiveRelay.Dispatch

open List Option
open Bytes

/-- The value of a field. `fraction` is a number that is no integer. -/
inductive Value where
  | nullish
  | number (v : ℤ)
  | fraction
  | bigint (v : ℤ)
  | bytes (b : Bytes)
  | other
  deriving DecidableEq

/-- `value == null ? other : value`. -/
def Value.orElse (value default : Value) : Value := if value = .nullish then default else value

def Value.u8? : Value → Option ℕ
  | .number v => if 1 ≤ v ∧ v ≤ 255 then some v.toNat else none
  | _ => none

/-- `BlindProtocolError`. -/
structure ProtocolError where
  (code message : String)

def badEncoding (message : String) : ProtocolError := ⟨"BAD_ENCODING", message⟩

def tooLarge (message : String) : ProtocolError := ⟨"TOO_LARGE", message⟩

def asBuffer (value : Value) (field : String) : Except ProtocolError Bytes :=
  match value with
  | .bytes b => .ok b
  | _ => .error (badEncoding (field ++ " must be bytes"))

def asU64 (value : Value) (field : String) : Except ProtocolError ℕ :=
  let unsafeNumber := badEncoding (field ++ " must be an unsigned safe integer or bigint")
  let outside := badEncoding (field ++ " is outside u64")
  match value with
  | .number v => do
    require (0 ≤ v ∧ v < 2 ^ 53) unsafeNumber
    return v.toNat
  | .fraction => .error unsafeNumber
  | .bigint v => do
    require (0 ≤ v ∧ v < 2 ^ 64) outside
    return v.toNat
  | _ => .error outside

/-! ### Frames -/

def prefixBytes : ℕ := 4
def headerBytes : ℕ := 41
def requestIdBytes : ℕ := 16
def maxBodyBytes : ℕ := 4194304
def maxFrameAfterPrefixBytes : ℕ := 4194368

/-- The fields of a row of the profile table that are read here. -/
structure Profile where
  (allowedRequestKindBits allowedResultKindBits maxRequestBodyBytes maxResultBodyBytes : ℕ)

/-- The bits that allow a kind: `REQUEST` is 1, `RESPONSE` 2, `ERROR` 3, `STREAM` 4. -/
def Profile.allowedBits (p : Profile) : ℕ → ℕ
  | 1 => p.allowedRequestKindBits
  | 4 => p.allowedRequestKindBits ||| p.allowedResultKindBits
  | _ => p.allowedResultKindBits

def Profile.cap (p : Profile) : ℕ → ℕ
  | 1 => p.maxRequestBodyBytes
  | 4 => max p.maxRequestBodyBytes p.maxResultBodyBytes
  | _ => p.maxResultBodyBytes

/-- `FORWARD.OPEN`, `CORE.OPEN_REPLICATION`. -/
def isStreamingOpen (familyId operationId : ℕ) : Bool :=
  (familyId, operationId) ∈ [(5, 1), (4, 3)]

/-- `FORWARD.DATA`, `FORWARD.WINDOW`, `FORWARD.CLOSE`. -/
def isStreamOperation (familyId operationId : ℕ) : Bool :=
  (familyId, operationId) ∈ [(5, 2), (5, 3), (5, 4)]

/-- A frame as it is given, or as it is returned. -/
structure Frame where
  (version frameKind familyId operationId flags requestId streamId sequence body : Value)

/-- The numbers and the request id of a frame that passes. -/
structure Normalized where
  (frameKind familyId operationId : ℕ)
  requestId : Bytes
  (streamId sequence : ℕ)

/-- The rules on the correlation fields, which are different for each kind. -/
def Normalized.correlate (n : Normalized) : Except ProtocolError Unit :=
  let zero := n.requestId.isZero
  let streamOperation := isStreamOperation n.familyId n.operationId
  match n.frameKind with
  | 1 => require (zero = false ∧ n.streamId = 0 ∧ n.sequence = 0)
      (badEncoding "request frame correlation fields are invalid")
  | 2 => do
    require (zero = false ∧ n.sequence = 0) (badEncoding "response frame correlation fields are invalid")
    require (isStreamingOpen n.familyId n.operationId = true ↔ n.streamId ≠ 0)
      (badEncoding "response streamId does not match the operation")
  | 3 => require ((zero = false ∧ n.streamId = 0 ∧ n.sequence = 0) ∨
      (zero = true ∧ n.streamId ≠ 0 ∧ streamOperation = true))
      (badEncoding "error correlation fields are invalid")
  | _ => require (zero = true ∧ n.streamId ≠ 0 ∧ streamOperation = true)
      (badEncoding "stream frame correlation fields are invalid")

variable (operationProfile : ℕ → ℕ → Option Profile)

/-- `validateFrameShape`. An operation is known when it has a profile. -/
def validateFrameShape (frame : Frame) : Except ProtocolError Normalized := do
  require (frame.version = .number 1) ⟨"BAD_VERSION", "dispatch version must be 1"⟩
  let frameKind ← demand (frame.frameKind.u8?.filter (· ≤ 4)) (badEncoding "unknown frame kind")
  let familyId ← demand frame.familyId.u8? (badEncoding "familyId must be a nonzero u8")
  let operationId ← demand frame.operationId.u8? (badEncoding "operationId must be a nonzero u8")
  let profile ← demand (operationProfile familyId operationId) (badEncoding "unknown family/operation pair")
  require (profile.allowedBits frameKind &&& 1 <<< (frameKind - 1) ≠ 0)
    (badEncoding "frame kind is not allowed for the operation")
  require (frame.flags = .number 0) (badEncoding "dispatch flags are reserved")
  let requestId ← asBuffer frame.requestId "requestId"
  require (requestId.length = requestIdBytes) (badEncoding "requestId must be exactly 16 bytes")
  let streamId ← asU64 frame.streamId "streamId"
  let sequence ← asU64 frame.sequence "sequence"
  let normalized : Normalized := ⟨frameKind, familyId, operationId, requestId, streamId, sequence⟩
  normalized.correlate
  return normalized

def validateOperationBodyCap (n : Normalized) (bodyLength : ℕ) : Except ProtocolError Unit :=
  match operationProfile n.familyId n.operationId with
  | none => .ok ()
  | some profile => require (bodyLength ≤ profile.cap n.frameKind) (tooLarge "dispatch body exceeds the operation cap")

def Normalized.header (n : Normalized) (bodyLength : ℕ) : List Bytes :=
  [ofNat 4 (headerBytes + bodyLength), ofNat 1 1, ofNat 1 n.frameKind, ofNat 1 n.familyId,
    ofNat 1 n.operationId, ofNat 1 0, n.requestId, ofNat 8 n.streamId, ofNat 8 n.sequence,
    ofNat 4 bodyLength]

def encodeDispatchFrame (input : Option Frame) : Except ProtocolError Bytes := do
  let input ← demand input (badEncoding "dispatch frame must be an object")
  let body ← asBuffer (input.body.orElse (.bytes [])) "body"
  require (body.length ≤ maxBodyBytes) (tooLarge "dispatch body exceeds the absolute cap")
  let normalized ← validateFrameShape operationProfile
    { input with
      version := input.version.orElse (.number 1)
      flags := input.flags.orElse (.number 0)
      streamId := input.streamId.orElse (.bigint 0)
      sequence := input.sequence.orElse (.bigint 0) }
  validateOperationBodyCap operationProfile normalized body.length
  require (headerBytes + body.length ≤ maxFrameAfterPrefixBytes) (tooLarge "dispatch frame exceeds the absolute cap")
  return (normalized.header body.length).flatten ++ body

def readDispatchLengthPrefix (input : Bytes) : Except ProtocolError ℕ := do
  require (prefixBytes ≤ input.length) (badEncoding "truncated dispatch length prefix")
  let frameLength := toNat (window input 0 4)
  require (headerBytes ≤ frameLength) (badEncoding "declared dispatch frame is shorter than its header")
  require (frameLength ≤ maxFrameAfterPrefixBytes) (tooLarge "declared dispatch frame exceeds the absolute cap")
  return frameLength

def decodeDispatchFrame (input : Bytes) : Except ProtocolError Frame := do
  require (prefixBytes ≤ input.length) (badEncoding "truncated dispatch frame")
  let frameLength ← readDispatchLengthPrefix input
  require (input.length = prefixBytes + frameLength) (badEncoding "dispatch frame length mismatch or trailing bytes")
  let bodyLength := toNat (window input 41 4)
  require (bodyLength ≤ maxBodyBytes) (tooLarge "dispatch body exceeds the absolute cap")
  require (frameLength = headerBytes + bodyLength) (badEncoding "dispatch body length mismatch")
  let byte offset : Value := .number (toNat (window input offset 1))
  let frame : Frame := ⟨byte 4, byte 5, byte 6, byte 7, byte 8, .bytes (window input 9 16),
    .bigint (toNat (window input 25 8)), .bigint (toNat (window input 33 8)), .bytes (input.drop 45)⟩
  let normalized ← validateFrameShape operationProfile frame
  validateOperationBodyCap operationProfile normalized bodyLength
  return frame

/-! ### Envelopes -/

def outerEnvelopeHeaderBytes : ℕ := 6

/-- `OUTER_CLASS`. -/
def outerClasses : List (ℕ × ℕ) :=
  [(1, 4096), (2, 16384), (3, 65536), (4, 262144), (5, 1048576), (6, 8388608)]

/-- `smallestOuterClass`, of an integer. -/
def smallestOuterClass (innerLength : ℤ) : Except ProtocolError ℕ := do
  require (0 ≤ innerLength ∧ innerLength < 2 ^ 53) (badEncoding "innerLength must be a non-negative safe integer")
  let entry ← demand (outerClasses.find? fun entry => outerEnvelopeHeaderBytes + innerLength ≤ entry.2)
    (tooLarge "dispatch does not fit an outer class")
  return entry.1

/-- `encodeOuterEnvelope`. A class is a number; `randomFill` fills the padding byte by byte. -/
def encodeOuterEnvelope (innerDispatch : Bytes) (outerClass : Option ℕ) (randomFill : ℕ → UInt8) :
    Except ProtocolError Bytes := do
  require (prefixBytes + headerBytes ≤ innerDispatch.length) (badEncoding "inner dispatch is truncated")
  let _ ← decodeDispatchFrame operationProfile innerDispatch
  let outerClass ← match outerClass with
    | some outerClass => pure outerClass
    | none => smallestOuterClass innerDispatch.length
  let classBytes ← demand (outerClasses.lookup outerClass) (badEncoding "unknown outer class")
  require (outerEnvelopeHeaderBytes + innerDispatch.length ≤ classBytes)
    (tooLarge "dispatch does not fit the selected outer class")
  let padding := (range (classBytes - (outerEnvelopeHeaderBytes + innerDispatch.length))).map randomFill
  return [[1], ofNat 1 outerClass, ofNat 4 innerDispatch.length, innerDispatch, padding].flatten

/-- What `decodeOuterEnvelope` returns. -/
structure OuterEnvelope where
  (version outerClass : ℕ)
  innerDispatch : Bytes
  frame : Frame

def decodeOuterEnvelope (input : Bytes) : Except ProtocolError OuterEnvelope := do
  require (outerEnvelopeHeaderBytes ≤ input.length) (badEncoding "outer envelope is truncated")
  require (window input 0 1 = [1]) ⟨"BAD_VERSION", "outer envelope version must be 1"⟩
  let outerClass := toNat (window input 1 1)
  let classBytes ← demand (outerClasses.lookup outerClass) (badEncoding "unknown outer class")
  require (input.length = classBytes) (badEncoding "outer envelope does not exactly match its class")
  let innerLength := toNat (window input 2 4)
  require (prefixBytes + headerBytes ≤ innerLength) (badEncoding "inner dispatch is truncated")
  require (outerEnvelopeHeaderBytes + innerLength ≤ classBytes) (badEncoding "inner dispatch exceeds the outer class")
  let innerDispatch := window input outerEnvelopeHeaderBytes innerLength
  let frame ← decodeDispatchFrame operationProfile innerDispatch
  return ⟨1, outerClass, innerDispatch, frame⟩

/-! ### What is accepted -/

variable {operationProfile : ℕ → ℕ → Option Profile} {n : Normalized} {body : Bytes} {frame : Frame}

@[simp] theorem asBuffer_eq_ok {value : Value} {field : String} {b : Bytes} :
    asBuffer value field = .ok b ↔ value = .bytes b := by
  cases value <;> simp [asBuffer]

theorem asU64_lt {value : Value} {field : String} {v : ℕ} (h : asU64 value field = .ok v) : v < 2 ^ 64 := by
  cases value with
  | number w | bigint w =>
    simp only [asU64, guards_eq_ok] at h
    omega
  | _ => cases h

theorem asU64_bigint {v : ℕ} (h : v < 2 ^ 64) (field : String) : asU64 (.bigint v) field = .ok v := by
  simp only [asU64, guards_eq_ok]
  omega

theorem u8?_eq_some {value : Value} {v : ℕ} : value.u8? = some v ↔ value = .number v ∧ 1 ≤ v ∧ v ≤ 255 := by
  cases value with
  | number w =>
    simp only [Value.u8?, ite_none_right_eq_some, some.injEq, Value.number.injEq]
    omega
  | _ => simp [Value.u8?]

/-- The frame that is returned for what was read. -/
def Normalized.returned (n : Normalized) (body : Bytes) : Frame where
  version := .number 1
  frameKind := .number n.frameKind
  familyId := .number n.familyId
  operationId := .number n.operationId
  flags := .number 0
  requestId := .bytes n.requestId
  streamId := .bigint n.streamId
  sequence := .bigint n.sequence
  body := .bytes body

structure Accepted (operationProfile : ℕ → ℕ → Option Profile) (n : Normalized) (body : Bytes) : Prop where
  shape : validateFrameShape operationProfile (n.returned body) = .ok n
  cap : validateOperationBodyCap operationProfile n body.length = .ok ()
  body : body.length ≤ maxBodyBytes

theorem validateFrameShape_returned (h : validateFrameShape operationProfile frame = .ok n) (body : Bytes) :
    validateFrameShape operationProfile (n.returned body) = .ok n ∧
      frame.version = .number 1 ∧ frame.frameKind = .number n.frameKind ∧ frame.familyId = .number n.familyId ∧
      frame.operationId = .number n.operationId ∧ frame.flags = .number 0 ∧ frame.requestId = .bytes n.requestId ∧
      asU64 frame.streamId "streamId" = .ok n.streamId ∧ asU64 frame.sequence "sequence" = .ok n.sequence := by
  simp only [validateFrameShape, guards_eq_ok, asBuffer_eq_ok, filter_eq_some_iff, u8?_eq_some] at h
  obtain ⟨hversion, kind, ⟨⟨hkind, hkind'⟩, hle⟩, family, ⟨hfamily, hfamily'⟩, operation, ⟨hoperation, hoperation'⟩,
    profile, hprofile, hbits, hflags, requestId, hrequestId, hlength, streamId, hstreamId, sequence, hsequence,
    u, hcorrelate, rfl⟩ := h
  refine ⟨?_, hversion, hkind, hfamily, hoperation, hflags, hrequestId, hstreamId, hsequence⟩
  simp only [validateFrameShape, Normalized.returned, guards_eq_ok, asBuffer_eq_ok, filter_eq_some_iff, u8?_eq_some]
  exact ⟨trivial, kind, ⟨⟨rfl, hkind'⟩, hle⟩, family, ⟨rfl, hfamily'⟩, operation, ⟨rfl, hoperation'⟩, profile,
    hprofile, hbits, trivial, requestId, rfl, hlength, streamId, asU64_bigint (asU64_lt hstreamId) _, sequence,
    asU64_bigint (asU64_lt hsequence) _, u, hcorrelate, rfl⟩

theorem Accepted.bounds (h : Accepted operationProfile n body) : n.requestId.length = 16 ∧ n.frameKind ≤ 255 ∧
    n.familyId ≤ 255 ∧ n.operationId ≤ 255 ∧ n.streamId < 2 ^ 64 ∧ n.sequence < 2 ^ 64 := by
  have hshape := h.shape
  simp only [validateFrameShape, Normalized.returned, guards_eq_ok, asBuffer_eq_ok, filter_eq_some_iff,
      u8?_eq_some] at hshape
  obtain ⟨-, kind, ⟨⟨-, -, hkind⟩, -⟩, family, ⟨-, -, hfamily⟩, operation, ⟨-, -, hoperation⟩, -, -, -, -, requestId, -,
    hlength, streamId, hstreamId, sequence, hsequence, -, -, rfl⟩ := hshape
  exact ⟨hlength, hkind, hfamily, hoperation, asU64_lt hstreamId, asU64_lt hsequence⟩

/-- A byte string starts with the header exactly when its windows are what the header says. -/
theorem take_eq_header_iff {b : Bytes} (hb : 45 ≤ b.length) (h : Accepted operationProfile n body) :
    b.take 45 = (n.header body.length).flatten ↔
      toNat (window b 0 4) = 41 + body.length ∧ toNat (window b 4 1) = 1 ∧ toNat (window b 5 1) = n.frameKind ∧
        toNat (window b 6 1) = n.familyId ∧ toNat (window b 7 1) = n.operationId ∧ toNat (window b 8 1) = 0 ∧
          window b 9 16 = n.requestId ∧ toNat (window b 25 8) = n.streamId ∧ toNat (window b 33 8) = n.sequence ∧
            toNat (window b 41 4) = body.length := by
  obtain ⟨hrequestId, hkind, hfamily, hoperation, hstreamId, hsequence⟩ := h.bounds
  have hbody : body.length ≤ 4194304 := h.body
  have hheader : (n.header body.length).flatten.length = 45 := by simp [Normalized.header, hrequestId]
  have hread : ∀ offset width value, offset + width ≤ 45 → value < 256 ^ width →
      (toNat (window b offset width) = value ↔ window b offset width = ofNat width value) :=
    fun _ _ _ hle hvalue => toNat_window_eq_iff (hle.trans hb) hvalue
  have htake : b.take 45 = window b 0 (n.header body.length).flatten.length := by rw [hheader]; rfl
  rw [htake, ← reads_iff (by omega)]
  simp only [Reads, Normalized.header, headerBytes, length_ofNat, hrequestId, Nat.reduceAdd, and_true,
    hread 0 4 _ (by decide) (show 41 + body.length < 256 ^ 4 by omega), hread 4 1 1 (by decide) (by decide),
    hread 5 1 n.frameKind (by decide) (by omega), hread 6 1 n.familyId (by decide) (by omega),
    hread 7 1 n.operationId (by decide) (by omega), hread 8 1 0 (by decide) (by decide),
    hread 25 8 n.streamId (by decide) (by omega), hread 33 8 n.sequence (by decide) (by omega),
    hread 41 4 body.length (by decide) (by omega)]

theorem length_header (h : Accepted operationProfile n body) : (n.header body.length).flatten.length = 45 := by
  simp [Normalized.header, h.bounds.1]

/-- **The accepted byte strings** are the ones that are written for a frame that passes every test. -/
theorem decodeDispatchFrame_eq_ok {b : Bytes} : decodeDispatchFrame operationProfile b = .ok frame ↔
    ∃ n body, Accepted operationProfile n body ∧ b = (n.header body.length).flatten ++ body ∧
      frame = n.returned body := by
  simp only [decodeDispatchFrame, readDispatchLengthPrefix, guards_eq_ok]
  simp only [prefixBytes, headerBytes]
  constructor
  · rintro ⟨-, frameLength, ⟨-, hmin, hmax, rfl⟩, hlength, hbody, hframeLength, n, hshape, _, hcap, rfl⟩
    have hb : 45 ≤ b.length := by omega
    have hdrop : (b.drop 45).length = toNat (window b 41 4) := by
      rw [length_drop]
      omega
    obtain ⟨hreturned, hversion, hkind, hfamily, hoperation, hflags, hrequest, hstreamId, hsequence⟩ :=
      validateFrameShape_returned hshape (b.drop 45)
    have haccepted : Accepted operationProfile n (b.drop 45) := ⟨hreturned, hdrop.symm ▸ hcap, hdrop.symm ▸ hbody⟩
    have hu64 : ∀ offset field v, offset + 8 ≤ 45 → asU64 (.bigint (toNat (window b offset 8))) field = .ok v →
        toNat (window b offset 8) = v := fun offset field v hle hv => by
      have hlt := toNat_lt (window b offset 8)
      rw [length_window (hle.trans hb)] at hlt
      exact Except.ok.inj ((asU64_bigint hlt field).symm.trans hv)
    simp only [Value.number.injEq, Value.bytes.injEq, Nat.cast_inj, Nat.cast_eq_one, Nat.cast_eq_zero] at *
    refine ⟨n, b.drop 45, haccepted, ?_, ?_⟩
    · rw [← (take_eq_header_iff hb haccepted).mpr ⟨by omega, hversion, hkind, hfamily, hoperation, hflags, hrequest,
        hu64 25 _ _ (by decide) hstreamId, hu64 33 _ _ (by decide) hsequence, hdrop.symm⟩, take_append_drop]
    · rw [Normalized.returned, hversion, hkind, hfamily, hoperation, hflags, hrequest, hu64 25 _ _ (by decide) hstreamId,
        hu64 33 _ _ (by decide) hsequence]
      rfl
  · rintro ⟨n, body, haccepted, rfl, rfl⟩
    have hbody : body.length ≤ 4194304 := haccepted.body
    have hheader := length_header haccepted
    have hlength : ((n.header body.length).flatten ++ body).length = 45 + body.length := by
      rw [length_append, hheader]
    obtain ⟨hframeLength, hversion, hkind, hfamily, hoperation, hflags, hrequest, hstreamId, hsequence, hbodyLength⟩ :=
      (take_eq_header_iff (hlength ▸ Nat.le_add_right 45 _) haccepted).mp (take_left' hheader)
    have hshape := haccepted.shape
    have hdrop : ((n.header body.length).flatten ++ body).drop 45 = body := drop_left' hheader
    rw [hversion, hkind, hfamily, hoperation, hflags, hrequest, hstreamId, hsequence, hbodyLength, hframeLength,
        hlength, hdrop]
    refine ⟨by omega, _, ⟨by omega, by omega, ?_, rfl⟩, by omega, hbody, rfl, n, hshape, _, haccepted.cap, rfl⟩
    simp only [maxFrameAfterPrefixBytes]
    omega

/-- What is encoded is written for a frame that passes every test, with the fields of the input. -/
theorem encodeDispatchFrame_ok {x : Frame} {b : Bytes} (h : encodeDispatchFrame operationProfile (some x) = .ok b) :
    ∃ n body, Accepted operationProfile n body ∧ b = (n.header body.length).flatten ++ body ∧
      x.frameKind = .number n.frameKind ∧ x.familyId = .number n.familyId ∧ x.operationId = .number n.operationId ∧
        x.requestId = .bytes n.requestId ∧ asU64 (x.streamId.orElse (.bigint 0)) "streamId" = .ok n.streamId ∧
          asU64 (x.sequence.orElse (.bigint 0)) "sequence" = .ok n.sequence ∧ x.body.orElse (.bytes []) = .bytes body := by
  simp only [encodeDispatchFrame, guards_eq_ok, asBuffer_eq_ok, some.injEq] at h
  obtain ⟨_, rfl, body, hbody, hmax, n, hshape, _, hcap, -, rfl⟩ := h
  obtain ⟨hreturned, -, hkind, hfamily, hoperation, -, hrequest, hstreamId, hsequence⟩ :=
    validateFrameShape_returned hshape body
  exact ⟨n, body, ⟨hreturned, hcap, hmax⟩, rfl, hkind, hfamily, hoperation, hrequest, hstreamId, hsequence, hbody⟩

theorem encodeDispatchFrame_returned (h : Accepted operationProfile n body) :
    encodeDispatchFrame operationProfile (some (n.returned body)) = .ok ((n.header body.length).flatten ++ body) := by
  simp only [encodeDispatchFrame, guards_eq_ok, asBuffer_eq_ok, some.injEq]
  have hbody : body.length ≤ 4194304 := h.body
  exact ⟨_, rfl, body, rfl, h.body, n, h.shape, _, h.cap,
    by simp only [headerBytes, maxFrameAfterPrefixBytes]; omega, rfl⟩

/-! ### What an envelope has -/

theorem lookup_outerClasses {c size : ℕ} : outerClasses.lookup c = some size ↔ (c, size) ∈ outerClasses := by
  refine ⟨fun h => ?_, fun h => ?_⟩
  · obtain ⟨before, after, hsplit, -⟩ := lookup_eq_some_iff.mp h
    simp [hsplit]
  · have hself : ∀ entry ∈ outerClasses, outerClasses.lookup entry.1 = some entry.2 := by decide
    exact hself _ h

theorem le_of_mem_outerClasses {entry : ℕ × ℕ} (h : entry ∈ outerClasses) : entry.1 < 256 ∧ entry.2 ≤ 8388608 := by
  revert entry
  decide

theorem smallestOuterClass_eq_ok {innerLength : ℤ} {c : ℕ} : smallestOuterClass innerLength = .ok c ↔
    0 ≤ innerLength ∧ IsLeast {c | ∃ size, outerClasses.lookup c = some size ∧ 6 + innerLength ≤ size} c := by
  simp only [smallestOuterClass, guards_eq_ok, show (outerEnvelopeHeaderBytes : ℤ) = 6 from rfl]
  have hleast : ∀ entry, outerClasses.find? (fun entry => decide (6 + innerLength ≤ entry.2)) =
      some entry → IsLeast {c | ∃ size, outerClasses.lookup c = some size ∧ 6 + innerLength ≤ size} entry.1 := by
    intro entry hfind
    have hfits := find?_some hfind
    obtain ⟨-, before, after, hsplit, hbefore⟩ := find?_eq_some_iff_append.mp hfind
    refine ⟨⟨entry.2, lookup_outerClasses.mpr (mem_of_find?_eq_some hfind), of_decide_eq_true hfits⟩, ?_⟩
    rintro c ⟨size, hsize, hfit⟩
    have hmem := hsplit ▸ lookup_outerClasses.mp hsize
    have hsorted : outerClasses.Pairwise fun a b => a.1 ≤ b.1 := by decide
    rw [hsplit, pairwise_append, pairwise_cons] at hsorted
    rcases mem_append.mp hmem with hc | hc
    · exact absurd (hbefore _ hc) (by simpa using hfit)
    · rcases mem_cons.mp hc with rfl | hc
      · exact le_rfl
      · exact hsorted.2.1.1 _ hc
  constructor
  · rintro ⟨⟨hnonneg, -⟩, entry, hfind, rfl⟩
    exact ⟨hnonneg, hleast entry hfind⟩
  · rintro ⟨hnonneg, h⟩
    obtain ⟨size, hsize, hfit⟩ := h.1
    have hmem := lookup_outerClasses.mp hsize
    have hmax := (le_of_mem_outerClasses hmem).2
    have hsome : (outerClasses.find? fun entry => decide (6 + innerLength ≤ entry.2)).isSome :=
      find?_isSome.mpr ⟨(c, size), hmem, decide_eq_true hfit⟩
    obtain ⟨entry, hfind⟩ := isSome_iff_exists.mp hsome
    exact ⟨⟨hnonneg, by simp only at hmax; omega⟩, entry, hfind, (hleast entry hfind).unique h⟩

theorem decodeOuterEnvelope_encode {inner : Bytes} {c size : ℕ}
    (hframe : decodeDispatchFrame operationProfile inner = .ok frame)
    (hsize : outerClasses.lookup c = some size) (hfit : 6 + inner.length ≤ size) (randomFill : ℕ → UInt8) :
    ∃ b, encodeOuterEnvelope operationProfile inner (some c) randomFill = .ok b ∧
      decodeOuterEnvelope operationProfile b = .ok ⟨1, c, inner, frame⟩ := by
  obtain ⟨hc, hmax⟩ := le_of_mem_outerClasses (lookup_outerClasses.mp hsize)
  obtain ⟨n, body, haccepted, hinner, -⟩ := decodeDispatchFrame_eq_ok.mp hframe
  have hlong : 45 ≤ inner.length := by
    rw [hinner, length_append, length_header haccepted]
    exact Nat.le_add_right 45 _
  generalize hpadding : (range (size - (6 + inner.length))).map randomFill = padding
  have hlength : padding.length = size - (6 + inner.length) := by simp [← hpadding]
  obtain ⟨hversion, hclass, hinnerLength, hwindow, -⟩ :=
    reads_flatten [[1], ofNat 1 c, ofNat 4 inner.length, inner, padding]
  refine ⟨[[1], ofNat 1 c, ofNat 4 inner.length, inner, padding].flatten, ?_, ?_⟩
  · simp only [encodeOuterEnvelope, guards_eq_ok]
    exact ⟨hlong, _, hframe, _, rfl, size, hsize, hfit, by rw [← hpadding]; rfl⟩
  · replace hclass : toNat (window _ 1 1) = c := (congrArg toNat hclass).trans (toNat_ofNat hc)
    replace hinnerLength : toNat (window _ 2 4) = inner.length :=
      (congrArg toNat hinnerLength).trans (toNat_ofNat (by simp only at hmax; omega))
    replace hwindow : window _ 6 inner.length = inner := hwindow
    have htotal : [[1], ofNat 1 c, ofNat 4 inner.length, inner, padding].flatten.length = size := by
      simp [hlength]
      omega
    simp only [decodeOuterEnvelope, guards_eq_ok]
    rw [hclass, hinnerLength, htotal]
    exact ⟨by simp only [outerEnvelopeHeaderBytes]; omega, hversion, size, hsize, rfl, hlong, hfit, frame,
      hwindow.symm ▸ hframe, by rw [outerEnvelopeHeaderBytes, hwindow]⟩

/-- **Framing**: a frame that is encoded is decoded with its fields, what is decoded is what is encoded again,
an envelope of any class that fits returns the frame and the class, whatever the padding, and the class that
is chosen when none is given is the least one that fits. -/
theorem dispatch_framing (operationProfile : ℕ → ℕ → Option Profile) :
    (∀ x b, encodeDispatchFrame operationProfile (some x) = .ok b →
      ∃ y, decodeDispatchFrame operationProfile b = .ok y ∧ y.frameKind = x.frameKind ∧ y.familyId = x.familyId ∧
        y.operationId = x.operationId ∧ y.requestId = x.requestId ∧
          asU64 y.streamId "streamId" = asU64 (x.streamId.orElse (.bigint 0)) "streamId" ∧
            asU64 y.sequence "sequence" = asU64 (x.sequence.orElse (.bigint 0)) "sequence" ∧
              y.body = x.body.orElse (.bytes [])) ∧
    (∀ b y, decodeDispatchFrame operationProfile b = .ok y → encodeDispatchFrame operationProfile (some y) = .ok b) ∧
    (∀ inner frame randomFill, decodeDispatchFrame operationProfile inner = .ok frame →
      (∀ c size, outerClasses.lookup c = some size → 6 + inner.length ≤ size →
        ∃ b, encodeOuterEnvelope operationProfile inner (some c) randomFill = .ok b ∧
          decodeOuterEnvelope operationProfile b = .ok ⟨1, c, inner, frame⟩) ∧
      ∃ c b, smallestOuterClass inner.length = .ok c ∧
        encodeOuterEnvelope operationProfile inner none randomFill = .ok b ∧
          decodeOuterEnvelope operationProfile b = .ok ⟨1, c, inner, frame⟩) ∧
    ∀ innerLength c, smallestOuterClass innerLength = .ok c ↔
      0 ≤ innerLength ∧ IsLeast {c | ∃ size, outerClasses.lookup c = some size ∧ 6 + innerLength ≤ size} c := by
  refine ⟨fun x b h => ?_, fun b y h => ?_, fun inner frame randomFill hframe => ⟨fun c size hsize hfit => ?_, ?_⟩,
    fun innerLength c => smallestOuterClass_eq_ok⟩
  · obtain ⟨n, body, haccepted, rfl, hkind, hfamily, hoperation, hrequest, hstreamId, hsequence, hbody⟩ :=
      encodeDispatchFrame_ok h
    have hbounds := haccepted.bounds.2.2.2.2
    exact ⟨_, decodeDispatchFrame_eq_ok.mpr ⟨n, body, haccepted, rfl, rfl⟩, hkind.symm, hfamily.symm, hoperation.symm,
      hrequest.symm, (asU64_bigint hbounds.1 _).trans hstreamId.symm, (asU64_bigint hbounds.2 _).trans hsequence.symm,
      hbody.symm⟩
  · obtain ⟨n, body, haccepted, rfl, rfl⟩ := decodeDispatchFrame_eq_ok.mp h
    exact encodeDispatchFrame_returned haccepted
  · exact decodeOuterEnvelope_encode hframe hsize hfit randomFill
  · obtain ⟨n, body, haccepted, hinner, -⟩ := decodeDispatchFrame_eq_ok.mp hframe
    have hbody : body.length ≤ 4194304 := haccepted.body
    have hfits : 6 + inner.length ≤ 8388608 := by
      rw [hinner, length_append, length_header haccepted]
      omega
    have hexists : ∃ c, ∃ size, outerClasses.lookup c = some size ∧ 6 + (inner.length : ℤ) ≤ size :=
      ⟨6, 8388608, rfl, by exact_mod_cast hfits⟩
    have hleast := smallestOuterClass_eq_ok.mpr ⟨Int.natCast_nonneg inner.length, Nat.sInf_mem hexists,
      fun c hc => Nat.sInf_le hc⟩
    obtain ⟨size, hsize, hfit⟩ := Nat.sInf_mem hexists
    obtain ⟨b, hencode, hdecode⟩ := decodeOuterEnvelope_encode hframe hsize (by exact_mod_cast hfit) randomFill
    refine ⟨_, b, hleast, ?_, hdecode⟩
    rw [← hencode, encodeOuterEnvelope, hleast]
    rfl

/-- A frame with a body of one byte. -/
theorem dispatch_framing_sample : ∃ b y,
    encodeDispatchFrame (fun _ _ => some ⟨1, 6, 16, 16⟩) (some ⟨.nullish, .number 1, .number 2, .number 1, .nullish,
      .bytes (replicate 16 1), .nullish, .number 0, .bytes [7]⟩) = .ok b ∧
    decodeDispatchFrame (fun _ _ => some ⟨1, 6, 16, 16⟩) b = .ok y ∧ y.body = .bytes [7] := by
  obtain ⟨y, hy, -, -, -, -, -, -, hbody⟩ := (dispatch_framing fun _ _ => some ⟨1, 6, 16, 16⟩).1
    ⟨.nullish, .number 1, .number 2, .number 1, .nullish, .bytes (replicate 16 1), .nullish, .number 0,
      .bytes [7]⟩ _ rfl
  exact ⟨_, y, rfl, hy, hbody⟩

end HiveRelay.Dispatch
