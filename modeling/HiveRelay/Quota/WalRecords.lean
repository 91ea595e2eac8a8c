import HiveRelay.Lib.Bytes
import HiveRelay.Lib.Guard
import HiveRelay.Lib.OrderedMap

/-!
# Records of the FORWARD HTTPS stores

`forward-https-replay-journal-v4.js` accounts for the frames that the source and the target store
append to their logs. A frame is one of fourteen types; `deriveForwardHttpsStoreWalQuotaEntryV3`
checks it and says what it charges to which session. A terminal record (FTM9) and a tombstone (FPR9)
are decoded; the tombstone commits to the charge entries that it removes by a chain of hashes.

The hash is a parameter, of which the codec uses that its outputs have 32 bytes.
-/

namespace HiveRelay.Quota

open Bytes

/-! ### Constants -/

def ascii (text : String) : Bytes := text.toList.map fun c => UInt8.ofNat c.toNat

def zero32 : Bytes := List.replicate 32 0

def walFrameOverheadBytes : ℕ := 224

def ftm9PayloadBytes : ℕ := 192

def ftm9LogicalBytes : ℕ := 608

def fpr9PayloadBytes : ℕ := 256

def fpr9LogicalBytes : ℕ := 736

def type113LogicalBytes : ℕ := 460

def maximumWalPayloadBytes : ℕ := 16777216

def recoveryGraceSeconds : ℕ := 900

def u32Max : ℕ := 4294967295

def expiryHorizon : ℕ := 4294966394

def authorityClassCount : ℕ := 10

def minimalTerminalBitmap : ℕ := 640

/-- The largest number of removable charge entries of a session. -/
def maximumChargeEntries : ℕ := 65536

def domainChargeRegistryInit : Bytes :=
  ascii "hiverelay.blind.forward-https-quota-charge-registry-init.v4"

def domainChargeRegistryStep : Bytes :=
  ascii "hiverelay.blind.forward-https-quota-charge-registry-step.v4"

def domainChargeRegistryFinal : Bytes :=
  ascii "hiverelay.blind.forward-https-quota-charge-registry-final.v4"

def domainAuthorityRegistry : Bytes := ascii "hiverelay.blind.forward-https-authority-registry.v3"

def domainPruneSessionState : Bytes := ascii "hiverelay.blind.forward-https-prune-session-state.v3"

def domainPrefixSessionState : Bytes := ascii "hiverelay.blind.forward-https-prefix-session-state.v3"

def domainMinimalTerminal : Bytes :=
  ascii "hiverelay.blind.forward-https-minimal-terminal-authority.v3"

def domainRetentionLookup : Bytes := ascii "hiverelay.blind.forward-https-retention-lookup.v3"

def domainTerminalState : Bytes := ascii "hiverelay.blind.forward-https-terminal-state.v3"

def domainTerminalStateExisting : Bytes :=
  ascii "hiverelay.blind.forward-https-terminal-state-existing.v3"

/-! ### Errors, roles and hashes -/

/-- The codes of the errors; a `TypeError` has none. -/
inductive ErrorCode where
  | authorityInvalid | integrity | capacity | invalid | terminal | closed | typeError
  deriving DecidableEq

structure Failure where
  code : ErrorCode
  message : String
  deriving DecidableEq

/-- `storeWalFail`. -/
def storeWal (message : String) : Failure := ⟨.integrity, message⟩

/-- A `TypeError`. -/
def typeError (message : String) : Failure := ⟨.typeError, message⟩

inductive StoreRole where
  | source | target
  deriving DecidableEq

/-- `quotaRoleByte`. -/
def StoreRole.byte : StoreRole → UInt8
  | .source => 1
  | .target => 2

structure Crypto where
  blake2b256 : Bytes → Bytes
  hmacSha256 : Bytes → Bytes → Bytes
  length_blake2b256 : ∀ b, (blake2b256 b).length = 32
  length_hmacSha256 : ∀ key b, (hmacSha256 key b).length = 32

attribute [simp] Crypto.length_blake2b256 Crypto.length_hmacSha256

/-- The class of an open run of type 113 frames. -/
inductive PrefixClass where
  | fresh | existing
  deriving DecidableEq

/-- What is kept of a session. A counter that is absent in the source is read there as zero. -/
structure Mirror where
  (present consumed pruned : Bool)
  openPrefix : Option PrefixClass
  bitmap : ℕ
  commitments : Option (List Bytes)
  (priorRevision chargeEntryCount chargeSum : ℕ)
  chargeChain : Option Bytes
  (orphanCount orphanSum orphanLastRevision : ℕ)
  (orphanChain preRunChain postRunChain requestCommitment : Option Bytes)
  (trustedEpochHighWatermark expiresAtEpoch recoveryGraceUntilEpoch : ℕ)

/-- The mirror of a session that was not seen. -/
def Mirror.unseen : Mirror where
  present := false
  consumed := false
  pruned := false
  openPrefix := none
  bitmap := 0
  commitments := none
  priorRevision := 0
  chargeEntryCount := 0
  chargeSum := 0
  chargeChain := none
  orphanCount := 0
  orphanSum := 0
  orphanLastRevision := 0
  orphanChain := none
  preRunChain := none
  postRunChain := none
  requestCommitment := none
  trustedEpochHighWatermark := 0
  expiresAtEpoch := 0
  recoveryGraceUntilEpoch := 0

def zeroCommitments : List Bytes := List.replicate authorityClassCount zero32

/-! ### Terminal records -/

/-- What `decodeFtm9Payload` returns. -/
structure Terminal where
  role : UInt8
  flags : ℕ
  stableSessionId : Bytes
  sequence : ℕ
  buckets : List ℕ
  (transportTurnsSpent transportBytesSpent priorSessionRevision newTrustedEpochHighWatermark : ℕ)
  reason : Bytes
  (expiresAtEpoch retainedUntilEpoch : ℕ)
  minimalTerminalAuthorityCommitment : Option Bytes

/-- The unsigned integer at an offset. -/
def readU (payload : Bytes) (offset width : ℕ) : ℕ := toNat (payload.window offset width)

section Terminals

variable (C : Crypto)

def decodeFtm9Payload (payload : Bytes) (expectedWalType : ℕ) : Except Failure Terminal := do
  require (payload.length = ftm9PayloadBytes) (storeWal "FTM9 payload length is invalid")
  require (payload.window 0 4 = ascii "FTM9") (storeWal "FTM9 magic is invalid")
  require (payload.window 4 1 = [1]) (storeWal "FTM9 version is invalid")
  let role := (payload.window 5 1).headD 0
  let flags := readU payload 6 2
  require ((role = 1 ∧ expectedWalType = 99) ∨ (role = 2 ∧ expectedWalType = 117))
    (storeWal "FTM9 role/type binding is invalid")
  require (flags = 0 ∨ flags = 1) (storeWal "FTM9 flags are invalid")
  let stableSessionId := payload.window 8 32
  let sequence := readU payload 40 8
  let buckets := [readU payload 48 2, readU payload 50 2, readU payload 52 2, readU payload 54 2, readU payload 56 2]
  let transportTurnsSpent := readU payload 58 2
  let transportBytesSpent := readU payload 60 4
  let priorSessionRevision := readU payload 64 8
  let newTrustedEpochHighWatermark := readU payload 72 4
  let reasonLength := readU payload 76 1
  require (1 ≤ reasonLength ∧ reasonLength ≤ 64) (storeWal "FTM9 reason length is invalid")
  let reason := payload.window 77 reasonLength
  require ((payload.window (77 + reasonLength) (64 - reasonLength)).isZero)
    (storeWal "FTM9 reason padding is invalid")
  let tail := payload.window 141 51
  let result : Terminal :=
    { role := role
      flags := flags
      stableSessionId := stableSessionId
      sequence := sequence
      buckets := buckets
      transportTurnsSpent := transportTurnsSpent
      transportBytesSpent := transportBytesSpent
      priorSessionRevision := priorSessionRevision
      newTrustedEpochHighWatermark := newTrustedEpochHighWatermark
      reason := reason
      expiresAtEpoch := 0
      retainedUntilEpoch := 0
      minimalTerminalAuthorityCommitment := none }
  if flags = 0 then do
    require (priorSessionRevision ≠ 0) (storeWal "FTM9 existing delta requires nonzero prior revision")
    require (tail.isZero) (storeWal "FTM9 existing delta tail is invalid")
    pure result
  else do
    require (priorSessionRevision = 0) (storeWal "FTM9 minimal terminal requires zero prior revision")
    require (sequence ≠ 0) (storeWal "FTM9 minimal terminal requires nonzero sequence")
    require (reason = if role = 1 then ascii "FORWARD_HTTPS_SOURCE_STORE_V3_SEQUENCE_INVALID"
        else ascii "FORWARD_HTTPS_TARGET_STORE_V3_SEQUENCE_INVALID")
      (storeWal "FTM9 minimal terminal reason is invalid")
    require (∀ value ∈ buckets ++ [transportTurnsSpent, transportBytesSpent], value = 0)
      (storeWal "FTM9 minimal terminal counters are invalid")
    let expiresAtEpoch := readU tail 0 4
    let retainedUntilEpoch := readU tail 4 4
    require (expiresAtEpoch ≤ expiryHorizon) (storeWal "FTM9 expiry horizon is invalid")
    require (retainedUntilEpoch = expiresAtEpoch + recoveryGraceSeconds) (storeWal "FTM9 retainedUntil is invalid")
    let exactRequestCommitment := tail.window 8 32
    require (exactRequestCommitment ≠ zero32) (storeWal "FTM9 request commitment is invalid")
    require ((tail.window 40 11).isZero) (storeWal "FTM9 minimal tail padding is invalid")
    let scalars := ofNat 4 expiresAtEpoch ++ ofNat 4 retainedUntilEpoch ++
      ofNat 4 newTrustedEpochHighWatermark ++ ofNat 1 reasonLength
    pure { result with
      expiresAtEpoch := expiresAtEpoch
      retainedUntilEpoch := retainedUntilEpoch
      minimalTerminalAuthorityCommitment := some (C.blake2b256 (domainMinimalTerminal ++ [role] ++
        stableSessionId ++ ofNat 8 sequence ++ exactRequestCommitment ++ scalars ++ reason)) }

end Terminals

/-! ### Tombstones -/

/-- The input of `encodeForwardHttpsRetentionPrunedV3`. -/
structure TombstoneInput where
  role : StoreRole
  flags : ℕ
  stableSessionId : Bytes
  (priorSessionRevision pruneEpochSeconds trustedEpochHighWatermark expiresAtEpoch recoveryGraceUntilEpoch : ℕ)
  (removedOrdinaryLogicalBytes chargeEntryCount beforeAuthorityBitmap allocationDisposition terminalSlotState : ℕ)
  (chargeEntryBuffers authorityCommitments : List Bytes)

/-- What `decodeForwardHttpsRetentionPrunedV3` returns; its after bitmap is always zero. -/
structure Tombstone where
  role : UInt8
  flags : ℕ
  stableSessionId : Bytes
  (priorSessionRevision pruneEpochSeconds trustedEpochHighWatermark expiresAtEpoch recoveryGraceUntilEpoch : ℕ)
  (removedOrdinaryLogicalBytes chargeEntryCount beforeAuthorityBitmap allocationDisposition terminalSlotState : ℕ)
  (chargeRegistryCommitment authorityRegistryCommitment previousSessionStateCommitment : Bytes)

def PairValid (flags allocationDisposition terminalSlotState : ℕ) : Prop :=
  (flags = 0 ∧ ((allocationDisposition = 1 ∧ terminalSlotState = 1) ∨
      (allocationDisposition = 0 ∧ terminalSlotState = 2))) ∨
    (flags = 1 ∧ allocationDisposition = 1 ∧ terminalSlotState = 3) ∨
    (flags = 2 ∧ allocationDisposition = 2 ∧ terminalSlotState = 1)
  deriving Decidable

section Tombstones

variable (C : Crypto)

def chargeChainInit (role : UInt8) (stableSessionId : Bytes) : Bytes :=
  C.blake2b256 (domainChargeRegistryInit ++ [role] ++ stableSessionId)

def chargeChainStep (chain entry49 : Bytes) : Bytes :=
  C.blake2b256 (domainChargeRegistryStep ++ chain ++ entry49)

def chargeChainFinal (role : UInt8) (stableSessionId : Bytes) (count removedSum : ℕ) (chain : Bytes) : Bytes :=
  C.blake2b256 (domainChargeRegistryFinal ++ [role] ++ stableSessionId ++ ofNat 4 count ++
    ofNat 8 removedSum ++ chain)

def chargeChainOf (role : UInt8) (stableSessionId : Bytes) (entries : List Bytes) : Bytes :=
  entries.foldl (chargeChainStep C) (chargeChainInit C role stableSessionId)

def chargeRegistryCommitment (role : UInt8) (stableSessionId : Bytes)
    (chargeEntryCount removedOrdinaryLogicalBytes : ℕ) (walOrderedEntryBuffers : List Bytes) : Bytes :=
  chargeChainFinal C role stableSessionId chargeEntryCount removedOrdinaryLogicalBytes
    (chargeChainOf C role stableSessionId walOrderedEntryBuffers)

def authorityRegistryCommitment (role : UInt8) (stableSessionId : Bytes)
    (priorSessionRevision beforeAuthorityBitmap : ℕ) (commitments : List Bytes) : Bytes :=
  C.blake2b256 (domainAuthorityRegistry ++ [role] ++ stableSessionId ++
    ofNat 8 priorSessionRevision ++ ofNat 4 beforeAuthorityBitmap ++ commitments.flatten)

def previousSessionStateCommitment (flags : ℕ) (role : UInt8) (stableSessionId : Bytes)
    (priorSessionRevision : ℕ) (chargeCommitment authorityCommitment : Bytes)
    (terminalSlotState : ℕ) : Bytes :=
  C.blake2b256 ((if flags = 0 then domainPruneSessionState else domainPrefixSessionState) ++
    ofNat 2 flags ++ [role] ++ stableSessionId ++ ofNat 8 priorSessionRevision ++
    chargeCommitment ++ authorityCommitment ++ ofNat 1 terminalSlotState)

/-- What a tombstone says, with the commitments that are computed from the input. -/
def TombstoneInput.tombstone (input : TombstoneInput) : Tombstone :=
  let charge := chargeRegistryCommitment C input.role.byte input.stableSessionId
    input.chargeEntryCount input.removedOrdinaryLogicalBytes input.chargeEntryBuffers
  let authority := authorityRegistryCommitment C input.role.byte input.stableSessionId
    input.priorSessionRevision input.beforeAuthorityBitmap input.authorityCommitments
  { input with
    role := input.role.byte
    chargeRegistryCommitment := charge
    authorityRegistryCommitment := authority
    previousSessionStateCommitment := previousSessionStateCommitment C input.flags input.role.byte
      input.stableSessionId input.priorSessionRevision charge authority input.terminalSlotState }

/-- The fields of a tombstone in the order of its bytes. -/
def Tombstone.parts (t : Tombstone) : List Bytes :=
  [ascii "FPR9", [1], [t.role], ofNat 2 t.flags, t.stableSessionId,
    ofNat 8 t.priorSessionRevision, ofNat 4 t.pruneEpochSeconds,
    ofNat 4 t.trustedEpochHighWatermark, ofNat 4 t.expiresAtEpoch,
    ofNat 4 t.recoveryGraceUntilEpoch, ofNat 8 t.removedOrdinaryLogicalBytes,
    ofNat 4 t.chargeEntryCount, ofNat 4 t.beforeAuthorityBitmap, ofNat 4 0,
    ofNat 1 t.allocationDisposition, ofNat 1 t.terminalSlotState, ofNat 2 0,
    t.chargeRegistryCommitment, t.authorityRegistryCommitment, t.previousSessionStateCommitment,
    List.replicate 72 0]

def encodeForwardHttpsRetentionPrunedV3 (input : TombstoneInput) : Except Failure Bytes := do
  require (input.flags = 0 ∨ input.flags = 1 ∨ input.flags = 2) (typeError
    "flags must be ORDINARY_OR_TERMINAL=0, RECOVERED_PREFIX_ORPHAN=1 or EXISTING_SESSION_PREFIX_ABORT=2")
  require (input.stableSessionId.length = 32) (typeError "stableSessionId must be exactly 32 bytes")
  require (input.stableSessionId ≠ zero32) (typeError "stableSessionId must be nonzero")
  require (input.priorSessionRevision < 2 ^ 64 ∧ input.priorSessionRevision ≠ 0)
    (typeError "priorSessionRevision is outside u64")
  require (input.pruneEpochSeconds ≤ u32Max) (typeError "pruneEpochSeconds is outside 0..4294967295")
  require (input.trustedEpochHighWatermark ≤ u32Max) (typeError "trustedEpochHighWatermark is outside 0..4294967295")
  require (input.expiresAtEpoch ≤ u32Max) (typeError "expiresAtEpoch is outside 0..4294967295")
  require (input.recoveryGraceUntilEpoch ≤ u32Max) (typeError "recoveryGraceUntilEpoch is outside 0..4294967295")
  require (input.expiresAtEpoch ≤ expiryHorizon) (storeWal "FPR9 expiry horizon is invalid")
  require (input.removedOrdinaryLogicalBytes < 2 ^ 64) (typeError "removedOrdinaryLogicalBytes is outside u64")
  require (input.chargeEntryCount ≤ maximumChargeEntries) (typeError "chargeEntryCount is outside 0..65536")
  require (input.beforeAuthorityBitmap ≤ 1023) (typeError "beforeAuthorityBitmap is outside 0..1023")
  require (input.allocationDisposition = 0 ∨ input.allocationDisposition = 1 ∨
      input.allocationDisposition = 2) (typeError
    "allocationDisposition must be NONE_CONSUMED=0, RELEASE_ALLOCATED=1 or NONE_RETAINED_ALLOCATED=2")
  require (input.terminalSlotState = 1 ∨ input.terminalSlotState = 2 ∨ input.terminalSlotState = 3)
    (typeError "terminalSlotState must be ALLOCATED=1, CONSUMED=2 or PREFIX_ALLOCATED=3")
  require (input.chargeEntryBuffers.length = input.chargeEntryCount)
    (typeError "chargeEntryBuffers must match chargeEntryCount")
  require (∀ entry ∈ input.chargeEntryBuffers, entry.length = 49)
    (typeError "chargeEntryBuffers must be exactly 49 bytes")
  require (input.authorityCommitments.length = authorityClassCount)
    (typeError "authorityCommitments must contain exactly ten entries")
  require (∀ commitment ∈ input.authorityCommitments, commitment.length = 32)
    (typeError "authorityCommitments must be exactly 32 bytes")
  require (input.chargeEntryCount = 0 → input.removedOrdinaryLogicalBytes = 0)
    (storeWal "FPR9 terminal-only variant requires zero removal")
  require (0 < input.chargeEntryCount → input.removedOrdinaryLogicalBytes ≠ 0)
    (storeWal "FPR9 ordinary variant requires positive removal")
  require (PairValid input.flags input.allocationDisposition input.terminalSlotState)
    (storeWal "FPR9 allocation/slot pairing is invalid for the variant")
  require (input.flags ≠ 0 → input.expiresAtEpoch = 0 ∧ input.recoveryGraceUntilEpoch = 0)
    (storeWal "FPR9 prefix variants require zeroed expiry fields")
  require (input.flags ≠ 0 → input.pruneEpochSeconds ≠ 0)
    (storeWal "FPR9 prefix variants require a nonzero trusted prune epoch")
  require (input.flags ≠ 0 → input.chargeEntryCount ≠ 0)
    (storeWal "FPR9 prefix variants require exact positive orphan entries")
  require ((input.chargeEntryBuffers.map fun entry => readU entry 41 8).sum = input.removedOrdinaryLogicalBytes)
    (storeWal "FPR9 removal does not match the charge entry sum")
  pure (input.tombstone C).parts.flatten

end Tombstones

def decodeForwardHttpsRetentionPrunedV3 (payload : Bytes) : Except Failure Tombstone := do
  require (payload.length = fpr9PayloadBytes) (typeError "FPR9 payload must be exactly 256 bytes")
  require (payload.window 0 4 = ascii "FPR9") (storeWal "FPR9 magic is invalid")
  require (payload.window 4 1 = [1]) (storeWal "FPR9 version is invalid")
  let role := (payload.window 5 1).headD 0
  require (role = 1 ∨ role = 2) (storeWal "FPR9 role is invalid")
  let flags := readU payload 6 2
  require (flags = 0 ∨ flags = 1 ∨ flags = 2) (storeWal "FPR9 flags are invalid")
  let priorSessionRevision := readU payload 40 8
  require (priorSessionRevision ≠ 0) (storeWal "FPR9 prior revision is invalid")
  let pruneEpochSeconds := readU payload 48 4
  let expiresAtEpoch := readU payload 56 4
  let recoveryGraceUntilEpoch := readU payload 60 4
  require (expiresAtEpoch ≤ expiryHorizon) (storeWal "FPR9 expiry horizon is invalid")
  let removedOrdinaryLogicalBytes := readU payload 64 8
  let chargeEntryCount := readU payload 72 4
  let beforeAuthorityBitmap := readU payload 76 4
  require (readU payload 80 4 = 0) (storeWal "FPR9 after bitmap is invalid")
  let allocationDisposition := readU payload 84 1
  let terminalSlotState := readU payload 85 1
  require (allocationDisposition = 0 ∨ allocationDisposition = 1 ∨ allocationDisposition = 2)
    (storeWal "FPR9 allocation disposition is invalid")
  require (terminalSlotState = 1 ∨ terminalSlotState = 2 ∨ terminalSlotState = 3)
    (storeWal "FPR9 terminal slot state is invalid")
  require (readU payload 86 2 = 0) (storeWal "FPR9 reserved field is invalid")
  require (beforeAuthorityBitmap ≤ 1023) (storeWal "FPR9 authority bitmap is invalid")
  require (chargeEntryCount ≤ maximumChargeEntries) (storeWal "FPR9 charge entry count is invalid")
  require (chargeEntryCount = 0 ↔ removedOrdinaryLogicalBytes = 0) (storeWal "FPR9 count/removal pairing is invalid")
  require (PairValid flags allocationDisposition terminalSlotState)
    (storeWal "FPR9 allocation/slot pairing is invalid for the variant")
  require (flags ≠ 0 → expiresAtEpoch = 0 ∧ recoveryGraceUntilEpoch = 0 ∧ pruneEpochSeconds ≠ 0 ∧
      chargeEntryCount ≠ 0) (storeWal "FPR9 prefix variant fields are invalid")
  require ((payload.window 184 72).isZero) (storeWal "FPR9 padding is invalid")
  pure
    { role := role
      flags := flags
      stableSessionId := payload.window 8 32
      priorSessionRevision := priorSessionRevision
      pruneEpochSeconds := pruneEpochSeconds
      trustedEpochHighWatermark := readU payload 52 4
      expiresAtEpoch := expiresAtEpoch
      recoveryGraceUntilEpoch := recoveryGraceUntilEpoch
      removedOrdinaryLogicalBytes := removedOrdinaryLogicalBytes
      chargeEntryCount := chargeEntryCount
      beforeAuthorityBitmap := beforeAuthorityBitmap
      allocationDisposition := allocationDisposition
      terminalSlotState := terminalSlotState
      chargeRegistryCommitment := payload.window 88 32
      authorityRegistryCommitment := payload.window 120 32
      previousSessionStateCommitment := payload.window 152 32 }

section RoundTrip

variable {C : Crypto}

/-- The fields of a tombstone fit their places. -/
structure Tombstone.Fits (t : Tombstone) : Prop where
  flags_lt : t.flags < 256 ^ 2
  length_stableSessionId : t.stableSessionId.length = 32
  priorSessionRevision_lt : t.priorSessionRevision < 256 ^ 8
  pruneEpochSeconds_lt : t.pruneEpochSeconds < 256 ^ 4
  trustedEpochHighWatermark_lt : t.trustedEpochHighWatermark < 256 ^ 4
  expiresAtEpoch_lt : t.expiresAtEpoch < 256 ^ 4
  recoveryGraceUntilEpoch_lt : t.recoveryGraceUntilEpoch < 256 ^ 4
  removedOrdinaryLogicalBytes_lt : t.removedOrdinaryLogicalBytes < 256 ^ 8
  chargeEntryCount_lt : t.chargeEntryCount < 256 ^ 4
  beforeAuthorityBitmap_lt : t.beforeAuthorityBitmap < 256 ^ 4
  allocationDisposition_lt : t.allocationDisposition < 256 ^ 1
  terminalSlotState_lt : t.terminalSlotState < 256 ^ 1
  length_charge : t.chargeRegistryCommitment.length = 32
  length_authority : t.authorityRegistryCommitment.length = 32
  length_state : t.previousSessionStateCommitment.length = 32

variable {t : Tombstone}

theorem Tombstone.Fits.length_flatten (h : t.Fits) : t.parts.flatten.length = fpr9PayloadBytes := by
  have hmagic : (ascii "FPR9").length = 4 := rfl
  simp [Tombstone.parts, fpr9PayloadBytes, hmagic, h.length_stableSessionId, h.length_charge, h.length_authority,
    h.length_state]

theorem decode_encodeForwardHttpsRetentionPrunedV3 {input : TombstoneInput} {payload : Bytes}
    (h : encodeForwardHttpsRetentionPrunedV3 C input = .ok payload) :
    decodeForwardHttpsRetentionPrunedV3 payload = .ok (input.tombstone C) := by
  simp only [encodeForwardHttpsRetentionPrunedV3, guards_eq_ok] at h
  obtain ⟨hflags, hsession, -, hrevision, hprune, hwatermark, hexpires, hgrace, hhorizon, hremoved,
    hcount, hbitmap, hdisposition, hslot, hentries, -, -, -, hzero, hpositive, hpair, hepochs, hnonzero,
    hsome, hsum, rfl⟩ := h
  set t := input.tombstone C with ht
  have hrole : t.role = 1 ∨ t.role = 2 := by
    rw [ht]
    cases hinput : input.role with
    | source => exact .inl (by simp [TombstoneInput.tombstone, hinput, StoreRole.byte])
    | target => exact .inr (by simp [TombstoneInput.tombstone, hinput, StoreRole.byte])
  unfold u32Max at hprune hwatermark hexpires hgrace
  unfold maximumChargeEntries at hcount
  have hf : t.Fits :=
    { flags_lt := by show input.flags < _; omega
      length_stableSessionId := hsession
      priorSessionRevision_lt := by show input.priorSessionRevision < _; omega
      pruneEpochSeconds_lt := by show input.pruneEpochSeconds < _; omega
      trustedEpochHighWatermark_lt := by show input.trustedEpochHighWatermark < _; omega
      expiresAtEpoch_lt := by show input.expiresAtEpoch < _; omega
      recoveryGraceUntilEpoch_lt := by show input.recoveryGraceUntilEpoch < _; omega
      removedOrdinaryLogicalBytes_lt := by show input.removedOrdinaryLogicalBytes < _; omega
      chargeEntryCount_lt := by show input.chargeEntryCount < _; omega
      beforeAuthorityBitmap_lt := by show input.beforeAuthorityBitmap < _; omega
      allocationDisposition_lt := by show input.allocationDisposition < _; omega
      terminalSlotState_lt := by show input.terminalSlotState < _; omega
      length_charge := C.length_blake2b256 _
      length_authority := C.length_blake2b256 _
      length_state := C.length_blake2b256 _ }
  have hmagic : (ascii "FPR9").length = 4 := rfl
  have hreads : Reads t.parts.flatten 0 t.parts := reads_flatten _
  have hlength := hf.length_flatten
  generalize t.parts.flatten = payload at hreads hlength ⊢
  simp only [Tombstone.parts, Reads, hmagic, List.length_singleton, length_ofNat, hf.length_stableSessionId,
      hf.length_charge,
    hf.length_authority, hf.length_state, List.length_replicate, Nat.reduceAdd] at hreads
  obtain ⟨w0, w4, w5, w6, w8, w40, w48, w52, w56, w60, w64, w72, w76, w80, w84, w85, w86, w88, w120, w152, w184, -⟩ :=
    hreads
  simp only [decodeForwardHttpsRetentionPrunedV3, guards_eq_ok, readU, w0, w4, w5, w6, w8, w40, w48, w52, w56, w60, w64,
    w72, w76, w80, w84, w85, w86, w88, w120, w152, w184, List.headD_cons, toNat_ofNat hf.flags_lt,
    toNat_ofNat hf.priorSessionRevision_lt, toNat_ofNat hf.pruneEpochSeconds_lt,
    toNat_ofNat hf.trustedEpochHighWatermark_lt, toNat_ofNat hf.expiresAtEpoch_lt,
    toNat_ofNat hf.recoveryGraceUntilEpoch_lt, toNat_ofNat hf.removedOrdinaryLogicalBytes_lt,
    toNat_ofNat hf.chargeEntryCount_lt, toNat_ofNat hf.beforeAuthorityBitmap_lt,
    toNat_ofNat hf.allocationDisposition_lt, toNat_ofNat hf.terminalSlotState_lt,
    toNat_ofNat (show 0 < 256 ^ 4 by decide), toNat_ofNat (show 0 < 256 ^ 2 by decide)]
  refine ⟨hlength, trivial, trivial, hrole, hflags, hrevision.2, hhorizon, trivial,
    hdisposition, hslot, trivial, hbitmap, hcount, ?_, hpair, ?_, by decide, trivial⟩
  · refine ⟨hzero, fun hnone => ?_⟩
    by_contra hne
    exact hpositive (Nat.pos_of_ne_zero hne) hnone
  · exact fun hne => ⟨(hepochs hne).1, (hepochs hne).2, hnonzero hne, hsome hne⟩

end RoundTrip

/-! ### What a frame charges -/

structure WalFrame where
  type : ℕ
  (payload payloadHash : Bytes)
  sequence : ℕ
  (previousWalHash walHash : Bytes)
  frameBytes : ℕ
  deriving DecidableEq

inductive WalClass where
  | session | sessionEmergency | pruneTransition | roleGlobal

/-- `FORWARD_HTTPS_STORE_WAL_QUOTA_REGISTRY_V3`. -/
def walRegistry : ℕ → Option (StoreRole × WalClass)
  | 96 => some (.source, .session)
  | 97 => some (.source, .session)
  | 98 => some (.source, .session)
  | 99 => some (.source, .sessionEmergency)
  | 100 => some (.source, .pruneTransition)
  | 101 => some (.source, .roleGlobal)
  | 112 => some (.target, .session)
  | 113 => some (.target, .session)
  | 114 => some (.target, .session)
  | 115 => some (.target, .session)
  | 116 => some (.target, .session)
  | 117 => some (.target, .sessionEmergency)
  | 118 => some (.target, .pruneTransition)
  | 119 => some (.target, .roleGlobal)
  | _ => none

inductive Scope where
  | session | pruneTransition | roleGlobal
  deriving DecidableEq

/-- What `deriveForwardHttpsStoreWalQuotaEntryV3` says of a frame. -/
structure WalEntry where
  role : StoreRole
  scope : Scope
  stableSessionId : Option Bytes
  (walType walSequence : ℕ)
  payloadHash : Bytes
  (ordinaryLogicalCharge terminalLogicalCharge authorityBitmap : ℕ)
  authorityCommitments : List Bytes

section Derive

variable (C : Crypto)

/-- The authority vector that a terminal record leaves. -/
def terminalAuthority (role : StoreRole) (terminal : Terminal) (predecessor : Option Mirror)
    (walSequence : ℕ) (payloadHash : Bytes) : Except Failure (ℕ × List Bytes) :=
  if terminal.flags = 1 then do
    require ((predecessor.elim false Mirror.present) = false)
      (storeWal "flags1 minimal terminal requires a NEVER_SEEN predecessor")
    let commitment := terminal.minimalTerminalAuthorityCommitment.getD []
    pure (minimalTerminalBitmap, (zeroCommitments.set 7 (C.blake2b256 (domainRetentionLookup ++ commitment))).set 9
      (C.blake2b256 (domainTerminalState ++ commitment)))
  else do
    let mirror ← demand (predecessor.filter fun m => m.present && !m.consumed &&
        m.openPrefix != some .fresh && m.bitmap &&& 512 == 0)
      (storeWal "flags0 terminal requires a PRESENT_ALLOCATED predecessor")
    require (mirror.priorRevision = terminal.priorSessionRevision)
      (storeWal "flags0 terminal prior revision mismatch")
    let commitments := mirror.commitments.getD zeroCommitments
    pure (mirror.bitmap ||| 512, commitments.set 9 (C.blake2b256 (domainTerminalStateExisting ++
      [role.byte] ++ terminal.stableSessionId ++ ofNat 8 terminal.priorSessionRevision ++
      ofNat 4 mirror.bitmap ++ (commitments.take 9).flatten ++ ofNat 8 walSequence ++
      payloadHash)))

/-- `deriveForwardHttpsStoreWalQuotaEntryV3`, with a claim that resolves the mirror of a session. -/
def deriveForwardHttpsStoreWalQuotaEntryV3 (role : StoreRole) (frame : WalFrame)
    (resolvePredecessor : Bytes → Option Mirror) : Except Failure WalEntry := do
  require (frame.payloadHash.length = 32) (typeError "frame.payloadHash must be exactly 32 bytes")
  require (frame.sequence < 2 ^ 64 ∧ frame.sequence ≠ 0) (typeError "frame.sequence is outside u64")
  require (1 ≤ frame.frameBytes ∧ frame.frameBytes ≤ maximumWalPayloadBytes + walFrameOverheadBytes)
    (typeError "frame.frameBytes is outside 1..16777440")
  require (frame.frameBytes = frame.payload.length + walFrameOverheadBytes)
    (storeWal "frame byte accounting is invalid")
  require (frame.payload.length ≤ maximumWalPayloadBytes) (storeWal "frame payload exceeds the profile ceiling")
  require (4 ≤ frame.payload.length) (storeWal "frame payload is truncated")
  require (frame.type ≤ 255) (typeError "frame.type is outside 0..255")
  let row ← demand ((walRegistry frame.type).filter fun row => row.1 == role)
    (storeWal "frame WAL type is unknown or cross-role")
  let entry : WalEntry :=
    { role := role
      scope := .session
      stableSessionId := none
      walType := frame.type
      walSequence := frame.sequence
      payloadHash := frame.payloadHash
      ordinaryLogicalCharge := 0
      terminalLogicalCharge := 0
      authorityBitmap := 0
      authorityCommitments := zeroCommitments }
  match row.2 with
  | .session =>
    if frame.type = 113 then do
      require (frame.payload.length = 118) (storeWal "type113 payload length is invalid")
      require (frame.payload.window 4 32 ≠ zero32) (typeError "type113 stableSessionId must be nonzero")
      pure { entry with
        ordinaryLogicalCharge := type113LogicalBytes
        stableSessionId := some (frame.payload.window 4 32) }
    else do
      require (36 ≤ frame.payload.length) (storeWal "session frame payload is truncated")
      require (frame.payload.window 4 32 ≠ zero32) (typeError "session stableSessionId must be nonzero")
      pure { entry with
        ordinaryLogicalCharge := frame.payload.length + frame.frameBytes
        stableSessionId := some (frame.payload.window 4 32) }
  | .sessionEmergency => do
    let terminal ← decodeFtm9Payload C frame.payload frame.type
    let authority ← terminalAuthority C role terminal (resolvePredecessor terminal.stableSessionId)
      frame.sequence frame.payloadHash
    pure { entry with
      terminalLogicalCharge := ftm9LogicalBytes
      stableSessionId := some terminal.stableSessionId
      authorityBitmap := authority.1
      authorityCommitments := authority.2 }
  | .pruneTransition => do
    let pruned ← decodeForwardHttpsRetentionPrunedV3 frame.payload
    require (pruned.role = role.byte) (storeWal "FPR9 role binding is invalid")
    pure { entry with
      scope := .pruneTransition
      ordinaryLogicalCharge := fpr9LogicalBytes
      stableSessionId := some pruned.stableSessionId
      authorityBitmap := pruned.beforeAuthorityBitmap }
  | .roleGlobal =>
    pure { entry with
      scope := .roleGlobal
      ordinaryLogicalCharge := frame.payload.length + frame.frameBytes }

end Derive

end HiveRelay.Quota
