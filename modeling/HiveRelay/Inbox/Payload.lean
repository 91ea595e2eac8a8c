import HiveRelay.Cell.Payload

/-!
# Inbox WAL payloads

The payloads that `inbox-storage-engine.js` writes to its write-ahead log, one structure per codec,
and the hashes and checks that bind them. As in the cell engine a 32-byte value is an element of a
type `B` with a zero, and a byte field that holds the canonical encoding of a record (a prepared
admission, a relay result binding) is that record; the two records are those of the cell engine.
-/

namespace HiveRelay.Inbox

open Cell (PreparedAdmission ResultBinding ObjectState PolicyState IntegrityReason leaseEpochs
  maxU32 maxU64 maxSafeInteger)

/-! ### Constants -/

def inboxFrameClass : ℕ → ℕ
  | 1 => 4096
  | 2 => 16384
  | 3 => 65536
  | _ => 0

def controlRecordBytes : ℕ := 512

def tombstoneRecordBytes : ℕ := 512

def frameIndexRecordBytes : ℕ := 256

def retryRecordBytes : ℕ := 256

def cursorMinutes : ℕ := 15

def maxReservationMillis : ℕ := 15 * 60 * 1000

/-! ### Errors -/

/-- The codes of `BlindInboxStorageError`, with `walIntegrity` for a `BlindWalIntegrityError` and
`plain` for an `Error` that has no code. -/
inductive ErrorCode where
  | badEncoding | busy | conflict | expired | internal | notFound | renewNotDue | retryTerminal
  | spendInvalid | spendReplay | staleRevision | tooLarge | walIntegrity | plain

structure Failure where
  code : ErrorCode
  message : String
  retryable : Bool
  /-- The `retryAfterEpoch` of a `RENEW_NOT_DUE`. -/
  retryAfterEpoch : Option ℕ := none

/-- `new BlindInboxStorageError(code, message, retryable)`. -/
def failure (code : ErrorCode) (message : String) (retryable : Bool := false) : Failure where
  code := code
  message := message
  retryable := retryable

/-- `new BlindWalIntegrityError(message)`. -/
def integrityError (message : String) : Failure := failure .walIntegrity message

/-! ### Enumerations -/

/-- `OPERATION.INBOX`. -/
inductive Operation where
  | create | renew | close | append | read | watch
  deriving DecidableEq

inductive TombstoneReason where
  | ownerClose | expiredGc

/-! ### Records carried by payloads -/

section Records

variable (B : Type)

/-- The parts that `requestFingerprint` hashes. -/
structure FingerprintParts where
  operation : Operation
  (spendTag requestCommitment physicalTopic : B)
  frameClass : ℕ
  frameHash : Option B
  (requestedLeaseClass profileId declaredBytes : ℕ)

/-- The arguments of `resultIdentity`. -/
structure ResultParts where
  operation : Operation
  (physicalTopic requestCommitment : B)
  resultRevision : ℕ
  resultHash : B
  committedEpoch : ℕ

/-- The fields of an inbox that its creator chooses. -/
structure CreateTerms where
  allocationEpoch : ℕ
  physicalTopic : B
  (frameClassBits appendAuthMode : ℕ)
  appendPublicKey : Option B
  (createPublicKey renewPublicKey closePublicKey : B)
  (retentionClass leaseClass : ℕ)

/-- `retryPinEntryV1`. -/
structure PinEntry where
  appendRevision : ℕ
  frameHash : B
  frameClass : ℕ
  frameObjectId : B
  deriving DecidableEq

/-- The `reconstruction` of a retry pin. -/
structure Reconstruction where
  (firstAppendRevision lastAppendRevision entryCount : ℕ)
  nextCursorHash : B

/-- `inboxAppendAckV1`. -/
structure AppendAck where
  relayBinding : ResultBinding B
  (topicCommitment frameHash : B)
  (appendRevision storedAtEpoch expiresAtEpoch : ℕ)
  (requestNonce requestCommitment signature : B)

/-- The digests and the signature checks that the engine uses. -/
structure Hashes where
  requestFingerprint : FingerprintParts B → B
  resultIdentity : ResultParts B → B
  retrySourceCommitment : (physicalTopic : B) → (sourceRevision : ℕ) → Reconstruction B → (pins : List (ℕ × B)) → B
  inboxPhysicalTopic : (allocationEpoch : ℕ) → (createPublicKey : B) → B
  /-- The digest at the end of `inboxCreateCommitment`. -/
  createDigest : (relayPublicKey : B) → CreateTerms B → B
  /-- `blake2b256` of a topic. -/
  topicDigest : B → B
  /-- `blake2b256` of a cursor. -/
  cursorDigest : Bytes → B
  /-- `blake2b256` of an encoded acknowledgement. -/
  ackDigest : AppendAck B → B
  /-- The signature of an acknowledgement verifies under its relay key. -/
  ackVerifies : AppendAck B → Bool
  inboxEntriesCommitment : List (PinEntry B) → B
  /-- `blake2b256` of a request commitment and a nonce. -/
  closeFingerprint : B → B → B
  /-- `virtualBucket(BLIND_STORE_SERVICE_TAG.INBOX, physicalTopic)`. -/
  virtualBucket : B → ℕ

/-- The `quota` of the engine. -/
structure Quota where
  (maxStoredFrameBytes maxStagingFrameBytes maxStagingFrameBytesPerProfile maxControlBytes maxTombstoneBytes : ℕ)
  (maxFrameIndexBytes maxInboxes maxFrames maxFramesPerTopic : ℕ)

/-- The options of the engine that its operations read. -/
structure Config where
  hashes : Hashes B
  relayPublicKey : B
  storeId : Option B
  durabilityContinuityHash : B
  durabilityProfileHash : Option B
  quota : Quota

/-- `spendFields`. -/
structure SpendTerms where
  (spendTag requestCommitment requestFingerprint : B)
  preparedAdmission : PreparedAdmission B
  (deadlineUnixMillis committedEpoch : ℕ)
  resultBinding : ResultBinding B

/-! ### Payloads -/

/-- `createCommittedV1`. -/
structure CreateCommitted where
  spend : SpendTerms B
  terms : CreateTerms B
  (clientNonce createCommitment : B)
  leaseEpoch : ℕ
  resultIdentity : B

/-- `renewCommittedV1`. -/
structure RenewCommitted where
  spend : SpendTerms B
  physicalTopic : B
  (oldStateRevision newStateRevision oldLeaseEpoch newLeaseEpoch leaseClass : ℕ)
  (clientNonce resultIdentity : B)

/-- `closeCommittedV1`. -/
structure CloseCommitted where
  (transactionId requestCommitment requestFingerprint physicalTopic : B)
  (oldStateRevision newStateRevision oldLeaseEpoch : ℕ)
  clientNonce : B
  committedEpoch : ℕ
  resultBinding : ResultBinding B
  resultIdentity : B

/-- `appendCommittedV1`. -/
structure AppendCommitted where
  spend : SpendTerms B
  physicalTopic : B
  frameClass : ℕ
  (frameHash frameObjectId clientNonce : B)
  (appendRevision appendLeaseEpoch expiresAtEpoch : ℕ)
  resultIdentity : B

/-- `readPinCommittedV1`. -/
structure ReadPinCommitted where
  operationId : Operation
  spend : SpendTerms B
  (physicalTopic clientNonce : B)
  snapshotRevision : ℕ
  entries : List (PinEntry B)
  entriesCommitment : B
  nextCursor : Option Bytes
  sourceCommitment : B
  retryExpiresMinute : ℕ

/-- `readPinFinalizedV1`. -/
structure ReadPinFinalized where
  (spendTag requestCommitment resultCommitment resultIdentity : B)
  finalizedEpoch : ℕ

/-- `appendAckFinalizedV1`. -/
structure AppendAckFinalized where
  (spendTag requestCommitment ackSignature resultCommitment : B)
  finalizedEpoch : ℕ

/-- `readPinExpiredV1`. -/
structure ReadPinExpired where
  (spendTag requestCommitment : B)
  (retryExpiresMinute terminalEpoch : ℕ)

/-- `floorAdvanceV1`. -/
structure FloorAdvance where
  (oldEpochFloor newEpochFloor : ℕ)

/-- `appendExpiredV1`. -/
structure AppendExpired where
  (transactionId spendTag requestCommitment requestFingerprint physicalTopic : B)
  (profileId appendRevision : ℕ)
  frameHash : B
  (frameClass declaredBytes deadlineUnixMillis remainingAttempts reservedEpoch : ℕ)
  (resultIdentity frameObjectId : B)
  (storedAtEpoch retentionClassAtAppend appendLeaseEpoch expiresAtEpoch expiredEpoch : ℕ)
  clientNonce : B
  resultBinding : ResultBinding B
  (ackSignature resultCommitment : B)

/-- `inboxGcV1`. -/
structure InboxGc where
  physicalTopic : B
  (oldStateRevision newStateRevision expectedLeaseEpoch terminalEpoch : ℕ)

/-- `policyCommittedV1`. -/
structure PolicyCommitted where
  physicalTopic : B
  (oldPolicyRevision newPolicyRevision : ℕ)
  policyState : PolicyState
  committedEpoch : ℕ

/-- `integrityFailedV1`. -/
structure IntegrityFailed where
  reason : IntegrityReason
  detectedEpoch : ℕ
  evidenceHash : B

/-- The payload of an inbox WAL frame, by `BLIND_INBOX_WAL_TYPE`. -/
inductive Payload where
  | createCommitted (value : CreateCommitted B)
  | renewCommitted (value : RenewCommitted B)
  | closeCommitted (value : CloseCommitted B)
  | appendCommitted (value : AppendCommitted B)
  | readPinCommitted (value : ReadPinCommitted B)
  | readPinFinalized (value : ReadPinFinalized B)
  | readPinExpired (value : ReadPinExpired B)
  | floorAdvance (value : FloorAdvance)
  | appendExpired (value : AppendExpired B)
  | inboxGc (value : InboxGc B)
  | policyCommitted (value : PolicyCommitted B)
  | integrityFailed (value : IntegrityFailed B)
  | appendAckFinalized (value : AppendAckFinalized B)

/-- A frame of the log, as far as the engine reads it. -/
structure Frame where
  transactionId : B
  virtualBucket : ℕ
  payload : Payload B

end Records

/-! ### What the codecs check -/

section Codec

variable {B : Type}

/-- `preparedAdmissionStoreV1`. -/
def CanonicalAdmission (p : PreparedAdmission B) : Prop :=
  (1 ≤ p.profileId ∧ p.profileId ≤ 0xffff) ∧ (1 ≤ p.schemeId ∧ p.schemeId ≤ 0xffff) ∧
    p.resourceClass ≤ 0xffff ∧ p.leaseClass ≤ 0xff ∧ p.costUnits ≤ maxU64 ∧
    1 ≤ p.walCommitRecord.length ∧ p.walCommitRecord.length ≤ 16384
  deriving Decidable

/-- The ranges of `spendFields`. -/
def SpendTerms.Canonical (t : SpendTerms B) : Prop :=
  t.deadlineUnixMillis ≤ maxU64 ∧ t.committedEpoch ≤ maxU32
  deriving Decidable

/-- The ranges of the fields that a creator chooses. -/
def CreateTerms.Canonical (t : CreateTerms B) : Prop :=
  t.allocationEpoch ≤ maxU32 ∧ (1 ≤ t.frameClassBits ∧ t.frameClassBits ≤ 7) ∧
    t.appendAuthMode ≤ 1 ∧ (1 ≤ t.retentionClass ∧ t.retentionClass ≤ 4) ∧
    (1 ≤ t.leaseClass ∧ t.leaseClass ≤ 4)
  deriving Decidable

def PinEntry.Canonical (e : PinEntry B) : Prop :=
  e.appendRevision ≤ maxU64 ∧ 1 ≤ e.frameClass ∧ e.frameClass ≤ 3
  deriving Decidable

/-- What `encodeCanonical` and `decodeCanonical` check of a payload. -/
def Payload.Canonical : Payload B → Prop
  | .createCommitted v => v.spend.Canonical ∧ v.terms.Canonical ∧ v.leaseEpoch ≤ maxU32
  | .renewCommitted v => v.spend.Canonical ∧ v.oldStateRevision ≤ maxU64 ∧
      v.newStateRevision ≤ maxU64 ∧ v.oldLeaseEpoch ≤ maxU32 ∧ v.newLeaseEpoch ≤ maxU32 ∧
      (1 ≤ v.leaseClass ∧ v.leaseClass ≤ 4)
  | .closeCommitted v => v.oldStateRevision ≤ maxU64 ∧ v.newStateRevision ≤ maxU64 ∧
      v.oldLeaseEpoch ≤ maxU32 ∧ v.committedEpoch ≤ maxU32
  | .appendCommitted v => v.spend.Canonical ∧ (1 ≤ v.frameClass ∧ v.frameClass ≤ 3) ∧
      v.appendRevision ≤ maxU64 ∧ v.appendLeaseEpoch ≤ maxU32 ∧ v.expiresAtEpoch ≤ maxU32
  | .readPinCommitted v => (v.operationId = .read ∨ v.operationId = .watch) ∧ v.spend.Canonical ∧
      v.snapshotRevision ≤ maxU64 ∧ v.entries.length ≤ 64 ∧ (∀ e ∈ v.entries, e.Canonical) ∧
      (∀ cursor ∈ v.nextCursor, 1 ≤ cursor.length ∧ cursor.length ≤ 128) ∧
      v.retryExpiresMinute ≤ maxU64
  | .readPinFinalized v => v.finalizedEpoch ≤ maxU32
  | .readPinExpired v => v.retryExpiresMinute ≤ maxU64 ∧ v.terminalEpoch ≤ maxU32
  | .floorAdvance v => v.oldEpochFloor ≤ maxU32 ∧ v.newEpochFloor ≤ maxU32
  | .appendExpired v => (1 ≤ v.profileId ∧ v.profileId ≤ 0xffff) ∧ v.appendRevision ≤ maxU64 ∧
      (1 ≤ v.frameClass ∧ v.frameClass ≤ 3) ∧ v.declaredBytes ≤ maxU32 ∧
      v.deadlineUnixMillis ≤ maxU64 ∧ v.remainingAttempts ≤ 1 ∧ v.reservedEpoch ≤ maxU32 ∧
      v.storedAtEpoch ≤ maxU32 ∧ (1 ≤ v.retentionClassAtAppend ∧ v.retentionClassAtAppend ≤ 4) ∧
      v.appendLeaseEpoch ≤ maxU32 ∧ v.expiresAtEpoch ≤ maxU32 ∧ v.expiredEpoch ≤ maxU32
  | .inboxGc v => v.oldStateRevision ≤ maxU64 ∧ v.newStateRevision ≤ maxU64 ∧
      v.expectedLeaseEpoch ≤ maxU32 ∧ v.terminalEpoch ≤ maxU32
  | .policyCommitted v => v.oldPolicyRevision ≤ maxU64 ∧ v.newPolicyRevision ≤ maxU64 ∧
      v.committedEpoch ≤ maxU32
  | .integrityFailed v => v.detectedEpoch ≤ maxU32
  | .appendAckFinalized v => v.finalizedEpoch ≤ maxU32

instance : (p : Payload B) → Decidable p.Canonical
  | .readPinFinalized _ | .integrityFailed _ | .appendAckFinalized _ =>
    inferInstanceAs (Decidable (_ ≤ _))
  | .createCommitted _ | .renewCommitted _ | .closeCommitted _ | .appendCommitted _
  | .readPinCommitted _ | .readPinExpired _ | .floorAdvance _ | .appendExpired _ | .inboxGc _
  | .policyCommitted _ => inferInstanceAs (Decidable (_ ∧ _))

end Codec

end HiveRelay.Inbox
