import Mathlib.Order.Defs.LinearOrder
import HiveRelay.Lib.Bytes
import HiveRelay.Lib.Guard

/-!
# Cell WAL payloads

The payloads that `storage-engine.js` writes to its write-ahead log, one structure per codec, and
the hashes and checks that bind them.

A 32-byte value (a spend tag, a commitment, a public key, a digest) is an element of a linear order
`B` with a zero: the engine compares such values, tests them against `ZERO32`, orders them as
hexadecimal keys, and does nothing else with them. The digests are functions from what is hashed to
`B`, the fields of `Hashes`; where a proof needs one of them to be injective it says so, and `B` is
arbitrary so that it can be.

A byte field that holds the canonical encoding of a record (a prepared admission, a relay result
binding) is that record: decoding and re-encoding it is the identity, and bytes that do not decode
are refused. Fields that a codec fixes to one value (`version`, a fresh cell's revisions, the two
attempts of a reservation) are left out. What the codecs check beyond that, number ranges and the
`validate` functions, is `Payload.Canonical`.
-/

namespace HiveRelay.Cell

/-! ### Constants -/

def cellSizeClass : ℕ → ℕ
  | 1 => 4096
  | 2 => 16384
  | 3 => 65536
  | 4 => 262144
  | 5 => 1048576
  | _ => 0

def leaseEpochs : ℕ → ℕ
  | 1 => 4
  | 2 => 28
  | 3 => 120
  | 4 => 360
  | _ => 0

def clockMaxJumpEpochs : ℕ := 4

def expiryGraceEpochs : ℕ := 4

def retentionHorizonEpochs : ℕ := 1460

/-- `SIX_HOURS_MILLIS`, the length of an epoch. -/
def sixHoursMillis : ℕ := 21600000

def controlRecordBytes : ℕ := 512

def tombstoneRecordBytes : ℕ := 512

def maxU64 : ℕ := 2 ^ 64 - 1

def maxU32 : ℕ := 2 ^ 32 - 1

def maxSafeInteger : ℕ := 2 ^ 53 - 1

/-! ### Errors -/

/-- The codes of `BlindCellStorageError`, with `walIntegrity` for a `BlindWalIntegrityError` and
`plain` for an `Error` that has no code. -/
inductive ErrorCode where
  | badEncoding | badSlot | badCreateSig | badManagementSig | busy | conflict | internal | notFound
  | renewNotDue | retryTerminal | spendInvalid | spendReplay | staleRevision | tooLarge
  | walIntegrity | plain

structure Failure where
  code : ErrorCode
  message : String
  retryable : Bool
  /-- The `retryAfterEpoch` of a `RENEW_NOT_DUE`. -/
  retryAfterEpoch : Option ℕ := none

/-- `new BlindCellStorageError(code, message, retryable)`. -/
def failure (code : ErrorCode) (message : String) (retryable : Bool := false) : Failure where
  code := code
  message := message
  retryable := retryable

/-- `new BlindWalIntegrityError(message)`. -/
def integrityError (message : String) : Failure := failure .walIntegrity message

/-- A `try` block whose `catch` throws `new BlindWalIntegrityError(error.message)`. -/
def rethrown {α : Type} (x : Except Failure α) : Except Failure α :=
  x.mapError fun e => integrityError e.message

@[simp] theorem rethrown_eq_ok {α : Type} {x : Except Failure α} {a : α} : rethrown x = .ok a ↔ x = .ok a := by
  cases x <;> simp [rethrown, Except.mapError]

/-! ### Enumerations -/

inductive ObjectState where
  | present | tombstone
  deriving DecidableEq

inductive PolicyState where
  | visible | suppressed
  deriving DecidableEq

inductive TerminalReason where
  | invalidBody | attemptsExhausted | reservationExpired

inductive TombstoneReason where
  | ownerDrop | expiredGc

inductive CompactKind where
  | cell | spend | requestResult

inductive IntegrityReason where
  | missing | length | hash
  deriving DecidableEq

/-- The `direction` of a `CLOCK_UNSAFE` frame: the clock reads below the floor, or too far above. -/
inductive ClockDirection where
  | backward | forward
  deriving DecidableEq

/-- The charged operations of `OPERATION.CELL`. -/
inductive ReadOperation where
  | get | prove | batchGet
  deriving DecidableEq

/-! ### Records carried by payloads -/

section Records

variable (B : Type)

/-- `blindPreparedAdmissionStoreV1`. -/
structure PreparedAdmission where
  (spendTag requestCommitment : B)
  (profileId schemeId : ℕ)
  parameterHash : B
  (resourceClass leaseClass costUnits : ℕ)
  walCommitRecord : Bytes
  deriving DecidableEq

/-- `relayResultBindingV1`; of the external commit witness only whether there is one. -/
structure ResultBinding where
  (relayPublicKey storeId : B)
  descriptorSequence : ℕ
  descriptorHash : B
  durabilityProfileId : ℕ
  (durabilityContinuityHash durabilityProfileHash : B)
  restoreEvidenceHeadSequence : ℕ
  restoreEvidenceHeadHash : B
  externalCommitWitness : Bool
  deriving DecidableEq

/-- The argument of `allocationCommitment`. -/
structure Allocation where
  (relayPublicKey storageSlot : B)
  (allocationEpoch sizeClass leaseClass : ℕ)
  (declaredCellBlobHash createPublicKey renewPublicKey dropPublicKey : B)

/-- The two operations of `cellManageRequestCommitment`. -/
inductive ManageOperation where
  | cellRenew | cellDrop

/-- The argument of `cellManageRequestCommitment`. -/
structure ManageRequest where
  operation : ManageOperation
  (relayPublicKey storageSlot : B)
  (expectedRevision expectedLeaseEpoch requestedLeaseClass : ℕ)
  clientNonce : B

/-- The parts that `requestFingerprint` hashes, for each of its four callers. -/
inductive FingerprintParts where
  | put (spendTag requestCommitment storageSlot allocationCommitment declaredBlobHash : B)
      (declaredBytes leaseClass profileId : ℕ) (preparedHash : B)
  | renew (spendTag requestCommitment storageSlot : B)
      (expectedRevision expectedLeaseEpoch leaseClass profileId : ℕ) (preparedHash : B)
  | drop (requestCommitment storageSlot : B) (expectedRevision expectedLeaseEpoch : ℕ)
  | read (operationId : ReadOperation) (spendTag requestCommitment preparedHash : B)

/-- The operation word that `resultIdentity` hashes. -/
inductive ResultOperation where
  | stored | renewed | dropped

/-- The arguments of `resultIdentity`. -/
structure ResultParts where
  operation : ResultOperation
  (storageSlot requestCommitment cellBlobHash : B)
  (leaseClass leaseEpoch stateRevision : ℕ)

/-- One failure of `#evidenceHash`. -/
structure RepairFailure where
  locatorCommitment : B
  (virtualBucket expectedLength : ℕ)
  expectedHash : B
  reason : IntegrityReason

/-- The digests and the signature check of `blind-protocol` that the engine uses. -/
structure Hashes where
  cellStorageSlot : (allocationEpoch : ℕ) → (createPublicKey : B) → B
  allocationCommitment : Allocation B → B
  cellPutRequestCommitment : (allocationCommitment clientNonce : B) → B
  cellManageRequestCommitment : ManageRequest B → B
  requestFingerprint : FingerprintParts B → B
  resultIdentity : ResultParts B → B
  /-- `blake2b256` of the canonical bytes of a prepared admission. -/
  preparedHash : PreparedAdmission B → B
  /-- `hashParts(REPAIR_LOCATOR_DOMAIN, storageSlot)`. -/
  locatorCommitment : B → B
  evidenceHash : List (RepairFailure B) → B
  /-- `deriveBlindVirtualBucket(BLIND_STORE_SERVICE_TAG.CELL, storageSlot)`. -/
  virtualBucket : B → ℕ
  verifyEd25519 : (publicKey message signature : B) → Bool

/-- The `quota` of the engine. -/
structure Quota where
  (maxStoredBytes maxStagingBytes maxStagingBytesPerProfile maxControlBytes maxTombstoneBytes maxCells : ℕ)
  maxStartupReferences : ℕ

/-- The options of the engine that its operations read. -/
structure Config where
  hashes : Hashes B
  relayPublicKey : B
  storeId : Option B
  durabilityContinuityHash : B
  durabilityProfileHash : Option B
  reservationMillis : ℕ
  quota : Quota

/-- The fields that a reservation and an atomic put have in common: the cell that is put, the
admission that pays for it and the binding its result will carry. -/
structure PutTerms where
  storageSlot : B
  (allocationEpoch sizeClass leaseClass : ℕ)
  (declaredBlobHash createPublicKey renewPublicKey dropPublicKey allocationCommitment : B)
  profileId : ℕ
  preparedAdmission : PreparedAdmission B
  resultBinding : Option (ResultBinding B)
  declaredBytes : ℕ

/-- `chargedReadPinEntryV1`. -/
structure PinEntry where
  storageSlot : B
  present : Bool
  (sizeClass allocationEpoch leaseClass leaseEpoch stateRevision policyRevision : ℕ)
  (cellBlobHash allocationCommitment : B)
  deriving DecidableEq

/-! ### Payloads -/

/-- `ingressReservedV1`. -/
structure IngressReserved where
  (spendTag requestCommitment requestFingerprint : B)
  terms : PutTerms B
  (deadlineUnixMillis reservedEpoch : ℕ)

/-- `attemptConsumedV1`. -/
structure AttemptConsumed where
  (spendTag requestCommitment : B)
  remainingAttempts : ℕ

/-- `putCommittedV1`. -/
structure PutCommitted where
  (spendTag requestCommitment requestFingerprint storageSlot blobObjectId : B)
  leaseEpoch : ℕ
  resultBinding : Option (ResultBinding B)
  resultIdentity : B
  committedEpoch : ℕ

/-- `putTerminalV1`. -/
structure PutTerminal where
  (spendTag requestCommitment requestFingerprint : B)
  terminalReason : TerminalReason
  terminalEpoch : ℕ

/-- `renewCommittedV1`. -/
structure RenewCommitted where
  (spendTag requestCommitment requestFingerprint storageSlot : B)
  (profileId oldStateRevision newStateRevision oldLeaseEpoch newLeaseEpoch leaseClass : ℕ)
  preparedAdmission : PreparedAdmission B
  resultBinding : Option (ResultBinding B)
  resultIdentity : B
  committedEpoch : ℕ

/-- `dropCommittedV1`. -/
structure DropCommitted where
  (requestCommitment requestFingerprint storageSlot : B)
  (oldStateRevision newStateRevision oldLeaseEpoch : ℕ)
  resultBinding : Option (ResultBinding B)
  resultIdentity : B
  committedEpoch : ℕ

/-- `policyCommittedV1`. -/
structure PolicyCommitted where
  storageSlot : B
  (oldPolicyRevision newPolicyRevision : ℕ)
  policyState : PolicyState
  committedEpoch : ℕ

/-- `gcCommittedV1`. -/
structure GcCommitted where
  storageSlot : B
  (oldStateRevision newStateRevision expectedLeaseEpoch tombstoneEpoch : ℕ)

/-- `floorTransitionV1`. -/
structure FloorTransition where
  (oldEpochFloor newEpochFloor : ℕ)

/-- `clockUnsafeV1`. -/
structure ClockUnsafe where
  (epochFloor observedEpoch : ℕ)
  direction : ClockDirection

/-- `compactV1`. -/
structure Compact where
  entryKind : CompactKind
  key : B
  compactedEpoch : ℕ

/-- `integrityFailedV1`. -/
structure IntegrityFailed where
  reason : IntegrityReason
  detectedEpoch : ℕ
  evidenceHash : B
  deriving DecidableEq

/-- `chargedReadPinCommittedV1`. -/
structure ReadPinCommitted where
  operationId : ReadOperation
  (spendTag requestCommitment requestFingerprint : B)
  preparedAdmission : PreparedAdmission B
  resultBinding : ResultBinding B
  (receiptEpoch retryExpiresUnixMillis : ℕ)
  entries : List (PinEntry B)
  committedEpoch : ℕ

/-- `chargedReadPinFinalizedV1`. -/
structure ReadPinFinalized where
  (spendTag requestCommitment resultCommitment : B)
  finalizedEpoch : ℕ

/-- `chargedReadPinExpiredV1`. -/
structure ReadPinExpired where
  (spendTag requestCommitment : B)
  (retryExpiresUnixMillis observedUnixMillis terminalEpoch : ℕ)

/-- `blindPutAtomicCommittedStoreV1`; its `resultBindingBytes` are not optional. -/
structure PutAtomicCommitted where
  (spendTag requestCommitment requestFingerprint : B)
  terms : PutTerms B
  blobObjectId : B
  leaseEpoch : ℕ
  resultIdentity : B
  committedEpoch : ℕ

/-- The payload of a cell WAL frame, by `BLIND_CELL_WAL_TYPE`. -/
inductive Payload where
  | ingressReserved (value : IngressReserved B)
  | attemptConsumed (value : AttemptConsumed B)
  | putCommitted (value : PutCommitted B)
  | putTerminal (value : PutTerminal B)
  | renewCommitted (value : RenewCommitted B)
  | dropCommitted (value : DropCommitted B)
  | policyCommitted (value : PolicyCommitted B)
  | gcCommitted (value : GcCommitted B)
  | floorAdvance (value : FloorTransition)
  | clockUnsafe (value : ClockUnsafe)
  | clockConfirm (value : FloorTransition)
  | compact (value : Compact B)
  | integrityFailed (value : IntegrityFailed B)
  | readPinCommitted (value : ReadPinCommitted B)
  | readPinFinalized (value : ReadPinFinalized B)
  | readPinExpired (value : ReadPinExpired B)
  | putAtomicCommitted (value : PutAtomicCommitted B)

/-- What the engine hands to `appendAndApply` of the transaction store. -/
structure AppendRequest where
  transactionId : B
  virtualBucket : ℕ
  payload : Payload B

/-- A frame of the log: a request with the sequence number that the log gave it. -/
structure Frame extends AppendRequest B where
  sequence : ℕ

end Records

/-! ### What the codecs check -/

section Codec

variable {B : Type} [DecidableEq B] [Zero B]

/-- `PreparedAdmission` as its codec accepts it. -/
def PreparedAdmission.Canonical (p : PreparedAdmission B) : Prop :=
  p.spendTag ≠ 0 ∧ p.requestCommitment ≠ 0 ∧ p.parameterHash ≠ 0 ∧
    (1 ≤ p.profileId ∧ p.profileId ≤ 0xffff) ∧ (1 ≤ p.schemeId ∧ p.schemeId ≤ 0xffff) ∧
    p.resourceClass ≤ 0xffff ∧ p.leaseClass ≤ 0xff ∧ p.costUnits ≤ maxU64 ∧
    1 ≤ p.walCommitRecord.length ∧ p.walCommitRecord.length ≤ 16384

instance (p : PreparedAdmission B) : Decidable p.Canonical :=
  inferInstanceAs (Decidable (_ ∧ _))

/-- `ResultBinding` as its codec accepts it, for durability profile 1. -/
def ResultBinding.Canonical (b : ResultBinding B) : Prop :=
  b.relayPublicKey ≠ 0 ∧ b.storeId ≠ 0 ∧ b.descriptorHash ≠ 0 ∧ b.durabilityContinuityHash ≠ 0 ∧
    b.durabilityProfileHash ≠ 0 ∧ b.descriptorSequence ≤ maxU64 ∧
    b.restoreEvidenceHeadSequence ≤ maxU64 ∧
    (b.restoreEvidenceHeadSequence = 0 ↔ b.restoreEvidenceHeadHash = 0) ∧
    (b.durabilityProfileId = 1 → b.restoreEvidenceHeadSequence = 0 ∧ b.externalCommitWitness = false)

instance (b : ResultBinding B) : Decidable b.Canonical :=
  inferInstanceAs (Decidable (_ ∧ _))

def PutTerms.Canonical (t : PutTerms B) : Prop :=
  t.allocationEpoch ≤ maxU32 ∧ (1 ≤ t.sizeClass ∧ t.sizeClass ≤ 5) ∧
    (1 ≤ t.leaseClass ∧ t.leaseClass ≤ 4) ∧ (1 ≤ t.profileId ∧ t.profileId ≤ 0xffff) ∧
    t.declaredBytes ≤ maxU32
  deriving Decidable

/-- The ranges of a pin entry and its `validate`. -/
def PinEntry.Canonical (e : PinEntry B) : Prop :=
  e.sizeClass ≤ 5 ∧ e.allocationEpoch ≤ maxU32 ∧ e.leaseClass ≤ 4 ∧ e.leaseEpoch ≤ maxU32 ∧
    e.stateRevision ≤ maxU64 ∧ e.policyRevision ≤ maxU64 ∧
    (e.present = false → e.sizeClass = 0 ∧ e.allocationEpoch = 0 ∧ e.leaseClass = 0 ∧
      e.leaseEpoch = 0 ∧ e.stateRevision = 0 ∧ e.policyRevision = 0 ∧ e.cellBlobHash = 0 ∧
      e.allocationCommitment = 0) ∧
    (e.present = true → e.sizeClass ≠ 0 ∧ e.leaseClass ≠ 0 ∧ e.storageSlot ≠ 0 ∧
      e.cellBlobHash ≠ 0 ∧ e.allocationCommitment ≠ 0)

instance (e : PinEntry B) : Decidable e.Canonical :=
  inferInstanceAs (Decidable (_ ∧ _))

/-- What `encodeCanonical` and `decodeCanonical` check of a payload. -/
def Payload.Canonical : Payload B → Prop
  | .ingressReserved v => v.terms.Canonical ∧ v.deadlineUnixMillis ≤ maxU64 ∧
      v.reservedEpoch ≤ maxU32
  | .attemptConsumed v => v.remainingAttempts ≤ 1
  | .putCommitted v => v.leaseEpoch ≤ maxU32 ∧ v.committedEpoch ≤ maxU32
  | .putTerminal v => v.terminalEpoch ≤ maxU32
  | .renewCommitted v => (1 ≤ v.profileId ∧ v.profileId ≤ 0xffff) ∧ v.oldStateRevision ≤ maxU64 ∧
      v.newStateRevision ≤ maxU64 ∧ v.oldLeaseEpoch ≤ maxU32 ∧ v.newLeaseEpoch ≤ maxU32 ∧
      (1 ≤ v.leaseClass ∧ v.leaseClass ≤ 4) ∧ v.committedEpoch ≤ maxU32
  | .dropCommitted v => v.oldStateRevision ≤ maxU64 ∧ v.newStateRevision ≤ maxU64 ∧
      v.oldLeaseEpoch ≤ maxU32 ∧ v.committedEpoch ≤ maxU32
  | .policyCommitted v => v.oldPolicyRevision ≤ maxU64 ∧ v.newPolicyRevision ≤ maxU64 ∧
      v.committedEpoch ≤ maxU32
  | .gcCommitted v => v.oldStateRevision ≤ maxU64 ∧ v.newStateRevision ≤ maxU64 ∧
      v.expectedLeaseEpoch ≤ maxU32 ∧ v.tombstoneEpoch ≤ maxU32
  | .floorAdvance v => v.oldEpochFloor ≤ maxU32 ∧ v.newEpochFloor ≤ maxU32
  | .clockUnsafe v => v.epochFloor ≤ maxU32 ∧ v.observedEpoch ≤ maxU32
  | .clockConfirm v => v.oldEpochFloor ≤ maxU32 ∧ v.newEpochFloor ≤ maxU32
  | .compact v => v.compactedEpoch ≤ maxU32
  | .integrityFailed v => v.detectedEpoch ≤ maxU32
  | .readPinCommitted v => v.receiptEpoch ≤ maxU32 ∧ v.retryExpiresUnixMillis ≤ maxU64 ∧
      (1 ≤ v.entries.length ∧ v.entries.length ≤ 64) ∧ (∀ e ∈ v.entries, e.Canonical) ∧
      v.committedEpoch ≤ maxU32 ∧ (v.operationId ≠ .batchGet → v.entries.length = 1)
  | .readPinFinalized v => v.finalizedEpoch ≤ maxU32
  | .readPinExpired v => v.retryExpiresUnixMillis ≤ maxU64 ∧ v.observedUnixMillis ≤ maxU64 ∧
      v.terminalEpoch ≤ maxU32
  | .putAtomicCommitted v => v.terms.Canonical ∧ v.terms.resultBinding.isSome ∧
      v.leaseEpoch ≤ maxU32 ∧ v.committedEpoch ≤ maxU32 ∧ v.spendTag ≠ 0 ∧
      v.requestCommitment ≠ 0 ∧ v.requestFingerprint ≠ 0 ∧ v.terms.storageSlot ≠ 0 ∧
      v.terms.declaredBlobHash ≠ 0 ∧ v.terms.createPublicKey ≠ 0 ∧ v.terms.renewPublicKey ≠ 0 ∧
      v.terms.dropPublicKey ≠ 0 ∧ v.terms.allocationCommitment ≠ 0 ∧ v.blobObjectId ≠ 0 ∧
      v.resultIdentity ≠ 0

instance : (p : Payload B) → Decidable p.Canonical
  | .attemptConsumed _ | .putTerminal _ | .compact _ | .integrityFailed _ | .readPinFinalized _ =>
    inferInstanceAs (Decidable (_ ≤ _))
  | .ingressReserved _ | .putCommitted _ | .renewCommitted _ | .dropCommitted _
  | .policyCommitted _ | .gcCommitted _ | .floorAdvance _ | .clockUnsafe _ | .clockConfirm _
  | .readPinCommitted _ | .readPinExpired _ | .putAtomicCommitted _ =>
    inferInstanceAs (Decidable (_ ∧ _))

end Codec

/-! ### Encoded lengths -/

section Length

variable {B : Type}

/-- The bytes of a `compactUint`. -/
def compactUintLength (n : ℕ) : ℕ :=
  if n ≤ 0xfc then 1 else if n ≤ 0xffff then 3 else if n ≤ 0xffffffff then 5 else 9

/-- The bytes of a `boundedBytes` field of `n` bytes. -/
def boundedLength (n : ℕ) : ℕ := compactUintLength n + n

/-- The encoded length of a prepared admission: 112 fixed bytes and the commit record. -/
def PreparedAdmission.byteLength (p : PreparedAdmission B) : ℕ :=
  112 + boundedLength p.walCommitRecord.length

/-- The encoded length of a result binding of profile 1, which has no external witness. -/
def resultBindingLength : ℕ := 211

/-- The encoded length of a pin entry. -/
def pinEntryLength : ℕ := 123

/-- The encoded length of a `READ_PIN_COMMITTED` payload. -/
def ReadPinCommitted.byteLength (v : ReadPinCommitted B) : ℕ :=
  98 + boundedLength v.preparedAdmission.byteLength + boundedLength resultBindingLength + 12 +
    compactUintLength v.entries.length + v.entries.length * pinEntryLength + 4

/-- `CHARGED_READ_FINALIZATION_CONTROL_BYTES`, the encoded length of a `READ_PIN_FINALIZED`
payload. -/
def chargedReadFinalizationControlBytes : ℕ := 101

end Length

end HiveRelay.Cell
