import HiveRelay.Cell.Payload
import HiveRelay.Lib.OrderedMap

/-!
# The state of the core engine

The maps and counters of `BlindCoreStorageEngine` that its WAL frames maintain, and the payloads of
these frames: the accepted mirror attempts, the sponsored generation of each core and its floor, the
proof pins, the records of `CORE.OPEN` and the spends.

A generation is stored under two maps. `activeCores` forgets it when its lease expires, `coreFloors`
never does: it is what a later attempt is measured against. The source compares the two objects with
`!==`, so a generation carries the sequence number of the frame that created it, which is its
identity.
-/

namespace HiveRelay.Core

open Cell (PreparedAdmission ResultBinding maxU32 maxU64)

/-! ### Constants -/

def mebibyte : ℕ := 1024 * 1024

def maxProofBytes : ℕ := 4 * 1024 * 1024 - 256

def maxProofPinMillis : ℕ := 15 * 60 * 1000

def controlRecordBytes : ℤ := 512

def proofPinRecordBytes : ℤ := 1024

def spendTombstoneBytes : ℤ := 256

/-! ### Enumerations -/

/-- `CORE_ACK_RESULT`. -/
inductive AckResult where
  | mirrorAccepted | recentlyServed
  deriving DecidableEq

/-- The `operation` of a spend. -/
inductive Operation where
  | mirror | prove | openReplication
  deriving DecidableEq

/-- The `state` of a mirror attempt. -/
inductive AttemptState where
  | accepted | retryPending | active | terminal
  deriving DecidableEq

/-- `BLIND_CORE_OPEN_REPLICATION_LIFECYCLE_STATE`. -/
inductive LifecycleState where
  | reserved | live | terminal
  deriving DecidableEq

/-! ### Requests, acknowledgements and results -/

section Values

variable (B : Type)

/-- `coreMirrorRequestV1`. -/
structure MirrorRequest where
  corePublicKey : B
  (fork length : ℕ)
  signedHeadHash : B
  leaseClass : ℕ
  clientNonce : B
  deriving DecidableEq

/-- `coreServeChallengeV1`. -/
structure ServeChallenge where
  corePublicKey : B
  (fork length : ℕ)
  signedHeadHash : B
  blockIndices : List ℕ
  clientNonce : B

/-- `blindCoreAckV1`. -/
structure CoreAck where
  relayBinding : ResultBinding B
  corePublicKey : B
  (fork length : ℕ)
  signedHeadHash : B
  (observedAtEpoch leaseEpoch : ℕ)
  result : AckResult
  (requestNonce requestCommitment signature : B)
  deriving DecidableEq

/-- `coreOpenReplicationResultV1`. -/
structure OpenResult where
  relayBinding : ResultBinding B
  wireProfileHash : B
  (sessionClass controlChannelId : ℕ)
  parentChannelBinding : B
  (streamId maxSessionBytes idleMillis lifetimeMillis openedAtEpoch : ℕ)
  (requestNonce requestCommitment signature : B)

/-- `blindCoreOpenReplicationRetrySnapshotV1`, with its `resultBytes` decoded. -/
structure OpenSnapshot where
  lifecycleState : LifecycleState
  (logicalRetryKey spendTag requestCommitment wireProfileHash : B)
  sessionClass : ℕ
  (clientNonce parentSessionId : B)
  controlChannelId : ℕ
  parentChannelBinding : B
  (streamId maxSessionBytes idleMillis lifetimeMillis openedAtEpoch recordVirtualBucket : ℕ)
  result : Option (OpenResult B)
  terminalReason : Option String

structure Corpus where
  virtualBucket : ℕ
  objectId : B
  byteLength : ℕ
  hash : B
  deriving DecidableEq

/-! ### Payloads -/

/-- `mirrorAcceptedV1`. -/
structure MirrorAccepted where
  preparedAdmission : PreparedAdmission B
  request : MirrorRequest B
  result : CoreAck B
  (acceptedAtEpoch targetLeaseEpoch candidateRevision : ℕ)

/-- `mirrorActivatedV1`; its four `corpus` fields are one reference. -/
structure MirrorActivated where
  (spendTag corePublicKey : B)
  (fork length : ℕ)
  signedHeadHash : B
  (leaseEpoch stateRevision : ℕ)
  corpus : Corpus B
  activatedAtEpoch : ℕ

/-- `mirrorTerminalV1`. -/
structure MirrorTerminal where
  (spendTag requestCommitment : B)
  (terminalReason terminalAtEpoch : ℕ)

/-- `mirrorRetryPendingV1`. -/
structure MirrorRetryPending where
  (spendTag requestCommitment : B)
  (retryCount retryReason recordedAtEpoch : ℕ)

/-- `coreExpiredV1`. -/
structure CoreExpired where
  corePublicKey : B
  (stateRevision leaseEpoch : ℕ)
  corpus : Corpus B
  expiredAtEpoch : ℕ

/-- `provePinV1`. -/
structure ProvePinned where
  preparedAdmission : PreparedAdmission B
  request : ServeChallenge B
  acknowledgement : CoreAck B
  proofByteLength : ℕ
  proofHash : B
  (sourceStateRevision sourceLeaseEpoch : ℕ)
  sourceCorpus : Corpus B
  (pinnedAtUnixMillis expiresAtUnixMillis : ℕ)

/-- `provePinExpiredV1`. -/
structure ProvePinExpired where
  (spendTag requestCommitment : B)
  expiredAtUnixMillis : ℕ

/-- `openStateV1`. -/
structure OpenStateChange where
  preparedAdmission : PreparedAdmission B
  snapshot : OpenSnapshot B

/-- The types of `BLIND_CORE_WAL_TYPE` with their decoded payloads. -/
inductive Payload where
  | mirrorAccepted (value : MirrorAccepted B)
  | mirrorActivated (value : MirrorActivated B)
  | mirrorTerminal (value : MirrorTerminal B)
  | provePinned (value : ProvePinned B)
  | provePinExpired (value : ProvePinExpired B)
  | openState (value : OpenStateChange B)
  | mirrorRetryPending (value : MirrorRetryPending B)
  | coreExpired (value : CoreExpired B)

structure Frame where
  (sequence virtualBucket : ℕ)
  payload : Payload B

/-! ### The values of the maps -/

/-- A value of `spends`. -/
structure Spend where
  operation : Operation
  requestCommitment : B

/-- A value of `mirrorAttempts`. -/
structure MirrorAttempt where
  state : AttemptState
  (spendTag requestCommitment : B)
  request : MirrorRequest B
  result : CoreAck B
  (acceptedAtEpoch targetLeaseEpoch candidateRevision : ℕ)
  preparedAdmission : PreparedAdmission B
  (virtualBucket retryCount : ℕ)
  (terminalReason retryReason : Option ℕ)
  deriving DecidableEq

/-- A value of `activeCores` and of `coreFloors`. -/
structure CoreGeneration where
  corePublicKey : B
  (fork length : ℕ)
  signedHeadHash : B
  (leaseEpoch stateRevision : ℕ)
  corpus : Corpus B
  activatedAtEpoch : ℕ
  /-- The sequence number of the frame that created the generation: its identity. -/
  createdWalSequence : ℕ
  deriving DecidableEq

/-- A value of `proofPins`; `sourceCorpusHash` is the hash of `sourceCorpus`. -/
structure ProofPin where
  (spendTag requestCommitment : B)
  request : ServeChallenge B
  acknowledgement : CoreAck B
  proofByteLength : ℕ
  proofHash : B
  (sourceStateRevision sourceLeaseEpoch : ℕ)
  sourceCorpus : Corpus B
  (pinnedAtUnixMillis expiresAtUnixMillis virtualBucket : ℕ)

/-- A value of `openRecords`. -/
structure OpenRecord where
  snapshot : OpenSnapshot B
  preparedAdmission : PreparedAdmission B

/-- The options of the engine, and the functions of the protocol that it uses. -/
structure Config where
  relayPublicKey : B
  (maximumSponsoredCoreLength maximumCores maximumProofPins maximumSpendRecords : ℕ)
  /-- `coreMirrorRequestCommitment`, at the key of the relay. -/
  coreMirrorRequestCommitment : MirrorRequest B → B
  /-- `coreServeRequestCommitment`, at the key of the relay. -/
  coreServeRequestCommitment : ServeChallenge B → B
  /-- The signature of an acknowledgement verifies under the key of the relay. -/
  ackVerifies : CoreAck B → Bool
  /-- The signature of an open result verifies under the key of the relay. -/
  openResultVerifies : OpenResult B → Bool
  /-- The length of an encoded acknowledgement. -/
  ackByteLength : CoreAck B → ℕ
  /-- `virtualBucket(BLIND_STORE_SERVICE_TAG.CORE, key)`. -/
  virtualBucket : B → ℕ

end Values

/-! ### What the codecs check -/

section Codec

variable {B : Type} [DecidableEq B] [Zero B]

/-- The ranges of `preparedAdmissionStoreV1`. -/
def CanonicalAdmission (a : PreparedAdmission B) : Prop :=
  (1 ≤ a.profileId ∧ a.profileId ≤ 0xffff) ∧ (1 ≤ a.schemeId ∧ a.schemeId ≤ 0xffff) ∧
    a.resourceClass ≤ 0xffff ∧ a.leaseClass ≤ 0xff ∧ a.costUnits ≤ maxU64 ∧
    (1 ≤ a.walCommitRecord.length ∧ a.walCommitRecord.length ≤ 16384)
  deriving Decidable

/-- The ranges of `coreMirrorRequestV1` and its `validate`. -/
def MirrorRequest.Canonical (r : MirrorRequest B) : Prop :=
  r.corePublicKey ≠ 0 ∧ r.fork ≤ maxU64 ∧ (1 ≤ r.length ∧ r.length ≤ maxU64) ∧
    r.signedHeadHash ≠ 0 ∧ (1 ≤ r.leaseClass ∧ r.leaseClass ≤ 4)

/-- The ranges of `coreServeChallengeV1` and its `validate`. -/
def ServeChallenge.Canonical (r : ServeChallenge B) : Prop :=
  r.corePublicKey ≠ 0 ∧ r.fork ≤ maxU64 ∧ (1 ≤ r.length ∧ r.length ≤ maxU64) ∧
    r.signedHeadHash ≠ 0 ∧ (1 ≤ r.blockIndices.length ∧ r.blockIndices.length ≤ 16) ∧
    r.blockIndices.Pairwise (· < ·) ∧ ∀ index ∈ r.blockIndices, index < r.length

/-- The ranges of `blindCoreAckV1` and its `validate`. -/
def CoreAck.Canonical (a : CoreAck B) : Prop :=
  a.relayBinding.Canonical ∧ a.corePublicKey ≠ 0 ∧ a.fork ≤ maxU64 ∧ a.length ≤ maxU64 ∧
    a.signedHeadHash ≠ 0 ∧ a.observedAtEpoch ≤ maxU32 ∧ a.leaseEpoch ≤ maxU32

/-- `CORE_SESSION_CLASS`: the session bytes, the idle time and the lifetime of a class. -/
def coreSessionClass : ℕ → Option (ℕ × ℕ × ℕ)
  | 1 => some (16 * mebibyte, 30000, 10 * 60000)
  | 2 => some (64 * mebibyte, 60000, 30 * 60000)
  | 3 => some (256 * mebibyte, 120000, 60 * 60000)
  | _ => none

/-- The ranges of `coreOpenReplicationResultV1` and its `validate`. -/
def OpenResult.Canonical (r : OpenResult B) : Prop :=
  r.relayBinding.Canonical ∧
    coreSessionClass r.sessionClass = some (r.maxSessionBytes, r.idleMillis, r.lifetimeMillis) ∧
    (1 ≤ r.controlChannelId ∧ r.controlChannelId ≤ maxU64) ∧
    (1 ≤ r.streamId ∧ r.streamId ≤ maxU64) ∧ r.parentChannelBinding ≠ 0 ∧
    r.openedAtEpoch ≤ maxU32

/-- The ranges of `blindCoreOpenReplicationRetrySnapshotV1` and its `validate`. -/
def OpenSnapshot.Canonical (s : OpenSnapshot B) : Prop :=
  s.logicalRetryKey ≠ 0 ∧ s.spendTag ≠ 0 ∧ s.requestCommitment ≠ 0 ∧ s.wireProfileHash ≠ 0 ∧
    s.parentSessionId ≠ 0 ∧ s.parentChannelBinding ≠ 0 ∧
    (1 ≤ s.controlChannelId ∧ s.controlChannelId ≤ maxU64) ∧
    (1 ≤ s.streamId ∧ s.streamId ≤ maxU64) ∧
    coreSessionClass s.sessionClass = some (s.maxSessionBytes, s.idleMillis, s.lifetimeMillis) ∧
    s.openedAtEpoch ≤ maxU32 ∧ s.recordVirtualBucket ≤ 0xffff ∧
    (∀ r ∈ s.result, r.Canonical) ∧
    (∀ reason ∈ s.terminalReason, 1 ≤ reason.length ∧ reason.length ≤ 64) ∧
    (s.lifecycleState = .terminal ↔ s.terminalReason.isSome) ∧
    (s.lifecycleState ≠ .terminal → s.result.isSome)

/-- The ranges of a corpus reference. -/
def Corpus.Canonical (c : Corpus B) : Prop := c.virtualBucket ≤ 0xffff ∧ c.byteLength ≤ maxU32

/-- What `decodeCanonical` checks of a payload and of what is encoded in it. -/
def Payload.Canonical : Payload B → Prop
  | .mirrorAccepted v => CanonicalAdmission v.preparedAdmission ∧ v.request.Canonical ∧
      v.result.Canonical ∧ v.acceptedAtEpoch ≤ maxU32 ∧ v.targetLeaseEpoch ≤ maxU32 ∧
      v.candidateRevision ≤ maxU64
  | .mirrorActivated v => v.fork ≤ maxU64 ∧ v.length ≤ maxU64 ∧ v.leaseEpoch ≤ maxU32 ∧
      v.stateRevision ≤ maxU64 ∧ v.corpus.Canonical ∧ v.activatedAtEpoch ≤ maxU32
  | .mirrorTerminal v => (1 ≤ v.terminalReason ∧ v.terminalReason ≤ 4) ∧
      v.terminalAtEpoch ≤ maxU32
  | .provePinned v => CanonicalAdmission v.preparedAdmission ∧ v.request.Canonical ∧
      v.acknowledgement.Canonical ∧ v.proofByteLength ≤ maxU32 ∧ v.sourceStateRevision ≤ maxU64 ∧
      v.sourceLeaseEpoch ≤ maxU32 ∧ v.sourceCorpus.Canonical ∧ v.pinnedAtUnixMillis ≤ maxU64 ∧
      v.expiresAtUnixMillis ≤ maxU64
  | .provePinExpired v => v.expiredAtUnixMillis ≤ maxU64
  | .openState v => CanonicalAdmission v.preparedAdmission ∧ v.snapshot.Canonical
  | .mirrorRetryPending v => (1 ≤ v.retryCount ∧ v.retryCount ≤ 3) ∧
      (1 ≤ v.retryReason ∧ v.retryReason ≤ 2) ∧ v.recordedAtEpoch ≤ maxU32
  | .coreExpired v => v.stateRevision ≤ maxU64 ∧ v.leaseEpoch ≤ maxU32 ∧ v.corpus.Canonical ∧
      v.expiredAtEpoch ≤ maxU32

instance (r : MirrorRequest B) : Decidable r.Canonical := inferInstanceAs (Decidable (_ ∧ _))

instance (r : ServeChallenge B) : Decidable r.Canonical := inferInstanceAs (Decidable (_ ∧ _))

instance (a : CoreAck B) : Decidable a.Canonical := inferInstanceAs (Decidable (_ ∧ _))

instance (r : OpenResult B) : Decidable r.Canonical := inferInstanceAs (Decidable (_ ∧ _))

instance (s : OpenSnapshot B) : Decidable s.Canonical := inferInstanceAs (Decidable (_ ∧ _))

instance (c : Corpus B) : Decidable c.Canonical := inferInstanceAs (Decidable (_ ∧ _))

instance : (p : Payload B) → Decidable p.Canonical
  | .mirrorAccepted _ => inferInstanceAs (Decidable (_ ∧ _))
  | .mirrorActivated _ => inferInstanceAs (Decidable (_ ∧ _))
  | .mirrorTerminal _ => inferInstanceAs (Decidable (_ ∧ _))
  | .provePinned _ => inferInstanceAs (Decidable (_ ∧ _))
  | .provePinExpired _ => inferInstanceAs (Decidable (_ ≤ _))
  | .openState _ => inferInstanceAs (Decidable (_ ∧ _))
  | .mirrorRetryPending _ => inferInstanceAs (Decidable (_ ∧ _))
  | .coreExpired _ => inferInstanceAs (Decidable (_ ∧ _))

end Codec

/-! ### The engine -/

structure Accounting where
  (corpusBytes controlBytes proofPinBytes mirrorAttempts activeCores proofPins proofSpendTombstones : ℤ)
  (tombstoneBytes openRecords : ℤ)
  walSequence : ℕ

/-- What the frames of the log maintain. -/
structure State (B : Type) where
  spends : OrderedMap B (Spend B)
  mirrorAttempts : OrderedMap B (MirrorAttempt B)
  (activeCores coreFloors : OrderedMap B (CoreGeneration B))
  proofPins : OrderedMap B (ProofPin B)
  openRecords : OrderedMap B (OpenRecord B)
  openSpendIndex : OrderedMap B B
  accounting : Accounting

variable {B : Type} [DecidableEq B]

/-- The state that the constructor builds. -/
def State.initial : State B where
  spends := .empty
  mirrorAttempts := .empty
  activeCores := .empty
  coreFloors := .empty
  proofPins := .empty
  openRecords := .empty
  openSpendIndex := .empty
  accounting := ⟨0, 0, 0, 0, 0, 0, 0, 0, 0, 0⟩

end HiveRelay.Core
