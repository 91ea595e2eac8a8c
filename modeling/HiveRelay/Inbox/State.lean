import HiveRelay.Inbox.Payload
import HiveRelay.Lib.OrderedMap

/-!
# The state of the inbox engine

The maps and counters of `BlindInboxStorageEngine` that its WAL frames maintain: spends, the index
from request commitments to spends, the cached results of closes, the inboxes, their frames under
two keys, the retry pins of charged reads, the counters and the epoch floor.

As in the cell engine the fields of a spend entry that only some statuses have are the arguments of
the constructors of `SpendState`. What no frame sets is not part of the state: the waiters of
`WATCH` calls, and the counters of the frame bodies that are being staged (`Staging`).
-/

namespace HiveRelay.Inbox

open Cell (PreparedAdmission ResultBinding ObjectState PolicyState)

section Values

variable (B : Type)

/-- The fields of an entry that an append creates. -/
structure AppendTerms where
  frameClass : ℕ
  frameHash : B
  declaredBytes : ℕ
  resultIdentity : B
  (resultRevision committedEpoch retentionClassAtAppend appendLeaseEpoch expiresAtEpoch : ℕ)
  deriving DecidableEq

/-- The fields of an entry that a create or a renewal creates. -/
structure LeaseResult where
  resultIdentity : B
  (resultRevision resultLeaseClass resultLeaseEpoch committedEpoch : ℕ)
  deriving DecidableEq

/-- The fields of an entry that the finalization of a charged read sets. -/
structure ReadResult where
  resultIdentity : B
  (resultRevision committedEpoch : ℕ)
  resultCommitment : B
  deriving DecidableEq

/-- The `status` and the `operation` of a spend entry, with the fields they come with. -/
inductive SpendState where
  /-- `'committed'` by a create or, if `renewal`, by a renewal. -/
  | leased (renewal : Bool) (result : LeaseResult B)
  /-- `'append-provisional'`. -/
  | provisional (terms : AppendTerms B)
  /-- `'committed'` with the operation `APPEND`. -/
  | appended (terms : AppendTerms B) (ackSignature resultCommitment : B)
  /-- `'expired-append'`. -/
  | expiredAppend (terms : AppendTerms B) (ackSignature resultCommitment : B) (expiredEpoch : ℕ)
  /-- `'reserved'` by a charged read. -/
  | reserved (operation : Operation)
  /-- `'committed'` by a charged read, with its `retryState`: 1, or 3 when the pin has expired. -/
  | read (operation : Operation) (result : ReadResult B) (retryState : ℕ)
  /-- `'terminal'`: a charged read whose pin expired before it was finalized. -/
  | terminal (operation : Operation) (terminalEpoch : ℕ)
  deriving DecidableEq

/-- A value of `spends`. -/
structure SpendEntry where
  (transactionId spendTag requestCommitment requestFingerprint physicalTopic : B)
  (profileId requestedLeaseClass deadlineUnixMillis remainingAttempts reservedEpoch : ℕ)
  resultBinding : ResultBinding B
  clientNonce : B
  state : SpendState B

/-- A value of `commitments`. -/
structure CommitmentEntry where
  (spendKey fingerprint : B)

/-- A value of `requestResults`: the cached result of a close. -/
structure RequestResult where
  (transactionId requestCommitment physicalTopic resultIdentity : B)
  (resultRevision committedEpoch : ℕ)
  resultBinding : ResultBinding B
  clientNonce : B
  resultLeaseEpoch : ℕ

/-- A value of `inboxes`. -/
structure InboxRecord where
  physicalTopic : B
  (metadataVirtualBucket allocationEpoch allocationLeaseClass frameClassBits appendAuthMode : ℕ)
  appendPublicKey : Option B
  (createPublicKey renewPublicKey closePublicKey : B)
  (retentionClass leaseClass leaseEpoch stateRevision policyRevision : ℕ)
  /-- The last revision that readers see. -/
  appendRevision : ℕ
  /-- The last revision that was given to a frame. -/
  allocatedAppendRevision : ℕ
  createCommitment : B
  objectState : ObjectState
  policyState : PolicyState
  tombstoneReason : Option TombstoneReason
  terminalEpoch : Option ℕ
  (createSpendTag createRequestCommitment resultIdentity : B)
  createdEpoch : ℕ
  frameCount : ℤ
  closeRequestCommitment : Option B

/-- A value of `frames` and of the maps in `framesByTopic`. -/
structure StoredFrame where
  physicalTopic : B
  appendRevision : ℕ
  frameHash : B
  (frameClass frameVirtualBucket : ℕ)
  frameObjectId : B
  (appendLeaseEpoch storedAtEpoch expiresAtEpoch : ℕ)
  (spendTag requestCommitment resultIdentity : B)

/-- A value of `retryPins`. Its `entries` and its `pinnedEntries` list the same frames. -/
structure RetryPin where
  (spendTag requestCommitment physicalTopic : B)
  operation : Operation
  sourceRevision : ℕ
  sourceCommitment : B
  resultCommitment : Option B
  reconstruction : Reconstruction B
  (retryExpiresMinute retryState : ℕ)
  entries : List (PinEntry B)
  entriesCommitment : B
  nextCursor : Option Bytes
  resultBinding : ResultBinding B
  clientNonce : B
  committedEpoch : ℕ

end Values

/-- The counters of `accounting` that frames change. -/
structure Accounting where
  (storedFrameBytes controlBytes tombstoneBytes frameIndexBytes : ℤ)

/-- The counters of `accounting` that the bodies being staged change. -/
structure Staging where
  (stagingFrameBytes reservedFrames : ℤ)
  stagingByProfile : OrderedMap ℕ ℤ

/-- The values of `readOnlyReason`. -/
inductive ReadOnlyReason where
  | recoveryGapReadOnly | recoveredQuotaExceeded | startupReferenceBoundExceeded | clockTimerFailed
  deriving DecidableEq

/-- What the frames of the log maintain. -/
structure State (B : Type) where
  spends : OrderedMap B (SpendEntry B)
  commitments : OrderedMap B (CommitmentEntry B)
  requestResults : OrderedMap B (RequestResult B)
  inboxes : OrderedMap B (InboxRecord B)
  /-- `frames`, whose keys are made of a topic and a revision. -/
  frames : OrderedMap (B × ℕ) (StoredFrame B)
  framesByTopic : OrderedMap B (OrderedMap ℕ (StoredFrame B))
  retryPins : OrderedMap B (RetryPin B)
  accounting : Accounting
  integrityEvidence : List (IntegrityFailed B)
  epochFloor : ℕ
  readOnlyReason : Option ReadOnlyReason

def State.empty (B : Type) : State B where
  spends := .empty
  commitments := .empty
  requestResults := .empty
  inboxes := .empty
  frames := .empty
  framesByTopic := .empty
  retryPins := .empty
  accounting := ⟨0, 0, 0, 0⟩
  integrityEvidence := []
  epochFloor := 0
  readOnlyReason := none

/-- The counters of an engine that stages nothing. -/
def Staging.empty : Staging := ⟨0, 0, .empty⟩

variable {B : Type}

/-! ### Readings of entries and records -/

def SpendState.operation : SpendState B → Operation
  | .leased renewal _ => if renewal then .renew else .create
  | .provisional _ | .appended .. | .expiredAppend .. => .append
  | .reserved operation | .read operation .. | .terminal operation _ => operation

/-- `spend.status === 'committed'`. -/
def SpendState.isCommitted : SpendState B → Bool
  | .leased .. | .appended .. | .read .. => true
  | _ => false

/-- `spend.status === 'committed' || spend.status === 'expired-append'`. -/
def SpendState.isSettled : SpendState B → Bool
  | .leased .. | .appended .. | .read .. | .expiredAppend .. => true
  | _ => false

def SpendState.appendTerms? : SpendState B → Option (AppendTerms B)
  | .provisional terms | .appended terms .. | .expiredAppend terms .. => some terms
  | _ => none

/-- A charged read that has a retry pin: it is `'reserved'`, or `'committed'` with retry state 1. -/
def SpendState.hasPin : SpendState B → Bool
  | .reserved _ => true
  | .read _ _ retryState => retryState = 1
  | _ => false

/-- The test of `#framePinned` for one pin. -/
def RetryPin.pins [DecidableEq B] (pin : RetryPin B) (frame : StoredFrame B) : Bool :=
  pin.entries.any fun entry => entry.appendRevision = frame.appendRevision ∧
    pin.physicalTopic = frame.physicalTopic ∧ entry.frameHash = frame.frameHash

def State.framePinned [DecidableEq B] (s : State B) (frame : StoredFrame B) : Bool :=
  s.retryPins.values.any fun pin => pin.pins frame

/-- `#publiclyVisible` of a record that is there. -/
def InboxRecord.Visible (record : InboxRecord B) (epochFloor : ℕ) : Prop :=
  record.objectState = .present ∧ record.policyState = .visible ∧ epochFloor ≤ record.leaseEpoch
  deriving Decidable

/-- `#publiclyVisible`: the record, if it is there and visible. -/
def publiclyVisible (record : Option (InboxRecord B)) (epochFloor : ℕ) : Option (InboxRecord B) :=
  record.filter fun record => record.Visible epochFloor

end HiveRelay.Inbox
