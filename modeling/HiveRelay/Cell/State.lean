import HiveRelay.Cell.Payload
import HiveRelay.Lib.OrderedMap
import HiveRelay.Lib.Heap

/-!
# The state of the cell engine

The maps and counters of `BlindCellStorageEngine` that its WAL frames maintain: spends, the index
from request commitments to spends, the cached results of drops, the cells, the accounting counters,
the clock, and the heap of charged-read pins by expiry.

A spend entry is one JavaScript object whose fields depend on its `status`; here the fields that
only some statuses have are the arguments of the constructors of `SpendState`, so an entry cannot
have a status without the data that goes with it. The `inFlight` flag of an entry and the staging
ledger of the atomic puts are volatile: no frame sets or reads them, and they are not part of this
state. An object's identity, which the source compares with `!==`, is the sequence number of the
frame that created the object.
-/

namespace HiveRelay.Cell

section Values

variable (B : Type)

/-- Where the body of a cell is stored. -/
structure BlobReference where
  virtualBucket : ℕ
  objectId : B

/-- A value of `cells`. -/
structure CellRecord where
  storageSlot : B
  (allocationEpoch sizeClass leaseClass leaseEpoch stateRevision policyRevision : ℕ)
  cellBlobHash : B
  blobReference : BlobReference B
  (createPublicKey renewPublicKey dropPublicKey allocationCommitment : B)
  objectState : ObjectState
  policyState : PolicyState
  tombstoneReason : Option TombstoneReason
  terminalEpoch : Option ℕ
  (createSpendTag resultIdentity : B)
  createdEpoch : ℕ
  /-- The identity of the record. -/
  createdWalSequence : ℕ

/-- What `publicCell` returns. -/
structure PublicCell where
  storageSlot : B
  (allocationEpoch sizeClass leaseClass leaseEpoch stateRevision policyRevision : ℕ)
  (cellBlobHash allocationCommitment : B)
  objectState : ObjectState
  policyState : PolicyState

/-- The fields of an entry that a reservation creates. -/
structure Reservation where
  terms : PutTerms B
  (deadlineUnixMillis remainingAttempts reservedEpoch : ℕ)

/-- The fields of an entry that a renewal creates. -/
structure RenewResult where
  storageSlot : B
  (expectedStateRevision expectedLeaseEpoch requestedLeaseClass profileId : ℕ)
  preparedAdmission : PreparedAdmission B
  resultBinding : Option (ResultBinding B)
  resultIdentity : B
  resultCell : PublicCell B

/-- The fields of an entry that a charged read creates. -/
structure ReadPin where
  operationId : ReadOperation
  preparedAdmission : PreparedAdmission B
  resultBinding : ResultBinding B
  (receiptEpoch retryExpiresUnixMillis : ℕ)
  entries : List (PinEntry B)
  controlBytes : ℕ

/-- The `status` and the `operation` of a spend entry, with the fields they come with. -/
inductive SpendState where
  /-- `'reserved'`. -/
  | reserved (reservation : Reservation B)
  /-- `'committed'` by a put: `operation` is `null` or absent. -/
  | stored (terms : PutTerms B) (resultIdentity : B) (resultCell : PublicCell B)
  /-- `'terminal'`. -/
  | terminal (reservation : Reservation B) (terminalReason : TerminalReason)
  /-- `'committed'` with the operation `'renew'`. -/
  | renewed (result : RenewResult B)
  /-- `'read-pinned'`. -/
  | readPinned (pin : ReadPin B)
  /-- `'read-finalized'`. -/
  | readFinalized (pin : ReadPin B) (resultCommitment : B)
  /-- `'read-expired'`: the retry state is cleared. -/
  | readExpired (operationId : ReadOperation) (retryExpiresUnixMillis : ℕ)

/-- A value of `spends`. -/
structure SpendEntry where
  (transactionId spendTag requestCommitment requestFingerprint : B)
  state : SpendState B
  (committedEpoch terminalEpoch : Option ℕ)
  /-- The sequence number of the frame that created the entry, which is also its identity. -/
  reservedWalSequence : ℕ

/-- A value of `commitments`. -/
structure CommitmentEntry where
  (spendKey fingerprint : B)

/-- A value of `requestResults`: the cached result of a drop. -/
structure RequestResult where
  (requestCommitment requestFingerprint storageSlot resultIdentity : B)
  resultBinding : Option (ResultBinding B)
  committedEpoch : ℕ
  transactionId : B
  resultCell : PublicCell B

/-- An element of `chargedReadExpiryHeap`. -/
structure ExpiryItem where
  retryExpiresUnixMillis : ℕ
  (spendKey transactionId : B)
  deriving DecidableEq

end Values

structure Accounting where
  (storedBytes stagingBytes controlBytes tombstoneBytes reservedCells : ℤ)
  stagingByProfile : OrderedMap ℕ ℤ

/-- `atomicStaging`, the ledger of the bodies staged for atomic puts. -/
structure AtomicStaging where
  (bytes items : ℤ)
  byProfile : OrderedMap ℕ ℤ

/-- The values of `readOnlyReason`. -/
inductive ReadOnlyReason where
  | recoveryGapReadOnly | recoveredQuotaExceeded | startupReferenceBoundExceeded
  | stateRevisionExhausted | ambiguousStaging | ambiguousPublish | ambiguousAtomicPublish
  | clockTimerFailed | chargedReadSweepFailed
  deriving DecidableEq

/-- What the frames of the log maintain. -/
structure State (B : Type) where
  spends : OrderedMap B (SpendEntry B)
  commitments : OrderedMap B (CommitmentEntry B)
  requestResults : OrderedMap B (RequestResult B)
  cells : OrderedMap B (CellRecord B)
  accounting : Accounting
  (epochFloor compactionWalHighWater : ℕ)
  clockUnsafe : Bool
  readOnlyReason : Option ReadOnlyReason
  integrityEvidence : List (IntegrityFailed B)
  chargedReadExpiryHeap : Array (ExpiryItem B)

def State.empty (B : Type) : State B where
  spends := .empty
  commitments := .empty
  requestResults := .empty
  cells := .empty
  accounting := ⟨0, 0, 0, 0, 0, .empty⟩
  epochFloor := 0
  compactionWalHighWater := 0
  clockUnsafe := false
  readOnlyReason := none
  integrityEvidence := []
  chargedReadExpiryHeap := #[]

def AtomicStaging.empty : AtomicStaging := ⟨0, 0, .empty⟩

variable {B : Type}

/-! ### Readings of entries and records -/

/-- The reservation of a `'reserved'` entry. -/
def SpendEntry.reservation? (e : SpendEntry B) : Option (Reservation B) :=
  match e.state with
  | .reserved r => some r
  | _ => none

/-- The pin of a `'read-pinned'` entry. -/
def SpendEntry.pinned? (e : SpendEntry B) : Option (ReadPin B) :=
  match e.state with
  | .readPinned pin => some pin
  | _ => none

/-- The pin of a `'read-pinned'` or `'read-finalized'` entry. -/
def SpendEntry.livePin? (e : SpendEntry B) : Option (ReadPin B) :=
  match e.state with
  | .readPinned pin => some pin
  | .readFinalized pin _ => some pin
  | _ => none

/-- `entry.controlBytes || CONTROL_RECORD_BYTES`. -/
def SpendEntry.controlBytes (e : SpendEntry B) : ℕ :=
  match e.livePin? with
  | some pin => if pin.controlBytes = 0 then controlRecordBytes else pin.controlBytes
  | none => controlRecordBytes

/-- `entry.terminalEpoch == null ? entry.committedEpoch : entry.terminalEpoch`. -/
def SpendEntry.ageEpoch (e : SpendEntry B) : Option ℕ :=
  match e.terminalEpoch with
  | some epoch => some epoch
  | none => e.committedEpoch

def publicCell (record : CellRecord B) : PublicCell B where
  __ := record

/-- `publiclyVisible` of a record that is there. -/
def CellRecord.Visible (record : CellRecord B) (epochFloor : ℕ) : Prop :=
  record.objectState = .present ∧ record.policyState = .visible ∧ epochFloor ≤ record.leaseEpoch + expiryGraceEpochs
  deriving Decidable

/-- `publiclyVisible`: the record, if it is there and visible. -/
def publiclyVisible (record : Option (CellRecord B)) (epochFloor : ℕ) : Option (CellRecord B) :=
  record.filter fun record => record.Visible epochFloor

def chargedReadPinEntry [Zero B] (storageSlot : B) (record : Option (CellRecord B)) (epochFloor : ℕ) : PinEntry B :=
  match publiclyVisible record epochFloor with
  | none =>
    { storageSlot := storageSlot
      present := false
      sizeClass := 0
      allocationEpoch := 0
      leaseClass := 0
      leaseEpoch := 0
      stateRevision := 0
      policyRevision := 0
      cellBlobHash := 0
      allocationCommitment := 0 }
  | some record =>
    { record with
      storageSlot := storageSlot
      present := true }

def chargedBatchResultBytes (resultBindingByteLength : ℕ) (entries : List (PinEntry B)) : ℕ :=
  162 + resultBindingByteLength + (entries.map fun e => if e.present then 2 + cellSizeClass e.sizeClass else 1).sum

def chargedResultBand (bytes : ℕ) : Except Failure ℕ :=
  if bytes ≤ 4 * 1024 then .ok 1
  else if bytes ≤ 16 * 1024 then .ok 2
  else if bytes ≤ 64 * 1024 then .ok 3
  else if bytes ≤ 256 * 1024 then .ok 4
  else if bytes ≤ 1024 * 1024 then .ok 5
  else if bytes ≤ 4 * 1024 * 1024 then .ok 6
  else .error (failure .tooLarge "charged batch result exceeds the operation result cap")

def expiryBefore [LinearOrder B] (left right : ExpiryItem B) : Bool :=
  left.retryExpiresUnixMillis < right.retryExpiresUnixMillis ||
    (left.retryExpiresUnixMillis = right.retryExpiresUnixMillis && left.spendKey < right.spendKey)

def pushExpiry [LinearOrder B] (heap : Array (ExpiryItem B)) (value : ExpiryItem B) : Array (ExpiryItem B) :=
  Heap.push expiryBefore heap value

def popExpiry [LinearOrder B] (heap : Array (ExpiryItem B)) : Option (ExpiryItem B × Array (ExpiryItem B)) :=
  Heap.pop expiryBefore heap

/-- The test of `#sweepExpiredChargedReadPins` under the spend lock: the entry and pin that a popped
candidate still stands for. -/
def expiryCandidate [DecidableEq B] (spends : OrderedMap B (SpendEntry B))
    (candidate : ExpiryItem B) (now : ℕ) : Option (SpendEntry B × ReadPin B) := do
  let entry ← spends.get? candidate.spendKey
  let pin ← entry.livePin?
  if entry.transactionId = candidate.transactionId ∧ pin.retryExpiresUnixMillis = candidate.retryExpiresUnixMillis ∧
      pin.retryExpiresUnixMillis ≤ now then some (entry, pin) else none

/-- What the expiry heap holds for a live pin. -/
def expiryItem (spendKey : B) (entry : SpendEntry B) (pin : ReadPin B) : ExpiryItem B where
  retryExpiresUnixMillis := pin.retryExpiresUnixMillis
  spendKey := spendKey
  transactionId := entry.transactionId

end HiveRelay.Cell
