import HiveRelay.Cell.Apply
import HiveRelay.Lib.Prog

/-!
# The engine in memory, and what its operations are written over

`BlindCellStorageEngine` keeps, beside what its log maintains, flags and ledgers that do not survive
a restart: which reservations have a body in flight, and the bodies that are staged for atomic puts.
Its operations are asynchronous: they give up control while a lock, the log or a file is awaited. The
values they take from outside — clock readings, random identifiers, abort signals, the results of
file I/O — are answers to queries.
-/

namespace HiveRelay.Cell

/-! ### Memory -/

/-- The `phase` of a staged atomic put. -/
inductive StagingPhase where
  | staging | staged | committing | committed | cancelled | ambiguous
  deriving DecidableEq

section Values

variable (B : Type)

/-- What `#atomicStagingInput` returns. -/
structure AtomicInput where
  storageSlot : B
  (allocationEpoch sizeClass leaseClass : ℕ)
  (declaredBlobHash createPublicKey renewPublicKey dropPublicKey allocationCommitment requestCommitment : B)
  profileId : ℕ
  resultBinding : Option (ResultBinding B)
  declaredBytes : ℕ
  deriving DecidableEq

/-- A `retained` object: the input of a staged atomic put and how far it has come. -/
structure Retained where
  input : AtomicInput B
  /-- `staged` is not `null`: there is a body on disk. -/
  staged : Bool
  phase : StagingPhase
  (released quotaReserved : Bool)
  expiresUnixMillis : ℕ
  /-- Its authority is in `ATOMIC_STAGED_PUTS` and in `atomicStagedLeases`. -/
  leased : Bool
  /-- The `activeOperations--` of its release has not run. -/
  live : Bool
  deriving DecidableEq

/-- What is recorded of the body of an atomic put that is handed to `publishOpaque`. -/
structure Publication where
  authority : ℕ
  /-- The clock reading with which the commit has passed its last check of the deadline. -/
  checkedUnixMillis : ℕ

/-- The fields of the engine and of its transaction store that the operations read, and a record of
what they have done. -/
structure Engine where
  state : State B
  /-- The entries whose `inFlight` is set, by `reservedWalSequence`. -/
  inFlight : List ℕ
  atomicStaging : AtomicStaging
  /-- The retained objects, by the number of their authority. -/
  retained : List (Retained B)
  /-- `transactionStore.walSequence`. -/
  walSequence : ℕ
  activeOperations : ℤ
  (closing snapshotting : Bool)
  /-- The operations that are under `#runOperation`. -/
  operations : ℤ
  /-- The bodies of atomic puts that were handed to `publishOpaque`. -/
  published : List Publication
  /-- The authorities whose `PUT_ATOMIC_COMMITTED` was handed to the log. -/
  appended : List ℕ

inductive LockKey where
  | spend (spendTag : B)
  | cell (storageSlot : B)
  | clock
  | quotaAtomicStaging
  deriving DecidableEq

/-- What `appendAndApply` hands to the transaction store; `fenced` when it comes with a
`prewriteFence`. -/
structure WalRequest extends AppendRequest B where
  fenced : Bool

end Values

/-! ### Queries -/

/-- What `stageOpaque` comes back with. -/
inductive StageResult where
  | staged
  /-- A `BlindOpaqueBodyError`; `deadlineExpired` when its code is `BODY_DEADLINE_EXPIRED`. -/
  | body (terminal deadlineExpired : Bool) (message : String)
  | failed (error : Failure)

/-- What a body that is read back comes to. -/
inductive ReadResult where
  | body
  /-- A `BlindWalIntegrityError`. -/
  | integrity (reason : IntegrityReason)
  | failed (error : Failure)

/-- What a `preCommitFence` does. -/
inductive FenceResult where
  | accepted | rejected | promise
  | threw (error : Failure)

/-- What the operations take from outside. -/
inductive Query where
  /-- `nowUnixMillis()`. -/
  | now
  /-- `newTransactionId()`. -/
  | transactionId
  /-- `signal.aborted`. -/
  | aborted
  /-- `preCommitFence()`. -/
  | fence
  | stageOpaque | publishOpaque | readOpaque | discardStaged | removeOpaque
  /-- `onBlindWriteAcknowledged`. -/
  | acknowledged
  /-- The next key of an iterator over a live map, or its end. -/
  | next

def Query.Answer (B : Type) : Query → Type
  | .now => ℕ
  | .transactionId => B
  | .aborted => Bool
  | .fence => FenceResult
  | .stageOpaque => StageResult
  | .publishOpaque => Except Failure B
  | .readOpaque => ReadResult
  | .discardStaged => Except Failure Unit
  | .removeOpaque => Unit
  | .acknowledged => Except Failure Unit
  | .next => Option B

/-- What the operations of the engine are written over. -/
def signature (B : Type) : Signature where
  Store := Engine B
  Query := Query
  Answer := Query.Answer B
  Key := LockKey B
  Request := WalRequest B
  Reply := Except Failure Unit

abbrev CellOp (B α : Type) : Type := Op (signature B) Failure α

variable {B : Type} [LinearOrder B] [Zero B]

/-! ### What every operation uses -/

/-- `throw`. -/
def fail {α : Type} (e : Failure) : CellOp B α := Op.throw e

/-- `this`. -/
def engine : CellOp B (Engine B) := Op.read

/-- Change the fields that the log does not maintain. -/
def modify (update : Engine B → Engine B) : CellOp B Unit := Op.modify update

def ask (q : Query) : CellOp B (q.Answer B) := Op.ask (S := signature B) q

def await (q : Query) : CellOp B (q.Answer B) := Op.await (S := signature B) q

def withLocks {α : Type} (keys : List (LockKey B)) (p : CellOp B α) : CellOp B α :=
  Op.withLocks keys p

def u64 (value : ℕ) (field : String) : Except Failure ℕ := do
  require (value ≤ maxU64) (failure .badEncoding (field ++ " is outside u64"))
  pure value

def integer (value minimum maximum : ℕ) (field : String) : Except Failure ℕ := do
  require (minimum ≤ value ∧ value ≤ maximum) (failure .badEncoding
    (field ++ " is outside " ++ toString minimum ++ ".." ++ toString maximum))
  pure value

/-- `fixed` with `nonzero` set. -/
def fixedNonzero (value : B) (field : String) : Except Failure B := do
  require (value ≠ 0) (failure .badEncoding (field ++ " must be nonzero"))
  pure value

/-- `u64(this.nowUnixMillis(), 'nowUnixMillis')`. -/
def nowUnixMillis : CellOp B ℕ := do
  let millis : ℕ ← ask .now
  Op.ofExcept (u64 millis "nowUnixMillis")

def nowEpochFromMillis (millis : ℕ) : Except Failure ℕ := do
  let millis ← u64 millis "nowUnixMillis"
  require (millis / sixHoursMillis ≤ maxU32) (failure .internal "clock is outside the version-1 epoch range")
  pure (millis / sixHoursMillis)

def newTransactionId : CellOp B B := ask .transactionId

def assertPutLive : CellOp B Unit := do
  let aborted : Bool ← ask .aborted
  if aborted then fail (failure .internal "CELL PUT crossed its authenticated abort fence")

/-- The text of a `readOnlyReason`. -/
def ReadOnlyReason.text : ReadOnlyReason → String
  | .recoveryGapReadOnly => "RECOVERY_GAP_READ_ONLY"
  | .recoveredQuotaExceeded => "RECOVERED_QUOTA_EXCEEDED"
  | .startupReferenceBoundExceeded => "STARTUP_REFERENCE_BOUND_EXCEEDED"
  | .stateRevisionExhausted => "STATE_REVISION_EXHAUSTED"
  | .ambiguousStaging => "AMBIGUOUS_STAGING_REQUIRES_RECOVERY"
  | .ambiguousPublish => "AMBIGUOUS_PUBLISH_REQUIRES_RECOVERY"
  | .ambiguousAtomicPublish => "AMBIGUOUS_ATOMIC_PUBLISH_REQUIRES_RECOVERY"
  | .clockTimerFailed => "CLOCK_TIMER_FAILED"
  | .chargedReadSweepFailed => "CHARGED_READ_SWEEP_FAILED"

def assertWritable (leaseMutation : Bool) : CellOp B Unit := do
  let e ← engine
  match e.state.readOnlyReason with
  | some reason => fail (failure .internal ("store is read-only: " ++ reason.text))
  | none =>
    if leaseMutation && e.state.clockUnsafe then
      fail (failure .busy "store clock is unsafe" true)

/-- Set `readOnlyReason`. -/
def Engine.setReadOnly (reason : ReadOnlyReason) (e : Engine B) : Engine B :=
  { e with state := { e.state with readOnlyReason := some reason } }

/-- The blob of a cell is acknowledged to the replication layer once its put is durable. -/
def Payload.acknowledges : Payload B → Bool
  | .putCommitted _ | .putAtomicCommitted _ => true
  | _ => false

def appendAndApply (transactionId : B) (virtualBucket : ℕ) (payload : Payload B)
    (fenced : Bool := false) : CellOp B Unit := do
  -- `encodeCanonical` throws before the request reaches the queue
  Op.ofExcept (require payload.Canonical (failure .plain "non-canonical cell WAL payload"))
  let reply : Except Failure Unit ← Op.append (S := signature B)
    { transactionId := transactionId, virtualBucket := virtualBucket, payload := payload,
      fenced := fenced }
  Op.ofExcept reply
  if payload.acknowledges then
    let acknowledged : Except Failure Unit ← await .acknowledged
    Op.ofExcept acknowledged

/-! ### Results -/

/-- What `resultView` returns. -/
structure ResultView (B : Type) where
  status : ResultOperation
  replay : Bool
  receiptEpoch : Option ℕ
  resultBinding : Option (ResultBinding B)
  resultIdentity : B
  cell : PublicCell B

/-- `resultView` of a spend entry. It throws on an entry that has no `resultCell`. -/
def SpendEntry.resultView (entry : SpendEntry B) (status : ResultOperation) (replay : Bool) :
    Except Failure (ResultView B) :=
  match entry.state with
  | .stored terms resultIdentity resultCell =>
    .ok ⟨status, replay, entry.committedEpoch, terms.resultBinding, resultIdentity, resultCell⟩
  | .renewed r =>
    .ok ⟨status, replay, entry.committedEpoch, r.resultBinding, r.resultIdentity, r.resultCell⟩
  | _ => .error (failure .plain "Cannot read properties of null")

/-- The slot of a `'committed'` entry. -/
def SpendEntry.committedSlot? (entry : SpendEntry B) : Option B :=
  match entry.state with
  | .stored terms _ _ => some terms.storageSlot
  | .renewed r => some r.storageSlot
  | _ => none

end HiveRelay.Cell
