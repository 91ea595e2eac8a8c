import HiveRelay.Cell.Engine

/-!
# Putting a cell

What the puts have in common: each begins with the clock, and each checks its input and the quota before
anything is claimed.

The loops over live maps ask for their next key (`Query.next`): which key that is, is left open.
-/

namespace HiveRelay.Cell

variable {B : Type} [LinearOrder B] [Zero B]

/-! ### The clock -/

/-- The `state` of a clock report. -/
inductive ClockState where
  | readOnly | clockUnsafe | ready

/-- What `refreshClock` and `confirmClock` return. -/
structure ClockReport where
  state : ClockState
  epochFloor : ℕ

/-- The body of `#refreshClock` under the clock lock. -/
def refreshClockLocked (observedEpoch : ℕ) : CellOp B ClockReport := do
  let e ← engine
  let floor := e.state.epochFloor
  if e.state.clockUnsafe then
    pure ⟨.clockUnsafe, floor⟩
  else if observedEpoch = floor then
    pure ⟨.ready, floor⟩
  else if observedEpoch < floor ∨ floor + clockMaxJumpEpochs < observedEpoch then do
    let transactionId ← newTransactionId
    appendAndApply transactionId 0 (.clockUnsafe
      { epochFloor := floor
        observedEpoch := observedEpoch
        direction := if observedEpoch < floor then .backward else .forward })
    let e ← engine
    pure ⟨.clockUnsafe, e.state.epochFloor⟩
  else do
    let transactionId ← newTransactionId
    appendAndApply transactionId 0 (.floorAdvance ⟨floor, observedEpoch⟩)
    let e ← engine
    pure ⟨.ready, e.state.epochFloor⟩

def refreshClock : CellOp B ClockReport := do
  let e ← engine
  if e.state.readOnlyReason.isSome then
    pure ⟨.readOnly, e.state.epochFloor⟩
  else do
    let millis : ℕ ← ask .now
    let observedEpoch ← Op.ofExcept (nowEpochFromMillis millis)
    withLocks [.clock] (refreshClockLocked observedEpoch)

/-! ### Checks -/

/-- The `request` of a put. -/
structure PutRequest (B : Type) where
  storageSlot : B
  (allocationEpoch sizeClass leaseClass : ℕ)
  (clientNonce declaredBlobHash createPublicKey renewPublicKey dropPublicKey createSignature : B)

section Checks

variable (cfg : Config B)

def validateDistinctKeys (createPublicKey renewPublicKey dropPublicKey : B) :
    Except Failure Unit := do
  let _ ← fixedNonzero createPublicKey "createPublicKey"
  let _ ← fixedNonzero renewPublicKey "renewPublicKey"
  let _ ← fixedNonzero dropPublicKey "dropPublicKey"
  require (createPublicKey ≠ renewPublicKey ∧ createPublicKey ≠ dropPublicKey ∧ renewPublicKey ≠ dropPublicKey)
    (failure .badEncoding "create, renew, and drop public keys must be distinct")

/-- The allocation that a put request asks for. -/
def PutRequest.allocation (request : PutRequest B) : Allocation B where
  __ := request
  relayPublicKey := cfg.relayPublicKey
  declaredCellBlobHash := request.declaredBlobHash

/-- The checks that `#putInput` and `#atomicStagingInput` share, from the management keys to the
create signature; the allocation commitment that is signed. -/
def signedAllocation (request : PutRequest B) : Except Failure B := do
  validateDistinctKeys request.createPublicKey request.renewPublicKey request.dropPublicKey
  let _ ← fixedNonzero request.storageSlot "storageSlot"
  let _ ← integer request.allocationEpoch 0 maxU32 "allocationEpoch"
  let _ ← integer request.sizeClass 1 5 "sizeClass"
  let _ ← integer request.leaseClass 1 4 "leaseClass"
  let _ ← fixedNonzero request.declaredBlobHash "declaredBlobHash"
  require (cfg.hashes.cellStorageSlot request.allocationEpoch request.createPublicKey =
      request.storageSlot) (failure .badSlot "storageSlot is not self-certifying")
  let allocation := cfg.hashes.allocationCommitment (request.allocation cfg)
  require (cfg.hashes.verifyEd25519 request.createPublicKey allocation request.createSignature)
    (failure .badCreateSig "cell create signature is invalid")
  pure allocation

/-- `#spendReplay`: the view of a committed result, or `none` for a live reservation. -/
def spendReplay (s : State B) (entry : Option (SpendEntry B)) (requestCommitment fingerprint : B) :
    Except Failure (Option (ResultView B)) := do
  let entry ← demand entry (failure .internal "spend state disappeared during a locked transaction")
  require (entry.requestCommitment = requestCommitment)
    (failure .spendReplay "spend tag is committed to another request")
  require (entry.requestFingerprint = fingerprint)
    (failure .conflict "request commitment was reused with inconsistent fields")
  match entry.state with
  | .stored .. | .renewed .. => do
    let record := entry.committedSlot?.bind s.cells.get?
    require ((publiclyVisible record s.epochFloor).isSome)
      (failure .retryTerminal "the committed result is no longer replayable")
    let view ← entry.resultView .stored true
    pure (some view)
  | .terminal .. =>
    .error (failure .retryTerminal "the ingress reservation reached a terminal state")
  | _ => pure none

def checkCreateQuota (e : Engine B) (declaredBytes profileId stagingCredit : ℕ) :
    Except Failure Unit := do
  let a := e.state.accounting
  let ephemeralBytes := e.atomicStaging.bytes - stagingCredit
  let ephemeralProfileBytes := (e.atomicStaging.byProfile.get? profileId).getD 0 - stagingCredit
  require (0 ≤ ephemeralBytes ∧ 0 ≤ ephemeralProfileBytes)
    (failure .internal "atomic staging quota credit is invalid")
  require (e.state.cells.size + a.reservedCells < cfg.quota.maxCells) (failure .busy "cell record quota is full" true)
  require (a.storedBytes + a.stagingBytes + ephemeralBytes + declaredBytes ≤
      cfg.quota.maxStoredBytes) (failure .busy "opaque storage quota is full" true)
  require (a.stagingBytes + ephemeralBytes + declaredBytes ≤ cfg.quota.maxStagingBytes)
    (failure .busy "global staging quota is full" true)
  require ((a.stagingByProfile.get? profileId).getD 0 + ephemeralProfileBytes + declaredBytes ≤
      cfg.quota.maxStagingBytesPerProfile)
    (failure .busy "generic admission-profile staging quota is full" true)
  require (a.controlBytes + controlRecordBytes ≤ cfg.quota.maxControlBytes)
    (failure .busy "control-record quota is full" true)
  require (a.tombstoneBytes + tombstoneRecordBytes ≤ cfg.quota.maxTombstoneBytes)
    (failure .busy "reserved tombstone quota is full" true)

def leaseEpochFor (s : State B) (leaseClass : ℕ) : Except Failure ℕ := do
  require (s.epochFloor + leaseEpochs leaseClass ≤ maxU32) (failure .busy "lease epoch space is exhausted")
  pure (s.epochFloor + leaseEpochs leaseClass)

/-- The allocation epoch is inside the window in which its slot may be put. -/
def InWindow (allocationEpoch floor : ℕ) : Prop :=
  allocationEpoch ≤ floor + 1 ∧ floor < allocationEpoch + retentionHorizonEpochs
  deriving Decidable

/-- The window check of `#putCell` and `commitAtomicCellPut`. -/
def checkWindow (s : State B) (allocationEpoch : ℕ) : Except Failure Unit :=
  require (InWindow allocationEpoch s.epochFloor) (failure .badSlot
    "allocation epoch is outside its accepted transport-capability window")

end Checks

def discardStaged : CellOp B Unit := do
  let discarded : Except Failure Unit ← await .discardStaged
  Op.ofExcept discarded

end HiveRelay.Cell
