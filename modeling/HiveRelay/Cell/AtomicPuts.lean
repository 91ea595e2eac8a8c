import HiveRelay.Cell.Puts

/-!
# Atomic puts

`stageAtomicCellPut` reads a body into a staging file and returns an authority; `commitAtomicCellPut`
publishes the body and commits the cell with one frame, or `cancelAtomicCellPut`, an expiry or `close`
gives the authority up. A staged body counts against a ledger that only exists in memory, and as an
active operation.
-/

namespace HiveRelay.Cell

variable {B : Type} [LinearOrder B] [Zero B]

/-! ### The ledger -/

section Ledger

variable (e : Engine B)

/-- Write the retained object of an authority. -/
def Engine.setRetained (n : ℕ) (update : Retained B → Retained B) : Engine B :=
  { e with retained := e.retained.modify n update }

/-- The retained object of an authority that is live: `ATOMIC_STAGED_PUTS.get(authority)`. -/
def Engine.leased? (n : ℕ) : Option (Retained B) :=
  e.retained[n]?.filter fun r => r.leased

/-- `this.atomicStaging` with the bytes of a body claimed. -/
def AtomicStaging.claim (a : AtomicStaging) (input : AtomicInput B) : AtomicStaging where
  bytes := a.bytes + input.declaredBytes
  items := a.items + 1
  byProfile := a.byProfile.set input.profileId ((a.byProfile.get? input.profileId).getD 0 + input.declaredBytes)

/-- `this.atomicStaging` with the bytes of a body given back. -/
def AtomicStaging.giveBack (a : AtomicStaging) (input : AtomicInput B) : AtomicStaging where
  bytes := a.bytes - input.declaredBytes
  items := a.items - 1
  byProfile :=
    let profileBytes := (a.byProfile.get? input.profileId).getD 0 - input.declaredBytes
    if profileBytes = 0 then a.byProfile.delete input.profileId
    else a.byProfile.set input.profileId profileBytes

/-- The claim of `stageAtomicCellPut` under the ledger's lock. -/
def Engine.claimStaging (n : ℕ) (input : AtomicInput B) : Engine B :=
  { e.setRetained n fun r => { r with quotaReserved := true } with
    atomicStaging := e.atomicStaging.claim input }

/-- The release of `#releaseAtomicStaging` under the ledger's lock. -/
def Engine.giveBackStaging (n : ℕ) (input : AtomicInput B) : Engine B :=
  { e.setRetained n fun r => { r with quotaReserved := false } with
    atomicStaging := e.atomicStaging.giveBack input }

/-- `this.activeOperations--` at the end of a release. -/
def Engine.endStaging (n : ℕ) : Engine B :=
  { e.setRetained n fun r => { r with live := false } with
    activeOperations := e.activeOperations - 1 }

/-- The authority is deleted from both maps, and its phase set. -/
def Engine.takeLease (n : ℕ) (phase : StagingPhase) : Engine B :=
  e.setRetained n fun r => { r with phase := phase, leased := false }

/-- Set the phase of a retained object. -/
def Engine.setPhase (n : ℕ) (phase : StagingPhase) : Engine B :=
  e.setRetained n fun r => { r with phase := phase }

/-- `this.activeOperations++` and the `retained` object of `stageAtomicCellPut`. -/
def Engine.beginStaging (input : AtomicInput B) : Engine B :=
  { e with
    activeOperations := e.activeOperations + 1
    retained := e.retained ++
      [{ input := input
         staged := false
         phase := .staging
         released := false
         quotaReserved := false
         expiresUnixMillis := 0
         leased := false
         live := true }] }

end Ledger

/-- `assertAccounting` of the engine as it is. -/
def checkAccounting : CellOp B Unit := do
  let e ← engine
  Op.ofExcept (assertAccounting e.atomicStaging e.state.accounting)

/-- The ledger part of `#releaseAtomicStaging`. -/
def settleStaging (n : ℕ) : CellOp B Unit := do
  let e ← engine
  match e.retained[n]? with
  | none => pure ()
  | some r =>
    if r.quotaReserved then
      withLocks [.quotaAtomicStaging] do
        modify fun e => e.giveBackStaging n r.input
        checkAccounting
    else pure ()

def releaseAtomicStaging (n : ℕ) (discard : Bool) : CellOp B Bool := do
  let e ← engine
  match e.retained[n]? with
  | none => pure false
  | some r =>
    if r.released then pure false
    else do
      modify fun e => e.setRetained n fun r => { r with released := true, leased := false }
      let discarded ← Op.attempt (if discard && r.staged then discardStaged else pure ())
      -- the two `finally` blocks: the count goes down however the ledger comes out
      let settled ← Op.attempt (settleStaging n)
      modify fun e => e.endStaging n
      Op.ofExcept settled
      Op.ofExcept discarded
      pure true

/-! ### Staging -/

/-- The input of `stageAtomicCellPut`. -/
structure StageCall (B : Type) where
  request : PutRequest B
  admissionProfileId : ℕ
  resultBinding : Option (ResultBinding B)

section Staging

variable (cfg : Config B)

def atomicStagingInput (call : StageCall B) : Except Failure (AtomicInput B) := do
  let resultBinding ← resultBindingBytes cfg call.resultBinding
  require resultBinding.isSome (failure .badEncoding "atomic CELL.PUT requires a profile-1 result binding")
  let profileId ← integer call.admissionProfileId 1 65535 "admissionProfileId"
  let allocation ← signedAllocation cfg call.request
  pure
    { storageSlot := call.request.storageSlot
      allocationEpoch := call.request.allocationEpoch
      sizeClass := call.request.sizeClass
      leaseClass := call.request.leaseClass
      declaredBlobHash := call.request.declaredBlobHash
      createPublicKey := call.request.createPublicKey
      renewPublicKey := call.request.renewPublicKey
      dropPublicKey := call.request.dropPublicKey
      allocationCommitment := allocation
      requestCommitment :=
        cfg.hashes.cellPutRequestCommitment allocation call.request.clientNonce
      profileId := profileId
      resultBinding := resultBinding
      declaredBytes := cellSizeClass call.request.sizeClass }

/-- The quota check of `stageAtomicCellPut`. -/
def checkStagingQuota (e : Engine B) (input : AtomicInput B) : Except Failure Unit :=
  let a := e.state.accounting
  require (a.storedBytes + a.stagingBytes + e.atomicStaging.bytes + input.declaredBytes ≤ cfg.quota.maxStoredBytes ∧
      a.stagingBytes + e.atomicStaging.bytes + input.declaredBytes ≤ cfg.quota.maxStagingBytes ∧
      (a.stagingByProfile.get? input.profileId).getD 0 +
        (e.atomicStaging.byProfile.get? input.profileId).getD 0 + input.declaredBytes ≤
          cfg.quota.maxStagingBytesPerProfile)
    (failure .busy "bounded atomic staging quota is full" true)

/-- `this.closing || this.snapshotting`. -/
def assertAdmitting : CellOp B Unit := do
  let e ← engine
  if e.closing || e.snapshotting then
    fail (failure .busy "store lifecycle is quiescing" true)

/-- The body of a staging, with what `stageOpaque` came to as an exception. -/
def stageOpaque (n : ℕ) : CellOp B Unit := do
  let result : StageResult ← await .stageOpaque
  match result with
  | .staged => modify fun e => e.setRetained n fun r => { r with staged := true }
  | .body terminal _ message =>
    fail { code := if terminal then .retryTerminal else .busy
           message := message
           retryable := !terminal }
  | .failed error => fail error

/-- The claim of `stageAtomicCellPut`. -/
def claimQuota (n : ℕ) (input : AtomicInput B) : CellOp B Unit :=
  withLocks [.quotaAtomicStaging] do
    let e ← engine
    Op.ofExcept (checkStagingQuota cfg e input)
    modify fun e => e.claimStaging n input

/-- The `try` block of `stageAtomicCellPut`. -/
def fillStaging (n : ℕ) (input : AtomicInput B) : CellOp B Unit := do
  claimQuota cfg n input
  let now ← nowUnixMillis
  Op.ofExcept (require (now + cfg.reservationMillis ≤ maxU64)
    (failure .busy "atomic staging deadline space is exhausted"))
  let expires := now + cfg.reservationMillis
  modify fun e => e.setRetained n fun r => { r with expiresUnixMillis := expires }
  stageOpaque n
  assertPutLive
  let e ← engine
  let expired := failure .busy "atomic staging expired or the store began closing before authority issue" true
  if e.closing then fail expired
  else do
    let now ← nowUnixMillis
    if expires ≤ now then fail expired
    else modify fun e => e.setRetained n fun r => { r with phase := .staged, leased := true }

def stageAtomicCellPut (call : StageCall B) : CellOp B ℕ := do
  assertAdmitting
  assertWritable true
  let input ← Op.ofExcept (atomicStagingInput cfg call)
  assertPutLive
  let e ← engine
  let n := e.retained.length
  modify fun e => e.beginStaging input
  let filled ← Op.attempt (fillStaging cfg n input)
  match filled with
  | .ok () => pure n
  | .error error => do
    let _ ← releaseAtomicStaging n true
    fail error

def cancelAtomicCellPut (n : ℕ) : CellOp B Bool := do
  let e ← engine
  match e.leased? n with
  | none => pure false
  | some r =>
    if r.phase = .staged then do
      modify fun e => e.takeLease n .cancelled
      releaseAtomicStaging n true
    else pure false

/-- Cancel every authority of a list that is due; the first failure. -/
def cancelEach (due : Retained B → Bool) : List ℕ → Option Failure → CellOp B (Option Failure)
  | [], failure => pure failure
  | n :: rest, failure => do
    let e ← engine
    match e.retained[n]? with
    | none => cancelEach due rest failure
    | some r =>
      if due r then do
        let cancelled ← Op.attempt (cancelAtomicCellPut n)
        match cancelled with
        | .ok _ => cancelEach due rest failure
        | .error error => cancelEach due rest (failure <|> some error)
      else cancelEach due rest failure

/-- The keys of `atomicStagedLeases`. -/
def Engine.leases (e : Engine B) : List ℕ :=
  (List.range e.retained.length).filter fun n => (e.leased? n).isSome

def rethrow (failure : Option Failure) : CellOp B Unit :=
  match failure with
  | none => pure ()
  | some error => fail error

def sweepExpiredAtomicStaging : CellOp B Unit := do
  let now ← nowUnixMillis
  let e ← engine
  let failure ← cancelEach (fun r => r.phase = .staged && r.expiresUnixMillis ≤ now) e.leases none
  rethrow failure

def runOperation {α : Type} (operation : CellOp B α) : CellOp B α := do
  assertAdmitting
  modify fun e => { e with
    activeOperations := e.activeOperations + 1, operations := e.operations + 1 }
  let result ← Op.attempt operation
  modify fun e => { e with
    activeOperations := e.activeOperations - 1, operations := e.operations - 1 }
  Op.ofExcept result

/-- `close`, until the engine is drained; what follows writes none of this. -/
def close : CellOp B Unit := do
  modify fun e => { e with closing := true }
  let e ← engine
  let failure ← cancelEach (fun _ => true) e.leases none
  Op.yield
  rethrow failure

/-! ### Committing -/

/-- The input of `commitAtomicCellPut`. -/
structure CommitCall (B : Type) where
  authority : ℕ
  preparedAdmission : PreparedAdmission B

def AtomicInput.terms (input : AtomicInput B) (prepared : PreparedAdmission B) : PutTerms B where
  __ := input
  preparedAdmission := prepared

/-- The type-17 frame, once the body is published. -/
def appendAtomic (n : ℕ) (input : AtomicInput B) (prepared : PreparedAdmission B) (fingerprint : B)
    (leaseEpoch : ℕ) (transactionId objectId : B) : CellOp B (ResultView B) := do
  let e ← engine
  modify fun e => { e with appended := n :: e.appended }
  appendAndApply transactionId (cfg.hashes.virtualBucket input.storageSlot) (.putAtomicCommitted
      { spendTag := prepared.spendTag
        requestCommitment := input.requestCommitment
        requestFingerprint := fingerprint
        terms := input.terms prepared
        blobObjectId := objectId
        leaseEpoch := leaseEpoch
        resultIdentity :=
          storedIdentity cfg (input.terms prepared) input.requestCommitment leaseEpoch
        committedEpoch := e.state.epochFloor })
  let e ← engine
  let committed ← Op.ofExcept (demand (e.state.spends.get? prepared.spendTag)
    (failure .plain "Cannot read properties of undefined"))
  let view ← Op.ofExcept (committed.resultView .stored false)
  modify fun e => e.setPhase n .committed
  let _ ← releaseAtomicStaging n false
  pure view

/-- Publication and the type-17 frame, one recovery unit. -/
def publishAtomic (n now : ℕ) (input : AtomicInput B) (prepared : PreparedAdmission B)
    (fingerprint : B) (leaseEpoch : ℕ) : CellOp B (ResultView B) := do
  let transactionId ← newTransactionId
  let published ← Op.attempt do
    modify fun e => { e with published := ⟨n, now⟩ :: e.published }
    let reference : Except Failure B ← await .publishOpaque
    let objectId ← Op.ofExcept reference
    appendAtomic cfg n input prepared fingerprint leaseEpoch transactionId objectId
  match published with
  | .ok view => pure view
  | .error error => do
    modify fun e => (e.setPhase n .ambiguous).setReadOnly .ambiguousAtomicPublish
    let _ ← Op.attempt (releaseAtomicStaging (B := B) n true)
    fail error

/-- The last cancellable fence of `commitAtomicCellPut`. -/
def preCommitFence : CellOp B Unit := do
  let fence : FenceResult ← ask .fence
  match fence with
  | .accepted => assertPutLive
  | .rejected => fail (failure .internal "atomic CELL.PUT precommit fence rejected publication")
  | .promise => fail (failure .internal "atomic CELL.PUT precommit fence must be synchronous")
  | .threw error => fail error

/-- The checks of `commitAtomicCellPut` between the replay and the fence; the lease epoch. -/
def checkAtomicPut (e : Engine B) (input : AtomicInput B) (fingerprint : B) :
    Except Failure ℕ := do
  match e.state.commitments.get? input.requestCommitment with
  | some prior =>
    .error (failure (if prior.fingerprint = fingerprint then .spendReplay else .conflict)
      "atomic CELL.PUT request commitment is already used")
  | none => do
    require (e.state.cells.has input.storageSlot = false) (failure .conflict "cell slots are first-write-wins")
    checkWindow e.state input.allocationEpoch
    checkCreateQuota cfg e input.declaredBytes input.profileId input.declaredBytes
    leaseEpochFor e.state input.leaseClass

/-- The result of an atomic put whose spend tag is already there. -/
def atomicReplay (s : State B) (spendTag requestCommitment fingerprint : B) :
    Except Failure (Option (ResultView B)) :=
  match s.spends.get? spendTag with
  | none => pure none
  | some existing => spendReplay s (some existing) requestCommitment fingerprint

/-- The body of `commitAtomicCellPut` under its locks. -/
def commitAtomicLocked (n : ℕ) (prepared : PreparedAdmission B) (fingerprint : B) : CellOp B (ResultView B) := do
  let e ← engine
  match (e.leased? n).filter fun r => r.released = false ∧ r.phase = .staged with
  | none =>
    fail (failure .internal "atomic CELL.PUT was cancelled before its irreversible commit fence")
  | some r => do
    let now ← nowUnixMillis
    if r.expiresUnixMillis ≤ now then do
      modify fun e => e.takeLease n .cancelled
      let _ ← releaseAtomicStaging n true
      fail (failure .busy "atomic CELL.PUT staged authority expired while awaiting commit locks" true)
    else do
      let replay ← Op.ofExcept (atomicReplay e.state prepared.spendTag r.input.requestCommitment fingerprint)
      match replay with
      | some view => do
        modify fun e => e.takeLease n r.phase
        let _ ← releaseAtomicStaging n true
        pure view
      | none => do
        let leaseEpoch ← Op.ofExcept (checkAtomicPut cfg e r.input fingerprint)
        preCommitFence
        modify fun e => e.takeLease n .committing
        publishAtomic cfg n now r.input prepared fingerprint leaseEpoch

/-- The `try` block of `commitAtomicCellPut`. -/
def lockAndCommitAtomic (n : ℕ) (prepared : PreparedAdmission B) (fingerprint storageSlot : B) :
    CellOp B (ResultView B) := do
  assertPutLive
  let _ ← refreshClock
  assertWritable true
  withLocks [.spend prepared.spendTag, .cell storageSlot] (commitAtomicLocked cfg n prepared fingerprint)

def commitAtomicCellPut (call : CommitCall B) : CellOp B (ResultView B) := do
  let n := call.authority
  let e ← engine
  match e.leased? n with
  | none =>
    fail (failure .badEncoding "atomic CELL.PUT requires one live staged authority")
  | some r => do
    let now ← nowUnixMillis
    if r.expiresUnixMillis ≤ now then do
      let _ ← cancelAtomicCellPut n
      fail (failure .busy "atomic CELL.PUT staged authority expired before confirmation" true)
    else do
      let prepared ← Op.ofExcept (preparedAdmission call.preparedAdmission)
      if prepared.requestCommitment ≠ r.input.requestCommitment ∨ prepared.profileId ≠ r.input.profileId then do
        let _ ← cancelAtomicCellPut n
        fail (failure .spendInvalid "confirmed admission does not bind the exact staged CELL.PUT")
      else do
        let fingerprint :=
          (r.input.terms prepared).fingerprint cfg prepared.spendTag r.input.requestCommitment
        let result ← Op.attempt (lockAndCommitAtomic cfg n prepared fingerprint r.input.storageSlot)
        match result with
        | .ok view => pure view
        | .error error => do
          let e ← engine
          if (e.leased? n).isSome then do
            let _ ← cancelAtomicCellPut n
            fail error
          else fail error

end Staging

end HiveRelay.Cell
