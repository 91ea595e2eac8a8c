import HiveRelay.Quota.SessionMirror

/-!
# The aggregate quota

An operation of a store is planned, reserved, bound to its actual buffers, applied frame by frame and
then committed; a tombstone is adjusted instead. This module has what the calls check and what they
do to a reservation and to the ledger of the two stores. What happens when they overlap is in
`Quota.Machine`.
-/

namespace HiveRelay.Quota

open Option HiveRelay.Except

/-! ### Roles and operations -/

/-- `FORWARD_HTTPS_AGGREGATE_QUOTA_ROLE_V3`; there is one capability for each role. -/
inductive QuotaRole where
  | sourceReplay | targetReplay | sourceStore | targetStore
  deriving DecidableEq

def QuotaRole.store? : QuotaRole → Option StoreRole
  | .sourceStore => some .source
  | .targetStore => some .target
  | _ => none

def QuotaRole.list : List QuotaRole := [.sourceReplay, .targetReplay, .sourceStore, .targetStore]

/-- The operations of stores and of replay journals. -/
inductive Operation where
  | openRecovery | prepare | result | turnFinal | processorRequestReady | processorPrepared
  | processorCompleted | sessionTerminal | quarantine | prune | bootstrap | reserve | consume | close
  deriving DecidableEq

/-- A row of `FORWARD_HTTPS_STORE_OPERATION_ROWS`. -/
structure OperationRow where
  role : Option StoreRole
  (logical physical removable knownInputMaximum : ℕ)

/-- `FORWARD_HTTPS_STORE_OPERATION_ROWS`. -/
def operationRow : Operation → Option OperationRow
  | .openRecovery => some ⟨none, 0, 0, 0, 16777440⟩
  | .prepare => some ⟨some .source, 33554656, 16777440, 1, 16777216⟩
  | .result => some ⟨some .source, 33554656, 16777440, 1, 16777216⟩
  | .turnFinal => some ⟨some .target, 33555116, 16777782, 2, 16777216⟩
  | .processorRequestReady => some ⟨some .target, 2362286, 1181591, 4, 16777216⟩
  | .processorPrepared => some ⟨some .target, 33554656, 16777440, 1, 16777216⟩
  | .processorCompleted => some ⟨some .target, 4683994, 2344461, 22, 16777216⟩
  | .sessionTerminal => some ⟨none, 608, 416, 0, 65976⟩
  | .quarantine => some ⟨none, 33554656, 16777440, 0, 16777216⟩
  | .prune => some ⟨none, 736, 480, 0, 256⟩
  | _ => none

/-- A row of `FORWARD_HTTPS_STORE_WAL_QUOTA_FRAME_ROWS`. -/
structure FrameRow where
  type113 : ℕ
  finalTypes : List ℕ

/-- `FORWARD_HTTPS_STORE_WAL_QUOTA_FRAME_ROWS`. -/
def frameRow : Operation → Option FrameRow
  | .openRecovery => some ⟨0, []⟩
  | .prepare => some ⟨0, [96, 97]⟩
  | .result => some ⟨0, [98]⟩
  | .turnFinal => some ⟨1, [112]⟩
  | .processorRequestReady => some ⟨3, [115]⟩
  | .processorPrepared => some ⟨0, [114]⟩
  | .processorCompleted => some ⟨21, [116]⟩
  | .sessionTerminal => some ⟨0, [99, 117]⟩
  | .quarantine => some ⟨0, [101, 119]⟩
  | .prune => some ⟨0, [100, 118]⟩
  | _ => none

/-- The type of a terminal record of a role. -/
def terminalType (role : QuotaRole) : ℕ := if role = .sourceStore then 99 else 117

def roleByte (role : QuotaRole) : UInt8 := if role = .sourceStore then 1 else 2

/-! ### Plans -/

/-- What `planFrom` keeps. -/
structure Plan where
  role : QuotaRole
  operation : Operation
  logicalBytes : ℤ
  physicalBytes : ℕ
  bindLogicalBytes : ℤ
  bindPhysicalBytes : ℕ
  commitments : List Bytes
  isProtected : Bool
  stableSessionId : Option Bytes
  terminalMinimal : Bool
  deriving DecidableEq

def onlyBuffer : List Bytes → Option Bytes
  | [buffer] => some buffer
  | _ => none

def bytesOf (buffers : List Bytes) : ℕ := (buffers.map List.length).sum

section Plans

variable (C : Crypto)

def createForwardHttpsReplayQuotaCostPlanV3 (role : QuotaRole) (operation : Operation)
    (encodedWriteBuffers : List Bytes) (existingDestinationBytes : ℕ)
    (temporaryAndDestinationCanCoexist : Bool) : Except Failure Plan := do
  require (role.store? = none) ⟨.authorityInvalid, "replay cost-plan role is invalid"⟩
  require (operation ∈ [Operation.bootstrap, .reserve, .consume, .quarantine, .prune, .close])
    (typeError "replay operation is invalid")
  require (encodedWriteBuffers ≠ []) (typeError "encodedWriteBuffers must be an array")
  let physical := bytesOf encodedWriteBuffers +
    if temporaryAndDestinationCanCoexist then existingDestinationBytes else 0
  pure
    { role := role
      operation := operation
      logicalBytes := 0
      physicalBytes := physical
      bindLogicalBytes := 0
      bindPhysicalBytes := physical
      commitments := encodedWriteBuffers.map (C.hmacSha256 zero32)
      isProtected := false
      stableSessionId := none
      terminalMinimal := false }

def createForwardHttpsStoreQuotaCostPlanV3 (role : QuotaRole) (operation : Operation)
    (knownInputBuffers temporaryWriteBuffers : List Bytes) (existingDestinationBytes : ℕ) :
    Except Failure Plan := do
  let storeRole ← demand role.store? ⟨.authorityInvalid, "store cost-plan role is invalid"⟩
  let row ← demand (operationRow operation) (typeError "store operation is invalid")
  require (row.role = none ∨ row.role = some storeRole)
    ⟨.invalid, "operation is inapplicable for the capability role"⟩
  require (bytesOf knownInputBuffers ≤ row.knownInputMaximum) ⟨.invalid, "known input exceeds the operation row"⟩
  let temporaryBytes := bytesOf temporaryWriteBuffers
  let physical := row.physical + temporaryBytes + existingDestinationBytes
  let plan : Plan :=
    { role := role
      operation := operation
      logicalBytes := row.logical
      physicalBytes := physical
      bindLogicalBytes := row.logical
      bindPhysicalBytes := physical
      commitments := (knownInputBuffers ++ temporaryWriteBuffers).map (C.hmacSha256 zero32)
      isProtected := false
      stableSessionId := none
      terminalMinimal := false }
  match operation with
  | .prune => do
    -- the net charge of the tombstone is known; only that of a consumed session is protected
    let tombstone ← demand (onlyBuffer knownInputBuffers)
      (typeError "PRUNE requires exactly one known tombstone buffer")
    let pruned ← decodeForwardHttpsRetentionPrunedV3 tombstone
    require (pruned.role = roleByte role) (storeWal "PRUNE tombstone role mismatch")
    pure { plan with
      logicalBytes := 736 - (pruned.removedOrdinaryLogicalBytes : ℤ)
      bindLogicalBytes := 736
      bindPhysicalBytes := 480 + temporaryBytes + existingDestinationBytes
      isProtected := decide (pruned.flags = 0 ∧ pruned.allocationDisposition = 0)
      stableSessionId := some (tombstone.window 8 32) }
  | .sessionTerminal => do
    let record ← demand (onlyBuffer knownInputBuffers)
      (typeError "SESSION_TERMINAL requires exactly one known FTM9 buffer")
    match decodeFtm9Payload C record (terminalType role) with
    | .error _ => .error (storeWal "SESSION_TERMINAL known buffer is not an exact role FTM9")
    | .ok terminal =>
      pure { plan with
        isProtected := true
        stableSessionId := some terminal.stableSessionId
        terminalMinimal := decide (terminal.flags = 1) }
  | .openRecovery => pure plan
  | .quarantine => pure plan
  | _ =>
    pure { plan with
      stableSessionId := (knownInputBuffers.head?.filter fun b => decide (36 ≤ b.length)).map fun b =>
        b.window 4 32 }

inductive PlanRequest where
  | replay (operation : Operation) (encodedWriteBuffers : List Bytes)
      (existingDestinationBytes : ℕ) (temporaryAndDestinationCanCoexist : Bool)
  | store (operation : Operation) (knownInputBuffers temporaryWriteBuffers : List Bytes)
      (existingDestinationBytes : ℕ)

def createPlan (role : QuotaRole) : PlanRequest → Except Failure Plan
  | .replay operation encoded existing coexist =>
    createForwardHttpsReplayQuotaCostPlanV3 C role operation encoded existing coexist
  | .store operation known temporary existing =>
    createForwardHttpsStoreQuotaCostPlanV3 C role operation known temporary existing

end Plans

/-! ### The ledger -/

structure Limits where
  (perStore aggregate slotCapacityPerRole : ℕ)

structure Ledger where
  logical : StoreRole → ℤ
  sessions : StoreRole → OrderedMap Bytes Mirror
  physical : QuotaRole → ℕ

/-- The sessions that the keys of a role lead to. -/
def Ledger.sessionsOf (ledger : Ledger) (role : QuotaRole) : OrderedMap Bytes Mirror :=
  match role.store? with
  | some storeRole => ledger.sessions storeRole
  | none => .empty

/-- A ledger with another value for a store. -/
def Ledger.setLogical (ledger : Ledger) (role : StoreRole) (bytes : ℤ) : Ledger :=
  { ledger with logical := Function.update ledger.logical role bytes }

/-- A ledger with other sessions for a store. -/
def Ledger.setSessions (ledger : Ledger) (role : StoreRole) (sessions : OrderedMap Bytes Mirror) :
    Ledger :=
  { ledger with sessions := Function.update ledger.sessions role sessions }

/-- The `unconsumed` count of `slotLiabilities`. -/
def unconsumed (sessions : OrderedMap Bytes Mirror) : ℕ :=
  (sessions.entries.map Prod.snd).countP fun m => m.present && !m.consumed

/-- The `consumedUnpruned` count of `slotLiabilities`. -/
def consumedUnpruned (sessions : OrderedMap Bytes Mirror) : ℕ :=
  (sessions.entries.map Prod.snd).countP fun m => m.present && m.consumed && !m.pruned

/-- What is kept free for the slots of a store. -/
def slotLogical (sessions : OrderedMap Bytes Mirror) : ℤ :=
  unconsumed sessions * 1344 + consumedUnpruned sessions * 736

/-- What is kept free on disk for the slots of a store. -/
def slotPhysical (sessions : OrderedMap Bytes Mirror) : ℤ :=
  unconsumed sessions * 896 + consumedUnpruned sessions * 480

/-- `planned` for the role that it is planned for. -/
def plannedFor (role planned : StoreRole) (bytes : ℤ) : ℤ := if role = planned then bytes else 0

def Ledger.allPhysical (ledger : Ledger) : ℤ := (QuotaRole.list.map ledger.physical).sum

def capacity (message : String) : Failure := ⟨.capacity, message⟩

def ensureQuota (limits : Limits) (ledger : Ledger) (role : Option QuotaRole) (logicalIncrease : ℤ)
    (physicalIncrease : ℕ) (protectedPlan : Bool) : Except Failure Unit :=
  if protectedPlan = true then pure ()
  else match role.bind QuotaRole.store? with
  | none =>
    require (ledger.allPhysical + physicalIncrease ≤ limits.aggregate) (capacity "aggregate physical quota exhausted")
  | some planned => do
    let logical (role : StoreRole) := ledger.logical role + plannedFor role planned logicalIncrease +
      slotLogical (ledger.sessions role)
    require (logical .source ≤ limits.perStore ∧ logical .target ≤ limits.perStore)
      (capacity "protected role logical inequality violated")
    let physical (role : StoreRole) (bytes : ℕ) := (bytes : ℤ) +
      plannedFor role planned physicalIncrease + slotPhysical (ledger.sessions role)
    require (physical .source (ledger.physical .sourceStore) ≤ limits.perStore ∧
        physical .target (ledger.physical .targetStore) ≤ limits.perStore)
      (capacity "protected role physical inequality violated")
    require (ledger.logical .source + ledger.logical .target + logicalIncrease +
        slotLogical (ledger.sessions .source) + slotLogical (ledger.sessions .target) ≤ limits.aggregate)
      (capacity "protected aggregate logical inequality violated")
    require (ledger.allPhysical + physicalIncrease + slotPhysical (ledger.sessions .source) +
        slotPhysical (ledger.sessions .target) ≤ limits.aggregate)
      (capacity "protected aggregate physical inequality violated")

/-! ### Reservations -/

/-- Why a reservation is one of a terminal record. -/
inductive TerminalKind where
  | requested
  | entryCap (stableSessionId : Bytes) (priorSessionRevision : ℕ)
  deriving DecidableEq

/-- The states of a live claim; a claim that is burned is in the last of them. -/
inductive ClaimState where
  | mintedUnbegun | pendingDurability | begun | synced | burned
  deriving DecidableEq

/-- What is kept of a reservation. The claims are listed by their ordinals. -/
structure Reservation where
  role : QuotaRole
  plan : Plan
  (bound burned walAttempted : Bool)
  (totalFrames nextOrdinal : ℕ)
  lastHandoff : Option ℕ
  claims : List ClaimState
  stableSessionId : Bytes
  terminal : Option TerminalKind
  lastAppliedHead : Option (ℕ × Bytes)
  derivedLogical : ℕ
  opRelease : Option ℕ
  requestCommitment : Option Bytes
  deriving DecidableEq

/-- The number of sessions of a store that are present. -/
def presentCount (sessions : OrderedMap Bytes Mirror) : ℕ :=
  (sessions.entries.map Prod.snd).countP Mirror.present

/-- The kind of the terminal record that a plan is reserved for. -/
def terminalKind (limits : Limits) (ledger : Ledger) (role : QuotaRole) (plan : Plan) :
    Except Failure (Option TerminalKind) :=
  let sessions := ledger.sessionsOf role
  if plan.operation = .sessionTerminal then do
    require (plan.terminalMinimal = true →
        ((plan.stableSessionId.bind sessions.get?).elim false Mirror.present) = false ∧
          presentCount sessions < limits.slotCapacityPerRole)
      (capacity "flags1 minimal terminal has no FREE session slot")
    pure (some .requested)
  else match plan.stableSessionId with
  | none => pure none
  | some stableSessionId => do
    let mirror := (sessions.get? stableSessionId).getD .unseen
    require (mirror.consumed = true → plan.operation = .prune)
      ⟨.terminal, "quota session identity is consumed; ordinary operations are TERMINAL"⟩
    let removable := (operationRow plan.operation).elim 0 OperationRow.removable
    if mirror.present = true ∧ mirror.consumed = false ∧ mirror.openPrefix ≠ some .fresh ∧
        maximumChargeEntries < mirror.chargeEntryCount + removable then
      pure (some (.entryCap stableSessionId mirror.priorRevision))
    else pure none

/-- What `reserveForwardHttpsAggregateQuotaV3` makes of a plan, after it has measured. -/
def reserved (limits : Limits) (ledger : Ledger) (role : QuotaRole) (plan : Plan) (ticket : ℕ) :
    Except Failure Reservation := do
  ensureQuota limits ledger (some role) plan.logicalBytes plan.physicalBytes plan.isProtected
  let terminal ← terminalKind limits ledger role plan
  pure
    { role := role
      plan := plan
      bound := false
      burned := false
      walAttempted := false
      totalFrames := 0
      nextOrdinal := 0
      lastHandoff := none
      claims := []
      stableSessionId := []
      terminal := terminal
      lastAppliedHead := none
      derivedLogical := 0
      opRelease := some ticket
      requestCommitment := none }

/-! ### Binding -/

/-- The actual buffers of an operation. -/
structure ActualBuffers where
  (logicalRecordBuffers encryptedPlaintextBuffers finalWalMetadataBuffers temporaryWriteBuffers : List Bytes)

/-- The logical bytes of the actual buffers. -/
def ActualBuffers.logicalBytes (input : ActualBuffers) : ℕ :=
  bytesOf (input.logicalRecordBuffers ++ input.encryptedPlaintextBuffers ++
    input.finalWalMetadataBuffers ++ input.temporaryWriteBuffers) + input.encryptedPlaintextBuffers.length * 218

/-- The physical bytes of the actual buffers. -/
def ActualBuffers.physicalBytes (input : ActualBuffers) : ℕ :=
  input.logicalBytes + input.encryptedPlaintextBuffers.length * 342 + 224

/-- The rows that the frames of a reservation have to be in. -/
def Reservation.frameRow (r : Reservation) : Option FrameRow :=
  match r.terminal with
  | some _ => Quota.frameRow .sessionTerminal
  | none => Quota.frameRow r.plan.operation

section Binding

variable (C : Crypto)

/-- The checks of the record that a terminal reservation is bound to. -/
def bindTerminal (r : Reservation) (role : QuotaRole) (prefixes : List Bytes) (finalPayload : Bytes) :
    Except Failure Unit :=
  match r.terminal with
  | none => pure ()
  | some kind => do
    require (prefixes = []) (storeWal "terminal reservation binds no prefix frames")
    match decodeFtm9Payload C finalPayload (terminalType role) with
    | .error _ => .error (storeWal "terminal reservation binds only an exact FTM9")
    | .ok terminal =>
      match kind with
      | .entryCap stableSessionId priorSessionRevision =>
        require (terminal.flags = 0 ∧ terminal.reason = ascii "BUDGET_EXHAUSTED" ∧
            terminal.stableSessionId = stableSessionId ∧
            terminal.priorSessionRevision = priorSessionRevision)
          (storeWal "terminal reservation frame is not the exact flags0 BUDGET_EXHAUSTED expectation")
      | .requested =>
        require ((terminal.flags = 1 ↔ r.plan.terminalMinimal = true) ∧
            terminal.stableSessionId = r.plan.stableSessionId.getD [])
          (storeWal "bound FTM9 does not match the reserved terminal plan")

/-- The checks of the tombstone that a reservation is bound to. -/
def bindPrune (sessions : OrderedMap Bytes Mirror) (stableSessionId finalPayload : Bytes) :
    Except Failure Unit := do
  let pruned ← decodeForwardHttpsRetentionPrunedV3 finalPayload
  let mirror := sessions.get? stableSessionId
  if pruned.flags = 0 then do
    require ((mirror.elim 0 Mirror.recoveryGraceUntilEpoch) < pruned.pruneEpochSeconds)
      (storeWal "FPR9 prune epoch has not passed the exact recovery grace")
    require ((mirror.elim false Mirror.present) = true) (storeWal "FPR9 tombstone has no recovered session state")
  else
    require (mirror.isSome = true ∧ (pruned.flags = 1 → mirror.bind Mirror.openPrefix = some .fresh) ∧
        (pruned.flags = 2 → mirror.bind Mirror.openPrefix = some .existing))
      (storeWal "FPR9 prefix variant does not match the recovered prefix class")

/-- `bindForwardHttpsStoreQuotaActualBuffersV3`, of a reservation that is valid for the role. -/
def bindForwardHttpsStoreQuotaActualBuffersV3 (ledger : Ledger) (role : QuotaRole) (r : Reservation)
    (input : ActualBuffers) : Except Failure Reservation := do
  require (r.bound = false) (storeWal "quota reservation is already bound")
  require (¬ ((input.logicalBytes : ℤ) > r.plan.bindLogicalBytes ∨ input.physicalBytes > r.plan.bindPhysicalBytes))
    (storeWal "actual buffers exceed the conservative plan")
  let row ← demand (r.frameRow.filter fun row => row.finalTypes != []) (storeWal "operation cannot bind WAL frames")
  let prefixes := input.encryptedPlaintextBuffers
  require (prefixes.length ≤ row.type113) (storeWal "type113 frame count exceeds the operation row")
  let finalPayload ← demand ((onlyBuffer input.finalWalMetadataBuffers).filter fun b =>
      decide (36 ≤ b.length)) (storeWal "exactly one operation final frame buffer is required")
  require (∀ b ∈ prefixes, b.length = 118) (storeWal "type113 frame payload must be exactly 118 bytes")
  bindTerminal C r role prefixes finalPayload
  let requestCommitment := prefixes.head?.map fun b => b.window 36 32
  require (∀ b ∈ prefixes, some (b.window 36 32) = requestCommitment)
    (storeWal "composite prefix requestCommitment is mixed")
  require (requestCommitment.isSome → 68 ≤ finalPayload.length ∧ some (finalPayload.window 36 32) = requestCommitment)
    (storeWal "composite final requestCommitment does not match the bound prefixes")
  let stableSessionId := if r.plan.operation = .prune ∨ r.plan.operation = .sessionTerminal ∨
      r.terminal ≠ none then finalPayload.window 8 32 else finalPayload.window 4 32
  require (stableSessionId ≠ zero32) (storeWal "bound session identity must be nonzero")
  if r.plan.operation = .prune then
    bindPrune (ledger.sessionsOf role) stableSessionId finalPayload
  pure { r with
    bound := true
    totalFrames := 1 + prefixes.length
    nextOrdinal := 0
    lastHandoff := none
    stableSessionId := stableSessionId
    claims := [.mintedUnbegun]
    requestCommitment := requestCommitment.or r.requestCommitment }

end Binding

/-! ### Frames -/

/-- What a call of `applyForwardHttpsAggregateQuotaWalFrameV3` comes to before its append. -/
inductive ApplyStart where
  /-- It throws, and nothing changes. -/
  | refused (error : Failure)
  /-- It throws, and fails the log when an append was attempted. -/
  | rejected (r : Reservation) (error : Failure)
  /-- The frame is appended. -/
  | appending (r : Reservation)
  deriving DecidableEq

/-- The session that the payload of a frame names. -/
def frameSession (type : ℕ) (payload : Bytes) : Option Bytes :=
  if type = 99 ∨ type = 117 ∨ type = 100 ∨ type = 118 then
    if 40 ≤ payload.length then some (payload.window 8 32) else none
  else if 36 ≤ payload.length then some (payload.window 4 32) else none

/-- An error for calls of a capability that does not hold what it shows. -/
def authorityInvalid (message : String) : Failure := ⟨.authorityInvalid, message⟩

/-- `applyForwardHttpsAggregateQuotaWalFrameV3` up to its append, of a claim of the reservation. -/
def beginApply (role : QuotaRole) (r : Reservation) (ordinal type : ℕ) (payload : Bytes) :
    ApplyStart :=
  match r.claims[ordinal]?.filter fun state => state != .burned with
  | none => .refused (authorityInvalid "composite apply presentation is forged")
  | some state =>
    if r.burned = true ∨ r.role ≠ role then
      .refused (authorityInvalid "composite apply presentation is forged")
    else if ordinal ≠ r.nextOrdinal ∨ r.totalFrames ≤ ordinal then
      .rejected r (authorityInvalid "composite apply ordinal is early, skipped, reordered or reused")
    else if type < 1 ∨ 255 < type then .refused (typeError "frame.type is outside 1..255")
    else if (ordinal < r.totalFrames - 1 ∧ type ≠ 113) ∨ (¬ ordinal < r.totalFrames - 1 ∧
        type ∉ (r.frameRow.elim [] FrameRow.finalTypes)) then
      .rejected r (storeWal "composite apply frame type does not match the bound ordinal")
    else if r.requestCommitment.isSome ∧ ¬ (68 ≤ payload.length ∧
        some (payload.window 36 32) = r.requestCommitment) then
      .rejected r (storeWal "composite frame requestCommitment does not match the bound prefixes")
    else if ordinal = 0 ∧ state ≠ .mintedUnbegun then
      .rejected r (authorityInvalid "ordinal0 claim is not MINTED_UNBEGUN")
    else if ordinal ≠ 0 ∧ ¬ (state = .pendingDurability ∧ r.lastHandoff = some ordinal) then
      .rejected r (authorityInvalid "ordinal handoff is not the sole prior PENDING_DURABILITY handoff")
    else
      -- `beginForwardHttpsAggregateQuotaWalAttemptV3`
      let begun := { r with
        walAttempted := true
        lastHandoff := none
        claims := r.claims.set ordinal .begun }
      if frameSession type payload ≠ some r.stableSessionId then
        .rejected begun (storeWal "composite apply frame session does not match the bound reservation")
      else .appending begun

section Applying

variable (C : Crypto)

/-- The sessions after a frame was appended; a tombstone leaves them alone until it is adjusted. -/
def appliedSessions (sessions : OrderedMap Bytes Mirror) (entry : WalEntry) (payload : Bytes) :
    Except Failure (OrderedMap Bytes Mirror) :=
  if entry.scope = .pruneTransition then pure sessions
  else applyEntryToSessionMirror C sessions entry payload

/-- `applyForwardHttpsAggregateQuotaWalFrameV3` after its append. -/
def applied (storeRole : StoreRole) (sessions : OrderedMap Bytes Mirror) (r : Reservation)
    (ordinal : ℕ) (durable : WalFrame) :
    Except Failure (Reservation × OrderedMap Bytes Mirror × WalEntry) := do
  require (durable.payloadHash.length = 32) (typeError "durable.payloadHash must be exactly 32 bytes")
  require (durable.walHash.length = 32) (typeError "durable.walHash must be exactly 32 bytes")
  require (r.claims[ordinal]? ≠ some .burned)
    (authorityInvalid "transition authority is forged, reused, cross-role or not SYNCED")
  let entry ← deriveForwardHttpsStoreWalQuotaEntryV3 C storeRole
    { durable with frameBytes := durable.payload.length + walFrameOverheadBytes } sessions.get?
  let sessions ← appliedSessions C sessions entry durable.payload
  let handoff := ordinal + 1 < r.totalFrames
  pure ({ r with
    nextOrdinal := r.nextOrdinal + 1
    lastHandoff := if handoff then some (ordinal + 1) else none
    claims := if handoff then r.claims.set ordinal .burned ++ [.pendingDurability]
      else r.claims.set ordinal .burned
    lastAppliedHead := some (entry.walSequence, durable.walHash)
    derivedLogical := r.derivedLogical + entry.ordinaryLogicalCharge + entry.terminalLogicalCharge },
    sessions, entry)

end Applying

/-! ### The ends of an operation -/

/-- What `commitForwardHttpsAggregateQuotaV3` checks before it burns a reservation. -/
def commitChecks (role : QuotaRole) (r : Reservation) (head : ℕ × Bytes) : Except Failure Unit := do
  require (r.plan.operation ≠ .prune) (storeWal "commit is forbidden for PRUNE; use adjust")
  require (r.bound = true → r.nextOrdinal = r.totalFrames ∧ r.lastHandoff = none)
    (storeWal "quota commit has a remaining claim or outstanding handoff")
  require (r.lastAppliedHead.isSome → r.lastAppliedHead = some head)
    (storeWal "quota commit durable head is not the exact applied head")
  require (r.bound = true ∨ role.store? = none) (storeWal "quota commit requires the bound final durability")

def committed (ledger : Ledger) (role : QuotaRole) (r : Reservation) : Ledger :=
  match role.store? with
  | none => ledger
  | some storeRole => ledger.setLogical storeRole
      (ledger.logical storeRole + if r.bound = true then (r.derivedLogical : ℤ) else r.plan.logicalBytes)

section Adjusting

variable (C : Crypto)

/-- What `adjustForwardHttpsAggregateQuotaV3` checks of the reservation that is pending. -/
def adjustChecks (sessions : OrderedMap Bytes Mirror) (role : QuotaRole) (r : Reservation)
    (tombstone : Bytes) (head : ℕ × Bytes) : Except Failure Tombstone := do
  require (r.burned = false ∧ r.role = role ∧ r.plan.operation = .prune)
    (authorityInvalid "quota adjustment has no pending PRUNE reservation")
  require (r.bound = true ∧ r.nextOrdinal = r.totalFrames ∧ r.lastHandoff = none)
    (storeWal "quota adjustment has a remaining claim or outstanding handoff")
  require (r.lastAppliedHead.isSome → r.lastAppliedHead = some head)
    (storeWal "quota adjustment durable head is not the exact applied head")
  require (C.hmacSha256 zero32 tombstone ∈ r.plan.commitments)
    (storeWal "quota adjustment tombstone commitment mismatch")
  let pruned ← decodeForwardHttpsRetentionPrunedV3 tombstone
  require (pruned.role = roleByte role) (storeWal "quota adjustment tombstone role mismatch")
  match matchFpr9AgainstMirror C (sessions.get? pruned.stableSessionId) pruned (roleByte role)
      pruned.stableSessionId with
  | .error mismatch =>
    .error (storeWal ("quota adjustment does not independently match: " ++ mismatch))
  | .ok _ => pure pruned

def adjusted (ledger : Ledger) (storeRole : StoreRole) (pruned : Tombstone) :
    Except Failure Ledger := do
  let sessions := (ledger.sessions storeRole).set pruned.stableSessionId (applyPrune C
    (((ledger.sessions storeRole).get? pruned.stableSessionId).getD .unseen) pruned)
  let next := ledger.logical storeRole - pruned.removedOrdinaryLogicalBytes + 736
  require (0 ≤ next) (storeWal "quota adjustment removal exceeds the exact ledger")
  pure ((ledger.setSessions storeRole sessions).setLogical storeRole next)

end Adjusting

/-! ### What the calls do to a reservation -/

section Specs

variable {C : Crypto} {ledger : Ledger} {role : QuotaRole} {r r' : Reservation}

/-- What a binding leaves of a reservation, and what it is bound to. -/
structure Bound (r r' : Reservation) : Prop where
  unbound : r.bound = false
  eq : ∃ frames session commitment, r' = { r with
    bound := true
    totalFrames := frames
    nextOrdinal := 0
    lastHandoff := none
    stableSessionId := session
    claims := [.mintedUnbegun]
    requestCommitment := commitment }
  terminal : r.terminal ≠ none → r'.totalFrames = 1
  prune : r.plan.operation = .prune → r.terminal = none ∧ r'.totalFrames = 1

theorem bound_of_bind {input : ActualBuffers}
    (h : bindForwardHttpsStoreQuotaActualBuffersV3 C ledger role r input = .ok r') : Bound r r' := by
  simp only [bindForwardHttpsStoreQuotaActualBuffersV3, guards_eq_ok, filter_eq_some_iff] at h
  obtain ⟨hbound, -, row, ⟨hrow, -⟩, hcount, finalPayload, -, -, _, hterminal, -, -, -, h⟩ := h
  have hone : r.terminal ≠ none → input.encryptedPlaintextBuffers = [] := by
    intro hne
    obtain ⟨kind, hkind⟩ := ne_none_iff_exists'.mp hne
    simp only [bindTerminal, hkind, guards_eq_ok] at hterminal
    exact hterminal.1
  -- a terminal record is no tombstone
  have hprune : r.plan.operation = .prune → r.terminal = none ∧ input.encryptedPlaintextBuffers = [] := by
    intro hoperation
    have hnone : r.terminal = none := by
      by_contra hne
      obtain ⟨kind, hkind⟩ := ne_none_iff_exists'.mp hne
      simp only [bindTerminal, hkind, guards_eq_ok] at hterminal
      obtain ⟨-, hterminal⟩ := hterminal
      split at hterminal
      · cases hterminal
      · next terminal hdecode =>
        simp only [decodeFtm9Payload, guards_eq_ok] at hdecode
        rw [if_pos hoperation] at h
        simp only [bindPrune, bind_eq_ok] at h
        obtain ⟨_, ⟨pruned, hpruned, -⟩, -⟩ := h
        simp only [decodeForwardHttpsRetentionPrunedV3, guards_eq_ok] at hpruned
        have hlength := hdecode.1.symm.trans hpruned.1
        exact absurd hlength (by decide)
    refine ⟨hnone, ?_⟩
    rw [Reservation.frameRow, hnone, hoperation] at hrow
    cases hrow
    exact List.length_eq_zero_iff.mp (Nat.le_zero.mp hcount)
  have hok : ∃ session, r' = { r with
      bound := true
      totalFrames := 1 + input.encryptedPlaintextBuffers.length
      nextOrdinal := 0
      lastHandoff := none
      stableSessionId := session
      claims := [.mintedUnbegun]
      requestCommitment := (input.encryptedPlaintextBuffers.head?.map fun b => b.window 36 32).or
        r.requestCommitment } := by
    split at h
    · simp only [guards_eq_ok] at h
      obtain ⟨_, -, rfl⟩ := h
      exact ⟨_, rfl⟩
    · simp only [pure_eq_ok_iff] at h
      exact ⟨_, h.symm⟩
  obtain ⟨session, rfl⟩ := hok
  refine ⟨hbound, ⟨_, _, _, rfl⟩, fun hne => ?_, fun hoperation => ⟨(hprune hoperation).1, ?_⟩⟩
  · show 1 + _ = 1
    rw [hone hne]
    rfl
  · show 1 + _ = 1
    rw [(hprune hoperation).2]
    rfl

/-- What holds when a frame is appended. -/
structure Begun (role : QuotaRole) (r : Reservation) (ordinal type : ℕ) (payload : Bytes)
    (begun : Reservation) : Prop where
  claim : ∃ state, r.claims[ordinal]? = some state ∧ state ≠ .burned
  burned_eq : r.burned = false
  role_eq : r.role = role
  ordinal_eq : ordinal = r.nextOrdinal
  ordinal_lt : ordinal < r.totalFrames
  type_range : 1 ≤ type ∧ type ≤ 255
  run : ordinal < r.totalFrames - 1 → type = 113
  final : ¬ ordinal < r.totalFrames - 1 → type ∈ r.frameRow.elim [] FrameRow.finalTypes
  session : frameSession type payload = some r.stableSessionId
  eq : begun = { r with
    walAttempted := true
    lastHandoff := none
    claims := r.claims.set ordinal .begun }

theorem begun_of_beginApply {ordinal type : ℕ} {payload : Bytes}
    (h : beginApply role r ordinal type payload = .appending r') :
    Begun role r ordinal type payload r' := by
  unfold beginApply at h
  split at h
  · cases h
  · next state hstate =>
    simp only [filter_eq_some_iff, bne_iff_ne, ne_eq] at hstate
    split at h
    · cases h
    split at h
    · cases h
    split at h
    · cases h
    split at h
    · cases h
    split at h
    · cases h
    split at h
    · cases h
    split at h
    · cases h
    split at h
    · cases h
    next hvalid hordinal hrange htype _ _ _ hsession =>
    rw [not_or] at hvalid hordinal hrange htype
    injection h with h
    exact
      { claim := ⟨state, hstate⟩
        burned_eq := by simpa using hvalid.1
        role_eq := not_ne_iff.mp hvalid.2
        ordinal_eq := not_ne_iff.mp hordinal.1
        ordinal_lt := by omega
        type_range := by omega
        run := fun hlt => by
          by_contra hne
          exact htype.1 ⟨hlt, hne⟩
        final := fun hnot => by
          by_contra hmem
          exact htype.2 ⟨hnot, hmem⟩
        session := not_ne_iff.mp hsession
        eq := h.symm }

/-- What a frame that was appended does. -/
structure Applied (C : Crypto) (storeRole : StoreRole) (sessions : OrderedMap Bytes Mirror)
    (r : Reservation) (ordinal : ℕ) (durable : WalFrame) (r' : Reservation)
    (sessions' : OrderedMap Bytes Mirror) (entry : WalEntry) : Prop where
  length_payloadHash : durable.payloadHash.length = 32
  length_walHash : durable.walHash.length = 32
  derive : deriveForwardHttpsStoreWalQuotaEntryV3 C storeRole
    { durable with frameBytes := durable.payload.length + walFrameOverheadBytes } sessions.get? = .ok entry
  sessions_eq : appliedSessions C sessions entry durable.payload = .ok sessions'
  eq : ∃ handoff claims, r' = { r with
    nextOrdinal := r.nextOrdinal + 1
    lastHandoff := handoff
    claims := claims
    lastAppliedHead := some (entry.walSequence, durable.walHash)
    derivedLogical := r.derivedLogical + entry.ordinaryLogicalCharge + entry.terminalLogicalCharge }

theorem applied_of_applied {storeRole : StoreRole} {sessions sessions' : OrderedMap Bytes Mirror}
    {ordinal : ℕ} {durable : WalFrame} {entry : WalEntry}
    (h : applied C storeRole sessions r ordinal durable = .ok (r', sessions', entry)) :
    Applied C storeRole sessions r ordinal durable r' sessions' entry := by
  simp only [applied, guards_eq_ok, Prod.mk.injEq] at h
  obtain ⟨hpayloadHash, hwalHash, -, entry₀, hderive, sessions₀, hsessions, hr, rfl, rfl⟩ := h
  exact ⟨hpayloadHash, hwalHash, hderive, hsessions, ⟨_, _, hr.symm⟩⟩

end Specs

end HiveRelay.Quota
