import HiveRelay.Quota.WalRecords

/-!
# Session mirrors

The quota keeps a bounded mirror of each session: how many charge entries it has, their sum and the
chain over them, and the same for an open run of type 113 frames. `applyEntryToSessionMirror` moves a
mirror by one entry, `matchFpr9AgainstMirror` compares a tombstone with it, and a recovery sink
absorbs the frames of a log in their order.
-/

namespace HiveRelay.Quota

def mirrorEntry49 (entry : WalEntry) : Bytes :=
  Bytes.ofNat 1 entry.walType ++ Bytes.ofNat 8 entry.walSequence ++ entry.payloadHash ++
    Bytes.ofNat 8 entry.ordinaryLogicalCharge

/-- The commitment of the request in the payload of a session frame. -/
def payloadCommitment (payload : Bytes) : Option Bytes :=
  if 68 ≤ payload.length then some (payload.window 36 32) else none

/-- A mirror without the record of an open run. -/
def Mirror.closeRun (mirror : Mirror) : Mirror :=
  { mirror with
    openPrefix := none
    requestCommitment := none
    orphanCount := 0
    orphanSum := 0
    orphanLastRevision := 0
    orphanChain := none
    preRunChain := none
    postRunChain := none }

section Mirrors

variable (C : Crypto)

/-- The chain of a mirror, or the first one. -/
def chainOr (chain : Option Bytes) (role : UInt8) (stableSessionId : Bytes) : Bytes :=
  chain.getD (chargeChainInit C role stableSessionId)

def applyPrune (mirror : Mirror) (pruned : Tombstone) : Mirror :=
  let removed := { mirror with
    chargeEntryCount := mirror.chargeEntryCount - pruned.chargeEntryCount
    chargeSum := mirror.chargeSum - pruned.removedOrdinaryLogicalBytes }
  if pruned.flags = 2 then
    { removed.closeRun with
      chargeChain := some ((mirror.postRunChain.or mirror.preRunChain).getD
        (chargeChainInit C pruned.role pruned.stableSessionId))
      present := true
      consumed := false }
  else if pruned.allocationDisposition = 1 then
    { removed.closeRun with
      present := false
      consumed := false
      pruned := true
      bitmap := 0
      commitments := none
      chargeChain := none }
  else
    { removed.closeRun with
      present := true
      consumed := true
      pruned := true
      bitmap := 0
      commitments := none
      chargeChain := none }

/-- What an entry does to the open run, before it is charged. -/
def openRun (mirror : Mirror) (entry : WalEntry) (payload : Bytes) : Except Failure Mirror :=
  let commitment := payloadCommitment payload
  if entry.walType = 113 then
    if mirror.present = false then
      pure { mirror with openPrefix := some .fresh, requestCommitment := commitment }
    else if mirror.openPrefix = none then
      pure { mirror with openPrefix := some .existing, requestCommitment := commitment }
    else do
      require (commitment.isSome ∧ commitment = some (mirror.requestCommitment.getD []))
        (storeWal "mixed prefix requestCommitment is INTEGRITY")
      pure mirror
  else if mirror.openPrefix ≠ none ∧ commitment.isSome ∧ commitment = some (mirror.requestCommitment.getD []) then
    pure mirror.closeRun
  else pure mirror

/-- A terminal record closes the open run and moves the watermark. -/
def terminate (mirror : Mirror) (entry : WalEntry) (payload : Bytes) : Mirror :=
  if 0 < entry.terminalLogicalCharge then
    { mirror.closeRun with
      trustedEpochHighWatermark := if 76 ≤ payload.length then
          max mirror.trustedEpochHighWatermark (readU payload 72 4)
        else mirror.trustedEpochHighWatermark }
  else mirror

def charge (mirror : Mirror) (entry : WalEntry) (stableSessionId : Bytes) : Except Failure Mirror :=
  if 0 < entry.ordinaryLogicalCharge then do
    require (mirror.chargeEntryCount < maximumChargeEntries)
      (storeWal "recovered removable charge entries exceed the cap")
    pure { mirror with
      chargeEntryCount := mirror.chargeEntryCount + 1
      chargeSum := mirror.chargeSum + entry.ordinaryLogicalCharge
      chargeChain := some (chargeChainStep C
        (chainOr C mirror.chargeChain entry.role.byte stableSessionId) (mirrorEntry49 entry)) }
  else pure mirror

/-- The entry is counted for the open run, or for what comes after it. `preFold` is the chain before
the entry, when it was charged. -/
def countRun (mirror : Mirror) (entry : WalEntry) (stableSessionId : Bytes) (preFold : Option Bytes) : Mirror :=
  if entry.walType = 113 ∧ mirror.openPrefix ≠ none then
    { mirror with
      preRunChain := if mirror.preRunChain = none ∧ mirror.orphanCount = 0 then
          preFold.or mirror.chargeChain
        else mirror.preRunChain
      orphanCount := mirror.orphanCount + 1
      orphanSum := mirror.orphanSum + entry.ordinaryLogicalCharge
      orphanLastRevision := mirror.priorRevision
      orphanChain := some (chargeChainStep C
        (chainOr C mirror.orphanChain entry.role.byte stableSessionId) (mirrorEntry49 entry)) }
  else if entry.walType ≠ 113 ∧ mirror.openPrefix ≠ none ∧ 0 < entry.ordinaryLogicalCharge then
    { mirror with
      postRunChain := some (chargeChainStep C
        ((mirror.postRunChain.or mirror.preRunChain).getD
          (chargeChainInit C entry.role.byte stableSessionId)) (mirrorEntry49 entry)) }
  else mirror

/-- The authority vector and the clocks after an entry. -/
def authorize (mirror : Mirror) (entry : WalEntry) (payload : Bytes) : Mirror :=
  let clocked := if 0 < entry.terminalLogicalCharge ∧ 149 ≤ payload.length ∧ readU payload 6 2 = 1 then
      { mirror with
        expiresAtEpoch := readU payload 141 4
        recoveryGraceUntilEpoch := readU payload 145 4 }
    else mirror
  if mirror.consumed = false then
    { clocked with
      bitmap := entry.authorityBitmap
      commitments := some entry.authorityCommitments
      consumed := decide (0 < entry.terminalLogicalCharge) || entry.authorityBitmap &&& 512 != 0
      pruned := false }
  else clocked

def applySession (mirror : Mirror) (entry : WalEntry) (stableSessionId payload : Bytes) :
    Except Failure Mirror := do
  let running ← openRun mirror entry payload
  let closed := terminate running entry payload
  let charged ← charge C closed entry stableSessionId
  let preFold := if 0 < entry.ordinaryLogicalCharge then
      some (chainOr C closed.chargeChain entry.role.byte stableSessionId)
    else none
  let counted := countRun C { charged with present := true, priorRevision := charged.priorRevision + 1 } entry
    stableSessionId preFold
  pure (authorize counted entry payload)

def applyEntryToSessionMirror (sessions : OrderedMap Bytes Mirror) (entry : WalEntry)
    (payload : Bytes) : Except Failure (OrderedMap Bytes Mirror) :=
  match entry.scope, entry.stableSessionId with
  | .roleGlobal, _ => pure sessions
  | _, none => pure sessions
  | .pruneTransition, some stableSessionId => do
    let pruned ← decodeForwardHttpsRetentionPrunedV3 payload
    pure (sessions.set stableSessionId (applyPrune C ((sessions.get? stableSessionId).getD .unseen) pruned))
  | .session, some stableSessionId => do
    let mirror ← applySession C ((sessions.get? stableSessionId).getD .unseen) entry stableSessionId payload
    pure (sessions.set stableSessionId mirror)

/-- `matchFpr9AgainstMirror`: the label of the first mismatch, or nothing. -/
def matchFpr9AgainstMirror (mirror : Option Mirror) (pruned : Tombstone) (role : UInt8)
    (stableSessionId : Bytes) : Except String Unit := do
  let mirror ← demand (mirror.filter Mirror.present) "no recovered session state"
  require (pruned.flags = 0 → pruned.priorSessionRevision = mirror.priorRevision) "revision mismatch"
  require (pruned.flags ≠ 0 → pruned.priorSessionRevision = mirror.orphanLastRevision) "orphan revision mismatch"
  require (pruned.beforeAuthorityBitmap = mirror.bitmap) "vector mismatch"
  require (pruned.authorityRegistryCommitment = authorityRegistryCommitment C role stableSessionId
      pruned.priorSessionRevision pruned.beforeAuthorityBitmap
      (mirror.commitments.getD zeroCommitments)) "authority commitment mismatch"
  let expectedCount := if pruned.flags = 0 then mirror.chargeEntryCount else mirror.orphanCount
  let expectedSum := if pruned.flags = 2 then mirror.orphanSum
    else if pruned.flags = 1 then mirror.orphanSum else mirror.chargeSum
  require (pruned.chargeEntryCount = expectedCount ∧
      pruned.removedOrdinaryLogicalBytes = expectedSum) "count/sum mismatch"
  let chain := if pruned.flags = 2 then chainOr C mirror.orphanChain role stableSessionId
    else chainOr C mirror.chargeChain role stableSessionId
  require (pruned.chargeRegistryCommitment =
      chargeChainFinal C role stableSessionId expectedCount expectedSum chain) "charge chain mismatch"
  require (pruned.expiresAtEpoch = mirror.expiresAtEpoch) "expiry clock mismatch"
  require (pruned.recoveryGraceUntilEpoch = mirror.recoveryGraceUntilEpoch) "grace clock mismatch"
  require (pruned.trustedEpochHighWatermark =
      max mirror.trustedEpochHighWatermark pruned.pruneEpochSeconds) "watermark mismatch"
  require (pruned.flags = 0 → mirror.recoveryGraceUntilEpoch < pruned.pruneEpochSeconds)
    "prune epoch within recovery grace"
  require (pruned.flags = 0 → (pruned.allocationDisposition = 1 → mirror.consumed = false) ∧
      (pruned.allocationDisposition = 0 → mirror.consumed = true)) "slot state mismatch"
  require (pruned.flags = 1 → mirror.openPrefix = some .fresh ∧ mirror.consumed = false) "prefix class mismatch"
  require (pruned.flags = 2 → mirror.openPrefix = some .existing ∧ mirror.consumed = false) "prefix class mismatch"
  require (pruned.previousSessionStateCommitment = previousSessionStateCommitment C pruned.flags role
      stableSessionId pruned.priorSessionRevision pruned.chargeRegistryCommitment
      pruned.authorityRegistryCommitment pruned.terminalSlotState) "state commitment mismatch"

/-! ### Recovery -/

structure Sink where
  role : StoreRole
  logicalBytes : ℤ
  lastSequence : ℕ
  lastHash : Bytes
  sessions : OrderedMap Bytes Mirror

def Sink.begin (role : StoreRole) : Sink := ⟨role, 0, 0, zero32, .empty⟩

/-- The tombstone of an entry that prunes. -/
def prunedOf (entry : WalEntry) (payload : Bytes) : Except Failure (Option Tombstone) :=
  if entry.scope = .pruneTransition then
    some <$> decodeForwardHttpsRetentionPrunedV3 payload
  else pure none

/-- The bytes that an entry moves the ledger by. -/
def netCharge (entry : WalEntry) (pruned : Option Tombstone) : ℤ :=
  match pruned with
  | none => entry.ordinaryLogicalCharge + entry.terminalLogicalCharge
  | some pruned => entry.ordinaryLogicalCharge - pruned.removedOrdinaryLogicalBytes

/-- The check of a tombstone that is recovered. -/
def matchRecovered (sessions : OrderedMap Bytes Mirror) : Option Tombstone → Except Failure Unit
  | none => pure ()
  | some pruned =>
    match matchFpr9AgainstMirror C (sessions.get? pruned.stableSessionId) pruned pruned.role
        pruned.stableSessionId with
    | .ok _ => pure ()
    | .error mismatch =>
      .error ⟨.integrity, "recovered tombstone does not independently match: " ++ mismatch⟩

def absorbForwardHttpsAggregateQuotaRecoveryFrameV3 (sink : Sink) (frame : WalFrame) :
    Except Failure (Sink × WalEntry) := do
  let torn : Failure :=
    ⟨.integrity, "recovery frame is out-of-order, duplicate, torn or cross-root"⟩
  require (frame.sequence < 2 ^ 64) (typeError "frame.sequence is outside u64")
  require (frame.sequence = sink.lastSequence + 1) torn
  require (frame.previousWalHash.length = 32) (typeError "frame.previousWalHash must be exactly 32 bytes")
  require (frame.previousWalHash = sink.lastHash) torn
  require (frame.frameBytes = frame.payload.length + walFrameOverheadBytes) torn
  require (1 ≤ frame.type ∧ frame.type ≤ 255) (typeError "frame.type is outside 1..255")
  require (frame.payloadHash.length = 32) (typeError "frame.payloadHash must be exactly 32 bytes")
  require (frame.walHash.length = 32) (typeError "frame.walHash must be exactly 32 bytes")
  let entry ← deriveForwardHttpsStoreWalQuotaEntryV3 C sink.role frame sink.sessions.get?
  let pruned ← prunedOf entry frame.payload
  matchRecovered C sink.sessions pruned
  let sessions ← applyEntryToSessionMirror C sink.sessions entry frame.payload
  pure ({ sink with
    sessions := sessions
    logicalBytes := sink.logicalBytes + netCharge entry pruned
    lastSequence := frame.sequence
    lastHash := frame.walHash }, entry)

/-- The frames of a log are absorbed in their order; what each of them was taken for is kept with its
payload. -/
def absorbAll (sink : Sink) : List WalFrame → Except Failure (Sink × List (WalEntry × Bytes))
  | [] => pure (sink, [])
  | frame :: frames => do
    let result ← absorbForwardHttpsAggregateQuotaRecoveryFrameV3 C sink frame
    let rest ← absorbAll result.1 frames
    pure (rest.1, (result.2, frame.payload) :: rest.2)

end Mirrors

end HiveRelay.Quota
