import HiveRelay.Inbox.State

/-!
# Applying inbox WAL frames

`#applyFrame` of `inbox-storage-engine.js`: the 13 transitions of the engine's state, each a sequence
of guards that throw and then one update. The update of a transition is a definition of its own.
-/

namespace HiveRelay.Inbox

open Cell (PreparedAdmission ResultBinding leaseEpochs maxU32 maxSafeInteger)

variable {B : Type} [DecidableEq B] [Zero B]

/-! ### Checks -/

section Checks

variable (cfg : Config B)

/-- The binding is canonical and is for this relay and this store. -/
def BindingAccepted (b : ResultBinding B) : Prop :=
  b.Canonical ∧ b.durabilityProfileId = 1 ∧ b.externalCommitWitness = false ∧ b.relayPublicKey = cfg.relayPublicKey ∧
    b.durabilityContinuityHash = cfg.durabilityContinuityHash ∧
    (∀ id ∈ cfg.storeId, b.storeId = id) ∧
    (∀ hash ∈ cfg.durabilityProfileHash, b.durabilityProfileHash = hash)

instance (b : ResultBinding B) : Decidable (BindingAccepted cfg b) :=
  inferInstanceAs (Decidable (_ ∧ _))

def verifyBucket (frame : Frame B) (physicalTopic : B) : Except Failure Unit :=
  require (frame.virtualBucket = cfg.hashes.virtualBucket physicalTopic)
    (integrityError "Inbox WAL frame uses the wrong private virtual bucket")

/-- What `#assertSpendFresh` hashes for an operation. -/
def SpendTerms.fingerprintParts (t : SpendTerms B) (operation : Operation) (physicalTopic : B)
    (frame : Option (ℕ × B)) (requestedLeaseClass : ℕ) : FingerprintParts B where
  __ := t
  operation := operation
  physicalTopic := physicalTopic
  frameClass := frame.elim 0 Prod.fst
  frameHash := frame.map Prod.snd
  requestedLeaseClass := requestedLeaseClass
  profileId := t.preparedAdmission.profileId
  declaredBytes := frame.elim 0 fun f => inboxFrameClass f.1

/-- `#assertSpendFresh`. An append gives the class and the hash of its frame, a create and a renewal
their lease class. -/
def assertSpendFresh (s : State B) (t : SpendTerms B) (operation : Operation) (physicalTopic : B)
    (frame : Option (ℕ × B)) (requestedLeaseClass : ℕ) : Except Failure Unit := do
  require (CanonicalAdmission t.preparedAdmission)
    (integrityError "Inbox prepared admission changed on canonical re-encoding")
  require (t.preparedAdmission.spendTag = t.spendTag ∧ t.preparedAdmission.requestCommitment = t.requestCommitment)
    (integrityError "Inbox WAL prepared admission does not bind its spend/request")
  require (s.spends.get? t.spendTag = none ∧ s.commitments.get? t.requestCommitment = none)
    (integrityError "Inbox WAL redefines a spend or request commitment")
  require (cfg.hashes.requestFingerprint
      (t.fingerprintParts operation physicalTopic frame requestedLeaseClass) = t.requestFingerprint)
    (integrityError "Inbox WAL request fingerprint mismatch")

/-- `inboxCreateCommitment` of `blind-protocol`. -/
def inboxCreateCommitment (terms : CreateTerms B) : Except Failure B := do
  require (1 ≤ terms.frameClassBits ∧ terms.frameClassBits ≤ 7)
    (failure .badEncoding "frameClassBits must contain only advertised inbox classes")
  require (terms.appendAuthMode ≤ 1) (failure .badEncoding "appendAuthMode is outside 0..1")
  require (1 ≤ terms.retentionClass ∧ terms.retentionClass ≤ 4)
    (failure .badEncoding "retentionClass is outside 1..4")
  require (1 ≤ terms.leaseClass ∧ terms.leaseClass ≤ 4) (failure .badEncoding "leaseClass is outside 1..4")
  require (cfg.hashes.inboxPhysicalTopic terms.allocationEpoch terms.createPublicKey =
      terms.physicalTopic) (failure .badEncoding "physicalTopic is not self-certifying")
  require (terms.appendAuthMode = 1 ↔ terms.appendPublicKey.isSome)
    (failure .badEncoding "appendPublicKey presence does not match appendAuthMode")
  pure (cfg.hashes.createDigest cfg.relayPublicKey terms)

def CreateTerms.keys (terms : CreateTerms B) : List B :=
  [terms.createPublicKey, terms.renewPublicKey, terms.closePublicKey] ++ terms.appendPublicKey.toList

/-- The acknowledgement that a provisional append is finalized with. -/
def SpendEntry.appendAck (spend : SpendEntry B) (terms : AppendTerms B) (signature : B) : AppendAck B where
  __ := terms
  relayBinding := spend.resultBinding
  topicCommitment := cfg.hashes.topicDigest spend.physicalTopic
  appendRevision := terms.resultRevision
  storedAtEpoch := terms.committedEpoch
  requestNonce := spend.clientNonce
  requestCommitment := spend.requestCommitment
  signature := signature

def appendAckBytes (spend : SpendEntry B) (terms : AppendTerms B) (signature : B) : Except Failure (AppendAck B) := do
  require (BindingAccepted cfg spend.resultBinding)
    (integrityError "Inbox APPEND ACK binding is invalid: binding authority mismatch")
  require (terms.committedEpoch < terms.expiresAtEpoch)
    (failure .badEncoding "expiresAtEpoch must be after storedAtEpoch")
  require (cfg.hashes.ackVerifies (spend.appendAck cfg terms signature) = true)
    (integrityError "Inbox APPEND ACK signature verification failed")
  pure (spend.appendAck cfg terms signature)

end Checks

/-- What `#assertAccounting` asks of a counter. -/
def SafeCounter (value : ℤ) : Prop := 0 ≤ value ∧ value ≤ maxSafeInteger
  deriving Decidable

/-- The counters of the frames pass `#assertAccounting`. -/
def Accounting.Safe (a : Accounting) : Prop :=
  SafeCounter a.storedFrameBytes ∧ SafeCounter a.controlBytes ∧ SafeCounter a.tombstoneBytes ∧
    SafeCounter a.frameIndexBytes

/-- The counters of the staged bodies pass `#assertAccounting`. -/
def Staging.Safe (staging : Staging) : Prop :=
  SafeCounter staging.stagingFrameBytes ∧ SafeCounter staging.reservedFrames ∧
    ∀ value ∈ staging.stagingByProfile.values, 0 < value ∧ value ≤ maxSafeInteger
  deriving Decidable

def assertAccounting (staging : Staging) (a : Accounting) : Except Failure Unit := do
  let counter := fun (field : String) (value : ℤ) =>
    require (SafeCounter value) (integrityError ("Inbox " ++ field ++ " accounting is invalid"))
  counter "storedFrameBytes" a.storedFrameBytes
  counter "stagingFrameBytes" staging.stagingFrameBytes
  counter "controlBytes" a.controlBytes
  counter "tombstoneBytes" a.tombstoneBytes
  counter "frameIndexBytes" a.frameIndexBytes
  counter "reservedFrames" staging.reservedFrames
  require (∀ value ∈ staging.stagingByProfile.values, 0 < value ∧ value ≤ maxSafeInteger)
    (integrityError "Inbox profile staging accounting is invalid")

@[simp] theorem assertAccounting_eq_ok {staging : Staging} {a : Accounting} {u : Unit} :
    assertAccounting staging a = .ok u ↔ a.Safe ∧ staging.Safe := by
  simp only [assertAccounting, guards_eq_ok, Accounting.Safe, Staging.Safe]
  tauto

/-! ### Updates -/

section Updates

variable (s : State B) (frame : Frame B)

def State.addSpend (entry : SpendEntry B) : State B where
  __ := s
  spends := s.spends.set entry.spendTag entry
  commitments := s.commitments.set entry.requestCommitment
    { spendKey := entry.spendTag, fingerprint := entry.requestFingerprint }
  accounting := { s.accounting with
    controlBytes := s.accounting.controlBytes + controlRecordBytes }

def State.setSpend (entry : SpendEntry B) : State B where
  __ := s
  spends := s.spends.set entry.spendTag entry

def State.setInbox (record : InboxRecord B) : State B where
  __ := s
  inboxes := s.inboxes.set record.physicalTopic record

/-- The entry that a transition creates from the spend fields of its payload. -/
def SpendTerms.entry (t : SpendTerms B) (physicalTopic clientNonce : B) (requestedLeaseClass : ℕ)
    (state : SpendState B) : SpendEntry B where
  __ := t
  transactionId := frame.transactionId
  physicalTopic := physicalTopic
  profileId := t.preparedAdmission.profileId
  requestedLeaseClass := requestedLeaseClass
  remainingAttempts := 1
  reservedEpoch := t.committedEpoch
  clientNonce := clientNonce
  state := state

/-- The entry that `#applyCreate` creates. -/
def CreateCommitted.entry (v : CreateCommitted B) : SpendEntry B :=
  v.spend.entry frame v.terms.physicalTopic v.clientNonce v.terms.leaseClass (.leased false
      { resultIdentity := v.resultIdentity
        resultRevision := 0
        resultLeaseClass := v.terms.leaseClass
        resultLeaseEpoch := v.leaseEpoch
        committedEpoch := v.spend.committedEpoch })

/-- The record that `#applyCreate` creates. -/
def CreateCommitted.record (v : CreateCommitted B) : InboxRecord B where
  __ := v
  physicalTopic := v.terms.physicalTopic
  metadataVirtualBucket := frame.virtualBucket
  allocationEpoch := v.terms.allocationEpoch
  allocationLeaseClass := v.terms.leaseClass
  frameClassBits := v.terms.frameClassBits
  appendAuthMode := v.terms.appendAuthMode
  appendPublicKey := v.terms.appendPublicKey
  createPublicKey := v.terms.createPublicKey
  renewPublicKey := v.terms.renewPublicKey
  closePublicKey := v.terms.closePublicKey
  retentionClass := v.terms.retentionClass
  leaseClass := v.terms.leaseClass
  stateRevision := 0
  policyRevision := 0
  appendRevision := 0
  allocatedAppendRevision := 0
  objectState := .present
  policyState := .visible
  tombstoneReason := none
  terminalEpoch := none
  createSpendTag := v.spend.spendTag
  createRequestCommitment := v.spend.requestCommitment
  createdEpoch := v.spend.committedEpoch
  frameCount := 0
  closeRequestCommitment := none

/-- The update of `#applyCreate`. -/
def State.create (v : CreateCommitted B) : State B :=
  let s := (s.addSpend (v.entry frame)).setInbox (v.record frame)
  { s with
    framesByTopic := s.framesByTopic.set v.terms.physicalTopic .empty
    accounting := { s.accounting with
      tombstoneBytes := s.accounting.tombstoneBytes + tombstoneRecordBytes } }

/-- The entry that `#applyRenew` creates. -/
def RenewCommitted.entry (v : RenewCommitted B) : SpendEntry B :=
  v.spend.entry frame v.physicalTopic v.clientNonce v.leaseClass (.leased true
      { resultIdentity := v.resultIdentity
        resultRevision := v.newStateRevision
        resultLeaseClass := v.leaseClass
        resultLeaseEpoch := v.newLeaseEpoch
        committedEpoch := v.spend.committedEpoch })

/-- The update of `#applyRenew`. -/
def State.renew (v : RenewCommitted B) (record : InboxRecord B) : State B :=
  (s.setInbox { record with
    stateRevision := v.newStateRevision
    leaseEpoch := v.newLeaseEpoch
    leaseClass := v.leaseClass }).addSpend (v.entry frame)

/-- The cached result that `#applyClose` creates. -/
def CloseCommitted.result (v : CloseCommitted B) : RequestResult B where
  __ := v
  resultRevision := v.newStateRevision
  resultLeaseEpoch := v.oldLeaseEpoch

/-- The update of `#applyClose`. -/
def State.close (v : CloseCommitted B) (record : InboxRecord B) : State B :=
  let s := s.setInbox { record with
    objectState := .tombstone
    tombstoneReason := some .ownerClose
    terminalEpoch := some v.committedEpoch
    stateRevision := v.newStateRevision
    closeRequestCommitment := some v.requestCommitment }
  { s with
    requestResults := s.requestResults.set v.requestCommitment v.result
    accounting := { s.accounting with
      controlBytes := s.accounting.controlBytes + controlRecordBytes } }

/-- The frame that `#applyAppend` stores. -/
def AppendCommitted.stored (v : AppendCommitted B) : StoredFrame B where
  __ := v
  frameVirtualBucket := frame.virtualBucket
  storedAtEpoch := v.spend.committedEpoch
  spendTag := v.spend.spendTag
  requestCommitment := v.spend.requestCommitment

/-- The fields of the entry that an append creates; `record` is its inbox. -/
def AppendCommitted.terms (v : AppendCommitted B) (record : InboxRecord B) : AppendTerms B where
  __ := v
  declaredBytes := inboxFrameClass v.frameClass
  resultRevision := v.appendRevision
  committedEpoch := v.spend.committedEpoch
  retentionClassAtAppend := record.retentionClass

/-- The entry that `#applyAppend` creates. -/
def AppendCommitted.entry (v : AppendCommitted B) (record : InboxRecord B) : SpendEntry B :=
  v.spend.entry frame v.physicalTopic v.clientNonce 0 (.provisional (v.terms record))

def State.topicFrames (topic : B) : OrderedMap ℕ (StoredFrame B) :=
  (s.framesByTopic.get? topic).getD .empty

/-- The update of `#applyAppend`. -/
def State.append (v : AppendCommitted B) (record : InboxRecord B) : State B :=
  let s := (s.setInbox { record with
    allocatedAppendRevision := v.appendRevision
    frameCount := record.frameCount + 1 }).addSpend (v.entry frame record)
  { s with
    frames := s.frames.set (v.physicalTopic, v.appendRevision) (v.stored frame)
    framesByTopic := s.framesByTopic.set v.physicalTopic
      ((s.topicFrames v.physicalTopic).set v.appendRevision (v.stored frame))
    accounting := { s.accounting with
      storedFrameBytes := s.accounting.storedFrameBytes + inboxFrameClass v.frameClass
      frameIndexBytes := s.accounting.frameIndexBytes + frameIndexRecordBytes } }

/-- The loop of `#applyAppendAckFinalized`: `appendRevision` moves over the frames that are stored and
whose spend is settled, at most `fuel` of them. -/
def watermark (topic : B) : (fuel appendRevision : ℕ) → ℕ
  | 0, appendRevision => appendRevision
  | fuel + 1, appendRevision =>
    match s.frames.get? (topic, appendRevision + 1) with
    | none => appendRevision
    | some next =>
      match s.spends.get? next.spendTag with
      | none => appendRevision
      | some nextSpend =>
        if nextSpend.state.isSettled then watermark topic fuel (appendRevision + 1)
        else appendRevision

/-- The update of `#applyAppendAckFinalized`. -/
def State.finalizeAck (v : AppendAckFinalized B) (spend : SpendEntry B) (terms : AppendTerms B)
    (record : InboxRecord B) : State B :=
  let s := s.setSpend { spend with state := .appended terms v.ackSignature v.resultCommitment }
  s.setInbox { record with
    appendRevision := watermark s record.physicalTopic
      (record.allocatedAppendRevision - record.appendRevision) record.appendRevision }

/-- The `reconstruction` that `#applyReadPin` rebuilds. -/
def ReadPinCommitted.reconstruction (cfg : Config B) (v : ReadPinCommitted B) : Reconstruction B where
  firstAppendRevision := (v.entries.head?.map PinEntry.appendRevision).getD 0
  lastAppendRevision := (v.entries.getLast?.map PinEntry.appendRevision).getD 0
  entryCount := v.entries.length
  nextCursorHash := v.nextCursor.elim 0 cfg.hashes.cursorDigest

/-- The pin that `#applyReadPin` creates. -/
def ReadPinCommitted.pin (cfg : Config B) (v : ReadPinCommitted B) : RetryPin B where
  __ := v
  spendTag := v.spend.spendTag
  requestCommitment := v.spend.requestCommitment
  operation := v.operationId
  sourceRevision := v.snapshotRevision
  resultCommitment := none
  reconstruction := v.reconstruction cfg
  retryState := 0
  resultBinding := v.spend.resultBinding
  committedEpoch := v.spend.committedEpoch

/-- The entry that `#applyReadPin` creates. -/
def ReadPinCommitted.entry (v : ReadPinCommitted B) : SpendEntry B :=
  v.spend.entry frame v.physicalTopic v.clientNonce 0 (.reserved v.operationId)

def RetryPin.controlBytes (pin : RetryPin B) : ℤ := (1 + pin.entries.length) * retryRecordBytes

/-- The update of `#applyReadPin`. -/
def State.pinRead (cfg : Config B) (v : ReadPinCommitted B) : State B :=
  let s := s.addSpend (v.entry frame)
  { s with
    retryPins := s.retryPins.set v.spend.spendTag (v.pin cfg)
    accounting := { s.accounting with
      controlBytes := s.accounting.controlBytes + (v.pin cfg).controlBytes } }

/-- The update of `#applyReadFinal`. -/
def State.finalizeRead (v : ReadPinFinalized B) (spend : SpendEntry B) (pin : RetryPin B) :
    State B :=
  let s := s.setSpend { spend with
    state := .read spend.state.operation
      { v with
        resultRevision := pin.sourceRevision
        committedEpoch := pin.committedEpoch } 1 }
  { s with
    retryPins := s.retryPins.set v.spendTag
      { pin with resultCommitment := some v.resultCommitment, retryState := 1 } }

/-- The entry of a charged read whose pin has expired. -/
def SpendEntry.readExpired (spend : SpendEntry B) (terminalEpoch : ℕ) : SpendEntry B :=
  match spend.state with
  | .read operation result _ => { spend with state := .read operation result 3 }
  | state => { spend with state := .terminal state.operation terminalEpoch, remainingAttempts := 0 }

/-- The update of `#applyReadExpired`. -/
def State.expireRead (v : ReadPinExpired B) (spend : SpendEntry B) (pin : RetryPin B) : State B :=
  let s := s.setSpend (spend.readExpired v.terminalEpoch)
  { s with
    retryPins := s.retryPins.delete v.spendTag
    accounting := { s.accounting with
      controlBytes := s.accounting.controlBytes - pin.controlBytes } }

/-- The update of `#applyAppendExpired`. -/
def State.expireAppend (v : AppendExpired B) (spend : SpendEntry B) (terms : AppendTerms B)
    (stored : StoredFrame B) : State B :=
  let s := s.setSpend { spend with
    state := .expiredAppend terms v.ackSignature v.resultCommitment v.expiredEpoch }
  { s with
    frames := s.frames.delete (v.physicalTopic, v.appendRevision)
    framesByTopic :=
      match s.framesByTopic.get? v.physicalTopic with
      | some frames => s.framesByTopic.set v.physicalTopic (frames.delete v.appendRevision)
      | none => s.framesByTopic
    inboxes :=
      match s.inboxes.get? v.physicalTopic with
      | some inbox =>
        s.inboxes.set v.physicalTopic { inbox with frameCount := inbox.frameCount - 1 }
      | none => s.inboxes
    accounting := { s.accounting with
      storedFrameBytes := s.accounting.storedFrameBytes - inboxFrameClass stored.frameClass
      frameIndexBytes := s.accounting.frameIndexBytes - frameIndexRecordBytes } }

/-- The record that `#applyInboxGc` leaves. -/
def InboxRecord.collected (record : InboxRecord B) (v : InboxGc B) : InboxRecord B :=
  { record with
    objectState := .tombstone
    tombstoneReason := some .expiredGc
    terminalEpoch := some v.terminalEpoch
    stateRevision := v.newStateRevision }

/-- The update of `#applyIntegrity`. -/
def State.noteIntegrity (v : IntegrityFailed B) : State B where
  __ := s
  integrityEvidence :=
    if s.integrityEvidence.any fun item => item.evidenceHash = v.evidenceHash then
      s.integrityEvidence
    else s.integrityEvidence ++ [v]
  readOnlyReason := some .recoveryGapReadOnly

end Updates

/-! ### Transitions -/

section Transitions

variable (cfg : Config B) (s : State B) (frame : Frame B)

def liveInbox (topic : B) (error : Failure) : Except Failure (InboxRecord B) := do
  let record ← demand (s.inboxes.get? topic) error
  require (record.objectState = .present) error
  pure record

def applyCreate (v : CreateCommitted B) : Except Failure (State B) := do
  verifyBucket cfg frame v.terms.physicalTopic
  assertSpendFresh cfg s v.spend .create v.terms.physicalTopic none v.terms.leaseClass
  require (s.inboxes.get? v.terms.physicalTopic = none) (integrityError "Inbox CREATE redefines a physical topic")
  require (cfg.hashes.inboxPhysicalTopic v.terms.allocationEpoch v.terms.createPublicKey =
      v.terms.physicalTopic) (integrityError "Inbox CREATE topic is not self-certifying")
  let expectedCreate ← inboxCreateCommitment cfg v.terms
  require (expectedCreate = v.createCommitment) (integrityError "Inbox CREATE commitment mismatch")
  require (v.terms.keys.Nodup ∧ (∀ key ∈ v.terms.keys, key ≠ 0) ∧
      (v.terms.appendAuthMode = 1 ↔ v.terms.appendPublicKey.isSome))
    (integrityError "Inbox CREATE capability key policy is invalid")
  require (v.leaseEpoch = min maxU32 (v.spend.committedEpoch + leaseEpochs v.terms.leaseClass))
    (integrityError "Inbox CREATE lease epoch mismatch")
  require (cfg.hashes.resultIdentity
      ⟨.create, v.terms.physicalTopic, v.spend.requestCommitment, 0, v.createCommitment,
        v.spend.committedEpoch⟩ = v.resultIdentity)
    (integrityError "Inbox CREATE result identity mismatch")
  pure (s.create frame v)

def applyRenew (v : RenewCommitted B) : Except Failure (State B) := do
  verifyBucket cfg frame v.physicalTopic
  assertSpendFresh cfg s v.spend .renew v.physicalTopic none v.leaseClass
  let record ← liveInbox s v.physicalTopic (integrityError "Inbox RENEW has no live record")
  require (record.stateRevision = v.oldStateRevision ∧ record.leaseEpoch = v.oldLeaseEpoch ∧
      v.newStateRevision = v.oldStateRevision + 1 ∧ v.oldLeaseEpoch < v.newLeaseEpoch)
    (integrityError "Inbox RENEW revision/lease transition is invalid")
  require (cfg.hashes.resultIdentity ⟨.renew, v.physicalTopic, v.spend.requestCommitment, v.newStateRevision,
        record.createCommitment, v.spend.committedEpoch⟩ = v.resultIdentity)
    (integrityError "Inbox RENEW result identity mismatch")
  pure (s.renew frame v record)

def applyClose (v : CloseCommitted B) : Except Failure (State B) := do
  verifyBucket cfg frame v.physicalTopic
  require (frame.transactionId = v.transactionId) (integrityError "Inbox CLOSE transaction identity mismatch")
  let record ← liveInbox s v.physicalTopic (integrityError "Inbox CLOSE has no live record")
  require (record.stateRevision = v.oldStateRevision ∧ record.leaseEpoch = v.oldLeaseEpoch ∧
      v.newStateRevision = v.oldStateRevision + 1)
    (integrityError "Inbox CLOSE revision transition is invalid")
  require (cfg.hashes.resultIdentity
      ⟨.close, v.physicalTopic, v.requestCommitment, v.newStateRevision, record.createCommitment,
        v.committedEpoch⟩ = v.resultIdentity)
    (integrityError "Inbox CLOSE result identity mismatch")
  require (s.requestResults.get? v.requestCommitment = none ∧ s.commitments.get? v.requestCommitment = none)
    (integrityError "Inbox CLOSE request commitment is duplicated")
  pure (s.close v record)

def applyAppend (v : AppendCommitted B) : Except Failure (State B) := do
  verifyBucket cfg frame v.physicalTopic
  assertSpendFresh cfg s v.spend .append v.physicalTopic (some (v.frameClass, v.frameHash)) 0
  let record ← liveInbox s v.physicalTopic (integrityError "Inbox APPEND has no live record")
  require (record.frameClassBits.testBit (v.frameClass - 1) = true ∧
      v.appendRevision = record.allocatedAppendRevision + 1 ∧
      v.appendLeaseEpoch = record.leaseEpoch ∧
      v.expiresAtEpoch = min v.appendLeaseEpoch (v.spend.committedEpoch + leaseEpochs record.retentionClass))
    (integrityError "Inbox APPEND class/revision/expiry transition is invalid")
  require (cfg.hashes.resultIdentity
      ⟨.append, v.physicalTopic, v.spend.requestCommitment, v.appendRevision, v.frameHash,
        v.spend.committedEpoch⟩ = v.resultIdentity)
    (integrityError "Inbox APPEND result identity mismatch")
  require (s.frames.get? (v.physicalTopic, v.appendRevision) = none)
    (integrityError "Inbox APPEND redefines a frame revision")
  pure (s.append frame v record)

/-- The provisional append that a spend tag and a request commitment belong to. -/
def SpendEntry.provisional? (spend : SpendEntry B) : Option (AppendTerms B) :=
  match spend.state with
  | .provisional terms => some terms
  | _ => none

def applyAppendAckFinalized (v : AppendAckFinalized B) : Except Failure (State B) := do
  let inexact := integrityError "Inbox APPEND ACK finalization has no exact provisional spend"
  let spend ← demand (s.spends.get? v.spendTag) inexact
  let terms ← demand spend.provisional? inexact
  require (spend.requestCommitment = v.requestCommitment ∧ terms.committedEpoch ≤ v.finalizedEpoch) inexact
  verifyBucket cfg frame spend.physicalTopic
  let ack ← appendAckBytes cfg spend terms v.ackSignature
  require (cfg.hashes.ackDigest ack = v.resultCommitment)
    (integrityError "Inbox APPEND ACK result commitment mismatch")
  let record ← demand (s.inboxes.get? spend.physicalTopic)
    (integrityError "Inbox APPEND finalization lost its inbox record")
  pure (s.finalizeAck v spend terms record)

/-- The loop of `#applyReadPin` over the entries. -/
def verifyEntries (topic : B) (snapshotRevision : ℕ) : (previous : ℕ) → List (PinEntry B) → Except Failure Unit
  | _, [] => pure ()
  | previous, entry :: entries => do
    require (previous < entry.appendRevision ∧ entry.appendRevision ≤ snapshotRevision)
      (integrityError "Inbox read pin revisions are invalid")
    let substituted := integrityError "Inbox read pin substitutes an immutable frame"
    let stored ← demand (s.frames.get? (topic, entry.appendRevision)) substituted
    require (stored.frameHash = entry.frameHash ∧ stored.frameClass = entry.frameClass ∧
      stored.frameObjectId = entry.frameObjectId) substituted
    verifyEntries topic snapshotRevision entry.appendRevision entries

def applyReadPin (v : ReadPinCommitted B) : Except Failure (State B) := do
  verifyBucket cfg frame v.physicalTopic
  assertSpendFresh cfg s v.spend v.operationId v.physicalTopic none 0
  let _ ← liveInbox s v.physicalTopic (integrityError "Inbox read pin has no live inbox")
  verifyEntries s v.physicalTopic v.snapshotRevision 0 v.entries
  require (cfg.hashes.retrySourceCommitment v.physicalTopic v.snapshotRevision
      (v.reconstruction cfg) (v.entries.map fun e => (e.appendRevision, e.frameHash)) = v.sourceCommitment)
    (integrityError "Inbox read pin source commitment mismatch")
  pure (s.pinRead frame cfg v)

def applyReadFinal (v : ReadPinFinalized B) : Except Failure (State B) := do
  let inexact := integrityError "Inbox read finalization has no exact provisional pin"
  let spend ← demand (s.spends.get? v.spendTag) inexact
  let pin ← demand (s.retryPins.get? v.spendTag) inexact
  require (spend.state = .reserved spend.state.operation ∧ spend.requestCommitment = v.requestCommitment ∧
      pin.requestCommitment = v.requestCommitment ∧ pin.committedEpoch ≤ v.finalizedEpoch) inexact
  verifyBucket cfg frame spend.physicalTopic
  require (cfg.hashes.resultIdentity
      ⟨spend.state.operation, spend.physicalTopic, spend.requestCommitment, pin.sourceRevision,
        v.resultCommitment, pin.committedEpoch⟩ = v.resultIdentity)
    (integrityError "Inbox read final result identity mismatch")
  pure (s.finalizeRead v spend pin)

/-- A spend whose status lets its pin expire. -/
def SpendState.expirable : SpendState B → Bool
  | .reserved _ => true
  | state => state.isCommitted

def applyReadExpired (v : ReadPinExpired B) : Except Failure (State B) := do
  let inexact := integrityError "Inbox retry expiry has no exact committed pin"
  let spend ← demand (s.spends.get? v.spendTag) inexact
  let pin ← demand (s.retryPins.get? v.spendTag) inexact
  require (spend.state.expirable = true ∧ spend.requestCommitment = v.requestCommitment ∧
      pin.retryExpiresMinute = v.retryExpiresMinute) inexact
  verifyBucket cfg frame spend.physicalTopic
  pure (s.expireRead v spend pin)

def applyFloor (v : FloorAdvance) : Except Failure (State B) := do
  require (v.oldEpochFloor = s.epochFloor ∧ v.oldEpochFloor ≤ v.newEpochFloor ∧
      (v.oldEpochFloor ≠ 0 → v.newEpochFloor ≤ v.oldEpochFloor + 4))
    (integrityError "Inbox epoch floor transition is invalid")
  pure { s with epochFloor := v.newEpochFloor }

/-- The data of a payload `APPEND_EXPIRED` are those of the stored frame and of its spend. -/
def AppendExpired.Matches (v : AppendExpired B) (stored : StoredFrame B) (spend : SpendEntry B)
    (terms : AppendTerms B) (ackSignature resultCommitment : B) : Prop :=
  spend.transactionId = v.transactionId ∧ stored.frameHash = v.frameHash ∧
    stored.frameObjectId = v.frameObjectId ∧ stored.spendTag = v.spendTag ∧
    stored.requestCommitment = v.requestCommitment ∧
    spend.requestFingerprint = v.requestFingerprint ∧ spend.physicalTopic = v.physicalTopic ∧
    spend.profileId = v.profileId ∧ terms.frameClass = v.frameClass ∧
    terms.declaredBytes = v.declaredBytes ∧ spend.deadlineUnixMillis = v.deadlineUnixMillis ∧
    spend.remainingAttempts = v.remainingAttempts ∧ spend.reservedEpoch = v.reservedEpoch ∧
    terms.resultIdentity = v.resultIdentity ∧ terms.resultRevision = v.appendRevision ∧
    terms.committedEpoch = v.storedAtEpoch ∧
    terms.retentionClassAtAppend = v.retentionClassAtAppend ∧
    terms.appendLeaseEpoch = v.appendLeaseEpoch ∧ terms.expiresAtEpoch = v.expiresAtEpoch ∧
    spend.clientNonce = v.clientNonce ∧ spend.resultBinding = v.resultBinding ∧
    ackSignature = v.ackSignature ∧ resultCommitment = v.resultCommitment ∧
    v.declaredBytes = inboxFrameClass v.frameClass ∧
    v.expiresAtEpoch = min v.appendLeaseEpoch (v.storedAtEpoch + leaseEpochs v.retentionClassAtAppend) ∧
    v.expiresAtEpoch ≤ v.expiredEpoch

instance (v : AppendExpired B) (stored : StoredFrame B) (spend : SpendEntry B)
    (terms : AppendTerms B) (ackSignature resultCommitment : B) :
    Decidable (v.Matches stored spend terms ackSignature resultCommitment) :=
  inferInstanceAs (Decidable (_ ∧ _))

/-- The terms and the acknowledgement of a committed append. -/
def SpendEntry.appended? (spend : SpendEntry B) : Option (AppendTerms B × B × B) :=
  match spend.state with
  | .appended terms ackSignature resultCommitment => some (terms, ackSignature, resultCommitment)
  | _ => none

def applyAppendExpired (v : AppendExpired B) : Except Failure (State B) := do
  verifyBucket cfg frame v.physicalTopic
  let invalid := integrityError "Inbox APPEND expiry transition is invalid"
  let stored ← demand (s.frames.get? (v.physicalTopic, v.appendRevision)) invalid
  let spend ← demand (s.spends.get? v.spendTag) invalid
  let (terms, ackSignature, resultCommitment) ← demand spend.appended? invalid
  require (v.Matches stored spend terms ackSignature resultCommitment ∧ s.framePinned stored = false) invalid
  let ack ← appendAckBytes cfg spend terms v.ackSignature
  require (cfg.hashes.ackDigest ack = v.resultCommitment)
    (integrityError "Inbox expired APPEND ACK commitment mismatch")
  pure (s.expireAppend v spend terms stored)

def applyInboxGc (v : InboxGc B) : Except Failure (State B) := do
  verifyBucket cfg frame v.physicalTopic
  let invalid := integrityError "Inbox lease GC transition is invalid"
  let record ← liveInbox s v.physicalTopic invalid
  require (record.stateRevision = v.oldStateRevision ∧ record.leaseEpoch = v.expectedLeaseEpoch ∧
    v.newStateRevision = v.oldStateRevision + 1 ∧ record.leaseEpoch < v.terminalEpoch) invalid
  pure (s.setInbox (record.collected v))

def applyPolicy (v : PolicyCommitted B) : Except Failure (State B) := do
  verifyBucket cfg frame v.physicalTopic
  let invalid := integrityError "Inbox policy transition is invalid"
  let record ← demand (s.inboxes.get? v.physicalTopic) invalid
  require (record.policyRevision = v.oldPolicyRevision ∧ v.newPolicyRevision = v.oldPolicyRevision + 1) invalid
  pure (s.setInbox { record with
    policyRevision := v.newPolicyRevision
    policyState := v.policyState })

def applyIntegrity (v : IntegrityFailed B) : Except Failure (State B) := do
  require (v.detectedEpoch ≤ s.epochFloor ∧ v.evidenceHash ≠ 0) (integrityError "Inbox integrity evidence is invalid")
  pure (s.noteIntegrity v)

/-- The `switch` of `#applyFrame`. -/
def applyPayload : Except Failure (State B) :=
  match frame.payload with
  | .createCommitted v => applyCreate cfg s frame v
  | .renewCommitted v => applyRenew cfg s frame v
  | .closeCommitted v => applyClose cfg s frame v
  | .appendCommitted v => applyAppend cfg s frame v
  | .appendAckFinalized v => applyAppendAckFinalized cfg s frame v
  | .readPinCommitted v => applyReadPin cfg s frame v
  | .readPinFinalized v => applyReadFinal cfg s frame v
  | .readPinExpired v => applyReadExpired cfg s frame v
  | .floorAdvance v => applyFloor s v
  | .appendExpired v => applyAppendExpired cfg s frame v
  | .inboxGc v => applyInboxGc cfg s frame v
  | .policyCommitted v => applyPolicy cfg s frame v
  | .integrityFailed v => applyIntegrity s v

/-- `#applyFrame`; `staging` are the counters of the bodies being staged at the time. -/
def applyFrame (staging : Staging) : Except Failure (State B) := do
  require frame.payload.Canonical (integrityError "non-canonical Inbox WAL payload")
  let s' ← applyPayload cfg s frame
  assertAccounting staging s'.accounting
  pure s'

end Transitions

theorem applyFrame_eq_ok {cfg : Config B} {s s' : State B} {frame : Frame B} {staging : Staging} :
    applyFrame cfg s frame staging = .ok s' ↔
      frame.payload.Canonical ∧ applyPayload cfg s frame = .ok s' ∧ s'.accounting.Safe ∧
        staging.Safe := by
  simp only [applyFrame, guards_eq_ok, assertAccounting_eq_ok]
  constructor
  · rintro ⟨hcanonical, s₁, happly, hsafe, rfl⟩
    exact ⟨hcanonical, happly, hsafe⟩
  · rintro ⟨hcanonical, happly, hsafe⟩
    exact ⟨hcanonical, s', happly, hsafe, rfl⟩

end HiveRelay.Inbox
