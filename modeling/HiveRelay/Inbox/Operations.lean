import HiveRelay.Inbox.Pages
import HiveRelay.Lib.Act

/-!
# The operations of the inbox engine, one at a time

The public methods of `BlindInboxStorageEngine` that write to its log, run one after another. A method
that writes a single frame first decides, from the maps, what to write or what to answer (its
*outcome*), and then hands the frame to `#appendAndApply`. The sweeps, the advance of the floor and
`open` write any number of frames.

`appendFrame` waits for its frame body between the reservation of the staging bytes and the write.
The two halves are two moves here, so that the states in between are states of the engine.

What is not under the engine's control is an argument: the transaction ids, the clock, the object id
of a published body, the inspection of the bodies at startup.
-/

namespace HiveRelay.Inbox

open Cell (PreparedAdmission ResultBinding PolicyState IntegrityReason leaseEpochs maxU32 maxU64)

variable {B : Type} [DecidableEq B] [Zero B]

/-! ### Inputs -/

section Inputs

variable (B : Type)

/-- The input of `createInbox`. -/
structure CreateInput where
  terms : CreateTerms B
  (clientNonce requestCommitment : B)
  preparedAdmission : PreparedAdmission B
  resultBinding : ResultBinding B
  nowUnixMillis : ℕ

/-- The input of `renewInbox`. -/
structure RenewInput where
  physicalTopic : B
  (leaseClass expectedRevision expectedLeaseEpoch : ℕ)
  clientNonce : B
  preparedAdmission : PreparedAdmission B
  resultBinding : ResultBinding B
  nowUnixMillis : ℕ

/-- The input of `closeInbox`. -/
structure CloseInput where
  physicalTopic : B
  (expectedRevision expectedLeaseEpoch : ℕ)
  (clientNonce requestCommitment : B)
  resultBinding : ResultBinding B

/-- The input of `appendFrame`, with the length and the digest of `request.frame` for its bytes. -/
structure AppendInput where
  physicalTopic : B
  frameClass : ℕ
  frameHash : B
  frameLength : ℕ
  (frameDigest clientNonce : B)
  preparedAdmission : PreparedAdmission B
  resultBinding : ResultBinding B
  nowUnixMillis : ℕ

/-- The input of `finalizeAppendAck`. -/
structure AckInput where
  (spendTag requestCommitment ackSignature resultCommitment : B)

/-- The input of `pinChargedPage`. The three readings of the clock are for the cursor, the deadline
and the expiry of the pin; `waited` is what the waiter of a `WATCH` ends with. -/
structure PinInput where
  watch : Bool
  physicalTopic : B
  cursor : Bytes
  (afterRevision limit : ℕ)
  clientNonce : B
  preparedAdmission : PreparedAdmission B
  resultBinding : ResultBinding B
  (cursorMillis deadlineMillis expiryMillis : ℕ)
  waited : Except Failure Unit

/-- The input of `finalizeChargedPage`. -/
structure PageInput where
  (spendTag requestCommitment resultCommitment : B)

/-- The input of `setPolicy`. -/
structure PolicyInput where
  physicalTopic : B
  policyState : PolicyState

/-- The input of `checkCapacity`; `profileId` is that of the prepared admission, if there is one. -/
structure CapacityInput where
  operation : Operation
  physicalTopic : B
  (frameClass limit : ℕ)
  profileId : Option ℕ

end Inputs

/-! ### Quotas -/

section Quotas

variable (q : Quota) (s : State B) (staging : Staging)

def checkCapacity (input : CapacityInput B) : Except Failure Unit :=
  match input.operation with
  | .create =>
    require (s.inboxes.size < q.maxInboxes ∧
        s.accounting.tombstoneBytes + tombstoneRecordBytes ≤ q.maxTombstoneBytes ∧
        s.accounting.controlBytes + controlRecordBytes ≤ q.maxControlBytes)
      (failure .busy "Inbox CREATE capacity is full" true)
  | .append => do
    let frameBytes : ℤ := inboxFrameClass input.frameClass
    let full := failure .busy "Inbox APPEND capacity is full" true
    let record ← demand (s.inboxes.get? input.physicalTopic) full
    require (record.frameCount < q.maxFramesPerTopic ∧ s.frames.size < q.maxFrames ∧
        s.accounting.storedFrameBytes + staging.stagingFrameBytes + frameBytes ≤ q.maxStoredFrameBytes ∧
        staging.stagingFrameBytes + frameBytes ≤ q.maxStagingFrameBytes ∧
        s.accounting.frameIndexBytes + frameIndexRecordBytes ≤ q.maxFrameIndexBytes ∧
        s.accounting.controlBytes + controlRecordBytes ≤ q.maxControlBytes) full
    require (∀ profileId ∈ input.profileId, (staging.stagingByProfile.get? profileId).getD 0 + frameBytes ≤
          q.maxStagingFrameBytesPerProfile)
      (failure .busy "Inbox profile staging capacity is full" true)
  | .read | .watch =>
    let maximumPins := 1 + min 64 input.limit
    require (input.profileId.isSome →
        s.accounting.controlBytes + maximumPins * retryRecordBytes + controlRecordBytes ≤ q.maxControlBytes)
      (failure .busy "Inbox retry-pin capacity is full" true)
  -- the switch has no case for these two
  | .renew | .close => pure ()

/-- The test of `#assertRecoveredQuota`. -/
def QuotaExceeded : Prop :=
  q.maxStoredFrameBytes < s.accounting.storedFrameBytes ∨ q.maxStagingFrameBytes < staging.stagingFrameBytes ∨
    q.maxControlBytes < s.accounting.controlBytes ∨
    q.maxTombstoneBytes < s.accounting.tombstoneBytes ∨
    q.maxFrameIndexBytes < s.accounting.frameIndexBytes ∨
    q.maxInboxes < s.inboxes.size ∨ q.maxFrames < s.frames.size ∨
    ∃ value ∈ staging.stagingByProfile.values, (q.maxStagingFrameBytesPerProfile : ℤ) < value
  deriving Decidable

/-- `#addStaging`. -/
def Staging.add (staging : Staging) (profileId : ℕ) (bytes : ℤ) : Staging where
  stagingFrameBytes := staging.stagingFrameBytes + bytes
  reservedFrames := staging.reservedFrames + 1
  stagingByProfile := staging.stagingByProfile.set profileId
    ((staging.stagingByProfile.get? profileId).getD 0 + bytes)

/-- `#removeStaging`. -/
def Staging.remove (staging : Staging) (profileId : ℕ) (bytes : ℤ) : Staging where
  stagingFrameBytes := staging.stagingFrameBytes - bytes
  reservedFrames := staging.reservedFrames - 1
  stagingByProfile :=
    let next := (staging.stagingByProfile.get? profileId).getD 0 - bytes
    if next = 0 then staging.stagingByProfile.delete profileId
    else staging.stagingByProfile.set profileId next

end Quotas

/-! ### Checks of the inputs -/

/-- `fixed(value, 32, field, true)`. -/
def nonzero (value : B) (field : String) : Except Failure Unit :=
  require (value ≠ 0) (failure .badEncoding (field ++ " must be nonzero"))

/-- `u64(value, field)`. -/
def u64 (value : ℕ) (field : String) : Except Failure Unit :=
  require (value ≤ maxU64) (failure .badEncoding (field ++ " is outside u64"))

def preparedView (p : PreparedAdmission B) : Except Failure Unit := do
  let range := fun (value low high : ℕ) (field : String) =>
    require (low ≤ value ∧ value ≤ high)
      (failure .badEncoding (field ++ " is outside " ++ toString low ++ ".." ++ toString high))
  require (1 ≤ p.walCommitRecord.length ∧ p.walCommitRecord.length ≤ 16384)
    (failure .badEncoding "preparedAdmission.walCommitRecord is outside 1..16384 bytes")
  nonzero p.spendTag "preparedAdmission.spendTag"
  nonzero p.requestCommitment "preparedAdmission.requestCommitment"
  range p.profileId 1 0xffff "preparedAdmission.profileId"
  range p.schemeId 1 0xffff "preparedAdmission.schemeId"
  nonzero p.parameterHash "preparedAdmission.parameterHash"
  range p.resourceClass 0 0xffff "preparedAdmission.resourceClass"
  range p.leaseClass 0 0xff "preparedAdmission.leaseClass"
  u64 p.costUnits "preparedAdmission.costUnits"

def resultBindingBytes (cfg : Config B) (b : ResultBinding B) : Except Failure Unit := do
  require b.Canonical (failure .badEncoding "resultBinding is not canonical")
  require (BindingAccepted cfg b) (failure .badEncoding "resultBinding does not bind this profile-1 Inbox store")

/-- What `#spendDisposition` returns. -/
inductive Disposition (B : Type) where
  | fresh
  | conflict
  | terminal
  | replay (spend : SpendEntry B)
  | reserved (spend : SpendEntry B)

def spendDisposition (s : State B) (prepared : PreparedAdmission B) (operation : Operation) :
    Disposition B :=
  match s.spends.get? prepared.spendTag, s.commitments.get? prepared.requestCommitment with
  | none, none => .fresh
  | some spend, some commitment =>
    if commitment.spendKey = prepared.spendTag ∧ spend.state.operation = operation ∧
        spend.requestCommitment = prepared.requestCommitment then
      match spend.state with
      | .terminal .. => .terminal
      | .reserved _ => .reserved spend
      | _ => .replay spend
    else .conflict
  | _, _ => .conflict

/-- `operationSpendBase`, with the binding that its callers add. -/
def operationSpendBase (cfg : Config B) (operation : Operation) (prepared : PreparedAdmission B)
    (physicalTopic : B) (frame : Option (ℕ × B)) (requestedLeaseClass nowMillis committedEpoch : ℕ)
    (resultBinding : ResultBinding B) : Except Failure (SpendTerms B) := do
  require (∀ f ∈ frame, f.2 ≠ 0) (failure .badEncoding "frameHash must be nonzero")
  nonzero physicalTopic "physicalTopic"
  u64 nowMillis "nowUnixMillis"
  pure
    { prepared with
      requestFingerprint := cfg.hashes.requestFingerprint
        { operation := operation
          spendTag := prepared.spendTag
          requestCommitment := prepared.requestCommitment
          physicalTopic := physicalTopic
          frameClass := frame.elim 0 Prod.fst
          frameHash := frame.map Prod.snd
          requestedLeaseClass := requestedLeaseClass
          profileId := prepared.profileId
          declaredBytes := frame.elim 0 fun f => inboxFrameClass f.1 }
      preparedAdmission := prepared
      deadlineUnixMillis := nowMillis + maxReservationMillis
      committedEpoch := committedEpoch
      resultBinding := resultBinding }

/-- The record of a topic, if `#publiclyVisible`. -/
def visibleInbox (s : State B) (topic : B) : Except Failure (InboxRecord B) :=
  demand (publiclyVisible (s.inboxes.get? topic) s.epochFloor) (failure .notFound "inbox is absent")

/-- `#assertManagementCas`, with the record that it finds. -/
def assertManagementCas (s : State B) (topic : B) (expectedRevision expectedLeaseEpoch : ℕ) :
    Except Failure (InboxRecord B) := do
  let record ← visibleInbox s topic
  u64 expectedRevision "expectedRevision"
  let stale := failure .staleRevision "Inbox management CAS is stale"
  require (record.stateRevision = expectedRevision) stale
  require (expectedLeaseEpoch ≤ maxU32) (failure .badEncoding "expectedLeaseEpoch is outside 0..4294967295")
  require (record.leaseEpoch = expectedLeaseEpoch) stale
  pure record

/-! ### What the operations decide to write -/

/-- What an operation answers, as the arguments of the method that builds the answer. -/
inductive Reply (B : Type) where
  /-- `#mutationResult`. -/
  | mutation (spend : SpendEntry B) (inbox : InboxRecord B)
  /-- `#closeResult`. -/
  | closed (result : RequestResult B) (inbox : InboxRecord B)
  /-- `#appendResult`; the frame of an expired append is made of the fields of its spend. -/
  | appended (spend : SpendEntry B) (stored : Option (StoredFrame B))
  /-- `#pinnedPage`. -/
  | page (spend : SpendEntry B) (pin : RetryPin B) (frames : List (StoredFrame B))
  | policy (policyRevision : ℕ)
  | done

/-- An operation answers from the maps, or writes a frame. -/
inductive Outcome (B : Type) where
  | reply (value : Reply B)
  | write (virtualBucket : ℕ) (payload : Payload B)

section Outcomes

variable (cfg : Config B) (auth : CursorAuth B) (s : State B)

/-- `#createInbox`, up to the write. -/
def createOutcome (staging : Staging) (input : CreateInput B) : Except Failure (Outcome B) := do
  let prepared := input.preparedAdmission
  let topic := input.terms.physicalTopic
  preparedView prepared
  nonzero input.requestCommitment "requestCommitment"
  require (prepared.requestCommitment = input.requestCommitment)
    (failure .spendInvalid "CREATE prepared admission does not match request")
  nonzero topic "physicalTopic"
  match spendDisposition s prepared .create with
  | .conflict => .error (failure .spendReplay "CREATE spend conflicts with another request")
  | .terminal => .error (failure .retryTerminal "CREATE spend is terminal")
  | .replay spend => do
    let existing ← visibleInbox s topic
    pure (.reply (.mutation spend existing))
  | .fresh | .reserved _ => do
    require (s.inboxes.get? topic = none) (failure .conflict "physical topic already exists")
    checkCapacity cfg.quota s staging ⟨.create, topic, 0, 0, some prepared.profileId⟩
    let spend ← operationSpendBase cfg .create prepared topic none input.terms.leaseClass
      input.nowUnixMillis s.epochFloor input.resultBinding
    let createCommitment ← inboxCreateCommitment cfg input.terms
    resultBindingBytes cfg input.resultBinding
    pure (.write (cfg.hashes.virtualBucket topic) (.createCommitted
      { input with
        spend := spend
        createCommitment := createCommitment
        leaseEpoch := min maxU32 (s.epochFloor + leaseEpochs input.terms.leaseClass)
        resultIdentity := cfg.hashes.resultIdentity
          ⟨.create, topic, prepared.requestCommitment, 0, createCommitment, s.epochFloor⟩ }))

def renewNotDue (retryAfterEpoch : ℕ) : Failure where
  code := .renewNotDue
  message := "renewal would not extend the inbox lease"
  retryable := true
  retryAfterEpoch := some retryAfterEpoch

/-- `#renewInbox`, up to the write. -/
def renewOutcome (input : RenewInput B) : Except Failure (Outcome B) := do
  let prepared := input.preparedAdmission
  let topic := input.physicalTopic
  nonzero topic "physicalTopic"
  preparedView prepared
  match spendDisposition s prepared .renew with
  | .conflict => .error (failure .spendReplay "RENEW spend conflicts with another request")
  | .terminal => .error (failure .retryTerminal "RENEW spend is terminal")
  | .replay spend => do
    let record ← visibleInbox s topic
    pure (.reply (.mutation spend record))
  | .fresh | .reserved _ => do
    let record ← assertManagementCas s topic input.expectedRevision input.expectedLeaseEpoch
    -- an unknown class has no number of epochs: the lease is not a number, and the codec refuses it
    require (1 ≤ input.leaseClass ∧ input.leaseClass ≤ 4) (failure .plain "newLeaseEpoch must be a u32")
    let target := min maxU32 (max record.leaseEpoch (s.epochFloor + leaseEpochs input.leaseClass))
    require (target ≠ record.leaseEpoch)
      (renewNotDue (max (s.epochFloor + 1) (record.leaseEpoch - leaseEpochs input.leaseClass + 1)))
    let spend ← operationSpendBase cfg .renew prepared topic none input.leaseClass
      input.nowUnixMillis s.epochFloor input.resultBinding
    resultBindingBytes cfg input.resultBinding
    pure (.write record.metadataVirtualBucket (.renewCommitted
      { input with
        spend := spend
        physicalTopic := topic
        oldStateRevision := record.stateRevision
        newStateRevision := record.stateRevision + 1
        oldLeaseEpoch := record.leaseEpoch
        newLeaseEpoch := target
        resultIdentity := cfg.hashes.resultIdentity
          ⟨.renew, topic, prepared.requestCommitment, record.stateRevision + 1,
            record.createCommitment, s.epochFloor⟩ }))

/-- `#closeInbox`, up to the write. -/
def closeOutcome (transactionId : B) (input : CloseInput B) : Except Failure (Outcome B) := do
  let topic := input.physicalTopic
  nonzero topic "physicalTopic"
  nonzero input.requestCommitment "requestCommitment"
  match s.requestResults.get? input.requestCommitment with
  | some prior => do
    let record ← demand (s.inboxes.get? topic) (failure .plain "no record of the inbox")
    pure (.reply (.closed prior record))
  | none => do
    let record ← assertManagementCas s topic input.expectedRevision input.expectedLeaseEpoch
    resultBindingBytes cfg input.resultBinding
    pure (.write record.metadataVirtualBucket (.closeCommitted
      { transactionId := transactionId
        requestCommitment := input.requestCommitment
        requestFingerprint :=
          cfg.hashes.closeFingerprint input.requestCommitment input.clientNonce
        physicalTopic := topic
        oldStateRevision := record.stateRevision
        newStateRevision := record.stateRevision + 1
        oldLeaseEpoch := record.leaseEpoch
        clientNonce := input.clientNonce
        committedEpoch := s.epochFloor
        resultBinding := input.resultBinding
        resultIdentity := cfg.hashes.resultIdentity
          ⟨.close, topic, input.requestCommitment, record.stateRevision + 1,
            record.createCommitment, s.epochFloor⟩ }))

/-- `finalizeAppendAck`, up to the write. -/
def ackOutcome (input : AckInput B) : Except Failure (Outcome B) := do
  nonzero input.spendTag "spendTag"
  nonzero input.requestCommitment "requestCommitment"
  nonzero input.ackSignature "ackSignature"
  nonzero input.resultCommitment "resultCommitment"
  let mismatch := failure .spendReplay "Inbox APPEND finalization does not match its spend"
  let spend ← demand (s.spends.get? input.spendTag) mismatch
  require (spend.state.operation = .append ∧ spend.requestCommitment = input.requestCommitment) mismatch
  match spend.state with
  | .appended _ ackSignature resultCommitment
  | .expiredAppend _ ackSignature resultCommitment _ => do
    require (ackSignature = input.ackSignature ∧ resultCommitment = input.resultCommitment)
      (failure .conflict "Inbox APPEND retry changed its signed acknowledgement")
    pure (.reply .done)
  | .provisional terms => do
    let body ← appendAckBytes cfg spend terms input.ackSignature
    require (cfg.hashes.ackDigest body = input.resultCommitment)
      (failure .conflict "Inbox APPEND result commitment does not match signed acknowledgement")
    pure (.write (cfg.hashes.virtualBucket spend.physicalTopic) (.appendAckFinalized
      { input with
        finalizedEpoch := s.epochFloor }))
  | _ => .error (failure .retryTerminal "Inbox APPEND cannot be finalized")

/-- `#pinnedPage`, up to the reading of the bodies. -/
def pinnedPage (spendTag : B) (nowUnixMillis : ℕ) : Except Failure (Reply B) := do
  let absent := failure .retryTerminal "Inbox retry pin is absent"
  let pin ← demand (s.retryPins.get? spendTag) absent
  let spend ← demand (s.spends.get? spendTag) absent
  let nowMinute ← minuteFromMillis nowUnixMillis
  require (nowMinute ≤ pin.retryExpiresMinute) (failure .retryTerminal "Inbox retry pin expired")
  let frames ← pinnedFrames s pin
  require (cfg.hashes.inboxEntriesCommitment (frames.map StoredFrame.entry) = pin.entriesCommitment)
    (failure .internal "Inbox retry entries commitment changed")
  pure (.page spend pin frames)

/-- The cursor of a charged page: a `WATCH` starts after the revision that it names. -/
def pinCursor (input : PinInput B) (record : InboxRecord B) : Except Failure Cursor :=
  if input.watch then do
    u64 input.afterRevision "afterRevision"
    let nowMinute ← minuteFromMillis input.cursorMillis
    pure ⟨input.afterRevision, record.appendRevision, nowMinute + cursorMinutes⟩
  else
    decodeReadCursor auth input.physicalTopic input.cursor record.appendRevision input.cursorMillis

/-- `#waitUntilWatchReady`, which only a `WATCH` calls. -/
def waitUntilWatchReady (input : PinInput B) : Except Failure Unit :=
  if input.watch then do
    let record ← visibleInbox s input.physicalTopic
    u64 input.afterRevision "afterRevision"
    if record.appendRevision ≤ input.afterRevision then input.waited else pure ()
  else pure ()

def PinInput.payload (input : PinInput B) (spend : SpendTerms B) (page : Page B)
    (retryExpiresMinute : ℕ) : ReadPinCommitted B where
  __ := page
  operationId := if input.watch then .watch else .read
  spend := spend
  physicalTopic := input.physicalTopic
  clientNonce := input.clientNonce
  entriesCommitment := cfg.hashes.inboxEntriesCommitment page.entries
  sourceCommitment := cfg.hashes.retrySourceCommitment input.physicalTopic page.snapshotRevision
    { firstAppendRevision := (page.entries.head?.map PinEntry.appendRevision).getD 0
      lastAppendRevision := (page.entries.getLast?.map PinEntry.appendRevision).getD 0
      entryCount := page.entries.length
      nextCursorHash := page.nextCursor.elim 0 cfg.hashes.cursorDigest }
    (page.entries.map fun e => (e.appendRevision, e.frameHash))
  retryExpiresMinute := retryExpiresMinute

/-- `#pinChargedPage`, up to the write. -/
def pinOutcome (input : PinInput B) : Except Failure (Outcome B) := do
  let operation := if input.watch then Operation.watch else .read
  let prepared := input.preparedAdmission
  let topic := input.physicalTopic
  nonzero topic "physicalTopic"
  preparedView prepared
  waitUntilWatchReady s input
  let record ← visibleInbox s topic
  match spendDisposition s prepared operation with
  | .conflict => .error (failure .spendReplay "charged Inbox read spend conflicts")
  | .terminal => .error (failure .retryTerminal "charged Inbox read retry is terminal")
  | .replay _ | .reserved _ => do
    let page ← pinnedPage cfg s prepared.spendTag input.expiryMillis
    pure (.reply page)
  | .fresh => do
    let cursor ← pinCursor auth input record
    let page ← materializePage auth s record cursor input.limit
    let spend ← operationSpendBase cfg operation prepared topic none 0 input.deadlineMillis
      s.epochFloor input.resultBinding
    let nowMinute ← minuteFromMillis input.expiryMillis
    resultBindingBytes cfg input.resultBinding
    pure (.write record.metadataVirtualBucket
      (.readPinCommitted (input.payload cfg spend page (nowMinute + cursorMinutes))))

def SpendState.resultCommitment? : SpendState B → Option B
  | .appended _ _ resultCommitment | .expiredAppend _ _ resultCommitment _ => some resultCommitment
  | .read _ result _ => some result.resultCommitment
  | _ => none

/-- `finalizeChargedPage`, up to the write. -/
def pageOutcome (input : PageInput B) : Except Failure (Outcome B) := do
  nonzero input.spendTag "spendTag"
  nonzero input.requestCommitment "requestCommitment"
  nonzero input.resultCommitment "resultCommitment"
  let mismatch := failure .spendReplay "Inbox read finalization does not match its spend"
  let spend ← demand (s.spends.get? input.spendTag) mismatch
  let pin ← demand (s.retryPins.get? input.spendTag) mismatch
  require (spend.requestCommitment = input.requestCommitment) mismatch
  if spend.state.isCommitted then do
    require (spend.state.resultCommitment? = some input.resultCommitment)
      (failure .conflict "Inbox read retry changed signed result bytes")
    pure (.reply .done)
  else
    pure (.write (cfg.hashes.virtualBucket spend.physicalTopic) (.readPinFinalized
      { input with
        resultIdentity := cfg.hashes.resultIdentity
          ⟨spend.state.operation, spend.physicalTopic, input.requestCommitment, pin.sourceRevision,
            input.resultCommitment, pin.committedEpoch⟩
        finalizedEpoch := s.epochFloor }))

/-- `setPolicy`, up to the write. -/
def policyOutcome (input : PolicyInput B) : Except Failure (Outcome B) := do
  nonzero input.physicalTopic "physicalTopic"
  let record ← demand (s.inboxes.get? input.physicalTopic) (failure .notFound "inbox is absent")
  pure (.write record.metadataVirtualBucket (.policyCommitted
    { input with
      oldPolicyRevision := record.policyRevision
      newPolicyRevision := record.policyRevision + 1
      committedEpoch := s.epochFloor }))

end Outcomes

/-! ### The engine and its log -/

/-- What an engine is constructed with, and the sources of its random and hashed values. -/
structure Setup (B : Type) where
  cfg : Config B
  auth : CursorAuth B
  /-- The transaction id of the frame at a position of the log. -/
  newTransactionId : ℕ → B
  /-- A payload that `encodeWalFrame` takes: it is not longer than `maximumWalPayloadBytes`. -/
  fits : Payload B → Bool
  (initialEpochFloor maxStartupReferences : ℕ)
  /-- The digest of `#verifyFrameBodies` for a frame and the reason its body failed. -/
  evidenceHash : StoredFrame B → IntegrityReason → B

structure Engine (B : Type) where
  opened : Bool
  state : State B
  staging : Staging
  /-- The frames of the log, which outlive the engine. -/
  wal : List (Frame B)
  /-- A durable frame was not applied. -/
  poisoned : Bool
  /-- The append that waits for its body, and the record it read. -/
  appending : Option (AppendInput B × InboxRecord B)

/-- The constructor, over a log that is there. -/
def Engine.closed (wal : List (Frame B)) : Engine B where
  opened := false
  state := .empty B
  staging := .empty
  wal := wal
  poisoned := false
  appending := none

/-- The maps after a durable frame: a transition that throws has not touched them, and
`#assertAccounting` throws after the update. -/
def applied (cfg : Config B) (s : State B) (frame : Frame B) : State B :=
  if frame.payload.Canonical then (applyPayload cfg s frame).toOption.getD s else s

def applyDurable (cfg : Config B) (frame : Frame B) : Act (Engine B) Failure Unit := do
  let e ← Act.get
  Act.modify fun e => { e with state := applied cfg e.state frame }
  let _ ← Act.ofExcept (applyFrame cfg e.state frame e.staging)

section Operations

variable (setup : Setup B)

/-- What is checked before a frame is written: a frame that is refused leaves no trace. -/
def Engine.admitFrame (e : Engine B) (payload : Payload B) : Except Failure Unit := do
  require payload.Canonical (failure .plain "non-canonical Inbox WAL payload")
  require (e.opened = true) (failure .plain "transaction store is not open")
  require (e.poisoned = false) (integrityError "transaction store requires recovery after an interrupted WAL append")
  require (setup.fits payload = true) (failure .plain "WAL payload is too large")

/-- `#appendAndApply`. A frame that is written and not applied poisons the store. -/
def appendAndApply (transactionId : B) (virtualBucket : ℕ) (payload : Payload B) : Act (Engine B) Failure Unit := do
  let frame : Frame B := ⟨transactionId, virtualBucket, payload⟩
  let e ← Act.get
  Act.ofExcept (e.admitFrame setup payload)
  -- until the frame is applied the store counts as interrupted
  Act.modify fun e => { e with wal := e.wal ++ [frame], poisoned := true }
  applyDurable setup.cfg frame
  Act.modify fun e => { e with poisoned := false }

/-- `newTransactionId`: every frame of the log has one of its own. -/
def Engine.nextId (e : Engine B) : B := setup.newTransactionId e.wal.length

def Engine.assertOpen (e : Engine B) : Except Failure Unit :=
  require (e.opened = true) (failure .plain "inbox storage engine is not open")

def Engine.assertWritable (e : Engine B) : Except Failure Unit := do
  e.assertOpen
  require (e.state.readOnlyReason = none) (failure .internal "store is read-only")

/-! ### Operations that write one frame -/

/-- A call of an operation that writes at most one frame and reserves nothing. -/
inductive Request (B : Type) where
  | create (input : CreateInput B)
  | renew (input : RenewInput B)
  | close (input : CloseInput B)
  | finalizeAck (input : AckInput B)
  | pin (input : PinInput B)
  | finalizePage (input : PageInput B)
  | policy (input : PolicyInput B)

def Request.outcome (e : Engine B) (request : Request B) : Except Failure (Outcome B) := do
  e.assertWritable
  match request with
  | .create input => createOutcome setup.cfg e.state e.staging input
  | .renew input => renewOutcome setup.cfg e.state input
  | .close input => closeOutcome setup.cfg e.state (e.nextId setup) input
  | .finalizeAck input => ackOutcome setup.cfg e.state input
  | .pin input => pinOutcome setup.cfg setup.auth e.state input
  | .finalizePage input => pageOutcome setup.cfg e.state input
  | .policy input => policyOutcome e.state input

/-- The answer of a call that has written its frame. -/
def Request.answer (s : State B) : Request B → Except Failure (Reply B)
  | .create input => do
    let lost := failure .plain "the frame did not define its spend and its inbox"
    let spend ← demand (s.spends.get? input.preparedAdmission.spendTag) lost
    let inbox ← demand (s.inboxes.get? input.terms.physicalTopic) lost
    pure (.mutation spend inbox)
  | .renew input => do
    let lost := failure .plain "the frame did not define its spend"
    let spend ← demand (s.spends.get? input.preparedAdmission.spendTag) lost
    let record ← demand (s.inboxes.get? input.physicalTopic) lost
    pure (.mutation spend record)
  | .close input => do
    let lost := failure .plain "the frame did not define its result"
    let result ← demand (s.requestResults.get? input.requestCommitment) lost
    let record ← demand (s.inboxes.get? input.physicalTopic) lost
    pure (.closed result record)
  | .pin input => pinnedPage setup.cfg s input.preparedAdmission.spendTag input.expiryMillis
  | .policy input => do
    let record ← demand (s.inboxes.get? input.physicalTopic) (failure .plain "no record")
    pure (.policy record.policyRevision)
  | .finalizeAck _ | .finalizePage _ => pure .done

/-- `createInbox`, `renewInbox`, `closeInbox`, `finalizeAppendAck`, `pinChargedPage`,
`finalizeChargedPage` and `setPolicy`. -/
def Request.perform (request : Request B) : Act (Engine B) Failure (Reply B) := do
  let e ← Act.get
  let outcome ← Act.ofExcept (request.outcome setup e)
  match outcome with
  | .reply value => pure value
  | .write virtualBucket payload => do
    appendAndApply setup (e.nextId setup) virtualBucket payload
    let e ← Act.get
    Act.ofExcept (request.answer setup e.state)

/-! ### Appends -/

/-- What an append decides before it stages its body. -/
inductive AppendOutcome (B : Type) where
  | reply (value : Reply B)
  | stage (record : InboxRecord B)

/-- The answer of `#appendFrame` to a retry. It also reads the stored body and compares it, which has
no effect on the engine. -/
def appendRetry (s : State B) (input : AppendInput B) (spend : SpendEntry B) : Except Failure (Reply B) :=
  match spend.state with
  | .expiredAppend terms _ _ _ => do
    require (terms.frameHash = input.frameHash) (failure .conflict "expired APPEND retry changed frame identity")
    pure (.appended spend none)
  | state => do
    let changed := failure .conflict "APPEND retry changed frame identity"
    let terms ← demand state.appendTerms? changed
    let stored ← demand (s.frames.get? (input.physicalTopic, terms.resultRevision)) changed
    require (stored.frameHash = input.frameHash) changed
    pure (.appended spend (some stored))

/-- `#appendFrame`, up to the reservation of the staging bytes. -/
def appendOutcome (e : Engine B) (input : AppendInput B) : Except Failure (AppendOutcome B) := do
  e.assertWritable
  let s := e.state
  let prepared := input.preparedAdmission
  let topic := input.physicalTopic
  nonzero topic "physicalTopic"
  preparedView prepared
  require (1 ≤ input.frameClass ∧ input.frameClass ≤ 3 ∧ input.frameLength = inboxFrameClass input.frameClass)
    (failure .badEncoding "frame must have the length of its class")
  require (input.frameDigest = input.frameHash) (failure .conflict "frame bytes do not match frameHash")
  match spendDisposition s prepared .append with
  | .conflict => .error (failure .spendReplay "APPEND spend conflicts with another request")
  | .terminal => .error (failure .retryTerminal "APPEND spend is terminal")
  | .replay spend => do
    let value ← appendRetry s input spend
    pure (.reply value)
  | .fresh | .reserved _ => do
    let record ← visibleInbox s topic
    require (record.frameClassBits.testBit (input.frameClass - 1) = true)
      (failure .tooLarge "frame class is not enabled by this inbox")
    checkCapacity setup.cfg.quota s e.staging ⟨.append, topic, input.frameClass, 0, some prepared.profileId⟩
    pure (.stage record)

/-- `appendFrame`, up to the staging of the body. -/
def appendFrame (input : AppendInput B) : Act (Engine B) Failure (Option (Reply B)) := do
  let e ← Act.get
  let outcome ← Act.ofExcept (appendOutcome setup e input)
  match outcome with
  | .reply value => pure (some value)
  | .stage record => do
    Act.modify fun e =>
      { e with
        staging := e.staging.add input.preparedAdmission.profileId input.frameLength
        appending := some (input, record) }
    pure none

/-- The frame that an append with a published body writes. -/
def appendPayload (s : State B) (input : AppendInput B) (record : InboxRecord B)
    (frameObjectId : B) : Except Failure (Payload B) := do
  let prepared := input.preparedAdmission
  let topic := input.physicalTopic
  let spend ← operationSpendBase setup.cfg .append prepared topic
    (some (input.frameClass, input.frameHash)) 0 input.nowUnixMillis s.epochFloor
    input.resultBinding
  let revision := record.allocatedAppendRevision + 1
  let expires := min record.leaseEpoch (s.epochFloor + leaseEpochs record.retentionClass)
  require (s.epochFloor < expires) (failure .expired "inbox lease does not permit a new retained frame")
  resultBindingBytes setup.cfg input.resultBinding
  pure (.appendCommitted
    { input with
      spend := spend
      physicalTopic := topic
      frameObjectId := frameObjectId
      appendRevision := revision
      appendLeaseEpoch := record.leaseEpoch
      expiresAtEpoch := expires
      resultIdentity := setup.cfg.hashes.resultIdentity
        ⟨.append, topic, prepared.requestCommitment, revision, input.frameHash, s.epochFloor⟩ })

/-- The body of the `try` of `#appendFrame`; `published` is what `stageOpaque` and `publishOpaque` end
with. -/
def commitAppend (input : AppendInput B) (record : InboxRecord B) (published : Except Failure B) :
    Act (Engine B) Failure (Reply B) := do
  let frameObjectId ← Act.ofExcept published
  let e ← Act.get
  let payload ← Act.ofExcept (appendPayload setup e.state input record frameObjectId)
  appendAndApply setup (e.nextId setup) record.metadataVirtualBucket payload
  let e ← Act.get
  let spend ← Act.ofExcept (demand (e.state.spends.get? input.preparedAdmission.spendTag)
    (failure .plain "the frame did not define its spend"))
  pure (.appended spend (e.state.frames.get? (input.physicalTopic, record.allocatedAppendRevision + 1)))

/-- `appendFrame`, from the staging of the body on: the `finally` gives the staging bytes back,
whatever the commit ends with. -/
def finishAppend (input : AppendInput B) (record : InboxRecord B) (published : Except Failure B) :
    Act (Engine B) Failure (Reply B) := fun e =>
  let (result, e) := commitAppend setup input record published e
  (result,
    { e with
      staging := e.staging.remove input.preparedAdmission.profileId input.frameLength
      appending := none })

/-! ### The floor and the sweeps -/

/-- The loop of `advanceEpochFloor`. Every frame raises the floor, so that `next` turns are enough. -/
def advanceLoop (next : ℕ) : ℕ → Act (Engine B) Failure Unit
  | 0 => pure ()
  | fuel + 1 => do
    let e ← Act.get
    let floor := e.state.epochFloor
    if floor < next then do
      appendAndApply setup (e.nextId setup) 0 (.floorAdvance ⟨floor, min next (floor + 4)⟩)
      advanceLoop next fuel
    else pure ()

def advanceEpochFloor (next : ℕ) : Act (Engine B) Failure ℕ := do
  let e ← Act.get
  Act.ofExcept e.assertOpen
  Act.ofExcept (require (next ≤ maxU32) (failure .badEncoding "nextEpochFloor is outside 0..4294967295"))
  advanceLoop setup next next
  let e ← Act.get
  pure e.state.epochFloor

/-- The loop of `#sweepExpiredRetryPins`, with the number of pins it may still sweep. -/
def sweepPins (nowMinute : ℕ) : List (RetryPin B) → ℕ → Act (Engine B) Failure ℕ
  | [], _ => pure 0
  | pin :: pins, limit => do
    if limit = 0 then pure 0
    else do
      let e ← Act.get
      if (e.state.spends.get? pin.spendTag).any (fun spend => spend.state.expirable) = true ∧
          pin.retryExpiresMinute < nowMinute then do
        appendAndApply setup (e.nextId setup) (setup.cfg.hashes.virtualBucket pin.physicalTopic) (.readPinExpired
            { pin with
              terminalEpoch := e.state.epochFloor })
        let swept ← sweepPins nowMinute pins (limit - 1)
        pure (swept + 1)
      else sweepPins nowMinute pins limit

def sweepExpiredRetryPins (limit nowUnixMillis : ℕ) : Act (Engine B) Failure ℕ := do
  let e ← Act.get
  if e.state.readOnlyReason.isSome then pure 0
  else do
    let nowMinute ← Act.ofExcept (minuteFromMillis nowUnixMillis)
    sweepPins setup nowMinute e.state.retryPins.values limit

/-- The payload with which `#sweepExpired` expires a frame. -/
def StoredFrame.expiry (stored : StoredFrame B) (spend : SpendEntry B) (terms : AppendTerms B)
    (ackSignature resultCommitment : B) (epochFloor : ℕ) : AppendExpired B where
  __ := spend
  physicalTopic := stored.physicalTopic
  appendRevision := stored.appendRevision
  frameHash := stored.frameHash
  frameClass := stored.frameClass
  declaredBytes := terms.declaredBytes
  resultIdentity := terms.resultIdentity
  frameObjectId := stored.frameObjectId
  storedAtEpoch := stored.storedAtEpoch
  retentionClassAtAppend := terms.retentionClassAtAppend
  appendLeaseEpoch := stored.appendLeaseEpoch
  expiresAtEpoch := stored.expiresAtEpoch
  expiredEpoch := epochFloor
  ackSignature := ackSignature
  resultCommitment := resultCommitment

/-- The payload for a frame that `#sweepExpired` does not skip: it has expired, no pin holds it and
its append is acknowledged. -/
def State.frameExpiry (s : State B) (stored : StoredFrame B) : Option (AppendExpired B) :=
  if stored.expiresAtEpoch ≤ s.epochFloor ∧ s.framePinned stored = false then do
    let spend ← s.spends.get? stored.spendTag
    let (terms, ackSignature, resultCommitment) ← spend.appended?
    pure (stored.expiry spend terms ackSignature resultCommitment s.epochFloor)
  else none

/-- The loop of `#sweepExpired` over the frames. -/
def sweepFrames : List (StoredFrame B) → ℕ → Act (Engine B) Failure ℕ
  | [], _ => pure 0
  | stored :: frames, limit => do
    if limit = 0 then pure 0
    else do
      let e ← Act.get
      match e.state.frameExpiry stored with
      | some payload => do
        appendAndApply setup (e.nextId setup) stored.frameVirtualBucket (.appendExpired payload)
        let swept ← sweepFrames frames (limit - 1)
        pure (swept + 1)
      | none => sweepFrames frames limit

/-- The payload for an inbox that `#sweepExpired` does not skip: its lease has been over for more than
four epochs. -/
def State.inboxGc (s : State B) (topic : B) : Option (ℕ × InboxGc B) := do
  let record ← s.inboxes.get? topic
  if record.objectState = .present ∧ record.leaseEpoch + 4 < s.epochFloor then
    pure (record.metadataVirtualBucket,
      { physicalTopic := record.physicalTopic
        oldStateRevision := record.stateRevision
        newStateRevision := record.stateRevision + 1
        expectedLeaseEpoch := record.leaseEpoch
        terminalEpoch := s.epochFloor })
  else none

/-- The loop of `#sweepExpired` over the inboxes. -/
def sweepInboxes : List B → ℕ → Act (Engine B) Failure ℕ
  | [], _ => pure 0
  | topic :: topics, limit => do
    if limit = 0 then pure 0
    else do
      let e ← Act.get
      match e.state.inboxGc topic with
      | some (virtualBucket, payload) => do
        appendAndApply setup (e.nextId setup) virtualBucket (.inboxGc payload)
        let swept ← sweepInboxes topics (limit - 1)
        pure (swept + 1)
      | none => sweepInboxes topics limit

/-- `#sweepExpired`. -/
def sweepExpiredFrames (limit : ℕ) : Act (Engine B) Failure ℕ := do
  let e ← Act.get
  if e.state.readOnlyReason.isSome then pure 0
  else do
    let frames ← sweepFrames setup e.state.frames.values limit
    let e ← Act.get
    let inboxes ← sweepInboxes setup (e.state.inboxes.entries.map Prod.fst) (limit - frames)
    pure (frames + inboxes)

def sweepExpired (limit nowUnixMillis : ℕ) : Act (Engine B) Failure ℕ := do
  let _ ← sweepExpiredRetryPins setup limit nowUnixMillis
  sweepExpiredFrames setup limit

/-- Set `readOnlyReason`. -/
def setReadOnly (reason : ReadOnlyReason) : Act (Engine B) Failure Unit :=
  Act.modify fun e => { e with state := { e.state with readOnlyReason := some reason } }

def nowEpochFromMillis (millis : ℕ) : Except Failure ℕ := do
  u64 millis "nowUnixMillis"
  pure (millis / 21600000)

/-- What the timer of `open` runs. -/
def clockWork (nowUnixMillis : ℕ) : Act (Engine B) Failure Unit := do
  let epoch ← Act.ofExcept (nowEpochFromMillis nowUnixMillis)
  let _ ← advanceEpochFloor setup epoch
  let _ ← sweepExpiredRetryPins setup 4096 nowUnixMillis
  let _ ← sweepExpiredFrames setup 4096

/-- A tick of the timer: its failure makes the store read-only. -/
def clockTick (nowUnixMillis : ℕ) : Act (Engine B) Failure Unit := fun e =>
  match clockWork setup nowUnixMillis e with
  | (.ok _, e) => (.ok (), e)
  | (.error _, e) =>
    if e.state.readOnlyReason.isNone then setReadOnly .clockTimerFailed e else (.ok (), e)

/-! ### Opening a store -/

/-- What an opening finds: what is wrong with the bodies, and the time. -/
structure Startup (B : Type) where
  inspect : StoredFrame B → Option IntegrityReason
  nowUnixMillis : ℕ

def replayFrames : List (Frame B) → Act (Engine B) Failure Unit
  | [] => pure ()
  | frame :: frames => do
    applyDurable setup.cfg frame
    replayFrames frames

def verifyFrameBodies (inspect : StoredFrame B → Option IntegrityReason) : Act (Engine B) Failure Unit := do
  let e ← Act.get
  let broken := e.state.frames.values.findSome? fun stored =>
    (inspect stored).map fun reason => (stored, reason)
  if setup.maxStartupReferences < e.state.frames.size then
    setReadOnly .startupReferenceBoundExceeded
  else
    match broken with
    | none => pure ()
    | some (stored, reason) => do
      setReadOnly .recoveryGapReadOnly
      let evidenceHash := setup.evidenceHash stored reason
      if e.state.integrityEvidence.any fun item => item.evidenceHash = evidenceHash then pure ()
      else
        appendAndApply setup (e.nextId setup) 0 (.integrityFailed ⟨reason, e.state.epochFloor, evidenceHash⟩)

def assertRecoveredQuota : Act (Engine B) Failure Unit := do
  let e ← Act.get
  if QuotaExceeded setup.cfg.quota e.state e.staging then setReadOnly .recoveredQuotaExceeded
  else pure ()

/-- The `try` of `open`, from the end of the replay on; a log without frames gets its first floor. -/
def afterReplay (startup : Startup B) : Act (Engine B) Failure Unit := do
  let e ← Act.get
  if e.wal.length = 0 then
    appendAndApply setup (e.nextId setup) 0 (.floorAdvance ⟨0, setup.initialEpochFloor⟩)
  else pure ()
  verifyFrameBodies setup startup.inspect
  let _ ← sweepExpiredRetryPins setup 4096 startup.nowUnixMillis
  let _ ← sweepExpiredFrames setup 4096
  assertRecoveredQuota setup

/-- The `try` of `open`. -/
def recover (startup : Startup B) : Act (Engine B) Failure Unit := do
  let e ← Act.get
  replayFrames setup e.wal
  Act.modify fun e => { e with opened := true }
  afterReplay setup startup

/-- `open` of a new engine over a log. -/
def openStore (startup : Startup B) (wal : List (Frame B)) : Except Failure Unit × Engine B :=
  match recover setup startup (Engine.closed wal) with
  | (.ok _, e) => (.ok (), e)
  | (.error error, e) => (.error error, { e with opened := false })

/-! ### Runs -/

inductive Move (B : Type) where
  | request (request : Request B)
  | append (input : AppendInput B)
  /-- The body of the append that waits is published, or is not. -/
  | published (answer : Except Failure B)
  | advanceEpochFloor (next : ℕ)
  | sweepExpired (limit nowUnixMillis : ℕ)
  | clockTick (nowUnixMillis : ℕ)
  /-- A new engine is opened over the log, after a close or a crash. -/
  | restart (startup : Startup B)

/-- One move of a run: while an append waits nothing else begins. -/
def engineStep (e : Engine B) : Move B → Option (Engine B)
  | .restart startup => some (openStore setup startup e.wal).2
  | .published answer => e.appending.map fun (input, record) =>
    (finishAppend setup input record answer e).2
  | .request request => if e.appending.isNone then some (request.perform setup e).2 else none
  | .append input => if e.appending.isNone then some (appendFrame setup input e).2 else none
  | .advanceEpochFloor next =>
    if e.appending.isNone then some (advanceEpochFloor setup next e).2 else none
  | .sweepExpired limit nowUnixMillis =>
    if e.appending.isNone then some (sweepExpired setup limit nowUnixMillis e).2 else none
  | .clockTick nowUnixMillis =>
    if e.appending.isNone then some (clockTick setup nowUnixMillis e).2 else none

end Operations

end HiveRelay.Inbox
