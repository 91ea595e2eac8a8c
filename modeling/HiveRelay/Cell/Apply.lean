import HiveRelay.Cell.State

/-!
# Applying WAL frames

`#applyFrame` of `storage-engine.js`: the 17 transitions of the engine's state, each a sequence of
guards that throw and then one update. The update of a transition is a definition of its own, so
that what a frame changes can be read, and proved about, apart from what it checks.
-/

namespace HiveRelay.Cell

variable {B : Type} [LinearOrder B] [Zero B]

/-! ### Bindings and admissions -/

section Checks

variable (cfg : Config B)

/-- The binding is for this relay and this store. -/
def ResultBinding.Binds (b : ResultBinding B) : Prop :=
  b.durabilityProfileId = 1 ∧ b.externalCommitWitness = false ∧ b.relayPublicKey = cfg.relayPublicKey ∧
    b.durabilityContinuityHash = cfg.durabilityContinuityHash ∧
    (∀ id ∈ cfg.storeId, b.storeId = id) ∧
    (∀ hash ∈ cfg.durabilityProfileHash, b.durabilityProfileHash = hash)

instance (b : ResultBinding B) : Decidable (b.Binds cfg) :=
  inferInstanceAs (Decidable (_ ∧ _))

def resultBindingBytes (value : Option (ResultBinding B)) (field : String := "resultBinding") :
    Except Failure (Option (ResultBinding B)) :=
  match value with
  | none => pure none
  | some b => do
    require b.Canonical (failure .badEncoding (field ++ " is not a canonical relay result binding"))
    require (b.Binds cfg) (failure .badEncoding (field ++ " does not bind this profile-1 relay/store authority"))
    pure (some b)

/-- The bindings that `#resultBindingBytes` lets through. -/
def BindingAccepted (value : Option (ResultBinding B)) : Prop :=
  ∀ b ∈ value, b.Canonical ∧ b.Binds cfg

@[simp] theorem resultBindingBytes_eq_ok {value value' : Option (ResultBinding B)} {field : String} :
    resultBindingBytes cfg value field = .ok value' ↔ BindingAccepted cfg value ∧ value = value' := by
  cases value with
  | none => simp [resultBindingBytes, BindingAccepted, pure_eq_ok_iff]
  | some b =>
    simp only [resultBindingBytes, BindingAccepted, guards_eq_ok, Option.mem_some_iff, forall_eq']
    rw [and_assoc]

def preparedAdmission (value : PreparedAdmission B) (field : String := "preparedAdmission") :
    Except Failure (PreparedAdmission B) := do
  require (1 ≤ value.walCommitRecord.length ∧ value.walCommitRecord.length ≤ 16384)
    (failure .badEncoding (field ++ ".walCommitRecord is outside 1..16384 bytes"))
  require (value.spendTag ≠ 0) (failure .badEncoding (field ++ ".spendTag must be nonzero"))
  require (value.requestCommitment ≠ 0) (failure .badEncoding (field ++ ".requestCommitment must be nonzero"))
  require (1 ≤ value.profileId ∧ value.profileId ≤ 0xffff)
    (failure .badEncoding (field ++ ".profileId is outside 1..65535"))
  require (1 ≤ value.schemeId ∧ value.schemeId ≤ 0xffff)
    (failure .badEncoding (field ++ ".schemeId is outside 1..65535"))
  require (value.parameterHash ≠ 0) (failure .badEncoding (field ++ ".parameterHash must be nonzero"))
  require (value.resourceClass ≤ 0xffff) (failure .badEncoding (field ++ ".resourceClass is outside 0..65535"))
  require (value.leaseClass ≤ 0xff) (failure .badEncoding (field ++ ".leaseClass is outside 0..255"))
  require (value.costUnits ≤ maxU64) (failure .badEncoding (field ++ ".costUnits is outside u64"))
  pure value

@[simp] theorem preparedAdmission_eq_ok {value value' : PreparedAdmission B} {field : String} :
    preparedAdmission value field = .ok value' ↔ value.Canonical ∧ value = value' := by
  simp only [preparedAdmission, guards_eq_ok, PreparedAdmission.Canonical]
  tauto

/-- The part of a transition that decodes `preparedAdmissionBytes` and compares the spend tag, the
commitment and the profile with those of its payload. -/
def boundAdmission (value : PreparedAdmission B) (spendTag requestCommitment : B) (profileId : ℕ)
    (field : String) : Except Failure (PreparedAdmission B) := do
  let prepared ← preparedAdmission value field
  require (prepared.spendTag = spendTag ∧ prepared.requestCommitment = requestCommitment ∧
    prepared.profileId = profileId) (failure .plain "binding mismatch")
  pure prepared

end Checks

/-! ### Accounting -/

def Accounting.releaseStaging (a : Accounting) (terms : PutTerms B) : Accounting :=
  let profileBytes := (a.stagingByProfile.get? terms.profileId).getD 0 - terms.declaredBytes
  { a with
    stagingBytes := a.stagingBytes - terms.declaredBytes
    stagingByProfile :=
      if profileBytes = 0 then a.stagingByProfile.delete terms.profileId
      else a.stagingByProfile.set terms.profileId profileBytes }

/-- What `#assertAccounting` asks of a counter. -/
def SafeCounter (value : ℤ) : Prop := 0 ≤ value ∧ value ≤ maxSafeInteger
  deriving Decidable

/-- What `#assertAccounting` asks of the per-profile counters. -/
def SafeProfiles (profiles : OrderedMap ℕ ℤ) : Prop :=
  ∀ value ∈ profiles.values, 0 < value ∧ value ≤ maxSafeInteger
  deriving Decidable

/-- The ledger of the atomic puts passes `#assertAccounting`. -/
def AtomicStaging.Safe (staging : AtomicStaging) : Prop :=
  SafeCounter staging.bytes ∧ SafeCounter staging.items ∧ SafeProfiles staging.byProfile
  deriving Decidable

/-- The counters pass `#assertAccounting`. -/
def Accounting.Safe (a : Accounting) : Prop :=
  SafeCounter a.storedBytes ∧ SafeCounter a.stagingBytes ∧ SafeCounter a.controlBytes ∧
    SafeCounter a.tombstoneBytes ∧ SafeCounter a.reservedCells ∧ SafeProfiles a.stagingByProfile

def assertAccounting (staging : AtomicStaging) (a : Accounting) : Except Failure Unit := do
  let counter := fun (field : String) (value : ℤ) =>
    require (SafeCounter value) (integrityError (field ++ " accounting underflow or overflow"))
  counter "storedBytes" a.storedBytes
  counter "stagingBytes" a.stagingBytes
  counter "controlBytes" a.controlBytes
  counter "tombstoneBytes" a.tombstoneBytes
  counter "reservedCells" a.reservedCells
  require (SafeProfiles a.stagingByProfile) (integrityError "per-profile staging accounting is invalid")
  require (SafeCounter staging.bytes ∧ SafeCounter staging.items)
    (integrityError "ephemeral atomic staging accounting is invalid")
  require (SafeProfiles staging.byProfile)
    (integrityError "per-profile ephemeral atomic staging accounting is invalid")

@[simp] theorem assertAccounting_eq_ok {staging : AtomicStaging} {a : Accounting} {u : Unit} :
    assertAccounting staging a = .ok u ↔ a.Safe ∧ staging.Safe := by
  simp only [assertAccounting, guards_eq_ok, Accounting.Safe, AtomicStaging.Safe]
  tauto

/-! ### Updates -/

section Updates

variable (s : State B) (frame : Frame B)

def State.addSpend (entry : SpendEntry B) : State B where
  __ := s
  spends := s.spends.set entry.spendTag entry
  commitments := s.commitments.set entry.requestCommitment
    { spendKey := entry.spendTag, fingerprint := entry.requestFingerprint }

def State.setSpend (entry : SpendEntry B) : State B where
  __ := s
  spends := s.spends.set entry.spendTag entry

def State.setCell (record : CellRecord B) : State B where
  __ := s
  cells := s.cells.set record.storageSlot record

def State.setAccounting (accounting : Accounting) : State B where
  __ := s
  accounting := accounting

/-- The reservation that `#applyReservation` creates. -/
def IngressReserved.reservation (v : IngressReserved B) : Reservation B where
  __ := v
  remainingAttempts := 2

/-- The entry that `#applyReservation` creates. -/
def IngressReserved.entry (v : IngressReserved B) : SpendEntry B where
  __ := v
  transactionId := frame.transactionId
  state := .reserved v.reservation
  committedEpoch := none
  terminalEpoch := none
  reservedWalSequence := frame.sequence

/-- The counters after a reservation. -/
def Accounting.reserve (a : Accounting) (terms : PutTerms B) : Accounting where
  storedBytes := a.storedBytes
  stagingBytes := a.stagingBytes + terms.declaredBytes
  controlBytes := a.controlBytes + controlRecordBytes
  tombstoneBytes := a.tombstoneBytes + tombstoneRecordBytes
  reservedCells := a.reservedCells + 1
  stagingByProfile := a.stagingByProfile.set terms.profileId
    ((a.stagingByProfile.get? terms.profileId).getD 0 + terms.declaredBytes)

/-- The update of `#applyReservation`. -/
def State.reserve (v : IngressReserved B) : State B :=
  (s.addSpend (v.entry frame)).setAccounting (s.accounting.reserve v.terms)

/-- The record of a put that is just committed. -/
def freshRecord (terms : PutTerms B) (spendTag blobObjectId resultIdentity : B)
    (leaseEpoch committedEpoch : ℕ) : CellRecord B where
  __ := terms
  leaseEpoch := leaseEpoch
  stateRevision := 0
  policyRevision := 0
  cellBlobHash := terms.declaredBlobHash
  blobReference := ⟨frame.virtualBucket, blobObjectId⟩
  objectState := .present
  policyState := .visible
  tombstoneReason := none
  terminalEpoch := none
  createSpendTag := spendTag
  resultIdentity := resultIdentity
  createdEpoch := committedEpoch
  createdWalSequence := frame.sequence

/-- The entry of a reservation that has consumed an attempt. -/
def SpendEntry.attempted (entry : SpendEntry B) (r : Reservation B) (v : AttemptConsumed B) :
    SpendEntry B :=
  { entry with state := .reserved { r with remainingAttempts := v.remainingAttempts } }

/-- The record that `#applyPut` creates. -/
def PutCommitted.record (v : PutCommitted B) (entry : SpendEntry B) (r : Reservation B) :
    CellRecord B :=
  freshRecord frame r.terms entry.spendTag v.blobObjectId v.resultIdentity v.leaseEpoch v.committedEpoch

/-- The entry of a reservation whose put has committed `record`. -/
def SpendEntry.committed (entry : SpendEntry B) (r : Reservation B) (v : PutCommitted B)
    (record : CellRecord B) : SpendEntry B :=
  { entry with
    state := .stored r.terms v.resultIdentity (publicCell record)
    committedEpoch := some v.committedEpoch }

/-- The update of `#applyPut`. -/
def State.put (entry : SpendEntry B) (r : Reservation B) (v : PutCommitted B) : State B :=
  let record := v.record frame entry r
  let released := s.accounting.releaseStaging r.terms
  ((s.setCell record).setSpend (entry.committed r v record)).setAccounting
    { released with
      reservedCells := released.reservedCells - 1
      storedBytes := released.storedBytes + r.terms.declaredBytes }

/-- The record that `#applyAtomicPut` creates. -/
def PutAtomicCommitted.record (v : PutAtomicCommitted B) : CellRecord B :=
  freshRecord frame v.terms v.spendTag v.blobObjectId v.resultIdentity v.leaseEpoch v.committedEpoch

/-- The entry that `#applyAtomicPut` creates. -/
def PutAtomicCommitted.entry (v : PutAtomicCommitted B) : SpendEntry B where
  __ := v
  transactionId := frame.transactionId
  state := .stored v.terms v.resultIdentity (publicCell (v.record frame))
  committedEpoch := some v.committedEpoch
  terminalEpoch := none
  reservedWalSequence := frame.sequence

/-- The update of `#applyAtomicPut`. -/
def State.atomicPut (v : PutAtomicCommitted B) : State B :=
  ((s.addSpend (v.entry frame)).setCell (v.record frame)).setAccounting
    { s.accounting with
      storedBytes := s.accounting.storedBytes + v.terms.declaredBytes
      controlBytes := s.accounting.controlBytes + controlRecordBytes
      tombstoneBytes := s.accounting.tombstoneBytes + tombstoneRecordBytes }

/-- The entry of a reservation that has reached a terminal state. -/
def SpendEntry.terminated (entry : SpendEntry B) (r : Reservation B) (v : PutTerminal B) :
    SpendEntry B :=
  { entry with
    state := .terminal r v.terminalReason
    terminalEpoch := some v.terminalEpoch }

/-- The update of `#applyTerminal`. -/
def State.terminate (entry : SpendEntry B) (r : Reservation B) (v : PutTerminal B) : State B :=
  let released := s.accounting.releaseStaging r.terms
  (s.setSpend (entry.terminated r v)).setAccounting
    { released with
      tombstoneBytes := released.tombstoneBytes - tombstoneRecordBytes
      reservedCells := released.reservedCells - 1 }

def CellRecord.renewed (record : CellRecord B) (v : RenewCommitted B) : CellRecord B :=
  { record with
    stateRevision := v.newStateRevision
    leaseEpoch := v.newLeaseEpoch
    leaseClass := v.leaseClass }

/-- The entry that `#applyRenew` creates. -/
def RenewCommitted.entry (v : RenewCommitted B) (record : CellRecord B) : SpendEntry B where
  __ := v
  transactionId := frame.transactionId
  state := .renewed
    { storageSlot := v.storageSlot
      expectedStateRevision := v.oldStateRevision
      expectedLeaseEpoch := v.oldLeaseEpoch
      requestedLeaseClass := v.leaseClass
      profileId := v.profileId
      preparedAdmission := v.preparedAdmission
      resultBinding := v.resultBinding
      resultIdentity := v.resultIdentity
      resultCell := publicCell (record.renewed v) }
  committedEpoch := some v.committedEpoch
  terminalEpoch := none
  reservedWalSequence := frame.sequence

/-- The update of `#applyRenew`. -/
def State.renew (record : CellRecord B) (v : RenewCommitted B) : State B :=
  ((s.setCell (record.renewed v)).addSpend (v.entry frame record)).setAccounting
    { s.accounting with controlBytes := s.accounting.controlBytes + controlRecordBytes }

/-- A record that becomes a tombstone. -/
def CellRecord.buried (record : CellRecord B) (reason : TombstoneReason)
    (stateRevision terminalEpoch : ℕ) : CellRecord B :=
  { record with
    objectState := .tombstone
    tombstoneReason := some reason
    stateRevision := stateRevision
    terminalEpoch := some terminalEpoch }

/-- Bury a record and give its bytes back. -/
def State.bury (record : CellRecord B) (reason : TombstoneReason) (stateRevision terminalEpoch : ℕ) : State B :=
  (s.setCell (record.buried reason stateRevision terminalEpoch)).setAccounting
    { s.accounting with
      storedBytes := s.accounting.storedBytes - cellSizeClass record.sizeClass }

/-- The result that `#applyDrop` caches. -/
def DropCommitted.result (v : DropCommitted B) (record : CellRecord B) : RequestResult B where
  __ := v
  transactionId := frame.transactionId
  resultCell := publicCell (record.buried .ownerDrop v.newStateRevision v.committedEpoch)

/-- The update of `#applyDrop`. -/
def State.drop (record : CellRecord B) (v : DropCommitted B) : State B :=
  { s.bury record .ownerDrop v.newStateRevision v.committedEpoch with
    requestResults := s.requestResults.set v.requestCommitment (v.result frame record) }

/-- The record after a policy change. -/
def CellRecord.withPolicy (record : CellRecord B) (v : PolicyCommitted B) : CellRecord B :=
  { record with policyRevision := v.newPolicyRevision, policyState := v.policyState }

/-- The entry that `#applyReadPin` creates. -/
def ReadPinCommitted.entry (v : ReadPinCommitted B) : SpendEntry B where
  __ := v
  transactionId := frame.transactionId
  state := .readPinned
    { operationId := v.operationId
      preparedAdmission := v.preparedAdmission
      resultBinding := v.resultBinding
      receiptEpoch := v.receiptEpoch
      retryExpiresUnixMillis := v.retryExpiresUnixMillis
      entries := v.entries
      controlBytes := v.byteLength + chargedReadFinalizationControlBytes }
  committedEpoch := some v.committedEpoch
  terminalEpoch := none
  reservedWalSequence := frame.sequence

/-- The update of `#applyReadPin`. -/
def State.pinRead (v : ReadPinCommitted B) : State B :=
  { (s.addSpend (v.entry frame)).setAccounting
      { s.accounting with
        controlBytes := s.accounting.controlBytes +
          (v.byteLength + chargedReadFinalizationControlBytes) } with
    chargedReadExpiryHeap := pushExpiry s.chargedReadExpiryHeap
      { retryExpiresUnixMillis := v.retryExpiresUnixMillis
        spendKey := v.spendTag
        transactionId := frame.transactionId } }

/-- The entry of a pin that is finalized. -/
def SpendEntry.finalized (entry : SpendEntry B) (pin : ReadPin B) (v : ReadPinFinalized B) :
    SpendEntry B :=
  { entry with state := .readFinalized pin v.resultCommitment }

/-- The update of `#applyReadPinFinalized`. -/
def State.finalizeRead (entry : SpendEntry B) (pin : ReadPin B) (v : ReadPinFinalized B) :
    State B :=
  s.setSpend (entry.finalized pin v)

/-- The entry of a pin that has expired. -/
def SpendEntry.expired (entry : SpendEntry B) (pin : ReadPin B) (v : ReadPinExpired B) :
    SpendEntry B :=
  { entry with
    state := .readExpired pin.operationId pin.retryExpiresUnixMillis
    terminalEpoch := some v.terminalEpoch }

/-- The update of `#applyReadPinExpired`. -/
def State.expireRead (entry : SpendEntry B) (pin : ReadPin B) (v : ReadPinExpired B) : State B :=
  (s.setSpend (entry.expired pin v)).setAccounting
    { s.accounting with
      controlBytes := s.accounting.controlBytes - pin.controlBytes + controlRecordBytes }

/-- The update of `#applyCompact` for a spend. -/
def State.forgetSpend (key : B) (entry : SpendEntry B) : State B where
  __ := s
  spends := s.spends.delete key
  commitments := s.commitments.delete entry.requestCommitment
  accounting :=
    { s.accounting with controlBytes := s.accounting.controlBytes - entry.controlBytes }

/-- The update of `#applyCompact` for a cell. -/
def State.forgetCell (key : B) : State B where
  __ := s
  cells := s.cells.delete key
  accounting :=
    { s.accounting with tombstoneBytes := s.accounting.tombstoneBytes - tombstoneRecordBytes }

end Updates

/-! ### Transitions -/

section Transitions

variable (cfg : Config B) (s : State B) (frame : Frame B)

def verifyBucket (storageSlot : B) : Except Failure Unit :=
  require (frame.virtualBucket = cfg.hashes.virtualBucket storageSlot)
    (integrityError "cell WAL frame is assigned to the wrong keyed virtual bucket")

/-- The allocation that `allocationCommitment` hashes for the terms of a put. -/
def PutTerms.allocation (terms : PutTerms B) : Allocation B where
  __ := terms
  relayPublicKey := cfg.relayPublicKey
  declaredCellBlobHash := terms.declaredBlobHash

/-- The three management keys of a cell differ. -/
def PutTerms.DistinctKeys (terms : PutTerms B) : Prop :=
  terms.createPublicKey ≠ terms.renewPublicKey ∧ terms.createPublicKey ≠ terms.dropPublicKey ∧
    terms.renewPublicKey ≠ terms.dropPublicKey

instance (terms : PutTerms B) : Decidable terms.DistinctKeys :=
  inferInstanceAs (Decidable (_ ∧ _))

def PutTerms.fingerprint (terms : PutTerms B) (spendTag requestCommitment : B) : B :=
  cfg.hashes.requestFingerprint (.put spendTag requestCommitment terms.storageSlot
    terms.allocationCommitment terms.declaredBlobHash terms.declaredBytes terms.leaseClass
    terms.profileId (cfg.hashes.preparedHash terms.preparedAdmission))

def applyReservation (v : IngressReserved B) : Except Failure (State B) := do
  verifyBucket cfg frame v.terms.storageSlot
  require (s.spends.has v.spendTag = false ∧ s.commitments.has v.requestCommitment = false ∧
      s.cells.has v.terms.storageSlot = false)
    (integrityError "reservation redefines an existing spend, commitment, or cell")
  require (cellSizeClass v.terms.sizeClass = v.terms.declaredBytes)
    (integrityError "reservation size class and declared bytes disagree")
  require (cfg.hashes.cellStorageSlot v.terms.allocationEpoch v.terms.createPublicKey = v.terms.storageSlot)
    (integrityError "reservation storage slot is not self-certifying")
  require (cfg.hashes.allocationCommitment (v.terms.allocation cfg) = v.terms.allocationCommitment)
    (integrityError "reservation allocation commitment mismatch")
  let nonzero := fun (field : String) (value : B) =>
    require (value ≠ 0) (integrityError ("reservation " ++ field ++ " must be nonzero"))
  nonzero "spendTag" v.spendTag
  nonzero "requestCommitment" v.requestCommitment
  nonzero "requestFingerprint" v.requestFingerprint
  nonzero "declaredBlobHash" v.terms.declaredBlobHash
  nonzero "createPublicKey" v.terms.createPublicKey
  nonzero "renewPublicKey" v.terms.renewPublicKey
  nonzero "dropPublicKey" v.terms.dropPublicKey
  require v.terms.DistinctKeys (integrityError "reservation management keys must be distinct")
  require (v.reservedEpoch = s.epochFloor ∧ v.deadlineUnixMillis ≠ 0)
    (integrityError "reservation clock binding is inconsistent")
  let _ ← rethrown (resultBindingBytes cfg v.terms.resultBinding "reserved resultBindingBytes")
  let _ ← rethrown (boundAdmission v.terms.preparedAdmission v.spendTag v.requestCommitment
    v.terms.profileId "reserved preparedAdmissionBytes")
  pure (s.reserve frame v)

def reservationFor (spendTag requestCommitment : B) : Except Failure (SpendEntry B × Reservation B) := do
  let error := integrityError "WAL transition has no matching live reservation"
  let entry ← demand (s.spends.get? spendTag) error
  let r ← demand entry.reservation? error
  require (entry.requestCommitment = requestCommitment ∧ entry.transactionId = frame.transactionId) error
  pure (entry, r)

def applyAttempt (v : AttemptConsumed B) : Except Failure (State B) := do
  let (entry, r) ← reservationFor s frame v.spendTag v.requestCommitment
  verifyBucket cfg frame r.terms.storageSlot
  require (v.remainingAttempts + 1 = r.remainingAttempts)
    (integrityError "attempt credit did not decrement exactly once")
  pure (s.setSpend (entry.attempted r v))

/-- The identity of the result of a put. -/
def storedIdentity (terms : PutTerms B) (requestCommitment : B) (leaseEpoch : ℕ) : B :=
  cfg.hashes.resultIdentity
    { terms with
      operation := .stored
      requestCommitment := requestCommitment
      cellBlobHash := terms.declaredBlobHash
      leaseEpoch := leaseEpoch
      stateRevision := 0 }

def applyPut (v : PutCommitted B) : Except Failure (State B) := do
  let (entry, r) ← reservationFor s frame v.spendTag v.requestCommitment
  verifyBucket cfg frame v.storageSlot
  require (r.terms.storageSlot = v.storageSlot ∧ entry.requestFingerprint = v.requestFingerprint)
    (integrityError "put commit does not match its reservation")
  let _ ← rethrown (resultBindingBytes cfg v.resultBinding "committed resultBindingBytes")
  require (r.remainingAttempts ≤ 1 ∧ v.committedEpoch = s.epochFloor ∧
      v.leaseEpoch = v.committedEpoch + leaseEpochs r.terms.leaseClass ∧
      v.resultIdentity = storedIdentity cfg r.terms entry.requestCommitment v.leaseEpoch ∧
      v.blobObjectId ≠ 0 ∧ r.terms.resultBinding = v.resultBinding)
    (integrityError "put commit result, lease, attempt, or epoch binding is invalid")
  require (s.cells.has v.storageSlot = false) (integrityError "put commit overwrites an existing cell")
  pure (s.put frame entry r v)

def applyAtomicPut (v : PutAtomicCommitted B) : Except Failure (State B) := do
  verifyBucket cfg frame v.terms.storageSlot
  require (s.spends.has v.spendTag = false ∧ s.commitments.has v.requestCommitment = false ∧
      s.cells.has v.terms.storageSlot = false)
    (integrityError "atomic put redefines an existing spend, commitment, or cell")
  require (frame.transactionId ≠ 0) (integrityError "atomic put transactionId must be nonzero")
  require (cellSizeClass v.terms.sizeClass = v.terms.declaredBytes)
    (integrityError "atomic put size class and declared bytes disagree")
  require (cfg.hashes.cellStorageSlot v.terms.allocationEpoch v.terms.createPublicKey = v.terms.storageSlot)
    (integrityError "atomic put storage slot is not self-certifying")
  require v.terms.DistinctKeys (integrityError "atomic put management keys must be distinct")
  require (cfg.hashes.allocationCommitment (v.terms.allocation cfg) = v.terms.allocationCommitment)
    (integrityError "atomic put allocation commitment mismatch")
  let _ ← rethrown (resultBindingBytes cfg v.terms.resultBinding "atomic committed resultBindingBytes")
  let _ ← rethrown (boundAdmission v.terms.preparedAdmission v.spendTag v.requestCommitment
    v.terms.profileId "atomic committed preparedAdmissionBytes")
  require (v.terms.fingerprint cfg v.spendTag v.requestCommitment = v.requestFingerprint ∧
      v.committedEpoch = s.epochFloor ∧
      v.leaseEpoch = v.committedEpoch + leaseEpochs v.terms.leaseClass ∧
      storedIdentity cfg v.terms v.requestCommitment v.leaseEpoch = v.resultIdentity ∧
      v.terms.allocationEpoch ≤ v.committedEpoch + 1 ∧
      v.committedEpoch < v.terms.allocationEpoch + retentionHorizonEpochs)
    (integrityError "atomic put fingerprint, lease, allocation epoch, or result binding is invalid")
  pure (s.atomicPut frame v)

def applyTerminal (v : PutTerminal B) : Except Failure (State B) := do
  let (entry, r) ← reservationFor s frame v.spendTag v.requestCommitment
  verifyBucket cfg frame r.terms.storageSlot
  require (entry.requestFingerprint = v.requestFingerprint ∧ v.terminalEpoch = s.epochFloor)
    (integrityError "terminal transition fingerprint or epoch mismatch")
  pure (s.terminate entry r v)

def applyRenew (v : RenewCommitted B) : Except Failure (State B) := do
  verifyBucket cfg frame v.storageSlot
  require (s.spends.has v.spendTag = false ∧ s.commitments.has v.requestCommitment = false)
    (integrityError "renew commit redefines a spend or request commitment")
  let violation := integrityError "renew commit violates the cell state machine"
  let record ← demand (s.cells.get? v.storageSlot) violation
  require (record.objectState = .present ∧ record.stateRevision = v.oldStateRevision ∧
      record.leaseEpoch = v.oldLeaseEpoch ∧ v.newStateRevision = v.oldStateRevision + 1 ∧
      v.oldLeaseEpoch < v.newLeaseEpoch) violation
  let _ ← rethrown (resultBindingBytes cfg v.resultBinding "renew resultBindingBytes")
  let _ ← rethrown (boundAdmission v.preparedAdmission v.spendTag v.requestCommitment v.profileId
    "renew preparedAdmissionBytes")
  require (v.committedEpoch = s.epochFloor ∧
      v.newLeaseEpoch = max v.oldLeaseEpoch (v.committedEpoch + leaseEpochs v.leaseClass) ∧
      v.resultIdentity = cfg.hashes.resultIdentity
        { v with
          operation := .renewed
          cellBlobHash := record.cellBlobHash
          leaseEpoch := v.newLeaseEpoch
          stateRevision := v.newStateRevision })
    (integrityError "renew commit result, lease, or epoch binding is invalid")
  pure (s.renew frame record v)

def applyDrop (v : DropCommitted B) : Except Failure (State B) := do
  verifyBucket cfg frame v.storageSlot
  require (s.requestResults.has v.requestCommitment = false) (integrityError "drop commit redefines a request result")
  let violation := integrityError "drop commit violates the cell state machine"
  let record ← demand (s.cells.get? v.storageSlot) violation
  require (record.objectState = .present ∧ record.stateRevision = v.oldStateRevision ∧
      record.leaseEpoch = v.oldLeaseEpoch ∧ v.newStateRevision = v.oldStateRevision + 1) violation
  let _ ← rethrown (resultBindingBytes cfg v.resultBinding "drop resultBindingBytes")
  require (v.committedEpoch = s.epochFloor ∧ v.resultIdentity = cfg.hashes.resultIdentity
        { v with
          operation := .dropped
          cellBlobHash := record.cellBlobHash
          leaseClass := 0
          leaseEpoch := v.oldLeaseEpoch
          stateRevision := v.newStateRevision })
    (integrityError "drop commit result or epoch binding is invalid")
  pure (s.drop frame record v)

def verifyChargedReadCost (operationId : ReadOperation) (prepared : PreparedAdmission B)
    (entries : List (PinEntry B)) : Except Failure Unit := do
  let expectedResourceClass ← match operationId with
    | .batchGet => chargedResultBand (chargedBatchResultBytes resultBindingLength entries)
    | _ => pure (match entries.head? with
      | some entry => if entry.present then entry.sizeClass else 1
      | none => 1)
  require (prepared.resourceClass = expectedResourceClass ∧ prepared.leaseClass = 0)
    (failure .spendInvalid "prepared admission cost does not match the pinned charged read")

/-- The pinned entries are what the cells are now. -/
def PinsCurrent (entries : List (PinEntry B)) : Prop :=
  ∀ pinned ∈ entries, chargedReadPinEntry pinned.storageSlot (s.cells.get? pinned.storageSlot) s.epochFloor = pinned
  deriving Decidable

/-- The loop of `#applyReadPin` over the pinned entries; `slots` are those seen so far. -/
def verifyPins (slots : List B) : List (PinEntry B) → Except Failure Unit
  | [] => pure ()
  | pinned :: rest => do
    require (pinned.storageSlot ∉ slots) (integrityError "charged read pin has duplicate slots")
    require (chargedReadPinEntry pinned.storageSlot (s.cells.get? pinned.storageSlot) s.epochFloor = pinned)
      (integrityError "charged read pin does not match its commit-time cell state")
    verifyPins (pinned.storageSlot :: slots) rest

/-- The fingerprint of a charged read. -/
def readFingerprint (operationId : ReadOperation) (prepared : PreparedAdmission B) : B :=
  cfg.hashes.requestFingerprint (.read operationId prepared.spendTag prepared.requestCommitment
    (cfg.hashes.preparedHash prepared))

def applyReadPin (v : ReadPinCommitted B) : Except Failure (State B) := do
  require (frame.virtualBucket = 0) (integrityError "charged read pin must use the coordinator bucket")
  require (s.spends.has v.spendTag = false ∧ s.commitments.has v.requestCommitment = false ∧
      v.committedEpoch = s.epochFloor ∧ v.receiptEpoch = s.epochFloor ∧
      v.retryExpiresUnixMillis ≠ 0 ∧ v.requestFingerprint ≠ 0)
    (integrityError "charged read pin redefines state or has an invalid epoch/deadline")
  let prepared ← rethrown (preparedAdmission v.preparedAdmission "charged read preparedAdmissionBytes")
  require (prepared.spendTag = v.spendTag ∧ prepared.requestCommitment = v.requestCommitment)
    (integrityError "binding mismatch")
  let _ ← rethrown (resultBindingBytes cfg (some v.resultBinding) "charged read resultBindingBytes")
  verifyPins s [] v.entries
  require (v.operationId ≠ .batchGet → ∀ entry ∈ v.entries.head?, entry.present = true)
    (integrityError "charged unary read pinned an absent cell")
  require (v.requestFingerprint = readFingerprint cfg v.operationId prepared) (integrityError "fingerprint mismatch")
  rethrown (verifyChargedReadCost v.operationId prepared v.entries)
  pure (s.pinRead frame v)

def applyReadPinFinalized (v : ReadPinFinalized B) : Except Failure (State B) := do
  require (frame.virtualBucket = 0 ∧ v.finalizedEpoch = s.epochFloor)
    (integrityError "charged read finalization has an invalid bucket or epoch")
  let missing := integrityError "charged read finalization has no matching pin"
  let entry ← demand (s.spends.get? v.spendTag) missing
  let pin ← demand entry.pinned? missing
  require (entry.transactionId = frame.transactionId ∧
      entry.requestCommitment = v.requestCommitment ∧ v.resultCommitment ≠ 0) missing
  require (PinsCurrent s pin.entries) (integrityError "charged read finalization crossed a pinned source transition")
  pure (s.finalizeRead entry pin v)

def applyReadPinExpired (v : ReadPinExpired B) : Except Failure (State B) := do
  require (frame.virtualBucket = 0 ∧ v.terminalEpoch = s.epochFloor)
    (integrityError "charged read expiry has an invalid bucket or epoch")
  let missing := integrityError "charged read expiry has no matching retry pin"
  let entry ← demand (s.spends.get? v.spendTag) missing
  let pin ← demand entry.livePin? missing
  require (entry.transactionId = frame.transactionId ∧ entry.requestCommitment = v.requestCommitment ∧
      pin.retryExpiresUnixMillis = v.retryExpiresUnixMillis ∧
      v.retryExpiresUnixMillis ≤ v.observedUnixMillis) missing
  pure (s.expireRead entry pin v)

def applyPolicy (v : PolicyCommitted B) : Except Failure (State B) := do
  verifyBucket cfg frame v.storageSlot
  let violation :=
    integrityError "policy commit violates the independent policy revision state machine"
  let record ← demand (s.cells.get? v.storageSlot) violation
  require (record.objectState = .present ∧ record.policyRevision = v.oldPolicyRevision ∧
      v.newPolicyRevision = v.oldPolicyRevision + 1 ∧ record.policyState ≠ v.policyState ∧
      v.committedEpoch = s.epochFloor) violation
  pure (s.setCell (record.withPolicy v))

def applyGc (v : GcCommitted B) : Except Failure (State B) := do
  verifyBucket cfg frame v.storageSlot
  let violation := integrityError "GC commit violates the lease and revision state machine"
  let record ← demand (s.cells.get? v.storageSlot) violation
  require (record.objectState = .present ∧ record.stateRevision = v.oldStateRevision ∧
      record.leaseEpoch = v.expectedLeaseEpoch ∧ v.newStateRevision = v.oldStateRevision + 1 ∧
      v.expectedLeaseEpoch + expiryGraceEpochs < v.tombstoneEpoch ∧
      v.tombstoneEpoch = s.epochFloor) violation
  pure (s.bury record .expiredGc v.newStateRevision v.tombstoneEpoch)

def applyFloor (v : FloorTransition) (confirmed : Bool) : Except Failure (State B) := do
  require (v.oldEpochFloor = s.epochFloor ∧ v.oldEpochFloor ≤ v.newEpochFloor)
    (integrityError "epoch floor rollback or discontinuity")
  require (confirmed = true ∨ v.newEpochFloor ≤ v.oldEpochFloor + clockMaxJumpEpochs ∨ v.oldEpochFloor = 0)
    (integrityError "unconfirmed epoch floor jump exceeds four epochs")
  pure { s with
    epochFloor := v.newEpochFloor
    clockUnsafe := if confirmed then false else s.clockUnsafe }

def applyClockUnsafe (v : ClockUnsafe) : Except Failure (State B) := do
  require (v.epochFloor = s.epochFloor ∧ (v.direction = .backward → v.observedEpoch < v.epochFloor) ∧
      (v.direction = .forward → v.epochFloor + clockMaxJumpEpochs < v.observedEpoch))
    (integrityError "CLOCK_UNSAFE transition is inconsistent with the persisted floor")
  pure { s with clockUnsafe := true }

/-- More than the retention horizon lies between an epoch and the floor. -/
def PastHorizon (epoch floor : ℕ) : Prop := epoch + retentionHorizonEpochs < floor
  deriving Decidable

def applyCompact (v : Compact B) : Except Failure (State B) := do
  require (v.compactedEpoch = s.epochFloor) (integrityError "compaction does not bind the effective epoch floor")
  let s := { s with compactionWalHighWater := frame.sequence }
  match v.entryKind with
  | .cell =>
    let early := integrityError "cell tombstone compacted before its retention horizon"
    let record ← demand (s.cells.get? v.key) early
    let terminalEpoch ← demand record.terminalEpoch early
    require (record.objectState = .tombstone ∧ PastHorizon terminalEpoch v.compactedEpoch) early
    pure (s.forgetCell v.key)
  | .spend =>
    let early := integrityError "spend compacted before its retention horizon"
    let entry ← demand (s.spends.get? v.key) early
    let ageEpoch ← demand entry.ageEpoch early
    require (PastHorizon ageEpoch v.compactedEpoch) early
    pure (s.forgetSpend v.key entry)
  | .requestResult =>
    let early := integrityError "request result compacted before its retention horizon"
    let entry ← demand (s.requestResults.get? v.key) early
    require (PastHorizon entry.committedEpoch v.compactedEpoch) early
    pure { s with requestResults := s.requestResults.delete v.key }

def applyIntegrity (v : IntegrityFailed B) (recovering : Bool) : State B where
  __ := s
  readOnlyReason := some .recoveryGapReadOnly
  integrityEvidence :=
    if recovering || s.integrityEvidence.all fun item => item.evidenceHash ≠ v.evidenceHash then
      s.integrityEvidence ++ [v]
    else s.integrityEvidence

/-- The `switch` of `#applyFrame`. -/
def applyPayload (recovering : Bool) : Except Failure (State B) :=
  match frame.payload with
  | .ingressReserved v => applyReservation cfg s frame v
  | .attemptConsumed v => applyAttempt cfg s frame v
  | .putCommitted v => applyPut cfg s frame v
  | .putTerminal v => applyTerminal cfg s frame v
  | .renewCommitted v => applyRenew cfg s frame v
  | .dropCommitted v => applyDrop cfg s frame v
  | .policyCommitted v => applyPolicy cfg s frame v
  | .gcCommitted v => applyGc cfg s frame v
  | .floorAdvance v => applyFloor s v false
  | .clockUnsafe v => applyClockUnsafe s v
  | .clockConfirm v => applyFloor s v true
  | .compact v => applyCompact s frame v
  | .integrityFailed v => pure (applyIntegrity s v recovering)
  | .readPinCommitted v => applyReadPin cfg s frame v
  | .readPinFinalized v => applyReadPinFinalized s frame v
  | .readPinExpired v => applyReadPinExpired s frame v
  | .putAtomicCommitted v => applyAtomicPut cfg s frame v

/-- `#applyFrame`; `staging` is the ledger of the atomic puts at the time. -/
def applyFrame (staging : AtomicStaging) (recovering : Bool) : Except Failure (State B) := do
  require frame.payload.Canonical (integrityError "non-canonical cell WAL payload")
  let s' ← applyPayload cfg s frame recovering
  assertAccounting staging s'.accounting
  pure s'

/-- `#applyFrame` on every frame that the open of the store reads back: a fresh engine has no
staged bodies. -/
def replay (frames : List (Frame B)) : Except Failure (State B) :=
  frames.foldlM (fun s frame => applyFrame cfg s frame .empty true) s

end Transitions

theorem verifyPins_eq_ok {s : State B} {slots : List B} {entries : List (PinEntry B)} {u : Unit} :
    verifyPins s slots entries = .ok u ↔ (entries.map PinEntry.storageSlot).Nodup ∧
        (∀ slot ∈ entries.map PinEntry.storageSlot, slot ∉ slots) ∧ PinsCurrent s entries := by
  induction entries generalizing slots with
  | nil => simp [verifyPins, PinsCurrent, pure_eq_ok_iff]
  | cons pinned rest ih =>
    simp only [verifyPins, guards_eq_ok, ih, List.map_cons, List.nodup_cons, List.mem_cons, forall_eq_or_imp,
      not_or, PinsCurrent]
    constructor
    · rintro ⟨hpinned, hcurrent, hnodup, hrest, hpins⟩
      exact ⟨⟨fun h => (hrest _ h).1 rfl, hnodup⟩, ⟨hpinned, fun slot h => (hrest slot h).2⟩, hcurrent, hpins⟩
    · rintro ⟨⟨hnot, hnodup⟩, ⟨hpinned, hrest⟩, hcurrent, hpins⟩
      exact ⟨hpinned, hcurrent, hnodup, fun slot h => ⟨fun heq => hnot (heq ▸ h), hrest slot h⟩, hpins⟩

theorem applyFrame_eq_ok {cfg : Config B} {s s' : State B} {frame : Frame B}
    {staging : AtomicStaging} {recovering : Bool} :
    applyFrame cfg s frame staging recovering = .ok s' ↔
      frame.payload.Canonical ∧ applyPayload cfg s frame recovering = .ok s' ∧ s'.accounting.Safe ∧ staging.Safe := by
  simp only [applyFrame, guards_eq_ok, assertAccounting_eq_ok]
  constructor
  · rintro ⟨hcanonical, s₁, happly, hsafe, rfl⟩
    exact ⟨hcanonical, happly, hsafe⟩
  · rintro ⟨hcanonical, happly, hsafe⟩
    exact ⟨hcanonical, s', happly, hsafe, rfl⟩

end HiveRelay.Cell
