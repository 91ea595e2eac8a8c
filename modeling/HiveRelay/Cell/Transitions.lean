import HiveRelay.Cell.Apply

/-!
# What a frame checks and what it does

One guard structure per transition, holding everything the transition checks under a name, and the
equation that a transition succeeds exactly when its guard holds and then returns its update. Every
later proof about the engine uses these equations and never unfolds a transition again.
-/

set_option linter.unusedSectionVars false

namespace HiveRelay.Cell

open OrderedMap

variable {B : Type} [LinearOrder B] [Zero B]

/-! ### Guards -/

section Guards

variable (cfg : Config B) (s : State B) (frame : Frame B)

/-- A prepared admission is canonical and is for this spend, request and profile. -/
structure AdmissionBound (value : PreparedAdmission B) (spendTag requestCommitment : B)
    (profileId : ℕ) : Prop where
  canonical : value.Canonical
  spendTag_eq : value.spendTag = spendTag
  requestCommitment_eq : value.requestCommitment = requestCommitment
  profileId_eq : value.profileId = profileId

@[simp] theorem boundAdmission_eq_ok {value value' : PreparedAdmission B}
    {spendTag requestCommitment : B} {profileId : ℕ} {field : String} :
    boundAdmission value spendTag requestCommitment profileId field = .ok value' ↔
      AdmissionBound value spendTag requestCommitment profileId ∧ value = value' := by
  simp only [boundAdmission, guards_eq_ok, preparedAdmission_eq_ok]
  constructor
  · rintro ⟨_, ⟨hcanonical, rfl⟩, ⟨h₁, h₂, h₃⟩, rfl⟩
    exact ⟨⟨hcanonical, h₁, h₂, h₃⟩, rfl⟩
  · rintro ⟨⟨hcanonical, h₁, h₂, h₃⟩, rfl⟩
    exact ⟨value, ⟨hcanonical, rfl⟩, ⟨h₁, h₂, h₃⟩, rfl⟩

/-- What every put checks of its terms. -/
structure TermsGuard (terms : PutTerms B) (spendTag requestCommitment : B) : Prop where
  bucket : frame.virtualBucket = cfg.hashes.virtualBucket terms.storageSlot
  size : cellSizeClass terms.sizeClass = terms.declaredBytes
  slot : cfg.hashes.cellStorageSlot terms.allocationEpoch terms.createPublicKey = terms.storageSlot
  allocation : cfg.hashes.allocationCommitment (terms.allocation cfg) = terms.allocationCommitment
  keys : terms.DistinctKeys
  binding : BindingAccepted cfg terms.resultBinding
  admission : AdmissionBound terms.preparedAdmission spendTag requestCommitment terms.profileId

/-- A spend tag and a request commitment are new. -/
structure FreshSpend (spendTag requestCommitment : B) : Prop where
  spend : s.spends.get? spendTag = none
  commitment : s.commitments.get? requestCommitment = none

/-- `#applyReservation`. -/
structure ReservationGuard (v : IngressReserved B) : Prop where
  terms : TermsGuard cfg frame v.terms v.spendTag v.requestCommitment
  fresh : FreshSpend s v.spendTag v.requestCommitment
  cell : s.cells.get? v.terms.storageSlot = none
  nonzero : v.spendTag ≠ 0 ∧ v.requestCommitment ≠ 0 ∧ v.requestFingerprint ≠ 0 ∧
    v.terms.declaredBlobHash ≠ 0 ∧ v.terms.createPublicKey ≠ 0 ∧ v.terms.renewPublicKey ≠ 0 ∧
    v.terms.dropPublicKey ≠ 0
  epoch : v.reservedEpoch = s.epochFloor
  deadline : v.deadlineUnixMillis ≠ 0

/-- `#reservationFor`. -/
structure ReservationOf (spendTag requestCommitment : B) (entry : SpendEntry B)
    (r : Reservation B) : Prop where
  spend : s.spends.get? spendTag = some entry
  state : entry.state = .reserved r
  commitment : entry.requestCommitment = requestCommitment
  transaction : entry.transactionId = frame.transactionId

/-- `#applyAttempt`. -/
structure AttemptGuard (v : AttemptConsumed B) (entry : SpendEntry B) (r : Reservation B) :
    Prop where
  reservation : ReservationOf s frame v.spendTag v.requestCommitment entry r
  bucket : frame.virtualBucket = cfg.hashes.virtualBucket r.terms.storageSlot
  attempts : v.remainingAttempts + 1 = r.remainingAttempts

/-- `#applyPut`. -/
structure PutGuard (v : PutCommitted B) (entry : SpendEntry B) (r : Reservation B) : Prop where
  reservation : ReservationOf s frame v.spendTag v.requestCommitment entry r
  bucket : frame.virtualBucket = cfg.hashes.virtualBucket v.storageSlot
  slot : r.terms.storageSlot = v.storageSlot
  fingerprint : entry.requestFingerprint = v.requestFingerprint
  binding : BindingAccepted cfg v.resultBinding
  attempts : r.remainingAttempts ≤ 1
  epoch : v.committedEpoch = s.epochFloor
  lease : v.leaseEpoch = v.committedEpoch + leaseEpochs r.terms.leaseClass
  identity : v.resultIdentity = storedIdentity cfg r.terms entry.requestCommitment v.leaseEpoch
  object : v.blobObjectId ≠ 0
  sameBinding : r.terms.resultBinding = v.resultBinding
  cell : s.cells.get? v.storageSlot = none

/-- `#applyAtomicPut`. -/
structure AtomicPutGuard (v : PutAtomicCommitted B) : Prop where
  terms : TermsGuard cfg frame v.terms v.spendTag v.requestCommitment
  fresh : FreshSpend s v.spendTag v.requestCommitment
  cell : s.cells.get? v.terms.storageSlot = none
  transaction : frame.transactionId ≠ 0
  fingerprint : v.terms.fingerprint cfg v.spendTag v.requestCommitment = v.requestFingerprint
  epoch : v.committedEpoch = s.epochFloor
  lease : v.leaseEpoch = v.committedEpoch + leaseEpochs v.terms.leaseClass
  identity : storedIdentity cfg v.terms v.requestCommitment v.leaseEpoch = v.resultIdentity
  notAhead : v.terms.allocationEpoch ≤ v.committedEpoch + 1
  notBehind : v.committedEpoch < v.terms.allocationEpoch + retentionHorizonEpochs

/-- `#applyTerminal`. -/
structure TerminalGuard (v : PutTerminal B) (entry : SpendEntry B) (r : Reservation B) :
    Prop where
  reservation : ReservationOf s frame v.spendTag v.requestCommitment entry r
  bucket : frame.virtualBucket = cfg.hashes.virtualBucket r.terms.storageSlot
  fingerprint : entry.requestFingerprint = v.requestFingerprint
  epoch : v.terminalEpoch = s.epochFloor

/-- `#applyRenew`. -/
structure RenewGuard (v : RenewCommitted B) (record : CellRecord B) : Prop where
  bucket : frame.virtualBucket = cfg.hashes.virtualBucket v.storageSlot
  fresh : FreshSpend s v.spendTag v.requestCommitment
  cell : s.cells.get? v.storageSlot = some record
  present : record.objectState = .present
  oldRevision : record.stateRevision = v.oldStateRevision
  oldLease : record.leaseEpoch = v.oldLeaseEpoch
  newRevision : v.newStateRevision = v.oldStateRevision + 1
  extends_lease : v.oldLeaseEpoch < v.newLeaseEpoch
  binding : BindingAccepted cfg v.resultBinding
  admission : AdmissionBound v.preparedAdmission v.spendTag v.requestCommitment v.profileId
  epoch : v.committedEpoch = s.epochFloor
  newLease : v.newLeaseEpoch = max v.oldLeaseEpoch (v.committedEpoch + leaseEpochs v.leaseClass)
  identity : v.resultIdentity = cfg.hashes.resultIdentity
    { v with
      operation := .renewed
      cellBlobHash := record.cellBlobHash
      leaseEpoch := v.newLeaseEpoch
      stateRevision := v.newStateRevision }

/-- `#applyDrop`. -/
structure DropGuard (v : DropCommitted B) (record : CellRecord B) : Prop where
  bucket : frame.virtualBucket = cfg.hashes.virtualBucket v.storageSlot
  fresh : s.requestResults.get? v.requestCommitment = none
  cell : s.cells.get? v.storageSlot = some record
  present : record.objectState = .present
  oldRevision : record.stateRevision = v.oldStateRevision
  oldLease : record.leaseEpoch = v.oldLeaseEpoch
  newRevision : v.newStateRevision = v.oldStateRevision + 1
  binding : BindingAccepted cfg v.resultBinding
  epoch : v.committedEpoch = s.epochFloor
  identity : v.resultIdentity = cfg.hashes.resultIdentity
    { v with
      operation := .dropped
      cellBlobHash := record.cellBlobHash
      leaseClass := 0
      leaseEpoch := v.oldLeaseEpoch
      stateRevision := v.newStateRevision }

/-- `#applyReadPin`. -/
structure ReadPinGuard (v : ReadPinCommitted B) : Prop where
  bucket : frame.virtualBucket = 0
  fresh : FreshSpend s v.spendTag v.requestCommitment
  epoch : v.committedEpoch = s.epochFloor
  receipt : v.receiptEpoch = s.epochFloor
  retry : v.retryExpiresUnixMillis ≠ 0
  nonzero : v.requestFingerprint ≠ 0
  canonical : v.preparedAdmission.Canonical
  spendTag_eq : v.preparedAdmission.spendTag = v.spendTag
  requestCommitment_eq : v.preparedAdmission.requestCommitment = v.requestCommitment
  binding : BindingAccepted cfg (some v.resultBinding)
  distinct : (v.entries.map PinEntry.storageSlot).Nodup
  pins : PinsCurrent s v.entries
  unary : v.operationId ≠ .batchGet → ∀ entry ∈ v.entries.head?, entry.present = true
  fingerprint : v.requestFingerprint = readFingerprint cfg v.operationId v.preparedAdmission
  cost : verifyChargedReadCost v.operationId v.preparedAdmission v.entries = .ok ()

/-- `#applyReadPinFinalized`. -/
structure ReadPinFinalizedGuard (v : ReadPinFinalized B) (entry : SpendEntry B) (pin : ReadPin B) :
    Prop where
  bucket : frame.virtualBucket = 0
  epoch : v.finalizedEpoch = s.epochFloor
  spend : s.spends.get? v.spendTag = some entry
  state : entry.state = .readPinned pin
  transaction : entry.transactionId = frame.transactionId
  commitment : entry.requestCommitment = v.requestCommitment
  nonzero : v.resultCommitment ≠ 0
  pins : PinsCurrent s pin.entries

/-- `#applyReadPinExpired`. -/
structure ReadPinExpiredGuard (v : ReadPinExpired B) (entry : SpendEntry B) (pin : ReadPin B) :
    Prop where
  bucket : frame.virtualBucket = 0
  epoch : v.terminalEpoch = s.epochFloor
  spend : s.spends.get? v.spendTag = some entry
  live : entry.livePin? = some pin
  transaction : entry.transactionId = frame.transactionId
  commitment : entry.requestCommitment = v.requestCommitment
  retry : pin.retryExpiresUnixMillis = v.retryExpiresUnixMillis
  due : v.retryExpiresUnixMillis ≤ v.observedUnixMillis

/-- `#applyPolicy`. -/
structure PolicyGuard (v : PolicyCommitted B) (record : CellRecord B) : Prop where
  bucket : frame.virtualBucket = cfg.hashes.virtualBucket v.storageSlot
  cell : s.cells.get? v.storageSlot = some record
  present : record.objectState = .present
  oldRevision : record.policyRevision = v.oldPolicyRevision
  newRevision : v.newPolicyRevision = v.oldPolicyRevision + 1
  changes : record.policyState ≠ v.policyState
  epoch : v.committedEpoch = s.epochFloor

/-- `#applyGc`. -/
structure GcGuard (v : GcCommitted B) (record : CellRecord B) : Prop where
  bucket : frame.virtualBucket = cfg.hashes.virtualBucket v.storageSlot
  cell : s.cells.get? v.storageSlot = some record
  present : record.objectState = .present
  oldRevision : record.stateRevision = v.oldStateRevision
  oldLease : record.leaseEpoch = v.expectedLeaseEpoch
  newRevision : v.newStateRevision = v.oldStateRevision + 1
  expired : v.expectedLeaseEpoch + expiryGraceEpochs < v.tombstoneEpoch
  epoch : v.tombstoneEpoch = s.epochFloor

/-- `#applyFloor`. -/
structure FloorGuard (v : FloorTransition) (confirmed : Bool) : Prop where
  old : v.oldEpochFloor = s.epochFloor
  forward : v.oldEpochFloor ≤ v.newEpochFloor
  jump : confirmed = true ∨ v.newEpochFloor ≤ v.oldEpochFloor + clockMaxJumpEpochs ∨ v.oldEpochFloor = 0

/-- `#applyClockUnsafe`. -/
structure ClockUnsafeGuard (v : ClockUnsafe) : Prop where
  floor : v.epochFloor = s.epochFloor
  backward : v.direction = .backward → v.observedEpoch < v.epochFloor
  forward : v.direction = .forward → v.epochFloor + clockMaxJumpEpochs < v.observedEpoch

/-- The entry that a compaction removes has aged past the retention horizon. -/
def Compactable (floor : ℕ) : CompactKind → B → Prop
  | .cell, key => ∃ record epoch, s.cells.get? key = some record ∧
      record.terminalEpoch = some epoch ∧ record.objectState = .tombstone ∧ PastHorizon epoch floor
  | .spend, key => ∃ entry epoch, s.spends.get? key = some entry ∧
      entry.ageEpoch = some epoch ∧ PastHorizon epoch floor
  | .requestResult, key => ∃ result, s.requestResults.get? key = some result ∧
      PastHorizon result.committedEpoch floor

end Guards

/-! ### The transitions are their guards and their updates -/

section Equations

variable {cfg : Config B} {s s' : State B} {frame : Frame B}

theorem verifyBucket_eq_ok {storageSlot : B} {u : Unit} : verifyBucket cfg frame storageSlot = .ok u ↔
      frame.virtualBucket = cfg.hashes.virtualBucket storageSlot := by
  simp only [verifyBucket, require_eq_ok]

variable {entry : SpendEntry B}

theorem reservation?_eq_some {r : Reservation B} : entry.reservation? = some r ↔ entry.state = .reserved r := by
  unfold SpendEntry.reservation?
  cases entry.state <;> simp

theorem pinned?_eq_some {pin : ReadPin B} : entry.pinned? = some pin ↔ entry.state = .readPinned pin := by
  unfold SpendEntry.pinned?
  cases entry.state <;> simp

theorem livePin?_eq_some {pin : ReadPin B} : entry.livePin? = some pin ↔
      entry.state = .readPinned pin ∨ ∃ commitment, entry.state = .readFinalized pin commitment := by
  unfold SpendEntry.livePin?
  cases entry.state <;> simp

theorem applyReservation_eq_ok {v : IngressReserved B} : applyReservation cfg s frame v = .ok s' ↔
      ReservationGuard cfg s frame v ∧ s.reserve frame v = s' := by
  simp only [applyReservation, guards_eq_ok, verifyBucket_eq_ok, rethrown_eq_ok, resultBindingBytes_eq_ok,
    boundAdmission_eq_ok, has_eq_false_iff]
  constructor
  · rintro ⟨hbucket, ⟨hspend, hcommitment, hcell⟩, hsize, hslot, halloc, h₁, h₂, h₃, h₄, h₅, h₆,
      h₇, hkeys, ⟨hepoch, hdeadline⟩, _, ⟨hbinding, -⟩, _, ⟨hadmission, -⟩, rfl⟩
    exact ⟨⟨⟨hbucket, hsize, hslot, halloc, hkeys, hbinding, hadmission⟩, ⟨hspend, hcommitment⟩,
      hcell, ⟨h₁, h₂, h₃, h₄, h₅, h₆, h₇⟩, hepoch, hdeadline⟩, rfl⟩
  · rintro ⟨⟨ht, ⟨hspend, hcommitment⟩, hcell, ⟨h₁, h₂, h₃, h₄, h₅, h₆, h₇⟩, hepoch, hdeadline⟩, rfl⟩
    exact ⟨ht.bucket, ⟨hspend, hcommitment, hcell⟩, ht.size, ht.slot, ht.allocation, h₁, h₂, h₃,
      h₄, h₅, h₆, h₇, ht.keys, ⟨hepoch, hdeadline⟩, _, ⟨ht.binding, rfl⟩, _, ⟨ht.admission, rfl⟩,
      rfl⟩

theorem reservationFor_eq_ok {spendTag requestCommitment : B} {p : SpendEntry B × Reservation B} :
    reservationFor s frame spendTag requestCommitment = .ok p ↔
      ReservationOf s frame spendTag requestCommitment p.1 p.2 := by
  simp only [reservationFor, guards_eq_ok, reservation?_eq_some]
  constructor
  · rintro ⟨entry, hentry, r, hr, ⟨hcommitment, htransaction⟩, rfl⟩
    exact ⟨hentry, hr, hcommitment, htransaction⟩
  · rintro ⟨hentry, hr, hcommitment, htransaction⟩
    exact ⟨p.1, hentry, p.2, hr, ⟨hcommitment, htransaction⟩, rfl⟩

theorem applyAttempt_eq_ok {v : AttemptConsumed B} : applyAttempt cfg s frame v = .ok s' ↔
      ∃ entry r, AttemptGuard cfg s frame v entry r ∧ s.setSpend (entry.attempted r v) = s' := by
  simp only [applyAttempt, guards_eq_ok, reservationFor_eq_ok, verifyBucket_eq_ok, Prod.exists]
  constructor
  · rintro ⟨entry, r, hr, hbucket, hattempts, rfl⟩
    exact ⟨entry, r, ⟨hr, hbucket, hattempts⟩, rfl⟩
  · rintro ⟨entry, r, ⟨hr, hbucket, hattempts⟩, rfl⟩
    exact ⟨entry, r, hr, hbucket, hattempts, rfl⟩

theorem applyPut_eq_ok {v : PutCommitted B} : applyPut cfg s frame v = .ok s' ↔
      ∃ entry r, PutGuard cfg s frame v entry r ∧ s.put frame entry r v = s' := by
  simp only [applyPut, guards_eq_ok, reservationFor_eq_ok, verifyBucket_eq_ok, Prod.exists, rethrown_eq_ok,
    resultBindingBytes_eq_ok, has_eq_false_iff]
  constructor
  · rintro ⟨entry, r, hr, hbucket, ⟨hslot, hfingerprint⟩, _, ⟨hbinding, -⟩,
      ⟨hattempts, hepoch, hlease, hidentity, hobject, hsame⟩, hcell, rfl⟩
    exact ⟨entry, r, ⟨hr, hbucket, hslot, hfingerprint, hbinding, hattempts, hepoch, hlease,
      hidentity, hobject, hsame, hcell⟩, rfl⟩
  · rintro ⟨entry, r, h, rfl⟩
    exact ⟨entry, r, h.reservation, h.bucket, ⟨h.slot, h.fingerprint⟩, _, ⟨h.binding, rfl⟩,
      ⟨h.attempts, h.epoch, h.lease, h.identity, h.object, h.sameBinding⟩, h.cell, rfl⟩

theorem applyAtomicPut_eq_ok {v : PutAtomicCommitted B} : applyAtomicPut cfg s frame v = .ok s' ↔
      AtomicPutGuard cfg s frame v ∧ s.atomicPut frame v = s' := by
  simp only [applyAtomicPut, guards_eq_ok, verifyBucket_eq_ok, rethrown_eq_ok, resultBindingBytes_eq_ok,
    boundAdmission_eq_ok, has_eq_false_iff]
  constructor
  · rintro ⟨hbucket, ⟨hspend, hcommitment, hcell⟩, htransaction, hsize, hslot, hkeys, halloc, _,
      ⟨hbinding, -⟩, _, ⟨hadmission, -⟩, ⟨hfingerprint, hepoch, hlease, hidentity, hahead,
      hbehind⟩, rfl⟩
    exact ⟨⟨⟨hbucket, hsize, hslot, halloc, hkeys, hbinding, hadmission⟩, ⟨hspend, hcommitment⟩,
      hcell, htransaction, hfingerprint, hepoch, hlease, hidentity, hahead, hbehind⟩, rfl⟩
  · rintro ⟨h, rfl⟩
    exact ⟨h.terms.bucket, ⟨h.fresh.spend, h.fresh.commitment, h.cell⟩, h.transaction,
      h.terms.size, h.terms.slot, h.terms.keys, h.terms.allocation, _, ⟨h.terms.binding, rfl⟩, _,
      ⟨h.terms.admission, rfl⟩, ⟨h.fingerprint, h.epoch, h.lease, h.identity, h.notAhead,
      h.notBehind⟩, rfl⟩

theorem applyTerminal_eq_ok {v : PutTerminal B} : applyTerminal cfg s frame v = .ok s' ↔
      ∃ entry r, TerminalGuard cfg s frame v entry r ∧ s.terminate entry r v = s' := by
  simp only [applyTerminal, guards_eq_ok, reservationFor_eq_ok, verifyBucket_eq_ok, Prod.exists]
  constructor
  · rintro ⟨entry, r, hr, hbucket, ⟨hfingerprint, hepoch⟩, rfl⟩
    exact ⟨entry, r, ⟨hr, hbucket, hfingerprint, hepoch⟩, rfl⟩
  · rintro ⟨entry, r, ⟨hr, hbucket, hfingerprint, hepoch⟩, rfl⟩
    exact ⟨entry, r, hr, hbucket, ⟨hfingerprint, hepoch⟩, rfl⟩

theorem applyRenew_eq_ok {v : RenewCommitted B} : applyRenew cfg s frame v = .ok s' ↔
      ∃ record, RenewGuard cfg s frame v record ∧ s.renew frame record v = s' := by
  simp only [applyRenew, guards_eq_ok, verifyBucket_eq_ok, rethrown_eq_ok, resultBindingBytes_eq_ok,
    boundAdmission_eq_ok, has_eq_false_iff]
  constructor
  · rintro ⟨hbucket, ⟨hspend, hcommitment⟩, record, hcell, ⟨hpresent, holdRev, holdLease, hnewRev,
      hextends⟩, _, ⟨hbinding, -⟩, _, ⟨hadmission, -⟩, ⟨hepoch, hnewLease, hidentity⟩, rfl⟩
    exact ⟨record, ⟨hbucket, ⟨hspend, hcommitment⟩, hcell, hpresent, holdRev, holdLease, hnewRev,
      hextends, hbinding, hadmission, hepoch, hnewLease, hidentity⟩, rfl⟩
  · rintro ⟨record, h, rfl⟩
    exact ⟨h.bucket, ⟨h.fresh.spend, h.fresh.commitment⟩, record, h.cell, ⟨h.present,
      h.oldRevision, h.oldLease, h.newRevision, h.extends_lease⟩, _, ⟨h.binding, rfl⟩, _,
      ⟨h.admission, rfl⟩, ⟨h.epoch, h.newLease, h.identity⟩, rfl⟩

theorem applyDrop_eq_ok {v : DropCommitted B} : applyDrop cfg s frame v = .ok s' ↔
      ∃ record, DropGuard cfg s frame v record ∧ s.drop frame record v = s' := by
  simp only [applyDrop, guards_eq_ok, verifyBucket_eq_ok, rethrown_eq_ok, resultBindingBytes_eq_ok,
    has_eq_false_iff]
  constructor
  · rintro ⟨hbucket, hfresh, record, hcell, ⟨hpresent, holdRev, holdLease, hnewRev⟩, _,
      ⟨hbinding, -⟩, ⟨hepoch, hidentity⟩, rfl⟩
    exact ⟨record, ⟨hbucket, hfresh, hcell, hpresent, holdRev, holdLease, hnewRev, hbinding, hepoch, hidentity⟩, rfl⟩
  · rintro ⟨record, h, rfl⟩
    exact ⟨h.bucket, h.fresh, record, h.cell, ⟨h.present, h.oldRevision, h.oldLease,
      h.newRevision⟩, _, ⟨h.binding, rfl⟩, ⟨h.epoch, h.identity⟩, rfl⟩

theorem applyReadPin_eq_ok {v : ReadPinCommitted B} : applyReadPin cfg s frame v = .ok s' ↔
      ReadPinGuard cfg s frame v ∧ s.pinRead frame v = s' := by
  simp only [applyReadPin, guards_eq_ok, rethrown_eq_ok, preparedAdmission_eq_ok, resultBindingBytes_eq_ok,
    verifyPins_eq_ok, has_eq_false_iff]
  constructor
  · rintro ⟨hbucket, ⟨hspend, hcommitment, hepoch, hreceipt, hretry, hnonzero⟩, _,
      ⟨hcanonical, rfl⟩, ⟨htag, hrequest⟩, _, ⟨hbinding, -⟩, ⟨hdistinct, -, hpins⟩, hunary,
      hfingerprint, ⟨⟩, hcost, rfl⟩
    exact ⟨⟨hbucket, ⟨hspend, hcommitment⟩, hepoch, hreceipt, hretry, hnonzero, hcanonical, htag,
      hrequest, hbinding, hdistinct, hpins, hunary, hfingerprint, hcost⟩, rfl⟩
  · rintro ⟨h, rfl⟩
    exact ⟨h.bucket, ⟨h.fresh.spend, h.fresh.commitment, h.epoch, h.receipt, h.retry, h.nonzero⟩,
      _, ⟨h.canonical, rfl⟩, ⟨h.spendTag_eq, h.requestCommitment_eq⟩, _, ⟨h.binding, rfl⟩,
      ⟨h.distinct, fun _ _ => List.not_mem_nil, h.pins⟩, h.unary, h.fingerprint, (), h.cost, rfl⟩

theorem applyReadPinFinalized_eq_ok {v : ReadPinFinalized B} : applyReadPinFinalized s frame v = .ok s' ↔
      ∃ entry pin, ReadPinFinalizedGuard s frame v entry pin ∧ s.finalizeRead entry pin v = s' := by
  simp only [applyReadPinFinalized, guards_eq_ok, pinned?_eq_some]
  constructor
  · rintro ⟨⟨hbucket, hepoch⟩, entry, hentry, pin, hpin, ⟨htransaction, hcommitment, hnonzero⟩, hpins, rfl⟩
    exact ⟨entry, pin, ⟨hbucket, hepoch, hentry, hpin, htransaction, hcommitment, hnonzero, hpins⟩, rfl⟩
  · rintro ⟨entry, pin, h, rfl⟩
    exact ⟨⟨h.bucket, h.epoch⟩, entry, h.spend, pin, h.state, ⟨h.transaction, h.commitment, h.nonzero⟩, h.pins, rfl⟩

theorem applyReadPinExpired_eq_ok {v : ReadPinExpired B} : applyReadPinExpired s frame v = .ok s' ↔
      ∃ entry pin, ReadPinExpiredGuard s frame v entry pin ∧ s.expireRead entry pin v = s' := by
  simp only [applyReadPinExpired, guards_eq_ok]
  constructor
  · rintro ⟨⟨hbucket, hepoch⟩, entry, hentry, pin, hpin, ⟨htransaction, hcommitment, hretry, hdue⟩, rfl⟩
    exact ⟨entry, pin, ⟨hbucket, hepoch, hentry, hpin, htransaction, hcommitment, hretry, hdue⟩, rfl⟩
  · rintro ⟨entry, pin, h, rfl⟩
    exact ⟨⟨h.bucket, h.epoch⟩, entry, h.spend, pin, h.live, ⟨h.transaction, h.commitment, h.retry, h.due⟩, rfl⟩

theorem applyPolicy_eq_ok {v : PolicyCommitted B} : applyPolicy cfg s frame v = .ok s' ↔
      ∃ record, PolicyGuard cfg s frame v record ∧ s.setCell (record.withPolicy v) = s' := by
  simp only [applyPolicy, guards_eq_ok, verifyBucket_eq_ok]
  constructor
  · rintro ⟨hbucket, record, hcell, ⟨hpresent, hold, hnew, hchanges, hepoch⟩, rfl⟩
    exact ⟨record, ⟨hbucket, hcell, hpresent, hold, hnew, hchanges, hepoch⟩, rfl⟩
  · rintro ⟨record, h, rfl⟩
    exact ⟨h.bucket, record, h.cell, ⟨h.present, h.oldRevision, h.newRevision, h.changes, h.epoch⟩, rfl⟩

theorem applyGc_eq_ok {v : GcCommitted B} : applyGc cfg s frame v = .ok s' ↔ ∃ record, GcGuard cfg s frame v record ∧
        s.bury record .expiredGc v.newStateRevision v.tombstoneEpoch = s' := by
  simp only [applyGc, guards_eq_ok, verifyBucket_eq_ok]
  constructor
  · rintro ⟨hbucket, record, hcell, ⟨hpresent, hold, hlease, hnew, hexpired, hepoch⟩, rfl⟩
    exact ⟨record, ⟨hbucket, hcell, hpresent, hold, hlease, hnew, hexpired, hepoch⟩, rfl⟩
  · rintro ⟨record, h, rfl⟩
    exact ⟨h.bucket, record, h.cell, ⟨h.present, h.oldRevision, h.oldLease, h.newRevision, h.expired, h.epoch⟩, rfl⟩

theorem applyFloor_eq_ok {v : FloorTransition} {confirmed : Bool} :
    applyFloor s v confirmed = .ok s' ↔ FloorGuard s v confirmed ∧
      { s with
        epochFloor := v.newEpochFloor
        clockUnsafe := if confirmed then false else s.clockUnsafe } = s' := by
  simp only [applyFloor, guards_eq_ok]
  constructor
  · rintro ⟨⟨hold, hforward⟩, hjump, rfl⟩
    exact ⟨⟨hold, hforward, hjump⟩, rfl⟩
  · rintro ⟨⟨hold, hforward, hjump⟩, rfl⟩
    exact ⟨⟨hold, hforward⟩, hjump, rfl⟩

theorem applyClockUnsafe_eq_ok {v : ClockUnsafe} : applyClockUnsafe s v = .ok s' ↔
      ClockUnsafeGuard s v ∧ { s with clockUnsafe := true } = s' := by
  simp only [applyClockUnsafe, guards_eq_ok]
  constructor
  · rintro ⟨⟨hfloor, hbackward, hforward⟩, rfl⟩
    exact ⟨⟨hfloor, hbackward, hforward⟩, rfl⟩
  · rintro ⟨⟨hfloor, hbackward, hforward⟩, rfl⟩
    exact ⟨⟨hfloor, hbackward, hforward⟩, rfl⟩

def State.compacted (s : State B) (frame : Frame B) : CompactKind → B → State B
  | .cell, key => { s with compactionWalHighWater := frame.sequence }.forgetCell key
  | .spend, key =>
    match s.spends.get? key with
    | some entry => { s with compactionWalHighWater := frame.sequence }.forgetSpend key entry
    | none => s
  | .requestResult, key =>
    { s with
      compactionWalHighWater := frame.sequence
      requestResults := s.requestResults.delete key }

theorem applyCompact_eq_ok {v : Compact B} : applyCompact s frame v = .ok s' ↔
      v.compactedEpoch = s.epochFloor ∧ Compactable s s.epochFloor v.entryKind v.key ∧
        s.compacted frame v.entryKind v.key = s' := by
  obtain ⟨kind, key, epoch⟩ := v
  cases kind with
  | cell =>
    simp only [applyCompact, guards_eq_ok, Compactable, State.compacted]
    constructor
    · rintro ⟨rfl, record, hrecord, terminal, hterminal, ⟨htombstone, hpast⟩, rfl⟩
      exact ⟨rfl, ⟨record, terminal, hrecord, hterminal, htombstone, hpast⟩, rfl⟩
    · rintro ⟨rfl, ⟨record, terminal, hrecord, hterminal, htombstone, hpast⟩, rfl⟩
      exact ⟨rfl, record, hrecord, terminal, hterminal, ⟨htombstone, hpast⟩, rfl⟩
  | spend =>
    simp only [applyCompact, guards_eq_ok, Compactable, State.compacted]
    constructor
    · rintro ⟨rfl, entry, hentry, age, hage, hpast, rfl⟩
      exact ⟨rfl, ⟨entry, age, hentry, hage, hpast⟩, by rw [hentry]⟩
    · rintro ⟨rfl, ⟨entry, age, hentry, hage, hpast⟩, h⟩
      rw [hentry] at h
      exact ⟨rfl, entry, hentry, age, hage, hpast, h⟩
  | requestResult =>
    simp only [applyCompact, guards_eq_ok, Compactable, State.compacted]
    constructor
    · rintro ⟨rfl, result, hresult, hpast, rfl⟩
      exact ⟨rfl, ⟨result, hresult, hpast⟩, rfl⟩
    · rintro ⟨rfl, ⟨result, hresult, hpast⟩, rfl⟩
      exact ⟨rfl, result, hresult, hpast, rfl⟩

end Equations

/-! ### One relation for all frames -/

/-- The step that an accepted frame takes, by payload. -/
inductive Step (cfg : Config B) (s : State B) (frame : Frame B) (recovering : Bool) :
    State B → Prop
  | reserve (v : IngressReserved B) (hp : frame.payload = .ingressReserved v)
      (h : ReservationGuard cfg s frame v) : Step cfg s frame recovering (s.reserve frame v)
  | attempt (v : AttemptConsumed B) (entry : SpendEntry B) (r : Reservation B)
      (hp : frame.payload = .attemptConsumed v) (h : AttemptGuard cfg s frame v entry r) :
      Step cfg s frame recovering (s.setSpend (entry.attempted r v))
  | put (v : PutCommitted B) (entry : SpendEntry B) (r : Reservation B)
      (hp : frame.payload = .putCommitted v) (h : PutGuard cfg s frame v entry r) :
      Step cfg s frame recovering (s.put frame entry r v)
  | terminate (v : PutTerminal B) (entry : SpendEntry B) (r : Reservation B)
      (hp : frame.payload = .putTerminal v) (h : TerminalGuard cfg s frame v entry r) :
      Step cfg s frame recovering (s.terminate entry r v)
  | renew (v : RenewCommitted B) (record : CellRecord B) (hp : frame.payload = .renewCommitted v)
      (h : RenewGuard cfg s frame v record) : Step cfg s frame recovering (s.renew frame record v)
  | drop (v : DropCommitted B) (record : CellRecord B) (hp : frame.payload = .dropCommitted v)
      (h : DropGuard cfg s frame v record) : Step cfg s frame recovering (s.drop frame record v)
  | policy (v : PolicyCommitted B) (record : CellRecord B)
      (hp : frame.payload = .policyCommitted v) (h : PolicyGuard cfg s frame v record) :
      Step cfg s frame recovering (s.setCell (record.withPolicy v))
  | gc (v : GcCommitted B) (record : CellRecord B) (hp : frame.payload = .gcCommitted v)
      (h : GcGuard cfg s frame v record) :
      Step cfg s frame recovering (s.bury record .expiredGc v.newStateRevision v.tombstoneEpoch)
  | floor (v : FloorTransition) (confirmed : Bool)
      (hp : frame.payload = if confirmed then .clockConfirm v else .floorAdvance v)
      (h : FloorGuard s v confirmed) :
      Step cfg s frame recovering { s with
        epochFloor := v.newEpochFloor
        clockUnsafe := if confirmed then false else s.clockUnsafe }
  | clockUnsafe (v : ClockUnsafe) (hp : frame.payload = .clockUnsafe v)
      (h : ClockUnsafeGuard s v) : Step cfg s frame recovering { s with clockUnsafe := true }
  | compact (v : Compact B) (hp : frame.payload = .compact v)
      (epoch : v.compactedEpoch = s.epochFloor)
      (h : Compactable s s.epochFloor v.entryKind v.key) :
      Step cfg s frame recovering (s.compacted frame v.entryKind v.key)
  | integrity (v : IntegrityFailed B) (hp : frame.payload = .integrityFailed v) :
      Step cfg s frame recovering (applyIntegrity s v recovering)
  | pinRead (v : ReadPinCommitted B) (hp : frame.payload = .readPinCommitted v)
      (h : ReadPinGuard cfg s frame v) : Step cfg s frame recovering (s.pinRead frame v)
  | finalizeRead (v : ReadPinFinalized B) (entry : SpendEntry B) (pin : ReadPin B)
      (hp : frame.payload = .readPinFinalized v) (h : ReadPinFinalizedGuard s frame v entry pin) :
      Step cfg s frame recovering (s.finalizeRead entry pin v)
  | expireRead (v : ReadPinExpired B) (entry : SpendEntry B) (pin : ReadPin B)
      (hp : frame.payload = .readPinExpired v) (h : ReadPinExpiredGuard s frame v entry pin) :
      Step cfg s frame recovering (s.expireRead entry pin v)
  | atomicPut (v : PutAtomicCommitted B) (hp : frame.payload = .putAtomicCommitted v)
      (h : AtomicPutGuard cfg s frame v) : Step cfg s frame recovering (s.atomicPut frame v)

/-- **What a frame does**: an accepted frame takes one of the steps, and every step is that of a
frame that is accepted. -/
theorem applyPayload_eq_ok_iff {cfg : Config B} {s s' : State B} {frame : Frame B} {recovering : Bool} :
    applyPayload cfg s frame recovering = .ok s' ↔ Step cfg s frame recovering s' := by
  constructor
  · intro h
    unfold applyPayload at h
    split at h
    case h_1 v hp =>
      obtain ⟨hguard, rfl⟩ := applyReservation_eq_ok.mp h
      exact .reserve v hp hguard
    case h_2 v hp =>
      obtain ⟨entry, r, hguard, rfl⟩ := applyAttempt_eq_ok.mp h
      exact .attempt v entry r hp hguard
    case h_3 v hp =>
      obtain ⟨entry, r, hguard, rfl⟩ := applyPut_eq_ok.mp h
      exact .put v entry r hp hguard
    case h_4 v hp =>
      obtain ⟨entry, r, hguard, rfl⟩ := applyTerminal_eq_ok.mp h
      exact .terminate v entry r hp hguard
    case h_5 v hp =>
      obtain ⟨record, hguard, rfl⟩ := applyRenew_eq_ok.mp h
      exact .renew v record hp hguard
    case h_6 v hp =>
      obtain ⟨record, hguard, rfl⟩ := applyDrop_eq_ok.mp h
      exact .drop v record hp hguard
    case h_7 v hp =>
      obtain ⟨record, hguard, rfl⟩ := applyPolicy_eq_ok.mp h
      exact .policy v record hp hguard
    case h_8 v hp =>
      obtain ⟨record, hguard, rfl⟩ := applyGc_eq_ok.mp h
      exact .gc v record hp hguard
    case h_9 v hp =>
      obtain ⟨hguard, rfl⟩ := applyFloor_eq_ok.mp h
      exact .floor v false hp hguard
    case h_10 v hp =>
      obtain ⟨hguard, rfl⟩ := applyClockUnsafe_eq_ok.mp h
      exact .clockUnsafe v hp hguard
    case h_11 v hp =>
      obtain ⟨hguard, rfl⟩ := applyFloor_eq_ok.mp h
      exact .floor v true hp hguard
    case h_12 v hp =>
      obtain ⟨hepoch, hold, rfl⟩ := applyCompact_eq_ok.mp h
      exact .compact v hp hepoch hold
    case h_13 v hp =>
      cases h
      exact .integrity v hp
    case h_14 v hp =>
      obtain ⟨hguard, rfl⟩ := applyReadPin_eq_ok.mp h
      exact .pinRead v hp hguard
    case h_15 v hp =>
      obtain ⟨entry, pin, hguard, rfl⟩ := applyReadPinFinalized_eq_ok.mp h
      exact .finalizeRead v entry pin hp hguard
    case h_16 v hp =>
      obtain ⟨entry, pin, hguard, rfl⟩ := applyReadPinExpired_eq_ok.mp h
      exact .expireRead v entry pin hp hguard
    case h_17 v hp =>
      obtain ⟨hguard, rfl⟩ := applyAtomicPut_eq_ok.mp h
      exact .atomicPut v hp hguard
  · intro h
    cases h with
    | reserve v hp h =>
      rw [applyPayload, hp]
      exact applyReservation_eq_ok.mpr ⟨h, rfl⟩
    | attempt v entry r hp h =>
      rw [applyPayload, hp]
      exact applyAttempt_eq_ok.mpr ⟨entry, r, h, rfl⟩
    | put v entry r hp h =>
      rw [applyPayload, hp]
      exact applyPut_eq_ok.mpr ⟨entry, r, h, rfl⟩
    | terminate v entry r hp h =>
      rw [applyPayload, hp]
      exact applyTerminal_eq_ok.mpr ⟨entry, r, h, rfl⟩
    | renew v record hp h =>
      rw [applyPayload, hp]
      exact applyRenew_eq_ok.mpr ⟨record, h, rfl⟩
    | drop v record hp h =>
      rw [applyPayload, hp]
      exact applyDrop_eq_ok.mpr ⟨record, h, rfl⟩
    | policy v record hp h =>
      rw [applyPayload, hp]
      exact applyPolicy_eq_ok.mpr ⟨record, h, rfl⟩
    | gc v record hp h =>
      rw [applyPayload, hp]
      exact applyGc_eq_ok.mpr ⟨record, h, rfl⟩
    | floor v confirmed hp h =>
      rw [applyPayload, hp]
      cases confirmed
      · exact applyFloor_eq_ok.mpr ⟨h, rfl⟩
      · exact applyFloor_eq_ok.mpr ⟨h, rfl⟩
    | clockUnsafe v hp h =>
      rw [applyPayload, hp]
      exact applyClockUnsafe_eq_ok.mpr ⟨h, rfl⟩
    | compact v hp epoch h =>
      rw [applyPayload, hp]
      exact applyCompact_eq_ok.mpr ⟨epoch, h, rfl⟩
    | integrity v hp =>
      rw [applyPayload, hp]
      rfl
    | pinRead v hp h =>
      rw [applyPayload, hp]
      exact applyReadPin_eq_ok.mpr ⟨h, rfl⟩
    | finalizeRead v entry pin hp h =>
      rw [applyPayload, hp]
      exact applyReadPinFinalized_eq_ok.mpr ⟨entry, pin, h, rfl⟩
    | expireRead v entry pin hp h =>
      rw [applyPayload, hp]
      exact applyReadPinExpired_eq_ok.mpr ⟨entry, pin, h, rfl⟩
    | atomicPut v hp h =>
      rw [applyPayload, hp]
      exact applyAtomicPut_eq_ok.mpr ⟨h, rfl⟩

end HiveRelay.Cell
