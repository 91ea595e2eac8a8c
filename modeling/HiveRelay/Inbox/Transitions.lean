import HiveRelay.Inbox.Apply
import HiveRelay.Lib.Run

/-!
# What an inbox frame checks and what it does

One guard structure per transition of the inbox engine, the equation that a transition succeeds
exactly when its guard holds, and the induction over the sequences of frames that `#applyFrame`
accepts. The proofs about the engine use `Step` and never unfold a transition again.
-/

set_option linter.unusedSectionVars false

namespace HiveRelay.Inbox

open Cell (PreparedAdmission leaseEpochs maxU32)

variable {B : Type} [DecidableEq B] [Zero B]

/-! ### Guards -/

section Guards

variable (cfg : Config B) (s : State B) (frame : Frame B)

/-- `#assertSpendFresh`. -/
structure FreshSpend (t : SpendTerms B) (operation : Operation) (physicalTopic : B)
    (terms : Option (ℕ × B)) (requestedLeaseClass : ℕ) : Prop where
  admission : CanonicalAdmission t.preparedAdmission
  spendTag_eq : t.preparedAdmission.spendTag = t.spendTag
  requestCommitment_eq : t.preparedAdmission.requestCommitment = t.requestCommitment
  spend : s.spends.get? t.spendTag = none
  commitment : s.commitments.get? t.requestCommitment = none
  fingerprint : cfg.hashes.requestFingerprint
    (t.fingerprintParts operation physicalTopic terms requestedLeaseClass) = t.requestFingerprint

/-- The record of a topic is there and is not a tombstone. -/
structure LiveInbox (topic : B) (record : InboxRecord B) : Prop where
  inbox : s.inboxes.get? topic = some record
  present : record.objectState = .present

/-- `#applyCreate`. -/
structure CreateGuard (v : CreateCommitted B) : Prop where
  bucket : frame.virtualBucket = cfg.hashes.virtualBucket v.terms.physicalTopic
  fresh : FreshSpend cfg s v.spend .create v.terms.physicalTopic none v.terms.leaseClass
  inbox : s.inboxes.get? v.terms.physicalTopic = none
  topic : cfg.hashes.inboxPhysicalTopic v.terms.allocationEpoch v.terms.createPublicKey = v.terms.physicalTopic
  commitment : inboxCreateCommitment cfg v.terms = .ok v.createCommitment
  keys : v.terms.keys.Nodup ∧ (∀ key ∈ v.terms.keys, key ≠ 0) ∧
    (v.terms.appendAuthMode = 1 ↔ v.terms.appendPublicKey.isSome)
  lease : v.leaseEpoch = min maxU32 (v.spend.committedEpoch + leaseEpochs v.terms.leaseClass)
  identity : cfg.hashes.resultIdentity
    ⟨.create, v.terms.physicalTopic, v.spend.requestCommitment, 0, v.createCommitment,
      v.spend.committedEpoch⟩ = v.resultIdentity

/-- `#applyRenew`. -/
structure RenewGuard (v : RenewCommitted B) (record : InboxRecord B) : Prop where
  bucket : frame.virtualBucket = cfg.hashes.virtualBucket v.physicalTopic
  fresh : FreshSpend cfg s v.spend .renew v.physicalTopic none v.leaseClass
  live : LiveInbox s v.physicalTopic record
  oldRevision : record.stateRevision = v.oldStateRevision
  oldLease : record.leaseEpoch = v.oldLeaseEpoch
  newRevision : v.newStateRevision = v.oldStateRevision + 1
  extends_lease : v.oldLeaseEpoch < v.newLeaseEpoch
  identity : cfg.hashes.resultIdentity ⟨.renew, v.physicalTopic, v.spend.requestCommitment, v.newStateRevision,
      record.createCommitment, v.spend.committedEpoch⟩ = v.resultIdentity

/-- `#applyClose`. -/
structure CloseGuard (v : CloseCommitted B) (record : InboxRecord B) : Prop where
  bucket : frame.virtualBucket = cfg.hashes.virtualBucket v.physicalTopic
  transaction : frame.transactionId = v.transactionId
  live : LiveInbox s v.physicalTopic record
  oldRevision : record.stateRevision = v.oldStateRevision
  oldLease : record.leaseEpoch = v.oldLeaseEpoch
  newRevision : v.newStateRevision = v.oldStateRevision + 1
  identity : cfg.hashes.resultIdentity
    ⟨.close, v.physicalTopic, v.requestCommitment, v.newStateRevision, record.createCommitment,
      v.committedEpoch⟩ = v.resultIdentity
  result : s.requestResults.get? v.requestCommitment = none
  commitment : s.commitments.get? v.requestCommitment = none

/-- `#applyAppend`. -/
structure AppendGuard (v : AppendCommitted B) (record : InboxRecord B) : Prop where
  bucket : frame.virtualBucket = cfg.hashes.virtualBucket v.physicalTopic
  fresh : FreshSpend cfg s v.spend .append v.physicalTopic (some (v.frameClass, v.frameHash)) 0
  live : LiveInbox s v.physicalTopic record
  frameClass : record.frameClassBits.testBit (v.frameClass - 1) = true
  revision : v.appendRevision = record.allocatedAppendRevision + 1
  lease : v.appendLeaseEpoch = record.leaseEpoch
  expiry : v.expiresAtEpoch = min v.appendLeaseEpoch (v.spend.committedEpoch + leaseEpochs record.retentionClass)
  identity : cfg.hashes.resultIdentity
    ⟨.append, v.physicalTopic, v.spend.requestCommitment, v.appendRevision, v.frameHash,
      v.spend.committedEpoch⟩ = v.resultIdentity
  frames : s.frames.get? (v.physicalTopic, v.appendRevision) = none

/-- `#applyAppendAckFinalized`. -/
structure AckGuard (v : AppendAckFinalized B) (spend : SpendEntry B) (terms : AppendTerms B)
    (record : InboxRecord B) : Prop where
  spends : s.spends.get? v.spendTag = some spend
  state : spend.state = .provisional terms
  commitment : spend.requestCommitment = v.requestCommitment
  epoch : terms.committedEpoch ≤ v.finalizedEpoch
  bucket : frame.virtualBucket = cfg.hashes.virtualBucket spend.physicalTopic
  ack : ∃ ack, appendAckBytes cfg spend terms v.ackSignature = .ok ack ∧ cfg.hashes.ackDigest ack = v.resultCommitment
  inbox : s.inboxes.get? spend.physicalTopic = some record

/-- An entry of a pin names a stored frame of the topic. -/
def PinStored (topic : B) (entry : PinEntry B) : Prop :=
  ∃ stored, s.frames.get? (topic, entry.appendRevision) = some stored ∧
    stored.frameHash = entry.frameHash ∧ stored.frameClass = entry.frameClass ∧
      stored.frameObjectId = entry.frameObjectId

/-- `#applyReadPin`. -/
structure ReadPinGuard (v : ReadPinCommitted B) (record : InboxRecord B) : Prop where
  bucket : frame.virtualBucket = cfg.hashes.virtualBucket v.physicalTopic
  fresh : FreshSpend cfg s v.spend v.operationId v.physicalTopic none 0
  live : LiveInbox s v.physicalTopic record
  ascending : (0 :: v.entries.map PinEntry.appendRevision).Pairwise (· < ·)
  bounded : ∀ entry ∈ v.entries, entry.appendRevision ≤ v.snapshotRevision
  stored : ∀ entry ∈ v.entries, PinStored s v.physicalTopic entry
  source : cfg.hashes.retrySourceCommitment v.physicalTopic v.snapshotRevision
    (v.reconstruction cfg) (v.entries.map fun e => (e.appendRevision, e.frameHash)) = v.sourceCommitment

/-- `#applyReadFinal`. -/
structure ReadFinalGuard (v : ReadPinFinalized B) (spend : SpendEntry B) (pin : RetryPin B) :
    Prop where
  spends : s.spends.get? v.spendTag = some spend
  retryPins : s.retryPins.get? v.spendTag = some pin
  state : spend.state = .reserved spend.state.operation
  commitment : spend.requestCommitment = v.requestCommitment
  pinCommitment : pin.requestCommitment = v.requestCommitment
  epoch : pin.committedEpoch ≤ v.finalizedEpoch
  bucket : frame.virtualBucket = cfg.hashes.virtualBucket spend.physicalTopic
  identity : cfg.hashes.resultIdentity
    ⟨spend.state.operation, spend.physicalTopic, spend.requestCommitment, pin.sourceRevision,
      v.resultCommitment, pin.committedEpoch⟩ = v.resultIdentity

/-- `#applyReadExpired`. -/
structure ReadExpiredGuard (v : ReadPinExpired B) (spend : SpendEntry B) (pin : RetryPin B) :
    Prop where
  spends : s.spends.get? v.spendTag = some spend
  retryPins : s.retryPins.get? v.spendTag = some pin
  state : spend.state.expirable = true
  commitment : spend.requestCommitment = v.requestCommitment
  minute : pin.retryExpiresMinute = v.retryExpiresMinute
  bucket : frame.virtualBucket = cfg.hashes.virtualBucket spend.physicalTopic

/-- `#applyFloor`. -/
structure FloorGuard (v : FloorAdvance) : Prop where
  old : v.oldEpochFloor = s.epochFloor
  forward : v.oldEpochFloor ≤ v.newEpochFloor
  jump : v.oldEpochFloor ≠ 0 → v.newEpochFloor ≤ v.oldEpochFloor + 4

/-- `#applyAppendExpired`. -/
structure AppendExpiredGuard (v : AppendExpired B) (spend : SpendEntry B) (terms : AppendTerms B)
    (stored : StoredFrame B) : Prop where
  bucket : frame.virtualBucket = cfg.hashes.virtualBucket v.physicalTopic
  frames : s.frames.get? (v.physicalTopic, v.appendRevision) = some stored
  spends : s.spends.get? v.spendTag = some spend
  state : spend.state = .appended terms v.ackSignature v.resultCommitment
  sameData : v.Matches stored spend terms v.ackSignature v.resultCommitment
  unpinned : s.framePinned stored = false
  ack : ∃ ack, appendAckBytes cfg spend terms v.ackSignature = .ok ack ∧ cfg.hashes.ackDigest ack = v.resultCommitment

/-- `#applyInboxGc`. -/
structure InboxGcGuard (v : InboxGc B) (record : InboxRecord B) : Prop where
  bucket : frame.virtualBucket = cfg.hashes.virtualBucket v.physicalTopic
  live : LiveInbox s v.physicalTopic record
  oldRevision : record.stateRevision = v.oldStateRevision
  oldLease : record.leaseEpoch = v.expectedLeaseEpoch
  newRevision : v.newStateRevision = v.oldStateRevision + 1
  expired : record.leaseEpoch < v.terminalEpoch

/-- `#applyPolicy`. -/
structure PolicyGuard (v : PolicyCommitted B) (record : InboxRecord B) : Prop where
  bucket : frame.virtualBucket = cfg.hashes.virtualBucket v.physicalTopic
  inbox : s.inboxes.get? v.physicalTopic = some record
  oldRevision : record.policyRevision = v.oldPolicyRevision
  newRevision : v.newPolicyRevision = v.oldPolicyRevision + 1

end Guards

/-! ### The transitions are their guards and their updates -/

section Equations

variable {cfg : Config B} {s s' : State B} {frame : Frame B}

variable {topic : B}

theorem verifyBucket_eq_ok {u : Unit} : verifyBucket cfg frame topic = .ok u ↔
      frame.virtualBucket = cfg.hashes.virtualBucket topic := by
  simp only [verifyBucket, require_eq_ok]

theorem assertSpendFresh_eq_ok {t : SpendTerms B} {operation : Operation}
    {terms : Option (ℕ × B)} {leaseClass : ℕ} {u : Unit} :
    assertSpendFresh cfg s t operation topic terms leaseClass = .ok u ↔
      FreshSpend cfg s t operation topic terms leaseClass := by
  simp only [assertSpendFresh, guards_eq_ok]
  constructor
  · rintro ⟨hadmission, ⟨htag, hcommitment⟩, ⟨hspend, hfresh⟩, hfingerprint⟩
    exact ⟨hadmission, htag, hcommitment, hspend, hfresh, hfingerprint⟩
  · rintro ⟨hadmission, htag, hcommitment, hspend, hfresh, hfingerprint⟩
    exact ⟨hadmission, ⟨htag, hcommitment⟩, ⟨hspend, hfresh⟩, hfingerprint⟩

theorem liveInbox_eq_ok {error : Failure} {record : InboxRecord B} :
    liveInbox s topic error = .ok record ↔ LiveInbox s topic record := by
  simp only [liveInbox, guards_eq_ok]
  constructor
  · rintro ⟨r, hinbox, hpresent, rfl⟩
    exact ⟨hinbox, hpresent⟩
  · rintro ⟨hinbox, hpresent⟩
    exact ⟨record, hinbox, hpresent, rfl⟩

theorem applyCreate_eq_ok {v : CreateCommitted B} : applyCreate cfg s frame v = .ok s' ↔
      CreateGuard cfg s frame v ∧ s.create frame v = s' := by
  simp only [applyCreate, guards_eq_ok, verifyBucket_eq_ok, assertSpendFresh_eq_ok]
  constructor
  · rintro ⟨hbucket, hfresh, hinbox, htopic, _, hcreate, rfl, hkeys, hlease, hidentity, rfl⟩
    exact ⟨⟨hbucket, hfresh, hinbox, htopic, hcreate, hkeys, hlease, hidentity⟩, rfl⟩
  · rintro ⟨⟨hbucket, hfresh, hinbox, htopic, hcreate, hkeys, hlease, hidentity⟩, rfl⟩
    exact ⟨hbucket, hfresh, hinbox, htopic, _, hcreate, rfl, hkeys, hlease, hidentity, rfl⟩

theorem applyRenew_eq_ok {v : RenewCommitted B} : applyRenew cfg s frame v = .ok s' ↔
      ∃ record, RenewGuard cfg s frame v record ∧ s.renew frame v record = s' := by
  simp only [applyRenew, guards_eq_ok, verifyBucket_eq_ok, assertSpendFresh_eq_ok, liveInbox_eq_ok]
  constructor
  · rintro ⟨hbucket, hfresh, record, hlive, ⟨h₁, h₂, h₃, h₄⟩, hidentity, rfl⟩
    exact ⟨record, ⟨hbucket, hfresh, hlive, h₁, h₂, h₃, h₄, hidentity⟩, rfl⟩
  · rintro ⟨record, ⟨hbucket, hfresh, hlive, h₁, h₂, h₃, h₄, hidentity⟩, rfl⟩
    exact ⟨hbucket, hfresh, record, hlive, ⟨h₁, h₂, h₃, h₄⟩, hidentity, rfl⟩

theorem applyClose_eq_ok {v : CloseCommitted B} : applyClose cfg s frame v = .ok s' ↔
      ∃ record, CloseGuard cfg s frame v record ∧ s.close v record = s' := by
  simp only [applyClose, guards_eq_ok, verifyBucket_eq_ok, liveInbox_eq_ok]
  constructor
  · rintro ⟨hbucket, htransaction, record, hlive, ⟨h₁, h₂, h₃⟩, hidentity, ⟨hresult, hfresh⟩, rfl⟩
    exact ⟨record, ⟨hbucket, htransaction, hlive, h₁, h₂, h₃, hidentity, hresult, hfresh⟩, rfl⟩
  · rintro ⟨record, ⟨hbucket, htransaction, hlive, h₁, h₂, h₃, hidentity, hresult, hfresh⟩, rfl⟩
    exact ⟨hbucket, htransaction, record, hlive, ⟨h₁, h₂, h₃⟩, hidentity, ⟨hresult, hfresh⟩, rfl⟩

theorem applyAppend_eq_ok {v : AppendCommitted B} : applyAppend cfg s frame v = .ok s' ↔
      ∃ record, AppendGuard cfg s frame v record ∧ s.append frame v record = s' := by
  simp only [applyAppend, guards_eq_ok, verifyBucket_eq_ok, assertSpendFresh_eq_ok, liveInbox_eq_ok]
  constructor
  · rintro ⟨hbucket, hfresh, record, hlive, ⟨h₁, h₂, h₃, h₄⟩, hidentity, hframe, rfl⟩
    exact ⟨record, ⟨hbucket, hfresh, hlive, h₁, h₂, h₃, h₄, hidentity, hframe⟩, rfl⟩
  · rintro ⟨record, ⟨hbucket, hfresh, hlive, h₁, h₂, h₃, h₄, hidentity, hframe⟩, rfl⟩
    exact ⟨hbucket, hfresh, record, hlive, ⟨h₁, h₂, h₃, h₄⟩, hidentity, hframe, rfl⟩

theorem provisional?_eq_some {spend : SpendEntry B} {terms : AppendTerms B} :
    spend.provisional? = some terms ↔ spend.state = .provisional terms := by
  rw [SpendEntry.provisional?]
  cases spend.state <;> simp

theorem appended?_eq_some {spend : SpendEntry B} {terms : AppendTerms B} {signature commitment : B} :
    spend.appended? = some (terms, signature, commitment) ↔ spend.state = .appended terms signature commitment := by
  rw [SpendEntry.appended?]
  cases spend.state <;> simp

theorem applyAppendAckFinalized_eq_ok {v : AppendAckFinalized B} : applyAppendAckFinalized cfg s frame v = .ok s' ↔
      ∃ spend terms record, AckGuard cfg s frame v spend terms record ∧ s.finalizeAck v spend terms record = s' := by
  simp only [applyAppendAckFinalized, guards_eq_ok, verifyBucket_eq_ok, provisional?_eq_some]
  constructor
  · rintro ⟨spend, hspend, terms, hstate, ⟨hcommitment, hepoch⟩, hbucket, ack, hack, hdigest, record, hinbox, rfl⟩
    exact ⟨spend, terms, record, ⟨hspend, hstate, hcommitment, hepoch, hbucket, ⟨ack, hack, hdigest⟩, hinbox⟩, rfl⟩
  · rintro ⟨spend, terms, record, ⟨hspend, hstate, hcommitment, hepoch, hbucket, ⟨ack, hack, hdigest⟩, hinbox⟩, rfl⟩
    exact ⟨spend, hspend, terms, hstate, ⟨hcommitment, hepoch⟩, hbucket, ack, hack, hdigest, record, hinbox, rfl⟩

/-- The loop over the entries of a pin asks each that it is above the one before it, within the
snapshot, and the name of a stored frame. -/
theorem verifyEntries_eq_ok {snapshotRevision previous : ℕ} {entries : List (PinEntry B)} {u : Unit} :
    verifyEntries s topic snapshotRevision previous entries = .ok u ↔
      (previous :: entries.map PinEntry.appendRevision).Pairwise (· < ·) ∧
        (∀ entry ∈ entries, entry.appendRevision ≤ snapshotRevision) ∧
        ∀ entry ∈ entries, PinStored s topic entry := by
  rw [← List.isChain_iff_pairwise]
  induction entries generalizing previous with
  | nil => simp [verifyEntries]
  | cons entry entries ih =>
    simp only [verifyEntries, guards_eq_ok, List.map_cons, List.isChain_cons_cons, List.forall_mem_cons, ih,
      PinStored]
    constructor
    · rintro ⟨⟨hlt, hle⟩, stored, hget, hsame, hchain, hbounded, hstored⟩
      exact ⟨⟨hlt, hchain⟩, ⟨hle, hbounded⟩, ⟨stored, hget, hsame⟩, hstored⟩
    · rintro ⟨⟨hlt, hchain⟩, ⟨hle, hbounded⟩, ⟨stored, hget, hsame⟩, hstored⟩
      exact ⟨⟨hlt, hle⟩, stored, hget, hsame, hchain, hbounded, hstored⟩

theorem applyReadPin_eq_ok {v : ReadPinCommitted B} : applyReadPin cfg s frame v = .ok s' ↔
      ∃ record, ReadPinGuard cfg s frame v record ∧ s.pinRead frame cfg v = s' := by
  simp only [applyReadPin, guards_eq_ok, verifyBucket_eq_ok, assertSpendFresh_eq_ok, liveInbox_eq_ok,
    verifyEntries_eq_ok]
  constructor
  · rintro ⟨hbucket, hfresh, record, hlive, ⟨hascending, hbounded, hstored⟩, hsource, rfl⟩
    exact ⟨record, ⟨hbucket, hfresh, hlive, hascending, hbounded, hstored, hsource⟩, rfl⟩
  · rintro ⟨record, ⟨hbucket, hfresh, hlive, hascending, hbounded, hstored, hsource⟩, rfl⟩
    exact ⟨hbucket, hfresh, record, hlive, ⟨hascending, hbounded, hstored⟩, hsource, rfl⟩

theorem applyReadFinal_eq_ok {v : ReadPinFinalized B} : applyReadFinal cfg s frame v = .ok s' ↔
      ∃ spend pin, ReadFinalGuard cfg s frame v spend pin ∧ s.finalizeRead v spend pin = s' := by
  simp only [applyReadFinal, guards_eq_ok, verifyBucket_eq_ok]
  constructor
  · rintro ⟨spend, hspend, pin, hpin, ⟨h₁, h₂, h₃, h₄⟩, hbucket, hidentity, rfl⟩
    exact ⟨spend, pin, ⟨hspend, hpin, h₁, h₂, h₃, h₄, hbucket, hidentity⟩, rfl⟩
  · rintro ⟨spend, pin, ⟨hspend, hpin, h₁, h₂, h₃, h₄, hbucket, hidentity⟩, rfl⟩
    exact ⟨spend, hspend, pin, hpin, ⟨h₁, h₂, h₃, h₄⟩, hbucket, hidentity, rfl⟩

theorem applyReadExpired_eq_ok {v : ReadPinExpired B} : applyReadExpired cfg s frame v = .ok s' ↔
      ∃ spend pin, ReadExpiredGuard cfg s frame v spend pin ∧ s.expireRead v spend pin = s' := by
  simp only [applyReadExpired, guards_eq_ok, verifyBucket_eq_ok]
  constructor
  · rintro ⟨spend, hspend, pin, hpin, ⟨h₁, h₂, h₃⟩, hbucket, rfl⟩
    exact ⟨spend, pin, ⟨hspend, hpin, h₁, h₂, h₃, hbucket⟩, rfl⟩
  · rintro ⟨spend, pin, ⟨hspend, hpin, h₁, h₂, h₃, hbucket⟩, rfl⟩
    exact ⟨spend, hspend, pin, hpin, ⟨h₁, h₂, h₃⟩, hbucket, rfl⟩

theorem applyFloor_eq_ok {v : FloorAdvance} : applyFloor s v = .ok s' ↔
      FloorGuard s v ∧ { s with epochFloor := v.newEpochFloor } = s' := by
  simp only [applyFloor, guards_eq_ok]
  constructor
  · rintro ⟨⟨h₁, h₂, h₃⟩, rfl⟩
    exact ⟨⟨h₁, h₂, h₃⟩, rfl⟩
  · rintro ⟨⟨h₁, h₂, h₃⟩, rfl⟩
    exact ⟨⟨h₁, h₂, h₃⟩, rfl⟩

theorem applyAppendExpired_eq_ok {v : AppendExpired B} : applyAppendExpired cfg s frame v = .ok s' ↔
      ∃ spend terms stored, AppendExpiredGuard cfg s frame v spend terms stored ∧
        s.expireAppend v spend terms stored = s' := by
  simp only [applyAppendExpired, guards_eq_ok, verifyBucket_eq_ok, Prod.exists, appended?_eq_some]
  constructor
  · rintro ⟨hbucket, stored, hframe, spend, hspend, terms, signature, commitment, hstate,
      ⟨hmatches, hunpinned⟩, ack, hack, hdigest, rfl⟩
    have hsame := hmatches
    obtain ⟨-, -, -, -, -, -, -, -, -, -, -, -, -, -, -, -, -, -, -, -, -, rfl, rfl, -⟩ := hmatches
    exact ⟨spend, terms, stored, ⟨hbucket, hframe, hspend, hstate, hsame, hunpinned, ⟨ack, hack, hdigest⟩⟩, rfl⟩
  · rintro ⟨spend, terms, stored, ⟨hbucket, hframe, hspend, hstate, hsame, hunpinned, ⟨ack, hack, hdigest⟩⟩, rfl⟩
    exact ⟨hbucket, stored, hframe, spend, hspend, terms, _, _, hstate, ⟨hsame, hunpinned⟩, ack, hack, hdigest, rfl⟩

theorem applyInboxGc_eq_ok {v : InboxGc B} : applyInboxGc cfg s frame v = .ok s' ↔
      ∃ record, InboxGcGuard cfg s frame v record ∧ s.setInbox (record.collected v) = s' := by
  simp only [applyInboxGc, guards_eq_ok, verifyBucket_eq_ok, liveInbox_eq_ok]
  constructor
  · rintro ⟨hbucket, record, hlive, ⟨h₁, h₂, h₃, h₄⟩, rfl⟩
    exact ⟨record, ⟨hbucket, hlive, h₁, h₂, h₃, h₄⟩, rfl⟩
  · rintro ⟨record, ⟨hbucket, hlive, h₁, h₂, h₃, h₄⟩, rfl⟩
    exact ⟨hbucket, record, hlive, ⟨h₁, h₂, h₃, h₄⟩, rfl⟩

/-- The record that `#applyPolicy` leaves. -/
def InboxRecord.withPolicy (record : InboxRecord B) (v : PolicyCommitted B) : InboxRecord B :=
  { record with policyRevision := v.newPolicyRevision, policyState := v.policyState }

theorem applyPolicy_eq_ok {v : PolicyCommitted B} : applyPolicy cfg s frame v = .ok s' ↔
      ∃ record, PolicyGuard cfg s frame v record ∧ s.setInbox (record.withPolicy v) = s' := by
  simp only [applyPolicy, guards_eq_ok, verifyBucket_eq_ok]
  constructor
  · rintro ⟨hbucket, record, hinbox, ⟨h₁, h₂⟩, rfl⟩
    exact ⟨record, ⟨hbucket, hinbox, h₁, h₂⟩, rfl⟩
  · rintro ⟨record, ⟨hbucket, hinbox, h₁, h₂⟩, rfl⟩
    exact ⟨hbucket, record, hinbox, ⟨h₁, h₂⟩, rfl⟩

theorem applyIntegrity_eq_ok {v : IntegrityFailed B} : applyIntegrity s v = .ok s' ↔
      (v.detectedEpoch ≤ s.epochFloor ∧ v.evidenceHash ≠ 0) ∧ s.noteIntegrity v = s' := by
  simp only [applyIntegrity, guards_eq_ok]

end Equations

/-! ### Steps -/

/-- What an accepted frame did: its guard held and the state is its update. -/
inductive Step (cfg : Config B) (s : State B) (frame : Frame B) : State B → Prop
  | create (v : CreateCommitted B) (hp : frame.payload = .createCommitted v)
      (h : CreateGuard cfg s frame v) : Step cfg s frame (s.create frame v)
  | renew (v : RenewCommitted B) (record : InboxRecord B) (hp : frame.payload = .renewCommitted v)
      (h : RenewGuard cfg s frame v record) : Step cfg s frame (s.renew frame v record)
  | close (v : CloseCommitted B) (record : InboxRecord B) (hp : frame.payload = .closeCommitted v)
      (h : CloseGuard cfg s frame v record) : Step cfg s frame (s.close v record)
  | append (v : AppendCommitted B) (record : InboxRecord B)
      (hp : frame.payload = .appendCommitted v) (h : AppendGuard cfg s frame v record) :
      Step cfg s frame (s.append frame v record)
  | finalizeAck (v : AppendAckFinalized B) (spend : SpendEntry B) (terms : AppendTerms B)
      (record : InboxRecord B) (hp : frame.payload = .appendAckFinalized v)
      (h : AckGuard cfg s frame v spend terms record) :
      Step cfg s frame (s.finalizeAck v spend terms record)
  | pinRead (v : ReadPinCommitted B) (record : InboxRecord B)
      (hp : frame.payload = .readPinCommitted v) (h : ReadPinGuard cfg s frame v record) :
      Step cfg s frame (s.pinRead frame cfg v)
  | finalizeRead (v : ReadPinFinalized B) (spend : SpendEntry B) (pin : RetryPin B)
      (hp : frame.payload = .readPinFinalized v) (h : ReadFinalGuard cfg s frame v spend pin) :
      Step cfg s frame (s.finalizeRead v spend pin)
  | expireRead (v : ReadPinExpired B) (spend : SpendEntry B) (pin : RetryPin B)
      (hp : frame.payload = .readPinExpired v) (h : ReadExpiredGuard cfg s frame v spend pin) :
      Step cfg s frame (s.expireRead v spend pin)
  | floor (v : FloorAdvance) (hp : frame.payload = .floorAdvance v) (h : FloorGuard s v) :
      Step cfg s frame { s with epochFloor := v.newEpochFloor }
  | expireAppend (v : AppendExpired B) (spend : SpendEntry B) (terms : AppendTerms B)
      (stored : StoredFrame B) (hp : frame.payload = .appendExpired v)
      (h : AppendExpiredGuard cfg s frame v spend terms stored) :
      Step cfg s frame (s.expireAppend v spend terms stored)
  | gc (v : InboxGc B) (record : InboxRecord B) (hp : frame.payload = .inboxGc v)
      (h : InboxGcGuard cfg s frame v record) : Step cfg s frame (s.setInbox (record.collected v))
  | policy (v : PolicyCommitted B) (record : InboxRecord B)
      (hp : frame.payload = .policyCommitted v) (h : PolicyGuard cfg s frame v record) :
      Step cfg s frame (s.setInbox (record.withPolicy v))
  | integrity (v : IntegrityFailed B) (hp : frame.payload = .integrityFailed v)
      (h : v.detectedEpoch ≤ s.epochFloor ∧ v.evidenceHash ≠ 0) :
      Step cfg s frame (s.noteIntegrity v)

variable {cfg : Config B}

/-- **What an inbox frame does**: an accepted frame takes one of the steps, and every step is that
of a frame that is accepted. -/
theorem applyPayload_eq_ok_iff {s s' : State B} {frame : Frame B} :
    applyPayload cfg s frame = .ok s' ↔ Step cfg s frame s' := by
  constructor
  · intro h
    unfold applyPayload at h
    split at h
    case h_1 v hp =>
      obtain ⟨hguard, rfl⟩ := applyCreate_eq_ok.mp h
      exact .create v hp hguard
    case h_2 v hp =>
      obtain ⟨record, hguard, rfl⟩ := applyRenew_eq_ok.mp h
      exact .renew v record hp hguard
    case h_3 v hp =>
      obtain ⟨record, hguard, rfl⟩ := applyClose_eq_ok.mp h
      exact .close v record hp hguard
    case h_4 v hp =>
      obtain ⟨record, hguard, rfl⟩ := applyAppend_eq_ok.mp h
      exact .append v record hp hguard
    case h_5 v hp =>
      obtain ⟨spend, terms, record, hguard, rfl⟩ := applyAppendAckFinalized_eq_ok.mp h
      exact .finalizeAck v spend terms record hp hguard
    case h_6 v hp =>
      obtain ⟨record, hguard, rfl⟩ := applyReadPin_eq_ok.mp h
      exact .pinRead v record hp hguard
    case h_7 v hp =>
      obtain ⟨spend, pin, hguard, rfl⟩ := applyReadFinal_eq_ok.mp h
      exact .finalizeRead v spend pin hp hguard
    case h_8 v hp =>
      obtain ⟨spend, pin, hguard, rfl⟩ := applyReadExpired_eq_ok.mp h
      exact .expireRead v spend pin hp hguard
    case h_9 v hp =>
      obtain ⟨hguard, rfl⟩ := applyFloor_eq_ok.mp h
      exact .floor v hp hguard
    case h_10 v hp =>
      obtain ⟨spend, terms, stored, hguard, rfl⟩ := applyAppendExpired_eq_ok.mp h
      exact .expireAppend v spend terms stored hp hguard
    case h_11 v hp =>
      obtain ⟨record, hguard, rfl⟩ := applyInboxGc_eq_ok.mp h
      exact .gc v record hp hguard
    case h_12 v hp =>
      obtain ⟨record, hguard, rfl⟩ := applyPolicy_eq_ok.mp h
      exact .policy v record hp hguard
    case h_13 v hp =>
      obtain ⟨hguard, rfl⟩ := applyIntegrity_eq_ok.mp h
      exact .integrity v hp hguard
  · intro h
    cases h with
    | create v hp h =>
      rw [applyPayload, hp]
      exact applyCreate_eq_ok.mpr ⟨h, rfl⟩
    | renew v record hp h =>
      rw [applyPayload, hp]
      exact applyRenew_eq_ok.mpr ⟨record, h, rfl⟩
    | close v record hp h =>
      rw [applyPayload, hp]
      exact applyClose_eq_ok.mpr ⟨record, h, rfl⟩
    | append v record hp h =>
      rw [applyPayload, hp]
      exact applyAppend_eq_ok.mpr ⟨record, h, rfl⟩
    | finalizeAck v spend terms record hp h =>
      rw [applyPayload, hp]
      exact applyAppendAckFinalized_eq_ok.mpr ⟨spend, terms, record, h, rfl⟩
    | pinRead v record hp h =>
      rw [applyPayload, hp]
      exact applyReadPin_eq_ok.mpr ⟨record, h, rfl⟩
    | finalizeRead v spend pin hp h =>
      rw [applyPayload, hp]
      exact applyReadFinal_eq_ok.mpr ⟨spend, pin, h, rfl⟩
    | expireRead v spend pin hp h =>
      rw [applyPayload, hp]
      exact applyReadExpired_eq_ok.mpr ⟨spend, pin, h, rfl⟩
    | floor v hp h =>
      rw [applyPayload, hp]
      exact applyFloor_eq_ok.mpr ⟨h, rfl⟩
    | expireAppend v spend terms stored hp h =>
      rw [applyPayload, hp]
      exact applyAppendExpired_eq_ok.mpr ⟨spend, terms, stored, h, rfl⟩
    | gc v record hp h =>
      rw [applyPayload, hp]
      exact applyInboxGc_eq_ok.mpr ⟨record, h, rfl⟩
    | policy v record hp h =>
      rw [applyPayload, hp]
      exact applyPolicy_eq_ok.mpr ⟨record, h, rfl⟩
    | integrity v hp h =>
      rw [applyPayload, hp]
      exact applyIntegrity_eq_ok.mpr ⟨h, rfl⟩

/-! ### Sequences of frames -/

/-- One call of `#applyFrame`. -/
structure Application (B : Type) where
  frame : Frame B
  staging : Staging := .empty

/-- The state after an accepted frame. -/
def frameStep (cfg : Config B) (s : State B) (m : Application B) : Option (State B) :=
  (applyFrame cfg s m.frame m.staging).toOption

theorem frameStep_eq_some {s s' : State B} {m : Application B} :
    frameStep cfg s m = some s' ↔ applyFrame cfg s m.frame m.staging = .ok s' := by
  rw [frameStep]
  cases applyFrame cfg s m.frame m.staging <;> simp [Except.toOption]

theorem step_of_frameStep {s s' : State B} {m : Application B} (h : frameStep cfg s m = some s') :
    m.frame.payload.Canonical ∧ Step cfg s m.frame s' := by
  have happly := applyFrame_eq_ok.mp (frameStep_eq_some.mp h)
  exact ⟨happly.1, applyPayload_eq_ok_iff.mp happly.2.1⟩

theorem frames_invariant (invariant : State B → Prop)
    (hstep : ∀ s frame s', invariant s → frame.payload.Canonical → Step cfg s frame s' → invariant s')
    {s s' : State B} {moves : List (Application B)} (hs : invariant s)
    (hrun : run (frameStep cfg) s moves = some s') : invariant s' := by
  refine run_preserves invariant ?_ hs hrun
  intro s m s' hs hm
  obtain ⟨hcanonical, hstep'⟩ := step_of_frameStep hm
  exact hstep s m.frame s' hs hcanonical hstep'

end HiveRelay.Inbox
