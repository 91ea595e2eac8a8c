import HiveRelay.Core.State

/-!
# Applying core WAL frames

`#applyFrame` of `core-storage-engine.js`: the eight transitions of the engine's state, each a
sequence of guards that throw and then one update, and the comparisons of candidates that the
transitions share with the operations.

Byte strings are a linear order, the one of `b4a.compare`.
-/

namespace HiveRelay.Core

open Cell (PreparedAdmission Failure failure integrityError leaseEpochs maxSafeInteger)

/-- A `try` block whose `catch` throws a `BlindWalIntegrityError` that ends in the message. -/
def rethrownAfter {α : Type} (intro : String) (x : Except Failure α) : Except Failure α :=
  x.mapError fun e => integrityError (intro ++ e.message)

@[simp] theorem rethrownAfter_eq_ok {α : Type} {intro : String} {x : Except Failure α} {a : α} :
    rethrownAfter intro x = .ok a ↔ x = .ok a := by
  cases x <;> simp [rethrownAfter, Except.mapError]

/-! ### Sizes -/

/-- `coreLengthClass`; the loop that halves `units` down to one counts its binary logarithm. -/
def coreLengthClass (value : ℕ) : Except Failure ℕ := do
  let units := (value + (mebibyte - 1)) / mebibyte
  require (units ≠ 0) (failure .renewNotDue "Core sponsorship has no billable advancement")
  let output := Nat.log2 units + 1
  require (output ≤ 45) (failure .tooLarge "Core sponsorship exceeds the largest admission class")
  pure output

def resultBand (value : ℕ) : Except Failure ℕ := do
  require (1 ≤ value ∧ value ≤ 4 * mebibyte) (failure .tooLarge "Core proof result exceeds the frozen result cap")
  pure <|
    if value ≤ 4 * 1024 then 1
    else if value ≤ 16 * 1024 then 2
    else if value ≤ 64 * 1024 then 3
    else if value ≤ 256 * 1024 then 4
    else if value ≤ mebibyte then 5
    else 6

def compactLengthBytes (value : ℕ) : ℕ :=
  if value ≤ 0xfc then 1 else if value ≤ 0xffff then 3 else 5

def coreProofResultByteLength (acknowledgementByteLength proofByteLength : ℕ) : ℕ :=
  1 + acknowledgementByteLength + compactLengthBytes proofByteLength + proofByteLength

variable {B : Type} [LinearOrder B] [Zero B]

/-! ### Candidates -/

/-- An attempt that may still be activated. -/
def AttemptState.Pending (state : AttemptState) : Prop := state = .accepted ∨ state = .retryPending
  deriving Decidable

def compareCandidates (left right : MirrorAttempt B) : Ordering :=
  (compare left.request.fork right.request.fork).then <|
    (compare left.request.length right.request.length).then <|
      (compare left.request.signedHeadHash right.request.signedHeadHash).then <|
        compare left.targetLeaseEpoch right.targetLeaseEpoch

/-- The body of the loop of `#highestPendingCandidate`. -/
def higherCandidate (corePublicKey : B) (highest : Option (MirrorAttempt B))
    (attempt : MirrorAttempt B) : Option (MirrorAttempt B) :=
  if ¬ attempt.state.Pending ∨ attempt.request.corePublicKey ≠ corePublicKey then highest
  else
    match highest with
    | none => some attempt
    | some best => if compareCandidates attempt best = .gt then some attempt else some best

def highestPendingCandidate (s : State B) (corePublicKey : B) : Option (MirrorAttempt B) :=
  s.mirrorAttempts.values.foldl (higherCandidate corePublicKey) none

def HasHigherPendingCandidate (s : State B) (candidate : MirrorAttempt B) : Prop :=
  ∃ attempt ∈ s.mirrorAttempts.values, attempt ≠ candidate ∧ attempt.state.Pending ∧
    attempt.request.corePublicKey = candidate.request.corePublicKey ∧
    compareCandidates attempt candidate = .gt
  deriving Decidable

/-- What a candidate is measured against. -/
structure CandidateFloor (B : Type) where
  (fork length : ℕ)
  signedHeadHash : B
  (leaseEpoch stateRevision : ℕ)

def CoreGeneration.floor (g : CoreGeneration B) : CandidateFloor B where
  __ := g

def MirrorAttempt.floor (a : MirrorAttempt B) : CandidateFloor B where
  fork := a.request.fork
  length := a.request.length
  signedHeadHash := a.request.signedHeadHash
  leaseEpoch := a.targetLeaseEpoch
  stateRevision := a.candidateRevision

/-- The floor of an acceptance: the highest pending candidate, else the floor of the core. -/
def candidateFloor (s : State B) (corePublicKey : B) : Option (CandidateFloor B) :=
  match highestPendingCandidate s corePublicKey with
  | some pending => some pending.floor
  | none => (s.coreFloors.get? corePublicKey).map CoreGeneration.floor

def validateCandidateOrder (cfg : Config B) (current : Option (CandidateFloor B))
    (request : MirrorRequest B) : Except Failure Unit := do
  require (request.length ≤ cfg.maximumSponsoredCoreLength) (failure .tooLarge "Core length exceeds signed capacity")
  match current with
  | none => pure ()
  | some current =>
    require (current.fork ≤ request.fork) (failure .staleRevision "Core candidate fork is stale")
    if request.fork > current.fork then pure ()
    else
      require (current.length ≤ request.length) (failure .staleRevision "Core candidate length is stale")
      require (request.length = current.length → request.signedHeadHash = current.signedHeadHash)
        (failure .conflict "Core candidate conflicts at the same fork and length")

/-! ### Corpora -/

def CorpusPinned (s : State B) (corpus : Corpus B) : Prop :=
  ∃ pin ∈ s.proofPins.values, pin.sourceCorpus = corpus

def CorpusActive (s : State B) (corpus : Corpus B) : Prop :=
  ∃ active ∈ s.activeCores.values, active.corpus = corpus

instance (s : State B) (corpus : Corpus B) : Decidable (CorpusPinned s corpus) :=
  inferInstanceAs (Decidable (∃ pin ∈ s.proofPins.values, _))

instance (s : State B) (corpus : Corpus B) : Decidable (CorpusActive s corpus) :=
  inferInstanceAs (Decidable (∃ active ∈ s.activeCores.values, _))

/-! ### Signed results -/

/-- The fields of a request that its acknowledgement repeats. -/
structure AckSubject (B : Type) where
  corePublicKey : B
  (fork length : ℕ)
  (signedHeadHash clientNonce : B)

/-- What the acknowledgement of a mirror request repeats. -/
def MirrorRequest.subject (r : MirrorRequest B) : AckSubject B where
  __ := r

/-- What the acknowledgement of a challenge repeats. -/
def ServeChallenge.subject (r : ServeChallenge B) : AckSubject B where
  __ := r

def validateAck (cfg : Config B) (ack : CoreAck B) (request : AckSubject B) (commitment : B)
    (leaseEpoch observedAtEpoch : ℕ) (result : AckResult) : Except Failure Unit :=
  require (ack.relayBinding.relayPublicKey = cfg.relayPublicKey ∧
      ack.corePublicKey = request.corePublicKey ∧ ack.fork = request.fork ∧
      ack.length = request.length ∧ ack.signedHeadHash = request.signedHeadHash ∧
      ack.observedAtEpoch = observedAtEpoch ∧ ack.leaseEpoch = leaseEpoch ∧ ack.result = result ∧
      ack.requestNonce = request.clientNonce ∧ ack.requestCommitment = commitment ∧
      cfg.ackVerifies ack = true)
    (failure .internal "Core acknowledgement builder changed a frozen field")

def validateOpenResult (cfg : Config B) (result : OpenResult B) (record : OpenSnapshot B) :
    Except Failure Unit :=
  require (result.relayBinding.relayPublicKey = cfg.relayPublicKey ∧ result.wireProfileHash = record.wireProfileHash ∧
      result.sessionClass = record.sessionClass ∧
      result.controlChannelId = record.controlChannelId ∧
      result.parentChannelBinding = record.parentChannelBinding ∧
      result.streamId = record.streamId ∧ result.maxSessionBytes = record.maxSessionBytes ∧
      result.idleMillis = record.idleMillis ∧ result.lifetimeMillis = record.lifetimeMillis ∧
      result.openedAtEpoch = record.openedAtEpoch ∧ result.requestNonce = record.clientNonce ∧
      result.requestCommitment = record.requestCommitment ∧
      cfg.openResultVerifies result = true)
    (failure .internal "Core OPEN retained result is invalid")

/-! ### Updates -/

section Updates

variable (s : State B) (frame : Frame B)

/-- The record that `#applyMirrorAccepted` creates. -/
def MirrorAccepted.attempt (v : MirrorAccepted B) (commitment : B) : MirrorAttempt B where
  __ := v
  state := .accepted
  spendTag := v.preparedAdmission.spendTag
  requestCommitment := commitment
  virtualBucket := frame.virtualBucket
  retryCount := 0
  terminalReason := none
  retryReason := none

/-- The update of `#applyMirrorAccepted`. -/
def State.accept (v : MirrorAccepted B) (commitment : B) : State B where
  __ := s
  mirrorAttempts := s.mirrorAttempts.set v.preparedAdmission.spendTag (v.attempt frame commitment)
  spends := s.spends.set v.preparedAdmission.spendTag ⟨.mirror, commitment⟩
  accounting := { s.accounting with
    mirrorAttempts := s.accounting.mirrorAttempts + 1
    controlBytes := s.accounting.controlBytes + controlRecordBytes }

/-- The record that `#applyMirrorActivated` creates. -/
def MirrorActivated.generation (v : MirrorActivated B) : CoreGeneration B where
  __ := v
  createdWalSequence := frame.sequence

/-- The bytes that an activation stops and starts to account for. -/
def State.activationBytes (v : MirrorActivated B) (previous : Option (CoreGeneration B)) : ℤ :=
  let previousSame := ∃ g ∈ previous, g.corpus = v.corpus
  (if ¬ previousSame ∧ ¬ CorpusPinned s v.corpus then (v.corpus.byteLength : ℤ) else 0) -
    match previous with
    | some g => if ¬ previousSame ∧ ¬ CorpusPinned s g.corpus then (g.corpus.byteLength : ℤ) else 0
    | none => 0

/-- The update of `#applyMirrorActivated`. -/
def State.activate (v : MirrorActivated B) (attempt : MirrorAttempt B)
    (previous : Option (CoreGeneration B)) : State B where
  __ := s
  activeCores := s.activeCores.set v.corePublicKey (v.generation frame)
  coreFloors := s.coreFloors.set v.corePublicKey (v.generation frame)
  mirrorAttempts := s.mirrorAttempts.set v.spendTag { attempt with state := .active }
  accounting := { s.accounting with
    activeCores := s.accounting.activeCores + if previous.isSome then 0 else 1
    corpusBytes := s.accounting.corpusBytes + s.activationBytes v previous }

/-- The update of `#applyMirrorTerminal`. -/
def State.terminate (v : MirrorTerminal B) (attempt : MirrorAttempt B) : State B where
  __ := s
  mirrorAttempts := s.mirrorAttempts.set v.spendTag
    { attempt with state := .terminal, terminalReason := some v.terminalReason }

/-- The update of `#applyMirrorRetryPending`. -/
def State.retry (v : MirrorRetryPending B) (attempt : MirrorAttempt B) : State B where
  __ := s
  mirrorAttempts := s.mirrorAttempts.set v.spendTag
    { attempt with
      state := .retryPending, retryCount := v.retryCount, retryReason := some v.retryReason }

/-- The pin that `#applyProofPinned` creates. -/
def ProvePinned.pin (v : ProvePinned B) (commitment : B) : ProofPin B where
  __ := v
  spendTag := v.preparedAdmission.spendTag
  requestCommitment := commitment
  virtualBucket := frame.virtualBucket

/-- The update of `#applyProofPinned`. -/
def State.pinProof (v : ProvePinned B) (commitment : B) : State B where
  __ := s
  proofPins := s.proofPins.set v.preparedAdmission.spendTag (v.pin frame commitment)
  spends := s.spends.set v.preparedAdmission.spendTag ⟨.prove, commitment⟩
  accounting := { s.accounting with
    proofPins := s.accounting.proofPins + 1
    proofPinBytes := s.accounting.proofPinBytes + proofPinRecordBytes }

/-- The update of `#applyProofExpired`: whether the corpus is still in use is asked after the pin is
deleted. -/
def State.expireProof (spendTag : B) (pin : ProofPin B) : State B :=
  let s := { s with proofPins := s.proofPins.delete spendTag }
  { s with
    accounting := { s.accounting with
      proofPins := s.accounting.proofPins - 1
      proofPinBytes := s.accounting.proofPinBytes - proofPinRecordBytes
      proofSpendTombstones := s.accounting.proofSpendTombstones + 1
      tombstoneBytes := s.accounting.tombstoneBytes + spendTombstoneBytes
      corpusBytes := s.accounting.corpusBytes -
        if ¬ CorpusActive s pin.sourceCorpus ∧ ¬ CorpusPinned s pin.sourceCorpus then
          (pin.sourceCorpus.byteLength : ℤ)
        else 0 } }

/-- The update of `#applyCoreExpired`. -/
def State.expireCore (corePublicKey : B) (current : CoreGeneration B) : State B where
  __ := s
  activeCores := s.activeCores.delete corePublicKey
  accounting := { s.accounting with
    activeCores := s.accounting.activeCores - 1
    corpusBytes := s.accounting.corpusBytes -
      if ¬ CorpusPinned s current.corpus then (current.corpus.byteLength : ℤ) else 0 }

/-- The update of `#applyOpenState`. -/
def State.setOpen (v : OpenStateChange B) (prior : Option (OpenRecord B)) : State B where
  __ := s
  openRecords := s.openRecords.set v.snapshot.logicalRetryKey ⟨v.snapshot, v.preparedAdmission⟩
  openSpendIndex := s.openSpendIndex.set v.snapshot.spendTag v.snapshot.logicalRetryKey
  spends := s.spends.set v.snapshot.spendTag ⟨.openReplication, v.snapshot.requestCommitment⟩
  accounting := { s.accounting with
    openRecords := s.accounting.openRecords + if prior.isSome then 0 else 1
    controlBytes := s.accounting.controlBytes + if prior.isSome then 0 else controlRecordBytes }

end Updates

/-! ### Transitions -/

section Transitions

variable (cfg : Config B) (s : State B) (frame : Frame B)

/-- The bytes that the class of an acceptance is computed from. The order of the candidates has been
checked, so the subtraction does not truncate. -/
def billableLength (floor : Option (CandidateFloor B)) (request : MirrorRequest B) (targetLeaseEpoch : ℕ) : ℕ :=
  match floor with
  | none => request.length
  | some floor =>
    if request.fork > floor.fork ∨ targetLeaseEpoch > floor.leaseEpoch then request.length
    else request.length - floor.length

def applyMirrorAccepted (v : MirrorAccepted B) : Except Failure (State B) := do
  let admission := v.preparedAdmission
  let request := v.request
  let commitment := cfg.coreMirrorRequestCommitment request
  require (admission.requestCommitment = commitment ∧ admission.leaseClass = request.leaseClass ∧
      (1 ≤ admission.resourceClass ∧ admission.resourceClass ≤ 45) ∧ admission.costUnits ≠ 0 ∧
      frame.virtualBucket = cfg.virtualBucket request.corePublicKey)
    (integrityError "Core mirror accepted frame binding is invalid")
  rethrownAfter "Core mirror acknowledgement is invalid: "
    (validateAck cfg v.result request.subject commitment v.targetLeaseEpoch v.acceptedAtEpoch .mirrorAccepted)
  require (∀ existing ∈ s.spends.get? admission.spendTag,
      existing.requestCommitment = commitment ∧ existing.operation = .mirror)
    (integrityError "Core mirror WAL reuses a spend for another request")
  require (s.mirrorAttempts.get? admission.spendTag = none)
    (integrityError "Core mirror WAL repeats an accepted attempt")
  require (s.spends.size < cfg.maximumSpendRecords) (integrityError "Core spend-record recovery exceeds its bound")
  let floor := candidateFloor s request.corePublicKey
  rethrownAfter "Core accepted candidate order is invalid: " (validateCandidateOrder cfg floor request)
  let expectedResourceClass ← rethrownAfter "Core accepted candidate has no billable advancement: "
    (coreLengthClass (billableLength floor request v.targetLeaseEpoch))
  require (v.candidateRevision = floor.elim 0 (·.stateRevision + 1) ∧
      v.acceptedAtEpoch + leaseEpochs request.leaseClass ≤ v.targetLeaseEpoch ∧
      (∀ f ∈ floor, f.leaseEpoch ≤ v.targetLeaseEpoch) ∧
      admission.resourceClass = expectedResourceClass)
    (integrityError "Core accepted candidate revision or lease floor is invalid")
  require ((s.coreFloors.get? request.corePublicKey).isSome ∨ s.coreFloors.size < cfg.maximumCores)
    (integrityError "Core identity-floor recovery exceeds its bound")
  pure (s.accept frame v commitment)

/-- An activation is of the attempt that its spend tag names. -/
def MirrorActivated.Matches (v : MirrorActivated B) (attempt : MirrorAttempt B) : Prop :=
  attempt.requestCommitment = cfg.coreMirrorRequestCommitment attempt.request ∧
    attempt.request.corePublicKey = v.corePublicKey ∧ attempt.request.fork = v.fork ∧
    attempt.request.length = v.length ∧ attempt.request.signedHeadHash = v.signedHeadHash ∧
    attempt.targetLeaseEpoch = v.leaseEpoch ∧ frame.virtualBucket = v.corpus.virtualBucket

instance (v : MirrorActivated B) (attempt : MirrorAttempt B) :
    Decidable (v.Matches cfg frame attempt) := inferInstanceAs (Decidable (_ ∧ _))

/-- `#applyMirrorActivated`. The lease of the floor is not among what it compares. -/
def applyMirrorActivated (v : MirrorActivated B) : Except Failure (State B) := do
  let mismatch := integrityError "Core activation does not match its accepted candidate"
  let attempt ← demand (s.mirrorAttempts.get? v.spendTag) mismatch
  require (v.Matches cfg frame attempt) mismatch
  let previous := s.activeCores.get? v.corePublicKey
  let previousFloor := s.coreFloors.get? v.corePublicKey
  require (previous.isSome ∨ s.activeCores.size < cfg.maximumCores)
    (integrityError "Core active sponsorship recovery exceeds its bound")
  require attempt.state.Pending (integrityError "Core activation repeats or follows a terminal attempt")
  require (¬ HasHigherPendingCandidate s attempt)
    (integrityError "Core activation bypasses a higher ordered candidate")
  rethrownAfter "Core activation candidate is stale: "
    (validateCandidateOrder cfg (previousFloor.map CoreGeneration.floor) attempt.request)
  require (v.stateRevision = previousFloor.elim 0 (·.stateRevision + 1) ∧ 1 ≤ v.corpus.byteLength ∧
      v.corpus.objectId ≠ 0 ∧ v.corpus.hash ≠ 0)
    (integrityError "Core activation revision or corpus reference is invalid")
  pure (s.activate frame v attempt previous)

def applyMirrorTerminal (v : MirrorTerminal B) : Except Failure (State B) := do
  let unmatched := integrityError "Core terminal mirror frame has no accepted attempt"
  let attempt ← demand (s.mirrorAttempts.get? v.spendTag) unmatched
  require (attempt.requestCommitment = v.requestCommitment ∧ attempt.virtualBucket = frame.virtualBucket) unmatched
  require (attempt.state ≠ .active ∧ attempt.state ≠ .terminal)
    (integrityError "Core terminal frame follows an active or terminal attempt")
  pure (s.terminate v attempt)

def applyMirrorRetryPending (v : MirrorRetryPending B) : Except Failure (State B) := do
  let unmatched := integrityError "Core retry-pending frame has no valid predecessor"
  let attempt ← demand (s.mirrorAttempts.get? v.spendTag) unmatched
  require (attempt.requestCommitment = v.requestCommitment ∧
      attempt.virtualBucket = frame.virtualBucket ∧ attempt.state.Pending ∧
      v.retryCount = attempt.retryCount + 1) unmatched
  pure (s.retry v attempt)

/-- The generation that a proof pin was made from is the active one. -/
def ProvePinned.SourceCurrent (v : ProvePinned B) (source : CoreGeneration B) : Prop :=
  source.fork = v.request.fork ∧ source.length = v.request.length ∧ source.signedHeadHash = v.request.signedHeadHash ∧
    source.stateRevision = v.sourceStateRevision ∧ source.leaseEpoch = v.sourceLeaseEpoch ∧
    source.corpus = v.sourceCorpus ∧ (1 ≤ v.proofByteLength ∧ v.proofByteLength ≤ maxProofBytes) ∧
    v.proofHash ≠ 0

instance (v : ProvePinned B) (source : CoreGeneration B) : Decidable (v.SourceCurrent source) :=
  inferInstanceAs (Decidable (_ ∧ _))

def applyProofPinned (v : ProvePinned B) : Except Failure (State B) := do
  let admission := v.preparedAdmission
  let commitment := cfg.coreServeRequestCommitment v.request
  require (admission.requestCommitment = commitment ∧ admission.leaseClass = 0 ∧
      (1 ≤ admission.resourceClass ∧ admission.resourceClass ≤ 6) ∧ admission.costUnits ≠ 0 ∧
      frame.virtualBucket = cfg.virtualBucket v.request.corePublicKey ∧
      v.pinnedAtUnixMillis < v.expiresAtUnixMillis ∧
      v.expiresAtUnixMillis - v.pinnedAtUnixMillis ≤ maxProofPinMillis ∧
      v.sourceCorpus.virtualBucket = frame.virtualBucket)
    (integrityError "Core proof pin binding is invalid")
  rethrownAfter "Core proof acknowledgement is invalid: "
    (validateAck cfg v.acknowledgement v.request.subject commitment v.acknowledgement.leaseEpoch
      v.acknowledgement.observedAtEpoch .recentlyServed)
  let band ← resultBand (coreProofResultByteLength (cfg.ackByteLength v.acknowledgement) v.proofByteLength)
  require (admission.resourceClass = band)
    (integrityError "Core proof pin admission band does not match its canonical result size")
  let prior := s.spends.get? admission.spendTag
  require (∀ p ∈ prior, p.operation = .prove ∧ p.requestCommitment = commitment)
    (integrityError "Core proof pin reuses a spend")
  require (prior = none ∧ s.proofPins.get? admission.spendTag = none) (integrityError "Core proof pin is repeated")
  require (s.spends.size < cfg.maximumSpendRecords ∧ s.proofPins.size < cfg.maximumProofPins)
    (integrityError "Core proof recovery exceeds its configured bound")
  let outdated := integrityError "Core proof pin source generation is invalid"
  let source ← demand (s.activeCores.get? v.request.corePublicKey) outdated
  require (v.SourceCurrent source) outdated
  pure (s.pinProof frame v commitment)

def applyProofExpired (v : ProvePinExpired B) : Except Failure (State B) := do
  let unmatched := integrityError "Core proof expiry has no matching pin/spend"
  let spend ← demand (s.spends.get? v.spendTag) unmatched
  let pin ← demand (s.proofPins.get? v.spendTag) unmatched
  require (spend.operation = .prove ∧ spend.requestCommitment = v.requestCommitment ∧
      pin.virtualBucket = frame.virtualBucket) unmatched
  pure (s.expireProof v.spendTag pin)

/-- A pending attempt keeps the generation from expiring: it renews the same head. -/
def MirrorAttempt.Renews (pending : MirrorAttempt B) (current : CoreGeneration B) (expiredAtEpoch : ℕ) : Prop :=
  expiredAtEpoch < pending.targetLeaseEpoch ∧ pending.request.fork = current.fork ∧
    pending.request.length = current.length ∧
    pending.request.signedHeadHash = current.signedHeadHash

instance (pending : MirrorAttempt B) (current : CoreGeneration B) (expiredAtEpoch : ℕ) :
    Decidable (pending.Renews current expiredAtEpoch) := inferInstanceAs (Decidable (_ ∧ _))

def applyCoreExpired (v : CoreExpired B) : Except Failure (State B) := do
  let unmatched := integrityError "Core expiry frame does not match the active sponsorship"
  let current ← demand (s.activeCores.get? v.corePublicKey) unmatched
  require (current.stateRevision = v.stateRevision ∧
      s.coreFloors.get? v.corePublicKey = some current ∧ current.leaseEpoch = v.leaseEpoch ∧
      v.leaseEpoch ≤ v.expiredAtEpoch ∧ frame.virtualBucket = v.corpus.virtualBucket ∧
      current.corpus = v.corpus ∧
      ∀ pending ∈ highestPendingCandidate s v.corePublicKey, ¬ pending.Renews current v.expiredAtEpoch) unmatched
  pure (s.expireCore v.corePublicKey current)

/-- The transitions of the lifecycle of a `CORE.OPEN` record. -/
def LifecycleState.Allows : LifecycleState → LifecycleState → Prop
  | .reserved, next => next = .live ∨ next = .terminal
  | .live, next => next = .terminal
  | .terminal, _ => False

instance : (prior next : LifecycleState) → Decidable (prior.Allows next)
  | .reserved, _ => inferInstanceAs (Decidable (_ ∨ _))
  | .live, _ => inferInstanceAs (Decidable (_ = _))
  | .terminal, _ => inferInstanceAs (Decidable False)

def applyOpenState (v : OpenStateChange B) : Except Failure (State B) := do
  let admission := v.preparedAdmission
  let snapshot := v.snapshot
  require (admission.spendTag = snapshot.spendTag ∧ admission.leaseClass = 0 ∧
      admission.resourceClass = snapshot.sessionClass ∧ admission.costUnits ≠ 0 ∧
      admission.requestCommitment = snapshot.requestCommitment ∧
      snapshot.recordVirtualBucket = frame.virtualBucket ∧
      frame.virtualBucket = cfg.virtualBucket snapshot.logicalRetryKey)
    (integrityError "Core OPEN state binding is invalid")
  let priorLogical := s.openRecords.get? snapshot.logicalRetryKey
  require ((∀ p ∈ priorLogical, p.snapshot.requestCommitment = snapshot.requestCommitment) ∧
      ∀ key ∈ s.openSpendIndex.get? snapshot.spendTag, key = snapshot.logicalRetryKey)
    (integrityError "Core OPEN state forks its logical or spend index")
  require (priorLogical.isSome ∨ s.spends.size < cfg.maximumSpendRecords)
    (integrityError "Core OPEN spend recovery exceeds its bound")
  require (∀ p ∈ priorLogical, p.snapshot.lifecycleState.Allows snapshot.lifecycleState)
    (integrityError "Core OPEN lifecycle transition is repeated or regresses")
  snapshot.result.elim (pure ()) fun result =>
    rethrownAfter "Core OPEN retained result is invalid: " (validateOpenResult cfg result snapshot)
  pure (s.setOpen v priorLogical)

/-- The dispatch of `#applyFrame`. -/
def applyPayload : Except Failure (State B) :=
  match frame.payload with
  | .mirrorAccepted v => applyMirrorAccepted cfg s frame v
  | .mirrorActivated v => applyMirrorActivated cfg s frame v
  | .mirrorTerminal v => applyMirrorTerminal s frame v
  | .provePinned v => applyProofPinned cfg s frame v
  | .provePinExpired v => applyProofExpired s frame v
  | .openState v => applyOpenState cfg s frame v
  | .mirrorRetryPending v => applyMirrorRetryPending s frame v
  | .coreExpired v => applyCoreExpired s frame v

/-- The assignment of `accounting.walSequence`. -/
def State.atSequence (s : State B) (sequence : ℕ) : State B where
  __ := s
  accounting := { s.accounting with walSequence := sequence }

def applyFrame (recovering : Bool) : Except Failure (State B) := do
  require frame.payload.Canonical (integrityError "invalid Core WAL payload: non-canonical")
  let s' ← applyPayload cfg s frame
  require (recovering = true → s'.accounting.controlBytes ≤ maxSafeInteger)
    (integrityError "Core control accounting exceeds the runtime bound")
  pure (s'.atSequence frame.sequence)

end Transitions

/-! ### When a transition is made -/

section Inversion

variable {cfg : Config B} {s s' : State B} {frame : Frame B}

theorem applyFrame_eq_ok {recovering : Bool} : applyFrame cfg s frame recovering = .ok s' ↔
      frame.payload.Canonical ∧ ∃ s₁, applyPayload cfg s frame = .ok s₁ ∧
        (recovering = true → s₁.accounting.controlBytes ≤ maxSafeInteger) ∧
        s₁.atSequence frame.sequence = s' := by
  simp only [applyFrame, guards_eq_ok]

/-- What `#applyMirrorAccepted` asks of a frame. -/
structure AcceptGuards (cfg : Config B) (s : State B) (frame : Frame B) (v : MirrorAccepted B) :
    Prop where
  binding : v.preparedAdmission.requestCommitment = cfg.coreMirrorRequestCommitment v.request ∧
    v.preparedAdmission.leaseClass = v.request.leaseClass ∧
    (1 ≤ v.preparedAdmission.resourceClass ∧ v.preparedAdmission.resourceClass ≤ 45) ∧
    v.preparedAdmission.costUnits ≠ 0 ∧
    frame.virtualBucket = cfg.virtualBucket v.request.corePublicKey
  ack : validateAck cfg v.result v.request.subject (cfg.coreMirrorRequestCommitment v.request)
    v.targetLeaseEpoch v.acceptedAtEpoch .mirrorAccepted = .ok ()
  spend : ∀ existing ∈ s.spends.get? v.preparedAdmission.spendTag,
    existing.requestCommitment = cfg.coreMirrorRequestCommitment v.request ∧ existing.operation = .mirror
  fresh : s.mirrorAttempts.get? v.preparedAdmission.spendTag = none
  spends : s.spends.size < cfg.maximumSpendRecords
  order : validateCandidateOrder cfg (candidateFloor s v.request.corePublicKey) v.request = .ok ()
  billable : coreLengthClass (billableLength (candidateFloor s v.request.corePublicKey) v.request
    v.targetLeaseEpoch) = .ok v.preparedAdmission.resourceClass
  revision : v.candidateRevision = (candidateFloor s v.request.corePublicKey).elim 0 (·.stateRevision + 1)
  minimumLease : v.acceptedAtEpoch + leaseEpochs v.request.leaseClass ≤ v.targetLeaseEpoch
  lease : ∀ f ∈ candidateFloor s v.request.corePublicKey, f.leaseEpoch ≤ v.targetLeaseEpoch
  cores : (s.coreFloors.get? v.request.corePublicKey).isSome ∨ s.coreFloors.size < cfg.maximumCores

omit [Zero B] in
theorem applyMirrorAccepted_eq_ok {v : MirrorAccepted B} : applyMirrorAccepted cfg s frame v = .ok s' ↔
      AcceptGuards cfg s frame v ∧ s.accept frame v (cfg.coreMirrorRequestCommitment v.request) = s' := by
  simp only [applyMirrorAccepted, guards_eq_ok, rethrownAfter_eq_ok]
  constructor
  · rintro ⟨hbinding, ⟨⟩, hack, hspend, hfresh, hspends, ⟨⟩, horder, cls, hbillable,
      ⟨hrevision, hminimum, hlease, rfl⟩, hcores, rfl⟩
    exact ⟨⟨hbinding, hack, hspend, hfresh, hspends, horder, hbillable, hrevision, hminimum, hlease, hcores⟩, rfl⟩
  · rintro ⟨h, rfl⟩
    exact ⟨h.binding, (), h.ack, h.spend, h.fresh, h.spends, (), h.order, _, h.billable,
      ⟨h.revision, h.minimumLease, h.lease, rfl⟩, h.cores, rfl⟩

theorem applyMirrorActivated_eq_ok {v : MirrorActivated B} : applyMirrorActivated cfg s frame v = .ok s' ↔
      ∃ attempt, s.mirrorAttempts.get? v.spendTag = some attempt ∧ v.Matches cfg frame attempt ∧
        ((s.activeCores.get? v.corePublicKey).isSome ∨ s.activeCores.size < cfg.maximumCores) ∧
        attempt.state.Pending ∧ ¬ HasHigherPendingCandidate s attempt ∧
        validateCandidateOrder cfg
          ((s.coreFloors.get? v.corePublicKey).map CoreGeneration.floor) attempt.request = .ok () ∧
        (v.stateRevision = (s.coreFloors.get? v.corePublicKey).elim 0 (·.stateRevision + 1) ∧
          1 ≤ v.corpus.byteLength ∧ v.corpus.objectId ≠ 0 ∧ v.corpus.hash ≠ 0) ∧
        s.activate frame v attempt (s.activeCores.get? v.corePublicKey) = s' := by
  simp only [applyMirrorActivated, guards_eq_ok, rethrownAfter_eq_ok]
  constructor
  · rintro ⟨attempt, hget, hmatch, hsize, hpending, hhigher, ⟨⟩, horder, hrevision, rfl⟩
    exact ⟨attempt, hget, hmatch, hsize, hpending, hhigher, horder, hrevision, rfl⟩
  · rintro ⟨attempt, hget, hmatch, hsize, hpending, hhigher, horder, hrevision, rfl⟩
    exact ⟨attempt, hget, hmatch, hsize, hpending, hhigher, (), horder, hrevision, rfl⟩

omit [Zero B] in
theorem applyMirrorTerminal_eq_ok {v : MirrorTerminal B} : applyMirrorTerminal s frame v = .ok s' ↔
      ∃ attempt, s.mirrorAttempts.get? v.spendTag = some attempt ∧ (attempt.requestCommitment = v.requestCommitment ∧
          attempt.virtualBucket = frame.virtualBucket) ∧
        (attempt.state ≠ .active ∧ attempt.state ≠ .terminal) ∧ s.terminate v attempt = s' := by
  simp only [applyMirrorTerminal, guards_eq_ok]

omit [Zero B] in
theorem applyMirrorRetryPending_eq_ok {v : MirrorRetryPending B} : applyMirrorRetryPending s frame v = .ok s' ↔
      ∃ attempt, s.mirrorAttempts.get? v.spendTag = some attempt ∧ (attempt.requestCommitment = v.requestCommitment ∧
          attempt.virtualBucket = frame.virtualBucket ∧ attempt.state.Pending ∧
          v.retryCount = attempt.retryCount + 1) ∧ s.retry v attempt = s' := by
  simp only [applyMirrorRetryPending, guards_eq_ok]

/-- What `#applyProofPinned` asks of a frame. -/
structure PinGuards (cfg : Config B) (s : State B) (frame : Frame B) (v : ProvePinned B) :
    Prop where
  binding : v.preparedAdmission.requestCommitment = cfg.coreServeRequestCommitment v.request ∧
    v.preparedAdmission.leaseClass = 0 ∧
    (1 ≤ v.preparedAdmission.resourceClass ∧ v.preparedAdmission.resourceClass ≤ 6) ∧
    v.preparedAdmission.costUnits ≠ 0 ∧
    frame.virtualBucket = cfg.virtualBucket v.request.corePublicKey ∧
    v.pinnedAtUnixMillis < v.expiresAtUnixMillis ∧
    v.expiresAtUnixMillis - v.pinnedAtUnixMillis ≤ maxProofPinMillis ∧
    v.sourceCorpus.virtualBucket = frame.virtualBucket
  ack : validateAck cfg v.acknowledgement v.request.subject
    (cfg.coreServeRequestCommitment v.request) v.acknowledgement.leaseEpoch
    v.acknowledgement.observedAtEpoch .recentlyServed = .ok ()
  band : resultBand (coreProofResultByteLength (cfg.ackByteLength v.acknowledgement) v.proofByteLength) =
    .ok v.preparedAdmission.resourceClass
  fresh : s.spends.get? v.preparedAdmission.spendTag = none ∧ s.proofPins.get? v.preparedAdmission.spendTag = none
  capacity : s.spends.size < cfg.maximumSpendRecords ∧ s.proofPins.size < cfg.maximumProofPins
  source : ∃ source, s.activeCores.get? v.request.corePublicKey = some source ∧ v.SourceCurrent source

theorem applyProofPinned_eq_ok {v : ProvePinned B} : applyProofPinned cfg s frame v = .ok s' ↔
      PinGuards cfg s frame v ∧ s.pinProof frame v (cfg.coreServeRequestCommitment v.request) = s' := by
  simp only [applyProofPinned, guards_eq_ok, rethrownAfter_eq_ok]
  constructor
  · rintro ⟨hbinding, ⟨⟩, hack, band, hband, rfl, -, hfresh, hcapacity, source, hsource, hcurrent, rfl⟩
    exact ⟨⟨hbinding, hack, hband, hfresh, hcapacity, source, hsource, hcurrent⟩, rfl⟩
  · rintro ⟨h, rfl⟩
    obtain ⟨source, hsource, hcurrent⟩ := h.source
    refine ⟨h.binding, (), h.ack, _, h.band, rfl, ?_, h.fresh, h.capacity, source, hsource, hcurrent, rfl⟩
    simp [h.fresh.1]

omit [Zero B] in
theorem applyProofExpired_eq_ok {v : ProvePinExpired B} : applyProofExpired s frame v = .ok s' ↔
      ∃ spend, s.spends.get? v.spendTag = some spend ∧ ∃ pin, s.proofPins.get? v.spendTag = some pin ∧
          (spend.operation = .prove ∧ spend.requestCommitment = v.requestCommitment ∧
            pin.virtualBucket = frame.virtualBucket) ∧ s.expireProof v.spendTag pin = s' := by
  simp only [applyProofExpired, guards_eq_ok]

omit [Zero B] in
theorem applyCoreExpired_eq_ok {v : CoreExpired B} : applyCoreExpired s frame v = .ok s' ↔
      ∃ current, s.activeCores.get? v.corePublicKey = some current ∧ (current.stateRevision = v.stateRevision ∧
          s.coreFloors.get? v.corePublicKey = some current ∧ current.leaseEpoch = v.leaseEpoch ∧
          v.leaseEpoch ≤ v.expiredAtEpoch ∧ frame.virtualBucket = v.corpus.virtualBucket ∧
          current.corpus = v.corpus ∧
          ∀ pending ∈ highestPendingCandidate s v.corePublicKey, ¬ pending.Renews current v.expiredAtEpoch) ∧
        s.expireCore v.corePublicKey current = s' := by
  simp only [applyCoreExpired, guards_eq_ok]

/-- What `#applyOpenState` asks of a frame, apart from the lifecycle of the record. -/
structure OpenGuards (cfg : Config B) (s : State B) (frame : Frame B) (v : OpenStateChange B) :
    Prop where
  binding : v.preparedAdmission.spendTag = v.snapshot.spendTag ∧ v.preparedAdmission.leaseClass = 0 ∧
    v.preparedAdmission.resourceClass = v.snapshot.sessionClass ∧
    v.preparedAdmission.costUnits ≠ 0 ∧
    v.preparedAdmission.requestCommitment = v.snapshot.requestCommitment ∧
    v.snapshot.recordVirtualBucket = frame.virtualBucket ∧
    frame.virtualBucket = cfg.virtualBucket v.snapshot.logicalRetryKey
  logical : ∀ p ∈ s.openRecords.get? v.snapshot.logicalRetryKey,
    p.snapshot.requestCommitment = v.snapshot.requestCommitment
  spend : ∀ key ∈ s.openSpendIndex.get? v.snapshot.spendTag, key = v.snapshot.logicalRetryKey
  spends : (s.openRecords.get? v.snapshot.logicalRetryKey).isSome ∨ s.spends.size < cfg.maximumSpendRecords
  result : ∀ r ∈ v.snapshot.result, validateOpenResult cfg r v.snapshot = .ok ()

omit [Zero B] in
theorem applyOpenState_eq_ok {v : OpenStateChange B} : applyOpenState cfg s frame v = .ok s' ↔
      OpenGuards cfg s frame v ∧ (∀ p ∈ s.openRecords.get? v.snapshot.logicalRetryKey,
          p.snapshot.lifecycleState.Allows v.snapshot.lifecycleState) ∧
        s.setOpen v (s.openRecords.get? v.snapshot.logicalRetryKey) = s' := by
  have hresult : ∀ u : Unit, (v.snapshot.result.elim (pure ()) fun result =>
      rethrownAfter "Core OPEN retained result is invalid: " (validateOpenResult cfg result v.snapshot)) = .ok u ↔
      ∀ r ∈ v.snapshot.result, validateOpenResult cfg r v.snapshot = .ok () := by
    intro u
    cases v.snapshot.result <;> simp
  simp only [applyOpenState, guards_eq_ok, hresult]
  constructor
  · rintro ⟨hbinding, ⟨hlogical, hspend⟩, hspends, hallows, hresult, rfl⟩
    exact ⟨⟨hbinding, hlogical, hspend, hspends, hresult⟩, hallows, rfl⟩
  · rintro ⟨h, hallows, rfl⟩
    exact ⟨h.binding, ⟨h.logical, h.spend⟩, h.spends, hallows, h.result, rfl⟩

omit [Zero B] in
theorem validateCandidateOrder_eq_ok {current : Option (CandidateFloor B)} {request : MirrorRequest B} {u : Unit} :
    validateCandidateOrder cfg current request = .ok u ↔ request.length ≤ cfg.maximumSponsoredCoreLength ∧
        ∀ f ∈ current, f.fork ≤ request.fork ∧ (f.fork = request.fork → f.length ≤ request.length ∧
          (f.length = request.length → f.signedHeadHash = request.signedHeadHash)) := by
  cases current with
  | none =>
    simp [validateCandidateOrder]
  | some f =>
    simp only [validateCandidateOrder, guards_eq_ok, Option.mem_some_iff, forall_eq']
    refine and_congr_right fun _ => and_congr_right fun hfork => ?_
    by_cases hgt : request.fork > f.fork
    · rw [if_pos hgt]
      exact ⟨fun _ heq => absurd heq (Nat.ne_of_lt hgt), fun _ => rfl⟩
    · rw [if_neg hgt]
      have heq : f.fork = request.fork := le_antisymm hfork (not_lt.mp hgt)
      simp only [guards_eq_ok, heq, forall_const]
      exact and_congr_right fun _ => ⟨fun h hl => (h hl.symm).symm, fun h hl => (h hl.symm).symm⟩

end Inversion

end HiveRelay.Core
