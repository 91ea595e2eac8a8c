import Mathlib.Data.List.Sort
import HiveRelay.Lib.Bytes
import HiveRelay.Lib.Guard
import HiveRelay.Lib.OrderedMap

/-!
# The state of the service descriptor

`DescriptorState` keeps the signed descriptors of a relay: a chain in which each one links the hash
of the one before. `activate` takes one descriptor at a time, `restore` a whole chain into an empty
state; the two check the same transitions, but only `activate` checks that a descriptor is valid now.
Old records are pruned.

The calls run one after the other (`_serialized`), so each of them is a function of the state. What
the hooks answer and what `epochNow` reads, which must be a `u32`, are arguments of the calls. The
codec and the hash of descriptors are parameters, as is the check of the durability hashes.
-/

namespace HiveRelay.Service

/-! ### Descriptors -/

/-- `DESCRIPTOR_CLOSED_REASON`. -/
inductive ClosedReason where
  | noDescriptor | notYetValid | expired | rollback | fork | chainGap | invalidTransition | retired
  | restoreUnverified
  deriving DecidableEq

/-- What is thrown: a `DescriptorStateError` with its code, or something else. -/
inductive Failure where
  | closed (reason : ClosedReason) (message : String)
  | other (message : String)
  deriving DecidableEq

/-- `STORE_LIFECYCLE_STATE`. -/
inductive Lifecycle where
  | active | draining | retired
  deriving DecidableEq

/-- What a `relayIdentityTransitionV1` says. -/
structure IdentityTransition where
  (oldRelayKey newRelayKey : Bytes)
  (oldIdentitySequence newIdentitySequence validFromEpoch : ℕ)
  deriving DecidableEq

/-- The fields of a `blindServiceDescriptorV1` that are read here. -/
structure Descriptor where
  (relayPublicKey storeId : Bytes)
  descriptorSequence : ℕ
  previousDescriptorHash : Option Bytes
  identitySequence : ℕ
  previousRelayKey : Option Bytes
  identityTransition : Option IdentityTransition
  (specHash abiHash : Bytes)
  enabledOperationBits : UInt32
  (durabilityProfileId storeFormatMajor storeFormatMinor : ℕ)
  (storeFormatHash durabilityContinuityHash durabilityProfileHash : Bytes)
  storeLifecycleState : Lifecycle
  drainStartedEpoch : Option ℕ
  (issuedEpoch expiresEpoch : ℕ)
  deriving DecidableEq

/-- The fields of a `blindStoreManifestV1` that are read here. -/
structure Manifest where
  descriptorSequenceFloor : ℕ
  (descriptorHashFloor relayPublicKey storeId : Bytes)
  durabilityProfileId : ℕ
  (durabilityContinuityHash durabilityProfileHash : Bytes)
  (formatMajor formatMinor : ℕ)
  (storeFormatHash specHash abiHash : Bytes)

/-- The codec and the hashes. `decode` and `decodeManifest` are `decodeExact`. -/
structure Codec where
  decode : Bytes → Option Descriptor
  decodeManifest : Bytes → Option Manifest
  serviceDescriptorHash : Bytes → Bytes
  durabilityHashesMatch : Descriptor → Bool

def advertisedOperationBits : UInt32 := 131071

/-- The options of the state, in their bounds. -/
structure Options where
  (maxHistory retentionEpochs : ℕ)
  (allowEmergencyGaps hasVerifyRestoration : Bool)
  maxHistory_bounds : 1 ≤ maxHistory ∧ maxHistory ≤ 4096
  retentionEpochs_bounds : 1 ≤ retentionEpochs ∧ retentionEpochs ≤ 1460

/-- What the hooks that verify the signatures of a descriptor answer. -/
structure Answers where
  (signature oldIdentity newIdentity : Bool)

/-- What `verifyRestoration` answers. -/
structure Evidence where
  (verified fullStoreVerified : Bool)
  descriptorSequenceFloor : ℕ
  (descriptorHashFloor relayPublicKey storeId : Bytes)
  durabilityProfileId : ℕ
  (durabilityContinuityHash durabilityProfileHash : Bytes)

structure Record where
  (canonicalBytes hash : Bytes)
  (descriptorSequence issuedEpoch expiresEpoch : ℕ)
  storeLifecycleState : Lifecycle
  (generation lifecycleFence : ℕ)
  (hadReadinessGap restored : Bool)
  deriving DecidableEq

/-- What `snapshotFor` returns. -/
structure Snapshot where
  descriptor : Descriptor
  (canonicalBytes hash : Bytes)
  (descriptorSequence generation lifecycleFence : ℕ)
  (hadReadinessGap fullStoreVerificationRequired : Bool)
  deriving DecidableEq

def recordFor (d : Descriptor) (canonicalBytes hash : Bytes) (generation lifecycleFence : ℕ)
    (hadReadinessGap restored : Bool) : Record where
  __ := d
  canonicalBytes := canonicalBytes
  hash := hash
  generation := generation
  lifecycleFence := lifecycleFence
  hadReadinessGap := hadReadinessGap
  restored := restored

/-! ### Transitions -/

/-- An `INVALID_TRANSITION`. -/
def invalid (message : String) : Failure := .closed .invalidTransition message

def lifecycleTransition (previous next : Lifecycle) : Bool :=
  if previous = next then decide (previous ≠ .retired)
  else decide (previous = .active ∧ next = .draining) ||
    decide (previous = .draining ∧ next = .retired)

def assertGenesis (d : Descriptor) : Except Failure Unit :=
  require (d.descriptorSequence = 0 ∧ d.identitySequence = 0 ∧ d.previousDescriptorHash = none ∧
      d.previousRelayKey = none ∧ d.identityTransition = none ∧ d.storeLifecycleState = .active)
    (invalid "descriptor genesis must start an unrelated active identity and store at sequence zero")

def assertSameKeyTransition (previous next : Descriptor) : Except Failure Unit := do
  require (next.previousRelayKey = none ∧ next.identityTransition = none ∧
      next.identitySequence = previous.identitySequence ∧ previous.storeId = next.storeId ∧
      previous.durabilityProfileId = next.durabilityProfileId ∧
      previous.durabilityContinuityHash = next.durabilityContinuityHash)
    (invalid "same-key descriptor refresh changed immutable store or identity continuity")
  require (lifecycleTransition previous.storeLifecycleState next.storeLifecycleState)
    (invalid "store lifecycle skipped, moved backward, or advanced after retirement")
  require (¬ (previous.storeLifecycleState = .active ∧ next.storeLifecycleState = .active ∧
      next.issuedEpoch ≤ previous.issuedEpoch))
    (invalid "routine ACTIVE descriptor refresh repeated an issuance epoch")

/-- What `assertRotationTransition` asks for. -/
def Rotates (previous next : Descriptor) : Prop :=
  previous.storeLifecycleState = .retired ∧ next.storeLifecycleState = .active ∧
    previous.storeId ≠ next.storeId ∧ next.previousRelayKey = some previous.relayPublicKey ∧
    (∃ t ∈ next.identityTransition, t.oldRelayKey = previous.relayPublicKey ∧
      t.newRelayKey = next.relayPublicKey ∧ t.oldIdentitySequence = previous.identitySequence ∧
      t.newIdentitySequence = next.identitySequence ∧ t.validFromEpoch = next.issuedEpoch) ∧
    next.identitySequence = previous.identitySequence + 1
  deriving Decidable

def assertRotationTransition (previous next : Descriptor) : Except Failure Unit :=
  require (Rotates previous next)
    (invalid "relay-key rotation does not start a fresh active store from the retired identity")

/-- What `assertTransition` asks for with the same relay key, and with another one. -/
def assertRelayTransition (previous next : Descriptor) : Except Failure Unit :=
  if previous.relayPublicKey = next.relayPublicKey then assertSameKeyTransition previous next
  else assertRotationTransition previous next

def assertDrainEpoch (previous next : Descriptor) : Except Failure Unit :=
  require ((previous.storeLifecycleState = .draining ∨ previous.storeLifecycleState = .retired) →
      next.storeLifecycleState ≠ .active → next.drainStartedEpoch = previous.drainStartedEpoch)
    (invalid "descriptor changed the original store drain epoch")

/-- What `assertTransition` returns. -/
structure Transition where
  (readinessGap lifecycleFenceChanged : Bool)

section State

variable (codec : Codec) (options : Options)

def assertTransition (previousRecord : Record) (next : Descriptor) (allowGap : Bool) :
    Except Failure Transition := do
  let previous ← demand (codec.decode previousRecord.canonicalBytes)
    (invalid "stored descriptor bytes are not canonical")
  require (next.descriptorSequence = previous.descriptorSequence + 1 ∧
      next.previousDescriptorHash = some previousRecord.hash)
    (.closed .chainGap "descriptor must be exact +1 and link the complete prior signed descriptor hash")
  let readinessGap := decide (previous.expiresEpoch ≤ next.issuedEpoch)
  require (readinessGap = true → allowGap = true)
    (invalid "planned descriptor refreshes must overlap; emergency gaps require explicit policy")
  assertRelayTransition previous next
  assertDrainEpoch previous next
  pure
    { readinessGap := readinessGap
      lifecycleFenceChanged := readinessGap ||
        decide (previous.relayPublicKey ≠ next.relayPublicKey) ||
        decide (previous.storeId ≠ next.storeId) ||
        decide (previous.storeLifecycleState ≠ next.storeLifecycleState) }

def verifiedDescriptor (canonicalBytes : Bytes) (answers : Answers) :
    Except Failure Descriptor := do
  let d ← demand (codec.decode canonicalBytes) (invalid "descriptor bytes are not canonical")
  require (codec.durabilityHashesMatch d)
    (invalid "descriptor durability hashes do not match their canonical signed values")
  require (d.enabledOperationBits &&& ~~~ advertisedOperationBits = 0)
    (invalid "descriptor enables an operation reserved by the active release profile")
  require (answers.signature = true) (invalid "descriptor signature verification failed")
  require (d.identityTransition.isSome = true → answers.oldIdentity = true)
    (invalid "old identity-transition signature verification failed")
  require (d.identityTransition.isSome = true → answers.newIdentity = true)
    (invalid "new identity-transition signature verification failed")
  pure d

def snapshotFor (record : Record) : Except Failure Snapshot := do
  let d ← demand (codec.decode record.canonicalBytes) (invalid "stored descriptor bytes are not canonical")
  pure
    { record with
      descriptor := d
      fullStoreVerificationRequired := record.hadReadinessGap || record.restored }

/-! ### The state -/

/-- The private fields of `DescriptorState`. -/
structure DescriptorState where
  currentRecord : Option Record
  byHash : OrderedMap Bytes Record
  bySequence : OrderedMap ℕ Record
  (generation lifecycleFence : ℕ)
  fault : Option ClosedReason

def DescriptorState.fresh : DescriptorState := ⟨none, .empty, .empty, 0, 0, none⟩

def DescriptorState.install (st : DescriptorState) (record : Record) : DescriptorState :=
  { st with
    currentRecord := some record
    byHash := st.byHash.set record.hash record
    bySequence := st.bySequence.set record.descriptorSequence record }

/-- The loop of `_prune` over the records in order. -/
def pruneLoop (floor : ℕ) : List Record → DescriptorState → DescriptorState
  | [], st => st
  | record :: rest, st =>
    if options.maxHistory < rest.length + 1 ∨ (1 < rest.length + 1 ∧ record.expiresEpoch < floor) then
      pruneLoop floor rest { st with
        bySequence := st.bySequence.delete record.descriptorSequence
        byHash := st.byHash.delete record.hash }
    else st

def DescriptorState.prune (st : DescriptorState) (now : ℕ) : DescriptorState :=
  pruneLoop options (now - options.retentionEpochs)
    (st.bySequence.values.insertionSort fun a b => a.descriptorSequence ≤ b.descriptorSequence) st

/-! ### Activation -/

/-- The arguments of `activate`, the answers of the hooks and the reading of `epochNow`. -/
structure Activation where
  canonicalBytes : Bytes
  (emergencyGap trustedRestore : Bool)
  answers : Answers
  now : ℕ
  now_u32 : now ≤ 0xffffffff

/-- What `_activate` does with a descriptor that is valid now: the record before it decides whether
the descriptor is a rollback, a fork, the current one once more, or the next one. A transition that
is refused is a fault. -/
def activateVerified (st : DescriptorState) (a : Activation) (d : Descriptor) :
    DescriptorState × Except Failure Snapshot :=
  let hash := codec.serviceDescriptorHash a.canonicalBytes
  let admitted (fence : ℕ) (hadReadinessGap restored : Bool) :=
    let record := recordFor d a.canonicalBytes hash (st.generation + 1) fence hadReadinessGap restored
    let st := { st with generation := st.generation + 1, lifecycleFence := fence }
    ((st.install record).prune options a.now, snapshotFor codec record)
  match st.currentRecord with
  | none =>
    if d.descriptorSequence ≠ 0 ∨ a.trustedRestore = true then
      (st, .error (.closed .chainGap "non-genesis activation requires verified restoration, never a trusted boolean"))
    else match assertGenesis d with
      | .error error => (st, .error error)
      | .ok _ => admitted st.lifecycleFence false false
  | some current =>
    if d.descriptorSequence < current.descriptorSequence then
      ({ st with fault := some .rollback }, .error (.closed .rollback "descriptor sequence rolled back"))
    else if d.descriptorSequence = current.descriptorSequence then
      if hash ≠ current.hash then
        ({ st with fault := some .fork }, .error (.closed .fork "same-sequence descriptor fork detected"))
      else (st, snapshotFor codec current)
    else
      match assertTransition codec current d (options.allowEmergencyGaps && a.emergencyGap) with
      | .error (.closed reason message) =>
        ({ st with fault := some reason }, .error (.closed reason message))
      | .error error => (st, .error error)
      | .ok transition =>
        admitted (if transition.lifecycleFenceChanged then st.lifecycleFence + 1 else st.lifecycleFence)
          (current.hadReadinessGap || transition.readinessGap) current.restored

def activate (st : DescriptorState) (a : Activation) : DescriptorState × Except Failure Snapshot :=
  match st.fault with
  | some reason => (st, .error (.closed reason "descriptor state is faulted closed"))
  | none =>
    match verifiedDescriptor codec a.canonicalBytes a.answers with
    | .error error => (st, .error error)
    | .ok d =>
      if a.now < d.issuedEpoch then
        (st, .error (.closed .notYetValid "descriptor is not yet valid"))
      else if d.expiresEpoch ≤ a.now then (st, .error (.closed .expired "descriptor is expired"))
      else activateVerified codec options st a d

/-! ### Restoration -/

/-- The arguments of `restore`, the answers of the hooks and the reading of `epochNow`. -/
structure Restoration where
  descriptorChainBytes : List (Bytes × Answers)
  manifestBytes : Option Bytes
  trustedRestore : Bool
  evidence : Option Evidence
  now : ℕ
  now_u32 : now ≤ 0xffffffff

/-- The variables of the loop of `_restore`. -/
structure Pending where
  records : List Record
  previous : Option Record
  lifecycleFence : ℕ
  hadReadinessGap : Bool
  generation : ℕ

/-- What a round of the loop of `_restore` finds of the fence and of the gaps. -/
def restoreFence (p : Pending) (d : Descriptor) : Except Failure (ℕ × Bool) :=
  match p.previous with
  | none =>
    if d.descriptorSequence = 0 then do
      assertGenesis d
      pure (p.lifecycleFence, p.hadReadinessGap)
    else pure (p.lifecycleFence, true)
  | some previous => do
    let transition ← assertTransition codec previous d options.allowEmergencyGaps
    pure (if transition.lifecycleFenceChanged then p.lifecycleFence + 1 else p.lifecycleFence,
      p.hadReadinessGap || transition.readinessGap)

/-- One round of the loop of `_restore`. -/
def restoreOne (p : Pending) (entry : Bytes × Answers) : Except Failure Pending := do
  let d ← verifiedDescriptor codec entry.1 entry.2
  let hash := codec.serviceDescriptorHash entry.1
  let fence ← restoreFence codec options p d
  let record := recordFor d entry.1 hash (p.generation + 1) fence.1 fence.2 true
  pure ⟨p.records ++ [record], some record, fence.1, fence.2, p.generation + 1⟩

/-- The loop of `_restore`. The generation has moved even if it fails. -/
def restoreLoop : Pending → List (Bytes × Answers) → ℕ × Except Failure Pending
  | p, [] => (p.generation, .ok p)
  | p, entry :: rest =>
    match restoreOne codec options p entry with
    | .error error => (p.generation, .error error)
    | .ok p' => restoreLoop p' rest

/-- `manifestMatchesDescriptor`. -/
def ManifestMatches (m : Manifest) (d : Descriptor) (hash : Bytes) : Prop :=
  m.descriptorSequenceFloor = d.descriptorSequence ∧ m.descriptorHashFloor = hash ∧
    m.relayPublicKey = d.relayPublicKey ∧ m.storeId = d.storeId ∧
    m.durabilityProfileId = d.durabilityProfileId ∧
    m.durabilityContinuityHash = d.durabilityContinuityHash ∧
    m.durabilityProfileHash = d.durabilityProfileHash ∧ m.formatMajor = d.storeFormatMajor ∧
    m.formatMinor = d.storeFormatMinor ∧ m.storeFormatHash = d.storeFormatHash ∧
    m.specHash = d.specHash ∧ m.abiHash = d.abiHash
  deriving Decidable

/-- The evidence echoes the last descriptor. -/
def Evidence.Echoes (e : Evidence) (d : Descriptor) (hash : Bytes) : Prop :=
  e.verified = true ∧ e.fullStoreVerified = true ∧
    e.descriptorSequenceFloor = d.descriptorSequence ∧ e.descriptorHashFloor = hash ∧
    e.relayPublicKey = d.relayPublicKey ∧ e.storeId = d.storeId ∧
    e.durabilityProfileId = d.durabilityProfileId ∧
    e.durabilityContinuityHash = d.durabilityContinuityHash ∧
    e.durabilityProfileHash = d.durabilityProfileHash
  deriving Decidable

/-- What `_restore` checks after its loop. -/
def restorationVerified (r : Restoration) (records : List Record) : Except Failure Unit := do
  let first ← demand (records.head?.bind fun record => codec.decode record.canonicalBytes)
    (invalid "restored descriptor bytes are not canonical")
  let lastRecord ← demand records.getLast? (invalid "restored descriptor bytes are not canonical")
  let last ← demand (codec.decode lastRecord.canonicalBytes) (invalid "restored descriptor bytes are not canonical")
  if first.descriptorSequence ≠ 0 ∨ r.manifestBytes ≠ none then
    let manifestBytes ← demand (if options.hasVerifyRestoration then r.manifestBytes else none)
      (.closed .restoreUnverified "non-genesis restoration requires a canonical MAC-verified store manifest")
    let manifest ← demand (codec.decodeManifest manifestBytes) (invalid "store manifest bytes are not canonical")
    require (ManifestMatches manifest last lastRecord.hash) (.closed .restoreUnverified
        "store manifest does not bind the restored descriptor/store/profile floor")
    require (∃ e ∈ r.evidence, e.Echoes last lastRecord.hash) (.closed .restoreUnverified
        "restoration verifier did not echo the exact recovered floor and continuity tuple")

def restore (st : DescriptorState) (r : Restoration) : DescriptorState × Except Failure Snapshot :=
  if r.descriptorChainBytes.length = 0 ∨ options.maxHistory < r.descriptorChainBytes.length then
    (st, .error (.other "descriptorChainBytes must contain 1..maxHistory entries"))
  else if r.trustedRestore then
    (st, .error (.closed .restoreUnverified "trustedRestore booleans are not restoration evidence"))
  else if st.currentRecord.isSome ∨ st.fault.isSome then
    (st, .error (.closed .restoreUnverified "restoration requires a new unfaulted descriptor state"))
  else
    let (generation, result) := restoreLoop codec options ⟨[], none, 0, false, st.generation⟩ r.descriptorChainBytes
    let st := { st with generation := generation }
    match result with
    | .error error => (st, .error error)
    | .ok p =>
      match restorationVerified codec options r p.records with
      | .error error => (st, .error error)
      | .ok _ =>
        let st := p.records.foldl DescriptorState.install st
        let st := ({ st with lifecycleFence := p.lifecycleFence }).prune options r.now
        (st, match st.currentRecord with
          | none => .error (.other "no record was restored")
          | some record => snapshotFor codec record)

/-! ### Use -/

def DescriptorState.recordForSnapshot (st : DescriptorState) (s : Snapshot) : Option Record :=
  (st.byHash.get? s.hash).filter fun record =>
    decide (record.descriptorSequence = s.descriptorSequence ∧ record.generation = s.generation ∧
      record.lifecycleFence = s.lifecycleFence)

def DescriptorState.remainsUsable (st : DescriptorState) (s : Snapshot) (now : ℕ) : Bool :=
  if st.fault.isSome then false
  else match st.recordForSnapshot s, st.currentRecord with
    | some record, some current =>
      decide (record.lifecycleFence = current.lifecycleFence ∧ record.issuedEpoch ≤ now ∧
        now < record.expiresEpoch ∧ current.storeLifecycleState ≠ .retired)
    | _, _ => false

inductive Call where
  | activate (a : Activation)
  | restore (r : Restoration)

/-- The reading of `epochNow` of a call. -/
def Call.now : Call → ℕ
  | .activate a => a.now
  | .restore r => r.now

/-- The state after a call, and its result. -/
def perform (st : DescriptorState) : Call → DescriptorState × Except Failure Snapshot
  | .activate a => activate codec options st a
  | .restore r => restore codec options st r

def performAll (st : DescriptorState) (calls : List Call) : DescriptorState :=
  calls.foldl (fun st call => (perform codec options st call).1) st

end State

end HiveRelay.Service
