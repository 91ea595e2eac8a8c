import HiveRelay.Capacity.Plan
import HiveRelay.Lib.Act
import Mathlib.Algebra.Group.Prod
import Mathlib.Algebra.Order.Ring.Int
import Mathlib.Tactic.Abel

/-!
# The storage admission authority

Every key that stores something has a record with a bound. A reservation is admitted when what is measured
and what all records promise fit; it becomes a commitment, or is rolled back to the record it replaced.
Three counters follow the records. A committed key can be handed to an owner.

What the authority reads from outside while it admits something is in `Readings`. An object that is only
compared is its number.
-/

namespace HiveRelay.Storage

open OrderedMap Option Act
open Codec (maxSafeInteger)
open JsString (ofText)
open Act (ofExcept)

/-! ### Records -/

inductive RecordState where
  | reserved | committed | unknownRecovery
  deriving DecidableEq

/-- The record of a key. A field that is deleted or left out is `none`. -/
structure Record where
  (key kind : JsString)
  boundBytes : Option ℕ
  overheadBytes : ℕ
  state : RecordState
  recovery : Bool
  tokenId : Option ℕ := none
  actualBytesOverride : Option ℕ := none
  measuredActualBytes : Option ℕ := none

/-- `_capacityCommittedBytes`, `_capacityPendingBytes` and `_capacityUnknownCommitments`. -/
abbrev Totals : Type := ℤ × ℤ × ℤ

def capacityContribution (record : Record) : Totals :=
  match finiteNonNegativeInteger record.boundBytes, finiteNonNegativeInteger (some record.overheadBytes) with
  | some bound, some overhead =>
    match record.state with
    | .committed => (bound + overhead, 0, 0)
    | .reserved => (0, bound + overhead, 0)
    | .unknownRecovery => (0, 0, 1)
  | _, _ => (0, 0, 1)

/-- The full bound and the overhead of a record. -/
def Record.debt (record : Record) : ℕ := record.boundBytes.getD 0 + record.overheadBytes

def commitmentMetadataOverhead (kind : JsString) : Option (Option ℕ) → Option ℕ
  | some explicit => finiteNonNegativeInteger explicit
  | none =>
    if kind = ofText "drive" then some (64 * 1024 + 2 * 1024 * 1024)
    else if kind = ofText "core" then some (64 * 1024)
    else some 0

/-- `opts.kind || previous?.kind || key.split(':', 1)[0]`. -/
def kindOf (kind previous : Option JsString) (key : JsString) : JsString :=
  (kind.filter (· ≠ []) <|> previous.filter (· ≠ [])).getD (key.takeWhile (· ≠ 0x3a))

/-- The operator's configuration. A profile that is not a text is `some none`. -/
structure Config extends CapConfig where
  capacityProfile : Option (Option JsString)

/-- A sample of a filesystem. A field is left out, `null` or a text. -/
structure FilesystemSample extends DiskInfo where
  (storagePath realpath device inode : Option (Option String))
  checkedAt : Option ℤ

/-- A sample that failed, with its reason. -/
abbrev Sampled : Type := Except (Option String) FilesystemSample

/-- What is read from outside while something is admitted. -/
structure Readings where
  sample : Sampled
  now : ℤ
  actualBytes : JsString → Record → Option ℕ
  usedBytes : Option ℕ
  finalSample : Sampled

/-- What `reserve` returns when something is admitted. -/
structure Token where
  key : JsString
  (tokenId boundBytes : ℕ)
  previous : Option Record
  (actualBytes reservedBytes : ℕ)
  admission : Admission

/-- What is returned when nothing is. -/
inductive Refused where
  | failure (reason : String)
  | refused (admission : Admission)

/-- A `StorageAdmissionAuthority`. -/
structure Authority where
  config : Config
  records : OrderedMap JsString Record
  totals : Totals
  recoveryPending : List JsString
  tokenSequence : ℕ
  fatalReason : Option String
  acceptingMutations : Bool
  mutationStopReason : Option String
  ownedHandoffs : OrderedMap ℕ JsString
  ownedLeases : OrderedMap JsString ℕ
  handoffSequence : ℕ

def Authority.new (config : Config) (recoveryKinds : List JsString) : Authority :=
  ⟨config, .empty, 0, recoveryKinds, 0, none, true, none, .empty, .empty, 0⟩

namespace Authority

/-! ### The counters -/

def adjustCapacityTotals (totals : Totals) (record : Option Record) (direction : ℤ) : Totals :=
  totals + direction • record.elim 0 capacityContribution

def setRecord (a : Authority) (key : JsString) (record : Record) : Authority :=
  { a with
    records := a.records.set key record
    totals := adjustCapacityTotals (adjustCapacityTotals a.totals (a.records.get? key) (-1))
      (some record) 1 }

def deleteRecord (a : Authority) (key : JsString) : Bool × Authority :=
  match a.records.get? key with
  | none => (false, a)
  | some previous =>
    (true, { a with
      records := a.records.delete key
      totals := adjustCapacityTotals a.totals (some previous) (-1) })

/-- The counters are the sums over the records. -/
def Counted (a : Authority) : Prop := a.totals = a.records.sumBy fun _ => capacityContribution

/-! ### Admission -/

def failClosed (a : Authority) (reason : String) : Authority := { a with fatalReason := some reason }

def actualBytes (readings : Readings) (key : JsString) (record : Record) : ℕ :=
  (finiteNonNegativeInteger record.actualBytesOverride).getD
    ((finiteNonNegativeInteger (readings.actualBytes key record)).getD 0)

/-- What `admission` says of a remainder that is `null`. -/
def commitmentUnknown : Refused := .failure "storage-commitment-unknown"

def remainingBytes (readings : Readings) (key : JsString) (record : Record) :
    Act Authority Refused ℕ := do
  let bound ← ofExcept (demand record.boundBytes commitmentUnknown)
  if bound < actualBytes readings key record then do
    Act.modify (·.failClosed "storage-actual-exceeds-commitment")
    Act.throw commitmentUnknown
  else do
    ofExcept (require (bound + record.overheadBytes ≤ maxSafeInteger) commitmentUnknown)
    return bound + record.overheadBytes

/-- `_committedRemainder`, of the records that are not excluded. -/
def committedRemainder (readings : Readings) : List (JsString × Record) → ℕ → Act Authority Refused ℕ
  | [], total => pure total
  | (key, record) :: entries, total => do
    let remaining ← remainingBytes readings key record
    ofExcept (require (total + remaining ≤ maxSafeInteger) commitmentUnknown)
    committedRemainder readings entries (total + remaining)

/-- `refreshFilesystem`, with the check of `filesystemSample` that it is one. -/
def refreshFilesystem (sampled : Sampled) : Except Refused FilesystemSample :=
  sampled.mapError fun reason => .failure (reason.getD "storage-filesystem-sample-unavailable")

def filesystemSample (sampleMaxAgeMs : ℕ) (readings : Readings) : Except Refused FilesystemSample := do
  let sample ← refreshFilesystem readings.sample
  require (∃ t ∈ sample.checkedAt, readings.now - t ≤ sampleMaxAgeMs ∧ t ≤ readings.now + 1000)
    (.failure "storage-filesystem-sample-stale")
  return sample

def sameFilesystemIdentity (left right : FilesystemSample) : Prop :=
  let text : Option (Option String) → String := fun field => (field.getD "undefined").getD "null"
  ∀ field ∈ [FilesystemSample.storagePath, FilesystemSample.realpath, FilesystemSample.device,
      FilesystemSample.inode],
    ((field left).join = none ∧ (field right).join = none) ∨ text (field left) = text (field right)
  deriving Decidable

def capacityCeiling (config : Config) (sample : FilesystemSample) : Except Refused (Option (ℕ × String)) :=
  match config.capacityProfile with
  | none => .ok none
  | some profileId => do
    let observedUsableBytes ← demand (finiteNonNegativeInteger sample.totalBytes)
      (.failure "capacity-profile-filesystem-unmeasured")
    let ceiling ← (planCapacityCeiling ⟨profileId, some (some observedUsableBytes),
      (positiveStorageBound config.maxStorageBytes).map some⟩).mapError fun _ => .failure "capacity-profile-invalid"
    return some (ceiling.ceilingBytes, ceiling.source)

/-- The end of `admission`: the usage, the second sample, the ceiling and the gate. -/
def evaluate (config : Config) (readings : Readings) (sample : FilesystemSample)
    (additional committedRemainder : ℕ) : Except Refused Admission := do
  let measuredUsed ← demand (finiteNonNegativeInteger readings.usedBytes) (.failure "storage-usage-invalid")
  let finalSample ← refreshFilesystem readings.finalSample
  require (sameFilesystemIdentity sample finalSample) (.failure "storage-filesystem-changed-during-usage-measurement")
  require (measuredUsed + committedRemainder ≤ maxSafeInteger) (.failure "storage-usage-invalid")
  let ceiling ← capacityCeiling config finalSample
  return evaluateStorageAdmission config.toCapConfig
    { usedBytes := some (measuredUsed + committedRemainder)
      additionalBytes := some additional
      diskInfo := some finalSample.toDiskInfo
      committedBytes := some committedRemainder
      capCeilingBytes := ceiling.map (some ·.1)
      capCeilingSource := ceiling.map (·.2) }

variable (sampleMaxAgeMs : ℕ)

def admission (additionalBytes : Option ℕ) (excluding : JsString) (readings : Readings) :
    Act Authority Refused Admission := do
  let additional ← ofExcept (demand (finiteNonNegativeInteger additionalBytes) (.failure "storage-bound-invalid"))
  let a ← Act.get
  ofExcept (require (a.fatalReason = none) (.failure (a.fatalReason.getD "")))
  ofExcept (require (a.recoveryPending = []) (.failure "storage-recovery-inventory-pending"))
  let sample ← ofExcept (filesystemSample sampleMaxAgeMs readings)
  let remainder ← committedRemainder readings (a.records.delete excluding).entries 0
  ofExcept (evaluate a.config readings sample additional remainder)

/-! ### The ledger -/

/-- The options of `reserve`. A size that is not given is `none`. -/
structure ReserveOpts where
  kind : Option JsString := none
  metadataOverheadBytes : Option (Option ℕ) := none
  authoritativeSizeBytes : Option (Option ℕ) := none
  measuredActualBytes : Option (Option ℕ) := none

/-- A size that is given is within the bound. -/
def sizeWithin (bound : ℕ) (given : Option (Option ℕ)) : Except Refused (Option ℕ) :=
  match given with
  | none => .ok none
  | some size => do
    let size ← demand ((finiteNonNegativeInteger size).filter (· ≤ bound)) (.failure "storage-bound-below-actual")
    return some size

/-- What `reserve` checks before it asks for admission: the bound, the kind, the overhead and the size. -/
def checkReserve (a : Authority) (key : JsString) (boundBytes : Option ℕ) (opts : ReserveOpts) :
    Except Refused (ℕ × JsString × ℕ × ℕ) := do
  require (a.acceptingMutations = true) (.failure (a.mutationStopReason.getD "storage-mutations-stopping"))
  require (key ≠ []) (.failure "storage-reservation-key-invalid")
  let bound ← demand (positiveStorageBound boundBytes) (.failure "storage-bound-invalid")
  let previous := a.records.get? key
  let kind := kindOf opts.kind (previous.map Record.kind) key
  let overheadBytes ← demand (commitmentMetadataOverhead kind opts.metadataOverheadBytes)
    (.failure "storage-overhead-invalid")
  require (bound + overheadBytes ≤ maxSafeInteger) (.failure "storage-overhead-invalid")
  require (previous.map Record.state ≠ some .reserved) (.failure "storage-reservation-in-progress")
  require (previous.map Record.state = some .unknownRecovery → opts.authoritativeSizeBytes ≠ none) commitmentUnknown
  require (∀ p ∈ positiveStorageBound (previous.bind Record.boundBytes), p ≤ bound)
    (.failure "storage-bound-shrink-requires-release")
  let authoritativeSize ← sizeWithin bound opts.authoritativeSizeBytes
  let measuredActual ← sizeWithin bound opts.measuredActualBytes
  return (bound, kind, overheadBytes, measuredActual.getD (authoritativeSize.getD 0))

def reserve (key : JsString) (boundBytes : Option ℕ) (opts : ReserveOpts) (readings : Readings) :
    Act Authority Refused Token := do
  let a ← Act.get
  let (bound, kind, overheadBytes, measuredActual) ← ofExcept (checkReserve a key boundBytes opts)
  let admission ← admission sampleMaxAgeMs (some (bound + overheadBytes)) key readings
  ofExcept (require (admission.allowed = true) (.refused admission))
  let tokenId := a.tokenSequence + 1
  Act.modify fun a => setRecord { a with tokenSequence := tokenId } key
    { key, kind, boundBytes := some bound, overheadBytes, state := .reserved, recovery := false,
      tokenId := some tokenId, measuredActualBytes := some measuredActual }
  return ⟨key, tokenId, bound, a.records.get? key, measuredActual, bound + overheadBytes, admission⟩

/-- The record of a key while it is the reservation of a token. -/
def ownedRecord (a : Authority) (token : Token) : Option Record :=
  (a.records.get? token.key).filter fun record =>
    record.state = .reserved ∧ record.tokenId = some token.tokenId

/-- The options of `commit`. -/
structure CommitOpts where
  boundBytes : Option (Option ℕ) := none
  actualBytes : Option (Option ℕ) := none

/-- The bound that `commit` commits. -/
def committedBound (token : Token) (record : Record) (opts : CommitOpts) : Option ℕ :=
  let previousBound := (positiveStorageBound (token.previous.bind Record.boundBytes)).getD 0
  (opts.boundBytes.elim record.boundBytes positiveStorageBound).filter fun bound =>
    record.boundBytes.any (bound ≤ ·) ∧ previousBound ≤ bound ∧
      ∀ actual ∈ opts.actualBytes, (finiteNonNegativeInteger actual).any (· ≤ bound)

/-- `commit`. A token that is `null` is `none`. -/
def commit (a : Authority) (token : Option Token) (opts : CommitOpts) : Bool × Authority :=
  match token.bind fun token => (a.ownedRecord token).bind fun record =>
      (committedBound token record opts).map fun bound => (token.key, record, bound) with
  | none => (false, a.failClosed "storage-reservation-authority-invariant-failed")
  | some (key, record, bound) =>
    (true, a.setRecord key
      { record with
        boundBytes := some bound
        state := .committed
        tokenId := none
        recovery := false
        actualBytesOverride :=
          opts.actualBytes.bind finiteNonNegativeInteger <|> record.actualBytesOverride
        measuredActualBytes := none })

def rollback (a : Authority) (token : Option Token) : Bool × Authority :=
  match token.filter fun token => (a.ownedRecord token).isSome with
  | none => (false, a)
  | some token =>
    (true, match token.previous with
      | some previous => a.setRecord token.key previous
      | none => (a.deleteRecord token.key).2)

/-- The options of `adoptRecovery`. -/
structure RecoveryOpts where
  kind : Option JsString := none
  metadataOverheadBytes : Option (Option ℕ) := none
  actualBytes : Option (Option ℕ) := none

def adoptRecovery (a : Authority) (key : JsString) (boundBytes : Option ℕ) (opts : RecoveryOpts) :
    Option Record × Authority :=
  let bound := positiveStorageBound boundBytes
  let kind := kindOf opts.kind none key
  let actual := opts.actualBytes.bind finiteNonNegativeInteger
  match commitmentMetadataOverhead kind opts.metadataOverheadBytes with
  | none => (none, a.failClosed "storage-recovery-actual-exceeds-commitment")
  | some overheadBytes =>
    if bound.any fun bound => actual.elim opts.actualBytes.isSome (bound < ·) then
      (none, a.failClosed "storage-recovery-actual-exceeds-commitment")
    else
      let record : Record :=
        if bound = none then
          { key, kind, boundBytes := none, overheadBytes, state := .unknownRecovery, recovery := true,
            actualBytesOverride := actual }
        else { key, kind, boundBytes := bound, overheadBytes, state := .committed, recovery := true }
      (some record, a.setRecord key record)

/-- `reconcileActual`. The record is written in place. -/
def reconcileActual (a : Authority) (key : JsString) (actualBytes : Option ℕ) : Bool × Authority :=
  match a.records.get? key, finiteNonNegativeInteger actualBytes with
  | some record, some actual =>
    if record.state = .committed ∧ record.boundBytes.any (actual ≤ ·) then
      let previous := (finiteNonNegativeInteger record.actualBytesOverride).getD 0
      (true, { a with
        records := a.records.set key
          { record with actualBytesOverride := some (max previous actual) } })
    else (false, a.failClosed "storage-actual-exceeds-commitment")
  | _, _ => (false, a.failClosed "storage-actual-exceeds-commitment")

/-! ### Handoffs -/

/-- A key that is committed with a bound. -/
def CommittedWithBound (a : Authority) (key : JsString) : Prop :=
  ∃ record ∈ a.records.get? key, record.state = .committed ∧ record.boundBytes.isSome = true
  deriving Decidable

def issueOwnedHandoff (a : Authority) (key : JsString) : Option ℕ × Authority :=
  if a.fatalReason = none ∧ a.acceptingMutations = true ∧ a.ownedLeases.get? key = none ∧
      a.CommittedWithBound key then
    (some a.handoffSequence,
      { a with
        handoffSequence := a.handoffSequence + 1
        ownedHandoffs := a.ownedHandoffs.set a.handoffSequence key
        ownedLeases := a.ownedLeases.set key a.handoffSequence })
  else (none, a)

def Leased (a : Authority) (handoff : ℕ) (key : JsString) : Prop :=
  a.ownedHandoffs.get? handoff = some key ∧ a.ownedLeases.get? key = some handoff

def validateOwnedHandoff (a : Authority) (handoff : ℕ) (key : Option JsString) : Bool :=
  a.fatalReason.isNone && a.acceptingMutations && (a.ownedHandoffs.get? handoff).any fun ownedKey =>
    decide (ownedKey ≠ [] ∧ a.ownedLeases.get? ownedKey = some handoff ∧ (∀ k ∈ key, ownedKey = k) ∧
      a.CommittedWithBound ownedKey)

def releaseOwnedHandoff (a : Authority) (handoff : ℕ) : Bool × Authority :=
  match (a.ownedHandoffs.get? handoff).filter fun key =>
      key ≠ [] ∧ a.ownedLeases.get? key = some handoff with
  | none => (false, a)
  | some key =>
    (true, { a with
      ownedLeases := a.ownedLeases.delete key
      ownedHandoffs := a.ownedHandoffs.delete handoff })

def release (a : Authority) (key : JsString) : Bool × Authority :=
  ((a.ownedLeases.get? key).elim a fun handoff => (a.releaseOwnedHandoff handoff).2).deleteRecord key

def beginRecovery (a : Authority) (kinds : List JsString) : Authority :=
  { a with
    records := .empty
    totals := 0
    ownedLeases := .empty
    recoveryPending := kinds
    fatalReason := none
    acceptingMutations := true
    mutationStopReason := none }

/-! ### What the counters keep -/

section Counters

variable {a : Authority} {key : JsString}

theorem Counted.setRecord (h : a.Counted) (record : Record) : (a.setRecord key record).Counted := by
  have htotals : a.totals = a.records.sumBy fun _ => capacityContribution := h
  simp only [Counted, Authority.setRecord, sumBy_set, htotals, adjustCapacityTotals]
  cases hget : a.records.get? key with
  | none =>
    rw [delete_of_get?_eq_none hget]
    simp only [Option.elim, zsmul_zero, one_zsmul]
    abel
  | some previous =>
    rw [sumBy_eq_of_get? _ hget]
    simp only [Option.elim, neg_zsmul, one_zsmul]
    abel

theorem Counted.deleteRecord (h : a.Counted) : (a.deleteRecord key).2.Counted := by
  unfold Authority.deleteRecord
  split
  · exact h
  · next previous hget =>
    have htotals : a.totals = a.records.sumBy fun _ => capacityContribution := h
    simp only [Counted, htotals, adjustCapacityTotals, sumBy_eq_of_get? _ hget,
      Option.elim, neg_zsmul, one_zsmul]
    abel

theorem get?_deleteRecord (k : JsString) :
    (a.deleteRecord key).2.records.get? k = if k = key then none else a.records.get? k := by
  unfold Authority.deleteRecord
  split
  · next hget =>
    by_cases hk : k = key
    · rw [if_pos hk, hk, hget]
    · rw [if_neg hk]
  · exact get?_delete

end Counters

/-! ### What admission says -/

section Admission

variable {a a' : Authority} {readings : Readings}

variable {key : JsString}

theorem remainingBytes_ok {record : Record} {n : ℕ} (h : remainingBytes readings key record a = (.ok n, a')) :
    a' = a ∧ record.boundBytes.isSome = true ∧ n = record.debt := by
  obtain ⟨bound, hbound, h⟩ := ofExcept_bind_eq_ok h
  have hbound := demand_eq_ok.mp hbound
  split at h
  · cases h
  · obtain ⟨_, _, h⟩ := ofExcept_bind_eq_ok h
    cases h
    simp [Record.debt, hbound]

/-- **The remainder** is the sum of what the records promise, and all of them have a bound. -/
theorem committedRemainder_ok {entries : List (JsString × Record)} {total remainder : ℕ}
    (h : committedRemainder readings entries total a = (.ok remainder, a')) :
    a' = a ∧ (∀ e ∈ entries, e.2.boundBytes.isSome = true) ∧
      remainder = total + (entries.map fun e => e.2.debt).sum := by
  induction entries generalizing total with
  | nil =>
    cases h
    simp
  | cons e entries ih =>
    obtain ⟨remaining, a₁, hremaining, h⟩ := Act.bind_eq_ok h
    obtain ⟨rfl, hbound, rfl⟩ := remainingBytes_ok hremaining
    obtain ⟨_, _, h⟩ := ofExcept_bind_eq_ok h
    obtain ⟨rfl, hbounds, rfl⟩ := ih h
    refine ⟨rfl, List.forall_mem_cons.mpr ⟨hbound, hbounds⟩, ?_⟩
    rw [List.map_cons, List.sum_cons, Nat.add_assoc]

/-- What was measured and what the records promise fit, in the cap, the ceiling and the filesystem. -/
structure Covered (config : Config) (readings : Readings) (records : OrderedMap JsString Record) :
    Prop where
  bounded : ∀ key record, records.get? key = some record → record.boundBytes.isSome = true
  logical : ∃ used cap, readings.usedBytes = some used ∧ config.maxStorageBytes = some cap ∧
    used + records.sumBy (fun _ => Record.debt) ≤ cap ∧
    ∀ sample ceiling source, readings.finalSample = .ok sample →
      capacityCeiling config sample = .ok (some (ceiling, source)) →
        used + records.sumBy (fun _ => Record.debt) ≤ ceiling
  physical : ∀ sample total free, readings.finalSample = .ok sample →
    sample.toDiskInfo.readable = some (total, free) →
      records.sumBy (fun _ => Record.debt) + storageReserveBytes (some total) ≤ free

theorem refreshFilesystem_eq_ok {sampled : Sampled} {sample : FilesystemSample} :
    refreshFilesystem sampled = .ok sample ↔ sampled = .ok sample := by
  cases sampled <;> simp [refreshFilesystem, Except.mapError]

/-- **What is admitted is covered**, with the records it does not exclude. -/
theorem evaluate_covered {config : Config} {sample : FilesystemSample} {additional remainder : ℕ}
    {admission : Admission} (h : evaluate config readings sample additional remainder = .ok admission)
    (hallowed : admission.allowed = true) :
    (∃ used cap, readings.usedBytes = some used ∧ config.maxStorageBytes = some cap ∧
      used + (remainder + additional) ≤ cap ∧
      ∀ sample ceiling source, readings.finalSample = .ok sample →
        capacityCeiling config sample = .ok (some (ceiling, source)) → used + (remainder + additional) ≤ ceiling) ∧
    ∀ sample total free, readings.finalSample = .ok sample → sample.toDiskInfo.readable = some (total, free) →
        remainder + additional + storageReserveBytes (some total) ≤ free := by
  simp only [evaluate, guards_eq_ok, finiteNonNegativeInteger_eq_some, refreshFilesystem_eq_ok] at h
  obtain ⟨used, ⟨hused, -⟩, finalSample, hfinal, -, -, ceiling, hceiling, rfl⟩ := h
  obtain ⟨used', additional', remainder', cap, ceiling', hreads, -, hfits, hphysical⟩ :=
    allowed_iff.mp hallowed
  obtain rfl := some.inj hreads.used.1
  obtain rfl := some.inj hreads.additional.1
  obtain rfl := some.inj hreads.committed.1
  refine ⟨⟨used, cap, hused, hreads.cap.1, ?_, fun s c source hs hc => ?_⟩, fun s total free hs hdisk => ?_⟩
  · have hle : effectiveCapBytes cap ceiling' ≤ cap := by
      cases ceiling' with
      | none => exact le_rfl
      | some c => exact min_le_left _ _
    omega
  · obtain rfl := Except.ok.inj (hfinal.symm.trans hs)
    obtain rfl := Except.ok.inj (hceiling.symm.trans hc)
    have hgiven := hreads.ceiling.1
    cases ceiling' with
    | none => cases hgiven
    | some c' =>
      obtain rfl := some.inj (some.inj hgiven)
      have hle : effectiveCapBytes cap (some (c, source).1) ≤ c := min_le_right _ _
      omega
  · obtain rfl := Except.ok.inj (hfinal.symm.trans hs)
    have hbound := hphysical (free - storageReserveBytes (some total) - remainder) (by
      simp only [physicalAvailable, bind_some, hdisk, mem_some_iff])
    omega

theorem admission_ok {additional : ℕ} {admission : Admission}
    (h : Authority.admission sampleMaxAgeMs (some additional) key readings a = (.ok admission, a')) :
    a' = a ∧ (∀ e ∈ (a.records.delete key).entries, e.2.boundBytes.isSome = true) ∧
      ∃ sample, evaluate a.config readings sample additional
        ((a.records.delete key).sumBy fun _ => Record.debt) = .ok admission := by
  obtain ⟨additional', hadditional, h⟩ := ofExcept_bind_eq_ok h
  obtain ⟨hadditional, -⟩ := finiteNonNegativeInteger_eq_some.mp (demand_eq_ok.mp hadditional)
  cases hadditional
  obtain ⟨_, _, hget, h⟩ := Act.bind_eq_ok h
  cases hget
  obtain ⟨_, _, h⟩ := ofExcept_bind_eq_ok h
  obtain ⟨_, _, h⟩ := ofExcept_bind_eq_ok h
  obtain ⟨sample, _, h⟩ := ofExcept_bind_eq_ok h
  obtain ⟨remainder, a₁, hremainder, h⟩ := Act.bind_eq_ok h
  obtain ⟨rfl, hbounds, rfl⟩ := committedRemainder_ok hremainder
  obtain ⟨hevaluate, rfl⟩ := Prod.mk.inj h
  rw [Nat.zero_add] at hevaluate
  exact ⟨rfl, hbounds, sample, hevaluate⟩

structure Reserves (token : Token) (record : Record) : Prop where
  key : record.key = token.key
  boundBytes : record.boundBytes = some token.boundBytes
  state : record.state = .reserved
  tokenId : record.tokenId = some token.tokenId

/-- **A reservation** takes the place of a record that is not one, and is covered. -/
theorem reserve_ok {boundBytes : Option ℕ} {opts : ReserveOpts} {token : Token}
    (h : reserve sampleMaxAgeMs key boundBytes opts readings a = (.ok token, a')) :
    ∃ record, a' = setRecord { a with tokenSequence := a.tokenSequence + 1 } key record ∧
      Reserves token record ∧ token.key = key ∧ token.tokenId = a.tokenSequence + 1 ∧
      token.previous = a.records.get? key ∧ token.previous.map Record.state ≠ some .reserved ∧
      Covered a.config readings a'.records := by
  obtain ⟨_, _, hget, h⟩ := Act.bind_eq_ok h
  cases hget
  obtain ⟨⟨bound, kind, overheadBytes, measuredActual⟩, hcheck, h⟩ := ofExcept_bind_eq_ok h
  obtain ⟨admission, a₁, hadmission, h⟩ := Act.bind_eq_ok h
  obtain ⟨_, hallowed, h⟩ := ofExcept_bind_eq_ok h
  obtain ⟨rfl, hbounds, sample, hevaluate⟩ := admission_ok _ hadmission
  obtain ⟨⟨used, cap, hused, hcap, hfits, hceiling⟩, hphysical⟩ :=
    evaluate_covered hevaluate (require_eq_ok.mp hallowed)
  simp only [checkReserve, guards_eq_ok] at hcheck
  obtain ⟨-, -, bound', -, overhead', -, -, hstate, -⟩ := hcheck
  cases h
  have hdebt : ∀ record : Record, record.debt = bound + overheadBytes →
      (a₁.records.set key record).sumBy (fun _ => Record.debt) =
        (a₁.records.delete key).sumBy (fun _ => Record.debt) + (bound + overheadBytes) := by
    intro record hrecord
    rw [sumBy_set, hrecord, Nat.add_comm]
  refine ⟨_, rfl, ⟨rfl, rfl, rfl, rfl⟩, rfl, rfl, rfl, hstate, ?_, ?_, ?_⟩
  · intro k record hget
    simp only [setRecord, get?_set] at hget
    split at hget
    · cases hget
      rfl
    · next hne =>
      refine hbounds (k, record) (mem_entries_iff.mpr ?_)
      rw [get?_delete_of_ne hne, hget]
  · simp only [setRecord]
    rw [hdebt _ rfl]
    exact ⟨used, cap, hused, hcap, hfits, hceiling⟩
  · simp only [setRecord]
    rw [hdebt _ rfl]
    exact hphysical

end Admission

end Authority

end HiveRelay.Storage
