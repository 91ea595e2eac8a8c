import HiveRelay.Codec.Combinators
import HiveRelay.Vrf.Beacon

/-!
# The storage gate

`evaluateStorageAdmission` says whether more may be stored. There are two bounds. The logical one is the
cap of the operator, narrowed by the ceiling of a capacity profile, less what is used. The physical one
is what the filesystem has free beyond a reserve, less what is promised. A filesystem that cannot be read
is replaced by what was measured when the cap was resolved, and if nothing was, there is no physical
bound.

A value that JavaScript does not read as a non-negative integer is `none`.
-/

namespace HiveRelay.Storage

open Option
open Codec (maxSafeInteger)

/-! ### Numbers -/

def finiteNonNegativeInteger (value : Option ℕ) : Option ℕ :=
  value.filter fun n => n ≤ maxSafeInteger

def positiveStorageBound (value : Option ℕ) : Option ℕ :=
  (finiteNonNegativeInteger value).filter fun n => 0 < n

@[simp] theorem finiteNonNegativeInteger_eq_some {value : Option ℕ} {n : ℕ} :
    finiteNonNegativeInteger value = some n ↔ value = some n ∧ n ≤ maxSafeInteger := by
  simp [finiteNonNegativeInteger, filter_eq_some_iff]

@[simp] theorem positiveStorageBound_eq_some {value : Option ℕ} {n : ℕ} :
    positiveStorageBound value = some n ↔ value = some n ∧ n ≤ maxSafeInteger ∧ 0 < n := by
  simp [positiveStorageBound, filter_eq_some_iff, and_assoc]

/-! ### The reserve -/

def storageReserveMinBytes : ℕ := 2 * 1024 * 1024 * 1024

def storageReserveMaxBytes : ℕ := 20 * 1024 * 1024 * 1024

/-- `Math.floor(total * 0.10)`. The double nearest to a tenth is `3602879701896397 / 2 ^ 55`, and a
product is rounded to a double before it is rounded down. -/
def tenPercent (total : ℕ) : ℕ := Vrf.toDouble (total * 3602879701896397) / 2 ^ 55

def storageReserveBytes (totalBytes : Option ℕ) : ℕ :=
  match finiteNonNegativeInteger totalBytes with
  | none => 0
  | some 0 => 0
  | some total =>
    min total (min storageReserveMaxBytes (max storageReserveMinBytes (tenPercent total)))

/-- **The reserve** is never more than 20 GiB, nor than the filesystem. -/
theorem storageReserveBytes_le (total : ℕ) : storageReserveBytes (some total) ≤ min total storageReserveMaxBytes := by
  unfold storageReserveBytes
  split
  · exact Nat.zero_le _
  · exact Nat.zero_le _
  · next h =>
    obtain rfl := some.inj (finiteNonNegativeInteger_eq_some.mp h).1
    omega

/-! ### The gate -/

/-- What was measured when the cap was resolved. `none` is not a safe integer. -/
structure Provenance where
  /-- `status === 'resolved'`. -/
  resolved : Bool
  (availableBytes reserveBytes : Option ℤ)

structure DiskInfo where
  (freeBytes totalBytes : Option ℕ)

/-- The options of `evaluateStorageAdmission`. -/
structure AdmissionOpts where
  (usedBytes additionalBytes committedBytes : Option ℕ)
  diskInfo : Option DiskInfo
  /-- `none` is no ceiling, and `some none` one that is not a number. -/
  capCeilingBytes : Option (Option ℕ)
  capCeilingSource : Option String

inductive Reason where
  | capacityProfileCeilingInvalid | storageUsageInvalid | storageBoundInvalid
  | storageFilesystemUnresolved
  | capacityProfileCapReached | storageCapReached | storageReserveReached | insufficientStorage

/-- What `evaluateStorageAdmission` returns. Fields that are left out are `none`. -/
structure Admission where
  allowed : Bool
  reason : Option Reason
  (capBytes operatorCapBytes : ℕ)
  capCeilingBytes : Option ℕ
  capCeilingSource : Option String
  usedBytes : ℕ
  (logicalAvailableBytes physicalAvailableBytes : Option ℕ)
  availableBytes : ℕ
  reserveBytes : Option ℤ
  additionalBytes : ℕ

/-- The cap of the operator under a ceiling. -/
def effectiveCapBytes (capBytes : ℕ) : Option ℕ → ℕ
  | none => capBytes
  | some ceiling => min capBytes ceiling

/-- The size of a disk that can be read, and what is free. -/
def DiskInfo.readable (disk : DiskInfo) : Option (ℕ × ℕ) :=
  match finiteNonNegativeInteger disk.freeBytes, positiveStorageBound disk.totalBytes with
  | some free, some total => some (total, free)
  | _, _ => none

/-- The physical bound, with the reserve. `none` is `Infinity`. -/
def physicalAvailable (provenance : Option Provenance) (diskInfo : Option DiskInfo)
    (committedBytes : ℕ) : Option ℕ × ℤ :=
  match diskInfo.bind DiskInfo.readable with
  | some (total, free) =>
    let reserveBytes := storageReserveBytes (some total)
    (some (free - reserveBytes - committedBytes), reserveBytes)
  | none =>
    match provenance.bind Provenance.availableBytes with
    | some availableBytes =>
      let reserveBytes := ((provenance.bind Provenance.reserveBytes).getD 0)
      (some (availableBytes - reserveBytes - committedBytes).toNat, reserveBytes)
    | none => (none, 0)

def availableBytes (logicalAvailable : ℕ) : Option ℕ → ℕ
  | none => logicalAvailable
  | some physicalAvailable => min logicalAvailable physicalAvailable

def refusal (usedBytes additionalBytes effectiveCapBytes : ℕ) (ceilingBinds : Bool)
    (physicalAvailable : Option ℕ) : Option Reason :=
  if effectiveCapBytes ≤ usedBytes then
    some (if ceilingBinds then .capacityProfileCapReached else .storageCapReached)
  else if physicalAvailable = some 0 then some .storageReserveReached
  else if availableBytes (effectiveCapBytes - usedBytes) physicalAvailable < additionalBytes then
    some .insufficientStorage
  else none

/-- The operator's cap and what was measured. -/
structure CapConfig where
  maxStorageBytes : Option ℕ
  provenance : Option Provenance

def evaluateStorageAdmission (config : CapConfig) (opts : AdmissionOpts) : Admission :=
  let usedBytes := finiteNonNegativeInteger opts.usedBytes
  let additionalBytes := finiteNonNegativeInteger opts.additionalBytes
  let committedBytes := finiteNonNegativeInteger opts.committedBytes
  let capBytes := positiveStorageBound config.maxStorageBytes
  let capCeilingBytes := opts.capCeilingBytes.bind finiteNonNegativeInteger
  let capCeilingSource := opts.capCeilingBytes.bind fun _ => opts.capCeilingSource
  let ceilingInvalid := opts.capCeilingBytes.isSome && capCeilingBytes.isNone
  match usedBytes, additionalBytes, committedBytes, capBytes, ceilingInvalid with
  | some used, some additional, some committed, some cap, false =>
    let effective := effectiveCapBytes cap capCeilingBytes
    if config.provenance.any fun p => !p.resolved then
      { allowed := false
        reason := some .storageFilesystemUnresolved
        capBytes := effective
        operatorCapBytes := cap
        capCeilingBytes
        capCeilingSource
        usedBytes := used
        logicalAvailableBytes := none
        physicalAvailableBytes := none
        availableBytes := 0
        reserveBytes := none
        additionalBytes := additional }
    else
      let physical := physicalAvailable config.provenance opts.diskInfo committed
      let available := availableBytes (effective - used) physical.1
      let reason := refusal used additional effective (effective < cap) physical.1
      { allowed := reason.isNone && 0 < available
        reason
        capBytes := effective
        operatorCapBytes := cap
        capCeilingBytes
        capCeilingSource
        usedBytes := used
        logicalAvailableBytes := some (effective - used)
        physicalAvailableBytes := physical.1
        availableBytes := available
        reserveBytes := some physical.2
        additionalBytes := additional }
  | _, _, _, _, _ =>
    { allowed := false
      reason := some (if ceilingInvalid then .capacityProfileCeilingInvalid
        else if usedBytes.isNone then .storageUsageInvalid else .storageBoundInvalid)
      capBytes := capBytes.getD 0
      operatorCapBytes := capBytes.getD 0
      capCeilingBytes
      capCeilingSource
      usedBytes := usedBytes.getD 0
      logicalAvailableBytes := none
      physicalAvailableBytes := none
      availableBytes := 0
      reserveBytes := none
      additionalBytes := additionalBytes.getD 0 }

/-! ### When the gate opens -/

theorem refusal_eq_none {used additional effective : ℕ} {binds : Bool} {physical : Option ℕ} :
    refusal used additional effective binds physical = none ↔
      used < effective ∧ physical ≠ some 0 ∧ additional ≤ availableBytes (effective - used) physical := by
  unfold refusal
  split
  · simp
    omega
  · split
    · simp_all
    · split <;> simp_all

theorem availableBytes_pos {logical : ℕ} {physical : Option ℕ} :
    0 < availableBytes logical physical ↔ 0 < logical ∧ physical ≠ some 0 := by
  cases physical with
  | none => simp [availableBytes]
  | some p => simp [availableBytes]; omega

structure Reads (config : CapConfig) (opts : AdmissionOpts) (used additional committed cap : ℕ)
    (ceiling : Option ℕ) : Prop where
  used : opts.usedBytes = some used ∧ used ≤ maxSafeInteger
  additional : opts.additionalBytes = some additional ∧ additional ≤ maxSafeInteger
  committed : opts.committedBytes = some committed ∧ committed ≤ maxSafeInteger
  cap : config.maxStorageBytes = some cap ∧ cap ≤ maxSafeInteger ∧ 0 < cap
  ceiling : opts.capCeilingBytes = ceiling.map some ∧ ∀ c ∈ ceiling, c ≤ maxSafeInteger
  resolved : ∀ p ∈ config.provenance, p.resolved = true

theorem ceiling_eq {given : Option (Option ℕ)} {ceiling : Option ℕ} :
    given = ceiling.map some ∧ (∀ c ∈ ceiling, c ≤ maxSafeInteger) ↔
      (given.isSome && (given.bind finiteNonNegativeInteger).isNone) = false ∧
        given.bind finiteNonNegativeInteger = ceiling := by
  cases given with
  | none => cases ceiling <;> simp
  | some given =>
    cases hread : finiteNonNegativeInteger given with
    | none =>
      cases ceiling with
      | none => simp [hread]
      | some c =>
        simp only [bind_some, hread, map_some, some.injEq, mem_some_iff, forall_eq']
        simp only [reduceCtorEq, and_false, iff_false, not_and]
        intro h hle
        rw [finiteNonNegativeInteger_eq_some.mpr ⟨h, hle⟩] at hread
        cases hread
    | some c =>
      obtain ⟨rfl, hle⟩ := finiteNonNegativeInteger_eq_some.mp hread
      cases ceiling with
      | none => simp [hread]
      | some c' =>
        simp only [map_some, some.injEq, mem_some_iff, forall_eq', hread,
          bind_some, isSome_some, isNone_some, Bool.and_false, true_and]
        exact ⟨fun h => h.1, fun h => ⟨h, h ▸ hle⟩⟩

theorem allowed_of_reads {config : CapConfig} {opts : AdmissionOpts} (used additional committed cap : ℕ)
    (ceiling : Option ℕ) (h : Reads config opts used additional committed cap ceiling) :
    (evaluateStorageAdmission config opts).allowed = true ↔
      used < effectiveCapBytes cap ceiling ∧ used + additional ≤ effectiveCapBytes cap ceiling ∧
        ∀ physical ∈ (physicalAvailable config.provenance opts.diskInfo committed).1,
          0 < physical ∧ additional ≤ physical := by
  obtain ⟨hinvalid, hceiling⟩ := ceiling_eq.mp h.ceiling
  have hresolved : (config.provenance.any fun p => !p.resolved) = false := by
    cases hp : config.provenance with
    | none => rfl
    | some p => simp [h.resolved p hp]
  have hallowed : (evaluateStorageAdmission config opts).allowed =
      ((refusal used additional (effectiveCapBytes cap ceiling) (effectiveCapBytes cap ceiling < cap)
          (physicalAvailable config.provenance opts.diskInfo committed).1).isNone &&
        decide (0 < availableBytes (effectiveCapBytes cap ceiling - used)
          (physicalAvailable config.provenance opts.diskInfo committed).1)) := by
    simp only [evaluateStorageAdmission, finiteNonNegativeInteger_eq_some.mpr h.used,
      finiteNonNegativeInteger_eq_some.mpr h.additional,
      finiteNonNegativeInteger_eq_some.mpr h.committed, positiveStorageBound_eq_some.mpr h.cap,
      hinvalid]
    simp only [hceiling, hresolved, Bool.false_eq_true, if_false]
  rw [hallowed, Bool.and_eq_true, isNone_iff_eq_none, decide_eq_true_eq, refusal_eq_none, availableBytes_pos]
  cases (physicalAvailable config.provenance opts.diskInfo committed).1 with
  | none =>
    simp only [availableBytes, ne_eq, reduceCtorEq, not_false_eq_true, not_mem_none,
      IsEmpty.forall_iff, implies_true, true_and, and_true]
    omega
  | some physical =>
    simp only [availableBytes, ne_eq, some.injEq, mem_some_iff, forall_eq']
    omega

/-- **When the gate opens**: what is used and what is asked for is within the cap and the ceiling, and
what is asked for is within the physical bound. -/
theorem allowed_iff {config : CapConfig} {opts : AdmissionOpts} :
    (evaluateStorageAdmission config opts).allowed = true ↔
      ∃ used additional committed cap ceiling, Reads config opts used additional committed cap ceiling ∧
        used < effectiveCapBytes cap ceiling ∧
        used + additional ≤ effectiveCapBytes cap ceiling ∧
        ∀ physical ∈ (physicalAvailable config.provenance opts.diskInfo committed).1,
          0 < physical ∧ additional ≤ physical := by
  constructor
  · intro h
    suffices hreads : ∃ used additional committed cap ceiling,
        Reads config opts used additional committed cap ceiling by
      obtain ⟨used, additional, committed, cap, ceiling, hreads⟩ := hreads
      exact ⟨used, additional, committed, cap, ceiling, hreads, (allowed_of_reads _ _ _ _ _ hreads).mp h⟩
    simp only [evaluateStorageAdmission] at h
    split at h
    · next used additional committed cap hused hadditional hcommitted hcap hinvalid =>
      refine ⟨used, additional, committed, cap, _, finiteNonNegativeInteger_eq_some.mp hused,
        finiteNonNegativeInteger_eq_some.mp hadditional, finiteNonNegativeInteger_eq_some.mp hcommitted,
        positiveStorageBound_eq_some.mp hcap, ceiling_eq.mpr ⟨hinvalid, rfl⟩, ?_⟩
      intro p hp
      split at h
      · cases h
      · next hresolved => simpa [mem_def.mp hp] using hresolved
    · cases h
  · rintro ⟨used, additional, committed, cap, ceiling, hreads, h⟩
    exact (allowed_of_reads _ _ _ _ _ hreads).mpr h

end HiveRelay.Storage
