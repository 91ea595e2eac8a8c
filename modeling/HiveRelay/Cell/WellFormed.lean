import Mathlib.Data.Nat.Pairing
import HiveRelay.Cell.Transitions
import HiveRelay.Lib.Run

/-!
# Sequences of frames, and the shape of the maps

A sequence of frames that `#applyFrame` accepts one after the other, each with the ledger of the
atomic puts at its time and with the `recovering` flag it is applied under, is a run of `frameStep`.
This file has the induction every invariant of the engine's state goes through, and the first such
invariant: entries and records are stored under their own keys, a reservation declares the bytes of
its size class and has no age, and a live pin has a control charge.
-/

set_option linter.unusedSectionVars false

namespace HiveRelay.Cell

open OrderedMap

variable {B : Type} [LinearOrder B] [Zero B]

/-! ### Sequences of frames -/

/-- One call of `#applyFrame`. -/
structure Application (B : Type) where
  frame : Frame B
  staging : AtomicStaging := .empty
  recovering : Bool := false

/-- The state after an accepted frame. -/
def frameStep (cfg : Config B) (s : State B) (m : Application B) : Option (State B) :=
  (applyFrame cfg s m.frame m.staging m.recovering).toOption

variable {cfg : Config B} {s' : State B}

theorem frameStep_eq_some {s : State B} {m : Application B} :
    frameStep cfg s m = some s' ↔ applyFrame cfg s m.frame m.staging m.recovering = .ok s' := by
  unfold frameStep
  cases applyFrame cfg s m.frame m.staging m.recovering <;> simp [Except.toOption]

theorem frames_invariant (invariant : State B → Prop)
    (hstep : ∀ s frame recovering s', invariant s → frame.payload.Canonical →
      Step cfg s frame recovering s' → invariant s')
    {s : State B} {moves : List (Application B)} (hs : invariant s)
    (hrun : run (frameStep cfg) s moves = some s') : invariant s' := by
  refine run_preserves invariant ?_ hs hrun
  intro s m s' hs hm
  have h := applyFrame_eq_ok.mp (frameStep_eq_some.mp hm)
  exact hstep s m.frame m.recovering s' hs h.1 (applyPayload_eq_ok_iff.mp h.2.1)

/-! ### The shape of the maps -/

structure EntryWellFormed (key : B) (entry : SpendEntry B) : Prop where
  key_eq : entry.spendTag = key
  declared : ∀ r, entry.state = .reserved r → r.terms.declaredBytes = cellSizeClass r.terms.sizeClass ∧
      1 ≤ r.terms.sizeClass ∧ r.terms.sizeClass ≤ 5
  ageless : ∀ r, entry.state = .reserved r → entry.ageEpoch = none
  charged : ∀ pin, entry.livePin? = some pin → pin.controlBytes ≠ 0

/-- Entries and records are stored under their own keys and are consistent in themselves. -/
structure WellFormed (s : State B) : Prop where
  entry : ∀ k e, s.spends.get? k = some e → EntryWellFormed k e
  record : ∀ k r, s.cells.get? k = some r → r.storageSlot = k

theorem wellFormed_empty : WellFormed (State.empty B) where
  entry := by
    intro k e h
    cases h
  record := by
    intro k r h
    cases h

section Preservation

variable {s : State B}

theorem WellFormed.cell_self (hs : WellFormed s) {k : B} {r : CellRecord B}
    (h : s.cells.get? k = some r) : s.cells.get? r.storageSlot = some r := by
  rw [hs.record k r h]
  exact h

theorem WellFormed.spend_self (hs : WellFormed s) {k : B} {e : SpendEntry B}
    (h : s.spends.get? k = some e) : s.spends.get? e.spendTag = some e := by
  rw [(hs.entry k e h).key_eq]
  exact h

theorem WellFormed.setEntry (hs : WellFormed s) {e : SpendEntry B}
    (he : EntryWellFormed e.spendTag e) (k : B) (e' : SpendEntry B)
    (h : (s.spends.set e.spendTag e).get? k = some e') : EntryWellFormed k e' := by
  rw [get?_set] at h
  split at h
  · next hk =>
    rw [hk, ← Option.some.inj h]
    exact he
  · exact hs.entry k e' h

theorem WellFormed.setRecord (hs : WellFormed s) (record : CellRecord B) (k : B)
    (r : CellRecord B) (h : (s.cells.set record.storageSlot record).get? k = some r) :
    r.storageSlot = k := by
  rw [get?_set] at h
  split at h
  · next hk => rw [hk, ← Option.some.inj h]
  · exact hs.record k r h

theorem WellFormed.deleteEntry (hs : WellFormed s) (key k : B) (e : SpendEntry B)
    (h : (s.spends.delete key).get? k = some e) : EntryWellFormed k e := by
  rw [get?_delete] at h
  split at h
  · cases h
  · exact hs.entry k e h

theorem WellFormed.deleteRecord (hs : WellFormed s) (key k : B) (r : CellRecord B)
    (h : (s.cells.delete key).get? k = some r) : r.storageSlot = k := by
  rw [get?_delete] at h
  split at h
  · cases h
  · exact hs.record k r h

theorem EntryWellFormed.of_settled {key : B} {entry : SpendEntry B} (hkey : entry.spendTag = key)
    (hreserved : ∀ r, entry.state ≠ .reserved r) (hlive : entry.livePin? = none) :
    EntryWellFormed key entry where
  key_eq := hkey
  declared := fun r h => absurd h (hreserved r)
  ageless := fun r h => absurd h (hreserved r)
  charged := by
    intro pin h
    rw [hlive] at h
    cases h

theorem declared_of_canonical {terms : PutTerms B} (hcanonical : terms.Canonical)
    (hsize : cellSizeClass terms.sizeClass = terms.declaredBytes) :
    terms.declaredBytes = cellSizeClass terms.sizeClass ∧ 1 ≤ terms.sizeClass ∧ terms.sizeClass ≤ 5 :=
  ⟨hsize.symm, hcanonical.2.1⟩

theorem wellFormed_step {frame : Frame B} {recovering : Bool}
    (hs : WellFormed s) (hcanonical : frame.payload.Canonical)
    (h : Step cfg s frame recovering s') : WellFormed s' := by
  cases h with
  | reserve v hp h =>
    rw [hp] at hcanonical
    refine ⟨hs.setEntry (e := v.entry frame) ⟨rfl, ?_, fun _ _ => rfl, ?_⟩, hs.record⟩
    · rintro r ⟨⟩
      exact declared_of_canonical hcanonical.1 h.terms.size
    · rintro pin ⟨⟩
  | attempt v entry r hp h =>
    have he := hs.entry _ _ h.reservation.spend
    refine ⟨hs.setEntry ⟨rfl, ?_, fun _ _ => he.ageless r h.reservation.state, ?_⟩, hs.record⟩
    · rintro r' ⟨⟩
      exact he.declared r h.reservation.state
    · rintro pin ⟨⟩
  | put v entry r hp h =>
    refine ⟨hs.setEntry (.of_settled rfl ?_ rfl), hs.setRecord _⟩
    rintro r' ⟨⟩
  | terminate v entry r hp h =>
    refine ⟨hs.setEntry (.of_settled rfl ?_ rfl), hs.record⟩
    rintro r' ⟨⟩
  | renew v record hp h =>
    refine ⟨fun k e hk => hs.setEntry (.of_settled rfl ?_ rfl) k e hk, hs.setRecord _⟩
    rintro r' ⟨⟩
  | drop v record hp h | policy v record hp h | gc v record hp h => exact ⟨hs.entry, hs.setRecord _⟩
  | floor v confirmed hp h | clockUnsafe v hp h => exact ⟨hs.entry, hs.record⟩
  | compact v hp epoch h =>
    obtain ⟨kind, key, compactedEpoch⟩ := v
    cases kind with
    | cell => exact ⟨hs.entry, hs.deleteRecord key⟩
    | spend =>
      obtain ⟨entry, age, hentry, -⟩ := h
      simp only [State.compacted, hentry]
      exact ⟨hs.deleteEntry key, hs.record⟩
    | requestResult => exact ⟨hs.entry, hs.record⟩
  | integrity v hp => exact ⟨hs.entry, hs.record⟩
  | pinRead v hp h =>
    refine ⟨hs.setEntry (e := v.entry frame) ⟨rfl, ?_, ?_, ?_⟩, hs.record⟩
    · rintro r ⟨⟩
    · rintro r ⟨⟩
    · rintro pin ⟨⟩
      exact Nat.succ_ne_zero _
  | finalizeRead v entry pin hp h =>
    have he := hs.entry _ _ h.spend
    refine ⟨hs.setEntry ⟨rfl, ?_, ?_, ?_⟩, hs.record⟩
    · rintro r ⟨⟩
    · rintro r ⟨⟩
    · rintro pin' ⟨⟩
      exact he.charged pin (livePin?_eq_some.mpr (.inl h.state))
  | expireRead v entry pin hp h =>
    refine ⟨hs.setEntry (.of_settled rfl ?_ rfl), hs.record⟩
    rintro r ⟨⟩
  | atomicPut v hp h =>
    refine ⟨fun k e hk => hs.setEntry (.of_settled rfl ?_ rfl) k e hk, hs.setRecord _⟩
    rintro r ⟨⟩

end Preservation

/-! ### A sample log

A configuration over the naturals, and the first frames of a store: the floor is set, a cell is
reserved, an attempt is consumed and the cell is put. -/

/-- Hashes that are injective where the engine relies on it. -/
def sampleHashes : Hashes ℕ where
  cellStorageSlot := fun allocationEpoch createPublicKey =>
    Nat.pair allocationEpoch createPublicKey + 1
  allocationCommitment := fun allocation => allocation.storageSlot + 1
  cellPutRequestCommitment := fun allocationCommitment clientNonce =>
    3 * Nat.pair allocationCommitment clientNonce + 1
  cellManageRequestCommitment := fun m =>
    match m.operation with
    | .cellRenew => 3 * Nat.pair m.storageSlot m.expectedRevision + 2
    | .cellDrop => 3 * Nat.pair m.storageSlot m.expectedRevision + 3
  requestFingerprint := fun _ => 1
  resultIdentity := fun parts => parts.leaseEpoch + 1
  preparedHash := fun prepared => prepared.spendTag + 1
  locatorCommitment := fun slot => slot + 1
  evidenceHash := fun failures => failures.length + 1
  virtualBucket := fun slot => slot % 16
  verifyEd25519 := fun _ _ _ => true

/-- A configuration with the default quotas. -/
def sampleConfig : Config ℕ where
  hashes := sampleHashes
  relayPublicKey := 7
  storeId := none
  durabilityContinuityHash := 8
  durabilityProfileHash := none
  reservationMillis := 900000
  quota :=
    { maxStoredBytes := 1073741824
      maxStagingBytes := 67108864
      maxStagingBytesPerProfile := 33554432
      maxControlBytes := 268435456
      maxTombstoneBytes := 268435456
      maxCells := 1000000
      maxStartupReferences := 1000000 }

def sampleSlot : ℕ := sampleHashes.cellStorageSlot 10 31

/-- The commitment of the sample put. -/
def sampleCommitment : ℕ := sampleHashes.cellPutRequestCommitment (sampleSlot + 1) 0

def sampleAdmission : PreparedAdmission ℕ where
  spendTag := 21
  requestCommitment := sampleCommitment
  profileId := 1
  schemeId := 1
  parameterHash := 5
  resourceClass := 1
  leaseClass := 1
  costUnits := 1
  walCommitRecord := [0]

def sampleTerms : PutTerms ℕ where
  storageSlot := sampleSlot
  allocationEpoch := 10
  sizeClass := 1
  leaseClass := 1
  declaredBlobHash := 41
  createPublicKey := 31
  renewPublicKey := 32
  dropPublicKey := 33
  allocationCommitment := sampleSlot + 1
  profileId := 1
  preparedAdmission := sampleAdmission
  resultBinding := none
  declaredBytes := 4096

/-- Frame number `sequence` of the sample log. -/
def sampleFrame (sequence virtualBucket : ℕ) (payload : Payload ℕ) : Frame ℕ where
  transactionId := 51
  virtualBucket := virtualBucket
  payload := payload
  sequence := sequence

def sampleFrames : List (Frame ℕ) :=
  [sampleFrame 1 0 (.floorAdvance ⟨0, 10⟩), sampleFrame 2 (sampleSlot % 16) (.ingressReserved
      { spendTag := 21
        requestCommitment := sampleCommitment
        requestFingerprint := 1
        terms := sampleTerms
        deadlineUnixMillis := 900000
        reservedEpoch := 10 }),
    sampleFrame 3 (sampleSlot % 16) (.attemptConsumed ⟨21, sampleCommitment, 1⟩),
    sampleFrame 4 (sampleSlot % 16) (.putCommitted
      { spendTag := 21
        requestCommitment := sampleCommitment
        requestFingerprint := 1
        storageSlot := sampleSlot
        blobObjectId := 61
        leaseEpoch := 14
        resultBinding := none
        resultIdentity := 15
        committedEpoch := 10 })]

theorem sampleFrames_accepted :
    ∃ s, run (frameStep sampleConfig) (State.empty ℕ) (sampleFrames.map fun f => ⟨f, .empty, false⟩) =
      some s :=
  Option.isSome_iff_exists.mp (by decide)

end HiveRelay.Cell
