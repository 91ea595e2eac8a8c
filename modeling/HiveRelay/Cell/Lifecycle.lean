import HiveRelay.Cell.WellFormed

/-!
# The life of a cell

Seven kinds of frames write the record of a slot: the two puts, a renewal, a drop, a policy change,
a collection and a compaction. `RecordStep` says what an accepted frame does to the record of one
slot, with what the frame was checked against; everything about a cell's life is read off it.

## Main definitions

* `RecordStep` — what a frame does to the record of a slot
* `CellRecord.Outlives` — what is left of a record later

## Main results

* `cell_state_machine` — the life of a cell along every stretch
-/

set_option linter.unusedSectionVars false

namespace HiveRelay.Cell

open Option

variable {B : Type} [LinearOrder B] [Zero B]

/-! ### One slot -/

/-- The slot whose record a payload writes. -/
def Payload.writtenCell? : Payload B → Option B
  | .putCommitted v => some v.storageSlot
  | .putAtomicCommitted v => some v.terms.storageSlot
  | .renewCommitted v => some v.storageSlot
  | .dropCommitted v => some v.storageSlot
  | .policyCommitted v => some v.storageSlot
  | .gcCommitted v => some v.storageSlot
  | .compact ⟨.cell, key, _⟩ => some key
  | _ => none

def Payload.createdCell? : Payload B → Option B
  | .putCommitted v => some v.storageSlot
  | .putAtomicCommitted v => some v.terms.storageSlot
  | _ => none

/-- What a frame with payload `p`, applied at an epoch floor, does to the record of slot `k`. -/
inductive RecordStep (p : Payload B) (floor : ℕ) (k : B) :
    Option (CellRecord B) → Option (CellRecord B) → Prop
  | same (o : Option (CellRecord B)) (h : p.writtenCell? ≠ some k) : RecordStep p floor k o o
  | put (r : CellRecord B) (h : p.createdCell? = some k) (present : r.objectState = .present)
      (revision : r.stateRevision = 0) : RecordStep p floor k none (some r)
  | renew (r : CellRecord B) (v : RenewCommitted B) (h : p = .renewCommitted v)
      (slot : v.storageSlot = k) (present : r.objectState = .present)
      (revision : v.newStateRevision = r.stateRevision + 1)
      (lease : r.leaseEpoch < v.newLeaseEpoch) :
      RecordStep p floor k (some r) (some (r.renewed v))
  | drop (r : CellRecord B) (v : DropCommitted B) (h : p = .dropCommitted v)
      (slot : v.storageSlot = k) (present : r.objectState = .present)
      (revision : v.newStateRevision = r.stateRevision + 1) :
      RecordStep p floor k (some r) (some (r.buried .ownerDrop v.newStateRevision v.committedEpoch))
  | policy (r : CellRecord B) (v : PolicyCommitted B) (h : p = .policyCommitted v)
      (slot : v.storageSlot = k) (present : r.objectState = .present)
      (revision : v.newPolicyRevision = r.policyRevision + 1) :
      RecordStep p floor k (some r) (some (r.withPolicy v))
  | gc (r : CellRecord B) (v : GcCommitted B) (h : p = .gcCommitted v) (slot : v.storageSlot = k)
      (present : r.objectState = .present) (revision : v.newStateRevision = r.stateRevision + 1)
      (expired : r.leaseEpoch + expiryGraceEpochs < floor) :
      RecordStep p floor k (some r) (some (r.buried .expiredGc v.newStateRevision v.tombstoneEpoch))
  | compact (r : CellRecord B) (terminal : ℕ) (h : p = .compact ⟨.cell, k, floor⟩)
      (tombstone : r.objectState = .tombstone) (buried : r.terminalEpoch = some terminal)
      (past : PastHorizon terminal floor) : RecordStep p floor k (some r) none

section Slot

variable {cfg : Config B} {s s' : State B} {frame : Frame B} {recovering : Bool}

/-- A record that is stored under its slot is what that slot holds, and the other slots hold what
they held. -/
theorem recordStep_setCell {p : Payload B} {floor : ℕ} (record : CellRecord B) (k : B)
    (hp : p.writtenCell? = some record.storageSlot)
    (hstep : RecordStep p floor record.storageSlot (s.cells.get? record.storageSlot) (some record)) :
    RecordStep p floor k (s.cells.get? k) ((s.cells.set record.storageSlot record).get? k) := by
  rw [OrderedMap.get?_set]
  by_cases hk : k = record.storageSlot
  · rw [if_pos hk, hk]
    exact hstep
  · rw [if_neg hk]
    refine .same _ ?_
    rw [hp]
    exact fun h => hk (some.inj h).symm

/-- An accepted frame is a step of every record. -/
theorem Step.recordStep (hwf : WellFormed s) (h : Step cfg s frame recovering s') (k : B) :
    RecordStep frame.payload s.epochFloor k (s.cells.get? k) (s'.cells.get? k) := by
  have quiet : ∀ o, frame.payload.writtenCell? = none → RecordStep frame.payload s.epochFloor k o o := by
    intro o hnone
    refine .same o ?_
    rw [hnone]
    exact nofun
  cases h with
  | reserve v hp h | attempt v entry r hp h => exact quiet _ (by rw [hp]; rfl)
  | put v entry r hp h =>
    have hwritten : frame.payload.writtenCell? = some r.terms.storageSlot := by
      rw [hp, h.slot]
      rfl
    refine recordStep_setCell (v.record frame entry r) k hwritten ?_
    have habsent : s.cells.get? (v.record frame entry r).storageSlot = none := by
      rw [← h.cell, ← h.slot]
      rfl
    rw [habsent]
    refine .put _ ?_ rfl rfl
    rw [hp]
    exact congrArg some h.slot.symm
  | terminate v entry r hp h => exact quiet _ (by rw [hp]; rfl)
  | renew v record hp h =>
    have hslot := hwf.record _ _ h.cell
    have hwritten : frame.payload.writtenCell? = some record.storageSlot := by
      rw [hp, hslot]
      rfl
    refine recordStep_setCell (record.renewed v) k hwritten ?_
    show RecordStep _ _ record.storageSlot (s.cells.get? record.storageSlot) _
    rw [hwf.cell_self h.cell]
    refine .renew record v hp hslot.symm h.present ?_ ?_
    · rw [h.newRevision, h.oldRevision]
    · rw [h.oldLease]
      exact h.extends_lease
  | drop v record hp h =>
    have hslot := hwf.record _ _ h.cell
    have hwritten : frame.payload.writtenCell? = some record.storageSlot := by
      rw [hp, hslot]
      rfl
    refine recordStep_setCell (record.buried .ownerDrop v.newStateRevision v.committedEpoch) k hwritten ?_
    show RecordStep _ _ record.storageSlot (s.cells.get? record.storageSlot) _
    rw [hwf.cell_self h.cell]
    refine .drop record v hp hslot.symm h.present ?_
    rw [h.newRevision, h.oldRevision]
  | policy v record hp h =>
    have hslot := hwf.record _ _ h.cell
    have hwritten : frame.payload.writtenCell? = some record.storageSlot := by
      rw [hp, hslot]
      rfl
    refine recordStep_setCell (record.withPolicy v) k hwritten ?_
    show RecordStep _ _ record.storageSlot (s.cells.get? record.storageSlot) _
    rw [hwf.cell_self h.cell]
    refine .policy record v hp hslot.symm h.present ?_
    rw [h.newRevision, h.oldRevision]
  | gc v record hp h =>
    have hslot := hwf.record _ _ h.cell
    have hwritten : frame.payload.writtenCell? = some record.storageSlot := by
      rw [hp, hslot]
      rfl
    refine recordStep_setCell (record.buried .expiredGc v.newStateRevision v.tombstoneEpoch) k hwritten ?_
    show RecordStep _ _ record.storageSlot (s.cells.get? record.storageSlot) _
    rw [hwf.cell_self h.cell]
    refine .gc record v hp hslot.symm h.present ?_ ?_
    · rw [h.newRevision, h.oldRevision]
    · rw [← h.epoch, h.oldLease]
      exact h.expired
  | floor v confirmed hp h =>
    refine quiet _ ?_
    rw [hp]
    cases confirmed <;> rfl
  | clockUnsafe v hp h => exact quiet _ (by rw [hp]; rfl)
  | compact v hp epoch h =>
    obtain ⟨kind, key, compactedEpoch⟩ := v
    cases kind with
    | cell =>
      obtain ⟨record, terminal, hrecord, hterminal, htombstone, hpast⟩ := h
      show RecordStep _ _ k _ ((s.cells.delete key).get? k)
      rw [OrderedMap.get?_delete]
      by_cases hk : k = key
      · subst hk
        rw [if_pos rfl, hrecord]
        refine .compact record terminal ?_ htombstone hterminal hpast
        rw [hp, ← epoch]
      · rw [if_neg hk]
        refine .same _ ?_
        rw [hp]
        exact fun h => hk (some.inj h).symm
    | spend =>
      obtain ⟨entry, age, hentry, -⟩ := h
      simp only [State.compacted, hentry]
      exact quiet _ (by rw [hp]; rfl)
    | requestResult => exact quiet _ (by rw [hp]; rfl)
  | integrity v hp | pinRead v hp h | finalizeRead v entry pin hp h | expireRead v entry pin hp h =>
    exact quiet _ (by rw [hp]; rfl)
  | atomicPut v hp h =>
    have hwritten : frame.payload.writtenCell? = some v.terms.storageSlot := by
      rw [hp]
      rfl
    refine recordStep_setCell (v.record frame) k hwritten ?_
    have habsent : s.cells.get? (v.record frame).storageSlot = none := h.cell
    rw [habsent]
    refine .put _ ?_ rfl rfl
    rw [hp]
    rfl

theorem Step.epochFloor (h : Step cfg s frame recovering s') : s.epochFloor ≤ s'.epochFloor ∧ (s.epochFloor ≠ 0 →
      s.epochFloor + clockMaxJumpEpochs < s'.epochFloor → ∃ v, frame.payload = .clockConfirm v) := by
  have still : ∀ floor : ℕ, floor = s.epochFloor →
      s.epochFloor ≤ floor ∧ (s.epochFloor ≠ 0 → s.epochFloor + clockMaxJumpEpochs < floor →
        ∃ v, frame.payload = .clockConfirm v) := by
    rintro floor rfl
    exact ⟨le_rfl, fun _ hfar => absurd hfar (by omega)⟩
  cases h with
  | floor v confirmed hp h =>
    refine ⟨?_, fun hzero hfar => ?_⟩
    · rw [← h.old]
      exact h.forward
    · cases confirmed with
      | true => exact ⟨v, hp⟩
      | false =>
        obtain hnot | hnear | hfirst := h.jump
        · cases hnot
        · rw [h.old] at hnear
          exact absurd hfar (not_lt.mpr hnear)
        · rw [h.old] at hfirst
          exact absurd hfirst hzero
  | compact v hp epoch h =>
    refine still _ ?_
    obtain ⟨kind, key, compactedEpoch⟩ := v
    cases kind with
    | cell => rfl
    | spend =>
      obtain ⟨entry, age, hentry, -⟩ := h
      simp only [State.compacted, hentry]
      rfl
    | requestResult => rfl
  | _ => exact still _ rfl

end Slot

/-! ### A cell along a run -/

/-- The frames that move the state revision of slot `k`: a renewal, a drop and a collection. -/
def Payload.revises (k : B) : Payload B → Bool
  | .renewCommitted v => v.storageSlot = k
  | .dropCommitted v => v.storageSlot = k
  | .gcCommitted v => v.storageSlot = k
  | _ => false

/-- The frames that move the policy revision of slot `k`. -/
def Payload.setsPolicy (k : B) : Payload B → Bool
  | .policyCommitted v => v.storageSlot = k
  | _ => false

/-- The frames that remove slot `k`. -/
def Payload.compactsCell (k : B) : Payload B → Bool
  | .compact ⟨.cell, key, _⟩ => key = k
  | _ => false

theorem Payload.not_counted {p : Payload B} {k : B} (h : p.writtenCell? ≠ some k) :
    p.revises k = false ∧ p.setsPolicy k = false := by
  have hne : ∀ slot, p.writtenCell? = some slot → slot ≠ k := by
    rintro slot hslot rfl
    exact h hslot
  cases p with
  | renewCommitted v | dropCommitted v | gcCommitted v => exact ⟨decide_eq_false (hne _ rfl), rfl⟩
  | policyCommitted v => exact ⟨rfl, decide_eq_false (hne _ rfl)⟩
  | _ => exact ⟨rfl, rfl⟩

section Record

variable {p : Payload B} {floor : ℕ} {k : B} {r r' : CellRecord B}

theorem RecordStep.revisions (h : RecordStep p floor k (some r) (some r')) :
    r'.stateRevision = r.stateRevision + (if p.revises k then 1 else 0) ∧
      r'.policyRevision = r.policyRevision + (if p.setsPolicy k then 1 else 0) := by
  cases h with
  | same o h =>
    obtain ⟨hrevises, hpolicy⟩ := p.not_counted h
    simp [hrevises, hpolicy]
  | renew r v h slot present revision lease =>
    subst h
    simp [CellRecord.renewed, Payload.revises, Payload.setsPolicy, slot, revision]
  | drop r v h slot present revision =>
    subst h
    simp [CellRecord.buried, Payload.revises, Payload.setsPolicy, slot, revision]
  | policy r v h slot present revision =>
    subst h
    simp [CellRecord.withPolicy, Payload.revises, Payload.setsPolicy, slot, revision]
  | gc r v h slot present revision expired =>
    subst h
    simp [CellRecord.buried, Payload.revises, Payload.setsPolicy, slot, revision]

/-- What time does to a record: leases and revisions do not fall, and a tombstone stays one. -/
structure CellRecord.Outlives (r r' : CellRecord B) : Prop where
  lease : r.leaseEpoch ≤ r'.leaseEpoch
  stateRevision : r.stateRevision ≤ r'.stateRevision
  policyRevision : r.policyRevision ≤ r'.policyRevision
  tombstone : r.objectState = .tombstone → r'.objectState = .tombstone

theorem CellRecord.Outlives.refl (r : CellRecord B) : r.Outlives r :=
  ⟨le_rfl, le_rfl, le_rfl, id⟩

theorem CellRecord.Outlives.trans {r'' : CellRecord B} (h : r.Outlives r')
    (h' : r'.Outlives r'') : r.Outlives r'' where
  lease := h.lease.trans h'.lease
  stateRevision := h.stateRevision.trans h'.stateRevision
  policyRevision := h.policyRevision.trans h'.policyRevision
  tombstone := h'.tombstone ∘ h.tombstone

theorem RecordStep.outlives (h : RecordStep p floor k (some r) (some r')) : r.Outlives r' := by
  obtain ⟨hstate, hpolicy⟩ := h.revisions
  refine ⟨?_, by omega, by omega, ?_⟩
  · cases h with
    | renew r v h slot present revision lease => exact lease.le
    | _ => exact le_rfl
  · intro htombstone
    cases h with
    | same o h => exact htombstone
    | renew r v h slot present | policy r v h slot present => exact absurd (present.symm.trans htombstone) nofun
    | drop r v h slot present | gc r v h slot present => rfl

theorem RecordStep.removed (h : RecordStep p floor k (some r) none) :
    p.compactsCell k = true ∧ r.objectState = .tombstone ∧ ∃ terminal, r.terminalEpoch = some terminal ∧
        terminal + retentionHorizonEpochs < floor := by
  cases h with
  | compact r terminal h tombstone buried past =>
    subst h
    exact ⟨decide_eq_true rfl, tombstone, terminal, buried, past⟩

theorem RecordStep.counted {o o' : Option (CellRecord B)} (h : RecordStep p floor k o o')
    (hcounts : p.revises k = true ∨ p.setsPolicy k = true) :
    ∃ r r', o = some r ∧ o' = some r' := by
  cases h with
  | same o h =>
    obtain ⟨hrevises, hpolicy⟩ := p.not_counted h
    rw [hrevises, hpolicy] at hcounts
    obtain h | h := hcounts <;> cases h
  | put r h present revision =>
    cases p <;> cases h <;> obtain h | h := hcounts <;> cases h
  | compact r terminal h tombstone buried past =>
    subst h
    obtain h | h := hcounts <;> cases h
  | renew r v | drop r v | policy r v | gc r v => exact ⟨r, _, rfl, rfl⟩

theorem RecordStep.collected {o o' : Option (CellRecord B)} {v : GcCommitted B}
    (h : RecordStep (.gcCommitted v) floor v.storageSlot o o') :
    ∃ r, o = some r ∧ r.leaseEpoch + expiryGraceEpochs < floor ∧ publiclyVisible o floor = none := by
  cases h with
  | same o h => exact absurd rfl h
  | put r h => cases h
  | gc r v' h slot present revision expired =>
    refine ⟨r, rfl, expired, ?_⟩
    rw [publiclyVisible, filter_some, if_neg]
    intro hvisible
    exact absurd (of_decide_eq_true hvisible).2.2 (not_le.mpr expired)
  | renew r v' h | drop r v' h | policy r v' h | compact r terminal h => cases h

end Record

section Run

variable {cfg : Config B} {s s' : State B}

variable {moves : List (Application B)}

theorem wellFormed_of_frames (hs : WellFormed s) (h : run (frameStep cfg) s moves = some s') : WellFormed s' :=
  frames_invariant WellFormed (fun _ _ _ _ hs hcanonical hstep => wellFormed_step hs hcanonical hstep) hs h

theorem step_of_frameStep {m : Application B} (h : frameStep cfg s m = some s') :
    Step cfg s m.frame m.recovering s' :=
  applyPayload_eq_ok_iff.mp (applyFrame_eq_ok.mp (frameStep_eq_some.mp h)).2.1

theorem epochFloor_le_of_frames (h : run (frameStep cfg) s moves = some s') : s.epochFloor ≤ s'.epochFloor := by
  refine run_preserves (fun t : State B => s.epochFloor ≤ t.epochFloor) ?_ le_rfl h
  intro t m t' ht hm
  exact ht.trans (step_of_frameStep hm).epochFloor.1

theorem outlives_of_frames {k : B} {r : CellRecord B} (hs : WellFormed s) (h : run (frameStep cfg) s moves = some s')
    (hr : s.cells.get? k = some r)
    (hkept : ∀ m ∈ moves, m.frame.payload.compactsCell k = false) :
    ∃ r', s'.cells.get? k = some r' ∧ r.Outlives r' := by
  induction moves generalizing s r with
  | nil =>
    cases h
    exact ⟨r, hr, .refl r⟩
  | cons m moves ih =>
    obtain ⟨s₁, hm, hrest⟩ := run_cons.mp h
    have hone : run (frameStep cfg) s [m] = some s₁ := run_cons.mpr ⟨s₁, hm, rfl⟩
    have hwf : WellFormed s₁ := wellFormed_of_frames hs hone
    have hrecord := (step_of_frameStep hm).recordStep hs k
    rw [hr] at hrecord
    cases hr₁ : s₁.cells.get? k with
    | none =>
      rw [hr₁] at hrecord
      have hcompacts := hrecord.removed.1
      rw [hkept m List.mem_cons_self] at hcompacts
      cases hcompacts
    | some r₁ =>
      rw [hr₁] at hrecord
      obtain ⟨r', hr', hlater⟩ := ih hwf hrest hr₁ fun m hm => hkept m (List.mem_cons_of_mem _ hm)
      exact ⟨r', hr', hrecord.outlives.trans hlater⟩

/-- **The life of a cell.** Along every stretch of every run the epoch floor does not fall, and a
record that no frame of the stretch compacts is still there, with no smaller lease and revisions and
a tombstone if it was one. A single frame moves the state revision of a slot by one if it renews,
drops or collects it and by none otherwise, and so for the policy revision; it removes a record only
by compacting a tombstone past its horizon; it collects only a record that is out of its grace period
and so not visible; and it moves a floor that is set by more than four epochs only if it confirms the
clock. -/
theorem cell_state_machine {pre stretch : List (Application B)} (hpre : run (frameStep cfg) (.empty B) pre = some s)
    (hstretch : run (frameStep cfg) s stretch = some s') :
    s.epochFloor ≤ s'.epochFloor ∧ (∀ k r, s.cells.get? k = some r →
        (∀ m ∈ stretch, m.frame.payload.compactsCell k = false) → ∃ r', s'.cells.get? k = some r' ∧ r.Outlives r') ∧
      ∀ m, stretch = [m] → (∀ k, m.frame.payload.revises k = true ∨ m.frame.payload.setsPolicy k = true →
          ∃ r r', s.cells.get? k = some r ∧ s'.cells.get? k = some r') ∧
        (∀ k r r', s.cells.get? k = some r → s'.cells.get? k = some r' →
          r'.stateRevision = r.stateRevision + (if m.frame.payload.revises k then 1 else 0) ∧ r'.policyRevision =
              r.policyRevision + (if m.frame.payload.setsPolicy k then 1 else 0)) ∧
        (∀ k r, s.cells.get? k = some r → s'.cells.get? k = none →
          m.frame.payload.compactsCell k = true ∧ r.objectState = .tombstone ∧
            ∃ terminal, r.terminalEpoch = some terminal ∧ terminal + 1460 < s.epochFloor) ∧
        (∀ v, m.frame.payload = .gcCommitted v →
          ∃ r, s.cells.get? v.storageSlot = some r ∧ r.leaseEpoch + 4 < s.epochFloor ∧
            publiclyVisible (s.cells.get? v.storageSlot) s.epochFloor = none) ∧
        (s.epochFloor ≠ 0 → s.epochFloor + 4 < s'.epochFloor → ∃ v, m.frame.payload = .clockConfirm v) := by
  have hwf : WellFormed s := wellFormed_of_frames wellFormed_empty hpre
  refine ⟨epochFloor_le_of_frames hstretch, ?_, ?_⟩
  · intro k r hr hkept
    exact outlives_of_frames hwf hstretch hr hkept
  rintro m rfl
  obtain ⟨s₁, hm, hnil⟩ := run_cons.mp hstretch
  cases hnil
  have hstep := step_of_frameStep hm
  have hrecord := fun k => hstep.recordStep hwf k
  refine ⟨?_, ?_, ?_, ?_, hstep.epochFloor.2⟩
  · intro k hcounts
    exact (hrecord k).counted hcounts
  · intro k r r' hr hr'
    have h := hrecord k
    rw [hr, hr'] at h
    exact h.revisions
  · intro k r hr hr'
    have h := hrecord k
    rw [hr, hr'] at h
    exact h.removed
  · intro v hv
    have h := hrecord v.storageSlot
    rw [hv] at h
    exact h.collected

end Run

/-- The frame that suppresses the sample cell. -/
def samplePolicy : Application ℕ :=
  ⟨sampleFrame 5 (sampleSlot % 16) (.policyCommitted ⟨sampleSlot, 0, 1, .suppressed, 10⟩), .empty, false⟩

/-- The sample cell is suppressed, and its policy revision moves by one. -/
theorem samplePolicy_counted : ∃ s s', run (frameStep sampleConfig) (.empty ℕ)
        (sampleFrames.map fun f => ⟨f, .empty, false⟩) = some s ∧
      run (frameStep sampleConfig) s [samplePolicy] = some s' ∧
      ∃ r r', s.cells.get? sampleSlot = some r ∧ s'.cells.get? sampleSlot = some r' ∧
        r'.policyRevision = r.policyRevision + 1 := by
  have haccepted : ∃ s', run (frameStep sampleConfig) (.empty ℕ)
      ((sampleFrames.map fun f => ⟨f, .empty, false⟩) ++ [samplePolicy]) = some s' :=
    isSome_iff_exists.mp (by decide)
  obtain ⟨s', hs'⟩ := haccepted
  obtain ⟨s, hs, hpolicy⟩ := run_append.mp hs'
  obtain ⟨hcounted, hrevisions, -⟩ := (cell_state_machine hs hpolicy).2.2 _ rfl
  obtain ⟨r, r', hr, hr'⟩ := hcounted sampleSlot (.inr (by decide))
  refine ⟨s, s', hs, hpolicy, r, r', hr, hr', ?_⟩
  exact (hrevisions sampleSlot r r' hr hr').2

end HiveRelay.Cell
