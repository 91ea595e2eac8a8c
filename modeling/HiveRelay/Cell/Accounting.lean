import Mathlib.Tactic.IntervalCases
import HiveRelay.Cell.WellFormed

/-!
# The counters are sums over the maps

`accounting` is never recomputed while the engine runs: each transition adjusts the counters it
affects by the amounts it knows. Here every counter is written as a sum over the maps, and the
transitions are shown to keep the two equal: what a transition adds to or takes from a counter is
exactly the difference between the new and the old share of the one entry it touches.

The six kinds of counter, one of them a family over the admission profiles, are one family over
`Counter`, so that a transition's effect on all of them is one statement.

## Main definitions

* `Counted` — every counter is the sum of its shares

## Main results

* `counters_are_sums` — so it is after every run
-/

set_option linter.unusedSectionVars false

namespace HiveRelay.Cell

open OrderedMap List

variable {B : Type} [LinearOrder B] [Zero B]

/-! ### Counters and shares -/

/-- The counters of `accounting`. -/
inductive Counter where
  | storedBytes | stagingBytes | controlBytes | tombstoneBytes | reservedCells
  | stagingByProfile (profileId : ℕ)

/-- The value of a counter; a profile without an entry counts zero. -/
def Accounting.counter (a : Accounting) : Counter → ℤ
  | .storedBytes => a.storedBytes
  | .stagingBytes => a.stagingBytes
  | .controlBytes => a.controlBytes
  | .tombstoneBytes => a.tombstoneBytes
  | .reservedCells => a.reservedCells
  | .stagingByProfile profileId => (a.stagingByProfile.get? profileId).getD 0

/-- What a reservation holds of a counter. -/
def Reservation.share (r : Reservation B) : Counter → ℤ
  | .storedBytes => 0
  | .stagingBytes => r.terms.declaredBytes
  | .controlBytes => 0
  | .tombstoneBytes => tombstoneRecordBytes
  | .reservedCells => 1
  | .stagingByProfile profileId => if r.terms.profileId = profileId then r.terms.declaredBytes else 0

/-- What control bytes are of a counter. -/
def controlShare (bytes : ℤ) : Counter → ℤ
  | .controlBytes => bytes
  | _ => 0

/-- What a spend contributes to a counter: its control bytes, and what it holds if it is
reserved. -/
def SpendEntry.share (e : SpendEntry B) (c : Counter) : ℤ :=
  match e.reservation? with
  | some r => controlShare e.controlBytes c + r.share c
  | none => controlShare e.controlBytes c

/-- What a cell contributes to a counter: its bytes while it is present, and a tombstone record from
the beginning. -/
def CellRecord.share (r : CellRecord B) : Counter → ℤ
  | .storedBytes => if r.objectState = .present then cellSizeClass r.sizeClass else 0
  | .tombstoneBytes => tombstoneRecordBytes
  | _ => 0

/-- A counter, recomputed from the maps. -/
def State.recomputed (s : State B) (c : Counter) : ℤ :=
  (s.spends.sumBy fun _ e => e.share c) + s.cells.sumBy fun _ r => r.share c

/-- The counters are the recomputed ones, and no profile has an entry that is zero. -/
structure Counted (s : State B) : Prop where
  counter : ∀ c, s.accounting.counter c = s.recomputed c
  nonzero : ∀ profileId, s.accounting.stagingByProfile.get? profileId ≠ some 0

theorem counted_empty : Counted (State.empty B) where
  counter := by
    intro c
    cases c <;> rfl
  nonzero := by
    rintro profileId ⟨⟩

/-! ### Shares of the entries that transitions write -/

section Shares

variable {e : SpendEntry B} {r : Reservation B} {pin : ReadPin B}

theorem share_of_reserved (h : e.state = .reserved r) (c : Counter) :
    e.share c = controlShare controlRecordBytes c + r.share c := by
  have hcontrol : e.controlBytes = controlRecordBytes := by
    rw [SpendEntry.controlBytes, SpendEntry.livePin?, h]
  rw [SpendEntry.share, reservation?_eq_some.mpr h, hcontrol]

theorem share_of_not_reserved (h : e.reservation? = none) (c : Counter) :
    e.share c = controlShare e.controlBytes c := by
  rw [SpendEntry.share, h]

theorem reservation?_of_livePin (h : e.livePin? = some pin) : e.reservation? = none := by
  rcases livePin?_eq_some.mp h with hstate | ⟨c, hstate⟩ <;>
    rw [SpendEntry.reservation?, hstate]

theorem share_of_livePin (h : e.livePin? = some pin) (hcharged : pin.controlBytes ≠ 0)
    (c : Counter) : e.share c = controlShare pin.controlBytes c := by
  rw [share_of_not_reserved (reservation?_of_livePin h), SpendEntry.controlBytes, h]
  exact congrArg (fun n : ℕ => controlShare n c) (if_neg hcharged)

theorem reservation?_of_aged {key : B} {epoch : ℕ} (he : EntryWellFormed key e)
    (hage : e.ageEpoch = some epoch) : e.reservation? = none := by
  cases h : e.reservation? with
  | none => rfl
  | some r =>
    rw [he.ageless r (reservation?_eq_some.mp h)] at hage
    cases hage

theorem Reservation.share_nonneg (r : Reservation B) (c : Counter) : 0 ≤ r.share c := by
  cases c with
  | stagingByProfile profileId =>
    unfold Reservation.share
    split <;> omega
  | _ => simp [Reservation.share]

theorem controlShare_nonneg (n : ℕ) (c : Counter) : 0 ≤ controlShare n c := by
  cases c <;> simp [controlShare]

theorem SpendEntry.share_nonneg (e : SpendEntry B) (c : Counter) : 0 ≤ e.share c := by
  unfold SpendEntry.share
  split
  · exact add_nonneg (controlShare_nonneg _ c) (Reservation.share_nonneg _ c)
  · exact controlShare_nonneg _ c

theorem CellRecord.share_nonneg (r : CellRecord B) (c : Counter) : 0 ≤ r.share c := by
  unfold CellRecord.share
  split
  · split <;> omega
  · exact Int.natCast_nonneg _
  · exact le_rfl

theorem recomputed_nonneg (s : State B) (c : Counter) : 0 ≤ s.recomputed c :=
  add_nonneg (sumBy_nonneg fun _ e _ => e.share_nonneg c)
    (sumBy_nonneg fun _ r _ => r.share_nonneg c)

end Shares

/-! ### Updates of one entry -/

variable {e : SpendEntry B} {r : CellRecord B}

section Updates

variable {s : State B} {a : Accounting}

theorem Counted.moved (hs : Counted s) {s' : State B} (δ : Counter → ℤ)
    (hmaps : ∀ c, s'.recomputed c = s.recomputed c + δ c)
    (hcounter : ∀ c, s'.accounting.counter c = s.accounting.counter c + δ c)
    (hnonzero : ∀ p, s'.accounting.stagingByProfile.get? p ≠ some 0) : Counted s' where
  counter := fun c => by rw [hcounter c, hs.counter c, hmaps c]
  nonzero := hnonzero

theorem recomputed_addSpend (hnew : s.spends.get? e.spendTag = none)
    (c : Counter) : (s.addSpend e).recomputed c = s.recomputed c + e.share c := by
  have hsum := sumBy_set_of_get?_eq_none (v := e) (fun _ e => e.share c) hnew
  simp only [State.recomputed, State.addSpend]
  omega

theorem recomputed_setSpend {e' : SpendEntry B} (hold : s.spends.get? e'.spendTag = some e) (c : Counter) :
    (s.setSpend e').recomputed c = s.recomputed c + (e'.share c - e.share c) := by
  have hsum := sumBy_set_of_get? (fun _ e => e.share c) e' hold
  simp only [State.recomputed, State.setSpend]
  omega

theorem recomputed_addCell (hnew : s.cells.get? r.storageSlot = none)
    (c : Counter) : (s.setCell r).recomputed c = s.recomputed c + r.share c := by
  have hsum := sumBy_set_of_get?_eq_none (v := r) (fun _ r => r.share c) hnew
  simp only [State.recomputed, State.setCell]
  omega

theorem recomputed_setCell (r' : CellRecord B) (hold : s.cells.get? r'.storageSlot = some r) (c : Counter) :
    (s.setCell r').recomputed c = s.recomputed c + (r'.share c - r.share c) := by
  have hsum := sumBy_set_of_get? (fun _ r => r.share c) r' hold
  simp only [State.recomputed, State.setCell]
  omega

@[simp] theorem recomputed_setAccounting (c : Counter) : (s.setAccounting a).recomputed c = s.recomputed c := rfl

theorem counter_reserve (r : Reservation B) (c : Counter) : (a.reserve r.terms).counter c =
      a.counter c + (controlShare controlRecordBytes c + r.share c) := by
  cases c with
  | stagingByProfile profileId =>
    simp only [Accounting.counter, Accounting.reserve, get?_set, Reservation.share, controlShare]
    by_cases h : profileId = r.terms.profileId
    · simp [h]
    · have h' : r.terms.profileId ≠ profileId := fun hne => h hne.symm
      simp [h, h']
  | _ => simp [Accounting.counter, Accounting.reserve, Reservation.share, controlShare]

theorem counter_releaseStaging (r : Reservation B) (c : Counter) :
    (a.releaseStaging r.terms).counter c = a.counter c -
      match c with
      | .stagingBytes | .stagingByProfile _ => r.share c
      | _ => 0 := by
  cases c with
  | stagingByProfile profileId =>
    simp only [Accounting.counter, Accounting.releaseStaging, Reservation.share]
    by_cases h : profileId = r.terms.profileId
    · subst h
      split
      · next hzero => simp [hzero]
      · simp
    · have h' : r.terms.profileId ≠ profileId := fun hne => h hne.symm
      rw [if_neg h', sub_zero]
      split
      · rw [get?_delete_of_ne h]
      · rw [get?_set_of_ne h]
  | _ => simp [Accounting.counter, Accounting.releaseStaging, Reservation.share]

theorem nonzero_releaseStaging {terms : PutTerms B} (h : ∀ p, a.stagingByProfile.get? p ≠ some 0) (p : ℕ) :
    (a.releaseStaging terms).stagingByProfile.get? p ≠ some 0 := by
  simp only [Accounting.releaseStaging]
  split
  · rw [get?_delete]
    split
    · simp
    · exact h p
  · next hne =>
    rw [get?_set]
    split
    · exact fun h => hne (Option.some.inj h)
    · exact h p

theorem nonzero_reserve {r : Reservation B} (h : ∀ p, a.stagingByProfile.get? p ≠ some 0)
    (hnonneg : 0 ≤ a.counter (.stagingByProfile r.terms.profileId))
    (hbytes : 0 < r.terms.declaredBytes) (p : ℕ) :
    (a.reserve r.terms).stagingByProfile.get? p ≠ some 0 := by
  simp only [Accounting.reserve, get?_set]
  split
  · intro hzero
    have := Option.some.inj hzero
    simp only [Accounting.counter] at hnonneg
    omega
  · exact h p

end Updates

theorem cellSizeClass_pos {n : ℕ} (h₁ : 1 ≤ n) (h₂ : n ≤ 5) : 0 < cellSizeClass n := by
  interval_cases n <;> decide

/-! ### Every frame keeps the counters -/

section Preservation

variable {cfg : Config B} {s : State B} {frame : Frame B} {recovering : Bool} {s' : State B}

theorem Counted.shifted (hs : Counted s) (δ : Counter → ℤ) (hmaps : ∀ c, s'.recomputed c = s.recomputed c + δ c)
    (hcounter : ∀ c, s'.accounting.counter c = s.accounting.counter c + δ c)
    (hprofiles : s'.accounting.stagingByProfile = s.accounting.stagingByProfile) : Counted s' :=
  hs.moved δ hmaps hcounter fun p => hprofiles ▸ hs.nonzero p

theorem Counted.reserve (hs : Counted s) {v : IngressReserved B}
    (hnew : s.spends.get? v.spendTag = none) (hbytes : 0 < v.terms.declaredBytes) :
    Counted (s.reserve frame v) := by
  refine hs.moved (v.entry frame).share (recomputed_addSpend hnew) ?_ ?_
  · intro c
    exact counter_reserve v.reservation c
  · refine nonzero_reserve (r := v.reservation) hs.nonzero ?_ hbytes
    rw [hs.counter]
    exact recomputed_nonneg s _

theorem Counted.setReserved (hs : Counted s) (e' : SpendEntry B) {r r' : Reservation B}
    (hold : s.spends.get? e'.spendTag = some e) (he : e.state = .reserved r)
    (he' : e'.state = .reserved r') (hterms : r'.terms = r.terms) : Counted (s.setSpend e') := by
  refine hs.shifted 0 ?_ (fun c => (add_zero _).symm) rfl
  intro c
  have hshare : r'.share c = r.share c := by
    cases c <;> simp only [Reservation.share, hterms]
  rw [recomputed_setSpend hold, share_of_reserved he, share_of_reserved he', hshare, sub_self]
  rfl

theorem recomputed_settle (e' : SpendEntry B) {r : Reservation B}
    (hold : s.spends.get? e'.spendTag = some e) (he : e.state = .reserved r)
    (he' : e'.reservation? = none) (hcontrol : e'.controlBytes = controlRecordBytes)
    (c : Counter) : (s.setSpend e').recomputed c = s.recomputed c - r.share c := by
  rw [recomputed_setSpend hold, share_of_reserved he, share_of_not_reserved he', hcontrol]
  omega

variable {entry : SpendEntry B}

theorem Counted.put (hs : Counted s) (hwf : WellFormed s) {v : PutCommitted B} {r : Reservation B}
    (h : PutGuard cfg s frame v entry r) :
    Counted (s.put frame entry r v) := by
  have hentry := hwf.entry _ _ h.reservation.spend
  have hdeclared := (hentry.declared r h.reservation.state).1
  let record := v.record frame entry r
  have hcell : s.cells.get? record.storageSlot = none := by
    rw [← h.cell, ← h.slot]
    rfl
  have hspend := hwf.spend_self h.reservation.spend
  refine hs.moved (fun c => record.share c - r.share c) ?_ ?_ ?_
  · intro c
    have hsettle := recomputed_settle (s := s.setCell record)
      (entry.committed r v record) hspend h.reservation.state rfl rfl c
    have hadd := recomputed_addCell hcell c
    simp only [State.put, recomputed_setAccounting]
    rw [hsettle, hadd]
    omega
  · intro c
    have hrelease := counter_releaseStaging (a := s.accounting) r c
    cases c with
    | storedBytes =>
      simp only [State.put, State.setAccounting, Accounting.counter, Accounting.releaseStaging,
        CellRecord.share, Reservation.share, record, PutCommitted.record, freshRecord,
        if_true, hdeclared]
      omega
    | stagingByProfile profileId =>
      simp only [State.put, State.setAccounting, CellRecord.share, Accounting.counter] at hrelease ⊢
      omega
    | _ =>
      simp only [State.put, State.setAccounting, Accounting.counter, Accounting.releaseStaging,
        CellRecord.share, Reservation.share]
      omega
  · exact nonzero_releaseStaging hs.nonzero

theorem Counted.terminate (hs : Counted s) (hwf : WellFormed s) {v : PutTerminal B} {r : Reservation B}
    (h : TerminalGuard cfg s frame v entry r) :
    Counted (s.terminate entry r v) := by
  have hspend := hwf.spend_self h.reservation.spend
  refine hs.moved (fun c => -r.share c) ?_ ?_ ?_
  · intro c
    have hsettle := recomputed_settle (entry.terminated r v) hspend h.reservation.state rfl rfl c
    simp only [State.terminate, recomputed_setAccounting]
    omega
  · intro c
    have hrelease := counter_releaseStaging (a := s.accounting) r c
    cases c with
    | stagingByProfile profileId =>
      simp only [State.terminate, State.setAccounting, Accounting.counter] at hrelease ⊢
      omega
    | _ =>
      simp only [State.terminate, State.setAccounting, Accounting.counter,
        Accounting.releaseStaging, Reservation.share]
      omega
  · exact nonzero_releaseStaging hs.nonzero

theorem recomputed_touchCell (r' : CellRecord B)
    (hold : s.cells.get? r'.storageSlot = some r) (hsize : r'.sizeClass = r.sizeClass)
    (hobject : r'.objectState = r.objectState) (c : Counter) :
    (s.setCell r').recomputed c = s.recomputed c := by
  have hshare : r'.share c = r.share c := by
    cases c <;> simp only [CellRecord.share, hsize, hobject]
  rw [recomputed_setCell r' hold, hshare, sub_self, add_zero]

variable {record : CellRecord B}

theorem Counted.renew (hs : Counted s) (hwf : WellFormed s) {v : RenewCommitted B} (h : RenewGuard cfg s frame v record) :
    Counted (s.renew frame record v) := by
  have hcell := hwf.cell_self h.cell
  refine hs.shifted (controlShare controlRecordBytes) ?_ ?_ rfl
  · intro c
    simp only [State.renew, recomputed_setAccounting]
    rw [recomputed_addSpend h.fresh.spend, share_of_not_reserved rfl]
    exact congrArg (· + _) (recomputed_touchCell (record.renewed v) hcell rfl rfl c)
  · intro c
    cases c <;>
      simp [State.renew, State.setAccounting, State.addSpend, Accounting.counter, controlShare]

/-- What a cell gives back when it is buried. -/
def buriedShare (sizeClass : ℕ) : Counter → ℤ
  | .storedBytes => -cellSizeClass sizeClass
  | _ => 0

theorem Counted.bury (hs : Counted s) {reason : TombstoneReason}
    {stateRevision terminalEpoch : ℕ} (hcell : s.cells.get? record.storageSlot = some record)
    (hpresent : record.objectState = .present) :
    Counted (s.bury record reason stateRevision terminalEpoch) := by
  refine hs.shifted (buriedShare record.sizeClass) ?_ ?_ rfl
  · intro c
    have hset := recomputed_setCell (record.buried reason stateRevision terminalEpoch) hcell c
    simp only [State.bury, recomputed_setAccounting]
    rw [hset]
    cases c <;> simp [CellRecord.share, CellRecord.buried, buriedShare, hpresent]
  · intro c
    cases c <;>
      simp [State.bury, State.setAccounting, Accounting.counter, buriedShare, sub_eq_add_neg]

theorem Counted.forgetCell (hs : Counted s) {key : B}
    (hcell : s.cells.get? key = some record) (htombstone : record.objectState = .tombstone) :
    Counted (s.forgetCell key) := by
  refine hs.shifted (fun c => -record.share c) ?_ ?_ rfl
  · intro c
    have hsum := sumBy_delete_of_get? (fun _ r : _ => CellRecord.share r c) hcell
    simp only [State.recomputed, State.forgetCell]
    omega
  · intro c
    cases c <;>
      simp [State.forgetCell, Accounting.counter, CellRecord.share, htombstone, sub_eq_add_neg]

theorem Counted.forgetSpend (hs : Counted s) {key : B}
    (hspend : s.spends.get? key = some entry) (hreserved : entry.reservation? = none) :
    Counted (s.forgetSpend key entry) := by
  refine hs.shifted (fun c => -controlShare entry.controlBytes c) ?_ ?_ rfl
  · intro c
    have hsum := sumBy_delete_of_get? (fun _ e : _ => SpendEntry.share e c) hspend
    simp only [State.recomputed, State.forgetSpend]
    rw [hsum, share_of_not_reserved hreserved]
    omega
  · intro c
    cases c <;> simp [State.forgetSpend, Accounting.counter, controlShare, sub_eq_add_neg]

theorem Counted.pinRead (hs : Counted s) {v : ReadPinCommitted B}
    (hnew : s.spends.get? v.spendTag = none) : Counted (s.pinRead frame v) := by
  have hcharged : v.byteLength + chargedReadFinalizationControlBytes ≠ 0 := Nat.succ_ne_zero _
  have hshare := fun c => share_of_livePin (e := v.entry frame) rfl hcharged c
  refine hs.shifted (v.entry frame).share (recomputed_addSpend hnew) ?_ rfl
  intro c
  rw [hshare c]
  cases c <;> simp [State.pinRead, State.setAccounting, Accounting.counter, controlShare]

theorem Counted.setSettled (hs : Counted s) (e' : SpendEntry B) {a : Accounting}
    (hold : s.spends.get? e'.spendTag = some e) (he : e.reservation? = none)
    (he' : e'.reservation? = none)
    (ha : a = { s.accounting with
      controlBytes := s.accounting.controlBytes - e.controlBytes + e'.controlBytes }) :
    Counted ((s.setSpend e').setAccounting a) := by
  subst ha
  refine hs.shifted (fun c => controlShare e'.controlBytes c - controlShare e.controlBytes c) ?_ ?_ rfl
  · intro c
    rw [recomputed_setAccounting, recomputed_setSpend hold, share_of_not_reserved he, share_of_not_reserved he']
  · intro c
    cases c <;>
      simp [State.setAccounting, State.setSpend, Accounting.counter, controlShare]
    omega

theorem Counted.atomicPut (hs : Counted s) {v : PutAtomicCommitted B}
    (h : AtomicPutGuard cfg s frame v) : Counted (s.atomicPut frame v) := by
  refine hs.shifted (fun c => controlShare controlRecordBytes c + (v.record frame).share c) ?_ ?_ rfl
  · intro c
    simp only [State.atomicPut, recomputed_setAccounting]
    rw [recomputed_addCell h.cell, recomputed_addSpend h.fresh.spend, share_of_not_reserved rfl, add_assoc]
    rfl
  · intro c
    have hsize := h.terms.size
    cases c <;>
      simp [State.atomicPut, State.setAccounting, State.setCell, State.addSpend,
        Accounting.counter, controlShare, CellRecord.share, PutAtomicCommitted.record, freshRecord,
        hsize]

theorem counted_step (hwf : WellFormed s) (hs : Counted s) (hcanonical : frame.payload.Canonical)
    (h : Step cfg s frame recovering s') : Counted s' := by
  cases h with
  | reserve v hp h =>
    rw [hp] at hcanonical
    have hdeclared := declared_of_canonical hcanonical.1 h.terms.size
    refine hs.reserve h.fresh.spend ?_
    rw [hdeclared.1]
    exact cellSizeClass_pos hdeclared.2.1 hdeclared.2.2
  | attempt v entry r hp h =>
    have hspend := hwf.spend_self h.reservation.spend
    exact hs.setReserved (entry.attempted r v) hspend h.reservation.state rfl rfl
  | put v entry r hp h => exact hs.put hwf h
  | terminate v entry r hp h => exact hs.terminate hwf h
  | renew v record hp h => exact hs.renew hwf h
  | drop v record hp h =>
    exact ⟨(hs.bury (hwf.cell_self h.cell) h.present).counter, hs.nonzero⟩
  | policy v record hp h =>
    have hcell := hwf.cell_self h.cell
    refine hs.shifted (fun _ => 0) (fun c => ?_) (fun c => (add_zero _).symm) rfl
    rw [add_zero]
    exact recomputed_touchCell (record.withPolicy v) hcell rfl rfl c
  | gc v record hp h =>
    exact hs.bury (hwf.cell_self h.cell) h.present
  | floor v confirmed hp h | clockUnsafe v hp h => exact ⟨hs.counter, hs.nonzero⟩
  | compact v hp epoch h =>
    obtain ⟨kind, key, compactedEpoch⟩ := v
    cases kind with
    | cell =>
      obtain ⟨record, terminal, hrecord, -, htombstone, -⟩ := h
      have hforget := hs.forgetCell hrecord htombstone
      exact ⟨hforget.counter, hforget.nonzero⟩
    | spend =>
      obtain ⟨entry, age, hentry, hage, -⟩ := h
      have hforget := hs.forgetSpend hentry (reservation?_of_aged (hwf.entry _ _ hentry) hage)
      simp only [State.compacted, hentry]
      exact ⟨hforget.counter, hforget.nonzero⟩
    | requestResult => exact ⟨hs.counter, hs.nonzero⟩
  | integrity v hp => exact ⟨hs.counter, hs.nonzero⟩
  | pinRead v hp h =>
    have hpin : Counted (s.pinRead frame v) := hs.pinRead h.fresh.spend
    exact ⟨hpin.counter, hpin.nonzero⟩
  | finalizeRead v entry pin hp h =>
    have hlive : entry.livePin? = some pin := livePin?_eq_some.mpr (.inl h.state)
    have hcontrol : entry.controlBytes = (if pin.controlBytes = 0 then controlRecordBytes
        else pin.controlBytes) := by
      rw [SpendEntry.controlBytes, hlive]
    have hspend := hwf.spend_self h.spend
    refine hs.setSettled (entry.finalized pin v) (a := s.accounting) hspend (reservation?_of_livePin hlive) rfl ?_
    rw [hcontrol]
    simp [SpendEntry.controlBytes, SpendEntry.livePin?, SpendEntry.finalized]
  | expireRead v entry pin hp h =>
    have hentry := hwf.entry _ _ h.spend
    have hspend := hwf.spend_self h.spend
    refine hs.setSettled (entry.expired pin v) hspend (reservation?_of_livePin h.live) rfl ?_
    rw [SpendEntry.controlBytes, h.live]
    simp only [if_neg (hentry.charged pin h.live)]
    rfl
  | atomicPut v hp h => exact hs.atomicPut h

end Preservation

/-! ### The counters, written out -/

/-- The reservations among the spends. -/
def State.reservations (s : State B) : List (Reservation B) :=
  s.spends.values.filterMap SpendEntry.reservation?

/-- The bytes that the reservations of one profile have declared. -/
def State.stagedFor (s : State B) (profileId : ℕ) : ℕ :=
  ((s.reservations.filter fun r => r.terms.profileId = profileId).map fun r => r.terms.declaredBytes).sum

section Written

variable {s : State B}

/-- The spends' part of a recomputed counter: their control bytes and what the reservations hold. -/
theorem sumBy_share (s : State B) (c : Counter) : (s.spends.sumBy fun _ e => e.share c) =
      controlShare ((s.spends.values.map SpendEntry.controlBytes).sum : ℕ) c +
        (s.reservations.map fun r => r.share c).sum := by
  unfold State.reservations sumBy values
  induction s.spends.entries with
  | nil => cases c <;> rfl
  | cons e l ih =>
    rw [map_cons, sum_cons, ih]
    cases h : e.2.reservation? with
    | none =>
      have hshare := share_of_not_reserved h c
      cases c <;> simp only [controlShare] at hshare <;> simp [controlShare, h, hshare]
      omega
    | some r =>
      have hshare : e.2.share c = controlShare e.2.controlBytes c + r.share c := by
        rw [SpendEntry.share, h]
      cases c <;> simp only [controlShare] at hshare <;> simp [controlShare, h, hshare]
      omega

theorem sum_map_reservedCells (l : List (Reservation B)) :
    (l.map fun r => r.share .reservedCells).sum = l.length := by
  induction l with
  | nil => rfl
  | cons r l ih =>
    simp [Reservation.share]
    omega

theorem sum_map_tombstoneBytes (l : List (Reservation B)) :
    (l.map fun r => r.share .tombstoneBytes).sum = 512 * l.length := by
  induction l with
  | nil => rfl
  | cons r l ih =>
    simp [Reservation.share, tombstoneRecordBytes]
    omega

theorem sum_map_stagingBytes (l : List (Reservation B)) :
    (l.map fun r => r.share .stagingBytes).sum = ((l.map fun r => r.terms.declaredBytes).sum : ℕ) := by
  induction l with
  | nil => rfl
  | cons r l ih =>
    rw [map_cons, sum_cons, ih]
    simp [Reservation.share]

theorem sum_map_stagingByProfile (l : List (Reservation B)) (profileId : ℕ) :
    (l.map fun r => r.share (.stagingByProfile profileId)).sum =
      (((l.filter fun r => r.terms.profileId = profileId).map fun r => r.terms.declaredBytes).sum : ℕ) := by
  induction l with
  | nil => rfl
  | cons r l ih =>
    rw [map_cons, sum_cons, ih]
    by_cases h : r.terms.profileId = profileId <;> simp [Reservation.share, h]

theorem sumBy_storedBytes (s : State B) : (s.cells.sumBy fun _ r => r.share .storedBytes) =
      (((s.cells.values.filter fun r => r.objectState = .present).map
        fun r => cellSizeClass r.sizeClass).sum : ℕ) := by
  unfold sumBy values
  induction s.cells.entries with
  | nil => rfl
  | cons e l ih =>
    rw [map_cons, sum_cons, ih]
    by_cases h : e.2.objectState = .present <;> simp [CellRecord.share, h]

theorem sumBy_tombstoneBytes (s : State B) :
    (s.cells.sumBy fun _ r => r.share .tombstoneBytes) = 512 * s.cells.size := by
  unfold sumBy size
  induction s.cells.entries with
  | nil => rfl
  | cons e l ih =>
    simp [CellRecord.share, tombstoneRecordBytes]
    omega

theorem sumBy_share_eq_zero {c : Counter} (h : ∀ r : CellRecord B, r.share c = 0) :
    (s.cells.sumBy fun _ r => r.share c) = 0 := by
  simp [sumBy, h]

end Written

theorem counted_of_frames {cfg : Config B} {moves : List (Application B)} {s : State B}
    (h : run (frameStep cfg) (State.empty B) moves = some s) : WellFormed s ∧ Counted s :=
  frames_invariant (fun s => WellFormed s ∧ Counted s) (fun _ _ _ _ hs hcanonical hstep =>
      ⟨wellFormed_step hs.1 hcanonical hstep, counted_step hs.1 hs.2 hcanonical hstep⟩)
    ⟨wellFormed_empty, counted_empty⟩ h

/-- **The counters are sums over the maps.** After every sequence of frames that `#applyFrame`
accepts from the empty state, whether live or recovering, each counter is its recomputation, so none
is ever negative. -/
theorem counters_are_sums {cfg : Config B} {moves : List (Application B)} {s : State B}
    (h : run (frameStep cfg) (State.empty B) moves = some s) :
    s.accounting.storedBytes = (((s.cells.values.filter fun r => r.objectState = .present).map
        fun r => cellSizeClass r.sizeClass).sum : ℕ) ∧
      s.accounting.stagingBytes = ((s.reservations.map fun r => r.terms.declaredBytes).sum : ℕ) ∧
      s.accounting.reservedCells = s.reservations.length ∧
      (∀ profileId, s.accounting.stagingByProfile.get? profileId =
        if s.stagedFor profileId = 0 then none else some (s.stagedFor profileId : ℤ)) ∧
      s.accounting.tombstoneBytes = 512 * (s.cells.size + s.reservations.length) ∧
      s.accounting.controlBytes = ((s.spends.values.map SpendEntry.controlBytes).sum : ℕ) ∧
      ∀ c, 0 ≤ s.accounting.counter c := by
  have hs := (counted_of_frames h).2
  have hspends := sumBy_share s
  refine ⟨?_, ?_, ?_, ?_, ?_, ?_, fun c => hs.counter c ▸ recomputed_nonneg s c⟩
  · refine (hs.counter .storedBytes).trans ?_
    rw [State.recomputed, hspends, sumBy_storedBytes]
    simp [controlShare, Reservation.share]
  · refine (hs.counter .stagingBytes).trans ?_
    rw [State.recomputed, hspends, sumBy_share_eq_zero fun _ => rfl, sum_map_stagingBytes]
    simp [controlShare]
  · refine (hs.counter .reservedCells).trans ?_
    rw [State.recomputed, hspends, sumBy_share_eq_zero fun _ => rfl, sum_map_reservedCells]
    simp [controlShare]
  · intro profileId
    have hcounter : (s.accounting.stagingByProfile.get? profileId).getD 0 = s.stagedFor profileId := by
      refine (hs.counter (.stagingByProfile profileId)).trans ?_
      rw [State.recomputed, hspends, sumBy_share_eq_zero fun _ => rfl, sum_map_stagingByProfile]
      simp [controlShare, State.stagedFor]
    have hnonzero := hs.nonzero profileId
    cases hget : s.accounting.stagingByProfile.get? profileId with
    | none =>
      rw [hget] at hcounter
      rw [if_pos (Int.natCast_eq_zero.mp hcounter.symm)]
    | some value =>
      rw [hget] at hcounter hnonzero
      have hvalue : value = (s.stagedFor profileId : ℤ) := hcounter
      have hne : s.stagedFor profileId ≠ 0 := by
        intro hzero
        exact hnonzero (by rw [hvalue, hzero]; rfl)
      rw [if_neg hne, hvalue]
  · refine (hs.counter .tombstoneBytes).trans ?_
    rw [State.recomputed, hspends, sumBy_tombstoneBytes, sum_map_tombstoneBytes]
    simp only [controlShare]
    omega
  · refine (hs.counter .controlBytes).trans ?_
    rw [State.recomputed, hspends, sumBy_share_eq_zero fun _ => rfl]
    simp [controlShare, Reservation.share]

/-- The counters after the sample log. -/
theorem counters_are_sums_sample : ∃ s, run (frameStep sampleConfig) (State.empty ℕ)
        (sampleFrames.map fun f => ⟨f, .empty, false⟩) = some s ∧
      s.accounting.tombstoneBytes = 512 * (s.cells.size + s.reservations.length) := by
  obtain ⟨s, hs⟩ := sampleFrames_accepted
  exact ⟨s, hs, (counters_are_sums hs).2.2.2.2.1⟩

end HiveRelay.Cell
