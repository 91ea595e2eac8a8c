import HiveRelay.Cell.WellFormed

/-!
# What a frame reads

Whether a frame is accepted depends on a few places of the state only: the spend it names, the
commitment it introduces, the cells it names or has pinned, the request result it caches, and the
epoch floor. A guard that holds in one state holds in every state that agrees with it there.
-/

set_option linter.unusedSectionVars false

namespace HiveRelay.Cell

variable {B : Type} [LinearOrder B] [Zero B]

/-! ### Guards -/

section Guards

variable {cfg : Config B} {s t : State B} {frame : Frame B}

theorem FreshSpend.congr {spendTag requestCommitment : B} (h : FreshSpend s spendTag requestCommitment)
    (hspend : t.spends.get? spendTag = s.spends.get? spendTag)
    (hcommitment : t.commitments.get? requestCommitment = s.commitments.get? requestCommitment) :
    FreshSpend t spendTag requestCommitment :=
  ⟨hspend.trans h.spend, hcommitment.trans h.commitment⟩

theorem ReservationOf.congr {spendTag requestCommitment : B} {entry : SpendEntry B}
    {r : Reservation B} (h : ReservationOf s frame spendTag requestCommitment entry r)
    (hspend : t.spends.get? spendTag = s.spends.get? spendTag) :
    ReservationOf t frame spendTag requestCommitment entry r :=
  ⟨hspend.trans h.spend, h.state, h.commitment, h.transaction⟩

theorem PinsCurrent.congr {entries : List (PinEntry B)} (h : PinsCurrent s entries)
    (hpin : ∀ k ∈ entries.map PinEntry.storageSlot,
      publiclyVisible (t.cells.get? k) s.epochFloor = publiclyVisible (s.cells.get? k) s.epochFloor)
    (hfloor : t.epochFloor = s.epochFloor) : PinsCurrent t entries := by
  intro pinned hpinned
  have hcurrent := h pinned hpinned
  rw [chargedReadPinEntry] at hcurrent ⊢
  rw [hfloor, hpin _ (List.mem_map_of_mem hpinned)]
  exact hcurrent

theorem Compactable.congr {floor : ℕ} {kind : CompactKind} {key : B} (h : Compactable s floor kind key)
    (hcell : kind = .cell → t.cells.get? key = s.cells.get? key)
    (hspend : kind = .spend → t.spends.get? key = s.spends.get? key)
    (hresult : kind = .requestResult → t.requestResults.get? key = s.requestResults.get? key) :
    Compactable t floor kind key := by
  cases kind with
  | cell =>
    obtain ⟨record, epoch, hrecord, hrest⟩ := h
    exact ⟨record, epoch, (hcell rfl).trans hrecord, hrest⟩
  | spend =>
    obtain ⟨entry, epoch, hentry, hrest⟩ := h
    exact ⟨entry, epoch, (hspend rfl).trans hentry, hrest⟩
  | requestResult =>
    obtain ⟨result, hentry, hrest⟩ := h
    exact ⟨result, (hresult rfl).trans hentry, hrest⟩

end Guards

end HiveRelay.Cell
