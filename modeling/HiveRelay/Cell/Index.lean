import HiveRelay.Cell.ExpiryHeap
import HiveRelay.Cell.WellFormed

/-!
# The commitment index and the expiry heap

`commitments` is meant to be the inverse of `spends`, and `chargedReadExpiryHeap` to hold one item
for every charged read whose retry pin is live. Five transitions write the index, three read and
rewrite spends, compaction deletes from both maps, and sweeps take items off the heap before they
know whether the pin is still there; so the invariant is about the maps together with the sweeps in
progress.

A sweep pops an item whose retry time has passed, waits for the lock of its spend, and then either
finds no pin for it and goes on, or appends `READ_PIN_EXPIRED` and goes on once that frame is
applied. Between the pop and that moment the item is in the hands of the sweep. If the append rejects,
the sweep ends and the item is nowhere, though its pin is still live.

## Main definitions

* `Indexed`: `commitments` is the inverse of `spends`.
* `Sweeps` and `sweepStep`: frames and sweeps in any order; `Watched` says where the items are.

## Main results

* `commitments_inverse_and_pins_watched`: both, in every run; a pin is watched unless an append of a
  sweep failed for it, as in `failed_append_forgets_pin`.
* `overdue_pins_swept`: such a pin is still to be swept when its time has passed.
-/

set_option linter.unusedSectionVars false

namespace HiveRelay.Cell

open Option OrderedMap List

variable {B : Type} [LinearOrder B] [Zero B]

/-! ### The index -/

/-- `commitments` is the inverse of `spends`. -/
structure Indexed (s : State B) : Prop where
  forward : ∀ k e, s.spends.get? k = some e → s.commitments.get? e.requestCommitment = some ⟨k, e.requestFingerprint⟩
  backward : ∀ c x, s.commitments.get? c = some x → ∃ e, s.spends.get? x.spendKey = some e ∧ e.requestCommitment = c ∧
      e.requestFingerprint = x.fingerprint

theorem indexed_empty : Indexed (State.empty B) where
  forward := by
    intro k e h
    cases h
  backward := by
    intro c x h
    cases h

variable {cfg : Config B}

section Index

variable {s : State B}

variable {e : SpendEntry B}

theorem Indexed.spend_unique (hs : Indexed s) {k k' : B} {e' : SpendEntry B}
    (h : s.spends.get? k = some e) (h' : s.spends.get? k' = some e')
    (hcommitment : e.requestCommitment = e'.requestCommitment) : k = k' := by
  have hk := hs.forward k e h
  have hk' := hs.forward k' e' h'
  rw [hcommitment, hk'] at hk
  exact (congrArg CommitmentEntry.spendKey (some.inj hk)).symm

theorem Indexed.addSpend (hs : Indexed s)
    (hfresh : FreshSpend s e.spendTag e.requestCommitment) : Indexed (s.addSpend e) where
  forward := by
    intro k e' h
    simp only [State.addSpend, get?_set] at h ⊢
    by_cases hk : k = e.spendTag
    · rw [if_pos hk] at h
      rw [← some.inj h, if_pos rfl, hk]
    · rw [if_neg hk] at h
      have hforward := hs.forward k e' h
      have hne : e'.requestCommitment ≠ e.requestCommitment := by
        intro heq
        rw [heq, hfresh.commitment] at hforward
        cases hforward
      rw [if_neg hne]
      exact hforward
  backward := by
    intro c x h
    simp only [State.addSpend, get?_set] at h ⊢
    by_cases hc : c = e.requestCommitment
    · rw [if_pos hc] at h
      rw [← some.inj h]
      exact ⟨e, if_pos rfl, hc.symm, rfl⟩
    · rw [if_neg hc] at h
      obtain ⟨e', he', hcommitment, hfingerprint⟩ := hs.backward c x h
      have hne : x.spendKey ≠ e.spendTag := by
        intro heq
        rw [heq, hfresh.spend] at he'
        cases he'
      rw [if_neg hne]
      exact ⟨e', he', hcommitment, hfingerprint⟩

theorem Indexed.setSpend (hs : Indexed s) (e' : SpendEntry B) (hold : s.spends.get? e'.spendTag = some e)
    (hcommitment : e'.requestCommitment = e.requestCommitment)
    (hfingerprint : e'.requestFingerprint = e.requestFingerprint) : Indexed (s.setSpend e') where
  forward := by
    intro k e₁ h
    simp only [State.setSpend, get?_set] at h ⊢
    by_cases hk : k = e'.spendTag
    · rw [if_pos hk] at h
      rw [← some.inj h, hcommitment, hfingerprint, hk]
      exact hs.forward _ _ hold
    · rw [if_neg hk] at h
      exact hs.forward k e₁ h
  backward := by
    intro c x h
    obtain ⟨e₁, he₁, hc, hx⟩ := hs.backward c x h
    simp only [State.setSpend, get?_set]
    by_cases hk : x.spendKey = e'.spendTag
    · rw [hk, hold] at he₁
      cases he₁
      exact ⟨e', if_pos hk, hcommitment.trans hc, hfingerprint.trans hx⟩
    · exact ⟨e₁, (if_neg hk).trans he₁, hc, hx⟩

theorem Indexed.forgetSpend (hs : Indexed s) {key : B} {entry : SpendEntry B}
    (hentry : s.spends.get? key = some entry) : Indexed (s.forgetSpend key entry) where
  forward := by
    intro k e h
    simp only [State.forgetSpend, get?_delete] at h ⊢
    by_cases hk : k = key
    · rw [if_pos hk] at h
      cases h
    · rw [if_neg hk] at h
      have hne : e.requestCommitment ≠ entry.requestCommitment :=
        fun heq => hk (hs.spend_unique h hentry heq)
      rw [if_neg hne]
      exact hs.forward k e h
  backward := by
    intro c x h
    simp only [State.forgetSpend, get?_delete] at h ⊢
    by_cases hc : c = entry.requestCommitment
    · rw [if_pos hc] at h
      cases h
    · rw [if_neg hc] at h
      obtain ⟨e, he, hcommitment, hfingerprint⟩ := hs.backward c x h
      have hne : x.spendKey ≠ key := by
        intro heq
        rw [heq, hentry] at he
        exact hc (hcommitment.symm.trans (congrArg _ (some.inj he.symm)))
      exact ⟨e, (if_neg hne).trans he, hcommitment, hfingerprint⟩

theorem indexed_step {frame : Frame B} {recovering : Bool} {s' : State B}
    (hwf : WellFormed s) (hs : Indexed s) (h : Step cfg s frame recovering s') : Indexed s' := by
  cases h with
  | reserve v hp h =>
    have hadd := hs.addSpend (e := v.entry frame) h.fresh
    exact ⟨hadd.forward, hadd.backward⟩
  | attempt v entry r hp h =>
    exact hs.setSpend (e := entry) (entry.attempted r v) (hwf.spend_self h.reservation.spend) rfl rfl
  | put v entry r hp h =>
    have hset := hs.setSpend (e := entry) (entry.committed r v (v.record frame entry r))
      (hwf.spend_self h.reservation.spend) rfl rfl
    exact ⟨hset.forward, hset.backward⟩
  | terminate v entry r hp h =>
    have hset := hs.setSpend (e := entry) (entry.terminated r v) (hwf.spend_self h.reservation.spend) rfl rfl
    exact ⟨hset.forward, hset.backward⟩
  | renew v record hp h =>
    have hadd := hs.addSpend (e := v.entry frame record) h.fresh
    exact ⟨hadd.forward, hadd.backward⟩
  | drop v record hp h | policy v record hp h | gc v record hp h | floor v confirmed hp h
  | clockUnsafe v hp h => exact ⟨hs.forward, hs.backward⟩
  | compact v hp epoch h =>
    obtain ⟨kind, key, compactedEpoch⟩ := v
    cases kind with
    | cell => exact ⟨hs.forward, hs.backward⟩
    | spend =>
      obtain ⟨entry, age, hentry, -⟩ := h
      have hforget := hs.forgetSpend hentry
      simp only [State.compacted, hentry]
      exact ⟨hforget.forward, hforget.backward⟩
    | requestResult => exact ⟨hs.forward, hs.backward⟩
  | integrity v hp => exact ⟨hs.forward, hs.backward⟩
  | pinRead v hp h =>
    have hadd := hs.addSpend (e := v.entry frame) h.fresh
    exact ⟨hadd.forward, hadd.backward⟩
  | finalizeRead v entry pin hp h =>
    exact hs.setSpend (e := entry) (entry.finalized pin v) (hwf.spend_self h.spend) rfl rfl
  | expireRead v entry pin hp h =>
    have hset := hs.setSpend (e := entry) (entry.expired pin v) (hwf.spend_self h.spend) rfl rfl
    exact ⟨hset.forward, hset.backward⟩
  | atomicPut v hp h =>
    have hadd := hs.addSpend (e := v.entry frame) h.fresh
    exact ⟨hadd.forward, hadd.backward⟩

end Index

/-! ### Live pins after a frame -/

section Pins

variable {s s' : State B}

/-- The item of a live pin, under the key of its spend. -/
def IsLiveItem (s : State B) (item : ExpiryItem B) : Prop :=
  ∃ k e pin, s.spends.get? k = some e ∧ e.livePin? = some pin ∧ item = expiryItem k e pin

/-- Every live item of `s'` was live in `s` or is on the heap of `s'`, and the heap keeps what it
has. -/
structure PinsKept (s s' : State B) : Prop where
  live : ∀ item, IsLiveItem s' item → IsLiveItem s item ∨ item ∈ s'.chargedReadExpiryHeap
  heap : ∀ item ∈ s.chargedReadExpiryHeap, item ∈ s'.chargedReadExpiryHeap

theorem PinsKept.of_eq (hspends : s'.spends = s.spends)
    (hheap : s'.chargedReadExpiryHeap = s.chargedReadExpiryHeap) : PinsKept s s' where
  live := by
    rintro item ⟨k, e, pin, he, hpin, rfl⟩
    exact .inl ⟨k, e, pin, hspends ▸ he, hpin, rfl⟩
  heap := fun item h => hheap ▸ h

theorem PinsKept.of_set {e : SpendEntry B} (hspends : s'.spends = s.spends.set e.spendTag e)
    (hheap : s'.chargedReadExpiryHeap = s.chargedReadExpiryHeap)
    (he : ∀ pin, e.livePin? = some pin → IsLiveItem s (expiryItem e.spendTag e pin)) :
    PinsKept s s' where
  live := by
    rintro item ⟨k, e', pin, he', hpin, rfl⟩
    rw [hspends, get?_set] at he'
    by_cases hk : k = e.spendTag
    · rw [if_pos hk] at he'
      cases he'
      rw [hk]
      exact .inl (he pin hpin)
    · rw [if_neg hk] at he'
      exact .inl ⟨k, e', pin, he', hpin, rfl⟩
  heap := fun item h => hheap ▸ h

/-- A frame keeps the items of live pins. -/
theorem pinsKept_step {frame : Frame B} {recovering : Bool} (hwf : WellFormed s)
    (h : Step cfg s frame recovering s') : PinsKept s s' := by
  cases h with
  | reserve v hp h =>
    refine .of_set (e := v.entry frame) rfl rfl ?_
    rintro pin ⟨⟩
  | attempt v entry r hp h =>
    refine .of_set (e := entry.attempted r v) rfl rfl ?_
    rintro pin ⟨⟩
  | put v entry r hp h =>
    refine .of_set (e := entry.committed r v (v.record frame entry r)) rfl rfl ?_
    rintro pin ⟨⟩
  | terminate v entry r hp h =>
    refine .of_set (e := entry.terminated r v) rfl rfl ?_
    rintro pin ⟨⟩
  | renew v record hp h =>
    refine .of_set (e := v.entry frame record) rfl rfl ?_
    rintro pin ⟨⟩
  | drop v record hp h | policy v record hp h | gc v record hp h | floor v confirmed hp h
  | clockUnsafe v hp h => exact .of_eq rfl rfl
  | compact v hp epoch h =>
    obtain ⟨kind, key, compactedEpoch⟩ := v
    cases kind with
    | cell => exact .of_eq rfl rfl
    | spend =>
      obtain ⟨entry, age, hentry, -⟩ := h
      simp only [State.compacted, hentry]
      refine ⟨?_, fun item h => h⟩
      rintro item ⟨k, e, pin, he, hpin, rfl⟩
      simp only [State.forgetSpend, get?_delete] at he
      split at he
      · cases he
      · exact .inl ⟨k, e, pin, he, hpin, rfl⟩
    | requestResult => exact .of_eq rfl rfl
  | integrity v hp => exact .of_eq rfl rfl
  | pinRead v hp h =>
    have hperm := Heap.push_perm expiryBefore s.chargedReadExpiryHeap
      { retryExpiresUnixMillis := v.retryExpiresUnixMillis
        spendKey := v.spendTag
        transactionId := frame.transactionId }
    refine ⟨?_, ?_⟩
    · rintro item ⟨k, e, pin, he, hpin, rfl⟩
      simp only [State.pinRead, State.setAccounting, State.addSpend, get?_set] at he
      by_cases hk : k = v.spendTag
      · -- the new pin is the item that was just pushed
        rw [ReadPinCommitted.entry, if_pos hk] at he
        cases he
        cases hpin
        refine .inr (Array.mem_toList_iff.mp (hperm.mem_iff.mpr ?_))
        rw [hk]
        exact mem_cons_self
      · rw [ReadPinCommitted.entry, if_neg hk] at he
        exact .inl ⟨k, e, pin, he, hpin, rfl⟩
    · intro item h
      refine Array.mem_toList_iff.mp (hperm.mem_iff.mpr ?_)
      exact mem_cons_of_mem _ (Array.mem_toList_iff.mpr h)
  | finalizeRead v entry pin hp h =>
    refine .of_set (e := entry.finalized pin v) rfl rfl ?_
    rintro pin' ⟨⟩
    exact ⟨entry.spendTag, entry, pin, hwf.spend_self h.spend, livePin?_eq_some.mpr (.inl h.state), rfl⟩
  | expireRead v entry pin hp h =>
    refine .of_set (e := entry.expired pin v) rfl rfl ?_
    rintro pin' ⟨⟩
  | atomicPut v hp h =>
    refine .of_set (e := v.entry frame) rfl rfl ?_
    rintro pin ⟨⟩

end Pins

/-! ### Sweeps -/

/-- The engine's state, with the candidates that sweeps have popped and not settled, each with the clock
reading of its sweep, and those whose append has failed. -/
structure Sweeps (B : Type) where
  state : State B
  popped : List (ExpiryItem B × ℕ)
  failed : List (ExpiryItem B)

/-- A frame is applied, a sweep pops the first item of the heap, a sweep is done with a candidate, or its
append for a candidate rejects. -/
inductive SweepMove (B : Type) where
  | apply (application : Application B)
  | pop (now : ℕ)
  | settle (candidate : ExpiryItem B) (now : ℕ)
  | fail (candidate : ExpiryItem B) (now : ℕ)

/-- One step of the frames and the sweeps. A sweep that finds the pin of its candidate appends
`READ_PIN_EXPIRED` and waits for its application, so it can only be done with a candidate whose pin
is not there. -/
def sweepStep (cfg : Config B) (m : Sweeps B) : SweepMove B → Option (Sweeps B)
  | .apply application =>
    (frameStep cfg m.state application).map fun state => { m with state := state }
  | .pop now =>
    match popExpiry m.state.chargedReadExpiryHeap with
    | some (candidate, heap) =>
      if candidate.retryExpiresUnixMillis ≤ now then
        some
          { m with
            state := { m.state with chargedReadExpiryHeap := heap }
            popped := (candidate, now) :: m.popped }
      else none
    | none => none
  | .settle candidate now =>
    if (candidate, now) ∈ m.popped ∧ expiryCandidate m.state.spends candidate now = none then
      some { m with popped := m.popped.erase (candidate, now) }
    else none
  | .fail candidate now =>
    -- nothing puts the item back
    if (candidate, now) ∈ m.popped ∧ expiryCandidate m.state.spends candidate now ≠ none then
      some { m with popped := m.popped.erase (candidate, now), failed := candidate :: m.failed }
    else none

/-- Every live pin is on the heap or in the hands of a sweep whose clock reading is past it, unless its
append failed. -/
structure Watched (m : Sweeps B) : Prop where
  live : ∀ item, IsLiveItem m.state item → item ∉ m.failed →
    item ∈ m.state.chargedReadExpiryHeap ∨ ∃ now, (item, now) ∈ m.popped
  due : ∀ item now, (item, now) ∈ m.popped → item.retryExpiresUnixMillis ≤ now

theorem expiryCandidate_of_live {s : State B} {item : ExpiryItem B} {now : ℕ}
    (hitem : IsLiveItem s item) (hdue : item.retryExpiresUnixMillis ≤ now) :
    expiryCandidate s.spends item now ≠ none := by
  obtain ⟨k, e, pin, he, hpin, rfl⟩ := hitem
  have hretry : pin.retryExpiresUnixMillis ≤ now := hdue
  simp [expiryCandidate, expiryItem, he, hpin, hretry]

/-- The frames and the sweeps keep the maps, the index and the heap together. -/
structure SweepInvariant (m : Sweeps B) : Prop where
  wellFormed : WellFormed m.state
  indexed : Indexed m.state
  watched : Watched m

/-- Every move of frames and sweeps keeps the invariant. -/
theorem sweepInvariant_step {m m' : Sweeps B} {move : SweepMove B}
    (hm : SweepInvariant m) (h : sweepStep cfg m move = some m') : SweepInvariant m' := by
  cases move with
  | apply application =>
    obtain ⟨s', hs', rfl⟩ := map_eq_some_iff.mp h
    have happly := applyFrame_eq_ok.mp (frameStep_eq_some.mp hs')
    have hstep := applyPayload_eq_ok_iff.mp happly.2.1
    have hkept := pinsKept_step hm.wellFormed hstep
    refine ⟨wellFormed_step hm.wellFormed happly.1 hstep,
      indexed_step hm.wellFormed hm.indexed hstep, ?_, hm.watched.due⟩
    intro item hitem hfailed
    rcases hkept.live item hitem with hold | hnew
    · rcases hm.watched.live item hold hfailed with hheap | hpopped
      · exact .inl (hkept.heap item hheap)
      · exact .inr hpopped
    · exact .inl hnew
  | pop now =>
    simp only [sweepStep] at h
    split at h
    · next candidate heap hpop =>
      split at h
      · next hdue =>
        cases h
        have hperm := Heap.pop_perm expiryBefore hpop
        refine ⟨⟨hm.wellFormed.entry, hm.wellFormed.record⟩, ⟨hm.indexed.forward, hm.indexed.backward⟩, ?_, ?_⟩
        · intro item hitem hfailed
          rcases hm.watched.live item hitem hfailed with hheap | ⟨now', hpopped⟩
          · have hmem := hperm.mem_iff.mp (Array.mem_toList_iff.mpr hheap)
            rcases mem_cons.mp hmem with rfl | hrest
            · exact .inr ⟨now, mem_cons_self⟩
            · exact .inl (Array.mem_toList_iff.mp hrest)
          · exact .inr ⟨now', mem_cons_of_mem _ hpopped⟩
        · intro item now' hmem
          rcases mem_cons.mp hmem with heq | hrest
          · cases heq
            exact hdue
          · exact hm.watched.due item now' hrest
      · cases h
    · cases h
  | settle candidate now =>
    simp only [sweepStep] at h
    split at h
    · next hsettle =>
      cases h
      refine ⟨hm.wellFormed, hm.indexed, ?_, ?_⟩
      · intro item hitem hfailed
        rcases hm.watched.live item hitem hfailed with hheap | ⟨now', hpopped⟩
        · exact .inl hheap
        · -- a live pin still answers the test, so it is not the candidate that is settled
          have hne : (item, now') ≠ (candidate, now) := by
            rintro ⟨⟩
            exact expiryCandidate_of_live hitem (hm.watched.due _ _ hsettle.1) hsettle.2
          exact .inr ⟨now', (mem_erase_of_ne hne).mpr hpopped⟩
      · intro item now' hmem
        exact hm.watched.due item now' (mem_of_mem_erase hmem)
    · cases h
  | fail candidate now =>
    simp only [sweepStep] at h
    split at h <;> cases h
    refine ⟨hm.wellFormed, hm.indexed, ?_, fun item now' hmem => hm.watched.due item now' (mem_of_mem_erase hmem)⟩
    intro item hitem hfailed
    obtain ⟨hne, hfailed⟩ := not_or.mp (mem_cons.not.mp hfailed)
    refine (hm.watched.live item hitem hfailed).imp_right fun ⟨now', hpopped⟩ => ⟨now', ?_⟩
    exact (mem_erase_of_ne fun heq => hne (congrArg Prod.fst heq)).mpr hpopped

/-- What failed, failed in the run. -/
theorem failed_of_run {moves : List (SweepMove B)} {m m' : Sweeps B} (h : run (sweepStep cfg) m moves = some m')
    {item : ExpiryItem B} (hitem : item ∈ m'.failed) : item ∈ m.failed ∨ ∃ now, .fail item now ∈ moves := by
  induction moves generalizing m with
  | nil => exact .inl (some.inj h ▸ hitem)
  | cons move moves ih =>
    obtain ⟨m₁, hstep, hrest⟩ := run_cons.mp h
    rcases ih hrest with hold | ⟨now, hmem⟩
    · cases move with
      | apply application =>
        obtain ⟨s', -, rfl⟩ := map_eq_some_iff.mp hstep
        exact .inl hold
      | pop now =>
        simp only [sweepStep] at hstep
        split at hstep
        · split at hstep <;> cases hstep
          exact .inl hold
        · cases hstep
      | settle candidate now =>
        simp only [sweepStep] at hstep
        split at hstep <;> cases hstep
        exact .inl hold
      | fail candidate now =>
        simp only [sweepStep] at hstep
        split at hstep <;> cases hstep
        rcases mem_cons.mp hold with rfl | hold
        · exact .inr ⟨now, mem_cons_self⟩
        · exact .inl hold
    · exact .inr ⟨now, mem_cons_of_mem _ hmem⟩

theorem sweepInvariant_run {moves : List (SweepMove B)} {m : Sweeps B}
    (h : run (sweepStep cfg) ⟨State.empty B, [], []⟩ moves = some m) : SweepInvariant m := by
  refine run_preserves SweepInvariant (fun _ _ _ hm hstep => sweepInvariant_step hm hstep) ?_ h
  exact ⟨wellFormed_empty, indexed_empty, by constructor <;> simp [State.empty, IsLiveItem]⟩

/-- **The index is the inverse of the spends, and every live pin is watched.** Along every run of
accepted frames from the empty state and of sweeps, `commitments` maps exactly the commitments of the
spends to their keys and fingerprints, no two spends share a commitment, and every spend that is
read-pinned or read-finalized has its item on the expiry heap unless a sweep in progress has popped
it, or the append of a sweep failed for it. -/
theorem commitments_inverse_and_pins_watched {cfg : Config B} {moves : List (SweepMove B)}
    {m : Sweeps B} (h : run (sweepStep cfg) ⟨State.empty B, [], []⟩ moves = some m) :
    (∀ k e, m.state.spends.get? k = some e →
        m.state.commitments.get? e.requestCommitment = some ⟨k, e.requestFingerprint⟩) ∧
      (∀ c x, m.state.commitments.get? c = some x →
        ∃ e, m.state.spends.get? x.spendKey = some e ∧ e.requestCommitment = c ∧
          e.requestFingerprint = x.fingerprint) ∧
      (∀ k k' e e', m.state.spends.get? k = some e → m.state.spends.get? k' = some e' →
        e.requestCommitment = e'.requestCommitment → k = k') ∧
      (∀ k e pin, m.state.spends.get? k = some e → (e.state = .readPinned pin ∨ ∃ c, e.state = .readFinalized pin c) →
        (∀ now, .fail ⟨pin.retryExpiresUnixMillis, k, e.transactionId⟩ now ∉ moves) →
        ⟨pin.retryExpiresUnixMillis, k, e.transactionId⟩ ∈ m.state.chargedReadExpiryHeap ∨
          ∃ now, (⟨pin.retryExpiresUnixMillis, k, e.transactionId⟩, now) ∈ m.popped) := by
  have hm := sweepInvariant_run h
  refine ⟨hm.indexed.forward, hm.indexed.backward, ?_, ?_⟩
  · intro k k' e e' he he' hcommitment
    exact hm.indexed.spend_unique he he' hcommitment
  · intro k e pin he hpin hfail
    refine hm.watched.live _ ⟨k, e, pin, he, livePin?_eq_some.mpr hpin, rfl⟩ fun hfailed => ?_
    rcases failed_of_run h hfailed with hold | ⟨now, hmem⟩
    · cases hold
    · exact hfail now hmem

/-- `moreDue` of a sweep: the first item of the heap is due. -/
def State.moreDue (s : State B) (now : ℕ) : Bool :=
  s.chargedReadExpiryHeap[0]?.any fun item => item.retryExpiresUnixMillis ≤ now

theorem Step.isHeap {frame : Frame B} {recovering : Bool} (h : Step cfg s frame recovering s')
    (hheap : Heap.IsHeap expiryBefore s.chargedReadExpiryHeap) : Heap.IsHeap expiryBefore s'.chargedReadExpiryHeap := by
  cases h with
  | pinRead v hp h => exact hheap.push weak_expiryBefore _
  | compact v hp epoch h =>
    obtain ⟨kind, key, compactedEpoch⟩ := v
    cases kind with
    | spend =>
      obtain ⟨entry, age, hentry, -⟩ := h
      simp only [State.compacted, hentry]
      exact hheap
    | cell | requestResult => exact hheap
  | _ => exact hheap

/-- In a heap the first item is due if any item is. -/
theorem moreDue_iff {s : State B} (hheap : Heap.IsHeap expiryBefore s.chargedReadExpiryHeap) (now : ℕ) :
    s.moreDue now = true ↔ ∃ item ∈ s.chargedReadExpiryHeap, item.retryExpiresUnixMillis ≤ now := by
  simp only [State.moreDue, Option.any_eq_true, decide_eq_true_eq]
  constructor
  · rintro ⟨item, hitem, hdue⟩
    exact ⟨item, Array.mem_of_getElem? hitem, hdue⟩
  · rintro ⟨item, hmem, hdue⟩
    obtain ⟨i, hi, rfl⟩ := Array.mem_iff_getElem.mp hmem
    have hfirst := expiryBefore_eq_false.mp (hheap.root weak_expiryBefore (by omega) i hi)
    exact ⟨_, Array.getElem?_eq_getElem (by omega), (Prod.Lex.monotone_fst _ _ hfirst).trans hdue⟩

theorem sweepStep_isHeap {m m' : Sweeps B} {move : SweepMove B}
    (hheap : Heap.IsHeap expiryBefore m.state.chargedReadExpiryHeap) (h : sweepStep cfg m move = some m') :
    Heap.IsHeap expiryBefore m'.state.chargedReadExpiryHeap := by
  simp only [sweepStep] at h
  split at h
  · obtain ⟨s', hs', rfl⟩ := map_eq_some_iff.mp h
    exact (applyPayload_eq_ok_iff.mp (applyFrame_eq_ok.mp (frameStep_eq_some.mp hs')).2.1).isHeap hheap
  · split at h
    · next hpop =>
      split at h <;> cases h
      exact (hheap.pop weak_expiryBefore hpop).1
    · cases h
  all_goals
    split at h <;> cases h
    exact hheap

/-- **No overdue pin is forgotten** unless the append of a sweep failed for it. In every run of accepted
frames and of sweeps, the sweep finds more to do exactly when some item on the heap is due; so such a live
pin whose time has passed is still to be swept, or a sweep in progress has popped it. -/
theorem overdue_pins_swept {cfg : Config B} {moves : List (SweepMove B)} {m : Sweeps B}
    (h : run (sweepStep cfg) ⟨State.empty B, [], []⟩ moves = some m) (now : ℕ) : (m.state.moreDue now = true ↔
        ∃ item ∈ m.state.chargedReadExpiryHeap, item.retryExpiresUnixMillis ≤ now) ∧
      ∀ k e pin, m.state.spends.get? k = some e → e.livePin? = some pin → pin.retryExpiresUnixMillis ≤ now →
        (∀ now', .fail (expiryItem k e pin) now' ∉ moves) →
        m.state.moreDue now = true ∨ ∃ now', (expiryItem k e pin, now') ∈ m.popped := by
  have hdue := moreDue_iff (run_preserves (fun m => Heap.IsHeap expiryBefore m.state.chargedReadExpiryHeap)
    (fun _ _ _ hheap hstep => sweepStep_isHeap hheap hstep) (by simp [Heap.IsHeap, State.empty]) h) now
  refine ⟨hdue, fun k e pin he hpin hnow hfail => ?_⟩
  have hfailed : expiryItem k e pin ∉ m.failed := by
    intro hfailed
    rcases failed_of_run h hfailed with hold | ⟨now', hmem⟩
    · cases hold
    · exact hfail now' hmem
  exact ((sweepInvariant_run h).watched.live _ ⟨k, e, pin, he, hpin, rfl⟩ hfailed).imp_left
    fun hmem => hdue.mpr ⟨_, hmem, hnow⟩

def sampleBinding : ResultBinding ℕ where
  relayPublicKey := 7
  storeId := 9
  descriptorSequence := 1
  descriptorHash := 10
  durabilityProfileId := 1
  durabilityContinuityHash := 8
  durabilityProfileHash := 11
  restoreEvidenceHeadSequence := 0
  restoreEvidenceHeadHash := 0
  externalCommitWitness := false

/-- A charged batch read of one absent cell. -/
def samplePin : ReadPinCommitted ℕ where
  operationId := .batchGet
  spendTag := 22
  requestCommitment := 71
  requestFingerprint := 1
  preparedAdmission :=
    { sampleAdmission with
      spendTag := 22
      requestCommitment := 71
      leaseClass := 0 }
  resultBinding := sampleBinding
  receiptEpoch := 10
  retryExpiresUnixMillis := 900000
  entries := [chargedReadPinEntry 99 none 10]
  committedEpoch := 10

/-- The floor is set and a read is pinned. -/
def samplePinMoves : List (SweepMove ℕ) :=
  [.apply ⟨sampleFrame 1 0 (.floorAdvance ⟨0, 10⟩), .empty, false⟩,
    .apply ⟨sampleFrame 2 0 (.readPinCommitted samplePin), .empty, false⟩]

/-- The pin of the sample read is found through its commitment and is watched. -/
theorem samplePin_indexed : ∃ m e, run (sweepStep sampleConfig) ⟨State.empty ℕ, [], []⟩ samplePinMoves = some m ∧
      m.state.spends.get? 22 = some e ∧
      m.state.commitments.get? e.requestCommitment = some ⟨22, e.requestFingerprint⟩ ∧
      ∀ pin, e.state = .readPinned pin →
        ⟨pin.retryExpiresUnixMillis, 22, e.transactionId⟩ ∈ m.state.chargedReadExpiryHeap ∨
          ∃ now, (⟨pin.retryExpiresUnixMillis, 22, e.transactionId⟩, now) ∈ m.popped := by
  have hsome : ∃ m, run (sweepStep sampleConfig) ⟨State.empty ℕ, [], []⟩ samplePinMoves = some m :=
    isSome_iff_exists.mp (by decide)
  have hspend : ∀ m, run (sweepStep sampleConfig) ⟨State.empty ℕ, [], []⟩ samplePinMoves = some m →
      (m.state.spends.get? 22).isSome := by
    intro m hm
    have hget : ((run (sweepStep sampleConfig) ⟨State.empty ℕ, [], []⟩ samplePinMoves).bind
        fun m => m.state.spends.get? 22).isSome := by decide
    rw [hm] at hget
    exact hget
  obtain ⟨m, hm⟩ := hsome
  obtain ⟨e, he⟩ := isSome_iff_exists.mp (hspend m hm)
  obtain ⟨hforward, -, -, hwatched⟩ := commitments_inverse_and_pins_watched hm
  exact ⟨m, e, hm, he, hforward 22 e he, fun pin hpin => hwatched 22 e pin he (.inl hpin) (by simp [samplePinMoves])⟩

/-- The append of a sweep fails for the sample read: its pin is live, on no heap and in no sweep. -/
theorem failed_append_forgets_pin : ∃ m e pin, run (sweepStep sampleConfig) ⟨State.empty ℕ, [], []⟩
      (samplePinMoves ++ [.pop 900000, .fail ⟨900000, 22, 51⟩ 900000]) = some m ∧
    m.state.spends.get? 22 = some e ∧ e.livePin? = some pin ∧ m.state.chargedReadExpiryHeap.size = 0 ∧
      m.popped = [] := by
  have hrun : ((run (sweepStep sampleConfig) ⟨State.empty ℕ, [], []⟩
      (samplePinMoves ++ [.pop 900000, .fail ⟨900000, 22, 51⟩ 900000])).bind fun m =>
        (m.state.spends.get? 22).bind fun e => e.livePin?.map fun _ =>
          (m.state.chargedReadExpiryHeap.size, m.popped.isEmpty)) = some (0, true) := by decide +kernel
  obtain ⟨m, hm, hrest⟩ := bind_eq_some_iff.mp hrun
  obtain ⟨e, he, hpin⟩ := bind_eq_some_iff.mp hrest
  obtain ⟨pin, hpin, hsizes⟩ := map_eq_some_iff.mp hpin
  obtain ⟨hheap, hpopped⟩ := Prod.mk.inj hsizes
  exact ⟨m, e, pin, hm, he, hpin, hheap, isEmpty_iff.mp hpopped⟩

/-- The sweep finds the pin of the sample read once it is overdue. -/
theorem overdue_pins_swept_sample : ∃ m e pin, run (sweepStep sampleConfig) ⟨State.empty ℕ, [], []⟩ samplePinMoves =
      some m ∧ m.state.spends.get? 22 = some e ∧ e.livePin? = some pin ∧
    (m.state.moreDue 900000 = true ∨ ∃ now, (expiryItem 22 e pin, now) ∈ m.popped) := by
  have hrun : ((run (sweepStep sampleConfig) ⟨State.empty ℕ, [], []⟩ samplePinMoves).bind fun m =>
      (m.state.spends.get? 22).bind fun e => e.livePin?.map (·.retryExpiresUnixMillis)) = some 900000 := by decide
  obtain ⟨m, hm, hrest⟩ := bind_eq_some_iff.mp hrun
  obtain ⟨e, he, hpin⟩ := bind_eq_some_iff.mp hrest
  obtain ⟨pin, hpin, hretry⟩ := map_eq_some_iff.mp hpin
  exact ⟨m, e, pin, hm, he, hpin, (overdue_pins_swept hm 900000).2 22 e pin he hpin hretry.le (by simp [samplePinMoves])⟩

end HiveRelay.Cell
