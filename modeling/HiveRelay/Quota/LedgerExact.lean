import HiveRelay.Quota.Headroom
import HiveRelay.Quota.Machine

/-!
# The ledger and recovery

Recovery takes a log frame by frame. The ledger is moved at other times: the mirrors when a frame was
appended, the logical bytes when the operation is committed, and both for a tombstone when it is
adjusted. `Recovers` says what a fresh sink makes of a log; the lemmas here have what one more frame
adds to it, in the terms of the calls that move the ledger.
-/

namespace HiveRelay.Quota

open List

/-! ### One more frame -/

section Recovery

variable {C : Crypto} {storeRole : StoreRole} {settled : List WalFrame}
  {sessions : OrderedMap Bytes Mirror} {logical : ℤ} {frame : WalFrame} {entry : WalEntry}

/-- What a fresh sink absorbs a log to. -/
def Recovers (C : Crypto) (storeRole : StoreRole) (wal : List WalFrame)
    (sessions : OrderedMap Bytes Mirror) (logical : ℤ) : Prop :=
  ∃ sink log, absorbAll C (.begin storeRole) wal = .ok (sink, log) ∧ sink.sessions = sessions ∧
    sink.logicalBytes = logical

/-- A frame with the next sequence and the hash before it. -/
structure Joins (settled : List WalFrame) (frame : WalFrame) : Prop where
  sequence : frame.sequence = settled.length + 1
  previous : frame.previousWalHash = settled.getLast?.elim zero32 WalFrame.walHash
  frameBytes : frame.frameBytes = frame.payload.length + walFrameOverheadBytes
  type_range : 1 ≤ frame.type ∧ frame.type ≤ 255

theorem joins_durableFrame {type : ℕ} (hrange : 1 ≤ type ∧ type ≤ 255) (payload payloadHash walHash : Bytes) :
    Joins settled (durableFrame settled type payload payloadHash walHash) :=
  ⟨rfl, rfl, rfl, hrange⟩

structure Stands (storeRole : StoreRole) (frames : List WalFrame) (sink : Sink) : Prop where
  role : sink.role = storeRole
  sequence : sink.lastSequence = frames.length
  hash : sink.lastHash = frames.getLast?.elim zero32 WalFrame.walHash
  length_hash : sink.lastHash.length = 32

theorem absorb_stands {sink sink' : Sink} (hstands : Stands storeRole settled sink)
    (h : absorbForwardHttpsAggregateQuotaRecoveryFrameV3 C sink frame = .ok (sink', entry)) :
    Stands storeRole (settled ++ [frame]) sink' := by
  simp only [absorbForwardHttpsAggregateQuotaRecoveryFrameV3, guards_eq_ok, Prod.mk.injEq] at h
  obtain ⟨-, hsequence, -, -, -, -, -, hlength, -, -, -, -, -, -, -, -, rfl, -⟩ := h
  refine ⟨hstands.role, ?_, ?_, hlength⟩
  · show frame.sequence = _
    rw [hsequence, hstands.sequence, length_append, length_singleton]
  · show frame.walHash = _
    rw [getLast?_concat]
    rfl

theorem absorbAll_append {frames : List WalFrame} {sink sink₁ sink₂ : Sink}
    {log : List (WalEntry × Bytes)} (h : absorbAll C sink frames = .ok (sink₁, log))
    (hframe : absorbForwardHttpsAggregateQuotaRecoveryFrameV3 C sink₁ frame = .ok (sink₂, entry)) :
    absorbAll C sink (frames ++ [frame]) = .ok (sink₂, log ++ [(entry, frame.payload)]) := by
  induction frames generalizing sink log with
  | nil =>
    obtain ⟨rfl, rfl⟩ := h
    simp only [nil_append, absorbAll, guards_eq_ok]
    exact ⟨_, hframe, _, rfl, rfl⟩
  | cons first frames ih =>
    simp only [absorbAll, guards_eq_ok, Prod.mk.injEq] at h
    obtain ⟨⟨sink₃, entry₃⟩, hfirst, ⟨sink₄, log₄⟩, hrest, rfl, rfl⟩ := h
    simp only [cons_append, absorbAll, guards_eq_ok]
    exact ⟨_, hfirst, _, ih hrest, rfl⟩

theorem stands_of_absorbAll (done : List WalFrame) {frames : List WalFrame} {sink sink' : Sink}
    {log : List (WalEntry × Bytes)} (hstands : Stands storeRole done sink)
    (h : absorbAll C sink frames = .ok (sink', log)) : Stands storeRole (done ++ frames) sink' := by
  induction frames generalizing sink log done with
  | nil =>
    obtain ⟨rfl, rfl⟩ := h
    rwa [append_nil]
  | cons frame frames ih =>
    simp only [absorbAll, guards_eq_ok, Prod.mk.injEq] at h
    obtain ⟨⟨sink₁, entry⟩, habsorb, ⟨sink₂, log₂⟩, hrest, rfl, rfl⟩ := h
    rw [append_cons]
    exact ih _ (absorb_stands hstands habsorb) hrest

/-- **One more frame**, whose checks are met. -/
theorem Recovers.append (sessions' : OrderedMap Bytes Mirror) (pruned : Option Tombstone)
    (h : Recovers C storeRole settled sessions logical) (hjoins : Joins settled frame)
    (hwalHash : frame.walHash.length = 32)
    (hderive : deriveForwardHttpsStoreWalQuotaEntryV3 C storeRole frame sessions.get? = .ok entry)
    (hpruned : prunedOf entry frame.payload = .ok pruned)
    (hmatched : matchRecovered C sessions pruned = .ok ())
    (hsessions : applyEntryToSessionMirror C sessions entry frame.payload = .ok sessions') :
    Recovers C storeRole (settled ++ [frame]) sessions' (logical + netCharge entry pruned) := by
  obtain ⟨sink, log, habsorb, rfl, rfl⟩ := h
  have hstands : Stands storeRole settled sink :=
    stands_of_absorbAll [] ⟨rfl, rfl, rfl, length_replicate⟩ habsorb
  obtain ⟨hfrom, -⟩ := derived_of_derive hderive
  have hframe : absorbForwardHttpsAggregateQuotaRecoveryFrameV3 C sink frame =
      .ok ({ sink with
        sessions := sessions'
        logicalBytes := sink.logicalBytes + netCharge entry pruned
        lastSequence := frame.sequence
        lastHash := frame.walHash }, entry) := by
    simp only [absorbForwardHttpsAggregateQuotaRecoveryFrameV3, guards_eq_ok]
    have hprevious : frame.previousWalHash = sink.lastHash := hjoins.previous.trans hstands.hash.symm
    refine ⟨hfrom.sequence_lt, ?_, ?_, hprevious, hjoins.frameBytes, hjoins.type_range,
      hfrom.length_payloadHash, hwalHash, entry, ?_, pruned, hpruned, (), hmatched, sessions', hsessions,
      rfl⟩
    · rw [hjoins.sequence, hstands.sequence]
    · rw [hprevious]
      exact hstands.length_hash
    · rw [hstands.role]
      exact hderive
  exact ⟨_, _, absorbAll_append habsorb hframe, rfl, rfl⟩

theorem Joins.derived_frame (hjoins : Joins settled frame) :
    { frame with frameBytes := frame.payload.length + walFrameOverheadBytes } = frame := by
  rw [← hjoins.frameBytes]

/-- **A frame that was applied**, and is no tombstone. -/
theorem Recovers.applied {r r' : Reservation} {ordinal : ℕ} {sessions' : OrderedMap Bytes Mirror}
    (h : Recovers C storeRole settled sessions logical) (hjoins : Joins settled frame)
    (happlied : Applied C storeRole sessions r ordinal frame r' sessions' entry)
    (hscope : entry.scope ≠ .pruneTransition) :
    Recovers C storeRole (settled ++ [frame]) sessions'
      (logical + entry.ordinaryLogicalCharge + entry.terminalLogicalCharge) := by
  have hderive := happlied.derive
  rw [hjoins.derived_frame] at hderive
  have hsessions := happlied.sessions_eq
  rw [appliedSessions, if_neg hscope] at hsessions
  have hnet := h.append sessions' none hjoins happlied.length_walHash hderive
    (by rw [prunedOf, if_neg hscope]; rfl) rfl hsessions
  rwa [netCharge, ← add_assoc] at hnet

theorem Applied.sessions_of_prune {r r' : Reservation} {ordinal : ℕ} {sessions' : OrderedMap Bytes Mirror}
    (happlied : Applied C storeRole sessions r ordinal frame r' sessions' entry)
    (hscope : entry.scope = .pruneTransition) : sessions' = sessions := by
  have hsessions := happlied.sessions_eq
  rw [appliedSessions, if_pos hscope] at hsessions
  exact (pure_eq_ok_iff.mp hsessions).symm

theorem adjusted_spec {ledger ledger' : Ledger} {pruned : Tombstone}
    (h : adjusted C ledger storeRole pruned = .ok ledger') :
    ledger' = (ledger.setSessions storeRole ((ledger.sessions storeRole).set pruned.stableSessionId
      (applyPrune C (((ledger.sessions storeRole).get? pruned.stableSessionId).getD .unseen)
        pruned))).setLogical storeRole (ledger.logical storeRole - pruned.removedOrdinaryLogicalBytes + 736) := by
  simp only [adjusted, guards_eq_ok] at h
  exact h.2.symm

theorem Recovers.adjust {ledger ledger' : Ledger} {pruned : Tombstone}
    (h : Recovers C storeRole settled (ledger.sessions storeRole) (ledger.logical storeRole))
    (hjoins : Joins settled frame) (hwalHash : frame.walHash.length = 32)
    (hderive : deriveForwardHttpsStoreWalQuotaEntryV3 C storeRole frame (ledger.sessions storeRole).get? = .ok entry)
    (hscope : entry.scope = .pruneTransition)
    (hdecode : decodeForwardHttpsRetentionPrunedV3 frame.payload = .ok pruned)
    (hmatch : matchFpr9AgainstMirror C ((ledger.sessions storeRole).get? pruned.stableSessionId) pruned
      pruned.role pruned.stableSessionId = .ok ())
    (hadjusted : adjusted C ledger storeRole pruned = .ok ledger') :
    Recovers C storeRole (settled ++ [frame]) (ledger'.sessions storeRole) (ledger'.logical storeRole) := by
  obtain ⟨-, hderived⟩ := derived_of_derive hderive
  cases hderived with
  | prune pruned₀ _ _ hid hdecode₀ hrole hcharge hterminal =>
    obtain rfl := Except.ok.inj (hdecode.symm.trans hdecode₀)
    have hnet := h.append (ledger'.sessions storeRole) (some pruned) hjoins hwalHash hderive
      (by rw [prunedOf, if_pos hscope, hdecode]; rfl)
      (by rw [matchRecovered, hmatch]; rfl)
      (by
        rw [adjusted_spec hadjusted, applyEntryToSessionMirror, hscope, hid]
        simp only [hdecode, Ledger.setLogical, Ledger.setSessions, Function.update_self]
        rfl)
    rw [netCharge, hcharge] at hnet
    have hlogical : ledger'.logical storeRole =
        ledger.logical storeRole + ((fpr9LogicalBytes : ℤ) - pruned.removedOrdinaryLogicalBytes) := by
      rw [adjusted_spec hadjusted]
      simp only [Ledger.setLogical, Function.update_self, fpr9LogicalBytes]
      omega
    rwa [hlogical]
  | run _ hs | other _ hs | terminal _ _ hs | roleGlobal _ hs => exact absurd (hs.symm.trans hscope) (by decide)

end Recovery

/-! ### The frames of a reservation -/

section Fitting

variable {C : Crypto} {role : QuotaRole} {storeRole : StoreRole} {r r' : Reservation}
  {ordinal type : ℕ} {payload : Bytes}

/-- What a binding promises of the frames of a reservation. -/
structure Fits (r : Reservation) : Prop where
  unbound : r.bound = false → r.totalFrames = 0 ∧ r.walAttempted = false
  prune : r.bound = true → r.plan.operation = .prune → r.terminal = none ∧ r.totalFrames = 1
  fresh : r.walAttempted = false → r.nextOrdinal = 0 ∧ r.derivedLogical = 0
  store : r.walAttempted = true → r.role.store? ≠ none

theorem fits_of_reserved {limits : Limits} {ledger : Ledger} {plan : Plan} {ticket : ℕ}
    (h : reserved limits ledger role plan ticket = .ok r) :
    Fits r ∧ r.role = role ∧ r.plan = plan ∧ r.burned = false ∧ r.walAttempted = false ∧
      r.opRelease = some ticket := by
  simp only [reserved, guards_eq_ok] at h
  obtain ⟨-, -, terminal, -, rfl⟩ := h
  refine ⟨⟨fun _ => ⟨rfl, rfl⟩, fun hbound => ?_, fun _ => ⟨rfl, rfl⟩, fun hattempted => ?_⟩, rfl, rfl, rfl, rfl, rfl⟩
  · cases hbound
  · cases hattempted

theorem Fits.bind (h : Fits r) (hbound : Bound r r') : Fits r' := by
  have hattempted := (h.unbound hbound.unbound).2
  have hfresh := h.fresh hattempted
  have hprune := hbound.prune
  obtain ⟨frames, session, commitment, rfl⟩ := hbound.eq
  exact
    { unbound := nofun
      prune := fun _ hoperation => hprune hoperation
      fresh := fun _ => ⟨rfl, hfresh.2⟩
      store := h.store }

theorem Fits.begin (h : Fits r) (hstore : role.store? = some storeRole)
    (hbegun : Begun role r ordinal type payload r') : Fits r' := by
  have hbound : r.bound = true := by
    by_contra hnot
    have hzero := (h.unbound (Bool.not_eq_true _ ▸ hnot)).1
    have := hbegun.ordinal_lt
    omega
  rw [hbegun.eq]
  exact
    { unbound := fun hnot => absurd (hbound.symm.trans hnot) (by decide)
      prune := h.prune
      fresh := nofun
      store := fun _ => by
        show r.role.store? ≠ none
        rw [hbegun.role_eq, hstore]
        exact Option.some_ne_none _ }

theorem Fits.apply (h : Fits r) (hattempted : r.walAttempted = true)
    {sessions sessions' : OrderedMap Bytes Mirror} {frame : WalFrame} {entry : WalEntry}
    (happlied : Applied C storeRole sessions r ordinal frame r' sessions' entry) : Fits r' := by
  obtain ⟨handoff, claims, rfl⟩ := happlied.eq
  exact
    { h with
      fresh := fun hnot => absurd (hattempted.symm.trans hnot) (by decide) }

theorem Fits.prune_iff (h : Fits r) (hbegun : Begun role r ordinal type payload r') {cls : WalClass}
    (hclass : (walRegistry type).map Prod.snd = some cls) :
    cls = .pruneTransition ↔ r.plan.operation = .prune := by
  have hbound : r.bound = true := by
    by_contra hnot
    have hzero := (h.unbound (Bool.not_eq_true _ ▸ hnot)).1
    have := hbegun.ordinal_lt
    omega
  have htypes := types_of_class hclass
  constructor
  · rintro rfl
    have hfinal : type ∈ r.frameRow.elim [] FrameRow.finalTypes := by
      refine hbegun.final fun hlt => ?_
      have := hbegun.run hlt
      omega
    unfold Reservation.frameRow at hfinal
    split at hfinal
    · simp [Quota.frameRow] at hfinal
      omega
    · by_contra hne
      revert hfinal
      cases hoperation : r.plan.operation <;> simp [Quota.frameRow] <;> first | omega | exact absurd hoperation hne
  · intro hoperation
    obtain ⟨hterminal, htotal⟩ := h.prune hbound hoperation
    have hfinal := hbegun.final (by omega)
    rw [Reservation.frameRow, hterminal, hoperation] at hfinal
    simp [Quota.frameRow] at hfinal
    cases cls <;> first | rfl | (exfalso; omega)

theorem not_begun_twice (hordinal : r.claims[r.nextOrdinal]? = some .begun) {begun : Reservation}
    (hbegin : beginApply role r ordinal type payload = .appending begun) : False := by
  have heq := (begun_of_beginApply hbegin).ordinal_eq
  subst heq
  unfold beginApply at hbegin
  rw [hordinal] at hbegin
  simp only [Option.filter_some] at hbegin
  split at hbegin
  · cases hbegin
  · next state hstate =>
    obtain rfl : ClaimState.begun = state := by simpa using hstate
    split at hbegin
    · cases hbegin
    split at hbegin
    · cases hbegin
    split at hbegin
    · cases hbegin
    split at hbegin
    · cases hbegin
    split at hbegin
    · cases hbegin
    split at hbegin
    · cases hbegin
    split at hbegin
    · cases hbegin
    next hfirst hnext =>
      by_cases hzero : r.nextOrdinal = 0
      · exact hfirst ⟨hzero, by decide⟩
      · exact hnext ⟨hzero, fun h => by cases h.1⟩

theorem reservation_of_rejected {error : Failure} (h : beginApply role r ordinal type payload = .rejected r' error) :
    r' = r ∨ r' = { r with
      walAttempted := true
      lastHandoff := none
      claims := r.claims.set ordinal .begun } := by
  unfold beginApply at h
  split at h
  · cases h
  split at h
  · cases h
  split at h
  · injection h with h
    exact .inl h.symm
  split at h
  · cases h
  split at h
  · injection h with h
    exact .inl h.symm
  split at h
  · injection h with h
    exact .inl h.symm
  split at h
  · injection h with h
    exact .inl h.symm
  split at h
  · injection h with h
    exact .inl h.symm
  split at h
  · injection h with h
    exact .inr h.symm
  · cases h

end Fitting

end HiveRelay.Quota
