import HiveRelay.Core.Floors
import HiveRelay.Lib.Advance

/-!
# Persisting an open record

`openPersistence` of the core engine makes the states of a `CORE.OPEN` record durable. Its three
hooks are `#persistOpen` at one state each: the record is checked, and then, under the locks of its
logical key and its spend, an `OPEN_STATE` frame is appended and applied. Whether the state may
follow the one that the record has is checked only when the frame is applied.

The calls for one record run one after the other, in the order in which they were made: they take
the same locks, and the locks are granted in order.

## Main definitions

* `MayFollow` — the order of the states
* `Settles` — what a run may do to attempts, sessions and spends

## Main results

* `persist_pairwise` — the frames of a list of calls are applied
* `core_requests_settle` — a request settles once
-/

namespace HiveRelay.Core

open OrderedMap List Option
open Cell (PreparedAdmission Failure failure)

/-- The argument of a persistence hook. -/
structure OpenInput (B : Type) where
  (logicalRetryKey spendTag requestCommitment wireProfileHash : B)
  sessionClass : ℕ
  (clientNonce parentSessionId : B)
  controlChannelId : ℕ
  parentChannelBinding : B
  (streamId maxSessionBytes idleMillis lifetimeMillis openedAtEpoch : ℕ)
  result : Option (OpenResult B)
  preparedAdmission : Option (PreparedAdmission B)
  terminalReason : Option String

variable {B : Type} [LinearOrder B] [Zero B]

/-- The snapshot that `#persistOpen` encodes. -/
def OpenInput.snapshot (cfg : Config B) (record : OpenInput B) (lifecycleState : LifecycleState) :
    OpenSnapshot B where
  __ := record
  lifecycleState := lifecycleState
  recordVirtualBucket := cfg.virtualBucket record.logicalRetryKey
  terminalReason :=
    if lifecycleState = .terminal then
      some (String.ofList ((record.terminalReason.getD "terminal").toList.take 64))
    else none

/-- `preparedAdmission` of the engine. -/
def preparedAdmission (value : PreparedAdmission B) (requestCommitment : B) :
    Except Failure (PreparedAdmission B) := do
  require (value.spendTag ≠ 0) (failure .badEncoding "spendTag must be nonzero")
  require (value.parameterHash ≠ 0) (failure .badEncoding "parameterHash must be nonzero")
  require (value.requestCommitment = requestCommitment)
    (failure .spendInvalid "prepared admission binds another request commitment")
  require (value.costUnits ≠ 0) (failure .spendInvalid "prepared admission costUnits must be nonzero")
  require (CanonicalAdmission value) (failure .badEncoding "prepared admission is not canonical")
  pure value

/-- `#persistOpen`: the frame that it appends, under the number that the log gives it. -/
def persistOpen (cfg : Config B) (s : State B) (record : OpenInput B)
    (lifecycleState : LifecycleState) (sequence : ℕ) : Except Failure (Frame B) := do
  let admission ← demand record.preparedAdmission
    (failure .internal "Core OPEN persistence requires its prepared admission")
  let admission ← preparedAdmission admission record.requestCommitment
  require (admission.leaseClass = 0 ∧ admission.resourceClass = record.sessionClass)
    (failure .spendInvalid "Core OPEN prepared cost class is invalid")
  let snapshot := record.snapshot cfg lifecycleState
  record.result.elim (pure ()) fun result => do
    require result.Canonical (failure .badEncoding "Core OPEN result is not canonical")
    validateOpenResult cfg result snapshot
  require snapshot.Canonical (failure .badEncoding "Core OPEN persistence snapshot is not canonical")
  -- under the locks of the logical key and of the spend
  let priorSpend := s.spends.get? record.spendTag
  require (∀ p ∈ priorSpend, p.operation = .openReplication ∧ p.requestCommitment = record.requestCommitment)
    (failure .spendReplay "Core OPEN spend is already bound to another request")
  require (priorSpend.isSome ∨ s.spends.size < cfg.maximumSpendRecords)
    (failure .busy "Core spend-record capacity is exhausted")
  pure ⟨sequence, cfg.virtualBucket record.logicalRetryKey, .openState ⟨admission, snapshot⟩⟩

/-- A call of a persistence hook: a call that is refused leaves no frame, and there is no state
after a frame that is durable and is not applied. -/
def persistStep (cfg : Config B) (s : State B) (call : (OpenInput B × LifecycleState) × ℕ) : Option (State B) :=
  match persistOpen cfg s call.1.1 call.1.2 call.2 with
  | .error _ => some s
  | .ok frame => (applyFrame cfg s frame false).toOption

/-! ### Spends of open records -/

/-- A spend of a `CORE.OPEN` is in the index of these spends. -/
def OpenSpendsIndexed (s : State B) : Prop :=
  ∀ tag spend, s.spends.get? tag = some spend → spend.operation = .openReplication →
    ∃ key, s.openSpendIndex.get? tag = some key

variable {s : State B}

omit [Zero B] in
theorem OpenSpendsIndexed.set {s' : State B} (h : OpenSpendsIndexed s) {tag : B} {spend : Spend B}
    (hspends : s'.spends = s.spends.set tag spend)
    (hindex : s'.openSpendIndex = s.openSpendIndex) (hother : spend.operation ≠ .openReplication) :
    OpenSpendsIndexed s' := by
  intro tag' spend' hget hop
  rw [hspends, get?_set] at hget
  rw [hindex]
  split at hget
  · cases hget
    exact absurd hop hother
  · exact h tag' spend' hget hop

variable {cfg : Config B}

theorem openSpendsIndexed_run {frames : List (Frame B × Bool)}
    (hrun : run (frameStep cfg) .initial frames = some s) : OpenSpendsIndexed s := by
  have hinitial : OpenSpendsIndexed (State.initial : State B) := by
    intro tag spend hget
    cases hget
  refine run_preserves OpenSpendsIndexed ?_ hinitial hrun
  rintro s ⟨frame, recovering⟩ s' h hstep
  rw [frameStep_eq_some, applyFrame_eq_ok] at hstep
  obtain ⟨-, s₁, hpayload, -, rfl⟩ := hstep
  suffices hs₁ : OpenSpendsIndexed s₁ from hs₁
  unfold applyPayload at hpayload
  cases hframe : frame.payload <;> simp only [hframe] at hpayload
  case mirrorAccepted v =>
    obtain ⟨-, rfl⟩ := applyMirrorAccepted_eq_ok.mp hpayload
    exact h.set rfl rfl nofun
  case mirrorActivated v =>
    obtain ⟨attempt, -, -, -, -, -, -, -, rfl⟩ := applyMirrorActivated_eq_ok.mp hpayload
    exact h
  case mirrorTerminal v =>
    obtain ⟨attempt, -, -, -, rfl⟩ := applyMirrorTerminal_eq_ok.mp hpayload
    exact h
  case provePinned v =>
    obtain ⟨-, rfl⟩ := applyProofPinned_eq_ok.mp hpayload
    exact h.set rfl rfl nofun
  case provePinExpired v =>
    obtain ⟨spend, -, pin, -, -, rfl⟩ := applyProofExpired_eq_ok.mp hpayload
    exact h
  case openState v =>
    obtain ⟨-, -, rfl⟩ := applyOpenState_eq_ok.mp hpayload
    intro tag spend hget hop
    rw [State.setOpen, get?_set] at hget
    rw [State.setOpen, get?_set]
    split at hget
    · next heq =>
      rw [if_pos heq]
      exact ⟨_, rfl⟩
    · next hne =>
      rw [if_neg hne]
      exact h tag spend hget hop
  case mirrorRetryPending v =>
    obtain ⟨attempt, -, -, rfl⟩ := applyMirrorRetryPending_eq_ok.mp hpayload
    exact h
  case coreExpired v =>
    obtain ⟨current, -, -, rfl⟩ := applyCoreExpired_eq_ok.mp hpayload
    exact h

/-! ### The calls for one record -/

/-- How far a record has come: it has no frame yet, or its last frame has a state. -/
structure PersistedAs (s : State B) (logicalKey spendTag commitment : B)
    (last : Option LifecycleState) : Prop where
  indexed : OpenSpendsIndexed s
  logical : ∀ record, s.openRecords.get? logicalKey = some record →
    record.snapshot.requestCommitment = commitment ∧ last = some record.snapshot.lifecycleState
  present : (s.openSpendIndex.get? spendTag).isSome = true → (s.openRecords.get? logicalKey).isSome = true
  spend : ∀ key, s.openSpendIndex.get? spendTag = some key → key = logicalKey

def MayFollow (last : Option LifecycleState) (next : LifecycleState) : Prop :=
  ∀ prior ∈ last, prior.Allows next

theorem persistOpen_eq_ok {record : OpenInput B} {lifecycleState : LifecycleState} {sequence : ℕ} {frame : Frame B}
    (h : persistOpen cfg s record lifecycleState sequence = .ok frame) :
    ∃ admission, record.preparedAdmission = some admission ∧
      (admission.requestCommitment = record.requestCommitment ∧ admission.costUnits ≠ 0 ∧
        CanonicalAdmission admission ∧ admission.leaseClass = 0 ∧
        admission.resourceClass = record.sessionClass) ∧
      (∀ r ∈ record.result, validateOpenResult cfg r (record.snapshot cfg lifecycleState) = .ok ()) ∧
      (record.snapshot cfg lifecycleState).Canonical ∧
      (∀ p ∈ s.spends.get? record.spendTag, p.operation = .openReplication ∧
        p.requestCommitment = record.requestCommitment) ∧
      ((s.spends.get? record.spendTag).isSome ∨ s.spends.size < cfg.maximumSpendRecords) ∧
      frame = ⟨sequence, cfg.virtualBucket record.logicalRetryKey,
        .openState ⟨admission, record.snapshot cfg lifecycleState⟩⟩ := by
  simp only [persistOpen, preparedAdmission, guards_eq_ok] at h
  obtain ⟨admission, hadmission, _, ⟨-, -, hcommitment, hcost, hcanonical, rfl⟩, hclass, u, hresult,
    hsnapshot, hspend, hroom, rfl⟩ := h
  refine ⟨_, hadmission, ⟨hcommitment, hcost, hcanonical, hclass⟩, ?_, hsnapshot, hspend, hroom, rfl⟩
  intro r hr
  rw [hr, elim_some] at hresult
  simp only [guards_eq_ok] at hresult
  exact hresult.2

theorem persistStep_applies {record : OpenInput B} {next : LifecycleState} {last : Option LifecycleState}
    (hs : PersistedAs s record.logicalRetryKey record.spendTag record.requestCommitment last)
    (hspend : ∀ a ∈ record.preparedAdmission, a.spendTag = record.spendTag)
    (hnext : MayFollow last next) (sequence : ℕ) :
    ∃ s', persistStep cfg s ((record, next), sequence) = some s' ∧
      (s' = s ∨ PersistedAs s' record.logicalRetryKey record.spendTag record.requestCommitment (some next)) := by
  unfold persistStep
  cases hframe : persistOpen cfg s record next sequence with
  | error e => exact ⟨s, rfl, .inl rfl⟩
  | ok frame =>
    obtain ⟨admission, hadmission, ⟨hcommitment, hcost, hcanonical, hclass⟩, hresult, hsnapshot,
      hprior, hroom, rfl⟩ := persistOpen_eq_ok hframe
    set v : OpenStateChange B := ⟨admission, record.snapshot cfg next⟩ with hv
    set frame : Frame B :=
      ⟨sequence, cfg.virtualBucket record.logicalRetryKey, .openState v⟩ with hframeDef
    have hguards : OpenGuards cfg s frame v := by
      refine ⟨⟨hspend admission hadmission, hclass.1, hclass.2, hcost, hcommitment, rfl, rfl⟩, ?_, ?_, ?_, hresult⟩
      · exact fun p hp => (hs.logical p hp).1
      · exact hs.spend
      · rcases hroom with hsome | hroom
        · -- the spend of an earlier frame of this record
          obtain ⟨spend, hget⟩ := isSome_iff_exists.mp hsome
          obtain ⟨key, hkey⟩ := hs.indexed _ spend hget (hprior spend hget).1
          exact .inl (hs.present (by rw [hkey]; rfl))
        · exact .inr hroom
    have hallows : ∀ p ∈ s.openRecords.get? v.snapshot.logicalRetryKey,
        p.snapshot.lifecycleState.Allows v.snapshot.lifecycleState := by
      intro p hp
      exact hnext _ (hs.logical p hp).2
    have happly : applyOpenState cfg s frame v = .ok (s.setOpen v (s.openRecords.get? v.snapshot.logicalRetryKey)) :=
      applyOpenState_eq_ok.mpr ⟨hguards, hallows, rfl⟩
    have hok : applyFrame cfg s frame false =
        .ok ((s.setOpen v (s.openRecords.get? v.snapshot.logicalRetryKey)).atSequence sequence) :=
      applyFrame_eq_ok.mpr ⟨⟨hcanonical, hsnapshot⟩, _, happly, nofun, rfl⟩
    simp only [hok, Except.toOption]
    refine ⟨_, rfl, .inr ⟨?_, ?_, ?_, ?_⟩⟩
    · intro tag spend hget hop
      have hget : (s.spends.set _ _).get? tag = some spend := hget
      show ∃ key, (s.openSpendIndex.set _ _).get? tag = some key
      rw [get?_set] at hget ⊢
      split at hget
      · next heq =>
        rw [if_pos heq]
        exact ⟨_, rfl⟩
      · next hne =>
        rw [if_neg hne]
        exact hs.indexed tag spend hget hop
    · intro p hp
      have hp : (s.openRecords.set record.logicalRetryKey ⟨v.snapshot, v.preparedAdmission⟩).get?
        record.logicalRetryKey = some p := hp
      rw [get?_set_self] at hp
      cases hp
      exact ⟨rfl, rfl⟩
    · intro _
      show ((s.openRecords.set record.logicalRetryKey _).get? record.logicalRetryKey).isSome = true
      rw [get?_set_self]
      rfl
    · intro key hkey
      have hkey : (s.openSpendIndex.set record.spendTag record.logicalRetryKey).get?
        record.spendTag = some key := hkey
      rw [get?_set_self] at hkey
      exact (some.inj hkey).symm

/-- **All frames of a list of calls are applied**, if the state of each call may follow the states of
all calls before it: some of these may have been refused. -/
theorem persist_pairwise {logicalKey spendTag commitment : B}
    {last : Option LifecycleState} (hs : PersistedAs s logicalKey spendTag commitment last)
    {calls : List ((OpenInput B × LifecycleState) × ℕ)}
    (hinput : ∀ call ∈ calls, call.1.1.logicalRetryKey = logicalKey ∧
      call.1.1.spendTag = spendTag ∧ call.1.1.requestCommitment = commitment ∧
      ∀ a ∈ call.1.1.preparedAdmission, a.spendTag = spendTag)
    (hlast : ∀ call ∈ calls, MayFollow last call.1.2)
    (hpair : (calls.map fun call => call.1.2).Pairwise LifecycleState.Allows) :
    ∃ s', run (persistStep cfg) s calls = some s' := by
  induction calls generalizing s last with
  | nil => exact ⟨s, rfl⟩
  | cons call calls ih =>
    obtain ⟨⟨record, next⟩, sequence⟩ := call
    obtain ⟨rfl, rfl, rfl, hadmission⟩ := hinput _ mem_cons_self
    rw [map_cons, pairwise_cons] at hpair
    obtain ⟨s₁, hstep, hs₁⟩ :=
      persistStep_applies hs hadmission (hlast _ mem_cons_self) sequence
    have hrest := fun c hc => hinput c (mem_cons_of_mem _ hc)
    obtain ⟨s', hs'⟩ : ∃ s', run (persistStep cfg) s₁ calls = some s' := by
      rcases hs₁ with rfl | hs₁
      · exact ih hs hrest (fun c hc => hlast c (mem_cons_of_mem _ hc)) hpair.2
      · refine ih hs₁ hrest (fun c hc prior hprior => ?_) hpair.2
        cases hprior
        exact hpair.1 _ (mem_map_of_mem hc)
    exact ⟨s', run_cons.mpr ⟨s₁, hstep, hs'⟩⟩

/-! ### What the log never forgets -/

/-- What one frame makes of a mirror attempt. -/
inductive MirrorAttempt.Advances (a : MirrorAttempt B) : MirrorAttempt B → Prop
  | activate (h : a.state.Pending) : Advances a { a with state := .active }
  | terminate (reason : ℕ) (h : a.state ≠ .active ∧ a.state ≠ .terminal) :
      Advances a { a with state := .terminal, terminalReason := some reason }
  | retry (reason : ℕ) (h : a.state.Pending) :
      Advances a { a with state := .retryPending, retryCount := a.retryCount + 1, retryReason := some reason }

omit [LinearOrder B] [Zero B] in
theorem MirrorAttempt.Advances.pending {a a' : MirrorAttempt B} (h : a.Advances a') : a.state.Pending := by
  cases h with
  | activate h | retry _ h => exact h
  | terminate _ h => cases hstate : a.state <;> simp_all [AttemptState.Pending]

/-- What one frame makes of the record of a session. -/
structure OpenRecord.Advances (r r' : OpenRecord B) : Prop where
  commitment : r.snapshot.requestCommitment = r'.snapshot.requestCommitment
  lifecycle : r.snapshot.lifecycleState.Allows r'.snapshot.lifecycleState

/-- The attempts, the sessions and the spends of sessions are kept, and only advance. -/
structure Settles (s s' : State B) : Prop where
  attempts : s.mirrorAttempts.Advances MirrorAttempt.Advances s'.mirrorAttempts
  sessions : s.openRecords.Advances OpenRecord.Advances s'.openRecords
  spends : s.openSpendIndex.Advances (fun _ _ => False) s'.openSpendIndex

/-- **A frame only advances** the attempts and the sessions. -/
theorem frameStep_settles {s' : State B} {m : Frame B × Bool} (h : frameStep cfg s m = some s') : Settles s s' := by
  obtain ⟨frame, recovering⟩ := m
  rw [frameStep_eq_some, applyFrame_eq_ok] at h
  obtain ⟨-, s₁, hpayload, -, rfl⟩ := h
  -- the sequence number is no part of the maps
  suffices hs₁ : Settles s s₁ from ⟨hs₁.attempts, hs₁.sessions, hs₁.spends⟩
  unfold applyPayload at hpayload
  cases hframe : frame.payload <;> simp only [hframe] at hpayload
  case mirrorAccepted v =>
    obtain ⟨hguards, rfl⟩ := applyMirrorAccepted_eq_ok.mp hpayload
    exact ⟨advances_add hguards.fresh, .refl _ _, .refl _ _⟩
  case mirrorActivated v =>
    obtain ⟨attempt, hget, -, -, hpending, -, -, -, rfl⟩ := applyMirrorActivated_eq_ok.mp hpayload
    exact ⟨advances_set hget (.activate hpending), .refl _ _, .refl _ _⟩
  case mirrorTerminal v =>
    obtain ⟨attempt, hget, -, hstate, rfl⟩ := applyMirrorTerminal_eq_ok.mp hpayload
    exact ⟨advances_set hget (.terminate _ hstate), .refl _ _, .refl _ _⟩
  case mirrorRetryPending v =>
    obtain ⟨attempt, hget, ⟨-, -, hpending, hcount⟩, rfl⟩ := applyMirrorRetryPending_eq_ok.mp hpayload
    rw [State.retry, hcount]
    exact ⟨advances_set hget (.retry _ hpending), .refl _ _, .refl _ _⟩
  case provePinned v =>
    obtain ⟨-, rfl⟩ := applyProofPinned_eq_ok.mp hpayload
    exact ⟨.refl _ _, .refl _ _, .refl _ _⟩
  case provePinExpired v =>
    obtain ⟨spend, -, pin, -, -, rfl⟩ := applyProofExpired_eq_ok.mp hpayload
    exact ⟨.refl _ _, .refl _ _, .refl _ _⟩
  case coreExpired v =>
    obtain ⟨current, -, -, rfl⟩ := applyCoreExpired_eq_ok.mp hpayload
    exact ⟨.refl _ _, .refl _ _, .refl _ _⟩
  case openState v =>
    obtain ⟨hguards, hallows, rfl⟩ := applyOpenState_eq_ok.mp hpayload
    refine ⟨.refl _ _, ?_, ?_⟩
    · show s.openRecords.Advances _ (s.openRecords.set _ _)
      cases hget : s.openRecords.get? v.snapshot.logicalRetryKey with
      | none => exact advances_add hget
      | some r => exact advances_set hget ⟨hguards.logical r hget, hallows r hget⟩
    · show s.openSpendIndex.Advances _ (s.openSpendIndex.set _ _)
      cases hget : s.openSpendIndex.get? v.snapshot.spendTag with
      | none => exact advances_add hget
      | some key =>
        -- the spend is bound to this session already
        rw [← hguards.spend key hget, set_of_get? hget]
        exact .refl _ _

/-- **A request settles once.** Along every run a mirror attempt is kept with everything but its state,
and is final once it is active or terminal; a session keeps its commitment and goes through its
lifecycle once, and is final once it is terminal; and the spend of a session names the same session for
ever. -/
theorem core_requests_settle {s' : State B} {frames : List (Frame B × Bool)}
    (hrun : run (frameStep cfg) s frames = some s') : Settles s s' ∧
      (∀ tag a, s.mirrorAttempts.get? tag = some a → ¬ a.state.Pending → s'.mirrorAttempts.get? tag = some a) ∧
      (∀ key r, s.openRecords.get? key = some r → r.snapshot.lifecycleState = .terminal →
        s'.openRecords.get? key = some r) ∧
      ∀ tag key, s.openSpendIndex.get? tag = some key → s'.openSpendIndex.get? tag = some key := by
  have hsettles : Settles s s' := by
    refine run_preserves (Settles s) (fun s₁ m s₂ h hstep => ?_) ⟨.refl _ _, .refl _ _, .refl _ _⟩ hrun
    have hnext := frameStep_settles hstep
    exact ⟨h.attempts.trans hnext.attempts, h.sessions.trans hnext.sessions, h.spends.trans hnext.spends⟩
  refine ⟨hsettles, fun tag a ha hfinal => ?_, fun key r hr hterminal => ?_, fun tag key hkey => ?_⟩
  · exact hsettles.attempts.final ha fun a' h => hfinal h.pending
  · refine hsettles.sessions.final hr fun r' h => ?_
    have hallows := h.lifecycle
    rw [hterminal] at hallows
    exact hallows
  · exact hsettles.spends.final hkey fun _ => id

/-- The attempt of the sample is activated, and stays so. -/
theorem core_requests_settle_sample : ∃ s s', run (frameStep sampleConfig) .initial sampleFirst = some s ∧
    run (frameStep sampleConfig) s sampleRenewal = some s' ∧ Settles s s' := by
  obtain ⟨s, hs, hrest⟩ := run_append.mp
    (@run_sampleState (sampleFirst ++ sampleRenewal) (by decide +kernel))
  exact ⟨s, _, hs, hrest, (core_requests_settle hrest).1⟩

end HiveRelay.Core
