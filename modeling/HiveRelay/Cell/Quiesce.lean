import HiveRelay.Cell.Replay

/-!
# Snapshots of a running engine

`captureControlSnapshotState` quiesces the engine: it sets `snapshotting`, so that nothing new is
admitted, waits until the operations that are already counted have ended, and clones what the log
maintains. Callers that are turned away get a `BUSY` and nothing else happens. The two background
timers are turned away in the same place, and both take a rejection for a failure of the store.

An operation is modelled by what it can do to the fields that a snapshot clones: it may have a frame
applied, it may declare the store read-only, and it ends. Frames may also be applied while nothing is
counted, since a `commitAtomicCellPut` goes on after its lease was cancelled. The log advances
`walSequence` and `walHash` and applies the frame in one turn of the event loop. A timer fires when
no promise job is left, so never between the end of the capture's wait and its next turn.

## Main definitions

* `OpenEngine`, `QuiesceMove` — the engine under a capture, and its turns
* `Harmless` — a turn that leaves alone what it must

## Main results

* `harmless_iff_timerSpared` — one turn
* `harmless_capture_iff` — all turns of a capture
-/

set_option linter.unusedSectionVars false

namespace HiveRelay.Cell

open Option List

variable {B : Type} [LinearOrder B] [Zero B]

/-! ### What the log maintains -/

/-- `s` with the fields of `t` that also change without a frame. -/
def State.withVolatile (s t : State B) : State B :=
  { s with
    readOnlyReason := t.readOnlyReason
    integrityEvidence := t.integrityEvidence
    chargedReadExpiryHeap := t.chargedReadExpiryHeap }

/-- Two states agree in what only frames change. -/
structure SameLog (s t : State B) : Prop where
  spends : s.spends = t.spends
  commitments : s.commitments = t.commitments
  requestResults : s.requestResults = t.requestResults
  cells : s.cells = t.cells
  accounting : s.accounting = t.accounting
  epochFloor : s.epochFloor = t.epochFloor
  clockUnsafe : s.clockUnsafe = t.clockUnsafe
  compactionWalHighWater : s.compactionWalHighWater = t.compactionWalHighWater

theorem SameLog.refl (s : State B) : SameLog s s :=
  ⟨rfl, rfl, rfl, rfl, rfl, rfl, rfl, rfl⟩

variable {s : State B}

theorem SameLog.symm {t : State B} (h : SameLog s t) : SameLog t s where
  spends := h.spends.symm
  commitments := h.commitments.symm
  requestResults := h.requestResults.symm
  cells := h.cells.symm
  accounting := h.accounting.symm
  epochFloor := h.epochFloor.symm
  clockUnsafe := h.clockUnsafe.symm
  compactionWalHighWater := h.compactionWalHighWater.symm

theorem SameLog.trans {t u : State B} (h : SameLog s t) (h' : SameLog t u) : SameLog s u where
  spends := h.spends.trans h'.spends
  commitments := h.commitments.trans h'.commitments
  requestResults := h.requestResults.trans h'.requestResults
  cells := h.cells.trans h'.cells
  accounting := h.accounting.trans h'.accounting
  epochFloor := h.epochFloor.trans h'.epochFloor
  clockUnsafe := h.clockUnsafe.trans h'.clockUnsafe
  compactionWalHighWater := h.compactionWalHighWater.trans h'.compactionWalHighWater

theorem SameLog.eq_withVolatile {t : State B} (h : SameLog s t) : t = s.withVolatile t := by
  obtain ⟨h₁, h₂, h₃, h₄, h₅, h₆, h₇, h₈⟩ := h
  unfold State.withVolatile
  rw [h₁, h₂, h₃, h₄, h₅, h₆, h₇, h₈]

theorem sameLog_withVolatile (s t : State B) : SameLog s (s.withVolatile t) :=
  ⟨rfl, rfl, rfl, rfl, rfl, rfl, rfl, rfl⟩

/-- **No frame reads what operations change without a frame.** -/
theorem Step.withVolatile {cfg : Config B} {s' : State B} {frame : Frame B} {recovering : Bool}
    (h : Step cfg s frame recovering s') (t : State B) :
    ∃ u, Step cfg (s.withVolatile t) frame recovering (s'.withVolatile u) := by
  cases h with
  | reserve v hp h => exact ⟨t, .reserve v hp { h with fresh := h.fresh.congr rfl rfl }⟩
  | attempt v entry r hp h =>
    exact ⟨t, .attempt v entry r hp { h with reservation := h.reservation.congr rfl }⟩
  | put v entry r hp h =>
    exact ⟨t, .put v entry r hp { h with reservation := h.reservation.congr rfl }⟩
  | terminate v entry r hp h =>
    exact ⟨t, .terminate v entry r hp { h with reservation := h.reservation.congr rfl }⟩
  | renew v record hp h => exact ⟨t, .renew v record hp { h with fresh := h.fresh.congr rfl rfl }⟩
  | drop v record hp h => exact ⟨t, .drop v record hp { h with }⟩
  | policy v record hp h => exact ⟨t, .policy v record hp { h with }⟩
  | gc v record hp h => exact ⟨t, .gc v record hp { h with }⟩
  | floor v confirmed hp h => exact ⟨t, .floor v confirmed hp { h with }⟩
  | clockUnsafe v hp h => exact ⟨t, .clockUnsafe v hp { h with }⟩
  | compact v hp epoch h =>
    have hcompact : Step cfg (s.withVolatile t) frame recovering
        ((s.withVolatile t).compacted frame v.entryKind v.key) :=
      .compact v hp epoch (h.congr (fun _ => rfl) (fun _ => rfl) fun _ => rfl)
    refine ⟨t, ?_⟩
    convert hcompact using 1
    obtain ⟨kind, key, epoch⟩ := v
    cases kind with
    | cell => rfl
    | spend =>
      obtain ⟨entry, age, hentry, -⟩ := h
      simp only [State.compacted, State.withVolatile, hentry]
      rfl
    | requestResult => rfl
  | integrity v hp =>
    exact ⟨applyIntegrity (s.withVolatile t) v recovering, .integrity v hp⟩
  | pinRead v hp h =>
    exact ⟨(s.withVolatile t).pinRead frame v, .pinRead v hp { h with
      fresh := h.fresh.congr rfl rfl
      pins := h.pins.congr (fun _ _ => rfl) rfl }⟩
  | finalizeRead v entry pin hp h =>
    exact ⟨t, .finalizeRead v entry pin hp { h with pins := h.pins.congr (fun _ _ => rfl) rfl }⟩
  | expireRead v entry pin hp h => exact ⟨t, .expireRead v entry pin hp { h with }⟩
  | atomicPut v hp h => exact ⟨t, .atomicPut v hp { h with fresh := h.fresh.congr rfl rfl }⟩

theorem frameStep_sameLog {cfg : Config B} {s' t : State B} {m : Application B}
    (h : frameStep cfg s m = some s') (hst : SameLog s t) :
    ∃ t', frameStep cfg t m = some t' ∧ SameLog s' t' := by
  obtain ⟨hcanonical, happly, hsafe, hstaging⟩ := applyFrame_eq_ok.mp (frameStep_eq_some.mp h)
  obtain ⟨u, hu⟩ := (applyPayload_eq_ok_iff.mp happly).withVolatile t
  rw [← hst.eq_withVolatile] at hu
  refine ⟨s'.withVolatile u, frameStep_eq_some.mpr ?_, sameLog_withVolatile s' u⟩
  exact applyFrame_eq_ok.mpr ⟨hcanonical, applyPayload_eq_ok_iff.mpr hu, hsafe, hstaging⟩

/-! ### The engine and its lifecycle -/

inductive Timer where
  | clock
  | chargedReadSweep
  deriving DecidableEq

/-- What the `catch` of a timer makes of a rejection. -/
def Timer.failed : Timer → ReadOnlyReason
  | .clock => .clockTimerFailed
  | .chargedReadSweep => .chargedReadSweepFailed

/-- What `activeOperations` counts, beside a capture. -/
inductive Activity where
  /-- An operation of a caller, under `#runOperation`. -/
  | client
  /-- The operation of a timer, under `#runOperation`. -/
  | timer (t : Timer)
  /-- A staged atomic put, from `stageAtomicCellPut` to `#releaseAtomicStaging`. -/
  | lease
  deriving DecidableEq

/-- Where `captureControlSnapshotState` stands. -/
inductive CapturePoint where
  /-- In `drainWaiters`. -/
  | waiting
  /-- Its wait is over and its next turn is due. -/
  | resumed
  deriving DecidableEq

/-- Who waits in `drainWaiters`. -/
inductive Drain where
  | capture | close
  deriving DecidableEq

/-- What `CONTROL_SNAPSHOT_STATES` holds for a snapshot. -/
structure Snapshot (B : Type) where
  walSequence : ℕ
  walHash : B
  state : State B

/-- The fields of the engine, and of its transaction store, that a capture reads or changes. -/
structure OpenEngine (B : Type) where
  state : State B
  walSequence : ℕ
  walHash : B
  (closing snapshotting : Bool)
  activeOperations : ℕ
  /-- What is counted. -/
  running : List Activity
  /-- The targets of `drainWaiters`, with whose they are. -/
  drainWaiters : List (ℕ × Drain)
  (clockTimer chargedReadSweepTimer : Bool)
  /-- The timers whose operation has failed and whose `catch` has not run. -/
  rejected : List Timer
  capture : Option CapturePoint
  /-- The snapshots that were taken. -/
  snapshots : List (Snapshot B)
  /-- The frames that were applied since the engine was opened. -/
  applied : List (Application B)

/-- What can happen in one turn of the event loop. -/
inductive QuiesceMove (B : Type) where
  /-- A caller asks for an operation or for a lease. -/
  | call (lease : Bool)
  | fire (t : Timer)
  /-- `#scheduleChargedReadSweep`. -/
  | schedule
  /-- The log has made a frame durable and applies it. -/
  | apply (m : Application B)
  /-- An operation sets `readOnlyReason`. -/
  | degrade (reason : ReadOnlyReason)
  /-- The sweep of the charged reads pops its heap. -/
  | pop
  /-- An operation or a lease ends. -/
  | finish (a : Activity) (failed : Bool)
  /-- The `catch` of a timer. -/
  | caught (t : Timer)
  /-- A call of `captureControlSnapshotState`. -/
  | capture
  /-- The turn of `captureControlSnapshotState` after its wait. -/
  | take
  /-- A call of `close`. -/
  | close

namespace OpenEngine

/-- `this.closing || this.snapshotting`. -/
def quiescing (e : OpenEngine B) : Bool := e.closing || e.snapshotting

/-- `this.activeOperations++`. -/
def start (e : OpenEngine B) (a : Activity) : OpenEngine B :=
  { e with activeOperations := e.activeOperations + 1, running := a :: e.running }

/-- The loop over `drainWaiters` that follows every `this.activeOperations--`. -/
def resolveDrainWaiters (e : OpenEngine B) : OpenEngine B :=
  { e with
    drainWaiters := e.drainWaiters.filter fun w => ¬ e.activeOperations ≤ w.1
    capture :=
      if e.drainWaiters.any fun w => decide (e.activeOperations ≤ w.1) && (w.2 == .capture) then
        some .resumed
      else e.capture }

/-- `this.readOnlyReason = this.readOnlyReason || reason`. -/
def orReadOnly (e : OpenEngine B) (reason : ReadOnlyReason) : OpenEngine B :=
  { e with state := { e.state with readOnlyReason := e.state.readOnlyReason <|> some reason } }

def armed (e : OpenEngine B) : Timer → Bool
  | .clock => e.clockTimer
  | .chargedReadSweep => e.chargedReadSweepTimer

/-- The interval stays; the timeout is gone once it fires. -/
def disarm (e : OpenEngine B) : Timer → OpenEngine B
  | .clock => e
  | .chargedReadSweep => { e with chargedReadSweepTimer := false }

/-- The callback of a timer; the `catch` of a promise that is rejected at once runs before anything
else does. -/
def fire (e : OpenEngine B) (t : Timer) : OpenEngine B :=
  if e.quiescing then (e.disarm t).orReadOnly t.failed else (e.disarm t).start (.timer t)

/-- The end of something that is counted. -/
def finish (e : OpenEngine B) (a : Activity) (failed : Bool) : OpenEngine B :=
  resolveDrainWaiters { e with
    activeOperations := e.activeOperations - 1
    running := e.running.erase a
    rejected :=
      match a with
      | .timer t => if failed then t :: e.rejected else e.rejected
      | _ => e.rejected }

/-- The first turn of `captureControlSnapshotState`. -/
def beginCapture (cfg : Config B) (e : OpenEngine B) : OpenEngine B :=
  if e.quiescing || cfg.storeId.isNone then e
  else
    { e with
      snapshotting := true
      activeOperations := e.activeOperations + 1
      capture := some (if e.activeOperations + 1 ≤ 1 then .resumed else .waiting)
      drainWaiters :=
        if e.activeOperations + 1 ≤ 1 then e.drainWaiters else e.drainWaiters ++ [(1, .capture)] }

/-- The second turn of `captureControlSnapshotState`. -/
def takeSnapshot (e : OpenEngine B) : OpenEngine B :=
  resolveDrainWaiters { e with
    snapshots := e.snapshots ++ [⟨e.walSequence, e.walHash, e.state⟩]
    activeOperations := e.activeOperations - 1
    snapshotting := false
    capture := none }

/-- The first turn of `close`. -/
def beginClose (e : OpenEngine B) : OpenEngine B :=
  { e with
    closing := true
    clockTimer := false
    chargedReadSweepTimer := false
    drainWaiters :=
      if e.activeOperations = 0 then e.drainWaiters else e.drainWaiters ++ [(0, .close)] }

end OpenEngine

section Step

variable (cfg : Config B) (frameHash : B → Frame B → B)

def quiesceStep (e : OpenEngine B) : QuiesceMove B → Option (OpenEngine B)
  | .call lease =>
    some (if e.quiescing then e else e.start (if lease then .lease else .client))
  | .fire t => if e.armed t ∧ e.capture ≠ some .resumed then some (e.fire t) else none
  | .schedule => some (if e.closing then e else { e with chargedReadSweepTimer := true })
  | .apply m =>
    if m.recovering = false ∧ m.frame.sequence = e.walSequence + 1 then
      (frameStep cfg e.state m).map fun s =>
        { e with
          state := s
          walSequence := m.frame.sequence
          walHash := frameHash e.walHash m.frame
          applied := e.applied ++ [m] }
    else none
  | .degrade reason =>
    some { e with state := { e.state with readOnlyReason := some reason } }
  | .pop =>
    (popExpiry e.state.chargedReadExpiryHeap).map fun p =>
      { e with state := { e.state with chargedReadExpiryHeap := p.2 } }
  | .finish a failed => if a ∈ e.running then some (e.finish a failed) else none
  | .caught t =>
    if t ∈ e.rejected then
      some ({ e with rejected := e.rejected.erase t }.orReadOnly t.failed)
    else none
  | .capture => some (e.beginCapture cfg)
  | .take => if e.capture = some .resumed then some e.takeSnapshot else none
  | .close => some e.beginClose

/-! ### The turns that are the capture's doing -/

/-- The turns of a capture, and those in which a caller or a timer is turned away because of it. -/
def OpenEngine.OfCapture (e : OpenEngine B) : QuiesceMove B → Prop
  | .capture | .take => True
  | .call _ | .fire _ => e.snapshotting = true
  | _ => False

/-- Two states agree in what a capture must leave alone. -/
structure Untouched (s t : State B) : Prop where
  readOnlyReason : s.readOnlyReason = t.readOnlyReason
  spends : s.spends = t.spends
  cells : s.cells = t.cells
  requestResults : s.requestResults = t.requestResults
  accounting : s.accounting = t.accounting

theorem Untouched.of_eq {t : State B} (h : t = s) : Untouched s t := by
  subst h
  exact ⟨rfl, rfl, rfl, rfl, rfl⟩

/-- A turn that is the capture's doing changes nothing it must leave alone. -/
def Harmless (e : OpenEngine B) (m : QuiesceMove B) : Prop :=
  e.OfCapture m → ∀ e', quiesceStep cfg frameHash e m = some e' → Untouched e.state e'.state

end Step

/-- No timer fires while a capture is under way, unless the store is read-only already. -/
def TimerSpared (e : OpenEngine B) (m : QuiesceMove B) : Prop :=
  ∀ t, m = .fire t → e.snapshotting = true → e.state.readOnlyReason ≠ none

instance (e : OpenEngine B) (m : QuiesceMove B) : Decidable (TimerSpared e m) :=
  match m with
  | .fire t =>
    decidable_of_iff (e.snapshotting = true → e.state.readOnlyReason ≠ none) ⟨fun h _ _ => h, fun h => h t rfl⟩
  | .call _ | .schedule | .apply _ | .degrade _ | .pop | .finish _ _ | .caught _ | .capture
  | .take | .close => isTrue nofun

namespace OpenEngine

@[simp] theorem disarm_state (e : OpenEngine B) (t : Timer) : (e.disarm t).state = e.state := by
  cases t <;> rfl

theorem beginCapture_state (cfg : Config B) (e : OpenEngine B) : (e.beginCapture cfg).state = e.state := by
  unfold beginCapture
  split <;> rfl

theorem fire_state_of_quiescing {e : OpenEngine B} (h : e.quiescing = true) (t : Timer) : (e.fire t).state =
      { e.state with readOnlyReason := e.state.readOnlyReason <|> some t.failed } := by
  unfold fire
  rw [if_pos h, orReadOnly, disarm_state]

end OpenEngine

section Harmless

variable {cfg : Config B} {frameHash : B → Frame B → B} {e e' : OpenEngine B}
  {m : QuiesceMove B}

/-- **One turn.** Of the turns that are the capture's doing only a timer that is turned away can do
harm, and it does so exactly when the store is not read-only yet. -/
theorem harmless_iff_timerSpared (h : quiesceStep cfg frameHash e m = some e') :
    Harmless cfg frameHash e m ↔ TimerSpared e m := by
  have hspared : ∀ {m' : QuiesceMove B}, (∀ t, m' ≠ .fire t) → TimerSpared e m' :=
    fun hne t ht => absurd ht (hne t)
  have hquiet : (e.OfCapture m → e'.state = e.state) → Harmless cfg frameHash e m := by
    intro hsame hof e'' h''
    rw [h] at h''
    cases h''
    exact .of_eq (hsame hof)
  cases m with
  | call lease =>
    refine iff_of_true (hquiet fun hof => ?_) (hspared fun t => nofun)
    have hquiescing : e.quiescing = true := by
      rw [OpenEngine.quiescing, show e.snapshotting = true from hof, Bool.or_true]
    rw [quiesceStep, if_pos hquiescing] at h
    rw [← some.inj h]
  | fire t =>
    simp only [quiesceStep, ite_none_right_eq_some] at h
    obtain ⟨hfire, he⟩ := h
    constructor
    · intro hharmless t' ht' hsnap hnone
      have hquiescing : e.quiescing = true := by rw [OpenEngine.quiescing, hsnap, Bool.or_true]
      have hsame := (hharmless hsnap (e.fire t) (if_pos hfire)).readOnlyReason
      rw [OpenEngine.fire_state_of_quiescing hquiescing, hnone] at hsame
      exact nomatch hsame
    · intro hspare hsnap e'' h''
      have hquiescing : e.quiescing = true := by
        rw [OpenEngine.quiescing, show e.snapshotting = true from hsnap, Bool.or_true]
      have hset := hspare t rfl hsnap
      obtain ⟨reason, hreason⟩ := ne_none_iff_exists'.mp hset
      have hsame : e''.state = e.state := by
        rw [← some.inj ((if_pos hfire).symm.trans h''), OpenEngine.fire_state_of_quiescing hquiescing, hreason]
        show ({ e.state with readOnlyReason := some reason } : State B) = e.state
        rw [← hreason]
      exact .of_eq hsame
  | capture =>
    refine iff_of_true (hquiet fun _ => ?_) (hspared fun t => nofun)
    rw [← some.inj h, OpenEngine.beginCapture_state]
  | take =>
    refine iff_of_true (hquiet fun _ => ?_) (hspared fun t => nofun)
    simp only [quiesceStep, ite_none_right_eq_some] at h
    rw [← some.inj h.2]
    rfl
  | schedule | apply m | degrade reason | pop | finish a failed | caught t | close =>
    exact iff_of_true (fun hof => hof.elim) (hspared fun t => nofun)

end Harmless

/-! ### One prefix of the log -/

section Prefix

variable (cfg : Config B) (frameHash : B → Frame B → B)

/-- What the log and the engine come to when `frames` are applied to an engine. -/
structure ReachedBy (e₀ : OpenEngine B) (frames : List (Application B)) (walSequence : ℕ)
    (walHash : B) (state : State B) : Prop where
  sequence : walSequence = e₀.walSequence + frames.length
  hash : walHash = frames.foldl (fun hash m => frameHash hash m.frame) e₀.walHash
  state : ∃ s, run (frameStep cfg) e₀.state frames = some s ∧ SameLog s state

/-- `walSequence`, `walHash` and the maps of a snapshot belong to one prefix of the frames that were
applied. -/
def Snapshot.OfPrefix (e₀ : OpenEngine B) (applied : List (Application B)) (x : Snapshot B) :
    Prop :=
  ∃ frames, frames <+: applied ∧ ReachedBy cfg frameHash e₀ frames x.walSequence x.walHash x.state

/-- The engine, and every snapshot of it, follows the log. -/
structure Follows (e₀ e : OpenEngine B) : Prop where
  now : ReachedBy cfg frameHash e₀ e.applied e.walSequence e.walHash e.state
  snapshots : ∀ x ∈ e.snapshots, x.OfPrefix cfg frameHash e₀ e.applied

end Prefix

section Follows

variable {cfg : Config B} {frameHash : B → Frame B → B} {e₀ e e' : OpenEngine B}
  {m : QuiesceMove B}

theorem Follows.of_sameLog (h : Follows cfg frameHash e₀ e)
    (hsequence : e'.walSequence = e.walSequence) (hhash : e'.walHash = e.walHash)
    (happlied : e'.applied = e.applied) (hsnapshots : e'.snapshots = e.snapshots)
    (hstate : SameLog e.state e'.state) : Follows cfg frameHash e₀ e' := by
  obtain ⟨⟨hs, hh, s, hrun, hsame⟩, hsnap⟩ := h
  constructor
  · rw [happlied, hsequence, hhash]
    exact ⟨hs, hh, s, hrun, hsame.trans hstate⟩
  · rw [happlied, hsnapshots]
    exact hsnap

theorem ReachedBy.apply {frames : List (Application B)} {walSequence : ℕ} {walHash : B}
    {s s' : State B} {m : Application B}
    (h : ReachedBy cfg frameHash e₀ frames walSequence walHash s)
    (hsequence : m.frame.sequence = walSequence + 1) (hm : frameStep cfg s m = some s') :
    ReachedBy cfg frameHash e₀ (frames ++ [m]) m.frame.sequence (frameHash walHash m.frame) s' := by
  obtain ⟨hs, hh, t, hrun, hsame⟩ := h
  refine ⟨?_, ?_, ?_⟩
  · rw [hsequence, hs, length_append, length_singleton, Nat.add_assoc]
  · rw [foldl_append, ← hh]
    rfl
  · obtain ⟨t', ht', hsame'⟩ := frameStep_sameLog hm hsame.symm
    exact ⟨t', run_append.mpr ⟨t, hrun, run_cons.mpr ⟨t', ht', rfl⟩⟩, hsame'.symm⟩

/-- Every turn follows the log. -/
theorem follows_step (hf : Follows cfg frameHash e₀ e)
    (h : quiesceStep cfg frameHash e m = some e') : Follows cfg frameHash e₀ e' := by
  have hreason : ∀ (s : State B) (reason : Option ReadOnlyReason), SameLog s { s with readOnlyReason := reason } :=
    fun s reason => ⟨rfl, rfl, rfl, rfl, rfl, rfl, rfl, rfl⟩
  cases m with
  | call lease =>
    rw [← some.inj h]
    split
    · exact hf
    · exact hf.of_sameLog rfl rfl rfl rfl (.refl _)
  | fire t =>
    simp only [quiesceStep, ite_none_right_eq_some] at h
    obtain rfl := some.inj h.2
    have hdisarm : Follows cfg frameHash e₀ (e.disarm t) := by
      cases t with
      | clock => exact hf
      | chargedReadSweep => exact hf.of_sameLog rfl rfl rfl rfl (.refl _)
    unfold OpenEngine.fire
    split
    · exact hdisarm.of_sameLog rfl rfl rfl rfl (hreason _ _)
    · exact hdisarm.of_sameLog rfl rfl rfl rfl (.refl _)
  | schedule =>
    rw [← some.inj h]
    split
    · exact hf
    · exact hf.of_sameLog rfl rfl rfl rfl (.refl _)
  | apply m =>
    simp only [quiesceStep, ite_none_right_eq_some, map_eq_some_iff] at h
    obtain ⟨⟨hlive, hsequence⟩, s', hm, rfl⟩ := h
    refine ⟨hf.now.apply hsequence hm, fun x hx => ?_⟩
    obtain ⟨frames, hframes, hreached⟩ := hf.snapshots x hx
    exact ⟨frames, hframes.trans (prefix_append _ _), hreached⟩
  | degrade reason =>
    rw [← some.inj h]
    exact hf.of_sameLog rfl rfl rfl rfl (hreason _ _)
  | pop =>
    simp only [quiesceStep, map_eq_some_iff] at h
    obtain ⟨p, hp, rfl⟩ := h
    exact hf.of_sameLog rfl rfl rfl rfl ⟨rfl, rfl, rfl, rfl, rfl, rfl, rfl, rfl⟩
  | finish a failed =>
    simp only [quiesceStep, ite_none_right_eq_some] at h
    rw [← some.inj h.2]
    exact hf.of_sameLog rfl rfl rfl rfl (.refl _)
  | caught t =>
    simp only [quiesceStep, ite_none_right_eq_some] at h
    rw [← some.inj h.2]
    exact hf.of_sameLog rfl rfl rfl rfl (hreason _ _)
  | capture =>
    rw [← some.inj h, OpenEngine.beginCapture]
    split
    · exact hf
    · exact hf.of_sameLog rfl rfl rfl rfl (.refl _)
  | take =>
    -- the snapshot is of the engine as it is, and that is the prefix of all frames so far
    simp only [quiesceStep, ite_none_right_eq_some] at h
    rw [← some.inj h.2]
    refine ⟨hf.now, fun x hx => ?_⟩
    rcases mem_append.mp hx with hx | hx
    · exact hf.snapshots x hx
    · rw [mem_singleton.mp hx]
      exact ⟨e.applied, prefix_refl _, hf.now⟩
  | close =>
    rw [← some.inj h]
    exact hf.of_sameLog rfl rfl rfl rfl (.refl _)

end Follows

/-! ### Every interleaving -/

/-- An engine that is open and healthy, with whatever operations it is running. -/
structure OpenEngine.Healthy (e : OpenEngine B) : Prop where
  readOnlyReason : e.state.readOnlyReason = none
  closing : e.closing = false
  snapshotting : e.snapshotting = false
  capture : e.capture = none
  snapshots : e.snapshots = []
  applied : e.applied = []

/-- The sample configuration, for a store that has an identity. -/
def boundConfig : Config ℕ := { sampleConfig with storeId := some 9 }

def sampleFrameHash (previous : ℕ) (frame : Frame ℕ) : ℕ := 2 * previous + frame.sequence

/-- An engine that has just been opened on a log with one frame, with its clock timer set. -/
def sampleOpened : OpenEngine ℕ where
  state := { State.empty ℕ with epochFloor := 10 }
  walSequence := 1
  walHash := 1
  closing := false
  snapshotting := false
  activeOperations := 0
  running := []
  drainWaiters := []
  clockTimer := true
  chargedReadSweepTimer := false
  rejected := []
  capture := none
  snapshots := []
  applied := []

/-- A put is admitted, reserves its slot and is still reading its body when a snapshot is asked
for. -/
def captureDuringPut : List (QuiesceMove ℕ) :=
  [.call false, .apply ⟨sampleFrame 2 (sampleSlot % 16) (.ingressReserved
    { spendTag := 21
      requestCommitment := sampleCommitment
      requestFingerprint := 1
      terms := sampleTerms
      deadlineUnixMillis := 900000
      reservedEpoch := 10 }), .empty, false⟩, .capture]

end HiveRelay.Cell
