import HiveRelay.Core.Apply
import HiveRelay.Lib.Run
import Mathlib.Data.Prod.Lex
import Mathlib.Data.List.Pairwise

/-!
# The floor of a sponsored core

`coreFloors` holds the last generation of a core that was activated. A run of the log moves the
floor of a core only by activations of that core, and each of them extends the head: the fork does
not fall, on the same fork the length does not fall, and at the same length the head is the same.
The revision counts the activations. `activeCores` is the floor or nothing.

The lease is different. `#applyMirrorAccepted` measures a lease against the highest pending
candidate, and `#applyMirrorActivated` does not measure it again: an attempt that was accepted for
an older and shorter lease may be activated after the one that extended it. The lease of a floor
therefore grows only in a run whose activations are of attempts that were accepted for a lease no
shorter than that of the floor they meet.

## Main definitions

* `Head.Extended` — a head after a later activation
* `LeaseKept` — an activation that shortens no lease

## Main results

* `frameStep_floor` — what a frame does to a floor
* `sponsorship_floor_monotone` — floors over a run
-/

namespace HiveRelay.Core

open Option List OrderedMap

variable {B : Type} [LinearOrder B] [Zero B]

/-! ### Heads -/

structure Head (B : Type) where
  (fork length : ℕ)
  signedHeadHash : B

/-- A head is followed by another: by a higher fork, a greater length, or itself. -/
structure Head.Extended (h h' : Head B) : Prop where
  fork : h.fork ≤ h'.fork
  length : h.fork = h'.fork → h.length ≤ h'.length
  hash : h.fork = h'.fork → h.length = h'.length → h.signedHeadHash = h'.signedHeadHash

omit [LinearOrder B] [Zero B] in
theorem Head.Extended.refl (h : Head B) : h.Extended h :=
  ⟨le_rfl, fun _ => le_rfl, fun _ _ => rfl⟩

omit [LinearOrder B] [Zero B] in
theorem Head.Extended.trans {h₁ h₂ h₃ : Head B} (h : h₁.Extended h₂) (h' : h₂.Extended h₃) :
    h₁.Extended h₃ := by
  have hfork : h₁.fork = h₃.fork → h₁.fork = h₂.fork ∧ h₂.fork = h₃.fork := by
    intro heq
    have := h.fork
    have := h'.fork
    omega
  refine ⟨h.fork.trans h'.fork, fun heq => ?_, fun heq hlength => ?_⟩
  · exact (h.length (hfork heq).1).trans (h'.length (hfork heq).2)
  · have h₁₂ := h.length (hfork heq).1
    have h₂₃ := h'.length (hfork heq).2
    exact (h.hash (hfork heq).1 (by omega)).trans (h'.hash (hfork heq).2 (by omega))

omit [LinearOrder B] [Zero B] in
theorem Head.Extended.lex {h h' : Head B} (hext : h.Extended h') :
    toLex (h.fork, h.length) ≤ toLex (h'.fork, h'.length) := by
  rw [Prod.Lex.le_iff]
  rcases hext.fork.lt_or_eq with hlt | heq
  · exact .inl hlt
  · exact .inr ⟨heq, hext.length heq⟩

def CoreGeneration.head (g : CoreGeneration B) : Head B := ⟨g.fork, g.length, g.signedHeadHash⟩

/-- The head that an activation names. -/
def MirrorActivated.head (v : MirrorActivated B) : Head B := ⟨v.fork, v.length, v.signedHeadHash⟩

/-- Two activations at one fork and length name one head. -/
def SameHead (v w : MirrorActivated B) : Prop :=
  v.fork = w.fork → v.length = w.length → v.signedHeadHash = w.signedHeadHash

instance : Std.Symm (SameHead (B := B)) :=
  ⟨fun _ _ h hfork hlength => (h hfork.symm hlength.symm).symm⟩

/-! ### The log -/

/-- `#applyFrame` as a step; a move is a frame and whether the open of the store reads it back. -/
def frameStep (cfg : Config B) (s : State B) (m : Frame B × Bool) : Option (State B) :=
  (applyFrame cfg s m.1 m.2).toOption

variable {cfg : Config B}

theorem frameStep_eq_some {s s' : State B} {m : Frame B × Bool} :
    frameStep cfg s m = some s' ↔ applyFrame cfg s m.1 m.2 = .ok s' := by
  unfold frameStep
  cases applyFrame cfg s m.1 m.2 <;> simp [Except.toOption]

/-- The activation of a core that a frame makes. -/
def Frame.activation? (key : B) (frame : Frame B) : Option (MirrorActivated B) :=
  match frame.payload with
  | .mirrorActivated v => if v.corePublicKey = key then some v else none
  | _ => none

/-- The activations of a core in a run. -/
def activations (key : B) (moves : List (Frame B × Bool)) : List (MirrorActivated B) :=
  moves.filterMap fun m => m.1.activation? key

/-- The attempt that a frame activates was accepted for a lease no shorter than that of the
floor. -/
def LeaseKept (s : State B) (m : Frame B × Bool) : Prop :=
  match m.1.payload with
  | .mirrorActivated v => ∀ attempt ∈ s.mirrorAttempts.get? v.spendTag,
      ∀ g ∈ s.coreFloors.get? attempt.request.corePublicKey, g.leaseEpoch ≤ attempt.targetLeaseEpoch
  | _ => True

instance (s : State B) (m : Frame B × Bool) : Decidable (LeaseKept s m) := by
  unfold LeaseKept
  cases m.1.payload <;> infer_instance

/-- The number of activations that the revision of a floor stands for. -/
def revisions (s : State B) (key : B) : ℕ := (s.coreFloors.get? key).elim 0 (·.stateRevision + 1)

/-! ### One frame -/

/-- What an activation does to the floor of its core. -/
structure Activates (s s' : State B) (frame : Frame B) (v : MirrorActivated B) : Prop where
  floor : s'.coreFloors.get? v.corePublicKey = some (v.generation frame)
  active : s'.activeCores.get? v.corePublicKey = some (v.generation frame)
  extended : ∀ g ∈ s.coreFloors.get? v.corePublicKey, g.head.Extended v.head
  revision : v.stateRevision = revisions s v.corePublicKey
  attempt : ∃ attempt, s.mirrorAttempts.get? v.spendTag = some attempt ∧
    attempt.request.corePublicKey = v.corePublicKey ∧ attempt.targetLeaseEpoch = v.leaseEpoch

/-- What any other frame does to the floor of a core. -/
structure LeavesFloor (s s' : State B) (key : B) : Prop where
  floor : s'.coreFloors.get? key = s.coreFloors.get? key
  active : ∀ g, s'.activeCores.get? key = some g → s.activeCores.get? key = some g

omit [Zero B] in
theorem LeavesFloor.of_eq {s s' : State B} {key : B} (hfloors : s'.coreFloors = s.coreFloors)
    (hactive : s'.activeCores = s.activeCores) : LeavesFloor s s' key :=
  ⟨by rw [hfloors], fun g hg => by rwa [hactive] at hg⟩

theorem applyMirrorActivated_activates {s s' : State B} {frame : Frame B}
    {v : MirrorActivated B} (h : applyMirrorActivated cfg s frame v = .ok s') :
    Activates s s' frame v := by
  obtain ⟨attempt, hget, ⟨-, hkey, hfork, hlength, hhash, hlease, -⟩, -, -, -, horder, hrevision,
    rfl⟩ := applyMirrorActivated_eq_ok.mp h
  refine ⟨get?_set_self, get?_set_self, fun g hg => ?_, hrevision.1, attempt,
    hget, hkey, hlease⟩
  rw [validateCandidateOrder_eq_ok] at horder
  obtain ⟨hf, hl⟩ := horder.2 g.floor (mem_map_of_mem _ hg)
  rw [hfork] at hf hl
  rw [hlength, hhash] at hl
  exact ⟨hf, fun heq => (hl heq).1, fun heq => (hl heq).2⟩

/-- **What one frame does to the floor of a core**: its activations replace the floor, and no other
frame moves it. -/
theorem frameStep_floor {s s' : State B} {m : Frame B × Bool} (h : frameStep cfg s m = some s') (key : B) :
    (∀ v ∈ m.1.activation? key, v.corePublicKey = key ∧ Activates s s' m.1 v) ∧
      (m.1.activation? key = none → LeavesFloor s s' key) := by
  obtain ⟨frame, recovering⟩ := m
  rw [frameStep_eq_some, applyFrame_eq_ok] at h
  obtain ⟨-, s₁, hpayload, -, rfl⟩ := h
  -- the sequence number is no part of the floors
  suffices hs₁ : (∀ v ∈ frame.activation? key, v.corePublicKey = key ∧ Activates s s₁ frame v) ∧
      (frame.activation? key = none → LeavesFloor s s₁ key) from
    ⟨fun v hv => ⟨(hs₁.1 v hv).1, (hs₁.1 v hv).2.1, (hs₁.1 v hv).2.2, (hs₁.1 v hv).2.3,
      (hs₁.1 v hv).2.4, (hs₁.1 v hv).2.5⟩, fun hnone => ⟨(hs₁.2 hnone).1, (hs₁.2 hnone).2⟩⟩
  unfold applyPayload at hpayload
  unfold Frame.activation?
  cases hframe : frame.payload <;> simp only [hframe] at hpayload ⊢
  case mirrorActivated v =>
    have hact := applyMirrorActivated_activates hpayload
    by_cases hkey : v.corePublicKey = key
    · simp only [hkey, if_true, mem_some_iff, forall_eq', true_and, reduceCtorEq, false_implies, and_true]
      exact hact
    · simp only [hkey, if_false, not_mem_none, false_implies, implies_true, forall_const, true_and]
      obtain ⟨attempt, -, -, -, -, -, -, -, rfl⟩ := applyMirrorActivated_eq_ok.mp hpayload
      have hne : key ≠ v.corePublicKey := Ne.symm hkey
      refine ⟨get?_set_of_ne hne, fun g hg => ?_⟩
      rwa [State.activate, get?_set_of_ne hne] at hg
  all_goals simp only [not_mem_none, false_implies, implies_true, forall_const, true_and]
  case mirrorAccepted v =>
    obtain ⟨-, rfl⟩ := applyMirrorAccepted_eq_ok.mp hpayload
    exact .of_eq rfl rfl
  case mirrorTerminal v =>
    obtain ⟨attempt, -, -, -, rfl⟩ := applyMirrorTerminal_eq_ok.mp hpayload
    exact .of_eq rfl rfl
  case provePinned v =>
    obtain ⟨-, rfl⟩ := applyProofPinned_eq_ok.mp hpayload
    exact .of_eq rfl rfl
  case provePinExpired v =>
    obtain ⟨spend, -, pin, -, -, rfl⟩ := applyProofExpired_eq_ok.mp hpayload
    exact .of_eq rfl rfl
  case openState v =>
    obtain ⟨-, -, rfl⟩ := applyOpenState_eq_ok.mp hpayload
    exact .of_eq rfl rfl
  case mirrorRetryPending v =>
    obtain ⟨attempt, -, -, rfl⟩ := applyMirrorRetryPending_eq_ok.mp hpayload
    exact .of_eq rfl rfl
  case coreExpired v =>
    obtain ⟨current, -, -, rfl⟩ := applyCoreExpired_eq_ok.mp hpayload
    refine ⟨rfl, fun g hg => ?_⟩
    rw [State.expireCore, get?_delete] at hg
    split at hg
    · cases hg
    · exact hg

/-! ### Runs -/

section Runs

variable {cfg : Config B} {s s' : State B} {moves : List (Frame B × Bool)} {key : B}

variable {g : CoreGeneration B}

theorem floor_extended (hrun : run (frameStep cfg) s moves = some s') (hg : s.coreFloors.get? key = some g) :
    ∃ g', s'.coreFloors.get? key = some g' ∧ g.head.Extended g'.head := by
  refine run_preserves (fun s => ∃ g', s.coreFloors.get? key = some g' ∧ g.head.Extended g'.head) ?_
    ⟨g, hg, .refl _⟩ hrun
  rintro s m s' ⟨g₁, hg₁, hext⟩ hstep
  obtain ⟨hact, hleave⟩ := frameStep_floor hstep key
  cases hv : m.1.activation? key with
  | none => exact ⟨g₁, (hleave hv).floor.trans hg₁, hext⟩
  | some v =>
    obtain ⟨rfl, hactivates⟩ := hact v hv
    exact ⟨_, hactivates.floor, hext.trans (hactivates.extended g₁ hg₁)⟩

theorem revisions_run (hrun : run (frameStep cfg) s moves = some s') :
    revisions s' key = revisions s key + (activations key moves).length := by
  induction moves generalizing s with
  | nil =>
    cases hrun
    rfl
  | cons m moves ih =>
    obtain ⟨s₁, hstep, hrest⟩ := run_cons.mp hrun
    obtain ⟨hact, hleave⟩ := frameStep_floor hstep key
    rw [ih hrest]
    cases hv : m.1.activation? key with
    | none =>
      rw [activations, activations, filterMap_cons_none (by exact hv), revisions, revisions, (hleave hv).floor]
    | some v =>
      obtain ⟨rfl, hactivates⟩ := hact v hv
      rw [activations, activations, filterMap_cons_some (by exact hv), length_cons,
        revisions, hactivates.floor, elim_some]
      have hrevision : (v.generation m.1).stateRevision = revisions s v.corePublicKey := hactivates.revision
      omega

theorem activations_pairwise (hrun : run (frameStep cfg) s moves = some s') :
    ((activations key moves).Pairwise fun v w => v.head.Extended w.head) ∧
      ∀ g ∈ s.coreFloors.get? key, ∀ v ∈ activations key moves, g.head.Extended v.head := by
  induction moves generalizing s with
  | nil => exact ⟨List.Pairwise.nil, nofun⟩
  | cons m moves ih =>
    obtain ⟨s₁, hstep, hrest⟩ := run_cons.mp hrun
    obtain ⟨hpair, hfloor⟩ := ih hrest
    obtain ⟨hact, hleave⟩ := frameStep_floor hstep key
    cases hv : m.1.activation? key with
    | none =>
      rw [activations, filterMap_cons_none (by exact hv)]
      refine ⟨hpair, fun g hg => hfloor g ?_⟩
      rw [(hleave hv).floor]
      exact hg
    | some v =>
      rw [activations, filterMap_cons_some (by exact hv)]
      obtain ⟨rfl, hactivates⟩ := hact v hv
      have hlater : ∀ w ∈ activations v.corePublicKey moves, v.head.Extended w.head :=
        hfloor _ hactivates.floor
      refine ⟨pairwise_cons.mpr ⟨hlater, hpair⟩, fun g hg w hw => ?_⟩
      have hext := hactivates.extended g hg
      rcases mem_cons.mp hw with rfl | hw
      · exact hext
      · exact hext.trans (hlater w hw)

theorem active_eq_floor (hrun : run (frameStep cfg) .initial moves = some s)
    (hg : s.activeCores.get? key = some g) : s.coreFloors.get? key = some g := by
  refine run_preserves
    (fun s => ∀ g, s.activeCores.get? key = some g → s.coreFloors.get? key = some g) ?_ ?_ hrun g hg
  · intro s m s' hs hstep g hg
    obtain ⟨hact, hleave⟩ := frameStep_floor hstep key
    cases hv : m.1.activation? key with
    | none => exact (hleave hv).floor.trans (hs g ((hleave hv).active g hg))
    | some v =>
      obtain ⟨rfl, hactivates⟩ := hact v hv
      exact hactivates.floor.trans (hactivates.active.symm.trans hg)
  · intro g hg
    cases hg

/-- In a run whose activations keep to the lease of the floor they meet, the lease of a floor does
not fall. -/
theorem floor_lease (hrun : run (frameStep cfg) s moves = some s')
    (hlease : RunMeets (frameStep cfg) LeaseKept s moves)
    (hg : s.coreFloors.get? key = some g) :
    ∃ g', s'.coreFloors.get? key = some g' ∧ g.leaseEpoch ≤ g'.leaseEpoch := by
  refine run_invariant LeaseKept (fun s => ∃ g', s.coreFloors.get? key = some g' ∧ g.leaseEpoch ≤ g'.leaseEpoch) ?_
    ⟨g, hg, le_rfl⟩ hlease hrun
  rintro s m s' ⟨g₁, hg₁, hle⟩ hkept hstep
  obtain ⟨hact, hleave⟩ := frameStep_floor hstep key
  cases hv : m.1.activation? key with
  | none => exact ⟨g₁, (hleave hv).floor.trans hg₁, hle⟩
  | some v =>
    obtain ⟨rfl, hactivates⟩ := hact v hv
    obtain ⟨attempt, hattempt, hcore, htarget⟩ := hactivates.attempt
    refine ⟨_, hactivates.floor, hle.trans ?_⟩
    have hpayload : m.1.payload = .mirrorActivated v := by
      unfold Frame.activation? at hv
      split at hv
      · next w hw =>
        rw [ite_none_right_eq_some] at hv
        rw [hw, some.inj hv.2]
      · cases hv
    rw [LeaseKept, hpayload] at hkept
    exact (hkept attempt hattempt g₁ (by rw [hcore]; exact hg₁)).trans htarget.le

/-- **The floor of a core over a run.** From any state that the log reaches to any later one the
fork and the length of a floor do not fall, its revision grows by the number of activations, and,
where no activation is of an attempt with a shorter lease than the floor, its lease does not fall.
Activations at one fork and length name one head, and what is active is the floor. -/
theorem sponsorship_floor_monotone {before after : List (Frame B × Bool)}
    (hbefore : run (frameStep cfg) .initial before = some s)
    (hafter : run (frameStep cfg) s after = some s')
    (hlease : RunMeets (frameStep cfg) LeaseKept s after) (key : B) :
    (∀ g, s.coreFloors.get? key = some g → ∃ g', s'.coreFloors.get? key = some g' ∧
        toLex (g.fork, g.length) ≤ toLex (g'.fork, g'.length) ∧
        g'.stateRevision = g.stateRevision + (activations key after).length ∧
        g.leaseEpoch ≤ g'.leaseEpoch) ∧
      (∀ g', s.coreFloors.get? key = none → s'.coreFloors.get? key = some g' →
        g'.stateRevision + 1 = (activations key after).length) ∧
      (∀ v ∈ activations key (before ++ after), ∀ w ∈ activations key (before ++ after), SameHead v w) ∧
      (∀ g, s'.activeCores.get? key = some g → s'.coreFloors.get? key = some g) := by
  have hrun : run (frameStep cfg) .initial (before ++ after) = some s' :=
    run_append.mpr ⟨s, hbefore, hafter⟩
  have hcount : revisions s' key = revisions s key + (activations key after).length :=
    revisions_run hafter
  refine ⟨fun g hg => ?_, fun g' hnone hg' => ?_, ?_, fun g hg => active_eq_floor hrun hg⟩
  · obtain ⟨g', hg', hext⟩ := floor_extended hafter hg
    obtain ⟨g'', hg'', hle⟩ := floor_lease hafter hlease hg
    obtain rfl : g' = g'' := mem_unique hg' hg''
    rw [revisions, revisions, hg, hg', elim_some, elim_some] at hcount
    exact ⟨g', hg', hext.lex, by omega, hle⟩
  · rw [revisions, revisions, hnone, hg', elim_some, elim_none] at hcount
    omega
  · have hsame : (activations key (before ++ after)).Pairwise SameHead :=
      (activations_pairwise hrun).1.imp fun hext => hext.hash
    exact fun v hv w hw => hsame.forall_of_forall (fun _ _ _ _ => rfl) hv hw

end Runs

/-! ### A core with two attempts -/

section Sample

/-- An engine whose commitments are the nonces of the requests. -/
def sampleConfig : Config ℕ where
  relayPublicKey := 1
  maximumSponsoredCoreLength := 1000000000
  maximumCores := 4096
  maximumProofPins := 4096
  maximumSpendRecords := 65536
  coreMirrorRequestCommitment r := r.clientNonce
  coreServeRequestCommitment r := r.clientNonce
  ackVerifies ack := ack.signature = 64
  openResultVerifies result := result.signature = 64
  ackByteLength _ := 400
  virtualBucket _ := 3

/-- A request to mirror the core `2` at length one. -/
def sampleMirrorRequest (nonce : ℕ) : MirrorRequest ℕ where
  corePublicKey := 2
  fork := 0
  length := 1
  signedHeadHash := 5
  leaseClass := 1
  clientNonce := nonce

/-- A prepared admission of a request. -/
def sampleAdmission (spendTag nonce resourceClass leaseClass : ℕ) : Cell.PreparedAdmission ℕ where
  spendTag := spendTag
  requestCommitment := nonce
  profileId := 1
  schemeId := 1
  parameterHash := 9
  resourceClass := resourceClass
  leaseClass := leaseClass
  costUnits := 1
  walCommitRecord := [0]

/-- The binding of the results of the relay. -/
def sampleBinding : Cell.ResultBinding ℕ where
  relayPublicKey := 1
  storeId := 1
  descriptorSequence := 1
  descriptorHash := 1
  durabilityProfileId := 1
  durabilityContinuityHash := 1
  durabilityProfileHash := 1
  restoreEvidenceHeadSequence := 0
  restoreEvidenceHeadHash := 0
  externalCommitWitness := false

/-- The acceptance of a request at an epoch, for the four epochs of its lease class. -/
def sampleAccepted (sequence spendTag nonce epoch revision : ℕ) : Frame ℕ × Bool :=
  (⟨sequence, 3, .mirrorAccepted
    { preparedAdmission := sampleAdmission spendTag nonce 1 1
      request := sampleMirrorRequest nonce
      result :=
        { relayBinding := sampleBinding
          corePublicKey := 2
          fork := 0
          length := 1
          signedHeadHash := 5
          observedAtEpoch := epoch
          leaseEpoch := epoch + 4
          result := .mirrorAccepted
          requestNonce := nonce
          requestCommitment := nonce
          signature := 64 }
      acceptedAtEpoch := epoch
      targetLeaseEpoch := epoch + 4
      candidateRevision := revision }⟩, false)

/-- The activation of an accepted request. -/
def sampleActivated (sequence spendTag leaseEpoch revision objectId : ℕ) : Frame ℕ × Bool :=
  (⟨sequence, 3, .mirrorActivated
    { spendTag := spendTag
      corePublicKey := 2
      fork := 0
      length := 1
      signedHeadHash := 5
      leaseEpoch := leaseEpoch
      stateRevision := revision
      corpus := ⟨3, objectId, 100, 8⟩
      activatedAtEpoch := leaseEpoch }⟩, false)

def sampleState (moves : List (Frame ℕ × Bool)) : State ℕ :=
  (run (frameStep sampleConfig) .initial moves).getD .initial

/-- The lease of the floor of the core after a run. -/
def sampleLease (moves : List (Frame ℕ × Bool)) : Option ℕ :=
  ((sampleState moves).coreFloors.get? 2).map CoreGeneration.leaseEpoch

theorem run_sampleState {moves : List (Frame ℕ × Bool)}
    (h : (run (frameStep sampleConfig) .initial moves).isSome = true) :
    run (frameStep sampleConfig) .initial moves = some (sampleState moves) := by
  obtain ⟨s, hs⟩ := isSome_iff_exists.mp h
  rw [sampleState, hs, getD_some]

/-- A request that is accepted and activated. -/
def sampleFirst : List (Frame ℕ × Bool) := [sampleAccepted 1 11 21 6 0, sampleActivated 2 11 10 0 7]

/-- A renewal that is accepted and activated after it. -/
def sampleRenewal : List (Frame ℕ × Bool) :=
  [sampleAccepted 3 12 22 16 1, sampleActivated 4 12 20 1 8]

/-- A renewal that is accepted and activated while the first request is pending. -/
def sampleOvertaking : List (Frame ℕ × Bool) :=
  [sampleAccepted 1 11 21 6 0, sampleAccepted 2 12 22 16 1, sampleActivated 3 12 20 0 7]

/-- A renewal after the activation of the first request extends its lease. -/
theorem sponsorship_floor_monotone_sample :
    sampleLease sampleFirst = some 10 ∧ sampleLease (sampleFirst ++ sampleRenewal) = some 20 ∧
      ∀ g, (sampleState sampleFirst).coreFloors.get? 2 = some g →
        ∃ g', (sampleState (sampleFirst ++ sampleRenewal)).coreFloors.get? 2 = some g' ∧
          g.leaseEpoch ≤ g'.leaseEpoch := by
  have hfirst : run (frameStep sampleConfig) .initial sampleFirst = some (sampleState sampleFirst) :=
    run_sampleState (by decide +kernel)
  have hboth : run (frameStep sampleConfig) .initial (sampleFirst ++ sampleRenewal) =
      some (sampleState (sampleFirst ++ sampleRenewal)) := run_sampleState (by decide +kernel)
  obtain ⟨s, hs, hrenewal⟩ := run_append.mp hboth
  obtain rfl := mem_unique hfirst hs
  refine ⟨by decide +kernel, by decide +kernel, fun g hg => ?_⟩
  obtain ⟨g', hg', -, -, hle⟩ :=
    (sponsorship_floor_monotone hfirst hrenewal (by decide +kernel) 2).1 g hg
  exact ⟨g', hg', hle⟩

/-- **A paid lease is shortened**: the renewal of a core is activated first, and the activation of
the older request then puts back the lease that the renewal had extended. -/
theorem activation_shortens_lease :
    ¬ ∀ (cfg : Config ℕ) (before after : List (Frame ℕ × Bool)) (s s' : State ℕ) (key : ℕ)
        (g g' : CoreGeneration ℕ), run (frameStep cfg) .initial before = some s →
      run (frameStep cfg) s after = some s' → s.coreFloors.get? key = some g →
      s'.coreFloors.get? key = some g' → g.leaseEpoch ≤ g'.leaseEpoch := by
  intro hall
  have hfirst : run (frameStep sampleConfig) .initial sampleOvertaking =
      some (sampleState sampleOvertaking) := run_sampleState (by decide +kernel)
  have hboth : run (frameStep sampleConfig) .initial (sampleOvertaking ++ [sampleActivated 4 11 10 1 8]) =
      some (sampleState (sampleOvertaking ++ [sampleActivated 4 11 10 1 8])) :=
    run_sampleState (by decide +kernel)
  obtain ⟨s, hs, hlast⟩ := run_append.mp hboth
  obtain rfl := mem_unique hfirst hs
  have hlong : sampleLease sampleOvertaking = some 20 := by decide +kernel
  have hshort : sampleLease (sampleOvertaking ++ [sampleActivated 4 11 10 1 8]) = some 10 := by
    decide +kernel
  obtain ⟨g, hg, hlease⟩ := map_eq_some_iff.mp hlong
  obtain ⟨g', hg', hlease'⟩ := map_eq_some_iff.mp hshort
  have hle := hall sampleConfig _ _ _ _ 2 g g' hfirst hlast hg hg'
  omega

end Sample

end HiveRelay.Core
