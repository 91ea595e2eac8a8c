import HiveRelay.Descriptor.Chain

/-!
# Calls on the descriptor state

What holds along every sequence of calls. The records stay a chain, a fault stays, and a call that
fails changes no record.

A record goes out of use for good. It is found by its hash and its generation, and generations are
never used again; the lifecycle fence of the current record only grows, and it grows when a retired
store is replaced; a fault stays. None of this asks anything of the hash: if two records share
theirs, the older one is no longer found.

## Main definitions

* `Taken` — a snapshot of an activated record

## Main results

* `current_perform` — what an activation makes of the current record
* `dead_performAll` — what is out of use stays so
* `descriptor_chain_safety` — the chain after every sequence of calls
-/

namespace HiveRelay.Service

open Option List

section Calls

variable {codec : Codec} {options : Options} {st st' : DescriptorState} {rs : List Record}
  {a : Activation} {call : Call}

/-! ### One call -/

theorem ChainInv.perform (hinv : ChainInv codec st) (options : Options) (call : Call) :
    ChainInv codec (perform codec options st call).1 := by
  obtain ⟨rs, hl, hf⟩ := hinv
  have hinv : ChainInv codec st := ⟨rs, hl, hf⟩
  cases call with
  | activate a =>
    obtain ⟨st', result, hact⟩ : ∃ st' result, activate codec options st a = (st', result) :=
      ⟨_, _, rfl⟩
    show ChainInv codec (activate codec options st a).1
    rw [hact]
    rcases activate_cases hact with ⟨rfl, -⟩ | ⟨_, _, -, rfl, -⟩ | ⟨_, -, rfl, -⟩ | ⟨d, r, hadmits⟩
    · exact hinv
    · exact ⟨rs, ⟨hl.retained, hl.current, hl.chain, hl.genuine, hl.indexed⟩, hf⟩
    · exact hinv
    · exact hadmits.inv hinv
  | restore q =>
    obtain ⟨st', result, hres⟩ : ∃ st' result, restore codec options st q = (st', result) :=
      ⟨_, _, rfl⟩
    show ChainInv codec (restore codec options st q).1
    rw [hres]
    rcases restore_cases hinv hres with ⟨g, _, hg, rfl, -⟩ | ⟨-, -, hinv', -, -⟩
    · exact ⟨rs, ⟨hl.retained, hl.current, hl.chain, hl.genuine, hl.indexed⟩, hf.fence_le,
        hf.fence_last, fun r hr => (hf.generation_le r hr).trans hg⟩
    · exact hinv'

theorem perform_fault (codec : Codec) (options : Options) (call : Call) {reason : ClosedReason}
    (h : st.fault = some reason) :
    (perform codec options st call).1.fault = some reason := by
  cases call with
  | activate a =>
    show (activate codec options st a).1.fault = some reason
    rw [activate, h]
    exact h
  | restore q =>
    show (restore codec options st q).1.fault = some reason
    unfold restore
    split
    · exact h
    split
    · exact h
    rw [if_pos (.inr (by rw [h]; rfl))]
    exact h

theorem perform_error {error : Failure} (hinv : ChainInv codec st)
    (h : (perform codec options st call).2 = .error error) :
    (perform codec options st call).1.bySequence = st.bySequence ∧
      (perform codec options st call).1.byHash = st.byHash ∧
      (perform codec options st call).1.currentRecord = st.currentRecord := by
  cases call with
  | activate a =>
    obtain ⟨st', result, hact⟩ : ∃ st' result, activate codec options st a = (st', result) :=
      ⟨_, _, rfl⟩
    simp only [perform, hact] at h ⊢
    rcases activate_cases hact with ⟨rfl, -⟩ | ⟨_, _, -, rfl, -⟩ | ⟨_, -, rfl, -⟩ | ⟨d, r, hadmits⟩
    · exact ⟨rfl, rfl, rfl⟩
    · exact ⟨rfl, rfl, rfl⟩
    · exact ⟨rfl, rfl, rfl⟩
    · obtain ⟨s, hs⟩ := exists_snapshotFor hadmits.keeps
      rw [hadmits.result, hs] at h
      cases h
  | restore q =>
    obtain ⟨st', result, hres⟩ : ∃ st' result, restore codec options st q = (st', result) :=
      ⟨_, _, rfl⟩
    simp only [perform, hres] at h ⊢
    rcases restore_cases hinv hres with ⟨g, _, -, rfl, -⟩ | ⟨-, -, -, -, s, hs⟩
    · exact ⟨rfl, rfl, rfl⟩
    · rw [hs] at h
      cases h

theorem chainInv_performAll (options : Options) (hinv : ChainInv codec st) (calls : List Call) :
    ChainInv codec (performAll codec options st calls) := by
  induction calls generalizing st with
  | nil => exact hinv
  | cons call calls ih => exact ih (hinv.perform options call)

/-! ### What is out of use stays so -/

/-- What a snapshot of an activated record is known by: it was taken in the past, and the record that
it is found by has begun. -/
structure Taken (st : DescriptorState) (s : Snapshot) (now : ℕ) : Prop where
  current : st.currentRecord ≠ none
  generation : s.generation ≤ st.generation
  issued : ∀ r, st.recordForSnapshot s = some r → r.issuedEpoch ≤ now

variable {s : Snapshot} {now : ℕ}

theorem recordForSnapshot_eq_some {r : Record} (h : st.recordForSnapshot s = some r) :
    st.byHash.get? s.hash = some r ∧ r.descriptorSequence = s.descriptorSequence ∧
      r.generation = s.generation ∧ r.lifecycleFence = s.lifecycleFence := by
  obtain ⟨hget, htest⟩ := filter_eq_some_iff.mp h
  exact ⟨hget, of_decide_eq_true htest⟩

theorem perform_of_current (codec : Codec) (options : Options) (call : Call) (hcurrent : st.currentRecord ≠ none) :
    ((perform codec options st call).1.currentRecord = st.currentRecord ∧
      (perform codec options st call).1.byHash = st.byHash ∧
      (perform codec options st call).1.generation = st.generation ∧
      (perform codec options st call).1.lifecycleFence = st.lifecycleFence ∧
      (st.fault.isSome → (perform codec options st call).1.fault.isSome)) ∨
    ∃ a d r, call = .activate a ∧ Admits codec options st a (activate codec options st a).1
      (activate codec options st a).2 d r := by
  cases call with
  | activate a =>
    obtain ⟨st', result, hact⟩ : ∃ st' result, activate codec options st a = (st', result) :=
      ⟨_, _, rfl⟩
    simp only [perform, hact]
    rcases activate_cases hact with ⟨rfl, -⟩ | ⟨_, _, -, rfl, -⟩ | ⟨_, -, rfl, -⟩ | ⟨d, r, hadmits⟩
    · exact .inl ⟨rfl, rfl, rfl, rfl, id⟩
    · exact .inl ⟨rfl, rfl, rfl, rfl, fun _ => rfl⟩
    · exact .inl ⟨rfl, rfl, rfl, rfl, id⟩
    · exact .inr ⟨a, d, r, rfl, by rw [hact]; exact hadmits⟩
  | restore q =>
    have hsame : (restore codec options st q).1 = st := by
      unfold restore
      split
      · rfl
      split
      · rfl
      rw [if_pos (.inl (isSome_iff_ne_none.mpr hcurrent))]
    refine .inl ?_
    rw [show perform codec options st (.restore q) = restore codec options st q from rfl, hsame]
    exact ⟨rfl, rfl, rfl, rfl, id⟩

/-- What becomes of the current record: it stays, or the one that a call puts in its place follows it,
even where pruning keeps no record but the last. -/
theorem current_perform (hinv : ChainInv codec st) (options : Options) (call : Call) {previous : Record}
    (hprevious : st.currentRecord = some previous) :
    ∃ next, (perform codec options st call).1.currentRecord = some next ∧
      (next = previous ∨ Follows codec previous next) := by
  have hsome : st.currentRecord ≠ none := by
    rw [hprevious]
    exact some_ne_none previous
  rcases perform_of_current codec options call hsome with ⟨hsame, -⟩ | ⟨a, d, r, rfl, hadmits⟩
  · exact ⟨previous, hsame.trans hprevious, .inl rfl⟩
  · obtain ⟨hcurrent, -⟩ := hadmits.spec hinv
    obtain ⟨rs, hl, -⟩ := hinv
    exact ⟨r, hcurrent, .inr ((hadmits.appends hl).2 previous (hl.current.symm.trans hprevious))⟩

theorem Taken.found (hinv : ChainInv codec st) (h : Taken st s now) {r : Record}
    (hr : (perform codec options st call).1.recordForSnapshot s = some r) :
    st.recordForSnapshot s = some r := by
  rcases perform_of_current codec options call h.current with ⟨-, hbyHash, -, -, -⟩ | ⟨a, d, new, rfl, hadmits⟩
  · unfold DescriptorState.recordForSnapshot at hr ⊢
    rwa [hbyHash] at hr
  · obtain ⟨-, -, -, hfound⟩ := hadmits.spec hinv
    obtain ⟨hget, htest⟩ := filter_eq_some_iff.mp hr
    rcases hfound _ _ hget with rfl | hold
    · -- the new record has a generation of its own
      have hgeneration : r.generation = s.generation := (of_decide_eq_true htest).2.1
      have := hadmits.generation
      have := h.generation
      omega
    · exact filter_eq_some_iff.mpr ⟨hold, htest⟩

theorem Taken.perform (hinv : ChainInv codec st) (h : Taken st s now) :
    Taken (perform codec options st call).1 s now := by
  refine ⟨?_, ?_, fun r hr => h.issued r (h.found hinv hr)⟩
  · rcases perform_of_current codec options call h.current with ⟨hcurrent, -⟩ | ⟨a, d, r, rfl, hadmits⟩
    · rw [hcurrent]
      exact h.current
    · obtain ⟨hcurrent, -⟩ := hadmits.spec hinv
      rw [show (Service.perform codec options st (.activate a)).1.currentRecord = some r from hcurrent]
      exact nofun
  · rcases perform_of_current codec options call h.current with ⟨-, -, hgeneration, -⟩ | ⟨a, d, r, rfl, hadmits⟩
    · rw [hgeneration]
      exact h.generation
    · obtain ⟨-, hgeneration, -⟩ := hadmits.spec hinv
      rw [show (Service.perform codec options st (.activate a)).1.generation = _ from hgeneration]
      exact h.generation.trans (Nat.le_succ _)

theorem remainsUsable_eq_false (hinv : ChainInv codec st) (h : Taken st s now)
    (hdead : st.remainsUsable s now = false) :
    st.fault.isSome = true ∨ st.recordForSnapshot s = none ∨
      ∃ r current, st.recordForSnapshot s = some r ∧ st.currentRecord = some current ∧
        current.lifecycleFence = st.lifecycleFence ∧ r.lifecycleFence ≤ current.lifecycleFence ∧
        (r.lifecycleFence < current.lifecycleFence ∨ r.expiresEpoch ≤ now ∨
          current.storeLifecycleState = .retired) := by
  obtain ⟨rs, hl, hf⟩ := hinv
  unfold DescriptorState.remainsUsable at hdead
  split at hdead
  · rename_i hfault
    exact .inl hfault
  split at hdead
  · rename_i r current hr hcurrent
    have hfence := hf.fence_last current (hl.current.symm.trans hcurrent)
    have hle : r.lifecycleFence ≤ current.lifecycleFence := by
      rw [hfence]
      exact hf.fence_le r (hl.indexed _ _ (recordForSnapshot_eq_some hr).1).1
    refine .inr (.inr ⟨r, current, hr, hcurrent, hfence, hle, ?_⟩)
    by_contra hnot
    push Not at hnot
    refine absurd hdead ?_
    rw [Bool.not_eq_false]
    exact decide_eq_true ⟨by omega, h.issued r hr, hnot.2.1, hnot.2.2⟩
  · rename_i hnot
    cases hr : st.recordForSnapshot s with
    | none => exact .inr (.inl rfl)
    | some r =>
      obtain ⟨current, hcurrent⟩ := ne_none_iff_exists'.mp h.current
      exact absurd hcurrent (hnot r current hr)

/-- A snapshot that is found, of a fence below the current one, expired, or of a retired store, is
out of use. -/
theorem remainsUsable_of_found {r : Record} (hr : st.recordForSnapshot s = some r)
    (h : ∀ current, st.currentRecord = some current → r.lifecycleFence ≠ current.lifecycleFence ∨
      r.expiresEpoch ≤ now ∨ current.storeLifecycleState = .retired) :
    st.remainsUsable s now = false := by
  unfold DescriptorState.remainsUsable
  split
  · rfl
  split
  · rename_i r' current hr' hcurrent
    obtain rfl := mem_unique hr hr'
    refine decide_eq_false fun ⟨hfence, _, hexpires, hretired⟩ => ?_
    rcases h current hcurrent with h | h | h
    · exact h hfence
    · omega
    · exact hretired h
  · rfl

theorem remainsUsable_of_not_found (h : st.recordForSnapshot s = none) : st.remainsUsable s now = false := by
  unfold DescriptorState.remainsUsable
  split
  · rfl
  · rw [h]

theorem dead_perform (hinv : ChainInv codec st) (h : Taken st s now) (hdead : st.remainsUsable s now = false) :
    (perform codec options st call).1.remainsUsable s now = false := by
  cases hfound : (perform codec options st call).1.recordForSnapshot s with
  | none => exact remainsUsable_of_not_found hfound
  | some r =>
    have hold := h.found hinv hfound
    rcases remainsUsable_eq_false hinv h hdead with
      hfault | hnone | ⟨r', current, hr', hcurrent, hfence, hle, hwhy⟩
    · -- a fault stays
      obtain ⟨reason, hreason⟩ := isSome_iff_exists.mp hfault
      have := perform_fault codec options call hreason
      unfold DescriptorState.remainsUsable
      rw [if_pos (by rw [this]; rfl)]
    · exact nomatch hold.symm.trans hnone
    · obtain rfl : r' = r := mem_unique hr' hold
      refine remainsUsable_of_found hfound fun next hnext => ?_
      rcases perform_of_current codec options call h.current with ⟨hsame, -⟩ | ⟨a, d, new, rfl, hadmits⟩
      · obtain rfl : current = next :=
          some.inj (hcurrent.symm.trans (hsame.symm.trans hnext))
        rcases hwhy with hlt | hexpired | hretired
        · exact .inl hlt.ne
        · exact .inr (.inl hexpired)
        · exact .inr (.inr hretired)
      · obtain ⟨hnew, -, -, -⟩ := hadmits.spec hinv
        obtain rfl : new = next := mem_unique hnew hnext
        have hgrows := hadmits.fence_le
        rcases hwhy with hlt | hexpired | hretired
        · exact .inl (by omega)
        · exact .inr (.inl hexpired)
        · -- what replaces a retired store has a new fence
          rcases hadmits.follows with ⟨hnone, -⟩ | ⟨previous, t, _, hprevious, htransition, hstep⟩
          · exact absurd (hcurrent.symm.trans hnone) nofun
          · obtain rfl : previous = current := mem_unique hprevious hcurrent
            obtain ⟨rs, hl, -⟩ := hinv
            obtain ⟨dp, hdp⟩ := hl.genuine previous (mem_of_getLast? (hl.current.symm.trans hprevious))
            have hchanged := (assertTransition_eq_ok hdp htransition).2 (hdp.2.2.2.2.2 ▸ hretired)
            rw [if_pos hchanged] at hstep
            exact .inl (by omega)

theorem dead_later (hinv : ChainInv codec st) (h : Taken st s now)
    (hdead : st.remainsUsable s now = false) {later : ℕ} (hlater : now ≤ later) :
    st.remainsUsable s later = false := by
  rcases remainsUsable_eq_false hinv h hdead with
    hfault | hnone | ⟨r, current, hr, hcurrent, -, -, hwhy⟩
  · unfold DescriptorState.remainsUsable
    rw [if_pos hfault]
  · exact remainsUsable_of_not_found hnone
  · refine remainsUsable_of_found hr fun next hnext => ?_
    obtain rfl : current = next := mem_unique hcurrent hnext
    rcases hwhy with hlt | hexpired | hretired
    · exact .inl hlt.ne
    · exact .inr (.inl (hexpired.trans hlater))
    · exact .inr (.inr hretired)

theorem taken_of_activate (hinv : ChainInv codec st) (h : perform codec options st (.activate a) = (st', .ok s))
    (hnew : st'.generation ≠ st.generation) : Taken st' s a.now := by
  rcases activate_cases h with ⟨-, _, herror⟩ | ⟨_, _, -, -, herror⟩ | ⟨_, -, rfl, -⟩ | ⟨d, r, hadmits⟩
  · cases herror
  · cases herror
  · exact absurd rfl hnew
  · obtain ⟨hcurrent, hgeneration, -, -⟩ := hadmits.spec hinv
    obtain ⟨hhash, -, hsgeneration, -⟩ := snapshotFor_eq_ok hadmits.result.symm
    refine ⟨by rw [hcurrent]; exact nofun, ?_, fun r' hr' => ?_⟩
    · rw [hsgeneration, hgeneration, hadmits.generation]
    · obtain ⟨hget, -, hgen, -⟩ := recordForSnapshot_eq_some hr'
      obtain ⟨-, -, -, hfound⟩ := hadmits.spec hinv
      rcases hfound _ _ hget with rfl | hold
      · rw [hadmits.keeps.2.2.2.1]
        exact hadmits.issued
      · obtain ⟨rs, hl, hf⟩ := hinv
        have := hf.generation_le r' (hl.indexed _ _ hold).1
        have := hadmits.generation
        omega

theorem performAll_fault {reason : ClosedReason} (h : st.fault = some reason) (calls : List Call) :
    (performAll codec options st calls).fault = some reason := by
  induction calls generalizing st with
  | nil => exact h
  | cons call calls ih => exact ih (perform_fault codec options call h)

theorem taken_performAll (options : Options) (hinv : ChainInv codec st) (h : Taken st s now) (calls : List Call) :
    Taken (performAll codec options st calls) s now := by
  induction calls generalizing st with
  | nil => exact h
  | cons call calls ih => exact ih (hinv.perform options call) (h.perform hinv)

/-- **What is out of use stays so**, whatever is called. -/
theorem dead_performAll (hinv : ChainInv codec st) (h : Taken st s now)
    (hdead : st.remainsUsable s now = false) (calls : List Call) :
    (performAll codec options st calls).remainsUsable s now = false := by
  induction calls generalizing st with
  | nil => exact hdead
  | cons call calls ih => exact ih (hinv.perform options call) (h.perform hinv) (dead_perform hinv h hdead)

theorem Taken.later (h : Taken st s now) {later : ℕ} (hlater : now ≤ later) : Taken st s later :=
  ⟨h.current, h.generation, fun r hr => (h.issued r hr).trans hlater⟩

end Calls

/-- **The chain of descriptors**, after every sequence of calls: the retained records are a chain
that ends at the current one; the next call keeps the current record or puts one in its place that
follows it; a fault is never cleared; a call that fails changes no record; and a snapshot of a record
that an activation installed is never usable again once it is not. -/
theorem descriptor_chain_safety (codec : Codec) (options : Options) (calls : List Call)
    (st : DescriptorState) (hst : performAll codec options .fresh calls = st) :
    (st.currentRecord = st.bySequence.values.getLast? ∧ st.bySequence.values.IsChain (Follows codec) ∧
      st.bySequence.values.Pairwise (Later codec)) ∧
    (∀ call previous, st.currentRecord = some previous →
      ∃ next, (perform codec options st call).1.currentRecord = some next ∧
        (next = previous ∨ Follows codec previous next)) ∧
    (∀ reason, st.fault = some reason → ∀ more, (performAll codec options st more).fault = some reason) ∧
    (∀ call error, (perform codec options st call).2 = .error error →
      (perform codec options st call).1.bySequence = st.bySequence ∧
      (perform codec options st call).1.byHash = st.byHash ∧
      (perform codec options st call).1.currentRecord = st.currentRecord) ∧
    ∀ a st' s, perform codec options st (.activate a) = (st', .ok s) →
      st'.generation ≠ st.generation → ∀ middle now after later,
      (a.now :: (middle.map Call.now ++ now :: (after.map Call.now ++ [later]))).Pairwise (· ≤ ·) →
      (performAll codec options st' middle).remainsUsable s now = false →
      (performAll codec options (performAll codec options st' middle) after).remainsUsable s later =
        false := by
  have hinv : ChainInv codec st := hst ▸ chainInv_performAll options chainInv_fresh calls
  refine ⟨?_, fun call _ => current_perform hinv options call, fun reason h => performAll_fault h,
    fun call error => perform_error hinv, ?_⟩
  · obtain ⟨rs, hl, -⟩ := hinv
    rw [hl.values]
    exact ⟨hl.current, hl.chain, pairwise_later hl.chain⟩
  · intro a st' s hact hnew middle now after later hreadings hdead
    have hinv' : ChainInv codec st' := by
      have := hinv.perform options (.activate a)
      rwa [hact] at this
    have hnow : a.now ≤ now := (pairwise_cons.mp hreadings).1 now (by simp)
    have hlater : now ≤ later := by
      have hrest := (pairwise_append.mp (pairwise_cons.mp hreadings).2).2.1
      exact (pairwise_cons.mp hrest).1 later (by simp)
    have hmiddle := chainInv_performAll options hinv' middle
    have htaken := (taken_performAll options hinv' (taken_of_activate hinv hact hnew) middle).later hnow
    exact dead_later (chainInv_performAll options hmiddle after) (taken_performAll options hmiddle htaken after)
      (dead_performAll hmiddle htaken hdead after) hlater

/-! ### A descriptor that expires -/

/-- A descriptor of a store, good for ten epochs. -/
def sampleDescriptor (sequence issued : ℕ) (previous : Option Bytes) : Descriptor where
  relayPublicKey := [1]
  storeId := [2]
  descriptorSequence := sequence
  previousDescriptorHash := previous
  identitySequence := 0
  previousRelayKey := none
  identityTransition := none
  specHash := []
  abiHash := []
  enabledOperationBits := 0
  durabilityProfileId := 1
  storeFormatMajor := 1
  storeFormatMinor := 0
  storeFormatHash := []
  durabilityContinuityHash := []
  durabilityProfileHash := []
  storeLifecycleState := .active
  drainStartedEpoch := none
  issuedEpoch := issued
  expiresEpoch := issued + 10

/-- A codec of two descriptors, in which the bytes are their own hash. -/
def sampleCodec : Codec where
  decode bytes :=
    if bytes = [0] then some (sampleDescriptor 0 0 none)
    else if bytes = [1] then some (sampleDescriptor 1 8 (some [0])) else none
  decodeManifest _ := none
  serviceDescriptorHash := id
  durabilityHashesMatch _ := true

def sampleOptions : Options where
  maxHistory := 4096
  retentionEpochs := 1460
  allowEmergencyGaps := false
  hasVerifyRestoration := false
  maxHistory_bounds := by decide
  retentionEpochs_bounds := by decide

/-- The activation of one of them, at the epoch it is issued in. -/
def sampleActivation (byte : UInt8) (now : Fin 256) : Activation where
  canonicalBytes := [byte]
  emergencyGap := false
  trustedRestore := false
  answers := ⟨true, true, true⟩
  now := now
  now_u32 := by omega

def sampleSnapshot : Snapshot where
  descriptor := sampleDescriptor 0 0 none
  canonicalBytes := [0]
  hash := [0]
  descriptorSequence := 0
  generation := 1
  lifecycleFence := 0
  hadReadinessGap := false
  fullStoreVerificationRequired := false

/-- The first descriptor expires and is not usable after the next one is activated. -/
theorem expired_descriptor_stays_unusable : (performAll sampleCodec sampleOptions
      (perform sampleCodec sampleOptions .fresh (.activate (sampleActivation 0 3))).1
      [.activate (sampleActivation 1 11)]).remainsUsable sampleSnapshot 12 = false := by
  have hresult : (perform sampleCodec sampleOptions .fresh (.activate (sampleActivation 0 3))).2 =
      .ok sampleSnapshot := by decide
  obtain ⟨-, -, -, -, hdead⟩ := descriptor_chain_safety sampleCodec sampleOptions [] .fresh rfl
  exact hdead (sampleActivation 0 3) _ sampleSnapshot (Prod.ext rfl hresult) (by decide) [] 10
    [.activate (sampleActivation 1 11)] 12 (by decide) (by decide)

end HiveRelay.Service
