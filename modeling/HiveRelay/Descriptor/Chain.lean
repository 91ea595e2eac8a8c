import Mathlib.Data.List.Chain
import HiveRelay.Descriptor.State

/-!
# The chain of descriptors

The records that are retained are a run of the chain that ends at the current record, whatever is
activated, restored or pruned. What follows what is said once, in `Succeeds`, and everything else is
read off it: sequences, links, the lifecycle of a store, and rotations of the relay key.
-/

namespace HiveRelay.Service

open List Option OrderedMap

/-! ### What follows what -/

/-- The steps of the lifecycle of a store. -/
def LifecycleStep (previous next : Lifecycle) : Prop :=
  (previous = .active ∧ next = .active) ∨ (previous = .active ∧ next = .draining) ∨
    (previous = .draining ∧ next = .draining) ∨ (previous = .draining ∧ next = .retired)

/-- The stages of the lifecycle in their order. -/
def Lifecycle.stage : Lifecycle → ℕ
  | .active => 0
  | .draining => 1
  | .retired => 2

/-- What holds between a descriptor, whose hash is given, and the one that follows it. -/
structure Succeeds (hash : Bytes) (previous next : Descriptor) : Prop where
  sequence : next.descriptorSequence = previous.descriptorSequence + 1
  link : next.previousDescriptorHash = some hash
  relay : (next.relayPublicKey = previous.relayPublicKey ∧ next.storeId = previous.storeId ∧
      next.identitySequence = previous.identitySequence ∧
      LifecycleStep previous.storeLifecycleState next.storeLifecycleState ∧
      (previous.storeLifecycleState ≠ .active →
        next.drainStartedEpoch = previous.drainStartedEpoch)) ∨
    (next.relayPublicKey ≠ previous.relayPublicKey ∧ previous.storeLifecycleState = .retired ∧
      next.storeLifecycleState = .active ∧ next.storeId ≠ previous.storeId ∧
      next.identitySequence = previous.identitySequence + 1)

/-- What holds between a descriptor and a later one: identities only go up, and within one of them
the key and the store are the same, the lifecycle only advances, and a drain epoch stays. -/
structure Within (previous next : Descriptor) : Prop where
  sequence : previous.descriptorSequence < next.descriptorSequence
  identity : previous.identitySequence ≤ next.identitySequence
  same : previous.identitySequence = next.identitySequence →
    next.relayPublicKey = previous.relayPublicKey ∧ next.storeId = previous.storeId ∧
      previous.storeLifecycleState.stage ≤ next.storeLifecycleState.stage ∧
      (previous.storeLifecycleState ≠ .active →
        next.drainStartedEpoch = previous.drainStartedEpoch)

theorem LifecycleStep.stage_le {previous next : Lifecycle} (h : LifecycleStep previous next) :
    previous.stage ≤ next.stage := by
  rcases h with ⟨rfl, rfl⟩ | ⟨rfl, rfl⟩ | ⟨rfl, rfl⟩ | ⟨rfl, rfl⟩ <;> decide

theorem Succeeds.within {hash : Bytes} {previous next : Descriptor}
    (h : Succeeds hash previous next) : Within previous next := by
  have hsequence := h.sequence
  rcases h.relay with ⟨hkey, hstore, hidentity, hstep, hdrain⟩ | ⟨-, -, -, -, hidentity⟩
  · exact ⟨by omega, hidentity.ge, fun _ => ⟨hkey, hstore, hstep.stage_le, hdrain⟩⟩
  · exact ⟨by omega, by omega, fun _ => by omega⟩

theorem Within.trans {a b c : Descriptor} (hab : Within a b) (hbc : Within b c) : Within a c := by
  refine ⟨hab.sequence.trans hbc.sequence, hab.identity.trans hbc.identity, fun h => ?_⟩
  have hab' := hab.identity
  have hbc' := hbc.identity
  obtain ⟨hkey, hstore, hstage, hdrain⟩ := hab.same (by omega)
  obtain ⟨hkey', hstore', hstage', hdrain'⟩ := hbc.same (by omega)
  refine ⟨hkey'.trans hkey, hstore'.trans hstore, hstage.trans hstage', fun hactive => ?_⟩
  -- past ACTIVE the later one is past ACTIVE too
  have hb : b.storeLifecycleState ≠ .active := by
    intro hb
    rw [hb] at hstage
    cases ha : a.storeLifecycleState with
    | active => exact hactive ha
    | draining | retired =>
      rw [ha] at hstage
      exact absurd hstage (by decide)
  exact (hdrain' hb).trans (hdrain hactive)

section Chain

variable {codec : Codec} {options : Options}

/-- What is kept of a descriptor is that descriptor's. -/
def Keeps (codec : Codec) (r : Record) (d : Descriptor) : Prop :=
  codec.decode r.canonicalBytes = some d ∧ r.hash = codec.serviceDescriptorHash r.canonicalBytes ∧
    r.descriptorSequence = d.descriptorSequence ∧ r.issuedEpoch = d.issuedEpoch ∧
    r.expiresEpoch = d.expiresEpoch ∧ r.storeLifecycleState = d.storeLifecycleState

variable {r : Record} {d : Descriptor}

theorem Keeps.unique {d' : Descriptor} (h : Keeps codec r d) (h' : Keeps codec r d') :
    d = d' := mem_unique h.1 h'.1

theorem keeps_recordFor {bytes : Bytes} (h : codec.decode bytes = some d)
    (generation fence : ℕ) (gap restored : Bool) :
    Keeps codec (recordFor d bytes (codec.serviceDescriptorHash bytes) generation fence gap restored)
      d := ⟨h, rfl, rfl, rfl, rfl, rfl⟩

def Follows (codec : Codec) (a b : Record) : Prop :=
  ∃ da db, Keeps codec a da ∧ Keeps codec b db ∧ Succeeds a.hash da db

def Later (codec : Codec) (a b : Record) : Prop :=
  ∃ da db, Keeps codec a da ∧ Keeps codec b db ∧ Within da db

theorem Follows.later {a b : Record} (h : Follows codec a b) : Later codec a b := by
  obtain ⟨da, db, ha, hb, h⟩ := h
  exact ⟨da, db, ha, hb, h.within⟩

theorem Later.trans {a b c : Record} (hab : Later codec a b) (hbc : Later codec b c) :
    Later codec a c := by
  obtain ⟨da, db, ha, hb, hab⟩ := hab
  obtain ⟨db', dc, hb', hc, hbc⟩ := hbc
  obtain rfl := hb.unique hb'
  exact ⟨da, dc, ha, hc, hab.trans hbc⟩

theorem Later.sequence_lt {a b : Record} (h : Later codec a b) : a.descriptorSequence < b.descriptorSequence := by
  obtain ⟨da, db, ha, hb, h⟩ := h
  rw [ha.2.2.1, hb.2.2.1]
  exact h.sequence

instance : Trans (Later codec) (Later codec) (Later codec) := ⟨Later.trans⟩

theorem pairwise_later {rs : List Record} (h : rs.IsChain (Follows codec)) : rs.Pairwise (Later codec) :=
  isChain_iff_pairwise.mp (h.imp fun _ _ => Follows.later)

/-! ### What a transition asks for -/

theorem lifecycleStep_of_transition {previous next : Lifecycle}
    (h : lifecycleTransition previous next = true) : LifecycleStep previous next := by
  revert h
  cases previous <;> cases next <;> simp [lifecycleTransition, LifecycleStep]

theorem assertTransition_eq_ok {next previous : Descriptor} {allowGap : Bool}
    {t : Transition} (hr : Keeps codec r previous)
    (h : assertTransition codec r next allowGap = .ok t) :
    Succeeds r.hash previous next ∧ (previous.storeLifecycleState = .retired → t.lifecycleFenceChanged = true) := by
  simp only [assertTransition, guards_eq_ok] at h
  obtain ⟨previous', hprevious, ⟨hsequence, hlink⟩, -, _, hrelay, _, hdrain, rfl⟩ := h
  obtain rfl : previous' = previous := mem_unique hprevious hr.1
  have hdrain := require_eq_ok.mp hdrain
  unfold assertRelayTransition at hrelay
  split at hrelay
  · rename_i hkey
    simp only [assertSameKeyTransition, guards_eq_ok] at hrelay
    obtain ⟨⟨-, -, hidentity, hstore, -, -⟩, hlifecycle, -⟩ := hrelay
    have hstep := lifecycleStep_of_transition hlifecycle
    refine ⟨⟨hsequence, hlink, .inl ⟨hkey.symm, hstore.symm, hidentity, hstep, fun hactive => ?_⟩⟩,
      fun hretired => ?_⟩
    · rcases hstep with ⟨h, -⟩ | ⟨h, -⟩ | ⟨h, h'⟩ | ⟨h, h'⟩
      · exact absurd h hactive
      · exact absurd h hactive
      · exact hdrain (.inl h) (by rw [h']; decide)
      · exact hdrain (.inl h) (by rw [h']; decide)
    · rw [hretired] at hlifecycle
      cases hnext : next.storeLifecycleState <;> rw [hnext] at hlifecycle <;>
        exact absurd hlifecycle (by decide)
  · rename_i hkey
    obtain ⟨hretired, hactive, hstore, -, -, hidentity⟩ := require_eq_ok.mp hrelay
    refine ⟨⟨hsequence, hlink, .inr ⟨Ne.symm hkey, hretired, hactive, Ne.symm hstore, hidentity⟩⟩, fun _ => ?_⟩
    simp [hkey]

theorem decode_of_verified {bytes : Bytes} {answers : Answers}
    (h : verifiedDescriptor codec bytes answers = .ok d) : codec.decode bytes = some d := by
  simp only [verifiedDescriptor, guards_eq_ok] at h
  obtain ⟨_, hdecode, -, -, -, -, -, rfl⟩ := h
  exact hdecode

theorem snapshotFor_eq_ok {s : Snapshot} (h : snapshotFor codec r = .ok s) :
    s.hash = r.hash ∧ s.descriptorSequence = r.descriptorSequence ∧ s.generation = r.generation ∧
      s.lifecycleFence = r.lifecycleFence := by
  simp only [snapshotFor, guards_eq_ok] at h
  obtain ⟨_, -, rfl⟩ := h
  exact ⟨rfl, rfl, rfl, rfl⟩

theorem exists_snapshotFor (h : Keeps codec r d) : ∃ s, snapshotFor codec r = .ok s := by
  simp only [snapshotFor, guards_eq_ok]
  exact ⟨_, d, h.1, rfl⟩

/-! ### The records of the state -/

/-- The state retains a chain of records. -/
structure Linked (codec : Codec) (st : DescriptorState) (rs : List Record) : Prop where
  retained : st.bySequence.entries = rs.map fun r => (r.descriptorSequence, r)
  current : st.currentRecord = rs.getLast?
  chain : rs.IsChain (Follows codec)
  genuine : ∀ r ∈ rs, ∃ d, Keeps codec r d
  indexed : ∀ h r, st.byHash.get? h = some r → r ∈ rs ∧ r.hash = h

/-- What the fences and the generations of a chain of records are bounded by. -/
structure Fenced (fence generation : ℕ) (rs : List Record) : Prop where
  fence_le : ∀ r ∈ rs, r.lifecycleFence ≤ fence
  fence_last : ∀ r ∈ rs.getLast?, r.lifecycleFence = fence
  generation_le : ∀ r ∈ rs, r.generation ≤ generation

def ChainInv (codec : Codec) (st : DescriptorState) : Prop :=
  ∃ rs, Linked codec st rs ∧ Fenced st.lifecycleFence st.generation rs

theorem chainInv_fresh : ChainInv codec .fresh :=
  ⟨[], ⟨rfl, rfl, isChain_nil, nofun, nofun⟩, nofun, nofun, nofun⟩

variable {st : DescriptorState} {rs : List Record}

theorem Linked.values (h : Linked codec st rs) : st.bySequence.values = rs := by
  rw [OrderedMap.values, h.retained, List.map_map]
  exact List.map_id rs

/-- Only a record that follows the last one is appended. -/
def Appends (codec : Codec) (rs : List Record) (r : Record) : Prop :=
  (∃ d, Keeps codec r d) ∧ ∀ last ∈ rs.getLast?, Follows codec last r

theorem isChain_append_singleton (h : rs.IsChain (Follows codec))
    (hr : Appends codec rs r) : (rs ++ [r]).IsChain (Follows codec) := by
  refine h.append (isChain_singleton r) fun last hlast next hnext => ?_
  obtain rfl : r = next := by simpa using hnext
  exact hr.2 last hlast

theorem Linked.install (h : Linked codec st rs) (hr : Appends codec rs r) :
    Linked codec (st.install r) (rs ++ [r]) := by
  have hchain := isChain_append_singleton h.chain hr
  have hnew : r.descriptorSequence ∉ st.bySequence.entries.map Prod.fst := by
    rw [h.retained, List.map_map]
    intro hmem
    obtain ⟨r', hr', heq⟩ := mem_map.mp hmem
    have hlater := (pairwise_append.mp (pairwise_later hchain)).2.2 r' hr' r (mem_singleton.mpr rfl)
    exact absurd heq hlater.sequence_lt.ne
  refine ⟨?_, ?_, hchain, ?_, ?_⟩
  · show (st.bySequence.set r.descriptorSequence r).entries = _
    rw [entries_set_of_notMem hnew, h.retained, map_append]
    rfl
  · show some r = _
    rw [getLast?_concat]
  · intro r' hr'
    rcases mem_append.mp hr' with hr' | hr'
    · exact h.genuine r' hr'
    · obtain rfl := mem_singleton.mp hr'
      exact hr.1
  · intro k r' hget
    have hget : (st.byHash.set r.hash r).get? k = some r' := hget
    rw [get?_set] at hget
    split at hget
    · rename_i hk
      cases hget
      exact ⟨mem_append_right _ (mem_singleton.mpr rfl), hk.symm⟩
    · obtain ⟨hmem, hhash⟩ := h.indexed k r' hget
      exact ⟨mem_append_left _ hmem, hhash⟩

structure Pruned (st st' : DescriptorState) (rs rs' : List Record) : Prop where
  suffix : rs' <:+ rs
  nonempty : rs ≠ [] → rs' ≠ []
  current : st'.currentRecord = st.currentRecord
  generation : st'.generation = st.generation
  fence : st'.lifecycleFence = st.lifecycleFence
  fault : st'.fault = st.fault
  found : ∀ h r, st'.byHash.get? h = some r → st.byHash.get? h = some r

theorem Pruned.refl : Pruned st st rs rs :=
  ⟨suffix_rfl, id, rfl, rfl, rfl, rfl, fun _ _ => id⟩

theorem Linked.pruneLoop {floor : ℕ} (h : Linked codec st rs) :
    ∃ rs', Linked codec (pruneLoop options floor rs st) rs' ∧ Pruned st (pruneLoop options floor rs st) rs rs' := by
  induction rs generalizing st with
  | nil => exact ⟨[], h, .refl⟩
  | cons r rest ih =>
    unfold Service.pruneLoop
    split
    · rename_i hdrop
      have hrest : rest ≠ [] := by
        rintro rfl
        have := options.maxHistory_bounds
        simp only [length_nil] at hdrop
        omega
      set st₁ : DescriptorState := { st with
        bySequence := st.bySequence.delete r.descriptorSequence
        byHash := st.byHash.delete r.hash } with hst₁
      have hlinked : Linked codec st₁ rest := by
        refine ⟨?_, ?_, h.chain.tail, fun r' hr' => h.genuine r' (mem_cons_of_mem _ hr'), ?_⟩
        · show st.bySequence.entries.filter (fun e => e.1 ≠ r.descriptorSequence) = _
          have hlater := pairwise_cons.mp (pairwise_later h.chain)
          rw [h.retained, map_cons, filter_cons_of_neg (by simp), filter_eq_self]
          intro e he
          obtain ⟨r', hr', rfl⟩ := mem_map.mp he
          exact decide_eq_true (hlater.1 r' hr').sequence_lt.ne'
        · show st.currentRecord = _
          rw [h.current, getLast?_cons_of_ne_nil hrest]
        · intro k r' hget
          rw [get?_delete] at hget
          split at hget
          · cases hget
          · rename_i hk
            obtain ⟨hmem, hhash⟩ := h.indexed k r' hget
            rcases mem_cons.mp hmem with rfl | hmem
            · exact absurd hhash.symm hk
            · exact ⟨hmem, hhash⟩
      obtain ⟨rs', hlinked', hpruned⟩ := ih hlinked
      refine ⟨rs', hlinked', hpruned.suffix.trans (suffix_cons r rest),
        fun _ => hpruned.nonempty hrest, hpruned.current, hpruned.generation, hpruned.fence,
        hpruned.fault, fun k r' hget => ?_⟩
      have hget : (st.byHash.delete r.hash).get? k = some r' := hpruned.found k r' hget
      rw [get?_delete] at hget
      split at hget
      · cases hget
      · exact hget
    · exact ⟨r :: rest, h, .refl⟩

theorem Linked.prune (options : Options) (now : ℕ) (h : Linked codec st rs) :
    ∃ rs', Linked codec (st.prune options now) rs' ∧ Pruned st (st.prune options now) rs rs' := by
  have hsorted : st.bySequence.values.insertionSort
      (fun a b => a.descriptorSequence ≤ b.descriptorSequence) = rs := by
    rw [h.values]
    exact ((pairwise_later h.chain).imp fun hlater => hlater.sequence_lt.le).insertionSort_eq
  unfold DescriptorState.prune
  rw [hsorted]
  exact h.pruneLoop

variable {generation : ℕ}

theorem Fenced.suffix {fence : ℕ} {rs' : List Record} (h : Fenced fence generation rs)
    (hsuffix : rs' <:+ rs) : Fenced fence generation rs' := by
  refine ⟨fun r hr => h.fence_le r (hsuffix.subset hr), fun r hr => ?_,
    fun r hr => h.generation_le r (hsuffix.subset hr)⟩
  obtain ⟨front, rfl⟩ := hsuffix
  refine h.fence_last r ?_
  rw [getLast?_append, hr]
  rfl

theorem chainInv_prune {now : ℕ} (h : Linked codec st rs) (hfenced : Fenced st.lifecycleFence st.generation rs) :
    ChainInv codec (st.prune options now) := by
  obtain ⟨rs', hlinked, hpruned⟩ := h.prune options now
  refine ⟨rs', hlinked, ?_⟩
  rw [hpruned.fence, hpruned.generation]
  exact hfenced.suffix hpruned.suffix

/-! ### Activation -/

variable {a : Activation} {st' : DescriptorState} {result : Except Failure Snapshot}

/-- An activation that appends a record. -/
structure Admits (codec : Codec) (options : Options) (st : DescriptorState) (a : Activation)
    (st' : DescriptorState) (result : Except Failure Snapshot) (d : Descriptor) (r : Record) :
    Prop where
  keeps : Keeps codec r d
  issued : d.issuedEpoch ≤ a.now
  unfaulted : st.fault = none
  generation : r.generation = st.generation + 1
  after : st' = (({ st with
    generation := st.generation + 1, lifecycleFence := r.lifecycleFence }).install r).prune options a.now
  result : result = snapshotFor codec r
  follows : (st.currentRecord = none ∧ r.lifecycleFence = st.lifecycleFence) ∨
    ∃ current transition allowGap, st.currentRecord = some current ∧
      assertTransition codec current d allowGap = .ok transition ∧
      r.lifecycleFence =
        if transition.lifecycleFenceChanged then st.lifecycleFence + 1 else st.lifecycleFence

/-- What an activation may leave. -/
theorem activate_cases (h : activate codec options st a = (st', result)) :
    (st' = st ∧ ∃ error, result = .error error) ∨
    (∃ reason error, st.fault = none ∧ st' = { st with fault := some reason } ∧ result = .error error) ∨
    (∃ current, st.currentRecord = some current ∧ st' = st ∧ result = snapshotFor codec current) ∨
    ∃ d r, Admits codec options st a st' result d r := by
  unfold activate at h
  split at h
  · cases h
    exact .inl ⟨rfl, _, rfl⟩
  rename_i hfault
  split at h
  · cases h
    exact .inl ⟨rfl, _, rfl⟩
  rename_i d hd
  have hkeeps := keeps_recordFor (decode_of_verified hd)
  split at h
  · cases h
    exact .inl ⟨rfl, _, rfl⟩
  rename_i hissued
  split at h
  · cases h
    exact .inl ⟨rfl, _, rfl⟩
  unfold activateVerified at h
  simp only at h
  split at h
  · rename_i hcurrent
    split at h
    · cases h
      exact .inl ⟨rfl, _, rfl⟩
    split at h
    · cases h
      exact .inl ⟨rfl, _, rfl⟩
    · cases h
      exact .inr (.inr (.inr ⟨d, _, hkeeps _ _ _ _, not_lt.mp hissued, hfault, rfl, rfl, rfl, .inl ⟨hcurrent, rfl⟩⟩))
  · rename_i current hcurrent
    split at h
    · cases h
      exact .inr (.inl ⟨_, _, hfault, rfl, rfl⟩)
    split at h
    · split at h
      · cases h
        exact .inr (.inl ⟨_, _, hfault, rfl, rfl⟩)
      · cases h
        exact .inr (.inr (.inl ⟨current, hcurrent, rfl, rfl⟩))
    split at h
    · cases h
      exact .inr (.inl ⟨_, _, hfault, rfl, rfl⟩)
    · cases h
      exact .inl ⟨rfl, _, rfl⟩
    · rename_i transition htransition
      cases h
      exact .inr (.inr (.inr ⟨d, _, hkeeps _ _ _ _, not_lt.mp hissued, hfault, rfl, rfl, rfl,
        .inr ⟨current, transition, _, hcurrent, htransition, rfl⟩⟩))

variable {d : Descriptor} {r : Record}

theorem Admits.fence_le (h : Admits codec options st a st' result d r) : st.lifecycleFence ≤ r.lifecycleFence := by
  rcases h.follows with ⟨-, hfence⟩ | ⟨_, _, _, -, -, hfence⟩
  · exact hfence.ge
  · rw [hfence]
    split <;> omega

theorem Admits.appends (h : Admits codec options st a st' result d r) (hl : Linked codec st rs) :
    Appends codec rs r := by
  refine ⟨⟨d, h.keeps⟩, fun last hlast => ?_⟩
  rw [← hl.current] at hlast
  rcases h.follows with ⟨hnone, -⟩ | ⟨current, transition, _, hcurrent, htransition, -⟩
  · rw [hnone] at hlast
    cases hlast
  · obtain rfl : current = last := mem_unique hcurrent hlast
    obtain ⟨previous, hprevious⟩ := hl.genuine current (mem_of_getLast? (hl.current.symm.trans hcurrent))
    exact ⟨previous, d, hprevious, h.keeps, (assertTransition_eq_ok hprevious htransition).1⟩

theorem Admits.linked (h : Admits codec options st a st' result d r) (hl : Linked codec st rs)
    (hf : Fenced st.lifecycleFence st.generation rs) :
    Linked codec (({ st with
        generation := st.generation + 1, lifecycleFence := r.lifecycleFence }).install r) (rs ++ [r]) ∧
      Fenced r.lifecycleFence (st.generation + 1) (rs ++ [r]) := by
  have hle := h.fence_le
  have hgeneration := h.generation
  refine ⟨Linked.install ⟨hl.retained, hl.current, hl.chain, hl.genuine, hl.indexed⟩ (h.appends hl),
    fun r' hr' => ?_, fun r' hr' => ?_, fun r' hr' => ?_⟩
  · rcases mem_append.mp hr' with hr' | hr'
    · exact (hf.fence_le r' hr').trans hle
    · exact (congrArg Record.lifecycleFence (mem_singleton.mp hr')).le
  · rw [getLast?_concat] at hr'
    rw [some.inj hr']
  · rcases mem_append.mp hr' with hr' | hr'
    · exact (hf.generation_le r' hr').trans (Nat.le_succ _)
    · rw [mem_singleton.mp hr']
      exact hgeneration.le

theorem Admits.inv (h : Admits codec options st a st' result d r) (hinv : ChainInv codec st) :
    ChainInv codec st' := by
  obtain ⟨rs, hl, hf⟩ := hinv
  obtain ⟨hlinked, hfenced⟩ := h.linked hl hf
  rw [h.after]
  exact chainInv_prune hlinked hfenced

theorem Admits.spec (h : Admits codec options st a st' result d r) (hinv : ChainInv codec st) :
    st'.currentRecord = some r ∧ st'.generation = st.generation + 1 ∧ st'.lifecycleFence = r.lifecycleFence ∧
      ∀ k r', st'.byHash.get? k = some r' → r' = r ∨ st.byHash.get? k = some r' := by
  obtain ⟨rs, hl, hf⟩ := hinv
  obtain ⟨hlinked, -⟩ := h.linked hl hf
  obtain ⟨rs', -, hpruned⟩ := hlinked.prune options a.now
  rw [← h.after] at hpruned
  refine ⟨hpruned.current, hpruned.generation, hpruned.fence, fun k r' hget => ?_⟩
  have hget : (st.byHash.set r.hash r).get? k = some r' := hpruned.found k r' hget
  rw [get?_set] at hget
  split at hget
  · exact .inl (some.inj hget).symm
  · exact .inr hget

/-! ### Restoration -/

/-- The variables of the loop of `_restore`. -/
structure PendingInv (codec : Codec) (generation : ℕ) (p : Pending) : Prop where
  chain : p.records.IsChain (Follows codec)
  genuine : ∀ r ∈ p.records, ∃ d, Keeps codec r d
  previous : p.previous = p.records.getLast?
  fenced : Fenced p.lifecycleFence p.generation p.records
  generation_le : generation ≤ p.generation

theorem PendingInv.one {p p' : Pending} {entry : Bytes × Answers}
    (h : PendingInv codec generation p) (hone : restoreOne codec options p entry = .ok p') :
    PendingInv codec generation p' ∧ p'.records.length = p.records.length + 1 := by
  simp only [restoreOne, guards_eq_ok] at hone
  obtain ⟨d, hd, ⟨fence, gap⟩, hfence, rfl⟩ := hone
  have hkeeps := keeps_recordFor (decode_of_verified hd) (p.generation + 1) fence gap true
  set record := recordFor d entry.1 (codec.serviceDescriptorHash entry.1) (p.generation + 1) fence gap true
  have hstep : p.lifecycleFence ≤ fence ∧ Appends codec p.records record := by
    unfold restoreFence at hfence
    split at hfence
    · rename_i hnone
      have hnil : p.records.getLast? = none := h.previous.symm.trans hnone
      refine ⟨?_, ⟨d, hkeeps⟩, fun last hlast => ?_⟩
      · split at hfence
        · simp only [guards_eq_ok] at hfence
          obtain ⟨_, -, heq⟩ := hfence
          exact (Prod.mk.inj heq).1.le
        · exact (Prod.mk.inj (Except.ok.inj hfence)).1.le
      · rw [hnil] at hlast
        cases hlast
    · rename_i previous hprevious
      simp only [guards_eq_ok] at hfence
      obtain ⟨transition, htransition, heq⟩ := hfence
      refine ⟨?_, ⟨d, hkeeps⟩, fun last hlast => ?_⟩
      · rw [← (Prod.mk.inj heq).1]
        split <;> omega
      · obtain rfl : previous = last :=
          some.inj (hprevious.symm.trans (h.previous.trans hlast))
        obtain ⟨dp, hdp⟩ := h.genuine previous (mem_of_getLast? hlast)
        exact ⟨dp, d, hdp, hkeeps, (assertTransition_eq_ok hdp htransition).1⟩
  obtain ⟨hle, happends⟩ := hstep
  refine ⟨⟨isChain_append_singleton h.chain happends, fun r hr => ?_, ?_,
    ⟨fun r hr => ?_, fun r hr => ?_, fun r hr => ?_⟩, h.generation_le.trans (Nat.le_succ _)⟩, ?_⟩
  · rcases mem_append.mp hr with hr | hr
    · exact h.genuine r hr
    · rw [mem_singleton.mp hr]
      exact ⟨d, hkeeps⟩
  · rw [getLast?_concat]
  · rcases mem_append.mp hr with hr | hr
    · exact (h.fenced.fence_le r hr).trans hle
    · rw [mem_singleton.mp hr]
      exact le_rfl
  · rw [getLast?_concat] at hr
    rw [← some.inj hr]
    rfl
  · rcases mem_append.mp hr with hr | hr
    · exact (h.fenced.generation_le r hr).trans (Nat.le_succ _)
    · rw [mem_singleton.mp hr]
      exact le_rfl
  · simp

theorem PendingInv.loop {g : ℕ} {p : Pending} {entries : List (Bytes × Answers)}
    {res : Except Failure Pending} (h : PendingInv codec generation p)
    (hloop : restoreLoop codec options p entries = (g, res)) :
    generation ≤ g ∧ ∀ p', res = .ok p' → PendingInv codec generation p' ∧ g = p'.generation ∧
      p'.records.length = p.records.length + entries.length := by
  induction entries generalizing p with
  | nil =>
    cases hloop
    refine ⟨h.generation_le, fun p' hp' => ?_⟩
    cases hp'
    exact ⟨h, rfl, rfl⟩
  | cons entry entries ih =>
    unfold restoreLoop at hloop
    split at hloop
    · cases hloop
      exact ⟨h.generation_le, nofun⟩
    · rename_i p₁ hone
      obtain ⟨hinv, hlength⟩ := h.one hone
      obtain ⟨hle, hok⟩ := ih hinv hloop
      refine ⟨hle, fun p' hp' => ?_⟩
      obtain ⟨hinv', hg, hlength'⟩ := hok p' hp'
      refine ⟨hinv', hg, ?_⟩
      rw [hlength', hlength, length_cons]
      omega

theorem Linked.foldl_install (new : List Record) (h : Linked codec st rs)
    (hchain : (rs ++ new).IsChain (Follows codec)) (hgenuine : ∀ r ∈ new, ∃ d, Keeps codec r d) :
    Linked codec (new.foldl DescriptorState.install st) (rs ++ new) := by
  induction new generalizing st rs with
  | nil =>
    rw [append_nil]
    exact h
  | cons r new ih =>
    rw [append_cons] at hchain ⊢
    have happends : Appends codec rs r := by
      refine ⟨hgenuine r mem_cons_self, fun last hlast => ?_⟩
      exact (isChain_append.mp hchain.left_of_append).2.2 last hlast r rfl
    exact ih (h.install happends) hchain fun r' hr' => hgenuine r' (mem_cons_of_mem _ hr')

theorem foldl_install_fields (new : List Record) (st : DescriptorState) :
    (new.foldl DescriptorState.install st).generation = st.generation ∧
      (new.foldl DescriptorState.install st).lifecycleFence = st.lifecycleFence ∧
      (new.foldl DescriptorState.install st).fault = st.fault := by
  induction new generalizing st with
  | nil => exact ⟨rfl, rfl, rfl⟩
  | cons r new ih => exact ih (st.install r)

/-- What a restore may leave. -/
theorem restore_cases {q : Restoration} (hinv : ChainInv codec st) (h : restore codec options st q = (st', result)) :
    (∃ g error, st.generation ≤ g ∧ st' = { st with generation := g } ∧ result = .error error) ∨
    (st.currentRecord = none ∧ st.fault = none ∧ ChainInv codec st' ∧ st'.fault = none ∧ ∃ s, result = .ok s) := by
  have hself : st = { st with generation := st.generation } := rfl
  unfold restore at h
  split at h
  · cases h
    exact .inl ⟨_, _, le_rfl, hself, rfl⟩
  rename_i hcount
  split at h
  · cases h
    exact .inl ⟨_, _, le_rfl, hself, rfl⟩
  split at h
  · cases h
    exact .inl ⟨_, _, le_rfl, hself, rfl⟩
  rename_i hnew
  have hcurrent : st.currentRecord = none := by
    cases hc : st.currentRecord with
    | none => rfl
    | some _ => exact absurd (.inl (by rw [hc]; rfl)) hnew
  have hfault : st.fault = none := by
    cases hc : st.fault with
    | none => rfl
    | some _ => exact absurd (.inr (by rw [hc]; rfl)) hnew
  obtain ⟨g, res, hloop⟩ : ∃ g res, restoreLoop codec options ⟨[], none, 0, false, st.generation⟩
      q.descriptorChainBytes = (g, res) := ⟨_, _, rfl⟩
  have hstart : PendingInv codec st.generation ⟨[], none, 0, false, st.generation⟩ :=
    ⟨isChain_nil, nofun, rfl, ⟨nofun, nofun, nofun⟩, le_rfl⟩
  obtain ⟨hle, hok⟩ := hstart.loop hloop
  rw [hloop] at h
  simp only at h
  split at h
  · cases h
    exact .inl ⟨_, _, hle, rfl, rfl⟩
  rename_i p
  obtain ⟨hp, hg, hlength⟩ := hok p rfl
  split at h
  · cases h
    exact .inl ⟨_, _, hle, rfl, rfl⟩
  obtain ⟨rs, hl, -⟩ := hinv
  -- nothing was retained before
  obtain rfl : rs = [] := getLast?_eq_none_iff.mp (hl.current.symm.trans hcurrent)
  have hl' : Linked codec { st with generation := g } [] :=
    ⟨hl.retained, hl.current, hl.chain, hl.genuine, hl.indexed⟩
  have hinstalled := hl'.foldl_install p.records hp.chain hp.genuine
  obtain ⟨hfields, -, hfault'⟩ := foldl_install_fields p.records { st with generation := g }
  have hlinked : Linked codec { p.records.foldl DescriptorState.install
      { st with generation := g } with lifecycleFence := p.lifecycleFence } p.records :=
    ⟨hinstalled.retained, hinstalled.current, hinstalled.chain, hinstalled.genuine, hinstalled.indexed⟩
  have hfenced : Fenced p.lifecycleFence (p.records.foldl DescriptorState.install
      { st with generation := g }).generation p.records := by
    rw [hfields]
    exact hg ▸ hp.fenced
  obtain ⟨rs', -, hpruned⟩ := hlinked.prune options q.now
  cases h
  refine .inr ⟨hcurrent, hfault, chainInv_prune hlinked hfenced, ?_, ?_⟩
  · exact hpruned.fault.trans (hfault'.trans hfault)
  · have hlast : p.records ≠ [] := by
      intro hnil
      rw [hnil] at hlength
      simp only [length_nil, Nat.zero_add] at hlength
      exact hcount (.inl hlength.symm)
    have hcur := hpruned.current.trans hlinked.current
    rw [getLast?_eq_some_getLast hlast] at hcur
    rw [hcur]
    obtain ⟨d, hd⟩ := hp.genuine _ (getLast_mem hlast)
    exact exists_snapshotFor hd

end Chain

end HiveRelay.Service
