import HiveRelay.Wal.WriterInvariant

/-!
# Crash safety and pruning

Two results about whole runs of the writer.

Without pruning, whatever a crash does to the unsynced bytes, the next open replays every frame that
was acknowledged, in order, followed by a prefix of the group that was in flight. Members that were
ejected leave no trace.

With pruning, the next open with the checkpoint of a prune replays what lies past the checkpoint and
continues at the last durable frame, provided one complete frame is left. The source means it to hold
always: it says that a retained range beginning right after the anchor is pinned by the anchor. But a
prune that reaches the head while the live segment is empty, or holds only a torn first frame, leaves
nothing whose sequence number could be read, and recovery does not take the anchor's for it: the open
fails, or it succeeds at sequence 0.

## Main definitions

* `Unpruned` — the runs without a prune
* `ReopensAt` — an open that continues the log

## Main results

* `recover_after_crash` — what an open replays
* `segments_tile` — where the segments are
* `reopens_iff_hasCompleteFrame` — when a pruned store opens
-/

namespace HiveRelay.Wal

open List
open Bytes

section Crash

variable {H : Blake2b256} {B : StoreBindings} {walSegmentMaxBytes : ℕ}

/-! ### Runs without a prune -/

def Move.IsPrune : Move → Prop
  | .prune _ _ => True
  | .unlink => True
  | .pruned => True
  | .throw => True
  | _ => False

/-- The state of a store nothing was ever pruned from, after the given members were admitted. -/
structure Unpruned (H : Blake2b256) (B : StoreBindings) (members : List GroupMember) (s : Machine) :
    Prop where
  inv : ∃ L, Inv H B s L ∧ L.pruned = []
  acked : s.acked.Sublist (s.settled.map (·.decoded H))
  values : ((s.settled ++ s.phase.inFlight).map WalFrameValue.appendValue).Sublist (admitted B members)

theorem admitted_append (a b : List GroupMember) : admitted B (a ++ b) = admitted B a ++ admitted B b := by
  simp [admitted]

variable {s : Machine}

theorem Unpruned.step {members : List GroupMember} {s' : Machine} {m : Move}
    (h : Unpruned H B members s) (hm : ¬ m.IsPrune)
    (hstep : step H B walSegmentMaxBytes s m = some s') :
    Unpruned H B (members ++ m.members) s' := by
  obtain ⟨L, hinv, hpruned⟩ := h.inv
  by_cases happend : m.IsAppend
  · obtain ⟨L', hinv', hpruned', hhistory⟩ := hinv.step_append happend hstep
    refine ⟨⟨L', hinv', hpruned'.trans hpruned⟩, ?_, ?_⟩
    · rcases hhistory.settled with ⟨hsettled, hacked⟩ | ⟨v, hsettled, hacked⟩
      · rw [hsettled, hacked]
        exact h.acked
      · rw [hsettled, hacked, map_append]
        exact h.acked.append (List.Sublist.refl _)
    · obtain ⟨frames, hframes, hsublist⟩ := hhistory.history
      rw [hframes, map_append, admitted_append]
      exact h.values.append hsublist
  · cases m with
    | reopen c anchor replayCoveredFrames =>
      obtain ⟨hinv', hsettled, hacked, hidle, -⟩ := hinv.reopen hstep fun _ => .inr (by rw [hpruned]; rfl)
      have hinitial := (survivors_prefix_inFlight (H := H) s c).sublist
      refine ⟨⟨_, hinv', hpruned⟩, ?_, ?_⟩
      · rw [hacked, hsettled, map_append]
        exact h.acked.trans (sublist_append_left _ _)
      · rw [hsettled, hidle]
        simp only [Phase.inFlight, append_nil, Move.members]
        exact ((hinitial.append_left s.settled).map _).trans h.values
    | prune a r | unlink | pruned | throw => exact absurd trivial hm
    | _ => exact absurd trivial happend

variable {moves : List Move}

theorem Unpruned.run {members : List GroupMember} {s' : Machine}
    (h : Unpruned H B members s) (hmoves : ∀ m ∈ moves, ¬ m.IsPrune)
    (hrun : run (Wal.step H B walSegmentMaxBytes) s moves = some s') :
    Unpruned H B (members ++ moves.flatMap Move.members) s' := by
  induction moves generalizing s members with
  | nil =>
    cases hrun
    simpa using h
  | cons m moves ih =>
    obtain ⟨s₁, hstep, hrest⟩ := run_cons.mp hrun
    have hnext := ih (h.step (hmoves m mem_cons_self) hstep)
      (fun m hm => hmoves m (mem_cons_of_mem _ hm)) hrest
    rwa [append_assoc] at hnext

theorem unpruned_fresh : Unpruned H B [] fresh :=
  ⟨⟨_, inv_fresh, rfl⟩, List.Sublist.refl _, List.Sublist.refl _⟩

theorem acked_eq_settled (hmoves : ∀ m ∈ moves, m.IsAppend)
    (hrun : run (step H B walSegmentMaxBytes) fresh moves = some s) :
    s.acked = s.settled.map (·.decoded H) := by
  refine (run_invariant (fun _ m => m.IsAppend)
    (fun s => (∃ L, Inv H B s L) ∧ s.acked = s.settled.map (·.decoded H)) ?_
    ⟨⟨_, inv_fresh⟩, rfl⟩ (runMeets_of_forall hmoves) hrun).2
  rintro s m s' ⟨⟨L, hinv⟩, hacked⟩ hm hstep
  obtain ⟨L', hinv', -, hhistory⟩ := hinv.step_append hm hstep
  refine ⟨⟨L', hinv'⟩, ?_⟩
  rcases hhistory.settled with ⟨hsettled, hacked'⟩ | ⟨v, hsettled, hacked'⟩
  · rw [hsettled, hacked', hacked]
  · rw [hsettled, hacked', hacked, map_append]
    rfl

theorem Inv.recover_none {L : Layout} {c : Crash} (h : Inv H B s L) (hpruned : L.pruned = []) (hc : c.Lists s.disk) :
    ∃ tail t, recover H B (s.disk.after c) none false =
        .ok (openedWal H 0 L.runs (L.live ++ survivors H s c) tail t) ∧
      t.applied = (s.settled ++ survivors H s c).map (·.decoded H) ∧
      IsChain H B 1 zero32 (s.settled ++ survivors H s c) := by
  obtain ⟨rest, tail, hretains⟩ := h.retains hc
  have hframes : L.runs.flatten ++ (L.live ++ survivors H s c) = s.settled ++ survivors H s c := by
    rw [h.settled, Layout.frames, hpruned, nil_append, append_assoc]
  obtain ⟨t, hfold, happlied⟩ := foldlM_recoverFrame_none false
    ((s.settled ++ survivors H s c).map (·.decoded H)) (recoveryStart none 1)
  rw [hpruned] at hretains
  have hchain := hretains.chain_whole
  rw [hframes] at hchain
  rw [← hframes] at hfold
  have hrange : checkFirstRetained 1 none = .ok () := rfl
  exact ⟨tail, t, hretains.recover (.inr rfl) ⟨rfl, .inr rfl⟩ hrange hfold (.inl rfl), happlied, hchain⟩

/-- **Crash safety.** After any run of appends and reopens and any crash, an open without an anchor
succeeds. It replays the settled frames, then a prefix of the group in flight; every acknowledged
frame is a settled one, and in one lifetime these are all there are. The sequence numbers are
`1, …, n`, and the frames were written, in admission order, for members that were not ejected. -/
theorem recover_after_crash {moves : List Move} {s : Machine} {c : Crash} (hmoves : ∀ m ∈ moves, ¬ m.IsPrune)
    (hrun : run (step H B walSegmentMaxBytes) fresh moves = some s) (hc : c.Lists s.disk) :
    ∃ o, recover H B (s.disk.after c) none false = .ok o ∧
      o.applied = (s.settled ++ survivors H s c).map (·.decoded H) ∧
      survivors H s c <+: s.phase.inFlight ∧
      s.acked.Sublist (s.settled.map (·.decoded H)) ∧
      ((∀ m ∈ moves, m.IsAppend) → s.acked = s.settled.map (·.decoded H)) ∧
      o.applied.map WalFrame.sequence = List.range' 1 o.applied.length ∧
      (o.applied.map WalFrame.appendValue).Sublist (admitted B (moves.flatMap Move.members)) := by
  obtain ⟨⟨L, hinv, hpruned⟩, hacked, hvalues⟩ := unpruned_fresh.run hmoves hrun
  obtain ⟨tail, t, hopen, hmap, hchain⟩ := hinv.recover_none hpruned hc
  refine ⟨_, hopen, hmap, survivors_prefix_inFlight s c, hacked, fun h => acked_eq_settled h hrun, ?_, ?_⟩
  · change t.applied.map _ = List.range' 1 t.applied.length
    rw [hmap, List.map_map, length_map]
    exact hchain.map_sequence
  · change (t.applied.map _).Sublist _
    rw [hmap, List.map_map]
    have hinitial := ((survivors_prefix_inFlight (H := H) s c).sublist.append_left s.settled).map
      WalFrameValue.appendValue
    exact hinitial.trans hvalues

/-- A run with an ejected member and a write that a crash tears. -/
def tornMoves : List Move :=
  [.commit [⟨(sampleFrame 1 zero32).appendValue, true⟩, ⟨(sampleFrame 1 zero32).appendValue, false⟩],
    .write, .datasync, .complete true, .commit [⟨(sampleFrame 1 zero32).appendValue, true⟩], .write]

/-- Of its two frames in flight the torn one is cut off. -/
theorem recover_after_tornMoves : ∃ s o, run (step polynomialDigest sampleBindings 65536) fresh tornMoves = some s ∧
      recover polynomialDigest sampleBindings (s.disk.after ⟨fun _ => 100, []⟩) none false = .ok o ∧
      o.applied = (s.settled ++ survivors polynomialDigest s ⟨fun _ => 100, []⟩).map
        (·.decoded polynomialDigest) := by
  have hfiles : (run (step polynomialDigest sampleBindings 65536) fresh tornMoves).map
      (fun s => s.disk.sealedFiles) = some [] := by decide +kernel
  obtain ⟨s, hrun, hsealed⟩ := Option.map_eq_some_iff.mp hfiles
  have hc : Crash.Lists ⟨fun _ => 100, []⟩ s.disk := by
    rw [Crash.Lists, Disk.crashEntries, hsealed]
    exact List.Perm.refl []
  obtain ⟨o, hopen, happlied, -⟩ := recover_after_crash (by simp [tornMoves, Move.IsPrune]) hrun hc
  exact ⟨s, o, hrun, hopen, happlied⟩

/-! ### The segments -/

theorem names_sealedSegments (runs : List (List WalFrameValue)) (base : ℕ) :
    (sealedSegments H base runs).map (fun s => s.file.name) = (sealedSegments H base runs).map fun s =>
      walSealedSegmentName s.firstSequence s.lastSequence := by
  induction runs generalizing base with
  | nil => simp only [sealedSegments, map_nil]
  | cons frames runs ih => simp only [sealedSegments, map_cons, ih, storeFile]

/-- **The segments tile the log.** After every run of appends, prunes, crashes and reopens, each of which
finds a complete frame, a store at rest knows ranges that join from some number on up to the first of the
live segment, and its head is not before that; the sealed files on the disk are those of a last part of the
ranges, since prunes that threw may have deleted the others; and the live file is synced and ends at the
offset of the store. -/
theorem segments_tile (hok : RunMeets (step H B walSegmentMaxBytes) (Survives B) fresh moves)
    (hrun : run (step H B walSegmentMaxBytes) fresh moves = some s) (hidle : s.phase = .idle)
    (hhealthy : s.store.poisoned = false) :
    (∃ first, Tiles first s.store.sealedWalSegments s.store.liveSegmentFirstSequence) ∧
      s.store.liveSegmentFirstSequence ≤ s.store.walSequence + 1 ∧
      (∃ gone kept, s.store.sealedWalSegments = gone ++ kept ∧ s.disk.sealedFiles.map NamedFile.name =
        kept.map fun range => walSealedSegmentName range.firstSequence range.lastSequence) ∧
      ∃ content, s.disk.live = some ⟨content, []⟩ ∧ content.length = s.store.walOffset := by
  obtain ⟨L, h⟩ := run_invariant (Survives B) (fun s => ∃ L, Inv H B s L)
    (fun _ _ _ => Inv.step) ⟨_, inv_fresh⟩ hok hrun
  have hsegments := h.segments hhealthy
  have hlive := h.liveFile
  rw [hidle] at hsegments hlive
  obtain ⟨hoffset, hfirst, htiles, stale, hsplit, -⟩ := hsegments
  rw [hfirst, (h.head hhealthy).1, h.settled, h.sealedFiles]
  refine ⟨htiles, ?_, ⟨stale, L.ranges H, hsplit, ?_⟩, _, hlive, hoffset.symm⟩
  · simp only [Layout.frames, Layout.sealedLength, length_append]
    omega
  · simp only [Layout.sealedFiles, Layout.ranges, List.map_map]
    exact names_sealedSegments _ _

/-! ### Runs with prunes -/

/-- The store opened at the checkpoint `anchor` of a log whose durable frames are `frames`: it
replayed the frames past the checkpoint, its head is the last durable frame, not behind the
checkpoint, and the next group continues the chain there. -/
structure ReopensAt (H : Blake2b256) (B : StoreBindings) (anchor : WalAnchor)
    (frames : List WalFrameValue) (o : OpenedWal) : Prop where
  applied : o.applied = (frames.map (·.decoded H)).filter fun f => anchor.sequence < f.sequence
  walSequence : o.walSequence = frames.length
  walHash : o.walHash = chainHash H zero32 frames
  notBehind : anchor.sequence ≤ o.walSequence
  pinned : o.walSequence = anchor.sequence → o.walHash = anchor.hash
  next : ∀ group, IsChain H B 1 zero32 (frames ++ encodeGroup H B o.walSequence o.walHash group)

theorem Anchored.append {anchor : WalAnchor} {settled : List WalFrameValue} {base : ℕ}
    (h : Anchored H anchor settled base) (more : List WalFrameValue) :
    Anchored H anchor (settled ++ more) base where
  sequence_le := h.sequence_le.trans (by simp)
  hash_eq := by rw [take_append_of_le_length h.sequence_le, h.hash_eq]
  base_le := h.base_le

theorem anchored_of_run {anchor : WalAnchor} {s' : Machine} {L : Layout}
    (hinv : Inv H B s L) (hanchored : Anchored H anchor s.settled L.pruned.length)
    (hmoves : ∀ m ∈ moves, m.IsAppend)
    (hrun : run (step H B walSegmentMaxBytes) s moves = some s') :
    ∃ L', Inv H B s' L' ∧ Anchored H anchor s'.settled L'.pruned.length := by
  refine run_invariant (fun _ m => m.IsAppend)
    (fun s => ∃ L, Inv H B s L ∧ Anchored H anchor s.settled L.pruned.length) ?_
    ⟨L, hinv, hanchored⟩ (runMeets_of_forall hmoves) hrun
  rintro s m s' ⟨L, hinv, hanchored⟩ hm hstep
  obtain ⟨L', hinv', hpruned, hhistory⟩ := hinv.step_append hm hstep
  refine ⟨L', hinv', ?_⟩
  rw [hpruned]
  rcases hhistory.settled with ⟨hsettled, -⟩ | ⟨v, hsettled, -⟩
  · rw [hsettled]
    exact hanchored
  · rw [hsettled]
    exact hanchored.append [v]

section Reopen

variable {anchor : WalAnchor} {s : Machine} {L : Layout} {c : Crash} {rest : List WalFrameValue}
  {tail : Bytes}

theorem Inv.durable_eq (hinv : Inv H B s L) (c : Crash) :
    s.settled ++ survivors H s c = L.pruned ++ (L.runs.flatten ++ (L.live ++ survivors H s c)) := by
  rw [hinv.settled, Layout.frames, append_assoc, append_assoc]

theorem Inv.chain_durable (hinv : Inv H B s L) (c : Crash) : IsChain H B 1 zero32 (s.settled ++ survivors H s c) := by
  obtain ⟨more, hmore⟩ := survivors_prefix_inFlight (H := H) s c
  have hchain := hinv.chain
  rw [← hmore, ← append_assoc] at hchain
  exact (isChain_append.mp hchain).1

theorem Inv.pinned (hinv : Inv H B s L) (hanchored : Anchored H anchor s.settled L.pruned.length)
    {v : WalFrameValue} (hv : v ∈ s.settled ++ survivors H s c)
    (hsequence : v.sequence = anchor.sequence) : v.walHash H = anchor.hash := by
  have hchain : IsChain H B (0 + 1) zero32 (s.settled ++ survivors H s c) := hinv.chain_durable c
  have htake := (hchain.take_sequence hv).2.2
  rw [Nat.sub_zero, hsequence, (hanchored.append _).hash_eq] at htake
  exact htake.symm

/-- Recovery starts where the checkpoint says: right behind it with its hash, or before it. -/
theorem expects_start (hinv : Inv H B s L) (hanchored : Anchored H anchor s.settled L.pruned.length) :
    Expects (recoveryStart (some anchor) (L.pruned.length + 1)).chain (L.pruned.length + 1)
      (chainHash H zero32 L.pruned) := by
  refine ⟨rfl, ?_⟩
  by_cases hboundary : L.pruned.length = anchor.sequence
  · right
    have htake : s.settled.take anchor.sequence = L.pruned := by
      rw [hinv.settled, Layout.frames, ← hboundary, take_left]
    have hhash := hanchored.hash_eq
    rw [htake] at hhash
    simp [recoveryStart, hboundary, hhash]
  · by_cases hzero : L.pruned = []
    · right
      rw [hzero]
      have hpositive : anchor.sequence ≠ 0 := anchor.sequence_range.1.ne'
      simp [recoveryStart, hpositive]
    · left
      have hpositive : L.pruned.length ≠ 0 := fun h => hzero (length_eq_zero_iff.mp h)
      simp [recoveryStart, hboundary, hpositive]

theorem Inv.anchor_reached (hinv : Inv H B s L)
    (hanchored : Anchored H anchor s.settled L.pruned.length) (c : Crash) :
    (recoveryStart (some anchor) (L.pruned.length + 1)).anchorVerified = true ∨
      ∃ v ∈ L.runs.flatten ++ (L.live ++ survivors H s c), v.sequence = anchor.sequence := by
  by_cases hboundary : L.pruned.length = anchor.sequence
  · left
    simp [recoveryStart, hboundary]
  · right
    have hchain := hinv.chain_durable c
    rw [hinv.durable_eq c, isChain_append] at hchain
    have hle := hanchored.sequence_le
    have hbase := hanchored.base_le
    rw [hinv.settled, Layout.frames, length_append] at hle
    have hmem : anchor.sequence ∈ (L.runs.flatten ++ (L.live ++ survivors H s c)).map
        WalFrameValue.sequence := by
      rw [hchain.2.map_sequence, mem_range'_1]
      simp only [length_append] at hle ⊢
      omega
    exact List.mem_map.mp hmem

/-- An open at an anchor that is retained. -/
theorem reopensAt_of_retained (hinv : Inv H B s L) (hanchored : Anchored H anchor s.settled L.pruned.length)
    (hretains : Retains H B L.pruned.length (chainHash H zero32 L.pruned) L.runs
      (L.live ++ survivors H s c) rest tail (s.disk.after c))
    (hne : L.runs.flatten ++ (L.live ++ survivors H s c) ≠ []) :
    ∃ o, recover H B (s.disk.after c) (some anchor) false = .ok o ∧
      ReopensAt H B anchor (s.settled ++ survivors H s c) o := by
  have hdurable := hinv.durable_eq c
  have hchain := hinv.chain_durable c
  have hretained : ∀ v ∈ L.runs.flatten ++ (L.live ++ survivors H s c), v ∈ s.settled ++ survivors H s c := by
    intro v hv
    rw [hdurable]
    exact mem_append_right _ hv
  obtain ⟨t, hfold, happlied, hverified⟩ := foldlM_recoverFrame_some
    ((L.runs.flatten ++ (L.live ++ survivors H s c)).map (·.decoded H))
    (recoveryStart (some anchor) (L.pruned.length + 1)) (by
      intro frame hframe hsequence
      obtain ⟨v, hv, rfl⟩ := List.mem_map.mp hframe
      exact hinv.pinned hanchored (hretained v hv) hsequence)
  have hrange : checkFirstRetained (L.pruned.length + 1) (some anchor) = .ok () :=
    require_of (Nat.succ_le_succ hanchored.base_le)
  have hreached : t.anchorVerified = true := by
    rw [hverified]
    refine (hinv.anchor_reached hanchored c).imp_right ?_
    rintro ⟨v, hv, hsequence⟩
    exact ⟨_, List.mem_map_of_mem hv, hsequence⟩
  have hopen := hretains.recover (.inl hne) (expects_start hinv hanchored) hrange hfold (.inr hreached)
  obtain ⟨hsequence, hhash⟩ := head_of_foldlM hretains.chain_whole (.inl hne) hfold
  have hsequence' : t.walSequence = (s.settled ++ survivors H s c).length := by
    exact hsequence.trans ((congrArg List.length hdurable).trans length_append).symm
  have hhash' : t.walHash = chainHash H zero32 (s.settled ++ survivors H s c) := by
    exact hhash.trans ((congrArg _ hdurable).trans (chainHash_append _ _ _)).symm
  refine ⟨_, hopen, ?_, hsequence', hhash', ?_, fun hat => ?_, fun group => ?_⟩
  · -- the pruned frames are all covered by the checkpoint
    change t.applied = _
    have hcovered : (L.pruned.map (·.decoded H)).filter (fun f => anchor.sequence < f.sequence) = [] := by
      rw [filter_eq_nil_iff]
      intro frame hframe
      obtain ⟨v, hv, rfl⟩ := List.mem_map.mp hframe
      rw [hdurable, isChain_append] at hchain
      have hpruned : IsChain H B (0 + 1) zero32 L.pruned := hchain.1
      have hle := (hpruned.take_sequence hv).2.1
      have hbase := hanchored.base_le
      rw [decide_eq_true_eq]
      change ¬ anchor.sequence < v.sequence
      omega
    have hskip : ∀ frames : List WalFrameValue,
        ((L.pruned ++ frames).map (·.decoded H)).filter (fun f => anchor.sequence < f.sequence) =
          (frames.map (·.decoded H)).filter (fun f => anchor.sequence < f.sequence) := by
      intro frames
      rw [map_append, filter_append, hcovered, nil_append]
    rw [happlied, hdurable, hskip]
    rfl
  · change anchor.sequence ≤ t.walSequence
    rw [hsequence', length_append]
    exact hanchored.sequence_le.trans (Nat.le_add_right _ _)
  · change t.walHash = _
    change t.walSequence = _ at hat
    have hall := (hanchored.append (survivors H s c)).hash_eq
    rw [← hat, hsequence', take_length] at hall
    rw [hhash', hall]
  · change IsChain H B 1 zero32 (_ ++ encodeGroup H B t.walSequence t.walHash group)
    rw [isChain_append, hsequence', hhash', Nat.add_comm 1]
    exact ⟨hchain, isChain_encodeGroup _ _ _⟩

end Reopen

/-- **Exactly when a pruned store can be reopened at its checkpoint.** In every run whose reopens
found a complete frame (or a log that never had one), after every prune that succeeds, any appends
and any crash, opening at the prune's checkpoint replays what lies past it and continues at the last
durable frame if and only if the crash left a complete frame. -/
theorem reopens_iff_hasCompleteFrame {anchor : WalAnchor} {retainFromSequence : ℕ}
    {gone : List SegmentRange} {moves later : List Move} {s s₁ s₂ : Machine} {c : Crash}
    (hrun : run (step H B walSegmentMaxBytes) fresh moves = some s)
    (hmeets : RunMeets (step H B walSegmentMaxBytes) (Survives B) fresh moves)
    (hphase : s.phase = .pruning anchor retainFromSequence [] gone)
    (hprune : step H B walSegmentMaxBytes s .pruned = some s₁)
    (hlater : ∀ m ∈ later, m.IsAppend)
    (hrun' : run (step H B walSegmentMaxBytes) s₁ later = some s₂) (hc : c.Lists s₂.disk) :
    (∃ o, recover H B (s₂.disk.after c) (some anchor) false = .ok o ∧
        ReopensAt H B anchor (s₂.settled ++ survivors H s₂ c) o) ↔
      HasCompleteFrame B (s₂.disk.after c) := by
  obtain ⟨L, hinv⟩ := run_invariant (Survives B) (fun s => ∃ L, Inv H B s L)
    (fun s m s' hs hok hstep => Inv.step hs hok hstep) ⟨_, inv_fresh⟩ hmeets hrun
  obtain ⟨a, r, gone', hphase', hinv₁, -, -, -, -, hanchored₁⟩ := hinv.pruneFinish hprune
  cases hphase.symm.trans hphase'
  obtain ⟨L', hinv₂, hanchored⟩ := anchored_of_run hinv₁ hanchored₁ hlater hrun'
  obtain ⟨rest, tail, hretains⟩ := hinv₂.retains hc
  rw [hretains.hasCompleteFrame_iff]
  refine ⟨?_, reopensAt_of_retained hinv₂ hanchored hretains⟩
  rintro ⟨o, hopen, hreopens⟩ hnil
  have hpositive := anchor.sequence_range.1
  have hnotBehind := hreopens.notBehind
  -- nothing is retained, so no frame was visited and the head is zero
  rw [append_eq_nil_iff] at hnil
  have hruns : L'.runs = [] := by
    cases hruns : L'.runs with
    | nil => rfl
    | cons frames runs =>
      have hframes := hinv₂.runs_nonempty frames (hruns ▸ mem_cons_self)
      rw [hruns, flatten_cons, append_eq_nil_iff] at hnil
      exact absurd hnil.1.1 hframes
  rw [hruns, hnil.2] at hretains
  rw [hretains.walSequence_of_nil hopen] at hnotBehind
  omega

end Crash

/-! ### A log pruned to its head

A concrete run of a store with 64 KiB segments: one large append, a second that has to seal the
segment of the first and is lost to a crash before it writes a byte, and a prune at the head. -/

variable {sequence : ℕ} {previous : Bytes}

theorem run_lone_append {H : Blake2b256} {B : StoreBindings} (walSegmentMaxBytes : ℕ) {s : Machine}
    {f : DiskFile} {member : GroupMember} {v : WalFrameValue}
    (hidle : s.phase = .idle) (hclean : s.store.poisoned = false) (hlive : s.disk.live = some f)
    (hsequence : s.store.walSequence = sequence) (hprevious : s.store.walHash = previous)
    (hframes : encodeGroup H B sequence previous [member] = [v])
    (hrolls : ¬ Rolls H walSegmentMaxBytes s.store [v])
    (hdecode : decodeFrame H (frameBytes H v) v.sequence previous B.durabilityContinuityHash
      B.maximumWalPayloadBytes = .ok (v.decoded H)) :
    run (step H B walSegmentMaxBytes) s [.commit [member], .write, .datasync, .complete true] =
      some {
        store := { s.store with
          walOffset := s.store.walOffset + (frameBytes H v).length
          walSequence := v.sequence
          walHash := v.walHash H }
        disk := { s.disk with live := some ⟨f.synced ++ (f.unsynced ++ frameBytes H v), []⟩ }
        phase := .idle
        settled := s.settled ++ [v]
        acked := s.acked ++ [v.decoded H] } := by
  subst hsequence hprevious
  simp [run, step, commitWalGroup, hidle, hclean, hframes, hrolls, writeFrame, syncWal,
    completeFrame, hlive, hdecode, Phase.afterFrame]
  rfl

section PrunedToHead

variable {value : AppendValue}

/-- The frame of a value, the first of its log. -/
def firstFrame (value : AppendValue) : WalFrameValue := sampleBindings.frameValue 1 zero32 value

/-- The frame behind it, for the same value. -/
def secondFrame (value : AppendValue) : WalFrameValue :=
  sampleBindings.frameValue 2 ((firstFrame value).walHash polynomialDigest) value

theorem isZero_walHash (v : WalFrameValue) : isZero (v.walHash polynomialDigest) = false := by
  simp [WalFrameValue.walHash, frameHash, polynomialDigest, isZero]

/-- The checkpoint at the first frame. -/
def firstAnchor (value : AppendValue) : WalAnchor where
  sequence := 1
  hash := (firstFrame value).walHash polynomialDigest
  sequence_range := one_inU64
  hash_nonzero := ⟨length_walHash _ _, isZero_walHash _⟩

theorem encodable_of_valid (h : value.Valid sampleBindings)
    (hsequence : 0 < sequence ∧ sequence ≤ maxU64) (hprevious : previous.length = 32) :
    (sampleBindings.frameValue sequence previous value).Encodable sampleBindings.maximumWalPayloadBytes where
  type := h.1
  sequence := hsequence
  transactionId := h.2.1
  virtualBucket := h.2.2.1
  mapGeneration := sampleBindings.mapGeneration_range.2
  ownerFenceTokenHash := sampleBindings.ownerFenceTokenHash_nonzero
  durabilityContinuityHash := sampleBindings.durabilityContinuityHash_nonzero
  previousWalHash := hprevious
  payload := h.2.2.2

theorem encodeGroup_singleton (h : value.Valid sampleBindings)
    (hsequence : sequence + 1 ≤ maxU64) (hprevious : previous.length = 32) :
    encodeGroup polynomialDigest sampleBindings sequence previous [⟨value, true⟩] =
      [sampleBindings.frameValue (sequence + 1) previous value] := by
  have hencode := encodeWalFrame_eq_ok.mpr ⟨encodable_of_valid h ⟨Nat.succ_pos sequence, hsequence⟩ hprevious,
      (rfl : frameBytes polynomialDigest _ = _)⟩
  simp [encodeGroup, hencode]

theorem decodeFrame_frameValue (h : value.Valid sampleBindings) (sequence : ℕ) (previous : Bytes)
    (hsequence : 0 < sequence ∧ sequence ≤ maxU64) (hprevious : previous.length = 32) :
    decodeFrame polynomialDigest
      (frameBytes polynomialDigest (sampleBindings.frameValue sequence previous value)) sequence
      previous sampleBindings.durabilityContinuityHash sampleBindings.maximumWalPayloadBytes =
        .ok ((sampleBindings.frameValue sequence previous value).decoded polynomialDigest) :=
  decodeFrame_frameBytes (encodable_of_valid h hsequence hprevious) sampleBindings.frame_fits
    sampleBindings.mapGeneration_range.1.ne'

def firstBytes (value : AppendValue) : Bytes := frameBytes polynomialDigest (firstFrame value)

/-- The store once the first frame is acknowledged. -/
def afterFirst (value : AppendValue) : Machine where
  store := ⟨1, (firstFrame value).walHash polynomialDigest, (firstBytes value).length, 1, [], false⟩
  disk := ⟨[], some ⟨firstBytes value, []⟩⟩
  phase := .idle
  settled := [firstFrame value]
  acked := [(firstFrame value).decoded polynomialDigest]

/-- The store when the second append has sealed the first segment and written nothing. -/
def afterSeal (value : AppendValue) : Machine where
  store := ⟨1, (firstFrame value).walHash polynomialDigest, 0, 2, [⟨1, 1⟩], false⟩
  disk := ⟨[⟨walSealedSegmentName 1 1, ⟨firstBytes value, []⟩⟩], some ⟨[], []⟩⟩
  phase := .writing [] [secondFrame value]
  settled := [firstFrame value]
  acked := [(firstFrame value).decoded polynomialDigest]

theorem run_first (h : value.Valid sampleBindings) : run (step polynomialDigest sampleBindings 65536) fresh
      [.commit [⟨value, true⟩], .write, .datasync, .complete true] = some (afterFirst value) := by
  have hframes : encodeGroup polynomialDigest sampleBindings 0 zero32 [⟨value, true⟩] =
      [firstFrame value] := encodeGroup_singleton h (by decide) rfl
  have hdecode := decodeFrame_frameValue h 1 zero32 (by decide) rfl
  refine (run_lone_append 65536 (s := fresh) (f := ⟨[], []⟩) rfl rfl rfl rfl rfl hframes
    (fun hrolls => absurd hrolls.1 (lt_irrefl 0)) hdecode).trans ?_
  simp [fresh, afterFirst, firstBytes, firstFrame, StoreBindings.frameValue]

theorem length_firstBytes (h : value.Valid sampleBindings) : (firstBytes value).length = 224 + value.payload.length :=
  (encodable_of_valid h (by decide) rfl).length_frameBytes

theorem run_seal (h : value.Valid sampleBindings) (hlarge : 65536 < 2 * (224 + value.payload.length)) :
    run (step polynomialDigest sampleBindings 65536) (afterFirst value)
      [.commit [⟨value, true⟩], .rename, .create] = some (afterSeal value) := by
  have hfirst := length_firstBytes h
  have hsecond : (frameBytes polynomialDigest (secondFrame value)).length = 224 + value.payload.length :=
    (encodable_of_valid h (by decide) (length_walHash _ _)).length_frameBytes
  have hframes : encodeGroup polynomialDigest sampleBindings 1
      ((firstFrame value).walHash polynomialDigest) [⟨value, true⟩] = [secondFrame value] :=
    encodeGroup_singleton h (by decide) (length_walHash _ _)
  have hrolls : Rolls polynomialDigest 65536 (afterFirst value).store [secondFrame value] := by
    simp only [Rolls, afterFirst, chainBytes_cons, chainBytes_nil, append_nil, hfirst, hsecond]
    omega
  have hcommit : commitWalGroup polynomialDigest sampleBindings 65536 (afterFirst value)
      [⟨value, true⟩] = some { afterFirst value with phase := .sealing [secondFrame value] } := by
    rw [commitWalGroup, if_pos ⟨rfl, rfl⟩]
    simp only [show (afterFirst value).store.walSequence = 1 from rfl,
      show (afterFirst value).store.walHash = (firstFrame value).walHash polynomialDigest from rfl,
      hframes]
    rw [if_neg (cons_ne_nil _ _), if_pos hrolls]
  simp only [run, step, hcommit, Option.bind_some]
  simp [sealRename, sealCreate, afterFirst, afterSeal]

/-- The crash after the seal: the next open lists the sealed segment. -/
def sealCrash (value : AppendValue) : Crash where
  kept _ := 0
  listing := [storeFile (walSealedSegmentName 1 1) (firstBytes value)]

theorem isSegmentEntry_first (value : AppendValue) :
    IsSegmentEntry (storeFile (walSealedSegmentName 1 1) (firstBytes value)) := by
  change (walSealedSegmentName 1 1).toList.take 4 = segmentNameStart
  decide

theorem sealCrash_lists (value : AppendValue) : (sealCrash value).Lists (afterSeal value).disk := by
  have hentries : (afterSeal value).disk.crashEntries (sealCrash value) =
      [storeFile (walSealedSegmentName 1 1) (firstBytes value)] := by
    simp [Disk.crashEntries, afterSeal, DiskFile.kept]
  rw [Crash.Lists, hentries]
  simp [sealCrash, isSegmentEntry_first]

theorem inv_afterSeal (h : value.Valid sampleBindings) :
    Inv polynomialDigest sampleBindings (afterSeal value) ⟨[], [[firstFrame value]], []⟩ where
  chain := ⟨rfl, rfl, ⟨encodable_of_valid h (by decide) rfl, rfl, rfl, rfl⟩, rfl, rfl,
    ⟨encodable_of_valid h (by decide) (length_walHash _ _), rfl, rfl, rfl⟩, trivial⟩
  settled := rfl
  runs_nonempty := by simp
  sealedFiles := by
    simp [afterSeal, Layout.sealedFiles, sealedSegments, storeFile, firstBytes]
  liveFile := rfl
  head _ := ⟨rfl, rfl⟩
  segments _ := ⟨rfl, rfl, ⟨1, rfl, le_rfl, rfl⟩, [], rfl, by simp⟩
  prune_sound := by intro a r todo pruned hp; cases hp

/-- The store reopened after that crash: the first frame is sealed, the live segment is empty. -/
theorem exists_reopened (h : value.Valid sampleBindings) :
    ∃ s, step polynomialDigest sampleBindings 65536 (afterSeal value)
        (.reopen (sealCrash value) none false) = some s ∧
      Inv polynomialDigest sampleBindings s ⟨[], [[firstFrame value]], []⟩ ∧
      s.settled = [firstFrame value] ∧ s.phase = .idle ∧ s.store.poisoned = false ∧
      s.store.sealedWalSegments = [⟨1, 1⟩] := by
  have hinv := inv_afterSeal h
  obtain ⟨tail, t, hopen, -⟩ := hinv.recover_none rfl (sealCrash_lists value)
  have hstep : ∃ s, step polynomialDigest sampleBindings 65536 (afterSeal value)
      (.reopen (sealCrash value) none false) = some s := by
    simp only [step, reopen, if_pos (sealCrash_lists value), hopen]
    exact ⟨_, rfl⟩
  obtain ⟨s, hs⟩ := hstep
  obtain ⟨hinv', hsettled, -, hidle, hclean, hsealed⟩ := hinv.reopen hs fun _ => .inr rfl
  exact ⟨s, hs, hinv', hsettled, hidle, hclean, hsealed⟩

/-- The moves of the run: the first append, the second up to its seal, the crash, the prune. -/
def pruneMoves (value : AppendValue) : List Move :=
  [.commit [⟨value, true⟩], .write, .datasync, .complete true] ++ ([.commit [⟨value, true⟩], .rename, .create] ++
      [.reopen (sealCrash value) none false, .prune (firstAnchor value) 2, .unlink])

theorem exists_pruning (h : value.Valid sampleBindings) :
    ∃ s, run (step polynomialDigest sampleBindings 65536) (afterSeal value)
        [.reopen (sealCrash value) none false, .prune (firstAnchor value) 2, .unlink] = some s ∧
      s.phase = .pruning (firstAnchor value) 2 [] [⟨1, 1⟩] ∧ s.disk = ⟨[], some ⟨[], []⟩⟩ ∧
      s.settled = [firstFrame value] ∧ s.store = ⟨1, (firstFrame value).walHash polynomialDigest,
        0, 2, [⟨1, 1⟩], false⟩ := by
  obtain ⟨s, hreopen, hinv, hsettled, hidle, hclean, hsealed⟩ := exists_reopened h
  obtain ⟨hsequence, hhash⟩ := hinv.head hclean
  have hsegments := hinv.segments hclean
  have hfile := hinv.liveFile
  rw [hidle] at hsegments hfile
  obtain ⟨hoffset, hfirst, -⟩ := hsegments
  have hdisk : s.disk = ⟨[⟨walSealedSegmentName 1 1, ⟨firstBytes value, []⟩⟩], some ⟨[], []⟩⟩ := by
    have hfiles : s.disk.sealedFiles = [⟨walSealedSegmentName 1 1, ⟨firstBytes value, []⟩⟩] := by
      rw [hinv.sealedFiles]
      simp [Layout.sealedFiles, sealedSegments, storeFile, firstBytes]
    exact Disk.mk.injEq _ _ _ _ |>.mpr ⟨hfiles, hfile⟩
  have hstore : s.store = ⟨1, (firstFrame value).walHash polynomialDigest, 0, 2, [⟨1, 1⟩], false⟩ := by
    rw [hsettled] at hsequence hhash
    exact Store.mk.injEq _ _ _ _ _ _ _ _ _ _ _ _ |>.mpr ⟨hsequence, hhash, hoffset, hfirst, hsealed, hclean⟩
  have hprune : pruneStart polynomialDigest sampleBindings s (firstAnchor value) 2 =
      some { s with phase := .pruning (firstAnchor value) 2 [⟨1, 1⟩] [] } := by
    simp [pruneStart, verifyWalPruneAnchor, hidle, hstore, firstAnchor, require]
  have hprunable : Prunable (firstAnchor value) 2 ⟨1, 1⟩ := ⟨le_refl 1, by decide⟩
  have hunlink : pruneUnlink { s with phase := .pruning (firstAnchor value) 2 [⟨1, 1⟩] [] } =
      some { s with
        disk := ⟨[], some ⟨[], []⟩⟩
        phase := .pruning (firstAnchor value) 2 [] [⟨1, 1⟩] } := by
    simp [pruneUnlink, hprunable, hdisk]
  exact ⟨_, run_cons.mpr ⟨s, hreopen, run_cons.mpr ⟨_, hprune, run_cons.mpr ⟨_, hunlink, rfl⟩⟩⟩, rfl,
    rfl, hsettled, hstore⟩

theorem exists_prunedToHead (h : value.Valid sampleBindings) (hlarge : 65536 < 2 * (224 + value.payload.length)) :
    ∃ s, run (step polynomialDigest sampleBindings 65536) fresh (pruneMoves value) = some s ∧
      RunMeets (step polynomialDigest sampleBindings 65536) (Survives sampleBindings) fresh (pruneMoves value) ∧
      s.phase = .pruning (firstAnchor value) 2 [] [⟨1, 1⟩] ∧ s.disk = ⟨[], some ⟨[], []⟩⟩ ∧
      s.store = ⟨1, (firstFrame value).walHash polynomialDigest, 0, 2, [⟨1, 1⟩], false⟩ ∧
      step polynomialDigest sampleBindings 65536 s .pruned = some {
        store := ⟨1, (firstFrame value).walHash polynomialDigest, 0, 2, [], false⟩
        disk := ⟨[], some ⟨[], []⟩⟩
        phase := .idle
        settled := [firstFrame value]
        acked := s.acked } := by
  obtain ⟨s, hrun, hphase, hdisk, hsettled, hstore⟩ := exists_pruning h
  refine ⟨s, ?_, ?_, hphase, hdisk, hstore, ?_⟩
  · exact run_append.mpr ⟨_, run_first h, run_append.mpr ⟨_, run_seal h hlarge, hrun⟩⟩
  · refine runMeets_append ⟨trivial, fun _ _ => ⟨trivial, fun _ _ => ⟨trivial, fun _ _ =>
      ⟨trivial, fun _ _ => trivial⟩⟩⟩⟩ fun s₁ hs₁ => ?_
    cases (run_first h).symm.trans hs₁
    refine runMeets_append ⟨trivial, fun _ _ => ⟨trivial, fun _ _ => ⟨trivial, fun _ _ =>
      trivial⟩⟩⟩ fun s₂ hs₂ => ?_
    cases (run_seal h hlarge).symm.trans hs₂
    exact ⟨.inr (.inl ⟨_, mem_cons_self, isSegmentEntry_first value⟩), fun _ _ =>
      ⟨trivial, fun _ _ => ⟨trivial, fun _ _ => trivial⟩⟩⟩
  · simp [step, pruneFinish, hphase, hstore, hdisk, hsettled]

theorem run_second (h : value.Valid sampleBindings) (acked : List WalFrame) :
    run (step polynomialDigest sampleBindings 65536)
      ⟨⟨1, (firstFrame value).walHash polynomialDigest, 0, 2, [], false⟩, ⟨[], some ⟨[], []⟩⟩, .idle,
        [firstFrame value], acked⟩
      [.commit [⟨value, true⟩], .write, .datasync, .complete true] =
    some ⟨⟨2, (secondFrame value).walHash polynomialDigest,
        (frameBytes polynomialDigest (secondFrame value)).length, 2, [], false⟩,
      ⟨[], some ⟨frameBytes polynomialDigest (secondFrame value), []⟩⟩, .idle,
      [firstFrame value, secondFrame value],
      acked ++ [(secondFrame value).decoded polynomialDigest]⟩ := by
  have hframes : encodeGroup polynomialDigest sampleBindings 1
      ((firstFrame value).walHash polynomialDigest) [⟨value, true⟩] = [secondFrame value] :=
    encodeGroup_singleton h (by decide) (length_walHash _ _)
  have hdecode := decodeFrame_frameValue h 2 ((firstFrame value).walHash polynomialDigest)
    (by decide) (length_walHash _ _)
  refine (run_lone_append 65536 (s := ⟨⟨1, (firstFrame value).walHash polynomialDigest, 0, 2, [],
    false⟩, ⟨[], some ⟨[], []⟩⟩, .idle, [firstFrame value], acked⟩) (f := ⟨[], []⟩) rfl rfl rfl rfl rfl
    hframes (fun hrolls => absurd hrolls.1 (lt_irrefl 0)) hdecode).trans ?_
  simp [secondFrame, StoreBindings.frameValue]

theorem secondFrame_writtenBy (h : value.Valid sampleBindings) : WrittenBy sampleBindings (secondFrame value) :=
  ⟨encodable_of_valid h (by decide) (length_walHash _ _), rfl, rfl, rfl⟩

/-- A crash that keeps nothing unsynced and lists no segment. -/
def emptyCrash : Crash := ⟨fun _ => 0, []⟩

end PrunedToHead

/-- A large value: with the 224 bytes around it, it leaves no room for another in its segment. -/
def largeValue : AppendValue where
  type := 1
  transactionId := List.replicate 32 3
  virtualBucket := 0
  payload := List.replicate 65000 7

theorem length_largeValue : largeValue.payload.length = 65000 := length_replicate

theorem exists_largeValue : ∃ value : AppendValue, value.Valid sampleBindings ∧
    65536 < 2 * (224 + value.payload.length) := by
  refine ⟨largeValue, ⟨by decide, by decide, by decide, ?_⟩, ?_⟩
  · rw [length_largeValue]
    decide
  · rw [length_largeValue]
    decide

/-- A prune throws after it has deleted the only sealed segment: its range is still known. -/
theorem segments_tile_thrown : ∃ value s,
    run (step polynomialDigest sampleBindings 65536) fresh (pruneMoves value ++ [.throw]) = some s ∧
      s.store.sealedWalSegments = [⟨1, 1⟩] ∧ s.disk.sealedFiles = [] ∧
      ∃ first, Tiles first s.store.sealedWalSegments s.store.liveSegmentFirstSequence := by
  obtain ⟨value, hvalid, hlarge⟩ := exists_largeValue
  obtain ⟨s, hrun, hmeets, hphase, hdisk, hstore, -⟩ := exists_prunedToHead hvalid hlarge
  have hthrow : step polynomialDigest sampleBindings 65536 s .throw = some { s with phase := .idle } := by
    simp [step, pruneThrow, hphase]
  have hrun' : run _ fresh (pruneMoves value ++ [.throw]) = some { s with phase := .idle } :=
    run_append.mpr ⟨s, hrun, run_cons.mpr ⟨_, hthrow, rfl⟩⟩
  have hmeets' : RunMeets (step polynomialDigest sampleBindings 65536) (Survives sampleBindings) fresh
      (pruneMoves value ++ [.throw]) := runMeets_append hmeets fun _ _ => ⟨trivial, fun _ _ => trivial⟩
  have htiles := segments_tile hmeets' hrun' rfl (by rw [hstore])
  exact ⟨value, _, hrun', by rw [hstore], by rw [hdisk], htiles.1⟩

/-- Closed or crashed right after the prune, the store does not open at the prune's checkpoint. -/
theorem pruned_head_not_reopened :
    ¬ ∀ (H : Blake2b256) (B : StoreBindings) (walSegmentMaxBytes : ℕ) (anchor : WalAnchor)
      (retainFromSequence : ℕ) (gone : List SegmentRange) (moves later : List Move)
      (s s₁ s₂ : Machine) (c : Crash),
      run (step H B walSegmentMaxBytes) fresh moves = some s →
      s.phase = .pruning anchor retainFromSequence [] gone →
      step H B walSegmentMaxBytes s .pruned = some s₁ → (∀ m ∈ later, m.IsAppend) →
      run (step H B walSegmentMaxBytes) s₁ later = some s₂ → c.Lists s₂.disk →
      ∃ o, recover H B (s₂.disk.after c) (some anchor) false = .ok o ∧
        ReopensAt H B anchor (s₂.settled ++ survivors H s₂ c) o := by
  intro hclaim
  obtain ⟨value, hvalid, hlarge⟩ := exists_largeValue
  obtain ⟨s, hrun, -, hphase, -, -, hprune⟩ := exists_prunedToHead hvalid hlarge
  obtain ⟨o, hopen, ho⟩ := hclaim polynomialDigest sampleBindings 65536
      (firstAnchor value) 2 _ _ [] s _ _ emptyCrash hrun hphase hprune (by simp) rfl (List.Perm.refl [])
  have hretains : Retains polynomialDigest sampleBindings 0 zero32 [] [] [] []
      (Disk.after ⟨[], some ⟨[], []⟩⟩ emptyCrash) :=
    ⟨trivial, Nat.zero_le _, fun _ => rfl, by simp, .inl rfl, List.Perm.refl [], rfl, rfl⟩
  have hbehind := ho.notBehind
  rw [hretains.walSequence_of_nil hopen] at hbehind
  exact absurd hbehind (Nat.not_succ_le_zero 0)

/-- With one more append acknowledged, it does. -/
theorem pruned_head_reopened : ∃ value s s₁ s₂,
    run (step polynomialDigest sampleBindings 65536) fresh (pruneMoves value) = some s ∧
      step polynomialDigest sampleBindings 65536 s .pruned = some s₁ ∧
      run (step polynomialDigest sampleBindings 65536) s₁
        [.commit [⟨value, true⟩], .write, .datasync, .complete true] = some s₂ ∧
      ∃ o, recover polynomialDigest sampleBindings (s₂.disk.after emptyCrash)
          (some (firstAnchor value)) false = .ok o ∧
        ReopensAt polynomialDigest sampleBindings (firstAnchor value)
          (s₂.settled ++ survivors polynomialDigest s₂ emptyCrash) o := by
  obtain ⟨value, hvalid, hlarge⟩ := exists_largeValue
  obtain ⟨s, hrun, hmeets, hphase, -, -, hprune⟩ := exists_prunedToHead hvalid hlarge
  have hwritten := secondFrame_writtenBy hvalid
  have hlater := run_second hvalid s.acked
  refine ⟨value, s, _, _, hrun, hprune, hlater, ?_⟩
  refine (reopens_iff_hasCompleteFrame (c := emptyCrash) hrun hmeets hphase hprune ?_ hlater
    (List.Perm.refl [])).mpr (.inr ⟨?_, _, hwritten.inspectHeader [], ?_⟩)
  · simp [Move.IsAppend]
  · change walHeaderBytes ≤ (frameBytes polynomialDigest (secondFrame value) ++ []).length
    rw [append_nil, hwritten.length_frameBytes]
    simp only [walHeaderBytes, walMinFrameBytes]
    omega
  · change _ ≤ (frameBytes polynomialDigest (secondFrame value) ++ []).length
    rw [append_nil, hwritten.length_frameBytes]
    exact le_rfl

end HiveRelay.Wal
