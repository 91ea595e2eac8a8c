import HiveRelay.Wal.Writer

/-!
# The invariant of the writer

At any moment the settled frames are a chain from genesis, cut into the frames that were pruned, the
runs in the sealed segments and the frames in the live segment. The invariant says that the disk is
exactly that, up to what the phase has written, and that the fields of a store that is not poisoned
agree with it. It is kept by every move; the only condition is on reopening, after pruning: a
directory without a complete frame does not say where its history ended.
-/

namespace HiveRelay.Wal

open List
open Bytes

/-! ### Layouts -/

/-- The settled frames: those that were pruned, the runs in the sealed segments, the live ones. -/
structure Layout where
  pruned : List WalFrameValue
  runs : List (List WalFrameValue)
  live : List WalFrameValue

namespace Layout

def frames (L : Layout) : List WalFrameValue := L.pruned ++ (L.runs.flatten ++ L.live)

/-- The number of frames before the live ones. -/
def sealedLength (L : Layout) : ℕ := L.pruned.length + L.runs.flatten.length

/-- The sealed files that hold the runs, all of them synced. -/
def sealedFiles (H : Blake2b256) (L : Layout) : List NamedFile :=
  (sealedSegments H L.pruned.length L.runs).map fun s => ⟨s.file.name, ⟨s.file.content, []⟩⟩

/-- The ranges of the sealed segments. -/
def ranges (H : Blake2b256) (L : Layout) : List SegmentRange :=
  (sealedSegments H L.pruned.length L.runs).map SealedSegment.range

end Layout

theorem sealedSegments_append (H : Blake2b256) (base : ℕ) (runs : List (List WalFrameValue))
    (frames : List WalFrameValue) :
    sealedSegments H base (runs ++ [frames]) =
      sealedSegments H base runs ++ sealedSegments H (base + runs.flatten.length) [frames] := by
  induction runs generalizing base with
  | nil => rfl
  | cons run runs ih =>
    rw [cons_append, sealedSegments, sealedSegments, ih, flatten_cons, length_append,
      Nat.add_assoc, cons_append]

/-! ### The invariant -/

/-- What the live file holds in each phase, besides the settled live frames. -/
def Phase.LiveFile (H : Blake2b256) (live : List WalFrameValue) (file : Option DiskFile) : Phase → Prop
  | .renamed _ _ => file = none ∧ live = []
  | .writing written _ => file = some ⟨chainBytes H live, chainBytes H written⟩
  | .completing todo => file = some ⟨chainBytes H (live ++ todo), []⟩
  | .idle => file = some ⟨chainBytes H live, []⟩
  | .sealing _ => file = some ⟨chainBytes H live, []⟩
  | .pruning _ _ _ _ => file = some ⟨chainBytes H live, []⟩

/-- Ranges that are not empty, each from where the one before it ends. -/
def Tiles : ℕ → List SegmentRange → ℕ → Prop
  | first, [], next => first = next
  | first, range :: ranges, next =>
    range.firstSequence = first ∧ first ≤ range.lastSequence ∧ Tiles (range.lastSequence + 1) ranges next

/-- What a store knows of its sealed segments: ranges that join, the last of which are those on the disk.
The others were deleted by prunes that have not returned, or have thrown. -/
structure Knows (H : Blake2b256) (L : Layout) (known : List SegmentRange) : Prop where
  tiles : ∃ first, Tiles first known (L.sealedLength + 1)
  stale : ∃ stale, known = stale ++ L.ranges H ∧ ∀ range ∈ stale, range.lastSequence ≤ L.pruned.length

/-- The fields that describe the segments. -/
structure SegmentsAgree (H : Blake2b256) (L : Layout) (store : Store) : Prop where
  walOffset : store.walOffset = (chainBytes H L.live).length
  liveSegmentFirstSequence : store.liveSegmentFirstSequence = L.sealedLength + 1
  sealedWalSegments : Knows H L store.sealedWalSegments

/-- A checkpoint the settled frames go through, and that covers everything that was pruned. -/
structure Anchored (H : Blake2b256) (anchor : WalAnchor) (settled : List WalFrameValue)
    (base : ℕ) : Prop where
  sequence_le : anchor.sequence ≤ settled.length
  hash_eq : chainHash H zero32 (settled.take anchor.sequence) = anchor.hash
  base_le : base ≤ anchor.sequence

/-- Where a prune stands: it has deleted a first part of the known segments, and once it has passed over
a segment it will pass over all the later ones. -/
structure PruneProgress (L : Layout) (known : List SegmentRange) (anchor : WalAnchor) (retainFromSequence : ℕ)
    (todo pruned : List SegmentRange) : Prop where
  passed : ∃ passed, known = passed ++ todo ∧
    (passed = pruned ∨ ∀ range ∈ todo, ¬ Prunable anchor retainFromSequence range)
  pruned_prefix : pruned <+: known
  pruned_le : ∀ range ∈ pruned, range.lastSequence ≤ L.pruned.length

/-- What a store that is not poisoned knows of its segments, in each phase. -/
def Phase.SegmentFields (H : Blake2b256) (L : Layout) (s : Machine) : Phase → Prop
  | .renamed range _ => Knows H L (s.store.sealedWalSegments ++ [range]) ∧ range.lastSequence = s.settled.length
  | .pruning anchor retainFromSequence todo pruned => SegmentsAgree H L s.store ∧
      PruneProgress L s.store.sealedWalSegments anchor retainFromSequence todo pruned ∧
      Anchored H anchor s.settled L.pruned.length
  | .idle => SegmentsAgree H L s.store
  | .sealing _ => SegmentsAgree H L s.store
  | .writing _ _ => SegmentsAgree H L s.store
  | .completing _ => SegmentsAgree H L s.store

structure Inv (H : Blake2b256) (B : StoreBindings) (s : Machine) (L : Layout) : Prop where
  chain : IsChain H B 1 zero32 (s.settled ++ s.phase.inFlight)
  settled : s.settled = L.frames
  runs_nonempty : ∀ frames ∈ L.runs, frames ≠ []
  sealedFiles : s.disk.sealedFiles = L.sealedFiles H
  liveFile : s.phase.LiveFile H L.live s.disk.live
  head : s.store.poisoned = false →
    s.store.walSequence = s.settled.length ∧ s.store.walHash = chainHash H zero32 s.settled
  segments : s.store.poisoned = false → s.phase.SegmentFields H L s
  prune_sound : ∀ a r todo pruned, s.phase = .pruning a r todo pruned → s.store.poisoned = false

section Invariant

variable {H : Blake2b256} {B : StoreBindings} {walSegmentMaxBytes : ℕ} {s s' : Machine} {L : Layout}

variable {known more : List SegmentRange} {first next : ℕ}

theorem tiles_append : Tiles first (known ++ more) next ↔ ∃ middle, Tiles first known middle ∧
    Tiles middle more next := by
  induction known generalizing first with
  | nil => simp [Tiles]
  | cons range known ih => simp [Tiles, ih, and_assoc]

theorem Tiles.mem (h : Tiles first known next) :
    first ≤ next ∧ ∀ range ∈ known, range.firstSequence ≤ range.lastSequence ∧ range.lastSequence < next := by
  induction known generalizing first with
  | nil => exact ⟨h.le, by simp⟩
  | cons range known ih =>
    obtain ⟨rfl, hle, hrest⟩ := h
    obtain ⟨hnext, hmem⟩ := ih hrest
    exact ⟨by omega, forall_mem_cons.mpr ⟨⟨hle, hnext⟩, hmem⟩⟩

theorem Tiles.pairwise (h : Tiles first known next) :
    (∀ range ∈ known, first ≤ range.lastSequence) ∧ known.Pairwise (·.lastSequence < ·.lastSequence) := by
  induction known generalizing first with
  | nil => exact ⟨by simp, .nil⟩
  | cons range known ih =>
    obtain ⟨rfl, hle, hrest⟩ := h
    obtain ⟨hlater, hpairwise⟩ := ih hrest
    exact ⟨forall_mem_cons.mpr ⟨hle, fun r hr => by have := hlater r hr; omega⟩, .cons hlater hpairwise⟩

theorem tiles_sealedSegments {runs : List (List WalFrameValue)} (hruns : ∀ frames ∈ runs, frames ≠ []) (base : ℕ) :
    Tiles (base + 1) ((sealedSegments H base runs).map SealedSegment.range) (base + runs.flatten.length + 1) := by
  induction runs generalizing base with
  | nil => rfl
  | cons frames runs ih =>
    have hpos := length_pos_iff.mpr (hruns frames mem_cons_self)
    refine ⟨rfl, by simp only [SealedSegment.range]; omega, ?_⟩
    rw [flatten_cons, length_append, ← Nat.add_assoc]
    exact ih (fun f hf => hruns f (mem_cons_of_mem _ hf)) _

/-- A final part of the known ranges that has all of those on the disk. -/
theorem Knows.drop (h : Knows H L (known ++ more))
    (hknown : ∀ range ∈ known, range.lastSequence ≤ L.pruned.length) :
    Knows H L more := by
  obtain ⟨stale, hsplit, hstale⟩ := h.stale
  obtain ⟨middle, -, htiles⟩ := tiles_append.mp h.tiles.choose_spec
  refine ⟨⟨middle, htiles⟩, ?_⟩
  rcases append_eq_append_iff.mp hsplit with ⟨c, rfl, hmore⟩ | ⟨c, rfl, hranges⟩
  · exact ⟨c, hmore, fun r hr => hstale r (mem_append_right _ hr)⟩
  · -- what is on the disk ends later
    cases c with
    | nil => exact ⟨[], hranges.symm, by simp⟩
    | cons range c =>
      have hmem : range ∈ L.ranges H := hranges ▸ mem_cons_self
      have hle := (h.tiles.choose_spec.mem.2 range (hsplit ▸ mem_append_right _ hmem)).1
      obtain ⟨segment, hsegment, rfl⟩ := List.mem_map.mp hmem
      have hlt := (lt_firstSequence_of_mem hsegment).trans_le hle
      exact absurd (hknown _ (mem_append_right _ mem_cons_self)) hlt.not_ge

/-- Sealing the live segment adds its range. -/
theorem Knows.seal (h : Knows H L known) (hlive : L.live ≠ []) : Knows H ⟨L.pruned, L.runs ++ [L.live], []⟩
    (known ++ [⟨L.sealedLength + 1, L.sealedLength + L.live.length⟩]) := by
  have hpos := length_pos_iff.mpr hlive
  obtain ⟨⟨first, htiles⟩, stale, hsplit, hstale⟩ := h
  refine ⟨⟨first, tiles_append.mpr ⟨_, htiles, rfl, by simp only; omega, ?_⟩⟩, stale, ?_, hstale⟩
  · simp [Tiles, Layout.sealedLength, Nat.add_assoc]
  · rw [hsplit, append_assoc]
    simp only [Layout.ranges, sealedSegments_append, map_append]
    rfl

theorem inv_fresh : Inv H B fresh ⟨[], [], []⟩ where
  chain := trivial
  settled := rfl
  runs_nonempty := by simp
  sealedFiles := rfl
  liveFile := rfl
  head _ := ⟨rfl, rfl⟩
  segments _ := ⟨rfl, rfl, ⟨1, rfl⟩, [], rfl, by simp⟩
  prune_sound := by intro a r todo pruned h; cases h

theorem Inv.chain_settled (h : Inv H B s L) : IsChain H B 1 zero32 s.settled :=
  (isChain_append.mp h.chain).1

theorem Inv.length_settled_le (h : Inv H B s L) : s.settled.length ≤ maxU64 := by
  have := h.chain_settled.length_le (Nat.zero_le _)
  omega

/-! ### What a crash leaves -/

theorem survivors_prefix_inFlight (s : Machine) (c : Crash) : survivors H s c <+: s.phase.inFlight := by
  unfold survivors
  cases s.phase with
  | writing written todo =>
    exact (wholeFrames_prefix_self written _).trans (prefix_append _ _)
  | completing todo => exact prefix_rfl
  | idle | sealing frames | renamed range frames | pruning a r todo pruned => exact nil_prefix

theorem kept_of_synced (b : Bytes) (n : ℕ) : DiskFile.kept ⟨b, []⟩ n = b := by
  simp [DiskFile.kept]

/-- The live file after a crash: the settled live frames, the surviving ones, and a torn one. -/
theorem Inv.live_after (h : Inv H B s L) (c : Crash) :
    ∃ rest tail, survivors H s c ++ rest <+: s.phase.inFlight ∧ IsTornTail H rest tail ∧
      ((s.disk.after c).live.map (·.content)).getD [] = chainBytes H (L.live ++ survivors H s c) ++ tail := by
  have hfile := h.liveFile
  simp only [Disk.after, Option.map_map, survivors]
  cases hphase : s.phase with
  | writing written todo =>
    rw [hphase] at hfile
    obtain ⟨rest, tail, hsplit, htake, htorn⟩ :=
      take_chainBytes (H := H) written (c.kept walLiveSegmentName)
    refine ⟨rest, tail, ?_, htorn, ?_⟩
    · rw [← hsplit]
      exact prefix_append _ _
    · rw [hfile]
      simp [storeFile, DiskFile.kept, htake]
  | renamed range frames =>
    rw [hphase] at hfile
    refine ⟨[], [], nil_prefix, .inl rfl, ?_⟩
    rw [hfile.1, hfile.2]
    rfl
  | completing todo =>
    rw [hphase] at hfile
    refine ⟨[], [], by simp [Phase.inFlight], .inl rfl, ?_⟩
    rw [hfile]
    simp [storeFile, kept_of_synced]
  | idle | sealing frames | pruning a r todo pruned =>
    rw [hphase] at hfile
    exact ⟨[], [], nil_prefix, .inl rfl, by rw [hfile]; simp [storeFile, kept_of_synced]⟩

/-- **What any crash leaves is a retained history**: the settled frames that were not pruned, the
surviving frames of the group in flight, and at most one torn frame. -/
theorem Inv.retains (h : Inv H B s L) {c : Crash} (hc : c.Lists s.disk) :
    ∃ rest tail, Retains H B L.pruned.length (chainHash H zero32 L.pruned) L.runs
      (L.live ++ survivors H s c) rest tail (s.disk.after c) := by
  obtain ⟨rest, tail, hinitial, htorn, hcontent⟩ := h.live_after c
  obtain ⟨more, hmore⟩ := hinitial
  have hchain := h.chain
  rw [← hmore, h.settled, Layout.frames] at hchain
  have hsplit : L.pruned ++ (L.runs.flatten ++ L.live) ++ (survivors H s c ++ rest ++ more) =
      L.pruned ++ ((L.runs.flatten ++ (L.live ++ survivors H s c ++ rest)) ++ more) := by
    simp only [append_assoc]
  rw [hsplit, isChain_append, isChain_append, Nat.add_comm 1] at hchain
  have hpruned := hchain.1.length_le (Nat.zero_le _)
  refine ⟨rest, tail, hchain.2.1, by omega, ?_, h.runs_nonempty, htorn, ?_, ?_, hcontent⟩
  · intro hzero
    rw [length_eq_zero_iff.mp hzero]
    rfl
  · rw [Crash.Lists, Disk.crashEntries, h.sealedFiles] at hc
    refine hc.trans (List.Perm.of_eq ?_)
    rw [Layout.sealedFiles, List.map_map]
    refine map_congr_left fun segment hmem => ?_
    simp only [Function.comp_apply, kept_of_synced]
    exact (sealedSegments_file hmem).symm
  · simp only [Disk.after, Option.map_map]
    cases s.disk.live <;> rfl

/-! ### Moves of an append -/

theorem isChain_encodeGroup (sequence : ℕ) (previous : Bytes) (group : List GroupMember) :
    IsChain H B (sequence + 1) previous (encodeGroup H B sequence previous group) := by
  induction group generalizing sequence previous with
  | nil => trivial
  | cons member group ih =>
    rw [encodeGroup]
    split_ifs
    · cases hencode : encodeWalFrame H (B.frameValue (sequence + 1) previous member.value)
          B.maximumWalPayloadBytes with
      | error e => exact ih _ _
      | ok completeFrame =>
        obtain ⟨hencodable, rfl⟩ := encodeWalFrame_eq_ok.mp hencode
        exact ⟨rfl, rfl, ⟨hencodable, rfl, rfl, rfl⟩, ih _ _⟩
    · exact ih _ _

theorem Inv.commitWalGroup {group : List GroupMember} (h : Inv H B s L)
    (hstep : commitWalGroup H B walSegmentMaxBytes s group = some s') :
    Inv H B s' L ∧ s'.settled = s.settled ∧ s'.acked = s.acked ∧
      s'.phase.inFlight = encodeGroup H B s.store.walSequence s.store.walHash group ∧
      s.phase.inFlight = [] := by
  unfold Wal.commitWalGroup at hstep
  split_ifs at hstep with hidle
  dsimp only at hstep
  split_ifs at hstep with hnil hrolls
  · cases hstep
    rw [hidle.1, hnil]
    exact ⟨h, rfl, rfl, rfl, rfl⟩
  all_goals
    cases hstep
    have hfile := h.liveFile
    have hsegments := h.segments hidle.2
    have hchain := isChain_encodeGroup (H := H) (B := B) s.store.walSequence s.store.walHash group
    rw [(h.head hidle.2).1, (h.head hidle.2).2] at hchain
    have hjoined := isChain_append.mpr ⟨h.chain_settled, (Nat.add_comm 1 _).symm ▸ hchain⟩
    rw [← (h.head hidle.2).1, ← (h.head hidle.2).2] at hjoined
    rw [hidle.1] at hfile hsegments
    refine ⟨⟨hjoined, h.settled, h.runs_nonempty, h.sealedFiles, hfile, h.head, fun _ => hsegments,
      nofun⟩, rfl, rfl, rfl, by rw [hidle.1]; rfl⟩

theorem Inv.sealRename (h : Inv H B s L) (hstep : sealRename s = some s') :
    (∃ L', Inv H B s' L' ∧ L'.pruned = L.pruned) ∧ s'.settled = s.settled ∧ s'.acked = s.acked ∧
      s'.phase.inFlight = s.phase.inFlight := by
  unfold Wal.sealRename at hstep
  split at hstep
  next frames hphase =>
    have hfile := h.liveFile
    have hsegments := h.segments
    have hchain := h.chain
    rw [hphase] at hfile hsegments hchain ⊢
    dsimp only at hstep
    split_ifs at hstep with hpoisoned hempty
    · cases hstep
      exact ⟨⟨L, ⟨hchain, h.settled, h.runs_nonempty, h.sealedFiles, by simpa [Phase.LiveFile] using
        hfile, h.head, hsegments, nofun⟩, rfl⟩, rfl, rfl, rfl⟩
    · cases hstep
      have hclean : s.store.poisoned = false := by simpa using hpoisoned
      obtain ⟨-, hfirst, hsealed⟩ := hsegments hclean
      have hlast := (h.head hclean).1
      have hlength : s.settled.length = L.sealedLength + L.live.length := by
        rw [h.settled, Layout.frames, Layout.sealedLength, length_append, length_append]
        omega
      have hlive : L.live ≠ [] := by
        rw [← length_pos_iff]
        omega
      have hrange : (⟨s.store.liveSegmentFirstSequence, s.store.walSequence⟩ : SegmentRange) =
          ⟨L.sealedLength + 1, L.sealedLength + L.live.length⟩ := by
        rw [hfirst, hlast, hlength]
      refine ⟨⟨⟨L.pruned, L.runs ++ [L.live], []⟩, ⟨hchain, ?_, ?_, ?_, ⟨rfl, rfl⟩, h.head,
        fun _ => ⟨?_, hlast⟩, nofun⟩, rfl⟩, rfl, rfl, rfl⟩
      · rw [h.settled]
        simp [Layout.frames]
      · intro frames hmem
        rcases mem_append.mp hmem with hmem | hmem
        · exact h.runs_nonempty frames hmem
        · rw [mem_singleton.mp hmem]
          exact hlive
      · rw [hfile, h.sealedFiles]
        simp only [Layout.sealedFiles, sealedSegments_append, map_append]
        rw [hfirst, hlast, hlength]
        rfl
      · rw [hrange]
        exact hsealed.seal hlive
  next => cases hstep

theorem Inv.sealCreate (h : Inv H B s L) (hstep : sealCreate s = some s') :
    Inv H B s' L ∧ s'.settled = s.settled ∧ s'.acked = s.acked ∧ s'.phase.inFlight = s.phase.inFlight := by
  unfold Wal.sealCreate at hstep
  split at hstep
  next range frames hphase =>
    have hfile := h.liveFile
    have hsegments := h.segments
    have hchain := h.chain
    rw [hphase] at hfile hsegments hchain ⊢
    split_ifs at hstep with hpoisoned
    cases hstep
    have hclean : s.store.poisoned = false := by simpa using hpoisoned
    obtain ⟨hranges, hlast⟩ := hsegments hclean
    refine ⟨⟨hchain, h.settled, h.runs_nonempty, h.sealedFiles, ?_, h.head, fun _ => ⟨?_, ?_, ?_⟩,
      nofun⟩, rfl, rfl, rfl⟩
    · rw [hfile.2]
      rfl
    · rw [hfile.2]
      rfl
    · rw [hlast, h.settled, Layout.frames, Layout.sealedLength, hfile.2, append_nil, length_append]
    · exact hranges
  next => cases hstep

theorem Inv.writeFrame (h : Inv H B s L) (hstep : writeFrame H s = some s') :
    Inv H B s' L ∧ s'.settled = s.settled ∧ s'.acked = s.acked ∧ s'.phase.inFlight = s.phase.inFlight := by
  unfold Wal.writeFrame at hstep
  split at hstep
  next written v todo hphase =>
    have hfile := h.liveFile
    have hsegments := h.segments
    have hchain := h.chain
    rw [hphase] at hfile hsegments hchain ⊢
    split_ifs at hstep with hpoisoned
    cases hstep
    have hinFlight : (written ++ [v]) ++ todo = written ++ v :: todo := by simp
    refine ⟨⟨?_, h.settled, h.runs_nonempty, h.sealedFiles, ?_, h.head, hsegments,
      nofun⟩, rfl, rfl, hinFlight⟩
    · change IsChain H B 1 zero32 (s.settled ++ ((written ++ [v]) ++ todo))
      rw [hinFlight]
      exact hchain
    · change s.disk.live.map _ = some _
      rw [hfile]
      simp
  next => cases hstep

theorem Inv.syncWal (h : Inv H B s L) (hstep : syncWal s = some s') :
    Inv H B s' L ∧ s'.settled = s.settled ∧ s'.acked = s.acked ∧ s'.phase.inFlight = s.phase.inFlight := by
  unfold Wal.syncWal at hstep
  split at hstep
  next written hphase =>
    have hfile := h.liveFile
    have hsegments := h.segments
    have hchain := h.chain
    rw [hphase] at hfile hsegments hchain ⊢
    split_ifs at hstep with hpoisoned
    cases hstep
    have hinFlight : written ++ [] = written := append_nil written
    refine ⟨⟨?_, h.settled, h.runs_nonempty, h.sealedFiles, ?_, h.head, hsegments,
      nofun⟩, rfl, rfl, hinFlight.symm⟩
    · rw [Phase.inFlight, hinFlight] at hchain
      exact hchain
    · change s.disk.live.map _ = some _
      rw [hfile]
      simp
  next => cases hstep

theorem Inv.failGroup (h : Inv H B s L) (hstep : failGroup s = some s') :
    Inv H B s' L ∧ s'.settled = s.settled ∧ s'.acked = s.acked ∧ s'.phase.inFlight = s.phase.inFlight := by
  unfold Wal.failGroup at hstep
  split at hstep
  · cases hstep
  · cases hstep
  next hidle hpruning =>
    cases hstep
    refine ⟨⟨h.chain, h.settled, h.runs_nonempty, h.sealedFiles, h.liveFile, nofun,
      nofun, fun a r todo pruned hp => absurd hp (hpruning a r todo pruned)⟩,
      rfl, rfl, rfl⟩

@[simp] theorem Phase.inFlight_afterFrame (todo : List WalFrameValue) : (Phase.afterFrame todo).inFlight = todo := by
  unfold Phase.afterFrame
  split_ifs with hnil
  · exact hnil.symm
  · rfl

variable {todo : List WalFrameValue}

theorem Phase.liveFile_afterFrame {live : List WalFrameValue} {file : Option DiskFile} :
    (Phase.afterFrame todo).LiveFile H live file ↔ file = some ⟨chainBytes H (live ++ todo), []⟩ := by
  unfold Phase.afterFrame
  split_ifs with hnil
  · rw [hnil, append_nil]
    rfl
  · rfl

theorem Phase.segmentFields_afterFrame :
    (Phase.afterFrame todo).SegmentFields H L s ↔ SegmentsAgree H L s.store := by
  unfold Phase.afterFrame
  split_ifs <;> rfl

variable {a : WalAnchor}

theorem Phase.afterFrame_ne_pruning {r : ℕ}
    {l pruned : List SegmentRange} : Phase.afterFrame todo ≠ .pruning a r l pruned := by
  unfold Phase.afterFrame
  split_ifs <;> simp

/-- Completing a frame settles it and acknowledges it, or poisons the store and leaves it in
flight. The self-check never fails: the frame was encoded for this place of the chain. -/
theorem Inv.completeFrame {applyOk : Bool} (h : Inv H B s L) (hstep : completeFrame H B s applyOk = some s') :
    (Inv H B s' L ∧ s'.settled = s.settled ∧ s'.acked = s.acked ∧ s'.phase.inFlight = s.phase.inFlight) ∨
    ∃ v, Inv H B s' { L with live := L.live ++ [v] } ∧ s'.settled = s.settled ++ [v] ∧
      s'.acked = s.acked ++ [v.decoded H] ∧ v :: s'.phase.inFlight = s.phase.inFlight := by
  unfold Wal.completeFrame at hstep
  split at hstep
  next v todo hphase =>
    have hfile := h.liveFile
    have hsegments := h.segments
    have hchain := h.chain
    rw [hphase] at hfile hsegments hchain
    by_cases hpoisoned : s.store.poisoned = true
    · rw [if_pos hpoisoned] at hstep
      cases hstep
    rw [if_neg hpoisoned] at hstep
    have hclean : s.store.poisoned = false := by simpa using hpoisoned
    obtain ⟨hsequence, hprevious, hv, -⟩ := (isChain_append.mp hchain).2
    have hdecode := decodeFrame_frameBytes (H := H) hv.encodable B.frame_fits hv.mapGeneration_ne_zero
    rw [hv.durabilityContinuityHash, hprevious, ← (h.head hclean).2] at hdecode
    rw [hdecode] at hstep
    cases applyOk with
    | false =>
      cases hstep
      exact .inl ⟨⟨h.chain, h.settled, h.runs_nonempty, h.sealedFiles, h.liveFile,
        nofun, nofun,
        fun a r todo pruned hp => absurd (hphase.symm.trans hp) (by simp)⟩, rfl, rfl, rfl⟩
    | true =>
      cases hstep
      have hsplit : L.live ++ v :: todo = L.live ++ [v] ++ todo := by simp
      have hlength : v.sequence = (s.settled ++ [v]).length := by
        rw [hsequence, length_append, length_singleton, Nat.add_comm]
      have hhash : (v.decoded H).walHash = chainHash H zero32 (s.settled ++ [v]) := by
        rw [chainHash_append]
        rfl
      obtain ⟨hoffset, hfirst, hsealed⟩ := hsegments hclean
      refine .inr ⟨v, ⟨?_, ?_, h.runs_nonempty, h.sealedFiles, ?_, fun _ => ⟨hlength, hhash⟩,
        fun _ => Phase.segmentFields_afterFrame.mpr ⟨?_, hfirst, hsealed.tiles, hsealed.stale⟩,
        fun a r l pruned hp => absurd hp Phase.afterFrame_ne_pruning⟩, rfl, rfl, ?_⟩
      · rw [Phase.inFlight_afterFrame, append_assoc, singleton_append]
        exact hchain
      · rw [h.settled]
        simp [Layout.frames]
      · rw [Phase.LiveFile, hsplit] at hfile
        exact Phase.liveFile_afterFrame.mpr hfile
      · rw [hoffset]
        simp
      · rw [hphase, Phase.inFlight_afterFrame]
        rfl
  next => cases hstep

/-! ### Moves of a prune -/

theorem foldlM_verifyAnchorFrame {frames : List WalFrame} :
    ∀ {t t' : AnchorScan}, frames.foldlM (verifyAnchorFrame a) t = .ok t' → t'.verified = true →
    t.verified = true ∨ ∃ frame ∈ frames, frame.sequence = a.sequence ∧ frame.walHash = a.hash := by
  induction frames with
  | nil =>
    intro t t' h hverified
    cases h
    exact .inl hverified
  | cons frame frames ih =>
    intro t t' h hverified
    rw [foldlM_cons, Except.bind_eq_ok] at h
    obtain ⟨t₁, hframe, hrest⟩ := h
    simp only [verifyAnchorFrame, guards_eq_ok] at hframe
    obtain ⟨hpin, rfl⟩ := hframe
    rcases ih hrest hverified with hfirst | ⟨f, hf, hat⟩
    · by_cases hsequence : frame.sequence = a.sequence
      · exact .inr ⟨frame, mem_cons_self, hsequence, hpin.resolve_left fun h => h hsequence⟩
      · exact .inl (by simpa [hsequence] using hfirst)
    · exact .inr ⟨f, mem_cons_of_mem _ hf, hat⟩

theorem exists_frame_of_scanForAnchor {frames : List WalFrameValue} {first : ℕ}
    {previous : Bytes} (hchain : IsChain H B first previous frames)
    (h : scanForAnchor H B a first (chainBytes H frames) = .ok ()) :
    ∃ v ∈ frames, v.sequence = a.sequence ∧ v.walHash H = a.hash := by
  have hadv : AdvancesChain AnchorScan.chain (verifyAnchorFrame a) := by
    intro t frame t' hframe
    simp only [verifyAnchorFrame, guards_eq_ok] at hframe
    obtain ⟨-, rfl⟩ := hframe
    rfl
  have hscan := scanSegmentFrames_chain hadv true (s := ⟨⟨first, none⟩, false⟩) (.inl rfl) hchain ⟨rfl, .inl rfl⟩
  rw [append_nil] at hscan
  rw [scanForAnchor, hscan] at h
  simp only [guards_eq_ok] at h
  obtain ⟨scanned, ⟨t', hfold, hscanned⟩, hverified⟩ := h
  cases hscanned
  rcases foldlM_verifyAnchorFrame hfold hverified with hfalse | ⟨frame, hmem, hat⟩
  · cases hfalse
  · obtain ⟨v, hv, rfl⟩ := List.mem_map.mp hmem
    exact ⟨v, hv, hat⟩

theorem Inv.chain_runs (h : Inv H B s L) :
    IsChain H B (L.pruned.length + 1) (chainHash H zero32 L.pruned) (L.runs.flatten ++ L.live) := by
  have hchain := h.chain_settled
  rw [h.settled, Layout.frames, isChain_append, Nat.add_comm 1] at hchain
  exact hchain.2

theorem Inv.anchored_of_mem (h : Inv H B s L) {v : WalFrameValue}
    (hv : v ∈ L.runs.flatten ++ L.live) (hsequence : v.sequence = a.sequence)
    (hhash : v.walHash H = a.hash) : Anchored H a s.settled L.pruned.length := by
  have hmem : v ∈ s.settled := by
    rw [h.settled, Layout.frames]
    exact mem_append_right _ hv
  have hchain : IsChain H B (0 + 1) zero32 s.settled := h.chain_settled
  obtain ⟨-, hle, htake⟩ := hchain.take_sequence hmem
  rw [Nat.sub_zero, hsequence, hhash] at htake
  have hbase := (h.chain_runs.take_sequence hv).1
  exact ⟨by omega, htake, by omega⟩

theorem Inv.anchored_of_verify (h : Inv H B s L) (hidle : s.phase = .idle) (hclean : s.store.poisoned = false)
    (hverify : verifyWalPruneAnchor H B s a = .ok ()) :
    Anchored H a s.settled L.pruned.length := by
  have hfile := h.liveFile
  have hsegments := h.segments hclean
  rw [hidle] at hfile hsegments
  obtain ⟨hoffset, hfirst, hsealed⟩ := hsegments
  obtain ⟨hsequence, hhash⟩ := h.head hclean
  have hruns := isChain_append.mp h.chain_runs
  rw [Nat.add_right_comm] at hruns
  unfold verifyWalPruneAnchor at hverify
  by_cases hat : a.sequence = s.store.walSequence
  · rw [if_pos hat, require_eq_ok] at hverify
    have hbase : L.pruned.length ≤ s.settled.length := by
      rw [h.settled, Layout.frames, length_append]
      exact Nat.le_add_right _ _
    refine ⟨by omega, ?_, by omega⟩
    rw [hat, hsequence, take_length, ← hhash, hverify]
  rw [if_neg hat] at hverify
  by_cases hlive : s.store.liveSegmentFirstSequence ≤ a.sequence
  · rw [if_pos hlive, hfile, hoffset, hfirst] at hverify
    simp only [Option.map_some, Option.getD_some, DiskFile.content, append_nil, take_length] at hverify
    obtain ⟨v, hv, hmatch⟩ := exists_frame_of_scanForAnchor hruns.2 hverify
    exact h.anchored_of_mem (mem_append_right _ hv) hmatch.1 hmatch.2
  rw [if_neg hlive] at hverify
  split at hverify
  · cases hverify
  next range hrange =>
    split at hverify
    · cases hverify
    next f hf =>
      -- the file found by name is a sealed segment, and its name gives the range back
      have hmem := mem_of_find?_eq_some hf
      have hname : f.name = walSealedSegmentName range.firstSequence range.lastSequence := by
        simpa using find?_some hf
      rw [h.sealedFiles, Layout.sealedFiles, List.mem_map] at hmem
      obtain ⟨segment, hsegment, rfl⟩ := hmem
      have hrangeMem := mem_of_find?_eq_some hrange
      obtain ⟨first, htiles⟩ := hsealed.tiles
      obtain ⟨hrangeLe, hrangeLt⟩ := htiles.mem.2 range hrangeMem
      obtain ⟨frames, hframes, before, hcontent, hown, hle, hlength, hrun⟩ :=
        exists_run_of_mem hsegment hruns.1
      have hbound := h.length_settled_le
      rw [h.settled, Layout.frames, length_append, length_append] at hbound
      have hpos := length_pos_iff.mpr (h.runs_nonempty frames hframes)
      rw [Layout.sealedLength] at hrangeLt
      rw [hown] at hname
      obtain ⟨hfirstEq, -⟩ := walSealedSegmentName_inj (by omega) (by omega) (by omega) (by omega) hname
      rw [← hfirstEq] at hverify
      simp only [DiskFile.content, append_nil, hcontent] at hverify
      obtain ⟨v, hv, hmatch⟩ := exists_frame_of_scanForAnchor hrun hverify
      exact h.anchored_of_mem (mem_append_left _ (mem_flatten.mpr ⟨frames, hframes, hv⟩)) hmatch.1 hmatch.2

theorem Inv.pruneStart {retainFrom : ℕ} (h : Inv H B s L) (hstep : pruneStart H B s a retainFrom = some s') :
    Inv H B s' L ∧ s'.settled = s.settled ∧ s'.acked = s.acked ∧ s'.phase.inFlight = s.phase.inFlight := by
  unfold Wal.pruneStart at hstep
  split_ifs at hstep with hguard
  obtain ⟨hidle, hclean, -, -⟩ := hguard
  split at hstep
  next u hverify =>
    cases hstep
    have hanchored := h.anchored_of_verify hidle hclean hverify
    have hfile := h.liveFile
    have hsegments := h.segments hclean
    have hchain := h.chain
    rw [hidle] at hfile hsegments hchain ⊢
    refine ⟨⟨hchain, h.settled, h.runs_nonempty, h.sealedFiles, hfile, h.head,
      fun _ => ⟨hsegments, ⟨⟨[], rfl, .inl rfl⟩, nil_prefix, by simp⟩, hanchored⟩, fun _ _ _ _ _ => hclean⟩,
      rfl, rfl, rfl⟩
  next => cases hstep

variable {runs : List (List WalFrameValue)}

theorem Layout.sealedFiles_cons (pruned frames live : List WalFrameValue) (runs : List (List WalFrameValue)) :
    Layout.sealedFiles H ⟨pruned, frames :: runs, live⟩ =
      ⟨walSealedSegmentName (pruned.length + 1) (pruned.length + frames.length),
        ⟨chainBytes H frames, []⟩⟩ :: Layout.sealedFiles H ⟨pruned ++ frames, runs, live⟩ := by
  rw [Layout.sealedFiles, Layout.sealedFiles, length_append]
  rfl

theorem Layout.ranges_cons (pruned frames live : List WalFrameValue) (runs : List (List WalFrameValue)) :
    Layout.ranges H ⟨pruned, frames :: runs, live⟩ = ⟨pruned.length + 1, pruned.length + frames.length⟩ ::
        Layout.ranges H ⟨pruned ++ frames, runs, live⟩ := by
  rw [Layout.ranges, Layout.ranges, length_append]
  rfl

theorem Inv.unlinkFirst {pruned frames live : List WalFrameValue} {retainFrom : ℕ}
    {todo gone : List SegmentRange} {range : SegmentRange}
    (h : Inv H B s ⟨pruned, frames :: runs, live⟩)
    (hphase : s.phase = .pruning a retainFrom (range :: todo) gone)
    (hranges : Layout.ranges H ⟨pruned, frames :: runs, live⟩ = range :: todo)
    (hknown : s.store.sealedWalSegments = gone ++ range :: todo)
    (hprunable : Prunable a retainFrom range) :
    Inv H B { s with
      disk := { s.disk with sealedFiles := s.disk.sealedFiles.eraseP fun f =>
        f.name = walSealedSegmentName range.firstSequence range.lastSequence }
      phase := .pruning a retainFrom todo (gone ++ [range]) } ⟨pruned ++ frames, runs, live⟩ := by
  have hclean := h.prune_sound _ _ _ _ hphase
  have hfile := h.liveFile
  have hsegments := h.segments hclean
  have hchain := h.chain
  have hfiles := h.sealedFiles
  rw [hphase] at hfile hsegments hchain
  obtain ⟨⟨hoffset, hfirst, hsealed⟩, ⟨-, -, hpruned⟩, hanchored⟩ := hsegments
  rw [Layout.ranges_cons, cons.injEq] at hranges
  obtain ⟨rfl, rfl⟩ := hranges
  have hlength : (pruned ++ frames).length = pruned.length + frames.length := length_append
  have hsealedLength : Layout.sealedLength ⟨pruned, frames :: runs, live⟩ =
      Layout.sealedLength ⟨pruned ++ frames, runs, live⟩ := by
    simp [Layout.sealedLength, Nat.add_assoc]
  have hsplit : s.store.sealedWalSegments = (gone ++ [⟨pruned.length + 1, pruned.length + frames.length⟩]) ++
      Layout.ranges H ⟨pruned ++ frames, runs, live⟩ := by
    rw [hknown, append_assoc, singleton_append]
  have hgone : ∀ x ∈ gone ++ [⟨pruned.length + 1, pruned.length + frames.length⟩],
      x.lastSequence ≤ (pruned ++ frames).length := by
    intro x hx
    rw [hlength]
    rcases mem_append.mp hx with hx | hx
    · exact (hpruned x hx).trans (Nat.le_add_right _ _)
    · rw [mem_singleton.mp hx]
  refine ⟨hchain, ?_, fun f hf => h.runs_nonempty f (mem_cons_of_mem _ hf), ?_, hfile, h.head,
    fun _ => ⟨⟨hoffset, hsealedLength ▸ hfirst, hsealedLength ▸ hsealed.tiles, _, hsplit, hgone⟩,
      ⟨⟨_, hsplit, .inl rfl⟩, ⟨_, hsplit.symm⟩, hgone⟩, hanchored.sequence_le, hanchored.hash_eq, ?_⟩,
    fun _ _ _ _ _ => hclean⟩
  · rw [h.settled]
    simp [Layout.frames]
  · rw [hfiles, Layout.sealedFiles_cons, eraseP_cons_of_pos]
    exact decide_eq_true rfl
  · rw [hlength]
    exact hprunable.1

/-- No file on the disk has the name of a range that was deleted. -/
theorem Inv.eraseP_stale (h : Inv H B s L) {range : SegmentRange} (hle : range.firstSequence ≤ range.lastSequence)
    (hstale : range.lastSequence ≤ L.pruned.length) : (s.disk.sealedFiles.eraseP fun f =>
      f.name = walSealedSegmentName range.firstSequence range.lastSequence) = s.disk.sealedFiles := by
  refine eraseP_of_forall_not fun f hf => ?_
  rw [h.sealedFiles, Layout.sealedFiles, List.mem_map] at hf
  obtain ⟨segment, hsegment, rfl⟩ := hf
  obtain ⟨frames, hframes, before, -, hown, hlast, hlength, -⟩ :=
    exists_run_of_mem hsegment (isChain_append.mp h.chain_runs).1
  have hlt := lt_firstSequence_of_mem hsegment
  have hpos := length_pos_iff.mpr (h.runs_nonempty frames hframes)
  have hbound := h.length_settled_le
  rw [h.settled, Layout.frames, length_append, length_append] at hbound
  rw [decide_eq_true_eq, hown]
  intro hname
  obtain ⟨hfirst, -⟩ := walSealedSegmentName_inj (by omega) (by omega) (by omega) (by omega) hname
  omega

theorem Inv.pruneUnlink (h : Inv H B s L) (hstep : pruneUnlink s = some s') :
    (∃ L', Inv H B s' L') ∧ s'.settled = s.settled ∧ s'.acked = s.acked ∧ s'.phase.inFlight = s.phase.inFlight := by
  unfold Wal.pruneUnlink at hstep
  split at hstep
  next a retainFrom range todo pruned hphase =>
    have hclean := h.prune_sound _ _ _ _ hphase
    have hfile := h.liveFile
    have hsegments := h.segments hclean
    have hchain := h.chain
    rw [hphase] at hfile hsegments hchain
    obtain ⟨hagree, ⟨⟨passed, hknown, hpassed⟩, hprefix, hpruned⟩, hanchored⟩ := hsegments
    obtain ⟨first, htiles⟩ := hagree.sealedWalSegments.tiles
    split_ifs at hstep with hprunable
    · cases hstep
      -- nothing was passed over yet, so this is the first segment after those that were deleted
      obtain rfl : passed = pruned := hpassed.resolve_right fun hnone => hnone range mem_cons_self hprunable
      refine ⟨?_, rfl, rfl, by rw [hphase]; rfl⟩
      obtain ⟨stale, hsplit, hstale⟩ := (hknown ▸ hagree.sealedWalSegments).drop hpruned |>.stale
      cases stale with
      | nil =>
        obtain ⟨frames₀, runs, live⟩ := L
        cases runs with
        | nil => cases hsplit
        | cons frames runs => exact ⟨_, h.unlinkFirst hphase hsplit.symm hknown hprunable⟩
      | cons range' stale =>
        -- a prune that threw has deleted it already
        obtain ⟨rfl, rfl⟩ := cons.inj hsplit
        have hle := (htiles.mem.2 range (hknown ▸ mem_append_right _ mem_cons_self)).1
        rw [h.eraseP_stale hle (hstale range mem_cons_self)]
        have hsplit' : s.store.sealedWalSegments = passed ++ [range] ++ (stale ++ L.ranges H) := by
          rw [hknown, append_assoc]
          rfl
        exact ⟨L, hchain, h.settled, h.runs_nonempty, h.sealedFiles, hfile, h.head,
          fun _ => ⟨hagree, ⟨⟨_, hsplit', .inl rfl⟩, ⟨_, hsplit'.symm⟩, forall_mem_append.mpr
            ⟨hpruned, forall_mem_singleton.mpr (hstale range mem_cons_self)⟩⟩, hanchored⟩, fun _ _ _ _ _ => hclean⟩
    · cases hstep
      refine ⟨⟨L, hchain, h.settled, h.runs_nonempty, h.sealedFiles, hfile, h.head,
        fun _ => ⟨hagree, ⟨⟨passed ++ [range], by rw [hknown]; simp, .inr ?_⟩, hprefix, hpruned⟩, hanchored⟩,
        fun _ _ _ _ _ => hclean⟩, rfl, rfl, by rw [hphase]; rfl⟩
      -- the later segments end later, so they are passed over too
      intro x hx hprune
      have hsorted := (pairwise_append.mp (hknown ▸ htiles.pairwise.2)).2.1
      have hlt := (pairwise_cons.mp hsorted).1 x hx
      exact hprunable ⟨hlt.le.trans hprune.1, hlt.trans hprune.2⟩
  next => cases hstep

theorem Inv.pruneFinish (h : Inv H B s L) (hstep : pruneFinish s = some s') :
    ∃ a r pruned, s.phase = .pruning a r [] pruned ∧ Inv H B s' L ∧ s'.settled = s.settled ∧
      s'.acked = s.acked ∧ s'.phase = .idle ∧ s'.store.poisoned = false ∧
      Anchored H a s'.settled L.pruned.length := by
  unfold Wal.pruneFinish at hstep
  split at hstep
  next a r pruned hphase =>
    cases hstep
    have hclean := h.prune_sound _ _ _ _ hphase
    have hfile := h.liveFile
    have hsegments := h.segments hclean
    have hchain := h.chain
    rw [hphase] at hfile hsegments hchain
    obtain ⟨⟨hoffset, hfirst, hsealed⟩, ⟨-, ⟨rest, hrest⟩, hpruned⟩, hanchored⟩ := hsegments
    refine ⟨a, r, pruned, hphase, ⟨hchain, h.settled, h.runs_nonempty, h.sealedFiles, hfile, h.head,
      fun _ => ⟨hoffset, hfirst, ?_⟩, nofun⟩, rfl, rfl, rfl, hclean,
      hanchored⟩
    have hsorted := hsealed.tiles.choose_spec.pairwise.2
    rw [← hrest] at hsealed hsorted ⊢
    have hdisjoint : ∀ range ∈ rest, range ∉ pruned := fun range hmem hgone =>
      absurd ((pairwise_append.mp hsorted).2.2 range hgone range hmem) (lt_irrefl _)
    rw [filter_append, filter_eq_nil_iff.mpr (by simp), nil_append, filter_eq_self.mpr (by simpa using hdisjoint)]
    exact hsealed.drop hpruned
  next => cases hstep

/-- A prune that throws forgets nothing: what it has deleted stays among the known ranges. -/
theorem Inv.pruneThrow (h : Inv H B s L) (hstep : pruneThrow s = some s') : Inv H B s' L := by
  unfold Wal.pruneThrow at hstep
  split at hstep
  next a r todo pruned hphase =>
    cases hstep
    have hfile := h.liveFile
    have hsegments := h.segments
    have hchain := h.chain
    rw [hphase] at hfile hsegments hchain
    exact ⟨hchain, h.settled, h.runs_nonempty, h.sealedFiles, hfile, h.head, fun hclean => (hsegments hclean).1, nofun⟩
  next => cases hstep

/-! ### Reopening -/

/-- A crash that an open can be told about: nothing was ever settled, or a complete frame is left. -/
def Survives (B : StoreBindings) (s : Machine) : Move → Prop
  | .reopen c _ _ => s.settled = [] ∨ HasCompleteFrame B (s.disk.after c)
  | _ => True

theorem Inv.retained_or_genesis (h : Inv H B s L) {c : Crash} (hc : c.Lists s.disk)
    (hsurvives : s.settled = [] ∨ HasCompleteFrame B (s.disk.after c)) :
    L.runs.flatten ++ (L.live ++ survivors H s c) ≠ [] ∨ L.pruned.length = 0 := by
  obtain ⟨rest, tail, hretains⟩ := h.retains hc
  rcases hsurvives with hnil | hcomplete
  · right
    rw [h.settled, Layout.frames, append_eq_nil_iff] at hnil
    rw [hnil.1]
    rfl
  · exact .inl (hretains.hasCompleteFrame_iff.mp hcomplete)

theorem Inv.reopen {c : Crash} {anchor : Option WalAnchor} {replayCoveredFrames : Bool}
    (h : Inv H B s L) (hstep : reopen H B s c anchor replayCoveredFrames = some s')
    (hsurvives : c.Lists s.disk → L.runs.flatten ++ (L.live ++ survivors H s c) ≠ [] ∨ L.pruned.length = 0) :
    Inv H B s' { L with live := L.live ++ survivors H s c } ∧
      s'.settled = s.settled ++ survivors H s c ∧ s'.acked = s.acked ∧ s'.phase = .idle ∧
      s'.store.poisoned = false ∧ s'.store.sealedWalSegments = L.ranges H := by
  unfold Wal.reopen at hstep
  split_ifs at hstep with hc
  split at hstep
  · cases hstep
  next o hopen =>
    cases hstep
    obtain ⟨rest, tail, hretains⟩ := h.retains hc
    obtain ⟨t, rfl, hsequence, hhash⟩ := hretains.recover_inv (hsurvives hc) hopen
    obtain ⟨more, hmore⟩ := survivors_prefix_inFlight (H := H) s c
    have hchain := h.chain
    rw [← hmore, ← append_assoc] at hchain
    have hsettled : s.settled ++ survivors H s c = L.pruned ++ (L.runs.flatten ++ (L.live ++ survivors H s c)) := by
      rw [h.settled]
      simp [Layout.frames]
    refine ⟨⟨?_, hsettled, h.runs_nonempty, ?_, rfl, fun _ => ⟨?_, ?_⟩,
      fun _ => ⟨rfl, rfl, ⟨_, tiles_sealedSegments h.runs_nonempty _⟩, [], rfl, by simp⟩, nofun⟩, rfl, rfl, rfl, rfl, rfl⟩
    · change IsChain H B 1 zero32 ((s.settled ++ survivors H s c) ++ [])
      rw [append_nil]
      exact (isChain_append.mp hchain).1
    · rw [h.sealedFiles, Layout.sealedFiles, List.map_map]
      refine map_congr_left fun segment _ => ?_
      simp only [Function.comp_apply, kept_of_synced]
    · exact hsequence.trans ((congrArg List.length hsettled).trans length_append).symm
    · exact hhash.trans ((congrArg _ hsettled).trans (chainHash_append _ _ _)).symm

/-! ### Every move keeps the invariant -/

/-- What an append value has to satisfy for its frame to be encoded. -/
def AppendValue.Valid (B : StoreBindings) (value : AppendValue) : Prop :=
  (1 ≤ value.type ∧ value.type ≤ 255) ∧ (value.transactionId.length = 32 ∧ isZero value.transactionId = false) ∧
    value.virtualBucket ≤ 0xffff ∧ value.payload.length ≤ B.maximumWalPayloadBytes
  deriving Decidable

/-- A member that a group commit ejects: its fence throws, or its value cannot be encoded. -/
def GroupMember.Ejected (B : StoreBindings) (member : GroupMember) : Prop :=
  member.fenceOk = false ∨ ¬ member.value.Valid B
  deriving Decidable

/-- The appended value a frame was written for. -/
def WalFrameValue.appendValue (v : WalFrameValue) : AppendValue :=
  ⟨v.type, v.transactionId, v.virtualBucket, v.payload⟩

@[inherit_doc WalFrameValue.appendValue]
def WalFrame.appendValue (frame : WalFrame) : AppendValue :=
  ⟨frame.type, frame.transactionId, frame.virtualBucket, frame.payload⟩

/-- The values of the members that are not ejected, in the order of their admission. -/
def admitted (B : StoreBindings) (members : List GroupMember) : List AppendValue :=
  (members.filter fun member => ¬ member.Ejected B).map GroupMember.value

/-- The frames of a group are those of members that were not ejected, in admission order. -/
theorem encodeGroup_sublist (sequence : ℕ) (previous : Bytes) (group : List GroupMember) :
    ((encodeGroup H B sequence previous group).map WalFrameValue.appendValue).Sublist (admitted B group) := by
  unfold admitted
  induction group generalizing sequence previous with
  | nil => exact List.Sublist.refl _
  | cons member group ih =>
    have hskip : ∀ sequence previous,
        ((encodeGroup H B sequence previous group).map WalFrameValue.appendValue).Sublist
          (((member :: group).filter fun member => ¬ member.Ejected B).map GroupMember.value) :=
      fun sequence previous => (ih sequence previous).trans ((sublist_cons_self member group).filter _ |>.map _)
    rw [encodeGroup]
    split_ifs with hfence
    · cases hencode : encodeWalFrame H (B.frameValue (sequence + 1) previous member.value)
          B.maximumWalPayloadBytes with
      | error e => exact hskip _ _
      | ok completeFrame =>
        obtain ⟨hencodable, -⟩ := encodeWalFrame_eq_ok.mp hencode
        have hvalid : member.value.Valid B := ⟨hencodable.type, hencodable.transactionId,
          hencodable.virtualBucket, hencodable.payload⟩
        have hkeep : ¬ member.Ejected B := by simp [GroupMember.Ejected, hfence, hvalid]
        rw [filter_cons_of_pos (by simpa using hkeep)]
        exact (ih _ _).cons_cons _
    · exact hskip _ _

/-- What a move of an append does to the history: the frames in flight only grow by a group of
members that were not ejected, and a frame settles when it is acknowledged. -/
structure AppendStep (H : Blake2b256) (B : StoreBindings) (s : Machine) (m : Move) (s' : Machine) :
    Prop where
  settled : s'.settled = s.settled ∧ s'.acked = s.acked ∨
    ∃ v, s'.settled = s.settled ++ [v] ∧ s'.acked = s.acked ++ [v.decoded H]
  history : ∃ frames, s'.settled ++ s'.phase.inFlight = s.settled ++ s.phase.inFlight ++ frames ∧
    (frames.map WalFrameValue.appendValue).Sublist (admitted B m.members)

theorem AppendStep.of_same {m : Move} (hsettled : s'.settled = s.settled) (hacked : s'.acked = s.acked)
    (hinFlight : s'.phase.inFlight = s.phase.inFlight) : AppendStep H B s m s' :=
  ⟨.inl ⟨hsettled, hacked⟩, [], by rw [hsettled, hinFlight, append_nil], nil_sublist _⟩

/-- **The moves of an append keep the invariant**, and prune nothing. -/
theorem Inv.step_append {m : Move} (h : Inv H B s L) (hm : m.IsAppend)
    (hstep : step H B walSegmentMaxBytes s m = some s') :
    ∃ L', Inv H B s' L' ∧ L'.pruned = L.pruned ∧ AppendStep H B s m s' := by
  cases m with
  | commit group =>
    obtain ⟨hinv, hsettled, hacked, hframes, hidle⟩ := h.commitWalGroup hstep
    refine ⟨L, hinv, rfl, .inl ⟨hsettled, hacked⟩,
      encodeGroup H B s.store.walSequence s.store.walHash group, ?_, encodeGroup_sublist _ _ _⟩
    rw [hsettled, hframes, hidle, append_nil]
  | rename =>
    obtain ⟨⟨L', hinv, hpruned⟩, hsettled, hacked, hinFlight⟩ := h.sealRename hstep
    exact ⟨L', hinv, hpruned, .of_same hsettled hacked hinFlight⟩
  | create =>
    obtain ⟨hinv, hsettled, hacked, hinFlight⟩ := h.sealCreate hstep
    exact ⟨L, hinv, rfl, .of_same hsettled hacked hinFlight⟩
  | write =>
    obtain ⟨hinv, hsettled, hacked, hinFlight⟩ := h.writeFrame hstep
    exact ⟨L, hinv, rfl, .of_same hsettled hacked hinFlight⟩
  | datasync =>
    obtain ⟨hinv, hsettled, hacked, hinFlight⟩ := h.syncWal hstep
    exact ⟨L, hinv, rfl, .of_same hsettled hacked hinFlight⟩
  | complete applyOk =>
    rcases h.completeFrame hstep with ⟨hinv, hsettled, hacked, hinFlight⟩ |
      ⟨v, hinv, hsettled, hacked, hinFlight⟩
    · exact ⟨L, hinv, rfl, .of_same hsettled hacked hinFlight⟩
    · refine ⟨_, hinv, rfl, .inr ⟨v, hsettled, hacked⟩, [], ?_, nil_sublist _⟩
      rw [hsettled, ← hinFlight, append_nil, append_assoc, singleton_append]
  | fail =>
    obtain ⟨hinv, hsettled, hacked, hinFlight⟩ := h.failGroup hstep
    exact ⟨L, hinv, rfl, .of_same hsettled hacked hinFlight⟩
  | prune a r | unlink | pruned | throw | reopen c anchor replayCoveredFrames => exact hm.elim

/-- **Every move keeps the invariant**, reopening under the condition that the crash left a complete
frame. -/
theorem Inv.step {m : Move} (h : ∃ L, Inv H B s L) (hok : Survives B s m)
    (hstep : step H B walSegmentMaxBytes s m = some s') : ∃ L', Inv H B s' L' := by
  obtain ⟨L, h⟩ := h
  by_cases happend : m.IsAppend
  · obtain ⟨L', hinv, -⟩ := h.step_append happend hstep
    exact ⟨L', hinv⟩
  cases m with
  | prune a r => exact ⟨L, (h.pruneStart hstep).1⟩
  | unlink => exact (h.pruneUnlink hstep).1
  | pruned =>
    obtain ⟨-, -, -, -, hinv, -⟩ := h.pruneFinish hstep
    exact ⟨L, hinv⟩
  | throw => exact ⟨L, h.pruneThrow hstep⟩
  | reopen c anchor replayCoveredFrames =>
    exact ⟨_, (h.reopen hstep fun hc => h.retained_or_genesis hc hok).1⟩
  | _ => exact absurd trivial happend

end Invariant

end HiveRelay.Wal
