import HiveRelay.Wal.Chain

/-!
# Recovery of a retained history

The files of a store hold a chain of frames: the first `base` of them pruned, the next ones cut into
sealed segments, the rest in the live segment, whose end may be torn. On such files `#recover` is a
fold of its callback over the retained frames. Everything about crashes and pruning follows from that
one equation and from what the fold does with and without an anchor.
-/

namespace HiveRelay.Wal

open List HiveRelay.Except
open Bytes

/-! ### Sealed segments of a chain -/

/-- The sealed segments that hold the given runs of frames, `base` frames being pruned. -/
def sealedSegments (H : Blake2b256) : ℕ → List (List WalFrameValue) → List SealedSegment
  | _, [] => []
  | base, frames :: rest =>
    { firstSequence := base + 1
      lastSequence := base + frames.length
      file := storeFile (walSealedSegmentName (base + 1) (base + frames.length))
        (chainBytes H frames) } :: sealedSegments H (base + frames.length) rest

section Sealed

variable {H : Blake2b256} {B : StoreBindings} {base : ℕ} {runs : List (List WalFrameValue)}

variable {segment : SealedSegment}

theorem sealedSegments_file (h : segment ∈ sealedSegments H base runs) :
    segment.file = storeFile segment.file.name segment.file.content := by
  induction runs generalizing base with
  | nil => cases h
  | cons frames rest ih =>
    rcases mem_cons.mp h with rfl | h
    · rfl
    · exact ih h

theorem exists_run_of_mem : ∀ {base : ℕ} {previous : Bytes}, segment ∈ sealedSegments H base runs →
    IsChain H B (base + 1) previous runs.flatten →
    ∃ frames ∈ runs, ∃ before, segment.file.content = chainBytes H frames ∧
      segment.file.name = walSealedSegmentName segment.firstSequence segment.lastSequence ∧
      segment.lastSequence ≤ base + runs.flatten.length ∧
      segment.lastSequence + 1 = segment.firstSequence + frames.length ∧
      IsChain H B segment.firstSequence before frames := by
  induction runs with
  | nil => intro base previous h; cases h
  | cons frames rest ih =>
    intro base previous h hchain
    rw [flatten_cons, isChain_append, Nat.add_right_comm] at hchain
    rw [flatten_cons, length_append]
    rcases mem_cons.mp h with rfl | h
    · exact ⟨frames, mem_cons_self, previous, rfl, rfl, by simp, Nat.add_right_comm _ _ _, hchain.1⟩
    · obtain ⟨run, hmem, before, hcontent, hname, hle, hlast, hrun⟩ := ih h hchain.2
      exact ⟨run, mem_cons_of_mem _ hmem, before, hcontent, hname, by omega, hlast, hrun⟩

theorem lt_firstSequence_of_mem (h : segment ∈ sealedSegments H base runs) : base < segment.firstSequence := by
  induction runs generalizing base with
  | nil => cases h
  | cons frames rest ih =>
    rcases mem_cons.mp h with rfl | h
    · exact Nat.lt_succ_self base
    · exact lt_of_le_of_lt (Nat.le_add_right _ _) (ih h)

theorem sealedSegments_pairwise (hruns : ∀ frames ∈ runs, frames ≠ []) :
    (sealedSegments H base runs).Pairwise (·.firstSequence < ·.firstSequence) := by
  induction runs generalizing base with
  | nil => exact .nil
  | cons frames rest ih =>
    have hpos := length_pos_iff.mpr (hruns frames mem_cons_self)
    refine .cons (fun segment hmem => ?_) (ih fun f hf => hruns f (mem_cons_of_mem _ hf))
    have := lt_firstSequence_of_mem hmem
    change base + 1 < segment.firstSequence
    omega

theorem sealedSegments_contiguous : Contiguous (sealedSegments H base runs) := by
  induction runs generalizing base with
  | nil => trivial
  | cons frames rest ih =>
    cases rest with
    | nil => trivial
    | cons frames' rest => exact ⟨rfl, ih⟩

theorem readSegmentEntry_sealedSegments (hruns : ∀ frames ∈ runs, frames ≠ [])
    (hbound : base + runs.flatten.length ≤ maxU64)
    (h : segment ∈ sealedSegments H base runs) : readSegmentEntry segment.file = .ok segment := by
  induction runs generalizing base with
  | nil => cases h
  | cons frames rest ih =>
    rw [flatten_cons, length_append] at hbound
    have hpos := length_pos_iff.mpr (hruns frames mem_cons_self)
    rcases mem_cons.mp h with rfl | h
    · simp only [readSegmentEntry, storeFile,
        parseSealedSegmentName_walSealedSegmentName (show base + 1 ≤ maxU64 by omega)
            (show base + frames.length ≤ maxU64 by omega),
        guards_eq_ok]
      exact ⟨trivial, ⟨by omega, by omega⟩, trivial⟩
    · exact ih (fun f hf => hruns f (mem_cons_of_mem _ hf)) (by omega) h

end Sealed

/-! ### The fold over the retained frames -/

section Fold

variable {H : Blake2b256} {B : StoreBindings} {σ : Type} {chain : σ → ChainExpectation}
  {onFrame : σ → WalFrame → Except WalError σ}

theorem Expects.foldlM (hadv : AdvancesChain chain onFrame) {frames : List WalFrameValue} :
    ∀ {sequence : ℕ} {previous : Bytes} {s s' : σ}, IsChain H B sequence previous frames →
    Expects (chain s) sequence previous → (frames.map (·.decoded H)).foldlM onFrame s = .ok s' →
    Expects (chain s') (sequence + frames.length) (chainHash H previous frames) := by
  induction frames with
  | nil =>
    intro sequence previous s s' _ hs h
    cases h
    exact hs
  | cons v frames ih =>
    intro sequence previous s s' hchain hs h
    obtain ⟨rfl, rfl, -, hrest⟩ := hchain
    rw [map_cons, foldlM_cons, bind_eq_ok] at h
    obtain ⟨s₁, hframe, h⟩ := h
    have hnext : Expects (chain s₁) (v.sequence + 1) (v.walHash H) := by
      rw [hadv _ _ _ hframe]
      exact ⟨rfl, .inr rfl⟩
    have := ih hrest hnext h
    rwa [Nat.add_right_comm] at this

variable {anchor : Option WalAnchor} {replayCoveredFrames : Bool}

theorem recoverFrame_eq_ok {s s' : RecoveryState} {frame : WalFrame}
    (h : recoverFrame anchor replayCoveredFrames s frame = .ok s') :
    s'.chain = ⟨frame.sequence + 1, some frame.walHash⟩ ∧ s'.walSequence = frame.sequence ∧
      s'.walHash = frame.walHash := by
  simp only [recoverFrame, guards_eq_ok] at h
  obtain ⟨-, rfl⟩ := h
  exact ⟨rfl, rfl, rfl⟩

theorem advancesChain_recoverFrame (anchor : Option WalAnchor) (replayCoveredFrames : Bool) :
    AdvancesChain RecoveryState.chain (recoverFrame anchor replayCoveredFrames) :=
  fun _ _ _ h => (recoverFrame_eq_ok h).1

theorem head_of_foldlM {frames : List WalFrameValue} :
    ∀ {base : ℕ} {previous : Bytes} {s s' : RecoveryState}, IsChain H B (base + 1) previous frames →
    frames ≠ [] ∨ s.walSequence = base ∧ s.walHash = previous →
    (frames.map (·.decoded H)).foldlM (recoverFrame anchor replayCoveredFrames) s = .ok s' →
    s'.walSequence = base + frames.length ∧ s'.walHash = chainHash H previous frames := by
  induction frames with
  | nil =>
    intro base previous s s' _ hs h
    cases h
    exact hs.resolve_left fun h => h rfl
  | cons v frames ih =>
    intro base previous s s' hchain _ h
    obtain ⟨hseq, -, -, hrest⟩ := hchain
    rw [map_cons, foldlM_cons, bind_eq_ok] at h
    obtain ⟨s₁, hframe, h⟩ := h
    obtain ⟨-, hsequence, hhash⟩ := recoverFrame_eq_ok hframe
    have := ih hrest (.inr ⟨hsequence.trans hseq, hhash⟩) h
    rw [length_cons, chainHash_cons, ← this.2, this.1]
    exact ⟨by omega, rfl⟩

theorem foldlM_recoverFrame_none (replayCoveredFrames : Bool) (frames : List WalFrame) (s : RecoveryState) :
    ∃ s', frames.foldlM (recoverFrame none replayCoveredFrames) s = .ok s' ∧ s'.applied = s.applied ++ frames := by
  induction frames generalizing s with
  | nil => exact ⟨s, rfl, (append_nil _).symm⟩
  | cons frame frames ih =>
    rw [foldlM_cons, recoverFrame_none]
    obtain ⟨s', hfold, happlied⟩ := ih _
    exact ⟨s', hfold, by rw [happlied, append_assoc]; rfl⟩

/-- With an anchor the fold succeeds if the frame at the anchor carries its hash; it verifies the
anchor if it meets that frame, and applies the frames past it. -/
theorem foldlM_recoverFrame_some {a : WalAnchor} (frames : List WalFrame) (s : RecoveryState)
    (hpin : ∀ frame ∈ frames, frame.sequence = a.sequence → frame.walHash = a.hash) :
    ∃ s', frames.foldlM (recoverFrame (some a) false) s = .ok s' ∧
      s'.applied = s.applied ++ frames.filter (fun f => a.sequence < f.sequence) ∧
      (s'.anchorVerified = true ↔ s.anchorVerified = true ∨ ∃ frame ∈ frames, frame.sequence = a.sequence) := by
  induction frames generalizing s with
  | nil => exact ⟨s, rfl, by simp, by simp⟩
  | cons frame frames ih =>
    rw [foldlM_cons, recoverFrame_some fun _ => hpin frame mem_cons_self]
    obtain ⟨s', hfold, happlied, hverified⟩ := ih _ fun f hf => hpin f (mem_cons_of_mem _ hf)
    refine ⟨s', hfold, ?_, ?_⟩
    · rw [happlied]
      by_cases hle : frame.sequence ≤ a.sequence
      · simp [hle]
      · simp [hle, Nat.not_le.mp hle]
    · rw [hverified]
      simp [or_assoc]

end Fold

/-! ### Recovery of the files -/

section Recover

variable {H : Blake2b256} {B : StoreBindings} {base : ℕ} {previous : Bytes}
  {runs : List (List WalFrameValue)} {live rest : List WalFrameValue} {tail : Bytes}
  {directory : ControlDirectory} {anchor : Option WalAnchor} {replayCoveredFrames : Bool}

theorem recoverSealed_chain (hruns : ∀ frames ∈ runs, frames ≠ []) :
    ∀ {base : ℕ} {previous : Bytes} {s : RecoveryState},
    IsChain H B (base + 1) previous runs.flatten → Expects s.chain (base + 1) previous →
    recoverSealed H B anchor replayCoveredFrames (sealedSegments H base runs) s =
      (runs.flatten.map (·.decoded H)).foldlM (recoverFrame anchor replayCoveredFrames) s := by
  induction runs with
  | nil => intro base previous s _ _; rfl
  | cons frames runs ih =>
    intro base previous s hchain hs
    rw [flatten_cons, isChain_append, Nat.add_right_comm] at hchain
    obtain ⟨hframes, hrest⟩ := hchain
    have hscan := scanSegmentFrames_chain (advancesChain_recoverFrame anchor replayCoveredFrames)
      true (.inl rfl) hframes hs
    rw [append_nil, if_pos rfl] at hscan
    rw [sealedSegments, recoverSealed, require_of hs.1.symm,
      require_of (show (storeFile _ _).ownedPrivate = true from rfl), flatten_cons,
      map_append, foldlM_append]
    change (scanSegmentFrames H B RecoveryState.chain (recoverFrame anchor replayCoveredFrames) true
      (chainBytes H frames) s >>= _) = _
    rw [hscan]
    cases hfold : (frames.map (·.decoded H)).foldlM (recoverFrame anchor replayCoveredFrames) s with
    | error e => rfl
    | ok s' =>
      have hnext := hs.foldlM (advancesChain_recoverFrame _ _) hframes hfold
      rw [Nat.add_right_comm] at hnext
      change (require (s'.chain.expectedSequence = base + frames.length + 1) _ >>= fun _ => _) = _
      rw [require_of hnext.1]
      exact ih (fun f hf => hruns f (mem_cons_of_mem _ hf)) hrest hnext

/-- A control directory that holds the frames `runs` in sealed segments and `live`, followed by
`tail`, in the live one. -/
structure Retains (H : Blake2b256) (B : StoreBindings) (base : ℕ) (previous : Bytes)
    (runs : List (List WalFrameValue)) (live rest : List WalFrameValue) (tail : Bytes)
    (directory : ControlDirectory) : Prop where
  chain : IsChain H B (base + 1) previous (runs.flatten ++ (live ++ rest))
  bound : base ≤ maxU64
  genesis : base = 0 → previous = zero32
  runs_nonempty : ∀ frames ∈ runs, frames ≠ []
  torn : IsTornTail H rest tail
  entries : (directory.entries.filter fun e => IsSegmentEntry e).Perm
    ((sealedSegments H base runs).map SealedSegment.file)
  live_private : (directory.live.map (·.ownedPrivate)).getD true = true
  live_content : (directory.live.map (·.content)).getD [] = chainBytes H live ++ tail

theorem Retains.chain_whole (h : Retains H B base previous runs live rest tail directory) :
    IsChain H B (base + 1) previous (runs.flatten ++ live) := by
  have := h.chain
  rw [← append_assoc, isChain_append] at this
  exact this.1

theorem Retains.tornAt (h : Retains H B base previous runs live rest tail directory) : tail = [] ∨ TornAt B tail := by
  rcases h.torn with hnil | ⟨v, more, n, rfl, rfl, hpos, hn⟩
  · exact .inl hnil
  · exact .inr ((h.chain.writtenBy (by simp)).tornAt hpos hn)

theorem Retains.enumerate (h : Retains H B base previous runs live rest tail directory) :
    enumerateWalSegments directory.entries = .ok (sealedSegments H base runs) := by
  have hbound := h.chain_whole.length_le h.bound
  rw [length_append] at hbound
  exact enumerateWalSegments_of_perm h.entries
    (fun segment hmem => readSegmentEntry_sealedSegments h.runs_nonempty (by omega) hmem)
    (sealedSegments_pairwise h.runs_nonempty) sealedSegments_contiguous

theorem peekLiveFirstSequence_frame {v : WalFrameValue} (hv : WrittenBy B v) (more : Bytes) :
    peekLiveFirstSequence B (frameBytes H v ++ more) = .ok v.sequence := by
  have hle : ¬ (frameBytes H v ++ more).length < walHeaderBytes := by
    rw [length_append, hv.length_frameBytes]
    simp only [walHeaderBytes, walMinFrameBytes]
    omega
  rw [peekLiveFirstSequence, if_neg hle, hv.inspectHeader]
  rfl

theorem peekLiveFirstSequence_torn {sequence : ℕ}
    (hchain : IsChain H B sequence previous rest) (htorn : IsTornTail H rest tail) :
    peekLiveFirstSequence B tail = .ok 1 ∧ tail.length < walHeaderBytes ∨
      peekLiveFirstSequence B tail = .ok sequence ∧ walHeaderBytes ≤ tail.length := by
  by_cases hshort : tail.length < walHeaderBytes
  · exact .inl ⟨by rw [peekLiveFirstSequence, if_pos hshort], hshort⟩
  rcases htorn with rfl | ⟨v, more, n, rfl, rfl, hpos, hn⟩
  · exact absurd (show ([] : Bytes).length < walHeaderBytes by decide) hshort
  · have hle : walHeaderBytes ≤ n := by
      rw [length_take] at hshort
      omega
    obtain ⟨rfl, -, hv, -⟩ := hchain
    have hinspect := hv.inspectHeader_take (H := H) hle []
    rw [append_nil] at hinspect
    refine .inr ⟨?_, Nat.not_lt.mp hshort⟩
    rw [peekLiveFirstSequence, if_neg hshort, hinspect]
    rfl

theorem Retains.firstRetained (h : Retains H B base previous runs live rest tail directory)
    (hne : runs.flatten ++ live ≠ [] ∨ base = 0) :
    firstRetainedSequence B (sealedSegments H base runs) (chainBytes H live ++ tail) = .ok (base + 1) := by
  cases runs with
  | cons frames runs => rfl
  | nil =>
    change peekLiveFirstSequence B (chainBytes H live ++ tail) = .ok (base + 1)
    have hchain := h.chain
    cases live with
    | cons v live =>
      obtain ⟨hseq, -, hv, -⟩ := hchain
      rw [chainBytes_cons, append_assoc, peekLiveFirstSequence_frame hv, hseq]
    | nil =>
      have hbase : base = 0 := hne.resolve_left fun h => h rfl
      subst hbase
      rcases peekLiveFirstSequence_torn hchain h.torn with ⟨hpeek, -⟩ | ⟨hpeek, -⟩
      · exact hpeek
      · exact hpeek

theorem Retains.hasCompleteFrame_iff (h : Retains H B base previous runs live rest tail directory) :
    HasCompleteFrame B directory ↔ runs.flatten ++ live ≠ [] := by
  have hsealed : (∃ entry ∈ directory.entries, IsSegmentEntry entry) ↔ runs.flatten ≠ [] := by
    have hlength := h.entries.length_eq
    have hfilter : (∃ entry ∈ directory.entries, IsSegmentEntry entry) ↔
        0 < (directory.entries.filter fun e => IsSegmentEntry e).length := by
      simp
    rw [hfilter, hlength, length_map]
    cases runs with
    | nil => simp [sealedSegments]
    | cons frames runs =>
      have := h.runs_nonempty frames mem_cons_self
      simp [sealedSegments, this]
  have hlive : HoldsFrame B (chainBytes H live ++ tail) ↔ live ≠ [] := by
    cases live with
    | nil =>
      refine iff_of_false ?_ fun h => h rfl
      rw [chainBytes_nil, nil_append]
      rcases h.tornAt with rfl | htorn
      · exact fun hholds => absurd hholds.1 (by decide)
      · exact htorn.not_holdsFrame
    | cons v live =>
      refine iff_of_true ?_ (cons_ne_nil _ _)
      have hv : WrittenBy B v := h.chain.writtenBy (by simp)
      have hlength := hv.length_frameBytes (H := H)
      rw [chainBytes_cons, append_assoc]
      refine ⟨?_, _, hv.inspectHeader _, ?_⟩
      · rw [length_append, hlength]
        simp only [walHeaderBytes, walMinFrameBytes]
        omega
      · rw [length_append, hlength]
        exact Nat.le_add_right _ _
  rw [HasCompleteFrame, h.live_content, hsealed, hlive]
  simp only [ne_eq, append_eq_nil_iff]
  exact not_and_or.symm

/-- The store a recovery leaves on retained files, given the state its fold ends in. -/
def openedWal (H : Blake2b256) (base : ℕ) (runs : List (List WalFrameValue))
    (live : List WalFrameValue) (tail : Bytes) (s : RecoveryState) : OpenedWal where
  __ := s
  segments := sealedSegments H base runs
  liveSegmentFirstSequence := base + runs.flatten.length + 1
  walOffset := (chainBytes H live).length
  live := chainBytes H live
  truncatedAt := if tail = [] then none else some (chainBytes H live).length

/-- **Recovery of a retained history is the fold over its frames.** -/
theorem Retains.recover (h : Retains H B base previous runs live rest tail directory)
    (hne : runs.flatten ++ live ≠ [] ∨ base = 0)
    (hexpects : Expects (recoveryStart anchor (base + 1)).chain (base + 1) previous)
    {s : RecoveryState} (hrange : checkFirstRetained (base + 1) anchor = .ok ())
    (hfold : ((runs.flatten ++ live).map (·.decoded H)).foldlM
      (recoverFrame anchor replayCoveredFrames) (recoveryStart anchor (base + 1)) = .ok s)
    (hverified : anchor.isNone ∨ s.anchorVerified = true) :
    recover H B directory anchor replayCoveredFrames = .ok (openedWal H base runs live tail s) := by
  have hchain := h.chain_whole
  rw [isChain_append, Nat.add_right_comm] at hchain
  rw [map_append, foldlM_append, bind_eq_ok] at hfold
  obtain ⟨s₁, hsealed, hlive⟩ := hfold
  have hnext := hexpects.foldlM (advancesChain_recoverFrame _ _) hchain.1 hsealed
  rw [Nat.add_right_comm] at hnext
  have hscan := scanSegmentFrames_chain (advancesChain_recoverFrame anchor replayCoveredFrames) false
    (h.tornAt.imp_right fun h => ⟨rfl, h⟩) hchain.2 hnext
  rw [hlive] at hscan
  rw [← recoverSealed_chain h.runs_nonempty hchain.1 hexpects] at hsealed
  rw [recover_of h.live_private h.live_content h.enumerate (h.firstRetained hne) hrange hsealed hscan
    hverified, openedWal, hnext.1]
  by_cases hnil : tail = []
  · simp [hnil, truncateTornTail]
  · simp [hnil, truncateTornTail]

variable {o : OpenedWal}

theorem recover_eq_ok (h : Wal.recover H B directory anchor replayCoveredFrames = .ok o) :
    ∃ segments first s scanned, enumerateWalSegments directory.entries = .ok segments ∧
      firstRetainedSequence B segments ((directory.live.map (·.content)).getD []) = .ok first ∧
      checkFirstRetained first anchor = .ok () ∧
      recoverSealed H B anchor replayCoveredFrames segments (recoveryStart anchor first) = .ok s ∧
      scanSegmentFrames H B RecoveryState.chain (recoverFrame anchor replayCoveredFrames) false
        ((directory.live.map (·.content)).getD []) s = .ok scanned ∧
      (anchor.isNone ∨ scanned.state.anchorVerified = true) ∧
      o.walSequence = scanned.state.walSequence := by
  simp only [Wal.recover, guards_eq_ok] at h
  obtain ⟨-, segments, hsegments, first, hfirst, u, hrange, s, hs, scanned, hscan, hverified, rfl⟩ := h
  exact ⟨segments, first, s, scanned, hsegments, hfirst, hrange, hs, hscan, hverified, rfl⟩

theorem Retains.walSequence_of_nil (h : Retains H B base previous [] [] rest tail directory)
    (hok : Wal.recover H B directory anchor replayCoveredFrames = .ok o) :
    o.walSequence = 0 := by
  obtain ⟨segments, first, s, scanned, hsegments, -, -, hs, hscan, -, hsequence⟩ := recover_eq_ok hok
  cases h.enumerate.symm.trans hsegments
  cases hs
  rw [h.live_content, chainBytes_nil, nil_append, scanSegmentFrames] at hscan
  rcases h.tornAt with rfl | htorn
  · cases hscan
    exact hsequence
  · rw [scanFrom_torn htorn le_rfl] at hscan
    cases hscan
    exact hsequence

theorem Retains.expects_of_recover (h : Retains H B base previous runs live rest tail directory)
    (hne : runs.flatten ++ live ≠ [] ∨ base = 0)
    (hok : Wal.recover H B directory anchor replayCoveredFrames = .ok o) :
    checkFirstRetained (base + 1) anchor = .ok () ∧
      Expects (recoveryStart anchor (base + 1)).chain (base + 1) previous := by
  obtain ⟨segments, first, s, scanned, hsegments, hfirst, hrange, hs, hscan, -, -⟩ :=
    recover_eq_ok hok
  rw [h.live_content] at hfirst hscan
  cases h.enumerate.symm.trans hsegments
  cases (h.firstRetained hne).symm.trans hfirst
  refine ⟨hrange, ?_⟩
  have hchain := h.chain_whole
  cases runs with
  | cons frames runs =>
    cases frames with
    | nil => exact absurd rfl (h.runs_nonempty [] mem_cons_self)
    | cons v frames =>
      obtain ⟨hseq, hprevious, hv, -⟩ := hchain
      simp only [sealedSegments, recoverSealed, guards_eq_ok] at hs
      obtain ⟨-, -, r, hr, -⟩ := hs
      have hexpects := hv.expects_of_scan hr
      rwa [hseq, hprevious] at hexpects
  | nil =>
    cases hs
    cases live with
    | cons v live =>
      obtain ⟨hseq, hprevious, hv, -⟩ := hchain
      rw [chainBytes_cons, append_assoc] at hscan
      have hexpects := hv.expects_of_scan hscan
      rwa [hseq, hprevious] at hexpects
    | nil =>
      have hbase : base = 0 := hne.resolve_left fun h => h rfl
      subst hbase
      refine ⟨rfl, .inr ?_⟩
      rw [h.genesis rfl]
      cases anchor with
      | none => rfl
      | some a =>
        have hpositive : a.sequence ≠ 0 := a.sequence_range.1.ne'
        simp [recoveryStart, hpositive]

/-- **Whatever anchor recovery succeeds with**, the store it leaves has the last retained frame as
its head and holds exactly the retained files. -/
theorem Retains.recover_inv (h : Retains H B base previous runs live rest tail directory)
    (hne : runs.flatten ++ live ≠ [] ∨ base = 0)
    (hok : Wal.recover H B directory anchor replayCoveredFrames = .ok o) :
    ∃ s, o = openedWal H base runs live tail s ∧ s.walSequence = base + (runs.flatten ++ live).length ∧
      s.walHash = chainHash H previous (runs.flatten ++ live) := by
  obtain ⟨hrange, hexpects⟩ := h.expects_of_recover hne hok
  obtain ⟨segments, first, s, scanned, hsegments, hfirst, -, hs, hscan, hverified, -⟩ :=
    recover_eq_ok hok
  rw [h.live_content] at hfirst hscan
  cases h.enumerate.symm.trans hsegments
  cases (h.firstRetained hne).symm.trans hfirst
  have hchain := h.chain_whole
  rw [isChain_append, Nat.add_right_comm] at hchain
  rw [recoverSealed_chain h.runs_nonempty hchain.1 hexpects] at hs
  have hnext := hexpects.foldlM (advancesChain_recoverFrame _ _) hchain.1 hs
  rw [Nat.add_right_comm] at hnext
  rw [scanSegmentFrames_chain (advancesChain_recoverFrame anchor replayCoveredFrames) false
    (h.tornAt.imp_right fun h => ⟨rfl, h⟩) hchain.2 hnext, bind_eq_ok] at hscan
  obtain ⟨s', hlive, hstate⟩ := hscan
  cases hstate
  have hfold : ((runs.flatten ++ live).map (·.decoded H)).foldlM
      (recoverFrame anchor replayCoveredFrames) (recoveryStart anchor (base + 1)) = .ok s' := by
    rw [map_append, foldlM_append, bind_eq_ok]
    exact ⟨s, hs, hlive⟩
  have hopened := h.recover hne hexpects hrange hfold hverified
  rw [hok] at hopened
  refine ⟨s', Except.ok.inj hopened, head_of_foldlM h.chain_whole ?_ hfold⟩
  refine hne.imp_right fun hbase => ?_
  subst hbase
  rw [h.genesis rfl]
  exact ⟨rfl, rfl⟩

end Recover

end HiveRelay.Wal
