import HiveRelay.Wal.Recovery

/-!
# The mutation-free recovery scanner

`scanBlindWalV2ForAnchoredRecovery` of `packages/blind-daemon/wal-recovery-scan.js`: a second walker
over the same files, written separately from the writer's own recovery, that never truncates and
hands every frame past the checkpoint to a shadow callback. It checks a header's bindings before it
knows whether the frame is complete, bounds the work it will do, and keeps its own head.

Its result is what a recovery is validated against before the writer is allowed to open, so the two
walkers have to classify every byte string alike. They do, up to one defect that both share: each
sets its head only when it visits a frame. When no sealed segment is left and the live segment ends
inside its own first frame, the checkpoint is already found, no frame is ever visited, and the head
stays at zero, behind the checkpoint.

## Main definitions

* `Agrees` — scanner and writer are at one point
* `OpensAsScanned` — the writer opens in the state of the scan

## Main results

* `recover_of_scan` — whenever there is one
* `opensAsScanned_iff` — when the head is right, too
-/

namespace HiveRelay.Wal

open HiveRelay.Except List
open Bytes

/-- The work bounds the scanner is called with. -/
structure ScanLimits where
  (maximumWalBytes maximumWalFrames : ℕ)

/-- The variables of the scanner's loop. `replayed` logs the calls of `applyShadowFrame`, each with
the offset of its frame. -/
structure ShadowScan where
  chain : ChainExpectation
  completeFrameCount : ℕ
  checkpointFound : Bool
  checkpointEndOffset : Option ℕ
  headSequence : ℕ
  headHash : Bytes
  headEndOffset : ℕ
  replayed : List (WalFrame × ℕ)
  tornTailOffset : Option ℕ

def assertHeaderBindings (B : StoreBindings) (chain : ChainExpectation) (header : WalHeader) :
    Except WalError Unit := do
  require (header.sequence = chain.expectedSequence) (.integrity "WAL sequence gap or fork")
  require (header.previousWalHash = chain.expectedPreviousWalHash.getD header.previousWalHash)
    (.integrity "WAL predecessor hash fork")
  require (header.durabilityContinuityHash = B.durabilityContinuityHash)
    (.integrity "WAL durability continuity binding mismatch")
  require (header.mapGeneration = B.mapGeneration ∧ header.ownerFenceTokenHash = B.ownerFenceTokenHash)
    (.integrity "WAL bucket-map generation or writer fence does not match recovery authority")

/-- The part of a turn that runs once a frame has been decoded. -/
def shadowFrame (anchor : WalAnchor) (s : ShadowScan) (offset : ℕ) (frame : WalFrame) :
    Except WalError ShadowScan := do
  let nextOffset := offset + frame.frameBytes
  let visited := { s with
    completeFrameCount := s.completeFrameCount + 1
    headSequence := frame.sequence
    headHash := frame.walHash
    headEndOffset := nextOffset
    chain := ⟨frame.sequence + 1, some frame.walHash⟩ }
  if s.checkpointFound = false ∧ frame.sequence = anchor.sequence then
    require (frame.walHash = anchor.hash) (.integrity "WAL checkpoint hash does not match its exact sequence")
    return { visited with checkpointFound := true, checkpointEndOffset := some nextOffset }
  else if anchor.sequence < frame.sequence then
    require (s.checkpointFound = true) (.integrity "WAL crossed an unverified checkpoint anchor")
    return { visited with replayed := s.replayed ++ [(frame, offset)] }
  else return visited

section Loop

variable (H : Blake2b256) (B : StoreBindings) (limits : ScanLimits) (anchor : WalAnchor)

/-- The `while` loop over one file. -/
def scanFile (isSealed : Bool) : (fuel : ℕ) → (rest : Bytes) → (offset : ℕ) → ShadowScan → Except WalError ShadowScan
  | 0, _, _, s => .ok s
  | fuel + 1, rest, offset, s =>
    if rest = [] then .ok s
    else if rest.length < walHeaderBytes then
      if isSealed then .error (.integrity "sealed WAL segment ends inside a frame header")
      else .ok { s with tornTailOffset := some offset }
    else do
      let header ← inspectHeader (rest.window 0 walHeaderBytes) B.maximumWalPayloadBytes
      assertHeaderBindings B s.chain header
      if rest.length < header.totalLength then
        if isSealed then .error (.integrity "sealed WAL segment ends inside a frame")
        else .ok { s with tornTailOffset := some offset }
      else
        require (s.completeFrameCount < limits.maximumWalFrames)
          (.bounds "WAL complete frame count exceeds maximumWalFrames")
        let frame ← decodeFrame H (rest.take header.totalLength) s.chain.expectedSequence
          (s.chain.expectedPreviousWalHash.getD header.previousWalHash)
          B.durabilityContinuityHash B.maximumWalPayloadBytes
        require (frame.mapGeneration = B.mapGeneration ∧ frame.ownerFenceTokenHash = B.ownerFenceTokenHash)
          (.integrity "WAL bucket-map generation or writer fence does not match recovery authority")
        let s' ← shadowFrame anchor s offset frame
        scanFile isSealed fuel (rest.drop header.totalLength) (offset + frame.frameBytes) s'

/-- The sealed files of the `for` loop, with the range checks around each. -/
def scanSealedFiles : List SealedSegment → ShadowScan → Except WalError ShadowScan
  | [], s => .ok s
  | segment :: rest, s => do
    require (segment.firstSequence = s.chain.expectedSequence) (.integrity "WAL segment chain has an interior gap")
    let s' ← scanFile H B limits anchor true segment.file.content.length segment.file.content 0 s
    require (s'.chain.expectedSequence = segment.lastSequence + 1)
      (.integrity "sealed WAL segment does not contain its sealed sequence range")
    scanSealedFiles rest s'

end Loop

/-- The first retained sequence as the scanner finds it. -/
def scanFirstRetained (B : StoreBindings) (segments : List SealedSegment) (live : Option Bytes) :
    Except WalError ℕ :=
  match segments, live with
  | segment :: _, _ => .ok segment.firstSequence
  | [], none => .ok 1
  | [], some live =>
    if walHeaderBytes ≤ live.length then do
      let header ← inspectHeader (live.window 0 walHeaderBytes) B.maximumWalPayloadBytes
      return header.sequence
    else .ok 1

/-- The variables at the head of the scanner's loop. -/
def shadowStart (anchor : WalAnchor) (first : ℕ) : ShadowScan :=
  let boundary := decide (first = anchor.sequence + 1)
  { chain := ⟨first, if boundary then some anchor.hash
      else if first = 1 then some zero32 else none⟩
    completeFrameCount := 0
    checkpointFound := boundary
    checkpointEndOffset := if boundary then some 0 else none
    headSequence := 0
    headHash := zero32
    headEndOffset := 0
    replayed := []
    tornTailOffset := none }

/-- `scanBlindWalV2ForAnchoredRecovery`, with the fields of its result that describe the WAL. -/
def scanForAnchoredRecovery (H : Blake2b256) (B : StoreBindings) (limits : ScanLimits)
    (directory : ControlDirectory) (anchor : WalAnchor) : Except WalError ShadowScan := do
  require (anchor.sequence ≤ limits.maximumWalFrames) (.bounds "checkpoint sequence exceeds maximumWalFrames")
  let segments ← enumerateWalSegments directory.entries
  require (∀ segment ∈ segments, segment.file.ownedPrivate = true)
    (.integrity "WAL recovery segment file must have private owner-only mode")
  -- a missing live segment is the crash window between seal and re-creation; with no sealed
  -- segment beside it there is no WAL at all
  require (directory.live.isSome ∨ segments ≠ []) (.system "ENOENT")
  require ((directory.live.map (·.ownedPrivate)).getD true = true)
    (.integrity "WAL recovery file must have private owner-only mode")
  let live := directory.live.map (·.content)
  let observedWalBytes := (segments.map fun s => s.file.content.length).sum + (live.getD []).length
  require (observedWalBytes ≤ limits.maximumWalBytes) (.bounds "WAL byte length exceeds maximumWalBytes")
  let first ← scanFirstRetained B segments live
  require (first ≤ anchor.sequence + 1) (.integrity "WAL begins after the checkpoint anchor")
  let s ← scanSealedFiles H B limits anchor segments (shadowStart anchor first)
  let r ← scanFile H B limits anchor false (live.getD []).length (live.getD []) 0 s
  require (r.checkpointFound = true) (.integrity "WAL did not contain the exact complete checkpoint anchor")
  return r

/-! ### What one walk of the scanner can do -/

section Simulation

variable {H : Blake2b256} {B : StoreBindings} {limits : ScanLimits} {anchor : WalAnchor}

variable {isSealed : Bool} {fuel offset : ℕ} {s s' : ShadowScan}

/-- A turn of the scanner's loop that succeeds: the file is finished, the live tail is torn, or a
whole frame was visited and the loop goes on behind it. -/
theorem scanFile_cases {rest : Bytes} (h : scanFile H B limits anchor isSealed (fuel + 1) rest offset s = .ok s') :
    (rest = [] ∧ s' = s) ∨
    (isSealed = false ∧ TornAt B rest ∧ s' = { s with tornTailOffset := some offset }) ∨
    ∃ header frame visited, walHeaderBytes ≤ rest.length ∧
      inspectHeader (rest.window 0 walHeaderBytes) B.maximumWalPayloadBytes = .ok header ∧
      header.totalLength ≤ rest.length ∧
      decodeFrame H (rest.take header.totalLength) s.chain.expectedSequence
        (s.chain.expectedPreviousWalHash.getD header.previousWalHash)
        B.durabilityContinuityHash B.maximumWalPayloadBytes = .ok frame ∧
      (frame.mapGeneration = B.mapGeneration ∧ frame.ownerFenceTokenHash = B.ownerFenceTokenHash) ∧
      shadowFrame anchor s offset frame = .ok visited ∧
      scanFile H B limits anchor isSealed fuel (rest.drop header.totalLength)
        (offset + header.totalLength) visited = .ok s' := by
  rw [scanFile] at h
  by_cases hnil : rest = []
  · rw [if_pos hnil] at h
    exact .inl ⟨hnil, (Except.ok.inj h).symm⟩
  rw [if_neg hnil] at h
  by_cases hshort : rest.length < walHeaderBytes
  · rw [if_pos hshort] at h
    cases isSealed with
    | true => cases h
    | false => exact .inr (.inl ⟨rfl, ⟨hnil, .inl hshort⟩, (Except.ok.inj h).symm⟩)
  rw [if_neg hshort] at h
  obtain ⟨header, hinspect, h⟩ := bind_eq_ok.mp h
  obtain ⟨-, -, h⟩ := bind_eq_ok.mp h
  by_cases htorn : rest.length < header.totalLength
  · rw [if_pos htorn] at h
    cases isSealed with
    | true => cases h
    | false =>
      exact .inr (.inl ⟨rfl, ⟨hnil, .inr ⟨Nat.not_lt.mp hshort, header, hinspect, htorn⟩⟩, (Except.ok.inj h).symm⟩)
  rw [if_neg htorn] at h
  simp only [guards_eq_ok] at h
  obtain ⟨-, frame, hdecode, hbind, visited, hvisit, hrest⟩ := h
  have hbytes : frame.frameBytes = header.totalLength := by
    rw [(decodeFrame_eq_ok hdecode).2.1, length_take]
    omega
  rw [hbytes] at hrest
  exact .inr (.inr ⟨header, frame, visited, Nat.not_lt.mp hshort, hinspect,
    Nat.not_lt.mp htorn, hdecode, hbind, hvisit, hrest⟩)

/-! ### The writer follows the scanner -/

/-- The scanner's variables and the writer's recovery state say the same. -/
structure Agrees (s : ShadowScan) (t : RecoveryState) : Prop where
  chain : t.chain = s.chain
  anchorVerified : t.anchorVerified = s.checkpointFound
  applied : t.applied = s.replayed.map Prod.fst
  walSequence : t.walSequence = s.headSequence
  walHash : t.walHash = s.headHash

variable {frame : WalFrame}

theorem shadowFrame_simulates {t : RecoveryState} (hst : Agrees s t) (h : shadowFrame anchor s offset frame = .ok s') :
    ∃ t', recoverFrame (some anchor) false t frame = .ok t' ∧ Agrees s' t' ∧
      s'.tornTailOffset = s.tornTailOffset := by
  unfold shadowFrame at h
  have hpin : t.anchorVerified = false → frame.sequence = anchor.sequence → frame.walHash = anchor.hash := by
    intro hv hseq
    rw [if_pos ⟨hst.anchorVerified ▸ hv, hseq⟩] at h
    simp only [guards_eq_ok] at h
    exact h.1
  refine ⟨_, recoverFrame_some hpin, ?_⟩
  split_ifs at h with hat hpast
  · simp only [guards_eq_ok] at h
    obtain ⟨-, rfl⟩ := h
    exact ⟨⟨rfl, by simp [hat.2], by simp [hat.2, hst.applied], rfl, rfl⟩, rfl⟩
  · simp only [guards_eq_ok] at h
    obtain ⟨hfound, rfl⟩ := h
    exact ⟨⟨rfl, by simp [hst.anchorVerified, hfound],
      by simp [Nat.not_le.mpr hpast, hst.applied], rfl, rfl⟩, rfl⟩
  · rw [pure_eq_ok_iff] at h
    subst h
    have hverified : (t.anchorVerified || decide (frame.sequence = anchor.sequence)) =
        s.checkpointFound := by
      rw [hst.anchorVerified]
      cases hfound : s.checkpointFound with
      | true => rfl
      | false => simpa [hfound] using hat
    exact ⟨⟨rfl, hverified, by simp [Nat.not_lt.mp hpast, hst.applied], rfl, rfl⟩, rfl⟩

/-- What a turn that visits a frame asks of the writer: the same decode and the same bindings. -/
theorem visitFrame_of_decode {rest : Bytes} {header : WalHeader}
    {t t' : RecoveryState} (hdecode : decodeFrame H (rest.take header.totalLength)
      t.chain.expectedSequence (t.chain.expectedPreviousWalHash.getD header.previousWalHash)
      B.durabilityContinuityHash B.maximumWalPayloadBytes = .ok frame)
    (hbind : frame.mapGeneration = B.mapGeneration ∧ frame.ownerFenceTokenHash = B.ownerFenceTokenHash)
    (hframe : recoverFrame (some anchor) false t frame = .ok t') :
    visitFrame H B RecoveryState.chain (recoverFrame (some anchor) false) rest header t = .ok t' := by
  simp only [visitFrame, guards_eq_ok]
  exact ⟨frame, hdecode, hbind, hframe⟩

/-- **One file.** A walk of the scanner is matched by a walk of the writer that ends in the same
state and cuts the live tail off exactly where the scanner saw it torn. -/
theorem scanFile_simulates :
    ∀ {rest : Bytes} {offset : ℕ} {s s' : ShadowScan} {t : RecoveryState}, rest.length ≤ fuel →
    Agrees s t → s.tornTailOffset = none →
    scanFile H B limits anchor isSealed fuel rest offset s = .ok s' →
    ∃ r, scanFrom H B RecoveryState.chain (recoverFrame (some anchor) false) isSealed fuel rest offset t = .ok r ∧
      Agrees s' r.state ∧ r.truncatedAt = s'.tornTailOffset ∧
      (isSealed = true → s'.tornTailOffset = none) := by
  induction fuel with
  | zero =>
    intro rest offset s s' t _ hst htorn h
    cases h
    exact ⟨_, rfl, hst, htorn.symm, fun _ => htorn⟩
  | succ fuel ih =>
    intro rest offset s s' t hfuel hst htorn h
    rcases scanFile_cases h with ⟨rfl, rfl⟩ | ⟨rfl, hfront, rfl⟩ |
      ⟨header, frame, visited, hle, hinspect, htotal, hdecode, hbind, hvisit, hrest⟩
    · exact ⟨_, scanFrom_nil _ _ _ _, hst, htorn.symm, fun _ => htorn⟩
    · exact ⟨_, scanFrom_torn hfront hfuel _ _,
        ⟨hst.chain, hst.anchorVerified, hst.applied, hst.walSequence, hst.walHash⟩, rfl,
        nofun⟩
    · obtain ⟨t', hframe, hagrees, hsame⟩ := shadowFrame_simulates hst hvisit
      rw [← hst.chain] at hdecode
      have hmin := walMinFrameBytes_le_of_inspectHeader hinspect
      have hfuel' : (rest.drop header.totalLength).length ≤ fuel := by
        rw [length_drop]
        simp only [walMinFrameBytes] at hmin
        omega
      rw [scanFrom_frame t isSealed offset hle hinspect htotal, visitFrame_of_decode hdecode hbind hframe]
      exact ih hfuel' hagrees (hsame.trans htorn) hrest

variable {segments : List SealedSegment}

/-- **The sealed files.** The scanner checks every file's ownership up front; the writer checks each
as it reaches it. -/
theorem scanSealedFiles_simulates : ∀ {s s' : ShadowScan} {t : RecoveryState},
    (∀ segment ∈ segments, segment.file.ownedPrivate = true) → Agrees s t →
    s.tornTailOffset = none → scanSealedFiles H B limits anchor segments s = .ok s' →
    ∃ t', recoverSealed H B (some anchor) false segments t = .ok t' ∧ Agrees s' t' ∧ s'.tornTailOffset = none := by
  induction segments with
  | nil =>
    intro s s' t _ hst htorn h
    cases h
    exact ⟨t, rfl, hst, htorn⟩
  | cons segment rest ih =>
    intro s s' t hprivate hst htorn h
    simp only [scanSealedFiles, guards_eq_ok] at h
    obtain ⟨hfirst, walked, hwalk, hlast, hrest⟩ := h
    obtain ⟨r, hscan, hagrees, -, hnone⟩ := scanFile_simulates le_rfl hst htorn hwalk
    obtain ⟨t', hrecover, hagrees', htorn'⟩ :=
      ih (fun x hx => hprivate x (mem_cons_of_mem _ hx)) hagrees (hnone rfl) hrest
    refine ⟨t', ?_, hagrees', htorn'⟩
    simp only [recoverSealed, guards_eq_ok]
    exact ⟨hst.chain ▸ hfirst, hprivate segment mem_cons_self, r, hscan, hagrees.chain ▸ hlast, hrecover⟩

/-! ### The scanner's head -/

/-- The scanner's variables while it walks: the checkpoint lies behind it once found, the head is
the frame just visited, and a head on the checkpoint carries its hash. -/
structure HeadInvariant (anchor : WalAnchor) (s : ShadowScan) : Prop where
  found : s.checkpointFound = true → anchor.sequence < s.chain.expectedSequence
  head : 0 < s.completeFrameCount → s.chain.expectedSequence = s.headSequence + 1
  unset : s.completeFrameCount = 0 → s.headSequence = 0
  pinned : 0 < s.completeFrameCount → s.checkpointFound = true →
    s.headSequence = anchor.sequence → s.headHash = anchor.hash

theorem shadowStart_headInvariant (anchor : WalAnchor) (first : ℕ) :
    HeadInvariant anchor (shadowStart anchor first) where
  found h := by
    have hfirst : first = anchor.sequence + 1 := of_decide_eq_true h
    change anchor.sequence < first
    omega
  head h := absurd h (lt_irrefl 0)
  unset _ := rfl
  pinned h := absurd h (lt_irrefl 0)

/-- Visiting a frame counts it and makes it the head, whichever way the checkpoint test goes. -/
theorem shadowFrame_spec (h : shadowFrame anchor s offset frame = .ok s') :
    s'.completeFrameCount = s.completeFrameCount + 1 ∧ s'.headSequence = frame.sequence ∧
      s'.headHash = frame.walHash ∧ s'.chain = ⟨frame.sequence + 1, some frame.walHash⟩ ∧
      (s'.checkpointFound = true → s.checkpointFound = true ∨
        frame.sequence = anchor.sequence ∧ frame.walHash = anchor.hash) := by
  unfold shadowFrame at h
  split_ifs at h with hat hpast
  · simp only [guards_eq_ok] at h
    obtain ⟨hhash, rfl⟩ := h
    exact ⟨rfl, rfl, rfl, rfl, fun _ => .inr ⟨hat.2, hhash⟩⟩
  · simp only [guards_eq_ok] at h
    obtain ⟨-, rfl⟩ := h
    exact ⟨rfl, rfl, rfl, rfl, .inl⟩
  · rw [pure_eq_ok_iff] at h
    subst h
    exact ⟨rfl, rfl, rfl, rfl, .inl⟩

theorem shadowFrame_headInvariant (hs : HeadInvariant anchor s) (hseq : frame.sequence = s.chain.expectedSequence)
    (h : shadowFrame anchor s offset frame = .ok s') : HeadInvariant anchor s' := by
  obtain ⟨hcount, hhead, hhash, hchain, hfound⟩ := shadowFrame_spec h
  refine ⟨fun hf => ?_, fun _ => by rw [hchain, hhead], fun hzero => by omega, fun _ hf hat => ?_⟩
  · rw [hchain]
    change anchor.sequence < frame.sequence + 1
    rcases hfound hf with hbefore | ⟨hat, -⟩
    · have := hs.found hbefore
      omega
    · omega
  · rcases hfound hf with hbefore | ⟨-, hpin⟩
    · have := hs.found hbefore
      omega
    · rw [hhash, hpin]

/-- A walk of one file keeps the invariant and only ever counts up; if it counted nothing, it moved
nothing but the torn-tail mark. -/
theorem scanFile_headInvariant : ∀ {rest : Bytes} {offset : ℕ} {s s' : ShadowScan}, HeadInvariant anchor s →
    scanFile H B limits anchor isSealed fuel rest offset s = .ok s' →
    HeadInvariant anchor s' ∧ s.completeFrameCount ≤ s'.completeFrameCount ∧
      (s'.completeFrameCount = s.completeFrameCount → s'.chain = s.chain) := by
  induction fuel with
  | zero =>
    intro rest offset s s' hs h
    cases h
    exact ⟨hs, le_rfl, fun _ => rfl⟩
  | succ fuel ih =>
    intro rest offset s s' hs h
    rcases scanFile_cases h with ⟨-, rfl⟩ | ⟨-, -, rfl⟩ |
      ⟨header, frame, visited, -, -, -, hdecode, -, hvisit, hrest⟩
    · exact ⟨hs, le_rfl, fun _ => rfl⟩
    · exact ⟨⟨hs.found, hs.head, hs.unset, hs.pinned⟩, le_rfl, fun _ => rfl⟩
    · have hvisited := shadowFrame_headInvariant hs (decodeFrame_eq_ok hdecode).1 hvisit
      obtain ⟨hinv, hmono, -⟩ := ih hvisited hrest
      have hcount := (shadowFrame_spec hvisit).1
      exact ⟨hinv, by omega, fun heq => by omega⟩

theorem scanSealedFiles_headInvariant :
    ∀ {s s' : ShadowScan}, (∀ segment ∈ segments, segment.firstSequence ≤ segment.lastSequence) →
    HeadInvariant anchor s → scanSealedFiles H B limits anchor segments s = .ok s' →
    HeadInvariant anchor s' ∧ s.completeFrameCount ≤ s'.completeFrameCount ∧
      (segments ≠ [] → s.completeFrameCount < s'.completeFrameCount) := by
  induction segments with
  | nil =>
    intro s s' _ hs h
    cases h
    exact ⟨hs, le_rfl, absurd rfl⟩
  | cons segment rest ih =>
    intro s s' hrange hs h
    simp only [scanSealedFiles, guards_eq_ok] at h
    obtain ⟨hfirst, walked, hwalk, hlast, hrest⟩ := h
    obtain ⟨hinv, hmono, hstill⟩ := scanFile_headInvariant hs hwalk
    obtain ⟨hinv', hmono', -⟩ := ih (fun x hx => hrange x (mem_cons_of_mem _ hx)) hinv hrest
    have hnonempty := hrange segment mem_cons_self
    -- a sealed file covers its declared range, so it cannot have been empty
    have hmoved : walked.completeFrameCount ≠ s.completeFrameCount := by
      intro heq
      rw [hstill heq, ← hfirst] at hlast
      omega
    exact ⟨hinv', by omega, fun _ => by omega⟩

theorem scanFile_counts {content : Bytes} (hfuel : content.length ≤ fuel) (hs : HeadInvariant anchor s)
    (h : scanFile H B limits anchor false fuel content offset s = .ok s') :
    s.completeFrameCount < s'.completeFrameCount ↔ HoldsFrame B content := by
  cases fuel with
  | zero =>
    have hnil : content = [] := length_eq_zero_iff.mp (Nat.le_zero.mp hfuel)
    cases h
    subst hnil
    simp [HoldsFrame, walHeaderBytes]
  | succ fuel =>
    rcases scanFile_cases h with ⟨rfl, rfl⟩ | ⟨-, htorn, rfl⟩ |
      ⟨header, frame, visited, hle, hinspect, htotal, hdecode, -, hvisit, hrest⟩
    · simp [HoldsFrame, walHeaderBytes]
    · exact iff_of_false (lt_irrefl _) htorn.not_holdsFrame
    · refine iff_of_true ?_ ⟨hle, header, hinspect, htotal⟩
      have hvisited := shadowFrame_headInvariant hs (decodeFrame_eq_ok hdecode).1 hvisit
      have hmono := (scanFile_headInvariant hvisited hrest).2.1
      have hcount := (shadowFrame_spec hvisit).1
      omega

/-! ### Agreement of the two walkers -/

/-- The store opened as the scanner announced: it applied the frames the scanner replayed, cut the
live segment at the scanner's torn tail, and its head is the scanner's, which is not behind the
checkpoint. -/
structure OpensAsScanned (directory : ControlDirectory) (anchor : WalAnchor) (r : ShadowScan)
    (o : OpenedWal) : Prop where
  applied : o.applied = r.replayed.map Prod.fst
  truncatedAt : o.truncatedAt = r.tornTailOffset
  live : o.live = truncateTornTail ((directory.live.map (·.content)).getD []) r.tornTailOffset
  walSequence : o.walSequence = r.headSequence
  walHash : o.walHash = r.headHash
  notBehind : anchor.sequence ≤ r.headSequence
  pinned : r.headSequence = anchor.sequence → r.headHash = anchor.hash

theorem scanFirstRetained_eq {live : Option Bytes} {first : ℕ} (h : scanFirstRetained B segments live = .ok first) :
    firstRetainedSequence B segments (live.getD []) = .ok first := by
  cases segments with
  | cons segment rest => exact h
  | nil =>
    cases live with
    | none => exact h
    | some live =>
      change peekLiveFirstSequence B live = .ok first
      simp only [scanFirstRetained] at h
      split_ifs at h with hle
      · rw [peekLiveFirstSequence, if_neg (Nat.not_lt.mpr hle)]
        exact h
      · rw [peekLiveFirstSequence, if_pos (Nat.not_le.mp hle)]
        exact h

theorem agrees_start (anchor : WalAnchor) (first : ℕ) :
    Agrees (shadowStart anchor first) (recoveryStart (some anchor) first) := by
  by_cases hfirst : first = anchor.sequence + 1
  · exact ⟨by simp [recoveryStart, shadowStart, hfirst], by simp [recoveryStart, shadowStart, hfirst], rfl, rfl, rfl⟩
  · exact ⟨by simp [recoveryStart, shadowStart, hfirst], by simp [recoveryStart, shadowStart, hfirst], rfl, rfl, rfl⟩

variable {directory : ControlDirectory} {r : ShadowScan}

theorem scanForAnchoredRecovery_eq_ok (h : scanForAnchoredRecovery H B limits directory anchor = .ok r) :
    ∃ segments first s, enumerateWalSegments directory.entries = .ok segments ∧
      (∀ segment ∈ segments, segment.file.ownedPrivate = true) ∧
      (directory.live.map (·.ownedPrivate)).getD true = true ∧
      firstRetainedSequence B segments ((directory.live.map (·.content)).getD []) = .ok first ∧
      first ≤ anchor.sequence + 1 ∧
      scanSealedFiles H B limits anchor segments (shadowStart anchor first) = .ok s ∧
      scanFile H B limits anchor false ((directory.live.map (·.content)).getD []).length
        ((directory.live.map (·.content)).getD []) 0 s = .ok r ∧
      r.checkpointFound = true := by
  simp only [scanForAnchoredRecovery, guards_eq_ok] at h
  obtain ⟨-, segments, hsegments, hprivate, -, hlive, -, first, hfirst, hrange, s, hs, r', hr, hfound, rfl⟩ := h
  exact ⟨segments, first, s, hsegments, hprivate, hlive, scanFirstRetained_eq hfirst, hrange, hs, hr, hfound⟩

/-- **The writer opens whatever the scanner accepted**, in the state the scanner ended in. -/
theorem recover_of_scan (h : scanForAnchoredRecovery H B limits directory anchor = .ok r) :
    ∃ o, recover H B directory (some anchor) false = .ok o ∧
      o.applied = r.replayed.map Prod.fst ∧ o.truncatedAt = r.tornTailOffset ∧
      o.live = truncateTornTail ((directory.live.map (·.content)).getD []) r.tornTailOffset ∧
      o.walSequence = r.headSequence ∧ o.walHash = r.headHash := by
  obtain ⟨segments, first, s, hsegments, hprivate, hlive, hfirst, hrange, hs, hr, hfound⟩ :=
    scanForAnchoredRecovery_eq_ok h
  obtain ⟨t, hsealed, hst, htorn⟩ :=
    scanSealedFiles_simulates hprivate (agrees_start anchor first) rfl hs
  obtain ⟨scanned, hscan, hagrees, hcut, -⟩ := scanFile_simulates le_rfl hst htorn hr
  refine ⟨_, recover_of hlive rfl hsegments hfirst (require_of hrange) hsealed hscan
    (.inr (hagrees.anchorVerified.trans hfound)), hagrees.applied, hcut, ?_, hagrees.walSequence,
    hagrees.walHash⟩
  simp only [hcut]

/-- **The scanner's head is not behind the checkpoint exactly when a frame is retained whole.** -/
theorem head_not_behind_iff (h : scanForAnchoredRecovery H B limits directory anchor = .ok r) :
    (anchor.sequence ≤ r.headSequence ↔ HasCompleteFrame B directory) ∧
      (HasCompleteFrame B directory → r.headSequence = anchor.sequence → r.headHash = anchor.hash) := by
  obtain ⟨segments, first, s, hsegments, -, -, -, -, hs, hr, hfound⟩ :=
    scanForAnchoredRecovery_eq_ok h
  obtain ⟨hranges, hnonempty⟩ := enumerateWalSegments_eq_ok hsegments
  obtain ⟨hinv, -, hsealed⟩ :=
    scanSealedFiles_headInvariant hranges (shadowStart_headInvariant anchor first) hs
  obtain ⟨hinv', hmono, -⟩ := scanFile_headInvariant hinv hr
  have hlive := scanFile_counts le_rfl hinv hr
  have hcount : 0 < r.completeFrameCount ↔ HasCompleteFrame B directory := by
    unfold HasCompleteFrame
    rw [← hnonempty, ← hlive]
    by_cases hnil : segments = []
    · subst hnil
      cases hs
      simp [shadowStart]
    · have := hsealed hnil
      exact iff_of_true (by omega) (.inl hnil)
  have hanchor := anchor.sequence_range.1
  refine ⟨?_, fun hcomplete => hinv'.pinned (hcount.mpr hcomplete) hfound⟩
  rw [← hcount]
  constructor
  · intro hle
    by_contra hzero
    have := hinv'.unset (by omega)
    omega
  · intro hpos
    have := hinv'.found hfound
    have := hinv'.head hpos
    omega

/-- **The scanner agrees with the writer's recovery exactly when some frame is retained whole.** -/
theorem opensAsScanned_iff {directory : ControlDirectory} {r : ShadowScan}
    (h : scanForAnchoredRecovery H B limits directory anchor = .ok r) :
    (∃ o, recover H B directory (some anchor) false = .ok o ∧
        OpensAsScanned directory anchor r o) ↔ HasCompleteFrame B directory := by
  obtain ⟨hhead, hpinned⟩ := head_not_behind_iff h
  constructor
  · rintro ⟨o, -, ho⟩
    exact hhead.mp ho.notBehind
  · intro hcomplete
    obtain ⟨o, hopen, happlied, hcut, hlive, hsequence, hhash⟩ := recover_of_scan h
    exact ⟨o, hopen, happlied, hcut, hlive, hsequence, hhash, hhead.mpr hcomplete, hpinned hcomplete⟩

end Simulation

/-! ### A head behind its checkpoint -/

/-- The first frame of a concrete log, all the others being pruned up to it. -/
def prunedFrame : Bytes := frameBytes polynomialDigest (sampleFrame 1 zero32)

/-- The checkpoint at the pruned frame. -/
def prunedAnchor : WalAnchor where
  sequence := 1
  hash := frameHash polynomialDigest prunedFrame
  sequence_range := one_inU64
  hash_nonzero := by decide +kernel

/-- The control directory after the checkpoint was pruned up to: the live segment holds the first
`kept` bytes of the second frame. -/
def prunedDirectory (kept : ℕ) : ControlDirectory where
  entries := []
  live := some (storeFile "wal.v2" ((frameBytes polynomialDigest (sampleFrame 2 prunedAnchor.hash)).take kept))

/-- With the second frame whole, the two walkers agree. -/
theorem opensAsScanned_whole : ∃ r, scanForAnchoredRecovery polynomialDigest sampleBindings
      ⟨1000, 10⟩ (prunedDirectory 225) prunedAnchor = .ok r ∧
    ∃ o, recover polynomialDigest sampleBindings (prunedDirectory 225) (some prunedAnchor) false =
      .ok o ∧ OpensAsScanned (prunedDirectory 225) prunedAnchor r o := by
  have hscan : (scanForAnchoredRecovery polynomialDigest sampleBindings ⟨1000, 10⟩
      (prunedDirectory 225) prunedAnchor).toOption.isSome = true := by decide +kernel
  cases hr : scanForAnchoredRecovery polynomialDigest sampleBindings ⟨1000, 10⟩
      (prunedDirectory 225) prunedAnchor with
  | error e =>
    rw [hr] at hscan
    cases hscan
  | ok r =>
    have hwhole : HasCompleteFrame sampleBindings (prunedDirectory 225) := by
      refine .inr ⟨by decide +kernel, (sampleFrame 2 prunedAnchor.hash).header polynomialDigest, ?_⟩
      decide +kernel
    exact ⟨r, rfl, (opensAsScanned_iff hr).mpr hwhole⟩

/-- With 200 bytes of it the scan still succeeds, and its head is behind the checkpoint. -/
theorem scan_head_behind_checkpoint :
    ¬ ∀ (H : Blake2b256) (B : StoreBindings) (limits : ScanLimits) (directory : ControlDirectory)
      (anchor : WalAnchor) (r : ShadowScan),
      scanForAnchoredRecovery H B limits directory anchor = .ok r →
      ∃ o, recover H B directory (some anchor) false = .ok o ∧
        OpensAsScanned directory anchor r o := by
  intro hclaim
  have hhead : ((scanForAnchoredRecovery polynomialDigest sampleBindings ⟨1000, 10⟩
      (prunedDirectory 200) prunedAnchor).map ShadowScan.headSequence).toOption = some 0 := by
    decide +kernel
  cases hr : scanForAnchoredRecovery polynomialDigest sampleBindings ⟨1000, 10⟩
      (prunedDirectory 200) prunedAnchor with
  | error e =>
    rw [hr] at hhead
    cases hhead
  | ok r =>
    rw [hr] at hhead
    have hzero : r.headSequence = 0 := Option.some.inj hhead
    obtain ⟨o, -, ho⟩ := hclaim _ _ _ _ _ _ hr
    have hbehind := ho.notBehind
    rw [hzero] at hbehind
    exact absurd hbehind (by decide)

end HiveRelay.Wal
