import HiveRelay.Wal.Segments

/-!
# Recovery of the segmented WAL

`#recover` of `transaction-store.js` and everything it calls: the walk over one segment
(`#scanSegmentFrames`), the peek at the first live header, and the rules that decide where the
retained history may begin and how a checkpoint anchor pins it.

The walker threads a caller's state through every frame. `#recover` and the prune-time anchor check
`#verifyWalPruneAnchor` are the two callers, so the walker is generic in that state: it only needs
to read the chain expectation out of it. In the source the expectation is a record `chain` that the
callback overwrites; here it is a projection of the state the callback returns.

Reads that come back short of the file's size are not modelled: the store is the only writer of its
files, so a file does not change while it is read.
-/

namespace HiveRelay.Wal

open Bytes

/-- The `chain` record: what the next frame has to continue. A missing predecessor hash is the
pruned boundary, where the first retained frame's own link is taken on trust. -/
structure ChainExpectation where
  expectedSequence : ℕ
  expectedPreviousWalHash : Option Bytes
  deriving DecidableEq

/-- The result of walking one segment: the caller's state, the length of the valid prefix, and the
offset at which a torn tail was cut off, if one was. -/
structure SegmentScan (σ : Type) where
  state : σ
  offset : ℕ
  truncatedAt : Option ℕ

section Scan

variable {σ : Type} (H : Blake2b256) (B : StoreBindings)
  (chain : σ → ChainExpectation) (onFrame : σ → WalFrame → Except WalError σ)

/-- One turn of the loop of `#scanSegmentFrames` that finds a complete frame at the front of
`rest`: decode it against the chain, check the writer's own bindings, hand it to the callback. -/
def visitFrame (rest : Bytes) (inspected : WalHeader) (s : σ) : Except WalError σ := do
  let frame ← decodeFrame H (rest.take inspected.totalLength) (chain s).expectedSequence
    ((chain s).expectedPreviousWalHash.getD inspected.previousWalHash)
    B.durabilityContinuityHash B.maximumWalPayloadBytes
  require (frame.mapGeneration = B.mapGeneration ∧ frame.ownerFenceTokenHash = B.ownerFenceTokenHash)
    (.integrity "WAL bucket-map generation or writer fence does not match this writer")
  onFrame s frame

/-- The loop of `#scanSegmentFrames`, from `offset` on; `rest` is what the file holds from there.
Every turn consumes at least the 224 bytes of an empty frame, so the length of `rest` is enough
fuel. -/
def scanFrom (isSealed : Bool) : (fuel : ℕ) → (rest : Bytes) → (offset : ℕ) → σ → Except WalError (SegmentScan σ)
  | 0, _, offset, s => .ok ⟨s, offset, none⟩
  | fuel + 1, rest, offset, s =>
    if rest = [] then .ok ⟨s, offset, none⟩
    else if rest.length < walHeaderBytes then
      if isSealed then .error (.integrity "sealed WAL segment ends inside a frame header")
      else .ok ⟨s, offset, some offset⟩
    else do
      let inspected ← inspectHeader (rest.window 0 walHeaderBytes) B.maximumWalPayloadBytes
      if rest.length < inspected.totalLength then
        if isSealed then .error (.integrity "sealed WAL segment ends inside a frame")
        else .ok ⟨s, offset, some offset⟩
      else
        let s' ← visitFrame H B chain onFrame rest inspected s
        scanFrom isSealed fuel (rest.drop inspected.totalLength) (offset + inspected.totalLength) s'

/-- The front of `rest` is a torn frame: fewer bytes than a header, or a whole header that
declares more bytes than there are. -/
def TornAt (B : StoreBindings) (rest : Bytes) : Prop :=
  rest ≠ [] ∧ (rest.length < walHeaderBytes ∨ walHeaderBytes ≤ rest.length ∧
    ∃ header, inspectHeader (rest.window 0 walHeaderBytes) B.maximumWalPayloadBytes = .ok header ∧
      rest.length < header.totalLength)

/-- The front of a file is a whole frame, as far as its header says. -/
def HoldsFrame (B : StoreBindings) (content : Bytes) : Prop :=
  walHeaderBytes ≤ content.length ∧
    ∃ header, inspectHeader (content.window 0 walHeaderBytes) B.maximumWalPayloadBytes = .ok header ∧
      header.totalLength ≤ content.length

variable {rest : Bytes}

theorem TornAt.not_holdsFrame (h : TornAt B rest) : ¬ HoldsFrame B rest := by
  rintro ⟨hle, header, hinspect, htotal⟩
  rcases h.2 with hshort | ⟨-, header', hinspect', hshort⟩
  · omega
  · cases hinspect.symm.trans hinspect'
    omega

/-- Some frame is retained whole: a sealed segment is left, or the live segment starts with a whole
frame. -/
def HasCompleteFrame (B : StoreBindings) (directory : ControlDirectory) : Prop :=
  (∃ entry ∈ directory.entries, IsSegmentEntry entry) ∨ HoldsFrame B ((directory.live.map (·.content)).getD [])

variable {H B chain onFrame} in
theorem scanFrom_nil (isSealed : Bool) (fuel offset : ℕ) (s : σ) :
    scanFrom H B chain onFrame isSealed fuel [] offset s = .ok ⟨s, offset, none⟩ := by
  cases fuel <;> rfl

variable {H B chain onFrame} in
theorem scanFrom_torn (h : TornAt B rest) {fuel : ℕ} (hf : rest.length ≤ fuel) (offset : ℕ) (s : σ) :
    scanFrom H B chain onFrame false fuel rest offset s = .ok ⟨s, offset, some offset⟩ := by
  obtain ⟨hne, htorn⟩ := h
  cases fuel with
  | zero => exact absurd (List.length_eq_zero_iff.mp (Nat.le_zero.mp hf)) hne
  | succ fuel =>
    rw [scanFrom, if_neg hne]
    rcases htorn with hshort | ⟨hle, header, hinspect, hshort⟩
    · rw [if_pos hshort]; rfl
    · rw [if_neg (Nat.not_lt.mpr hle), hinspect]
      exact if_pos hshort

variable {H B chain onFrame} in
theorem scanFrom_frame {header : WalHeader} {fuel : ℕ} (s : σ)
    (isSealed : Bool) (offset : ℕ) (hle : walHeaderBytes ≤ rest.length)
    (hinspect : inspectHeader (rest.window 0 walHeaderBytes) B.maximumWalPayloadBytes = .ok header)
    (htotal : header.totalLength ≤ rest.length) :
    scanFrom H B chain onFrame isSealed (fuel + 1) rest offset s =
      visitFrame H B chain onFrame rest header s >>= fun s' =>
        scanFrom H B chain onFrame isSealed fuel (rest.drop header.totalLength) (offset + header.totalLength) s' := by
  have hne : rest ≠ [] := by
    rintro rfl
    simp [walHeaderBytes] at hle
  rw [scanFrom, if_neg hne, if_neg (Nat.not_lt.mpr hle), hinspect]
  change (if rest.length < header.totalLength then _ else _) = _
  rw [if_neg (Nat.not_lt.mpr htotal)]

def scanSegmentFrames (isSealed : Bool) (content : Bytes) (s : σ) : Except WalError (SegmentScan σ) :=
  scanFrom H B chain onFrame isSealed content.length content 0 s

end Scan

/-! ### `#recover` -/

/-- A checkpoint anchor, normalized as `normalizeWalAnchorValue` leaves it. -/
structure WalAnchor where
  sequence : ℕ
  hash : Bytes
  sequence_range : 0 < sequence ∧ sequence ≤ maxU64
  hash_nonzero : hash.length = 32 ∧ isZero hash = false
  deriving DecidableEq

/-- The variables `#recover` threads through the walk, and the log of what it applied. -/
structure RecoveryState where
  chain : ChainExpectation
  anchorVerified : Bool
  applied : List WalFrame
  walSequence : ℕ
  walHash : Bytes

/-- The `onFrame` callback of `#recover`, for an `applyRecoveredFrame` that records its frame. -/
def recoverFrame (anchor : Option WalAnchor) (replayCoveredFrames : Bool) (s : RecoveryState)
    (frame : WalFrame) : Except WalError RecoveryState := do
  have atAnchor := match anchor with
    | some a => !s.anchorVerified && decide (frame.sequence = a.sequence)
    | none => false
  have hashMatches := match anchor with
    | some a => decide (frame.walHash = a.hash)
    | none => true
  require (atAnchor = false ∨ hashMatches = true) (.integrity "WAL checkpoint anchor hash mismatch")
  let covered := match anchor with
    | some a => decide (frame.sequence ≤ a.sequence)
    | none => false
  return {
    chain := ⟨frame.sequence + 1, some frame.walHash⟩
    anchorVerified := s.anchorVerified || atAnchor
    applied := if covered && !replayCoveredFrames then s.applied else s.applied ++ [frame]
    walSequence := frame.sequence
    walHash := frame.walHash }

theorem recoverFrame_none (replayCoveredFrames : Bool) (s : RecoveryState) (frame : WalFrame) :
    recoverFrame none replayCoveredFrames s frame = .ok {
      chain := ⟨frame.sequence + 1, some frame.walHash⟩
      anchorVerified := s.anchorVerified
      applied := s.applied ++ [frame]
      walSequence := frame.sequence
      walHash := frame.walHash } := by
  simp [recoverFrame, require, pure, Except.pure, bind, Except.bind]

/-- With an anchor the frame at it must carry its hash, and only the frames past it are applied. -/
theorem recoverFrame_some {a : WalAnchor} {s : RecoveryState} {frame : WalFrame}
    (h : s.anchorVerified = false → frame.sequence = a.sequence → frame.walHash = a.hash) :
    recoverFrame (some a) false s frame = .ok {
      chain := ⟨frame.sequence + 1, some frame.walHash⟩
      anchorVerified := s.anchorVerified || decide (frame.sequence = a.sequence)
      applied := if frame.sequence ≤ a.sequence then s.applied else s.applied ++ [frame]
      walSequence := frame.sequence
      walHash := frame.walHash } := by
  have hrequire : (!s.anchorVerified && decide (frame.sequence = a.sequence)) = false ∨
      decide (frame.walHash = a.hash) = true := by
    cases hv : s.anchorVerified with
    | true => exact .inl rfl
    | false =>
      by_cases hseq : frame.sequence = a.sequence
      · exact .inr (decide_eq_true (h hv hseq))
      · exact .inl (by simp [hseq])
  simp only [recoverFrame, require_of hrequire]
  cases s.anchorVerified <;> simp [pure, Except.pure, bind, Except.bind]

/-- `#replaySealedWalSegment` inside the loop of `#recover`, with the two range checks around it. -/
def recoverSealed (H : Blake2b256) (B : StoreBindings) (anchor : Option WalAnchor)
    (replayCoveredFrames : Bool) : List SealedSegment → RecoveryState →
    Except WalError RecoveryState
  | [], s => .ok s
  | segment :: rest, s => do
    require (segment.firstSequence = s.chain.expectedSequence) (.integrity "WAL segment chain has an interior gap")
    require (segment.file.ownedPrivate = true) (.integrity "sealed WAL segment must have private owner-only mode")
    let scanned ← scanSegmentFrames H B RecoveryState.chain (recoverFrame anchor replayCoveredFrames)
      true segment.file.content s
    require (scanned.state.chain.expectedSequence = segment.lastSequence + 1)
      (.integrity "sealed WAL segment does not contain its sealed sequence range")
    recoverSealed H B anchor replayCoveredFrames rest scanned.state

def peekLiveFirstSequence (B : StoreBindings) (live : Bytes) : Except WalError ℕ :=
  if live.length < walHeaderBytes then .ok 1
  else do
    let header ← inspectHeader (live.window 0 walHeaderBytes) B.maximumWalPayloadBytes
    return header.sequence

/-- The store after a successful open: the fields `#recover` assigns, the frames it applied and the
live segment as truncation left it. -/
structure OpenedWal where
  segments : List SealedSegment
  (liveSegmentFirstSequence walOffset walSequence : ℕ)
  walHash : Bytes
  applied : List WalFrame
  live : Bytes
  truncatedAt : Option ℕ

/-- `#truncateTornTail`, if the walk called it. -/
def truncateTornTail (live : Bytes) : Option ℕ → Bytes
  | some offset => live.take offset
  | none => live

/-- Where the retained history begins: the first sealed segment's name, or the first live header. -/
def firstRetainedSequence (B : StoreBindings) (segments : List SealedSegment) (live : Bytes) :
    Except WalError ℕ :=
  match segments with
  | [] => peekLiveFirstSequence B live
  | segment :: _ => .ok segment.firstSequence

/-- The state `#recover` enters the walk with. -/
def recoveryStart (anchor : Option WalAnchor) (first : ℕ) : RecoveryState :=
  let pinned := match anchor with
    | some a => if first = a.sequence + 1 then some a.hash else none
    | none => none
  { chain := ⟨first, if pinned.isSome then pinned else if first = 1 then some zero32 else none⟩
    anchorVerified := pinned.isSome
    applied := []
    walSequence := 0
    walHash := zero32 }

/-- Where the retained history may begin: at genesis without an anchor, and no later than just after
the anchor with one. -/
def checkFirstRetained (first : ℕ) : Option WalAnchor → Except WalError Unit
  | none => require (first = 1)
      (.integrity "WAL history begins after genesis without a checkpoint anchor")
  | some a => require (first ≤ a.sequence + 1) (.integrity "WAL begins after the checkpoint anchor")

/-- `#recover`, on the directory `_open` leaves: a missing live segment was created empty by
`O_CREAT`. -/
def recover (H : Blake2b256) (B : StoreBindings) (directory : ControlDirectory)
    (anchor : Option WalAnchor) (replayCoveredFrames : Bool) : Except WalError OpenedWal := do
  require ((directory.live.map (·.ownedPrivate)).getD true = true)
    (.integrity "WAL file must have private owner-only mode")
  let live := (directory.live.map (·.content)).getD []
  let segments ← enumerateWalSegments directory.entries
  let first ← firstRetainedSequence B segments live
  checkFirstRetained first anchor
  let s ← recoverSealed H B anchor replayCoveredFrames segments (recoveryStart anchor first)
  let scanned ← scanSegmentFrames H B RecoveryState.chain (recoverFrame anchor replayCoveredFrames) false live s
  require (anchor.isNone ∨ scanned.state.anchorVerified = true)
    (.integrity "WAL does not contain the exact checkpoint anchor")
  return {
    segments := segments
    liveSegmentFirstSequence := s.chain.expectedSequence
    walOffset := scanned.offset
    walSequence := scanned.state.walSequence
    walHash := scanned.state.walHash
    applied := scanned.state.applied
    live := truncateTornTail live scanned.truncatedAt
    truncatedAt := scanned.truncatedAt }

theorem recover_of {H : Blake2b256} {B : StoreBindings} {directory : ControlDirectory}
    {anchor : Option WalAnchor} {replayCoveredFrames : Bool} {live : Bytes}
    {segments : List SealedSegment} {first : ℕ} {s : RecoveryState}
    {scanned : SegmentScan RecoveryState}
    (hprivate : (directory.live.map (·.ownedPrivate)).getD true = true)
    (hlive : (directory.live.map (·.content)).getD [] = live)
    (hsegments : enumerateWalSegments directory.entries = .ok segments)
    (hfirst : firstRetainedSequence B segments live = .ok first)
    (hrange : checkFirstRetained first anchor = .ok ())
    (hsealed : recoverSealed H B anchor replayCoveredFrames segments (recoveryStart anchor first) = .ok s)
    (hscan : scanSegmentFrames H B RecoveryState.chain (recoverFrame anchor replayCoveredFrames)
      false live s = .ok scanned)
    (hverified : anchor.isNone ∨ scanned.state.anchorVerified = true) :
    recover H B directory anchor replayCoveredFrames = .ok {
      segments := segments
      liveSegmentFirstSequence := s.chain.expectedSequence
      walOffset := scanned.offset
      walSequence := scanned.state.walSequence
      walHash := scanned.state.walHash
      applied := scanned.state.applied
      live := truncateTornTail live scanned.truncatedAt
      truncatedAt := scanned.truncatedAt } := by
  subst hlive
  simp only [recover, guards_eq_ok]
  exact ⟨hprivate, segments, hsegments, first, hfirst, (), hrange, s, hsealed, scanned, hscan, hverified, rfl⟩

end HiveRelay.Wal
