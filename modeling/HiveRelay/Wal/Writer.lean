import HiveRelay.Wal.Retained
import HiveRelay.Lib.Run

/-!
# The writer: group commit, rollover, pruning

`#commitWalGroup`, `#sealLiveSegment` and `pruneWalSegments` of `transaction-store.js` as a machine
that takes one file operation per move. A crash can fall between any two moves, and it can also cut
the writes since the last sync at any byte, so every interleaving of the source's awaits with a
crash is a run of this machine followed by a `Crash`.

The `wal` stripe of the lock table serializes groups and prunes, so one phase variable is enough:
what the holder of the stripe has done so far and what it still holds in its local variables.

A name operation (rename, create, unlink) is durable at its own move. Losing one whose directory
sync has not returned is the crash one move earlier, with the same file contents. Files are opened
with `O_APPEND`, so a frame lands at the end of its file whatever offset it was written at.
-/

namespace HiveRelay.Wal

open Bytes

/-! ### Files and crashes -/

/-- The bytes of a file: those a sync has made durable, and those written since. -/
structure DiskFile where
  (synced unsynced : Bytes)
  deriving DecidableEq

/-- What reads of the running process return. -/
def DiskFile.content (f : DiskFile) : Bytes := f.synced ++ f.unsynced

/-- What a crash leaves that keeps `n` of the unsynced bytes. -/
def DiskFile.kept (f : DiskFile) (n : ℕ) : Bytes := f.synced ++ f.unsynced.take n

structure NamedFile where
  name : String
  file : DiskFile
  deriving DecidableEq

/-- The WAL files of the control directory. -/
structure Disk where
  sealedFiles : List NamedFile
  live : Option DiskFile

def walLiveSegmentName : String := "wal.v2"

/-- A crash: how many of its unsynced bytes each file keeps, and the order (and the unrelated
entries) in which the next open lists the directory. -/
structure Crash where
  kept : String → ℕ
  listing : List DirectoryEntry

/-- The sealed files as the crash leaves them. -/
def Disk.crashEntries (disk : Disk) (c : Crash) : List DirectoryEntry :=
  disk.sealedFiles.map fun f => storeFile f.name (f.file.kept (c.kept f.name))

/-- The listing shows exactly the sealed files that are there. -/
def Crash.Lists (c : Crash) (disk : Disk) : Prop :=
  (c.listing.filter fun e => IsSegmentEntry e).Perm (disk.crashEntries c)
  deriving Decidable

/-- The control directory the next open finds. -/
def Disk.after (disk : Disk) (c : Crash) : ControlDirectory where
  entries := c.listing
  live := disk.live.map fun f => storeFile walLiveSegmentName (f.kept (c.kept walLiveSegmentName))

/-! ### The store -/

/-- An element of `sealedWalSegments`; the name is a function of the range. -/
structure SegmentRange where
  (firstSequence lastSequence : ℕ)
  deriving DecidableEq

/-- The range of a segment found by listing. -/
def SealedSegment.range (s : SealedSegment) : SegmentRange := ⟨s.firstSequence, s.lastSequence⟩

/-- The fields of `BlindTransactionStore` that the WAL code reads and writes. -/
structure Store where
  walSequence : ℕ
  walHash : Bytes
  (walOffset liveSegmentFirstSequence : ℕ)
  sealedWalSegments : List SegmentRange
  poisoned : Bool

/-- A queued append request; `fenceOk` is whether its `prewriteFence` returns. -/
structure GroupMember where
  value : AppendValue
  fenceOk : Bool

/-- What the holder of the `wal` stripe has done so far. -/
inductive Phase where
  /-- The stripe is free. -/
  | idle
  /-- The group's frames are encoded and the live segment has to be sealed for them. -/
  | sealing (frames : List WalFrameValue)
  /-- The live segment has its sealed name, and its successor does not exist yet. -/
  | renamed (range : SegmentRange) (frames : List WalFrameValue)
  /-- `written` are in the live segment, `todo` are not. -/
  | writing (written todo : List WalFrameValue)
  /-- The group is synced; `todo` are not resolved yet. -/
  | completing (todo : List WalFrameValue)
  /-- A prune has verified its anchor; `todo` are the segments it has not looked at, `pruned` those
  it has deleted. -/
  | pruning (anchor : WalAnchor) (retainFromSequence : ℕ) (todo pruned : List SegmentRange)
  deriving DecidableEq

/-- The frames of the group in flight. -/
def Phase.inFlight : Phase → List WalFrameValue
  | .sealing frames => frames
  | .renamed _ frames => frames
  | .writing written todo => written ++ todo
  | .completing todo => todo
  | .idle => []
  | .pruning _ _ _ _ => []

/-- The whole machine. `settled` and `acked` are history: the frames replayed by the last open
followed by those acknowledged since, and all the frames ever acknowledged. -/
structure Machine where
  store : Store
  disk : Disk
  phase : Phase
  settled : List WalFrameValue
  acked : List WalFrame

def fresh : Machine where
  store := ⟨0, zero32, 0, 1, [], false⟩
  disk := ⟨[], some ⟨[], []⟩⟩
  phase := .idle
  settled := []
  acked := []

section Step

variable (H : Blake2b256) (B : StoreBindings) (walSegmentMaxBytes : ℕ)

/-! ### `#commitWalGroup` -/

/-- The first loop of `#commitWalGroup`: fence and encode each member, chaining the frames. A member
whose fence or encoding throws is ejected, and the next one takes its place in the chain. -/
def encodeGroup : ℕ → Bytes → List GroupMember → List WalFrameValue
  | _, _, [] => []
  | sequence, previousWalHash, member :: rest =>
    if member.fenceOk = true then
      match encodeWalFrame H (B.frameValue (sequence + 1) previousWalHash member.value) B.maximumWalPayloadBytes with
      | .ok completeFrame => B.frameValue (sequence + 1) previousWalHash member.value ::
          encodeGroup (sequence + 1) (frameHash H completeFrame) rest
      | .error _ => encodeGroup sequence previousWalHash rest
    else encodeGroup sequence previousWalHash rest

/-- The group would cross the segment bound; an empty live segment never rolls. -/
def Rolls (store : Store) (frames : List WalFrameValue) : Prop :=
  0 < store.walOffset ∧ 0 < (chainBytes H frames).length ∧
    walSegmentMaxBytes < store.walOffset + (chainBytes H frames).length
  deriving Decidable

/-- A group is admitted and encoded. With every member ejected there is nothing to do. -/
def commitWalGroup (s : Machine) (group : List GroupMember) : Option Machine :=
  if s.phase = .idle ∧ s.store.poisoned = false then
    let frames := encodeGroup H B s.store.walSequence s.store.walHash group
    if frames = [] then some s
    else if Rolls H walSegmentMaxBytes s.store frames then some { s with phase := .sealing frames }
    else some { s with phase := .writing [] frames }
  else none

/-- `#sealLiveSegment` up to and including the rename. -/
def sealRename (s : Machine) : Option Machine :=
  match s.phase with
  | .sealing frames =>
    if s.store.poisoned = true then none
    else
      let range : SegmentRange := ⟨s.store.liveSegmentFirstSequence, s.store.walSequence⟩
      if range.lastSequence < range.firstSequence then some { s with phase := .writing [] frames }
      else
        let name := walSealedSegmentName range.firstSequence range.lastSequence
        some { s with
          disk := ⟨s.disk.sealedFiles ++ (s.disk.live.map fun f => ⟨name, f⟩).toList, none⟩
          phase := .renamed range frames }
  | _ => none

/-- The rest of `#sealLiveSegment`: the new live segment and the fields that go with it. -/
def sealCreate (s : Machine) : Option Machine :=
  match s.phase with
  | .renamed range frames =>
    if s.store.poisoned = true then none
    else some { s with
      disk := { s.disk with live := some ⟨[], []⟩ }
      store := { s.store with
        sealedWalSegments := s.store.sealedWalSegments ++ [range]
        liveSegmentFirstSequence := range.lastSequence + 1
        walOffset := 0 }
      phase := .writing [] frames }
  | _ => none

/-- `writeAll` of the next frame. -/
def writeFrame (s : Machine) : Option Machine :=
  match s.phase with
  | .writing written (v :: todo) =>
    if s.store.poisoned = true then none
    else some { s with
      disk := { s.disk with
        live := s.disk.live.map fun f => { f with unsynced := f.unsynced ++ frameBytes H v } }
      phase := .writing (written ++ [v]) todo }
  | _ => none

/-- `#syncWal`, once every frame of the group is written. -/
def syncWal (s : Machine) : Option Machine :=
  match s.phase with
  | .writing written [] =>
    if s.store.poisoned = true then none
    else some { s with
      disk := { s.disk with live := s.disk.live.map fun f => ⟨f.synced ++ f.unsynced, []⟩ }
      phase := .completing written }
  | _ => none

/-- The phase once a frame is resolved: the loop goes on, or the stripe is released. -/
def Phase.afterFrame (todo : List WalFrameValue) : Phase :=
  if todo = [] then .idle else .completing todo

/-- One turn of the last loop: the decode self-check, the new head, `applyFrame`, `resolve`.
`applyOk` is whether `applyFrame` returns. A frame whose apply throws stays in flight, as do those
behind it: it is durable and was never acknowledged. -/
def completeFrame (s : Machine) (applyOk : Bool) : Option Machine :=
  match s.phase with
  | .completing (v :: todo) =>
    if s.store.poisoned = true then none
    else
      match decodeFrame H (frameBytes H v) v.sequence s.store.walHash B.durabilityContinuityHash
        B.maximumWalPayloadBytes with
      | .error _ => some { s with store := { s.store with poisoned := true } }
      | .ok decoded =>
        let advanced := { s.store with
          walOffset := s.store.walOffset + (frameBytes H v).length
          walSequence := v.sequence
          walHash := decoded.walHash }
        if applyOk = true then
          some { s with
            store := advanced
            phase := .afterFrame todo
            settled := s.settled ++ [v]
            acked := s.acked ++ [decoded] }
        else some { s with store := { advanced with poisoned := true } }
  | _ => none

/-- A seal, write or sync of a group fails: the store is poisoned, and what is on disk stays. -/
def failGroup (s : Machine) : Option Machine :=
  match s.phase with
  | .idle => none
  | .pruning _ _ _ _ => none
  | _ => some { s with store := { s.store with poisoned := true } }

/-! ### `pruneWalSegments` -/

/-- The variables of the walk in `#verifyWalPruneAnchor`. -/
structure AnchorScan where
  chain : ChainExpectation
  verified : Bool

/-- The callback of `#verifyWalPruneAnchor`. -/
def verifyAnchorFrame (anchor : WalAnchor) (s : AnchorScan) (frame : WalFrame) :
    Except WalError AnchorScan := do
  require (frame.sequence ≠ anchor.sequence ∨ frame.walHash = anchor.hash)
    (.integrity "WAL prune checkpoint anchor hash mismatch")
  return {
    chain := ⟨frame.sequence + 1, some frame.walHash⟩
    verified := s.verified || decide (frame.sequence = anchor.sequence) }

/-- The walk of `#verifyWalPruneAnchor` over the segment that should hold the anchor. -/
def scanForAnchor (anchor : WalAnchor) (firstSequence : ℕ) (content : Bytes) :
    Except WalError Unit := do
  let scanned ← scanSegmentFrames H B AnchorScan.chain (verifyAnchorFrame anchor) true content
    ⟨⟨firstSequence, none⟩, false⟩
  require (scanned.state.verified = true) (.integrity "WAL prune checkpoint anchor frame is not retained")

def verifyWalPruneAnchor (s : Machine) (anchor : WalAnchor) : Except WalError Unit :=
  if anchor.sequence = s.store.walSequence then
    require (s.store.walHash = anchor.hash) (.integrity "WAL prune checkpoint anchor hash mismatch")
  else if s.store.liveSegmentFirstSequence ≤ anchor.sequence then
    scanForAnchor H B anchor s.store.liveSegmentFirstSequence
      (((s.disk.live.map DiskFile.content).getD []).take s.store.walOffset)
  else
    match s.store.sealedWalSegments.find? fun range =>
      range.firstSequence ≤ anchor.sequence ∧ anchor.sequence ≤ range.lastSequence with
    | none => .error (.integrity "WAL prune checkpoint anchor frame is not retained")
    | some range =>
      match s.disk.sealedFiles.find? fun f =>
        f.name = walSealedSegmentName range.firstSequence range.lastSequence with
      | none => .error (.system "ENOENT")
      | some f => scanForAnchor H B anchor range.firstSequence f.file.content

/-- A segment both bounds of a prune allow to delete. -/
def Prunable (anchor : WalAnchor) (retainFromSequence : ℕ) (range : SegmentRange) : Prop :=
  range.lastSequence ≤ anchor.sequence ∧ range.lastSequence < retainFromSequence

instance (anchor : WalAnchor) (retainFromSequence : ℕ) (range : SegmentRange) :
    Decidable (Prunable anchor retainFromSequence range) :=
  inferInstanceAs (Decidable (_ ∧ _))

/-- `pruneWalSegments` up to its loop. -/
def pruneStart (s : Machine) (anchor : WalAnchor) (retainFromSequence : ℕ) : Option Machine :=
  if s.phase = .idle ∧ s.store.poisoned = false ∧ 0 < retainFromSequence ∧ anchor.sequence ≤ s.store.walSequence then
    match verifyWalPruneAnchor H B s anchor with
    | .ok _ => some { s with
        phase := .pruning anchor retainFromSequence s.store.sealedWalSegments [] }
    | .error _ => none
  else none

/-- One turn of the loop: skip the segment, or unlink it; a file that is not there is no error. -/
def pruneUnlink (s : Machine) : Option Machine :=
  match s.phase with
  | .pruning anchor retainFromSequence (range :: todo) pruned =>
    if Prunable anchor retainFromSequence range then
      let name := walSealedSegmentName range.firstSequence range.lastSequence
      some { s with
        disk := { s.disk with sealedFiles := s.disk.sealedFiles.eraseP fun f => f.name = name }
        phase := .pruning anchor retainFromSequence todo (pruned ++ [range]) }
    else some { s with phase := .pruning anchor retainFromSequence todo pruned }
  | _ => none

/-- The return of `pruneWalSegments`. -/
def pruneFinish (s : Machine) : Option Machine :=
  match s.phase with
  | .pruning _ _ [] pruned => some { s with
      store := { s.store with
        sealedWalSegments := s.store.sealedWalSegments.filter fun range => range ∉ pruned }
      phase := .idle }
  | _ => none

/-- An unlink, the sync of the directory or what follows it throws out of the loop. The segments that are
gone stay in `sealedWalSegments`, and the store is not poisoned. -/
def pruneThrow (s : Machine) : Option Machine :=
  match s.phase with
  | .pruning _ _ _ _ => some { s with phase := .idle }
  | _ => none

/-! ### Crash and reopen -/

/-- The frames of the group in flight that a crash leaves whole. -/
def survivors (s : Machine) (c : Crash) : List WalFrameValue :=
  match s.phase with
  | .writing written _ => wholeFrames H written (c.kept walLiveSegmentName)
  | .completing todo => todo
  | _ => []

/-- A crash (or a close, which loses nothing) followed by an open that succeeds. Opening syncs the
live segment and truncates its torn tail. -/
def reopen (s : Machine) (c : Crash) (anchor : Option WalAnchor) (replayCoveredFrames : Bool) :
    Option Machine :=
  if c.Lists s.disk then
    match recover H B (s.disk.after c) anchor replayCoveredFrames with
    | .error _ => none
    | .ok o => some {
        store := {
          walSequence := o.walSequence
          walHash := o.walHash
          walOffset := o.walOffset
          liveSegmentFirstSequence := o.liveSegmentFirstSequence
          sealedWalSegments := o.segments.map SealedSegment.range
          poisoned := false }
        disk := {
          sealedFiles := s.disk.sealedFiles.map fun f =>
            ⟨f.name, ⟨f.file.kept (c.kept f.name), []⟩⟩
          live := some ⟨o.live, []⟩ }
        phase := .idle
        settled := s.settled ++ survivors H s c
        acked := s.acked }
  else none

/-! ### The machine -/

/-- One file operation of the writer, or a crash and reopen. -/
inductive Move where
  | commit (group : List GroupMember)
  | rename
  | create
  | write
  | datasync
  | complete (applyOk : Bool)
  | fail
  | prune (anchor : WalAnchor) (retainFromSequence : ℕ)
  | unlink
  | pruned
  | throw
  | reopen (crash : Crash) (anchor : Option WalAnchor) (replayCoveredFrames : Bool)

def step (s : Machine) : Move → Option Machine
  | .commit group => commitWalGroup H B walSegmentMaxBytes s group
  | .rename => sealRename s
  | .create => sealCreate s
  | .write => writeFrame H s
  | .datasync => syncWal s
  | .complete applyOk => completeFrame H B s applyOk
  | .fail => failGroup s
  | .prune anchor retainFromSequence => pruneStart H B s anchor retainFromSequence
  | .unlink => pruneUnlink s
  | .pruned => pruneFinish s
  | .throw => pruneThrow s
  | .reopen crash anchor replayCoveredFrames => reopen H B s crash anchor replayCoveredFrames

def Move.IsAppend : Move → Prop
  | .commit _ => True
  | .rename => True
  | .create => True
  | .write => True
  | .datasync => True
  | .complete _ => True
  | .fail => True
  | .prune _ _ => False
  | .unlink => False
  | .pruned => False
  | .throw => False
  | .reopen _ _ _ => False

def Move.members : Move → List GroupMember
  | .commit group => group
  | _ => []

end Step

end HiveRelay.Wal
