import Mathlib.Data.List.Sort
import HiveRelay.Ipc.ReplayJournal
import HiveRelay.Lib.Run

/-!
# Reservations of replay tuples

`reservePrivateIpcReplayTupleV2` lets a tuple through once. It appends the frames that let old tuples
expire and the one that consumes the new tuple, and answers when they are on disk; when the journal
has too many frames it first writes a new one with the live tuples and puts it in the place of the
old one. Opening reads the journal back, keeps every recovered tuple for the longest time to live,
and lets nothing through for as long.

Calls run one after the other (`serialize`). A call is a function from the state in memory to the
operations on the disk, the state after it and its answer; a crash may come after any number of the
operations. It keeps what was synced and any prefix of what was not, and until the directory is
synced it may bring back the file that a new one was put in the place of.
-/

namespace HiveRelay.Ipc

/-! ### The disk -/

/-- A file, of which the first `synced` bytes are on disk. -/
structure File where
  content : Bytes
  synced : ℕ

/-- The journal, and the file that a crash may bring back while the directory is not synced. -/
structure Disk where
  journal : Option File
  older : Option (Option File)

inductive DiskOp where
  | write (bytes : Bytes)
  | sync
  /-- Write and sync a temporary file, and rename it to the journal. -/
  | replace (content : Bytes)
  | syncDirectory
  /-- Cut the journal, and sync it. -/
  | truncate (length : ℕ)

def Disk.apply (disk : Disk) : DiskOp → Disk
  | .write bytes => { disk with
      journal := disk.journal.map fun f => { f with content := f.content ++ bytes } }
  | .sync => { disk with journal := disk.journal.map fun f => { f with synced := f.content.length } }
  | .replace content => ⟨some ⟨content, content.length⟩, some disk.journal⟩
  | .syncDirectory => { disk with older := none }
  | .truncate length => { disk with
      journal := disk.journal.map fun f => ⟨f.content.take length, (f.content.take length).length⟩ }

def Disk.applyAll (disk : Disk) (ops : List DiskOp) : Disk := ops.foldl Disk.apply disk

/-- The files that a crash may leave as the journal. -/
def Disk.candidates (disk : Disk) : List (Option File) := disk.journal :: disk.older.toList

/-- What a crash may leave of the disk. -/
def Disk.Survives (disk : Disk) (after : Option Bytes) : Prop :=
  ∃ file ∈ disk.candidates, match file, after with
    | none, none => True
    | some f, some content => ∃ n, f.synced ≤ n ∧ n ≤ f.content.length ∧ content = f.content.take n
    | _, _ => False

/-! ### The state in memory -/

/-- An entry of `entries`. -/
structure Entry where
  (expiresMonotonicMillis generation sequence : ℕ)

/-- The state of an open journal; `open` is false once it is poisoned. -/
structure Mem where
  header : Bytes
  (generation sequence : ℕ)
  previousFrameHash : Bytes
  recordCount : ℕ
  entries : OrderedMap Bytes Entry
  (lastNow quarantineUntil compactionRecordLimit : ℕ)
  opened : Bool

/-- The arguments of a reservation, the readings of the clock that it makes, and whether its signal
is aborted where it is looked at. -/
structure Reservation where
  tuple : Bytes
  (expires now durableNow committedNow : ℕ)
  (abortedAtStart abortedBeforeCompaction abortedAfterCompaction abortedBeforeWrite : Bool)
  length_tuple : tuple.length = 32

/-- What a call does to the disk, what it leaves in memory, and what it answers. -/
structure Outcome where
  ops : List DiskOp
  mem : Mem
  result : Except Failure Entry

/-- A journal that is poisoned by its clock. -/
def clockUnsafe : Failure :=
  ⟨.clockUnsafe, "private IPC replay journal monotonic clock regressed"⟩

/-- The keys in the order of their hex strings. -/
def sortKeys (keys : List Bytes) : List Bytes :=
  keys.insertionSort fun a b => Bytes.toNat a ≤ Bytes.toNat b

/-- The keys of the entries that have expired. -/
def expiredKeys (entries : OrderedMap Bytes Entry) (now : ℕ) : List Bytes :=
  (entries.entries.filter fun e => decide (e.2.expiresMonotonicMillis ≤ now)).map Prod.fst

/-- An entry of `liveSnapshot`. -/
structure LiveEntry where
  key : Bytes
  (expiresMonotonicMillis ttlMillis : ℕ)

def liveSnapshot (entries : OrderedMap Bytes Entry) (now : ℕ) (expired : List Bytes) :
    Except Failure (List LiveEntry) := do
  let live := entries.entries.filter fun e => decide (e.1 ∉ expired)
  require (∀ e ∈ live, now < e.2.expiresMonotonicMillis ∧ e.2.expiresMonotonicMillis ≤ now + maximumTtlMillis)
    ⟨.clockUnsafe, "private IPC replay journal live entry has an invalid remaining horizon"⟩
  pure ((live.map fun e =>
      ⟨e.1, e.2.expiresMonotonicMillis, e.2.expiresMonotonicMillis - now⟩).insertionSort
    fun a b => Bytes.toNat a.key ≤ Bytes.toNat b.key)

/-- The frame that consumes a live entry. -/
def LiveEntry.spec (e : LiveEntry) : Spec := ⟨.consume, e.key, e.ttlMillis⟩

/-- The frame that lets a tuple expire. -/
def expireSpec (key : Bytes) : Spec := ⟨.expire, key, 0⟩

/-- The entries of a snapshot, numbered from `sequence` on. -/
def numbered (generation : ℕ) : ℕ → OrderedMap Bytes Entry → List LiveEntry → OrderedMap Bytes Entry
  | _, entries, [] => entries
  | sequence, entries, e :: rest =>
    numbered generation (sequence + 1) (entries.set e.key ⟨e.expiresMonotonicMillis, generation, sequence + 1⟩) rest

section Calls

variable (C : Crypto) (L : Launch)

/-- What `compactJournal` leaves in memory. -/
def compacted (mem : Mem) (snapshot : List LiveEntry) : Mem :=
  let generation := mem.generation + 1
  let header := encodeHeader C L generation
  { mem with
    header := header
    generation := generation
    sequence := snapshot.length
    previousFrameHash := chainEnd C L header generation 0 (chainAnchor C header)
      (snapshot.map LiveEntry.spec)
    recordCount := snapshot.length
    entries := numbered generation 0 .empty snapshot }

/-- What `compactJournal` does to the disk. -/
def compactionOps (mem : Mem) (snapshot : List LiveEntry) : List DiskOp :=
  [.replace (journalBytes C L (mem.generation + 1) (snapshot.map LiveEntry.spec)), .syncDirectory]

/-- The frames that a reservation appends. -/
def reservedSpecs (expired : List Bytes) (r : Reservation) : List Spec :=
  (sortKeys expired).map expireSpec ++ [⟨.consume, r.tuple, r.expires - r.durableNow⟩]

/-- What `appendFrameSpecs` leaves in memory, with the new entry. -/
def appended (mem : Mem) (expired : List Bytes) (r : Reservation) : Mem :=
  let specs := reservedSpecs expired r
  let sequence := mem.sequence + specs.length
  { mem with
    sequence := sequence
    previousFrameHash :=
      chainEnd C L mem.header mem.generation mem.sequence mem.previousFrameHash specs
    recordCount := mem.recordCount + specs.length
    entries := (expired.foldl OrderedMap.delete mem.entries).set r.tuple
      ⟨r.expires, mem.generation, sequence⟩ }

/-- What `appendFrameSpecs` does to the disk. -/
def appendOps (mem : Mem) (expired : List Bytes) (r : Reservation) : List DiskOp :=
  [.write (encodeChain C L mem.header mem.generation mem.sequence mem.previousFrameHash
    (reservedSpecs expired r)).flatten, .sync]

/-- A reservation from the reading of `durableNow` on, after some operations on the disk. -/
def reserveAppend (mem : Mem) (ops : List DiskOp) (expired : List Bytes) (r : Reservation) :
    Outcome :=
  if r.durableNow < mem.lastNow then ⟨ops, { mem with opened := false }, .error clockUnsafe⟩
  else
    let mem := { mem with lastNow := r.durableNow }
    if r.expires ≤ r.durableNow then
      ⟨ops, mem, .error ⟨.expired, "private IPC replay reservation expired before its durable write began"⟩⟩
    else if r.abortedBeforeWrite then
      ⟨ops, mem, .error ⟨.aborted, "private IPC replay reservation was aborted before durable consumption"⟩⟩
    else
      let ops := ops ++ appendOps C L mem expired r
      let mem := appended C L mem expired r
      if r.committedNow < mem.lastNow then ⟨ops, { mem with opened := false }, .error clockUnsafe⟩
      else
        let mem := { mem with lastNow := r.committedNow }
        if r.expires ≤ r.committedNow then
          ⟨ops, mem, .error ⟨.expired, "private IPC replay reservation expired before its durable " ++
            "commit could be authorized"⟩⟩
        else ⟨ops, mem, .ok ⟨r.expires, mem.generation, mem.sequence⟩⟩

/-- `reservePrivateIpcReplayTupleV2`. -/
def reserve (mem : Mem) (r : Reservation) : Outcome :=
  if mem.opened = false then
    ⟨[], mem, .error ⟨.poisoned, "private IPC replay journal is not open for reservations"⟩⟩
  else if r.abortedAtStart then
    ⟨[], mem, .error ⟨.aborted, "private IPC replay reservation was aborted before durable consumption"⟩⟩
  else if r.now < mem.lastNow then ⟨[], { mem with opened := false }, .error clockUnsafe⟩
  else
    let mem := { mem with lastNow := r.now }
    if r.now < mem.quarantineUntil then
      ⟨[], mem, .error ⟨.quarantine, "private IPC replay journal is inside its mandatory startup quarantine"⟩⟩
    else if r.expires ≤ r.now ∨ maximumTtlMillis < r.expires - r.now then
      ⟨[], mem, .error ⟨.expired, "private IPC replay reservation expiry is not live and bounded"⟩⟩
    else
      let expired := expiredKeys mem.entries r.now
      if mem.entries.has r.tuple = true ∧ r.tuple ∉ expired then
        ⟨[], mem, .error ⟨.replay, "private IPC replay tuple is already durably consumed"⟩⟩
      else if capacity ≤ mem.entries.size - expired.length then
        ⟨[], mem, .error ⟨.busy, "private IPC replay journal is at live capacity"⟩⟩
      else if mem.compactionRecordLimit < mem.recordCount + (expired.length + 1) then
        if r.abortedBeforeCompaction then
          ⟨[], mem, .error ⟨.aborted, "private IPC replay reservation was aborted before durable consumption"⟩⟩
        else if mem.generation = 2 ^ 64 - 1 then
          ⟨[], { mem with opened := false }, .error ⟨.clockUnsafe,
            "private IPC replay journal generation overflowed"⟩⟩
        else match liveSnapshot mem.entries r.now expired with
          | .error error => ⟨[], mem, .error error⟩
          | .ok snapshot =>
            let ops := compactionOps C L mem snapshot
            let mem := compacted C L mem snapshot
            if r.abortedAfterCompaction then
              ⟨ops, mem, .error ⟨.aborted, "private IPC replay reservation was aborted before durable consumption"⟩⟩
            else reserveAppend C L mem ops [] r
      else reserveAppend C L mem [] expired r

/-- The arguments of an opening, and its reading of the clock. -/
structure Opening where
  (compactionRecordLimit startupNow : ℕ)
  limit_bounds : 1 ≤ compactionRecordLimit ∧ compactionRecordLimit ≤ maximumRecords

def bootstrapOps (disk : Disk) : List DiskOp :=
  if disk.journal.isSome then [] else [.replace (encodeHeader C L 1), .syncDirectory]

/-- The entries of what was recovered. -/
def recoveredEntries (recovered : OrderedMap Bytes RecoveredEntry) (until_ : ℕ) :
    OrderedMap Bytes Entry :=
  recovered.entries.foldl (fun entries e => entries.set e.1 ⟨until_, e.2.generation, e.2.sequence⟩) .empty

/-- `openPrivateIpcReplayJournalV2`. -/
def openJournal (disk : Disk) (o : Opening) : List DiskOp × Except Failure Mem :=
  let ops := bootstrapOps C L disk
  let content := (disk.applyAll ops).journal.elim [] File.content
  match recoverJournal C L content with
  | .error error => (ops, .error error)
  | .ok r =>
    let ops := if r.offset < content.length then ops ++ [.truncate r.offset] else ops
    if 2 ^ 64 - 1 - quarantineMillis < o.startupNow then
      (ops, .error ⟨.clockUnsafe, "private IPC replay journal startup clock cannot represent its quarantine horizon"⟩)
    else
      (ops, .ok
        { r with
          entries := recoveredEntries r.recovered (o.startupNow + minimumRetentionMillis)
          lastNow := o.startupNow
          quarantineUntil := o.startupNow + quarantineMillis
          compactionRecordLimit := o.compactionRecordLimit
          opened := true })

/-! ### Runs -/

/-- A tuple that was acknowledged, by the `opening`-th opening, which started at `startup`. -/
structure Ack where
  (opening startup : ℕ)
  tuple : Bytes
  (at_ expires : ℕ)

/-- The disk, the open journal if there is one, and what is on record: the acknowledgements, the last
reading of the clock, and until when each acknowledged tuple is not expired. A restart starts the
longest time to live anew. -/
structure System where
  disk : Disk
  mem : Option Mem
  (clock opening startup : ℕ)
  owed : List (Bytes × ℕ)
  acks : List Ack

def System.fresh : System := ⟨⟨none, none⟩, none, 0, 0, 0, [], []⟩

inductive During where
  | idle
  | opening (o : Opening)
  | reserving (r : Reservation)

/-- What can happen. A crash comes after `done` operations of a call. -/
inductive Move where
  | openJournal (o : Opening)
  | reserve (r : Reservation)
  | close
  | crash (during : During) (done : ℕ) (after : Option Bytes)

/-- The operations of a call that a crash may cut off. -/
def pendingOps (sys : System) : During → List DiskOp
  | .idle => []
  | .opening o => if sys.mem.isSome then [] else (openJournal C L sys.disk o).1
  | .reserving r => sys.mem.elim [] fun mem => (Ipc.reserve C L mem r).ops

/-- The last reading of the clock before a crash. -/
def crashClock (sys : System) : During → ℕ
  | .reserving r => max sys.clock r.now
  | _ => sys.clock

/-- The tuples that are owed after a restart. -/
def carriedOver (owed : List (Bytes × ℕ)) (clock startup : ℕ) : List (Bytes × ℕ) :=
  (owed.filter fun o => decide (clock < o.2)).map fun o => (o.1, startup + minimumRetentionMillis)

/-- The system after a call that is answered. -/
def reserved (sys : System) (mem : Mem) (r : Reservation) : System :=
  let outcome := Ipc.reserve C L mem r
  let sys := { sys with
    disk := sys.disk.applyAll outcome.ops, mem := some outcome.mem, clock := outcome.mem.lastNow }
  match outcome.result with
  | .error _ => sys
  | .ok _ => { sys with
      owed := (r.tuple, r.expires) :: sys.owed
      acks := ⟨sys.opening, sys.startup, r.tuple, r.now, r.expires⟩ :: sys.acks }

def opened (sys : System) (o : Opening) : System :=
  let result := Ipc.openJournal C L sys.disk o
  let disk := sys.disk.applyAll result.1
  match result.2 with
  | .error _ => { sys with disk := disk }
  | .ok mem => { sys with
      disk := disk
      mem := some mem
      clock := o.startupNow
      opening := sys.opening + 1
      startup := o.startupNow
      owed := carriedOver sys.owed sys.clock o.startupNow }

def System.crashDisk (sys : System) (during : During) (done : ℕ) : Disk :=
  sys.disk.applyAll ((pendingOps C L sys during).take done)

/-- The system after a crash that leaves `after`. -/
def System.crashed (sys : System) (during : During) (after : Option Bytes) : System :=
  { sys with
    disk := ⟨after.map fun content => ⟨content, content.length⟩, none⟩
    mem := none
    clock := crashClock sys during }

inductive SystemStep : System → Move → System → Prop
  | openJournal {sys : System} {o : Opening} (h : sys.mem = none) :
      SystemStep sys (.openJournal o) (opened C L sys o)
  | reserve {sys : System} {mem : Mem} {r : Reservation} (h : sys.mem = some mem) :
      SystemStep sys (.reserve r) (reserved C L sys mem r)
  | close {sys : System} : SystemStep sys .close { sys with mem := none }
  | crash {sys : System} {during : During} {done : ℕ} {after : Option Bytes}
      (h : (sys.crashDisk C L during done).Survives after) :
      SystemStep sys (.crash during done after) (sys.crashed during after)

inductive Reachable : System → Prop
  | fresh : Reachable .fresh
  | step {sys sys' : System} {move : Move} (h : Reachable sys) (hstep : SystemStep C L sys move sys') :
      Reachable sys'

end Calls

end HiveRelay.Ipc
