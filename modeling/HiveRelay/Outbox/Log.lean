import HiveRelay.Lib.Guard
import HiveRelay.Lib.OrderedMap
import HiveRelay.Outbox.Record

/-!
# The outbox log

An outbox is a group of rows that one writer appends to. The log keeps the groups in memory, with the
append events, the ids that are not served and what was taken in by each namespace in the last day. What
changes is written to a journal, and to a snapshot every few entries; what is loaded is the snapshot and
the entries after it. Each call that writes is rolled back by hand if the write fails.

What fails (the journal, the snapshot) and what the clock says is part of a call. A snapshot and a journal
entry are values here, not JSON texts; a write is made as a whole or not at all.
-/

namespace HiveRelay.Outbox

open JsString (ofText)

/-- `fail`. -/
structure Failure where
  message : String
  status : ℕ

/-! ### Configuration -/

inductive Verdict where
  | verified | refused | pending
  deriving DecidableEq

inductive VerifyAppend where
  | signature (verifyDetached : VerifyDetached)
  | off
  | custom (verify : (appId type : JsString) → Json → Option NamespaceInfo → Verdict)

/-- The limits, and what is persisted. The namespaces are named as `createOutboxNamespaceRegistry` names
them, and the one that is there without a configuration has no caps. -/
structure Config where
  (maxGroups maxRowsPerGroup maxIdLength maxAppIdLength maxValueBytes maxTotalBytes byteDayFallback : ℕ)
  (maxAppendEventsPerOutbox checkpointEvery : ℕ)
  registry : NamespaceRegistry
  verifyAppend : VerifyAppend
  (persisted journaled : Bool)
  named : ∀ info ∈ registry.entries, normalizeNamespaceName info.name = some info.name
  capless : registry.configured = false → ∀ info ∈ registry.entries, info.caps = ⟨none, none, none, none⟩
  events_pos : 0 < maxAppendEventsPerOutbox

/-- `DEFAULT_MAX_BYTES_PER_DAY`. -/
def DEFAULT_MAX_BYTES_PER_DAY : ℕ := 2 ^ 53 - 1

/-- `OUTBOXLOG_BYTE_WINDOW_MS`. -/
def OUTBOXLOG_BYTE_WINDOW_MS : ℤ := 24 * 60 * 60 * 1000

/-- `SWEEP_JOURNAL_BATCH`. -/
def SWEEP_JOURNAL_BATCH : ℕ := 1000

/-- `DEFAULT_SWEEP_TTL_MS`. -/
def DEFAULT_SWEEP_TTL_MS : ℤ := 24 * 60 * 60 * 1000

/-- `DEFAULT_MAX_APP_ID_LENGTH`. -/
def DEFAULT_MAX_APP_ID_LENGTH : ℕ := 128

/-- `DEFAULT_MAX_ID_LENGTH`. -/
def DEFAULT_MAX_ID_LENGTH : ℕ := 256

/-- `DEFAULT_MAX_VALUE_BYTES`. -/
def DEFAULT_MAX_VALUE_BYTES : ℕ := 64 * 1024

def namespaceCap (info : Option NamespaceInfo) (cap : NamespaceCaps → Option ℕ) (fallback : ℕ) : ℕ :=
  match info.bind fun info => cap info.caps with
  | none => fallback
  | some value => min value fallback

/-! ### State -/

structure Group where
  inviteKey : JsString
  rows : OrderedMap JsString Json
  (version directorySeq : ℕ)
  ns : Option JsString
  createdAt : Option ℤ

/-- An append event; its topic is made of its id. -/
structure AppendEvent where
  seq : ℕ
  (appId key type : JsString)
  version : ℕ

/-- Bytes that were taken in at a time. -/
structure Charge where
  ts : ℤ
  bytes : ℕ

structure Bucket where
  charges : List Charge
  total : ℤ

structure State where
  groups : OrderedMap JsString Group
  appendEventsByApp : OrderedMap JsString (List AppendEvent)
  suppressed : OrderedMap JsString Unit
  byteWindows : OrderedMap (Option JsString) Bucket
  totalBytes : ℤ
  (directorySeq appendSeq journalSeq entriesSinceCheckpoint : ℕ)
  snapshotDirty : Bool

def State.new : State where
  groups := .empty
  appendEventsByApp := .empty
  suppressed := .empty
  byteWindows := .empty
  totalBytes := 0
  directorySeq := 0
  appendSeq := 0
  journalSeq := 0
  entriesSinceCheckpoint := 0
  snapshotDirty := false

structure GroupState where
  inviteKey : JsString
  (version directorySeq : ℕ)
  ns : Option JsString
  createdAt : Option ℤ
  rows : List (JsString × Json)

/-- What `snapshot` returns. -/
structure Snapshot where
  (directorySeq appendSeq journalSeq : ℕ)
  suppressed : List (JsString × JsString)
  byteWindows : List (Option JsString × List Charge)
  appendEvents : List (JsString × List AppendEvent)
  groups : List (JsString × GroupState)

inductive EntryBody where
  | create (appId inviteKey : JsString) (ns : Option JsString) (createdAt : Option ℤ)
  | append (appId inviteKey : JsString) (ns : Option JsString) (ts : Option ℤ) (type : JsString)
      (data : Json)
  | takedown (appId key : JsString) (drop : Bool)
  | sweep (appIds : List JsString)

structure Entry where
  seq : ℕ
  body : EntryBody

structure Disk where
  snapshot : Option Snapshot
  journal : List Entry

/-- Which writes of a save fail, and the clock at it. -/
structure Io where
  (journalFails saveFails : Bool)
  saveNow : ℤ

/-! ### Byte windows -/

def pruneNamespaceByteWindow (bucket : Bucket) (now : ℤ) : Bucket :=
  let expired := bucket.charges.takeWhile fun charge => decide (charge.ts ≤ now - OUTBOXLOG_BYTE_WINDOW_MS)
  { charges := bucket.charges.drop expired.length
    total := bucket.total - (expired.map fun charge => (charge.bytes : ℤ)).sum }

/-- `namespaceByteBucket`: the bucket that is there, or an empty one. -/
def namespaceByteBucket (s : State) (key : Option JsString) : Bucket :=
  (s.byteWindows.get? key).getD { charges := [], total := 0 }

def chargeNamespaceByteBucket (bucket : Bucket) (size : ℕ) (ts : ℤ) : Bucket where
  charges := bucket.charges ++ [⟨ts, size⟩]
  total := bucket.total + size

def unchargeNamespaceByteBucket (bucket : Bucket) : Bucket :=
  match bucket.charges.getLast? with
  | none => bucket
  | some last => { charges := bucket.charges.dropLast, total := bucket.total - last.bytes }

/-- The cap of a day, if there is one. -/
def byteBudget (cfg : Config) (info : Option NamespaceInfo) : Option ℕ :=
  let cap := namespaceCap info NamespaceCaps.bytesPerDay cfg.byteDayFallback
  if DEFAULT_MAX_BYTES_PER_DAY ≤ cap then none else some cap

def State.setBucket (s : State) (key : Option JsString) (bucket : Bucket) : State :=
  { s with byteWindows := s.byteWindows.set key bucket }

/-- `assertNamespaceByteBudget`: the bucket is made and pruned also if there is no budget left. -/
def assertNamespaceByteBudget (cfg : Config) (s : State) (info : Option NamespaceInfo) (size : ℕ) (now : ℤ) :
    State × Except Failure Bool :=
  match byteBudget cfg info with
  | none => (s, .ok false)
  | some cap =>
    let key := info.map NamespaceInfo.name
    let bucket := pruneNamespaceByteWindow (namespaceByteBucket s key) now
    (s.setBucket key bucket,
      if (cap : ℤ) < bucket.total + size then .error ⟨"namespace at daily byte capacity", 503⟩ else .ok true)

def noteNamespaceByteCharge (cfg : Config) (s : State) (info : Option NamespaceInfo) (size : ℕ)
    (ts : Option ℤ) (now : ℤ) : State :=
  match ts, byteBudget cfg info with
  | some ts, some _ =>
    if ts ≤ now - OUTBOXLOG_BYTE_WINDOW_MS then s
    else
      let key := info.map NamespaceInfo.name
      let bucket := pruneNamespaceByteWindow (namespaceByteBucket s key) now
      s.setBucket key (chargeNamespaceByteBucket bucket size ts)
  | _, _ => s

/-! ### Snapshots and the journal -/

/-- The key under which an id is not served. -/
def suppressionComposite (appId key : JsString) : JsString := appId ++ 0 :: key

def suppressionKey (cfg : Config) (appId key : JsString) : Option JsString :=
  if appId.isEmpty || cfg.maxAppIdLength < appId.length then none
  else if key.isEmpty || cfg.maxIdLength + 65 < key.length then none
  else some (suppressionComposite appId key)

def splitSuppressionKey (composite : JsString) : Option (JsString × JsString) :=
  if (0 : UInt16) ∈ composite then
    some (composite.takeWhile (· ≠ 0), (composite.dropWhile (· ≠ 0)).drop 1)
  else none

def pruneWindows (s : State) (now : ℤ) : State :=
  { s with byteWindows := s.byteWindows.mapValues (pruneNamespaceByteWindow · now) }

def Group.toState (group : Group) : GroupState where
  __ := group
  rows := group.rows.entries

/-- `snapshot`, of a state whose windows are pruned. -/
def snapshot (s : State) : Snapshot where
  __ := s
  suppressed := s.suppressed.entries.filterMap fun e => splitSuppressionKey e.1
  byteWindows := s.byteWindows.entries.map fun e => (e.1, e.2.charges)
  appendEvents := s.appendEventsByApp.entries
  groups := s.groups.entries.map fun e => (e.1, e.2.toState)

structure Sys where
  state : State
  disk : Disk

/-- The windows of a system are pruned. -/
def Sys.pruned (sys : Sys) (now : ℤ) : Sys := { sys with state := pruneWindows sys.state now }

/-- A system whose snapshot is written. -/
def Sys.snapped (sys : Sys) (now : ℤ) : Sys where
  state := { pruneWindows sys.state now with snapshotDirty := false, entriesSinceCheckpoint := 0 }
  disk := { sys.disk with snapshot := some (snapshot (pruneWindows sys.state now)) }

/-- `statePersistence.saveSync(snapshot())`, and whether it was written. -/
def saveSnapshot (sys : Sys) (io : Io) : Sys × Bool :=
  if io.saveFails then (sys.pruned io.saveNow, false) else (sys.snapped io.saveNow, true)

def appendJournalEntry (sys : Sys) (body : EntryBody) : Sys where
  state := { sys.state with journalSeq := sys.state.journalSeq + 1 }
  disk := { sys.disk with journal := sys.disk.journal ++ [⟨sys.state.journalSeq + 1, body⟩] }

/-- An entry is written to the journal, and counts for the next snapshot. -/
def logEntry (cfg : Config) (sys : Sys) (body : EntryBody) : Sys :=
  let sys := appendJournalEntry sys body
  if cfg.persisted then
    { sys with
      state := { sys.state with
        snapshotDirty := true
        entriesSinceCheckpoint := sys.state.entriesSinceCheckpoint + 1 } }
  else sys

/-- `saveState`, and whether everything was written. -/
def saveState (cfg : Config) (sys : Sys) (body : Option EntryBody) (io : Io) : Sys × Bool :=
  if cfg.journaled then
    match body with
    | none => (sys, true)
    | some body =>
      if io.journalFails then (sys, false)
      else if cfg.persisted && decide (cfg.checkpointEvery ≤ sys.state.entriesSinceCheckpoint + 1) then
        saveSnapshot (logEntry cfg sys body) io
      else (logEntry cfg sys body, true)
  else if cfg.persisted then saveSnapshot sys io
  else (sys, true)

def flush (cfg : Config) (sys : Sys) (io : Io) : Sys × Bool :=
  if cfg.persisted && (sys.state.snapshotDirty || !cfg.journaled) then saveSnapshot sys io else (sys, true)

/-! ### Groups -/

def namespaceOutboxCount (groups : OrderedMap JsString Group) (name : JsString) : ℕ :=
  groups.sumBy fun _ group => if group.ns = some name then 1 else 0

def assertNamespaceOutboxCapacity (groups : OrderedMap JsString Group) (info : Option NamespaceInfo)
    (failure : Failure) : Except Failure Unit :=
  match info with
  | none => pure ()
  | some info =>
    match info.caps.maxOutboxes with
    | none => pure ()
    | some maxOutboxes => require (namespaceOutboxCount groups info.name < maxOutboxes) failure

/-- What a live call says when a namespace has as many outboxes as it can. -/
def outboxCapacity : Failure := ⟨"namespace at outbox capacity", 503⟩

def bindGroupNamespace (s : State) (group : Group) (info : Option NamespaceInfo) : Except Failure Group :=
  match info with
  | none => pure group
  | some info =>
    match group.ns with
    | some name => do
      require (name = info.name) ⟨"namespace mismatch", 400⟩
      pure group
    | none => do
      assertNamespaceOutboxCapacity s.groups (some info) outboxCapacity
      pure { group with ns := some info.name }

/-- `ensureGroup`: the group that is to be in the state. -/
def ensureGroup (cfg : Config) (s : State) (appId : JsString) (info : Option NamespaceInfo)
    (inviteKey : JsString) (now : ℤ) : Except Failure Group := do
  require (appId.isEmpty = false ∧ appId.length ≤ cfg.maxAppIdLength) ⟨"bad appId", 400⟩
  match s.groups.get? appId with
  | some group => bindGroupNamespace s group info
  | none => do
    require (s.groups.size < cfg.maxGroups) ⟨"relay at group capacity", 503⟩
    assertNamespaceOutboxCapacity s.groups info outboxCapacity
    pure
      { inviteKey := inviteKey
        rows := .empty
        version := 0
        directorySeq := 0
        ns := info.map NamespaceInfo.name
        createdAt := some now }

def State.setGroup (s : State) (appId : JsString) (group : Group) : State :=
  { s with groups := s.groups.set appId group }

inductive Reply where
  | created (inviteKey : JsString)
  | appended (key : JsString)
  | suppressed (drop : Bool)
  | swept (count remaining : ℕ)
  | flushed

/-- What a call leaves, and what it returns or throws. -/
structure Outcome where
  sys : Sys
  result : Except Failure Reply

/-- `fail('persistence failed', 500, err)`. -/
def persistenceFailed : Failure := ⟨"persistence failed", 500⟩

def namespaceInfoForCreate (cfg : Config) (ns : Option JsString) : Except Failure (Option NamespaceInfo) :=
  match ns with
  | none => pure none
  | some ns => (demand (cfg.registry.get ns) ⟨"unknown namespace", 400⟩).map some

/-- The group that `create` is about. -/
def planCreate (cfg : Config) (s : State) (appId : JsString) (ns : Option JsString) (inviteKey : JsString)
    (now : ℤ) : Except Failure Group := do
  let info ← namespaceInfoForCreate cfg ns
  ensureGroup cfg s appId info inviteKey now

/-- The group of a failed `create` is as it was. -/
def undoCreate (s : State) (appId : JsString) (previous : Option Group) : State :=
  match previous with
  | none => { s with groups := s.groups.delete appId }
  | some previous =>
    match s.groups.get? appId with
    | none => s
    | some group => s.setGroup appId { group with ns := previous.ns }

def create (cfg : Config) (sys : Sys) (appId : JsString) (ns : Option JsString) (inviteKey : JsString)
    (now : ℤ) (io : Io) : Outcome :=
  let s := sys.state
  match planCreate cfg s appId ns inviteKey now with
  | .error failure => ⟨sys, .error failure⟩
  | .ok group =>
    let previous := s.groups.get? appId
    let body := if previous.isSome then none
      else some (.create appId group.inviteKey group.ns group.createdAt)
    match saveState cfg { sys with state := s.setGroup appId group } body io with
    | (saved, true) => ⟨saved, .ok (.created group.inviteKey)⟩
    | (saved, false) =>
      ⟨{ saved with state := undoCreate saved.state appId previous }, .error persistenceFailed⟩

/-! ### Appends -/

mutual

/-- `String(value)`; the text of an object that has a `toString` of its own cannot be made. -/
def toText : Json → Option JsString
  | .null => some (ofText "null")
  | .bool true => some (ofText "true")
  | .bool false => some (ofText "false")
  | .number n => some n.text
  | .string s => some s
  | .array items => (itemTexts items).map Json.join
  | .object members =>
    if (members.lookup (ofText "toString")).isSome then none else some (ofText "[object Object]")

/-- The texts of items; null is the empty text. -/
def itemTexts : List Json → Option (List JsString)
  | [] => some []
  | .null :: items => (itemTexts items).map ([] :: ·)
  | item :: items => (toText item).bind fun text => (itemTexts items).map (text :: ·)

end

/-- `Buffer.byteLength(JSON.stringify(data))`. -/
def jsonSize (data : Json) : ℕ := (JsString.utf8 data.text).length

/-- `type.replace(':', '!')`. -/
def mangle : JsString → JsString
  | [] => []
  | u :: rest => if u = 0x3a then 0x21 :: rest else u :: mangle rest

def rowKey (type id : JsString) : JsString := mangle type ++ 0x21 :: id

def namespaceInfoForAppend (cfg : Config) (data : Json) : Except Failure (Option NamespaceInfo) :=
  match recordNamespace data, cfg.verifyAppend, cfg.registry.configured with
  | none, .custom _, false => pure none
  | none, _, _ => .error ⟨"missing namespace", 400⟩
  | some ns, _, _ => do
    let info ← demand (cfg.registry.get ns) ⟨"unknown namespace", 400⟩
    require (namespaceRecordAllowed info data = true) ⟨"namespace policy rejected record", 400⟩
    pure (some info)

/-- What the configured verifier says. -/
def verdict (cfg : Config) (appId type : JsString) (data : Json) (info : Option NamespaceInfo) : Verdict :=
  match cfg.verifyAppend with
  | .off => .verified
  | .signature verifyDetached =>
    if verifyOutboxRecordSignature verifyDetached cfg.registry appId type data then .verified else .refused
  | .custom verify => verify appId type data info

/-- The id of a record, unless it is missing or null. -/
def recordId : Json → Option Json
  | .object members =>
    match getMember members (ofText "id") with
    | none => none
    | some .null => none
    | some id => some id
  | _ => none

/-- What an append has checked without the state. -/
structure CheckedAppend where
  info : Option NamespaceInfo
  id : JsString
  size : ℕ

/-- The first checks of `append`. -/
def checkAppend (cfg : Config) (appId type : JsString) (data : Json) : Except Failure CheckedAppend := do
  require (type.length ≤ 64) ⟨"bad op", 400⟩
  let id ← demand (recordId data) ⟨"bad op", 400⟩
  let info ← namespaceInfoForAppend cfg data
  let id ← demand (toText id) ⟨"Cannot convert object to primitive value", 500⟩
  require (id.length ≤ cfg.maxIdLength) ⟨"id too long", 400⟩
  let size := jsonSize data
  require (size ≤ namespaceCap info NamespaceCaps.maxValueBytes cfg.maxValueBytes) ⟨"record too large", 413⟩
  require (verdict cfg appId type data info ≠ .pending) ⟨"async verifier unsupported", 500⟩
  require (verdict cfg appId type data info = .verified) ⟨"bad signature", 400⟩
  pure ⟨info, id, size⟩

def oldSize (group : Group) (key : JsString) : ℕ := ((group.rows.get? key).map jsonSize).getD 0

/-- The key of the head of an outbox. -/
def headKey (appId : JsString) : JsString := ofText "head!" ++ appId

def rememberAppendEvent (cfg : Config) (s : State) (event : AppendEvent) : State :=
  let events := (s.appendEventsByApp.get? event.appId).getD [] ++ [event]
  { s with
    appendEventsByApp := s.appendEventsByApp.set event.appId
      (events.drop (events.length - cfg.maxAppendEventsPerOutbox)) }

/-- The capacity checks of an append. -/
def checkCapacity (cfg : Config) (s : State) (group : Group) (info : Option NamespaceInfo) (key : JsString)
    (size : ℕ) (rowCapacity storageCapacity : Failure) : Except Failure Unit := do
  require (group.rows.get? key = none →
    group.rows.size < namespaceCap info NamespaceCaps.maxEntriesPerOutbox cfg.maxRowsPerGroup) rowCapacity
  require (oldSize group key < size → s.totalBytes - oldSize group key + size ≤ cfg.maxTotalBytes) storageCapacity

def writeRow (cfg : Config) (s : State) (appId : JsString) (group : Group) (key type : JsString)
    (data : Json) (size : ℕ) : State :=
  let head := key = headKey appId
  let directorySeq := if head then s.directorySeq + 1 else s.directorySeq
  let s := s.setGroup appId { group with
    rows := group.rows.set key data
    version := group.version + 1
    directorySeq := if head then directorySeq else group.directorySeq }
  rememberAppendEvent cfg
    { s with
      totalBytes := s.totalBytes + size - oldSize group key
      directorySeq := directorySeq
      appendSeq := s.appendSeq + 1 }
    { seq := s.appendSeq + 1, appId := appId, key := key, type := type, version := group.version + 1 }

/-- What an append goes back to. `before` is the state at the call, and `group` the one that was to be
written to. -/
def undoAppend (s before : State) (appId : JsString) (group : Group) (key : JsString)
    (info : Option NamespaceInfo) (tracked : Bool) (size : ℕ) : State :=
  let bucketKey := info.map NamespaceInfo.name
  let windows := if tracked then
      s.byteWindows.set bucketKey (unchargeNamespaceByteBucket (namespaceByteBucket s bucketKey))
    else s.byteWindows
  let groups :=
    match before.groups.get? appId, s.groups.get? appId with
    | none, _ => s.groups.delete appId
    | some _, none => s.groups
    | some previous, some current =>
      s.groups.set appId
        { current with
          rows := match group.rows.get? key with
            | none => current.rows.delete key
            | some old => current.rows.set key old
          version := current.version - 1
          directorySeq := group.directorySeq
          ns := previous.ns }
  { s with
    byteWindows := windows
    groups := groups
    totalBytes := s.totalBytes + oldSize group key - size
    directorySeq := before.directorySeq
    appendSeq := before.appendSeq
    appendEventsByApp := match before.appendEventsByApp.get? appId with
      | some events => s.appendEventsByApp.set appId events
      | none => s.appendEventsByApp.delete appId }

/-- What an append has checked without the state, and the group that it is about. -/
def planAppend (cfg : Config) (s : State) (appId type : JsString) (data : Json) (inviteKey : JsString)
    (created : ℤ) : Except Failure (CheckedAppend × Group) := do
  let checked ← checkAppend cfg appId type data
  let group ← ensureGroup cfg s appId checked.info inviteKey created
  pure (checked, group)

/-- The checks of an append against the state, which by now has the group. -/
def admitAppend (cfg : Config) (s : State) (appId : JsString) (group : Group) (key : JsString)
    (checked : CheckedAppend) (now : ℤ) : State × Except Failure Bool :=
  let s := s.setGroup appId group
  match checkCapacity cfg s group checked.info key checked.size ⟨"outbox at row capacity", 503⟩
      ⟨"relay at storage capacity", 503⟩ with
  | .error failure => (s, .error failure)
  | .ok () => assertNamespaceByteBudget cfg s checked.info checked.size now

/-- An append that passed its checks is made, and charged. -/
def applyAppend (cfg : Config) (s : State) (appId : JsString) (group : Group) (key type : JsString)
    (data : Json) (checked : CheckedAppend) (tracked : Bool) (now : ℤ) : State :=
  let s := writeRow cfg s appId group key type data checked.size
  if tracked then
    let bucketKey := checked.info.map NamespaceInfo.name
    s.setBucket bucketKey (chargeNamespaceByteBucket (namespaceByteBucket s bucketKey) checked.size now)
  else s

def journalAppendEntry (appId : JsString) (group : Group) (type : JsString) (data : Json) (now : ℤ) :
    EntryBody :=
  .append appId group.inviteKey (group.ns <|> recordNamespace data) (some now) type data

def append (cfg : Config) (sys : Sys) (appId type : JsString) (data : Json) (inviteKey : JsString)
    (created now : ℤ) (io : Io) : Outcome :=
  let s := sys.state
  match planAppend cfg s appId type data inviteKey created with
  | .error failure => ⟨sys, .error failure⟩
  | .ok (checked, group) =>
    let key := rowKey type checked.id
    match admitAppend cfg s appId group key checked now with
    | (admitted, .error failure) => ⟨{ sys with state := admitted }, .error failure⟩
    | (admitted, .ok tracked) =>
      let applied := applyAppend cfg admitted appId group key type data checked tracked now
      match saveState cfg { sys with state := applied } (some (journalAppendEntry appId group type data now)) io with
      | (saved, true) => ⟨saved, .ok (.appended key)⟩
      | (saved, false) =>
        ⟨{ saved with
            state := undoAppend saved.state s appId group key checked.info tracked checked.size },
          .error persistenceFailed⟩

/-! ### Takedowns and sweeps -/

/-- An id is suppressed, or not any more. -/
def State.suppress (s : State) (composite : JsString) (drop : Bool) : State :=
  { s with
    suppressed := if drop then s.suppressed.set composite () else s.suppressed.delete composite }

def applyTakedown (cfg : Config) (sys : Sys) (appId key : JsString) (drop : Bool) (io : Io) : Outcome :=
  match suppressionKey cfg appId key with
  | none => ⟨sys, .error ⟨"bad takedown id", 400⟩⟩
  | some composite =>
    if drop = sys.state.suppressed.has composite then ⟨sys, .ok (.suppressed drop)⟩
    else
      match saveState cfg { sys with state := sys.state.suppress composite drop }
          (some (.takedown appId key drop)) io with
      | (saved, true) => ⟨saved, .ok (.suppressed drop)⟩
      | (saved, false) =>
        ⟨{ saved with state := saved.state.suppress composite (!drop) }, .error persistenceFailed⟩

def deleteGroupState (s : State) (appId : JsString) : State :=
  { s with
    groups := s.groups.delete appId
    appendEventsByApp := s.appendEventsByApp.delete appId
    suppressed := s.suppressed.filter fun composite _ => !(appId ++ [0]).isPrefixOf composite }

/-- A group is empty, and older than the cutoff. -/
def isGhost (cutoff : ℤ) (group : Group) : Bool :=
  decide (group.rows.size = 0) && decide (group.version = 0) && decide (group.createdAt.getD 0 ≤ cutoff)

def victims (s : State) (cutoff : ℤ) : List JsString :=
  (s.groups.entries.filter fun e => isGhost cutoff e.2).map Prod.fst

/-- The groups of a batch are put back. -/
def putBack (s : State) (groups : List (JsString × Group)) : State :=
  groups.foldl (fun s e => s.setGroup e.1 e.2) s

/-- The batches of `sweepGhosts`, and how many groups were swept. -/
def sweepBatches (cfg : Config) (ios : ℕ → Io) : ℕ → ℕ → List JsString → Sys → ℕ → Sys × Except Failure ℕ
  | 0, _, _, sys, swept => (sys, .ok swept)
  | fuel + 1, i, appIds, sys, swept =>
    if appIds.isEmpty then (sys, .ok swept)
    else
      let batch := appIds.take SWEEP_JOURNAL_BATCH
      let groups := batch.filterMap fun appId => (sys.state.groups.get? appId).map fun group => (appId, group)
      let s := batch.foldl deleteGroupState sys.state
      match saveState cfg { sys with state := s } (some (.sweep batch)) (ios i) with
      | (saved, true) =>
        sweepBatches cfg ios fuel (i + 1) (appIds.drop SWEEP_JOURNAL_BATCH) saved (swept + batch.length)
      | (saved, false) => ({ saved with state := putBack saved.state groups }, .error persistenceFailed)

def sweepGhosts (cfg : Config) (sys : Sys) (ttlMs now : ℤ) (ios : ℕ → Io) : Outcome :=
  let ttl := if 0 ≤ ttlMs then ttlMs else DEFAULT_SWEEP_TTL_MS
  let appIds := victims sys.state (now - ttl)
  match sweepBatches cfg ios appIds.length 0 appIds sys 0 with
  | (swept, .ok count) => ⟨swept, .ok (.swept count swept.state.groups.size)⟩
  | (swept, .error failure) => ⟨swept, .error failure⟩

/-! ### Loading -/

def restoreVerifies (cfg : Config) (appId : JsString) (type : Option JsString) (data : Json)
    (info : Option NamespaceInfo) : Bool :=
  match cfg.verifyAppend, type with
  | .off, _ => true
  | _, none => false
  | _, some type => !type.isEmpty && decide (verdict cfg appId type data info = .verified)

/-- The type of a row, as far as it can be seen from its key. -/
def rowType (key : JsString) (data : Json) : Option JsString :=
  ((recordId data).bind toText).bind fun id =>
    if (0x21 :: id).isSuffixOf key then some (key.take (key.length - id.length - 1)) else none

def normalizePersistedNamespace (ns : Option JsString) : Option JsString := ns.bind normalizeNamespaceName

/-- The namespace of something persisted, which has to be registered. -/
def persistedNamespace (cfg : Config) (ns : Option JsString) : Except Failure (Option NamespaceInfo) :=
  match ns with
  | none => pure none
  | some ns => (demand (cfg.registry.get ns) ⟨"persisted outbox namespace is not registered", 400⟩).map some

/-- The rows of a group that are verified. -/
def restoreRows (cfg : Config) (appId : JsString) (info : Option NamespaceInfo) :
    List (JsString × Json) → OrderedMap JsString Json → ℕ → Except Failure (OrderedMap JsString Json × ℕ)
  | [], rows, total => pure (rows, total)
  | (key, value) :: rest, rows, total =>
    if cfg.maxIdLength + 65 < key.length then restoreRows cfg appId info rest rows total
    else if restoreVerifies cfg appId (rowType key value) value info = false then
      restoreRows cfg appId info rest rows total
    else do
      let size := jsonSize value
      require (size ≤ namespaceCap info NamespaceCaps.maxValueBytes cfg.maxValueBytes)
        ⟨"persisted outbox row too large", 413⟩
      require (rows.size < namespaceCap info NamespaceCaps.maxEntriesPerOutbox cfg.maxRowsPerGroup)
        ⟨"persisted outbox row capacity exceeded", 503⟩
      require (total + size ≤ cfg.maxTotalBytes) ⟨"persisted outbox storage capacity exceeded", 503⟩
      restoreRows cfg appId info rest (rows.set key value) (total + size)

/-- What of the groups of a snapshot was restored. -/
structure Restored where
  groups : OrderedMap JsString Group
  (totalBytes directorySeq : ℕ)

def restoreGroup (cfg : Config) (acc : Restored) (appId : JsString) (group : GroupState) :
    Except Failure Restored :=
  if appId.isEmpty || cfg.maxAppIdLength < appId.length then pure acc
  else do
    require (acc.groups.size < cfg.maxGroups) ⟨"persisted outbox group capacity exceeded", 503⟩
    let ns := normalizePersistedNamespace group.ns
    let info ← persistedNamespace cfg ns
    assertNamespaceOutboxCapacity acc.groups info ⟨"persisted namespace outbox capacity exceeded", 503⟩
    let (rows, total) ← restoreRows cfg appId info group.rows .empty acc.totalBytes
    let seen := max acc.directorySeq group.directorySeq
    let renumbered := group.directorySeq = 0 ∧ rows.has (headKey appId) = true
    pure
      { groups := acc.groups.set appId
          { group with
            rows := rows
            directorySeq := if renumbered then seen + 1 else group.directorySeq
            ns := ns
            version := if rows.size ≤ group.version then group.version else rows.size }
        totalBytes := total
        directorySeq := if renumbered then seen + 1 else seen }

/-- `normalizeAppendEvent`, as a check. -/
def isAppendEvent (appId : JsString) (event : AppendEvent) : Bool :=
  decide (1 ≤ event.seq) && decide (1 ≤ event.version) && decide (event.appId = appId) &&
    !event.key.isEmpty && decide (event.key.length ≤ DEFAULT_MAX_ID_LENGTH + 65) &&
      !event.type.isEmpty && decide (event.type.length ≤ 64)

/-- The events of a group in a snapshot. -/
def restoreEvents (cfg : Config) (groups : OrderedMap JsString Group)
    (acc : OrderedMap JsString (List AppendEvent) × ℕ) (e : JsString × List AppendEvent) :
    OrderedMap JsString (List AppendEvent) × ℕ :=
  if e.1.isEmpty || cfg.maxAppIdLength < e.1.length || !groups.has e.1 then acc
  else
    let restored := e.2.filter (isAppendEvent e.1)
    let appendSeq := (restored.map AppendEvent.seq).foldl max acc.2
    if restored.isEmpty then (acc.1, appendSeq)
    else (acc.1.set e.1 (restored.drop (restored.length - cfg.maxAppendEventsPerOutbox)), appendSeq)

/-- The window of a namespace in a snapshot. -/
def restoreWindow (now : ℤ) (windows : OrderedMap (Option JsString) Bucket)
    (e : Option JsString × List Charge) : OrderedMap (Option JsString) Bucket :=
  match e.1.map normalizeNamespaceName with
  | some none => windows
  | name =>
    let name := name.join
    if windows.has name then windows
    else
      let charges := e.2.filter fun charge => decide (0 < charge.ts) && decide (0 < charge.bytes)
      let bucket := pruneNamespaceByteWindow
        { charges := charges, total := (charges.map fun charge => (charge.bytes : ℤ)).sum } now
      if bucket.charges.isEmpty then windows else windows.set name bucket

/-- `applyState`, in a log that has loaded nothing. -/
def applyState (cfg : Config) (snap : Snapshot) (now : ℤ) : Except Failure State := do
  let restored ← snap.groups.foldlM (fun acc e => restoreGroup cfg acc e.1 e.2)
    { groups := .empty, totalBytes := 0, directorySeq := 0 }
  let (events, appendSeq) := snap.appendEvents.foldl (restoreEvents cfg restored.groups) (.empty, 0)
  let suppressed := (snap.suppressed.filterMap fun e => suppressionKey cfg e.1 e.2).foldl
    (fun suppressed composite => suppressed.set composite ()) OrderedMap.empty
  pure
    { restored with
      appendEventsByApp := events
      suppressed := suppressed
      byteWindows := snap.byteWindows.foldl (restoreWindow now) .empty
      directorySeq := max snap.directorySeq restored.directorySeq
      appendSeq := max snap.appendSeq appendSeq
      journalSeq := snap.journalSeq
      entriesSinceCheckpoint := 0
      snapshotDirty := false }

/-- An id that a journal entry can have. -/
def isEntryId (maxLength : ℕ) (id : JsString) : Bool := !id.isEmpty && decide (id.length ≤ maxLength)

/-- `normalizeJournalEntry`, as a check of what an entry says. -/
def isJournalEntry : EntryBody → Bool
  | .takedown appId key _ =>
    isEntryId DEFAULT_MAX_APP_ID_LENGTH appId && isEntryId (DEFAULT_MAX_ID_LENGTH + 65) key
  | .sweep appIds => !appIds.isEmpty && appIds.all (isEntryId DEFAULT_MAX_APP_ID_LENGTH)
  | .create appId inviteKey _ _ => isEntryId DEFAULT_MAX_APP_ID_LENGTH appId && decide (inviteKey.length = 64)
  | .append appId inviteKey _ _ type data =>
    isEntryId DEFAULT_MAX_APP_ID_LENGTH appId && decide (inviteKey.length = 64) && isEntryId 64 type &&
      (match (recordId data).bind toText with
        | none => false
        | some id => decide (id.length ≤ DEFAULT_MAX_ID_LENGTH)) &&
      decide (jsonSize data ≤ DEFAULT_MAX_VALUE_BYTES)

/-- The group that a replayed append writes to. -/
def replayGroup (cfg : Config) (s : State) (appId inviteKey : JsString) (info : Option NamespaceInfo) :
    Except Failure Group :=
  match s.groups.get? appId with
  | none => do
    require (s.groups.size < cfg.maxGroups) ⟨"persisted outbox group capacity exceeded", 503⟩
    assertNamespaceOutboxCapacity s.groups info outboxCapacity
    pure
      { inviteKey := inviteKey
        rows := .empty
        version := 0
        directorySeq := 0
        ns := info.map NamespaceInfo.name
        createdAt := none }
  | some group =>
    match group.ns, info with
    | none, info => do
      assertNamespaceOutboxCapacity s.groups info outboxCapacity
      pure { group with ns := info.map NamespaceInfo.name }
    | some _, none => pure group
    | some name, some info => do
      require (name = info.name) ⟨"persisted outbox namespace mismatch", 400⟩
      pure group

/-- `applyJournalEntry`, of a sweep, a takedown, a create or an append. -/
def applyJournalEntry (cfg : Config) (now : ℤ) (s : State) : EntryBody → Except Failure State
  | .sweep appIds => pure (appIds.foldl deleteGroupState s)
  | .takedown appId key drop => do
    require (appId.length ≤ cfg.maxAppIdLength) ⟨"persisted outbox appId too long", 400⟩
    match suppressionKey cfg appId key with
    | none => pure s
    | some composite => pure (s.suppress composite drop)
  | .create appId inviteKey ns createdAt => do
    require (appId.length ≤ cfg.maxAppIdLength) ⟨"persisted outbox appId too long", 400⟩
    let name := normalizePersistedNamespace ns
    let info ← persistedNamespace cfg name
    if s.groups.has appId then pure s
    else do
      require (s.groups.size < cfg.maxGroups) ⟨"persisted outbox group capacity exceeded", 503⟩
      assertNamespaceOutboxCapacity s.groups info outboxCapacity
      pure (s.setGroup appId
        { inviteKey := inviteKey
          rows := .empty
          version := 0
          directorySeq := 0
          ns := name
          createdAt := createdAt })
  | .append appId inviteKey ns ts type data => do
    require (appId.length ≤ cfg.maxAppIdLength) ⟨"persisted outbox appId too long", 400⟩
    let name := normalizePersistedNamespace ns
    let _ ← persistedNamespace cfg name
    let info ← persistedNamespace cfg (name <|> recordNamespace data)
    if restoreVerifies cfg appId (some type) data info = false then pure s
    else do
      let id ← demand ((recordId data).bind toText) ⟨"Cannot convert object to primitive value", 500⟩
      require (id.length ≤ cfg.maxIdLength) ⟨"persisted outbox id too long", 400⟩
      let size := jsonSize data
      require (size ≤ namespaceCap info NamespaceCaps.maxValueBytes cfg.maxValueBytes)
        ⟨"persisted outbox row too large", 413⟩
      let group ← replayGroup cfg s appId inviteKey info
      let key := rowKey type id
      let s := s.setGroup appId group
      checkCapacity cfg s group info key size ⟨"persisted outbox row capacity exceeded", 503⟩
        ⟨"persisted outbox storage capacity exceeded", 503⟩
      pure (noteNamespaceByteCharge cfg (writeRow cfg s appId group key type data size) info size ts now)

/-- An entry that the snapshot does not have is replayed. -/
def replayEntry (cfg : Config) (now : ℤ) (afterSeq : ℕ) (s : State) (e : Entry) : Except Failure State :=
  if afterSeq < e.seq then applyJournalEntry cfg now s e.body else pure s

/-- `loadJournal`, from the entry that is expected next. -/
def loadJournal (cfg : Config) (now : ℤ) (afterSeq : ℕ) : List Entry → ℕ → State → Except Failure State
  | [], _, s => pure s
  | e :: rest, expected, s => do
    require (e.seq = expected ∧ isJournalEntry e.body = true)
      ⟨"corrupt outboxlog journal entry " ++ toString expected, 500⟩
    let s ← replayEntry cfg now afterSeq s e
    loadJournal cfg now afterSeq rest (expected + 1) { s with journalSeq := e.seq }

/-- `loadState`. -/
def load (cfg : Config) (disk : Disk) (now : ℤ) : Except Failure State := do
  match cfg.persisted, disk.snapshot with
  | true, some snap =>
    let s ← applyState cfg snap now
    if cfg.journaled then loadJournal cfg now s.journalSeq disk.journal 1 s else pure s
  | _, _ => if cfg.journaled then loadJournal cfg now 0 disk.journal 1 .new else pure .new

end HiveRelay.Outbox
