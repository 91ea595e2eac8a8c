import HiveRelay.Lib.JsonParse
import HiveRelay.Lib.OrderedMap
import HiveRelay.Lib.Utf8
import HiveRelay.Outbox.Record

/-!
# The persistent store

A map that is kept in two files: a snapshot, and a log with a line for each change since. An instance
reads both when it is opened. A change is appended to the log before it is made, and a snapshot replaces
the other one by a rename, after which the log is cut.

A write to the log can fail or be cut off by a crash, after any of its bytes. A snapshot can fail, and a
crash can come before the rename or between the rename and the cut.

The files are bytes. What is read of them is decoded and parsed, whatever it is. A line that sets a key
that is not a string is left out, and so is one without a value; the store writes neither.
-/

namespace HiveRelay.Persistence

open JsString (ofText utf8)
open Outbox (trim)

/-! ### Lines -/

inductive Entry where
  | set (k : JsString) (v : Json)
  | del (k : JsString)

def Entry.applyMap (e : Entry) (map : OrderedMap JsString Json) : OrderedMap JsString Json :=
  match e with
  | .set k v => map.set k v
  | .del k => map.delete k

def Entry.json : Entry → Json
  | .set k v => .object [(ofText "op", .string (ofText "set")), (ofText "k", .string k), (ofText "v", v)]
  | .del k => .object [(ofText "op", .string (ofText "del")), (ofText "k", .string k)]

def walLine (entry : Entry) : JsString := Json.text entry.json ++ [0x0a]

def field (v : Json) (key : String) : Option Json :=
  match v with
  | .object members => members.lookup (ofText key)
  | _ => none

/-- A line that has been parsed; `none` is thrown. -/
def applyEntry (map : OrderedMap JsString Json) (entry : Json) : Option (OrderedMap JsString Json) :=
  match entry with
  | .null => none
  | entry =>
    match field entry "op" with
    | some (.string op) =>
      if op = ofText "set" then
        match field entry "k", field entry "v" with
        | some (.string k), some v => some (map.set k v)
        | _, _ => some map
      else if op = ofText "del" then
        match field entry "k" with
        | some (.string k) => some (map.delete k)
        | _ => some map
      else some map
    | _ => some map

/-- A line of the log; `none` stops the replay. -/
def replayLine (map : OrderedMap JsString Json) (line : JsString) : Option (OrderedMap JsString Json) :=
  if trim line = [] then some map else (Json.parse (trim line)).bind (applyEntry map)

def replay : OrderedMap JsString Json → List JsString → OrderedMap JsString Json
  | map, [] => map
  | map, line :: lines =>
    match replayLine map line with
    | some map => replay map lines
    | none => map

/-- `split('\n')`. -/
def splitLines : JsString → List JsString
  | [] => [[]]
  | u :: s =>
    if u = 0x0a then [] :: splitLines s
    else
      match splitLines s with
      | line :: lines => (u :: line) :: lines
      | [] => [[u]]

/-! ### Objects -/

/-- A key that objects list first, in the order of the numbers. -/
def arrayIndex (key : JsString) : Option ℕ :=
  let n := key.foldl (fun n u => n * 10 + (u.toNat - 0x30)) 0
  if key.all Json.isDigit && key != [] && (key == [0x30] || key.head? != some 0x30) && n < 2 ^ 32 - 1 then
    some n
  else none

/-- The order in which an object lists members that were set in this order. -/
def ownOrder (members : List (JsString × Json)) : List (JsString × Json) :=
  (members.filter fun m => (arrayIndex m.1).isSome).mergeSort
      (fun m m' => decide ((arrayIndex m.1).getD 0 ≤ (arrayIndex m'.1).getD 0)) ++
    members.filter fun m => (arrayIndex m.1).isNone

/-- `Object.entries`; `none` is thrown. -/
def ownEntries : Json → Option (List (JsString × Json))
  | .null => none
  | .object members => some (ownOrder members)
  | .array items => some (items.zipIdx.map fun (v, i) => (ofText (Nat.repr i), v))
  | .string s => some (s.zipIdx.map fun (u, i) => (ofText (Nat.repr i), .string [u]))
  | _ => some []

/-- The key that a plain object does not take as a member: it sets the prototype. -/
def protoKey : JsString := ofText "__proto__"

def snapshotData (map : OrderedMap JsString Json) : List (JsString × Json) :=
  ownOrder (map.entries.filter fun e => e.1 ≠ protoKey)

/-! ### Files and instances -/

structure Disk where
  (snapshot tmp wal : Option Bytes)

/-- The snapshot, read into a map. What does not parse is reported and left out. -/
def loadSnapshot (map : OrderedMap JsString Json) (raw : JsString) : OrderedMap JsString Json :=
  if trim raw = [] then map
  else
    match (Json.parse raw).bind ownEntries with
    | some entries => entries.foldl (fun map e => map.set e.1 e.2) map
    | none => map

/-- The file of the snapshot, if there is one. -/
def readSnapshot (map : OrderedMap JsString Json) : Option Bytes → OrderedMap JsString Json
  | some bytes => loadSnapshot map (Utf8.decode bytes)
  | none => map

/-- The file of the log, if there is one. -/
def readWal (map : OrderedMap JsString Json) : Option Bytes → OrderedMap JsString Json
  | some bytes => replay map (splitLines (Utf8.decode bytes))
  | none => map

/-- What `open` reads into the map of an instance. -/
def Disk.load (disk : Disk) (map : OrderedMap JsString Json) : OrderedMap JsString Json :=
  readWal (readSnapshot map disk.snapshot) disk.wal

/-- The map that a new instance recovers. -/
def Disk.recovered (disk : Disk) : OrderedMap JsString Json := disk.load .empty

structure Options where
  (snapshotOps snapshotMs : ℤ)
  autoSnapshot : Bool

/-- `opts.snapshotOps || DEFAULT_SNAPSHOT_OPS`. -/
def Options.limit (o : Options) : ℤ := if o.snapshotOps = 0 then 1000 else o.snapshotOps

/-- Whether `open` starts the timer. -/
def Options.timer (o : Options) : Bool :=
  o.autoSnapshot && decide (0 < if o.snapshotMs = 0 then 60000 else o.snapshotMs)

structure Store where
  map : OrderedMap JsString Json
  walOpen : Bool
  opsSinceSnapshot : ℕ
  (closed timer : Bool)

def Store.new : Store := ⟨.empty, false, 0, false, false⟩

def Store.changed (s : Store) (e : Entry) : Store :=
  { s with map := e.applyMap s.map, opsSinceSnapshot := s.opsSinceSnapshot + 1 }

/-- Whether a change is followed by a snapshot. -/
def Options.saves (o : Options) (s : Store) : Bool :=
  o.autoSnapshot && decide (o.limit ≤ s.opsSinceSnapshot)

inductive Error where
  | storeClosed | storeNotOpen | io
  deriving DecidableEq

inductive Outcome where
  | returned
  | threw (error : Error)
  | crashed
  deriving DecidableEq

/-- What happens to a write of the log: it fails, or the process ends, after `n` bytes. -/
inductive Write where
  | done
  | fails (n : ℕ)
  | crashes (n : ℕ)
  deriving DecidableEq

/-- What happens to a snapshot: it fails, or the process ends, after `n` bytes of the temporary file, or
the process ends between the rename and the cut of the log. -/
inductive Save where
  | done
  | fails (n : ℕ)
  | crashes (n : ℕ)
  | crashesRenamed

/-! ### Calls -/

def Store.open (o : Options) (disk : Disk) (s : Store) : Disk × Store :=
  if s.walOpen then (disk, s)
  else ({ disk with wal := some (disk.wal.getD []) },
    { s with map := disk.load s.map, walOpen := true, timer := o.timer })

def appendWal (disk : Disk) (s : Store) (entry : Entry) (w : Write) : Outcome × Disk :=
  if !s.walOpen then (.threw .storeNotOpen, disk)
  else
    let line := utf8 (walLine entry)
    let wrote (n : ℕ) : Disk := { disk with wal := some (disk.wal.getD [] ++ line.take n) }
    match w with
    | .done => (.returned, wrote line.length)
    | .fails n => (.threw .io, wrote n)
    | .crashes n => (.crashed, wrote n)

def Store.snapshot (disk : Disk) (s : Store) (save : Save) : Outcome × Disk × Store :=
  if s.closed then (.returned, disk, s)
  else
    let data := utf8 (Json.text (.object (snapshotData s.map)))
    match save with
    | .fails n => (.threw .io, { disk with tmp := some (data.take n) }, s)
    | .crashes n => (.crashed, { disk with tmp := some (data.take n) }, s)
    | .crashesRenamed => (.crashed, { disk with snapshot := some data, tmp := none }, s)
    | .done =>
      (.returned, { snapshot := some data, tmp := none, wal := if s.walOpen then some [] else disk.wal },
        { s with opsSinceSnapshot := 0 })

/-- The files and the instance, if there is one. -/
structure Sys where
  disk : Disk
  store : Option Store

/-- An empty directory, without an instance. -/
def Sys.init : Sys := ⟨⟨none, none, none⟩, none⟩

def Sys.after (outcome : Outcome) (disk : Disk) (s : Store) : Sys × Outcome :=
  (⟨disk, if outcome = .crashed then none else some s⟩, outcome)

/-- A snapshot inside of another call, which catches what it throws. -/
def Store.caught (disk : Disk) (s : Store) (save : Save) : Sys × Outcome :=
  match s.snapshot disk save with
  | (.crashed, disk, s) => Sys.after .crashed disk s
  | (_, disk, s) => Sys.after .returned disk s

def Store.set (o : Options) (disk : Disk) (s : Store) (k : JsString) (v : Json) (w : Write) (save : Save) :
    Sys × Outcome :=
  if s.closed then Sys.after (.threw .storeClosed) disk s
  else
    let (disk, s) := s.open o disk
    match appendWal disk s (.set k v) w with
    | (.returned, disk) =>
      let s := s.changed (.set k v)
      if o.saves s then s.caught disk save
      else Sys.after .returned disk s
    | (outcome, disk) => Sys.after outcome disk s

def Store.delete (o : Options) (disk : Disk) (s : Store) (k : JsString) (w : Write) : Sys × Outcome :=
  if s.closed then Sys.after (.threw .storeClosed) disk s
  else
    let (disk, s) := s.open o disk
    if !s.map.has k then Sys.after .returned disk s
    else
      match appendWal disk s (.del k) w with
      | (.returned, disk) => Sys.after .returned disk (s.changed (.del k))
      | (outcome, disk) => Sys.after outcome disk s

/-- `close`. The instance is closed before its snapshot, which therefore does nothing. -/
def Store.close (disk : Disk) (s : Store) : Sys × Outcome :=
  if s.closed then Sys.after .returned disk s
  else
    let s := { s with closed := true, timer := false }
    let (_, disk, s) :=
      if 0 < s.opsSinceSnapshot then s.snapshot disk .done else (.returned, disk, s)
    Sys.after .returned disk { s with walOpen := false }

structure JsonValue where
  json : Json
  readable : json.Readable

/-- A call, with what happens to its writes. -/
inductive Event where
  | construct
  | open
  | set (k : JsString) (v : JsonValue) (w : Write) (save : Save)
  | delete (k : JsString) (w : Write)
  | snapshot (save : Save)
  | tick (save : Save)
  | close
  | kill

/-- One call. An instance follows another one that is closed, or that ended with its process. -/
def Sys.step (o : Options) (sys : Sys) (event : Event) : Option (Sys × Outcome) :=
  match event, sys.store with
  | .construct, none => some (⟨sys.disk, some .new⟩, .returned)
  | .construct, some s => if s.closed then some (⟨sys.disk, some .new⟩, .returned) else none
  | .kill, _ => some (⟨sys.disk, none⟩, .returned)
  | _, none => none
  | .open, some s => some (Sys.after .returned (s.open o sys.disk).1 (s.open o sys.disk).2)
  | .set k v w save, some s => some (s.set o sys.disk k v.json w save)
  | .delete k w, some s => some (s.delete o sys.disk k w)
  | .snapshot save, some s =>
    let (outcome, disk, s) := s.snapshot sys.disk save
    some (Sys.after outcome disk s)
  | .tick save, some s =>
    if !s.timer then none
    else if 0 < s.opsSinceSnapshot then some (s.caught sys.disk save)
    else some (Sys.after .returned sys.disk s)
  | .close, some s => some (s.close sys.disk)

end HiveRelay.Persistence
