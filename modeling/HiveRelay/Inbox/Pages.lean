import HiveRelay.Inbox.Visibility
import HiveRelay.Lib.Paging

/-!
# Reading an inbox page by page

`#readPage` returns the frames of an inbox in the order of their revisions, a bounded number at a
time. A page that leaves frames behind comes with a cursor: the position of the page, the revision at
which the first page was read, and an expiry, authenticated by a key that only the engine has. The
engine keeps no state for a reader, so frames may be appended, acknowledged and expired, and inboxes
renewed, between two pages.

A chain of pages is a run of two kinds of moves, frames and reads. Its position says what has been
read, and three things make it cover the snapshot: positions do not go back, a page has everything up
to its position, and a frame that is committed stays what it is until it expires.

## Main definitions

* `Chain`, `ChainMove` — pages that follow their cursors, between frames
* `Sound`, `Progressing` — what was read, and how far

## Main results

* `decodeReadCursor_encodeCursor` — cursors are accepted
* `pages_cover_snapshot` — pages cover their snapshot
-/

set_option linter.unusedSectionVars false

namespace HiveRelay.Inbox

open List Option OrderedMap Bytes
open Cell (maxU64 leaseEpochs)

variable {B : Type} [DecidableEq B] [Zero B]

/-! ### Cursors -/

/-- The bytes of `'HRI1'`. -/
def cursorMagic : Bytes := [0x48, 0x52, 0x49, 0x31]

def cursorBytes : ℕ := 92

/-- What cursors are made with: the bytes of a topic, and the HMAC of a prefix under `cursorKey` and
`CURSOR_DOMAIN`. -/
structure CursorAuth (B : Type) where
  topicBytes : B → Bytes
  topicBytes_length : ∀ topic, (topicBytes topic).length = 32
  mac : Bytes → Bytes
  mac_length : ∀ data, (mac data).length = 32

structure Cursor where
  (lastPosition snapshotRevision expiryMinute : ℕ)

def minuteFromMillis (millis : ℕ) : Except Failure ℕ := do
  require (millis ≤ maxU64) (failure .badEncoding "nowUnixMillis is outside u64")
  pure (millis / 60000)

def u64bytes (value : ℕ) : Except Failure Bytes := do
  require (value ≤ maxU64) (failure .badEncoding "u64 is outside u64")
  pure (ofNat 8 value)

section Cursors

variable (auth : CursorAuth B)

def encodeCursor (topic : B) (cursor : Cursor) : Except Failure Bytes := do
  let lastPosition ← u64bytes cursor.lastPosition
  let snapshotRevision ← u64bytes cursor.snapshotRevision
  let expiryMinute ← u64bytes cursor.expiryMinute
  let head := cursorMagic ++ auth.topicBytes topic ++ lastPosition ++ snapshotRevision ++ expiryMinute
  pure (head ++ auth.mac head)

def decodeReadCursor (topic : B) (raw : Bytes) (currentRevision nowUnixMillis : ℕ) :
    Except Failure Cursor :=
  if raw.length = 0 then do
    let nowMinute ← minuteFromMillis nowUnixMillis
    pure ⟨0, currentRevision, nowMinute + cursorMinutes⟩
  else do
    require (raw.length = cursorBytes) (failure .badEncoding "cursor must be exactly 92 bytes")
    require (raw.window 0 4 = cursorMagic ∧ raw.window 4 32 = auth.topicBytes topic)
      (failure .badEncoding "Inbox cursor has the wrong version or topic")
    require (auth.mac (raw.take 60) = raw.drop 60) (failure .badEncoding "Inbox cursor authentication failed")
    let cursor : Cursor := ⟨(raw.window 36 8).toNat, (raw.window 44 8).toNat, (raw.window 52 8).toNat⟩
    let nowMinute ← minuteFromMillis nowUnixMillis
    require (nowMinute ≤ cursor.expiryMinute) (failure .expired "Inbox cursor expired")
    require (cursor.expiryMinute ≤ nowMinute + cursorMinutes ∧
        cursor.lastPosition ≤ cursor.snapshotRevision ∧ cursor.snapshotRevision ≤ currentRevision)
      (failure .badEncoding "Inbox cursor snapshot tuple is invalid")
    pure cursor

end Cursors

/-! ### Pages -/

/-- The entry of a page for a frame, without the body. -/
def StoredFrame.entry (stored : StoredFrame B) : PinEntry B where
  __ := stored

/-- What `#materializePage` returns. -/
structure Page (B : Type) where
  physicalTopic : B
  snapshotRevision : ℕ
  entries : List (PinEntry B)
  nextCursor : Option Bytes
  cursorExpiryMinute : ℕ

/-- The spend of a frame has the status `'committed'`. -/
def State.committed (s : State B) (stored : StoredFrame B) : Bool :=
  (s.spends.get? stored.spendTag).any fun spend => spend.state.isCommitted

/-- The `candidates` of `#materializePage`. -/
def State.candidates (s : State B) (topic : B) (cursor : Cursor) : List (StoredFrame B) :=
  sortByKey StoredFrame.appendRevision <| (s.topicFrames topic).values.filter fun stored =>
    cursor.lastPosition < stored.appendRevision ∧
      stored.appendRevision ≤ cursor.snapshotRevision ∧ s.epochFloor < stored.expiresAtEpoch ∧
      s.committed stored

section Pages

variable (auth : CursorAuth B) (s : State B)

/-- The cursor of a page, if it leaves candidates behind. -/
def pageCursor (topic : B) (cursor : Cursor) (left : Bool) : Except Failure (Option Bytes) :=
  if left then do
    let next ← encodeCursor auth topic cursor
    pure (some next)
  else pure none

/-- `#materializePage`, without the reading of the bodies. -/
def materializePage (record : InboxRecord B) (cursor : Cursor) (limit : ℕ) : Except Failure (Page B) := do
  require (1 ≤ limit ∧ limit ≤ 64) (failure .badEncoding "limit is outside 1..64")
  let candidates := s.candidates record.physicalTopic cursor
  let selected := candidates.take limit
  let last := lastKey StoredFrame.appendRevision cursor.lastPosition selected
  let nextCursor ← pageCursor auth record.physicalTopic { cursor with lastPosition := last }
    (selected.length < candidates.length)
  pure
    { physicalTopic := record.physicalTopic
      snapshotRevision := cursor.snapshotRevision
      entries := selected.map StoredFrame.entry
      nextCursor := nextCursor
      cursorExpiryMinute := cursor.expiryMinute }

/-- `#readPage` for `READ`; the empty cursor starts a chain. -/
def readPage (topic : B) (cursor : Bytes) (limit nowUnixMillis : ℕ) : Except Failure (Page B) := do
  require (topic ≠ 0) (failure .badEncoding "physicalTopic must be nonzero")
  let record ← demand (publiclyVisible (s.inboxes.get? topic) s.epochFloor) (failure .notFound "inbox is absent")
  let decoded ← decodeReadCursor auth topic cursor record.appendRevision nowUnixMillis
  materializePage auth s record decoded limit

end Pages

/-! ### Chains of pages -/

/-- One page of a chain, with the state and the time it was read at. -/
structure Reading (B : Type) where
  state : State B
  nowUnixMillis : ℕ
  page : Page B

/-- A store and the pages that one reader has read from it so far. -/
structure Chain (B : Type) where
  state : State B
  readings : List (Reading B)

/-- The entries of a sequence of pages. -/
def pageEntries (readings : List (Reading B)) : List (PinEntry B) :=
  readings.flatMap fun reading => reading.page.entries

theorem pageEntries_concat (readings : List (Reading B)) (reading : Reading B) :
    pageEntries (readings ++ [reading]) = pageEntries readings ++ reading.page.entries := by
  simp [pageEntries]

/-- What happens while a chain is read. -/
inductive ChainMove (B : Type) where
  | apply (m : Application B)
  | read (limit nowUnixMillis : ℕ)

/-- The cursor of the next call: empty at first, then that of the page before. A page without one ends
the chain. -/
def Chain.nextCursor (c : Chain B) : Option Bytes :=
  match c.readings.getLast? with
  | none => some []
  | some reading => reading.page.nextCursor

/-- `#sweepExpired` writes the epoch floor of its time into an `APPEND_EXPIRED` frame, and the floor
does not go back until the frame is applied. -/
def sweepWritten (s : State B) (frame : Frame B) : Bool :=
  match frame.payload with
  | .appendExpired v => v.expiredEpoch ≤ s.epochFloor
  | _ => true

/-- A frame is applied, or the next page is read. -/
def chainStep (cfg : Config B) (auth : CursorAuth B) (topic : B) (c : Chain B) : ChainMove B → Option (Chain B)
  | .apply m =>
    if sweepWritten c.state m.frame then
      (frameStep cfg c.state m).map fun s => { c with state := s }
    else none
  | .read limit nowUnixMillis => do
    let cursor ← c.nextCursor
    let page ← (readPage auth c.state topic cursor limit nowUnixMillis).toOption
    pure { c with readings := c.readings ++ [⟨c.state, nowUnixMillis, page⟩] }

/-! ### Emitted cursors are accepted -/

variable {nowUnixMillis : ℕ}

section Accepted

variable {auth : CursorAuth B} {topic : B} {cursor : Cursor} {raw : Bytes}

theorem u64bytes_eq_ok {value : ℕ} {b : Bytes} :
    u64bytes value = .ok b ↔ value ≤ maxU64 ∧ ofNat 8 value = b := by
  simp only [u64bytes, guards_eq_ok]

theorem minuteFromMillis_eq_ok {millis minute : ℕ} :
    minuteFromMillis millis = .ok minute ↔ millis ≤ maxU64 ∧ millis / 60000 = minute := by
  simp only [minuteFromMillis, guards_eq_ok]

theorem toNat_u64 {value : ℕ} (h : value ≤ maxU64) : (ofNat 8 value).toNat = value := by
  refine toNat_ofNat ?_
  have : maxU64 < 256 ^ 8 := by decide
  omega

/-- What the decoder finds in an emitted cursor. -/
structure CursorLayout (auth : CursorAuth B) (topic : B) (cursor : Cursor) (raw : Bytes) : Prop where
  length : raw.length = cursorBytes
  magic : raw.window 0 4 = cursorMagic
  topic : raw.window 4 32 = auth.topicBytes topic
  mac : auth.mac (raw.take 60) = raw.drop 60
  lastPosition : (raw.window 36 8).toNat = cursor.lastPosition
  snapshotRevision : (raw.window 44 8).toNat = cursor.snapshotRevision
  expiryMinute : (raw.window 52 8).toNat = cursor.expiryMinute

theorem cursorLayout (h : encodeCursor auth topic cursor = .ok raw) :
    CursorLayout auth topic cursor raw := by
  simp only [encodeCursor, guards_eq_ok, u64bytes_eq_ok] at h
  obtain ⟨_, ⟨hlast, rfl⟩, _, ⟨hsnapshot, rfl⟩, _, ⟨hexpiry, rfl⟩, rfl⟩ := h
  have htopic := auth.topicBytes_length topic
  have hmagic : cursorMagic.length = 4 := rfl
  have hlength : (cursorMagic ++ auth.topicBytes topic ++ ofNat 8 cursor.lastPosition ++
      ofNat 8 cursor.snapshotRevision ++ ofNat 8 cursor.expiryMinute).length = 60 := by
    simp only [length_append, length_ofNat, htopic, hmagic]
  have hreads := reads_flatten_append [cursorMagic, auth.topicBytes topic, ofNat 8 cursor.lastPosition,
    ofNat 8 cursor.snapshotRevision, ofNat 8 cursor.expiryMinute]
  simp only [Reads, flatten_cons, flatten_nil, append_nil, ← append_assoc, hmagic, htopic, length_ofNat,
    Nat.reduceAdd] at hreads
  obtain ⟨hmagic, htopic, hlast', hsnapshot', hexpiry', -⟩ := hreads (auth.mac _)
  refine ⟨?_, hmagic, htopic, ?_, ?_, ?_, ?_⟩
  · rw [length_append, hlength, auth.mac_length]
    rfl
  · rw [take_left' hlength, drop_left' hlength]
  · rw [hlast', toNat_u64 hlast]
  · rw [hsnapshot', toNat_u64 hsnapshot]
  · rw [hexpiry', toNat_u64 hexpiry]

/-- **An emitted cursor is accepted with its tuple**, from the minute its expiry is fifteen minutes
ahead of until that expiry, and as long as its snapshot is visible. -/
theorem decodeReadCursor_encodeCursor (h : encodeCursor auth topic cursor = .ok raw)
    {currentRevision : ℕ} {decoded : Cursor} :
    decodeReadCursor auth topic raw currentRevision nowUnixMillis = .ok decoded ↔
      decoded = cursor ∧ nowUnixMillis ≤ maxU64 ∧ nowUnixMillis / 60000 ≤ cursor.expiryMinute ∧
        cursor.expiryMinute ≤ nowUnixMillis / 60000 + cursorMinutes ∧
        cursor.lastPosition ≤ cursor.snapshotRevision ∧
        cursor.snapshotRevision ≤ currentRevision := by
  have hl := cursorLayout h
  have hne : raw.length ≠ 0 := by
    rw [hl.length]
    decide
  have htuple : (⟨(raw.window 36 8).toNat, (raw.window 44 8).toNat, (raw.window 52 8).toNat⟩ : Cursor) = cursor := by
    rw [hl.lastPosition, hl.snapshotRevision, hl.expiryMinute]
  rw [decodeReadCursor, if_neg hne, htuple]
  simp only [guards_eq_ok, minuteFromMillis_eq_ok]
  constructor
  · rintro ⟨-, -, -, minute, ⟨hnow, rfl⟩, hlive, ⟨hahead, hposition, hsnapshot⟩, rfl⟩
    exact ⟨rfl, hnow, hlive, hahead, hposition, hsnapshot⟩
  · rintro ⟨rfl, hnow, hlive, hahead, hposition, hsnapshot⟩
    exact ⟨hl.length, ⟨hl.magic, hl.topic⟩, hl.mac, _, ⟨hnow, rfl⟩, hlive, ⟨hahead, hposition, hsnapshot⟩, rfl⟩

end Accepted

/-! ### One page -/

variable {stored : StoredFrame B} {record : InboxRecord B} {limit : ℕ} {page : Page B}

section PageSpecs

variable {auth : CursorAuth B} {s : State B} {topic : B} {cursor : Cursor}

/-- A frame of the snapshot that a reader at a cursor has not reached yet and may see. -/
structure Readable (s : State B) (topic : B) (cursor : Cursor) (revision : ℕ)
    (stored : StoredFrame B) : Prop where
  frame : s.frames.get? (topic, revision) = some stored
  beyond : cursor.lastPosition < revision
  snapshot : revision ≤ cursor.snapshotRevision
  unexpired : s.epochFloor < stored.expiresAtEpoch
  committed : s.committed stored = true

theorem Indexed.get?_topicFrames (hi : Indexed s) (topic : B) (revision : ℕ) :
    (s.topicFrames topic).get? revision = s.frames.get? (topic, revision) := by
  rw [State.topicFrames]
  cases hinbox : s.inboxes.get? topic with
  | none =>
    obtain ⟨hnone, hframes⟩ := hi.topics.absent topic hinbox
    rw [hnone, hframes]
    rfl
  | some record =>
    obtain ⟨ofTopic, hget, -, hsame⟩ := hi.topics.present topic record hinbox
    rw [hget]
    exact hsame revision

theorem Indexed.appendRevision (hi : Indexed s) {revision : ℕ}
    (h : s.frames.get? (topic, revision) = some stored) : stored.appendRevision = revision :=
  (Prod.mk.inj (hi.frames _ _ h)).2

theorem mem_candidates (hi : Indexed s) : stored ∈ s.candidates topic cursor ↔
      Readable s topic cursor stored.appendRevision stored := by
  rw [State.candidates, mem_sortByKey, mem_filter, mem_values_iff]
  simp only [decide_eq_true_eq, hi.get?_topicFrames]
  constructor
  · rintro ⟨⟨revision, hget⟩, hbeyond, hsnapshot, hunexpired, hcommitted⟩
    obtain rfl := hi.appendRevision hget
    exact ⟨hget, hbeyond, hsnapshot, hunexpired, hcommitted⟩
  · intro h
    exact ⟨⟨_, h.frame⟩, h.beyond, h.snapshot, h.unexpired, h.committed⟩

theorem pairwise_candidates (hi : Indexed s) :
    (s.candidates topic cursor).Pairwise fun a b => a.appendRevision < b.appendRevision := by
  refine pairwise_sortByKey ?_
  refine List.Nodup.sublist (filter_sublist.map _) ?_
  have hkeys : (s.topicFrames topic).values.map StoredFrame.appendRevision =
      (s.topicFrames topic).entries.map Prod.fst := by
    rw [OrderedMap.values, List.map_map]
    refine map_congr_left ?_
    rintro ⟨revision, stored⟩ hmem
    rw [mem_entries_iff, hi.get?_topicFrames] at hmem
    exact hi.appendRevision hmem
  rw [hkeys]
  exact (s.topicFrames topic).nodup_keys

/-- What a page is: `last` is the position after it. -/
structure PageSpec (auth : CursorAuth B) (s : State B) (topic : B) (cursor : Cursor)
    (page : Page B) (last : ℕ) : Prop where
  snapshot : page.snapshotRevision = cursor.snapshotRevision
  expiry : page.cursorExpiryMinute = cursor.expiryMinute
  ascending : (page.entries.map PinEntry.appendRevision).Pairwise (· < ·)
  within : ∀ entry ∈ page.entries, cursor.lastPosition < entry.appendRevision ∧
    entry.appendRevision ≤ cursor.snapshotRevision ∧ entry.appendRevision ≤ last
  position : last = cursor.lastPosition ∧ page.entries = [] ∨
    ∃ entry, page.entries.getLast? = some entry ∧ entry.appendRevision = last
  complete : ∀ revision stored, Readable s topic cursor revision stored → revision ≤ last →
    stored.entry ∈ page.entries
  ends : page.nextCursor = none ↔ ∀ revision stored, Readable s topic cursor revision stored → revision ≤ last
  next : ∀ raw ∈ page.nextCursor, page.entries ≠ [] ∧
    encodeCursor auth topic { cursor with lastPosition := last } = .ok raw

theorem pageCursor_eq_ok {left : Bool} {next : Option Bytes} : pageCursor auth topic cursor left = .ok next ↔
      left = false ∧ next = none ∨
        left = true ∧ ∃ raw, encodeCursor auth topic cursor = .ok raw ∧ next = some raw := by
  cases left with
  | false =>
    show pure none = Except.ok next ↔ _
    rw [pure_eq_ok_iff]
    simp [eq_comm]
  | true =>
    show (encodeCursor auth topic cursor >>= fun raw => pure (some raw)) = Except.ok next ↔ _
    simp only [guards_eq_ok]
    simp [eq_comm]

/-- What a page has. -/
theorem materializePage_spec (hi : Indexed s) (h : materializePage auth s record cursor limit = .ok page) :
    ∃ last, PageSpec auth s record.physicalTopic cursor page last := by
  simp only [materializePage, guards_eq_ok] at h
  obtain ⟨hlimit, nextCursor, hnext, rfl⟩ := h
  have hsorted : (s.candidates record.physicalTopic cursor).Pairwise
      fun a b => a.appendRevision < b.appendRevision := pairwise_candidates hi
  have hmem : ∀ {stored}, stored ∈ s.candidates record.physicalTopic cursor ↔
      Readable s record.physicalTopic cursor stored.appendRevision stored := mem_candidates hi
  generalize s.candidates record.physicalTopic cursor = candidates at hnext hsorted hmem ⊢
  generalize hlast : lastKey StoredFrame.appendRevision cursor.lastPosition (candidates.take limit) = last at hnext
  have hreadable : ∀ revision stored, Readable s record.physicalTopic cursor revision stored →
      stored ∈ candidates ∧ stored.appendRevision = revision := by
    intro revision stored hread
    have hrevision := hi.appendRevision hread.frame
    refine ⟨hmem.mpr ?_, hrevision⟩
    rw [hrevision]
    exact hread
  have hcovered : ∀ stored ∈ candidates, (stored ∈ candidates.take limit ↔ stored.appendRevision ≤ last) := by
    intro stored hstored
    rw [← hlast]
    exact mem_take_iff hsorted hlimit.1 hstored
  have hleft : (candidates.take limit).length < candidates.length ↔
      ∃ stored ∈ candidates, last < stored.appendRevision := by
    rw [← hlast]
    exact length_take_lt_iff hsorted hlimit.1
  refine ⟨last, ?_⟩
  exact
    { snapshot := rfl
      expiry := rfl
      ascending := by
        rw [List.map_map, pairwise_map]
        exact hsorted.sublist (take_sublist _ _)
      within := by
        intro entry hentry
        obtain ⟨stored, hstored, rfl⟩ := List.mem_map.mp hentry
        have hcandidate := mem_of_mem_take hstored
        have hread := hmem.mp hcandidate
        exact ⟨hread.beyond, hread.snapshot, (hcovered stored hcandidate).mp hstored⟩
      position := by
        rcases eq_nil_or_concat' (candidates.take limit) with hnil | ⟨rest, stored, htake⟩
        · rw [hnil] at hlast ⊢
          exact .inl ⟨hlast.symm, rfl⟩
        · rw [htake, lastKey, getLast?_concat] at hlast
          refine .inr ⟨stored.entry, ?_, hlast⟩
          rw [htake, map_append, map_singleton, getLast?_concat]
      complete := by
        intro revision stored hread hle
        obtain ⟨hcandidate, hrevision⟩ := hreadable revision stored hread
        refine List.mem_map_of_mem ((hcovered stored hcandidate).mpr ?_)
        rw [hrevision]
        exact hle
      ends := by
        have hnone : nextCursor = none ↔
            ¬(candidates.take limit).length < candidates.length := by
          rcases pageCursor_eq_ok.mp hnext with ⟨hleft, rfl⟩ | ⟨hleft, raw, -, rfl⟩
          · exact iff_of_true rfl (of_decide_eq_false hleft)
          · exact iff_of_false (some_ne_none raw) (not_not.mpr (of_decide_eq_true hleft))
        rw [hnone, hleft]
        constructor
        · intro hnot revision stored hread
          obtain ⟨hcandidate, hrevision⟩ := hreadable revision stored hread
          by_contra hlt
          exact hnot ⟨stored, hcandidate, by omega⟩
        · rintro hall ⟨stored, hcandidate, hlt⟩
          have := hall _ stored (hmem.mp hcandidate)
          omega
      next := by
        intro raw hraw
        rcases pageCursor_eq_ok.mp hnext with ⟨-, rfl⟩ | ⟨hleft, raw', hencode, rfl⟩
        · cases hraw
        · cases hraw
          refine ⟨fun hnil => ?_, hencode⟩
          have hpos : 0 < candidates.length := Nat.zero_lt_of_lt (of_decide_eq_true hleft)
          rw [map_eq_nil_iff, take_eq_nil_iff] at hnil
          rcases hnil with hzero | hnil
          · omega
          · rw [hnil] at hpos
            exact absurd hpos (Nat.lt_irrefl 0) }

end PageSpecs

/-! ### What frames keep between two pages -/

section Later

variable {cfg : Config B} {s s' : State B} {frame : Frame B}

/-- What holds of a later state: the floor and the watermarks have not gone back, and a committed
frame that is not expired by then is stored and committed as before. -/
structure Later (s s' : State B) : Prop where
  floor : s.epochFloor ≤ s'.epochFloor
  marks : ∀ topic, (s.marks topic).1 ≤ (s'.marks topic).1
  frames : ∀ key stored, s.frames.get? key = some stored → s.committed stored = true →
    s'.epochFloor < stored.expiresAtEpoch →
    s'.frames.get? key = some stored ∧ s'.committed stored = true

theorem Later.refl (s : State B) : Later s s :=
  ⟨le_rfl, fun _ => le_rfl, fun _ _ hget hcommitted _ => ⟨hget, hcommitted⟩⟩

theorem Later.trans {s₁ s₂ s₃ : State B} (h : Later s₁ s₂) (h' : Later s₂ s₃) : Later s₁ s₃ where
  floor := h.floor.trans h'.floor
  marks := fun topic => (h.marks topic).trans (h'.marks topic)
  frames := by
    intro key stored hget hcommitted hunexpired
    obtain ⟨hget, hcommitted⟩ := h.frames key stored hget hcommitted (h'.floor.trans_lt hunexpired)
    exact h'.frames key stored hget hcommitted hunexpired

theorem marks_step (hi : Indexed s) (h : Step cfg s frame s') (topic : B) :
    (s.marks topic).1 ≤ (s'.marks topic).1 := by
  rcases append_cases hi h with ⟨hsame, -⟩ | ⟨tag, topic', hadds, -⟩ |
    ⟨v, spend, terms, record, -, hguard, rfl⟩
  · rw [hsame.marks]
  · rw [hadds.marks]
    split
    · next ht => rw [ht]
    · rfl
  · have hsettles := settlesAppend hi hguard
    by_cases ht : topic = spend.physicalTopic
    · rw [ht, hsettles.loop]
      exact (watermark_spec _ _ _ _).1
    · rw [hsettles.others topic ht]

theorem floor_step (h : Step cfg s frame s') : s.epochFloor ≤ s'.epochFloor := by
  cases h with
  | floor v hp h =>
    rw [← h.old]
    exact h.forward
  | _ => exact le_rfl

theorem committed_set {key : B} {e : SpendEntry B}
    (hspends : s'.spends = s.spends.set key e) (hne : stored.spendTag ≠ key) :
    s'.committed stored = s.committed stored := by
  rw [State.committed, State.committed, hspends, get?_set_of_ne hne]

theorem Revisions.spend_of_committed (hr : Revisions s) {key : B × ℕ}
    (hget : s.frames.get? key = some stored) (hcommitted : s.committed stored = true) :
    ∃ spend terms signature commitment, s.spends.get? stored.spendTag = some spend ∧
      spend.state = .appended terms signature commitment ∧
      terms.expiresAtEpoch = stored.expiresAtEpoch := by
  obtain ⟨terms, hterms, hexpiry⟩ := hr.expiry key stored hget
  obtain ⟨spend, hspend, hterms⟩ := bind_eq_some_iff.mp hterms
  rw [State.committed, hspend, any_some] at hcommitted
  cases hstate : spend.state with
  | appended terms' signature commitment =>
    rw [hstate] at hterms
    obtain rfl := some.inj hterms
    exact ⟨spend, terms', signature, commitment, hspend, hstate, hexpiry⟩
  | provisional terms' | expiredAppend terms' signature commitment epoch =>
    rw [hstate] at hcommitted
    cases hcommitted
  | _ =>
    rw [hstate] at hterms
    cases hterms

/-- A committed frame that has not expired is kept. -/
theorem frames_step (hi : Indexed s) (hr : Revisions s) (hsweep : sweepWritten s frame = true)
    (h : Step cfg s frame s') {key : B × ℕ}
    (hget : s.frames.get? key = some stored) (hcommitted : s.committed stored = true)
    (hunexpired : s'.epochFloor < stored.expiresAtEpoch) :
    s'.frames.get? key = some stored ∧ s'.committed stored = true := by
  obtain ⟨spend₀, terms₀, signature, commitment, hspend₀, hstate₀, hexpiry⟩ :=
    hr.spend_of_committed hget hcommitted
  -- The spend of the frame is there and is an append, so no frame that adds a spend or that asks
  -- for another status touches it.
  have hfresh : ∀ tag, s.spends.get? tag = none → stored.spendTag ≠ tag := by
    rintro tag hnone rfl
    rw [hnone] at hspend₀
    cases hspend₀
  have hother : ∀ tag spend, s.spends.get? tag = some spend →
      spend.state.isCommitted = false → stored.spendTag ≠ tag := by
    rintro tag spend hspend hstate rfl
    obtain rfl := mem_unique hspend₀ hspend
    rw [hstate₀] at hstate
    cases hstate
  cases h with
  | create v hp h | renew v record hp h =>
    exact ⟨hget, (committed_set rfl (hfresh _ h.fresh.spend)).trans hcommitted⟩
  | close v record hp h => exact ⟨hget, hcommitted⟩
  | append v record hp h =>
    refine ⟨?_, (committed_set rfl (hfresh _ h.fresh.spend)).trans hcommitted⟩
    show (s.frames.set _ _).get? key = some stored
    rw [get?_set_of_ne]
    · exact hget
    · rintro rfl
      rw [h.frames] at hget
      cases hget
  | finalizeAck v spend terms record hp h =>
    refine ⟨hget, (committed_set rfl ?_).trans hcommitted⟩
    rw [hi.spends _ _ h.spends]
    exact hother _ spend h.spends (by rw [h.state]; rfl)
  | pinRead v record hp h =>
    exact ⟨hget, (committed_set rfl (hfresh _ h.fresh.spend)).trans hcommitted⟩
  | finalizeRead v spend pin hp h =>
    refine ⟨hget, (committed_set rfl ?_).trans hcommitted⟩
    show stored.spendTag ≠ spend.spendTag
    rw [hi.spends _ spend h.spends]
    exact hother _ spend h.spends (by rw [h.state]; rfl)
  | expireRead v spend pin hp h =>
    refine ⟨hget, (committed_set rfl ?_).trans hcommitted⟩
    rw [(spend.readExpired_keeps _).1, hi.spends _ spend h.spends]
    intro heq
    rw [heq, h.spends] at hspend₀
    cases hspend₀
    have hnone := (readExpired_appendTerms? hi h).2
    rw [hstate₀] at hnone
    cases hnone
  | floor v hp h => exact ⟨hget, hcommitted⟩
  | expireAppend v spend terms expired hp h =>
    have hfloor : v.expiredEpoch ≤ s.epochFloor := by
      rw [sweepWritten, hp] at hsweep
      exact of_decide_eq_true hsweep
    obtain ⟨-, -, -, htag, -, -, -, -, -, -, -, -, -, -, -, -, -, -, hterms, -, -, -, -, -, -, hexpired⟩ := h.sameData
    have hne : stored.spendTag ≠ v.spendTag := by
      rintro heq
      rw [heq, h.spends] at hspend₀
      cases hspend₀
      rw [h.state] at hstate₀
      obtain ⟨rfl, -, -⟩ := (SpendState.appended.injEq ..).mp hstate₀
      have hlt : s.epochFloor < stored.expiresAtEpoch := hunexpired
      omega
    constructor
    · show (s.frames.delete _).get? key = some stored
      rw [get?_delete_of_ne]
      · exact hget
      · rintro rfl
        rw [h.frames] at hget
        cases hget
        exact hne htag
    · refine (committed_set rfl ?_).trans hcommitted
      show stored.spendTag ≠ spend.spendTag
      rw [hi.spends _ spend h.spends]
      exact hne
  | gc v record hp h | policy v record hp h | integrity v hp h => exact ⟨hget, hcommitted⟩

theorem later_step (hi : Indexed s) (hr : Revisions s) (hsweep : sweepWritten s frame = true)
    (h : Step cfg s frame s') : Later s s' where
  floor := floor_step h
  marks := marks_step hi h
  frames := fun _ _ hget hcommitted hunexpired =>
    frames_step hi hr hsweep h hget hcommitted hunexpired

end Later

/-! ### Chains -/

section Chains

variable {cfg : Config B} {auth : CursorAuth B} {topic : B} {c c' : Chain B}

/-- A reading is a page of a visible inbox at some cursor. -/
structure ReadAt (auth : CursorAuth B) (topic : B) (s : State B) (nowUnixMillis : ℕ) (raw : Bytes)
    (page : Page B) (record : InboxRecord B) (cursor : Cursor) (last : ℕ) : Prop where
  inbox : s.inboxes.get? topic = some record
  decoded : decodeReadCursor auth topic raw record.appendRevision nowUnixMillis = .ok cursor
  page : PageSpec auth s topic cursor page last

variable {s : State B} {raw : Bytes}

theorem readPage_spec (hi : Indexed s) (h : readPage auth s topic raw limit nowUnixMillis = .ok page) :
    ∃ record cursor last, ReadAt auth topic s nowUnixMillis raw page record cursor last := by
  simp only [readPage, guards_eq_ok, publiclyVisible, filter_eq_some_iff] at h
  obtain ⟨-, record, ⟨hinbox, -⟩, cursor, hdecoded, hpage⟩ := h
  obtain ⟨last, hspec⟩ := materializePage_spec hi hpage
  rw [hi.inboxes topic record hinbox] at hspec
  exact ⟨record, cursor, last, hinbox, hdecoded, hspec⟩

theorem chainStep_read (h : chainStep cfg auth topic c (.read limit nowUnixMillis) = some c') :
    ∃ raw page, c.nextCursor = some raw ∧ readPage auth c.state topic raw limit nowUnixMillis = .ok page ∧
      c' = { c with readings := c.readings ++ [⟨c.state, nowUnixMillis, page⟩] } := by
  simp only [chainStep, bind_eq_bind, bind_eq_some_iff, Option.pure_def, some.injEq] at h
  obtain ⟨raw, hraw, page, hpage, rfl⟩ := h
  refine ⟨raw, page, hraw, ?_, rfl⟩
  cases hread : readPage auth c.state topic raw limit nowUnixMillis with
  | error e =>
    rw [hread] at hpage
    cases hpage
  | ok page' =>
    rw [hread] at hpage
    exact congrArg _ (some.inj hpage)

theorem chainStep_apply {m : Application B} (h : chainStep cfg auth topic c (.apply m) = some c') :
    sweepWritten c.state m.frame = true ∧ ∃ s, frameStep cfg c.state m = some s ∧ c' = { c with state := s } := by
  rw [chainStep] at h
  split at h
  · next hsweep =>
    obtain ⟨s, hs, rfl⟩ := map_eq_some_iff.mp h
    exact ⟨hsweep, s, hs, rfl⟩
  · cases h

/-- The state of a chain is one that frames reach, as are the states its pages were read in. -/
structure Sound (c : Chain B) : Prop where
  indexed : Indexed c.state
  revisions : Revisions c.state
  readings : ∀ reading ∈ c.readings, Indexed reading.state ∧ Revisions reading.state ∧ Later reading.state c.state

theorem sound_empty : Sound (⟨State.empty B, []⟩ : Chain B) :=
  ⟨indexed_empty, revisions_empty, by rintro _ ⟨⟩⟩

theorem sound_step {move : ChainMove B} (hc : Sound c)
    (h : chainStep cfg auth topic c move = some c') : Sound c' := by
  cases move with
  | apply m =>
    obtain ⟨hsweep, s, hs, rfl⟩ := chainStep_apply h
    obtain ⟨hcanonical, hstep⟩ := step_of_frameStep hs
    refine ⟨indexed_step hc.indexed hcanonical hstep, revisions_step hc.indexed hc.revisions hstep,
      fun reading hreading => ?_⟩
    obtain ⟨hi, hr, hlater⟩ := hc.readings reading hreading
    exact ⟨hi, hr, hlater.trans (later_step hc.indexed hc.revisions hsweep hstep)⟩
  | read limit nowUnixMillis =>
    obtain ⟨raw, page, -, -, rfl⟩ := chainStep_read h
    refine ⟨hc.indexed, hc.revisions, fun reading hreading => ?_⟩
    rcases mem_append.mp hreading with hold | hnew
    · exact hc.readings reading hold
    · rw [mem_singleton.mp hnew]
      exact ⟨hc.indexed, hc.revisions, Later.refl _⟩

/-- A sequence of pages, of which `first` and `last` are the first and the last; `position` is the
revision up to which they go. -/
structure Progress (auth : CursorAuth B) (topic : B) (readings : List (Reading B))
    (first last : Reading B) (position : ℕ) : Prop where
  head : readings.head? = some first
  later : Later first.state last.state
  origin : ∃ record, first.state.inboxes.get? topic = some record ∧
    first.page.snapshotRevision = record.appendRevision
  snapshot : last.page.snapshotRevision = first.page.snapshotRevision
  visible : last.page.snapshotRevision ≤ (last.state.marks topic).1
  expiry : last.page.cursorExpiryMinute ≤ last.nowUnixMillis / 60000 + cursorMinutes
  ascending : ((pageEntries readings).map PinEntry.appendRevision).Pairwise (· < ·)
  bounded : ∀ entry ∈ pageEntries readings,
    entry.appendRevision ≤ position ∧ entry.appendRevision ≤ first.page.snapshotRevision
  attained : position = 0 ∨ ∃ entry ∈ pageEntries readings, entry.appendRevision = position
  covered : ∀ revision stored, first.state.frames.get? (topic, revision) = some stored →
    first.state.committed stored = true → 0 < revision →
    revision ≤ first.page.snapshotRevision → last.state.epochFloor < stored.expiresAtEpoch →
    revision ≤ position → stored.entry ∈ pageEntries readings
  ends : last.page.nextCursor = none ↔ ∀ revision stored,
    Readable last.state topic ⟨position, last.page.snapshotRevision, 0⟩ revision stored → False
  next : ∀ raw ∈ last.page.nextCursor,
    (∃ entry, last.page.entries.getLast? = some entry ∧ entry.appendRevision = position) ∧
    encodeCursor auth topic ⟨position, last.page.snapshotRevision, last.page.cursorExpiryMinute⟩ = .ok raw

variable {cursor : Cursor} {last : ℕ}

theorem PageSpec.lastPosition_le (h : PageSpec auth s topic cursor page last) : cursor.lastPosition ≤ last := by
  rcases h.position with ⟨hlast, -⟩ | ⟨entry, hentry, hlast⟩
  · exact hlast.ge
  · have hbeyond := (h.within entry (mem_of_getLast? hentry)).1
    omega

theorem PageSpec.ends_iff (h : PageSpec auth s topic cursor page last) : page.nextCursor = none ↔ ∀ revision stored,
      Readable s topic ⟨last, page.snapshotRevision, 0⟩ revision stored → False := by
  have hge := h.lastPosition_le
  rw [h.ends]
  constructor
  · intro hall revision stored hread
    have hsnapshot : revision ≤ cursor.snapshotRevision := h.snapshot ▸ hread.snapshot
    have hle := hall revision stored
      ⟨hread.frame, hge.trans_lt hread.beyond, hsnapshot, hread.unexpired, hread.committed⟩
    exact absurd hread.beyond (Nat.not_lt.mpr hle)
  · intro hnone revision stored hread
    by_contra hlt
    refine hnone revision stored ⟨hread.frame, Nat.lt_of_not_le hlt, ?_, hread.unexpired, hread.committed⟩
    rw [h.snapshot]
    exact hread.snapshot

theorem PageSpec.next_cursor (h : PageSpec auth s topic cursor page last) (hraw : raw ∈ page.nextCursor) :
    (∃ entry, page.entries.getLast? = some entry ∧ entry.appendRevision = last) ∧
      encodeCursor auth topic ⟨last, page.snapshotRevision, page.cursorExpiryMinute⟩ = .ok raw := by
  obtain ⟨hne, hencode⟩ := h.next raw hraw
  constructor
  · rcases h.position with ⟨-, hnil⟩ | hentry
    · exact absurd hnil hne
    · exact hentry
  · rw [h.snapshot, h.expiry]
    exact hencode

theorem progress_first (h : ReadAt auth topic s nowUnixMillis [] page record cursor last) :
    Progress auth topic [⟨s, nowUnixMillis, page⟩] ⟨s, nowUnixMillis, page⟩ ⟨s, nowUnixMillis, page⟩ last := by
  have hdecoded := h.decoded
  simp only [decodeReadCursor, length_nil, if_true, guards_eq_ok, minuteFromMillis_eq_ok] at hdecoded
  obtain ⟨_, ⟨-, rfl⟩, rfl⟩ := hdecoded
  have hp := h.page
  have hentries : pageEntries [⟨s, nowUnixMillis, page⟩] = page.entries := by
    simp [pageEntries]
  exact
    { head := rfl
      later := Later.refl _
      origin := ⟨record, h.inbox, hp.snapshot⟩
      snapshot := rfl
      visible := by
        rw [marks_of_get? h.inbox]
        exact hp.snapshot.le
      expiry := hp.expiry.le
      ascending := by
        rw [hentries]
        exact hp.ascending
      bounded := by
        rw [hentries]
        intro entry hentry
        obtain ⟨-, hsnapshot, hlast⟩ := hp.within entry hentry
        exact ⟨hlast, hsnapshot.trans hp.snapshot.ge⟩
      attained := by
        rw [hentries]
        rcases hp.position with ⟨hlast, -⟩ | ⟨entry, hentry, hlast⟩
        · exact .inl hlast
        · exact .inr ⟨entry, mem_of_getLast? hentry, hlast⟩
      covered := by
        rw [hentries]
        intro revision stored hget hcommitted hpos hsnapshot hunexpired hle
        refine hp.complete revision stored ⟨hget, hpos, ?_, hunexpired, hcommitted⟩ hle
        exact hsnapshot.trans hp.snapshot.le
      ends := hp.ends_iff
      next := fun raw hraw => hp.next_cursor hraw }

variable {readings : List (Reading B)} {first : Reading B} {position : ℕ}

theorem Progress.read {previous : Reading B}
    (hp : Progress auth topic readings first previous position) (hraw : previous.page.nextCursor = some raw)
    (h : ReadAt auth topic s nowUnixMillis raw page record cursor last)
    (hfirst : Later first.state s) (hprevious : Later previous.state s) :
    Progress auth topic (readings ++ [⟨s, nowUnixMillis, page⟩]) first ⟨s, nowUnixMillis, page⟩
      last := by
  obtain ⟨-, hencode⟩ := hp.next raw hraw
  obtain ⟨rfl, -, -, hahead, -, hcurrent⟩ := (decodeReadCursor_encodeCursor hencode).mp h.decoded
  have hq := h.page
  have hge : position ≤ last := hq.lastPosition_le
  have hentries := pageEntries_concat readings ⟨s, nowUnixMillis, page⟩
  have hsnapshot : page.snapshotRevision = first.page.snapshotRevision :=
    hq.snapshot.trans hp.snapshot
  exact
    { head := by rw [head?_append, hp.head, some_or]
      later := hfirst
      origin := hp.origin
      snapshot := hsnapshot
      visible := by
        rw [marks_of_get? h.inbox]
        exact hq.snapshot.le.trans hcurrent
      expiry := hq.expiry.le.trans hahead
      ascending := by
        rw [hentries, map_append, pairwise_append]
        refine ⟨hp.ascending, hq.ascending, fun a ha b hb => ?_⟩
        obtain ⟨old, hold, rfl⟩ := mem_map.mp ha
        obtain ⟨new, hnew, rfl⟩ := mem_map.mp hb
        exact (hp.bounded old hold).1.trans_lt (hq.within new hnew).1
      bounded := by
        rw [hentries]
        intro entry hentry
        rcases mem_append.mp hentry with hold | hnew
        · obtain ⟨hle, hbound⟩ := hp.bounded entry hold
          exact ⟨hle.trans hge, hbound⟩
        · obtain ⟨-, hbound, hle⟩ := hq.within entry hnew
          exact ⟨hle, hbound.trans hp.snapshot.le⟩
      attained := by
        rw [hentries]
        rcases hq.position with ⟨hlast, -⟩ | ⟨entry, hentry, hlast⟩
        · rw [hlast]
          rcases hp.attained with hzero | ⟨entry, hentry, hposition⟩
          · exact .inl hzero
          · exact .inr ⟨entry, mem_append_left _ hentry, hposition⟩
        · exact .inr ⟨entry, mem_append_right _ (mem_of_getLast? hentry), hlast⟩
      covered := by
        rw [hentries]
        intro revision stored hget hcommitted hpos hbound hunexpired hle
        rcases Nat.lt_or_ge position revision with hgt | hle'
        · -- The frame is still what it was, so it is a candidate of the new page.
          obtain ⟨hget', hcommitted'⟩ := hfirst.frames _ _ hget hcommitted hunexpired
          refine mem_append_right _ (hq.complete revision stored ?_ hle)
          exact ⟨hget', hgt, hbound.trans hp.snapshot.ge, hunexpired, hcommitted'⟩
        · refine mem_append_left _ ?_
          exact hp.covered revision stored hget hcommitted hpos hbound
            (hprevious.floor.trans_lt hunexpired) hle'
      ends := hq.ends_iff
      next := fun raw hraw => hq.next_cursor hraw }

/-- Every page of a chain continues the pages before it. -/
def Progressing (auth : CursorAuth B) (topic : B) (readings : List (Reading B)) : Prop :=
  ∀ earlier reading later, readings = earlier ++ reading :: later →
    ∃ first position, Progress auth topic (earlier ++ [reading]) first reading position

variable {reading : Reading B}

theorem Progressing.append (h : Progressing auth topic readings)
    (hnew : Progress auth topic (readings ++ [reading]) first reading position) :
    Progressing auth topic (readings ++ [reading]) := by
  intro earlier reading' later heq
  rcases eq_nil_or_concat' later with rfl | ⟨rest, final, rfl⟩
  · obtain ⟨rfl, hsame⟩ := append_inj' heq rfl
    obtain rfl := head_eq_of_cons_eq hsame
    exact ⟨first, position, hnew⟩
  · rw [← cons_append, ← append_assoc] at heq
    exact h earlier reading' rest (append_inj' heq rfl).1

theorem progressing_step {move : ChainMove B} (hc : Sound c)
    (hp : Progressing auth topic c.readings) (h : chainStep cfg auth topic c move = some c') :
    Progressing auth topic c'.readings := by
  cases move with
  | apply m =>
    obtain ⟨-, s, -, rfl⟩ := chainStep_apply h
    exact hp
  | read limit nowUnixMillis =>
    obtain ⟨raw, page, hraw, hpage, rfl⟩ := chainStep_read h
    obtain ⟨record, cursor, last, hread⟩ := readPage_spec hc.indexed hpage
    rw [Chain.nextCursor] at hraw
    rcases eq_nil_or_concat' c.readings with hnil | ⟨earlier, previous, hreadings⟩
    · rw [hnil] at hraw hp ⊢
      cases hraw
      exact hp.append (progress_first hread)
    · have hmem : previous ∈ c.readings := by
        rw [hreadings]
        exact mem_append_right _ (mem_singleton_self _)
      obtain ⟨first, position, hprogress⟩ := hp earlier previous [] hreadings
      rw [← hreadings] at hprogress
      have hfirst : first ∈ c.readings := mem_of_head? hprogress.head
      rw [hreadings, getLast?_concat] at hraw
      exact hp.append (hprogress.read hraw hread (hc.readings first hfirst).2.2 (hc.readings previous hmem).2.2)

theorem progressing_of_run {moves : List (ChainMove B)}
    (hrun : run (chainStep cfg auth topic) ⟨State.empty B, []⟩ moves = some c) :
    Sound c ∧ Progressing auth topic c.readings := by
  refine run_preserves (fun c => Sound c ∧ Progressing auth topic c.readings) ?_ ?_ hrun
  · intro c move c' hc h
    exact ⟨sound_step hc.1 h, progressing_step hc.1 hc.2 h⟩
  · refine ⟨sound_empty, fun earlier reading later heq => ?_⟩
    exact absurd heq.symm (append_ne_nil_of_right_ne_nil _ (cons_ne_nil _ _))

theorem marks_run {s' : State B} {moves : List (Application B)} (hi : Indexed s)
    (hrun : run (frameStep cfg) s moves = some s') (topic : B) :
    (s.marks topic).1 ≤ (s'.marks topic).1 := by
  have hboth : Indexed s' ∧ (s.marks topic).1 ≤ (s'.marks topic).1 := by
    refine frames_invariant (fun s' => Indexed s' ∧ (s.marks topic).1 ≤ (s'.marks topic).1)
      (fun s₁ frame s₂ h hcanonical hstep => ?_) ⟨hi, le_rfl⟩ hrun
    exact ⟨indexed_step h.1 hcanonical hstep, h.2.trans (marks_step h.1 hstep topic)⟩
  exact hboth.2

theorem Progress.first_eq {first' : Reading B} {earlier later : List (Reading B)}
    (h : Progress auth topic (earlier ++ [reading]) first' reading position)
    (hsplit : readings = earlier ++ reading :: later) (hfirst : readings.head? = some first) :
    first' = first := by
  have hhead := h.head
  rw [hsplit, append_cons, head?_append, hhead, some_or] at hfirst
  exact some.inj hfirst

/-- An emitted cursor is accepted with its tuple until it expires, whatever frames are applied in the
meantime. -/
theorem Progress.accepted {earlier : List (Reading B)}
    (h : Progress auth topic (earlier ++ [reading]) first reading position) (hi : Indexed reading.state)
    (hraw : raw ∈ reading.page.nextCursor) {more : List (Application B)}
    (hrun : run (frameStep cfg) reading.state more = some s) (hinbox : s.inboxes.get? topic = some record)
    (hnow : nowUnixMillis ≤ maxU64)
    (hafter : reading.nowUnixMillis / 60000 ≤ nowUnixMillis / 60000)
    (hlive : nowUnixMillis / 60000 ≤ reading.page.cursorExpiryMinute) :
    decodeReadCursor auth topic raw record.appendRevision nowUnixMillis =
      .ok ⟨position, reading.page.snapshotRevision, reading.page.cursorExpiryMinute⟩ := by
  obtain ⟨⟨entry, hentry, hposition⟩, hencode⟩ := h.next raw hraw
  have hmem : entry ∈ pageEntries (earlier ++ [reading]) := by
    rw [pageEntries_concat]
    exact mem_append_right _ (mem_of_getLast? hentry)
  refine (decodeReadCursor_encodeCursor hencode).mpr ⟨rfl, hnow, hlive, ?_, ?_, ?_⟩
  · exact h.expiry.trans (Nat.add_le_add_right hafter _)
  · show position ≤ reading.page.snapshotRevision
    rw [← hposition, h.snapshot]
    exact (h.bounded entry hmem).2
  · have hmarks := marks_run hi hrun topic
    rw [marks_of_get? hinbox] at hmarks
    exact h.visible.trans hmarks

/-- **Reading an inbox page by page.** A chain of pages that begins with the empty cursor and follows
each cursor returns entries of strictly ascending revisions within the snapshot of its first page. If
it has come to its end, every frame of the snapshot that was committed at the first page and is
unexpired at the last is among them once. A page has no cursor exactly when no committed unexpired
frame of the snapshot lies beyond it, and every cursor is accepted with its tuple until it expires. -/
theorem pages_cover_snapshot {moves : List (ChainMove B)}
    (hrun : run (chainStep cfg auth topic) ⟨State.empty B, []⟩ moves = some c)
    {first last : Reading B} (hfirst : c.readings.head? = some first)
    (hlast : c.readings.getLast? = some last) :
    ((pageEntries c.readings).map PinEntry.appendRevision).Pairwise (· < ·) ∧
      (∀ entry ∈ pageEntries c.readings, entry.appendRevision ≤ first.page.snapshotRevision) ∧
      (∃ record, first.state.inboxes.get? topic = some record ∧ first.page.snapshotRevision = record.appendRevision) ∧
      (last.page.nextCursor = none → ∀ revision stored, first.state.frames.get? (topic, revision) = some stored →
        revision ≤ first.page.snapshotRevision → first.state.committed stored = true →
        last.state.epochFloor < stored.expiresAtEpoch →
        (pageEntries c.readings).count stored.entry = 1) ∧
      ∀ earlier reading later, c.readings = earlier ++ reading :: later →
        reading.page.snapshotRevision = first.page.snapshotRevision ∧
        (reading.page.nextCursor = none ↔ ∀ revision stored,
          reading.state.frames.get? (topic, revision) = some stored →
          revision ≤ reading.page.snapshotRevision → reading.state.committed stored = true →
          reading.state.epochFloor < stored.expiresAtEpoch →
          ∃ entry ∈ pageEntries (earlier ++ [reading]), revision ≤ entry.appendRevision) ∧
        ∀ raw ∈ reading.page.nextCursor, ∃ entry cursor, reading.page.entries.getLast? = some entry ∧
          cursor = ⟨entry.appendRevision, reading.page.snapshotRevision, reading.page.cursorExpiryMinute⟩ ∧
          encodeCursor auth topic cursor = .ok raw ∧
          ∀ more s record nowUnixMillis, run (frameStep cfg) reading.state more = some s →
            s.inboxes.get? topic = some record → nowUnixMillis ≤ maxU64 →
            reading.nowUnixMillis / 60000 ≤ nowUnixMillis / 60000 →
            nowUnixMillis / 60000 ≤ reading.page.cursorExpiryMinute →
            decodeReadCursor auth topic raw record.appendRevision nowUnixMillis = .ok cursor := by
  obtain ⟨hsound, hprogressing⟩ := progressing_of_run hrun
  obtain ⟨earlier, hreadings⟩ := getLast?_eq_some_iff.mp hlast
  obtain ⟨first', position, hp⟩ := hprogressing earlier last [] hreadings
  obtain rfl := hp.first_eq hreadings hfirst
  obtain ⟨-, hr, -⟩ := hsound.readings first' (mem_of_head? hfirst)
  rw [← hreadings] at hp
  refine ⟨hp.ascending, fun entry hentry => (hp.bounded entry hentry).2, hp.origin, ?_, ?_⟩
  · intro hends revision stored hget hsnapshot hcommitted hunexpired
    have hpos := (hr.owned _ _ _ (hr.frame _ _ hget)).1
    obtain ⟨hget', hcommitted'⟩ := hp.later.frames _ _ hget hcommitted hunexpired
    have hle : revision ≤ position := by
      by_contra hlt
      refine hp.ends.mp hends revision stored ⟨hget', Nat.lt_of_not_le hlt, ?_, hunexpired, hcommitted'⟩
      exact hsnapshot.trans hp.snapshot.ge
    refine count_eq_one_of_mem ?_ (hp.covered revision stored hget hcommitted hpos hsnapshot hunexpired hle)
    exact List.Nodup.of_map _ (hp.ascending.imp Nat.ne_of_lt)
  · intro earlier reading later hsplit
    obtain ⟨first'', position', hq⟩ := hprogressing earlier reading later hsplit
    obtain rfl := hq.first_eq hsplit hfirst
    have hmem : reading ∈ c.readings := by
      rw [hsplit]
      exact mem_append_right _ mem_cons_self
    obtain ⟨hi', hr', -⟩ := hsound.readings reading hmem
    refine ⟨hq.snapshot, ?_, ?_⟩
    · rw [hq.ends]
      constructor
      · intro hnone revision stored hget hsnapshot hcommitted hunexpired
        have hpos := (hr'.owned _ _ _ (hr'.frame _ _ hget)).1
        have hle : revision ≤ position' := by
          by_contra hlt
          exact hnone revision stored ⟨hget, Nat.lt_of_not_le hlt, hsnapshot, hunexpired, hcommitted⟩
        rcases hq.attained with hzero | ⟨entry, hentry, hposition⟩
        · omega
        · exact ⟨entry, hentry, hposition ▸ hle⟩
      · intro hall revision stored hread
        obtain ⟨entry, hentry, hle⟩ := hall revision stored hread.frame hread.snapshot hread.committed hread.unexpired
        have hbeyond : position' < revision := hread.beyond
        have hbound := (hq.bounded entry hentry).1
        omega
    · intro raw hraw
      obtain ⟨⟨entry, hentry, rfl⟩, hencode⟩ := hq.next raw hraw
      refine ⟨entry, _, hentry, rfl, hencode, ?_⟩
      intro more s record nowUnixMillis hmore hinbox hnow hafter hlive
      exact hq.accepted hi' hraw hmore hinbox hnow hafter hlive

end Chains

/-! ### A sample chain -/

/-- A topic in 32 bytes, and an authentication code that depends on all of its data. -/
def sampleAuth : CursorAuth ℕ where
  topicBytes := fun topic => ofNat 32 topic
  topicBytes_length := fun _ => length_ofNat 32 _
  mac := fun data => ofNat 32 (data.toNat + 1)
  mac_length := fun _ => length_ofNat 32 _

/-- Two frames are appended and acknowledged, and the inbox is read in two pages of one frame, between
which a third frame is appended. -/
def sampleChain : List (ChainMove ℕ) :=
  [.apply sampleFloor, .apply sampleCreate, .apply (sampleAppend 1 10),
    .apply (sampleAppend 2 10), .apply (sampleAck 1 10), .apply (sampleAck 2 10), .read 1 60000,
    .apply (sampleAppend 3 10), .read 1 120000]

/-- The sample chain returns the two frames of its snapshot. -/
theorem pages_cover_sample : ∃ c first last,
    run (chainStep sampleConfig sampleAuth sampleTopic) ⟨State.empty ℕ, []⟩ sampleChain = some c ∧
      c.readings.head? = some first ∧ c.readings.getLast? = some last ∧
      last.page.nextCursor = none ∧ first.page.snapshotRevision = 2 ∧
      (pageEntries c.readings).map PinEntry.appendRevision = [1, 2] ∧
      ((pageEntries c.readings).map PinEntry.appendRevision).Pairwise (· < ·) := by
  have hread : ((run (chainStep sampleConfig sampleAuth sampleTopic) ⟨State.empty ℕ, []⟩
      sampleChain).map fun c => (c.readings.map fun reading =>
        (reading.page.snapshotRevision, reading.page.nextCursor.isSome),
        (pageEntries c.readings).map PinEntry.appendRevision)) =
      some ([(2, true), (2, false)], [1, 2]) := by
    decide +kernel
  obtain ⟨c, hc, hpages⟩ := map_eq_some_iff.mp hread
  obtain ⟨hreadings, hentries⟩ := Prod.mk.inj hpages
  obtain ⟨first, rest, hfirst, hsnapshot, hrest⟩ := map_eq_cons_iff.mp hreadings
  obtain ⟨last, hnil, hlast, hcursor, hempty⟩ := map_eq_cons_iff.mp hrest
  obtain rfl := map_eq_nil_iff.mp hempty
  have hhead : c.readings.head? = some first := by rw [hfirst]; rfl
  have hgetLast : c.readings.getLast? = some last := by rw [hfirst, hlast]; rfl
  refine ⟨c, first, last, hc, hhead, hgetLast, ?_, (Prod.mk.inj hsnapshot).1, hentries,
    (pages_cover_snapshot hc hhead hgetLast).1⟩
  exact not_isSome_iff_eq_none.mp (Bool.not_eq_true _ ▸ (Prod.mk.inj hcursor).2)

end HiveRelay.Inbox
