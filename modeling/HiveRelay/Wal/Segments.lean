import HiveRelay.Wal.Frame
import Mathlib.Data.List.Sort
import Mathlib.Data.List.Perm.Basic

/-!
# Segment names and the control directory

The live segment is the file `wal.v2`. Sealing renames it to
`wal-<firstSequence>-<lastSequence>.v2`, both numbers in sixteen lower-case hexadecimal digits, and
recovery rediscovers the sealed segments by listing the control directory. The listing, the name
pattern, the sort and the gap check are written twice in the source, identically: once in
`#enumerateWalSegments` of `transaction-store.js` and once in `wal-recovery-scan.js`. They are one
definition here, and both recoveries use it.
-/

namespace HiveRelay.Wal

open List HiveRelay.Except

/-! ### Hexadecimal names -/

def hexDigit (d : ℕ) : Char := if d < 10 then Char.ofNat (48 + d) else Char.ofNat (87 + d)

/-- The value of a lower-case hexadecimal digit; nothing else matches `[0-9a-f]`. -/
def hexDigitValue (c : Char) : Option ℕ :=
  if 48 ≤ c.toNat ∧ c.toNat ≤ 57 then some (c.toNat - 48)
  else if 97 ≤ c.toNat ∧ c.toNat ≤ 102 then some (c.toNat - 87)
  else none

theorem hexDigitValue_hexDigit {d : ℕ} (h : d < 16) : hexDigitValue (hexDigit d) = some d := by
  have key : ∀ d : Fin 16, hexDigitValue (hexDigit d) = some d.val := by decide
  exact key ⟨d, h⟩

/-- `n.toString(16).padStart(width, '0')`, for a number that fits the width. -/
def hexPad : (width : ℕ) → (n : ℕ) → List Char
  | 0, _ => []
  | width + 1, n => hexPad width (n / 16) ++ [hexDigit (n % 16)]

/-- The number a string of hexadecimal digits denotes. -/
def parseHex (cs : List Char) : Option ℕ :=
  cs.foldlM (fun acc c => (hexDigitValue c).map fun d => acc * 16 + d) 0

@[simp] theorem length_hexPad (width n : ℕ) : (hexPad width n).length = width := by
  induction width generalizing n with
  | zero => rfl
  | succ width ih => simp [hexPad, ih]

theorem parseHex_hexPad {width n : ℕ} (h : n < 16 ^ width) : parseHex (hexPad width n) = some n := by
  induction width generalizing n with
  | zero =>
    have hn : n = 0 := by simpa using h
    subst hn
    rfl
  | succ width ih =>
    have hdiv : n / 16 < 16 ^ width := by
      refine Nat.div_lt_of_lt_mul ?_
      calc n < 16 ^ (width + 1) := h
        _ = 16 * 16 ^ width := by ring
    have hinitial := ih hdiv
    rw [parseHex] at hinitial
    rw [parseHex, hexPad, foldlM_append, hinitial]
    simp [hexDigitValue_hexDigit (Nat.mod_lt n (by norm_num : 16 > 0))]
    omega

/-- The literal parts of the pattern. -/
def segmentNameStart : List Char := ['w', 'a', 'l', '-']

@[inherit_doc segmentNameStart]
def segmentNameEnd : List Char := ['.', 'v', '2']

def walSealedSegmentName (firstSequence lastSequence : ℕ) : String :=
  String.ofList (segmentNameStart ++ (hexPad 16 firstSequence ++
    (['-'] ++ (hexPad 16 lastSequence ++ segmentNameEnd))))

/-- The groups of `/^wal-([0-9a-f]{16})-([0-9a-f]{16})\.v2$/`, as numbers. -/
def parseSealedSegmentName (name : String) : Option (ℕ × ℕ) :=
  let cs := name.toList
  if cs.length = 40 ∧ cs.take 4 = segmentNameStart ∧ (cs.drop 20).take 1 = ['-'] ∧ cs.drop 37 = segmentNameEnd then do
    let first ← parseHex ((cs.drop 4).take 16)
    let last ← parseHex ((cs.drop 21).take 16)
    return (first, last)
  else none

theorem parseSealedSegmentName_walSealedSegmentName {first last : ℕ} (hf : first ≤ maxU64) (hl : last ≤ maxU64) :
    parseSealedSegmentName (walSealedSegmentName first last) = some (first, last) := by
  have hf' : first < 16 ^ 16 := by simp only [maxU64] at hf; omega
  have hl' : last < 16 ^ 16 := by simp only [maxU64] at hl; omega
  have hnil : (hexPad 16 first).drop 17 = [] := drop_eq_nil_of_le (by simp)
  simp [parseSealedSegmentName, walSealedSegmentName, take_append, drop_append, hnil,
    segmentNameStart, segmentNameEnd, parseHex_hexPad hf', parseHex_hexPad hl']

theorem walSealedSegmentName_inj {first last first' last' : ℕ} (hf : first ≤ maxU64)
    (hl : last ≤ maxU64) (hf' : first' ≤ maxU64) (hl' : last' ≤ maxU64)
    (h : walSealedSegmentName first last = walSealedSegmentName first' last') :
    first = first' ∧ last = last' := by
  have hparse := parseSealedSegmentName_walSealedSegmentName hf hl
  rw [h, parseSealedSegmentName_walSealedSegmentName hf' hl'] at hparse
  simpa [eq_comm] using hparse

/-! ### The control directory -/

/-- One entry of a directory listing. `ownedPrivate` is the verdict of `assertOwnedPrivateFile` on
its inode: a regular file of the daemon's own uid, mode `0600`, with one link. -/
structure DirectoryEntry where
  name : String
  (isFile ownedPrivate : Bool)
  content : Bytes
  deriving DecidableEq

/-- A private regular file, as the store creates its own. -/
def storeFile (name : String) (content : Bytes) : DirectoryEntry where
  name := name
  isFile := true
  ownedPrivate := true
  content := content

/-- What an open finds in the control directory: the entries other than the live segment, in the
order the listing returns them, and the live segment if there is one. -/
structure ControlDirectory where
  entries : List DirectoryEntry
  live : Option DirectoryEntry

/-- A sealed segment, with the range its name declares. -/
structure SealedSegment where
  (firstSequence lastSequence : ℕ)
  file : DirectoryEntry

/-- The body of the listing loop, for an entry that starts with `wal-`. -/
def readSegmentEntry (entry : DirectoryEntry) : Except WalError SealedSegment :=
  match parseSealedSegmentName entry.name with
  | some (firstSequence, lastSequence) => do
    require (entry.isFile = true) (.integrity "unexpected WAL segment entry")
    require (firstSequence ≠ 0 ∧ firstSequence ≤ lastSequence)
      (.integrity "WAL segment entry carries an invalid sequence range")
    return { firstSequence, lastSequence, file := entry }
  | none => .error (.integrity "unexpected WAL segment entry")

/-- Each segment starts where the one before it ends. -/
def Contiguous : List SealedSegment → Prop
  | [] => True
  | [_] => True
  | a :: b :: rest => b.firstSequence = a.lastSequence + 1 ∧ Contiguous (b :: rest)

instance : ∀ segments, Decidable (Contiguous segments)
  | [] => .isTrue trivial
  | [_] => .isTrue trivial
  | _ :: b :: rest =>
    have := instDecidableContiguous (b :: rest)
    inferInstanceAs (Decidable (_ ∧ _))

theorem readSegmentEntry_eq_ok {entry : DirectoryEntry} {segment : SealedSegment}
    (h : readSegmentEntry entry = .ok segment) :
    segment.file = entry ∧ segment.firstSequence ≤ segment.lastSequence := by
  unfold readSegmentEntry at h
  split at h
  · simp only [guards_eq_ok] at h
    obtain ⟨-, hrange, rfl⟩ := h
    exact ⟨rfl, hrange.2⟩
  · cases h

/-- The entries the listing loop reads. -/
def IsSegmentEntry (entry : DirectoryEntry) : Prop := entry.name.toList.take 4 = segmentNameStart
  deriving Decidable

/-- `#enumerateWalSegments`. The comparator of the source never answers "equal", but two segments
that share a first sequence fail the gap check in either order. -/
def enumerateWalSegments (entries : List DirectoryEntry) : Except WalError (List SealedSegment) := do
  let segments ← (entries.filter fun e => IsSegmentEntry e).mapM readSegmentEntry
  let sorted := segments.mergeSort fun l r => decide (l.firstSequence ≤ r.firstSequence)
  require (Contiguous sorted) (.integrity "WAL segment chain has an interior gap")
  return sorted

/-- A listing that succeeds returns one segment for each `wal-` entry, with a nonempty range. -/
theorem enumerateWalSegments_eq_ok {entries : List DirectoryEntry} {segments : List SealedSegment}
    (h : enumerateWalSegments entries = .ok segments) :
    (∀ segment ∈ segments, segment.firstSequence ≤ segment.lastSequence) ∧
      (segments ≠ [] ↔ ∃ entry ∈ entries, IsSegmentEntry entry) := by
  simp only [enumerateWalSegments, guards_eq_ok] at h
  obtain ⟨read, hread, -, rfl⟩ := h
  rw [mapM_eq_ok] at hread
  refine ⟨fun segment hmem => ?_, ?_⟩
  · rw [mem_mergeSort] at hmem
    have hok : (.ok segment : Except WalError SealedSegment) ∈ read.map .ok :=
      List.mem_map_of_mem hmem
    rw [← hread] at hok
    obtain ⟨entry, -, hentry⟩ := List.mem_map.mp hok
    exact (readSegmentEntry_eq_ok hentry).2
  · have hlength : (entries.filter fun e => IsSegmentEntry e).length = read.length := by
      simpa using congrArg List.length hread
    rw [← length_pos_iff, length_mergeSort, ← hlength, length_filter_pos_iff]
    simp

/-- **The listing order does not matter.** Whatever order the file system returns the segments in,
the listing yields them in sequence order. -/
theorem enumerateWalSegments_of_perm {entries : List DirectoryEntry} {segments : List SealedSegment}
    (hperm : (entries.filter fun e => IsSegmentEntry e).Perm (segments.map SealedSegment.file))
    (hread : ∀ segment ∈ segments, readSegmentEntry segment.file = .ok segment)
    (hsorted : segments.Pairwise (·.firstSequence < ·.firstSequence))
    (hcontiguous : Contiguous segments) : enumerateWalSegments entries = .ok segments := by
  obtain ⟨read, hentries, hread'⟩ :=
    (congrFun (congrFun (eq_map_comp_perm SealedSegment.file) _) _).mpr hperm
  have hmapM : (entries.filter fun e => IsSegmentEntry e).mapM readSegmentEntry = .ok read := by
    rw [mapM_eq_ok, hentries, List.map_map]
    exact map_congr_left fun segment hmem => hread segment (hread'.mem_iff.mp hmem)
  have hle : (read.mergeSort fun l r => decide (l.firstSequence ≤ r.firstSequence)).Pairwise
      (·.firstSequence ≤ ·.firstSequence) := by
    refine (pairwise_mergeSort (fun a b c => ?_) (fun a b => ?_) read).imp ?_
    · simpa using Nat.le_trans
    · simpa using Nat.le_total _ _
    · simp
  have hnodup : (segments.map SealedSegment.firstSequence).Nodup :=
    pairwise_map.mpr (hsorted.imp ne_of_lt)
  have hp := (mergeSort_perm read fun l r =>
    decide (l.firstSequence ≤ r.firstSequence)).trans hread'
  have hsort : (read.mergeSort fun l r => decide (l.firstSequence ≤ r.firstSequence)) = segments :=
    hp.eq_of_pairwise (fun a b ha hb hab hba =>
      inj_on_of_nodup_map hnodup (hp.mem_iff.mp ha) hb (le_antisymm hab hba)) hle
      (hsorted.imp le_of_lt)
  simp only [enumerateWalSegments, guards_eq_ok]
  exact ⟨read, hmapM, hsort.symm ▸ hcontiguous, hsort⟩

end HiveRelay.Wal
