import HiveRelay.Persistence.Store

/-!
# What the store recovers

A map is taken here by its lookups only. What a log adds to a map is then decided by the last line for
each key, and to replay a log over a map that has its changes changes nothing.
-/

namespace HiveRelay.Persistence

open List OrderedMap Option Function
open JsString (ofText utf8)
open Outbox (trim isSpace)

/-! ### Contents -/

abbrev Contents := JsString → Option Json

def contents (map : OrderedMap JsString Json) : Contents := map.get?

def Entry.key : Entry → JsString
  | .set k _ => k
  | .del k => k

def Entry.value : Entry → Option Json
  | .set _ v => some v
  | .del _ => none

def Entry.effect (e : Entry) (A : Contents) : Contents := update A e.key e.value

/-- What changes do, one after another. -/
def applyAll (es : List Entry) (A : Contents) : Contents := es.foldl (fun A e => e.effect A) A

theorem applyAll_append (es fs : List Entry) (A : Contents) :
    applyAll (es ++ fs) A = applyAll fs (applyAll es A) := by
  simp [applyAll]

variable {es : List Entry} {k : JsString}

theorem applyAll_of_notMem (h : k ∉ es.map Entry.key) (A : Contents) : applyAll es A k = A k := by
  induction es generalizing A with
  | nil => rfl
  | cons e es ih =>
    rw [map_cons, mem_cons, not_or] at h
    show applyAll es (e.effect A) k = A k
    rw [ih h.2, Entry.effect, update_of_ne h.1]

theorem applyAll_of_mem (h : k ∈ es.map Entry.key) (A B : Contents) : applyAll es A k = applyAll es B k := by
  induction es generalizing A B with
  | nil => simp at h
  | cons e es ih =>
    show applyAll es (e.effect A) k = applyAll es (e.effect B) k
    by_cases hmem : k ∈ es.map Entry.key
    · exact ih hmem _ _
    · have hk : k = e.key := by simpa [hmem] using h
      rw [applyAll_of_notMem hmem, applyAll_of_notMem hmem, Entry.effect, Entry.effect, hk,
        update_self, update_self]

def overlay (base A : Contents) : Contents := fun k => (base k).or (A k)

theorem applyAll_applyAll (es : List Entry) (A : Contents) : applyAll es (applyAll es A) = applyAll es A := by
  funext k
  by_cases h : k ∈ es.map Entry.key
  · exact applyAll_of_mem h _ _
  · rw [applyAll_of_notMem h]

theorem applyAll_overlay (es : List Entry) (base : Contents) :
    applyAll es (overlay base (applyAll es base)) = applyAll es base := by
  funext k
  by_cases h : k ∈ es.map Entry.key
  · exact applyAll_of_mem h _ _
  · rw [applyAll_of_notMem h, overlay, applyAll_of_notMem h, Option.or_self]

theorem overlay_none (base : Contents) : overlay base (fun _ => none) = base := by
  funext k
  simp [overlay]

theorem contents_applyMap (e : Entry) (map : OrderedMap JsString Json) :
    contents (e.applyMap map) = e.effect (contents map) := by
  funext k
  cases e with
  | set k' v => simp [contents, Entry.applyMap, Entry.effect, Entry.key, Entry.value, get?_set,
      update_apply]
  | del k' => simp [contents, Entry.applyMap, Entry.effect, Entry.key, Entry.value, get?_delete,
      update_apply]

/-! ### Lines -/

def Entry.Readable : Entry → Prop
  | .set _ v => v.Readable
  | .del _ => True

/-- The members of what is written for a change. -/
def Entry.members : Entry → List (JsString × Json)
  | .set k v => [(ofText "op", .string (ofText "set")), (ofText "k", .string k), (ofText "v", v)]
  | .del k => [(ofText "op", .string (ofText "del")), (ofText "k", .string k)]

theorem Entry.json_eq (e : Entry) : e.json = .object e.members := by
  cases e <;> rfl

variable {e : Entry}

theorem Entry.Readable.json (h : e.Readable) : Json.Readable (.object e.members) := by
  cases e with
  | set k v =>
    refine ⟨?_, trivial, trivial, h, trivial⟩
    show [ofText "op", ofText "k", ofText "v"].Nodup
    decide
  | del k =>
    refine ⟨?_, trivial, trivial, trivial⟩
    show [ofText "op", ofText "k"].Nodup
    decide

theorem applyEntry_json (e : Entry) (map : OrderedMap JsString Json) :
    applyEntry map e.json = some (e.applyMap map) := by
  cases e <;> rfl

variable {s : JsString}

theorem trim_eq_self (hhead : ∀ u ∈ s.head?, isSpace u = false)
    (hlast : ∀ u ∈ s.getLast?, isSpace u = false) : trim s = s := by
  have hdrop : ∀ t : JsString, (∀ u ∈ t.head?, isSpace u = false) → t.dropWhile isSpace = t := by
    intro t ht
    cases t with
    | nil => rfl
    | cons u t => rw [dropWhile_cons_of_neg (by rw [ht u rfl]; decide)]
  rw [trim, hdrop s hhead, hdrop s.reverse (by simpa using hlast), reverse_reverse]

theorem trim_prefix (hhead : ∀ u ∈ s.head?, isSpace u = false) : trim s <+: s := by
  have hdrop : s.dropWhile isSpace = s := by
    cases s with
    | nil => rfl
    | cons u s => rw [dropWhile_cons_of_neg (by rw [hhead u rfl]; decide)]
  rw [trim, hdrop]
  have hsuffix := dropWhile_suffix isSpace (l := s.reverse)
  rw [← reverse_prefix] at hsuffix
  simpa using hsuffix

theorem head?_text_json (e : Entry) : (Json.text e.json).head? = some 0x7b := by
  cases e <;> rfl

theorem getLast?_text_json (e : Entry) : (Json.text e.json).getLast? = some 0x7d := by
  rw [e.json_eq, Json.text, ← cons_append, getLast?_concat]

theorem replayLine_text (h : e.Readable) (map : OrderedMap JsString Json) :
    replayLine map (Json.text e.json) = some (e.applyMap map) := by
  have hhead := head?_text_json e
  have hlast := getLast?_text_json e
  have htrim : trim (Json.text e.json) = Json.text e.json := by
    apply trim_eq_self
    · rw [hhead]
      rintro _ ⟨⟩
      decide
    · rw [hlast]
      rintro _ ⟨⟩
      decide
  have hne : Json.text e.json ≠ [] := by
    rintro hnil
    rw [hnil] at hhead
    cases hhead
  rw [replayLine, htrim, if_neg hne]
  rw [e.json_eq] at hne ⊢
  rw [Json.parse_text h.json, bind_some, ← e.json_eq, applyEntry_json]

theorem replay_torn (h : e.Readable) {before after : JsString}
    (htext : Json.text e.json = before ++ after) (hafter : after ≠ []) {line : JsString}
    (hline : line = before ∨ line = before ++ [0xfffd]) (map : OrderedMap JsString Json) :
    replay map [line] = map := by
  have hskip : ∀ map', replayLine map line = some map' → map' = map := by
    intro map' hread
    rw [replayLine] at hread
    split at hread
    · exact (some.inj hread).symm
    · rename_i hne
      rw [e.json_eq] at htext
      have hhead : ∀ u ∈ before.head?, isSpace u = false := by
        have htexthead := head?_text_json e
        rw [e.json_eq, htext] at htexthead
        cases before with
        | nil => simp
        | cons u before =>
          rintro _ ⟨⟩
          cases htexthead
          decide
      have hparse : Json.parse (trim line) = none := by
        rcases hline with rfl | rfl
        · obtain ⟨rest, hrest⟩ := trim_prefix hhead
          refine Json.parse_prefix (t := rest ++ after) h.json ?_ (by simp [hafter])
          rw [htext, ← append_assoc, hrest]
        · have htrim : trim (before ++ [0xfffd]) = before ++ [0xfffd] := by
            refine trim_eq_self ?_ ?_
            · cases before with
              | nil =>
                rintro _ ⟨⟩
                decide
              | cons u before => exact hhead
            · rw [getLast?_concat]
              rintro _ ⟨⟩
              decide
          rw [htrim]
          exact Json.parse_prefix_replaced htext
      rw [hparse] at hread
      cases hread
  rw [replay]
  cases hread : replayLine map line with
  | none => rfl
  | some map' =>
    rw [hskip map' hread]
    rfl

/-! ### Logs -/

theorem splitLines_of_notMem (h : (0x0a : UInt16) ∉ s) : splitLines s = [s] := by
  induction s with
  | nil => rfl
  | cons u s ih =>
    rw [mem_cons, not_or] at h
    rw [splitLines, if_neg (Ne.symm h.1), ih h.2]

theorem splitLines_append (h : (0x0a : UInt16) ∉ s) (t : JsString) :
    splitLines (s ++ 0x0a :: t) = s :: splitLines t := by
  induction s with
  | nil => rfl
  | cons u s ih =>
    rw [mem_cons, not_or] at h
    rw [cons_append, splitLines, if_neg (Ne.symm h.1), ih h.2]

theorem newline_notMem_text (v : Json) : (0x0a : UInt16) ∉ Json.text v :=
  fun h => Json.not_lt_of_mem_text v _ h (by decide)

def walBytes (es : List Entry) : Bytes := es.flatMap fun e => utf8 (walLine e)

theorem wellFormed_walLine (e : Entry) : JsString.WellFormed (walLine e) :=
  (Json.wellFormed_text e.json).append (.unit (by decide) .nil)

theorem utf8_walLine (e : Entry) : utf8 (walLine e) = utf8 (Json.text e.json) ++ [0x0a] := by
  rw [walLine, Utf8.utf8_append_unit (by decide)]
  rfl

theorem replay_walBytes (hes : ∀ e ∈ es, e.Readable) (tail : Bytes) (map : OrderedMap JsString Json) :
    replay map (splitLines (Utf8.decode (walBytes es ++ tail))) =
      replay (es.foldl (fun map e => e.applyMap map) map) (splitLines (Utf8.decode tail)) := by
  induction es generalizing map with
  | nil => rfl
  | cons e es ih =>
    rw [walBytes, flatMap_cons, append_assoc, Utf8.decode_append (wellFormed_walLine e), ← walBytes,
      walLine, append_assoc, singleton_append, splitLines_append (newline_notMem_text _), replay,
      replayLine_text (hes e mem_cons_self)]
    exact ih (fun f hf => hes f (mem_cons_of_mem _ hf)) _

theorem contents_foldl (es : List Entry) (map : OrderedMap JsString Json) :
    contents (es.foldl (fun map e => e.applyMap map) map) = applyAll es (contents map) := by
  induction es generalizing map with
  | nil => rfl
  | cons e es ih =>
    rw [foldl_cons, ih, contents_applyMap]
    rfl

/-- The changes that a log is read as: its lines, and a last one that may have no end. -/
inductive WalReads : Bytes → List Entry → Prop
  | clean (es : List Entry) : WalReads (walBytes es) es
  | torn (es : List Entry) {e : Entry} {n : ℕ} (he : e.Readable) (hpos : n ≠ 0)
      (hn : n < (utf8 (Json.text e.json)).length) :
      WalReads (walBytes es ++ (utf8 (Json.text e.json)).take n) es
  | whole (es : List Entry) (e : Entry) : WalReads (walBytes es ++ utf8 (Json.text e.json)) (es ++ [e])

theorem WalReads.replay {wal : Bytes} (h : WalReads wal es) (hes : ∀ e ∈ es, e.Readable)
    (map : OrderedMap JsString Json) :
    contents (replay map (splitLines (Utf8.decode wal))) = applyAll es (contents map) := by
  cases h with
  | clean es =>
    have hread := replay_walBytes hes [] map
    rw [append_nil] at hread
    rw [hread, ← contents_foldl]
    rfl
  | @torn es e n he hpos hn =>
    obtain ⟨before, after, htext, hafter, hdecode⟩ := Utf8.decode_take (Json.wellFormed_text e.json) hn
    have hline : Utf8.decode ((utf8 (Json.text e.json)).take n) = before ∨
        Utf8.decode ((utf8 (Json.text e.json)).take n) = before ++ [0xfffd] :=
      hdecode.imp_right And.right
    have hnewline : (0x0a : UInt16) ∉ Utf8.decode ((utf8 (Json.text e.json)).take n) := by
      have hbefore : (0x0a : UInt16) ∉ before := by
        intro hmem
        exact newline_notMem_text e.json (htext ▸ mem_append_left _ hmem)
      rcases hline with hline | hline
      · rwa [hline]
      · rw [hline, mem_append, not_or]
        exact ⟨hbefore, by decide⟩
    rw [replay_walBytes hes, splitLines_of_notMem hnewline, replay_torn he htext hafter hline, contents_foldl]
  | whole es e =>
    have hes' : ∀ f ∈ es, f.Readable := fun f hf => hes f (mem_append_left _ hf)
    have he : e.Readable := hes e (by simp)
    rw [replay_walBytes hes', Utf8.decode_utf8 (Json.wellFormed_text e.json),
      splitLines_of_notMem (newline_notMem_text _), Persistence.replay, replayLine_text he, applyAll_append,
      ← contents_foldl]
    exact contents_applyMap e _

/-! ### Appends -/

/-- The log is empty or ends with a line. -/
def CleanTail (wal : Bytes) : Prop := ∀ b ∈ wal.getLast?, b = 0x0a
  deriving Decidable

theorem newline_notMem_utf8_text (v : Json) : ∀ b ∈ utf8 (Json.text v), b ≠ 0x0a := by
  rintro b hb rfl
  have := Utf8.le_of_mem_utf8 (Json.wellFormed_text v) (Json.not_lt_of_mem_text v) 0x0a hb
  simp at this

theorem WalReads.eq_of_cleanTail {wal : Bytes} (h : WalReads wal es)
    (hclean : CleanTail wal) : wal = walBytes es := by
  have hno : ∀ (tail : Bytes) (e : Entry), tail ≠ [] → (∀ b ∈ tail, b ∈ utf8 (Json.text e.json)) →
      ∀ es, ¬ CleanTail (walBytes es ++ tail) := by
    intro tail e hne hmem es hclean
    obtain ⟨b, hb⟩ := ne_none_iff_exists'.mp (mt getLast?_eq_none_iff.mp hne)
    have hlast : (walBytes es ++ tail).getLast? = some b := by
      rw [getLast?_append_of_ne_nil _ hne, hb]
    exact newline_notMem_utf8_text e.json b (hmem b (mem_of_getLast? hb)) (hclean b hlast)
  cases h with
  | clean es => rfl
  | @torn es e n he hpos hn =>
    refine absurd hclean (hno _ e ?_ (fun b hb => mem_of_mem_take hb) es)
    rw [ne_eq, take_eq_nil_iff, not_or]
    exact ⟨hpos, fun hnil => by simp [hnil] at hn⟩
  | whole es e =>
    refine absurd hclean (hno _ e ?_ (fun b hb => hb) es)
    intro hnil
    have hhead := head?_text_json e
    have htext := Utf8.decode_utf8 (Json.wellFormed_text e.json)
    rw [hnil] at htext
    rw [← htext] at hhead
    cases hhead

theorem walReads_short (es : List Entry) (he : e.Readable) {n : ℕ} (hn : n < (utf8 (Json.text e.json)).length) :
    WalReads (walBytes es ++ (utf8 (walLine e)).take n) es := by
  rw [utf8_walLine, take_append_of_le_length hn.le]
  by_cases hzero : n = 0
  · rw [hzero, take_zero, append_nil]
    exact .clean es
  · exact .torn es he hzero hn

theorem walReads_long (es : List Entry) (e : Entry) {n : ℕ} (hn : (utf8 (Json.text e.json)).length ≤ n) :
    WalReads (walBytes es ++ (utf8 (walLine e)).take n) (es ++ [e]) := by
  rcases Nat.eq_or_lt_of_le hn with rfl | hlt
  · rw [utf8_walLine, take_left' rfl]
    exact .whole es e
  · have hline : (utf8 (walLine e)).take n = utf8 (walLine e) := by
      rw [take_of_length_le]
      rw [utf8_walLine, length_append, length_singleton]
      omega
    have hbytes : walBytes es ++ utf8 (walLine e) = walBytes (es ++ [e]) := by simp [walBytes]
    rw [hline, hbytes]
    exact .clean _

/-! ### Snapshots -/

theorem mem_of_lookup {members : List (JsString × Json)} {v : Json}
    (h : members.lookup k = some v) : (k, v) ∈ members := by
  obtain ⟨before, after, rfl, -⟩ := lookup_eq_some_iff.mp h
  simp

theorem lookup_eq_of_perm {ms ms' : List (JsString × Json)} (hperm : ms.Perm ms')
    (hnodup : (ms.map Prod.fst).Nodup) (k : JsString) : ms.lookup k = ms'.lookup k := by
  have hnodup' : (ms'.map Prod.fst).Nodup := (hperm.map _).nodup_iff.mp hnodup
  ext v
  constructor
  · intro h
    exact Json.lookup_of_mem hnodup' (hperm.mem_iff.mp (mem_of_lookup h))
  · intro h
    exact Json.lookup_of_mem hnodup (hperm.mem_iff.mpr (mem_of_lookup h))

theorem ownOrder_perm (members : List (JsString × Json)) : (ownOrder members).Perm members := by
  have hsort := mergeSort_perm (members.filter fun m => (arrayIndex m.1).isSome)
    (fun m m' => decide ((arrayIndex m.1).getD 0 ≤ (arrayIndex m'.1).getD 0))
  refine (hsort.append_right _).trans ?_
  have hnone : (fun m : JsString × Json => (arrayIndex m.1).isNone) = fun m => !(arrayIndex m.1).isSome := by
    funext m
    simp
  rw [hnone]
  exact filter_append_perm _ _

theorem contents_setAll {ms : List (JsString × Json)} (hnodup : (ms.map Prod.fst).Nodup)
    (map : OrderedMap JsString Json) :
    contents (ms.foldl (fun map e => map.set e.1 e.2) map) = overlay (fun k => ms.lookup k) (contents map) := by
  induction ms generalizing map with
  | nil =>
    funext k
    simp [overlay, contents]
  | cons m ms ih =>
    rw [map_cons, nodup_cons] at hnodup
    rw [foldl_cons, ih hnodup.2]
    funext k
    rw [overlay, overlay, contents, contents, get?_set]
    by_cases hk : k = m.1
    · have hnone : ms.lookup k = none := by
        by_contra hsome
        obtain ⟨v, hv⟩ := ne_none_iff_exists'.mp hsome
        exact hnodup.1 (mem_map.mpr ⟨_, mem_of_lookup hv, hk⟩)
      obtain ⟨key, value⟩ := m
      rw [hnone, if_pos hk]
      have hbeq : (k == key) = true := beq_iff_eq.mpr hk
      simp [lookup_cons, hbeq]
    · obtain ⟨key, value⟩ := m
      have hbeq : (k == key) = false := beq_false_of_ne hk
      rw [if_neg hk]
      simp [lookup_cons, hbeq]

/-- The lookups that a snapshot is read as. -/
inductive SnapshotReads : Option Bytes → Contents → Prop
  | none : SnapshotReads none fun _ => none
  | some {members : List (JsString × Json)} (h : Json.Readable (.object members)) :
      SnapshotReads (some (utf8 (Json.text (.object members)))) fun k => members.lookup k

theorem SnapshotReads.load {snapshot : Option Bytes} {base : Contents} (h : SnapshotReads snapshot base)
    (map : OrderedMap JsString Json) :
    contents (readSnapshot map snapshot) = overlay base (contents map) := by
  cases h with
  | none =>
    funext k
    simp [overlay, readSnapshot]
  | @some members hreadable =>
    have hhead : (Json.text (.object members)).head? = .some 0x7b := rfl
    have hlast : (Json.text (.object members)).getLast? = .some 0x7d := by
      rw [Json.text, ← cons_append, getLast?_concat]
    have htrim : trim (Json.text (.object members)) = Json.text (.object members) := by
      apply trim_eq_self
      · rintro _ ⟨⟩
        decide
      · rw [hlast]
        rintro _ ⟨⟩
        decide
    have hne : Json.text (.object members) ≠ [] := by
      intro hnil
      rw [hnil] at hhead
      cases hhead
    have hnodup : ((ownOrder members).map Prod.fst).Nodup :=
      ((ownOrder_perm members).map _).nodup_iff.mpr hreadable.1
    rw [readSnapshot, Utf8.decode_utf8 (Json.wellFormed_text _), loadSnapshot, htrim, if_neg hne,
      Json.parse_text hreadable, bind_some, ownEntries]
    rw [contents_setAll hnodup]
    congr 1
    funext k
    exact lookup_eq_of_perm (ownOrder_perm members) hnodup k

/-- A map whose values are values of JSON. -/
def ReadableMap (map : OrderedMap JsString Json) : Prop := ∀ k v, map.get? k = some v → v.Readable

theorem snapshotReads_data {map : OrderedMap JsString Json} (h : ReadableMap map)
    (hproto : map.has protoKey = false) :
    SnapshotReads (some (utf8 (Json.text (.object (snapshotData map))))) (contents map) := by
  have hall : (map.entries.filter fun e => e.1 ≠ protoKey) = map.entries := by
    refine filter_eq_self.mpr fun e he => ?_
    have hget := mem_entries_iff.mp (show (e.1, e.2) ∈ map.entries from he)
    rw [has_eq_false_iff] at hproto
    rw [decide_eq_true_eq]
    rintro heq
    rw [heq, hproto] at hget
    cases hget
  have hperm : (snapshotData map).Perm map.entries := by
    rw [snapshotData, hall]
    exact ownOrder_perm _
  have hnodup : ((snapshotData map).map Prod.fst).Nodup := (hperm.map _).nodup_iff.mpr map.nodup_keys
  have hreadable : Json.Readable (.object (snapshotData map)) := by
    refine ⟨hnodup, Json.readableMembers_iff.mpr fun m hm => ?_⟩
    exact h m.1 m.2 (mem_entries_iff.mp (hperm.mem_iff.mp hm))
  have hlookup : (fun k => (snapshotData map).lookup k) = contents map := by
    funext k
    ext v
    constructor
    · intro hv
      exact mem_entries_iff.mp (hperm.mem_iff.mp (mem_of_lookup hv))
    · intro hv
      exact Json.lookup_of_mem hnodup (hperm.mem_iff.mpr (mem_entries_iff.mpr hv))
  rw [← hlookup]
  exact .some hreadable

/-! ### Files -/

structure Reads (disk : Disk) (base : Contents) (es : List Entry) : Prop where
  snapshot : SnapshotReads disk.snapshot base
  wal : WalReads (disk.wal.getD []) es
  readable : ∀ e ∈ es, e.Readable
  readableBase : ∀ k v, base k = some v → v.Readable

theorem Reads.load {disk : Disk} {base : Contents} (h : Reads disk base es) (map : OrderedMap JsString Json) :
    contents (disk.load map) = applyAll es (overlay base (contents map)) := by
  have hread : contents (readWal (readSnapshot map disk.snapshot) disk.wal) =
      applyAll es (contents (readSnapshot map disk.snapshot)) := by
    have hwal := h.wal
    cases hdisk : disk.wal with
    | some bytes =>
      rw [hdisk] at hwal
      exact hwal.replay h.readable _
    | none =>
      -- no log is read as an empty one
      rw [hdisk] at hwal
      exact hwal.replay h.readable (readSnapshot map disk.snapshot)
  rw [Disk.load, hread, h.snapshot.load]

theorem applyAll_readable (h : ∀ e ∈ es, e.Readable) {A : Contents}
    (hA : ∀ k v, A k = some v → v.Readable) : ∀ k v, applyAll es A k = some v → v.Readable := by
  induction es generalizing A with
  | nil => exact hA
  | cons e es ih =>
    refine ih (fun f hf => h f (mem_cons_of_mem _ hf)) fun k v hv => ?_
    have he := h e mem_cons_self
    change update A e.key e.value k = some v at hv
    rw [update_apply] at hv
    split at hv
    · cases e with
      | set k' v' =>
        cases hv
        exact he
      | del k' => cases hv
    · exact hA k v hv

end HiveRelay.Persistence
