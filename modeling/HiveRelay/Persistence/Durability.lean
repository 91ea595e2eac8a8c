import HiveRelay.Persistence.Recovery

/-!
# Durability of the store

A run is compared with the contents that its calls leave: a change that returned is made, one that threw
is not, and one that a crash cut off is made or not. In `Durable` these contents are what is recovered
from the files after every call.

This holds where each call is safe. A line must not be appended to a log whose last line is not whole,
for then it is not read; a write that fails must not leave a whole line; and a snapshot must not be taken
of a map with the key of the prototype, nor by an instance that has not read the files.

## Main definitions

* `Durable` — what is recovered after each call
* `Meets` — a call that is safe

## Main results

* `append_keeps`, `snapshot_keeps` — the two kinds of writes
* `run_durable` — a run of safe calls
-/

namespace HiveRelay.Persistence

open Option
open JsString (ofText utf8)

/-! ### What is recovered -/

def Event.op : Event → Option Entry
  | .set k v _ _ => some (.set k v.json)
  | .delete k _ => some (.del k)
  | _ => none

/-- The contents after a change, if there is one. -/
def effectOf (op : Option Entry) (A : Contents) : Contents :=
  match op with
  | some e => e.effect A
  | none => A

/-- The contents that a call may leave. -/
inductive Allowed (A : Contents) (op : Option Entry) : Outcome → Contents → Prop
  | returned : Allowed A op .returned (effectOf op A)
  | threw (error : Error) : Allowed A op (.threw error) A
  | lost : Allowed A op .crashed A
  | kept : Allowed A op .crashed (effectOf op A)

/-- The contents are recovered from the files, and an instance that has read them has them. -/
def Recovers (A : Contents) (sys : Sys) : Prop :=
  contents sys.disk.recovered = A ∧ ∀ s ∈ sys.store, s.walOpen = true → contents s.map = A

/-- After each call of a run the contents are recovered that the calls so far may leave. -/
def Durable (o : Options) : Contents → Sys → List Event → Prop
  | A, sys, [] => Recovers A sys
  | A, sys, event :: events => Recovers A sys ∧ ∀ sys' outcome, sys.step o event = some (sys', outcome) →
      ∃ A', Allowed A event.op outcome A' ∧ Durable o A' sys' events

/-! ### Safe calls -/

/-- A write that fails leaves less than the text of its line. -/
def FailsShort (e : Entry) : Write → Prop
  | .fails n => n < (utf8 (Json.text e.json)).length
  | _ => True

/-- A line is appended to a log that ends with a line. -/
def AppendSafe (disk : Disk) (e : Entry) (w : Write) : Prop :=
  CleanTail (disk.wal.getD []) ∧ FailsShort e w

/-- A snapshot that is renamed is of a map without the key of the prototype, and of the contents of the
files. -/
def SaveSafe (disk : Disk) (s : Store) : Save → Prop
  | .done => s.map.has protoKey = false ∧ (s.walOpen = true ∨ disk.snapshot = none)
  | .crashesRenamed => s.map.has protoKey = false ∧ (s.walOpen = true ∨ disk.snapshot = none)
  | _ => True

def Meets (o : Options) (sys : Sys) : Event → Prop
  | .set k v w save => ∀ s ∈ sys.store, s.closed = false →
      AppendSafe sys.disk (.set k v.json) w ∧
        (w = .done → o.saves ((s.open o sys.disk).2.changed (.set k v.json)) = true →
          SaveSafe sys.disk ((s.open o sys.disk).2.changed (.set k v.json)) save)
  | .delete k w => ∀ s ∈ sys.store, s.closed = false → (s.open o sys.disk).2.map.has k = true →
      AppendSafe sys.disk (.del k) w
  | .snapshot save => ∀ s ∈ sys.store, s.closed = false → SaveSafe sys.disk s save
  | .tick save => ∀ s ∈ sys.store, s.closed = false → s.timer = true → 0 < s.opsSinceSnapshot →
      SaveSafe sys.disk s save
  | _ => True

def MeetsAll (o : Options) : Sys → List Event → Prop
  | _, [] => True
  | sys, event :: events => Meets o sys event ∧ ∀ r ∈ sys.step o event, MeetsAll o r.1 events

instance (e : Entry) (w : Write) : Decidable (FailsShort e w) := by
  cases w <;> unfold FailsShort <;> infer_instance

instance (disk : Disk) (e : Entry) (w : Write) : Decidable (AppendSafe disk e w) :=
  inferInstanceAs (Decidable (_ ∧ _))

instance (disk : Disk) (s : Store) (save : Save) : Decidable (SaveSafe disk s save) := by
  cases save <;> unfold SaveSafe <;> infer_instance

instance (o : Options) (sys : Sys) (event : Event) : Decidable (Meets o sys event) := by
  cases event <;> unfold Meets <;> infer_instance

instance decidableMeetsAll (o : Options) : ∀ sys events, Decidable (MeetsAll o sys events)
  | _, [] => inferInstanceAs (Decidable True)
  | sys, event :: events =>
    have := fun sys' => decidableMeetsAll o sys' events
    inferInstanceAs (Decidable (Meets o sys event ∧ ∀ r ∈ sys.step o event, MeetsAll o r.1 events))

/-! ### The invariant -/

def DiskKeeps (A : Contents) (disk : Disk) : Prop :=
  ∃ base es, Reads disk base es ∧ applyAll es base = A

/-- An instance has the contents, or has not read the files. -/
structure StoreKeeps (A : Contents) (s : Store) : Prop where
  opened : s.walOpen = true → contents s.map = A
  fresh : s.walOpen = false → s.closed = false → contents s.map = fun _ => none
  read : contents s.map = A ∨ contents s.map = fun _ => none

/-- The files and the instance have the contents. -/
structure Inv (A : Contents) (sys : Sys) : Prop where
  disk : DiskKeeps A sys.disk
  store : ∀ s ∈ sys.store, StoreKeeps A s

variable {o : Options} {A : Contents} {disk : Disk} {s : Store}

theorem DiskKeeps.readable (h : DiskKeeps A disk) : ∀ k v, A k = some v → v.Readable := by
  obtain ⟨base, es, hreads, rfl⟩ := h
  exact applyAll_readable hreads.readable hreads.readableBase

variable {sys : Sys}

theorem Inv.recovers (h : Inv A sys) : Recovers A sys := by
  obtain ⟨base, es, hreads, rfl⟩ := h.disk
  refine ⟨?_, fun s hs hopen => (h.store s hs).opened hopen⟩
  rw [Disk.recovered, hreads.load]
  exact congrArg (applyAll es) (overlay_none base)

theorem storeKeeps_new (A : Contents) : StoreKeeps A .new :=
  ⟨(by rintro ⟨⟩), fun _ _ => rfl, Or.inr rfl⟩

theorem StoreKeeps.readable (h : StoreKeeps A s) (hdisk : DiskKeeps A disk) : ReadableMap s.map := by
  intro k v hv
  have hk : contents s.map k = some v := hv
  rcases h.read with hread | hread
  · rw [hread] at hk
    exact hdisk.readable k v hk
  · rw [hread] at hk
    cases hk

/-! ### Opening -/

/-- What `open` does. -/
structure Opens (o : Options) (A : Contents) (disk : Disk) (s : Store) : Prop where
  keeps : DiskKeeps A (s.open o disk).1
  store : StoreKeeps A (s.open o disk).2
  walOpen : (s.open o disk).2.walOpen = true
  closed : (s.open o disk).2.closed = s.closed
  wal : (s.open o disk).1.wal.getD [] = disk.wal.getD []
  snapshot : (s.open o disk).1.snapshot = disk.snapshot

theorem contents_load (hdisk : DiskKeeps A disk) (hstore : StoreKeeps A s) : contents (disk.load s.map) = A := by
  obtain ⟨base, es, hreads, rfl⟩ := hdisk
  rw [hreads.load]
  rcases hstore.read with hread | hread
  · rw [hread, applyAll_overlay]
  · rw [hread, overlay_none]

theorem opens (hdisk : DiskKeeps A disk) (hstore : StoreKeeps A s) : Opens o A disk s := by
  have hload := contents_load hdisk hstore
  cases hopen : s.walOpen with
  | true =>
    have heq : s.open o disk = (disk, s) := by rw [Store.open, if_pos hopen]
    exact ⟨by rw [heq]; exact hdisk, by rw [heq]; exact hstore, by rw [heq]; exact hopen, by rw [heq],
      by rw [heq], by rw [heq]⟩
  | false =>
    have heq : s.open o disk = ({ disk with wal := some (disk.wal.getD []) },
        { s with map := disk.load s.map, walOpen := true, timer := o.timer }) := by
      rw [Store.open, if_neg (by rw [hopen]; decide)]
    refine ⟨?_, ?_, by rw [heq], by rw [heq], by rw [heq]; rfl, by rw [heq]⟩
    · rw [heq]
      obtain ⟨base, es, hreads, hA⟩ := hdisk
      exact ⟨base, es, ⟨hreads.snapshot, hreads.wal, hreads.readable, hreads.readableBase⟩, hA⟩
    · rw [heq]
      exact ⟨fun _ => hload, (by rintro ⟨⟩), Or.inl hload⟩

/-! ### Writing -/

variable {w : Write} {outcome : Outcome} {disk' : Disk}

/-- **An append** leaves what its change may leave. -/
theorem append_keeps {e : Entry} (hdisk : DiskKeeps A disk)
    (he : e.Readable) (hopen : s.walOpen = true) (hsafe : AppendSafe disk e w)
    (h : appendWal disk s e w = (outcome, disk')) :
    ∃ A', Allowed A (some e) outcome A' ∧ DiskKeeps A' disk' := by
  obtain ⟨base, es, hreads, rfl⟩ := hdisk
  have hwal := hreads.wal.eq_of_cleanTail hsafe.1
  have hshort : ∀ n, n < (utf8 (Json.text e.json)).length → DiskKeeps (applyAll es base)
        { disk with wal := some (disk.wal.getD [] ++ (utf8 (walLine e)).take n) } := by
    intro n hn
    refine ⟨base, es, ⟨hreads.snapshot, ?_, hreads.readable, hreads.readableBase⟩, rfl⟩
    rw [getD_some, hwal]
    exact walReads_short es he hn
  have hlong : ∀ n, (utf8 (Json.text e.json)).length ≤ n → DiskKeeps (effectOf (some e) (applyAll es base))
        { disk with wal := some (disk.wal.getD [] ++ (utf8 (walLine e)).take n) } := by
    intro n hn
    refine ⟨base, es ++ [e], ⟨hreads.snapshot, ?_, ?_, hreads.readableBase⟩, applyAll_append _ _ _⟩
    · rw [getD_some, hwal]
      exact walReads_long es e hn
    · rintro f hf
      rcases List.mem_append.mp hf with hf | hf
      · exact hreads.readable f hf
      · rw [List.mem_singleton.mp hf]
        exact he
  rw [appendWal, if_neg (by rw [hopen]; decide)] at h
  cases w with
  | done =>
    cases h
    refine ⟨_, .returned, hlong _ ?_⟩
    rw [utf8_walLine, List.length_append]
    omega
  | fails n =>
    cases h
    exact ⟨_, .threw .io, hshort n hsafe.2⟩
  | crashes n =>
    cases h
    rcases Nat.lt_or_ge n (utf8 (Json.text e.json)).length with hn | hn
    · exact ⟨_, .lost, hshort n hn⟩
    · exact ⟨_, .kept, hlong n hn⟩

variable {save : Save}

/-- **A snapshot** leaves the contents. -/
theorem snapshot_keeps {s' : Store} (hdisk : DiskKeeps A disk) (hstore : StoreKeeps A s)
    (hsafe : s.closed = false → SaveSafe disk s save) (h : s.snapshot disk save = (outcome, disk', s')) :
    DiskKeeps A disk' ∧ StoreKeeps A s' ∧ s'.map = s.map := by
  cases hclosed : s.closed with
  | true =>
    rw [Store.snapshot, if_pos hclosed] at h
    obtain ⟨rfl, rfl, rfl⟩ : outcome = .returned ∧ disk' = disk ∧ s' = s := by
      simpa [eq_comm] using h
    exact ⟨hdisk, hstore, rfl⟩
  | false =>
    rw [Store.snapshot, if_neg (by rw [hclosed]; decide)] at h
    have hsafe := hsafe hclosed
    -- a snapshot that is renamed has the contents, and the log may be replayed over it
    have hrenamed : s.map.has protoKey = false ∧ (s.walOpen = true ∨ disk.snapshot = none) →
        ∀ tmp, DiskKeeps A ⟨some (utf8 (Json.text (.object (snapshotData s.map)))), tmp, disk.wal⟩ ∧
          (s.walOpen = true →
            DiskKeeps A ⟨some (utf8 (Json.text (.object (snapshotData s.map)))), tmp, some []⟩) := by
      rintro ⟨hproto, hread⟩ tmp
      have hmap : ReadableMap s.map := hstore.readable hdisk
      have hdata := snapshotReads_data hmap hproto
      have hbase : ∀ k v, contents s.map k = some v → v.Readable := hmap
      constructor
      · obtain ⟨base, es, hreads, hA⟩ := hdisk
        refine ⟨contents s.map, es, ⟨hdata, hreads.wal, hreads.readable, hbase⟩, ?_⟩
        cases hopen : s.walOpen with
        | true => rw [hstore.opened hopen, ← hA, applyAll_applyAll]
        | false =>
          have hnone : disk.snapshot = none := hread.resolve_left (by rw [hopen]; decide)
          have hbase' := hreads.snapshot
          rw [hnone] at hbase'
          cases hbase'
          rw [hstore.fresh hopen hclosed, hA]
      · intro hopen
        exact ⟨contents s.map, [], ⟨hdata, .clean [], by simp, hbase⟩, hstore.opened hopen⟩
    cases save with
    | done =>
      obtain ⟨rfl, hrest⟩ := Prod.mk.inj h
      cases hrest
      obtain ⟨hwal, hcut⟩ := hrenamed hsafe none
      refine ⟨?_, ⟨hstore.opened, hstore.fresh, hstore.read⟩, rfl⟩
      cases hopen : s.walOpen with
      | true =>
        exact hcut hopen
      | false =>
        exact hwal
    | fails n | crashes n =>
      obtain ⟨rfl, hrest⟩ := Prod.mk.inj h
      cases hrest
      obtain ⟨base, es, hreads, hA⟩ := hdisk
      exact ⟨⟨base, es, ⟨hreads.snapshot, hreads.wal, hreads.readable, hreads.readableBase⟩, hA⟩, hstore, rfl⟩
    | crashesRenamed =>
      obtain ⟨rfl, hrest⟩ := Prod.mk.inj h
      cases hrest
      exact ⟨(hrenamed hsafe none).1, hstore, rfl⟩

/-! ### Calls -/

theorem inv_after (hdisk : DiskKeeps A disk)
    (hstore : outcome ≠ .crashed → StoreKeeps A s) : Inv A (Sys.after outcome disk s).1 := by
  refine ⟨hdisk, fun s' hs' => ?_⟩
  simp only [Sys.after] at hs'
  split at hs'
  · cases hs'
  · cases hs'
    exact hstore (by assumption)

theorem caught_keeps {op : Option Entry} {B : Contents} (hdisk : DiskKeeps A disk) (hstore : StoreKeeps A s)
    (hsafe : s.closed = false → SaveSafe disk s save) (hA : A = effectOf op B)
    (h : s.caught disk save = (sys, outcome)) : ∃ A', Allowed B op outcome A' ∧ Inv A' sys := by
  obtain ⟨ended, disk', s', hsnapshot⟩ : ∃ ended disk' s', s.snapshot disk save = (ended, disk', s') :=
    ⟨_, _, _, rfl⟩
  obtain ⟨hdisk', hstore', -⟩ := snapshot_keeps hdisk hstore hsafe hsnapshot
  rw [Store.caught, hsnapshot] at h
  subst hA
  cases ended with
  | crashed =>
    cases h
    exact ⟨_, .kept, inv_after hdisk' fun h => absurd rfl h⟩
  | returned | threw error =>
    cases h
    exact ⟨_, .returned, inv_after hdisk' fun _ => hstore'⟩

theorem StoreKeeps.changed {e : Entry} (h : StoreKeeps A s) (hopen : s.walOpen = true) :
    StoreKeeps (e.effect A) (s.changed e) := by
  have hmap : contents (s.changed e).map = e.effect A := by
    rw [← h.opened hopen]
    exact contents_applyMap e s.map
  refine ⟨fun _ => hmap, fun hclosed => ?_, Or.inl hmap⟩
  have hopen' : (s.changed e).walOpen = true := hopen
  rw [hopen'] at hclosed
  cases hclosed

theorem eq_done_of_append {e : Entry} (hopen : s.walOpen = true)
    (h : appendWal disk s e w = (.returned, disk')) : w = .done := by
  rw [appendWal, if_neg (by rw [hopen]; decide)] at h
  cases w with
  | done => rfl
  | fails n | crashes n => cases (Prod.mk.inj h).1

theorem SaveSafe.of_open (hopen : s.walOpen = true) (h : SaveSafe disk s save) : SaveSafe disk' s save := by
  cases save with
  | done | crashesRenamed => exact ⟨h.1, Or.inl hopen⟩
  | fails n | crashes n => trivial

/-- A call of `set` that is safe. -/
theorem set_keeps {k : JsString} {v : JsonValue} (hdisk : DiskKeeps A disk) (hstore : StoreKeeps A s)
    (hsafe : s.closed = false → AppendSafe disk (.set k v.json) w ∧
      (w = .done → o.saves ((s.open o disk).2.changed (.set k v.json)) = true →
        SaveSafe disk ((s.open o disk).2.changed (.set k v.json)) save))
    (h : s.set o disk k v.json w save = (sys, outcome)) :
    ∃ A', Allowed A (some (.set k v.json)) outcome A' ∧ Inv A' sys := by
  rw [Store.set] at h
  cases hclosed : s.closed with
  | true =>
    rw [if_pos hclosed] at h
    cases h
    exact ⟨A, .threw _, inv_after hdisk fun _ => hstore⟩
  | false =>
    rw [if_neg (by rw [hclosed]; decide)] at h
    obtain ⟨happendSafe, hsaveSafe⟩ := hsafe hclosed
    have hopens : Opens o A disk s := opens hdisk hstore
    have happendSafe' : AppendSafe (s.open o disk).1 (.set k v.json) w :=
      ⟨by rw [hopens.wal]; exact happendSafe.1, happendSafe.2⟩
    simp only at h
    cases happend : appendWal (s.open o disk).1 (s.open o disk).2 (.set k v.json) w with
    | mk ended disk' =>
      obtain ⟨A', hallowed, hdisk'⟩ :=
        append_keeps (e := .set k v.json) hopens.keeps v.readable hopens.walOpen happendSafe' happend
      rw [happend] at h
      cases ended with
      | returned =>
        cases hallowed
        have hdone := eq_done_of_append hopens.walOpen happend
        have hstore' := hopens.store.changed (e := .set k v.json) hopens.walOpen
        cases hsaves : o.saves ((s.open o disk).2.changed (.set k v.json)) with
        | true =>
          have hcaught : ((s.open o disk).2.changed (.set k v.json)).caught disk' save = (sys, outcome) := by
            rw [← h]
            exact (if_pos hsaves).symm
          exact caught_keeps hdisk' hstore' (fun _ => (hsaveSafe hdone hsaves).of_open hopens.walOpen) rfl hcaught
        | false =>
          have hreturned : Sys.after .returned disk' ((s.open o disk).2.changed (.set k v.json)) =
              (sys, outcome) := by
            rw [← h]
            exact (if_neg (by rw [hsaves]; decide)).symm
          cases hreturned
          exact ⟨_, .returned, inv_after hdisk' fun _ => hstore'⟩
      | threw error =>
        cases hallowed
        cases h
        exact ⟨_, .threw error, inv_after hdisk' fun _ => hopens.store⟩
      | crashed =>
        cases h
        exact ⟨A', hallowed, inv_after hdisk' fun hne => absurd rfl hne⟩

/-- A call of `delete` that is safe. -/
theorem delete_keeps {k : JsString} (hdisk : DiskKeeps A disk) (hstore : StoreKeeps A s)
    (hsafe : s.closed = false → (s.open o disk).2.map.has k = true → AppendSafe disk (.del k) w)
    (h : s.delete o disk k w = (sys, outcome)) :
    ∃ A', Allowed A (some (.del k)) outcome A' ∧ Inv A' sys := by
  rw [Store.delete] at h
  cases hclosed : s.closed with
  | true =>
    rw [if_pos hclosed] at h
    cases h
    exact ⟨A, .threw _, inv_after hdisk fun _ => hstore⟩
  | false =>
    rw [if_neg (by rw [hclosed]; decide)] at h
    have hopens : Opens o A disk s := opens hdisk hstore
    simp only at h
    cases hhas : (s.open o disk).2.map.has k with
    | false =>
      rw [if_pos (by rw [hhas]; rfl)] at h
      cases h
      -- the key has nothing that the change would remove
      have hsame : effectOf (some (.del k)) A = A := by
        rw [← hopens.store.opened hopens.walOpen]
        exact Function.update_eq_self_iff.mpr (OrderedMap.has_eq_false_iff.mp hhas).symm
      refine ⟨_, .returned, ?_⟩
      rw [hsame]
      exact inv_after hopens.keeps fun _ => hopens.store
    | true =>
      rw [if_neg (by rw [hhas]; decide)] at h
      have hsafe := hsafe hclosed hhas
      have hsafe' : AppendSafe (s.open o disk).1 (.del k) w :=
        ⟨by rw [hopens.wal]; exact hsafe.1, hsafe.2⟩
      cases happend : appendWal (s.open o disk).1 (s.open o disk).2 (.del k) w with
      | mk ended disk' =>
        obtain ⟨A', hallowed, hdisk'⟩ :=
          append_keeps (e := .del k) hopens.keeps trivial hopens.walOpen hsafe' happend
        rw [happend] at h
        cases ended with
        | returned =>
          cases hallowed
          cases h
          exact ⟨_, .returned, inv_after hdisk' fun _ =>
            hopens.store.changed (e := .del k) hopens.walOpen⟩
        | threw error =>
          cases hallowed
          cases h
          exact ⟨_, .threw error, inv_after hdisk' fun _ => hopens.store⟩
        | crashed =>
          cases h
          exact ⟨A', hallowed, inv_after hdisk' fun hne => absurd rfl hne⟩

theorem close_keeps (hdisk : DiskKeeps A disk) (hstore : StoreKeeps A s)
    (h : s.close disk = (sys, outcome)) : outcome = .returned ∧ Inv A sys := by
  rw [Store.close] at h
  cases hclosed : s.closed with
  | true =>
    rw [if_pos hclosed] at h
    cases h
    exact ⟨rfl, inv_after hdisk fun _ => hstore⟩
  | false =>
    rw [if_neg (by rw [hclosed]; decide)] at h
    -- a closed instance takes no snapshot
    have hnothing : Store.snapshot disk { s with closed := true, timer := false } .done =
        (.returned, disk, { s with closed := true, timer := false }) := rfl
    simp only [hnothing, ite_self] at h
    cases h
    exact ⟨rfl, inv_after hdisk fun _ => ⟨(by rintro ⟨⟩), (by rintro _ ⟨⟩), hstore.read⟩⟩

variable {event : Event}

/-- **One safe call** leaves what it may leave. -/
theorem step_keeps {sys' : Sys} (h : Inv A sys)
    (hmeets : Meets o sys event) (hstep : sys.step o event = some (sys', outcome)) :
    ∃ A', Allowed A event.op outcome A' ∧ Inv A' sys' := by
  obtain ⟨disk, store⟩ := sys
  have hdisk : DiskKeeps A disk := h.disk
  cases store with
  | none =>
    cases event with
    | construct =>
      obtain ⟨rfl, rfl⟩ := Prod.mk.inj (some.inj hstep)
      exact ⟨A, .returned, hdisk, by rintro _ ⟨⟩; exact storeKeeps_new A⟩
    | kill =>
      obtain ⟨rfl, rfl⟩ := Prod.mk.inj (some.inj hstep)
      exact ⟨A, .returned, hdisk, by rintro _ ⟨⟩⟩
    | _ => cases hstep
  | some s =>
    have hstore : StoreKeeps A s := h.store s rfl
    cases event with
    | construct =>
      simp only [Sys.step] at hstep
      split at hstep
      · obtain ⟨rfl, rfl⟩ := Prod.mk.inj (some.inj hstep)
        exact ⟨A, .returned, hdisk, by rintro _ ⟨⟩; exact storeKeeps_new A⟩
      · cases hstep
    | kill =>
      obtain ⟨rfl, rfl⟩ := Prod.mk.inj (some.inj hstep)
      exact ⟨A, .returned, hdisk, by rintro _ ⟨⟩⟩
    | «open» =>
      obtain ⟨rfl, rfl⟩ := Prod.mk.inj (some.inj hstep)
      have hopens : Opens o A disk s := opens hdisk hstore
      exact ⟨A, .returned, inv_after hopens.keeps fun _ => hopens.store⟩
    | set k v w save => exact set_keeps hdisk hstore (hmeets s rfl) (some.inj hstep)
    | delete k w => exact delete_keeps hdisk hstore (hmeets s rfl) (some.inj hstep)
    | snapshot save =>
      simp only [Sys.step] at hstep
      cases hsnapshot : s.snapshot disk save with
      | mk ended rest =>
        obtain ⟨hdisk', hstore', -⟩ := snapshot_keeps hdisk hstore (hmeets s rfl) hsnapshot
        rw [hsnapshot] at hstep
        obtain ⟨rfl, rfl⟩ := Prod.mk.inj (some.inj hstep)
        have hallowed : Allowed A none ended A := by
          cases ended with
          | returned => exact .returned
          | threw error => exact .threw error
          | crashed => exact .lost
        exact ⟨A, hallowed, inv_after hdisk' fun _ => hstore'⟩
    | tick save =>
      simp only [Sys.step] at hstep
      split_ifs at hstep with htimer hops
      · have htimer' : s.timer = true := by simpa using htimer
        exact caught_keeps hdisk hstore (fun hclosed => hmeets s rfl hclosed htimer' hops) rfl (some.inj hstep)
      · obtain ⟨rfl, rfl⟩ := Prod.mk.inj (some.inj hstep)
        exact ⟨A, .returned, inv_after hdisk fun _ => hstore⟩
    | close =>
      obtain ⟨rfl, hinv⟩ := close_keeps hdisk hstore (some.inj hstep)
      exact ⟨A, .returned, hinv⟩

variable {events : List Event}

theorem durable_of_inv (h : Inv A sys) (hmeets : MeetsAll o sys events) : Durable o A sys events := by
  induction events generalizing A sys with
  | nil => exact h.recovers
  | cons event events ih =>
    refine ⟨h.recovers, fun sys' outcome hstep => ?_⟩
    obtain ⟨A', hallowed, hinv⟩ := step_keeps h hmeets.1 hstep
    exact ⟨A', hallowed, ih hinv (hmeets.2 (sys', outcome) hstep)⟩

theorem inv_init : Inv (fun _ => none) .init :=
  ⟨⟨fun _ => none, [], ⟨.none, .clean [], by simp, by simp⟩, rfl⟩, by rintro _ ⟨⟩⟩

section Runs

/-- The files and the instance after some calls. -/
def Sys.run (o : Options) : Sys → List Event → Option Sys
  | sys, [] => some sys
  | sys, event :: events => (sys.step o event).bind fun r => r.1.run o events

theorem Durable.last {before after : Sys} (h : Durable o A sys (events ++ [event]))
    (hrun : sys.run o events = some before)
    (hstep : before.step o event = some (after, outcome)) :
    Allowed (contents before.disk.recovered) event.op outcome (contents after.disk.recovered) := by
  induction events generalizing A sys with
  | nil =>
    cases hrun
    obtain ⟨hrecovers, hnext⟩ := h
    obtain ⟨A', hallowed, hrecovers'⟩ := hnext after outcome hstep
    rw [hrecovers.1, hrecovers'.1]
    exact hallowed
  | cons e events ih =>
    obtain ⟨⟨sys', outcome'⟩, hfirst, hrest⟩ := bind_eq_some_iff.mp hrun
    obtain ⟨A', -, hdurable⟩ := h.2 sys' outcome' hfirst
    exact ih hdurable hrest

/-- The key has what the call may leave, as far as there is something or not. -/
def leaves (before after : Sys) (op : Option Entry) (outcome : Outcome) (k : JsString) : Bool :=
  let has (sys : Sys) : Bool := (contents sys.disk.recovered k).isSome
  let made : Bool := (effectOf op (contents before.disk.recovered) k).isSome
  match outcome with
  | .returned => has after == made
  | .threw _ => has after == has before
  | .crashed => has after == made || has after == has before

theorem leaves_of_allowed {before after : Sys} {op : Option Entry}
    (h : Allowed (contents before.disk.recovered) op outcome (contents after.disk.recovered))
    (k : JsString) : leaves before after op outcome k = true := by
  generalize hbefore : contents before.disk.recovered = B at h
  generalize hafter : contents after.disk.recovered = C at h
  cases h <;> simp [leaves, hbefore, hafter]

/-- Whether the last call of a run leaves what it may leave at a key. -/
def lastLeaves (o : Options) (events : List Event) (event : Event) (k : JsString) : Bool :=
  match Sys.init.run o events with
  | some before =>
    match before.step o event with
    | some (after, outcome) => leaves before after event.op outcome k
    | none => true
  | none => true

theorem not_durable (k : JsString)
    (h : lastLeaves o events event k = false) (A : Contents) : ¬ Durable o A .init (events ++ [event]) := by
  intro hdurable
  rw [lastLeaves] at h
  split at h
  · rename_i before hrun
    split at h
    · rename_i after outcome hstep
      rw [leaves_of_allowed (hdurable.last hrun hstep) k] at h
      cases h
    · cases h
  · cases h

def sampleOptions : Options := ⟨0, 0, true⟩

def sampleValue : JsonValue := ⟨.bool true, trivial⟩

/-- A snapshot that is taken over its log, and a line that a crash cuts off. -/
def sampleRun : List Event :=
  [.construct, .open, .set (ofText "a") sampleValue .done .done, .delete (ofText "a") .done,
    .set (ofText "b") sampleValue .done .done, .snapshot .crashesRenamed, .construct,
    .set (ofText "c") sampleValue (.crashes 9) .done]

end Runs

end HiveRelay.Persistence
