import HiveRelay.Ipc.ReplayAuthority

/-!
# What a crash leaves of the replay journal

A frame only adds a tuple to the live ones or takes one away, so what a run of frames leaves is
decided by sets of tuples: `Replays K specs K'`. Every file that a crash can leave is a prefix of the
encoding of some run of frames, and the frames of a prefix replay when those of the whole run do. So
a file is safe when no tuple that still has to be refused is let expire by the frames past what is
synced.

A call is taken apart into the operations it makes: `Moved` says what some of them do to the disk and
to the memory, and that the disk is safe after each of them; it composes.
-/

namespace HiveRelay.Ipc

open List OrderedMap Option

/-! ### The live tuples of a run of frames -/

/-- A run of frames takes one set of live tuples to another. -/
inductive Replays : Finset Bytes → List Spec → Finset Bytes → Prop
  | nil {K : Finset Bytes} : Replays K [] K
  | consume {K K' : Finset Bytes} {tuple : Bytes} {ttl : ℕ} {specs : List Spec} (hnew : tuple ∉ K)
      (hcard : K.card < capacity) (h : Replays (insert tuple K) specs K') :
      Replays K (⟨.consume, tuple, ttl⟩ :: specs) K'
  | expire {K K' : Finset Bytes} {tuple : Bytes} {ttl : ℕ} {specs : List Spec} (hlive : tuple ∈ K)
      (h : Replays (K.erase tuple) specs K') : Replays K (⟨.expire, tuple, ttl⟩ :: specs) K'

variable {tuple : Bytes} {keys : List Bytes}

section Replays

variable {K K₁ K' : Finset Bytes} {specs more : List Spec} {live : OrderedMap Bytes RecoveredEntry}

theorem Replays.append (h : Replays K specs K₁) (h' : Replays K₁ more K') : Replays K (specs ++ more) K' := by
  induction h with
  | nil => exact h'
  | consume hnew hcard _ ih => exact .consume hnew hcard (ih h')
  | expire hlive _ ih => exact .expire hlive (ih h')

theorem Replays.take (h : Replays K specs K') (n : ℕ) : ∃ K₁, Replays K (specs.take n) K₁ := by
  induction h generalizing n with
  | nil => exact ⟨_, by rw [take_nil]; exact .nil⟩
  | consume hnew hcard _ ih =>
    cases n with
    | zero => exact ⟨_, .nil⟩
    | succ n =>
      obtain ⟨K₁, h₁⟩ := ih n
      exact ⟨K₁, .consume hnew hcard h₁⟩
  | expire hlive _ ih =>
    cases n with
    | zero => exact ⟨_, .nil⟩
    | succ n =>
      obtain ⟨K₁, h₁⟩ := ih n
      exact ⟨K₁, .expire hlive h₁⟩

theorem Replays.card_le (h : Replays K specs K') (hK : K.card ≤ capacity) : K'.card ≤ capacity := by
  induction h with
  | nil => exact hK
  | consume hnew hcard _ ih =>
    refine ih ?_
    rw [Finset.card_insert_of_notMem hnew]
    exact hcard
  | expire _ _ ih => exact ih ((Finset.card_erase_le).trans hK)

theorem Replays.mem (h : Replays K specs K') (hmem : tuple ∈ K)
    (hkeep : ∀ spec ∈ specs, spec.type = .expire → spec.replayTupleHash ≠ tuple) : tuple ∈ K' := by
  induction h with
  | nil => exact hmem
  | consume _ _ _ ih =>
    exact ih (Finset.mem_insert_of_mem hmem) fun s hs => hkeep s (mem_cons_of_mem _ hs)
  | expire _ _ ih =>
    refine ih (Finset.mem_erase.mpr ⟨?_, hmem⟩) fun s hs => hkeep s (mem_cons_of_mem _ hs)
    exact Ne.symm (hkeep _ mem_cons_self rfl)

theorem Replays.of_mem (h : Replays K specs K') (hmem : tuple ∈ K') :
    tuple ∈ K ∨ ∃ spec ∈ specs, spec.replayTupleHash = tuple := by
  induction h with
  | nil => exact .inl hmem
  | consume _ _ _ ih =>
    rcases ih hmem with h | ⟨s, hs, rfl⟩
    · rcases Finset.mem_insert.mp h with rfl | h
      · exact .inr ⟨_, mem_cons_self, rfl⟩
      · exact .inl h
    · exact .inr ⟨s, mem_cons_of_mem _ hs, rfl⟩
  | expire _ _ ih =>
    rcases ih hmem with h | ⟨s, hs, rfl⟩
    · exact .inl (Finset.mem_of_mem_erase h)
    · exact .inr ⟨s, mem_cons_of_mem _ hs, rfl⟩

theorem replays_expire (hnodup : keys.Nodup) (hlive : ∀ k ∈ keys, k ∈ K) :
    Replays K (keys.map expireSpec) (K \ keys.toFinset) := by
  induction keys generalizing K with
  | nil => simpa using Replays.nil
  | cons key keys ih =>
    obtain ⟨hnot, hnodup⟩ := nodup_cons.mp hnodup
    have hrest : ∀ k ∈ keys, k ∈ K.erase key := fun k hk =>
      Finset.mem_erase.mpr ⟨fun h => hnot (h ▸ hk), hlive k (mem_cons_of_mem _ hk)⟩
    have hsets : K \ (key :: keys).toFinset = K.erase key \ keys.toFinset := by
      rw [toFinset_cons, Finset.sdiff_insert, Finset.erase_sdiff_comm]
    rw [hsets]
    exact .expire (hlive key mem_cons_self) (ih hnodup hrest)

theorem replays_consume {snapshot : List LiveEntry} (hnodup : (snapshot.map LiveEntry.key).Nodup)
    (hnew : ∀ e ∈ snapshot, e.key ∉ K) (hcard : K.card + snapshot.length ≤ capacity) :
    Replays K (snapshot.map LiveEntry.spec) (K ∪ (snapshot.map LiveEntry.key).toFinset) := by
  induction snapshot generalizing K with
  | nil => simpa using Replays.nil
  | cons e rest ih =>
    rw [map_cons, nodup_cons] at hnodup
    rw [length_cons] at hcard
    have hfresh := hnew e mem_cons_self
    have hrest : ∀ e' ∈ rest, e'.key ∉ insert e.key K := by
      intro e' he' hmem
      rcases Finset.mem_insert.mp hmem with heq | hmem
      · exact hnodup.1 (mem_map.mpr ⟨e', he', heq⟩)
      · exact hnew e' (mem_cons_of_mem _ he') hmem
    have hrun := ih hnodup.2 hrest (by rw [Finset.card_insert_of_notMem hfresh]; omega)
    rw [map_cons, map_cons, toFinset_cons, Finset.union_insert, ← Finset.insert_union]
    exact .consume hfresh (by omega) hrun

theorem replaySpecs_of_replays (generation sequence : ℕ) (h : Replays K specs K') (hlive : live.keySet = K) :
    ∃ live', replaySpecs generation live sequence specs = .ok live' ∧ live'.keySet = K' := by
  induction h generalizing live sequence with
  | nil => exact ⟨live, rfl, hlive⟩
  | @consume K K' tuple ttl specs hnew hcard _ ih =>
    subst hlive
    have hhas : live.has tuple = false := by
      rw [← Bool.not_eq_true, ← mem_keySet]
      exact hnew
    have hsize : live.size < capacity := card_keySet (m := live) ▸ hcard
    have hset : (live.set tuple ⟨generation, sequence + 1⟩).keySet = insert tuple live.keySet :=
      keySet_set
    obtain ⟨live', hrun, hkeys⟩ := ih (sequence + 1) hset
    refine ⟨live', ?_, hkeys⟩
    rw [replaySpecs, replayOne, require_of ⟨hhas, hsize⟩]
    exact hrun
  | @expire K K' tuple ttl specs hmem _ ih =>
    subst hlive
    have hhas : live.has tuple = true := mem_keySet.mp hmem
    have hdelete : (live.delete tuple).keySet = live.keySet.erase tuple := keySet_delete
    obtain ⟨live', hrun, hkeys⟩ := ih (sequence + 1) hdelete
    refine ⟨live', ?_, hkeys⟩
    rw [replaySpecs, replayOne, require_of hhas]
    exact hrun

end Replays

/-! ### What may be on disk -/

section Files

variable (C : Crypto) (L : Launch)

/-- A file that is read back to live tuples among which are those that are `owed`. -/
structure SafeContent (owed : Set Bytes) (content : Bytes) (generation : ℕ) (specs : List Spec)
    (n : ℕ) (K : Finset Bytes) : Prop where
  generation_pos : generation ≠ 0
  generation_lt : generation < 2 ^ 64
  valid : ∀ spec ∈ specs, spec.Valid
  count_le : specs.length ≤ maximumRecords
  header_le : headerBytes ≤ n
  le_length : n ≤ headerBytes + specs.length * frameBytes
  content_eq : content = (journalBytes C L generation specs).take n
  replays : Replays ∅ (specs.take (wholeFrames n)) K
  owed_mem : ∀ tuple ∈ owed, tuple ∈ K

/-- What a crash may leave of a file. -/
def Safe (owed : Set Bytes) (content : Bytes) : Prop :=
  ∃ generation specs n K, SafeContent C L owed content generation specs n K

/-- Whatever a crash leaves of a file is safe. There may be no file when it is `blank`. -/
def SafeFile (owed : Set Bytes) (blank : Prop) : Option File → Prop
  | none => blank
  | some f => ∀ n, f.synced ≤ n → n ≤ f.content.length → Safe C L owed (f.content.take n)

/-- Whatever a crash leaves of the disk is safe. -/
def SafeDisk (owed : Set Bytes) (blank : Prop) (disk : Disk) : Prop :=
  ∀ file ∈ disk.candidates, SafeFile C L owed blank file

variable {C L} {owed owed' : Set Bytes} {blank : Prop} {content : Bytes} {generation n : ℕ}
  {specs more : List Spec} {K K' : Finset Bytes} {disk : Disk}

theorem Safe.mono (h : Safe C L owed content) (hsub : owed' ⊆ owed) : Safe C L owed' content := by
  obtain ⟨g, s, n, K, hs⟩ := h
  exact ⟨g, s, n, K, { hs with owed_mem := fun t ht => hs.owed_mem t (hsub ht) }⟩

theorem SafeDisk.of_false (h : SafeDisk C L owed False disk) : SafeDisk C L owed blank disk := by
  intro file hfile
  have hsafe := h file hfile
  cases file with
  | none => exact hsafe.elim
  | some f => exact hsafe

theorem Disk.applyAll_append (ops ops' : List DiskOp) :
    disk.applyAll (ops ++ ops') = (disk.applyAll ops).applyAll ops' := foldl_append

theorem SafeDisk.mono (h : SafeDisk C L owed blank disk) (hsub : owed' ⊆ owed) : SafeDisk C L owed' blank disk := by
  intro file hfile
  have hsafe := h file hfile
  cases file with
  | none => exact hsafe
  | some f => exact fun n hn hle => (hsafe n hn hle).mono hsub

theorem SafeDisk.survives (h : SafeDisk C L owed blank disk) {after : Option Bytes} (hafter : disk.Survives after) :
    (after = none → blank) ∧ ∀ content, after = some content → Safe C L owed content := by
  obtain ⟨file, hfile, hmatch⟩ := hafter
  have hsafe := h file hfile
  cases file with
  | none =>
    cases after with
    | none => exact ⟨fun _ => hsafe, nofun⟩
    | some content => exact hmatch.elim
  | some f =>
    cases after with
    | none => exact hmatch.elim
    | some content =>
      obtain ⟨n, hn, hle, rfl⟩ := hmatch
      exact ⟨nofun, fun content hcontent => by
        cases hcontent
        exact hsafe n hn hle⟩

/-- **A safe file is read back**, with every tuple that is owed. -/
theorem SafeContent.recoverJournal_eq (h : SafeContent C L owed content generation specs n K) :
    ∃ live, recoverJournal C L content =
      .ok { header := encodeHeader C L generation
            generation := generation
            sequence := wholeFrames n
            previousFrameHash := chainEnd C L (encodeHeader C L generation) generation 0
              (chainAnchor C (encodeHeader C L generation)) (specs.take (wholeFrames n))
            offset := headerBytes + wholeFrames n * frameBytes
            recordCount := wholeFrames n
            recovered := live } ∧ live.keySet = K := by
  obtain ⟨live, hrun, hkeys⟩ := replaySpecs_of_replays generation 0 h.replays keySet_empty
  refine ⟨live, ?_, hkeys⟩
  rw [h.content_eq]
  exact recoverJournal_cut ⟨h.generation_pos, h.generation_lt⟩ h.valid h.count_le h.header_le h.le_length hrun

theorem wholeFrames_exact (count : ℕ) : wholeFrames (headerBytes + count * frameBytes) = count := by
  rw [wholeFrames, Nat.add_sub_cancel_left, Nat.mul_div_cancel _ (by decide)]

theorem wholeFrames_mono {m : ℕ} (h : m ≤ n) : wholeFrames m ≤ wholeFrames n :=
  Nat.div_le_div_right (Nat.sub_le_sub_right h _)

theorem wholeFrames_le {count : ℕ} (h : n ≤ headerBytes + count * frameBytes) :
    wholeFrames n ≤ count := wholeFrames_exact count ▸ wholeFrames_mono h

/-- **Frames that are appended to a journal that is on disk** leave a safe file, whichever part of
them is on disk, when they let no tuple expire that is owed. -/
theorem safeFile_append (blank : Prop) (hgeneration : generation ≠ 0 ∧ generation < 2 ^ 64)
    (hvalid : ∀ spec ∈ specs ++ more, spec.Valid) (hcount : (specs ++ more).length ≤ maximumRecords)
    (hspecs : Replays ∅ specs K) (hmore : Replays K more K') (howed : ∀ t ∈ owed, t ∈ K)
    (hkeep : ∀ spec ∈ more, spec.type = .expire → spec.replayTupleHash ∉ owed) :
    SafeFile C L owed blank (some ⟨journalBytes C L generation (specs ++ more),
      headerBytes + specs.length * frameBytes⟩) := by
  intro n hn hle
  rw [length_journalBytes hvalid] at hle
  have hwhole : specs.length ≤ wholeFrames n := wholeFrames_exact specs.length ▸ wholeFrames_mono hn
  obtain ⟨K₁, hK₁⟩ := hmore.take (wholeFrames n - specs.length)
  refine ⟨generation, specs ++ more, n, K₁, hgeneration.1, hgeneration.2, hvalid, hcount, ?_, hle, rfl, ?_, ?_⟩
  · exact (Nat.le_add_right _ _).trans hn
  · rw [take_append, take_of_length_le hwhole]
    exact hspecs.append hK₁
  · intro t ht
    refine hK₁.mem (howed t ht) fun spec hspec htype heq => ?_
    exact hkeep spec (mem_of_mem_take hspec) htype (heq ▸ ht)

theorem safeFile_whole (blank : Prop) (hgeneration : generation ≠ 0 ∧ generation < 2 ^ 64)
    (hvalid : ∀ spec ∈ specs, spec.Valid) (hcount : specs.length ≤ maximumRecords)
    (hspecs : Replays ∅ specs K) (howed : ∀ t ∈ owed, t ∈ K) :
    SafeFile C L owed blank (some ⟨journalBytes C L generation specs,
      (journalBytes C L generation specs).length⟩) := by
  have h : SafeFile C L owed blank (some ⟨journalBytes C L generation (specs ++ []),
      headerBytes + specs.length * frameBytes⟩) :=
    safeFile_append blank hgeneration (by simpa using hvalid) (by simpa using hcount) hspecs .nil howed (by simp)
  rwa [append_nil, ← @length_journalBytes C L generation specs hvalid] at h

end Files

/-! ### The disk and the memory of an open journal -/

section Journaled

variable (C : Crypto) (L : Launch)

/-- The file of a journal that is on disk. -/
def wholeFile (generation : ℕ) (specs : List Spec) : File :=
  ⟨journalBytes C L generation specs, (journalBytes C L generation specs).length⟩

/-- The disk holds the frames that the memory counts, and they leave the tuples that it has. -/
structure Journaled (disk : Disk) (mem : Mem) (specs : List Spec) : Prop where
  disk_eq : disk = ⟨some (wholeFile C L mem.generation specs), none⟩
  generation_pos : mem.generation ≠ 0
  generation_lt : mem.generation < 2 ^ 64
  valid : ∀ spec ∈ specs, spec.Valid
  count_le : specs.length ≤ maximumRecords
  header_eq : mem.header = encodeHeader C L mem.generation
  sequence_eq : mem.sequence = specs.length
  recordCount_eq : mem.recordCount = specs.length
  previous_eq : mem.previousFrameHash = chainEnd C L mem.header mem.generation 0 (chainAnchor C mem.header) specs
  replays : Replays ∅ specs mem.entries.keySet
  limit_le : mem.compactionRecordLimit ≤ maximumRecords
  horizon : ∀ k e, mem.entries.get? k = some e → e.expiresMonotonicMillis ≤ mem.lastNow + maximumTtlMillis

variable {C L} {disk : Disk} {mem mem' : Mem} {specs : List Spec} {now : ℕ} {ops ops' : List DiskOp}

/-- The tuples that have not expired. -/
def unexpired (mem : Mem) (now : ℕ) : Set Bytes :=
  {tuple | ∃ e, mem.entries.get? tuple = some e ∧ now < e.expiresMonotonicMillis}

theorem unexpired_subset_keySet (h : tuple ∈ unexpired mem now) : tuple ∈ mem.entries.keySet := by
  obtain ⟨e, he, -⟩ := h
  exact mem_keySet.mpr (has_eq_true_iff.mpr ⟨e, he⟩)

theorem Journaled.size_le (h : Journaled C L disk mem specs) : mem.entries.size ≤ capacity :=
  card_keySet (m := mem.entries) ▸ h.replays.card_le (Nat.zero_le _)

theorem Journaled.length_tuple (h : Journaled C L disk mem specs)
    (hmem : tuple ∈ mem.entries.keySet) : tuple.length = 32 := by
  rcases h.replays.of_mem hmem with hnot | ⟨spec, hspec, rfl⟩
  · exact absurd hnot (Finset.notMem_empty _)
  · exact (h.valid spec hspec).2

theorem Journaled.safe (h : Journaled C L disk mem specs) : SafeDisk C L (unexpired mem now) False disk := by
  rw [h.disk_eq]
  intro file hfile
  obtain rfl := mem_singleton.mp hfile
  exact safeFile_whole _ ⟨h.generation_pos, h.generation_lt⟩ h.valid h.count_le h.replays
    fun t ht => unexpired_subset_keySet ht

theorem Journaled.later (h : Journaled C L disk mem specs) (hnow : mem.lastNow ≤ now) :
    Journaled C L disk { mem with lastNow := now } specs :=
  { h with horizon := fun k e he => (h.horizon k e he).trans (Nat.add_le_add_right hnow _) }

theorem Journaled.poisoned (h : Journaled C L disk mem specs) :
    Journaled C L disk { mem with opened := false } specs := { h with }

variable (C L) in
/-- What some operations of a call do: the disk and the memory agree after them, a crash after any
of them leaves a safe disk, and every tuple that has not expired at `now` is kept. -/
structure Moved (now : ℕ) (disk : Disk) (mem : Mem) (ops : List DiskOp) (mem' : Mem) : Prop where
  journaled : ∃ specs, Journaled C L (disk.applyAll ops) mem' specs
  safe : ∀ done, SafeDisk C L (unexpired mem now) False (disk.applyAll (ops.take done))
  kept : ∀ k e, mem.entries.get? k = some e → now < e.expiresMonotonicMillis →
    ∃ e', mem'.entries.get? k = some e' ∧ e'.expiresMonotonicMillis = e.expiresMonotonicMillis
  constant : mem'.quarantineUntil = mem.quarantineUntil
  lastNow_le : mem.lastNow ≤ mem'.lastNow

theorem moved_nil (h : Journaled C L disk mem specs) (h' : Journaled C L disk mem' specs)
    (hentries : mem'.entries = mem.entries) (hconstant : mem'.quarantineUntil = mem.quarantineUntil)
    (hlastNow : mem.lastNow ≤ mem'.lastNow) : Moved C L now disk mem [] mem' where
  journaled := ⟨specs, h'⟩
  safe done := by
    rw [take_nil]
    exact h.safe
  kept k e he _ := ⟨e, hentries ▸ he, rfl⟩
  constant := hconstant
  lastNow_le := hlastNow

theorem Moved.trans (h : Moved C L now disk mem ops mem') {mem'' : Mem}
    (h' : Moved C L now (disk.applyAll ops) mem' ops' mem'') :
    Moved C L now disk mem (ops ++ ops') mem'' := by
  refine ⟨?_, ?_, ?_, h'.constant.trans h.constant, h.lastNow_le.trans h'.lastNow_le⟩
  · rw [Disk.applyAll_append]
    exact h'.journaled
  · intro done
    rw [take_append]
    by_cases hdone : done ≤ ops.length
    · rw [Nat.sub_eq_zero_of_le hdone, take_zero, append_nil]
      exact h.safe done
    · rw [take_of_length_le (by omega), Disk.applyAll_append]
      refine (h'.safe _).mono ?_
      rintro t ⟨e, he, hlt⟩
      obtain ⟨e', he', hexp⟩ := h.kept t e he hlt
      exact ⟨e', he', hexp ▸ hlt⟩
  · intro k e he hlt
    obtain ⟨e', he', hexp⟩ := h.kept k e he hlt
    obtain ⟨e'', he'', hexp'⟩ := h'.kept k e' he' (hexp ▸ hlt)
    exact ⟨e'', he'', hexp'.trans hexp⟩

end Journaled

/-! ### The tuples that have expired, and those that have not -/

variable {k : Bytes} {generation : ℕ}

section Snapshot

variable {entries : OrderedMap Bytes Entry} {now : ℕ} {snapshot : List LiveEntry}

theorem mem_expiredKeys {k : Bytes} : k ∈ expiredKeys entries now ↔
      ∃ e, entries.get? k = some e ∧ e.expiresMonotonicMillis ≤ now := by
  simp only [expiredKeys, List.mem_map, mem_filter, decide_eq_true_eq, Prod.exists,
    exists_and_right, exists_eq_right, mem_entries_iff]

theorem nodup_expiredKeys : (expiredKeys entries now).Nodup :=
  entries.nodup_keys.sublist (filter_sublist.map _)

theorem perm_sortKeys (keys : List Bytes) : (sortKeys keys).Perm keys :=
  perm_insertionSort _ _

theorem get?_foldl_delete :
    (keys.foldl delete entries).get? k = if k ∈ keys then none else entries.get? k := by
  induction keys generalizing entries with
  | nil => simp
  | cons key keys ih =>
    rw [foldl_cons, ih, get?_delete]
    by_cases hkey : k = key <;> by_cases hmem : k ∈ keys <;> simp [hkey, hmem]

theorem keySet_foldl_delete : (keys.foldl delete entries).keySet = entries.keySet \ keys.toFinset := by
  ext k
  rw [Finset.mem_sdiff, List.mem_toFinset, mem_keySet, mem_keySet,
    has_eq_true_iff, has_eq_true_iff, get?_foldl_delete]
  by_cases hmem : k ∈ keys <;> simp [hmem]

/-- The snapshot holds each entry that has not expired, once. -/
structure Snapshot (entries : OrderedMap Bytes Entry) (now : ℕ) (snapshot : List LiveEntry) :
    Prop where
  nodup : (snapshot.map LiveEntry.key).Nodup
  mem_iff : ∀ e, e ∈ snapshot ↔ ∃ entry, entries.get? e.key = some entry ∧
    now < entry.expiresMonotonicMillis ∧ e.expiresMonotonicMillis = entry.expiresMonotonicMillis ∧
    e.ttlMillis = entry.expiresMonotonicMillis - now
  length_add : snapshot.length + (expiredKeys entries now).length = entries.size

theorem notMem_expiredKeys {e : Bytes × Entry} (he : e ∈ entries.entries) :
    e.1 ∉ expiredKeys entries now ↔ now < e.2.expiresMonotonicMillis := by
  have hget := mem_entries_iff.mp he
  rw [mem_expiredKeys, hget]
  simp

/-- **`liveSnapshot` does not fail**, and holds what has not expired. -/
theorem liveSnapshot_eq (hhorizon : ∀ k e, entries.get? k = some e →
    e.expiresMonotonicMillis ≤ now + maximumTtlMillis) :
    ∃ snapshot, liveSnapshot entries now (expiredKeys entries now) = .ok snapshot ∧
      Snapshot entries now snapshot := by
  set live := entries.entries.filter fun e => decide (e.1 ∉ expiredKeys entries now) with hlive
  set image : Bytes × Entry → LiveEntry := fun e =>
    ⟨e.1, e.2.expiresMonotonicMillis, e.2.expiresMonotonicMillis - now⟩ with himage
  have hmem : ∀ e, e ∈ live ↔ e ∈ entries.entries ∧ now < e.2.expiresMonotonicMillis := by
    intro e
    rw [hlive, mem_filter, decide_eq_true_eq]
    exact and_congr_right notMem_expiredKeys
  have hbounds : ∀ e ∈ live, now < e.2.expiresMonotonicMillis ∧
      e.2.expiresMonotonicMillis ≤ now + maximumTtlMillis := fun e he =>
    ⟨((hmem e).mp he).2, hhorizon e.1 e.2 (mem_entries_iff.mp ((hmem e).mp he).1)⟩
  refine ⟨(live.map image).insertionSort fun a b => Bytes.toNat a.key ≤ Bytes.toNat b.key, ?_, ?_⟩
  · rw [liveSnapshot, require_of hbounds]
    rfl
  have hperm := perm_insertionSort
    (fun a b : LiveEntry => Bytes.toNat a.key ≤ Bytes.toNat b.key) (live.map image)
  refine ⟨?_, ?_, ?_⟩
  · rw [(hperm.map LiveEntry.key).nodup_iff, List.map_map]
    exact entries.nodup_keys.sublist (filter_sublist.map _)
  · rintro ⟨k, expires, ttl⟩
    rw [hperm.mem_iff, List.mem_map]
    constructor
    · rintro ⟨e, he, heq⟩
      obtain ⟨hentry, hlt⟩ := (hmem e).mp he
      obtain ⟨rfl, rfl, rfl⟩ := heq
      exact ⟨e.2, mem_entries_iff.mp hentry, hlt, rfl, rfl⟩
    · rintro ⟨entry, hget, hlt, rfl, rfl⟩
      exact ⟨(k, entry), (hmem _).mpr ⟨mem_entries_iff.mpr hget, hlt⟩, rfl⟩
  · have hsplit := length_eq_length_filter_add
      (fun e : Bytes × Entry => decide (e.2.expiresMonotonicMillis ≤ now)) (l := entries.entries)
    have hrest : live = entries.entries.filter fun e => !decide (e.2.expiresMonotonicMillis ≤ now) := by
      refine filter_congr fun e he => ?_
      simp only [notMem_expiredKeys he, ← decide_not, Nat.not_le]
    rw [hperm.length_eq, length_map, hrest, expiredKeys, length_map, size]
    omega

theorem keySet_numbered {sequence : ℕ} : (numbered generation sequence entries snapshot).keySet =
      entries.keySet ∪ (snapshot.map LiveEntry.key).toFinset := by
  induction snapshot generalizing entries sequence with
  | nil => simp [numbered]
  | cons e rest ih =>
    rw [numbered, ih, keySet_set, map_cons, toFinset_cons, Finset.union_insert,
      Finset.insert_union]

theorem get?_numbered_of_notMem {sequence : ℕ} (h : k ∉ snapshot.map LiveEntry.key) :
    (numbered generation sequence entries snapshot).get? k = entries.get? k := by
  induction snapshot generalizing entries sequence with
  | nil => rfl
  | cons e rest ih =>
    rw [map_cons, mem_cons, not_or] at h
    rw [numbered, ih h.2, get?_set_of_ne h.1]

theorem get?_numbered (generation sequence : ℕ) (entries : OrderedMap Bytes Entry) {e : LiveEntry}
    (hnodup : (snapshot.map LiveEntry.key).Nodup) (h : e ∈ snapshot) :
    ∃ entry, (numbered generation sequence entries snapshot).get? e.key = some entry ∧
      entry.expiresMonotonicMillis = e.expiresMonotonicMillis := by
  induction snapshot generalizing entries sequence with
  | nil => exact absurd h not_mem_nil
  | cons e₀ rest ih =>
    rw [map_cons, nodup_cons] at hnodup
    rcases mem_cons.mp h with rfl | h
    · refine ⟨⟨e.expiresMonotonicMillis, generation, sequence + 1⟩, ?_, rfl⟩
      rw [numbered, get?_numbered_of_notMem hnodup.1, get?_set_self]
    · exact ih _ _ hnodup.2 h

end Snapshot

/-! ### The operations of a reservation -/

section Reservations

variable {C : Crypto} {L : Launch} {disk : Disk} {mem : Mem} {specs : List Spec} {now : ℕ}

variable {snapshot : List LiveEntry}

theorem compacted_keySet : (compacted C L mem snapshot).entries.keySet = (snapshot.map LiveEntry.key).toFinset := by
  simp only [compacted]
  rw [keySet_numbered, keySet_empty, Finset.empty_union]

theorem compacted_get? (hsnap : Snapshot mem.entries now snapshot) {e : Entry}
    (h : (compacted C L mem snapshot).entries.get? k = some e) :
    ∃ e₀, mem.entries.get? k = some e₀ ∧ now < e₀.expiresMonotonicMillis ∧
      e.expiresMonotonicMillis = e₀.expiresMonotonicMillis := by
  have hkey : k ∈ (compacted C L mem snapshot).entries.keySet :=
    mem_keySet.mpr (has_eq_true_iff.mpr ⟨e, h⟩)
  rw [compacted_keySet, List.mem_toFinset] at hkey
  obtain ⟨le, hle, rfl⟩ := mem_map.mp hkey
  obtain ⟨entry, hentry, hexp⟩ := get?_numbered (mem.generation + 1) 0 .empty hsnap.nodup hle
  obtain rfl : entry = e := mem_unique hentry h
  obtain ⟨e₀, hget, hlt, hexp', -⟩ := (hsnap.mem_iff le).mp hle
  exact ⟨e₀, hget, hlt, hexp.trans hexp'⟩

theorem moved_compact (h : Journaled C L disk mem specs) (hnow : mem.lastNow = now)
    (hgeneration : mem.generation ≠ 2 ^ 64 - 1)
    (hsnap : Snapshot mem.entries now snapshot) :
    Moved C L now disk mem (compactionOps C L mem snapshot) (compacted C L mem snapshot) := by
  have hlt := h.generation_lt
  have hgeneration' : mem.generation + 1 ≠ 0 ∧ mem.generation + 1 < 2 ^ 64 := by omega
  have hlength : snapshot.length ≤ capacity :=
    (Nat.le_add_right _ _).trans (hsnap.length_add.trans_le h.size_le)
  have hvalid : ∀ spec ∈ snapshot.map LiveEntry.spec, spec.Valid := by
    intro spec hspec
    obtain ⟨e, he, rfl⟩ := mem_map.mp hspec
    obtain ⟨entry, hget, hlt, -, httl⟩ := (hsnap.mem_iff e).mp he
    have hbound := h.horizon _ _ hget
    refine ⟨?_, h.length_tuple (mem_keySet.mpr (has_eq_true_iff.mpr ⟨_, hget⟩))⟩
    show 1 ≤ e.ttlMillis ∧ e.ttlMillis ≤ maximumTtlMillis
    omega
  have hcount : (snapshot.map LiveEntry.spec).length ≤ maximumRecords := by
    rw [length_map]
    exact hlength.trans (by decide)
  have hreplays : Replays ∅ (snapshot.map LiveEntry.spec) (snapshot.map LiveEntry.key).toFinset := by
    have := replays_consume (K := ∅) hsnap.nodup (fun _ _ => Finset.notMem_empty _) (by rw [Finset.card_empty]; omega)
    rwa [Finset.empty_union] at this
  have howed : ∀ t ∈ unexpired mem now, t ∈ (snapshot.map LiveEntry.key).toFinset := by
    rintro t ⟨e, he, hexp⟩
    rw [List.mem_toFinset]
    exact mem_map.mpr ⟨⟨t, e.expiresMonotonicMillis, e.expiresMonotonicMillis - now⟩,
      (hsnap.mem_iff _).mpr ⟨e, he, hexp, rfl, rfl⟩, rfl⟩
  have hfile := safeFile_whole (C := C) (L := L) False hgeneration' hvalid hcount hreplays howed
  -- before the directory is synced a crash may bring back the old journal, which is safe too
  have hsafe : ∀ done, SafeDisk C L (unexpired mem now) False
      (disk.applyAll ((compactionOps C L mem snapshot).take done)) := by
    rintro (_ | _ | _ | done)
    · exact h.safe
    · intro file hfile'
      rcases mem_cons.mp hfile' with rfl | hold
      · exact hfile
      · obtain rfl := mem_singleton.mp hold
        exact h.safe _ mem_cons_self
    all_goals
      intro file hfile'
      obtain rfl := mem_singleton.mp hfile'
      exact hfile
  refine ⟨⟨snapshot.map LiveEntry.spec, ?_⟩, hsafe, ?_, rfl, le_rfl⟩
  · exact
      { disk_eq := rfl
        generation_pos := hgeneration'.1
        generation_lt := hgeneration'.2
        valid := hvalid
        count_le := hcount
        header_eq := rfl
        sequence_eq := (length_map _).symm
        recordCount_eq := (length_map _).symm
        previous_eq := rfl
        replays := by rw [compacted_keySet]; exact hreplays
        limit_le := h.limit_le
        horizon := by
          intro k e he
          obtain ⟨e₀, hget, -, hexp⟩ := compacted_get? hsnap he
          exact hexp ▸ h.horizon k e₀ hget }
  · intro k e he hexp
    exact get?_numbered (e := ⟨k, e.expiresMonotonicMillis, e.expiresMonotonicMillis - now⟩) _ _ _
      hsnap.nodup ((hsnap.mem_iff _).mpr ⟨e, he, hexp, rfl, rfl⟩)

theorem Journaled.append_eq (h : Journaled C L disk mem specs) (more : List Spec) :
    journalBytes C L mem.generation specs ++
        (encodeChain C L mem.header mem.generation mem.sequence mem.previousFrameHash more).flatten =
      journalBytes C L mem.generation (specs ++ more) := by
  rw [h.previous_eq, h.sequence_eq, h.header_eq, journalBytes, journalBytes, encodeChain_append,
    Nat.zero_add, flatten_append, append_assoc]

/-- What the caller of `appendFrameSpecs` has checked. -/
structure Appendable (mem : Mem) (now : ℕ) (expired : List Bytes) (r : Reservation) : Prop where
  nodup : expired.Nodup
  expired_mem : ∀ k ∈ expired, ∃ e, mem.entries.get? k = some e ∧ e.expiresMonotonicMillis ≤ now
  expired_of : r.tuple ∈ mem.entries.keySet → r.tuple ∈ expired
  room : mem.entries.size - expired.length < capacity
  count_le : mem.recordCount + (expired.length + 1) ≤ maximumRecords
  live : r.durableNow < r.expires
  horizon : r.expires ≤ r.durableNow + maximumTtlMillis

variable {expired : List Bytes} {r : Reservation}

theorem replays_reservedSpecs (ha : Appendable mem now expired r) :
    Replays mem.entries.keySet (reservedSpecs expired r)
      (insert r.tuple (mem.entries.keySet \ expired.toFinset)) := by
  have hsub : expired.toFinset ⊆ mem.entries.keySet := by
    intro k hk
    obtain ⟨e, he, -⟩ := ha.expired_mem k (List.mem_toFinset.mp hk)
    exact mem_keySet.mpr (has_eq_true_iff.mpr ⟨e, he⟩)
  have hexpire := replays_expire (K := mem.entries.keySet) ((perm_sortKeys expired).nodup_iff.mpr ha.nodup)
    fun k hk => hsub (List.mem_toFinset.mpr ((perm_sortKeys expired).mem_iff.mp hk))
  rw [toFinset_eq_of_perm _ _ (perm_sortKeys expired)] at hexpire
  refine hexpire.append (.consume ?_ ?_ .nil)
  · rw [Finset.mem_sdiff, List.mem_toFinset]
    exact fun h => h.2 (ha.expired_of h.1)
  · rw [Finset.card_sdiff_of_subset hsub, card_keySet, toFinset_card_of_nodup ha.nodup]
    exact ha.room

theorem length_reservedSpecs (expired : List Bytes) (r : Reservation) :
    (reservedSpecs expired r).length = expired.length + 1 := by
  rw [reservedSpecs, length_append, length_map, (perm_sortKeys expired).length_eq, length_singleton]

theorem appended_get? : (appended C L mem expired r).entries.get? k = if k = r.tuple then
        some ⟨r.expires, mem.generation, mem.sequence + (reservedSpecs expired r).length⟩
      else if k ∈ expired then none else mem.entries.get? k := by
  simp only [appended]
  rw [get?_set, get?_foldl_delete]

/-- An append moves disk and memory on. -/
theorem moved_append (h : Journaled C L disk mem specs)
    (hlast : mem.lastNow = r.durableNow) (ha : Appendable mem now expired r) :
    Moved C L now disk mem (appendOps C L mem expired r) (appended C L mem expired r) := by
  set more := reservedSpecs expired r with hmore
  have htuple : ∀ k ∈ expired, k.length = 32 := by
    intro k hk
    obtain ⟨e, he, -⟩ := ha.expired_mem k hk
    exact h.length_tuple (mem_keySet.mpr (has_eq_true_iff.mpr ⟨e, he⟩))
  have hexpire : ∀ spec ∈ more, spec.type = .expire → spec.replayTupleHash ∈ expired := by
    intro spec hspec htype
    rcases mem_append.mp hspec with hspec | hspec
    · obtain ⟨k, hk, rfl⟩ := mem_map.mp hspec
      exact (perm_sortKeys expired).mem_iff.mp hk
    · obtain rfl := mem_singleton.mp hspec
      cases htype
  have hvalid : ∀ spec ∈ specs ++ more, spec.Valid := by
    intro spec hspec
    rcases mem_append.mp hspec with hspec | hspec
    · exact h.valid spec hspec
    rcases mem_append.mp hspec with hspec | hspec
    · obtain ⟨k, hk, rfl⟩ := mem_map.mp hspec
      exact ⟨rfl, htuple k ((perm_sortKeys expired).mem_iff.mp hk)⟩
    · obtain rfl := mem_singleton.mp hspec
      refine ⟨?_, r.length_tuple⟩
      have := ha.live
      have := ha.horizon
      show 1 ≤ r.expires - r.durableNow ∧ r.expires - r.durableNow ≤ maximumTtlMillis
      omega
  have hcount : (specs ++ more).length ≤ maximumRecords := by
    have := ha.count_le
    rw [length_append, hmore, length_reservedSpecs, ← h.recordCount_eq]
    omega
  have hreplays := replays_reservedSpecs ha
  have hgeneration := And.intro h.generation_pos h.generation_lt
  have howed : ∀ t ∈ unexpired mem now, t ∉ expired := by
    rintro t ⟨e, he, hlt⟩ ht
    obtain ⟨e', he', hle⟩ := ha.expired_mem t ht
    obtain rfl := mem_unique he he'
    omega
  have hpartial := safeFile_append (C := C) (L := L) False hgeneration hvalid hcount h.replays hreplays
    (fun t ht => unexpired_subset_keySet ht)
    fun spec hspec htype hmem => howed _ hmem (hexpire spec hspec htype)
  have howed' : ∀ t ∈ unexpired mem now, t ∈ insert r.tuple (mem.entries.keySet \ expired.toFinset) :=
    fun t ht => Finset.mem_insert_of_mem (Finset.mem_sdiff.mpr ⟨unexpired_subset_keySet ht,
      fun hmem => howed t ht (List.mem_toFinset.mp hmem)⟩)
  have hwhole := safeFile_whole (C := C) (L := L) False hgeneration hvalid hcount (h.replays.append hreplays) howed'
  have hwritten : disk.apply (.write (encodeChain C L mem.header mem.generation mem.sequence
      mem.previousFrameHash more).flatten) =
      ⟨some ⟨journalBytes C L mem.generation (specs ++ more), headerBytes + specs.length * frameBytes⟩, none⟩ := by
    rw [h.disk_eq, Disk.apply, ← h.append_eq more, ← @length_journalBytes C L mem.generation _ h.valid]
    rfl
  have hsynced : disk.applyAll (appendOps C L mem expired r) =
      ⟨some (wholeFile C L mem.generation (specs ++ more)), none⟩ := by
    rw [appendOps, Disk.applyAll, foldl_cons, hwritten]
    rfl
  have hsafe : ∀ done, SafeDisk C L (unexpired mem now) False
      (disk.applyAll ((appendOps C L mem expired r).take done)) := by
    rintro (_ | _ | done)
    · exact h.safe
    · intro file hfile
      have happly : disk.applyAll ((appendOps C L mem expired r).take (0 + 1)) = _ := hwritten
      rw [happly] at hfile
      obtain rfl := mem_singleton.mp hfile
      exact hpartial
    · intro file hfile
      rw [take_of_length_le (by simp [appendOps]), hsynced] at hfile
      obtain rfl := mem_singleton.mp hfile
      exact hwhole
  refine ⟨⟨specs ++ more, ?_⟩, hsafe, ?_, rfl, le_rfl⟩
  · exact
      { h with
        disk_eq := hsynced
        valid := hvalid
        count_le := hcount
        sequence_eq := by
          rw [length_append, ← h.sequence_eq]
          rfl
        recordCount_eq := by
          rw [length_append, ← h.recordCount_eq]
          rfl
        previous_eq := by
          show chainEnd C L mem.header mem.generation mem.sequence mem.previousFrameHash more = _
          rw [h.previous_eq, h.sequence_eq, ← Nat.zero_add specs.length, ← chainEnd_append]
          rfl
        replays := by
          show Replays ∅ _ ((expired.foldl delete mem.entries).set _ _).keySet
          rw [keySet_set, keySet_foldl_delete]
          exact h.replays.append hreplays
        horizon := by
          intro k e he
          show e.expiresMonotonicMillis ≤ mem.lastNow + maximumTtlMillis
          rw [appended_get?] at he
          split_ifs at he with hk hexp
          · cases he
            exact hlast ▸ ha.horizon
          · exact h.horizon k e he }
  · intro k e he hlt
    rw [appended_get?]
    have hnot : k ∉ expired := howed k ⟨e, he, hlt⟩
    by_cases hk : k = r.tuple
    · -- the new tuple is not live before
      have hkey : r.tuple ∈ mem.entries.keySet :=
        mem_keySet.mpr (has_eq_true_iff.mpr ⟨e, hk ▸ he⟩)
      exact absurd (ha.expired_of hkey) (hk ▸ hnot)
    · rw [if_neg hk, if_neg hnot]
      exact ⟨e, he, rfl⟩

/-- What a call does. An acknowledged tuple was not live, and is kept until it expires. -/
structure Answered (disk : Disk) (mem : Mem) (r : Reservation) (outcome : Outcome) : Prop where
  moved : Moved C L r.now disk mem outcome.ops outcome.mem
  now_le : outcome.mem.entries = mem.entries ∨ r.now ≤ outcome.mem.lastNow
  acknowledged : ∀ entry, outcome.result = .ok entry → mem.quarantineUntil ≤ r.now ∧ mem.lastNow ≤ r.now ∧
    (∀ e, mem.entries.get? r.tuple = some e → e.expiresMonotonicMillis ≤ r.now) ∧
    ∃ e, outcome.mem.entries.get? r.tuple = some e ∧ e.expiresMonotonicMillis = r.expires

theorem answered_ite {p : Prop} [Decidable p] {x y : Outcome} (hx : p → Answered (C := C) (L := L) disk mem r x)
    (hy : ¬ p → Answered (C := C) (L := L) disk mem r y) : Answered (C := C) (L := L) disk mem r (if p then x else y) :=
  iteInduction hx hy

theorem answered_refused (h : Journaled C L disk mem specs) {mem' : Mem}
    {error : Failure} (h' : Journaled C L disk mem' specs) (hentries : mem'.entries = mem.entries)
    (hconstant : mem'.quarantineUntil = mem.quarantineUntil) (hlastNow : mem.lastNow ≤ mem'.lastNow) :
    Answered (C := C) (L := L) disk mem r ⟨[], mem', .error error⟩ where
  moved := moved_nil h h' hentries hconstant hlastNow
  now_le := .inl hentries
  acknowledged entry hok := by cases hok

/-- **The part of a reservation that appends**, after the operations of a compaction. -/
theorem answered_append {mem₀ : Mem} {ops : List DiskOp}
    (hmoved : Moved C L r.now disk mem₀ ops mem) (hlast : mem.lastNow = r.now)
    (hquarantine : mem₀.quarantineUntil ≤ r.now)
    (hfresh : ∀ e, mem₀.entries.get? r.tuple = some e → e.expiresMonotonicMillis ≤ r.now)
    (hbound : r.expires ≤ r.now + maximumTtlMillis)
    (happend : r.durableNow < r.expires → r.expires ≤ r.durableNow + maximumTtlMillis →
      Appendable mem r.now expired r) :
    Answered (C := C) (L := L) disk mem₀ r (reserveAppend C L mem ops expired r) := by
  obtain ⟨specs, hj⟩ := hmoved.journaled
  -- what is left in memory after `ops` alone
  have hstop : ∀ {mem' : Mem} {error : Failure},
      Journaled C L (disk.applyAll ops) mem' specs → mem'.entries = mem.entries →
      mem'.quarantineUntil = mem.quarantineUntil → mem.lastNow ≤ mem'.lastNow →
      Answered (C := C) (L := L) disk mem₀ r ⟨ops, mem', .error error⟩ := by
    intro mem' error hj' hentries hconstant hle
    have hnil : Moved C L r.now (disk.applyAll ops) mem [] mem' :=
      moved_nil hj hj' hentries hconstant hle
    refine ⟨?_, .inr (hlast ▸ hle), nofun⟩
    have := hmoved.trans hnil
    rwa [append_nil] at this
  refine answered_ite (fun _ => hstop hj.poisoned rfl rfl le_rfl) fun hclock => ?_
  have hdurable : mem.lastNow ≤ r.durableNow := Nat.not_lt.mp hclock
  refine answered_ite (fun _ => hstop (hj.later hdurable) rfl rfl hdurable) fun hexpired => ?_
  refine answered_ite (fun _ => hstop (hj.later hdurable) rfl rfl hdurable) fun _ => ?_
  have ha : Appendable { mem with lastNow := r.durableNow } r.now expired r := by
    have := happend (Nat.not_le.mp hexpired) (by omega)
    exact { this with }
  have hread : Moved C L r.now (disk.applyAll ops) mem [] { mem with lastNow := r.durableNow } :=
    moved_nil hj (hj.later hdurable) rfl rfl hdurable
  have hwrite := moved_append (hj.later hdurable) rfl ha
  have hwritten := hmoved.trans (hread.trans hwrite)
  obtain ⟨specs', hj'⟩ := hwritten.journaled
  refine answered_ite (fun _ => ?_) fun hclock' => ?_
  · refine ⟨?_, .inr (hlast ▸ hdurable), nofun⟩
    exact { hwritten with journaled := ⟨specs', hj'.poisoned⟩ }
  have hcommitted : r.durableNow ≤ r.committedNow := Nat.not_lt.mp hclock'
  have hnow : r.now ≤ r.committedNow := hlast ▸ hdurable.trans hcommitted
  have hfinal : Moved C L r.now disk mem₀ (ops ++ appendOps C L _ expired r)
      { appended C L { mem with lastNow := r.durableNow } expired r with
        lastNow := r.committedNow } :=
    { hwritten with
      journaled := ⟨specs', hj'.later hcommitted⟩
      lastNow_le := hwritten.lastNow_le.trans hcommitted }
  refine answered_ite (fun _ => ⟨hfinal, .inr hnow, nofun⟩) fun _ => ?_
  refine ⟨hfinal, .inr hnow, fun entry hok => ⟨hquarantine, hmoved.lastNow_le.trans hlast.le, hfresh, ?_⟩⟩
  exact ⟨_, (appended_get? (C := C) (L := L)).trans (if_pos rfl), rfl⟩

theorem answered_reserve (h : Journaled C L disk mem specs) (r : Reservation) :
    Answered (C := C) (L := L) disk mem r (reserve C L mem r) := by
  refine answered_ite (fun _ => answered_refused h h rfl rfl le_rfl) fun _ => ?_
  refine answered_ite (fun _ => answered_refused h h rfl rfl le_rfl) fun _ => ?_
  refine answered_ite (fun _ => answered_refused h h.poisoned rfl rfl le_rfl) fun hclock => ?_
  have hnow : mem.lastNow ≤ r.now := Nat.not_lt.mp hclock
  have hread := h.later hnow
  have hreadMoved : Moved C L r.now disk mem [] { mem with lastNow := r.now } :=
    moved_nil h hread rfl rfl hnow
  refine answered_ite (fun _ => answered_refused h hread rfl rfl hnow) fun hquarantine => ?_
  refine answered_ite (fun _ => answered_refused h hread rfl rfl hnow) fun hbounds => ?_
  refine answered_ite (fun _ => answered_refused h hread rfl rfl hnow) fun hreplay => ?_
  refine answered_ite (fun _ => answered_refused h hread rfl rfl hnow) fun hbusy => ?_
  have hquarantine' : mem.quarantineUntil ≤ r.now := Nat.not_lt.mp hquarantine
  have hbound : r.expires ≤ r.now + maximumTtlMillis := by omega
  have hexpired : mem.entries.has r.tuple = true → r.tuple ∈ expiredKeys mem.entries r.now :=
    fun hhas => not_not.mp fun hnot => hreplay ⟨hhas, hnot⟩
  have hfresh : ∀ e, mem.entries.get? r.tuple = some e → e.expiresMonotonicMillis ≤ r.now := by
    intro e he
    obtain ⟨e', he', hle⟩ := mem_expiredKeys.mp (hexpired (has_eq_true_iff.mpr ⟨e, he⟩))
    obtain rfl := mem_unique he he'
    exact hle
  have hroom : mem.entries.size - (expiredKeys mem.entries r.now).length < capacity :=
    Nat.not_le.mp hbusy
  refine answered_ite (fun _ => ?_) fun hlimit => ?_
  · refine answered_ite (fun _ => answered_refused h hread rfl rfl hnow) fun _ => ?_
    refine answered_ite (fun _ => answered_refused h hread.poisoned rfl rfl hnow) fun hgeneration => ?_
    obtain ⟨snapshot, hok, hsnap⟩ : ∃ snapshot, liveSnapshot mem.entries r.now
        (expiredKeys mem.entries r.now) = .ok snapshot ∧ Snapshot mem.entries r.now snapshot :=
      liveSnapshot_eq hread.horizon
    simp only [hok]
    have hcompact := moved_compact hread rfl hgeneration hsnap
    have hmoved := hreadMoved.trans hcompact
    refine answered_ite (fun _ => ⟨hmoved, .inr le_rfl, nofun⟩) fun _ => ?_
    have hlength : snapshot.length < capacity := by
      have := hsnap.length_add
      omega
    have hsize : (compacted C L { mem with lastNow := r.now } snapshot).entries.size =
        snapshot.length := by
      rw [← card_keySet, compacted_keySet, toFinset_card_of_nodup hsnap.nodup, length_map]
    refine answered_append hmoved rfl hquarantine' hfresh hbound fun hlive hhorizon => ?_
    refine ⟨nodup_nil, nofun, fun hmem => ?_, ?_, ?_, hlive, hhorizon⟩
    · obtain ⟨e, he⟩ := has_eq_true_iff.mp (mem_keySet.mp hmem)
      obtain ⟨e₀, hget, hlt, -⟩ := compacted_get? (C := C) (L := L) hsnap he
      exact absurd (hfresh e₀ hget) (Nat.not_le.mpr hlt)
    · rw [hsize]
      exact hlength
    · show snapshot.length + 1 ≤ maximumRecords
      exact hlength.trans_le (by decide)
  · refine answered_append hreadMoved rfl hquarantine' hfresh hbound fun hlive hhorizon => ?_
    refine ⟨nodup_expiredKeys, fun k hk => mem_expiredKeys.mp hk, fun hmem => ?_, hroom, ?_, hlive, hhorizon⟩
    · exact hexpired (mem_keySet.mp hmem)
    · exact (Nat.not_lt.mp hlimit).trans h.limit_le

end Reservations

/-! ### Openings -/

section Openings

variable {C : Crypto} {L : Launch} {disk : Disk} {owed : Set Bytes} {blank : Prop}

theorem keySet_recoveredEntries {recovered : OrderedMap Bytes RecoveredEntry} {until_ : ℕ} :
    (recoveredEntries recovered until_).keySet = recovered.keySet := by
  have hfold : ∀ (l : List (Bytes × RecoveredEntry)) (m : OrderedMap Bytes Entry),
      (l.foldl (fun entries e => entries.set e.1 ⟨until_, e.2.generation, e.2.sequence⟩) m).keySet =
        m.keySet ∪ (l.map Prod.fst).toFinset := by
    intro l
    induction l with
    | nil => simp
    | cons e l ih =>
      intro m
      rw [foldl_cons, ih, keySet_set, map_cons, toFinset_cons,
        Finset.union_insert, Finset.insert_union]
  rw [recoveredEntries, hfold, keySet_empty, Finset.empty_union]
  rfl

theorem recoveredEntries_expires {recovered : OrderedMap Bytes RecoveredEntry} {until_ : ℕ} :
    ∀ k e, (recoveredEntries recovered until_).get? k = some e → e.expiresMonotonicMillis = until_ := by
  have hfold : ∀ (l : List (Bytes × RecoveredEntry)) (m : OrderedMap Bytes Entry),
      (∀ k e, m.get? k = some e → e.expiresMonotonicMillis = until_) →
      ∀ k e, (l.foldl (fun entries e => entries.set e.1 ⟨until_, e.2.generation, e.2.sequence⟩)
        m).get? k = some e → e.expiresMonotonicMillis = until_ := by
    intro l
    induction l with
    | nil => exact fun m hm => hm
    | cons e l ih => exact fun m hm => ih _ (forall_set hm rfl)
  exact hfold _ _ nofun

theorem journalBytes_take {count : ℕ} {specs : List Spec}
    (hspecs : ∀ spec ∈ specs, spec.Valid) (hcount : count ≤ specs.length) :
    (journalBytes C L generation specs).take (headerBytes + count * frameBytes) =
      journalBytes C L generation (specs.take count) := by
  have hvalid : ∀ spec ∈ specs.take count, spec.Valid := fun s hs => hspecs s (mem_of_mem_take hs)
  have hlength : (journalBytes C L generation (specs.take count)).length = headerBytes + count * frameBytes := by
    rw [length_journalBytes hvalid, length_take, min_eq_left hcount]
  have hsplit : journalBytes C L generation specs = journalBytes C L generation (specs.take count) ++
      (encodeChain C L (encodeHeader C L generation) generation (specs.take count).length
        (chainEnd C L (encodeHeader C L generation) generation 0
          (chainAnchor C (encodeHeader C L generation)) (specs.take count)) (specs.drop count)).flatten := by
    conv_lhs => rw [← take_append_drop count specs]
    rw [journalBytes, journalBytes, encodeChain_append, Nat.zero_add, flatten_append, append_assoc]
  rw [hsplit, ← hlength, take_left]

/-- A disk that no open journal writes to. -/
structure AtRest (C : Crypto) (L : Launch) (owed : Set Bytes) (blank : Prop) (disk : Disk) : Prop where
  older_eq : disk.older = none
  empty : disk.journal = none → blank ∧ owed = ∅
  file : ∀ f, disk.journal = some f → f.synced = f.content.length ∧ Safe C L owed f.content

theorem AtRest.safeDisk (h : AtRest C L owed blank disk) : SafeDisk C L owed blank disk := by
  intro file hfile
  rw [Disk.candidates, h.older_eq] at hfile
  obtain rfl := mem_singleton.mp hfile
  cases hjournal : disk.journal with
  | none => exact (h.empty hjournal).1
  | some f =>
    obtain ⟨hsynced, hsafe⟩ := h.file f hjournal
    intro n hn hle
    rwa [take_of_length_le (by omega)]

/-- What is on disk before an opening reads it, and what it reads. -/
structure Read (C : Crypto) (L : Launch) (owed : Set Bytes) (blank : Prop) (disk : Disk)
    (ops : List DiskOp) (generation : ℕ) (specs : List Spec) (n : ℕ) (K : Finset Bytes) : Prop where
  disk_eq : disk.applyAll ops = ⟨some ⟨(journalBytes C L generation specs).take n, n⟩, none⟩
  content : SafeContent C L owed ((journalBytes C L generation specs).take n) generation specs n K
  safe : ∀ done, SafeDisk C L owed blank (disk.applyAll (ops.take done))

theorem AtRest.read (h : AtRest C L owed blank disk) :
    ∃ generation specs n K, Read C L owed blank disk (bootstrapOps C L disk) generation specs n K := by
  cases hjournal : disk.journal with
  | none =>
    have hheader : encodeHeader C L 1 = journalBytes C L 1 [] := by simp [journalBytes, encodeChain]
    have hlength : (journalBytes C L 1 []).length = headerBytes := by
      rw [← hheader, length_encodeHeader]
    have htake : (journalBytes C L 1 []).take headerBytes = journalBytes C L 1 [] :=
      take_of_length_le hlength.le
    have hops : bootstrapOps C L disk = [.replace (journalBytes C L 1 []), .syncDirectory] := by
      rw [bootstrapOps, hjournal, hheader]
      rfl
    obtain ⟨hblank, howed⟩ := h.empty hjournal
    have hcontent : SafeContent C L owed ((journalBytes C L 1 []).take headerBytes) 1 [] headerBytes ∅ :=
      { generation_pos := Nat.one_ne_zero
        generation_lt := by decide
        valid := by simp
        count_le := Nat.zero_le _
        header_le := le_rfl
        le_length := Nat.le_add_right _ _
        content_eq := rfl
        replays := by exact .nil
        owed_mem := fun t ht => by rw [howed] at ht; exact ht.elim }
    have hfile : SafeFile C L owed blank (some ⟨journalBytes C L 1 [], (journalBytes C L 1 []).length⟩) :=
      safeFile_whole blank ⟨Nat.one_ne_zero, by decide⟩ hcontent.valid hcontent.count_le .nil
        fun t ht => by rw [howed] at ht; exact ht.elim
    refine ⟨1, [], headerBytes, ∅, ?_, hcontent, ?_⟩
    · rw [htake, hops, ← hlength]
      rfl
    · rw [hops]
      rintro (_ | _ | done)
      · exact h.safeDisk
      · intro file hmem
        rcases mem_cons.mp hmem with rfl | hold
        · exact hfile
        · obtain rfl := mem_singleton.mp hold
          rw [hjournal]
          exact hblank
      · intro file hmem
        rw [take_of_length_le (by simp)] at hmem
        obtain rfl := mem_singleton.mp hmem
        exact hfile
  | some f =>
    obtain ⟨hsynced, generation, specs, n, K, hsafe⟩ := h.file f hjournal
    have hops : bootstrapOps C L disk = [] := by
      rw [bootstrapOps, hjournal]
      rfl
    have hn : f.content.length = n := by
      rw [hsafe.content_eq, length_take, length_journalBytes hsafe.valid, min_eq_left hsafe.le_length]
    refine ⟨generation, specs, n, K, ?_, hsafe.content_eq ▸ hsafe, ?_⟩
    · rw [hops, ← hsafe.content_eq, ← hn, ← hsynced]
      show disk = _
      rw [← hjournal, ← h.older_eq]
    · intro done
      rw [hops, take_nil]
      exact h.safeDisk

/-- What an opening leaves, whether it succeeds or not. -/
structure OpenSpec (C : Crypto) (L : Launch) (owed : Set Bytes) (blank : Prop) (disk : Disk)
    (o : Opening) (result : List DiskOp × Except Failure Mem) (generation : ℕ) (specs : List Spec)
    (K : Finset Bytes) : Prop where
  safe : ∀ done, SafeDisk C L owed blank (disk.applyAll (result.1.take done))
  disk_eq : disk.applyAll result.1 = ⟨some (wholeFile C L generation specs), none⟩
  content : SafeContent C L owed (journalBytes C L generation specs) generation specs
    (headerBytes + specs.length * frameBytes) K
  opened : ∀ mem, result.2 = .ok mem → Journaled C L (disk.applyAll result.1) mem specs ∧
    mem.lastNow = o.startupNow ∧ mem.quarantineUntil = o.startupNow + quarantineMillis ∧
    mem.entries.keySet = K ∧ ∀ k e, mem.entries.get? k = some e →
      e.expiresMonotonicMillis = o.startupNow + minimumRetentionMillis

/-- The operations of an opening, with the cut of what is left of a frame. -/
def openingOps (C : Crypto) (L : Launch) (disk : Disk) (offset length : ℕ) : List DiskOp :=
  if offset < length then bootstrapOps C L disk ++ [.truncate offset] else bootstrapOps C L disk

theorem Read.cut {n : ℕ} {specs : List Spec} {K : Finset Bytes}
    (h : Read C L owed blank disk (bootstrapOps C L disk) generation specs n K) :
    disk.applyAll (openingOps C L disk (headerBytes + wholeFrames n * frameBytes) n) =
        ⟨some (wholeFile C L generation (specs.take (wholeFrames n))), none⟩ ∧
      ∀ done, SafeDisk C L owed blank (disk.applyAll
        ((openingOps C L disk (headerBytes + wholeFrames n * frameBytes) n).take done)) := by
  have hc := h.content
  have hwhole : wholeFrames n ≤ specs.length := wholeFrames_le hc.le_length
  have hfits : headerBytes + wholeFrames n * frameBytes ≤ n := by
    have : wholeFrames n * frameBytes ≤ n - headerBytes := Nat.div_mul_le_self _ _
    have := hc.header_le
    omega
  have hcut : ((journalBytes C L generation specs).take n).take (headerBytes + wholeFrames n * frameBytes) =
        journalBytes C L generation (specs.take (wholeFrames n)) := by
    rw [take_take, min_eq_left hfits, journalBytes_take hc.valid hwhole]
  have hfile : SafeFile C L owed blank (some (wholeFile C L generation (specs.take (wholeFrames n)))) :=
    safeFile_whole blank ⟨hc.generation_pos, hc.generation_lt⟩ (fun s hs => hc.valid s (mem_of_mem_take hs))
      ((length_take_le' _ _).trans hc.count_le) hc.replays hc.owed_mem
  unfold openingOps
  by_cases hlt : headerBytes + wholeFrames n * frameBytes < n
  · have hdisk : disk.applyAll (bootstrapOps C L disk ++ [.truncate (headerBytes + wholeFrames n * frameBytes)]) =
          ⟨some (wholeFile C L generation (specs.take (wholeFrames n))), none⟩ := by
      rw [Disk.applyAll_append, h.disk_eq, wholeFile, ← hcut]
      rfl
    rw [if_pos hlt]
    refine ⟨hdisk, fun done => ?_⟩
    by_cases hdone : done ≤ (bootstrapOps C L disk).length
    · rw [take_append_of_le_length hdone]
      exact h.safe done
    · rw [take_of_length_le (by rw [length_append, length_singleton]; omega), hdisk]
      intro file hmem
      obtain rfl := mem_singleton.mp hmem
      exact hfile
  · have heq : headerBytes + wholeFrames n * frameBytes = n := by omega
    rw [if_neg hlt]
    refine ⟨?_, h.safe⟩
    have hlength : (journalBytes C L generation (specs.take (wholeFrames n))).length = n := by
      rw [length_journalBytes fun s hs => hc.valid s (mem_of_mem_take hs), length_take,
        min_eq_left hwhole, heq]
    rw [heq, take_take, min_self] at hcut
    rw [h.disk_eq, wholeFile, hlength, hcut]

theorem AtRest.openJournal (h : AtRest C L owed blank disk) (o : Opening) :
    ∃ generation specs K, OpenSpec C L owed blank disk o (Ipc.openJournal C L disk o) generation specs
      K := by
  obtain ⟨generation, specs, n, K, hread⟩ := h.read
  have hc := hread.content
  obtain ⟨hdisk, hsafe⟩ := hread.cut
  have hwhole : wholeFrames n ≤ specs.length := wholeFrames_le hc.le_length
  have hlengthSpecs : (specs.take (wholeFrames n)).length = wholeFrames n := by
    rw [length_take, min_eq_left hwhole]
  have hvalid : ∀ spec ∈ specs.take (wholeFrames n), spec.Valid :=
    fun s hs => hc.valid s (mem_of_mem_take hs)
  obtain ⟨live, hrecover, hlive⟩ := hc.recoverJournal_eq
  have hlength : ((journalBytes C L generation specs).take n).length = n := by
    rw [length_take, length_journalBytes hc.valid, min_eq_left hc.le_length]
  have hcount : (specs.take (wholeFrames n)).length ≤ maximumRecords :=
    hlengthSpecs.le.trans (hwhole.trans hc.count_le)
  have hcontent : SafeContent C L owed (journalBytes C L generation (specs.take (wholeFrames n)))
      generation (specs.take (wholeFrames n))
      (headerBytes + (specs.take (wholeFrames n)).length * frameBytes) K :=
    { hc with
      valid := hvalid
      count_le := hcount
      header_le := Nat.le_add_right _ _
      le_length := le_rfl
      content_eq := (take_of_length_le (length_journalBytes hvalid).le).symm
      replays := by rw [wholeFrames_exact, take_length]; exact hc.replays }
  have hread' : ((disk.applyAll (bootstrapOps C L disk)).journal.elim [] File.content) =
      (journalBytes C L generation specs).take n := by
    rw [hread.disk_eq]
    rfl
  -- the operations do not depend on whether the clock can be used
  have hresult : (Ipc.openJournal C L disk o).1 =
      openingOps C L disk (headerBytes + wholeFrames n * frameBytes) n := by
    simp only [Ipc.openJournal, hread', hrecover, hlength]
    rw [openingOps]
    split <;> split <;> rfl
  refine ⟨generation, specs.take (wholeFrames n), K, ?_, ?_, hcontent, ?_⟩
  · rw [hresult]
    exact hsafe
  · rw [hresult]
    exact hdisk
  · intro mem hmem
    rw [hresult, hdisk]
    simp only [Ipc.openJournal, hread', hrecover] at hmem
    split at hmem
    · cases hmem
    · cases hmem
      have hkeys : ∀ until_, (recoveredEntries live until_).keySet = K :=
        fun until_ => keySet_recoveredEntries.trans hlive
      refine ⟨?_, rfl, rfl, hkeys _, recoveredEntries_expires⟩
      exact
        { hc with
          disk_eq := rfl
          valid := hvalid
          count_le := hcount
          header_eq := rfl
          sequence_eq := hlengthSpecs.symm
          recordCount_eq := hlengthSpecs.symm
          previous_eq := rfl
          replays := by rw [hkeys]; exact hc.replays
          limit_le := o.limit_bounds.2
          horizon := fun k e he => (recoveredEntries_expires k e he).le }

end Openings

end HiveRelay.Ipc
