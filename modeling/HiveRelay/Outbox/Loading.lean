import HiveRelay.Outbox.Runs

/-!
# What the outbox log loads

The three loaders are inverted here: what a snapshot's group is restored to (`Restores`), what a snapshot
is restored to (`applyState_eq_ok`), and what a journal entry does to a state (`Replays`). A journal is
loaded entry by entry, so that an entry at its end is replayed on what was loaded before it
(`load_logEntry`), and the entries that a snapshot already has are passed over (`load_snapped`).

The clock is only read for the windows: what is loaded at two times differs in the windows
(`load_at`).
-/

namespace HiveRelay.Outbox

open List HiveRelay.Except OrderedMap

variable {cfg : Config}

/-! ### Groups of a snapshot -/

def restoredGroup (appId : JsString) (gs : GroupState) (rows : OrderedMap JsString Json) (seen : ℕ) : Group where
  __ := gs
  rows := rows
  directorySeq := if gs.directorySeq = 0 ∧ rows.has (headKey appId) = true then seen + 1 else gs.directorySeq
  ns := normalizePersistedNamespace gs.ns
  version := if rows.size ≤ gs.version then gs.version else rows.size

/-- What a group of a snapshot does to what was restored before it. -/
inductive Restores (cfg : Config) (acc : Restored) (appId : JsString) (gs : GroupState) : Restored → Prop
  | skipped (hbad : appId = [] ∨ cfg.maxAppIdLength < appId.length) : Restores cfg acc appId gs acc
  | restored (info : Option NamespaceInfo) (rows : OrderedMap JsString Json) (total : ℕ)
      (hsize : acc.groups.size < cfg.maxGroups)
      (hinfo : persistedNamespace cfg (normalizePersistedNamespace gs.ns) = .ok info)
      (hcap : HasCapacity acc.groups info)
      (hrows : restoreRows cfg appId info gs.rows .empty acc.totalBytes = .ok (rows, total)) :
      Restores cfg acc appId gs
        { groups := acc.groups.set appId
            (restoredGroup appId gs rows (max acc.directorySeq gs.directorySeq))
          totalBytes := total
          directorySeq :=
            if gs.directorySeq = 0 ∧ rows.has (headKey appId) = true then
              max acc.directorySeq gs.directorySeq + 1
            else max acc.directorySeq gs.directorySeq }

theorem restores_of_restoreGroup {acc acc' : Restored} {appId : JsString} {gs : GroupState}
    (h : restoreGroup cfg acc appId gs = .ok acc') : Restores cfg acc appId gs acc' := by
  rw [restoreGroup] at h
  split at h
  · next hbad =>
    cases h
    refine .skipped ?_
    simpa using hbad
  · simp only [guards_eq_ok, assertNamespaceOutboxCapacity_eq_ok] at h
    obtain ⟨hsize, info, hinfo, hcap, ⟨rows, total⟩, hrows, rfl⟩ := h
    exact .restored info rows total hsize hinfo hcap hrows

/-- The groups of a snapshot, one after the other. -/
inductive RestoresAll (cfg : Config) : Restored → List (JsString × GroupState) → Restored → Prop
  | nil (acc : Restored) : RestoresAll cfg acc [] acc
  | cons (acc acc' last : Restored) (appId : JsString) (gs : GroupState) (rest : List (JsString × GroupState))
      (hfirst : Restores cfg acc appId gs acc') (hrest : RestoresAll cfg acc' rest last) :
      RestoresAll cfg acc ((appId, gs) :: rest) last

theorem restoresAll_of_foldlM {l : List (JsString × GroupState)} {acc last : Restored}
    (h : l.foldlM (fun acc e => restoreGroup cfg acc e.1 e.2) acc = .ok last) :
    RestoresAll cfg acc l last := by
  induction l generalizing acc with
  | nil =>
    cases h
    exact .nil _
  | cons e rest ih =>
    rw [foldlM_cons, bind_eq_ok] at h
    obtain ⟨acc', hfirst, hrest⟩ := h
    exact .cons acc acc' last e.1 e.2 rest (restores_of_restoreGroup hfirst) (ih hrest)

theorem RestoresAll.origin {l : List (JsString × GroupState)} {acc last : Restored}
    (h : RestoresAll cfg acc l last) {k : JsString} {group : Group} (hget : last.groups.get? k = some group) :
    acc.groups.get? k = some group ∨ ∃ gs info total rows total' seen, (k, gs) ∈ l ∧
        restoreRows cfg k info gs.rows .empty total = .ok (rows, total') ∧ group = restoredGroup k gs rows seen := by
  induction h with
  | nil => exact .inl hget
  | cons acc acc' last appId gs rest hfirst _ ih =>
    rcases ih hget with hold | ⟨gs', info, total, rows, total', seen, hmem, hrows, rfl⟩
    · cases hfirst with
      | skipped => exact .inl hold
      | restored info rows total hsize hinfo hcap hrows =>
        rw [get?_set] at hold
        split at hold
        · next hk =>
          subst hk
          exact .inr ⟨gs, info, _, rows, total, _, mem_cons_self, hrows, (Option.some.inj hold).symm⟩
        · exact .inl hold
    · exact .inr ⟨gs', info, total, rows, total', seen, mem_cons_of_mem _ hmem, hrows, rfl⟩

/-! ### Snapshots -/

/-- The state that a snapshot is restored to. -/
def restoredState (cfg : Config) (snap : Snapshot) (now : ℤ) (restored : Restored) : State where
  __ := restored
  appendEventsByApp := (snap.appendEvents.foldl (restoreEvents cfg restored.groups) (.empty, 0)).1
  suppressed := (snap.suppressed.filterMap fun e => suppressionKey cfg e.1 e.2).foldl
    (fun suppressed composite => suppressed.set composite ()) empty
  byteWindows := snap.byteWindows.foldl (restoreWindow now) .empty
  directorySeq := max snap.directorySeq restored.directorySeq
  appendSeq := max snap.appendSeq (snap.appendEvents.foldl (restoreEvents cfg restored.groups) (.empty, 0)).2
  journalSeq := snap.journalSeq
  entriesSinceCheckpoint := 0
  snapshotDirty := false

variable {now : ℤ} {s : State}

theorem applyState_eq_ok {snap : Snapshot} : applyState cfg snap now = .ok s ↔ ∃ restored,
      snap.groups.foldlM (fun acc e => restoreGroup cfg acc e.1 e.2)
        { groups := .empty, totalBytes := 0, directorySeq := 0 } = .ok restored ∧
        s = restoredState cfg snap now restored := by
  simp only [applyState, guards_eq_ok, restoredState, eq_comm (a := s)]

theorem restoreEvents_origin {groups : OrderedMap JsString Group} {l : List (JsString × List AppendEvent)}
    {acc : OrderedMap JsString (List AppendEvent) × ℕ} {k : JsString} {events : List AppendEvent}
    (hget : (l.foldl (restoreEvents cfg groups) acc).1.get? k = some events) :
    acc.1.get? k = some events ∨ (∃ events', (k, events') ∈ l) ∧ groups.has k = true := by
  induction l generalizing acc with
  | nil => exact .inl hget
  | cons e rest ih =>
    rcases ih hget with hold | ⟨⟨events', hmem⟩, hhas⟩
    · simp only [restoreEvents] at hold
      split at hold
      · exact .inl hold
      · next hgood =>
        split at hold
        · exact .inl hold
        · rw [get?_set] at hold
          split at hold
          · next hk =>
            subst hk
            refine .inr ⟨⟨e.2, mem_cons_self⟩, ?_⟩
            simp only [Bool.or_eq_true, Bool.not_eq_true', not_or] at hgood
            exact (Bool.not_eq_false _).mp hgood.2
          · exact .inl hold
    · exact .inr ⟨⟨events', mem_cons_of_mem _ hmem⟩, hhas⟩

/-! ### Journal entries -/

/-- The group that a replayed append writes to. -/
inductive Regroups (cfg : Config) (s : State) (appId inviteKey : JsString) (info : Option NamespaceInfo) :
    Group → Prop
  | created (hnone : s.groups.get? appId = none) (hsize : s.groups.size < cfg.maxGroups)
      (hcap : HasCapacity s.groups info) :
      Regroups cfg s appId inviteKey info
        { inviteKey := inviteKey
          rows := .empty
          version := 0
          directorySeq := 0
          ns := info.map NamespaceInfo.name
          createdAt := none }
  | bound (previous : Group) (hget : s.groups.get? appId = some previous) (hns : previous.ns = none)
      (hcap : HasCapacity s.groups info) :
      Regroups cfg s appId inviteKey info { previous with ns := info.map NamespaceInfo.name }
  | found (previous : Group) (hget : s.groups.get? appId = some previous) (hns : previous.ns ≠ none)
      (hsame : ∀ i, info = some i → previous.ns = some i.name) :
      Regroups cfg s appId inviteKey info previous

theorem regroups_of_replayGroup {appId inviteKey : JsString} {info : Option NamespaceInfo}
    {group : Group} (h : replayGroup cfg s appId inviteKey info = .ok group) :
    Regroups cfg s appId inviteKey info group := by
  cases hget : s.groups.get? appId with
  | none =>
    simp only [replayGroup, hget, guards_eq_ok, assertNamespaceOutboxCapacity_eq_ok] at h
    obtain ⟨hsize, hcap, rfl⟩ := h
    exact .created hget hsize hcap
  | some previous =>
    cases hns : previous.ns with
    | none =>
      simp only [replayGroup, hget, hns, guards_eq_ok, assertNamespaceOutboxCapacity_eq_ok] at h
      obtain ⟨hcap, rfl⟩ := h
      exact .bound previous hget hns hcap
    | some name =>
      cases info with
      | none =>
        simp only [replayGroup, hget, hns, pure_eq_ok_iff] at h
        subst h
        exact .found previous hget (by simp [hns]) (by simp)
      | some i =>
        simp only [replayGroup, hget, hns, guards_eq_ok] at h
        obtain ⟨rfl, rfl⟩ := h
        refine .found previous hget (by simp [hns]) fun i' hi' => ?_
        rw [hns, Option.some.inj hi']

/-- What a journal entry does to a state. -/
inductive Replays (cfg : Config) (now : ℤ) (s : State) : EntryBody → State → Prop
  | swept (appIds : List JsString) : Replays cfg now s (.sweep appIds) (appIds.foldl deleteGroupState s)
  | ignored (appId key : JsString) (drop : Bool) (hkey : suppressionKey cfg appId key = none) :
      Replays cfg now s (.takedown appId key drop) s
  | taken (appId key composite : JsString) (drop : Bool)
      (hkey : suppressionKey cfg appId key = some composite) :
      Replays cfg now s (.takedown appId key drop) (s.suppress composite drop)
  | known (appId inviteKey : JsString) (ns : Option JsString) (createdAt : Option ℤ)
      (hhas : s.groups.has appId = true) : Replays cfg now s (.create appId inviteKey ns createdAt) s
  | created (appId inviteKey : JsString) (ns : Option JsString) (createdAt : Option ℤ)
      (info : Option NamespaceInfo) (hinfo : persistedNamespace cfg (normalizePersistedNamespace ns) = .ok info)
      (hnone : s.groups.get? appId = none) (hsize : s.groups.size < cfg.maxGroups)
      (hcap : HasCapacity s.groups info) :
      Replays cfg now s (.create appId inviteKey ns createdAt) (s.setGroup appId
          { inviteKey := inviteKey
            rows := .empty
            version := 0
            directorySeq := 0
            ns := normalizePersistedNamespace ns
            createdAt := createdAt })
  | dropped (appId inviteKey : JsString) (ns : Option JsString) (ts : Option ℤ) (type : JsString) (data : Json)
      (info : Option NamespaceInfo)
      (hinfo : persistedNamespace cfg (normalizePersistedNamespace ns <|> recordNamespace data) = .ok info)
      (hfalse : restoreVerifies cfg appId (some type) data info = false) :
      Replays cfg now s (.append appId inviteKey ns ts type data) s
  | written (appId inviteKey : JsString) (ns : Option JsString) (ts : Option ℤ) (type : JsString) (data : Json)
      (info : Option NamespaceInfo) (id : JsString) (group : Group)
      (hinfo : persistedNamespace cfg (normalizePersistedNamespace ns <|> recordNamespace data) = .ok info)
      (hid : (recordId data).bind toText = some id)
      (hgroup : Regroups cfg s appId inviteKey info group)
      (hrows : group.rows.get? (rowKey type id) = none →
        group.rows.size < namespaceCap info NamespaceCaps.maxEntriesPerOutbox cfg.maxRowsPerGroup)
      (hbytes : oldSize group (rowKey type id) < jsonSize data →
        s.totalBytes - oldSize group (rowKey type id) + jsonSize data ≤ cfg.maxTotalBytes) :
      Replays cfg now s (.append appId inviteKey ns ts type data) (noteNamespaceByteCharge cfg
          (writeRow cfg (s.setGroup appId group) appId group (rowKey type id) type data (jsonSize data))
          info (jsonSize data) ts now)

variable {s' : State}

theorem replays_of_applyJournalEntry {body : EntryBody}
    (h : applyJournalEntry cfg now s body = .ok s') : Replays cfg now s body s' := by
  cases body with
  | sweep appIds =>
    cases h
    exact .swept appIds
  | takedown appId key drop =>
    simp only [applyJournalEntry, guards_eq_ok] at h
    obtain ⟨-, h⟩ := h
    split at h
    · next hkey =>
      cases h
      exact .ignored appId key drop hkey
    · next composite hkey =>
      cases h
      exact .taken appId key composite drop hkey
  | create appId inviteKey ns createdAt =>
    simp only [applyJournalEntry, guards_eq_ok] at h
    obtain ⟨-, info, hinfo, h⟩ := h
    split at h
    · next hhas =>
      cases h
      exact .known appId inviteKey ns createdAt hhas
    · next hhas =>
      simp only [guards_eq_ok, assertNamespaceOutboxCapacity_eq_ok] at h
      obtain ⟨hsize, hcap, rfl⟩ := h
      rw [Bool.not_eq_true, has_eq_false_iff] at hhas
      exact .created appId inviteKey ns createdAt info hinfo hhas hsize hcap
  | append appId inviteKey ns ts type data =>
    simp only [applyJournalEntry, guards_eq_ok] at h
    obtain ⟨-, -, -, info, hinfo, h⟩ := h
    split at h
    · next hfalse =>
      cases h
      exact .dropped appId inviteKey ns ts type data info hinfo hfalse
    · simp only [guards_eq_ok, checkCapacity] at h
      obtain ⟨id, hid, -, -, group, hgroup, ⟨hrows, hbytes⟩, rfl⟩ := h
      exact .written appId inviteKey ns ts type data info id group hinfo hid (regroups_of_replayGroup hgroup)
        hrows hbytes

/-! ### Journals -/

variable {afterSeq : ℕ}

theorem loadJournal_append (l l' : List Entry) (n : ℕ) (s : State) : loadJournal cfg now afterSeq (l ++ l') n s =
      (loadJournal cfg now afterSeq l n s).bind (loadJournal cfg now afterSeq l' (n + l.length)) := by
  induction l generalizing n s with
  | nil => rfl
  | cons e rest ih =>
    rw [cons_append, loadJournal, loadJournal]
    cases (require (e.seq = n ∧ isJournalEntry e.body = true)
      ⟨"corrupt outboxlog journal entry " ++ toString n, 500⟩ : Except Failure Unit) with
    | error failure => rfl
    | ok u =>
      cases replayEntry cfg now afterSeq s e with
      | error failure => rfl
      | ok s₁ =>
        simp only [ok_bind]
        rw [ih, length_cons, Nat.add_assoc, Nat.add_comm 1]

variable {l : List Entry}

theorem loadJournal_skip {n : ℕ}
    (hle : n + l.length ≤ afterSeq + 1) (h : loadJournal cfg now afterSeq l n s = .ok s') :
    ∃ seq, s' = { s with journalSeq := seq } ∧ (l = [] → seq = s.journalSeq) ∧ (l ≠ [] → seq + 1 = n + l.length) := by
  induction l generalizing n s with
  | nil =>
    cases h
    exact ⟨_, rfl, fun _ => rfl, absurd rfl⟩
  | cons e rest ih =>
    simp only [loadJournal, guards_eq_ok] at h
    obtain ⟨⟨hseq, -⟩, s₁, hs₁, h⟩ := h
    rw [length_cons] at hle ⊢
    rw [replayEntry, if_neg (by omega)] at hs₁
    cases hs₁
    obtain ⟨seq, rfl, hnil, hcons⟩ := ih (by omega) h
    refine ⟨seq, rfl, fun hno => (cons_ne_nil _ _ hno).elim, fun _ => ?_⟩
    cases rest with
    | nil =>
      rw [hnil rfl]
      simp [hseq]
    | cons e' rest =>
      have := hcons (cons_ne_nil _ _)
      omega

/-- What is loaded before the journal. -/
def loadBase (cfg : Config) (disk : Disk) (now : ℤ) : Except Failure State :=
  match cfg.persisted, disk.snapshot with
  | true, some snap => applyState cfg snap now
  | _, _ => pure .new

theorem load_eq (cfg : Config) (disk : Disk) (now : ℤ) : load cfg disk now = (loadBase cfg disk now).bind fun s =>
      if cfg.journaled then loadJournal cfg now s.journalSeq disk.journal 1 s else pure s := by
  cases hp : cfg.persisted with
  | false => simp only [load, loadBase, hp]; rfl
  | true =>
    cases hsnap : disk.snapshot with
    | none => simp only [load, loadBase, hp, hsnap]; rfl
    | some snap =>
      simp only [load, loadBase, hp, hsnap]
      rfl

/-- The journal position of what is persisted without the journal. -/
def Disk.snapshotSeq (cfg : Config) (disk : Disk) : ℕ :=
  match cfg.persisted, disk.snapshot with
  | true, some snap => snap.journalSeq
  | _, _ => 0

variable {disk : Disk}

theorem journalSeq_loadBase (h : loadBase cfg disk now = .ok s) : s.journalSeq = disk.snapshotSeq cfg := by
  rw [loadBase] at h
  rw [Disk.snapshotSeq]
  split at h
  · next snap hp hsnap =>
    obtain ⟨restored, -, rfl⟩ := applyState_eq_ok.mp h
    rfl
  · cases h
    rfl

/-- **An entry at the end of the journal is replayed on what was loaded before it.** -/
theorem load_append {e : Entry} (hj : cfg.journaled = true) (hseq : disk.snapshotSeq cfg < e.seq)
    (h : load cfg { disk with journal := disk.journal ++ [e] } now = .ok s') :
    ∃ s s₁, load cfg disk now = .ok s ∧ applyJournalEntry cfg now s e.body = .ok s₁ ∧
      s' = { s₁ with journalSeq := e.seq } ∧ e.seq = disk.journal.length + 1 ∧ isJournalEntry e.body = true := by
  rw [load_eq] at h ⊢
  have hbase : loadBase cfg { disk with journal := disk.journal ++ [e] } now = loadBase cfg disk now := rfl
  rw [hbase] at h
  cases hs₀ : loadBase cfg disk now with
  | error failure => rw [hs₀] at h; cases h
  | ok s₀ =>
    rw [hs₀] at h
    simp only [Except.bind, hj, if_true, loadJournal_append] at h ⊢
    cases hs : loadJournal cfg now s₀.journalSeq disk.journal 1 s₀ with
    | error failure => rw [hs] at h; cases h
    | ok s =>
      rw [hs] at h
      simp only [loadJournal, guards_eq_ok] at h
      obtain ⟨⟨hnum, hvalid⟩, s₁, hs₁, rfl⟩ := h
      rw [replayEntry, journalSeq_loadBase hs₀, if_pos hseq] at hs₁
      exact ⟨s, s₁, rfl, hs₁, rfl, by omega, hvalid⟩

theorem load_snapped {snap : Snapshot} (hp : cfg.persisted = true)
    (hseq : cfg.journaled = true → snap.journalSeq = disk.journal.length)
    (h : load cfg { disk with snapshot := some snap } now = .ok s') :
    applyState cfg snap now = .ok s' := by
  rw [load_eq] at h
  have hbase : loadBase cfg { disk with snapshot := some snap } now = applyState cfg snap now := by
    rw [loadBase, hp]
  rw [hbase] at h
  cases hs₀ : applyState cfg snap now with
  | error failure => rw [hs₀] at h; cases h
  | ok s₀ =>
    rw [hs₀] at h
    have hseq₀ : s₀.journalSeq = snap.journalSeq := by
      obtain ⟨restored, -, rfl⟩ := applyState_eq_ok.mp hs₀
      rfl
    simp only [Except.bind] at h
    split at h
    · next hj =>
      rw [hseq₀] at h
      obtain ⟨seq, rfl, hnil, hcons⟩ := loadJournal_skip (by rw [hseq hj]; omega) h
      have hsnap := hseq hj
      have hsame : seq = snap.journalSeq := by
        cases hjournal : disk.journal with
        | nil => rw [hnil hjournal, hseq₀]
        | cons e rest =>
          have := hcons (by simp [hjournal])
          omega
      rw [hsame, ← hseq₀]
    · cases h
      rfl

theorem journalSeq_loadJournal {n : ℕ} (h : loadJournal cfg now afterSeq l n s = .ok s') :
    (l = [] → s'.journalSeq = s.journalSeq) ∧ (l ≠ [] → s'.journalSeq + 1 = n + l.length) := by
  induction l generalizing n s with
  | nil =>
    cases h
    exact ⟨fun _ => rfl, absurd rfl⟩
  | cons e rest ih =>
    simp only [loadJournal, guards_eq_ok] at h
    obtain ⟨⟨hseq, -⟩, s₁, -, h⟩ := h
    obtain ⟨hnil, hcons⟩ := ih h
    refine ⟨fun hno => (cons_ne_nil _ _ hno).elim, fun _ => ?_⟩
    rw [length_cons]
    cases rest with
    | nil =>
      rw [hnil rfl]
      simp [hseq]
    | cons e' rest =>
      have := hcons (cons_ne_nil _ _)
      omega

theorem journalSeq_load (hj : cfg.journaled = true)
    (hseq : disk.snapshotSeq cfg ≤ disk.journal.length) (h : load cfg disk now = .ok s) :
    s.journalSeq = disk.journal.length := by
  rw [load_eq] at h
  cases hs₀ : loadBase cfg disk now with
  | error failure => rw [hs₀] at h; cases h
  | ok s₀ =>
    rw [hs₀] at h
    simp only [Except.bind, hj, if_true] at h
    obtain ⟨hnil, hcons⟩ := journalSeq_loadJournal h
    cases hjournal : disk.journal with
    | nil =>
      rw [hnil hjournal, journalSeq_loadBase hs₀]
      rw [hjournal] at hseq
      exact Nat.le_zero.mp hseq
    | cons e rest =>
      have := hcons (by simp [hjournal])
      rw [hjournal] at this
      omega

theorem load_induct {P : State → Prop} (hnew : P .new)
    (hsnap : ∀ snap s, disk.snapshot = some snap → applyState cfg snap now = .ok s → P s)
    (hstep : ∀ s body s', P s → Replays cfg now s body s' → P s')
    (hseq : ∀ s seq, P s → P { s with journalSeq := seq })
    (h : load cfg disk now = .ok s) : P s := by
  have hjournal : ∀ (l : List Entry) (afterSeq n : ℕ) (s s' : State), P s →
      loadJournal cfg now afterSeq l n s = .ok s' → P s' := by
    intro l
    induction l with
    | nil =>
      intro afterSeq n s s' hs h
      cases h
      exact hs
    | cons e rest ih =>
      intro afterSeq n s s' hs h
      simp only [loadJournal, guards_eq_ok] at h
      obtain ⟨-, s₁, hs₁, h⟩ := h
      refine ih afterSeq (n + 1) _ s' (hseq s₁ e.seq ?_) h
      rw [replayEntry] at hs₁
      split at hs₁
      · exact hstep s e.body s₁ hs (replays_of_applyJournalEntry hs₁)
      · cases hs₁
        exact hs
  rw [load_eq] at h
  cases hs₀ : loadBase cfg disk now with
  | error failure => rw [hs₀] at h; cases h
  | ok s₀ =>
    rw [hs₀] at h
    have hbase : P s₀ := by
      rw [loadBase] at hs₀
      split at hs₀
      · next snap _ hdisk => exact hsnap snap s₀ hdisk hs₀
      · cases hs₀
        exact hnew
    split at h
    · exact hjournal _ _ _ _ _ hbase h
    · cases h
      exact hbase

/-! ### The time of a load -/

/-- Two states that differ in their windows. -/
def SameRows (s s' : State) : Prop := ∃ windows, s' = { s with byteWindows := windows }

theorem sameRows_noteNamespaceByteCharge (cfg : Config) (s : State) (info : Option NamespaceInfo) (size : ℕ)
    (ts : Option ℤ) (now : ℤ) : SameRows s (noteNamespaceByteCharge cfg s info size ts now) := by
  unfold noteNamespaceByteCharge
  split
  · next ts cap _ =>
    by_cases hold : ts ≤ now - OUTBOXLOG_BYTE_WINDOW_MS
    · exact ⟨s.byteWindows, if_pos hold⟩
    · exact ⟨_, if_neg hold⟩
  · exact ⟨s.byteWindows, rfl⟩

theorem deleteAll_windows (appIds : List JsString) (s : State) (windows : OrderedMap (Option JsString) Bucket) :
    appIds.foldl deleteGroupState { s with byteWindows := windows } =
      { appIds.foldl deleteGroupState s with byteWindows := windows } := by
  induction appIds generalizing s with
  | nil => rfl
  | cons appId appIds ih => exact ih (deleteGroupState s appId)

theorem applyJournalEntry_at (now' : ℤ) {s₁ : State} {body : EntryBody}
    (windows : OrderedMap (Option JsString) Bucket) (h : applyJournalEntry cfg now s body = .ok s₁) :
    ∃ windows', applyJournalEntry cfg now' { s with byteWindows := windows } body =
      .ok { s₁ with byteWindows := windows' } := by
  cases body with
  | sweep appIds =>
    cases h
    exact ⟨windows, congrArg Except.ok (deleteAll_windows appIds s windows)⟩
  | takedown appId key drop =>
    simp only [applyJournalEntry, guards_eq_ok] at h ⊢
    obtain ⟨hlen, h⟩ := h
    split at h
    · cases h
      exact ⟨windows, hlen, rfl⟩
    · cases h
      exact ⟨windows, hlen, rfl⟩
  | create appId inviteKey ns createdAt =>
    simp only [applyJournalEntry, guards_eq_ok] at h ⊢
    obtain ⟨hlen, info, hinfo, h⟩ := h
    split at h
    · next hhas =>
      cases h
      exact ⟨windows, hlen, info, hinfo, if_pos hhas⟩
    · next hhas =>
      simp only [guards_eq_ok, assertNamespaceOutboxCapacity_eq_ok] at h
      obtain ⟨hsize, hcap, rfl⟩ := h
      refine ⟨windows, hlen, info, hinfo, ?_⟩
      rw [if_neg hhas]
      simp only [guards_eq_ok, assertNamespaceOutboxCapacity_eq_ok]
      exact ⟨hsize, hcap, rfl⟩
  | append appId inviteKey ns ts type data =>
    simp only [applyJournalEntry, guards_eq_ok] at h ⊢
    obtain ⟨hlen, i, hi, info, hinfo, h⟩ := h
    split at h
    · next hfalse =>
      cases h
      exact ⟨windows, hlen, i, hi, info, hinfo, if_pos hfalse⟩
    · next htrue =>
      simp only [guards_eq_ok] at h
      obtain ⟨id, hid, hidlen, hsize, group, hgroup, u, hcheck, rfl⟩ := h
      obtain ⟨w, hw⟩ := sameRows_noteNamespaceByteCharge cfg
        (writeRow cfg (s.setGroup appId group) appId group (rowKey type id) type data (jsonSize data)) info
        (jsonSize data) ts now
      obtain ⟨w', hw'⟩ := sameRows_noteNamespaceByteCharge cfg
        (writeRow cfg (State.setGroup { s with byteWindows := windows } appId group) appId group
          (rowKey type id) type data (jsonSize data)) info (jsonSize data) ts now'
      refine ⟨w', hlen, i, hi, info, hinfo, ?_⟩
      rw [if_neg htrue]
      simp only [guards_eq_ok]
      refine ⟨id, hid, hidlen, hsize, group, hgroup, u, hcheck, ?_⟩
      rw [hw, hw']
      rfl

theorem loadJournal_at (now' : ℤ) {n : ℕ} {s₁ : State}
    (windows : OrderedMap (Option JsString) Bucket) (h : loadJournal cfg now afterSeq l n s = .ok s₁) :
    ∃ windows', loadJournal cfg now' afterSeq l n { s with byteWindows := windows } =
      .ok { s₁ with byteWindows := windows' } := by
  induction l generalizing n s windows with
  | nil =>
    cases h
    exact ⟨windows, rfl⟩
  | cons e rest ih =>
    simp only [loadJournal, guards_eq_ok] at h ⊢
    obtain ⟨hcheck, s₂, hs₂, h⟩ := h
    rw [replayEntry] at hs₂
    split at hs₂
    · next hafter =>
      obtain ⟨w, hw⟩ := applyJournalEntry_at now' windows hs₂
      obtain ⟨w', hw'⟩ := ih w h
      exact ⟨w', hcheck, _, by rw [replayEntry, if_pos hafter, hw], hw'⟩
    · next hafter =>
      cases hs₂
      obtain ⟨w', hw'⟩ := ih windows h
      exact ⟨w', hcheck, _, by rw [replayEntry, if_neg hafter]; rfl, hw'⟩

theorem load_at (now' : ℤ) (h : load cfg disk now = .ok s) : ∃ s', load cfg disk now' = .ok s' ∧ SameRows s s' := by
  rw [load_eq] at h ⊢
  have hbase : ∀ s₀, loadBase cfg disk now = .ok s₀ →
      ∃ windows, loadBase cfg disk now' = .ok { s₀ with byteWindows := windows } := by
    intro s₀ hs₀
    rw [loadBase] at hs₀ ⊢
    split at hs₀
    · obtain ⟨restored, hgroups, rfl⟩ := applyState_eq_ok.mp hs₀
      exact ⟨_, applyState_eq_ok.mpr ⟨restored, hgroups, rfl⟩⟩
    · cases hs₀
      exact ⟨_, rfl⟩
  cases hs₀ : loadBase cfg disk now with
  | error failure => rw [hs₀] at h; cases h
  | ok s₀ =>
    rw [hs₀] at h
    obtain ⟨w, hw⟩ := hbase s₀ hs₀
    rw [hw]
    simp only [Except.bind] at h ⊢
    split at h
    · next hj =>
      obtain ⟨w', hw'⟩ := loadJournal_at now' w h
      exact ⟨_, by rw [if_pos hj]; exact hw', w', rfl⟩
    · next hj =>
      cases h
      exact ⟨_, by rw [if_neg hj]; rfl, w, rfl⟩

end HiveRelay.Outbox
