import HiveRelay.Outbox.Log

/-!
# Calls of the outbox log

What a call can leave is said here once. A save ends in one of eight ways (`Saves`), and keeps everything
but the windows and the counters of the journal. Only one of the eight leaves a journal entry of a call
that throws: the entry was written and the snapshot after it was not (`Saves.torn`).

This file does not say what a group or a window holds; it only says what changes and what does not.
-/

namespace HiveRelay.Outbox

open List OrderedMap Option HiveRelay.Except

/-! ### Calls -/

inductive Call where
  | create (appId : JsString) (ns : Option JsString) (inviteKey : JsString) (created : ℤ) (io : Io)
  | append (appId type : JsString) (data : Json) (inviteKey : JsString) (created now : ℤ) (io : Io)
  | takedown (appId key : JsString) (drop : Bool) (io : Io)
  | sweep (ttlMs now : ℤ) (ios : ℕ → Io)
  | flush (io : Io)

/-- What the persistence throws; `flush` does not replace it. -/
def writeFailed : Failure := ⟨"write failed", 500⟩

def call (cfg : Config) (sys : Sys) : Call → Outcome
  | .create appId ns inviteKey created io => create cfg sys appId ns inviteKey created io
  | .append appId type data inviteKey created now io =>
    append cfg sys appId type data inviteKey created now io
  | .takedown appId key drop io => applyTakedown cfg sys appId key drop io
  | .sweep ttlMs now ios => sweepGhosts cfg sys ttlMs now ios
  | .flush io =>
    match flush cfg sys io with
    | (saved, true) => ⟨saved, .ok .flushed⟩
    | (saved, false) => ⟨saved, .error writeFailed⟩

/-! ### Windows -/

/-- A charge is in the window of a time. -/
def Charge.isAlive (charge : Charge) (t : ℤ) : Bool := decide (t - OUTBOXLOG_BYTE_WINDOW_MS < charge.ts)

/-- The charges of a namespace that are alive at a time. -/
def State.window (s : State) (key : Option JsString) (t : ℤ) : List Charge :=
  (namespaceByteBucket s key).charges.filter (·.isAlive t)

theorem charges_prune (bucket : Bucket) (now : ℤ) : (pruneNamespaceByteWindow bucket now).charges =
      bucket.charges.dropWhile fun charge => decide (charge.ts ≤ now - OUTBOXLOG_BYTE_WINDOW_MS) := by
  have hsplit := takeWhile_append_dropWhile
    (p := fun charge : Charge => decide (charge.ts ≤ now - OUTBOXLOG_BYTE_WINDOW_MS)) (l := bucket.charges)
  exact (congrArg (drop _) hsplit.symm).trans drop_left

theorem filter_dropWhile_alive (charges : List Charge) {now t : ℤ} (h : now ≤ t) :
    (charges.dropWhile fun charge => decide (charge.ts ≤ now - OUTBOXLOG_BYTE_WINDOW_MS)).filter
      (·.isAlive t) = charges.filter (·.isAlive t) := by
  induction charges with
  | nil => rfl
  | cons charge charges ih =>
    by_cases hold : charge.ts ≤ now - OUTBOXLOG_BYTE_WINDOW_MS
    · have hdead : charge.isAlive t = false := by
        simp only [Charge.isAlive, decide_eq_false_iff_not]
        omega
      rw [dropWhile_cons_of_pos (by simpa using hold), ih, filter_cons, hdead]
      rfl
    · rw [dropWhile_cons_of_neg (by simpa using hold)]

@[simp] theorem namespaceByteBucket_setBucket (s : State) (key : Option JsString) (bucket : Bucket) :
    namespaceByteBucket (s.setBucket key bucket) key = bucket := by
  simp [namespaceByteBucket, State.setBucket]

theorem namespaceByteBucket_setBucket_of_ne (s : State) {key key' : Option JsString} (bucket : Bucket)
    (h : key' ≠ key) : namespaceByteBucket (s.setBucket key bucket) key' = namespaceByteBucket s key' := by
  simp [namespaceByteBucket, State.setBucket, get?_set_of_ne h]

theorem charges_pruneWindows (s : State) (now : ℤ) (key : Option JsString) :
    (namespaceByteBucket (pruneWindows s now) key).charges = (namespaceByteBucket s key).charges.dropWhile
        fun charge => decide (charge.ts ≤ now - OUTBOXLOG_BYTE_WINDOW_MS) := by
  rw [namespaceByteBucket, pruneWindows, get?_mapValues, namespaceByteBucket]
  cases s.byteWindows.get? key with
  | none => rfl
  | some bucket => exact charges_prune bucket now

theorem window_pruneWindows (s : State) {now t : ℤ} (key : Option JsString) (h : now ≤ t) :
    (pruneWindows s now).window key t = s.window key t := by
  rw [State.window, charges_pruneWindows, filter_dropWhile_alive _ h, State.window]

/-! ### Saves -/

/-- How a save ends: what it leaves, and whether it returned. -/
inductive Saves (cfg : Config) (sys : Sys) (io : Io) : Option EntryBody → Sys → Bool → Prop
  /-- Nothing is persisted. -/
  | memory (body : Option EntryBody) (hj : cfg.journaled = false) (hp : cfg.persisted = false) :
      Saves cfg sys io body sys true
  /-- There is nothing to be written. -/
  | unchanged (hj : cfg.journaled = true) : Saves cfg sys io none sys true
  | refused (body : EntryBody) (hj : cfg.journaled = true) (hio : io.journalFails = true) :
      Saves cfg sys io (some body) sys false
  | logged (body : EntryBody) (hj : cfg.journaled = true) (hio : io.journalFails = false) :
      Saves cfg sys io (some body) (logEntry cfg sys body) true
  | checkpointed (body : EntryBody) (hj : cfg.journaled = true) (hp : cfg.persisted = true)
      (hio : io.journalFails = false) (hsave : io.saveFails = false) :
      Saves cfg sys io (some body) ((logEntry cfg sys body).snapped io.saveNow) true
  /-- The entry is in the journal, and the snapshot was not written. -/
  | torn (body : EntryBody) (hj : cfg.journaled = true) (hp : cfg.persisted = true)
      (hio : io.journalFails = false) (hsave : io.saveFails = true)
      (hdue : cfg.checkpointEvery ≤ sys.state.entriesSinceCheckpoint + 1) :
      Saves cfg sys io (some body) ((logEntry cfg sys body).pruned io.saveNow) false
  | snapped (body : Option EntryBody) (hj : cfg.journaled = false) (hp : cfg.persisted = true)
      (hsave : io.saveFails = false) :
      Saves cfg sys io body (sys.snapped io.saveNow) true
  | unsnapped (body : Option EntryBody) (hj : cfg.journaled = false) (hp : cfg.persisted = true)
      (hsave : io.saveFails = true) : Saves cfg sys io body (sys.pruned io.saveNow) false

theorem saves_of_saveState {cfg : Config} {sys saved : Sys} {body : Option EntryBody} {io : Io} {ok : Bool}
    (h : saveState cfg sys body io = (saved, ok)) : Saves cfg sys io body saved ok := by
  simp only [saveState, saveSnapshot] at h
  split at h
  · next hj =>
    cases body with
    | none =>
      cases h
      exact .unchanged hj
    | some body =>
      dsimp only at h
      split at h
      · next hio =>
        cases h
        exact .refused body hj hio
      · next hio =>
        rw [Bool.not_eq_true] at hio
        split at h
        · next hdue =>
          simp only [Bool.and_eq_true, decide_eq_true_eq] at hdue
          split at h
          · next hsave =>
            cases h
            exact .torn body hj hdue.1 hio hsave hdue.2
          · next hsave =>
            cases h
            exact .checkpointed body hj hdue.1 hio (by simpa using hsave)
        · cases h
          exact .logged body hj hio
  · next hj =>
    rw [Bool.not_eq_true] at hj
    split at h
    · next hp =>
      split at h
      · next hsave =>
        cases h
        exact .unsnapped body hj hp hsave
      · next hsave =>
        cases h
        exact .snapped body hj hp (by simpa using hsave)
    · next hp =>
      cases h
      exact .memory body hj (by simpa using hp)

/-- Two states have the same rows, events, ids and counters. -/
structure Unchanged (s s' : State) : Prop where
  groups : s'.groups = s.groups
  events : s'.appendEventsByApp = s.appendEventsByApp
  suppressed : s'.suppressed = s.suppressed
  totalBytes : s'.totalBytes = s.totalBytes
  directorySeq : s'.directorySeq = s.directorySeq
  appendSeq : s'.appendSeq = s.appendSeq

theorem Unchanged.refl (s : State) : Unchanged s s := ⟨rfl, rfl, rfl, rfl, rfl, rfl⟩

theorem Unchanged.trans {s s' s'' : State} (h : Unchanged s s') (h' : Unchanged s' s'') : Unchanged s s'' :=
  ⟨h'.groups.trans h.groups, h'.events.trans h.events, h'.suppressed.trans h.suppressed,
    h'.totalBytes.trans h.totalBytes, h'.directorySeq.trans h.directorySeq, h'.appendSeq.trans h.appendSeq⟩

theorem unchanged_pruneWindows (s : State) (now : ℤ) : Unchanged s (pruneWindows s now) := ⟨rfl, rfl, rfl, rfl, rfl, rfl⟩

theorem unchanged_logEntry (cfg : Config) (sys : Sys) (body : EntryBody) :
    Unchanged sys.state (logEntry cfg sys body).state := by
  rw [logEntry]
  split <;> exact ⟨rfl, rfl, rfl, rfl, rfl, rfl⟩

@[simp] theorem journalSeq_logEntry (cfg : Config) (sys : Sys) (body : EntryBody) :
    (logEntry cfg sys body).state.journalSeq = sys.state.journalSeq + 1 := by
  rw [logEntry]
  split <;> rfl

@[simp] theorem disk_logEntry (cfg : Config) (sys : Sys) (body : EntryBody) : (logEntry cfg sys body).disk =
      { sys.disk with journal := sys.disk.journal ++ [⟨sys.state.journalSeq + 1, body⟩] } := by
  rw [logEntry]
  split <;> rfl

@[simp] theorem window_logEntry (cfg : Config) (sys : Sys) (body : EntryBody) (key : Option JsString)
    (t : ℤ) : (logEntry cfg sys body).state.window key t = sys.state.window key t := by
  rw [logEntry]
  split <;> rfl

variable {cfg : Config} {sys saved : Sys} {body : Option EntryBody} {io : Io} {ok : Bool}

theorem Saves.frame (h : Saves cfg sys io body saved ok) : Unchanged sys.state saved.state := by
  cases h with
  | memory | unchanged | refused => exact .refl _
  | logged body => exact unchanged_logEntry cfg sys body
  | checkpointed body | torn body =>
    have hsame := unchanged_logEntry cfg sys body
    exact ⟨hsame.1, hsame.2, hsame.3, hsame.4, hsame.5, hsame.6⟩
  | snapped => exact ⟨rfl, rfl, rfl, rfl, rfl, rfl⟩
  | unsnapped => exact unchanged_pruneWindows sys.state io.saveNow

theorem Saves.window (h : Saves cfg sys io body saved ok) (key : Option JsString) {t : ℤ}
    (ht : io.saveNow ≤ t) : saved.state.window key t = sys.state.window key t := by
  cases h with
  | memory | unchanged | refused => rfl
  | logged body => exact window_logEntry cfg sys body key t
  | checkpointed body | torn body =>
    refine (window_pruneWindows _ key ht).trans ?_
    exact window_logEntry cfg sys body key t
  | snapped | unsnapped => exact window_pruneWindows sys.state key ht

theorem Saves.charges (h : Saves cfg sys io body saved ok) (key : Option JsString) :
    (namespaceByteBucket saved.state key).charges = (namespaceByteBucket sys.state key).charges ∨
      (namespaceByteBucket saved.state key).charges = (namespaceByteBucket sys.state key).charges.dropWhile
        fun charge => decide (charge.ts ≤ io.saveNow - OUTBOXLOG_BYTE_WINDOW_MS) := by
  have hlog : ∀ body, namespaceByteBucket (logEntry cfg sys body).state key = namespaceByteBucket sys.state key := by
    intro body
    rw [logEntry]
    split <;> rfl
  cases h with
  | memory | unchanged | refused => exact .inl rfl
  | logged body => exact .inl (by rw [hlog])
  | checkpointed body | torn body => exact .inr (by rw [← hlog body]; exact charges_pruneWindows _ _ key)
  | snapped | unsnapped => exact .inr (charges_pruneWindows _ _ key)

def Refuses (cfg : Config) (io : Io) : Prop :=
  cfg.journaled = true ∧ io.journalFails = true ∨ cfg.journaled = false ∧ cfg.persisted = true ∧ io.saveFails = true

theorem Saves.disk (h : Saves cfg sys io body saved ok) (hrefuses : Refuses cfg io) :
    saved.disk = sys.disk ∧ saved.state.journalSeq = sys.state.journalSeq := by
  obtain ⟨hj, hio⟩ | ⟨hj, hp, hsave⟩ := hrefuses
  · cases h <;> simp_all
  · cases h <;> simp_all [Sys.pruned, pruneWindows]

theorem Saves.journalSeq (h : Saves cfg sys io body saved false) (hrefuses : ¬ Refuses cfg io) :
    saved.state.journalSeq = sys.state.journalSeq + 1 := by
  cases h with
  | refused _ hj hio => exact absurd (.inl ⟨hj, hio⟩) hrefuses
  | torn body => exact journalSeq_logEntry cfg sys body
  | unsnapped _ hj hp hsave => exact absurd (.inr ⟨hj, hp, hsave⟩) hrefuses

theorem Saves.not_refuses {body : EntryBody} (h : Saves cfg sys io (some body) saved true) : ¬ Refuses cfg io := by
  rintro (⟨hj, hio⟩ | ⟨hj, hp, hsave⟩)
  · cases h <;> simp_all
  · cases h <;> simp_all

/-! ### Groups -/

/-- A namespace has room for one more outbox. -/
def HasCapacity (groups : OrderedMap JsString Group) (info : Option NamespaceInfo) : Prop :=
  ∀ i, info = some i → ∀ maxOutboxes, i.caps.maxOutboxes = some maxOutboxes →
    namespaceOutboxCount groups i.name < maxOutboxes

@[simp] theorem assertNamespaceOutboxCapacity_eq_ok {groups : OrderedMap JsString Group}
    {info : Option NamespaceInfo} {failure : Failure} {u : Unit} :
    assertNamespaceOutboxCapacity groups info failure = .ok u ↔ HasCapacity groups info := by
  cases info with
  | none => simp [assertNamespaceOutboxCapacity, HasCapacity]
  | some i => cases hmax : i.caps.maxOutboxes <;> simp [assertNamespaceOutboxCapacity, HasCapacity, hmax]

/-- What `ensureGroup` returns. -/
inductive Ensured (cfg : Config) (s : State) (appId : JsString) (info : Option NamespaceInfo)
    (inviteKey : JsString) (now : ℤ) : Group → Prop
  | created (hnone : s.groups.get? appId = none) (hsize : s.groups.size < cfg.maxGroups)
      (hcap : HasCapacity s.groups info) :
      Ensured cfg s appId info inviteKey now
        { inviteKey := inviteKey
          rows := .empty
          version := 0
          directorySeq := 0
          ns := info.map NamespaceInfo.name
          createdAt := some now }
  | found (previous : Group) (hget : s.groups.get? appId = some previous)
      (hns : ∀ i, info = some i → previous.ns = some i.name) :
      Ensured cfg s appId info inviteKey now previous
  | bound (previous : Group) (i : NamespaceInfo) (hget : s.groups.get? appId = some previous)
      (hinfo : info = some i) (hns : previous.ns = none) (hcap : HasCapacity s.groups info) :
      Ensured cfg s appId info inviteKey now { previous with ns := some i.name }

theorem ensured_of_ensureGroup {s : State} {appId inviteKey : JsString}
    {info : Option NamespaceInfo} {now : ℤ} {group : Group}
    (h : ensureGroup cfg s appId info inviteKey now = .ok group) :
    (appId ≠ [] ∧ appId.length ≤ cfg.maxAppIdLength) ∧ Ensured cfg s appId info inviteKey now group := by
  simp only [ensureGroup, guards_eq_ok] at h
  obtain ⟨⟨hne, hlen⟩, h⟩ := h
  refine ⟨⟨fun hnil => ?_, hlen⟩, ?_⟩
  · rw [hnil] at hne
    cases hne
  cases hget : s.groups.get? appId with
  | none =>
    simp only [hget, guards_eq_ok, assertNamespaceOutboxCapacity_eq_ok] at h
    obtain ⟨hsize, hcap, rfl⟩ := h
    exact .created hget hsize hcap
  | some previous =>
    simp only [hget, bindGroupNamespace] at h
    cases info with
    | none =>
      rw [pure_eq_ok_iff] at h
      subst h
      exact .found previous hget (by simp)
    | some i =>
      dsimp only at h
      split at h
      · next name hname =>
        simp only [guards_eq_ok] at h
        obtain ⟨rfl, rfl⟩ := h
        refine .found previous hget fun i' hi' => ?_
        rw [← some.inj hi', hname]
      · next hname =>
        simp only [guards_eq_ok, assertNamespaceOutboxCapacity_eq_ok] at h
        obtain ⟨hcap, rfl⟩ := h
        exact .bound previous i hget rfl hname hcap

variable {s s₁ : State} {appId inviteKey key type : JsString} {info : Option NamespaceInfo} {now : ℤ}
  {group : Group} {data : Json} {size : ℕ}

theorem Ensured.previous (h : Ensured cfg s appId info inviteKey now group) {previous : Group}
    (hget : s.groups.get? appId = some previous) : group = { previous with ns := group.ns } := by
  cases h with
  | created hnone =>
    rw [hnone] at hget
    cases hget
  | found _ hget' | bound _ i hget' =>
    rw [hget', some.injEq] at hget
    rw [hget]

theorem unchanged_undoCreate (h : Ensured cfg s appId info inviteKey now group)
    (hsame : Unchanged (s.setGroup appId group) s₁) : Unchanged s (undoCreate s₁ appId (s.groups.get? appId)) := by
  obtain ⟨hgroups, hevents, hsuppressed, htotal, hdir, happend⟩ := hsame
  rw [State.setGroup] at hgroups
  cases hget : s.groups.get? appId with
  | none =>
    refine ⟨?_, hevents, hsuppressed, htotal, hdir, happend⟩
    rw [undoCreate, hgroups]
    exact set_delete_of_get?_eq_none hget
  | some previous =>
    have hgroup : s₁.groups.get? appId = some group := by rw [hgroups, get?_set_self]
    simp only [undoCreate, hgroup]
    refine ⟨?_, hevents, hsuppressed, htotal, hdir, happend⟩
    rw [State.setGroup, hgroups, OrderedMap.set_set, h.previous hget]
    exact set_of_get? hget

def writtenGroup (s : State) (appId : JsString) (group : Group) (key : JsString) (data : Json) : Group :=
  { group with
    rows := group.rows.set key data
    version := group.version + 1
    directorySeq := if key = headKey appId then s.directorySeq + 1 else group.directorySeq }

theorem groups_writeRow : (writeRow cfg s appId group key type data size).groups =
    s.groups.set appId (writtenGroup s appId group key data) := by
  by_cases hhead : key = headKey appId <;> simp [writeRow, rememberAppendEvent, State.setGroup, writtenGroup, hhead]

variable {tracked : Bool}

/-- **The rows of an append that throws at its save are undone.** -/
theorem unchanged_undoAppend (h : Ensured cfg s appId info inviteKey now group)
    (hsame : Unchanged (writeRow cfg (s.setGroup appId group) appId group key type data size) s₁) :
    Unchanged s (undoAppend s₁ s appId group key info tracked size) := by
  obtain ⟨hgroups, hevents, hsuppressed, htotal, -, -⟩ := hsame
  rw [groups_writeRow, State.setGroup, OrderedMap.set_set] at hgroups
  refine ⟨?_, ?_, hsuppressed, ?_, rfl, rfl⟩
  · cases hget : s.groups.get? appId with
    | none =>
      simp only [undoAppend, hget, hgroups]
      exact set_delete_of_get?_eq_none hget
    | some previous =>
      simp only [undoAppend, hget, hgroups, get?_set_self, OrderedMap.set_set]
      refine (congrArg (s.groups.set appId) ?_).trans (set_of_get? hget)
      rw [h.previous hget]
      cases hrow : previous.rows.get? key with
      | none => simp [writtenGroup, set_delete_of_get?_eq_none hrow]
      | some old => simp [writtenGroup, OrderedMap.set_set, set_of_get? hrow]
  · rw [undoAppend]
    rw [hevents]
    simp only [writeRow, rememberAppendEvent, State.setGroup]
    cases hget : s.appendEventsByApp.get? appId with
    | none => exact set_delete_of_get?_eq_none hget
    | some events =>
      dsimp only
      rw [OrderedMap.set_set]
      exact set_of_get? hget
  · rw [undoAppend]
    rw [htotal]
    simp only [writeRow, rememberAppendEvent, State.setGroup]
    omega

/-! ### Appends -/

/-- What the checks of an append leave and return. -/
inductive Admits (cfg : Config) (s : State) (key : JsString) (group : Group) (checked : CheckedAppend)
    (now : ℤ) : State → Except Failure Bool → Prop
  | full (failure : Failure) : Admits cfg s key group checked now s (.error failure)
  | over (failure : Failure) : Admits cfg s key group checked now
      (s.setBucket (checked.info.map NamespaceInfo.name)
        (pruneNamespaceByteWindow (namespaceByteBucket s (checked.info.map NamespaceInfo.name)) now))
      (.error failure)
  | untracked (hbudget : byteBudget cfg checked.info = none)
      (hrows : group.rows.get? key = none →
        group.rows.size < namespaceCap checked.info NamespaceCaps.maxEntriesPerOutbox cfg.maxRowsPerGroup)
      (hbytes : oldSize group key < checked.size →
        s.totalBytes - oldSize group key + checked.size ≤ cfg.maxTotalBytes) :
      Admits cfg s key group checked now s (.ok false)
  | tracked (cap : ℕ) (hbudget : byteBudget cfg checked.info = some cap)
      (hrows : group.rows.get? key = none →
        group.rows.size < namespaceCap checked.info NamespaceCaps.maxEntriesPerOutbox cfg.maxRowsPerGroup)
      (hbytes : oldSize group key < checked.size →
        s.totalBytes - oldSize group key + checked.size ≤ cfg.maxTotalBytes)
      (hfits : (pruneNamespaceByteWindow (namespaceByteBucket s (checked.info.map NamespaceInfo.name))
        now).total + checked.size ≤ cap) :
      Admits cfg s key group checked now (s.setBucket (checked.info.map NamespaceInfo.name)
          (pruneNamespaceByteWindow (namespaceByteBucket s (checked.info.map NamespaceInfo.name)) now))
        (.ok true)

variable {checked : CheckedAppend} {admitted : State} {result : Except Failure Bool}

theorem admits_of_admitAppend (h : admitAppend cfg s appId group key checked now = (admitted, result)) :
    Admits cfg (s.setGroup appId group) key group checked now admitted result := by
  simp only [admitAppend] at h
  split at h
  · next failure hcheck =>
    cases h
    exact .full failure
  · next hcheck =>
    simp only [checkCapacity, guards_eq_ok] at hcheck
    obtain ⟨hrows, hbytes⟩ := hcheck
    simp only [assertNamespaceByteBudget] at h
    split at h
    · next hbudget =>
      cases h
      exact .untracked hbudget hrows hbytes
    · next cap hbudget =>
      cases h
      split
      · exact .over _
      · next hfits => exact .tracked cap hbudget hrows hbytes (not_lt.mp hfits)

theorem Admits.frame (h : Admits cfg s key group checked now admitted result) : Unchanged s admitted := by
  cases h <;> exact ⟨rfl, rfl, rfl, rfl, rfl, rfl⟩

theorem window_setBucket (s : State) (key key' : Option JsString) (bucket : Bucket) (t : ℤ) :
    (s.setBucket key bucket).window key' t =
      if key' = key then bucket.charges.filter (·.isAlive t) else s.window key' t := by
  by_cases hkey : key' = key
  · rw [hkey, if_pos rfl, State.window, namespaceByteBucket_setBucket]
  · rw [if_neg hkey, State.window, namespaceByteBucket_setBucket_of_ne s bucket hkey, State.window]

theorem Admits.window (h : Admits cfg s key group checked now admitted result) (k : Option JsString) {t : ℤ}
    (ht : now ≤ t) : admitted.window k t = s.window k t := by
  have hset : (s.setBucket (checked.info.map NamespaceInfo.name) (pruneNamespaceByteWindow
      (namespaceByteBucket s (checked.info.map NamespaceInfo.name)) now)).window k t = s.window k t := by
    rw [window_setBucket]
    split
    · next hk => rw [charges_prune, filter_dropWhile_alive _ ht, hk, State.window]
    · rfl
  rcases h with _ | _ | _ | _
  · rfl
  · exact hset
  · rfl
  · exact hset

theorem Unchanged.writeRow {s' : State} (h : Unchanged s s') (cfg : Config) (appId : JsString) (group : Group)
    (key type : JsString) (data : Json) (size : ℕ) :
    Unchanged (writeRow cfg s appId group key type data size) (writeRow cfg s' appId group key type data size) := by
  obtain ⟨hgroups, hevents, hsuppressed, htotal, hdir, happend⟩ := h
  constructor <;>
    simp [Outbox.writeRow, rememberAppendEvent, State.setGroup, hgroups, hevents, hsuppressed, htotal, hdir, happend]

theorem unchanged_applyAppend : Unchanged (writeRow cfg s appId group key type data checked.size)
    (applyAppend cfg s appId group key type data checked tracked now) := by
  cases tracked <;> exact ⟨rfl, rfl, rfl, rfl, rfl, rfl⟩

theorem charges_applyAppend (k : Option JsString) :
    (namespaceByteBucket (applyAppend cfg s appId group key type data checked tracked now) k).charges =
      if tracked = true ∧ k = checked.info.map NamespaceInfo.name then
        (namespaceByteBucket s k).charges ++ [⟨now, checked.size⟩]
      else (namespaceByteBucket s k).charges := by
  cases tracked with
  | false => rfl
  | true =>
    by_cases hk : k = checked.info.map NamespaceInfo.name
    · rw [if_pos ⟨rfl, hk⟩, hk, applyAppend, if_pos rfl, namespaceByteBucket_setBucket]
      rfl
    · rw [if_neg fun hboth => hk hboth.2, applyAppend, if_pos rfl, namespaceByteBucket_setBucket_of_ne _ _ hk]
      rfl

theorem filter_dropLast_dropWhile (charges : List Charge) (last : Charge) {t : ℤ} (h : now ≤ t) :
    ((charges ++ [last]).dropWhile fun charge =>
        decide (charge.ts ≤ now - OUTBOXLOG_BYTE_WINDOW_MS)).dropLast.filter (·.isAlive t) =
      charges.filter (·.isAlive t) := by
  rw [dropWhile_append]
  split
  · next hempty =>
    rw [← filter_dropWhile_alive charges h, isEmpty_iff.mp hempty]
    by_cases hold : last.ts ≤ now - OUTBOXLOG_BYTE_WINDOW_MS <;> simp [hold]
  · rw [dropLast_concat, filter_dropWhile_alive charges h]

theorem charges_uncharge (bucket : Bucket) :
    (unchargeNamespaceByteBucket bucket).charges = bucket.charges.dropLast := by
  rw [unchargeNamespaceByteBucket]
  split
  · next hlast =>
    rw [getLast?_eq_none_iff] at hlast
    simp [hlast]
  · rfl

/-- **The charge of an append that throws at its save is undone.** -/
theorem window_undoAppend {disk : Disk} {before : State}
    (hsaved : Saves cfg ⟨applyAppend cfg s appId group key type data checked tracked now, disk⟩ io body saved ok)
    (k : Option JsString) {t : ℤ} (ht : io.saveNow ≤ t) :
    (undoAppend saved.state before appId group key checked.info tracked checked.size).window k t =
      s.window k t := by
  have hundone : namespaceByteBucket
      (undoAppend saved.state before appId group key checked.info tracked checked.size) k =
        if tracked = true ∧ k = checked.info.map NamespaceInfo.name then
          unchargeNamespaceByteBucket (namespaceByteBucket saved.state k)
        else namespaceByteBucket saved.state k := by
    cases tracked with
    | false => rfl
    | true =>
      by_cases hk : k = checked.info.map NamespaceInfo.name
      · rw [if_pos ⟨rfl, hk⟩, hk, namespaceByteBucket, undoAppend]
        simp
      · rw [if_neg fun hboth => hk hboth.2, namespaceByteBucket, undoAppend]
        simp [get?_set_of_ne hk, namespaceByteBucket]
  have hcharges := hsaved.charges k
  rw [charges_applyAppend] at hcharges
  rw [State.window, hundone, State.window]
  split at hcharges
  · next hboth =>
    rw [if_pos hboth, charges_uncharge]
    rcases hcharges with heq | heq
    · rw [heq, dropLast_concat]
    · rw [heq, filter_dropLast_dropWhile _ _ ht]
  · next hboth =>
    rw [if_neg hboth]
    rcases hcharges with heq | heq
    · rw [heq]
    · rw [heq, filter_dropWhile_alive _ ht]

theorem window_setGroup (s : State) (appId : JsString) (group : Group) (k : Option JsString) (t : ℤ) :
    (s.setGroup appId group).window k t = s.window k t := rfl

theorem append_undone {disk : Disk} {created : ℤ} (hens : Ensured cfg s appId checked.info inviteKey created group)
    (hadmits : Admits cfg (s.setGroup appId group) key group checked now admitted (.ok tracked))
    (hsaved : Saves cfg ⟨applyAppend cfg admitted appId group key type data checked tracked now, disk⟩ io body
      saved ok) :
    Unchanged s (undoAppend saved.state s appId group key checked.info tracked checked.size) ∧
      ∀ k t, now ≤ t → io.saveNow ≤ t →
        (undoAppend saved.state s appId group key checked.info tracked checked.size).window k t =
          s.window k t := by
  refine ⟨?_, fun k t hnow hsave => ?_⟩
  · have hrow := hadmits.frame.writeRow cfg appId group key type data checked.size
    exact unchanged_undoAppend hens ((hrow.trans unchanged_applyAppend).trans hsaved.frame)
  · rw [window_undoAppend hsaved k hsave, hadmits.window k hnow, window_setGroup]

/-! ### Sweeps -/

def HasSuppressed (s : State) (appId : JsString) : Prop :=
  ∃ composite, s.suppressed.has composite = true ∧ (appId ++ [0]).isPrefixOf composite = true

theorem groups_deleteAll (appIds : List JsString) (s : State) (k : JsString) :
    (appIds.foldl deleteGroupState s).groups.get? k = if k ∈ appIds then none else s.groups.get? k := by
  induction appIds generalizing s with
  | nil => simp
  | cons appId appIds ih =>
    rw [foldl_cons, ih, deleteGroupState, get?_delete]
    by_cases hk : k = appId <;> simp [hk]

theorem events_deleteAll (appIds : List JsString) (s : State) (k : JsString) :
    (appIds.foldl deleteGroupState s).appendEventsByApp.get? k =
      if k ∈ appIds then none else s.appendEventsByApp.get? k := by
  induction appIds generalizing s with
  | nil => simp
  | cons appId appIds ih =>
    rw [foldl_cons, ih, deleteGroupState, get?_delete]
    by_cases hk : k = appId <;> simp [hk]

theorem suppressed_deleteAll (appIds : List JsString) (s : State) (composite : JsString) :
    (appIds.foldl deleteGroupState s).suppressed.has composite =
      (s.suppressed.has composite && !appIds.any fun appId => (appId ++ [0]).isPrefixOf composite) := by
  induction appIds generalizing s with
  | nil => simp
  | cons appId appIds ih =>
    rw [foldl_cons, ih, deleteGroupState, any_cons]
    rw [has, get?_filter, has]
    cases s.suppressed.get? composite <;> cases (appId ++ [0]).isPrefixOf composite <;> simp

theorem rest_deleteAll (appIds : List JsString) (s : State) :
    (appIds.foldl deleteGroupState s).byteWindows = s.byteWindows ∧
      (appIds.foldl deleteGroupState s).totalBytes = s.totalBytes ∧
      (appIds.foldl deleteGroupState s).directorySeq = s.directorySeq ∧
      (appIds.foldl deleteGroupState s).appendSeq = s.appendSeq ∧
      (appIds.foldl deleteGroupState s).journalSeq = s.journalSeq := by
  induction appIds generalizing s with
  | nil => exact ⟨rfl, rfl, rfl, rfl, rfl⟩
  | cons appId appIds ih =>
    exact ih (deleteGroupState s appId)

theorem mem_keptGroups {groups : OrderedMap JsString Group} {batch : List JsString} {e : JsString × Group} :
    e ∈ (batch.filterMap fun appId => (groups.get? appId).map fun group => (appId, group)) ↔
      e.1 ∈ batch ∧ groups.get? e.1 = some e.2 := by
  simp only [mem_filterMap, map_eq_some_iff]
  constructor
  · rintro ⟨appId, hmem, group, hget, rfl⟩
    exact ⟨hmem, hget⟩
  · rintro ⟨hmem, hget⟩
    exact ⟨e.1, hmem, e.2, hget, rfl⟩

theorem groups_putBack (s : State) (l : List (JsString × Group)) (k : JsString)
    (hsame : ∀ e ∈ l, ∀ e' ∈ l, e.1 = e'.1 → e.2 = e'.2) :
    (∀ e ∈ l, e.1 = k → (putBack s l).groups.get? k = some e.2) ∧
      ((∀ e ∈ l, e.1 ≠ k) → (putBack s l).groups.get? k = s.groups.get? k) := by
  induction l using reverseRecOn with
  | nil =>
    refine ⟨fun e he => ?_, fun _ => rfl⟩
    cases he
  | append_singleton l last ih =>
    have hlast : putBack s (l ++ [last]) = (putBack s l).setGroup last.1 last.2 := by
      rw [putBack, foldl_concat, putBack]
    have hsame' : ∀ e ∈ l, ∀ e' ∈ l, e.1 = e'.1 → e.2 = e'.2 := fun e he e' he' =>
      hsame e (mem_append_left _ he) e' (mem_append_left _ he')
    rw [hlast, State.setGroup, get?_set]
    constructor
    · intro e he hk
      by_cases hlast' : k = last.1
      · rw [if_pos hlast', hsame e he last (by simp) (hk.trans hlast')]
      · rw [if_neg hlast']
        refine (ih hsame').1 e ?_ hk
        rcases mem_append.mp he with he | he
        · exact he
        · rw [mem_singleton.mp he] at hk
          exact absurd hk.symm hlast'
    · intro hne
      rw [if_neg fun hk => hne last (by simp) hk.symm]
      exact (ih hsame').2 fun e he => hne e (mem_append_left _ he)

/-- **The groups of a batch whose save throws are put back.** -/
theorem groups_sweep_back (s s₁ : State) (batch : List JsString)
    (hgroups : s₁.groups = (batch.foldl deleteGroupState s).groups) (k : JsString) :
    (putBack s₁ (batch.filterMap fun appId =>
      (s.groups.get? appId).map fun group => (appId, group))).groups.get? k = s.groups.get? k := by
  have hsame : ∀ e ∈ (batch.filterMap fun appId => (s.groups.get? appId).map fun group => (appId, group)),
      ∀ e' ∈ (batch.filterMap fun appId => (s.groups.get? appId).map fun group => (appId, group)),
        e.1 = e'.1 → e.2 = e'.2 := by
    intro e he e' he' heq
    have h := (mem_keptGroups.mp he).2
    rw [heq, (mem_keptGroups.mp he').2] at h
    exact (some.inj h).symm
  obtain ⟨hin, hout⟩ := groups_putBack s₁ _ k hsame
  by_cases hk : k ∈ batch
  · cases hget : s.groups.get? k with
    | some group => exact hin (k, group) (mem_keptGroups.mpr ⟨hk, hget⟩) rfl
    | none =>
      rw [hout, hgroups, groups_deleteAll, if_pos hk]
      rintro e he rfl
      rw [(mem_keptGroups.mp he).2] at hget
      cases hget
  · rw [hout, hgroups, groups_deleteAll, if_neg hk]
    rintro e he rfl
    exact hk (mem_keptGroups.mp he).1

theorem rest_putBack (s : State) (l : List (JsString × Group)) :
    ∃ groups, putBack s l = { s with groups := groups } := by
  induction l using reverseRecOn with
  | nil => exact ⟨s.groups, rfl⟩
  | append_singleton l last ih =>
    obtain ⟨groups, heq⟩ := ih
    rw [putBack, foldl_concat, ← putBack, heq]
    exact ⟨groups.set last.1 last.2, rfl⟩

/-- What a sweep does: a batch is saved and the rest is swept, or the save throws and it is put back. -/
inductive Sweeps (cfg : Config) (ios : ℕ → Io) : ℕ → List JsString → Sys → Sys → Except Failure ℕ → Prop
  | done (i : ℕ) (appIds : List JsString) (sys : Sys) (swept : ℕ) : Sweeps cfg ios i appIds sys sys (.ok swept)
  | back (i : ℕ) (appIds : List JsString) (sys saved : Sys) (hne : appIds ≠ [])
      (hsaved : Saves cfg ⟨(appIds.take SWEEP_JOURNAL_BATCH).foldl deleteGroupState sys.state, sys.disk⟩ (ios i)
        (some (.sweep (appIds.take SWEEP_JOURNAL_BATCH))) saved false) :
      Sweeps cfg ios i appIds sys
        { saved with
          state := putBack saved.state ((appIds.take SWEEP_JOURNAL_BATCH).filterMap fun appId =>
            (sys.state.groups.get? appId).map fun group => (appId, group)) }
        (.error persistenceFailed)
  | next (i : ℕ) (appIds : List JsString) (sys saved after : Sys) (result : Except Failure ℕ)
      (hne : appIds ≠ [])
      (hsaved : Saves cfg ⟨(appIds.take SWEEP_JOURNAL_BATCH).foldl deleteGroupState sys.state, sys.disk⟩ (ios i)
        (some (.sweep (appIds.take SWEEP_JOURNAL_BATCH))) saved true)
      (hrest : Sweeps cfg ios (i + 1) (appIds.drop SWEEP_JOURNAL_BATCH) saved after result) :
      Sweeps cfg ios i appIds sys after result

theorem sweeps_of_sweepBatches {ios : ℕ → Io} {fuel i swept : ℕ} {appIds : List JsString} {after : Sys}
    {result : Except Failure ℕ} (h : sweepBatches cfg ios fuel i appIds sys swept = (after, result)) :
    Sweeps cfg ios i appIds sys after result := by
  induction fuel generalizing i appIds sys swept with
  | zero =>
    cases h
    exact .done i appIds _ swept
  | succ fuel ih =>
    rw [sweepBatches] at h
    split at h
    · cases h
      exact .done i appIds _ swept
    · next hne =>
      have hne : appIds ≠ [] := by simpa using hne
      dsimp only at h
      split at h
      · next saved hsave => exact .next i appIds sys saved after result hne (saves_of_saveState hsave) (ih h)
      · next saved hsave =>
        cases h
        exact .back i appIds sys saved hne (saves_of_saveState hsave)

theorem Sweeps.absent {ios : ℕ → Io} {i : ℕ} {appIds : List JsString} {after : Sys}
    {result : Except Failure ℕ} (h : Sweeps cfg ios i appIds sys after result) {k : JsString}
    (habsent : sys.state.groups.get? k = none) : after.state.groups.get? k = none := by
  induction h with
  | done => exact habsent
  | back i appIds sys saved hne hsaved =>
    rw [groups_sweep_back sys.state saved.state _ hsaved.frame.groups]
    exact habsent
  | next i appIds sys saved after result hne hsaved _ ih =>
    refine ih ?_
    rw [hsaved.frame.groups, groups_deleteAll]
    split
    · rfl
    · exact habsent

/-! ### What a call can leave -/

theorem ensured_of_planCreate {ns : Option JsString} (h : planCreate cfg s appId ns inviteKey now = .ok group) :
    ∃ info, namespaceInfoForCreate cfg ns = .ok info ∧ Ensured cfg s appId info inviteKey now group := by
  simp only [planCreate, bind_eq_ok] at h
  obtain ⟨info, hinfo, h⟩ := h
  exact ⟨info, hinfo, (ensured_of_ensureGroup h).2⟩

theorem ensured_of_planAppend {created : ℤ}
    (h : planAppend cfg s appId type data inviteKey created = .ok (checked, group)) :
    checkAppend cfg appId type data = .ok checked ∧ Ensured cfg s appId checked.info inviteKey created group := by
  simp only [planAppend, guards_eq_ok, Prod.mk.injEq] at h
  obtain ⟨checked', hchecked, group', hgroup, rfl, rfl⟩ := h
  exact ⟨hchecked, (ensured_of_ensureGroup hgroup).2⟩

/-- What an append has passed before it looks at the state. -/
structure Passed (cfg : Config) (appId type : JsString) (data : Json) (checked : CheckedAppend) : Prop where
  typeLength : type.length ≤ 64
  info : namespaceInfoForAppend cfg data = .ok checked.info
  id : (recordId data).bind toText = some checked.id
  idLength : checked.id.length ≤ cfg.maxIdLength
  size : checked.size = jsonSize data
  valueBytes : jsonSize data ≤ namespaceCap checked.info NamespaceCaps.maxValueBytes cfg.maxValueBytes
  verified : verdict cfg appId type data checked.info = .verified

theorem passed_of_checkAppend (h : checkAppend cfg appId type data = .ok checked) :
    Passed cfg appId type data checked := by
  simp only [checkAppend, guards_eq_ok] at h
  obtain ⟨htype, id, hid, info, hinfo, text, htext, hlen, hsize, -, hverified, rfl⟩ := h
  exact ⟨htype, hinfo, by rw [hid]; exact htext, hlen, rfl, hsize, hverified⟩

/-- The entry of a `create`, if the group is new. -/
def createEntry (s : State) (appId : JsString) (group : Group) : Option EntryBody :=
  if (s.groups.get? appId).isSome then none
  else some (.create appId group.inviteKey group.ns group.createdAt)

/-- What `create` can leave. -/
inductive Creates (cfg : Config) (sys : Sys) (appId : JsString) (ns : Option JsString) (inviteKey : JsString)
    (created : ℤ) (io : Io) : Outcome → Prop
  | rejected (failure : Failure) (hplan : planCreate cfg sys.state appId ns inviteKey created = .error failure) :
      Creates cfg sys appId ns inviteKey created io ⟨sys, .error failure⟩
  | saved (group : Group) (saved : Sys)
      (hplan : planCreate cfg sys.state appId ns inviteKey created = .ok group)
      (hsaved : Saves cfg ⟨sys.state.setGroup appId group, sys.disk⟩ io (createEntry sys.state appId group)
        saved true) :
      Creates cfg sys appId ns inviteKey created io ⟨saved, .ok (.created group.inviteKey)⟩
  | undone (group : Group) (saved : Sys)
      (hplan : planCreate cfg sys.state appId ns inviteKey created = .ok group)
      (hsaved : Saves cfg ⟨sys.state.setGroup appId group, sys.disk⟩ io (createEntry sys.state appId group)
        saved false) :
      Creates cfg sys appId ns inviteKey created io
        ⟨{ saved with state := undoCreate saved.state appId (sys.state.groups.get? appId) }, .error persistenceFailed⟩

theorem creates (cfg : Config) (sys : Sys) (appId : JsString) (ns : Option JsString) (inviteKey : JsString)
    (created : ℤ) (io : Io) : Creates cfg sys appId ns inviteKey created io
      (create cfg sys appId ns inviteKey created io) := by
  rw [create]
  split
  · next failure hplan => exact .rejected failure hplan
  · next group hplan =>
    dsimp only
    split
    · next saved hsave => exact .saved group saved hplan (saves_of_saveState hsave)
    · next saved hsave => exact .undone group saved hplan (saves_of_saveState hsave)

/-- What `append` can leave. -/
inductive Appends (cfg : Config) (sys : Sys) (appId type : JsString) (data : Json) (inviteKey : JsString)
    (created now : ℤ) (io : Io) : Outcome → Prop
  | rejected (failure : Failure)
      (hplan : planAppend cfg sys.state appId type data inviteKey created = .error failure) :
      Appends cfg sys appId type data inviteKey created now io ⟨sys, .error failure⟩
  /-- The group was ensured, and a check of the state failed after it. -/
  | refused (checked : CheckedAppend) (group : Group) (admitted : State) (failure : Failure)
      (hplan : planAppend cfg sys.state appId type data inviteKey created = .ok (checked, group))
      (hpassed : admitAppend cfg sys.state appId group (rowKey type checked.id) checked now =
        (admitted, .error failure)) :
      Appends cfg sys appId type data inviteKey created now io ⟨{ sys with state := admitted }, .error failure⟩
  | saved (checked : CheckedAppend) (group : Group) (admitted : State) (tracked : Bool) (saved : Sys)
      (hplan : planAppend cfg sys.state appId type data inviteKey created = .ok (checked, group))
      (hpassed : admitAppend cfg sys.state appId group (rowKey type checked.id) checked now = (admitted, .ok tracked))
      (hsaved : Saves cfg
        ⟨applyAppend cfg admitted appId group (rowKey type checked.id) type data checked tracked now, sys.disk⟩
        io (some (journalAppendEntry appId group type data now)) saved true) :
      Appends cfg sys appId type data inviteKey created now io ⟨saved, .ok (.appended (rowKey type checked.id))⟩
  | undone (checked : CheckedAppend) (group : Group) (admitted : State) (tracked : Bool) (saved : Sys)
      (hplan : planAppend cfg sys.state appId type data inviteKey created = .ok (checked, group))
      (hpassed : admitAppend cfg sys.state appId group (rowKey type checked.id) checked now = (admitted, .ok tracked))
      (hsaved : Saves cfg
        ⟨applyAppend cfg admitted appId group (rowKey type checked.id) type data checked tracked now, sys.disk⟩
        io (some (journalAppendEntry appId group type data now)) saved false) :
      Appends cfg sys appId type data inviteKey created now io
        ⟨{ saved with
            state := undoAppend saved.state sys.state appId group (rowKey type checked.id) checked.info tracked
              checked.size },
          .error persistenceFailed⟩

theorem appends (cfg : Config) (sys : Sys) (appId type : JsString) (data : Json) (inviteKey : JsString)
    (created now : ℤ) (io : Io) : Appends cfg sys appId type data inviteKey created now io
      (append cfg sys appId type data inviteKey created now io) := by
  rw [append]
  split
  · next failure hplan => exact .rejected failure hplan
  · next checked group hplan =>
    dsimp only
    split
    · next admitted failure hpassed => exact .refused checked group admitted failure hplan hpassed
    · next admitted tracked hpassed =>
      split
      · next saved hsave => exact .saved checked group admitted tracked saved hplan hpassed (saves_of_saveState hsave)
      · next saved hsave =>
        exact .undone checked group admitted tracked saved hplan hpassed (saves_of_saveState hsave)

/-- What `applyTakedown` can leave. -/
inductive Takes (cfg : Config) (sys : Sys) (appId key : JsString) (drop : Bool) (io : Io) : Outcome → Prop
  | rejected (failure : Failure) (hkey : suppressionKey cfg appId key = none) :
      Takes cfg sys appId key drop io ⟨sys, .error failure⟩
  | same (composite : JsString) (hkey : suppressionKey cfg appId key = some composite)
      (hsame : drop = sys.state.suppressed.has composite) :
      Takes cfg sys appId key drop io ⟨sys, .ok (.suppressed drop)⟩
  | saved (composite : JsString) (saved : Sys) (hkey : suppressionKey cfg appId key = some composite)
      (hother : drop ≠ sys.state.suppressed.has composite)
      (hsaved : Saves cfg ⟨sys.state.suppress composite drop, sys.disk⟩ io (some (.takedown appId key drop))
        saved true) :
      Takes cfg sys appId key drop io ⟨saved, .ok (.suppressed drop)⟩
  | undone (composite : JsString) (saved : Sys) (hkey : suppressionKey cfg appId key = some composite)
      (hother : drop ≠ sys.state.suppressed.has composite)
      (hsaved : Saves cfg ⟨sys.state.suppress composite drop, sys.disk⟩ io (some (.takedown appId key drop))
        saved false) :
      Takes cfg sys appId key drop io
        ⟨{ saved with state := saved.state.suppress composite (!drop) }, .error persistenceFailed⟩

theorem takes (cfg : Config) (sys : Sys) (appId key : JsString) (drop : Bool) (io : Io) :
    Takes cfg sys appId key drop io (applyTakedown cfg sys appId key drop io) := by
  rw [applyTakedown]
  split
  · next hkey => exact .rejected _ hkey
  · next composite hkey =>
    split
    · next hsame => exact .same composite hkey hsame
    · next hother =>
      split
      · next saved hsave => exact .saved composite saved hkey hother (saves_of_saveState hsave)
      · next saved hsave => exact .undone composite saved hkey hother (saves_of_saveState hsave)

def sweepVictims (s : State) (ttlMs now : ℤ) : List JsString :=
  victims s (now - if 0 ≤ ttlMs then ttlMs else DEFAULT_SWEEP_TTL_MS)

theorem sweeps (cfg : Config) (sys : Sys) (ttlMs now : ℤ) (ios : ℕ → Io) :
    ∃ result, Sweeps cfg ios 0 (sweepVictims sys.state ttlMs now) sys (sweepGhosts cfg sys ttlMs now ios).sys result ∧
      ((sweepGhosts cfg sys ttlMs now ios).result.toOption = none ↔ result.toOption = none) := by
  rw [sweepGhosts]
  split
  · next after count h => exact ⟨.ok count, sweeps_of_sweepBatches h, by simp [Except.toOption]⟩
  · next after failure h => exact ⟨.error failure, sweeps_of_sweepBatches h, by simp [Except.toOption]⟩

/-- What `flush` can leave. -/
inductive Flushes (cfg : Config) (sys : Sys) (io : Io) : Sys → Bool → Prop
  | clean : Flushes cfg sys io sys true
  | snapped (hp : cfg.persisted = true) : Flushes cfg sys io (sys.snapped io.saveNow) true
  | unsnapped (hp : cfg.persisted = true) : Flushes cfg sys io (sys.pruned io.saveNow) false

theorem flushes {after : Sys} (h : flush cfg sys io = (after, ok)) : Flushes cfg sys io after ok := by
  rw [flush] at h
  split at h
  · next hdue =>
    simp only [Bool.and_eq_true] at hdue
    rw [saveSnapshot] at h
    split at h
    · cases h
      exact .unsnapped hdue.1
    · cases h
      exact .snapped hdue.1
  · cases h
    exact .clean

/-! ### Reachable states -/

/-- A log that was started on nothing, and went through calls and restarts. -/
inductive Reachable (cfg : Config) : Sys → Prop
  | start : Reachable cfg ⟨.new, ⟨none, []⟩⟩
  | called (sys : Sys) (c : Call) (hreach : Reachable cfg sys) : Reachable cfg (call cfg sys c).sys
  | restart (sys : Sys) (now : ℤ) (s : State) (hreach : Reachable cfg sys)
      (hload : load cfg sys.disk now = .ok s) : Reachable cfg ⟨s, sys.disk⟩

end HiveRelay.Outbox
