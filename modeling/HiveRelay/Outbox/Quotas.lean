import HiveRelay.Outbox.Rollback

/-!
# Quotas of the outbox log

The loaders check the caps again, group by group and entry by entry, so most quotas hold of whatever is
loaded (`GroupsSound`). Two do not follow from what a loader checks. The bytes of the rows are counted by
steps, and a replayed sweep does not count down: it must not meet a group with rows. And a window is rebuilt
from a snapshot and from entries; it must have every charge of the last day.

Both are carried by what is said of a load (`Loaded`): the groups with rows of what a restart would load are
groups with rows in memory, and its windows have what was accepted. A save adds one entry to the journal, or
writes the snapshot, and either keeps it. An append that throws though its entry was written breaks it.

## Main definitions

* `Quotas`, `Capped` — the quotas, and the cap of a day
* `Allowed` — the calls of a run
* `Inv` — what a run keeps

## Main results

* `Inv.append` — the step that charges
* `run_keeps_quotas` — the quotas hold in every such run
-/

namespace HiveRelay.Outbox

open List Option OrderedMap
open JsString (ofText)

variable {cfg : Config}

/-! ### Namespaces -/

/-- A namespace is one of the registry. -/
def Registered (cfg : Config) (info : NamespaceInfo) : Prop := cfg.registry.get info.name = some info

variable {info : NamespaceInfo}

theorem registered_of_get {name : JsString} (h : cfg.registry.get name = some info) :
    Registered cfg info ∧ normalizeNamespaceName name = some info.name := by
  rw [NamespaceRegistry.get, bind_eq_some_iff] at h
  obtain ⟨normalized, hname, hfind⟩ := h
  have heq : info.name = normalized := by simpa using find?_some hfind
  refine ⟨?_, by rw [hname, heq]⟩
  rw [Registered, NamespaceRegistry.get, heq, normalizeNamespaceName_idem hname]
  exact hfind

theorem Registered.normal (h : Registered cfg info) :
    normalizeNamespaceName info.name = some info.name := (registered_of_get h).2

theorem Registered.unique {info' : NamespaceInfo} (h : Registered cfg info) (h' : Registered cfg info')
    (hname : info.name = info'.name) : info = info' := by
  rw [Registered, hname, h'] at h
  exact (some.inj h).symm

theorem caps_of_unconfigured (h : Registered cfg info)
    (hconf : cfg.registry.configured = false) : info.caps = ⟨none, none, none, none⟩ := by
  rw [Registered, NamespaceRegistry.get, bind_eq_some_iff] at h
  obtain ⟨_, -, hfind⟩ := h
  exact cfg.capless hconf info (mem_of_find?_eq_some hfind)

theorem eq_some_of_name {i : NamespaceInfo} {info : Option NamespaceInfo} (hreg : ∀ i, info = some i → Registered cfg i)
    (hi : Registered cfg i) (hname : info.map NamespaceInfo.name = some i.name) : info = some i := by
  obtain ⟨i', hi', hsame⟩ := map_eq_some_iff.mp hname
  rw [hi', (hreg i' hi').unique hi hsame]

theorem info_of_persistedNamespace {ns : Option JsString} {info : Option NamespaceInfo}
    (hnormal : ∀ name, ns = some name → normalizeNamespaceName name = some name)
    (h : persistedNamespace cfg ns = .ok info) :
    ns = info.map NamespaceInfo.name ∧ ∀ i, info = some i → Registered cfg i := by
  cases ns with
  | none =>
    cases h
    exact ⟨rfl, by simp⟩
  | some name =>
    rw [persistedNamespace] at h
    cases hget : cfg.registry.get name with
    | none => rw [hget] at h; cases h
    | some i =>
      rw [hget] at h
      cases h
      obtain ⟨hreg, hname⟩ := registered_of_get hget
      rw [hnormal name rfl, some.injEq] at hname
      exact ⟨by rw [hname, map_some], fun i' hi' => some.inj hi' ▸ hreg⟩

theorem normal_of_normalizePersisted {ns : Option JsString} :
    ∀ name, normalizePersistedNamespace ns = some name → normalizeNamespaceName name = some name := by
  intro name h
  rw [normalizePersistedNamespace, bind_eq_some_iff] at h
  obtain ⟨raw, -, hname⟩ := h
  exact normalizeNamespaceName_idem hname

theorem normal_of_recordNamespace {data : Json} :
    ∀ name, recordNamespace data = some name → normalizeNamespaceName name = some name := by
  intro name h
  cases data with
  | object members =>
    rw [recordNamespace, bind_eq_some_iff] at h
    obtain ⟨raw, -, hname⟩ := h
    exact normalizeNamespaceName_idem hname
  | _ => cases h

/-! ### The quotas of the groups -/

/-- The bytes of the rows of a group. -/
def Group.bytes (group : Group) : ℤ := group.rows.sumBy fun _ value => (jsonSize value : ℤ)

def rowBytes (groups : OrderedMap JsString Group) : ℤ := groups.sumBy fun _ group => group.bytes

/-- How many rows a group of a namespace can have. -/
def rowCap (cfg : Config) (ns : Option JsString) : ℕ :=
  namespaceCap (ns.bind cfg.registry.get) NamespaceCaps.maxEntriesPerOutbox cfg.maxRowsPerGroup

structure Quotas (cfg : Config) (s : State) : Prop where
  totalBytes : s.totalBytes = rowBytes s.groups
  storage : s.totalBytes ≤ cfg.maxTotalBytes
  groups : s.groups.size ≤ cfg.maxGroups
  outboxes : ∀ info, Registered cfg info → ∀ maxOutboxes, info.caps.maxOutboxes = some maxOutboxes →
    namespaceOutboxCount s.groups info.name ≤ maxOutboxes
  rows : ∀ k group, s.groups.get? k = some group → group.rows.size ≤ rowCap cfg group.ns

/-- The quotas of groups and of the bytes that are counted, and the namespaces of the groups. -/
structure GroupsSound (cfg : Config) (groups : OrderedMap JsString Group) (total : ℤ) : Prop where
  totalBytes : total = rowBytes groups
  storage : total ≤ cfg.maxTotalBytes
  size : groups.size ≤ cfg.maxGroups
  outboxes : ∀ info, Registered cfg info → ∀ maxOutboxes, info.caps.maxOutboxes = some maxOutboxes →
    namespaceOutboxCount groups info.name ≤ maxOutboxes
  rows : ∀ k group, groups.get? k = some group → group.rows.size ≤ rowCap cfg group.ns
  named : ∀ k group, groups.get? k = some group → ∀ name, group.ns = some name →
    ∃ info, Registered cfg info ∧ info.name = name
  bound : ∀ k group, groups.get? k = some group → group.rows.size ≠ 0 → group.ns = none →
    cfg.registry.configured = false

theorem GroupsSound.quotas {s : State} (h : GroupsSound cfg s.groups s.totalBytes) : Quotas cfg s :=
  ⟨h.totalBytes, h.storage, h.size, h.outboxes, h.rows⟩

theorem rowCap_of_registered (h : Registered cfg info) : rowCap cfg (some info.name) =
      namespaceCap (some info) NamespaceCaps.maxEntriesPerOutbox cfg.maxRowsPerGroup := by
  rw [rowCap, bind_some, h]

theorem rowCap_of_unconfigured (hconf : cfg.registry.configured = false) (ns : Option JsString) :
    rowCap cfg ns = cfg.maxRowsPerGroup := by
  rw [rowCap]
  cases hinfo : ns.bind cfg.registry.get with
  | none => rfl
  | some info =>
    obtain ⟨name, -, hget⟩ := bind_eq_some_iff.mp hinfo
    simp only [namespaceCap, bind_some, caps_of_unconfigured (registered_of_get hget).1 hconf]

theorem groupsSound_empty : GroupsSound cfg .empty 0 := by
  refine ⟨rfl, Int.natCast_nonneg _, Nat.zero_le _, fun _ _ _ _ => Nat.zero_le _, ?_, ?_, ?_⟩ <;>
    (intro k group hget; cases hget)

variable {groups : OrderedMap JsString Group}

theorem GroupsSound.congr {groups' : OrderedMap JsString Group} {total : ℤ}
    (h : GroupsSound cfg groups total) (hsame : ∀ k, groups'.get? k = groups.get? k) :
    GroupsSound cfg groups' total := by
  refine ⟨?_, h.storage, ?_, fun info hreg cap hcap => ?_, fun k g hget => ?_, fun k g hget => ?_, fun k g hget => ?_⟩
  · rw [h.totalBytes, rowBytes, rowBytes, sumBy_eq_of_get?_eq _ fun k => (hsame k).symm]
  · rw [size_eq_of_get?_eq hsame]
    exact h.size
  · rw [namespaceOutboxCount, sumBy_eq_of_get?_eq _ hsame]
    exact h.outboxes info hreg cap hcap
  · rw [hsame] at hget
    exact h.rows k g hget
  · rw [hsame] at hget
    exact h.named k g hget
  · rw [hsame] at hget
    exact h.bound k g hget

theorem namespaceOutboxCount_set (groups : OrderedMap JsString Group) (k : JsString) (group : Group)
    (name : JsString) : namespaceOutboxCount (groups.set k group) name =
      (if group.ns = some name then 1 else 0) + namespaceOutboxCount (groups.delete k) name := by
  rw [namespaceOutboxCount, sumBy_set, namespaceOutboxCount]

theorem namespaceOutboxCount_delete (groups : OrderedMap JsString Group) (k : JsString) (name : JsString) :
    namespaceOutboxCount groups name = (match groups.get? k with
        | some group => if group.ns = some name then 1 else 0
        | none => 0) + namespaceOutboxCount (groups.delete k) name := by
  cases hget : groups.get? k with
  | none => rw [delete_of_get?_eq_none hget, Nat.zero_add]
  | some group => rw [namespaceOutboxCount, sumBy_eq_of_get? _ hget, namespaceOutboxCount]

/-- The bytes of the group that a key had. -/
def bytesAt (groups : OrderedMap JsString Group) (k : JsString) : ℤ :=
  ((groups.get? k).map Group.bytes).getD 0

theorem rowBytes_set (groups : OrderedMap JsString Group) (k : JsString) (group : Group) :
    rowBytes (groups.set k group) = rowBytes groups - bytesAt groups k + group.bytes := by
  rw [rowBytes, bytesAt]
  cases hget : groups.get? k with
  | none =>
    rw [sumBy_set_of_get?_eq_none _ hget, rowBytes]
    simp
    omega
  | some previous =>
    rw [sumBy_set_of_get? _ _ hget, rowBytes]
    simp

variable {k : JsString}

/-- **A group that is set keeps the quotas**, if there is room for it and its namespace. -/
theorem GroupsSound.set {total total' : ℤ} {group : Group}
    (h : GroupsSound cfg groups total) (hsize : groups.get? k = none → groups.size < cfg.maxGroups)
    (hns : ∀ name, group.ns = some name → (∃ previous, groups.get? k = some previous ∧ previous.ns = some name) ∨
      ∃ info, Registered cfg info ∧ info.name = name ∧ HasCapacity groups (some info))
    (hrows : group.rows.size ≤ rowCap cfg group.ns)
    (hbound : group.rows.size ≠ 0 → group.ns = none → cfg.registry.configured = false)
    (htotal : total' = total - bytesAt groups k + group.bytes) (hstorage : total' ≤ cfg.maxTotalBytes) :
    GroupsSound cfg (groups.set k group) total' := by
  refine ⟨?_, hstorage, ?_, fun info hreg cap hcap => ?_, ?_, ?_, ?_⟩
  · rw [htotal, h.totalBytes, rowBytes_set]
  · cases hget : groups.get? k with
    | none =>
      rw [size_set_of_get?_eq_none hget]
      exact hsize hget
    | some previous =>
      rw [size_set_of_get? hget]
      exact h.size
  · have hcount := h.outboxes info hreg cap hcap
    have hrest := namespaceOutboxCount_delete groups k info.name
    rw [namespaceOutboxCount_set]
    split
    · next hname =>
      rcases hns info.name hname with ⟨previous, hget, hprevious⟩ | ⟨info', hreg', hname', hroom⟩
      · rw [hget] at hrest
        simp only [hprevious, if_true] at hrest
        omega
      · obtain rfl := hreg'.unique hreg hname'
        have := hroom _ rfl cap hcap
        omega
    · omega
  · exact forall_set h.rows hrows
  · refine forall_set h.named fun name hname => ?_
    rcases hns name hname with ⟨previous, hget, hprevious⟩ | ⟨info, hreg, hname', -⟩
    · exact h.named k previous hget name hprevious
    · exact ⟨info, hreg, hname'⟩
  · exact forall_set h.bound hbound

theorem GroupsSound.delete {total : ℤ} (h : GroupsSound cfg groups total)
    (hempty : ∀ group, groups.get? k = some group → group.rows.size = 0) :
    GroupsSound cfg (groups.delete k) total := by
  refine ⟨?_, h.storage, ?_, fun info hreg cap hcap => ?_, forall_delete h.rows,
    forall_delete h.named, forall_delete h.bound⟩
  · rw [h.totalBytes]
    cases hget : groups.get? k with
    | none => rw [delete_of_get?_eq_none hget]
    | some group =>
      have hrows : group.rows = .empty := ext_entries (length_eq_zero_iff.mp (hempty group hget))
      rw [rowBytes, rowBytes, sumBy_delete_of_get? _ hget, Group.bytes, hrows, sumBy_empty,
        Int.sub_zero]
  · cases hget : groups.get? k with
    | none =>
      rw [delete_of_get?_eq_none hget]
      exact h.size
    | some group =>
      have := size_delete_of_get? hget
      have := h.size
      omega
  · have := h.outboxes info hreg cap hcap
    have := namespaceOutboxCount_delete groups k info.name
    omega

/-! ### What the groups go through -/

theorem infoOfCreate {ns : Option JsString} {info : Option NamespaceInfo}
    (h : namespaceInfoForCreate cfg ns = .ok info) : ∀ i, info = some i → Registered cfg i := by
  rintro i rfl
  cases ns with
  | none => cases h
  | some name =>
    rw [namespaceInfoForCreate] at h
    cases hget : cfg.registry.get name with
    | none => rw [hget] at h; cases h
    | some i' =>
      rw [hget] at h
      cases h
      exact (registered_of_get hget).1

/-- The namespace of an append is that of its record, and there is none only without a configuration. -/
theorem infoOfAppend {data : Json} {info : Option NamespaceInfo} (h : namespaceInfoForAppend cfg data = .ok info) :
    (∀ i, info = some i → Registered cfg i) ∧ recordNamespace data = info.map NamespaceInfo.name ∧
      (info = none → cfg.registry.configured = false) := by
  rw [namespaceInfoForAppend] at h
  split at h
  · next hns _ hconf =>
    cases h
    exact ⟨by simp, hns, fun _ => hconf⟩
  · cases h
  · next ns hns =>
    simp only [guards_eq_ok] at h
    obtain ⟨i, hget, -, rfl⟩ := h
    obtain ⟨hreg, hname⟩ := registered_of_get hget
    rw [normal_of_recordNamespace ns hns, some.injEq] at hname
    refine ⟨fun i' hi' => some.inj hi' ▸ hreg, by rw [hns, hname, map_some], by simp⟩

variable {s : State} {appId inviteKey key type : JsString} {info : Option NamespaceInfo} {now : ℤ}
  {group : Group} {data : Json} {total : ℤ}

theorem bytesAt_of_get? (h : groups.get? k = some group) : bytesAt groups k = group.bytes := by
  rw [bytesAt, h]
  rfl

theorem hns_of_info (hreg : ∀ i, info = some i → Registered cfg i) (hcap : HasCapacity groups info) :
    ∀ name, info.map NamespaceInfo.name = some name →
      (∃ previous, groups.get? k = some previous ∧ previous.ns = some name) ∨
        ∃ info, Registered cfg info ∧ info.name = name ∧ HasCapacity groups (some info) := by
  intro name hname
  obtain ⟨i, rfl, rfl⟩ := map_eq_some_iff.mp hname
  exact .inr ⟨i, hreg i rfl, rfl, hcap⟩

theorem GroupsSound.created (h : GroupsSound cfg groups total)
    (hreg : ∀ i, info = some i → Registered cfg i) (hnone : groups.get? appId = none)
    (hsize : groups.size < cfg.maxGroups) (hcap : HasCapacity groups info) (hrows : group.rows = .empty)
    (hns : group.ns = info.map NamespaceInfo.name) : GroupsSound cfg (groups.set appId group) total := by
  refine h.set (fun _ => hsize) ?_ ?_ ?_ ?_ h.storage
  · rw [hns]
    exact hns_of_info hreg hcap
  · rw [hrows]
    exact Nat.zero_le _
  · rw [hrows]
    exact absurd rfl
  · rw [bytesAt, hnone, Group.bytes, hrows]
    simp

theorem GroupsSound.bind {previous : Group} (h : GroupsSound cfg groups total)
    (hreg : ∀ i, info = some i → Registered cfg i) (hget : groups.get? appId = some previous)
    (hnone : previous.ns = none) (hcap : HasCapacity groups info) :
    GroupsSound cfg (groups.set appId { previous with ns := info.map NamespaceInfo.name }) total := by
  have hrows := h.rows appId previous hget
  refine h.set (fun hget' => ?_) (hns_of_info hreg hcap) ?_ ?_ ?_ h.storage
  · rw [hget] at hget'
    cases hget'
  · by_cases hzero : previous.rows.size = 0
    · exact hzero.trans_le (Nat.zero_le _)
    · have hconf := h.bound appId previous hget hzero hnone
      rw [rowCap_of_unconfigured hconf] at hrows ⊢
      exact hrows
  · exact fun hne _ => h.bound appId previous hget hne hnone
  · rw [bytesAt_of_get? hget]
    exact (Int.sub_add_cancel _ _).symm

theorem GroupsSound.ensured (h : GroupsSound cfg s.groups total)
    (hreg : ∀ i, info = some i → Registered cfg i) (hens : Ensured cfg s appId info inviteKey now group) :
    GroupsSound cfg (s.groups.set appId group) total := by
  cases hens with
  | created hnone hsize hcap => exact h.created hreg hnone hsize hcap rfl rfl
  | found previous hget => rwa [set_of_get? hget]
  | bound previous i hget hinfo hns hcap =>
    subst hinfo
    exact h.bind hreg hget hns hcap

theorem GroupsSound.regrouped (h : GroupsSound cfg s.groups total)
    (hreg : ∀ i, info = some i → Registered cfg i) (hgroup : Regroups cfg s appId inviteKey info group) :
    GroupsSound cfg (s.groups.set appId group) total := by
  cases hgroup with
  | created hnone hsize hcap => exact h.created hreg hnone hsize hcap rfl rfl
  | found previous hget => rwa [set_of_get? hget]
  | bound previous hget hns hcap => exact h.bind hreg hget hns hcap

theorem Ensured.ns (hens : Ensured cfg s appId info inviteKey now group) :
    ∀ i, info = some i → group.ns = some i.name := by
  rintro i rfl
  cases hens with
  | created => rfl
  | found previous hget hns => exact hns i rfl
  | bound previous i' hget hinfo => rw [some.inj hinfo]

theorem Regroups.ns (hgroup : Regroups cfg s appId inviteKey info group) :
    ∀ i, info = some i → group.ns = some i.name := by
  rintro i rfl
  cases hgroup with
  | created => rfl
  | found previous hget hns hsame => exact hsame i rfl
  | bound => rfl

theorem bytes_setRow (group : Group) (key : JsString) (data : Json) :
    (group.rows.set key data).sumBy (fun _ value => (jsonSize value : ℤ)) =
      group.bytes - oldSize group key + jsonSize data := by
  rw [Group.bytes, oldSize]
  cases hget : group.rows.get? key with
  | none =>
    rw [sumBy_set_of_get?_eq_none _ hget]
    simp
    omega
  | some old =>
    rw [sumBy_set_of_get? _ _ hget]
    simp

variable {size : ℕ}

/-- **A row that is written keeps the quotas**, if it passed the checks. -/
theorem GroupsSound.written (type : JsString) (h : GroupsSound cfg s.groups s.totalBytes) (hsize : size = jsonSize data)
    (hget : s.groups.get? appId = some group) (hreg : ∀ i, info = some i → Registered cfg i)
    (hns : ∀ i, info = some i → group.ns = some i.name)
    (hconf : info = none → cfg.registry.configured = false)
    (hrows : group.rows.get? key = none →
      group.rows.size < namespaceCap info NamespaceCaps.maxEntriesPerOutbox cfg.maxRowsPerGroup)
    (hbytes : oldSize group key < size → s.totalBytes - oldSize group key + size ≤ cfg.maxTotalBytes) :
    GroupsSound cfg (writeRow cfg s appId group key type data size).groups
      (writeRow cfg s appId group key type data size).totalBytes := by
  have hcap : rowCap cfg group.ns = namespaceCap info NamespaceCaps.maxEntriesPerOutbox cfg.maxRowsPerGroup := by
    cases hinfo : info with
    | none => exact rowCap_of_unconfigured (hconf hinfo) _
    | some i => rw [hns i hinfo, rowCap_of_registered (hreg i hinfo)]
  have htotal : (writeRow cfg s appId group key type data size).totalBytes =
      s.totalBytes + size - oldSize group key := rfl
  rw [groups_writeRow, htotal]
  refine h.set (fun hnone => ?_) (fun name hname => ?_) ?_ ?_ ?_ ?_
  · rw [hget] at hnone
    cases hnone
  · exact .inl ⟨group, hget, hname⟩
  · have hold := h.rows appId group hget
    change (group.rows.set key data).size ≤ rowCap cfg group.ns
    cases hrow : group.rows.get? key with
    | none =>
      rw [size_set_of_get?_eq_none hrow, hcap]
      exact hrows hrow
    | some old =>
      rw [size_set_of_get? hrow]
      exact hold
  · intro _ hnone
    change group.ns = none at hnone
    cases hinfo : info with
    | none => exact hconf hinfo
    | some i =>
      rw [hns i hinfo] at hnone
      cases hnone
  · rw [bytesAt_of_get? hget, hsize]
    change _ = s.totalBytes - group.bytes + (group.rows.set key data).sumBy fun _ value => (jsonSize value : ℤ)
    rw [bytes_setRow]
    omega
  · have := h.storage
    by_cases hgrows : oldSize group key < size
    · omega
    · omega

theorem GroupsSound.deleteAll {appIds : List JsString} (h : GroupsSound cfg s.groups total)
    (hempty : ∀ k ∈ appIds, ∀ group, s.groups.get? k = some group → group.rows.size = 0) :
    GroupsSound cfg (appIds.foldl deleteGroupState s).groups total := by
  induction appIds generalizing s with
  | nil => exact h
  | cons appId appIds ih =>
    refine ih (s := deleteGroupState s appId) (h.delete (hempty appId mem_cons_self)) ?_
    intro k hk group hget
    rw [deleteGroupState, get?_delete] at hget
    split at hget
    · cases hget
    · exact hempty k (mem_cons_of_mem _ hk) group hget

/-! ### Windows -/

/-- The total of a bucket is the sum of its charges. -/
def Bucket.Balanced (bucket : Bucket) : Prop :=
  bucket.total = (bucket.charges.map fun charge => (charge.bytes : ℤ)).sum

theorem Bucket.Balanced.prune {bucket : Bucket} (h : bucket.Balanced) (now : ℤ) :
    (pruneNamespaceByteWindow bucket now).Balanced := by
  have hsplit := takeWhile_append_dropWhile
    (p := fun charge : Charge => decide (charge.ts ≤ now - OUTBOXLOG_BYTE_WINDOW_MS)) (l := bucket.charges)
  have hsum := congrArg (fun l : List Charge => (l.map fun charge => (charge.bytes : ℤ)).sum) hsplit
  simp only [map_append, sum_append] at hsum
  rw [Bucket.Balanced, charges_prune, pruneNamespaceByteWindow, h, ← hsum]
  simp

theorem Bucket.Balanced.charge {bucket : Bucket} (h : bucket.Balanced) (size : ℕ) (ts : ℤ) :
    (chargeNamespaceByteBucket bucket size ts).Balanced := by
  rw [Bucket.Balanced, chargeNamespaceByteBucket, h]
  simp

theorem Bucket.Balanced.uncharge {bucket : Bucket} (h : bucket.Balanced) :
    (unchargeNamespaceByteBucket bucket).Balanced := by
  rw [unchargeNamespaceByteBucket]
  split
  · exact h
  · next last hlast =>
    have hsplit := dropLast_append_getLast? last hlast
    have hsum := congrArg (fun l : List Charge => (l.map fun charge => (charge.bytes : ℤ)).sum) hsplit
    rw [Bucket.Balanced, h, ← hsum]
    simp

/-- The windows are balanced, and their keys are names of namespaces. -/
def WindowsSound (windows : OrderedMap (Option JsString) Bucket) : Prop :=
  ∀ k bucket, windows.get? k = some bucket →
    bucket.Balanced ∧ ∀ name, k = some name → normalizeNamespaceName name = some name

theorem windowsSound_empty : WindowsSound .empty := nofun

theorem WindowsSound.bucket (h : WindowsSound s.byteWindows) (k : Option JsString) :
    (namespaceByteBucket s k).Balanced := by
  rw [namespaceByteBucket]
  cases hget : s.byteWindows.get? k with
  | none => rfl
  | some bucket => exact (h k bucket hget).1

variable {windows : OrderedMap (Option JsString) Bucket}

theorem WindowsSound.set {k : Option JsString} {bucket : Bucket}
    (h : WindowsSound windows) (hbucket : bucket.Balanced)
    (hk : ∀ name, k = some name → normalizeNamespaceName name = some name) :
    WindowsSound (windows.set k bucket) := forall_set h ⟨hbucket, hk⟩

theorem WindowsSound.prune (h : WindowsSound s.byteWindows) (now : ℤ) :
    WindowsSound (pruneWindows s now).byteWindows := by
  intro k bucket hget
  rw [pruneWindows, get?_mapValues, map_eq_some_iff] at hget
  obtain ⟨before, hbefore, rfl⟩ := hget
  exact ⟨(h k before hbefore).1.prune now, (h k before hbefore).2⟩

theorem normal_of_info (hreg : ∀ i, info = some i → Registered cfg i) :
    ∀ name, info.map NamespaceInfo.name = some name → normalizeNamespaceName name = some name := by
  intro name hname
  obtain ⟨i, hi, rfl⟩ := map_eq_some_iff.mp hname
  exact (hreg i hi).normal

theorem WindowsSound.note {ts : Option ℤ} (h : WindowsSound s.byteWindows)
    (hreg : ∀ i, info = some i → Registered cfg i) :
    WindowsSound (noteNamespaceByteCharge cfg s info size ts now).byteWindows := by
  unfold noteNamespaceByteCharge
  split
  · next ts _ _ =>
    by_cases hold : ts ≤ now - OUTBOXLOG_BYTE_WINDOW_MS
    · rw [if_pos hold]
      exact h
    · rw [if_neg hold]
      exact h.set (((h.bucket _).prune now).charge size ts) (normal_of_info hreg)
  · exact h

/-! ### What was accepted -/

def taken (history : List (Option JsString × Charge)) (name : JsString) : List Charge :=
  history.filterMap fun e => if e.1 = some name then some e.2 else none

theorem taken_append (history : List (Option JsString × Charge)) (k : Option JsString) (charge : Charge)
    (name : JsString) : taken (history ++ [(k, charge)]) name =
      taken history name ++ if k = some name then [charge] else [] := by
  rw [taken, filterMap_append, ← taken]
  congr 1
  by_cases hk : k = some name <;> simp [hk]

/-- The windows of capped namespaces have what was accepted, from a time on. -/
def Windowed (cfg : Config) (s : State) (history : List (Option JsString × Charge)) (t : ℤ) : Prop :=
  ∀ info, Registered cfg info → byteBudget cfg (some info) ≠ none → ∀ t', t ≤ t' →
    ((taken history info.name).filter (·.isAlive t')).Sublist (s.window (some info.name) t')

variable {s' : State} {history : List (Option JsString × Charge)} {t : ℤ}

theorem Windowed.congr {t' : ℤ} (h : Windowed cfg s history t) (ht : t ≤ t')
    (hsame : ∀ k u, t' ≤ u → s'.window k u = s.window k u) : Windowed cfg s' history t' := by
  intro info hreg hbudget u hu
  rw [hsame _ u hu]
  exact h info hreg hbudget u (le_trans ht hu)

theorem Windowed.mono {t' : ℤ} (h : Windowed cfg s history t) (ht : t ≤ t') : Windowed cfg s history t' :=
  h.congr ht fun _ _ _ => rfl

theorem Windowed.append {charge : Charge}
    (h : Windowed cfg s history t) (hreg : ∀ i, info = some i → Registered cfg i)
    (hadd : byteBudget cfg info ≠ none → ∀ k u, t ≤ u → s'.window k u =
      s.window k u ++ if k = info.map NamespaceInfo.name then [charge].filter (·.isAlive u) else [])
    (hsame : byteBudget cfg info = none → ∀ k u, t ≤ u → s'.window k u = s.window k u) :
    Windowed cfg s' (history ++ [(info.map NamespaceInfo.name, charge)]) t := by
  intro i hregi hbudget u hu
  rw [taken_append, filter_append]
  have hold := h i hregi hbudget u hu
  by_cases hi : info.map NamespaceInfo.name = some i.name
  · have hinfo := eq_some_of_name hreg hregi hi
    rw [hadd (hinfo ▸ hbudget) _ u hu, if_pos hi, if_pos hi.symm]
    exact hold.append (List.Sublist.refl _)
  · rw [if_neg hi, filter_nil, append_nil]
    by_cases hb : byteBudget cfg info = none
    · rw [hsame hb _ u hu]
      exact hold
    · rw [hadd hb _ u hu, if_neg fun heq => hi heq.symm, append_nil]
      exact hold

theorem note_of_budget {cap : ℕ} {ts : ℤ} (h : byteBudget cfg info = some cap) :
    noteNamespaceByteCharge cfg s info size (some ts) now =
      if ts ≤ now - OUTBOXLOG_BYTE_WINDOW_MS then s
      else s.setBucket (info.map NamespaceInfo.name) (chargeNamespaceByteBucket (pruneNamespaceByteWindow
          (namespaceByteBucket s (info.map NamespaceInfo.name)) now) size ts) := by
  simp only [noteNamespaceByteCharge, h]

theorem note_of_none {ts : Option ℤ} (h : byteBudget cfg info = none) :
    noteNamespaceByteCharge cfg s info size ts now = s := by
  cases ts <;> simp only [noteNamespaceByteCharge, h]

theorem Windowed.note (size : ℕ) (ts : ℤ)
    (h : Windowed cfg s history now) (hreg : ∀ i, info = some i → Registered cfg i) :
    Windowed cfg (noteNamespaceByteCharge cfg s info size (some ts) now)
      (history ++ [(info.map NamespaceInfo.name, ⟨ts, size⟩)]) now := by
  refine h.append hreg (fun hbudget k u hu => ?_) fun hbudget k u hu => ?_
  · obtain ⟨cap, hcap⟩ := ne_none_iff_exists'.mp hbudget
    rw [note_of_budget hcap]
    by_cases hold : ts ≤ now - OUTBOXLOG_BYTE_WINDOW_MS
    · have hdead : (Charge.mk ts size).isAlive u = false := by
        simp only [Charge.isAlive, decide_eq_false_iff_not]
        omega
      rw [if_pos hold, filter_cons, hdead]
      simp
    · rw [if_neg hold, window_setBucket]
      by_cases hk : k = info.map NamespaceInfo.name
      · rw [if_pos hk, if_pos hk, chargeNamespaceByteBucket, filter_append, charges_prune,
          filter_dropWhile_alive _ hu, hk, State.window]
      · rw [if_neg hk, if_neg hk, append_nil]
  · rw [note_of_none hbudget]

/-! ### Loads -/

/-- An append has a namespace, unless there is no configuration. -/
def EntryBody.Named (cfg : Config) : EntryBody → Prop
  | .append _ _ ns _ _ data =>
    normalizePersistedNamespace ns = none → recordNamespace data = none → cfg.registry.configured = false
  | _ => True

theorem infoOfEntry {ns : Option JsString}
    (h : persistedNamespace cfg (normalizePersistedNamespace ns <|> recordNamespace data) = .ok info) :
    (normalizePersistedNamespace ns <|> recordNamespace data) = info.map NamespaceInfo.name ∧
      ∀ i, info = some i → Registered cfg i := by
  refine info_of_persistedNamespace (fun name hname => ?_) h
  cases hns : normalizePersistedNamespace ns with
  | none =>
    rw [hns] at hname
    exact normal_of_recordNamespace name hname
  | some name' =>
    rw [hns] at hname
    exact some.inj hname ▸ normal_of_normalizePersisted name' hns

variable {body : EntryBody}

/-- **A replayed entry keeps the quotas**, if a sweep meets no rows. -/
theorem GroupsSound.replays (h : GroupsSound cfg s.groups s.totalBytes)
    (hreplays : Replays cfg now s body s') (hnamed : body.Named cfg)
    (hempty : ∀ appIds, body = .sweep appIds → ∀ k ∈ appIds, ∀ group, s.groups.get? k = some group →
      group.rows.size = 0) : GroupsSound cfg s'.groups s'.totalBytes := by
  cases hreplays with
  | swept appIds =>
    rw [(rest_deleteAll appIds s).2.1]
    exact h.deleteAll (hempty appIds rfl)
  | ignored | known | dropped | taken => exact h
  | created appId inviteKey ns createdAt info hinfo hnone hsize hcap =>
    obtain ⟨hns, hreg⟩ := info_of_persistedNamespace normal_of_normalizePersisted hinfo
    exact h.created hreg hnone hsize hcap rfl hns
  | written appId inviteKey ns ts type data info id group hinfo hid hgroup hrows hbytes =>
    obtain ⟨hns, hreg⟩ := infoOfEntry hinfo
    obtain ⟨windows, heq⟩ := sameRows_noteNamespaceByteCharge cfg
      (writeRow cfg (s.setGroup appId group) appId group (rowKey type id) type data (jsonSize data)) info
      (jsonSize data) ts now
    rw [heq]
    refine GroupsSound.written (s := s.setGroup appId group) type (h.regrouped hreg hgroup) rfl
      get?_set_self hreg hgroup.ns ?_ hrows hbytes
    rintro rfl
    cases hpersisted : normalizePersistedNamespace ns with
    | none =>
      rw [hpersisted] at hns
      exact hnamed hpersisted hns
    | some name =>
      rw [hpersisted] at hns
      cases hns

theorem WindowsSound.replays (h : WindowsSound s.byteWindows)
    (hreplays : Replays cfg now s body s') : WindowsSound s'.byteWindows := by
  cases hreplays with
  | swept appIds =>
    rw [(rest_deleteAll appIds s).1]
    exact h
  | ignored | known | dropped | taken | created => exact h
  | written appId inviteKey ns ts type data info id group hinfo =>
    exact WindowsSound.note (s := writeRow cfg (s.setGroup appId group) appId group (rowKey type id) type data
      (jsonSize data)) h (infoOfEntry hinfo).2

/-- The rows of a group that is restored are within the caps, and their bytes are counted. -/
theorem restoreRows_spec {l : List (JsString × Json)} {rows rows' : OrderedMap JsString Json} {total total' : ℕ}
    (h : restoreRows cfg appId info l rows total = .ok (rows', total')) (hnodup : (l.map Prod.fst).Nodup)
    (hfresh : ∀ e ∈ l, rows.get? e.1 = none)
    (hsize : rows.size ≤ namespaceCap info NamespaceCaps.maxEntriesPerOutbox cfg.maxRowsPerGroup)
    (htotal : total ≤ cfg.maxTotalBytes) :
    (total' : ℤ) - rows'.sumBy (fun _ value => (jsonSize value : ℤ)) =
        total - rows.sumBy (fun _ value => (jsonSize value : ℤ)) ∧
      rows'.size ≤ namespaceCap info NamespaceCaps.maxEntriesPerOutbox cfg.maxRowsPerGroup ∧
      total' ≤ cfg.maxTotalBytes := by
  induction l generalizing rows total with
  | nil =>
    cases h
    exact ⟨rfl, hsize, htotal⟩
  | cons e rest ih =>
    obtain ⟨key, value⟩ := e
    rw [map_cons, nodup_cons] at hnodup
    have hrest : ∀ e ∈ rest, rows.get? e.1 = none := fun e he => hfresh e (mem_cons_of_mem _ he)
    rw [restoreRows] at h
    split at h
    · exact ih h hnodup.2 hrest hsize htotal
    · split at h
      · exact ih h hnodup.2 hrest hsize htotal
      · simp only [guards_eq_ok] at h
        obtain ⟨-, hroom, hfits, h⟩ := h
        have hnone := hfresh (key, value) mem_cons_self
        obtain ⟨hsum, hrows, hmax⟩ := ih h hnodup.2 (fun e he => by
          rw [get?_set_of_ne, hrest e he]
          intro heq
          exact hnodup.1 (mem_map.mpr ⟨e, he, heq⟩)) (by
            rw [size_set_of_get?_eq_none hnone]
            exact hroom) hfits
        refine ⟨?_, hrows, hmax⟩
        rw [sumBy_set_of_get?_eq_none _ hnone] at hsum
        omega

theorem rows_ne_nil_of_restoreRows {l : List (JsString × Json)} {rows : OrderedMap JsString Json}
    {total total' : ℕ} (h : restoreRows cfg appId info l .empty total = .ok (rows, total'))
    (hne : rows.size ≠ 0) : l ≠ [] := by
  rintro rfl
  cases h
  exact hne rfl

/-- What a group of a snapshot has: its keys are different, and it has a namespace if it has rows. -/
structure GroupState.Sound (cfg : Config) (gs : GroupState) : Prop where
  nodup : (gs.rows.map Prod.fst).Nodup
  bound : gs.rows ≠ [] → normalizePersistedNamespace gs.ns = none → cfg.registry.configured = false

theorem GroupsSound.restoresAll {l : List (JsString × GroupState)} {acc last : Restored}
    (h : RestoresAll cfg acc l last) (hacc : GroupsSound cfg acc.groups acc.totalBytes)
    (hnodup : (l.map Prod.fst).Nodup) (hfresh : ∀ e ∈ l, acc.groups.get? e.1 = none)
    (hsound : ∀ e ∈ l, e.2.Sound cfg) : GroupsSound cfg last.groups last.totalBytes := by
  induction h with
  | nil => exact hacc
  | cons acc acc' last appId gs rest hfirst _ ih =>
    rw [map_cons, nodup_cons] at hnodup
    have hrest : ∀ e ∈ rest, acc.groups.get? e.1 = none := fun e he => hfresh e (mem_cons_of_mem _ he)
    have hsound' : ∀ e ∈ rest, e.2.Sound cfg := fun e he => hsound e (mem_cons_of_mem _ he)
    have hgs := hsound (appId, gs) mem_cons_self
    have hnone := hfresh (appId, gs) mem_cons_self
    cases hfirst with
    | skipped => exact ih hacc hnodup.2 hrest hsound'
    | restored info rows total hsize hinfo hcap hrows =>
      obtain ⟨hns, hreg⟩ := info_of_persistedNamespace normal_of_normalizePersisted hinfo
      obtain ⟨hsum, hcount, hmax⟩ := restoreRows_spec hrows hgs.nodup (fun _ _ => rfl) (Nat.zero_le _)
        (by exact_mod_cast hacc.storage)
      refine ih (hacc.set (fun _ => hsize) ?_ ?_ ?_ ?_ (by exact_mod_cast hmax)) hnodup.2 (fun e he => ?_) hsound'
      · change ∀ name, normalizePersistedNamespace gs.ns = some name → _
        rw [hns]
        exact hns_of_info hreg hcap
      · change rows.size ≤ rowCap cfg (normalizePersistedNamespace gs.ns)
        cases hi : info with
        | none =>
          rw [hns, hi]
          rw [hi] at hcount
          exact hcount
        | some i =>
          rw [hns, hi, map_some, rowCap_of_registered (hreg i hi), ← hi]
          exact hcount
      · exact fun hne hnil => hgs.bound (rows_ne_nil_of_restoreRows hrows hne) hnil
      · rw [bytesAt, hnone, Group.bytes]
        change (total : ℤ) = _ + rows.sumBy fun _ value => (jsonSize value : ℤ)
        rw [sumBy_empty] at hsum
        simp
        omega
      · rw [get?_set_of_ne, hrest e he]
        intro heq
        exact hnodup.1 (mem_map.mpr ⟨e, he, heq⟩)

/-- The bucket that charges of a snapshot are restored to. -/
def restoredBucket (now : ℤ) (charges : List Charge) : Bucket :=
  let charges := charges.filter fun charge => decide (0 < charge.ts) && decide (0 < charge.bytes)
  pruneNamespaceByteWindow { charges := charges, total := (charges.map fun charge => (charge.bytes : ℤ)).sum } now

theorem balanced_restoredBucket (now : ℤ) (charges : List Charge) : (restoredBucket now charges).Balanced := by
  have hbase : Bucket.Balanced
      { charges := charges.filter fun charge => decide (0 < charge.ts) && decide (0 < charge.bytes)
        total := ((charges.filter fun charge => decide (0 < charge.ts) && decide (0 < charge.bytes)).map
          fun charge => (charge.bytes : ℤ)).sum } := rfl
  exact hbase.prune now

theorem restoreWindow_of_normal {e : Option JsString × List Charge}
    (hk : ∀ name, e.1 = some name → normalizeNamespaceName name = some name) :
    restoreWindow now windows e =
      if windows.has e.1 = true then windows
      else if (restoredBucket now e.2).charges.isEmpty = true then windows
      else windows.set e.1 (restoredBucket now e.2) := by
  obtain ⟨k, charges⟩ := e
  cases k with
  | none => rfl
  | some name =>
    simp only [restoreWindow, map_some, hk name rfl, join_some]
    rfl

variable {l : List (Option JsString × List Charge)}

theorem WindowsSound.restore (h : WindowsSound windows) : WindowsSound (l.foldl (restoreWindow now) windows) := by
  induction l generalizing windows with
  | nil => exact h
  | cons e rest ih =>
    refine ih ?_
    have hset : ∀ k, (∀ name, k = some name → normalizeNamespaceName name = some name) →
        WindowsSound (if windows.has k = true then windows
          else if (restoredBucket now e.2).charges.isEmpty = true then windows
          else windows.set k (restoredBucket now e.2)) := by
      intro k hk
      split
      · exact h
      · split
        · exact h
        · exact h.set (balanced_restoredBucket now e.2) hk
    obtain ⟨k, charges⟩ := e
    cases k with
    | none => exact hset none (by simp)
    | some name =>
      cases hname : normalizeNamespaceName name with
      | none =>
        simp only [restoreWindow, map_some, hname]
        exact h
      | some name' =>
        simp only [restoreWindow, map_some, hname, join_some]
        refine hset (some name') fun n hn => ?_
        rw [← some.inj hn]
        exact normalizeNamespaceName_idem hname

theorem get?_restore_of_notMem {k : Option JsString}
    (hnormal : ∀ e ∈ l, ∀ name, e.1 = some name → normalizeNamespaceName name = some name)
    (hk : k ∉ l.map Prod.fst) : (l.foldl (restoreWindow now) windows).get? k = windows.get? k := by
  induction l generalizing windows with
  | nil => rfl
  | cons e rest ih =>
    rw [map_cons, mem_cons, not_or] at hk
    rw [foldl_cons, ih (fun e he => hnormal e (mem_cons_of_mem _ he)) hk.2,
      restoreWindow_of_normal (hnormal e mem_cons_self)]
    split
    · rfl
    · split
      · rfl
      · exact get?_set_of_ne hk.1

theorem charges_restore (now : ℤ) {k : Option JsString} {charges : List Charge}
    (hnormal : ∀ e ∈ l, ∀ name, e.1 = some name → normalizeNamespaceName name = some name)
    (hnodup : (l.map Prod.fst).Nodup) (hfresh : ∀ e ∈ l, windows.get? e.1 = none) (hmem : (k, charges) ∈ l) :
    (((l.foldl (restoreWindow now) windows).get? k).getD { charges := [], total := 0 }).charges =
      (restoredBucket now charges).charges := by
  induction l generalizing windows with
  | nil => cases hmem
  | cons e rest ih =>
    rw [map_cons, nodup_cons] at hnodup
    have hnormal' : ∀ e ∈ rest, ∀ name, e.1 = some name → normalizeNamespaceName name = some name :=
      fun e he => hnormal e (mem_cons_of_mem _ he)
    have hfirst : windows.has e.1 = false := has_eq_false_iff.mpr (hfresh e mem_cons_self)
    rw [foldl_cons, restoreWindow_of_normal (hnormal e mem_cons_self), hfirst, if_neg Bool.false_ne_true]
    rcases mem_cons.mp hmem with rfl | hmem
    · rw [get?_restore_of_notMem hnormal' hnodup.1]
      split
      · next hempty =>
        rw [hfresh _ mem_cons_self, isEmpty_iff.mp hempty]
        rfl
      · rw [get?_set_self]
        rfl
    · refine ih hnormal' hnodup.2 (fun e' he' => ?_) hmem
      have hne : e'.1 ≠ e.1 := fun heq => hnodup.1 (mem_map.mpr ⟨e', he', heq⟩)
      have hold := hfresh e' (mem_cons_of_mem _ he')
      split
      · exact hold
      · rw [get?_set_of_ne hne]
        exact hold

/-! ### What a restart loads -/

def Group.IsUsed (group : Group) : Prop := group.rows.size ≠ 0 ∨ group.version ≠ 0

/-- The groups with rows of one state are used in another. -/
def RowsIn (live s : State) : Prop :=
  ∀ k group, s.groups.get? k = some group → group.rows.size ≠ 0 →
    ∃ group', live.groups.get? k = some group' ∧ group'.IsUsed

/-- What is said of a state in memory. -/
structure LiveSound (cfg : Config) (s : State) (history : List (Option JsString × Charge)) (t : ℤ) : Prop where
  groups : GroupsSound cfg s.groups s.totalBytes
  windows : WindowsSound s.byteWindows
  window : Windowed cfg s history t

/-- What is said of a state that a restart loads at a time, beside the one in memory. -/
structure Loaded (cfg : Config) (live : State) (history : List (Option JsString × Charge)) (now : ℤ)
    (s : State) : Prop where
  sound : LiveSound cfg s history now
  rows : RowsIn live s

/-- The charges of a history count, and their times are after the epoch. -/
def Positive (history : List (Option JsString × Charge)) : Prop :=
  ∀ e ∈ history, 0 < e.2.ts ∧ 0 < e.2.bytes

theorem positive_of_mem_taken (h : Positive history)
    {name : JsString} {charge : Charge} (hmem : charge ∈ taken history name) :
    0 < charge.ts ∧ 0 < charge.bytes := by
  obtain ⟨e, he, heq⟩ := mem_filterMap.mp hmem
  split at heq
  · rw [← some.inj heq]
    exact h e he
  · cases heq

theorem Windowed.applyState
    (h : Windowed cfg s history t) (hsound : WindowsSound s.byteWindows) (hpos : Positive history)
    (ht : t ≤ now) (happly : applyState cfg (snapshot s) now = .ok s') : Windowed cfg s' history now := by
  obtain ⟨restored, -, rfl⟩ := applyState_eq_ok.mp happly
  intro info hreg hbudget u hu
  have hold := h info hreg hbudget u (le_trans ht hu)
  have hkeep : (taken history info.name).filter (·.isAlive u) =
      ((taken history info.name).filter (·.isAlive u)).filter
        fun charge => decide (0 < charge.ts) && decide (0 < charge.bytes) := by
    refine (filter_eq_self.mpr fun charge hmem => ?_).symm
    have := positive_of_mem_taken hpos (mem_of_mem_filter hmem)
    simp [this]
  rw [hkeep]
  refine (hold.filter _).trans ?_
  rw [State.window, namespaceByteBucket]
  cases hget : s.byteWindows.get? (some info.name) with
  | none => simp
  | some bucket =>
    have hmem : (some info.name, bucket.charges) ∈ (snapshot s).byteWindows :=
      mem_map.mpr ⟨_, mem_entries_iff.mpr hget, rfl⟩
    have hnormal : ∀ e ∈ (snapshot s).byteWindows, ∀ name, e.1 = some name →
        normalizeNamespaceName name = some name := by
      intro e he name hname
      obtain ⟨e', he', rfl⟩ := mem_map.mp he
      exact (hsound e'.1 e'.2 (mem_entries_iff.mp he')).2 name hname
    have hnodup : ((snapshot s).byteWindows.map Prod.fst).Nodup := by
      rw [snapshot, List.map_map]
      exact s.byteWindows.nodup_keys
    have hfresh : ∀ e ∈ (snapshot s).byteWindows,
        (empty : OrderedMap (Option JsString) Bucket).get? e.1 = none := fun _ _ => rfl
    have hcharges := charges_restore now hnormal hnodup hfresh hmem
    rw [State.window, namespaceByteBucket, restoredState]
    rw [hcharges, restoredBucket, charges_prune, filter_dropWhile_alive _ hu]
    simp only [getD_some, List.filter_filter, Bool.and_comm]
    exact List.Sublist.refl _

theorem loaded_applyState (h : LiveSound cfg s history t) (hpos : Positive history) (ht : t ≤ now)
    (happly : applyState cfg (snapshot s) now = .ok s') : Loaded cfg s history now s' := by
  have hwindow := h.window.applyState h.windows hpos ht happly
  obtain ⟨restored, hgroups, rfl⟩ := applyState_eq_ok.mp happly
  have hall := restoresAll_of_foldlM hgroups
  refine ⟨⟨?_, windowsSound_empty.restore, hwindow⟩, ?_⟩
  · refine GroupsSound.restoresAll hall groupsSound_empty ?_ (fun _ _ => rfl) fun e he => ?_
    · rw [snapshot, List.map_map]
      exact s.groups.nodup_keys
    · obtain ⟨⟨k, group⟩, he', rfl⟩ := mem_map.mp he
      have hget := mem_entries_iff.mp he'
      refine ⟨group.rows.nodup_keys, fun hne hnone => ?_⟩
      refine h.groups.bound k group hget (fun hzero => hne (length_eq_zero_iff.mp hzero)) ?_
      cases hns : group.ns with
      | none => rfl
      | some name =>
        obtain ⟨info, hreg, rfl⟩ := h.groups.named k group hget name hns
        change normalizePersistedNamespace group.ns = none at hnone
        rw [hns, normalizePersistedNamespace, bind_some, hreg.normal] at hnone
        cases hnone
  · intro k group hget hne
    rcases hall.origin hget with hnone | ⟨gs, info, total, rows, total', seen, hgs, hrows, rfl⟩
    · cases hnone
    obtain ⟨⟨k', group⟩, he, heq⟩ := mem_map.mp hgs
    obtain ⟨rfl, rfl⟩ := heq
    refine ⟨group, mem_entries_iff.mp he, .inl fun hzero => ?_⟩
    exact rows_ne_nil_of_restoreRows hrows hne (length_eq_zero_iff.mp hzero)

/-! ### Runs -/

inductive Event where
  | call (c : Call)
  | restart

/-- The clock is read between two times, and not backwards. -/
def Call.Within (clock clock' : ℤ) : Call → Prop
  | .create _ _ _ _ io => clock ≤ io.saveNow ∧ io.saveNow ≤ clock'
  | .append _ _ _ _ _ now io => clock ≤ now ∧ now ≤ io.saveNow ∧ io.saveNow ≤ clock'
  | .takedown _ _ _ io => clock ≤ io.saveNow ∧ io.saveNow ≤ clock'
  | .sweep _ _ ios => clock ≤ clock' ∧ ∀ i, clock ≤ (ios i).saveNow ∧ (ios i).saveNow ≤ clock'
  | .flush io => clock ≤ io.saveNow ∧ io.saveNow ≤ clock'

/-- The bytes of an append that returned, with the namespace of the record. -/
def accepted (cfg : Config) (c : Call) (out : Outcome) : List (Option JsString × Charge) :=
  match c, out.result with
  | .append appId type data _ _ now _, .ok _ =>
    match checkAppend cfg appId type data with
    | .ok checked => [(checked.info.map NamespaceInfo.name, ⟨now, checked.size⟩)]
    | .error _ => []
  | _, _ => []

@[simp] theorem accepted_error (c : Call) (sys : Sys) (failure : Failure) :
    accepted cfg c ⟨sys, .error failure⟩ = [] := by
  cases c <;> rfl

variable {io : Io} {sys : Sys} {checked : CheckedAppend}

theorem accepted_append {created : ℤ} {reply : Reply} (h : checkAppend cfg appId type data = .ok checked) :
    accepted cfg (.append appId type data inviteKey created now io) ⟨sys, .ok reply⟩ =
      [(checked.info.map NamespaceInfo.name, ⟨now, checked.size⟩)] := by
  simp only [accepted, h]

/-- A run of calls and restarts that are `ok`, with the clock and what was accepted. -/
inductive Run (cfg : Config) (ok : Sys → Event → Prop) : Sys → ℤ → List (Option JsString × Charge) → Prop
  | start (clock : ℤ) : Run cfg ok ⟨.new, ⟨none, []⟩⟩ clock []
  | called (sys : Sys) (clock clock' : ℤ) (history : List (Option JsString × Charge)) (c : Call)
      (hrun : Run cfg ok sys clock history) (hwithin : c.Within clock clock') (hok : ok sys (.call c)) :
      Run cfg ok (call cfg sys c).sys clock' (history ++ accepted cfg c (call cfg sys c))
  | restarted (sys : Sys) (clock now : ℤ) (history : List (Option JsString × Charge)) (s : State)
      (hrun : Run cfg ok sys clock history) (hnow : clock ≤ now) (hok : ok sys .restart)
      (hload : load cfg sys.disk now = .ok s) : Run cfg ok ⟨s, sys.disk⟩ now history

/-- The journal entry of a save is written, and the snapshot that is due after it is not. -/
def Tears (cfg : Config) (s : State) (io : Io) : Prop :=
  cfg.journaled = true ∧ cfg.persisted = true ∧ io.journalFails = false ∧ io.saveFails = true ∧
    cfg.checkpointEvery ≤ s.entriesSinceCheckpoint + 1

/-- The steps that keep the quotas: no append tears its save, the times that a snapshot can get are after the
epoch, and a log is restarted from something. -/
def Allowed (cfg : Config) (sys : Sys) : Event → Prop
  | .call (.append _ _ _ _ _ now io) => (cfg.persisted = true → 0 < now) ∧ ¬ Tears cfg sys.state io
  | .call _ => True
  | .restart => cfg.persisted = true ∨ cfg.journaled = true

/-- The bytes of charges in the day that ends at a time. -/
def bytesInDay (charges : List Charge) (t : ℤ) : ℕ :=
  ((charges.filter fun charge => charge.isAlive t && decide (charge.ts ≤ t)).map Charge.bytes).sum

/-- **The cap of a day**: in no day a capped namespace takes in more. -/
def Capped (cfg : Config) (history : List (Option JsString × Charge)) : Prop :=
  ∀ info cap, Registered cfg info → byteBudget cfg (some info) = some cap →
    ∀ t, bytesInDay (taken history info.name) t ≤ cap

structure Inv (cfg : Config) (sys : Sys) (clock : ℤ) (history : List (Option JsString × Charge)) : Prop where
  live : LiveSound cfg sys.state history clock
  positive : cfg.persisted = true → Positive history
  capped : Capped cfg history
  journalSeq : cfg.journaled = true → sys.state.journalSeq = sys.disk.journal.length
  snapshotSeq : cfg.journaled = true → sys.disk.snapshotSeq cfg ≤ sys.disk.journal.length
  loads : cfg.persisted = true ∨ cfg.journaled = true → ∀ now s, clock ≤ now →
    load cfg sys.disk now = .ok s → Loaded cfg sys.state history now s

theorem LiveSound.congr {t' : ℤ} (h : LiveSound cfg s history t) (ht : t ≤ t') (hsame : Unchanged s s')
    (hwindows : WindowsSound s'.byteWindows) (hwindow : ∀ k u, t' ≤ u → s'.window k u = s.window k u) :
    LiveSound cfg s' history t' := by
  refine ⟨?_, hwindows, h.window.congr ht hwindow⟩
  rw [hsame.groups, hsame.totalBytes]
  exact h.groups

theorem LiveSound.mono {t' : ℤ} (h : LiveSound cfg s history t) (ht : t ≤ t') : LiveSound cfg s history t' :=
  ⟨h.groups, h.windows, h.window.mono ht⟩

theorem WindowsSound.saves {saved : Sys} {body : Option EntryBody} {ok : Bool}
    (h : WindowsSound sys.state.byteWindows) (hsaved : Saves cfg sys io body saved ok) :
    WindowsSound saved.state.byteWindows := by
  have hlog : ∀ body, (logEntry cfg sys body).state.byteWindows = sys.state.byteWindows := by
    intro body
    rw [logEntry]
    split <;> rfl
  cases hsaved with
  | memory | unchanged | refused => exact h
  | logged body =>
    rw [hlog]
    exact h
  | checkpointed body | torn body =>
    refine WindowsSound.prune ?_ io.saveNow
    rw [hlog]
    exact h
  | snapped | unsnapped => exact h.prune io.saveNow

theorem LiveSound.saves {saved : Sys} {body : Option EntryBody} {ok : Bool} (h : LiveSound cfg sys.state history t)
    (hsaved : Saves cfg sys io body saved ok) (ht : io.saveNow ≤ t) : LiveSound cfg saved.state history t :=
  h.congr le_rfl hsaved.frame (h.windows.saves hsaved) fun k _ hu => hsaved.window k (le_trans ht hu)

variable {live : State}

theorem RowsIn.congr {live' : State} (h : RowsIn live s)
    (hsame : ∀ k, live'.groups.get? k = live.groups.get? k) : RowsIn live' s := by
  intro k group hget hne
  rw [hsame]
  exact h k group hget hne

variable {clock clock' : ℤ}

/-- **A save that returns.** `s₁` is the state that is saved; a replay of its entry is where it is. -/
theorem Inv.saved {saved : Sys} {history' : List (Option JsString × Charge)}
    {s₁ : State} {body : Option EntryBody} (h : Inv cfg sys clock history) (hclock : clock ≤ clock')
    (hsave : io.saveNow ≤ clock') (hlive : LiveSound cfg s₁ history' clock')
    (hpos : cfg.persisted = true → Positive history')
    (hcapped : Capped cfg history') (hseq : s₁.journalSeq = sys.state.journalSeq)
    (hentry : ∀ b, body = some b → isJournalEntry b = true → ∀ now s s', clock' ≤ now →
      Loaded cfg sys.state history now s → Replays cfg now s b s' → Loaded cfg s₁ history' now s')
    (hnone : body = none → ∀ now s, clock' ≤ now → Loaded cfg sys.state history now s → Loaded cfg s₁ history' now s)
    (hsaved : Saves cfg ⟨s₁, sys.disk⟩ io body saved true) : Inv cfg saved clock' history' := by
  have hlive' := hlive.saves hsaved hsave
  cases hsaved with
  | memory _ hj hp =>
    refine ⟨hlive', hpos, hcapped, fun hj' => ?_, fun hj' => ?_, fun hor => ?_⟩
    all_goals simp_all
  | unchanged hj =>
    refine ⟨hlive', hpos, hcapped, fun _ => hseq.trans (h.journalSeq hj), h.snapshotSeq,
      fun hor now s hnow hload => ?_⟩
    exact hnone rfl now s hnow (h.loads hor now s (le_trans hclock hnow) hload)
  | logged b hj =>
    have hlen := h.journalSeq hj
    have hsnap := h.snapshotSeq hj
    refine ⟨hlive', hpos, hcapped, fun _ => ?_, fun _ => ?_, fun hor now s hnow hload => ?_⟩
    · simp [hseq, hlen]
    · rw [disk_logEntry]
      refine le_trans (show Disk.snapshotSeq cfg _ ≤ sys.disk.journal.length from hsnap) ?_
      simp
    · rw [disk_logEntry] at hload
      obtain ⟨s₀, s₁', hs₀, happly, rfl, -, hvalid⟩ := load_append hj
        (by change sys.disk.snapshotSeq cfg < s₁.journalSeq + 1; omega) hload
      have hloaded := hentry b rfl hvalid now s₀ s₁' hnow (h.loads hor now s₀ (le_trans hclock hnow) hs₀)
        (replays_of_applyJournalEntry happly)
      refine ⟨⟨hloaded.sound.groups, hloaded.sound.windows, hloaded.sound.window⟩, ?_⟩
      exact RowsIn.congr hloaded.rows fun k => by rw [(unchanged_logEntry cfg _ b).groups]
  | checkpointed b hj hp =>
    have hlen := h.journalSeq hj
    refine ⟨hlive', hpos, hcapped, fun _ => ?_, fun _ => ?_, fun hor now s hnow hload => ?_⟩
    · simp [Sys.snapped, pruneWindows, hseq, hlen]
    · simp [Sys.snapped, Disk.snapshotSeq, hp, snapshot, pruneWindows, hseq, hlen]
    · have happly := load_snapped hp (fun _ => by simp [snapshot, pruneWindows, hseq, hlen]) hload
      exact loaded_applyState hlive' (hpos hp) hnow happly
  | snapped _ hj hp =>
    refine ⟨hlive', hpos, hcapped, fun hj' => ?_, fun hj' => ?_, fun hor now s hnow hload => ?_⟩
    · rw [hj] at hj'
      cases hj'
    · rw [hj] at hj'
      cases hj'
    · have happly := load_snapped hp (fun hj' => by rw [hj] at hj'; cases hj') hload
      exact loaded_applyState hlive' (hpos hp) hnow happly

/-- The used groups of a state are used in another. -/
def UsedIn (s s' : State) : Prop :=
  ∀ k group, s.groups.get? k = some group → group.IsUsed → ∃ group', s'.groups.get? k = some group' ∧ group'.IsUsed

theorem RowsIn.used {live' : State} (h : RowsIn live s) (hused : UsedIn live live') : RowsIn live' s := by
  intro k group hget hne
  obtain ⟨group', hget', hused'⟩ := h k group hget hne
  exact hused k group' hget' hused'

theorem Loaded.used {live' : State}
    (h : Loaded cfg live history now s) (hused : UsedIn live live') : Loaded cfg live' history now s :=
  ⟨h.sound, h.rows.used hused⟩

theorem usedIn_of_get?_eq (h : ∀ k, s'.groups.get? k = s.groups.get? k) : UsedIn s s' :=
  fun k group hget hused => ⟨group, (h k).trans hget, hused⟩

theorem Unchanged.usedIn (h : Unchanged s s') : UsedIn s s' :=
  usedIn_of_get?_eq fun k => by rw [h.groups]

theorem Inv.quiet {s₂ : State}
    (h : Inv cfg sys clock history) (hclock : clock ≤ clock') (hlive : LiveSound cfg s₂ history clock')
    (hseq : s₂.journalSeq = sys.state.journalSeq) (hused : UsedIn sys.state s₂) :
    Inv cfg ⟨s₂, sys.disk⟩ clock' history where
  __ := h
  live := hlive
  journalSeq := fun hj => hseq.trans (h.journalSeq hj)
  loads := fun hor now s hnow hload => (h.loads hor now s (le_trans hclock hnow) hload).used hused

theorem Inv.mono (h : Inv cfg sys clock history) (hclock : clock ≤ clock') : Inv cfg sys clock' history :=
  h.quiet hclock (h.live.mono hclock) rfl (usedIn_of_get?_eq fun _ => rfl)

/-- **A save that throws.** `s₁` is the state that was to be saved and `s₂` the one that is gone back to. -/
theorem Inv.unsaved {saved : Sys}
    {s₁ s₂ : State} {body : Option EntryBody} (h : Inv cfg sys clock history) (hclock : clock ≤ clock')
    (hlive : LiveSound cfg s₂ history clock') (hseq₁ : s₁.journalSeq = sys.state.journalSeq)
    (hseq : s₂.journalSeq = saved.state.journalSeq) (hused : UsedIn sys.state s₂)
    (hentry : Tears cfg s₁ io → ∀ b, body = some b → isJournalEntry b = true → ∀ now s s', clock' ≤ now →
      Loaded cfg sys.state history now s → Replays cfg now s b s' → Loaded cfg s₂ history now s')
    (hsaved : Saves cfg ⟨s₁, sys.disk⟩ io body saved false) : Inv cfg ⟨s₂, saved.disk⟩ clock' history := by
  cases hsaved with
  | refused | unsnapped => exact h.quiet hclock hlive (hseq.trans hseq₁) hused
  | torn b hj hp hio hsave hdue =>
    have hlen := h.journalSeq hj
    have hsnap := h.snapshotSeq hj
    have hdisk : ((logEntry cfg ⟨s₁, sys.disk⟩ b).pruned io.saveNow).disk =
        { sys.disk with journal := sys.disk.journal ++ [⟨s₁.journalSeq + 1, b⟩] } := disk_logEntry cfg _ b
    rw [hdisk]
    refine ⟨hlive, h.positive, h.capped, fun _ => ?_, fun _ => ?_, fun hor now s hnow hload => ?_⟩
    · rw [hseq]
      simp [Sys.pruned, pruneWindows, hseq₁, hlen]
    · refine le_trans (show Disk.snapshotSeq cfg _ ≤ sys.disk.journal.length from hsnap) ?_
      simp
    · obtain ⟨s₀, s₁', hs₀, happly, rfl, -, hvalid⟩ := load_append hj
        (by change sys.disk.snapshotSeq cfg < s₁.journalSeq + 1; omega) hload
      have hloaded := hentry ⟨hj, hp, hio, hsave, hdue⟩ b rfl hvalid now s₀ s₁' hnow
        (h.loads hor now s₀ (le_trans hclock hnow) hs₀) (replays_of_applyJournalEntry happly)
      exact ⟨⟨hloaded.sound.groups, hloaded.sound.windows, hloaded.sound.window⟩, hloaded.rows⟩

theorem Inv.snapped {saveNow : ℤ} (h : Inv cfg sys clock history) (hclock : clock ≤ clock') (hsave : saveNow ≤ clock')
    (hp : cfg.persisted = true) : Inv cfg (sys.snapped saveNow) clock' history := by
  have hlive : LiveSound cfg (sys.snapped saveNow).state history clock' :=
    h.live.congr hclock ⟨rfl, rfl, rfl, rfl, rfl, rfl⟩ (h.live.windows.prune saveNow)
      fun k u hu => window_pruneWindows sys.state k (le_trans hsave hu)
  refine ⟨hlive, h.positive, h.capped, h.journalSeq, fun hj => ?_, fun hor now s hnow hload => ?_⟩
  · rw [Disk.snapshotSeq, hp]
    exact (h.journalSeq hj).le
  · exact loaded_applyState hlive (h.positive hp) hnow (load_snapped hp h.journalSeq hload)

/-! ### Steps -/

theorem LiveSound.replays
    (h : LiveSound cfg s history t) (hreplays : Replays cfg now s body s') (hnamed : body.Named cfg)
    (hempty : ∀ appIds, body = .sweep appIds → ∀ k ∈ appIds, ∀ group, s.groups.get? k = some group →
      group.rows.size = 0)
    (hsame : s'.byteWindows = s.byteWindows) : LiveSound cfg s' history t := by
  refine ⟨h.groups.replays hreplays hnamed hempty, h.windows.replays hreplays, ?_⟩
  refine h.window.congr le_rfl fun k u _ => ?_
  rw [State.window, namespaceByteBucket, hsame]
  rfl

theorem usedIn_setGroup (h : ∀ previous, s.groups.get? appId = some previous → previous.IsUsed → group.IsUsed) :
    UsedIn s (s.setGroup appId group) := by
  intro k previous hget hused
  rw [State.setGroup, get?_set]
  by_cases hk : k = appId
  · subst hk
    exact ⟨group, if_pos rfl, h previous hget hused⟩
  · exact ⟨previous, (if_neg hk).trans hget, hused⟩

theorem Ensured.usedIn (h : Ensured cfg s appId info inviteKey now group) : UsedIn s (s.setGroup appId group) := by
  refine usedIn_setGroup fun previous hget hused => ?_
  rw [h.previous hget]
  exact hused

theorem Loaded.replays (h : Loaded cfg live history now s) (hreplays : Replays cfg now s body s')
    (hbody : (∃ appId inviteKey ns createdAt, body = .create appId inviteKey ns createdAt) ∨
      ∃ appId key drop, body = .takedown appId key drop) : Loaded cfg live history now s' := by
  rcases hbody with ⟨appId, inviteKey, ns, createdAt, rfl⟩ | ⟨appId, key, drop, rfl⟩
  · have hsound := fun hsame => h.sound.replays hreplays trivial (by simp) hsame
    cases hreplays with
    | known => exact h
    | created _ _ _ _ info hinfo hnone =>
      refine ⟨hsound rfl, fun k group hget hne => ?_⟩
      rw [State.setGroup, get?_set] at hget
      split at hget
      · rw [← some.inj hget] at hne
        exact absurd rfl hne
      · exact h.rows k group hget hne
  · have hsound := fun hsame => h.sound.replays hreplays trivial (by simp) hsame
    cases hreplays with
    | ignored => exact h
    | taken => exact ⟨hsound rfl, h.rows⟩

theorem createEntry_eq_some {b : EntryBody} (h : createEntry s appId group = some b) :
    ∃ appId inviteKey ns createdAt, b = .create appId inviteKey ns createdAt := by
  rw [createEntry] at h
  split at h
  · cases h
  · exact ⟨_, _, _, _, (some.inj h).symm⟩

theorem rest_undoCreate (s : State) (appId : JsString) (previous : Option Group) :
    (undoCreate s appId previous).byteWindows = s.byteWindows ∧
      (undoCreate s appId previous).journalSeq = s.journalSeq := by
  cases previous with
  | none => exact ⟨rfl, rfl⟩
  | some previous =>
    simp only [undoCreate]
    split <;> exact ⟨rfl, rfl⟩

variable {out : Outcome}

theorem Inv.create {ns : Option JsString} {created : ℤ} (h : Inv cfg sys clock history)
    (hclock : clock ≤ io.saveNow) (hsave : io.saveNow ≤ clock')
    (hout : Creates cfg sys appId ns inviteKey created io out) : Inv cfg out.sys clock' history := by
  have hle := le_trans hclock hsave
  cases hout with
  | rejected => exact h.mono hle
  | saved group saved hplan hsaved =>
    obtain ⟨info, hinfo, hens⟩ := ensured_of_planCreate hplan
    have hlive : LiveSound cfg (sys.state.setGroup appId group) history clock' :=
      ⟨h.live.groups.ensured (infoOfCreate hinfo) hens, h.live.windows, h.live.window.mono hle⟩
    refine h.saved hle hsave hlive h.positive h.capped rfl ?_ (fun _ _ _ _ hloaded => hloaded.used hens.usedIn) hsaved
    intro b hb _ now s s' hnow hloaded hreplays
    exact (hloaded.replays hreplays (.inl (createEntry_eq_some hb))).used hens.usedIn
  | undone group saved hplan hsaved =>
    obtain ⟨info, hinfo, hens⟩ := ensured_of_planCreate hplan
    have hundone := unchanged_undoCreate hens hsaved.frame
    obtain ⟨hbytes, hseq⟩ := rest_undoCreate saved.state appId (sys.state.groups.get? appId)
    have hset : WindowsSound (Sys.mk (sys.state.setGroup appId group) sys.disk).state.byteWindows :=
      h.live.windows
    have hwindows := hset.saves hsaved
    have hseq₁ : (sys.state.setGroup appId group).journalSeq = sys.state.journalSeq := rfl
    refine h.unsaved hle (h.live.congr hle hundone (by rw [hbytes]; exact hwindows) fun k u hu => ?_) hseq₁ hseq
      hundone.usedIn (fun _ b hb _ now s s' hnow hloaded hreplays => ?_) hsaved
    · rw [State.window, namespaceByteBucket, hbytes]
      exact hsaved.window k (le_trans hsave hu)
    · exact (hloaded.replays hreplays (.inl (createEntry_eq_some hb))).used hundone.usedIn

theorem Inv.takedown {drop : Bool} (h : Inv cfg sys clock history) (hclock : clock ≤ io.saveNow)
    (hsave : io.saveNow ≤ clock') (hout : Takes cfg sys appId key drop io out) :
    Inv cfg out.sys clock' history := by
  have hle := le_trans hclock hsave
  cases hout with
  | rejected | same => exact h.mono hle
  | saved composite saved hkey hother hsaved =>
    have hlive : LiveSound cfg (sys.state.suppress composite drop) history clock' :=
      ⟨h.live.groups, h.live.windows, h.live.window.mono hle⟩
    refine h.saved hle hsave hlive h.positive h.capped rfl ?_ (fun hno => by cases hno) hsaved
    rintro b hb _ now s s' hnow hloaded hreplays
    exact (hloaded.replays hreplays (.inr ⟨_, _, _, (some.inj hb).symm⟩)).used (usedIn_of_get?_eq fun _ => rfl)
  | undone composite saved hkey hother hsaved =>
    have hseq : (sys.state.suppress composite drop).journalSeq = sys.state.journalSeq := rfl
    have hused : UsedIn sys.state (saved.state.suppress composite (!drop)) :=
      usedIn_of_get?_eq fun k => congrArg (get? · k) hsaved.frame.groups
    have hbefore : LiveSound cfg (Sys.mk (sys.state.suppress composite drop) sys.disk).state history clock' :=
      ⟨h.live.groups, h.live.windows, h.live.window.mono hle⟩
    have hsaved' := hbefore.saves hsaved hsave
    have hlive : LiveSound cfg (saved.state.suppress composite (!drop)) history clock' :=
      ⟨hsaved'.groups, hsaved'.windows, hsaved'.window⟩
    refine h.unsaved hle hlive hseq rfl hused (fun _ b hb _ now s s' hnow hloaded hreplays => ?_) hsaved
    exact (hloaded.replays hreplays (.inr ⟨_, _, _, (some.inj hb).symm⟩)).used hused

theorem Loaded.sweep {live' : State} {batch : List JsString} (h : Loaded cfg live history now s)
    (hunused : ∀ k ∈ batch, ∀ group, live.groups.get? k = some group → ¬ group.IsUsed)
    (hreplays : Replays cfg now s (.sweep batch) s')
    (hlive' : ∀ k, k ∉ batch → live'.groups.get? k = live.groups.get? k) : Loaded cfg live' history now s' := by
  have hempty : ∀ k ∈ batch, ∀ group, s.groups.get? k = some group → group.rows.size = 0 := by
    intro k hk group hget
    by_contra hne
    obtain ⟨group', hget', hused⟩ := h.rows k group hget hne
    exact hunused k hk group' hget' hused
  have hsound := fun hsame => h.sound.replays hreplays trivial (fun appIds heq => by cases heq; exact hempty) hsame
  cases hreplays with
  | swept =>
    refine ⟨hsound (rest_deleteAll batch s).1, fun k group hget hne => ?_⟩
    rw [groups_deleteAll] at hget
    split at hget
    · cases hget
    · next hk =>
      rw [hlive' k hk]
      exact h.rows k group hget hne

/-- **A sweep keeps the invariant**, batch by batch. -/
theorem Inv.sweeps {ios : ℕ → Io} {i : ℕ} {appIds : List JsString} {after : Sys} {result : Except Failure ℕ}
    (h : Inv cfg sys clock history) (hsave : ∀ i, (ios i).saveNow ≤ clock)
    (hunused : ∀ k ∈ appIds, ∀ group, sys.state.groups.get? k = some group → ¬ group.IsUsed)
    (hsweeps : Sweeps cfg ios i appIds sys after result) : Inv cfg after clock history := by
  have hdelete : ∀ {sys : Sys} {batch : List JsString}, Inv cfg sys clock history →
      (∀ k ∈ batch, ∀ group, sys.state.groups.get? k = some group → ¬ group.IsUsed) →
      LiveSound cfg (batch.foldl deleteGroupState sys.state) history clock := by
    intro sys batch h hunused
    obtain ⟨hbytes, htotal, -⟩ := rest_deleteAll batch sys.state
    refine ⟨?_, by rw [hbytes]; exact h.live.windows, h.live.window.congr le_rfl fun k u _ => ?_⟩
    · rw [htotal]
      refine h.live.groups.deleteAll fun k hk group hget => ?_
      by_contra hne
      exact hunused k hk group hget (.inl hne)
    · rw [State.window, namespaceByteBucket, hbytes]
      rfl
  induction hsweeps with
  | done => exact h
  | back i appIds sys saved hne hsaved =>
    have hbatch : ∀ k ∈ appIds.take SWEEP_JOURNAL_BATCH, ∀ group, sys.state.groups.get? k = some group →
        ¬ group.IsUsed := fun k hk => hunused k (mem_of_mem_take hk)
    have hgroups := groups_sweep_back sys.state saved.state _ hsaved.frame.groups
    obtain ⟨groups, hback⟩ := rest_putBack saved.state ((appIds.take SWEEP_JOURNAL_BATCH).filterMap
      fun appId => (sys.state.groups.get? appId).map fun group => (appId, group))
    rw [hback] at hgroups ⊢
    have hs₁ := LiveSound.saves (hdelete h hbatch) hsaved (hsave i)
    have hlive : LiveSound cfg { saved.state with groups := groups } history clock := by
      refine ⟨?_, hs₁.windows, hs₁.window⟩
      have htotal : saved.state.totalBytes = sys.state.totalBytes :=
        hsaved.frame.totalBytes.trans (rest_deleteAll _ sys.state).2.1
      rw [htotal]
      exact h.live.groups.congr hgroups
    refine h.unsaved le_rfl hlive (rest_deleteAll _ sys.state).2.2.2.2 rfl (usedIn_of_get?_eq hgroups)
      (fun _ b hb _ now s s' hnow hloaded hreplays => ?_) hsaved
    cases hb
    exact hloaded.sweep hbatch hreplays fun k _ => hgroups k
  | next i appIds sys saved after result hne hsaved _ ih =>
    have hbatch : ∀ k ∈ appIds.take SWEEP_JOURNAL_BATCH, ∀ group, sys.state.groups.get? k = some group →
        ¬ group.IsUsed := fun k hk => hunused k (mem_of_mem_take hk)
    refine ih ?_ ?_
    · refine h.saved le_rfl (hsave i) (hdelete h hbatch) h.positive h.capped
        (rest_deleteAll _ sys.state).2.2.2.2 (fun b hb _ now s s' hnow hloaded hreplays => ?_)
        (fun hno => by cases hno) hsaved
      cases hb
      refine hloaded.sweep hbatch hreplays fun k hk => ?_
      rw [groups_deleteAll, if_neg hk]
    · intro k hk group hget
      rw [hsaved.frame.groups, groups_deleteAll] at hget
      split at hget
      · cases hget
      · exact hunused k (mem_of_mem_drop hk) group hget

/-! ### Appends -/

theorem sum_bytes_le {l l' : List Charge} (h : l.Sublist l') :
    ((l.map Charge.bytes).sum : ℤ) ≤ (l'.map fun charge => (charge.bytes : ℤ)).sum := by
  have hcast : ∀ l : List Charge, ((l.map Charge.bytes).sum : ℤ) = (l.map fun charge => (charge.bytes : ℤ)).sum := by
    intro l
    induction l with
    | nil => rfl
    | cons charge l ih => simp [ih]
  rw [hcast]
  exact List.Sublist.sum_le_sum (h.map _) fun _ hmem => by
    obtain ⟨charge, -, rfl⟩ := mem_map.mp hmem
    exact Int.natCast_nonneg _

theorem Capped.append {cap : ℕ} (h : Capped cfg history) (hwindow : Windowed cfg s history now)
    (hsound : WindowsSound s.byteWindows) (hreg : ∀ i, info = some i → Registered cfg i)
    (hbudget : byteBudget cfg info = some cap)
    (hfits : (pruneNamespaceByteWindow (namespaceByteBucket s (info.map NamespaceInfo.name)) now).total + size ≤
      cap) : Capped cfg (history ++ [(info.map NamespaceInfo.name, ⟨now, size⟩)]) := by
  intro i cap' hregi hbudgeti t
  rw [taken_append]
  split
  · next hi =>
    obtain rfl := eq_some_of_name hreg hregi hi
    rw [hbudget, some.injEq] at hbudgeti
    subst hbudgeti
    by_cases ht : now ≤ t
    · -- what is alive at `t` was alive when the append was checked
      have hold : (taken history i.name).filter (fun charge => charge.isAlive t && decide (charge.ts ≤ t))
          |>.Sublist ((taken history i.name).filter (·.isAlive now)) := by
        refine monotone_filter_right _ fun charge halive => ?_
        simp only [Charge.isAlive, Bool.and_eq_true, decide_eq_true_eq] at halive ⊢
        omega
      have hkept := hwindow i hregi (by rw [hbudget]; simp) now le_rfl
      have hlive : (s.window (some i.name) now).Sublist (pruneNamespaceByteWindow
          (namespaceByteBucket s (some i.name)) now).charges := by
        rw [State.window, charges_prune, ← filter_dropWhile_alive _ le_rfl]
        exact filter_sublist
      have hsum := sum_bytes_le (hold.trans (hkept.trans hlive))
      have hbalanced := (hsound.bucket (some i.name)).prune now
      rw [map_some, hbalanced] at hfits
      have hlast : (([Charge.mk now size].filter fun charge => charge.isAlive t && decide (charge.ts ≤ t)).map
          Charge.bytes).sum ≤ size := by
        rw [filter_cons]
        split <;> simp
      rw [bytesInDay, filter_append, map_append, sum_append]
      omega
    · have hlate : ([Charge.mk now size].filter fun charge => charge.isAlive t && decide (charge.ts ≤ t)) = [] := by
        simp only [filter_cons, filter_nil]
        rw [if_neg]
        simp only [Bool.and_eq_true, decide_eq_true_eq]
        omega
      rw [bytesInDay, filter_append, hlate, append_nil]
      exact h i cap hregi hbudget t
  · rw [append_nil]
    exact h i cap' hregi hbudgeti t

theorem Capped.uncapped {charge : Charge} (h : Capped cfg history)
    (hreg : ∀ i, info = some i → Registered cfg i) (hbudget : byteBudget cfg info = none) :
    Capped cfg (history ++ [(info.map NamespaceInfo.name, charge)]) := by
  intro i cap hregi hbudgeti t
  rw [taken_append, if_neg, append_nil]
  · exact h i cap hregi hbudgeti t
  · intro hi
    rw [eq_some_of_name hreg hregi hi, hbudgeti] at hbudget
    cases hbudget

theorem Windowed.withoutNamespace
    (h : Windowed cfg s history t) (charge : Charge) : Windowed cfg s (history ++ [(none, charge)]) t := by
  intro i hreg hbudget u hu
  rw [taken_append, if_neg (by simp), append_nil]
  exact h i hreg hbudget u hu

theorem Windowed.init
    {e : Option JsString × Charge} (h : Windowed cfg s (history ++ [e]) t) : Windowed cfg s history t := by
  intro i hreg hbudget u hu
  refine List.Sublist.trans ?_ (h i hreg hbudget u hu)
  rw [taken_append, filter_append]
  exact sublist_append_left _ _

theorem restoreVerifies_of_verified (htype : type ≠ []) (h : verdict cfg appId type data info = .verified) :
    restoreVerifies cfg appId (some type) data info = true := by
  unfold restoreVerifies
  split <;> simp_all

/-- **The entry of an accepted append is replayed with its charge.** -/
theorem Loaded.append {live' : State} {created : ℤ} {before : State}
    (h : Loaded cfg live history clock s) (hpassed : Passed cfg appId type data checked)
    (hens : Ensured cfg before appId checked.info inviteKey created group)
    (hvalid : isJournalEntry (journalAppendEntry appId group type data now) = true)
    (hreplays : Replays cfg clock s (journalAppendEntry appId group type data now) s')
    (hused : UsedIn live live') (happ : ∃ g, live'.groups.get? appId = some g ∧ g.IsUsed) :
    Loaded cfg live' (history ++ [(checked.info.map NamespaceInfo.name, ⟨now, checked.size⟩)]) clock s' := by
  obtain ⟨hreg, hrecord, hconf⟩ := infoOfAppend hpassed.info
  have htype : type ≠ [] := by
    rintro rfl
    simp [isJournalEntry, journalAppendEntry, isEntryId] at hvalid
  -- the namespace of the replay is the one of the append, if there was one
  have hinfo : ∀ i info', checked.info = some i →
      persistedNamespace cfg (normalizePersistedNamespace (group.ns <|> recordNamespace data) <|>
        recordNamespace data) = .ok info' → info' = some i := by
    intro i info' hi hinfo'
    obtain ⟨hname, hreg'⟩ := infoOfEntry hinfo'
    rw [hens.ns i hi] at hname
    have hnormal : normalizePersistedNamespace (some i.name <|> recordNamespace data) = some i.name :=
      (hreg i hi).normal
    rw [hnormal] at hname
    exact eq_some_of_name hreg' (hreg i hi) hname.symm
  have hnamed : (journalAppendEntry appId group type data now).Named cfg := by
    intro _ hnone
    refine hconf ?_
    rw [hrecord] at hnone
    exact map_eq_none_iff.mp hnone
  have hgroups := h.sound.groups.replays hreplays hnamed nofun
  have hwindows := h.sound.windows.replays hreplays
  cases hreplays with
  | dropped _ _ _ _ _ _ info' hinfo' hfalse =>
    cases hi : checked.info with
    | none => exact ⟨⟨hgroups, hwindows, h.sound.window.withoutNamespace _⟩, h.rows.used hused⟩
    | some i =>
      rw [hinfo i info' hi hinfo', ← hi, restoreVerifies_of_verified htype hpassed.verified] at hfalse
      cases hfalse
  | written _ _ _ _ _ _ info' id group' hinfo' hid hgroup hrows hbytes =>
    have hwritten : Windowed cfg (writeRow cfg (s.setGroup appId group') appId group' (rowKey type id) type data
        (jsonSize data)) history clock := h.sound.window.congr le_rfl fun _ _ _ => rfl
    have hnote := hwritten.note (jsonSize data) now (infoOfEntry hinfo').2
    refine ⟨⟨hgroups, hwindows, ?_⟩, fun k g hget hne => ?_⟩
    · cases hi : checked.info with
      | none => exact hnote.init.withoutNamespace _
      | some i =>
        rw [hinfo i info' hi hinfo', ← hpassed.size] at hnote
        rw [hinfo i info' hi hinfo', ← hpassed.size]
        exact hnote
    · obtain ⟨windows, heq⟩ := sameRows_noteNamespaceByteCharge cfg
        (writeRow cfg (s.setGroup appId group') appId group' (rowKey type id) type data (jsonSize data)) info'
        (jsonSize data) (some now) clock
      rw [heq] at hget
      rw [groups_writeRow, State.setGroup, OrderedMap.set_set] at hget
      by_cases hk : k = appId
      · rw [hk]
        exact happ
      · rw [get?_set_of_ne hk] at hget
        exact (h.rows.used hused) k g hget hne

theorem size_pos_of_recordId {id : JsString} (h : (recordId data).bind toText = some id) : 0 < jsonSize data := by
  cases data with
  | object members =>
    rw [jsonSize, Json.text, JsString.utf8, JsString.points_unit (by decide), flatMap_cons,
      length_append, String.length_utf8EncodeChar]
    have := Char.utf8Size_pos (JsString.Point.unit 0x7b).char
    omega
  | _ => cases h

theorem used_writeRow (s : State) (appId : JsString) (group : Group) (key type : JsString) (data : Json)
    (size : ℕ) : ∃ g, (writeRow cfg s appId group key type data size).groups.get? appId = some g ∧ g.IsUsed := by
  rw [groups_writeRow, get?_set_self]
  exact ⟨_, rfl, .inr (Nat.succ_ne_zero _)⟩

theorem usedIn_writeRow (s : State) (appId : JsString) (group : Group) (key type : JsString) (data : Json)
    (size : ℕ) : UsedIn s (writeRow cfg (s.setGroup appId group) appId group key type data size) := by
  intro k previous hget hused
  by_cases hk : k = appId
  · rw [hk]
    exact used_writeRow _ appId group key type data size
  · refine ⟨previous, ?_, hused⟩
    rw [groups_writeRow, State.setGroup, OrderedMap.set_set, get?_set_of_ne hk]
    exact hget

theorem Admits.windowsSound {admitted : State} {result : Except Failure Bool}
    (h : WindowsSound s.byteWindows) (hreg : ∀ i, checked.info = some i → Registered cfg i)
    (hadmits : Admits cfg s key group checked now admitted result) : WindowsSound admitted.byteWindows := by
  have hset := h.set ((h.bucket (checked.info.map NamespaceInfo.name)).prune now) (normal_of_info hreg)
  rcases hadmits with _ | _ | _ | _
  · exact h
  · exact hset
  · exact h
  · exact hset

variable {tracked : Bool}

theorem WindowsSound.applyAppend
    (h : WindowsSound s.byteWindows) (hreg : ∀ i, checked.info = some i → Registered cfg i) :
    WindowsSound (applyAppend cfg s appId group key type data checked tracked now).byteWindows := by
  have hrow : WindowsSound (writeRow cfg s appId group key type data checked.size).byteWindows := h
  cases tracked with
  | false => exact hrow
  | true => exact hrow.set ((hrow.bucket _).charge checked.size now) (normal_of_info hreg)

theorem WindowsSound.undoAppend {before : State}
    (h : WindowsSound s.byteWindows) (hreg : ∀ i, checked.info = some i → Registered cfg i) :
    WindowsSound (undoAppend s before appId group key checked.info tracked checked.size).byteWindows := by
  cases tracked with
  | false => exact h
  | true => exact h.set (h.bucket _).uncharge (normal_of_info hreg)

theorem window_applyAppend (k : Option JsString) (t : ℤ) :
    (applyAppend cfg s appId group key type data checked tracked now).window k t =
      s.window k t ++ if tracked = true ∧ k = checked.info.map NamespaceInfo.name then
        [Charge.mk now checked.size].filter (·.isAlive t) else [] := by
  rw [State.window, charges_applyAppend, State.window]
  split
  · rw [filter_append]
  · rw [append_nil]

/-- **An append keeps the invariant**, if its save is not torn. -/
theorem Inv.append {created : ℤ} (h : Inv cfg sys clock history) (hclock : clock ≤ now) (hnow : now ≤ io.saveNow)
    (hsave : io.saveNow ≤ clock') (hepoch : cfg.persisted = true → 0 < now) (htears : ¬ Tears cfg sys.state io)
    (hout : Appends cfg sys appId type data inviteKey created now io out) :
    Inv cfg out.sys clock' (history ++ accepted cfg (.append appId type data inviteKey created now io) out) := by
  have hle : clock ≤ clock' := le_trans hclock (le_trans hnow hsave)
  cases hout with
  | rejected failure hplan =>
    rw [accepted_error, append_nil]
    exact h.mono hle
  | refused checked group admitted failure hplan hpassed =>
    rw [accepted_error, append_nil]
    obtain ⟨hcheck, hens⟩ := ensured_of_planAppend hplan
    obtain ⟨hreg, -, -⟩ := infoOfAppend (passed_of_checkAppend hcheck).info
    have hadmits := admits_of_admitAppend hpassed
    have hset : LiveSound cfg (sys.state.setGroup appId group) history clock :=
      ⟨h.live.groups.ensured hreg hens, h.live.windows, h.live.window⟩
    refine h.quiet hle ((hset.mono hclock).congr (le_trans hnow hsave) hadmits.frame
      (hadmits.windowsSound hset.windows hreg) fun k u hu => ?_) hadmits.journalSeq fun k g hget hused => ?_
    · exact hadmits.window k (le_trans (le_trans hnow hsave) hu)
    · rw [hadmits.frame.groups]
      exact hens.usedIn k g hget hused
  | saved checked group admitted tracked saved hplan hpassed hsaved =>
    obtain ⟨hcheck, hens⟩ := ensured_of_planAppend hplan
    have hchecked := passed_of_checkAppend hcheck
    obtain ⟨hreg, -, hconf⟩ := infoOfAppend hchecked.info
    have hadmits := admits_of_admitAppend hpassed
    have hadmits' := hadmits
    have hset : LiveSound cfg (sys.state.setGroup appId group) history clock :=
      ⟨h.live.groups.ensured hreg hens, h.live.windows, h.live.window⟩
    set written := writeRow cfg (sys.state.setGroup appId group) appId group (rowKey type checked.id) type data
      checked.size
    set applied := applyAppend cfg admitted appId group (rowKey type checked.id) type data checked tracked now
    set charged := history ++ [(checked.info.map NamespaceInfo.name, ⟨now, checked.size⟩)]
    have happlied : Unchanged written applied :=
      (hadmits.frame.writeRow cfg appId group (rowKey type checked.id) type data checked.size).trans
        unchanged_applyAppend
    have hused : UsedIn sys.state applied := by
      intro k g hget hg
      rw [happlied.groups]
      exact usedIn_writeRow sys.state appId group _ type data _ k g hget hg
    have happ : ∃ g, applied.groups.get? appId = some g ∧ g.IsUsed := by
      rw [happlied.groups]
      exact used_writeRow _ appId group _ type data _
    have hseq : applied.journalSeq = sys.state.journalSeq := by
      refine Eq.trans ?_ hadmits.journalSeq
      cases tracked <;> rfl
    -- the checks of the state, and whether the append is charged
    have hfacts : GroupsSound cfg written.groups written.totalBytes ∧ Capped cfg charged ∧
        (tracked = true ↔ byteBudget cfg checked.info ≠ none) := by
      cases hadmits with
      | untracked hbudget hrows hbytes =>
        exact ⟨hset.groups.written type hchecked.size get?_set_self hreg hens.ns hconf hrows hbytes,
          h.capped.uncapped hreg hbudget, by simp [hbudget]⟩
      | tracked cap hbudget hrows hbytes hfits =>
        exact ⟨hset.groups.written type hchecked.size get?_set_self hreg hens.ns hconf hrows hbytes,
          h.capped.append (hset.window.mono hclock) hset.windows hreg hbudget hfits, by simp [hbudget]⟩
    obtain ⟨hgroups, hcapped, htracked⟩ := hfacts
    have hwindow : Windowed cfg applied charged now := by
      have hold : Windowed cfg admitted history now :=
        hset.window.congr hclock fun k u hu => hadmits'.window k hu
      refine hold.append hreg (fun hbudget k u _ => ?_) fun hbudget k u _ => ?_
      · refine (window_applyAppend k u).trans ?_
        simp only [htracked.mpr hbudget, true_and]
      · have : tracked = false := by
          rw [← Bool.not_eq_true, htracked]
          exact fun hne => hne hbudget
        refine (window_applyAppend k u).trans ?_
        rw [this, if_neg (by simp), append_nil]
    have hlive : LiveSound cfg applied charged clock' := by
      refine ⟨?_, (hadmits'.windowsSound hset.windows hreg).applyAppend hreg, hwindow.mono (le_trans hnow hsave)⟩
      rw [happlied.groups, happlied.totalBytes]
      exact hgroups
    have hpos : cfg.persisted = true → Positive charged := by
      intro hp e he
      rcases mem_append.mp he with he | he
      · exact h.positive hp e he
      · rw [mem_singleton.mp he]
        exact ⟨hepoch hp, by rw [hchecked.size]; exact size_pos_of_recordId hchecked.id⟩
    rw [accepted_append hcheck]
    refine h.saved hle hsave hlive hpos hcapped hseq (fun b hb hvalid t s s' _ hloaded hreplays => ?_)
      (fun hno => by cases hno) hsaved
    cases hb
    exact hloaded.append hchecked hens hvalid hreplays hused happ
  | undone checked group admitted tracked saved hplan hpassed hsaved =>
    rw [accepted_error, append_nil]
    obtain ⟨hcheck, hens⟩ := ensured_of_planAppend hplan
    obtain ⟨hreg, -, -⟩ := infoOfAppend (passed_of_checkAppend hcheck).info
    have hadmits := admits_of_admitAppend hpassed
    obtain ⟨hundone, hwindow⟩ := append_undone hens hadmits hsaved
    set applied := applyAppend cfg admitted appId group (rowKey type checked.id) type data checked tracked now
    have happlied : applied.journalSeq = sys.state.journalSeq ∧
        applied.entriesSinceCheckpoint = sys.state.entriesSinceCheckpoint := by
      constructor
      · refine Eq.trans ?_ hadmits.journalSeq
        cases tracked <;> rfl
      · cases hadmits <;> rfl
    have hset : WindowsSound (sys.state.setGroup appId group).byteWindows := h.live.windows
    have happ : WindowsSound (Sys.mk applied sys.disk).state.byteWindows :=
      (hadmits.windowsSound hset hreg).applyAppend hreg
    refine h.unsaved hle (h.live.congr hle hundone ((happ.saves hsaved).undoAppend hreg) fun k u hu => ?_)
      happlied.1 rfl hundone.usedIn (fun htorn => absurd ?_ htears) hsaved
    · exact hwindow k u (le_trans (le_trans hnow hsave) hu) (le_trans hsave hu)
    · obtain ⟨hj, hp, hio, hfail, hdue⟩ := htorn
      rw [happlied.2] at hdue
      exact ⟨hj, hp, hio, hfail, hdue⟩

/-! ### Runs of allowed steps -/

theorem inv_start (cfg : Config) (clock : ℤ) : Inv cfg ⟨.new, ⟨none, []⟩⟩ clock [] := by
  have hlive : ∀ t, LiveSound cfg .new [] t :=
    fun t => ⟨groupsSound_empty, windowsSound_empty, fun _ _ _ _ _ => nil_sublist _⟩
  refine ⟨hlive clock, fun _ e he => ?_, fun _ _ _ _ _ => Nat.zero_le _, fun _ => rfl, fun _ => ?_,
    fun _ now s _ hload => ?_⟩
  · cases he
  · rw [Disk.snapshotSeq]
    split <;> simp_all
  · have hs : s = .new := by
      rw [load_eq, loadBase] at hload
      split at hload
      · simp_all
      · cases hj : cfg.journaled <;> simp only [hj] at hload <;> cases hload <;> rfl
    subst hs
    refine ⟨hlive now, fun k group hget => ?_⟩
    cases hget

theorem Inv.restart
    (h : Inv cfg sys clock history) (hnow : clock ≤ now) (hor : cfg.persisted = true ∨ cfg.journaled = true)
    (hload : load cfg sys.disk now = .ok s) : Inv cfg ⟨s, sys.disk⟩ now history := by
  refine ⟨(h.loads hor now s hnow hload).sound, h.positive, h.capped,
    fun hj => journalSeq_load hj (h.snapshotSeq hj) hload, h.snapshotSeq, fun _ now' s' hnow' hload' => ?_⟩
  refine ⟨(h.loads hor now' s' (le_trans hnow hnow') hload').sound, fun k group hget hne => ?_⟩
  obtain ⟨s'', hload'', windows, rfl⟩ := load_at now' hload
  rw [hload', Except.ok.injEq] at hload''
  subst hload''
  exact ⟨group, hget, .inl hne⟩

theorem Run.inv (hrun : Run cfg (Allowed cfg) sys clock history) : Inv cfg sys clock history := by
  induction hrun with
  | start clock => exact inv_start cfg clock
  | restarted sys clock now history s _ hnow hok hload ih => exact ih.restart hnow hok hload
  | called sys clock clock' history c _ hwithin hok ih =>
    cases c with
    | create appId ns inviteKey created io =>
      rw [show accepted cfg (.create appId ns inviteKey created io) _ = [] from rfl, append_nil]
      exact ih.create hwithin.1 hwithin.2 (creates cfg sys appId ns inviteKey created io)
    | append appId type data inviteKey created now io =>
      exact ih.append hwithin.1 hwithin.2.1 hwithin.2.2 hok.1 hok.2
        (appends cfg sys appId type data inviteKey created now io)
    | takedown appId key drop io =>
      rw [show accepted cfg (.takedown appId key drop io) _ = [] from rfl, append_nil]
      exact ih.takedown hwithin.1 hwithin.2 (takes cfg sys appId key drop io)
    | sweep ttlMs now ios =>
      rw [show accepted cfg (.sweep ttlMs now ios) _ = [] from rfl, append_nil]
      obtain ⟨result, hsweeps, -⟩ := sweeps cfg sys ttlMs now ios
      refine (ih.mono hwithin.1).sweeps (fun i => (hwithin.2 i).2) (fun k hk group hget => ?_) hsweeps
      obtain ⟨group', hget', hghost⟩ := mem_victims.mp hk
      rw [hget, some.injEq] at hget'
      subst hget'
      simp only [isGhost, Bool.and_eq_true, decide_eq_true_eq] at hghost
      rintro (hne | hne)
      · exact hne hghost.1.1
      · exact hne hghost.1.2
    | flush io =>
      rw [show accepted cfg (.flush io) _ = [] from rfl, append_nil]
      have hle := le_trans hwithin.1 hwithin.2
      have hflush : ∀ after ok, Flushes cfg sys io after ok → Inv cfg after clock' history := by
        intro after ok hflushes
        cases hflushes with
        | clean => exact ih.mono hle
        | snapped hp => exact ih.snapped hle hwithin.2 hp
        | unsnapped =>
          refine ih.quiet hle (ih.live.congr hle (unchanged_pruneWindows sys.state io.saveNow)
            (ih.live.windows.prune io.saveNow) fun k u hu => ?_) rfl (usedIn_of_get?_eq fun _ => rfl)
          exact window_pruneWindows sys.state k (le_trans hwithin.2 hu)
      rw [call]
      split
      · next saved hflushed => exact hflush saved true (flushes hflushed)
      · next saved hflushed => exact hflush saved false (flushes hflushed)

/-- **Quotas and the cap of a day.** They hold in every run in which no append tears its save, no time before
the epoch is persisted, and a log is restarted from what it persisted. -/
theorem run_keeps_quotas {sys : Sys} {clock : ℤ} {history : List (Option JsString × Charge)}
    (hrun : Run cfg (Allowed cfg) sys clock history) : Quotas cfg sys.state ∧ Capped cfg history :=
  ⟨hrun.inv.live.groups.quotas, hrun.inv.capped⟩

/-! ### Two runs -/

/-- A log of one namespace of fifty bytes a day, with a snapshot after every two entries. -/
def dayLog : Config := { checkpointLog with
  checkpointEvery := 2
  registry := ⟨true, [⟨ofText "outbox", false, ⟨none, none, none, some 50⟩⟩]⟩
  named := by decide
  capless := by decide }

/-- The append of a record of twenty-five bytes. -/
def postAt (now : ℤ) : Call :=
  .append (ofText "a") (ofText "post")
    (.object [(ofText "id", .string (ofText "k")), (ofText "_ns", .string (ofText "outbox"))]) [] 0 now
    ⟨false, false, now⟩

def createAt (now : ℤ) : Call := .create (ofText "a") (some (ofText "outbox")) (replicate 64 0x61) 0 ⟨false, false, now⟩

/-- The log after two appends of one row, the second behind the snapshot. -/
def filledDay : Sys :=
  (call dayLog (call dayLog (call dayLog ⟨.new, ⟨none, []⟩⟩ (createAt 1)).sys (postAt 2)).sys (postAt 3)).sys

/-- What the two appends took of the day. -/
def filledHistory : List (Option JsString × Charge) :=
  [(some (ofText "outbox"), ⟨2, 25⟩), (some (ofText "outbox"), ⟨3, 25⟩)]

theorem run_filledDay : Run dayLog (Allowed dayLog) filledDay 3 filledHistory := by
  have hcreate := Run.called _ 0 1 [] (createAt 1) (@Run.start dayLog (Allowed dayLog) 0) ⟨by decide, le_rfl⟩ trivial
  have hfirst := Run.called _ 1 2 _ (postAt 2) hcreate ⟨by decide, le_rfl, le_rfl⟩
    ⟨fun _ => by decide, fun h => by cases h.2.2.2.1⟩
  obtain ⟨history, hrun, rfl⟩ : ∃ history, Run dayLog (Allowed dayLog) filledDay 3 history ∧ history = filledHistory :=
    ⟨_, .called _ 2 3 _ (postAt 3) hfirst ⟨by decide, le_rfl, le_rfl⟩
      ⟨fun _ => by decide, fun h => by cases h.2.2.2.1⟩, by rfl⟩
  exact hrun

/-- Two appends fill the day, a restart rebuilds the window from the snapshot and the entry behind it, and a
third append is refused. -/
theorem run_keeps_quotas_sample : ∃ s, load dayLog filledDay.disk 4 = .ok s ∧ s.totalBytes = 25 ∧
    (call dayLog ⟨s, filledDay.disk⟩ (postAt 5)).result.toOption.isNone = true ∧ Quotas dayLog s ∧
    Capped dayLog filledHistory := by
  have hload : ((load dayLog filledDay.disk 4).toOption.map fun s =>
      (s.totalBytes, (call dayLog ⟨s, filledDay.disk⟩ (postAt 5)).result.toOption.isNone)) = some (25, true) := by
    decide +kernel
  cases hs : load dayLog filledDay.disk 4 with
  | error failure =>
    rw [hs] at hload
    cases hload
  | ok s =>
    rw [hs] at hload
    obtain ⟨hbytes, hrefused⟩ := Prod.mk.inj (some.inj hload)
    exact ⟨s, rfl, hbytes, hrefused, run_keeps_quotas (.restarted filledDay 3 4 filledHistory s run_filledDay
      (by decide) (.inl rfl) hs)⟩

/-- A log that writes a snapshot after every two entries. -/
def secondLog : Config := { checkpointLog with checkpointEvery := 2 }

def plainRecord : Json := .object [(ofText "id", .string (ofText "k"))]

/-- The log after a create, an append whose snapshot is not written, and a sweep whose snapshot is not
written. -/
def tornAppend : Sys :=
  let start : Sys := ⟨.new, ⟨none, []⟩⟩
  let created := (call secondLog start (.create (ofText "a") none (replicate 64 0x61) 0 ⟨false, false, 1⟩)).sys
  let appended := (call secondLog created
    (.append (ofText "a") (ofText "post") plainRecord [] 0 1 ⟨false, true, 1⟩)).sys
  (call secondLog appended (.sweep 0 1 fun _ => ⟨false, true, 1⟩)).sys

theorem run_tornAppend : ∃ history, Run secondLog (fun _ _ => True) tornAppend 1 history := by
  have hcreate := Run.called _ 0 1 [] (.create (ofText "a") none (replicate 64 0x61) 0 ⟨false, false, 1⟩)
    (@Run.start secondLog (fun _ _ => True) 0) ⟨by decide, le_rfl⟩ trivial
  have happend := Run.called _ 1 1 _
    (.append (ofText "a") (ofText "post") plainRecord [] 0 1 ⟨false, true, 1⟩) hcreate
    ⟨le_rfl, le_rfl, le_rfl⟩ trivial
  exact ⟨_, .called _ 1 1 _ (.sweep 0 1 fun _ => ⟨false, true, 1⟩) happend
    ⟨le_rfl, fun _ => ⟨le_rfl, le_rfl⟩⟩ trivial⟩

/-- **A restart counts bytes of rows that are not there**: the append and the sweep threw, and their entries
are replayed. -/
theorem torn_append_counted : ∃ sys clock history, Run secondLog (fun _ _ => True) sys clock history ∧
    ¬ Quotas secondLog sys.state := by
  have hload : ((load secondLog tornAppend.disk 1).toOption.map fun s => (s.totalBytes, s.groups.size)) =
      some (10, 0) := by decide +kernel
  obtain ⟨history, hrun⟩ := run_tornAppend
  cases hs : load secondLog tornAppend.disk 1 with
  | error failure =>
    rw [hs] at hload
    cases hload
  | ok s =>
    rw [hs] at hload
    have hpair : (s.totalBytes, s.groups.size) = (10, 0) := some.inj hload
    rw [Prod.mk.injEq] at hpair
    refine ⟨⟨s, tornAppend.disk⟩, 1, history, .restarted tornAppend 1 1 history s hrun le_rfl trivial hs, fun h => ?_⟩
    have hnone : s.groups = .empty := ext_entries (length_eq_zero_iff.mp hpair.2)
    have htotal := h.totalBytes
    rw [hpair.1, hnone] at htotal
    cases htotal

end HiveRelay.Outbox
