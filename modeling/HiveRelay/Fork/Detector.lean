import HiveRelay.Lib.Guard
import HiveRelay.Lib.OrderedMap
import HiveRelay.Lib.Run
import HiveRelay.Outbox.Record
import Mathlib.Data.List.Sort

/-!
# Fork records

Two relays that serve different blocks at one index of a core make a fork, and the core is quarantined
until the operator resolves the record. A report from the network must carry two blocks that the key of
the core has signed. The records are capped: when there are too many, the oldest are dropped, resolved or
not. A later report for a core that has a record adds its evidence and changes nothing else.

The log of bypasses is left out.

## Main definitions

* `Spares` — a step that neither resolves nor drops a record
* `Quarantined` — a record that is not resolved

## Main results

* `older_of_mem_victims` — what is dropped
* `quarantine_persists` — until resolution
-/

namespace HiveRelay.Fork

open List Option OrderedMap
open JsString (ofText)
open Outbox (toLowerCase isHex fromHex hexValue)

/-! ### Evidence -/

/-- A signed block, and the relay it came from. -/
structure Evidence where
  (fromRelay block signature : JsString)

def isWellFormedEvidence (e : Evidence) : Bool :=
  !e.fromRelay.isEmpty && !e.block.isEmpty && !e.signature.isEmpty

def decodeSignedBlock (e : Evidence) : Option (Bytes × Bytes) :=
  if !e.block.isEmpty && isHex e.signature 128 && (e.block.all fun u => (hexValue u).isSome) &&
      e.block.length % 2 == 0 then
    some (fromHex e.block, fromHex e.signature)
  else none

/-- The check of a signature over a block with a key. -/
abbrev Verify : Type := Bytes → Bytes → Bytes → Bool

def verifyForkEvidence (verify : Verify) (hypercoreKey : JsString) (evidenceA evidenceB : Evidence) :
    Except String Unit := do
  require (isHex hypercoreKey 64) "bad hypercoreKey"
  let pub := fromHex hypercoreKey
  let a ← demand (decodeSignedBlock evidenceA) "evidenceA is not a hex-encoded signed block"
  let b ← demand (decodeSignedBlock evidenceB) "evidenceB is not a hex-encoded signed block"
  require (a.1 ≠ b.1) "both blocks are identical — not a fork"
  require (a.2 ≠ b.2) "both signatures are identical — not a fork"
  require (verify a.2 a.1 pub) "evidenceA signature does not verify under hypercoreKey"
  require (verify b.2 b.1 pub) "evidenceB signature does not verify under hypercoreKey"

/-! ### Records -/

inductive Resolution where
  | rotated | revoked | falseAlarm

structure ForkRecord where
  (discoveredAt blockIndex : ℕ)
  evidence : List Evidence
  operatorAcknowledged : Bool
  resolution : Option Resolution
  resolvedAt : Option ℕ
  resolutionNote : Option JsString

/-- `ForkDetector`. -/
structure Detector where
  maxForks : ℕ
  forks : OrderedMap JsString ForkRecord

def restoreSnapshot (snapshot : List (JsString × ForkRecord)) : OrderedMap JsString ForkRecord :=
  snapshot.foldl (fun forks entry => forks.set (toLowerCase entry.1) entry.2) .empty

def load (maxForks : ℕ) (persisted : List (JsString × ForkRecord)) : Detector :=
  ⟨maxForks, restoreSnapshot persisted⟩

def isQuarantined (s : Detector) (hypercoreKey : JsString) : Bool :=
  (s.forks.get? (toLowerCase hypercoreKey)).any fun record => record.resolution.isNone

def Older (a b : JsString × ForkRecord) : Prop := a.2.discoveredAt ≤ b.2.discoveredAt

instance : DecidableRel Older := fun _ _ => inferInstanceAs (Decidable (_ ≤ _))

instance : Std.Total Older := ⟨fun a b => Nat.le_total a.2.discoveredAt b.2.discoveredAt⟩

instance : IsTrans (JsString × ForkRecord) Older := ⟨fun _ _ _ => Nat.le_trans⟩

/-- The cores whose records are dropped. -/
def victims (maxForks : ℕ) (forks : OrderedMap JsString ForkRecord) : List JsString :=
  ((forks.entries.insertionSort Older).take (forks.size - maxForks)).map Prod.fst

def enforceCap (maxForks : ℕ) (forks : OrderedMap JsString ForkRecord) : OrderedMap JsString ForkRecord :=
  (victims maxForks forks).foldl delete forks

/-- What two observations of the same evidence have in common. -/
def tag (e : Evidence) : JsString := e.fromRelay ++ ofText ":" ++ e.signature

/-- Evidence that has not been seen is added. -/
def addEvidence (evidence : List Evidence) (e : Evidence) : List Evidence :=
  if tag e ∈ evidence.map tag then evidence else evidence ++ [e]

/-! ### Operations -/

/-- The arguments of `report`. -/
structure Report where
  hypercoreKey : JsString
  blockIndex : Option ℕ
  (evidenceA evidenceB : Option Evidence)
  /-- The report comes from this host. -/
  isLocal : Bool

/-- The checks of `report`. What is returned is the index and the evidence. -/
def admitReport (verify : Verify) (r : Report) : Except String (ℕ × Evidence × Evidence) := do
  require (isHex r.hypercoreKey 64) "bad hypercoreKey"
  let blockIndex ← demand r.blockIndex "bad blockIndex"
  let evidenceA ← demand (r.evidenceA.filter isWellFormedEvidence) "evidence requires fromRelay + block + signature"
  let evidenceB ← demand (r.evidenceB.filter isWellFormedEvidence) "evidence requires fromRelay + block + signature"
  require (evidenceA.signature ≠ evidenceB.signature) "evidence pair has identical signatures — not a fork"
  if !r.isLocal then
    match verifyForkEvidence verify r.hypercoreKey evidenceA evidenceB with
    | .ok () => pure ()
    | .error reason => throw ("unverified fork evidence: " ++ reason)
  return (blockIndex, evidenceA, evidenceB)

/-- The record of a fork that is new. -/
def newRecord (now blockIndex : ℕ) (evidenceA evidenceB : Evidence) : ForkRecord :=
  ⟨now, blockIndex, [evidenceA, evidenceB], false, none, none, none⟩

/-- `report`. What is returned is whether there was a record. -/
def report (verify : Verify) (s : Detector) (r : Report) (now : ℕ) : Except String (Bool × Detector) := do
  let (blockIndex, evidenceA, evidenceB) ← admitReport verify r
  let key := toLowerCase r.hypercoreKey
  match s.forks.get? key with
  | some existing =>
    let evidence := [evidenceA, evidenceB].foldl addEvidence existing.evidence
    return (true, { s with forks := s.forks.set key { existing with evidence } })
  | none =>
    let record := newRecord now blockIndex evidenceA evidenceB
    return (false, { s with forks := enforceCap s.maxForks (s.forks.set key record) })

def resolve (s : Detector) (hypercoreKey : JsString) (resolution : Option Resolution)
    (note : Option JsString) (now : ℕ) : Except String Detector := do
  let resolution ← demand resolution "resolution must be one of: rotated, revoked, false-alarm"
  let key := toLowerCase hypercoreKey
  let record ← demand (s.forks.get? key) "no fork on record for this key"
  let resolved : ForkRecord := { record with
    resolution := some resolution
    operatorAcknowledged := true
    resolvedAt := some now
    resolutionNote := (note.filter (!·.isEmpty)).or record.resolutionNote }
  return { s with forks := s.forks.set key resolved }

inductive Op where
  | report (r : Report) (now : ℕ)
  | resolve (hypercoreKey : JsString) (resolution : Option Resolution) (note : Option JsString) (now : ℕ)
  /-- A snapshot is taken and restored. -/
  | roundTrip

/-- An operation that is refused changes nothing. -/
def step (verify : Verify) (s : Detector) : Op → Option Detector
  | .report r now =>
    match report verify s r now with
    | .ok (_, s') => some s'
    | .error _ => some s
  | .resolve hypercoreKey resolution note now =>
    match resolve s hypercoreKey resolution note now with
    | .ok s' => some s'
    | .error _ => some s
  | .roundTrip => some { s with forks := restoreSnapshot s.forks.entries }

/-- An operation neither resolves the record of a core nor drops it. -/
def Spares (verify : Verify) (key : JsString) (s : Detector) : Op → Prop
  | .report r now => ∀ blockIndex evidenceA evidenceB,
      admitReport verify r = .ok (blockIndex, evidenceA, evidenceB) →
      s.forks.get? (toLowerCase r.hypercoreKey) = none →
      key ∉ victims s.maxForks (s.forks.set (toLowerCase r.hypercoreKey)
        (newRecord now blockIndex evidenceA evidenceB))
  | .resolve hypercoreKey _ _ _ => toLowerCase hypercoreKey ≠ key
  | .roundTrip => True

/-! ### Snapshots -/

theorem toLowerCase_toLowerCase (s : JsString) : toLowerCase (toLowerCase s) = toLowerCase s := by
  have hunit : ∀ u : UInt16, (0x41 ≤ u ∧ u ≤ 0x5a) → ¬ (0x41 ≤ u + 0x20 ∧ u + 0x20 ≤ 0x5a) ∧ u + 0x20 ≠ 0x212a := by
    intro u hu
    simp only [UInt16.le_iff_toNat_le, ne_eq, ← UInt16.toNat_inj, UInt16.toNat_add] at hu ⊢
    simp only [UInt16.reduceToNat] at hu ⊢
    omega
  simp only [toLowerCase, List.map_map]
  refine map_congr_left fun u _ => ?_
  simp only [Function.comp_apply, Bool.and_eq_true, decide_eq_true_eq]
  split
  · next h => simp [(hunit u h).1, (hunit u h).2]
  · split
    · decide
    · rfl

/-- The records are kept under lower-case keys. -/
def Lowered (forks : OrderedMap JsString ForkRecord) : Prop :=
  ∀ k record, forks.get? k = some record → toLowerCase k = k

variable {forks : OrderedMap JsString ForkRecord}

theorem entries_foldl_set {snapshot : List (JsString × ForkRecord)}
    (hlower : ∀ entry ∈ snapshot, toLowerCase entry.1 = entry.1)
    (hnodup : ((forks.entries ++ snapshot).map Prod.fst).Nodup) :
    (snapshot.foldl (fun forks entry => forks.set (toLowerCase entry.1) entry.2) forks).entries =
      forks.entries ++ snapshot := by
  induction snapshot generalizing forks with
  | nil => simp
  | cons entry snapshot ih =>
    have hnew : entry.1 ∉ forks.entries.map Prod.fst := by
      rw [map_append, nodup_append'] at hnodup
      exact fun hmem => hnodup.2.2 hmem (by simp)
    have hentries : (forks.set (toLowerCase entry.1) entry.2).entries = forks.entries ++ [entry] := by
      rw [hlower entry mem_cons_self, entries_set_of_notMem hnew]
    rw [foldl_cons, ih (fun e he => hlower e (mem_cons_of_mem _ he)), hentries,
      append_assoc, singleton_append]
    rwa [hentries, append_assoc, singleton_append]

theorem restoreSnapshot_entries (h : Lowered forks) : restoreSnapshot forks.entries = forks := by
  refine ext_entries ?_
  rw [restoreSnapshot, entries_foldl_set (fun e he => h e.1 e.2 (mem_entries_iff.mp he))]
  · rfl
  · exact forks.nodup_keys

theorem Lowered.set (h : Lowered forks) {k : JsString}
    (hk : toLowerCase k = k) (record : ForkRecord) : Lowered (forks.set k record) :=
  forall_set h hk

theorem lowered_restoreSnapshot (snapshot : List (JsString × ForkRecord)) : Lowered (restoreSnapshot snapshot) := by
  suffices h : ∀ forks, Lowered forks → Lowered (snapshot.foldl
      (fun forks entry => forks.set (toLowerCase entry.1) entry.2) forks) from
    h .empty nofun
  induction snapshot with
  | nil => exact fun forks h => h
  | cons entry snapshot ih => exact fun forks h => ih _ (h.set (toLowerCase_toLowerCase _) _)

/-! ### The cap -/

section Cap

variable {maxForks : ℕ} {forks : OrderedMap JsString ForkRecord} {k : JsString} {record : ForkRecord}

theorem get?_foldl_delete {keys : List JsString} :
    (keys.foldl delete forks).get? k = if k ∈ keys then none else forks.get? k := by
  induction keys generalizing forks with
  | nil => rfl
  | cons key keys ih =>
    rw [foldl_cons, ih, get?_delete]
    by_cases hk : k = key <;> by_cases hkeys : k ∈ keys <;> simp [hk, hkeys]

theorem get?_enforceCap :
    (enforceCap maxForks forks).get? k = if k ∈ victims maxForks forks then none else forks.get? k :=
  get?_foldl_delete

/-- **What is dropped** is older than what is kept, and there are too many records. -/
theorem older_of_mem_victims (hk : k ∈ victims maxForks forks) :
    maxForks < forks.size ∧ ∃ record, forks.get? k = some record ∧
      ∀ k' kept, (enforceCap maxForks forks).get? k' = some kept → record.discoveredAt ≤ kept.discoveredAt := by
  obtain ⟨⟨k, record⟩, hmem, rfl⟩ := mem_map.mp hk
  have hsize : maxForks < forks.size := by
    by_contra hle
    rw [Nat.sub_eq_zero_of_le (Nat.le_of_not_lt hle)] at hmem
    simp at hmem
  have hentry := (mem_insertionSort _).mp (mem_of_mem_take hmem)
  refine ⟨hsize, record, mem_entries_iff.mp hentry, fun k' kept hkept => ?_⟩
  rw [get?_enforceCap] at hkept
  split at hkept
  · cases hkept
  · next hnot =>
    have hsorted := pairwise_insertionSort Older forks.entries
    rw [← take_append_drop (forks.size - maxForks) (forks.entries.insertionSort Older),
      pairwise_append] at hsorted
    have hmem' : (k', kept) ∈ forks.entries.insertionSort Older :=
      (mem_insertionSort _).mpr (mem_entries_iff.mpr hkept)
    rw [← take_append_drop (forks.size - maxForks) (forks.entries.insertionSort Older), mem_append] at hmem'
    have hdrop := hmem'.resolve_left fun h => hnot (mem_map_of_mem (f := Prod.fst) h)
    exact hsorted.2.2 _ hmem _ hdrop

theorem Lowered.enforceCap (h : Lowered forks) : Lowered (enforceCap maxForks forks) := by
  intro k record hk
  rw [get?_enforceCap] at hk
  split at hk
  · cases hk
  · exact h k record hk

end Cap

/-! ### A step -/

section Step

variable {verify : Verify} {s s' : Detector} {key : JsString}

variable {recordExists : Bool}

theorem report_cases {r : Report} {now : ℕ} (h : report verify s r now = .ok (recordExists, s')) :
    ∃ blockIndex evidenceA evidenceB, admitReport verify r = .ok (blockIndex, evidenceA, evidenceB) ∧
      ((∃ existing evidence, s.forks.get? (toLowerCase r.hypercoreKey) = some existing ∧
        s' = { s with forks := s.forks.set (toLowerCase r.hypercoreKey) { existing with evidence } }) ∨
      s.forks.get? (toLowerCase r.hypercoreKey) = none ∧
        s' = { s with forks := enforceCap s.maxForks (s.forks.set (toLowerCase r.hypercoreKey)
          (newRecord now blockIndex evidenceA evidenceB)) }) := by
  simp only [report, Except.bind_eq_ok] at h
  obtain ⟨⟨blockIndex, evidenceA, evidenceB⟩, hadmit, h⟩ := h
  refine ⟨blockIndex, evidenceA, evidenceB, hadmit, ?_⟩
  cases hget : s.forks.get? (toLowerCase r.hypercoreKey) with
  | some existing =>
    simp only [hget, pure_eq_ok_iff, Prod.mk.injEq] at h
    exact .inl ⟨existing, _, rfl, h.2.symm⟩
  | none =>
    simp only [hget, pure_eq_ok_iff, Prod.mk.injEq] at h
    exact .inr ⟨rfl, h.2.symm⟩

/-- A core has a record that is not resolved, and all records are under lower-case keys. -/
structure Quarantined (key : JsString) (s : Detector) : Prop where
  lowered : Lowered s.forks
  unresolved : ∃ record, s.forks.get? key = some record ∧ record.resolution = none

theorem lowered_report {r : Report} {now : ℕ} (hs : Lowered s.forks)
    (h : report verify s r now = .ok (recordExists, s')) : Lowered s'.forks := by
  obtain ⟨_, _, _, -, ⟨existing, evidence, -, rfl⟩ | ⟨-, rfl⟩⟩ := report_cases h
  · exact hs.set (toLowerCase_toLowerCase _) _
  · exact (hs.set (toLowerCase_toLowerCase _) _).enforceCap

theorem lowered_step {op : Op} (hs : Lowered s.forks) (h : step verify s op = some s') : Lowered s'.forks := by
  cases op with
  | report r now =>
    simp only [step] at h
    split at h
    · next hreport =>
      cases h
      exact lowered_report hs hreport
    · exact some.inj h ▸ hs
  | resolve hypercoreKey resolution note now =>
    simp only [step] at h
    split at h
    · next hresolve =>
      cases h
      simp only [resolve, guards_eq_ok] at hresolve
      obtain ⟨_, -, record, -, rfl⟩ := hresolve
      exact hs.set (toLowerCase_toLowerCase _) _
    · exact some.inj h ▸ hs
  | roundTrip =>
    cases h
    exact lowered_restoreSnapshot _

/-- A report leaves a core quarantined that it spares, and one without a resolved record that it names. -/
theorem quarantined_report {r : Report} {now : ℕ} (hs : Lowered s.forks)
    (hspares : Spares verify key s (.report r now))
    (hkey : (∃ record, s.forks.get? key = some record ∧ record.resolution = none) ∨
      key = toLowerCase r.hypercoreKey ∧ s.forks.get? key = none)
    (h : report verify s r now = .ok (recordExists, s')) : Quarantined key s' := by
  refine ⟨lowered_report hs h, ?_⟩
  obtain ⟨blockIndex, evidenceA, evidenceB, hadmit, ⟨existing, evidence, hget, rfl⟩ | ⟨hget, rfl⟩⟩ := report_cases h
  · obtain ⟨record, hrecord, hnone⟩ | ⟨rfl, hfresh⟩ := hkey
    · by_cases heq : key = toLowerCase r.hypercoreKey
      · subst heq
        obtain rfl := mem_unique hget hrecord
        exact ⟨_, get?_set_self, hnone⟩
      · exact ⟨record, by rw [get?_set_of_ne heq, hrecord], hnone⟩
    · cases hget.symm.trans hfresh
  · have hnot := hspares _ _ _ hadmit hget
    simp only [get?_enforceCap, hnot, if_false]
    obtain ⟨record, hrecord, hnone⟩ | ⟨rfl, -⟩ := hkey
    · have hne : key ≠ toLowerCase r.hypercoreKey := by
        rintro rfl
        cases hget.symm.trans hrecord
      exact ⟨record, by rw [get?_set_of_ne hne, hrecord], hnone⟩
    · exact ⟨_, get?_set_self, rfl⟩

/-- **A step** that spares a quarantined core leaves it quarantined. -/
theorem quarantined_step {op : Op} (hs : Quarantined key s) (hspares : Spares verify key s op)
    (h : step verify s op = some s') : Quarantined key s' := by
  cases op with
  | report r now =>
    simp only [step] at h
    split at h
    · next hreport =>
      cases h
      exact quarantined_report hs.lowered hspares (.inl hs.unresolved) hreport
    · exact some.inj h ▸ hs
  | resolve hypercoreKey resolution note now =>
    refine ⟨lowered_step hs.lowered h, ?_⟩
    simp only [step] at h
    split at h
    · next hresolve =>
      cases h
      simp only [resolve, guards_eq_ok] at hresolve
      obtain ⟨_, -, record, -, rfl⟩ := hresolve
      obtain ⟨record', hrecord', hnone⟩ := hs.unresolved
      exact ⟨record', by rw [get?_set_of_ne (Ne.symm hspares), hrecord'], hnone⟩
    · exact some.inj h ▸ hs.unresolved
  | roundTrip =>
    cases h
    refine ⟨lowered_restoreSnapshot _, ?_⟩
    simp only [restoreSnapshot_entries hs.lowered]
    exact hs.unresolved

end Step

/-! ### A run -/

/-- **A quarantine persists.** Once a report is accepted for a core without a resolved record, the core is
quarantined until its record is resolved, or dropped with the oldest of too many. -/
theorem quarantine_persists (verify : Verify) (maxForks : ℕ) (persisted : List (JsString × ForkRecord))
    (before after : List Op) (r : Report) (now : ℕ) {s s₁ s₂ : Detector} {recordExists : Bool}
    (hbefore : run (step verify) (load maxForks persisted) before = some s)
    (haccepted : report verify s r now = .ok (recordExists, s₁))
    (hunresolved : ∀ record, s.forks.get? (toLowerCase r.hypercoreKey) = some record → record.resolution = none)
    (hspared : RunMeets (step verify) (Spares verify (toLowerCase r.hypercoreKey)) s (.report r now :: after))
    (hafter : run (step verify) s₁ after = some s₂) :
    isQuarantined s₂ r.hypercoreKey = true ∧ ∀ maxForks forks k, k ∈ victims maxForks forks → maxForks < forks.size ∧
        ∃ record, forks.get? k = some record ∧ ∀ k' kept, (enforceCap maxForks forks).get? k' = some kept →
            record.discoveredAt ≤ kept.discoveredAt := by
  have hlowered : Lowered s.forks := run_preserves (fun s => Lowered s.forks)
    (fun _ _ _ => lowered_step) (lowered_restoreSnapshot persisted) hbefore
  have hkey : (∃ record, s.forks.get? (toLowerCase r.hypercoreKey) = some record ∧
      record.resolution = none) ∨ toLowerCase r.hypercoreKey = toLowerCase r.hypercoreKey ∧
        s.forks.get? (toLowerCase r.hypercoreKey) = none := by
    cases hget : s.forks.get? (toLowerCase r.hypercoreKey) with
    | none => exact .inr ⟨rfl, rfl⟩
    | some record => exact .inl ⟨record, rfl, hunresolved record hget⟩
  have hstart := quarantined_report hlowered hspared.1 hkey haccepted
  have hrest := hspared.2 s₁ (by simp only [step, haccepted])
  obtain ⟨record, hrecord, hnone⟩ := (run_invariant _ (Quarantined (toLowerCase r.hypercoreKey))
    (fun _ _ _ => quarantined_step) hstart hrest hafter).unresolved
  refine ⟨?_, fun _ _ _ => older_of_mem_victims⟩
  simp [isQuarantined, hrecord, hnone]

def sampleCore (u : UInt16) : JsString := replicate 64 u

def sampleReport (u v w : UInt16) : Report :=
  ⟨sampleCore u, some 0, some ⟨[v], [v], [v]⟩, some ⟨[w], [w], [w]⟩, true⟩

/-- Another report comes after a round trip. -/
theorem quarantine_persists_sample : ∃ s₁ s₂,
    report (fun _ _ _ => false) (load 1 []) (sampleReport 0x61 1 2) 0 = .ok (false, s₁) ∧
    run (step fun _ _ _ => false) s₁ [.roundTrip, .report (sampleReport 0x61 3 4) 1] = some s₂ ∧
    isQuarantined s₂ (sampleCore 0x61) = true := by
  refine ⟨_, _, rfl, rfl, (quarantine_persists (fun _ _ _ => false) 1 [] []
    [.roundTrip, .report (sampleReport 0x61 3 4) 1] (sampleReport 0x61 1 2) 0 rfl rfl
    nofun ?_ rfl).1⟩
  refine ⟨fun _ _ _ _ _ hk => absurd (older_of_mem_victims hk).1 (Nat.lt_irrefl 1), fun s₁ h₁ => ?_⟩
  cases h₁
  refine ⟨trivial, fun s₂ h₂ => ?_⟩
  cases h₂
  exact ⟨fun _ _ _ _ h => absurd h (by decide), fun _ _ => trivial⟩

/-- With room for one record, a report about another core lifts the quarantine of the first. And new
evidence does not put back the one that was resolved. -/
theorem quarantine_lifted : (run (step fun _ _ _ => false) (load 1 [])
      [.report (sampleReport 0x61 1 2) 0, .report (sampleReport 0x62 3 4) 1]).map
        (isQuarantined · (sampleCore 0x61)) = some false ∧
    (run (step fun _ _ _ => false) (load 1 []) [.report (sampleReport 0x61 1 2) 0,
      .resolve (sampleCore 0x61) (some .falseAlarm) none 1, .report (sampleReport 0x61 3 4) 2]).map
        (isQuarantined · (sampleCore 0x61)) = some false ∧
    (admitReport (fun _ _ _ => false) (sampleReport 0x61 1 2)).isOk = true ∧
    (admitReport (fun _ _ _ => false) (sampleReport 0x62 3 4)).isOk = true ∧
    (admitReport (fun _ _ _ => false) (sampleReport 0x61 3 4)).isOk = true := by
  decide +kernel

end HiveRelay.Fork
