import HiveRelay.Ipc.ReplayDurability
import HiveRelay.Pow.Sha256

/-!
# Runs of the replay journal

A run opens the journal, reserves tuples, closes it and crashes, in any order. What is carried along
it: while the journal is open the memory has every tuple that is owed with its own expiry, and while
it is closed the disk is read back to them.

A tuple is let through again before the longest time to live has passed when its own expiry was
earlier (`acknowledged_again_within_lifetime`): an entry is dropped when it expires, not later.
Across a restart the quarantine of the opening is in between.

## Main definitions

* `RunInv` — memory and disk have what is owed
* `CrashSafe` — what a crash may leave

## Main results

* `RunInv.safe` — a crash finds a safe disk
* `replay_journal_safe` — the journal in every run
-/

namespace HiveRelay.Ipc

open List Option OrderedMap

/-- The tuples that are owed at a reading of the clock. -/
def System.owedAt (sys : System) (clock : ℕ) : Set Bytes := {t | ∃ E, (t, E) ∈ sys.owed ∧ clock < E}

def System.Blank (sys : System) : Prop := sys.acks = [] ∧ sys.owed = []

/-- A tuple is acknowledged again in the same opening when its own expiry has passed, or in a later
opening when its quarantine has. -/
def AckedAgain (later earlier : Ack) : Prop :=
  later.tuple = earlier.tuple → (later.opening = earlier.opening ∧ earlier.expires ≤ later.at_) ∨
      (earlier.opening < later.opening ∧ later.startup + quarantineMillis ≤ later.at_)

section Runs

variable (C : Crypto) (L : Launch)

/-- What holds while the journal is open. -/
structure OpenInv (sys : System) (mem : Mem) : Prop where
  journaled : ∃ specs, Journaled C L sys.disk mem specs
  clock_eq : mem.lastNow = sys.clock
  quarantine_eq : mem.quarantineUntil = sys.startup + quarantineMillis
  owed : ∀ o ∈ sys.owed, sys.clock < o.2 → ∃ e, mem.entries.get? o.1 = some e ∧ e.expiresMonotonicMillis = o.2
  acked : ∀ ack ∈ sys.acks, ack.opening = sys.opening → (ack.tuple, ack.expires) ∈ sys.owed

structure RunInv (sys : System) : Prop where
  opened : ∀ mem, sys.mem = some mem → OpenInv C L sys mem
  closed : sys.mem = none → AtRest C L (sys.owedAt sys.clock) sys.Blank sys.disk
  openings : ∀ ack ∈ sys.acks, ack.opening ≤ sys.opening
  once : sys.acks.Pairwise AckedAgain

variable {C L} {sys : System}

theorem owedAt_mono {clock clock' : ℕ} (h : clock ≤ clock') : sys.owedAt clock' ⊆ sys.owedAt clock := by
  rintro t ⟨E, hmem, hlt⟩
  exact ⟨E, hmem, h.trans_lt hlt⟩

theorem OpenInv.owedAt_subset {mem : Mem} (h : OpenInv C L sys mem) {clock now : ℕ}
    (hclock : sys.clock ≤ clock) (hnow : now ≤ clock) : sys.owedAt clock ⊆ unexpired mem now := by
  rintro t ⟨E, hmem, hlt⟩
  obtain ⟨e, he, hexp⟩ := h.owed _ hmem (hclock.trans_lt hlt)
  exact ⟨e, he, by rw [hexp]; exact hnow.trans_lt hlt⟩

theorem le_crashClock (sys : System) (during : During) : sys.clock ≤ crashClock sys during := by
  cases during with
  | reserving r => exact le_max_left _ _
  | idle | opening o => exact le_rfl

/-- **A crash finds a safe disk**, whatever it comes during. -/
theorem RunInv.safe (h : RunInv C L sys) (during : During) (done : ℕ) :
    SafeDisk C L (sys.owedAt (crashClock sys during)) sys.Blank (sys.crashDisk C L during done) := by
  have hle := le_crashClock sys during
  cases hmem : sys.mem with
  | none =>
    have hrest := h.closed hmem
    have hnone : (pendingOps C L sys during).take done = [] →
        SafeDisk C L (sys.owedAt (crashClock sys during)) sys.Blank (sys.crashDisk C L during done) := by
      intro hops
      rw [System.crashDisk, hops]
      exact hrest.safeDisk.mono (owedAt_mono hle)
    cases during with
    | idle => exact hnone take_nil
    | reserving r => exact hnone (by simp [pendingOps, hmem])
    | opening o =>
      obtain ⟨generation, specs, K, hspec⟩ := hrest.openJournal o
      rw [System.crashDisk, pendingOps, hmem]
      exact hspec.safe done
  | some mem =>
    have hopen := h.opened mem hmem
    obtain ⟨specs, hj⟩ := hopen.journaled
    have hnone : (pendingOps C L sys during).take done = [] →
        SafeDisk C L (sys.owedAt (crashClock sys during)) sys.Blank (sys.crashDisk C L during done) := by
      intro hops
      rw [System.crashDisk, hops]
      exact (hj.safe.mono (hopen.owedAt_subset hle hle)).of_false
    cases during with
    | idle => exact hnone take_nil
    | opening o => exact hnone (by simp [pendingOps, hmem])
    | reserving r =>
      rw [System.crashDisk, pendingOps, hmem]
      exact (((answered_reserve hj r).moved.safe done).mono (hopen.owedAt_subset hle (le_max_right _ _))).of_false

theorem Journaled.atRest {disk : Disk} {mem : Mem} {specs : List Spec} {owed : Set Bytes} {blank : Prop}
    (h : Journaled C L disk mem specs) (howed : ∀ t ∈ owed, t ∈ mem.entries.keySet) :
    AtRest C L owed blank disk := by
  have hfile := safeFile_whole (C := C) (L := L) blank ⟨h.generation_pos, h.generation_lt⟩ h.valid
    h.count_le h.replays howed
  rw [h.disk_eq]
  refine ⟨rfl, nofun, fun f hf => ?_⟩
  cases hf
  refine ⟨rfl, ?_⟩
  have hsafe := hfile _ le_rfl le_rfl
  rwa [take_length] at hsafe

theorem RunInv.open (h : RunInv C L sys) (hmem : sys.mem = none) (o : Opening) :
    RunInv C L (Ipc.opened C L sys o) := by
  obtain ⟨generation, specs, K, hspec⟩ := (h.closed hmem).openJournal o
  simp only [Ipc.opened]
  cases hresult : (Ipc.openJournal C L sys.disk o).2 with
  | error error =>
    refine ⟨fun mem hsome => ?_, fun _ => ?_, h.openings, h.once⟩
    · exact absurd (hmem.symm.trans hsome) (by simp)
    · show AtRest C L (sys.owedAt sys.clock) sys.Blank _
      rw [hspec.disk_eq]
      refine ⟨rfl, nofun, fun f hf => ?_⟩
      cases hf
      exact ⟨rfl, _, _, _, _, hspec.content⟩
  | ok mem =>
    obtain ⟨hj, hlast, hquarantine, hkeys, hexpires⟩ := hspec.opened mem hresult
    refine ⟨fun mem' hsome => ?_, nofun, ?_, h.once⟩
    · cases hsome
      refine ⟨⟨specs, hj⟩, hlast, hquarantine, ?_, ?_⟩
      · intro owe howe _
        obtain ⟨⟨t, E⟩, hin, rfl⟩ := mem_map.mp howe
        obtain ⟨hold, hlt⟩ := mem_filter.mp hin
        have hK : t ∈ mem.entries.keySet :=
          hkeys ▸ hspec.content.owed_mem t ⟨E, hold, of_decide_eq_true hlt⟩
        obtain ⟨e, he⟩ := has_eq_true_iff.mp (mem_keySet.mp hK)
        exact ⟨e, he, hexpires t e he⟩
      · intro ack hack heq
        have hle := h.openings ack hack
        have heq : ack.opening = sys.opening + 1 := heq
        omega
    · exact fun ack hack => (h.openings ack hack).trans (Nat.le_succ _)

theorem RunInv.reserve (h : RunInv C L sys) {mem : Mem} (hmem : sys.mem = some mem)
    (r : Reservation) : RunInv C L (reserved C L sys mem r) := by
  have hopen := h.opened mem hmem
  obtain ⟨specs, hj⟩ := hopen.journaled
  have ha := answered_reserve hj r
  set outcome := Ipc.reserve C L mem r with houtcome
  have hclock : sys.clock ≤ outcome.mem.lastNow := hopen.clock_eq ▸ ha.moved.lastNow_le
  -- what was owed and has not expired is kept
  have howed : ∀ o ∈ sys.owed, outcome.mem.lastNow < o.2 →
      ∃ e, outcome.mem.entries.get? o.1 = some e ∧ e.expiresMonotonicMillis = o.2 := by
    intro o ho hlt
    obtain ⟨e, he, hexp⟩ := hopen.owed o ho (hclock.trans_lt hlt)
    rcases ha.now_le with heq | hnow
    · exact ⟨e, heq ▸ he, hexp⟩
    · obtain ⟨e', he', hexp'⟩ := ha.moved.kept o.1 e he (hnow.trans_lt (hexp ▸ hlt))
      exact ⟨e', he', hexp'.trans hexp⟩
  unfold reserved
  simp only [← houtcome]
  cases hresult : outcome.result with
  | error error =>
    refine ⟨fun mem' hsome => ?_, nofun, h.openings, h.once⟩
    cases hsome
    exact ⟨ha.moved.journaled, rfl, ha.moved.constant.trans hopen.quarantine_eq, howed, hopen.acked⟩
  | ok entry =>
    obtain ⟨hquarantine, hnow, hfresh, enew, hget, hexp⟩ := ha.acknowledged entry hresult
    refine ⟨fun mem' hsome => ?_, nofun, ?_, ?_⟩
    · cases hsome
      refine ⟨ha.moved.journaled, rfl, ha.moved.constant.trans hopen.quarantine_eq, ?_, ?_⟩
      · intro o ho hlt
        rcases mem_cons.mp ho with rfl | ho
        · exact ⟨enew, hget, hexp⟩
        · exact howed o ho hlt
      · intro ack hack heq
        rcases mem_cons.mp hack with rfl | hack
        · exact mem_cons_self
        · exact mem_cons_of_mem _ (hopen.acked ack hack heq)
    · intro ack hack
      rcases mem_cons.mp hack with rfl | hack
      · exact le_rfl
      · exact h.openings ack hack
    · refine pairwise_cons.mpr ⟨fun ack hack htuple => ?_, h.once⟩
      rcases (h.openings ack hack).eq_or_lt with heq | hlt
      · refine .inl ⟨heq.symm, ?_⟩
        by_contra hnot
        -- the earlier one is live, so this one would have been refused
        have hlive : sys.clock < ack.expires :=
          hopen.clock_eq ▸ hnow.trans_lt (Nat.not_le.mp hnot)
        obtain ⟨e, he, hE⟩ := hopen.owed _ (hopen.acked ack hack heq) hlive
        have htuple : r.tuple = ack.tuple := htuple
        exact hnot (hE.symm.le.trans (hfresh e (htuple ▸ he)))
      · refine .inr ⟨hlt, ?_⟩
        rw [hopen.quarantine_eq] at hquarantine
        exact hquarantine

theorem RunInv.close (h : RunInv C L sys) : RunInv C L { sys with mem := none } := by
  refine ⟨nofun, fun _ => ?_, h.openings, h.once⟩
  cases hmem : sys.mem with
  | none => exact h.closed hmem
  | some mem =>
    have hopen := h.opened mem hmem
    obtain ⟨specs, hj⟩ := hopen.journaled
    exact hj.atRest fun t ht => unexpired_subset_keySet (hopen.owedAt_subset le_rfl le_rfl ht)

theorem RunInv.crash (h : RunInv C L sys) {during : During} {done : ℕ} {after : Option Bytes}
    (hafter : (sys.crashDisk C L during done).Survives after) :
    RunInv C L (sys.crashed during after) := by
  obtain ⟨hnone, hsome⟩ := (h.safe during done).survives hafter
  refine ⟨nofun, fun _ => ?_, h.openings, h.once⟩
  refine ⟨rfl, fun hjournal => ?_, fun f hf => ?_⟩
  · have hblank := hnone (map_eq_none_iff.mp hjournal)
    refine ⟨hblank, Set.eq_empty_of_forall_notMem ?_⟩
    rintro t ⟨E, hmem, -⟩
    have hmem : (t, E) ∈ sys.owed := hmem
    rw [hblank.2] at hmem
    exact absurd hmem not_mem_nil
  · obtain ⟨content, hcontent, rfl⟩ := map_eq_some_iff.mp hf
    exact ⟨rfl, hsome content hcontent⟩

theorem runInv_of_reachable (h : Reachable C L sys) : RunInv C L sys := by
  induction h with
  | fresh =>
    refine ⟨nofun, fun _ => ?_, fun ack hack => ?_, List.Pairwise.nil⟩
    · refine ⟨rfl, fun _ => ⟨⟨rfl, rfl⟩, Set.eq_empty_of_forall_notMem ?_⟩, nofun⟩
      rintro t ⟨E, hmem, -⟩
      exact absurd hmem not_mem_nil
    · exact absurd hack not_mem_nil
  | step _ hstep ih =>
    cases hstep with
    | openJournal hmem => exact ih.open hmem _
    | reserve hmem => exact ih.reserve hmem _
    | close => exact ih.close
    | crash hafter => exact ih.crash hafter

/-- What a crash leaves: nothing, when nothing was acknowledged yet, or a file that is read back to
every tuple that was acknowledged and has not expired. -/
def CrashSafe (C : Crypto) (L : Launch) (sys : System) (during : During) : Option Bytes → Prop
  | none => sys.acks = []
  | some content => content.length ≤ headerBytes + maximumRecords * frameBytes ∧
      ∃ r, recoverJournal C L content = .ok r ∧ r.recovered.size ≤ capacity ∧ r.recordCount ≤ maximumRecords ∧
        ∀ o ∈ sys.owed, crashClock sys during < o.2 → r.recovered.has o.1 = true

/-- **The journal in every run**: what a crash leaves, the bounds, and when a tuple is acknowledged
again. -/
theorem replay_journal_safe (h : Reachable C L sys) :
    (∀ during done after, (sys.crashDisk C L during done).Survives after → CrashSafe C L sys during after) ∧
    (∀ mem, sys.mem = some mem → mem.entries.size ≤ capacity ∧ mem.recordCount ≤ maximumRecords) ∧
    sys.acks.Pairwise AckedAgain := by
  have hinv := runInv_of_reachable h
  refine ⟨fun during done after hafter => ?_, fun mem hmem => ?_, hinv.once⟩
  · obtain ⟨hnone, hsome⟩ := (hinv.safe during done).survives hafter
    cases after with
    | none => exact (hnone rfl).1
    | some content =>
      obtain ⟨generation, specs, n, K, hsafe⟩ := hsome content rfl
      obtain ⟨live, hrecover, hkeys⟩ := hsafe.recoverJournal_eq
      have hcount := wholeFrames_le hsafe.le_length
      refine ⟨?_, _, hrecover, ?_, hcount.trans hsafe.count_le, ?_⟩
      · rw [hsafe.content_eq, length_take]
        have := Nat.mul_le_mul_right frameBytes hsafe.count_le
        have := hsafe.le_length
        omega
      · show live.size ≤ capacity
        rw [← card_keySet, hkeys]
        exact hsafe.replays.card_le (Nat.zero_le _)
      · intro o ho hlt
        exact mem_keySet.mp (hkeys ▸ hsafe.owed_mem o.1 ⟨o.2, ho, hlt⟩)
  · obtain ⟨specs, hj⟩ := (hinv.opened mem hmem).journaled
    exact ⟨hj.size_le, hj.recordCount_eq ▸ hj.count_le⟩

/-! ### A tuple that is acknowledged again -/

def sampleOpening : Opening := ⟨8192, 0, by decide⟩

/-- A reservation of a tuple at `now`, for one millisecond. -/
def sampleReservation (now : ℕ) : Reservation :=
  ⟨replicate 32 1, now + 1, now, now, now, false, false, false, false, rfl⟩

/-- The memory after an opening of an empty directory at 0. -/
def sampleMem (C : Crypto) (L : Launch) : Mem :=
  { header := encodeHeader C L 1
    generation := 1
    sequence := 0
    previousFrameHash := chainAnchor C (encodeHeader C L 1)
    recordCount := 0
    entries := .empty
    lastNow := 0
    quarantineUntil := quarantineMillis
    compactionRecordLimit := 8192
    opened := true }

theorem openJournal_sample (C : Crypto) (L : Launch) :
    (openJournal C L ⟨none, none⟩ sampleOpening).2 = .ok (sampleMem C L) := by
  have hlength := @length_encodeHeader C L 1
  have hheader : encodeHeader C L 1 = (journalBytes C L 1 []).take headerBytes := by
    rw [← hlength, journalBytes, take_left]
  have hrecover := @recoverJournal_cut C L 1 [] headerBytes .empty ⟨by decide, by decide⟩
    (by simp) (Nat.zero_le _) le_rfl (Nat.le_add_right _ _) rfl
  rw [← hheader] at hrecover
  have hcontent : (((⟨none, none⟩ : Disk).applyAll (bootstrapOps C L ⟨none, none⟩)).journal.elim []
      File.content) = encodeHeader C L 1 := rfl
  simp only [openJournal, hcontent, hrecover]
  rfl

/-- The run that opens an empty directory and reserves a tuple twice. -/
def sampleSystem (C : Crypto) (L : Launch) : System :=
  let sys := Ipc.opened C L .fresh sampleOpening
  let sys' := reserved C L sys (sampleMem C L) (sampleReservation 15000)
  reserved C L sys' (Ipc.reserve C L (sampleMem C L) (sampleReservation 15000)).mem (sampleReservation 15001)

theorem reserve_sample (C : Crypto) (L : Launch) :
    (Ipc.reserve C L (sampleMem C L) (sampleReservation 15000)).result = .ok ⟨15001, 1, 1⟩ := by
  rfl

theorem reserve_sample_again (C : Crypto) (L : Launch) :
    (Ipc.reserve C L (Ipc.reserve C L (sampleMem C L) (sampleReservation 15000)).mem
      (sampleReservation 15001)).result = .ok ⟨15002, 1, 3⟩ := by
  rfl

theorem acks_sampleSystem (C : Crypto) (L : Launch) : (sampleSystem C L).acks =
    [⟨1, 0, replicate 32 1, 15001, 15002⟩, ⟨1, 0, replicate 32 1, 15000, 15001⟩] := by
  simp only [sampleSystem, reserved, reserve_sample, reserve_sample_again]
  simp only [Ipc.opened, System.fresh, openJournal_sample]
  rfl

theorem reachable_sampleSystem (C : Crypto) (L : Launch) : Reachable C L (sampleSystem C L) := by
  have hopened : (Ipc.opened C L .fresh sampleOpening).mem = some (sampleMem C L) := by
    simp only [Ipc.opened, System.fresh, openJournal_sample]
  have hreserved : (reserved C L (Ipc.opened C L .fresh sampleOpening) (sampleMem C L)
      (sampleReservation 15000)).mem = some (Ipc.reserve C L (sampleMem C L) (sampleReservation 15000)).mem := by
    simp only [reserved, reserve_sample]
  rw [sampleSystem]
  exact .step (.step (.step .fresh (.openJournal rfl)) (.reserve hopened)) (.reserve hreserved)

/-- Within one opening a tuple is let through again one millisecond later, when its own expiry has
passed and its longest time to live has not. -/
theorem acknowledged_again_within_lifetime :
    ¬ ∃ (C : Crypto) (L : Launch), ∀ sys, Reachable C L sys → sys.acks.Pairwise fun later earlier =>
      later.tuple = earlier.tuple → later.opening = earlier.opening → earlier.at_ + maximumTtlMillis ≤ later.at_ := by
  rintro ⟨C, L, h⟩
  have hpair := h _ (reachable_sampleSystem C L)
  rw [acks_sampleSystem] at hpair
  have hlate := (pairwise_cons.mp hpair).1 _ mem_cons_self rfl rfl
  exact absurd hlate (by decide)

def sampleCrypto : Crypto where
  blake2b256 := Pow.Sandbox.sha256
  hmacSha256 := Pow.Sandbox.hmacSha256
  length_blake2b256 := Pow.Sandbox.length_sha256
  length_hmacSha256 := Pow.Sandbox.primitives.length_hmacSha256

def sampleLaunch : Launch where
  launchTopologyHash := replicate 32 1
  relayPublicKey := replicate 32 2
  storeId := replicate 32 3
  durabilityContinuityHash := replicate 32 4
  durabilityProfileHash := replicate 32 5
  storeFormatHash := replicate 32 6
  mapGeneration := 1
  ownerFenceTokenHash := replicate 32 7
  headerKey := replicate 32 8
  recordKey := replicate 32 9
  lengths := by decide
  mapGeneration_u64 := by decide

theorem sampleSystem_safe : (sampleSystem sampleCrypto sampleLaunch).acks ≠ [] ∧
      (sampleSystem sampleCrypto sampleLaunch).acks.Pairwise AckedAgain := by
  refine ⟨?_, (replay_journal_safe (reachable_sampleSystem sampleCrypto sampleLaunch)).2.2⟩
  rw [acks_sampleSystem]
  exact cons_ne_nil _ _

end Runs

end HiveRelay.Ipc
