import Mathlib.Data.Set.Function
import HiveRelay.Quota.SessionMirror

/-!
# The charge registry behind a session mirror

A mirror has a constant size: counters, sums and chains. What they stand for is the registry of the
session, the list of its charge entries in the order of the log, in which those of the open run of
type 113 frames are marked. A tombstone removes entries from the list.

`Reflects` says what a mirror keeps of a registry. It is kept by every entry that is absorbed; the
chains are where it is not obvious, since the marked entries may stand anywhere in the list and the
chain of the others is built beside them.
-/

namespace HiveRelay.Quota

open List Option HiveRelay.Except

/-- The charge entries of a session, with the mark of those of the open run. -/
structure Registry where
  entries : List (WalEntry × Bool)
  run : Option Bytes
  (revision lastRevision : ℕ)
  lost : Bool

namespace Registry

def empty : Registry := ⟨[], none, 0, 0, false⟩

def all (reg : Registry) : List WalEntry := reg.entries.map Prod.fst

def orphans (reg : Registry) : List WalEntry := (reg.entries.filter Prod.snd).map Prod.fst

def rest (reg : Registry) : List WalEntry := (reg.entries.filter fun e => !e.2).map Prod.fst

/-- The open run is closed, and its entries stay. -/
def settle (reg : Registry) : Registry :=
  { reg with entries := reg.all.map fun e => (e, false), run := none }

/-- A session entry: of a run, a terminal record, or of another operation, which closes the run when
it has its commitment. -/
def enlist (reg : Registry) (entry : WalEntry) (payload : Bytes) : Registry :=
  if entry.walType = 113 then
    { reg with
      entries := reg.entries ++ [(entry, true)]
      run := reg.run.or (payloadCommitment payload)
      revision := reg.revision + 1
      lastRevision := reg.revision + 1 }
  else if 0 < entry.terminalLogicalCharge then { reg.settle with revision := reg.revision + 1 }
  else
    let reg := if reg.run ≠ none ∧ payloadCommitment payload = reg.run then reg.settle else reg
    { reg with entries := reg.entries ++ [(entry, false)], revision := reg.revision + 1 }

/-- A tombstone removes all entries, or those of the open run. The session is `lost` when it is
released with entries of other operations. -/
def prune (reg : Registry) (pruned : Tombstone) : Registry :=
  if pruned.flags = 0 then { reg with entries := [], run := none }
  else
    { reg with
      entries := reg.rest.map fun e => (e, false)
      run := none
      lost := reg.lost || (decide (pruned.flags = 1) && decide (reg.rest ≠ [])) }

/-- What an entry of the log does to the registry of a session. -/
def absorb (stableSessionId : Bytes) (reg : Registry) (record : WalEntry × Bytes) : Registry :=
  if record.1.stableSessionId = some stableSessionId then
    match record.1.scope with
    | .session => reg.enlist record.1 record.2
    | .pruneTransition =>
      match decodeForwardHttpsRetentionPrunedV3 record.2 with
      | .ok pruned => reg.prune pruned
      | .error _ => reg
    | .roleGlobal => reg
  else reg

end Registry

/-- The registry of a session after a log. -/
def registryOf (stableSessionId : Bytes) (log : List (WalEntry × Bytes)) : Registry :=
  log.foldl (Registry.absorb stableSessionId) .empty

def chargeSumOf (entries : List WalEntry) : ℕ := (entries.map WalEntry.ordinaryLogicalCharge).sum

section Reflects

variable (C : Crypto)

/-- The chain of some entries of a session. -/
def chainOf (role : StoreRole) (stableSessionId : Bytes) (entries : List WalEntry) : Bytes :=
  chargeChainOf C role.byte stableSessionId (entries.map mirrorEntry49)

/-- What a mirror keeps of the registry of a session. -/
structure Reflects (role : StoreRole) (stableSessionId : Bytes) (mirror : Mirror) (reg : Registry) :
    Prop where
  count : mirror.chargeEntryCount = reg.all.length
  sum : mirror.chargeSum = chargeSumOf reg.all
  chain : chainOr C mirror.chargeChain role.byte stableSessionId = chainOf C role stableSessionId reg.all
  revision : mirror.priorRevision = reg.revision
  commitment : mirror.requestCommitment = reg.run
  opened : mirror.openPrefix = none ↔ reg.run = none
  orphanCount : mirror.orphanCount = reg.orphans.length
  orphanSum : mirror.orphanSum = chargeSumOf reg.orphans
  orphanChain : chainOr C mirror.orphanChain role.byte stableSessionId = chainOf C role stableSessionId reg.orphans
  orphanRevision : mirror.openPrefix ≠ none → mirror.orphanLastRevision = reg.lastRevision
  /-- The chain that a run is taken back to. -/
  before : mirror.openPrefix ≠ none → (mirror.postRunChain.or mirror.preRunChain).getD
    (chargeChainInit C role.byte stableSessionId) = chainOf C role stableSessionId reg.rest
  begun : mirror.preRunChain = none ↔ mirror.openPrefix = none
  marked : reg.run = none ↔ reg.orphans = []
  bare : mirror.openPrefix = none → mirror.postRunChain = none
  present : mirror.present = false → reg.entries = []

end Reflects

/-! ### Lists of entries -/

section Lists

variable {C : Crypto} {role : StoreRole} {id : Bytes} {reg : Registry} {entry : WalEntry}

theorem chargeSumOf_append (entries : List WalEntry) (entry : WalEntry) :
    chargeSumOf (entries ++ [entry]) = chargeSumOf entries + entry.ordinaryLogicalCharge := by
  simp [chargeSumOf]

theorem chainOf_append (entries : List WalEntry) (entry : WalEntry) : chainOf C role id (entries ++ [entry]) =
      chargeChainStep C (chainOf C role id entries) (mirrorEntry49 entry) := by
  simp [chainOf, chargeChainOf]

theorem chainOf_nil : chainOf C role id [] = chargeChainInit C role.byte id := rfl

theorem Registry.rest_eq_all (h : reg.orphans = []) : reg.rest = reg.all := by
  unfold Registry.orphans at h
  unfold Registry.rest Registry.all
  rw [map_eq_nil_iff, filter_eq_nil_iff] at h
  rw [filter_eq_self.mpr fun e he => by simpa using h e he]

theorem filter_map_false (l : List WalEntry) : (l.map fun e => (e, false)).filter Prod.snd = [] := by
  rw [filter_eq_nil_iff]
  intro e he
  obtain ⟨a, -, rfl⟩ := mem_map.mp he
  exact Bool.false_ne_true

theorem map_fst_map_false (l : List WalEntry) : (l.map fun e => (e, false)).map Prod.fst = l := by
  rw [List.map_map]
  exact List.map_id l

@[simp] theorem Registry.all_settle : reg.settle.all = reg.all := map_fst_map_false _

@[simp] theorem Registry.orphans_settle : reg.settle.orphans = [] := by
  rw [Registry.orphans, Registry.settle, filter_map_false, map_nil]

end Lists

/-! ### What an entry does to a mirror -/

section Steps

variable {C : Crypto} {role : StoreRole} {id : Bytes} {mirror mirror' : Mirror} {reg : Registry}
  {entry : WalEntry} {payload : Bytes}

theorem Reflects.authorize (h : Reflects C role id mirror reg) :
    Reflects C role id (authorize mirror entry payload) reg := by
  unfold Quota.authorize
  split <;> split <;> exact { h with }

theorem Reflects.of_closed (h : Reflects C role id mirror reg) (hrun : reg.run = none) :
    mirror.openPrefix = none ∧ reg.orphans = [] ∧ mirror.orphanCount = 0 ∧ mirror.orphanSum = 0 ∧
      chainOr C mirror.orphanChain role.byte id = chargeChainInit C role.byte id := by
  have hnil := h.marked.mp hrun
  refine ⟨h.opened.mpr hrun, hnil, ?_, ?_, ?_⟩
  · rw [h.orphanCount, hnil, length_nil]
  · rw [h.orphanSum, hnil]
    rfl
  · rw [h.orphanChain, hnil, chainOf_nil]

theorem Reflects.closeRun (h : Reflects C role id mirror reg) : Reflects C role id mirror.closeRun reg.settle :=
  { count := by rw [Registry.all_settle]; exact h.count
    sum := by rw [Registry.all_settle]; exact h.sum
    chain := by rw [Registry.all_settle]; exact h.chain
    revision := h.revision
    commitment := rfl
    opened := ⟨fun _ => rfl, fun _ => rfl⟩
    orphanCount := by rw [Registry.orphans_settle]; rfl
    orphanSum := by rw [Registry.orphans_settle]; rfl
    orphanChain := by rw [Registry.orphans_settle]; rfl
    orphanRevision := absurd rfl
    before := absurd rfl
    begun := ⟨fun _ => rfl, fun _ => rfl⟩
    marked := ⟨fun _ => Registry.orphans_settle, fun _ => rfl⟩
    bare := fun _ => rfl
    present := fun hp => by simp [Registry.settle, Registry.all, h.present hp] }

theorem Reflects.openRun_run (h : Reflects C role id mirror reg) (hwal : entry.walType = 113)
    {commitment : Bytes} (hcommitment : payloadCommitment payload = some commitment) {running : Mirror}
    (hok : openRun mirror entry payload = .ok running) :
    ∃ c, running = { mirror with
      openPrefix := some c, requestCommitment := reg.run.or (some commitment) } := by
  have hclosed : mirror.openPrefix = none → reg.run.or (some commitment) = some commitment := by
    intro hnone
    rw [h.opened.mp hnone]
    rfl
  simp only [openRun, if_pos hwal, hcommitment] at hok
  split at hok
  · next hpresent =>
    have hrun : reg.run = none := by
      rw [h.marked, Registry.orphans, h.present hpresent]
      rfl
    rw [hclosed (h.opened.mpr hrun)]
    exact ⟨.fresh, (pure_eq_ok_iff.mp hok).symm⟩
  · split at hok
    · next hnone =>
      rw [hclosed hnone]
      exact ⟨.existing, (pure_eq_ok_iff.mp hok).symm⟩
    · next hsome =>
      simp only [guards_eq_ok] at hok
      obtain ⟨c, hc⟩ := ne_none_iff_exists'.mp hsome
      obtain ⟨run, hrun⟩ := ne_none_iff_exists'.mp (mt h.opened.mpr hsome)
      refine ⟨c, ?_⟩
      rw [hrun, some_or, ← hrun, ← h.commitment, ← hc]
      exact hok.2.symm

/-- The mirror of an entry that is charged, before the open run is looked at. -/
def Mirror.charged (C : Crypto) (mirror : Mirror) (entry : WalEntry) (id : Bytes) : Mirror :=
  { mirror with
    chargeEntryCount := mirror.chargeEntryCount + 1
    chargeSum := mirror.chargeSum + entry.ordinaryLogicalCharge
    chargeChain := some (chargeChainStep C (chainOr C mirror.chargeChain entry.role.byte id)
      (mirrorEntry49 entry))
    present := true
    priorRevision := mirror.priorRevision + 1 }

theorem applySession_charged (hcharge : 0 < entry.ordinaryLogicalCharge) (hterminal : entry.terminalLogicalCharge = 0)
    (hok : applySession C mirror entry id payload = .ok mirror') :
    ∃ running, openRun mirror entry payload = .ok running ∧ running.chargeEntryCount < maximumChargeEntries ∧
      mirror' = authorize (countRun C (running.charged C entry id) entry id
        (some (chainOr C running.chargeChain entry.role.byte id))) entry payload := by
  simp only [applySession, guards_eq_ok] at hok
  obtain ⟨running, hrunning, charged, hcharged, rfl⟩ := hok
  have hterminate : terminate running entry payload = running := by
    rw [terminate, if_neg (by omega)]
  rw [hterminate] at hcharged ⊢
  simp only [charge, if_pos hcharge, guards_eq_ok] at hcharged
  obtain ⟨hcap, rfl⟩ := hcharged
  refine ⟨running, hrunning, hcap, ?_⟩
  rw [if_pos hcharge]
  rfl

theorem Reflects.run (h : Reflects C role id mirror reg) (hrole : entry.role = role)
    (hwal : entry.walType = 113) (hcharge : 0 < entry.ordinaryLogicalCharge)
    (hterminal : entry.terminalLogicalCharge = 0) {commitment : Bytes}
    (hcommitment : payloadCommitment payload = some commitment)
    (hok : applySession C mirror entry id payload = .ok mirror') :
    Reflects C role id mirror' (reg.enlist entry payload) := by
  obtain ⟨running, hrunning, -, rfl⟩ := applySession_charged hcharge hterminal hok
  obtain ⟨c, rfl⟩ := h.openRun_run hwal hcommitment hrunning
  have henlist : reg.enlist entry payload =
      { reg with
        entries := reg.entries ++ [(entry, true)]
        run := reg.run.or (some commitment)
        revision := reg.revision + 1
        lastRevision := reg.revision + 1 } := by
    rw [Registry.enlist, if_pos hwal, hcommitment]
  have hall : (reg.enlist entry payload).all = reg.all ++ [entry] := by
    simp [henlist, Registry.all]
  have horphans : (reg.enlist entry payload).orphans = reg.orphans ++ [entry] := by
    simp [henlist, Registry.orphans, filter_append]
  have hrest : (reg.enlist entry payload).rest = reg.rest := by
    simp [henlist, Registry.rest, filter_append]
  have hrun : (reg.enlist entry payload).run ≠ none := by
    rw [henlist]
    show reg.run.or (some commitment) ≠ none
    cases reg.run <;> simp
  refine Reflects.authorize ?_
  rw [countRun, if_pos ⟨hwal, some_ne_none c⟩]
  -- the run begins with the chain of what was there before
  have hbefore : (mirror.postRunChain.or (if mirror.preRunChain = none ∧ mirror.orphanCount = 0 then
      (some (chainOr C mirror.chargeChain entry.role.byte id)).or
        (some (chargeChainStep C (chainOr C mirror.chargeChain entry.role.byte id) (mirrorEntry49 entry)))
      else mirror.preRunChain)).getD (chargeChainInit C role.byte id) = chainOf C role id reg.rest := by
    by_cases hnone : mirror.openPrefix = none
    · have hclosed := h.of_closed (h.opened.mp hnone)
      rw [if_pos ⟨h.begun.mpr hnone, hclosed.2.2.1⟩, h.bare hnone, none_or, some_or,
        getD_some, hrole, h.chain, Registry.rest_eq_all hclosed.2.1]
    · rw [if_neg fun hboth => hnone (h.begun.mp hboth.1)]
      exact h.before hnone
  exact
    { count := by rw [hall, length_append]; exact congrArg (· + 1) h.count
      sum := by rw [hall, chargeSumOf_append]; exact congrArg (· + _) h.sum
      chain := by rw [hall, chainOf_append, ← h.chain, ← hrole]; rfl
      revision := by rw [henlist]; exact congrArg (· + 1) h.revision
      commitment := by rw [henlist]; rfl
      opened := ⟨fun hnone => absurd hnone (some_ne_none c), fun hnone => absurd hnone hrun⟩
      orphanCount := by rw [horphans, length_append]; exact congrArg (· + 1) h.orphanCount
      orphanSum := by rw [horphans, chargeSumOf_append]; exact congrArg (· + _) h.orphanSum
      orphanChain := by rw [horphans, chainOf_append, ← h.orphanChain, ← hrole]; rfl
      orphanRevision := fun _ => by rw [henlist]; exact congrArg (· + 1) h.revision
      before := fun _ => by rw [hrest]; exact hbefore
      begun := by
        refine ⟨fun hnone => ?_, fun hnone => absurd hnone (some_ne_none c)⟩
        by_cases hopen : mirror.openPrefix = none
        · have hclosed := h.of_closed (h.opened.mp hopen)
          rw [if_pos ⟨h.begun.mpr hopen, hclosed.2.2.1⟩] at hnone
          cases hnone
        · rw [if_neg fun hboth => hopen (h.begun.mp hboth.1)] at hnone
          exact absurd (h.begun.mp hnone) hopen
      marked := ⟨fun hnone => absurd hnone hrun, fun hnil => by simp [horphans] at hnil⟩
      bare := fun hnone => absurd hnone (some_ne_none c)
      present := fun hp => by cases hp }

theorem Reflects.openRun_other (h : Reflects C role id mirror reg) (hwal : entry.walType ≠ 113)
    {running : Mirror} (hok : openRun mirror entry payload = .ok running) :
    Reflects C role id running (if reg.run ≠ none ∧ payloadCommitment payload = reg.run then reg.settle
      else reg) := by
  simp only [openRun, if_neg hwal] at hok
  by_cases hopen : mirror.openPrefix = none
  · rw [if_neg fun hboth => hboth.1 hopen] at hok
    rw [if_neg fun hboth => hboth.1 (h.opened.mp hopen), ← pure_eq_ok_iff.mp hok]
    exact h
  · obtain ⟨run, hrun⟩ := ne_none_iff_exists'.mp (mt h.opened.mpr hopen)
    rw [h.commitment, hrun, getD_some] at hok
    rw [hrun]
    by_cases hmatch : payloadCommitment payload = some run
    · rw [if_pos ⟨hopen, by rw [hmatch]; rfl, hmatch⟩] at hok
      rw [if_pos ⟨some_ne_none run, hmatch⟩, ← pure_eq_ok_iff.mp hok]
      exact h.closeRun
    · rw [if_neg fun hall => hmatch hall.2.2] at hok
      rw [if_neg fun hboth => hmatch hboth.2, ← pure_eq_ok_iff.mp hok]
      exact h

theorem Reflects.countOther (h : Reflects C role id mirror reg) (hrole : entry.role = role)
    (hwal : entry.walType ≠ 113) (hcharge : 0 < entry.ordinaryLogicalCharge) (preFold : Option Bytes) :
    Reflects C role id (countRun C (mirror.charged C entry id) entry id preFold)
      { reg with entries := reg.entries ++ [(entry, false)], revision := reg.revision + 1 } := by
  set reg' : Registry :=
    { reg with entries := reg.entries ++ [(entry, false)], revision := reg.revision + 1 }
  have hall : reg'.all = reg.all ++ [entry] := by simp [reg', Registry.all]
  have horphans : reg'.orphans = reg.orphans := by simp [reg', Registry.orphans, filter_append]
  have hrest : reg'.rest = reg.rest ++ [entry] := by simp [reg', Registry.rest, filter_append]
  have hcount : mirror.chargeEntryCount + 1 = reg'.all.length := by
    rw [hall, length_append, h.count]
    rfl
  have hsum : mirror.chargeSum + entry.ordinaryLogicalCharge = chargeSumOf reg'.all := by
    rw [hall, chargeSumOf_append, h.sum]
  have hchain : chargeChainStep C (chainOr C mirror.chargeChain entry.role.byte id)
      (mirrorEntry49 entry) = chainOf C role id reg'.all := by
    rw [hall, chainOf_append, ← h.chain, hrole]
  rw [countRun, if_neg fun hboth => hwal hboth.1]
  by_cases hopen : mirror.openPrefix = none
  · rw [if_neg fun hall => hall.2.1 hopen]
    exact
      { h with
        count := hcount
        sum := hsum
        chain := hchain
        revision := congrArg (· + 1) h.revision
        orphanCount := by rw [horphans]; exact h.orphanCount
        orphanSum := by rw [horphans]; exact h.orphanSum
        orphanChain := by rw [horphans]; exact h.orphanChain
        before := absurd hopen
        marked := by rw [horphans]; exact h.marked
        present := fun hp => by cases hp }
  · rw [if_pos ⟨hwal, hopen, hcharge⟩]
    exact
      { h with
        count := hcount
        sum := hsum
        chain := hchain
        revision := congrArg (· + 1) h.revision
        orphanCount := by rw [horphans]; exact h.orphanCount
        orphanSum := by rw [horphans]; exact h.orphanSum
        orphanChain := by rw [horphans]; exact h.orphanChain
        before := fun _ => by rw [hrest, chainOf_append, ← h.before hopen, ← hrole]; rfl
        marked := by rw [horphans]; exact h.marked
        bare := fun hnone => absurd hnone hopen
        present := fun hp => by cases hp }

theorem Reflects.other (h : Reflects C role id mirror reg) (hrole : entry.role = role)
    (hwal : entry.walType ≠ 113) (hcharge : 0 < entry.ordinaryLogicalCharge)
    (hterminal : entry.terminalLogicalCharge = 0)
    (hok : applySession C mirror entry id payload = .ok mirror') :
    Reflects C role id mirror' (reg.enlist entry payload) := by
  obtain ⟨running, hrunning, -, rfl⟩ := applySession_charged hcharge hterminal hok
  have hrun := (h.openRun_other hwal hrunning).countOther hrole hwal hcharge
    (some (chainOr C running.chargeChain entry.role.byte id))
  rw [Registry.enlist, if_neg hwal, if_neg (by omega)]
  have hrevision : (if reg.run ≠ none ∧ payloadCommitment payload = reg.run then reg.settle
      else reg).revision = reg.revision := by split <;> rfl
  exact Reflects.authorize (by simpa only [hrevision] using hrun)

theorem Reflects.terminal (h : Reflects C role id mirror reg) (hwal : entry.walType ≠ 113)
    (hcharge : entry.ordinaryLogicalCharge = 0) (hterminal : 0 < entry.terminalLogicalCharge)
    (hok : applySession C mirror entry id payload = .ok mirror') :
    Reflects C role id mirror' (reg.enlist entry payload) := by
  simp only [applySession, guards_eq_ok] at hok
  obtain ⟨running, hrunning, charged, hcharged, rfl⟩ := hok
  have hnot : ¬ 0 < entry.ordinaryLogicalCharge := by omega
  have hclosed := (h.openRun_other hwal hrunning).closeRun
  have hsettle : (if reg.run ≠ none ∧ payloadCommitment payload = reg.run then reg.settle
      else reg).settle = reg.settle := by
    split
    · unfold Registry.settle
      rw [show ({ reg with entries := reg.all.map fun e => (e, false), run := none } :
        Registry).all = reg.all from map_fst_map_false _]
    · rfl
  rw [hsettle] at hclosed
  rw [charge, if_neg hnot] at hcharged
  cases hcharged
  rw [terminate, if_pos hterminal]
  have hcount : ∀ (m : Mirror) (preFold : Option Bytes), countRun C m entry id preFold = m := by
    intro m preFold
    rw [countRun, if_neg fun hboth => hwal hboth.1, if_neg fun hall => hnot hall.2.2]
  rw [hcount, Registry.enlist, if_neg hwal, if_pos hterminal]
  refine Reflects.authorize ?_
  exact
    { hclosed with
      revision := congrArg (· + 1) hclosed.revision
      present := fun hp => by cases hp }

theorem Registry.length_all (reg : Registry) : reg.all.length = reg.orphans.length + reg.rest.length := by
  simp only [Registry.all, Registry.orphans, Registry.rest, length_map]
  exact length_eq_length_filter_add Prod.snd

theorem Registry.chargeSumOf_all (reg : Registry) :
    chargeSumOf reg.all = chargeSumOf reg.orphans + chargeSumOf reg.rest := by
  unfold Registry.all Registry.orphans Registry.rest chargeSumOf
  induction reg.entries with
  | nil => rfl
  | cons e entries ih =>
    obtain ⟨entry, mark⟩ := e
    cases mark <;> simp_all <;> omega

theorem count_sum_of_match {pruned : Tombstone} {label : UInt8}
    (h : matchFpr9AgainstMirror C (some mirror) pruned label id = .ok ()) :
    pruned.chargeEntryCount = (if pruned.flags = 0 then mirror.chargeEntryCount
        else mirror.orphanCount) ∧
      pruned.removedOrdinaryLogicalBytes = (if pruned.flags = 2 then mirror.orphanSum
        else if pruned.flags = 1 then mirror.orphanSum else mirror.chargeSum) ∧
      (pruned.flags = 2 → mirror.openPrefix = some .existing) := by
  simp only [matchFpr9AgainstMirror, guards_eq_ok, filter_eq_some_iff, some.injEq] at h
  obtain ⟨m, ⟨rfl, -⟩, -, -, -, -, hcount, -, -, -, -, -, -, -, hexisting, -⟩ := h
  exact ⟨hcount.1, hcount.2, fun hflags => (hexisting hflags).1⟩

/-- A tombstone is absorbed. -/
theorem Reflects.prune (h : Reflects C role id mirror reg) {pruned : Tombstone}
    (hrole : pruned.role = role.byte) (hid : pruned.stableSessionId = id)
    (hpair : PairValid pruned.flags pruned.allocationDisposition pruned.terminalSlotState)
    (hmatch : matchFpr9AgainstMirror C (some mirror) pruned role.byte id = .ok ())
    (hlost : (reg.prune pruned).lost = false) :
    Reflects C role id (applyPrune C mirror pruned) (reg.prune pruned) := by
  obtain ⟨hcount, hsum, hopen⟩ := count_sum_of_match hmatch
  have hkept : pruned.flags ≠ 0 → (reg.prune pruned).all = reg.rest := by
    intro hne
    rw [Registry.prune, if_neg hne]
    exact map_fst_map_false _
  have horphans : (reg.prune pruned).orphans = [] := by
    unfold Registry.prune
    split
    · rfl
    · rw [Registry.orphans, filter_map_false, map_nil]
  have hrun : (reg.prune pruned).run = none := by
    unfold Registry.prune
    split <;> rfl
  have hrevision : (reg.prune pruned).revision = reg.revision := by
    unfold Registry.prune
    split <;> rfl
  -- what the three variants leave
  have hleft : mirror.chargeEntryCount - pruned.chargeEntryCount = (reg.prune pruned).all.length ∧
      mirror.chargeSum - pruned.removedOrdinaryLogicalBytes = chargeSumOf (reg.prune pruned).all := by
    by_cases hzero : pruned.flags = 0
    · rw [hcount, hsum, if_pos hzero, if_neg (by omega), if_neg (by omega), Nat.sub_self, Nat.sub_self,
        Registry.prune, if_pos hzero]
      exact ⟨rfl, rfl⟩
    · have hall := reg.length_all
      have hsums := reg.chargeSumOf_all
      have hcounts := h.count
      have hsum' := h.sum
      have horphan := h.orphanCount
      have horphanSum := h.orphanSum
      have hremoved : pruned.removedOrdinaryLogicalBytes = mirror.orphanSum := by
        rw [hsum]
        rcases hpair with ⟨hf, -⟩ | ⟨hf, -⟩ | ⟨hf, -⟩ <;> simp [hf] at hzero ⊢
      rw [hkept hzero, hcount, if_neg hzero, hremoved]
      omega
  have hreleased : pruned.allocationDisposition = 1 → (reg.prune pruned).entries = [] := by
    intro hdisposition
    by_cases hzero : pruned.flags = 0
    · rw [Registry.prune, if_pos hzero]
    · have hone : pruned.flags = 1 := by
        rcases hpair with ⟨hf, -⟩ | ⟨hf, -⟩ | ⟨-, hf, -⟩
        · exact absurd hf hzero
        · exact hf
        · omega
      rw [Registry.prune, if_neg hzero] at hlost ⊢
      have hrest : reg.rest = [] := by
        by_contra hne
        simp [hone, hne] at hlost
      simp [hrest]
  have hcleared : pruned.flags ≠ 2 → (reg.prune pruned).entries = [] := by
    intro hne
    rcases hpair with ⟨hf, -⟩ | ⟨-, hf, -⟩ | ⟨hf, -⟩
    · rw [Registry.prune, if_pos hf]
    · exact hreleased hf
    · exact absurd hf hne
  -- a mirror without a run, with the chain that is left
  have hclosed : ∀ m : Mirror, m.chargeEntryCount = (reg.prune pruned).all.length →
      m.chargeSum = chargeSumOf (reg.prune pruned).all →
      chainOr C m.chargeChain role.byte id = chainOf C role id (reg.prune pruned).all →
      m.priorRevision = reg.revision → m.closeRun = m →
      (m.present = false → (reg.prune pruned).entries = []) →
      Reflects C role id m (reg.prune pruned) := by
    intro m hc hs hch hrev hcl hp
    rw [← hcl]
    exact
      { count := hc
        sum := hs
        chain := hch
        revision := hrev.trans hrevision.symm
        commitment := hrun.symm
        opened := ⟨fun _ => hrun, fun _ => rfl⟩
        orphanCount := by rw [horphans]; rfl
        orphanSum := by rw [horphans]; rfl
        orphanChain := by rw [horphans]; rfl
        orphanRevision := absurd rfl
        before := absurd rfl
        begun := ⟨fun _ => rfl, fun _ => rfl⟩
        marked := ⟨fun _ => horphans, fun _ => hrun⟩
        bare := fun _ => rfl
        present := hp }
  have hnil : pruned.flags ≠ 2 → chargeChainInit C role.byte id = chainOf C role id (reg.prune pruned).all := by
    intro hne
    rw [Registry.all, hcleared hne]
    rfl
  unfold applyPrune
  by_cases htwo : pruned.flags = 2
  · rw [if_pos htwo]
    refine hclosed _ hleft.1 hleft.2 ?_ h.revision rfl nofun
    have hopen' : mirror.openPrefix ≠ none := by rw [hopen htwo]; exact some_ne_none _
    have hne : pruned.flags ≠ 0 := by omega
    rw [hkept hne, ← h.before hopen', hrole, hid]
    rfl
  · rw [if_neg htwo]
    split
    · next hdisposition =>
      exact hclosed _ hleft.1 hleft.2 (hnil htwo) h.revision rfl fun _ => hreleased hdisposition
    · exact hclosed _ hleft.1 hleft.2 (hnil htwo) h.revision rfl nofun

end Steps

/-! ### What a session entry leaves alone -/

/-- The slot, the authority vector and the clocks are the same. -/
structure Kept (m m' : Mirror) : Prop where
  consumed : m'.consumed = m.consumed
  pruned : m'.pruned = m.pruned
  bitmap : m'.bitmap = m.bitmap
  commitments : m'.commitments = m.commitments
  expiresAtEpoch : m'.expiresAtEpoch = m.expiresAtEpoch
  recoveryGraceUntilEpoch : m'.recoveryGraceUntilEpoch = m.recoveryGraceUntilEpoch

section Kept

variable {C : Crypto} {mirror mirror' m : Mirror} {entry : WalEntry} {id payload : Bytes}

theorem Kept.trans {m₁ m₂ m₃ : Mirror} (h : Kept m₁ m₂) (h' : Kept m₂ m₃) : Kept m₁ m₃ :=
  ⟨h'.1.trans h.1, h'.2.trans h.2, h'.3.trans h.3, h'.4.trans h.4, h'.5.trans h.5, h'.6.trans h.6⟩

theorem kept_openRun (h : openRun mirror entry payload = .ok m) :
    Kept mirror m ∧ m.priorRevision = mirror.priorRevision ∧ m.chargeEntryCount = mirror.chargeEntryCount ∧
      m.trustedEpochHighWatermark = mirror.trustedEpochHighWatermark := by
  simp only [openRun] at h
  split at h
  · split at h
    · rw [← pure_eq_ok_iff.mp h]
      exact ⟨⟨rfl, rfl, rfl, rfl, rfl, rfl⟩, rfl, rfl, rfl⟩
    · split at h
      · rw [← pure_eq_ok_iff.mp h]
        exact ⟨⟨rfl, rfl, rfl, rfl, rfl, rfl⟩, rfl, rfl, rfl⟩
      · simp only [guards_eq_ok] at h
        rw [← h.2]
        exact ⟨⟨rfl, rfl, rfl, rfl, rfl, rfl⟩, rfl, rfl, rfl⟩
  · split at h
    · rw [← pure_eq_ok_iff.mp h]
      exact ⟨⟨rfl, rfl, rfl, rfl, rfl, rfl⟩, rfl, rfl, rfl⟩
    · rw [← pure_eq_ok_iff.mp h]
      exact ⟨⟨rfl, rfl, rfl, rfl, rfl, rfl⟩, rfl, rfl, rfl⟩

theorem kept_terminate (mirror : Mirror) (entry : WalEntry) (payload : Bytes) :
    Kept mirror (terminate mirror entry payload) ∧
    (terminate mirror entry payload).priorRevision = mirror.priorRevision ∧
    (terminate mirror entry payload).chargeEntryCount = mirror.chargeEntryCount ∧
    ((terminate mirror entry payload).trustedEpochHighWatermark = mirror.trustedEpochHighWatermark ∨
      (terminate mirror entry payload).trustedEpochHighWatermark =
        max mirror.trustedEpochHighWatermark (readU payload 72 4)) := by
  unfold terminate
  split
  · refine ⟨⟨rfl, rfl, rfl, rfl, rfl, rfl⟩, rfl, rfl, ?_⟩
    split
    · exact .inr rfl
    · exact .inl rfl
  · exact ⟨⟨rfl, rfl, rfl, rfl, rfl, rfl⟩, rfl, rfl, .inl rfl⟩

theorem kept_charge (h : charge C mirror entry id = .ok m) : Kept mirror m ∧ m.priorRevision = mirror.priorRevision ∧
      m.trustedEpochHighWatermark = mirror.trustedEpochHighWatermark ∧
      (m.chargeEntryCount = mirror.chargeEntryCount ∨ m.chargeEntryCount ≤ maximumChargeEntries) := by
  unfold charge at h
  split at h
  · simp only [guards_eq_ok] at h
    rw [← h.2]
    exact ⟨⟨rfl, rfl, rfl, rfl, rfl, rfl⟩, rfl, rfl, .inr h.1⟩
  · rw [← pure_eq_ok_iff.mp h]
    exact ⟨⟨rfl, rfl, rfl, rfl, rfl, rfl⟩, rfl, rfl, .inl rfl⟩

theorem kept_countRun (C : Crypto) (mirror : Mirror) (entry : WalEntry) (id : Bytes)
    (preFold : Option Bytes) : Kept mirror (countRun C mirror entry id preFold) ∧
    (countRun C mirror entry id preFold).present = mirror.present ∧
    (countRun C mirror entry id preFold).priorRevision = mirror.priorRevision ∧
    (countRun C mirror entry id preFold).chargeEntryCount = mirror.chargeEntryCount ∧
    (countRun C mirror entry id preFold).trustedEpochHighWatermark =
      mirror.trustedEpochHighWatermark := by
  unfold countRun
  split
  · exact ⟨⟨rfl, rfl, rfl, rfl, rfl, rfl⟩, rfl, rfl, rfl, rfl⟩
  · split <;> exact ⟨⟨rfl, rfl, rfl, rfl, rfl, rfl⟩, rfl, rfl, rfl, rfl⟩

/-- **What a session entry leaves of a mirror** before its authority is looked at. -/
theorem applySession_eq_authorize (h : applySession C mirror entry id payload = .ok mirror') :
    ∃ m, mirror' = authorize m entry payload ∧ m.present = true ∧ Kept mirror m ∧
      m.priorRevision = mirror.priorRevision + 1 ∧
      (m.chargeEntryCount = mirror.chargeEntryCount ∨ m.chargeEntryCount ≤ maximumChargeEntries) ∧
      (m.trustedEpochHighWatermark = mirror.trustedEpochHighWatermark ∨
        m.trustedEpochHighWatermark = max mirror.trustedEpochHighWatermark (readU payload 72 4)) := by
  simp only [applySession, guards_eq_ok] at h
  obtain ⟨running, hrunning, charged, hcharged, rfl⟩ := h
  obtain ⟨hopen, hopenRevision, hopenCount, hopenMark⟩ := kept_openRun hrunning
  obtain ⟨hclose, hcloseRevision, hcloseCount, hcloseMark⟩ := kept_terminate running entry payload
  obtain ⟨hcharge, hchargeRevision, hchargeMark, hchargeCount⟩ := kept_charge hcharged
  obtain ⟨hrun, hrunPresent, hrunRevision, hrunCount, hrunMark⟩ :=
    kept_countRun C { charged with present := true, priorRevision := charged.priorRevision + 1 }
      entry id (if 0 < entry.ordinaryLogicalCharge then
        some (chainOr C (terminate running entry payload).chargeChain entry.role.byte id) else none)
  have hpresent : Kept charged { charged with present := true, priorRevision := charged.priorRevision + 1 } :=
    ⟨rfl, rfl, rfl, rfl, rfl, rfl⟩
  refine ⟨_, rfl, hrunPresent, (((hopen.trans hclose).trans hcharge).trans hpresent).trans hrun, ?_, ?_, ?_⟩
  · rw [hrunRevision]
    show charged.priorRevision + 1 = _
    rw [hchargeRevision, hcloseRevision, hopenRevision]
  · rw [hrunCount]
    show charged.chargeEntryCount = _ ∨ charged.chargeEntryCount ≤ _
    rw [← hopenCount, ← hcloseCount]
    exact hchargeCount
  · rw [hrunMark]
    show charged.trustedEpochHighWatermark = _ ∨ charged.trustedEpochHighWatermark = _
    rw [hchargeMark, ← hopenMark]
    exact hcloseMark

end Kept

/-! ### What a log leaves -/

section Logs

variable {C : Crypto} {role : StoreRole} {entry : WalEntry} {frame : WalFrame}

/-- What every entry has of its frame. -/
structure FromFrame (role : StoreRole) (frame : WalFrame) (entry : WalEntry) : Prop where
  role_eq : entry.role = role
  walType_eq : entry.walType = frame.type
  walType_le : frame.type ≤ 255
  sequence_eq : entry.walSequence = frame.sequence
  sequence_lt : frame.sequence < 2 ^ 64
  payloadHash_eq : entry.payloadHash = frame.payloadHash
  length_payloadHash : frame.payloadHash.length = 32
  length_le : frame.payload.length ≤ maximumWalPayloadBytes
  frameBytes_eq : frame.frameBytes = frame.payload.length + walFrameOverheadBytes

inductive Derived (C : Crypto) (role : StoreRole) (frame : WalFrame) (resolve : Bytes → Option Mirror)
    (entry : WalEntry) : Prop
  | run (hclass : (walRegistry frame.type).map Prod.snd = some .session)
      (hscope : entry.scope = .session) (hid : entry.stableSessionId = some (frame.payload.window 4 32))
      (hwal : entry.walType = 113) (hcharge : entry.ordinaryLogicalCharge = type113LogicalBytes)
      (hterminal : entry.terminalLogicalCharge = 0) (hlength : frame.payload.length = 118)
      (hbitmap : entry.authorityBitmap = 0)
      (hcommitments : entry.authorityCommitments = zeroCommitments)
  | other (hclass : (walRegistry frame.type).map Prod.snd = some .session)
      (hscope : entry.scope = .session)
      (hid : entry.stableSessionId = some (frame.payload.window 4 32)) (hwal : entry.walType ≠ 113)
      (hcharge : entry.ordinaryLogicalCharge = frame.payload.length + frame.frameBytes)
      (hterminal : entry.terminalLogicalCharge = 0) (hlength : 36 ≤ frame.payload.length)
      (hbitmap : entry.authorityBitmap = 0)
      (hcommitments : entry.authorityCommitments = zeroCommitments)
  | terminal (terminal : Terminal) (hclass : (walRegistry frame.type).map Prod.snd = some .sessionEmergency)
      (hscope : entry.scope = .session)
      (hid : entry.stableSessionId = some terminal.stableSessionId) (hwal : entry.walType ≠ 113)
      (hcharge : entry.ordinaryLogicalCharge = 0)
      (hterminal : entry.terminalLogicalCharge = ftm9LogicalBytes)
      (hdecode : decodeFtm9Payload C frame.payload frame.type = .ok terminal)
      (hauthority : terminalAuthority C role terminal (resolve terminal.stableSessionId) frame.sequence
        frame.payloadHash = .ok (entry.authorityBitmap, entry.authorityCommitments))
  | prune (pruned : Tombstone) (hclass : (walRegistry frame.type).map Prod.snd = some .pruneTransition)
      (hscope : entry.scope = .pruneTransition)
      (hid : entry.stableSessionId = some pruned.stableSessionId)
      (hdecode : decodeForwardHttpsRetentionPrunedV3 frame.payload = .ok pruned)
      (hrole : pruned.role = role.byte) (hcharge : entry.ordinaryLogicalCharge = fpr9LogicalBytes)
      (hterminal : entry.terminalLogicalCharge = 0)
  | roleGlobal (hclass : (walRegistry frame.type).map Prod.snd = some .roleGlobal)
      (hscope : entry.scope = .roleGlobal) (hid : entry.stableSessionId = none)
      (hcharge : entry.ordinaryLogicalCharge = frame.payload.length + frame.frameBytes)
      (hterminal : entry.terminalLogicalCharge = 0)

theorem walRegistry_113 : walRegistry 113 = some (.target, .session) := rfl

/-- **What `deriveForwardHttpsStoreWalQuotaEntryV3` takes a frame for.** -/
theorem derived_of_derive {resolve : Bytes → Option Mirror}
    (h : deriveForwardHttpsStoreWalQuotaEntryV3 C role frame resolve = .ok entry) :
    FromFrame role frame entry ∧ Derived C role frame resolve entry := by
  simp only [deriveForwardHttpsStoreWalQuotaEntryV3, guards_eq_ok, filter_eq_some_iff] at h
  obtain ⟨hhash, hsequence, -, hbytes, hlength, -, htype, ⟨_, cls⟩, ⟨hrow, -⟩, h⟩ := h
  have hclass : (walRegistry frame.type).map Prod.snd = some cls := by
    rw [hrow]
    rfl
  cases cls with
  | session =>
    by_cases hwal : frame.type = 113
    · rw [if_pos hwal] at h
      simp only [guards_eq_ok] at h
      obtain ⟨h118, -, rfl⟩ := h
      exact ⟨⟨rfl, rfl, htype, rfl, hsequence.1, rfl, hhash, hlength, hbytes⟩,
        .run hclass rfl rfl hwal rfl rfl h118 rfl rfl⟩
    · rw [if_neg hwal] at h
      simp only [guards_eq_ok] at h
      obtain ⟨h36, -, rfl⟩ := h
      exact ⟨⟨rfl, rfl, htype, rfl, hsequence.1, rfl, hhash, hlength, hbytes⟩,
        .other hclass rfl rfl hwal rfl rfl h36 rfl rfl⟩
  | sessionEmergency =>
    simp only [guards_eq_ok] at h
    obtain ⟨terminal, hdecode, authority, hauthority, rfl⟩ := h
    refine ⟨⟨rfl, rfl, htype, rfl, hsequence.1, rfl, hhash, hlength, hbytes⟩,
      .terminal terminal hclass rfl rfl ?_ rfl rfl hdecode hauthority⟩
    intro hwal
    rw [show frame.type = 113 from hwal, walRegistry_113] at hrow
    cases hrow
  | pruneTransition =>
    simp only [guards_eq_ok] at h
    obtain ⟨pruned, hdecode, hrole, rfl⟩ := h
    exact ⟨⟨rfl, rfl, htype, rfl, hsequence.1, rfl, hhash, hlength, hbytes⟩,
      .prune pruned hclass rfl rfl hdecode hrole rfl rfl⟩
  | roleGlobal =>
    cases h
    exact ⟨⟨rfl, rfl, htype, rfl, hsequence.1, rfl, hhash, hlength, hbytes⟩, .roleGlobal hclass rfl rfl rfl rfl⟩

theorem pairValid_of_decode {payload : Bytes} {pruned : Tombstone}
    (h : decodeForwardHttpsRetentionPrunedV3 payload = .ok pruned) :
    PairValid pruned.flags pruned.allocationDisposition pruned.terminalSlotState := by
  simp only [decodeForwardHttpsRetentionPrunedV3, guards_eq_ok] at h
  obtain ⟨-, -, -, -, -, -, -, -, -, -, -, -, -, -, hpair, -, -, rfl⟩ := h
  exact hpair

/-- What a frame that is absorbed does to the sink. -/
structure Absorbed (C : Crypto) (sink : Sink) (frame : WalFrame) (sink' : Sink) (entry : WalEntry) :
    Prop where
  sequence_eq : frame.sequence = sink.lastSequence + 1
  from_frame : FromFrame sink.role frame entry
  derived : Derived C sink.role frame sink.sessions.get? entry
  matched : ∀ pruned, entry.scope = .pruneTransition →
    decodeForwardHttpsRetentionPrunedV3 frame.payload = .ok pruned →
    matchFpr9AgainstMirror C (sink.sessions.get? pruned.stableSessionId) pruned pruned.role
      pruned.stableSessionId = .ok ()
  sessions : applyEntryToSessionMirror C sink.sessions entry frame.payload = .ok sink'.sessions
  role_eq : sink'.role = sink.role
  lastSequence_eq : sink'.lastSequence = frame.sequence

theorem absorbed_of_absorb {sink sink' : Sink}
    (h : absorbForwardHttpsAggregateQuotaRecoveryFrameV3 C sink frame = .ok (sink', entry)) :
    Absorbed C sink frame sink' entry := by
  simp only [absorbForwardHttpsAggregateQuotaRecoveryFrameV3, guards_eq_ok, Prod.mk.injEq] at h
  obtain ⟨-, hsequence, -, -, -, -, -, -, entry₀, hderive, pruned, hpruned, u, hmatched,
    sessions, hsessions, rfl, rfl⟩ := h
  obtain ⟨hfrom, hderived⟩ := derived_of_derive hderive
  refine ⟨hsequence, hfrom, hderived, fun t hscope hdecode => ?_, hsessions, rfl, rfl⟩
  rw [prunedOf, if_pos hscope, hdecode] at hpruned
  cases hpruned
  rw [matchRecovered] at hmatched
  split at hmatched
  · next hok => exact hok
  · cases hmatched

def mirrorOf (sessions : OrderedMap Bytes Mirror) (id : Bytes) : Mirror :=
  (sessions.get? id).getD .unseen

theorem reflects_unseen {id : Bytes} : Reflects C role id .unseen .empty where
  count := rfl
  sum := rfl
  chain := rfl
  revision := rfl
  commitment := rfl
  opened := ⟨fun _ => rfl, fun _ => rfl⟩
  orphanCount := rfl
  orphanSum := rfl
  orphanChain := rfl
  orphanRevision hne := absurd rfl hne
  before hne := absurd rfl hne
  begun := ⟨fun _ => rfl, fun _ => rfl⟩
  marked := ⟨fun _ => rfl, fun _ => rfl⟩
  bare _ := rfl
  present _ := rfl

theorem Registry.lost_of_absorb {id : Bytes} {reg : Registry} {record : WalEntry × Bytes}
    (h : (Registry.absorb id reg record).lost = false) : reg.lost = false := by
  have henlist : (reg.enlist record.1 record.2).lost = reg.lost := by
    unfold Registry.enlist
    split
    · rfl
    · split
      · rfl
      · split <;> rfl
  have hprune : ∀ pruned, (reg.prune pruned).lost = false → reg.lost = false := by
    intro pruned hlost
    unfold Registry.prune at hlost
    split at hlost
    · exact hlost
    · exact (Bool.or_eq_false_iff.mp hlost).1
  unfold Registry.absorb at h
  split at h
  · split at h
    · exact henlist ▸ h
    · split at h
      · exact hprune _ h
      · exact h
    · exact h
  · exact h

theorem mirrorOf_session {sessions sessions' : OrderedMap Bytes Mirror} {sid payload : Bytes}
    (id : Bytes) (hscope : entry.scope = .session) (hid : entry.stableSessionId = some sid)
    (h : applyEntryToSessionMirror C sessions entry payload = .ok sessions') :
    ∃ mirror, applySession C (mirrorOf sessions sid) entry sid payload = .ok mirror ∧
      mirrorOf sessions' id = if id = sid then mirror else mirrorOf sessions id := by
  simp only [applyEntryToSessionMirror, hscope, hid, guards_eq_ok] at h
  obtain ⟨mirror, hmirror, rfl⟩ := h
  refine ⟨mirror, hmirror, ?_⟩
  rw [mirrorOf, OrderedMap.get?_set]
  split <;> rfl

theorem mirrorOf_prune {sessions sessions' : OrderedMap Bytes Mirror} {id sid payload : Bytes}
    {pruned : Tombstone} (hscope : entry.scope = .pruneTransition) (hid : entry.stableSessionId = some sid)
    (hdecode : decodeForwardHttpsRetentionPrunedV3 payload = .ok pruned)
    (h : applyEntryToSessionMirror C sessions entry payload = .ok sessions') :
    mirrorOf sessions' id =
      if id = sid then applyPrune C (mirrorOf sessions sid) pruned else mirrorOf sessions id := by
  simp only [applyEntryToSessionMirror, hscope, hid, hdecode, ok_bind, pure_eq_ok_iff] at h
  obtain rfl := h
  rw [mirrorOf, OrderedMap.get?_set]
  split <;> rfl

theorem some_mirrorOf_of_match {sessions : OrderedMap Bytes Mirror} {id : Bytes} {pruned : Tombstone}
    {label : UInt8} (h : matchFpr9AgainstMirror C (sessions.get? id) pruned label id = .ok ()) :
    matchFpr9AgainstMirror C (some (mirrorOf sessions id)) pruned label id = .ok () := by
  cases hget : sessions.get? id with
  | none => rw [hget] at h; cases h
  | some mirror => rw [hget] at h; rw [mirrorOf, hget]; exact h

/-- **A frame that is absorbed** keeps what the mirrors say of the registries. -/
theorem Absorbed.reflects {sink sink' : Sink} (h : Absorbed C sink frame sink' entry) {id : Bytes}
    {reg : Registry} (hreflects : reg.lost = false → Reflects C sink.role id (mirrorOf sink.sessions id) reg)
    (hlost : (Registry.absorb id reg (entry, frame.payload)).lost = false) :
    Reflects C sink'.role id (mirrorOf sink'.sessions id) (Registry.absorb id reg (entry, frame.payload)) := by
  have hbefore := hreflects (Registry.lost_of_absorb hlost)
  have hrole := h.from_frame.role_eq
  rw [h.role_eq]
  have hother : ∀ sid, entry.stableSessionId = some sid → id ≠ sid →
      Registry.absorb id reg (entry, frame.payload) = reg := by
    intro sid hsid hne
    rw [Registry.absorb, if_neg fun heq => hne (some.inj (heq.symm.trans hsid))]
  have henlist : entry.stableSessionId = some id → entry.scope = .session →
      Registry.absorb id reg (entry, frame.payload) = reg.enlist entry frame.payload := by
    intro hid hscope
    simp only [Registry.absorb, if_pos hid, hscope]
  cases h.derived with
  | run _ hscope hid hwal hcharge hterminal hlength _ _ =>
    obtain ⟨mirror, hok, hmirror⟩ := mirrorOf_session id hscope hid h.sessions
    rw [hmirror]
    by_cases heq : id = frame.payload.window 4 32
    · rw [if_pos heq, henlist (heq ▸ hid) hscope]
      rw [← heq] at hok
      have hcommitment : payloadCommitment frame.payload = some (frame.payload.window 36 32) :=
        if_pos (by omega)
      exact hbefore.run hrole hwal (by rw [hcharge]; decide) hterminal hcommitment hok
    · rw [if_neg heq, hother _ hid heq]
      exact hbefore
  | other _ hscope hid hwal hcharge hterminal _ _ _ =>
    obtain ⟨mirror, hok, hmirror⟩ := mirrorOf_session id hscope hid h.sessions
    rw [hmirror]
    by_cases heq : id = frame.payload.window 4 32
    · rw [if_pos heq, henlist (heq ▸ hid) hscope]
      rw [← heq] at hok
      refine hbefore.other hrole hwal ?_ hterminal hok
      omega
    · rw [if_neg heq, hother _ hid heq]
      exact hbefore
  | terminal terminal _ hscope hid hwal hcharge hterminal _ _ =>
    obtain ⟨mirror, hok, hmirror⟩ := mirrorOf_session id hscope hid h.sessions
    rw [hmirror]
    by_cases heq : id = terminal.stableSessionId
    · rw [if_pos heq, henlist (heq ▸ hid) hscope]
      rw [← heq] at hok
      exact hbefore.terminal hwal hcharge (by rw [hterminal]; decide) hok
    · rw [if_neg heq, hother _ hid heq]
      exact hbefore
  | prune pruned _ hscope hid hdecode hprole _ _ =>
    rw [mirrorOf_prune hscope hid hdecode h.sessions]
    by_cases heq : id = pruned.stableSessionId
    · have habsorb : Registry.absorb id reg (entry, frame.payload) = reg.prune pruned := by
        simp only [Registry.absorb, if_pos (heq ▸ hid), hscope, hdecode]
      rw [if_pos heq, habsorb]
      rw [habsorb] at hlost
      have hmatch := some_mirrorOf_of_match (h.matched pruned hscope hdecode)
      rw [hprole, ← heq] at hmatch
      rw [← heq]
      exact hbefore.prune hprole heq.symm (pairValid_of_decode hdecode) hmatch hlost
    · rw [if_neg heq, hother _ hid heq]
      exact hbefore
  | roleGlobal _ hscope hid _ _ =>
    have hsame : sink'.sessions = sink.sessions := by
      have := h.sessions
      simp only [applyEntryToSessionMirror, hscope, pure_eq_ok_iff] at this
      exact this.symm
    rw [hsame, Registry.absorb, if_neg (by rw [hid]; exact some_ne_none id ∘ Eq.symm)]
    exact hbefore

/-- **The mirrors of a sink** reflect the registries of the log, along the frames it absorbs. -/
theorem reflects_of_absorbAll_from {id : Bytes} {frames : List WalFrame} {sink sink' : Sink}
    {log : List (WalEntry × Bytes)} (h : absorbAll C sink frames = .ok (sink', log)) {reg : Registry}
    (hreflects : reg.lost = false → Reflects C sink.role id (mirrorOf sink.sessions id) reg)
    (hlost : (log.foldl (Registry.absorb id) reg).lost = false) :
    Reflects C sink'.role id (mirrorOf sink'.sessions id) (log.foldl (Registry.absorb id) reg) := by
  induction frames generalizing sink log reg with
  | nil =>
    obtain ⟨rfl, rfl⟩ := h
    exact hreflects hlost
  | cons frame frames ih =>
    simp only [absorbAll, guards_eq_ok, Prod.mk.injEq] at h
    obtain ⟨⟨sink₁, entry⟩, habsorb, ⟨sink₂, log₂⟩, hrest, rfl, rfl⟩ := h
    exact ih hrest (fun hlost₁ => (absorbed_of_absorb habsorb).reflects hreflects hlost₁) hlost

end Logs

end HiveRelay.Quota
