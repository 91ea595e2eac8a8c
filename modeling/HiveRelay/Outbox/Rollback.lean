import HiveRelay.Outbox.Loading
import Mathlib.Data.Finset.Order

/-!
# Calls of the outbox log that throw

A call that throws is undone by hand, operation by operation. Here it is said exactly when nothing is left
of it. Three things are left behind. An append makes or binds its group before its last checks, and the
group stays when one of them fails. An entry stays in the journal when the snapshot after it is not
written, though the call throws. A sweep puts the groups of a batch back, but not their suppressed ids, and
not the batches before it.

Windows are compared by the charges that are alive: dropping what has expired is no change.

## Main definitions

* `Agree` — equal from a time on
* `Undoes` — when a call is undone

## Main results

* `rolledBack_iff` — nothing is left of a call exactly then
-/

namespace HiveRelay.Outbox

open OrderedMap List Option
open JsString (ofText)

variable {cfg : Config}

/-! ### Events and groups -/

/-- A group with events has taken an append. -/
def EventsOfGroups (s : State) : Prop :=
  ∀ k events, s.appendEventsByApp.get? k = some events → ∃ group, s.groups.get? k = some group ∧ group.version ≠ 0

variable {s : State}

theorem EventsOfGroups.congr {s' : State} (h : EventsOfGroups s) (hsame : Unchanged s s') : EventsOfGroups s' := by
  intro k events hget
  rw [hsame.events] at hget
  rw [hsame.groups]
  exact h k events hget

variable {appId : JsString} {group : Group}

theorem EventsOfGroups.setGroup (h : EventsOfGroups s)
    (hversion : ∀ previous, s.groups.get? appId = some previous → group.version = previous.version) :
    EventsOfGroups (s.setGroup appId group) := by
  intro k events hget
  obtain ⟨previous, hprevious, hne⟩ := h k events hget
  rw [State.setGroup, get?_set]
  by_cases hk : k = appId
  · subst hk
    exact ⟨group, if_pos rfl, by rwa [hversion previous hprevious]⟩
  · exact ⟨previous, by rw [if_neg hk, hprevious], hne⟩

theorem EventsOfGroups.writeRow (h : EventsOfGroups s) (cfg : Config) (appId : JsString) (group : Group)
    (key type : JsString) (data : Json) (size : ℕ) :
    EventsOfGroups (writeRow cfg s appId group key type data size) := by
  intro k events hget
  rw [groups_writeRow, get?_set]
  by_cases hk : k = appId
  · exact ⟨_, if_pos hk, Nat.succ_ne_zero _⟩
  · rw [if_neg hk]
    simp only [Outbox.writeRow, rememberAppendEvent, State.setGroup, get?_set_of_ne hk] at hget
    exact h k events hget

theorem EventsOfGroups.deleteAll (h : EventsOfGroups s) (appIds : List JsString) :
    EventsOfGroups (appIds.foldl deleteGroupState s) := by
  intro k events hget
  rw [events_deleteAll] at hget
  split at hget
  · cases hget
  · next hk =>
    rw [groups_deleteAll, if_neg hk]
    exact h k events hget

variable {now : ℤ}

theorem Ensured.version {inviteKey : JsString} {info : Option NamespaceInfo}
    {previous : Group} (h : Ensured cfg s appId info inviteKey now group)
    (hget : s.groups.get? appId = some previous) : group.version = previous.version := by
  rw [h.previous hget]

theorem EventsOfGroups.applyState {s' : State} (h : EventsOfGroups s)
    (happly : applyState cfg (snapshot s) now = .ok s') : EventsOfGroups s' := by
  obtain ⟨restored, hgroups, rfl⟩ := applyState_eq_ok.mp happly
  intro k events hget
  rcases restoreEvents_origin hget with hnone | ⟨⟨events', hmem⟩, hhas⟩
  · cases hnone
  obtain ⟨group, hgroup⟩ := has_eq_true_iff.mp hhas
  refine ⟨group, hgroup, ?_⟩
  obtain ⟨before, hbefore, hne⟩ := h k events' (mem_entries_iff.mp hmem)
  rcases (restoresAll_of_foldlM hgroups).origin hgroup with hnone | ⟨gs, _, _, rows, _, seen, hgs, -, rfl⟩
  · cases hnone
  rw [snapshot, List.mem_map] at hgs
  obtain ⟨e, he, heq⟩ := hgs
  obtain ⟨rfl, rfl⟩ := heq
  have hsame : e.2 = before := by
    have hget' := mem_entries_iff.mp (show (e.1, e.2) ∈ s.groups.entries from he)
    rw [hbefore] at hget'
    exact (some.inj hget').symm
  rw [restoredGroup, Group.toState, hsame]
  dsimp only
  split <;> omega

theorem EventsOfGroups.replays {s' : State} {body : EntryBody} (h : EventsOfGroups s)
    (hreplays : Replays cfg now s body s') : EventsOfGroups s' := by
  cases hreplays with
  | swept appIds => exact h.deleteAll appIds
  | ignored | known | dropped => exact h
  | taken => exact h
  | created appId inviteKey ns createdAt info hinfo hnone =>
    exact h.setGroup fun previous hget => by rw [hnone] at hget; cases hget
  | written appId inviteKey ns ts type data info id group hinfo hid hgroup =>
    obtain ⟨windows, heq⟩ := sameRows_noteNamespaceByteCharge cfg
      (Outbox.writeRow cfg (s.setGroup appId group) appId group (rowKey type id) type data (jsonSize data)) info
      (jsonSize data) ts now
    rw [heq]
    refine EventsOfGroups.writeRow ?_ cfg appId group _ type data _
    refine h.setGroup fun previous hget => ?_
    cases hgroup with
    | created hnone =>
      rw [hnone] at hget
      cases hget
    | bound _ hget' | found _ hget' =>
      rw [hget', some.injEq] at hget
      rw [← hget]

/-- The events of a state are of its groups, and so are those of its snapshot. -/
structure EventsSound (sys : Sys) : Prop where
  state : EventsOfGroups sys.state
  snapshot : ∀ snap, sys.disk.snapshot = some snap → ∃ s, EventsOfGroups s ∧ snap = snapshot s

variable {sys : Sys} {io : Io}

theorem EventsSound.saves {saved : Sys} {body : Option EntryBody} {ok : Bool}
    (h : EventsSound sys) (hsaved : Saves cfg sys io body saved ok) : EventsSound saved := by
  refine ⟨h.state.congr hsaved.frame, ?_⟩
  cases hsaved with
  | memory | unchanged | refused => exact h.snapshot
  | logged body | torn body =>
    intro snap hsnap
    simp only [Sys.pruned, disk_logEntry] at hsnap
    exact h.snapshot snap hsnap
  | checkpointed body =>
    intro snap hsnap
    cases hsnap
    refine ⟨_, (h.state.congr (unchanged_logEntry cfg sys body)).congr (unchanged_pruneWindows _ _), rfl⟩
  | snapped =>
    intro snap hsnap
    cases hsnap
    exact ⟨_, h.state.congr (unchanged_pruneWindows _ _), rfl⟩
  | unsnapped => exact h.snapshot

theorem EventsSound.withState (h : EventsSound sys) (hs : EventsOfGroups s) :
    EventsSound ⟨s, sys.disk⟩ := ⟨hs, h.snapshot⟩

theorem EventsSound.sweeps {ios : ℕ → Io} {i : ℕ} {appIds : List JsString} {after : Sys}
    {result : Except Failure ℕ} (h : EventsSound sys) (hsweeps : Sweeps cfg ios i appIds sys after result) :
    EventsSound after := by
  induction hsweeps with
  | done => exact h
  | back i appIds sys saved hne hsaved =>
    have hs := (h.withState (h.state.deleteAll (appIds.take SWEEP_JOURNAL_BATCH))).saves hsaved
    refine hs.withState ?_
    intro k events hget
    obtain ⟨groups, heq⟩ := rest_putBack saved.state ((appIds.take SWEEP_JOURNAL_BATCH).filterMap fun appId =>
        (sys.state.groups.get? appId).map fun group => (appId, group))
    rw [groups_sweep_back sys.state saved.state _ hsaved.frame.groups]
    rw [heq] at hget
    have hevents := hsaved.frame.events
    rw [hevents, events_deleteAll] at hget
    split at hget
    · cases hget
    · exact h.state k events hget
  | next i appIds sys saved after result hne hsaved _ ih =>
    exact ih ((h.withState (h.state.deleteAll (appIds.take SWEEP_JOURNAL_BATCH))).saves hsaved)

/-- Events are of groups, in memory and after a restart. -/
theorem Reachable.events (h : Reachable cfg sys) : EventsSound sys := by
  induction h with
  | start =>
    constructor
    · intro k events hget
      cases hget
    · intro snap hsnap
      cases hsnap
  | restart sys now s _ hload ih =>
    refine ih.withState (load_induct nofun ?_ ?_ ?_ hload)
    · intro snap s₁ hsnap happly
      obtain ⟨s₀, hs₀, rfl⟩ := ih.snapshot snap hsnap
      exact hs₀.applyState happly
    · exact fun s₁ body s₂ hs hreplays => hs.replays hreplays
    · exact fun s₁ seq hs => hs
  | called sys c _ ih =>
    cases c with
    | create appId ns inviteKey created io =>
      have hout := creates cfg sys appId ns inviteKey created io
      rw [call]
      generalize create cfg sys appId ns inviteKey created io = out at hout
      cases hout with
      | rejected => exact ih
      | saved group saved hplan hsaved =>
        obtain ⟨info, -, hens⟩ := ensured_of_planCreate hplan
        exact (ih.withState (ih.state.setGroup fun previous hget => hens.version hget)).saves hsaved
      | undone group saved hplan hsaved =>
        obtain ⟨info, -, hens⟩ := ensured_of_planCreate hplan
        have hs := (ih.withState (ih.state.setGroup fun previous hget => hens.version hget)).saves hsaved
        exact hs.withState (ih.state.congr (unchanged_undoCreate hens hsaved.frame))
    | append appId type data inviteKey created now io =>
      have hout := appends cfg sys appId type data inviteKey created now io
      rw [call]
      generalize append cfg sys appId type data inviteKey created now io = out at hout
      cases hout with
      | rejected => exact ih
      | refused checked group admitted failure hplan hpassed =>
        have hens := (ensured_of_planAppend hplan).2
        refine ih.withState (EventsOfGroups.congr ?_ (admits_of_admitAppend hpassed).frame)
        exact ih.state.setGroup fun previous hget => hens.version hget
      | saved checked group admitted tracked saved hplan hpassed hsaved =>
        have hens := (ensured_of_planAppend hplan).2
        have hset := ih.state.setGroup fun previous hget => hens.version hget
        have hrow := (hset.congr (admits_of_admitAppend hpassed).frame).writeRow cfg appId group
          (rowKey type checked.id) type data checked.size
        exact (ih.withState (hrow.congr unchanged_applyAppend)).saves hsaved
      | undone checked group admitted tracked saved hplan hpassed hsaved =>
        have hens := (ensured_of_planAppend hplan).2
        have hset := ih.state.setGroup fun previous hget => hens.version hget
        have hrow := (hset.congr (admits_of_admitAppend hpassed).frame).writeRow cfg appId group
          (rowKey type checked.id) type data checked.size
        have hs := (ih.withState (hrow.congr unchanged_applyAppend)).saves hsaved
        exact hs.withState (ih.state.congr (append_undone hens (admits_of_admitAppend hpassed) hsaved).1)
    | takedown appId key drop io =>
      have hout := takes cfg sys appId key drop io
      rw [call]
      generalize applyTakedown cfg sys appId key drop io = out at hout
      cases hout with
      | rejected | same => exact ih
      | saved composite saved _ _ hsaved =>
        exact (ih.withState (s := sys.state.suppress composite drop) ih.state).saves hsaved
      | undone composite saved _ _ hsaved =>
        have hs := (ih.withState (s := sys.state.suppress composite drop) ih.state).saves hsaved
        exact hs.withState (s := saved.state.suppress composite (!drop)) hs.state
    | sweep ttlMs now ios =>
      obtain ⟨result, hsweeps, -⟩ := sweeps cfg sys ttlMs now ios
      exact ih.sweeps hsweeps
    | flush io =>
      have hflush : ∀ after ok, Flushes cfg sys io after ok → EventsSound after := by
        intro after ok h
        cases h with
        | clean => exact ih
        | snapped =>
          have hs := ih.state.congr (unchanged_pruneWindows sys.state io.saveNow)
          refine ⟨hs, fun snap hsnap => ?_⟩
          cases hsnap
          exact ⟨_, hs, rfl⟩
        | unsnapped => exact ih.withState (ih.state.congr (unchanged_pruneWindows sys.state io.saveNow))
      rw [call]
      split
      · next saved h => exact hflush saved true (flushes h)
      · next saved h => exact hflush saved false (flushes h)

/-! ### What is left of a call -/

/-- Two states that cannot be told apart at any time from `t` on. -/
structure Agree (t : ℤ) (s s' : State) : Prop where
  groups : ∀ k, s'.groups.get? k = s.groups.get? k
  events : ∀ k, s'.appendEventsByApp.get? k = s.appendEventsByApp.get? k
  suppressed : ∀ composite, s'.suppressed.has composite = s.suppressed.has composite
  window : ∀ key t', t ≤ t' → s'.window key t' = s.window key t'
  totalBytes : s'.totalBytes = s.totalBytes
  directorySeq : s'.directorySeq = s.directorySeq
  appendSeq : s'.appendSeq = s.appendSeq
  journalSeq : s'.journalSeq = s.journalSeq

theorem Agree.refl (t : ℤ) (s : State) : Agree t s s :=
  ⟨fun _ => rfl, fun _ => rfl, fun _ => rfl, fun _ _ _ => rfl, rfl, rfl, rfl, rfl⟩

theorem Unchanged.agree {t : ℤ} {s' : State} (h : Unchanged s s')
    (hwindow : ∀ key t', t ≤ t' → s'.window key t' = s.window key t')
    (hseq : s'.journalSeq = s.journalSeq) : Agree t s s' := by
  refine ⟨fun k => ?_, fun k => ?_, fun k => ?_, hwindow, h.totalBytes, h.directorySeq, h.appendSeq, hseq⟩
  · rw [h.groups]
  · rw [h.events]
  · rw [h.suppressed]

/-- What the clock says in a call is at most `t`. -/
def Call.ReadBy (s : State) (t : ℤ) : Call → Prop
  | .create _ _ _ _ io => io.saveNow ≤ t
  | .append _ _ _ _ _ now io => now ≤ t ∧ io.saveNow ≤ t
  | .takedown _ _ _ io => io.saveNow ≤ t
  | .sweep _ _ ios => ∀ i ≤ s.groups.size, (ios i).saveNow ≤ t
  | .flush io => io.saveNow ≤ t

theorem Call.exists_readBy (s : State) (c : Call) : ∃ t, c.ReadBy s t := by
  cases c with
  | create _ _ _ _ io | takedown _ _ _ io | flush io => exact ⟨io.saveNow, le_rfl⟩
  | append _ _ _ _ _ now io => exact ⟨max now io.saveNow, le_max_left _ _, le_max_right _ _⟩
  | sweep _ _ ios =>
    obtain ⟨t, ht⟩ := ((Finset.range (s.groups.size + 1)).image fun i => (ios i).saveNow).exists_le
    refine ⟨t, fun i hi => ht _ ?_⟩
    exact Finset.mem_image.mpr ⟨i, Finset.mem_range.mpr (by omega), rfl⟩

/-- **Nothing is left of a call**: not in memory, and not in what a restart loads. -/
def RolledBack (cfg : Config) (sys : Sys) (c : Call) : Prop :=
  (∀ t, c.ReadBy sys.state t → Agree t sys.state (call cfg sys c).sys.state) ∧
    ∀ now, load cfg (call cfg sys c).sys.disk now = load cfg sys.disk now

/-- When a call that throws is undone: what fails is the first write of a save; an append whose group was
there, bound as it is, may fail a check after it; a sweep has to fail in its first batch, and no id of that
batch may be suppressed. -/
def Undoes (cfg : Config) (s : State) : Call → Prop
  | .create appId ns inviteKey created io =>
    ∀ group, planCreate cfg s appId ns inviteKey created = .ok group → Refuses cfg io
  | .append appId type data inviteKey created now io =>
    ∀ checked group, planAppend cfg s appId type data inviteKey created = .ok (checked, group) →
      match (admitAppend cfg s appId group (rowKey type checked.id) checked now).2 with
      | .ok _ => Refuses cfg io
      | .error _ => s.groups.get? appId = some group
  | .takedown appId key _ io => suppressionKey cfg appId key ≠ none → Refuses cfg io
  | .sweep ttlMs now ios =>
    Refuses cfg (ios 0) ∧ ∀ appId ∈ (sweepVictims s ttlMs now).take SWEEP_JOURNAL_BATCH, ¬ HasSuppressed s appId
  | .flush _ => True

theorem not_rolledBack_of_journalSeq (cfg : Config) (sys : Sys) (c : Call)
    (h : (call cfg sys c).sys.state.journalSeq = sys.state.journalSeq + 1) : ¬ RolledBack cfg sys c := by
  intro hback
  obtain ⟨t, ht⟩ := c.exists_readBy sys.state
  have hseq := (hback.1 t ht).journalSeq
  omega

variable {failure : Failure}

theorem rolledBack_create {inviteKey : JsString} {ns : Option JsString} {created : ℤ}
    (hfail : (call cfg sys (.create appId ns inviteKey created io)).result = .error failure) :
    RolledBack cfg sys (.create appId ns inviteKey created io) ↔
      Undoes cfg sys.state (.create appId ns inviteKey created io) := by
  have hout := creates cfg sys appId ns inviteKey created io
  have hseq := not_rolledBack_of_journalSeq cfg sys (.create appId ns inviteKey created io)
  rw [RolledBack, Undoes] at *
  rw [call] at *
  generalize create cfg sys appId ns inviteKey created io = out at *
  cases hout with
  | rejected failure hplan =>
    refine ⟨fun _ group hok => ?_, fun _ => ⟨fun t _ => .refl t sys.state, fun _ => rfl⟩⟩
    rw [hplan] at hok
    cases hok
  | saved => cases hfail
  | undone group saved hplan hsaved =>
    obtain ⟨info, -, hens⟩ := ensured_of_planCreate hplan
    have hundone := unchanged_undoCreate hens hsaved.frame
    have hrest : ∀ p, (undoCreate saved.state appId p).byteWindows = saved.state.byteWindows ∧
        (undoCreate saved.state appId p).journalSeq = saved.state.journalSeq := by
      intro p
      cases p with
      | none => exact ⟨rfl, rfl⟩
      | some previous =>
        simp only [undoCreate]
        split <;> exact ⟨rfl, rfl⟩
    constructor
    · intro hback group' _
      by_contra hrefuses
      refine hseq ?_ hback
      exact (hrest _).2.trans (hsaved.journalSeq hrefuses)
    · intro hundoes
      obtain ⟨hdisk, hseq'⟩ := hsaved.disk (hundoes group hplan)
      refine ⟨fun t ht => hundone.agree (fun key t' ht' => ?_) ((hrest _).2.trans hseq'), fun now => ?_⟩
      · rw [State.window, namespaceByteBucket, (hrest _).1]
        exact hsaved.window key (le_trans ht ht')
      · exact congrArg (load cfg · now) hdisk

theorem Admits.journalSeq {admitted : State} {key : JsString} {checked : CheckedAppend}
    {result : Except Failure Bool} (h : Admits cfg s key group checked now admitted result) :
    admitted.journalSeq = s.journalSeq := by
  cases h <;> rfl

theorem rolledBack_append {type inviteKey : JsString} {data : Json} {created : ℤ}
    (hfail : (call cfg sys (.append appId type data inviteKey created now io)).result = .error failure) :
    RolledBack cfg sys (.append appId type data inviteKey created now io) ↔
      Undoes cfg sys.state (.append appId type data inviteKey created now io) := by
  have hout := appends cfg sys appId type data inviteKey created now io
  have hseq := not_rolledBack_of_journalSeq cfg sys (.append appId type data inviteKey created now io)
  have hread := Call.exists_readBy sys.state (.append appId type data inviteKey created now io)
  rw [RolledBack, Undoes] at *
  rw [call] at *
  generalize append cfg sys appId type data inviteKey created now io = out at *
  cases hout with
  | rejected failure hplan =>
    refine ⟨fun _ checked group hok => ?_, fun _ => ⟨fun t _ => .refl t sys.state, fun _ => rfl⟩⟩
    rw [hplan] at hok
    cases hok
  | refused checked group admitted failure hplan hpassed =>
    have hadmits := admits_of_admitAppend hpassed
    constructor
    · intro hback checked' group' hplan'
      rw [hplan] at hplan'
      cases hplan'
      rw [hpassed]
      obtain ⟨t, ht⟩ := hread
      have hgroup := (hback.1 t ht).groups appId
      rw [hadmits.frame.groups, State.setGroup, get?_set_self] at hgroup
      exact hgroup.symm
    · intro hundoes
      have hfound := hundoes checked group hplan
      rw [hpassed] at hfound
      have hset : sys.state.setGroup appId group = sys.state := by
        rw [State.setGroup, set_of_get? hfound]
      rw [hset] at hadmits
      refine ⟨fun t ht => hadmits.frame.agree (fun key t' ht' => ?_) hadmits.journalSeq, fun _ => rfl⟩
      exact hadmits.window key (le_trans ht.1 ht')
  | saved => cases hfail
  | undone checked group admitted tracked saved hplan hpassed hsaved =>
    have hens := (ensured_of_planAppend hplan).2
    have hadmits := admits_of_admitAppend hpassed
    obtain ⟨hundone, hwindow⟩ := append_undone hens hadmits hsaved
    have happlied : ∀ s : State, (applyAppend cfg s appId group (rowKey type checked.id) type data checked tracked
        now).journalSeq = s.journalSeq := by
      intro s
      cases tracked <;> rfl
    have hbefore := (happlied admitted).trans hadmits.journalSeq
    constructor
    · intro hback checked' group' hplan'
      rw [hplan] at hplan'
      cases hplan'
      rw [hpassed]
      by_contra hrefuses
      refine hseq ?_ hback
      exact (hsaved.journalSeq hrefuses).trans (congrArg (· + 1) hbefore)
    · intro hundoes
      have hrefuses := hundoes checked group hplan
      rw [hpassed] at hrefuses
      obtain ⟨hdisk, hseq'⟩ := hsaved.disk hrefuses
      refine ⟨fun t ht => hundone.agree (fun key t' ht' => ?_) (hseq'.trans hbefore), fun now => ?_⟩
      · exact hwindow key t' (le_trans ht.1 ht') (le_trans ht.2 ht')
      · exact congrArg (load cfg · now) hdisk

theorem has_suppress_undone {s' : State} {composite : JsString} {drop : Bool}
    (hother : drop ≠ s.suppressed.has composite) (hsame : s'.suppressed = (s.suppress composite drop).suppressed)
    (k : JsString) : (s'.suppress composite (!drop)).suppressed.has k = s.suppressed.has k := by
  simp only [State.suppress, hsame, has] at hother ⊢
  cases drop <;> by_cases hk : k = composite <;>
    simp_all [get?_set, get?_delete, isSome_iff_ne_none]

theorem rolledBack_takedown {key : JsString} {drop : Bool}
    (hfail : (call cfg sys (.takedown appId key drop io)).result = .error failure) :
    RolledBack cfg sys (.takedown appId key drop io) ↔ Undoes cfg sys.state (.takedown appId key drop io) := by
  have hout := takes cfg sys appId key drop io
  have hseq := not_rolledBack_of_journalSeq cfg sys (.takedown appId key drop io)
  rw [RolledBack, Undoes] at *
  rw [call] at *
  generalize applyTakedown cfg sys appId key drop io = out at *
  cases hout with
  | rejected failure hkey =>
    exact ⟨fun _ hne => absurd hkey hne, fun _ => ⟨fun t _ => .refl t sys.state, fun _ => rfl⟩⟩
  | same | saved => cases hfail
  | undone composite saved hkey hother hsaved =>
    constructor
    · intro hback _
      by_contra hrefuses
      exact hseq (hsaved.journalSeq hrefuses) hback
    · intro hundoes
      obtain ⟨hdisk, hseq'⟩ := hsaved.disk (hundoes (by simp [hkey]))
      obtain ⟨hgroups, hevents, hsuppressed, htotal, hdir, happend⟩ := hsaved.frame
      refine ⟨fun t ht => ⟨fun k => ?_, fun k => ?_, has_suppress_undone hother hsuppressed, fun k t' ht' => ?_,
        htotal, hdir, happend, hseq'⟩, fun now => congrArg (load cfg · now) hdisk⟩
      · exact congrArg (get? · k) hgroups
      · exact congrArg (get? · k) hevents
      · exact hsaved.window k (le_trans ht ht')

theorem mem_victims {cutoff : ℤ} :
    appId ∈ victims s cutoff ↔ ∃ group, s.groups.get? appId = some group ∧ isGhost cutoff group = true := by
  simp only [victims, List.mem_map, mem_filter, Prod.exists, exists_and_right, exists_eq_right,
    mem_entries_iff]

theorem not_hasSuppressed_iff {batch : List JsString} : (∀ appId ∈ batch, ¬ HasSuppressed s appId) ↔
      ∀ composite, (s.suppressed.has composite &&
        !batch.any fun appId => (appId ++ [0]).isPrefixOf composite) = s.suppressed.has composite := by
  constructor
  · intro h composite
    cases hhas : s.suppressed.has composite with
    | false => rfl
    | true =>
      rw [Bool.true_and, Bool.not_eq_true', List.any_eq_false]
      exact fun appId hmem hpre => h appId hmem ⟨composite, hhas, hpre⟩
  · rintro h appId hmem ⟨composite, hhas, hpre⟩
    have hkept := h composite
    rw [hhas, Bool.true_and, Bool.not_eq_true', List.any_eq_false] at hkept
    exact hkept appId hmem hpre

theorem rolledBack_sweep {ttlMs : ℤ} {ios : ℕ → Io} (hevents : EventsOfGroups sys.state)
    (hfail : (call cfg sys (.sweep ttlMs now ios)).result = .error failure) :
    RolledBack cfg sys (.sweep ttlMs now ios) ↔ Undoes cfg sys.state (.sweep ttlMs now ios) := by
  obtain ⟨result, hsweeps, hresult⟩ := sweeps cfg sys ttlMs now ios
  have hseq := not_rolledBack_of_journalSeq cfg sys (.sweep ttlMs now ios)
  have hread := Call.exists_readBy sys.state (.sweep ttlMs now ios)
  have hvictim : ∀ appId ∈ sweepVictims sys.state ttlMs now, ∃ group,
      sys.state.groups.get? appId = some group ∧ group.version = 0 := by
    intro appId hmem
    obtain ⟨group, hget, hghost⟩ := mem_victims.mp hmem
    simp only [isGhost, Bool.and_eq_true, decide_eq_true_eq] at hghost
    exact ⟨group, hget, hghost.1.2⟩
  rw [RolledBack, Undoes] at *
  rw [call] at *
  generalize sweepVictims sys.state ttlMs now = appIds at *
  generalize sweepGhosts cfg sys ttlMs now ios = out at *
  obtain ⟨after, out⟩ := out
  rw [hfail] at hresult
  cases hsweeps with
  | done => exact absurd (hresult.mp rfl) (by simp [Except.toOption])
  | back _ _ _ saved hne hsaved =>
    obtain ⟨groups, hback⟩ := rest_putBack saved.state ((appIds.take SWEEP_JOURNAL_BATCH).filterMap
      fun appId => (sys.state.groups.get? appId).map fun group => (appId, group))
    have hgroups := groups_sweep_back sys.state saved.state _ hsaved.frame.groups
    obtain ⟨hbytes, htotal, hdir, happend, hjournal⟩ :=
      rest_deleteAll (appIds.take SWEEP_JOURNAL_BATCH) sys.state
    rw [hback] at hseq hgroups ⊢
    have hsuppressed : ∀ composite, saved.state.suppressed.has composite = (sys.state.suppressed.has composite &&
        !(appIds.take SWEEP_JOURNAL_BATCH).any fun appId => (appId ++ [0]).isPrefixOf composite) := by
      intro composite
      rw [hsaved.frame.suppressed, suppressed_deleteAll]
    constructor
    · intro hrolled
      have hrefuses : Refuses cfg (ios 0) := by
        by_contra hrefuses
        refine hseq ?_ hrolled
        exact (hsaved.journalSeq hrefuses).trans (congrArg (· + 1) hjournal)
      refine ⟨hrefuses, not_hasSuppressed_iff.mpr fun composite => ?_⟩
      obtain ⟨t, ht⟩ := hread
      rw [← hsuppressed]
      exact (hrolled.1 t ht).suppressed composite
    · rintro ⟨hrefuses, hnone⟩
      obtain ⟨hdisk, hseq'⟩ := hsaved.disk hrefuses
      refine ⟨fun t ht => ⟨hgroups, fun k => ?_, fun composite => ?_, fun k t' ht' => ?_, ?_, ?_, ?_, ?_⟩,
        fun now => congrArg (load cfg · now) hdisk⟩
      · refine (congrArg (get? · k) hsaved.frame.events).trans ?_
        rw [events_deleteAll]
        split
        · next hmem =>
          obtain ⟨group, hget, hversion⟩ := hvictim k (mem_of_mem_take hmem)
          cases hevent : sys.state.appendEventsByApp.get? k with
          | none => rfl
          | some events =>
            obtain ⟨group', hget', hne'⟩ := hevents k events hevent
            rw [hget, some.injEq] at hget'
            rw [← hget'] at hne'
            exact absurd hversion hne'
        · rfl
      · exact (hsuppressed composite).trans (not_hasSuppressed_iff.mp hnone composite)
      · refine (hsaved.window k (le_trans (ht 0 (Nat.zero_le _)) ht')).trans ?_
        rw [State.window, namespaceByteBucket, hbytes]
        rfl
      · exact hsaved.frame.totalBytes.trans htotal
      · exact hsaved.frame.directorySeq.trans hdir
      · exact hsaved.frame.appendSeq.trans happend
      · exact hseq'.trans hjournal
  | next _ _ _ saved _ _ hne hsaved hrest =>
    refine ⟨fun hrolled => ?_, fun hundoes => absurd hundoes.1 hsaved.not_refuses⟩
    -- the first victim is gone for good
    obtain ⟨first, rest, rfl⟩ := exists_cons_of_ne_nil hne
    obtain ⟨group, hget, -⟩ := hvictim first mem_cons_self
    have hgone : after.state.groups.get? first = none := by
      refine hrest.absent ?_
      rw [hsaved.frame.groups, groups_deleteAll, if_pos]
      exact mem_cons_self
    obtain ⟨t, ht⟩ := hread
    have := (hrolled.1 t ht).groups first
    rw [hgone, hget] at this
    cases this

theorem rolledBack_flush (cfg : Config) (sys : Sys) (io : Io) : RolledBack cfg sys (.flush io) ∨
    (call cfg sys (.flush io)).result = .ok .flushed := by
  rw [RolledBack, call]
  split
  · exact .inr rfl
  · next saved h =>
    refine .inl ?_
    cases flushes h with
    | unsnapped =>
      refine ⟨fun t ht => ?_, fun _ => rfl⟩
      exact (unchanged_pruneWindows sys.state io.saveNow).agree
        (fun key t' ht' => window_pruneWindows sys.state key (le_trans ht ht')) rfl

/-- A log that writes a snapshot after every entry. -/
def checkpointLog : Config where
  maxGroups := 10
  maxRowsPerGroup := 10
  maxIdLength := 256
  maxAppIdLength := 128
  maxValueBytes := 1000
  maxTotalBytes := 10000
  byteDayFallback := DEFAULT_MAX_BYTES_PER_DAY
  maxAppendEventsPerOutbox := 10
  checkpointEvery := 1
  registry := ⟨false, [⟨ofText "outbox", false, ⟨none, none, none, none⟩⟩]⟩
  verifyAppend := .custom fun _ _ _ _ => .verified
  persisted := true
  journaled := true
  named := by decide
  capless := by decide
  events_pos := by decide

/-- The log after a create and an append of a row. -/
def postedLog : Sys :=
  let created := (call checkpointLog ⟨.new, ⟨none, []⟩⟩
    (.create (ofText "a") none (replicate 64 0x61) 0 ⟨false, false, 1⟩)).sys
  (call checkpointLog created (.append (ofText "a") (ofText "post")
    (.object [(ofText "id", .string (ofText "k"))]) [] 0 1 ⟨false, false, 1⟩)).sys

end HiveRelay.Outbox
