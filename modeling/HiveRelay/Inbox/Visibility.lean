import Mathlib.Order.Bounds.Basic
import HiveRelay.Inbox.Indexes

/-!
# The visibility watermark of an inbox

An append is provisional until its acknowledgement is finalized, and acknowledgements may be
finalized in any order, so `appendRevision`, up to which readers see the frames of an inbox, follows
behind `allocatedAppendRevision`. It should be the largest revision up to which every append is
settled, that is committed or expired.

`#applyAppendAckFinalized` moves it forward over the frames that are stored. An append that expires
loses its stored frame, and it may expire while it is hidden behind a provisional one. When that one
is finalized at last, the loop stops in front of the hole, and nothing ever moves the watermark again:
the frames behind the hole are acknowledged and stay hidden. The branch for `'expired-append'` in the
loop is there for this case and is never reached.

## Main definitions

* `WatermarkExact` — the largest settled prefix
* `UncoversStored` — a finalization that meets no hole

## Main results

* `watermark_spec` — what the loop does
* `watermark_exact_iff` — when the watermark is exact
-/

set_option linter.unusedSectionVars false

namespace HiveRelay.Inbox

open Option OrderedMap
open Cell (leaseEpochs)

/-! ### Largest prefixes -/

/-- `w` is the largest bound of a prefix on which `P` holds if and only if `P` holds up to `w` and not
at `w + 1`. -/
theorem isGreatest_prefix_iff {P : ℕ → Prop} {n w : ℕ} : IsGreatest {r | r ≤ n ∧ ∀ q, 1 ≤ q → q ≤ r → P q} w ↔
      w ≤ n ∧ (∀ q, 1 ≤ q → q ≤ w → P q) ∧ (w < n → ¬P (w + 1)) := by
  constructor
  · rintro ⟨⟨hle, hbelow⟩, hmax⟩
    refine ⟨hle, hbelow, fun hlt hnext => ?_⟩
    have hsucc : w + 1 ∈ {r | r ≤ n ∧ ∀ q, 1 ≤ q → q ≤ r → P q} := by
      refine ⟨hlt, fun q h₁ hq => ?_⟩
      rcases Nat.lt_or_ge w q with hgt | hge
      · rwa [show q = w + 1 by omega]
      · exact hbelow q h₁ hge
    have := hmax hsucc
    omega
  · rintro ⟨hle, hbelow, hstop⟩
    refine ⟨⟨hle, hbelow⟩, ?_⟩
    rintro r ⟨hr, hrbelow⟩
    by_contra hlt
    exact hstop (by omega) (hrbelow (w + 1) (by omega) (by omega))

variable {B : Type} [DecidableEq B] [Zero B]

/-! ### Revisions and their spends -/

/-- The topic and the revision of an append. -/
def SpendEntry.appendKey? (spend : SpendEntry B) : Option (B × ℕ) :=
  spend.state.appendTerms?.map fun terms => (spend.physicalTopic, terms.resultRevision)

/-- The topic and the revision of an append that is settled. -/
def SpendEntry.settledKey? (spend : SpendEntry B) : Option (B × ℕ) :=
  if spend.state.isSettled then spend.appendKey? else none

section Keys

variable (s : State B)

/-- The topic and the revision of the append that a spend tag stands for. -/
def State.appendKeyOf (key : B) : Option (B × ℕ) := (s.spends.get? key).bind SpendEntry.appendKey?

/-- The terms of the append that a spend tag stands for. -/
def State.termsOf (key : B) : Option (AppendTerms B) :=
  (s.spends.get? key).bind fun spend => spend.state.appendTerms?

/-- The topic and the revision of the append that a spend tag stands for, if it is settled. -/
def State.settledKeyOf (key : B) : Option (B × ℕ) :=
  (s.spends.get? key).bind SpendEntry.settledKey?

/-- The revision that readers see and the last that was allocated. -/
def State.marks (topic : B) : ℕ × ℕ :=
  ((s.inboxes.get? topic).map fun record =>
    (record.appendRevision, record.allocatedAppendRevision)).getD (0, 0)

/-- The revision belongs to an append whose status is `'committed'` or `'expired-append'`. -/
def Settled (topic : B) (revision : ℕ) : Prop :=
  ∃ key spend, s.spends.get? key = some spend ∧ spend.appendKey? = some (topic, revision) ∧
    spend.state.isSettled = true

/-- The revision belongs to an append whose status is `'append-provisional'`. -/
def Provisional (topic : B) (revision : ℕ) : Prop :=
  ∃ key spend terms, s.spends.get? key = some spend ∧
    spend.appendKey? = some (topic, revision) ∧ spend.state = .provisional terms

end Keys

variable {topic : B} {revision : ℕ}

theorem settled_iff {s : State B} :
    Settled s topic revision ↔ ∃ key, s.settledKeyOf key = some (topic, revision) := by
  simp only [Settled, State.settledKeyOf, bind_eq_some_iff, SpendEntry.settledKey?,
    ite_none_right_eq_some]
  refine exists_congr fun key => exists_congr fun spend => and_congr_right fun _ => ?_
  exact and_comm

variable {record : InboxRecord B}

theorem marks_of_get? {s : State B} (h : s.inboxes.get? topic = some record) :
    s.marks topic = (record.appendRevision, record.allocatedAppendRevision) := by
  rw [State.marks, h]
  rfl

/-- The revisions of an inbox are those of its appends: each from 1 to `allocatedAppendRevision`
belongs to one append, and a stored frame names the spend of its append. -/
structure Revisions (s : State B) : Prop where
  owned : ∀ key topic revision, s.appendKeyOf key = some (topic, revision) →
    1 ≤ revision ∧ revision ≤ (s.marks topic).2
  unique : ∀ key key' appendKey, s.appendKeyOf key = some appendKey → s.appendKeyOf key' = some appendKey → key = key'
  total : ∀ topic revision, 1 ≤ revision → revision ≤ (s.marks topic).2 →
    ∃ key, s.appendKeyOf key = some (topic, revision)
  frame : ∀ frameKey stored, s.frames.get? frameKey = some stored → s.appendKeyOf stored.spendTag = some frameKey
  expiry : ∀ frameKey stored, s.frames.get? frameKey = some stored → ∃ terms, s.termsOf stored.spendTag = some terms ∧
      terms.expiresAtEpoch = stored.expiresAtEpoch

theorem revisions_empty : Revisions (State.empty B) where
  owned := by rintro _ _ _ ⟨⟩
  unique := by rintro _ _ _ ⟨⟩
  total := by
    intro topic revision hpos hle
    have hzero : ((State.empty B).marks topic).2 = 0 := rfl
    omega
  frame := by rintro _ _ ⟨⟩
  expiry := by rintro _ _ ⟨⟩

/-- For every inbox, `appendRevision` is the largest revision up to which every append is settled. -/
def PrefixGreatest (s : State B) : Prop :=
  ∀ topic, IsGreatest {r | r ≤ (s.marks topic).2 ∧ ∀ q, 1 ≤ q → q ≤ r → Settled s topic q} (s.marks topic).1

theorem prefixGreatest_empty : PrefixGreatest (State.empty B) := by
  intro topic
  have hzero : ((State.empty B).marks topic).1 = 0 := rfl
  refine ⟨⟨le_rfl, fun q hpos hle => ?_⟩, fun r hr => hr.1⟩
  omega

/-! ### Steps that add and settle no append -/

section Same

variable {cfg : Config B} {s s' : State B} {frame : Frame B}

/-- What an update keeps that adds no append. -/
structure SameRevisions (s s' : State B) : Prop where
  appends : ∀ key, s'.appendKeyOf key = s.appendKeyOf key
  terms : ∀ key, s'.termsOf key = s.termsOf key
  allocated : ∀ topic, (s'.marks topic).2 = (s.marks topic).2
  frames : ∀ frameKey stored, s'.frames.get? frameKey = some stored → s.frames.get? frameKey = some stored

/-- What an update keeps that neither adds nor settles an append. -/
structure SameAppends (s s' : State B) : Prop where
  appends : ∀ key, s'.appendKeyOf key = s.appendKeyOf key
  terms : ∀ key, s'.termsOf key = s.termsOf key
  settled : ∀ key, s'.settledKeyOf key = s.settledKeyOf key
  marks : ∀ topic, s'.marks topic = s.marks topic
  frames : ∀ frameKey stored, s'.frames.get? frameKey = some stored → s.frames.get? frameKey = some stored

theorem SameAppends.revisions (h : SameAppends s s') : SameRevisions s s' :=
  ⟨h.appends, h.terms, fun topic => by rw [h.marks], h.frames⟩

theorem SameAppends.trans {s₁ s₂ s₃ : State B} (h : SameAppends s₁ s₂) (h' : SameAppends s₂ s₃) :
    SameAppends s₁ s₃ where
  appends := fun key => (h'.appends key).trans (h.appends key)
  terms := fun key => (h'.terms key).trans (h.terms key)
  settled := fun key => (h'.settled key).trans (h.settled key)
  marks := fun topic => (h'.marks topic).trans (h.marks topic)
  frames := fun frameKey stored hget => h.frames _ _ (h'.frames frameKey stored hget)

theorem Revisions.of_same (hs : Revisions s) (h : SameRevisions s s') : Revisions s' where
  owned := by
    intro key topic revision hkey
    rw [h.appends] at hkey
    rw [h.allocated]
    exact hs.owned key topic revision hkey
  unique := by
    intro key key' appendKey hkey hkey'
    rw [h.appends] at hkey hkey'
    exact hs.unique key key' appendKey hkey hkey'
  total := by
    intro topic revision hpos hle
    rw [h.allocated] at hle
    simp only [h.appends]
    exact hs.total topic revision hpos hle
  frame := by
    intro frameKey stored hget
    rw [h.appends]
    exact hs.frame frameKey stored (h.frames _ _ hget)
  expiry := by
    intro frameKey stored hget
    rw [h.terms]
    exact hs.expiry frameKey stored (h.frames _ _ hget)

theorem SameAppends.settled_iff (h : SameAppends s s') : Settled s' topic revision ↔ Settled s topic revision := by
  simp only [Inbox.settled_iff, h.settled]

theorem PrefixGreatest.of_same (hs : PrefixGreatest s) (h : SameAppends s s') : PrefixGreatest s' := by
  intro topic
  simp only [h.marks, h.settled_iff]
  exact hs topic

theorem sameAppends_addSpend {e : SpendEntry B} (hspend : s.spends.get? e.spendTag = none)
    (hkey : e.state.appendTerms? = none) : SameAppends s (s.addSpend e) := by
  have hnone : e.appendKey? = none := by rw [SpendEntry.appendKey?, hkey, map_none]
  refine ⟨fun key => ?_, fun key => ?_, fun key => ?_, fun _ => rfl, fun _ _ h => h⟩
  · rw [State.appendKeyOf, State.appendKeyOf, State.addSpend, get?_set]
    by_cases hk : key = e.spendTag
    · rw [if_pos hk, hk, hspend]
      exact hnone
    · rw [if_neg hk]
  · rw [State.termsOf, State.termsOf, State.addSpend, get?_set]
    by_cases hk : key = e.spendTag
    · rw [if_pos hk, hk, hspend]
      exact hkey
    · rw [if_neg hk]
  · rw [State.settledKeyOf, State.settledKeyOf, State.addSpend, get?_set]
    by_cases hk : key = e.spendTag
    · rw [if_pos hk, hk, hspend, bind_some, SpendEntry.settledKey?, hnone, ite_self, bind_none]
    · rw [if_neg hk]

theorem sameAppends_setSpend {e e' : SpendEntry B} (hold : s.spends.get? e'.spendTag = some e)
    (hterms : e'.state.appendTerms? = e.state.appendTerms?)
    (htopic : e'.physicalTopic = e.physicalTopic)
    (hsettled : e'.settledKey? = e.settledKey?) : SameAppends s (s.setSpend e') := by
  have hkey : e'.appendKey? = e.appendKey? := by
    rw [SpendEntry.appendKey?, SpendEntry.appendKey?, hterms, htopic]
  refine ⟨fun key => ?_, fun key => ?_, fun key => ?_, fun _ => rfl, fun _ _ h => h⟩
  · rw [State.appendKeyOf, State.appendKeyOf, State.setSpend, get?_set]
    by_cases hk : key = e'.spendTag
    · rw [if_pos hk, hk, hold]
      exact hkey
    · rw [if_neg hk]
  · rw [State.termsOf, State.termsOf, State.setSpend, get?_set]
    by_cases hk : key = e'.spendTag
    · rw [if_pos hk, hk, hold]
      exact hterms
    · rw [if_neg hk]
  · rw [State.settledKeyOf, State.settledKeyOf, State.setSpend, get?_set]
    by_cases hk : key = e'.spendTag
    · rw [if_pos hk, hk, hold]
      exact hsettled
    · rw [if_neg hk]

/-- A record is set whose revisions are those of the record before, or zero if there was none. -/
theorem marks_setInbox (topic : B) : (s.setInbox record).marks topic = if topic = record.physicalTopic then
      (record.appendRevision, record.allocatedAppendRevision) else s.marks topic := by
  rw [State.marks, State.setInbox, get?_set]
  by_cases ht : topic = record.physicalTopic
  · rw [if_pos ht, if_pos ht]
    rfl
  · rw [if_neg ht, if_neg ht]
    rfl

theorem sameAppends_setInbox (hmarks : (record.appendRevision, record.allocatedAppendRevision) =
      s.marks record.physicalTopic) : SameAppends s (s.setInbox record) := by
  refine ⟨fun _ => rfl, fun _ => rfl, fun _ => rfl, fun topic => ?_, fun _ _ h => h⟩
  rw [marks_setInbox]
  split
  · next ht => rw [ht, hmarks]
  · rfl

theorem sameAppends_replaceInbox (hi : Indexed s) {r : InboxRecord B} (hold : s.inboxes.get? topic = some record)
    (htopic : r.physicalTopic = record.physicalTopic)
    (hmarks : (r.appendRevision, r.allocatedAppendRevision) =
      (record.appendRevision, record.allocatedAppendRevision)) : SameAppends s (s.setInbox r) := by
  refine sameAppends_setInbox ?_
  rw [hmarks, htopic, hi.inboxes topic record hold, marks_of_get? hold]

end Same

/-! ### Appends and finalizations -/

section Appends

variable {cfg : Config B} {s s' : State B} {frame : Frame B}

/-- What an append does: a new provisional revision, the next of its topic. -/
structure AddsAppend (s s' : State B) (tag topic : B) : Prop where
  fresh : s.appendKeyOf tag = none
  appends : ∀ key, s'.appendKeyOf key =
    if key = tag then some (topic, (s.marks topic).2 + 1) else s.appendKeyOf key
  terms : ∀ key, key ≠ tag → s'.termsOf key = s.termsOf key
  settled : ∀ key, s'.settledKeyOf key = s.settledKeyOf key
  marks : ∀ topic', s'.marks topic' =
    if topic' = topic then ((s.marks topic).1, (s.marks topic).2 + 1) else s.marks topic'
  frames : ∀ frameKey stored, s'.frames.get? frameKey = some stored →
    frameKey = (topic, (s.marks topic).2 + 1) ∧ stored.spendTag = tag ∧
        (∃ terms, s'.termsOf tag = some terms ∧ terms.expiresAtEpoch = stored.expiresAtEpoch) ∨
      s.frames.get? frameKey = some stored

theorem addsAppend (hi : Indexed s) {v : AppendCommitted B} (h : AppendGuard cfg s frame v record) :
    AddsAppend s (s.append frame v record) v.spend.spendTag v.physicalTopic := by
  have hmarks := marks_of_get? h.live.inbox
  have htopic : record.physicalTopic = v.physicalTopic := hi.inboxes _ _ h.live.inbox
  have hnext : (s.marks v.physicalTopic).2 + 1 = v.appendRevision := by
    rw [hmarks, h.revision]
  refine ⟨?_, fun key => ?_, fun key hk => ?_, fun key => ?_, fun topic => ?_, fun frameKey stored hget => ?_⟩
  · rw [State.appendKeyOf, h.fresh.spend, bind_none]
  · rw [hnext]
    show ((s.spends.set v.spend.spendTag _).get? key).bind _ = _
    rw [get?_set]
    by_cases hk : key = v.spend.spendTag
    · rw [if_pos hk, if_pos hk]
      rfl
    · rw [if_neg hk, if_neg hk]
      rfl
  · show ((s.spends.set v.spend.spendTag _).get? key).bind _ = _
    rw [get?_set_of_ne hk]
    rfl
  · show ((s.spends.set v.spend.spendTag _).get? key).bind _ = _
    rw [get?_set, State.settledKeyOf]
    by_cases hk : key = v.spend.spendTag
    · rw [if_pos hk, hk, h.fresh.spend]
      rfl
    · rw [if_neg hk]
  · show (s.setInbox _).marks topic = _
    rw [marks_setInbox, htopic, hmarks, h.revision]
  · have hget' : (s.frames.set (v.physicalTopic, v.appendRevision) (v.stored frame)).get? frameKey =
        some stored := hget
    rw [get?_set] at hget'
    split at hget'
    · next hk =>
      left
      rw [hnext, ← some.inj hget']
      refine ⟨hk, rfl, v.terms record, ?_, rfl⟩
      show ((s.spends.set v.spend.spendTag _).get? v.spend.spendTag).bind _ = _
      rw [get?_set_self]
      rfl
    · exact .inr hget'

theorem Revisions.adds {tag : B} (hs : Revisions s) (h : AddsAppend s s' tag topic) : Revisions s' where
  owned := by
    intro key topic' revision hkey
    rw [h.appends] at hkey
    rw [h.marks]
    split at hkey
    · obtain ⟨rfl, rfl⟩ := Prod.mk.inj (some.inj hkey)
      rw [if_pos rfl]
      exact ⟨Nat.succ_pos _, le_rfl⟩
    · have hle := hs.owned key topic' revision hkey
      split
      · next ht => exact ⟨hle.1, (ht ▸ hle.2).trans (Nat.le_succ _)⟩
      · exact hle
  unique := by
    intro key key' appendKey hkey hkey'
    rw [h.appends] at hkey hkey'
    -- An old append of the topic has a revision below the new one.
    have hold : ∀ key, s.appendKeyOf key = some (topic, (s.marks topic).2 + 1) → False := by
      intro key hkey
      have := (hs.owned key topic _ hkey).2
      omega
    split at hkey
    · next hk =>
      split at hkey'
      · next hk' => rw [hk, hk']
      · rw [← some.inj hkey] at hkey'
        exact (hold key' hkey').elim
    · split at hkey'
      · rw [← some.inj hkey'] at hkey
        exact (hold key hkey).elim
      · exact hs.unique key key' appendKey hkey hkey'
  total := by
    intro topic' revision hpos hle
    have hkept : ∀ key appendKey, s.appendKeyOf key = some appendKey → s'.appendKeyOf key = some appendKey := by
      intro key appendKey hkey
      rw [h.appends, if_neg]
      · exact hkey
      · rintro rfl
        rw [h.fresh] at hkey
        cases hkey
    rw [h.marks] at hle
    split at hle
    · next ht =>
      subst ht
      rcases Nat.lt_or_ge (s.marks topic').2 revision with hlt | hge
      · refine ⟨tag, ?_⟩
        rw [h.appends, if_pos rfl, show revision = (s.marks topic').2 + 1 by omega]
      · obtain ⟨key, hkey⟩ := hs.total topic' revision hpos hge
        exact ⟨key, hkept _ _ hkey⟩
    · obtain ⟨key, hkey⟩ := hs.total topic' revision hpos hle
      exact ⟨key, hkept _ _ hkey⟩
  frame := by
    intro frameKey stored hget
    rw [h.appends]
    rcases h.frames frameKey stored hget with ⟨hk, htag, -⟩ | hold
    · rw [if_pos htag, hk]
    · have hkey := hs.frame frameKey stored hold
      rw [if_neg]
      · exact hkey
      · rintro htag
        rw [htag, h.fresh] at hkey
        cases hkey
  expiry := by
    intro frameKey stored hget
    rcases h.frames frameKey stored hget with ⟨-, htag, hterms⟩ | hold
    · rw [htag]
      exact hterms
    · have hkey := hs.frame frameKey stored hold
      rw [h.terms]
      · exact hs.expiry frameKey stored hold
      · rintro htag
        rw [htag, h.fresh] at hkey
        cases hkey

theorem Revisions.settled_le (hs : Revisions s) (h : Settled s topic revision) : revision ≤ (s.marks topic).2 := by
  obtain ⟨key, spend, hspend, hkey, -⟩ := h
  refine (hs.owned key topic revision ?_).2
  rw [State.appendKeyOf, hspend]
  exact hkey

theorem PrefixGreatest.adds {tag : B} (hs : PrefixGreatest s) (hr : Revisions s)
    (h : AddsAppend s s' tag topic) : PrefixGreatest s' := by
  intro topic'
  have hsettled : ∀ t r, Settled s' t r ↔ Settled s t r := by
    intro t r
    rw [settled_iff, settled_iff]
    simp only [h.settled]
  obtain ⟨hle, hbelow, hstop⟩ := isGreatest_prefix_iff.mp (hs topic')
  rw [isGreatest_prefix_iff]
  simp only [hsettled, h.marks]
  by_cases ht : topic' = topic
  · subst ht
    rw [if_pos rfl]
    refine ⟨hle.trans (Nat.le_succ _), hbelow, fun hlt hnext => ?_⟩
    have hbound := hr.settled_le hnext
    exact hstop (by omega) hnext
  · rw [if_neg ht]
    exact ⟨hle, hbelow, hstop⟩

end Appends

/-! ### The loop -/

section Loop

variable (s : State B) (topic : B)

/-- The loop moves over a revision: its frame is stored and the spend of the frame is settled. -/
def Passable (revision : ℕ) : Prop :=
  ∃ next spend, s.frames.get? (topic, revision) = some next ∧
    s.spends.get? next.spendTag = some spend ∧ spend.state.isSettled = true

theorem watermark_of_passable {fuel w : ℕ} (h : Passable s topic (w + 1)) :
    watermark s topic (fuel + 1) w = watermark s topic fuel (w + 1) := by
  obtain ⟨next, spend, hnext, hspend, hsettled⟩ := h
  simp only [watermark, hnext, hspend, hsettled, if_true]

theorem watermark_of_not_passable {fuel w : ℕ} (h : ¬Passable s topic (w + 1)) :
    watermark s topic (fuel + 1) w = w := by
  rw [watermark]
  split
  · rfl
  · next next hnext =>
    split
    · rfl
    · next spend hspend =>
      rw [if_neg]
      exact fun hsettled => h ⟨next, spend, hnext, hspend, hsettled⟩

/-- **What the loop does**: it moves over passable revisions, and it stops at the bound or before one
that is not passable. -/
theorem watermark_spec (fuel w : ℕ) : w ≤ watermark s topic fuel w ∧ watermark s topic fuel w ≤ w + fuel ∧
      (∀ q, w < q → q ≤ watermark s topic fuel w → Passable s topic q) ∧
      (watermark s topic fuel w < w + fuel → ¬Passable s topic (watermark s topic fuel w + 1)) := by
  induction fuel generalizing w with
  | zero =>
    refine ⟨le_rfl, le_rfl, fun q hlt hle => ?_, fun hlt => ?_⟩
    · exact absurd hle (Nat.not_le_of_lt hlt)
    · exact absurd hlt (Nat.lt_irrefl _)
  | succ fuel ih =>
    by_cases hpass : Passable s topic (w + 1)
    · rw [watermark_of_passable s topic hpass]
      obtain ⟨hge, hle, hover, hstop⟩ := ih (w + 1)
      refine ⟨by omega, by omega, fun q hlt hq => ?_, fun hlt => hstop (by omega)⟩
      rcases Nat.lt_or_ge (w + 1) q with hgt | heq
      · exact hover q hgt hq
      · rwa [show q = w + 1 by omega]
    · rw [watermark_of_not_passable s topic hpass]
      refine ⟨le_rfl, by omega, fun q hlt hle => ?_, fun _ => hpass⟩
      exact absurd hle (Nat.not_le_of_lt hlt)

end Loop

section Finalization

variable {cfg : Config B} {s s' : State B} {frame : Frame B}
  {v : AppendAckFinalized B} {spend : SpendEntry B} {terms : AppendTerms B}
  {record : InboxRecord B}

/-- What a finalization does: it settles one revision, and moves one watermark by the loop. -/
structure SettlesAppend (s s' : State B) (topic : B) (revision : ℕ) : Prop where
  revisions : SameRevisions s s'
  frames : s'.frames = s.frames
  settled : ∀ topic' q, Settled s' topic' q ↔ Settled s topic' q ∨ topic' = topic ∧ q = revision
  others : ∀ topic', topic' ≠ topic → s'.marks topic' = s.marks topic'
  loop : (s'.marks topic).1 = watermark s' topic ((s.marks topic).2 - (s.marks topic).1) (s.marks topic).1

theorem watermark_congr (hframes : s.frames = s'.frames) (hspends : s.spends = s'.spends)
    (topic : B) (fuel w : ℕ) : watermark s topic fuel w = watermark s' topic fuel w := by
  induction fuel generalizing w with
  | zero => rfl
  | succ fuel ih => simp only [watermark, hframes, hspends, ih]

theorem settlesAppend (hi : Indexed s) (h : AckGuard cfg s frame v spend terms record) :
    SettlesAppend s (s.finalizeAck v spend terms record) spend.physicalTopic
      terms.resultRevision := by
  have hkey : spend.spendTag = v.spendTag := hi.spends _ _ h.spends
  have hspend : s.spends.get? spend.spendTag = some spend := by
    rw [hkey]
    exact h.spends
  have htopic : record.physicalTopic = spend.physicalTopic := hi.inboxes _ _ h.inbox
  have hmarks := marks_of_get? h.inbox
  have happend : spend.appendKey? = some (spend.physicalTopic, terms.resultRevision) := by
    rw [SpendEntry.appendKey?, h.state]
    rfl
  have hunsettled : spend.settledKey? = none := by
    rw [SpendEntry.settledKey?, h.state]
    rfl
  let spend' : SpendEntry B :=
    { spend with state := .appended terms v.ackSignature v.resultCommitment }
  have hspends : (s.finalizeAck v spend terms record).spends = s.spends.set spend.spendTag spend' := rfl
  have hnew : ∀ topic, (s.finalizeAck v spend terms record).marks topic =
      if topic = spend.physicalTopic then
        (watermark (s.setSpend spend') spend.physicalTopic
          (record.allocatedAppendRevision - record.appendRevision) record.appendRevision,
          record.allocatedAppendRevision)
      else s.marks topic := by
    intro topic
    show ((s.setSpend spend').setInbox _).marks topic = _
    rw [marks_setInbox, htopic]
    rfl
  refine ⟨⟨fun key => ?_, fun key => ?_, fun topic => ?_, fun _ _ hget => hget⟩, rfl,
    fun topic q => ?_, fun topic ht => ?_, ?_⟩
  · rw [State.appendKeyOf, State.appendKeyOf, hspends, get?_set]
    by_cases hk : key = spend.spendTag
    · rw [if_pos hk, hk, hspend]
      exact happend.symm
    · rw [if_neg hk]
  · rw [State.termsOf, State.termsOf, hspends, get?_set]
    by_cases hk : key = spend.spendTag
    · rw [if_pos hk, hk, hspend, bind_some, bind_some, h.state]
      rfl
    · rw [if_neg hk]
  · rw [hnew]
    split
    · next ht => rw [ht, hmarks]
    · rfl
  · rw [settled_iff, settled_iff]
    have hkeyOf : ∀ key, (s.finalizeAck v spend terms record).settledKeyOf key =
        if key = spend.spendTag then some (spend.physicalTopic, terms.resultRevision)
        else s.settledKeyOf key := by
      intro key
      rw [State.settledKeyOf, hspends, get?_set]
      split
      · rfl
      · rfl
    constructor
    · rintro ⟨key, hsettled⟩
      rw [hkeyOf] at hsettled
      split at hsettled
      · obtain ⟨rfl, rfl⟩ := Prod.mk.inj (some.inj hsettled)
        exact .inr ⟨rfl, rfl⟩
      · exact .inl ⟨key, hsettled⟩
    · rintro (⟨key, hsettled⟩ | ⟨rfl, rfl⟩)
      · refine ⟨key, ?_⟩
        rw [hkeyOf, if_neg]
        · exact hsettled
        · rintro rfl
          rw [State.settledKeyOf, hspend, bind_some, hunsettled] at hsettled
          cases hsettled
      · exact ⟨spend.spendTag, by rw [hkeyOf, if_pos rfl]⟩
  · rw [hnew, if_neg ht]
  · rw [hnew, if_pos rfl, hmarks]
    have hframes : (s.setSpend spend').frames = (s.finalizeAck v spend terms record).frames := rfl
    have hspends' : (s.setSpend spend').spends = (s.finalizeAck v spend terms record).spends := rfl
    exact watermark_congr hframes hspends' _ _ _

theorem Revisions.passable_iff (hr : Revisions s) {q : ℕ} : Passable s topic q ↔
      Settled s topic q ∧ ∃ stored, s.frames.get? (topic, q) = some stored := by
  constructor
  · rintro ⟨next, spend, hnext, hspend, hsettled⟩
    have hkey := hr.frame _ _ hnext
    rw [State.appendKeyOf, hspend] at hkey
    exact ⟨⟨next.spendTag, spend, hspend, hkey, hsettled⟩, next, hnext⟩
  · rintro ⟨⟨key, spend, hspend, hkey, hsettled⟩, next, hnext⟩
    have hkey' : s.appendKeyOf key = some (topic, q) := by
      rw [State.appendKeyOf, hspend]
      exact hkey
    obtain rfl := hr.unique _ _ _ hkey' (hr.frame _ _ hnext)
    exact ⟨next, spend, hnext, hspend, hsettled⟩

/-- The revisions of a topic that the settling of one more revision uncovers are stored. -/
def Uncovers (s : State B) (topic : B) (revision : ℕ) : Prop :=
  ∀ q, (s.marks topic).1 < q → q ≤ (s.marks topic).2 →
    (∀ r, (s.marks topic).1 < r → r ≤ q → Settled s topic r ∨ r = revision) →
    ∃ stored, s.frames.get? (topic, q) = some stored

/-- **A finalization keeps the watermark exact if and only if what it uncovers is stored.** -/
theorem PrefixGreatest.settles_iff (hs : PrefixGreatest s)
    (hr : Revisions s) (h : SettlesAppend s s' topic revision) :
    PrefixGreatest s' ↔ Uncovers s topic revision := by
  have hr' := hr.of_same h.revisions
  obtain ⟨hle, hbelow, -⟩ := isGreatest_prefix_iff.mp (hs topic)
  have hspec := watermark_spec s' topic ((s.marks topic).2 - (s.marks topic).1) (s.marks topic).1
  rw [← h.loop] at hspec
  obtain ⟨hge, hbound, hover, hstop⟩ := hspec
  have hallocated := h.revisions.allocated topic
  have hself : ∀ q, Settled s' topic q ↔ Settled s topic q ∨ q = revision := by
    intro q
    rw [h.settled]
    exact or_congr_right (and_iff_right rfl)
  have hbelow' : ∀ q, 1 ≤ q → q ≤ (s'.marks topic).1 → Settled s' topic q := by
    intro q hpos hq
    rcases Nat.lt_or_ge (s.marks topic).1 q with hgt | hge
    · exact (hr'.passable_iff.mp (hover q hgt hq)).1
    · exact (hself q).mpr (.inl (hbelow q hpos hge))
  constructor
  · intro hgreatest q hlt hq hrun
    have hmax := (hgreatest topic).2
    have hmem : q ≤ (s'.marks topic).1 := by
      refine hmax ⟨hallocated ▸ hq, fun r hpos hr => ?_⟩
      rcases Nat.lt_or_ge (s.marks topic).1 r with hgt | hge
      · exact (hself r).mpr (hrun r hgt hr)
      · exact (hself r).mpr (.inl (hbelow r hpos hge))
    rw [← h.frames]
    exact (hr'.passable_iff.mp (hover q hlt hmem)).2
  · intro huncovers topic'
    by_cases ht : topic' = topic
    · subst ht
      rw [isGreatest_prefix_iff]
      refine ⟨by omega, hbelow', fun hlt hnext => ?_⟩
      refine hstop (by omega) (hr'.passable_iff.mpr ⟨hnext, ?_⟩)
      rw [h.frames]
      refine huncovers _ (by omega) (by omega) fun r hgt hrle => ?_
      rw [← hself]
      rcases Nat.lt_or_ge (s'.marks topic').1 r with hgt' | hge'
      · rwa [show r = (s'.marks topic').1 + 1 by omega]
      · exact hbelow' r (by omega) hge'
    · have hother : ∀ q, Settled s' topic' q ↔ Settled s topic' q := by
        intro q
        rw [h.settled]
        exact or_iff_left fun heq => ht heq.1
      simp only [h.others topic' ht, hother]
      exact hs topic'

end Finalization

/-! ### Steps and runs -/

section Steps

variable {cfg : Config B} {s s' : State B} {frame : Frame B}

variable {spend : SpendEntry B}

theorem readExpired_appendTerms? (hi : Indexed s) {v : ReadPinExpired B}
    {pin : RetryPin B} (h : ReadExpiredGuard cfg s frame v spend pin) :
    (spend.readExpired v.terminalEpoch).state.appendTerms? = none ∧ spend.state.appendTerms? = none := by
  obtain ⟨spend₀, hspend, hpin⟩ := (hi.pins.exact v.spendTag).mp ⟨pin, h.retryPins⟩
  obtain rfl := mem_unique hspend h.spends
  rw [SpendEntry.readExpired]
  cases hstate : spend₀.state with
  | reserved operation | read operation result retryState => exact ⟨rfl, rfl⟩
  | _ =>
    rw [hstate] at hpin
    cases hpin

theorem settledKey?_of_appendTerms? (h : spend.state.appendTerms? = none) : spend.settledKey? = none := by
  rw [SpendEntry.settledKey?, SpendEntry.appendKey?, h, map_none, ite_self]

theorem sameAppends_expireAppend (hi : Indexed s) {v : AppendExpired B}
    {terms : AppendTerms B} {stored : StoredFrame B}
    (h : AppendExpiredGuard cfg s frame v spend terms stored) :
    SameAppends s (s.expireAppend v spend terms stored) := by
  have hkey : spend.spendTag = v.spendTag := hi.spends _ _ h.spends
  have hset : SameAppends s (s.setSpend { spend with
      state := .expiredAppend terms v.ackSignature v.resultCommitment v.expiredEpoch }) := by
    refine sameAppends_setSpend (e := spend) ?_ ?_ rfl ?_
    · show s.spends.get? spend.spendTag = some spend
      rw [hkey]
      exact h.spends
    · rw [h.state]
      rfl
    · rw [SpendEntry.settledKey?, SpendEntry.settledKey?, SpendEntry.appendKey?, SpendEntry.appendKey?, h.state]
      rfl
  refine ⟨hset.appends, hset.terms, hset.settled, fun topic => ?_, fun frameKey stored' hget => ?_⟩
  · rw [State.marks, State.marks, State.expireAppend]
    split
    · next record hrecord =>
      have hrecord' : s.inboxes.get? v.physicalTopic = some record := hrecord
      show (Option.map _ ((s.inboxes.set v.physicalTopic _).get? topic)).getD _ = _
      rw [get?_set]
      split
      · next ht => rw [ht, hrecord']; rfl
      · rfl
    · rfl
  · have hget' : (s.frames.delete (v.physicalTopic, v.appendRevision)).get? frameKey = some stored' := hget
    rw [get?_delete] at hget'
    split at hget'
    · cases hget'
    · exact hget'

/-- What a frame does to the appends. -/
theorem append_cases (hi : Indexed s) (h : Step cfg s frame s') :
    (SameAppends s s' ∧ ∀ v, frame.payload ≠ .appendAckFinalized v) ∨
      (∃ tag topic, AddsAppend s s' tag topic ∧ ∀ v, frame.payload ≠ .appendAckFinalized v) ∨
      ∃ v spend terms record, frame.payload = .appendAckFinalized v ∧
        AckGuard cfg s frame v spend terms record ∧ s' = s.finalizeAck v spend terms record := by
  cases h with
  | create v hp h =>
    refine .inl ⟨?_, by simp [hp]⟩
    have hadd := sameAppends_addSpend (e := v.entry frame) h.fresh.spend rfl
    have hset : SameAppends (s.addSpend (v.entry frame))
        ((s.addSpend (v.entry frame)).setInbox (v.record frame)) := by
      refine sameAppends_setInbox ?_
      show _ = s.marks v.terms.physicalTopic
      rw [State.marks, h.inbox]
      rfl
    have hboth := hadd.trans hset
    exact ⟨hboth.appends, hboth.terms, hboth.settled, hboth.marks, hboth.frames⟩
  | renew v record hp h =>
    refine .inl ⟨?_, by simp [hp]⟩
    have hset := sameAppends_replaceInbox hi (r := { record with
      stateRevision := v.newStateRevision
      leaseEpoch := v.newLeaseEpoch
      leaseClass := v.leaseClass }) h.live.inbox rfl rfl
    exact hset.trans (sameAppends_addSpend (e := v.entry frame) h.fresh.spend rfl)
  | close v record hp h =>
    refine .inl ⟨?_, by simp [hp]⟩
    have hset := sameAppends_replaceInbox hi (r := { record with
      objectState := .tombstone
      tombstoneReason := some .ownerClose
      terminalEpoch := some v.committedEpoch
      stateRevision := v.newStateRevision
      closeRequestCommitment := some v.requestCommitment }) h.live.inbox rfl rfl
    exact ⟨hset.appends, hset.terms, hset.settled, hset.marks, hset.frames⟩
  | append v record hp h =>
    exact .inr (.inl ⟨_, _, addsAppend hi h, by simp [hp]⟩)
  | finalizeAck v spend terms record hp h =>
    exact .inr (.inr ⟨v, spend, terms, record, hp, h, rfl⟩)
  | pinRead v record hp h =>
    refine .inl ⟨?_, by simp [hp]⟩
    have hadd := sameAppends_addSpend (e := v.entry frame) h.fresh.spend rfl
    exact ⟨hadd.appends, hadd.terms, hadd.settled, hadd.marks, hadd.frames⟩
  | finalizeRead v spend pin hp h =>
    refine .inl ⟨?_, by simp [hp]⟩
    have hkey : spend.spendTag = v.spendTag := hi.spends _ _ h.spends
    have hnone : spend.state.appendTerms? = none := by
      rw [h.state]
      rfl
    have hset : SameAppends s (s.setSpend { spend with
        state := .read spend.state.operation
          { v with
            resultRevision := pin.sourceRevision
            committedEpoch := pin.committedEpoch } 1 }) := by
      refine sameAppends_setSpend (e := spend) ?_ hnone.symm rfl (settledKey?_of_appendTerms? hnone).symm
      show s.spends.get? spend.spendTag = some spend
      rw [hkey]
      exact h.spends
    exact ⟨hset.appends, hset.terms, hset.settled, hset.marks, hset.frames⟩
  | expireRead v spend pin hp h =>
    refine .inl ⟨?_, by simp [hp]⟩
    obtain ⟨hnone', hnone⟩ := readExpired_appendTerms? hi h
    have hset : SameAppends s (s.setSpend (spend.readExpired v.terminalEpoch)) := by
      refine sameAppends_setSpend (e := spend) ?_ (hnone'.trans hnone.symm) (spend.readExpired_keeps _).2.2.2
        ((settledKey?_of_appendTerms? hnone').trans (settledKey?_of_appendTerms? hnone).symm)
      rw [(spend.readExpired_keeps _).1, hi.spends _ _ h.spends]
      exact h.spends
    exact ⟨hset.appends, hset.terms, hset.settled, hset.marks, hset.frames⟩
  | floor v hp h =>
    exact .inl ⟨⟨fun _ => rfl, fun _ => rfl, fun _ => rfl, fun _ => rfl, fun _ _ h => h⟩,
      by simp [hp]⟩
  | expireAppend v spend terms stored hp h =>
    exact .inl ⟨sameAppends_expireAppend hi h, by simp [hp]⟩
  | gc v record hp h =>
    exact .inl ⟨sameAppends_replaceInbox hi h.live.inbox rfl rfl, by simp [hp]⟩
  | policy v record hp h =>
    exact .inl ⟨sameAppends_replaceInbox hi h.inbox rfl rfl, by simp [hp]⟩
  | integrity v hp h =>
    exact .inl ⟨⟨fun _ => rfl, fun _ => rfl, fun _ => rfl, fun _ => rfl, fun _ _ h => h⟩,
      by simp [hp]⟩

theorem revisions_step (hi : Indexed s) (hr : Revisions s) (h : Step cfg s frame s') : Revisions s' := by
  rcases append_cases hi h with ⟨hsame, -⟩ | ⟨tag, topic, hadds, -⟩ |
    ⟨v, spend, terms, record, -, hguard, rfl⟩
  · exact hr.of_same hsame.revisions
  · exact hr.adds hadds
  · exact hr.of_same (settlesAppend hi hguard).revisions

/-- The finalization of an append, if that is what a frame is, uncovers revisions that are stored. -/
def UncoversStored (s : State B) (frame : Frame B) : Prop :=
  ∀ v spend terms, frame.payload = .appendAckFinalized v →
    s.spends.get? v.spendTag = some spend → spend.state = .provisional terms →
    Uncovers s spend.physicalTopic terms.resultRevision

theorem prefixGreatest_step_iff (hi : Indexed s) (hr : Revisions s) (hs : PrefixGreatest s)
    (h : Step cfg s frame s') : PrefixGreatest s' ↔ UncoversStored s frame := by
  rcases append_cases hi h with ⟨hsame, hother⟩ | ⟨tag, topic, hadds, hother⟩ |
    ⟨v, spend, terms, record, hp, hguard, rfl⟩
  · exact iff_of_true (hs.of_same hsame) fun v _ _ hp => absurd hp (hother v)
  · exact iff_of_true (hs.adds hr hadds) fun v _ _ hp => absurd hp (hother v)
  · rw [hs.settles_iff hr (settlesAppend hi hguard)]
    constructor
    · intro huncovers v' spend' terms' hp' hspend' hstate'
      obtain rfl : v = v' := Payload.appendAckFinalized.inj (hp.symm.trans hp')
      obtain rfl : spend = spend' := mem_unique hguard.spends hspend'
      obtain rfl : terms = terms' := SpendState.provisional.inj (hguard.state.symm.trans hstate')
      exact huncovers
    · intro huncovers
      exact huncovers v spend terms hp hguard.spends hguard.state

end Steps

/-- **The watermark is exact**: for every inbox `appendRevision` is the largest allocated revision up
to which every append is committed or expired, and a settled revision is hidden only behind a
provisional one. -/
def WatermarkExact (s : State B) : Prop :=
  ∀ topic record, s.inboxes.get? topic = some record →
    IsGreatest {r | r ≤ record.allocatedAppendRevision ∧ ∀ q, 1 ≤ q → q ≤ r → Settled s topic q}
      record.appendRevision ∧
    ∀ r, Settled s topic r → record.appendRevision < r → ∃ q, q < r ∧ Provisional s topic q

section Runs

variable {cfg : Config B} {s s' : State B}

theorem Revisions.provisional (hr : Revisions s) {q : ℕ} (hpos : 1 ≤ q)
    (hle : q ≤ (s.marks topic).2) (h : ¬Settled s topic q) : Provisional s topic q := by
  obtain ⟨key, hkey⟩ := hr.total topic q hpos hle
  obtain ⟨spend, hspend, hkey⟩ := bind_eq_some_iff.mp hkey
  have hunsettled : spend.state.isSettled = false := by
    cases hsettled : spend.state.isSettled with
    | false => rfl
    | true => exact absurd ⟨key, spend, hspend, hkey, hsettled⟩ h
  have hterms : spend.state.appendTerms? ≠ none := by
    intro hnone
    rw [SpendEntry.appendKey?, hnone] at hkey
    cases hkey
  cases hstate : spend.state with
  | provisional terms => exact ⟨key, spend, terms, hspend, hkey, hstate⟩
  | leased renewal result | reserved operation | terminal operation epoch | read operation result retry =>
    exact absurd (congrArg SpendState.appendTerms? hstate) hterms
  | appended terms signature commitment | expiredAppend terms signature commitment epoch =>
    rw [hstate] at hunsettled
    cases hunsettled

theorem watermarkExact_iff (hr : Revisions s) : WatermarkExact s ↔ PrefixGreatest s := by
  constructor
  · intro h topic
    cases hrecord : s.inboxes.get? topic with
    | some record =>
      rw [marks_of_get? hrecord]
      exact (h topic record hrecord).1
    | none =>
      have hzero : s.marks topic = (0, 0) := by
        rw [State.marks, hrecord]
        rfl
      rw [hzero]
      refine ⟨⟨le_rfl, fun q hpos hle => ?_⟩, fun r hr => hr.1⟩
      exact absurd (hpos.trans hle) (Nat.not_succ_le_zero 0)
  · intro h topic record hrecord
    have hmarks := marks_of_get? hrecord
    have hgreatest := h topic
    rw [hmarks] at hgreatest
    refine ⟨hgreatest, fun r hsettled hlt => ?_⟩
    -- The revision after the watermark is not settled, and so it is provisional.
    obtain ⟨-, -, hstop⟩ := isGreatest_prefix_iff.mp hgreatest
    have hle := hr.settled_le hsettled
    rw [hmarks] at hle
    have hnext := hstop (hlt.trans_le hle)
    have hne : record.appendRevision + 1 ≠ r := by
      rintro rfl
      exact hnext hsettled
    have hlt' : record.appendRevision + 1 < r := by omega
    refine ⟨record.appendRevision + 1, hlt', hr.provisional (Nat.succ_pos _) ?_ hnext⟩
    rw [hmarks]
    exact hlt'.le.trans hle

/-- The watermark is exact in every state of a run that starts exact if and only if every frame of it
uncovers stored revisions. -/
theorem prefixGreatest_run_iff {moves : List (Application B)} (hi : Indexed s) (hr : Revisions s)
    (hs : PrefixGreatest s) (hrun : run (frameStep cfg) s moves = some s') :
    (∀ before after s₁, moves = before ++ after → run (frameStep cfg) s before = some s₁ → WatermarkExact s₁) ↔
      RunMeets (frameStep cfg) (fun s m => UncoversStored s m.frame) s moves := by
  induction moves generalizing s with
  | nil =>
    refine iff_of_true ?_ trivial
    intro before after s₁ hmoves hbefore
    obtain ⟨rfl, -⟩ := List.append_eq_nil_iff.mp hmoves.symm
    cases hbefore
    exact (watermarkExact_iff hr).mpr hs
  | cons m moves ih =>
    obtain ⟨s₂, hm, hrest⟩ := run_cons.mp hrun
    obtain ⟨hcanonical, hstep⟩ := step_of_frameStep hm
    have hi₂ := indexed_step hi hcanonical hstep
    have hr₂ := revisions_step hi hr hstep
    have hiff := prefixGreatest_step_iff hi hr hs hstep
    constructor
    · intro hexact
      have hs₂ : PrefixGreatest s₂ := by
        refine (watermarkExact_iff hr₂).mp (hexact [m] moves s₂ rfl ?_)
        exact run_cons.mpr ⟨s₂, hm, rfl⟩
      refine ⟨hiff.mp hs₂, fun s₃ hm' => ?_⟩
      obtain rfl := mem_unique hm hm'
      refine (ih hi₂ hr₂ hs₂ hrest).mp fun before after s₁ hmoves hbefore => ?_
      refine hexact (m :: before) after s₁ (by rw [hmoves, List.cons_append]) ?_
      exact run_cons.mpr ⟨s₂, hm, hbefore⟩
    · rintro ⟨huncovers, htail⟩ before after s₁ hmoves hbefore
      have hs₂ := hiff.mpr huncovers
      cases before with
      | nil =>
        cases hbefore
        exact (watermarkExact_iff hr).mpr hs
      | cons m' before =>
        obtain ⟨rfl, hsplit⟩ := List.cons.inj hmoves
        obtain ⟨s₃, hm', hbefore'⟩ := run_cons.mp hbefore
        obtain rfl := mem_unique hm hm'
        exact (ih hi₂ hr₂ hs₂ hrest).mpr (htail s₂ hm) before after s₁ hsplit hbefore'

/-- **When the watermark is exact.** Along a sequence of frames that `#applyFrame` accepts from the
empty state, `appendRevision` is the largest settled prefix in every state if and only if every
finalization uncovers only revisions whose frame is still stored. -/
theorem watermark_exact_iff {moves : List (Application B)}
    (hrun : run (frameStep cfg) (State.empty B) moves = some s) :
    (∀ before after s₁, moves = before ++ after →
      run (frameStep cfg) (State.empty B) before = some s₁ → WatermarkExact s₁) ↔
      RunMeets (frameStep cfg) (fun s m => UncoversStored s m.frame) (State.empty B) moves :=
  prefixGreatest_run_iff indexed_empty revisions_empty prefixGreatest_empty hrun

end Runs

/-! ### A frame that stays hidden -/

/-- The sample inbox with one append that is not acknowledged yet. -/
def provisionalFrames : List (Application ℕ) := [sampleFloor, sampleCreate, sampleAppend 1 10]

/-- The watermark is exact when that append is acknowledged. -/
theorem watermark_exact_prompt : ∃ s,
    run (frameStep sampleConfig) (State.empty ℕ) (provisionalFrames ++ [sampleAck 1 10]) = some s ∧
      WatermarkExact s := by
  obtain ⟨s, hs⟩ : ∃ s, run (frameStep sampleConfig) (State.empty ℕ)
      (provisionalFrames ++ [sampleAck 1 10]) = some s :=
    isSome_iff_exists.mp (by decide)
  refine ⟨s, hs, (watermark_exact_iff hs).mpr ?_ _ [] s (List.append_nil _).symm hs⟩
  refine runMeets_append ?_ fun s₁ hs₁ => ⟨?_, fun _ _ => trivial⟩
  · refine ⟨?_, fun _ _ => ⟨?_, fun _ _ => ⟨?_, fun _ _ => trivial⟩⟩⟩ <;> rintro _ _ _ ⟨⟩
  · -- Only revision 1 is allocated, and its frame is stored.
    have hread : ((run (frameStep sampleConfig) (State.empty ℕ) provisionalFrames).map fun s =>
        ((s.spends.get? 101).map SpendEntry.physicalTopic, s.marks sampleTopic,
          (s.frames.get? (sampleTopic, 1)).isSome)) = some (some sampleTopic, (0, 1), true) := by
      decide
    rw [hs₁] at hread
    obtain ⟨htopic, hmarks, hstored⟩ := by simpa only [map_some, some.injEq, Prod.mk.injEq] using hread
    rintro v spend terms ⟨⟩ hspend - q hlt hle -
    have hsample : spend.physicalTopic = sampleTopic := by
      have hget : s₁.spends.get? 101 = some spend := hspend
      rw [hget] at htopic
      exact some.inj htopic
    rw [hsample, hmarks] at hlt hle
    obtain rfl : q = 1 := by omega
    rw [hsample]
    exact isSome_iff_exists.mp hstored

/-- Append number 2 of the sample inbox expires. -/
def sampleExpiry : Application ℕ :=
  sampleFrame (sampleTopic % 16) (.appendExpired
    { transactionId := 51
      spendTag := 102
      requestCommitment := 202
      requestFingerprint := 103
      physicalTopic := sampleTopic
      profileId := 1
      appendRevision := 2
      frameHash := 302
      frameClass := 1
      declaredBytes := 4096
      deadlineUnixMillis := 900000
      remainingAttempts := 1
      reservedEpoch := 10
      resultIdentity := 203
      frameObjectId := 402
      storedAtEpoch := 10
      retentionClassAtAppend := 1
      appendLeaseEpoch := 10 + leaseEpochs 2
      expiresAtEpoch := 10 + leaseEpochs 1
      expiredEpoch := 14
      clientNonce := 1
      resultBinding := sampleBinding
      ackSignature := 202
      resultCommitment := 204 })

/-- Two appends, of which the second is acknowledged first and expires before the first is
acknowledged; a third append is made and acknowledged afterwards. -/
def stuckFrames : List (Application ℕ) :=
  [sampleFloor, sampleCreate, sampleAppend 1 10, sampleAppend 2 10, sampleAck 2 10,
    sampleFrame 0 (.floorAdvance ⟨10, 14⟩), sampleExpiry, sampleAck 1 14, sampleAppend 3 14,
    sampleAck 3 14]

/-- **The watermark is stuck.** All three appends are settled and readers see the first only, with no
provisional append left that could ever move the watermark. -/
theorem watermark_stuck : ∃ s record, run (frameStep sampleConfig) (State.empty ℕ) stuckFrames = some s ∧
      s.inboxes.get? sampleTopic = some record ∧ record.appendRevision = 1 ∧
      record.allocatedAppendRevision = 3 ∧ (∀ q, 1 ≤ q → q ≤ 3 → Settled s sampleTopic q) ∧
      ¬WatermarkExact s := by
  obtain ⟨s, hs⟩ : ∃ s, run (frameStep sampleConfig) (State.empty ℕ) stuckFrames = some s :=
    isSome_iff_exists.mp (by decide)
  have hread : ((run (frameStep sampleConfig) (State.empty ℕ) stuckFrames).map fun s =>
      ((s.inboxes.get? sampleTopic).map fun r => (r.appendRevision, r.allocatedAppendRevision),
        s.settledKeyOf 101, s.settledKeyOf 102, s.settledKeyOf 103)) =
      some (some (1, 3), some (sampleTopic, 1), some (sampleTopic, 2), some (sampleTopic, 3)) := by
    decide
  rw [hs] at hread
  obtain ⟨hinbox, h₁, h₂, h₃⟩ := by simpa only [map_some, some.injEq, Prod.mk.injEq] using hread
  obtain ⟨record, hrecord, hmarks⟩ := map_eq_some_iff.mp hinbox
  obtain ⟨hvisible, hallocated⟩ := Prod.mk.inj hmarks
  have hsettled : ∀ q, 1 ≤ q → q ≤ 3 → Settled s sampleTopic q := by
    intro q hpos hle
    rw [settled_iff]
    interval_cases q
    · exact ⟨101, h₁⟩
    · exact ⟨102, h₂⟩
    · exact ⟨103, h₃⟩
  refine ⟨s, record, hs, hrecord, hvisible, hallocated, hsettled, fun hexact => ?_⟩
  have hmax := (hexact sampleTopic record hrecord).1.2
  have := hmax ⟨hallocated ▸ le_rfl, hsettled⟩
  omega

end HiveRelay.Inbox
