import Mathlib.Tactic.IntervalCases
import HiveRelay.Inbox.Transitions

/-!
# The indexes and the counters of the inbox engine

The engine keeps several of its facts twice. A spend is found under its tag and under its request
commitment, a frame under its topic and revision and in the map of its topic, whose size the inbox
record counts as well, and a charged read that can be retried has a pin beside its spend. The
counters are sums over all of these. No transition recomputes any of it; each adjusts what it
touches. This file shows that the copies agree after every accepted sequence of frames.

The last relation crosses two maps that no transition changes together: a pin names frames, and it is
`#framePinned`, asked before an append expires, that keeps them stored for as long as the pin
stands.

## Main definitions

* `Indexed`, `Counted` — the copies and the sums

## Main results

* `indexes_and_counters` — they agree after every run
-/

set_option linter.unusedSectionVars false

namespace HiveRelay.Inbox

open List OrderedMap Option
open Cell (ResultBinding leaseEpochs maxU32)

variable {B : Type} [DecidableEq B] [Zero B]

/-! ### Relations between the maps -/

section Relations

variable (spends : OrderedMap B (SpendEntry B)) (commitments : OrderedMap B (CommitmentEntry B))
  (inboxes : OrderedMap B (InboxRecord B)) (frames : OrderedMap (B × ℕ) (StoredFrame B))
  (framesByTopic : OrderedMap B (OrderedMap ℕ (StoredFrame B)))
  (retryPins : OrderedMap B (RetryPin B))

/-- `commitments` is the inverse of `spends`: a commitment leads to the one spend that has it, and
carries the fingerprint of that spend. -/
def CommitmentIndex : Prop :=
  ∀ commitment entry, commitments.get? commitment = some entry ↔
    ∃ spend, spends.get? entry.spendKey = some spend ∧ spend.requestCommitment = commitment ∧
      spend.requestFingerprint = entry.fingerprint

/-- `framesByTopic` has the topics of `inboxes`, and the map of a topic has its part of `frames`. -/
structure TopicIndex : Prop where
  present : ∀ topic record, inboxes.get? topic = some record →
    ∃ ofTopic, framesByTopic.get? topic = some ofTopic ∧ record.frameCount = ofTopic.size ∧
      ∀ revision, ofTopic.get? revision = frames.get? (topic, revision)
  absent : ∀ topic, inboxes.get? topic = none →
    framesByTopic.get? topic = none ∧ ∀ revision, frames.get? (topic, revision) = none

/-- `retryPins` has a pin for every charged read that can be retried, and no other. -/
structure PinIndex : Prop where
  exact : ∀ key, (∃ pin, retryPins.get? key = some pin) ↔
    ∃ spend, spends.get? key = some spend ∧ spend.state.hasPin = true
  operation : ∀ key spend, spends.get? key = some spend → spend.state.hasPin = true →
    spend.state.operation = .read ∨ spend.state.operation = .watch

/-- Every entry of every pin names a stored frame. -/
def PinsStored : Prop :=
  ∀ key pin, retryPins.get? key = some pin → ∀ entry ∈ pin.entries, ∃ stored,
    frames.get? (pin.physicalTopic, entry.appendRevision) = some stored ∧
      stored.frameHash = entry.frameHash ∧ stored.frameClass = entry.frameClass ∧
        stored.frameObjectId = entry.frameObjectId

end Relations

/-- The maps of a state agree with each other. -/
structure Indexed (s : State B) : Prop where
  spends : ∀ key spend, s.spends.get? key = some spend → spend.spendTag = key
  inboxes : ∀ topic record, s.inboxes.get? topic = some record → record.physicalTopic = topic
  frames : ∀ key stored, s.frames.get? key = some stored → (stored.physicalTopic, stored.appendRevision) = key
  commitments : CommitmentIndex s.spends s.commitments
  topics : TopicIndex s.inboxes s.frames s.framesByTopic
  pins : PinIndex s.spends s.retryPins
  stored : PinsStored s.frames s.retryPins

theorem indexed_empty : Indexed (State.empty B) where
  spends := by rintro _ _ ⟨⟩
  inboxes := by rintro _ _ ⟨⟩
  frames := by rintro _ _ ⟨⟩
  commitments := by
    intro commitment entry
    constructor
    · rintro ⟨⟩
    · rintro ⟨_, ⟨⟩, _⟩
  topics := ⟨by rintro _ _ ⟨⟩, fun _ _ => ⟨rfl, fun _ => rfl⟩⟩
  pins := by
    refine ⟨fun key => ⟨?_, ?_⟩, ?_⟩
    · rintro ⟨_, ⟨⟩⟩
    · rintro ⟨_, ⟨⟩, _⟩
    · rintro _ _ ⟨⟩
  stored := by rintro _ _ ⟨⟩

/-! ### Updates of the maps -/

variable {e : SpendEntry B} {record : InboxRecord B} {stored : StoredFrame B}

section Updates

variable {spends : OrderedMap B (SpendEntry B)} {commitments : OrderedMap B (CommitmentEntry B)}
  {inboxes : OrderedMap B (InboxRecord B)} {frames : OrderedMap (B × ℕ) (StoredFrame B)}
  {framesByTopic : OrderedMap B (OrderedMap ℕ (StoredFrame B))}
  {retryPins retryPins' : OrderedMap B (RetryPin B)}

theorem CommitmentIndex.add (h : CommitmentIndex spends commitments) (hspend : spends.get? e.spendTag = none)
    (hcommitment : commitments.get? e.requestCommitment = none) :
    CommitmentIndex (spends.set e.spendTag e) (commitments.set e.requestCommitment
      { spendKey := e.spendTag, fingerprint := e.requestFingerprint }) := by
  rintro commitment ⟨spendKey, fingerprint⟩
  rw [get?_set, get?_set]
  -- The new key is in neither map, so an old pair cannot meet a new one on either side.
  by_cases hc : commitment = e.requestCommitment
  · subst hc
    rw [if_pos rfl]
    constructor
    · intro heq
      obtain ⟨rfl, rfl⟩ := (CommitmentEntry.mk.injEq ..).mp (some.inj heq)
      exact ⟨e, if_pos rfl, rfl, rfl⟩
    · rintro ⟨spend, hget, hsame, hfingerprint⟩
      split at hget
      · next hk =>
        subst hk
        have hnew : e.requestFingerprint = fingerprint := some.inj hget ▸ hfingerprint
        rw [hnew]
      · have hold := (h e.requestCommitment ⟨spendKey, fingerprint⟩).mpr ⟨spend, hget, hsame, hfingerprint⟩
        rw [hcommitment] at hold
        cases hold
  · rw [if_neg hc, h]
    refine exists_congr fun spend => and_congr_left ?_
    rintro ⟨hsame, -⟩
    by_cases hk : spendKey = e.spendTag
    · subst hk
      rw [hspend, if_pos rfl]
      constructor
      · rintro ⟨⟩
      · intro hget
        rw [← some.inj hget] at hsame
        exact absurd hsame.symm hc
    · rw [if_neg hk]

variable {key : B}

theorem CommitmentIndex.replace (h : CommitmentIndex spends commitments)
    {e' : SpendEntry B} (hold : spends.get? key = some e)
    (hcommitment : e'.requestCommitment = e.requestCommitment)
    (hfingerprint : e'.requestFingerprint = e.requestFingerprint) :
    CommitmentIndex (spends.set key e') commitments := by
  intro commitment entry
  rw [h, get?_set]
  by_cases hk : entry.spendKey = key
  · subst hk
    rw [if_pos rfl, hold]
    simp [hcommitment, hfingerprint]
  · rw [if_neg hk]

variable {topic : B}

theorem TopicIndex.touch (h : TopicIndex inboxes frames framesByTopic)
    {record' : InboxRecord B} (hold : inboxes.get? topic = some record)
    (hcount : record'.frameCount = record.frameCount) :
    TopicIndex (inboxes.set topic record') frames framesByTopic where
  present := by
    refine forall_set h.present ?_
    obtain ⟨ofTopic, hget, hsize, hsame⟩ := h.present topic record hold
    exact ⟨ofTopic, hget, hcount.trans hsize, hsame⟩
  absent := by
    intro topic' hnone
    rw [get?_set] at hnone
    split at hnone
    · cases hnone
    · exact h.absent topic' hnone

theorem TopicIndex.create (h : TopicIndex inboxes frames framesByTopic) (hnew : inboxes.get? topic = none)
    (hcount : record.frameCount = 0) :
    TopicIndex (inboxes.set topic record) frames (framesByTopic.set topic .empty) where
  present := by
    intro topic' record' hget
    rw [get?_set] at hget ⊢
    by_cases ht : topic' = topic
    · subst ht
      rw [if_pos rfl] at hget
      rw [if_pos rfl, ← some.inj hget]
      refine ⟨.empty, rfl, hcount, fun revision => ?_⟩
      rw [(h.absent topic' hnew).2 revision]
      rfl
    · rw [if_neg ht] at hget
      rw [if_neg ht]
      exact h.present topic' record' hget
  absent := by
    intro topic' hnone
    rw [get?_set] at hnone ⊢
    by_cases ht : topic' = topic
    · rw [if_pos ht] at hnone
      cases hnone
    · rw [if_neg ht] at hnone
      rw [if_neg ht]
      exact h.absent topic' hnone

theorem TopicIndex.change (h : TopicIndex inboxes frames framesByTopic)
    {frames' : OrderedMap (B × ℕ) (StoredFrame B)} {record' : InboxRecord B}
    {ofTopic : OrderedMap ℕ (StoredFrame B)} (hold : inboxes.get? topic = some record)
    (hcount : record'.frameCount = ofTopic.size)
    (hsame : ∀ revision, ofTopic.get? revision = frames'.get? (topic, revision))
    (hothers : ∀ topic' revision, topic' ≠ topic → frames'.get? (topic', revision) = frames.get? (topic', revision)) :
    TopicIndex (inboxes.set topic record') frames' (framesByTopic.set topic ofTopic) where
  present := by
    intro topic' record₀ hget
    rw [get?_set] at hget ⊢
    by_cases ht : topic' = topic
    · subst ht
      rw [if_pos rfl] at hget
      rw [if_pos rfl, ← some.inj hget]
      exact ⟨ofTopic, rfl, hcount, hsame⟩
    · rw [if_neg ht] at hget
      rw [if_neg ht]
      simp only [hothers topic' _ ht]
      exact h.present topic' record₀ hget
  absent := by
    intro topic' hnone
    rw [get?_set] at hnone ⊢
    by_cases ht : topic' = topic
    · rw [if_pos ht] at hnone
      cases hnone
    · rw [if_neg ht] at hnone
      rw [if_neg ht]
      simp only [hothers topic' _ ht]
      exact h.absent topic' hnone

theorem PinIndex.set (h : PinIndex spends retryPins) (key : B)
    (hothers : ∀ key', key' ≠ key → retryPins'.get? key' = retryPins.get? key')
    (hpin : (∃ pin, retryPins'.get? key = some pin) ↔ e.state.hasPin = true)
    (hoperation : e.state.hasPin = true → e.state.operation = .read ∨ e.state.operation = .watch) :
    PinIndex (spends.set key e) retryPins' where
  exact := by
    intro key'
    rw [get?_set]
    by_cases hk : key' = key
    · subst hk
      rw [if_pos rfl, hpin]
      simp
    · rw [if_neg hk, hothers key' hk]
      exact h.exact key'
  operation := forall_set h.operation hoperation

theorem PinIndex.setSpend (h : PinIndex spends retryPins)
    (hpin : (∃ pin, retryPins.get? key = some pin) ↔ e.state.hasPin = true)
    (hoperation : e.state.hasPin = true → e.state.operation = .read ∨ e.state.operation = .watch) :
    PinIndex (spends.set key e) retryPins :=
  h.set key (fun _ _ => rfl) hpin hoperation

theorem PinIndex.addUnpinned (h : PinIndex spends retryPins)
    (hnew : spends.get? key = none) (hstate : e.state.hasPin = false) :
    PinIndex (spends.set key e) retryPins := by
  refine h.setSpend ?_ (fun hpin => absurd hpin (by simp [hstate]))
  rw [h.exact key, hnew]
  simp [hstate]

theorem PinIndex.replaceUnpinned (h : PinIndex spends retryPins) {e' : SpendEntry B}
    (hold : spends.get? key = some e) (hstate : e.state.hasPin = false)
    (hstate' : e'.state.hasPin = false) : PinIndex (spends.set key e') retryPins := by
  refine h.setSpend ?_ (fun hpin => absurd hpin (by simp [hstate']))
  rw [h.exact key, hold]
  simp [hstate, hstate']

theorem PinsStored.mono (h : PinsStored frames retryPins) {frames' : OrderedMap (B × ℕ) (StoredFrame B)}
    (hkept : ∀ key stored, frames.get? key = some stored → frames'.get? key = some stored) :
    PinsStored frames' retryPins := by
  intro key pin hpin entry hentry
  obtain ⟨stored, hget, hsame⟩ := h key pin hpin entry hentry
  exact ⟨stored, hkept _ _ hget, hsame⟩

theorem PinsStored.delete (h : PinsStored frames retryPins) {key : B × ℕ}
    (hkey : (stored.physicalTopic, stored.appendRevision) = key)
    (hget : frames.get? key = some stored)
    (hunpinned : (retryPins.values.any fun pin => pin.pins stored) = false) :
    PinsStored (frames.delete key) retryPins := by
  intro pinKey pin hpin entry hentry
  obtain ⟨stored', hget', hhash, hsame⟩ := h pinKey pin hpin entry hentry
  refine ⟨stored', ?_, hhash, hsame⟩
  rw [get?_delete_of_ne]
  · exact hget'
  · intro hk
    -- Otherwise the pin names the frame that goes.
    rw [hk, hget] at hget'
    cases hget'
    obtain ⟨htopic, hrevision⟩ := Prod.mk.inj (hk.trans hkey.symm)
    have hpins : pin.pins stored = true := by
      rw [RetryPin.pins, List.any_eq_true]
      exact ⟨entry, hentry, decide_eq_true ⟨hrevision, htopic, hhash.symm⟩⟩
    have hany := any_eq_false.mp hunpinned pin (mem_values_iff.mpr ⟨pinKey, hpin⟩)
    exact hany hpins

end Updates

/-! ### Every frame keeps the relations -/

variable {spend : SpendEntry B} {terms : AppendTerms B} {pin : RetryPin B}

section Preservation

variable {cfg : Config B} {s s' : State B} {frame : Frame B}

theorem Indexed.setInbox (hs : Indexed s) {topic : B}
    (record' : InboxRecord B) (hold : s.inboxes.get? topic = some record)
    (htopic : record'.physicalTopic = record.physicalTopic)
    (hcount : record'.frameCount = record.frameCount) : Indexed (s.setInbox record') := by
  have hkey : record'.physicalTopic = topic := htopic.trans (hs.inboxes topic record hold)
  exact
    { hs with
      inboxes := forall_set hs.inboxes rfl
      topics := hs.topics.touch (hkey ▸ hold) hcount }

theorem Indexed.addSpend (hs : Indexed s) (hspend : s.spends.get? e.spendTag = none)
    (hcommitment : s.commitments.get? e.requestCommitment = none)
    (hstate : e.state.hasPin = false) : Indexed (s.addSpend e) where
  __ := hs
  spends := forall_set hs.spends rfl
  commitments := hs.commitments.add hspend hcommitment
  pins := hs.pins.addUnpinned hspend hstate

theorem Indexed.setSpend (hs : Indexed s) {key : B} (state : SpendState B)
    (hold : s.spends.get? key = some e) (hstate : e.state.hasPin = false)
    (hstate' : state.hasPin = false) : Indexed (s.setSpend { e with state := state }) := by
  have hkey : e.spendTag = key := hs.spends key e hold
  rw [← hkey] at hold
  exact
    { hs with
      spends := forall_set hs.spends rfl
      commitments := hs.commitments.replace hold rfl rfl
      pins := hs.pins.replaceUnpinned hold hstate hstate' }

theorem Indexed.create (hs : Indexed s) {v : CreateCommitted B} (h : CreateGuard cfg s frame v) :
    Indexed (s.create frame v) := by
  have hadd := hs.addSpend (e := v.entry frame) h.fresh.spend h.fresh.commitment rfl
  exact
    { hadd with
      inboxes := forall_set hs.inboxes rfl
      frames := hs.frames
      topics := hs.topics.create h.inbox rfl
      stored := hs.stored }

theorem Indexed.close (hs : Indexed s) {v : CloseCommitted B}
    (h : CloseGuard cfg s frame v record) : Indexed (s.close v record) := by
  have hset := hs.setInbox { record with
    objectState := .tombstone
    tombstoneReason := some .ownerClose
    terminalEpoch := some v.committedEpoch
    stateRevision := v.newStateRevision
    closeRequestCommitment := some v.requestCommitment } h.live.inbox rfl rfl
  exact ⟨hset.spends, hset.inboxes, hset.frames, hset.commitments, hset.topics, hset.pins, hset.stored⟩

theorem Indexed.append (hs : Indexed s) {v : AppendCommitted B}
    (h : AppendGuard cfg s frame v record) : Indexed (s.append frame v record) := by
  have hadd := hs.addSpend (e := v.entry frame record) h.fresh.spend h.fresh.commitment rfl
  have hkey : record.physicalTopic = v.physicalTopic := hs.inboxes _ _ h.live.inbox
  obtain ⟨ofTopic, hget, hsize, hsame⟩ := hs.topics.present _ _ h.live.inbox
  have hofTopic : s.topicFrames v.physicalTopic = ofTopic := by
    rw [State.topicFrames, hget]
    rfl
  have hnew : ofTopic.get? v.appendRevision = none := (hsame _).trans h.frames
  exact
    { hadd with
      inboxes := forall_set hs.inboxes rfl
      frames := forall_set hs.frames rfl
      topics := by
        show TopicIndex (s.inboxes.set record.physicalTopic _) (s.frames.set _ _)
          (s.framesByTopic.set _ ((s.topicFrames v.physicalTopic).set _ _))
        rw [hkey, hofTopic]
        refine hs.topics.change h.live.inbox ?_ ?_ ?_
        · rw [size_set_of_get?_eq_none hnew]
          show record.frameCount + 1 = _
          omega
        · intro revision
          rw [get?_set, get?_set, hsame]
          by_cases hr : revision = v.appendRevision <;> simp [hr]
        · intro topic revision ht
          rw [get?_set_of_ne]
          exact fun heq => ht (Prod.mk.inj heq).1
      stored := by
        refine hs.stored.mono fun key stored hstored => ?_
        rw [show (s.append frame v record).frames = s.frames.set _ _ from rfl,
          get?_set_of_ne]
        · exact hstored
        · rintro rfl
          rw [h.frames] at hstored
          cases hstored }

theorem Indexed.finalizeAck (hs : Indexed s) {v : AppendAckFinalized B} (h : AckGuard cfg s frame v spend terms record) :
    Indexed (s.finalizeAck v spend terms record) := by
  have hunpinned : spend.state.hasPin = false := by
    rw [h.state]
    rfl
  have hset := hs.setSpend (.appended terms v.ackSignature v.resultCommitment) h.spends hunpinned rfl
  exact hset.setInbox _ h.inbox rfl rfl

theorem Indexed.pinRead (hs : Indexed s) {v : ReadPinCommitted B}
    (hoperation : v.operationId = .read ∨ v.operationId = .watch)
    (h : ReadPinGuard cfg s frame v record) : Indexed (s.pinRead frame cfg v) where
  __ := hs
  spends := forall_set hs.spends rfl
  commitments := hs.commitments.add (e := v.entry frame) h.fresh.spend h.fresh.commitment
  pins := by
    refine hs.pins.set v.spend.spendTag (e := v.entry frame) ?_ ?_ fun _ => hoperation
    · exact fun key' hk => get?_set_of_ne hk
    · exact iff_of_true ⟨_, get?_set_self⟩ rfl
  stored := forall_set hs.stored h.stored

theorem Indexed.finalizeRead (hs : Indexed s) {v : ReadPinFinalized B} (h : ReadFinalGuard cfg s frame v spend pin) :
    Indexed (s.finalizeRead v spend pin) := by
  have hkey : spend.spendTag = v.spendTag := hs.spends _ _ h.spends
  have hspend : s.spends.get? spend.spendTag = some spend := by
    rw [hkey]
    exact h.spends
  have hpinned : spend.state.hasPin = true := by
    rw [h.state]
    rfl
  exact
    { hs with
      spends := forall_set hs.spends rfl
      commitments := hs.commitments.replace hspend rfl rfl
      pins := by
        refine hs.pins.set spend.spendTag ?_ ?_ fun _ => ?_
        · exact fun key' hk => get?_set_of_ne (hkey ▸ hk)
        · refine iff_of_true ?_ rfl
          rw [hkey]
          exact ⟨_, get?_set_self⟩
        · exact hs.pins.operation _ spend hspend hpinned
      stored := forall_set hs.stored (hs.stored _ pin h.retryPins) }

theorem SpendEntry.readExpired_unpinned (spend : SpendEntry B) (epoch : ℕ) :
    (spend.readExpired epoch).state.hasPin = false := by
  rw [SpendEntry.readExpired]
  split
  · rfl
  · rfl

theorem SpendEntry.readExpired_keeps (spend : SpendEntry B) (epoch : ℕ) :
    (spend.readExpired epoch).spendTag = spend.spendTag ∧
      (spend.readExpired epoch).requestCommitment = spend.requestCommitment ∧
      (spend.readExpired epoch).requestFingerprint = spend.requestFingerprint ∧
      (spend.readExpired epoch).physicalTopic = spend.physicalTopic := by
  rw [SpendEntry.readExpired]
  split
  · exact ⟨rfl, rfl, rfl, rfl⟩
  · exact ⟨rfl, rfl, rfl, rfl⟩

theorem Indexed.expireRead (hs : Indexed s) {v : ReadPinExpired B} (h : ReadExpiredGuard cfg s frame v spend pin) :
    Indexed (s.expireRead v spend pin) := by
  obtain ⟨htag, hcommitment, hfingerprint, -⟩ := spend.readExpired_keeps v.terminalEpoch
  have hkey : (spend.readExpired v.terminalEpoch).spendTag = v.spendTag :=
    htag.trans (hs.spends _ _ h.spends)
  have hunpinned := spend.readExpired_unpinned v.terminalEpoch
  exact
    { hs with
      spends := forall_set hs.spends rfl
      commitments := hs.commitments.replace (hkey ▸ h.spends) hcommitment hfingerprint
      pins := by
        refine hs.pins.set (spend.readExpired v.terminalEpoch).spendTag ?_ ?_ ?_
        · exact fun key' hk => get?_delete_of_ne (hkey ▸ hk)
        · refine iff_of_false ?_ (by simp [hunpinned])
          rw [hkey]
          rintro ⟨pin', hpin'⟩
          rw [show (s.expireRead v spend pin).retryPins = s.retryPins.delete v.spendTag from rfl,
            get?_delete_self] at hpin'
          cases hpin'
        · exact fun hpin => absurd hpin (by simp [hunpinned])
      stored := forall_delete hs.stored }

theorem Indexed.expireAppend (hs : Indexed s) {v : AppendExpired B}
    (h : AppendExpiredGuard cfg s frame v spend terms stored) :
    Indexed (s.expireAppend v spend terms stored) := by
  have hunpinned : spend.state.hasPin = false := by
    rw [h.state]
    rfl
  have hset := hs.setSpend (.expiredAppend terms v.ackSignature v.resultCommitment v.expiredEpoch) h.spends
    hunpinned rfl
  -- A stored frame has an inbox, and so both maps of the topic are there.
  obtain ⟨record, hrecord⟩ : ∃ record, s.inboxes.get? v.physicalTopic = some record := by
    cases hinbox : s.inboxes.get? v.physicalTopic with
    | some record => exact ⟨record, rfl⟩
    | none =>
      have hnone := (hs.topics.absent _ hinbox).2 v.appendRevision
      rw [h.frames] at hnone
      cases hnone
  obtain ⟨ofTopic, hget, hsize, hsame⟩ := hs.topics.present _ _ hrecord
  have hinboxes : (s.expireAppend v spend terms stored).inboxes =
      s.inboxes.set v.physicalTopic { record with frameCount := record.frameCount - 1 } := by
    simp only [State.expireAppend, State.setSpend, hrecord]
  have hofTopic : (s.expireAppend v spend terms stored).framesByTopic =
      s.framesByTopic.set v.physicalTopic (ofTopic.delete v.appendRevision) := by
    simp only [State.expireAppend, State.setSpend, hget]
  have hstored : ofTopic.get? v.appendRevision = some stored := (hsame _).trans h.frames
  exact
    { hset with
      inboxes := by
        rw [hinboxes]
        exact forall_set hs.inboxes (hs.inboxes _ record hrecord)
      frames := forall_delete hs.frames
      topics := by
        rw [hinboxes, hofTopic]
        refine hs.topics.change hrecord ?_ ?_ ?_
        · have := size_delete_of_get? hstored
          show record.frameCount - 1 = _
          omega
        · intro revision
          show _ = (s.frames.delete _).get? _
          rw [get?_delete, get?_delete, hsame]
          by_cases hr : revision = v.appendRevision <;> simp [hr]
        · intro topic revision ht
          show (s.frames.delete _).get? _ = _
          rw [get?_delete_of_ne]
          exact fun heq => ht (Prod.mk.inj heq).1
      stored := hs.stored.delete (hs.frames _ _ h.frames) h.frames h.unpinned }

theorem indexed_step (hs : Indexed s) (hcanonical : frame.payload.Canonical)
    (h : Step cfg s frame s') : Indexed s' := by
  cases h with
  | create v hp h => exact hs.create h
  | renew v record hp h =>
    have hset := hs.setInbox { record with
      stateRevision := v.newStateRevision
      leaseEpoch := v.newLeaseEpoch
      leaseClass := v.leaseClass } h.live.inbox rfl rfl
    exact hset.addSpend (e := v.entry frame) h.fresh.spend h.fresh.commitment rfl
  | close v record hp h => exact hs.close h
  | append v record hp h => exact hs.append h
  | finalizeAck v spend terms record hp h => exact hs.finalizeAck h
  | pinRead v record hp h =>
    rw [hp] at hcanonical
    exact hs.pinRead hcanonical.1 h
  | finalizeRead v spend pin hp h => exact hs.finalizeRead h
  | expireRead v spend pin hp h => exact hs.expireRead h
  | floor v hp h =>
    exact ⟨hs.spends, hs.inboxes, hs.frames, hs.commitments, hs.topics, hs.pins, hs.stored⟩
  | expireAppend v spend terms stored hp h => exact hs.expireAppend h
  | gc v record hp h => exact hs.setInbox _ h.live.inbox rfl rfl
  | policy v record hp h => exact hs.setInbox _ h.inbox rfl rfl
  | integrity v hp h =>
    exact ⟨hs.spends, hs.inboxes, hs.frames, hs.commitments, hs.topics, hs.pins, hs.stored⟩

end Preservation

/-! ### The counters -/

/-- The counters are sums over the maps. -/
structure Counted (s : State B) : Prop where
  storedFrameBytes : s.accounting.storedFrameBytes =
    s.frames.sumBy fun _ stored => (inboxFrameClass stored.frameClass : ℤ)
  controlBytes : s.accounting.controlBytes = controlRecordBytes * (s.spends.size + s.requestResults.size) +
      s.retryPins.sumBy fun _ pin => pin.controlBytes
  tombstoneBytes : s.accounting.tombstoneBytes = tombstoneRecordBytes * s.inboxes.size
  frameIndexBytes : s.accounting.frameIndexBytes = frameIndexRecordBytes * s.frames.size

theorem counted_empty : Counted (State.empty B) := ⟨rfl, rfl, rfl, rfl⟩

section Counters

variable {cfg : Config B} {s s' : State B} {frame : Frame B}

theorem Counted.addSpend (hs : Counted s) (hspend : s.spends.get? e.spendTag = none) : Counted (s.addSpend e) where
  __ := hs
  controlBytes := by
    have hcontrol := hs.controlBytes
    have hsize := size_set_of_get?_eq_none (v := e) hspend
    simp only [State.addSpend, hsize, hcontrol, controlRecordBytes]
    omega

theorem Counted.setSpend (hs : Counted s) {key : B} (e' : SpendEntry B)
    (hold : s.spends.get? key = some e) (hkey : e'.spendTag = key) : Counted (s.setSpend e') where
  __ := hs
  controlBytes := by
    have hsize : (s.spends.set e'.spendTag e').size = s.spends.size :=
      size_set_of_get? (hkey ▸ hold)
    simp only [State.setSpend, hsize]
    exact hs.controlBytes

theorem Counted.setInbox (hs : Counted s) {topic : B}
    (record' : InboxRecord B) (hold : s.inboxes.get? topic = some record) (hkey : record'.physicalTopic = topic) :
    Counted (s.setInbox record') where
  __ := hs
  tombstoneBytes := by
    have hsize : (s.inboxes.set record'.physicalTopic record').size = s.inboxes.size :=
      size_set_of_get? (hkey ▸ hold)
    simp only [State.setInbox, hsize]
    exact hs.tombstoneBytes

theorem Counted.create (hs : Counted s) {v : CreateCommitted B} (h : CreateGuard cfg s frame v) :
    Counted (s.create frame v) := by
  have hadd := hs.addSpend (e := v.entry frame) h.fresh.spend
  refine ⟨hs.storedFrameBytes, hadd.controlBytes, ?_, hs.frameIndexBytes⟩
  have htombstones := hs.tombstoneBytes
  have hsize : (s.inboxes.set v.terms.physicalTopic (v.record frame)).size = s.inboxes.size + 1 :=
    size_set_of_get?_eq_none h.inbox
  show s.accounting.tombstoneBytes + _ = _ * ((s.inboxes.set v.terms.physicalTopic _).size : ℤ)
  rw [hsize, htombstones, tombstoneRecordBytes]
  omega

theorem Counted.close (hs : Counted s) (hi : Indexed s) {v : CloseCommitted B} (h : CloseGuard cfg s frame v record) :
    Counted (s.close v record) := by
  have hset := hs.setInbox { record with
    objectState := .tombstone
    tombstoneReason := some .ownerClose
    terminalEpoch := some v.committedEpoch
    stateRevision := v.newStateRevision
    closeRequestCommitment := some v.requestCommitment } h.live.inbox
    (hi.inboxes _ record h.live.inbox)
  refine ⟨hs.storedFrameBytes, ?_, hset.tombstoneBytes, hs.frameIndexBytes⟩
  have hcontrol := hs.controlBytes
  have hsize := size_set_of_get?_eq_none (v := v.result) h.result
  simp only [State.close, State.setInbox, hsize, hcontrol, controlRecordBytes]
  omega

theorem Counted.append (hs : Counted s) (hi : Indexed s) {v : AppendCommitted B} (h : AppendGuard cfg s frame v record) :
    Counted (s.append frame v record) := by
  have hadd := hs.addSpend (e := v.entry frame record) h.fresh.spend
  have hset := hs.setInbox { record with
    allocatedAppendRevision := v.appendRevision
    frameCount := record.frameCount + 1 } h.live.inbox (hi.inboxes _ record h.live.inbox)
  refine ⟨?_, hadd.controlBytes, hset.tombstoneBytes, ?_⟩
  · have hstored := hs.storedFrameBytes
    have hsum := sumBy_set_of_get?_eq_none (v := v.stored frame)
      (fun _ stored => (inboxFrameClass stored.frameClass : ℤ)) h.frames
    simp only [State.append, State.setInbox, State.addSpend, hsum, hstored]
    simp only [AppendCommitted.stored]
    omega
  · have hindex := hs.frameIndexBytes
    have hsize := size_set_of_get?_eq_none (v := v.stored frame) h.frames
    simp only [State.append, State.setInbox, State.addSpend, hsize, hindex, frameIndexRecordBytes]
    omega

theorem Counted.pinRead (hs : Counted s) (hi : Indexed s) {v : ReadPinCommitted B}
    (h : ReadPinGuard cfg s frame v record) :
    Counted (s.pinRead frame cfg v) := by
  have hadd := hs.addSpend (e := v.entry frame) h.fresh.spend
  -- There is no pin under a tag that no spend has.
  have hnew : s.retryPins.get? v.spend.spendTag = none := by
    cases hpin : s.retryPins.get? v.spend.spendTag with
    | none => rfl
    | some pin =>
      obtain ⟨spend, hspend, -⟩ := (hi.pins.exact _).mp ⟨pin, hpin⟩
      rw [h.fresh.spend] at hspend
      cases hspend
  refine ⟨hs.storedFrameBytes, ?_, hs.tombstoneBytes, hs.frameIndexBytes⟩
  have hcontrol := hadd.controlBytes
  have hsum := sumBy_set_of_get?_eq_none (v := v.pin cfg) (fun _ pin => pin.controlBytes) hnew
  show (s.addSpend _).accounting.controlBytes + _ = _ + (s.retryPins.set _ _).sumBy _
  rw [hsum, hcontrol]
  simp only [State.pinRead, State.addSpend]
  omega

theorem Counted.finalizeRead (hs : Counted s) (hi : Indexed s) {v : ReadPinFinalized B}
    (h : ReadFinalGuard cfg s frame v spend pin) :
    Counted (s.finalizeRead v spend pin) := by
  have hset := hs.setSpend { spend with
    state := .read spend.state.operation
      { v with
        resultRevision := pin.sourceRevision
        committedEpoch := pin.committedEpoch } 1 } h.spends (hi.spends _ spend h.spends)
  refine ⟨hs.storedFrameBytes, ?_, hs.tombstoneBytes, hs.frameIndexBytes⟩
  have hcontrol := hset.controlBytes
  have hsum : ((s.finalizeRead v spend pin).retryPins.sumBy fun _ pin => pin.controlBytes) =
      s.retryPins.sumBy fun _ pin => pin.controlBytes := by
    refine (sumBy_set_of_get? _ _ h.retryPins).trans ?_
    show _ - pin.controlBytes + pin.controlBytes = _
    omega
  rw [hsum]
  exact hcontrol

theorem Counted.expireRead (hs : Counted s) (hi : Indexed s) {v : ReadPinExpired B}
    (h : ReadExpiredGuard cfg s frame v spend pin) :
    Counted (s.expireRead v spend pin) := by
  have htag : (spend.readExpired v.terminalEpoch).spendTag = v.spendTag :=
    (spend.readExpired_keeps _).1.trans (hi.spends _ _ h.spends)
  have hset := hs.setSpend _ h.spends htag
  refine ⟨hs.storedFrameBytes, ?_, hs.tombstoneBytes, hs.frameIndexBytes⟩
  have hcontrol := hset.controlBytes
  have hsum := sumBy_delete_of_get? (fun _ pin => pin.controlBytes) h.retryPins
  show s.accounting.controlBytes - _ = _ + (s.retryPins.delete _).sumBy _
  simp only [State.setSpend, State.expireRead] at hcontrol ⊢
  omega

theorem Counted.expireAppend (hs : Counted s) (hi : Indexed s) {v : AppendExpired B}
    (h : AppendExpiredGuard cfg s frame v spend terms stored) :
    Counted (s.expireAppend v spend terms stored) := by
  have hset := hs.setSpend { spend with
    state := .expiredAppend terms v.ackSignature v.resultCommitment v.expiredEpoch } h.spends
    (hi.spends _ spend h.spends)
  refine ⟨?_, hset.controlBytes, ?_, ?_⟩
  · have hstored := hs.storedFrameBytes
    have hsum := sumBy_delete_of_get? (fun _ stored => (inboxFrameClass stored.frameClass : ℤ)) h.frames
    simp only [State.expireAppend, State.setSpend, hsum, hstored]
  · have htombstones := hs.tombstoneBytes
    simp only [State.expireAppend, State.setSpend]
    split
    · next inbox hinbox =>
      rw [size_set_of_get? hinbox]
      exact htombstones
    · exact htombstones
  · have hindex := hs.frameIndexBytes
    have hsize := size_delete_of_get? h.frames
    simp only [State.expireAppend, State.setSpend, hindex, frameIndexRecordBytes]
    omega

theorem counted_step (hs : Counted s) (hi : Indexed s) (h : Step cfg s frame s') : Counted s' := by
  cases h with
  | create v hp h => exact hs.create h
  | renew v record hp h =>
    have hset := hs.setInbox { record with
      stateRevision := v.newStateRevision
      leaseEpoch := v.newLeaseEpoch
      leaseClass := v.leaseClass } h.live.inbox (hi.inboxes _ record h.live.inbox)
    exact hset.addSpend (e := v.entry frame) h.fresh.spend
  | close v record hp h => exact hs.close hi h
  | append v record hp h => exact hs.append hi h
  | finalizeAck v spend terms record hp h =>
    have hset := hs.setSpend { spend with
      state := .appended terms v.ackSignature v.resultCommitment } h.spends
      (hi.spends _ spend h.spends)
    exact hset.setInbox _ h.inbox (hi.inboxes _ record h.inbox)
  | pinRead v record hp h => exact hs.pinRead hi h
  | finalizeRead v spend pin hp h => exact hs.finalizeRead hi h
  | expireRead v spend pin hp h => exact hs.expireRead hi h
  | floor v hp h =>
    exact ⟨hs.storedFrameBytes, hs.controlBytes, hs.tombstoneBytes, hs.frameIndexBytes⟩
  | expireAppend v spend terms stored hp h => exact hs.expireAppend hi h
  | gc v record hp h => exact hs.setInbox _ h.live.inbox (hi.inboxes _ record h.live.inbox)
  | policy v record hp h => exact hs.setInbox _ h.inbox (hi.inboxes _ record h.inbox)
  | integrity v hp h =>
    exact ⟨hs.storedFrameBytes, hs.controlBytes, hs.tombstoneBytes, hs.frameIndexBytes⟩

end Counters

/-- The invariant behind the indexes and the counters holds after every accepted sequence of
frames. -/
theorem indexed_of_frames {cfg : Config B} {moves : List (Application B)} {s : State B}
    (h : run (frameStep cfg) (State.empty B) moves = some s) : Indexed s ∧ Counted s :=
  frames_invariant (fun s => Indexed s ∧ Counted s) (fun _ _ _ hs hcanonical hstep =>
      ⟨indexed_step hs.1 hcanonical hstep, counted_step hs.2 hs.1 hstep⟩)
    ⟨indexed_empty, counted_empty⟩ h

/-! ### Replaying a charged read -/

/-- The loop of `#pinnedPage` over the entries of a pin, up to the reading of the bodies. -/
def pinnedFrames (s : State B) (pin : RetryPin B) : Except Failure (List (StoredFrame B)) :=
  pin.entries.mapM fun entry => do
    let lost := failure .internal "Inbox retry pin lost its immutable frame"
    let stored ← demand (s.frames.get? (pin.physicalTopic, entry.appendRevision)) lost
    require (stored.frameHash = entry.frameHash ∧ stored.frameObjectId = entry.frameObjectId) lost
    pure stored

theorem pinnedFrames_eq_ok {s : State B} (h : ∀ entry ∈ pin.entries, ∃ stored,
      s.frames.get? (pin.physicalTopic, entry.appendRevision) = some stored ∧
        stored.frameHash = entry.frameHash ∧ stored.frameObjectId = entry.frameObjectId) :
    ∃ frames, pinnedFrames s pin = .ok frames := by
  rw [pinnedFrames]
  generalize pin.entries = entries at h ⊢
  induction entries with
  | nil => exact ⟨[], rfl⟩
  | cons entry entries ih =>
    obtain ⟨⟨stored, hget, hsame⟩, hrest⟩ := forall_mem_cons.mp h
    obtain ⟨frames, hframes⟩ := ih hrest
    refine ⟨stored :: frames, ?_⟩
    simp only [mapM_cons, guards_eq_ok]
    exact ⟨stored, ⟨stored, hget, hsame, rfl⟩, frames, hframes, rfl⟩

/-! ### The main result -/

theorem sumBy_pinBytes (pins : OrderedMap B (RetryPin B)) : (pins.sumBy fun _ pin => pin.controlBytes) =
      256 * ((pins.values.map fun pin => 1 + pin.entries.length).sum : ℕ) := by
  rw [sumBy, values]
  induction pins.entries with
  | nil => rfl
  | cons e l ih =>
    rw [map_cons, sum_cons, ih, map_cons, map_cons, sum_cons,
      RetryPin.controlBytes, retryRecordBytes]
    omega

theorem sumBy_frameBytes (frames : OrderedMap (B × ℕ) (StoredFrame B)) :
    (frames.sumBy fun _ stored => (inboxFrameClass stored.frameClass : ℤ)) =
      ((frames.values.map fun stored => inboxFrameClass stored.frameClass).sum : ℕ) := by
  rw [sumBy, values]
  induction frames.entries with
  | nil => rfl
  | cons e l ih =>
    rw [map_cons, sum_cons, ih, map_cons, map_cons, sum_cons]
    rfl

/-- **The indexes and the counters of the inbox engine.** After every sequence of frames that
`#applyFrame` accepts from the empty state, the counters are sums over the maps, the two indexes of
the frames and the counts of the records agree, `commitments` is the inverse of `spends`, the pins
are those of the charged reads that can be retried, and `#pinnedPage` finds every frame of a pin. -/
theorem indexes_and_counters {cfg : Config B} {moves : List (Application B)} {s : State B}
    (h : run (frameStep cfg) (State.empty B) moves = some s) :
    s.accounting.storedFrameBytes = ((s.frames.values.map fun stored => inboxFrameClass stored.frameClass).sum : ℕ) ∧
      s.accounting.frameIndexBytes = 256 * s.frames.size ∧
      s.accounting.tombstoneBytes = 512 * s.inboxes.size ∧
      s.accounting.controlBytes = 512 * (s.spends.size + s.requestResults.size) +
        256 * ((s.retryPins.values.map fun pin => 1 + pin.entries.length).sum : ℕ) ∧
      TopicIndex s.inboxes s.frames s.framesByTopic ∧
      (∀ key stored, s.frames.get? key = some stored → (stored.physicalTopic, stored.appendRevision) = key) ∧
      (∀ key spend, s.spends.get? key = some spend → spend.spendTag = key) ∧
      CommitmentIndex s.spends s.commitments ∧
      (∀ key, (∃ pin, s.retryPins.get? key = some pin) ↔ ∃ spend, s.spends.get? key = some spend ∧
          (spend.state.operation = .read ∨ spend.state.operation = .watch) ∧
          spend.state.hasPin = true) ∧
      (∀ key pin, s.retryPins.get? key = some pin → (∀ entry ∈ pin.entries, ∃ stored,
          s.frames.get? (pin.physicalTopic, entry.appendRevision) = some stored ∧
            stored.frameHash = entry.frameHash ∧ stored.frameObjectId = entry.frameObjectId) ∧
        ∃ frames, pinnedFrames s pin = .ok frames) := by
  obtain ⟨hi, hs⟩ := indexed_of_frames h
  refine ⟨hs.storedFrameBytes.trans (sumBy_frameBytes _), hs.frameIndexBytes, hs.tombstoneBytes,
    ?_, hi.topics, hi.frames, hi.spends, hi.commitments, ?_, ?_⟩
  · rw [hs.controlBytes, sumBy_pinBytes]
    rfl
  · intro key
    rw [hi.pins.exact key]
    refine exists_congr fun spend => and_congr_right fun hspend => ?_
    exact ⟨fun hpin => ⟨hi.pins.operation key spend hspend hpin, hpin⟩, And.right⟩
  · intro key pin hpin
    have hstored : ∀ entry ∈ pin.entries, ∃ stored,
        s.frames.get? (pin.physicalTopic, entry.appendRevision) = some stored ∧
          stored.frameHash = entry.frameHash ∧ stored.frameObjectId = entry.frameObjectId := by
      intro entry hentry
      obtain ⟨stored, hget, hhash, -, hobject⟩ := hi.stored key pin hpin entry hentry
      exact ⟨stored, hget, hhash, hobject⟩
    exact ⟨hstored, pinnedFrames_eq_ok hstored⟩

/-! ### A sample log

A configuration over the naturals and the frames of one inbox: the floor is set, the inbox is created,
two frames are appended, the appends are acknowledged, and a charged read pins the first frame. -/

/-- Hashes that are injective where the engine relies on it. -/
def sampleHashes : Hashes ℕ where
  requestFingerprint := fun parts => parts.spendTag + 1
  resultIdentity := fun parts => parts.requestCommitment + 1
  retrySourceCommitment := fun topic revision _ _ => topic + revision + 1
  inboxPhysicalTopic := fun allocationEpoch createPublicKey => allocationEpoch + createPublicKey
  createDigest := fun _ terms => terms.physicalTopic + 1
  topicDigest := fun topic => topic + 1
  cursorDigest := fun cursor => cursor.length
  ackDigest := fun ack => ack.requestCommitment + 2
  ackVerifies := fun ack => ack.signature = ack.requestCommitment
  inboxEntriesCommitment := fun entries => entries.length + 1
  closeFingerprint := fun commitment nonce => commitment + nonce
  virtualBucket := fun topic => topic % 16

/-- A configuration with the default quotas. -/
def sampleConfig : Config ℕ where
  hashes := sampleHashes
  relayPublicKey := 7
  storeId := none
  durabilityContinuityHash := 8
  durabilityProfileHash := none
  quota :=
    { maxStoredFrameBytes := 4294967296
      maxStagingFrameBytes := 67108864
      maxStagingFrameBytesPerProfile := 33554432
      maxControlBytes := 268435456
      maxTombstoneBytes := 268435456
      maxFrameIndexBytes := 268435456
      maxInboxes := 1000000
      maxFrames := 4000000
      maxFramesPerTopic := 100000 }

def sampleBinding : ResultBinding ℕ where
  relayPublicKey := 7
  storeId := 9
  descriptorSequence := 1
  descriptorHash := 10
  durabilityProfileId := 1
  durabilityContinuityHash := 8
  durabilityProfileHash := 11
  restoreEvidenceHeadSequence := 0
  restoreEvidenceHeadHash := 0
  externalCommitWitness := false

/-- The spend fields of a request in an epoch. -/
def sampleSpend (spendTag requestCommitment epoch : ℕ) : SpendTerms ℕ where
  spendTag := spendTag
  requestCommitment := requestCommitment
  requestFingerprint := spendTag + 1
  preparedAdmission :=
    { spendTag := spendTag
      requestCommitment := requestCommitment
      profileId := 1
      schemeId := 1
      parameterHash := 5
      resourceClass := 1
      leaseClass := 1
      costUnits := 1
      walCommitRecord := [0] }
  deadlineUnixMillis := 900000
  committedEpoch := epoch
  resultBinding := sampleBinding

def sampleTopic : ℕ := 41

def sampleFrame (virtualBucket : ℕ) (payload : Payload ℕ) : Application ℕ where
  frame :=
    { transactionId := 51
      virtualBucket := virtualBucket
      payload := payload }

def sampleFloor : Application ℕ := sampleFrame 0 (.floorAdvance ⟨0, 10⟩)

def sampleCreate : Application ℕ :=
  sampleFrame (sampleTopic % 16) (.createCommitted
    { spend := sampleSpend 100 200 10
      terms :=
        { allocationEpoch := 10
          physicalTopic := sampleTopic
          frameClassBits := 7
          appendAuthMode := 0
          appendPublicKey := none
          createPublicKey := 31
          renewPublicKey := 32
          closePublicKey := 33
          retentionClass := 1
          leaseClass := 2 }
      clientNonce := 1
      createCommitment := sampleTopic + 1
      leaseEpoch := 10 + leaseEpochs 2
      resultIdentity := 201 })

/-- Frame number `revision` is appended in an epoch. -/
def sampleAppend (revision epoch : ℕ) : Application ℕ :=
  sampleFrame (sampleTopic % 16) (.appendCommitted
    { spend := sampleSpend (100 + revision) (200 + revision) epoch
      physicalTopic := sampleTopic
      frameClass := 1
      frameHash := 300 + revision
      frameObjectId := 400 + revision
      clientNonce := 1
      appendRevision := revision
      appendLeaseEpoch := 10 + leaseEpochs 2
      expiresAtEpoch := epoch + leaseEpochs 1
      resultIdentity := 201 + revision })

/-- The append of frame number `revision` is acknowledged in an epoch. -/
def sampleAck (revision epoch : ℕ) : Application ℕ :=
  sampleFrame (sampleTopic % 16) (.appendAckFinalized
    { spendTag := 100 + revision
      requestCommitment := 200 + revision
      ackSignature := 200 + revision
      resultCommitment := 202 + revision
      finalizedEpoch := epoch })

/-- A charged read of the first frame. -/
def samplePin : Application ℕ :=
  sampleFrame (sampleTopic % 16) (.readPinCommitted
    { operationId := .read
      spend := sampleSpend 110 210 10
      physicalTopic := sampleTopic
      clientNonce := 1
      snapshotRevision := 2
      entries := [⟨1, 301, 1, 401⟩]
      entriesCommitment := 2
      nextCursor := none
      sourceCommitment := sampleTopic + 3
      retryExpiresMinute := 30 })

def sampleFrames : List (Application ℕ) :=
  [sampleFloor, sampleCreate, sampleAppend 1 10, sampleAppend 2 10, sampleAck 1 10, sampleAck 2 10, samplePin]

theorem sampleFrames_accepted : ∃ s, run (frameStep sampleConfig) (State.empty ℕ) sampleFrames = some s :=
  isSome_iff_exists.mp (by decide)

/-- The control bytes after the sample log. -/
theorem indexes_and_counters_sample : ∃ s, run (frameStep sampleConfig) (State.empty ℕ) sampleFrames = some s ∧
      s.accounting.controlBytes = 512 * (s.spends.size + s.requestResults.size) +
        256 * ((s.retryPins.values.map fun pin => 1 + pin.entries.length).sum : ℕ) := by
  obtain ⟨s, hs⟩ := sampleFrames_accepted
  exact ⟨s, hs, (indexes_and_counters hs).2.2.2.1⟩

end HiveRelay.Inbox
