import HiveRelay.Inbox.Operations

/-!
# The inbox engine and its quotas

Replaying a log whose counters exceed a quota makes the store read-only. `createInbox` and
`appendFrame` ask `checkCapacity` before they write; `renewInbox`, `closeInbox` and `pinChargedPage`
charge control bytes and ask nothing. A run of operations therefore stays within the quotas as long
as every renewal, every close and every charged page that is written finds room for its control
bytes, and then no restart finds more than the quotas allow.

## Main definitions

* `FindsControlRoom` — a move that finds room for what is not checked
* `Running` — the engine, solvent now and after a restart

## Main results

* `running_step` — one move
* `counters_within_quota` — a run of such moves
-/

set_option linter.unusedSectionVars false

namespace HiveRelay.Inbox

open Option OrderedMap List Act

variable {B : Type} [DecidableEq B] [Zero B]

/-! ### What a frame charges -/

/-- The counters and the maps of a state are within the quotas. -/
structure WithinQuota (q : Quota) (s : State B) : Prop where
  storedFrameBytes : s.accounting.storedFrameBytes ≤ q.maxStoredFrameBytes
  controlBytes : s.accounting.controlBytes ≤ q.maxControlBytes
  tombstoneBytes : s.accounting.tombstoneBytes ≤ q.maxTombstoneBytes
  frameIndexBytes : s.accounting.frameIndexBytes ≤ q.maxFrameIndexBytes
  inboxes : s.inboxes.size ≤ q.maxInboxes
  frames : s.frames.size ≤ q.maxFrames

theorem withinQuota_empty (q : Quota) : WithinQuota q (State.empty B) :=
  ⟨Int.natCast_nonneg _, Int.natCast_nonneg _, Int.natCast_nonneg _, Int.natCast_nonneg _,
    Nat.zero_le _, Nat.zero_le _⟩

/-- There is room for an append of a class. -/
structure AppendRoom (q : Quota) (s : State B) (frameClass : ℕ) : Prop where
  frames : s.frames.size < q.maxFrames
  storedFrameBytes : s.accounting.storedFrameBytes + inboxFrameClass frameClass ≤ q.maxStoredFrameBytes
  frameIndexBytes : s.accounting.frameIndexBytes + frameIndexRecordBytes ≤ q.maxFrameIndexBytes
  controlBytes : s.accounting.controlBytes + controlRecordBytes ≤ q.maxControlBytes

/-- There is room for what a frame charges. -/
def FrameRoom (q : Quota) (s : State B) : Payload B → Prop
  | .createCommitted _ => s.inboxes.size < q.maxInboxes ∧
      s.accounting.tombstoneBytes + tombstoneRecordBytes ≤ q.maxTombstoneBytes ∧
      s.accounting.controlBytes + controlRecordBytes ≤ q.maxControlBytes
  | .renewCommitted _ | .closeCommitted _ =>
      s.accounting.controlBytes + controlRecordBytes ≤ q.maxControlBytes
  | .appendCommitted v => AppendRoom q s v.frameClass
  | .readPinCommitted v =>
      s.accounting.controlBytes + controlRecordBytes + (1 + v.entries.length) * retryRecordBytes ≤ q.maxControlBytes
  | _ => True

section Charges

variable {cfg : Config B} {q : Quota} {s s' : State B} {frame : Frame B}

theorem size_replaceInbox (hi : Indexed s) {topic : B} {record : InboxRecord B}
    (hget : s.inboxes.get? topic = some record) (r : InboxRecord B) :
    (s.inboxes.set record.physicalTopic r).size = s.inboxes.size := by
  rw [hi.inboxes _ _ hget]
  exact size_set_of_get? hget

theorem RetryPin.controlBytes_nonneg (pin : RetryPin B) : 0 ≤ pin.controlBytes := by
  rw [RetryPin.controlBytes]
  positivity

theorem size_expireAppend {v : AppendExpired B} {spend : SpendEntry B}
    {terms : AppendTerms B} {stored : StoredFrame B} :
    (s.expireAppend v spend terms stored).inboxes.size = s.inboxes.size := by
  simp only [State.expireAppend]
  split
  · next inbox hget => exact size_set_of_get? hget
  · rfl

/-- **A frame that finds room for its charges keeps the quotas.** -/
theorem WithinQuota.step (hs : WithinQuota q s) (hi : Indexed s)
    (hroom : FrameRoom q s frame.payload) (h : Step cfg s frame s') : WithinQuota q s' := by
  cases h with
  | create v hp h =>
    rw [hp] at hroom
    obtain ⟨hinboxes, htombstone, hcontrol⟩ := hroom
    refine ⟨hs.storedFrameBytes, hcontrol, htombstone, hs.frameIndexBytes, ?_, hs.frames⟩
    show (s.inboxes.set v.terms.physicalTopic _).size ≤ _
    rw [size_set_of_get?_eq_none h.inbox]
    exact hinboxes
  | renew v record hp h | close v record hp h =>
    rw [hp] at hroom
    refine ⟨hs.storedFrameBytes, hroom, hs.tombstoneBytes, hs.frameIndexBytes, ?_, hs.frames⟩
    exact (size_replaceInbox hi h.live.inbox _).trans_le hs.inboxes
  | append v record hp h =>
    rw [hp] at hroom
    refine ⟨hroom.storedFrameBytes, hroom.controlBytes, hs.tombstoneBytes, hroom.frameIndexBytes,
      (size_replaceInbox hi h.live.inbox _).trans_le hs.inboxes, ?_⟩
    show (s.frames.set (v.physicalTopic, v.appendRevision) _).size ≤ _
    rw [size_set_of_get?_eq_none h.frames]
    exact hroom.frames
  | finalizeAck v spend terms record hp h =>
    exact ⟨hs.storedFrameBytes, hs.controlBytes, hs.tombstoneBytes, hs.frameIndexBytes,
      (size_replaceInbox hi h.inbox _).trans_le hs.inboxes, hs.frames⟩
  | pinRead v record hp h =>
    rw [hp] at hroom
    exact ⟨hs.storedFrameBytes, hroom, hs.tombstoneBytes, hs.frameIndexBytes, hs.inboxes, hs.frames⟩
  | finalizeRead v spend pin hp h =>
    exact ⟨hs.storedFrameBytes, hs.controlBytes, hs.tombstoneBytes, hs.frameIndexBytes, hs.inboxes, hs.frames⟩
  | expireRead v spend pin hp h =>
    refine ⟨hs.storedFrameBytes, ?_, hs.tombstoneBytes, hs.frameIndexBytes, hs.inboxes, hs.frames⟩
    exact (Int.sub_le_self _ pin.controlBytes_nonneg).trans hs.controlBytes
  | floor v hp h =>
    exact ⟨hs.storedFrameBytes, hs.controlBytes, hs.tombstoneBytes, hs.frameIndexBytes, hs.inboxes, hs.frames⟩
  | expireAppend v spend terms stored hp h =>
    refine ⟨?_, hs.controlBytes, hs.tombstoneBytes, ?_, size_expireAppend.trans_le hs.inboxes, ?_⟩
    · exact (Int.sub_le_self _ (Int.natCast_nonneg _)).trans hs.storedFrameBytes
    · exact (Int.sub_le_self _ (Int.natCast_nonneg _)).trans hs.frameIndexBytes
    · have hsize : (s.frames.delete (v.physicalTopic, v.appendRevision)).size + 1 = s.frames.size :=
        size_delete_of_get? h.frames
      show (s.frames.delete _).size ≤ _
      have := hs.frames
      omega
  | gc v record hp h =>
    exact ⟨hs.storedFrameBytes, hs.controlBytes, hs.tombstoneBytes, hs.frameIndexBytes,
      (size_replaceInbox hi h.live.inbox _).trans_le hs.inboxes, hs.frames⟩
  | policy v record hp h =>
    exact ⟨hs.storedFrameBytes, hs.controlBytes, hs.tombstoneBytes, hs.frameIndexBytes,
      (size_replaceInbox hi h.inbox _).trans_le hs.inboxes, hs.frames⟩
  | integrity v hp h =>
    exact ⟨hs.storedFrameBytes, hs.controlBytes, hs.tombstoneBytes, hs.frameIndexBytes, hs.inboxes, hs.frames⟩

end Charges

/-! ### The reason for being read-only -/

section Reason

variable {cfg : Config B} {s s' : State B} {frame : Frame B}

/-- The state with another `readOnlyReason`. -/
def State.withReason (s : State B) (reason : Option ReadOnlyReason) : State B :=
  { s with readOnlyReason := reason }

theorem FreshSpend.withReason {t : SpendTerms B} {operation : Operation} {topic : B}
    {terms : Option (ℕ × B)} {leaseClass : ℕ}
    (h : FreshSpend cfg s t operation topic terms leaseClass) (reason : Option ReadOnlyReason) :
    FreshSpend cfg (s.withReason reason) t operation topic terms leaseClass :=
  ⟨h.admission, h.spendTag_eq, h.requestCommitment_eq, h.spend, h.commitment, h.fingerprint⟩

theorem finalizeAck_withReason (v : AppendAckFinalized B) (spend : SpendEntry B)
    (terms : AppendTerms B) (record : InboxRecord B) (reason : Option ReadOnlyReason) :
    (s.withReason reason).finalizeAck v spend terms record =
      (s.finalizeAck v spend terms record).withReason reason := by
  have hmark : ∀ fuel w, watermark ((s.withReason reason).setSpend { spend with
      state := .appended terms v.ackSignature v.resultCommitment }) record.physicalTopic fuel w =
        watermark (s.setSpend { spend with
          state := .appended terms v.ackSignature v.resultCommitment }) record.physicalTopic fuel w := by
    intro fuel w
    apply watermark_congr <;> rfl
  show State.setInbox _ _ = State.withReason (State.setInbox _ _) reason
  rw [hmark]
  rfl

theorem step_withReason (h : Step cfg s frame s') (reason : Option ReadOnlyReason) :
    ∃ reason', Step cfg (s.withReason reason) frame (s'.withReason reason') := by
  cases h with
  | create v hp h =>
    exact ⟨reason, .create v hp ⟨h.bucket, h.fresh.withReason reason, h.inbox, h.topic,
      h.commitment, h.keys, h.lease, h.identity⟩⟩
  | renew v record hp h =>
    exact ⟨reason, .renew v record hp ⟨h.bucket, h.fresh.withReason reason,
      ⟨h.live.inbox, h.live.present⟩, h.oldRevision, h.oldLease, h.newRevision, h.extends_lease,
      h.identity⟩⟩
  | close v record hp h =>
    exact ⟨reason, .close v record hp ⟨h.bucket, h.transaction, ⟨h.live.inbox, h.live.present⟩,
      h.oldRevision, h.oldLease, h.newRevision, h.identity, h.result, h.commitment⟩⟩
  | append v record hp h =>
    exact ⟨reason, .append v record hp ⟨h.bucket, h.fresh.withReason reason,
      ⟨h.live.inbox, h.live.present⟩, h.frameClass, h.revision, h.lease, h.expiry, h.identity,
      h.frames⟩⟩
  | finalizeAck v spend terms record hp h =>
    have hguard : AckGuard cfg (s.withReason reason) frame v spend terms record :=
      ⟨h.spends, h.state, h.commitment, h.epoch, h.bucket, h.ack, h.inbox⟩
    exact ⟨reason, finalizeAck_withReason v spend terms record reason ▸ .finalizeAck v spend terms record hp hguard⟩
  | pinRead v record hp h =>
    exact ⟨reason, .pinRead v record hp ⟨h.bucket, h.fresh.withReason reason,
      ⟨h.live.inbox, h.live.present⟩, h.ascending, h.bounded, h.stored, h.source⟩⟩
  | finalizeRead v spend pin hp h =>
    exact ⟨reason, .finalizeRead v spend pin hp ⟨h.spends, h.retryPins, h.state, h.commitment,
      h.pinCommitment, h.epoch, h.bucket, h.identity⟩⟩
  | expireRead v spend pin hp h =>
    exact ⟨reason, .expireRead v spend pin hp ⟨h.spends, h.retryPins, h.state, h.commitment, h.minute, h.bucket⟩⟩
  | floor v hp h => exact ⟨reason, .floor v hp ⟨h.old, h.forward, h.jump⟩⟩
  | expireAppend v spend terms stored hp h =>
    exact ⟨reason, .expireAppend v spend terms stored hp ⟨h.bucket, h.frames, h.spends, h.state,
      h.sameData, h.unpinned, h.ack⟩⟩
  | gc v record hp h =>
    exact ⟨reason, .gc v record hp ⟨h.bucket, ⟨h.live.inbox, h.live.present⟩, h.oldRevision,
      h.oldLease, h.newRevision, h.expired⟩⟩
  | policy v record hp h =>
    exact ⟨reason, .policy v record hp ⟨h.bucket, h.inbox, h.oldRevision, h.newRevision⟩⟩
  | integrity v hp h => exact ⟨some .recoveryGapReadOnly, .integrity v hp h⟩

theorem applied_cases (cfg : Config B) (s : State B) (frame : Frame B) :
    frame.payload.Canonical ∧ Step cfg s frame (applied cfg s frame) ∨
      applied cfg s frame = s ∧ ∀ s', frame.payload.Canonical → ¬Step cfg s frame s' := by
  by_cases hcanonical : frame.payload.Canonical
  · rw [applied, if_pos hcanonical]
    cases happly : applyPayload cfg s frame with
    | ok s' => exact .inl ⟨hcanonical, applyPayload_eq_ok_iff.mp happly⟩
    | error error =>
      refine .inr ⟨rfl, fun s' _ hstep => ?_⟩
      rw [applyPayload_eq_ok_iff.mpr hstep] at happly
      cases happly
  · rw [applied, if_neg hcanonical]
    exact .inr ⟨rfl, fun s' h => absurd h hcanonical⟩

theorem Step.eq_applied (h : Step cfg s frame s') (hcanonical : frame.payload.Canonical) :
    applied cfg s frame = s' := by
  rw [applied, if_pos hcanonical, applyPayload_eq_ok_iff.mpr h]
  rfl

theorem applied_withReason (cfg : Config B) (s : State B) (reason : Option ReadOnlyReason) (frame : Frame B) :
    ∃ reason', applied cfg (s.withReason reason) frame = (applied cfg s frame).withReason reason' := by
  obtain ⟨hcanonical, hstep⟩ | ⟨heq, hno⟩ := applied_cases cfg s frame
  · obtain ⟨reason', hstep'⟩ := step_withReason hstep reason
    exact ⟨reason', hstep'.eq_applied hcanonical⟩
  · rw [heq]
    obtain ⟨hcanonical, hstep⟩ | ⟨heq', -⟩ := applied_cases cfg (s.withReason reason) frame
    · obtain ⟨reason', hstep'⟩ := step_withReason hstep s.readOnlyReason
      exact absurd hstep' (hno _ hcanonical)
    · exact ⟨reason, heq'⟩

theorem step_reason (h : Step cfg s frame s') (hs : s.readOnlyReason ≠ some .recoveredQuotaExceeded) :
    s'.readOnlyReason ≠ some .recoveredQuotaExceeded := by
  cases h with
  | integrity v hp h => exact nofun
  | _ => exact hs

def rebuild (cfg : Config B) (frames : List (Frame B)) : State B :=
  frames.foldl (applied cfg) (.empty B)

theorem rebuild_concat (cfg : Config B) (frames : List (Frame B)) (frame : Frame B) :
    rebuild cfg (frames ++ [frame]) = applied cfg (rebuild cfg frames) frame := by
  rw [rebuild, foldl_append]
  rfl

end Reason

/-! ### Writing a frame -/

variable {q : Quota} {payload : Payload B}

section Writing

variable {setup : Setup B} {e : Engine B} {staging : Staging}
  {appending : Option (AppendInput B × InboxRecord B)}

variable {s : State B}

theorem WithinQuota.withReason {q : Quota} (h : WithinQuota q s)
    (reason : Option ReadOnlyReason) : WithinQuota q (s.withReason reason) :=
  ⟨h.storedFrameBytes, h.controlBytes, h.tombstoneBytes, h.frameIndexBytes, h.inboxes, h.frames⟩

theorem Indexed.withReason (h : Indexed s) (reason : Option ReadOnlyReason) : Indexed (s.withReason reason) :=
  ⟨h.spends, h.inboxes, h.frames, h.commitments, h.topics, h.pins, h.stored⟩

theorem FrameRoom.withReason (h : FrameRoom q s payload) (reason : Option ReadOnlyReason) :
    FrameRoom q (s.withReason reason) payload := by
  cases payload with
  | appendCommitted v => exact ⟨h.frames, h.storedFrameBytes, h.frameIndexBytes, h.controlBytes⟩
  | _ => exact h

/-- What every engine of a run has: its maps are within the quotas, as are those that any part of the
log leaves, and an open engine has the maps of its log. -/
structure Solvent (setup : Setup B) (e : Engine B) : Prop where
  within : WithinQuota setup.cfg.quota e.state
  indexed : Indexed e.state
  reason : e.state.readOnlyReason ≠ some .recoveredQuotaExceeded
  log : ∀ frames, frames <+: e.wal → WithinQuota setup.cfg.quota (rebuild setup.cfg frames)
  rebuilt : e.opened = true → ∃ reason, e.state = (rebuild setup.cfg e.wal).withReason reason

/-- A solvent engine while an operation runs: the operations that write frames leave the staging
counters and the append that waits alone. -/
structure SolventAt (setup : Setup B) (staging : Staging)
    (appending : Option (AppendInput B × InboxRecord B)) (e : Engine B) : Prop where
  solvent : Solvent setup e
  staging_eq : e.staging = staging
  appending_eq : e.appending = appending

variable {cfg : Config B}

theorem applied_within {frame : Frame B}
    (hs : WithinQuota q s) (hi : Indexed s) (hroom : FrameRoom q s frame.payload) :
    WithinQuota q (applied cfg s frame) := by
  obtain ⟨-, hstep⟩ | ⟨heq, -⟩ := applied_cases cfg s frame
  · exact hs.step hi hroom hstep
  · rw [heq]
    exact hs

theorem applied_indexed (frame : Frame B) (hi : Indexed s) : Indexed (applied cfg s frame) := by
  obtain ⟨hcanonical, hstep⟩ | ⟨heq, -⟩ := applied_cases cfg s frame
  · exact indexed_step hi hcanonical hstep
  · rw [heq]
    exact hi

theorem applied_reason (frame : Frame B) (hs : s.readOnlyReason ≠ some .recoveredQuotaExceeded) :
    (applied cfg s frame).readOnlyReason ≠ some .recoveredQuotaExceeded := by
  obtain ⟨-, hstep⟩ | ⟨heq, -⟩ := applied_cases cfg s frame
  · exact step_reason hstep hs
  · rw [heq]
    exact hs

/-- A frame is written to the log of an open engine, and applied or refused. -/
def Engine.logged (e : Engine B) (cfg : Config B) (frame : Frame B) (poisoned : Bool) : Engine B :=
  { e with
    state := applied cfg e.state frame
    wal := e.wal ++ [frame]
    poisoned := poisoned }

theorem applyDurable_eq (cfg : Config B) (frame : Frame B) (e : Engine B) :
    applyDurable cfg frame e = ((applyFrame cfg e.state frame e.staging).map fun _ => (),
      { e with state := applied cfg e.state frame }) := by
  show (Act.ofExcept (applyFrame cfg e.state frame e.staging) >>= fun _ => pure () :
    Act (Engine B) Failure Unit) { e with state := applied cfg e.state frame } = _
  cases happly : applyFrame cfg e.state frame e.staging with
  | ok s' => rfl
  | error error => rfl

theorem appendAndApply_cases (setup : Setup B) (e : Engine B) (transactionId : B) (virtualBucket : ℕ)
    (payload : Payload B) :
    (appendAndApply setup transactionId virtualBucket payload e).2 = e ∨ e.opened = true ∧ ∃ poisoned,
        (appendAndApply setup transactionId virtualBucket payload e).2 =
          e.logged setup.cfg ⟨transactionId, virtualBucket, payload⟩ poisoned := by
  cases hadmit : e.admitFrame setup payload with
  | error error =>
    left
    show ((Act.ofExcept (e.admitFrame setup payload) >>= _ : Act (Engine B) Failure Unit) e).2 = e
    rw [ofExcept_bind_of_error hadmit]
  | ok u =>
    have hopened : e.opened = true := by
      simp only [Engine.admitFrame, guards_eq_ok] at hadmit
      exact hadmit.2.1
    refine .inr ⟨hopened, ?_⟩
    show ∃ poisoned, ((Act.ofExcept (e.admitFrame setup payload) >>= _ : Act (Engine B) Failure Unit) e).2 = _
    rw [ofExcept_bind_of_ok hadmit]
    let frame : Frame B := ⟨transactionId, virtualBucket, payload⟩
    have hdurable := applyDurable_eq setup.cfg frame { e with wal := e.wal ++ [frame], poisoned := true }
    show ∃ poisoned, ((applyDurable setup.cfg frame >>= fun _ =>
      Act.modify fun e => { e with poisoned := false } : Act (Engine B) Failure Unit)
        { e with wal := e.wal ++ [frame], poisoned := true }).2 = _
    cases happly : applyFrame setup.cfg e.state frame e.staging with
    | ok s' =>
      refine ⟨false, ?_⟩
      rw [happly] at hdurable
      rw [bind_of_ok hdurable]
      rfl
    | error error =>
      refine ⟨true, ?_⟩
      rw [happly] at hdurable
      rw [bind_of_error hdurable]
      rfl

/-- **Writing a frame that finds room** keeps an engine solvent. -/
theorem Solvent.logged (h : Solvent setup e) (hopened : e.opened = true) {frame : Frame B}
    (hroom : FrameRoom setup.cfg.quota e.state frame.payload) (poisoned : Bool) :
    Solvent setup (e.logged setup.cfg frame poisoned) where
  within := applied_within h.within h.indexed hroom
  indexed := applied_indexed frame h.indexed
  reason := applied_reason frame h.reason
  log := by
    intro frames hstart
    obtain hlast | hbefore := prefix_concat_iff.mp hstart
    · obtain ⟨reason, hreason⟩ := h.rebuilt hopened
      -- the log leaves the maps of the engine, up to the reason for being read-only
      have hsame : e.state.withReason (rebuild setup.cfg e.wal).readOnlyReason = rebuild setup.cfg e.wal := by
        rw [hreason]
        rfl
      rw [hlast, rebuild_concat, ← hsame]
      exact applied_within (h.within.withReason _) (h.indexed.withReason _) (hroom.withReason _)
    · exact h.log frames hbefore
  rebuilt := by
    intro _
    obtain ⟨reason, hreason⟩ := h.rebuilt hopened
    obtain ⟨reason', hreason'⟩ :=
      applied_withReason setup.cfg (rebuild setup.cfg e.wal) reason frame
    refine ⟨reason', ?_⟩
    show applied setup.cfg e.state frame = _
    rw [show (e.logged setup.cfg frame poisoned).wal = e.wal ++ [frame] from rfl, rebuild_concat, hreason, hreason']

theorem appendAndApply_solvent (transactionId : B) (virtualBucket : ℕ) (h : SolventAt setup staging appending e)
    (hroom : FrameRoom setup.cfg.quota e.state payload) :
    SolventAt setup staging appending (appendAndApply setup transactionId virtualBucket payload e).2 := by
  obtain heq | ⟨hopened, poisoned, heq⟩ :=
    appendAndApply_cases setup e transactionId virtualBucket payload
  · rw [heq]
    exact h
  · rw [heq]
    exact ⟨h.solvent.logged hopened hroom poisoned, h.staging_eq, h.appending_eq⟩

end Writing

/-! ### The loops -/

section Loops

variable (setup : Setup B) (staging : Staging) (appending : Option (AppendInput B × InboxRecord B))

/-- A method that keeps an engine solvent and leaves the appends alone. -/
abbrev KeepsSolvent {α : Type} (x : Act (Engine B) Failure α) : Prop :=
  Act.Within (fun _ => SolventAt setup staging appending) x

variable {setup staging appending}

theorem keepsSolvent_free (transactionId : B) (virtualBucket : ℕ)
    (hfree : ∀ s : State B, FrameRoom setup.cfg.quota s payload) :
    KeepsSolvent setup staging appending (appendAndApply setup transactionId virtualBucket payload) :=
  fun _ e h => appendAndApply_solvent transactionId virtualBucket h (hfree e.state)

theorem keepsSolvent_advanceLoop (next fuel : ℕ) :
    KeepsSolvent setup staging appending (advanceLoop setup next fuel) := by
  induction fuel with
  | zero => exact within_pure ()
  | succ fuel ih =>
    refine within_bind within_get fun e => within_ite ?_ (within_pure ())
    exact within_bind (keepsSolvent_free _ _ fun _ => trivial) fun _ => ih

theorem keepsSolvent_advanceEpochFloor (next : ℕ) :
    KeepsSolvent setup staging appending (advanceEpochFloor setup next) := by
  refine within_bind within_get fun e => ?_
  refine within_ofExcept_bind fun _ => ?_
  refine within_ofExcept_bind fun _ => ?_
  refine within_bind (keepsSolvent_advanceLoop next next) fun _ => ?_
  exact within_bind within_get fun e => within_pure _

theorem keepsSolvent_sweepPins (nowMinute : ℕ) (pins : List (RetryPin B)) (limit : ℕ) :
    KeepsSolvent setup staging appending (sweepPins setup nowMinute pins limit) := by
  induction pins generalizing limit with
  | nil => exact within_pure 0
  | cons pin pins ih =>
    refine within_ite (within_pure 0) ?_
    refine within_bind within_get fun e => within_ite ?_ (ih limit)
    refine within_bind (keepsSolvent_free _ _ fun _ => trivial) fun _ => ?_
    exact within_bind (ih (limit - 1)) fun swept => within_pure _

theorem keepsSolvent_sweepExpiredRetryPins (limit nowUnixMillis : ℕ) :
    KeepsSolvent setup staging appending (sweepExpiredRetryPins setup limit nowUnixMillis) := by
  refine within_bind within_get fun e => within_ite (within_pure 0) ?_
  exact within_ofExcept_bind fun nowMinute =>
    keepsSolvent_sweepPins nowMinute e.state.retryPins.values limit

theorem keepsSolvent_sweepFrames (frames : List (StoredFrame B)) (limit : ℕ) :
    KeepsSolvent setup staging appending (sweepFrames setup frames limit) := by
  induction frames generalizing limit with
  | nil => exact within_pure 0
  | cons stored frames ih =>
    refine within_ite (within_pure 0) ?_
    refine within_bind within_get fun e => ?_
    cases e.state.frameExpiry stored with
    | some payload =>
      refine within_bind (keepsSolvent_free _ _ fun _ => trivial) fun _ => ?_
      exact within_bind (ih (limit - 1)) fun swept => within_pure _
    | none => exact ih limit

theorem keepsSolvent_sweepInboxes (topics : List B) (limit : ℕ) :
    KeepsSolvent setup staging appending (sweepInboxes setup topics limit) := by
  induction topics generalizing limit with
  | nil => exact within_pure 0
  | cons topic topics ih =>
    refine within_ite (within_pure 0) ?_
    refine within_bind within_get fun e => ?_
    cases e.state.inboxGc topic with
    | some gc =>
      refine within_bind (keepsSolvent_free _ _ fun _ => trivial) fun _ => ?_
      exact within_bind (ih (limit - 1)) fun swept => within_pure _
    | none => exact ih limit

theorem keepsSolvent_sweepExpiredFrames (limit : ℕ) :
    KeepsSolvent setup staging appending (sweepExpiredFrames setup limit) := by
  refine within_bind within_get fun e => within_ite (within_pure 0) ?_
  refine within_bind (keepsSolvent_sweepFrames _ _) fun frames => ?_
  refine within_bind within_get fun e => ?_
  exact within_bind (keepsSolvent_sweepInboxes _ _) fun inboxes => within_pure _

theorem keepsSolvent_sweepExpired (limit nowUnixMillis : ℕ) :
    KeepsSolvent setup staging appending (sweepExpired setup limit nowUnixMillis) :=
  within_bind (keepsSolvent_sweepExpiredRetryPins _ _) fun _ =>
    keepsSolvent_sweepExpiredFrames limit

theorem keepsSolvent_setReadOnly {reason : ReadOnlyReason} (h : reason ≠ .recoveredQuotaExceeded) :
    KeepsSolvent setup staging appending (setReadOnly reason) := by
  refine within_modify fun _ e he => ⟨?_, he.staging_eq, he.appending_eq⟩
  refine ⟨he.solvent.within.withReason _, he.solvent.indexed.withReason _, ?_, he.solvent.log, ?_⟩
  · exact fun heq => h (some.inj heq)
  · intro hopened
    obtain ⟨_, heq⟩ := he.solvent.rebuilt hopened
    exact ⟨some reason, congrArg (fun s => s.withReason (some reason)) heq⟩

theorem keepsSolvent_clockTick (nowUnixMillis : ℕ) :
    KeepsSolvent setup staging appending (clockTick setup nowUnixMillis) := by
  have hwork : KeepsSolvent setup staging appending (clockWork setup nowUnixMillis) := by
    refine within_ofExcept_bind fun epoch => ?_
    refine within_bind (keepsSolvent_advanceEpochFloor epoch) fun _ => ?_
    refine within_bind (keepsSolvent_sweepExpiredRetryPins _ _) fun _ => ?_
    exact within_bind (keepsSolvent_sweepExpiredFrames _) fun _ => within_pure ()
  intro e₀ e he
  have hdone := hwork e₀ e he
  show SolventAt setup staging appending (clockTick setup nowUnixMillis e).2
  rw [clockTick]
  cases hresult : clockWork setup nowUnixMillis e with
  | mk result e' =>
    rw [hresult] at hdone
    cases result with
    | ok u => exact hdone
    | error error =>
      by_cases hnone : e'.state.readOnlyReason.isNone = true
      · simp only [hnone, if_true]
        exact keepsSolvent_setReadOnly (by decide) e₀ e' hdone
      · simp only [hnone]
        exact hdone

theorem keepsSolvent_verifyFrameBodies (inspect : StoredFrame B → Option Cell.IntegrityReason) :
    KeepsSolvent setup staging appending (verifyFrameBodies setup inspect) := by
  refine within_bind within_get fun e => ?_
  refine within_ite (keepsSolvent_setReadOnly (by decide)) ?_
  split
  · exact within_pure ()
  · refine within_bind (keepsSolvent_setReadOnly (by decide)) fun _ => ?_
    exact within_ite (within_pure ()) (keepsSolvent_free _ _ fun _ => trivial)

/-- The staging counters are within the quotas. -/
structure StagingWithin (q : Quota) (staging : Staging) : Prop where
  stagingFrameBytes : staging.stagingFrameBytes ≤ q.maxStagingFrameBytes
  stagingByProfile : ∀ value ∈ staging.stagingByProfile.values, value ≤ q.maxStagingFrameBytesPerProfile

theorem stagingWithin_empty (q : Quota) : StagingWithin q .empty :=
  ⟨Int.natCast_nonneg _, nofun⟩

theorem WithinQuota.not_exceeded {s : State B} (hs : WithinQuota q s)
    (hstaging : StagingWithin q staging) : ¬QuotaExceeded q s staging := by
  rintro (h | h | h | h | h | h | h | ⟨value, hmem, h⟩)
  · exact absurd hs.storedFrameBytes (not_le.mpr h)
  · exact absurd hstaging.stagingFrameBytes (not_le.mpr h)
  · exact absurd hs.controlBytes (not_le.mpr h)
  · exact absurd hs.tombstoneBytes (not_le.mpr h)
  · exact absurd hs.frameIndexBytes (not_le.mpr h)
  · exact absurd hs.inboxes (not_le.mpr h)
  · exact absurd hs.frames (not_le.mpr h)
  · exact absurd (hstaging.stagingByProfile value hmem) (not_le.mpr h)

theorem keepsSolvent_assertRecoveredQuota (hstaging : StagingWithin setup.cfg.quota staging) :
    KeepsSolvent setup staging appending (assertRecoveredQuota setup) := by
  intro _ e he
  have hnot : ¬QuotaExceeded setup.cfg.quota e.state e.staging :=
    he.solvent.within.not_exceeded (he.staging_eq ▸ hstaging)
  show SolventAt setup staging appending (assertRecoveredQuota setup e).2
  have heq : assertRecoveredQuota setup e = (if QuotaExceeded setup.cfg.quota e.state e.staging then
        setReadOnly .recoveredQuotaExceeded else pure () : Act (Engine B) Failure Unit) e := rfl
  rw [heq, if_neg hnot]
  exact he

end Loops

/-! ### Opening a store -/

section Opening

variable {setup : Setup B} {wal : List (Frame B)}

theorem rebuild_indexed (cfg : Config B) (frames : List (Frame B)) : Indexed (rebuild cfg frames) := by
  induction frames using reverseRecOn with
  | nil => exact indexed_empty
  | append_singleton frames frame ih =>
    rw [rebuild_concat]
    exact applied_indexed frame ih

theorem rebuild_reason (cfg : Config B) (frames : List (Frame B)) :
    (rebuild cfg frames).readOnlyReason ≠ some .recoveredQuotaExceeded := by
  induction frames using reverseRecOn with
  | nil => exact nofun
  | append_singleton frames frame ih =>
    rw [rebuild_concat]
    exact applied_reason frame ih

/-- An engine that has replayed a part of its log. -/
def Engine.replayed (cfg : Config B) (wal frames : List (Frame B)) : Engine B :=
  { Engine.closed wal with state := rebuild cfg frames }

theorem solventAt_replayed {frames : List (Frame B)} (hstart : frames <+: wal)
    (hlog : ∀ frames, frames <+: wal → WithinQuota setup.cfg.quota (rebuild setup.cfg frames)) :
    SolventAt setup .empty none (Engine.replayed setup.cfg wal frames) := by
  refine ⟨⟨hlog frames hstart, rebuild_indexed _ _, rebuild_reason _ _, hlog, ?_⟩, rfl, rfl⟩
  exact nofun

theorem replayFrames_spec (setup : Setup B) (wal replayed frames : List (Frame B)) (hwal : replayed ++ frames = wal) :
    ∃ frames', frames' <+: wal ∧ (replayFrames setup frames (Engine.replayed setup.cfg wal replayed)).2 =
        Engine.replayed setup.cfg wal frames' ∧
      ((replayFrames setup frames (Engine.replayed setup.cfg wal replayed)).1 = .ok () → frames' = wal) := by
  induction frames generalizing replayed with
  | nil => exact ⟨replayed, hwal ▸ prefix_append _ _, rfl, fun _ => by simpa using hwal⟩
  | cons frame frames ih =>
    have hdurable := applyDurable_eq setup.cfg frame (Engine.replayed setup.cfg wal replayed)
    have hnext : { Engine.replayed setup.cfg wal replayed with
        state := applied setup.cfg (rebuild setup.cfg replayed) frame } =
          Engine.replayed setup.cfg wal (replayed ++ [frame]) := by
      rw [Engine.replayed, Engine.replayed, rebuild_concat]
    have hrest : (replayed ++ [frame]) ++ frames = wal := by simpa using hwal
    rw [replayFrames]
    rw [show (Engine.replayed setup.cfg wal replayed).state = rebuild setup.cfg replayed from rfl, hnext] at hdurable
    cases happly : applyFrame setup.cfg (rebuild setup.cfg replayed) frame
        (Engine.replayed setup.cfg wal replayed).staging with
    | ok s' =>
      rw [happly] at hdurable
      rw [bind_of_ok hdurable]
      exact ih _ hrest
    | error error =>
      rw [happly] at hdurable
      rw [bind_of_error hdurable]
      exact ⟨replayed ++ [frame], hrest ▸ prefix_append _ _, rfl, nofun⟩

theorem keepsSolvent_afterReplay (startup : Startup B) :
    KeepsSolvent setup .empty none (afterReplay setup startup) := by
  refine within_bind within_get fun e => ?_
  have hrest : KeepsSolvent setup .empty none (do
      verifyFrameBodies setup startup.inspect
      let _ ← sweepExpiredRetryPins setup 4096 startup.nowUnixMillis
      let _ ← sweepExpiredFrames setup 4096
      assertRecoveredQuota setup) := by
    refine within_bind (keepsSolvent_verifyFrameBodies _) fun _ => ?_
    refine within_bind (keepsSolvent_sweepExpiredRetryPins _ _) fun _ => ?_
    refine within_bind (keepsSolvent_sweepExpiredFrames _) fun _ => ?_
    exact keepsSolvent_assertRecoveredQuota (stagingWithin_empty _)
  refine within_ite ?_ hrest
  exact within_bind (keepsSolvent_free _ _ fun _ => trivial) fun _ => hrest

/-- **A log whose parts are within the quotas opens without complaint.** -/
theorem openStore_solvent (startup : Startup B)
    (hlog : ∀ frames, frames <+: wal → WithinQuota setup.cfg.quota (rebuild setup.cfg frames)) :
    SolventAt setup .empty none (openStore setup startup wal).2 := by
  have hrecover : SolventAt setup .empty none (recover setup startup (Engine.closed wal)).2 := by
    obtain ⟨frames, hstart, hend, hok⟩ := replayFrames_spec setup wal [] wal rfl
    show SolventAt setup .empty none ((replayFrames setup wal >>= fun _ =>
      Act.modify (fun e => { e with opened := true }) >>= fun _ => afterReplay setup startup :
        Act (Engine B) Failure Unit) (Engine.replayed setup.cfg wal [])).2
    cases hreplay : replayFrames setup wal (Engine.replayed setup.cfg wal []) with
    | mk result e =>
      rw [hreplay] at hend hok
      cases result with
      | error error =>
        rw [bind_of_error hreplay]
        show SolventAt setup .empty none e
        rw [show e = _ from hend]
        exact solventAt_replayed hstart hlog
      | ok u =>
        rw [bind_of_ok hreplay]
        refine (keepsSolvent_afterReplay startup).at ?_
        rw [show e = _ from hend, hok rfl]
        obtain ⟨⟨hwithin, hindexed, hreason, -, -⟩, hstaging, happending⟩ :=
          solventAt_replayed (prefix_refl wal) hlog
        exact ⟨⟨hwithin, hindexed, hreason, hlog, fun _ => ⟨_, rfl⟩⟩, hstaging, happending⟩
  rw [openStore]
  cases hresult : recover setup startup (Engine.closed wal) with
  | mk result e =>
    rw [hresult] at hrecover
    cases result with
    | ok u => exact hrecover
    | error error =>
      obtain ⟨⟨hwithin, hindexed, hreason, hlog, -⟩, hstaging, happending⟩ := hrecover
      exact ⟨⟨hwithin, hindexed, hreason, hlog, nofun⟩, hstaging, happending⟩

end Opening

/-! ### Operations that write one frame -/

/-- A renewal, a close or a charged page finds room for its control bytes. The engine does not ask
for it. -/
def Payload.FindsControlRoom (q : Quota) (a : Accounting) : Payload B → Prop
  | .renewCommitted _ | .closeCommitted _ => a.controlBytes + controlRecordBytes ≤ q.maxControlBytes
  | .readPinCommitted v =>
      a.controlBytes + controlRecordBytes + (1 + v.entries.length) * retryRecordBytes ≤ q.maxControlBytes
  | _ => True

instance (q : Quota) (a : Accounting) : (payload : Payload B) → Decidable (payload.FindsControlRoom q a)
  | .renewCommitted _ | .closeCommitted _ | .readPinCommitted _ =>
    inferInstanceAs (Decidable (_ ≤ _))
  | .createCommitted _ | .appendCommitted _ | .readPinFinalized _ | .readPinExpired _
  | .floorAdvance _ | .appendExpired _ | .inboxGc _ | .policyCommitted _ | .integrityFailed _
  | .appendAckFinalized _ => inferInstanceAs (Decidable True)

section Requests

variable {setup : Setup B} {e : Engine B} {P : Payload B → Prop}

/-- Whatever an operation decides to write is in `P`. -/
def Writes (P : Payload B → Prop) (x : Except Failure (Outcome B)) : Prop :=
  ∀ virtualBucket payload, x = .ok (.write virtualBucket payload) → P payload

theorem writes_error (error : Failure) : Writes P (.error error) := nofun

theorem writes_reply (value : Reply B) : Writes P (pure (.reply value)) := nofun

theorem writes_write (virtualBucket : ℕ) (h : P payload) : Writes P (pure (.write virtualBucket payload)) := by
  rintro _ _ ⟨⟩
  exact h

theorem writes_bind {α : Type} {x : Except Failure α} {f : α → Except Failure (Outcome B)}
    (h : ∀ a, x = .ok a → Writes P (f a)) : Writes P (x >>= f) := by
  intro virtualBucket payload hwrite
  obtain ⟨a, ha, hf⟩ := Except.bind_eq_ok.mp hwrite
  exact h a ha virtualBucket payload hf

theorem createOutcome_writes (cfg : Config B) (s : State B) (staging : Staging) (input : CreateInput B) :
    Writes (FrameRoom cfg.quota s) (createOutcome cfg s staging input) := by
  refine writes_bind fun _ _ => writes_bind fun _ _ => writes_bind fun _ _ => ?_
  refine writes_bind fun _ _ => ?_
  cases spendDisposition s input.preparedAdmission .create with
  | conflict | terminal => exact writes_error _
  | replay spend => exact writes_bind fun existing _ => writes_reply _
  | fresh | reserved _ =>
    refine writes_bind fun _ _ => writes_bind fun _ hcapacity => writes_bind fun spend _ => ?_
    refine writes_bind fun createCommitment _ => writes_bind fun _ _ => writes_write _ ?_
    simp only [checkCapacity, require_eq_ok] at hcapacity
    exact hcapacity

theorem renewOutcome_writes (cfg : Config B) (s : State B) (input : RenewInput B) :
    Writes (fun payload => ∃ v, payload = .renewCommitted v) (renewOutcome cfg s input) := by
  refine writes_bind fun _ _ => writes_bind fun _ _ => ?_
  cases spendDisposition s input.preparedAdmission .renew with
  | conflict | terminal => exact writes_error _
  | replay spend => exact writes_bind fun record _ => writes_reply _
  | fresh | reserved _ =>
    refine writes_bind fun record _ => writes_bind fun _ _ => writes_bind fun _ _ => ?_
    exact writes_bind fun spend _ => writes_bind fun _ _ => writes_write _ ⟨_, rfl⟩

theorem closeOutcome_writes (cfg : Config B) (s : State B) (transactionId : B) (input : CloseInput B) :
    Writes (fun payload => ∃ v, payload = .closeCommitted v) (closeOutcome cfg s transactionId input) := by
  refine writes_bind fun _ _ => writes_bind fun _ _ => ?_
  cases s.requestResults.get? input.requestCommitment with
  | some prior => exact writes_bind fun record _ => writes_reply _
  | none => exact writes_bind fun _ _ => writes_bind fun _ _ => writes_write _ ⟨_, rfl⟩

theorem ackOutcome_writes (cfg : Config B) (s : State B) (input : AckInput B) :
    Writes (fun payload => ∃ v, payload = .appendAckFinalized v) (ackOutcome cfg s input) := by
  refine writes_bind fun _ _ => writes_bind fun _ _ => writes_bind fun _ _ => ?_
  refine writes_bind fun _ _ => writes_bind fun spend _ => writes_bind fun _ _ => ?_
  cases spend.state with
  | appended _ _ _ | expiredAppend _ _ _ _ => exact writes_bind fun _ _ => writes_reply _
  | provisional terms =>
    exact writes_bind fun body _ => writes_bind fun _ _ => writes_write _ ⟨_, rfl⟩
  | leased _ _ | reserved _ | read _ _ _ | terminal _ _ => exact writes_error _

theorem pinOutcome_writes (cfg : Config B) (auth : CursorAuth B) (s : State B) (input : PinInput B) :
    Writes (fun payload => ∃ v, payload = .readPinCommitted v) (pinOutcome cfg auth s input) := by
  refine writes_bind fun _ _ => writes_bind fun _ _ => writes_bind fun _ _ => ?_
  refine writes_bind fun record _ => ?_
  cases spendDisposition s input.preparedAdmission (if input.watch then .watch else .read) with
  | conflict | terminal => exact writes_error _
  | replay _ | reserved _ => exact writes_bind fun page _ => writes_reply _
  | fresh =>
    refine writes_bind fun cursor _ => writes_bind fun page _ => writes_bind fun spend _ => ?_
    exact writes_bind fun nowMinute _ => writes_bind fun _ _ => writes_write _ ⟨_, rfl⟩

theorem pageOutcome_writes (cfg : Config B) (s : State B) (input : PageInput B) :
    Writes (fun payload => ∃ v, payload = .readPinFinalized v) (pageOutcome cfg s input) := by
  refine writes_bind fun _ _ => writes_bind fun _ _ => writes_bind fun _ _ => ?_
  refine writes_bind fun spend _ => writes_bind fun pin _ => writes_bind fun _ _ => ?_
  cases spend.state.isCommitted with
  | true => exact writes_bind fun _ _ => writes_reply _
  | false => exact writes_write _ ⟨_, rfl⟩

theorem policyOutcome_writes (s : State B) (input : PolicyInput B) :
    Writes (fun payload => ∃ v, payload = .policyCommitted v) (policyOutcome s input) :=
  writes_bind fun _ _ => writes_bind fun _ _ => writes_write _ ⟨_, rfl⟩

/-- Of the operations that write one frame only `createInbox` asks for what its frame charges. -/
theorem Request.writes (setup : Setup B) (e : Engine B) (request : Request B) :
    Writes (fun payload => payload.FindsControlRoom setup.cfg.quota e.state.accounting →
      FrameRoom setup.cfg.quota e.state payload) (request.outcome setup e) := by
  refine writes_bind fun _ _ => ?_
  intro virtualBucket payload hwrite hfinds
  cases request with
  | create input => exact createOutcome_writes _ _ _ input _ _ hwrite
  | renew input =>
    obtain ⟨v, rfl⟩ := renewOutcome_writes _ _ input _ _ hwrite
    exact hfinds
  | close input =>
    obtain ⟨v, rfl⟩ := closeOutcome_writes _ _ _ input _ _ hwrite
    exact hfinds
  | finalizeAck input =>
    obtain ⟨v, rfl⟩ := ackOutcome_writes _ _ input _ _ hwrite
    trivial
  | pin input =>
    obtain ⟨v, rfl⟩ := pinOutcome_writes _ _ _ input _ _ hwrite
    exact hfinds
  | finalizePage input =>
    obtain ⟨v, rfl⟩ := pageOutcome_writes _ _ input _ _ hwrite
    trivial
  | policy input =>
    obtain ⟨v, rfl⟩ := policyOutcome_writes _ input _ _ hwrite
    trivial

/-- What an operation decides to write finds room for its control bytes. -/
def OutcomeFindsRoom (q : Quota) (a : Accounting) : Except Failure (Outcome B) → Prop
  | .ok (.write _ payload) => payload.FindsControlRoom q a
  | _ => True

instance (q : Quota) (a : Accounting) : (x : Except Failure (Outcome B)) → Decidable (OutcomeFindsRoom q a x)
  | .ok (.write _ payload) => inferInstanceAs (Decidable (payload.FindsControlRoom q a))
  | .ok (.reply _) | .error _ => inferInstanceAs (Decidable True)

/-- What the engine does not check before it writes: a renewal, a close or a charged page that is
written finds room for its control bytes. -/
def FindsControlRoom (setup : Setup B) (e : Engine B) : Move B → Prop
  | .request request =>
    OutcomeFindsRoom setup.cfg.quota e.state.accounting (request.outcome setup e)
  | _ => True

instance (setup : Setup B) (e : Engine B) : (move : Move B) → Decidable (FindsControlRoom setup e move)
  | .request _ => inferInstanceAs (Decidable (OutcomeFindsRoom _ _ _))
  | .append _ | .published _ | .advanceEpochFloor _ | .sweepExpired _ _ | .clockTick _
  | .restart _ => inferInstanceAs (Decidable True)

theorem perform_solvent {staging : Staging} {appending : Option (AppendInput B × InboxRecord B)}
    (h : SolventAt setup staging appending e) {request : Request B}
    (hfinds : FindsControlRoom setup e (.request request)) :
    SolventAt setup staging appending (request.perform setup e).2 := by
  show SolventAt setup staging appending ((Act.ofExcept (request.outcome setup e) >>= _ :
    Act (Engine B) Failure (Reply B)) e).2
  cases houtcome : request.outcome setup e with
  | error error =>
    exact h
  | ok outcome =>
    cases outcome with
    | reply value => exact h
    | write virtualBucket payload =>
      rw [FindsControlRoom, houtcome] at hfinds
      have hroom := request.writes setup e virtualBucket payload houtcome hfinds
      have hwritten := appendAndApply_solvent (e.nextId setup) virtualBucket h hroom
      show SolventAt setup staging appending
        ((appendAndApply setup (e.nextId setup) virtualBucket payload >>= fun _ =>
          Act.get >>= fun e => Act.ofExcept (request.answer setup e.state)) e).2
      refine spec_bind (P := fun e' => e' = e) (R := fun _ => SolventAt setup staging appending)
        (Q := fun _ => SolventAt setup staging appending) ?_ ?_ ?_ e rfl
      · rintro _ rfl
        exact hwritten
      · exact fun _ e' he' => he'
      · exact fun _ _ he' => he'

end Requests

/-! ### Appends -/

section Appends

variable {setup : Setup B} {e : Engine B} {input : AppendInput B} {record : InboxRecord B}

/-- What an append has been promised while it waits for its body. -/
structure Reserved (q : Quota) (s : State B) (input : AppendInput B) : Prop where
  room : AppendRoom q s input.frameClass
  stagingFrameBytes : (input.frameLength : ℤ) ≤ q.maxStagingFrameBytes
  stagingByProfile : (input.frameLength : ℤ) ≤ q.maxStagingFrameBytesPerProfile

/-- The staging counters of an engine that waits for one body. -/
def AppendInput.staging (input : AppendInput B) : Staging :=
  Staging.empty.add input.preparedAdmission.profileId input.frameLength

theorem AppendInput.staging_remove (input : AppendInput B) :
    input.staging.remove input.preparedAdmission.profileId input.frameLength = .empty := by
  have hbytes : (0 : ℤ) + input.frameLength - input.frameLength = 0 := by omega
  simp only [AppendInput.staging, Staging.add, Staging.remove, Staging.empty,
    get?_set_self, get?_empty, getD_some, getD_none, hbytes]
  congr 1
  refine ext_entries ?_
  simp [OrderedMap.delete, OrderedMap.set, OrderedMap.empty]

theorem Reserved.stagingWithin {s : State B} (h : Reserved q s input) : StagingWithin q input.staging := by
  refine ⟨?_, ?_⟩
  · show (0 : ℤ) + input.frameLength ≤ _
    rw [zero_add]
    exact h.stagingFrameBytes
  · intro value hvalue
    obtain ⟨key, hget⟩ := mem_values_iff.mp hvalue
    rw [show input.staging.stagingByProfile =
      empty.set input.preparedAdmission.profileId (0 + (input.frameLength : ℤ)) from rfl,
      get?_set] at hget
    split at hget
    · cases hget
      rw [zero_add]
      exact h.stagingByProfile
    · cases hget

theorem appendOutcome_reserved (hstaging : e.staging = .empty)
    (h : appendOutcome setup e input = .ok (.stage record)) :
    Reserved setup.cfg.quota e.state input := by
  simp only [appendOutcome, guards_eq_ok] at h
  obtain ⟨_, -, _, -, _, -, ⟨-, -, hlength⟩, -, h⟩ := h
  cases hdisposition : spendDisposition e.state input.preparedAdmission .append with
  | conflict | terminal =>
    rw [hdisposition] at h
    cases h
  | replay spend =>
    rw [hdisposition] at h
    obtain ⟨value, -, hreply⟩ := Except.bind_eq_ok.mp h
    cases hreply
  | fresh | reserved _ =>
    rw [hdisposition] at h
    simp only [guards_eq_ok, checkCapacity, hstaging] at h
    obtain ⟨record', -, -, ⟨inbox, -, ⟨-, hframes, hstored, hbytes, hindex, hcontrol⟩, hprofile⟩, -⟩ := h
    have hzero : Staging.empty.stagingFrameBytes = 0 := rfl
    refine ⟨⟨hframes, ?_, hindex, hcontrol⟩, ?_, ?_⟩
    · rw [hzero, add_zero] at hstored
      exact hstored
    · rw [hzero, zero_add] at hbytes
      rw [hlength]
      exact hbytes
    · have := hprofile input.preparedAdmission.profileId rfl
      rw [hlength]
      simpa [Staging.empty] using this

theorem commitAppend_solvent {staging : Staging}
    {appending : Option (AppendInput B × InboxRecord B)} (h : SolventAt setup staging appending e)
    (hroom : AppendRoom setup.cfg.quota e.state input.frameClass) (published : Except Failure B) :
    SolventAt setup staging appending (commitAppend setup input record published e).2 := by
  cases published with
  | error error => exact h
  | ok frameObjectId =>
    show SolventAt setup staging appending
      ((Act.ofExcept (appendPayload setup e.state input record frameObjectId) >>= _ :
        Act (Engine B) Failure (Reply B)) e).2
    cases hpayload : appendPayload setup e.state input record frameObjectId with
    | error error =>
      exact h
    | ok payload =>
      rw [ofExcept_bind_of_ok rfl]
      have hclass : FrameRoom setup.cfg.quota e.state payload := by
        simp only [appendPayload, guards_eq_ok] at hpayload
        obtain ⟨spend, -, _, -, _, -, rfl⟩ := hpayload
        exact hroom
      refine spec_bind (P := fun e' => e' = e) (R := fun _ => SolventAt setup staging appending)
        (Q := fun _ => SolventAt setup staging appending) ?_ ?_ ?_ e rfl
      · rintro _ rfl
        exact appendAndApply_solvent _ _ h hclass
      · intro _
        refine spec_get_bind fun e' he' => ?_
        cases e'.state.spends.get? input.preparedAdmission.spendTag with
        | none | some spend => exact he'
      · exact fun _ _ he' => he'

end Appends

/-! ### Runs -/

section Runs

variable {setup : Setup B} {e e' : Engine B}

/-- The invariant of a run: the engine is solvent, and it stages nothing, or the one body it has made
room for. -/
structure Running (setup : Setup B) (e : Engine B) : Prop where
  solvent : Solvent setup e
  idle : e.appending = none → e.staging = .empty
  waiting : ∀ input record, e.appending = some (input, record) →
    e.staging = input.staging ∧ Reserved setup.cfg.quota e.state input

theorem SolventAt.running (h : SolventAt setup .empty none e) : Running setup e :=
  ⟨h.solvent, fun _ => h.staging_eq, fun _ _ hsome => nomatch h.appending_eq.symm.trans hsome⟩

theorem Running.solventAt (h : Running setup e) (hidle : e.appending = none) : SolventAt setup .empty none e :=
  ⟨h.solvent, h.idle hidle, hidle⟩

theorem Running.stagingWithin (h : Running setup e) : StagingWithin setup.cfg.quota e.staging := by
  cases happending : e.appending with
  | none =>
    rw [h.idle happending]
    exact stagingWithin_empty _
  | some waiting =>
    obtain ⟨hstaging, hreserved⟩ := h.waiting waiting.1 waiting.2 happending
    rw [hstaging]
    exact hreserved.stagingWithin

theorem running_closed (setup : Setup B) : Running setup (Engine.closed ([] : List (Frame B))) := by
  refine (solventAt_replayed (prefix_refl []) ?_).running
  intro frames hstart
  rw [prefix_nil.mp hstart]
  exact withinQuota_empty _

theorem running_append (h : Running setup e) (hidle : e.appending = none) (input : AppendInput B) :
    Running setup (appendFrame setup input e).2 := by
  have hat := h.solventAt hidle
  show Running setup ((Act.ofExcept (appendOutcome setup e input) >>= _ :
    Act (Engine B) Failure (Option (Reply B))) e).2
  cases houtcome : appendOutcome setup e input with
  | error error =>
    exact h
  | ok outcome =>
    cases outcome with
    | reply value => exact h
    | stage record =>
      have hreserved := appendOutcome_reserved hat.staging_eq houtcome
      refine ⟨⟨h.solvent.within, h.solvent.indexed, h.solvent.reason, h.solvent.log,
        h.solvent.rebuilt⟩, nofun, ?_⟩
      rintro _ _ ⟨⟩
      refine ⟨?_, hreserved⟩
      show e.staging.add _ _ = _
      rw [hat.staging_eq]
      rfl

theorem running_published (h : Running setup e) {input : AppendInput B} {record : InboxRecord B}
    (hwaiting : e.appending = some (input, record)) (answer : Except Failure B) :
    Running setup (finishAppend setup input record answer e).2 := by
  obtain ⟨hstaging, hreserved⟩ := h.waiting input record hwaiting
  have hcommit : SolventAt setup input.staging (some (input, record)) (commitAppend setup input record answer e).2 :=
    commitAppend_solvent ⟨h.solvent, hstaging, hwaiting⟩ hreserved.room answer
  obtain ⟨⟨hwithin, hindexed, hreason, hlog, hrebuilt⟩, hstaged, -⟩ := hcommit
  refine SolventAt.running ⟨⟨hwithin, hindexed, hreason, hlog, hrebuilt⟩, ?_, rfl⟩
  show Staging.remove (commitAppend setup input record answer e).2.staging _ _ = _
  rw [hstaged]
  exact input.staging_remove

theorem idle_of_step {α : Type} {appending : Option α}
    (h : (if appending.isNone then some e else none) = some e') : appending = none ∧ e = e' := by
  split at h
  · next hnone => exact ⟨isNone_iff_eq_none.mp hnone, some.inj h⟩
  · cases h

/-- **A move keeps the invariant**, if what the engine does not check finds room. -/
theorem running_step {move : Move B} (h : Running setup e) (hfinds : FindsControlRoom setup e move)
    (hstep : engineStep setup e move = some e') : Running setup e' := by
  cases move with
  | restart startup =>
    cases hstep
    exact (openStore_solvent startup h.solvent.log).running
  | published answer =>
    obtain ⟨⟨input, record⟩, hwaiting, rfl⟩ := map_eq_some_iff.mp hstep
    exact running_published h hwaiting answer
  | request request =>
    obtain ⟨hidle, rfl⟩ := idle_of_step hstep
    exact (perform_solvent (h.solventAt hidle) hfinds).running
  | append input =>
    obtain ⟨hidle, rfl⟩ := idle_of_step hstep
    exact running_append h hidle input
  | advanceEpochFloor next =>
    obtain ⟨hidle, rfl⟩ := idle_of_step hstep
    exact ((keepsSolvent_advanceEpochFloor next).at (h.solventAt hidle)).running
  | sweepExpired limit nowUnixMillis =>
    obtain ⟨hidle, rfl⟩ := idle_of_step hstep
    exact ((keepsSolvent_sweepExpired limit nowUnixMillis).at (h.solventAt hidle)).running
  | clockTick nowUnixMillis =>
    obtain ⟨hidle, rfl⟩ := idle_of_step hstep
    exact ((keepsSolvent_clockTick nowUnixMillis).at (h.solventAt hidle)).running

/-- **The running engine and its restart limits.** In a run in which every renewal, every close and
every charged page that is written finds room for its control bytes, the counters and the maps stay
within the quotas, and an engine that is opened over the log, or over the part of it that a crash
leaves, does not find a quota exceeded. -/
theorem counters_within_quota {moves : List (Move B)}
    (hfinds : RunMeets (engineStep setup) (FindsControlRoom setup) (Engine.closed []) moves)
    (hrun : run (engineStep setup) (Engine.closed []) moves = some e) :
    (e.state.accounting.storedFrameBytes ≤ setup.cfg.quota.maxStoredFrameBytes ∧
      e.staging.stagingFrameBytes ≤ setup.cfg.quota.maxStagingFrameBytes ∧
      e.state.accounting.controlBytes ≤ setup.cfg.quota.maxControlBytes ∧
      e.state.accounting.tombstoneBytes ≤ setup.cfg.quota.maxTombstoneBytes ∧
      e.state.accounting.frameIndexBytes ≤ setup.cfg.quota.maxFrameIndexBytes ∧
      e.state.inboxes.size ≤ setup.cfg.quota.maxInboxes ∧
      e.state.frames.size ≤ setup.cfg.quota.maxFrames) ∧
      ∀ frames, frames <+: e.wal → ∀ startup, (openStore setup startup frames).2.state.readOnlyReason ≠
          some .recoveredQuotaExceeded := by
  have hrunning : Running setup e := run_invariant (FindsControlRoom setup) (Running setup)
    (fun _ _ _ h hfinds hstep => running_step h hfinds hstep) (running_closed setup) hfinds hrun
  obtain ⟨hwithin, -, -, hlog, -⟩ := hrunning.solvent
  refine ⟨⟨hwithin.storedFrameBytes, hrunning.stagingWithin.stagingFrameBytes, hwithin.controlBytes,
    hwithin.tombstoneBytes, hwithin.frameIndexBytes, hwithin.inboxes, hwithin.frames⟩, ?_⟩
  intro frames hstart startup
  have hopen := openStore_solvent startup fun part hpart =>
    hlog part (hpart.trans hstart)
  exact hopen.solvent.reason

/-! ### Sample runs -/

/-- An engine over the sample configuration with a limit on its control bytes. -/
def sampleSetup (maxControlBytes : ℕ) : Setup ℕ where
  cfg :=
    { sampleConfig with
      quota := { sampleConfig.quota with maxControlBytes := maxControlBytes } }
  auth := sampleAuth
  newTransactionId := fun position => 1000 + position
  fits := fun _ => true
  initialEpochFloor := 10
  maxStartupReferences := 1000000
  evidenceHash := fun stored _ => stored.frameHash + 1

/-- A startup that finds every body in place. -/
def sampleStartup : Startup ℕ where
  inspect := fun _ => none
  nowUnixMillis := 600000

/-- The creation of the sample inbox. -/
def sampleCreateInput : CreateInput ℕ where
  terms :=
    { allocationEpoch := 10
      physicalTopic := sampleTopic
      frameClassBits := 7
      appendAuthMode := 0
      appendPublicKey := none
      createPublicKey := 31
      renewPublicKey := 32
      closePublicKey := 33
      retentionClass := 1
      leaseClass := 2 }
  clientNonce := 1
  requestCommitment := 200
  preparedAdmission := (sampleSpend 100 200 10).preparedAdmission
  resultBinding := sampleBinding
  nowUnixMillis := 600000

def sampleAppendInput : AppendInput ℕ where
  physicalTopic := sampleTopic
  frameClass := 1
  frameHash := 301
  frameLength := 4096
  frameDigest := 301
  clientNonce := 1
  preparedAdmission := (sampleSpend 101 201 10).preparedAdmission
  resultBinding := sampleBinding
  nowUnixMillis := 600000

def sampleCloseInput : CloseInput ℕ where
  physicalTopic := sampleTopic
  expectedRevision := 0
  expectedLeaseEpoch := 38
  clientNonce := 1
  requestCommitment := 202
  resultBinding := sampleBinding

/-- The inbox is created, a frame is appended, the inbox is closed and the store is reopened. -/
def sampleMoves : List (Move ℕ) :=
  [.restart sampleStartup, .request (.create sampleCreateInput), .append sampleAppendInput,
    .published (.ok 401), .request (.close sampleCloseInput), .restart sampleStartup]

/-- With a quota of three control records the sample run stays within it, and the reopened store is
writable. -/
theorem counters_within_quota_sample : ∃ e,
    run (engineStep (sampleSetup 1536)) (Engine.closed []) sampleMoves = some e ∧
      e.opened = true ∧ e.wal.length = 4 ∧ e.state.readOnlyReason = none ∧
      e.state.accounting.controlBytes = 1536 ∧
      e.state.accounting.controlBytes ≤ (sampleSetup 1536).cfg.quota.maxControlBytes := by
  have hrun : (run (engineStep (sampleSetup 1536)) (Engine.closed []) sampleMoves).map
      (fun e => (e.opened, e.wal.length, e.state.readOnlyReason, e.state.accounting.controlBytes)) =
        some (true, 4, none, 1536) := by
    decide +kernel
  have hfinds : RunMeets (engineStep (sampleSetup 1536)) (FindsControlRoom (sampleSetup 1536))
      (Engine.closed []) sampleMoves := by
    decide +kernel
  obtain ⟨e, he, hvalues⟩ := map_eq_some_iff.mp hrun
  simp only [Prod.mk.injEq] at hvalues
  exact ⟨e, he, hvalues.1, hvalues.2.1, hvalues.2.2.1, hvalues.2.2.2, (counters_within_quota hfinds he).1.2.2.1⟩

/-- With a quota of one control record a create and a close are admitted, two records are charged, and
the next restart makes the store read-only. -/
theorem close_exceeds_control_quota : ∃ e, run (engineStep (sampleSetup 512)) (Engine.closed [])
        [.restart sampleStartup, .request (.create sampleCreateInput), .request (.close sampleCloseInput)] = some e ∧
      (sampleSetup 512).cfg.quota.maxControlBytes < e.state.accounting.controlBytes ∧
      (openStore (sampleSetup 512) sampleStartup e.wal).2.state.readOnlyReason = some .recoveredQuotaExceeded := by
  have hrun : (run (engineStep (sampleSetup 512)) (Engine.closed [])
      [.restart sampleStartup, .request (.create sampleCreateInput), .request (.close sampleCloseInput)]).map
      (fun e => (e.state.accounting.controlBytes,
        (openStore (sampleSetup 512) sampleStartup e.wal).2.state.readOnlyReason)) =
        some (1024, some .recoveredQuotaExceeded) := by
    decide +kernel
  obtain ⟨e, he, hvalues⟩ := map_eq_some_iff.mp hrun
  obtain ⟨hcontrol, hreason⟩ := Prod.mk.inj hvalues
  refine ⟨e, he, ?_, hreason⟩
  rw [hcontrol]
  decide

end Runs

end HiveRelay.Inbox
