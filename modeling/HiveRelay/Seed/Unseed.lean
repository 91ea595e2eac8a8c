import HiveRelay.Lib.Run
import HiveRelay.Seed.Request

/-!
# Replays of unseed requests

A publisher signs the key of an app with a time. The request is let in while it is not older than five minutes
and not more than a minute ahead of the clock, and its signature is its nonce. A nonce is forgotten six minutes
after it was seen, so not before the time it was signed with is too old.

## Main definitions

* `Guarded` — what was emitted is seen while its time passes

## Main results

* `unseed_emitted_once` — a request is let in once
-/

namespace HiveRelay.Seed

open List Option OrderedMap
open Codec (maxSafeInteger)

/-! ### Messages -/

/-- What is decoded. A field that is missing is empty: its length is refused too. A timestamp that is not an
integer is `none`. -/
structure UnseedMessage where
  error : Option String
  appKey : Bytes
  timestamp : Option ℤ
  (publisherPubkey publisherSignature : Bytes)
deriving DecidableEq

/-- The timestamp, of a message that has one. -/
def UnseedMessage.time (m : UnseedMessage) : ℤ := m.timestamp.getD 0

def unseedPayload (appKey : Bytes) (timestamp : ℤ) : Bytes :=
  appKey ++ Bytes.ofAscii "unseed" ++ Bytes.ofNat 8 timestamp.toNat

def isSafeTimestamp (timestamp : Option ℤ) : Bool :=
  timestamp.any fun t : ℤ => decide (0 ≤ t ∧ t ≤ maxSafeInteger)

def verifyUnseedSignature (verify : Verify) (m : UnseedMessage) : Bool :=
  if m.appKey.length ≠ 32 ∨ isSafeTimestamp m.timestamp = false ∨ m.publisherPubkey.length ≠ 32 ∨
      m.publisherSignature.length ≠ 64 then false
  else verify m.publisherSignature (unseedPayload m.appKey m.time) m.publisherPubkey

def keyHex (key : Bytes) : Option Bytes := if key.length = 32 then some key else none

inductive UnseedEvent where
  | invalidUnseed (appKey : Option Bytes) (reason : String)
  | unseedRequest (m : UnseedMessage)

/-! ### The guard -/

/-- `_seenUnseedNonces`, with what is emitted. A key stands for its hex text. -/
structure UnseedGuard where
  seen : OrderedMap Bytes ℕ
  clock : ℕ
  events : List UnseedEvent

def UnseedGuard.init (clock : ℕ) : UnseedGuard := ⟨.empty, clock, []⟩

def UnseedGuard.emit (s : UnseedGuard) (e : UnseedEvent) : UnseedGuard := { s with events := s.events ++ [e] }

/-- The requests that are emitted. -/
def UnseedGuard.unseeded (s : UnseedGuard) : List UnseedMessage :=
  s.events.filterMap fun
    | .unseedRequest m => some m
    | .invalidUnseed _ _ => none

def maximumAgeMs : ℤ := 5 * 60 * 1000

def maximumAheadMs : ℤ := 60000

/-- `_onUnseedRequest`, with the answer of the rate limiter and the two times that are read. -/
def onUnseedRequest (verify : Verify) (s : UnseedGuard) (msg : Option UnseedMessage) (allowed : Bool)
    (checkedAt seenAt : ℕ) : UnseedGuard :=
  match msg with
  | none => s.emit (.invalidUnseed none "malformed unseed request")
  | some m =>
    match m.error with
    | some reason => s.emit (.invalidUnseed (keyHex m.appKey) reason)
    | none =>
      if allowed = false then s
      else if verifyUnseedSignature verify m = false then s.emit (.invalidUnseed (keyHex m.appKey) "bad signature")
      else if checkedAt - m.time > maximumAgeMs ∨ checkedAt - m.time < -maximumAheadMs then
        s.emit (.invalidUnseed (some m.appKey) "stale timestamp")
      else if s.seen.has m.publisherSignature then s
      else { s with seen := s.seen.set m.publisherSignature seenAt }.emit (.unseedRequest m)

def evictStaleNonces (s : UnseedGuard) (now : ℕ) : UnseedGuard :=
  { s with seen := s.seen.filter fun _ seenAt => decide (¬ (now : ℤ) - seenAt > 6 * 60 * 1000) }

inductive UnseedMove where
  | message (msg : Option UnseedMessage) (allowed : Bool) (checkedAt seenAt : ℕ)
  | evict (now : ℕ)

/-- The clock does not go back. -/
def unseedStep (verify : Verify) (s : UnseedGuard) : UnseedMove → Option UnseedGuard
  | .message msg allowed checkedAt seenAt =>
    if s.clock ≤ checkedAt ∧ checkedAt ≤ seenAt then
      some { onUnseedRequest verify s msg allowed checkedAt seenAt with clock := seenAt }
    else none
  | .evict now => if s.clock ≤ now then some { evictStaleNonces s now with clock := now } else none

/-- A signature is of one payload only, whoever the publisher is. -/
def SignsOnce (verify : Verify) : Prop :=
  ∀ signature payload payload' pubkey pubkey', verify signature payload pubkey = true →
    verify signature payload' pubkey' = true → payload = payload'

/-! ### What is signed -/

section Signature

variable {verify : Verify} {m m' : UnseedMessage}

theorem verifyUnseedSignature_eq_true : verifyUnseedSignature verify m = true ↔
    m.appKey.length = 32 ∧ isSafeTimestamp m.timestamp = true ∧ m.publisherPubkey.length = 32 ∧
      m.publisherSignature.length = 64 ∧
      verify m.publisherSignature (unseedPayload m.appKey m.time) m.publisherPubkey = true := by
  unfold verifyUnseedSignature
  split <;> grind

theorem time_of_isSafeTimestamp (h : isSafeTimestamp m.timestamp = true) :
    m.timestamp = some m.time ∧ 0 ≤ m.time ∧ m.time ≤ maxSafeInteger := by
  unfold UnseedMessage.time
  cases htimestamp : m.timestamp with
  | none =>
    rw [htimestamp] at h
    cases h
  | some t =>
    rw [htimestamp] at h
    exact ⟨rfl, of_decide_eq_true h⟩

/-- **The time is signed.** Requests with one signature are of the same time. -/
theorem time_eq_of_verified (hsigns : SignsOnce verify) (hm : verifyUnseedSignature verify m = true)
    (hm' : verifyUnseedSignature verify m' = true) (hsame : m.publisherSignature = m'.publisherSignature) :
    m.time = m'.time := by
  obtain ⟨-, hsafe, -, -, hv⟩ := verifyUnseedSignature_eq_true.mp hm
  obtain ⟨-, hsafe', -, -, hv'⟩ := verifyUnseedSignature_eq_true.mp hm'
  rw [hsame] at hv
  have hpayload := hsigns _ _ _ _ _ hv hv'
  have htimes := (append_inj' hpayload (by simp)).2
  have hbound := (time_of_isSafeTimestamp hsafe).2
  have hbound' := (time_of_isSafeTimestamp hsafe').2
  unfold maxSafeInteger at hbound hbound'
  have hnat := Bytes.ofNat_injective (by omega) (by omega) htimes
  omega

end Signature

/-! ### A run -/

section Run

variable {verify : Verify} {s s' : UnseedGuard}

/-- The message is let in at a time. -/
structure LetIn (verify : Verify) (s : UnseedGuard) (m : UnseedMessage) (checkedAt : ℕ) : Prop where
  verified : verifyUnseedSignature verify m = true
  fresh : checkedAt ≤ m.time + maximumAgeMs
  notAhead : m.time ≤ checkedAt + maximumAheadMs
  unseen : s.seen.get? m.publisherSignature = none

/-- A message leaves the nonces and what is emitted as they are, or it is let in. -/
theorem onUnseedRequest_cases (msg : Option UnseedMessage) (allowed : Bool) (checkedAt seenAt : ℕ) :
    (onUnseedRequest verify s msg allowed checkedAt seenAt).seen = s.seen ∧
        (onUnseedRequest verify s msg allowed checkedAt seenAt).unseeded = s.unseeded ∨
      ∃ m, LetIn verify s m checkedAt ∧
        (onUnseedRequest verify s msg allowed checkedAt seenAt).seen = s.seen.set m.publisherSignature seenAt ∧
        (onUnseedRequest verify s msg allowed checkedAt seenAt).unseeded = s.unseeded ++ [m] := by
  unfold onUnseedRequest
  split
  · exact .inl ⟨rfl, by simp [UnseedGuard.unseeded, UnseedGuard.emit]⟩
  · next m =>
    split
    · exact .inl ⟨rfl, by simp [UnseedGuard.unseeded, UnseedGuard.emit]⟩
    · split_ifs with _ hverified htime hseen
      · exact .inl ⟨rfl, rfl⟩
      · exact .inl ⟨rfl, by simp [UnseedGuard.unseeded, UnseedGuard.emit]⟩
      · exact .inl ⟨rfl, by simp [UnseedGuard.unseeded, UnseedGuard.emit]⟩
      · exact .inl ⟨rfl, rfl⟩
      · refine .inr ⟨m, ⟨Bool.eq_true_of_not_eq_false hverified, by omega, by omega, ?_⟩, rfl,
          by simp [UnseedGuard.unseeded, UnseedGuard.emit]⟩
        exact has_eq_false_iff.mp (Bool.eq_false_of_not_eq_true hseen)

/-- The nonce of what is emitted is kept while its time can pass, and was not seen long before that time. -/
structure Guarded (verify : Verify) (s : UnseedGuard) : Prop where
  verified : ∀ m ∈ s.unseeded, verifyUnseedSignature verify m = true
  kept : ∀ m ∈ s.unseeded, s.clock ≤ m.time + maximumAgeMs →
    ∃ seenAt, s.seen.get? m.publisherSignature = some seenAt ∧ m.time ≤ seenAt + maximumAheadMs
  later : s.unseeded.Pairwise fun m m' => m.publisherSignature = m'.publisherSignature → m.time < m'.time

theorem Guarded.evict (hs : Guarded verify s) {now : ℕ} (hclock : s.clock ≤ now) :
    Guarded verify { evictStaleNonces s now with clock := now } := by
  refine ⟨hs.verified, fun m hm hpasses => ?_, hs.later⟩
  change (now : ℤ) ≤ m.time + maximumAgeMs at hpasses
  obtain ⟨seenAt, hseen, hahead⟩ := hs.kept m hm (by omega)
  refine ⟨seenAt, ?_, hahead⟩
  -- the two tolerances meet: five minutes back and one ahead are the six of the nonce
  have hstays : ¬ (now : ℤ) - seenAt > 6 * 60 * 1000 := by
    unfold maximumAgeMs at hpasses
    unfold maximumAheadMs at hahead
    omega
  show (s.seen.filter _).get? _ = _
  rw [get?_filter, hseen]
  exact if_pos (decide_eq_true hstays)

/-- **A message** keeps the guard. -/
theorem Guarded.message (hs : Guarded verify s) {msg : Option UnseedMessage} {allowed : Bool} {checkedAt seenAt : ℕ}
    (hclock : s.clock ≤ checkedAt) (hread : checkedAt ≤ seenAt) :
    Guarded verify { onUnseedRequest verify s msg allowed checkedAt seenAt with clock := seenAt } := by
  obtain ⟨hseen, hunseeded⟩ | ⟨m, hletIn, hseen, hunseeded⟩ :=
    @onUnseedRequest_cases verify s msg allowed checkedAt seenAt
  · refine ⟨fun m hm => hs.verified m (hunseeded ▸ hm), fun m hm hpasses => ?_, hunseeded ▸ hs.later⟩
    change (seenAt : ℤ) ≤ m.time + maximumAgeMs at hpasses
    show ∃ seenAt, (onUnseedRequest _ _ _ _ _ _).seen.get? _ = _ ∧ _
    rw [hseen]
    exact hs.kept m (hunseeded ▸ hm) (by omega)
  · -- what can still pass has its nonce, so its signature is another one
    have hother : ∀ e ∈ s.unseeded, s.clock ≤ e.time + maximumAgeMs → e.publisherSignature ≠ m.publisherSignature := by
      intro e he hpasses hsame
      obtain ⟨at', hkept, -⟩ := hs.kept e he hpasses
      rw [hsame, hletIn.unseen] at hkept
      cases hkept
    refine ⟨?_, ?_, ?_⟩
    · show ∀ e ∈ (onUnseedRequest _ _ _ _ _ _).unseeded, _
      rw [hunseeded]
      intro e he
      obtain he | rfl := mem_append.mp he |>.imp_right mem_singleton.mp
      · exact hs.verified e he
      · exact hletIn.verified
    · show ∀ e ∈ (onUnseedRequest _ _ _ _ _ _).unseeded, (seenAt : ℤ) ≤ _ →
        ∃ at', (onUnseedRequest _ _ _ _ _ _).seen.get? _ = _ ∧ _
      rw [hunseeded, hseen]
      intro e he hpasses
      obtain he | rfl := mem_append.mp he |>.imp_right mem_singleton.mp
      · rw [get?_set_of_ne (hother e he (by omega))]
        exact hs.kept e he (by omega)
      · exact ⟨seenAt, get?_set_self, by have := hletIn.notAhead; omega⟩
    · show (onUnseedRequest _ _ _ _ _ _).unseeded.Pairwise _
      rw [hunseeded, pairwise_append]
      refine ⟨hs.later, pairwise_singleton _ _, fun e he b hb hsame => ?_⟩
      obtain rfl := mem_singleton.mp hb
      have hstale : ¬ (s.clock : ℤ) ≤ e.time + maximumAgeMs := fun hpasses => hother e he hpasses hsame
      have := hletIn.fresh
      omega

theorem Guarded.step {m : UnseedMove} (hs : Guarded verify s) (h : unseedStep verify s m = some s') :
    Guarded verify s' := by
  cases m with
  | message msg allowed checkedAt seenAt =>
    obtain ⟨⟨hclock, hread⟩, rfl⟩ := ite_none_right_eq_some.mp h |>.imp_right some.inj
    exact hs.message hclock hread
  | evict now =>
    obtain ⟨hclock, rfl⟩ := ite_none_right_eq_some.mp h |>.imp_right some.inj
    exact hs.evict hclock

end Run

/-- **Let in once.** In every run, what is emitted is signed with its own key and time, its nonce is seen while
its time can pass, and a signature is emitted again for a later time only: so it is emitted once. -/
theorem unseed_emitted_once (verify : Verify) (clock : ℕ) (moves : List UnseedMove) {s : UnseedGuard}
    (hrun : run (unseedStep verify) (.init clock) moves = some s) :
    (∀ m ∈ s.unseeded, m.timestamp = some m.time ∧
      verify m.publisherSignature (unseedPayload m.appKey m.time) m.publisherPubkey = true) ∧
    (∀ m ∈ s.unseeded, s.clock ≤ m.time + maximumAgeMs → s.seen.has m.publisherSignature = true) ∧
    s.unseeded.Pairwise (fun m m' => m.publisherSignature = m'.publisherSignature → m.time < m'.time) ∧
    (SignsOnce verify → (s.unseeded.map (·.publisherSignature)).Nodup) := by
  have hs : Guarded verify s := run_preserves (Guarded verify) (fun _ _ _ hs h => hs.step h)
    ⟨fun _ h => (by cases h), fun _ h => (by cases h), .nil⟩ hrun
  refine ⟨fun m hm => ?_, fun m hm hpasses => ?_, hs.later, fun hsigns => ?_⟩
  · obtain ⟨-, hsafe, -, -, hverified⟩ := verifyUnseedSignature_eq_true.mp (hs.verified m hm)
    exact ⟨(time_of_isSafeTimestamp hsafe).1, hverified⟩
  · obtain ⟨seenAt, hseen, -⟩ := hs.kept m hm hpasses
    exact has_eq_true_iff.mpr ⟨seenAt, hseen⟩
  · rw [List.Nodup, pairwise_map]
    refine hs.later.imp_of_mem fun hm hm' hlater hsame => ?_
    have hsameTime := time_eq_of_verified hsigns (hs.verified _ hm) (hs.verified _ hm') hsame
    have := hlater hsame
    omega

/-- A signature that begins with its payload. -/
def echoVerify : Verify := fun signature payload _ => decide (signature.take 46 = payload)

theorem echoVerify_signsOnce : SignsOnce echoVerify := fun _ _ _ _ _ h h' =>
  (of_decide_eq_true h).symm.trans (of_decide_eq_true h')

def sampleUnseed (timestamp : ℕ) : UnseedMessage where
  error := none
  appKey := replicate 32 1
  timestamp := some timestamp
  publisherPubkey := replicate 32 2
  publisherSignature := unseedPayload (replicate 32 1) timestamp ++ replicate 18 0

/-- A request of a minute ahead is sent again when its nonce is about to be forgotten, and after that. -/
def sampleMoves : List UnseedMove :=
  [.message (some (sampleUnseed 60000)) true 0 0, .evict 360000, .message (some (sampleUnseed 60000)) true 360000 360000,
    .evict 360001, .message (some (sampleUnseed 60000)) true 360001 360001]

theorem unseed_emitted_once_sample : ∃ s, run (unseedStep echoVerify) (.init 0) sampleMoves = some s ∧
    s.unseeded = [sampleUnseed 60000] ∧ (s.unseeded.map (·.publisherSignature)).Nodup := by
  have hruns : (run (unseedStep echoVerify) (.init 0) sampleMoves).any
      (fun s => decide (s.unseeded = [sampleUnseed 60000])) = true := by decide +kernel
  obtain ⟨s, hrun, hs⟩ := any_eq_true _ _ |>.mp hruns
  exact ⟨s, hrun, of_decide_eq_true hs, (unseed_emitted_once echoVerify 0 sampleMoves hrun).2.2.2 echoVerify_signsOnce⟩

end HiveRelay.Seed
