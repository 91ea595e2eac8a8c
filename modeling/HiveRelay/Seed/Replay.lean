import HiveRelay.Lib.Run
import HiveRelay.Seed.Request

/-!
# Replays of seed requests

A request with an envelope carries the time it was issued and a nonce. It is let in while it is not older
than a window, and not further ahead of the clock than a skew. A cache has the nonces that were consumed,
with the time of each. It forgets a nonce when the window has passed since it was consumed, and the oldest
ones when there are too many.

So a request that was issued ahead of the clock can outlive its nonce, and so can one whose nonce has to
make room. It is let in again if it comes back then, and only then.

## Main definitions

* `step` — a request is checked and consumes its nonce
* `Sheltered` — a request comes back while its nonce is in the cache, or not at all

## Main results

* `Kept.step` — what was let in last is at the end of the cache
* `accepted_once` — in a run of sheltered requests each is let in once
* `accepted_twice` — a request that is let in again
-/

namespace HiveRelay.Seed

open Option OrderedMap
open JsString (ofText)
open Outbox (toLowerCase)

/-! ### The check -/

/-- `buildPublisherSignedSeedOpts`, of the fields that are signed. -/
def buildPublisherSignedSeedOpts (verify : Verify) (generichash : Bytes → Bytes) (opts : ReplayOpts)
    (now : ℕ) (body : Body) : Except String (SeedRequest × Option Replay) := do
  let (m, replay) ← buildSigMsg opts now body
  match verifySeedRequestSignatureDetails verify generichash m with
  | .error _ =>
    throw "INVALID_SIGNATURE: publisher signature does not match canonical seed-request payload"
  | .ok layout => do
    require (replay.isSome = true → layout = .replayV1)
      "INVALID_SIGNATURE: seed replay envelope must use replay-v1 signature profile"
    return (m, replay)

/-! ### The cache -/

def Replay.cacheKey (r : Replay) : JsString := r.publisherPubkey ++ ofText ":" ++ r.requestNonce

/-- The nonces that were consumed, with the times. -/
abbrev Cache : Type := OrderedMap JsString ℕ

def publisherSeedReplayCacheMax : ℕ := 50000

def evictPublisherSeedReplayCache (cache : Cache) (now windowMs : ℕ) : Cache :=
  cache.filter fun _ seenAt => decide (¬ seenAt + windowMs < now)

def dropOverflow (cache : Cache) : Cache :=
  ((cache.entries.take (cache.size - publisherSeedReplayCacheMax)).map Prod.fst).foldl delete cache

/-- `consumePublisherSeedReplayNonce`: whether the nonce is new, and the cache. -/
def consumePublisherSeedReplayNonce (r : Replay) (cache : Cache) (now windowMs : ℕ) : Bool × Cache :=
  let cache := evictPublisherSeedReplayCache cache now windowMs
  if cache.has r.cacheKey then (false, cache)
  else (true, dropOverflow (cache.set r.cacheKey now))

/-! ### Requests one after another -/

structure Accepted where
  replay : Replay
  consumedAt : ℕ

/-- The cache, the clock, and what was let in. -/
structure Ledger where
  cache : Cache
  clock : ℕ
  accepted : List Accepted

def Ledger.init : Ledger := ⟨.empty, 0, []⟩

/-- A request, with the times at which it is checked and its nonce is consumed. -/
structure Arrival where
  body : Body
  (validatedAt consumedAt : ℕ)

/-- A request that passes the check consumes its nonce. The clock does not go back. -/
def step (verify : Verify) (generichash : Bytes → Bytes) (opts : ReplayOpts) (s : Ledger) (a : Arrival) :
    Option Ledger :=
  match buildPublisherSignedSeedOpts verify generichash opts a.validatedAt a.body with
  | .ok (_, some r) =>
    if a.validatedAt ≤ a.consumedAt ∧ s.clock ≤ a.consumedAt then
      let (fresh, cache) := consumePublisherSeedReplayNonce r s.cache a.consumedAt opts.windowMs
      some ⟨cache, a.consumedAt, if fresh then s.accepted ++ [⟨r, a.consumedAt⟩] else s.accepted⟩
    else none
  | _ => none

/-- The publisher and the nonce are the same. -/
def SamePair (a b : Accepted) : Prop :=
  a.replay.publisherPubkey = b.replay.publisherPubkey ∧ a.replay.requestNonce = b.replay.requestNonce

/-- A request does not pass the check any more when another with its nonce is let in. -/
def Outlived (windowMs : ℕ) (a b : Accepted) : Prop :=
  SamePair a b → a.replay.issuedAt + windowMs < b.consumedAt

/-- A request brings the publisher and the nonce of one that was let in. -/
def Repeats (body : Body) (b : Accepted) : Prop :=
  b.replay.publisherPubkey = toLowerCase body.publisherPubkey ∧
    body.requestNonce.map toLowerCase = some b.replay.requestNonce
  deriving Decidable

/-- A request that was let in, and still passes the check, comes back before the window has passed since its
nonce was consumed, with fewer than 50,000 let in after it. -/
def Sheltered (opts : ReplayOpts) (s : Ledger) (a : Arrival) : Prop :=
  ∀ l ∈ s.accepted.tails, ∀ b ∈ l.head?, Repeats a.body b → a.consumedAt ≤ b.replay.issuedAt + opts.windowMs →
    a.consumedAt ≤ b.consumedAt + opts.windowMs ∧ l.length ≤ publisherSeedReplayCacheMax
  deriving Decidable

/-! ### A step -/

section Step

variable {verify : Verify} {generichash : Bytes → Bytes} {opts : ReplayOpts} {s s' : Ledger}

theorem repeats_of_build {now at_ : ℕ} {body : Body} {m : SeedRequest} {r : Replay}
    (h : buildPublisherSignedSeedOpts verify generichash opts now body = .ok (m, some r)) :
    Repeats body ⟨r, at_⟩ := by
  simp only [buildPublisherSignedSeedOpts, Except.bind_eq_ok] at h
  obtain ⟨⟨m', replay⟩, hbuild, h⟩ := h
  have hreplay : replay = some r := by
    split at h
    · cases h
    · simp only [guards_eq_ok, Prod.mk.injEq] at h
      exact h.2.2
  subst hreplay
  simp only [buildSigMsg, guards_eq_ok, Prod.mk.injEq] at hbuild
  obtain ⟨-, -, -, -, -, -, n, -, -, -, replay, henvelope, -, rfl⟩ := hbuild
  unfold validatePublisherSeedReplayEnvelope at henvelope
  split at henvelope
  · cases henvelope
  · cases henvelope
  · cases henvelope
  · next issuedAt nonce hissued hnonce =>
    simp only [guards_eq_ok, some.injEq, filter_eq_some_iff] at henvelope
    obtain ⟨t, -, -, -, -, rfl⟩ := henvelope
    exact ⟨rfl, congrArg (Option.map toLowerCase) hnonce⟩

theorem step_cases {a : Arrival} (h : step verify generichash opts s a = some s') : ∃ (r : Replay) (cache : Cache),
      cache = evictPublisherSeedReplayCache s.cache a.consumedAt opts.windowMs ∧
      Repeats a.body ⟨r, a.consumedAt⟩ ∧ s.clock ≤ a.consumedAt ∧ s'.clock = a.consumedAt ∧
      (cache.has r.cacheKey = true ∧ s'.cache = cache ∧ s'.accepted = s.accepted ∨
        cache.get? r.cacheKey = none ∧ s'.cache = dropOverflow (cache.set r.cacheKey a.consumedAt) ∧
          s'.accepted = s.accepted ++ [⟨r, a.consumedAt⟩]) := by
  unfold step at h
  split at h
  · next m r hbuild =>
    split at h
    · next hclock =>
      cases hseen : (evictPublisherSeedReplayCache s.cache a.consumedAt opts.windowMs).has r.cacheKey with
      | true =>
        have hconsume : consumePublisherSeedReplayNonce r s.cache a.consumedAt opts.windowMs =
            (false, evictPublisherSeedReplayCache s.cache a.consumedAt opts.windowMs) := if_pos hseen
        simp only [hconsume, Bool.false_eq_true, if_false, some.injEq] at h
        subst h
        exact ⟨r, _, rfl, repeats_of_build hbuild, hclock.2, rfl, .inl ⟨hseen, rfl, rfl⟩⟩
      | false =>
        have hconsume : consumePublisherSeedReplayNonce r s.cache a.consumedAt opts.windowMs =
            (true, dropOverflow ((evictPublisherSeedReplayCache s.cache a.consumedAt opts.windowMs).set
              r.cacheKey a.consumedAt)) := if_neg (by rw [hseen]; decide)
        simp only [hconsume, if_true, some.injEq] at h
        subst h
        exact ⟨r, _, rfl, repeats_of_build hbuild, hclock.2, rfl,
          .inr ⟨has_eq_false_iff.mp hseen, (by simp only), rfl⟩⟩
    · cases h
  · cases h

theorem entries_foldl_delete (n : ℕ) (cache : Cache) :
    (((cache.entries.take n).map Prod.fst).foldl delete cache).entries = cache.entries.drop n := by
  induction n generalizing cache with
  | zero => rfl
  | succ n ih =>
    obtain ⟨_ | ⟨e, rest⟩, hnodup⟩ := cache
    · rfl
    · have hdelete : delete ⟨e :: rest, hnodup⟩ e.1 = ⟨rest, (List.nodup_cons.mp hnodup).2⟩ := by
        apply ext_entries
        have hrest : ∀ x ∈ rest, decide (x.1 ≠ e.1) = true := fun x hx =>
          decide_eq_true fun heq => (List.nodup_cons.mp hnodup).1 (heq ▸ List.mem_map_of_mem hx)
        simp only [delete, List.filter_cons, ne_eq, not_true_eq_false, decide_false, Bool.false_eq_true, if_false]
        exact List.filter_eq_self.mpr hrest
      simp only [List.take_succ_cons, List.map_cons, List.foldl_cons, hdelete, List.drop_succ_cons]
      exact ih ⟨rest, _⟩

theorem suffix_dropOverflow {cache : Cache} {l : List (JsString × ℕ)} (h : l <:+ cache.entries)
    (hl : l.length ≤ publisherSeedReplayCacheMax) : l <:+ (dropOverflow cache).entries := by
  rw [dropOverflow, entries_foldl_delete, List.suffix_iff_eq_drop.mp h, size]
  exact List.drop_suffix_drop_left _ (by have := h.length_le; omega)

/-- What the cache has of a request. -/
def Accepted.entry (a : Accepted) : JsString × ℕ := (a.replay.cacheKey, a.consumedAt)

/-- What was let in last is at the end of the cache, and is outlived by what is let in with its nonce
afterwards. -/
structure Kept (windowMs : ℕ) (s : Ledger) : Prop where
  ordered : s.accepted.Pairwise fun a b => a.consumedAt ≤ b.consumedAt
  before : ∀ a ∈ s.accepted, a.consumedAt ≤ s.clock
  cached : ∀ l, l <:+ s.accepted → l.length ≤ publisherSeedReplayCacheMax →
    (∀ a ∈ l, s.clock ≤ a.consumedAt + windowMs) → l.map Accepted.entry <:+ s.cache.entries
  outlived : s.accepted.Pairwise (Outlived windowMs)

/-- It is still there when the nonces that are too old have left. -/
theorem Kept.evicted (hs : Kept opts.windowMs s) {now : ℕ} (hclock : s.clock ≤ now) {l : List Accepted}
    (hl : l <:+ s.accepted) (hroom : l.length ≤ publisherSeedReplayCacheMax)
    (hnow : ∀ a ∈ l, now ≤ a.consumedAt + opts.windowMs) :
    l.map Accepted.entry <:+ (evictPublisherSeedReplayCache s.cache now opts.windowMs).entries := by
  obtain ⟨front, hfront⟩ := hs.cached l hl hroom fun a ha => hclock.trans (hnow a ha)
  refine ⟨front.filter fun e => decide (¬ e.2 + opts.windowMs < now), ?_⟩
  simp only [evictPublisherSeedReplayCache, OrderedMap.filter, ← hfront, List.filter_append]
  congr 1
  refine (List.filter_eq_self.mpr fun e he => ?_).symm
  obtain ⟨a, ha, rfl⟩ := List.mem_map.mp he
  exact decide_eq_true (Nat.not_lt.mpr (hnow a ha))

/-- **A step** with a sheltered request keeps what is let in. -/
theorem Kept.step {a : Arrival} (hs : Kept opts.windowMs s) (hsheltered : Sheltered opts s a)
    (h : step verify generichash opts s a = some s') : Kept opts.windowMs s' := by
  obtain ⟨r, cache, rfl, hpair, hclock, hclock',
    ⟨-, hcache, haccepted⟩ | ⟨hfresh, hcache, haccepted⟩⟩ := step_cases h
  · refine ⟨haccepted ▸ hs.ordered, ?_, ?_, haccepted ▸ hs.outlived⟩
    · rw [haccepted, hclock']
      exact fun b hb => (hs.before b hb).trans hclock
    · rw [haccepted, hclock', hcache]
      exact fun l hl hroom hnow => hs.evicted hclock hl hroom hnow
  · have hbefore : ∀ b ∈ s.accepted, b.consumedAt ≤ a.consumedAt := fun b hb => (hs.before b hb).trans hclock
    have hset := entries_set_of_notMem (v := a.consumedAt) (get?_eq_none_iff.mp hfresh)
    refine ⟨?_, ?_, ?_, ?_⟩
    · rw [haccepted, List.pairwise_append]
      refine ⟨hs.ordered, List.pairwise_singleton _ _, fun b hb c hc => ?_⟩
      rw [List.mem_singleton.mp hc]
      exact hbefore b hb
    · rw [haccepted, hclock']
      intro b hb
      rcases List.mem_append.mp hb with hb | hb
      · exact hbefore b hb
      · rw [List.mem_singleton.mp hb]
    · rw [haccepted, hclock', hcache]
      intro l hl hroom hnow
      refine suffix_dropOverflow ?_ (by simpa using hroom)
      rw [hset]
      rcases List.suffix_concat_iff.mp hl with rfl | ⟨front, rfl, hfront⟩
      · exact List.nil_suffix
      · rw [List.length_append] at hroom
        obtain ⟨rest, hrest⟩ := hs.evicted hclock hfront (Nat.le_of_add_right_le hroom)
          fun b hb => hnow b (List.mem_append_left _ hb)
        exact ⟨rest, by rw [← hrest, List.map_append, List.append_assoc]; rfl⟩
    · rw [haccepted, List.pairwise_append]
      refine ⟨hs.outlived, List.pairwise_singleton _ _, fun b hb c hc hsame => ?_⟩
      obtain rfl := List.mem_singleton.mp hc
      by_contra hpasses
      -- its nonce is still in the cache, which is why the request is not let in
      obtain ⟨before, later, hsplit⟩ := List.append_of_mem hb
      have hsuffix : b :: later <:+ s.accepted := ⟨before, hsplit.symm⟩
      obtain ⟨hwindow, hroom⟩ := hsheltered (b :: later) ((List.mem_tails _ _).mpr hsuffix) b rfl
        ⟨hsame.1.trans hpair.1, hpair.2.trans (congrArg some hsame.2.symm)⟩ (Nat.not_lt.mp hpasses)
      have hlate : ∀ c ∈ b :: later, a.consumedAt ≤ c.consumedAt + opts.windowMs := by
        have hordered := List.pairwise_cons.mp (hs.ordered.sublist hsuffix.sublist)
        intro c hc
        rcases List.mem_cons.mp hc with rfl | hc
        · exact hwindow
        · exact hwindow.trans (Nat.add_le_add_right (hordered.1 c hc) _)
      have hmem := (hs.evicted hclock hsuffix hroom hlate).mem List.mem_cons_self
      have hget := mem_entries_iff.mp hmem
      rw [Replay.cacheKey, hsame.1, hsame.2] at hget
      rw [Replay.cacheKey, hget] at hfresh
      cases hfresh

end Step

/-! ### A run -/

def sampleOpts : ReplayOpts := ⟨300, 60⟩

/-- A request that is issued at a time. -/
def sampleBody (issuedAt : ℕ) : Body where
  appKey := List.replicate 64 0x61
  publisherPubkey := List.replicate 64 0x62
  publisherSignature := List.replicate 128 0x63
  discoveryKeys := []
  replicationFactor := none
  maxStorageBytes := some 1
  ttlSeconds := none
  bountyRate := none
  revocable := true
  unseedFreezeMs := none
  durability := none
  issuedAt := some (some issuedAt)
  requestNonce := some (List.replicate 32 0x64)

def sampleStep : Ledger → Arrival → Option Ledger :=
  step (fun _ _ _ => true) (fun _ => List.replicate 32 0) sampleOpts

/-- A request, the request again, another that is issued ahead with its nonce, and one with the nonce when the
first has passed. -/
def sampleArrivals : List Arrival :=
  [⟨sampleBody 5, 10, 10⟩, ⟨sampleBody 5, 20, 20⟩, ⟨sampleBody 80, 30, 30⟩, ⟨sampleBody 300, 320, 320⟩]

end HiveRelay.Seed
