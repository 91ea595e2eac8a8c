import HiveRelay.Lib.Bytes
import HiveRelay.Lib.Guard
import HiveRelay.Lib.OrderedMap
import HiveRelay.Lib.Run
import Mathlib.Algebra.Order.BigOperators.Group.List
import Mathlib.Data.List.Perm.Subperm

/-!
# Bandwidth receipts

`BandwidthReceipt` of `packages/core/core/protocol/bandwidth-receipt.js`: a peer signs a receipt for the
bytes it got from a relay, and the relay collects it unless it has seen the nonce of the receipt in the
last sixty minutes. What is signed is the fields one after another, without their lengths: the bytes of a
receipt can be cut into fields in another way, and then they have another nonce. And a nonce that has left
the window is forgotten, while no one looks at the timestamp of a receipt.

Keys, signatures and amounts of another kind make the source throw; that is no acceptance either.

## Main definitions

* `Fresh` — a receipt that is cut as usual, with a nonce that is not forgotten
* `Remembered` — what a relay remembers

## Main results

* `Cut.eq_of_payload` — what is signed determines the nonce and the amount
* `receipt_counted_once` — in every run of fresh receipts each counts once
-/

namespace HiveRelay.Bandwidth

open List Option OrderedMap

structure Receipt where
  (relayPubkey peerPubkey : Bytes)
  bytesTransferred : ℤ
  timestamp : ℕ
  (sessionId nonce peerSignature : Bytes)

/-- Ed25519: the signature of a payload with the key of a peer, and its check. -/
structure Scheme where
  sign : Bytes → Bytes → Bytes
  verify : Bytes → Bytes → Bytes → Bool

/-- `MAX_BYTES`, and the default of `maxReceiptBytes`. -/
def maxBytes : ℤ := 100 * 1024 * 1024 * 1024 * 1024

/-- What is signed. `setUint32` writes a timestamp modulo 2^32. -/
def payload (r : Receipt) : Bytes :=
  r.relayPubkey ++ (r.peerPubkey ++ (Bytes.ofNat 8 r.bytesTransferred.toNat ++ (Bytes.ofNat 4 r.timestamp ++
    (r.sessionId ++ r.nonce))))

variable (S : Scheme)

/-- `createReceipt`, by the peer of a key, with the time it reads and the nonce it draws. -/
def createReceipt (peerPubkey relayPubkey : Bytes) (bytesTransferred : ℤ) (sessionId : Bytes) (now : ℕ)
    (nonce : Bytes) : Except String Receipt := do
  require (0 ≤ bytesTransferred ∧ bytesTransferred ≤ maxBytes) s!"Invalid bytesTransferred: {bytesTransferred}"
  let receipt : Receipt := ⟨relayPubkey, peerPubkey, bytesTransferred, now / 1000, sessionId, nonce, []⟩
  return { receipt with peerSignature := S.sign peerPubkey (payload receipt) }

/-- `verify`; sodium throws for a signature or a key of another length. -/
def verify (r : Receipt) : Bool :=
  decide (0 ≤ r.bytesTransferred ∧ r.bytesTransferred ≤ maxBytes) &&
    decide (r.peerSignature.length = 64 ∧ r.peerPubkey.length = 32) &&
    S.verify r.peerSignature (payload r) r.peerPubkey

/-- The buckets of nonces, by minute. -/
abbrev Buckets : Type := OrderedMap ℤ (List Bytes)

/-- The minute of a time: `Math.floor(now / this._nonceBucketSpanMs)`. -/
def bucketOf (now : ℕ) : ℤ := now / 60000

def bucketsToCheck : ℕ := 60

def isNonceSeen (buckets : Buckets) (nonce : Bytes) (now : ℕ) : Bool :=
  (range (bucketsToCheck + 1)).any fun i =>
    (buckets.get? (bucketOf now - i)).any fun bucket => nonce ∈ bucket

def markNonceSeen (buckets : Buckets) (nonce : Bytes) (now : ℕ) : Buckets :=
  let bucket := (buckets.get? (bucketOf now)).getD []
  (buckets.set (bucketOf now) (nonce :: bucket)).filter fun key _ => bucketOf now - bucketsToCheck ≤ key

/-- The buckets, with the receipts that were accepted, each with the minute its nonce was marked in. -/
structure State where
  buckets : Buckets
  collected : List (Receipt × ℤ)
  /-- The latest time that was read. -/
  clock : ℕ

def State.init : State := ⟨.empty, [], 0⟩

/-- A call of `collectReceipt`, with the two times it reads. A receipt without one of its required fields is
`none`. -/
structure Call where
  receipt : Option Receipt
  (seenAt markedAt : ℕ)

/-- `collectReceipt`, at non-decreasing times. -/
def collectReceipt (s : State) (call : Call) : Option State :=
  if s.clock ≤ call.seenAt ∧ call.seenAt ≤ call.markedAt then
    some <| match call.receipt with
    | none => { s with clock := call.markedAt }
    | some r =>
      if verify S r = false ∨ isNonceSeen s.buckets r.nonce call.seenAt = true then { s with clock := call.markedAt }
      else
        { buckets := markNonceSeen s.buckets r.nonce call.markedAt
          collected := s.collected ++ [(r, bucketOf call.markedAt)]
          clock := call.markedAt }
  else none

/-- A receipt whose signature is good is cut at the lengths of a key and a nonce, and its nonce was not marked
before the window. -/
def Fresh (s : State) (call : Call) : Prop :=
  ∀ r ∈ call.receipt, verify S r = true → r.relayPubkey.length = 32 ∧ r.nonce.length = 16 ∧
    ∀ c ∈ s.collected, c.1.nonce = r.nonce → bucketOf call.seenAt ≤ c.2 + bucketsToCheck
  deriving Decidable

/-- A receipt is cut at the lengths of keys and of a nonce, and its amount is in range. -/
structure Cut (r : Receipt) : Prop where
  relayPubkey : r.relayPubkey.length = 32
  peerPubkey : r.peerPubkey.length = 32
  nonce : r.nonce.length = 16
  bytesTransferred : 0 ≤ r.bytesTransferred ∧ r.bytesTransferred ≤ maxBytes

/-- A receipt that some peer created for a relay's key. -/
def Issued (r : Receipt) : Prop :=
  ∃ peerPubkey relayPubkey bytesTransferred sessionId now nonce,
    createReceipt S peerPubkey relayPubkey bytesTransferred sessionId now nonce = .ok r ∧
      peerPubkey.length = 32 ∧ relayPubkey.length = 32 ∧ nonce.length = 16

/-! ### What is signed -/

variable {S} {s s' : State} {r r' : Receipt}

theorem Issued.cut (h : Issued S r) : Cut r := by
  obtain ⟨_, _, _, _, _, _, hok, hpeer, hrelay, hnonce⟩ := h
  simp only [createReceipt, guards_eq_ok] at hok
  obtain ⟨hrange, rfl⟩ := hok
  exact ⟨hrelay, hpeer, hnonce, hrange⟩

theorem toNat_lt_of_le_maxBytes {n : ℤ} (h : n ≤ maxBytes) : n.toNat < 256 ^ 8 := by
  simp only [maxBytes] at h
  omega

/-- **Receipts that are cut alike** agree in the nonce and the amount, when what is signed agrees. -/
theorem Cut.eq_of_payload (h : Cut r) (h' : Cut r') (hpayload : payload r = payload r') :
    (r.nonce, r.bytesTransferred) = (r'.nonce, r'.bytesTransferred) := by
  obtain ⟨-, hrest⟩ := append_inj hpayload (h.relayPubkey.trans h'.relayPubkey.symm)
  obtain ⟨-, hrest⟩ := append_inj hrest (h.peerPubkey.trans h'.peerPubkey.symm)
  obtain ⟨hbytes, hrest⟩ := append_inj hrest (by simp)
  obtain ⟨-, hrest⟩ := append_inj hrest (by simp)
  have hnat := Bytes.ofNat_injective (toNat_lt_of_le_maxBytes h.bytesTransferred.2)
    (toNat_lt_of_le_maxBytes h'.bytesTransferred.2) hbytes
  rw [(append_inj' hrest (h.nonce.trans h'.nonce.symm)).2, Prod.mk.injEq]
  have := h.bytesTransferred.1
  have := h'.bytesTransferred.1
  exact ⟨rfl, by omega⟩

theorem cut_of_verify (h : verify S r = true) (hrelay : r.relayPubkey.length = 32) (hnonce : r.nonce.length = 16) :
    Cut r := by
  simp only [verify, Bool.and_eq_true, decide_eq_true_eq] at h
  exact ⟨hrelay, h.1.2.2, hnonce, h.1.1⟩

/-! ### What is remembered -/

/-- What was accepted is genuine, has a nonce of its own, and its nonce is still marked if the minute it was
marked in is in the window. -/
structure Remembered (S : Scheme) (s : State) : Prop where
  verified : ∀ c ∈ s.collected, verify S c.1 = true ∧ Cut c.1
  nodup : (s.collected.map fun c => c.1.nonce).Nodup
  marked : ∀ c ∈ s.collected, c.2 ≤ bucketOf s.clock ∧ (bucketOf s.clock ≤ c.2 + bucketsToCheck →
    ∃ bucket, s.buckets.get? c.2 = some bucket ∧ c.1.nonce ∈ bucket)

theorem bucketOf_mono {a b : ℕ} (h : a ≤ b) : bucketOf a ≤ bucketOf b :=
  Int.ediv_le_ediv (by decide) (Int.ofNat_le.mpr h)

theorem isNonceSeen_of_marked {buckets : Buckets} {nonce : Bytes} {now : ℕ} {minute : ℤ} {bucket : List Bytes}
    (hget : buckets.get? minute = some bucket) (hmem : nonce ∈ bucket) (hle : minute ≤ bucketOf now)
    (hwindow : bucketOf now ≤ minute + bucketsToCheck) : isNonceSeen buckets nonce now = true := by
  refine any_eq_true.mpr ⟨(bucketOf now - minute).toNat, mem_range.mpr (by omega), ?_⟩
  rw [Int.toNat_of_nonneg (by omega), sub_sub_cancel, hget]
  simpa using hmem

theorem Remembered.later (h : Remembered S s) {now : ℕ} (hle : s.clock ≤ now) :
    Remembered S { s with clock := now } :=
  ⟨h.verified, h.nodup, fun c hc => ⟨(h.marked c hc).1.trans (bucketOf_mono hle),
    fun hwindow => (h.marked c hc).2 ((bucketOf_mono hle).trans hwindow)⟩⟩

/-- **One call** keeps what was accepted in the window. -/
theorem Remembered.collect {call : Call} (h : Remembered S s) (hfresh : Fresh S s call)
    (hcall : collectReceipt S s call = some s') : Remembered S s' := by
  rw [collectReceipt, ite_none_right_eq_some] at hcall
  obtain ⟨⟨hclock, htimes⟩, hs'⟩ := hcall
  have hlater := h.later (hclock.trans htimes)
  cases hreceipt : call.receipt with
  | none =>
    rw [hreceipt] at hs'
    exact some.inj hs' ▸ hlater
  | some r =>
    simp only [hreceipt, some.injEq] at hs'
    split_ifs at hs' with hrejected
    · exact hs' ▸ hlater
    · rw [not_or, Bool.not_eq_false] at hrejected
      obtain ⟨hrelay, hnonce, hwindow⟩ := hfresh r hreceipt hrejected.1
      subst hs'
      -- a receipt that was accepted with this nonce would still be marked
      have hnew : ∀ c ∈ s.collected, c.1.nonce ≠ r.nonce := fun c hc hsame => by
        obtain ⟨hle, hmarked⟩ := h.marked c hc
        obtain ⟨bucket, hget, hmem⟩ := hmarked ((bucketOf_mono hclock).trans (hwindow c hc hsame))
        exact hrejected.2 (isNonceSeen_of_marked hget (hsame ▸ hmem) (hle.trans (bucketOf_mono hclock))
          (hwindow c hc hsame))
      refine ⟨?_, ?_, ?_⟩
      · rintro c hc
        rcases mem_append.mp hc with hc | hc
        · exact h.verified c hc
        · rw [mem_singleton.mp hc]
          exact ⟨hrejected.1, cut_of_verify hrejected.1 hrelay hnonce⟩
      · rw [map_append, nodup_append]
        refine ⟨h.nodup, nodup_singleton _, fun a ha b hb => ?_⟩
        obtain ⟨c, hc, rfl⟩ := mem_map.mp ha
        rw [mem_singleton.mp hb]
        exact hnew c hc
      · rintro c hc
        rw [markNonceSeen]
        rcases mem_append.mp hc with hc | hc
        · obtain ⟨hle, hmarked⟩ := hlater.marked c hc
          refine ⟨hle, fun hin => ?_⟩
          obtain ⟨bucket, hget, hmem⟩ := hmarked hin
          have hkeep : decide (bucketOf call.markedAt - bucketsToCheck ≤ c.2) = true :=
            decide_eq_true (sub_le_iff_le_add.mpr hin)
          rw [get?_filter, get?_set]
          split
          · next hsame =>
            rw [filter_some, if_pos hkeep]
            refine ⟨_, rfl, mem_cons_of_mem _ ?_⟩
            rw [← hsame, show s.buckets.get? c.2 = some bucket from hget]
            exact hmem
          · rw [show s.buckets.get? c.2 = some bucket from hget, filter_some, if_pos hkeep]
            exact ⟨bucket, rfl, hmem⟩
        · rw [mem_singleton.mp hc]
          refine ⟨le_rfl, fun _ => ?_⟩
          rw [get?_filter, get?_set_self, filter_some,
            if_pos (decide_eq_true (sub_le_self _ (Int.natCast_nonneg _)))]
          exact ⟨_, rfl, mem_cons_self⟩

/-- **A receipt is counted once**: each receipt that was created is accepted at most once, and the bytes that
are accepted are at most those of the receipts that were created. -/
theorem receipt_counted_once (S : Scheme) (issued : List Receipt) (hissued : ∀ r ∈ issued, Issued S r)
    (hunforgeable : ∀ signature text key, S.verify signature text key = true →
      ∃ r ∈ issued, payload r = text ∧ r.peerPubkey = key)
    (calls : List Call) (s : State) (hfresh : RunMeets (collectReceipt S) (Fresh S) .init calls)
    (hrun : run (collectReceipt S) .init calls = some s) :
    (∀ r ∈ issued, (s.collected.filter fun c => payload c.1 = payload r).length ≤ 1) ∧
      (s.collected.map fun c => c.1.bytesTransferred).sum ≤ (issued.map Receipt.bytesTransferred).sum := by
  have h : Remembered S s := by
    refine run_invariant (Fresh S) (Remembered S) (fun _ _ _ h hfresh hcall => h.collect hfresh hcall) ?_ hfresh hrun
    exact ⟨by simp [State.init], by simp [State.init], by simp [State.init]⟩
  constructor
  · intro r hr
    have hsame : ∀ nonce ∈ (s.collected.filter fun c => payload c.1 = payload r).map fun c => c.1.nonce,
        nonce = r.nonce := by
      intro nonce hmem
      obtain ⟨c, hc, rfl⟩ := mem_map.mp hmem
      obtain ⟨hc, hpayload⟩ := mem_filter.mp hc
      exact (Prod.mk.inj ((h.verified c hc).2.eq_of_payload (hissued r hr).cut (of_decide_eq_true hpayload))).1
    have hnodup : ((s.collected.filter fun c => payload c.1 = payload r).map fun c => c.1.nonce).Nodup :=
      h.nodup.sublist (filter_sublist.map _)
    rwa [eq_replicate_of_mem hsame, nodup_replicate, length_map] at hnodup
  · -- every accepted receipt has the nonce and the amount of one that was created
    have hsub : (s.collected.map fun c => (c.1.nonce, c.1.bytesTransferred)) ⊆
        issued.map fun r => (r.nonce, r.bytesTransferred) := by
      intro pair hpair
      obtain ⟨c, hc, rfl⟩ := mem_map.mp hpair
      obtain ⟨hverify, hcut⟩ := h.verified c hc
      simp only [verify, Bool.and_eq_true] at hverify
      obtain ⟨r, hr, hpayload, -⟩ := hunforgeable _ _ _ hverify.2
      exact mem_map.mpr ⟨r, hr, (hissued r hr).cut.eq_of_payload hcut hpayload⟩
    have hnodup : (s.collected.map fun c => (c.1.nonce, c.1.bytesTransferred)).Nodup :=
      List.Nodup.of_map Prod.fst (by rw [List.map_map]; exact h.nodup)
    obtain ⟨pairs, hperm, hsublist⟩ := hnodup.subperm hsub
    have hsum := (hperm.map Prod.snd).sum_eq
    rw [List.map_map] at hsum
    have hle := (hsublist.map Prod.snd).sum_le_sum fun n hn => ?_
    · rw [List.map_map, hsum] at hle
      exact hle
    · obtain ⟨pair, hpair, rfl⟩ := mem_map.mp hn
      obtain ⟨r, hr, rfl⟩ := mem_map.mp hpair
      exact (hissued r hr).cut.bytesTransferred.1

/-! ### Samples -/

/-- A scheme that takes the one signature that it makes of one text. -/
def sampleScheme (text : Bytes) : Scheme :=
  ⟨fun _ _ => replicate 64 9, fun signature t key =>
    signature = replicate 64 9 ∧ t = text ∧ key = replicate 32 2⟩

/-- A receipt for a thousand bytes in a session of one byte. -/
def sampleReceipt : Receipt :=
  ⟨replicate 32 1, replicate 32 2, 1000, 5, [7], replicate 16 3, replicate 64 9⟩

/-- The same bytes, with the session as a part of the nonce. -/
def recutReceipt : Receipt := { sampleReceipt with sessionId := [], nonce := 7 :: replicate 16 3 }

/-- A receipt is presented twice, and cut in another way without its signature. -/
def sampleCalls : List Call :=
  [⟨some sampleReceipt, 6000, 6000⟩, ⟨some sampleReceipt, 60000, 60001⟩,
    ⟨some { recutReceipt with peerSignature := [] }, 60001, 60001⟩]

theorem receipt_counted_once_sample : ∃ s, run (collectReceipt (sampleScheme (payload sampleReceipt))) .init
      sampleCalls = some s ∧ (s.collected.map fun c => c.1.bytesTransferred).sum ≤ 1000 := by
  obtain ⟨s, hs⟩ := isSome_iff_exists.mp (show (run (collectReceipt (sampleScheme (payload sampleReceipt))) .init
    sampleCalls).isSome = true by decide +kernel)
  refine ⟨s, hs, (receipt_counted_once (sampleScheme (payload sampleReceipt)) [sampleReceipt] ?_ ?_ _ s
    (by decide +kernel) hs).2⟩
  · rintro r hr
    rw [mem_singleton.mp hr]
    exact ⟨replicate 32 2, replicate 32 1, 1000, [7], 5000, replicate 16 3, rfl, rfl, rfl, rfl⟩
  · intro signature text key hok
    obtain ⟨-, rfl, rfl⟩ := of_decide_eq_true hok
    exact ⟨sampleReceipt, mem_singleton_self _, rfl, rfl⟩

/-- A receipt is counted again when its bytes are cut in another way, and when its nonce was forgotten. -/
theorem receipt_counted_twice : payload recutReceipt = payload sampleReceipt ∧
    (run (collectReceipt (sampleScheme (payload sampleReceipt))) .init
      [⟨some sampleReceipt, 6000, 6000⟩, ⟨some recutReceipt, 6000, 6000⟩]).any (·.collected.length = 2) = true ∧
    (run (collectReceipt (sampleScheme (payload sampleReceipt))) .init
      [⟨some sampleReceipt, 6000, 6000⟩, ⟨some sampleReceipt, 3660000, 3660000⟩]).any (·.collected.length = 2) = true := by
  decide +kernel

end HiveRelay.Bandwidth
