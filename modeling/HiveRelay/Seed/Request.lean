import HiveRelay.Capacity.StorageCap
import HiveRelay.Outbox.Signature
import Mathlib.Algebra.Order.Floor.Semiring
import Mathlib.Data.Rat.Floor

/-!
# The signature of a seed request

A publisher signs the terms of a seed request in one of four layouts, which have different lengths. A
number is written into a slot of fixed width: what is beyond the slot, and what is behind the point, is
not written. So a signature is for the terms up to what the slots drop. The layouts leave no room for more:
whatever else two requests differ in, they differ in what is signed.

The signature scheme and the hash of the discovery keys are parameters. Numbers are rational here. The
checks of fields that are not signed are left out.

## Main definitions

* `Layout` — the four layouts
* `Agree` — equal in what a signature is for

## Main results

* `preimage_inj` — what is signed
* `agree_iff_dropped_eq` — when requests of one signature agree
-/

namespace HiveRelay.Seed

open List Option
open Codec (maxSafeInteger)
open JsString (ofText)
open Outbox (toLowerCase isHex fromHex Binds)

/-! ### Requests -/

/-- A seed request, as its signature is checked. -/
structure SeedRequest where
  appKey : Bytes
  discoveryKeys : List Bytes
  replicationFactor : ℚ
  maxStorageBytes : ℕ
  (ttlSeconds bountyRate : ℚ)
  revocable : Bool
  (unseedFreezeMs durability : ℕ)
  (publisherPubkey publisherSignature : Bytes)
  issuedAt : Option ℕ
  requestNonce : Option Bytes

abbrev FixedBytes (length : ℕ) : Type := { b : Bytes // b.length = length }

abbrev SafeInteger : Type := { n : ℕ // n ≤ maxSafeInteger }

/-- What `seedRequestEncoding.decode` reads. -/
structure WireRequest where
  appKey : FixedBytes 32
  discoveryKeys : List (FixedBytes 32)
  (replicationFactor maxStorageBytes bountyRate ttlSeconds : SafeInteger)
  publisherPubkey : FixedBytes 32
  publisherSignature : FixedBytes 64
  (revocable unseedFreezeMs durability : SafeInteger)

/-- The request `seedRequestEncoding.decode` returns. -/
def WireRequest.decoded (w : WireRequest) : SeedRequest where
  appKey := w.appKey.1
  discoveryKeys := w.discoveryKeys.map Subtype.val
  replicationFactor := w.replicationFactor.1
  maxStorageBytes := w.maxStorageBytes.1
  ttlSeconds := w.ttlSeconds.1
  bountyRate := w.bountyRate.1
  revocable := w.revocable.1 ≠ 0
  unseedFreezeMs := w.unseedFreezeMs.1
  durability := w.durability.1
  publisherPubkey := w.publisherPubkey.1
  publisherSignature := w.publisherSignature.1
  issuedAt := none
  requestNonce := none

/-- The body of a request over HTTP. A number that is not finite is `none`. -/
structure Body where
  (appKey publisherPubkey publisherSignature : JsString)
  discoveryKeys : List JsString
  replicationFactor : Option ℚ
  maxStorageBytes : Option ℕ
  (ttlSeconds bountyRate : Option ℚ)
  /-- `revocable !== false`. -/
  revocable : Bool
  (unseedFreezeMs durability : Option ℚ)
  /-- `none` is no field, and `some none` one that is not a non-negative integer. -/
  issuedAt : Option (Option ℕ)
  requestNonce : Option JsString

/-- The settings of the replay envelope. -/
structure ReplayOpts where
  (windowMs futureSkewMs : ℕ)

/-- The replay envelope of a request. -/
structure Replay where
  (publisherPubkey requestNonce : JsString)
  issuedAt : ℕ

def validatePublisherSeedReplayEnvelope (opts : ReplayOpts) (now : ℕ) (body : Body) : Except String (Option Replay) :=
  match body.issuedAt, body.requestNonce with
  | none, none => pure none
  | none, some _ => throw "issuedAt required when requestNonce is present"
  | some _, none => throw "requestNonce required when issuedAt is present"
  | some issuedAt, some nonce => do
    let issuedAt ← demand (issuedAt.filter (· ≤ maxSafeInteger)) "issuedAt must be a non-negative safe integer"
    require (isHex nonce 32) "requestNonce must be 32 hex characters"
    require (¬ now + opts.futureSkewMs < issuedAt) "issuedAt is too far in the future"
    require (¬ issuedAt + opts.windowMs < now) "issuedAt is outside the replay window"
    return some ⟨toLowerCase body.publisherPubkey, toLowerCase nonce, issuedAt⟩

/-- A duration or a class that is positive, rounded down. -/
def floorOrZero (value : Option ℚ) : ℕ := (value.map fun q => ⌊q⌋₊).getD 0

def maxDiscoveryKeys : ℕ := 100

/-- `buildPublisherSignedSeedOpts`, up to the request whose signature it checks, with the envelope. -/
def buildSigMsg (opts : ReplayOpts) (now : ℕ) (body : Body) : Except String (SeedRequest × Option Replay) := do
  require (isHex body.appKey 64) "appKey must be 64 hex characters"
  require (isHex body.publisherPubkey 64) "publisherPubkey must be 64 hex characters"
  require (isHex body.publisherSignature 128) "publisherSignature must be 128 hex characters"
  require (body.discoveryKeys.length ≤ maxDiscoveryKeys) "discoveryKeys exceeds maximum (100)"
  require (∀ dk ∈ body.discoveryKeys, isHex dk 64 = true) "each discoveryKey must be 64 hex characters"
  let replicationFactor := body.replicationFactor.getD 3
  require (¬ (replicationFactor < 1 ∨ 255 < replicationFactor)) "replicationFactor must be in [1,255]"
  let maxStorageBytes ← demand (Storage.positiveStorageBound body.maxStorageBytes)
    "maxStorageBytes must be a positive safe integer"
  let ttlSeconds := body.ttlSeconds.getD (30 * 24 * 3600)
  require (¬ ttlSeconds < 0) "ttlSeconds must be non-negative"
  let bountyRate := body.bountyRate.getD 0
  require (¬ bountyRate < 0) "bountyRate must be non-negative"
  let replay ← validatePublisherSeedReplayEnvelope opts now body
  return ({
    appKey := fromHex body.appKey
    discoveryKeys := body.discoveryKeys.map fromHex
    replicationFactor
    maxStorageBytes
    ttlSeconds
    bountyRate
    revocable := body.revocable
    unseedFreezeMs := floorOrZero body.unseedFreezeMs
    durability := floorOrZero body.durability
    publisherPubkey := fromHex body.publisherPubkey
    publisherSignature := fromHex body.publisherSignature
    issuedAt := replay.map Replay.issuedAt
    requestNonce := replay.map fun r => fromHex r.requestNonce }, replay)

/-! ### What is signed -/

inductive Layout where
  | replayV1 | domainV3 | legacyV2 | legacyV1
  deriving DecidableEq

def seedRequestSignatureDomain : String := "hiverelay.seed-request.v3"

def seedRequestReplaySignatureDomain : String := "hiverelay.seed-request.replay-v1"

/-- A number in a slot of so many bytes. -/
def slot (width : ℕ) (value : ℚ) : Bytes := Bytes.ofNat width (⌊value⌋₊ % 256 ^ width)

/-- `BigInt(value)`, of a number that is not negative. -/
def toBigInt (value : ℚ) : Option ℕ := if (⌊value⌋₊ : ℚ) = value then some ⌊value⌋₊ else none

def discoveryKeysHash (generichash : Bytes → Bytes) (keys : List Bytes) : Bytes :=
  if keys = [] then replicate 32 0 else generichash keys.flatten

/-- The parts of `serializeSeedRequestForSigning`. -/
def signingParts (generichash : Bytes → Bytes) (m : SeedRequest) (ttlSeconds : ℕ) : List Bytes :=
  [m.appKey, discoveryKeysHash generichash m.discoveryKeys, slot 1 m.replicationFactor,
    [if m.revocable then 1 else 0], slot 1 m.durability, replicate 5 0, slot 8 m.maxStorageBytes,
    slot 8 ttlSeconds, slot 4 m.bountyRate, slot 8 m.unseedFreezeMs, replicate 4 0]

/-- The parts of a layout: `serializeSeedRequestForReplaySigning`,
`serializeSeedRequestForDomainSigning`, `serializeSeedRequestForSigning` and
`serializeSeedRequestForSigningLegacy`. -/
def layoutParts (generichash : Bytes → Bytes) (m : SeedRequest) : Layout → Option (List Bytes)
  | .replayV1 => do
    let issuedAt ← m.issuedAt.filter (· ≤ maxSafeInteger)
    let nonce ← m.requestNonce.filter (·.length = 16)
    let ttlSeconds ← toBigInt m.ttlSeconds
    return Bytes.ofAscii seedRequestReplaySignatureDomain :: [0] ::
      (signingParts generichash m ttlSeconds ++ [slot 8 issuedAt, nonce])
  | .domainV3 => do
    let ttlSeconds ← toBigInt m.ttlSeconds
    return Bytes.ofAscii seedRequestSignatureDomain :: [0] :: signingParts generichash m ttlSeconds
  | .legacyV2 => (toBigInt m.ttlSeconds).map (signingParts generichash m)
  | .legacyV1 => do
    let ttlSeconds ← toBigInt m.ttlSeconds
    return [m.appKey, discoveryKeysHash generichash m.discoveryKeys, slot 1 m.replicationFactor,
      replicate 7 0, slot 8 m.maxStorageBytes, slot 8 ttlSeconds, slot 4 m.bountyRate]

def preimage (generichash : Bytes → Bytes) (m : SeedRequest) (layout : Layout) : Option Bytes :=
  (layoutParts generichash m layout).map flatten

/-- `crypto_sign_verify_detached`. -/
abbrev Verify : Type := Bytes → Bytes → Bytes → Bool

/-- `verifySeedRequestSignatureDetails`: the layout that verifies. -/
def verifySeedRequestSignatureDetails (verify : Verify) (generichash : Bytes → Bytes) (m : SeedRequest) :
    Except String Layout :=
  if m.issuedAt.isSome || m.requestNonce.isSome then do
    let replay ← demand (preimage generichash m .replayV1) "malformed seed-request replay envelope"
    require (verify m.publisherSignature replay m.publisherPubkey) "replay envelope requires replay-v1 signature"
    return .replayV1
  else do
    let v3 ← demand (preimage generichash m .domainV3) "malformed seed-request payload"
    let v2 ← demand (preimage generichash m .legacyV2) "malformed seed-request payload"
    if verify m.publisherSignature v3 m.publisherPubkey then return .domainV3
    else if verify m.publisherSignature v2 m.publisherPubkey then return .legacyV2
    else if m.revocable = false ∨ 0 < m.unseedFreezeMs ∨ 0 < m.durability then
      throw "signature does not verify for domain-v3 or legacy-v2"
    else do
      let v1 ← demand (preimage generichash m .legacyV1) "malformed legacy seed-request payload"
      require (verify m.publisherSignature v1 m.publisherPubkey) "signature does not verify"
      return .legacyV1

/-! ### Where requests come from -/

/-- A request that comes from the wire or from a body. -/
def Admitted (m : SeedRequest) : Prop :=
  (∃ w : WireRequest, m = w.decoded) ∨ ∃ opts now body replay, buildSigMsg opts now body = .ok (m, replay)

/-- What is known of a request that is admitted. -/
structure Shaped (m : SeedRequest) : Prop where
  appKey : m.appKey.length = 32
  discoveryKeys : ∀ dk ∈ m.discoveryKeys, dk.length = 32
  maxStorageBytes : m.maxStorageBytes ≤ maxSafeInteger

theorem length_fromHex : ∀ s : JsString, (fromHex s).length = s.length / 2
  | [] => rfl
  | [_] => by simp [fromHex]
  | u :: v :: rest => by
    simp only [fromHex, length_cons, length_fromHex rest]
    omega

theorem length_of_isHex {s : JsString} {n : ℕ} (h : isHex s n = true) : (fromHex s).length = n / 2 := by
  simp only [isHex, Bool.and_eq_true, decide_eq_true_eq] at h
  rw [length_fromHex, h.1]

theorem Admitted.shaped {m : SeedRequest} (h : Admitted m) : Shaped m := by
  obtain ⟨w, rfl⟩ | ⟨opts, now, body, replay, h⟩ := h
  · refine ⟨w.appKey.2, fun dk hdk => ?_, w.maxStorageBytes.2⟩
    obtain ⟨key, -, rfl⟩ := mem_map.mp hdk
    exact key.2
  · simp only [buildSigMsg, guards_eq_ok, Prod.mk.injEq, Storage.positiveStorageBound_eq_some] at h
    obtain ⟨happ, -, -, -, hkeys, -, n, ⟨-, hle, -⟩, -, -, r, -, rfl, -⟩ := h
    refine ⟨length_of_isHex happ, fun dk hdk => ?_, hle⟩
    obtain ⟨key, hkey, rfl⟩ := mem_map.mp hdk
    exact length_of_isHex (hkeys key hkey)

/-! ### Slots -/

/-- What a slot of so many bytes drops of a number. -/
def beyond (width : ℕ) (value : ℚ) : ℚ := value - (⌊value⌋₊ % 256 ^ width : ℕ)

@[simp] theorem length_slot (width : ℕ) (value : ℚ) : (slot width value).length = width :=
  Bytes.length_ofNat _ _

theorem mod_eq_of_slot {width : ℕ} {a b : ℚ} (h : slot width a = slot width b) :
    ⌊a⌋₊ % 256 ^ width = ⌊b⌋₊ % 256 ^ width :=
  Bytes.ofNat_injective (Nat.mod_lt _ (Nat.pow_pos (by decide))) (Nat.mod_lt _ (Nat.pow_pos (by decide))) h

theorem eq_of_slot {width : ℕ} {a b : ℚ} (h : slot width a = slot width b)
    (hbeyond : beyond width a = beyond width b) : a = b := by
  unfold beyond at hbeyond
  rw [mod_eq_of_slot h] at hbeyond
  linarith

theorem nat_eq_of_slot {width a b : ℕ} (ha : a < 256 ^ width) (hb : b < 256 ^ width)
    (h : slot width a = slot width b) : a = b := by
  have hmod := mod_eq_of_slot h
  rwa [Nat.floor_natCast, Nat.floor_natCast, Nat.mod_eq_of_lt ha, Nat.mod_eq_of_lt hb] at hmod

theorem toBigInt_eq_some {value : ℚ} {n : ℕ} (h : toBigInt value = some n) : (n : ℚ) = value := by
  unfold toBigInt at h
  split at h
  · next heq => exact some.inj h ▸ heq
  · cases h

/-! ### Layouts -/

/-- The widths of the parts of a layout. -/
def Layout.widths : Layout → List ℕ
  | replayV1 => [32, 1, 32, 32, 1, 1, 1, 5, 8, 8, 4, 8, 4, 8, 16]
  | domainV3 => [25, 1, 32, 32, 1, 1, 1, 5, 8, 8, 4, 8, 4]
  | legacyV2 => [32, 32, 1, 1, 1, 5, 8, 8, 4, 8, 4]
  | legacyV1 => [32, 32, 1, 7, 8, 8, 4]

theorem Layout.sum_widths_injective : ∀ l l' : Layout, l.widths.sum = l'.widths.sum → l = l' := by
  rintro (_ | _ | _ | _) (_ | _ | _ | _) h <;> first | rfl | exact absurd h (by decide)

section Inject

variable {generichash : Bytes → Bytes} {m m' : SeedRequest} {layout layout' : Layout}

theorem length_discoveryKeysHash (hlength : ∀ b, (generichash b).length = 32) (keys : List Bytes) :
    (discoveryKeysHash generichash keys).length = 32 := by
  unfold discoveryKeysHash
  split
  · rfl
  · exact hlength _

theorem map_length_signingParts (hlength : ∀ b, (generichash b).length = 32) (hm : Shaped m)
    (ttlSeconds : ℕ) : (signingParts generichash m ttlSeconds).map length =
      [32, 32, 1, 1, 1, 5, 8, 8, 4, 8, 4] := by
  simp [signingParts, hm.appKey, length_discoveryKeysHash hlength]

theorem map_length_layoutParts (hlength : ∀ b, (generichash b).length = 32) (hm : Shaped m)
    {parts : List Bytes} (h : layoutParts generichash m layout = some parts) :
    parts.map length = layout.widths := by
  cases layout with
  | replayV1 =>
    simp only [layoutParts, bind_eq_bind, bind_eq_some_iff, filter_eq_some_iff,
      decide_eq_true_eq] at h
    obtain ⟨issuedAt, -, nonce, ⟨-, hnonce⟩, ttlSeconds, -, h⟩ := h
    cases h
    simp [map_length_signingParts hlength hm, hnonce, Layout.widths]
    decide
  | domainV3 =>
    simp only [layoutParts, bind_eq_bind, bind_eq_some_iff] at h
    obtain ⟨ttlSeconds, -, h⟩ := h
    cases h
    simp [map_length_signingParts hlength hm, Layout.widths]
    decide
  | legacyV2 =>
    obtain ⟨ttlSeconds, -, rfl⟩ := map_eq_some_iff.mp h
    exact map_length_signingParts hlength hm ttlSeconds
  | legacyV1 =>
    simp only [layoutParts, bind_eq_bind, bind_eq_some_iff] at h
    obtain ⟨ttlSeconds, -, h⟩ := h
    cases h
    simp [hm.appKey, length_discoveryKeysHash hlength, Layout.widths]

/-- **What is signed** says which layout it is in, and what its parts are. -/
theorem preimage_inj (hlength : ∀ b, (generichash b).length = 32) (hm : Shaped m) (hm' : Shaped m')
    {p : Bytes} (h : preimage generichash m layout = some p)
    (h' : preimage generichash m' layout' = some p) :
    layout = layout' ∧ ∃ parts, layoutParts generichash m layout = some parts ∧
      layoutParts generichash m' layout = some parts := by
  obtain ⟨parts, hparts, hp⟩ := map_eq_some_iff.mp h
  obtain ⟨parts', hparts', hp'⟩ := map_eq_some_iff.mp h'
  have hwidths := map_length_layoutParts hlength hm hparts
  have hwidths' := map_length_layoutParts hlength hm' hparts'
  have hsum : layout.widths.sum = layout'.widths.sum := by
    rw [← hwidths, ← hwidths', ← length_flatten, ← length_flatten, hp, hp']
  obtain rfl := Layout.sum_widths_injective _ _ hsum
  have hsame : parts = parts' :=
    eq_iff_flatten_eq.mpr ⟨hp.trans hp'.symm, hwidths.trans hwidths'.symm⟩
  exact ⟨rfl, parts, hparts, hsame ▸ hparts'⟩

/-- A check that passes is one of what is signed in the layout. A request with an envelope is signed with
it, and one in the oldest layout has the defaults of what that leaves out. -/
theorem exists_preimage {verify : Verify} (h : verifySeedRequestSignatureDetails verify generichash m = .ok layout) :
    ∃ p, preimage generichash m layout = some p ∧ verify m.publisherSignature p m.publisherPubkey = true ∧
      (layout ≠ .replayV1 → m.issuedAt = none ∧ m.requestNonce = none) ∧
      (layout = .legacyV1 → m.revocable = true ∧ m.unseedFreezeMs = 0 ∧ m.durability = 0) := by
  unfold verifySeedRequestSignatureDetails at h
  split at h
  · simp only [guards_eq_ok] at h
    obtain ⟨p, hp, hverify, rfl⟩ := h
    exact ⟨p, hp, hverify, absurd rfl, by rintro ⟨⟩⟩
  · next henvelope =>
    simp only [Bool.or_eq_true, not_or, not_isSome_iff_eq_none] at henvelope
    simp only [guards_eq_ok] at h
    obtain ⟨v3, hv3, v2, hv2, h⟩ := h
    split at h
    · next hverify =>
      cases h
      exact ⟨v3, hv3, hverify, fun _ => henvelope, by rintro ⟨⟩⟩
    · split at h
      · next hverify =>
        cases h
        exact ⟨v2, hv2, hverify, fun _ => henvelope, by rintro ⟨⟩⟩
      · split at h
        · cases h
        · next hdefaults =>
          simp only [guards_eq_ok] at h
          obtain ⟨v1, hv1, hverify, rfl⟩ := h
          simp only [not_or, Bool.not_eq_false, Nat.not_lt, Nat.le_zero] at hdefaults
          exact ⟨v1, hv1, hverify, fun _ => henvelope, fun _ => hdefaults⟩

end Inject

/-! ### One signature -/

/-- Two requests agree on what a signature is for. -/
structure Agree (m m' : SeedRequest) : Prop where
  appKey : m.appKey = m'.appKey
  discoveryKeys : m.discoveryKeys = m'.discoveryKeys
  replicationFactor : m.replicationFactor = m'.replicationFactor
  maxStorageBytes : m.maxStorageBytes = m'.maxStorageBytes
  ttlSeconds : m.ttlSeconds = m'.ttlSeconds
  bountyRate : m.bountyRate = m'.bountyRate
  revocable : m.revocable = m'.revocable
  unseedFreezeMs : m.unseedFreezeMs = m'.unseedFreezeMs
  durability : m.durability = m'.durability
  issuedAt : m.issuedAt = m'.issuedAt
  requestNonce : m.requestNonce = m'.requestNonce

/-- What the slots drop of a request. -/
def dropped (m : SeedRequest) : List ℚ :=
  [beyond 1 m.replicationFactor, beyond 8 m.ttlSeconds, beyond 4 m.bountyRate,
    beyond 8 m.unseedFreezeMs, beyond 1 m.durability]

section Agree

variable {generichash : Bytes → Bytes} {m m' : SeedRequest}

theorem eq_of_flatten_eq {keys keys' : List Bytes} (hkeys : ∀ k ∈ keys, k.length = 32)
    (hkeys' : ∀ k ∈ keys', k.length = 32) (h : keys.flatten = keys'.flatten) : keys = keys' := by
  have hlengths : ∀ {l : List Bytes}, (∀ k ∈ l, k.length = 32) →
      l.map length = replicate l.length 32 := fun hl =>
    eq_replicate_iff.mpr ⟨length_map _, fun n hn => by
      obtain ⟨k, hk, rfl⟩ := mem_map.mp hn
      exact hl k hk⟩
  have hcount := congrArg length h
  rw [length_flatten, length_flatten, hlengths hkeys, hlengths hkeys'] at hcount
  simp only [sum_replicate_nat] at hcount
  refine eq_iff_flatten_eq.mpr ⟨h, ?_⟩
  rw [hlengths hkeys, hlengths hkeys', Nat.eq_of_mul_eq_mul_right (by decide) hcount]

structure SameParts (generichash : Bytes → Bytes) (m m' : SeedRequest) : Prop where
  appKey : m.appKey = m'.appKey
  discoveryKeys : discoveryKeysHash generichash m.discoveryKeys = discoveryKeysHash generichash m'.discoveryKeys
  replicationFactor : slot 1 m.replicationFactor = slot 1 m'.replicationFactor
  maxStorageBytes : slot 8 m.maxStorageBytes = slot 8 m'.maxStorageBytes
  ttlSeconds : slot 8 m.ttlSeconds = slot 8 m'.ttlSeconds
  bountyRate : slot 4 m.bountyRate = slot 4 m'.bountyRate

/-- The parts that the oldest layout does not have. -/
structure SameTail (m m' : SeedRequest) : Prop where
  revocable : m.revocable = m'.revocable
  unseedFreezeMs : slot 8 m.unseedFreezeMs = slot 8 m'.unseedFreezeMs
  durability : slot 1 m.durability = slot 1 m'.durability

theorem sameParts_of_signingParts {ttl ttl' : ℕ} (httl : toBigInt m.ttlSeconds = some ttl)
    (httl' : toBigInt m'.ttlSeconds = some ttl')
    (h : signingParts generichash m ttl = signingParts generichash m' ttl') :
    SameParts generichash m m' ∧ SameTail m m' := by
  simp only [signingParts, cons.injEq, and_true, true_and, toBigInt_eq_some httl, toBigInt_eq_some httl'] at h
  obtain ⟨happ, hkeys, hfactor, hrevocable, hdurability, hstorage, httl, hbounty, hfreeze⟩ := h
  refine ⟨⟨happ, hkeys, hfactor, hstorage, httl, hbounty⟩, ?_, hfreeze, hdurability⟩
  cases hr : m.revocable <;> cases hr' : m'.revocable <;> simp [hr, hr'] at hrevocable ⊢

theorem agree_of_parts (hm : Shaped m) (hm' : Shaped m') (hparts : SameParts generichash m m')
    (htail : SameTail m m') (henvelope : m.issuedAt = m'.issuedAt ∧ m.requestNonce = m'.requestNonce)
    (hcollide : discoveryKeysHash generichash m.discoveryKeys =
      discoveryKeysHash generichash m'.discoveryKeys → m.discoveryKeys.flatten = m'.discoveryKeys.flatten)
    (hdropped : dropped m = dropped m') : Agree m m' := by
  simp only [dropped, cons.injEq, and_true] at hdropped
  obtain ⟨hfactor, httl, hbounty, hfreeze, hdurability⟩ := hdropped
  have hsafe : maxSafeInteger < 256 ^ 8 := by decide
  exact
    { appKey := hparts.appKey
      discoveryKeys :=
        eq_of_flatten_eq hm.discoveryKeys hm'.discoveryKeys (hcollide hparts.discoveryKeys)
      replicationFactor := eq_of_slot hparts.replicationFactor hfactor
      maxStorageBytes := nat_eq_of_slot (hm.maxStorageBytes.trans_lt hsafe)
        (hm'.maxStorageBytes.trans_lt hsafe) hparts.maxStorageBytes
      ttlSeconds := eq_of_slot hparts.ttlSeconds httl
      bountyRate := eq_of_slot hparts.bountyRate hbounty
      revocable := htail.revocable
      unseedFreezeMs := Nat.cast_injective (eq_of_slot htail.unseedFreezeMs hfreeze)
      durability := Nat.cast_injective (eq_of_slot htail.durability hdurability)
      issuedAt := henvelope.1
      requestNonce := henvelope.2 }

/-- **Requests with one signature agree** exactly when the slots drop the same of their numbers. -/
theorem agree_iff_dropped_eq (verify : Verify) (generichash : Bytes → Bytes) (hbinds : Binds verify)
    (hlength : ∀ b, (generichash b).length = 32) {m m' : SeedRequest} (hm : Admitted m)
    (hm' : Admitted m') (hkey : m.publisherPubkey = m'.publisherPubkey)
    (hsignature : m.publisherSignature = m'.publisherSignature) {layout layout' : Layout}
    (haccepted : verifySeedRequestSignatureDetails verify generichash m = .ok layout)
    (haccepted' : verifySeedRequestSignatureDetails verify generichash m' = .ok layout')
    (hcollide : discoveryKeysHash generichash m.discoveryKeys = discoveryKeysHash generichash m'.discoveryKeys →
        m.discoveryKeys.flatten = m'.discoveryKeys.flatten) :
    Agree m m' ↔ dropped m = dropped m' := by
  refine ⟨fun h => ?_, fun hdropped => ?_⟩
  · simp only [dropped, h.replicationFactor, h.ttlSeconds, h.bountyRate, h.unseedFreezeMs, h.durability]
  obtain ⟨p, hp, hverify, henvelope, hdefaults⟩ := exists_preimage haccepted
  obtain ⟨p', hp', hverify', henvelope', hdefaults'⟩ := exists_preimage haccepted'
  rw [← hkey, ← hsignature] at hverify'
  obtain rfl := hbinds _ _ _ _ hverify hverify'
  obtain ⟨rfl, parts, hparts, hparts'⟩ := preimage_inj hlength hm.shaped hm'.shaped hp hp'
  cases layout with
  | replayV1 =>
    simp only [layoutParts, bind_eq_bind, bind_eq_some_iff, filter_eq_some_iff,
      decide_eq_true_eq] at hparts hparts'
    obtain ⟨issuedAt, ⟨hissued, hle⟩, nonce, ⟨hnonce, -⟩, ttl, httl, hparts⟩ := hparts
    obtain ⟨issuedAt', ⟨hissued', hle'⟩, nonce', ⟨hnonce', -⟩, ttl', httl', hparts'⟩ := hparts'
    have hsame := some.inj (hparts.trans hparts'.symm)
    simp only [cons.injEq, true_and] at hsame
    obtain ⟨hbody, hend⟩ := append_inj' hsame rfl
    simp only [cons.injEq, and_true] at hend
    obtain ⟨hshared, htail⟩ := sameParts_of_signingParts httl httl' hbody
    have hsafe : maxSafeInteger < 256 ^ 8 := by decide
    refine agree_of_parts hm.shaped hm'.shaped hshared htail ⟨?_, ?_⟩ hcollide hdropped
    · rw [hissued, hissued', nat_eq_of_slot (hle.trans_lt hsafe) (hle'.trans_lt hsafe) hend.1]
    · rw [hnonce, hnonce', hend.2]
  | domainV3 =>
    simp only [layoutParts, bind_eq_bind, bind_eq_some_iff] at hparts hparts'
    obtain ⟨ttl, httl, hparts⟩ := hparts
    obtain ⟨ttl', httl', hparts'⟩ := hparts'
    have hsame := some.inj (hparts.trans hparts'.symm)
    simp only [cons.injEq, true_and] at hsame
    obtain ⟨hshared, htail⟩ := sameParts_of_signingParts httl httl' hsame
    have hnone := henvelope (by decide)
    have hnone' := henvelope' (by decide)
    exact agree_of_parts hm.shaped hm'.shaped hshared htail
      ⟨hnone.1.trans hnone'.1.symm, hnone.2.trans hnone'.2.symm⟩ hcollide hdropped
  | legacyV2 =>
    obtain ⟨ttl, httl, rfl⟩ := map_eq_some_iff.mp hparts
    obtain ⟨ttl', httl', hsame⟩ := map_eq_some_iff.mp hparts'
    obtain ⟨hshared, htail⟩ := sameParts_of_signingParts httl httl' hsame.symm
    have hnone := henvelope (by decide)
    have hnone' := henvelope' (by decide)
    exact agree_of_parts hm.shaped hm'.shaped hshared htail
      ⟨hnone.1.trans hnone'.1.symm, hnone.2.trans hnone'.2.symm⟩ hcollide hdropped
  | legacyV1 =>
    simp only [layoutParts, bind_eq_bind, bind_eq_some_iff] at hparts hparts'
    obtain ⟨ttl, httl, hparts⟩ := hparts
    obtain ⟨ttl', httl', hparts'⟩ := hparts'
    have hsame := some.inj (hparts.trans hparts'.symm)
    simp only [cons.injEq, and_true, true_and, toBigInt_eq_some httl, toBigInt_eq_some httl'] at hsame
    obtain ⟨happ, hkeys, hfactor, hstorage, httl, hbounty⟩ := hsame
    obtain ⟨hrevocable, hfreeze, hdurability⟩ := hdefaults rfl
    obtain ⟨hrevocable', hfreeze', hdurability'⟩ := hdefaults' rfl
    have hnone := henvelope (by decide)
    have hnone' := henvelope' (by decide)
    refine agree_of_parts hm.shaped hm'.shaped ⟨happ, hkeys, hfactor, hstorage, httl, hbounty⟩
      ⟨hrevocable.trans hrevocable'.symm, ?_, ?_⟩
      ⟨hnone.1.trans hnone'.1.symm, hnone.2.trans hnone'.2.symm⟩ hcollide hdropped
    · rw [hfreeze, hfreeze']
    · rw [hdurability, hdurability']

end Agree

/-- A request of the wire, without discovery keys. -/
def sampleWire (replicationFactor durability : SafeInteger) : WireRequest where
  appKey := ⟨replicate 32 1, length_replicate⟩
  discoveryKeys := []
  replicationFactor
  maxStorageBytes := ⟨1, by decide⟩
  bountyRate := ⟨0, by decide⟩
  ttlSeconds := ⟨60, by decide⟩
  publisherPubkey := ⟨replicate 32 2, rfl⟩
  publisherSignature := ⟨replicate 64 3, rfl⟩
  revocable := ⟨1, by decide⟩
  unseedFreezeMs := ⟨0, by decide⟩
  durability

def sampleRequest : SeedRequest := (sampleWire ⟨3, by decide⟩ ⟨0, by decide⟩).decoded

/-- The request with 256 replicas more, and with a durability of 256. -/
def widenedRequest : SeedRequest := (sampleWire ⟨259, by decide⟩ ⟨256, by decide⟩).decoded

def sampleHash : Bytes → Bytes := fun _ => replicate 32 0

def sampleVerify : Verify := fun _ message _ =>
  decide (some message = preimage sampleHash sampleRequest .domainV3)

theorem sampleVerify_binds : Binds sampleVerify := by
  intro signature message message' publicKey h h'
  exact some.inj ((of_decide_eq_true h).trans (of_decide_eq_true h').symm)

theorem agree_iff_dropped_eq_sample : ¬ Agree sampleRequest widenedRequest := by
  have haccepted : ∀ m ∈ [sampleRequest, widenedRequest],
      (verifySeedRequestSignatureDetails sampleVerify sampleHash m).toOption = some .domainV3 := by
    decide +kernel
  have hok : ∀ m ∈ [sampleRequest, widenedRequest],
      verifySeedRequestSignatureDetails sampleVerify sampleHash m = .ok .domainV3 := fun m hm => by
    cases hdetails : verifySeedRequestSignatureDetails sampleVerify sampleHash m with
    | error e | ok layout => simpa [hdetails, Except.toOption] using haccepted m hm
  have hadmitted : Admitted sampleRequest := .inl ⟨_, rfl⟩
  have hadmitted' : Admitted widenedRequest := .inl ⟨_, rfl⟩
  refine (agree_iff_dropped_eq sampleVerify sampleHash sampleVerify_binds (fun _ => rfl) hadmitted hadmitted' rfl rfl
    (hok sampleRequest (by simp)) (hok widenedRequest (by simp)) fun _ => rfl).not.mpr ?_
  decide +kernel

/-- One signature is accepted for three replicas and for 259, and for a durability of 0 and of 256. -/
theorem signature_drops_high_bits :
    (verifySeedRequestSignatureDetails sampleVerify sampleHash sampleRequest).toOption = some .domainV3 ∧
      (verifySeedRequestSignatureDetails sampleVerify sampleHash widenedRequest).toOption = some .domainV3 ∧
      sampleRequest.publisherPubkey = widenedRequest.publisherPubkey ∧
      sampleRequest.publisherSignature = widenedRequest.publisherSignature ∧
      sampleRequest.replicationFactor ≠ widenedRequest.replicationFactor ∧
      sampleRequest.durability ≠ widenedRequest.durability := by
  decide +kernel

end HiveRelay.Seed
