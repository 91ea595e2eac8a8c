import HiveRelay.Lib.OrderedMap
import HiveRelay.Lib.Run
import HiveRelay.Pow.TokenCodec
import Mathlib.Data.Int.ConditionallyCompleteOrder
import Mathlib.Order.Lattice.Nat

/-!
# One token per challenge

The issuer of `issuer-service.js` remembers in `redeemed` which challenges it has given a token for.
A challenge is forgotten only by a sweep, which runs when the memory is full and drops what has
expired. That is safe as long as a challenge that is dropped can no longer be redeemed. But
`handleRedeem` reads the clock twice: once to refuse an expired challenge, and once more for the
sweep. If the challenge expires between the two readings, the sweep forgets it after it was found to
be good, and it is redeemed again.

A request is handled in one turn once its body has been read, so a run is a sequence of requests.

## Main definitions

* `KeepsOwnChallenge` — a request that does not forget its challenge

## Main results

* `one_token_per_challenge` — in every run of such requests
-/

namespace HiveRelay.Pow

open List OrderedMap Option

/-! ### The issuer -/

def maxRedeemedChallenges : ℕ := 65536

/-- The options of the issuer, in their bounds, and the keys derived from its key. -/
structure IssuerConfig where
  (challengeKey tokenKey : Bytes)
  (difficultyBits challengeTtlSeconds tokenTtlEpochs maxAllowance : ℕ)
  difficultyBits_bounds : 1 ≤ difficultyBits ∧ difficultyBits ≤ maxDifficultyBits
  challengeTtlSeconds_bounds : 5 ≤ challengeTtlSeconds ∧ challengeTtlSeconds ≤ 3600
  tokenTtlEpochs_bounds : 1 ≤ tokenTtlEpochs ∧ tokenTtlEpochs ≤ 4
  maxAllowance_bounds : 1 ≤ maxAllowance ∧ maxAllowance ≤ Pow.maxAllowance

/-- The `allowance` of the body of a request. -/
inductive AllowanceField where
  | absent
  | integer (value : ℤ)
  | other

/-- The body of a `/redeem` request. A field that is not base64url or not hex is `none`. -/
structure RedeemBody where
  (challenge recordCommitment nonce : Option Bytes)
  allowance : AllowanceField

/-- The memory of the issuer, how often it has read the clock, and a record of the challenges that
it has minted a token for, with the time at which each of them expires. -/
structure Issuer where
  redeemed : OrderedMap Bytes ℤ
  reads : ℕ
  minted : List (Bytes × ℤ)

/-- What `createPowIssuanceV1Issuer` starts with. -/
def Issuer.fresh : Issuer := ⟨.empty, 0, []⟩

/-- `nowUnix()`. -/
def Issuer.read (issuer : Issuer) : Issuer := { issuer with reads := issuer.reads + 1 }

def Issuer.swept (issuer : Issuer) (now : ℤ) : Issuer :=
  if issuer.redeemed.size < maxRedeemedChallenges then issuer
  else { issuer with redeemed := issuer.redeemed.filter fun _ evictAt => decide (now < evictAt) }

def hexBytes (value : Option Bytes) (length : ℕ) (field : String) : Except Failure Bytes := do
  let bytes ← demand value ⟨.powIssuanceInvalid, field ++ " must be hex"⟩
  require (bytes.length = length) ⟨.powIssuanceInvalid, field ++ " must be exactly " ++ toString length ++ " bytes"⟩
  pure bytes

/-- The allowance that a request asks for. -/
def requestedAllowance (cfg : IssuerConfig) (field : AllowanceField) : Except Failure ℕ := do
  let invalid : Failure := ⟨.powAllowanceInvalid, "allowance must be within 1.." ++ toString cfg.maxAllowance⟩
  match field with
  | .absent => pure cfg.maxAllowance
  | .other => .error invalid
  | .integer value => do
    require (1 ≤ value ∧ value ≤ cfg.maxAllowance) invalid
    pure value.toNat

section Handlers

variable (P : Primitives) (cfg : IssuerConfig)

/-- What a request asks for: a challenge that is good at the first reading, a commitment, a nonce
and an allowance. -/
structure Redemption where
  parsed : Challenge
  (recordCommitment nonce : Bytes)
  allowance : ℕ

/-- The checks of `handleRedeem` before its sweep. -/
def redemption (body : RedeemBody) (now : ℤ) : Except Failure Redemption := do
  let challenge ← demand body.challenge ⟨.powChallengeInvalid, "challenge is not base64url"⟩
  let parsed ← parsePowIssuanceV1Challenge P cfg.challengeKey challenge now
  let recordCommitment ← hexBytes body.recordCommitment 32 "recordCommitment"
  let nonce ← hexBytes body.nonce 8 "nonce"
  let allowance ← requestedAllowance cfg body.allowance
  pure ⟨parsed, recordCommitment, nonce, allowance⟩

/-- The clock is read for `parsePowIssuanceV1Challenge` unless there is no challenge to parse. -/
def Issuer.afterParse (issuer : Issuer) (body : RedeemBody) : Issuer :=
  if body.challenge.isSome then issuer.read else issuer

/-- What `handleRedeem` does after its sweep. -/
def redeemSwept (issuer : Issuer) (r : Redemption) (epoch : ℕ) : Issuer × Except Failure Bytes :=
  let id := r.parsed.challengeId
  if maxRedeemedChallenges ≤ issuer.redeemed.size then
    (issuer, .error ⟨.busy, "pow-issuance-v1 issuer redeemed-challenge memory is full"⟩)
  else if issuer.redeemed.has id then
    (issuer, .error ⟨.powChallengeReplayed, "pow-issuance-v1 challenge was already redeemed"⟩)
  else
    match verifyPowIssuanceV1Work P r.parsed.difficultyBits r.parsed.payload r.recordCommitment
      (Bytes.toNat r.nonce) with
    | .error error => (issuer, .error error)
    | .ok false => (issuer, .error ⟨.powInsufficientWork,
        "proof-of-work does not meet the required difficulty"⟩)
    | .ok true =>
      let issuer := { issuer with redeemed := issuer.redeemed.set id r.parsed.expiresAtUnix }
      match mintPowIssuanceV1Token P cfg.tokenKey id r.recordCommitment r.allowance
        (epoch + cfg.tokenTtlEpochs : ℕ) with
      | .error error => (issuer, .error error)
      | .ok token =>
        ({ issuer with minted := (id, r.parsed.expiresAtUnix) :: issuer.minted }, .ok token)

/-- `handleRedeem`; `clock k` is the `k`-th reading of `nowUnix`, and `epoch` that of `epochNow`. -/
def handleRedeem (clock : ℕ → ℤ) (issuer : Issuer) (body : RedeemBody) (epoch : ℕ) : Issuer × Except Failure Bytes :=
  match redemption P cfg body (clock issuer.reads) with
  | .error error => (issuer.afterParse body, .error error)
  | .ok r =>
    let issuer := issuer.read
    redeemSwept P cfg (issuer.read.swept (clock issuer.reads)) r epoch

inductive IssuerRequest where
  /-- `GET /challenge`, with the random id of the challenge. -/
  | challenge (challengeId : Bytes)
  | redeem (body : RedeemBody) (epoch : ℕ)

/-- The issuer after a request; `handleChallenge` reads the clock twice, the second time for its
response. -/
def issuerStep (clock : ℕ → ℤ) (issuer : Issuer) : IssuerRequest → Option Issuer
  | .challenge id =>
    match mintPowIssuanceV1Challenge P cfg.challengeKey id (clock issuer.reads)
      cfg.challengeTtlSeconds cfg.difficultyBits with
    | .error _ => some issuer.read
    | .ok _ => some issuer.read.read
  | .redeem body epoch => some (handleRedeem P cfg clock issuer body epoch).1

/-! ### What a run is asked for -/

/-- A request does not forget the challenge that it presents: unless the memory is full, the
challenge has been redeemed, and it expires between the two readings of the request. -/
def KeepsOwnChallenge (clock : ℕ → ℤ) (issuer : Issuer) : IssuerRequest → Prop
  | .challenge _ => True
  | .redeem body _ => ∀ r, redemption P cfg body (clock issuer.reads) = .ok r →
      maxRedeemedChallenges ≤ issuer.redeemed.size →
      ∀ evictAt ∈ issuer.redeemed.get? r.parsed.challengeId, clock (issuer.reads + 1) < evictAt

/-- The challenge of a request carries the signature of the issuer. -/
def Genuine (body : RedeemBody) (c : Challenge) : Prop :=
  ∃ bytes now, body.challenge = some bytes ∧ parsePowIssuanceV1Challenge P cfg.challengeKey bytes now = .ok c

/-- No two genuine challenges of a list of requests share their id: ids are random, and a signature
cannot be forged. -/
def OneChallengePerId (moves : List IssuerRequest) : Prop :=
  ∀ body epoch body' epoch' c c', .redeem body epoch ∈ moves → .redeem body' epoch' ∈ moves →
    Genuine P cfg body c → Genuine P cfg body' c' → c.challengeId = c'.challengeId → c = c'

end Handlers

/-! ### Along a run -/

section Runs

variable {P : Primitives} {cfg : IssuerConfig} {clock : ℕ → ℤ} {issuer issuer' : Issuer}

variable {now : ℤ} {r : Redemption}

theorem redemption_eq_ok {body : RedeemBody} (h : redemption P cfg body now = .ok r) :
    ∃ bytes, body.challenge = some bytes ∧
      parsePowIssuanceV1Challenge P cfg.challengeKey bytes now = .ok r.parsed := by
  simp only [redemption, guards_eq_ok] at h
  obtain ⟨bytes, hbytes, parsed, hparsed, _, -, _, -, _, -, rfl⟩ := h
  exact ⟨bytes, hbytes, hparsed⟩

theorem lt_expiresAtUnix {key bytes : Bytes} {c : Challenge}
    (h : parsePowIssuanceV1Challenge P key bytes now = .ok c) : now < c.expiresAtUnix := by
  simp only [parsePowIssuanceV1Challenge, guards_eq_ok] at h
  obtain ⟨_, -, _, -, -, -, hnow, rfl⟩ := h
  exact hnow

theorem parsed_eq {key bytes : Bytes} {c : Challenge} (h : parsePowIssuanceV1Challenge P key bytes now = .ok c) :
    c = Challenge.ofPayload (bytes.take challengePayloadBytes) := by
  simp only [parsePowIssuanceV1Challenge, guards_eq_ok, asBytes_eq_ok] at h
  obtain ⟨_, -, _, ⟨-, rfl⟩, -, -, -, rfl⟩ := h
  rfl

structure IssuerInv (P : Primitives) (cfg : IssuerConfig) (clock : ℕ → ℤ)
    (moves : List IssuerRequest) (issuer : Issuer) : Prop where
  /-- A challenge with a token is remembered until it has expired. -/
  remembered : ∀ id expiry, (id, expiry) ∈ issuer.minted →
    issuer.redeemed.get? id = some expiry ∨ expiry ≤ clock issuer.reads
  genuine : ∀ id expiry, (id, expiry) ∈ issuer.minted → ∃ body epoch c,
    .redeem body epoch ∈ moves ∧ Genuine P cfg body c ∧ c.challengeId = id ∧ c.expiresAtUnix = expiry
  once : (issuer.minted.map Prod.fst).Nodup

theorem issuerInv_fresh (moves : List IssuerRequest) : IssuerInv P cfg clock moves .fresh :=
  ⟨nofun, nofun, nodup_nil⟩

variable {moves : List IssuerRequest}

theorem IssuerInv.read (hclock : Monotone clock) (h : IssuerInv P cfg clock moves issuer) :
    IssuerInv P cfg clock moves issuer.read := by
  refine ⟨fun id expiry hmem => ?_, h.genuine, h.once⟩
  rcases h.remembered id expiry hmem with hget | hle
  · exact .inl hget
  · exact .inr (hle.trans (hclock (Nat.le_succ _)))

theorem IssuerInv.swept (hnow : now ≤ clock issuer.reads)
    (h : IssuerInv P cfg clock moves issuer) : IssuerInv P cfg clock moves (issuer.swept now) := by
  unfold Issuer.swept
  split
  · exact h
  · refine ⟨fun id expiry hmem => ?_, h.genuine, h.once⟩
    rcases h.remembered id expiry hmem with hget | hle
    · by_cases hlt : now < expiry
      · refine .inl ?_
        show (issuer.redeemed.filter _).get? id = some expiry
        rw [get?_filter, hget, filter_some, decide_eq_true hlt]
        rfl
      · exact .inr ((not_lt.mp hlt).trans hnow)
    · exact .inr hle

theorem redeemSwept_cases {epoch : ℕ} {result : Except Failure Bytes}
    (h : redeemSwept P cfg issuer r epoch = (issuer', result)) :
    issuer' = issuer ∨ (issuer.redeemed.get? r.parsed.challengeId = none ∧
        ∃ minted, issuer' = { issuer with
            redeemed := issuer.redeemed.set r.parsed.challengeId r.parsed.expiresAtUnix
            minted := minted } ∧
          (minted = issuer.minted ∨ minted = (r.parsed.challengeId, r.parsed.expiresAtUnix) :: issuer.minted)) := by
  unfold redeemSwept at h
  simp only at h
  split at h
  · exact .inl (Prod.mk.inj h).1.symm
  split at h
  · exact .inl (Prod.mk.inj h).1.symm
  rename_i hhas
  rw [Bool.not_eq_true, has_eq_false_iff] at hhas
  split at h
  · exact .inl (Prod.mk.inj h).1.symm
  · exact .inl (Prod.mk.inj h).1.symm
  split at h
  · exact .inr ⟨hhas, issuer.minted, (Prod.mk.inj h).1.symm, .inl rfl⟩
  · exact .inr ⟨hhas, _, (Prod.mk.inj h).1.symm, .inr rfl⟩

theorem IssuerInv.redeem {minted : List (Bytes × ℤ)} (h : IssuerInv P cfg clock moves issuer)
    (hfree : issuer.redeemed.get? r.parsed.challengeId = none)
    (hminted : minted = issuer.minted ∨ minted = (r.parsed.challengeId, r.parsed.expiresAtUnix) :: issuer.minted)
    (hnew : r.parsed.challengeId ∉ issuer.minted.map Prod.fst)
    (hgenuine : ∃ body epoch, .redeem body epoch ∈ moves ∧ Genuine P cfg body r.parsed) :
    IssuerInv P cfg clock moves { issuer with
      redeemed := issuer.redeemed.set r.parsed.challengeId r.parsed.expiresAtUnix
      minted := minted } := by
  have hold : ∀ id expiry, (id, expiry) ∈ issuer.minted →
      (issuer.redeemed.set r.parsed.challengeId r.parsed.expiresAtUnix).get? id = some expiry ∨
        expiry ≤ clock issuer.reads := by
    intro id expiry hmem
    rcases h.remembered id expiry hmem with hget | hle
    · refine .inl ?_
      rw [get?_set_of_ne, hget]
      rintro rfl
      rw [hfree] at hget
      cases hget
    · exact .inr hle
  rcases hminted with rfl | rfl
  · exact ⟨hold, h.genuine, h.once⟩
  · refine ⟨fun id expiry hmem => ?_, fun id expiry hmem => ?_, nodup_cons.mpr ⟨hnew, h.once⟩⟩
    · rcases mem_cons.mp hmem with heq | hmem
      · cases heq
        exact .inl get?_set_self
      · exact hold id expiry hmem
    · rcases mem_cons.mp hmem with heq | hmem
      · cases heq
        obtain ⟨body, epoch, hmove, hc⟩ := hgenuine
        exact ⟨body, epoch, r.parsed, hmove, hc, rfl, rfl⟩
      · exact h.genuine id expiry hmem

/-- Every request keeps what the issuer remembers. -/
theorem IssuerInv.step (hclock : Monotone clock) (hone : OneChallengePerId P cfg moves)
    (h : IssuerInv P cfg clock moves issuer) {mv : IssuerRequest} (hmv : mv ∈ moves)
    (hkeeps : KeepsOwnChallenge P cfg clock issuer mv)
    (hstep : issuerStep P cfg clock issuer mv = some issuer') :
    IssuerInv P cfg clock moves issuer' := by
  cases mv with
  | challenge id =>
    simp only [issuerStep] at hstep
    split at hstep
    · cases hstep
      exact h.read hclock
    · cases hstep
      exact (h.read hclock).read hclock
  | redeem body epoch =>
    cases hstep
    unfold handleRedeem
    split
    · unfold Issuer.afterParse
      split
      · exact h.read hclock
      · exact h
    · rename_i r hr
      have hswept : IssuerInv P cfg clock moves (issuer.read.read.swept (clock issuer.read.reads)) :=
        ((h.read hclock).read hclock).swept (hclock (Nat.le_succ _))
      obtain ⟨bytes, hbytes, hparsed⟩ := redemption_eq_ok hr
      have hgenuine : Genuine P cfg body r.parsed := ⟨bytes, _, hbytes, hparsed⟩
      have hfresh := lt_expiresAtUnix hparsed
      obtain ⟨after, result, hafter⟩ : ∃ after result, redeemSwept P cfg
          (issuer.read.read.swept (clock issuer.read.reads)) r epoch = (after, result) :=
        ⟨_, _, rfl⟩
      show IssuerInv P cfg clock moves (redeemSwept P cfg
        (issuer.read.read.swept (clock issuer.read.reads)) r epoch).1
      rw [hafter]
      rcases redeemSwept_cases hafter with rfl | ⟨hfree, minted, rfl, hminted⟩
      · exact hswept
      · refine hswept.redeem hfree hminted ?_ ⟨body, epoch, hmv, hgenuine⟩
        intro hmem
        -- a token for the same id was minted from the same challenge, which has not expired
        obtain ⟨⟨id, expiry⟩, hmem, hid⟩ := mem_map.mp hmem
        have hid : id = r.parsed.challengeId := hid
        have hminted : (id, expiry) ∈ issuer.minted := by
          unfold Issuer.swept at hmem
          split at hmem <;> exact hmem
        obtain ⟨body', epoch', c, hmove, hc, hcid, hexpiry⟩ := h.genuine id expiry hminted
        obtain rfl := hone _ _ _ _ _ _ hmove hmv hc hgenuine (hcid.trans hid)
        rcases h.remembered id expiry hminted with hget | hle
        · rw [hid] at hget
          unfold Issuer.swept at hfree
          split at hfree
          · cases hget.symm.trans hfree
          · rename_i hfull
            have hlt := hkeeps r hr (not_lt.mp hfull) expiry hget
            have hkept : (issuer.redeemed.filter fun _ evictAt =>
                decide (clock (issuer.reads + 1) < evictAt)).get? r.parsed.challengeId =
                some expiry := by
              rw [get?_filter, hget, filter_some, decide_eq_true hlt]
              rfl
            cases hkept.symm.trans hfree
        · omega

/-- **At most one token per challenge**, along every run in which no request forgets the challenge
that it presents. -/
theorem one_token_per_challenge (hclock : Monotone clock) (hone : OneChallengePerId P cfg moves)
    (hkeeps : RunMeets (issuerStep P cfg clock) (KeepsOwnChallenge P cfg clock) .fresh moves)
    (hrun : run (issuerStep P cfg clock) .fresh moves = some issuer) :
    (issuer.minted.map Prod.fst).Nodup := by
  suffices hinv : ∀ (rest : List IssuerRequest) (i : Issuer), (∀ mv ∈ rest, mv ∈ moves) →
      IssuerInv P cfg clock moves i →
      RunMeets (issuerStep P cfg clock) (KeepsOwnChallenge P cfg clock) i rest →
      run (issuerStep P cfg clock) i rest = some issuer → IssuerInv P cfg clock moves issuer from
    (hinv moves .fresh (fun _ h => h) (issuerInv_fresh moves) hkeeps hrun).once
  intro rest
  induction rest with
  | nil =>
    rintro i - hi - hrun
    cases hrun
    exact hi
  | cons mv rest ih =>
    intro i hsub hi hkeeps hrun
    obtain ⟨i₁, hstep, hrest⟩ := run_cons.mp hrun
    refine ih i₁ (fun m hm => hsub m (mem_cons_of_mem _ hm)) ?_ (hkeeps.2 i₁ hstep) hrest
    exact hi.step hclock hone (hsub mv mem_cons_self) hkeeps.1 hstep

end Runs

/-! ### A challenge that is forgotten while it is redeemed -/

section Forgotten

/-- A hash for which every nonce is enough work. -/
def zeroPrimitives : Primitives where
  hmacSha256 _ _ := replicate 32 0
  sha256 _ := replicate 32 0
  length_hmacSha256 _ _ := length_replicate
  length_sha256 _ := length_replicate

/-- An issuer of challenges that are good for two minutes. -/
def sampleIssuerConfig : IssuerConfig where
  challengeKey := replicate 32 0
  tokenKey := replicate 32 0
  difficultyBits := 1
  challengeTtlSeconds := 120
  tokenTtlEpochs := 1
  maxAllowance := 2
  difficultyBits_bounds := by decide
  challengeTtlSeconds_bounds := by decide
  tokenTtlEpochs_bounds := by decide
  maxAllowance_bounds := by decide

/-- The challenge with id `n`, minted at time 0. -/
def sampleChallenge (n : ℕ) : Challenge where
  payload := challengePayload (Bytes.ofNat 32 n) 0 120 1
  challengeId := Bytes.ofNat 32 n
  issuedAtUnix := 0
  ttlSeconds := 120
  difficultyBits := 1

def sampleBody (n : ℕ) : RedeemBody where
  challenge := some ((sampleChallenge n).payload ++ replicate 32 0)
  recordCommitment := some (replicate 32 0)
  nonce := some (replicate 8 0)
  allowance := .absent

/-- Two minutes pass right after the first reading of the last request. -/
def lateClock (k : ℕ) : ℤ := if k ≤ 2 * maxRedeemedChallenges then 0 else 120

/-- Redeem as many challenges as the memory holds, and the first of them once more. -/
def forgottenMoves : List IssuerRequest :=
  (range maxRedeemedChallenges).map (fun n => .redeem (sampleBody n) 0) ++ [.redeem (sampleBody 0) 0]

theorem lateClock_monotone : Monotone lateClock := by
  intro j k hjk
  unfold lateClock
  split <;> split <;> omega

theorem parse_sampleChallenge (n : ℕ) {now : ℤ} (hnow : now < 120) :
    parsePowIssuanceV1Challenge zeroPrimitives sampleIssuerConfig.challengeKey
      ((sampleChallenge n).payload ++ replicate 32 0) now = .ok (sampleChallenge n) := by
  have hmint : mintPowIssuanceV1Challenge zeroPrimitives sampleIssuerConfig.challengeKey
      (Bytes.ofNat 32 n) 0 120 1 = .ok ((sampleChallenge n).payload ++ replicate 32 0) := by
    simp only [mintPowIssuanceV1Challenge, guards_eq_ok, asBytes_eq_ok, u32be_eq_ok]
    exact ⟨_, ⟨rfl, rfl⟩, _, ⟨Bytes.length_ofNat 32 n, rfl⟩, _, ⟨by decide, rfl⟩, _, ⟨by decide, rfl⟩, by decide, rfl⟩
  rw [parse_mintPowIssuanceV1Challenge hmint (by omega), sampleChallenge, Int.toNat_zero,
    show Int.toNat 120 = 120 by rfl]

theorem oneChallengePerId_samples {moves : List IssuerRequest}
    (hbody : ∀ body epoch, .redeem body epoch ∈ moves → ∃ n, body = sampleBody n) :
    OneChallengePerId zeroPrimitives sampleIssuerConfig moves := by
  have hgenuine : ∀ n c, Genuine zeroPrimitives sampleIssuerConfig (sampleBody n) c → c = sampleChallenge n := by
    rintro n c ⟨bytes, now, hbytes, hparsed⟩
    cases hbytes
    -- whether the challenge parses depends on the time, but not what it parses to
    have hfields := parsed_eq hparsed
    have hsample := parsed_eq (parse_sampleChallenge n (show (0 : ℤ) < 120 by decide))
    exact hfields.trans hsample.symm
  intro body epoch body' epoch' c c' hmem hmem' hc hc' hid
  obtain ⟨n, rfl⟩ := hbody body epoch hmem
  obtain ⟨n', rfl⟩ := hbody body' epoch' hmem'
  obtain rfl := hgenuine n c hc
  obtain rfl := hgenuine n' c' hc'
  have hid : Bytes.ofNat 32 n = Bytes.ofNat 32 n' := hid
  simp only [sampleChallenge, hid]

theorem samples_forgottenMoves (body : RedeemBody) (epoch : ℕ)
    (hmem : .redeem body epoch ∈ forgottenMoves) : ∃ n, body = sampleBody n := by
  rcases mem_append.mp hmem with hmem | hmem
  · obtain ⟨n, -, heq⟩ := List.mem_map.mp hmem
    exact ⟨n, (IssuerRequest.redeem.inj heq).1.symm⟩
  · exact ⟨0, (IssuerRequest.redeem.inj (mem_singleton.mp hmem)).1⟩

theorem redemption_sampleBody (n : ℕ) {now : ℤ} (hnow : now < 120) :
    redemption zeroPrimitives sampleIssuerConfig (sampleBody n) now =
      .ok ⟨sampleChallenge n, replicate 32 0, replicate 8 0, 2⟩ := by
  simp only [redemption, guards_eq_ok]
  exact ⟨_, rfl, _, parse_sampleChallenge n hnow, _, rfl, _, rfl, _, rfl, rfl⟩

theorem redeemSwept_sample {issuer : Issuer} (n : ℕ) (hsize : issuer.redeemed.size < maxRedeemedChallenges)
    (hfree : issuer.redeemed.get? (Bytes.ofNat 32 n) = none) :
    (redeemSwept zeroPrimitives sampleIssuerConfig issuer
      ⟨sampleChallenge n, replicate 32 0, replicate 8 0, 2⟩ 0).1 =
      { issuer with
        redeemed := issuer.redeemed.set (Bytes.ofNat 32 n) 120
        minted := (Bytes.ofNat 32 n, 120) :: issuer.minted } := by
  have hpayload : (challengePayload (Bytes.ofNat 32 n) 0 120 1).length = challengePayloadBytes :=
    length_challengePayload (Bytes.length_ofNat 32 n) 0 120 1
  have hzero : decide (1 ≤ countLeadingZeroBits (replicate 32 0)) = true := by decide
  have hwork : verifyPowIssuanceV1Work zeroPrimitives 1 (challengePayload (Bytes.ofNat 32 n) 0 120 1)
      (replicate 32 0) (Bytes.toNat (replicate 8 0)) = .ok true := by
    simp only [verifyPowIssuanceV1Work, powIssuanceV1Preimage, guards_eq_ok, asBytes_eq_ok]
    exact ⟨by decide, _, ⟨_, ⟨hpayload, rfl⟩, _, ⟨rfl, rfl⟩, by decide, rfl⟩, hzero⟩
  have htoken : ∃ token, mintPowIssuanceV1Token zeroPrimitives sampleIssuerConfig.tokenKey
      (Bytes.ofNat 32 n) (replicate 32 0) 2 (0 + sampleIssuerConfig.tokenTtlEpochs : ℕ) =
        .ok token := by
    simp only [mintPowIssuanceV1Token, guards_eq_ok, asBytes_eq_ok, u32be_eq_ok]
    exact ⟨_, _, ⟨rfl, rfl⟩, _, ⟨Bytes.length_ofNat 32 n, rfl⟩, _, ⟨rfl, rfl⟩, by decide, _, ⟨by decide, rfl⟩, rfl⟩
  obtain ⟨token, htoken⟩ := htoken
  have hhas : issuer.redeemed.has (Bytes.ofNat 32 n) = false := has_eq_false_iff.mpr hfree
  simp only [redeemSwept, sampleChallenge, if_neg (not_le.mpr hsize), hhas, Bool.false_eq_true,
    if_false, hwork, htoken]
  rfl

/-- What the issuer holds after `n` challenges. -/
structure Filled (n : ℕ) (issuer : Issuer) : Prop where
  size : issuer.redeemed.size = n
  reads : issuer.reads = 2 * n
  free : ∀ k, n ≤ k → k < 256 ^ 32 → issuer.redeemed.get? (Bytes.ofNat 32 k) = none
  expiry : ∀ id evictAt, issuer.redeemed.get? id = some evictAt → evictAt = 120
  minted : 0 < n → (Bytes.ofNat 32 0, 120) ∈ issuer.minted

theorem filled_fresh : Filled 0 .fresh := ⟨rfl, rfl, fun _ _ _ => rfl, nofun, nofun⟩

theorem Filled.next {n : ℕ} {issuer : Issuer} (h : Filled n issuer) (hn : n < maxRedeemedChallenges) :
    ∃ issuer', issuerStep zeroPrimitives sampleIssuerConfig lateClock issuer
      (.redeem (sampleBody n) 0) = some issuer' ∧ Filled (n + 1) issuer' := by
  have hnow : lateClock issuer.reads = 0 := if_pos (by rw [h.reads]; omega)
  have hsize : issuer.redeemed.size < maxRedeemedChallenges := by rw [h.size]; exact hn
  have hbig : n < 256 ^ 32 := hn.trans (by decide)
  have hfree := h.free n le_rfl hbig
  refine ⟨_, rfl, ?_⟩
  simp only [handleRedeem, hnow, redemption_sampleBody n (show (0 : ℤ) < 120 by decide)]
  have hswept : ∀ now, issuer.read.read.swept now = issuer.read.read := fun now => if_pos hsize
  rw [hswept, @redeemSwept_sample issuer.read.read n hsize hfree]
  refine ⟨?_, ?_, fun k hk hbound => ?_, ?_, fun _ => ?_⟩
  · exact (size_set_of_get?_eq_none hfree).trans (congrArg (· + 1) h.size)
  · show issuer.reads + 1 + 1 = 2 * (n + 1)
    rw [h.reads]
    ring
  · show (issuer.redeemed.set (Bytes.ofNat 32 n) 120).get? (Bytes.ofNat 32 k) = none
    rw [get?_set_of_ne, h.free k (by omega) hbound]
    intro heq
    have := congrArg Bytes.toNat heq
    rw [Bytes.toNat_ofNat hbound, Bytes.toNat_ofNat hbig] at this
    omega
  · exact forall_set h.expiry rfl
  · rcases Nat.eq_zero_or_pos n with rfl | hpos
    · exact mem_cons_self
    · exact mem_cons_of_mem _ (h.minted hpos)

theorem filled_run {n : ℕ} (hn : n ≤ maxRedeemedChallenges) :
    ∃ issuer, run (issuerStep zeroPrimitives sampleIssuerConfig lateClock) .fresh
      ((range n).map fun k => .redeem (sampleBody k) 0) = some issuer ∧ Filled n issuer := by
  induction n with
  | zero => exact ⟨.fresh, rfl, filled_fresh⟩
  | succ n ih =>
    obtain ⟨issuer, hrun, hfilled⟩ := ih (by omega)
    obtain ⟨issuer', hstep, hfilled'⟩ := hfilled.next (by omega)
    refine ⟨issuer', ?_, hfilled'⟩
    rw [range_succ, map_append]
    exact run_append.mpr ⟨issuer, hrun, run_cons.mpr ⟨issuer', hstep, rfl⟩⟩

/-- The first challenge expires between the two readings, so that its own request forgets it. -/
theorem Filled.again {issuer : Issuer} (h : Filled maxRedeemedChallenges issuer) :
    ∃ issuer', issuerStep zeroPrimitives sampleIssuerConfig lateClock issuer
      (.redeem (sampleBody 0) 0) = some issuer' ∧ issuer'.minted = (Bytes.ofNat 32 0, 120) :: issuer.minted := by
  have hnow : lateClock issuer.reads = 0 := if_pos h.reads.le
  have hlate : lateClock issuer.read.reads = 120 := by
    refine if_neg ?_
    show ¬ issuer.reads + 1 ≤ 2 * maxRedeemedChallenges
    rw [h.reads]
    omega
  have hempty : ∀ id, (issuer.read.read.swept 120).redeemed.get? id = none := by
    intro id
    have hfull : ¬ issuer.read.read.redeemed.size < maxRedeemedChallenges := h.size.not_lt
    rw [Issuer.swept, if_neg hfull]
    show (issuer.redeemed.filter _).get? id = none
    rw [get?_filter]
    cases hget : issuer.redeemed.get? id with
    | none => rfl
    | some evictAt =>
      obtain rfl := h.expiry id evictAt hget
      rfl
  have hsize : (issuer.read.read.swept 120).redeemed.size < maxRedeemedChallenges := by
    have hnil : (issuer.read.read.swept 120).redeemed.entries = [] := by
      refine eq_nil_iff_forall_not_mem.mpr fun e he => ?_
      have := mem_entries_iff.mp he
      rw [hempty] at this
      cases this
    show (issuer.read.read.swept 120).redeemed.entries.length < _
    rw [hnil]
    decide
  refine ⟨_, rfl, ?_⟩
  simp only [handleRedeem, hnow, redemption_sampleBody 0 (show (0 : ℤ) < 120 by decide), hlate]
  rw [redeemSwept_sample 0 hsize (hempty _)]
  show (Bytes.ofNat 32 0, 120) :: (issuer.read.read.swept 120).minted = _
  unfold Issuer.swept
  split <;> rfl

end Forgotten

/-- **Two tokens for one challenge**: the memory is full, and the challenge expires between the two
readings of the request that presents it again. -/
theorem second_token_for_challenge :
    ∃ issuer, run (issuerStep zeroPrimitives sampleIssuerConfig lateClock) .fresh forgottenMoves =
        some issuer ∧ Monotone lateClock ∧
      OneChallengePerId zeroPrimitives sampleIssuerConfig forgottenMoves ∧
      ¬ (issuer.minted.map Prod.fst).Nodup := by
  obtain ⟨issuer, hrun, hfilled⟩ := filled_run le_rfl
  obtain ⟨issuer', hstep, hminted⟩ := hfilled.again
  refine ⟨issuer', ?_, lateClock_monotone, oneChallengePerId_samples samples_forgottenMoves, fun hnodup => ?_⟩
  · exact run_append.mpr ⟨issuer, hrun, run_cons.mpr ⟨issuer', hstep, rfl⟩⟩
  · rw [hminted, map_cons, nodup_cons] at hnodup
    exact hnodup.1 (mem_map_of_mem (hfilled.minted (by decide)))

/-- A challenge is presented twice while it is remembered. -/
theorem one_token_for_replayed_challenge :
    ∃ issuer, run (issuerStep zeroPrimitives sampleIssuerConfig lateClock) .fresh
        [.redeem (sampleBody 0) 0, .redeem (sampleBody 0) 0] = some issuer ∧
      (issuer.minted.map Prod.fst).Nodup := by
  have hsamples : ∀ body epoch, .redeem body epoch ∈ [IssuerRequest.redeem (sampleBody 0) 0,
      .redeem (sampleBody 0) 0] → ∃ n, body = sampleBody n := by
    intro body epoch hmem
    rcases mem_cons.mp hmem with heq | hmem
    · exact ⟨0, (IssuerRequest.redeem.inj heq).1⟩
    · exact ⟨0, (IssuerRequest.redeem.inj (mem_singleton.mp hmem)).1⟩
  refine ⟨_, rfl, one_token_per_challenge lateClock_monotone (oneChallengePerId_samples hsamples)
    (And.intro ?_ fun s hs => And.intro ?_ fun _ _ => trivial) rfl⟩
  · exact fun r _ hfull => absurd hfull (by decide)
  · obtain ⟨s', hs', hfilled⟩ := filled_fresh.next (by decide)
    obtain rfl := mem_unique hs hs'
    exact fun r _ hfull => absurd (hfull.trans hfilled.size.le) (by decide)

end HiveRelay.Pow
