import Mathlib.Data.List.InsertIdx
import Mathlib.Data.Set.Function
import HiveRelay.Lib.Bytes
import HiveRelay.Lib.Guard

/-!
# Challenges, tokens and presentations of proof-of-work issuance

`token-codec.js`: an issuer signs challenges and, for enough work, tokens; a token carries an
allowance and the root of a list of request commitments, and each of its spends is presented
together with the commitments of the others. All signatures, roots and spend tags are HMACs, so the
whole codec is written over two primitives, HMAC and SHA-256, of which it only uses that their
outputs have 32 bytes.
-/

namespace HiveRelay.Pow

open List Bytes

/-! ### Errors -/

inductive ErrorCode where
  | powIssuanceInvalid | powChallengeInvalid | powChallengeExpired | powChallengeReplayed
  | powAllowanceInvalid | powInsufficientWork | spendInvalid | abortErr | busy | errOutOfRange
  deriving DecidableEq

/-- What `fail` throws. -/
structure Failure where
  code : ErrorCode
  message : String
  deriving DecidableEq

/-! ### Primitives -/

structure Primitives where
  hmacSha256 : Bytes → Bytes → Bytes
  sha256 : Bytes → Bytes
  length_hmacSha256 : ∀ key data, (hmacSha256 key data).length = 32
  length_sha256 : ∀ data, (sha256 data).length = 32

attribute [simp] Primitives.length_hmacSha256 Primitives.length_sha256

def ascii (text : String) : Bytes := text.toList.map fun c => UInt8.ofNat c.toNat

def tokenKeyInfo : Bytes := ascii "hiverelay/pow-issuance-v1/key/token"

def recordBindingDomain : Bytes := ascii "hiverelay/pow-issuance-v1/record-binding"

def spendTagDomain : Bytes := ascii "hiverelay/pow-issuance-v1/spend-tag"

def powDomain : Bytes := ascii "hiverelay/pow-issuance-v1/pow"

/-- `POW_ISSUANCE_V1_MAX_ALLOWANCE`. -/
def maxAllowance : ℕ := 8

/-- `POW_ISSUANCE_V1_MAX_DIFFICULTY_BITS`. -/
def maxDifficultyBits : ℕ := 32

/-- `POW_ISSUANCE_V1_CHALLENGE_PAYLOAD_BYTES`. -/
def challengePayloadBytes : ℕ := 42

/-- `POW_ISSUANCE_V1_CHALLENGE_BYTES`. -/
def challengeBytes : ℕ := 74

/-- `POW_ISSUANCE_V1_TOKEN_PAYLOAD_BYTES`. -/
def tokenPayloadBytes : ℕ := 71

/-- `POW_ISSUANCE_V1_TOKEN_BYTES`. -/
def tokenBytes : ℕ := 103

/-- `POW_ISSUANCE_V1_SCHEME_ID`. -/
def schemeId : ℕ := 1

/-- `asBytes` with a length. -/
def asBytes (value : Bytes) (field : String) (length : ℕ) : Except Failure Bytes := do
  require (value.length = length) ⟨.powIssuanceInvalid, field ++ " must be exactly " ++ toString length ++ " bytes"⟩
  pure value

/-- The loop over the entries of a list of commitments. -/
def commitmentSlots (entries : List (Bytes × ℕ)) : Except Failure (List Bytes) :=
  entries.mapM fun entry => asBytes entry.1 ("commitments[" ++ toString entry.2 ++ "]") 32

def u32be (value : ℤ) (field : String) : Except Failure ℕ := do
  require (0 ≤ value ∧ value ≤ 0xffffffff) ⟨.powIssuanceInvalid, field ++ " is outside u32"⟩
  pure value.toNat

section Codec

variable (P : Primitives)

/-! ### Challenges -/

/-- What `parsePowIssuanceV1Challenge` returns. -/
structure Challenge where
  (payload challengeId : Bytes)
  (issuedAtUnix ttlSeconds difficultyBits : ℕ)

/-- The time from which a challenge is expired. -/
def Challenge.expiresAtUnix (c : Challenge) : ℤ := (c.issuedAtUnix + c.ttlSeconds : ℕ)

def challengePayload (challengeId : Bytes) (issuedAtUnix ttlSeconds difficultyBits : ℕ) : Bytes :=
  [1] ++ (challengeId ++ (ofNat 4 issuedAtUnix ++ (ofNat 4 ttlSeconds ++ ofNat 1 difficultyBits)))

/-- `mintPowIssuanceV1Challenge`, with its random id as an argument. -/
def mintPowIssuanceV1Challenge (challengeKey challengeId : Bytes) (issuedAtUnix ttlSeconds : ℤ)
    (difficultyBits : ℕ) : Except Failure Bytes := do
  let key ← asBytes challengeKey "challenge key" 32
  let challengeId ← asBytes challengeId "challengeId" 32
  let issuedAtUnix ← u32be issuedAtUnix "issuedAtUnix"
  let ttlSeconds ← u32be ttlSeconds "ttlSeconds"
  require (1 ≤ difficultyBits ∧ difficultyBits ≤ maxDifficultyBits)
    ⟨.powIssuanceInvalid, "difficultyBits is outside 1..32"⟩
  let payload := challengePayload challengeId issuedAtUnix ttlSeconds difficultyBits
  pure (payload ++ P.hmacSha256 key payload)

/-- The fields of the payload of a challenge. -/
def Challenge.ofPayload (payload : Bytes) : Challenge where
  payload := payload
  challengeId := payload.window 1 32
  issuedAtUnix := toNat (payload.window 33 4)
  ttlSeconds := toNat (payload.window 37 4)
  difficultyBits := toNat (payload.window 41 1)

def parsePowIssuanceV1Challenge (challengeKey challenge : Bytes) (nowUnix : ℤ) :
    Except Failure Challenge := do
  let key ← asBytes challengeKey "challenge key" 32
  let bytes ← asBytes challenge "challenge" challengeBytes
  let payload : Bytes := bytes.take challengePayloadBytes
  require (bytes.drop challengePayloadBytes = P.hmacSha256 key payload)
    ⟨.powChallengeInvalid, "pow-issuance-v1 challenge signature is invalid"⟩
  require (payload.window 0 1 = [1]) ⟨.powChallengeInvalid, "pow-issuance-v1 challenge version is unsupported"⟩
  let parsed := Challenge.ofPayload payload
  require (nowUnix < parsed.expiresAtUnix) ⟨.powChallengeExpired, "pow-issuance-v1 challenge has expired"⟩
  pure parsed

/-! ### Work -/

def countLeadingZeroBits : Bytes → ℕ
  | [] => 0
  | byte :: rest => if byte = 0 then 8 + countLeadingZeroBits rest else 7 - Nat.log2 byte.toNat

def powIssuanceV1Preimage (payload recordCommitment : Bytes) (nonce : ℕ) : Except Failure Bytes := do
  let payload ← asBytes payload "challengePayload" challengePayloadBytes
  let recordCommitment ← asBytes recordCommitment "recordCommitment" 32
  require (nonce < 2 ^ 64) ⟨.powIssuanceInvalid, "nonce is outside u64"⟩
  pure (powDomain ++ payload ++ recordCommitment ++ ofNat 8 nonce)

def verifyPowIssuanceV1Work (difficultyBits : ℕ) (payload recordCommitment : Bytes) (nonce : ℕ) :
    Except Failure Bool := do
  require (1 ≤ difficultyBits ∧ difficultyBits ≤ maxDifficultyBits)
    ⟨.powIssuanceInvalid, "difficultyBits is outside 1..32"⟩
  let preimage ← powIssuanceV1Preimage payload recordCommitment nonce
  pure (difficultyBits ≤ countLeadingZeroBits (P.sha256 preimage))

/-! ### Tokens -/

/-- What `parsePowIssuanceV1Token` returns. -/
structure TokenFields where
  (token challengeId recordCommitment : Bytes)
  (allowance expiryEpoch : ℕ)
  deriving DecidableEq

def tokenPayload (challengeId recordCommitment : Bytes) (allowance expiryEpoch : ℕ) : Bytes :=
  [1, 1] ++ (challengeId ++ (recordCommitment ++ (ofNat 1 allowance ++ ofNat 4 expiryEpoch)))

def mintPowIssuanceV1Token (tokenKey challengeId recordCommitment : Bytes) (allowance : ℕ)
    (expiryEpoch : ℤ) : Except Failure Bytes := do
  let key ← asBytes tokenKey "token key" 32
  let challengeId ← asBytes challengeId "challengeId" 32
  let recordCommitment ← asBytes recordCommitment "recordCommitment" 32
  require (1 ≤ allowance ∧ allowance ≤ maxAllowance) ⟨.powAllowanceInvalid, "allowance is outside 1..8"⟩
  let expiryEpoch ← u32be expiryEpoch "expiryEpoch"
  let payload := tokenPayload challengeId recordCommitment allowance expiryEpoch
  pure (payload ++ P.hmacSha256 key payload)

def TokenFields.ofBytes (token : Bytes) : TokenFields where
  token := token
  challengeId := token.window 2 32
  recordCommitment := token.window 34 32
  allowance := toNat (token.window 66 1)
  expiryEpoch := toNat (token.window 67 4)

def parsePowIssuanceV1Token (tokenKey token : Bytes) : Except Failure TokenFields := do
  let key ← asBytes tokenKey "token key" 32
  let bytes ← asBytes token "token" tokenBytes
  require (bytes.drop tokenPayloadBytes = P.hmacSha256 key (bytes.take tokenPayloadBytes))
    ⟨.spendInvalid, "pow-issuance-v1 token signature is invalid"⟩
  require (bytes.window 0 2 = [1, 1]) ⟨.spendInvalid, "pow-issuance-v1 token version is unsupported"⟩
  let fields := TokenFields.ofBytes bytes
  require (1 ≤ fields.allowance ∧ fields.allowance ≤ maxAllowance)
    ⟨.spendInvalid, "pow-issuance-v1 token allowance is outside 1..8"⟩
  pure fields

/-- What the root of a list of commitments is the HMAC of. -/
def rootMessage (commitments : List Bytes) : Bytes :=
  ofNat 1 commitments.length ++ commitments.flatten

def powIssuanceV1RecordBindingRoot (commitments : List Bytes) : Except Failure Bytes := do
  require (1 ≤ commitments.length ∧ commitments.length ≤ maxAllowance)
    ⟨.powIssuanceInvalid, "commitment list is outside 1..8 slots"⟩
  let parts ← commitmentSlots commitments.zipIdx
  pure (P.hmacSha256 recordBindingDomain (rootMessage parts))

/-- What the spend tag of a token is the HMAC of. -/
def spendMessage (token : Bytes) (spendIndex : ℕ) : Bytes := token ++ ofNat 1 spendIndex

def powIssuanceV1SpendTag (token : Bytes) (spendIndex : ℕ) : Except Failure Bytes := do
  let token ← asBytes token "token" tokenBytes
  require (spendIndex ≤ 255) ⟨.powIssuanceInvalid, "spendIndex is outside u8"⟩
  pure (P.hmacSha256 spendTagDomain (spendMessage token spendIndex))

end Codec

/-! ### Presentations -/

/-- What `parsePowIssuanceV1Presentation` returns. -/
structure Presentation where
  token : Bytes
  spendIndex : ℕ
  siblings : List Bytes

/-- `buildPowIssuanceV1Presentation`; the siblings are the commitments but the one that is spent. -/
def buildPowIssuanceV1Presentation (token : Bytes) (spendIndex : ℕ) (commitments : List Bytes) :
    Except Failure Bytes := do
  let token ← asBytes token "token" tokenBytes
  require (1 ≤ commitments.length ∧ commitments.length ≤ maxAllowance)
    ⟨.powIssuanceInvalid, "commitment list is outside 1..8 slots"⟩
  require (spendIndex < commitments.length) ⟨.powIssuanceInvalid, "spendIndex is outside the commitment list"⟩
  let siblings ← commitmentSlots (commitments.zipIdx.eraseIdx spendIndex)
  pure (token ++ (ofNat 1 spendIndex ++ siblings.flatten))

/-- The windows of 32 bytes of a string, one after the other. -/
def slots (b : Bytes) : ℕ → List Bytes
  | 0 => []
  | count + 1 => b.take 32 :: slots (b.drop 32) count

def parsePowIssuanceV1Presentation (presentation : Bytes) : Except Failure Presentation := do
  require (tokenBytes + 1 ≤ presentation.length ∧ (presentation.length - tokenBytes - 1) % 32 = 0)
    ⟨.spendInvalid, "pow-issuance-v1 presentation is malformed"⟩
  pure
    { token := presentation.take tokenBytes
      spendIndex := toNat (presentation.window tokenBytes 1)
      siblings := slots (presentation.drop (tokenBytes + 1))
        ((presentation.length - tokenBytes - 1) / 32) }

/-! ### What is minted parses -/

variable {token : Bytes}

section Minted

variable {P : Primitives}

theorem asBytes_eq_ok {value bytes : Bytes} {field : String} {length : ℕ} :
    asBytes value field length = .ok bytes ↔ value.length = length ∧ value = bytes := by
  simp only [asBytes, guards_eq_ok]

theorem commitmentSlots_eq_ok {entries : List (Bytes × ℕ)} {l : List Bytes} : commitmentSlots entries = .ok l ↔
    (∀ c ∈ entries.map Prod.fst, c.length = 32) ∧ entries.map Prod.fst = l := by
  unfold commitmentSlots
  induction entries generalizing l with
  | nil => simp [pure_eq_ok_iff]
  | cons entry entries ih =>
    simp only [mapM_cons, guards_eq_ok, asBytes_eq_ok, ih, map_cons, forall_mem_cons]
    constructor
    · rintro ⟨_, ⟨hentry, rfl⟩, _, ⟨hentries, rfl⟩, rfl⟩
      exact ⟨⟨hentry, hentries⟩, rfl⟩
    · rintro ⟨⟨hentry, hentries⟩, rfl⟩
      exact ⟨_, ⟨hentry, rfl⟩, _, ⟨hentries, rfl⟩, rfl⟩

theorem map_fst_zipIdx_eraseIdx (l : List Bytes) (i : ℕ) : (l.zipIdx.eraseIdx i).map Prod.fst = l.eraseIdx i := by
  rw [← eraseIdx_map, zipIdx_map_fst]

theorem u32be_eq_ok {value : ℤ} {field : String} {n : ℕ} :
    u32be value field = .ok n ↔ (0 ≤ value ∧ value ≤ 0xffffffff) ∧ value.toNat = n := by
  simp only [u32be, guards_eq_ok]

variable {id : Bytes}

theorem length_challengePayload (hid : id.length = 32) (issued ttl bits : ℕ) :
    (challengePayload id issued ttl bits).length = challengePayloadBytes := by
  simp [challengePayload, challengePayloadBytes, hid]

theorem ofPayload_challengePayload {id : Bytes} {issued ttl bits : ℕ} (hid : id.length = 32)
    (hissued : issued < 256 ^ 4) (httl : ttl < 256 ^ 4) (hbits : bits < 256 ^ 1) :
    Challenge.ofPayload (challengePayload id issued ttl bits) =
      ⟨challengePayload id issued ttl bits, id, issued, ttl, bits⟩ := by
  have hreads := reads_flatten_append [[1], id, ofNat 4 issued, ofNat 4 ttl, ofNat 1 bits] []
  simp only [Reads, length_singleton, hid, length_ofNat, flatten_cons, flatten_nil, append_nil, Nat.reduceAdd] at hreads
  obtain ⟨-, hwid, hwissued, hwttl, hwbits, -⟩ := hreads
  rw [Challenge.ofPayload, challengePayload, hwid, hwissued, hwttl, hwbits, toNat_ofNat hissued,
    toNat_ofNat httl, toNat_ofNat hbits]

/-- **A challenge that was minted parses until it expires.** -/
theorem parse_mintPowIssuanceV1Challenge {key bytes : Bytes} {issued ttl now : ℤ} {bits : ℕ}
    (h : mintPowIssuanceV1Challenge P key id issued ttl bits = .ok bytes)
    (hnow : now < issued + ttl) :
    parsePowIssuanceV1Challenge P key bytes now =
      .ok ⟨challengePayload id issued.toNat ttl.toNat bits, id, issued.toNat, ttl.toNat, bits⟩ := by
  simp only [mintPowIssuanceV1Challenge, guards_eq_ok, asBytes_eq_ok, u32be_eq_ok] at h
  obtain ⟨_, ⟨hkey, rfl⟩, _, ⟨hid, rfl⟩, _, ⟨hissued, rfl⟩, _, ⟨httl, rfl⟩, hbits, rfl⟩ := h
  have hlength := length_challengePayload hid issued.toNat ttl.toNat bits
  have hbound : bits < 256 ^ 1 := by unfold maxDifficultyBits at hbits; omega
  have hfields := @ofPayload_challengePayload id issued.toNat ttl.toNat bits hid (by omega) (by omega) hbound
  simp only [parsePowIssuanceV1Challenge, guards_eq_ok, asBytes_eq_ok]
  refine ⟨key, ⟨hkey, rfl⟩, _, ⟨?_, rfl⟩, ?_, ?_, ?_, ?_⟩
  · rw [length_append, hlength, P.length_hmacSha256]
    rfl
  · rw [← hlength, drop_left, take_left]
  · rfl
  · rw [← hlength, take_left, hfields]
    show now < ((issued.toNat + ttl.toNat : ℕ) : ℤ)
    omega
  · rw [← hlength, take_left, hfields]

theorem length_tokenPayload {commitment : Bytes} (hid : id.length = 32)
    (hcommitment : commitment.length = 32) (allowance epoch : ℕ) :
    (tokenPayload id commitment allowance epoch).length = tokenPayloadBytes := by
  simp [tokenPayload, tokenPayloadBytes, hid, hcommitment]

theorem ofBytes_tokenPayload {id commitment signature : Bytes} {allowance epoch : ℕ}
    (hid : id.length = 32) (hcommitment : commitment.length = 32) (hallowance : allowance < 256 ^ 1)
    (hepoch : epoch < 256 ^ 4) :
    TokenFields.ofBytes (tokenPayload id commitment allowance epoch ++ signature) =
      ⟨tokenPayload id commitment allowance epoch ++ signature, id, commitment, allowance, epoch⟩ := by
  have hreads := reads_flatten_append
    [[1, 1], id, commitment, ofNat 1 allowance, ofNat 4 epoch] signature
  simp only [Reads, length_cons, length_nil, hid, hcommitment, length_ofNat, flatten_cons, flatten_nil, append_nil,
    append_assoc, Nat.reduceAdd] at hreads
  obtain ⟨-, hwid, hwcommitment, hwallowance, hwepoch, -⟩ := hreads
  rw [TokenFields.ofBytes, tokenPayload]
  simp only [append_assoc]
  rw [hwid, hwcommitment, hwallowance, hwepoch, toNat_ofNat hallowance,
    toNat_ofNat hepoch]

theorem parse_mintPowIssuanceV1Token {key commitment : Bytes} {allowance : ℕ} {epoch : ℤ}
    (h : mintPowIssuanceV1Token P key id commitment allowance epoch = .ok token) :
    token.length = tokenBytes ∧
      parsePowIssuanceV1Token P key token = .ok ⟨token, id, commitment, allowance, epoch.toNat⟩ := by
  simp only [mintPowIssuanceV1Token, guards_eq_ok, asBytes_eq_ok, u32be_eq_ok] at h
  obtain ⟨_, ⟨hkey, rfl⟩, _, ⟨hid, rfl⟩, _, ⟨hcommitment, rfl⟩, hallowance, _, ⟨hepoch, rfl⟩, rfl⟩ := h
  have hlength := length_tokenPayload hid hcommitment allowance epoch.toNat
  have hbound : allowance < 256 ^ 1 := by unfold maxAllowance at hallowance; omega
  have hfields := @ofBytes_tokenPayload id commitment
    (P.hmacSha256 key (tokenPayload id commitment allowance epoch.toNat)) allowance epoch.toNat hid
    hcommitment hbound (by omega)
  have htoken : (tokenPayload id commitment allowance epoch.toNat ++
      P.hmacSha256 key (tokenPayload id commitment allowance epoch.toNat)).length = tokenBytes := by
    rw [length_append, hlength, P.length_hmacSha256]
    rfl
  refine ⟨htoken, ?_⟩
  simp only [parsePowIssuanceV1Token, guards_eq_ok, asBytes_eq_ok]
  refine ⟨key, ⟨hkey, rfl⟩, _, ⟨htoken, rfl⟩, ?_, ?_, ?_, hfields⟩
  · rw [← hlength, drop_left, take_left]
  · rfl
  · rw [hfields]
    exact hallowance

end Minted

/-! ### Lists of commitments -/

section Slots

variable {l : List Bytes}

theorem slots_flatten (hl : ∀ c ∈ l, c.length = 32) : slots l.flatten l.length = l := by
  induction l with
  | nil => rfl
  | cons c l ih =>
    have hc : c.length = 32 := hl c mem_cons_self
    rw [flatten_cons, length_cons, slots, ← hc, take_left, drop_left,
      ih fun c' hc' => hl c' (mem_cons_of_mem _ hc')]

theorem length_slots (b : Bytes) (count : ℕ) : (slots b count).length = count := by
  induction count generalizing b with
  | zero => rfl
  | succ count ih => rw [slots, length_cons, ih]

theorem length_of_mem_slots {b : Bytes} {count : ℕ} (h : 32 * count ≤ b.length) {c : Bytes}
    (hc : c ∈ slots b count) : c.length = 32 := by
  induction count generalizing b with
  | zero => exact absurd hc not_mem_nil
  | succ count ih =>
    rcases mem_cons.mp hc with rfl | hc
    · rw [length_take]
      omega
    · refine ih ?_ hc
      rw [length_drop]
      omega

theorem length_flatten_of_slots (hl : ∀ c ∈ l, c.length = 32) : l.flatten.length = 32 * l.length := by
  induction l with
  | nil => rfl
  | cons c l ih =>
    rw [flatten_cons, length_append, length_cons, hl c mem_cons_self,
      ih fun c' hc' => hl c' (mem_cons_of_mem _ hc')]
    omega

theorem flatten_injective {l' : List Bytes} (hl : ∀ c ∈ l, c.length = 32)
    (hl' : ∀ c ∈ l', c.length = 32) (h : l.flatten = l'.flatten) : l = l' := by
  have hlength : l.length = l'.length := by
    have := congrArg length h
    rw [length_flatten_of_slots hl, length_flatten_of_slots hl'] at this
    omega
  rw [← slots_flatten hl, ← slots_flatten hl', h, hlength]

variable {P : Primitives}

theorem recordBindingRoot_eq_ok {commitments : List Bytes} {root : Bytes} :
    powIssuanceV1RecordBindingRoot P commitments = .ok root ↔
      (1 ≤ commitments.length ∧ commitments.length ≤ maxAllowance) ∧ (∀ c ∈ commitments, c.length = 32) ∧
        P.hmacSha256 recordBindingDomain (rootMessage commitments) = root := by
  simp only [powIssuanceV1RecordBindingRoot, guards_eq_ok, commitmentSlots_eq_ok, zipIdx_map_fst]
  constructor
  · rintro ⟨hbounds, _, ⟨hslots, rfl⟩, hroot⟩
    exact ⟨hbounds, hslots, hroot⟩
  · rintro ⟨hbounds, hslots, hroot⟩
    exact ⟨hbounds, _, ⟨hslots, rfl⟩, hroot⟩

/-- **The root of a list determines the list**, among messages without a collision. -/
theorem recordBindingRoot_injective {messages : Set Bytes}
    (hinj : Set.InjOn (P.hmacSha256 recordBindingDomain) messages) {l' : List Bytes} {root : Bytes}
    (hmem : rootMessage l ∈ messages) (hmem' : rootMessage l' ∈ messages)
    (h : powIssuanceV1RecordBindingRoot P l = .ok root)
    (h' : powIssuanceV1RecordBindingRoot P l' = .ok root) : l = l' := by
  obtain ⟨-, hl, rfl⟩ := recordBindingRoot_eq_ok.mp h
  obtain ⟨-, hl', heq⟩ := recordBindingRoot_eq_ok.mp h'
  refine flatten_injective hl hl' ?_
  exact (append_inj (hinj hmem hmem' heq.symm) (by simp)).2

theorem spendTag_eq_ok {tag : Bytes} {spendIndex : ℕ} : powIssuanceV1SpendTag P token spendIndex = .ok tag ↔
      token.length = tokenBytes ∧ spendIndex ≤ 255 ∧
        P.hmacSha256 spendTagDomain (spendMessage token spendIndex) = tag := by
  simp only [powIssuanceV1SpendTag, guards_eq_ok, asBytes_eq_ok]
  constructor
  · rintro ⟨_, ⟨htoken, rfl⟩, hindex, htag⟩
    exact ⟨htoken, hindex, htag⟩
  · rintro ⟨htoken, hindex, htag⟩
    exact ⟨token, ⟨htoken, rfl⟩, hindex, htag⟩

theorem spendTag_injective {messages : Set Bytes}
    (hinj : Set.InjOn (P.hmacSha256 spendTagDomain) messages) {token' tag : Bytes} {i i' : ℕ}
    (hmem : spendMessage token i ∈ messages) (hmem' : spendMessage token' i' ∈ messages)
    (h : powIssuanceV1SpendTag P token i = .ok tag)
    (h' : powIssuanceV1SpendTag P token' i' = .ok tag) : token = token' ∧ i = i' := by
  obtain ⟨htoken, hi, rfl⟩ := spendTag_eq_ok.mp h
  obtain ⟨htoken', hi', heq⟩ := spendTag_eq_ok.mp h'
  obtain ⟨hsame, hindex⟩ := append_inj (hinj hmem hmem' heq.symm) (htoken.trans htoken'.symm)
  refine ⟨hsame, ?_⟩
  calc i = toNat (ofNat 1 i) := (toNat_ofNat (by omega)).symm
    _ = toNat (ofNat 1 i') := by rw [hindex]
    _ = i' := toNat_ofNat (by omega)

theorem parse_buildPowIssuanceV1Presentation {bytes : Bytes} {spendIndex : ℕ} {commitments : List Bytes}
    (h : buildPowIssuanceV1Presentation token spendIndex commitments = .ok bytes) :
    parsePowIssuanceV1Presentation bytes = .ok ⟨token, spendIndex, commitments.eraseIdx spendIndex⟩ := by
  simp only [buildPowIssuanceV1Presentation, guards_eq_ok, asBytes_eq_ok, commitmentSlots_eq_ok,
    map_fst_zipIdx_eraseIdx] at h
  obtain ⟨_, ⟨htoken, rfl⟩, hcount, hindex, _, ⟨hsiblings, rfl⟩, rfl⟩ := h
  set siblings := commitments.eraseIdx spendIndex
  have hflat := length_flatten_of_slots hsiblings
  have hrest : (token ++ (ofNat 1 spendIndex ++ siblings.flatten)).length =
      tokenBytes + 1 + 32 * siblings.length := by
    simp only [length_append, htoken, length_ofNat, hflat]
    omega
  have hdrop : (token ++ (ofNat 1 spendIndex ++ siblings.flatten)).drop (tokenBytes + 1) =
      siblings.flatten := by
    rw [← htoken, ← drop_drop, drop_left]
    exact drop_left' (length_ofNat _ _)
  have hwindow : window (token ++ (ofNat 1 spendIndex ++ siblings.flatten)) tokenBytes
      1 = ofNat 1 spendIndex := by
    rw [window_append_right _ _ (by rw [htoken]), htoken, Nat.sub_self]
    exact window_append_left _ (length_ofNat _ _)
  have hlength : (tokenBytes + 1 + 32 * siblings.length - tokenBytes - 1) = 32 * siblings.length := by
    omega
  simp only [parsePowIssuanceV1Presentation, guards_eq_ok, hrest, hdrop, hwindow, hlength]
  refine ⟨⟨by omega, by omega⟩, ?_⟩
  rw [Nat.mul_div_cancel_left _ (by decide), slots_flatten hsiblings, ← htoken, take_left,
    toNat_ofNat (by unfold maxAllowance at hcount; omega)]

end Slots

end HiveRelay.Pow
