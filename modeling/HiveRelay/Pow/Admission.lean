import Mathlib.Data.Set.Card
import HiveRelay.Pow.Sha256

/-!
# Admission by proof-of-work tokens

`PowIssuanceV1AdmissionAdapter` decides whether a request is admitted. A request comes with the
presentation of one spend of a token: the token, the index of the spend, and the commitments of the
other spends. The adapter puts the commitment of the request at its index among the others and
compares the root of the list with the one that the token signs. What it admits is spent once,
because the spend tag is kept by the storage engine; so what matters is that a spend tag stands for
one request.

The hash is a parameter, and where a result needs that it has no collisions it says among which
messages: no function to 32 bytes is injective on all of them.

## Main definitions

* `Verified` — what the adapter lets in

## Main results

* `interleave_eq_insertIdx` — the list that is hashed
* `token_binding` — what a token admits
-/

namespace HiveRelay.Pow

open List

/-! ### The adapter -/

/-- The options of the adapter, in their bounds, and the key derived from the issuer key. -/
structure Adapter where
  tokenKey : Bytes
  maxAllowance : ℕ
  closed : Bool
  maxAllowance_bounds : 1 ≤ maxAllowance ∧ maxAllowance ≤ Pow.maxAllowance

structure AdmissionInput where
  (profileId schemeId : ℕ)
  (parameterHash token requestCommitment : Bytes)
  (familyId operationId resourceClass leaseClass costUnits : ℕ)
  descriptorSequence : Option ℕ
  aborted : Bool

/-- What `_verify` returns. -/
structure Verified where
  token : Bytes
  spendIndex : ℕ
  fields : TokenFields
  deriving DecidableEq

/-- What `_proof` returns. -/
structure Proof where
  (spendTag requestCommitment : Bytes)
  (resourceClass leaseClass costUnits : ℕ)
  walCommitRecord : Bytes
  (profileId schemeId : ℕ)
  parameterHash : Bytes

/-- The loop of `_verify` from `index` on: the commitment of the request at its index, and the
siblings in their order elsewhere. -/
def interleave (spendIndex : ℕ) (requestCommitment : Bytes) : ℕ → ℕ → List Bytes → List Bytes
  | 0, _, _ => []
  | count + 1, index, siblings =>
    if index = spendIndex then
      requestCommitment :: interleave spendIndex requestCommitment count (index + 1) siblings
    else
      siblings.headD [] :: interleave spendIndex requestCommitment count (index + 1) siblings.tail

/-- `walCommitRecord`; a number that does not fit is refused by `writeUInt16BE` and
`writeBigUInt64BE`, and cut by the assignment of a byte. -/
def walCommitRecord (input : AdmissionInput) (fields : TokenFields) (spendIndex : ℕ) :
    Except Failure Bytes := do
  require (input.profileId < 2 ^ 16) ⟨.errOutOfRange, "value is out of range"⟩
  require (input.schemeId < 2 ^ 16) ⟨.errOutOfRange, "value is out of range"⟩
  require (input.costUnits < 2 ^ 64) ⟨.errOutOfRange, "value is out of range"⟩
  require (input.descriptorSequence.getD 0 < 2 ^ 64) ⟨.errOutOfRange, "value is out of range"⟩
  pure ([1] ++ Bytes.ofNat 2 input.profileId ++ Bytes.ofNat 2 input.schemeId ++
    Bytes.ofNat 1 spendIndex ++ Bytes.ofNat 1 fields.allowance ++ Bytes.ofNat 4 fields.expiryEpoch ++
    fields.challengeId ++ input.requestCommitment ++ Bytes.ofNat 1 input.familyId ++
    Bytes.ofNat 1 input.operationId ++ Bytes.ofNat 1 input.resourceClass ++
    Bytes.ofNat 1 input.leaseClass ++ Bytes.ofNat 8 input.costUnits ++
    Bytes.ofNat 8 (input.descriptorSequence.getD 0))

section Adapter

variable (P : Primitives) (adapter : Adapter)

/-- `_verify`; `epoch` is the answer of `epochNow`. -/
def verify (input : AdmissionInput) (epoch : ℤ) : Except Failure Verified := do
  require (adapter.closed = false) ⟨.spendInvalid, "pow-issuance-v1 adapter is closed"⟩
  require (input.schemeId = schemeId) ⟨.spendInvalid, "pow-issuance-v1 adapter received a foreign schemeId"⟩
  require (input.aborted = false) ⟨.abortErr, "pow-issuance-v1 verification crossed its abort fence"⟩
  let presentation ← parsePowIssuanceV1Presentation input.token
  let fields ← parsePowIssuanceV1Token P adapter.tokenKey presentation.token
  require (fields.allowance ≤ adapter.maxAllowance)
    ⟨.spendInvalid, "pow-issuance-v1 token allowance exceeds the relay cap"⟩
  require (presentation.spendIndex < fields.allowance ∧ presentation.siblings.length + 1 = fields.allowance)
    ⟨.spendInvalid, "pow-issuance-v1 presentation does not match its signed allowance"⟩
  require (0 ≤ epoch ∧ epoch < fields.expiryEpoch) ⟨.spendInvalid, "pow-issuance-v1 token is expired"⟩
  let root ← powIssuanceV1RecordBindingRoot P (interleave presentation.spendIndex
    input.requestCommitment fields.allowance 0 presentation.siblings)
  require (root = fields.recordCommitment)
    ⟨.spendInvalid, "pow-issuance-v1 token is not bound to this request commitment"⟩
  pure ⟨presentation.token, presentation.spendIndex, fields⟩

def proof (input : AdmissionInput) (verified : Verified) : Except Failure Proof := do
  let spendTag ← powIssuanceV1SpendTag P verified.token verified.spendIndex
  let record ← walCommitRecord input verified.fields verified.spendIndex
  pure
    { input with
      spendTag := spendTag
      walCommitRecord := record }

/-- `prepare`, and `confirmAfterEof`. -/
def prepare (input : AdmissionInput) (epoch : ℤ) : Except Failure Proof := do
  let verified ← verify P adapter input epoch
  proof P input verified

end Adapter

/-! ### What is put together -/

theorem interleave_rest {spendIndex index : ℕ} (h : spendIndex < index) (c : Bytes)
    (siblings : List Bytes) : interleave spendIndex c siblings.length index siblings = siblings := by
  induction siblings generalizing index with
  | nil => rfl
  | cons a l ih =>
    rw [length_cons, interleave, if_neg (by omega), tail_cons, ih (by omega)]
    rfl

theorem interleave_shift (spendIndex index : ℕ) (c : Bytes) (siblings : List Bytes)
    (h : spendIndex ≤ siblings.length) :
    interleave (index + spendIndex) c (siblings.length + 1) index siblings =
      siblings.insertIdx spendIndex c := by
  induction spendIndex generalizing index siblings with
  | zero =>
    rw [insertIdx_zero, interleave, if_pos (by omega), interleave_rest (by omega)]
  | succ spendIndex ih =>
    cases siblings with
    | nil => exact absurd h (by simp)
    | cons a l =>
      rw [length_cons, interleave, if_neg (by omega), insertIdx_succ_cons]
      have := ih (index + 1) l (by simpa using h)
      rw [show index + 1 + spendIndex = index + (spendIndex + 1) by omega] at this
      rw [tail_cons, this]
      rfl

/-- **The adapter puts the commitment of the request at its index.** -/
theorem interleave_eq_insertIdx {spendIndex allowance : ℕ} {c : Bytes} {siblings : List Bytes}
    (hindex : spendIndex < allowance) (hcount : siblings.length + 1 = allowance) :
    interleave spendIndex c allowance 0 siblings = siblings.insertIdx spendIndex c := by
  have := interleave_shift spendIndex 0 c siblings (by omega)
  rwa [Nat.zero_add, hcount] at this

/-! ### Acceptances -/

section Acceptances

variable {P : Primitives} {adapter : Adapter} {input : AdmissionInput} {epoch : ℤ} {v : Verified}

theorem parseToken_eq_ok {key token : Bytes} {fields : TokenFields}
    (h : parsePowIssuanceV1Token P key token = .ok fields) :
    fields = TokenFields.ofBytes token ∧ token.length = tokenBytes ∧
      1 ≤ fields.allowance ∧ fields.allowance ≤ maxAllowance := by
  simp only [parsePowIssuanceV1Token, guards_eq_ok, asBytes_eq_ok] at h
  obtain ⟨_, -, _, ⟨hlength, rfl⟩, -, -, hallowance, rfl⟩ := h
  exact ⟨rfl, hlength, hallowance⟩

/-- What holds of a request that is admitted. -/
structure Admitted (P : Primitives) (input : AdmissionInput) (v : Verified) (siblings : List Bytes) :
    Prop where
  presentation : parsePowIssuanceV1Presentation input.token = .ok ⟨v.token, v.spendIndex, siblings⟩
  fields : v.fields = TokenFields.ofBytes v.token
  length : v.token.length = tokenBytes
  allowance : v.fields.allowance ≤ maxAllowance
  index : v.spendIndex < v.fields.allowance
  count : siblings.length + 1 = v.fields.allowance
  root : powIssuanceV1RecordBindingRoot P (siblings.insertIdx v.spendIndex input.requestCommitment) =
    .ok v.fields.recordCommitment

theorem admitted_of_verify (h : verify P adapter input epoch = .ok v) : ∃ siblings, Admitted P input v siblings := by
  simp only [verify, guards_eq_ok] at h
  obtain ⟨-, -, -, presentation, hpresentation, fields, hfields, -, ⟨hindex, hcount⟩, -, root, hroot, rfl, rfl⟩ := h
  obtain ⟨hbytes, hlength, -, hallowance⟩ := parseToken_eq_ok hfields
  rw [interleave_eq_insertIdx hindex hcount] at hroot
  exact ⟨presentation.siblings, hpresentation, hbytes, hlength, hallowance, hindex, hcount, hroot⟩

variable (P) in
/-- A request that an adapter has admitted, with its spend tag. -/
structure Acceptance where
  adapter : Adapter
  input : AdmissionInput
  epoch : ℤ
  verified : Verified
  spendTag : Bytes
  accepted : verify P adapter input epoch = .ok verified
  tagged : powIssuanceV1SpendTag P verified.token verified.spendIndex = .ok spendTag

/-- The list that the adapter compared with the root of the token. -/
def Acceptance.Commitments (a : Acceptance P) (l : List Bytes) : Prop :=
  ∃ siblings, Admitted P a.input a.verified siblings ∧
    l = siblings.insertIdx a.verified.spendIndex a.input.requestCommitment

theorem Acceptance.exists_commitments (a : Acceptance P) : ∃ l, a.Commitments l := by
  obtain ⟨siblings, h⟩ := admitted_of_verify a.accepted
  exact ⟨_, siblings, h, rfl⟩

theorem Acceptance.Commitments.spec {a : Acceptance P} {l : List Bytes} (h : a.Commitments l) :
    powIssuanceV1RecordBindingRoot P l = .ok (TokenFields.ofBytes a.verified.token).recordCommitment ∧
      l.length = (TokenFields.ofBytes a.verified.token).allowance ∧
      a.verified.spendIndex < l.length ∧ l[a.verified.spendIndex]? = some a.input.requestCommitment ∧
      parsePowIssuanceV1Presentation a.input.token =
        .ok ⟨a.verified.token, a.verified.spendIndex, l.eraseIdx a.verified.spendIndex⟩ := by
  obtain ⟨siblings, h, rfl⟩ := h
  have hle : a.verified.spendIndex ≤ siblings.length := by
    have := h.index
    have := h.count
    omega
  have hlength : (siblings.insertIdx a.verified.spendIndex a.input.requestCommitment).length =
      siblings.length + 1 := length_insertIdx_of_le_length hle _
  refine ⟨h.fields ▸ h.root, ?_, by omega, ?_, ?_⟩
  · rw [hlength, h.count, h.fields]
  · rw [getElem?_insertIdx_self, if_pos hle]
  · rw [eraseIdx_insertIdx_self]
    exact h.presentation

theorem Acceptance.Commitments.unique {messages : Set Bytes}
    (hroots : Set.InjOn (P.hmacSha256 recordBindingDomain) messages) {a : Acceptance P}
    {l l' : List Bytes} (h : a.Commitments l)
    (h' : powIssuanceV1RecordBindingRoot P l' = .ok (TokenFields.ofBytes a.verified.token).recordCommitment)
    (hl : rootMessage l ∈ messages) (hl' : rootMessage l' ∈ messages) : l = l' :=
  recordBindingRoot_injective hroots hl hl' h.spec.1 h'

end Acceptances

/-! ### What a token admits -/

section Binding

variable {P : Primitives}

/-- The messages that the spend tags of a set of acceptances are the HMACs of. -/
def tagMessages (A : Set (Acceptance P)) : Set Bytes :=
  {m | ∃ a ∈ A, m = spendMessage a.verified.token a.verified.spendIndex}

/-- The messages that the roots of a set of acceptances are the HMACs of. -/
def rootMessages (A : Set (Acceptance P)) : Set Bytes :=
  {m | ∃ a ∈ A, ∃ l, a.Commitments l ∧ m = rootMessage l}

theorem requestCommitment_of_spendTag {A : Set (Acceptance P)} {messages : Set Bytes}
    (htags : Set.InjOn (P.hmacSha256 spendTagDomain) (tagMessages A))
    (hroots : Set.InjOn (P.hmacSha256 recordBindingDomain) messages)
    (hsub : rootMessages A ⊆ messages) {a b : Acceptance P} (ha : a ∈ A) (hb : b ∈ A)
    (h : a.spendTag = b.spendTag) : a.input.requestCommitment = b.input.requestCommitment := by
  obtain ⟨htoken, hindex⟩ := spendTag_injective htags ⟨a, ha, rfl⟩ ⟨b, hb, rfl⟩ a.tagged (h ▸ b.tagged)
  obtain ⟨l, hl⟩ := a.exists_commitments
  obtain ⟨l', hl'⟩ := b.exists_commitments
  have hsame : l = l' := hl.unique hroots (htoken ▸ hl'.spec.1) (hsub ⟨a, ha, l, hl, rfl⟩)
    (hsub ⟨b, hb, l', hl', rfl⟩)
  obtain ⟨-, -, -, hrequest, -⟩ := hl.spec
  obtain ⟨-, -, -, hrequest', -⟩ := hl'.spec
  rw [hsame, hindex, hrequest'] at hrequest
  exact (Option.some.inj hrequest).symm

theorem ncard_spendTags_le {A : Set (Acceptance P)} {token : Bytes} {allowance : ℕ}
    (hallowance : (TokenFields.ofBytes token).allowance = allowance) :
    {tag | ∃ a ∈ A, a.verified.token = token ∧ a.spendTag = tag}.ncard ≤ allowance := by
  set tags : Finset Bytes := (Finset.range allowance).image fun i =>
    P.hmacSha256 spendTagDomain (spendMessage token i)
  have hsub : {tag | ∃ a ∈ A, a.verified.token = token ∧ a.spendTag = tag} ⊆ ↑tags := by
    rintro tag ⟨a, -, rfl, rfl⟩
    obtain ⟨l, hl⟩ := a.exists_commitments
    obtain ⟨-, hlength, hindex, -, -⟩ := hl.spec
    obtain ⟨-, -, htag⟩ := spendTag_eq_ok.mp a.tagged
    refine Finset.mem_coe.mpr (Finset.mem_image.mpr ⟨a.verified.spendIndex, ?_, htag⟩)
    exact Finset.mem_range.mpr (by omega)
  calc {tag | ∃ a ∈ A, a.verified.token = token ∧ a.spendTag = tag}.ncard
      ≤ (tags : Set Bytes).ncard := Set.ncard_le_ncard hsub tags.finite_toSet
    _ = tags.card := Set.ncard_coe_finset tags
    _ ≤ (Finset.range allowance).card := Finset.card_image_le
    _ = allowance := Finset.card_range allowance

/-- **What was split is put together again**: the presentation of a spend of a token is accepted for
the commitment at its index. -/
theorem verify_buildPowIssuanceV1Presentation {adapter : Adapter} {id root token : Bytes}
    {commitments : List Bytes} {expiry : ℤ} {i : ℕ} (hopen : adapter.closed = false)
    (hcap : commitments.length ≤ adapter.maxAllowance)
    (hroot : powIssuanceV1RecordBindingRoot P commitments = .ok root)
    (hmint : mintPowIssuanceV1Token P adapter.tokenKey id root commitments.length expiry = .ok token)
    (hi : i < commitments.length) :
    ∃ presentation, buildPowIssuanceV1Presentation token i commitments = .ok presentation ∧
      ∀ input epoch, input.token = presentation → input.schemeId = schemeId →
        input.aborted = false → commitments[i]? = some input.requestCommitment → 0 ≤ epoch →
        epoch < expiry → verify P adapter input epoch = .ok ⟨token, i,
          ⟨token, id, root, commitments.length, expiry.toNat⟩⟩ := by
  obtain ⟨hbounds, hslots, -⟩ := recordBindingRoot_eq_ok.mp hroot
  obtain ⟨htoken, hparse⟩ := parse_mintPowIssuanceV1Token hmint
  have hsiblings : ∀ c ∈ commitments.eraseIdx i, c.length = 32 :=
    fun c hc => hslots c (mem_of_mem_eraseIdx hc)
  have hbuild : buildPowIssuanceV1Presentation token i commitments =
      .ok (token ++ (Bytes.ofNat 1 i ++ (commitments.eraseIdx i).flatten)) := by
    simp only [buildPowIssuanceV1Presentation, guards_eq_ok, asBytes_eq_ok, commitmentSlots_eq_ok,
      map_fst_zipIdx_eraseIdx]
    exact ⟨token, ⟨htoken, rfl⟩, hbounds, hi, _, ⟨hsiblings, rfl⟩, rfl⟩
  refine ⟨_, hbuild, fun input epoch hinput hscheme haborted hrequest hepoch hexpiry => ?_⟩
  have hpresented := parse_buildPowIssuanceV1Presentation hbuild
  have hcount : (commitments.eraseIdx i).length + 1 = commitments.length := by
    rw [length_eraseIdx_of_lt hi]
    omega
  have hget : commitments.get ⟨i, hi⟩ = input.requestCommitment := by
    rw [getElem?_eq_getElem hi] at hrequest
    exact Option.some.inj hrequest
  have hlist : interleave i input.requestCommitment commitments.length 0 (commitments.eraseIdx i) =
      commitments := by
    rw [interleave_eq_insertIdx hi hcount, ← hget]
    exact insertIdx_eraseIdx_getElem hi
  simp only [verify, guards_eq_ok]
  refine ⟨hopen, hscheme, haborted, _, hinput ▸ hpresented, _, hparse, hcap, ⟨hi, hcount⟩,
    ⟨hepoch, ?_⟩, root, ?_, rfl, rfl⟩
  · show epoch < (expiry.toNat : ℤ)
    omega
  · exact hlist.symm ▸ hroot

end Binding

/-! ### A token for two requests -/

section Sample

def sampleCommitments : List Bytes := [replicate 32 1, replicate 32 2]

def sampleRoot : Bytes := [
  0x25, 0xce, 0x7c, 0x82, 0x31, 0x16, 0xa3, 0xd6, 0x32, 0x65, 0x70, 0x31, 0x33, 0xd1, 0x16, 0x80,
  0xc0, 0x2c, 0xc7, 0x46, 0x6a, 0x06, 0x9a, 0x28, 0x3b, 0x6d, 0x86, 0x13, 0xde, 0xf6, 0xe4, 0x7e]

/-- The signature of a token for the two of them. -/
def sampleSignature : Bytes := [
  0x6b, 0xc4, 0x39, 0xd8, 0xd8, 0x23, 0x68, 0x18, 0xd5, 0xae, 0x4e, 0xb2, 0x16, 0x16, 0x4a, 0xaf,
  0xe2, 0x34, 0x37, 0x7e, 0xb3, 0x6b, 0x6d, 0x73, 0x8d, 0x58, 0xb7, 0xfa, 0x6a, 0xf4, 0x6e, 0xa6]

def sampleToken : Bytes := tokenPayload (replicate 32 3) sampleRoot 2 10 ++ sampleSignature

def sampleAdapter (cap : ℕ) (h : 1 ≤ cap ∧ cap ≤ maxAllowance) : Adapter where
  tokenKey := replicate 32 0
  maxAllowance := cap
  closed := false
  maxAllowance_bounds := h

/-- The request that presents a spend of the token. -/
def sampleInput (i : ℕ) : AdmissionInput where
  profileId := 8
  schemeId := 1
  parameterHash := replicate 32 4
  token := sampleToken ++ (Bytes.ofNat 1 i ++ (sampleCommitments.eraseIdx i).flatten)
  requestCommitment := sampleCommitments.getD i []
  familyId := 1
  operationId := 1
  resourceClass := 0
  leaseClass := 0
  costUnits := 1
  descriptorSequence := none
  aborted := false

theorem sampleToken_minted : powIssuanceV1RecordBindingRoot Sandbox.primitives sampleCommitments = .ok sampleRoot ∧
      mintPowIssuanceV1Token Sandbox.primitives (replicate 32 0) (replicate 32 3)
        sampleRoot 2 10 = .ok sampleToken := by
  decide +kernel

def sampleVerified (i : ℕ) : Verified :=
  ⟨sampleToken, i, ⟨sampleToken, replicate 32 3, sampleRoot, 2, 10⟩⟩

theorem sampleInput_built : ∀ i : Fin 2,
    buildPowIssuanceV1Presentation sampleToken i sampleCommitments = .ok (sampleInput i).token := by
  decide +kernel

theorem sampleInput_accepted : ∀ i : Fin 2,
    verify Sandbox.primitives (sampleAdapter 8 (by decide)) (sampleInput i) 0 = .ok (sampleVerified i) := by
  decide +kernel

/-- The acceptances of the two spends. -/
def sampleAcceptance (i : Fin 2) : Acceptance Sandbox.primitives where
  adapter := sampleAdapter 8 (by decide)
  input := sampleInput i
  epoch := 0
  verified := sampleVerified i
  spendTag := Sandbox.primitives.hmacSha256 spendTagDomain (spendMessage sampleToken i)
  accepted := sampleInput_accepted i
  tagged := spendTag_eq_ok.mpr ⟨(by decide : sampleToken.length = tokenBytes), (by omega : (i : ℕ) ≤ 255), rfl⟩

theorem injOn_sampleTags : Set.InjOn (Sandbox.primitives.hmacSha256 spendTagDomain)
    (tagMessages (Set.range sampleAcceptance)) := by
  have hall : ∀ i j : Fin 2, Sandbox.primitives.hmacSha256 spendTagDomain (spendMessage sampleToken i) =
      Sandbox.primitives.hmacSha256 spendTagDomain (spendMessage sampleToken j) → i = j := by
    decide +kernel
  rintro m ⟨_, ⟨i, rfl⟩, rfl⟩ m' ⟨_, ⟨j, rfl⟩, rfl⟩ h
  rw [hall i j h]

theorem injOn_sampleRoots : Set.InjOn (Sandbox.primitives.hmacSha256 recordBindingDomain)
    (rootMessages (Set.range sampleAcceptance) ∪
      {m | ∃ l ∈ ({sampleCommitments} : Set (List Bytes)), m = rootMessage l}) := by
  have hsame : ∀ m ∈ rootMessages (Set.range sampleAcceptance) ∪
      {m | ∃ l ∈ ({sampleCommitments} : Set (List Bytes)), m = rootMessage l},
      m = rootMessage sampleCommitments := by
    rintro m (⟨_, ⟨i, rfl⟩, l, ⟨siblings, h, rfl⟩, rfl⟩ | ⟨l, rfl, rfl⟩)
    · have hparse := parse_buildPowIssuanceV1Presentation (sampleInput_built i)
      have hsiblings : siblings = sampleCommitments.eraseIdx i :=
        (Presentation.mk.inj (Except.ok.inj (h.presentation.symm.trans hparse))).2.2
      have hlist : ∀ i : Fin 2, (sampleCommitments.eraseIdx i).insertIdx i
          (sampleCommitments.getD i []) = sampleCommitments := by decide
      rw [hsiblings]
      exact congrArg rootMessage (hlist i)
    · rfl
  intro m hm m' hm' _
  rw [hsame m hm, hsame m' hm']

end Sample

/-- **What a token admits.** Among acceptances whose messages have no collision, one spend tag stands
for one request commitment; a token is accepted with no more spend tags than its allowance, and with
the commitments whose root it signs; and each of these is accepted by every adapter whose cap the
allowance does not exceed. -/
theorem token_binding (P : Primitives) (A : Set (Acceptance P)) (lists : Set (List Bytes))
    (htags : Set.InjOn (P.hmacSha256 spendTagDomain) (tagMessages A))
    (hroots : Set.InjOn (P.hmacSha256 recordBindingDomain) (rootMessages A ∪ {m | ∃ l ∈ lists, m = rootMessage l})) :
    (∀ a ∈ A, ∀ b ∈ A, a.spendTag = b.spendTag → a.input.requestCommitment = b.input.requestCommitment) ∧
    (∀ key id root token allowance expiry, ∀ commitments ∈ lists,
      powIssuanceV1RecordBindingRoot P commitments = .ok root →
      mintPowIssuanceV1Token P key id root allowance expiry = .ok token →
      {tag | ∃ a ∈ A, a.verified.token = token ∧ a.spendTag = tag}.ncard ≤ allowance ∧
      ∀ a ∈ A, a.verified.token = token → commitments.length = allowance ∧ a.verified.spendIndex < allowance ∧
        commitments[a.verified.spendIndex]? = some a.input.requestCommitment ∧
        parsePowIssuanceV1Presentation a.input.token = .ok ⟨token, a.verified.spendIndex,
          commitments.eraseIdx a.verified.spendIndex⟩) ∧
    (∀ (adapter : Adapter) id root token expiry (commitments : List Bytes),
      adapter.closed = false → commitments.length ≤ adapter.maxAllowance →
      powIssuanceV1RecordBindingRoot P commitments = .ok root →
      mintPowIssuanceV1Token P adapter.tokenKey id root commitments.length expiry = .ok token →
      ∀ i < commitments.length, ∃ presentation,
        buildPowIssuanceV1Presentation token i commitments = .ok presentation ∧
        ∀ input epoch, input.token = presentation → input.schemeId = schemeId →
          input.aborted = false → commitments[i]? = some input.requestCommitment → 0 ≤ epoch →
          epoch < expiry → verify P adapter input epoch = .ok ⟨token, i,
            ⟨token, id, root, commitments.length, expiry.toNat⟩⟩) := by
  refine ⟨fun a ha b hb h => ?_, ?_, ?_⟩
  · exact requestCommitment_of_spendTag htags hroots Set.subset_union_left ha hb h
  · intro key id root token allowance expiry commitments hmem hroot hmint
    obtain ⟨-, hparse⟩ := parse_mintPowIssuanceV1Token hmint
    obtain ⟨hfields, -⟩ := parseToken_eq_ok hparse
    have hallowance : (TokenFields.ofBytes token).allowance = allowance := by rw [← hfields]
    have hsigned : (TokenFields.ofBytes token).recordCommitment = root := by rw [← hfields]
    refine ⟨ncard_spendTags_le hallowance, fun a ha htoken => ?_⟩
    obtain ⟨l, hl⟩ := a.exists_commitments
    obtain rfl : l = commitments := hl.unique hroots (by rw [htoken, hsigned, hroot])
      (.inl ⟨a, ha, l, hl, rfl⟩) (.inr ⟨commitments, hmem, rfl⟩)
    obtain ⟨-, hlength, hindex, hrequest, hpresented⟩ := hl.spec
    rw [htoken, hallowance] at hlength
    rw [htoken] at hpresented
    exact ⟨hlength, hlength ▸ hindex, hrequest, hpresented⟩
  · intro adapter id root token expiry commitments hopen hcap hroot hmint i hi
    exact verify_buildPowIssuanceV1Presentation hopen hcap hroot hmint hi

/-- The token for two requests, spent twice. -/
theorem sampleToken_binding :
    {tag | ∃ a ∈ Set.range sampleAcceptance, a.verified.token = sampleToken ∧
        a.spendTag = tag}.ncard ≤ 2 ∧
      sampleCommitments[(1 : ℕ)]? = some (sampleAcceptance 1).input.requestCommitment := by
  obtain ⟨-, hbinding, -⟩ := token_binding Sandbox.primitives (Set.range sampleAcceptance)
    {sampleCommitments} injOn_sampleTags injOn_sampleRoots
  obtain ⟨hcard, hall⟩ := hbinding _ _ _ _ _ _ sampleCommitments rfl sampleToken_minted.1 sampleToken_minted.2
  obtain ⟨-, -, hrequest, -⟩ := hall (sampleAcceptance 1) ⟨1, rfl⟩ rfl
  exact ⟨hcard, hrequest⟩

/-- An adapter whose cap is below the allowance of a token does not accept it. -/
theorem allowance_above_cap_refused :
    powIssuanceV1RecordBindingRoot Sandbox.primitives sampleCommitments = .ok sampleRoot ∧
    mintPowIssuanceV1Token Sandbox.primitives (replicate 32 0) (replicate 32 3)
      sampleRoot 2 10 = .ok sampleToken ∧
    buildPowIssuanceV1Presentation sampleToken 0 sampleCommitments = .ok (sampleInput 0).token ∧
    (sampleInput 0).requestCommitment = sampleCommitments[0] ∧
    verify Sandbox.primitives (sampleAdapter 1 (by decide)) (sampleInput 0) 0 =
      .error ⟨.spendInvalid, "pow-issuance-v1 token allowance exceeds the relay cap"⟩ := by
  exact ⟨sampleToken_minted.1, sampleToken_minted.2, sampleInput_built 0, by decide, by decide +kernel⟩

end HiveRelay.Pow
