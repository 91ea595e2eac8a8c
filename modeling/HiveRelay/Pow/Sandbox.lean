import HiveRelay.Pow.Admission

/-!
# The sandbox adapter

On the deployed relays admission runs in a sandbox: `sandbox-adapter.js` is a script without
imports that verifies the same presentations with its own hash functions. Its input crosses a
bridge, `encodeHostData`, on which byte strings are lowercase hex and 64-bit numbers are decimal
strings, and so does its answer.

## Main definitions

* `AdmissionInput.Wire` — inputs that cross the bridge

## Main results

* `gather_eq_interleave` — one loop is the other
* `sandbox_adapter_agrees` — so are the answers
-/

namespace HiveRelay.Pow

namespace Sandbox

/-! ### The bridge -/

/-- A value on the bridge, told apart by its `$hiverelayType`. -/
inductive Bridge where
  | bytes (hex : List Char)
  | u64 (value : List Char)
  | other

/-- What `fail` throws. -/
def invalid (message : String) : Failure := ⟨.spendInvalid, message⟩

def hexDigits : List Char :=
  ['0', '1', '2', '3', '4', '5', '6', '7', '8', '9', 'a', 'b', 'c', 'd', 'e', 'f']

def u8ToHex (b : Bytes) : List Char :=
  b.flatMap fun byte => [hexDigits.getD (byte.toNat / 16) '0', hexDigits.getD (byte.toNat % 16) '0']

/-- `HEX_DIGITS.indexOf`. -/
def hexValue (c : Char) : Option ℕ := hexDigits.findIdx? (· == c)

/-- The loop of `hexToU8`. The low digit of a last odd character is that of the empty string, which
`indexOf` finds, and its byte is beyond the array. -/
def hexPairs : List Char → Option Bytes
  | [] => some []
  | [c] => (hexValue c).map fun _ => []
  | c :: c' :: hex => do
    let hi ← hexValue c
    let lo ← hexValue c'
    let rest ← hexPairs hex
    pure (UInt8.ofNat (hi * 16 + lo) :: rest)

/-- `hexToU8`; without a length, that of the string is taken. -/
def hexToU8 (hex : List Char) (length : Option ℕ) : Except Failure Bytes := do
  require (∀ n ∈ length, hex.length = n * 2) (invalid "hex input has an unexpected length")
  demand (hexPairs hex) (invalid "hex input is not lowercase hex")

def bytesOf (tagged : Bridge) (field : String) (length : Option ℕ) : Except Failure Bytes :=
  match tagged with
  | .bytes hex => hexToU8 hex length
  | _ => .error (invalid (field ++ " must be bridge bytes"))

/-- The pattern of `u64StringOf`: one to twenty digits without a leading zero. -/
def U64Digits (value : List Char) : Prop :=
  value = ['0'] ∨ (1 ≤ value.length ∧ value.length ≤ 20 ∧ value.head? ≠ some '0' ∧ ∀ c ∈ value, c.isDigit)

instance (value : List Char) : Decidable (U64Digits value) := by
  letI : Decidable (∀ c ∈ value, c.isDigit) := List.decidableBAll _ _
  unfold U64Digits
  infer_instance

def u64StringOf (tagged : Bridge) (field : String) : Except Failure (List Char) :=
  match tagged with
  | .u64 value => do
    require (U64Digits value) (invalid (field ++ " must be a bridge u64"))
    pure value
  | _ => .error (invalid (field ++ " must be a bridge u64"))

/-- `BigInt` of a string of digits. -/
def bigInt (value : List Char) : ℕ := Nat.ofDigitChars 10 value 0

structure Input where
  (profileId schemeId : ℕ)
  (parameterHash token requestCommitment : Bridge)
  (familyId operationId resourceClass leaseClass : ℕ)
  costUnits : Bridge
  descriptorSequence : Option Bridge

/-- `encodeHostData` of a byte string. -/
def encodeBytes (b : Bytes) : Bridge := .bytes (u8ToHex b)

/-- `encodeHostData` of a number that is a `BigInt`. -/
def encodeU64 (value : ℕ) : Bridge := .u64 (Nat.toDigits 10 value)

/-- `encodeHostData` of an input; the script does not get to see the signal. -/
def encodeHostData (input : AdmissionInput) : Input where
  __ := input
  parameterHash := encodeBytes input.parameterHash
  token := encodeBytes input.token
  requestCommitment := encodeBytes input.requestCommitment
  costUnits := encodeU64 input.costUnits
  descriptorSequence := input.descriptorSequence.map encodeU64

/-! ### The script -/

/-- `TOKEN_KEY`, from the text that the build puts in the place of the key. `parseIssuerKey` tests
for 64 lowercase hex digits before `hexToU8` does. -/
def tokenKeyOf (issuerKeyHex : List Char) : Except Failure Bytes := do
  let issuerKey ← hexToU8 issuerKeyHex (some 32)
  pure (hmacSha256 issuerKey tokenKeyInfo)

def parseToken (tokenKey token : Bytes) : Except Failure TokenFields := do
  require (token.length = tokenBytes) (invalid "pow-issuance-v1 token is malformed")
  let payload : Bytes := token.take tokenPayloadBytes
  require (token.drop tokenPayloadBytes = hmacSha256 tokenKey payload)
    (invalid "pow-issuance-v1 token signature is invalid")
  require (payload.window 0 1 = [1] ∧ payload.window 1 1 = [1])
    (invalid "pow-issuance-v1 token version is unsupported")
  let allowance := Bytes.toNat (payload.window 66 1)
  require (1 ≤ allowance ∧ allowance ≤ maxAllowance) (invalid "pow-issuance-v1 token allowance is outside 1..8")
  pure
    { token := token
      challengeId := payload.window 2 32
      recordCommitment := payload.window 34 32
      allowance := allowance
      expiryEpoch := Bytes.toNat (payload.window 67 4) }

def recordBindingRoot (commitments : List Bytes) : Bytes :=
  hmacSha256 recordBindingDomain (Bytes.ofNat 1 commitments.length ++ commitments.flatten)

def spendTagFor (token : Bytes) (spendIndex : ℕ) : Bytes :=
  hmacSha256 spendTagDomain (token ++ Bytes.ofNat 1 spendIndex)

/-- The digits of `descriptorSequence`, which may be missing. -/
def descriptorSequenceOf : Option Bridge → Except Failure (List Char)
  | none => pure ['0']
  | some value => u64StringOf value "descriptorSequence"

/-- `walCommitRecord`; `setUint16` and `setBigUint64` cut a number that does not fit. -/
def walCommitRecord (input : Input) (fields : TokenFields) (spendIndex : ℕ) :
    Except Failure Bytes := do
  let requestCommitment ← bytesOf input.requestCommitment "requestCommitment" (some 32)
  let costUnits ← u64StringOf input.costUnits "costUnits"
  let descriptorSequence ← descriptorSequenceOf input.descriptorSequence
  pure ([1] ++ Bytes.ofNat 2 input.profileId ++ Bytes.ofNat 2 input.schemeId ++
    Bytes.ofNat 1 spendIndex ++ Bytes.ofNat 1 fields.allowance ++ Bytes.ofNat 4 fields.expiryEpoch ++
    fields.challengeId ++ requestCommitment ++ Bytes.ofNat 1 input.familyId ++
    Bytes.ofNat 1 input.operationId ++ Bytes.ofNat 1 input.resourceClass ++
    Bytes.ofNat 1 input.leaseClass ++ Bytes.ofNat 8 (bigInt costUnits) ++
    Bytes.ofNat 8 (bigInt descriptorSequence))

/-- The loop of `verifyPowInput` from `index` on, with the next sibling at `siblingAt`. -/
def gather (input : Input) (presentation : Bytes) (spendIndex : ℕ) : ℕ → ℕ → ℕ → Except Failure (List Bytes)
  | 0, _, _ => pure []
  | count + 1, index, siblingAt =>
    if index = spendIndex then do
      let commitment ← bytesOf input.requestCommitment "requestCommitment" (some 32)
      let rest ← gather input presentation spendIndex count (index + 1) siblingAt
      pure (commitment :: rest)
    else do
      let rest ← gather input presentation spendIndex count (index + 1) (siblingAt + 32)
      pure (presentation.window siblingAt 32 :: rest)

/-- `verifyPowInput`; `epoch` is the answer of `epochNow`. -/
def verifyPowInput (tokenKey : Bytes) (input : Input) (epoch : ℕ) : Except Failure Verified := do
  require (input.schemeId = schemeId) (invalid "pow-issuance-v1 adapter received a foreign schemeId")
  let presentation ← bytesOf input.token "admission token" none
  require (tokenBytes + 1 ≤ presentation.length ∧ (presentation.length - tokenBytes - 1) % 32 = 0)
    (invalid "pow-issuance-v1 presentation is malformed")
  let token : Bytes := presentation.take tokenBytes
  let spendIndex := Bytes.toNat (presentation.window tokenBytes 1)
  let siblingCount := (presentation.length - tokenBytes - 1) / 32
  let fields ← parseToken tokenKey token
  require (spendIndex < fields.allowance ∧ siblingCount + 1 = fields.allowance)
    (invalid "pow-issuance-v1 presentation does not match its signed allowance")
  require (epoch < fields.expiryEpoch) (invalid "pow-issuance-v1 token is expired")
  let commitments ← gather input presentation spendIndex fields.allowance 0 (tokenBytes + 1)
  require (recordBindingRoot commitments = fields.recordCommitment)
    (invalid "pow-issuance-v1 token is not bound to this request commitment")
  pure ⟨token, spendIndex, fields⟩

/-- What `powProof` returns. -/
structure BridgeProof where
  (spendTag requestCommitment : Bridge)
  (resourceClass leaseClass : ℕ)
  (costUnits walCommitRecord : Bridge)
  (profileId schemeId : ℕ)
  parameterHash : Bridge

def powProof (tokenKey : Bytes) (input : Input) (epoch : ℕ) : Except Failure BridgeProof := do
  let verified ← verifyPowInput tokenKey input epoch
  let record ← walCommitRecord input verified.fields verified.spendIndex
  pure
    { input with
      spendTag := encodeBytes (spendTagFor verified.token verified.spendIndex)
      walCommitRecord := encodeBytes record }

/-! ### What crosses the bridge is read back -/

theorem hexValue_hexDigits {n : ℕ} (h : n < 16) : hexValue (hexDigits.getD n '0') = some n := by
  have hall : ∀ n < 16, hexValue (hexDigits.getD n '0') = some n := by decide
  exact hall n h

theorem hexPairs_u8ToHex (b : Bytes) : hexPairs (u8ToHex b) = some b := by
  induction b with
  | nil => rfl
  | cons byte b ih =>
    have hbyte : byte.toNat < 256 := byte.toNat_lt
    have hsplit : byte.toNat / 16 * 16 + byte.toNat % 16 = byte.toNat := by omega
    show hexPairs (hexDigits.getD (byte.toNat / 16) '0' :: hexDigits.getD (byte.toNat % 16) '0' ::
      u8ToHex b) = some (byte :: b)
    simp only [hexPairs, hexValue_hexDigits (show byte.toNat / 16 < 16 by omega),
      hexValue_hexDigits (show byte.toNat % 16 < 16 by omega), ih]
    show some (UInt8.ofNat (byte.toNat / 16 * 16 + byte.toNat % 16) :: b) = _
    rw [hsplit, UInt8.ofNat_toNat]

theorem length_u8ToHex (b : Bytes) : (u8ToHex b).length = b.length * 2 := by
  simp [u8ToHex, List.length_flatMap]

theorem hexToU8_u8ToHex (b : Bytes) {length : Option ℕ} (h : ∀ n ∈ length, b.length = n) :
    hexToU8 (u8ToHex b) length = .ok b := by
  simp only [hexToU8, guards_eq_ok]
  refine ⟨fun n hn => ?_, hexPairs_u8ToHex b⟩
  rw [length_u8ToHex, h n hn]

theorem head?_toDigits_ne {n : ℕ} (h : 0 < n) : (Nat.toDigits 10 n).head? ≠ some '0' := by
  induction n using Nat.strongRecOn with
  | ind n ih =>
    by_cases hn : n < 10
    · rw [Nat.toDigits_of_lt_base hn]
      have hall : ∀ n < 10, 0 < n → [n.digitChar].head? ≠ some '0' := by decide
      exact hall n hn h
    · rw [Nat.toDigits_of_base_le (by decide) (by omega)]
      have := ih (n / 10) (by omega) (by omega)
      rw [List.head?_append_of_ne_nil _ Nat.toDigits_ne_nil]
      exact this

theorem u64StringOf_encode {n : ℕ} (h : n < 2 ^ 64) (field : String) :
    u64StringOf (encodeU64 n) field = .ok (Nat.toDigits 10 n) := by
  simp only [encodeU64, u64StringOf, guards_eq_ok, and_true]
  rcases Nat.eq_zero_or_pos n with rfl | hpos
  · exact .inl (Nat.toDigits_zero 10)
  · refine .inr ⟨Nat.length_toDigits_pos, ?_, head?_toDigits_ne hpos, fun c hc => ?_⟩
    · rw [Nat.length_toDigits_le_iff (by decide) (by decide)]
      omega
    · exact Nat.isDigit_of_mem_toDigits (by decide) (by decide) hc

theorem bigInt_toDigits (n : ℕ) : bigInt (Nat.toDigits 10 n) = n := Nat.ofDigitChars_ten_toDigits

theorem bytesOf_encodeBytes (b : Bytes) (field : String) {length : Option ℕ}
    (h : ∀ n ∈ length, b.length = n) : bytesOf (encodeBytes b) field length = .ok b :=
  hexToU8_u8ToHex b h

end Sandbox

/-! ### The two verifiers -/

/-- An input within its wire types, whose signal is not aborted. -/
structure AdmissionInput.Wire (input : AdmissionInput) : Prop where
  profileId : input.profileId < 2 ^ 16
  schemeId : input.schemeId < 2 ^ 16
  parameterHash : input.parameterHash.length = 32
  requestCommitment : input.requestCommitment.length = 32
  familyId : input.familyId < 2 ^ 8
  operationId : input.operationId < 2 ^ 8
  resourceClass : input.resourceClass < 2 ^ 8
  leaseClass : input.leaseClass < 2 ^ 8
  costUnits : input.costUnits < 2 ^ 64
  descriptorSequence : ∀ n ∈ input.descriptorSequence, n < 2 ^ 64
  signal : input.aborted = false

/-- The module form of the adapter, with the largest cap. -/
def moduleAdapter (P : Primitives) (issuerKey : Bytes) : Adapter where
  tokenKey := P.hmacSha256 issuerKey tokenKeyInfo
  maxAllowance := maxAllowance
  closed := false
  maxAllowance_bounds := by decide

namespace Sandbox

/-- The messages for which the length of the padded message does not overflow in the script. -/
def messageBound : ℕ := 2 ^ 31 - 72

/-- The HMAC of the script is that of the platform. -/
def SameHmac (P : Primitives) : Prop :=
  ∀ key data : Bytes, key.length < messageBound → data.length < messageBound →
    hmacSha256 key data = P.hmacSha256 key data

/-- The proof of the module on the bridge. -/
def encodeProof (q : Proof) : BridgeProof where
  __ := q
  spendTag := encodeBytes q.spendTag
  requestCommitment := encodeBytes q.requestCommitment
  costUnits := encodeU64 q.costUnits
  walCommitRecord := encodeBytes q.walCommitRecord
  parameterHash := encodeBytes q.parameterHash

section Agreement

variable {P : Primitives} (hsame : SameHmac P)
include hsame

theorem tokenKeyOf_u8ToHex {issuerKey : Bytes} (hkey : issuerKey.length = 32) :
    tokenKeyOf (u8ToHex issuerKey) = .ok (moduleAdapter P issuerKey).tokenKey := by
  simp only [tokenKeyOf, guards_eq_ok]
  refine ⟨issuerKey, hexToU8_u8ToHex issuerKey (by simpa using hkey), ?_⟩
  exact hsame _ _ (by rw [hkey]; decide) (by decide)

variable {tokenKey : Bytes}

theorem parseToken_iff {token : Bytes} {fields : TokenFields} (hkey : tokenKey.length = 32) :
    parseToken tokenKey token = .ok fields ↔ parsePowIssuanceV1Token P tokenKey token = .ok fields := by
  have hversion : (Bytes.window (token.take tokenPayloadBytes) 0 1 = [1] ∧
      Bytes.window (token.take tokenPayloadBytes) 1 1 = [1]) ↔ token.window 0 2 = [1, 1] := by
    rw [Bytes.window_take _ (by decide), Bytes.window_take _ (by decide)]
    rcases token with - | ⟨a, - | ⟨b, token⟩⟩ <;> simp [Bytes.window]
  have hhmac : hmacSha256 tokenKey (token.take tokenPayloadBytes) =
      P.hmacSha256 tokenKey (token.take tokenPayloadBytes) := by
    refine hsame _ _ (by rw [hkey]; decide) ?_
    calc (token.take tokenPayloadBytes).length ≤ tokenPayloadBytes := by
          rw [List.length_take]
          exact min_le_left _ _
      _ < messageBound := by decide
  have hallowance : Bytes.toNat (Bytes.window (token.take tokenPayloadBytes) 66 1) =
      (TokenFields.ofBytes token).allowance := by
    rw [Bytes.window_take _ (by decide)]
    rfl
  have hfields : (TokenFields.mk token (Bytes.window (token.take tokenPayloadBytes) 2 32)
      (Bytes.window (token.take tokenPayloadBytes) 34 32) (TokenFields.ofBytes token).allowance
      (Bytes.toNat (Bytes.window (token.take tokenPayloadBytes) 67 4))) =
      TokenFields.ofBytes token := by
    rw [Bytes.window_take _ (by decide), Bytes.window_take _ (by decide), Bytes.window_take _ (by decide)]
    rfl
  simp only [parseToken, parsePowIssuanceV1Token, guards_eq_ok, asBytes_eq_ok, hversion, hhmac, hallowance, hfields]
  constructor
  · rintro ⟨hlength, hsignature, hversion, hallowance, rfl⟩
    exact ⟨tokenKey, ⟨hkey, rfl⟩, token, ⟨hlength, rfl⟩, hsignature, hversion, hallowance, rfl⟩
  · rintro ⟨_, ⟨-, rfl⟩, _, ⟨hlength, rfl⟩, hsignature, hversion, hallowance, rfl⟩
    exact ⟨hlength, hsignature, hversion, hallowance, rfl⟩

variable {input : AdmissionInput}

omit hsame in
/-- **The loop of the script computes that of the module**: it cuts the siblings out of the
presentation as it goes. -/
theorem gather_eq_interleave (hrequest : input.requestCommitment.length = 32)
    (presentation : Bytes) (spendIndex count index siblingAt k : ℕ)
    (hk : count ≤ k ∨ (count = k + 1 ∧ index ≤ spendIndex ∧ spendIndex < index + count)) :
    gather (encodeHostData input) presentation spendIndex count index siblingAt =
      .ok (interleave spendIndex input.requestCommitment count index (slots (presentation.drop siblingAt) k)) := by
  induction count generalizing index siblingAt k with
  | zero => rfl
  | succ count ih =>
    by_cases hindex : index = spendIndex
    · have hrest := ih (index + 1) siblingAt k (by omega)
      have hbytes : bytesOf (encodeHostData input).requestCommitment "requestCommitment" (some 32) =
          .ok input.requestCommitment := bytesOf_encodeBytes _ _ (by simpa using hrequest)
      rw [gather, if_pos hindex, interleave, if_pos hindex, hbytes, hrest]
      rfl
    · obtain ⟨k, rfl⟩ : ∃ j, k = j + 1 := ⟨k - 1, by omega⟩
      have hrest := ih (index + 1) (siblingAt + 32) k (by omega)
      rw [gather, if_neg hindex, interleave, if_neg hindex, hrest, slots, List.tail_cons, List.drop_drop]
      rfl

theorem recordBindingRoot_gathered {allowance spendIndex : ℕ} (hwire : input.Wire)
    (hshape : tokenBytes + 1 ≤ input.token.length ∧ (input.token.length - tokenBytes - 1) % 32 = 0)
    (hallowance : 1 ≤ allowance ∧ allowance ≤ maxAllowance) (hindex : spendIndex < allowance)
    (hcount : (input.token.length - tokenBytes - 1) / 32 + 1 = allowance) :
    powIssuanceV1RecordBindingRoot P (interleave spendIndex input.requestCommitment allowance 0
        (slots (input.token.drop (tokenBytes + 1)) ((input.token.length - tokenBytes - 1) / 32))) =
      .ok (recordBindingRoot (interleave spendIndex input.requestCommitment allowance 0
        (slots (input.token.drop (tokenBytes + 1)) ((input.token.length - tokenBytes - 1) / 32)))) := by
  set siblings := slots (input.token.drop (tokenBytes + 1))
    ((input.token.length - tokenBytes - 1) / 32) with hsiblings
  have hlength : siblings.length + 1 = allowance := by rw [hsiblings, length_slots, hcount]
  rw [interleave_eq_insertIdx hindex hlength]
  set l := siblings.insertIdx spendIndex input.requestCommitment with hl
  have hall : l.length = allowance := by
    rw [hl, List.length_insertIdx_of_le_length (by omega), hlength]
  have hslots : ∀ c ∈ l, c.length = 32 := by
    intro c hc
    rcases List.eq_or_mem_of_mem_insertIdx hc with rfl | hc
    · exact hwire.requestCommitment
    · refine length_of_mem_slots ?_ hc
      rw [List.length_drop]
      omega
  refine recordBindingRoot_eq_ok.mpr ⟨hall ▸ hallowance, hslots, (hsame _ _ (by decide) ?_).symm⟩
  rw [rootMessage, List.length_append, Bytes.length_ofNat, length_flatten_of_slots hslots, hall]
  have := hallowance.2
  unfold maxAllowance at this
  unfold messageBound
  omega

theorem verifyPowInput_iff {adapter : Adapter} {epoch : ℕ} {v : Verified} (hkey : adapter.tokenKey.length = 32)
    (hadapter : adapter.tokenKey = tokenKey ∧ adapter.maxAllowance = maxAllowance ∧
      adapter.closed = false) (hwire : input.Wire) :
    verifyPowInput tokenKey (encodeHostData input) epoch = .ok v ↔ verify P adapter input epoch = .ok v := by
  obtain ⟨rfl, hcap, hopen⟩ := hadapter
  have hbytes : bytesOf (encodeHostData input).token "admission token" none = .ok input.token :=
    bytesOf_encodeBytes _ _ (by simp)
  simp only [verifyPowInput, verify, parsePowIssuanceV1Presentation, hbytes, Except.ok_bind, guards_eq_ok]
  constructor
  · rintro ⟨hscheme, hshape, fields, hfields, ⟨hindex, hcount⟩, hepoch, _, hgather, hroot, rfl⟩
    have hfields := (parseToken_iff hsame hkey).mp hfields
    obtain ⟨-, -, hallowance⟩ := parseToken_eq_ok hfields
    rw [gather_eq_interleave hwire.requestCommitment _ _ _ _ _ _ (.inr ⟨hcount.symm, by omega⟩)] at hgather
    cases hgather
    refine ⟨hopen, hscheme, hwire.signal, _, ⟨hshape, rfl⟩, fields, hfields, hcap ▸ hallowance.2,
      ⟨hindex, (length_slots _ _).symm ▸ hcount⟩, by omega, _,
      recordBindingRoot_gathered hsame hwire hshape hallowance hindex hcount, hroot, rfl⟩
  · rintro ⟨-, hscheme, -, _, ⟨hshape, rfl⟩, fields, hfields, -, ⟨hindex, hcount⟩, hepoch, root, hroot, rfl, rfl⟩
    rw [length_slots] at hcount
    have hindex : Bytes.toNat (input.token.window tokenBytes 1) < fields.allowance := hindex
    obtain ⟨-, -, hallowance⟩ := parseToken_eq_ok hfields
    refine ⟨hscheme, hshape, fields, (parseToken_iff hsame hkey).mpr hfields, ⟨hindex, hcount⟩,
      by omega, _, gather_eq_interleave hwire.requestCommitment _ _ _ _ _ _ (.inr ⟨hcount.symm, by omega⟩), ?_, rfl⟩
    have hscript := recordBindingRoot_gathered hsame hwire hshape hallowance hindex hcount
    exact Except.ok.inj (hscript.symm.trans hroot)

omit hsame in
theorem walCommitRecord_iff {fields : TokenFields} {spendIndex : ℕ} {record : Bytes} (hwire : input.Wire) :
    walCommitRecord (encodeHostData input) fields spendIndex = .ok record ↔
      Pow.walCommitRecord input fields spendIndex = .ok record := by
  have hbytes : bytesOf (encodeHostData input).requestCommitment "requestCommitment" (some 32) =
      .ok input.requestCommitment :=
    bytesOf_encodeBytes _ _ (by simpa using hwire.requestCommitment)
  have hcost : u64StringOf (encodeHostData input).costUnits "costUnits" =
      .ok (Nat.toDigits 10 input.costUnits) := u64StringOf_encode hwire.costUnits _
  have hsequence : descriptorSequenceOf (encodeHostData input).descriptorSequence =
      .ok (Nat.toDigits 10 (input.descriptorSequence.getD 0)) := by
    show descriptorSequenceOf (input.descriptorSequence.map encodeU64) = _
    cases hseq : input.descriptorSequence with
    | none => rfl
    | some n => exact u64StringOf_encode (hwire.descriptorSequence n hseq) _
  have hbound : input.descriptorSequence.getD 0 < 2 ^ 64 := by
    cases hseq : input.descriptorSequence with
    | none => decide
    | some n => exact hwire.descriptorSequence n hseq
  simp only [walCommitRecord, Pow.walCommitRecord, hbytes, hcost, hsequence, Except.ok_bind, bigInt_toDigits,
    guards_eq_ok]
  exact ⟨fun h => ⟨hwire.profileId, hwire.schemeId, hwire.costUnits, hbound, h⟩, fun ⟨_, _, _, _, h⟩ => h⟩

theorem powProof_iff {adapter : Adapter} {epoch : ℕ} {p : BridgeProof} (hkey : adapter.tokenKey.length = 32)
    (hadapter : adapter.tokenKey = tokenKey ∧ adapter.maxAllowance = maxAllowance ∧
      adapter.closed = false) (hwire : input.Wire) :
    powProof tokenKey (encodeHostData input) epoch = .ok p ↔
      ∃ q, prepare P adapter input epoch = .ok q ∧ p = encodeProof q := by
  simp only [powProof, prepare, proof, guards_eq_ok, verifyPowInput_iff hsame hkey hadapter hwire,
    walCommitRecord_iff hwire]
  have htag : ∀ v, verify P adapter input epoch = .ok v →
      powIssuanceV1SpendTag P v.token v.spendIndex = .ok (spendTagFor v.token v.spendIndex) := by
    intro v hv
    obtain ⟨siblings, h⟩ := admitted_of_verify hv
    refine spendTag_eq_ok.mpr ⟨h.length, ?_, ?_⟩
    · have := h.index
      have hallowance := h.allowance
      unfold maxAllowance at hallowance
      omega
    · refine (hsame _ _ (by decide) ?_).symm
      rw [spendMessage, List.length_append, h.length, Bytes.length_ofNat]
      decide
  constructor
  · rintro ⟨v, hv, record, hrecord, rfl⟩
    exact ⟨_, ⟨v, hv, _, htag v hv, record, hrecord, rfl⟩, rfl⟩
  · rintro ⟨_, ⟨v, hv, tag, htag', record, hrecord, rfl⟩, rfl⟩
    obtain rfl := Except.ok.inj ((htag v hv).symm.trans htag')
    exact ⟨v, hv, record, hrecord, rfl⟩

end Agreement

end Sandbox

/-- **The script and the module agree**: on every input within its wire types they accept alike, and
the proof of the script is that of the module, with the same spend tag and the same record. -/
theorem sandbox_adapter_agrees (P : Primitives) (hsame : Sandbox.SameHmac P) (issuerKey : Bytes)
    (hkey : issuerKey.length = 32) (epoch : ℕ) (input : AdmissionInput) (hwire : input.Wire) :
    ∃ tokenKey, Sandbox.tokenKeyOf (Sandbox.u8ToHex issuerKey) = .ok tokenKey ∧
      (∀ v, Sandbox.verifyPowInput tokenKey (Sandbox.encodeHostData input) epoch = .ok v ↔
        verify P (moduleAdapter P issuerKey) input epoch = .ok v) ∧
      ∀ p, Sandbox.powProof tokenKey (Sandbox.encodeHostData input) epoch = .ok p ↔
        ∃ q, prepare P (moduleAdapter P issuerKey) input epoch = .ok q ∧ p = Sandbox.encodeProof q := by
  have hlength : (moduleAdapter P issuerKey).tokenKey.length = 32 := P.length_hmacSha256 _ _
  refine ⟨_, Sandbox.tokenKeyOf_u8ToHex hsame hkey, fun v => ?_, fun p => ?_⟩
  · exact Sandbox.verifyPowInput_iff hsame hlength ⟨rfl, rfl, rfl⟩ hwire
  · exact Sandbox.powProof_iff hsame hlength ⟨rfl, rfl, rfl⟩ hwire

/-! ### A token of an issuer key -/

def sampleIssuerKey : Bytes := List.replicate 32 7

/-- A token for the two sample requests, signed with the token key of the issuer key. -/
def issuedToken : Bytes := tokenPayload (List.replicate 32 3) sampleRoot 2 10 ++ [
  0x95, 0x04, 0xed, 0x24, 0xb1, 0x09, 0x16, 0xf6, 0x33, 0xc8, 0xc2, 0xd9, 0x86, 0x88, 0xf4, 0x43,
  0x31, 0x33, 0xbe, 0x7c, 0x9d, 0x72, 0x73, 0xec, 0xa9, 0x59, 0x37, 0xc1, 0x7b, 0x17, 0xff, 0x75]

/-- The request that presents its first spend. -/
def issuedInput : AdmissionInput :=
  { sampleInput 0 with
    token := issuedToken ++ (Bytes.ofNat 1 0 ++ (sampleCommitments.eraseIdx 0).flatten) }

theorem issuedToken_minted : mintPowIssuanceV1Token Sandbox.primitives
    (moduleAdapter Sandbox.primitives sampleIssuerKey).tokenKey (List.replicate 32 3) sampleRoot 2
    10 = .ok issuedToken := by
  decide +kernel

/-- The script accepts what the module accepts. -/
theorem sandbox_accepts_issuedInput :
    ∃ tokenKey v, Sandbox.tokenKeyOf (Sandbox.u8ToHex sampleIssuerKey) = .ok tokenKey ∧
      Sandbox.verifyPowInput tokenKey (Sandbox.encodeHostData issuedInput) 0 = .ok v := by
  have hwire : issuedInput.Wire := ⟨by decide, by decide, by decide, by decide, by decide, by decide,
    by decide, by decide, by decide, by decide, rfl⟩
  obtain ⟨tokenKey, hkey, hverify, -⟩ := sandbox_adapter_agrees Sandbox.primitives
    (fun _ _ _ _ => rfl) sampleIssuerKey (by decide) 0 issuedInput hwire
  obtain ⟨presentation, hbuild, haccept⟩ := verify_buildPowIssuanceV1Presentation
    (show (moduleAdapter Sandbox.primitives sampleIssuerKey).closed = false from rfl)
    (show sampleCommitments.length ≤ 8 by decide) sampleToken_minted.1 issuedToken_minted
    (show 0 < sampleCommitments.length by decide)
  have hbuilt : buildPowIssuanceV1Presentation issuedToken 0 sampleCommitments = .ok issuedInput.token := by
    decide
  exact ⟨tokenKey, _, hkey, (hverify _).mpr (haccept issuedInput 0
    (Except.ok.inj (hbuilt.symm.trans hbuild)) rfl rfl rfl (by decide) (by decide))⟩

end HiveRelay.Pow
