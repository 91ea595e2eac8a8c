import HiveRelay.Lib.Bytes
import HiveRelay.Lib.Guard

/-!
# The codec of client intents

An intent is a header of 264 bytes, the bytes of an operation and those of its result. A result that is
missing has a length of its own, which no result can have. A byte string is accepted exactly if it is what is
written for an intent that passes the checks.

## Main definitions

* `Intent.Fits` — the checks of an intent

## Main results

* `decodeClientIntent_eq_ok` — what is accepted
* `client_intent_codec` — both directions of the codec
-/

namespace HiveRelay.Client

open Bytes List

/-! ### Intents -/

structure ClientError where
  (code message : String)

def badClientInput (message : String) : ClientError := ⟨"BAD_CLIENT_INPUT", message⟩

def intentCorrupt (message : String) : ClientError := ⟨"INTENT_CORRUPT", message⟩

def maxOperationBytes : ℕ := 4 * 1024 * 1024

def maxResultBytes : ℕ := 4 * 1024 * 1024

def journaled : ℕ := 1

def resultVerified : ℕ := 6

/-- What is passed, where counts may be missing, and what is returned, where they are not. -/
structure Intent where
  state : ℕ
  mayHaveCommitted : Bool
  (familyId operationId endpointId transportId transportSupportBit privacyProfileBit : ℕ)
  (attemptCount lastErrorCode : Option ℕ)
  descriptorSequence : ℕ
  (intentId logicalId continuityRoot storeId descriptorHash requestCommitment clientNonce operationBytes : Bytes)
  resultBytes : Option Bytes
deriving DecidableEq

def Intent.filled (v : Intent) : Intent :=
  { v with attemptCount := some (v.attemptCount.getD 0), lastErrorCode := some (v.lastErrorCode.getD 0) }

def integer (value minimum maximum : ℕ) (field : String) : Except ClientError Unit :=
  require (minimum ≤ value ∧ value ≤ maximum) (badClientInput s!"{field} must be within {minimum}..{maximum}")

def exactBytes (value : Bytes) (field : String) (length : ℕ) : Except ClientError Unit :=
  require (value.length = length) (badClientInput s!"{field} must be exactly {length} bytes")

def nonzeroBytes (value : Bytes) (field : String) : Except ClientError Unit := do
  exactBytes value field 32
  require (isZero value = false) (badClientInput s!"{field} must be nonzero")

def boundedBytes (value : Bytes) (field : String) (maximum : ℕ) (allowEmpty : Bool) : Except ClientError Unit :=
  require ((allowEmpty = true ∨ value.length ≠ 0) ∧ value.length ≤ maximum)
    (badClientInput s!"{field} is outside its byte bound")

/-- A result may be missing. -/
def optionalResult : Option Bytes → Except ClientError Unit
  | none => pure ()
  | some result => boundedBytes result "resultBytes" maxResultBytes true

/-- `normalizedIntent`, of a value whose numbers are no less than zero; `advertised` is
`isAdvertisedOperation`. -/
def normalizedIntent (advertised : ℕ → ℕ → Bool) (v : Intent) : Except ClientError Intent := do
  integer v.state 1 8 "intent state"
  boundedBytes v.operationBytes "operationBytes" maxOperationBytes false
  optionalResult v.resultBytes
  require (¬ (v.state = journaled ∧ v.mayHaveCommitted = true))
    (badClientInput "newly journaled intent cannot be marked mayHaveCommitted")
  require (¬ (v.state = resultVerified ∧ v.resultBytes = none))
    (badClientInput "verified intent requires exact result bytes")
  require (¬ (v.state ≠ resultVerified ∧ v.resultBytes ≠ none))
    (badClientInput "result bytes are persisted only after complete verification")
  integer v.transportSupportBit 1 0xffff "transportSupportBit"
  integer v.privacyProfileBit 1 0xffff "privacyProfileBit"
  require (v.transportSupportBit &&& (v.transportSupportBit - 1) = 0 ∧
      v.privacyProfileBit &&& (v.privacyProfileBit - 1) = 0)
    (badClientInput "transport and privacy profiles must each contain one bit")
  integer v.familyId 1 5 "familyId"
  integer v.operationId 1 255 "operationId"
  require (advertised v.familyId v.operationId = true)
    (badClientInput "client intent operation is unknown or reserved by the active release profile")
  nonzeroBytes v.intentId "intentId"
  nonzeroBytes v.logicalId "logicalId"
  nonzeroBytes v.continuityRoot "continuityRoot"
  nonzeroBytes v.storeId "storeId"
  nonzeroBytes v.descriptorHash "descriptorHash"
  require (v.descriptorSequence < 2 ^ 64) (badClientInput "descriptorSequence is outside u64")
  integer v.endpointId 1 255 "endpointId"
  integer v.transportId 1 255 "transportId"
  nonzeroBytes v.requestCommitment "requestCommitment"
  exactBytes v.clientNonce "clientNonce" 32
  integer (v.attemptCount.getD 0) 0 0xffffffff "attemptCount"
  integer (v.lastErrorCode.getD 0) 0 255 "lastErrorCode"
  return v.filled

/-! ### The codec -/

def magic : Bytes := ofAscii "HRINT1"

def headerBytes : ℕ := 264

/-- The length that is written for a result. -/
def resultLength (result : Option Bytes) : ℕ :=
  match result with
  | none => 0xffffffff
  | some result => result.length

/-- The header in the order of its offsets. Its last two bytes are not written to. -/
def Intent.header (v : Intent) : List Bytes :=
  [magic, ofNat 1 1, ofNat 1 v.state, ofNat 1 v.mayHaveCommitted.toNat, ofNat 1 v.familyId,
    ofNat 1 v.operationId, ofNat 1 v.endpointId, ofNat 1 v.transportId,
    ofNat 2 v.transportSupportBit, ofNat 2 v.privacyProfileBit, ofNat 4 (v.attemptCount.getD 0),
    ofNat 1 (v.lastErrorCode.getD 0), ofNat 4 v.operationBytes.length,
    ofNat 4 (resultLength v.resultBytes), ofNat 8 v.descriptorSequence, v.intentId, v.logicalId,
    v.continuityRoot, v.storeId, v.descriptorHash, v.requestCommitment, v.clientNonce, [0, 0]]

def Intent.bytes (v : Intent) : Bytes := v.header.flatten ++ (v.operationBytes ++ v.resultBytes.getD [])

def encodeClientIntent (advertised : ℕ → ℕ → Bool) (value : Intent) : Except ClientError Bytes := do
  let v ← normalizedIntent advertised value
  return v.bytes

/-- The fields at their offsets. -/
def intentAt (input : Bytes) : Intent where
  state := toNat (window input 7 1)
  mayHaveCommitted := decide (toNat (window input 8 1) = 1)
  familyId := toNat (window input 9 1)
  operationId := toNat (window input 10 1)
  endpointId := toNat (window input 11 1)
  transportId := toNat (window input 12 1)
  transportSupportBit := toNat (window input 13 2)
  privacyProfileBit := toNat (window input 15 2)
  attemptCount := some (toNat (window input 17 4))
  lastErrorCode := some (toNat (window input 21 1))
  descriptorSequence := toNat (window input 30 8)
  intentId := window input 38 32
  logicalId := window input 70 32
  continuityRoot := window input 102 32
  storeId := window input 134 32
  descriptorHash := window input 166 32
  requestCommitment := window input 198 32
  clientNonce := window input 230 32
  operationBytes := window input headerBytes (toNat (window input 22 4))
  resultBytes := if toNat (window input 26 4) = 0xffffffff then none
    else some (input.drop (headerBytes + toNat (window input 22 4)))

def decodeClientIntent (advertised : ℕ → ℕ → Bool) (input : Bytes) : Except ClientError Intent := do
  require (headerBytes ≤ input.length ∧ window input 0 6 = magic ∧ toNat (window input 6 1) = 1)
    (intentCorrupt "client intent header is invalid")
  require (toNat (window input 8 1) ≤ 1 ∧ window input 262 2 = [0, 0])
    (intentCorrupt "client intent flags or reserved bytes are invalid")
  let operationLength := toNat (window input 22 4)
  let encodedResultLength := toNat (window input 26 4)
  let resultLength := if encodedResultLength = 0xffffffff then 0 else encodedResultLength
  require (operationLength ≠ 0 ∧ operationLength ≤ maxOperationBytes ∧ resultLength ≤ maxResultBytes ∧
      input.length = headerBytes + operationLength + resultLength)
    (intentCorrupt "client intent lengths are invalid")
  normalizedIntent advertised (intentAt input)

/-! ### What passes the checks -/

section Checks

variable {advertised : ℕ → ℕ → Bool} {v x : Intent} {b : Bytes}

/-- What is written fits its place. -/
structure Intent.Fits (v : Intent) : Prop where
  state : v.state ≤ 255
  familyId : v.familyId ≤ 255
  operationId : v.operationId ≤ 255
  endpointId : v.endpointId ≤ 255
  transportId : v.transportId ≤ 255
  transportSupportBit : v.transportSupportBit ≤ 0xffff
  privacyProfileBit : v.privacyProfileBit ≤ 0xffff
  attemptCount : v.attemptCount.getD 0 ≤ 0xffffffff
  lastErrorCode : v.lastErrorCode.getD 0 ≤ 255
  descriptorSequence : v.descriptorSequence < 2 ^ 64
  identifiers : ∀ id ∈ [v.intentId, v.logicalId, v.continuityRoot, v.storeId, v.descriptorHash, v.requestCommitment,
    v.clientNonce], id.length = 32
  operationBytes : v.operationBytes.length ≠ 0 ∧ v.operationBytes.length ≤ maxOperationBytes
  resultBytes : ∀ result ∈ v.resultBytes, result.length ≤ maxResultBytes

theorem optionalResult_eq_ok {result : Option Bytes} {u : Unit} :
    optionalResult result = .ok u ↔ ∀ r ∈ result, r.length ≤ maxResultBytes := by
  cases result <;> simp [optionalResult, boundedBytes]

theorem normalizedIntent_ok (h : normalizedIntent advertised v = .ok x) : x = v.filled ∧ v.Fits := by
  simp only [normalizedIntent, integer, boundedBytes, nonzeroBytes, exactBytes, guards_eq_ok, optionalResult_eq_ok] at h
  obtain ⟨⟨-, hstate⟩, ⟨hnonempty, hoperation⟩, hresult, -, -, -, ⟨-, htransport⟩, ⟨-, hprivacy⟩, -, ⟨-, hfamily⟩,
    ⟨-, hoperationId⟩, -, ⟨hintent, -⟩, ⟨hlogical, -⟩, ⟨hroot, -⟩, ⟨hstore, -⟩, ⟨hdescriptor, -⟩, hsequence,
    ⟨-, hendpoint⟩, ⟨-, htransportId⟩, ⟨hrequest, -⟩, hnonce, ⟨-, hattempts⟩, ⟨-, herror⟩, rfl⟩ := h
  refine ⟨rfl, hstate.trans (by decide), hfamily.trans (by decide), hoperationId, hendpoint, htransportId, htransport,
    hprivacy, hattempts, herror, hsequence, ?_, ⟨by simpa using hnonempty, hoperation⟩, hresult⟩
  simp [hintent, hlogical, hroot, hstore, hdescriptor, hrequest, hnonce]

theorem Intent.Fits.length_header (h : v.Fits) : v.header.flatten.length = headerBytes := by
  have hids := h.identifiers
  simp only [forall_mem_cons] at hids
  obtain ⟨hintent, hlogical, hroot, hstore, hdescriptor, hrequest, hnonce, -⟩ := hids
  simp [Intent.header, magic, ofAscii, headerBytes, hintent, hlogical, hroot, hstore, hdescriptor, hrequest, hnonce]

theorem resultLength_lt (h : v.Fits) : resultLength v.resultBytes < 256 ^ 4 := by
  have := h.resultBytes
  unfold maxResultBytes at this
  cases hresult : v.resultBytes with
  | none => decide
  | some result =>
    have := this result hresult
    simp only [resultLength]
    omega

/-- The header is that of an intent exactly if its fields are read at their offsets. -/
theorem reads_header_iff (h : v.Fits) (hb : headerBytes ≤ b.length) : window b 0 headerBytes = v.header.flatten ↔
    (window b 0 6 = magic ∧ toNat (window b 6 1) = 1 ∧ window b 262 2 = [0, 0]) ∧
      toNat (window b 8 1) = v.mayHaveCommitted.toNat ∧ toNat (window b 22 4) = v.operationBytes.length ∧
      toNat (window b 26 4) = resultLength v.resultBytes ∧
      { intentAt b with
        mayHaveCommitted := v.mayHaveCommitted, operationBytes := v.operationBytes, resultBytes := v.resultBytes } =
          v.filled := by
  have hids := h.identifiers
  simp only [forall_mem_cons] at hids
  obtain ⟨hintent, hlogical, hroot, hstore, hdescriptor, hrequest, hnonce, -⟩ := hids
  have hheader := h.length_header
  rw [← hheader] at hb ⊢
  rw [← reads_iff (by omega)]
  rw [hheader] at hb
  have hread : ∀ offset width value, offset + width ≤ headerBytes → value < 256 ^ width →
      (toNat (window b offset width) = value ↔ window b offset width = ofNat width value) :=
    fun _ _ _ hle hvalue => toNat_window_eq_iff (hle.trans hb) hvalue
  have hu8 : ∀ {n}, n ≤ 255 → n < 256 ^ 1 := fun h => by omega
  have hu16 : ∀ {n}, n ≤ 0xffff → n < 256 ^ 2 := fun h => by omega
  have hoperation : v.operationBytes.length < 256 ^ 4 := by
    have := h.operationBytes.2
    unfold maxOperationBytes at this
    omega
  have hflag : v.mayHaveCommitted.toNat < 256 ^ 1 := by cases v.mayHaveCommitted <;> decide
  have hmagic : magic.length = 6 := rfl
  simp only [Reads, Intent.header, hmagic, length_ofNat, hintent, hlogical, hroot, hstore, hdescriptor, hrequest, hnonce,
    length_cons, length_nil, Nat.reduceAdd, and_true]
  simp only [intentAt, Intent.filled, Intent.mk.injEq, Option.some.injEq, true_and, and_true,
    hread 6 1 1 (by decide) (by decide), hread 7 1 _ (by decide) (hu8 h.state), hread 8 1 _ (by decide) hflag,
    hread 9 1 _ (by decide) (hu8 h.familyId), hread 10 1 _ (by decide) (hu8 h.operationId),
    hread 11 1 _ (by decide) (hu8 h.endpointId), hread 12 1 _ (by decide) (hu8 h.transportId),
    hread 13 2 _ (by decide) (hu16 h.transportSupportBit), hread 15 2 _ (by decide) (hu16 h.privacyProfileBit),
    hread 17 4 _ (by decide) (Nat.lt_succ_of_le h.attemptCount), hread 21 1 _ (by decide) (hu8 h.lastErrorCode),
    hread 22 4 _ (by decide) hoperation, hread 26 4 _ (by decide) (resultLength_lt h),
    hread 30 8 _ (by decide) h.descriptorSequence]
  constructor
  · rintro ⟨hmagic, h6, h7, h8, h9, h10, h11, h12, h13, h15, h17, h21, h22, h26, h30, h38, h70, h102, h134, h166, h198,
      h230, h262⟩
    exact ⟨⟨hmagic, h6, h262⟩, h8, h22, h26, h7, h9, h10, h11, h12, h13, h15, h17, h21, h30, h38, h70, h102, h134, h166,
      h198, h230⟩
  · rintro ⟨⟨hmagic, h6, h262⟩, h8, h22, h26, h7, h9, h10, h11, h12, h13, h15, h17, h21, h30, h38, h70, h102, h134, h166,
      h198, h230⟩
    exact ⟨hmagic, h6, h7, h8, h9, h10, h11, h12, h13, h15, h17, h21, h22, h26, h30, h38, h70, h102, h134, h166, h198,
      h230, h262⟩

/-- **The accepted byte strings** are the ones that are written for an intent that passes the checks. -/
theorem decodeClientIntent_eq_ok :
    decodeClientIntent advertised b = .ok x ↔ normalizedIntent advertised x = .ok x ∧ b = x.bytes := by
  simp only [decodeClientIntent, guards_eq_ok]
  constructor
  · rintro ⟨⟨hb, hmagic, hversion⟩, ⟨hflag, hreserved⟩, ⟨-, -, -, hlength⟩, hnormal⟩
    obtain ⟨rfl, hfits⟩ := normalizedIntent_ok hnormal
    refine ⟨hnormal, ?_⟩
    show b = (intentAt b).header.flatten ++ (window b headerBytes _ ++ (intentAt b).resultBytes.getD [])
    have hrest : (b.drop (headerBytes + toNat (window b 22 4))).length =
        if toNat (window b 26 4) = 0xffffffff then 0 else toNat (window b 26 4) := by
      rw [length_drop]
      omega
    have hresult : (intentAt b).resultBytes.getD [] = b.drop (headerBytes + toNat (window b 22 4)) ∧
        toNat (window b 26 4) = resultLength (intentAt b).resultBytes := by
      simp only [intentAt]
      split at hrest
      · next hnone =>
        rw [if_pos hnone, length_eq_zero_iff.mp hrest]
        exact ⟨rfl, hnone⟩
      · next hsome =>
        rw [if_neg hsome]
        exact ⟨rfl, hrest.symm⟩
    rw [← (reads_header_iff hfits hb).mpr ⟨⟨hmagic, hversion, hreserved⟩, ?_, (length_window (by omega)).symm,
      hresult.2, rfl⟩, hresult.1, window, window, drop_zero, ← drop_drop, take_append_drop, take_append_drop]
    have hcases : toNat (window b 8 1) = 0 ∨ toNat (window b 8 1) = 1 := by omega
    rcases hcases with hzero | hone
    · simp [intentAt, hzero]
    · simp [intentAt, hone]
  · rintro ⟨hnormal, rfl⟩
    obtain ⟨hself, hfits⟩ := normalizedIntent_ok hnormal
    have hlength : x.bytes.length = headerBytes + (x.operationBytes.length + (x.resultBytes.getD []).length) := by
      rw [Intent.bytes, length_append, hfits.length_header, length_append]
    have hb : headerBytes ≤ x.bytes.length := by omega
    obtain ⟨⟨hmagic, hversion, hreserved⟩, hflag, hoperation, hresult, hfields⟩ :=
      (reads_header_iff hfits hb).mp (window_append_left _ hfits.length_header)
    have htail : ∀ {k}, x.bytes.drop (headerBytes + k) = (x.operationBytes ++ x.resultBytes.getD []).drop k := by
      intro k
      rw [← drop_drop, Intent.bytes, drop_left' hfits.length_header]
    have hresultMax := hfits.resultBytes
    have hat : intentAt x.bytes = x := by
      have hcommitted : (intentAt x.bytes).mayHaveCommitted = x.mayHaveCommitted := by
        simp only [intentAt, hflag]
        cases x.mayHaveCommitted <;> rfl
      have hbytes : (intentAt x.bytes).operationBytes = x.operationBytes := by
        simp only [intentAt, hoperation]
        rw [window, ← Nat.add_zero headerBytes, htail, drop_zero, take_left]
      have hresultBytes : (intentAt x.bytes).resultBytes = x.resultBytes := by
        simp only [intentAt, hoperation, hresult, htail, drop_left]
        cases hcases : x.resultBytes with
        | none => rfl
        | some result =>
          have := hresultMax result hcases
          unfold maxResultBytes at this
          rw [if_neg (by simp only [resultLength]; omega)]
          rfl
      calc intentAt x.bytes
          = { intentAt x.bytes with
              mayHaveCommitted := (intentAt x.bytes).mayHaveCommitted
              operationBytes := (intentAt x.bytes).operationBytes
              resultBytes := (intentAt x.bytes).resultBytes } := rfl
        _ = x.filled := by rw [hcommitted, hbytes, hresultBytes, hfields]
        _ = x := hself.symm
    refine ⟨⟨hb, hmagic, hversion⟩, ⟨?_, hreserved⟩, ?_, by rw [hat]; exact hnormal⟩
    · rw [hflag]
      exact Bool.toNat_le _
    · rw [hoperation, hresult, hlength]
      refine ⟨hfits.operationBytes.1, hfits.operationBytes.2, ?_⟩
      cases hcases : x.resultBytes with
      | none => exact ⟨by decide, rfl⟩
      | some result =>
        have hmax := hresultMax result hcases
        rw [if_neg (by unfold maxResultBytes at hmax; simp only [resultLength]; omega)]
        exact ⟨hmax, (Nat.add_assoc _ _ _).symm⟩

theorem encodeClientIntent_of_normal (h : normalizedIntent advertised v = .ok x) :
    encodeClientIntent advertised v = .ok x.bytes := by
  rw [encodeClientIntent, h]
  rfl

/-- **The codec of intents.** What passes the checks is encoded, and decoded to itself with its counts filled in;
and what is accepted is encoded to the byte string it was decoded from. -/
theorem client_intent_codec (advertised : ℕ → ℕ → Bool) :
    (∀ v x, normalizedIntent advertised v = .ok x → x = v.filled ∧
      ∃ b, encodeClientIntent advertised v = .ok b ∧ decodeClientIntent advertised b = .ok x) ∧
    ∀ b x, decodeClientIntent advertised b = .ok x → encodeClientIntent advertised x = .ok b := by
  constructor
  · intro v x h
    obtain ⟨rfl, -⟩ := normalizedIntent_ok h
    exact ⟨rfl, v.filled.bytes, encodeClientIntent_of_normal h, decodeClientIntent_eq_ok.mpr ⟨h, rfl⟩⟩
  · intro b x h
    obtain ⟨hnormal, rfl⟩ := decodeClientIntent_eq_ok.mp h
    exact encodeClientIntent_of_normal hnormal

end Checks

def uncounted : Intent :=
  ⟨1, false, 1, 1, 1, 1, 1, 1, none, none, 0, replicate 32 1, replicate 32 1, replicate 32 1, replicate 32 1,
    replicate 32 1, replicate 32 1, replicate 32 0, [0], none⟩

/-- Counts that are missing are read back as zero. -/
theorem missing_counts_decode_to_zero : ¬ ∀ v x b, normalizedIntent (fun _ _ => true) v = .ok x →
    encodeClientIntent (fun _ _ => true) v = .ok b → decodeClientIntent (fun _ _ => true) b = .ok v := by
  intro h
  have hnormal : normalizedIntent (fun _ _ => true) uncounted = .ok uncounted.filled := by
    simp only [normalizedIntent, integer, boundedBytes, nonzeroBytes, exactBytes, guards_eq_ok, optionalResult_eq_ok]
    decide +kernel
  have hback := (decodeClientIntent_eq_ok.mp (h _ _ _ hnormal (encodeClientIntent_of_normal hnormal))).1
  rw [hnormal] at hback
  exact absurd (Except.ok.inj hback) (by decide)

end HiveRelay.Client
