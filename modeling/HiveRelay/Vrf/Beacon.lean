import HiveRelay.Lib.Guard
import HiveRelay.Lib.OrderedMap
import HiveRelay.Outbox.Record
import Mathlib.Data.List.Infix

/-!
# The VRF beacon

A beacon makes a chain of rounds. The input of a round is the output of the round before it and its own
number, and the first round takes the hash of the domain and the public key. The beacon keeps the latest
rounds. `verifyBeaconChain` checks records of anyone: each by itself, and each against the one before.

The curve and the hash are parameters. What the chain needs of them is that the proofs of the beacon's
key verify (`Ecvrf.Proves`) and that the proofs that verify for one input have one output
(`Ecvrf.Unique`).

## Main definitions

* `Chained` — records that follow each other

## Main results

* `beacon_verifiable_unforkable` — a chain verifies, and its randomness is unique
-/

namespace HiveRelay.Vrf

open List Option HiveRelay.Except
open Outbox (hexValue fromHex isSpace)

/-! ### Bytes and numbers -/

def toHex (b : Bytes) : JsString :=
  b.flatMap fun byte => [JsString.hexDigit (byte.toNat / 16), JsString.hexDigit (byte.toNat % 16)]

/-- What a caller passes where bytes are expected. -/
inductive Input where
  | bytes (b : Bytes)
  | str (s : JsString)
  | array (b : Bytes)
  | other

/-- `asBytes`; `none` is thrown. -/
def asBytes : Input → Option Bytes
  | .bytes b => some b
  | .str s => if s.length % 2 = 0 && s.all (fun u => (hexValue u).isSome) then some (fromHex s) else none
  | .array b => some b
  | .other => none

/-- `parseInt(s, 16)`, as it is stored in a byte array. What does not parse is stored as 0. -/
def parseByte (s : JsString) : UInt8 :=
  let unsigned (s : JsString) : ℕ :=
    let digits := match s with
      | 0x30 :: 0x78 :: rest => rest
      | 0x30 :: 0x58 :: rest => rest
      | s => s
    (digits.takeWhile fun u => (hexValue u).isSome).foldl (fun n u => n * 16 + (hexValue u).getD 0) 0
  match s.dropWhile isSpace with
  | 0x2d :: rest => UInt8.ofNat (256 - unsigned rest % 256)
  | 0x2b :: rest => UInt8.ofNat (unsigned rest)
  | s => UInt8.ofNat (unsigned s)

/-- The bytes of a string, two units each. An odd last unit is left out. -/
def parseBytes : JsString → Bytes
  | u :: v :: rest => parseByte [u, v] :: parseBytes rest
  | _ => []

def asPubkeyBytes (pubkey : Input) : Except String Bytes :=
  match pubkey with
  | .bytes b => if b.length = 32 then .ok b else .error "beacon: pubkey must be 32 bytes"
  | .str s =>
    if (parseBytes s).length = 32 then .ok (parseBytes s) else .error "beacon: pubkey must be 32 bytes"
  | _ => .error "beacon: pubkey must be Uint8Array or hex string"

/-- `hexToBytes`; `none` is a field that is not a string. -/
def hexToBytes (hex : Option JsString) (len : ℕ) (name : String) : Except String Bytes :=
  match hex with
  | some s =>
    if s.length = len * 2 && s.all (fun u => (hexValue u).isSome) then .ok (fromHex s)
    else .error s!"beacon: {name} must be {len}-byte hex"
  | none => .error s!"beacon: {name} must be {len}-byte hex"

/-- The double that is nearest to `n`, with ties to the even mantissa. -/
def toDouble (n : ℕ) : ℕ :=
  let ulp := 2 ^ (n.log2 - 52)
  let mantissa := n / ulp
  let rest := n % ulp
  if ulp < 2 * rest ∨ ulp = 2 * rest ∧ mantissa % 2 = 1 then (mantissa + 1) * ulp else mantissa * ulp

/-- `x | 0`, of a number that is truncated to the integer `x`. -/
def toInt32 (x : ℤ) : ℤ := (x + 2 ^ 31) % 2 ^ 32 - 2 ^ 31

/-! ### The curve -/

/-- `ecvrf.js`, past `asBytes`. -/
structure Ecvrf where
  sha512 : Bytes → Bytes
  /-- `verify(pk, alpha, pi)`; a proof or a key that does not decode is not valid. -/
  verifies : Bytes → Bytes → Bytes → Bool
  /-- `proofToHash(pi)`; `none` is a proof that does not decode. -/
  hash : Bytes → Option Bytes
  length_sha512 : ∀ b, (sha512 b).length = 64
  length_hash : ∀ pi beta, hash pi = some beta → beta.length = 64
  hash_of_verifies : ∀ pk alpha pi, verifies pk alpha pi = true → (hash pi).isSome

namespace Ecvrf

variable (E : Ecvrf)

/-- The proofs that verify for one input have one output. -/
def Unique (pk : Bytes) : Prop :=
  ∀ alpha pi pi', E.verifies pk alpha pi = true → E.verifies pk alpha pi' = true → E.hash pi = E.hash pi'

def Proves (pk : Bytes) (proveFn : Bytes → Option Bytes) : Prop :=
  ∀ alpha, ∃ pi, proveFn alpha = some pi ∧ E.verifies pk alpha pi = true

/-- `verify`; the input is decoded outside of its `try`. -/
def verify (pk alpha pi : Input) : Except String Bool :=
  match asBytes pi, asBytes pk with
  | some pi, some pk =>
    (demand (asBytes alpha) "ecvrf: alpha string must be valid hex").map fun alpha => E.verifies pk alpha pi
  | _, _ => .ok false

def proofToHash (pi : Input) : Except String Bytes :=
  demand ((asBytes pi).bind E.hash) "ecvrf: proof must be 80 bytes"

end Ecvrf

/-! ### The beacon -/

/-- `roundToLE8`; `none` is not a non-negative integer. -/
def roundToLE8 (round : Option ℕ) : Except String Bytes :=
  match round with
  | none => .error "beacon: round must be a non-negative integer"
  | some round =>
    if round < 2 ^ 64 then .ok (Bytes.ofNatLE 8 round) else .error "beacon: round exceeds uint64"

def beaconAlpha (prevBetaBytes : Bytes) (round : Option ℕ) : Except String Bytes :=
  if prevBetaBytes.length = 64 then (roundToLE8 round).map (prevBetaBytes ++ ·)
  else .error "beacon: prevBeta must be 64 bytes"

def computeGenesisBeta (E : Ecvrf) (domain : JsString) (pubkey : Input) : Except String Bytes :=
  (asPubkeyBytes pubkey).map fun bytes => E.sha512 (JsString.utf8 domain ++ bytes)

/-- A record, as it is shown to the verifier. `none` is a round that is not a non-negative integer, and
another field that is not a string. -/
structure Record where
  round : Option ℕ
  timestamp : ℕ
  (pubkey domain : JsString)
  (prevBeta alpha : Option JsString)
  pi : Input
  beta : Option JsString

structure VrfBeacon where
  proveFn : Bytes → Option Bytes
  pubkeyBytes : Bytes
  (pubkey domain : JsString)
  retain : ℕ
  genesisBeta : Bytes
  round : ℕ
  prevBeta : Bytes
  history : List Record
  byRound : OrderedMap (Option ℕ) Record

/-- `constructor`. -/
def VrfBeacon.create (E : Ecvrf) (proveFn : Bytes → Option Bytes) (pubkey : Input) (domain : JsString)
    (retain : ℤ) : Except String VrfBeacon := do
  let pubkeyBytes ← asPubkeyBytes pubkey
  let genesisBeta ← computeGenesisBeta E domain (.bytes pubkeyBytes)
  return {
    proveFn
    pubkeyBytes
    pubkey := toHex pubkeyBytes
    domain
    retain := (max 1 (toInt32 retain)).toNat
    genesisBeta
    round := 0
    prevBeta := genesisBeta
    history := []
    byRound := .empty }

/-- The `while` of `advance`. -/
def dropOld (retain : ℕ) : List Record → OrderedMap (Option ℕ) Record → List Record × OrderedMap (Option ℕ) Record
  | [], byRound => ([], byRound)
  | dropped :: rest, byRound =>
    if (dropped :: rest).length > retain then dropOld retain rest (byRound.delete dropped.round)
    else (dropped :: rest, byRound)

def VrfBeacon.recordOf (b : VrfBeacon) (round now : ℕ) (alpha pi beta : Bytes) : Record where
  __ := b
  round := some round
  timestamp := now
  prevBeta := some (toHex b.prevBeta)
  alpha := some (toHex alpha)
  pi := .str (toHex pi)
  beta := some (toHex beta)

/-- The end of `advance`. -/
def VrfBeacon.push (b : VrfBeacon) (round : ℕ) (beta : Bytes) (record : Record) : VrfBeacon :=
  let (history, byRound) := dropOld b.retain (b.history ++ [record]) (b.byRound.set (some round) record)
  { b with round, prevBeta := beta, history, byRound }

/-- `advance`, at the time `now`. What throws leaves the beacon as it was. -/
def VrfBeacon.advance (E : Ecvrf) (b : VrfBeacon) (now : ℕ) : Except String VrfBeacon := do
  let round := toDouble (b.round + 1)
  let alpha ← beaconAlpha b.prevBeta (some round)
  let pi ← demand (b.proveFn alpha) "beacon: proveFn must return Uint8Array"
  let beta ← E.proofToHash (.bytes pi)
  return b.push round beta (b.recordOf round now alpha pi beta)

/-- `advance`, at each of the times. -/
def VrfBeacon.advances (E : Ecvrf) : VrfBeacon → List ℕ → Except String VrfBeacon
  | b, [] => .ok b
  | b, now :: times => b.advance E now >>= fun b => b.advances E times

/-- `round`. -/
def VrfBeacon.atRound (b : VrfBeacon) (r : ℕ) : Option Record := b.byRound.get? (some r)

/-! ### The verifier -/

inductive Reason where
  | alphaMismatch | proofInvalid | betaMismatch | nonContiguous | brokenLink | noRecords
  | malformed (message : String)

structure Failure where
  round : Option ℕ
  reason : Reason

/-- The `try` of `verifyBeaconRecord`: the reason that is returned, or what is thrown. -/
def tryBeaconRecord (E : Ecvrf) (pubkey : Input) (record : Record) : Except String (Option Reason) := do
  let prevBeta ← hexToBytes record.prevBeta 64 "prevBeta"
  let alpha ← beaconAlpha prevBeta record.round
  if record.alpha ≠ some (toHex alpha) then return some .alphaMismatch
  else
    let valid ← E.verify pubkey (.str (toHex alpha)) record.pi
    if !valid then return some .proofInvalid
    else
      let beta ← E.proofToHash record.pi
      if record.beta ≠ some (toHex beta) then return some .betaMismatch else return none

/-- `verifyBeaconRecord`: why a record is not valid. -/
def verifyBeaconRecord (E : Ecvrf) (pubkey : Input) (record : Record) : Option Reason :=
  match tryBeaconRecord E pubkey record with
  | .ok reason => reason
  | .error message => some (.malformed message)

/-- `record.round !== prev.round + 1`. Of a round that is no natural number JavaScript may find that it follows;
`beaconAlpha` refuses such a record, so that the list of failures is empty in the same cases. -/
def nonContiguous (prev record : Record) : Bool :=
  match prev.round, record.round with
  | some p, some r => r ≠ toDouble (p + 1)
  | _, _ => true

/-- What a record must link to; `none` is `null`. -/
def linkOf (genesisBeta : JsString) (prev : Option Record) (record : Record) : Option (Option JsString) :=
  match prev with
  | none => if record.round = some 1 then some (some genesisBeta) else none
  | some prev => some prev.beta

/-- The failures of one record, after `prev`. -/
def recordFailures (E : Ecvrf) (pubkey : Input) (genesisBeta : JsString) (prev : Option Record)
    (record : Record) : List Failure :=
  (if (prev.map fun prev => nonContiguous prev record) = some true then
    [⟨record.round, .nonContiguous⟩] else []) ++
  ((if (linkOf genesisBeta prev record).any (· ≠ record.prevBeta) then
    [⟨record.round, .brokenLink⟩] else []) ++
  ((verifyBeaconRecord E pubkey record).map fun reason => Failure.mk record.round reason).toList)

/-- The loop of `verifyBeaconChain`. -/
def chainFailures (E : Ecvrf) (pubkey : Input) (genesisBeta : JsString) : Option Record → List Record → List Failure
  | _, [] => []
  | prev, record :: records =>
    recordFailures E pubkey genesisBeta prev record ++ chainFailures E pubkey genesisBeta (some record) records

/-- What `verifyBeaconChain` returns. -/
structure ChainResult where
  valid : Bool
  checked : ℕ
  failures : List Failure

def verifyBeaconChain (E : Ecvrf) (pubkey : Input) (domain : JsString) (records : List Record) :
    Except String ChainResult :=
  if records = [] then .ok ⟨false, 0, [⟨none, .noRecords⟩]⟩
  else (computeGenesisBeta E domain pubkey).map fun genesisBeta =>
    let failures := chainFailures E pubkey (toHex genesisBeta) none records
    ⟨failures.isEmpty, records.length, failures⟩

/-- `verifyBeaconChain(..).valid`. -/
def AcceptsChain (E : Ecvrf) (pubkey : Input) (domain : JsString) (records : List Record) : Prop :=
  ∃ result, verifyBeaconChain E pubkey domain records = .ok result ∧ result.valid = true

/-! ### Texts of bytes -/

theorem hexValue_hexDigit : ∀ n < 16, hexValue (JsString.hexDigit n) = some n := by decide

theorem fromHex_toHex (b : Bytes) : fromHex (toHex b) = b := by
  induction b with
  | nil => rfl
  | cons byte b ih =>
    have hbyte := byte.toNat_lt
    have hhigh := hexValue_hexDigit (byte.toNat / 16) (by omega)
    have hlow := hexValue_hexDigit (byte.toNat % 16) (by omega)
    have hsum : byte.toNat / 16 * 16 + byte.toNat % 16 = byte.toNat := by omega
    rw [toHex, flatMap_cons, ← toHex]
    simp [fromHex, hhigh, hlow, hsum, ih]

@[simp] theorem length_toHex (b : Bytes) : (toHex b).length = b.length * 2 := by
  induction b with
  | nil => rfl
  | cons byte b ih =>
    rw [toHex, flatMap_cons, ← toHex, length_append, ih, length_cons]
    simp only [length_cons, length_nil]
    omega

theorem all_hex_toHex (b : Bytes) : (toHex b).all (fun u => (hexValue u).isSome) = true := by
  induction b with
  | nil => rfl
  | cons byte b ih =>
    have hbyte := byte.toNat_lt
    have hhigh := hexValue_hexDigit (byte.toNat / 16) (by omega)
    have hlow := hexValue_hexDigit (byte.toNat % 16) (by omega)
    rw [toHex, flatMap_cons, ← toHex]
    simp only [all_append, ih, Bool.and_true, all_cons, hhigh, hlow, all_nil, isSome_some]

@[simp] theorem asBytes_toHex (b : Bytes) : asBytes (.str (toHex b)) = some b := by
  simp [asBytes, all_hex_toHex, fromHex_toHex]

theorem hexToBytes_toHex {b : Bytes} {len : ℕ} {name : String} (h : b.length = len) :
    hexToBytes (some (toHex b)) len name = .ok b := by
  simp [hexToBytes, h, all_hex_toHex, fromHex_toHex]

theorem parseByte_digits : ∀ a < 16, ∀ b < 16,
    parseByte [JsString.hexDigit a, JsString.hexDigit b] = UInt8.ofNat (a * 16 + b) := by decide

theorem parseBytes_toHex (b : Bytes) : parseBytes (toHex b) = b := by
  induction b with
  | nil => rfl
  | cons byte b ih =>
    have hbyte := byte.toNat_lt
    have hsum : byte.toNat / 16 * 16 + byte.toNat % 16 = byte.toNat := by omega
    rw [toHex, flatMap_cons, ← toHex, cons_append, cons_append, nil_append, parseBytes,
      parseByte_digits _ (by omega) _ (by omega), hsum, ih]
    simp

/-! ### Rounds -/

theorem toDouble_of_le {n : ℕ} (h : n ≤ 2 ^ 53) : toDouble n = n := by
  rcases Nat.lt_or_eq_of_le h with h | rfl
  · have hlog : n.log2 - 52 = 0 := by
      by_cases hn : n = 0
      · simp [hn]
      · have hlt := (Nat.log2_lt hn).mpr h
        omega
    simp only [toDouble, hlog, pow_zero, Nat.div_one, mul_one]
    rw [if_neg (by omega)]
  · decide

/-! ### Accepted records -/

variable {records : List Record}

section Chains

variable {E : Ecvrf} {pubkey : Input} {domain : JsString} {record : Record}

theorem verify_eq_ok_true {pk alpha pi : Input} :
    E.verify pk alpha pi = .ok true ↔ ∃ key input proof, asBytes pk = some key ∧ asBytes alpha = some input ∧
      asBytes pi = some proof ∧ E.verifies key input proof = true := by
  unfold Ecvrf.verify
  cases asBytes pi <;> cases asBytes pk <;> cases asBytes alpha <;> simp [demand, Except.map]

theorem proofToHash_eq_ok {pi : Input} {beta : Bytes} :
    E.proofToHash pi = .ok beta ↔ ∃ proof, asBytes pi = some proof ∧ E.hash proof = some beta := by
  rw [Ecvrf.proofToHash, demand_eq_ok, bind_eq_some_iff]

/-- A record that verifies by itself. -/
structure Verifies (E : Ecvrf) (pubkey : Input) (record : Record) (prevBeta alpha beta : Bytes) : Prop where
  decoded : hexToBytes record.prevBeta 64 "prevBeta" = .ok prevBeta
  input : beaconAlpha prevBeta record.round = .ok alpha
  alphaText : record.alpha = some (toHex alpha)
  proof : E.verify pubkey (.str (toHex alpha)) record.pi = .ok true
  hash : E.proofToHash record.pi = .ok beta
  betaText : record.beta = some (toHex beta)

theorem verifyBeaconRecord_eq_none : verifyBeaconRecord E pubkey record = none ↔
      ∃ prevBeta alpha beta, Verifies E pubkey record prevBeta alpha beta := by
  have htry : verifyBeaconRecord E pubkey record = none ↔ tryBeaconRecord E pubkey record = .ok none := by
    unfold verifyBeaconRecord
    cases tryBeaconRecord E pubkey record <;> simp
  rw [htry, tryBeaconRecord]
  constructor
  · intro h
    simp only [bind_eq_ok] at h
    obtain ⟨prevBeta, hprev, alpha, hinput, h⟩ := h
    by_cases halpha : record.alpha = some (toHex alpha)
    · rw [if_neg (not_not.mpr halpha), bind_eq_ok] at h
      obtain ⟨valid, hvalid, h⟩ := h
      cases valid
      · simp at h
      · rw [if_neg (by decide), bind_eq_ok] at h
        obtain ⟨beta, hhash, h⟩ := h
        by_cases hbeta : record.beta = some (toHex beta)
        · exact ⟨prevBeta, alpha, beta, hprev, hinput, halpha, hvalid, hhash, hbeta⟩
        · simp [hbeta] at h
    · simp [halpha] at h
  · rintro ⟨prevBeta, alpha, beta, hprev, hinput, halpha, hproof, hhash, hbeta⟩
    simp [hprev, hinput, halpha, hproof, hhash, hbeta]

/-- The records that are accepted after `prev`. -/
structure Follows (E : Ecvrf) (pubkey : Input) (genesisBeta : JsString) (prev : Option Record)
    (record : Record) : Prop where
  next : ∀ p ∈ prev, ∃ n, p.round = some n ∧ record.round = some (toDouble (n + 1))
  link : ∀ link ∈ linkOf genesisBeta prev record, record.prevBeta = link
  verifies : verifyBeaconRecord E pubkey record = none

variable {genesisBeta : JsString} {prev : Option Record}

theorem nonContiguous_eq_false {p : Record} :
    nonContiguous p record = false ↔ ∃ n, p.round = some n ∧ record.round = some (toDouble (n + 1)) := by
  unfold nonContiguous
  cases p.round <;> cases record.round <;> simp

theorem recordFailures_eq_nil :
    recordFailures E pubkey genesisBeta prev record = [] ↔ Follows E pubkey genesisBeta prev record := by
  have hnext : ¬ (prev.map fun prev => nonContiguous prev record) = some true ↔
      ∀ p ∈ prev, ∃ n, p.round = some n ∧ record.round = some (toDouble (n + 1)) := by
    cases prev with
    | none => simp
    | some p => simp [nonContiguous_eq_false]
  have hlink : ¬ (linkOf genesisBeta prev record).any (· ≠ record.prevBeta) = true ↔
      ∀ link ∈ linkOf genesisBeta prev record, record.prevBeta = link := by
    cases linkOf genesisBeta prev record with
    | none => simp
    | some link =>
      simp only [any_some, decide_eq_true_eq, not_not, mem_some_iff, forall_eq']
      exact ⟨Eq.symm, Eq.symm⟩
  have hfailure : ((verifyBeaconRecord E pubkey record).map fun reason =>
      Failure.mk record.round reason).toList = [] ↔ verifyBeaconRecord E pubkey record = none := by
    cases verifyBeaconRecord E pubkey record <;> simp
  have hite : ∀ (test : Prop) [Decidable test] (f : Failure), (if test then [f] else []) = [] ↔ ¬ test := by
    intro test _ f
    by_cases h : test <;> simp [h]
  rw [recordFailures, append_eq_nil_iff, append_eq_nil_iff, hite, hite, hnext, hlink, hfailure]
  exact ⟨fun ⟨h₁, h₂, h₃⟩ => ⟨h₁, h₂, h₃⟩, fun ⟨h₁, h₂, h₃⟩ => ⟨h₁, h₂, h₃⟩⟩

/-- The lists that are accepted after `prev`. -/
inductive Chained (E : Ecvrf) (pubkey : Input) (genesisBeta : JsString) : Option Record → List Record → Prop
  | nil (prev : Option Record) : Chained E pubkey genesisBeta prev []
  | cons {prev : Option Record} {record : Record} {records : List Record}
      (head : Follows E pubkey genesisBeta prev record)
      (tail : Chained E pubkey genesisBeta (some record) records) :
      Chained E pubkey genesisBeta prev (record :: records)

theorem chainFailures_eq_nil :
    chainFailures E pubkey genesisBeta prev records = [] ↔ Chained E pubkey genesisBeta prev records := by
  induction records generalizing prev with
  | nil => exact ⟨fun _ => .nil prev, fun _ => rfl⟩
  | cons record records ih =>
    rw [chainFailures, append_eq_nil_iff, recordFailures_eq_nil, ih]
    constructor
    · rintro ⟨head, tail⟩
      exact .cons head tail
    · intro h
      cases h with
      | cons head tail => exact ⟨head, tail⟩

theorem acceptsChain_iff : AcceptsChain E pubkey domain records ↔ records ≠ [] ∧ ∃ genesisBeta,
      computeGenesisBeta E domain pubkey = .ok genesisBeta ∧ Chained E pubkey (toHex genesisBeta) none records := by
  unfold AcceptsChain verifyBeaconChain
  by_cases hnil : records = []
  · simp [hnil]
  · cases hgenesis : computeGenesisBeta E domain pubkey with
    | error message => simp [hnil, Except.map]
    | ok genesisBeta => simp [hnil, Except.map, ← chainFailures_eq_nil]

/-! ### Two chains -/

/-- What a record says, apart from its proof. -/
def core (record : Record) : Option ℕ × Option JsString × Option JsString × Option JsString :=
  (record.round, record.prevBeta, record.alpha, record.beta)

/-- Two records of one round that verify and link to the same output have the same output. -/
theorem core_eq_of_verifies {record' : Record} {key : Bytes} (hkey : asBytes pubkey = some key)
    (hunique : E.Unique key) (hround : record.round = record'.round)
    (hlink : record.prevBeta = record'.prevBeta) (h : verifyBeaconRecord E pubkey record = none)
    (h' : verifyBeaconRecord E pubkey record' = none) : core record = core record' := by
  obtain ⟨prevBeta, alpha, beta, h⟩ := verifyBeaconRecord_eq_none.mp h
  obtain ⟨prevBeta', alpha', beta', h'⟩ := verifyBeaconRecord_eq_none.mp h'
  -- the input is recomputed from the link and the round
  have hprev : prevBeta = prevBeta' := Except.ok.inj (by rw [← h.decoded, hlink, h'.decoded])
  subst hprev
  have halpha : alpha = alpha' := Except.ok.inj (by rw [← h.input, hround, h'.input])
  subst halpha
  obtain ⟨key₁, input, proof, hkey₁, hinput, hproof, hvalid⟩ := verify_eq_ok_true.mp h.proof
  obtain ⟨key₂, input', proof', hkey₂, hinput', hproof', hvalid'⟩ := verify_eq_ok_true.mp h'.proof
  obtain ⟨_, hdecoded, hhash⟩ := proofToHash_eq_ok.mp h.hash
  obtain ⟨_, hdecoded', hhash'⟩ := proofToHash_eq_ok.mp h'.hash
  rw [hkey] at hkey₁ hkey₂
  rw [hinput] at hinput'
  rw [hproof] at hdecoded
  rw [hproof'] at hdecoded'
  cases hkey₁
  cases hkey₂
  cases hinput'
  cases hdecoded
  cases hdecoded'
  have hbeta : beta = beta' :=
    some.inj (by rw [← hhash, ← hhash', hunique input proof proof' hvalid hvalid'])
  rw [core, core, hround, hlink, h.alphaText, h'.alphaText, h.betaText, h'.betaText, hbeta]

variable {xs : List Record}

/-- After records with the same round and output, the shorter list agrees with the longer one. -/
theorem core_eq_of_chained {key : Bytes} (hkey : asBytes pubkey = some key) (hunique : E.Unique key)
    {ys : List Record} : ∀ {p q : Record}, core p = core q →
      Chained E pubkey genesisBeta (some p) xs → Chained E pubkey genesisBeta (some q) ys →
      xs.length ≤ ys.length → xs.map core = (ys.take xs.length).map core := by
  induction xs generalizing ys with
  | nil => simp
  | cons x xs ih =>
    intro p q hcore hxs hys hlength
    cases ys with
    | nil => simp at hlength
    | cons y ys =>
      cases hxs with
      | cons hx hxs =>
        cases hys with
        | cons hy hys =>
          have hround : p.round = q.round := congrArg Prod.fst hcore
          have hbeta : p.beta = q.beta := congrArg (fun c => c.2.2.2) hcore
          obtain ⟨n, hp, hxround⟩ := hx.next p rfl
          obtain ⟨m, hq, hyround⟩ := hy.next q rfl
          have hnm : n = m := some.inj (by rw [← hp, hround, hq])
          have hhead : core x = core y := by
            refine core_eq_of_verifies hkey hunique ?_ ?_ hx.verifies hy.verifies
            · rw [hxround, hyround, hnm]
            · rw [hx.link p.beta rfl, hy.link q.beta rfl, hbeta]
          rw [map_cons, length_cons, take_succ_cons, map_cons, hhead,
            ih hhead hxs hys (by simpa using hlength)]

theorem core_eq_of_chain {ys : List Record} (hunique : ∀ key, asBytes pubkey = some key → E.Unique key)
    (hxs : AcceptsChain E pubkey domain xs) (hys : AcceptsChain E pubkey domain ys)
    (hxround : xs.head?.bind Record.round = some 1) (hyround : ys.head?.bind Record.round = some 1)
    (hlength : xs.length ≤ ys.length) : xs.map core = (ys.take xs.length).map core := by
  obtain ⟨hxnil, genesisBeta, hgenesis, hxchain⟩ := acceptsChain_iff.mp hxs
  obtain ⟨hynil, genesisBeta', hgenesis', hychain⟩ := acceptsChain_iff.mp hys
  rw [hgenesis] at hgenesis'
  cases hgenesis'
  cases hxchain with
  | nil => exact absurd rfl hxnil
  | @cons _ x xs hx hxtail =>
    cases hychain with
    | nil => exact absurd rfl hynil
    | @cons _ y ys hy hytail =>
      have hxone : x.round = some 1 := hxround
      have hyone : y.round = some 1 := hyround
      obtain ⟨_, _, _, hvalid⟩ := verifyBeaconRecord_eq_none.mp hx.verifies
      obtain ⟨key, _, _, hkey, -⟩ := verify_eq_ok_true.mp hvalid.proof
      have hhead : core x = core y := by
        refine core_eq_of_verifies hkey (hunique key hkey) (hxone.trans hyone.symm) ?_ hx.verifies hy.verifies
        rw [hx.link (some (toHex genesisBeta)) (by simp [linkOf, hxone]),
          hy.link (some (toHex genesisBeta)) (by simp [linkOf, hyone])]
      rw [map_cons, length_cons, take_succ_cons, map_cons, hhead,
        core_eq_of_chained hkey (hunique key hkey) hhead hxtail hytail (by simpa using hlength)]

/-! ### Slices of a chain -/

theorem chained_append {ys : List Record} : Chained E pubkey genesisBeta prev (xs ++ ys) ↔
      Chained E pubkey genesisBeta prev xs ∧ Chained E pubkey genesisBeta (xs.getLast?.or prev) ys := by
  induction xs generalizing prev with
  | nil => exact ⟨fun h => ⟨.nil prev, h⟩, fun h => h.2⟩
  | cons x xs ih =>
    have hlast : ((x :: xs).getLast?.or prev) = xs.getLast?.or (some x) := by
      cases h : xs.getLast? <;> simp [getLast?_cons, h]
    rw [hlast]
    constructor
    · intro h
      cases h with
      | cons head tail => exact ⟨.cons head (ih.mp tail).1, (ih.mp tail).2⟩
    · rintro ⟨hxs, hys⟩
      cases hxs with
      | cons head tail => exact .cons head (ih.mpr ⟨tail, hys⟩)

/-- A list that is accepted after a record is accepted by itself, unless it starts at round 1. -/
theorem Chained.forget (h : Chained E pubkey genesisBeta prev xs)
    (hround : xs.head?.bind Record.round ≠ some 1) : Chained E pubkey genesisBeta none xs := by
  cases h with
  | nil => exact .nil none
  | @cons _ x xs head tail =>
    refine .cons ⟨by simp, ?_, head.verifies⟩ tail
    have hx : x.round ≠ some 1 := hround
    simp [linkOf, hx]

theorem Chained.slice {ys : List Record} (h : Chained E pubkey genesisBeta none xs)
    (hrounds : xs.map Record.round = (List.range' 1 xs.length).map some) (hys : ys <:+: xs) :
    Chained E pubkey genesisBeta none ys := by
  obtain ⟨before, after, rfl⟩ := hys
  have hslice := (chained_append.mp (chained_append.mp h).1).2
  by_cases hbefore : before = []
  · rw [hbefore] at hslice
    exact hslice
  · refine hslice.forget ?_
    cases ys with
    | nil => simp
    | cons y ys =>
      -- the head stands after the first place of the list
      have hpositive := length_pos_iff.mpr hbefore
      have hplace : ((before ++ y :: ys ++ after).map Record.round)[before.length]? = some y.round := by
        simp
      rw [hrounds, getElem?_map, getElem?_range' (by simp)] at hplace
      have hy : y.round = some (1 + 1 * before.length) := (some.inj hplace).symm
      simp only [head?_cons, bind_some, hy]
      intro hone
      have := some.inj hone
      omega

end Chains

/-! ### Runs of the beacon -/

section Beacon

variable {E : Ecvrf}

theorem dropOld_spec (retain : ℕ) {xs : List Record} {byRound : OrderedMap (Option ℕ) Record}
    (hnodup : (xs.map Record.round).Nodup)
    (h : ∀ r, byRound.get? r = xs.find? (·.round = r)) :
    (dropOld retain xs byRound).1 = xs.drop (xs.length - retain) ∧
      ∀ r, (dropOld retain xs byRound).2.get? r = (xs.drop (xs.length - retain)).find? (·.round = r) := by
  induction xs generalizing byRound with
  | nil => exact ⟨by simp [dropOld], by simpa [dropOld] using h⟩
  | cons x xs ih =>
    rw [dropOld]
    by_cases hlong : (x :: xs).length > retain
    · have hdrop : (x :: xs).length - retain = xs.length - retain + 1 := by
        simp only [length_cons] at hlong ⊢
        omega
      rw [if_pos hlong, hdrop, drop_succ_cons]
      rw [map_cons, nodup_cons] at hnodup
      refine ih hnodup.2 fun r => ?_
      rw [OrderedMap.get?_delete]
      by_cases hr : r = x.round
      · rw [if_pos hr]
        refine (find?_eq_none.mpr fun y hy hround => hnodup.1 ?_).symm
        have hy' : y.round = x.round := by simpa [hr] using hround
        exact List.mem_map.mpr ⟨y, hy, hy'⟩
      · rw [if_neg hr, h, find?_cons_of_neg (by simpa using Ne.symm hr)]
    · have hdrop : (x :: xs).length - retain = 0 := by omega
      rw [if_neg hlong, hdrop, drop_zero]
      exact ⟨rfl, h⟩

/-- The ways to give the key of a beacon to the verifier. -/
def Names (key : Input) (pk : Bytes) : Prop := asBytes key = some pk ∧ asPubkeyBytes key = .ok pk

theorem names_bytes {pk : Bytes} (h : pk.length = 32) : Names (.bytes pk) pk :=
  ⟨rfl, if_pos h⟩

theorem names_toHex {pk : Bytes} (h : pk.length = 32) : Names (.str (toHex pk)) pk :=
  ⟨asBytes_toHex pk, by rw [asPubkeyBytes, parseBytes_toHex, if_pos h]⟩

/-- A beacon that has made the records of `all`. -/
structure Kept (E : Ecvrf) (all : List Record) (b : VrfBeacon) : Prop where
  round : b.round = all.length
  rounds : all.map Record.round = (List.range' 1 all.length).map some
  chained : ∀ key, Names key b.pubkeyBytes → Chained E key (toHex b.genesisBeta) none all
  link : (all.getLast?.map Record.beta).getD (some (toHex b.genesisBeta)) = some (toHex b.prevBeta)
  length_prevBeta : b.prevBeta.length = 64
  history : b.history = all.drop (all.length - b.retain)
  byRound : ∀ r, b.byRound.get? r = b.history.find? (·.round = r)

variable {all : List Record} {b : VrfBeacon}

theorem Kept.push {record : Record} {beta : Bytes} (h : Kept E all b)
    (hround : record.round = some (all.length + 1)) (hbeta : record.beta = some (toHex beta))
    (hlength : beta.length = 64)
    (hfollows : ∀ key, Names key b.pubkeyBytes → Follows E key (toHex b.genesisBeta) all.getLast? record) :
    Kept E (all ++ [record]) (b.push (all.length + 1) beta record) := by
  have hrounds : (all ++ [record]).map Record.round = (List.range' 1 (all ++ [record]).length).map some := by
    rw [map_append, h.rounds, length_append, length_singleton, range'_concat, map_append]
    simp [hround, Nat.add_comm]
  have hold : ∀ y ∈ b.history, y.round ≠ record.round := by
    intro y hy hyround
    have hmem : record.round ∈ all.map Record.round :=
      List.mem_map.mpr ⟨y, mem_of_mem_drop (h.history ▸ hy), hyround⟩
    rw [h.rounds, hround] at hmem
    simp at hmem
    omega
  have hnodup : ((b.history ++ [record]).map Record.round).Nodup := by
    have hall : ((all ++ [record]).map Record.round).Nodup := by
      rw [hrounds]
      exact List.Nodup.map (some_injective _) nodup_range'
    refine hall.sublist ?_
    rw [h.history]
    exact ((drop_sublist _ _).append_right _).map Record.round
  have hbyRound : ∀ r, (b.byRound.set (some (all.length + 1)) record).get? r =
      (b.history ++ [record]).find? (·.round = r) := by
    intro r
    rw [OrderedMap.get?_set, find?_append, h.byRound, ← hround]
    by_cases hr : r = record.round
    · have hnone : b.history.find? (·.round = r) = none :=
        find?_eq_none.mpr fun y hy hyround => hold y hy (by simpa [hr] using hyround)
      rw [if_pos hr, hnone]
      simp [hr]
    · have hnone : [record].find? (·.round = r) = none := by simp [Ne.symm hr]
      rw [if_neg hr, hnone, or_none]
  have hdrop : (b.history ++ [record]).drop ((b.history ++ [record]).length - b.retain) =
      (all ++ [record]).drop ((all ++ [record]).length - b.retain) := by
    rw [h.history, ← drop_append_of_le_length (by omega), drop_drop]
    congr 1
    simp only [length_append, length_drop, length_singleton]
    omega
  obtain ⟨hhistory, hmap⟩ := dropOld_spec b.retain hnodup hbyRound
  refine ⟨?_, hrounds, fun key hkey => ?_, ?_, hlength, ?_, fun r => ?_⟩
  · simp [VrfBeacon.push]
  · exact chained_append.mpr ⟨h.chained key hkey, by simpa using .cons (hfollows key hkey) (.nil _)⟩
  · simpa [VrfBeacon.push] using hbeta
  · exact hhistory.trans hdrop
  · exact (hmap r).trans (congrArg _ hhistory.symm)

/-- A round is made and kept. -/
theorem Kept.advance (h : Kept E all b)
    (hproves : E.Proves b.pubkeyBytes b.proveFn) (hfew : all.length < 2 ^ 53) (now : ℕ) :
    ∃ beta record, b.advance E now = .ok (b.push (all.length + 1) beta record) ∧
      Kept E (all ++ [record]) (b.push (all.length + 1) beta record) := by
  have hround : toDouble (b.round + 1) = all.length + 1 := by
    rw [h.round, toDouble_of_le (by omega)]
  obtain ⟨alpha, halpha⟩ : ∃ alpha, beaconAlpha b.prevBeta (some (all.length + 1)) = .ok alpha := by
    refine ⟨b.prevBeta ++ Bytes.ofNatLE 8 (all.length + 1), ?_⟩
    have hle8 : roundToLE8 (some (all.length + 1)) = .ok (Bytes.ofNatLE 8 (all.length + 1)) :=
      if_pos (by omega)
    rw [beaconAlpha, if_pos h.length_prevBeta, hle8]
    rfl
  obtain ⟨pi, hpi, hvalid⟩ := hproves alpha
  obtain ⟨beta, hbeta⟩ := isSome_iff_exists.mp (E.hash_of_verifies _ _ _ hvalid)
  have hhash : E.proofToHash (.bytes pi) = .ok beta := proofToHash_eq_ok.mpr ⟨pi, rfl, hbeta⟩
  set record := b.recordOf (all.length + 1) now alpha pi beta with hrecord
  refine ⟨beta, record, ?_, ?_⟩
  · simp only [VrfBeacon.advance, hround, halpha, hpi, hhash, demand, ok_bind]
    rfl
  refine h.push rfl rfl (E.length_hash pi beta hbeta) fun key hkey => ⟨?_, ?_, ?_⟩
  · intro p hp
    have hplace : (all.map Record.round).getLast? = some p.round := by
      rw [getLast?_map, show all.getLast? = some p from hp]
      rfl
    have hpositive : all.length ≠ 0 := by
      rintro hnil
      rw [length_eq_zero_iff.mp hnil] at hp
      simp at hp
    rw [h.rounds, getLast?_map, getLast?_range', if_neg hpositive] at hplace
    refine ⟨all.length, ?_, ?_⟩
    · rw [← some.inj hplace]
      congr 1
      omega
    · rw [toDouble_of_le (by omega)]
      rfl
  · intro link hlink
    have hprev := h.link
    cases hlast : all.getLast? with
    | none =>
      rw [hlast] at hlink hprev
      have hempty : all = [] := getLast?_eq_none_iff.mp hlast
      have hone : record.round = some 1 := by simp [hrecord, VrfBeacon.recordOf, hempty]
      rw [linkOf, if_pos hone] at hlink
      cases hlink
      exact hprev.symm
    | some p =>
      rw [hlast] at hlink hprev
      cases hlink
      exact hprev.symm
  · refine verifyBeaconRecord_eq_none.mpr ⟨b.prevBeta, alpha, beta, hexToBytes_toHex h.length_prevBeta,
      halpha, rfl, ?_, ?_, rfl⟩
    · exact verify_eq_ok_true.mpr ⟨_, alpha, pi, hkey.1, asBytes_toHex alpha, asBytes_toHex pi, hvalid⟩
    · exact proofToHash_eq_ok.mpr ⟨pi, asBytes_toHex pi, hbeta⟩

variable {times : List ℕ}

theorem Kept.advances (h : Kept E all b)
    (hproves : E.Proves b.pubkeyBytes b.proveFn) (hfew : all.length + times.length ≤ 2 ^ 53) :
    ∃ b' records, b.advances E times = .ok b' ∧ records.length = times.length ∧ Kept E (all ++ records) b' ∧
      b'.pubkeyBytes = b.pubkeyBytes ∧ b'.retain = b.retain ∧ b'.genesisBeta = b.genesisBeta := by
  induction times generalizing b all with
  | nil => exact ⟨b, [], rfl, rfl, by simpa using h, rfl, rfl, rfl⟩
  | cons now times ih =>
    rw [length_cons] at hfew
    obtain ⟨beta, record, hstep, hkept⟩ := h.advance hproves (by omega) now
    obtain ⟨b', records, hrun, hlength, hkept', hkey, hretain, hgenesis⟩ := ih hkept hproves (by
      rw [length_append, length_singleton]
      omega)
    refine ⟨b', record :: records, ?_, by simp [hlength], by simpa using hkept', hkey, hretain, hgenesis⟩
    rw [VrfBeacon.advances, hstep, ok_bind, hrun]

variable {pubkey : Input}

theorem length_of_asPubkeyBytes {bytes : Bytes} (h : asPubkeyBytes pubkey = .ok bytes) : bytes.length = 32 := by
  cases pubkey with
  | bytes b | str s =>
    simp only [asPubkeyBytes] at h
    split at h
    · cases h
      assumption
    · cases h
  | array b | other => cases h

theorem kept_create {proveFn : Bytes → Option Bytes} {domain : JsString} {retain : ℤ}
    (h : VrfBeacon.create E proveFn pubkey domain retain = .ok b) :
    Kept E [] b ∧ b.proveFn = proveFn ∧ b.pubkeyBytes.length = 32 ∧ b.pubkey = toHex b.pubkeyBytes ∧
      b.domain = domain ∧ b.retain = (max 1 (toInt32 retain)).toNat ∧
      b.genesisBeta = E.sha512 (JsString.utf8 domain ++ b.pubkeyBytes) := by
  simp only [VrfBeacon.create, guards_eq_ok] at h
  obtain ⟨bytes, hbytes, genesisBeta, hgenesis, rfl⟩ := h
  have hlength := length_of_asPubkeyBytes hbytes
  have hgenesis' : genesisBeta = E.sha512 (JsString.utf8 domain ++ bytes) := by
    rw [computeGenesisBeta, (names_bytes hlength).2] at hgenesis
    exact (Except.ok.inj hgenesis).symm
  refine ⟨⟨rfl, rfl, fun _ _ => .nil none, rfl, ?_, by simp, fun r => by simp⟩, rfl, hlength, rfl, rfl,
    rfl, hgenesis'⟩
  rw [hgenesis']
  exact E.length_sha512 _

/-- After `n` rounds a beacon keeps the latest of them, and every slice of what it keeps is accepted. -/
theorem advances_spec {proveFn : Bytes → Option Bytes} {domain : JsString} {retain : ℤ}
    (hcreate : VrfBeacon.create E proveFn pubkey domain retain = .ok b)
    (hproves : E.Proves b.pubkeyBytes proveFn) (hfew : times.length ≤ 2 ^ 53) :
    ∃ b', b.advances E times = .ok b' ∧ b'.round = times.length ∧
      (∃ kept, kept = min times.length (max 1 (toInt32 retain)).toNat ∧
        b'.history.map Record.round = (List.range' (times.length - kept + 1) kept).map some) ∧
      (∀ r, b'.atRound r = b'.history.find? (·.round = some r)) ∧
      ∀ slice, slice <:+: b'.history → slice ≠ [] → ∀ key ∈ [Input.bytes b.pubkeyBytes, .str b.pubkey],
        AcceptsChain E key domain slice := by
  obtain ⟨hkept, rfl, hlength, hpubkey, hdomain, hretain, hgenesis⟩ := kept_create hcreate
  obtain ⟨b', records, hrun, hrecords, hkept', hkey, hretain', hgenesis'⟩ :=
    hkept.advances hproves (by simpa using hfew)
  rw [nil_append] at hkept'
  refine ⟨b', hrun, hkept'.round.trans hrecords, ⟨_, rfl, ?_⟩, fun r => hkept'.byRound _, ?_⟩
  · rw [hkept'.history, map_drop, hkept'.rounds, hrecords, hretain', hretain, ← map_drop, drop_range']
    have hstart : 1 + (times.length - (max 1 (toInt32 retain)).toNat) =
        times.length - min times.length (max 1 (toInt32 retain)).toNat + 1 := by omega
    have hcount : times.length - (times.length - (max 1 (toInt32 retain)).toNat) =
        min times.length (max 1 (toInt32 retain)).toNat := by omega
    simp only [mul_one, hstart, hcount]
  · intro slice hslice hnil key hmem
    have hnames : Names key b.pubkeyBytes := by
      simp only [mem_cons, not_mem_nil, or_false] at hmem
      rcases hmem with rfl | rfl
      · exact names_bytes hlength
      · rw [hpubkey]
        exact names_toHex hlength
    have hinfix : slice <:+: records := by
      rw [hkept'.history] at hslice
      exact hslice.trans (drop_suffix _ _).isInfix
    refine acceptsChain_iff.mpr ⟨hnil, b'.genesisBeta, ?_, ?_⟩
    · rw [computeGenesisBeta, hnames.2, hgenesis', hgenesis]
      rfl
    · exact (hkept'.chained key (hkey ▸ hnames)).slice hkept'.rounds hinfix

/-- What a beacon makes is accepted, and nothing else is: a beacon keeps its latest rounds, every slice of
them is accepted, and two accepted lists that start at round 1 agree as far as the shorter one goes. -/
theorem beacon_verifiable_unforkable (E : Ecvrf) :
    (∀ (proveFn : Bytes → Option Bytes) (pubkey : Input) (domain : JsString) (retain : ℤ) (b : VrfBeacon)
      (times : List ℕ), VrfBeacon.create E proveFn pubkey domain retain = .ok b →
      E.Proves b.pubkeyBytes proveFn → times.length ≤ 2 ^ 53 →
      ∃ b', b.advances E times = .ok b' ∧ b'.round = times.length ∧
        (∃ kept, kept = min times.length (max 1 (toInt32 retain)).toNat ∧
          b'.history.map Record.round = (List.range' (times.length - kept + 1) kept).map some) ∧
        (∀ r, b'.atRound r = b'.history.find? (·.round = some r)) ∧
        ∀ slice, slice <:+: b'.history → slice ≠ [] → ∀ key ∈ [Input.bytes b.pubkeyBytes, .str b.pubkey],
          AcceptsChain E key domain slice) ∧
    ∀ (pubkey : Input) (domain : JsString) (xs ys : List Record),
      (∀ key, asBytes pubkey = some key → E.Unique key) → AcceptsChain E pubkey domain xs →
      AcceptsChain E pubkey domain ys → xs.head?.bind Record.round = some 1 →
      ys.head?.bind Record.round = some 1 → xs.length ≤ ys.length →
      xs.map core = (ys.take xs.length).map core :=
  ⟨fun _ _ _ _ _ _ hcreate hproves hfew => advances_spec hcreate hproves hfew,
    fun _ _ _ _ hunique hxs hys hxround hyround hlength =>
      core_eq_of_chain hunique hxs hys hxround hyround hlength⟩

end Beacon

/-! ### A beacon of two rounds -/

section Sample

open JsString (ofText)

def sampleKey : Bytes :=
  fromHex (ofText ("d75a980182b10ab7d54bfed3c964073a0ee172f3daa62325af021a68f707511a"))

/-- The hash of the domain and the key. -/
def sampleGenesis : Bytes :=
  fromHex (ofText ("58d3c2c5ce14f027c6db8636c5f1fbb962d411585dd66cd6dc3ba4ab4dd595ab85b552d8b8064fb0" ++
    "b374f88b42699faccbf673b437b64fb7c883c881bb1328f2"))

/-- The proof and the output of round 1. -/
def sampleFirst : Bytes × Bytes :=
  (fromHex (ofText ("6b8b2eec85d61138f4babeee3d86d27fd682797d0388ef3957b72ef0f5e417291ec9bc1b5e813707" ++
    "e2f62ba2d2ffe020ad8d7727c09b8c9ed87479a5376d4afa2b644d16848c7b5e5f3b34d03ec9450e")),
  fromHex (ofText ("15c490cd84d22240cc5afbc5fdad8e04df60ec3b5a320feda359d113c0f520f09a9a7161de2f41e0" ++
    "2890f5d3cf6d160f09e0e1f81cb4e2bfd5c857854c7787ab")))

/-- The proof and the output of round 2. -/
def sampleSecond : Bytes × Bytes :=
  (fromHex (ofText ("e2c8765416e169ebd4ba0abb9a54261ddb52c227c553815908acbc6a0abc32900837b77989248442" ++
    "d0217e0cee28add6be8cc09dd03980756534eb6036f811da26642591e0498c9099ddff67f5461e0c")),
  fromHex (ofText ("9306659d37ebe334d91bb57d1c319d5b99d05dab90fffcd6a32f58cddcc0f8a894b8e4ae88fc76dd" ++
    "88caa9f31b92d42f60f9c00accbd6251ab031edb95a44504")))

/-- The proofs of the key's prover for the two rounds. -/
def sampleProve (alpha : Bytes) : Bytes :=
  if alpha = sampleGenesis ++ Bytes.ofNatLE 8 1 then sampleFirst.1
  else if alpha = sampleFirst.2 ++ Bytes.ofNatLE 8 2 then sampleSecond.1
  else []

/-- The curve, as far as the two rounds need it. -/
def sampleEcvrf : Ecvrf where
  sha512 b := if b = Bytes.ofAscii "hiverelay/vrf-beacon/v1" ++ sampleKey then sampleGenesis
    else List.replicate 64 0
  verifies _ alpha pi := pi = sampleProve alpha
  hash pi := some (if pi = sampleFirst.1 then sampleFirst.2
    else if pi = sampleSecond.1 then sampleSecond.2 else List.replicate 64 0)
  length_sha512 b := by
    split
    · decide +kernel
    · rfl
  length_hash pi beta h := by
    rw [← some.inj h]
    split
    · decide +kernel
    · split
      · decide +kernel
      · rfl
  hash_of_verifies _ _ _ _ := rfl

def sampleBeacon (retain : ℤ) : Except String VrfBeacon :=
  VrfBeacon.create sampleEcvrf (fun alpha => some (sampleProve alpha)) (.bytes sampleKey)
    (ofText "hiverelay/vrf-beacon/v1") retain

def sampleHistory (retain : ℤ) (times : List ℕ) : Except String (List Record) :=
  (sampleBeacon retain >>= fun b => b.advances sampleEcvrf times).map VrfBeacon.history

theorem sample_proves {b : VrfBeacon} : sampleEcvrf.Proves b.pubkeyBytes fun alpha => some (sampleProve alpha) := by
  intro alpha
  exact ⟨sampleProve alpha, rfl, by simp [sampleEcvrf]⟩

theorem sample_unique (key : Bytes) : sampleEcvrf.Unique key := by
  intro alpha pi pi' h h'
  have hpi : pi = sampleProve alpha := by simpa [sampleEcvrf] using h
  have hpi' : pi' = sampleProve alpha := by simpa [sampleEcvrf] using h'
  rw [hpi, hpi']

/-- A run of two rounds of which one is kept, and the records of two runs from round 1. -/
theorem sample_verifiable_unforkable :
    (∃ b b', sampleBeacon 1 = .ok b ∧ b.advances sampleEcvrf [0, 0] = .ok b' ∧ b'.round = 2 ∧
      b'.history.map Record.round = [some 2] ∧
      ∀ slice, slice <:+: b'.history → slice ≠ [] →
        AcceptsChain sampleEcvrf (.str b.pubkey) (ofText "hiverelay/vrf-beacon/v1") slice) ∧
    ∃ xs ys, sampleHistory 4 [0] = .ok xs ∧ sampleHistory 4 [7, 8] = .ok ys ∧ xs.length = 1 ∧
      ys.length = 2 ∧ xs ≠ ys.take 1 ∧ xs.map core = (ys.take 1).map core := by
  obtain ⟨hmade, hagree⟩ := beacon_verifiable_unforkable sampleEcvrf
  constructor
  · obtain ⟨b, hb, -⟩ := exists_ok (sampleBeacon 1) (fun _ => True) (by decide +kernel)
    obtain ⟨b', hrun, hround, ⟨kept, hkept, hhistory⟩, -, hslices⟩ :=
      hmade _ _ _ _ b [0, 0] hb sample_proves (by decide)
    have hone : kept = 1 := by
      rw [hkept]
      decide
    rw [hone] at hhistory
    exact ⟨b, b', hb, hrun, hround, hhistory, fun slice hslice hnil =>
      hslices slice hslice hnil _ (by simp)⟩
  · obtain ⟨b, hb, -⟩ := exists_ok (sampleBeacon 4) (fun _ => True) (by decide +kernel)
    obtain ⟨bx, hxrun, -, -, -, hxslices⟩ := hmade _ _ _ _ b [0] hb sample_proves (by decide)
    obtain ⟨by', hyrun, -, -, -, hyslices⟩ := hmade _ _ _ _ b [7, 8] hb sample_proves (by decide)
    have hxs : sampleHistory 4 [0] = .ok bx.history := by
      rw [sampleHistory, hb, ok_bind, hxrun]
      rfl
    have hys : sampleHistory 4 [7, 8] = .ok by'.history := by
      rw [sampleHistory, hb, ok_bind, hyrun]
      rfl
    obtain ⟨xs, hxs', hxtimes, hxround⟩ := exists_ok (sampleHistory 4 [0])
      (fun xs => xs.map Record.timestamp = [0] ∧ xs.head?.bind Record.round = some 1) (by decide +kernel)
    obtain ⟨ys, hys', hytimes, hyround⟩ := exists_ok (sampleHistory 4 [7, 8])
      (fun ys => ys.map Record.timestamp = [7, 8] ∧ ys.head?.bind Record.round = some 1) (by decide +kernel)
    obtain rfl := Except.ok.inj (hxs.symm.trans hxs')
    obtain rfl := Except.ok.inj (hys.symm.trans hys')
    have hxlength : bx.history.length = 1 := by simpa using congrArg List.length hxtimes
    have hylength : by'.history.length = 2 := by simpa using congrArg List.length hytimes
    have hcore := hagree (.bytes b.pubkeyBytes) (ofText "hiverelay/vrf-beacon/v1") bx.history by'.history
      (fun key _ => sample_unique key)
      (hxslices _ infix_rfl (ne_nil_of_length_pos (by omega)) _ (by simp))
      (hyslices _ infix_rfl (ne_nil_of_length_pos (by omega)) _ (by simp)) hxround hyround (by omega)
    refine ⟨_, _, hxs, hys, hxlength, hylength, fun heq => ?_, by simpa [hxlength] using hcore⟩
    rw [heq, map_take, hytimes] at hxtimes
    exact absurd hxtimes (by decide)

/-- A beacon that is set up to keep no round keeps one, and the empty list is not accepted. And a beacon at
round 2^53 stays at this round, since the next number is not a double. -/
theorem retain_zero_keeps_round :
    (∃ b', (sampleBeacon 0 >>= fun b => b.advances sampleEcvrf [0]) = .ok b' ∧ b'.round = 1 ∧
      b'.history.length = 1 ∧ b'.history.length ≠ min b'.round 0) ∧
    ¬ AcceptsChain sampleEcvrf (.bytes sampleKey) (ofText "hiverelay/vrf-beacon/v1") [] ∧
    ∀ (b b' : VrfBeacon) now, b.round = 2 ^ 53 → b.advance sampleEcvrf now = .ok b' → b'.round = 2 ^ 53 := by
  refine ⟨?_, ?_, fun b b' now hround hadvance => ?_⟩
  · exact exists_ok (sampleBeacon 0 >>= fun b => b.advances sampleEcvrf [0])
      (fun b' => b'.round = 1 ∧ b'.history.length = 1 ∧ b'.history.length ≠ min b'.round 0) (by decide +kernel)
  · rintro ⟨result, h, hvalid⟩
    cases h
    cases hvalid
  · simp only [VrfBeacon.advance, guards_eq_ok, hround] at hadvance
    obtain ⟨_, -, _, -, _, -, rfl⟩ := hadvance
    exact (by decide : toDouble (2 ^ 53 + 1) = 2 ^ 53)

end Sample

end HiveRelay.Vrf
