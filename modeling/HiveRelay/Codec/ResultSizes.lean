import HiveRelay.Cell.State
import HiveRelay.Codec.Laws
import HiveRelay.Core.Apply

/-!
# Charged sizes

A charged read pays for the size of its result before the result is there: `Cell.chargedBatchResultBytes` and
`Core.coreProofResultByteLength` add up what `encodeCanonical` will ask for. The result of a batch is there as
long as its cells have less than four mebibytes together. The result of a proof has the cap of four mebibytes
too, and the acknowledgement is part of it: so the longest proofs that `boundedBytes` takes have no result,
though their size is predicted.

## Main definitions

* `batchGetResult` and `proofResult` encode a result as the source does.
* `resultBand` is the band of `operation-catalog.js`; `Cell.chargedResultBand` and `Core.resultBand` are those
  of the engines.

## Main results

* `Sized`: what passes `preencode` is written in as many bytes; `AtMost` bounds what an encoding asks for.
* `batchGetResult_iff` and `proofResult_iff`: when the result is there, of the predicted size and band.
* `charged_sizes`: both; `proof_unservable` is a proof within its bound without a result.

The validators of the bindings, of the witnesses and of the acknowledgements are left open, since no size
depends on them.
-/

namespace HiveRelay.Codec

open List HiveRelay.Except

/-! ### The schemas -/

def bytesOf (length : ℕ) : Shape := .plain (fixedBytes length ("bytes[" ++ toString length ++ "]")) false

def version1 : Shape := (Shape.plain u8 true).constant (.number 1) "version"

/-- `ranged(u8, minimum, maximum, name)`. -/
def rangedU8 (minimum maximum : ℤ) (name : String) : Shape := (Shape.plain u8 true).ranged minimum maximum name

def blindExternalCommitWitnessV1 (validate : Value → Except String Unit) : Shape :=
  .struct [("version", rangedU8 1 1 "version"), ("relayPublicKey", bytesOf 32), ("storeId", bytesOf 32),
    ("externalJournalId", bytesOf 32), ("durabilityContinuityHash", bytesOf 32),
    ("durabilityProfileHash", bytesOf 32), ("restoreEvidenceHeadSequence", .u64be),
    ("restoreEvidenceHeadHash", bytesOf 32), ("familyId", rangedU8 1 5 "familyId"),
    ("operationId", rangedU8 1 255 "operationId"), ("requestCommitment", bytesOf 32),
    ("resultCommitment", bytesOf 32), ("commitWalSequence", .u64be), ("commitWalHash", bytesOf 32),
    ("coveringFloorRevision", .u64be), ("coveringFloorHash", bytesOf 32), ("coveringFloorWalSequence", .u64be),
    ("coveringFloorWalHash", bytesOf 32), ("writerEpoch", .u64be), ("writerFenceTokenHash", bytesOf 32),
    ("externalLeaseRevision", .u64be), ("witnessedUnixMillis", .u64be), ("witnessPublicKey", bytesOf 32),
    ("signature", bytesOf 64)] validate "BlindExternalCommitWitnessV1"

def relayResultBindingV1 (validate validateWitness : Value → Except String Unit) : Shape :=
  .struct [("version", rangedU8 1 1 "version"), ("relayPublicKey", bytesOf 32), ("storeId", bytesOf 32),
    ("descriptorSequence", .u64be), ("descriptorHash", bytesOf 32),
    ("durabilityProfileId", rangedU8 1 2 "durabilityProfileId"), ("durabilityContinuityHash", bytesOf 32),
    ("durabilityProfileHash", bytesOf 32), ("restoreEvidenceHeadSequence", .u64be),
    ("restoreEvidenceHeadHash", bytesOf 32),
    ("externalCommitWitness", (blindExternalCommitWitnessV1 validateWitness).optional "externalCommitWitness")]
    validate "RelayResultBindingV1"

def blindCoreAckV1 (relayBinding : Shape) (validate : Value → Except String Unit) : Shape :=
  .struct [("version", version1), ("relayBinding", relayBinding), ("corePublicKey", bytesOf 32), ("fork", .u64be),
    ("length", .u64be), ("signedHeadHash", bytesOf 32), ("observedAtEpoch", .plain u32be true),
    ("leaseEpoch", .plain u32be true), ("result", rangedU8 1 2 "core ack result"), ("requestNonce", bytesOf 32),
    ("requestCommitment", bytesOf 32), ("signature", bytesOf 64)] validate "BlindCoreAckV1"

def batchGetFoundV1 : Encoding :=
  struct [("sizeClass", (rangedU8 1 5 "sizeClass").encoding), ("cellBlob", exactBytesByClass "sizeClass"
    [(1, Cell.cellSizeClass 1), (2, Cell.cellSizeClass 2), (3, Cell.cellSizeClass 3), (4, Cell.cellSizeClass 4),
      (5, Cell.cellSizeClass 5)] "cellBlob")] (fun _ => pure ()) "BatchGetEntryV1.found"

/-- `value.status === n`. -/
def statusIs (value : Value) (n : ℤ) : Bool := (Scalar.number n).strictEquals (value.property "status")

def batchGetEntryV1 : Encoding where
  preencode value _ := do
    require (value.isObject = true) "BatchGetEntryV1 must be an object"
    let n ← u8.preencode (value.property "status") .undefined
    if statusIs value 0 then pure n
    else do
      require (statusIs value 1 = true) "BatchGetEntryV1 status must be 0 or 1"
      let m ← batchGetFoundV1.preencode value .undefined
      pure (n + m)
  encode value _ w := do
    require (value.isObject = true) "BatchGetEntryV1 must be an object"
    let w ← u8.encode (value.property "status") .undefined w
    if statusIs value 0 then pure w
    else do
      require (statusIs value 1 = true) "BatchGetEntryV1 status must be 0 or 1"
      batchGetFoundV1.encode value .undefined w
  decode _ input := do
    let (status, rest) ← u8.decode .undefined input
    if (Scalar.number 0).strictEquals status then pure (.object [("status", status)], rest)
    else do
      require ((Scalar.number 1).strictEquals status = true) "BatchGetEntryV1 status must be 0 or 1"
      let (found, rest) ← batchGetFoundV1.decode .undefined rest
      pure (.object [("status", status), ("sizeClass", found.property "sizeClass"),
        ("cellBlob", found.property "cellBlob")], rest)

def batchGetEntriesV1 : Encoding := arrayOf batchGetEntryV1 1 64 "batch entries"

def batchGetResultV1 (relayBinding : Encoding) (blake2b256 : Bytes → Bytes) : Encoding :=
  struct [("version", version1.encoding), ("relayBinding", relayBinding), ("requestNonce", (bytesOf 32).encoding),
    ("requestCommitment", (bytesOf 32).encoding), ("entries", batchGetEntriesV1),
    ("entriesCommitment", (bytesOf 32).encoding), ("signature", (bytesOf 64).encoding)]
    (fun value => do
      let entriesBytes ← encodeCanonical batchGetEntriesV1 (value.property "entries")
      let commitment ← asBuffer (value.property "entriesCommitment") "entriesCommitment"
      require (blake2b256 entriesBytes = commitment) "batch entriesCommitment does not match entries"
      require (¬ 193 + entriesBytes.length > 4 * Core.mebibyte) "batch result exceeds its operation cap")
    "BatchGetResultV1"

def batchGetEntriesCommitment (blake2b256 : Bytes → Bytes) (entries : Value) : Except String Bytes := do
  let entriesBytes ← encodeCanonical batchGetEntriesV1 entries
  pure (blake2b256 entriesBytes)

/-- The result of a batch, with its signature. -/
def batchGetResult (relayBinding : Encoding) (blake2b256 : Bytes → Bytes) (binding : Value)
    (requestNonce requestCommitment signature : Bytes) (entries : List Value) : Except String Bytes := do
  let entriesCommitment ← batchGetEntriesCommitment blake2b256 (.array entries)
  encodeCanonical (batchGetResultV1 relayBinding blake2b256) (.object [("version", .number 1),
    ("relayBinding", binding), ("requestNonce", .bytes requestNonce), ("requestCommitment", .bytes requestCommitment),
    ("entries", .array entries), ("entriesCommitment", .bytes entriesCommitment), ("signature", .bytes signature)])

def cappedEncoding (encoding : Encoding) (maximum : ℕ) (name : String) : Encoding where
  preencode value parent := do
    let n ← encoding.preencode value parent
    require (¬ n > maximum) (name ++ " exceeds " ++ toString maximum ++ " bytes")
    pure n
  encode := encoding.encode
  decode parent input := do
    let (value, rest) ← encoding.decode parent input
    require (¬ input.length - rest.length > maximum) (name ++ " exceeds " ++ toString maximum ++ " bytes")
    pure (value, rest)

def coreServeResultV1 (blindCoreAckV1 : Encoding) : Encoding :=
  cappedEncoding (struct [("version", version1.encoding), ("acknowledgement", blindCoreAckV1),
    ("proofsAndBlocks", boundedBytes 1 (4 * Core.mebibyte - 256) "proofsAndBlocks")]
    (fun value => require ((Scalar.number 2).strictEquals ((value.property "acknowledgement").property "result") = true)
      "core serve acknowledgement result must be RECENTLY_SERVED") "CoreServeResultV1")
    (4 * Core.mebibyte) "CoreServeResultV1"

/-- `proofResult`. -/
def proofResult (blindCoreAckV1 : Encoding) (acknowledgementBytes proofsAndBlocks : Bytes) : Except String Bytes := do
  let acknowledgement ← decodeCanonical blindCoreAckV1 acknowledgementBytes
  encodeCanonical (coreServeResultV1 blindCoreAckV1) (.object [("version", .number 1),
    ("acknowledgement", acknowledgement), ("proofsAndBlocks", .bytes proofsAndBlocks)])

/-! ### The charges -/

variable {B : Type}

/-- What the adapter inspects of a cell. -/
structure InspectedCell where
  publiclyVisible : Bool
  sizeClass : ℕ

/-- `chargedBatchResultBytes` of the adapter. -/
def inspectedBatchResultBytes (bindingBytes : Bytes) (states : List (Option InspectedCell)) : ℕ :=
  162 + bindingBytes.length + (states.map fun state => match state with
    | some cell => if cell.publiclyVisible then 2 + Cell.cellSizeClass cell.sizeClass else 1
    | none => 1).sum

/-- The pin of a cell that is inspected. -/
def Pins (state : Option InspectedCell) (entry : Cell.PinEntry B) : Prop :=
  (entry.present = true ↔ ∃ cell, state = some cell ∧ cell.publiclyVisible = true) ∧
    ∀ cell, state = some cell → entry.present = true → entry.sizeClass = cell.sizeClass

/-- The entry of a result that is built from a pin and the blob of its cell. -/
def entryValue (entry : Cell.PinEntry B) (cellBlob : Bytes) : Value :=
  if entry.present then .object [("status", .number 1), ("sizeClass", .number entry.sizeClass),
    ("cellBlob", .bytes cellBlob)] else .object [("status", .number 0)]

/-- A present entry has the blob of its class. -/
def Fits (entry : Cell.PinEntry B) (cellBlob : Bytes) : Prop :=
  entry.present = true → entry.sizeClass ∈ [1, 2, 3, 4, 5] ∧ cellBlob.length = Cell.cellSizeClass entry.sizeClass

/-- The bytes of the cell of an entry. -/
def cellBytes (entry : Cell.PinEntry B) : ℕ := if entry.present then Cell.cellSizeClass entry.sizeClass else 0

/-- `resultBand` of the operation catalogue. -/
def resultBand (bytes maximum : ℕ) (field : String) : Except Cell.Failure ℕ := do
  require (1 ≤ bytes ∧ bytes ≤ maximum) (Cell.failure .spendInvalid (field ++ " is outside the operation result cap"))
  if bytes ≤ 4 * 1024 then pure 1
  else if bytes ≤ 16 * 1024 then pure 2
  else if bytes ≤ 64 * 1024 then pure 3
  else if bytes ≤ 256 * 1024 then pure 4
  else if bytes ≤ Core.mebibyte then pure 5
  else if bytes ≤ 4 * Core.mebibyte then pure 6
  else .error (Cell.failure .spendInvalid (field ++ " exceeds the largest admission band"))

/-- `maxResultBodyBytes` of the profiles of `BATCH_GET` and of `PROVE`. -/
def maxResultBodyBytes : ℕ := 4194304

/-! ### What is asked for is written -/

/-- What passes `preencode` is written in as many bytes. -/
def Sized (e : Encoding) : Prop := ∀ ⦃v p n⦄, e.preencode v p = .ok n → ∃ b, Writes e v p b

section Sized

variable {e : Encoding} {v p : Value} {n : ℕ} {b : Bytes}

theorem Shape.Lawful.sized {s : Shape} (hs : s.Lawful) : Sized s.encoding := fun _ _ _ h =>
  (hs.encodes h).imp fun _ hb => hb.1

theorem Sized.preencode (hs : Sized e) (h : encodeCanonical e v = .ok b) : e.preencode v .undefined = .ok b.length := by
  cases hsize : e.preencode v .undefined with
  | error error =>
    rw [encodeCanonical, hsize] at h
    cases h
  | ok size =>
    obtain ⟨c, hc⟩ := hs hsize
    obtain rfl := Except.ok.inj (hc.encodeCanonical.symm.trans h)
    exact hsize.symm.trans hc.1

theorem sized_fields {fields : List (String × Encoding)} (hs : ∀ field ∈ fields, Sized field.2)
    (h : preencodeFields v fields = .ok n) : ∃ b : Bytes, b.length = n ∧
      ∀ w : Writer, w.written.length + b.length ≤ w.size → encodeFields v fields w = .ok (w.put b) := by
  induction fields generalizing n with
  | nil =>
    obtain rfl : 0 = n := pure_eq_ok_iff.mp h
    exact ⟨[], rfl, fun w _ => by simp [encodeFields, Writer.put, pure, Except.pure]⟩
  | cons field fields ih =>
    rw [forall_mem_cons] at hs
    simp only [preencodeFields, guards_eq_ok] at h
    obtain ⟨k, hk, m, hm, rfl⟩ := h
    obtain ⟨b, hb⟩ := hs.1 hk
    obtain ⟨c, rfl, hc⟩ := ih hs.2 hm
    have hlength : b.length = k := Except.ok.inj (hb.1.symm.trans hk)
    refine ⟨b ++ c, by rw [length_append, hlength], fun w hw => ?_⟩
    rw [length_append] at hw
    rw [encodeFields, hb.2 w (by omega), ok_bind, hc _ (by simp only [Writer.put, length_append]; omega),
      Writer.put_put]

theorem Sized.struct {fields : List (String × Encoding)} (hs : ∀ field ∈ fields, Sized field.2)
    (validate : Value → Except String Unit) (name : String) : Sized (struct fields validate name) := by
  intro v p n h
  simp only [Codec.struct, guards_eq_ok] at h
  obtain ⟨hobject, m, hm, ⟨⟩, hvalid, rfl⟩ := h
  obtain ⟨b, rfl, hb⟩ := sized_fields hs hm
  refine ⟨b, ?_, fun w hw => ?_⟩
  · simp only [Codec.struct, require_of hobject, hm, hvalid, ok_bind]
    rfl
  · simp only [Codec.struct, require_of hobject, ok_bind]
    exact hb w hw

theorem Sized.arrayOf (hs : Sized e) (minimum maximum : ℕ) (name : String) :
    Sized (arrayOf e minimum maximum name) := by
  have helements : ∀ {values n}, preencodeAll e values = .ok n → ∃ b : Bytes, b.length = n ∧
      ∀ w : Writer, w.written.length + b.length ≤ w.size → encodeAll e values w = .ok (w.put b) := by
    intro values
    induction values with
    | nil =>
      intro n h
      obtain rfl : 0 = n := pure_eq_ok_iff.mp h
      exact ⟨[], rfl, fun w _ => by simp [encodeAll, Writer.put, pure, Except.pure]⟩
    | cons value values ih =>
      intro n h
      simp only [preencodeAll, guards_eq_ok] at h
      obtain ⟨k, hk, m, hm, rfl⟩ := h
      obtain ⟨b, hb⟩ := hs hk
      obtain ⟨c, rfl, hc⟩ := ih hm
      have hlength : b.length = k := Except.ok.inj (hb.1.symm.trans hk)
      refine ⟨b ++ c, by rw [length_append, hlength], fun w hw => ?_⟩
      rw [length_append] at hw
      rw [encodeAll, hb.2 w (by omega), ok_bind, hc _ (by simp only [Writer.put, length_append]; omega),
        Writer.put_put]
  intro v p n h
  simp only [Codec.arrayOf, guards_eq_ok] at h
  obtain ⟨values, hvalues, k, hk, m, hm, rfl⟩ := h
  obtain ⟨b, hb⟩ : ∃ b, Writes compactUint _ .undefined b := lawful_compactUint.sized hk
  obtain ⟨c, rfl, hc⟩ := helements hm
  have hlength : b.length = k := Except.ok.inj (hb.1.symm.trans hk)
  refine ⟨b ++ c, ?_, fun w hw => ?_⟩
  · simp only [Codec.arrayOf, hvalues, ok_bind, hk, hm, length_append, hlength]
    rfl
  · rw [length_append] at hw
    simp only [Codec.arrayOf, hvalues, ok_bind]
    rw [hb.2 w (by omega), ok_bind, hc _ (by simp only [Writer.put, length_append]; omega),
      Writer.put_put]

theorem sized_batchGetEntryV1 : Sized batchGetEntryV1 := by
  have hfound : Sized batchGetFoundV1 := Sized.struct (by
    simp only [forall_mem_cons]
    exact ⟨(Built.ranged 1 5 _ .u8 rfl).lawful.sized, (Built.exactBytesByClass _ _ _).lawful.sized, nofun⟩) _ _
  intro v p n h
  simp only [batchGetEntryV1, guards_eq_ok] at h
  obtain ⟨hobject, k, hk, h⟩ := h
  obtain ⟨b, hb⟩ : ∃ b, Writes u8 _ .undefined b := Built.u8.lawful.sized hk
  have hlength : b.length = k := Except.ok.inj (hb.1.symm.trans hk)
  split at h
  · next hzero =>
    cases h
    refine ⟨b, ?_, fun w hw => ?_⟩
    · simp only [batchGetEntryV1, require_of hobject, hk, ok_bind, if_pos hzero, hlength]
      rfl
    · simp only [batchGetEntryV1, require_of hobject, ok_bind, if_pos hzero]
      rw [hb.2 w hw]
      rfl
  · next hzero =>
    simp only [guards_eq_ok] at h
    obtain ⟨hone, m, hm, rfl⟩ := h
    obtain ⟨c, hc⟩ := hfound hm
    have hlength' : c.length = m := Except.ok.inj (hc.1.symm.trans hm)
    refine ⟨b ++ c, ?_, fun w hw => ?_⟩
    · simp only [batchGetEntryV1, require_of hobject, require_of hone, hk, hm, ok_bind, if_neg hzero,
        length_append, hlength, hlength']
      rfl
    · rw [length_append] at hw
      simp only [batchGetEntryV1, require_of hobject, require_of hone, ok_bind, if_neg hzero]
      rw [hb.2 w (by omega), ok_bind, hc.2 _ (by simp only [Writer.put, length_append]; omega),
        Writer.put_put]

end Sized

/-! ### Bounds of sizes -/

/-- What passes `preencode` asks for no more. -/
def AtMost (e : Encoding) (bound : ℕ) : Prop := ∀ ⦃v p n⦄, e.preencode v p = .ok n → n ≤ bound

section AtMost

variable {e : Encoding} {bound : ℕ}

theorem atMost_fixedUnsigned (bytes maximum : ℕ) (name : String) : AtMost (fixedUnsigned bytes maximum name) bytes := by
  intro v p n h
  simp only [fixedUnsigned, guards_eq_ok] at h
  obtain ⟨-, -, rfl⟩ := h
  exact le_rfl

theorem atMost_u64be : AtMost u64be 8 := by
  intro v p n h
  simp only [u64be, guards_eq_ok] at h
  obtain ⟨-, -, rfl⟩ := h
  exact le_rfl

theorem atMost_bytesOf (length : ℕ) : AtMost (bytesOf length).encoding length := by
  intro v p n h
  simp only [bytesOf, Shape.plain, fixedBytes, guards_eq_ok] at h
  obtain ⟨-, -, -, rfl⟩ := h
  exact le_rfl

theorem AtMost.constant (h : AtMost e bound) (expected : Scalar) (name : String) :
    AtMost (constant e expected name) bound := by
  intro v p n hn
  simp only [Codec.constant, bind_eq_ok] at hn
  obtain ⟨-, -, hn⟩ := hn
  exact h hn

theorem AtMost.ranged (h : AtMost e bound) (minimum maximum : ℤ) (name : String) :
    AtMost (ranged e minimum maximum name) bound := by
  intro v p n hn
  simp only [Codec.ranged, bind_eq_ok] at hn
  obtain ⟨-, -, hn⟩ := hn
  exact h hn

theorem AtMost.optional (h : AtMost e bound) (name : String) : AtMost (optional e name) (1 + bound) := by
  intro v p n hn
  simp only [Codec.optional, bind_eq_ok] at hn
  obtain ⟨k, hk, hn⟩ := hn
  have hk : k ≤ 1 := atMost_fixedUnsigned 1 _ _ hk
  split_ifs at hn
  · exact (pure_eq_ok_iff.mp hn).symm.trans_le (hk.trans (Nat.le_add_right 1 bound))
  · simp only [guards_eq_ok] at hn
    obtain ⟨m, hm, rfl⟩ := hn
    exact Nat.add_le_add hk (h hm)

/-- A struct asks for no more than its fields together. -/
theorem AtMost.struct {fields : List (String × Encoding)} {bounds : List ℕ}
    (h : List.Forall₂ (fun field bound => AtMost field.2 bound) fields bounds)
    (validate : Value → Except String Unit) (name : String) : AtMost (struct fields validate name) bounds.sum := by
  have hfields : ∀ {v n}, preencodeFields v fields = .ok n → n ≤ bounds.sum := by
    intro v
    induction h with
    | nil => exact fun hn => (pure_eq_ok_iff.mp hn).symm.le
    | cons hfield _ ih =>
      intro n hn
      simp only [preencodeFields, guards_eq_ok] at hn
      obtain ⟨k, hk, m, hm, rfl⟩ := hn
      exact Nat.add_le_add (hfield hk) (ih hm)
  intro v p n hn
  simp only [Codec.struct, guards_eq_ok] at hn
  obtain ⟨-, m, hm, -, -, rfl⟩ := hn
  exact hfields hm

theorem atMost_rangedU8 (minimum maximum : ℤ) (name : String) : AtMost (rangedU8 minimum maximum name).encoding 1 :=
  (atMost_fixedUnsigned 1 _ _).ranged minimum maximum name

theorem atMost_relayResultBindingV1 (validate validateWitness : Value → Except String Unit) :
    AtMost (relayResultBindingV1 validate validateWitness).encoding 750 := by
  have hb := atMost_bytesOf
  have hr := atMost_rangedU8
  have hwitness : AtMost (blindExternalCommitWitnessV1 validateWitness).encoding 539 :=
    @AtMost.struct _ [1, 32, 32, 32, 32, 32, 8, 32, 1, 1, 32, 32, 8, 32, 8, 32, 8, 32, 8, 32, 8, 8, 32, 64]
      (by simp [Shape.u64be, Shape.plain, atMost_u64be, hb, hr]) _ _
  exact @AtMost.struct _ [1, 32, 32, 8, 32, 1, 32, 32, 8, 32, 540]
    (by simp [Shape.u64be, Shape.plain, Shape.optional, atMost_u64be, hb, hr, hwitness.optional]) _ _

theorem atMost_blindCoreAckV1 (validate validateWitness validateAck : Value → Except String Unit) :
    AtMost (blindCoreAckV1 (relayResultBindingV1 validate validateWitness) validateAck).encoding 968 := by
  have hbinding := atMost_relayResultBindingV1 validate validateWitness
  have hversion : AtMost version1.encoding 1 := (atMost_fixedUnsigned 1 _ _).constant _ _
  have hepoch : AtMost u32be 4 := atMost_fixedUnsigned 4 _ _
  exact @AtMost.struct _ [1, 750, 32, 8, 8, 32, 4, 4, 1, 32, 32, 64]
    (by simp [Shape.u64be, Shape.plain, atMost_u64be, atMost_bytesOf, atMost_rangedU8, hbinding, hversion, hepoch]) _ _

end AtMost

/-! ### The sizes -/

section Sizes

variable {v p : Value} {n : ℕ}

theorem preencode_version1 : version1.encoding.preencode (.number 1) p = .ok 1 := rfl

theorem preencode_bytesOf {b : Bytes} {length : ℕ} (h : b.length = length) :
    (bytesOf length).encoding.preencode (.bytes b) p = .ok length := by
  simp only [bytesOf, Shape.plain, fixedBytes, asBuffer, ok_bind, require_of h]
  rfl

theorem preencode_compactUint {m : ℕ} (hm : m ≤ maxSafeInteger) :
    compactUint.preencode (.number m) p = .ok (compactBytes m) := by
  rw [(writes_compactUint hm).1, length_compactWritten]

theorem preencode_entry {entry : Cell.PinEntry B} {cellBlob : Bytes} (hfits : Fits entry cellBlob) :
    batchGetEntryV1.preencode (entryValue entry cellBlob) p =
      .ok (if entry.present then 2 + Cell.cellSizeClass entry.sizeClass else 1) := by
  cases hpresent : entry.present with
  | false =>
    rw [entryValue, hpresent]
    rfl
  | true =>
    obtain ⟨hclass, hlength⟩ := hfits hpresent
    rw [entryValue, hpresent, if_pos rfl, if_pos rfl]
    simp only [mem_cons, not_mem_nil, or_false] at hclass
    generalize entry.sizeClass = c at hclass hlength
    have hselected : selectedLength "sizeClass" [(1, Cell.cellSizeClass 1), (2, Cell.cellSizeClass 2),
        (3, Cell.cellSizeClass 3), (4, Cell.cellSizeClass 4), (5, Cell.cellSizeClass 5)] "cellBlob"
        (.object [("status", .number 1), ("sizeClass", .number c), ("cellBlob", .bytes cellBlob)]) =
          .ok (Cell.cellSizeClass c) := by
      rcases hclass with rfl | rfl | rfl | rfl | rfl <;> rfl
    have hranged : (rangedU8 1 5 "sizeClass").encoding.preencode (.number c)
        (.object [("status", .number 1), ("sizeClass", .number c), ("cellBlob", .bytes cellBlob)]) = .ok 1 := by
      rcases hclass with rfl | rfl | rfl | rfl | rfl <;> rfl
    have hfound : batchGetFoundV1.preencode (.object [("status", .number 1), ("sizeClass", .number c),
        ("cellBlob", .bytes cellBlob)]) .undefined = .ok (1 + Cell.cellSizeClass c) := by
      have hsize : Value.property (.object [("status", .number 1), ("sizeClass", .number c),
        ("cellBlob", .bytes cellBlob)]) "sizeClass" = .number c := rfl
      have hblob : Value.property (.object [("status", .number 1), ("sizeClass", .number c),
        ("cellBlob", .bytes cellBlob)]) "cellBlob" = .bytes cellBlob := rfl
      simp only [batchGetFoundV1, struct, preencodeFields, hsize, hblob, hranged, exactBytesByClass, asBuffer,
        hselected, require_of hlength, ok_bind]
      rfl
    change (do let m ← batchGetFoundV1.preencode (.object [("status", .number 1), ("sizeClass", .number c),
      ("cellBlob", .bytes cellBlob)]) .undefined; pure (1 + m)) = _
    rw [hfound, ok_bind, ← add_assoc]
    rfl

variable {entries : List (Cell.PinEntry B × Bytes)}

theorem preencodeAll_entries (hfits : ∀ e ∈ entries, Fits e.1 e.2) :
    preencodeAll batchGetEntryV1 (entries.map fun e => entryValue e.1 e.2) =
      .ok (entries.map fun e => if e.1.present then 2 + Cell.cellSizeClass e.1.sizeClass else 1).sum := by
  induction entries with
  | nil => rfl
  | cons entry entries ih =>
    rw [forall_mem_cons] at hfits
    rw [map_cons, preencodeAll, preencode_entry hfits.1, ok_bind, ih hfits.2, map_cons, sum_cons]
    rfl

theorem preencode_batchGetEntriesV1 (hfits : ∀ e ∈ entries, Fits e.1 e.2) (hsome : 1 ≤ entries.length)
    (hcount : entries.length ≤ 64) :
    batchGetEntriesV1.preencode (.array (entries.map fun e => entryValue e.1 e.2)) p =
      .ok (1 + (entries.map fun e => if e.1.present then 2 + Cell.cellSizeClass e.1.sizeClass else 1).sum) := by
  have hmax : maxArrayLength = 4294967295 := rfl
  have hcounted : countedArray (.array (entries.map fun e => entryValue e.1 e.2)) 1 64 "batch entries" =
      .ok (entries.map fun e => entryValue e.1 e.2) :=
    countedArray_eq_ok.mpr ⟨rfl, by rw [length_map]; omega, by rw [length_map]; omega⟩
  have hone : compactBytes entries.length = 1 := if_pos (by omega)
  simp only [batchGetEntriesV1, arrayOf, hcounted, ok_bind, length_map, preencodeAll_entries hfits,
    preencode_compactUint ((show entries.length ≤ 64 from hcount).trans (by decide)), hone]
  rfl

theorem dvd_cellSizeClass (sizeClass : ℕ) : 4096 ∣ Cell.cellSizeClass sizeClass := by
  unfold Cell.cellSizeClass
  split <;> decide

/-- The entries ask for the bytes of their cells, and for one or two bytes each. -/
theorem sum_entries (entries : List (Cell.PinEntry B × Bytes)) :
    4096 ∣ (entries.map fun e => cellBytes e.1).sum ∧
    (entries.map fun e => cellBytes e.1).sum + entries.length ≤
      (entries.map fun e => if e.1.present then 2 + Cell.cellSizeClass e.1.sizeClass else 1).sum ∧
    (entries.map fun e => if e.1.present then 2 + Cell.cellSizeClass e.1.sizeClass else 1).sum ≤
      (entries.map fun e => cellBytes e.1).sum + 2 * entries.length := by
  induction entries with
  | nil => simp
  | cons entry entries ih =>
    obtain ⟨hdvd, hlow, hhigh⟩ := ih
    simp only [map_cons, sum_cons, length_cons, cellBytes] at hdvd hlow hhigh ⊢
    have hcell := dvd_cellSizeClass entry.1.sizeClass
    cases entry.1.present
    · simp only [Bool.false_eq_true, ↓reduceIte]
      omega
    · simp only [↓reduceIte]
      omega

/-- Cells of less than four mebibytes are charged for no more than that, since their sizes are multiples of 4096. -/
theorem charged_le_cap {resultBindingByteLength : ℕ} (hbinding : resultBindingByteLength ≤ 750)
    (hcount : entries.length ≤ 64) (hcells : (entries.map fun e => cellBytes e.1).sum < 4 * Core.mebibyte) :
    Cell.chargedBatchResultBytes resultBindingByteLength (entries.map Prod.fst) ≤ 4 * Core.mebibyte := by
  have hmebibyte : Core.mebibyte = 1048576 := rfl
  obtain ⟨hdvd, -, hhigh⟩ := sum_entries entries
  rw [Cell.chargedBatchResultBytes, map_map]
  simp only [Function.comp_def]
  omega

/-- **The three band functions agree** on every size up to the cap. -/
theorem bands_agree (hpos : 1 ≤ n) (hcap : n ≤ 4 * Core.mebibyte) (field : String) :
    ∃ band, resultBand n maxResultBodyBytes field = .ok band ∧ Cell.chargedResultBand n = .ok band ∧
      Core.resultBand n = .ok band := by
  have hmebibyte : Core.mebibyte = 1048576 := rfl
  have hmaximum : maxResultBodyBytes = 4194304 := rfl
  rw [hmebibyte] at hcap
  have hcatalogue : 1 ≤ n ∧ n ≤ maxResultBodyBytes := by omega
  simp only [resultBand, Cell.chargedResultBand, Core.resultBand, hmebibyte, require_of hcatalogue,
    require_of (And.intro hpos hcap), ok_bind]
  split_ifs
  all_goals exact ⟨_, rfl, rfl, rfl⟩

theorem Sized.encodeCanonical_iff {e : Encoding} (hs : Sized e) :
    (∃ b : Bytes, encodeCanonical e v = .ok b ∧ n = b.length) ↔ e.preencode v .undefined = .ok n := by
  constructor
  · rintro ⟨b, hb, rfl⟩
    exact hs.preencode hb
  · intro h
    obtain ⟨b, hb⟩ := hs h
    exact ⟨b, hb.encodeCanonical, Except.ok.inj (h.symm.trans hb.1)⟩

theorem inspected_eq {states : List (Option InspectedCell)} {entries : List (Cell.PinEntry B)}
    (h : List.Forall₂ Pins states entries) (bindingBytes : Bytes) :
    inspectedBatchResultBytes bindingBytes states = Cell.chargedBatchResultBytes bindingBytes.length entries := by
  rw [inspectedBatchResultBytes, Cell.chargedBatchResultBytes]
  congr 1
  induction h with
  | nil => rfl
  | @cons state entry _ _ hpins _ ih =>
    rw [map_cons, map_cons, sum_cons, sum_cons, ih]
    congr 1
    cases state with
    | none => simp [Pins] at hpins; simp [hpins]
    | some cell =>
      cases hvisible : cell.publiclyVisible <;> simp_all [Pins]

theorem built_bytesOf (length : ℕ) : Built (bytesOf length) := .fixedBytes length _

theorem built_version1 : Built version1 := .constant _ _ .u8 rfl

theorem built_rangedU8 (minimum maximum : ℤ) (name : String) : Built (rangedU8 minimum maximum name) :=
  .ranged _ _ _ .u8 rfl

theorem built_relayResultBindingV1 (validate validateWitness : Value → Except String Unit) :
    Built (relayResultBindingV1 validate validateWitness) := by
  have hwitness : Built (blindExternalCommitWitnessV1 validateWitness) :=
    .struct _ _ (by simp [built_bytesOf, built_rangedU8, Built.u64be])
      (by simp [FieldsOrdered, rangedU8, Shape.ranged, Shape.u64be, Shape.plain, bytesOf])
  have hoptional := hwitness.optional "externalCommitWitness" rfl
  exact .struct _ _ (by simp [built_bytesOf, built_rangedU8, Built.u64be, hoptional])
    (by simp [FieldsOrdered, rangedU8, Shape.ranged, Shape.u64be, Shape.plain, bytesOf, Shape.optional])

theorem built_blindCoreAckV1 {relayBinding : Shape} (h : Built relayBinding) (hclasses : relayBinding.classes = [])
    (validate : Value → Except String Unit) : Built (blindCoreAckV1 relayBinding validate) :=
  .struct _ _ (by simp [built_bytesOf, built_rangedU8, built_version1, Built.u64be, Built.u32be, h])
    (by simp [FieldsOrdered, rangedU8, Shape.ranged, Shape.u64be, Shape.plain, bytesOf, version1, Shape.constant,
      hclasses])

/-- A lawful shape that does not read the struct it is a field of, and asks for no more than a bound. -/
structure Standalone (s : Shape) (bound : ℕ) : Prop where
  lawful : s.Lawful
  parent : ∀ v p, s.encoding.preencode v p = s.encoding.preencode v .undefined
  atMost : AtMost s.encoding bound

theorem Standalone.preencode {s : Shape} {bound : ℕ} {b : Bytes} (hs : Standalone s bound)
    (h : encodeCanonical s.encoding v = .ok b) : (∀ p, s.encoding.preencode v p = .ok b.length) ∧ b.length ≤ bound := by
  have hsize := hs.lawful.sized.preencode h
  exact ⟨fun p => (hs.parent v p).trans hsize, hs.atMost hsize⟩

theorem standalone_relayResultBindingV1 (validate validateWitness : Value → Except String Unit) :
    Standalone (relayResultBindingV1 validate validateWitness) 750 where
  lawful := (built_relayResultBindingV1 validate validateWitness).lawful
  parent _ _ := rfl
  atMost := atMost_relayResultBindingV1 validate validateWitness

theorem standalone_blindCoreAckV1 (validate validateWitness validateAck : Value → Except String Unit) :
    Standalone (blindCoreAckV1 (relayResultBindingV1 validate validateWitness) validateAck) 968 where
  lawful := (built_blindCoreAckV1 (built_relayResultBindingV1 validate validateWitness) rfl validateAck).lawful
  parent _ _ := rfl
  atMost := atMost_blindCoreAckV1 validate validateWitness validateAck

variable {relayBinding ack : Shape} {blake2b256 : Bytes → Bytes}

/-- **The result of a batch** is there, of the predicted size, when its cells have less than four mebibytes. -/
theorem batchGetResult_iff (hrelay : Standalone relayBinding 750) (hhash : ∀ b, (blake2b256 b).length = 32)
    {binding : Value} {bindingBytes requestNonce requestCommitment signature : Bytes}
    (hbinding : encodeCanonical relayBinding.encoding binding = .ok bindingBytes) (hnonce : requestNonce.length = 32)
    (hcommitment : requestCommitment.length = 32) (hsignature : signature.length = 64) (hsome : 1 ≤ entries.length)
    (hcount : entries.length ≤ 64) (hfits : ∀ e ∈ entries, Fits e.1 e.2) :
    (∃ b : Bytes, batchGetResult relayBinding.encoding blake2b256 binding requestNonce requestCommitment signature
        (entries.map fun e => entryValue e.1 e.2) = .ok b ∧
      Cell.chargedBatchResultBytes bindingBytes.length (entries.map Prod.fst) = b.length) ↔
    (entries.map fun e => cellBytes e.1).sum < 4 * Core.mebibyte := by
  have hmebibyte : Core.mebibyte = 1048576 := rfl
  obtain ⟨hrelaySize, -⟩ := hrelay.preencode hbinding
  have hbytes := fun length => (built_bytesOf length).lawful.sized
  have hentries := sized_batchGetEntryV1.arrayOf 1 64 "batch entries"
  have hsized : Sized (batchGetResultV1 relayBinding.encoding blake2b256) := Sized.struct (by
    simp only [forall_mem_cons]
    exact ⟨built_version1.lawful.sized, hrelay.lawful.sized, hbytes 32, hbytes 32, hentries, hbytes 32, hbytes 64,
      by simp⟩) _ _
  have hpreentries := fun p => preencode_batchGetEntriesV1 (p := p) hfits hsome hcount
  obtain ⟨entriesBytes, hwrites⟩ := hentries (hpreentries .undefined)
  have hlength := Except.ok.inj (hwrites.1.symm.trans (hpreentries .undefined))
  have hencoded : encodeCanonical batchGetEntriesV1 _ = .ok entriesBytes := hwrites.encodeCanonical
  obtain ⟨hdvd, hlow, hhigh⟩ := sum_entries entries
  simp only [batchGetResult, batchGetEntriesCommitment, hencoded, ok_bind, pure_bind]
  rw [hsized.encodeCanonical_iff]
  generalize hvalue : Value.object _ = value
  obtain ⟨hobject, hversion, hrelay', hnonce', hcommitment', hlist, hhash', hsignature'⟩ : value.isObject = true ∧
      value.property "version" = .number 1 ∧ value.property "relayBinding" = binding ∧
      value.property "requestNonce" = .bytes requestNonce ∧
      value.property "requestCommitment" = .bytes requestCommitment ∧
      value.property "entries" = .array (entries.map fun e => entryValue e.1 e.2) ∧
      value.property "entriesCommitment" = .bytes (blake2b256 entriesBytes) ∧
      value.property "signature" = .bytes signature := by
    subst hvalue
    exact ⟨rfl, rfl, rfl, rfl, rfl, rfl, rfl, rfl⟩
  simp only [batchGetResultV1, struct, preencodeFields, require_of hobject, hversion, hrelay', hnonce', hcommitment',
    hlist, hhash', hsignature', preencode_version1, preencode_bytesOf hnonce, preencode_bytesOf hcommitment,
    preencode_bytesOf hsignature, preencode_bytesOf (hhash _), hrelaySize, hpreentries, hencoded, asBuffer, ok_bind,
    pure_bind, guards_eq_ok, true_and, exists_const, Cell.chargedBatchResultBytes, map_map, Function.comp_def, hlength]
  omega

/-- **The result of a proof** is there, of the predicted size, when it is within its cap with the acknowledgement. -/
theorem proofResult_iff (hs : Standalone ack 968) {acknowledgementBytes proofsAndBlocks : Bytes}
    {acknowledgement : Value} (hack : decodeCanonical ack.encoding acknowledgementBytes = .ok acknowledgement)
    (hserved : (Scalar.number 2).strictEquals (acknowledgement.property "result") = true)
    (hsome : 1 ≤ proofsAndBlocks.length) (hbound : proofsAndBlocks.length ≤ 4 * Core.mebibyte - 256) :
    (∃ b : Bytes, proofResult ack.encoding acknowledgementBytes proofsAndBlocks = .ok b ∧
      Core.coreProofResultByteLength acknowledgementBytes.length proofsAndBlocks.length = b.length) ↔
    acknowledgementBytes.length + proofsAndBlocks.length + 6 ≤ 4 * Core.mebibyte := by
  obtain ⟨hsize, hshort⟩ := hs.preencode (hs.lawful.decodeCanonical hack).1
  have hsized : Sized (coreServeResultV1 ack.encoding) := by
    intro v p n h
    simp only [coreServeResultV1, cappedEncoding, guards_eq_ok] at h
    obtain ⟨m, hm, hcap, rfl⟩ := h
    obtain ⟨b, hb⟩ := Sized.struct (by
      simp only [forall_mem_cons]
      exact ⟨built_version1.lawful.sized, hs.lawful.sized, (Built.boundedBytes _ _ _).lawful.sized, by simp⟩) _ _ hm
    refine ⟨b, ?_, hb.2⟩
    simp only [coreServeResultV1, cappedEncoding, hm, ok_bind, require_of hcap]
    exact hm.symm.trans hb.1
  simp only [proofResult, hack, ok_bind]
  rw [hsized.encodeCanonical_iff]
  generalize hvalue : Value.object _ = value
  obtain ⟨hobject, hversion, hacknowledgement, hproof⟩ : value.isObject = true ∧ value.property "version" = .number 1 ∧
      value.property "acknowledgement" = acknowledgement ∧
      value.property "proofsAndBlocks" = .bytes proofsAndBlocks := by
    subst hvalue
    exact ⟨rfl, rfl, rfl, rfl⟩
  have hrange : ¬ (proofsAndBlocks.length < 1 ∨ proofsAndBlocks.length > 4 * Core.mebibyte - 256) := by omega
  have hmebibyte : Core.mebibyte = 1048576 := rfl
  have hmax : maxSafeInteger = 9007199254740991 := rfl
  have hcompact := preencode_compactUint (p := .undefined) (show proofsAndBlocks.length ≤ maxSafeInteger by omega)
  simp only [coreServeResultV1, cappedEncoding, struct, preencodeFields, boundedBytes, asBuffer, require_of hobject,
    hversion, hacknowledgement, hproof, hsize, preencode_version1, hcompact, require_of hrange,
    require_of hserved, ok_bind, pure_bind, guards_eq_ok]
  rw [Core.coreProofResultByteLength, Core.compactLengthBytes, compactBytes]
  split_ifs <;> omega

/-- **Charged sizes are real sizes**, and all who charge for a result charge in one band, exactly when the result is
there: the cells of a batch have less than four mebibytes, and a proof is within the cap of its result together with
the acknowledgement. -/
theorem charged_sizes (validate validateWitness validateAck : Value → Except String Unit) (blake2b256 : Bytes → Bytes)
    (hhash : ∀ b, (blake2b256 b).length = 32) (B : Type) :
    (∀ binding bindingBytes requestNonce requestCommitment signature (entries : List (Cell.PinEntry B × Bytes)) states,
      encodeCanonical (relayResultBindingV1 validate validateWitness).encoding binding = .ok bindingBytes →
      requestNonce.length = 32 → requestCommitment.length = 32 → signature.length = 64 →
      1 ≤ entries.length → entries.length ≤ 64 → (∀ e ∈ entries, Fits e.1 e.2) →
      List.Forall₂ Pins states (entries.map Prod.fst) →
      ((∃ b band, batchGetResult (relayResultBindingV1 validate validateWitness).encoding blake2b256 binding requestNonce
            requestCommitment signature (entries.map fun e => entryValue e.1 e.2) = .ok b ∧
          Cell.chargedBatchResultBytes bindingBytes.length (entries.map Prod.fst) = b.length ∧
          inspectedBatchResultBytes bindingBytes states = b.length ∧
          resultBand (inspectedBatchResultBytes bindingBytes states) maxResultBodyBytes "canonicalResultBytes" = .ok band ∧
          Cell.chargedResultBand (Cell.chargedBatchResultBytes bindingBytes.length (entries.map Prod.fst)) = .ok band) ↔
        (entries.map fun e => cellBytes e.1).sum < 4 * Core.mebibyte)) ∧
    ∀ acknowledgementBytes proofsAndBlocks acknowledgement,
      decodeCanonical (blindCoreAckV1 (relayResultBindingV1 validate validateWitness) validateAck).encoding
        acknowledgementBytes = .ok acknowledgement →
      (Scalar.number 2).strictEquals (acknowledgement.property "result") = true →
      1 ≤ proofsAndBlocks.length → proofsAndBlocks.length ≤ 4 * Core.mebibyte - 256 →
      ((∃ b band, proofResult (blindCoreAckV1 (relayResultBindingV1 validate validateWitness) validateAck).encoding
            acknowledgementBytes proofsAndBlocks = .ok b ∧
          Core.coreProofResultByteLength acknowledgementBytes.length proofsAndBlocks.length = b.length ∧
          Core.resultBand b.length = .ok band ∧
          Core.resultBand (Core.coreProofResultByteLength acknowledgementBytes.length proofsAndBlocks.length) = .ok band) ↔
        acknowledgementBytes.length + proofsAndBlocks.length + 6 ≤ 4 * Core.mebibyte) := by
  have hrelay := standalone_relayResultBindingV1 validate validateWitness
  have hack := standalone_blindCoreAckV1 validate validateWitness validateAck
  have hmebibyte : Core.mebibyte = 1048576 := rfl
  refine ⟨fun binding bindingBytes nonce commitment signature entries states hbinding hnonce hcommitment hsignature
    hsome hcount hfits hpins => ?_, fun ack proof acknowledgement hdecode hserved hsome hbound => ?_⟩
  · have hiff := batchGetResult_iff hrelay hhash hbinding hnonce hcommitment hsignature hsome hcount hfits
    rw [inspected_eq hpins]
    constructor
    · rintro ⟨b, band, hresult, hsize, -⟩
      exact hiff.mp ⟨b, hresult, hsize⟩
    · intro hcells
      obtain ⟨b, hresult, hsize⟩ := hiff.mpr hcells
      obtain ⟨band, hcatalogue, hengine, -⟩ := bands_agree (by rw [Cell.chargedBatchResultBytes]; omega)
        (charged_le_cap (hrelay.preencode hbinding).2 hcount hcells) "canonicalResultBytes"
      exact ⟨b, band, hresult, hsize, hsize, hcatalogue, hengine⟩
  · have hiff := proofResult_iff hack hdecode hserved hsome hbound
    constructor
    · rintro ⟨b, band, hresult, hsize, -⟩
      exact hiff.mp ⟨b, hresult, hsize⟩
    · intro hcap
      obtain ⟨b, hresult, hsize⟩ := hiff.mpr hcap
      obtain ⟨band, -, -, hband⟩ := bands_agree
        (n := Core.coreProofResultByteLength ack.length proof.length) (by rw [Core.coreProofResultByteLength]; omega)
        (by rw [Core.coreProofResultByteLength, Core.compactLengthBytes]; split_ifs <;> omega) ""
      exact ⟨b, band, hresult, hsize, hsize ▸ hband, hband⟩

/-- The schemas with validators that accept everything. -/
def sampleBindingV1 : Shape := relayResultBindingV1 (fun _ => pure ()) fun _ => pure ()

def sampleAckV1 : Shape := blindCoreAckV1 sampleBindingV1 fun _ => pure ()

def sampleBinding : Value :=
  .object [("version", .number 1), ("relayPublicKey", .bytes (.replicate 32 1)), ("storeId", .bytes (.replicate 32 2)),
    ("descriptorSequence", .bigint 1), ("descriptorHash", .bytes (.replicate 32 3)), ("durabilityProfileId", .number 1),
    ("durabilityContinuityHash", .bytes (.replicate 32 4)), ("durabilityProfileHash", .bytes (.replicate 32 5)),
    ("restoreEvidenceHeadSequence", .bigint 0), ("restoreEvidenceHeadHash", .bytes (.replicate 32 0)),
    ("externalCommitWitness", .null)]

def sampleAcknowledgement : Value :=
  .object [("version", .number 1), ("relayBinding", sampleBinding), ("corePublicKey", .bytes (.replicate 32 1)),
    ("fork", .bigint 0), ("length", .bigint 1), ("signedHeadHash", .bytes (.replicate 32 2)),
    ("observedAtEpoch", .number 1), ("leaseEpoch", .number 1), ("result", .number 2),
    ("requestNonce", .bytes (.replicate 32 3)), ("requestCommitment", .bytes (.replicate 32 4)),
    ("signature", .bytes (.replicate 64 5))]

set_option maxRecDepth 8000 in
theorem decode_sampleAcknowledgement : ∃ b : Bytes, b.length = 429 ∧
    decodeCanonical sampleAckV1.encoding b = .ok sampleAcknowledgement := by
  obtain ⟨b, hlength, -, hdecode, -⟩ := (built_blindCoreAckV1 (built_relayResultBindingV1 (fun _ => pure ())
    fun _ => pure ()) rfl fun _ => pure ()).lawful.encodeCanonical (v := sampleAcknowledgement) (n := 429) rfl
  exact ⟨b, hlength, hdecode rfl⟩

/-- A cell that is absent, and one of the first class. -/
def sampleEntries : List (Cell.PinEntry ℕ × Bytes) :=
  [(⟨0, false, 0, 0, 0, 0, 0, 0, 0, 0⟩, []), (⟨1, true, 1, 1, 1, 1, 1, 1, 1, 1⟩, replicate 4096 0)]

set_option maxRecDepth 8000 in
/-- A batch of two entries, and a proof of the most bytes that have a result with an acknowledgement of 429 bytes. -/
theorem charged_sizes_sample :
    (∃ bindingBytes b : Bytes, ∃ band, batchGetResult sampleBindingV1.encoding (fun _ => .replicate 32 0) sampleBinding
        (.replicate 32 6) (.replicate 32 7) (.replicate 64 8) (sampleEntries.map fun e => entryValue e.1 e.2) = .ok b ∧
      Cell.chargedBatchResultBytes bindingBytes.length (sampleEntries.map Prod.fst) = b.length ∧
      Cell.chargedResultBand b.length = .ok band) ∧
    ∃ acknowledgementBytes b : Bytes, acknowledgementBytes.length = 429 ∧
      proofResult sampleAckV1.encoding acknowledgementBytes (replicate (4 * Core.mebibyte - 435) 0) = .ok b ∧
      b.length = 4 * Core.mebibyte := by
  have hmebibyte : Core.mebibyte = 1048576 := rfl
  have hfits : ∀ e ∈ sampleEntries, Fits e.1 e.2 := by
    simp only [sampleEntries, forall_mem_cons]
    exact ⟨by simp [Fits], fun _ => ⟨by decide, length_replicate ..⟩, by simp⟩
  have hsizes := charged_sizes (fun _ => pure ()) (fun _ => pure ()) (fun _ => pure ())
    (fun _ => .replicate 32 0) (fun _ => length_replicate ..) ℕ
  obtain ⟨bindingBytes, -, hbinding, -⟩ := (built_relayResultBindingV1 (fun _ => pure ())
    fun _ => pure ()).lawful.encodeCanonical (v := sampleBinding) (n := 211) rfl
  obtain ⟨ack, hlength, hdecode⟩ := decode_sampleAcknowledgement
  constructor
  · have hbatch := hsizes.1 sampleBinding bindingBytes (.replicate 32 6) (.replicate 32 7) (.replicate 64 8)
      sampleEntries [none, some ⟨true, 1⟩] hbinding rfl rfl rfl (by decide) (by decide) hfits
      (.cons ⟨by simp, by simp⟩ (.cons ⟨by simp, by simp⟩ .nil))
    obtain ⟨b, band, hresult, hsize, -, -, hband⟩ := hbatch.mpr (by decide)
    exact ⟨bindingBytes, b, band, hresult, hsize, hsize ▸ hband⟩
  · have hproof := hsizes.2 ack (replicate (4 * Core.mebibyte - 435) 0) _ hdecode rfl
      (by rw [length_replicate]; omega) (by rw [length_replicate]; omega)
    obtain ⟨b, -, hresult, hsize, -⟩ := hproof.mpr (by rw [length_replicate]; omega)
    refine ⟨ack, b, hlength, hresult, ?_⟩
    rw [← hsize, Core.coreProofResultByteLength, Core.compactLengthBytes, length_replicate, hlength]
    split_ifs <;> omega

/-- **A proof within its bound has no result**: with an acknowledgement of 429 bytes, a proof of the most bytes that
`boundedBytes` takes. -/
theorem proof_unservable : ∃ acknowledgementBytes proofsAndBlocks : Bytes, acknowledgementBytes.length = 429 ∧
    decodeCanonical sampleAckV1.encoding acknowledgementBytes = .ok sampleAcknowledgement ∧
    1 ≤ proofsAndBlocks.length ∧ proofsAndBlocks.length ≤ 4 * Core.mebibyte - 256 ∧
    ¬ ∃ b : Bytes, proofResult sampleAckV1.encoding acknowledgementBytes proofsAndBlocks = .ok b ∧
      Core.coreProofResultByteLength acknowledgementBytes.length proofsAndBlocks.length = b.length := by
  obtain ⟨ack, hlength, hdecode⟩ := decode_sampleAcknowledgement
  have hmebibyte : Core.mebibyte = 1048576 := rfl
  refine ⟨ack, replicate (4 * Core.mebibyte - 256) 0, hlength, hdecode, by rw [length_replicate]; omega,
    (length_replicate ..).le, ?_⟩
  rw [proofResult_iff (show Standalone sampleAckV1 968 from standalone_blindCoreAckV1 ..) hdecode rfl
    (by rw [length_replicate]; omega) (length_replicate ..).le, length_replicate]
  omega

end Sizes

end HiveRelay.Codec
