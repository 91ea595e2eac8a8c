import HiveRelay.Codec.Combinators

/-!
# The laws of the canonical codec

What an encoding built from the combinators does is described by a *shape*: the normal form of a
value (an unsigned 64-bit number as a bigint, a constant that was left out filled in, an absent
optional value `null`, and of an object the declared fields only), and whether the validators of its
structs accept that normal form. The combinators build shapes as they build encodings, and each of
them keeps the laws.

## Main definitions

* `Shape`, `Shape.Lawful` — what an encoding does to a value, and its laws
* `Built` — the shapes that the combinators build

## Main results

* `canonical_codec` — they are lawful
-/

namespace HiveRelay.Codec

open List HiveRelay.Except Bytes

variable {e : Encoding} {v p : Value} {b rest input : Bytes} {n : ℕ} {w : Writer} {name : String}

/-! ### Reading and writing one byte string -/

/-- `preencode` and `encode` write `v` as `b`. -/
def Writes (e : Encoding) (v p : Value) (b : Bytes) : Prop :=
  e.preencode v p = .ok b.length ∧ ∀ w : Writer, w.written.length + b.length ≤ w.size → e.encode v p w = .ok (w.put b)

/-- `decode` reads `b` as `v`, whatever comes after it. -/
def Reads (e : Encoding) (p : Value) (b : Bytes) (v : Value) : Prop :=
  ∀ rest, e.decode p (b ++ rest) = .ok (v, rest)

/-- `decode` throws on `b`, whatever comes after it. -/
def Refuses (e : Encoding) (p : Value) (b : Bytes) : Prop :=
  ∀ rest, ∃ error, e.decode p (b ++ rest) = .error error

theorem Writer.assertAvailable_of (h : w.written.length + n ≤ w.size) : w.assertAvailable n name = .ok () :=
  require_of (by omega)

theorem Writer.put_put (w : Writer) (b c : Bytes) : (w.put b).put c = w.put (b ++ c) := by
  simp [Writer.put]

theorem readBytes_eq_ok : readBytes n name input = .ok (b, rest) ↔ input = b ++ rest ∧ b.length = n := by
  simp only [readBytes, guards_eq_ok, Prod.mk.injEq]
  constructor
  · rintro ⟨hlength, rfl, rfl⟩
    exact ⟨(take_append_drop _ _).symm, length_take_of_le hlength⟩
  · rintro ⟨rfl, rfl⟩
    simp

/-! ### Compact integers -/

theorem length_compactWritten (n : ℕ) : (compactWritten n).length = compactBytes n := by
  unfold compactWritten compactBytes
  split_ifs <;> simp

theorem decodeCompact_written (h : n ≤ maxSafeInteger) :
    decodeCompact (compactWritten n ++ rest) = .ok (n, rest) := by
  have hmax : maxSafeInteger = 9007199254740991 := rfl
  have hone : ∀ (m : UInt8) (rest : Bytes), readBytes 1 "compact uint" (m :: rest) = .ok ([m], rest) := fun m rest =>
    readBytes_eq_ok.mpr ⟨rfl, rfl⟩
  have hread : ∀ k, readBytes k "compact uint" (ofNatLE k n ++ rest) =
      .ok (ofNatLE k n, rest) := fun k => readBytes_eq_ok.mpr ⟨rfl, by simp⟩
  have hbyte : ∀ m : UInt8, toNat [m] = m.toNat := fun m => by simp [Bytes.toNat]
  unfold decodeCompact compactWritten
  split_ifs with h₁ h₂ h₃
  · have hn : (UInt8.ofNat n).toNat = n := by
      rw [UInt8.toNat_ofNat']
      omega
    rw [singleton_append, hone, ok_bind]
    simp only [hbyte, hn]
    rw [if_pos h₁]
    rfl
  · have hn := toNatLE_ofNatLE (show n < 256 ^ 2 by omega)
    rw [cons_append, hone, ok_bind]
    simp only [hbyte]
    rw [if_neg (by decide), if_pos (by decide), hread, ok_bind]
    simp only [hn, require_of h₁, ok_bind]
    rfl
  · have hn := toNatLE_ofNatLE (show n < 256 ^ 4 by omega)
    rw [cons_append, hone, ok_bind]
    simp only [hbyte]
    rw [if_neg (by decide), if_neg (by decide), if_pos (by decide), hread, ok_bind]
    simp only [hn, require_of h₂, ok_bind]
    rfl
  · have hn := toNatLE_ofNatLE (show n < 256 ^ 8 by omega)
    have hrange : ¬ (n ≤ 0xffffffff ∨ n > maxSafeInteger) := by omega
    rw [cons_append, hone, ok_bind]
    simp only [hbyte]
    rw [if_neg (by decide), if_neg (by decide), if_neg (by decide), hread, ok_bind]
    simp only [hn, require_of hrange, ok_bind]
    rfl

theorem eq_written_of_decodeCompact (h : decodeCompact input = .ok (n, rest)) :
    n ≤ maxSafeInteger ∧ input = compactWritten n ++ rest := by
  have hmax : maxSafeInteger = 9007199254740991 := rfl
  simp only [decodeCompact, bind_eq_ok] at h
  obtain ⟨⟨first, rest₁⟩, hfirst, h⟩ := h
  obtain ⟨rfl, hlength⟩ := readBytes_eq_ok.mp hfirst
  obtain ⟨m, rfl⟩ := length_eq_one_iff.mp hlength
  have hm : toNat [m] = m.toNat := by simp [Bytes.toNat]
  have hmlt := m.toNat_lt
  -- a marker and the integer behind it
  have hlong : ∀ (k : ℕ) (c : Bytes), c.length = k → ofNatLE k (toNatLE c) = c := by
    rintro k c rfl
    exact ofNatLE_toNatLE c
  have hmarker : ∀ k < 256, m.toNat = k → m = UInt8.ofNat k := by
    rintro k - rfl
    simp
  rw [hm] at h
  unfold compactWritten
  split_ifs at h with h₁ h₂ h₃
  · obtain ⟨rfl, rfl⟩ : m.toNat = n ∧ rest₁ = rest := by simpa using h
    rw [if_pos h₁]
    exact ⟨by omega, by simp⟩
  all_goals
    simp only [bind_eq_ok] at h
    obtain ⟨⟨c, rest₂⟩, hc, h⟩ := h
    obtain ⟨rfl, hlength⟩ := readBytes_eq_ok.mp hc
    have hlt := toNatLE_lt c
    rw [hlength] at hlt
    have hwritten := hlong _ c hlength
    simp only [guards_eq_ok, Prod.mk.injEq] at h
    obtain ⟨hrange, rfl, rfl⟩ := h
  · rw [if_neg hrange, if_pos (by omega), hwritten, hmarker _ (by omega) h₂]
    exact ⟨by omega, rfl⟩
  · rw [if_neg (by omega), if_neg hrange, if_pos (by omega), hwritten, hmarker _ (by omega) h₃]
    exact ⟨by omega, rfl⟩
  · push Not at hrange
    rw [if_neg (by omega), if_neg (by omega), if_neg (by omega), hwritten, hmarker 0xff (by omega) (by omega)]
    exact ⟨by omega, rfl⟩

theorem asBuffer_eq_ok : asBuffer v name = .ok b ↔ v = .bytes b := by
  cases v <;> simp [asBuffer]

variable {maximum : ℕ}

theorem assertUnsignedNumber_eq_ok (hmax : maximum ≤ maxSafeInteger) :
    assertUnsignedNumber v maximum name = .ok n ↔ v = .number n ∧ n ≤ maximum := by
  cases v with
  | number m =>
    simp only [assertUnsignedNumber, isSafeInteger, decide_eq_true_eq, Value.number.injEq]
    constructor
    · intro h
      split_ifs at h with hm
      cases h
      omega
    · rintro ⟨rfl, hn⟩
      rw [if_pos (by omega), Int.toNat_natCast]
  | _ => simp [assertUnsignedNumber]

theorem writes_compactUint (h : n ≤ maxSafeInteger) : Writes compactUint (.number n) p (compactWritten n) := by
  have hn : assertUnsignedNumber (.number n) maxSafeInteger "compact uint" = .ok n :=
    (assertUnsignedNumber_eq_ok le_rfl).mpr ⟨rfl, h⟩
  constructor
  · simp only [compactUint, hn, ok_bind, length_compactWritten]
    rfl
  · intro w hw
    simp only [compactUint, hn, ok_bind]
    rw [w.assertAvailable_of (length_compactWritten n ▸ hw)]
    rfl

/-! ### Shapes -/

/-- What `p` knows about the classes `names`, `p'` knows too. -/
def SameClasses (names : List String) (p p' : Value) : Prop :=
  ∀ name ∈ names, ∀ k, (p.property name).key? = some k → (p'.property name).key? = some k

/-- An encoding, and what it makes of the values it takes. -/
structure Shape where
  encoding : Encoding
  /-- The class fields it reads from the struct it is a field of. -/
  classes : List String
  /-- It is an optional value. -/
  isOptional : Bool
  /-- It decodes to numbers. -/
  isNumber : Bool
  /-- What a value that was encoded is decoded to. -/
  normal : Value → Value
  /-- The validators of its structs accept the normal form of a value. -/
  accepts : Value → Bool

structure Shape.Lawful (s : Shape) : Prop where
  /-- What passes `preencode` is written, and read back in its normal form unless a validator refuses
  that. -/
  encodes : ∀ {v p n}, s.encoding.preencode v p = .ok n → ∃ b, Writes s.encoding v p b ∧
    ∀ p', SameClasses s.classes p p' → (s.accepts v = true → Reads s.encoding p' b (s.normal v)) ∧
      (s.accepts v = false → Refuses s.encoding p' b)
  /-- What is read was written so, and is read so whatever follows. -/
  decodes : ∀ {p input v rest}, s.encoding.decode p input = .ok (v, rest) → ∃ b, input = b ++ rest ∧
    Reads s.encoding p b v ∧ ∀ p', SameClasses s.classes p p' → Writes s.encoding v p' b
  /-- A value that is a size class is the same class in its normal form. -/
  key : ∀ {v p n k}, s.encoding.preencode v p = .ok n → v.key? = some k → (s.normal v).key? = some k
  nullish : s.isOptional = false → ∀ {p input v rest}, s.encoding.decode p input = .ok (v, rest) → v.isNullish = false
  number : s.isNumber = true → ∀ {p input v rest}, s.encoding.decode p input = .ok (v, rest) → ∃ n, v = .number n

/-- An encoding whose values are their own normal forms. -/
def Shape.plain (e : Encoding) (isNumber : Bool) : Shape := ⟨e, [], false, isNumber, id, fun _ => true⟩

/-- The normal form of an unsigned 64-bit integer. -/
def toBigint : Value → Value
  | .number n => .bigint n
  | v => v

namespace Shape

def u64be : Shape := { plain Codec.u64be false with normal := toBigint }

def exactBytesByClass (classField : String) (classLengths : List (ℤ × ℕ)) (name : String) : Shape :=
  { plain (Codec.exactBytesByClass classField classLengths name) false with classes := [classField] }

def optional (s : Shape) (name : String) : Shape where
  encoding := Codec.optional s.encoding name
  classes := []
  isOptional := true
  isNumber := false
  normal v := if v.isNullish then .null else s.normal v
  accepts v := v.isNullish || s.accepts v

def arrayOf (s : Shape) (minimum maximum : ℕ) (name : String) : Shape where
  encoding := Codec.arrayOf s.encoding minimum maximum name
  classes := []
  isOptional := false
  isNumber := false
  normal
    | .array values => .array (values.map s.normal)
    | v => v
  accepts
    | .array values => values.all s.accepts
    | _ => true

/-- The fields of the normal form of an object. -/
def normalFields (fields : List (String × Shape)) (v : Value) : List (String × Value) :=
  fields.map fun field => (field.1, field.2.normal (v.property field.1))

def struct (fields : List (String × Shape)) (validate : Value → Except String Unit) (name : String) : Shape where
  encoding := Codec.struct (fields.map fun field => (field.1, field.2.encoding)) validate name
  classes := []
  isOptional := false
  isNumber := false
  normal v := .object (normalFields fields v)
  accepts v := (fields.all fun field => field.2.accepts (v.property field.1)) &&
    (validate (.object (normalFields fields v))).isOk

def constant (s : Shape) (expected : Scalar) (name : String) : Shape where
  encoding := Codec.constant s.encoding expected name
  classes := []
  isOptional := false
  isNumber := match expected with
    | .number _ => true
    | .bigint _ => false
  normal _ := expected.value
  accepts _ := s.accepts expected.value

def ranged (s : Shape) (minimum maximum : ℤ) (name : String) : Shape where
  __ := s
  encoding := Codec.ranged s.encoding minimum maximum name
  classes := []
  isOptional := false
  isNumber := true

end Shape

/-- The names of the fields are new, and the class fields they read come before them. -/
def FieldsOrdered : List String → List (String × Shape) → Prop
  | _, [] => True
  | seen, (name, s) :: fields =>
    s.classes ⊆ seen ∧ name ∉ seen ∧ FieldsOrdered (name :: seen) fields

/-- The encodings the combinators build: `optional` of what is not optional, `constant` of a scalar
that its encoding decodes to, `ranged` of numbers, and structs whose fields have names of their own
and come after the class fields they read. -/
inductive Built : Shape → Prop where
  | u8 : Built (.plain u8 true)
  | u16be : Built (.plain u16be true)
  | u32be : Built (.plain u32be true)
  | u64be : Built .u64be
  | compactUint : Built (.plain compactUint true)
  | fixedBytes (length : ℕ) (name : String) : Built (.plain (fixedBytes length name) false)
  | exactBytesByClass (classField : String) (classLengths : List (ℤ × ℕ)) (name : String) :
    Built (.exactBytesByClass classField classLengths name)
  | boundedBytes (minimum maximum : ℕ) (name : String) :
    Built (.plain (boundedBytes minimum maximum name) false)
  | optional {s : Shape} (name : String) : Built s → s.isOptional = false → Built (s.optional name)
  | arrayOf {s : Shape} (minimum maximum : ℕ) (name : String) : Built s →
    Built (s.arrayOf minimum maximum name)
  | struct {fields : List (String × Shape)} (validate : Value → Except String Unit)
    (name : String) : (∀ field ∈ fields, Built field.2) → FieldsOrdered [] fields →
    Built (.struct fields validate name)
  | constant {s : Shape} (expected : Scalar) (name : String) : Built s →
    s.normal expected.value = expected.value → Built (s.constant expected name)
  | ranged {s : Shape} (minimum maximum : ℤ) (name : String) : Built s → s.isNumber = true →
    Built (s.ranged minimum maximum name)

/-! ### The leaves -/

theorem lawful_fixedUnsigned {bytes : ℕ} (hmax : maximum + 1 = 256 ^ bytes)
    (hsafe : maximum ≤ maxSafeInteger) : (Shape.plain (fixedUnsigned bytes maximum name) true).Lawful := by
  have hreads : ∀ {p : Value} {b : Bytes}, b.length = bytes →
      Reads (fixedUnsigned bytes maximum name) p b (.number (toNat b)) := by
    intro p b hb rest
    simp only [fixedUnsigned, readBytes_eq_ok.mpr ⟨rfl, hb⟩, ok_bind]
    rfl
  have hwrites : ∀ {n : ℕ} {p : Value}, n ≤ maximum →
      Writes (fixedUnsigned bytes maximum name) (.number n) p (ofNat bytes n) := by
    intro n p hn
    have hn : assertUnsignedNumber (.number n) maximum name = .ok n :=
      (assertUnsignedNumber_eq_ok hsafe).mpr ⟨rfl, hn⟩
    constructor
    · simp only [fixedUnsigned, hn, ok_bind, length_ofNat]
      rfl
    · intro w hw
      rw [length_ofNat] at hw
      simp only [fixedUnsigned, hn, ok_bind, w.assertAvailable_of hw]
      rfl
  have htaken : ∀ {v p n}, (fixedUnsigned bytes maximum name).preencode v p = .ok n →
      ∃ m : ℕ, v = .number m ∧ m ≤ maximum := by
    intro v p n h
    simp only [fixedUnsigned, bind_eq_ok] at h
    obtain ⟨m, hm, -⟩ := h
    exact ⟨m, (assertUnsignedNumber_eq_ok hsafe).mp hm⟩
  have hread : ∀ {p input v rest}, (fixedUnsigned bytes maximum name).decode p input = .ok (v, rest) →
      ∃ b, input = b ++ rest ∧ b.length = bytes ∧ v = .number (toNat b) := by
    intro p input v rest h
    simp only [fixedUnsigned, guards_eq_ok, Prod.mk.injEq] at h
    obtain ⟨⟨b, rest'⟩, hb, rfl, rfl⟩ := h
    obtain ⟨rfl, hlength⟩ := readBytes_eq_ok.mp hb
    exact ⟨b, rfl, hlength, rfl⟩
  refine ⟨?_, ?_, ?_, ?_, ?_⟩
  · intro v p n h
    obtain ⟨m, rfl, hm⟩ := htaken h
    refine ⟨_, hwrites hm, fun p' _ => ⟨fun _ => ?_, by rintro ⟨⟩⟩⟩
    have h := hreads (p := p') (length_ofNat bytes m)
    rwa [toNat_ofNat (by omega)] at h
  · intro p input v rest h
    obtain ⟨b, rfl, rfl, rfl⟩ := hread h
    refine ⟨b, rfl, hreads rfl, fun p' _ => ?_⟩
    have hlt := toNat_lt b
    have h := hwrites (p := p') (show toNat b ≤ maximum by omega)
    rwa [ofNat_toNat] at h
  · intro v p n k _ hk
    exact hk
  · intro _ p input v rest h
    obtain ⟨b, -, -, rfl⟩ := hread h
    rfl
  · intro _ p input v rest h
    obtain ⟨b, -, -, rfl⟩ := hread h
    exact ⟨_, rfl⟩

theorem lawful_u64be : Shape.u64be.Lawful := by
  have hmax : maxU64 = 18446744073709551615 := rfl
  have hsafe : maxSafeInteger = 9007199254740991 := rfl
  have hreads : ∀ {p : Value} {b : Bytes}, b.length = 8 → Reads u64be p b (.bigint (toNat b)) := by
    intro p b hb rest
    simp only [u64be, readBytes_eq_ok.mpr ⟨rfl, hb⟩, ok_bind]
    rfl
  have hwrites : ∀ {v p : Value} {n : ℕ}, asU64 v "u64" = .ok n → Writes u64be v p (ofNat 8 n) := by
    intro v p n hn
    constructor
    · simp only [u64be, hn, ok_bind, length_ofNat]
      rfl
    · intro w hw
      rw [length_ofNat] at hw
      simp only [u64be, hn, ok_bind, w.assertAvailable_of hw]
      rfl
  have htaken : ∀ {v p n}, u64be.preencode v p = .ok n →
      ∃ m : ℕ, asU64 v "u64" = .ok m ∧ m < 256 ^ 8 ∧ toBigint v = .bigint m := by
    intro v p n h
    simp only [u64be, bind_eq_ok] at h
    obtain ⟨m, hm, -⟩ := h
    refine ⟨m, hm, ?_⟩
    cases v with
    | number k | bigint k =>
      simp only [asU64, isSafeInteger, decide_eq_true_eq] at hm
      split_ifs at hm with hk
      cases hm
      refine ⟨by omega, ?_⟩
      show Value.bigint k = .bigint k.toNat
      congr 1
      omega
    | _ => cases hm
  have hread : ∀ {p input v rest}, u64be.decode p input = .ok (v, rest) →
      ∃ b, input = b ++ rest ∧ b.length = 8 ∧ v = .bigint (toNat b) := by
    intro p input v rest h
    simp only [u64be, guards_eq_ok, Prod.mk.injEq] at h
    obtain ⟨⟨b, rest'⟩, hb, rfl, rfl⟩ := h
    obtain ⟨rfl, hlength⟩ := readBytes_eq_ok.mp hb
    exact ⟨b, rfl, hlength, rfl⟩
  refine ⟨?_, ?_, ?_, ?_, by rintro ⟨⟩⟩
  · intro v p n h
    obtain ⟨m, hm, hlt, hnormal⟩ := htaken h
    refine ⟨_, hwrites hm, fun p' _ => ⟨fun _ => ?_, by rintro ⟨⟩⟩⟩
    have h := hreads (p := p') (length_ofNat 8 m)
    rw [toNat_ofNat hlt] at h
    rw [show Shape.u64be.normal v = .bigint m from hnormal]
    exact h
  · intro p input v rest h
    obtain ⟨b, rfl, hlength, rfl⟩ := hread h
    refine ⟨b, rfl, hreads hlength, fun p' _ => ?_⟩
    have hlt := toNat_lt b
    rw [hlength] at hlt
    have hn : asU64 (.bigint (toNat b)) "u64" = .ok (toNat b) := by
      rw [asU64, if_pos (by omega), Int.toNat_natCast]
    have h := hwrites (p := p') hn
    rwa [← hlength, ofNat_toNat] at h
  · intro v p n k h hk
    cases v with
    | number j | bigint j => exact hk
    | _ => cases hk
  · intro _ p input v rest h
    obtain ⟨b, -, -, rfl⟩ := hread h
    rfl

theorem lawful_compactUint : (Shape.plain compactUint true).Lawful := by
  have hreads : ∀ {p : Value} {n : ℕ}, n ≤ maxSafeInteger → Reads compactUint p (compactWritten n) (.number n) := by
    intro p n hn rest
    simp only [compactUint, decodeCompact_written hn, ok_bind]
    rfl
  have hread : ∀ {p input v rest}, compactUint.decode p input = .ok (v, rest) →
      ∃ n : ℕ, n ≤ maxSafeInteger ∧ input = compactWritten n ++ rest ∧ v = .number n := by
    intro p input v rest h
    simp only [compactUint, guards_eq_ok, Prod.mk.injEq] at h
    obtain ⟨⟨n, rest'⟩, h, rfl, rfl⟩ := h
    obtain ⟨hn, rfl⟩ := eq_written_of_decodeCompact h
    exact ⟨n, hn, rfl, rfl⟩
  refine ⟨?_, ?_, ?_, ?_, ?_⟩
  · intro v p n h
    simp only [Shape.plain, compactUint, bind_eq_ok] at h
    obtain ⟨m, h, -⟩ := h
    obtain ⟨rfl, hm⟩ := (assertUnsignedNumber_eq_ok le_rfl).mp h
    exact ⟨_, writes_compactUint hm, fun p' _ => ⟨fun _ => hreads hm, by rintro ⟨⟩⟩⟩
  · intro p input v rest h
    obtain ⟨n, hn, rfl, rfl⟩ := hread h
    exact ⟨_, rfl, hreads hn, fun p' _ => writes_compactUint hn⟩
  · intro v p n k _ hk
    exact hk
  · intro _ p input v rest h
    obtain ⟨n, -, -, rfl⟩ := hread h
    rfl
  · intro _ p input v rest h
    obtain ⟨n, -, -, rfl⟩ := hread h
    exact ⟨_, rfl⟩

variable {s : Shape}

theorem lawful_bytes (length : Value → Except String ℕ)
    (hpre : ∀ v p n, s.encoding.preencode v p = .ok n ↔ ∃ b, v = .bytes b ∧ length p = .ok b.length ∧ n = b.length)
    (hencode : ∀ b p w, length p = .ok b.length → w.written.length + b.length ≤ w.size →
      s.encoding.encode (.bytes b) p w = .ok (w.put b))
    (hdecode : ∀ p input v rest, s.encoding.decode p input = .ok (v, rest) ↔
      ∃ b, input = b ++ rest ∧ length p = .ok b.length ∧ v = .bytes b)
    (hsame : ∀ p p' n, SameClasses s.classes p p' → length p = .ok n → length p' = .ok n)
    (hnormal : s.normal = id) (haccepts : s.accepts = fun _ => true) (hnumber : s.isNumber = false) :
    s.Lawful := by
  have hwrites : ∀ {b p}, length p = .ok b.length → Writes s.encoding (.bytes b) p b :=
    fun h => ⟨(hpre _ _ _).mpr ⟨_, rfl, h, rfl⟩, fun w hw => hencode _ _ w h hw⟩
  have hreads : ∀ {b p}, length p = .ok b.length → Reads s.encoding p b (.bytes b) :=
    fun h rest => (hdecode _ _ _ _).mpr ⟨_, rfl, h, rfl⟩
  refine ⟨?_, ?_, ?_, ?_, ?_⟩
  · intro v p n h
    obtain ⟨b, rfl, hlength, -⟩ := (hpre _ _ _).mp h
    refine ⟨b, hwrites hlength, fun p' hp' => ⟨fun _ => ?_, fun h => ?_⟩⟩
    · rw [hnormal]
      exact hreads (hsame p p' _ hp' hlength)
    · rw [haccepts] at h
      cases h
  · intro p input v rest h
    obtain ⟨b, rfl, hlength, rfl⟩ := (hdecode _ _ _ _).mp h
    exact ⟨b, rfl, hreads hlength, fun p' hp' => hwrites (hsame p p' _ hp' hlength)⟩
  · intro v p n k _ hk
    rwa [hnormal]
  · intro _ p input v rest h
    obtain ⟨b, -, -, rfl⟩ := (hdecode _ _ _ _).mp h
    rfl
  · intro h
    rw [hnumber] at h
    cases h

theorem lawful_fixedBytes (length : ℕ) (name : String) : (Shape.plain (fixedBytes length name) false).Lawful := by
  refine lawful_bytes (fun _ => .ok length) ?_ ?_ ?_ (fun _ _ _ _ h => h) rfl rfl rfl
  · intro v p n
    simp only [Shape.plain, fixedBytes, guards_eq_ok, asBuffer_eq_ok, Except.ok.injEq]
    grind
  · intro b p w hlength hw
    cases hlength
    simp only [Shape.plain, fixedBytes, asBuffer, ok_bind, w.assertAvailable_of hw]
    rfl
  · intro p input v rest
    simp only [Shape.plain, fixedBytes, guards_eq_ok, Prod.mk.injEq, Prod.exists, readBytes_eq_ok, Except.ok.injEq]
    grind

theorem lawful_exactBytesByClass (classField : String) (classLengths : List (ℤ × ℕ))
    (name : String) : (Shape.exactBytesByClass classField classLengths name).Lawful := by
  refine lawful_bytes (selectedLength classField classLengths name) ?_ ?_ ?_ ?_ rfl rfl rfl
  · intro v p n
    simp only [Shape.exactBytesByClass, Shape.plain, exactBytesByClass, guards_eq_ok, asBuffer_eq_ok]
    grind
  · intro b p w hlength hw
    simp only [Shape.exactBytesByClass, Shape.plain, exactBytesByClass, asBuffer, ok_bind,
      hlength, w.assertAvailable_of hw]
    rfl
  · intro p input v rest
    simp only [Shape.exactBytesByClass, Shape.plain, exactBytesByClass, guards_eq_ok, Prod.mk.injEq, Prod.exists,
      readBytes_eq_ok]
    grind
  · intro p p' n hp' h
    simp only [selectedLength, demand_eq_ok, Option.filter_eq_some_iff, Option.bind_eq_some_iff] at h ⊢
    obtain ⟨⟨k, hk, hn⟩, hsafe⟩ := h
    exact ⟨⟨k, hp' classField (mem_singleton_self _) k hk, hn⟩, hsafe⟩

theorem lawful_boundedBytes (minimum maximum : ℕ) (name : String) :
    (Shape.plain (boundedBytes minimum maximum name) false).Lawful := by
  have hwrites : ∀ {b : Bytes} {p : Value}, ¬ (b.length < minimum ∨ b.length > maximum) → b.length ≤ maxSafeInteger →
      Writes (boundedBytes minimum maximum name) (.bytes b) p (compactWritten b.length ++ b) := by
    intro b p hrange hsafe
    obtain ⟨hpre, hencode⟩ := writes_compactUint (p := .undefined) hsafe
    constructor
    · simp only [boundedBytes, asBuffer, ok_bind, require_of hrange, hpre, length_append]
      rfl
    · intro w hw
      rw [length_append] at hw
      simp only [boundedBytes, asBuffer, ok_bind, require_of hrange, hencode w (by omega)]
      rw [Writer.assertAvailable_of (by simp only [Writer.put, length_append]; omega),
        ok_bind, Writer.put_put]
      rfl
  have hreads : ∀ {b : Bytes} {p : Value}, ¬ (b.length < minimum ∨ b.length > maximum) → b.length ≤ maxSafeInteger →
      Reads (boundedBytes minimum maximum name) p (compactWritten b.length ++ b) (.bytes b) := by
    intro b p hrange hsafe rest
    simp only [boundedBytes, append_assoc, decodeCompact_written hsafe, ok_bind,
      require_of hrange, readBytes_eq_ok.mpr ⟨rfl, rfl⟩]
    rfl
  have hread : ∀ {p input v rest}, (boundedBytes minimum maximum name).decode p input = .ok (v, rest) →
      ∃ b : Bytes, input = compactWritten b.length ++ b ++ rest ∧ v = .bytes b ∧
        ¬ (b.length < minimum ∨ b.length > maximum) ∧ b.length ≤ maxSafeInteger := by
    intro p input v rest h
    simp only [boundedBytes, guards_eq_ok, Prod.mk.injEq, Prod.exists] at h
    obtain ⟨n, rest₁, hn, hrange, b, rest₂, hb, rfl, rfl⟩ := h
    obtain ⟨hsafe, rfl⟩ := eq_written_of_decodeCompact hn
    obtain ⟨rfl, rfl⟩ := readBytes_eq_ok.mp hb
    exact ⟨b, (append_assoc _ _ _).symm, rfl, hrange, hsafe⟩
  refine ⟨?_, ?_, ?_, ?_, by rintro ⟨⟩⟩
  · intro v p n h
    simp only [Shape.plain, boundedBytes, compactUint, guards_eq_ok, asBuffer_eq_ok] at h
    obtain ⟨b, rfl, hrange, _, ⟨m, hm, -⟩, -⟩ := h
    obtain ⟨hb, hsafe⟩ := (assertUnsignedNumber_eq_ok le_rfl).mp hm
    obtain rfl : b.length = m := by simpa using hb
    exact ⟨_, hwrites hrange hsafe, fun p' _ => ⟨fun _ => hreads hrange hsafe, by rintro ⟨⟩⟩⟩
  · intro p input v rest h
    obtain ⟨b, rfl, rfl, hrange, hsafe⟩ := hread h
    exact ⟨_, rfl, hreads hrange hsafe, fun p' _ => hwrites hrange hsafe⟩
  · intro v p n k _ hk
    exact hk
  · intro _ p input v rest h
    obtain ⟨b, -, rfl, -⟩ := hread h
    rfl

/-! ### The combinators -/

theorem eq_cons_of_u8_decode (h : u8.decode p input = .ok (v, rest)) :
    ∃ t : UInt8, input = t :: rest ∧ v = .number t.toNat := by
  simp only [u8, fixedUnsigned, bind_eq_ok, Prod.exists, readBytes_eq_ok] at h
  obtain ⟨b, rest', ⟨rfl, hlength⟩, h⟩ := h
  obtain ⟨t, rfl⟩ := length_eq_one_iff.mp hlength
  have h : (Value.number (toNat [t]), rest') = (v, rest) := pure_eq_ok_iff.mp h
  cases h
  exact ⟨t, rfl, by simp [Bytes.toNat]⟩

theorem writes_u8 (t : UInt8) : Writes u8 (.number t.toNat) p [t] := by
  have hlt := t.toNat_lt
  have hn : assertUnsignedNumber (.number t.toNat) 0xff "u8" = .ok t.toNat :=
    (assertUnsignedNumber_eq_ok (by decide)).mpr ⟨rfl, by omega⟩
  have hb : ofNat 1 t.toNat = [t] := by
    simp [ofNat, Nat.mod_eq_of_lt hlt]
  refine ⟨?_, fun w hw => ?_⟩
  · simp only [u8, fixedUnsigned, hn, ok_bind]
    rfl
  · rw [length_singleton] at hw
    simp only [u8, fixedUnsigned, hn, ok_bind, w.assertAvailable_of hw, hb]
    rfl

theorem writes_u8_zero : Writes u8 (.number 0) p [0] := writes_u8 0

theorem writes_u8_one : Writes u8 (.number 1) p [1] := writes_u8 1

theorem isNullish_of_key? {k : ℤ} (h : v.key? = some k) : v.isNullish = false := by
  cases v <;> first | rfl | cases h

theorem compared?_of_key? {k : ℤ} (h : v.key? = some k) : v.compared? = some k := by
  cases v <;> first | exact h | cases h

theorem lawful_optional (hs : s.Lawful) (hoptional : s.isOptional = false)
    (name : String) : (s.optional name).Lawful := by
  have hnull : ∀ {v p}, v.isNullish = true → Writes (optional s.encoding name) v p [0] := by
    intro v p hv
    constructor
    · simp only [optional, hv, if_true, writes_u8_zero.1, ok_bind]
      rfl
    · intro w hw
      simp only [optional, hv, if_true, writes_u8_zero.2 w hw, ok_bind]
      rfl
  have hsome : ∀ {v p b}, v.isNullish = false → Writes s.encoding v .undefined b →
      Writes (optional s.encoding name) v p (1 :: b) := by
    intro v p b hv hb
    constructor
    · simp only [optional, hv, Bool.false_eq_true, if_false, writes_u8_one.1, ok_bind, hb.1]
      rw [length_cons, Nat.add_comm]
      rfl
    · intro w hw
      rw [length_cons] at hw
      simp only [optional, hv, Bool.false_eq_true, if_false,
        writes_u8_one.2 w (by simp only [length_singleton]; omega), ok_bind]
      rw [hb.2 _ (by simp only [Writer.put, length_append, length_singleton]; omega), Writer.put_put]
      rfl
  have hzero : ∀ {p rest}, (optional s.encoding name).decode p (0 :: rest) = .ok (.null, rest) := by
    intro p rest
    rfl
  refine ⟨?_, ?_, ?_, nofun, nofun⟩
  · intro v p n h
    simp only [Shape.optional] at h ⊢
    cases hv : v.isNullish with
    | true =>
      refine ⟨[0], hnull hv, fun p' _ => ⟨fun _ rest => ?_, ?_⟩⟩
      · rw [singleton_append, hzero, if_pos rfl]
      · simp
    | false =>
      simp only [optional, hv, Bool.false_eq_true, if_false, writes_u8_one.1, ok_bind, bind_eq_ok] at h
      obtain ⟨m, hm, -⟩ := h
      obtain ⟨b, hb, hback⟩ := hs.encodes hm
      refine ⟨1 :: b, hsome hv hb, fun p' _ => ?_⟩
      obtain ⟨hreads, hrefuses⟩ := hback .undefined fun _ _ _ hk => hk
      refine ⟨fun h rest => ?_, fun h rest => ?_⟩
      · exact hreads h rest
      · exact hrefuses h rest
  · intro p input v rest h
    have h' := h
    simp only [Shape.optional, optional, bind_eq_ok, Prod.exists] at h'
    obtain ⟨tag, rest₁, htag, h'⟩ := h'
    obtain ⟨t, rfl, rfl⟩ := eq_cons_of_u8_decode htag
    split at h'
    · rename_i ht
      have ht : t = 0 := UInt8.toNat_inj.mp (by simpa using ht)
      subst ht
      obtain ⟨rfl, rfl⟩ : Value.null = v ∧ rest₁ = rest := by simpa using h'
      exact ⟨[0], rfl, fun rest => hzero, fun p' _ => hnull rfl⟩
    · rename_i ht
      have ht : t = 1 := UInt8.toNat_inj.mp (by simpa using ht)
      subst ht
      obtain ⟨b, rfl, hreads, hwrites⟩ := hs.decodes h'
      refine ⟨1 :: b, rfl, fun rest' => ?_, fun p' _ => ?_⟩
      · show (optional s.encoding name).decode p (1 :: (b ++ rest')) = _
        exact hreads rest'
      · exact hsome (hs.nullish hoptional h') (hwrites .undefined fun _ _ _ hk => hk)
    · cases h'
  · intro v p n k h hk
    have hv := isNullish_of_key? hk
    simp only [Shape.optional, optional, hv, Bool.false_eq_true, if_false, writes_u8_one.1,
      ok_bind, bind_eq_ok] at h ⊢
    obtain ⟨m, hm, -⟩ := h
    exact hs.key hm hk

theorem Scalar.strictEquals_eq_true {expected : Scalar} : expected.strictEquals v = true ↔ v = expected.value := by
  cases expected <;> cases v <;> simp [Scalar.strictEquals, Scalar.value] <;> exact eq_comm

theorem lawful_constant (hs : s.Lawful) {expected : Scalar}
    (hexpected : s.normal expected.value = expected.value) (name : String) :
    (s.constant expected name).Lawful := by
  have hwrites : ∀ {v p b}, assertConstant v expected name = .ok () → Writes s.encoding expected.value .undefined b →
      Writes (constant s.encoding expected name) v p b := by
    intro v p b hv hb
    refine ⟨?_, fun w hw => ?_⟩
    · simp only [constant, hv, ok_bind]
      exact hb.1
    · simp only [constant, hv, ok_bind]
      exact hb.2 w hw
  have hread : ∀ {p input v rest}, (constant s.encoding expected name).decode p input = .ok (v, rest) →
      s.encoding.decode .undefined input = .ok (v, rest) ∧ v = expected.value := by
    intro p input v rest h
    simp only [constant, guards_eq_ok, Prod.exists, Prod.mk.injEq, Scalar.strictEquals_eq_true] at h
    obtain ⟨v', rest', h, rfl, rfl, rfl⟩ := h
    exact ⟨h, rfl⟩
  refine ⟨?_, ?_, ?_, ?_, ?_⟩
  · intro v p n h
    simp only [Shape.constant, constant, bind_eq_ok] at h
    obtain ⟨⟨⟩, hv, h⟩ := h
    obtain ⟨b, hb, hback⟩ := hs.encodes h
    obtain ⟨hreads, hrefuses⟩ := hback .undefined fun _ _ _ hk => hk
    refine ⟨b, hwrites hv hb, fun p' _ => ⟨fun haccepts rest => ?_, fun haccepts rest => ?_⟩⟩
    · have h := hreads haccepts rest
      rw [hexpected] at h
      simp only [Shape.constant, constant, h, ok_bind]
      rw [require_of (Scalar.strictEquals_eq_true.mpr rfl)]
      rfl
    · obtain ⟨error, h⟩ := hrefuses haccepts rest
      exact ⟨error, by simp only [Shape.constant, constant, h, error_bind]⟩
  · intro p input v rest h
    obtain ⟨h, rfl⟩ := hread h
    obtain ⟨b, rfl, hreads, hb⟩ := hs.decodes h
    refine ⟨b, rfl, fun rest' => ?_, fun p' _ => ?_⟩
    · simp only [Shape.constant, constant, hreads rest', ok_bind]
      rw [require_of (Scalar.strictEquals_eq_true.mpr rfl)]
      rfl
    · exact hwrites (require_of (.inr (Scalar.strictEquals_eq_true.mpr rfl))) (hb .undefined fun _ _ _ hk => hk)
  · intro v p n k h hk
    simp only [Shape.constant, constant, guards_eq_ok, assertConstant] at h
    obtain ⟨hv | hv, -⟩ := h
    · rw [isNullish_of_key? hk] at hv
      cases hv
    · rw [Scalar.strictEquals_eq_true] at hv
      exact hv ▸ hk
  · intro _ p input v rest h
    obtain ⟨-, rfl⟩ := hread h
    cases expected <;> rfl
  · intro hnumber p input v rest h
    obtain ⟨-, rfl⟩ := hread h
    cases expected with
    | number n => exact ⟨n, rfl⟩
    | bigint n => cases hnumber

theorem lawful_ranged (hs : s.Lawful) (hnumber : s.isNumber = true)
    (minimum maximum : ℤ) (name : String) : (s.ranged minimum maximum name).Lawful := by
  have hranged : ∀ {v}, assertRanged v minimum maximum name = .ok () ↔
      ∃ n, v = .number n ∧ ¬ (n < minimum ∨ n > maximum) := by
    intro v
    cases v <;> simp [assertRanged]
  have hwrites : ∀ {v p b}, assertRanged v minimum maximum name = .ok () →
      Writes s.encoding v .undefined b → Writes (ranged s.encoding minimum maximum name) v p b := by
    intro v p b hv hb
    refine ⟨?_, fun w hw => ?_⟩
    · simp only [ranged, hv, ok_bind]
      exact hb.1
    · simp only [ranged, hv, ok_bind]
      exact hb.2 w hw
  have hreads : ∀ {v p b k}, v.key? = some k → ¬ (k < minimum ∨ k > maximum) →
      Reads s.encoding .undefined b v → Reads (ranged s.encoding minimum maximum name) p b v := by
    intro v p b k hk hrange hb rest
    simp only [ranged, hb rest, ok_bind]
    rw [require_of (by rw [compared?_of_key? hk]; rintro _ ⟨⟩; exact hrange)]
    rfl
  have hread : ∀ {p input v rest}, (ranged s.encoding minimum maximum name).decode p input = .ok (v, rest) →
      s.encoding.decode .undefined input = .ok (v, rest) ∧ ∃ n, v = .number n ∧ ¬ (n < minimum ∨ n > maximum) := by
    intro p input v rest h
    simp only [ranged, guards_eq_ok, Prod.exists, Prod.mk.injEq] at h
    obtain ⟨v', rest', h, hrange, rfl, rfl⟩ := h
    obtain ⟨n, rfl⟩ := hs.number hnumber h
    exact ⟨h, n, rfl, hrange n rfl⟩
  refine ⟨?_, ?_, ?_, ?_, ?_⟩
  · intro v p n h
    simp only [Shape.ranged, ranged, bind_eq_ok] at h
    obtain ⟨⟨⟩, hv, h⟩ := h
    obtain ⟨k, rfl, hrange⟩ := hranged.mp hv
    obtain ⟨b, hb, hback⟩ := hs.encodes h
    obtain ⟨hb', hrefuses⟩ := hback .undefined fun _ _ _ hk => hk
    refine ⟨b, hwrites hv hb, fun p' _ => ⟨fun haccepts => ?_, fun haccepts rest => ?_⟩⟩
    · exact hreads (hs.key h rfl) hrange (hb' haccepts)
    · obtain ⟨error, h⟩ := hrefuses haccepts rest
      exact ⟨error, by simp only [Shape.ranged, ranged, h, error_bind]⟩
  · intro p input v rest h
    obtain ⟨h, n, rfl, hrange⟩ := hread h
    obtain ⟨b, rfl, hb, hb'⟩ := hs.decodes h
    refine ⟨b, rfl, hreads rfl hrange hb, fun p' _ => ?_⟩
    exact hwrites (hranged.mpr ⟨n, rfl, hrange⟩) (hb' .undefined fun _ _ _ hk => hk)
  · intro v p n k h hk
    simp only [Shape.ranged, ranged, bind_eq_ok] at h
    obtain ⟨-, -, h⟩ := h
    exact hs.key h hk
  · intro _ p input v rest h
    obtain ⟨-, n, rfl, -⟩ := hread h
    rfl
  · intro _ p input v rest h
    obtain ⟨-, n, rfl, -⟩ := hread h
    exact ⟨n, rfl⟩

/-! ### Arrays -/

variable {values : List Value}

theorem countedArray_eq_ok {minimum : ℕ} : countedArray v minimum maximum name = .ok values ↔ v = .array values ∧
      values.length ≤ maxArrayLength ∧ ¬ (values.length < minimum ∨ values.length > maximum) := by
  cases v with
  | array values' =>
    simp only [countedArray, Value.array.injEq]
    constructor
    · intro h
      split_ifs at h with hcount
      cases h
      exact ⟨rfl, hcount⟩
    · rintro ⟨rfl, hcount⟩
      rw [if_pos hcount]
  | _ => simp [countedArray]

theorem elements_encode (hs : s.Lawful) (h : preencodeAll s.encoding values = .ok n) : ∃ b : Bytes, b.length = n ∧
      (∀ w : Writer, w.written.length + b.length ≤ w.size → encodeAll s.encoding values w = .ok (w.put b)) ∧
      (values.all s.accepts = true → ∀ rest,
        decodeAll s.encoding values.length (b ++ rest) = .ok (values.map s.normal, rest)) ∧
      (values.all s.accepts = false → ∀ rest, ∃ error,
        decodeAll s.encoding values.length (b ++ rest) = .error error) := by
  induction values generalizing n with
  | nil =>
    obtain rfl : 0 = n := pure_eq_ok_iff.mp h
    exact ⟨[], rfl, fun w _ => by simp [encodeAll, Writer.put, pure, Except.pure], fun _ _ => rfl, nofun⟩
  | cons value values ih =>
    simp only [preencodeAll, guards_eq_ok] at h
    obtain ⟨k, hk, m, hm, rfl⟩ := h
    obtain ⟨b, hb, hback⟩ := hs.encodes hk
    obtain ⟨hreads, hrefuses⟩ := hback .undefined fun _ _ _ hk => hk
    obtain ⟨c, rfl, hc, hcreads, hcrefuses⟩ := ih hm
    have hlength : b.length = k := Except.ok.inj (hb.1.symm.trans hk)
    refine ⟨b ++ c, by rw [length_append, hlength], fun w hw => ?_, fun h rest => ?_, fun h rest => ?_⟩
    · rw [length_append] at hw
      rw [encodeAll, hb.2 w (by omega), ok_bind,
        hc _ (by simp only [Writer.put, length_append]; omega), Writer.put_put]
    · rw [all_cons, Bool.and_eq_true] at h
      rw [append_assoc, length_cons, decodeAll, hreads h.1, ok_bind]
      simp only [hcreads h.2, ok_bind]
      rfl
    · rw [append_assoc, length_cons, decodeAll]
      cases hvalue : s.accepts value with
      | false =>
        obtain ⟨error, herror⟩ := hrefuses hvalue (c ++ rest)
        exact ⟨error, by rw [herror, error_bind]⟩
      | true =>
        rw [all_cons, hvalue, Bool.true_and] at h
        obtain ⟨error, herror⟩ := hcrefuses h rest
        exact ⟨error, by rw [hreads hvalue, ok_bind]; simp only [herror, error_bind]⟩

theorem elements_decode (hs : s.Lawful) {count : ℕ} (h : decodeAll s.encoding count input = .ok (values, rest)) :
    ∃ b : Bytes, input = b ++ rest ∧ values.length = count ∧
      (∀ rest', decodeAll s.encoding count (b ++ rest') = .ok (values, rest')) ∧
      preencodeAll s.encoding values = .ok b.length ∧
      ∀ w : Writer, w.written.length + b.length ≤ w.size → encodeAll s.encoding values w = .ok (w.put b) := by
  induction count generalizing input values with
  | zero =>
    obtain ⟨rfl, rfl⟩ : [] = values ∧ input = rest := by simpa [decodeAll] using h
    exact ⟨[], rfl, rfl, fun _ => rfl, rfl, fun w _ => by
      simp [encodeAll, Writer.put, pure, Except.pure]⟩
  | succ count ih =>
    simp only [decodeAll, guards_eq_ok, Prod.exists, Prod.mk.injEq] at h
    obtain ⟨value, rest₁, hvalue, values, rest₂, hvalues, rfl, rfl⟩ := h
    obtain ⟨b, rfl, hreads, hwrites⟩ := hs.decodes hvalue
    obtain ⟨c, rfl, hlength, hcreads, hcpre, hcwrites⟩ := ih hvalues
    obtain ⟨hpre, hencode⟩ := hwrites .undefined fun _ _ _ hk => hk
    refine ⟨b ++ c, (append_assoc _ _ _).symm, by rw [length_cons, hlength],
      fun rest' => ?_, ?_, fun w hw => ?_⟩
    · rw [append_assoc, decodeAll, hreads, ok_bind]
      simp only [hcreads, ok_bind]
      rfl
    · rw [preencodeAll, hpre, ok_bind, hcpre, ok_bind, length_append]
      rfl
    · rw [length_append] at hw
      rw [encodeAll, hencode w (by omega), ok_bind,
        hcwrites _ (by simp only [Writer.put, length_append]; omega), Writer.put_put]

theorem lawful_arrayOf (hs : s.Lawful) (minimum maximum : ℕ) (name : String) :
    (s.arrayOf minimum maximum name).Lawful := by
  have hmax : maxArrayLength ≤ maxSafeInteger := by decide
  have hwrites : ∀ {values p b}, countedArray (.array values) minimum maximum name = .ok values →
      preencodeAll s.encoding values = .ok b.length →
      (∀ w : Writer, w.written.length + b.length ≤ w.size → encodeAll s.encoding values w = .ok (w.put b)) →
      Writes (arrayOf s.encoding minimum maximum name) (.array values) p (compactWritten values.length ++ b) := by
    intro values p b hcount hpre hencode
    have hlength := (countedArray_eq_ok.mp hcount).2.1
    obtain ⟨hcpre, hcencode⟩ := writes_compactUint (p := .undefined) (hlength.trans hmax)
    refine ⟨?_, fun w hw => ?_⟩
    · simp only [arrayOf, hcount, ok_bind, hcpre, hpre, length_append]
      rfl
    · rw [length_append] at hw
      simp only [arrayOf, hcount, ok_bind, hcencode w (by omega)]
      rw [hencode _ (by simp only [Writer.put, length_append]; omega), Writer.put_put]
  refine ⟨?_, ?_, ?_, ?_, nofun⟩
  · intro v p n h
    simp only [Shape.arrayOf, arrayOf, bind_eq_ok] at h
    obtain ⟨values, hcount, k, -, m, hm, -⟩ := h
    obtain ⟨rfl, hlength, hrange⟩ := countedArray_eq_ok.mp hcount
    obtain ⟨b, rfl, hencode, hreads, hrefuses⟩ := elements_encode hs hm
    refine ⟨_, hwrites hcount hm hencode, fun p' _ => ⟨fun haccepts rest => ?_, fun haccepts rest => ?_⟩⟩
    · simp only [Shape.arrayOf, arrayOf, append_assoc,
        decodeCompact_written (hlength.trans hmax), ok_bind, require_of hrange,
        require_of hlength, hreads haccepts]
      rfl
    · obtain ⟨error, herror⟩ := hrefuses haccepts rest
      refine ⟨error, ?_⟩
      simp only [Shape.arrayOf, arrayOf, append_assoc,
        decodeCompact_written (hlength.trans hmax), ok_bind, require_of hrange,
        require_of hlength, herror, error_bind]
  · intro p input v rest h
    simp only [Shape.arrayOf, arrayOf, guards_eq_ok, Prod.exists, Prod.mk.injEq] at h
    obtain ⟨count, rest₁, hcount, hrange, hlength, values, rest₂, hvalues, rfl, rfl⟩ := h
    obtain ⟨hsafe, rfl⟩ := eq_written_of_decodeCompact hcount
    obtain ⟨b, rfl, rfl, hreads, hpre, hencode⟩ := elements_decode hs hvalues
    refine ⟨compactWritten values.length ++ b, (append_assoc _ _ _).symm, fun rest' => ?_,
      fun p' _ => hwrites (countedArray_eq_ok.mpr ⟨rfl, hlength, hrange⟩) hpre hencode⟩
    simp only [Shape.arrayOf, arrayOf, append_assoc, decodeCompact_written hsafe,
      ok_bind, require_of hrange, require_of hlength, hreads]
    rfl
  · intro v p n k h hk
    simp only [Shape.arrayOf, arrayOf, bind_eq_ok] at h
    obtain ⟨values, hcount, -⟩ := h
    obtain ⟨rfl, -⟩ := countedArray_eq_ok.mp hcount
    cases hk
  · intro _ p input v rest h
    simp only [Shape.arrayOf, arrayOf, guards_eq_ok, Prod.exists, Prod.mk.injEq] at h
    obtain ⟨-, -, -, -, -, values, -, -, rfl, -⟩ := h
    rfl

/-! ### Structs -/

variable {object : List (String × Value)}

theorem setProperty_of_lookup_eq_none (h : object.lookup name = none) :
    setProperty object name v = object ++ [(name, v)] := by
  have hany : object.any (·.1 == name) = false := by
    rw [any_eq_false]
    intro field hfield hname
    have hne := lookup_eq_none_iff.mp h field hfield
    rw [beq_iff_eq.mp hname, bne_self_eq_false] at hne
    cases hne
  rw [setProperty, hany]
  rfl

theorem lookup_concat (h : object.lookup name = none) (f : String) (x : Value) :
    (object ++ [(name, x)]).lookup f = if f = name then some x else object.lookup f := by
  rw [lookup_append]
  by_cases hf : f = name
  · subst hf
    simp [h]
  · simp [hf, lookup_cons, beq_eq_false_iff_ne.mpr hf]

variable {seen : List String}

theorem lookup_concat_eq_none
    (hseen : ∀ name ∉ seen, object.lookup name = none) (hname : name ∉ seen) {f : String} {x : Value}
    (hf : f ∉ name :: seen) : (object ++ [(name, x)]).lookup f = none := by
  rw [mem_cons, not_or] at hf
  rw [lookup_concat (hseen name hname), if_neg hf.1]
  exact hseen f hf.2

variable {fields : List (String × Shape)}

/-- The fields of a struct, written one after the other. `object` is what has been decoded of it when
the fields before have been read. -/
theorem fields_encode (hs : ∀ field ∈ fields, field.2.Lawful) (hordered : FieldsOrdered seen fields)
    (hseen : ∀ name ∉ seen, object.lookup name = none) (hsame : SameClasses seen v (.object object))
    (h : preencodeFields v (fields.map fun field => (field.1, field.2.encoding)) = .ok n) :
    ∃ b : Bytes, b.length = n ∧ (∀ w : Writer, w.written.length + b.length ≤ w.size →
        encodeFields v (fields.map fun field => (field.1, field.2.encoding)) w = .ok (w.put b)) ∧
      ((fields.all fun field => field.2.accepts (v.property field.1)) = true → ∀ rest,
        decodeFields (fields.map fun field => (field.1, field.2.encoding)) object (b ++ rest) =
          .ok (object ++ Shape.normalFields fields v, rest)) ∧
      ((fields.all fun field => field.2.accepts (v.property field.1)) = false → ∀ rest, ∃ error,
        decodeFields (fields.map fun field => (field.1, field.2.encoding)) object (b ++ rest) = .error error) := by
  induction fields generalizing seen object n with
  | nil =>
    obtain rfl : 0 = n := pure_eq_ok_iff.mp h
    exact ⟨[], rfl, fun w _ => by simp [encodeFields, Writer.put, pure, Except.pure],
      fun _ _ => by simp [decodeFields, Shape.normalFields, pure, Except.pure], nofun⟩
  | cons field fields ih =>
    obtain ⟨name, s⟩ := field
    obtain ⟨hclasses, hname, hordered⟩ := hordered
    simp only [map_cons, preencodeFields, guards_eq_ok] at h
    obtain ⟨k, hk, m, hm, rfl⟩ := h
    have hlawful := hs _ mem_cons_self
    obtain ⟨b, hb, hback⟩ := hlawful.encodes hk
    obtain ⟨hreads, hrefuses⟩ := hback (.object object) fun f hf => hsame f (hclasses hf)
    have hnone := hseen name hname
    have hset : ∀ x, setProperty object name x = object ++ [(name, x)] := fun x =>
      setProperty_of_lookup_eq_none hnone
    -- the classes are still known when this field has been read
    have hsame' : SameClasses (name :: seen) v (.object (object ++ [(name, s.normal (v.property name))])) := by
      intro f hf j hj
      simp only [Value.property, lookup_concat hnone]
      split
      · rename_i hfn
        subst hfn
        exact hlawful.key hk hj
      · rename_i hfn
        exact hsame f ((mem_cons.mp hf).resolve_left hfn) j hj
    obtain ⟨c, rfl, hc, hcreads, hcrefuses⟩ :=
      ih (fun field hfield => hs field (mem_cons_of_mem _ hfield)) hordered
        (fun f hf => lookup_concat_eq_none hseen hname hf) hsame' hm
    have hlength : b.length = k := Except.ok.inj (hb.1.symm.trans hk)
    refine ⟨b ++ c, by rw [length_append, hlength], fun w hw => ?_, fun h rest => ?_, fun h rest => ?_⟩
    · rw [length_append] at hw
      rw [map_cons, encodeFields, hb.2 w (by omega), ok_bind,
        hc _ (by simp only [Writer.put, length_append]; omega), Writer.put_put]
    · rw [all_cons, Bool.and_eq_true] at h
      rw [append_assoc, map_cons, decodeFields, hreads h.1, ok_bind]
      simp only [hset, hcreads h.2]
      simp [Shape.normalFields]
    · rw [append_assoc, map_cons, decodeFields]
      cases hvalue : s.accepts (v.property name) with
      | false =>
        obtain ⟨error, herror⟩ := hrefuses hvalue (c ++ rest)
        exact ⟨error, by rw [herror, error_bind]⟩
      | true =>
        rw [all_cons, hvalue, Bool.true_and] at h
        obtain ⟨error, herror⟩ := hcrefuses h rest
        exact ⟨error, by rw [hreads hvalue, ok_bind]; simp only [hset, herror]⟩

theorem fields_decode (hs : ∀ field ∈ fields, field.2.Lawful) (hordered : FieldsOrdered seen fields)
    {object' : List (String × Value)} (hseen : ∀ name ∉ seen, object.lookup name = none)
    (h : decodeFields (fields.map fun field => (field.1, field.2.encoding)) object input = .ok (object', rest)) :
    ∃ b : Bytes, input = b ++ rest ∧ (∀ name ∈ seen, object'.lookup name = object.lookup name) ∧
      (∀ rest', decodeFields (fields.map fun field => (field.1, field.2.encoding)) object (b ++ rest') =
        .ok (object', rest')) ∧
      preencodeFields (.object object') (fields.map fun field => (field.1, field.2.encoding)) = .ok b.length ∧
      ∀ w : Writer, w.written.length + b.length ≤ w.size →
        encodeFields (.object object') (fields.map fun field => (field.1, field.2.encoding)) w = .ok (w.put b) := by
  induction fields generalizing seen object input with
  | nil =>
    obtain ⟨rfl, rfl⟩ : object = object' ∧ input = rest := by simpa [decodeFields] using h
    exact ⟨[], rfl, fun _ _ => rfl, fun _ => rfl, rfl, fun w _ => by
      simp [encodeFields, Writer.put, pure, Except.pure]⟩
  | cons field fields ih =>
    obtain ⟨name, s⟩ := field
    obtain ⟨hclasses, hname, hordered⟩ := hordered
    simp only [map_cons, decodeFields, bind_eq_ok, Prod.exists] at h
    obtain ⟨value, rest₁, hvalue, h⟩ := h
    have hnone := hseen name hname
    have hset : setProperty object name value = object ++ [(name, value)] :=
      setProperty_of_lookup_eq_none hnone
    rw [hset] at h
    obtain ⟨c, rfl, hkept, hcreads, hcpre, hcwrites⟩ :=
      ih (fun field hfield => hs field (mem_cons_of_mem _ hfield)) hordered
        (fun f hf => lookup_concat_eq_none hseen hname hf) h
    have hold : ∀ f ∈ seen, object'.lookup f = object.lookup f := by
      intro f hf
      have hne : f ≠ name := fun h => hname (h ▸ hf)
      rw [hkept f (mem_cons_of_mem _ hf), lookup_concat hnone, if_neg hne]
    obtain ⟨b, rfl, hreads, hwrites⟩ := (hs _ mem_cons_self).decodes hvalue
    -- the struct that is encoded again has the class fields the decoder saw
    obtain ⟨hpre, hencode⟩ := hwrites (.object object') fun f hf k hk => by
      simp only [Value.property, hold f (hclasses hf)] at hk ⊢
      exact hk
    have hproperty : (Value.object object').property name = value := by
      rw [Value.property, hkept name mem_cons_self, lookup_concat hnone, if_pos rfl, Option.getD_some]
    refine ⟨b ++ c, (append_assoc _ _ _).symm, hold, fun rest' => ?_, ?_, fun w hw => ?_⟩
    · rw [append_assoc, map_cons, decodeFields, hreads, ok_bind]
      simp only [hset, hcreads]
    · rw [map_cons, preencodeFields, hproperty, hpre, ok_bind, hcpre, ok_bind, length_append]
      rfl
    · rw [length_append] at hw
      rw [map_cons, encodeFields, hproperty, hencode w (by omega), ok_bind,
        hcwrites _ (by simp only [Writer.put, length_append]; omega), Writer.put_put]

theorem lawful_struct (hs : ∀ field ∈ fields, field.2.Lawful)
    (hordered : FieldsOrdered [] fields) (validate : Value → Except String Unit) (name : String) :
    (Shape.struct fields validate name).Lawful := by
  have hempty : ∀ name ∉ ([] : List String), ([] : List (String × Value)).lookup name = none :=
    fun _ _ => rfl
  refine ⟨?_, ?_, ?_, ?_, by rintro ⟨⟩⟩
  · intro v p n h
    simp only [Shape.struct, struct, guards_eq_ok] at h
    obtain ⟨hobject, n, hn, ⟨⟩, hvalidate, rfl⟩ := h
    obtain ⟨b, hlength, hencode, hreads, hrefuses⟩ :=
      fields_encode hs hordered hempty (fun _ h => by cases h) hn
    refine ⟨b, ⟨?_, fun w hw => ?_⟩, fun p' _ => ⟨fun haccepts rest => ?_, fun haccepts rest => ?_⟩⟩
    · simp only [Shape.struct, struct, require_of hobject, ok_bind, hn, hvalidate, hlength]
      rfl
    · simp only [Shape.struct, struct, require_of hobject, ok_bind, hencode w hw]
    · simp only [Shape.struct, Bool.and_eq_true] at haccepts
      simp only [Shape.struct, struct, hreads haccepts.1, ok_bind, nil_append]
      cases hnormal : validate (.object (Shape.normalFields fields v)) with
      | ok u => rfl
      | error error =>
        rw [hnormal] at haccepts
        cases haccepts.2
    · simp only [Shape.struct] at haccepts
      simp only [Shape.struct, struct]
      cases hfields : fields.all fun field => field.2.accepts (v.property field.1) with
      | false =>
        obtain ⟨error, herror⟩ := hrefuses hfields rest
        exact ⟨error, by rw [herror, error_bind]⟩
      | true =>
        rw [hfields, Bool.true_and] at haccepts
        simp only [hreads hfields, ok_bind, nil_append]
        cases hnormal : validate (.object (Shape.normalFields fields v)) with
        | ok u =>
          rw [hnormal] at haccepts
          cases haccepts
        | error error => exact ⟨error, rfl⟩
  · intro p input v rest h
    simp only [Shape.struct, struct, guards_eq_ok, Prod.exists, Prod.mk.injEq] at h
    obtain ⟨object, rest', hobject, ⟨⟩, hvalidate, rfl, rfl⟩ := h
    obtain ⟨b, rfl, -, hreads, hpre, hencode⟩ := fields_decode hs hordered hempty hobject
    refine ⟨b, rfl, fun rest' => ?_, fun p' _ => ⟨?_, fun w hw => ?_⟩⟩
    · simp only [Shape.struct, struct, hreads, ok_bind, hvalidate]
      rfl
    · simp only [Shape.struct, struct, hpre, ok_bind, hvalidate]
      rfl
    · simp only [Shape.struct, struct, hencode w hw]
      rfl
  · intro v p n k h hk
    simp only [Shape.struct, struct, guards_eq_ok] at h
    obtain ⟨hobject, -⟩ := h
    cases v <;> simp [Value.isObject, Value.key?] at hobject hk
  · intro _ p input v rest h
    simp only [Shape.struct, struct, guards_eq_ok, Prod.exists, Prod.mk.injEq] at h
    obtain ⟨object, -, -, -, -, rfl, -⟩ := h
    rfl

theorem Built.lawful (h : Built s) : s.Lawful := by
  induction h with
  | u8 | u16be | u32be => exact lawful_fixedUnsigned rfl (by decide)
  | u64be => exact lawful_u64be
  | compactUint => exact lawful_compactUint
  | fixedBytes length name => exact lawful_fixedBytes length name
  | exactBytesByClass classField classLengths name =>
    exact lawful_exactBytesByClass classField classLengths name
  | boundedBytes minimum maximum name => exact lawful_boundedBytes minimum maximum name
  | optional name _ hoptional ih => exact lawful_optional ih hoptional name
  | arrayOf minimum maximum name _ ih => exact lawful_arrayOf ih minimum maximum name
  | struct validate name _ hordered ih => exact lawful_struct ih hordered validate name
  | constant expected name _ hexpected ih => exact lawful_constant ih hexpected name
  | ranged minimum maximum name _ hnumber ih => exact lawful_ranged ih hnumber minimum maximum name

/-! ### Whole byte strings -/

variable {s : Shape}

theorem decodeCanonical_eq_ok : decodeCanonical e input = .ok v ↔ e.decode .undefined input = .ok (v, []) := by
  simp only [decodeCanonical, guards_eq_ok, Prod.exists]
  constructor
  · rintro ⟨v', rest, h, rfl, rfl⟩
    exact h
  · intro h
    exact ⟨v, [], h, rfl, rfl⟩

theorem decodeCanonical_error (h : ∀ v, decodeCanonical e input ≠ .ok v) :
    ∃ error, decodeCanonical e input = .error error := by
  cases hdecode : decodeCanonical e input with
  | ok v => exact absurd hdecode (h v)
  | error error => exact ⟨error, rfl⟩

theorem Writes.encodeCanonical (h : Writes e v .undefined b) : encodeCanonical e v = .ok b := by
  simp only [Codec.encodeCanonical, h.1, ok_bind, h.2 ⟨b.length, []⟩ (by simp), Writer.put, nil_append]
  rfl

theorem Shape.Lawful.encodeCanonical (hs : s.Lawful) (h : s.encoding.preencode v .undefined = .ok n) :
    ∃ b : Bytes, b.length = n ∧ Codec.encodeCanonical s.encoding v = .ok b ∧
      (s.accepts v = true → decodeCanonical s.encoding b = .ok (s.normal v)) ∧
      (s.accepts v = false → ∃ error, decodeCanonical s.encoding b = .error error) := by
  obtain ⟨b, hb, hback⟩ := hs.encodes h
  obtain ⟨hreads, hrefuses⟩ := hback .undefined fun _ _ _ hk => hk
  refine ⟨b, Except.ok.inj (hb.1.symm.trans h), hb.encodeCanonical, fun haccepts => ?_, fun haccepts => ?_⟩
  · have h := hreads haccepts []
    rw [append_nil] at h
    exact decodeCanonical_eq_ok.mpr h
  · obtain ⟨error, h⟩ := hrefuses haccepts []
    rw [append_nil] at h
    exact ⟨error, by rw [decodeCanonical, h, error_bind]⟩

theorem Shape.Lawful.decodeCanonical (hs : s.Lawful) (h : Codec.decodeCanonical s.encoding input = .ok v) :
    Codec.encodeCanonical s.encoding v = .ok input ∧ s.normal v = v := by
  obtain ⟨b, hinput, -, hwrites⟩ := hs.decodes (decodeCanonical_eq_ok.mp h)
  rw [append_nil] at hinput
  subst hinput
  have hwrites := hwrites .undefined fun _ _ _ hk => hk
  refine ⟨hwrites.encodeCanonical, ?_⟩
  -- decoding it once more gives the normal form of `v`, and gives `v`
  obtain ⟨c, -, hc, hreads, hrefuses⟩ := hs.encodeCanonical hwrites.1
  obtain rfl := Except.ok.inj (hwrites.encodeCanonical.symm.trans hc)
  cases haccepts : s.accepts v with
  | true => exact Except.ok.inj ((hreads haccepts).symm.trans h)
  | false =>
    obtain ⟨error, herror⟩ := hrefuses haccepts
    rw [h] at herror
    cases herror

theorem Shape.Lawful.prefix_free (hs : s.Lawful) {tail : Bytes} {v' : Value}
    (h : Codec.decodeCanonical s.encoding b = .ok v)
    (h' : Codec.decodeCanonical s.encoding (b ++ tail) = .ok v') : tail = [] := by
  obtain ⟨c, hc, hreads, -⟩ := hs.decodes (decodeCanonical_eq_ok.mp h)
  rw [append_nil] at hc
  subst hc
  have h' := decodeCanonical_eq_ok.mp h'
  rw [hreads tail] at h'
  exact (Prod.mk.inj (Except.ok.inj h')).2

/-- **The canonical codec.** For every encoding the combinators build: encoding a value fails in
`preencode`, or fills its allocation exactly with bytes that decode to the normal form of the value —
unless a validator refuses that; what is decoded is in normal form and encodes to the bytes it came
from, so that no value has two byte strings; and no beginning and no extension of an accepted byte
string is accepted. -/
theorem canonical_codec (h : Built s) : (∀ v, (∃ error, s.encoding.preencode v .undefined = .error error ∧
        encodeCanonical s.encoding v = .error error) ∨
      ∃ b : Bytes, s.encoding.preencode v .undefined = .ok b.length ∧ encodeCanonical s.encoding v = .ok b ∧
        (s.accepts v = true → decodeCanonical s.encoding b = .ok (s.normal v)) ∧
        (s.accepts v = false → ∃ error, decodeCanonical s.encoding b = .error error)) ∧
    (∀ b v, decodeCanonical s.encoding b = .ok v → encodeCanonical s.encoding v = .ok b ∧ s.normal v = v) ∧
    (∀ b b' v, decodeCanonical s.encoding b = .ok v → decodeCanonical s.encoding b' = .ok v → b = b') ∧
    ∀ b tail v, tail ≠ [] → (decodeCanonical s.encoding b = .ok v →
        ∃ error, decodeCanonical s.encoding (b ++ tail) = .error error) ∧
      (decodeCanonical s.encoding (b ++ tail) = .ok v → ∃ error, decodeCanonical s.encoding b = .error error) := by
  have hs := h.lawful
  refine ⟨fun v => ?_, fun b v hb => hs.decodeCanonical hb, fun b b' v hb hb' => ?_,
    fun b tail v htail => ⟨fun hb => ?_, fun hb => ?_⟩⟩
  · cases hpre : s.encoding.preencode v .undefined with
    | error error =>
      refine .inl ⟨error, rfl, ?_⟩
      rw [encodeCanonical, hpre, error_bind]
    | ok n =>
      obtain ⟨b, rfl, hb⟩ := hs.encodeCanonical hpre
      exact .inr ⟨b, rfl, hb⟩
  · have hencode := (hs.decodeCanonical hb).1
    rw [(hs.decodeCanonical hb').1] at hencode
    exact (Except.ok.inj hencode).symm
  · exact decodeCanonical_error fun v' hb' => htail (hs.prefix_free hb hb')
  · exact decodeCanonical_error fun v' hb' => htail (hs.prefix_free hb' hb)

/-- A struct with a size class, an amount, a version that may be left out and bytes of the class. -/
def sampleShape : Shape :=
  .struct [("sizeClass", (Shape.plain u8 true).ranged 1 2 "sizeClass"), ("amount", .u64be),
    ("version", (Shape.plain u8 true).constant (.number 7) "version"),
    ("tag", (Shape.plain (fixedBytes 1 "tag") false).optional "tag"),
    ("body", .exactBytesByClass "sizeClass" [(1, 1), (2, 3)] "body")] (fun _ => .ok ()) "sample"

theorem built_sampleShape : Built sampleShape := by
  refine .struct _ _ ?_ ?_
  · intro field hfield
    simp only [mem_cons, not_mem_nil, or_false] at hfield
    rcases hfield with rfl | rfl | rfl | rfl | rfl
    · exact .ranged 1 2 _ .u8 rfl
    · exact .u64be
    · exact .constant _ _ .u8 rfl
    · exact .optional _ (.fixedBytes 1 _) rfl
    · exact .exactBytesByClass _ _ _
  · simp [FieldsOrdered, Shape.ranged, Shape.u64be, Shape.constant, Shape.optional, Shape.plain,
      Shape.exactBytesByClass]

/-- An object of the sample, with an amount that is a number and without a version. -/
def sampleValue : Value :=
  .object [("body", .bytes [4, 5, 6]), ("sizeClass", .number 2), ("amount", .number 300)]

theorem sampleShape_canonical : ∃ b, encodeCanonical sampleShape.encoding sampleValue = .ok b ∧
      b = [2, 0, 0, 0, 0, 0, 0, 1, 44, 7, 0, 4, 5, 6] ∧
      decodeCanonical sampleShape.encoding b = .ok (.object [("sizeClass", .number 2),
        ("amount", .bigint 300), ("version", .number 7), ("tag", .null),
        ("body", .bytes [4, 5, 6])]) := by
  have hencode : encodeCanonical sampleShape.encoding sampleValue =
      .ok [2, 0, 0, 0, 0, 0, 0, 1, 44, 7, 0, 4, 5, 6] := by rfl
  rcases (canonical_codec built_sampleShape).1 sampleValue with ⟨error, -, herror⟩ | ⟨b, -, hb, hback, -⟩
  · rw [hencode] at herror
    cases herror
  · rw [hencode] at hb
    cases hb
    exact ⟨_, hencode, rfl, hback rfl⟩

/-- Where the laws need their restrictions. A constant that is left out, an absent optional value and
an undeclared field come back otherwise than they were given; a constant that is not of the kind its
encoding decodes to is encoded and not decoded; a range of 64-bit integers is decoded and not encoded;
and with two fields of one name what is decoded encodes to other bytes. -/
theorem unrestricted_codec_fails : (encodeCanonical (constant u8 (.number 5) "version") .undefined = .ok [5] ∧
      decodeCanonical (constant u8 (.number 5) "version") [5] = .ok (.number 5) ∧
      toBigint .undefined ≠ toBigint (.number 5)) ∧
    (encodeCanonical (optional u8 "tag") .undefined = .ok [0] ∧ decodeCanonical (optional u8 "tag") [0] = .ok .null) ∧
    (encodeCanonical (struct [("a", u8)] (fun _ => .ok ()) "pair")
        (.object [("a", .number 1), ("b", .number 2)]) = .ok [1] ∧
      decodeCanonical (struct [("a", u8)] (fun _ => .ok ()) "pair") [1] = .ok (.object [("a", .number 1)])) ∧
    (encodeCanonical (constant u64be (.number 5) "version") (.number 5) = .ok [0, 0, 0, 0, 0, 0, 0, 5] ∧
      decodeCanonical (constant u64be (.number 5) "version") [0, 0, 0, 0, 0, 0, 0, 5] = .error "version must be 5") ∧
    (decodeCanonical (ranged u64be 0 9 "count") [0, 0, 0, 0, 0, 0, 0, 5] = .ok (.bigint 5) ∧
      encodeCanonical (ranged u64be 0 9 "count") (.bigint 5) = .error "count is outside 0..9") ∧
    (decodeCanonical (struct [("a", u8), ("a", u8)] (fun _ => .ok ()) "twice") [1, 2] =
        .ok (.object [("a", .number 2)]) ∧
      encodeCanonical (struct [("a", u8), ("a", u8)] (fun _ => .ok ()) "twice")
        (.object [("a", .number 2)]) = .ok [2, 2]) := by
  refine ⟨⟨rfl, rfl, nofun⟩, ⟨rfl, rfl⟩, ⟨rfl, rfl⟩, ⟨rfl, rfl⟩, ⟨rfl, rfl⟩, ⟨rfl, rfl⟩⟩

end HiveRelay.Codec
