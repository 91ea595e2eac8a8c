import HiveRelay.Lib.Bytes
import HiveRelay.Lib.Guard

/-!
# The canonical codec

An encoding is three functions: `preencode` checks a value and says how many bytes it takes, `encode`
writes it at the current position of a buffer of the size found, and `decode` reads one. The
combinators build encodings from encodings; a field of a struct is given the object it is a field of
as its `parent`, which `exactBytesByClass` reads the size class from.

The writing position of a buffer is carried by the bytes before it, and the reading position by the
bytes that are left.
-/

namespace HiveRelay.Codec

/-! ### Values -/

/-- A value, as far as encodings tell values apart. -/
inductive Value where
  | undefined
  | null
  /-- An integral number. -/
  | number (n : ℤ)
  | bigint (n : ℤ)
  | bytes (b : Bytes)
  | array (values : List Value)
  | object (fields : List (String × Value))
  /-- A value that no encoding takes, such as a fraction or a string. -/
  | other
  deriving Inhabited

namespace Value

/-- `value == null`. -/
def isNullish : Value → Bool
  | .undefined | .null => true
  | _ => false

/-- `value && typeof value === 'object'`. -/
def isObject : Value → Bool
  | .bytes _ | .array _ | .object _ => true
  | _ => false

/-- The element of a list that has `name` as its index. -/
def element (values : List Value) (name : String) : Value :=
  ((List.range values.length).find? fun i => toString i == name).elim .undefined fun i => values[i]?.getD .undefined

/-- `value[name]`, for the properties a value has of its own. -/
def property : Value → String → Value
  | .object fields, name => (fields.lookup name).getD .undefined
  | .array values, name => if name = "length" then .number values.length else element values name
  | .bytes b, name =>
    if name = "length" ∨ name = "byteLength" then .number b.length
    else element (b.map fun byte => .number byte.toNat) name
  | _, _ => .undefined

/-- The integer a value is as a property key. A number and the bigint of the same size are one key. -/
def key? : Value → Option ℤ
  | .number n | .bigint n => some n
  | _ => none

/-- The number a value is compared as, where that is not `NaN`. -/
def compared? : Value → Option ℤ
  | .number n | .bigint n => some n
  | .null => some 0
  | _ => none

end Value

/-- `object[name] = value`. -/
def setProperty (object : List (String × Value)) (name : String) (value : Value) : List (String × Value) :=
  if object.any (·.1 == name) then
    object.map fun field => if field.1 == name then (name, value) else field
  else object ++ [(name, value)]

/-! ### Checks -/

def maxSafeInteger : ℕ := 2 ^ 53 - 1

def maxU64 : ℕ := 2 ^ 64 - 1

/-- An array has fewer elements than this. -/
def maxArrayLength : ℕ := 2 ^ 32 - 1

/-- `Number.isSafeInteger` of an integral number. -/
def isSafeInteger (n : ℤ) : Bool := n.natAbs ≤ maxSafeInteger

def asBuffer (value : Value) (field : String) : Except String Bytes :=
  match value with
  | .bytes b => .ok b
  | _ => .error (field ++ " must be bytes")

def assertUnsignedNumber (value : Value) (maximum : ℕ) (field : String) : Except String ℕ :=
  match value with
  | .number n =>
    if isSafeInteger n ∧ 0 ≤ n ∧ n ≤ maximum then .ok n.toNat
    else .error (field ++ " is outside its unsigned range")
  | _ => .error (field ++ " is outside its unsigned range")

def asU64 (value : Value) (field : String) : Except String ℕ :=
  match value with
  | .number n =>
    if isSafeInteger n ∧ 0 ≤ n then .ok n.toNat
    else .error (field ++ " must be an unsigned safe integer or bigint")
  | .bigint n =>
    if 0 ≤ n ∧ n ≤ maxU64 then .ok n.toNat else .error (field ++ " is outside u64")
  | _ => .error (field ++ " is outside u64")

/-! ### Encodings -/

structure Writer where
  /-- `state.end`. -/
  size : ℕ
  /-- The bytes before `state.start`. -/
  written : Bytes

def Writer.put (w : Writer) (b : Bytes) : Writer := { w with written := w.written ++ b }

/-- `assertAvailable` of a buffer that is being filled. -/
def Writer.assertAvailable (w : Writer) (length : ℕ) (field : String) : Except String Unit :=
  require (length ≤ w.size - w.written.length) ("truncated " ++ field)

/-- Read `length` bytes, if there are as many. -/
def readBytes (length : ℕ) (field : String) (input : Bytes) : Except String (Bytes × Bytes) := do
  require (length ≤ input.length) ("truncated " ++ field)
  pure (input.take length, input.drop length)

/-- The three functions of an encoding. What `preencode` returns is what it adds to `state.end`; a
`parent` that is not given is `undefined`. -/
structure Encoding where
  preencode : (value parent : Value) → Except String ℕ
  encode : (value parent : Value) → Writer → Except String Writer
  decode : (parent : Value) → Bytes → Except String (Value × Bytes)

def fixedUnsigned (bytes maximum : ℕ) (name : String) : Encoding where
  preencode value _ := do
    let _ ← assertUnsignedNumber value maximum name
    pure bytes
  encode value _ w := do
    let n ← assertUnsignedNumber value maximum name
    w.assertAvailable bytes name
    pure (w.put (Bytes.ofNat bytes n))
  decode _ input := do
    let (b, rest) ← readBytes bytes name input
    pure (.number (Bytes.toNat b), rest)

def u8 : Encoding := fixedUnsigned 1 0xff "u8"

def u16be : Encoding := fixedUnsigned 2 0xffff "u16"

def u32be : Encoding := fixedUnsigned 4 0xffffffff "u32"

def u64be : Encoding where
  preencode value _ := do
    let _ ← asU64 value "u64"
    pure 8
  encode value _ w := do
    let n ← asU64 value "u64"
    w.assertAvailable 8 "u64"
    pure (w.put (Bytes.ofNat 8 n))
  decode _ input := do
    let (b, rest) ← readBytes 8 "u64" input
    pure (.bigint (Bytes.toNat b), rest)

/-- How many bytes a compact unsigned integer takes. -/
def compactBytes (n : ℕ) : ℕ :=
  if n ≤ 0xfc then 1 else if n ≤ 0xffff then 3 else if n ≤ 0xffffffff then 5 else 9

/-- The bytes of a compact unsigned integer: one, or a marker and a little-endian integer. -/
def compactWritten (n : ℕ) : Bytes :=
  if n ≤ 0xfc then [UInt8.ofNat n]
  else if n ≤ 0xffff then 0xfd :: Bytes.ofNatLE 2 n
  else if n ≤ 0xffffffff then 0xfe :: Bytes.ofNatLE 4 n
  else 0xff :: Bytes.ofNatLE 8 n

/-- `compactUint.decode`, as a number. -/
def decodeCompact (input : Bytes) : Except String (ℕ × Bytes) := do
  let (b, rest) ← readBytes 1 "compact uint" input
  let marker := Bytes.toNat b
  if marker ≤ 0xfc then
    pure (marker, rest)
  else if marker = 0xfd then
    let (b, rest) ← readBytes 2 "compact uint" rest
    require (¬ Bytes.toNatLE b ≤ 0xfc) "non-canonical compact uint"
    pure (Bytes.toNatLE b, rest)
  else if marker = 0xfe then
    let (b, rest) ← readBytes 4 "compact uint" rest
    require (¬ Bytes.toNatLE b ≤ 0xffff) "non-canonical compact uint"
    pure (Bytes.toNatLE b, rest)
  else
    let (b, rest) ← readBytes 8 "compact uint" rest
    require (¬ (Bytes.toNatLE b ≤ 0xffffffff ∨ Bytes.toNatLE b > maxSafeInteger))
      "non-canonical or unsupported compact uint"
    pure (Bytes.toNatLE b, rest)

def compactUint : Encoding where
  preencode value _ := do
    let n ← assertUnsignedNumber value maxSafeInteger "compact uint"
    pure (compactBytes n)
  encode value _ w := do
    let n ← assertUnsignedNumber value maxSafeInteger "compact uint"
    w.assertAvailable (compactBytes n) "compact uint"
    pure (w.put (compactWritten n))
  decode _ input := do
    let (n, rest) ← decodeCompact input
    pure (.number n, rest)

def fixedBytes (length : ℕ) (name : String) : Encoding where
  preencode value _ := do
    let b ← asBuffer value name
    require (b.length = length) (name ++ " must be exactly " ++ toString length ++ " bytes")
    pure length
  encode value _ w := do
    let b ← asBuffer value name
    require (b.length = length) (name ++ " must be exactly " ++ toString length ++ " bytes")
    w.assertAvailable length name
    pure (w.put b)
  decode _ input := do
    let (b, rest) ← readBytes length name input
    pure (.bytes b, rest)

/-- `selectedLength` of `exactBytesByClass`. The table is keyed by integers. -/
def selectedLength (classField : String) (classLengths : List (ℤ × ℕ)) (name : String)
    (parent : Value) : Except String ℕ :=
  demand (((parent.property classField).key?.bind fun k => classLengths.lookup k).filter
    fun length => decide (length ≤ maxSafeInteger)) (name ++ " has an unknown " ++ classField)

def exactBytesByClass (classField : String) (classLengths : List (ℤ × ℕ)) (name : String) : Encoding where
  preencode value parent := do
    let b ← asBuffer value name
    let length ← selectedLength classField classLengths name parent
    require (b.length = length) (name ++ " must be exactly " ++ toString length ++ " bytes")
    pure length
  encode value parent w := do
    let b ← asBuffer value name
    let length ← selectedLength classField classLengths name parent
    require (b.length = length) (name ++ " must be exactly " ++ toString length ++ " bytes")
    w.assertAvailable length name
    pure (w.put b)
  decode parent input := do
    let length ← selectedLength classField classLengths name parent
    let (b, rest) ← readBytes length name input
    pure (.bytes b, rest)

/-- The error of a length or a count that is out of bounds. -/
def outsideError (name what : String) (minimum maximum : ℤ) : String :=
  name ++ what ++ " is outside " ++ toString minimum ++ ".." ++ toString maximum

def boundedBytes (minimum maximum : ℕ) (name : String) : Encoding where
  preencode value _ := do
    let b ← asBuffer value name
    require (¬ (b.length < minimum ∨ b.length > maximum)) (outsideError name " length" minimum maximum)
    let n ← compactUint.preencode (.number b.length) .undefined
    pure (n + b.length)
  encode value _ w := do
    let b ← asBuffer value name
    require (¬ (b.length < minimum ∨ b.length > maximum)) (outsideError name " length" minimum maximum)
    let w ← compactUint.encode (.number b.length) .undefined w
    w.assertAvailable b.length name
    pure (w.put b)
  decode _ input := do
    let (length, rest) ← decodeCompact input
    require (¬ (length < minimum ∨ length > maximum)) (outsideError name " length" minimum maximum)
    let (b, rest) ← readBytes length name rest
    pure (.bytes b, rest)

def optional (encoding : Encoding) (name : String) : Encoding where
  preencode value _ := do
    let n ← u8.preencode (.number (if value.isNullish then 0 else 1)) .undefined
    if value.isNullish then pure n
    else do
      let m ← encoding.preencode value .undefined
      pure (n + m)
  encode value _ w := do
    let w ← u8.encode (.number (if value.isNullish then 0 else 1)) .undefined w
    if value.isNullish then pure w else encoding.encode value .undefined w
  decode _ input := do
    let (tag, rest) ← u8.decode .undefined input
    match tag with
    | .number 0 => pure (.null, rest)
    | .number 1 => encoding.decode .undefined rest
    | _ => .error (name ++ " presence tag must be 0 or 1")

/-- `for (const value of values) encoding.preencode(state, value)`. -/
def preencodeAll (encoding : Encoding) : List Value → Except String ℕ
  | [] => pure 0
  | value :: values => do
    let n ← encoding.preencode value .undefined
    let m ← preencodeAll encoding values
    pure (n + m)

/-- `for (const value of values) encoding.encode(state, value)`. -/
def encodeAll (encoding : Encoding) : List Value → Writer → Except String Writer
  | [], w => pure w
  | value :: values, w => do
    let w ← encoding.encode value .undefined w
    encodeAll encoding values w

/-- Decode `count` values. -/
def decodeAll (encoding : Encoding) : ℕ → Bytes → Except String (List Value × Bytes)
  | 0, input => pure ([], input)
  | count + 1, input => do
    let (value, rest) ← encoding.decode .undefined input
    let (values, rest) ← decodeAll encoding count rest
    pure (value :: values, rest)

/-- `Array.isArray(values)` and its length is in bounds. -/
def countedArray (values : Value) (minimum maximum : ℕ) (name : String) : Except String (List Value) :=
  match values with
  | .array values =>
    if values.length ≤ maxArrayLength ∧ ¬ (values.length < minimum ∨ values.length > maximum) then
      .ok values
    else .error (outsideError name " count" minimum maximum)
  | _ => .error (outsideError name " count" minimum maximum)

def arrayOf (encoding : Encoding) (minimum maximum : ℕ) (name : String) : Encoding where
  preencode value _ := do
    let values ← countedArray value minimum maximum name
    let n ← compactUint.preencode (.number values.length) .undefined
    let m ← preencodeAll encoding values
    pure (n + m)
  encode value _ w := do
    let values ← countedArray value minimum maximum name
    let w ← compactUint.encode (.number values.length) .undefined w
    encodeAll encoding values w
  decode _ input := do
    let (count, rest) ← decodeCompact input
    require (¬ (count < minimum ∨ count > maximum)) (outsideError name " count" minimum maximum)
    -- `new Array(count)` throws when there is no array of that length
    require (count ≤ maxArrayLength) "Invalid array length"
    let (values, rest) ← decodeAll encoding count rest
    pure (.array values, rest)

def preencodeFields (value : Value) : List (String × Encoding) → Except String ℕ
  | [] => pure 0
  | (name, encoding) :: fields => do
    let n ← encoding.preencode (value.property name) value
    let m ← preencodeFields value fields
    pure (n + m)

def encodeFields (value : Value) : List (String × Encoding) → Writer → Except String Writer
  | [], w => pure w
  | (name, encoding) :: fields, w => do
    let w ← encoding.encode (value.property name) value w
    encodeFields value fields w

/-- The loop of `decode` in a struct: each field sees the fields before it. -/
def decodeFields : List (String × Encoding) → List (String × Value) → Bytes →
    Except String (List (String × Value) × Bytes)
  | [], object, input => pure (object, input)
  | (name, encoding) :: fields, object, input => do
    let (value, rest) ← encoding.decode (.object object) input
    decodeFields fields (setProperty object name value) rest

/-- A struct without `options.validate` has a `validate` that throws nothing. -/
def struct (fields : List (String × Encoding)) (validate : Value → Except String Unit)
    (name : String) : Encoding where
  preencode value _ := do
    require (value.isObject = true) (name ++ " must be an object")
    let n ← preencodeFields value fields
    validate value
    pure n
  encode value _ w := do
    require (value.isObject = true) (name ++ " must be an object")
    encodeFields value fields w
  decode _ input := do
    let (object, rest) ← decodeFields fields [] input
    validate (.object object)
    pure (.object object, rest)

/-- A value that `===` compares by what it is. -/
inductive Scalar where
  | number (n : ℤ)
  | bigint (n : ℤ)

namespace Scalar

def value : Scalar → Value
  | .number n => .number n
  | .bigint n => .bigint n

/-- `value === expected`. -/
def strictEquals : Scalar → Value → Bool
  | .number n, .number m => n == m
  | .bigint n, .bigint m => n == m
  | _, _ => false

def print : Scalar → String
  | .number n | .bigint n => toString n

end Scalar

/-- `if (value == null) value = expected`, and the comparison after it. -/
def assertConstant (value : Value) (expected : Scalar) (name : String) : Except String Unit :=
  require (value.isNullish = true ∨ expected.strictEquals value = true) (name ++ " must be " ++ expected.print)

def constant (encoding : Encoding) (expected : Scalar) (name : String) : Encoding where
  preencode value _ := do
    assertConstant value expected name
    encoding.preencode expected.value .undefined
  encode value _ w := do
    assertConstant value expected name
    encoding.encode expected.value .undefined w
  decode _ input := do
    let (value, rest) ← encoding.decode .undefined input
    require (expected.strictEquals value = true) (name ++ " must be " ++ expected.print)
    pure (value, rest)

/-- `typeof value === 'number'` and it is in range. -/
def assertRanged (value : Value) (minimum maximum : ℤ) (name : String) : Except String Unit :=
  match value with
  | .number n => require (¬ (n < minimum ∨ n > maximum)) (outsideError name "" minimum maximum)
  | _ => .error (outsideError name "" minimum maximum)

def ranged (encoding : Encoding) (minimum maximum : ℤ) (name : String) : Encoding where
  preencode value _ := do
    assertRanged value minimum maximum name
    encoding.preencode value .undefined
  encode value _ w := do
    assertRanged value minimum maximum name
    encoding.encode value .undefined w
  decode _ input := do
    let (value, rest) ← encoding.decode .undefined input
    -- a comparison with `NaN` is false
    require (∀ n ∈ value.compared?, ¬ (n < minimum ∨ n > maximum)) (outsideError name "" minimum maximum)
    pure (value, rest)

def encodeCanonical (encoding : Encoding) (value : Value) : Except String Bytes := do
  let size ← encoding.preencode value .undefined
  let w ← encoding.encode value .undefined ⟨size, []⟩
  require (w.written.length = w.size) "encoder did not fill its canonical allocation"
  pure w.written

def decodeCanonical (encoding : Encoding) (input : Bytes) : Except String Value := do
  let (value, rest) ← encoding.decode .undefined input
  require (rest = []) "trailing bytes after canonical value"
  pure value

end HiveRelay.Codec
