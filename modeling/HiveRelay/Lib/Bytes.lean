import Mathlib.Data.List.Induction
import Mathlib.Tactic.Ring

/-!
# Byte strings, windows and big-endian integers

The byte-level vocabulary every frame and codec of the development is written in. Nothing here
names a format: a byte string is a list of bytes, a field is a *window* of it, and an unsigned
integer field is the big-endian reading of a window.

## Main definitions

* `Bytes.window` — the bytes at `[offset, offset + length)`
* `Bytes.ofNat`, `Bytes.toNat` — fixed-width big-endian writing and reading
* `Bytes.ofNatLE`, `Bytes.toNatLE` — the same with the least significant byte first

## Main results

* `Bytes.window_append_left`, `window_append_right` — a window of a concatenation; these two
  locate every field of an encoded record
* `Bytes.toNat_ofNat`, `Bytes.toNatLE_ofNatLE` — reading back what was written, for a value that fits
* `Bytes.ofNat_toNat`, `Bytes.ofNatLE_toNatLE` — writing back what was read
-/

namespace HiveRelay

open List

/-- A byte string. -/
abbrev Bytes := List UInt8

instance : LawfulBEq Bytes := inferInstance

namespace Bytes

/-- The window `[offset, offset + length)` of a byte string, as `subarray` cuts it. -/
def window (b : Bytes) (offset length : ℕ) : Bytes := (b.drop offset).take length

/-- Every byte is zero. -/
def isZero (b : Bytes) : Bool := b.all (· == 0)

/-- Write `value` big-endian in exactly `width` bytes, dropping what does not fit. -/
def ofNat : (width : ℕ) → (value : ℕ) → Bytes
  | 0, _ => []
  | width + 1, value => ofNat width (value / 256) ++ [UInt8.ofNat (value % 256)]

/-- The bytes of an ASCII text. -/
def ofAscii (text : String) : Bytes := text.toList.map fun c => UInt8.ofNat c.toNat

/-- Read a byte string big-endian. -/
def toNat (b : Bytes) : ℕ := b.foldl (fun acc byte => acc * 256 + byte.toNat) 0

@[simp] theorem length_ofNat (width value : ℕ) : (ofNat width value).length = width := by
  induction width generalizing value with
  | zero => rfl
  | succ width ih => simp [ofNat, ih]

example : ofNat 2 258 = [1, 2] := by decide +kernel

theorem toNat_append_singleton (b : Bytes) (byte : UInt8) : toNat (b ++ [byte]) = toNat b * 256 + byte.toNat := by
  simp [toNat]

/-- Reading back a written value, for a value that fits its width. -/
theorem toNat_ofNat {width value : ℕ} (h : value < 256 ^ width) : toNat (ofNat width value) = value := by
  induction width generalizing value with
  | zero =>
    have hv : value = 0 := by simpa using h
    simp [ofNat, toNat, hv]
  | succ width ih =>
    have hdiv : value / 256 < 256 ^ width := by
      refine Nat.div_lt_of_lt_mul ?_
      calc value < 256 ^ (width + 1) := h
        _ = 256 * 256 ^ width := by ring
    have hbyte : (UInt8.ofNat (value % 256)).toNat = value % 256 := by
      simp
    rw [ofNat, toNat_append_singleton, ih hdiv, hbyte]
    omega

/-- A value that fits its width is determined by what was written. -/
theorem ofNat_injective {width v w : ℕ} (hv : v < 256 ^ width) (hw : w < 256 ^ width)
    (h : ofNat width v = ofNat width w) : v = w := by
  rw [← toNat_ofNat hv, h, toNat_ofNat hw]

variable {a : Bytes}

theorem eq_of_isZero {b : Bytes} (ha : a.isZero = true) (hb : b.isZero = true)
    (hlength : a.length = b.length) : a = b := by
  have hreplicate : ∀ c : Bytes, c.isZero = true → c = replicate c.length 0 := fun c hc =>
    eq_replicate_iff.mpr ⟨rfl, by simpa [isZero] using hc⟩
  rw [hreplicate a ha, hreplicate b hb, hlength]

theorem toNat_lt (b : Bytes) : toNat b < 256 ^ b.length := by
  induction b using reverseRecOn with
  | nil => simp [toNat]
  | append_singleton b byte ih =>
    have hbyte := byte.toNat_lt
    rw [toNat_append_singleton, length_append, length_singleton, pow_succ]
    omega

theorem ofNat_toNat (b : Bytes) : ofNat b.length (toNat b) = b := by
  induction b using reverseRecOn with
  | nil => rfl
  | append_singleton b byte ih =>
    have hbyte := byte.toNat_lt
    have hdiv : (toNat b * 256 + byte.toNat) / 256 = toNat b := by omega
    have hmod : (toNat b * 256 + byte.toNat) % 256 = byte.toNat := by omega
    rw [length_append, length_singleton, ofNat, toNat_append_singleton, hdiv, hmod, ih]
    simp

/-- Write `value` little-endian in exactly `width` bytes, dropping what does not fit. -/
def ofNatLE : (width : ℕ) → (value : ℕ) → Bytes
  | 0, _ => []
  | width + 1, value => UInt8.ofNat (value % 256) :: ofNatLE width (value / 256)

/-- Read a byte string little-endian. -/
def toNatLE : Bytes → ℕ
  | [] => 0
  | byte :: b => byte.toNat + toNatLE b * 256

@[simp] theorem length_ofNatLE (width value : ℕ) : (ofNatLE width value).length = width := by
  induction width generalizing value with
  | zero => rfl
  | succ width ih => simp [ofNatLE, ih]

theorem toNatLE_ofNatLE {width value : ℕ} (h : value < 256 ^ width) : toNatLE (ofNatLE width value) = value := by
  induction width generalizing value with
  | zero =>
    have hv : value = 0 := by simpa using h
    simp [ofNatLE, toNatLE, hv]
  | succ width ih =>
    have hdiv : value / 256 < 256 ^ width := by
      refine Nat.div_lt_of_lt_mul ?_
      calc value < 256 ^ (width + 1) := h
        _ = 256 * 256 ^ width := by ring
    have hbyte : (UInt8.ofNat (value % 256)).toNat = value % 256 := by
      simp
    rw [ofNatLE, toNatLE, ih hdiv, hbyte]
    omega

theorem ofNatLE_toNatLE (b : Bytes) : ofNatLE b.length (toNatLE b) = b := by
  induction b with
  | nil => rfl
  | cons byte b ih =>
    have hbyte := byte.toNat_lt
    have hdiv : (byte.toNat + toNatLE b * 256) / 256 = toNatLE b := by omega
    have hmod : (byte.toNat + toNatLE b * 256) % 256 = byte.toNat := by omega
    rw [length_cons, toNatLE, ofNatLE, hdiv, hmod, ih]
    simp

theorem toNatLE_lt (b : Bytes) : toNatLE b < 256 ^ b.length := by
  induction b with
  | nil => simp [toNatLE]
  | cons byte b ih =>
    have hbyte := byte.toNat_lt
    rw [toNatLE, length_cons, pow_succ]
    omega

/-! ### Windows of a concatenation -/

theorem length_window_le (b : Bytes) (offset length : ℕ) : (b.window offset length).length ≤ length := by
  simp [window]

variable {length : ℕ}

theorem window_append_left (b : Bytes) (h : a.length = length) : window (a ++ b) 0 length = a := by
  subst h
  simp [window]

variable {offset : ℕ}

/-- A window past the first part of a concatenation is a window of the second part. -/
theorem window_append_right (b : Bytes) (length : ℕ) (h : a.length ≤ offset) :
    window (a ++ b) offset length = window b (offset - a.length) length := by
  simp [window, drop_append, drop_eq_nil_of_le h]

theorem window_all (h : a.length = length) : window a 0 length = a := by
  subst h
  simp [window]

/-- A window inside a prefix does not see what follows the prefix. -/
theorem window_take (b : Bytes) {n : ℕ} (h : offset + length ≤ n) :
    window (b.take n) offset length = window b offset length := by
  rw [window, window, drop_take, take_take]
  congr 1
  omega

theorem window_window (b : Bytes) {offset' length' : ℕ} (h : offset' + length' ≤ length) :
    window (window b offset length) offset' length' = window b (offset + offset') length' := by
  show window ((b.drop offset).take length) offset' length' = _
  rw [window_take _ h, window, window, drop_drop]

theorem length_window {b : Bytes} (h : offset + length ≤ b.length) : (b.window offset length).length = length := by
  rw [window, length_take, length_drop]
  omega

theorem window_add (b : Bytes) (offset i j : ℕ) :
    window b offset (i + j) = window b offset i ++ window b (offset + i) j := by
  rw [window, window, window, take_add, drop_drop]

theorem ofNat_toNat_window {b : Bytes} {offset length : ℕ} (h : offset + length ≤ b.length) :
    ofNat length (toNat (window b offset length)) = window b offset length := by
  have hback := ofNat_toNat (window b offset length)
  rwa [length_window h] at hback

/-- A part of a concatenation is read at the sum of the lengths before it. -/
theorem window_flatten {parts : List Bytes} {i : ℕ} {part : Bytes}
    (h : parts[i]? = some part) (hoffset : (parts.take i).flatten.length = offset)
    (hlength : part.length = length) : window parts.flatten offset length = part := by
  have hi := (List.getElem?_eq_some_iff.mp h).1
  have hsplit : parts.flatten = (parts.take i).flatten ++ (part ++ (parts.drop (i + 1)).flatten) := by
    conv_lhs => rw [← take_append_drop i parts]
    rw [flatten_append, drop_eq_getElem_cons hi, flatten_cons, (List.getElem?_eq_some_iff.mp h).2]
  rw [hsplit, window_append_right _ _ hoffset.le, hoffset, Nat.sub_self, window_append_left _ hlength]

/-- The parts lie one after another from `offset` on. -/
def Reads (b : Bytes) (offset : ℕ) : List Bytes → Prop
  | [] => True
  | part :: parts => window b offset part.length = part ∧ Reads b (offset + part.length) parts

theorem reads_iff {b : Bytes} {offset : ℕ} {parts : List Bytes} (h : offset + parts.flatten.length ≤ b.length) :
    Reads b offset parts ↔ window b offset parts.flatten.length = parts.flatten := by
  induction parts generalizing offset with
  | nil => simp [Reads, window]
  | cons part parts ih =>
    rw [flatten_cons, length_append] at h
    rw [Reads, ih (by omega), flatten_cons, length_append, window_add]
    constructor
    · rintro ⟨hpart, hparts⟩
      rw [hpart, hparts]
    · exact fun h => append_inj h (length_window (by omega))

/-- What a concatenation starts with is read from its start. -/
theorem reads_flatten_append (parts : List Bytes) (b : Bytes) : Reads (parts.flatten ++ b) 0 parts :=
  (reads_iff (by simp)).mpr (window_append_left b rfl)

theorem reads_flatten (parts : List Bytes) : Reads parts.flatten 0 parts := by
  have hreads := reads_flatten_append parts []
  rwa [append_nil] at hreads

theorem toNat_window_eq_iff {b : Bytes} {offset width value : ℕ} (h : offset + width ≤ b.length)
    (hvalue : value < 256 ^ width) : toNat (window b offset width) = value ↔
      window b offset width = ofNat width value := by
  constructor
  · rintro rfl
    exact (ofNat_toNat_window h).symm
  · intro hwindow
    rw [hwindow, toNat_ofNat hvalue]

end Bytes

end HiveRelay
