import HiveRelay.Lib.JsString

/-!
# Reading UTF-8

The decoder that replaces what is not UTF-8, one byte at a time. It gives back the strings that are
well formed, and of the bytes of one that are cut off somewhere it gives the code points that are whole,
with a replacement for the one that is not.

## Main definitions

* `Utf8.decode` — the string of a byte string

## Main results

* `Utf8.decode_append` — a well-formed string in front of other bytes
* `Utf8.decode_take` — the first bytes of a well-formed string
* `Utf8.le_of_mem_utf8` — no control bytes without control units
-/

namespace HiveRelay.Utf8

open List
open JsString (Point points utf8)

/-- What has been read of a code point: how many bytes are missing after the next one, the range of the
next one, and the value so far. -/
inductive Partial where
  | start
  | more (missing low high value : ℕ)

/-- The units of a code point. -/
def unitsOf (value : ℕ) : JsString :=
  if value < 0x10000 then [UInt16.ofNat value]
  else [UInt16.ofNat (0xd800 + (value - 0x10000) / 0x400), UInt16.ofNat (0xdc00 + (value - 0x10000) % 0x400)]

/-- The first byte of a code point. -/
def first (b : UInt8) : JsString × Partial :=
  if b.toNat < 0x80 then ([UInt16.ofNat b.toNat], .start)
  else if 0xc2 ≤ b.toNat ∧ b.toNat ≤ 0xdf then ([], .more 0 0x80 0xbf (b.toNat - 0xc0))
  else if 0xe0 ≤ b.toNat ∧ b.toNat ≤ 0xef then
    ([], .more 1 (if b.toNat = 0xe0 then 0xa0 else 0x80) (if b.toNat = 0xed then 0x9f else 0xbf) (b.toNat - 0xe0))
  else if 0xf0 ≤ b.toNat ∧ b.toNat ≤ 0xf4 then
    ([], .more 2 (if b.toNat = 0xf0 then 0x90 else 0x80) (if b.toNat = 0xf4 then 0x8f else 0xbf) (b.toNat - 0xf0))
  else ([0xfffd], .start)

/-- One byte: the units that it completes, and what is read of the next ones. -/
def next : Partial → UInt8 → JsString × Partial
  | .start, b => first b
  | .more missing low high value, b =>
    if low ≤ b.toNat ∧ b.toNat ≤ high then
      let value := value * 64 + (b.toNat - 0x80)
      if missing = 0 then (unitsOf value, .start) else ([], .more (missing - 1) 0x80 0xbf value)
    else (0xfffd :: (first b).1, (first b).2)

/-- The string of the bytes, after what has been read. -/
def decodeFrom : Partial → Bytes → JsString
  | .start, [] => []
  | .more _ _ _ _, [] => [0xfffd]
  | p, b :: bs => (next p b).1 ++ decodeFrom (next p b).2 bs

/-- The string of the bytes. -/
def decode (bs : Bytes) : JsString := decodeFrom .start bs

theorem decodeFrom_cons (p : Partial) (b : UInt8) (bs : Bytes) :
    decodeFrom p (b :: bs) = (next p b).1 ++ decodeFrom (next p b).2 bs := by
  cases p <;> rfl

variable {n : ℕ}

theorem toNat_ofNat (h : n < 256) : (UInt8.ofNat n).toNat = n := by
  simp [Nat.mod_eq_of_lt h]

/-! ### One code point -/

/-- The bytes of a scalar value. -/
inductive Encodes : ℕ → Bytes → Prop
  | one {v : ℕ} (h : v < 0x80) : Encodes v [UInt8.ofNat v]
  | two {v : ℕ} (hlow : 0x80 ≤ v) (hhigh : v < 0x800) :
      Encodes v [UInt8.ofNat (v / 64 + 0xc0), UInt8.ofNat (v % 64 + 0x80)]
  | three {v : ℕ} (hlow : 0x800 ≤ v) (hhigh : v < 0x10000) (hscalar : v < 0xd800 ∨ 0xdfff < v) :
      Encodes v [UInt8.ofNat (v / 4096 + 0xe0), UInt8.ofNat (v / 64 % 64 + 0x80), UInt8.ofNat (v % 64 + 0x80)]
  | four {v : ℕ} (hlow : 0x10000 ≤ v) (hhigh : v < 0x110000) :
      Encodes v [UInt8.ofNat (v / 262144 + 0xf0), UInt8.ofNat (v / 4096 % 64 + 0x80),
        UInt8.ofNat (v / 64 % 64 + 0x80), UInt8.ofNat (v % 64 + 0x80)]

theorem encodes_utf8EncodeChar (c : Char) : Encodes c.toNat (String.utf8EncodeChar c) := by
  have hvalid : c.toNat < 0xd800 ∨ 0xdfff < c.toNat ∧ c.toNat < 0x110000 := c.valid
  have hval : c.val.toNat = c.toNat := rfl
  unfold String.utf8EncodeChar
  simp only [hval]
  split
  · exact .one (by omega)
  split
  · rw [Nat.mod_eq_of_lt (show c.toNat / 64 < 0x20 by omega)]
    exact .two (by omega) (by omega)
  split
  · rw [Nat.mod_eq_of_lt (show c.toNat / 4096 < 0x10 by omega)]
    exact .three (by omega) (by omega) (by omega)
  · rw [Nat.mod_eq_of_lt (show c.toNat / 262144 < 0x08 by omega)]
    exact .four (by omega) (by omega)

theorem next_last {low high value : ℕ} (hlow : low ≤ n) (hhigh : n ≤ high) (h : n < 256) :
    next (.more 0 low high value) (UInt8.ofNat n) = (unitsOf (value * 64 + (n - 0x80)), .start) := by
  rw [next, toNat_ofNat h, if_pos ⟨hlow, hhigh⟩]
  rfl

theorem next_inner (missing : ℕ) {low high value : ℕ} (hlow : low ≤ n) (hhigh : n ≤ high) (h : n < 256) :
    next (.more (missing + 1) low high value) (UInt8.ofNat n) =
      ([], .more missing 0x80 0xbf (value * 64 + (n - 0x80))) := by
  rw [next, toNat_ofNat h, if_pos ⟨hlow, hhigh⟩]
  rfl

theorem first_two (hlow : 0xc2 ≤ n) (hhigh : n ≤ 0xdf) :
    next .start (UInt8.ofNat n) = ([], .more 0 0x80 0xbf (n - 0xc0)) := by
  rw [next, first, toNat_ofNat (by omega), if_neg (by omega), if_pos ⟨hlow, hhigh⟩]

theorem first_three (hlow : 0xe0 ≤ n) (hhigh : n ≤ 0xef) :
    next .start (UInt8.ofNat n) = ([], .more 1 (if n = 0xe0 then 0xa0 else 0x80)
      (if n = 0xed then 0x9f else 0xbf) (n - 0xe0)) := by
  rw [next, first, toNat_ofNat (by omega), if_neg (by omega), if_neg (by omega), if_pos ⟨hlow, hhigh⟩]

theorem first_four (hlow : 0xf0 ≤ n) (hhigh : n ≤ 0xf4) :
    next .start (UInt8.ofNat n) = ([], .more 2 (if n = 0xf0 then 0x90 else 0x80)
      (if n = 0xf4 then 0x8f else 0xbf) (n - 0xf0)) := by
  rw [next, first, toNat_ofNat (by omega), if_neg (by omega), if_neg (by omega), if_neg (by omega),
    if_pos ⟨hlow, hhigh⟩]

variable {bs : Bytes}

theorem Encodes.decode {v : ℕ} (h : Encodes v bs) (rest : Bytes) :
    decodeFrom .start (bs ++ rest) = unitsOf v ++ decodeFrom .start rest := by
  cases h with
  | one h =>
    have hunits : unitsOf v = [UInt16.ofNat v] := if_pos (by omega)
    rw [cons_append, decodeFrom_cons, next, first, toNat_ofNat (by omega), if_pos h, hunits]
    rfl
  | two hlow hhigh =>
    have hvalue : (v / 64 + 0xc0 - 0xc0) * 64 + (v % 64 + 0x80 - 0x80) = v := by omega
    rw [cons_append, decodeFrom_cons, first_two (by omega) (by omega), cons_append,
      decodeFrom_cons, next_last (by omega) (by omega) (by omega), hvalue]
    rfl
  | three hlow hhigh hscalar =>
    have hvalue : ((v / 4096 + 0xe0 - 0xe0) * 64 + (v / 64 % 64 + 0x80 - 0x80)) * 64 +
        (v % 64 + 0x80 - 0x80) = v := by omega
    rw [cons_append, decodeFrom_cons, first_three (by omega) (by omega), cons_append,
      decodeFrom_cons, next_inner 0 (by split <;> omega) (by split <;> omega) (by omega),
      cons_append, decodeFrom_cons,
      next_last (by omega) (by omega) (by omega), hvalue]
    rfl
  | four hlow hhigh =>
    have hvalue : (((v / 262144 + 0xf0 - 0xf0) * 64 + (v / 4096 % 64 + 0x80 - 0x80)) * 64 +
        (v / 64 % 64 + 0x80 - 0x80)) * 64 + (v % 64 + 0x80 - 0x80) = v := by omega
    rw [cons_append, decodeFrom_cons, first_four (by omega) (by omega), cons_append,
      decodeFrom_cons, next_inner 1 (by split <;> omega) (by split <;> omega) (by omega),
      cons_append, decodeFrom_cons, next_inner 0 (by omega) (by omega) (by omega),
      cons_append, decodeFrom_cons,
      next_last (by omega) (by omega) (by omega), hvalue]
    rfl

theorem Encodes.le_of_lt_length {v : ℕ} (h : Encodes v bs) (hlength : 1 < bs.length) : 0x80 ≤ v := by
  cases h with
  | one h => simp at hlength
  | two hlow _ => exact hlow
  | three hlow _ _ | four hlow _ => omega

/-- Some of the bytes of a code point, and no others, are replaced. -/
theorem Encodes.decode_take {v : ℕ} (h : Encodes v bs) (hpos : n ≠ 0)
    (hlt : n < bs.length) : decodeFrom .start (bs.take n) = [0xfffd] := by
  cases h with
  | one h =>
    simp only [length_cons, length_nil] at hlt
    omega
  | two hlow hhigh =>
    obtain rfl : n = 1 := by
      simp only [length_cons, length_nil] at hlt
      omega
    rw [take_succ_cons, decodeFrom_cons, first_two (by omega) (by omega)]
    rfl
  | three hlow hhigh hscalar =>
    obtain rfl | rfl : n = 1 ∨ n = 2 := by
      simp only [length_cons, length_nil] at hlt
      omega
    · rw [take_succ_cons, decodeFrom_cons, first_three (by omega) (by omega)]
      rfl
    · rw [take_succ_cons, decodeFrom_cons, first_three (by omega) (by omega), take_succ_cons,
        decodeFrom_cons, next_inner 0 (by split <;> omega) (by split <;> omega) (by omega)]
      rfl
  | four hlow hhigh =>
    obtain rfl | rfl | rfl : n = 1 ∨ n = 2 ∨ n = 3 := by
      simp only [length_cons, length_nil] at hlt
      omega
    · rw [take_succ_cons, decodeFrom_cons, first_four (by omega) (by omega)]
      rfl
    · rw [take_succ_cons, decodeFrom_cons, first_four (by omega) (by omega), take_succ_cons,
        decodeFrom_cons, next_inner 1 (by split <;> omega) (by split <;> omega) (by omega)]
      rfl
    · rw [take_succ_cons, decodeFrom_cons, first_four (by omega) (by omega), take_succ_cons,
        decodeFrom_cons, next_inner 1 (by split <;> omega) (by split <;> omega) (by omega),
        take_succ_cons, decodeFrom_cons, next_inner 0 (by omega) (by omega) (by omega)]
      rfl

/-! ### Strings -/

theorem unitsOf_scalar {p : Point} (hp : p.Proper) : unitsOf p.char.toNat = p.units := by
  have hrange := hp.range
  rw [hp.toNat_char]
  cases p with
  | unit u =>
    rw [JsString.scalar_unit, unitsOf, if_pos hrange.1]
    simp [JsString.Point.units]
  | pair u v =>
    rw [JsString.scalar_pair, unitsOf, if_neg (by omega)]
    have hhigh : 0xd800 + (0x10000 + (u.toNat - 0xd800) * 0x400 + (v.toNat - 0xdc00) - 0x10000) / 0x400 =
        u.toNat := by omega
    have hlow : 0xdc00 + (0x10000 + (u.toNat - 0xd800) * 0x400 + (v.toNat - 0xdc00) - 0x10000) % 0x400 =
        v.toNat := by omega
    rw [hhigh, hlow]
    simp [JsString.Point.units]

theorem decodeFrom_points {ps : List Point} (h : ∀ p ∈ ps, p.Proper) (rest : Bytes) :
    decodeFrom .start ((ps.flatMap fun p => String.utf8EncodeChar p.char) ++ rest) =
      ps.flatMap Point.units ++ decodeFrom .start rest := by
  induction ps with
  | nil => rfl
  | cons p ps ih =>
    have hp := h p mem_cons_self
    rw [flatMap_cons, flatMap_cons, append_assoc, append_assoc,
      (encodes_utf8EncodeChar p.char).decode, unitsOf_scalar hp,
      ih fun q hq => h q (mem_cons_of_mem _ hq)]

variable {s : JsString}

/-- **A well-formed string is read back**, whatever comes after it. -/
theorem decode_append (hs : JsString.WellFormed s) (rest : Bytes) : decode (utf8 s ++ rest) = s ++ decode rest := by
  rw [decode, utf8, decodeFrom_points hs.proper, JsString.flatMap_units_points]
  rfl

theorem decode_utf8 (hs : JsString.WellFormed s) : decode (utf8 s) = s := by
  have h := decode_append hs []
  rwa [append_nil, show decode [] = [] from rfl, append_nil] at h

theorem decodeFrom_take {ps : List Point} (h : ∀ p ∈ ps, p.Proper)
    (hn : n < (ps.flatMap fun p => String.utf8EncodeChar p.char).length) :
    ∃ before p after, ps = before ++ p :: after ∧
      (decodeFrom .start ((ps.flatMap fun p => String.utf8EncodeChar p.char).take n) = before.flatMap Point.units ∨
        1 < (String.utf8EncodeChar p.char).length ∧
        decodeFrom .start ((ps.flatMap fun p => String.utf8EncodeChar p.char).take n) =
          before.flatMap Point.units ++ [0xfffd]) := by
  induction ps generalizing n with
  | nil => simp at hn
  | cons p ps ih =>
    rw [flatMap_cons] at hn ⊢
    have hencodes := encodes_utf8EncodeChar p.char
    rcases Nat.lt_or_ge n (String.utf8EncodeChar p.char).length with hshort | hlong
    · refine ⟨[], p, ps, rfl, ?_⟩
      rw [take_append_of_le_length hshort.le]
      by_cases hzero : n = 0
      · exact Or.inl (by rw [hzero]; rfl)
      · exact Or.inr ⟨by omega, hencodes.decode_take hzero hshort⟩
    · obtain ⟨before, q, after, hps, hread⟩ := ih (n := n - (String.utf8EncodeChar p.char).length)
        (fun q hq => h q (mem_cons_of_mem _ hq)) (by rw [length_append] at hn; omega)
      refine ⟨p :: before, q, after, by rw [hps]; rfl, ?_⟩
      rw [take_append, take_of_length_le hlong, hencodes.decode,
        unitsOf_scalar (h p mem_cons_self), flatMap_cons, append_assoc]
      rcases hread with hread | ⟨hlength, hread⟩
      · exact Or.inl (by rw [hread])
      · exact Or.inr ⟨hlength, by rw [hread]⟩

/-- **The first bytes of a well-formed string** are read as its beginning, or as its beginning and a
replacement of a code point of more than one byte. -/
theorem decode_take (hs : JsString.WellFormed s) (hn : n < (utf8 s).length) :
    ∃ before after, s = before ++ after ∧ after ≠ [] ∧ (decode ((utf8 s).take n) = before ∨
        (∃ u ∈ after.head?, 0x80 ≤ u.toNat) ∧ decode ((utf8 s).take n) = before ++ [0xfffd]) := by
  obtain ⟨before, p, after, hps, hread⟩ := decodeFrom_take hs.proper hn
  refine ⟨before.flatMap Point.units, (p :: after).flatMap Point.units, ?_, ?_, ?_⟩
  · rw [← flatMap_append, ← hps, JsString.flatMap_units_points]
  · cases p <;> simp [JsString.Point.units]
  · refine hread.imp_right fun ⟨hlength, hread⟩ => ⟨?_, hread⟩
    have hproper : p.Proper := hs.proper p (hps ▸ by simp)
    have hrange := hproper.range
    have hbytes := encodes_utf8EncodeChar p.char
    cases p with
    | unit u =>
      rw [hproper.toNat_char, JsString.scalar_unit] at hbytes
      exact ⟨u, rfl, hbytes.le_of_lt_length hlength⟩
    | pair u v =>
      exact ⟨u, rfl, by omega⟩

/-! ### Bytes of a string -/

theorem Encodes.ge {v low : ℕ} (h : Encodes v bs) (hv : low ≤ v) (hlow : low ≤ 0x80) : ∀ b ∈ bs, low ≤ b.toNat := by
  have hbyte : ∀ n, low ≤ n → n < 256 → low ≤ (UInt8.ofNat n).toNat := by
    intro n hn hlt
    rwa [toNat_ofNat hlt]
  cases h with
  | one h =>
    simp only [forall_mem_cons]
    exact ⟨hbyte v hv (by omega), by simp⟩
  | two _ _ =>
    simp only [forall_mem_cons]
    exact ⟨hbyte _ (by omega) (by omega), hbyte _ (by omega) (by omega), by simp⟩
  | three _ _ _ =>
    simp only [forall_mem_cons]
    exact ⟨hbyte _ (by omega) (by omega), hbyte _ (by omega) (by omega), hbyte _ (by omega) (by omega),
      by simp⟩
  | four _ _ =>
    simp only [forall_mem_cons]
    exact ⟨hbyte _ (by omega) (by omega), hbyte _ (by omega) (by omega), hbyte _ (by omega) (by omega),
      hbyte _ (by omega) (by omega), by simp⟩

theorem le_of_mem_utf8 (hs : JsString.WellFormed s) (hcontrol : ∀ u ∈ s, ¬ u < 0x20) :
    ∀ b ∈ utf8 s, 0x20 ≤ b.toNat := by
  intro b hb
  rw [utf8, mem_flatMap] at hb
  obtain ⟨p, hp, hmem⟩ := hb
  have hproper := hs.proper p hp
  refine (encodes_utf8EncodeChar p.char).ge ?_ (by omega) b hmem
  rw [hproper.toNat_char]
  have hunits : ∀ u ∈ p.units, ¬ u < 0x20 := fun u hu => hcontrol u (by
    rw [← JsString.flatMap_units_points s]
    exact mem_flatMap.mpr ⟨p, hp, hu⟩)
  cases p with
  | unit u =>
    have hu := hunits u (by simp [JsString.Point.units])
    rw [JsString.scalar_unit]
    exact Nat.le_of_not_lt hu
  | pair u v =>
    rw [JsString.scalar_pair]
    omega

theorem utf8_append_unit {c : UInt16} (hc : JsString.isLow c = false) (s t : JsString) :
    utf8 (s ++ c :: t) = utf8 s ++ utf8 (c :: t) := by
  rw [utf8, JsString.points_append hc, flatMap_append, ← utf8, ← utf8]

end HiveRelay.Utf8
