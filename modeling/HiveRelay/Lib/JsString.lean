import HiveRelay.Lib.Bytes

/-!
# Strings of UTF-16 code units

Strings as JavaScript has them, with their UTF-8 and their literals. A surrogate that is not in a pair is
replaced in UTF-8 and escaped in a literal.

## Main definitions

* `JsString`, `JsString.points` — strings, and their code points
* `JsString.utf8` — the UTF-8 of a string
* `JsString.quote` — a string literal
* `JsString.WellFormed` — strings whose surrogates are all in pairs

## Main results

* `JsString.quote_append_inj` — where a literal ends
* `JsString.utf8_append_inj` — UTF-8 determines a well-formed end of a string
-/

namespace HiveRelay

open List

/-- A string of UTF-16 code units. -/
abbrev JsString := List UInt16

instance : LawfulBEq JsString := inferInstance

namespace JsString

/-- The string of a text of the first plane. -/
def ofText (text : String) : JsString := text.toList.map fun c => UInt16.ofNat c.toNat

/-- The first half of a surrogate pair. -/
def isHigh (u : UInt16) : Bool := 0xd800 ≤ u && u ≤ 0xdbff

/-- The second half of a surrogate pair. -/
def isLow (u : UInt16) : Bool := 0xdc00 ≤ u && u ≤ 0xdfff

/-- A unit of its own, or a surrogate pair. -/
inductive Point where
  | unit (u : UInt16)
  | pair (u v : UInt16)
  deriving DecidableEq

/-- The units of a code point. -/
def Point.units : Point → JsString
  | .unit u => [u]
  | .pair u v => [u, v]

/-- Pairs are pairs of surrogates. -/
def Point.Valid : Point → Prop
  | .unit _ => True
  | .pair u v => isHigh u = true ∧ isLow v = true

/-- The code points of a string. -/
def points : JsString → List Point
  | [] => []
  | [u] => [.unit u]
  | u :: v :: rest =>
    if isHigh u && isLow v then .pair u v :: points rest else .unit u :: points (v :: rest)

theorem flatMap_units_points (s : JsString) : (points s).flatMap Point.units = s := by
  fun_induction points s with
  | case1 => rfl
  | case2 u => rfl
  | case3 u v rest h ih | case4 u v rest h ih => rw [flatMap_cons, ih]; rfl

variable {s : JsString}

theorem points_injective {t : JsString} (h : points s = points t) : s = t := by
  rw [← flatMap_units_points s, ← flatMap_units_points t, h]

theorem valid_of_mem_points (s : JsString) : ∀ p ∈ points s, p.Valid := by
  fun_induction points s with
  | case1 => exact nofun
  | case2 u =>
    intro p hp
    obtain rfl := mem_singleton.mp hp
    trivial
  | case3 u v rest h ih =>
    intro p hp
    rcases mem_cons.mp hp with rfl | hp
    · exact Bool.and_eq_true_iff.mp h
    · exact ih p hp
  | case4 u v rest h ih =>
    intro p hp
    rcases mem_cons.mp hp with rfl | hp
    · trivial
    · exact ih p hp

/-! ### UTF-8 -/

/-- The character of a code point; a surrogate of its own is replaced. -/
def Point.char : Point → Char
  | .unit u => if isHigh u || isLow u then Char.ofNat 0xfffd else Char.ofNat u.toNat
  | .pair u v => Char.ofNat (0x10000 + (u.toNat - 0xd800) * 0x400 + (v.toNat - 0xdc00))

/-- The UTF-8 of a string. -/
def utf8 (s : JsString) : Bytes := (points s).flatMap fun p => String.utf8EncodeChar p.char

/-! ### String literals -/

/-- A hexadecimal digit. -/
def hexDigit (n : ℕ) : UInt16 := UInt16.ofNat (if n < 10 then 0x30 + n else 0x57 + n)

/-- The four hexadecimal digits of a unit. -/
def hexDigits (u : UInt16) : JsString :=
  [hexDigit (u.toNat / 4096), hexDigit (u.toNat / 256 % 16), hexDigit (u.toNat / 16 % 16), hexDigit (u.toNat % 16)]

/-- The units that are escaped by a letter of their own, with the letter. -/
def shortEscapes : List (UInt16 × UInt16) :=
  [(0x08, 0x62), (0x09, 0x74), (0x0a, 0x6e), (0x0c, 0x66), (0x0d, 0x72), (0x22, 0x22), (0x5c, 0x5c)]

/-- What a code point is written as in a literal. -/
def Point.escape : Point → JsString
  | .unit u =>
    match shortEscapes.lookup u with
    | some letter => [0x5c, letter]
    | none =>
      if u < 0x20 || isHigh u || isLow u then 0x5c :: 0x75 :: hexDigits u else [u]
  | .pair u v => [u, v]

/-- A string literal. -/
def quote (s : JsString) : JsString := 0x22 :: ((points s).flatMap Point.escape ++ [0x22])

theorem hexDigit_injective : ∀ a < 16, ∀ b < 16, hexDigit a = hexDigit b → a = b := by
  decide

variable {u : UInt16}

theorem hexDigits_injective {v : UInt16} (h : hexDigits u = hexDigits v) : u = v := by
  have hu := u.toNat_lt
  have hv := v.toNat_lt
  simp only [hexDigits, cons.injEq, and_true] at h
  obtain ⟨h₁, h₂, h₃, h₄⟩ := h
  have h₁ := hexDigit_injective _ (by omega) _ (by omega) h₁
  have h₂ := hexDigit_injective _ (by omega) _ (by omega) h₂
  have h₃ := hexDigit_injective _ (by omega) _ (by omega) h₃
  have h₄ := hexDigit_injective _ (by omega) _ (by omega) h₄
  exact UInt16.toNat_inj.mp (by omega)

theorem shortEscapes_injective : ∀ e ∈ shortEscapes, ∀ f ∈ shortEscapes, e.2 = f.2 → e = f := by
  simp [shortEscapes]

theorem shortEscapes_ne : ∀ e ∈ shortEscapes, e.2 ≠ 0x75 := by
  simp [shortEscapes]

theorem forall_mem_of_all {α : Type} {p : α → Prop} [DecidablePred p] {l : List α}
    (h : (l.all fun a => p a) = true) : ∀ a ∈ l, p a :=
  fun a ha => of_decide_eq_true (all_eq_true.mp h a ha)

/-- How a code point is written. -/
inductive Escaped : Point → JsString → Prop
  | plain {u : UInt16} (hhigh : isHigh u = false) (hslash : u ≠ 0x5c) (hquote : u ≠ 0x22) :
      Escaped (.unit u) [u]
  | short {u letter : UInt16} (h : (u, letter) ∈ shortEscapes) : Escaped (.unit u) [0x5c, letter]
  | hex {u : UInt16} : Escaped (.unit u) (0x5c :: 0x75 :: hexDigits u)
  | pair {u v : UInt16} (hhigh : isHigh u = true) : Escaped (.pair u v) [u, v]

theorem mem_of_lookup_eq_some {entries : List (UInt16 × UInt16)} {letter : UInt16}
    (h : entries.lookup u = some letter) : (u, letter) ∈ entries := by
  obtain ⟨before, after, rfl, -⟩ := lookup_eq_some_iff.mp h
  simp

theorem escaped (p : Point) (hp : p.Valid) : Escaped p p.escape := by
  cases p with
  | unit u =>
    cases hlookup : shortEscapes.lookup u with
    | some letter =>
      have heq : (Point.unit u).escape = [0x5c, letter] := by rw [Point.escape, hlookup]
      rw [heq]
      exact .short (mem_of_lookup_eq_some hlookup)
    | none =>
      by_cases hescape : (u < 0x20 || isHigh u || isLow u) = true
      · have heq : (Point.unit u).escape = 0x5c :: 0x75 :: hexDigits u := by
          rw [Point.escape, hlookup]
          exact if_pos hescape
        rw [heq]
        exact .hex
      · have heq : (Point.unit u).escape = [u] := by
          rw [Point.escape, hlookup]
          exact if_neg hescape
        rw [heq]
        rw [Bool.not_eq_true, Bool.or_eq_false_iff, Bool.or_eq_false_iff] at hescape
        refine .plain hescape.1.2 ?_ ?_
        · rintro rfl
          exact absurd hlookup (by decide)
        · rintro rfl
          exact absurd hlookup (by decide)
  | pair u v => exact .pair hp.1

variable {p : Point}

theorem Escaped.head_ne {r r' : JsString} (h : Escaped p s) (heq : s ++ r = 0x22 :: r') : False := by
  cases h with
  | plain _ _ hquote => exact hquote (cons.inj heq).1
  | short h | hex => exact absurd (cons.inj heq).1 (by decide)
  | pair hhigh =>
    have hu := (cons.inj heq).1
    subst hu
    exact absurd hhigh (by decide)

theorem ne_slash_of_isHigh (h : isHigh u = true) : u ≠ 0x5c := by
  rintro rfl
  exact absurd h (by decide)

theorem Escaped.append_inj {q : Point} {t r r' : JsString} (hp : Escaped p s) (hq : Escaped q t)
    (h : s ++ r = t ++ r') : p = q ∧ r = r' := by
  cases hp with
  | plain hhigh hslash hquote =>
    cases hq with
    | plain =>
      obtain ⟨rfl, rfl⟩ := cons.inj h
      exact ⟨rfl, rfl⟩
    | short | hex => exact absurd (cons.inj h).1 hslash
    | pair hpair =>
      obtain ⟨rfl, -⟩ := cons.inj h
      rw [hpair] at hhigh
      cases hhigh
  | short hp =>
    cases hq with
    | plain _ hslash => exact absurd (cons.inj h).1.symm hslash
    | short hq =>
      obtain ⟨hletter, rfl⟩ := cons.inj (cons.inj h).2
      obtain ⟨rfl, -⟩ := Prod.mk.inj (shortEscapes_injective _ hp _ hq hletter)
      exact ⟨rfl, rfl⟩
    | hex => exact absurd (cons.inj (cons.inj h).2).1 (shortEscapes_ne _ hp)
    | pair hpair => exact absurd (cons.inj h).1.symm (ne_slash_of_isHigh hpair)
  | hex =>
    cases hq with
    | plain _ hslash => exact absurd (cons.inj h).1.symm hslash
    | short hq => exact absurd (cons.inj (cons.inj h).2).1.symm (shortEscapes_ne _ hq)
    | hex =>
      obtain ⟨hdigits, rfl⟩ := append_inj (cons.inj (cons.inj h).2).2 rfl
      rw [hexDigits_injective hdigits]
      exact ⟨rfl, rfl⟩
    | pair hpair => exact absurd (cons.inj h).1.symm (ne_slash_of_isHigh hpair)
  | pair hpair =>
    cases hq with
    | plain hhigh =>
      obtain ⟨rfl, -⟩ := cons.inj h
      rw [hpair] at hhigh
      cases hhigh
    | short | hex => exact absurd (cons.inj h).1 (ne_slash_of_isHigh hpair)
    | pair =>
      have hrest := (cons.inj h).2
      obtain ⟨rfl, rfl⟩ := cons.inj hrest
      obtain rfl := (cons.inj h).1
      exact ⟨rfl, rfl⟩

theorem flatMap_escape_append_inj {ps qs : List Point} {r r' : JsString} (hp : ∀ p ∈ ps, p.Valid)
    (hq : ∀ q ∈ qs, q.Valid)
    (h : ps.flatMap Point.escape ++ 0x22 :: r = qs.flatMap Point.escape ++ 0x22 :: r') :
    ps = qs ∧ r = r' := by
  induction ps generalizing qs with
  | nil =>
    cases qs with
    | nil => exact ⟨rfl, (cons.inj h).2⟩
    | cons q qs =>
      rw [flatMap_cons, append_assoc] at h
      exact ((escaped q (hq q mem_cons_self)).head_ne h.symm).elim
  | cons p ps ih =>
    cases qs with
    | nil =>
      rw [flatMap_cons, append_assoc] at h
      exact ((escaped p (hp p mem_cons_self)).head_ne h).elim
    | cons q qs =>
      rw [flatMap_cons, flatMap_cons, append_assoc, append_assoc] at h
      obtain ⟨rfl, hrest⟩ := (escaped p (hp p mem_cons_self)).append_inj (escaped q (hq q mem_cons_self)) h
      obtain ⟨rfl, rfl⟩ := ih (fun p' hp' => hp p' (mem_cons_of_mem _ hp'))
        (fun q' hq' => hq q' (mem_cons_of_mem _ hq')) hrest
      exact ⟨rfl, rfl⟩

/-- **It can be seen where a literal ends.** -/
theorem quote_append_inj {t r r' : JsString} (h : quote s ++ r = quote t ++ r') : s = t ∧ r = r' := by
  rw [quote, quote, cons_append, cons_append, append_assoc, append_assoc] at h
  obtain ⟨hpoints, hrest⟩ := flatMap_escape_append_inj (valid_of_mem_points s) (valid_of_mem_points t)
    (cons.inj h).2
  exact ⟨points_injective hpoints, hrest⟩

/-! ### Well-formed strings -/

/-- All surrogates are in pairs. -/
inductive WellFormed : JsString → Prop
  | nil : WellFormed []
  | unit {u : UInt16} {s : JsString} (hunit : (isHigh u || isLow u) = false) (hs : WellFormed s) :
      WellFormed (u :: s)
  | pair {u v : UInt16} {s : JsString} (hhigh : isHigh u = true) (hlow : isLow v = true)
      (hs : WellFormed s) : WellFormed (u :: v :: s)

theorem WellFormed.append {t : JsString} (hs : WellFormed s) (ht : WellFormed t) : WellFormed (s ++ t) := by
  induction hs with
  | nil => exact ht
  | unit hunit _ ih => exact .unit hunit ih
  | pair hhigh hlow _ ih => exact .pair hhigh hlow ih

theorem wellFormed_of_all (h : ∀ u ∈ s, (isHigh u || isLow u) = false) : WellFormed s := by
  induction s with
  | nil => exact .nil
  | cons u s ih => exact .unit (h u mem_cons_self) (ih fun v hv => h v (mem_cons_of_mem _ hv))

/-- A code point that is not a surrogate of its own. -/
def Point.Proper : Point → Prop
  | .unit u => (isHigh u || isLow u) = false
  | .pair u v => isHigh u = true ∧ isLow v = true

theorem points_unit (h : (isHigh u || isLow u) = false) : points (u :: s) = .unit u :: points s := by
  cases s with
  | nil => rfl
  | cons v s =>
    have hhigh := (Bool.or_eq_false_iff.mp h).1
    rw [points, hhigh]
    rfl

theorem points_pair {v : UInt16} (hhigh : isHigh u = true) (hlow : isLow v = true) :
    points (u :: v :: s) = .pair u v :: points s := by
  rw [points, hhigh, hlow]
  rfl

theorem WellFormed.proper (h : WellFormed s) : ∀ p ∈ points s, p.Proper := by
  induction h with
  | nil => exact nofun
  | unit hunit _ ih =>
    rw [points_unit hunit]
    intro p hp
    rcases mem_cons.mp hp with rfl | hp
    · exact hunit
    · exact ih p hp
  | pair hhigh hlow _ ih =>
    rw [points_pair hhigh hlow]
    intro p hp
    rcases mem_cons.mp hp with rfl | hp
    · exact ⟨hhigh, hlow⟩
    · exact ih p hp

/-- Code points in front of a unit that is not the second half of a pair. -/
theorem points_append {c : UInt16} (hc : isLow c = false) (s t : JsString) :
    points (s ++ c :: t) = points s ++ points (c :: t) := by
  fun_induction points s with
  | case1 => rfl
  | case2 u =>
    show points (u :: c :: t) = _
    rw [points, hc, Bool.and_false]
    rfl
  | case3 u v rest h ih =>
    show points (u :: v :: (rest ++ c :: t)) = _
    rw [points, if_pos h, ih]
    rfl
  | case4 u v rest h ih =>
    show points (u :: v :: (rest ++ c :: t)) = _
    rw [points, if_neg h]
    exact congrArg (Point.unit u :: ·) ih

theorem toNat_ofNat_char {n : ℕ} (h : n.isValidChar) : (Char.ofNat n).toNat = n := by
  rw [Char.ofNat, dif_pos h]
  rfl

/-- The scalar value of a code point. -/
def Point.scalar : Point → ℕ
  | .unit u => u.toNat
  | .pair u v => 0x10000 + (u.toNat - 0xd800) * 0x400 + (v.toNat - 0xdc00)

theorem isHigh_iff : isHigh u = true ↔ 0xd800 ≤ u.toNat ∧ u.toNat ≤ 0xdbff := by
  rw [isHigh, Bool.and_eq_true_iff, decide_eq_true_iff, decide_eq_true_iff, UInt16.le_iff_toNat_le,
    UInt16.le_iff_toNat_le]
  rfl

theorem isLow_iff : isLow u = true ↔ 0xdc00 ≤ u.toNat ∧ u.toNat ≤ 0xdfff := by
  rw [isLow, Bool.and_eq_true_iff, decide_eq_true_iff, decide_eq_true_iff, UInt16.le_iff_toNat_le,
    UInt16.le_iff_toNat_le]
  rfl

theorem Point.Proper.range (h : p.Proper) : match p with
    | .unit u => u.toNat < 0x10000 ∧ (u.toNat < 0xd800 ∨ 0xdfff < u.toNat)
    | .pair u v => (0xd800 ≤ u.toNat ∧ u.toNat ≤ 0xdbff) ∧ 0xdc00 ≤ v.toNat ∧ v.toNat ≤ 0xdfff := by
  cases p with
  | unit u =>
    have hu : u.toNat < 65536 := u.toNat_lt
    obtain ⟨hhigh, hlow⟩ := Bool.or_eq_false_iff.mp h
    have hhigh := mt isHigh_iff.mpr (Bool.eq_false_iff.mp hhigh)
    have hlow := mt isLow_iff.mpr (Bool.eq_false_iff.mp hlow)
    exact ⟨hu, by omega⟩
  | pair u v => exact ⟨isHigh_iff.mp h.1, isLow_iff.mp h.2⟩

theorem Point.Proper.toNat_char (h : p.Proper) : p.char.toNat = p.scalar := by
  have hrange := h.range
  cases p with
  | unit u =>
    have hchar : (Point.unit u).char = Char.ofNat u.toNat := by
      rw [Point.char, if_neg (by rw [show (isHigh u || isLow u) = false from h]; decide)]
    have hvalid : u.toNat.isValidChar := by
      omega
    rw [hchar, toNat_ofNat_char hvalid]
    rfl
  | pair u v =>
    have hvalid : (0x10000 + (u.toNat - 0xd800) * 0x400 + (v.toNat - 0xdc00)).isValidChar := by
      omega
    exact toNat_ofNat_char hvalid

theorem scalar_unit (u : UInt16) : (Point.unit u).scalar = u.toNat := by
  rw [Point.scalar.eq_def]

theorem scalar_pair (u v : UInt16) :
    (Point.pair u v).scalar = 0x10000 + (u.toNat - 0xd800) * 0x400 + (v.toNat - 0xdc00) := by
  rw [Point.scalar.eq_def]

attribute [irreducible] Point.scalar

theorem scalar_injective : ∀ {p q : Point}, p.Proper → q.Proper → p.scalar = q.scalar → p = q
  | .unit u, .unit u', _, _, h => by
    rw [scalar_unit, scalar_unit] at h
    exact congrArg Point.unit (UInt16.toNat_inj.mp h)
  | .unit u, .pair u' v', hp, _, h => by
    have hp := hp.range
    rw [scalar_unit, scalar_pair] at h
    omega
  | .pair u v, .unit u', _, hq, h => by
    have hq := hq.range
    rw [scalar_unit, scalar_pair] at h
    omega
  | .pair u v, .pair u' v', hp, hq, h => by
    have hp := hp.range
    have hq := hq.range
    rw [scalar_pair, scalar_pair] at h
    rw [UInt16.toNat_inj.mp (show u.toNat = u'.toNat by omega),
      UInt16.toNat_inj.mp (show v.toNat = v'.toNat by omega)]

theorem Point.Proper.char_injective {q : Point} (hp : p.Proper) (hq : q.Proper) (h : p.char = q.char) : p = q :=
  scalar_injective hp hq (by rw [← hp.toNat_char, ← hq.toNat_char, h])

theorem map_char_injective {ps qs : List Point} (hp : ∀ p ∈ ps, p.Proper) (hq : ∀ q ∈ qs, q.Proper)
    (h : ps.map Point.char = qs.map Point.char) : ps = qs := by
  induction ps generalizing qs with
  | nil => exact (map_eq_nil_iff.mp h.symm).symm
  | cons p ps ih =>
    cases qs with
    | nil => cases h
    | cons q qs =>
      obtain ⟨hchar, hrest⟩ := cons.inj h
      rw [(hp p mem_cons_self).char_injective (hq q mem_cons_self) hchar,
        ih (fun p' hp' => hp p' (mem_cons_of_mem _ hp'))
          (fun q' hq' => hq q' (mem_cons_of_mem _ hq')) hrest]

theorem utf8EncodeChar_injective {cs ds : List Char}
    (h : cs.flatMap String.utf8EncodeChar = ds.flatMap String.utf8EncodeChar) : cs = ds := by
  have hencode : cs.utf8Encode = ds.utf8Encode := by rw [utf8Encode, utf8Encode, h]
  have hdecode := congrArg ByteArray.utf8Decode? hencode
  simpa using hdecode

/-- **UTF-8 determines a well-formed end** after a unit that is not a surrogate. -/
theorem utf8_append_inj {c : UInt16} (hc : isLow c = false) {t t' : JsString}
    (ht : WellFormed (c :: t)) (ht' : WellFormed (c :: t')) (h : utf8 (s ++ c :: t) = utf8 (s ++ c :: t')) :
    t = t' := by
  have hbytes : ∀ s, utf8 s = ((points s).map Point.char).flatMap String.utf8EncodeChar :=
    fun s => by rw [utf8, flatMap_map]
  rw [hbytes, hbytes] at h
  have hchars := utf8EncodeChar_injective h
  rw [points_append hc, points_append hc, map_append, map_append] at hchars
  have hpoints := map_char_injective ht.proper ht'.proper (append_cancel_left hchars)
  exact (cons.inj (points_injective hpoints)).2

theorem wellFormed_escape (hp : p.Valid) : WellFormed p.escape := by
  cases p with
  | unit u =>
    cases hlookup : shortEscapes.lookup u with
    | some letter =>
      have hletter : (isHigh letter || isLow letter) = false :=
        (show ∀ e ∈ shortEscapes, (isHigh e.2 || isLow e.2) = false from
          forall_mem_of_all (by decide)) _
          (mem_of_lookup_eq_some hlookup)
      have heq : (Point.unit u).escape = [0x5c, letter] := by rw [Point.escape, hlookup]
      rw [heq]
      exact .unit rfl (.unit hletter .nil)
    | none =>
      by_cases hescape : (u < 0x20 || isHigh u || isLow u) = true
      · have heq : (Point.unit u).escape = 0x5c :: 0x75 :: hexDigits u := by
          rw [Point.escape, hlookup]
          exact if_pos hescape
        have hdigit : ∀ n < 16, (isHigh (hexDigit n) || isLow (hexDigit n)) = false := by decide
        have hu := u.toNat_lt
        rw [heq]
        exact .unit rfl (.unit rfl (.unit (hdigit _ (by omega)) (.unit (hdigit _ (by omega))
          (.unit (hdigit _ (by omega)) (.unit (hdigit _ (by omega)) .nil)))))
      · have heq : (Point.unit u).escape = [u] := by
          rw [Point.escape, hlookup]
          exact if_neg hescape
        rw [heq]
        rw [Bool.not_eq_true, Bool.or_eq_false_iff, Bool.or_eq_false_iff] at hescape
        refine .unit ?_ .nil
        rw [hescape.1.2, hescape.2]
        rfl
  | pair u v => exact .pair hp.1 hp.2 .nil

theorem wellFormed_quote (s : JsString) : WellFormed (quote s) := by
  refine .unit rfl (.append ?_ (.unit rfl .nil))
  have hvalid := valid_of_mem_points s
  generalize points s = ps at hvalid
  induction ps with
  | nil => exact .nil
  | cons p ps ih =>
    exact (wellFormed_escape (hvalid p mem_cons_self)).append
      (ih fun q hq => hvalid q (mem_cons_of_mem _ hq))

end JsString

end HiveRelay
