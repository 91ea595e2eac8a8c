import HiveRelay.Lib.Json

/-!
# Reading JSON

`JSON.parse`, one unit at a time, with a stack of the arrays and objects that are open. A reader of units
needs no measure of what is left, and the beginning of a text is read as the text itself is.

A number is kept as it is spelled, with a small `e`. So a number is only read back as itself if it is
spelled as it is printed.

## Main definitions

* `Json.Mode`, `Json.Frame`, `Json.step`, `Json.parse` — the reader
* `Json.Readable` — the values of JSON: numbers are spelled as in JSON, and keys are different

## Main results

* `Json.parse_text` — an object is read back from its text
* `Json.parse_prefix`, `Json.parse_prefix_replaced` — the beginning of the text of an object is not JSON
-/

namespace HiveRelay.Json

open List Option
open JsString (ofText quote)

/-! ### Units -/

/-- White space of JSON. -/
def isBlank (u : UInt16) : Bool := u == 0x20 || u == 0x09 || u == 0x0a || u == 0x0d

/-- A digit. -/
def isDigit (u : UInt16) : Bool := 0x30 ≤ u && u ≤ 0x39

/-- A hexadecimal digit. -/
def hexValue (u : UInt16) : Option ℕ :=
  if 0x30 ≤ u && u ≤ 0x39 then some (u.toNat - 0x30)
  else if 0x61 ≤ u && u ≤ 0x66 then some (u.toNat - 0x57)
  else if 0x41 ≤ u && u ≤ 0x46 then some (u.toNat - 0x37)
  else none

/-- The unit that a letter escapes. -/
def unescape (letter : UInt16) : Option UInt16 :=
  if letter = 0x2f then some 0x2f else (JsString.shortEscapes.find? (·.2 == letter)).map Prod.fst

/-! ### Numbers -/

/-- An exponent, or nothing. -/
def isExponent : JsString → Bool
  | [] => true
  | e :: rest =>
    e == 0x65 &&
      match rest with
      | sign :: d :: ds => ((sign == 0x2b || sign == 0x2d) || isDigit sign) && isDigit d && ds.all isDigit
      | [d] => isDigit d
      | [] => false

/-- A fraction and an exponent, or one of them, or nothing. -/
def isFraction : JsString → Bool
  | 0x2e :: d :: rest => isDigit d && isExponent (rest.dropWhile isDigit)
  | s => isExponent s

/-- A number without its sign. -/
def isUnsigned : JsString → Bool
  | 0x30 :: rest => isFraction rest
  | d :: rest => isDigit d && isFraction (rest.dropWhile isDigit)
  | [] => false

/-- The grammar of numbers, with a small `e`. -/
def isNumber : JsString → Bool
  | 0x2d :: rest => isUnsigned rest
  | s => isUnsigned s

/-- A unit of a number, with both letters of the exponent. -/
def isNumberPart (u : UInt16) : Bool := isNumberUnit u || u == 0x45

/-- The number that is spelled by these units. -/
def numberOf (spelling : JsString) : Option Json :=
  let s := spelling.map fun u => if u = 0x45 then 0x65 else u
  if h : s ≠ [] ∧ s.all isNumberUnit = true ∧ isNumber s = true then some (.number ⟨s, h.1, h.2.1⟩) else none

/-! ### The reader -/

/-- Set a member of an object. A later one replaces an earlier one of the same key. -/
def setMember (members : List (JsString × Json)) (key : JsString) (value : Json) : List (JsString × Json) :=
  if members.any (·.1 == key) then members.map fun m => if m.1 == key then (key, value) else m
  else members ++ [(key, value)]

/-- An array or an object that is open, with the key of the member that is read. -/
inductive Frame where
  | array (items : List Json)
  | object (members : List (JsString × Json)) (key : JsString)

/-- What is read at the top of the stack. A literal is a value, or the next key of some members. -/
inductive Mode where
  | value
  | first
  | firstKey
  | key (members : List (JsString × Json))
  | colon (members : List (JsString × Json)) (key : JsString)
  | word (rest : JsString) (v : Json)
  | number (spelling : JsString)
  | string (keyOf : Option (List (JsString × Json))) (s : JsString)
  | escape (keyOf : Option (List (JsString × Json))) (s : JsString)
  | hex (keyOf : Option (List (JsString × Json))) (s : JsString) (count value : ℕ)
  | done (v : Json)

/-- A state of the reader. -/
abbrev State := Mode × List Frame

/-- The first unit of a value. -/
def stepValue (stack : List Frame) (u : UInt16) : Option State :=
  if isBlank u then some (.value, stack)
  else if u = 0x22 then some (.string none [], stack)
  else if u = 0x7b then some (.firstKey, stack)
  else if u = 0x5b then some (.first, .array [] :: stack)
  else if u = 0x74 then some (.word (ofText "rue") (.bool true), stack)
  else if u = 0x66 then some (.word (ofText "alse") (.bool false), stack)
  else if u = 0x6e then some (.word (ofText "ull") .null, stack)
  else if isNumberPart u then some (.number [u], stack)
  else none

/-- A unit after a value. -/
def stepDone (v : Json) (stack : List Frame) (u : UInt16) : Option State :=
  if isBlank u then some (.done v, stack)
  else
    match stack with
    | .array items :: stack =>
      if u = 0x2c then some (.value, .array (items ++ [v]) :: stack)
      else if u = 0x5d then some (.done (.array (items ++ [v])), stack)
      else none
    | .object members key :: stack =>
      if u = 0x2c then some (.key (setMember members key v), stack)
      else if u = 0x7d then some (.done (.object (setMember members key v)), stack)
      else none
    | [] => none

/-- A unit of a literal. -/
def stepString (keyOf : Option (List (JsString × Json))) (s : JsString) (stack : List Frame) (u : UInt16) :
    Option State :=
  if u = 0x22 then
    match keyOf with
    | some members => some (.colon members s, stack)
    | none => some (.done (.string s), stack)
  else if u = 0x5c then some (.escape keyOf s, stack)
  else if u < 0x20 then none
  else some (.string keyOf (s ++ [u]), stack)

/-- One unit. -/
def step : State → UInt16 → Option State
  | (.value, stack), u => stepValue stack u
  | (.first, stack), u =>
    if u = 0x5d then some (.done (.array []), stack.tail)
    else if isBlank u then some (.first, stack)
    else stepValue stack u
  | (.firstKey, stack), u =>
    if isBlank u then some (.firstKey, stack)
    else if u = 0x7d then some (.done (.object []), stack)
    else if u = 0x22 then some (.string (some []) [], stack)
    else none
  | (.key members, stack), u =>
    if isBlank u then some (.key members, stack)
    else if u = 0x22 then some (.string (some members) [], stack)
    else none
  | (.colon members key, stack), u =>
    if isBlank u then some (.colon members key, stack)
    else if u = 0x3a then some (.value, .object members key :: stack)
    else none
  | (.word rest v, stack), u =>
    match rest with
    | [] => none
    | [c] => if u = c then some (.done v, stack) else none
    | c :: rest => if u = c then some (.word rest v, stack) else none
  | (.number spelling, stack), u =>
    if isNumberPart u then some (.number (spelling ++ [u]), stack)
    else (numberOf spelling).bind fun v => stepDone v stack u
  | (.string keyOf s, stack), u => stepString keyOf s stack u
  | (.escape keyOf s, stack), u =>
    if u = 0x75 then some (.hex keyOf s 0 0, stack)
    else (unescape u).map fun c => (.string keyOf (s ++ [c]), stack)
  | (.hex keyOf s count value, stack), u =>
    (hexValue u).map fun d =>
      if count = 3 then (.string keyOf (s ++ [UInt16.ofNat (value * 16 + d)]), stack)
      else (.hex keyOf s (count + 1) (value * 16 + d), stack)
  | (.done v, stack), u => stepDone v stack u

/-- All units. -/
def run : State → JsString → Option State
  | state, [] => some state
  | state, u :: s => (step state u).bind fun state => run state s

/-- What has been read when there are no more units. -/
def result : State → Option Json
  | (.done v, []) => some v
  | (.number spelling, []) => numberOf spelling
  | _ => none

/-- `JSON.parse`; `none` is thrown. -/
def parse (s : JsString) : Option Json := (run (.value, []) s).bind result

theorem run_append (state : State) (s t : JsString) :
    run state (s ++ t) = (run state s).bind fun state => run state t := by
  induction s generalizing state with
  | nil => rfl
  | cons u s ih =>
    rw [cons_append, run, run]
    cases step state u with
    | none => rfl
    | some state => exact ih state

/-! ### Reading a text -/

mutual

/-- Numbers are spelled as in JSON, and the keys of each object are different. -/
def Readable : Json → Prop
  | .number n => isNumber n.text = true
  | .array items => ReadableItems items
  | .object members => (members.map Prod.fst).Nodup ∧ ReadableMembers members
  | _ => True

def ReadableItems : List Json → Prop
  | [] => True
  | item :: items => Readable item ∧ ReadableItems items

def ReadableMembers : List (JsString × Json) → Prop
  | [] => True
  | (_, value) :: members => Readable value ∧ ReadableMembers members

end

variable {items : List Json}

theorem readableItems_iff : ReadableItems items ↔ ∀ v ∈ items, Readable v := by
  induction items with
  | nil => simp [ReadableItems]
  | cons item items ih => simp [ReadableItems, ih]

variable {members : List (JsString × Json)}

theorem readableMembers_iff : ReadableMembers members ↔ ∀ m ∈ members, Readable m.2 := by
  induction members with
  | nil => simp [ReadableMembers]
  | cons m members ih =>
    simp [ReadableMembers, ih]

theorem hexValue_hexDigit : ∀ n < 16, hexValue (JsString.hexDigit n) = some n := by decide

theorem hexDigit_ge : ∀ n < 16, ¬ JsString.hexDigit n < 0x20 := by decide

theorem unescape_shortEscapes : ∀ e ∈ JsString.shortEscapes, e.2 ≠ 0x75 ∧ unescape e.2 = some e.1 ∧
    ¬ e.2 < 0x20 := JsString.forall_mem_of_all (by decide)

theorem not_lt_of_mem_escape {p : JsString.Point} (hp : p.Valid) : ∀ u ∈ p.escape, ¬ u < 0x20 := by
  cases p with
  | unit u =>
    rw [JsString.Point.escape]
    cases hlookup : JsString.shortEscapes.lookup u with
    | some letter =>
      have hletter := (unescape_shortEscapes _ (JsString.mem_of_lookup_eq_some hlookup)).2.2
      simp only [mem_cons, not_mem_nil, or_false]
      rintro w (rfl | rfl)
      · decide
      · exact hletter
    | none =>
      by_cases hescape : (u < 0x20 || JsString.isHigh u || JsString.isLow u) = true
      · have hu := u.toNat_lt
        simp only [if_pos hescape, JsString.hexDigits, mem_cons, not_mem_nil, or_false]
        rintro w (rfl | rfl | rfl | rfl | rfl | rfl)
        · decide
        · decide
        · exact hexDigit_ge _ (by omega)
        · exact hexDigit_ge _ (by omega)
        · exact hexDigit_ge _ (by omega)
        · exact hexDigit_ge _ (by omega)
      · simp only [if_neg hescape, mem_cons, not_mem_nil, or_false]
        rintro w rfl
        simp only [Bool.not_eq_true, Bool.or_eq_false_iff, decide_eq_false_iff_not] at hescape
        exact hescape.1.1
  | pair u v =>
    have hu := JsString.isHigh_iff.mp hp.1
    have hv := JsString.isLow_iff.mp hp.2
    simp only [JsString.Point.escape, mem_cons, not_mem_nil, or_false, UInt16.lt_iff_toNat_lt]
    rintro w (rfl | rfl)
    · show ¬ w.toNat < 32
      omega
    · show ¬ w.toNat < 32
      omega

theorem not_lt_of_mem_quote (s : JsString) : ∀ u ∈ quote s, ¬ u < 0x20 := by
  intro u hu
  rw [quote, mem_cons, mem_append, mem_flatMap, mem_singleton] at hu
  rcases hu with rfl | ⟨p, hp, hmem⟩ | rfl
  · decide
  · exact not_lt_of_mem_escape (JsString.valid_of_mem_points s p hp) u hmem
  · decide

theorem not_lt_of_mem_join {ss : List JsString} (h : ∀ s ∈ ss, ∀ u ∈ s, ¬ u < 0x20) :
    ∀ u ∈ join ss, ¬ u < 0x20 := by
  intro u hu
  induction ss with
  | nil => simp [join] at hu
  | cons s ss ih =>
    rw [join_cons, mem_append] at hu
    rcases hu with hu | hu
    · exact h s mem_cons_self u hu
    · cases ss with
      | nil => simp [joinTail] at hu
      | cons t ss =>
        rw [joinTail, mem_cons] at hu
        rcases hu with rfl | hu
        · decide
        · exact ih (fun s' hs' => h s' (mem_cons_of_mem _ hs')) hu

variable {u : UInt16}

theorem not_lt_of_isNumberUnit (h : isNumberUnit u = true) : ¬ u < 0x20 := by
  intro hlt
  have hlt' : u.toNat < 32 := UInt16.lt_iff_toNat_lt.mp hlt
  simp only [isNumberUnit, Bool.or_eq_true, Bool.and_eq_true, decide_eq_true_eq, beq_iff_eq,
    UInt16.le_iff_toNat_le] at h
  rcases h with (((h | rfl) | rfl) | rfl) | rfl
  · have := h.1
    simp at this
    omega
  all_goals exact absurd hlt (by decide)

theorem not_lt_of_mem_text (v : Json) : ∀ u ∈ text v, ¬ u < 0x20 := by
  induction v with
  | null => exact JsString.forall_mem_of_all (by decide)
  | bool b => cases b <;> exact JsString.forall_mem_of_all (by decide)
  | number n => exact fun u hu => not_lt_of_isNumberUnit (all_eq_true.mp n.all_units u hu)
  | string s => exact not_lt_of_mem_quote s
  | array items ih =>
    intro u hu
    rw [text, mem_cons, mem_append, mem_singleton, texts_eq_map] at hu
    rcases hu with rfl | hu | rfl
    · decide
    · refine not_lt_of_mem_join ?_ u hu
      simpa using ih
    · decide
  | object members ih =>
    intro u hu
    rw [text, mem_cons, mem_append, mem_singleton, memberTexts_eq_map] at hu
    rcases hu with rfl | hu | rfl
    · decide
    · refine not_lt_of_mem_join (fun s hs w hw => ?_) u hu
      obtain ⟨m, hm, rfl⟩ := mem_map.mp hs
      rw [memberText, mem_append, mem_cons] at hw
      rcases hw with hw | rfl | hw
      · exact not_lt_of_mem_quote m.1 w hw
      · decide
      · exact ih m hm w hw
    · decide

variable {keyOf : Option (List (JsString × Json))} {stack : List Frame} {acc r : JsString}

theorem run_string_plain (hquote : u ≠ 0x22) (hslash : u ≠ 0x5c) (hcontrol : ¬ u < 0x20) :
    run (.string keyOf acc, stack) (u :: r) = run (.string keyOf (acc ++ [u]), stack) r := by
  have hstep : stepString keyOf acc stack u = some (.string keyOf (acc ++ [u]), stack) := by
    unfold stepString
    rw [if_neg hquote, if_neg hslash, if_neg hcontrol]
  rw [run, step, hstep, bind_some]

theorem run_hex_digit {count value n : ℕ} (hn : n < 16) (hcount : count ≠ 3) :
    run (.hex keyOf acc count value, stack) (JsString.hexDigit n :: r) =
      run (.hex keyOf acc (count + 1) (value * 16 + n), stack) r := by
  rw [run, step, hexValue_hexDigit n hn, map_some, if_neg hcount, bind_some]

theorem run_hex_last {value n : ℕ} (hn : n < 16) :
    run (.hex keyOf acc 3 value, stack) (JsString.hexDigit n :: r) =
      run (.string keyOf (acc ++ [UInt16.ofNat (value * 16 + n)]), stack) r := by
  rw [run, step, hexValue_hexDigit n hn, map_some, if_pos rfl, bind_some]

theorem run_string_hex : run (.string keyOf acc, stack) (0x5c :: 0x75 :: (JsString.hexDigits u ++ r)) =
      run (.string keyOf (acc ++ [u]), stack) r := by
  have hu := u.toNat_lt
  have hvalue : (((0 * 16 + u.toNat / 4096) * 16 + u.toNat / 256 % 16) * 16 + u.toNat / 16 % 16) * 16 +
      u.toNat % 16 = u.toNat := by omega
  have hopen : run (.string keyOf acc, stack) (0x5c :: 0x75 :: (JsString.hexDigits u ++ r)) =
      run (.hex keyOf acc 0 0, stack) (JsString.hexDigits u ++ r) := by
    simp [run, step, stepString]
  rw [hopen, JsString.hexDigits, cons_append, run_hex_digit (by omega) (by decide), cons_append,
    run_hex_digit (by omega) (by decide), cons_append, run_hex_digit (by omega) (by decide),
    cons_append, run_hex_last (by omega), hvalue, UInt16.ofNat_toNat]
  rfl

theorem run_escape {p : JsString.Point} (hp : p.Valid) :
    run (.string keyOf acc, stack) (p.escape ++ r) = run (.string keyOf (acc ++ p.units), stack) r := by
  have hcontrol := not_lt_of_mem_escape hp
  have hescaped := JsString.escaped p hp
  generalize p.escape = s at hcontrol hescaped
  cases hescaped with
  | plain _ hslash hquote => exact run_string_plain hquote hslash (hcontrol _ (by simp))
  | short h =>
    obtain ⟨hletter, hunescape, -⟩ := unescape_shortEscapes _ h
    simp [run, step, stepString, hletter, hunescape, JsString.Point.units]
  | hex => exact run_string_hex
  | @pair u v hhigh =>
    have hu := JsString.isHigh_iff.mp hp.1
    have hv := JsString.isLow_iff.mp hp.2
    have hne : ∀ w c : UInt16, c.toNat < 0xd800 → 0xd800 ≤ w.toNat → w ≠ c := by
      rintro w c hc hw rfl
      omega
    rw [cons_append, run_string_plain (hne u _ (by decide) hu.1) (hne u _ (by decide) hu.1)
      (hcontrol u (by simp)), cons_append, run_string_plain (hne v _ (by decide) (by omega))
      (hne v _ (by decide) (by omega)) (hcontrol v (by simp))]
    simp [JsString.Point.units]

theorem run_escapes {ps : List JsString.Point} (hps : ∀ p ∈ ps, p.Valid) :
    run (.string keyOf acc, stack) (ps.flatMap JsString.Point.escape ++ r) =
      run (.string keyOf (acc ++ ps.flatMap JsString.Point.units), stack) r := by
  induction ps generalizing acc with
  | nil => simp
  | cons p ps ih =>
    rw [flatMap_cons, append_assoc, run_escape (hps p mem_cons_self),
      ih fun q hq => hps q (mem_cons_of_mem _ hq), flatMap_cons, append_assoc]

variable {s : JsString}

theorem run_quote_value : run (.value, stack) (quote s ++ r) = run (.done (.string s), stack) r := by
  have hopen : step (.value, stack) 0x22 = some (.string none [], stack) := rfl
  rw [quote, cons_append, run, hopen, bind_some, append_assoc,
    run_escapes (JsString.valid_of_mem_points s), JsString.flatMap_units_points, nil_append]
  rfl

theorem run_quote_key : run (.key members, stack) (quote s ++ r) = run (.colon members s, stack) r := by
  have hopen : step (.key members, stack) 0x22 = some (.string (some members) [], stack) := rfl
  rw [quote, cons_append, run, hopen, bind_some, append_assoc,
    run_escapes (JsString.valid_of_mem_points s), JsString.flatMap_units_points, nil_append]
  rfl

/-! ### Numbers and words -/

theorem ne_of_isNumberUnit {c : UInt16} (hu : isNumberUnit u = true) (hc : isNumberUnit c = false) :
    u ≠ c := by
  rintro rfl
  rw [hu] at hc
  cases hc

theorem isBlank_of_isNumberUnit (hu : isNumberUnit u = true) : isBlank u = false := by
  have h₁ : u ≠ 0x20 := ne_of_isNumberUnit hu (by decide)
  have h₂ : u ≠ 0x09 := ne_of_isNumberUnit hu (by decide)
  have h₃ : u ≠ 0x0a := ne_of_isNumberUnit hu (by decide)
  have h₄ : u ≠ 0x0d := ne_of_isNumberUnit hu (by decide)
  simp [isBlank, h₁, h₂, h₃, h₄]

variable {v : Json}

theorem isBlank_of_firstUnit (h : firstUnit v u) : isBlank u = false := by
  cases v with
  | bool b => cases b <;> (obtain rfl := h; decide)
  | number n => exact isBlank_of_isNumberUnit h
  | _ => obtain rfl := h; decide

theorem stepValue_number (hu : isNumberUnit u = true) :
    stepValue stack u = some (.number [u], stack) := by
  have hpart : isNumberPart u = true := by rw [isNumberPart, hu, Bool.true_or]
  rw [stepValue, if_neg (Bool.eq_false_iff.mp (isBlank_of_isNumberUnit hu)),
    if_neg (ne_of_isNumberUnit hu (by decide)), if_neg (ne_of_isNumberUnit hu (by decide)),
    if_neg (ne_of_isNumberUnit hu (by decide)), if_neg (ne_of_isNumberUnit hu (by decide)),
    if_neg (ne_of_isNumberUnit hu (by decide)), if_neg (ne_of_isNumberUnit hu (by decide)), if_pos hpart]

theorem numberOf_text {n : Number} (h : isNumber n.text = true) : numberOf n.text = some (.number n) := by
  have hsame : (n.text.map fun u => if u = 0x45 then 0x65 else u) = n.text := by
    refine (map_congr_left fun u hu => ?_).trans (map_id _)
    exact if_neg (ne_of_isNumberUnit (all_eq_true.mp n.all_units u hu) (by decide))
  unfold numberOf
  simp only [hsame]
  rw [dif_pos ⟨n.ne_nil, n.all_units, h⟩]

theorem run_number_units {spelling : JsString} (hs : s.all isNumberUnit = true) :
    run (.number spelling, stack) (s ++ r) = run (.number (spelling ++ s), stack) r := by
  induction s generalizing spelling with
  | nil => simp
  | cons u s ih =>
    rw [all_cons, Bool.and_eq_true] at hs
    have hpart : isNumberPart u = true := by rw [isNumberPart, hs.1, Bool.true_or]
    rw [cons_append, run, step, if_pos hpart, bind_some, ih hs.2, append_assoc]
    rfl

theorem run_number {n : Number} {c : UInt16} (h : isNumber n.text = true) (hc : isNumberPart c = false) :
    run (.value, stack) (n.text ++ c :: r) = run (.done (.number n), stack) (c :: r) := by
  obtain ⟨u, s, htext⟩ := exists_cons_of_ne_nil n.ne_nil
  have hunits := n.all_units
  rw [htext, all_cons, Bool.and_eq_true] at hunits
  have hread : run (.value, stack) (n.text ++ c :: r) = run (.number n.text, stack) (c :: r) := by
    rw [htext, cons_append, run, step, stepValue_number hunits.1, bind_some,
      run_number_units hunits.2]
    rfl
  rw [hread, run, step, if_neg (Bool.eq_false_iff.mp hc), numberOf_text h]
  rfl

theorem run_word (h : v = .null ∨ ∃ b, v = .bool b) :
    run (.value, stack) (text v ++ r) = run (.done v, stack) r := by
  obtain rfl | ⟨b, rfl⟩ := h
  · rfl
  · cases b <;> rfl

/-! ### Arrays and objects -/

/-- What a value must be followed by to be read: a number ends at some unit. -/
def Ends (v : Json) (r : JsString) : Prop :=
  ∀ n, v = .number n → ∃ c r', r = c :: r' ∧ isNumberPart c = false

/-- A value is read from its text. -/
def Reads (v : Json) : Prop :=
  ∀ (stack : List Frame) (r : JsString), Ends v r →
    run (.value, stack) (text v ++ r) = run (.done v, stack) r

theorem ends_joinTail {ss : List JsString} {c : UInt16} (hc : isNumberPart c = false) :
    Ends v (joinTail ss ++ c :: r) := by
  intro n _
  cases ss with
  | nil => exact ⟨c, r, rfl, hc⟩
  | cons s ss => exact ⟨0x2c, _, rfl, by decide⟩

theorem run_items {vs : List Json} (h : ∀ w ∈ vs, Reads w) :
    run (.done v, .array items :: stack) (joinTail (texts vs) ++ 0x5d :: r) =
      run (.done (.array (items ++ v :: vs)), stack) r := by
  induction vs generalizing items v with
  | nil => rfl
  | cons w vs ih =>
    have hcomma : step (.done v, .array items :: stack) 0x2c =
        some (.value, .array (items ++ [v]) :: stack) := rfl
    rw [texts, joinTail, cons_append, run, hcomma, bind_some, join_cons, append_assoc,
      h w mem_cons_self _ _ (ends_joinTail (by decide)),
      ih fun w' hw' => h w' (mem_cons_of_mem _ hw'), append_assoc]
    rfl

theorem reads_array (h : ∀ v ∈ items, Reads v) : Reads (.array items) := by
  intro stack r _
  have hopen : step (.value, stack) 0x5b = some (.first, .array [] :: stack) := rfl
  rw [text, cons_append, run, hopen, bind_some, append_assoc]
  cases items with
  | nil => rfl
  | cons v vs =>
    -- the first unit of a value is not the end of the array
    have hfirst : ∀ s, run (.first, .array [] :: stack) (text v ++ s) =
        run (.value, .array [] :: stack) (text v ++ s) := by
      intro s
      obtain ⟨u, rest, htext, hu⟩ := text_eq_cons v
      have hne := (firstUnit_ne hu).1
      have hblank := isBlank_of_firstUnit hu
      rw [htext, cons_append, run, run, step, step, if_neg hne, if_neg (Bool.eq_false_iff.mp hblank)]
    rw [texts, join_cons, append_assoc, hfirst, singleton_append,
      h v mem_cons_self _ _ (ends_joinTail (by decide)),
      run_items fun w hw => h w (mem_cons_of_mem _ hw)]
    rfl

theorem setMember_of_notMem {key : JsString}
    (h : key ∉ members.map Prod.fst) : setMember members key v = members ++ [(key, v)] := by
  have hany : ¬ members.any (·.1 == key) = true := by
    rw [List.any_eq_true]
    rintro ⟨m, hm, hkey⟩
    exact h (mem_map.mpr ⟨m, hm, eq_of_beq hkey⟩)
  rw [setMember, if_neg hany]

variable {m : JsString × Json}

theorem setMember_of_nodup {ms : List (JsString × Json)}
    (h : ((members ++ m :: ms).map Prod.fst).Nodup) : setMember members m.1 m.2 = members ++ [m] := by
  refine setMember_of_notMem fun hmem => ?_
  rw [map_append, map_cons, nodup_append] at h
  exact h.2.2 m.1 hmem m.1 mem_cons_self rfl

theorem run_member (h : Reads m.2) (hends : Ends m.2 r) :
    run (.key members, stack) (memberText m ++ r) = run (.done m.2, .object members m.1 :: stack) r := by
  have hcolon : step (.colon members m.1, stack) 0x3a = some (.value, .object members m.1 :: stack) := rfl
  rw [memberText, append_assoc, run_quote_key, cons_append, run, hcolon, bind_some,
    h _ _ hends]

theorem run_members {ms : List (JsString × Json)} (h : ∀ w ∈ ms, Reads w.2)
    (hnodup : ((members ++ m :: ms).map Prod.fst).Nodup) :
    run (.done m.2, .object members m.1 :: stack) (joinTail (memberTexts ms) ++ 0x7d :: r) =
      run (.done (.object (members ++ m :: ms)), stack) r := by
  induction ms generalizing members m with
  | nil =>
    have hclose : step (.done m.2, .object members m.1 :: stack) 0x7d =
        some (.done (.object (setMember members m.1 m.2)), stack) := rfl
    rw [memberTexts, joinTail, nil_append, run, hclose, setMember_of_nodup hnodup]
    rfl
  | cons w ms ih =>
    have hcomma : step (.done m.2, .object members m.1 :: stack) 0x2c =
        some (.key (setMember members m.1 m.2), stack) := rfl
    have hnodup' : (((members ++ [m]) ++ w :: ms).map Prod.fst).Nodup := by simpa using hnodup
    rw [memberTexts_eq_map, map_cons, joinTail, cons_append, run, hcomma, bind_some,
      setMember_of_nodup hnodup, join_cons, append_assoc,
      run_member (h w mem_cons_self) (ends_joinTail (by decide)), ← memberTexts_eq_map,
      ih (fun w' hw' => h w' (mem_cons_of_mem _ hw')) hnodup', append_assoc]
    rfl

theorem reads_object (h : ∀ m ∈ members, Reads m.2)
    (hnodup : (members.map Prod.fst).Nodup) : Reads (.object members) := by
  intro stack r _
  have hopen : step (.value, stack) 0x7b = some (.firstKey, stack) := rfl
  rw [text, cons_append, run, hopen, bind_some, append_assoc]
  cases members with
  | nil => rfl
  | cons m ms =>
    -- a literal is read in the same way as after a comma
    have hfirst : ∀ s, run (.firstKey, stack) (memberText m ++ s) = run (.key [], stack) (memberText m ++ s) :=
      fun _ => rfl
    rw [memberTexts_eq_map, map_cons, join_cons, append_assoc, hfirst, singleton_append,
      run_member (h m mem_cons_self) (ends_joinTail (by decide)), ← memberTexts_eq_map,
      run_members (fun w hw => h w (mem_cons_of_mem _ hw)) (by simpa using hnodup)]
    rfl

theorem reads (v : Json) (h : Readable v) : Reads v := by
  induction v with
  | null => exact fun stack r _ => run_word (Or.inl rfl)
  | bool b => exact fun stack r _ => run_word (Or.inr ⟨b, rfl⟩)
  | number n =>
    intro stack r hends
    obtain ⟨c, r, rfl, hc⟩ := hends n rfl
    exact run_number h hc
  | string s => exact fun stack r _ => run_quote_value
  | array items ih =>
    exact reads_array fun v hv => ih v hv (readableItems_iff.mp h v hv)
  | object members ih =>
    exact reads_object (fun m hm => ih m hm (readableMembers_iff.mp h.2 m hm)) h.1

/-- **An object is read back from its text.** -/
theorem parse_text (h : Readable (.object members)) :
    parse (text (.object members)) = some (.object members) := by
  have hread := reads (.object members) h [] [] (by rintro n ⟨⟩)
  rw [append_nil] at hread
  rw [parse, hread]
  rfl

/-! ### The beginning of a text -/

/-- A state in which the end of an object is still to come. -/
def Inside : State → Prop
  | (_, _ :: _) => True
  | (.firstKey, []) => True
  | (.key _, []) => True
  | (.colon _ _, []) => True
  | (.string (some _) _, []) => True
  | (.escape (some _) _, []) => True
  | (.hex (some _) _ _ _, []) => True
  | _ => False

/-- A state in which one value has been read. -/
def Complete (state : State) : Prop := ∃ v, state = (.done v, [])

/-- A unit that a complete value can end with. -/
def isLast (u : UInt16) : Bool := u == 0x5d || u == 0x7d || isBlank u

variable {frame : Frame} {state : State}

theorem stepValue_inside (h : stepValue (frame :: stack) u = some state) : Inside state := by
  unfold stepValue at h
  split_ifs at h <;> (obtain rfl := some.inj h; trivial)

theorem done_inside (hlast : isLast u = true) :
    Inside (.done v, stack) ∨ Complete (.done v, stack) ∧ isLast u = true := by
  cases stack with
  | nil => exact Or.inr ⟨⟨v, rfl⟩, hlast⟩
  | cons frame stack => exact Or.inl trivial

theorem stepDone_inside
    (h : stepDone v (frame :: stack) u = some state) : Inside state ∨ Complete state ∧ isLast u = true := by
  cases frame with
  | array items =>
    simp only [stepDone] at h
    split_ifs at h with hblank hcomma hend
    · cases h
      exact Or.inl trivial
    · cases h
      exact Or.inl trivial
    · cases h
      exact done_inside (by rw [hend]; decide)
  | object members key =>
    simp only [stepDone] at h
    split_ifs at h with hblank hcomma hend
    · cases h
      exact Or.inl trivial
    · cases h
      -- a key is read next, also of the outermost object
      cases stack <;> exact Or.inl trivial
    · cases h
      exact done_inside (by rw [hend]; decide)

/-- Where the stack is not empty, one unit does not complete more than the last frame. -/
theorem step_inside_cons {mode : Mode}
    (h : step (mode, frame :: stack) u = some state) : Inside state ∨ Complete state ∧ isLast u = true := by
  cases mode with
  | value => exact Or.inl (stepValue_inside h)
  | first =>
    simp only [step, tail_cons] at h
    split_ifs at h with hend hblank
    · cases h
      exact done_inside (by rw [hend]; decide)
    · cases h
      exact Or.inl trivial
    · exact Or.inl (stepValue_inside h)
  | firstKey | key members | colon members key =>
    simp only [step] at h
    split_ifs at h <;> (obtain rfl := some.inj h; exact Or.inl trivial)
  | word rest v =>
    cases rest with
    | nil => cases h
    | cons c rest =>
      cases rest <;>
        (simp only [step] at h; split_ifs at h; obtain rfl := some.inj h; exact Or.inl trivial)
  | number spelling =>
    simp only [step] at h
    split_ifs at h
    · cases h
      exact Or.inl trivial
    · obtain ⟨v, -, hdone⟩ := bind_eq_some_iff.mp h
      exact stepDone_inside hdone
  | string keyOf s =>
    cases keyOf <;>
      (simp only [step, stepString] at h
       split_ifs at h <;> (obtain rfl := some.inj h; exact Or.inl trivial))
  | escape keyOf s =>
    simp only [step] at h
    split_ifs at h
    · cases h
      exact Or.inl trivial
    · obtain ⟨c, -, rfl⟩ := map_eq_some_iff.mp h
      exact Or.inl trivial
  | hex keyOf s count value =>
    obtain ⟨d, -, rfl⟩ := map_eq_some_iff.mp h
    split_ifs <;> exact Or.inl trivial
  | done v => exact stepDone_inside h

/-- Where the outermost object is read, only its end completes it. -/
theorem step_inside {state' : State} (hin : Inside state)
    (h : step state u = some state') : Inside state' ∨ Complete state' ∧ isLast u = true := by
  obtain ⟨mode, stack⟩ := state
  cases stack with
  | cons frame stack => exact step_inside_cons h
  | nil =>
    cases mode with
    | firstKey =>
      simp only [step] at h
      split_ifs at h with hblank hend
      · cases h
        exact Or.inl trivial
      · cases h
        exact done_inside (by rw [hend]; decide)
      · cases h
        exact Or.inl trivial
    | key members | colon members key =>
      simp only [step] at h
      split_ifs at h <;> (obtain rfl := some.inj h; exact Or.inl trivial)
    | string keyOf s =>
      cases keyOf with
      | none => exact absurd hin id
      | some members =>
        simp only [step, stepString] at h
        split_ifs at h <;> (obtain rfl := some.inj h; exact Or.inl trivial)
    | escape keyOf s =>
      cases keyOf with
      | none => exact absurd hin id
      | some members =>
        simp only [step] at h
        split_ifs at h
        · cases h
          exact Or.inl trivial
        · obtain ⟨c, -, rfl⟩ := map_eq_some_iff.mp h
          exact Or.inl trivial
    | hex keyOf s count value =>
      cases keyOf with
      | none => exact absurd hin id
      | some members =>
        obtain ⟨d, -, rfl⟩ := map_eq_some_iff.mp h
        split_ifs <;> exact Or.inl trivial
    | _ => exact absurd hin id

theorem run_complete {state' : State} (hin : Complete state)
    (h : run state s = some state') : Complete state' ∧ ∀ u ∈ s, isBlank u = true := by
  induction s generalizing state with
  | nil =>
    cases h
    exact ⟨hin, by simp⟩
  | cons u s ih =>
    obtain ⟨v, rfl⟩ := hin
    obtain ⟨next, hstep, hrun⟩ := bind_eq_some_iff.mp h
    simp only [step, stepDone] at hstep
    split_ifs at hstep with hblank
    cases hstep
    obtain ⟨hcomplete, hrest⟩ := ih ⟨v, rfl⟩ hrun
    exact ⟨hcomplete, forall_mem_cons.mpr ⟨hblank, hrest⟩⟩

/-- A text that begins an object is read up to some place inside, or up to its end. -/
theorem run_inside {state' : State} (hin : Inside state) (h : run state s = some state') :
    Inside state' ∨ Complete state' ∧ ∃ u ∈ s.getLast?, isLast u = true := by
  induction s generalizing state with
  | nil =>
    cases h
    exact Or.inl hin
  | cons u s ih =>
    obtain ⟨next, hstep, hrun⟩ := bind_eq_some_iff.mp h
    have hlast : ∀ w ∈ s.getLast?, w ∈ (u :: s).getLast? := by
      intro w hw
      rw [getLast?_cons, show s.getLast? = some w from hw]
      rfl
    rcases step_inside hin hstep with hnext | ⟨hnext, hu⟩
    · exact (ih hnext hrun).imp_right fun ⟨hcomplete, w, hw, hlast'⟩ => ⟨hcomplete, w, hlast w hw, hlast'⟩
    · obtain ⟨hcomplete, hblanks⟩ := run_complete hnext hrun
      refine Or.inr ⟨hcomplete, ?_⟩
      cases hs : s.getLast? with
      | none =>
        rw [getLast?_eq_none_iff] at hs
        subst hs
        exact ⟨u, rfl, hu⟩
      | some w =>
        refine ⟨w, hlast w hs, ?_⟩
        rw [isLast, hblanks w (mem_of_getLast? hs), Bool.or_true]

theorem result_of_inside (h : Inside state) : result state = none := by
  obtain ⟨mode, stack⟩ := state
  cases stack with
  | cons frame stack => cases mode <;> rfl
  | nil => cases mode <;> first | rfl | exact absurd h id

/-- What is read as JSON after the beginning of an object ends like one. -/
theorem parse_object_getLast (h : parse (0x7b :: s) = some v) :
    ∃ state, run (.firstKey, []) s = some state ∧ Complete state ∧ ∃ u ∈ s.getLast?, isLast u = true := by
  obtain ⟨state, hrun, hresult⟩ := bind_eq_some_iff.mp h
  refine ⟨state, hrun, ?_⟩
  have hstart : Inside (.firstKey, []) := trivial
  rcases run_inside hstart hrun with hin | hcomplete
  · rw [result_of_inside hin] at hresult
    cases hresult
  · exact hcomplete

/-- **The beginning of the text of an object** is not JSON. -/
theorem parse_prefix {t : JsString} (h : Readable (.object members))
    (heq : text (.object members) = s ++ t) (ht : t ≠ []) : parse s = none := by
  cases s with
  | nil => rfl
  | cons u s =>
    have hu : u = 0x7b := by
      exact (cons.inj heq).1.symm
    subst hu
    by_contra hparse
    obtain ⟨v, hv⟩ := ne_none_iff_exists'.mp hparse
    obtain ⟨state, hrun, hcomplete, -⟩ := parse_object_getLast hv
    -- the rest of the text would be white space, and it ends the object
    have hwhole := parse_text h
    rw [heq, parse] at hwhole
    obtain ⟨last, hrun', -⟩ := bind_eq_some_iff.mp hwhole
    have hrun'' : run (.firstKey, []) (s ++ t) = some last := hrun'
    rw [run_append, hrun, bind_some] at hrun''
    have hblanks := (run_complete hcomplete hrun'').2
    have hend : (text (.object members)).getLast? = some 0x7d := by
      rw [text, ← cons_append, getLast?_concat]
    rw [heq, getLast?_append_of_ne_nil _ ht] at hend
    exact absurd (hblanks 0x7d (mem_of_getLast? hend)) (by decide)

/-- The beginning of the text of an object, with a replaced code point at its end, is not JSON. -/
theorem parse_prefix_replaced {t : JsString}
    (heq : text (.object members) = s ++ t) : parse (s ++ [0xfffd]) = none := by
  cases s with
  | nil => rfl
  | cons u s =>
    have hu : u = 0x7b := by
      exact (cons.inj heq).1.symm
    subst hu
    by_contra hparse
    obtain ⟨v, hv⟩ := ne_none_iff_exists'.mp hparse
    obtain ⟨_, -, -, w, hw, hlast⟩ := parse_object_getLast hv
    change (s ++ [0xfffd]).getLast? = some w at hw
    rw [getLast?_concat] at hw
    cases hw
    exact absurd hlast (by decide)

end HiveRelay.Json
