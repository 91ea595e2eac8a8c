import HiveRelay.Lib.JsString
import Mathlib.Data.List.Sort

/-!
# JSON values and their texts

A number is kept as the text that it is printed as, and an object as the list of its members. A text can
be read in one way only, also in front of something else.

## Main definitions

* `Json`, `Json.text` — JSON values, and what `JSON.stringify` writes
* `Json.Place` — a reader of a text, in a literal or not
* `Json.prune` — a value without some members, with the others in order
* `Json.Same`, `Json.Distinct` — the same data, and objects whose keys are different

## Main results

* `Json.text_append_inj`, `Json.text_injective` — a text determines the value
* `Json.append_bar_inj` — a bar and a text can be told from what is in front of them
-/

namespace HiveRelay

open List Option

/-! ### Values -/

/-- The units that numbers are printed with: digits, signs, a point and an exponent. -/
def isNumberUnit (u : UInt16) : Bool :=
  (0x30 ≤ u && u ≤ 0x39) || u == 0x2b || u == 0x2d || u == 0x2e || u == 0x65

/-- A number, as the text that it is printed as. -/
structure Number where
  text : JsString
  ne_nil : text ≠ []
  all_units : text.all isNumberUnit = true

/-- A JSON value. -/
inductive Json where
  | null
  | bool (b : Bool)
  | number (n : Number)
  | string (s : JsString)
  | array (items : List Json)
  | object (members : List (JsString × Json))

namespace Json

open JsString (ofText quote)

/-- `join(',')`. -/
def join : List JsString → JsString
  | [] => []
  | [s] => s
  | s :: t :: rest => s ++ 0x2c :: join (t :: rest)

mutual

/-- `JSON.stringify`. -/
def text : Json → JsString
  | .null => ofText "null"
  | .bool true => ofText "true"
  | .bool false => ofText "false"
  | .number n => n.text
  | .string s => quote s
  | .array items => 0x5b :: (join (texts items) ++ [0x5d])
  | .object members => 0x7b :: (join (memberTexts members) ++ [0x7d])

/-- The texts of values. -/
def texts : List Json → List JsString
  | [] => []
  | item :: items => text item :: texts items

/-- The texts of members. -/
def memberTexts : List (JsString × Json) → List JsString
  | [] => []
  | (key, value) :: members => (quote key ++ 0x3a :: text value) :: memberTexts members

end

@[elab_as_elim, induction_eliminator]
theorem inductionOn {motive : Json → Prop} (null : motive .null) (bool : ∀ b, motive (.bool b))
    (number : ∀ n, motive (.number n)) (string : ∀ s, motive (.string s))
    (array : ∀ items, (∀ v ∈ items, motive v) → motive (.array items))
    (object : ∀ members, (∀ m ∈ members, motive m.2) → motive (.object members)) (v : Json) : motive v :=
  match v with
  | .null => null
  | .bool b => bool b
  | .number n => number n
  | .string s => string s
  | .array items => array items fun v _ => inductionOn null bool number string array object v
  | .object members => object members fun m _ => inductionOn null bool number string array object m.2
termination_by sizeOf v
decreasing_by
  · have := sizeOf_lt_of_mem ‹v ∈ items›
    simp only [Json.array.sizeOf_spec]
    omega
  · have := sizeOf_lt_of_mem ‹m ∈ members›
    obtain ⟨key, value⟩ := m
    simp only [Json.object.sizeOf_spec, Prod.mk.sizeOf_spec] at this ⊢
    omega

theorem texts_eq_map (items : List Json) : texts items = items.map text := by
  induction items with
  | nil => rfl
  | cons item items ih => rw [texts, ih, map_cons]

/-- The text of a member. -/
def memberText (m : JsString × Json) : JsString := quote m.1 ++ 0x3a :: text m.2

theorem memberTexts_eq_map (members : List (JsString × Json)) : memberTexts members = members.map memberText := by
  induction members with
  | nil => rfl
  | cons m members ih => rw [memberTexts, ih, map_cons, memberText]

/-! ### Texts -/

/-- A number ends here. -/
def Stops (r : JsString) : Prop := ∀ u ∈ r.head?, isNumberUnit u = false

variable {u : UInt16} {r : JsString}

theorem stops_cons (h : isNumberUnit u = false) : Stops (u :: r) := by
  intro u' hu'
  cases hu'
  exact h

/-- What is after the first of some joined texts. -/
def joinTail : List JsString → JsString
  | [] => []
  | s :: rest => 0x2c :: join (s :: rest)

theorem join_cons (s : JsString) (rest : List JsString) : join (s :: rest) = s ++ joinTail rest := by
  cases rest with
  | nil => rw [join, joinTail, append_nil]
  | cons t rest => rfl

section Join

variable {α : Type*} {f : α → JsString} {c : UInt16}

/-- It can be seen where each of some joined texts ends, and where the last one does. -/
theorem join_append_inj (hc : c ≠ 0x2c) (hstop : isNumberUnit c = false)
    (hhead : ∀ x r r', f x ++ r ≠ c :: r') {xs ys : List α} {r' : JsString}
    (hinj : ∀ x ∈ xs, ∀ y r r', Stops r → Stops r' → f x ++ r = f y ++ r' → x = y ∧ r = r')
    (h : join (xs.map f) ++ c :: r = join (ys.map f) ++ c :: r') : xs = ys ∧ r = r' := by
  induction xs generalizing ys with
  | nil =>
    cases ys with
    | nil => exact ⟨rfl, (cons.inj h).2⟩
    | cons y ys =>
      rw [map_cons, join_cons, append_assoc] at h
      exact absurd h.symm (hhead y _ _)
  | cons x xs ih =>
    cases ys with
    | nil =>
      rw [map_cons, join_cons, append_assoc] at h
      exact absurd h (hhead x _ _)
    | cons y ys =>
      have htail : ∀ (zs : List α) r, Stops (joinTail (zs.map f) ++ c :: r) := by
        intro zs r
        cases zs with
        | nil => exact stops_cons hstop
        | cons => exact stops_cons rfl
      rw [map_cons, map_cons, join_cons, join_cons, append_assoc, append_assoc] at h
      obtain ⟨rfl, hrest⟩ := hinj x mem_cons_self y _ _ (htail xs r) (htail ys r') h
      have hinj' : ∀ x ∈ xs, ∀ y r r', Stops r → Stops r' → f x ++ r = f y ++ r' → x = y ∧ r = r' :=
        fun x' hx' => hinj x' (mem_cons_of_mem _ hx')
      have heq : xs = ys ∧ r = r' := by
        refine ih hinj' ?_
        cases xs with
        | nil =>
          cases ys with
          | nil => exact hrest
          | cons => exact absurd (cons.inj hrest).1 hc
        | cons =>
          cases ys with
          | nil => exact absurd (cons.inj hrest).1.symm hc
          | cons => exact (cons.inj hrest).2
      exact ⟨by rw [heq.1], heq.2⟩

end Join

/-- How a text begins. -/
def firstUnit : Json → UInt16 → Prop
  | .null, u => u = 0x6e
  | .bool true, u => u = 0x74
  | .bool false, u => u = 0x66
  | .number _, u => isNumberUnit u = true
  | .string _, u => u = 0x22
  | .array _, u => u = 0x5b
  | .object _, u => u = 0x7b

theorem text_eq_cons (v : Json) : ∃ u rest, text v = u :: rest ∧ firstUnit v u := by
  cases v with
  | null => exact ⟨_, _, rfl, rfl⟩
  | bool b => cases b <;> exact ⟨_, _, rfl, rfl⟩
  | number n =>
    obtain ⟨u, rest, htext⟩ := exists_cons_of_ne_nil n.ne_nil
    have hall := n.all_units
    rw [htext, all_cons, Bool.and_eq_true_iff] at hall
    exact ⟨u, rest, by rw [text, htext], hall.1⟩
  | string s | array items | object members => exact ⟨_, _, rfl, rfl⟩

variable {v : Json}

theorem firstUnit_ne (h : firstUnit v u) : u ≠ 0x5d ∧ u ≠ 0x7d := by
  cases v with
  | bool b => cases b <;> (obtain rfl := h; decide)
  | number n =>
    have hunit : isNumberUnit u = true := h
    constructor
    · rintro rfl
      exact absurd hunit (by decide)
    · rintro rfl
      exact absurd hunit (by decide)
  | _ => obtain rfl := h; decide

theorem text_append_ne (v : Json) (r r' : JsString) : text v ++ r ≠ 0x5d :: r' := by
  obtain ⟨u, rest, htext, hfirst⟩ := text_eq_cons v
  rw [htext]
  exact fun h => (firstUnit_ne hfirst).1 (cons.inj h).1

theorem memberText_append_ne (m : JsString × Json) (r r' : JsString) : memberText m ++ r ≠ 0x7d :: r' :=
  fun h => absurd (cons.inj h).1 (by decide)

theorem Number.append_inj {n m : Number} {r' : JsString} (hr : Stops r) (hr' : Stops r')
    (h : n.text ++ r = m.text ++ r') : n = m ∧ r = r' := by
  have htake : ∀ (k : Number) r, Stops r → (k.text ++ r).takeWhile isNumberUnit = k.text := by
    intro k r hstop
    rw [takeWhile_append_of_pos (all_eq_true.mp k.all_units)]
    cases r with
    | nil => simp
    | cons u r => rw [takeWhile_cons_of_neg (by rw [hstop u rfl]; decide), append_nil]
  have heq : n.text = m.text := by rw [← htake n r hr, h, htake m r' hr']
  obtain ⟨text, _, _⟩ := n
  obtain ⟨text', _, _⟩ := m
  obtain rfl : text = text' := heq
  exact ⟨rfl, append_cancel_left h⟩

/-- Kinds of values that begin in different ways. -/
def kind : Json → ℕ
  | .null => 0
  | .bool true => 1
  | .bool false => 2
  | .number _ => 3
  | .string _ => 4
  | .array _ => 5
  | .object _ => 6

/-- The kind of the values that begin with a unit. -/
def unitKind (u : UInt16) : ℕ :=
  if u = 0x6e then 0 else if u = 0x74 then 1 else if u = 0x66 then 2 else if u = 0x22 then 4
  else if u = 0x5b then 5 else if u = 0x7b then 6 else 3

theorem unitKind_of_isNumberUnit (h : isNumberUnit u = true) : unitKind u = 3 := by
  have hne : ∀ w, isNumberUnit w = false → u ≠ w := by
    rintro w hw rfl
    rw [h] at hw
    cases hw
  simp only [unitKind, if_neg (hne 0x6e rfl), if_neg (hne 0x74 rfl), if_neg (hne 0x66 rfl),
    if_neg (hne 0x22 rfl), if_neg (hne 0x5b rfl), if_neg (hne 0x7b rfl)]

theorem unitKind_of_firstUnit (h : firstUnit v u) : unitKind u = kind v := by
  cases v with
  | bool b => cases b <;> (obtain rfl := h; rfl)
  | number n => exact unitKind_of_isNumberUnit h
  | _ => obtain rfl := h; rfl

theorem kind_eq {w : Json} {r' : JsString} (h : text v ++ r = text w ++ r') : kind v = kind w := by
  obtain ⟨u, rest, htext, hfirst⟩ := text_eq_cons v
  obtain ⟨u', rest', htext', hfirst'⟩ := text_eq_cons w
  rw [htext, htext'] at h
  rw [← unitKind_of_firstUnit hfirst, ← unitKind_of_firstUnit hfirst', (cons.inj h).1]

theorem memberText_append_inj {m : JsString × Json}
    (hvalue : ∀ w r r', Stops r → Stops r' → text m.2 ++ r = text w ++ r' → m.2 = w ∧ r = r')
    {m' : JsString × Json} {r' : JsString} (hr : Stops r) (hr' : Stops r')
    (h : memberText m ++ r = memberText m' ++ r') : m = m' ∧ r = r' := by
  rw [memberText, memberText, append_assoc, append_assoc] at h
  obtain ⟨hkey, hrest⟩ := JsString.quote_append_inj h
  obtain ⟨heq, hr⟩ := hvalue _ _ _ hr hr' (cons.inj hrest).2
  exact ⟨Prod.ext hkey heq, hr⟩

/-- **It can be seen where a text ends**, and of which value it is. -/
theorem text_append_inj (v : Json) : ∀ (w : Json) (r r' : JsString), Stops r → Stops r' →
    text v ++ r = text w ++ r' → v = w ∧ r = r' := by
  induction v with
  | null =>
    intro w r r' _ _ h
    have hkind := kind_eq h
    cases w with
    | null => exact ⟨rfl, append_cancel_left h⟩
    | bool b => cases b <;> cases hkind
    | _ => cases hkind
  | bool b =>
    intro w r r' _ _ h
    have hkind := kind_eq h
    cases w with
    | bool b' =>
      obtain rfl : b = b' := by cases b <;> cases b' <;> first | rfl | cases hkind
      exact ⟨rfl, append_cancel_left h⟩
    | _ => cases b <;> cases hkind
  | number n =>
    intro w r r' hr hr' h
    have hkind := kind_eq h
    cases w with
    | number m =>
      obtain ⟨rfl, hrest⟩ := Number.append_inj hr hr' h
      exact ⟨rfl, hrest⟩
    | bool b => cases b <;> cases hkind
    | _ => cases hkind
  | string s =>
    intro w r r' _ _ h
    have hkind := kind_eq h
    cases w with
    | string t =>
      obtain ⟨rfl, hrest⟩ := JsString.quote_append_inj h
      exact ⟨rfl, hrest⟩
    | bool b => cases b <;> cases hkind
    | _ => cases hkind
  | array items ih =>
    intro w r r' _ _ h
    have hkind := kind_eq h
    cases w with
    | array items' =>
      rw [text, text, cons_append, cons_append, append_assoc, append_assoc,
        texts_eq_map, texts_eq_map] at h
      obtain ⟨rfl, hrest⟩ := join_append_inj (by decide) rfl text_append_ne ih (cons.inj h).2
      exact ⟨rfl, hrest⟩
    | bool b => cases b <;> cases hkind
    | _ => cases hkind
  | object members ih =>
    intro w r r' _ _ h
    have hkind := kind_eq h
    cases w with
    | object members' =>
      rw [text, text, cons_append, cons_append, append_assoc, append_assoc,
        memberTexts_eq_map, memberTexts_eq_map] at h
      obtain ⟨rfl, hrest⟩ := join_append_inj (by decide) rfl memberText_append_ne
        (fun m hm m' r r' hr hr' => memberText_append_inj (ih m hm) hr hr') (cons.inj h).2
      exact ⟨rfl, hrest⟩
    | bool b => cases b <;> cases hkind
    | _ => cases hkind

/-- **A text determines the value.** -/
theorem text_injective {w : Json} (h : text v = text w) : v = w := by
  have hstop : Stops [] := nofun
  refine (text_append_inj v w [] [] hstop hstop ?_).1
  rw [append_nil, append_nil, h]

/-! ### Outside of literals -/

/-- Where a reader of a text is: outside of literals, in one, or after a backslash in one. -/
inductive Place where
  | out | lit | esc
  deriving DecidableEq

/-- A reader goes on. Outside of literals there is no backslash and no bar. -/
def Place.step : Place → UInt16 → Option Place
  | .out, u => if u = 0x22 then some .lit else if u = 0x5c then none else if u = 0x7c then none else some .out
  | .lit, u => if u = 0x22 then some .out else if u = 0x5c then some .esc else some .lit
  | .esc, u => if u = 0x7c then none else some .lit

/-- A reader reads a text. -/
def Place.run : Place → JsString → Option Place
  | p, [] => some p
  | p, u :: s => (p.step u).bind fun p => p.run s

theorem Place.run_append (p : Place) (s t : JsString) : p.run (s ++ t) = (p.run s).bind fun p => p.run t := by
  induction s generalizing p with
  | nil => rfl
  | cons u s ih =>
    rw [cons_append, Place.run, Place.run]
    cases hstep : p.step u with
    | none => rfl
    | some p' => exact ih p'

theorem Place.step_lit (hquote : u ≠ 0x22) (hslash : u ≠ 0x5c) : Place.step .lit u = some .lit := by
  rw [Place.step, if_neg hquote, if_neg hslash]

variable {s : JsString}

theorem Place.run_lit (h : ∀ u ∈ s, Place.step .lit u = some .lit) : Place.run .lit s = some .lit := by
  induction s with
  | nil => rfl
  | cons u s ih =>
    rw [Place.run, h u mem_cons_self]
    exact ih fun w hw => h w (mem_cons_of_mem _ hw)

theorem run_escaped {p : JsString.Point} (hp : p.Valid) (h : JsString.Escaped p s) :
    Place.run .lit s = some .lit := by
  cases h with
  | plain _ hslash hquote =>
    rw [Place.run, Place.step_lit hquote hslash]
    rfl
  | short h =>
    exact (show ∀ e ∈ JsString.shortEscapes, Place.run .lit [0x5c, e.2] = some .lit from
      JsString.forall_mem_of_all (by decide)) _ h
  | @hex u =>
    have hdigit : ∀ n < 16, Place.step .lit (JsString.hexDigit n) = some .lit := by decide
    have hu := u.toNat_lt
    refine (Place.run_lit (s := JsString.hexDigits u) fun w hw => ?_)
    simp only [JsString.hexDigits, mem_cons, not_mem_nil, or_false] at hw
    rcases hw with rfl | rfl | rfl | rfl <;> exact hdigit _ (by omega)
  | @pair u v hhigh =>
    have hlow : JsString.isLow v = true := hp.2
    have hne : ∀ w, JsString.isHigh w = false → u ≠ w := by
      rintro w hw rfl
      rw [hhigh] at hw
      cases hw
    have hne' : ∀ w, JsString.isLow w = false → v ≠ w := by
      rintro w hw rfl
      rw [hlow] at hw
      cases hw
    rw [Place.run, Place.step_lit (hne _ rfl) (hne _ rfl), bind_some, Place.run,
      Place.step_lit (hne' _ rfl) (hne' _ rfl)]
    rfl

theorem run_points {ps : List JsString.Point} (h : ∀ p ∈ ps, p.Valid) :
    Place.run .lit (ps.flatMap JsString.Point.escape) = some .lit := by
  induction ps with
  | nil => rfl
  | cons p ps ih =>
    rw [flatMap_cons, Place.run_append,
      run_escaped (h p mem_cons_self) (JsString.escaped p (h p mem_cons_self))]
    exact ih fun q hq => h q (mem_cons_of_mem _ hq)

theorem run_quote (s : JsString) : Place.run .out (quote s) = some .out := by
  show (Place.run .lit (_ ++ [0x22])) = some .out
  rw [Place.run_append, run_points (JsString.valid_of_mem_points s)]
  rfl

theorem run_join {ss : List JsString} (h : ∀ s ∈ ss, Place.run .out s = some .out) :
    Place.run .out (join ss) = some .out := by
  induction ss with
  | nil => rfl
  | cons s ss ih =>
    have ih := ih fun t ht => h t (mem_cons_of_mem _ ht)
    rw [join_cons, Place.run_append, h s mem_cons_self]
    cases ss with
    | nil => rfl
    | cons t ss => exact ih

theorem run_numberUnits (h : s.all isNumberUnit = true) : Place.run .out s = some .out := by
  induction s with
  | nil => rfl
  | cons u s ih =>
    rw [all_cons, Bool.and_eq_true_iff] at h
    have hne : ∀ w, isNumberUnit w = false → u ≠ w := by
      rintro w hw rfl
      rw [h.1] at hw
      cases hw
    rw [Place.run, Place.step, if_neg (hne _ rfl), if_neg (hne _ rfl), if_neg (hne _ rfl)]
    exact ih h.2

theorem run_text (v : Json) : Place.run .out (text v) = some .out := by
  induction v with
  | null => rfl
  | bool b => cases b <;> rfl
  | number n => exact run_numberUnits n.all_units
  | string s => exact run_quote s
  | array items ih =>
    show Place.run .out (join (texts items) ++ [0x5d]) = some .out
    rw [Place.run_append, texts_eq_map, run_join]
    · rfl
    · intro s hs
      obtain ⟨v, hv, rfl⟩ := mem_map.mp hs
      exact ih v hv
  | object members ih =>
    show Place.run .out (join (memberTexts members) ++ [0x7d]) = some .out
    rw [Place.run_append, memberTexts_eq_map, run_join]
    · rfl
    · intro s hs
      obtain ⟨m, hm, rfl⟩ := mem_map.mp hs
      rw [memberText, Place.run_append, run_quote]
      exact ih m hm

/-- One reader is in a literal where the other is not. -/
def Place.Opposite (p q : Place) : Prop := (p = .out ∧ q = .lit) ∨ (p = .lit ∧ q = .out)

/-- **Readers that are in opposite places stay there**, because a backslash stops one of them. -/
theorem Place.opposite_of_run {p q p' q' : Place} (h : Opposite p q)
    (hp : p.run s = some p') (hq : q.run s = some q') : Opposite p' q' := by
  induction s generalizing p q with
  | nil =>
    cases hp
    cases hq
    exact h
  | cons u s ih =>
    obtain ⟨p₁, hp₁, hp⟩ := bind_eq_some_iff.mp hp
    obtain ⟨q₁, hq₁, hq⟩ := bind_eq_some_iff.mp hq
    refine ih ?_ hp hq
    have hstep : ∀ a b, Place.step .out u = some a → Place.step .lit u = some b →
        (a = .out ∧ b = .lit) ∨ (a = .lit ∧ b = .out) := by
      intro a b ha hb
      simp only [Place.step] at ha hb
      split at ha
      · next hquote =>
        rw [if_pos hquote] at hb
        exact .inr ⟨(some.inj ha).symm, (some.inj hb).symm⟩
      · next hquote =>
        split at ha
        · cases ha
        · next hslash =>
          rw [if_neg hquote, if_neg hslash] at hb
          split at ha
          · cases ha
          · exact .inl ⟨(some.inj ha).symm, (some.inj hb).symm⟩
    rcases h with ⟨rfl, rfl⟩ | ⟨rfl, rfl⟩
    · exact hstep _ _ hp₁ hq₁
    · exact (hstep _ _ hq₁ hp₁).symm.imp And.symm And.symm

theorem Place.step_bar {p p' : Place} (h : p.step 0x7c = some p') : p' = .lit := by
  cases p with
  | out => cases h
  | lit => exact (some.inj h).symm
  | esc => cases h

theorem text_ne_append_bar (v w : Json) (s : JsString) : text v ≠ s ++ 0x7c :: text w := by
  intro h
  have hrun := run_text v
  rw [h, Place.run_append] at hrun
  obtain ⟨p, -, hrun⟩ := bind_eq_some_iff.mp hrun
  obtain ⟨p', hstep, hrun⟩ := bind_eq_some_iff.mp hrun
  obtain rfl := Place.step_bar hstep
  rcases Place.opposite_of_run (.inl ⟨rfl, rfl⟩) (run_text w) hrun with ⟨-, h⟩ | ⟨h, -⟩ <;> cases h

/-- **What is in front of a bar and a text is determined**, and so is the value. -/
theorem append_bar_inj {t : JsString} {w : Json} (h : s ++ 0x7c :: text v = t ++ 0x7c :: text w) : s = t ∧ v = w := by
  rcases append_eq_append_iff.mp h with ⟨a, rfl, ha⟩ | ⟨a, rfl, ha⟩
  · cases a with
    | nil => exact ⟨(append_nil s).symm, text_injective (cons.inj ha).2⟩
    | cons u a => exact absurd (cons.inj ha).2 (text_ne_append_bar v w a)
  · cases a with
    | nil => exact ⟨append_nil t, (text_injective (cons.inj ha).2).symm⟩
    | cons u a => exact absurd (cons.inj ha).2 (text_ne_append_bar w v a)

/-! ### Surrogates -/

theorem wellFormed_join {ss : List JsString} (h : ∀ s ∈ ss, JsString.WellFormed s) :
    JsString.WellFormed (join ss) := by
  induction ss with
  | nil => exact .nil
  | cons s ss ih =>
    have ih := ih fun t ht => h t (mem_cons_of_mem _ ht)
    rw [join_cons]
    refine (h s mem_cons_self).append ?_
    cases ss with
    | nil => exact .nil
    | cons t ss => exact .unit rfl ih

theorem wellFormed_text (v : Json) : JsString.WellFormed (text v) := by
  induction v with
  | null => exact JsString.wellFormed_of_all (JsString.forall_mem_of_all (by decide))
  | bool b =>
    cases b <;> exact JsString.wellFormed_of_all (JsString.forall_mem_of_all (by decide))
  | number n =>
    refine JsString.wellFormed_of_all fun u hu => ?_
    have hunit := all_eq_true.mp n.all_units u hu
    have hrange : u.toNat < 0xd800 := by
      simp only [isNumberUnit, Bool.or_eq_true, Bool.and_eq_true, decide_eq_true_eq, beq_iff_eq,
        UInt16.le_iff_toNat_le] at hunit
      rcases hunit with (((h | rfl) | rfl) | rfl) | rfl
      · exact Nat.lt_of_le_of_lt h.2 (by decide)
      all_goals decide
    rw [Bool.or_eq_false_iff, Bool.eq_false_iff, Bool.eq_false_iff, Ne, Ne, JsString.isHigh_iff, JsString.isLow_iff]
    omega
  | string s => exact JsString.wellFormed_quote s
  | array items ih =>
    refine .unit rfl (.append ?_ (.unit rfl .nil))
    rw [texts_eq_map]
    refine wellFormed_join fun s hs => ?_
    obtain ⟨v, hv, rfl⟩ := mem_map.mp hs
    exact ih v hv
  | object members ih =>
    refine .unit rfl (.append ?_ (.unit rfl .nil))
    rw [memberTexts_eq_map]
    refine wellFormed_join fun s hs => ?_
    obtain ⟨m, hm, rfl⟩ := mem_map.mp hs
    exact (JsString.wellFormed_quote m.1).append (.unit rfl (ih m hm))

/-! ### Members in order -/

/-- The order of keys: the one of their units. -/
def keyLe : JsString → JsString → Bool
  | [], _ => true
  | _ :: _, [] => false
  | u :: s, v :: t => if u = v then keyLe s t else u < v

/-- Members, in the order of their keys. -/
def sortKeys {α : Type*} (members : List (JsString × α)) : List (JsString × α) :=
  members.insertionSort fun m n => keyLe m.1 n.1 = true

theorem perm_sortKeys {α : Type*} (members : List (JsString × α)) : (sortKeys members).Perm members :=
  perm_insertionSort _ _

theorem map_sortKeys {α β : Type*} (f : α → β) (members : List (JsString × α)) :
    (sortKeys members).map (Prod.map id f) = sortKeys (members.map (Prod.map id f)) :=
  map_insertionSort _ _ _ _ fun _ _ _ _ => Iff.rfl

mutual

/-- A value without the members that are to be dropped, at any depth, and with the others in order. -/
def prune (drop : JsString → Bool) : Json → Json
  | .array items => .array (pruneItems drop items)
  | .object members => .object (sortKeys (pruneMembers drop members))
  | .null => .null
  | .bool b => .bool b
  | .number n => .number n
  | .string s => .string s

def pruneItems (drop : JsString → Bool) : List Json → List Json
  | [] => []
  | item :: items => prune drop item :: pruneItems drop items

def pruneMembers (drop : JsString → Bool) : List (JsString × Json) → List (JsString × Json)
  | [] => []
  | (key, value) :: members =>
    if drop key then pruneMembers drop members else (key, prune drop value) :: pruneMembers drop members

end

theorem pruneItems_eq_map (drop : JsString → Bool) (items : List Json) :
    pruneItems drop items = items.map (prune drop) := by
  induction items with
  | nil => rfl
  | cons item items ih => rw [pruneItems, ih, map_cons]

theorem pruneMembers_eq_map (drop : JsString → Bool) (members : List (JsString × Json)) : pruneMembers drop members =
      (members.filter fun m => !drop m.1).map (Prod.map id (prune drop)) := by
  induction members with
  | nil => rfl
  | cons m members ih =>
    obtain ⟨key, value⟩ := m
    rw [pruneMembers, ih]
    cases hdrop : drop key with
    | true =>
      rw [filter_cons_of_neg (by rw [hdrop]; decide)]
      rfl
    | false =>
      rw [filter_cons_of_pos (by rw [hdrop]; decide)]
      rfl

/-- The same data: members can be in any order. -/
def Same (v w : Json) : Prop := prune (fun _ => false) v = prune (fun _ => false) w

variable {members : List (JsString × Json)}

/-! ### Objects in values -/

mutual

/-- An object is in a value, or the value is one. -/
def hasObject : Json → Bool
  | .array items => anyObject items
  | .object _ => true
  | _ => false

def anyObject : List Json → Bool
  | [] => false
  | item :: items => hasObject item || anyObject items

end

theorem anyObject_eq_any (items : List Json) : anyObject items = items.any hasObject := by
  induction items with
  | nil => rfl
  | cons item items ih => rw [anyObject, ih, any_cons]

theorem hasObject_prune (drop : JsString → Bool) (v : Json) : hasObject (prune drop v) = hasObject v := by
  induction v with
  | array items ih =>
    rw [prune, hasObject, hasObject, anyObject_eq_any, anyObject_eq_any, pruneItems_eq_map, List.any_map]
    refine Bool.eq_iff_iff.mpr ?_
    rw [List.any_eq_true, List.any_eq_true]
    exact exists_congr fun v => and_congr_right fun hv => by rw [Function.comp, ih v hv]
  | _ => rfl

theorem prune_of_hasObject (h : hasObject v = false) (drop : JsString → Bool) : prune drop v = v := by
  induction v with
  | array items ih =>
    rw [hasObject, anyObject_eq_any, List.any_eq_false] at h
    rw [prune, pruneItems_eq_map]
    have hitems : items.map (prune drop) = items.map id :=
      map_congr_left fun v hv => ih v hv (Bool.eq_false_iff.mpr (h v hv))
    rw [hitems, List.map_id]
  | object members => cases h
  | _ => rfl

mutual

/-- The keys of each object are different. -/
def Distinct : Json → Prop
  | .array items => DistinctItems items
  | .object members => (members.map Prod.fst).Nodup ∧ DistinctMembers members
  | _ => True

def DistinctItems : List Json → Prop
  | [] => True
  | item :: items => Distinct item ∧ DistinctItems items

def DistinctMembers : List (JsString × Json) → Prop
  | [] => True
  | (_, value) :: members => Distinct value ∧ DistinctMembers members

end

theorem distinctItems_iff {items : List Json} : DistinctItems items ↔ ∀ v ∈ items, Distinct v := by
  induction items with
  | nil => simp [DistinctItems]
  | cons item items ih => simp [DistinctItems, ih]

theorem distinctMembers_iff : DistinctMembers members ↔ ∀ m ∈ members, Distinct m.2 := by
  induction members with
  | nil => simp [DistinctMembers]
  | cons m members ih =>
    simp [DistinctMembers, ih]

theorem lookup_of_mem (hnodup : (members.map Prod.fst).Nodup)
    {m : JsString × Json} (hm : m ∈ members) : members.lookup m.1 = some m.2 := by
  induction members with
  | nil => cases hm
  | cons n members ih =>
    rw [map_cons, nodup_cons] at hnodup
    rcases mem_cons.mp hm with rfl | hm
    · rw [lookup_cons, beq_self_eq_true]
    · have hne : m.1 ≠ n.1 := fun h => hnodup.1 (h ▸ mem_map_of_mem hm)
      rw [lookup_cons, beq_false_of_ne hne]
      exact ih hnodup.2 hm

mutual

/-- How many values are in a value. -/
def nodes : Json → ℕ
  | .array items => 1 + nodesOfItems items
  | .object members => 1 + nodesOfMembers members
  | _ => 1

def nodesOfItems : List Json → ℕ
  | [] => 0
  | item :: items => nodes item + nodesOfItems items

def nodesOfMembers : List (JsString × Json) → ℕ
  | [] => 0
  | (_, value) :: members => nodes value + nodesOfMembers members

end

theorem nodesOfItems_eq_sum (items : List Json) : nodesOfItems items = (items.map nodes).sum := by
  induction items with
  | nil => rfl
  | cons item items ih => rw [nodesOfItems, ih, map_cons, sum_cons]

theorem nodesOfMembers_eq_sum (members : List (JsString × Json)) :
    nodesOfMembers members = (members.map fun m => nodes m.2).sum := by
  induction members with
  | nil => rfl
  | cons m members ih =>
    rw [nodesOfMembers, ih, map_cons, sum_cons]

theorem nodes_prune_none (v : Json) : nodes (prune (fun _ => false) v) = nodes v := by
  induction v with
  | array items ih =>
    rw [prune, nodes, nodes, nodesOfItems_eq_sum, nodesOfItems_eq_sum, pruneItems_eq_map, List.map_map]
    exact congrArg (1 + sum ·) (map_congr_left ih)
  | object members ih =>
    have hfilter : (members.filter fun _ => !false) = members := filter_eq_self.mpr fun _ _ => rfl
    rw [prune, nodes, nodes, nodesOfMembers_eq_sum, nodesOfMembers_eq_sum, pruneMembers_eq_map, hfilter,
      ((perm_sortKeys _).map _).sum_nat, List.map_map]
    exact congrArg (1 + sum ·) (map_congr_left ih)
  | _ => rfl

theorem nodes_eq_of_same {w : Json} (h : Same v w) : nodes v = nodes w := by
  rw [← nodes_prune_none v, h, nodes_prune_none]

end Json

end HiveRelay
