import Mathlib.Logic.Basic

/-!
# Guard sequences

The programs modelled here validate their inputs by a sequence of tests, each of which throws its
own error. Written in `Except`, such a sequence is a chain of `require` and `demand` steps, and
everything a proof ever asks of it is answered by four facts: a guard succeeds exactly when its test
passes, a lookup exactly when there is a value, a bind exactly when both halves do, and a return
always. `guards_eq_ok` is these facts together: `simp only` with it turns "the chain returned `b`" into
the conjunction of its tests, and no proof has to split the chain test by test.
-/

namespace HiveRelay

variable {ε α β : Type}

/-- Throw `error` unless `test` holds. -/
def require (test : Prop) [Decidable test] (error : ε) : Except ε Unit :=
  if test then .ok () else .error error

variable {test : Prop} {error : ε}

@[simp] theorem require_eq_ok [Decidable test] {u : Unit} : require test error = .ok u ↔ test := by
  unfold require
  split <;> simp_all

theorem require_of [Decidable test] (h : test) : require test error = .ok () := if_pos h

theorem require_of_not [Decidable test] (h : ¬ test) : require test error = .error error := if_neg h

/-- The value of an option, or `error`. -/
def demand (o : Option α) (error : ε) : Except ε α :=
  match o with
  | some a => .ok a
  | none => .error error

@[simp] theorem demand_eq_ok {o : Option α} {a : α} : demand o error = .ok a ↔ o = some a := by
  cases o <;> simp [demand]

@[simp] theorem Except.ok_bind (a : α) (f : α → Except ε β) : (Except.ok a >>= f) = f a := rfl

@[simp] theorem Except.error_bind (e : ε) (f : α → Except ε β) :
    ((Except.error e : Except ε α) >>= f) = .error e := rfl

theorem Except.bind_eq_ok {x : Except ε α} {f : α → Except ε β} {b : β} :
    (x >>= f) = .ok b ↔ ∃ a, x = .ok a ∧ f a = .ok b := by
  cases x with
  | error e =>
    refine ⟨fun h => ?_, ?_⟩
    · cases h
    · rintro ⟨a, h, -⟩
      cases h
  | ok a =>
    refine ⟨fun h => ⟨a, rfl, h⟩, ?_⟩
    rintro ⟨a', h, hf⟩
    cases h
    exact hf

@[simp] theorem pure_eq_ok_iff {a b : α} : (pure a : Except ε α) = .ok b ↔ a = b :=
  ⟨fun h => Except.ok.inj h, fun h => congrArg _ h⟩

/-- **When a chain of guards returns**: the rules that `simp only` takes it apart with. -/
theorem guards_eq_ok :
    (∀ {ε α β : Type} {x : Except ε α} {f : α → Except ε β} {b : β},
      (x >>= f) = .ok b ↔ ∃ a, x = .ok a ∧ f a = .ok b) ∧
    (∀ {ε : Type} {test : Prop} [Decidable test] {error : ε} {u : Unit}, require test error = .ok u ↔ test) ∧
    (∀ {ε α : Type} {o : Option α} {error : ε} {a : α}, demand o error = .ok a ↔ o = some a) ∧
    (∀ {ε α : Type} {a b : α}, (pure a : Except ε α) = .ok b ↔ a = b) ∧ ∀ {p : Prop}, (∃ _ : Unit, p) ↔ p :=
  ⟨Except.bind_eq_ok, require_eq_ok, demand_eq_ok, pure_eq_ok_iff, exists_const _⟩

theorem Except.mapM_eq_ok {f : α → Except ε β} {l : List α} {l' : List β} :
    l.mapM f = .ok l' ↔ l.map f = l'.map .ok := by
  induction l generalizing l' with
  | nil => cases l' <;> simp [pure, Except.pure]
  | cons a l ih =>
    simp only [List.mapM_cons, Except.bind_eq_ok, pure_eq_ok_iff, List.map_cons]
    constructor
    · rintro ⟨b, hb, bs, hbs, rfl⟩
      rw [hb, ih.mp hbs, List.map_cons]
    · intro h
      cases l' with
      | nil => cases h
      | cons b bs =>
        rw [List.map_cons, List.cons.injEq] at h
        exact ⟨b, h.1, bs, ih.mpr h.2, rfl⟩

theorem Except.forM_eq_ok {f : α → Except ε Unit} {l : List α} {u : Unit} :
    l.forM f = .ok u ↔ ∀ a ∈ l, f a = .ok () := by
  induction l with
  | nil => simp [pure, Except.pure]
  | cons a l ih =>
    show (f a >>= fun _ => l.forM f) = .ok u ↔ _
    rw [Except.bind_eq_ok, List.forall_mem_cons]
    exact ⟨fun ⟨_, ha, hl⟩ => ⟨ha, ih.mp hl⟩, fun ⟨ha, hl⟩ => ⟨(), ha, ih.mpr hl⟩⟩

/-- What a computation returns, when it returns something that passes a test. -/
theorem Except.exists_ok (x : Except ε α) (check : α → Prop) [DecidablePred check]
    (h : (x.toOption.any fun a => decide (check a)) = true) : ∃ a, x = .ok a ∧ check a := by
  cases x with
  | error e => cases h
  | ok a => exact ⟨a, rfl, of_decide_eq_true h⟩

end HiveRelay
