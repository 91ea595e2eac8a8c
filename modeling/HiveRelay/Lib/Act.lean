import HiveRelay.Lib.Guard

/-!
# Synchronous methods

A method that runs to its end in one turn reads and writes the memory of its object and may throw;
what it has written before it throws stays written. This file has such methods and a rule of pre- and
postconditions for each way to put them together.

## Main definitions

* `Act` — a method over a memory `σ` with exceptions `ε`
* `Act.Spec` — a postcondition for results and exceptions
* `Act.Within` — the memory stays in a relation to what it was

## Main results

* `Act.spec_bind`, `Act.spec_ite` — the rules
* `Act.within_bind`, `Act.within_ite` — those for a relation
-/

namespace HiveRelay

variable {σ ε α β : Type}

/-- A method over a memory `σ`. -/
def Act (σ ε α : Type) : Type := σ → Except ε α × σ

namespace Act

instance : Monad (Act σ ε) where
  pure a := fun s => (.ok a, s)
  bind x f := fun s =>
    match x s with
    | (.ok a, s') => f a s'
    | (.error e, s') => (.error e, s')

def throw (e : ε) : Act σ ε α := fun s => (.error e, s)

/-- The memory. -/
def get : Act σ ε σ := fun s => (.ok s, s)

/-- Write the memory. -/
def modify (f : σ → σ) : Act σ ε Unit := fun s => (.ok (), f s)

/-- Throw, or go on with a value that is there. -/
def ofExcept (x : Except ε α) : Act σ ε α := fun s => (x, s)

/-- What holds of the result, or of the exception, and the memory afterwards. -/
def Spec (P : σ → Prop) (x : Act σ ε α) (Q : Except ε α → σ → Prop) : Prop :=
  ∀ s, P s → Q (x s).1 (x s).2

variable {x : Act σ ε α} {f : α → Act σ ε β}

theorem bind_of_ok {s s' : σ} {a : α} (h : x s = (.ok a, s')) : (x >>= f) s = f a s' := by
  show (match x s with | (.ok a, s') => f a s' | (.error e, s') => (.error e, s')) = f a s'
  rw [h]

theorem bind_of_error {s s' : σ} {e : ε} (h : x s = (.error e, s')) : (x >>= f) s = (.error e, s') := by
  show (match x s with | (.ok a, s') => f a s' | (.error e, s') => (.error e, s')) = _
  rw [h]

theorem bind_eq_ok {s s' : σ} {b : β}
    (h : (x >>= f) s = (.ok b, s')) : ∃ a s₁, x s = (.ok a, s₁) ∧ f a s₁ = (.ok b, s') := by
  cases hx : x s with
  | mk r s₁ =>
    cases r with
    | ok a =>
      rw [bind_of_ok hx] at h
      exact ⟨a, s₁, rfl, h⟩
    | error e =>
      rw [bind_of_error hx] at h
      exact nomatch (Prod.mk.inj h).1

variable {y : Except ε α}

theorem ofExcept_bind_of_ok {a : α} (h : y = .ok a) (s : σ) : (ofExcept y >>= f) s = f a s := by
  rw [h]
  rfl

theorem ofExcept_bind_of_error {e : ε} (h : y = .error e) (s : σ) : (ofExcept y >>= f) s = (.error e, s) := by
  rw [h]
  rfl

theorem ofExcept_bind_eq_ok {s s' : σ} {b : β}
    (h : (ofExcept y >>= f) s = (.ok b, s')) : ∃ a, y = .ok a ∧ f a s = (.ok b, s') := by
  cases y with
  | ok a => exact ⟨a, rfl, h⟩
  | error e => exact nomatch (Prod.mk.inj h).1

section Rules

variable {P : σ → Prop} {x : Act σ ε α} {Q R : Except ε α → σ → Prop}

/-- Sequencing: an exception of the first part is one of the whole. -/
theorem spec_bind {Q : Except ε β → σ → Prop} (hx : Spec P x R)
    (hf : ∀ a, Spec (R (.ok a)) (f a) Q) (herror : ∀ e s, R (.error e) s → Q (.error e) s) :
    Spec P (x >>= f) Q := by
  intro s hs
  have hr := hx s hs
  show Q (match x s with | (.ok a, s') => f a s' | (.error e, s') => (.error e, s')).1
    (match x s with | (.ok a, s') => f a s' | (.error e, s') => (.error e, s')).2
  cases hxs : x s with
  | mk r s' =>
    rw [hxs] at hr
    cases r with
    | ok a => exact hf a s' hr
    | error e => exact herror e s' hr

theorem spec_ite {c : Prop} [Decidable c] {y : Act σ ε α} (hx : c → Spec P x Q)
    (hy : ¬ c → Spec P y Q) : Spec P (if c then x else y) Q := by
  by_cases hc : c
  · rw [if_pos hc]
    exact hx hc
  · rw [if_neg hc]
    exact hy hc

theorem spec_pure {a : α} (h : ∀ s, P s → Q (.ok a) s) : Spec P (pure a) Q := h

theorem spec_throw {e : ε} (h : ∀ s, P s → Q (.error e) s) : Spec P (throw e) Q := h

theorem spec_get_bind {f : σ → Act σ ε β} {Q : Except ε β → σ → Prop}
    (h : ∀ s, P s → Q (f s s).1 (f s s).2) : Spec P (get >>= f) Q := h

theorem spec_ofExcept_bind {Q : Except ε β → σ → Prop}
    (hf : ∀ a, y = .ok a → Spec P (f a) Q) (herror : ∀ e s, P s → Q (.error e) s) :
    Spec P (ofExcept y >>= f) Q := by
  cases y with
  | ok a => exact hf a rfl
  | error e => exact herror e

end Rules

/-! ### Relations that a method stays in -/

/-- The memory stays in a relation to what it was at some time before. -/
def Within (R : σ → σ → Prop) (x : Act σ ε α) : Prop := ∀ s₀, Spec (R s₀) x fun _ => R s₀

section Within

variable {R : σ → σ → Prop}

theorem Within.at (h : Within R x) {s : σ} (hrefl : R s s) : R s (x s).2 :=
  h s s hrefl

theorem within_pure (a : α) : Within R (pure a : Act σ ε α) := fun _ _ h => h

theorem within_throw (e : ε) : Within R (throw e : Act σ ε α) := fun _ _ h => h

theorem within_ofExcept (x : Except ε α) : Within R (ofExcept x) := fun _ _ h => h

theorem within_get : Within R (get : Act σ ε σ) := fun _ _ h => h

theorem within_modify {f : σ → σ} (h : ∀ s₀ s, R s₀ s → R s₀ (f s)) : Within R (modify f : Act σ ε Unit) := h

theorem within_bind (hx : Within R x) (hf : ∀ a, Within R (f a)) : Within R (x >>= f) :=
  fun s => spec_bind (hx s) (fun a => hf a s) fun _ _ h => h

theorem within_ofExcept_bind {x : Except ε α} (hf : ∀ a, Within R (f a)) : Within R (ofExcept x >>= f) :=
  within_bind (within_ofExcept x) hf

theorem within_ite {c : Prop} [Decidable c] {y : Act σ ε α} (hx : Within R x) (hy : Within R y) :
    Within R (if c then x else y) :=
  fun s => spec_ite (fun _ => hx s) fun _ => hy s

end Within

end Act

end HiveRelay
