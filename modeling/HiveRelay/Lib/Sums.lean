import Mathlib.Algebra.BigOperators.Group.List.Basic
import Mathlib.Tactic.Ring

/-!
# Sums over records

A ledger is a sum over a list of records. This file says what becomes of the sum when a record is
written or added.

## Main results

* `sum_map_modify`, `sum_map_set` — a record is written
* `sum_map_concat` — a record is added
* `map_set_of_eq` — a record is written that looks the same
-/

namespace HiveRelay

open List

variable {α : Type}

theorem sum_map_modify {l : List α} {n : ℕ} {a : α} (f : α → ℤ) (g : α → α)
    (h : l[n]? = some a) : ((l.modify n g).map f).sum = (l.map f).sum - f a + f (g a) := by
  induction l generalizing n with
  | nil => exact nomatch h
  | cons b l ih =>
    cases n with
    | zero =>
      cases h
      simp only [modify_zero_cons, map_cons, sum_cons]
      ring
    | succ n =>
      simp only [modify_succ_cons, map_cons, sum_cons]
      rw [ih h]
      ring

theorem sum_map_concat (l : List α) (a : α) (f : α → ℤ) : ((l ++ [a]).map f).sum = (l.map f).sum + f a := by
  rw [map_append, sum_append, map_singleton, sum_singleton]

theorem sum_map_set {l : List α} {n : ℕ} {a : α} (f : α → ℤ) (b : α)
    (h : l[n]? = some a) : ((l.set n b).map f).sum = (l.map f).sum - f a + f b := by
  have hset : l.set n b = l.modify n fun _ => b := by
    apply ext_getElem?
    intro k
    rw [getElem?_set, getElem?_modify]
    by_cases hk : n = k
    · subst hk
      rw [if_pos rfl, if_pos (List.getElem?_eq_some_iff.mp h).1, h]
      simp
    · cases l[k]? <;> simp [hk]
  rw [hset]
  exact sum_map_modify f _ h

theorem map_set_of_eq {β : Type} {f : α → β} {l : List α} {n : ℕ} {a b : α}
    (h : l[n]? = some a) (hf : f b = f a) : (l.set n b).map f = l.map f := by
  obtain ⟨hlt, rfl⟩ := List.getElem?_eq_some_iff.mp h
  rw [map_set, hf, ← map_set, set_getElem_self]

end HiveRelay
