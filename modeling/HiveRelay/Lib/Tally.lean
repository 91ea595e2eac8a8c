import HiveRelay.Lib.OrderedMap

/-!
# Counts of a table's entries by owner

A table gives each of its values an owner, and a second map counts the values of each owner beside
it: one more when a value is added, one less when it is removed, and an owner that has none has no
entry. The map *tallies* the table when its counts are the true ones. Adding a value under a new key
and removing one keep that; setting a key that is present adds one to the count and nothing to the
table, which is how a tally goes wrong.

## Main definitions

* `OrderedMap.countOf` — how many values of a table belong to an owner
* `OrderedMap.increment`, `OrderedMap.decrement` — one more, one less
* `OrderedMap.Tallies` — the counts are those of the table

## Main results

* `countOf_set`, `countOf_update`, `countOf_delete` — what an update does to a count
* `Tallies.set`, `Tallies.update`, `Tallies.delete` — the updates that keep a tally
-/

namespace HiveRelay.OrderedMap

variable {ι κ ν : Type} [DecidableEq ι] [DecidableEq κ]

/-- How many values of a table belong to `k`. -/
def countOf (owner : ν → κ) (table : OrderedMap ι ν) (k : κ) : ℕ :=
  table.sumBy fun _ v => if owner v = k then 1 else 0

/-- One more for `k`. -/
def increment (counts : OrderedMap κ ℕ) (k : κ) : OrderedMap κ ℕ :=
  counts.set k ((counts.get? k).getD 0 + 1)

/-- One less for `k`; the last one takes the entry away. -/
def decrement (counts : OrderedMap κ ℕ) (k : κ) : OrderedMap κ ℕ :=
  let count := (counts.get? k).getD 0
  if count ≤ 1 then counts.delete k else counts.set k (count - 1)

/-- The counts are those of the table, with an entry for the owners that have a value only. -/
def Tallies (counts : OrderedMap κ ℕ) (owner : ν → κ) (table : OrderedMap ι ν) : Prop :=
  ∀ k, counts.get? k = if table.countOf owner k = 0 then none else some (table.countOf owner k)

section Counts

variable {owner : ν → κ} {table : OrderedMap ι ν} {i : ι} {v v' : ν} {k : κ}

theorem countOf_set (h : table.get? i = none) :
    (table.set i v).countOf owner k = table.countOf owner k + if owner v = k then 1 else 0 := by
  rw [countOf, sumBy_set_of_get?_eq_none _ h, Nat.add_comm, countOf]

theorem countOf_delete (owner : ν → κ) (k : κ) (h : table.get? i = some v) :
    table.countOf owner k = (table.delete i).countOf owner k + if owner v = k then 1 else 0 := by
  rw [countOf, sumBy_eq_of_get? _ h, Nat.add_comm, countOf]

theorem countOf_update (h : table.get? i = some v) (howner : owner v' = owner v) :
    (table.set i v').countOf owner k = table.countOf owner k := by
  rw [countOf, sumBy_set, countOf_delete owner k h, howner, Nat.add_comm, countOf]

end Counts

section Tally

variable {owner : ν → κ} {counts : OrderedMap κ ℕ} {table : OrderedMap ι ν} {i : ι} {v v' : ν}

omit [DecidableEq ι] in
theorem tallies_empty : (empty : OrderedMap κ ℕ).Tallies owner (empty : OrderedMap ι ν) :=
  fun _ => rfl

omit [DecidableEq ι] in
theorem Tallies.getD (h : counts.Tallies owner table) (k : κ) : (counts.get? k).getD 0 = table.countOf owner k := by
  rw [h k]
  split
  · next hzero => exact hzero.symm
  · rfl

/-- **A new value is one more for its owner.** -/
theorem Tallies.set (h : counts.Tallies owner table) (hi : table.get? i = none) :
    (counts.increment (owner v)).Tallies owner (table.set i v) := by
  intro k
  rw [increment, get?_set, countOf_set hi, h.getD]
  by_cases hk : k = owner v
  · subst hk
    simp
  · simpa [hk, Ne.symm hk] using h k

/-- **A value replaced by one of the same owner changes no count.** -/
theorem Tallies.update (h : counts.Tallies owner table) (hi : table.get? i = some v)
    (howner : owner v' = owner v) : counts.Tallies owner (table.set i v') := by
  intro k
  rw [countOf_update hi howner]
  exact h k

/-- **A removed value is one less for its owner.** -/
theorem Tallies.delete (h : counts.Tallies owner table) (hi : table.get? i = some v) :
    (counts.decrement (owner v)).Tallies owner (table.delete i) := by
  intro k
  have hk := h k
  have hcount := countOf_delete owner k hi
  simp only [decrement, h.getD]
  have howner := countOf_delete owner (owner v) hi
  rw [if_pos rfl] at howner
  by_cases heq : k = owner v
  · subst heq
    split
    · next hle =>
      have hzero : (table.delete i).countOf owner (owner v) = 0 := by omega
      simp [hzero]
    · next hlt =>
      have hpos : (table.delete i).countOf owner (owner v) ≠ 0 := by omega
      rw [get?_set_self, if_neg hpos]
      exact congrArg some (by omega)
  · rw [if_neg (Ne.symm heq), Nat.add_zero] at hcount
    rw [hcount] at hk
    split
    · rw [get?_delete_of_ne heq, hk]
    · rw [get?_set_of_ne heq, hk]

end Tally

end HiveRelay.OrderedMap
