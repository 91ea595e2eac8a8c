import Mathlib.Algebra.BigOperators.Group.List.Lemmas
import Mathlib.Algebra.Order.BigOperators.Group.List
import Mathlib.Algebra.Order.Group.Int
import Mathlib.Data.Finset.Card
import Mathlib.Data.List.Nodup

/-!
# Insertion-ordered maps

A JavaScript `Map`: its entries are listed in the order in which their keys were first set, setting
a key that is present replaces the value in place, and no key occurs twice. The last is a field of
the structure, so a lookup may return the first match and a sum over the entries counts every key
once.

The rules for sums reduce every update to the map without the key: `sumBy_set` and
`sumBy_eq_of_get?` both split off the one entry that an update touches, so what an update does to a
sum over the entries is the difference of two terms.

## Main definitions

* `OrderedMap` — the map, with `get?`, `set`, `delete`
* `OrderedMap.sumBy` — the sum of a quantity over the entries
* `OrderedMap.keySet` — the set of the keys
* `OrderedMap.Indexes` — a map that holds the positions of a list of keys

## Main results

* `get?_set`, `get?_delete` — lookup after an update
* `set_set`, `set_of_get?`, `set_delete_of_get?_eq_none` — an update that is undone
* `perm_of_get?_eq` — maps with the same values have the same entries
* `mem_entries_iff` — the entries are what lookup returns
* `sumBy_set`, `sumBy_eq_of_get?` — what an update does to a sum
* `Indexes.set` — a new key at the end of the list
-/

namespace HiveRelay

open List Option

/-- A finite map that lists its entries in insertion order. -/
structure OrderedMap (κ ν : Type) where
  entries : List (κ × ν)
  nodup_keys : (entries.map Prod.fst).Nodup

namespace OrderedMap

variable {κ ν : Type}

theorem ext_entries {m₁ m₂ : OrderedMap κ ν} (h : m₁.entries = m₂.entries) : m₁ = m₂ := by
  cases m₁
  cases m₂
  cases h
  rfl

variable [DecidableEq κ] {k k' : κ} {v v' : ν} {m : OrderedMap κ ν}

instance [DecidableEq ν] : DecidableEq (OrderedMap κ ν) := fun m₁ m₂ =>
  decidable_of_iff (m₁.entries = m₂.entries) ⟨ext_entries, congrArg entries⟩

/-- The map without entries. -/
def empty : OrderedMap κ ν := ⟨[], nodup_nil⟩

/-- The value of a key. -/
def get? (m : OrderedMap κ ν) (k : κ) : Option ν :=
  (m.entries.find? fun e => e.1 = k).map Prod.snd

/-- Whether a key has a value. -/
def has (m : OrderedMap κ ν) (k : κ) : Bool := (m.get? k).isSome

/-- The number of entries. -/
def size (m : OrderedMap κ ν) : ℕ := m.entries.length

/-- The values in insertion order. -/
def values (m : OrderedMap κ ν) : List ν := m.entries.map Prod.snd

/-- Replace the value of a key in place, or append a new entry. -/
def set (m : OrderedMap κ ν) (k : κ) (v : ν) : OrderedMap κ ν :=
  if h : k ∈ m.entries.map Prod.fst then
    { entries := m.entries.map fun e => if e.1 = k then (k, v) else e
      nodup_keys := by
        have hkeys : (m.entries.map fun e => if e.1 = k then (k, v) else e).map Prod.fst =
            m.entries.map Prod.fst := by
          rw [List.map_map]
          refine map_congr_left fun e _ => ?_
          by_cases he : e.1 = k <;> simp [he]
        rw [hkeys]
        exact m.nodup_keys }
  else
    { entries := m.entries ++ [(k, v)]
      nodup_keys := by
        rw [map_append, nodup_append]
        refine ⟨m.nodup_keys, nodup_singleton _, ?_⟩
        intro a ha b hb hab
        rw [hab, mem_singleton.mp hb] at ha
        exact h ha }

theorem entries_set_of_mem (h : k ∈ m.entries.map Prod.fst) :
    (m.set k v).entries = m.entries.map fun e => if e.1 = k then (k, v) else e := by
  rw [set, dif_pos h]

theorem entries_set_of_notMem (h : k ∉ m.entries.map Prod.fst) : (m.set k v).entries = m.entries ++ [(k, v)] := by
  rw [set, dif_neg h]

/-- Remove a key. -/
def delete (m : OrderedMap κ ν) (k : κ) : OrderedMap κ ν where
  entries := m.entries.filter fun e => e.1 ≠ k
  nodup_keys := m.nodup_keys.sublist (filter_sublist.map _)

/-! ### Lookup -/

theorem mem_entries_iff : (k, v) ∈ m.entries ↔ m.get? k = some v := by
  obtain ⟨l, hnodup⟩ := m
  induction l with
  | nil => simp [get?]
  | cons e l ih =>
    obtain ⟨k₀, v₀⟩ := e
    rw [map_cons, nodup_cons] at hnodup
    by_cases hk : k₀ = k
    · subst hk
      have hnot : (k₀, v) ∉ l := fun h => hnodup.1 (mem_map.mpr ⟨_, h, rfl⟩)
      simp [get?, hnot, eq_comm]
    · have hne : k ≠ k₀ := fun h => hk h.symm
      simpa [get?, hk, hne] using ih hnodup.2

theorem get?_eq_none_iff : m.get? k = none ↔ k ∉ m.entries.map Prod.fst := by
  simp only [get?, map_eq_none_iff, find?_eq_none, decide_eq_true_eq, List.mem_map, not_exists, not_and]

@[simp] theorem has_eq_false_iff : m.has k = false ↔ m.get? k = none := by
  simp [has]

@[simp] theorem has_eq_true_iff : m.has k = true ↔ ∃ v, m.get? k = some v := by
  rw [has, isSome_iff_exists]

@[simp] theorem get?_empty : (empty : OrderedMap κ ν).get? k = none := rfl

theorem get?_set : (m.set k v).get? k' = if k' = k then some v else m.get? k' := by
  apply ext
  intro w
  rw [← mem_entries_iff]
  unfold set
  split
  · next hmem =>
    obtain ⟨⟨k₀, v₀⟩, he, rfl⟩ := mem_map.mp hmem
    simp only [List.mem_map, Prod.exists]
    constructor
    · rintro ⟨a, b, hab, heq⟩
      by_cases hak : a = k₀
      · rw [if_pos hak, Prod.mk.injEq] at heq
        rw [if_pos heq.1.symm, heq.2]
      · rw [if_neg hak, Prod.mk.injEq] at heq
        obtain ⟨rfl, rfl⟩ := heq
        rw [if_neg hak]
        exact mem_entries_iff.mp hab
    · intro h
      by_cases hk : k' = k₀
      · subst hk
        rw [if_pos rfl] at h
        exact ⟨k', v₀, he, by rw [if_pos rfl, some.inj h]⟩
      · rw [if_neg hk] at h
        exact ⟨k', w, mem_entries_iff.mpr h, if_neg hk⟩
  · next hmem =>
    by_cases hk : k' = k
    · subst hk
      have hnot : (k', w) ∉ m.entries := fun h => hmem (mem_map_of_mem (f := Prod.fst) h)
      simp [hnot, eq_comm]
    · simp [hk, mem_entries_iff]

example : (((empty : OrderedMap ℕ ℕ).set 1 2).set 1 3).get? 1 = some 3 := by decide +kernel

@[simp] theorem get?_set_self : (m.set k v).get? k = some v := by
  rw [get?_set, if_pos rfl]

theorem get?_set_of_ne (h : k' ≠ k) : (m.set k v).get? k' = m.get? k' := by
  rw [get?_set, if_neg h]

theorem get?_delete : (m.delete k).get? k' = if k' = k then none else m.get? k' := by
  apply ext
  intro w
  rw [← mem_entries_iff]
  by_cases hk : k' = k
  · simp [delete, hk]
  · simp [delete, hk, mem_entries_iff]

example : (((empty : OrderedMap ℕ ℕ).set 1 2).delete 1).get? 1 = none := by decide +kernel

@[simp] theorem get?_delete_self : (m.delete k).get? k = none := by
  rw [get?_delete, if_pos rfl]

theorem get?_delete_of_ne (h : k' ≠ k) : (m.delete k).get? k' = m.get? k' := by
  rw [get?_delete, if_neg h]

theorem delete_of_get?_eq_none (h : m.get? k = none) : m.delete k = m := by
  apply ext_entries
  refine filter_eq_self.mpr fun e he => decide_eq_true ?_
  rintro rfl
  exact get?_eq_none_iff.mp h (mem_map_of_mem he)

theorem set_set : (m.set k v).set k v' = m.set k v' := by
  apply ext_entries
  have hmem : k ∈ (m.set k v).entries.map Prod.fst :=
    mem_map_of_mem (f := Prod.fst) (mem_entries_iff.mpr get?_set_self)
  rw [entries_set_of_mem hmem]
  by_cases h : k ∈ m.entries.map Prod.fst
  · rw [entries_set_of_mem h, entries_set_of_mem h, List.map_map]
    refine map_congr_left fun e _ => ?_
    by_cases he : e.1 = k <;> simp [he]
  · have hrest : (m.entries.map fun e => if e.1 = k then (k, v') else e) = m.entries := by
      refine (map_congr_left fun e he => ?_).trans (map_id _)
      refine if_neg fun hk : e.1 = k => h ?_
      exact hk ▸ mem_map_of_mem (f := Prod.fst) he
    rw [entries_set_of_notMem h, entries_set_of_notMem h, map_append, hrest]
    simp

theorem set_of_get? (h : m.get? k = some v) : m.set k v = m := by
  apply ext_entries
  have hmem : (k, v) ∈ m.entries := mem_entries_iff.mpr h
  rw [entries_set_of_mem (mem_map_of_mem (f := Prod.fst) hmem)]
  refine (map_congr_left fun e he => ?_).trans (map_id _)
  split
  · next hk =>
    subst hk
    have := mem_entries_iff.mp he
    rw [h, some.injEq] at this
    rw [this]
    rfl
  · rfl

theorem set_delete_of_get?_eq_none (h : m.get? k = none) : (m.set k v).delete k = m := by
  apply ext_entries
  have hnot := get?_eq_none_iff.mp h
  change (m.set k v).entries.filter (fun e => decide (e.1 ≠ k)) = m.entries
  rw [entries_set_of_notMem hnot, filter_append]
  have hrest : (m.entries.filter fun e => decide (e.1 ≠ k)) = m.entries :=
    filter_eq_self.mpr fun e he => decide_eq_true fun hk =>
      hnot (hk ▸ mem_map_of_mem (f := Prod.fst) he)
  rw [hrest]
  simp

theorem mem_values_iff : v ∈ m.values ↔ ∃ k, m.get? k = some v := by
  simp [values, mem_entries_iff]

variable {P : κ → ν → Prop}

theorem forall_set (h : ∀ k v, m.get? k = some v → P k v) (hnew : P k v) :
    ∀ k' v', (m.set k v).get? k' = some v' → P k' v' := by
  intro k' v' hget
  rw [get?_set] at hget
  split at hget
  · next hk =>
    rw [hk, ← some.inj hget]
    exact hnew
  · exact h k' v' hget

theorem forall_delete (h : ∀ k v, m.get? k = some v → P k v) : ∀ k' v', (m.delete k).get? k' = some v' → P k' v' := by
  intro k' v' hget
  rw [get?_delete] at hget
  split at hget
  · cases hget
  · exact h k' v' hget

/-! ### Values with a property -/

/-- The map with its values changed in place. -/
def mapValues {ν' : Type} (f : ν → ν') (m : OrderedMap κ ν) : OrderedMap κ ν' where
  entries := m.entries.map fun e => (e.1, f e.2)
  nodup_keys := by
    rw [List.map_map]
    exact m.nodup_keys

theorem get?_mapValues {ν' : Type} {f : ν → ν'} : (m.mapValues f).get? k = (m.get? k).map f := by
  apply Option.ext
  intro w
  rw [← mem_entries_iff, mapValues, List.mem_map, map_eq_some_iff]
  constructor
  · rintro ⟨⟨a, b⟩, he, heq⟩
    obtain ⟨rfl, rfl⟩ := heq
    exact ⟨b, mem_entries_iff.mp he, rfl⟩
  · rintro ⟨b, hb, rfl⟩
    exact ⟨(k, b), mem_entries_iff.mpr hb, rfl⟩

/-- The entries that pass a test. -/
def filter (test : κ → ν → Bool) (m : OrderedMap κ ν) : OrderedMap κ ν where
  entries := m.entries.filter fun e => test e.1 e.2
  nodup_keys := m.nodup_keys.sublist (filter_sublist.map _)

theorem get?_filter {test : κ → ν → Bool} : (m.filter test).get? k = (m.get? k).filter (test k) := by
  apply ext
  intro w
  rw [← mem_entries_iff, filter_eq_some_iff, ← mem_entries_iff]
  exact mem_filter

theorem forall_filter {test : κ → ν → Bool} (h : ∀ k v, m.get? k = some v → P k v) :
    ∀ k' v', (m.filter test).get? k' = some v' → P k' v' := by
  intro k' v' hget
  rw [get?_filter, filter_eq_some_iff] at hget
  exact h k' v' hget.1

/-- A test of the keys, of a map with a value set. -/
theorem filter_set_key (test : κ → Bool) : (m.set k v).filter (fun k _ => test k) =
      if test k = true then (m.filter fun k _ => test k).set k v else m.filter fun k _ => test k := by
  apply ext_entries
  have hkeys : k ∈ (m.filter fun k _ => test k).entries.map Prod.fst ↔
      test k = true ∧ k ∈ m.entries.map Prod.fst := by
    simp only [filter, List.mem_map, mem_filter]
    constructor
    · rintro ⟨e, ⟨he, htest⟩, rfl⟩
      exact ⟨htest, e, he, rfl⟩
    · rintro ⟨htest, e, he, rfl⟩
      exact ⟨e, ⟨he, htest⟩, rfl⟩
  by_cases hk : k ∈ m.entries.map Prod.fst
  · have hset : ((m.set k v).filter fun k _ => test k).entries =
        ((m.filter fun k _ => test k).entries).map fun e => if e.1 = k then (k, v) else e := by
      simp only [filter, entries_set_of_mem hk, List.filter_map]
      congr 1
      refine filter_congr fun e _ => ?_
      simp only [Function.comp]
      split
      · next heq => rw [heq]
      · rfl
    rw [hset]
    split
    · next htest => rw [entries_set_of_mem (hkeys.mpr ⟨htest, hk⟩)]
    · next htest =>
      refine (map_congr_left fun e he => if_neg ?_).trans (map_id _)
      rintro rfl
      exact htest (mem_filter.mp he).2
  · split
    · next htest =>
      rw [entries_set_of_notMem fun h => hk (hkeys.mp h).2]
      simp [filter, entries_set_of_notMem hk, htest]
    · next htest => simp [filter, entries_set_of_notMem hk, htest]

/-! ### Sums -/

theorem entries_perm_of_get? (h : m.get? k = some v) : m.entries.Perm ((k, v) :: (m.delete k).entries) := by
  have hnodup : m.entries.Nodup := List.Nodup.of_map _ m.nodup_keys
  have hrest : (m.delete k).entries.Nodup := List.Nodup.of_map _ (m.delete k).nodup_keys
  refine (perm_ext_iff_of_nodup hnodup (nodup_cons.mpr ⟨?_, hrest⟩)).mpr ?_
  · simp [delete]
  · rintro ⟨a, b⟩
    rw [mem_cons, mem_entries_iff, mem_entries_iff, get?_delete, Prod.mk.injEq]
    by_cases ha : a = k
    · subst ha
      simp [h, eq_comm]
    · simp [ha]

theorem delete_set : ((m.set k v).delete k).entries.Perm (m.delete k).entries := by
  have h₁ : ((m.set k v).delete k).entries.Nodup := List.Nodup.of_map _ (nodup_keys _)
  have h₂ : (m.delete k).entries.Nodup := List.Nodup.of_map _ (nodup_keys _)
  refine (perm_ext_iff_of_nodup h₁ h₂).mpr ?_
  rintro ⟨a, b⟩
  rw [mem_entries_iff, mem_entries_iff, get?_delete, get?_delete, get?_set]
  by_cases ha : a = k <;> simp [ha]

variable {M : Type} [AddCommMonoid M]

/-- The sum of a quantity over the entries. -/
def sumBy (f : κ → ν → M) (m : OrderedMap κ ν) : M := (m.entries.map fun e => f e.1 e.2).sum

omit [DecidableEq κ] in
@[simp] theorem sumBy_empty (f : κ → ν → M) : (empty : OrderedMap κ ν).sumBy f = 0 := rfl

/-- **Split off one entry of a sum.** -/
theorem sumBy_eq_of_get? (f : κ → ν → M) (h : m.get? k = some v) : m.sumBy f = f k v + (m.delete k).sumBy f := by
  rw [sumBy, ((entries_perm_of_get? h).map _).sum_eq, map_cons, sum_cons, sumBy]

/-- **What `set` does to a sum.** -/
theorem sumBy_set (f : κ → ν → M) : (m.set k v).sumBy f = f k v + (m.delete k).sumBy f := by
  rw [sumBy_eq_of_get? f get?_set_self]
  exact congrArg (f k v + ·) (delete_set.map _).sum_eq

theorem sumBy_set_of_get?_eq_none (f : κ → ν → M) (h : m.get? k = none) :
    (m.set k v).sumBy f = f k v + m.sumBy f := by
  rw [sumBy_set, delete_of_get?_eq_none h]

omit [DecidableEq κ] in
theorem size_eq_sumBy : m.size = m.sumBy fun _ _ => 1 := by
  simp [size, sumBy]

theorem sumBy_set_of_get? (f : κ → ν → ℤ) (v' : ν) (h : m.get? k = some v) :
    (m.set k v').sumBy f = m.sumBy f - f k v + f k v' := by
  rw [sumBy_set, sumBy_eq_of_get? f h]
  omega

theorem sumBy_delete_of_get? (f : κ → ν → ℤ) (h : m.get? k = some v) : (m.delete k).sumBy f = m.sumBy f - f k v := by
  rw [sumBy_eq_of_get? f h]
  omega

theorem size_set_of_get?_eq_none (h : m.get? k = none) : (m.set k v).size = m.size + 1 := by
  rw [size_eq_sumBy, sumBy_set_of_get?_eq_none _ h, size_eq_sumBy, Nat.add_comm]

/-- A key that is present takes one from the size when it is removed. -/
theorem size_delete_of_get? (h : m.get? k = some v) : (m.delete k).size + 1 = m.size := by
  rw [size_eq_sumBy (m := m), sumBy_eq_of_get? _ h, size_eq_sumBy, Nat.add_comm]

theorem size_set_of_get? (h : m.get? k = some v') : (m.set k v).size = m.size := by
  rw [size_eq_sumBy, sumBy_set, size_eq_sumBy (m := m), sumBy_eq_of_get? _ h]

variable {m' : OrderedMap κ ν}

/-- Maps that have the same value for every key have the same entries, up to their order. -/
theorem perm_of_get?_eq (h : ∀ k, m.get? k = m'.get? k) : m.entries.Perm m'.entries := by
  refine (perm_ext_iff_of_nodup (List.Nodup.of_map _ m.nodup_keys) (List.Nodup.of_map _ m'.nodup_keys)).mpr ?_
  rintro ⟨a, b⟩
  rw [mem_entries_iff, mem_entries_iff, h a]

theorem size_eq_of_get?_eq (h : ∀ k, m.get? k = m'.get? k) : m.size = m'.size :=
  (perm_of_get?_eq h).length_eq

theorem sumBy_eq_of_get?_eq (f : κ → ν → M) (h : ∀ k, m.get? k = m'.get? k) : m.sumBy f = m'.sumBy f :=
  ((perm_of_get?_eq h).map _).sum_eq

theorem sumBy_nonneg {f : κ → ν → ℤ} (h : ∀ k v, m.get? k = some v → 0 ≤ f k v) : 0 ≤ m.sumBy f := by
  refine sum_nonneg fun x hx => ?_
  obtain ⟨⟨a, b⟩, he, rfl⟩ := mem_map.mp hx
  exact h a b (mem_entries_iff.mp he)

/-! ### The set of the keys -/

/-- The keys. -/
def keySet (m : OrderedMap κ ν) : Finset κ := (m.entries.map Prod.fst).toFinset

theorem mem_keySet : k ∈ m.keySet ↔ m.has k = true := by
  rw [keySet, List.mem_toFinset, has_eq_true_iff]
  constructor
  · intro h
    obtain ⟨⟨a, b⟩, he, rfl⟩ := mem_map.mp h
    exact ⟨b, mem_entries_iff.mp he⟩
  · rintro ⟨w, h⟩
    exact mem_map.mpr ⟨_, mem_entries_iff.mpr h, rfl⟩

theorem card_keySet : m.keySet.card = m.size := by
  rw [keySet, toFinset_card_of_nodup m.nodup_keys, length_map, size]

@[simp] theorem keySet_empty : (empty : OrderedMap κ ν).keySet = ∅ := rfl

theorem keySet_set : (m.set k v).keySet = insert k m.keySet := by
  ext a
  rw [mem_keySet, Finset.mem_insert, mem_keySet, has_eq_true_iff, has_eq_true_iff, get?_set]
  by_cases ha : a = k <;> simp [ha]

theorem keySet_delete : (m.delete k).keySet = m.keySet.erase k := by
  ext a
  rw [mem_keySet, Finset.mem_erase, mem_keySet, has_eq_true_iff, has_eq_true_iff, get?_delete]
  by_cases ha : a = k <;> simp [ha]

/-! ### Maps from keys to positions -/

/-- A map holds under every key the position of the key in a list, and nothing else. -/
def Indexes (m : OrderedMap κ ℕ) (keys : List κ) : Prop :=
  ∀ (i : ℕ) (k : κ), m.get? k = some i ↔ keys[i]? = some k

theorem indexes_empty : (empty : OrderedMap κ ℕ).Indexes [] := fun _ _ => by simp

theorem Indexes.unique {m : OrderedMap κ ℕ} {keys : List κ} (h : m.Indexes keys) {i j : ℕ}
    (hi : keys[i]? = some k) (hj : keys[j]? = some k) : i = j :=
  some.inj (((h i k).mpr hi).symm.trans ((h j k).mpr hj))

theorem Indexes.set {m : OrderedMap κ ℕ} {keys : List κ} (h : m.Indexes keys)
    (hfree : m.get? k = none) : (m.set k keys.length).Indexes (keys ++ [k]) := by
  intro i k'
  rw [get?_set]
  have hlen : ∀ j k₁, keys[j]? = some k₁ → j < keys.length := fun j k₁ hj =>
    (List.getElem?_eq_some_iff.mp hj).1
  by_cases heq : k' = k
  · subst heq
    rw [if_pos rfl, some.injEq]
    refine ⟨fun hi => hi ▸ getElem?_concat_length, fun hi => ?_⟩
    by_cases hlt : i < keys.length
    · rw [getElem?_append_left hlt] at hi
      have hused := (h i k').mpr hi
      rw [hfree] at hused
      cases hused
    · have hle := (List.getElem?_eq_some_iff.mp hi).1
      rw [length_append, length_singleton] at hle
      omega
  · rw [if_neg heq, h i k', getElem?_append]
    split
    · exact Iff.rfl
    · next hge =>
      refine ⟨fun hi => absurd (hlen i k' hi) hge, fun hi => ?_⟩
      rw [getElem?_singleton] at hi
      split at hi
      · exact absurd (some.inj hi).symm heq
      · cases hi

end OrderedMap

end HiveRelay
