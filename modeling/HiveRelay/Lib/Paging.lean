import Mathlib.Data.List.Induction
import Mathlib.Data.List.Sort

/-!
# Cutting a sorted list into pages

A reader that goes through a set of keyed items in pages sorts the items that lie beyond its position,
takes the first few of them, and moves its position to the key of the last item taken. What it takes
is exactly what its new position covers, and there is something left exactly when an item lies beyond
that position: with these two facts the position alone says what has been read, whatever else
happens to the items between two pages.

## Main definitions

* `sortByKey` — the items in the order of their keys
* `lastKey` — the position after a page

## Main results

* `mem_take_iff` — a page has the items up to its last key
* `length_take_lt_iff` — items are left exactly when one lies beyond the last key
-/

namespace HiveRelay

open List

variable {α : Type} (key : α → ℕ)

/-- The items in the order of their keys. -/
def sortByKey (l : List α) : List α := l.insertionSort fun a b => key a ≤ key b

/-- The key of the last item of a page, or the position before it if the page is empty. -/
def lastKey (start : ℕ) (page : List α) : ℕ := (page.getLast?.map key).getD start

variable {key} {l : List α} {a : α}

@[simp] theorem mem_sortByKey : a ∈ sortByKey key l ↔ a ∈ l := mem_insertionSort _

theorem pairwise_sortByKey (h : (l.map key).Nodup) : (sortByKey key l).Pairwise fun a b => key a < key b := by
  have hsorted : (sortByKey key l).Pairwise fun a b => key a ≤ key b := by
    exact pairwise_insertionSort _ _
  have hnodup : ((sortByKey key l).map key).Nodup :=
    ((perm_insertionSort _ l).map key).nodup_iff.mpr h
  have hne : (sortByKey key l).Pairwise fun a b => key a ≠ key b := pairwise_map.mp hnodup
  exact (hsorted.and hne).imp fun h => Nat.lt_of_le_of_ne h.1 h.2

variable {start n : ℕ}

theorem key_le_lastKey (h : l.Pairwise fun a b => key a < key b) (ha : a ∈ l) : key a ≤ lastKey key start l := by
  induction l using reverseRecOn with
  | nil => cases ha
  | append_singleton l b _ =>
    rw [lastKey, getLast?_concat]
    rcases mem_append.mp ha with hmem | hlast
    · exact Nat.le_of_lt ((pairwise_append.mp h).2.2 a hmem b (mem_singleton_self b))
    · rw [mem_singleton.mp hlast]
      exact Nat.le_refl _

/-- The last key of a page with an item in it is the key of an item. -/
theorem exists_key_eq_lastKey (h : l ≠ []) : ∃ a ∈ l, key a = lastKey key start l := by
  refine ⟨l.getLast h, getLast_mem h, ?_⟩
  rw [lastKey, getLast?_eq_some_getLast h]
  rfl

theorem lastKey_lt_of_mem_drop (h : l.Pairwise fun a b => key a < key b) (hn : 1 ≤ n)
    (ha : a ∈ l.drop n) : lastKey key start (l.take n) < key a := by
  have hne : l.take n ≠ [] := by
    intro hnil
    rcases take_eq_nil_iff.mp hnil with hzero | hempty
    · omega
    · rw [hempty, drop_nil] at ha
      cases ha
  obtain ⟨b, hb, hkey⟩ := exists_key_eq_lastKey hne
  rw [← hkey]
  rw [← take_append_drop n l] at h
  exact (pairwise_append.mp h).2.2 b hb a ha

/-- **A page has the items up to its last key.** -/
theorem mem_take_iff (h : l.Pairwise fun a b => key a < key b) (hn : 1 ≤ n) (ha : a ∈ l) :
    a ∈ l.take n ↔ key a ≤ lastKey key start (l.take n) := by
  constructor
  · intro hmem
    exact key_le_lastKey (h.sublist (take_sublist _ _)) hmem
  · intro hle
    rw [← take_append_drop n l, mem_append] at ha
    rcases ha with hmem | hdrop
    · exact hmem
    · have hlt : lastKey key start (l.take n) < key a := lastKey_lt_of_mem_drop h hn hdrop
      omega

/-- **Items are left exactly when one lies beyond the last key.** -/
theorem length_take_lt_iff (h : l.Pairwise fun a b => key a < key b) (hn : 1 ≤ n) :
    (l.take n).length < l.length ↔ ∃ a ∈ l, lastKey key start (l.take n) < key a := by
  constructor
  · intro hlt
    have hdrop : l.drop n ≠ [] := by
      intro hnil
      have hle := drop_eq_nil_iff.mp hnil
      rw [take_of_length_le hle] at hlt
      omega
    obtain ⟨a, ha⟩ := exists_mem_of_ne_nil _ hdrop
    exact ⟨a, mem_of_mem_drop ha, lastKey_lt_of_mem_drop h hn ha⟩
  · rintro ⟨a, ha, hlt⟩
    by_contra hge
    have hle : l.length ≤ n := by
      rw [length_take] at hge
      omega
    rw [take_of_length_le hle] at hlt
    have hkey : key a ≤ lastKey key start l := key_le_lastKey h ha
    omega

end HiveRelay
