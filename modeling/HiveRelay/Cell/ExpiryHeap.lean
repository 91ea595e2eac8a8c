import Mathlib.Data.Multiset.AddSub
import Mathlib.Data.Prod.Lex
import HiveRelay.Cell.State

/-!
# The expiry heap

`pushExpiry` and `popExpiry` keep the pins of charged reads by the time until which a retry is answered. In
every sequence of calls a pop takes the least of what was pushed and not yet popped.

## Main definitions

* `ExpiryHistory` — the heap with all that went through it

## Main results

* `expiryHeap_run` — pops take the least, and nothing is lost
-/

namespace HiveRelay.Cell

variable {B : Type} [LinearOrder B]

inductive ExpiryCall (B : Type) where
  | push (value : ExpiryItem B)
  | pop

/-- The heap, and what was pushed and popped so far. -/
structure ExpiryHistory (B : Type) where
  heap : Array (ExpiryItem B)
  (pushed popped : Multiset (ExpiryItem B))

def ExpiryHistory.step (s : ExpiryHistory B) : ExpiryCall B → ExpiryHistory B
  | .push value => { s with heap := pushExpiry s.heap value, pushed := value ::ₘ s.pushed }
  | .pop => match popExpiry s.heap with
    | none => s
    | some (value, heap) => { s with heap := heap, popped := value ::ₘ s.popped }

def ExpiryHistory.run (calls : List (ExpiryCall B)) : ExpiryHistory B :=
  calls.foldl ExpiryHistory.step ⟨#[], 0, 0⟩

/-- By the time, and then by the key. -/
def ExpiryItem.order (item : ExpiryItem B) : ℕ ×ₗ B := toLex (item.retryExpiresUnixMillis, item.spendKey)

theorem expiryBefore_eq_true {a b : ExpiryItem B} : expiryBefore a b = true ↔ a.order < b.order := by
  simp [expiryBefore, ExpiryItem.order, Prod.Lex.lt_iff]

theorem expiryBefore_eq_false {a b : ExpiryItem B} : expiryBefore a b = false ↔ b.order ≤ a.order := by
  rw [← Bool.not_eq_true, expiryBefore_eq_true, not_lt]

theorem weak_expiryBefore : Heap.Weak (expiryBefore (B := B)) where
  asymm _ _ h := expiryBefore_eq_false.mpr (expiryBefore_eq_true.mp h).le
  trans _ _ _ hba hcb :=
    expiryBefore_eq_false.mpr ((expiryBefore_eq_false.mp hba).trans (expiryBefore_eq_false.mp hcb))

/-- The array is a heap of what was pushed and not popped. -/
structure ExpiryHistory.Holds (s : ExpiryHistory B) : Prop where
  isHeap : Heap.IsHeap expiryBefore s.heap
  balance : s.pushed = s.popped + s.heap.toList

theorem ExpiryHistory.Holds.step {s : ExpiryHistory B} (h : s.Holds) (call : ExpiryCall B) :
    (s.step call).Holds := by
  cases call with
  | push value =>
    refine ⟨h.isHeap.push weak_expiryBefore value, ?_⟩
    have hperm : ((pushExpiry s.heap value).toList : Multiset (ExpiryItem B)) = value ::ₘ ↑s.heap.toList :=
      Multiset.coe_eq_coe.mpr (Heap.push_perm expiryBefore s.heap value)
    show value ::ₘ s.pushed = s.popped + ((pushExpiry s.heap value).toList : Multiset (ExpiryItem B))
    rw [hperm, h.balance, Multiset.add_cons]
  | pop =>
    simp only [ExpiryHistory.step]
    split
    · exact h
    · next value heap hpop =>
      refine ⟨(h.isHeap.pop weak_expiryBefore hpop).1, ?_⟩
      have hperm : (s.heap.toList : Multiset (ExpiryItem B)) = value ::ₘ ↑heap.toList :=
        Multiset.coe_eq_coe.mpr (Heap.pop_perm expiryBefore hpop)
      show s.pushed = value ::ₘ s.popped + (heap.toList : Multiset (ExpiryItem B))
      rw [h.balance, hperm, Multiset.add_cons, Multiset.cons_add]

theorem ExpiryHistory.holds_run (calls : List (ExpiryCall B)) : (ExpiryHistory.run calls).Holds := by
  induction calls using List.reverseRecOn with
  | nil => exact ⟨fun i hi => absurd hi (Nat.not_lt_zero i), rfl⟩
  | append_singleton calls call ih =>
    rw [ExpiryHistory.run, List.foldl_append]
    exact ih.step call

/-- **The expiry heap** in every sequence of calls. -/
theorem expiryHeap_run (calls : List (ExpiryCall B)) :
    Heap.IsHeap expiryBefore (ExpiryHistory.run calls).heap ∧
      (ExpiryHistory.run calls).pushed =
        (ExpiryHistory.run calls).popped + ((ExpiryHistory.run calls).heap.toList : Multiset (ExpiryItem B)) ∧
      ∀ live, (ExpiryHistory.run calls).pushed = (ExpiryHistory.run calls).popped + live →
        (popExpiry (ExpiryHistory.run calls).heap = none ↔ live = 0) ∧
        ∀ value rest, popExpiry (ExpiryHistory.run calls).heap = some (value, rest) →
          value ∈ live ∧ ∀ other ∈ live, value.order ≤ other.order := by
  obtain ⟨hheap, hbalance⟩ := ExpiryHistory.holds_run calls
  refine ⟨hheap, hbalance, fun live hlive => ?_⟩
  obtain rfl : ((ExpiryHistory.run calls).heap.toList : Multiset (ExpiryItem B)) = live :=
    Multiset.add_right_inj.mp (hbalance.symm.trans hlive)
  generalize (ExpiryHistory.run calls).heap = heap at *
  refine ⟨?_, fun value rest hpop => ⟨?_, fun other hother => ?_⟩⟩
  · exact (Heap.pop_eq_none expiryBefore).trans (Multiset.coe_eq_zero _).symm
  · exact Multiset.mem_coe.mpr ((Heap.pop_perm expiryBefore hpop).mem_iff.mpr List.mem_cons_self)
  · exact expiryBefore_eq_false.mp ((hheap.pop weak_expiryBefore hpop).2 other (Multiset.mem_coe.mp hother))

end HiveRelay.Cell
