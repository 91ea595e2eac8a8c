import Mathlib.Data.List.Perm.Basic
import Mathlib.Data.Nat.Notation

/-!
# Binary heaps in an array

The array heap with sifting by swaps, over any comparison `before`. The sifts only ever swap two
positions, so a push adds one element to the multiset of elements and a pop takes one away, whatever
the comparison is. When it is a strict weak order the array stays a heap, and a pop takes a least element.

## Main definitions

* `Heap.siftUp`, `Heap.siftDown`, `Heap.push`, `Heap.pop`

## Main results

* `Heap.push_perm`, `Heap.pop_perm` — the elements after a push and after a pop
* `Heap.IsHeap.push`, `Heap.IsHeap.pop` — the order after a push and after a pop
-/

namespace HiveRelay.Heap

variable {α : Type} (before : α → α → Bool)

/-- Move the element at `i` towards the root while it comes before its parent. -/
def siftUp (heap : Array α) (i : ℕ) (hi : i < heap.size) : Array α :=
  if h : 0 < i then
    if before heap[i] (heap[(i - 1) / 2]) then
      siftUp (heap.swap i ((i - 1) / 2)) ((i - 1) / 2) (by rw [Array.size_swap]; omega)
    else heap
  else heap
termination_by i

/-- The child of `i` that comes first, among those in bounds. -/
def firstChild (heap : Array α) (i : ℕ) (hi : 2 * i + 1 < heap.size) : ℕ :=
  if hright : 2 * i + 2 < heap.size then
    if before heap[2 * i + 2] heap[2 * i + 1] then 2 * i + 2 else 2 * i + 1
  else 2 * i + 1

theorem firstChild_bounds (heap : Array α) (i : ℕ) (hi : 2 * i + 1 < heap.size) :
    i < firstChild before heap i hi ∧ firstChild before heap i hi < heap.size := by
  unfold firstChild
  split
  · split <;> omega
  · omega

/-- Move the element at `i` towards the leaves while one of its children comes before it. -/
def siftDown (heap : Array α) (i : ℕ) (hi : i < heap.size) : Array α :=
  if hleft : 2 * i + 1 < heap.size then
    have hchild := firstChild_bounds before heap i hleft
    if before (heap[firstChild before heap i hleft]) heap[i] then
      siftDown (heap.swap i (firstChild before heap i hleft)) (firstChild before heap i hleft)
        (by rw [Array.size_swap]; exact hchild.2)
    else heap
  else heap
termination_by heap.size - i
decreasing_by
  rw [Array.size_swap]
  omega

/-- Add an element at the end and sift it up. -/
def push (heap : Array α) (a : α) : Array α :=
  siftUp before (heap.push a) heap.size (by rw [Array.size_push]; omega)

/-- Take the root away: the last element replaces it and is sifted down. -/
def pop (heap : Array α) : Option (α × Array α) :=
  if h : 0 < heap.size then
    if hrest : 0 < heap.pop.size then
      some (heap[0], siftDown before (heap.pop.set 0 heap[heap.size - 1]) 0 (by rw [Array.size_set]; exact hrest))
    else some (heap[0], heap.pop)
  else none

theorem siftUp_perm (heap : Array α) (i : ℕ) (hi : i < heap.size) :
    (siftUp before heap i hi).toList.Perm heap.toList := by
  induction heap, i, hi using siftUp.induct before with
  | case1 heap i hi h hbefore ih =>
    rw [siftUp, dif_pos h, if_pos hbefore]
    exact ih.trans (Array.swap_perm hi (by omega)).toList
  | case2 heap i hi h hbefore =>
    rw [siftUp, dif_pos h, if_neg hbefore]
  | case3 heap i hi h =>
    rw [siftUp, dif_neg h]

theorem siftDown_perm (heap : Array α) (i : ℕ) (hi : i < heap.size) :
    (siftDown before heap i hi).toList.Perm heap.toList := by
  induction heap, i, hi using siftDown.induct before with
  | case1 heap i hi h hchild hbefore ih =>
    rw [siftDown, dif_pos h, if_pos hbefore]
    exact ih.trans (Array.swap_perm hi hchild.2).toList
  | case2 heap i hi h hchild hbefore =>
    rw [siftDown, dif_pos h, if_neg hbefore]
  | case3 heap i hi h =>
    rw [siftDown, dif_neg h]

/-- **A push adds its element.** -/
theorem push_perm (heap : Array α) (a : α) : (push before heap a).toList.Perm (a :: heap.toList) := by
  refine (siftUp_perm before _ _ _).trans ?_
  rw [Array.toList_push]
  exact List.perm_append_singleton a heap.toList

/-- **A pop takes one element away.** -/
theorem pop_perm {heap rest : Array α} {a : α} (h : pop before heap = some (a, rest)) :
    heap.toList.Perm (a :: rest.toList) := by
  obtain ⟨l⟩ := heap
  rcases List.eq_nil_or_concat l with rfl | ⟨init, last, rfl⟩
  · cases h
  · cases init with
    | nil =>
      obtain ⟨rfl, rfl⟩ := h
      simp
    | cons first init =>
      simp only [pop] at h
      rw [dif_pos (by simp), dif_pos (by simp)] at h
      obtain ⟨rfl, rfl⟩ := Prod.mk.inj (Option.some.inj h)
      have hdrop : (first :: (init ++ [last])).dropLast = first :: init := by
        rw [← List.cons_append, List.dropLast_concat]
      refine List.Perm.trans ?_ ((siftDown_perm before _ _ _).symm.cons _)
      simp [hdrop]

theorem pop_eq_none {heap : Array α} : pop before heap = none ↔ heap.toList = [] := by
  rw [Array.toList_eq_nil_iff, ← Array.size_eq_zero_iff, pop]
  split
  · next hpos => split <;> simp [Nat.pos_iff_ne_zero.mp hpos]
  · next hpos => simpa using hpos

/-! ### The order -/

/-- No element comes before its parent. -/
def IsHeap (heap : Array α) : Prop :=
  ∀ i (hi : i < heap.size), 0 < i → before heap[i] (heap[(i - 1) / 2]) = false

/-- A strict weak order. -/
structure Weak : Prop where
  asymm : ∀ a b, before a b = true → before b a = false
  trans : ∀ a b c, before b a = false → before c b = false → before c a = false

/-- No element other than the one at `hole` comes before its parent, and the children of `hole` do not
come before its parent. -/
structure UpOrder (heap : Array α) (hole : ℕ) : Prop where
  parents : ∀ i (hi : i < heap.size), 0 < i → i ≠ hole → before heap[i] (heap[(i - 1) / 2]) = false
  around : ∀ i (hi : i < heap.size), 0 < i → (i - 1) / 2 = hole → 0 < hole →
    before heap[i] (heap[((i - 1) / 2 - 1) / 2]) = false

/-- No element other than the children of `hole` comes before its parent, and the children of `hole` do
not come before its parent. -/
structure DownOrder (heap : Array α) (hole : ℕ) : Prop where
  parents : ∀ i (hi : i < heap.size), 0 < i → (i - 1) / 2 ≠ hole →
    before heap[i] (heap[(i - 1) / 2]) = false
  around : ∀ i (hi : i < heap.size), 0 < i → (i - 1) / 2 = hole → 0 < hole →
    before heap[i] (heap[((i - 1) / 2 - 1) / 2]) = false

variable {before} {heap rest : Array α} {a : α} {i : ℕ}

theorem IsHeap.siftUp (hb : Weak before) {hi : i < heap.size} (h : UpOrder before heap i) :
    IsHeap before (siftUp before heap i hi) := by
  induction heap, i, hi using siftUp.induct before with
  | case1 heap i hi hpos hbefore ih =>
    rw [Heap.siftUp, dif_pos hpos, if_pos hbefore]
    have hswapped := hb.asymm _ _ hbefore
    refine ih ⟨fun j hj hjpos hne => ?_, fun j hj hjpos hparent hgrand => ?_⟩
    · rw [Array.size_swap] at hj
      rw [Array.getElem_swap, Array.getElem_swap, if_neg hne]
      by_cases hji : j = i
      · subst hji
        rwa [if_pos rfl, if_neg (by omega), if_pos rfl]
      rw [if_neg hji]
      have hup := h.parents j hj hjpos hji
      by_cases hparent : (j - 1) / 2 = i
      · rw [if_pos hparent]
        simpa only [hparent] using h.around j hj hjpos hparent hpos
      rw [if_neg hparent]
      by_cases hsibling : (j - 1) / 2 = (i - 1) / 2
      · rw [if_pos hsibling]
        simp only [hsibling] at hup
        exact hb.trans _ _ _ hswapped hup
      · rwa [if_neg hsibling]
    · rw [Array.size_swap] at hj
      have hup := h.parents ((i - 1) / 2) (by omega) hgrand (by omega)
      rw [Array.getElem_swap, Array.getElem_swap]
      by_cases hji : j = i
      · subst hji
        rwa [if_pos rfl, if_neg (by omega), if_neg (by omega)]
      · have hj := h.parents j hj hjpos hji
        rw [if_neg hji, if_neg (by omega), if_neg (by omega), if_neg (by omega)]
        simp only [hparent] at hj ⊢
        exact hb.trans _ _ _ hup hj
  | case2 heap i hi hpos hbefore =>
    rw [Heap.siftUp, dif_pos hpos, if_neg hbefore]
    intro j hj hjpos
    by_cases hji : j = i
    · subst hji
      exact Bool.eq_false_iff.mpr hbefore
    · exact h.parents j hj hjpos hji
  | case3 heap i hi hpos =>
    rw [Heap.siftUp, dif_neg hpos]
    exact fun j hj hjpos => h.parents j hj hjpos (by omega)

theorem firstChild_first (hb : Weak before) {hi : 2 * i + 1 < heap.size} {c j : ℕ} (hc : c < heap.size)
    (hchild : c = firstChild before heap i hi) (hj : j < heap.size) (hjpos : 0 < j) (hparent : (j - 1) / 2 = i) :
    before heap[j] heap[c] = false := by
  have hirrefl : ∀ a, before a a = false := fun a => by
    by_contra h
    exact h (hb.asymm a a (Bool.not_eq_false _ ▸ h))
  have hcases : j = 2 * i + 1 ∨ j = 2 * i + 2 := by omega
  unfold firstChild at hchild
  split at hchild
  · split at hchild
    · next hright =>
      subst hchild
      rcases hcases with rfl | rfl
      · exact hb.asymm _ _ hright
      · exact hirrefl _
    · next hright =>
      subst hchild
      rcases hcases with rfl | rfl
      · exact hirrefl _
      · exact Bool.eq_false_iff.mpr hright
  · subst hchild
    obtain rfl : j = 2 * i + 1 := by omega
    exact hirrefl _

theorem DownOrder.isHeap (h : DownOrder before heap i) {hi : i < heap.size}
    (hchildren : ∀ j (hj : j < heap.size), 0 < j → (j - 1) / 2 = i → before heap[j] heap[i] = false) :
    IsHeap before heap := by
  intro j hj hjpos
  by_cases hparent : (j - 1) / 2 = i
  · simpa only [hparent] using hchildren j hj hjpos hparent
  · exact h.parents j hj hjpos hparent

theorem DownOrder.swap (hb : Weak before) (h : DownOrder before heap i) {c : ℕ} (hi : i < heap.size)
    (hc : c < heap.size) (hcpos : 0 < c) (hparent : (c - 1) / 2 = i) (hbefore : before heap[c] heap[i] = true)
    (hfirst : ∀ j (hj : j < heap.size), 0 < j → (j - 1) / 2 = i → before heap[j] heap[c] = false) :
    DownOrder before (heap.swap i c) c := by
  refine ⟨fun j hj hjpos hne => ?_, fun j hj hjpos hparent' _ => ?_⟩
  · rw [Array.size_swap] at hj
    rw [Array.getElem_swap, Array.getElem_swap, if_neg (c := (j - 1) / 2 = c) hne]
    by_cases hji : j = i
    · subst hji
      have hup := h.around c hc hcpos hparent hjpos
      simp only [hparent] at hup
      rwa [if_pos rfl, if_neg (by omega)]
    rw [if_neg hji]
    by_cases hparent' : (j - 1) / 2 = i
    · rw [if_pos hparent']
      split
      · exact hb.asymm _ _ hbefore
      · exact hfirst j hj hjpos hparent'
    · rw [if_neg hparent', if_neg (show ¬ j = c from fun hjc => hparent' (hjc ▸ hparent))]
      exact h.parents j hj hjpos hparent'
  · rw [Array.size_swap] at hj
    rw [Array.getElem_swap, Array.getElem_swap, if_neg (by omega), if_neg (by omega)]
    simp only [hparent', hparent, if_true]
    simpa only [hparent'] using h.parents j hj hjpos (by omega)

theorem IsHeap.siftDown (hb : Weak before) {hi : i < heap.size} (h : DownOrder before heap i) :
    IsHeap before (siftDown before heap i hi) := by
  induction heap, i, hi using siftDown.induct before with
  | case1 heap i hi hleft hchild hbefore ih =>
    rw [Heap.siftDown, dif_pos hleft, if_pos hbefore]
    have hparent : (firstChild before heap i hleft - 1) / 2 = i := by
      unfold firstChild
      grind
    exact ih (h.swap hb hi hchild.2 (by omega) hparent hbefore fun j hj => firstChild_first hb hchild.2 rfl hj)
  | case2 heap i hi hleft hchild hbefore =>
    rw [Heap.siftDown, dif_pos hleft, if_neg hbefore]
    refine @DownOrder.isHeap _ _ _ _ h hi fun j hj hjpos hparent => ?_
    exact hb.trans _ _ _ (Bool.eq_false_iff.mpr hbefore) (firstChild_first hb hchild.2 rfl hj hjpos hparent)
  | case3 heap i hi hleft =>
    rw [Heap.siftDown, dif_neg hleft]
    exact @DownOrder.isHeap _ _ _ _ h hi fun j hj hjpos hparent => by omega

/-- **A push keeps the order.** -/
theorem IsHeap.push (hb : Weak before) (h : IsHeap before heap) (a : α) : IsHeap before (push before heap a) := by
  refine IsHeap.siftUp hb ⟨fun j hj hjpos hne => ?_, fun j hj hjpos hparent _ => ?_⟩
  · rw [Array.size_push] at hj
    rw [Array.getElem_push_lt (by omega), Array.getElem_push_lt (by omega)]
    exact h j (by omega) hjpos
  · rw [Array.size_push] at hj
    omega

/-- No element comes before the root. -/
theorem IsHeap.root (hb : Weak before) (h : IsHeap before heap) (hpos : 0 < heap.size) :
    ∀ i (hi : i < heap.size), before heap[i] heap[0] = false := by
  intro i
  induction i using Nat.strongRecOn with
  | ind i ih =>
    intro hi
    rcases Nat.eq_zero_or_pos i with rfl | hipos
    · exact Bool.eq_false_iff.mpr fun hself => absurd (hb.asymm _ _ hself) (by rw [hself]; decide)
    · exact hb.trans _ _ _ (ih ((i - 1) / 2) (by omega) (by omega)) (h i hi hipos)

/-- **A pop keeps the order, and takes a least element.** -/
theorem IsHeap.pop (hb : Weak before) (h : IsHeap before heap) (hpop : pop before heap = some (a, rest)) :
    IsHeap before rest ∧ ∀ b ∈ heap.toList, before b a = false := by
  unfold Heap.pop at hpop
  split at hpop
  · next hpos =>
    have hleast : ∀ b ∈ heap.toList, before b heap[0] = false := by
      intro b hb'
      obtain ⟨i, hi, rfl⟩ := List.getElem_of_mem hb'
      exact h.root hb hpos i hi
    split at hpop
    · next hrest =>
      obtain ⟨rfl, rfl⟩ := Prod.mk.inj (Option.some.inj hpop)
      refine ⟨IsHeap.siftDown hb ⟨fun j hj hjpos hne => ?_, fun j hj hjpos hparent hlt => by omega⟩, hleast⟩
      rw [Array.size_set, Array.size_pop] at hj
      have hsize : heap.pop.size = heap.size - 1 := Array.size_pop
      rw [Array.getElem_set_ne _ (by omega) (by omega), Array.getElem_set_ne _ (by omega) (by omega),
        Array.getElem_pop, Array.getElem_pop]
      exact h j (by omega) hjpos
    · next hrest =>
      obtain ⟨rfl, rfl⟩ := Prod.mk.inj (Option.some.inj hpop)
      exact ⟨fun j hj => absurd hj (by omega), hleast⟩
  · cases hpop

end HiveRelay.Heap
