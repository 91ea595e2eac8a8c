import Mathlib.Algebra.Ring.Nat
import Mathlib.Algebra.Order.BigOperators.Group.List
import Mathlib.Data.List.Nodup
import Mathlib.Data.List.Sort

/-!
# Largest-remainder apportionment

A capacity is divided among weighted claimants. Each gets the floor of its weighted share, and what is
left goes out one unit at a time, in the order of the remainders. What is left is less than one unit per
claimant, so nobody gets a second one, and the shares add up to the capacity.

## Main definitions

* `Allocation`, `floors` — what a claimant gets, at first
* `bumpFirst` — one more for the first ones
* `apportion` — the allocations in the order of the claimants

## Main results

* `sum_apportion` — the shares add up to the capacity
* `exists_of_mem_apportion` — each is the floor of its weighted share or one more
* `map_id_apportion` — each claimant has one
* `exists_apportion` — there is always an apportionment
-/

namespace HiveRelay.Apportion

open List Option

variable {ι : Type}

/-- What a claimant gets. -/
structure Allocation (ι : Type) where
  id : ι
  (index bytes remainder : ℕ)

/-- One unit more. -/
def Allocation.bump (a : Allocation ι) : Allocation ι := { a with bytes := a.bytes + 1 }

/-- The floors of the weighted shares, from position `i` on. -/
def floorsFrom (capacity total : ℕ) : ℕ → List (ι × ℕ) → List (Allocation ι)
  | _, [] => []
  | i, (id, weight) :: claims =>
    ⟨id, i, capacity * weight / total, capacity * weight % total⟩ :: floorsFrom capacity total (i + 1) claims

/-- The sum of the weights. -/
def totalWeight (claims : List (ι × ℕ)) : ℕ := (claims.map Prod.snd).sum

/-- The floors of the weighted shares. -/
def floors (capacity : ℕ) (claims : List (ι × ℕ)) : List (Allocation ι) :=
  floorsFrom capacity (totalWeight claims) 0 claims

/-- The order in which what is left goes out: larger remainders first, ties as declared. -/
def BeforeByRemainder (a b : Allocation ι) : Prop :=
  b.remainder < a.remainder ∨ a.remainder = b.remainder ∧ a.index ≤ b.index

instance : DecidableRel (BeforeByRemainder (ι := ι)) :=
  fun _ _ => inferInstanceAs (Decidable (_ ∨ _))

/-- The order of the declaration. -/
def BeforeByIndex (a b : Allocation ι) : Prop := a.index ≤ b.index

instance : DecidableRel (BeforeByIndex (ι := ι)) := fun _ _ => inferInstanceAs (Decidable (_ ≤ _))

instance : Std.Total (BeforeByIndex (ι := ι)) := ⟨fun a b => Nat.le_total a.index b.index⟩

instance : IsTrans (Allocation ι) BeforeByIndex := ⟨fun _ _ _ => Nat.le_trans⟩

/-- One unit more for each of the first `n`; `none` if there are fewer. -/
def bumpFirst : ℕ → List (Allocation ι) → Option (List (Allocation ι))
  | 0, l => some l
  | _ + 1, [] => none
  | n + 1, a :: l => (bumpFirst n l).map (a.bump :: ·)

/-- The sum of what the claimants get. -/
def allocated (l : List (Allocation ι)) : ℕ := (l.map Allocation.bytes).sum

/-- The capacity among the claimants, in the order of their declaration. -/
def apportion (capacity : ℕ) (claims : List (ι × ℕ)) : Option (List (Allocation ι)) :=
  let shares := floors capacity claims
  (bumpFirst (capacity - allocated shares) (shares.insertionSort BeforeByRemainder)).map
    (·.insertionSort BeforeByIndex)

/-! ### The floors -/

section Floors

variable {capacity total i : ℕ} {claims : List (ι × ℕ)} {a : Allocation ι}

theorem map_id_floorsFrom (capacity total i : ℕ) (claims : List (ι × ℕ)) :
    (floorsFrom capacity total i claims).map Allocation.id = claims.map Prod.fst := by
  induction claims generalizing i with
  | nil => rfl
  | cons claim claims ih => simp [floorsFrom, ih]

theorem map_index_floorsFrom (capacity total i : ℕ) (claims : List (ι × ℕ)) :
    (floorsFrom capacity total i claims).map Allocation.index = range' i claims.length := by
  induction claims generalizing i with
  | nil => rfl
  | cons claim claims ih => simp [floorsFrom, ih, range'_succ]

example : (floors 10 [((), 1), ((), 2)]).map Allocation.bytes = [3, 6] := by decide +kernel

theorem exists_of_mem_floorsFrom (h : a ∈ floorsFrom capacity total i claims) :
    ∃ weight, (a.id, weight) ∈ claims ∧ a.bytes = capacity * weight / total := by
  induction claims generalizing i with
  | nil => simp [floorsFrom] at h
  | cons claim claims ih =>
    obtain ⟨id, weight⟩ := claim
    rw [floorsFrom, mem_cons] at h
    rcases h with rfl | h
    · exact ⟨weight, mem_cons_self, rfl⟩
    · obtain ⟨weight', hmem, hbytes⟩ := ih h
      exact ⟨weight', mem_cons_of_mem _ hmem, hbytes⟩

theorem mul_allocated_add_sum (capacity total i : ℕ) (claims : List (ι × ℕ)) :
    total * allocated (floorsFrom capacity total i claims) +
      ((floorsFrom capacity total i claims).map Allocation.remainder).sum = capacity * totalWeight claims := by
  induction claims generalizing i with
  | nil => simp [floorsFrom, allocated, totalWeight]
  | cons claim claims ih =>
    have hdiv := Nat.div_add_mod (capacity * claim.2) total
    have hrest := ih (i + 1)
    simp only [allocated, totalWeight] at hrest ⊢
    simp only [floorsFrom, map_cons, sum_cons, Nat.mul_add]
    omega

theorem sum_remainders_le (htotal : 0 < total) (capacity i : ℕ) (claims : List (ι × ℕ)) :
    ((floorsFrom capacity total i claims).map Allocation.remainder).sum ≤ total * claims.length := by
  induction claims generalizing i with
  | nil => simp [floorsFrom]
  | cons claim claims ih =>
    have hmod := Nat.mod_lt (capacity * claim.2) htotal
    have hrest := ih (i + 1)
    simp only [floorsFrom, map_cons, sum_cons, length_cons, Nat.mul_succ]
    omega

/-- **What is left** is at most one unit per claimant. -/
theorem left_le_length (htotal : 0 < totalWeight claims) (capacity : ℕ) :
    allocated (floors capacity claims) ≤ capacity ∧
      capacity - allocated (floors capacity claims) ≤ claims.length := by
  have hsum := mul_allocated_add_sum capacity (totalWeight claims) 0 claims
  have hrem := sum_remainders_le htotal capacity 0 claims
  rw [← floors, Nat.mul_comm capacity] at hsum
  rw [← floors] at hrem
  have hle : totalWeight claims * allocated (floors capacity claims) ≤ totalWeight claims * capacity := by omega
  have hallocated := Nat.le_of_mul_le_mul_left hle htotal
  refine ⟨hallocated, Nat.le_of_mul_le_mul_left (c := totalWeight claims) ?_ htotal⟩
  rw [Nat.mul_sub]
  omega

end Floors

/-! ### One unit more -/

section Bump

variable {n : ℕ} {l l' : List (Allocation ι)}

theorem bumpFirst_succ (h : bumpFirst (n + 1) l = some l') :
    ∃ a rest rest', l = a :: rest ∧ bumpFirst n rest = some rest' ∧ l' = a.bump :: rest' := by
  match l with
  | [] => simp [bumpFirst] at h
  | a :: rest =>
    obtain ⟨rest', hrest, rfl⟩ := map_eq_some_iff.mp h
    exact ⟨a, rest, rest', rfl, hrest, rfl⟩

theorem exists_bumpFirst (h : n ≤ l.length) : ∃ l', bumpFirst n l = some l' := by
  induction n generalizing l with
  | zero => exact ⟨l, rfl⟩
  | succ n ih =>
    cases l with
    | nil => simp at h
    | cons a rest =>
      obtain ⟨rest', hrest⟩ := ih (Nat.le_of_succ_le_succ h)
      exact ⟨a.bump :: rest', by rw [bumpFirst, hrest, map_some]⟩

theorem allocated_bumpFirst (h : bumpFirst n l = some l') : allocated l' = allocated l + n := by
  induction n generalizing l l' with
  | zero => obtain rfl := some.inj h; simp
  | succ n ih =>
    obtain ⟨a, rest, rest', rfl, hrest, rfl⟩ := bumpFirst_succ h
    have := ih hrest
    simp only [allocated, map_cons, sum_cons, Allocation.bump] at this ⊢
    omega

theorem map_bumpFirst {β : Type} (f : Allocation ι → β) (hf : ∀ a, f a.bump = f a)
    (h : bumpFirst n l = some l') : l'.map f = l.map f := by
  induction n generalizing l l' with
  | zero => obtain rfl := some.inj h; rfl
  | succ n ih =>
    obtain ⟨a, rest, rest', rfl, hrest, rfl⟩ := bumpFirst_succ h
    simp [ih hrest, hf]

theorem exists_of_mem_bumpFirst {b : Allocation ι} (h : bumpFirst n l = some l') (hb : b ∈ l') :
    ∃ a ∈ l, b = a ∨ b = a.bump := by
  induction n generalizing l l' with
  | zero =>
    cases h
    exact ⟨b, hb, .inl rfl⟩
  | succ n ih =>
    obtain ⟨a, rest, rest', rfl, hrest, rfl⟩ := bumpFirst_succ h
    rcases mem_cons.mp hb with rfl | hb
    · exact ⟨a, mem_cons_self, .inr rfl⟩
    · obtain ⟨a', ha', hba⟩ := ih hrest hb
      exact ⟨a', mem_cons_of_mem _ ha', hba⟩

end Bump

/-- Lists with the same elements are the same when they are in order of different numbers. -/
theorem eq_of_perm_of_pairwise {β : Type} (f : β → ℕ) {l l' : List β} (hperm : l.Perm l')
    (hl : l.Pairwise fun a b => f a ≤ f b) (hl' : l'.Pairwise fun a b => f a ≤ f b)
    (hnodup : (l'.map f).Nodup) : l = l' := by
  refine hperm.eq_of_pairwise (fun a b ha hb hab hba => ?_) hl hl'
  exact inj_on_of_nodup_map hnodup (hperm.mem_iff.mp ha) hb (Nat.le_antisymm hab hba)

/-! ### The apportionment -/

section Main

variable {capacity : ℕ} {claims : List (ι × ℕ)} {l : List (Allocation ι)}

theorem apportion_eq_some (h : apportion capacity claims = some l) :
    ∃ l', bumpFirst (capacity - allocated (floors capacity claims))
      ((floors capacity claims).insertionSort BeforeByRemainder) = some l' ∧ l = l'.insertionSort BeforeByIndex := by
  obtain ⟨l', hl', rfl⟩ := map_eq_some_iff.mp h
  exact ⟨l', hl', rfl⟩

/-- **There is an apportionment** of every capacity, since what is left is at most one unit per claimant. -/
theorem exists_apportion (htotal : 0 < totalWeight claims) (capacity : ℕ) :
    ∃ l, apportion capacity claims = some l := by
  have hlength : (floors capacity claims).length = claims.length := by
    have := congrArg length (map_id_floorsFrom capacity (totalWeight claims) 0 claims)
    rwa [length_map, length_map] at this
  obtain ⟨l', hl'⟩ := exists_bumpFirst (n := capacity - allocated (floors capacity claims))
    (l := (floors capacity claims).insertionSort BeforeByRemainder)
    (by rw [length_insertionSort, hlength]; exact (left_le_length htotal capacity).2)
  exact ⟨_, by rw [apportion, hl', map_some]⟩

/-- **The shares add up to the capacity.** -/
theorem sum_apportion (htotal : 0 < totalWeight claims) (h : apportion capacity claims = some l) :
    allocated l = capacity := by
  obtain ⟨l', hl', rfl⟩ := apportion_eq_some h
  have hperm : ∀ (m : List (Allocation ι)) before [DecidableRel before],
      allocated (m.insertionSort before) = allocated m :=
    fun m before _ => ((m.perm_insertionSort before).map _).sum_eq
  rw [hperm, allocated_bumpFirst hl', hperm]
  have := (left_le_length htotal capacity).1
  omega

/-- **Each share is the floor of its weighted share or one more.** -/
theorem exists_of_mem_apportion (h : apportion capacity claims = some l) {b : Allocation ι}
    (hb : b ∈ l) : ∃ weight, (b.id, weight) ∈ claims ∧ (b.bytes = capacity * weight / totalWeight claims ∨
        b.bytes = capacity * weight / totalWeight claims + 1) := by
  obtain ⟨l', hl', rfl⟩ := apportion_eq_some h
  obtain ⟨a, ha, hba⟩ := exists_of_mem_bumpFirst hl' ((mem_insertionSort _).mp hb)
  obtain ⟨weight, hmem, hbytes⟩ := exists_of_mem_floorsFrom ((mem_insertionSort _).mp ha)
  rcases hba with rfl | rfl
  · exact ⟨weight, hmem, .inl hbytes⟩
  · exact ⟨weight, hmem, .inr (congrArg (· + 1) hbytes)⟩

/-- **Each claimant has one share**, and they are in the order of the claimants. -/
theorem map_id_apportion (h : apportion capacity claims = some l) : l.map Allocation.id = claims.map Prod.fst := by
  obtain ⟨l', hl', rfl⟩ := apportion_eq_some h
  let label : Allocation ι → ℕ × ι := fun a => (a.index, a.id)
  have hkept : l'.map label = ((floors capacity claims).insertionSort BeforeByRemainder).map label :=
    map_bumpFirst label (fun _ => rfl) hl'
  have hperm : ((l'.insertionSort BeforeByIndex).map label).Perm ((floors capacity claims).map label) := by
    refine ((perm_insertionSort _ _).map label).trans ?_
    rw [hkept]
    exact (perm_insertionSort _ _).map label
  have hindex : ((floors capacity claims).map label).map Prod.fst = List.range' 0 claims.length := by
    rw [List.map_map]
    exact map_index_floorsFrom ..
  -- the sort puts the positions back, and the positions are all different
  have hlabels : (l'.insertionSort BeforeByIndex).map label = (floors capacity claims).map label := by
    refine eq_of_perm_of_pairwise Prod.fst hperm ?_ ?_ ?_
    · rw [pairwise_map]
      exact pairwise_insertionSort BeforeByIndex l'
    · rw [← pairwise_map (f := Prod.fst) (R := (· ≤ ·)), hindex]
      exact pairwise_le_range'
    · rw [hindex]
      exact nodup_range'
  have hids := congrArg (List.map Prod.snd) hlabels
  rw [List.map_map, List.map_map] at hids
  exact hids.trans (map_id_floorsFrom ..)

end Main

end HiveRelay.Apportion
