import HiveRelay.Lib.Run
import Mathlib.Data.List.Basic
import Mathlib.Logic.Function.Basic
import Mathlib.Order.Nat

/-!
# The lock of a shard's hash

A call waits for the promise that the call before it on its hash left in the map, and leaves one that settles after
its own release. So the functions of one hash run one at a time and in the order of their calls, whatever becomes of
them. The entry that is looked for in the clean-up is the release itself, which is never in the map: what is left
there stays.

## Main definitions

* `Queued` — who waits for whom

## Main results

* `Queued.settles` — nothing is in the way
* `withLock_serial` — functions of a hash run in order
-/

namespace HiveRelay.Store

open Function

/-- The promises of the calls, each under the number of its call: `next`, and the one that is left in the map. -/
inductive LockPromise where
  | resolved
  | next (call : ℕ)
  | tail (call : ℕ)
deriving DecidableEq

structure LockCall (κ : Type) where
  hash : κ
  prev : LockPromise

/-- `_locks`, with how far each call is. -/
structure HashLocks (κ ρ : Type) where
  calls : List (LockCall κ)
  locks : κ → Option LockPromise
  started : ℕ → Bool
  result : ℕ → Option ρ
  chained : ℕ → Bool

variable {κ ρ : Type} {s t : HashLocks κ ρ} {c c' : LockCall κ} {p : LockPromise} {hash : κ}
  {i j n : ℕ}

def HashLocks.init : HashLocks κ ρ := ⟨[], fun _ => none, fun _ => false, fun _ => none, fun _ => false⟩

/-- Promises are resolved only: `release` has no error. -/
def HashLocks.settled (s : HashLocks κ ρ) : LockPromise → Bool
  | .resolved => true
  | .next call => (s.result call).isSome
  | .tail call => s.chained call

inductive LockMove (κ ρ : Type) where
  /-- The part before the first `await`. -/
  | call (hash : κ)
  /-- `prev` is settled and then `next`, and so is the promise that was derived from them. -/
  | settle (call : ℕ)
  | start (call : ℕ)
  /-- What `fn` returns or throws, and the `finally` part. -/
  | finish (call : ℕ) (result : ρ)

/-- `_withLock`, in the steps between which others may come. -/
def lockStep [DecidableEq κ] (s : HashLocks κ ρ) : LockMove κ ρ → Option (HashLocks κ ρ)
  | .call hash => some { s with
      calls := s.calls ++ [⟨hash, (s.locks hash).getD .resolved⟩]
      locks := update s.locks hash (some (.tail s.calls.length)) }
  | .settle i => s.calls[i]?.bind fun c =>
      if s.settled c.prev = true ∧ s.settled (.next i) = true then
        some { s with chained := update s.chained i true }
      else none
  | .start i => s.calls[i]?.bind fun c =>
      if s.started i = false ∧ s.settled c.prev = true then some { s with started := update s.started i true }
      else none
  | .finish i result => s.calls[i]?.bind fun c =>
      if s.started i = true ∧ s.result i = none then some { s with
        result := update s.result i (some result)
        locks := if s.locks c.hash = some (.next i) then update s.locks c.hash none else s.locks }
      else none

/-! ### What is waited for -/

/-- The promise is that of the last of the first `n` calls that is on the hash. -/
def Follows (calls : List (LockCall κ)) (hash : κ) (n : ℕ) : LockPromise → Prop
  | .resolved => ∀ i c, i < n → calls[i]? = some c → c.hash ≠ hash
  | .next _ => False
  | .tail q => q < n ∧ (∃ c, calls[q]? = some c ∧ c.hash = hash) ∧
      ∀ i c, q < i → i < n → calls[i]? = some c → c.hash ≠ hash

structure Queued (s : HashLocks κ ρ) : Prop where
  entry : ∀ hash, s.locks hash ≠ some .resolved ∧ Follows s.calls hash s.calls.length ((s.locks hash).getD .resolved)
  prev : ∀ i c, s.calls[i]? = some c → Follows s.calls c.hash i c.prev
  started : ∀ i, s.started i = true → ∃ c, s.calls[i]? = some c ∧ s.settled c.prev = true
  result : ∀ i, (s.result i).isSome → s.started i = true
  chained : ∀ i, s.chained i = true → (s.result i).isSome ∧ ∃ c, s.calls[i]? = some c ∧ s.settled c.prev = true

theorem Follows.append {calls : List (LockCall κ)} (h : Follows calls hash n p) (hn : n ≤ calls.length) :
    Follows (calls ++ [c]) hash n p := by
  have hold : ∀ i < n, (calls ++ [c])[i]? = calls[i]? := fun i hi => List.getElem?_append_left (by omega)
  cases p with
  | resolved => exact fun i c hi hc => h i c hi (hold i hi ▸ hc)
  | next q => exact h
  | tail q =>
    obtain ⟨hq, hcall, hnone⟩ := h
    exact ⟨hq, hold q hq ▸ hcall, fun i c hqi hi hc => hnone i c hqi hi (hold i hi ▸ hc)⟩

theorem Follows.succ {calls : List (LockCall κ)} (h : Follows calls hash n p) (hc : calls[n]? = some c)
    (hne : c.hash ≠ hash) : Follows calls hash (n + 1) p := by
  have hlast : ∀ i c', i < n + 1 → calls[i]? = some c' → (i < n → c'.hash ≠ hash) → c'.hash ≠ hash := by
    intro i c' hi hc' hlt
    rcases Nat.lt_succ_iff_lt_or_eq.mp hi with hi | rfl
    · exact hlt hi
    · rw [hc] at hc'
      exact Option.some.inj hc' ▸ hne
  cases p with
  | resolved => exact fun i c' hi hc' => hlast i c' hi hc' fun hi => h i c' hi hc'
  | next q => exact h
  | tail q =>
    obtain ⟨hq, hcall, hnone⟩ := h
    exact ⟨by omega, hcall, fun i c' hqi hi hc' => hlast i c' hi hc' fun hi => hnone i c' hqi hi hc'⟩

/-- **In the order of the calls.** What a call waits for is settled after every call before it on its hash. -/
theorem Queued.finished_of_settled (h : Queued s) (hj : s.calls[j]? = some c) (hsettled : s.settled c.prev = true)
    (hij : i < j) (hi : s.calls[i]? = some c') (hsame : c'.hash = c.hash) : (s.result i).isSome := by
  induction j using Nat.strong_induction_on generalizing c with
  | _ j ih =>
    have hprev := h.prev j c hj
    cases hp : c.prev with
    | resolved =>
      rw [hp] at hprev
      exact absurd hsame (hprev i c' hij hi)
    | next q =>
      rw [hp] at hprev
      exact hprev.elim
    | tail q =>
      rw [hp] at hprev hsettled
      obtain ⟨hq, ⟨cq, hcq, hhash⟩, hnone⟩ := hprev
      obtain ⟨hdone, cq', hcq', hsettled'⟩ := h.chained q hsettled
      obtain rfl := Option.some.inj (hcq.symm.trans hcq')
      rcases lt_trichotomy i q with hiq | rfl | hqi
      · exact ih q hq hcq hsettled' hiq (hsame.trans hhash.symm)
      · exact hdone
      · exact absurd hsame (hnone i c' hqi hij hi)

/-! ### The steps -/

theorem queued_init : Queued (HashLocks.init : HashLocks κ ρ) := by
  refine ⟨fun hash => ⟨by simp [HashLocks.init], ?_⟩, ?_, ?_, ?_, ?_⟩ <;> simp [HashLocks.init, Follows]

theorem settled_mono (hresult : ∀ i, (s.result i).isSome → (t.result i).isSome)
    (hchained : ∀ i, s.chained i = true → t.chained i = true) (h : s.settled p = true) : t.settled p = true := by
  cases p with
  | resolved => rfl
  | next q => exact hresult q h
  | tail q => exact hchained q h

/-- The map has an entry for each hash that was ever called. -/
theorem Queued.locks_eq_none_iff (h : Queued s) : s.locks hash = none ↔ ∀ c ∈ s.calls, c.hash ≠ hash := by
  have hentry := h.entry hash
  constructor
  · intro hnone c hc
    rw [hnone] at hentry
    obtain ⟨i, hi, rfl⟩ := List.mem_iff_getElem.mp hc
    exact hentry.2 i _ hi (List.getElem?_eq_getElem hi)
  · intro hno
    cases hp : s.locks hash with
    | none => rfl
    | some p =>
      rw [hp] at hentry
      cases p with
      | resolved => exact absurd rfl hentry.1
      | next q => exact hentry.2.elim
      | tail q =>
        obtain ⟨-, ⟨c, hc, hhash⟩, -⟩ := hentry.2
        exact absurd hhash (hno c (List.mem_of_getElem? hc))

theorem isSome_update {f : ℕ → Option ρ} {r : ρ} : (update f i (some r) j).isSome ↔ j = i ∨ (f j).isSome := by
  by_cases h : j = i <;> simp [h]

theorem eq_true_update {f : ℕ → Bool} : update f i true j = true ↔ j = i ∨ f j = true := by
  by_cases h : j = i <;> simp [h]

/-- **The clean-up finds nothing.** The promise it looks for is not in the map. -/
theorem Queued.locks_ne_next (h : Queued s) : s.locks hash ≠ some (.next i) := by
  intro heq
  have hfollows := (h.entry hash).2
  rw [heq] at hfollows
  exact hfollows

variable [DecidableEq κ]

theorem Queued.call (h : Queued s) (hstep : lockStep s (.call hash) = some t) : Queued t := by
  cases hstep
  have hkeeps : ∀ {i c}, s.calls[i]? = some c → (s.calls ++ [⟨hash, (s.locks hash).getD .resolved⟩])[i]? = some c :=
    fun hc => List.getElem?_append_left (List.getElem?_eq_some_iff.mp hc).1 ▸ hc
  have hlength := List.getElem?_concat_length (l := s.calls) (a := ⟨hash, (s.locks hash).getD .resolved⟩)
  refine ⟨fun other => ?_, fun i c hc => ?_, fun i hi => ?_, h.result, fun i hi => ?_⟩
  · simp only [List.length_append, List.length_singleton, update_apply]
    split
    · next hsame =>
      refine ⟨nofun, by simp, ⟨_, hlength, hsame.symm⟩, fun i c hlt hle => ?_⟩
      omega
    · next hne => exact ⟨(h.entry other).1, ((h.entry other).2.append le_rfl).succ hlength (Ne.symm hne)⟩
  · rcases lt_trichotomy i s.calls.length with hi | rfl | hi
    · rw [List.getElem?_append_left hi] at hc
      exact (h.prev i c hc).append hi.le
    · rw [hlength] at hc
      cases hc
      exact (h.entry hash).2.append le_rfl
    · rw [List.getElem?_eq_none (by simp only [List.length_append, List.length_singleton]; omega)] at hc
      cases hc
  · obtain ⟨c, hc, hsettled⟩ := h.started i hi
    exact ⟨c, hkeeps hc, settled_mono (fun _ => id) (fun _ => id) hsettled⟩
  · obtain ⟨hdone, c, hc, hsettled⟩ := h.chained i hi
    exact ⟨hdone, c, hkeeps hc, settled_mono (fun _ => id) (fun _ => id) hsettled⟩

theorem Queued.step {m : LockMove κ ρ} (h : Queued s) (hstep : lockStep s m = some t) : Queued t := by
  cases m with
  | call hash => exact h.call hstep
  | settle i =>
    obtain ⟨c, hc, hstep⟩ := Option.bind_eq_some_iff.mp hstep
    obtain ⟨⟨hprev, hdone⟩, rfl⟩ := by simpa using hstep
    have hmono : ∀ {p}, s.settled p = true →
        ({ s with chained := update s.chained i true } : HashLocks κ ρ).settled p = true :=
      settled_mono (fun _ => id) fun _ hq => eq_true_update.mpr (.inr hq)
    refine ⟨h.entry, h.prev, fun j hj => ?_, h.result, fun j hj => ?_⟩
    · obtain ⟨c, hc, hsettled⟩ := h.started j hj
      exact ⟨c, hc, hmono hsettled⟩
    · rcases eq_true_update.mp hj with rfl | hj
      · exact ⟨hdone, c, hc, hmono hprev⟩
      · obtain ⟨hdone, c, hc, hsettled⟩ := h.chained j hj
        exact ⟨hdone, c, hc, hmono hsettled⟩
  | start i =>
    obtain ⟨c, hc, hstep⟩ := Option.bind_eq_some_iff.mp hstep
    obtain ⟨⟨-, hprev⟩, rfl⟩ := by simpa using hstep
    refine ⟨h.entry, h.prev, fun j hj => ?_, fun j hj => eq_true_update.mpr (.inr (h.result j hj)), h.chained⟩
    rcases eq_true_update.mp hj with rfl | hj
    · exact ⟨c, hc, hprev⟩
    · exact h.started j hj
  | finish i result =>
    obtain ⟨c, hc, hstep⟩ := Option.bind_eq_some_iff.mp hstep
    rw [if_neg h.locks_ne_next] at hstep
    obtain ⟨⟨hrunning, -⟩, rfl⟩ := by simpa using hstep
    have hmono : ∀ {p}, s.settled p = true →
        ({ s with result := update s.result i (some result) } : HashLocks κ ρ).settled p = true :=
      settled_mono (fun _ hq => isSome_update.mpr (.inr hq)) fun _ => id
    refine ⟨h.entry, h.prev, fun j hj => ?_, fun j hj => ?_, fun j hj => ?_⟩
    · obtain ⟨c, hc, hsettled⟩ := h.started j hj
      exact ⟨c, hc, hmono hsettled⟩
    · rcases isSome_update.mp hj with rfl | hj
      · exact hrunning
      · exact h.result j hj
    · obtain ⟨hdone, c, hc, hsettled⟩ := h.chained j hj
      exact ⟨isSome_update.mpr (.inr hdone), c, hc, hmono hsettled⟩

/-! ### Runs -/

/-- **Nothing is in the way.** Once the calls before it on its hash are finished, the promise a call waits for
settles, with no move of theirs. -/
theorem Queued.settles (h : Queued s) (hj : s.calls[j]? = some c)
    (hdone : ∀ i c', i < j → s.calls[i]? = some c' → c'.hash = c.hash → (s.result i).isSome) :
    ∃ (settles : List ℕ) (chained : ℕ → Bool),
      run lockStep s (settles.map .settle) = some { s with chained := chained } ∧
        ({ s with chained := chained } : HashLocks κ ρ).settled c.prev = true := by
  induction j using Nat.strongRecOn generalizing c with
  | _ j ih =>
    have hprev := h.prev j c hj
    cases hp : c.prev with
    | resolved => exact ⟨[], s.chained, rfl, rfl⟩
    | next q =>
      rw [hp] at hprev
      exact hprev.elim
    | tail q =>
      rw [hp] at hprev
      obtain ⟨hq, ⟨cq, hcq, hhash⟩, -⟩ := hprev
      obtain ⟨settles, chained, hrun, hsettled⟩ := ih q hq hcq fun i c' hi hc' hsame =>
        hdone i c' (hi.trans hq) hc' (hsame.trans hhash)
      refine ⟨settles ++ [q], update chained q true, ?_, eq_true_update.mpr (.inl rfl)⟩
      rw [List.map_append, run_append]
      refine ⟨_, hrun, run_cons.mpr ⟨_, ?_, rfl⟩⟩
      have hnext : (s.result q).isSome := hdone q cq hq hcq hhash
      simp only [lockStep, hcq, Option.bind_some]
      exact if_pos ⟨hsettled, hnext⟩

theorem result_lockStep {m : LockMove κ ρ} {r : ρ} (hstep : lockStep s m = some t) :
    t.result i = some r ↔ s.result i = some r ∨ m = .finish i r := by
  cases m with
  | call hash =>
    cases hstep
    simp
  | settle j =>
    obtain ⟨c, -, hstep⟩ := Option.bind_eq_some_iff.mp hstep
    obtain ⟨-, rfl⟩ := by simpa using hstep
    simp
  | start j =>
    obtain ⟨c, -, hstep⟩ := Option.bind_eq_some_iff.mp hstep
    obtain ⟨-, rfl⟩ := by simpa using hstep
    simp
  | finish j result =>
    obtain ⟨c, -, hstep⟩ := Option.bind_eq_some_iff.mp hstep
    obtain ⟨⟨-, hrunning⟩, hstep⟩ := Option.ite_none_right_eq_some.mp hstep
    cases hstep
    by_cases hij : i = j
    · subst hij
      simp [hrunning]
    · simp [hij, Ne.symm hij]

theorem result_run {moves : List (LockMove κ ρ)} {r : ρ} (hrun : run lockStep s moves = some t) :
    t.result i = some r ↔ s.result i = some r ∨ .finish i r ∈ moves := by
  induction moves generalizing s with
  | nil =>
    cases hrun
    simp
  | cons m moves ih =>
    obtain ⟨s₁, hstep, hrest⟩ := run_cons.mp hrun
    rw [ih hrest, result_lockStep hstep, List.mem_cons, or_assoc, eq_comm (a := m)]

/-- **The lock of a hash.** A function starts when those called before it on its hash have finished, and then it can
start; what a call gives is what its own function gave; and the map keeps an entry exactly for the hashes that were
called. -/
theorem withLock_serial (moves : List (LockMove κ ρ)) (hrun : run lockStep .init moves = some s) :
    (∀ i j c c', i < j → s.calls[i]? = some c → s.calls[j]? = some c' → c.hash = c'.hash → s.started j = true →
      (s.result i).isSome) ∧
    (∀ j c', s.calls[j]? = some c' → s.started j = false →
      (∀ i c, i < j → s.calls[i]? = some c → c.hash = c'.hash → (s.result i).isSome) →
        ∃ settles : List ℕ, (run lockStep s (settles.map .settle ++ [.start j])).isSome) ∧
    (∀ i r, s.result i = some r ↔ .finish i r ∈ moves) ∧
    ∀ hash, s.locks hash = none ↔ ∀ c ∈ s.calls, c.hash ≠ hash := by
  have h : Queued s := run_preserves Queued (fun _ _ _ h hstep => h.step hstep) queued_init hrun
  refine ⟨fun i j c c' hij hi hj hsame hstarted => ?_, fun j c hj hwaiting hdone => ?_, fun i r => ?_,
    fun hash => h.locks_eq_none_iff⟩
  · obtain ⟨c'', hj', hsettled⟩ := h.started j hstarted
    obtain rfl := Option.some.inj (hj.symm.trans hj')
    exact h.finished_of_settled hj hsettled hij hi hsame
  · obtain ⟨settles, chained, hsettles, hsettled⟩ := h.settles hj hdone
    refine ⟨settles, Option.isSome_iff_exists.mpr
      ⟨{ s with chained := chained, started := update s.started j true }, ?_⟩⟩
    refine run_append.mpr ⟨_, hsettles, run_cons.mpr ⟨_, ?_, rfl⟩⟩
    simp only [lockStep, hj, Option.bind_some]
    exact if_pos ⟨hwaiting, hsettled⟩
  · rw [result_run hrun]
    simp [HashLocks.init]

/-- The first of two calls throws, and the second starts. -/
def failedFirst : List (LockMove ℕ (Except String ℕ)) :=
  [.call 0, .call 0, .start 0, .finish 0 (.error "store closed"), .settle 0, .start 1]

theorem withLock_serial_sample :
    ((run lockStep .init failedFirst).map fun s => ((s.result 0).isSome, (s.locks 0).isSome)) = some (true, true) := by
  obtain ⟨s, hs⟩ : ∃ s, run lockStep .init failedFirst = some s := Option.isSome_iff_exists.mp (by decide)
  obtain ⟨-, -, hresult, hlocks⟩ := withLock_serial failedFirst hs
  have hdone : s.result 0 = some (.error "store closed") := (hresult _ _).mpr (by simp [failedFirst])
  have hlock : (s.locks 0).isSome := Option.isSome_iff_ne_none.mpr fun hnone => by
    cases hs
    exact (hlocks 0).mp hnone _ (List.mem_cons_self ..) rfl
  rw [hs, Option.map_some, hdone, hlock]
  rfl

/-- The only call on a hash has finished, and its entry is left. -/
theorem entry_outlives_calls : ¬ ∀ (moves : List (LockMove ℕ (Except String ℕ))) (s : HashLocks ℕ (Except String ℕ)),
    run lockStep .init moves = some s → ∀ hash, (∀ i c, s.calls[i]? = some c → c.hash = hash → (s.result i).isSome) →
      s.locks hash = none := by
  intro h
  have hnone := h [.call 0, .start 0, .finish 0 (.ok 0)] _ rfl 0 fun i c hc _ => by
    obtain ⟨hi, -⟩ := List.getElem?_eq_some_iff.mp hc
    obtain rfl : i = 0 := by simpa [HashLocks.init] using hi
    rfl
  cases hnone

end HiveRelay.Store
