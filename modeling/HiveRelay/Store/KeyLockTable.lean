import Mathlib.Data.Finset.Max
import Mathlib.Data.List.Dedup
import Mathlib.Data.List.Sort
import Mathlib.Data.Prod.Lex
import Mathlib.Order.WithBot
import HiveRelay.Lib.OrderedMap
import HiveRelay.Lib.Run

/-!
# The lock table of the transaction store

`KeyLockTable.with` takes a set of keys one at a time in sorted order. For each key it finds the last
promise that was left under it in `tails`, leaves a promise of its own there — one that settles when
the other has settled and its own gate is opened — and waits for the other. Once it has waited for all
its keys it runs its callback; afterwards it opens all its gates, and removes a key from `tails` if
nobody has queued behind it.

Each promise that is left is a *ticket* here, numbered in the order of registration. A call makes its
next step only when the ticket before it has settled; when that happens is left to the moves, so that
every order of promise continuations is a run.

## Main definitions

* `Front` — what is before a ticket is released
* `Inv` — tails and tickets

## Main results

* `lockTable_safe` — exclusion, order, progress, and no tail left
-/

set_option linter.unusedSectionVars false

namespace HiveRelay.Store

open List Option OrderedMap

variable {K : Type} [LinearOrder K]

/-! ### The table -/

/-- A promise that is left under a key. -/
structure Ticket (K : Type) where
  key : K
  /-- The call that left it. -/
  call : ℕ
  /-- The ticket that was the tail of its key before, if there was one. -/
  previous : Option ℕ

inductive Phase where
  /-- It waits for the ticket before the last that it has left. -/
  | waiting
  /-- Its callback runs. -/
  | running
  | finished
  deriving DecidableEq

/-- A call of `with`. -/
structure Call (K : Type) where
  keys : List K
  /-- The tickets it has left, in the order of its keys. -/
  tickets : List ℕ
  phase : Phase
  deriving DecidableEq

/-- The table, with every ticket and every call that there has been. -/
structure LockTable (K : Type) where
  tails : OrderedMap K ℕ
  tickets : List (Ticket K)
  /-- The tickets whose gate is open. -/
  released : List ℕ
  calls : List (Call K)

/-- `new KeyLockTable()`. -/
def LockTable.empty (K : Type) : LockTable K := ⟨.empty, [], [], []⟩

/-- `[...new Set(keys)].sort()`. -/
def sortedKeys (keys : List K) : List K := keys.dedup.insertionSort (· ≤ ·)

namespace LockTable

/-- A ticket has settled: its gate is open and the ticket before it has settled. -/
def resolved (s : LockTable K) : ℕ → ℕ → Bool
  | 0, _ => false
  | fuel + 1, i =>
    decide (i ∈ s.released) &&
      match s.tickets[i]? with
      | none => false
      | some t =>
        match t.previous with
        | none => true
        | some j => s.resolved fuel j

/-- What a ticket waits for has settled. -/
def settled (s : LockTable K) (t : Ticket K) : Bool :=
  match t.previous with
  | none => true
  | some j => s.resolved s.tickets.length j

/-- A call that holds the keys it has tickets for goes on: it registers on its next key, or runs its
callback. -/
def advance (s : LockTable K) (c : ℕ) (call : Call K) : LockTable K :=
  match call.keys[call.tickets.length]? with
  | some key =>
    { s with
      tails := s.tails.set key s.tickets.length
      tickets := s.tickets ++ [⟨key, c, s.tails.get? key⟩]
      calls := s.calls.set c { call with tickets := call.tickets ++ [s.tickets.length] } }
  | none => { s with calls := s.calls.set c { call with phase := .running } }

/-- One turn of the loop in `finally`. -/
def release (s : LockTable K) (i : ℕ) : LockTable K :=
  match s.tickets[i]? with
  | some t =>
    { s with
      released := i :: s.released
      tails := if s.tails.get? t.key = some i then s.tails.delete t.key else s.tails }
  | none => s

end LockTable

inductive Move (K : Type) where
  | start (keys : List K)
  /-- The promise that call `c` waits for has settled. -/
  | resume (c : ℕ)
  /-- The callback of call `c` is done. -/
  | finish (c : ℕ)

def step (s : LockTable K) : Move K → Option (LockTable K)
  | .start keys =>
    let call : Call K := ⟨sortedKeys keys, [], .waiting⟩
    some ({ s with calls := s.calls ++ [call] }.advance s.calls.length call)
  | .resume c => do
    let call ← s.calls[c]?
    let i ← call.tickets.getLast?
    let t ← s.tickets[i]?
    if call.phase = .waiting ∧ s.settled t = true then some (s.advance c call) else none
  | .finish c => do
    let call ← s.calls[c]?
    if call.phase = .running then
      some { call.tickets.reverse.foldl LockTable.release s with
        calls := s.calls.set c { call with phase := .finished } }
    else none

/-! ### What holds of every table -/

namespace LockTable

/-- Every ticket on key `k` before number `i` is released. -/
def Front (s : LockTable K) (k : K) (i : ℕ) : Prop :=
  ∀ (j : ℕ) (t : Ticket K), j < i → s.tickets[j]? = some t → t.key = k → j ∈ s.released

/-- What holds of every reachable table, but for what a call has done that is just being started. -/
structure Inv (s : LockTable K) : Prop where
  sorted : ∀ (c : ℕ) (call : Call K), s.calls[c]? = some call → call.keys.Pairwise (· < ·)
  registered : ∀ (c : ℕ) (call : Call K) (p i : ℕ), s.calls[c]? = some call → call.tickets[p]? = some i →
      ∃ t : Ticket K, s.tickets[i]? = some t ∧ t.call = c ∧ call.keys[p]? = some t.key
  owned : ∀ (i : ℕ) (t : Ticket K), s.tickets[i]? = some t →
    ∃ call : Call K, s.calls[t.call]? = some call ∧ i ∈ call.tickets
  released_lt : ∀ i ∈ s.released, i < s.tickets.length
  released_iff : ∀ (i : ℕ) (t : Ticket K) (call : Call K), s.tickets[i]? = some t →
    s.calls[t.call]? = some call → (i ∈ s.released ↔ call.phase = .finished)
  complete : ∀ (c : ℕ) (call : Call K), s.calls[c]? = some call → call.phase ≠ .waiting →
    call.tickets.length = call.keys.length
  held : ∀ (c : ℕ) (call : Call K) (p i : ℕ) (t : Ticket K), s.calls[c]? = some call →
    call.tickets[p]? = some i → s.tickets[i]? = some t →
      (call.phase ≠ .waiting ∨ p + 1 < call.tickets.length) → s.Front t.key i
  previous_none : ∀ (i : ℕ) (t : Ticket K), s.tickets[i]? = some t → t.previous = none → s.Front t.key i
  previous_some : ∀ (i : ℕ) (t : Ticket K) (j : ℕ), s.tickets[i]? = some t →
    t.previous = some j → j < i ∧ (∃ t' : Ticket K, s.tickets[j]? = some t' ∧ t'.key = t.key) ∧
      ∀ (l : ℕ) (t' : Ticket K), j < l → l < i → s.tickets[l]? = some t' → t'.key ≠ t.key
  tails_some : ∀ (k : K) (i : ℕ), s.tails.get? k = some i →
    (∃ t : Ticket K, s.tickets[i]? = some t ∧ t.key = k) ∧ i ∉ s.released ∧
      ∀ (l : ℕ) (t : Ticket K), i < l → s.tickets[l]? = some t → t.key ≠ k
  tails_none : ∀ k : K, s.tails.get? k = none →
    ∀ (l : ℕ) (t : Ticket K), s.tickets[l]? = some t → t.key = k → l ∈ s.released

theorem inv_empty : Inv (LockTable.empty K) := by
  constructor <;> intros <;> simp_all [LockTable.empty]

variable {s : LockTable K}

theorem Inv.front_iff (hs : s.Inv) {i j : ℕ} {t : Ticket K} (ht : s.tickets[i]? = some t)
    (hprevious : t.previous = some j) :
    s.Front t.key i ↔ j ∈ s.released ∧ s.Front t.key j := by
  obtain ⟨hlt, ⟨t', ht', hkey⟩, hbetween⟩ := hs.previous_some i t j ht hprevious
  constructor
  · intro hfront
    exact ⟨hfront j t' hlt ht' hkey, fun l t'' hl ht'' hkey'' => hfront l t'' (hl.trans hlt) ht'' hkey''⟩
  · rintro ⟨hreleased, hfront⟩ l t'' hl ht'' hkey''
    rcases lt_trichotomy l j with hlj | rfl | hlj
    · exact hfront l t'' hlj ht'' hkey''
    · exact hreleased
    · exact absurd hkey'' (hbetween l t'' hlj hl ht'')

theorem resolved_iff_front (hs : s.Inv) {fuel i : ℕ} (hfuel : i < fuel) {t : Ticket K} (ht : s.tickets[i]? = some t) :
    s.resolved fuel i = true ↔ i ∈ s.released ∧ s.Front t.key i := by
  induction fuel generalizing i t with
  | zero => omega
  | succ fuel ih =>
    simp only [resolved, ht, Bool.and_eq_true, decide_eq_true_eq]
    refine and_congr_right fun _ => ?_
    cases hprevious : t.previous with
    | none =>
      simp only [true_iff]
      exact hs.previous_none i t ht hprevious
    | some j =>
      obtain ⟨hlt, ⟨t', ht', hkey⟩, -⟩ := hs.previous_some i t j ht hprevious
      rw [hs.front_iff ht hprevious, ← hkey]
      exact ih (by omega) ht'

/-- What a ticket waits for has settled exactly when all before it on its key are released. -/
theorem settled_iff_front (hs : s.Inv) {i : ℕ} {t : Ticket K} (ht : s.tickets[i]? = some t) :
    s.settled t = true ↔ s.Front t.key i := by
  unfold settled
  cases hprevious : t.previous with
  | none =>
    simp only [true_iff]
    exact hs.previous_none i t ht hprevious
  | some j =>
    obtain ⟨hlt, ⟨t', ht', hkey⟩, -⟩ := hs.previous_some i t j ht hprevious
    rw [hs.front_iff ht hprevious, ← hkey]
    exact resolved_iff_front hs (List.getElem?_eq_some_iff.mp ht').1 ht'

/-! ### The moves keep it -/

theorem getElem?_concat_eq_some {α : Type} {l : List α} {a b : α} {i : ℕ} :
    (l ++ [a])[i]? = some b ↔ l[i]? = some b ∨ (i = l.length ∧ b = a) := by
  rcases lt_trichotomy i l.length with hi | rfl | hi
  · rw [getElem?_append_left hi]
    simp [hi.ne]
  · simp [eq_comm]
  · rw [getElem?_eq_none (by simp; omega), getElem?_eq_none hi.le]
    simp [hi.ne']

theorem getElem?_set_eq_some {α : Type} {l : List α} {a b x : α} {c d : ℕ} (hc : l[c]? = some x) :
    (l.set c a)[d]? = some b ↔ (d = c ∧ b = a) ∨ (d ≠ c ∧ l[d]? = some b) := by
  have hlt := (List.getElem?_eq_some_iff.mp hc).1
  rw [getElem?_set]
  by_cases hd : c = d
  · subst hd
    simp [hlt, eq_comm]
  · simp [hd, Ne.symm hd]

theorem Inv.addCall (hs : s.Inv) {keys : List K} (hsorted : keys.Pairwise (· < ·)) :
    Inv { s with calls := s.calls ++ [⟨keys, [], .waiting⟩] } := by
  have hold : ∀ {c : ℕ} {call : Call K} {p i : ℕ},
      (s.calls ++ [⟨keys, [], .waiting⟩])[c]? = some call → call.tickets[p]? = some i → s.calls[c]? = some call := by
    intro c call p i hcall hi
    rcases getElem?_concat_eq_some.mp hcall with hcall | ⟨-, rfl⟩
    · exact hcall
    · cases hi
  have hnew : ∀ {i : ℕ} {t : Ticket K} {call : Call K}, s.tickets[i]? = some t →
      (s.calls ++ [⟨keys, [], .waiting⟩])[t.call]? = some call → s.calls[t.call]? = some call := by
    intro i t call ht hcall
    obtain ⟨call', hcall', -⟩ := hs.owned i t ht
    rw [getElem?_append_left (List.getElem?_eq_some_iff.mp hcall').1] at hcall
    exact hcall
  constructor
  · intro c call hcall
    rcases getElem?_concat_eq_some.mp hcall with hcall | ⟨-, rfl⟩
    · exact hs.sorted c call hcall
    · exact hsorted
  · intro c call p i hcall hi
    exact hs.registered c call p i (hold hcall hi) hi
  · intro i t ht
    obtain ⟨call, hcall, hi⟩ := hs.owned i t ht
    exact ⟨call, getElem?_concat_eq_some.mpr (.inl hcall), hi⟩
  · exact hs.released_lt
  · intro i t call ht hcall
    exact hs.released_iff i t call ht (hnew ht hcall)
  · intro c call hcall hphase
    rcases getElem?_concat_eq_some.mp hcall with hcall | ⟨-, rfl⟩
    · exact hs.complete c call hcall hphase
    · exact absurd rfl hphase
  · intro c call p i t hcall hi ht hheld
    exact hs.held c call p i t (hold hcall hi) hi ht hheld
  · exact hs.previous_none
  · exact hs.previous_some
  · exact hs.tails_some
  · exact hs.tails_none

theorem Inv.ticket_lt (hs : s.Inv) {c i : ℕ} {call : Call K} (hcall : s.calls[c]? = some call)
    (hi : i ∈ call.tickets) : i < s.tickets.length := by
  obtain ⟨p, hp⟩ := mem_iff_getElem?.mp hi
  obtain ⟨t, ht, -⟩ := hs.registered c call p i hcall hp
  exact (List.getElem?_eq_some_iff.mp ht).1

theorem Inv.runCallback (hs : s.Inv) {c : ℕ} {call : Call K} (hcall : s.calls[c]? = some call)
    (hphase : call.phase = .waiting) (hkeys : call.keys[call.tickets.length]? = none)
    (hfront : ∀ (p i : ℕ) (t : Ticket K), call.tickets[p]? = some i → s.tickets[i]? = some t → s.Front t.key i) :
    Inv { s with calls := s.calls.set c { call with phase := .running } } := by
  constructor
  · intro d call' hd
    rcases (getElem?_set_eq_some hcall).mp hd with ⟨rfl, rfl⟩ | ⟨-, hd⟩
    · exact hs.sorted d call hcall
    · exact hs.sorted d call' hd
  · intro d call' p i hd hi
    rcases (getElem?_set_eq_some hcall).mp hd with ⟨rfl, rfl⟩ | ⟨-, hd⟩
    · exact hs.registered d call p i hcall hi
    · exact hs.registered d call' p i hd hi
  · intro i t ht
    obtain ⟨call', hcall', hi⟩ := hs.owned i t ht
    by_cases hc : t.call = c
    · rw [hc, hcall] at hcall'
      cases hcall'
      exact ⟨_, (getElem?_set_eq_some hcall).mpr (.inl ⟨hc, rfl⟩), hi⟩
    · exact ⟨call', (getElem?_set_eq_some hcall).mpr (.inr ⟨hc, hcall'⟩), hi⟩
  · exact hs.released_lt
  · intro i t call' ht hd
    rcases (getElem?_set_eq_some hcall).mp hd with ⟨hc, rfl⟩ | ⟨-, hd⟩
    · have hold := hs.released_iff i t call ht (hc ▸ hcall)
      rw [hphase] at hold
      exact hold.trans ⟨nofun, nofun⟩
    · exact hs.released_iff i t call' ht hd
  · intro d call' hd hphase'
    rcases (getElem?_set_eq_some hcall).mp hd with ⟨rfl, rfl⟩ | ⟨-, hd⟩
    · -- every ticket has a key, and there is no key left without one
      refine le_antisymm ?_ (getElem?_eq_none_iff.mp hkeys)
      by_contra hlt
      push Not at hlt
      obtain ⟨t, -, -, hkey⟩ := hs.registered d call call.keys.length _ hcall (getElem?_eq_getElem hlt)
      rw [getElem?_eq_none le_rfl] at hkey
      cases hkey
    · exact hs.complete d call' hd hphase'
  · intro d call' p i t hd hi ht hheld
    rcases (getElem?_set_eq_some hcall).mp hd with ⟨rfl, rfl⟩ | ⟨-, hd⟩
    · exact hfront p i t hi ht
    · exact hs.held d call' p i t hd hi ht hheld
  · exact hs.previous_none
  · exact hs.previous_some
  · exact hs.tails_some
  · exact hs.tails_none

theorem front_register {k : K} {i : ℕ} (hi : i ≤ s.tickets.length) (t : Ticket K)
    (tails : OrderedMap K ℕ) (calls : List (Call K)) :
    Front ⟨tails, s.tickets ++ [t], s.released, calls⟩ k i ↔ s.Front k i := by
  refine forall₂_congr fun j t' => forall_congr' fun hj => ?_
  show ((s.tickets ++ [t])[j]? = some t' → _) ↔ _
  rw [getElem?_append_left (by omega)]

/-- A call takes its next ticket. -/
theorem Inv.register (hs : s.Inv) {c : ℕ} {call : Call K} {key : K}
    (hcall : s.calls[c]? = some call) (hphase : call.phase = .waiting)
    (hkey : call.keys[call.tickets.length]? = some key)
    (hfront : ∀ (p i : ℕ) (t : Ticket K), call.tickets[p]? = some i → s.tickets[i]? = some t → s.Front t.key i) :
    Inv { s with
      tails := s.tails.set key s.tickets.length
      tickets := s.tickets ++ [⟨key, c, s.tails.get? key⟩]
      calls := s.calls.set c { call with tickets := call.tickets ++ [s.tickets.length] } } := by
  have hset := @getElem?_set_eq_some _ s.calls { call with tickets := call.tickets ++ [s.tickets.length] }
  have hold : ∀ {i : ℕ} {t : Ticket K}, s.tickets[i]? = some t → i < s.tickets.length :=
    fun h => (List.getElem?_eq_some_iff.mp h).1
  have hfresh : s.tickets.length ∉ s.released := fun h => lt_irrefl _ (hs.released_lt _ h)
  constructor
  · intro d call' hd
    rcases (hset hcall).mp hd with ⟨rfl, rfl⟩ | ⟨-, hd⟩
    · exact hs.sorted d call hcall
    · exact hs.sorted d call' hd
  · intro d call' p i hd hi
    rcases (hset hcall).mp hd with ⟨rfl, rfl⟩ | ⟨-, hd⟩
    · rcases getElem?_concat_eq_some.mp hi with hi | ⟨rfl, rfl⟩
      · obtain ⟨t, ht, hc, hk⟩ := hs.registered d call p i hcall hi
        exact ⟨t, getElem?_concat_eq_some.mpr (.inl ht), hc, hk⟩
      · exact ⟨_, getElem?_concat_eq_some.mpr (.inr ⟨rfl, rfl⟩), rfl, hkey⟩
    · obtain ⟨t, ht, hc, hk⟩ := hs.registered d call' p i hd hi
      exact ⟨t, getElem?_concat_eq_some.mpr (.inl ht), hc, hk⟩
  · intro i t ht
    rcases getElem?_concat_eq_some.mp ht with ht | ⟨rfl, rfl⟩
    · obtain ⟨call', hcall', hi⟩ := hs.owned i t ht
      by_cases hc : t.call = c
      · rw [hc, hcall] at hcall'
        cases hcall'
        exact ⟨_, (hset hcall).mpr (.inl ⟨hc, rfl⟩), mem_append_left _ hi⟩
      · exact ⟨call', (hset hcall).mpr (.inr ⟨hc, hcall'⟩), hi⟩
    · exact ⟨_, (hset hcall).mpr (.inl ⟨rfl, rfl⟩), mem_append_right _ (mem_singleton_self _)⟩
  · intro i hi
    have hlt := hs.released_lt i hi
    simp only [length_append, length_singleton]
    omega
  · intro i t call' ht hd
    rcases getElem?_concat_eq_some.mp ht with ht | ⟨rfl, rfl⟩
    · rcases (hset hcall).mp hd with ⟨hc, rfl⟩ | ⟨-, hd⟩
      · exact hs.released_iff i t call ht (hc ▸ hcall)
      · exact hs.released_iff i t call' ht hd
    · rcases (hset hcall).mp hd with ⟨-, rfl⟩ | ⟨hc, -⟩
      · refine iff_of_false hfresh ?_
        simp [hphase]
      · exact absurd rfl hc
  · intro d call' hd hphase'
    rcases (hset hcall).mp hd with ⟨rfl, rfl⟩ | ⟨-, hd⟩
    · exact absurd hphase hphase'
    · exact hs.complete d call' hd hphase'
  · intro d call' p i t hd hi ht hheld
    rcases (hset hcall).mp hd with ⟨rfl, rfl⟩ | ⟨-, hd⟩
    · -- the call held what it has, but for the ticket it has just left
      have hp : p < call.tickets.length := by
        rcases hheld with hheld | hheld
        · exact absurd hphase hheld
        · simp only [length_append, length_singleton] at hheld
          omega
      rw [getElem?_append_left hp] at hi
      obtain ⟨t', ht', -⟩ := hs.registered d call p i hcall hi
      rw [getElem?_append_left (hold ht')] at ht
      exact (front_register (hold ht).le _ _ _).mpr (hfront p i t hi ht)
    · obtain ⟨t', ht', -⟩ := hs.registered d call' p i hd hi
      rw [getElem?_append_left (hold ht')] at ht
      exact (front_register (hold ht).le _ _ _).mpr (hs.held d call' p i t hd hi ht hheld)
  · intro i t ht hprevious
    rcases getElem?_concat_eq_some.mp ht with ht | ⟨rfl, rfl⟩
    · exact (front_register (hold ht).le _ _ _).mpr (hs.previous_none i t ht hprevious)
    · refine (front_register le_rfl _ _ _).mpr fun j t _ ht hk => ?_
      exact hs.tails_none key hprevious j t ht hk
  · intro i t j ht hprevious
    rcases getElem?_concat_eq_some.mp ht with ht | ⟨rfl, rfl⟩
    · obtain ⟨hlt, ⟨t', ht', hk⟩, hbetween⟩ := hs.previous_some i t j ht hprevious
      refine ⟨hlt, ⟨t', getElem?_concat_eq_some.mpr (.inl ht'), hk⟩, fun l t'' hl hli hl' => ?_⟩
      rw [getElem?_append_left (hli.trans (hold ht))] at hl'
      exact hbetween l t'' hl hli hl'
    · obtain ⟨⟨t', ht', hk⟩, -, hlast⟩ := hs.tails_some key j hprevious
      refine ⟨hold ht', ⟨t', getElem?_concat_eq_some.mpr (.inl ht'), hk⟩, fun l t'' hl hli hl' => ?_⟩
      rw [getElem?_append_left hli] at hl'
      exact hlast l t'' hl hl'
  · intro k i hi
    rcases eq_or_ne k key with rfl | hk
    · rw [get?_set_self] at hi
      cases hi
      refine ⟨⟨_, getElem?_concat_eq_some.mpr (.inr ⟨rfl, rfl⟩), rfl⟩, hfresh, fun l t hl ht => ?_⟩
      rw [getElem?_eq_none (by simp; omega)] at ht
      cases ht
    · rw [get?_set_of_ne hk] at hi
      obtain ⟨⟨t, ht, htk⟩, hreleased, hlast⟩ := hs.tails_some k i hi
      refine ⟨⟨t, getElem?_concat_eq_some.mpr (.inl ht), htk⟩, hreleased, fun l t' hl ht' => ?_⟩
      rcases getElem?_concat_eq_some.mp ht' with ht' | ⟨-, rfl⟩
      · exact hlast l t' hl ht'
      · exact hk.symm
  · intro k hnone l t ht htk
    rcases eq_or_ne k key with rfl | hk
    · rw [get?_set_self] at hnone
      cases hnone
    · rw [get?_set_of_ne hk] at hnone
      rcases getElem?_concat_eq_some.mp ht with ht | ⟨-, rfl⟩
      · exact hs.tails_none k hnone l t ht htk
      · exact absurd htk.symm hk

theorem Inv.advance (hs : s.Inv) {c : ℕ} {call : Call K} (hcall : s.calls[c]? = some call)
    (hphase : call.phase = .waiting)
    (hfront : ∀ (p i : ℕ) (t : Ticket K), call.tickets[p]? = some i → s.tickets[i]? = some t → s.Front t.key i) :
    (s.advance c call).Inv := by
  unfold LockTable.advance
  cases hkey : call.keys[call.tickets.length]? with
  | some key => exact hs.register hcall hphase hkey hfront
  | none => exact hs.runCallback hcall hphase hkey hfront

/-! ### Releasing the tickets of a call -/

/-- What stands under a key in `tails` is a ticket for that key. -/
def TailKeys (s : LockTable K) : Prop :=
  ∀ (k : K) (i : ℕ), s.tails.get? k = some i → ∃ t : Ticket K, s.tickets[i]? = some t ∧ t.key = k

theorem release_tails (hs : s.TailKeys) {i : ℕ} (hi : i < s.tickets.length) (k : K) :
    (s.release i).tails.get? k = if s.tails.get? k = some i then none else s.tails.get? k := by
  unfold release
  rw [getElem?_eq_getElem hi]
  show get? (if _ then _ else _) k = _
  by_cases hk : s.tails.get? k = some i
  · obtain ⟨t, ht, rfl⟩ := hs k i hk
    rw [getElem?_eq_getElem hi] at ht
    cases ht
    rw [if_pos hk, if_pos hk, get?_delete_self]
  · split
    · rename_i htail
      refine get?_delete_of_ne ?_
      rintro rfl
      exact hk htail
    · rfl

theorem release_tickets (i : ℕ) : (s.release i).tickets = s.tickets := by
  unfold release
  split <;> rfl

theorem release_released {i : ℕ} (hi : i < s.tickets.length) : (s.release i).released = i :: s.released := by
  unfold release
  rw [getElem?_eq_getElem hi]

theorem TailKeys.release (hs : s.TailKeys) {i : ℕ} (hi : i < s.tickets.length) : (s.release i).TailKeys := by
  intro k j hj
  rw [release_tails hs hi] at hj
  split at hj
  · cases hj
  · rw [release_tickets]
    exact hs k j hj

/-- **What `finally` leaves**: the tickets are released, and none of them is a tail. -/
theorem foldl_release (hs : s.TailKeys) {ids : List ℕ} (hids : ∀ i ∈ ids, i < s.tickets.length) :
    (ids.foldl LockTable.release s).tickets = s.tickets ∧
      (∀ i, i ∈ (ids.foldl LockTable.release s).released ↔ i ∈ s.released ∨ i ∈ ids) ∧
      ∀ k i, (ids.foldl LockTable.release s).tails.get? k = some i ↔ s.tails.get? k = some i ∧ i ∉ ids := by
  induction ids generalizing s with
  | nil => simp
  | cons i ids ih =>
    have hi := hids i mem_cons_self
    obtain ⟨htickets, hreleased, htails⟩ := ih (hs.release hi) fun j hj => by
      rw [release_tickets]
      exact hids j (mem_cons_of_mem _ hj)
    refine ⟨htickets.trans (release_tickets i), fun j => ?_, fun k j => ?_⟩
    · rw [foldl_cons, hreleased, release_released hi, mem_cons, mem_cons]
      tauto
    · rw [foldl_cons, htails, release_tails hs hi, mem_cons]
      split
      · rename_i hk
        simp only [hk, some.injEq]
        constructor
        · rintro ⟨h, -⟩
          cases h
        · rintro ⟨rfl, h⟩
          exact absurd (.inl rfl) h
      · rename_i hk
        refine and_congr_right fun hj => ?_
        rw [hj, some.injEq] at hk
        simp [hk]

/-- A call opens its gates. -/
theorem Inv.finish (hs : s.Inv) {c : ℕ} {call : Call K} (hcall : s.calls[c]? = some call)
    (hphase : call.phase = .running) :
    Inv { call.tickets.reverse.foldl LockTable.release s with
      calls := s.calls.set c { call with phase := .finished } } := by
  have hkeys : s.TailKeys := fun k i hi => (hs.tails_some k i hi).1
  have hids : ∀ i ∈ call.tickets.reverse, i < s.tickets.length := fun i hi =>
    hs.ticket_lt hcall (mem_reverse.mp hi)
  obtain ⟨htickets, hreleased, htails⟩ := foldl_release hkeys hids
  simp only [mem_reverse] at hreleased htails
  generalize call.tickets.reverse.foldl LockTable.release s = s' at htickets hreleased htails ⊢
  have hset := @getElem?_set_eq_some _ s.calls { call with phase := .finished }
  have hfront : ∀ {k : K} {i : ℕ}, s.Front k i →
      Front { s' with calls := s.calls.set c { call with phase := .finished } } k i := by
    intro k i h j t hj ht hk
    rw [show s'.tickets[j]? = s.tickets[j]? by rw [htickets]] at ht
    exact (hreleased j).mpr (.inl (h j t hj ht hk))
  have hmine : ∀ {i : ℕ} {t : Ticket K}, s.tickets[i]? = some t → (i ∈ call.tickets ↔ t.call = c) := by
    intro i t ht
    constructor
    · intro hi
      obtain ⟨p, hp⟩ := mem_iff_getElem?.mp hi
      obtain ⟨t', ht', hc, -⟩ := hs.registered c call p i hcall hp
      rw [ht] at ht'
      exact some.inj ht' ▸ hc
    · intro hc
      obtain ⟨call', hcall', hi⟩ := hs.owned i t ht
      rw [hc, hcall] at hcall'
      exact some.inj hcall' ▸ hi
  constructor
  · intro d call' hd
    rcases (hset hcall).mp hd with ⟨rfl, rfl⟩ | ⟨-, hd⟩
    · exact hs.sorted d call hcall
    · exact hs.sorted d call' hd
  · intro d call' p i hd hi
    show ∃ t : Ticket K, s'.tickets[i]? = some t ∧ _
    rw [htickets]
    rcases (hset hcall).mp hd with ⟨rfl, rfl⟩ | ⟨-, hd⟩
    · exact hs.registered d call p i hcall hi
    · exact hs.registered d call' p i hd hi
  · intro i t ht
    replace ht : s.tickets[i]? = some t := htickets ▸ ht
    obtain ⟨call', hcall', hi⟩ := hs.owned i t ht
    by_cases hc : t.call = c
    · exact ⟨_, (hset hcall).mpr (.inl ⟨hc, rfl⟩), (hmine ht).mpr hc⟩
    · exact ⟨call', (hset hcall).mpr (.inr ⟨hc, hcall'⟩), hi⟩
  · intro i hi
    show i < s'.tickets.length
    rw [htickets]
    rcases (hreleased i).mp hi with hi | hi
    · exact hs.released_lt i hi
    · exact hs.ticket_lt hcall hi
  · intro i t call' ht hd
    replace ht : s.tickets[i]? = some t := htickets ▸ ht
    refine (hreleased i).trans ?_
    rcases (hset hcall).mp hd with ⟨hc, rfl⟩ | ⟨hc, hd⟩
    · exact iff_of_true (.inr ((hmine ht).mpr hc)) rfl
    · rw [hmine ht, or_iff_left hc]
      exact hs.released_iff i t call' ht hd
  · intro d call' hd hphase'
    rcases (hset hcall).mp hd with ⟨rfl, rfl⟩ | ⟨-, hd⟩
    · exact hs.complete d call hcall (by simp [hphase])
    · exact hs.complete d call' hd hphase'
  · intro d call' p i t hd hi ht hheld
    replace ht : s.tickets[i]? = some t := htickets ▸ ht
    rcases (hset hcall).mp hd with ⟨rfl, rfl⟩ | ⟨-, hd⟩
    · exact hfront (hs.held d call p i t hcall hi ht (.inl (by simp [hphase])))
    · exact hfront (hs.held d call' p i t hd hi ht hheld)
  · intro i t ht hprevious
    exact hfront (hs.previous_none i t (htickets ▸ ht) hprevious)
  · intro i t j ht hprevious
    show _ ∧ (∃ t' : Ticket K, s'.tickets[j]? = some t' ∧ _) ∧
      ∀ (l : ℕ) (t' : Ticket K), _ → _ → s'.tickets[l]? = some t' → _
    rw [htickets]
    exact hs.previous_some i t j (htickets ▸ ht) hprevious
  · intro k i hi
    obtain ⟨hi, hnot⟩ := (htails k i).mp hi
    show (∃ t : Ticket K, s'.tickets[i]? = some t ∧ _) ∧ _ ∧ ∀ (l : ℕ) (t : Ticket K), _ → s'.tickets[l]? = some t → _
    rw [htickets]
    obtain ⟨ht, hfree, hlast⟩ := hs.tails_some k i hi
    exact ⟨ht, fun h => ((hreleased i).mp h).elim hfree hnot, hlast⟩
  · intro k hnone l t ht hk
    replace ht : s.tickets[l]? = some t := htickets ▸ ht
    refine (hreleased l).mpr ?_
    cases htail : s.tails.get? k with
    | none => exact .inl (hs.tails_none k htail l t ht hk)
    | some i =>
      -- the tail was a ticket of this call, which was at the front of its key
      have hi : i ∈ call.tickets := by
        by_contra hnot
        rw [(htails k i).mpr ⟨htail, hnot⟩] at hnone
        cases hnone
      obtain ⟨⟨t', ht', hk'⟩, -, hlast⟩ := hs.tails_some k i htail
      rcases lt_trichotomy l i with hli | rfl | hli
      · obtain ⟨p, hp⟩ := mem_iff_getElem?.mp hi
        have hheld := hs.held c call p i t' hcall hp ht' (.inl (by simp [hphase]))
        exact .inl (hheld l t hli ht (hk.trans hk'.symm))
      · exact .inr hi
      · exact absurd hk (hlast l t hli ht)

/-- A call that waits has left a ticket. -/
def Started (s : LockTable K) : Prop :=
  ∀ (c : ℕ) (call : Call K), s.calls[c]? = some call → call.phase = .waiting → call.tickets ≠ []

theorem started_empty : (LockTable.empty K).Started := by
  intro c call hcall
  simp [LockTable.empty] at hcall

theorem started_advance {c : ℕ} {call : Call K} (hcall : s.calls[c]? = some call)
    (hs : ∀ (d : ℕ) (call : Call K), d ≠ c → s.calls[d]? = some call → call.phase = .waiting → call.tickets ≠ []) :
    (s.advance c call).Started := by
  intro d call' hd hphase
  unfold advance at hd
  split at hd
  all_goals
    rcases (getElem?_set_eq_some hcall).mp hd with ⟨-, rfl⟩ | ⟨hne, hd⟩
  · simp
  · exact hs d call' hne hd hphase
  · cases hphase
  · exact hs d call' hne hd hphase

theorem map_keys_set {calls : List (Call K)} {c : ℕ} {call call' : Call K}
    (hcall : calls[c]? = some call) (hkeys : call'.keys = call.keys) :
    (calls.set c call').map Call.keys = calls.map Call.keys := by
  refine ext_getElem? fun d => ?_
  rw [getElem?_map, getElem?_map, getElem?_set]
  split
  · rename_i hd
    subst hd
    rw [if_pos (List.getElem?_eq_some_iff.mp hcall).1, hcall]
    exact congrArg some hkeys
  · rfl

theorem advance_keys {c : ℕ} {call : Call K} (hcall : s.calls[c]? = some call) :
    (s.advance c call).calls.map Call.keys = s.calls.map Call.keys := by
  unfold advance
  split
  · exact map_keys_set hcall rfl
  · exact map_keys_set hcall rfl

end LockTable

open LockTable

variable {s s' : LockTable K}

/-! ### Runs -/

theorem mem_sortedKeys {keys : List K} {k : K} : k ∈ sortedKeys keys ↔ k ∈ keys := by
  rw [sortedKeys, mem_insertionSort, mem_dedup]

theorem pairwise_sortedKeys (keys : List K) : (sortedKeys keys).Pairwise (· < ·) := by
  have hle : (sortedKeys keys).Pairwise (· ≤ ·) := pairwise_insertionSort _ _
  have hne : (sortedKeys keys).Nodup :=
    (perm_insertionSort _ _).nodup_iff.mpr (nodup_dedup _)
  exact (hle.and hne).imp fun h => lt_of_le_of_ne h.1 h.2

/-- The key sets of the calls a list of moves starts. -/
def started : List (Move K) → List (List K)
  | [] => []
  | .start keys :: moves => keys :: started moves
  | _ :: moves => started moves

theorem step_cases {m : Move K} (hstep : step s m = some s') : (∃ keys, m = .start keys ∧
      s' = LockTable.advance { s with calls := s.calls ++ [⟨sortedKeys keys, [], .waiting⟩] }
        s.calls.length ⟨sortedKeys keys, [], .waiting⟩) ∨
    (∃ c call i t, m = .resume c ∧ s.calls[c]? = some call ∧ call.tickets.getLast? = some i ∧
      s.tickets[i]? = some t ∧ call.phase = .waiting ∧ s.settled t = true ∧
      s' = s.advance c call) ∨
    ∃ c call, m = .finish c ∧ s.calls[c]? = some call ∧ call.phase = .running ∧
      s' = { call.tickets.reverse.foldl LockTable.release s with
        calls := s.calls.set c { call with phase := .finished } } := by
  cases m with
  | start keys => exact .inl ⟨keys, rfl, (some.inj hstep).symm⟩
  | resume c =>
    simp only [step, bind_eq_bind, bind_eq_some_iff] at hstep
    obtain ⟨call, hcall, i, hi, t, ht, hstep⟩ := hstep
    split at hstep
    · rename_i h
      exact .inr (.inl ⟨c, call, i, t, rfl, hcall, hi, ht, h.1, h.2, (some.inj hstep).symm⟩)
    · cases hstep
  | finish c =>
    simp only [step, bind_eq_bind, bind_eq_some_iff] at hstep
    obtain ⟨call, hcall, hstep⟩ := hstep
    split at hstep
    · rename_i h
      exact .inr (.inr ⟨c, call, rfl, hcall, h, (some.inj hstep).symm⟩)
    · cases hstep

theorem getElem?_concat_length {α : Type} (l : List α) (a : α) : (l ++ [a])[l.length]? = some a := by
  simp

theorem LockTable.Inv.front_of_settled (hs : s.Inv) {c i : ℕ} {call : Call K} {t : Ticket K}
    (hcall : s.calls[c]? = some call) (hlast : call.tickets.getLast? = some i)
    (ht : s.tickets[i]? = some t) (hsettled : s.settled t = true) (p j : ℕ) (t' : Ticket K)
    (hj : call.tickets[p]? = some j) (ht' : s.tickets[j]? = some t') : s.Front t'.key j := by
  have hp := (List.getElem?_eq_some_iff.mp hj).1
  by_cases hheld : p + 1 < call.tickets.length
  · exact hs.held c call p j t' hcall hj ht' (.inr hheld)
  · rw [getLast?_eq_getElem?, show call.tickets.length - 1 = p by omega, hj] at hlast
    cases hlast
    rw [ht] at ht'
    cases ht'
    exact (settled_iff_front hs ht).mp hsettled

theorem inv_of_step {m : Move K} (hs : s.Inv) (hstep : step s m = some s') : s'.Inv := by
  obtain ⟨keys, -, rfl⟩ | ⟨c, call, i, t, -, hcall, hi, ht, hphase, hsettled, rfl⟩ |
    ⟨c, call, -, hcall, hphase, rfl⟩ := step_cases hstep
  · refine (hs.addCall (pairwise_sortedKeys keys)).advance (getElem?_concat_length _ _) rfl ?_
    intro p i t hp
    cases hp
  · exact hs.advance hcall hphase (hs.front_of_settled hcall hi ht hsettled)
  · exact hs.finish hcall hphase

theorem started_of_step {m : Move K} (hs : s.Started) (hstep : step s m = some s') :
    s'.Started := by
  obtain ⟨keys, -, rfl⟩ | ⟨c, call, i, t, -, hcall, -, -, -, -, rfl⟩ |
    ⟨c, call, -, hcall, -, rfl⟩ := step_cases hstep
  · refine started_advance (getElem?_concat_length _ _) fun d call' hne hd hphase => ?_
    rcases getElem?_concat_eq_some.mp hd with hd | ⟨h, -⟩
    · exact hs d call' hd hphase
    · exact absurd h hne
  · exact started_advance hcall fun d call' _ hd hphase => hs d call' hd hphase
  · intro d call' hd hphase
    rcases (getElem?_set_eq_some hcall).mp hd with ⟨-, rfl⟩ | ⟨-, hd⟩
    · cases hphase
    · exact hs d call' hd hphase

theorem keys_of_step {m : Move K} (hstep : step s m = some s') :
    s'.calls.map Call.keys = s.calls.map Call.keys ++ (started [m]).map sortedKeys := by
  obtain ⟨keys, rfl, rfl⟩ | ⟨c, call, i, t, rfl, hcall, -, -, -, -, rfl⟩ |
    ⟨c, call, rfl, hcall, -, rfl⟩ := step_cases hstep
  · rw [advance_keys (getElem?_concat_length _ _)]
    simp [started]
  · rw [advance_keys hcall]
    simp [started]
  · simp only [started, map_nil, append_nil]
    exact map_keys_set hcall rfl

theorem started_cons (m : Move K) (moves : List (Move K)) : started (m :: moves) = started [m] ++ started moves := by
  cases m <;> rfl

theorem keys_of_run {moves : List (Move K)} (hrun : run step s moves = some s') :
    s'.calls.map Call.keys = s.calls.map Call.keys ++ (started moves).map sortedKeys := by
  induction moves generalizing s with
  | nil =>
    cases hrun
    simp [started]
  | cons m moves ih =>
    obtain ⟨s₁, hstep, hrest⟩ := run_cons.mp hrun
    rw [ih hrest, keys_of_step hstep, started_cons m moves, map_append, append_assoc]

/-! ### What follows -/

theorem LockTable.Inv.exists_ticket (hs : s.Inv) {c : ℕ} {call : Call K} {k : K}
    (hcall : s.calls[c]? = some call) (hphase : call.phase ≠ .waiting) (hk : k ∈ call.keys) :
    ∃ i t, s.tickets[i]? = some t ∧ t.call = c ∧ t.key = k ∧ s.Front k i := by
  obtain ⟨p, hp⟩ := mem_iff_getElem?.mp hk
  have hlt : p < call.tickets.length := by
    rw [hs.complete c call hcall hphase]
    exact (List.getElem?_eq_some_iff.mp hp).1
  obtain ⟨t, ht, hc, hkey⟩ := hs.registered c call p _ hcall (getElem?_eq_getElem hlt)
  rw [hp] at hkey
  cases hkey
  exact ⟨_, t, ht, hc, rfl, hs.held c call p _ t hcall (getElem?_eq_getElem hlt) ht (.inl hphase)⟩

theorem LockTable.Inv.mutual_exclusion (hs : s.Inv) {c d : ℕ} {call call' : Call K} {k : K}
    (hne : c ≠ d) (hc : s.calls[c]? = some call) (hd : s.calls[d]? = some call')
    (hphase : call.phase = .running) (hphase' : call'.phase = .running) (hk : k ∈ call.keys) :
    k ∉ call'.keys := by
  intro hk'
  have hrunning : ∀ {phase : Phase}, phase = .running → phase ≠ .waiting := by
    rintro _ rfl
    nofun
  obtain ⟨i, t, ht, rfl, hik, hi⟩ := hs.exists_ticket hc (hrunning hphase) hk
  obtain ⟨j, t', ht', rfl, hjk, hj⟩ := hs.exists_ticket hd (hrunning hphase') hk'
  rcases lt_trichotomy i j with hij | rfl | hij
  · have := (hs.released_iff i t call ht hc).mp (hj i t hij ht hik)
    rw [hphase] at this
    cases this
  · rw [ht] at ht'
    exact hne (congrArg Ticket.call (some.inj ht'))
  · have := (hs.released_iff j t' call' ht' hd).mp (hi j t' hij ht' hjk)
    rw [hphase'] at this
    cases this

theorem LockTable.Inv.first_come (hs : s.Inv) {i j : ℕ} {t t' : Ticket K} {call call' : Call K}
    (hij : i < j) (ht : s.tickets[i]? = some t) (ht' : s.tickets[j]? = some t')
    (hkey : t.key = t'.key) (hcall : s.calls[t.call]? = some call)
    (hcall' : s.calls[t'.call]? = some call') (hphase : call'.phase ≠ .waiting) :
    call.phase = .finished := by
  obtain ⟨call'', hcall'', hj⟩ := hs.owned j t' ht'
  rw [hcall'] at hcall''
  cases hcall''
  obtain ⟨p, hp⟩ := mem_iff_getElem?.mp hj
  have hfront := hs.held _ call' p j t' hcall' hp ht' (.inl hphase)
  exact (hs.released_iff i t call ht hcall).mp (hfront i t hij ht hkey)

theorem LockTable.Inv.tails_empty (hs : s.Inv)
    (hfinished : ∀ (c : ℕ) (call : Call K), s.calls[c]? = some call → call.phase = .finished) :
    s.tails = .empty := by
  have hnone : ∀ k, s.tails.get? k = none := by
    intro k
    cases htail : s.tails.get? k with
    | none => rfl
    | some i =>
      obtain ⟨⟨t, ht, -⟩, hfree, -⟩ := hs.tails_some k i htail
      obtain ⟨call, hcall, -⟩ := hs.owned i t ht
      exact absurd ((hs.released_iff i t call ht hcall).mpr (hfinished _ call hcall)) hfree
  refine ext_entries (eq_nil_iff_forall_not_mem.mpr fun e he => ?_)
  have hget := mem_entries_iff.mp (show (e.1, e.2) ∈ s.tails.entries from he)
  rw [hnone] at hget
  cases hget

/-- A ticket that a call waits behind. -/
def LockTable.Pending (s : LockTable K) (i : ℕ) : Prop :=
  ∃ (c : ℕ) (call : Call K), s.calls[c]? = some call ∧ call.phase = .waiting ∧ call.tickets.getLast? = some i

/-- Among the pending tickets there is one on a greatest key that is the first of its key. -/
theorem LockTable.exists_last_pending (hs : s.Inv) (hpending : ∃ i, s.Pending i) :
    ∃ i t, s.Pending i ∧ s.tickets[i]? = some t ∧ ∀ (j : ℕ) (t' : Ticket K), s.Pending j → s.tickets[j]? = some t' →
        t'.key ≤ t.key ∧ (t'.key = t.key → i ≤ j) := by
  classical
  have hticket : ∀ {i : ℕ}, s.Pending i → ∃ t, s.tickets[i]? = some t := by
    rintro i ⟨c, call, hcall, -, hlast⟩
    have hlt := hs.ticket_lt hcall (mem_of_getLast? hlast)
    exact ⟨_, getElem?_eq_getElem hlt⟩
  -- greatest by key, and by the least number among those of one key
  let rank : ℕ → WithBot K ×ₗ ℕᵒᵈ := fun i => toLex (s.tickets[i]?.map Ticket.key, OrderDual.toDual i)
  let pending := (Finset.range s.tickets.length).filter s.Pending
  have hmem : ∀ {i : ℕ}, s.Pending i → i ∈ pending := by
    intro i hi
    obtain ⟨t, ht⟩ := hticket hi
    exact Finset.mem_filter.mpr ⟨Finset.mem_range.mpr (List.getElem?_eq_some_iff.mp ht).1, hi⟩
  obtain ⟨i₀, hi₀⟩ := hpending
  obtain ⟨i, hi, hmax⟩ := Finset.exists_max_image pending rank ⟨i₀, hmem hi₀⟩
  have hi := (Finset.mem_filter.mp hi).2
  obtain ⟨t, ht⟩ := hticket hi
  refine ⟨i, t, hi, ht, fun j t' hj ht' => ?_⟩
  have hle := Prod.Lex.toLex_le_toLex.mp (hmax j (hmem hj))
  simp only [ht, ht', map_some] at hle
  rcases hle with hlt | ⟨heq, hle⟩
  · have hlt : t'.key < t.key := WithBot.coe_lt_coe.mp hlt
    exact ⟨hlt.le, fun h => absurd h hlt.ne⟩
  · exact ⟨(some.inj heq).le, fun _ => hle⟩

theorem LockTable.Inv.progress (hs : s.Inv) (hstarted : s.Started)
    (hunfinished : ∃ (c : ℕ) (call : Call K), s.calls[c]? = some call ∧ call.phase ≠ .finished) :
    (∃ c s', step s (.resume c) = some s') ∨ ∃ c s', step s (.finish c) = some s' := by
  by_cases hrunning : ∃ (c : ℕ) (call : Call K), s.calls[c]? = some call ∧ call.phase = .running
  · obtain ⟨c, call, hcall, hphase⟩ := hrunning
    refine .inr ⟨c, { call.tickets.reverse.foldl LockTable.release s with
      calls := s.calls.set c { call with phase := .finished } }, ?_⟩
    simp only [step, hcall, bind_eq_bind, bind_some, if_pos hphase]
  have hwaiting : ∀ (c : ℕ) (call : Call K), s.calls[c]? = some call → call.phase ≠ .finished →
      call.phase = .waiting := by
    intro c call hcall hphase
    cases h : call.phase with
    | waiting => rfl
    | running => exact absurd ⟨c, call, hcall, h⟩ hrunning
    | finished => exact absurd h hphase
  have hpending : ∃ i, s.Pending i := by
    obtain ⟨c, call, hcall, hphase⟩ := hunfinished
    have hphase := hwaiting c call hcall hphase
    exact ⟨_, c, call, hcall, hphase, getLast?_eq_some_getLast (hstarted c call hcall hphase)⟩
  obtain ⟨i, t, ⟨c, call, hcall, hphase, hlast⟩, ht, hmax⟩ := exists_last_pending hs hpending
  -- whoever is before it on its key and waits, waits for a greater key or is an earlier pending ticket
  have hfront : s.Front t.key i := by
    intro j t' hj ht' hkey
    obtain ⟨call', hcall', hmem⟩ := hs.owned j t' ht'
    refine (hs.released_iff j t' call' ht' hcall').mpr ?_
    by_contra hphase'
    have hphase' := hwaiting _ call' hcall' hphase'
    have hne := hstarted _ call' hcall' hphase'
    obtain ⟨p, hp⟩ := mem_iff_getElem?.mp hmem
    have hplt := (List.getElem?_eq_some_iff.mp hp).1
    obtain ⟨t'', ht'', -, hkey''⟩ := hs.registered _ call' (call'.tickets.length - 1)
      (call'.tickets.getLast hne) hcall' (by
        rw [← getLast?_eq_getElem?, getLast?_eq_some_getLast hne])
    have hpend : s.Pending (call'.tickets.getLast hne) :=
      ⟨_, call', hcall', hphase', getLast?_eq_some_getLast hne⟩
    obtain ⟨hle, hfirst⟩ := hmax _ t'' hpend ht''
    obtain ⟨t₀, ht₀, -, hpkey⟩ := hs.registered _ call' p j hcall' hp
    rw [ht'] at ht₀
    cases ht₀
    by_cases hp' : p = call'.tickets.length - 1
    · rw [hp', ← getLast?_eq_getElem?, getLast?_eq_some_getLast hne] at hp
      cases hp
      rw [ht'] at ht''
      cases ht''
      have := hfirst hkey
      omega
    · obtain ⟨hplt', hpk⟩ := List.getElem?_eq_some_iff.mp hpkey
      obtain ⟨hllt', hlk⟩ := List.getElem?_eq_some_iff.mp hkey''
      have hlt := pairwise_iff_getElem.mp (hs.sorted _ call' hcall') p
        (call'.tickets.length - 1) hplt' hllt' (by omega)
      rw [hpk, hlk, hkey] at hlt
      exact absurd hle (not_le.mpr hlt)
  refine .inl ⟨c, s.advance c call, ?_⟩
  simp only [step, hcall, hlast, ht, bind_eq_bind, bind_some]
  rw [if_pos ⟨hphase, (settled_iff_front hs ht).mpr hfront⟩]

/-- **The lock table.** In every table that calls with any key sets reach by any order of their
steps, callbacks of two calls with a key in common do not run together; a call that has got past a
key comes after all that registered on it earlier; while a call is unfinished some call can go on or
a callback is running that can finish; and when all calls have finished the table is empty. -/
theorem lockTable_safe {moves : List (Move K)} (hrun : run step (.empty K) moves = some s) :
    (∀ (c d : ℕ) (call call' : Call K) (keys keys' : List K) (k : K), c ≠ d →
      s.calls[c]? = some call → s.calls[d]? = some call' →
      (started moves)[c]? = some keys → (started moves)[d]? = some keys' →
      call.phase = .running → call'.phase = .running → k ∈ keys → k ∉ keys') ∧
    (∀ (i j : ℕ) (t t' : Ticket K) (call call' : Call K), i < j → s.tickets[i]? = some t →
      s.tickets[j]? = some t' → t.key = t'.key → s.calls[t.call]? = some call →
      s.calls[t'.call]? = some call' → call'.phase ≠ .waiting → call.phase = .finished) ∧
    ((∃ (c : ℕ) (call : Call K), s.calls[c]? = some call ∧ call.phase ≠ .finished) →
      (∃ c s', step s (.resume c) = some s') ∨ ∃ c s', step s (.finish c) = some s') ∧
    ((∀ (c : ℕ) (call : Call K), s.calls[c]? = some call → call.phase = .finished) → s.tails = .empty) := by
  have hinv : s.Inv := run_preserves LockTable.Inv (fun _ _ _ => inv_of_step) inv_empty hrun
  have hstarted : s.Started :=
    run_preserves LockTable.Started (fun _ _ _ => started_of_step) started_empty hrun
  have hkeys : ∀ {c : ℕ} {call : Call K} {keys : List K}, s.calls[c]? = some call →
      (started moves)[c]? = some keys → ∀ k, k ∈ call.keys ↔ k ∈ keys := by
    intro c call keys hcall hkeys k
    have hmap := congrArg (·[c]?) (keys_of_run hrun)
    simp only [LockTable.empty, map_nil, nil_append, getElem?_map, hcall, hkeys,
      map_some, some.injEq] at hmap
    rw [hmap, mem_sortedKeys]
  refine ⟨?_, ?_, hinv.progress hstarted, hinv.tails_empty⟩
  · intro c d call call' keys keys' k hne hc hd hks hks' hphase hphase' hk hk'
    exact hinv.mutual_exclusion hne hc hd hphase hphase' ((hkeys hc hks k).mpr hk) ((hkeys hd hks' k).mpr hk')
  · intro i j t t' call call' hij ht ht' hkey hcall hcall' hphase
    exact hinv.first_come hij ht ht' hkey hcall hcall' hphase

/-- The first call takes key 2 while the second, which came first on key 1, waits behind it. -/
def sampleMoves : List (Move ℕ) := [.start [2], .start [2, 1], .start [1], .resume 1, .resume 0]

/-- Call 0 runs, call 1 waits for key 2 and holds key 1, and call 2 waits for key 1. -/
theorem sampleMoves_locked : ∃ s : LockTable ℕ, run step (.empty ℕ) sampleMoves = some s ∧
      s.calls.map Call.phase = [.running, .waiting, .waiting] ∧
      ((∃ c s', step s (.resume c) = some s') ∨ ∃ c s', step s (.finish c) = some s') := by
  obtain ⟨s, hrun, hphases⟩ : ∃ s : LockTable ℕ, run step (.empty ℕ) sampleMoves = some s ∧
      s.calls = [⟨[2], [0], .running⟩, ⟨[1, 2], [1, 3], .waiting⟩, ⟨[1], [2], .waiting⟩] := by
    refine ⟨(run step (.empty ℕ) sampleMoves).get (by decide +kernel), ?_, ?_⟩
    · rw [some_get]
    · decide +kernel
  refine ⟨s, hrun, by rw [hphases]; rfl, ?_⟩
  exact (lockTable_safe hrun).2.2.1 ⟨1, _, by rw [hphases]; rfl, by decide⟩

end HiveRelay.Store
