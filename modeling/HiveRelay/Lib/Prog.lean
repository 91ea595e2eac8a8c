import Mathlib.Logic.Basic

/-!
# Programs of an event loop

An asynchronous method of a single-threaded runtime is a tree: between two points at which it gives
up control it reads and writes the memory of its object and asks its surroundings (a clock, a random
source, a caller's flag) for values, and at those points it waits — for another turn, for a set of
locks, or for a request it has handed to a log. This file has such trees, their sequencing with
exceptions, and a weakest precondition for them that does not fix what the other methods do
meanwhile: a `Logic` says what may have happened at each of the points.

## Main definitions

* `Signature` — the memory, the questions, the locks and the log requests of an object
* `Prog`, `Op` — programs, and programs that may throw
* `Logic`, `wp` — what a program needs so that its requests are in order and its result is as stated

## Main results

* `wp_bind`, `wp_mono` — sequencing, and weakening of the postcondition
* `Op.wp_op_bind` — sequencing with exceptions
-/

namespace HiveRelay

/-- What the programs of an object are written over. -/
structure Signature where
  (Store Query : Type)
  Answer : Query → Type
  (Key Request Reply : Type)

variable {S : Signature} {α β : Type}

/-- A program that ends with an `α`. -/
inductive Prog (S : Signature) (α : Type) : Type
  | ret (a : α)
  | read (next : S.Store → Prog S α)
  | write (update : S.Store → S.Store) (next : Prog S α)
  /-- A value from outside, without giving up control. -/
  | ask (q : S.Query) (next : S.Answer q → Prog S α)
  /-- Another turn of the loop. -/
  | yield (next : Prog S α)
  | acquire (keys : List S.Key) (next : Prog S α)
  | release (keys : List S.Key) (next : Prog S α)
  /-- Hand a request to the log and wait for its reply. -/
  | append (r : S.Request) (next : S.Reply → Prog S α)

namespace Prog

/-- Sequencing. -/
def bind : Prog S α → (α → Prog S β) → Prog S β
  | ret a, f => f a
  | read next, f => read fun s => (next s).bind f
  | write update next, f => write update (next.bind f)
  | ask q next, f => ask q fun a => (next a).bind f
  | yield next, f => yield (next.bind f)
  | acquire keys next, f => acquire keys (next.bind f)
  | release keys next, f => release keys (next.bind f)
  | append r next, f => append r fun reply => (next reply).bind f

instance : Monad (Prog S) where
  pure := ret
  bind := bind

end Prog

/-! ### Exceptions -/

/-- A program that may throw an `ε`. -/
def Op (S : Signature) (ε α : Type) : Type := Prog S (Except ε α)

namespace Op

variable {ε : Type}

/-- Go on with a result, or pass an exception on. -/
def andThen (f : α → Op S ε β) : Except ε α → Prog S (Except ε β)
  | .ok a => f a
  | .error e => .ret (.error e)

instance : Monad (Op S ε) where
  pure a := Prog.ret (.ok a)
  bind p f := Prog.bind p (andThen f)

/-- Throw, or go on with a value that is there. -/
def ofExcept (x : Except ε α) : Op S ε α := Prog.ret x

instance : MonadLift (Except ε) (Op S ε) where
  monadLift := ofExcept

/-- The memory. -/
def read : Op S ε S.Store := Prog.read fun s => .ret (.ok s)

/-- Write the memory. -/
def modify (update : S.Store → S.Store) : Op S ε Unit := Prog.write update (.ret (.ok ()))

/-- A value from outside. -/
def ask (q : S.Query) : Op S ε (S.Answer q) := Prog.ask q fun a => .ret (.ok a)

/-- Another turn of the loop. -/
def yield : Op S ε Unit := Prog.yield (.ret (.ok ()))

/-- A value from outside that takes a turn of the loop, such as the result of file I/O. -/
def await (q : S.Query) : Op S ε (S.Answer q) := Prog.yield (.ask q fun a => .ret (.ok a))

/-- Hand a request to the log. -/
def append (r : S.Request) : Op S ε S.Reply := Prog.append r fun reply => .ret (.ok reply)

/-- Run a program under a set of locks, which are given back however it ends. -/
def withLocks (keys : List S.Key) (p : Op S ε α) : Op S ε α :=
  Prog.acquire keys (Prog.bind p fun r => .release keys (.yield (.ret r)))

def throw (e : ε) : Op S ε α := Prog.ret (.error e)

/-- The result of a `try` block, with its exception as a value. -/
def attempt (p : Op S ε α) : Op S ε (Except ε α) := Prog.bind p fun r => .ret (.ok r)

end Op

/-! ### Weakest preconditions -/

/-- What may happen at the points where a program waits, over states `M` of the whole system, and
what a program owes at the points where it acts. -/
structure Logic (S : Signature) (M : Type) where
  store : M → S.Store
  /-- The state after a write of the memory. -/
  set : M → S.Store → M
  /-- What a program owes for a write. -/
  writable : M → S.Store → Prop
  /-- The answers that the surroundings can give, and the state after them. -/
  ask : M → (q : S.Query) → S.Answer q → M → Prop
  /-- The states in which a program may find itself at its next turn. -/
  yield : M → M → Prop
  /-- The states in which a program may find itself when it has its locks. -/
  acquire : List S.Key → M → M → Prop
  release : List S.Key → M → M
  /-- What a program owes for a request. -/
  enqueue : M → S.Request → Prop
  /-- The states in which a program may find itself when it has its reply. -/
  reply : M → S.Request → S.Reply → M → Prop

variable {M : Type} (L : Logic S M)

/-- The weakest precondition of a program. -/
def wp : Prog S α → (α → M → Prop) → M → Prop
  | .ret a, Q, m => Q a m
  | .read next, Q, m => wp (next (L.store m)) Q m
  | .write update next, Q, m =>
    L.writable m (update (L.store m)) ∧ wp next Q (L.set m (update (L.store m)))
  | .ask q next, Q, m => ∀ a m', L.ask m q a m' → wp (next a) Q m'
  | .yield next, Q, m => ∀ m', L.yield m m' → wp next Q m'
  | .acquire keys next, Q, m => ∀ m', L.acquire keys m m' → wp next Q m'
  | .release keys next, Q, m => wp next Q (L.release keys m)
  | .append r next, Q, m =>
    L.enqueue m r ∧ ∀ reply m', L.reply m r reply m' → wp (next reply) Q m'

variable {L}

variable {Q : α → M → Prop} {m : M}

/-- **Weakening.** -/
theorem wp_mono {p : Prog S α} {R : α → M → Prop} (h : wp L p Q m) (hQR : ∀ a m, Q a m → R a m) : wp L p R m := by
  induction p generalizing m with
  | ret a => exact hQR a m h
  | read next ih => exact ih _ h
  | write update next ih => exact ⟨h.1, ih h.2⟩
  | ask q next ih => exact fun a m' ha => ih a (h a m' ha)
  | yield next ih | acquire keys next ih => exact fun m' hm' => ih (h m' hm')
  | release keys next ih => exact ih h
  | append r next ih => exact ⟨h.1, fun reply m' hm' => ih reply (h.2 reply m' hm')⟩

/-- **Sequencing.** -/
theorem wp_bind {p : Prog S α} {f : α → Prog S β} {Q : β → M → Prop} :
    wp L (p.bind f) Q m ↔ wp L p (fun a m => wp L (f a) Q m) m := by
  induction p generalizing m with
  | ret a => rfl
  | read next ih => exact ih _
  | write update next ih => exact and_congr_right fun _ => ih
  | ask q next ih => exact forall₃_congr fun a m' _ => ih a
  | yield next ih | acquire keys next ih => exact forall₂_congr fun m' _ => ih
  | release keys next ih => exact ih
  | append r next ih =>
    exact and_congr_right fun _ => forall₃_congr fun reply m' _ => ih reply

namespace Op

variable {ε : Type} {p : Op S ε α} {f : α → Op S ε β} {x : Except ε α} {q : S.Query}

/-- What is left to do after a part of a program: go on with its result, or pass its exception on. -/
def cont (L : Logic S M) (f : α → Op S ε β) (Q : Except ε β → M → Prop) : Except ε α → M → Prop
  | .ok a, m => wp L (f a) Q m
  | .error e, m => Q (.error e) m

section Exceptions

variable {Q : Except ε β → M → Prop} {m : M}

theorem cont_ok {a : α} : cont L f Q (.ok a) m ↔ wp L (f a) Q m := Iff.rfl

theorem wp_op_bind : wp L (p >>= f : Op S ε β) Q m ↔ wp L p (cont L f Q) m := by
  refine wp_bind.trans ⟨fun h => wp_mono h ?_, fun h => wp_mono h ?_⟩
  · rintro (e | a) m hr
    · exact hr
    · exact hr
  · rintro (e | a) m hr
    · exact hr
    · exact hr

theorem wp_ofExcept_bind : wp L (ofExcept x >>= f : Op S ε β) Q m ↔ cont L f Q x m := by
  cases x <;> exact Iff.rfl

theorem wp_attempt_bind {f : Except ε α → Op S ε β} :
    wp L (attempt p >>= f : Op S ε β) Q m ↔ wp L p (fun r m => wp L (f r) Q m) m := by
  rw [wp_op_bind]
  refine wp_bind.trans ⟨fun h => wp_mono h fun _ _ h => h, fun h => wp_mono h fun _ _ h => h⟩

end Exceptions

@[simp] theorem wp_withLocks {keys : List S.Key} {Q : Except ε α → M → Prop} :
    wp L (withLocks keys p) Q m ↔ ∀ m', L.acquire keys m m' →
      wp L p (fun r m => ∀ m', L.yield (L.release keys m) m' → Q r m') m' :=
  forall₂_congr fun _ _ => wp_bind

end Op

end HiveRelay
