import Mathlib.Data.List.Basic
import HiveRelay.Lib.Prog
import HiveRelay.Lib.Run

/-!
# An event loop

The tasks of an object share its memory, a table of locks and a log. One task runs at a time, from
the point at which it waited to the next such point; then any task whose wait is over may run. A
request that a task appends joins a queue; the log settles the requests in the order in which they
came, and may eject one that its caller has given up.

A `Discipline` is an invariant of the memory together with a contract between the tasks: what a task
may write and append, and what it may then rely on from the others. Its main theorem is that a loop
whose calls all keep the contract alone keeps it together, for every interleaving: what a task
has established before it waits holds of what it finds afterwards.

## Main definitions

* `Surroundings` — what a task asks, what the log does with its requests, and what is recorded of it
* `Loop`, `Loop.step` — the tasks, and one turn
* `Discipline` — an invariant and a contract
* `Discipline.Sound` — every task keeps the contract from here on

## Main results

* `Discipline.sound_step` — the contract is kept by every step
-/

namespace HiveRelay

open List Option

variable {S : Signature} {V F C ρ : Type}

/-! ### Tasks -/

/-- What a task sees: the memory, its locks, and what is its own. -/
structure View (S : Signature) (V : Type) where
  store : S.Store
  held : List S.Key
  own : V

/-- The surroundings of the tasks: `V` is what belongs to one task, `F` what may become of a request
and `C` what may happen to a task while it waits. -/
structure Surroundings (S : Signature) (V F C : Type) where
  /-- The answer to a question, made from what the outside has to say. -/
  answer : S.Store → V → (q : S.Query) → S.Answer q → S.Answer q
  asked : S.Store → V → (q : S.Query) → S.Answer q → V
  wrote : V → S.Store → S.Store → V
  /-- What the log makes of the request of a task. -/
  settle : S.Store → V → S.Request → F → Option (S.Store × S.Reply)
  /-- The reply to a request that the log leaves out. -/
  eject : V → S.Request → Option S.Reply
  replied : V → S.Request → S.Reply → V
  change : V → C → V

/-- A task that waits. -/
structure Task (S : Signature) (V ρ : Type) where
  prog : Prog S ρ
  held : List S.Key
  own : V

/-- What a task sees of a memory. -/
def Task.view (t : Task S V ρ) (s : S.Store) : View S V := ⟨s, t.held, t.own⟩

namespace View

variable (W : Surroundings S V F C) (m : View S V)

/-- The view of a task whose memory another one has changed. -/
def on (s : S.Store) : View S V := { m with store := s }

/-- The view after a write. -/
def write (s : S.Store) : View S V := { m with store := s, own := W.wrote m.own m.store s }

/-- The view after an answer. -/
def ask (q : S.Query) (a : S.Answer q) : View S V := { m with own := W.asked m.store m.own q a }

/-- The view after a reply, of the memory that the log leaves. -/
def reply (s : S.Store) (r : S.Request) (reply : S.Reply) : View S V :=
  { m with store := s, own := W.replied m.own r reply }

/-- The view with more locks. -/
def acquire (keys : List S.Key) : View S V := { m with held := keys ++ m.held }

/-- The view with fewer locks. -/
def release [DecidableEq S.Key] (keys : List S.Key) : View S V :=
  { m with held := m.held.filter fun k => k ∉ keys }

/-- The view after something has happened to the task. -/
def change (c : C) : View S V := { m with own := W.change m.own c }

end View

/-! ### The loop -/

section Loop

variable [DecidableEq S.Key] (W : Surroundings S V F C)

/-- A task runs until it waits or ends. `oracle k` is what the outside has to say when the task asks
for the `k`-th time. -/
def exec (oracle : ℕ → (q : S.Query) → S.Answer q) : Prog S ρ → ℕ → View S V → View S V × Prog S ρ
  | .read next, k, m => exec oracle (next m.store) k m
  | .write update next, k, m => exec oracle next k (m.write W (update m.store))
  | .ask q next, k, m =>
    exec oracle (next (W.answer m.store m.own q (oracle k q))) (k + 1)
      (m.ask W q (W.answer m.store m.own q (oracle k q)))
  | .release keys next, k, m => exec oracle next k (m.release keys)
  | .ret a, _, m => (m, .ret a)
  | .yield next, _, m => (m, .yield next)
  | .acquire keys next, _, m => (m, .acquire keys next)
  | .append r next, _, m => (m, .append r next)

variable (S V ρ) in
/-- The tasks of an object, by the order in which they were called; those that have ended are
`none`. -/
structure Loop where
  store : S.Store
  tasks : List (Option (Task S V ρ))
  queue : List (ℕ × S.Request)
  /-- What the tasks that have ended came to. -/
  ended : List ρ

variable (S V F C ρ) in
/-- What can happen in one turn. -/
inductive LoopMove where
  | call (p : Prog S ρ) (v : V)
  /-- A task whose wait is over runs. -/
  | turn (i : ℕ) (oracle : ℕ → (q : S.Query) → S.Answer q)
  /-- The log settles the oldest request. -/
  | settle (f : F)
  /-- The log leaves out a request. -/
  | eject (k : ℕ)
  | change (i : ℕ) (c : C)

namespace Loop

/-- The task of a number, unless it has ended. -/
def task? (l : Loop S V ρ) (i : ℕ) : Option (Task S V ρ) := l.tasks[i]?.join

omit [DecidableEq S.Key] in
theorem lt_of_task? {l : Loop S V ρ} {i : ℕ} {t : Task S V ρ} (h : l.task? i = some t) : i < l.tasks.length := by
  by_contra hge
  rw [task?, getElem?_eq_none (Nat.le_of_not_lt hge)] at h
  exact nomatch h

omit [DecidableEq S.Key] in
theorem mem_tasks (l : Loop S V ρ) {i : ℕ} {t : Task S V ρ} (h : l.task? i = some t) : some t ∈ l.tasks := by
  exact mem_of_getElem? (join_eq_some_iff.mp h)

omit [DecidableEq S.Key] in
theorem task?_set {l l' : Loop S V ρ} {i : ℕ} {t : Task S V ρ} {o : Option (Task S V ρ)}
    (h : l.task? i = some t) (hl' : l'.tasks = l.tasks.set i o) (j : ℕ) :
    l'.task? j = if j = i then o else l.task? j := by
  unfold task?
  rw [hl', getElem?_set]
  by_cases hj : j = i
  · rw [if_pos hj.symm, if_pos (lt_of_task? h), if_pos hj]
    rfl
  · rw [if_neg (Ne.symm hj), if_neg hj]

omit [DecidableEq S.Key] in
theorem task?_append {l l' : Loop S V ρ} {t : Task S V ρ} (hl' : l'.tasks = l.tasks ++ [some t]) (j : ℕ) :
    l'.task? j = if j = l.tasks.length then some t else l.task? j := by
  unfold task?
  rw [hl']
  rcases Nat.lt_trichotomy j l.tasks.length with hj | hj | hj
  · rw [getElem?_append_left hj, if_neg (Nat.ne_of_lt hj)]
  · rw [hj, getElem?_concat_length, if_pos rfl]
    rfl
  · rw [getElem?_eq_none (by rw [length_append, length_singleton]; omega),
      getElem?_eq_none (by omega), if_neg (Nat.ne_of_gt hj)]

/-- No task holds one of the keys. -/
def Free (l : Loop S V ρ) (keys : List S.Key) : Prop :=
  ∀ o ∈ l.tasks, ∀ t ∈ o, ∀ k ∈ keys, k ∉ t.held

instance (l : Loop S V ρ) (keys : List S.Key) : Decidable (l.Free keys) :=
  inferInstanceAs (Decidable (∀ o ∈ l.tasks, ∀ t ∈ o, ∀ k ∈ keys, k ∉ t.held))

/-- The loop after task `i` has run. -/
def land (l : Loop S V ρ) (i : ℕ) : View S V × Prog S ρ → Loop S V ρ
  | (m, .ret a) =>
    { l with store := m.store, tasks := l.tasks.set i none, ended := l.ended ++ [a] }
  | (m, .append r next) =>
    { l with
      store := m.store
      tasks := l.tasks.set i (some ⟨.append r next, m.held, m.own⟩)
      queue := l.queue ++ [(i, r)] }
  | (m, p) => { l with store := m.store, tasks := l.tasks.set i (some ⟨p, m.held, m.own⟩) }

/-- A reply for task `i` is there. -/
def deliver (l : Loop S V ρ) (i : ℕ) (t : Task S V ρ) (r : S.Request) (s : S.Store)
    (reply : S.Reply) (next : S.Reply → Prog S ρ) : Loop S V ρ :=
  { l with
    store := s
    tasks := l.tasks.set i (some ⟨.yield (next reply), t.held, W.replied t.own r reply⟩) }

/-- One turn. -/
def step (l : Loop S V ρ) : LoopMove S V F C ρ → Option (Loop S V ρ)
  | .call p v => some { l with tasks := l.tasks ++ [some ⟨.yield p, [], v⟩] }
  | .turn i oracle =>
    (l.task? i).bind fun t =>
      match t.prog with
      | .yield next => some (l.land i (exec W oracle next 0 (t.view l.store)))
      | .acquire keys next =>
        if l.Free keys then
          some (l.land i (exec W oracle next 0 ((t.view l.store).acquire keys)))
        else none
      | _ => none
  | .settle f =>
    match l.queue with
    | [] => none
    | (i, r) :: rest =>
      (l.task? i).bind fun t =>
        match t.prog with
        | .append _ next =>
          (W.settle l.store t.own r f).map fun p =>
            { l with queue := rest }.deliver W i t r p.1 p.2 next
        | _ => none
  | .eject k =>
    (l.queue[k]?).bind fun ir =>
      (l.task? ir.1).bind fun t =>
        match t.prog with
        | .append _ next =>
          (W.eject t.own ir.2).map fun reply =>
            { l with queue := l.queue.eraseIdx k }.deliver W ir.1 t ir.2 l.store reply next
        | _ => none
  | .change i c =>
    (l.task? i).map fun t =>
      { l with tasks := l.tasks.set i (some { t with own := W.change t.own c }) }

/-- A loop without tasks. -/
def init (s : S.Store) : Loop S V ρ := ⟨s, [], [], []⟩

/-- The loop with more on record of what has ended. -/
def withEnded (l : Loop S V ρ) (as : List ρ) : Loop S V ρ := { l with ended := as ++ l.ended }

omit [DecidableEq S.Key] in
theorem land_withEnded (l : Loop S V ρ) (as : List ρ) (i : ℕ) (x : View S V × Prog S ρ) :
    (l.withEnded as).land i x = (l.land i x).withEnded as := by
  obtain ⟨m, p⟩ := x
  cases p with
  | ret a =>
    show (⟨m.store, l.tasks.set i none, l.queue, as ++ l.ended ++ [a]⟩ : Loop S V ρ) =
      ⟨m.store, l.tasks.set i none, l.queue, as ++ (l.ended ++ [a])⟩
    rw [append_assoc]
  | _ => rfl

theorem step_withEnded (l : Loop S V ρ) (as : List ρ) (mv : LoopMove S V F C ρ) :
    (l.withEnded as).step W mv = (l.step W mv).map fun l' => l'.withEnded as := by
  cases mv with
  | call p v => rfl
  | turn i oracle =>
    show ((l.task? i).bind _) = ((l.task? i).bind _).map _
    cases l.task? i with
    | none => rfl
    | some t =>
      obtain ⟨prog, held, own⟩ := t
      cases prog with
      | yield next => exact congrArg some (land_withEnded l as i _)
      | acquire keys next =>
        show (if l.Free keys then _ else _) = (if l.Free keys then _ else _ : Option _).map _
        by_cases hfree : l.Free keys
        · rw [if_pos hfree, if_pos hfree]
          exact congrArg some (land_withEnded l as i _)
        · rw [if_neg hfree, if_neg hfree]
          rfl
      | _ => rfl
  | settle f =>
    obtain ⟨s, tasks, queue, ended⟩ := l
    cases queue with
    | nil => rfl
    | cons x rest =>
      set l : Loop S V ρ := ⟨s, tasks, x :: rest, ended⟩
      show ((l.task? x.1).bind _) = ((l.task? x.1).bind _).map _
      cases l.task? x.1 with
      | none => rfl
      | some t =>
        obtain ⟨prog, held, own⟩ := t
        cases prog with
        | append r next =>
          show Option.map _ (W.settle l.store own x.2 f) = (Option.map _ (W.settle l.store own x.2 f)).map _
          cases W.settle l.store own x.2 f <;> rfl
        | _ => rfl
  | eject k =>
    show (l.queue[k]?.bind _) = (l.queue[k]?.bind _).map _
    cases l.queue[k]? with
    | none => rfl
    | some x =>
      show ((l.task? x.1).bind _) = ((l.task? x.1).bind _).map _
      cases l.task? x.1 with
      | none => rfl
      | some t =>
        obtain ⟨prog, held, own⟩ := t
        cases prog with
        | append r next =>
          show Option.map _ (W.eject own x.2) = (Option.map _ (W.eject own x.2)).map _
          cases W.eject own x.2 <;> rfl
        | _ => rfl
  | change i c =>
    show Option.map _ (l.task? i) = (Option.map _ (l.task? i)).map _
    cases l.task? i <;> rfl

end Loop

end Loop

/-! ### Contracts -/

section Discipline

/-- An invariant of the memory, and a contract between tasks. -/
structure Discipline (W : Surroundings S V F C) (ρ : Type) where
  /-- What holds of the memory whenever a task waits. -/
  inv : S.Store → Prop
  /-- What holds of the memory and of what is a task's own whenever that task waits. -/
  loc : S.Store → V → Prop
  /-- What holds of what two tasks call their own. -/
  apart : V → V → Prop
  /-- What a task may rely on: its view before and after a wait. -/
  rely : View S V → View S V → Prop
  writable : View S V → S.Store → Prop
  enqueue : View S V → S.Request → Prop
  /-- What may happen to a task while it waits. -/
  permits : View S V → C → Prop
  /-- What a task must have reached when it ends. -/
  post : ρ → View S V → Prop
  /-- What holds of the memory once a task has ended. -/
  final : ρ → S.Store → Prop
  apart_symm : ∀ {v w}, apart v w → apart w v
  rely_refl : ∀ m, rely m m
  rely_trans : ∀ {m₁ m₂ m₃}, rely m₁ m₂ → rely m₂ m₃ → rely m₁ m₃
  asked : ∀ {m : View S V} (q : S.Query) (a : S.Answer q), inv m.store → loc m.store m.own →
    loc m.store (W.asked m.store m.own q a) ∧ ∀ w, apart m.own w → apart (W.asked m.store m.own q a) w
  write_own : ∀ {m : View S V} {s : S.Store}, inv m.store → loc m.store m.own → writable m s →
    inv s ∧ loc s (W.wrote m.own m.store s) ∧ ∀ a, final a m.store → final a s
  write_other : ∀ {m n : View S V} {s : S.Store}, inv m.store → loc m.store m.own →
    writable m s → n.store = m.store → n.held.Disjoint m.held → apart m.own n.own →
    loc n.store n.own → loc s n.own ∧ rely n (n.on s) ∧ apart (W.wrote m.own m.store s) n.own
  settle_own : ∀ {m : View S V} {r : S.Request} {f : F} {s : S.Store} {reply : S.Reply},
    inv m.store → loc m.store m.own → enqueue m r →
    W.settle m.store m.own r f = some (s, reply) →
    inv s ∧ loc s (W.replied m.own r reply) ∧ ∀ a, final a m.store → final a s
  settle_other : ∀ {m n : View S V} {r : S.Request} {f : F} {s : S.Store} {reply : S.Reply},
    inv m.store → loc m.store m.own → enqueue m r →
    W.settle m.store m.own r f = some (s, reply) → n.store = m.store → n.held.Disjoint m.held →
    apart m.own n.own → loc n.store n.own →
    loc s n.own ∧ rely n (n.on s) ∧ apart (W.replied m.own r reply) n.own
  eject : ∀ {m : View S V} {r : S.Request} {reply : S.Reply}, inv m.store → loc m.store m.own →
    enqueue m r → W.eject m.own r = some reply → loc m.store (W.replied m.own r reply) ∧
      ∀ w, apart m.own w → apart (W.replied m.own r reply) w
  enqueue_stable : ∀ {m m' : View S V} {r : S.Request}, enqueue m r → m'.held = m.held →
    inv m'.store → loc m'.store m'.own → rely m m' → enqueue m' r
  changed : ∀ {m : View S V} {c : C}, inv m.store → loc m.store m.own → permits m c →
    loc m.store (W.change m.own c) ∧ rely m (m.change W c) ∧ ∀ w, apart m.own w → apart (W.change m.own c) w
  post_final : ∀ {a : ρ} {m : View S V}, post a m → final a m.store

namespace Discipline

variable {W : Surroundings S V F C} (D : Discipline W ρ)

/-- The view of a task after a wait. -/
structure Later (m m' : View S V) : Prop where
  held : m'.held = m.held
  inv : D.inv m'.store
  loc : D.loc m'.store m'.own
  rely : D.rely m m'

variable {D} in
theorem Later.trans {m₁ m₂ m₃ : View S V} (h : D.Later m₁ m₂) (h' : D.Later m₂ m₃) :
    D.Later m₁ m₃ :=
  ⟨h'.held.trans h.held, h'.inv, h'.loc, D.rely_trans h.rely h'.rely⟩

/-- The view of a task after its reply. -/
def Reply (m : View S V) (r : S.Request) (reply : S.Reply) (m' : View S V) : Prop :=
  ∃ m₁, D.Later m m₁ ∧ ((∃ f s, W.settle m₁.store m₁.own r f = some (s, reply) ∧ D.Later (m₁.reply W s r reply) m') ∨
      (W.eject m₁.own r = some reply ∧ D.Later (m₁.reply W m₁.store r reply) m'))

/-- What a task may do to the others. -/
structure Harmless (m m' : View S V) : Prop where
  held : ∀ k ∈ m'.held, k ∈ m.held
  inv : D.inv m'.store
  loc : D.loc m'.store m'.own
  final : ∀ a, D.final a m.store → D.final a m'.store
  other : ∀ n : View S V, n.store = m.store → n.held.Disjoint m.held → D.apart m.own n.own → D.loc n.store n.own →
    D.loc m'.store n.own ∧ D.rely n (n.on m'.store) ∧ D.apart m'.own n.own

variable {D} in
theorem Harmless.refl {m : View S V} (hinv : D.inv m.store) (hloc : D.loc m.store m.own) :
    D.Harmless m m := by
  refine ⟨fun _ hk => hk, hinv, hloc, fun _ h => h, fun n hn _ hapart hl => ?_⟩
  have hsame : n.on m.store = n := by
    rw [← hn]
    rfl
  rw [hsame, ← hn]
  exact ⟨hl, D.rely_refl n, hapart⟩

variable {D} in
theorem harmless_settle {m : View S V} {r : S.Request} {f : F} {s : S.Store} {reply : S.Reply}
    (hinv : D.inv m.store) (hloc : D.loc m.store m.own) (henqueue : D.enqueue m r)
    (h : W.settle m.store m.own r f = some (s, reply)) :
    D.Harmless m (m.reply W s r reply) := by
  obtain ⟨hinv', hloc', hfinal⟩ := D.settle_own hinv hloc henqueue h
  exact ⟨fun _ hk => hk, hinv', hloc', hfinal, fun n hn hdisjoint hapart hl =>
    D.settle_other hinv hloc henqueue h hn hdisjoint hapart hl⟩

variable {D} in
theorem harmless_own {m : View S V} {v : V} (hinv : D.inv m.store) (hloc : D.loc m.store v)
    (hapart : ∀ w, D.apart m.own w → D.apart v w) : D.Harmless m { m with own := v } := by
  refine ⟨fun _ hk => hk, hinv, hloc, fun _ h => h, fun n hn _ hnapart hl => ?_⟩
  have hsame : n.on m.store = n := by
    rw [← hn]
    rfl
  show D.loc m.store n.own ∧ D.rely n (n.on m.store) ∧ D.apart v n.own
  rw [hsame, ← hn]
  exact ⟨hl, D.rely_refl n, hapart _ hnapart⟩

variable [DecidableEq S.Key]

/-- What a program needs to keep the contract. -/
def logic : Logic S (View S V) where
  store := View.store
  set m s := m.write W s
  writable := D.writable
  ask m q a m' := (∃ raw, a = W.answer m.store m.own q raw) ∧ m' = m.ask W q a
  yield := D.Later
  acquire keys m m' :=
    ∃ m₁, D.Later m m₁ ∧ (∀ k ∈ keys, k ∉ m₁.held) ∧ m' = m₁.acquire keys
  release keys m := m.release keys
  enqueue := D.enqueue
  reply := D.Reply

/-- A program that waits. -/
def Waits {α : Type} : Prog S α → Prop
  | .yield _ | .acquire _ _ | .append _ _ => True
  | _ => False

variable {D}

theorem wp_later {α : Type} {p : Prog S α} {Q : α → View S V → Prop} {m m' : View S V} (hp : Waits p)
    (h : wp D.logic p Q m) (hm : D.Later m m') : wp D.logic p Q m' := by
  cases p with
  | yield next => exact fun m₂ hm₂ => h m₂ (hm.trans hm₂)
  | acquire keys next =>
    rintro m₂ ⟨m₁, hm₁, hfree, rfl⟩
    exact h _ ⟨m₁, hm.trans hm₁, hfree, rfl⟩
  | append r next =>
    refine ⟨D.enqueue_stable h.1 hm.held hm.inv hm.loc hm.rely, ?_⟩
    rintro reply m₂ ⟨m₁, hm₁, hreply⟩
    exact h.2 reply m₂ ⟨m₁, hm.trans hm₁, hreply⟩
  | ret a | read next | write update next | ask q next | release keys next => exact hp.elim

/-- **A task runs.** A program that keeps the contract from a view still keeps it at its next wait,
and has done nothing that the others may not rely on. -/
theorem wp_exec {α : Type} (oracle : ℕ → (q : S.Query) → S.Answer q) (p : Prog S α)
    {Q : α → View S V → Prop} (k : ℕ) {m : View S V} (hinv : D.inv m.store)
    (hloc : D.loc m.store m.own) (h : wp D.logic p Q m) :
    D.Harmless m (exec W oracle p k m).1 ∧ wp D.logic (exec W oracle p k m).2 Q (exec W oracle p k m).1 ∧
      (Waits (exec W oracle p k m).2 ∨ ∃ a, (exec W oracle p k m).2 = .ret a) := by
  induction p generalizing k m with
  | ret a => exact ⟨.refl hinv hloc, h, .inr ⟨a, rfl⟩⟩
  | yield next ih | acquire keys next ih | append r next ih => exact ⟨.refl hinv hloc, h, .inl trivial⟩
  | read next ih => exact ih _ k hinv hloc h
  | write update next ih =>
    obtain ⟨hwritable, hnext⟩ := h
    obtain ⟨hinv', hloc', hfinal⟩ := D.write_own hinv hloc hwritable
    obtain ⟨hafter, hrest⟩ := ih k (m := m.write W (update m.store)) hinv' hloc' hnext
    refine ⟨⟨hafter.held, hafter.inv, hafter.loc, fun a ha => hafter.final a (hfinal a ha),
      fun n hn hdisjoint hapart hl => ?_⟩, hrest⟩
    obtain ⟨hl₁, hrely₁, hapart₁⟩ := D.write_other hinv hloc hwritable hn hdisjoint hapart hl
    obtain ⟨hl₂, hrely₂, hapart₂⟩ := hafter.other (n.on (update m.store)) rfl hdisjoint hapart₁ hl₁
    exact ⟨hl₂, D.rely_trans hrely₁ hrely₂, hapart₂⟩
  | ask q next ih =>
    have hask := h _ _ ⟨⟨oracle k q, rfl⟩, rfl⟩
    obtain ⟨hloc', hapart'⟩ := D.asked q (W.answer m.store m.own q (oracle k q)) hinv hloc
    obtain ⟨hafter, hrest⟩ := ih _ (k + 1) (m := m.ask W q (W.answer m.store m.own q (oracle k q))) hinv hloc' hask
    exact ⟨⟨hafter.held, hafter.inv, hafter.loc, hafter.final,
      fun n hn hdisjoint hapart => hafter.other n hn hdisjoint (hapart' _ hapart)⟩, hrest⟩
  | release keys next ih =>
    have hsub : ∀ k ∈ (m.release keys).held, k ∈ m.held := fun k hk => (mem_filter.mp hk).1
    obtain ⟨hafter, hrest⟩ := ih k (m := m.release keys) hinv hloc h
    refine ⟨⟨fun k hk => hsub k (hafter.held k hk), hafter.inv, hafter.loc, hafter.final,
      fun n hn hdisjoint hapart hl => hafter.other n hn ?_ hapart hl⟩, hrest⟩
    exact fun k hk hk' => hdisjoint hk (hsub k hk')

/-! ### Loops that keep a contract -/

/-- Every task keeps the contract from where it waits, what the tasks call their own is apart, and
what is in the queue is what the tasks wait for. -/
structure Sound (D : Discipline W ρ) (l : Loop S V ρ) : Prop where
  inv : D.inv l.store
  loc : ∀ {i t}, l.task? i = some t → D.loc l.store t.own
  waits : ∀ {i t}, l.task? i = some t → Waits t.prog
  wp : ∀ {i t}, l.task? i = some t → wp D.logic t.prog D.post (t.view l.store)
  locks : ∀ {i j t u}, l.task? i = some t → l.task? j = some u → i ≠ j → t.held.Disjoint u.held
  apart : ∀ {i j t u}, l.task? i = some t → l.task? j = some u → i ≠ j → D.apart t.own u.own
  queue : ∀ {i r}, (i, r) ∈ l.queue → ∃ t next, l.task? i = some t ∧ t.prog = .append r next
  nodup : (l.queue.map Prod.fst).Nodup
  ended : ∀ a ∈ l.ended, D.final a l.store

/-- What is asked of the moves of a run: calls keep the contract when they are alone, and what
happens to a task is permitted. -/
def Admissible (D : Discipline W ρ) (l : Loop S V ρ) : LoopMove S V F C ρ → Prop
  | .call p v => (∀ w, D.apart v w) ∧
      ∀ s, D.inv s → D.loc s v ∧ HiveRelay.wp D.logic (.yield p) D.post ⟨s, [], v⟩
  | .change i c => ∀ t, l.task? i = some t → D.permits (t.view l.store) c
  | _ => True

section Sound

variable {l l' : Loop S V ρ} {i : ℕ} {t : Task S V ρ}

theorem Sound.later (hs : D.Sound l) (hi : l.task? i = some t) : D.Later (t.view l.store) (t.view l.store) :=
  ⟨rfl, hs.inv, hs.loc hi, D.rely_refl _⟩

theorem sound_init {s : S.Store} (h : D.inv s) : D.Sound (Loop.init s) :=
  ⟨h, nofun, nofun, nofun, nofun, nofun, nofun, nodup_nil, nofun⟩

/-- A task takes its next turn. -/
theorem Sound.replace (hs : D.Sound l) {o : Option (Task S V ρ)} {m m' : View S V}
    (hi : l.task? i = some t) (hl' : l'.tasks = l.tasks.set i o) (hm : m.store = l.store)
    (hown : m.own = t.own)
    (hheld : ∀ {j u}, l.task? j = some u → j ≠ i → u.held.Disjoint m.held)
    (hafter : D.Harmless m m') (hstore : l'.store = m'.store)
    (hnew : ∀ t', o = some t' → t'.held = m'.held ∧ t'.own = m'.own ∧ Waits t'.prog ∧
      HiveRelay.wp D.logic t'.prog D.post m')
    (hqueue : ∀ {j r}, (j, r) ∈ l'.queue → ∃ u next, l'.task? j = some u ∧ u.prog = .append r next)
    (hnodup : (l'.queue.map Prod.fst).Nodup)
    (hended : ∀ a ∈ l'.ended, a ∈ l.ended ∨ D.final a m'.store) : D.Sound l' := by
  have htask := Loop.task?_set hi hl'
  have hothers : ∀ {j u}, l.task? j = some u → j ≠ i →
      D.loc l'.store u.own ∧ D.rely (u.view l.store) (u.view l'.store) ∧ D.apart m'.own u.own := by
    intro j u hj hji
    rw [hstore]
    refine hafter.other (u.view l.store) hm.symm (hheld hj hji) ?_ (hs.loc hj)
    rw [hown]
    exact hs.apart hi hj (Ne.symm hji)
  have hinv : D.inv l'.store := hstore ▸ hafter.inv
  have hview : ∀ t', o = some t' → t'.view l'.store = m' := by
    intro t' ht'
    obtain ⟨hheld', hown', -⟩ := hnew t' ht'
    unfold Task.view
    rw [hheld', hown', hstore]
  refine ⟨hinv, ?_, ?_, ?_, ?_, ?_, hqueue, hnodup, ?_⟩
  · intro j u hj
    rw [htask] at hj
    split at hj
    · rw [(hnew u hj).2.1, hstore]
      exact hafter.loc
    · rename_i hji
      exact (hothers hj hji).1
  · intro j u hj
    rw [htask] at hj
    split at hj
    · exact (hnew u hj).2.2.1
    · exact hs.waits hj
  · intro j u hj
    rw [htask] at hj
    split at hj
    · rw [hview u hj]
      exact (hnew u hj).2.2.2
    · rename_i hji
      obtain ⟨hloc, hrely, -⟩ := hothers hj hji
      exact wp_later (hs.waits hj) (hs.wp hj) ⟨rfl, hinv, hloc, hrely⟩
  · intro j j' u u' hj hj' hne
    rw [htask] at hj hj'
    split at hj
    · rename_i hji
      have hji' : j' ≠ i := fun h => hne (hji.trans h.symm)
      rw [if_neg hji'] at hj'
      rw [(hnew u hj).1]
      exact fun k hk hk' => hheld hj' hji' hk' (hafter.held k hk)
    · rename_i hji
      split at hj'
      · rw [(hnew u' hj').1]
        exact fun k hk hk' => hheld hj hji hk (hafter.held k hk')
      · exact hs.locks hj hj' hne
  · intro j j' u u' hj hj' hne
    rw [htask] at hj hj'
    split at hj
    · rename_i hji
      have hji' : j' ≠ i := fun h => hne (hji.trans h.symm)
      rw [if_neg hji'] at hj'
      rw [(hnew u hj).2.1]
      exact (hothers hj' hji').2.2
    · rename_i hji
      split at hj'
      · rw [(hnew u' hj').2.1]
        exact D.apart_symm (hothers hj hji).2.2
      · exact hs.apart hj hj' hne
  · intro a ha
    rw [hstore]
    rcases hended a ha with ha | ha
    · refine hafter.final a ?_
      rw [hm]
      exact hs.ended a ha
    · exact ha

theorem Sound.not_mem_queue (hs : D.Sound l) (hi : l.task? i = some t)
    (hprog : ∀ r next, t.prog ≠ .append r next) (r : S.Request) : (i, r) ∉ l.queue := by
  intro hmem
  obtain ⟨u, next, hu, happend⟩ := hs.queue hmem
  rw [hi] at hu
  cases hu
  exact hprog r next happend

theorem Sound.request_eq (hs : D.Sound l) {r r' : S.Request} {next : S.Reply → Prog S ρ}
    (hi : l.task? i = some t) (hprog : t.prog = .append r' next) (hmem : (i, r) ∈ l.queue) :
    r' = r := by
  obtain ⟨u, next', hu, happend⟩ := hs.queue hmem
  rw [hi] at hu
  cases hu
  exact (Prog.append.inj (hprog.symm.trans happend)).1

/-- The queue is served by the same tasks as before when the one that moved on is not in it. -/
theorem Sound.queue_of_ne (hs : D.Sound l) {o : Option (Task S V ρ)} (hi : l.task? i = some t)
    (hl' : l'.tasks = l.tasks.set i o) {j : ℕ} {r : S.Request} (hmem : (j, r) ∈ l.queue)
    (hji : j ≠ i) : ∃ u next, l'.task? j = some u ∧ u.prog = .append r next := by
  obtain ⟨u, next, hu, happend⟩ := hs.queue hmem
  refine ⟨u, next, ?_, happend⟩
  rw [Loop.task?_set hi hl', if_neg hji]
  exact hu

/-- **A task has run.** -/
theorem Sound.land (hs : D.Sound l) {m m' : View S V} {p : Prog S ρ} (hi : l.task? i = some t)
    (hprog : ∀ r next, t.prog ≠ .append r next) (hm : m.store = l.store) (hown : m.own = t.own)
    (hheld : ∀ {j u}, l.task? j = some u → j ≠ i → u.held.Disjoint m.held)
    (hafter : D.Harmless m m') (hwp : HiveRelay.wp D.logic p D.post m')
    (hp : Waits p ∨ ∃ a, p = .ret a) : D.Sound (l.land i (m', p)) := by
  have hqueue := hs.not_mem_queue hi hprog
  have hserved : ∀ {l' : Loop S V ρ} {o : Option (Task S V ρ)}, l'.tasks = l.tasks.set i o →
      ∀ {j r}, (j, r) ∈ l.queue → ∃ u next, l'.task? j = some u ∧ u.prog = .append r next := by
    intro l' o hl' j r hmem
    exact hs.queue_of_ne hi hl' hmem fun h => hqueue r (h ▸ hmem)
  have hwaits : Waits p → ∀ t', some (⟨p, m'.held, m'.own⟩ : Task S V ρ) = some t' →
      t'.held = m'.held ∧ t'.own = m'.own ∧ Waits t'.prog ∧ HiveRelay.wp D.logic t'.prog D.post m' := by
    rintro hw t' ht'
    cases ht'
    exact ⟨rfl, rfl, hw, hwp⟩
  cases p with
  | ret a =>
    refine hs.replace hi rfl hm hown hheld hafter rfl nofun (hserved rfl) hs.nodup ?_
    intro b hb
    rcases mem_append.mp hb with hb | hb
    · exact .inl hb
    · rw [mem_singleton.mp hb]
      exact .inr (D.post_final hwp)
  | yield next | acquire keys next =>
    exact hs.replace hi rfl hm hown hheld hafter rfl (hwaits trivial) (hserved rfl) hs.nodup fun _ => .inl
  | append r next =>
    refine hs.replace hi rfl hm hown hheld hafter rfl (hwaits trivial) ?_ ?_ fun _ => .inl
    · intro j r' hmem
      rcases mem_append.mp hmem with hmem | hmem
      · exact hserved rfl hmem
      · obtain ⟨rfl, rfl⟩ := Prod.mk.inj (mem_singleton.mp hmem)
        exact ⟨_, next, (Loop.task?_set hi rfl j).trans (if_pos rfl), rfl⟩
    · show ((l.queue ++ [(i, r)]).map Prod.fst).Nodup
      rw [map_append, nodup_append]
      refine ⟨hs.nodup, pairwise_singleton _ _, ?_⟩
      rintro j hj j' hj' rfl
      obtain ⟨⟨j₁, r₁⟩, hmem, rfl⟩ := mem_map.mp hj
      rw [map_singleton, mem_singleton] at hj'
      have hsame : j₁ = i := hj'
      exact hqueue r₁ (hsame ▸ hmem)
  | read next | write update next | ask q next | release keys next =>
    exact (hp.elim id fun ⟨_, h⟩ => nomatch h).elim

/-- **A reply is there.** -/
theorem Sound.deliver (hs : D.Sound l) {r : S.Request} {next : S.Reply → Prog S ρ}
    {queue : List (ℕ × S.Request)} {s : S.Store} {reply : S.Reply} (hi : l.task? i = some t)
    (hprog : t.prog = .append r next)
    (hqueue : ∀ {j r'}, (j, r') ∈ queue → (j, r') ∈ l.queue ∧ j ≠ i)
    (hnodup : (queue.map Prod.fst).Nodup)
    (hafter : D.Harmless (t.view l.store) ((t.view l.store).reply W s r reply))
    (hreply : ∀ m', D.Later ((t.view l.store).reply W s r reply) m' → D.Reply (t.view l.store) r reply m') :
    D.Sound ({ l with queue := queue }.deliver W i t r s reply next) := by
  refine hs.replace (m := t.view l.store) hi rfl rfl rfl ?_ hafter rfl ?_ ?_ hnodup fun _ => .inl
  · exact fun hj hji => hs.locks hj hi hji
  · rintro t' ht'
    cases ht'
    refine ⟨rfl, rfl, trivial, fun m' hm' => ?_⟩
    have hwp := hs.wp hi
    rw [hprog] at hwp
    exact hwp.2 reply m' (hreply m' hm')
  · intro j r' hmem
    obtain ⟨hmem', hji⟩ := hqueue hmem
    exact hs.queue_of_ne hi rfl hmem' hji

theorem Sound.call (hs : D.Sound l) {p : Prog S ρ} {v : V} (hapart : ∀ w, D.apart v w)
    (hloc : D.loc l.store v) (hwp : HiveRelay.wp D.logic (.yield p) D.post ⟨l.store, [], v⟩) :
    D.Sound { l with tasks := l.tasks ++ [some ⟨.yield p, [], v⟩] } := by
  have htask : ∀ j, Loop.task? { l with tasks := l.tasks ++ [some ⟨.yield p, [], v⟩] } j =
      if j = l.tasks.length then some ⟨.yield p, [], v⟩ else l.task? j := Loop.task?_append rfl
  refine ⟨hs.inv, ?_, ?_, ?_, ?_, ?_, ?_, hs.nodup, hs.ended⟩
  · intro j u hj
    rw [htask] at hj
    split at hj
    · cases hj
      exact hloc
    · exact hs.loc hj
  · intro j u hj
    rw [htask] at hj
    split at hj
    · cases hj
      trivial
    · exact hs.waits hj
  · intro j u hj
    rw [htask] at hj
    split at hj
    · cases hj
      exact hwp
    · exact hs.wp hj
  · intro j j' u u' hj hj' hne
    rw [htask] at hj hj'
    split at hj
    · cases hj
      exact nofun
    · split at hj'
      · cases hj'
        exact nofun
      · exact hs.locks hj hj' hne
  · intro j j' u u' hj hj' hne
    rw [htask] at hj hj'
    split at hj
    · cases hj
      exact hapart _
    · split at hj'
      · cases hj'
        exact D.apart_symm (hapart _)
      · exact hs.apart hj hj' hne
  · intro j r hmem
    obtain ⟨u, next, hu, happend⟩ := hs.queue hmem
    refine ⟨u, next, ?_, happend⟩
    rw [htask, if_neg (Nat.ne_of_lt (Loop.lt_of_task? hu))]
    exact hu

/-- **One turn.** -/
theorem sound_step {mv : LoopMove S V F C ρ} (hs : D.Sound l) (hok : D.Admissible l mv)
    (h : l.step W mv = some l') : D.Sound l' := by
  cases mv with
  | call p v =>
    cases h
    obtain ⟨hapart, hcall⟩ := hok
    obtain ⟨hloc, hwp⟩ := hcall l.store hs.inv
    exact hs.call hapart hloc hwp
  | turn i oracle =>
    obtain ⟨t, hi, ht⟩ := bind_eq_some_iff.mp h
    have hwp := hs.wp hi
    split at ht
    · rename_i next hprog
      cases ht
      rw [hprog] at hwp
      obtain ⟨hafter, hrest, hp⟩ :=
        wp_exec oracle next 0 (m := t.view l.store) hs.inv (hs.loc hi) (hwp _ (hs.later hi))
      refine hs.land (m := t.view l.store) hi (fun r nx => ?_) rfl rfl ?_ hafter hrest hp
      · rw [hprog]
        exact nofun
      · exact fun hj hji => hs.locks hj hi hji
    · rename_i keys next hprog
      split at ht
      · rename_i hfree
        cases ht
        rw [hprog] at hwp
        have hnone : ∀ k ∈ keys, k ∉ t.held := fun k => hfree (some t) (l.mem_tasks hi) t rfl k
        obtain ⟨hafter, hrest, hp⟩ := wp_exec oracle next 0 (m := (t.view l.store).acquire keys) hs.inv (hs.loc hi)
          (hwp _ ⟨_, hs.later hi, hnone, rfl⟩)
        refine hs.land (m := (t.view l.store).acquire keys) hi (fun r nx => ?_) rfl rfl ?_ hafter hrest hp
        · rw [hprog]
          exact nofun
        · intro j u hj hji k hk hk'
          rcases mem_append.mp hk' with hk' | hk'
          · exact hfree (some u) (l.mem_tasks hj) u rfl k hk' hk
          · exact hs.locks hj hi hji hk hk'
      · exact nomatch ht
    · exact nomatch ht
  | settle f =>
    simp only [Loop.step] at h
    split at h
    · exact nomatch h
    · rename_i i r rest hq
      obtain ⟨t, hi, ht⟩ := bind_eq_some_iff.mp h
      split at ht
      · rename_i r' next hprog
        obtain ⟨⟨s, reply⟩, hsettle, rfl⟩ := map_eq_some_iff.mp ht
        have hmem : (i, r) ∈ l.queue := by
          rw [hq]
          exact mem_cons_self
        obtain rfl : r' = r := hs.request_eq hi hprog hmem
        have hnodup := hs.nodup
        rw [hq, map_cons, nodup_cons] at hnodup
        have hwp := hs.wp hi
        rw [hprog] at hwp
        refine hs.deliver hi hprog ?_ hnodup.2 (harmless_settle hs.inv (hs.loc hi) hwp.1 hsettle) ?_
        · intro j r'' hj
          refine ⟨hq ▸ mem_cons_of_mem _ hj, fun hji => hnodup.1 ?_⟩
          exact hji ▸ mem_map.mpr ⟨_, hj, rfl⟩
        · exact fun m' hm' => ⟨t.view l.store, hs.later hi, .inl ⟨f, s, hsettle, hm'⟩⟩
      · exact nomatch ht
  | eject k =>
    obtain ⟨⟨i, r⟩, hk, hrest⟩ := bind_eq_some_iff.mp h
    obtain ⟨t, hi, ht⟩ := bind_eq_some_iff.mp hrest
    have hmem : (i, r) ∈ l.queue := mem_of_getElem? hk
    split at ht
    · rename_i r' next hprog
      obtain ⟨reply, hreply, rfl⟩ := map_eq_some_iff.mp ht
      obtain rfl : r' = r := hs.request_eq hi hprog hmem
      have hwp := hs.wp hi
      rw [hprog] at hwp
      obtain ⟨hloc, hapart⟩ := D.eject (m := t.view l.store) hs.inv (hs.loc hi) hwp.1 hreply
      refine hs.deliver hi hprog ?_ ?_ (harmless_own hs.inv hloc hapart) ?_
      · intro j r'' hj
        refine ⟨mem_of_mem_eraseIdx hj, fun hji => ?_⟩
        obtain ⟨k', hne, hk'⟩ := mem_eraseIdx_iff_getElem?.mp hj
        have hlt : k' < (l.queue.map Prod.fst).length := by
          rw [length_map]
          exact (List.getElem?_eq_some_iff.mp hk').1
        refine hne ((getElem?_inj hlt hs.nodup).mp ?_)
        rw [getElem?_map, getElem?_map, hk, hk', hji]
        rfl
      · exact hs.nodup.sublist ((eraseIdx_sublist _ _).map _)
      · exact fun m' hm' => ⟨t.view l.store, hs.later hi, .inr ⟨hreply, hm'⟩⟩
    · exact nomatch ht
  | change i c =>
    obtain ⟨t, hi, rfl⟩ := map_eq_some_iff.mp h
    obtain ⟨hloc, hrely, hapart⟩ := D.changed hs.inv (hs.loc hi) (hok t hi)
    refine hs.replace (m := t.view l.store) hi rfl rfl rfl ?_ (harmless_own hs.inv hloc hapart) rfl
      ?_ ?_ hs.nodup fun _ => .inl
    · exact fun hj hji => hs.locks hj hi hji
    · rintro t' ht'
      cases ht'
      have hlater : D.Later (t.view l.store) ((t.view l.store).change W c) :=
        ⟨rfl, hs.inv, hloc, hrely⟩
      have hwaits := hs.waits hi
      have hwp := wp_later hwaits (hs.wp hi) hlater
      exact ⟨rfl, rfl, hwaits, hwp⟩
    · intro j r hmem
      by_cases hji : j = i
      · obtain ⟨u, next, hu, happend⟩ := hs.queue hmem
        rw [hji, hi] at hu
        cases hu
        refine ⟨{ t with own := W.change t.own c }, next, ?_, happend⟩
        exact (Loop.task?_set hi rfl j).trans (if_pos hji)
      · exact hs.queue_of_ne hi rfl hmem hji

/-- What holds once a task has ended holds from any state in which it holds, whether or not a task has
ended there. -/
theorem final_step {mv : LoopMove S V F C ρ} {a : ρ} (hs : D.Sound l) (hok : D.Admissible l mv)
    (h : l.step W mv = some l') (ha : D.final a l.store) : D.final a l'.store := by
  have hmore : D.Sound (l.withEnded [a]) := by
    refine ⟨hs.inv, hs.loc, hs.waits, hs.wp, hs.locks, hs.apart, hs.queue, hs.nodup, ?_⟩
    intro b hb
    rcases mem_cons.mp hb with rfl | hb
    · exact ha
    · exact hs.ended b hb
  have hok' : D.Admissible (l.withEnded [a]) mv := by
    cases mv <;> exact hok
  have hstep : (l.withEnded [a]).step W mv = some (l'.withEnded [a]) := by
    rw [Loop.step_withEnded, h]
    rfl
  exact (sound_step hmore hok' hstep).ended a mem_cons_self

end Sound

end Discipline

end Discipline

end HiveRelay
