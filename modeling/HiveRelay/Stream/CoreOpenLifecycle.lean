import HiveRelay.Core.OpenPersistence
import HiveRelay.Stream.CoreOpenSteps

/-!
# The life of an open record

What holds of every record of the service, and of every record together with the phase of the call
that is opening it, is kept by every step as soon as it is kept by the few that write a record
(`Local`, `Tracked`). With this rule the file settles in which order a record is persisted: as
reserved, as live, as terminal, and what is left out is left out at the end of the list or all
before the terminal call.

There is one way out of this order. The close hook of a session persists that its record is
terminal. It may run while the record's result is being built, and nothing then keeps the call from
persisting the record as reserved. The result is the only thing that a call waits for before it
persists the record and after which it does not ask whether the session is still there.

## Main definitions

* `Tracked` — an invariant of records and phases
* `ResultBeforeClose` — the runs in question

## Main results

* `tracked_step` — the rule for such invariants
* `open_persistence_order` — the order of persistence
-/

namespace HiveRelay.CoreOpen

open List Option
open HiveRelay.Stream (Failure Plane StreamScope PlaneChanges)
open HiveRelay.Core (OpenResult LifecycleState)

variable {B : Type} [DecidableEq B] [Zero B]

/-! ### Invariants of records and phases -/

/-- What the steps that write a record have to keep of a property `R` of records and a property `F`
of records and the phases of the calls that open them. -/
structure Local (cfg : Config B) (ok : Service B → ServiceMove B → Prop)
    (R : Plane B → Record B → Prop) (F : Phase B → Record B → Prop) : Prop where
  later : ∀ {p p' : Plane B} {record record' : Record B}, R p record →
    record'.core = record.core → PlaneChanges cfg.plane p p' → R p' record'
  core : ∀ {phase : Phase B} {record record' : Record B}, F phase record →
    record'.core = record.core → F phase record'
  created : ∀ {p : Plane B} {held : Admitted B} {streamId epoch scope r : ℕ}
    {session : StreamScope B}, p.scopes[scope]? = some session → session.closed = false →
    R p { held.record streamId epoch with scope := some scope } ∧
      F (.building r) { held.record streamId epoch with scope := some scope }
  abandoned : ∀ {p : Plane B} {held : Admitted B} {streamId epoch : ℕ},
    R p ((held.record streamId epoch).persistTerminal "core-open-failed")
  built : ∀ {s : Service B} {call r : ℕ} {record : Record B} {result : OpenResult B},
    ok s (.built call (.ok result)) → s.calls[call]? = some (.building r) →
    s.records[r]? = some record → ResultFrozen cfg record result → R s.plane record →
    F (.building r) record →
    R s.plane ({ record with result := some result }.persist .reserved none) ∧
      F (.reserving r) ({ record with result := some result }.persist .reserved none)
  reserved : ∀ {p : Plane B} {r : ℕ} {record : Record B}, R p record → F (.reserving r) record →
    R p { record with upstreams := record.upstreams + 1 } ∧
      F (.dialing r) { record with upstreams := record.upstreams + 1 }
  dialed : ∀ {p : Plane B} {r scope : ℕ} {record : Record B} {session : StreamScope B},
    record.scope = some scope → p.scopes[scope]? = some session → session.closed = false →
    R p record → F (.dialing r) record →
    R p (record.persist .live none) ∧ F (.activating r) (record.persist .live none)
  closing : ∀ {p : Plane B} {r : ℕ} {record : Record B} {e : Failure}, R p record → F (.closing r e) record
  bare : ∀ {p : Plane B} {record : Record B}, record.scope = none → R p record →
    R p (record.persistTerminal "core-open-failed")
  closeHook : ∀ {p : Plane B} {scope : ℕ} {record : Record B} {session : StreamScope B}
    {reason : String}, record.scope = some scope → p.scopes[scope]? = some session →
    session.closed = true → record.closeHookRun = false → R p record →
    R p (record.onScopeClose reason) ∧ ∀ phase, F phase record → F phase (record.onScopeClose reason)

/-- Every record has the property `R`, and the property `F` with the phase of the one call that is
opening it. -/
structure Tracked (R : Plane B → Record B → Prop) (F : Phase B → Record B → Prop)
    (s : Service B) : Prop where
  exist : OwnedExist s
  unique : ∀ (c c' : ℕ) (phase phase' : Phase B) (r : ℕ), s.calls[c]? = some phase →
    s.calls[c']? = some phase' → phase.owned = some r → phase'.owned = some r → c = c'
  record : ∀ (r : ℕ) (record : Record B), s.records[r]? = some record → R s.plane record
  fits : ∀ (call : ℕ) (phase : Phase B) (r : ℕ) (record : Record B),
    s.calls[call]? = some phase → phase.owned = some r → s.records[r]? = some record →
    F phase record

section Rule

variable {cfg : Config B} {ok : Service B → ServiceMove B → Prop}
  {R : Plane B → Record B → Prop} {F : Phase B → Record B → Prop} {s s₁ : Service B}

theorem Tracked.unchanged (hlocal : Local cfg ok R F) (h : Tracked R F s)
    (hsame : Unchanged cfg s s₁) : Tracked R F s₁ := by
  refine ⟨fun call phase r hcall hown => ?_, fun c c' phase phase' r hc hc' hown hown' => ?_,
    fun r record hr => ?_, fun call phase r record hcall hown hr => ?_⟩
  · rw [hsame.calls] at hcall
    obtain ⟨record, hr⟩ := h.exist call phase r hcall hown
    have hlt : r < s₁.records.length := by
      rw [hsame.length]
      exact (List.getElem?_eq_some_iff.mp hr).1
    exact ⟨_, getElem?_eq_getElem hlt⟩
  · rw [hsame.calls] at hc hc'
    exact h.unique c c' phase phase' r hc hc' hown hown'
  · obtain ⟨record₀, hr₀, hcore⟩ := hsame.record hr
    exact hlocal.later (h.record r record₀ hr₀) hcore hsame.plane
  · rw [hsame.calls] at hcall
    obtain ⟨record₀, hr₀, hcore⟩ := hsame.record hr
    exact hlocal.core (h.fits call phase r record₀ hcall hown hr₀) hcore

omit [DecidableEq B] [Zero B] in
theorem Tracked.release (h : Tracked R F s) {call : ℕ} {phase : Phase B}
    (hfree : phase.owned = none) : Tracked R F (s.setCall call phase) := by
  have hold : ∀ (c : ℕ) (phase' : Phase B) (r : ℕ), (s.setCall call phase).calls[c]? =
      some phase' → phase'.owned = some r → s.calls[c]? = some phase' := by
    intro c phase' r hc hown
    rw [Service.setCall, getElem?_set] at hc
    split at hc
    · split at hc
      · cases hc
        rw [hfree] at hown
        cases hown
      · cases hc
    · exact hc
  refine ⟨fun c phase' r hc hown => h.exist c phase' r (hold c phase' r hc hown) hown,
    fun c c' p p' r hc hc' hown hown' => ?_, h.record, fun c phase' r record hc hown hr => ?_⟩
  · exact h.unique c c' p p' r (hold c p r hc hown) (hold c' p' r hc' hown') hown hown'
  · exact h.fits c phase' r record (hold c phase' r hc hown) hown hr

variable {record : Record B}

theorem Tracked.advance (hlocal : Local cfg ok R F) (h : Tracked R F s) {call r : ℕ}
    {old phase : Phase B} {record' : Record B} (hcall : s.calls[call]? = some old)
    (hold : old.owned = some r) (hphase : phase.owned = some r)
    (hr : s.records[r]? = some record) (hR : R s.plane record') (hF : F phase record')
    (hsame : Unchanged cfg (s.setRecord r record') s₁) :
    Tracked R F (s₁.setCall call phase) := by
  have hlt : r < s.records.length := (List.getElem?_eq_some_iff.mp hr).1
  have hltc : call < s.calls.length := (List.getElem?_eq_some_iff.mp hcall).1
  -- the record of another number is one that was there before
  have hother : ∀ (r₁ : ℕ) (record₁ : Record B), r₁ ≠ r → s₁.records[r₁]? = some record₁ →
      ∃ record₀, s.records[r₁]? = some record₀ ∧ record₁.core = record₀.core := by
    intro r₁ record₁ hne hr₁
    obtain ⟨record₀, hr₀, hcore⟩ := hsame.record hr₁
    rw [Service.setRecord, getElem?_set_ne (Ne.symm hne)] at hr₀
    exact ⟨record₀, hr₀, hcore⟩
  have hself : ∀ record₁, s₁.records[r]? = some record₁ → record₁.core = record'.core := by
    intro record₁ hr₁
    obtain ⟨record₀, hr₀, hcore⟩ := hsame.record hr₁
    rw [Service.setRecord, getElem?_set_self hlt] at hr₀
    rw [hcore, some.inj hr₀]
  -- another call opens another record
  have hcalls : ∀ (c : ℕ) (phase' : Phase B), (s₁.setCall call phase).calls[c]? = some phase' →
      c = call ∧ phase' = phase ∨ c ≠ call ∧ s.calls[c]? = some phase' := by
    intro c phase' hc
    rw [Service.setCall, hsame.calls, Service.setRecord, getElem?_set] at hc
    by_cases heq : call = c
    · rw [if_pos heq, if_pos hltc] at hc
      exact .inl ⟨heq.symm, (some.inj hc).symm⟩
    · rw [if_neg heq] at hc
      exact .inr ⟨Ne.symm heq, hc⟩
  have hdistinct : ∀ (c : ℕ) (phase' : Phase B) (r' : ℕ), c ≠ call → s.calls[c]? = some phase' →
      phase'.owned = some r' → r' ≠ r := by
    rintro c phase' r' hne hc hown rfl
    exact hne (h.unique c call phase' old r' hc hcall hown hold)
  have hlength : s₁.records.length = s.records.length := by
    rw [hsame.length, Service.setRecord, length_set]
  refine ⟨fun c phase' r' hc hown => ?_, fun c c' p p' r' hc hc' hown hown' => ?_,
    fun r' record₁ hr' => ?_, fun c phase' r' record₁ hc hown hr' => ?_⟩
  · have hlt' : r' < s₁.records.length := by
      rw [hlength]
      rcases hcalls c phase' hc with ⟨-, rfl⟩ | ⟨-, hc⟩
      · obtain rfl := mem_unique hphase hown
        exact hlt
      · obtain ⟨record₀, hr₀⟩ := h.exist c phase' r' hc hown
        exact (List.getElem?_eq_some_iff.mp hr₀).1
    exact ⟨_, getElem?_eq_getElem hlt'⟩
  · rcases hcalls c p hc with ⟨rfl, rfl⟩ | ⟨hne, hbefore⟩ <;>
      rcases hcalls c' p' hc' with ⟨rfl, rfl⟩ | ⟨hne', hbefore'⟩
    · rfl
    · obtain rfl := mem_unique hphase hown
      exact absurd rfl (hdistinct c' p' r hne' hbefore' hown')
    · obtain rfl := mem_unique hphase hown'
      exact absurd rfl (hdistinct c p r hne hbefore hown)
    · exact h.unique c c' p p' r' hbefore hbefore' hown hown'
  · by_cases heq : r' = r
    · subst heq
      exact hlocal.later hR (hself record₁ hr') hsame.plane
    · obtain ⟨record₀, hr₀, hcore⟩ := hother r' record₁ heq hr'
      exact hlocal.later (h.record r' record₀ hr₀) hcore hsame.plane
  · rcases hcalls c phase' hc with ⟨rfl, rfl⟩ | ⟨hne, hc⟩
    · obtain rfl := mem_unique hphase hown
      exact hlocal.core hF (hself record₁ hr')
    · obtain ⟨record₀, hr₀, hcore⟩ :=
        hother r' record₁ (hdistinct c phase' r' hne hc hown) hr'
      exact hlocal.core (h.fits c phase' r' record₀ hc hown hr₀) hcore

omit [DecidableEq B] [Zero B] in
theorem Tracked.write (h : Tracked R F s) {r : ℕ} {record' : Record B}
    (hr : s.records[r]? = some record) (hR : R s.plane record')
    (hF : ∀ phase, F phase record → F phase record') : Tracked R F (s.setRecord r record') := by
  have hlt : r < s.records.length := (List.getElem?_eq_some_iff.mp hr).1
  have hrecords : ∀ (r₁ : ℕ) (record₁ : Record B), (s.setRecord r record').records[r₁]? =
      some record₁ → r₁ = r ∧ record₁ = record' ∨ s.records[r₁]? = some record₁ := by
    intro r₁ record₁ hr₁
    rw [Service.setRecord, getElem?_set] at hr₁
    by_cases heq : r = r₁
    · rw [if_pos heq, if_pos hlt] at hr₁
      exact .inl ⟨heq.symm, (some.inj hr₁).symm⟩
    · rw [if_neg heq] at hr₁
      exact .inr hr₁
  refine ⟨fun c phase r₁ hc hown => ?_, h.unique, fun r₁ record₁ hr₁ => ?_, fun c phase r₁ record₁ hc hown hr₁ => ?_⟩
  · obtain ⟨record₀, hr₀⟩ := h.exist c phase r₁ hc hown
    have hlt₁ : r₁ < (s.setRecord r record').records.length := by
      rw [Service.setRecord, length_set]
      exact (List.getElem?_eq_some_iff.mp hr₀).1
    exact ⟨_, getElem?_eq_getElem hlt₁⟩
  · rcases hrecords r₁ record₁ hr₁ with ⟨-, rfl⟩ | hbefore
    · exact hR
    · exact h.record r₁ record₁ hbefore
  · rcases hrecords r₁ record₁ hr₁ with ⟨rfl, rfl⟩ | hbefore
    · exact hF phase (h.fits c phase r₁ record hc hown hr)
    · exact h.fits c phase r₁ record₁ hc hown hbefore

omit [DecidableEq B] [Zero B] in
theorem setRecord_self {r : ℕ} (hr : s.records[r]? = some record) : s.setRecord r record = s := by
  obtain ⟨hlt, rfl⟩ := List.getElem?_eq_some_iff.mp hr
  rw [Service.setRecord, set_getElem_self]

theorem Tracked.create (hlocal : Local cfg ok R F) (h : Tracked R F s) {call : ℕ}
    {old phase : Phase B} (hcall : s.calls[call]? = some old)
    (hphase : phase.owned = some s.records.length) (hR : R s₁.plane record)
    (hF : F phase record) (hsame : Unchanged cfg (s.addRecord record) s₁) :
    Tracked R F (s₁.setCall call phase) := by
  have hltc : call < s.calls.length := (List.getElem?_eq_some_iff.mp hcall).1
  have hrecords : ∀ (r : ℕ) (record₁ : Record B), s₁.records[r]? = some record₁ →
      r = s.records.length ∧ record₁.core = record.core ∨
        ∃ record₀, s.records[r]? = some record₀ ∧ record₁.core = record₀.core := by
    intro r record₁ hr
    obtain ⟨record₀, hr₀, hcore⟩ := hsame.record hr
    have hr₀ : (s.records ++ [record])[r]? = some record₀ := hr₀
    by_cases hlt : r < s.records.length
    · rw [getElem?_append_left hlt] at hr₀
      exact .inr ⟨record₀, hr₀, hcore⟩
    · have hlen := (List.getElem?_eq_some_iff.mp hr₀).1
      rw [length_append, length_singleton] at hlen
      obtain rfl : r = s.records.length := by omega
      rw [getElem?_concat_length] at hr₀
      rw [some.inj hr₀]
      exact .inl ⟨rfl, hcore⟩
  have hcalls : ∀ (c : ℕ) (phase' : Phase B), (s₁.setCall call phase).calls[c]? = some phase' →
      c = call ∧ phase' = phase ∨ c ≠ call ∧ s.calls[c]? = some phase' := by
    intro c phase' hc
    rw [Service.setCall, hsame.calls, Service.addRecord, getElem?_set] at hc
    by_cases heq : call = c
    · rw [if_pos heq, if_pos hltc] at hc
      exact .inl ⟨heq.symm, (some.inj hc).symm⟩
    · rw [if_neg heq] at hc
      exact .inr ⟨Ne.symm heq, hc⟩
  -- the number of the new record is the number of no record before
  have hless : ∀ (c : ℕ) (phase' : Phase B) (r : ℕ), s.calls[c]? = some phase' →
      phase'.owned = some r → r < s.records.length := by
    intro c phase' r hc hown
    obtain ⟨record₀, hr₀⟩ := h.exist c phase' r hc hown
    exact (List.getElem?_eq_some_iff.mp hr₀).1
  have hlength : s₁.records.length = s.records.length + 1 := by
    rw [hsame.length, Service.addRecord, length_append, length_singleton]
  refine ⟨fun c phase' r hc hown => ?_, fun c c' p p' r hc hc' hown hown' => ?_,
    fun r record₁ hr => ?_, fun c phase' r record₁ hc hown hr => ?_⟩
  · have hlt : r < s₁.records.length := by
      rcases hcalls c phase' hc with ⟨-, rfl⟩ | ⟨-, hbefore⟩
      · have heq := mem_unique hphase hown
        omega
      · have hlt := hless c phase' r hbefore hown
        omega
    exact ⟨_, getElem?_eq_getElem hlt⟩
  · rcases hcalls c p hc with ⟨rfl, rfl⟩ | ⟨hne, hbefore⟩ <;>
      rcases hcalls c' p' hc' with ⟨rfl, rfl⟩ | ⟨hne', hbefore'⟩
    · rfl
    · have heq := mem_unique hphase hown
      have hlt := hless c' p' r hbefore' hown'
      omega
    · have heq := mem_unique hphase hown'
      have hlt := hless c p r hbefore hown
      omega
    · exact h.unique c c' p p' r hbefore hbefore' hown hown'
  · rcases hrecords r record₁ hr with ⟨-, hcore⟩ | ⟨record₀, hr₀, hcore⟩
    · exact hlocal.later hR hcore .refl
    · exact hlocal.later (h.record r record₀ hr₀) hcore hsame.plane
  · rcases hcalls c phase' hc with ⟨-, rfl⟩ | ⟨-, hbefore⟩
    · rcases hrecords r record₁ hr with ⟨-, hcore⟩ | ⟨record₀, hr₀, -⟩
      · exact hlocal.core hF hcore
      · have heq := mem_unique hphase hown
        have hlt := (List.getElem?_eq_some_iff.mp hr₀).1
        omega
    · have hlt := hless c phase' r hbefore hown
      rcases hrecords r record₁ hr with ⟨heq, -⟩ | ⟨record₀, hr₀, hcore⟩
      · omega
      · exact hlocal.core (h.fits c phase' r record₀ hbefore hown hr₀) hcore

/-- **The rule**: an invariant of records and phases is kept by every step. -/
theorem tracked_step (hlocal : Local cfg ok R F) {m : ServiceMove B} {s' : Service B}
    (h : Tracked R F s) (hok : ok s m) (hstep : serviceStep cfg s m = some s') :
    Tracked R F s' := by
  cases serviceStep_change h.exist hstep with
  | quiet hsame => exact h.unchanged hlocal hsame
  | begins hfree =>
    rename_i phase
    have hold : ∀ (c : ℕ) (phase' : Phase B) (r : ℕ), (s.calls ++ [phase])[c]? = some phase' →
        phase'.owned = some r → s.calls[c]? = some phase' := by
      intro c phase' r hc hown
      rw [getElem?_append] at hc
      split at hc
      · exact hc
      · rw [getElem?_singleton] at hc
        split at hc
        · cases hc
          rw [hfree] at hown
          cases hown
        · cases hc
    refine ⟨fun c phase' r hc hown => h.exist c phase' r (hold c phase' r hc hown) hown,
      fun c c' p p' r hc hc' hown hown' => ?_, h.record, fun c phase' r record hc hown hr => ?_⟩
    · exact h.unique c c' p p' r (hold c p r hc hown) (hold c' p' r hc' hown') hown hown'
    · exact h.fits c phase' r record (hold c phase' r hc hown) hown hr
  | proceeds _ _ hfree hsame => exact (h.unchanged hlocal hsame).release hfree
  | created hcall _ hsame hsession hopen =>
    obtain ⟨hR, hF⟩ := hlocal.created hsession hopen
    exact h.create hlocal hcall rfl hR hF hsame
  | abandoned hcall _ hsame =>
    exact h.create hlocal hcall rfl hlocal.abandoned (hlocal.closing (p := s.plane) hlocal.abandoned) hsame
  | built hcall hr hfrozen =>
    obtain ⟨hR, hF⟩ := hlocal.built hok hcall hr hfrozen (h.record _ _ hr) (h.fits _ _ _ _ hcall rfl hr)
    exact h.advance hlocal hcall rfl rfl hr hR hF (.refl _)
  | reserved hcall hr hsame =>
    obtain ⟨hR, hF⟩ := hlocal.reserved (h.record _ _ hr) (h.fits _ _ _ _ hcall rfl hr)
    exact h.advance hlocal hcall rfl rfl hr hR hF hsame
  | dialed hcall hr hscope hsession hopen hsame =>
    obtain ⟨hR, hF⟩ := hlocal.dialed hscope hsession hopen (h.record _ _ hr) (h.fits _ _ _ _ hcall rfl hr)
    exact h.advance hlocal hcall rfl rfl hr hR hF hsame
  | finishes _ _ hfree hsame => exact (h.unchanged hlocal hsame).release hfree
  | caught hcall hold hr hscope hsame =>
    exact h.advance hlocal hcall hold rfl hr (h.record _ _ hr) (hlocal.closing (h.record _ _ hr))
      ((setRecord_self hr).symm ▸ hsame)
  | caughtBare hcall hold hr hscope hsame =>
    have hR := hlocal.bare hscope (h.record _ _ hr)
    exact h.advance hlocal hcall hold rfl hr hR (hlocal.closing hR) hsame
  | closeHook hr hscope hsession hclosed hrun =>
    obtain ⟨hR, hF⟩ := hlocal.closeHook hscope hsession hclosed hrun (h.record _ _ hr)
    exact h.write hr hR hF

end Rule

/-! ### The order of the persistence calls -/

/-- The states that a record was to be persisted in. -/
def Record.states (record : Record B) : List LifecycleState :=
  record.calls.map PersistCall.state

/-- The record was to be persisted in the states of a list, and perhaps then as terminal. -/
def Record.Persisted (record : Record B) (states : List LifecycleState) : Prop :=
  record.states = states ∧ record.terminalPersisted = false ∨
    record.states = states ++ [.terminal] ∧ record.terminalPersisted = true

/-- What holds of a record at any time. -/
structure Lifecycle (p : Plane B) (record : Record B) : Prop where
  states : record.Persisted [] ∨ record.Persisted [.reserved] ∨ record.Persisted [.reserved, .live] ∨
    -- a record of an earlier run
    record.states = [] ∧ record.terminalPersisted = true
  closed : record.terminalPersisted = true → ∀ scope, record.scope = some scope →
    ∃ session, p.scopes[scope]? = some session ∧ session.closed = true

/-- What holds of a record that a call is opening. -/
def Phase.Persisted : Phase B → Record B → Prop
  | .building _, record =>
    record.Persisted [] ∧ record.terminalPersisted = record.closeHookRun
  | .reserving _, record | .dialing _, record => record.Persisted [.reserved]
  | .activating _, record => record.Persisted [.reserved, .live]
  | _, _ => True

/-- The record whose result a phase awaits. -/
def Phase.building? : Phase B → Option ℕ
  | .building r => some r
  | _ => none

/-- A result that is accepted is there before the close hook of the session has run. -/
def ResultBeforeClose (cfg : Config B) (s : Service B) (m : ServiceMove B) : Prop :=
  match m with
  | .built call (.ok result) => ∀ phase ∈ s.calls[call]?, ∀ r ∈ phase.building?,
      ∀ record ∈ s.records[r]?, ResultFrozen cfg record result → record.closeHookRun = false
  | _ => True

instance (cfg : Config B) (s : Service B) : (m : ServiceMove B) → Decidable (ResultBeforeClose cfg s m)
  | .built call (.ok result) => inferInstanceAs (Decidable (∀ phase ∈ s.calls[call]?,
      ∀ r ∈ phase.building?, ∀ record ∈ s.records[r]?, ResultFrozen cfg record result → record.closeHookRun = false))
  | .built _ (.error _) | .openCall .. | .authenticated .. | .admitted .. | .allocated ..
  | .timed .. | .reserved .. | .dialed .. | .activated .. | .closed .. | .closeHook ..
  | .terminalFailed | .attach .. | .plane .. => isTrue trivial

section Lifecycle

variable {cfg : Config B} {p p' : Plane B} {record record' : Record B}
  {states : List LifecycleState}

omit [DecidableEq B] [Zero B] in
theorem Record.Persisted.core (h : record.Persisted states) (hcore : record'.core = record.core) :
    record'.Persisted states := by
  have hstates : record'.states = record.states :=
    Record.core_congr Record.states (fun _ => rfl) hcore
  have hflag : record'.terminalPersisted = record.terminalPersisted :=
    Record.core_congr Record.terminalPersisted (fun _ => rfl) hcore
  unfold Record.Persisted
  rw [hstates, hflag]
  exact h

omit [DecidableEq B] [Zero B] in
theorem states_persist (state : LifecycleState) (reason : Option String) :
    (record.persist state reason).states = record.states ++ [state] := by
  simp [Record.states, Record.persist]

omit [DecidableEq B] [Zero B] in
theorem Record.Persisted.persist (h : record.Persisted states)
    (hflag : record.terminalPersisted = false) (state : LifecycleState) (reason : Option String) :
    (record.persist state reason).Persisted (states ++ [state]) := by
  rcases h with ⟨hstates, -⟩ | ⟨-, htrue⟩
  · exact .inl ⟨by rw [states_persist, hstates], hflag⟩
  · rw [hflag] at htrue
    cases htrue

omit [DecidableEq B] [Zero B] in
theorem Record.Persisted.persistTerminal (h : record.Persisted states) (reason : String) :
    (record.persistTerminal reason).Persisted states := by
  unfold Record.persistTerminal
  rcases h with ⟨hstates, hflag⟩ | ⟨hstates, hflag⟩
  · rw [hflag, if_neg (by decide)]
    refine .inr ⟨?_, rfl⟩
    rw [states_persist]
    exact congrArg (· ++ [.terminal]) hstates
  · rw [hflag, if_pos rfl]
    exact .inr ⟨hstates, hflag⟩

omit [DecidableEq B] [Zero B] in
theorem terminalPersisted_persistTerminal (reason : String) :
    (record.persistTerminal reason).terminalPersisted = true := by
  unfold Record.persistTerminal
  split
  · assumption
  · rfl

omit [DecidableEq B] [Zero B] in
theorem scope_persistTerminal (reason : String) : (record.persistTerminal reason).scope = record.scope := by
  unfold Record.persistTerminal
  split <;> rfl

omit [DecidableEq B] [Zero B] in
theorem Record.Persisted.onScopeClose (h : record.Persisted states) (reason : String) :
    (record.onScopeClose reason).Persisted states := by
  unfold Record.onScopeClose
  apply Record.Persisted.persistTerminal
  exact h

omit [DecidableEq B] [Zero B] in
theorem closeHookRun_onScopeClose (reason : String) : (record.onScopeClose reason).closeHookRun = true := by
  unfold Record.onScopeClose Record.persistTerminal
  split <;> rfl

omit [DecidableEq B] [Zero B] in
theorem Lifecycle.persistTerminal (h : Lifecycle p record) (reason : String)
    (hclosed : ∀ scope, record.scope = some scope →
      ∃ session, p.scopes[scope]? = some session ∧ session.closed = true) :
    Lifecycle p (record.persistTerminal reason) := by
  refine ⟨?_, fun _ scope hscope => hclosed scope ((scope_persistTerminal reason).symm.trans hscope)⟩
  rcases h.states with h | h | h | ⟨hstates, hflag⟩
  · exact .inl (h.persistTerminal reason)
  · exact .inr (.inl (h.persistTerminal reason))
  · exact .inr (.inr (.inl (h.persistTerminal reason)))
  · refine .inr (.inr (.inr ?_))
    unfold Record.persistTerminal
    rw [hflag, if_pos rfl]
    exact ⟨hstates, hflag⟩

/-- **The order is kept** by the steps that write a record. -/
theorem lifecycle_local (cfg : Config B) : Local cfg (ResultBeforeClose cfg) Lifecycle Phase.Persisted where
  later := by
    intro p p' record record' h hcore hplane
    have hstates : record'.states = record.states :=
      Record.core_congr Record.states (fun _ => rfl) hcore
    have hflag : record'.terminalPersisted = record.terminalPersisted :=
      Record.core_congr Record.terminalPersisted (fun _ => rfl) hcore
    have hscope : record'.scope = record.scope :=
      Record.core_congr Record.scope (fun _ => rfl) hcore
    refine ⟨?_, fun htrue scope hscope' => ?_⟩
    · rcases h.states with h | h | h | h
      · exact .inl (h.core hcore)
      · exact .inr (.inl (h.core hcore))
      · exact .inr (.inr (.inl (h.core hcore)))
      · rw [← hstates, ← hflag] at h
        exact .inr (.inr (.inr h))
    · rw [hflag] at htrue
      rw [hscope] at hscope'
      obtain ⟨session, hsession, hclosed⟩ := h.closed htrue scope hscope'
      obtain ⟨session', hsession', hlater⟩ :=
        (Stream.planeLater_of_changes hplane).scope scope session hsession
      exact ⟨session', hsession', hlater.closed hclosed⟩
  core := by
    intro phase record record' h hcore
    cases phase with
    | building r =>
      have hflag : record'.terminalPersisted = record.terminalPersisted :=
        Record.core_congr Record.terminalPersisted (fun _ => rfl) hcore
      have hhook : record'.closeHookRun = record.closeHookRun :=
        Record.core_congr Record.closeHookRun (fun _ => rfl) hcore
      exact ⟨h.1.core hcore, by rw [hflag, hhook, h.2]⟩
    | reserving r | dialing r | activating r => exact Record.Persisted.core h hcore
    | _ => trivial
  created := by
    intro p held streamId epoch scope r session hsession hopen
    exact ⟨⟨.inl (.inl ⟨rfl, rfl⟩), nofun⟩, .inl ⟨rfl, rfl⟩, rfl⟩
  abandoned := by
    intro p held streamId epoch
    have hnew : Lifecycle p (held.record streamId epoch) := ⟨.inl (.inl ⟨rfl, rfl⟩), nofun⟩
    exact hnew.persistTerminal _ nofun
  built := by
    intro s call r record result hok hcall hr hfrozen hR hF
    have hhook : record.closeHookRun = false := hok _ hcall r rfl record hr hfrozen
    have hflag : record.terminalPersisted = false := hF.2.trans hhook
    have hbefore : Record.Persisted { record with result := some result } [] := hF.1
    have hnext := hbefore.persist hflag .reserved none
    exact ⟨⟨.inr (.inl hnext), fun htrue => absurd (hflag.symm.trans htrue) nofun⟩, hnext⟩
  reserved := by
    intro p r record hR hF
    exact ⟨⟨hR.states, hR.closed⟩, hF⟩
  dialed := by
    intro p r scope record session hscope hsession hopen hR hF
    have hflag : record.terminalPersisted = false := by
      by_contra htrue
      obtain ⟨session', hsession', hclosed⟩ :=
        hR.closed (Bool.eq_true_of_not_eq_false htrue) scope hscope
      obtain rfl := mem_unique hsession hsession'
      rw [hopen] at hclosed
      cases hclosed
    have hnext := Record.Persisted.persist hF hflag .live none
    exact ⟨⟨.inr (.inr (.inl hnext)), fun htrue => absurd (hflag.symm.trans htrue) nofun⟩, hnext⟩
  closing := fun _ => trivial
  bare := by
    intro p record hscope hR
    refine hR.persistTerminal _ fun scope hsome => ?_
    rw [hscope] at hsome
    cases hsome
  closeHook := by
    intro p scope record session reason hscope hsession hclosed hrun hR
    refine ⟨?_, fun phase hF => ?_⟩
    · have hended : Lifecycle p
          { record with
            status := .terminal
            terminalReason := some reason
            closeHookRun := true } := ⟨hR.states, hR.closed⟩
      refine hended.persistTerminal reason fun scope' hscope' => ?_
      obtain rfl := mem_unique hscope hscope'
      exact ⟨session, hsession, hclosed⟩
    · cases phase with
      | building r =>
        refine ⟨hF.1.onScopeClose reason, ?_⟩
        rw [closeHookRun_onScopeClose, Record.onScopeClose, terminalPersisted_persistTerminal]
      | reserving r | dialing r | activating r => exact Record.Persisted.onScopeClose hF reason
      | _ => trivial

end Lifecycle

/-! ### Records of an earlier run -/

variable {cfg : Config B}

omit [Zero B] in
/-- What holds of a service without records, and is kept by the loop that restores them, holds of a
service as it is constructed. -/
theorem restored_invariant {plane : Plane B} {recovered : List (Recovered B)}
    {s : Service B} (h : restoreRecoveredRecords cfg plane recovered = .ok s)
    (P : Service B → Prop) (hempty : P (.empty plane))
    (hstep : ∀ s record s', P s → restoreRecord cfg s record = .ok s' → P s') : P s := by
  suffices hfold : ∀ (l : List (Recovered B)) (s₀ : Service B), P s₀ →
      l.foldlM (restoreRecord cfg) s₀ = .ok s → P s from hfold recovered _ hempty h
  intro l
  induction l with
  | nil =>
    intro s₀ hs₀ hfold
    exact Except.ok.inj hfold ▸ hs₀
  | cons record l ih =>
    intro s₀ hs₀ hfold
    rw [foldlM_cons, Except.bind_eq_ok] at hfold
    obtain ⟨s₁, hs₁, hrest⟩ := hfold
    exact ih s₁ (hstep s₀ record s₁ hs₀ hs₁) hrest

omit [Zero B] in
theorem restoreRecord_eq_ok {s s' : Service B} {recovered : Recovered B}
    (h : restoreRecord cfg s recovered = .ok s') :
    s.recordsByLogical.get? recovered.record.logicalKey = none ∧
      s.recordsBySpend.get? recovered.record.spendKey = none ∧
      s.controlChannels.get? recovered.record.channelKey = none ∧
      s.recordsByLogical.size < cfg.maxRecords ∧ s.addRecord recovered.record = s' := by
  simp only [restoreRecord, guards_eq_ok, OrderedMap.has_eq_false_iff] at h
  obtain ⟨-, -, -, ⟨hlogical, hspend, hchannel, hsize⟩, -, hs'⟩ := h
  exact ⟨hlogical, hspend, hchannel, hsize, hs'⟩

omit [Zero B] in
theorem tracked_restored {plane : Plane B} {recovered : List (Recovered B)}
    {s : Service B} {R : Plane B → Record B → Prop} {F : Phase B → Record B → Prop}
    (h : restoreRecoveredRecords cfg plane recovered = .ok s)
    (hR : ∀ (p : Plane B) (recovered : Recovered B), R p recovered.record) : Tracked R F s := by
  have hinv : s.calls = [] ∧ ∀ (r : ℕ) (record : Record B), s.records[r]? = some record → R s.plane record := by
    refine restored_invariant h (fun s => s.calls = [] ∧ ∀ (r : ℕ) (record : Record B),
      s.records[r]? = some record → R s.plane record) ⟨rfl, fun r record hr => nomatch hr⟩ ?_
    rintro s recovered s' ⟨hcalls, hrecords⟩ hstep
    obtain ⟨-, -, -, -, rfl⟩ := restoreRecord_eq_ok hstep
    refine ⟨hcalls, fun r record hr => ?_⟩
    have hr : (s.records ++ [recovered.record])[r]? = some record := hr
    rw [getElem?_append] at hr
    split at hr
    · exact hrecords r record hr
    · rw [getElem?_singleton] at hr
      split at hr
      · cases hr
        exact hR _ recovered
      · cases hr
  have hnone : ∀ (c : ℕ) (phase : Phase B), s.calls[c]? ≠ some phase := by
    intro c phase hc
    rw [hinv.1] at hc
    cases hc
  exact ⟨fun c phase _ hc => absurd hc (hnone c phase), fun c _ phase _ _ hc => absurd hc (hnone c phase), hinv.2,
    fun c phase _ _ hc => absurd hc (hnone c phase)⟩

/-! ### The frames of a record -/

/-- `_persistentRecord`, at a call of a persistence hook. -/
def Record.input (record : Record B) (call : PersistCall B) : Core.OpenInput B :=
  let limits := (Core.coreSessionClass record.request.sessionClass).getD (0, 0, 0)
  { record with
    logicalRetryKey := record.logicalKey
    spendTag := record.spendKey
    wireProfileHash := record.request.wireProfileHash
    sessionClass := record.request.sessionClass
    clientNonce := record.request.clientNonce
    parentSessionId := record.parent
    controlChannelId := record.request.controlChannelId
    parentChannelBinding := record.request.parentChannelBinding
    maxSessionBytes := limits.1
    idleMillis := limits.2.1
    lifetimeMillis := limits.2.2
    result := call.result
    terminalReason := call.terminalReason }

/-- The sequences of states in which a record is persisted. -/
def openSequences : List (List LifecycleState) :=
  [[], [.reserved], [.reserved, .terminal], [.reserved, .live], [.reserved, .live, .terminal], [.terminal]]

omit [DecidableEq B] [Zero B] in
theorem Lifecycle.mem_openSequences {p : Plane B} {record : Record B} (h : Lifecycle p record) :
    record.states ∈ openSequences := by
  rcases h.states with (⟨h, -⟩ | ⟨h, -⟩) | (⟨h, -⟩ | ⟨h, -⟩) | (⟨h, -⟩ | ⟨h, -⟩) | ⟨h, -⟩ <;>
    rw [h] <;> decide

theorem openSequences_pairwise {states : List LifecycleState} (h : states ∈ openSequences) :
    states.Pairwise LifecycleState.Allows := by
  simp only [openSequences, mem_cons, not_mem_nil, or_false] at h
  rcases h with rfl | rfl | rfl | rfl | rfl | rfl <;> decide

/-- **The order in which an open record is persisted.** In every run in which a result is there
before the close hook of its session runs, a record is persisted as reserved, then as live, then as
terminal, or the last or the last two of these are missing, or it is only persisted as terminal; and
an engine that has no frame of the record's logical key and spend applies every frame that these
calls make durable. -/
theorem open_persistence_order {B : Type} [LinearOrder B] [Zero B] {cfg : Config B}
    {plane : Plane B} {recovered : List (Recovered B)} {s₀ s : Service B} {moves : List (ServiceMove B)}
    (hrestore : restoreRecoveredRecords cfg plane recovered = .ok s₀)
    (hrun : run (serviceStep cfg) s₀ moves = some s)
    (hmeets : RunMeets (serviceStep cfg) (ResultBeforeClose cfg) s₀ moves)
    {r : ℕ} {record : Record B} (hr : s.records[r]? = some record) :
    record.states ∈ openSequences ∧
      ∀ (engine : Core.Config B) (frames : List (Core.Frame B × Bool)) (e : Core.State B)
        (numbered : List (PersistCall B × ℕ)),
        run (Core.frameStep engine) .initial frames = some e →
        e.openRecords.get? record.logicalKey = none →
        e.openSpendIndex.get? record.spendKey = none →
        (∀ a ∈ record.preparedAdmission, a.spendTag = record.spendKey) →
        numbered.map Prod.fst = record.calls →
        ∃ e', run (Core.persistStep engine) e
          (numbered.map fun c => ((record.input c.1, c.1.state), c.2)) = some e' := by
  have hstart : Tracked Lifecycle Phase.Persisted s₀ :=
    tracked_restored hrestore fun p recovered => ⟨.inr (.inr (.inr ⟨rfl, rfl⟩)), nofun⟩
  have hend : Tracked Lifecycle Phase.Persisted s :=
    run_invariant _ _ (fun s m s' h hok hstep => tracked_step (lifecycle_local cfg) h hok hstep) hstart hmeets hrun
  have hsequence := (hend.record r record hr).mem_openSequences
  refine ⟨hsequence, fun engine frames e numbered hframes hlogical hspend hadmission hcalls => ?_⟩
  have hfresh : Core.PersistedAs e record.logicalKey record.spendKey record.requestCommitment
      none := by
    refine ⟨Core.openSpendsIndexed_run hframes, fun p hp => ?_, fun hsome => ?_, fun key hkey => ?_⟩
    · rw [hlogical] at hp
      cases hp
    · rw [hspend] at hsome
      cases hsome
    · rw [hspend] at hkey
      cases hkey
  refine Core.persist_pairwise hfresh ?_ (nofun) ?_
  · intro call hcall
    obtain ⟨c, -, rfl⟩ := mem_map.mp hcall
    exact ⟨rfl, rfl, rfl, hadmission⟩
  · have hstates : (numbered.map fun c => ((record.input c.1, c.1.state), c.2)).map
        (fun call => call.1.2) = record.states := by
      rw [Record.states, ← hcalls, List.map_map, List.map_map]
      rfl
    rw [hstates]
    exact openSequences_pairwise hsequence

/-! ### A call -/

section Sample

/-- A service with the plane `Stream.samplePlane`; the hashes add up what they hash. -/
def sampleConfig : Config ℕ where
  plane := Stream.samplePlane
  relayPublicKey := 1
  wireProfileHash := 7
  maxRecords := 2
  coreOpenReplicationRequestCommitment r := 100 * r.clientNonce + r.controlChannelId
  coreOpenReplicationLogicalRetryKey r := 100 + r.clientNonce

def sampleRequest (channel nonce : ℕ) : OpenRequest ℕ where
  wireProfileHash := 7
  sessionClass := 1
  controlChannelId := channel
  parentChannelBinding := 4
  clientNonce := nonce

/-- A clock that stands still, and a plane that is ready. -/
def sampleInputs : ResponseInputs ℕ where
  poll := ⟨some 10, true⟩
  now := some 10
  ticket := ⟨⟨some 10, true⟩, some 10, [78]⟩

/-- The call of a request, up to its record. -/
def sampleOpening (call channel nonce spendTag streamId : ℕ) : List (ServiceMove ℕ) :=
  [.openCall (sampleRequest channel nonce) true, .authenticated call (.ok (some
      { verified := true
        authenticatedExporter := true
        computedParentChannelBinding := 4
        controlChannelId := channel
        parentSessionId := 6
        readiness := some ⟨1, 7, 400⟩ })) sampleInputs,
    .admitted call (.ok (some
      { accepted := true
        spendTag := spendTag
        preparedAdmission :=
          Core.sampleAdmission spendTag (100 * nonce + channel) 1 0 })) sampleInputs,
    .allocated call (.ok streamId),
    .timed call (.ok 5) (some 10) (some 10)]

def sampleResult (channel nonce streamId : ℕ) : OpenResult ℕ where
  relayBinding := Core.sampleBinding
  wireProfileHash := 7
  sessionClass := 1
  controlChannelId := channel
  parentChannelBinding := 4
  streamId := streamId
  maxSessionBytes := 16 * 1024 * 1024
  idleMillis := 30000
  lifetimeMillis := 600000
  openedAtEpoch := 5
  requestNonce := nonce
  requestCommitment := 100 * nonce + channel
  signature := 64

/-- A call that is opened, and whose session is closed afterwards. -/
def sampleLife : List (ServiceMove ℕ) :=
  sampleOpening 0 3 5 21 9 ++
    [.built 0 (.ok (sampleResult 3 5 9)), .reserved 0 (.ok ()), .dialed 0 (.ok true) ⟨some 10, true⟩,
      .activated 0 (.ok ()) ⟨⟨some 10, true⟩, some 10, [77]⟩ (some 10) sampleInputs,
      .plane (.closeScope 0 "done"), .closeHook 0]

/-- A call whose session is fenced while its result is being built. -/
def sampleFenced : List (ServiceMove ℕ) :=
  sampleOpening 0 3 5 21 9 ++ [.plane (.fence ⟨none, none, none⟩), .closeHook 0, .built 0 (.ok (sampleResult 3 5 9))]

/-- The service after a run from its construction. -/
def sampleService (moves : List (ServiceMove ℕ)) : Option (Service ℕ) :=
  run (serviceStep sampleConfig) (.empty (Plane.new ℕ)) moves

/-- The frames of the calls for the first record, in an engine without frames. -/
def samplePersisted (record : Record ℕ) : Option (Core.State ℕ) :=
  run (Core.persistStep Core.sampleConfig) .initial
    (record.calls.zipIdx.map fun c => ((record.input c.1, c.1.state), c.2))

def sampleRecord (moves : List (ServiceMove ℕ)) : Option (Record ℕ) :=
  (sampleService moves).bind fun s => s.records[0]?

theorem open_persistence_order_sample : ∃ record, sampleRecord sampleLife = some record ∧
      record.states = [.reserved, .live, .terminal] ∧ record.states ∈ openSequences ∧
      ∃ e, samplePersisted record = some e := by
  have hsome : (sampleRecord sampleLife).isSome = true := by decide +kernel
  obtain ⟨record, hrecord⟩ := isSome_iff_exists.mp hsome
  obtain ⟨s, hs, hr⟩ := bind_eq_some_iff.mp hrecord
  have hfacts : (sampleRecord sampleLife).all fun record =>
      record.states = [.reserved, .live, .terminal] ∧ record.logicalKey = 105 ∧
        record.spendKey = 21 ∧ ∀ a ∈ record.preparedAdmission, a.spendTag = 21 := by
    decide +kernel
  rw [hrecord, all_some, decide_eq_true_eq] at hfacts
  obtain ⟨hstates, hlogical, hspend, hadmission⟩ := hfacts
  have hrestore : restoreRecoveredRecords sampleConfig (Plane.new ℕ) [] = .ok (.empty (Plane.new ℕ)) := rfl
  obtain ⟨hsequence, hframes⟩ :=
    open_persistence_order hrestore hs (by decide +kernel) hr
  refine ⟨record, hrecord, hstates, hsequence, ?_⟩
  refine hframes Core.sampleConfig [] .initial record.calls.zipIdx rfl rfl rfl ?_ ?_
  · rw [hspend]
    exact hadmission
  · exact zipIdx_map_fst 0 record.calls

/-- **A terminal record is persisted as reserved**: the session is fenced while the result is being
built, its close hook persists the record as terminal, and when the result is there the call
persists it as reserved. The frame becomes durable, and the engine does not apply it. -/
theorem fenced_open_reserves_after_terminal :
    ∃ record, sampleRecord sampleFenced = some record ∧ record.states = [.terminal, .reserved] ∧
      record.states ∉ openSequences ∧ samplePersisted record = none := by
  have hsome : (sampleRecord sampleFenced).isSome = true := by decide +kernel
  obtain ⟨record, hrecord⟩ := isSome_iff_exists.mp hsome
  have hfacts : (sampleRecord sampleFenced).all fun record =>
      record.states = [.terminal, .reserved] ∧ (samplePersisted record).isNone := by
    decide +kernel
  rw [hrecord, all_some, decide_eq_true_eq] at hfacts
  obtain ⟨hstates, hnone⟩ := hfacts
  refine ⟨record, hrecord, hstates, ?_, isNone_iff_eq_none.mp hnone⟩
  rw [hstates]
  decide

end Sample

end HiveRelay.CoreOpen
