import HiveRelay.Stream.CoreOpen

/-!
# The steps of an open call

Most of what a call does leaves the records as they are, apart from their status and their tickets:
the checks before there is a record, the answers to retries, everything that is done with the plane.
This file says so once (`Unchanged`, `Tame`), and then what each step of the service comes to
(`Change`). Later files read their invariants off `Change` and never open the methods again.
-/

namespace HiveRelay.CoreOpen

open List Option Act
open HiveRelay.Stream (Failure failure Plane PlaneOp Look Readiness StreamScope PlaneChanges Keeps
  familyCore sliceReason)
open HiveRelay.Core (OpenResult)

variable {B : Type} [DecidableEq B]

/-- The record that a phase is opening. -/
def Phase.owned : Phase B → Option ℕ
  | .building r | .reserving r | .dialing r | .activating r | .closing r _ => some r
  | _ => none

/-- A record without its status and its ticket. -/
def Record.core (record : Record B) : Record B where
  __ := record
  status := .reserving
  terminalReason := none
  child := none
  ticket := none
  ticketIssuedMonotonicMillis := none

variable {record' : Record B}

omit [DecidableEq B] in
theorem Record.core_congr {α : Type} (f : Record B → α) (hf : ∀ record, f record.core = f record)
    {record : Record B} (h : record'.core = record.core) : f record' = f record := by
  rw [← hf, h, hf]

/-- The same records, indexes and calls, and a later plane. -/
structure Unchanged (cfg : Config B) (s s' : Service B) : Prop where
  records : s'.records.map Record.core = s.records.map Record.core
  recordsByLogical : s'.recordsByLogical = s.recordsByLogical
  recordsBySpend : s'.recordsBySpend = s.recordsBySpend
  controlChannels : s'.controlChannels = s.controlChannels
  calls : s'.calls = s.calls
  plane : PlaneChanges cfg.plane s.plane s'.plane

variable {r : ℕ}

section Unchanged

variable {cfg : Config B} {s s₁ s₂ s' : Service B}

theorem Unchanged.refl (s : Service B) : Unchanged cfg s s := ⟨rfl, rfl, rfl, rfl, rfl, .refl⟩

theorem Unchanged.length (h : Unchanged cfg s s') : s'.records.length = s.records.length := by
  have hlength := congrArg List.length h.records
  rwa [length_map, length_map] at hlength

theorem Unchanged.record (h : Unchanged cfg s s') (hr : s'.records[r]? = some record') :
    ∃ record, s.records[r]? = some record ∧ record'.core = record.core := by
  have hcore : (s.records.map Record.core)[r]? = some record'.core := by
    rw [← h.records, getElem?_map, hr, map_some]
  rw [getElem?_map, map_eq_some_iff] at hcore
  obtain ⟨record, hrecord, heq⟩ := hcore
  exact ⟨record, hrecord, heq.symm⟩

theorem Unchanged.setRecord (h : Unchanged cfg s s') {record : Record B}
    (hr : s'.records[r]? = some record) (hcore : record'.core = record.core) :
    Unchanged cfg s (s'.setRecord r record') := by
  refine ⟨?_, h.recordsByLogical, h.recordsBySpend, h.controlChannels, h.calls, h.plane⟩
  rw [← h.records, Service.setRecord, map_set, hcore]
  have hself : (s'.records.map Record.core)[r]? = some record.core := by
    rw [getElem?_map, hr, map_some]
  obtain ⟨hlt, heq⟩ := List.getElem?_eq_some_iff.mp hself
  rw [← heq, set_getElem_self]

theorem Unchanged.onPlane (h : Unchanged cfg s s') {p : Plane B}
    (hp : PlaneChanges cfg.plane s'.plane p) : Unchanged cfg s { s' with plane := p } :=
  ⟨h.records, h.recordsByLogical, h.recordsBySpend, h.controlChannels, h.calls, h.plane.trans hp⟩

end Unchanged

/-! ### Methods that leave the records as they are -/

section Tame

variable {α β : Type} {cfg : Config B}

/-- A method that leaves the records as they are. -/
def Tame (cfg : Config B) (x : ServiceOp B α) : Prop :=
  ∀ s, Act.Spec (Unchanged cfg s) x fun _ => Unchanged cfg s

variable {x : ServiceOp B α}

theorem Tame.at (h : Tame cfg x) (s : Service B) : Unchanged cfg s (x s).2 :=
  h s s (.refl s)

theorem tame_pure (a : α) : Tame cfg (pure a : ServiceOp B α) := fun _ => spec_pure fun _ h => h

theorem tame_throw (e : Failure) : Tame cfg (Act.throw e : ServiceOp B α) :=
  fun _ => spec_throw fun _ h => h

theorem tame_ofExcept (x : Except Failure α) : Tame cfg (Act.ofExcept x : ServiceOp B α) :=
  fun _ _ h => h

theorem tame_get : Tame cfg (Act.get : ServiceOp B (Service B)) := fun _ _ h => h

theorem tame_bind {f : α → ServiceOp B β} (hx : Tame cfg x) (hf : ∀ a, Tame cfg (f a)) : Tame cfg (x >>= f) :=
  fun s => spec_bind (hx s) (fun a => hf a s) fun _ _ h => h

theorem tame_ite {c : Prop} [Decidable c] {y : ServiceOp B α} (hx : Tame cfg x)
    (hy : Tame cfg y) : Tame cfg (if c then x else y) :=
  fun s => spec_ite (fun _ => hx s) fun _ => hy s

theorem tame_onPlane {x : PlaneOp B α} (hx : Keeps cfg.plane x) : Tame cfg (onPlane x) :=
  fun _ s' h => h.onPlane (hx.at s'.plane)

theorem tame_recordOf (r : ℕ) : Tame cfg (recordOf r : ServiceOp B (Record B)) :=
  fun _ _ h => h

omit [DecidableEq B] in
theorem recordOf_eq {s : Service B} {record : Record B} (hr : s.records[r]? = some record) :
    recordOf r s = (.ok record, s) := by
  show ((demand s.records[r]? _ : Except Failure _), s) = _
  rw [hr]
  rfl

omit [DecidableEq B] in
theorem assign_eq {s : Service B} {record : Record B} {f : Record B → Record B}
    (hr : s.records[r]? = some record) : assign r f s = (.ok (), s.setRecord r (f record)) := by
  unfold assign
  rw [bind_of_ok (recordOf_eq hr)]
  rfl

theorem tame_assign {f : Record B → Record B} (hf : ∀ record, (f record).core = record.core) :
    Tame cfg (assign r f) := by
  intro s s' h
  cases hr : s'.records[r]? with
  | none =>
    have hthrow : recordOf r s' = (.error (failure .typeError "record of another service"), s') := by
      show ((demand s'.records[r]? _ : Except Failure _), s') = _
      rw [hr]
      rfl
    unfold assign
    rw [bind_of_error hthrow]
    exact h
  | some record =>
    rw [assign_eq hr]
    exact h.setRecord hr (hf record)

theorem drawn_fresh (inputs : TicketInputs B) (p : Plane B) : ∀ t ∈ inputs.drawn p, p.tickets.get? t = none := by
  intro t ht
  have hfound := find?_some ht
  simpa using hfound

theorem tame_issueTicket (record : Record B) (scope : ℕ) (inputs : TicketInputs B) :
    Tame cfg (issueTicket cfg record scope inputs) :=
  fun _ s' h => h.onPlane (Stream.keepsAt_issueTicket (drawn_fresh inputs s'.plane))

theorem tame_refreshTicket (r : ℕ) (inputs : ResponseInputs B) : Tame cfg (refreshTicket cfg r inputs) := by
  refine tame_bind (tame_recordOf r) fun record => tame_ite (tame_pure ()) ?_
  refine tame_bind (tame_ofExcept _) fun now => ?_
  cases record.scope with
  | none => exact tame_throw _
  | some scope =>
    refine tame_ite ?_ (tame_pure ())
    refine tame_bind (tame_onPlane (Stream.keeps_scopeOf scope)) fun s => ?_
    refine tame_bind (tame_onPlane (Stream.keeps_revokeScope _)) fun _ => ?_
    exact tame_bind (tame_issueTicket record scope _) fun token => tame_assign fun _ => rfl

theorem tame_response (r : ℕ) (retried : Bool) (inputs : ResponseInputs B) :
    Tame cfg (response cfg r retried inputs) :=
  tame_bind (tame_refreshTicket r inputs) fun _ => tame_bind (tame_recordOf r) fun _ => tame_pure _

theorem tame_retry (r : ℕ) (request : OpenRequest B) (commitment parent : B)
    (inputs : ResponseInputs B) : Tame cfg (retry cfg r request commitment parent inputs) := by
  refine tame_bind (tame_recordOf r) fun record => tame_bind (tame_ofExcept _) fun _ => ?_
  refine tame_bind (tame_ofExcept _) fun _ => tame_ite (tame_pure _) ?_
  refine tame_bind (tame_ofExcept _) fun _ => tame_bind (tame_ofExcept _) fun scope => ?_
  refine tame_bind (tame_onPlane (Stream.keeps_pollScope scope _)) fun _ => ?_
  refine tame_bind (tame_ofExcept _) fun _ => ?_
  exact tame_bind (tame_response r true inputs) fun _ => tame_pure _

theorem tame_allocated (held : Admitted B) (answer : Except Failure ℕ) : Tame cfg (allocated held answer) := by
  refine tame_bind (tame_ofExcept _) fun _ => tame_bind (tame_ofExcept _) fun _ => ?_
  exact tame_bind (tame_ofExcept _) fun _ => tame_pure _

theorem tame_attach (token : B) (expected : Stream.TicketBinding B) (port : Bool)
    (reading : Option ℕ) (look again : Look) :
    Tame cfg (attach cfg token expected port reading look again) := by
  refine tame_bind (tame_onPlane (Stream.keeps_consumeTicket _ _ _ _)) fun scope => ?_
  refine tame_bind (tame_onPlane (Stream.keeps_scopeOf scope)) fun session => ?_
  refine tame_bind tame_get fun s => tame_bind (tame_ofExcept _) fun r => ?_
  refine tame_bind (tame_recordOf r) fun record => tame_bind (tame_ofExcept _) fun _ => ?_
  refine tame_bind (tame_ofExcept _) fun scope => ?_
  refine tame_bind (tame_onPlane (Stream.keeps_assertActive scope again)) fun _ => ?_
  refine tame_bind (tame_ofExcept _) fun _ => tame_bind (tame_ofExcept _) fun _ => ?_
  exact tame_assign fun _ => rfl

variable [Zero B]

theorem tame_authenticated (request : OpenRequest B)
    (answer : Except Failure (Option (ParentAuth B))) (inputs : ResponseInputs B) :
    Tame cfg (authenticated cfg request answer inputs) := by
  refine tame_bind (tame_ofExcept _) fun auth => tame_bind (tame_ofExcept _) fun auth => ?_
  refine tame_bind (tame_ofExcept _) fun _ => tame_bind (tame_ofExcept _) fun channel => ?_
  refine tame_bind (tame_ofExcept _) fun _ => tame_bind (tame_ofExcept _) fun _ => ?_
  refine tame_bind tame_get fun s => ?_
  split
  · exact tame_retry _ _ _ _ _
  · exact tame_bind (tame_ofExcept _) fun _ => tame_pure _

theorem tame_admitted (prepared : Prepared B) (answer : Except Failure (Option (Admission B)))
    (inputs : ResponseInputs B) : Tame cfg (admitted cfg prepared answer inputs) := by
  refine tame_bind (tame_ofExcept _) fun admission => tame_bind (tame_ofExcept _) fun admission => ?_
  refine tame_bind (tame_ofExcept _) fun _ => tame_bind (tame_ofExcept _) fun _ => ?_
  refine tame_bind tame_get fun s => ?_
  split
  · exact tame_retry _ _ _ _ _
  · refine tame_bind (tame_ofExcept _) fun _ => tame_bind (tame_ofExcept _) fun _ => ?_
    exact tame_pure _

end Tame

/-! ### The phases before and after a record -/

variable {x : ServiceOp B (Phase B)}

section Free

variable {α : Type} {cfg : Config B}

/-- A method whose phases open no record. -/
def Free (x : ServiceOp B (Phase B)) : Prop :=
  ∀ s phase s', x s = (.ok phase, s') → phase.owned = none

omit [DecidableEq B] in
theorem free_pure {phase : Phase B} (h : phase.owned = none) : Free (pure phase) := by
  intro s phase' s' hrun
  obtain rfl : phase = phase' := Except.ok.inj (Prod.mk.inj hrun).1
  exact h

omit [DecidableEq B] in
theorem free_bind {x : ServiceOp B α} {f : α → ServiceOp B (Phase B)} (hf : ∀ a, Free (f a)) : Free (x >>= f) := by
  intro s phase s' hrun
  obtain ⟨a, s₁, -, hrest⟩ := Act.bind_eq_ok hrun
  exact hf a s₁ phase s' hrest

omit [DecidableEq B] in
theorem free_ite {c : Prop} [Decidable c] {y : ServiceOp B (Phase B)} (hx : Free x)
    (hy : Free y) : Free (if c then x else y) := by
  split
  · exact hx
  · exact hy

theorem free_retry (r : ℕ) (request : OpenRequest B) (commitment parent : B)
    (inputs : ResponseInputs B) : Free (retry cfg r request commitment parent inputs) := by
  refine free_bind fun record => free_bind fun _ => free_bind fun _ => free_ite (free_pure rfl) ?_
  refine free_bind fun _ => free_bind fun _ => free_bind fun _ => free_bind fun _ => ?_
  exact free_bind fun _ => free_pure rfl

omit [DecidableEq B] in
theorem free_allocated (held : Admitted B) (answer : Except Failure ℕ) : Free (allocated held answer) :=
  free_bind fun _ => free_bind fun _ => free_bind fun _ => free_pure rfl

theorem free_activated (r : ℕ) (answer : Except Failure Unit) (ticket : TicketInputs B)
    (issued : Option ℕ) (inputs : ResponseInputs B) :
    Free (activated cfg r answer ticket issued inputs) := by
  refine free_bind fun _ => free_bind fun _ => free_bind fun _ => free_bind fun _ => ?_
  exact free_bind fun _ => free_bind fun _ => free_bind fun _ => free_pure rfl

theorem tame_activated (r : ℕ) (answer : Except Failure Unit) (ticket : TicketInputs B)
    (issued : Option ℕ) (inputs : ResponseInputs B) :
    Tame cfg (activated cfg r answer ticket issued inputs) := by
  refine tame_bind (tame_ofExcept _) fun _ => tame_bind (tame_assign fun _ => rfl) fun _ => ?_
  refine tame_bind (tame_recordOf r) fun record => tame_bind (tame_ofExcept _) fun scope => ?_
  refine tame_bind (tame_issueTicket record scope ticket) fun token => ?_
  refine tame_bind (tame_assign fun _ => rfl) fun _ => ?_
  exact tame_bind (tame_response r false inputs) fun _ => tame_pure _

variable [Zero B]

theorem free_openCall (request : OpenRequest B) (nativeTransport : Bool) :
    Free (openCall cfg request nativeTransport) := by
  refine free_bind fun _ => free_bind fun _ => free_bind fun _ => free_bind fun _ => ?_
  exact free_bind fun _ => free_pure rfl

theorem openCall_state (cfg : Config B) (request : OpenRequest B) (nativeTransport : Bool) (s : Service B) :
    (openCall cfg request nativeTransport s).2 = s := by
  have hspec : Act.Spec (· = s) (openCall cfg request nativeTransport) fun _ s' => s' = s := by
    refine spec_get_bind fun s' hs' => ?_
    subst hs'
    refine (spec_ofExcept_bind (fun _ _ => ?_) fun _ _ h => h : Act.Spec (· = s') _ fun _ s'' => s'' = s') s' rfl
    refine spec_ofExcept_bind (fun _ _ => ?_) fun _ _ h => h
    refine spec_ofExcept_bind (fun _ _ => ?_) fun _ _ h => h
    refine spec_ofExcept_bind (fun _ _ => ?_) fun _ _ h => h
    exact spec_pure fun _ h => h
  exact hspec s rfl

theorem free_authenticated (request : OpenRequest B)
    (answer : Except Failure (Option (ParentAuth B))) (inputs : ResponseInputs B) :
    Free (authenticated cfg request answer inputs) := by
  refine free_bind fun _ => free_bind fun _ => free_bind fun _ => free_bind fun _ => ?_
  refine free_bind fun _ => free_bind fun _ => free_bind fun s => ?_
  split
  · exact free_retry _ _ _ _ _
  · exact free_bind fun _ => free_pure rfl

theorem free_admitted (prepared : Prepared B) (answer : Except Failure (Option (Admission B)))
    (inputs : ResponseInputs B) : Free (admitted cfg prepared answer inputs) := by
  refine free_bind fun _ => free_bind fun _ => free_bind fun _ => free_bind fun _ => ?_
  refine free_bind fun s => ?_
  split
  · exact free_retry _ _ _ _ _
  · exact free_bind fun _ => free_bind fun _ => free_pure rfl

end Free

/-! ### The methods that write a record -/

section Writes

variable (cfg : Config B) {s s' : Service B} {r : ℕ} {record : Record B}

theorem createScope_cases (hr : s.records[r]? = some record) (readiness : Option (Readiness B))
    (reading again : Option ℕ) :
    (∃ e, (createScope cfg r readiness reading again s).1 = .error e ∧
        Unchanged cfg s (createScope cfg r readiness reading again s).2) ∨
      ∃ scope, (createScope cfg r readiness reading again s).1 = .ok (.building r) ∧
        Unchanged cfg (s.setRecord r { record with scope := some scope })
          (createScope cfg r readiness reading again s).2 ∧
        ∃ session, (createScope cfg r readiness reading again s).2.plane.scopes[scope]? =
          some session ∧ session.closed = false := by
  unfold createScope
  rw [bind_of_ok (recordOf_eq hr)]
  have hkeeps : PlaneChanges cfg.plane s.plane (Stream.createSession cfg.plane
      (sessionOptions cfg record readiness) reading again s.plane).2 :=
    (Stream.keeps_createSession _ _ _).at s.plane
  cases hx : Stream.createSession cfg.plane (sessionOptions cfg record readiness) reading again s.plane with
  | mk result p' =>
    rw [hx] at hkeeps
    cases result with
    | error e =>
      have hcall : onPlane (Stream.createSession cfg.plane (sessionOptions cfg record readiness)
          reading again) s = (.error e, { s with plane := p' }) := by
        unfold onPlane
        rw [hx]
      rw [bind_of_error hcall]
      exact .inl ⟨e, rfl, (Unchanged.refl s).onPlane hkeeps⟩
    | ok scope =>
      have hcall : onPlane (Stream.createSession cfg.plane (sessionOptions cfg record readiness)
          reading again) s = (.ok scope, { s with plane := p' }) := by
        unfold onPlane
        rw [hx]
      rw [bind_of_ok hcall]
      have hr' : ({ s with plane := p' } : Service B).records[r]? = some record := hr
      rw [bind_of_ok (assign_eq hr')]
      refine .inr ⟨scope, rfl, ⟨rfl, rfl, rfl, rfl, rfl, hkeeps⟩, Stream.createSession_open hx⟩

theorem timed_cases (held : Admitted B) (streamId : ℕ) (answer : Except Failure ℕ) :
    (∃ e, timed held streamId answer s = (.error e, s)) ∨
      ∃ epoch, answer = .ok epoch ∧ epoch ≤ Cell.maxU32 ∧ timed held streamId answer s =
        (.ok s.records.length, s.addRecord (held.record streamId epoch)) := by
  unfold timed
  cases answer with
  | error e => exact .inl ⟨e, rfl⟩
  | ok epoch =>
    rw [ofExcept_bind_of_ok rfl]
    by_cases hrange : epoch ≤ Cell.maxU32
    · have hu32 : u32 epoch "openedAtEpoch" = .ok epoch := by
        rw [u32, require_of hrange]
        rfl
      rw [ofExcept_bind_of_ok hu32]
      exact .inr ⟨epoch, rfl, hrange, rfl⟩
    · have hu32 : u32 epoch "openedAtEpoch" =
          .error (failure .badEncoding ("openedAtEpoch" ++ " is outside u32")) := by
        rw [u32, require_of_not hrange]
        rfl
      rw [ofExcept_bind_of_error hu32]
      exact .inl ⟨_, rfl⟩

theorem reserved_cases (hr : s.records[r]? = some record) (answer : Except Failure Unit) :
    (∃ e, reserved r answer s = (.error e, s)) ∨ (reserved r answer s).1 = .ok (.dialing r) ∧
        Unchanged cfg (s.setRecord r { record with upstreams := record.upstreams + 1 }) (reserved r answer s).2 := by
  unfold reserved
  cases answer with
  | error e => exact .inl ⟨e, rfl⟩
  | ok u =>
    have hlt : r < s.records.length := (List.getElem?_eq_some_iff.mp hr).1
    rw [ofExcept_bind_of_ok rfl, bind_of_ok (assign_eq hr)]
    have hr' : (s.setRecord r { record with status := .reserved }).records[r]? =
        some { record with status := .reserved } := by
      rw [Service.setRecord, getElem?_set_self hlt]
    rw [bind_of_ok (assign_eq hr')]
    refine .inr ⟨rfl, ?_, rfl, rfl, rfl, rfl, .refl⟩
    show ((s.records.set r _).set r _).map Record.core = (s.records.set r _).map Record.core
    rw [set_set, map_set, map_set]
    rfl

theorem dialed_cases (hr : s.records[r]? = some record) (answer : Except Failure Bool) (look : Look) :
    (∃ e, (dialed r answer look s).1 = .error e ∧ Unchanged cfg s (dialed r answer look s).2) ∨
      (dialed r answer look s).1 = .ok (.activating r) ∧
        Unchanged cfg (s.setRecord r (record.persist .live none)) (dialed r answer look s).2 ∧
        ∃ scope session, record.scope = some scope ∧ s.plane.scopes[scope]? = some session ∧
          session.closed = false := by
  unfold dialed
  cases answer with
  | error e => exact .inl ⟨e, rfl, .refl s⟩
  | ok port =>
    rw [ofExcept_bind_of_ok rfl, bind_of_ok (recordOf_eq hr)]
    cases hscope : record.scope with
    | none => exact .inl ⟨_, rfl, .refl s⟩
    | some scope =>
      rw [ofExcept_bind_of_ok (demand_eq_ok.mpr rfl)]
      have hchecked := Stream.spec_assertActive scope look s.plane s.plane rfl
      cases hx : Stream.assertActive scope look s.plane with
      | mk result p' =>
        have hkeeps : PlaneChanges cfg.plane s.plane (Stream.assertActive scope look s.plane).2 :=
          (Stream.keeps_assertActive scope look).at s.plane
        rw [hx] at hkeeps
        rw [hx] at hchecked
        cases result with
        | error e =>
          have hcall : onPlane (Stream.assertActive scope look) s = (.error e, { s with plane := p' }) := by
            unfold onPlane
            rw [hx]
          rw [bind_of_error hcall]
          exact .inl ⟨e, rfl, (Unchanged.refl s).onPlane hkeeps⟩
        | ok now =>
          obtain ⟨rfl, session, hsession, hopen⟩ := hchecked
          have hcall : onPlane (Stream.assertActive scope look) s = (.ok now, s) := by
            unfold onPlane
            rw [hx]
          rw [bind_of_ok hcall]
          by_cases hport : port = true
          · rw [ofExcept_bind_of_ok (require_of hport)]
            have hlt : r < s.records.length := (List.getElem?_eq_some_iff.mp hr).1
            rw [bind_of_ok (assign_eq hr)]
            have hr' : (s.setRecord r { record with child := some false }).records[r]? =
                some { record with child := some false } := by
              rw [Service.setRecord, getElem?_set_self hlt]
            rw [bind_of_ok (assign_eq hr')]
            refine .inr ⟨rfl, ⟨?_, rfl, rfl, rfl, rfl, .refl⟩, scope, session, rfl, hsession, hopen⟩
            show ((s.records.set r _).set r _).map Record.core = (s.records.set r _).map Record.core
            rw [set_set, map_set, map_set]
            rfl
          · rw [ofExcept_bind_of_error (require_of_not hport)]
            exact .inl ⟨_, rfl, .refl s⟩

theorem built_cases [Zero B] (hr : s.records[r]? = some record) (answer : Except Failure (OpenResult B)) :
    (∃ e, built cfg r answer s = (.error e, s)) ∨ ∃ result, answer = .ok result ∧ ResultFrozen cfg record result ∧
        built cfg r answer s = (.ok (.reserving r),
          s.setRecord r ({ record with result := some result }.persist .reserved none)) := by
  unfold built
  rw [bind_of_ok (recordOf_eq hr)]
  cases answer with
  | error e => exact .inl ⟨e, rfl⟩
  | ok result =>
    rw [ofExcept_bind_of_ok rfl]
    by_cases hfrozen : ResultFrozen cfg record result
    · rw [ofExcept_bind_of_ok (require_of hfrozen)]
      have hlt : r < s.records.length := (List.getElem?_eq_some_iff.mp hr).1
      rw [bind_of_ok (assign_eq hr)]
      have hr' : (s.setRecord r { record with result := some result }).records[r]? =
          some { record with result := some result } := by
        rw [Service.setRecord, getElem?_set_self hlt]
      rw [bind_of_ok (assign_eq hr')]
      refine .inr ⟨result, rfl, hfrozen, ?_⟩
      show (Except.ok (Phase.reserving r), (s.setRecord r _).setRecord r _) = _
      rw [Service.setRecord, Service.setRecord, set_set]
      rfl
    · rw [ofExcept_bind_of_error (require_of_not hfrozen)]
      exact .inl ⟨_, rfl⟩

end Writes

/-! ### The `catch` block -/

section Caught

variable {cfg : Config B} {s s' : Service B} {r : ℕ} {record : Record B}

omit [DecidableEq B] in
theorem core_persistTerminal (record : Record B) (reason : String) :
    (record.persistTerminal reason).core = record.core.persistTerminal reason := by
  have hflag : record.core.terminalPersisted = record.terminalPersisted := rfl
  unfold Record.persistTerminal
  rw [hflag]
  split <;> rfl

theorem Unchanged.setRecord_congr (h : Unchanged cfg s s') (hcore : record'.core = record.core) :
    Unchanged cfg (s.setRecord r record) (s'.setRecord r record') := by
  refine ⟨?_, h.recordsByLogical, h.recordsBySpend, h.controlChannels, h.calls, h.plane⟩
  show (s'.records.set r record').map Record.core = (s.records.set r record).map Record.core
  rw [map_set, map_set, h.records, hcore]

/-- The `catch` block closes the scope of the record, and where it has none persists that the record
is terminal. -/
theorem caught_cases (h : Unchanged cfg s s') (hr : s.records[r]? = some record) (call : ℕ) (e : Failure) :
    (record.scope ≠ none ∧ ∃ s₁, Unchanged cfg s s₁ ∧ s'.caught call r e = s₁.setCall call (.closing r e)) ∨
      (record.scope = none ∧ ∃ s₁, Unchanged cfg (s.setRecord r (record.persistTerminal "core-open-failed")) s₁ ∧
        s'.caught call r e = s₁.setCall call (.closing r e)) := by
  have hlt : r < s'.records.length := by
    rw [h.length]
    exact (List.getElem?_eq_some_iff.mp hr).1
  obtain ⟨record', hr'⟩ : ∃ record', s'.records[r]? = some record' :=
    ⟨_, getElem?_eq_getElem hlt⟩
  obtain ⟨record₀, hr₀, hcore⟩ := h.record hr'
  obtain rfl : record = record₀ := mem_unique hr hr₀
  have hscope : record'.scope = record.scope :=
    Record.core_congr Record.scope (fun _ => rfl) hcore
  unfold Service.caught
  rw [hr']
  cases hcase : record.scope with
  | some scope =>
    simp only [hscope, hcase]
    have hset : Unchanged cfg s (s'.setRecord r (record'.failed e)) := h.setRecord hr' rfl
    exact .inl ⟨nofun, _, hset.onPlane (Stream.changes_closeScope .refl scope _), rfl⟩
  | none =>
    simp only [hscope, hcase]
    refine .inr ⟨trivial, _, h.setRecord_congr ?_, rfl⟩
    rw [core_persistTerminal, core_persistTerminal, ← hcore]
    rfl

end Caught

/-! ### Every step -/

inductive Change [Zero B] (cfg : Config B) (s : Service B) : ServiceMove B → Service B → Prop
  /-- The records are left as they are. -/
  | quiet {m : ServiceMove B} {s' : Service B} (h : Unchanged cfg s s') : Change cfg s m s'
  /-- A call begins. -/
  | begins {m : ServiceMove B} {phase : Phase B} (hfree : phase.owned = none) :
    Change cfg s m { s with calls := s.calls ++ [phase] }
  /-- A call that has no record goes on without one. -/
  | proceeds {m : ServiceMove B} {s₁ : Service B} {call : ℕ} {old phase : Phase B}
    (hcall : s.calls[call]? = some old) (hold : old.owned = none) (hfree : phase.owned = none)
    (h : Unchanged cfg s s₁) : Change cfg s m (s₁.setCall call phase)
  /-- A record is created, with a session. -/
  | created {s₁ : Service B} {call : ℕ} {held : Admitted B} {streamId epoch scope : ℕ}
    {reading again : Option ℕ} {session : StreamScope B}
    (hcall : s.calls[call]? = some (.timing held streamId)) (hrange : epoch ≤ Cell.maxU32)
    (h : Unchanged cfg (s.addRecord { held.record streamId epoch with scope := some scope }) s₁)
    (hsession : s₁.plane.scopes[scope]? = some session) (hopen : session.closed = false) :
    Change cfg s (.timed call (.ok epoch) reading again) (s₁.setCall call (.building s.records.length))
  /-- A record is created, and there is no session for it. -/
  | abandoned {s₁ : Service B} {call : ℕ} {held : Admitted B} {streamId epoch : ℕ}
    {reading again : Option ℕ} {e : Failure}
    (hcall : s.calls[call]? = some (.timing held streamId)) (hrange : epoch ≤ Cell.maxU32)
    (h : Unchanged cfg (s.addRecord ((held.record streamId epoch).persistTerminal "core-open-failed")) s₁) :
    Change cfg s (.timed call (.ok epoch) reading again) (s₁.setCall call (.closing s.records.length e))
  /-- The result of a record is there, and the record is to be persisted as reserved. -/
  | built {call r : ℕ} {record : Record B} {result : OpenResult B}
    (hcall : s.calls[call]? = some (.building r)) (hr : s.records[r]? = some record)
    (hfrozen : ResultFrozen cfg record result) :
    Change cfg s (.built call (.ok result))
      ((s.setRecord r ({ record with result := some result }.persist .reserved none)).setCall call (.reserving r))
  /-- The record is reserved, and upstream is dialled. -/
  | reserved {m : ServiceMove B} {s₁ : Service B} {call r : ℕ} {record : Record B}
    (hcall : s.calls[call]? = some (.reserving r)) (hr : s.records[r]? = some record)
    (h : Unchanged cfg (s.setRecord r { record with upstreams := record.upstreams + 1 }) s₁) :
    Change cfg s m (s₁.setCall call (.dialing r))
  /-- Upstream has answered while the session was open, and the record is to be persisted as
  live. -/
  | dialed {m : ServiceMove B} {s₁ : Service B} {call r scope : ℕ} {record : Record B}
    {session : StreamScope B} (hcall : s.calls[call]? = some (.dialing r))
    (hr : s.records[r]? = some record) (hscope : record.scope = some scope)
    (hsession : s.plane.scopes[scope]? = some session) (hopen : session.closed = false)
    (h : Unchanged cfg (s.setRecord r (record.persist .live none)) s₁) :
    Change cfg s m (s₁.setCall call (.activating r))
  /-- A call ends. -/
  | finishes {m : ServiceMove B} {s₁ : Service B} {call r : ℕ} {old phase : Phase B}
    (hcall : s.calls[call]? = some old) (hold : old.owned = some r) (hfree : phase.owned = none)
    (h : Unchanged cfg s s₁) : Change cfg s m (s₁.setCall call phase)
  /-- A call fails whose record has a session. -/
  | caught {m : ServiceMove B} {s₁ : Service B} {call r : ℕ} {old : Phase B} {record : Record B}
    {e : Failure} (hcall : s.calls[call]? = some old) (hold : old.owned = some r)
    (hr : s.records[r]? = some record) (hscope : record.scope ≠ none) (h : Unchanged cfg s s₁) :
    Change cfg s m (s₁.setCall call (.closing r e))
  /-- A call fails whose record has none. -/
  | caughtBare {m : ServiceMove B} {s₁ : Service B} {call r : ℕ} {old : Phase B}
    {record : Record B} {e : Failure} (hcall : s.calls[call]? = some old)
    (hold : old.owned = some r) (hr : s.records[r]? = some record) (hscope : record.scope = none)
    (h : Unchanged cfg (s.setRecord r (record.persistTerminal "core-open-failed")) s₁) :
    Change cfg s m (s₁.setCall call (.closing r e))
  /-- The close hook of the session of a record runs. -/
  | closeHook {r scope : ℕ} {record : Record B} {session : StreamScope B}
    (hr : s.records[r]? = some record) (hscope : record.scope = some scope)
    (hsession : s.plane.scopes[scope]? = some session) (hclosed : session.closed = true)
    (hrun : record.closeHookRun = false) :
    Change cfg s (.closeHook r) (s.setRecord r (record.onScopeClose (session.closeReason.getD "closed")))

section Steps

variable [Zero B] {cfg : Config B} {s s' : Service B}

/-- The records that calls are opening are there. -/
def OwnedExist (s : Service B) : Prop :=
  ∀ (call : ℕ) (phase : Phase B) (r : ℕ), s.calls[call]? = some phase → phase.owned = some r →
    ∃ record, s.records[r]? = some record

variable {call : ℕ}

omit [DecidableEq B] [Zero B] in
theorem proceedWith_of_ok {phase : Phase B}
    (h : x s = (.ok phase, s')) : s.proceedWith call r x = s'.setCall call phase := by
  unfold Service.proceedWith
  rw [h]

omit [DecidableEq B] [Zero B] in
theorem proceedWith_of_error {e : Failure}
    (h : x s = (.error e, s')) : s.proceedWith call r x = s'.caught call r e := by
  unfold Service.proceedWith
  rw [h]

variable {m : ServiceMove B}

theorem change_proceed {old : Phase B}
    (hcall : s.calls[call]? = some old) (hold : old.owned = none) (htame : Tame cfg x)
    (hfree : Free x) : Change cfg s m (s.proceed call x) := by
  have hsame := htame.at s
  unfold Service.proceed
  cases hx : x s with
  | mk result s₁ =>
    rw [hx] at hsame
    cases result with
    | ok phase => exact .proceeds hcall hold (hfree s phase s₁ hx) hsame
    | error e => exact .proceeds hcall hold rfl hsame

theorem change_caught {old : Phase B} {record : Record B}
    (hcall : s.calls[call]? = some old) (hold : old.owned = some r)
    (hr : s.records[r]? = some record) {s₁ : Service B} (h : Unchanged cfg s s₁) (e : Failure) :
    Change cfg s m (s₁.caught call r e) := by
  rcases caught_cases h hr call e with ⟨hscope, s₂, hs₂, heq⟩ | ⟨hscope, s₂, hs₂, heq⟩
  · rw [heq]
    exact .caught hcall hold hr hscope hs₂
  · rw [heq]
    exact .caughtBare hcall hold hr hscope hs₂

omit [Zero B] in
theorem addRecord_setRecord (s : Service B) (record record' : Record B)
    (hlogical : record'.logicalKey = record.logicalKey) (hspend : record'.spendKey = record.spendKey)
    (hchannel : record'.channelKey = record.channelKey) :
    (s.addRecord record).setRecord s.records.length record' = s.addRecord record' := by
  unfold Service.addRecord Service.setRecord
  simp only [hlogical, hspend, hchannel, set_append_right _ _ (le_refl s.records.length),
    Nat.sub_self, set_cons_zero]

theorem change_create {streamId : ℕ} {held : Admitted B}
    (hcall : s.calls[call]? = some (.timing held streamId)) (answer : Except Failure ℕ)
    (reading again : Option ℕ) :
    Change cfg s (.timed call answer reading again) (s.create cfg call held streamId answer reading again) := by
  rcases timed_cases held streamId answer with ⟨e, hx⟩ | ⟨epoch, rfl, hrange, hx⟩
  · have hcreate : s.create cfg call held streamId answer reading again = s.setCall call (.failed e) := by
      unfold Service.create
      rw [hx]
    rw [hcreate]
    exact .proceeds hcall rfl rfl (.refl s)
  · have hcreate : s.create cfg call held streamId (.ok epoch) reading again =
        (s.addRecord (held.record streamId epoch)).proceedWith call s.records.length
          (createScope cfg s.records.length held.readiness reading again) := by
      unfold Service.create
      rw [hx]
    rw [hcreate]
    have hnew : (s.addRecord (held.record streamId epoch)).records[s.records.length]? =
        some (held.record streamId epoch) := getElem?_concat_length
    have hcases := createScope_cases cfg hnew held.readiness reading again
    cases hscope : createScope cfg s.records.length held.readiness reading again
        (s.addRecord (held.record streamId epoch)) with
    | mk result s₁ =>
      simp only [hscope] at hcases
      rcases hcases with ⟨e, rfl, hsame⟩ | ⟨scope, rfl, hsame, session, hsession, hopen⟩
      · rw [proceedWith_of_error hscope]
        rcases caught_cases hsame hnew call e with ⟨hscope, -⟩ | ⟨-, s₂, hs₂, heq⟩
        · exact absurd rfl hscope
        · rw [addRecord_setRecord s (held.record streamId epoch)
            ((held.record streamId epoch).persistTerminal "core-open-failed") rfl rfl rfl] at hs₂
          rw [heq]
          exact .abandoned hcall hrange hs₂
      · rw [proceedWith_of_ok hscope]
        rw [addRecord_setRecord s (held.record streamId epoch)
          { held.record streamId epoch with scope := some scope } rfl rfl rfl] at hsame
        exact .created hcall hrange hsame hsession hopen

/-- A call begins with the checks of `open`, whatever they come to. -/
theorem change_openCall (request : OpenRequest B) (nativeTransport : Bool) :
    Change cfg s (.openCall request nativeTransport)
      (({ s with calls := s.calls ++ [Phase.authenticating request] } : Service B).proceed s.calls.length
        (CoreOpen.openCall cfg request nativeTransport)) := by
  have hstate := openCall_state cfg request nativeTransport
    ({ s with calls := s.calls ++ [Phase.authenticating request] } : Service B)
  have hset : ∀ phase : Phase B, (s.calls ++ [Phase.authenticating request]).set s.calls.length
      phase = s.calls ++ [phase] := by
    intro phase
    rw [set_append_right _ _ (le_refl _), Nat.sub_self, set_cons_zero]
  unfold Service.proceed
  cases hx : CoreOpen.openCall cfg request nativeTransport
      ({ s with calls := s.calls ++ [Phase.authenticating request] } : Service B) with
  | mk result s₁ =>
    rw [hx] at hstate
    obtain rfl : s₁ = _ := hstate
    cases result with
    | ok phase =>
      show Change cfg s _ { s with calls := (s.calls ++ _).set s.calls.length phase }
      rw [hset]
      exact .begins (free_openCall _ _ _ _ _ hx)
    | error e =>
      show Change cfg s _ { s with calls := (s.calls ++ _).set s.calls.length (.failed e) }
      rw [hset]
      exact .begins rfl

variable {record : Record B}

theorem change_built (hr : s.records[r]? = some record)
    (hcall : s.calls[call]? = some (.building r)) (answer : Except Failure (OpenResult B)) :
    Change cfg s (.built call answer) (s.proceedWith call r (built cfg r answer)) := by
  rcases built_cases cfg hr answer with ⟨e, hx⟩ | ⟨result, rfl, hfrozen, hx⟩
  · rw [proceedWith_of_error hx]
    exact change_caught hcall rfl hr (.refl s) e
  · rw [proceedWith_of_ok hx]
    exact .built hcall hr hfrozen

theorem change_reserved (hr : s.records[r]? = some record)
    (hcall : s.calls[call]? = some (.reserving r)) (answer : Except Failure Unit) :
    Change cfg s m (s.proceedWith call r (CoreOpen.reserved r answer)) := by
  have hcases := reserved_cases cfg hr answer
  cases hx : CoreOpen.reserved r answer s with
  | mk result s₁ =>
    simp only [hx] at hcases
    rcases hcases with ⟨e, heq⟩ | ⟨rfl, hsame⟩
    · rw [proceedWith_of_error (hx.trans heq)]
      exact change_caught hcall rfl hr (.refl s) e
    · rw [proceedWith_of_ok hx]
      exact .reserved hcall hr hsame

theorem change_dialed (hr : s.records[r]? = some record)
    (hcall : s.calls[call]? = some (.dialing r)) (answer : Except Failure Bool) (look : Look) :
    Change cfg s m (s.proceedWith call r (CoreOpen.dialed r answer look)) := by
  have hcases := dialed_cases cfg hr answer look
  cases hx : CoreOpen.dialed r answer look s with
  | mk result s₁ =>
    simp only [hx] at hcases
    rcases hcases with ⟨e, rfl, hsame⟩ | ⟨rfl, hsame, scope, session, hscope, hsession, hopen⟩
    · rw [proceedWith_of_error hx]
      exact change_caught hcall rfl hr hsame e
    · rw [proceedWith_of_ok hx]
      exact .dialed hcall hr hscope hsession hopen hsame

theorem change_activated (hr : s.records[r]? = some record)
    (hcall : s.calls[call]? = some (.activating r)) (answer : Except Failure Unit)
    (ticket : TicketInputs B) (issued : Option ℕ) (inputs : ResponseInputs B) :
    Change cfg s m (s.proceedWith call r (CoreOpen.activated cfg r answer ticket issued inputs)) := by
  have hsame : Unchanged cfg s (CoreOpen.activated cfg r answer ticket issued inputs s).2 :=
    (tame_activated r answer ticket issued inputs).at s
  cases hx : CoreOpen.activated cfg r answer ticket issued inputs s with
  | mk result s₁ =>
    rw [hx] at hsame
    cases result with
    | ok phase =>
      rw [proceedWith_of_ok hx]
      exact .finishes hcall rfl (free_activated _ _ _ _ _ s phase s₁ hx) hsame
    | error e =>
      rw [proceedWith_of_error hx]
      exact change_caught hcall rfl hr hsame e

/-- A step is a change of one call or record. -/
theorem serviceStep_change (hexist : OwnedExist s) (h : serviceStep cfg s m = some s') : Change cfg s m s' := by
  cases m with
  | openCall request nativeTransport =>
    cases h
    exact change_openCall request nativeTransport
  | authenticated call answer inputs =>
    simp only [serviceStep] at h
    split at h
    · next request hcall =>
      cases h
      exact change_proceed hcall rfl (tame_authenticated _ _ _) (free_authenticated _ _ _)
    · cases h
  | admitted call answer inputs =>
    simp only [serviceStep] at h
    split at h
    · next prepared hcall =>
      cases h
      exact change_proceed hcall rfl (tame_admitted _ _ _) (free_admitted _ _ _)
    · cases h
  | allocated call answer =>
    simp only [serviceStep] at h
    split at h
    · next held hcall =>
      cases h
      exact change_proceed hcall rfl (tame_allocated _ _) (free_allocated _ _)
    · cases h
  | timed call answer reading again =>
    simp only [serviceStep] at h
    split at h
    · next held streamId hcall =>
      cases h
      exact change_create hcall answer reading again
    · cases h
  | built call answer =>
    simp only [serviceStep] at h
    split at h
    · next r hcall =>
      cases h
      obtain ⟨record, hr⟩ := hexist call _ r hcall rfl
      exact change_built hr hcall answer
    · cases h
  | reserved call answer =>
    simp only [serviceStep] at h
    split at h
    · next r hcall =>
      cases h
      obtain ⟨record, hr⟩ := hexist call _ r hcall rfl
      exact change_reserved hr hcall answer
    · cases h
  | dialed call answer look =>
    simp only [serviceStep] at h
    split at h
    · next r hcall =>
      cases h
      obtain ⟨record, hr⟩ := hexist call _ r hcall rfl
      exact change_dialed hr hcall answer look
    · cases h
  | activated call answer ticket issued inputs =>
    simp only [serviceStep] at h
    split at h
    · next r hcall =>
      cases h
      obtain ⟨record, hr⟩ := hexist call _ r hcall rfl
      exact change_activated hr hcall answer ticket issued inputs
    · cases h
  | closed call =>
    simp only [serviceStep] at h
    split at h
    · next r e hcall =>
      cases h
      exact .finishes hcall rfl rfl (.refl s)
    · cases h
  | closeHook r =>
    simp only [serviceStep] at h
    split at h
    · cases h
    · next record hr =>
      split at h
      · cases h
      · next session hsession =>
        rw [ite_none_right_eq_some] at h
        obtain ⟨⟨hclosed, hrun⟩, hs'⟩ := h
        cases hs'
        obtain ⟨scope, hscope, hsession⟩ := bind_eq_some_iff.mp hsession
        exact .closeHook hr hscope hsession hclosed hrun
  | terminalFailed =>
    cases h
    exact .quiet ⟨rfl, rfl, rfl, rfl, rfl, .refl⟩
  | attach token expected port reading look again =>
    cases h
    exact .quiet ((tame_attach token expected port reading look again).at s)
  | plane move =>
    obtain ⟨p, hp, rfl⟩ := map_eq_some_iff.mp h
    exact .quiet ((Unchanged.refl s).onPlane (Stream.planeStep_changes hp))

end Steps

end HiveRelay.CoreOpen
