import HiveRelay.Stream.CoreOpenLifecycle
import HiveRelay.Stream.ForwardOpen

/-!
# The slots of a route

A route has a signed number of slots. A call of `FORWARD.OPEN` reads how many are taken, awaits a
stream identifier, and then writes back one more than it has read; the close hook of the session
takes one off. What a record means for its route is its `Slot`: whether it is terminal, and whether
it is counted.

A count is exact as long as four things do not happen: the count of a route or the spend of a call
changes while the call awaits its stream identifier; the plane refuses the session of a new record,
which then has no close hook; the close hook comes to its end before `persistence.reserve` does,
after which the record is no longer terminal; and an open fails whose close hook is still to run,
whose record is then terminal with its slot still taken.

## Main definitions

* `Sound` — the spends are indexed, the counts are exact, and no route is over its bound
* `TakesSlot` — a step at which none of the four things happens

## Main results

* `sound_step` — such a step keeps the counts exact
* `forward_route_capacity` — so does a run of such steps
* `overlapping_opens_exceed_route` — two calls that await their identifiers at the same time
-/

namespace HiveRelay.ForwardOpen

open List Option OrderedMap Act
open HiveRelay.Stream (Failure failure Plane PlaneOp Look StreamScope PlaneChanges Keeps)
open CoreOpen (TicketInputs ResponseInputs)

variable {B : Type} [DecidableEq B]

/-- What a record means for its route. -/
structure Slot (B : Type) where
  (spendKey routeKey : B)
  maxConcurrentStreams : ℕ
  (terminal counted closeHookRun : Bool)
  scope : Option ℕ

def Record.slot (record : Record B) : Slot B where
  __ := record
  routeKey := record.routeKey
  maxConcurrentStreams := record.route.maxConcurrentStreams
  terminal := record.status = .terminal
  counted := record.routeCounted

def Service.slots (s : Service B) : List (Slot B) := s.records.map Record.slot

/-- How many slots of a route are counted. -/
def countedOn (slots : List (Slot B)) (route : B) : ℕ :=
  slots.countP fun t => t.routeKey = route ∧ t.counted = true

def Slot.key (t : Slot B) : B × B × ℕ := (t.spendKey, t.routeKey, t.maxConcurrentStreams)

structure Slot.Sound (p : Plane B) (t : Slot B) : Prop where
  session : ∃ scope session, t.scope = some scope ∧ p.scopes[scope]? = some session ∧
    (t.terminal = true → session.closed = true)
  counted : t.counted = !t.closeHookRun
  terminal : t.terminal = t.closeHookRun

/-- The spends are indexed, the counts are exact, and no route is over its bound. -/
structure Sound (s : Service B) : Prop where
  spend : s.recordsBySpend.Indexes (s.slots.map Slot.spendKey)
  slots : ∀ t ∈ s.slots, t.Sound s.plane
  counts : ∀ route, s.activeForRoute route = countedOn s.slots route
  bound : ∀ route bound, (∀ t ∈ s.slots, t.routeKey = route → t.maxConcurrentStreams ≤ bound) →
    countedOn s.slots route ≤ bound

/-! ### Methods that leave the slots as they are -/

/-- The same slots, spends and counts, and a later plane. -/
structure Same (cfg : Config B) (s s' : Service B) : Prop where
  slots : s'.slots = s.slots
  recordsBySpend : s'.recordsBySpend = s.recordsBySpend
  routeCounts : s'.routeCounts = s.routeCounts
  plane : PlaneChanges cfg.plane s.plane s'.plane

variable {record : Record B} {number : ℕ}

section Same

variable {α : Type} {cfg : Config B} {s s₁ s' : Service B}

theorem Same.refl (s : Service B) : Same cfg s s := ⟨rfl, rfl, rfl, .refl⟩

theorem Same.onPlane (h : Same cfg s s') {p : Plane B} (hp : PlaneChanges cfg.plane s'.plane p) :
    Same cfg s { s' with plane := p } := ⟨h.slots, h.recordsBySpend, h.routeCounts, h.plane.trans hp⟩

theorem Slot.Sound.later {p p' : Plane B} {t : Slot B} (h : t.Sound p)
    (hp : PlaneChanges cfg.plane p p') : t.Sound p' := by
  obtain ⟨scope, session, hscope, hsession, hclosed⟩ := h.session
  obtain ⟨session', hsession', hlater⟩ :=
    (Stream.planeLater_of_changes hp).scope scope session hsession
  exact ⟨⟨scope, session', hscope, hsession', fun hterminal => hlater.closed (hclosed hterminal)⟩, h.counted,
    h.terminal⟩

theorem Sound.same (h : Sound s) (hsame : Same cfg s s') : Sound s' := by
  refine ⟨?_, ?_, fun route => ?_, ?_⟩
  · rw [hsame.recordsBySpend, hsame.slots]
    exact h.spend
  · rw [hsame.slots]
    exact fun t ht => (h.slots t ht).later hsame.plane
  · rw [Service.activeForRoute, hsame.routeCounts, hsame.slots]
    exact h.counts route
  · rw [hsame.slots]
    exact h.bound

theorem within_onPlane {x : PlaneOp B α} (hx : Keeps cfg.plane x) : Act.Within (Same cfg) (onPlane x) :=
  fun _ s h => h.onPlane (hx.at s.plane)

theorem within_recordOf (r : ℕ) : Act.Within (Same cfg) (recordOf r : ServiceOp B (Record B)) :=
  fun _ _ h => h

variable {r : ℕ}

omit [DecidableEq B] in
theorem recordOf_eq (hr : s.records[r]? = some record) : recordOf r s = (.ok record, s) := by
  show ((demand s.records[r]? _ : Except Failure _), s) = _
  rw [hr]
  rfl

omit [DecidableEq B] in
theorem recordOf_missing (hr : s.records[r]? = none) :
    recordOf r s = (.error (failure .typeError "record of another service"), s) := by
  show ((demand s.records[r]? _ : Except Failure _), s) = _
  rw [hr]
  rfl

variable {f : Record B → Record B}

omit [DecidableEq B] in
theorem assign_eq (hr : s.records[r]? = some record) : assign r f s = (.ok (), s.setRecord r (f record)) := by
  unfold assign
  rw [bind_of_ok (recordOf_eq hr)]
  rfl

omit [DecidableEq B] in
theorem assign_missing (hr : s.records[r]? = none) :
    assign r f s = (.error (failure .typeError "record of another service"), s) := by
  unfold assign
  rw [bind_of_error (recordOf_missing hr)]

omit [DecidableEq B] in
theorem slots_get? (hr : s.records[r]? = some record) : s.slots[r]? = some record.slot := by
  rw [Service.slots, getElem?_map, hr, map_some]

omit [DecidableEq B] in
theorem slots_setRecord (r : ℕ) (record : Record B) :
    (s.setRecord r record).slots = s.slots.set r record.slot := map_set

omit [DecidableEq B] in
theorem slots_setRecord_same {record' : Record B}
    (hr : s.records[r]? = some record) (hslot : record'.slot = record.slot) :
    (s.setRecord r record').slots = s.slots := map_set_of_eq hr hslot

theorem within_assign (hf : ∀ record, (f record).slot = record.slot) : Act.Within (Same cfg) (assign r f) := by
  intro s₀ s h
  cases hr : s.records[r]? with
  | none =>
    rw [assign_missing hr]
    exact h
  | some record =>
    rw [assign_eq hr]
    exact ⟨(slots_setRecord_same hr (hf record)).trans h.slots, h.recordsBySpend, h.routeCounts, h.plane⟩

theorem within_claimOf (number : ℕ) : Act.Within (Same cfg) (claimOf number : ServiceOp B (Claim B)) := fun _ _ h => h

theorem within_assertClaimOwner (number : ℕ) : Act.Within (Same cfg) (assertClaimOwner number : ServiceOp B Unit) :=
  within_bind (within_claimOf number) fun _ =>
    within_bind within_get fun _ => within_ofExcept _

theorem within_endClaim (number : ℕ) (claim : Claim B) (status : ClaimStatus)
    (error : Option Failure) : Act.Within (Same cfg)
      (Act.modify fun s => s.endClaim number claim status error : ServiceOp B Unit) :=
  within_modify fun _ _ h => ⟨h.slots, h.recordsBySpend, h.routeCounts, h.plane⟩

theorem within_terminalizeUnrecordedClaim (number : ℕ) (error : Failure) (message : String) :
    Act.Within (Same cfg) (terminalizeUnrecordedClaim number error message : ServiceOp B α) := by
  refine within_bind (within_claimOf number) fun claim => ?_
  refine within_ite (within_throw _) ?_
  exact within_bind (within_endClaim number claim _ _) fun _ => within_throw _

theorem within_claimed {message : String} {x : ServiceOp B α}
    (hx : Act.Within (Same cfg) x) : Act.Within (Same cfg) (claimed number message x) := by
  intro s₀ s h
  have hs' := hx s₀ s h
  unfold claimed
  cases hxs : x s with
  | mk result s' =>
    rw [hxs] at hs'
    cases result with
    | ok a => exact hs'
    | error e => exact within_terminalizeUnrecordedClaim number e message s₀ s' hs'

theorem within_issueTicket (record : Record B) (scope : ℕ) (inputs : TicketInputs B) :
    Act.Within (Same cfg) (issueTicket cfg record scope inputs) :=
  fun _ s h => h.onPlane (Stream.keepsAt_issueTicket (CoreOpen.drawn_fresh inputs s.plane))

theorem within_refreshTicket (r : ℕ) (inputs : ResponseInputs B) :
    Act.Within (Same cfg) (refreshTicket cfg r inputs) := by
  refine within_bind (within_recordOf r) fun record => ?_
  refine within_ofExcept_bind fun attached => ?_
  refine within_ite (within_pure ()) ?_
  refine within_ofExcept_bind fun now => ?_
  refine within_ofExcept_bind fun scope => ?_
  refine within_ite ?_ (within_pure ())
  refine within_bind (within_onPlane (Stream.keeps_scopeOf scope)) fun session => ?_
  refine within_bind (within_onPlane (Stream.keeps_revokeScope _)) fun _ => ?_
  exact within_bind (within_issueTicket record scope _) fun _ => within_assign fun _ => rfl

theorem within_response (r : ℕ) (retried : Bool) (inputs : ResponseInputs B) :
    Act.Within (Same cfg) (response cfg r retried inputs) :=
  within_bind (within_refreshTicket r inputs) fun _ =>
    within_bind (within_recordOf r) fun _ => within_pure _

theorem within_retry (r : ℕ) (held : Prepared B) (inputs : ResponseInputs B) :
    Act.Within (Same cfg) (retry cfg r held inputs) := by
  refine within_bind (within_recordOf r) fun record => ?_
  refine within_ofExcept_bind fun _ => within_ite (within_pure _) ?_
  refine within_ofExcept_bind fun _ => ?_
  refine within_ofExcept_bind fun scope => ?_
  refine within_bind (within_onPlane (Stream.keeps_pollScope scope _)) fun _ => ?_
  refine within_ofExcept_bind fun _ => ?_
  exact within_bind (within_response r true inputs) fun _ => within_pure _

theorem within_claimNonce (held : Prepared B) (inputs : ResponseInputs B) :
    Act.Within (Same cfg) (claimNonce cfg held inputs) := by
  refine within_bind within_get fun s => ?_
  refine within_ofExcept_bind fun _ => ?_
  split
  · exact within_retry _ _ _
  · split
    · refine within_bind (within_claimOf _) fun _ => ?_
      exact within_ofExcept_bind fun _ => within_pure _
    · refine within_ofExcept_bind fun _ => ?_
      refine within_bind (within_modify fun _ _ h => ?_) fun _ => within_pure _
      exact ⟨h.slots, h.recordsBySpend, h.routeCounts, h.plane⟩

theorem within_checkAdmission (number : ℕ) (held : Prepared B) (spendTag : B) :
    Act.Within (Same cfg) (checkAdmission number held spendTag) := by
  refine within_bind within_get fun s => ?_
  refine within_ofExcept_bind fun _ => ?_
  split
  · exact within_pure _
  · exact within_throw _

theorem within_admitted (number : ℕ) (held : Prepared B) (answer : Except Failure (Option (Admission B))) :
    Act.Within (Same cfg) (admitted number held answer) := by
  refine within_bind (within_claimed ?_) fun admission => ?_
  · refine within_ofExcept_bind fun _ => ?_
    refine within_bind (within_assertClaimOwner number) fun _ => ?_
    refine within_ofExcept_bind fun _ => ?_
    exact within_ofExcept_bind fun _ => within_pure _
  · exact within_claimed (within_checkAdmission number held _)

theorem within_allocatedId (number : ℕ) (answer : Except Failure ℕ) :
    Act.Within (Same cfg) (allocatedId number answer : ServiceOp B ℕ) := by
  refine within_claimed ?_
  refine within_ofExcept_bind fun _ => ?_
  refine within_ofExcept_bind fun _ => ?_
  refine within_bind (within_assertClaimOwner number) fun _ => ?_
  exact within_ofExcept_bind fun _ => within_pure _

theorem within_hopBuilt (r : ℕ) (answer : Except Failure (HopOpen B)) :
    Act.Within (Same cfg) (hopBuilt r answer) := by
  refine within_bind (within_recordOf r) fun record => ?_
  refine within_ofExcept_bind fun hop => ?_
  refine within_ofExcept_bind fun _ => ?_
  exact within_bind (within_assign fun _ => rfl) fun _ => within_pure _

theorem within_dialed (r : ℕ) (answer : Except Failure (Option (Adjacent B))) :
    Act.Within (Same cfg) (dialed r answer) := by
  refine within_ofExcept_bind fun _ => ?_
  refine within_ofExcept_bind fun adjacent => ?_
  refine within_ofExcept_bind fun nextStreamId => ?_
  refine within_bind (within_assign fun _ => rfl) fun _ => ?_
  refine within_ofExcept_bind fun _ => ?_
  refine within_ofExcept_bind fun _ => ?_
  exact within_bind (within_assign fun _ => rfl) fun _ => within_pure _

theorem within_verified (r : ℕ) (port : Bool) (answer : Except Failure Bool) (look : Look) :
    Act.Within (Same cfg) (verified r port answer look : ServiceOp B (Phase B)) := by
  refine within_ofExcept_bind fun _ => ?_
  refine within_ofExcept_bind fun _ => ?_
  refine within_bind (within_recordOf r) fun record => ?_
  refine within_ofExcept_bind fun hopAccept => ?_
  refine within_ofExcept_bind fun _ => ?_
  refine within_ofExcept_bind fun _ => ?_
  refine within_ofExcept_bind fun scope => ?_
  refine within_bind (within_onPlane (Stream.keeps_assertActive scope look)) fun _ => ?_
  refine within_ofExcept_bind fun _ => ?_
  exact within_bind (within_assign fun _ => rfl) fun _ => within_pure _

theorem within_resultBuilt (r : ℕ) (answer : Except Failure (OpenResult B)) :
    Act.Within (Same cfg) (resultBuilt cfg r answer) := by
  refine within_bind (within_recordOf r) fun record => ?_
  refine within_ofExcept_bind fun _ => ?_
  refine within_ofExcept_bind fun _ => ?_
  exact within_bind (within_assign fun _ => rfl) fun _ => within_pure _

theorem within_settleClaim (number : ℕ) (status : ClaimStatus) (error : Option Failure) :
    Act.Within (Same cfg) (settleClaim number status error : ServiceOp B Unit) :=
  within_bind (within_claimOf number) fun claim => within_endClaim number claim _ _

theorem within_attach (token : B) (expected : Stream.TicketBinding B) (port : Bool)
    (reading : Option ℕ) (look again : Look) :
    Act.Within (Same cfg) (attach cfg token expected port reading look again) := by
  refine within_bind (within_onPlane (Stream.keeps_consumeTicket _ _ _ _)) fun scope => ?_
  refine within_bind (within_onPlane (Stream.keeps_scopeOf scope)) fun session => ?_
  refine within_bind within_get fun s => ?_
  refine within_ofExcept_bind fun r => ?_
  refine within_bind (within_recordOf r) fun record => ?_
  refine within_ofExcept_bind fun _ => ?_
  refine within_ofExcept_bind fun scope => ?_
  refine within_bind (within_onPlane (Stream.keeps_assertActive scope again)) fun _ => ?_
  refine within_ofExcept_bind fun _ => ?_
  refine within_ofExcept_bind fun _ => ?_
  exact within_assign fun _ => rfl

theorem same_endClaims (l : List (B × ℕ)) (h : Same cfg s s') : Same cfg s (s'.endClaims l) := by
  induction l generalizing s' with
  | nil => exact h
  | cons entry l ih =>
    unfold Service.endClaims
    split
    · exact ih h
    · split
      · exact ih ⟨h.slots, h.recordsBySpend, h.routeCounts, h.plane⟩
      · exact ih h

theorem same_closeRecords (reason : String) (l : List ℕ) (h : Same cfg s s') :
    Same cfg s (s'.closeRecords reason l) := by
  induction l generalizing s' with
  | nil => exact h
  | cons r l ih =>
    unfold Service.closeRecords
    split
    · exact ih h
    · exact ih (h.onPlane (Stream.changes_closeScope .refl _ _))

end Same

/-! ### Steps that write a slot -/

section Writes

variable {cfg : Config B} {s s₁ s' : Service B} {r : ℕ} {t : Slot B}

omit [DecidableEq B] in
theorem key_mem_set {slots : List (Slot B)} {t' : Slot B} (ht : slots[r]? = some t)
    (hkey : t'.key = t.key) {x : Slot B} (hx : x ∈ slots) :
    ∃ y ∈ slots.set r t', y.key = x.key := by
  have hmem : x.key ∈ (slots.set r t').map Slot.key := by
    rw [map_set_of_eq ht hkey]
    exact mem_map_of_mem hx
  exact mem_map.mp hmem

theorem Sound.set (h : Sound s) {t' : Slot B} (ht : s.slots[r]? = some t)
    (hslots : s'.slots = s.slots.set r t') (hkey : t'.key = t.key)
    (hspend : s'.recordsBySpend = s.recordsBySpend)
    (hplane : PlaneChanges cfg.plane s.plane s'.plane) (hsound : t'.Sound s'.plane)
    (hcounts : ∀ route, s'.activeForRoute route = countedOn s'.slots route)
    (hle : ∀ route, countedOn s'.slots route ≤ countedOn s.slots route) : Sound s' := by
  refine ⟨?_, fun x hx => ?_, hcounts, fun route bound hbound => ?_⟩
  · have hkeys : s'.slots.map Slot.spendKey = s.slots.map Slot.spendKey := by
      rw [hslots]
      exact map_set_of_eq ht (congrArg Prod.fst hkey)
    rw [hspend, hkeys]
    exact h.spend
  · rw [hslots] at hx
    rcases mem_or_eq_of_mem_set hx with hbefore | rfl
    · exact (h.slots x hbefore).later hplane
    · exact hsound
  · refine (hle route).trans (h.bound route bound fun x hx hroute => ?_)
    obtain ⟨y, hy, hyx⟩ := key_mem_set ht hkey hx
    obtain ⟨-, hroutes, hbounds⟩ : y.spendKey = x.spendKey ∧ y.routeKey = x.routeKey ∧
        y.maxConcurrentStreams = x.maxConcurrentStreams := by
      simpa [Slot.key] using hyx
    rw [← hbounds]
    exact hbound y (hslots ▸ hy) (hroutes.trans hroute)

theorem Sound.add (h : Sound s) (hslots : s'.slots = s.slots ++ [t])
    (hspend : s'.recordsBySpend = s.recordsBySpend.set t.spendKey s.slots.length)
    (hcounts : s'.routeCounts = s.routeCounts.set t.routeKey (s.activeForRoute t.routeKey + 1))
    (hplane : PlaneChanges cfg.plane s.plane s'.plane) (hsound : t.Sound s'.plane)
    (hcounted : t.counted = true) (hfree : s.recordsBySpend.get? t.spendKey = none)
    (hroom : s.activeForRoute t.routeKey < t.maxConcurrentStreams) : Sound s' := by
  have hnew : ∀ route, countedOn s'.slots route = countedOn s.slots route + if t.routeKey = route then 1 else 0 := by
    intro route
    rw [hslots, countedOn, countP_append, countP_singleton, countedOn]
    simp [hcounted]
  refine ⟨?_, fun t' ht' => ?_, fun route => ?_, fun route bound hbound => ?_⟩
  · rw [hspend, hslots, map_append, map_singleton, ← length_map Slot.spendKey]
    exact h.spend.set hfree
  · rw [hslots, mem_append, mem_singleton] at ht'
    rcases ht' with hbefore | rfl
    · exact (h.slots t' hbefore).later hplane
    · exact hsound
  · rw [hnew, ← h.counts, Service.activeForRoute, hcounts, get?_set]
    by_cases hroute : t.routeKey = route
    · rw [if_pos hroute.symm, if_pos hroute, ← hroute]
      rfl
    · rw [if_neg (Ne.symm hroute), if_neg hroute]
      rfl
  · rw [hnew]
    by_cases hroute : t.routeKey = route
    · rw [if_pos hroute, ← h.counts, ← hroute]
      have hmax : t.maxConcurrentStreams ≤ bound :=
        hbound t (by rw [hslots]; exact mem_append_right _ (mem_singleton_self t)) hroute
      omega
    · rw [if_neg hroute]
      refine h.bound route bound fun t' ht' => hbound t' ?_
      rw [hslots]
      exact mem_append_left _ ht'

theorem activeForRoute_giveBack (s : Service B) (routeKey route : B) : (s.giveBack routeKey).activeForRoute route =
      s.activeForRoute route - if routeKey = route then 1 else 0 := by
  simp only [Service.giveBack]
  by_cases hroute : routeKey = route
  · subst hroute
    rw [if_pos rfl, Service.activeForRoute]
    split
    · next hle =>
      rw [get?_delete_self]
      exact (Nat.sub_eq_zero_of_le hle).symm
    · rw [get?_set_self]
      rfl
  · rw [if_neg hroute, Service.activeForRoute]
    split
    · rw [get?_delete_of_ne (Ne.symm hroute)]
      rfl
    · rw [get?_set_of_ne (Ne.symm hroute)]
      rfl

def Slot.released (t : Slot B) : Slot B :=
  { t with terminal := true, counted := false, closeHookRun := true }

theorem onScopeClose_state (record : Record B) (reason : String) :
    (s.onScopeClose r record reason).slots = s.slots.set r record.slot.released ∧
      (s.onScopeClose r record reason).recordsBySpend = s.recordsBySpend ∧
      (s.onScopeClose r record reason).plane = s.plane ∧
      ∀ route, (s.onScopeClose r record reason).activeForRoute route = s.activeForRoute route -
        if record.routeKey = route ∧ record.routeCounted = true then 1 else 0 := by
  unfold Service.onScopeClose
  cases record.routeCounted with
  | false =>
    refine ⟨map_set, rfl, rfl, fun route => ?_⟩
    simp [Service.activeForRoute, Service.setRecord]
  | true =>
    refine ⟨map_set, rfl, rfl, fun route => ?_⟩
    simp only [and_true, if_true]
    exact activeForRoute_giveBack s record.routeKey route

theorem Sound.onScopeClose (cfg : Config B) (h : Sound s) (hr : s.records[r]? = some record)
    (hclosed : ∀ scope session, record.scope = some scope → s.plane.scopes[scope]? = some session →
      session.closed = true) (reason : String) : Sound (s.onScopeClose r record reason) := by
  obtain ⟨hslots, hspend, hplane, hactive⟩ := onScopeClose_state (s := s) (r := r) record reason
  have hslot := slots_get? hr
  obtain ⟨hlt, hget⟩ := List.getElem?_eq_some_iff.mp hslot
  have hcounted : ∀ route, countedOn (s.onScopeClose r record reason).slots route = countedOn s.slots route -
        if record.routeKey = route ∧ record.routeCounted = true then 1 else 0 := by
    intro route
    rw [hslots, countedOn, countP_set hlt, hget]
    simp only [Slot.released, Bool.false_eq_true, and_false, decide_false, if_false, Nat.add_zero, decide_eq_true_eq]
    rfl
  have hsound : record.slot.released.Sound s.plane := by
    obtain ⟨scope, session, hscope, hsession, -⟩ :=
      (h.slots _ (mem_of_getElem? hslot)).session
    exact ⟨⟨scope, session, hscope, hsession, fun _ => hclosed scope session hscope hsession⟩, rfl, rfl⟩
  have hsame : PlaneChanges cfg.plane s.plane (s.onScopeClose r record reason).plane := by
    rw [hplane]
    exact .refl
  refine h.set hslot hslots rfl hspend hsame (hplane ▸ hsound) (fun route => ?_) fun route => ?_
  · rw [hactive, hcounted, h.counts]
  · rw [hcounted]
    exact Nat.sub_le _ _

/-- The `catch` block after the close hook: the record was terminal already. -/
theorem Same.caught {record : Record B} (hr : s₁.records[r]? = some record)
    (hslots : s₁.slots.set r { record.slot with terminal := true } = s.slots)
    (hspend : s₁.recordsBySpend = s.recordsBySpend) (hcounts : s₁.routeCounts = s.routeCounts)
    (hplane : PlaneChanges cfg.plane s.plane s₁.plane) (call : ℕ) (error : Failure) :
    Same cfg s (s₁.caught call r error) := by
  unfold Service.caught
  rw [hr]
  cases hscope : record.scope with
  | some scope =>
    simp only [hscope]
    exact ⟨(slots_setRecord r (record.failed error)).trans hslots, hspend, hcounts,
      Stream.changes_closeScope hplane scope _⟩
  | none =>
    simp only [hscope]
    exact ⟨(slots_setRecord r (record.failed error).persistTerminal).trans hslots, hspend, hcounts, hplane⟩

omit [DecidableEq B] in
theorem caught_missing (hr : s₁.records[r]? = none) (call : ℕ) (error : Failure) :
    s₁.caught call r error = s₁ := by
  unfold Service.caught
  rw [hr]

omit [DecidableEq B] in
theorem set_slot {slots : List (Slot B)} (ht : slots[r]? = some t) : slots.set r t = slots := by
  obtain ⟨hlt, rfl⟩ := List.getElem?_eq_some_iff.mp ht
  exact set_getElem_self hlt

omit [DecidableEq B] in
theorem Slot.set_terminal {b : Bool} (ht : t.terminal = b) : { t with terminal := b } = t := by
  rw [← ht]

end Writes

/-! ### Steps -/

section Steps

variable {cfg : Config B} {s s₁ s' : Service B} {call r : ℕ}

theorem Sound.setCall (h : Sound s) (call : ℕ) (phase : Phase B) : Sound (s.setCall call phase) :=
  ⟨h.spend, h.slots, h.counts, h.bound⟩

/-- **What is thrown in the `try` block of a record** after its close hook has run leaves the slots as
they are. -/
theorem Sound.caught (h : Sound s) (hsame : Same cfg s s₁)
    (hhook : ∀ record, s.records[r]? = some record → record.closeHookRun = true) (call : ℕ)
    (error : Failure) : Sound (s₁.caught call r error) := by
  cases hr : s₁.records[r]? with
  | none =>
    rw [caught_missing hr]
    exact h.same hsame
  | some record =>
    have hslot : s.slots[r]? = some record.slot := hsame.slots ▸ slots_get? hr
    obtain ⟨before, hbefore, heq⟩ := map_eq_some_iff.mp (getElem?_map.symm.trans hslot)
    have hterminal : record.slot.terminal = true := by
      rw [(h.slots _ (mem_of_getElem? hslot)).terminal, ← heq]
      exact hhook before hbefore
    refine h.same (Same.caught hr ?_ hsame.recordsBySpend hsame.routeCounts hsame.plane call error)
    rw [Slot.set_terminal hterminal, hsame.slots]
    exact set_slot hslot

theorem Sound.proceed (cfg : Config B) (h : Sound s) {x : ServiceOp B (Phase B)}
    (hx : Act.Within (Same cfg) x) (call : ℕ) : Sound (s.proceed call x) := by
  have hsame := h.same (hx.at (Same.refl s))
  unfold Service.proceed
  cases hxs : x s with
  | mk result s₁ =>
    rw [hxs] at hsame
    cases result with
    | ok phase => exact hsame.setCall call phase
    | error e => exact hsame.setCall call (.failed e)

/-- The record of a phase in its `try` block, and whether what was dialed has a port. -/
def Phase.trying? : Phase B → Option (ℕ × Bool)
  | .buildingHop r | .reserving r | .dialing r | .buildingResult r | .activating r => some (r, false)
  | .verifying r port => some (r, port)
  | _ => none

/-- What a call does next in its `try` block throws only after the close hook of its record has
run. -/
def Service.ThrowsAfterHook (s : Service B) (call : ℕ) (x : ℕ × Bool → ServiceOp B (Phase B)) : Prop :=
  ∀ t ∈ s.calls[call]?.bind Phase.trying?, ∀ record ∈ s.records[t.1]?, record.closeHookRun = false →
    (x t s).1.isOk = true

instance (s : Service B) (call : ℕ) (x : ℕ × Bool → ServiceOp B (Phase B)) :
    Decidable (s.ThrowsAfterHook call x) := inferInstanceAs (Decidable (∀ _ ∈ _, _))

omit [DecidableEq B] in
theorem Service.ThrowsAfterHook.hook {x : ℕ × Bool → ServiceOp B (Phase B)} {phase : Phase B}
    {e : Failure} {t : ℕ × Bool} (h : s.ThrowsAfterHook call x) (hcall : s.calls[call]? = some phase)
    (htrying : phase.trying? = some t) (hx : (x t s).1 = .error e) :
    ∀ record, s.records[t.1]? = some record → record.closeHookRun = true := by
  intro record hr
  by_contra hhook
  have hok := h t (bind_eq_some_iff.mpr ⟨phase, hcall, htrying⟩) record hr (Bool.eq_false_of_not_eq_true hhook)
  rw [hx] at hok
  cases hok

theorem Sound.proceedWith (cfg : Config B) (h : Sound s) {x : ℕ × Bool → ServiceOp B (Phase B)}
    {phase : Phase B} {t : ℕ × Bool} (hx : Act.Within (Same cfg) (x t)) (hok : s.ThrowsAfterHook call x)
    (hcall : s.calls[call]? = some phase) (htrying : phase.trying? = some t) :
    Sound (s.proceedWith call t.1 (x t)) := by
  have hsame := hx.at (Same.refl s)
  have hhook := fun e he => hok.hook (e := e) hcall htrying he
  unfold Service.proceedWith
  cases hxs : x t s with
  | mk result s₁ =>
    rw [hxs] at hsame hhook
    cases result with
    | ok phase => exact (h.same hsame).setCall call phase
    | error e => exact h.caught hsame (hhook e rfl) call e

/-- What a call has that awaits its stream identifier. -/
def Phase.allocating? : Phase B → Option (ℕ × Admitted B)
  | .allocating number held => some (number, held)
  | _ => none

/-- A stream identifier that is accepted while the claim is in force. -/
def Service.Granted (s : Service B) (number streamId : ℕ) : Prop :=
  streamId ≤ Stream.maxU64 ∧ streamId ≠ 0 ∧ (s.claims[number]?.any fun claim => s.ClaimOwner number claim) = true
  deriving Decidable

/-- The count of the route is what the call has read, its spend is still new, and the plane accepts
its session. -/
def Admitted.Undisturbed (cfg : Config B) (s : Service B) (held : Admitted B) (streamId : ℕ)
    (reading again : Option ℕ) : Prop :=
  s.activeForRoute held.routeKey = held.activeForRoute ∧ s.recordsBySpend.get? held.spendKey = none ∧
    (Stream.createSession cfg.plane (held.sessionOptions cfg streamId) reading again s.plane).1.isOk = true

instance (cfg : Config B) (s : Service B) (held : Admitted B) (streamId : ℕ)
    (reading again : Option ℕ) : Decidable (held.Undisturbed cfg s streamId reading again) :=
  inferInstanceAs (Decidable (_ ∧ _))

/-- A record is created with what its call has read; `persistence.reserve` succeeds if and only if the
close hook of the record has not run; and what else the `try` block of a record awaits fails only after
the close hook has run. -/
def TakesSlot (cfg : Config B) (s : Service B) (m : ForwardMove B) : Prop :=
  match m with
  | .allocated call (.ok streamId) reading again => ∀ phase ∈ s.calls[call]?,
      ∀ held ∈ phase.allocating?, s.Granted held.1 streamId → held.2.Undisturbed cfg s streamId reading again
  | .hopBuilt call answer => s.ThrowsAfterHook call fun t => hopBuilt t.1 answer
  | .reserved call answer => ∀ t ∈ s.calls[call]?.bind Phase.trying?, ∀ record ∈ s.records[t.1]?,
      answer.isOk = !record.closeHookRun
  | .dialed call answer => s.ThrowsAfterHook call fun t => dialed t.1 answer
  | .verified call answer look => s.ThrowsAfterHook call fun t => verified t.1 t.2 answer look
  | .resultBuilt call answer => s.ThrowsAfterHook call fun t => resultBuilt cfg t.1 answer
  | .activated call answer ticket issued inputs =>
      s.ThrowsAfterHook call fun t => activated cfg t.1 answer ticket issued inputs
  | _ => True

instance (cfg : Config B) (s : Service B) : (m : ForwardMove B) → Decidable (TakesSlot cfg s m)
  | .allocated call (.ok streamId) reading again => inferInstanceAs (Decidable
      (∀ phase ∈ s.calls[call]?, ∀ held ∈ phase.allocating?, s.Granted held.1 streamId →
        held.2.Undisturbed cfg s streamId reading again))
  | .reserved call answer => inferInstanceAs (Decidable (∀ t ∈ s.calls[call]?.bind Phase.trying?,
      ∀ record ∈ s.records[t.1]?, answer.isOk = !record.closeHookRun))
  | .hopBuilt _ _ | .dialed _ _ | .verified _ _ _ | .resultBuilt _ _ | .activated _ _ _ _ _ =>
    inferInstanceAs (Decidable (s.ThrowsAfterHook _ _))
  | .allocated _ (.error _) _ _ | .openCall .. | .admitted .. | .closed .. | .closeHook .. | .attach ..
  | .close .. | .plane .. => isTrue trivial

omit [DecidableEq B] in
theorem answered_cases (answer : Except Failure Unit) (r : ℕ) (f : Record B → Record B)
    (rest : ServiceOp B (Phase B)) (s : Service B) :
    (∃ e, (do Act.ofExcept answer; assign r f; rest : ServiceOp B (Phase B)) s = (.error e, s) ∧
      (s.records[r]? = none ∨ answer.isOk = false)) ∨
      ∃ record, answer.isOk = true ∧ s.records[r]? = some record ∧
        (do Act.ofExcept answer; assign r f; rest : ServiceOp B (Phase B)) s = rest (s.setRecord r (f record)) := by
  cases answer with
  | error e => exact .inl ⟨e, rfl, .inr rfl⟩
  | ok u =>
    rw [ofExcept_bind_of_ok rfl]
    cases hr : s.records[r]? with
    | none => exact .inl ⟨_, bind_of_error (assign_missing hr), .inl rfl⟩
    | some record => exact .inr ⟨record, rfl, rfl, bind_of_ok (assign_eq hr)⟩

theorem Sound.reserved (cfg : Config B) (h : Sound s) (answer : Except Failure Unit)
    (hok : ∀ record, s.records[r]? = some record → answer.isOk = !record.closeHookRun) :
    Sound (s.proceedWith call r (ForwardOpen.reserved r answer)) := by
  have hself : Same cfg s s := .refl s
  unfold Service.proceedWith
  rcases answered_cases answer r (fun record => { record with status := .reserved })
    (pure (.dialing r)) s with ⟨e, hx, hwhy⟩ | ⟨record, hanswer, hr, hx⟩
  · have hx : ForwardOpen.reserved r answer s = (.error e, s) := hx
    rw [hx]
    refine h.caught hself (fun record hr => ?_) call e
    rcases hwhy with hmissing | hanswer
    · rw [hmissing] at hr
      cases hr
    · simpa [hanswer] using hok record hr
  · have hx : ForwardOpen.reserved r answer s =
        (.ok (.dialing r), s.setRecord r { record with status := .reserved }) := hx
    rw [hx]
    have hterminal : record.slot.terminal = false := by
      rw [(h.slots _ (mem_of_getElem? (slots_get? hr))).terminal]
      have hhook := hok record hr
      rw [hanswer] at hhook
      exact (Bool.not_eq_eq_eq_not).mp hhook.symm
    have hsame : Same cfg s (s.setRecord r { record with status := .reserved }) :=
      ⟨slots_setRecord_same hr (Slot.set_terminal hterminal), rfl, rfl, .refl⟩
    exact (h.same hsame).setCall call _

theorem within_announce (r : ℕ) (ticket : TicketInputs B) (issued : Option ℕ)
    (inputs : ResponseInputs B) : Act.Within (Same cfg) (announce cfg r ticket issued inputs) := by
  refine within_bind (within_recordOf r) fun record => ?_
  refine within_ofExcept_bind fun scope => ?_
  refine within_bind (within_issueTicket record scope ticket) fun _ => ?_
  refine within_bind (within_assign fun _ => rfl) fun _ => ?_
  refine within_bind (within_response r false inputs) fun _ => ?_
  exact within_bind (within_settleClaim _ _ _) fun _ => within_pure _

theorem issueTicket_open {scope : ℕ} {inputs : TicketInputs B} {token : B}
    (h : issueTicket cfg record scope inputs s = (.ok token, s')) :
    ∃ session, s.plane.scopes[scope]? = some session ∧ session.closed = false := by
  have hplane : (Stream.issueTicket cfg.plane scope record.parent inputs.look inputs.reading
      (inputs.drawn s.plane) s.plane).1 = .ok token := congrArg Prod.fst h
  cases hx : Stream.issueTicket cfg.plane scope record.parent inputs.look inputs.reading
      (inputs.drawn s.plane) s.plane with
  | mk result p' =>
    rw [hx] at hplane
    obtain rfl : result = .ok token := hplane
    obtain ⟨now, p₁, hactive, -⟩ := Act.bind_eq_ok hx
    have hchecked := Stream.spec_assertActive scope inputs.look s.plane s.plane rfl
    rw [hactive] at hchecked
    exact hchecked.2

theorem announce_open {ticket : TicketInputs B} {issued : Option ℕ} {inputs : ResponseInputs B} {phase : Phase B}
    (hr : s.records[r]? = some record)
    (h : announce cfg r ticket issued inputs s = (.ok phase, s')) :
    ∃ scope session, record.scope = some scope ∧ s.plane.scopes[scope]? = some session ∧ session.closed = false := by
  unfold announce at h
  rw [bind_of_ok (recordOf_eq hr)] at h
  obtain ⟨scope, hscope, h⟩ := ofExcept_bind_eq_ok h
  obtain ⟨token, s₁, hticket, -⟩ := Act.bind_eq_ok h
  exact ⟨scope, (issueTicket_open hticket).imp fun _ hsession => ⟨demand_eq_ok.mp hscope, hsession⟩⟩

theorem Sound.activated (h : Sound s) (answer : Except Failure Unit) (ticket : TicketInputs B)
    (issued : Option ℕ) (inputs : ResponseInputs B)
    (hhook : ∀ e, (ForwardOpen.activated cfg r answer ticket issued inputs s).1 = .error e →
      ∀ record, s.records[r]? = some record → record.closeHookRun = true) :
    Sound (s.proceedWith call r (ForwardOpen.activated cfg r answer ticket issued inputs)) := by
  have hself : Same cfg s s := .refl s
  unfold Service.proceedWith
  rcases answered_cases answer r (fun record => { record with status := .live })
    (announce cfg r ticket issued inputs) s with ⟨e, hx, -⟩ | ⟨record, -, hr, hx⟩
  · have hx : ForwardOpen.activated cfg r answer ticket issued inputs s = (.error e, s) := hx
    rw [hx] at hhook ⊢
    exact h.caught hself (hhook e rfl) call e
  · let live : Service B := s.setRecord r { record with status := .live }
    have hx : ForwardOpen.activated cfg r answer ticket issued inputs s =
        announce cfg r ticket issued inputs live := hx
    have hlive : live.records[r]? = some { record with status := .live } :=
      getElem?_set_self (List.getElem?_eq_some_iff.mp hr).1
    have hsame : Same cfg live (announce cfg r ticket issued inputs live).2 :=
      (within_announce r ticket issued inputs).at (.refl live)
    have hslot := h.slots _ (mem_of_getElem? (slots_get? hr))
    rw [hx] at hhook ⊢
    cases hrun : announce cfg r ticket issued inputs live with
    | mk result s₁ =>
      rw [hrun] at hsame hhook
      cases result with
      | error e =>
        -- the record is live and then terminal again within one turn
        have hterminal : record.slot.terminal = true := hslot.terminal.trans (hhook e rfl record hr)
        have hget : s₁.slots[r]? = some { record.slot with terminal := false } :=
          hsame.slots ▸ slots_get? hlive
        obtain ⟨record₁, hr₁, heq⟩ := map_eq_some_iff.mp (getElem?_map.symm.trans hget)
        have hslots : s₁.slots.set r { record₁.slot with terminal := true } = s.slots := by
          rw [heq, hsame.slots, slots_setRecord, List.set_set]
          exact (congrArg _ (Slot.set_terminal hterminal)).trans (set_slot (slots_get? hr))
        have hback : Same cfg s (s₁.caught call r e) :=
          .caught hr₁ hslots hsame.recordsBySpend hsame.routeCounts hsame.plane call e
        exact h.same hback
      | ok phase =>
        obtain ⟨scope, session, hscope, hsession, hopen⟩ := announce_open hlive hrun
        have hterminal : record.slot.terminal = false := by
          by_contra hterminal
          obtain ⟨scope', session', hscope', hsession', hclosed⟩ := hslot.session
          obtain rfl := mem_unique hscope hscope'
          obtain rfl := mem_unique hsession hsession'
          rw [hclosed (Bool.eq_true_of_not_eq_false hterminal)] at hopen
          cases hopen
        have hrevived : Same cfg s live :=
          ⟨slots_setRecord_same hr (Slot.set_terminal hterminal), rfl, rfl, .refl⟩
        exact ((h.same hrevived).same hsame).setCall call phase

theorem Sound.create {streamId : ℕ} {held : Admitted B} {reading again : Option ℕ}
    (h : Sound s) (hready : held.Undisturbed cfg s streamId reading again) :
    Sound ((s.addRecord (held.record number streamId) held.activeForRoute).proceedWith call
      s.records.length (createScope cfg s.records.length reading again)) := by
  obtain ⟨hcount, hfree, hsession⟩ := hready
  cases hx : Stream.createSession cfg.plane (held.sessionOptions cfg streamId) reading again s.plane with
  | mk result p =>
    rw [hx] at hsession
    cases result with
    | error e => cases hsession
    | ok scope =>
      obtain ⟨session, hopened, hopen⟩ := Stream.createSession_open hx
      have hkeeps : PlaneChanges cfg.plane s.plane (Stream.createSession cfg.plane
          (held.sessionOptions cfg streamId) reading again s.plane).2 :=
        (Stream.keeps_createSession _ _ _).at s.plane
      rw [hx] at hkeeps
      let added : Service B := s.addRecord (held.record number streamId) held.activeForRoute
      have hnew : added.records[s.records.length]? = some (held.record number streamId) :=
        getElem?_concat_length
      have hcreate : onPlane (Stream.createSession cfg.plane (held.sessionOptions cfg streamId) reading again) added =
          (.ok scope, { added with plane := p }) := by
        unfold onPlane
        rw [show added.plane = s.plane from rfl, hx]
      -- the new record with its session
      let opened : Record B := { held.record number streamId with scope := some scope }
      have hscope : ∃ index, createScope cfg s.records.length reading again added =
          (.ok (.buildingHop s.records.length),
            { { added with plane := p }.setRecord s.records.length opened with
              recordsByScope := index }) := by
        refine ⟨added.recordsByScope.set (Stream.familyForward, streamId) s.records.length, ?_⟩
        have hnew' : ({ added with plane := p } : Service B).records[s.records.length]? =
            some (held.record number streamId) := hnew
        unfold createScope
        rw [bind_of_ok (recordOf_eq hnew)]
        exact (bind_of_ok hcreate).trans (bind_of_ok (assign_eq hnew'))
      obtain ⟨index, hscope⟩ := hscope
      unfold Service.proceedWith
      rw [hscope]
      let final : Service B :=
        { { added with plane := p }.setRecord s.records.length opened with recordsByScope := index }
      have hslots : final.slots = s.slots ++ [opened.slot] := by
        show ((s.records ++ [held.record number streamId]).set s.records.length opened).map _ = _
        rw [set_append_right _ _ (le_refl _), Nat.sub_self, set_cons_zero,
          map_append, map_singleton]
        rfl
      have hlength : s.slots.length = s.records.length := length_map _
      suffices hfinal : Sound final from hfinal.setCall call _
      refine h.add hslots ?_ ?_ hkeeps ?_ rfl hfree ?_
      · rw [hlength]
        rfl
      · show s.routeCounts.set held.routeKey (held.activeForRoute + 1) = _
        rw [← hcount]
        rfl
      · exact ⟨⟨scope, session, rfl, hopened, nofun⟩, rfl, rfl⟩
      · show s.activeForRoute held.routeKey < held.route.maxConcurrentStreams
        rw [hcount]
        exact held.room

theorem assertClaimOwner_eq_ok {u : Unit} (h : assertClaimOwner number s = (.ok u, s')) :
    s' = s ∧ (s.claims[number]?.any fun claim => s.ClaimOwner number claim) = true := by
  obtain ⟨claim, s₁, hof, h⟩ := Act.bind_eq_ok h
  obtain ⟨hclaim, rfl⟩ := Prod.mk.inj hof
  obtain ⟨howner, rfl⟩ := Prod.mk.inj h
  refine ⟨rfl, ?_⟩
  rw [demand_eq_ok.mp hclaim, any_some, decide_eq_true_eq]
  exact require_eq_ok.mp howner

theorem allocatedId_eq_ok {streamId : ℕ} {answer : Except Failure ℕ}
    (h : allocatedId number answer s = (.ok streamId, s')) :
    s' = s ∧ answer = .ok streamId ∧ s.Granted number streamId := by
  unfold allocatedId claimed at h
  split at h
  · next a s₁ hx =>
    obtain ⟨hok, rfl⟩ := Prod.mk.inj h
    cases hok
    obtain ⟨id, hanswer, hx₁⟩ := ofExcept_bind_eq_ok hx
    obtain ⟨id', hid, hx₂⟩ := ofExcept_bind_eq_ok hx₁
    simp only [Stream.u64, guards_eq_ok] at hid
    obtain ⟨hrange, rfl⟩ := hid
    obtain ⟨u, s₂, hassert, hx₃⟩ := Act.bind_eq_ok hx₂
    obtain ⟨rfl, howner⟩ := assertClaimOwner_eq_ok hassert
    obtain ⟨u, hnonzero, hx₄⟩ := ofExcept_bind_eq_ok hx₃
    obtain ⟨hid, rfl⟩ := Prod.mk.inj hx₄
    cases hid
    exact ⟨rfl, hanswer, hrange, require_eq_ok.mp hnonzero, howner⟩
  · next e s₁ hx =>
    obtain ⟨claim, s₂, -, h⟩ := Act.bind_eq_ok h
    split at h
    · cases (Prod.mk.inj h).1
    · cases (Prod.mk.inj h).1

theorem Sound.allocated {held : Admitted B} (h : Sound s) (answer : Except Failure ℕ) (reading again : Option ℕ)
    (hok : ∀ streamId, answer = .ok streamId → s.Granted number streamId →
      held.Undisturbed cfg s streamId reading again) :
    Sound (s.allocated cfg call number held answer reading again) := by
  have hsame : Same cfg s (allocatedId number answer s).2 :=
    (within_allocatedId number answer).at (.refl s)
  unfold Service.allocated
  cases hx : allocatedId number answer s with
  | mk result s₁ =>
    rw [hx] at hsame
    cases result with
    | error e => exact (h.same hsame).setCall call _
    | ok streamId =>
      obtain ⟨rfl, hanswer, hgranted⟩ := allocatedId_eq_ok hx
      exact h.create (hok streamId hanswer hgranted)

/-- **The counts stay exact**, step by step. -/
theorem sound_step {m : ForwardMove B} (h : Sound s) (hok : TakesSlot cfg s m)
    (hstep : forwardStep cfg s m = some s') : Sound s' := by
  cases m with
  | openCall held inputs =>
    cases hstep
    have hbegun : Sound { s with calls := s.calls ++ [Phase.failed (failure .plain "open")] } :=
      ⟨h.spend, h.slots, h.counts, h.bound⟩
    exact hbegun.proceed cfg (within_claimNonce held inputs) _
  | admitted call answer =>
    simp only [forwardStep] at hstep
    split at hstep
    · cases hstep
      exact h.proceed cfg (within_admitted _ _ _) call
    · cases hstep
  | allocated call answer reading again =>
    simp only [forwardStep] at hstep
    split at hstep
    · next number held hcall =>
      cases hstep
      refine h.allocated answer reading again fun streamId hanswer hgranted => ?_
      subst hanswer
      exact hok _ hcall _ rfl hgranted
    · cases hstep
  | hopBuilt call answer =>
    simp only [forwardStep] at hstep
    split at hstep
    · next hcall =>
      cases hstep
      exact h.proceedWith cfg (within_hopBuilt _ _) hok hcall rfl
    · cases hstep
  | reserved call answer =>
    simp only [forwardStep] at hstep
    split at hstep
    · next r hcall =>
      cases hstep
      exact h.reserved cfg answer (hok (r, false) (bind_eq_some_iff.mpr ⟨_, hcall, rfl⟩))
    · cases hstep
  | dialed call answer =>
    simp only [forwardStep] at hstep
    split at hstep
    · next hcall =>
      cases hstep
      exact h.proceedWith cfg (within_dialed _ _) hok hcall rfl
    · cases hstep
  | verified call answer look =>
    simp only [forwardStep] at hstep
    split at hstep
    · next hcall =>
      cases hstep
      exact h.proceedWith cfg (within_verified _ _ _ _) hok hcall rfl
    · cases hstep
  | resultBuilt call answer =>
    simp only [forwardStep] at hstep
    split at hstep
    · next hcall =>
      cases hstep
      exact h.proceedWith cfg (within_resultBuilt _ _) hok hcall rfl
    · cases hstep
  | activated call answer ticket issued inputs =>
    simp only [forwardStep] at hstep
    split at hstep
    · next hcall =>
      cases hstep
      exact h.activated answer ticket issued inputs fun e he => hok.hook hcall rfl he
    · cases hstep
  | closed call =>
    simp only [forwardStep] at hstep
    split at hstep
    · next r error hcall =>
      cases hstep
      refine Sound.setCall ?_ call _
      split
      · exact h
      · have hself : Same cfg s s := .refl s
        exact h.same ((within_settleClaim _ _ _).at hself)
    · cases hstep
  | closeHook r =>
    simp only [forwardStep] at hstep
    split at hstep
    · cases hstep
    · next record hr =>
      split at hstep
      · cases hstep
      · next session hsession =>
        rw [ite_none_right_eq_some] at hstep
        obtain ⟨⟨hclosed, -⟩, hs'⟩ := hstep
        cases hs'
        obtain ⟨scope, hscope, hsession⟩ := bind_eq_some_iff.mp hsession
        refine h.onScopeClose cfg hr (fun scope' session' hscope' hsession' => ?_) _
        obtain rfl := mem_unique hscope hscope'
        obtain rfl := mem_unique hsession hsession'
        exact hclosed
  | attach token expected port reading look again =>
    cases hstep
    exact h.same ((within_attach token expected port reading look again).at (.refl s))
  | close reason =>
    cases hstep
    have hclosing : Same cfg s { s with closing := true } := ⟨rfl, rfl, rfl, .refl⟩
    exact h.same (same_closeRecords reason _ (same_endClaims _ hclosing))
  | plane move =>
    obtain ⟨p, hp, rfl⟩ := map_eq_some_iff.mp hstep
    exact h.same ((Same.refl s).onPlane (Stream.planeStep_changes hp))

end Steps

/-! ### Runs -/

/-- How many records of a route are not terminal. -/
def Service.nonTerminal (s : Service B) (route : B) : ℕ :=
  s.records.countP fun record => record.routeKey = route ∧ record.status ≠ .terminal

theorem Sound.activeForRoute_eq {s : Service B} (h : Sound s) (route : B) :
    s.activeForRoute route = s.nonTerminal route := by
  rw [h.counts, countedOn, Service.slots, countP_map]
  refine countP_congr fun record hrecord => ?_
  have hslot := h.slots record.slot (mem_map_of_mem hrecord)
  have hcounted : record.routeCounted = !decide (record.status = .terminal) :=
    hslot.counted.trans (congrArg not hslot.terminal.symm)
  simp only [Function.comp_apply, Record.slot, decide_eq_true_eq, hcounted, Bool.not_eq_true',
    decide_eq_false_iff_not]

theorem sound_new (plane : Plane B) : Sound (Service.new plane) := by
  refine ⟨indexes_empty, nofun, fun _ => rfl, fun _ _ _ => Nat.zero_le _⟩

/-- **The slots of a route.** In every run whose steps meet `TakesSlot`, the records of a route that
are not terminal are at most as many as its routes allow, the count of a route is their number, and no
two records have the same spend. -/
theorem forward_route_capacity {cfg : Config B} {plane : Plane B} {s : Service B}
    {moves : List (ForwardMove B)} (hrun : run (forwardStep cfg) (.new plane) moves = some s)
    (hmeets : RunMeets (forwardStep cfg) (TakesSlot cfg) (.new plane) moves) :
    (∀ route bound, (∀ record ∈ s.records, record.routeKey = route →
        record.route.maxConcurrentStreams ≤ bound) → s.nonTerminal route ≤ bound) ∧
      (∀ route, s.activeForRoute route = s.nonTerminal route) ∧
      ∀ (r r' : ℕ) (record record' : Record B), s.records[r]? = some record →
        s.records[r']? = some record' → record.spendKey = record'.spendKey → r = r' := by
  have hsound : Sound s := run_invariant (TakesSlot cfg) Sound
    (fun s m s' h hok hstep => sound_step h hok hstep) (sound_new plane) hmeets hrun
  refine ⟨fun route bound hbound => ?_, hsound.activeForRoute_eq, fun r r' record record' hr hr' heq => ?_⟩
  · rw [← hsound.activeForRoute_eq, hsound.counts]
    refine hsound.bound route bound fun t ht hroute => ?_
    obtain ⟨record, hrecord, rfl⟩ := mem_map.mp ht
    exact hbound record hrecord hroute
  · have hkey : ∀ {r : ℕ} {record : Record B}, s.records[r]? = some record →
        (s.slots.map Slot.spendKey)[r]? = some record.spendKey := by
      intro r record hr
      rw [getElem?_map, slots_get? hr]
      rfl
    exact hsound.spend.unique (hkey hr) (heq ▸ hkey hr')

/-! ### Two calls -/

section Sample

/-- A service with the plane `Stream.samplePlane`. -/
def sampleConfig : Config ℕ where
  plane := Stream.samplePlane
  relayPublicKey := 1
  maxRecords := 4

/-- A request on a route that allows one stream. -/
def samplePrepared (nonce : ℕ) : Prepared ℕ where
  request := ⟨3, 1, 7, 1, 1, nonce⟩
  nonceKey := 100 + nonce
  parent := 6
  requestCommitment := 200 + nonce
  route := ⟨3, 1⟩
  routeScope := ⟨50, 51, 1⟩
  readiness := some ⟨1, 7, 400⟩

/-- The call of a request, up to its record. -/
def sampleOpening (call nonce spendTag streamId : ℕ) : List (ForwardMove ℕ) :=
  [.openCall (samplePrepared nonce) CoreOpen.sampleInputs, .admitted call (.ok (some ⟨true, spendTag⟩)),
    .allocated call (.ok streamId) (some 10) (some 10)]

/-- The open of the next hop for the second request. -/
def sampleHop : HopOpen ℕ where
  routeId := 3
  routeScope := ⟨50, 51, 1⟩
  circuitNonce := 6
  requestedWireClass := 1
  circuitClass := 1
  grantedInitialWindow := (samplePrepared 6).tuple.grantedInitialWindow
  maxDataBytes := (samplePrepared 6).maxDataBytes
  maxCircuitBytes := (samplePrepared 6).tuple.maxCircuitBytes
  idleMillis := (samplePrepared 6).tuple.idleMillis
  lifetimeMillis := (samplePrepared 6).tuple.lifetimeMillis
  clientRequestCommitment := 206

/-- The service after a run from its construction. -/
def sampleService (moves : List (ForwardMove ℕ)) : Option (Service ℕ) :=
  run (forwardStep sampleConfig) (.new (Plane.new ℕ)) moves

/-- A call whose session is closed while it awaits its hop, which then fails; another call on the same
route, whose hop is built; and a third one for which the route has no room. -/
def sampleRelease : List (ForwardMove ℕ) :=
  sampleOpening 0 5 21 9 ++ [.plane (.closeScope 0 "readiness-fenced"), .closeHook 0,
      .hopBuilt 0 (.error (failure .busy "hop")), .closed 0] ++
    sampleOpening 1 6 22 10 ++ [.hopBuilt 1 (.ok sampleHop), .reserved 1 (.ok ()),
      .openCall (samplePrepared 7) CoreOpen.sampleInputs, .admitted 2 (.ok (some ⟨true, 23⟩))]

theorem forward_route_capacity_sample :
    ∃ s, sampleService sampleRelease = some s ∧ s.records.map Record.status = [.terminal, .reserved] ∧
      s.activeForRoute 3 = 1 ∧ s.nonTerminal 3 ≤ 1 ∧ s.activeForRoute 3 = s.nonTerminal 3 := by
  have hsome : (sampleService sampleRelease).isSome = true := by decide +kernel
  obtain ⟨s, hs⟩ := isSome_iff_exists.mp hsome
  have hfacts : (sampleService sampleRelease).all fun s =>
      s.records.map Record.status = [.terminal, .reserved] ∧ s.activeForRoute 3 = 1 ∧
      ∀ record ∈ s.records, record.routeKey = 3 → record.route.maxConcurrentStreams ≤ 1 := by
    decide +kernel
  rw [hs, all_some, decide_eq_true_eq] at hfacts
  obtain ⟨hstatus, hactive, hbound⟩ := hfacts
  obtain ⟨hcapacity, hcount, -⟩ := forward_route_capacity hs (by decide +kernel)
  exact ⟨s, hs, hstatus, hactive, hcapacity 3 1 hbound, hcount 3⟩

/-- Two calls with one spend tag on the same route, which await their stream identifiers at the same
time. -/
def sampleRace : List (ForwardMove ℕ) :=
  (sampleOpening 0 5 21 9).zip (sampleOpening 1 6 21 10) |>.flatMap fun moves =>
    [moves.1, moves.2]

/-- **An update of the count is lost**: both calls find the route empty and the spend tag new, both
write back a count of one, and the route has two streams where one is allowed. -/
theorem overlapping_opens_exceed_route :
    ∃ s record record', sampleService sampleRace = some s ∧ s.records = [record, record'] ∧
      (∀ record ∈ s.records, record.routeKey = 3 ∧ record.route.maxConcurrentStreams = 1) ∧
      s.nonTerminal 3 = 2 ∧ s.activeForRoute 3 = 1 ∧ record.spendKey = record'.spendKey := by
  have hsome : (sampleService sampleRace).isSome = true := by decide +kernel
  obtain ⟨s, hs⟩ := isSome_iff_exists.mp hsome
  have hfacts : (sampleService sampleRace).all fun s => s.records.map Record.spendKey = [21, 21] ∧
      (∀ record ∈ s.records, record.routeKey = 3 ∧ record.route.maxConcurrentStreams = 1) ∧
      s.nonTerminal 3 = 2 ∧ s.activeForRoute 3 = 1 := by decide +kernel
  rw [hs, all_some, decide_eq_true_eq] at hfacts
  obtain ⟨hspends, hroute, hactive, hcount⟩ := hfacts
  obtain ⟨record, record', hpair⟩ : ∃ record record', s.records = [record, record'] := by
    have hlength := congrArg length hspends
    rw [length_map] at hlength
    exact length_eq_two.mp hlength
  refine ⟨s, record, record', hs, hpair, hroute, hactive, hcount, ?_⟩
  rw [hpair] at hspends
  simp only [map_cons, map_nil, cons.injEq, and_true] at hspends
  rw [hspends.1, hspends.2]

end Sample

end HiveRelay.ForwardOpen
