import HiveRelay.Quota.Authority
import HiveRelay.Quota.Blake2b
import HiveRelay.Quota.ChargeRegistry

/-!
# Terminal headroom

A reservation has to leave room for the terminal record and the tombstone of every session that is
there: 1344 bytes for a session that has neither, 736 for one that has its terminal record. Terminal
records and the tombstones of consumed sessions are not checked again, since their room was kept.

The check looks at the sessions that are there before the operation. An operation on a session that
is not there makes a slot of which nothing was checked, and so does a minimal terminal record; a
session that was pruned has no room left for a second tombstone. Operations that are none of these,
or find the room for their slot, keep the inequalities.

## Main definitions

* `Headroom` — the inequalities
* `Covered` — an operation that finds its room

## Main results

* `headroom_of_covered` — they hold along runs of such operations
-/

namespace HiveRelay.Quota

open List Option HiveRelay.Except OrderedMap Function

/-! ### Slots -/

def slotWeight (m : Mirror) : ℤ :=
  if m.present = true then
    if m.consumed = true then if m.pruned = true then 0 else 736
    else 1344
  else 0

section Slots

variable {sessions : OrderedMap Bytes Mirror} {id : Bytes} {m : Mirror}

theorem slotLogical_eq_sumBy (sessions : OrderedMap Bytes Mirror) :
    slotLogical sessions = sessions.sumBy fun _ m => slotWeight m := by
  unfold slotLogical unconsumed consumedUnpruned sumBy
  induction sessions.entries with
  | nil => rfl
  | cons e entries ih =>
    obtain ⟨k, m⟩ := e
    rw [map_cons, map_cons, sum_cons, ← ih]
    cases hp : m.present <;> cases hc : m.consumed <;> cases hr : m.pruned <;>
      simp [slotWeight, hp, hc, hr] <;> ring

theorem slotWeight_nonneg (m : Mirror) : 0 ≤ slotWeight m := by
  unfold slotWeight
  split
  · split
    · split <;> decide
    · decide
  · decide

theorem slotLogical_nonneg (sessions : OrderedMap Bytes Mirror) : 0 ≤ slotLogical sessions := by
  rw [slotLogical_eq_sumBy]
  exact sumBy_nonneg fun _ m _ => slotWeight_nonneg m

theorem slotLogical_set : slotLogical (sessions.set id m) =
    slotLogical sessions - slotWeight (mirrorOf sessions id) + slotWeight m := by
  rw [slotLogical_eq_sumBy, slotLogical_eq_sumBy, mirrorOf]
  cases hget : sessions.get? id with
  | none =>
    rw [sumBy_set_of_get?_eq_none _ hget, getD_none]
    show slotWeight m + _ = _ - 0 + slotWeight m
    ring
  | some old => rw [sumBy_set_of_get? _ _ hget, getD_some]

def SlotsSound (sessions : OrderedMap Bytes Mirror) : Prop :=
  ∀ id, (mirrorOf sessions id).consumed = true → (mirrorOf sessions id).present = true

theorem slotsSound_empty : SlotsSound .empty := nofun

theorem mirrorOf_set (sessions : OrderedMap Bytes Mirror) (id id' : Bytes) (m : Mirror) :
    mirrorOf (sessions.set id m) id' = if id' = id then m else mirrorOf sessions id' := by
  rw [mirrorOf, get?_set]
  split <;> rfl

theorem SlotsSound.set (h : SlotsSound sessions) (hm : m.consumed = true → m.present = true) :
    SlotsSound (sessions.set id m) := by
  intro id' hc
  rw [mirrorOf_set] at hc ⊢
  split
  · next heq =>
    rw [if_pos heq] at hc
    exact hm hc
  · next hne =>
    rw [if_neg hne] at hc
    exact h id' hc

end Slots

/-! ### What an entry does to a slot -/

section Entries

variable {C : Crypto} {mirror mirror' : Mirror} {entry : WalEntry} {id payload : Bytes}

theorem slotWeight_ordinary (hsound : mirror.consumed = true → mirror.present = true)
    (hbitmap : entry.authorityBitmap = 0) (hterminal : entry.terminalLogicalCharge = 0)
    (h : applySession C mirror entry id payload = .ok mirror') :
    mirror'.present = true ∧ slotWeight mirror' = slotWeight mirror + if mirror.present = true then 0 else 1344 := by
  obtain ⟨m, rfl, hpresent, hkept, -⟩ := applySession_eq_authorize h
  have hnot : ¬ 0 < entry.terminalLogicalCharge := by omega
  cases hc : mirror.consumed with
  | false =>
    have hm : m.consumed = false := hkept.consumed.trans hc
    simp only [authorize, hm, if_true, hbitmap, hnot, false_and, if_false]
    refine ⟨hpresent, ?_⟩
    cases hp : mirror.present <;> simp [slotWeight, hpresent, hp, hc]
  | true =>
    have hm : m.consumed = true := hkept.consumed.trans hc
    have hp := hsound hc
    simp only [authorize, hm, hnot, false_and, if_false, Bool.true_eq_false]
    refine ⟨hpresent, ?_⟩
    simp [slotWeight, hpresent, hp, hc, hm, hkept.pruned]

theorem slotWeight_terminal (hconsumed : mirror.consumed = false) (hterminal : 0 < entry.terminalLogicalCharge)
    (h : applySession C mirror entry id payload = .ok mirror') :
    mirror'.present = true ∧ slotWeight mirror' = 736 := by
  obtain ⟨m, rfl, hpresent, hkept, -⟩ := applySession_eq_authorize h
  have hm : m.consumed = false := hkept.consumed.trans hconsumed
  unfold authorize
  split
  · exact ⟨hpresent, by simp [slotWeight, hpresent, hterminal]⟩
  · exact ⟨hpresent, by simp [slotWeight, hpresent, hterminal]⟩

theorem slotWeight_prune {pruned : Tombstone} {label : UInt8}
    (hpair : PairValid pruned.flags pruned.allocationDisposition pruned.terminalSlotState)
    (h : matchFpr9AgainstMirror C (some mirror) pruned label id = .ok ()) :
    ((applyPrune C mirror pruned).consumed = true → (applyPrune C mirror pruned).present = true) ∧
      slotWeight (applyPrune C mirror pruned) ≤ slotWeight mirror ∧
      (pruned.flags = 0 → pruned.allocationDisposition = 0 → slotWeight (applyPrune C mirror pruned) = 0 ∧
          slotWeight mirror = if mirror.pruned = true then 0 else 736) := by
  simp only [matchFpr9AgainstMirror, guards_eq_ok, filter_eq_some_iff, some.injEq] at h
  obtain ⟨m, ⟨rfl, hpresent⟩, -, -, -, -, -, -, -, -, -, -, hslot, hfresh, hexisting, -⟩ := h
  unfold applyPrune
  split
  · next htwo =>
    refine ⟨fun _ => rfl, ?_, fun hzero => absurd hzero (by omega)⟩
    simp [slotWeight, hpresent, (hexisting htwo).2]
  · next htwo =>
    split
    · next hone =>
      refine ⟨by simp, ?_, fun _ hzero => absurd hzero (by omega)⟩
      exact slotWeight_nonneg mirror
    · next hne =>
      have hzero : pruned.flags = 0 ∧ pruned.allocationDisposition = 0 := by
        unfold PairValid at hpair
        omega
      have hconsumed := (hslot hzero.1).2 hzero.2
      refine ⟨fun _ => rfl, slotWeight_nonneg mirror, fun _ _ => ⟨rfl, ?_⟩⟩
      simp [slotWeight, hpresent, hconsumed]

end Entries

/-! ### Frames that are applied -/

def frameCharge (frame : ℕ × Bytes) : ℕ :=
  if frame.1 = 113 then type113LogicalBytes
  else if frame.1 = 99 ∨ frame.1 = 117 then ftm9LogicalBytes
  else if frame.1 = 100 ∨ frame.1 = 118 then fpr9LogicalBytes
  else frame.2.length + (frame.2.length + walFrameOverheadBytes)

/-- What a frame is charged that was not kept free for it: nothing, for a terminal record. -/
def frameNeed (frame : ℕ × Bytes) : ℕ :=
  if frame.1 = 99 ∨ frame.1 = 117 then 0 else frameCharge frame

/-- The frame is of a session, and no tombstone. -/
def OfSession (frame : ℕ × Bytes) : Prop :=
  frame.1 ≠ 100 ∧ frame.1 ≠ 118 ∧ frame.1 ≠ 101 ∧ frame.1 ≠ 119
  deriving Decidable

section Frames

variable {C : Crypto} {storeRole : StoreRole} {sessions sessions' : OrderedMap Bytes Mirror}
  {frame : WalFrame} {entry : WalEntry} {resolve : Bytes → Option Mirror}

theorem types_of_class {type : ℕ} {cls : WalClass} (h : (walRegistry type).map Prod.snd = some cls) :
    match cls with
    | .session => type ≠ 99 ∧ type ≠ 117 ∧ type ≠ 100 ∧ type ≠ 118 ∧ type ≠ 101 ∧ type ≠ 119
    | .sessionEmergency => type = 99 ∨ type = 117
    | .pruneTransition => type = 100 ∨ type = 118
    | .roleGlobal => type = 101 ∨ type = 119 := by
  unfold walRegistry at h
  split at h <;> cases h <;> simp

theorem stableSessionId_of_decodeFtm9Payload {payload : Bytes} {walType : ℕ} {terminal : Terminal}
    (h : decodeFtm9Payload C payload walType = .ok terminal) :
    terminal.stableSessionId = payload.window 8 32 := by
  simp only [decodeFtm9Payload, guards_eq_ok] at h
  obtain ⟨-, -, -, -, -, -, -, h⟩ := h
  split at h
  · simp only [guards_eq_ok] at h
    obtain ⟨-, -, rfl⟩ := h
    rfl
  · simp only [guards_eq_ok] at h
    obtain ⟨-, -, -, -, -, -, -, -, rfl⟩ := h
    rfl

theorem consumed_of_terminalAuthority {terminal : Terminal} {sequence : ℕ} {payloadHash id : Bytes}
    {authority : ℕ × List Bytes} (hsound : SlotsSound sessions)
    (h : terminalAuthority C storeRole terminal (sessions.get? id) sequence payloadHash =
      .ok authority) : (mirrorOf sessions id).consumed = false := by
  unfold terminalAuthority at h
  split at h
  · simp only [guards_eq_ok] at h
    have hpresent : (mirrorOf sessions id).present = false := by
      rw [mirrorOf]
      cases hget : sessions.get? id with
      | none => rfl
      | some m => exact (hget ▸ h.1 : (some m).elim false Mirror.present = false)
    by_contra hc
    have := hsound id (Bool.not_eq_false _ ▸ hc)
    rw [hpresent] at this
    cases this
  · simp only [guards_eq_ok, filter_eq_some_iff] at h
    obtain ⟨m, ⟨hm, htest⟩, -⟩ := h
    rw [mirrorOf, hm, getD_some]
    simp only [Bool.and_eq_true, Bool.not_eq_true'] at htest
    exact htest.1.1.2

/-- What an entry does to the room of the slots: a session that has none gets one. -/
structure SlotEffect (sessions sessions' : OrderedMap Bytes Mirror) (entry : WalEntry) (id : Bytes)
    (frame : ℕ × Bytes) : Prop where
  charge : entry.ordinaryLogicalCharge + entry.terminalLogicalCharge = frameCharge frame
  sound : SlotsSound sessions'
  same : ¬ OfSession frame → sessions' = sessions
  present : OfSession frame → (mirrorOf sessions' id).present = true
  slots : OfSession frame → slotLogical sessions' + frameCharge frame = slotLogical sessions +
    frameNeed frame + if (mirrorOf sessions id).present = true then 0 else 1344

theorem sessions_of_session {payload : Bytes} (hscope : entry.scope = .session) {id : Bytes}
    (hid : entry.stableSessionId = some id)
    (h : appliedSessions C sessions entry payload = .ok sessions') :
    ∃ mirror, applySession C (mirrorOf sessions id) entry id payload = .ok mirror ∧
      sessions' = sessions.set id mirror := by
  rw [appliedSessions, if_neg (by rw [hscope]; decide)] at h
  simp only [applyEntryToSessionMirror, hscope, hid, guards_eq_ok] at h
  obtain ⟨mirror, hmirror, rfl⟩ := h
  exact ⟨mirror, hmirror, rfl⟩

theorem slotEffect_ordinary (hsound : SlotsSound sessions)
    (hclass : (walRegistry frame.type).map Prod.snd = some .session) (hscope : entry.scope = .session)
    (hsession : entry.stableSessionId = some (frame.payload.window 4 32))
    (hterminal : entry.terminalLogicalCharge = 0) (hbitmap : entry.authorityBitmap = 0)
    (hcharge : entry.ordinaryLogicalCharge = frameCharge (frame.type, frame.payload))
    (hlength : 36 ≤ frame.payload.length) {id : Bytes}
    (hid : frameSession frame.type frame.payload = some id)
    (h : appliedSessions C sessions entry frame.payload = .ok sessions') :
    SlotEffect sessions sessions' entry id (frame.type, frame.payload) := by
  have htypes := types_of_class hclass
  have hof : OfSession (frame.type, frame.payload) := htypes.2.2
  have hneed : frameNeed (frame.type, frame.payload) = frameCharge (frame.type, frame.payload) :=
    if_neg (by show ¬ (frame.type = 99 ∨ frame.type = 117); omega)
  rw [frameSession, if_neg (by omega), if_pos hlength] at hid
  cases hid
  obtain ⟨mirror, hok, rfl⟩ := sessions_of_session hscope hsession h
  obtain ⟨hpresent, hweight⟩ := slotWeight_ordinary (hsound _) hbitmap hterminal hok
  refine ⟨by omega, hsound.set fun _ => hpresent, absurd hof, fun _ => ?_, fun _ => ?_⟩
  · rw [mirrorOf_set, if_pos rfl]
    exact hpresent
  · rw [slotLogical_set, hweight, hneed]
    omega

theorem slotEffect_of_derived (hsound : SlotsSound sessions)
    (hderived : Derived C storeRole frame sessions.get? entry)
    (hbytes : frame.frameBytes = frame.payload.length + walFrameOverheadBytes) {id : Bytes}
    (hid : frameSession frame.type frame.payload = some id)
    (h : appliedSessions C sessions entry frame.payload = .ok sessions') (hwalType : entry.walType = frame.type) :
    SlotEffect sessions sessions' entry id (frame.type, frame.payload) := by
  cases hderived with
  | run hclass hscope hsession hwal hcharge hterminal hlength hbitmap _ =>
    refine slotEffect_ordinary hsound hclass hscope hsession hterminal hbitmap ?_ (by omega) hid h
    rw [hcharge, frameCharge, if_pos (hwalType.symm.trans hwal)]
  | other hclass hscope hsession hwal hcharge hterminal hlength hbitmap _ =>
    refine slotEffect_ordinary hsound hclass hscope hsession hterminal hbitmap ?_ hlength hid h
    have htypes := types_of_class hclass
    rw [hcharge, frameCharge, if_neg (hwalType ▸ hwal), if_neg (by show ¬ (frame.type = _ ∨ _); omega),
      if_neg (by show ¬ (frame.type = _ ∨ _); omega), hbytes]
  | terminal terminal hclass hscope hsession hwal hcharge hterminal hdecode hauthority =>
    have htypes : frame.type = 99 ∨ frame.type = 117 := types_of_class hclass
    have hof : OfSession (frame.type, frame.payload) := by
      show frame.type ≠ 100 ∧ frame.type ≠ 118 ∧ frame.type ≠ 101 ∧ frame.type ≠ 119
      omega
    have hframe : frameCharge (frame.type, frame.payload) = ftm9LogicalBytes := by
      rw [frameCharge, if_neg (hwalType ▸ hwal), if_pos htypes]
    have hneed : frameNeed (frame.type, frame.payload) = 0 := if_pos htypes
    have hlength : 40 ≤ frame.payload.length := by
      by_contra hlt
      rw [frameSession, if_pos (by omega), if_neg hlt] at hid
      cases hid
    rw [frameSession, if_pos (by omega), if_pos hlength, ← stableSessionId_of_decodeFtm9Payload hdecode] at hid
    cases hid
    have hconsumed := consumed_of_terminalAuthority hsound hauthority
    obtain ⟨mirror, hok, rfl⟩ := sessions_of_session hscope hsession h
    obtain ⟨hpresent, hweight⟩ := slotWeight_terminal hconsumed (by rw [hterminal]; decide) hok
    refine ⟨by omega, hsound.set fun _ => hpresent, absurd hof, fun _ => ?_, fun _ => ?_⟩
    · rw [mirrorOf_set, if_pos rfl]
      exact hpresent
    · -- what is charged was kept free for a session that is there
      rw [slotLogical_set, hweight, hneed, hframe, slotWeight, hconsumed]
      unfold ftm9LogicalBytes
      split <;> simp <;> ring
  | prune pruned hclass hscope _ _ _ hcharge hterminal =>
    have htypes : frame.type = 100 ∨ frame.type = 118 := types_of_class hclass
    have hnot : ¬ OfSession (frame.type, frame.payload) := by
      show ¬ (frame.type ≠ 100 ∧ frame.type ≠ 118 ∧ _ ∧ _)
      omega
    rw [appliedSessions, if_pos hscope] at h
    cases h
    refine ⟨?_, hsound, fun _ => rfl, fun hof => absurd hof hnot, fun hof => absurd hof hnot⟩
    rw [hcharge, hterminal, frameCharge, if_neg (by show frame.type ≠ 113; omega),
      if_neg (by show ¬ (frame.type = _ ∨ _); omega), if_pos htypes]
    rfl
  | roleGlobal hclass hscope _ hcharge hterminal =>
    have htypes : frame.type = 101 ∨ frame.type = 119 := types_of_class hclass
    have hnot : ¬ OfSession (frame.type, frame.payload) := by
      show ¬ (_ ∧ _ ∧ frame.type ≠ 101 ∧ frame.type ≠ 119)
      omega
    rw [appliedSessions, if_neg (by rw [hscope]; decide)] at h
    simp only [applyEntryToSessionMirror, hscope, pure_eq_ok_iff] at h
    subst h
    refine ⟨?_, hsound, fun _ => rfl, fun hof => absurd hof hnot, fun hof => absurd hof hnot⟩
    rw [hcharge, hterminal, frameCharge, if_neg (by show frame.type ≠ 113; omega),
      if_neg (by show ¬ (frame.type = _ ∨ _); omega), if_neg (by show ¬ (frame.type = _ ∨ _); omega),
      hbytes]
    rfl

end Frames

/-! ### Operations -/

/-- The buffers that are known when a plan is made. -/
def PlanRequest.known : PlanRequest → List Bytes
  | .replay _ encoded _ _ => encoded
  | .store _ known _ _ => known

/-- The end of an operation, with the frames that were applied or the tombstone that it is given. -/
inductive Closing where
  | commit (role : QuotaRole) (frames : List (ℕ × Bytes))
  | adjust (role : QuotaRole) (request : PlanRequest) (tombstone : Bytes)

section Operations

variable (C : Crypto) (limits : Limits)

/-- The calls on a reservation between its reserve and its end, each of which returns before the next
is made. -/
inductive Worked (role : QuotaRole) (ledger : Ledger) (r : Reservation) :
    List (ℕ × Bytes) → Ledger → Reservation → Prop
  | reserved : Worked role ledger r [] ledger r
  | bind {frames : List (ℕ × Bytes)} {ledger' : Ledger} {r' r'' : Reservation} {input : ActualBuffers}
      (h : Worked role ledger r frames ledger' r')
      (hbind : bindForwardHttpsStoreQuotaActualBuffersV3 C ledger' role r' input = .ok r'') :
      Worked role ledger r frames ledger' r''
  | apply {frames : List (ℕ × Bytes)} {ledger' : Ledger} {r' begun r'' : Reservation}
      {storeRole : StoreRole} {ordinal type : ℕ} {payload : Bytes} {durable : WalFrame}
      {sessions : OrderedMap Bytes Mirror} {entry : WalEntry}
      (h : Worked role ledger r frames ledger' r') (hstore : role.store? = some storeRole)
      (hbegin : beginApply role r' ordinal type payload = .appending begun)
      (htype : durable.type = type) (hpayload : durable.payload = payload)
      (happlied : applied C storeRole (ledger'.sessions storeRole) begun ordinal durable =
        .ok (r'', sessions, entry)) :
      Worked role ledger r (frames ++ [(type, payload)]) (ledger'.setSessions storeRole sessions) r''

/-- **An operation that is executed alone and without a failure**: its plan is made, reserved, bound
and applied, with frames up to the ceiling of its row, and committed or adjusted. The directories are
measured at the reserve and at the end. -/
inductive Operated : Ledger → Closing → Ledger → Prop
  | commit {ledger ledger' : Ledger} {role : QuotaRole} {request : PlanRequest} {plan : Plan}
      {physical physical' : QuotaRole → ℕ} {ticket : ℕ} {r r' : Reservation}
      {frames : List (ℕ × Bytes)} {head : ℕ × Bytes}
      (hplan : createPlan C role request = .ok plan)
      (hreserved : reserved limits { ledger with physical := physical } role plan ticket = .ok r)
      (hwork : Worked C role { ledger with physical := physical } r frames ledger' r')
      (hsizes : (frames.map frameCharge).sum ≤ (operationRow plan.operation).elim 0 OperationRow.logical)
      (hcommit : commitChecks role r' head = .ok ())
      (hensure : ensureQuota limits { committed ledger' role r' with physical := physical' } none 0 0
        false = .ok ()) :
      Operated ledger (.commit role frames) { committed ledger' role r' with physical := physical' }
  | adjust {ledger ledger' ledger'' : Ledger} {role : QuotaRole} {storeRole : StoreRole}
      {request : PlanRequest} {plan : Plan} {physical physical' : QuotaRole → ℕ} {ticket : ℕ}
      {r r' : Reservation} {frames : List (ℕ × Bytes)} {head : ℕ × Bytes} {tombstone : Bytes}
      {pruned : Tombstone} (hplan : createPlan C role request = .ok plan)
      (hreserved : reserved limits { ledger with physical := physical } role plan ticket = .ok r)
      (hwork : Worked C role { ledger with physical := physical } r frames ledger' r')
      (hstore : role.store? = some storeRole)
      (hadjust : adjustChecks C (ledger'.sessions storeRole) role r' tombstone head = .ok pruned)
      (hadjusted : adjusted C ledger' storeRole pruned = .ok ledger'') :
      Operated ledger (.adjust role request tombstone) { ledger'' with physical := physical' }

end Operations

/-! ### Room -/

/-- The ledger of a store with what is kept free. -/
def exposure (ledger : Ledger) (role : StoreRole) : ℤ :=
  ledger.logical role + slotLogical (ledger.sessions role)

/-- A store has room for some bytes, and so have both together. -/
def Room (limits : Limits) (ledger : Ledger) (role : StoreRole) (bytes : ℤ) : Prop :=
  exposure ledger role + bytes ≤ limits.perStore ∧
    exposure ledger .source + exposure ledger .target + bytes ≤ limits.aggregate

def Headroom (limits : Limits) (ledger : Ledger) : Prop :=
  (∀ role, exposure ledger role ≤ limits.perStore) ∧
    exposure ledger .source + exposure ledger .target ≤ limits.aggregate

/-- An operation on a session that is not there finds room for its slot. A tombstone is the one that
its plan was made of, and not a second one of a consumed session, or else there is room for it. -/
def Covered (limits : Limits) (before : Ledger) : Closing → Prop
  | .commit role frames => ∀ storeRole id, role.store? = some storeRole →
      (∃ frame ∈ frames, OfSession frame ∧ frameSession frame.1 frame.2 = some id) →
      (mirrorOf (before.sessions storeRole) id).present = false →
      Room limits before storeRole ((frames.map frameNeed).sum + 1344)
  | .adjust role request tombstone => ∀ storeRole pruned, role.store? = some storeRole →
      decodeForwardHttpsRetentionPrunedV3 tombstone = .ok pruned →
      (request.known = [tombstone] ∧ ¬ (pruned.flags = 0 ∧ pruned.allocationDisposition = 0 ∧
        (mirrorOf (before.sessions storeRole) pruned.stableSessionId).pruned = true)) ∨
      Room limits before storeRole (736 - (pruned.removedOrdinaryLogicalBytes : ℤ))

section Run

variable {C : Crypto} {limits : Limits} {role : QuotaRole} {storeRole : StoreRole} {plan : Plan}
  {request : PlanRequest} {ledger ledger' : Ledger} {r r' : Reservation} {frames : List (ℕ × Bytes)}

theorem plan_of_store {operation : Operation} {known temporary : List Bytes} {existing : ℕ}
    (h : createForwardHttpsStoreQuotaCostPlanV3 C role operation known temporary existing =
      .ok plan) : plan.operation = operation ∧
      (operation = .prune → ∃ tombstone pruned, known = [tombstone] ∧
        decodeForwardHttpsRetentionPrunedV3 tombstone = .ok pruned ∧
        plan.logicalBytes = 736 - (pruned.removedOrdinaryLogicalBytes : ℤ) ∧
        (plan.isProtected = true ↔ pruned.flags = 0 ∧ pruned.allocationDisposition = 0)) ∧
      (operation ≠ .prune → plan.logicalBytes = (operationRow operation).elim 0 OperationRow.logical ∧
        (plan.isProtected = true → operation = .sessionTerminal)) := by
  simp only [createForwardHttpsStoreQuotaCostPlanV3, guards_eq_ok] at h
  obtain ⟨_, -, row, hrow, -, -, h⟩ := h
  rw [hrow]
  split at h
  · simp only [guards_eq_ok] at h
    obtain ⟨tombstone, hknown, pruned, hdecode, -, rfl⟩ := h
    refine ⟨rfl, fun _ => ⟨tombstone, pruned, ?_, hdecode, rfl, by simp⟩, absurd rfl⟩
    unfold onlyBuffer at hknown
    split at hknown
    · rw [some.inj hknown]
    · cases hknown
  · simp only [guards_eq_ok] at h
    obtain ⟨record, -, h⟩ := h
    split at h
    · cases h
    · cases h
      exact ⟨rfl, nofun, fun _ => ⟨rfl, fun _ => rfl⟩⟩
  · cases h
    exact ⟨rfl, nofun, fun _ => ⟨rfl, nofun⟩⟩
  · cases h
    exact ⟨rfl, nofun, fun _ => ⟨rfl, nofun⟩⟩
  · next hprune _ _ _ =>
    cases h
    exact ⟨rfl, fun heq => absurd heq hprune, fun _ => ⟨rfl, nofun⟩⟩

theorem store_of_createPlan (hstore : role.store? = some storeRole)
    (h : createPlan C role request = .ok plan) : ∃ operation temporary existing,
      createForwardHttpsStoreQuotaCostPlanV3 C role operation request.known temporary existing =
        .ok plan := by
  cases request with
  | replay operation encoded existing coexist =>
    simp only [createPlan, createForwardHttpsReplayQuotaCostPlanV3, guards_eq_ok] at h
    rw [h.1] at hstore
    cases hstore
  | store operation known temporary existing => exact ⟨operation, temporary, existing, h⟩

theorem reserved_spec {ticket : ℕ} (h : reserved limits ledger role plan ticket = .ok r) :
    ensureQuota limits ledger (some role) plan.logicalBytes plan.physicalBytes plan.isProtected = .ok () ∧
      terminalKind limits ledger role plan = .ok r.terminal ∧ r.plan = plan ∧ r.bound = false ∧
      r.claims = [] ∧ r.derivedLogical = 0 := by
  simp only [reserved, guards_eq_ok] at h
  obtain ⟨_, hensure, terminal, hterminal, rfl⟩ := h
  exact ⟨hensure, hterminal, rfl, rfl, rfl, rfl⟩

theorem terminal_ne_none {ticket : ℕ} (h : reserved limits ledger role plan ticket = .ok r)
    (hoperation : plan.operation = .sessionTerminal) : r.terminal ≠ none := by
  have hterminal := (reserved_spec h).2.1
  rw [terminalKind, if_pos hoperation] at hterminal
  simp only [guards_eq_ok] at hterminal
  rw [← hterminal.2]
  exact some_ne_none _

theorem room_of_ensureQuota (hstore : role.store? = some storeRole) {bytes : ℤ} {physical : ℕ}
    (h : ensureQuota limits ledger (some role) bytes physical false = .ok ()) :
    Room limits ledger storeRole bytes := by
  simp only [ensureQuota, Bool.false_eq_true, if_false, bind_some, hstore, guards_eq_ok] at h
  obtain ⟨⟨hsource, htarget⟩, -, haggregate, -⟩ := h
  unfold Room exposure
  cases storeRole with
  | source =>
    simp only [plannedFor, if_true] at hsource
    constructor <;> omega
  | target =>
    simp only [plannedFor, if_true] at htarget
    constructor <;> omega

/-- What the work on a reservation of a store comes to. -/
structure Progress (storeRole : StoreRole) (ledger : Ledger) (r : Reservation)
    (frames : List (ℕ × Bytes)) (ledger' : Ledger) (r' : Reservation) : Prop where
  plan : r'.plan = r.plan
  terminal : r'.terminal = r.terminal
  logical : ledger'.logical = ledger.logical
  others : ∀ other, other ≠ storeRole → ledger'.sessions other = ledger.sessions other
  sound : SlotsSound (ledger'.sessions storeRole)
  derived : r'.derivedLogical = (frames.map frameCharge).sum
  unbound : r'.bound = false → frames = [] ∧ r'.claims = []
  one : r'.bound = true → (r.terminal ≠ none → r'.totalFrames = 1) ∧
    (r.plan.operation = .prune → r.terminal = none ∧ r'.totalFrames = 1)
  types : (r.terminal ≠ none → ∀ frame ∈ frames, frame.1 = 99 ∨ frame.1 = 117) ∧
    (r.plan.operation = .prune → ∀ frame ∈ frames, frame.1 = 100 ∨ frame.1 = 118)
  session : ∀ frame ∈ frames, OfSession frame → frameSession frame.1 frame.2 = some r'.stableSessionId
  /-- Before a frame of the session nothing has changed. -/
  before : (∀ frame ∈ frames, ¬ OfSession frame) → ledger'.sessions storeRole = ledger.sessions storeRole ∧
      (frames.map frameNeed).sum = (frames.map frameCharge).sum
  /-- From the first on the session is there. -/
  after : (∃ frame ∈ frames, OfSession frame) →
    (mirrorOf (ledger'.sessions storeRole) r'.stableSessionId).present = true ∧
      slotLogical (ledger'.sessions storeRole) + (frames.map frameCharge).sum =
        slotLogical (ledger.sessions storeRole) + (frames.map frameNeed).sum +
          if (mirrorOf (ledger.sessions storeRole) r'.stableSessionId).present = true then 0 else 1344

theorem frameNeed_of_not_ofSession {frame : ℕ × Bytes} (h : ¬ OfSession frame) :
    frameNeed frame = frameCharge frame := by
  unfold OfSession at h
  exact if_neg (by omega)

section Concat

variable {frame : ℕ × Bytes} {sessions : OrderedMap Bytes Mirror} {entry : WalEntry}

theorem sum_map_frames_concat (f : ℕ × Bytes → ℕ) (frames : List (ℕ × Bytes)) (frame : ℕ × Bytes) :
    ((frames ++ [frame]).map f).sum = (frames.map f).sum + f frame := by
  rw [map_append, sum_append]
  rfl

theorem forall_mem_frames_concat {P : ℕ × Bytes → Prop} (hall : ∀ f ∈ frames, P f) (hlast : P frame) :
    ∀ f ∈ frames ++ [frame], P f := by
  intro f hf
  rcases mem_append.mp hf with hf | hf
  · exact hall f hf
  · rw [mem_singleton.mp hf]
    exact hlast

theorem Progress.types_concat (h : Progress storeRole ledger r frames ledger' r') (hb : r'.bound = true)
    (hfinal : r'.totalFrames = 1 → frame.1 ∈ r'.frameRow.elim [] FrameRow.finalTypes) :
    (r.terminal ≠ none → ∀ f ∈ frames ++ [frame], f.1 = 99 ∨ f.1 = 117) ∧
      (r.plan.operation = .prune → ∀ f ∈ frames ++ [frame], f.1 = 100 ∨ f.1 = 118) := by
  obtain ⟨honeTerminal, honePrune⟩ := h.one hb
  refine ⟨fun hne => forall_mem_frames_concat (h.types.1 hne) ?_,
    fun hoperation => forall_mem_frames_concat (h.types.2 hoperation) ?_⟩
  · have hlast := hfinal (honeTerminal hne)
    obtain ⟨kind, hkind⟩ := ne_none_iff_exists'.mp hne
    rw [Reservation.frameRow, h.terminal, hkind] at hlast
    simpa [frameRow] using hlast
  · obtain ⟨hnone, hone⟩ := honePrune hoperation
    have hlast := hfinal hone
    rw [Reservation.frameRow, h.terminal, hnone, h.plan, hoperation] at hlast
    simpa [frameRow] using hlast

theorem Progress.before_concat (h : Progress storeRole ledger r frames ledger' r')
    (heffect : SlotEffect (ledger'.sessions storeRole) sessions entry r'.stableSessionId frame)
    (hnone : ∀ f ∈ frames ++ [frame], ¬ OfSession f) : sessions = ledger.sessions storeRole ∧
      ((frames ++ [frame]).map frameNeed).sum = ((frames ++ [frame]).map frameCharge).sum := by
  have hnot := hnone _ (mem_append_right _ (mem_singleton_self _))
  obtain ⟨hsame, hneed⟩ := h.before fun f hf => hnone f (mem_append_left _ hf)
  rw [heffect.same hnot, sum_map_frames_concat, sum_map_frames_concat, hneed, frameNeed_of_not_ofSession hnot]
  exact ⟨hsame, rfl⟩

theorem Progress.after_concat (h : Progress storeRole ledger r frames ledger' r')
    (heffect : SlotEffect (ledger'.sessions storeRole) sessions entry r'.stableSessionId frame)
    (hsome : ∃ f ∈ frames ++ [frame], OfSession f) : (mirrorOf sessions r'.stableSessionId).present = true ∧
      slotLogical sessions + ((frames ++ [frame]).map frameCharge).sum =
        slotLogical (ledger.sessions storeRole) + ((frames ++ [frame]).map frameNeed).sum +
          if (mirrorOf (ledger.sessions storeRole) r'.stableSessionId).present = true then 0 else 1344 := by
  rw [sum_map_frames_concat, sum_map_frames_concat]
  by_cases hlast : OfSession frame
  · refine ⟨heffect.present hlast, ?_⟩
    have hslots := heffect.slots hlast
    by_cases hany : ∃ f ∈ frames, OfSession f
    · obtain ⟨hpresent, hbefore⟩ := h.after hany
      rw [if_pos hpresent] at hslots
      omega
    · obtain ⟨hsame, hneed⟩ := h.before fun f hf hof => hany ⟨f, hf, hof⟩
      rw [hsame] at hslots
      omega
  · have hany : ∃ f ∈ frames, OfSession f := by
      obtain ⟨f, hf, hof⟩ := hsome
      rcases mem_append.mp hf with hf | hf
      · exact ⟨f, hf, hof⟩
      · rw [mem_singleton.mp hf] at hof
        exact absurd hof hlast
    obtain ⟨hpresent, hbefore⟩ := h.after hany
    rw [heffect.same hlast, frameNeed_of_not_ofSession hlast]
    exact ⟨hpresent, by omega⟩

end Concat

theorem Worked.progress (h : Worked C role ledger r frames ledger' r')
    (hstore : role.store? = some storeRole) (hsound : SlotsSound (ledger.sessions storeRole))
    (hbound : r.bound = false) (hclaims : r.claims = []) (hderived : r.derivedLogical = 0) :
    Progress storeRole ledger r frames ledger' r' := by
  induction h with
  | reserved =>
    exact
      { plan := rfl
        terminal := rfl
        logical := rfl
        others := fun _ _ => rfl
        sound := hsound
        derived := hderived
        unbound := fun _ => ⟨rfl, hclaims⟩
        one := fun hb => absurd (hbound.symm.trans hb) Bool.false_ne_true
        types := ⟨nofun,
          nofun⟩
        session := nofun
        before := fun _ => ⟨rfl, rfl⟩
        after := fun ⟨_, hmem, _⟩ => absurd hmem not_mem_nil }
  | bind _ hbind ih =>
    obtain ⟨hunbound, ⟨total, session, commitment, rfl⟩, hterminal, hprune⟩ := bound_of_bind hbind
    obtain ⟨rfl, -⟩ := ih.unbound hunbound
    exact
      { ih with
        unbound := nofun
        one := fun _ => ⟨fun hne => hterminal (ih.terminal ▸ hne), fun hoperation => by
          have := hprune (ih.plan ▸ hoperation)
          rwa [ih.terminal] at this⟩
        session := nofun
        after := fun ⟨_, hmem, _⟩ => absurd hmem not_mem_nil }
  | @apply frames ledger' r' begun r'' storeRole' ordinal type payload durable sessions entry hwork
      hstore' hbegin htype hpayload happlied ih =>
    obtain rfl : storeRole = storeRole' := mem_unique hstore hstore'
    subst htype hpayload
    have hbegun := begun_of_beginApply hbegin
    obtain ⟨-, -, hderive, hsessions, handoff, claims, rfl⟩ := applied_of_applied happlied
    obtain ⟨hfrom, hentry⟩ := derived_of_derive hderive
    have heffect : SlotEffect (ledger'.sessions storeRole) sessions entry r'.stableSessionId
        (durable.type, durable.payload) :=
      slotEffect_of_derived ih.sound hentry rfl hbegun.session hsessions hfrom.walType_eq
    obtain ⟨rfl⟩ := hbegun.eq
    have hb : r'.bound = true := by
      by_contra hb
      obtain ⟨-, hnil⟩ := ih.unbound (Bool.not_eq_true _ ▸ hb)
      obtain ⟨state, hstate, -⟩ := hbegun.claim
      rw [hnil] at hstate
      cases hstate
    have hfinal : r'.totalFrames = 1 → durable.type ∈ r'.frameRow.elim [] FrameRow.finalTypes :=
      fun hone => hbegun.final (by omega)
    have hself : (ledger'.setSessions storeRole sessions).sessions storeRole = sessions :=
      update_self _ _ _
    exact
      { ih with
        others := fun other hne => (update_of_ne hne _ _).trans (ih.others other hne)
        sound := by rw [hself]; exact heffect.sound
        derived := by
          have hcharge := heffect.charge
          rw [sum_map_frames_concat, ← ih.derived, ← hcharge]
          exact Nat.add_assoc _ _ _
        unbound := fun hfalse => absurd (hfalse.symm.trans hb) Bool.false_ne_true
        one := fun _ => ih.one hb
        types := ih.types_concat hb hfinal
        session := forall_mem_frames_concat ih.session fun _ => hbegun.session
        before := by
          rw [hself]
          exact ih.before_concat heffect
        after := by
          rw [hself]
          exact ih.after_concat heffect }

theorem Worked.same (h : Worked C role ledger r frames ledger' r') (hstore : role.store? = none) :
    ledger' = ledger := by
  induction h with
  | reserved => rfl
  | bind _ _ ih => exact ih
  | apply _ hstore' => rw [hstore] at hstore'; cases hstore'

theorem Room.mono {bytes bytes' : ℤ} (h : Room limits ledger storeRole bytes') (hle : bytes ≤ bytes') :
    Room limits ledger storeRole bytes := by
  obtain ⟨hstore, haggregate⟩ := h
  constructor <;> omega

theorem Headroom.room (h : Headroom limits ledger) : Room limits ledger storeRole 0 :=
  ⟨by simpa using h.1 storeRole, by simpa using h.2⟩

theorem Headroom.of_room (h : Headroom limits ledger) {bytes : ℤ} (hroom : Room limits ledger storeRole bytes)
    (hgrown : exposure ledger' storeRole = exposure ledger storeRole + bytes)
    (hothers : ∀ other, other ≠ storeRole → exposure ledger' other = exposure ledger other) :
    Headroom limits ledger' := by
  refine ⟨fun other => ?_, ?_⟩
  · by_cases heq : other = storeRole
    · rw [heq, hgrown]
      exact hroom.1
    · rw [hothers other heq]
      exact h.1 other
  · have := hroom.2
    cases storeRole with
    | source =>
      rw [hgrown, hothers .target (by decide)]
      omega
    | target =>
      rw [hgrown, hothers .source (by decide)]
      omega

theorem sum_frameNeed_of_terminal (h : ∀ frame ∈ frames, frame.1 = 99 ∨ frame.1 = 117) :
    (frames.map frameNeed).sum = 0 := by
  refine sum_eq_zero fun n hn => ?_
  obtain ⟨frame, hframe, rfl⟩ := mem_map.mp hn
  exact if_pos (h frame hframe)

theorem sum_frameNeed_le (frames : List (ℕ × Bytes)) : (frames.map frameNeed).sum ≤ (frames.map frameCharge).sum := by
  refine sum_le_sum fun frame _ => ?_
  unfold frameNeed
  split
  · exact Nat.zero_le _
  · exact le_rfl

theorem room_of_commit {physical : QuotaRole → ℕ} {ticket : ℕ} (h : Headroom limits ledger)
    (hstore : role.store? = some storeRole) (hplan : createPlan C role request = .ok plan)
    (hreserved : reserved limits { ledger with physical := physical } role plan ticket = .ok r)
    (hprogress : Progress storeRole { ledger with physical := physical } r frames ledger' r')
    (hsizes : (frames.map frameCharge).sum ≤ (operationRow plan.operation).elim 0 OperationRow.logical)
    (hprune : plan.operation ≠ .prune) (hcovered : Covered limits ledger (.commit role frames)) :
    ∃ slot : ℤ, Room limits ledger storeRole ((frames.map frameNeed).sum + slot) ∧
      slotLogical (ledger'.sessions storeRole) + (frames.map frameCharge).sum =
        slotLogical (ledger.sessions storeRole) + (frames.map frameNeed).sum + slot := by
  obtain ⟨operation, temporary, existing, hrequest⟩ := store_of_createPlan hstore hplan
  obtain ⟨hoperation, -, hordinary⟩ := plan_of_store hrequest
  rw [← hoperation] at hordinary
  obtain ⟨hlogical, hprotected⟩ := hordinary hprune
  obtain ⟨hensure, -, hplanned, -⟩ := reserved_spec hreserved
  -- without a new slot the plan was checked for what the frames need
  have hchecked : Room limits ledger storeRole (frames.map frameNeed).sum := by
    cases hp : plan.isProtected with
    | false =>
      rw [hp] at hensure
      have hroom : Room limits { ledger with physical := physical } storeRole plan.logicalBytes :=
        room_of_ensureQuota hstore hensure
      refine Room.mono hroom ?_
      have := sum_frameNeed_le frames
      omega
    | true =>
      have hterminal := terminal_ne_none hreserved (hprotected hp)
      rw [sum_frameNeed_of_terminal (hprogress.types.1 hterminal)]
      exact h.room
  by_cases hany : ∃ frame ∈ frames, OfSession frame
  · obtain ⟨hpresent, hslots⟩ := hprogress.after hany
    refine ⟨_, ?_, hslots⟩
    split
    · simpa using hchecked
    · next habsent =>
      obtain ⟨frame, hframe, hof⟩ := hany
      exact hcovered storeRole r'.stableSessionId hstore
        ⟨frame, hframe, hof, hprogress.session frame hframe hof⟩ (Bool.not_eq_true _ ▸ habsent)
  · obtain ⟨hsame, hneed⟩ := hprogress.before fun f hf hof => hany ⟨f, hf, hof⟩
    refine ⟨0, by simpa using hchecked, ?_⟩
    rw [hsame, hneed, add_zero]

theorem commitChecks_spec (before : Ledger) {head : ℕ × Bytes} (hstore : role.store? = some storeRole)
    (h : commitChecks role r head = .ok ()) : r.plan.operation ≠ .prune ∧ committed before role r =
        before.setLogical storeRole (before.logical storeRole + (r.derivedLogical : ℤ)) := by
  simp only [commitChecks, guards_eq_ok] at h
  obtain ⟨hprune, -, -, hbound⟩ := h
  have hb : r.bound = true := by
    rcases hbound with hb | hnone
    · exact hb
    · rw [hstore] at hnone
      cases hnone
  refine ⟨hprune, ?_⟩
  rw [committed, hstore]
  simp only [hb, if_true]

theorem adjustChecks_spec {sessions : OrderedMap Bytes Mirror} {tombstone : Bytes} {head : ℕ × Bytes}
    {pruned : Tombstone} (h : adjustChecks C sessions role r tombstone head = .ok pruned) :
    r.plan.operation = .prune ∧ r.bound = true ∧ decodeForwardHttpsRetentionPrunedV3 tombstone = .ok pruned ∧
      matchFpr9AgainstMirror C (some (mirrorOf sessions pruned.stableSessionId)) pruned (roleByte role)
        pruned.stableSessionId = .ok () := by
  simp only [adjustChecks, guards_eq_ok] at h
  obtain ⟨hpending, hbound, -, -, pruned₀, hdecode, -, h⟩ := h
  split at h
  · cases h
  · next hmatch =>
    cases h
    exact ⟨hpending.2.2, hbound.1, hdecode, some_mirrorOf_of_match hmatch⟩

/-- The sessions of all stores are sound. -/
def LedgerSound (ledger : Ledger) : Prop := ∀ role, SlotsSound (ledger.sessions role)

/-- An operation that is covered keeps the inequalities. -/
theorem Operated.headroom {before after : Ledger} {closing : Closing}
    (h : Operated C limits before closing after) (hheadroom : Headroom limits before)
    (hsound : LedgerSound before) (hcovered : Covered limits before closing) :
    Headroom limits after ∧ LedgerSound after := by
  cases h with
  | @commit ledger' role request plan physical physical' ticket r r' frames head hplan hreserved hwork
      hsizes hcommit hensure =>
    obtain ⟨-, -, hplanned, hbound, hclaims, hderived⟩ := reserved_spec hreserved
    cases hstore : role.store? with
    | none =>
      have hsame : committed ledger' role r' = ledger' := by
        rw [committed, hstore]
      rw [hsame, hwork.same hstore]
      exact ⟨hheadroom, hsound⟩
    | some storeRole =>
      have hprogress := hwork.progress hstore (hsound storeRole) hbound hclaims hderived
      obtain ⟨hprune, hcommitted⟩ := commitChecks_spec ledger' hstore hcommit
      rw [hprogress.plan, hplanned] at hprune
      obtain ⟨slot, hroom, hslots⟩ :=
        room_of_commit hheadroom hstore hplan hreserved hprogress hsizes hprune hcovered
      rw [hcommitted]
      refine ⟨hheadroom.of_room hroom ?_ fun other hne => ?_, fun other => ?_⟩
      · show update ledger'.logical storeRole _ storeRole +
          slotLogical (ledger'.sessions storeRole) = before.logical storeRole +
            slotLogical (before.sessions storeRole) + _
        rw [update_self, hprogress.logical, hprogress.derived]
        show before.logical storeRole + _ + _ = _
        omega
      · show update ledger'.logical storeRole _ other + slotLogical (ledger'.sessions other) = _
        rw [update_of_ne hne, hprogress.logical, hprogress.others other hne]
        rfl
      · show SlotsSound (ledger'.sessions other)
        by_cases heq : other = storeRole
        · rw [heq]
          exact hprogress.sound
        · rw [hprogress.others other heq]
          exact hsound other
  | @adjust ledger' ledger'' role storeRole request plan physical physical' ticket r r' frames head
      tombstone pruned hplan hreserved hwork hstore hadjust hadjusted =>
    obtain ⟨hensure, -, hplanned, hbound, hclaims, hderived⟩ := reserved_spec hreserved
    have hprogress := hwork.progress hstore (hsound storeRole) hbound hclaims hderived
    obtain ⟨hoperation, -, hdecode, hmatch⟩ := adjustChecks_spec hadjust
    rw [hprogress.plan, hplanned] at hoperation
    -- no frame of the operation has moved a session
    have hsame : ledger'.sessions storeRole = before.sessions storeRole := by
      refine (hprogress.before fun frame hframe => ?_).1
      have := hprogress.types.2 (by rw [hplanned]; exact hoperation) frame hframe
      unfold OfSession
      omega
    have hpair := pairValid_of_decode hdecode
    rw [hsame] at hmatch
    obtain ⟨hnext, hweight, hconsumed⟩ := slotWeight_prune hpair hmatch
    simp only [adjusted, guards_eq_ok] at hadjusted
    obtain ⟨-, rfl⟩ := hadjusted
    set mirror := mirrorOf (before.sessions storeRole) pruned.stableSessionId with hmirror
    have hsessions : (ledger'.sessions storeRole).set pruned.stableSessionId (applyPrune C
        (((ledger'.sessions storeRole).get? pruned.stableSessionId).getD .unseen) pruned) =
        (before.sessions storeRole).set pruned.stableSessionId (applyPrune C mirror pruned) := by
      rw [hsame]
      rfl
    -- what was planned, and the slot that is left
    have hroom : Room limits before storeRole (736 - (pruned.removedOrdinaryLogicalBytes : ℤ) +
        (slotWeight (applyPrune C mirror pruned) - slotWeight mirror)) := by
      rcases hcovered storeRole pruned hstore hdecode with ⟨hknown, hnotPruned⟩ | hroom
      · obtain ⟨operation, temporary, existing, hrequest⟩ := store_of_createPlan hstore hplan
        obtain ⟨hoperation', hprune, -⟩ := plan_of_store hrequest
        obtain ⟨tombstone', pruned', hknown', hdecode', hlogical, hprotected⟩ :=
          hprune (hoperation'.symm.trans hoperation)
        obtain rfl : tombstone = tombstone' := by
          rw [hknown] at hknown'
          exact singleton_inj.mp hknown'
        obtain rfl : pruned = pruned' := Except.ok.inj (hdecode.symm.trans hdecode')
        by_cases hzero : pruned.flags = 0 ∧ pruned.allocationDisposition = 0
        · -- the room of the tombstone was kept since the terminal record
          obtain ⟨hfree, hold⟩ := hconsumed hzero.1 hzero.2
          rw [hfree, hold, if_neg fun hpruned => hnotPruned ⟨hzero.1, hzero.2, hpruned⟩]
          exact hheadroom.room.mono (by omega)
        · have hp : plan.isProtected = false := by
            rw [← Bool.not_eq_true]
            exact fun hp => hzero (hprotected.mp hp)
          rw [hp] at hensure
          have hplan : Room limits { before with physical := physical } storeRole plan.logicalBytes :=
            room_of_ensureQuota hstore hensure
          refine Room.mono hplan ?_
          omega
      · exact hroom.mono (by omega)
    refine ⟨hheadroom.of_room hroom ?_ fun other hne => ?_, fun other => ?_⟩
    · show update ledger'.logical storeRole _ storeRole +
        slotLogical (update ledger'.sessions storeRole _ storeRole) =
          before.logical storeRole + slotLogical (before.sessions storeRole) + _
      rw [update_self, update_self, hsessions, slotLogical_set, ← hmirror, hprogress.logical]
      show before.logical storeRole - _ + 736 + _ = _
      omega
    · show update ledger'.logical storeRole _ other +
        slotLogical (update ledger'.sessions storeRole _ other) = _
      rw [update_of_ne hne, update_of_ne hne, hprogress.logical, hprogress.others other hne]
      rfl
    · show SlotsSound (update ledger'.sessions storeRole _ other)
      by_cases heq : other = storeRole
      · rw [heq, update_self, hsessions]
        exact (hsound storeRole).set hnext
      · rw [update_of_ne heq, hprogress.others other heq]
        exact hsound other

def Ledger.empty (physical : QuotaRole → ℕ) : Ledger := ⟨fun _ => 0, fun _ => .empty, physical⟩

/-- The ledgers between the operations of a run, each of which is covered. -/
inductive CoveredRun (C : Crypto) (limits : Limits) : Ledger → Prop
  | empty (physical : QuotaRole → ℕ) : CoveredRun C limits (.empty physical)
  | step {before after : Ledger} {closing : Closing} (h : CoveredRun C limits before)
      (hoperated : Operated C limits before closing after) (hcovered : Covered limits before closing) :
      CoveredRun C limits after

theorem headroom_empty (physical : QuotaRole → ℕ) : Headroom limits (.empty physical) := by
  have hzero : ∀ role, exposure (.empty physical) role = 0 := by
    intro role
    show (0 : ℤ) + slotLogical .empty = 0
    rw [slotLogical_eq_sumBy, sumBy_empty, add_zero]
  refine ⟨fun role => ?_, ?_⟩
  · rw [hzero]
    exact Int.natCast_nonneg _
  · rw [hzero, hzero]
    exact Int.natCast_nonneg _

/-- **Terminal headroom.** In every run of covered operations from empty stores the protected
inequalities hold between the operations, so that no ledger is above its ceiling. -/
theorem headroom_of_covered (h : CoveredRun C limits ledger) :
    Headroom limits ledger ∧ (∀ role, ledger.logical role ≤ limits.perStore) ∧
      ledger.logical .source + ledger.logical .target ≤ limits.aggregate := by
  have hrun : Headroom limits ledger ∧ LedgerSound ledger := by
    induction h with
    | empty physical => exact ⟨headroom_empty physical, fun _ => slotsSound_empty⟩
    | step _ hoperated hcovered ih => exact hoperated.headroom ih.1 ih.2 hcovered
  obtain ⟨hheadroom, -⟩ := hrun
  have hslots := fun role => slotLogical_nonneg (ledger.sessions role)
  refine ⟨hheadroom, fun role => ?_, ?_⟩
  · have := hheadroom.1 role
    have := hslots role
    unfold exposure at *
    omega
  · have := hheadroom.2
    have := hslots .source
    have := hslots .target
    unfold exposure at *
    omega

end Run

/-! ### A minimal terminal record -/

/-- A minimal terminal record of the source store. -/
def minimalTerminal : Bytes :=
  ascii "FTM9" ++ [1, 1, 0, 1] ++ replicate 32 7 ++ Bytes.ofNat 8 1 ++ replicate 28 0 ++
    [46] ++ ascii "FORWARD_HTTPS_SOURCE_STORE_V3_SEQUENCE_INVALID" ++ replicate 18 0 ++
    Bytes.ofNat 4 0 ++ Bytes.ofNat 4 900 ++ replicate 32 5 ++ replicate 11 0

def minimalPlan : Plan where
  role := .sourceStore
  operation := .sessionTerminal
  logicalBytes := 608
  physicalBytes := 416
  bindLogicalBytes := 608
  bindPhysicalBytes := 416
  commitments := [Blake2b.crypto.hmacSha256 zero32 minimalTerminal]
  isProtected := true
  stableSessionId := some (replicate 32 7)
  terminalMinimal := true

def minimalReservation : Reservation where
  role := .sourceStore
  plan := minimalPlan
  bound := false
  burned := false
  walAttempted := false
  totalFrames := 0
  nextOrdinal := 0
  lastHandoff := none
  claims := []
  stableSessionId := []
  terminal := some .requested
  lastAppliedHead := none
  derivedLogical := 0
  opRelease := some 0
  requestCommitment := none

/-- Its reservation, bound to the record. -/
def minimalBound : Reservation :=
  { minimalReservation with
    bound := true
    totalFrames := 1
    stableSessionId := replicate 32 7
    claims := [.mintedUnbegun] }

/-- Its reservation, when the record is appended. -/
def minimalBegun : Reservation := { minimalBound with walAttempted := true, claims := [.begun] }

def minimalFrame : WalFrame where
  type := 99
  payload := minimalTerminal
  payloadHash := Blake2b.hash minimalTerminal
  sequence := 1
  previousWalHash := zero32
  walHash := replicate 32 1
  frameBytes := 416

theorem createPlan_minimal : createPlan Blake2b.crypto .sourceStore
    (.store .sessionTerminal [minimalTerminal] [] 0) = .ok minimalPlan := by
  decide +kernel

theorem bind_minimal (ledger : Ledger) : bindForwardHttpsStoreQuotaActualBuffersV3 Blake2b.crypto
    ledger .sourceStore minimalReservation ⟨[], [], [minimalTerminal], []⟩ = .ok minimalBound := by
  have h : bindForwardHttpsStoreQuotaActualBuffersV3 Blake2b.crypto (.empty fun _ => 0) .sourceStore
      minimalReservation ⟨[], [], [minimalTerminal], []⟩ = .ok minimalBound := by
    decide +kernel
  rw [← h]
  rfl

theorem ensureQuota_nothing (limits : Limits) (ledger : Ledger) :
    ensureQuota limits { ledger with physical := fun _ => 0 } none 0 0 false = .ok () := by
  simp [ensureQuota, Ledger.allPhysical, QuotaRole.list]

theorem operated_minimal (perStore aggregate : ℕ) : ∃ ledger,
    Operated Blake2b.crypto ⟨perStore, aggregate, 65536⟩ (.empty fun _ => 0)
      (.commit .sourceStore [(99, minimalTerminal)]) ledger ∧
    exposure ledger .source = 1344 ∧ ledger.logical .source = 608 := by
  have hreserved : reserved ⟨perStore, aggregate, 65536⟩ (.empty fun _ => 0) .sourceStore minimalPlan 0 =
      .ok minimalReservation := by
    show reserved ⟨0, 0, 65536⟩ (.empty fun _ => 0) .sourceStore minimalPlan 0 = .ok minimalReservation
    decide +kernel
  have hbegin : beginApply .sourceStore minimalBound 0 99 minimalTerminal = .appending minimalBegun := by
    decide +kernel
  obtain ⟨⟨r, sessions, entry⟩, happlied, hcommit, hexposure, hlogical⟩ := exists_ok
    (applied Blake2b.crypto .source .empty minimalBegun 0 minimalFrame)
    (fun x => commitChecks .sourceStore x.1 (1, replicate 32 1) = .ok () ∧
      exposure (committed ((Ledger.empty fun _ => 0).setSessions .source x.2.1) .sourceStore x.1) .source = 1344 ∧
      (committed ((Ledger.empty fun _ => 0).setSessions .source x.2.1) .sourceStore x.1).logical .source = 608)
    (by decide +kernel)
  have hwork : Worked Blake2b.crypto .sourceStore (.empty fun _ => 0) minimalReservation
      [(99, minimalTerminal)] ((Ledger.empty fun _ => 0).setSessions .source sessions) r :=
    (Worked.reserved.bind (bind_minimal _)).apply rfl hbegin rfl rfl happlied
  exact ⟨_, .commit createPlan_minimal hreserved hwork (by decide +kernel) hcommit (ensureQuota_nothing _ _),
    hexposure, hlogical⟩

/-- A store with room for it keeps the inequalities. -/
theorem headroom_of_covered_minimal : ∃ ledger,
    CoveredRun Blake2b.crypto ⟨2000, 4000, 65536⟩ ledger ∧ ledger.logical .source = 608 ∧
      Headroom ⟨2000, 4000, 65536⟩ ledger := by
  obtain ⟨ledger, hoperated, -, hlogical⟩ := operated_minimal 2000 4000
  have hrun : CoveredRun Blake2b.crypto ⟨2000, 4000, 65536⟩ ledger := by
    refine .step (.empty _) hoperated fun storeRole id _ _ _ => ?_
    have hzero : ∀ role, exposure (.empty fun _ => 0) role = 0 := fun role => by
      cases role <;> decide
    unfold Room
    rw [hzero, hzero, hzero]
    decide
  exact ⟨ledger, hrun, hlogical, (headroom_of_covered hrun).1⟩

/-- **A store without room for it has it written all the same.** -/
theorem minimal_terminal_exceeds : ∃ ledger, Operated Blake2b.crypto ⟨1000, 2000, 65536⟩ (.empty fun _ => 0)
      (.commit .sourceStore [(99, minimalTerminal)]) ledger ∧
    ¬ exposure ledger .source ≤ 1000 := by
  obtain ⟨ledger, hoperated, hexposure, -⟩ := operated_minimal 1000 2000
  refine ⟨ledger, hoperated, ?_⟩
  rw [hexposure]
  decide

end HiveRelay.Quota
