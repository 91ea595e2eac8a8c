import HiveRelay.Stream.Circuit

/-!
# Flow control of a circuit

What a frame does to the two sides of a circuit is a step of their balance: bytes that were sent and
not yet consumed, together with the credit that is left, never exceed the window that was granted.
`_prepare` makes such a step, or none, when it accepts a frame, and at most such a step when it does
not.

## Main definitions

* `Advanced` — a step of the balances
* `FlowInv` — what a circuit keeps

## Main results

* `forward_flow_control` — the window is never exceeded
-/

set_option linter.unusedSectionVars false

namespace HiveRelay.Stream

open List Option Act Function

variable {B : Type} [DecidableEq B]

/-! ### The balance of the two sides -/

structure Direction.Sound (granted : ℕ) (d : Direction) : Prop where
  consumed : d.consumedThrough ≤ d.nextOffset
  credit : 0 ≤ d.availableCredit
  balance : d.availableCredit + ((d.nextOffset : ℤ) - d.consumedThrough) ≤ granted

/-- The states of both sides with the next sequence number of one. -/
def bump (states : Side → Direction) (side : Side) : Side → Direction :=
  update states side { states side with nextSequence := (states side).nextSequence + 1 }

/-- What an accepted body does to the two sides. -/
inductive BodyStep (side : Side) (states : Side → Direction) :
    ActiveBody B → (Side → Direction) → Prop
  | data {d : ForwardData B} (hfin : (states side).fin = false)
    (hcredit : d.byteLength ≤ (states side).availableCredit) :
    BodyStep side states (.data d) (update states side
      { states side with
        nextOffset := (states side).nextOffset + d.byteLength
        availableCredit := (states side).availableCredit - d.byteLength })
  | window {w : ForwardWindow B}
    (hadvance : (states side.opposite).consumedThrough < w.consumedThrough)
    (hsent : w.consumedThrough ≤ (states side.opposite).nextOffset)
    (hcredit : w.creditIncrement ≤ w.consumedThrough - (states side.opposite).consumedThrough) :
    BodyStep side states (.window w) (update states side.opposite
      { states side.opposite with
        consumedThrough := w.consumedThrough
        availableCredit := (states side.opposite).availableCredit + w.creditIncrement })
  | fin {c : ForwardClose B} (hkind : c.closeKind = forwardCloseKindFin)
    (hfin : (states side).fin = false) :
    BodyStep side states (.close c) (update states side { states side with fin := true })
  | abort {c : ForwardClose B} (hkind : c.closeKind ≠ forwardCloseKindFin) :
    BodyStep side states (.close c) states

variable {d : Direction}

section Balance

variable {side t : Side} {states states' : Side → Direction} {body : ActiveBody B} {granted : ℕ}

theorem forall_update {P : Direction → Prop} (h : ∀ t, P (states t)) (hd : P d)
    (t : Side) : P (update states side d t) := by
  by_cases ht : t = side
  · rw [ht, update_self]
    exact hd
  · rw [update_of_ne ht]
    exact h t

theorem proj_update {α : Type} (f : Direction → α) (hd : f d = f (states side))
    (t : Side) : f (update states side d t) = f (states t) := by
  by_cases ht : t = side
  · rw [ht, update_self]
    exact hd
  · rw [update_of_ne ht]

theorem Direction.Sound.bump (hs : ∀ t, (states t).Sound granted) (side t : Side) :
    (bump states side t).Sound granted := by
  refine forall_update hs ?_ t
  exact ⟨(hs side).consumed, (hs side).credit, (hs side).balance⟩

theorem BodyStep.sound (h : BodyStep side states body states')
    (hs : ∀ t, (states t).Sound granted) (t : Side) : (states' t).Sound granted := by
  cases h with
  | @data d _ hcredit =>
    obtain ⟨hconsumed, hnonneg, hbalance⟩ := hs side
    refine forall_update hs ⟨?_, ?_, ?_⟩ t
    · exact hconsumed.trans (Nat.le_add_right _ _)
    · exact Int.sub_nonneg_of_le hcredit
    · push_cast
      omega
  | @window w hadvance hsent hcredit =>
    obtain ⟨hconsumed, hnonneg, hbalance⟩ := hs side.opposite
    refine forall_update hs ⟨hsent, ?_, ?_⟩ t
    · exact Int.add_nonneg hnonneg (Int.natCast_nonneg _)
    · show (states side.opposite).availableCredit + (w.creditIncrement : ℤ) +
        (((states side.opposite).nextOffset : ℤ) - w.consumedThrough) ≤ granted
      omega
  | fin _ _ =>
    refine forall_update hs ?_ t
    exact ⟨(hs side).consumed, (hs side).credit, (hs side).balance⟩
  | abort _ => exact hs t

theorem BodyStep.nextOffset_self (h : BodyStep side states body states') :
    (states' side).nextOffset = (states side).nextOffset + body.dataLength := by
  cases h with
  | data _ _ =>
    rw [update_self]
    rfl
  | window _ _ _ | fin _ _ => exact proj_update Direction.nextOffset (by rfl) side
  | abort _ => rfl

theorem BodyStep.nextOffset_of_ne (h : BodyStep side states body states') (ht : t ≠ side) :
    (states' t).nextOffset = (states t).nextOffset := by
  cases h with
  | data _ _ => rw [update_of_ne ht]
  | window _ _ _ | fin _ _ => exact proj_update Direction.nextOffset (by rfl) t
  | abort _ => rfl

theorem BodyStep.nextSequence (h : BodyStep side states body states') (t : Side) :
    (states' t).nextSequence = (states t).nextSequence := by
  cases h with
  | data _ _ | window _ _ _ | fin _ _ => exact proj_update Direction.nextSequence (by rfl) t
  | abort _ => rfl

theorem BodyStep.fin_mono (h : BodyStep side states body states') (hfin : (states t).fin = true) :
    (states' t).fin = true := by
  cases h with
  | data _ _ | window _ _ _ => exact (proj_update Direction.fin (by rfl) t).trans hfin
  | fin _ _ =>
    by_cases ht : t = side
    · rw [ht, update_self]
    · rw [update_of_ne ht]
      exact hfin
  | abort _ => exact hfin

theorem BodyStep.fin_of_isFin (h : BodyStep side states body states') (hbody : body.isFin = true) :
    (states' side).fin = true := by
  cases h with
  | data _ _ | window _ _ _ => exact nomatch hbody
  | fin _ _ => rw [update_self]
  | abort hkind => exact absurd (of_decide_eq_true hbody) hkind

theorem BodyStep.fin_eq_false_of_isData (h : BodyStep side states body states')
    (hbody : body.isData = true) : (states side).fin = false := by
  cases h with
  | data hfin _ => exact hfin
  | window _ _ _ | fin _ _ | abort _ => exact nomatch hbody

theorem BodyStep.isFin_of_fin (h : BodyStep side states body states')
    (hfin : (states' t).fin = true) : (states t).fin = true ∨ t = side ∧ body.isFin = true := by
  cases h with
  | data _ _ | window _ _ _ => exact .inl ((proj_update Direction.fin (by rfl) t).symm.trans hfin)
  | fin hkind _ =>
    by_cases ht : t = side
    · exact .inr ⟨ht, decide_eq_true hkind⟩
    · rw [update_of_ne ht] at hfin
      exact .inl hfin
  | abort _ => exact .inl hfin

end Balance

/-! ### What `_prepare` comes to -/

variable {i : ℕ} {reading : Option ℕ} {s : StreamScope B}

section Prepare

variable {cfg : PlaneConfig B} {wire : ForwardWire B} {r r' r'' : Relay B} {side : Side}
  {body : ActiveBody B} {looks : Looks}

structure Touched (cfg : PlaneConfig B) (r r' : Relay B) : Prop where
  circuit : r'.circuit = r.circuit
  plane : PlaneChanges cfg r.plane r'.plane

theorem Touched.refl (r : Relay B) : Touched cfg r r := ⟨rfl, .refl⟩

/-- The bytes of a frame were counted. -/
def Counted (length : ℕ) (r r' : Relay B) : Prop :=
  ∀ s, r.plane.scopes[r.circuit.scope]? = some s →
    ∃ s', r'.plane.scopes[r.circuit.scope]? = some s' ∧ s.totalBytes + length ≤ s'.totalBytes

theorem Counted.refl (r : Relay B) : Counted 0 r r := fun s hs => ⟨s, hs, Nat.le_refl _⟩

theorem counted_zero (h : PlaneChanges cfg r.plane r'.plane) : Counted 0 r r' := by
  intro s hs
  obtain ⟨s', hs', hlater⟩ := (planeLater_of_changes h).scope _ s hs
  exact ⟨s', hs', hlater.totalBytes⟩

theorem Counted.trans {length : ℕ} (h : Counted length r r') (hcircuit : r'.circuit = r.circuit)
    (h' : PlaneChanges cfg r'.plane r''.plane) : Counted length r r'' := by
  intro s hs
  obtain ⟨s', hs', hle⟩ := h s hs
  rw [← hcircuit] at hs' ⊢
  obtain ⟨s'', hs'', hle'⟩ := counted_zero h' s' hs'
  exact ⟨s'', hs'', hle.trans hle'⟩

structure Advanced (cfg : PlaneConfig B) (side : Side) (body : ActiveBody B) (r r' : Relay B) :
    Prop where
  circuit : r'.circuit = { r.circuit with states := r'.circuit.states }
  step : BodyStep side r.circuit.states body r'.circuit.states
  plane : PlaneChanges cfg r.plane r'.plane
  counted : Counted body.dataLength r r'

/-- What becomes of a body: it takes effect when it is accepted, and may have done so when it is
not. -/
def BodySpec (cfg : PlaneConfig B) (side : Side) (body : ActiveBody B) (r : Relay B) :
    Except Failure (Option ℕ × Bool) → Relay B → Prop
  | .ok _, r' => Advanced cfg side body r r'
  | .error _, r' => Touched cfg r r' ∨ Advanced cfg side body r r'

theorem spec_onPlane {α : Type} {x : PlaneOp B α} (hx : Keeps cfg x) (r : Relay B) :
    Act.Spec (Touched cfg r) (onPlane x) fun _ => Touched cfg r :=
  fun r' hr' => ⟨hr'.circuit, hx r.plane r'.plane hr'.plane⟩

theorem countBytes_total {length : ℕ} {look again : Look} {p p' : Plane B} (cfg : PlaneConfig B)
    (h : countBytes i length look again reading p = (.ok (), p')) (hs : p.scopes[i]? = some s) :
    ∃ s', p'.scopes[i]? = some s' ∧ s.totalBytes + length ≤ s'.totalBytes := by
  obtain ⟨_, _, hlength, h₁⟩ := Act.bind_eq_ok h
  obtain ⟨-, rfl⟩ := Prod.mk.inj hlength
  obtain ⟨now, p₁, hactive, h₂⟩ := Act.bind_eq_ok h₁
  have hchecked := spec_assertActive i look p p rfl
  rw [hactive] at hchecked
  have hp : p₁ = p := hchecked.1
  subst hp
  rw [bind_of_ok (scopeOf_eq hs)] at h₂
  split at h₂
  · exact nomatch (Prod.mk.inj h₂).1
  · rename_i hcap
    obtain ⟨_, p₂, hset, h₃⟩ := Act.bind_eq_ok h₂
    obtain ⟨-, rfl⟩ := Prod.mk.inj hset
    set s₁ : StreamScope B := { s with totalBytes := s.totalBytes + length }
    have hchanges : PlaneChanges cfg (p₁.setScope i s₁)
        (touch i again reading (p₁.setScope i s₁)).2 := (keeps_touch i again reading).at _
    have hs₁ : (p₁.setScope i s₁).scopes[i]? = some s₁ := (setScope_get? hs i).trans (if_pos rfl)
    obtain ⟨s', hs', hlater⟩ := (planeLater_of_changes hchanges).scope i s₁ hs₁
    rw [h₃] at hs'
    exact ⟨s', hs', hlater.totalBytes⟩

theorem advanced_setState {t : Side} (h : Touched cfg r r') (hcounted : Counted body.dataLength r r')
    (hstep : BodyStep side r.circuit.states body (update r.circuit.states t d)) :
    Advanced cfg side body r (r'.setState t d) := by
  have hcircuit : (r'.setState t d).circuit = { r.circuit with states := update r.circuit.states t d } := by
    show ({ r'.circuit with states := update r'.circuit.states t d } : Circuit B) = _
    rw [h.circuit]
  refine ⟨?_, ?_, h.plane, hcounted⟩
  · rw [hcircuit]
  · rw [hcircuit]
    exact hstep

theorem bodySpec_error (e : Failure) {r₁ : Relay B} (h : r₁ = r) : BodySpec cfg side body r (.error e) r₁ := by
  rw [h]
  exact .inl (.refl r)

theorem spec_prepareData (side : Side) (d : ForwardData B) (looks : Looks) (r : Relay B) :
    Act.Spec (· = r) (prepareData cfg side d looks) (BodySpec cfg side (.data d) r) := by
  refine spec_get_bind fun r₀ hr₀ => ?_
  subst hr₀
  refine spec_ofExcept_bind (P := (· = r₀)) (fun _ hfin => ?_) (fun e _ => bodySpec_error e) r₀ rfl
  refine spec_ofExcept_bind (fun _ _ => ?_) fun e _ => bodySpec_error e
  refine spec_ofExcept_bind (fun _ _ => ?_) fun e _ => bodySpec_error e
  refine spec_ofExcept_bind (fun _ hcredit => ?_) fun e _ => bodySpec_error e
  have hcount : Act.Spec (· = r₀)
      (onPlane (countBytes r₀.circuit.scope d.byteLength looks.count looks.again looks.reading))
      fun x r' => Touched cfg r₀ r' ∧ (x = .ok () → Counted d.byteLength r₀ r') := by
    rintro _ rfl
    refine ⟨spec_onPlane (keeps_countBytes _ _ _ _ _) _ _ (.refl _), fun hx s hs => ?_⟩
    exact countBytes_total cfg (Prod.ext hx rfl) hs
  refine spec_bind hcount (fun _ => ?_) fun _ _ h => .inl h.1
  have hreserve : Act.Spec (fun r' => Touched cfg r₀ r' ∧
      ((Except.ok () : Except Failure Unit) = .ok () → Counted d.byteLength r₀ r'))
      (onPlane (reserveBuffer cfg r₀.circuit.scope d.byteLength looks.reserve))
      fun _ r' => Touched cfg r₀ r' ∧ Counted d.byteLength r₀ r' := by
    intro r' hr'
    have hkeeps : Keeps cfg (reserveBuffer cfg r₀.circuit.scope d.byteLength looks.reserve) :=
      keeps_reserveBuffer _ _ _
    refine ⟨spec_onPlane hkeeps r₀ r' hr'.1, ?_⟩
    exact (hr'.2 rfl).trans hr'.1.circuit (hkeeps.at r'.plane)
  refine spec_bind hreserve (fun _ => ?_) fun _ _ h => .inl h.1
  rintro r' ⟨htouched, hcounted⟩
  exact advanced_setState htouched hcounted (.data (require_eq_ok.mp hfin) (require_eq_ok.mp hcredit))

theorem Advanced.touched (h : Advanced cfg side body r r') (h' : Touched cfg r' r'') :
    Advanced cfg side body r r'' := by
  have hscope : r'.circuit.scope = r.circuit.scope := by rw [h.circuit]
  refine ⟨?_, ?_, h.plane.trans h'.plane, fun s hs => ?_⟩
  · rw [h'.circuit]
    exact h.circuit
  · rw [h'.circuit]
    exact h.step
  · obtain ⟨s', hs', hle⟩ := h.counted s hs
    rw [← hscope] at hs' ⊢
    obtain ⟨s'', hs'', hle'⟩ := counted_zero h'.plane s' hs'
    exact ⟨s'', hs'', hle.trans hle'⟩

theorem spec_touch_bind (r : Relay B) (i : ℕ) (look : Look) (reading : Option ℕ) : Act.Spec (Advanced cfg side body r)
      (onPlane (touch i look reading) >>= fun _ => pure (none, false)) (BodySpec cfg side body r) := by
  have htouch : Act.Spec (Advanced cfg side body r) (onPlane (touch i look reading))
      fun _ => Advanced cfg side body r := by
    intro r' hr'
    have hkeeps : Keeps cfg (touch i look reading : PlaneOp B Unit) := keeps_touch _ _ _
    exact hr'.touched (spec_onPlane hkeeps r' r' (.refl r'))
  exact spec_bind htouch (fun _ => spec_pure fun _ h => h) fun _ _ h => .inr h

theorem spec_prepareWindow (side : Side) (w : ForwardWindow B) (looks : Looks) (r : Relay B) :
    Act.Spec (· = r) (prepareWindow side w looks) (BodySpec cfg side (.window w) r) := by
  refine spec_get_bind fun r₀ hr₀ => ?_
  subst hr₀
  refine spec_ofExcept_bind (P := (· = r₀)) (fun _ hsent => ?_) (fun e _ => bodySpec_error e) r₀ rfl
  refine spec_ofExcept_bind (fun _ hcredit => ?_) fun e _ => bodySpec_error e
  refine spec_ofExcept_bind (fun _ _ => ?_) fun e _ => bodySpec_error e
  obtain ⟨hadvance, hsent⟩ := require_eq_ok.mp hsent
  rintro _ rfl
  refine spec_touch_bind _ _ _ _ _ (advanced_setState (.refl _) (.refl _) ?_)
  exact .window hadvance hsent (require_eq_ok.mp hcredit)

theorem spec_prepareClose (side : Side) (c : ForwardClose B) (looks : Looks) (r : Relay B) :
    Act.Spec (· = r) (prepareClose side c looks) (BodySpec cfg side (.close c) r) := by
  refine spec_get_bind fun r₀ hr₀ => ?_
  subst hr₀
  refine spec_ofExcept_bind (P := (· = r₀)) (fun _ _ => ?_) (fun e _ => bodySpec_error e) r₀ rfl
  refine spec_ite (fun hkind => ?_) fun hkind => ?_
  · refine spec_ofExcept_bind (fun _ hfin => ?_) fun e _ => bodySpec_error e
    rintro _ rfl
    refine spec_touch_bind _ _ _ _ _ (advanced_setState (.refl _) (.refl _) ?_)
    exact .fin hkind (require_eq_ok.mp hfin)
  · rintro _ rfl
    exact ⟨rfl, .abort hkind, .refl, .refl _⟩

theorem spec_prepareBody (side : Side) (looks : Looks) (body : ActiveBody B) (r : Relay B) :
    Act.Spec (· = r) (prepareBody cfg side looks body) (BodySpec cfg side body r) := by
  cases body with
  | data d => exact spec_prepareData side d looks r
  | window w => exact spec_prepareWindow side w looks r
  | close c => exact spec_prepareClose side c looks r

/-- The circuit once the sequence number of a frame has been found to be the next. -/
def Relay.bump (r : Relay B) (side : Side) : Relay B :=
  r.setState side { r.circuit.states side with nextSequence := (r.circuit.states side).nextSequence + 1 }

/-- What becomes of a frame that arrives. -/
def PrepareSpec (cfg : PlaneConfig B) (wire : ForwardWire B) (side : Side) (raw : B) (r : Relay B) :
    Except Failure (Prepared B) → Relay B → Prop
  | .ok p, r' =>
    (∃ s, r.plane.scopes[r.circuit.scope]? = some s ∧ s.closed = false) ∧ wire.decodeDispatchFrame raw = .ok p.frame ∧
      p.frame.sequence = (r.circuit.states side).nextSequence ∧
      wire.encodeDispatchFrame (forwarded wire r.circuit side p.frame) = .ok p.outbound ∧
      Advanced cfg side p.body (r.bump side) r'
  | .error _, r' =>
    Touched cfg r r' ∨ Touched cfg (r.bump side) r' ∨ ∃ body, Advanced cfg side body (r.bump side) r'

theorem spec_active (i : ℕ) (look : Look) (r : Relay B) : Act.Spec (· = r) (onPlane (assertActive i look))
      fun x r' => Touched cfg r r' ∧ ∀ now, x = .ok now → r' = r ∧
        ∃ s, r.plane.scopes[i]? = some s ∧ s.closed = false := by
  intro r₁ hr₁
  rw [hr₁]
  refine ⟨spec_onPlane (keeps_assertActive _ _) _ _ (.refl _), fun now hx => ?_⟩
  have hok : (assertActive i look r.plane).1 = .ok now := hx
  have hchecked := spec_assertActive i look r.plane r.plane rfl
  rw [hok] at hchecked
  refine ⟨?_, hchecked.2⟩
  show { r with plane := (assertActive i look r.plane).2 } = r
  rw [hchecked.1]

theorem spec_prepare (side : Side) (raw : B) (looks : Looks) (r : Relay B) :
    Act.Spec (· = r) (prepare cfg wire side raw looks) (PrepareSpec cfg wire side raw r) := by
  refine spec_get_bind fun r₀ hr₀ => ?_
  subst hr₀
  refine spec_bind (spec_active _ looks.active r₀) (fun now => ?_) (fun _ _ h => .inl h.1) r₀ rfl
  intro r₁ hr₁
  obtain ⟨hr₁, hopen⟩ := hr₁.2 now rfl
  subst hr₁
  have hsame : ∀ (e : Failure) (r' : Relay B), r' = r₁ → PrepareSpec cfg wire side raw r₁ (.error e) r' := by
    rintro e _ rfl
    exact .inl (.refl _)
  refine spec_ofExcept_bind (P := (· = r₁)) (fun frame hframe => ?_) hsame r₁ rfl
  refine spec_ofExcept_bind (fun _ _ => ?_) hsame
  refine spec_ofExcept_bind (fun _ hsequence => ?_) hsame
  -- from here on the sequence number has moved on, whatever becomes of the frame
  have hbump : Act.Spec (· = r₁) (Act.modify fun r => r.setState side
        { r₁.circuit.states side with
          nextSequence := (r₁.circuit.states side).nextSequence + 1 } : RelayOp B Unit)
      fun _ r' => r' = r₁.bump side := by
    rintro _ rfl
    rfl
  have hbumped : ∀ (e : Failure) (r' : Relay B), r' = r₁.bump side →
      PrepareSpec cfg wire side raw r₁ (.error e) r' := by
    rintro e _ rfl
    exact .inr (.inl (.refl _))
  refine spec_bind hbump (fun _ => ?_) hbumped
  refine spec_ofExcept_bind (fun body _ => ?_) hbumped
  refine spec_ofExcept_bind (fun _ _ => ?_) hbumped
  refine spec_bind (spec_prepareBody side looks body (r₁.bump side)) (fun x => ?_) ?_
  · refine spec_ofExcept_bind (fun outbound hout => spec_pure fun r' hr' => ?_)
      fun e r' hr' => .inr (.inr ⟨body, hr'⟩)
    exact ⟨hopen, hframe, require_eq_ok.mp hsequence, hout, hr'⟩
  · rintro e r' (hr' | hr')
    · exact .inr (.inl hr')
    · exact .inr (.inr ⟨body, hr'⟩)

end Prepare

/-! ### The invariant -/

def NoDataAfterFin (l : List (Prepared B)) : Prop :=
  l.Pairwise fun a b => a.body.isFin = true → b.body.isData = false

/-- The balance of both sides, and the order of what was accepted. -/
structure FlowCore (cfg : PlaneConfig B) (r : Relay B) : Prop where
  plane : PlaneInv cfg r.plane
  sound : ∀ side, (r.circuit.states side).Sound r.circuit.limits.grantedInitialWindow
  total : ∃ s, r.plane.scopes[r.circuit.scope]? = some s ∧ s.maxBytes = r.circuit.limits.maxCircuitBytes ∧
    (r.circuit.states .caller).nextOffset + (r.circuit.states .nextHop).nextOffset ≤ s.totalBytes
  fin : ∀ side, ∀ p ∈ r.circuit.accepted side, p.body.isFin = true → (r.circuit.states side).fin = true
  order : ∀ side, NoDataAfterFin (r.circuit.accepted side)

/-- The balance of both sides, and what was accepted. A frame that is not accepted may have moved
the numbers, but it closes the scope. -/
structure FlowInv (cfg : PlaneConfig B) (r : Relay B) : Prop extends FlowCore cfg r where
  rejected : r.circuit.rejected = true → r.closed = true
  sequence : r.circuit.rejected = false → ∀ side,
    (r.circuit.states side).nextSequence = (r.circuit.accepted side).length
  offset : r.circuit.rejected = false → ∀ side, (r.circuit.states side).nextOffset =
    ((r.circuit.accepted side).map fun p => p.body.dataLength).sum
  finAccepted : r.circuit.rejected = false → ∀ side, (r.circuit.states side).fin = true →
    ∃ p ∈ r.circuit.accepted side, p.body.isFin = true

section Flow

variable {cfg : PlaneConfig B} {wire : ForwardWire B} {r r' r'' : Relay B} {side : Side}
  {body : ActiveBody B} {looks : Looks}

theorem Relay.closed_eq (hs : r.plane.scopes[r.circuit.scope]? = some s) : r.closed = s.closed := by
  unfold Relay.closed
  rw [hs]
  rfl

theorem closed_of_changes (hscope : r'.circuit.scope = r.circuit.scope) (h : PlaneChanges cfg r.plane r'.plane)
    (hs : r.plane.scopes[r.circuit.scope]? = some s) (hclosed : r.closed = true) :
    r'.closed = true := by
  obtain ⟨s', hs', hlater⟩ := (planeLater_of_changes h).scope _ s hs
  rw [← hscope] at hs'
  rw [Relay.closed_eq hs']
  rw [Relay.closed_eq hs] at hclosed
  exact hlater.closed hclosed

/-- What leaves the balance and what was accepted as they are. -/
structure Quiet (cfg : PlaneConfig B) (r r' : Relay B) : Prop where
  plane : PlaneChanges cfg r.plane r'.plane
  scope : r'.circuit.scope = r.circuit.scope
  limits : r'.circuit.limits = r.circuit.limits
  states : r'.circuit.states = r.circuit.states
  accepted : r'.circuit.accepted = r.circuit.accepted
  rejected : r'.circuit.rejected = r.circuit.rejected

theorem FlowCore.quiet (hinv : FlowCore cfg r) (h : Quiet cfg r r') : FlowCore cfg r' := by
  obtain ⟨s, hs, hmax, htotal⟩ := hinv.total
  obtain ⟨s', hs', hlater⟩ := (planeLater_of_changes h.plane).scope _ s hs
  refine ⟨hinv.plane.changes h.plane, ?_, ⟨s', ?_, ?_, ?_⟩, ?_, ?_⟩
  · rw [h.states, h.limits]
    exact hinv.sound
  · rw [h.scope]
    exact hs'
  · rw [h.limits, hlater.maxBytes, hmax]
  · rw [h.states]
    exact htotal.trans hlater.totalBytes
  · rw [h.states, h.accepted]
    exact hinv.fin
  · rw [h.accepted]
    exact hinv.order

theorem FlowInv.quiet (hinv : FlowInv cfg r) (h : Quiet cfg r r') : FlowInv cfg r' := by
  obtain ⟨s, hs, -⟩ := hinv.total
  refine ⟨hinv.toFlowCore.quiet h, ?_, ?_, ?_, ?_⟩
  · rw [h.rejected]
    exact fun hr => closed_of_changes h.scope h.plane hs (hinv.rejected hr)
  · rw [h.rejected, h.states, h.accepted]
    exact hinv.sequence
  · rw [h.rejected, h.states, h.accepted]
    exact hinv.offset
  · rw [h.rejected, h.states, h.accepted]
    exact hinv.finAccepted

theorem Touched.quiet (h : Touched cfg r r') : Quiet cfg r r' := by
  obtain ⟨hcircuit, hplane⟩ := h
  exact ⟨hplane, by rw [hcircuit], by rw [hcircuit], by rw [hcircuit], by rw [hcircuit],
    by rw [hcircuit]⟩

theorem FlowCore.bump (hinv : FlowCore cfg r) (side : Side) : FlowCore cfg (r.bump side) := by
  have hoffset : ∀ t, ((r.bump side).circuit.states t).nextOffset =
      (r.circuit.states t).nextOffset := fun t => proj_update Direction.nextOffset (by rfl) t
  have hfin : ∀ t, ((r.bump side).circuit.states t).fin = (r.circuit.states t).fin :=
    fun t => proj_update Direction.fin (by rfl) t
  refine ⟨hinv.plane, Direction.Sound.bump hinv.sound side, ?_, fun t p hp hf => ?_, hinv.order⟩
  · obtain ⟨s, hs, hmax, htotal⟩ := hinv.total
    refine ⟨s, hs, hmax, ?_⟩
    rw [hoffset, hoffset]
    exact htotal
  · rw [hfin]
    exact hinv.fin t p hp hf

theorem BodyStep.total {states states' : Side → Direction} (h : BodyStep side states body states') :
    (states' .caller).nextOffset + (states' .nextHop).nextOffset =
      (states .caller).nextOffset + (states .nextHop).nextOffset + body.dataLength := by
  have hself := h.nextOffset_self
  cases side with
  | caller =>
    have hother := h.nextOffset_of_ne (t := .nextHop) nofun
    omega
  | nextHop =>
    have hother := h.nextOffset_of_ne (t := .caller) nofun
    omega

theorem FlowCore.advanced (hinv : FlowCore cfg r) (h : Advanced cfg side body r r') : FlowCore cfg r' := by
  have haccepted : r'.circuit.accepted = r.circuit.accepted := by rw [h.circuit]
  have hscope : r'.circuit.scope = r.circuit.scope := by rw [h.circuit]
  have hlimits : r'.circuit.limits = r.circuit.limits := by rw [h.circuit]
  obtain ⟨s, hs, hmax, htotal⟩ := hinv.total
  obtain ⟨s', hs', hcounted⟩ := h.counted s hs
  obtain ⟨t, ht, hlater⟩ := (planeLater_of_changes h.plane).scope _ s hs
  obtain rfl := mem_unique ht hs'
  refine ⟨hinv.plane.changes h.plane, ?_, ⟨t, ?_, ?_, ?_⟩, fun side' p hp hf => ?_, ?_⟩
  · rw [hlimits]
    exact h.step.sound hinv.sound
  · rw [hscope]
    exact ht
  · rw [hlimits, hlater.maxBytes, hmax]
  · rw [h.step.total]
    omega
  · rw [haccepted] at hp
    exact h.step.fin_mono (hinv.fin side' p hp hf)
  · rw [haccepted]
    exact hinv.order

theorem enqueue_accepted_self (c : Circuit B) (side : Side) (p : Prepared B) :
    (c.enqueue side p).accepted side = c.accepted side ++ [p] := update_self _ _ _

theorem enqueue_accepted_of_ne (c : Circuit B) {t : Side} (p : Prepared B) (ht : t ≠ side) :
    (c.enqueue side p).accepted t = c.accepted t := update_of_ne ht _ _

/-- A frame is accepted. -/
theorem FlowInv.accept {raw : B} {p : Prepared B} (hinv : FlowInv cfg r)
    (h : PrepareSpec cfg wire side raw r (.ok p) r') :
    FlowInv cfg { r' with circuit := r'.circuit.enqueue side p } := by
  obtain ⟨⟨s, hs, hopen⟩, -, -, -, hadvanced⟩ := h
  have hcore : FlowCore cfg r' := (hinv.toFlowCore.bump side).advanced hadvanced
  have haccepted : r'.circuit.accepted = r.circuit.accepted := by
    rw [hadvanced.circuit]
    rfl
  have hrejected : r.circuit.rejected = false := by
    by_contra hr
    have hclosed := hinv.rejected (by simpa using hr)
    rw [Relay.closed_eq hs, hopen] at hclosed
    exact nomatch hclosed
  have hstep : BodyStep side (bump r.circuit.states side) p.body r'.circuit.states := hadvanced.step
  have hsequence : ∀ t, (r'.circuit.states t).nextSequence =
      (bump r.circuit.states side t).nextSequence := hstep.nextSequence
  have hbumpOffset : ∀ t, (bump r.circuit.states side t).nextOffset =
      (r.circuit.states t).nextOffset := fun t => proj_update Direction.nextOffset (by rfl) t
  have hbumpFin : ∀ t, (bump r.circuit.states side t).fin = (r.circuit.states t).fin :=
    fun t => proj_update Direction.fin (by rfl) t
  refine ⟨⟨hcore.plane, hcore.sound, hcore.total, fun t => ?_, fun t => ?_⟩, ?_, fun _ t => ?_,
    fun _ t => ?_, fun _ t => ?_⟩
  · show ∀ q ∈ (r'.circuit.enqueue side p).accepted t, _
    by_cases ht : t = side
    · subst ht
      rw [enqueue_accepted_self]
      intro q hq hf
      rcases mem_append.mp hq with hq | hq
      · exact hcore.fin t q hq hf
      · rw [mem_singleton.mp hq] at hf
        exact hstep.fin_of_isFin hf
    · rw [enqueue_accepted_of_ne _ _ ht]
      exact hcore.fin t
  · show NoDataAfterFin ((r'.circuit.enqueue side p).accepted t)
    by_cases ht : t = side
    · subst ht
      rw [enqueue_accepted_self]
      refine pairwise_append.mpr ⟨hcore.order t, pairwise_singleton _ _, ?_⟩
      intro a ha b hb hf
      rw [mem_singleton.mp hb]
      by_contra hdata
      rw [Bool.not_eq_false] at hdata
      have hnot := hstep.fin_eq_false_of_isData hdata
      rw [hbumpFin] at hnot
      rw [haccepted] at ha
      exact nomatch hnot.symm.trans (hinv.fin t a ha hf)
    · rw [enqueue_accepted_of_ne _ _ ht]
      exact hcore.order t
  · intro hr
    have hr' : r'.circuit.rejected = true := hr
    rw [hadvanced.circuit] at hr'
    exact nomatch hrejected.symm.trans hr'
  · show (r'.circuit.states t).nextSequence = ((r'.circuit.enqueue side p).accepted t).length
    rw [hsequence]
    by_cases ht : t = side
    · subst ht
      rw [enqueue_accepted_self, length_append, length_singleton, haccepted, ← hinv.sequence hrejected]
      show (update r.circuit.states t _ t).nextSequence = _
      rw [update_self]
    · rw [enqueue_accepted_of_ne _ _ ht, haccepted, ← hinv.sequence hrejected]
      show (update r.circuit.states side _ t).nextSequence = _
      rw [update_of_ne ht]
  · show (r'.circuit.states t).nextOffset = (((r'.circuit.enqueue side p).accepted t).map _).sum
    by_cases ht : t = side
    · subst ht
      rw [enqueue_accepted_self, map_append, sum_append, map_singleton,
        sum_singleton, haccepted, ← hinv.offset hrejected, hstep.nextOffset_self, hbumpOffset]
    · rw [enqueue_accepted_of_ne _ _ ht, haccepted, ← hinv.offset hrejected, hstep.nextOffset_of_ne ht, hbumpOffset]
  · show (r'.circuit.states t).fin = true → ∃ q ∈ (r'.circuit.enqueue side p).accepted t, _
    intro hf
    rcases hstep.isFin_of_fin hf with hold | ⟨rfl, hnew⟩
    · rw [hbumpFin] at hold
      obtain ⟨q, hq, hqf⟩ := hinv.finAccepted hrejected t hold
      refine ⟨q, ?_, hqf⟩
      by_cases ht : t = side
      · subst ht
        rw [enqueue_accepted_self, haccepted]
        exact mem_append_left _ hq
      · rw [enqueue_accepted_of_ne _ _ ht, haccepted]
        exact hq
    · refine ⟨p, ?_, hnew⟩
      rw [enqueue_accepted_self]
      exact mem_append_right _ (mem_singleton_self p)

theorem FlowCore.reject (hcore : FlowCore cfg r) : FlowInv cfg r.reject := by
  have hquiet : Quiet cfg r (r.closeScope "malformed-forward-frame") :=
    ⟨changes_closeScope .refl _ _, rfl, rfl, rfl, rfl, rfl⟩
  obtain ⟨hplane, hsound, htotal, hfin, horder⟩ := hcore.quiet hquiet
  obtain ⟨s, hs, -⟩ := hcore.total
  obtain ⟨s', hs', hclosed⟩ := closeScope_get? hs "malformed-forward-frame"
  refine ⟨⟨hplane, hsound, htotal, hfin, horder⟩, fun _ => ?_, nofun, nofun, nofun⟩
  exact (Relay.closed_eq (r := r.reject) hs').trans hclosed

theorem FlowInv.receive {raw : B} (hinv : FlowInv cfg r) : FlowInv cfg (receive cfg wire side raw looks r) := by
  have hspec : PrepareSpec cfg wire side raw r (prepare cfg wire side raw looks r).1
      (prepare cfg wire side raw looks r).2 := spec_prepare side raw looks r r rfl
  unfold Stream.receive
  cases hx : prepare cfg wire side raw looks r with
  | mk x r' =>
    rw [hx] at hspec
    cases x with
    | ok p => exact hinv.accept hspec
    | error e =>
      refine FlowCore.reject ?_
      rcases hspec with h | h | ⟨body, h⟩
      · exact hinv.toFlowCore.quiet h.quiet
      · exact (hinv.toFlowCore.bump side).quiet h.quiet
      · exact (hinv.toFlowCore.bump side).advanced h

/-! ### Everything else is quiet -/

theorem Quiet.trans (h : Quiet cfg r r') (h' : Quiet cfg r' r'') : Quiet cfg r r'' :=
  ⟨h.plane.trans h'.plane, h'.scope.trans h.scope, h'.limits.trans h.limits,
    h'.states.trans h.states, h'.accepted.trans h.accepted, h'.rejected.trans h.rejected⟩

theorem quiet_closeScope (r : Relay B) (reason : String) : Quiet cfg r (r.closeScope reason) :=
  ⟨changes_closeScope .refl _ _, rfl, rfl, rfl, rfl, rfl⟩

theorem quiet_release (r : Relay B) (p : Prepared B) : Quiet cfg r (r.release p) := by
  unfold Relay.release
  split
  · exact ⟨.refl, rfl, rfl, rfl, rfl, rfl⟩
  · exact ⟨(keeps_releaseBuffer _ _).at _, rfl, rfl, rfl, rfl, rfl⟩

theorem quiet_startDelivery (h : startDelivery side r = some r') : Quiet cfg r r' := by
  unfold startDelivery at h
  split at h
  · split at h
    · rw [← some.inj h]
      refine Quiet.trans ?_ (quiet_closeScope _ _)
      refine Quiet.trans ?_ (quiet_release _ _)
      exact ⟨.refl, rfl, rfl, rfl, rfl, rfl⟩
    · split at h
      · rw [← some.inj h]
        refine Quiet.trans ?_ (quiet_release _ _)
        exact ⟨.refl, rfl, rfl, rfl, rfl, rfl⟩
      · rw [← some.inj h]
        exact ⟨.refl, rfl, rfl, rfl, rfl, rfl⟩
  · exact nomatch h

theorem quiet_afterWrite (r : Relay B) (p : Prepared B) : Quiet cfg r (afterWrite r p) := by
  unfold afterWrite
  split
  · exact quiet_closeScope r _
  · split
    · refine Quiet.trans (quiet_closeScope r "clean-fin") ?_
      exact ⟨.refl, rfl, rfl, rfl, rfl, rfl⟩
    · exact ⟨.refl, rfl, rfl, rfl, rfl, rfl⟩

theorem quiet_endDelivery {ok : Bool} (h : endDelivery side ok r = some r') : Quiet cfg r r' := by
  unfold endDelivery at h
  split at h
  · exact nomatch h
  · split at h
    · rw [← some.inj h]
      refine Quiet.trans ?_ (quiet_afterWrite _ _)
      refine Quiet.trans ?_ (quiet_release _ _)
      exact ⟨.refl, rfl, rfl, rfl, rfl, rfl⟩
    · rw [← some.inj h]
      refine Quiet.trans ?_ (quiet_release _ _)
      refine Quiet.trans ?_ (quiet_closeScope _ _)
      exact ⟨.refl, rfl, rfl, rfl, rfl, rfl⟩

/-- The caller is attached to a scope that is open, or only the plane changes. -/
def AttachSpec (cfg : PlaneConfig B) (r : Relay B) (_ : Except Failure Unit) (r' : Relay B) : Prop :=
  Touched cfg r r' ∨ r.closed = false ∧ r' = { r with circuit := { r.circuit with attached := true } }

theorem spec_attachCaller (look : Look) (r : Relay B) : Act.Spec (· = r) (attachCaller look) (AttachSpec cfg r) := by
  refine spec_get_bind fun r₀ hr₀ => ?_
  subst hr₀
  refine spec_bind (spec_active _ look r₀) (fun now => ?_) (fun _ _ h => .inl h.1) r₀ rfl
  intro r₁ hr₁
  obtain ⟨hr₁, s, hs, hopen⟩ := hr₁.2 now rfl
  subst hr₁
  refine spec_ofExcept_bind (P := (· = r₁)) (fun _ _ => ?_) (fun _ _ h => ?_) r₁ rfl
  · rintro _ rfl
    exact .inr ⟨(Relay.closed_eq hs).trans hopen, rfl⟩
  · rw [h]
    exact .inl (.refl r₁)

theorem FlowInv.step {m : RelayMove B} (hinv : FlowInv cfg r)
    (h : relayStep cfg wire r m = some r') : FlowInv cfg r' := by
  cases m with
  | receive side raw looks => exact some.inj h ▸ hinv.receive
  | attach look =>
    rw [← some.inj h]
    refine hinv.quiet ?_
    rcases spec_attachCaller look r r rfl with htouched | ⟨-, hr'⟩
    · exact htouched.quiet
    · rw [hr']
      exact ⟨.refl, rfl, rfl, rfl, rfl, rfl⟩
  | start side => exact hinv.quiet (quiet_startDelivery h)
  | settle side ok => exact hinv.quiet (quiet_endDelivery h)
  | plane m =>
    obtain ⟨p, hp, rfl⟩ := map_eq_some_iff.mp h
    exact hinv.quiet ⟨planeStep_changes hp, rfl, rfl, rfl, rfl, rfl⟩

/-- What a circuit is constructed with. -/
def Circuit.fixed (c : Circuit B) : ℕ × B × ℕ × ℕ × ℕ × CircuitClass :=
  (c.scope, c.circuitNonce, c.callerStreamId, c.nextStreamId, c.maxDataBytes, c.limits)

theorem fixed_release (r : Relay B) (p : Prepared B) : (r.release p).circuit = r.circuit := by
  unfold Relay.release
  split <;> rfl

theorem fixed_afterWrite (r : Relay B) (p : Prepared B) : (afterWrite r p).circuit.fixed = r.circuit.fixed := by
  unfold afterWrite
  split
  · rfl
  · split <;> rfl

theorem fixed_step {m : RelayMove B} (h : relayStep cfg wire r m = some r') : r'.circuit.fixed = r.circuit.fixed := by
  cases m with
  | receive side raw looks =>
    have hspec : PrepareSpec cfg wire side raw r (prepare cfg wire side raw looks r).1
        (prepare cfg wire side raw looks r).2 := spec_prepare side raw looks r r rfl
    rw [← some.inj h]
    unfold receive
    cases hx : prepare cfg wire side raw looks r with
    | mk x r₁ =>
      rw [hx] at hspec
      cases x with
      | ok p =>
        show r₁.circuit.fixed = _
        rw [hspec.2.2.2.2.circuit]
        rfl
      | error e =>
        show r₁.circuit.fixed = _
        rcases hspec with h | h | ⟨body, h⟩
        · rw [h.circuit]
        · rw [h.circuit]
          rfl
        · rw [h.circuit]
          rfl
  | attach look =>
    rw [← some.inj h]
    have hspec : AttachSpec cfg r (attachCaller look r).1 (attachCaller look r).2 :=
      spec_attachCaller look r r rfl
    rcases hspec with htouched | ⟨-, hr'⟩
    · rw [htouched.circuit]
    · rw [hr']
      rfl
  | start side =>
    simp only [relayStep, startDelivery] at h
    split at h
    · split at h
      · rw [← some.inj h]
        show (Relay.release _ _).circuit.fixed = _
        rw [fixed_release]
        rfl
      · split at h
        · rw [← some.inj h, fixed_release]
          rfl
        · rw [← some.inj h]
          rfl
    · exact nomatch h
  | settle side ok =>
    simp only [relayStep, endDelivery] at h
    split at h
    · exact nomatch h
    · split at h
      · rw [← some.inj h, fixed_afterWrite, fixed_release]
        rfl
      · rw [← some.inj h, fixed_release]
        rfl
  | plane m =>
    obtain ⟨p, -, rfl⟩ := map_eq_some_iff.mp h
    rfl

theorem maxBytes_of_createSession {options : SessionOptions B} {again : Option ℕ}
    {p p' : Plane B} (h : createSession cfg options reading again p = (.ok i, p')) :
    ∃ s, p'.scopes[i]? = some s ∧ s.maxBytes = options.maxBytes := by
  have h₀ : (Act.ofExcept (require (p.closing = false) _) >>= _) p = (.ok i, p') := h
  obtain ⟨_, -, h₁⟩ := ofExcept_bind_eq_ok h₀
  obtain ⟨_, -, h₂⟩ := ofExcept_bind_eq_ok h₁
  obtain ⟨_, -, h₃⟩ := ofExcept_bind_eq_ok h₂
  obtain ⟨_, -, h₄⟩ := ofExcept_bind_eq_ok h₃
  obtain ⟨s, hs, h₅⟩ := ofExcept_bind_eq_ok h₄
  obtain ⟨_, -, h₆⟩ := ofExcept_bind_eq_ok h₅
  obtain ⟨hi, rfl⟩ := Prod.mk.inj h₆
  refine ⟨s, ?_, ?_⟩
  · rw [← Except.ok.inj hi]
    exact getElem?_concat_length
  · simp only [newScope, u64, guards_eq_ok] at hs
    obtain ⟨_, ⟨_, -, rfl⟩, _, -, _, -, _, -, _, -, _, -, _, -, _, -, _, -, _, -, rfl⟩ := hs
    rfl

theorem flowInv_newCircuit {circuitNonce : B} {callerStreamId nextStreamId wireClass circuitClass : ℕ}
    {c : Circuit B} {p : Plane B} (hplane : PlaneInv cfg p)
    (hs : p.scopes[i]? = some s)
    (hc : newCircuit i circuitNonce callerStreamId nextStreamId wireClass circuitClass = .ok c)
    (hmax : ∀ limits, forwardCircuitClass circuitClass = some limits →
      s.maxBytes = limits.maxCircuitBytes) : FlowInv cfg ⟨p, c⟩ := by
  simp only [newCircuit, Except.bind_eq_ok, demand_eq_ok, pure_eq_ok_iff] at hc
  obtain ⟨_, -, _, -, _, -, _, -, limits, hlimits, rfl⟩ := hc
  refine ⟨⟨hplane, fun _ => ⟨Nat.le_refl _, Int.natCast_nonneg _, ?_⟩,
    ⟨s, hs, hmax limits hlimits, Nat.zero_le _⟩, by simp, fun _ => List.Pairwise.nil⟩, by simp,
    fun _ _ => rfl, fun _ _ => rfl, fun _ _ => by simp [streamState]⟩
  show (limits.grantedInitialWindow : ℤ) + (0 - 0) ≤ limits.grantedInitialWindow
  omega

theorem flowInv_opened {before : List (PlaneMove B)} {p p' : Plane B}
    {callerStreamId nextStreamId wireClass circuitClass maxDataBytes : ℕ} {limits : CircuitClass}
    {readiness : Option (Readiness B)} {again : Option ℕ} {circuitNonce : B} {c : Circuit B}
    (hplane : run (planeStep cfg) (Plane.new B) before = some p)
    (hlimits : forwardCircuitClass circuitClass = some limits)
    (hsession : createSession cfg
      (circuitSession cfg callerStreamId limits maxDataBytes readiness) reading again p = (.ok i, p'))
    (hcircuit : newCircuit i circuitNonce callerStreamId nextStreamId wireClass circuitClass = .ok c) :
    FlowInv cfg ⟨p', c⟩ ∧ c.limits = limits := by
  have hinv : PlaneInv cfg p' := by
    have hchanges : PlaneChanges cfg p (createSession cfg
        (circuitSession cfg callerStreamId limits maxDataBytes readiness) reading again p).2 :=
      (keeps_createSession _ _ _).at p
    rw [hsession] at hchanges
    exact ((planeInv_new cfg).changes (planeChanges_run hplane)).changes hchanges
  obtain ⟨s, hs, hmax⟩ := maxBytes_of_createSession hsession
  refine ⟨flowInv_newCircuit hinv hs hcircuit fun limits' hlimits' => ?_, ?_⟩
  · rw [hmax, mem_unique hlimits' hlimits]
    rfl
  · simp only [newCircuit, Except.bind_eq_ok, demand_eq_ok, pure_eq_ok_iff] at hcircuit
    obtain ⟨_, -, _, -, _, -, _, -, limits', hlimits', rfl⟩ := hcircuit
    exact mem_unique hlimits' hlimits

/-- **Flow control of a circuit.** A circuit is constructed for a session of its class, and then
frames arrive, are delivered or are not, and anything else happens to the plane. In every state that
is reached each side has consumed at most what was sent, its credit is not negative, and its credit
and what is outstanding are within the window that was granted; both sides together have sent at most
`maxCircuitBytes`; no DATA was accepted after a FIN of its side; and unless a frame was rejected,
which closes the scope for good, the sequence number of a side is the number of its frames that were
accepted and its offset the number of their bytes. -/
theorem forward_flow_control {before : List (PlaneMove B)} {p p' : Plane B}
    {callerStreamId nextStreamId wireClass circuitClass i maxDataBytes : ℕ} {limits : CircuitClass}
    {readiness : Option (Readiness B)} {reading again : Option ℕ} {circuitNonce : B} {c : Circuit B}
    {moves : List (RelayMove B)}
    (hplane : run (planeStep cfg) (Plane.new B) before = some p)
    (hlimits : forwardCircuitClass circuitClass = some limits)
    (hsession : createSession cfg
      (circuitSession cfg callerStreamId limits maxDataBytes readiness) reading again p = (.ok i, p'))
    (hcircuit : newCircuit i circuitNonce callerStreamId nextStreamId wireClass circuitClass = .ok c)
    (hrun : run (relayStep cfg wire) ⟨p', c⟩ moves = some r) :
    (∀ side, (r.circuit.states side).consumedThrough ≤ (r.circuit.states side).nextOffset ∧
      0 ≤ (r.circuit.states side).availableCredit ∧
      (r.circuit.states side).availableCredit +
        (((r.circuit.states side).nextOffset : ℤ) - (r.circuit.states side).consumedThrough) ≤
        limits.grantedInitialWindow) ∧
      (r.circuit.states .caller).nextOffset + (r.circuit.states .nextHop).nextOffset ≤ limits.maxCircuitBytes ∧
      (∀ side, NoDataAfterFin (r.circuit.accepted side)) ∧
      (r.circuit.rejected = true → r.closed = true) ∧
      (r.circuit.rejected = false → ∀ side, (r.circuit.states side).nextSequence = (r.circuit.accepted side).length ∧
        (r.circuit.states side).nextOffset = ((r.circuit.accepted side).map fun q => q.body.dataLength).sum) := by
  have hstart := flowInv_opened hplane hlimits hsession hcircuit
  have hkept : ∀ r₁ m r₂, FlowInv cfg r₁ ∧ r₁.circuit.limits = limits →
      relayStep cfg wire r₁ m = some r₂ → FlowInv cfg r₂ ∧ r₂.circuit.limits = limits := by
    intro r₁ m r₂ h hstep
    have hfixed := congrArg (fun x => x.2.2.2.2.2) (fixed_step hstep)
    exact ⟨h.1.step hstep, hfixed.trans h.2⟩
  obtain ⟨hinv, hfixed⟩ := run_preserves _ hkept hstart hrun
  obtain ⟨t, ht, htmax, htotal⟩ := hinv.total
  rw [hfixed] at htmax
  refine ⟨fun side => ?_, ?_, hinv.order, hinv.rejected, fun hr side =>
    ⟨hinv.sequence hr side, hinv.offset hr side⟩⟩
  · have hsound := hinv.sound side
    rw [hfixed] at hsound
    exact ⟨hsound.consumed, hsound.credit, hsound.balance⟩
  · have hcap := (hinv.plane.scope _ t ht).total
    omega

/-- DATA of the caller, credit from the next hop, and the FIN of the caller. -/
def sampleExchange : List (RelayMove (List ℕ)) :=
  [sampleFrame .caller 2 0 [0, 100], sampleFrame .nextHop 3 0 [60, 50], sampleFrame .caller 4 1 [1, 100]]

/-- The exchange on a circuit of the first class. -/
theorem forward_flow_control_sample : ∃ p c r, sampleSession = (.ok 0, p) ∧ newCircuit 0 [33] 9 5 1 1 = .ok c ∧
      run (relayStep sampleCircuitPlane sampleWire) ⟨p, c⟩ sampleExchange = some r ∧
      r.circuit.states .caller = ⟨2, 100, 60, 65486, true⟩ ∧
      (r.circuit.states .caller).nextOffset + (r.circuit.states .nextHop).nextOffset ≤ 16 * 1024 * 1024 := by
  have hsession : ∃ p, sampleSession = (.ok 0, p) := ⟨_, rfl⟩
  obtain ⟨p, hp⟩ := hsession
  have hcircuit : ∃ c, newCircuit 0 [33] 9 5 1 1 = .ok c := ⟨_, rfl⟩
  obtain ⟨c, hc⟩ := hcircuit
  have hrun : ∃ r, run (relayStep sampleCircuitPlane sampleWire) ⟨p, c⟩ sampleExchange = some r := by
    exact ⟨_, rfl⟩
  obtain ⟨r, hr⟩ := hrun
  refine ⟨p, c, r, hp, hc, hr, ?_, ?_⟩
  · rw [← (Prod.mk.inj hp).2, ← Except.ok.inj hc] at hr
    rw [← some.inj hr]
    rfl
  · have hnew : run (planeStep sampleCircuitPlane) (Plane.new (List ℕ)) [] = some _ := rfl
    have hclass : forwardCircuitClass 1 = some sampleClass := rfl
    exact (forward_flow_control hnew hclass hp hc hr).2.1

end Flow

end HiveRelay.Stream
