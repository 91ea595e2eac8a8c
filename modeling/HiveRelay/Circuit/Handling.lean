import HiveRelay.Circuit.CircuitRelay

/-!
# How an event is handled

Each handler, once: what it leaves alone, and the ways in which it can end. A message that bridges
nothing and charges nothing is `Quiet`: it answers with statuses, and no more than a claim and a
queued request comes of it. A request that is bridged is either refused by the caps of the relay or
announced; a frame is dropped, or its circuit is charged and closed, or charged and the frame sent on.
-/

namespace HiveRelay.Circuits

namespace State

open List

/-! ## What the methods leave alone -/

/-- What `s'` has sent and `s` has not, all of which meets `P`. -/
def Sends (P : Channel × Wire → Prop) (s s' : State) : Prop :=
  ∃ out, s'.sent = s.sent ++ out ∧ ∀ m ∈ out, P m

section Sends

variable {P Q : Channel × Wire → Prop} {s s₁ s' : State}

theorem Sends.of_eq (h : s'.sent = s.sent) : Sends P s s' := ⟨[], by simp [h], by simp⟩

theorem Sends.trans (h₁ : Sends P s s₁) (h₂ : Sends P s₁ s') : Sends P s s' := by
  obtain ⟨out₁, hout₁, hall₁⟩ := h₁
  obtain ⟨out₂, hout₂, hall₂⟩ := h₂
  refine ⟨out₁ ++ out₂, by rw [hout₂, hout₁, append_assoc], fun m hm => ?_⟩
  exact (mem_append.mp hm).elim (hall₁ m) (hall₂ m)

theorem Sends.from_eq (h : Sends P s₁ s') (heq : s₁.sent = s.sent) : Sends P s s' :=
  (Sends.of_eq heq).trans h

theorem Sends.mono (h : Sends P s s') (himp : ∀ m, P m → Q m) : Sends Q s s' := by
  obtain ⟨out, hout, hall⟩ := h
  exact ⟨out, hout, fun m hm => himp m (hall m hm)⟩

theorem Sends.of_mem_drop (h : Sends P s s') {m : Channel × Wire} (hm : m ∈ s'.sent.drop s.sent.length) : P m := by
  obtain ⟨out, hout, hall⟩ := h
  rw [hout, drop_left] at hm
  exact hall m hm

end Sends

section Fields

variable (s : State) (channel : Channel) (message : Wire) (circuitId : CircuitId) (reason : Reason)

@[simp] theorem sendStatus_eq (code : Err) (text : String) :
    s.sendStatus channel code text = s.send channel (.status code text) := rfl

@[simp] theorem sendReady_eq (key : Pubkey) :
    s.sendReady channel circuitId key = s.send channel (.ready circuitId key) := rfl

@[simp] theorem send_relay : (s.send channel message).relay = s.relay := by
  unfold send; split <;> rfl

@[simp] theorem send_reservations : (s.send channel message).reservations = s.reservations := by
  unfold send; split <;> rfl

@[simp] theorem send_pendingConnects : (s.send channel message).pendingConnects = s.pendingConnects := by
  unfold send; split <;> rfl

@[simp] theorem send_activeCircuits : (s.send channel message).activeCircuits = s.activeCircuits := by
  unfold send; split <;> rfl

@[simp] theorem send_opened : (s.send channel message).opened = s.opened := by
  unfold send; split <;> rfl

@[simp] theorem send_closed : (s.send channel message).closed = s.closed := by
  unfold send; split <;> rfl

@[simp] theorem send_claims : (s.send channel message).claims = s.claims := by
  unfold send; split <;> rfl

@[simp] theorem send_announced : (s.send channel message).announced = s.announced := by
  unfold send; split <;> rfl

theorem send_sent : (s.send channel message).sent =
    s.sent ++ if channel ∈ s.opened ∧ channel ∉ s.closed then [(channel, message)] else [] := by
  unfold send
  split <;> simp

theorem send_reserve (reservations : OrderedMap Pubkey Reservation) :
    { s with reservations := reservations }.send channel message =
      { s.send channel message with reservations := reservations } := by
  unfold send
  split <;> rfl

variable (peer : Pubkey)

@[simp] theorem releasePlace_relay : (s.releasePlace peer).relay = s.relay := by
  unfold releasePlace; split <;> [rfl; split <;> rfl]

@[simp] theorem releasePlace_pendingConnects : (s.releasePlace peer).pendingConnects = s.pendingConnects := by
  unfold releasePlace; split <;> [rfl; split <;> rfl]

@[simp] theorem releasePlace_activeCircuits : (s.releasePlace peer).activeCircuits = s.activeCircuits := by
  unfold releasePlace; split <;> [rfl; split <;> rfl]

@[simp] theorem releasePlace_opened : (s.releasePlace peer).opened = s.opened := by
  unfold releasePlace; split <;> [rfl; split <;> rfl]

@[simp] theorem releasePlace_closed : (s.releasePlace peer).closed = s.closed := by
  unfold releasePlace; split <;> [rfl; split <;> rfl]

@[simp] theorem releasePlace_sent : (s.releasePlace peer).sent = s.sent := by
  unfold releasePlace; split <;> [rfl; split <;> rfl]

@[simp] theorem releasePlace_claims : (s.releasePlace peer).claims = s.claims := by
  unfold releasePlace; split <;> [rfl; split <;> rfl]

@[simp] theorem releasePlace_announced : (s.releasePlace peer).announced = s.announced := by
  unfold releasePlace; split <;> [rfl; split <;> rfl]

theorem releasePlace_reservations (key : Pubkey) : (s.releasePlace peer).reservations.get? key =
    if key = peer then (s.reservations.get? peer).map fun res =>
      { res with circuitCount := res.circuitCount - 1 }
    else s.reservations.get? key := by
  cases hres : s.reservations.get? peer with
  | none =>
    simp only [releasePlace, hres]
    split
    · next heq => exact heq ▸ hres
    · rfl
  | some res =>
    simp only [releasePlace, hres]
    split
    · simp only [OrderedMap.get?_set, Option.map_some]
    · next hzero =>
      split
      · next heq =>
        have hcount : res.circuitCount - 1 = res.circuitCount := by omega
        simp [heq, hres, hcount]
      · rfl

theorem Sends.send {P : Channel × Wire → Prop} {s s' : State} {channel : Channel} {message : Wire}
    (h : Sends P s s') (hP : P (channel, message)) : Sends P s (s'.send channel message) := by
  refine h.trans ⟨_, send_sent s' channel message, fun m hm => ?_⟩
  split at hm
  · exact mem_singleton.mp hm ▸ hP
  · cases hm

end Fields

section Close

variable {s : State} {circuitId : CircuitId} {reason : Reason}

theorem closeCircuit_of_none (h : s.activeCircuits.get? circuitId = none) : s.closeCircuit circuitId reason = s := by
  simp only [closeCircuit, h]

/-- The tables of a relay after `_closeCircuit` has found an entry. -/
structure Closed (s : State) (circuitId : CircuitId) (circuit : Circuit) (s' : State) : Prop where
  relay : s'.relay = s.relay.closeCircuit circuitId
  reservations : ∀ key, s'.reservations.get? key = if key = circuit.destPubkey then
    (s.reservations.get? key).map fun res => { res with circuitCount := res.circuitCount - 1 }
    else s.reservations.get? key
  pendingConnects : s'.pendingConnects = s.pendingConnects
  activeCircuits : s'.activeCircuits = s.activeCircuits.delete circuitId
  opened : s'.opened = s.opened
  closed : s'.closed = s.closed
  claims : s'.claims = s.claims
  announced : s'.announced = s.announced.filter (· ≠ (circuitId, circuit.toBridge))
  sent : Sends (fun m => circuit.HasEnd m.1 ∧ ∃ code, m.2 = .close circuitId code) s s'

theorem closed_closeCircuit {circuit : Circuit} (h : s.activeCircuits.get? circuitId = some circuit) :
    Closed s circuitId circuit (s.closeCircuit circuitId reason) where
  relay := by simp [closeCircuit, h]
  reservations key := by
    simp only [closeCircuit, h, send_reservations, releasePlace_reservations]
    split
    · next heq => rw [heq]
    · rfl
  pendingConnects := by simp [closeCircuit, h]
  activeCircuits := by simp [closeCircuit, h]
  opened := by simp [closeCircuit, h]
  closed := by simp [closeCircuit, h]
  claims := by simp [closeCircuit, h]
  announced := by simp [closeCircuit, h]
  sent := by
    simp only [closeCircuit, h]
    exact ((Sends.of_eq (releasePlace_sent ..)).send ⟨Or.inl rfl, _, rfl⟩).send ⟨Or.inr rfl, _, rfl⟩

end Close

/-! ## Messages that bridge nothing -/

/-- The effect of a message of `channel` that bridges nothing and charges nothing. -/
structure Quiet (cfg : Config) (channel : Channel) (s s' : State) : Prop where
  relay : s'.relay = s.relay
  reservations : s'.reservations = s.reservations
  activeCircuits : s'.activeCircuits = s.activeCircuits
  opened : s'.opened = s.opened
  closed : s'.closed = s.closed
  announced : s'.announced = s.announced
  sent : Sends (fun m => ∃ code text, m.2 = .status code text) s s'
  kept : ∀ p ∈ s.claims, p ∈ s'.claims
  claimed : ∀ p ∈ s'.claims, p ∈ s.claims ∨ mismatch cfg p.1 p.2 = false
  queued : ∀ key reqs, s'.pendingConnects.get? key = some reqs → ∀ req ∈ reqs,
    (∃ old, s.pendingConnects.get? key = some old ∧ req ∈ old) ∨
      req.sourceChannel = channel ∧ (channel, req.sourcePubkey) ∈ s'.claims

section Quiet

variable {cfg : Config} {channel : Channel} {s s' : State}

theorem Quiet.refl : Quiet cfg channel s s where
  relay := rfl
  reservations := rfl
  activeCircuits := rfl
  opened := rfl
  closed := rfl
  announced := rfl
  sent := .of_eq rfl
  kept _ hp := hp
  claimed _ hp := Or.inl hp
  queued _ reqs hreqs _ hreq := Or.inl ⟨reqs, hreqs, hreq⟩

theorem Quiet.status (h : Quiet cfg channel s s') (receiver : Channel) (code : Err) (text : String) :
    Quiet cfg channel s (s'.send receiver (.status code text)) where
  relay := by simp [h.relay]
  reservations := by simp [h.reservations]
  activeCircuits := by simp [h.activeCircuits]
  opened := by simp [h.opened]
  closed := by simp [h.closed]
  announced := by simp [h.announced]
  sent := h.sent.send ⟨code, text, rfl⟩
  kept := by simpa using h.kept
  claimed := by simpa using h.claimed
  queued := by simpa using h.queued

theorem Quiet.claim (h : Quiet cfg channel s s') {key : Pubkey}
    (hkey : mismatch cfg channel key = false) : Quiet cfg channel s (s'.claim channel key) :=
  { h with
    kept := fun p hp => mem_cons_of_mem _ (h.kept p hp)
    claimed := by
      intro p hp
      obtain rfl | hp := mem_cons.mp hp
      · exact Or.inr hkey
      · exact h.claimed p hp
    queued := by
      intro k reqs hreqs req hreq
      refine (h.queued k reqs hreqs req hreq).imp_right fun hnew => ?_
      exact ⟨hnew.1, mem_cons_of_mem _ hnew.2⟩ }

theorem Quiet.queue (h : Quiet cfg channel s s') {source : Pubkey}
    (hsource : (channel, source) ∈ s'.claims) (target : Pubkey) (now : ℕ) :
    Quiet cfg channel s
      { s' with
        pendingConnects := s'.pendingConnects.set target
          ((s'.pendingConnects.get? target).getD [] ++ [⟨channel, source, now⟩]) } :=
  { h with
    queued := by
      intro k reqs hreqs req hreq
      rw [OrderedMap.get?_set] at hreqs
      split at hreqs
      · next heq =>
        cases hreqs
        rcases mem_append.mp hreq with hreq | hreq
        · cases hold : s'.pendingConnects.get? target with
          | none => simp [hold] at hreq
          | some old =>
            rw [heq]
            exact h.queued target old hold req (by simpa [hold] using hreq)
        · obtain rfl := mem_singleton.mp hreq
          exact Or.inr ⟨rfl, hsource⟩
      · exact h.queued k reqs hreqs req hreq }

end Quiet

/-! ## Bridging -/

end State

section Bridge

open State

variable {cfg : Config} {b : Bridging} {s : State} {req : Pending}

/-- A request the caps of the relay refuse. -/
def Bridging.refuse (s : State) (req : Pending) : State :=
  s.send req.sourceChannel (.status .capacityFull "Relay at capacity")

/-- A request the caps of the relay let through. -/
def Bridging.enter (cfg : Config) (b : Bridging) (s : State) (req : Pending) : State :=
  let circuit := b.circuit cfg s.relay.totalCircuitsServed req
  { s with
    relay := s.relay.register cfg.relay (b.idOf req) req.sourcePubkey circuit.maxBytes
      b.now }.announce (b.idOf req) circuit

theorem bridgeCircuit_cases :
    s.bridgeCircuit cfg req.sourceChannel b.reservation.channel req.sourcePubkey b.destPubkey
        (some b.reservation) b.now =
      if s.relay.accepts cfg.relay req.sourcePubkey then b.enter cfg s req
      else Bridging.refuse s req := by
  unfold bridgeCircuit Relay.registerCircuit
  split <;> rfl

@[simp] theorem announce_reservations (circuitId : CircuitId) (circuit : Circuit) :
    (s.announce circuitId circuit).reservations = s.reservations := by
  simp [announce]

@[simp] theorem announce_pendingConnects (circuitId : CircuitId) (circuit : Circuit) :
    (s.announce circuitId circuit).pendingConnects = s.pendingConnects := by
  simp [announce]

@[simp] theorem announce_relay (circuitId : CircuitId) (circuit : Circuit) :
    (s.announce circuitId circuit).relay = s.relay := by
  simp [announce]

@[simp] theorem announce_activeCircuits (circuitId : CircuitId) (circuit : Circuit) :
    (s.announce circuitId circuit).activeCircuits = s.activeCircuits.set circuitId circuit := by
  simp [announce]

@[simp] theorem announce_opened (circuitId : CircuitId) (circuit : Circuit) :
    (s.announce circuitId circuit).opened = s.opened := by
  simp [announce]

@[simp] theorem announce_closed (circuitId : CircuitId) (circuit : Circuit) :
    (s.announce circuitId circuit).closed = s.closed := by
  simp [announce]

@[simp] theorem announce_claims (circuitId : CircuitId) (circuit : Circuit) :
    (s.announce circuitId circuit).claims = s.claims := by
  simp [announce]

@[simp] theorem announce_announced (circuitId : CircuitId) (circuit : Circuit) :
    (s.announce circuitId circuit).announced = s.announced ++ [(circuitId, circuit.toBridge)] := by
  simp [announce]

theorem Bridging.admitted_of_refused {r : Relay} {rest : List Pending}
    (h : r.accepts cfg.relay req.sourcePubkey = false) :
    b.admitted cfg r (req :: rest) = b.admitted cfg r rest := by
  simp only [admitted, h, Bool.false_eq_true, if_false]

theorem Bridging.admitted_of_accepted {rest : List Pending} (h : s.relay.accepts cfg.relay req.sourcePubkey = true) :
    b.admitted cfg s.relay (req :: rest) = req :: b.admitted cfg (b.enter cfg s req).relay rest := by
  simp only [admitted, h, if_true, enter, announce_relay]
  rfl

theorem bridgeAll_invariant {s : State} (I : State → List Pending → Prop) (hrefuse : ∀ s req rest, I s (req :: rest) →
      s.relay.accepts cfg.relay req.sourcePubkey = false → I (Bridging.refuse s req) rest)
    (henter : ∀ s req rest, I s (req :: rest) →
      s.relay.accepts cfg.relay req.sourcePubkey = true → I (b.enter cfg s req) rest)
    {reqs : List Pending} (h : I s reqs) : I (b.bridgeAll cfg s reqs) [] := by
  induction reqs generalizing s with
  | nil => exact h
  | cons req rest ih =>
    rw [Bridging.bridgeAll, bridgeCircuit_cases]
    split
    · next haccepts => exact ih (henter s req rest h haccepts)
    · next hrefuses => exact ih (hrefuse s req rest h (Bool.eq_false_iff.mpr hrefuses))

@[simp] theorem bridgeAll_reservations (cfg : Config) (b : Bridging) (s : State) (reqs : List Pending) :
    (b.bridgeAll cfg s reqs).reservations = s.reservations := by
  refine bridgeAll_invariant (fun s' _ => s'.reservations = s.reservations) ?_ ?_ (rfl)
  · intro s' req rest h _
    simpa [Bridging.refuse] using h
  · intro s' req rest h _
    simpa [Bridging.enter] using h

theorem bridgePending_eq {channel : Channel} {peer : Pubkey} {res : Reservation} {now : ℕ}
    {pending : List Pending} (hres : s.reservations.get? peer = some res)
    (hchannel : res.channel = channel) :
    s.bridgePending cfg channel peer now pending =
      (Bridging.mk false peer res now pending).bridgeAll cfg s pending := by
  subst hchannel
  suffices h : ∀ reqs, s.bridgePending cfg res.channel peer now reqs =
      (Bridging.mk false peer res now pending).bridgeAll cfg s reqs from h pending
  intro reqs
  induction reqs generalizing s with
  | nil => rfl
  | cons req rest ih =>
    rw [Bridging.bridgeAll, ← ih]
    · rw [bridgePending, List.foldl_cons, hres]
      rfl
    · have hkeep := bridgeAll_reservations cfg ⟨false, peer, res, now, pending⟩ s [req]
      exact (congrArg (OrderedMap.get? · peer) hkeep).trans hres

end Bridge

namespace State

/-! ## Handlers -/

section Handlers

variable {cfg : Config} {s : State} {channel : Channel} {now : ℕ}

def reserve (s : State) (peer : Pubkey) (res : Reservation) : State :=
  { s with reservations := s.reservations.set peer res }

/-- The end of a `RESERVE` that is granted, from a state in which the attempt is noted. -/
def grant (cfg : Config) (s : State) (channel : Channel) (msg : ReserveMsg) (now : ℕ)
    (pending : List Pending) : State :=
  let res := granted cfg channel msg now
  let b : Bridging := ⟨false, msg.peerPubkey, res, now, pending⟩
  let s := b.bridgeAll cfg (s.reserve msg.peerPubkey res) pending
  { s with pendingConnects := s.pendingConnects.delete msg.peerPubkey }

theorem grantReserve_eq (msg : ReserveMsg) : s.grantReserve cfg channel msg now =
    (s.send channel (.status .none "Reservation granted")).grant cfg channel msg now
      ((s.pendingConnects.get? msg.peerPubkey).getD []) := by
  unfold grantReserve grant reserve
  simp only [sendStatus_eq, send_reserve, send_pendingConnects, send_reservations]
  cases hp : s.pendingConnects.get? msg.peerPubkey with
  | none =>
    simp only [Option.getD_none, Bridging.bridgeAll, OrderedMap.delete_of_get?_eq_none hp]
  | some pending =>
    have hchannel : (granted cfg channel msg now).channel = channel := rfl
    dsimp only
    rw [bridgePending_eq OrderedMap.get?_set_self hchannel]
    rfl

variable (cfg s channel now)

/-- **How a `RESERVE` ends**: with a status, or with a reservation to which the queued requests for
its holder are bridged. -/
theorem onReserve_cases (msg : ReserveMsg) :
    (¬s.Grants cfg channel msg now ∧ Quiet cfg channel s (s.onReserve cfg channel msg now)) ∨
      (s.Grants cfg channel msg now ∧ ∃ s₁, Quiet cfg channel s s₁ ∧ (channel, msg.peerPubkey) ∈ s₁.claims ∧
          s.onReserve cfg channel msg now = s₁.grant cfg channel msg now
            ((s.pendingConnects.get? msg.peerPubkey).getD [])) := by
  cases hkey : mismatch cfg channel msg.peerPubkey with
  | true =>
    refine Or.inl ⟨fun h => by simp [h.1] at hkey, ?_⟩
    simp only [onReserve, hkey, if_true, sendStatus_eq]
    exact Quiet.refl.status ..
  | false =>
    have hclaim : Quiet cfg channel s (s.claim channel msg.peerPubkey) := Quiet.refl.claim hkey
    have hrecent : (s.claim channel msg.peerPubkey).recentAttempts msg.peerPubkey now =
        s.recentAttempts msg.peerPubkey now := rfl
    simp only [onReserve, hkey, Bool.false_eq_true, if_false, hrecent]
    split
    · next hrate => exact Or.inl ⟨fun h => by have := h.2.1; omega, hclaim.status ..⟩
    · next hrate =>
      have hnoted : Quiet cfg channel s
          { s.claim channel msg.peerPubkey with
            reserveAttempts := s.reserveAttempts.set msg.peerPubkey
              (s.recentAttempts msg.peerPubkey now ++ [now]) } := { hclaim with }
      split
      · next hfull =>
        have hsize : cfg.relay.maxConnections ≤ s.relay.circuits.size := hfull
        exact Or.inl ⟨fun h => by have := h.2.2; omega, hnoted.status ..⟩
      · next hfull =>
        have hsize : ¬cfg.relay.maxConnections ≤ s.relay.circuits.size := hfull
        refine Or.inr ⟨⟨hkey, by omega, by omega⟩, _,
          hnoted.status channel .none "Reservation granted", ?_, grantReserve_eq msg⟩
        rw [send_claims]
        exact List.mem_cons_self

/-- The end of a `CONNECT` that is bridged, which the reservation then counts. -/
def join (cfg : Config) (s : State) (b : Bridging) : State :=
  (b.bridgeAll cfg s b.requests).reserve b.destPubkey
    { b.reservation with circuitCount := b.reservation.circuitCount + 1 }

/-- **How a `CONNECT` ends**: with a status, or with its circuit, which the reservation counts. -/
theorem onConnectTo_cases (target source : Pubkey) : (s.reaches cfg channel target source now = none ∧
        Quiet cfg channel s (s.onConnectTo cfg channel target source now)) ∨
      ∃ res, s.reaches cfg channel target source now = some res ∧ s.reservations.get? target = some res ∧
        mismatch cfg channel source = false ∧
        res.circuitCount < cfg.maxCircuitsPerPeer ∧ s.onConnectTo cfg channel target source now =
            (s.claim channel source).join cfg ⟨true, target, res, now, [⟨channel, source, now⟩]⟩ := by
  cases hkey : mismatch cfg channel source with
  | true =>
    refine Or.inl ⟨by simp [reaches, hkey], ?_⟩
    simp only [onConnectTo, hkey, if_true, sendStatus_eq]
    exact Quiet.refl.status ..
  | false =>
    have hclaim : Quiet cfg channel s (s.claim channel source) := Quiet.refl.claim hkey
    have hmem : (channel, source) ∈ (s.claim channel source).claims := List.mem_cons_self
    have htotal : (s.claim channel source).totalPending = s.totalPending := rfl
    have hlive : (s.claim channel source).liveReservation target now =
        s.liveReservation target now := rfl
    simp only [onConnectTo, hkey, Bool.false_eq_true, if_false, htotal, hlive, reaches, true_and]
    by_cases hpending : cfg.maxPendingConnects ≤ s.totalPending
    · simp only [hpending, if_true, Nat.not_lt.mpr hpending, if_false, true_and]
      exact Or.inl (hclaim.status ..)
    · simp only [hpending, if_false, Nat.lt_of_not_le hpending, if_true]
      cases hres : s.liveReservation target now with
      | none => exact Or.inl ⟨rfl, (hclaim.queue hmem target now).status ..⟩
      | some res =>
        have hget : s.reservations.get? target = some res := (Option.filter_eq_some_iff.mp hres).1
        by_cases hcount : cfg.maxCircuitsPerPeer ≤ res.circuitCount
        · simp only [hcount, if_true]
          exact Or.inl ⟨by simp [Option.filter, hcount], hclaim.status ..⟩
        · have hlt : res.circuitCount < cfg.maxCircuitsPerPeer := Nat.lt_of_not_le hcount
          refine Or.inr ⟨res, by simp [Option.filter, hlt], hget, hlt, ?_⟩
          simp only [hcount, if_false]
          rfl

/-- A frame was let through by the circuit's own caps: the entry is written back, beside a relay. -/
def touch (s : State) (relay : Relay) (circuitId : CircuitId) (circuit : Circuit) : State :=
  { s with relay := relay, activeCircuits := s.activeCircuits.set circuitId circuit }

/-- What becomes of a frame of an end of `circuit`: it is dropped by the circuit's caps or by the
relay's, it is charged and cannot be forwarded, or it is charged and sent to the other end. Only the
last leaves the circuit open. -/
inductive Framed (cfg : Config) (s : State) (channel : Channel) (circuitId : CircuitId)
    (circuit : Circuit) (data : Bytes) (now : ℕ) : State → Prop
  | dropped (window : RateWindow) (reason : Reason) :
    Framed cfg s channel circuitId circuit data now
      ((s.touch s.relay circuitId { circuit with window := window }).closeCircuit circuitId reason)
  | refused (window : RateWindow)
      (h : (s.relay.recordCircuitBytes cfg.relay circuitId data.length now).2 = false) :
    Framed cfg s channel circuitId circuit data now
      ((s.touch (s.relay.recordCircuitBytes cfg.relay circuitId data.length now).1 circuitId
        { circuit with window := window }).closeCircuit circuitId .bandwidthExceeded)
  | lost (window : RateWindow) (reason : Reason)
      (h : (s.relay.recordCircuitBytes cfg.relay circuitId data.length now).2 = true) :
    Framed cfg s channel circuitId circuit data now
      ((s.touch (s.relay.recordCircuitBytes cfg.relay circuitId data.length now).1 circuitId
        { circuit with
          window := window
          bytesRelayed := circuit.bytesRelayed + data.length }).closeCircuit circuitId reason)
  | forwarded (window : RateWindow)
      (h : (s.relay.recordCircuitBytes cfg.relay circuitId data.length now).2 = true) :
    Framed cfg s channel circuitId circuit data now
      ((s.touch (s.relay.recordCircuitBytes cfg.relay circuitId data.length now).1 circuitId
        { circuit with
          window := window
          bytesRelayed := circuit.bytesRelayed + data.length }).send (circuit.otherEnd channel)
            (.data circuitId data))

/-- **How a frame ends**: without effect, or as `Framed` says of a circuit its channel is an end
of. -/
theorem onCircuitFrame_cases (circuitId : CircuitId) (data : Bytes) (throws : Bool) :
    s.onCircuitFrame cfg channel circuitId data throws now = s ∨
      ∃ circuit, s.activeCircuits.get? circuitId = some circuit ∧ circuit.HasEnd channel ∧
        Framed cfg s channel circuitId circuit data now (s.onCircuitFrame cfg channel circuitId data throws now) := by
  cases hc : s.activeCircuits.get? circuitId with
  | none => exact Or.inl (by simp only [onCircuitFrame, hc])
  | some circuit =>
    have hself : s.touch s.relay circuitId { circuit with window := circuit.window } = s := by
      simp only [touch, OrderedMap.set_of_get? hc]
    have hdrop : ∀ reason, Framed cfg s channel circuitId circuit data now
        (s.closeCircuit circuitId reason) := fun reason => by
      have hframed : Framed cfg s channel circuitId circuit data now _ :=
        Framed.dropped circuit.window reason
      rwa [hself] at hframed
    by_cases hend : circuit.HasEnd channel
    · refine Or.inr ⟨circuit, rfl, hend, ?_⟩
      simp only [onCircuitFrame, hc, hend, not_true, if_false]
      split
      · exact hdrop _
      split
      · exact hdrop _
      split
      · exact hdrop _
      split
      · exact Framed.dropped _ _
      · split
        · next hok => exact Framed.refused _ (by simpa using hok)
        · next hok =>
          have hok : (s.relay.recordCircuitBytes cfg.relay circuitId data.length now).2 = true := by
            simpa using hok
          simp only [OrderedMap.set_set, forward]
          split
          · split
            · exact Framed.lost _ _ hok
            · exact Framed.forwarded _ hok
          · exact Framed.lost _ _ hok
    · exact Or.inl (by simp only [onCircuitFrame, hc, hend, not_false_eq_true, if_true])

variable {cfg s channel now}

theorem closeWhere_invariant (I : State → Prop) {reason : Reason}
    (hclose : ∀ s circuitId circuit, I s → s.activeCircuits.get? circuitId = some circuit →
      I (s.closeCircuit circuitId reason)) (test : Circuit → Bool) (h : I s) :
    I (s.closeWhere test reason) := by
  unfold closeWhere
  generalize s.activeCircuits.entries.filter (fun e => test e.2) = entries
  induction entries generalizing s with
  | nil => exact h
  | cons e rest ih =>
    refine ih ?_
    change I (s.closeCircuit e.1 reason)
    cases hc : s.activeCircuits.get? e.1 with
    | none => rwa [closeCircuit_of_none hc]
    | some circuit => exact hclose s e.1 circuit h hc

end Handlers

/-! ## Invariants -/

def Known (s : State) (channel : Channel) : Prop := channel ∈ s.opened ∨ channel ∈ s.closed

/-- `s'` has the circuits of `s`, and no reservation and no request that `s` has not. -/
structure Shrunk (s s' : State) : Prop where
  relay : s'.relay = s.relay
  activeCircuits : s'.activeCircuits = s.activeCircuits
  announced : s'.announced = s.announced
  sent : s'.sent = s.sent
  claims : s'.claims = s.claims
  reservations : ∀ key res, s'.reservations.get? key = some res → s.reservations.get? key = some res
  pending : ∀ key reqs, s'.pendingConnects.get? key = some reqs → ∃ old,
    s.pendingConnects.get? key = some old ∧ ∀ req ∈ reqs, req ∈ old
  known : ∀ channel, s.Known channel → s'.Known channel
  closed : ∀ channel ∈ s.closed, channel ∈ s'.closed

/-- What each part of the handling keeps, when what is bridged meets `ok`. -/
structure Invariant (cfg : Config) (ok : State → Bridging → Prop) (I : State → Prop) : Prop where
  quiet : ∀ {s s' channel}, I s → s.Known channel → Quiet cfg channel s s' → I s'
  close : ∀ {s s' circuitId circuit}, I s → s.activeCircuits.get? circuitId = some circuit →
    Closed s circuitId circuit s' → I s'
  touch : ∀ {s circuitId circuit circuit' relay bytes charged}, I s →
    s.activeCircuits.get? circuitId = some circuit → circuit'.toBridge = circuit.toBridge →
    circuit'.bytesRelayed = circuit.bytesRelayed + (if charged then bytes else 0) →
    Relay.Recorded s.relay circuitId bytes relay charged → I (s.touch relay circuitId circuit')
  send : ∀ {s} channel circuitId data, I s → I (s.send channel (.data circuitId data))
  grant : ∀ {s s₁ channel} (msg : ReserveMsg) (now : ℕ), I s → s.Known channel →
    ok s ⟨false, msg.peerPubkey, granted cfg channel msg now, now, (s.pendingConnects.get? msg.peerPubkey).getD []⟩ →
    Quiet cfg channel s s₁ → (channel, msg.peerPubkey) ∈ s₁.claims →
    I (s₁.grant cfg channel msg now ((s.pendingConnects.get? msg.peerPubkey).getD []))
  join : ∀ {s channel target source res} (now : ℕ), I s → s.Known channel →
    s.reservations.get? target = some res → mismatch cfg channel source = false →
    res.circuitCount < cfg.maxCircuitsPerPeer →
    ok s ⟨true, target, res, now, [⟨channel, source, now⟩]⟩ →
    I ((s.claim channel source).join cfg ⟨true, target, res, now, [⟨channel, source, now⟩]⟩)
  shrink : ∀ {s s'}, I s → Shrunk s s' → I s'
  timer : ∀ {s} (t : Timer), I s → t ∈ s.relay.timers → I { s with relay := s.relay.onTimer t }

section Invariant

variable {cfg : Config} {ok : State → Bridging → Prop} {I : State → Prop} {s s' : State}

theorem Invariant.closeCircuit (hI : Invariant cfg ok I) (h : I s) (circuitId : CircuitId)
    (reason : Reason) : I (s.closeCircuit circuitId reason) := by
  cases hc : s.activeCircuits.get? circuitId with
  | none => rwa [closeCircuit_of_none hc]
  | some circuit => exact hI.close h hc (closed_closeCircuit hc)

theorem Invariant.closeWhere (hI : Invariant cfg ok I) (h : I s) (test : Circuit → Bool)
    (reason : Reason) : I (s.closeWhere test reason) :=
  closeWhere_invariant I (fun _ circuitId _ h' _ => hI.closeCircuit h' circuitId reason) test h

theorem Invariant.onReserve (hI : Invariant cfg ok I) (h : I s) {channel : Channel}
    (hchannel : s.Known channel) {msg : ReserveMsg} {now : ℕ}
    (hok : s.Grants cfg channel msg now → ok s ⟨false, msg.peerPubkey, granted cfg channel msg now, now,
      (s.pendingConnects.get? msg.peerPubkey).getD []⟩) :
    I (s.onReserve cfg channel msg now) := by
  rcases onReserve_cases cfg s channel now msg with ⟨-, hq⟩ | ⟨hgrants, s₁, hq, hclaim, heq⟩
  · exact hI.quiet h hchannel hq
  · rw [heq]
    exact hI.grant msg now h hchannel (hok hgrants) hq hclaim

theorem Invariant.onConnect (hI : Invariant cfg ok I) (h : I s) {channel : Channel}
    (hchannel : s.Known channel) {msg : ConnectMsg} {now : ℕ}
    (hok : ∀ target source res, msg = ⟨some target, some source, none⟩ →
      s.reaches cfg channel target source now = some res →
      ok s ⟨true, target, res, now, [⟨channel, source, now⟩]⟩) :
    I (s.onConnect cfg channel msg now) := by
  obtain ⟨target?, source?, error⟩ := msg
  unfold State.onConnect
  split
  · next target source herror htarget hsource =>
    subst herror htarget hsource
    rcases onConnectTo_cases cfg s channel now target source with ⟨-, hq⟩ |
      ⟨res, hreaches, hres, hkey, hcount, heq⟩
    · exact hI.quiet h hchannel hq
    · rw [heq]
      exact hI.join now h hchannel hres hkey hcount (hok target source res rfl hreaches)
  · exact hI.quiet h hchannel (Quiet.refl.status ..)

theorem Invariant.onCircuitData (hI : Invariant cfg ok I) (h : I s) {channel : Channel}
    (msg : DataMsg) (throws : Bool) (now : ℕ) : I (s.onCircuitData cfg channel msg throws now) := by
  unfold State.onCircuitData
  split
  · next circuitId data _ _ _ =>
    have hrecorded := Relay.recorded_recordCircuitBytes cfg.relay s.relay circuitId data.length now
    rcases onCircuitFrame_cases cfg s channel now circuitId data throws with heq | ⟨circuit, hc, -, hf⟩
    · rwa [heq]
    · generalize s.onCircuitFrame cfg channel circuitId data throws now = s' at hf ⊢
      cases hf with
      | dropped =>
        exact hI.closeCircuit (hI.touch h hc (by rfl) (by simp) (Relay.recorded_self _ _ 0)) ..
      | refused window hok | lost window reason hok =>
        exact hI.closeCircuit (hI.touch h hc (by rfl) (by simp) (hok ▸ hrecorded)) ..
      | forwarded window hok =>
        exact hI.send _ _ _ (hI.touch h hc (by rfl) (by simp) (hok ▸ hrecorded))
  · exact hI.closeCircuit h ..
  · exact h

theorem shrunk_expire (now : ℕ) : Shrunk s (s.expire cfg now) where
  relay := rfl
  activeCircuits := rfl
  announced := rfl
  sent := rfl
  claims := rfl
  reservations := OrderedMap.forall_filter fun _ _ => id
  pending := by
    intro key reqs hreqs
    rw [expire, OrderedMap.get?_filter, OrderedMap.get?_mapValues] at hreqs
    obtain ⟨old, hold, rfl⟩ := Option.map_eq_some_iff.mp (Option.filter_eq_some_iff.mp hreqs).1
    exact ⟨old, hold, fun req hreq => (List.mem_filter.mp hreq).1⟩
  known _ hc := hc
  closed _ hc := hc

theorem shrunk_channelClose (channel : Channel) (stillOpened : Bool) : Shrunk s
    { s with
      closed := channel :: s.closed
      opened := if stillOpened then s.opened else s.opened.filter (· ≠ channel)
      reservations := s.reservations.filter fun _ res => res.channel ≠ channel } where
  relay := rfl
  activeCircuits := rfl
  announced := rfl
  sent := rfl
  claims := rfl
  reservations := OrderedMap.forall_filter fun _ _ => id
  pending _ reqs hreqs := ⟨reqs, hreqs, fun _ => id⟩
  known c hc := by
    rcases hc with hc | hc
    · by_cases heq : c = channel
      · exact Or.inr (heq ▸ List.mem_cons_self)
      · cases stillOpened
        · exact Or.inl (List.mem_filter.mpr ⟨hc, by simpa using heq⟩)
        · exact Or.inl hc
    · exact Or.inr (List.mem_cons_of_mem _ hc)
  closed c hc := List.mem_cons_of_mem _ hc

/-- **An invariant of the parts is an invariant of the events.** -/
theorem Invariant.step (hI : Invariant cfg ok I) (h : I s) {e : Event}
    (hok : ∀ b ∈ bridging cfg s e, ok s b) (hstep : step cfg s e = some s') : I s' := by
  cases e with
  | opens c =>
    rw [Circuits.step] at hstep
    split at hstep
    · cases hstep
    · cases hstep
      exact hI.shrink h ⟨rfl, rfl, rfl, rfl, rfl, fun _ _ => id, fun _ reqs hreqs => ⟨reqs, hreqs, fun _ => id⟩,
        fun _ hc => hc.imp_left (List.mem_cons_of_mem _), fun _ hc => hc⟩
  | message c frame now =>
    rw [Circuits.step] at hstep
    split at hstep
    · next hopen =>
      cases hstep
      have hchannel : s.Known c := Or.inl hopen.1
      cases frame with
      | reserve body =>
        rw [State.onMessage]
        split
        · exact h
        · next msg hmsg =>
          exact hI.onReserve h hchannel fun hgrants => hok _ (by simp [bridging, hmsg, hgrants])
      | connect body =>
        refine hI.onConnect h hchannel fun target source res hmsg hreaches => hok _ ?_
        simp [bridging, hmsg, hreaches]
      | data body throws => exact hI.onCircuitData h _ throws now
      | other => exact h
    · cases hstep
  | channelClose c stillOpened =>
    cases hstep
    exact hI.closeWhere (hI.shrink h (shrunk_channelClose c stillOpened)) _ _
  | cleanupExpired now =>
    cases hstep
    exact hI.closeWhere (hI.shrink h (shrunk_expire now)) _ _
  | timer t =>
    rw [Circuits.step] at hstep
    split at hstep
    · next hmem =>
      cases hstep
      exact hI.timer t h hmem
    · cases hstep
  | destroy =>
    cases hstep
    refine hI.shrink (hI.closeWhere h (fun _ => true) .shutdown)
      ⟨rfl, rfl, rfl, rfl, rfl, ?_, ?_, fun _ => id, fun _ hc => hc⟩
    · simp [State.destroy]
    · simp [State.destroy]

end Invariant

end State

end HiveRelay.Circuits
