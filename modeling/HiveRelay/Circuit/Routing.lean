import HiveRelay.Circuit.Handling

/-!
# Where frames go

A frame is sent on to the channel the entry of its id names as the other end. The invariant of the
runs is about the history: each end of an entry that is still open was last told `READY` for its id
with a key the other end has claimed, and claims are checked against the key the stream has
authenticated. So what an end sends goes to the peer it was told of.

That an announced circuit keeps its entry is not an invariant: the id is the first sixteen bytes of
the *source's* key, so a second circuit of a source, or one of a source whose key begins the same,
takes the entry of the first. It holds in the runs that announce a circuit only under an id that has
none.

## Main definitions

* `Routed` — the ends of an entry know each other
* `Kept` — announced circuits have their entries

## Main results

* `forwarded` — where a frame goes
* `run_routes` — it goes to the peer that was announced
-/

namespace HiveRelay.Circuits

open List Option OrderedMap

/-! ## What a channel was told -/

/-- The key a message announces to a channel for an id. -/
def readyFor (channel : Channel) (circuitId : CircuitId) : Channel × Wire → Option Pubkey
  | (receiver, .ready id key) => if receiver = channel ∧ id = circuitId then some key else none
  | _ => none

/-- The key the last `READY` announced to a channel for an id. -/
def lastReady (sent : List (Channel × Wire)) (channel : Channel) (circuitId : CircuitId) :
    Option Pubkey :=
  (sent.filterMap (readyFor channel circuitId)).getLast?

section LastReady

variable {sent out : List (Channel × Wire)} {channel : Channel} {circuitId : CircuitId}

theorem lastReady_concat (m : Channel × Wire) : lastReady (sent ++ [m]) channel circuitId =
    (readyFor channel circuitId m).or (lastReady sent channel circuitId) := by
  unfold lastReady
  cases hm : readyFor channel circuitId m <;> simp [hm]

theorem lastReady_append (h : ∀ m ∈ out, readyFor channel circuitId m = none) :
    lastReady (sent ++ out) channel circuitId = lastReady sent channel circuitId := by
  have hnone : out.filterMap (readyFor channel circuitId) = [] := filterMap_eq_nil_iff.mpr h
  simp [lastReady, hnone]

theorem lastReady_of_sends {s s' : State} (h : s.Sends (fun m => readyFor channel circuitId m = none) s') :
    lastReady s'.sent channel circuitId = lastReady s.sent channel circuitId := by
  obtain ⟨out, hout, hall⟩ := h
  rw [hout]
  exact lastReady_append hall

end LastReady

/-! ## The invariant -/

/-- The channel is known, and has claimed the key. -/
def Holds (s : State) (channel : Channel) (key : Pubkey) : Prop :=
  s.Known channel ∧ (channel, key) ∈ s.claims

/-- An end of a circuit that is open was last told, for the circuit's id, a key the other end has
claimed. -/
def Told (s : State) (circuitId : CircuitId) (b : Bridge) : Prop :=
  ∀ channel, b.HasEnd channel → channel ∉ s.closed → ∃ key,
    lastReady s.sent channel circuitId = some key ∧ (b.otherEnd channel, key) ∈ s.claims

/-- Claims are checked, reservations and requests are made under them, and the ends of every circuit
know each other. -/
structure Routed (cfg : Config) (s : State) : Prop where
  claims : ∀ p ∈ s.claims, State.mismatch cfg p.1 p.2 = false
  reservations : ∀ key res, s.reservations.get? key = some res → Holds s res.channel key
  pending : ∀ key reqs, s.pendingConnects.get? key = some reqs → ∀ req ∈ reqs,
    Holds s req.sourceChannel req.sourcePubkey
  told : ∀ circuitId circuit, s.activeCircuits.get? circuitId = some circuit → Told s circuitId circuit.toBridge

/-- What is known and claimed in `s` is in `s'`, and what is closed stays closed. -/
structure Later (s s' : State) : Prop where
  known : ∀ channel, s.Known channel → s'.Known channel
  closed : ∀ channel ∈ s.closed, channel ∈ s'.closed
  claims : ∀ p ∈ s.claims, p ∈ s'.claims

section Later

variable {s s' : State} {channel : Channel} {key : Pubkey} {circuitId : CircuitId} {b : Bridge}

theorem Later.of_eq (hopened : s'.opened = s.opened) (hclosed : s'.closed = s.closed)
    (hclaims : ∀ p ∈ s.claims, p ∈ s'.claims) : Later s s' :=
  ⟨fun c hc => by simpa only [State.Known, hopened, hclosed] using hc, by simp [hclosed], hclaims⟩

theorem Later.trans {s₁ : State} (h₁ : Later s s₁) (h₂ : Later s₁ s') : Later s s' :=
  ⟨fun c hc => h₂.known c (h₁.known c hc), fun c hc => h₂.closed c (h₁.closed c hc),
    fun p hp => h₂.claims p (h₁.claims p hp)⟩

theorem Holds.later (h : Holds s channel key) (hl : Later s s') : Holds s' channel key :=
  ⟨hl.known channel h.1, hl.claims _ h.2⟩

theorem Told.later (h : Told s circuitId b) (hl : Later s s')
    (hsent : ∀ channel, s.Sends (fun m => readyFor channel circuitId m = none) s') :
    Told s' circuitId b := by
  intro channel hend hopen
  obtain ⟨key, hkey, hmem⟩ := h channel hend fun hc => hopen (hl.closed channel hc)
  exact ⟨key, (lastReady_of_sends (hsent channel)).trans hkey, hl.claims _ hmem⟩

end Later

variable {circuitId : CircuitId} {circuit : Circuit} {req : Pending}

section Steps

variable {cfg : Config} {s s' : State} {channel : Channel}

theorem Routed.init : Routed cfg State.init := by
  constructor <;> simp [State.init]

theorem Routed.quiet (h : Routed cfg s) (hq : State.Quiet cfg channel s s')
    (hchannel : s.Known channel) : Routed cfg s' := by
  have hl : Later s s' := .of_eq hq.opened hq.closed hq.kept
  refine ⟨fun p hp => ?_, fun key res hres => ?_, fun key reqs hreqs req hreq => ?_, fun circuitId circuit hc => ?_⟩
  · exact (hq.claimed p hp).elim (h.claims p) id
  · rw [hq.reservations] at hres
    exact (h.reservations key res hres).later hl
  · rcases hq.queued key reqs hreqs req hreq with ⟨old, hold, hmem⟩ | ⟨rfl, hclaim⟩
    · exact (h.pending key old hold req hmem).later hl
    · exact ⟨hl.known _ hchannel, hclaim⟩
  · rw [hq.activeCircuits] at hc
    refine (h.told circuitId circuit hc).later hl fun receiver => hq.sent.mono ?_
    rintro ⟨_, _⟩ ⟨code, text, rfl⟩
    rfl

theorem Routed.close (h : Routed cfg s) (hc : State.Closed s circuitId circuit s') : Routed cfg s' := by
  have hl : Later s s' := .of_eq hc.opened hc.closed fun p hp => by rwa [hc.claims]
  refine ⟨by rw [hc.claims]; exact h.claims, fun key res hres => ?_, ?_, fun id c hget => ?_⟩
  · rw [hc.reservations] at hres
    split at hres
    · obtain ⟨old, hold, rfl⟩ := map_eq_some_iff.mp hres
      exact (h.reservations key old hold).later hl
    · exact (h.reservations key res hres).later hl
  · rw [hc.pendingConnects]
    exact fun key reqs hreqs req hreq => (h.pending key reqs hreqs req hreq).later hl
  · rw [hc.activeCircuits, get?_delete] at hget
    split at hget
    · cases hget
    · refine (h.told id c hget).later hl fun receiver => hc.sent.mono ?_
      rintro ⟨_, _⟩ ⟨_, code, rfl⟩
      rfl

theorem Routed.touch (h : Routed cfg s) {circuit' : Circuit}
    (hc : s.activeCircuits.get? circuitId = some circuit) (hb : circuit'.toBridge = circuit.toBridge)
    (relay : Relay) : Routed cfg (s.touch relay circuitId circuit') :=
  { h with
    told := by
      intro id c hget
      rw [State.touch, get?_set] at hget
      split at hget
      · next heq =>
        cases hget
        rw [hb, heq]
        exact h.told circuitId circuit hc
      · exact h.told id c hget }

theorem Routed.send (h : Routed cfg s) {message : Wire}
    (hm : ∀ receiver circuitId, readyFor receiver circuitId (channel, message) = none) :
    Routed cfg (s.send channel message) := by
  have hl : Later s (s.send channel message) := .of_eq (by simp) (by simp) (by simp)
  refine ⟨by simpa using h.claims, ?_, ?_, ?_⟩
  · rw [State.send_reservations]
    exact fun key res hres => (h.reservations key res hres).later hl
  · rw [State.send_pendingConnects]
    exact fun key reqs hreqs req hreq => (h.pending key reqs hreqs req hreq).later hl
  · rw [State.send_activeCircuits]
    exact fun id c hget => (h.told id c hget).later hl fun receiver =>
      State.Sends.send (.of_eq rfl) (hm receiver id)

variable {b : Bridging}

/-- The ends of a circuit that is announced know each other: the destination is told last, so a
channel that is both ends was last told the source's key. -/
theorem told_enter {serial : ℕ} (hsource : Holds s req.sourceChannel req.sourcePubkey)
    (hdest : Holds s b.reservation.channel b.destPubkey) :
    Told (b.enter cfg s req) (b.idOf req) (b.circuit cfg serial req).toBridge := by
  have hclosed : (b.enter cfg s req).closed = s.closed := by simp [Bridging.enter]
  have hclaims : (b.enter cfg s req).claims = s.claims := by simp [Bridging.enter]
  have hsent : (b.enter cfg s req).sent = s.sent ++
      (if req.sourceChannel ∈ s.opened ∧ req.sourceChannel ∉ s.closed then
        [(req.sourceChannel, Wire.ready (b.idOf req) b.destPubkey)] else []) ++
      (if b.reservation.channel ∈ s.opened ∧ b.reservation.channel ∉ s.closed then
        [(b.reservation.channel, Wire.ready (b.idOf req) req.sourcePubkey)] else []) := by
    simp [Bridging.enter, State.announce, State.send_sent, Bridging.circuit, State.newCircuit]
  intro channel hend hopen
  rw [hclosed] at hopen
  rw [hsent, hclaims]
  change channel = req.sourceChannel ∨ channel = b.reservation.channel at hend
  change ∃ key, _ ∧ (if channel = req.sourceChannel then b.reservation.channel
    else req.sourceChannel, key) ∈ s.claims
  by_cases hchannel : channel = b.reservation.channel
  · subst hchannel
    have hopened : b.reservation.channel ∈ s.opened ∧ b.reservation.channel ∉ s.closed :=
      ⟨hdest.1.resolve_right hopen, hopen⟩
    rw [if_pos hopened, lastReady_concat]
    refine ⟨req.sourcePubkey, by simp [readyFor], ?_⟩
    split
    · next heq => exact heq ▸ hsource.2
    · exact hsource.2
  · obtain rfl := hend.resolve_right hchannel
    have hopened : req.sourceChannel ∈ s.opened ∧ req.sourceChannel ∉ s.closed :=
      ⟨hsource.1.resolve_right hopen, hopen⟩
    rw [lastReady_append, if_pos hopened, lastReady_concat]
    · exact ⟨b.destPubkey, by simp [readyFor], by simpa using hdest.2⟩
    · intro m hm
      split at hm
      · obtain rfl := mem_singleton.mp hm
        simp [readyFor, Ne.symm hchannel]
      · cases hm

/-- **A circuit that is announced.** Each end is told a key that the other end has claimed, whatever
the id had before. -/
theorem Routed.enter (h : Routed cfg s) (hsource : Holds s req.sourceChannel req.sourcePubkey)
    (hdest : Holds s b.reservation.channel b.destPubkey) : Routed cfg (b.enter cfg s req) := by
  have hl : Later s (b.enter cfg s req) :=
    .of_eq (by simp [Bridging.enter]) (by simp [Bridging.enter]) (by simp [Bridging.enter])
  have hsent : ∀ receiver id, id ≠ b.idOf req →
      s.Sends (fun m => readyFor receiver id m = none) (b.enter cfg s req) := fun receiver id hne =>
    State.Sends.send (State.Sends.send (.of_eq rfl) (by simp [readyFor, hne.symm])) (by simp [readyFor, hne.symm])
  refine ⟨by simpa [Bridging.enter] using h.claims, ?_, ?_, ?_⟩
  · intro key res hres
    refine (h.reservations key res ?_).later hl
    simpa [Bridging.enter] using hres
  · intro key reqs hreqs req hreq
    refine (h.pending key reqs ?_ req hreq).later hl
    simpa [Bridging.enter] using hreqs
  · intro id c hget
    rw [Bridging.enter, announce_activeCircuits, get?_set] at hget
    split at hget
    · next heq =>
      cases hget
      rw [heq]
      exact told_enter hsource hdest
    · next hne => exact (h.told id c hget).later hl fun receiver => hsent receiver id hne

theorem Routed.reserve (h : Routed cfg s) {peer : Pubkey} {res : Reservation}
    (hholds : Holds s res.channel peer) : Routed cfg (s.reserve peer res) :=
  { h with
    reservations :=
      forall_set (P := fun key (r : Reservation) => Holds s r.channel key) h.reservations
        hholds }

/-- **Requests of peers that are known, bridged one after the other.** -/
theorem Routed.bridgeAll (h : Routed cfg s) (reqs : List Pending) (hdest : Holds s b.reservation.channel b.destPubkey)
    (hreqs : ∀ req ∈ reqs, Holds s req.sourceChannel req.sourcePubkey) :
    Routed cfg (b.bridgeAll cfg s reqs) ∧ Later s (b.bridgeAll cfg s reqs) := by
  refine (bridgeAll_invariant (fun s' reqs => (Routed cfg s' ∧ Later s s') ∧
    ∀ req ∈ reqs, Holds s req.sourceChannel req.sourcePubkey) ?_ ?_ ⟨⟨h, .of_eq rfl rfl fun _ hp => hp⟩, hreqs⟩).1
  · rintro s' req rest ⟨⟨h', hl⟩, hreqs⟩ -
    refine ⟨⟨h'.send fun _ _ => rfl, ?_⟩, fun r hr => hreqs r (mem_cons_of_mem _ hr)⟩
    exact hl.trans (.of_eq (by simp [Bridging.refuse]) (by simp [Bridging.refuse]) (by simp [Bridging.refuse]))
  · rintro s' req rest ⟨⟨h', hl⟩, hreqs⟩ -
    have hsource := (hreqs req mem_cons_self).later hl
    refine ⟨⟨h'.enter hsource (hdest.later hl), ?_⟩, fun r hr => hreqs r (mem_cons_of_mem _ hr)⟩
    exact hl.trans (.of_eq (by simp [Bridging.enter]) (by simp [Bridging.enter]) (by simp [Bridging.enter]))

theorem Routed.grant (h : Routed cfg s) {s₁ : State} (msg : ReserveMsg) (now : ℕ)
    (hchannel : s.Known channel) (hq : State.Quiet cfg channel s s₁)
    (hclaim : (channel, msg.peerPubkey) ∈ s₁.claims) :
    Routed cfg (s₁.grant cfg channel msg now ((s.pendingConnects.get? msg.peerPubkey).getD [])) := by
  have hl : Later s s₁ := .of_eq hq.opened hq.closed hq.kept
  have h₁ := h.quiet hq hchannel
  have hholds : Holds s₁ channel msg.peerPubkey := ⟨hl.known _ hchannel, hclaim⟩
  have h₂ : Routed cfg (s₁.reserve msg.peerPubkey (State.granted cfg channel msg now)) :=
    h₁.reserve hholds
  have hreqs : ∀ req ∈ (s.pendingConnects.get? msg.peerPubkey).getD [],
      Holds s₁ req.sourceChannel req.sourcePubkey := by
    cases hp : s.pendingConnects.get? msg.peerPubkey with
    | none => simp
    | some reqs => exact fun req hreq => (h.pending _ reqs hp req hreq).later hl
  have hall := h₂.bridgeAll (b := ⟨false, msg.peerPubkey, State.granted cfg channel msg now, now,
      (s.pendingConnects.get? msg.peerPubkey).getD []⟩) _ hholds hreqs
  exact { hall.1 with pending := forall_delete hall.1.pending }

theorem Routed.join (h : Routed cfg s) {target source : Pubkey} {res : Reservation} (now : ℕ)
    (hchannel : s.Known channel) (hres : s.reservations.get? target = some res)
    (hkey : State.mismatch cfg channel source = false) :
    Routed cfg ((s.claim channel source).join cfg ⟨true, target, res, now, [⟨channel, source, now⟩]⟩) := by
  have hq : State.Quiet cfg channel s (s.claim channel source) := State.Quiet.refl.claim hkey
  have hl : Later s (s.claim channel source) := .of_eq hq.opened hq.closed hq.kept
  have hdest := (h.reservations target res hres).later hl
  have hall := (h.quiet hq hchannel).bridgeAll (b := ⟨true, target, res, now, [⟨channel, source, now⟩]⟩)
    [⟨channel, source, now⟩] hdest
    (by simpa using ⟨hl.known _ hchannel, mem_cons_self⟩)
  exact hall.1.reserve (hdest.later hall.2)

theorem Routed.shrink (h : Routed cfg s) (hs : State.Shrunk s s') : Routed cfg s' := by
  have hl : Later s s' := ⟨hs.known, hs.closed, by rw [hs.claims]; exact fun _ => id⟩
  refine ⟨by rw [hs.claims]; exact h.claims, fun key res hres => ?_, fun key reqs hreqs req hreq => ?_,
    fun id c hc => ?_⟩
  · exact (h.reservations key res (hs.reservations key res hres)).later hl
  · obtain ⟨old, hold, hmem⟩ := hs.pending key reqs hreqs
    exact (h.pending key old hold req (hmem req hreq)).later hl
  · rw [hs.activeCircuits] at hc
    exact (h.told id c hc).later hl fun _ => .of_eq hs.sent

/-- **Ends know each other in every state a relay gets to.** -/
theorem Routed.invariant : State.Invariant cfg (fun _ _ => True) (Routed cfg) where
  quiet h hchannel hq := h.quiet hq hchannel
  close h _ hc := h.close hc
  touch h hc hb _ _ := h.touch hc hb _
  send _ _ _ h := h.send fun _ _ => rfl
  grant msg now h hchannel _ hq hclaim := h.grant msg now hchannel hq hclaim
  join now h hchannel hres hkey _ _ := h.join now hchannel hres hkey
  shrink h hs := h.shrink hs
  timer _ h _ := { h with }

end Steps

/-! ## Entries that are kept -/

/-- Every circuit that was announced and not closed has its own entry. -/
def Kept (s : State) : Prop :=
  ∀ circuitId b, (circuitId, b) ∈ s.announced → ∃ circuit,
    s.activeCircuits.get? circuitId = some circuit ∧ circuit.toBridge = b

/-- What is announced comes under ids that have no circuit, and no two of it under one id. -/
def Fresh (cfg : Config) (s : State) (b : Bridging) : Prop :=
  ((b.admitted cfg s.relay b.requests).map b.idOf).Nodup ∧
    ∀ req ∈ b.admitted cfg s.relay b.requests, s.activeCircuits.has (b.idOf req) = false
  deriving Decidable

section Kept

variable {cfg : Config} {s s' : State}

theorem Kept.of_eq (h : Kept s) (hactive : s'.activeCircuits = s.activeCircuits)
    (hannounced : s'.announced = s.announced) : Kept s' := by
  simpa only [Kept, hactive, hannounced] using h

theorem Kept.close (h : Kept s) (hget : s.activeCircuits.get? circuitId = some circuit)
    (hc : State.Closed s circuitId circuit s') : Kept s' := by
  intro id b hmem
  rw [hc.announced, mem_filter] at hmem
  obtain ⟨hmem, hne⟩ := hmem
  obtain ⟨c, hc', rfl⟩ := h id b hmem
  refine ⟨c, ?_, rfl⟩
  rw [hc.activeCircuits, get?_delete_of_ne, hc']
  rintro rfl
  rw [hget] at hc'
  cases hc'
  simp at hne

theorem Kept.touch (h : Kept s) {circuit' : Circuit} (hget : s.activeCircuits.get? circuitId = some circuit)
    (hb : circuit'.toBridge = circuit.toBridge) (relay : Relay) :
    Kept (s.touch relay circuitId circuit') := by
  intro id b hmem
  obtain ⟨c, hc, rfl⟩ := h id b hmem
  rw [State.touch, get?_set]
  split
  · next heq =>
    rw [heq, hget] at hc
    cases hc
    exact ⟨circuit', rfl, hb⟩
  · exact ⟨c, hc, rfl⟩

/-- **A circuit under an id that has none** takes no entry away. -/
theorem Kept.enter (h : Kept s) {b : Bridging}
    (hfresh : s.activeCircuits.get? (b.idOf req) = none) : Kept (b.enter cfg s req) := by
  intro id bridge hmem
  simp only [Bridging.enter, announce_announced, announce_activeCircuits] at hmem ⊢
  rcases mem_append.mp hmem with hmem | hmem
  · obtain ⟨c, hc, rfl⟩ := h id bridge hmem
    refine ⟨c, (get?_set_of_ne ?_).trans hc, rfl⟩
    rintro rfl
    rw [hfresh] at hc
    cases hc
  · obtain ⟨rfl, rfl⟩ := Prod.mk.inj (mem_singleton.mp hmem)
    exact ⟨_, get?_set_self, rfl⟩

/-- **Requests under fresh ids**, bridged one after the other. -/
theorem Kept.bridgeAll (h : Kept s) {b : Bridging} {reqs : List Pending}
    (hnodup : ((b.admitted cfg s.relay reqs).map b.idOf).Nodup)
    (hfresh : ∀ req ∈ b.admitted cfg s.relay reqs, s.activeCircuits.get? (b.idOf req) = none) :
    Kept (b.bridgeAll cfg s reqs) := by
  refine (bridgeAll_invariant (fun s' reqs => Kept s' ∧ ((b.admitted cfg s'.relay reqs).map b.idOf).Nodup ∧
      ∀ req ∈ b.admitted cfg s'.relay reqs, s'.activeCircuits.get? (b.idOf req) = none) ?_ ?_ ⟨h, hnodup, hfresh⟩).1
  · rintro s' req rest ⟨h', hnodup, hfresh⟩ hrefused
    rw [Bridging.admitted_of_refused hrefused] at hnodup hfresh
    exact ⟨h'.of_eq (by simp [Bridging.refuse]) (by simp [Bridging.refuse]),
      by simpa [Bridging.refuse] using hnodup, by simpa [Bridging.refuse] using hfresh⟩
  · rintro s' req rest ⟨h', hnodup, hfresh⟩ haccepted
    rw [Bridging.admitted_of_accepted haccepted] at hnodup hfresh
    obtain ⟨hnotMem, hnodup⟩ := nodup_cons.mp (map_cons ▸ hnodup)
    refine ⟨h'.enter (hfresh req mem_cons_self), hnodup, fun r hr => ?_⟩
    rw [Bridging.enter, announce_activeCircuits, get?_set_of_ne]
    · exact hfresh r (mem_cons_of_mem _ hr)
    · exact fun heq => hnotMem (mem_map.mpr ⟨r, hr, heq⟩)

/-- **Announced circuits keep their entries** when circuits are announced under fresh ids only. -/
theorem Kept.invariant : State.Invariant cfg (Fresh cfg) Kept where
  quiet h _ hq := h.of_eq hq.activeCircuits hq.announced
  close h hget hc := h.close hget hc
  touch h hget hb _ _ := h.touch hget hb _
  send _ _ _ h := h.of_eq (by simp) (by simp)
  grant {s s₁ channel} msg now h _ hok hq _ := by
    have h₁ : Kept s₁ := h.of_eq hq.activeCircuits hq.announced
    let s₂ := s₁.reserve msg.peerPubkey (State.granted cfg channel msg now)
    have h₂ : Kept s₂ := h₁.of_eq rfl rfl
    have hrelay : s₂.relay = s.relay := hq.relay
    have hactive : s₂.activeCircuits = s.activeCircuits := hq.activeCircuits
    refine (h₂.bridgeAll (by rw [hrelay]; exact hok.1) fun req hreq => ?_).of_eq rfl rfl
    rw [hrelay] at hreq
    rw [hactive]
    exact has_eq_false_iff.mp (hok.2 req hreq)
  join {s channel target source res} now h _ _ _ _ hok := by
    have hclaim : Kept (s.claim channel source) := h.of_eq rfl rfl
    exact (hclaim.bridgeAll hok.1 fun req hreq =>
      has_eq_false_iff.mp (hok.2 req hreq)).of_eq rfl rfl
  shrink h hs := h.of_eq hs.activeCircuits hs.announced
  timer _ h _ := h.of_eq rfl rfl

end Kept

/-! ## Frames that are sent on -/

/-- The message is not a `DATA` frame. -/
def NoData (m : Channel × Wire) : Prop := ∀ circuitId data, m.2 ≠ .data circuitId data

section Forward

variable {cfg : Config} {s s' : State} {channel : Channel}

theorem sends_quiet (hq : State.Quiet cfg channel s s') : s.Sends NoData s' :=
  hq.sent.mono fun m hm id data => by
    obtain ⟨code, text, htext⟩ := hm
    simp [htext]

theorem sends_close (circuitId : CircuitId) (reason : Reason) : s.Sends NoData (s.closeCircuit circuitId reason) := by
  cases hc : s.activeCircuits.get? circuitId with
  | none =>
    rw [State.closeCircuit_of_none hc]
    exact .of_eq rfl
  | some circuit =>
    refine (State.closed_closeCircuit hc).sent.mono fun m hm id data => ?_
    obtain ⟨-, code, hcode⟩ := hm
    simp [hcode]

theorem sends_closeWhere (test : Circuit → Bool) (reason : Reason) : s.Sends NoData (s.closeWhere test reason) :=
  State.closeWhere_invariant (s.Sends NoData) (fun _ circuitId _ h _ =>
    h.trans (sends_close circuitId reason)) test (.of_eq rfl)

theorem sends_bridgeAll (b : Bridging) (reqs : List Pending) : s.Sends NoData (b.bridgeAll cfg s reqs) := by
  refine bridgeAll_invariant (fun s' _ => s.Sends NoData s') ?_ ?_ (.of_eq rfl)
  · exact fun s' req rest h _ => h.send (by simp [NoData])
  · intro s' req rest h _
    have hs' : s.Sends NoData
        { s' with
          relay := s'.relay.register cfg.relay (b.idOf req) req.sourcePubkey
            (b.circuit cfg s'.relay.totalCircuitsServed req).maxBytes b.now
          activeCircuits := s'.activeCircuits.set (b.idOf req)
            (b.circuit cfg s'.relay.totalCircuitsServed req)
          announced := s'.announced ++
            [(b.idOf req, (b.circuit cfg s'.relay.totalCircuitsServed req).toBridge)] } :=
      h.trans (.of_eq rfl)
    exact State.Sends.send (State.Sends.send hs' (by simp [NoData])) (by simp [NoData])

theorem sends_onMessage (frame : Frame) (now : ℕ) (hframe : ∀ body throws, frame ≠ .data body throws) :
    s.Sends NoData (s.onMessage cfg channel frame now) := by
  cases frame with
  | reserve body =>
    rw [State.onMessage]
    split
    · exact .of_eq rfl
    · next msg _ =>
      rcases State.onReserve_cases cfg s channel now msg with ⟨-, hq⟩ | ⟨-, s₁, hq, -, heq⟩
      · exact sends_quiet hq
      · rw [heq]
        exact (sends_quiet hq).trans (((sends_bridgeAll _ _).trans (.of_eq rfl)).from_eq rfl)
  | connect body =>
    change s.Sends NoData (s.onConnect cfg channel (decodeCircuitConnect body) now)
    unfold State.onConnect
    split
    · next target source _ _ _ =>
      rcases State.onConnectTo_cases cfg s channel now target source with
        ⟨-, hq⟩ | ⟨res, -, -, -, -, heq⟩
      · exact sends_quiet hq
      · rw [heq]
        exact ((sends_bridgeAll _ _).trans (.of_eq rfl)).from_eq rfl
    · exact .send (.of_eq rfl) (by simp [NoData])
  | data body throws => exact absurd rfl (hframe body throws)
  | other => exact .of_eq rfl

theorem forwarded_onCircuitData (msg : DataMsg) (throws : Bool) {now : ℕ} {other : Channel} {data : Bytes}
    (hmem : (other, Wire.data circuitId data) ∈
      (s.onCircuitData cfg channel msg throws now).sent.drop s.sent.length) :
    ∃ circuit, msg = ⟨some circuitId, some data, none⟩ ∧
      s.activeCircuits.get? circuitId = some circuit ∧ circuit.HasEnd channel ∧ other = circuit.otherEnd channel := by
  have hno : ¬s.Sends NoData (s.onCircuitData cfg channel msg throws now) :=
    fun h => h.of_mem_drop hmem circuitId data rfl
  obtain ⟨id?, data?, error⟩ := msg
  unfold State.onCircuitData at hno hmem
  split at hno
  · next id bytes herror hid hdata =>
    subst herror hid hdata
    dsimp only at hmem
    rcases State.onCircuitFrame_cases cfg s channel now id bytes throws with
      heq | ⟨circuit, hget, hend, hframed⟩
    · exact absurd (.of_eq (by rw [heq])) hno
    · generalize s.onCircuitFrame cfg channel id bytes throws now = s' at hframed hno hmem
      cases hframed with
      | dropped | refused | lost => exact absurd ((sends_close _ _).from_eq (by rfl)) hno
      | forwarded window hok =>
        have hsent := State.Sends.of_mem_drop (P := (· = (circuit.otherEnd channel, .data id bytes)))
          (.send (.of_eq (by rfl)) rfl) hmem
        obtain ⟨rfl, heq⟩ := Prod.mk.inj hsent
        obtain ⟨rfl, rfl⟩ := Wire.data.inj heq
        exact ⟨circuit, rfl, hget, hend, rfl⟩
  · exact absurd (sends_close _ _) hno
  · exact absurd (.of_eq rfl) hno

/-- **A frame is sent on by the entry of its id**, to the other end of the channel it came on. -/
theorem forwarded {e : Event} (hstep : step cfg s e = some s') {other : Channel} {data : Bytes}
    (hmem : (other, Wire.data circuitId data) ∈ s'.sent.drop s.sent.length) :
    ∃ channel body throws now circuit, e = .message channel (.data body throws) now ∧ channel ∉ s.closed ∧
      decodeCircuitData cfg.uint body = ⟨some circuitId, some data, none⟩ ∧
      s.activeCircuits.get? circuitId = some circuit ∧ circuit.HasEnd channel ∧ other = circuit.otherEnd channel := by
  have hno : ¬s.Sends NoData s' := fun h => h.of_mem_drop hmem circuitId data rfl
  cases e with
  | opens c =>
    rw [step] at hstep
    split at hstep
    · cases hstep
    · cases hstep
      exact absurd (.of_eq rfl) hno
  | message c frame now =>
    rw [step] at hstep
    split at hstep
    · next hopen =>
      cases hstep
      by_cases hframe : ∃ body throws, frame = .data body throws
      · obtain ⟨body, throws, rfl⟩ := hframe
        obtain ⟨circuit, hdecode, hget, hend, hother⟩ := forwarded_onCircuitData _ throws hmem
        exact ⟨c, body, throws, now, circuit, rfl, hopen.2, hdecode, hget, hend, hother⟩
      · exact absurd (sends_onMessage frame now fun body throws h => hframe ⟨body, throws, h⟩) hno
    · cases hstep
  | channelClose c stillOpened | cleanupExpired now =>
    cases hstep
    exact absurd ((sends_closeWhere _ _).from_eq rfl) hno
  | timer t =>
    rw [step] at hstep
    split at hstep
    · cases hstep
      exact absurd (.of_eq rfl) hno
    · cases hstep
  | destroy =>
    cases hstep
    exact absurd ((sends_closeWhere (fun _ => true) .shutdown).trans (.of_eq rfl)) hno

end Forward

/-! ## Runs -/

/-- **Frames go to the peer that was announced.** In every run, a frame that is sent on came from an
end that was last told, for the frame's id, a key that the receiving channel has claimed and that its
stream has not contradicted. In the runs that announce circuits only under ids that have none, every
circuit that was announced and not closed keeps its own entry. -/
theorem run_routes (cfg : Config) (events : List Event) (s : State)
    (hrun : run (step cfg) State.init events = some s) :
    (∀ e s', step cfg s e = some s' → ∀ other circuitId data,
      (other, Wire.data circuitId data) ∈ s'.sent.drop s.sent.length →
        ∃ channel body throws now key, e = .message channel (.data body throws) now ∧
          decodeCircuitData cfg.uint body = ⟨some circuitId, some data, none⟩ ∧
          lastReady s.sent channel circuitId = some key ∧
          (other, key) ∈ s.claims ∧ State.mismatch cfg other key = false) ∧
      (RunMeets (step cfg) (fun s e => ∀ b ∈ bridging cfg s e, Fresh cfg s b) State.init events →
        ∀ circuitId b, (circuitId, b) ∈ s.announced → ∃ circuit,
          s.activeCircuits.get? circuitId = some circuit ∧ circuit.toBridge = b) := by
  constructor
  · intro e s' hstep other circuitId data hmem
    have hrouted : Routed cfg s := run_preserves (Routed cfg)
      (fun _ _ _ h hstep => Routed.invariant.step h (fun _ _ => trivial) hstep) Routed.init hrun
    obtain ⟨channel, body, throws, now, circuit, rfl, hopen, hdecode, hget, hend, rfl⟩ :=
      forwarded hstep hmem
    obtain ⟨key, hkey, hclaim⟩ := hrouted.told circuitId circuit hget channel hend hopen
    exact ⟨channel, body, throws, now, key, rfl, hdecode, hkey, hclaim, hrouted.claims _ hclaim⟩
  · intro hfresh
    have hkept : Kept s := run_invariant _ Kept
      (fun _ _ _ h hok hstep => Kept.invariant.step h hok hstep) (by simp [Kept, State.init])
      hfresh hrun
    exact hkept

/-- The key of thirty-two equal bytes. -/
def sampleKey (byte : UInt8) : Pubkey := ⟨replicate 32 byte, length_replicate⟩

/-- A relay with room, on which channel `n` has authenticated the `n`-th key; integers of one byte are
read. -/
def sampleConfig : Config where
  relay :=
    { maxConnections := 256
      maxCircuitsPerPeer := 5
      maxCircuitBytes := 64 * 1024 * 1024
      maxCircuitRateBytesPerSecond := 1024 * 1024
      maxBandwidthBytes := 750000000 }
  reservationTTL := 60 * 60 * 1000
  maxCircuitDuration := 10 * 60 * 1000
  maxCircuitBytes := 64 * 1024 * 1024
  maxCircuitsPerPeer := 5
  maxCircuitRateBytesPerSecond := 1024 * 1024
  maxDataMsgBytes := 64 * 1024
  maxReservesPerMin := 5
  maxPendingConnects := 100
  authenticatedKeyFor channel := some (sampleKey (UInt8.ofNat channel))
  uint
    | [] => none
    | byte :: rest => some (byte.toNat, rest)

def sampleReserve (channel : Channel) : Event :=
  .message channel (.reserve ((sampleKey (UInt8.ofNat channel)).1 ++ [0, 0])) 1000

/-- The peer of a channel asks for a target. -/
def sampleConnect (channel target : Channel) : Event :=
  .message channel (.connect ((sampleKey (UInt8.ofNat target)).1 ++ (sampleKey (UInt8.ofNat channel)).1)) 1000

/-- The peer of a channel sends a frame of two bytes under the first bytes of a key. -/
def sampleData (channel source : Channel) : Event :=
  .message channel (.data (((sampleKey (UInt8.ofNat source)).1.take circuitIdBytes) ++ [2, 7, 8]) false) 1000

/-- A circuit from the first peer to the second. -/
def sampleCircuit : List Event :=
  [.opens 1, .opens 2, .opens 3, sampleReserve 2, sampleReserve 3, sampleConnect 1 2]

/-- A frame of the first peer goes to the second, which has the key the first was told. -/
theorem sample_routes : ∃ s s', run (step sampleConfig) State.init sampleCircuit = some s ∧
    step sampleConfig s (sampleData 1 1) = some s' ∧
    (∃ key, lastReady s.sent 1 (circuitIdOf (sampleKey 1) (sampleKey 2)) = some key ∧ (2, key) ∈ s.claims) ∧
    ∀ circuitId b, (circuitId, b) ∈ s.announced → ∃ circuit,
      s.activeCircuits.get? circuitId = some circuit ∧ circuit.toBridge = b := by
  have hsample : ((run (step sampleConfig) State.init sampleCircuit).any fun s =>
      (step sampleConfig s (sampleData 1 1)).any fun s' =>
        (2, Wire.data (circuitIdOf (sampleKey 1) (sampleKey 2)) [7, 8]) ∈ s'.sent.drop s.sent.length) = true := by
    decide +kernel
  obtain ⟨s, hrun, h⟩ := (any_eq_true _ _).mp hsample
  obtain ⟨s', hstep, hmem⟩ := (any_eq_true _ _).mp h
  have hroutes := run_routes sampleConfig sampleCircuit s hrun
  refine ⟨s, s', hrun, hstep, ?_, hroutes.2 (by decide +kernel)⟩
  obtain ⟨channel, body, throws, now, key, hevent, -, hkey, hclaim, -⟩ :=
    hroutes.1 _ s' hstep 2 _ _ (of_decide_eq_true hmem)
  obtain ⟨rfl, -⟩ := Event.message.inj hevent
  exact ⟨key, hkey, hclaim⟩

/-- The first peer is bridged to the second and then to the third: both circuits are announced and
neither is closed, and the entry of the id is that of the second. -/
theorem second_destination_replaces_first : ¬∀ (cfg : Config) (events : List Event) (s : State),
      run (step cfg) State.init events = some s → ∀ circuitId b, (circuitId, b) ∈ s.announced → ∃ circuit,
          s.activeCircuits.get? circuitId = some circuit ∧ circuit.toBridge = b := by
  intro h
  let first : Bridge := ⟨0, 1, 2, sampleKey 1, sampleKey 2⟩
  let id := circuitIdOf (sampleKey 1) (sampleKey 2)
  have hsample : ((run (step sampleConfig) State.init (sampleCircuit ++ [sampleConnect 1 3])).any
      fun s => (id, first) ∈ s.announced ∧
        (s.activeCircuits.get? id).map (fun c => c.destPubkey) = some (sampleKey 3)) = true := by
    decide +kernel
  obtain ⟨s, hrun, hfacts⟩ := (any_eq_true _ _).mp hsample
  obtain ⟨hmem, hentry⟩ := of_decide_eq_true hfacts
  obtain ⟨circuit, hget, hb⟩ := h sampleConfig _ s hrun id first hmem
  rw [hget, map_some, hb] at hentry
  exact absurd hentry (by decide)

end HiveRelay.Circuits
