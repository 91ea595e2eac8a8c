import HiveRelay.Circuit.Routing

/-!
# Circuits apart from other channels

What a channel sends that is no end of a circuit leaves the circuit alone: its entry, what the relay
accounts for it and for its source, and nothing about it is sent. The ids carry the proof. An entry
and an account are kept under the first bytes of their source's key, so what happens under one id
touches no other id and no source whose key begins with another.

Two kinds of messages are left out, as they are handled before anything looks at the ends: a `DATA`
frame whose id is read and whose data is not closes the circuit of the id, and a circuit that is
bridged takes the place of one that has its id. A channel can be an end of several circuits, so
messages about the others are sent on the circuit's own channels.

## Main definitions

* `Keyed` — ids and keys agree
* `Apart` — nothing has happened to a circuit

## Main results

* `run_isolates` — other channels leave a circuit alone
-/

namespace HiveRelay.Circuits

open OrderedMap

/-- The id of the circuits of a source. -/
def prefixOf (key : Pubkey) : CircuitId := ⟨key.1.take circuitIdBytes, by simp [circuitIdBytes, key.2]⟩

/-- The id is the first bytes of the source's key: those of the destination's do not count. -/
theorem circuitIdOf_eq (sourcePubkey destPubkey : Pubkey) :
    circuitIdOf sourcePubkey destPubkey = prefixOf sourcePubkey := by
  have hlength : circuitIdBytes ≤ sourcePubkey.1.length := by simp [circuitIdBytes, sourcePubkey.2]
  exact Subtype.ext (List.take_append_of_le_length hlength)

def Wire.circuitId? : Wire → Option CircuitId
  | .status _ _ => none
  | .data circuitId _ => some circuitId
  | .ready circuitId _ => some circuitId
  | .close circuitId _ => some circuitId

/-! ## Ids and keys -/

/-- Entries and accounts are kept under the first bytes of their source's key. -/
structure Keyed (s : State) : Prop where
  active : ∀ circuitId circuit, s.activeCircuits.get? circuitId = some circuit →
    prefixOf circuit.sourcePubkey = circuitId
  accounts : ∀ circuitId account, s.relay.circuits.get? circuitId = some account →
    prefixOf account.sourcePeerKey = circuitId

variable {circuit : Circuit}

section Keyed

variable {cfg : Config} {s s' : State}

theorem Keyed.of_eq (h : Keyed s) (hactive : s'.activeCircuits = s.activeCircuits)
    (hrelay : s'.relay.circuits = s.relay.circuits) : Keyed s' :=
  ⟨by rw [hactive]; exact h.active, by rw [hrelay]; exact h.accounts⟩

theorem Keyed.close (h : Keyed s) {circuitId : CircuitId} (hc : State.Closed s circuitId circuit s') : Keyed s' where
  active := by
    rw [hc.activeCircuits]
    exact forall_delete h.active
  accounts := by
    rw [hc.relay, Relay.closeCircuit_circuits]
    exact forall_delete h.accounts

theorem Keyed.touch (h : Keyed s) {circuitId : CircuitId} {circuit' : Circuit}
    {relay : Relay} {bytes : ℕ} {charged : Bool}
    (hget : s.activeCircuits.get? circuitId = some circuit)
    (hb : circuit'.toBridge = circuit.toBridge)
    (hr : Relay.Recorded s.relay circuitId bytes relay charged) :
    Keyed (s.touch relay circuitId circuit') where
  active := by
    refine forall_set h.active ?_
    rw [hb]
    exact h.active circuitId circuit hget
  accounts := by
    change ∀ id account, relay.circuits.get? id = some account → _
    cases hc : s.relay.circuits.get? circuitId with
    | none =>
      rw [(hr.unknown hc).2]
      exact h.accounts
    | some account =>
      obtain ⟨account', hset, -, howner, -⟩ := hr.known account hc
      rw [hset]
      refine forall_set h.accounts ?_
      rw [howner]
      exact h.accounts circuitId account hc

theorem Keyed.enter (h : Keyed s) (b : Bridging) (req : Pending) : Keyed (b.enter cfg s req) where
  active := by
    rw [Bridging.enter, announce_activeCircuits]
    exact forall_set h.active (circuitIdOf_eq req.sourcePubkey b.destPubkey).symm
  accounts := by
    rw [Bridging.enter, announce_relay]
    exact forall_set h.accounts (circuitIdOf_eq req.sourcePubkey b.destPubkey).symm

theorem Keyed.bridgeAll (h : Keyed s) (b : Bridging) (reqs : List Pending) : Keyed (b.bridgeAll cfg s reqs) :=
  bridgeAll_invariant (fun s' _ => Keyed s')
    (fun _ _ _ h' _ => h'.of_eq (by simp [Bridging.refuse]) (by simp [Bridging.refuse]))
    (fun _ req _ h' _ => h'.enter b req) h

/-- **In every state a relay gets to**, ids and keys agree. -/
theorem Keyed.invariant : State.Invariant cfg (fun _ _ => True) Keyed where
  quiet h _ hq := h.of_eq hq.activeCircuits (by rw [hq.relay])
  close h _ hc := h.close hc
  touch h hget hb _ hr := h.touch hget hb hr
  send _ _ _ h := h.of_eq (by simp) (by simp)
  grant {s s₁ channel} msg now h _ _ hq _ := by
    have h₂ : Keyed (s₁.reserve msg.peerPubkey (State.granted cfg channel msg now)) :=
      h.of_eq hq.activeCircuits (congrArg Relay.circuits hq.relay)
    exact (h₂.bridgeAll _ _).of_eq rfl rfl
  join {s channel target source res} now h _ _ _ _ _ := by
    have hclaim : Keyed (s.claim channel source) := h.of_eq rfl rfl
    exact (hclaim.bridgeAll _ _).of_eq rfl rfl
  shrink h hs := h.of_eq hs.activeCircuits (by rw [hs.relay])
  timer t h _ := by
    refine ⟨h.active, ?_⟩
    change ∀ id account, (Relay.closeCircuit _ t.circuitId).circuits.get? id = some account → _
    rw [Relay.closeCircuit_circuits]
    exact forall_delete h.accounts

end Keyed

/-! ## Circuits that are left alone -/

/-- What happened left the circuit of an id alone: its entry, its account, the counts of the peers
its id can be of, and nothing about it was sent. -/
structure Apart (circuitId : CircuitId) (s s' : State) : Prop where
  active : s'.activeCircuits.get? circuitId = s.activeCircuits.get? circuitId
  account : s'.relay.circuits.get? circuitId = s.relay.circuits.get? circuitId
  perPeer : ∀ key, prefixOf key = circuitId → s'.relay.circuitsPerPeer.get? key = s.relay.circuitsPerPeer.get? key
  sends : s.Sends (fun m => m.2.circuitId? ≠ some circuitId) s'

section Apart

variable {cfg : Config} {s s₁ s' : State} {circuitId id : CircuitId}

theorem Apart.of_eq (hactive : s'.activeCircuits = s.activeCircuits) (hrelay : s'.relay = s.relay)
    (hsends : s.Sends (fun m => m.2.circuitId? ≠ some id) s') : Apart id s s' :=
  ⟨by rw [hactive], by rw [hrelay], fun _ _ => by rw [hrelay], hsends⟩

theorem Apart.trans (h₁ : Apart id s s₁) (h₂ : Apart id s₁ s') : Apart id s s' :=
  ⟨h₂.active.trans h₁.active, h₂.account.trans h₁.account,
    fun key hkey => (h₂.perPeer key hkey).trans (h₁.perPeer key hkey), h₁.sends.trans h₂.sends⟩

theorem Apart.send (h : Apart id s s') {channel : Channel} {message : Wire}
    (hmessage : message.circuitId? ≠ some id) : Apart id s (s'.send channel message) :=
  h.trans (.of_eq (by simp) (by simp) (.send (.of_eq rfl) hmessage))

theorem apart_quiet {channel : Channel} (hq : State.Quiet cfg channel s s') : Apart id s s' :=
  .of_eq hq.activeCircuits hq.relay <| hq.sent.mono fun m hm => by
    obtain ⟨code, text, htext⟩ := hm
    simp [htext, Wire.circuitId?]

theorem get?_increment {counts : OrderedMap Pubkey ℕ} {key source : Pubkey} (h : key ≠ source) :
    (counts.increment source).get? key = counts.get? key :=
  get?_set_of_ne h

theorem get?_decrement {counts : OrderedMap Pubkey ℕ} {key source : Pubkey} (h : key ≠ source) :
    (counts.decrement source).get? key = counts.get? key := by
  unfold decrement
  dsimp only
  split
  · exact get?_delete_of_ne h
  · exact get?_set_of_ne h

/-- **Another circuit that is closed.** Its source begins with its own id. -/
theorem apart_close (h : Keyed s) (hne : circuitId ≠ id) (reason : Reason) :
    Apart id s (s.closeCircuit circuitId reason) := by
  cases hget : s.activeCircuits.get? circuitId with
  | none =>
    rw [State.closeCircuit_of_none hget]
    exact .of_eq rfl rfl (.of_eq rfl)
  | some circuit =>
    have hc : State.Closed s circuitId circuit (s.closeCircuit circuitId reason) :=
      State.closed_closeCircuit hget
    refine ⟨?_, ?_, fun key hkey => ?_, hc.sent.mono fun m hm => ?_⟩
    · rw [hc.activeCircuits, get?_delete_of_ne hne.symm]
    · rw [hc.relay, Relay.closeCircuit_circuits, get?_delete_of_ne hne.symm]
    · rw [hc.relay]
      cases haccount : s.relay.circuits.get? circuitId with
      | none => simp only [Relay.closeCircuit, haccount]
      | some account =>
        simp only [Relay.closeCircuit, haccount]
        refine get?_decrement ?_
        rintro rfl
        exact hne ((h.accounts circuitId account haccount).symm.trans hkey)
    · obtain ⟨-, code, hcode⟩ := hm
      simp [hcode, Wire.circuitId?, hne]

theorem apart_touch (hne : circuitId ≠ id) {relay : Relay} {bytes : ℕ}
    {charged : Bool} (hr : Relay.Recorded s.relay circuitId bytes relay charged) :
    Apart id s (s.touch relay circuitId circuit) := by
  refine ⟨get?_set_of_ne hne.symm, ?_, fun key _ => ?_, .of_eq rfl⟩
  · change relay.circuits.get? id = _
    cases hc : s.relay.circuits.get? circuitId with
    | none => rw [(hr.unknown hc).2]
    | some account =>
      obtain ⟨account', hset, -⟩ := hr.known account hc
      rw [hset, get?_set_of_ne hne.symm]
  · exact congrArg (get? · key) hr.circuitsPerPeer

theorem apart_enter {b : Bridging} {req : Pending} (hne : b.idOf req ≠ id) : Apart id s (b.enter cfg s req) := by
  have hsource : prefixOf req.sourcePubkey = b.idOf req := (circuitIdOf_eq _ _).symm
  refine ⟨?_, ?_, fun key hkey => ?_, ?_⟩
  · rw [Bridging.enter, announce_activeCircuits, get?_set_of_ne hne.symm]
  · rw [Bridging.enter, announce_relay]
    exact get?_set_of_ne hne.symm
  · rw [Bridging.enter, announce_relay]
    refine get?_increment ?_
    rintro rfl
    exact hne (hsource.symm.trans hkey)
  · exact .send (.send (.of_eq rfl) (by simpa [Wire.circuitId?] using hne)) (by simpa [Wire.circuitId?] using hne)

/-- **Requests that are announced under other ids**, bridged one after the other. -/
theorem apart_bridgeAll {b : Bridging} {reqs : List Pending}
    (hother : ∀ req ∈ b.admitted cfg s.relay reqs, b.idOf req ≠ id) :
    Apart id s (b.bridgeAll cfg s reqs) := by
  refine (bridgeAll_invariant (fun s' reqs => Apart id s s' ∧
    ∀ req ∈ b.admitted cfg s'.relay reqs, b.idOf req ≠ id) ?_ ?_ ⟨.of_eq rfl rfl (.of_eq rfl), hother⟩).1
  · rintro s' req rest ⟨h', hother⟩ hrefused
    rw [Bridging.admitted_of_refused hrefused] at hother
    exact ⟨h'.send (by simp [Wire.circuitId?]), by simpa [Bridging.refuse] using hother⟩
  · rintro s' req rest ⟨h', hother⟩ haccepted
    rw [Bridging.admitted_of_accepted haccepted] at hother
    exact ⟨h'.trans (apart_enter (hother req List.mem_cons_self)), fun r hr => hother r (List.mem_cons_of_mem _ hr)⟩

end Apart

section Messages

variable {cfg : Config} {s : State} {channel : Channel} {id : CircuitId}

theorem apart_onReserve {msg : ReserveMsg} {now : ℕ} (hother : s.Grants cfg channel msg now →
      let b : Bridging := ⟨false, msg.peerPubkey, State.granted cfg channel msg now, now,
        (s.pendingConnects.get? msg.peerPubkey).getD []⟩
      ∀ req ∈ b.admitted cfg s.relay b.requests, b.idOf req ≠ id) :
    Apart id s (s.onReserve cfg channel msg now) := by
  rcases State.onReserve_cases cfg s channel now msg with ⟨-, hq⟩ | ⟨hgrants, s₁, hq, -, heq⟩
  · exact apart_quiet hq
  · have hreserve : Apart id s (s₁.reserve msg.peerPubkey (State.granted cfg channel msg now)) :=
      (apart_quiet hq).trans (.of_eq rfl rfl (.of_eq rfl))
    have hother := hother hgrants
    rw [heq]
    refine (hreserve.trans (apart_bridgeAll ?_)).trans (.of_eq rfl rfl (.of_eq rfl))
    change ∀ req ∈ Bridging.admitted cfg _ s₁.relay _, _
    rw [hq.relay]
    exact hother

theorem apart_onConnect {msg : ConnectMsg} {now : ℕ}
    (hother : ∀ target source res, msg = ⟨some target, some source, none⟩ →
      s.reaches cfg channel target source now = some res →
      let b : Bridging := ⟨true, target, res, now, [⟨channel, source, now⟩]⟩
      ∀ req ∈ b.admitted cfg s.relay b.requests, b.idOf req ≠ id) :
    Apart id s (s.onConnect cfg channel msg now) := by
  obtain ⟨target?, source?, error⟩ := msg
  unfold State.onConnect
  split
  · next target source herror htarget hsource =>
    subst herror htarget hsource
    rcases State.onConnectTo_cases cfg s channel now target source with ⟨-, hq⟩ |
      ⟨res, hreaches, -, -, -, heq⟩
    · exact apart_quiet hq
    · have hclaim : Apart id s (s.claim channel source) := .of_eq rfl rfl (.of_eq rfl)
      rw [heq]
      exact (hclaim.trans (apart_bridgeAll (hother target source res rfl hreaches))).trans
        (.of_eq rfl rfl (.of_eq rfl))
  · exact Apart.send (.of_eq rfl rfl (.of_eq rfl)) (by simp [Wire.circuitId?])

/-- A `DATA` frame of a channel that is no end of the circuit, and that is read or names another. -/
theorem apart_onCircuitData (h : Keyed s)
    (hget : s.activeCircuits.get? id = some circuit) (hend : ¬circuit.HasEnd channel) {msg : DataMsg}
    (hread : msg.circuitId = some id → msg.error = none ∧ msg.data ≠ none) (throws : Bool) (now : ℕ) :
    Apart id s (s.onCircuitData cfg channel msg throws now) := by
  have hsame : Apart id s s := .of_eq rfl rfl (.of_eq rfl)
  unfold State.onCircuitData
  split
  · next circuitId data herror hid hdata =>
    have hrecorded := Relay.recorded_recordCircuitBytes cfg.relay s.relay circuitId data.length now
    rcases State.onCircuitFrame_cases cfg s channel now circuitId data throws with
      heq | ⟨other, hother, hotherEnd, hframed⟩
    · rwa [heq]
    · have hne : circuitId ≠ id := by
        rintro rfl
        rw [hget] at hother
        exact hend (Option.some.inj hother ▸ hotherEnd)
      generalize s.onCircuitFrame cfg channel circuitId data throws now = s' at hframed ⊢
      cases hframed with
      | dropped window reason =>
        have hself := Relay.recorded_self s.relay circuitId 0
        exact (apart_touch hne hself).trans (apart_close (h.touch hother (by rfl) hself) hne reason)
      | refused window hok =>
        exact (apart_touch hne hrecorded).trans
          (apart_close (h.touch hother (by rfl) hrecorded) hne .bandwidthExceeded)
      | lost window reason hok =>
        exact (apart_touch hne hrecorded).trans (apart_close (h.touch hother (by rfl) hrecorded) hne reason)
      | forwarded window hok =>
        exact (apart_touch hne hrecorded).send (by simpa [Wire.circuitId?] using hne)
  · next circuitId hid hbad =>
    refine apart_close h ?_ _
    rintro rfl
    obtain ⟨herror, hdata⟩ := hread hid
    obtain ⟨data, hsome⟩ := Option.ne_none_iff_exists'.mp hdata
    exact hbad data herror hsome
  · exact hsame

end Messages

/-! ## Runs -/

theorem decodeCircuitData_data {uint : Bytes → Option (ℕ × Bytes)} {body : Bytes}
    (h : (decodeCircuitData uint body).error = none) : (decodeCircuitData uint body).data ≠ none := by
  unfold decodeCircuitData at h ⊢
  split at h
  · cases h
  · split at h
    · cases h
    · simp

/-- **A channel that is no end of a circuit leaves it alone.** Whatever it sends, in whatever state a
relay gets to: the circuit's entry with its counters, its account and the count of its source stay,
and nothing about the circuit is sent, unless the message is a frame that names the circuit and does
not decode, or announces a circuit under the same id. -/
theorem run_isolates (cfg : Config) (events : List Event) (s s' : State)
    (hrun : run (step cfg) State.init events = some s) (channel : Channel) (frame : Frame) (now : ℕ)
    (hstep : step cfg s (.message channel frame now) = some s') (id : CircuitId) (circuit : Circuit)
    (hget : s.activeCircuits.get? id = some circuit) (hend : ¬circuit.HasEnd channel)
    (hread : ∀ body throws, frame = .data body throws → (decodeCircuitData cfg.uint body).circuitId = some id →
        (decodeCircuitData cfg.uint body).error = none)
    (hother : ∀ b ∈ bridging cfg s (.message channel frame now),
      ∀ req ∈ b.admitted cfg s.relay b.requests, b.idOf req ≠ id) :
    s'.activeCircuits.get? id = some circuit ∧ s'.relay.circuits.get? id = s.relay.circuits.get? id ∧
      s'.relay.circuitsPerPeer.get? circuit.sourcePubkey = s.relay.circuitsPerPeer.get? circuit.sourcePubkey ∧
      ∀ m ∈ s'.sent.drop s.sent.length, m.2.circuitId? ≠ some id := by
  have hkeyed : Keyed s := run_preserves Keyed
    (fun _ _ _ h hstep => Keyed.invariant.step h (fun _ _ => trivial) hstep)
    (by constructor <;> simp [State.init, Relay.init]) hrun
  have hapart : Apart id s s' := by
    rw [step] at hstep
    split at hstep
    · cases hstep
      cases frame with
      | reserve body =>
        rw [State.onMessage]
        split
        · exact .of_eq rfl rfl (.of_eq rfl)
        · next msg hmsg =>
          exact apart_onReserve fun hgrants => hother _ (by simp [bridging, hmsg, hgrants])
      | connect body =>
        refine apart_onConnect fun target source res hmsg hreaches => hother _ ?_
        simp [bridging, hmsg, hreaches]
      | data body throws =>
        refine apart_onCircuitData hkeyed hget hend (fun hid => ?_) throws now
        have herror := hread body throws rfl hid
        exact ⟨herror, decodeCircuitData_data herror⟩
      | other => exact .of_eq rfl rfl (.of_eq rfl)
    · cases hstep
  exact ⟨hapart.active.trans hget, hapart.account,
    hapart.perPeer _ (hkeyed.active id circuit hget), fun m hm => hapart.sends.of_mem_drop hm⟩

/-- Circuits of the first and of the third peer to the second, and a frame of the third peer. -/
theorem sample_shared : ∃ s s', run (step sampleConfig) State.init (sampleCircuit ++ [sampleConnect 3 2]) = some s ∧
    step sampleConfig s (sampleData 3 3) = some s' ∧
    (2, Wire.data (prefixOf (sampleKey 3)) [7, 8]) ∈ s'.sent.drop s.sent.length ∧
    ∃ circuit, s.activeCircuits.get? (prefixOf (sampleKey 1)) = some circuit ∧
      ¬circuit.HasEnd 3 ∧ circuit.HasEnd 2 := by
  have hrun : ((run (step sampleConfig) State.init (sampleCircuit ++ [sampleConnect 3 2])).any fun s =>
      (step sampleConfig s (sampleData 3 3)).any fun s' =>
        (2, Wire.data (prefixOf (sampleKey 3)) [7, 8]) ∈ s'.sent.drop s.sent.length ∧
          (s.activeCircuits.get? (prefixOf (sampleKey 1))).any fun circuit =>
            ¬circuit.HasEnd 3 ∧ circuit.HasEnd 2) = true := by
    decide +kernel
  obtain ⟨s, hs, h⟩ := (Option.any_eq_true _ _).mp hrun
  obtain ⟨s', hs', h⟩ := (Option.any_eq_true _ _).mp h
  obtain ⟨hmem, hentry⟩ := of_decide_eq_true h
  obtain ⟨circuit, hget, hends⟩ := (Option.any_eq_true _ _).mp hentry
  exact ⟨s, s', hs, hs', hmem, circuit, hget, of_decide_eq_true hends⟩

/-- A third channel sends a frame with the id of a circuit. -/
theorem sample_isolates : ∃ s s', run (step sampleConfig) State.init (sampleCircuit ++ [sampleConnect 3 2]) = some s ∧
    step sampleConfig s (sampleData 3 3) = some s' ∧
    ∀ m ∈ s'.sent.drop s.sent.length, m.2.circuitId? ≠ some (prefixOf (sampleKey 1)) := by
  obtain ⟨s, s', hrun, hstep, -, circuit, hget, hend, -⟩ := sample_shared
  refine ⟨s, s', hrun, hstep, ?_⟩
  refine (run_isolates sampleConfig _ s s' hrun 3 _ _ hstep _ circuit hget hend ?_ ?_).2.2.2
  · rintro body throws hframe -
    obtain rfl := (Frame.data.inj hframe).1
    decide
  · intro b hb
    cases hb

/-- The third peer is bridged to the second as well. A frame of its own circuit is sent on the channel
of the second, which is an end of the first circuit too. -/
theorem own_circuit_sends_on_shared_channel : ¬∀ (cfg : Config) (events : List Event) (s s' : State),
      run (step cfg) State.init events = some s → ∀ channel frame now,
        step cfg s (.message channel frame now) = some s' → ∀ id circuit,
          s.activeCircuits.get? id = some circuit → ¬circuit.HasEnd channel →
            ∀ m ∈ s'.sent.drop s.sent.length, ¬circuit.HasEnd m.1 := by
  intro h
  obtain ⟨s, s', hrun, hstep, hmem, circuit, hget, hend, hend'⟩ := sample_shared
  exact h sampleConfig _ s s' hrun 3 _ _ hstep _ circuit hget hend _ hmem hend'

end HiveRelay.Circuits
