import HiveRelay.Circuit.Isolation

/-!
# Two tables that count the same circuits

`CircuitRelay` keeps an entry for each circuit and counts, in the reservation of its destination, how
many are bridged to it; `Relay` keeps an account for each and counts how many each source has. In the
runs that follow the rules below, the two agree: every account has its entry, with the same bytes, an
entry without an account had it closed by its timer, both counts are those of the tables, and a timer
that is armed is that of the account it would close.

The rules are what the code leaves to chance. A circuit is announced under an id that has none; a
`CONNECT` that is bridged is let through by the relay's caps, as the reservation counts it in either
case; and a `RESERVE` that is granted starts from a count of zero, so its holder has no circuits, and
no queued request is bridged by it, as these are not counted.

## Main definitions

* `Ruled` — what is bridged follows the rules
* `Balanced` — the two tables agree

## Main results

* `Balanced.invariant`, `run_balances` — they do in the runs that follow the rules
-/

namespace HiveRelay.Circuits

open Option OrderedMap

def Circuit.holder (c : Circuit) : Pubkey := c.destPubkey

/-- The number of live circuits that are bridged to a peer. -/
def liveTo (s : State) (peer : Pubkey) : ℕ := s.activeCircuits.countOf Circuit.holder peer

/-- An account and an entry of one circuit, with the same bytes. -/
def Matches (a : Accounting) (c : Circuit) : Prop :=
  a.serial = c.serial ∧ a.bytesRelayed = c.bytesRelayed

/-- The relay's counts are right, its accounts are those of the entries, and the reservations count
the live circuits of their holders. -/
structure Balanced (cfg : Config) (s : State) : Prop where
  relay : Relay.Accounted cfg.relay s.relay
  accounts : ∀ id a, s.relay.circuits.get? id = some a → ∃ c, s.activeCircuits.get? id = some c ∧ Matches a c
  ended : ∀ id c, s.activeCircuits.get? id = some c → s.relay.circuits.get? id = none → c.serial ∈ s.relay.ended
  counts : ∀ peer res, s.reservations.get? peer = some res → res.circuitCount = liveTo s peer
  capped : ∀ peer res, s.reservations.get? peer = some res → res.circuitCount ≤ cfg.maxCircuitsPerPeer

/-- What is bridged follows the rules. A `CONNECT` is let through and comes under an id that has no
circuit; a `RESERVE` is of a peer that no circuit is bridged to, and bridges nothing. -/
def Ruled (cfg : Config) (s : State) (b : Bridging) : Prop :=
  (b.direct = true → ∀ req ∈ b.requests, s.relay.accepts cfg.relay req.sourcePubkey = true ∧
    s.activeCircuits.has (b.idOf req) = false) ∧
  (b.direct = false → b.admitted cfg s.relay b.requests = [] ∧ liveTo s b.destPubkey = 0)
  deriving Decidable

section Steps

variable {cfg : Config} {s s' : State}

theorem Balanced.init : Balanced cfg State.init where
  relay := .init
  accounts := by simp [State.init, Relay.init]
  ended := by simp [State.init]
  counts := by simp [State.init]
  capped := by simp [State.init]

theorem Balanced.of_eq (h : Balanced cfg s) (hactive : s'.activeCircuits = s.activeCircuits)
    (hrelay : s'.relay = s.relay)
    (hreservations : ∀ peer res, s'.reservations.get? peer = some res →
      s.reservations.get? peer = some res) : Balanced cfg s' where
  relay := hrelay ▸ h.relay
  accounts := by
    rw [hrelay, hactive]
    exact h.accounts
  ended := by
    rw [hrelay, hactive]
    exact h.ended
  counts peer res hres := by
    rw [liveTo, hactive]
    exact h.counts peer res (hreservations peer res hres)
  capped peer res hres := h.capped peer res (hreservations peer res hres)

/-- **A circuit that is closed.** Both tables lose it, and the reservation of its destination counts
one less, which it has. -/
theorem Balanced.close (h : Balanced cfg s) {circuitId : CircuitId} {circuit : Circuit}
    (hget : s.activeCircuits.get? circuitId = some circuit)
    (hc : State.Closed s circuitId circuit s') : Balanced cfg s' where
  relay := hc.relay ▸ h.relay.closeCircuit
  accounts := by
    rw [hc.relay, hc.activeCircuits, Relay.closeCircuit_circuits]
    intro id a ha
    rw [get?_delete] at ha ⊢
    split at ha
    · cases ha
    · next hne =>
      rw [if_neg hne]
      exact h.accounts id a ha
  ended := by
    rw [hc.relay, hc.activeCircuits, Relay.closeCircuit_circuits]
    intro id c hc' hnone
    rw [get?_delete] at hc' hnone
    split at hc'
    · cases hc'
    · next hne =>
      rw [if_neg hne] at hnone
      exact Relay.mem_ended_closeCircuit (h.ended id c hc' hnone)
  counts peer res hres := by
    have hcount := countOf_delete Circuit.holder peer hget
    rw [hc.reservations] at hres
    rw [liveTo, hc.activeCircuits]
    split at hres
    · next hpeer =>
      obtain ⟨old, hold, rfl⟩ := map_eq_some_iff.mp hres
      have hold := h.counts peer old hold
      have hholder : circuit.holder = peer := hpeer.symm
      rw [if_pos hholder] at hcount
      rw [hold, liveTo, hcount, Nat.add_sub_cancel]
    · next hpeer =>
      have hholder : circuit.holder ≠ peer := fun heq => hpeer heq.symm
      rw [if_neg hholder, Nat.add_zero] at hcount
      rw [h.counts peer res hres, liveTo, hcount]
  capped peer res hres := by
    rw [hc.reservations] at hres
    split at hres
    · obtain ⟨old, hold, rfl⟩ := map_eq_some_iff.mp hres
      exact (Nat.sub_le ..).trans (h.capped peer old hold)
    · exact h.capped peer res hres

/-- **A frame that is charged** is charged to both tables. -/
theorem Balanced.touch (h : Balanced cfg s) {circuitId : CircuitId} {circuit circuit' : Circuit}
    {relay : Relay} {bytes : ℕ} {charged : Bool}
    (hget : s.activeCircuits.get? circuitId = some circuit)
    (hb : circuit'.toBridge = circuit.toBridge)
    (hbytes : circuit'.bytesRelayed = circuit.bytesRelayed + if charged then bytes else 0)
    (hr : Relay.Recorded s.relay circuitId bytes relay charged) :
    Balanced cfg (s.touch relay circuitId circuit') where
  relay := h.relay.recorded hr
  accounts := by
    change ∀ id a, relay.circuits.get? id = some a → ∃ c,
      (s.activeCircuits.set circuitId circuit').get? id = some c ∧ Matches a c
    intro id a ha
    rw [get?_set]
    split
    · next heq =>
      subst heq
      cases hc : s.relay.circuits.get? id with
      | none =>
        rw [(hr.unknown hc).2, hc] at ha
        cases ha
      | some old =>
        obtain ⟨a', hset, hserial, -, hcharged⟩ := hr.known old hc
        rw [hset, get?_set_self] at ha
        cases ha
        obtain ⟨c, hc', hmatch⟩ := h.accounts id old hc
        rw [hget] at hc'
        cases hc'
        refine ⟨circuit', rfl, ?_, ?_⟩
        · rw [hserial, hmatch.1, hb]
        · rw [hcharged, hmatch.2, hbytes]
    · next hne =>
      refine h.accounts id a ?_
      cases hc : s.relay.circuits.get? circuitId with
      | none => rwa [(hr.unknown hc).2] at ha
      | some old =>
        obtain ⟨a', hset, -⟩ := hr.known old hc
        rwa [hset, get?_set_of_ne hne] at ha
  ended := by
    change ∀ id c, (s.activeCircuits.set circuitId circuit').get? id = some c →
      relay.circuits.get? id = none → c.serial ∈ relay.ended
    intro id c hc hnone
    rw [hr.ended]
    have hold : s.relay.circuits.get? id = none := by
      cases hc : s.relay.circuits.get? circuitId with
      | none => rwa [(hr.unknown hc).2] at hnone
      | some old =>
        obtain ⟨a', hset, -⟩ := hr.known old hc
        rw [hset, get?_set] at hnone
        split at hnone
        · cases hnone
        · exact hnone
    rw [get?_set] at hc
    split at hc
    · next heq =>
      cases hc
      rw [hb]
      exact h.ended circuitId circuit hget (heq ▸ hold)
    · exact h.ended id c hc hold
  counts peer res hres := by
    have hholder : circuit'.holder = circuit.holder := congrArg Bridge.destPubkey hb
    change _ = (s.activeCircuits.set circuitId circuit').countOf Circuit.holder peer
    rw [countOf_update hget hholder]
    exact h.counts peer res hres
  capped := h.capped

/-- **A `CONNECT` that is let through**, under an id that has no circuit. The relay has no account for
the id either, and the reservation counts the circuit. -/
theorem Balanced.join (h : Balanced cfg s) {b : Bridging} {req : Pending} (hrequests : b.requests = [req])
    (hres : s.reservations.get? b.destPubkey = some b.reservation)
    (hcount : b.reservation.circuitCount < cfg.maxCircuitsPerPeer)
    (haccepts : s.relay.accepts cfg.relay req.sourcePubkey = true)
    (hfresh : s.activeCircuits.get? (b.idOf req) = none) : Balanced cfg (s.join cfg b) := by
  have hnew : s.relay.circuits.get? (b.idOf req) = none := by
    cases ha : s.relay.circuits.get? (b.idOf req) with
    | none => rfl
    | some a =>
      obtain ⟨c, hc, -⟩ := h.accounts _ a ha
      rw [hfresh] at hc
      cases hc
  have hjoin : s.join cfg b = (b.enter cfg s req).reserve b.destPubkey
      { b.reservation with circuitCount := b.reservation.circuitCount + 1 } := by
    rw [State.join, hrequests, Bridging.bridgeAll, bridgeCircuit_cases, if_pos haccepts]
    rfl
  let circuit := b.circuit cfg s.relay.totalCircuitsServed req
  let account := Relay.newAccounting cfg.relay s.relay.totalCircuitsServed req.sourcePubkey circuit.maxBytes b.now
  have hactive : (s.join cfg b).activeCircuits = s.activeCircuits.set (b.idOf req) circuit := by
    rw [hjoin]
    exact announce_activeCircuits ..
  have hrelay : (s.join cfg b).relay =
      s.relay.register cfg.relay (b.idOf req) req.sourcePubkey circuit.maxBytes b.now := by
    rw [hjoin]
    exact announce_relay ..
  have hcircuits : (s.join cfg b).relay.circuits = s.relay.circuits.set (b.idOf req) account := by
    rw [hrelay]
    rfl
  have hreservations : (s.join cfg b).reservations = s.reservations.set b.destPubkey
      { b.reservation with circuitCount := b.reservation.circuitCount + 1 } := by
    rw [hjoin]
    exact congrArg (set · b.destPubkey _) (announce_reservations ..)
  refine ⟨?_, fun id a ha => ?_, fun id c hc hnone => ?_, fun peer res hget => ?_, fun peer res hget => ?_⟩
  · rw [hrelay]
    exact h.relay.register hnew haccepts _ _
  · rw [hactive, get?_set]
    rw [hcircuits, get?_set] at ha
    split at ha
    · next heq =>
      cases ha
      rw [if_pos heq]
      exact ⟨circuit, rfl, rfl, rfl⟩
    · next hne =>
      rw [if_neg hne]
      exact h.accounts id a ha
  · rw [hactive, get?_set] at hc
    rw [hcircuits, get?_set] at hnone
    split at hnone
    · cases hnone
    · next hne =>
      rw [if_neg hne] at hc
      rw [hrelay]
      exact h.ended id c hc hnone
  · rw [liveTo, hactive, countOf_set hfresh]
    rw [hreservations, get?_set] at hget
    split at hget
    · next heq =>
      cases hget
      have hholder : circuit.holder = peer := heq.symm
      rw [if_pos hholder, heq]
      exact congrArg (· + 1) (h.counts _ _ hres)
    · next hne =>
      have hholder : circuit.holder ≠ peer := fun heq => hne heq.symm
      rw [if_neg hholder]
      exact h.counts peer res hget
  · rw [hreservations, get?_set] at hget
    split at hget
    · cases hget
      exact hcount
    · exact h.capped peer res hget

theorem Balanced.bridgeAll_refused (h : Balanced cfg s) {b : Bridging} {reqs : List Pending}
    (hnone : b.admitted cfg s.relay reqs = []) : Balanced cfg (b.bridgeAll cfg s reqs) ∧
      (b.bridgeAll cfg s reqs).activeCircuits = s.activeCircuits := by
  refine (bridgeAll_invariant (fun s' reqs => (Balanced cfg s' ∧
    s'.activeCircuits = s.activeCircuits) ∧ b.admitted cfg s'.relay reqs = []) ?_ ?_ ⟨⟨h, rfl⟩, hnone⟩).1
  · rintro s' req rest ⟨⟨h', hactive⟩, hnone⟩ hrefused
    rw [Bridging.admitted_of_refused hrefused] at hnone
    refine ⟨⟨h'.of_eq (by simp [Bridging.refuse]) (by simp [Bridging.refuse]) ?_, ?_⟩, ?_⟩
    · simp [Bridging.refuse]
    · simpa [Bridging.refuse] using hactive
    · simpa [Bridging.refuse] using hnone
  · rintro s' req rest ⟨-, hnone⟩ haccepted
    rw [Bridging.admitted_of_accepted haccepted] at hnone
    cases hnone

/-- **A `RESERVE` of a peer that no circuit is bridged to**, and that bridges none. -/
theorem Balanced.grant (h : Balanced cfg s) {channel : Channel} {msg : ReserveMsg} {now : ℕ}
    {pending : List Pending} (hlive : liveTo s msg.peerPubkey = 0)
    (hnone : Bridging.admitted cfg
      ⟨false, msg.peerPubkey, State.granted cfg channel msg now, now, pending⟩ s.relay pending = []) :
    Balanced cfg (s.grant cfg channel msg now pending) := by
  have hreserve : Balanced cfg (s.reserve msg.peerPubkey (State.granted cfg channel msg now)) :=
    { h with
      counts := by
        intro peer res hres
        rw [State.reserve, get?_set] at hres
        split at hres
        · next heq =>
          cases hres
          rw [heq]
          exact hlive.symm
        · exact h.counts peer res hres
      capped := by
        intro peer res hres
        rw [State.reserve, get?_set] at hres
        split at hres
        · cases hres
          exact Nat.zero_le _
        · exact h.capped peer res hres }
  exact (hreserve.bridgeAll_refused hnone).1.of_eq rfl rfl fun _ _ hres => hres

/-- **A timer that fires** closes the account it was armed for, and the entry keeps its bytes. -/
theorem Balanced.timer (h : Balanced cfg s) {t : Timer} (ht : t ∈ s.relay.timers) :
    Balanced cfg { s with relay := s.relay.onTimer t } := by
  obtain ⟨a, ha, hserial⟩ := h.relay.timers t ht
  have hcircuits : (s.relay.onTimer t).circuits = s.relay.circuits.delete t.circuitId :=
    Relay.closeCircuit_circuits
  have hended : (s.relay.onTimer t).ended = a.serial :: s.relay.ended := by
    simp only [Relay.onTimer, Relay.closeCircuit, ha]
  refine ⟨h.relay.onTimer t, fun id a' ha' => ?_, fun id c hc hnone => ?_, h.counts, h.capped⟩
  · rw [hcircuits, get?_delete] at ha'
    split at ha'
    · cases ha'
    · exact h.accounts id a' ha'
  · rw [hended]
    rw [hcircuits, get?_delete] at hnone
    split at hnone
    · next heq =>
      subst heq
      obtain ⟨c', hc', hmatch⟩ := h.accounts t.circuitId a ha
      rw [hc] at hc'
      cases hc'
      exact hmatch.1 ▸ List.mem_cons_self
    · exact List.mem_cons_of_mem _ (h.ended id c hc hnone)

/-- **The two tables agree** as long as what is bridged follows the rules. -/
theorem Balanced.invariant : State.Invariant cfg (Ruled cfg) (Balanced cfg) where
  quiet h _ hq := h.of_eq hq.activeCircuits hq.relay (by rw [hq.reservations]; exact fun _ _ => id)
  close h hget hc := h.close hget hc
  touch h hget hb hbytes hr := h.touch hget hb hbytes hr
  send _ _ _ h := h.of_eq (by simp) (by simp) (by simp)
  grant {s s₁ channel} msg now h _ hok hq _ := by
    have h₁ : Balanced cfg s₁ := h.of_eq hq.activeCircuits hq.relay (by rw [hq.reservations]; exact fun _ _ => id)
    obtain ⟨hnone, hlive⟩ := hok.2 rfl
    refine h₁.grant ?_ (hq.relay ▸ hnone)
    rw [liveTo, hq.activeCircuits]
    exact hlive
  join {s channel target source res} now h _ hres _ hcount hok := by
    have hclaim : Balanced cfg (s.claim channel source) := h.of_eq rfl rfl fun _ _ => id
    obtain ⟨haccepts, hfresh⟩ := hok.1 rfl ⟨channel, source, now⟩ List.mem_cons_self
    exact hclaim.join rfl hres hcount haccepts (has_eq_false_iff.mp hfresh)
  shrink h hs := h.of_eq hs.activeCircuits hs.relay hs.reservations
  timer _ h ht := h.timer ht

end Steps

/-! ## Runs -/

/-- **Runs that follow the rules.** The relay's count of a peer is the number of its accounts, with no
entry for none, and within the cap; every entry has an account with the same bytes until one of the
two is closed; every reservation counts the live circuits bridged to its holder, and no more than the
cap; and a timer that is armed would close the account of the circuit it was armed for. -/
theorem run_balances (cfg : Config) (events : List Event) (s : State)
    (hrun : run (step cfg) State.init events = some s)
    (hruled : RunMeets (step cfg) (fun s e => ∀ b ∈ bridging cfg s e, Ruled cfg s b) State.init events) :
    (∀ peer, s.relay.circuitsPerPeer.get? peer =
      if s.relay.circuits.countOf Accounting.sourcePeerKey peer = 0 then none
      else some (s.relay.circuits.countOf Accounting.sourcePeerKey peer)) ∧
    (∀ peer, s.relay.circuits.countOf Accounting.sourcePeerKey peer ≤ cfg.relay.maxCircuitsPerPeer) ∧
    (∀ id c, s.activeCircuits.get? id = some c → (∃ a, s.relay.circuits.get? id = some a ∧ Matches a c) ∨
        (s.relay.circuits.get? id = none ∧ c.serial ∈ s.relay.ended)) ∧
    (∀ peer res, s.reservations.get? peer = some res →
      res.circuitCount = liveTo s peer ∧ res.circuitCount ≤ cfg.maxCircuitsPerPeer) ∧
    ∀ t ∈ s.relay.timers, ∃ a, s.relay.circuits.get? t.circuitId = some a ∧ a.serial = t.serial := by
  have h : Balanced cfg s := run_invariant _ (Balanced cfg)
    (fun _ _ _ h hok hstep => Balanced.invariant.step h hok hstep) Balanced.init hruled hrun
  refine ⟨h.relay.tallies, h.relay.capped, fun id c hc => ?_, fun peer res hres =>
    ⟨h.counts peer res hres, h.capped peer res hres⟩, h.relay.timers⟩
  cases ha : s.relay.circuits.get? id with
  | none => exact Or.inr ⟨rfl, h.ended id c hc ha⟩
  | some a =>
    obtain ⟨c', hc', hmatch⟩ := h.accounts id a ha
    rw [hc] at hc'
    cases hc'
    exact Or.inl ⟨a, rfl, hmatch⟩

/-- A frame, and a circuit of the third peer to the second. -/
theorem sample_balances : ∃ s, run (step sampleConfig) State.init
      (sampleCircuit ++ [sampleData 1 1, sampleConnect 3 2]) = some s ∧
    (s.reservations.get? (sampleKey 2)).map (fun res => res.circuitCount) = some 2 ∧
    ∀ peer res, s.reservations.get? peer = some res →
      res.circuitCount = liveTo s peer ∧ res.circuitCount ≤ sampleConfig.maxCircuitsPerPeer := by
  have hsample : ((run (step sampleConfig) State.init
      (sampleCircuit ++ [sampleData 1 1, sampleConnect 3 2])).any fun s =>
        (s.reservations.get? (sampleKey 2)).map (fun res => res.circuitCount) = some 2) = true := by
    decide +kernel
  obtain ⟨s, hrun, hcount⟩ := (any_eq_true _ _).mp hsample
  refine ⟨s, hrun, of_decide_eq_true hcount, ?_⟩
  exact (run_balances sampleConfig _ s hrun (by decide +kernel)).2.2.2.1

/-- The relay of the samples with room for one circuit. -/
def smallConfig : Config :=
  { sampleConfig with relay := { sampleConfig.relay with maxConnections := 1 } }

/-- A queued request is not counted; a second `RESERVE` counts from zero; a `CONNECT` is counted that
the relay refuses; and a second circuit of a source counts twice in its peer's count, and leaves the
timer of the first armed for its account. -/
theorem unruled_runs :
    (∃ s, run (step sampleConfig) State.init [.opens 1, .opens 2, sampleConnect 1 2, sampleReserve 2] =
      some s ∧ (s.reservations.get? (sampleKey 2)).map (fun res => res.circuitCount) = some 0 ∧
        liveTo s (sampleKey 2) = 1) ∧
    (∃ s, run (step sampleConfig) State.init (sampleCircuit ++ [sampleReserve 2]) = some s ∧
      (s.reservations.get? (sampleKey 2)).map (fun res => res.circuitCount) = some 0 ∧ liveTo s (sampleKey 2) = 1) ∧
    (∃ s, run (step smallConfig) State.init (sampleCircuit ++ [sampleConnect 3 2]) = some s ∧
      (s.reservations.get? (sampleKey 2)).map (fun res => res.circuitCount) = some 2 ∧ liveTo s (sampleKey 2) = 1) ∧
    ∃ s, run (step sampleConfig) State.init (sampleCircuit ++ [sampleConnect 1 3]) = some s ∧
      s.relay.circuitsPerPeer.get? (sampleKey 1) = some 2 ∧
        s.relay.circuits.countOf Accounting.sourcePeerKey (sampleKey 1) = 1 ∧
          ⟨0, prefixOf (sampleKey 1)⟩ ∈ s.relay.timers ∧
            (s.relay.circuits.get? (prefixOf (sampleKey 1))).map (fun a => a.serial) = some 1 := by
  have hsample : ∀ (cfg : Config) (events : List Event) (P : State → Prop) [DecidablePred P],
      ((run (step cfg) State.init events).any fun s => P s) = true →
        ∃ s, run (step cfg) State.init events = some s ∧ P s := by
    intro cfg events P _ h
    obtain ⟨s, hrun, hs⟩ := (any_eq_true _ _).mp h
    exact ⟨s, hrun, of_decide_eq_true hs⟩
  refine ⟨hsample _ _ _ ?_, hsample _ _ _ ?_, hsample _ _ _ ?_, hsample _ _ _ ?_⟩
  · decide +kernel
  · decide +kernel
  · decide +kernel
  · decide +kernel

end HiveRelay.Circuits
