import HiveRelay.Lib.Bytes
import HiveRelay.Lib.Tally

/-!
# The accounting of relayed circuits

`Relay` counts what the circuits of the circuit protocol use. `registerCircuit` admits a circuit
under the cap on all circuits and the cap on those of one peer, and arms a timer that closes the
accounting of the circuit's id; `recordCircuitBytes` charges a frame against the circuit's bytes, its
rate and the bandwidth of the whole relay; `closeCircuit` cancels the timer and gives the peer its
place back.

A circuit is known here by the number of circuits registered before it, which is also the handle of
its timer: the id alone does not tell two circuits apart.
-/

namespace HiveRelay.Circuits

open OrderedMap

abbrev Pubkey := { key : Bytes // key.length = 32 }

/-- `CIRCUIT_ID_BYTES` -/
def circuitIdBytes : ℕ := 16

abbrev CircuitId := { id : Bytes // id.length = circuitIdBytes }

/-- What a circuit has sent in the current second: `rateWindowStartedAt`, `rateWindowBytes`. -/
structure RateWindow where
  (startedAt bytes : ℕ)

/-- `_admitCircuitRate`, which both classes have: a window that is over starts anew, also when the
frame is then refused. -/
def RateWindow.admit (maxRate : ℕ) (w : RateWindow) (bytes now : ℕ) : RateWindow × Bool :=
  if maxRate = 0 then (w, true)
  else
    let w := if w.startedAt + 1000 ≤ now then ⟨now, 0⟩ else w
    if maxRate < w.bytes + bytes then (w, false) else ({ w with bytes := w.bytes + bytes }, true)

/-- What `Relay` is configured with. -/
structure RelayConfig where
  (maxConnections maxCircuitsPerPeer maxCircuitBytes maxCircuitRateBytesPerSecond maxBandwidthBytes : ℕ)

/-- `_bandwidthWindowSec` -/
def bandwidthWindowSec : ℕ := 60

/-- A value of `circuits`. `serial` is the number of circuits registered before this one, and the
handle of its timer. -/
structure Accounting where
  serial : ℕ
  sourcePeerKey : Pubkey
  (bytesRelayed startedAt maxBytes : ℕ)
  window : RateWindow

/-- An armed duration timer: its handle and the id its callback closes. -/
structure Timer where
  serial : ℕ
  circuitId : CircuitId
  deriving DecidableEq

/-- The fields of `Relay`; `ended` lists the circuits whose accounting `closeCircuit` has closed. -/
structure Relay where
  circuits : OrderedMap CircuitId Accounting
  circuitsPerPeer : OrderedMap Pubkey ℕ
  (totalBytesRelayed totalCircuitsServed : ℕ)
  bandwidthBuckets : OrderedMap ℕ ℕ
  (bandwidthTotal bandwidthLastPruneSec : ℤ)
  timers : List Timer
  ended : List ℕ

/-- A new `Relay`. -/
def Relay.init : Relay where
  circuits := .empty
  circuitsPerPeer := .empty
  totalBytesRelayed := 0
  totalCircuitsServed := 0
  bandwidthBuckets := .empty
  bandwidthTotal := 0
  bandwidthLastPruneSec := -1
  timers := []
  ended := []

/-- `Number.MAX_SAFE_INTEGER` -/
def maxSafeInteger : ℕ := 2 ^ 53 - 1

/-- `positiveInteger`; a value is a number the caller has. -/
def positiveInteger (value fallback : ℕ) : ℕ :=
  if value ≤ maxSafeInteger ∧ 0 < value then value else fallback

/-- `hardCappedPositiveInteger` -/
def hardCappedPositiveInteger (value fallback hardCap : ℕ) : ℕ :=
  min (positiveInteger value fallback) hardCap

namespace Relay

/-- `_pruneBandwidth`: the buckets before the window go, up to the first one within it. -/
def pruneBandwidth (r : Relay) (nowSec : ℕ) : Relay :=
  if (nowSec : ℤ) = r.bandwidthLastPruneSec then r
  else
    let old := r.bandwidthBuckets.entries.takeWhile fun e => e.1 + bandwidthWindowSec < nowSec
    { r with
      bandwidthLastPruneSec := nowSec
      bandwidthTotal := old.foldl (fun total e => total - e.2) r.bandwidthTotal
      bandwidthBuckets := old.foldl (fun buckets e => buckets.delete e.1) r.bandwidthBuckets }

/-- `_addBandwidth` -/
def addBandwidth (r : Relay) (bytes nowSec : ℕ) : Relay :=
  { r with
    bandwidthBuckets :=
      r.bandwidthBuckets.set nowSec ((r.bandwidthBuckets.get? nowSec).getD 0 + bytes)
    bandwidthTotal := r.bandwidthTotal + bytes }

/-- The two caps `registerCircuit` checks. -/
def accepts (cfg : RelayConfig) (r : Relay) (sourcePeerKey : Pubkey) : Bool :=
  r.circuits.size < cfg.maxConnections && (r.circuitsPerPeer.get? sourcePeerKey).getD 0 < cfg.maxCircuitsPerPeer

/-- The entry `registerCircuit` makes. -/
def newAccounting (cfg : RelayConfig) (serial : ℕ) (sourcePeerKey : Pubkey) (maxBytes now : ℕ) : Accounting where
  serial := serial
  sourcePeerKey := sourcePeerKey
  bytesRelayed := 0
  startedAt := now
  maxBytes := hardCappedPositiveInteger maxBytes cfg.maxCircuitBytes cfg.maxCircuitBytes
  window := ⟨0, 0⟩

/-- `registerCircuit`, when the caps allow it. -/
def register (cfg : RelayConfig) (r : Relay) (circuitId : CircuitId) (sourcePeerKey : Pubkey)
    (maxBytes now : ℕ) : Relay :=
  { r with
    circuitsPerPeer := r.circuitsPerPeer.increment sourcePeerKey
    circuits :=
      r.circuits.set circuitId (newAccounting cfg r.totalCircuitsServed sourcePeerKey maxBytes now)
    timers := ⟨r.totalCircuitsServed, circuitId⟩ :: r.timers
    totalCircuitsServed := r.totalCircuitsServed + 1 }

/-- `registerCircuit` -/
def registerCircuit (cfg : RelayConfig) (r : Relay) (circuitId : CircuitId) (sourcePeerKey : Pubkey)
    (maxBytes now : ℕ) : Relay × Bool :=
  if r.accepts cfg sourcePeerKey then (r.register cfg circuitId sourcePeerKey maxBytes now, true)
  else (r, false)

/-- `recordCircuitBytes` -/
def recordCircuitBytes (cfg : RelayConfig) (r : Relay) (circuitId : CircuitId) (bytes now : ℕ) : Relay × Bool :=
  match r.circuits.get? circuitId with
  | none => (r, false)
  | some circuit =>
    if circuit.maxBytes < circuit.bytesRelayed + bytes then (r, false)
    else
      let (window, admitted) := circuit.window.admit cfg.maxCircuitRateBytesPerSecond bytes now
      let windowed := { circuit with window := window }
      if !admitted then ({ r with circuits := r.circuits.set circuitId windowed }, false)
      else
        let r := { r with circuits := r.circuits.set circuitId windowed }.pruneBandwidth (now / 1000)
        if (cfg.maxBandwidthBytes : ℤ) < r.bandwidthTotal then (r, false)
        else
          let charged := { windowed with bytesRelayed := circuit.bytesRelayed + bytes }
          let r :=
            { r with
              circuits := r.circuits.set circuitId charged
              totalBytesRelayed := r.totalBytesRelayed + bytes }
          (r.addBandwidth bytes (now / 1000), true)

/-- `closeCircuit` -/
def closeCircuit (r : Relay) (circuitId : CircuitId) : Relay :=
  match r.circuits.get? circuitId with
  | none => r
  | some circuit =>
    { r with
      timers := r.timers.filter fun t => t.serial ≠ circuit.serial
      circuits := r.circuits.delete circuitId
      circuitsPerPeer := r.circuitsPerPeer.decrement circuit.sourcePeerKey
      ended := circuit.serial :: r.ended }

/-- A duration timer fires: it is no longer armed, and its callback closes the id it was armed for. -/
def onTimer (r : Relay) (timer : Timer) : Relay :=
  { r with timers := r.timers.filter fun t => t.serial ≠ timer.serial }.closeCircuit timer.circuitId

section Calls

variable {cfg : RelayConfig} {r : Relay} {circuitId : CircuitId}

@[simp] theorem pruneBandwidth_circuits (nowSec : ℕ) : (r.pruneBandwidth nowSec).circuits = r.circuits := by
  unfold pruneBandwidth
  split <;> rfl

@[simp] theorem pruneBandwidth_circuitsPerPeer (nowSec : ℕ) :
    (r.pruneBandwidth nowSec).circuitsPerPeer = r.circuitsPerPeer := by
  unfold pruneBandwidth
  split <;> rfl

@[simp] theorem pruneBandwidth_timers (nowSec : ℕ) : (r.pruneBandwidth nowSec).timers = r.timers := by
  unfold pruneBandwidth
  split <;> rfl

@[simp] theorem pruneBandwidth_ended (nowSec : ℕ) : (r.pruneBandwidth nowSec).ended = r.ended := by
  unfold pruneBandwidth
  split <;> rfl

/-- What `recordCircuitBytes` does to the tables: the entry of the id is charged with the bytes when
the answer is true and with none when it is not, and keeps its place and its owner. -/
structure Recorded (r : Relay) (circuitId : CircuitId) (bytes : ℕ) (r' : Relay) (ok : Bool) :
    Prop where
  circuitsPerPeer : r'.circuitsPerPeer = r.circuitsPerPeer
  timers : r'.timers = r.timers
  ended : r'.ended = r.ended
  unknown : r.circuits.get? circuitId = none → ok = false ∧ r'.circuits = r.circuits
  known : ∀ c, r.circuits.get? circuitId = some c → ∃ c', r'.circuits = r.circuits.set circuitId c' ∧
    c'.serial = c.serial ∧ c'.sourcePeerKey = c.sourcePeerKey ∧
      c'.bytesRelayed = c.bytesRelayed + if ok then bytes else 0

theorem recorded_recordCircuitBytes (cfg : RelayConfig) (r : Relay) (circuitId : CircuitId) (bytes now : ℕ) :
    Recorded r circuitId bytes (r.recordCircuitBytes cfg circuitId bytes now).1
      (r.recordCircuitBytes cfg circuitId bytes now).2 := by
  cases hc : r.circuits.get? circuitId with
  | none => constructor <;> simp [recordCircuitBytes, hc]
  | some c =>
    have hself : r.circuits.set circuitId c = r.circuits := set_of_get? hc
    simp only [recordCircuitBytes, hc]
    split
    · exact ⟨rfl, rfl, rfl, by simp [hc], fun c' h => ⟨c, by simp_all⟩⟩
    · split
      · exact ⟨rfl, rfl, rfl, by simp [hc], fun c' h => ⟨_, rfl, by simp_all⟩⟩
      · split
        · exact ⟨by simp, by simp, by simp, by simp [hc], fun c' h => ⟨_, by simp; rfl, by simp_all⟩⟩
        · exact ⟨by simp [addBandwidth], by simp [addBandwidth], by simp [addBandwidth], by simp [hc],
            fun c' h => ⟨_, by simp [addBandwidth, set_set]; rfl, by simp_all⟩⟩

theorem recorded_self (r : Relay) (circuitId : CircuitId) (bytes : ℕ) : Recorded r circuitId bytes r false :=
  ⟨rfl, rfl, rfl, fun _ => ⟨rfl, rfl⟩, fun c hc => ⟨c, by simp [set_of_get? hc]⟩⟩

@[simp] theorem closeCircuit_circuits : (r.closeCircuit circuitId).circuits = r.circuits.delete circuitId := by
  cases hc : r.circuits.get? circuitId with
  | none => simp only [closeCircuit, hc, delete_of_get?_eq_none hc]
  | some c => simp only [closeCircuit, hc]

theorem mem_ended_closeCircuit {serial : ℕ} (h : serial ∈ r.ended) : serial ∈ (r.closeCircuit circuitId).ended := by
  cases hc : r.circuits.get? circuitId with
  | none => simpa only [closeCircuit, hc] using h
  | some c => simpa only [closeCircuit, hc] using List.mem_cons_of_mem _ h

end Calls

/-! ## The counts and the timers -/

/-- The peers' counts are those of the circuits and within the cap, and an armed timer belongs to the
circuit that has its id. -/
structure Accounted (cfg : RelayConfig) (r : Relay) : Prop where
  tallies : r.circuitsPerPeer.Tallies Accounting.sourcePeerKey r.circuits
  capped : ∀ peer, r.circuits.countOf Accounting.sourcePeerKey peer ≤ cfg.maxCircuitsPerPeer
  timers : ∀ t ∈ r.timers, ∃ c, r.circuits.get? t.circuitId = some c ∧ c.serial = t.serial

section Accounted

variable {cfg : RelayConfig} {r : Relay} {circuitId : CircuitId}

theorem Accounted.init : Accounted cfg Relay.init :=
  ⟨tallies_empty, fun _ => Nat.zero_le _, by simp [Relay.init]⟩

/-- **A circuit under an id that has none** is counted for its peer, and its timer is the only one
that is armed for the id. -/
theorem Accounted.register (h : Accounted cfg r) (hid : r.circuits.get? circuitId = none)
    {source : Pubkey} (hcap : r.accepts cfg source = true) (maxBytes now : ℕ) :
    Accounted cfg (r.register cfg circuitId source maxBytes now) where
  tallies := h.tallies.set (v := newAccounting cfg r.totalCircuitsServed source maxBytes now) hid
  capped peer := by
    have hpeer := h.capped peer
    have hlt : r.circuits.countOf Accounting.sourcePeerKey source < cfg.maxCircuitsPerPeer := by
      rw [← h.tallies.getD]
      simpa [accepts] using (Bool.and_eq_true_iff.mp hcap).2
    change (r.circuits.set circuitId _).countOf _ peer ≤ _
    rw [countOf_set hid]
    split
    · next heq =>
      have hsource : source = peer := heq
      exact hsource ▸ hlt
    · exact hpeer
  timers := by
    intro t ht
    obtain rfl | ht := List.mem_cons.mp ht
    · exact ⟨_, get?_set_self, rfl⟩
    · obtain ⟨c, hc, hserial⟩ := h.timers t ht
      have hne : t.circuitId ≠ circuitId := by
        rintro heq
        rw [heq, hid] at hc
        cases hc
      exact ⟨c, (get?_set_of_ne hne).trans hc, hserial⟩

/-- **A frame that is recorded** changes the bytes of an account and no more. -/
theorem Accounted.recorded (h : Accounted cfg r) {bytes : ℕ} {r' : Relay} {charged : Bool}
    (hr : Recorded r circuitId bytes r' charged) : Accounted cfg r' := by
  cases hc : r.circuits.get? circuitId with
  | none =>
    obtain ⟨-, hcircuits⟩ := hr.unknown hc
    refine ⟨?_, ?_, ?_⟩
    · rw [hr.circuitsPerPeer, hcircuits]
      exact h.tallies
    · rw [hcircuits]
      exact h.capped
    · rw [hr.timers, hcircuits]
      exact h.timers
  | some c =>
    obtain ⟨c', hcircuits, hserial, howner, -⟩ := hr.known c hc
    refine ⟨?_, ?_, ?_⟩
    · rw [hr.circuitsPerPeer, hcircuits]
      exact h.tallies.update hc howner
    · intro peer
      rw [hcircuits, countOf_update hc howner]
      exact h.capped peer
    · intro t ht
      rw [hr.timers] at ht
      obtain ⟨d, hd, htd⟩ := h.timers t ht
      rw [hcircuits, get?_set]
      split
      · next heq =>
        rw [heq, hc] at hd
        cases hd
        exact ⟨c', rfl, hserial.trans htd⟩
      · exact ⟨d, hd, htd⟩

/-- **An account that is closed** takes its timer along. -/
theorem Accounted.closeCircuit (h : Accounted cfg r) : Accounted cfg (r.closeCircuit circuitId) := by
  cases hc : r.circuits.get? circuitId with
  | none => simpa only [Relay.closeCircuit, hc] using h
  | some c =>
    simp only [Relay.closeCircuit, hc]
    refine ⟨h.tallies.delete hc, fun peer => ?_, fun t ht => ?_⟩
    · have hpeer := h.capped peer
      rw [countOf_delete _ _ hc] at hpeer
      exact le_of_add_le_left hpeer
    · obtain ⟨hmem, hne⟩ := List.mem_filter.mp ht
      obtain ⟨d, hd, htd⟩ := h.timers t hmem
      refine ⟨d, (get?_delete_of_ne ?_).trans hd, htd⟩
      rintro heq
      rw [heq, hc] at hd
      cases hd
      simp [htd] at hne

theorem Accounted.onTimer (h : Accounted cfg r) (timer : Timer) : Accounted cfg (r.onTimer timer) :=
  Accounted.closeCircuit ⟨h.tallies, h.capped, fun t ht => h.timers t (List.mem_filter.mp ht).1⟩

end Accounted

end Relay

end HiveRelay.Circuits
