import HiveRelay.Circuit.Relay
import HiveRelay.Lib.Run

/-!
# The circuit protocol

`CircuitRelay` connects peers that cannot reach each other. A peer reserves a place under its key; a
`CONNECT` that names the key is bridged to the channel of the reservation, or queued until the
reservation comes; both ends are told `READY` with the id of the circuit and the key of the other
end, and from then on a `DATA` frame on that id goes to the other end's channel.

Three fields of the state have no counterpart in the class, and no branch reads them: `sent` is what
the channels were sent, `claims` lists the keys each channel has passed the identity check for, and
`announced` the circuits that were bridged and for which `_closeCircuit` has not found an entry yet.
-/

namespace HiveRelay.Circuits

/-! ## Frames -/

abbrev Channel := ℕ

/-- The status codes of `ERR` that are sent here. -/
inductive Err
  | none
  | capacityFull
  | invalidRequest
  | notFound
  deriving DecidableEq

/-- The reasons `_closeCircuit` is called with. -/
inductive Reason
  | peerClosed
  | bytesExceeded
  | bandwidthExceeded
  | durationExceeded
  | frameTooLarge
  | forwardFailed
  | shutdown
  | rateExceeded

/-- `REASON_CODES` -/
def Reason.code : Reason → ℕ
  | .peerClosed => 1
  | .bytesExceeded => 2
  | .bandwidthExceeded => 3
  | .durationExceeded => 4
  | .frameTooLarge => 5
  | .forwardFailed => 6
  | .shutdown => 7
  | .rateExceeded => 8

inductive Wire
  | status (code : Err) (message : String)
  | data (circuitId : CircuitId) (data : Bytes)
  | ready (circuitId : CircuitId) (remotePubkey : Pubkey)
  | close (circuitId : CircuitId) (reason : ℕ)
  deriving DecidableEq

/-- `decodeFixedBytes`: the bytes and what follows them. -/
def decodeFixedBytes (size : ℕ) (error : String) (body : Bytes) :
    Except String ({ value : Bytes // value.length = size } × Bytes) :=
  if h : size ≤ body.length then .ok (⟨body.take size, by simp [h]⟩, body.drop size)
  else .error error

/-- `decodeBytes`, with `c.uint.decode` as the value it reads and what follows, if it reads one. -/
def decodeBytes (uint : Bytes → Option (ℕ × Bytes)) (maxBytes : ℕ)
    (tooLargeError malformedError : String) (body : Bytes) : Except String Bytes :=
  match uint body with
  | none => .error malformedError
  | some (len, rest) =>
    if maxSafeInteger < len then .error malformedError
    else if maxBytes < len then .error tooLargeError
    else if rest.length < len then .error malformedError
    else .ok (rest.take len)

/-- A decoded `RESERVE`. -/
structure ReserveMsg where
  peerPubkey : Pubkey
  (maxDurationMs maxBytes : ℕ)

/-- A decoded `CONNECT`. -/
structure ConnectMsg where
  (targetPubkey sourcePubkey : Option Pubkey)
  error : Option String

/-- A decoded `DATA` frame. -/
structure DataMsg where
  circuitId : Option CircuitId
  data : Option Bytes
  error : Option String

/-- `relayReserveEncoding.decode`; nothing when it throws. -/
def decodeRelayReserve (uint : Bytes → Option (ℕ × Bytes)) (body : Bytes) : Option ReserveMsg :=
  if h : 32 ≤ body.length then
    (uint (body.drop 32)).bind fun duration =>
      (uint duration.2).map fun bytes => ⟨⟨body.take 32, by simp [h]⟩, duration.1, bytes.1⟩
  else none

/-- `circuitConnectEncoding.decode` -/
def decodeCircuitConnect (body : Bytes) : ConnectMsg :=
  match decodeFixedBytes 32 "malformed connect" body with
  | .error error => ⟨none, none, some error⟩
  | .ok (target, rest) =>
    match decodeFixedBytes 32 "malformed connect" rest with
    | .error error => ⟨some target, none, some error⟩
    | .ok (source, _) => ⟨some target, some source, none⟩

/-- `MAX_CIRCUIT_DATA_MSG_BYTES` -/
def maxCircuitDataMsgBytes : ℕ := 64 * 1024

/-- `circuitDataEncoding.decode` -/
def decodeCircuitData (uint : Bytes → Option (ℕ × Bytes)) (body : Bytes) : DataMsg :=
  match decodeFixedBytes circuitIdBytes "malformed data" body with
  | .error error => ⟨none, none, some error⟩
  | .ok (circuitId, rest) =>
    match decodeBytes uint maxCircuitDataMsgBytes "frame too large" "malformed data" rest with
    | .error error => ⟨some circuitId, none, some error⟩
    | .ok data => ⟨some circuitId, some data, none⟩

/-! ## State -/

/-- What a relay is configured with, and what it takes from the code around it: the key the noise
stream of a channel has authenticated, and `c.uint.decode`. -/
structure Config where
  relay : RelayConfig
  (reservationTTL maxCircuitDuration maxCircuitBytes maxCircuitsPerPeer maxCircuitRateBytesPerSecond : ℕ)
  (maxDataMsgBytes maxReservesPerMin maxPendingConnects : ℕ)
  authenticatedKeyFor : Channel → Option Pubkey
  uint : Bytes → Option (ℕ × Bytes)

/-- A value of `reservations`. -/
structure Reservation where
  channel : Channel
  (expiresAt circuitCount maxDurationMs maxBytes : ℕ)

/-- A queued `CONNECT`. -/
structure Pending where
  sourceChannel : Channel
  sourcePubkey : Pubkey
  addedAt : ℕ

/-- The ends of a circuit; `serial` is the number the relay registered it under. -/
structure Bridge where
  serial : ℕ
  (sourceChannel destChannel : Channel)
  (sourcePubkey destPubkey : Pubkey)
  deriving DecidableEq

/-- A value of `activeCircuits`. -/
structure Circuit extends Bridge where
  (bytesRelayed startedAt maxBytes maxDurationMs : ℕ)
  window : RateWindow

/-- Whether a channel is an end of the circuit. -/
def Bridge.HasEnd (b : Bridge) (channel : Channel) : Prop :=
  channel = b.sourceChannel ∨ channel = b.destChannel
  deriving Decidable

/-- `otherChannel`: where what an end sends goes. -/
def Bridge.otherEnd (b : Bridge) (channel : Channel) : Channel :=
  if channel = b.sourceChannel then b.destChannel else b.sourceChannel

/-- The tables of `CircuitRelay`, the channels that are opened and that are closed, and the history
of what was sent, claimed and announced. -/
structure State where
  relay : Relay
  reservations : OrderedMap Pubkey Reservation
  pendingConnects : OrderedMap Pubkey (List Pending)
  activeCircuits : OrderedMap CircuitId Circuit
  reserveAttempts : OrderedMap Pubkey (List ℕ)
  (opened closed : List Channel)
  sent : List (Channel × Wire)
  claims : List (Channel × Pubkey)
  announced : List (CircuitId × Bridge)

/-- A new `CircuitRelay` over a new `Relay`. -/
def State.init : State where
  relay := .init
  reservations := .empty
  pendingConnects := .empty
  activeCircuits := .empty
  reserveAttempts := .empty
  opened := []
  closed := []
  sent := []
  claims := []
  announced := []

/-- The id `_bridgeCircuit` gives a circuit: the first bytes of the two keys. -/
def circuitIdOf (sourcePubkey destPubkey : Pubkey) : CircuitId :=
  ⟨(sourcePubkey.1 ++ destPubkey.1).take circuitIdBytes, by
    simp [circuitIdBytes, sourcePubkey.2, destPubkey.2]⟩

namespace State

/-! ## Methods -/

/-- A channel is sent a message; protomux drops what is sent on a closed channel. -/
def send (s : State) (channel : Channel) (message : Wire) : State :=
  if channel ∈ s.opened ∧ channel ∉ s.closed then { s with sent := s.sent ++ [(channel, message)] }
  else s

/-- `_sendStatus` -/
def sendStatus (s : State) (channel : Channel) (code : Err) (message : String) : State :=
  s.send channel (.status code message)

/-- `_sendReady` -/
def sendReady (s : State) (channel : Channel) (circuitId : CircuitId) (remotePubkey : Pubkey) :
    State :=
  s.send channel (.ready circuitId remotePubkey)

/-- The reservation of a peer counts one circuit less. -/
def releasePlace (s : State) (peer : Pubkey) : State :=
  match s.reservations.get? peer with
  | none => s
  | some reservation =>
    if 0 < reservation.circuitCount then
      { s with
        reservations := s.reservations.set peer
          { reservation with circuitCount := reservation.circuitCount - 1 } }
    else s

/-- `_closeCircuit` -/
def closeCircuit (s : State) (circuitId : CircuitId) (reason : Reason) : State :=
  match s.activeCircuits.get? circuitId with
  | none => s
  | some circuit =>
    let s :=
      { s with
        activeCircuits := s.activeCircuits.delete circuitId
        relay := s.relay.closeCircuit circuitId
        announced := s.announced.filter (· ≠ (circuitId, circuit.toBridge)) }.releasePlace circuit.destPubkey
    (s.send circuit.sourceChannel (.close circuitId reason.code)).send circuit.destChannel
      (.close circuitId reason.code)

/-- The entry `_bridgeCircuit` makes. -/
def newCircuit (cfg : Config) (serial : ℕ) (sourceChannel destChannel : Channel)
    (sourcePubkey destPubkey : Pubkey) (reservation : Option Reservation) (now : ℕ) : Circuit where
  serial := serial
  sourceChannel := sourceChannel
  destChannel := destChannel
  sourcePubkey := sourcePubkey
  destPubkey := destPubkey
  bytesRelayed := 0
  startedAt := now
  maxBytes :=
    hardCappedPositiveInteger ((reservation.map Reservation.maxBytes).getD 0) cfg.maxCircuitBytes cfg.maxCircuitBytes
  maxDurationMs :=
    hardCappedPositiveInteger ((reservation.map Reservation.maxDurationMs).getD 0)
      cfg.maxCircuitDuration cfg.maxCircuitDuration
  window := ⟨0, 0⟩

/-- The end of `_bridgeCircuit`: the circuit is entered and both ends are told. -/
def announce (s : State) (circuitId : CircuitId) (circuit : Circuit) : State :=
  let s :=
    { s with
      activeCircuits := s.activeCircuits.set circuitId circuit
      announced := s.announced ++ [(circuitId, circuit.toBridge)] }
  (s.sendReady circuit.sourceChannel circuitId circuit.destPubkey).sendReady circuit.destChannel
    circuitId circuit.sourcePubkey

/-- `_bridgeCircuit` -/
def bridgeCircuit (cfg : Config) (s : State) (sourceChannel destChannel : Channel)
    (sourcePubkey destPubkey : Pubkey) (reservation : Option Reservation) (now : ℕ) : State :=
  let circuitId := circuitIdOf sourcePubkey destPubkey
  let circuit :=
    newCircuit cfg s.relay.totalCircuitsServed sourceChannel destChannel sourcePubkey destPubkey reservation now
  let (relay, accepted) :=
    s.relay.registerCircuit cfg.relay circuitId sourcePubkey circuit.maxBytes now
  if !accepted then s.sendStatus sourceChannel .capacityFull "Relay at capacity"
  else { s with relay := relay }.announce circuitId circuit

/-- Whether the stream of a channel has authenticated another key. -/
def mismatch (cfg : Config) (channel : Channel) (key : Pubkey) : Bool :=
  match cfg.authenticatedKeyFor channel with
  | none => false
  | some authenticated => authenticated ≠ key

/-- A channel has passed the identity check for a key. -/
def claim (s : State) (channel : Channel) (key : Pubkey) : State :=
  { s with claims := (channel, key) :: s.claims }

/-- The reserve attempts of a peer in the last minute. -/
def recentAttempts (s : State) (peer : Pubkey) (now : ℕ) : List ℕ :=
  ((s.reserveAttempts.get? peer).getD []).filter fun t => now < t + 60000

/-- The reservation `_onReserve` grants. -/
def granted (cfg : Config) (channel : Channel) (msg : ReserveMsg) (now : ℕ) : Reservation where
  channel := channel
  expiresAt := now + cfg.reservationTTL
  circuitCount := 0
  maxDurationMs :=
    hardCappedPositiveInteger msg.maxDurationMs cfg.maxCircuitDuration cfg.maxCircuitDuration
  maxBytes := hardCappedPositiveInteger msg.maxBytes cfg.maxCircuitBytes cfg.maxCircuitBytes

/-- The queued requests for a peer are bridged to the channel of its reservation. -/
def bridgePending (cfg : Config) (s : State) (channel : Channel) (peer : Pubkey) (now : ℕ)
    (pending : List Pending) : State :=
  pending.foldl (fun s req =>
      s.bridgeCircuit cfg req.sourceChannel channel req.sourcePubkey peer (s.reservations.get? peer) now)
    s

/-- `_onReserve`, from the grant on. -/
def grantReserve (cfg : Config) (s : State) (channel : Channel) (msg : ReserveMsg) (now : ℕ) :
    State :=
  let s :=
    { s with
      reservations := s.reservations.set msg.peerPubkey (granted cfg channel msg now) }.sendStatus
        channel .none "Reservation granted"
  match s.pendingConnects.get? msg.peerPubkey with
  | none => s
  | some pending =>
    let s := s.bridgePending cfg channel msg.peerPubkey now pending
    { s with pendingConnects := s.pendingConnects.delete msg.peerPubkey }

/-- `_onReserve` -/
def onReserve (cfg : Config) (s : State) (channel : Channel) (msg : ReserveMsg) (now : ℕ) : State :=
  if mismatch cfg channel msg.peerPubkey then
    s.sendStatus channel .notFound "Peer identity mismatch"
  else
    let s := s.claim channel msg.peerPubkey
    let recent := s.recentAttempts msg.peerPubkey now
    if cfg.maxReservesPerMin ≤ recent.length then
      s.sendStatus channel .capacityFull "Reserve rate limited"
    else
      let s := { s with reserveAttempts := s.reserveAttempts.set msg.peerPubkey (recent ++ [now]) }
      if cfg.relay.maxConnections ≤ s.relay.circuits.size then
        s.sendStatus channel .capacityFull "Relay at capacity"
      else s.grantReserve cfg channel msg now

/-- The number of queued requests: `totalPending`. -/
def totalPending (s : State) : ℕ := s.pendingConnects.sumBy fun _ reqs => reqs.length

/-- The reservation of a peer, when it has one that has not expired. -/
def liveReservation (s : State) (peer : Pubkey) (now : ℕ) : Option Reservation :=
  (s.reservations.get? peer).filter fun reservation => now ≤ reservation.expiresAt

/-- `_onConnect`, for a message that has both keys. -/
def onConnectTo (cfg : Config) (s : State) (channel : Channel) (target source : Pubkey) (now : ℕ) :
    State :=
  if mismatch cfg channel source then s.sendStatus channel .notFound "Source identity mismatch"
  else
    let s := s.claim channel source
    if cfg.maxPendingConnects ≤ s.totalPending then
      s.sendStatus channel .capacityFull "Too many pending connects"
    else
      match s.liveReservation target now with
      | none =>
        let arr := (s.pendingConnects.get? target).getD []
        let req : Pending := ⟨channel, source, now⟩
        { s with pendingConnects := s.pendingConnects.set target (arr ++ [req]) }.sendStatus channel
          .notFound "No reservation for target peer (queued)"
      | some reservation =>
        if cfg.maxCircuitsPerPeer ≤ reservation.circuitCount then
          s.sendStatus channel .capacityFull "Max circuits per peer reached"
        else
          let s := s.bridgeCircuit cfg channel reservation.channel source target reservation now
          { s with
            reservations := s.reservations.set target
              { reservation with circuitCount := reservation.circuitCount + 1 } }

/-- `_onConnect` -/
def onConnect (cfg : Config) (s : State) (channel : Channel) (msg : ConnectMsg) (now : ℕ) : State :=
  match msg.error, msg.targetPubkey, msg.sourcePubkey with
  | none, some target, some source => s.onConnectTo cfg channel target source now
  | error, _, _ => s.sendStatus channel .invalidRequest (error.getD "Malformed connect")

/-- The last part of `_onCircuitData`: a frame that was charged goes to the other end. `throws` says
that `send` throws. -/
def forward (s : State) (channel : Channel) (circuitId : CircuitId) (circuit : Circuit)
    (data : Bytes) (throws : Bool) : State :=
  let otherChannel := circuit.otherEnd channel
  if otherChannel ∈ s.opened then
    if throws then s.closeCircuit circuitId .forwardFailed
    else s.send otherChannel (.data circuitId data)
  else s.closeCircuit circuitId .peerClosed

/-- `_onCircuitData`, for a frame that has an id and data. -/
def onCircuitFrame (cfg : Config) (s : State) (channel : Channel) (circuitId : CircuitId)
    (data : Bytes) (throws : Bool) (now : ℕ) : State :=
  match s.activeCircuits.get? circuitId with
  | none => s
  | some circuit =>
    if ¬circuit.HasEnd channel then s
    else if cfg.maxDataMsgBytes < data.length then s.closeCircuit circuitId .frameTooLarge
    else if circuit.startedAt + circuit.maxDurationMs < now then
      s.closeCircuit circuitId .durationExceeded
    else if circuit.maxBytes < circuit.bytesRelayed + data.length then
      s.closeCircuit circuitId .bytesExceeded
    else
      let (window, admitted) :=
        circuit.window.admit cfg.maxCircuitRateBytesPerSecond data.length now
      let circuit := { circuit with window := window }
      let s := { s with activeCircuits := s.activeCircuits.set circuitId circuit }
      if !admitted then s.closeCircuit circuitId .rateExceeded
      else
        let (relay, ok) := s.relay.recordCircuitBytes cfg.relay circuitId data.length now
        let s := { s with relay := relay }
        if !ok then s.closeCircuit circuitId .bandwidthExceeded
        else
          let circuit := { circuit with bytesRelayed := circuit.bytesRelayed + data.length }
          { s with activeCircuits := s.activeCircuits.set circuitId circuit }.forward channel circuitId
            circuit data throws

/-- `_onCircuitData` -/
def onCircuitData (cfg : Config) (s : State) (channel : Channel) (msg : DataMsg) (throws : Bool) (now : ℕ) : State :=
  match msg.error, msg.circuitId, msg.data with
  | none, some circuitId, some data => s.onCircuitFrame cfg channel circuitId data throws now
  | _, some circuitId, _ => s.closeCircuit circuitId .frameTooLarge
  | _, none, _ => s

/-- The circuits that `test` selects are closed, in the order of the table. -/
def closeWhere (s : State) (test : Circuit → Bool) (reason : Reason) : State :=
  (s.activeCircuits.entries.filter fun e => test e.2).foldl (fun s e => s.closeCircuit e.1 reason) s

/-- `_onChannelClose` -/
def onChannelClose (s : State) (channel : Channel) : State :=
  { s with
    reservations := s.reservations.filter fun _ res => res.channel ≠ channel }.closeWhere
      (fun circuit => circuit.HasEnd channel) .peerClosed

/-- The first loops of `_cleanupExpired`: expired reservations, and stale requests and attempts. -/
def expire (cfg : Config) (s : State) (now : ℕ) : State :=
  { s with
    reservations := s.reservations.filter fun _ res => now ≤ res.expiresAt
    pendingConnects :=
      (s.pendingConnects.mapValues fun reqs =>
        reqs.filter fun r => r.addedAt = 0 || now < r.addedAt + cfg.reservationTTL).filter
          fun _ reqs => reqs ≠ []
    reserveAttempts :=
      (s.reserveAttempts.mapValues fun attempts => attempts.filter fun t => now < t + 60000).filter
        fun _ attempts => attempts ≠ [] }

/-- `_cleanupExpired` -/
def cleanupExpired (cfg : Config) (s : State) (now : ℕ) : State :=
  (s.expire cfg now).closeWhere (fun circuit => circuit.startedAt + circuit.maxDurationMs < now) .durationExceeded

/-- `destroy` -/
def destroy (s : State) : State :=
  { s.closeWhere (fun _ => true) .shutdown with
    reservations := .empty
    pendingConnects := .empty
    reserveAttempts := .empty }

/-! ## What is bridged -/

/-- `_onReserve` gets to the grant. -/
def Grants (cfg : Config) (s : State) (channel : Channel) (msg : ReserveMsg) (now : ℕ) : Prop :=
  mismatch cfg channel msg.peerPubkey = false ∧ (s.recentAttempts msg.peerPubkey now).length < cfg.maxReservesPerMin ∧
      s.relay.circuits.size < cfg.relay.maxConnections

instance (cfg : Config) (s : State) (channel : Channel) (msg : ReserveMsg) (now : ℕ) :
    Decidable (s.Grants cfg channel msg now) :=
  inferInstanceAs (Decidable (_ ∧ _ ∧ _))

/-- The reservation `_onConnect` bridges to, when it gets there. -/
def reaches (cfg : Config) (s : State) (channel : Channel) (target source : Pubkey) (now : ℕ) :
    Option Reservation :=
  if mismatch cfg channel source = false ∧ s.totalPending < cfg.maxPendingConnects then
    (s.liveReservation target now).filter fun res => res.circuitCount < cfg.maxCircuitsPerPeer
  else none

end State

/-! ## Runs -/

/-- A message of a peer: its type and its bytes. `throws` says whether forwarding a frame throws. -/
inductive Frame
  | reserve (body : Bytes)
  | connect (body : Bytes)
  | data (body : Bytes) (throws : Bool)
  | other

/-- What can happen to a relay. `other` frames are `STATUS`, `READY` and `CLOSE`, which are emitted;
`stillOpened` is what `opened` of a closed channel reads afterwards. -/
inductive Event
  | opens (channel : Channel)
  | message (channel : Channel) (frame : Frame) (now : ℕ)
  | channelClose (channel : Channel) (stillOpened : Bool)
  | cleanupExpired (now : ℕ)
  | timer (timer : Timer)
  | destroy

/-- A message is decoded and handled; one that does not decode is not handled. -/
def State.onMessage (cfg : Config) (s : State) (channel : Channel) (frame : Frame) (now : ℕ) :
    State :=
  match frame with
  | .reserve body =>
    match decodeRelayReserve cfg.uint body with
    | none => s
    | some msg => s.onReserve cfg channel msg now
  | .connect body => s.onConnect cfg channel (decodeCircuitConnect body) now
  | .data body throws => s.onCircuitData cfg channel (decodeCircuitData cfg.uint body) throws now
  | .other => s

/-- What can happen to a relay: a channel opens once, peers send on channels that are open, and an
armed timer may fire. -/
def step (cfg : Config) (s : State) : Event → Option State
  | .opens channel =>
    if channel ∈ s.closed then none else some { s with opened := channel :: s.opened }
  | .message channel frame now =>
    if channel ∈ s.opened ∧ channel ∉ s.closed then some (s.onMessage cfg channel frame now) else none
  | .channelClose channel stillOpened =>
    some ({ s with
      closed := channel :: s.closed
      opened := if stillOpened then s.opened else s.opened.filter (· ≠ channel) }.onChannelClose channel)
  | .cleanupExpired now => some (s.cleanupExpired cfg now)
  | .timer timer =>
    if timer ∈ s.relay.timers then some { s with relay := s.relay.onTimer timer } else none
  | .destroy => some s.destroy

/-- What an event takes to `_bridgeCircuit`: requests, and the reservation they ask for. `direct` says
that the request is a `CONNECT` that found the reservation, which then counts it; queued requests are
not counted. -/
structure Bridging where
  direct : Bool
  destPubkey : Pubkey
  reservation : Reservation
  now : ℕ
  requests : List Pending

/-- What an event takes to `_bridgeCircuit`, if it gets there. -/
def bridging (cfg : Config) (s : State) : Event → Option Bridging
  | .message channel (.reserve body) now =>
    (decodeRelayReserve cfg.uint body).bind fun msg =>
      if s.Grants cfg channel msg now then
        some ⟨false, msg.peerPubkey, State.granted cfg channel msg now, now,
          (s.pendingConnects.get? msg.peerPubkey).getD []⟩
      else none
  | .message channel (.connect body) now =>
    match decodeCircuitConnect body with
    | ⟨some target, some source, none⟩ =>
      (s.reaches cfg channel target source now).map fun res =>
        ⟨true, target, res, now, [⟨channel, source, now⟩]⟩
    | _ => none
  | _ => none

namespace Bridging

variable (cfg : Config) (b : Bridging)

/-- The circuit a request is bridged to. -/
def circuit (serial : ℕ) (req : Pending) : Circuit :=
  State.newCircuit cfg serial req.sourceChannel b.reservation.channel req.sourcePubkey b.destPubkey
    (some b.reservation) b.now

def idOf (req : Pending) : CircuitId := circuitIdOf req.sourcePubkey b.destPubkey

/-- Those of the requests that the relay's caps let through, one after the other. -/
def admitted : Relay → List Pending → List Pending
  | _, [] => []
  | r, req :: rest =>
    if r.accepts cfg.relay req.sourcePubkey then
      req :: admitted (r.register cfg.relay (b.idOf req) req.sourcePubkey (b.circuit cfg 0 req).maxBytes b.now) rest
    else admitted r rest

/-- The requests are bridged, one after the other. -/
def bridgeAll (s : State) : List Pending → State
  | [] => s
  | req :: rest =>
    bridgeAll (s.bridgeCircuit cfg req.sourceChannel b.reservation.channel req.sourcePubkey b.destPubkey
        (some b.reservation) b.now) rest

end Bridging

end HiveRelay.Circuits
