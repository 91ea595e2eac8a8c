import Mathlib.Logic.Function.Basic
import HiveRelay.Stream.Ledger

/-!
# A forwarded circuit

`ForwardCircuit` relays the frames of a caller to the next hop and back. A frame that arrives is
prepared at once: its sequence, its offset and the credit of the side that sends it are checked, and
its bytes are counted and reserved in the session of the circuit. It is then delivered, one after the
other for each side, by a write to the port of the other side that may take its time and may fail.

The codec of the frames is a parameter. What was accepted, written and completed is kept on record;
no method looks at it.
-/

namespace HiveRelay.Stream

/-! ### Registered classes -/

/-- `FORWARD_SIDE`. -/
inductive Side where
  | caller | nextHop
  deriving DecidableEq

def Side.opposite : Side → Side
  | .caller => .nextHop
  | .nextHop => .caller

/-- An entry of `FORWARD_CIRCUIT_CLASS`. -/
structure CircuitClass where
  (grantedInitialWindow maxCircuitBytes idleMillis lifetimeMillis : ℕ)

def forwardCircuitClass : ℕ → Option CircuitClass
  | 1 => some ⟨64 * 1024, 16 * 1024 * 1024, 30000, 10 * 60000⟩
  | 2 => some ⟨256 * 1024, 64 * 1024 * 1024, 60000, 30 * 60000⟩
  | 3 => some ⟨1024 * 1024, 256 * 1024 * 1024, 120000, 60 * 60000⟩
  | _ => none

def streamWireClass : ℕ → Option ℕ
  | 1 => some (4 * 1024)
  | 2 => some (16 * 1024)
  | 3 => some 65535
  | _ => none

/-- `FRAME_KIND.STREAM`. -/
def frameKindStream : ℕ := 4

/-- `OPERATION.FORWARD.DATA`. -/
def operationForwardData : ℕ := 2

/-- `OPERATION.FORWARD.WINDOW`. -/
def operationForwardWindow : ℕ := 3

/-- `OPERATION.FORWARD.CLOSE`. -/
def operationForwardClose : ℕ := 4

/-- `FORWARD_CLOSE_KIND.FIN`. -/
def forwardCloseKindFin : ℕ := 1

def maxForwardWindowBytes : ℕ := 1024 * 1024

/-! ### Frames -/

section Values

variable (B : Type)

structure DispatchFrame where
  (frameKind familyId operationId : ℕ)
  requestId : B
  (streamId sequence : ℕ)
  body : B

/-- `BlindForwardDataV1`; the bytes by their length. -/
structure ForwardData where
  circuitNonce : B
  (offset byteLength : ℕ)

/-- `BlindForwardWindowV1`. -/
structure ForwardWindow where
  circuitNonce : B
  (consumedThrough creditIncrement : ℕ)

/-- `BlindForwardCloseV1`. -/
structure ForwardClose where
  circuitNonce : B
  (closeKind finalSendOffset : ℕ)

/-- The body of a frame of an open circuit. -/
inductive ActiveBody where
  | data (d : ForwardData B)
  | window (w : ForwardWindow B)
  | close (c : ForwardClose B)

structure ForwardWire where
  zeroRequestId : B
  decodeDispatchFrame : B → Except Failure (DispatchFrame B)
  encodeDispatchFrame : DispatchFrame B → Except Failure B
  decodeData : B → Except Failure (ForwardData B)
  decodeWindow : B → Except Failure (ForwardWindow B)
  decodeClose : B → Except Failure (ForwardClose B)

/-- What `_prepare` returns, with the frame it was made from. -/
structure Prepared where
  frame : DispatchFrame B
  body : ActiveBody B
  outbound : B
  /-- The number of the reservation of the scope. -/
  reservation : Option ℕ
  abortAfterDelivery : Bool

/-- What `streamState` returns. -/
structure Direction where
  (nextSequence nextOffset consumedThrough : ℕ)
  availableCredit : ℤ
  fin : Bool

/-- A `ForwardCircuit`. What is kept for the frames of a side stands under that side. -/
structure Circuit where
  scope : ℕ
  circuitNonce : B
  (callerStreamId nextStreamId maxDataBytes : ℕ)
  limits : CircuitClass
  states : Side → Direction
  /-- There is a port for the caller. -/
  attached : Bool
  /-- The frames whose delivery has not started. -/
  waiting : Side → List (Prepared B)
  /-- The frame whose write has not settled. -/
  flight : Side → Option (Prepared B)
  /-- On record: the frames that were accepted. -/
  accepted : Side → List (Prepared B)
  /-- On record: the frames that were handed to the port of the other side. -/
  written : Side → List (Prepared B)
  /-- On record: the frames whose write succeeded. -/
  completed : Side → List (Prepared B)
  /-- On record: a frame was not accepted. -/
  rejected : Bool
  /-- On record: the circuit closed the scope with the reason `clean-fin`. -/
  cleanFin : Bool

/-- A circuit and the plane of its scope. -/
structure Relay where
  plane : Plane B
  circuit : Circuit B

end Values

variable {B : Type} [DecidableEq B]

abbrev RelayOp (B α : Type) : Type := Act (Relay B) Failure α

def ActiveBody.circuitNonce : ActiveBody B → B
  | .data d => d.circuitNonce
  | .window w => w.circuitNonce
  | .close c => c.circuitNonce

def ActiveBody.isFin : ActiveBody B → Bool
  | .close c => c.closeKind = forwardCloseKindFin
  | _ => false

def ActiveBody.dataLength : ActiveBody B → ℕ
  | .data d => d.byteLength
  | _ => 0

def ActiveBody.isData : ActiveBody B → Bool
  | .data _ => true
  | _ => false

def streamState (initialWindow : ℕ) : Direction := ⟨0, 0, 0, initialWindow, false⟩

/-- The constructor of `ForwardCircuit`. -/
def newCircuit (scope : ℕ) (circuitNonce : B) (callerStreamId nextStreamId wireClass circuitClass : ℕ) :
    Except Failure (Circuit B) := do
  let callerStreamId ← u64 callerStreamId "callerStreamId"
  let nextStreamId ← u64 nextStreamId "nextStreamId"
  require (callerStreamId ≠ 0 ∧ nextStreamId ≠ 0) (failure .badEncoding "FORWARD stream IDs must be nonzero")
  let unregistered := failure .badEncoding "FORWARD class is not registered"
  let maxDataBytes ← demand (streamWireClass wireClass) unregistered
  let limits ← demand (forwardCircuitClass circuitClass) unregistered
  pure
    { scope := scope
      circuitNonce := circuitNonce
      callerStreamId := callerStreamId
      nextStreamId := nextStreamId
      maxDataBytes := maxDataBytes
      limits := limits
      states := fun _ => streamState limits.grantedInitialWindow
      attached := false
      waiting := fun _ => []
      flight := fun _ => none
      accepted := fun _ => []
      written := fun _ => []
      completed := fun _ => []
      rejected := false
      cleanFin := false }

/-- The session that `ForwardStreamService.open` creates for a circuit. -/
def circuitSession (cfg : PlaneConfig B) (callerStreamId : ℕ) (tuple : CircuitClass)
    (maxDataBytes : ℕ) (readiness : Option (Readiness B)) : SessionOptions B where
  family := familyForward
  streamId := callerStreamId
  maxBytes := tuple.maxCircuitBytes
  maxBufferedBytes :=
    some (min cfg.maxPerStreamBufferedBytes (tuple.grantedInitialWindow + maxDataBytes))
  idleMillis := some tuple.idleMillis
  lifetimeMillis := some tuple.lifetimeMillis
  readiness := readiness

/-- The stream id that the frames of a side carry. -/
def Circuit.streamId (c : Circuit B) : Side → ℕ
  | .caller => c.callerStreamId
  | .nextHop => c.nextStreamId

def Circuit.hasPort (c : Circuit B) : Side → Bool
  | .caller => c.attached
  | .nextHop => true

def Relay.setState (r : Relay B) (side : Side) (d : Direction) : Relay B :=
  { r with circuit := { r.circuit with states := Function.update r.circuit.states side d } }

def Relay.closeScope (r : Relay B) (reason : String) : Relay B :=
  { r with plane := r.plane.closeScope r.circuit.scope reason }

def onPlane {α : Type} (x : PlaneOp B α) : RelayOp B α := fun r =>
  ((x r.plane).1, { r with plane := (x r.plane).2 })

/-! ### Frames that arrive -/

/-- The readings of the clock and the answers of `isReady` while a frame is prepared, in the order
in which `_prepare` takes them. -/
structure Looks where
  (active count again : Look)
  reading : Option ℕ
  reserve : Look

def decodeActiveBody (wire : ForwardWire B) (frame : DispatchFrame B) : Except Failure (ActiveBody B) :=
  if frame.operationId = operationForwardData then .data <$> wire.decodeData frame.body
  else if frame.operationId = operationForwardWindow then .window <$> wire.decodeWindow frame.body
  else if frame.operationId = operationForwardClose then .close <$> wire.decodeClose frame.body
  else .error (failure .badEncoding "FORWARD active frame has an unknown operation")

section Methods

variable (cfg : PlaneConfig B) (wire : ForwardWire B)

/-- `_prepare`, where the frame is DATA. -/
def prepareData (side : Side) (d : ForwardData B) (looks : Looks) : RelayOp B (Option ℕ × Bool) := do
  let r ← Act.get
  let state := r.circuit.states side
  Act.ofExcept (require (state.fin = false) (failure .retryTerminal "FORWARD DATA followed FIN"))
  Act.ofExcept (require (d.offset = state.nextOffset) (failure .badEncoding "FORWARD DATA offset is not exact"))
  Act.ofExcept (require (d.byteLength ≤ r.circuit.maxDataBytes)
    (failure .tooLarge "FORWARD DATA exceeds the negotiated wire class"))
  Act.ofExcept (require (d.byteLength ≤ state.availableCredit)
    (failure .tooLarge "FORWARD DATA exceeds receiver credit"))
  onPlane (countBytes r.circuit.scope d.byteLength looks.count looks.again looks.reading)
  let reservation ← onPlane (reserveBuffer cfg r.circuit.scope d.byteLength looks.reserve)
  Act.modify fun r => r.setState side
    { state with
      nextOffset := state.nextOffset + d.byteLength
      availableCredit := state.availableCredit - d.byteLength }
  pure (some reservation, false)

/-- `_prepare`, where the frame is WINDOW: it is about what the other side has sent. -/
def prepareWindow (side : Side) (w : ForwardWindow B) (looks : Looks) : RelayOp B (Option ℕ × Bool) := do
  let r ← Act.get
  let sent := r.circuit.states side.opposite
  Act.ofExcept (require (sent.consumedThrough < w.consumedThrough ∧ w.consumedThrough ≤ sent.nextOffset)
    (failure .badEncoding "FORWARD WINDOW consumedThrough is not a strict sent-byte advance"))
  Act.ofExcept (require (w.creditIncrement ≤ w.consumedThrough - sent.consumedThrough)
    (failure .badEncoding "FORWARD WINDOW grants bytes that were not released"))
  let nextAvailable := sent.availableCredit + w.creditIncrement
  let remainingOutstanding := sent.nextOffset - w.consumedThrough
  Act.ofExcept (require (nextAvailable ≤ maxForwardWindowBytes ∧
      nextAvailable + remainingOutstanding ≤ maxForwardWindowBytes)
    (failure .tooLarge "FORWARD WINDOW raises active credit above one MiB"))
  Act.modify fun r => r.setState side.opposite
    { sent with consumedThrough := w.consumedThrough, availableCredit := nextAvailable }
  onPlane (touch r.circuit.scope looks.count looks.reading)
  pure (none, false)

/-- `_prepare`, where the frame is CLOSE. -/
def prepareClose (side : Side) (c : ForwardClose B) (looks : Looks) : RelayOp B (Option ℕ × Bool) := do
  let r ← Act.get
  let state := r.circuit.states side
  Act.ofExcept (require (c.finalSendOffset = state.nextOffset)
    (failure .badEncoding "FORWARD CLOSE final offset does not match"))
  if c.closeKind = forwardCloseKindFin then do
    Act.ofExcept (require (state.fin = false) (failure .retryTerminal "FORWARD send side already sent FIN"))
    Act.modify fun r => r.setState side { state with fin := true }
    onPlane (touch r.circuit.scope looks.count looks.reading)
    pure (none, false)
  else pure (none, true)

/-- `_prepare`, by the kind of the frame. -/
def prepareBody (side : Side) (looks : Looks) : ActiveBody B → RelayOp B (Option ℕ × Bool)
  | .data d => prepareData cfg side d looks
  | .window w => prepareWindow side w looks
  | .close c => prepareClose side c looks

/-- The frame that is written for one that was accepted. -/
def forwarded (c : Circuit B) (side : Side) (frame : DispatchFrame B) : DispatchFrame B where
  __ := frame
  frameKind := frameKindStream
  familyId := familyForward
  requestId := wire.zeroRequestId
  streamId := c.streamId side.opposite

def prepare (side : Side) (raw : B) (looks : Looks) : RelayOp B (Prepared B) := do
  let r ← Act.get
  let _ ← onPlane (assertActive r.circuit.scope looks.active)
  let frame ← Act.ofExcept (wire.decodeDispatchFrame raw)
  Act.ofExcept (require (frame.frameKind = frameKindStream ∧ frame.familyId = familyForward ∧
      frame.streamId = r.circuit.streamId side)
    (failure .badEncoding "FORWARD active frame is bound to another stream"))
  let state := r.circuit.states side
  Act.ofExcept (require (frame.sequence = state.nextSequence)
    (failure .badEncoding "FORWARD sequence is not exact +1"))
  Act.modify fun r => r.setState side { state with nextSequence := state.nextSequence + 1 }
  let body ← Act.ofExcept (decodeActiveBody wire frame)
  Act.ofExcept (require (body.circuitNonce = r.circuit.circuitNonce)
    (failure .badEncoding "FORWARD circuit nonce changed"))
  let (reservation, abortAfterDelivery) ← prepareBody cfg side looks body
  let outbound ← Act.ofExcept (wire.encodeDispatchFrame (forwarded wire r.circuit side frame))
  pure ⟨frame, body, outbound, reservation, abortAfterDelivery⟩

/-- A frame joins the queue of its side. -/
def Circuit.enqueue (c : Circuit B) (side : Side) (p : Prepared B) : Circuit B :=
  { c with
    waiting := Function.update c.waiting side (c.waiting side ++ [p])
    accepted := Function.update c.accepted side (c.accepted side ++ [p]) }

def Relay.reject (r : Relay B) : Relay B :=
  { r.closeScope "malformed-forward-frame" with circuit := { r.circuit with rejected := true } }

def receive (side : Side) (raw : B) (looks : Looks) (r : Relay B) : Relay B :=
  match prepare cfg wire side raw looks r with
  | (.ok p, r') => { r' with circuit := r'.circuit.enqueue side p }
  | (.error _, r') => r'.reject

/-! ### Deliveries -/

/-- The scope of the circuit is closed. -/
def Relay.closed (r : Relay B) : Bool :=
  (r.plane.scopes[r.circuit.scope]?.map StreamScope.closed).getD true

/-- `bufferedBytes` of the scope of the circuit. -/
def Relay.bufferedBytes (r : Relay B) : ℤ :=
  (r.plane.scopes[r.circuit.scope]?.map StreamScope.bufferedBytes).getD 0

/-- Give back the reservation of a frame. -/
def Relay.release (r : Relay B) (p : Prepared B) : Relay B :=
  match p.reservation with
  | none => r
  | some k => { r with plane := (releaseBuffer r.circuit.scope k r.plane).2 }

/-- The first half of `_deliver`, for the oldest frame of a side. The write is made before
`raceAbort` looks at the signal of the scope. -/
def startDelivery (side : Side) (r : Relay B) : Option (Relay B) :=
  match r.circuit.flight side, r.circuit.waiting side with
  | none, p :: rest =>
    let c := { r.circuit with waiting := Function.update r.circuit.waiting side rest }
    if r.circuit.hasPort side.opposite = false then
      some (({ r with circuit := c }.release p).closeScope "forward-target-unattached")
    else
      let c := { c with written := Function.update c.written side (c.written side ++ [p]) }
      if r.closed then some ({ r with circuit := c }.release p)
      else some { r with circuit := { c with flight := Function.update c.flight side (some p) } }
  | _, _ => none

/-- What `_deliver` does when its write has succeeded. -/
def afterWrite (r : Relay B) (p : Prepared B) : Relay B :=
  if p.abortAfterDelivery then r.closeScope "forward-abort"
  else if (r.circuit.states .caller).fin ∧ (r.circuit.states .nextHop).fin ∧ r.bufferedBytes = 0 then
    { r.closeScope "clean-fin" with
      circuit := { r.circuit with cleanFin := r.circuit.cleanFin || !r.closed } }
  else r

/-- The second half of `_deliver`: the write has succeeded, or has failed or been raced by the signal
of the scope. -/
def endDelivery (side : Side) (ok : Bool) (r : Relay B) : Option (Relay B) :=
  match r.circuit.flight side with
  | none => none
  | some p =>
    let c := { r.circuit with flight := Function.update r.circuit.flight side none }
    if ok then
      let c := { c with completed := Function.update c.completed side (c.completed side ++ [p]) }
      some (afterWrite ({ r with circuit := c }.release p) p)
    else some (({ r with circuit := c }.closeScope "forward-write-failed").release p)

def attachCaller (look : Look) : RelayOp B Unit := do
  let r ← Act.get
  let _ ← onPlane (assertActive r.circuit.scope look)
  Act.ofExcept (require (r.circuit.attached = false) (failure .retryTerminal "FORWARD caller is already attached"))
  Act.modify fun r => { r with circuit := { r.circuit with attached := true } }

/-- What can happen to a circuit or to its plane. -/
inductive RelayMove (B : Type) where
  | receive (side : Side) (raw : B) (looks : Looks)
  | attach (look : Look)
  | start (side : Side)
  | settle (side : Side) (ok : Bool)
  /-- Whatever else happens to the plane: expiry, fences, other streams, `close`. -/
  | plane (m : PlaneMove B)

/-- The circuit and its plane afterwards. -/
def relayStep (r : Relay B) : RelayMove B → Option (Relay B)
  | .receive side raw looks => some (receive cfg wire side raw looks r)
  | .attach look => some (attachCaller look r).2
  | .start side => startDelivery side r
  | .settle side ok => endDelivery side ok r
  | .plane m => (planeStep cfg r.plane m).map fun p => { r with plane := p }

end Methods

/-! ### A circuit to try -/

def sampleWire : ForwardWire (List ℕ) where
  zeroRequestId := [0]
  decodeDispatchFrame
    | kind :: family :: operation :: request :: stream :: sequence :: body =>
      .ok ⟨kind, family, operation, [request], stream, sequence, body⟩
    | _ => .error (failure .badEncoding "frame is truncated")
  encodeDispatchFrame f :=
    .ok (f.frameKind :: f.familyId :: f.operationId :: f.requestId ++ f.streamId :: f.sequence :: f.body)
  decodeData
    | [nonce, offset, length] => .ok ⟨[nonce], offset, length⟩
    | _ => .error (failure .badEncoding "body is truncated")
  decodeWindow
    | [nonce, consumed, credit] => .ok ⟨[nonce], consumed, credit⟩
    | _ => .error (failure .badEncoding "body is truncated")
  decodeClose
    | [nonce, kind, offset] => .ok ⟨[nonce], kind, offset⟩
    | _ => .error (failure .badEncoding "body is truncated")

/-- A plane with room for a circuit of the first class. -/
def sampleCircuitPlane : PlaneConfig (List ℕ) where
  maxStreams := 2
  maxBufferedBytes := 1000000
  maxPerStreamBufferedBytes := 500000
  maxTickets := 4
  ttlMillis := 30
  bytes l := l.map UInt8.ofNat
  blake2b256 m := m.map UInt8.toNat
  one_le_maxStreams := Nat.le_succ 1
  one_le_perStream := by decide
  perStream_le := by decide

def sampleClass : CircuitClass := ⟨64 * 1024, 16 * 1024 * 1024, 30000, 10 * 60000⟩

/-- The plane of `sampleRelay`: it has one session, of stream 9. -/
def sampleSession : Except Failure ℕ × Plane (List ℕ) :=
  createSession sampleCircuitPlane
    (circuitSession sampleCircuitPlane 9 sampleClass 4096 (some ⟨1, [7], 4000⟩)) (some 10) (some 10)
    (Plane.new (List ℕ))

/-- A look at the clock at a time at which everything is live. -/
def sampleLook : Look := ⟨some 11, true⟩

def sampleLooks : Looks := ⟨sampleLook, sampleLook, sampleLook, some 11, sampleLook⟩

/-- A frame of a sample, as the caller (stream 9) or the next hop (stream 5) sends it. -/
def sampleFrame (side : Side) (operation sequence : ℕ) (body : List ℕ) : RelayMove (List ℕ) :=
  .receive side ([4, 5, operation, 0, if side = .caller then 9 else 5, sequence, 33] ++ body) sampleLooks

end HiveRelay.Stream
