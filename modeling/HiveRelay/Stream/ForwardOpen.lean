import HiveRelay.Stream.Circuit
import HiveRelay.Stream.CoreOpen

/-!
# Opening a forwarded circuit

`ForwardStreamService` answers `FORWARD.OPEN`: a call claims the nonce of its circuit, has its
admission authorized, takes a slot of its route and creates a record and a session, and then builds
the open of the next hop, has the record persisted as reserved, dials the next hop, verifies what it
accepts, builds a result and has the record persisted as live. Every one of these goes through a hook
that may take its time and may fail. The slot of the route is given back by the close hook of the
session.

The phases of a call, the answers of the hooks and the numbers of the records are as for
`CORE.OPEN`. What a call does before it claims its nonce (the authentication of its parent, the look
up of its route, the extension of the route scope) touches no state of the service; what it has found
out by then is an argument of the first step. The answer of a hook that is put through a codec is
taken as it comes out of the codec.
-/

namespace HiveRelay.ForwardOpen

open HiveRelay.Stream (Failure failure Plane PlaneConfig PlaneMove PlaneOp Look Readiness StreamKey u64
  familyForward planeStep CircuitClass forwardCircuitClass streamWireClass)
open CoreOpen (TicketInputs ResponseInputs errorName)

/-! ### Values -/

section Values

variable (B : Type)

/-- The fields of `blindTransportRouteV1` that `open` reads after the route is validated. -/
structure Route where
  routeId : B
  maxConcurrentStreams : ℕ

/-- What is read of a route scope: its encoding, the hash of its last hop, and how many hops it
has. -/
structure RouteScope where
  (encoded scopeHash : B)
  relayCount : ℕ
  deriving DecidableEq

/-- The fields of `blindForwardOpenV1` that `open` reads after the route is validated. -/
structure OpenRequest where
  routeId : B
  nextDescriptorSequence : ℕ
  nextDescriptorHash : B
  (requestedWireClass circuitClass : ℕ)
  circuitNonce : B

/-- What a call has found out when it claims its nonce. -/
structure Prepared where
  request : OpenRequest B
  (nonceKey parent requestCommitment : B)
  route : Route B
  routeScope : RouteScope B
  readiness : Option (Readiness B)

/-- What `authorizeAdmission` returns. -/
structure Admission where
  accepted : Bool
  spendTag : B

/-- What a call has computed when it awaits `allocateStreamId`: there was room on its route. -/
structure Admitted extends Prepared B where
  spendKey : B
  activeForRoute : ℕ
  room : activeForRoute < route.maxConcurrentStreams

/-- The fields of `blindForwardHopOpenV1` that are checked. -/
structure HopOpen where
  routeId : B
  routeScope : RouteScope B
  circuitNonce : B
  (requestedWireClass circuitClass grantedInitialWindow maxDataBytes maxCircuitBytes idleMillis : ℕ)
  lifetimeMillis : ℕ
  clientRequestCommitment : B

/-- The fields of `blindForwardHopAcceptV1` that are checked. -/
structure HopAccept where
  nextStreamId : ℕ
  acceptedRouteScopeHash : B
  acceptedRelayCount : ℕ

/-- What `dialAuthorizedRoute` returns; `port` says whether what it has is a stream port. -/
structure Adjacent where
  nextStreamId : ℕ
  hopAccept : Except Failure (HopAccept B)
  port : Bool

/-- The fields of `blindForwardOpenResultV1` that are checked. -/
structure OpenResult where
  (relayPublicKey routeId : B)
  nextDescriptorSequence : ℕ
  (nextDescriptorHash circuitNonce : B)
  (grantedWireClass circuitClass streamId grantedInitialWindow maxDataBytes maxCircuitBytes idleMillis : ℕ)
  lifetimeMillis : ℕ
  (requestCommitment acceptedRouteScopeHash : B)
  acceptedRelayCount : ℕ

/-- The `status` of a record. -/
inductive Status where
  | reserving | reserved | live | terminal
  deriving DecidableEq

/-- A value of `recordsByNonce` and `recordsBySpend`. -/
structure Record extends Prepared B where
  spendKey : B
  callerStreamId : ℕ
  status : Status
  terminalReason : Option String
  terminalPersisted : Bool
  /-- The number of the scope. -/
  scope : Option ℕ
  /-- The close hook of the scope has come to its end. -/
  closeHookRun : Bool
  /-- Whether there is a `circuit`, and whether a caller is attached to it. -/
  circuit : Option Bool
  result : Option (OpenResult B)
  hopOpen : Option (HopOpen B)
  hopAccept : Option (HopAccept B)
  nextStreamId : Option ℕ
  ticket : Option B
  ticketIssuedMonotonicMillis : Option ℕ
  routeCounted : Bool
  /-- The number of the claim. -/
  claim : ℕ

/-- The `status` of a claim. -/
inductive ClaimStatus where
  | claiming | live | terminal
  deriving DecidableEq

/-- A value of `claimsByNonce`. -/
structure Claim where
  (nonceKey parent requestCommitment routeScopeHash : B)
  status : ClaimStatus
  error : Option Failure

/-- What an `open` returns. -/
structure Response where
  result : Option (OpenResult B)
  ticket : Option B
  (attached retried : Bool)

/-- A call of `open`, by what it awaits. -/
inductive Phase where
  /-- `authorizeAdmission`, by the owner of a claim. -/
  | admitting (claim : ℕ) (prepared : Prepared B)
  /-- `allocateStreamId`. -/
  | allocating (claim : ℕ) (admitted : Admitted B)
  /-- `buildHopOpen`, for a record that it has created. -/
  | buildingHop (record : ℕ)
  /-- `persistence.reserve`. -/
  | reserving (record : ℕ)
  /-- `dialAuthorizedRoute`. -/
  | dialing (record : ℕ)
  /-- `verifyHopAccept`. -/
  | verifying (record : ℕ) (port : Bool)
  /-- `buildResult`. -/
  | buildingResult (record : ℕ)
  /-- `persistence.activate`. -/
  | activating (record : ℕ)
  /-- The close of the scope in the `catch` block, or the call of `persistence.terminal`. -/
  | closing (record : ℕ) (error : Failure)
  /-- The promise of a claim that another call has made. -/
  | waiting (claim : ℕ)
  | returned (response : Response B)
  | failed (error : Failure)

/-- A `ForwardStreamService` with its plane and its calls. -/
structure Service where
  plane : Plane B
  /-- The records that were created, by their number. -/
  records : List (Record B)
  (recordsByNonce recordsBySpend : OrderedMap B ℕ)
  recordsByScope : OrderedMap StreamKey ℕ
  routeCounts : OrderedMap B ℕ
  /-- The claims that were made, by their number. -/
  claims : List (Claim B)
  claimsByNonce : OrderedMap B ℕ
  closing : Bool
  calls : List (Phase B)

structure Config where
  plane : PlaneConfig B
  relayPublicKey : B
  maxRecords : ℕ

end Values

variable {B : Type} [DecidableEq B]

abbrev ServiceOp (B α : Type) : Type := Act (Service B) Failure α

def onPlane {α : Type} (x : PlaneOp B α) : ServiceOp B α := fun s =>
  ((x s.plane).1, { s with plane := (x s.plane).2 })

def Service.setRecord (s : Service B) (r : ℕ) (record : Record B) : Service B :=
  { s with records := s.records.set r record }

def Service.setCall (s : Service B) (call : ℕ) (phase : Phase B) : Service B :=
  { s with calls := s.calls.set call phase }

/-- The record of a number; the callers hold references to records of this service. -/
def recordOf (r : ℕ) : ServiceOp B (Record B) := do
  let s ← Act.get
  Act.ofExcept (demand s.records[r]? (failure .typeError "record of another service"))

def assign (r : ℕ) (f : Record B → Record B) : ServiceOp B Unit := do
  let record ← recordOf r
  Act.modify fun s => s.setRecord r (f record)

/-! ### Classes -/

/-- `FORWARD_CIRCUIT_CLASS[request.circuitClass]`. -/
def Prepared.tuple (held : Prepared B) : CircuitClass :=
  (forwardCircuitClass held.request.circuitClass).getD ⟨0, 0, 0, 0⟩

/-- `STREAM_WIRE_CLASS[request.requestedWireClass]`. -/
def Prepared.maxDataBytes (held : Prepared B) : ℕ :=
  (streamWireClass held.request.requestedWireClass).getD 0

/-- `byteKey(route.routeId)`. -/
def Prepared.routeKey (held : Prepared B) : B := held.route.routeId

/-! ### Claims -/

section Methods

variable (cfg : Config B)

def claimOf (claim : ℕ) : ServiceOp B (Claim B) := do
  let s ← Act.get
  Act.ofExcept (demand s.claims[claim]? (failure .typeError "claim of another service"))

/-- `_assertNonceBinding`, of a record or a claim with these fields. -/
def assertNonceBinding (parent commitment routeScopeHash : B) (held : Prepared B) :
    Except Failure Unit := do
  require (parent = held.parent) (failure .retryTerminal "FORWARD retry moved to another authenticated parent")
  require (commitment = held.requestCommitment ∧ routeScopeHash = held.routeScope.scopeHash)
    (failure .conflict "FORWARD circuit nonce was reused with another route scope")

def Service.ClaimOwner (s : Service B) (number : ℕ) (claim : Claim B) : Prop :=
  claim.status = .claiming ∧ s.claimsByNonce.get? claim.nonceKey = some number
  deriving Decidable

def assertClaimOwner (number : ℕ) : ServiceOp B Unit := do
  let claim ← claimOf number
  let s ← Act.get
  Act.ofExcept (require (s.ClaimOwner number claim)
    (claim.error.getD (failure .retryTerminal "FORWARD nonce claim is terminal")))

/-- A claim ends: it is taken out of the index if it is the one there. -/
def Service.endClaim (s : Service B) (number : ℕ) (claim : Claim B) (status : ClaimStatus)
    (error : Option Failure) : Service B where
  __ := s
  claims := s.claims.set number { claim with status := status, error := error }
  claimsByNonce := if s.claimsByNonce.get? claim.nonceKey = some number then
      s.claimsByNonce.delete claim.nonceKey
    else s.claimsByNonce

/-- `error instanceof BlindProtocolError ? error : new BlindProtocolError('INTERNAL', message)`. -/
def protocolError (error : Failure) (message : String) : Failure :=
  if error.code = .typeError ∨ error.code = .plain then failure .internal message else error

/-- `throw this._terminalizeUnrecordedClaim(claim, error, message)`. -/
def terminalizeUnrecordedClaim {α : Type} (number : ℕ) (error : Failure) (message : String) :
    ServiceOp B α := do
  let claim ← claimOf number
  if claim.status = .terminal then Act.throw (claim.error.getD error)
  else do
    let terminal := protocolError error message
    Act.modify fun s => s.endClaim number claim .terminal (some terminal)
    Act.throw terminal

/-- A `try` block whose `catch` ends the claim. -/
def claimed {α : Type} (number : ℕ) (message : String) (x : ServiceOp B α) : ServiceOp B α :=
  fun s =>
    match x s with
    | (.ok a, s') => (.ok a, s')
    | (.error e, s') => terminalizeUnrecordedClaim number e message s'

/-! ### Answers -/

/-- `this.plane.issueTicket(record.scope, record.parentSessionId)`. -/
def issueTicket (record : Record B) (scope : ℕ) (inputs : TicketInputs B) : ServiceOp B B := do
  let s ← Act.get
  onPlane (Stream.issueTicket cfg.plane scope record.parent inputs.look inputs.reading (inputs.drawn s.plane))

/-- The ticket of a record is gone or is too old. -/
def TicketExpired (record : Record B) (now : ℕ) : Prop :=
  record.ticket = none ∨ ∀ issued ∈ record.ticketIssuedMonotonicMillis, issued + cfg.plane.ttlMillis ≤ now
  deriving Decidable

/-- The first half of `_response`: a caller that is not attached gets a ticket that is not too
old. -/
def refreshTicket (r : ℕ) (inputs : ResponseInputs B) : ServiceOp B Unit := do
  let record ← recordOf r
  let attached ← Act.ofExcept (demand record.circuit (failure .typeError "Cannot read properties of null"))
  if attached then pure ()
  else do
    let now ← Act.ofExcept (demand inputs.now (failure .typeError "Cannot mix BigInt"))
    let scope ← Act.ofExcept (demand record.scope (failure .typeError "Cannot read properties of null"))
    if TicketExpired cfg record now then do
      let s ← onPlane (Stream.scopeOf scope)
      onPlane (Act.modify fun p => p.revokeScope s.key)
      let token ← issueTicket cfg record scope inputs.ticket
      assign r fun record =>
        { record with ticket := some token, ticketIssuedMonotonicMillis := some now }
    else pure ()

def response (r : ℕ) (retried : Bool) (inputs : ResponseInputs B) : ServiceOp B (Response B) := do
  refreshTicket cfg r inputs
  let record ← recordOf r
  let attached := record.circuit.getD false
  pure
    { result := record.result
      ticket := if attached then none else record.ticket
      attached := attached
      retried := retried }

/-- `_retry`: the phase of the call. -/
def retry (r : ℕ) (held : Prepared B) (inputs : ResponseInputs B) : ServiceOp B (Phase B) := do
  let record ← recordOf r
  Act.ofExcept (assertNonceBinding record.parent record.requestCommitment record.routeScope.scopeHash held)
  if record.status = .reserving ∨ record.status = .reserved then pure (.waiting record.claim)
  else do
    let notLive := failure .retryTerminal "FORWARD circuit is no longer live"
    Act.ofExcept (require (record.status = .live) notLive)
    let scope ← Act.ofExcept (demand record.scope notLive)
    let polled ← onPlane (Stream.pollScope scope inputs.poll)
    Act.ofExcept (require (polled = true) notLive)
    let answer ← response cfg r true inputs
    pure (.returned answer)

/-! ### Before there is a record -/

def Service.unrecordedClaims (s : Service B) : ℕ :=
  s.claimsByNonce.entries.countP fun entry => s.recordsByNonce.has entry.1 = false

/-- `_claimNonce`, and what `open` does with what it returns. -/
def claimNonce (held : Prepared B) (inputs : ResponseInputs B) : ServiceOp B (Phase B) := do
  let s ← Act.get
  Act.ofExcept (require (s.closing = false) (failure .busy "FORWARD service is draining"))
  match s.recordsByNonce.get? held.nonceKey with
  | some r => retry cfg r held inputs
  | none =>
    match s.claimsByNonce.get? held.nonceKey with
    | some number => do
      let claim ← claimOf number
      Act.ofExcept (assertNonceBinding claim.parent claim.requestCommitment claim.routeScopeHash held)
      pure (.waiting number)
    | none => do
      Act.ofExcept (require (s.recordsByNonce.size + s.unrecordedClaims < cfg.maxRecords)
        (failure .busy "FORWARD retry record capacity is exhausted"))
      let claim : Claim B :=
        { held with
          routeScopeHash := held.routeScope.scopeHash
          status := .claiming
          error := none }
      Act.modify fun s =>
        { s with
          claims := s.claims ++ [claim]
          claimsByNonce := s.claimsByNonce.set held.nonceKey s.claims.length }
      pure (.admitting s.claims.length held)

/-- The number of slots of a route that are taken. -/
def Service.activeForRoute (s : Service B) (routeKey : B) : ℕ :=
  (s.routeCounts.get? routeKey).getD 0

/-- The second `try` block: the spend tag is new, and there is room on the route. -/
def checkAdmission (number : ℕ) (held : Prepared B) (spendTag : B) : ServiceOp B (Phase B) := do
  let s ← Act.get
  Act.ofExcept (require (s.recordsBySpend.has spendTag = false)
    (failure .spendReplay "FORWARD admission spend tag was already used"))
  if room : s.activeForRoute held.routeKey < held.route.maxConcurrentStreams then
    pure (.allocating number
      { held with
        spendKey := spendTag
        activeForRoute := s.activeForRoute held.routeKey
        room := room })
  else Act.throw (failure .busy "signed route stream capacity is exhausted")

/-- From `authorizeAdmission` to `allocateStreamId`. -/
def admitted (number : ℕ) (held : Prepared B) (answer : Except Failure (Option (Admission B))) :
    ServiceOp B (Phase B) := do
  let admission ← claimed number "FORWARD admission failed terminally" (do
    let admission ← Act.ofExcept answer
    assertClaimOwner number
    let refused := failure .spendInvalid "FORWARD admission was not accepted"
    let admission ← Act.ofExcept (demand admission refused)
    Act.ofExcept (require (admission.accepted = true) refused)
    pure admission)
  claimed number "FORWARD claimed open failed terminally" (checkAdmission number held admission.spendTag)

/-- The stream identifier, while the claim is still in force. -/
def allocatedId (number : ℕ) (answer : Except Failure ℕ) : ServiceOp B ℕ :=
  claimed number "FORWARD stream allocation failed terminally" (do
    let streamId ← Act.ofExcept answer
    let streamId ← Act.ofExcept (u64 streamId "streamId")
    assertClaimOwner number
    Act.ofExcept (require (streamId ≠ 0) (failure .internal "FORWARD stream allocator returned zero"))
    pure streamId)

/-! ### The record -/

/-- The record that `open` creates. -/
def Admitted.record (held : Admitted B) (number streamId : ℕ) : Record B where
  __ := held
  callerStreamId := streamId
  status := .reserving
  terminalReason := none
  terminalPersisted := false
  scope := none
  closeHookRun := false
  circuit := none
  result := none
  hopOpen := none
  hopAccept := none
  nextStreamId := none
  ticket := none
  ticketIssuedMonotonicMillis := none
  routeCounted := true
  claim := number

/-- Take a slot of the route, and put a record under its nonce and its spend. -/
def Service.addRecord (s : Service B) (record : Record B) (activeForRoute : ℕ) : Service B where
  __ := s
  records := s.records ++ [record]
  routeCounts := s.routeCounts.set record.routeKey (activeForRoute + 1)
  recordsByNonce := s.recordsByNonce.set record.nonceKey s.records.length
  recordsBySpend := s.recordsBySpend.set record.spendKey s.records.length

/-- The options of the session of a call. -/
def Prepared.sessionOptions (held : Prepared B) (streamId : ℕ) : Stream.SessionOptions B where
  family := familyForward
  streamId := streamId
  maxBytes := held.tuple.maxCircuitBytes
  maxBufferedBytes := some (min cfg.plane.maxPerStreamBufferedBytes
    (held.tuple.grantedInitialWindow + held.maxDataBytes))
  idleMillis := some held.tuple.idleMillis
  lifetimeMillis := some held.tuple.lifetimeMillis
  readiness := held.readiness

/-- The session of a record, up to `buildHopOpen`. -/
def createScope (r : ℕ) (reading again : Option ℕ) : ServiceOp B (Phase B) := do
  let record ← recordOf r
  let scope ← onPlane (Stream.createSession cfg.plane (record.sessionOptions cfg record.callerStreamId) reading again)
  assign r fun record => { record with scope := some scope }
  Act.modify fun s =>
    { s with recordsByScope := s.recordsByScope.set (familyForward, record.callerStreamId) r }
  pure (.buildingHop r)

/-- What `_buildAndValidateHopOpen` asks of the open of the next hop. -/
def HopFrozen (record : Record B) (hop : HopOpen B) : Prop :=
  hop.routeId = record.request.routeId ∧ hop.circuitNonce = record.request.circuitNonce ∧
    hop.requestedWireClass = record.request.requestedWireClass ∧
    hop.circuitClass = record.request.circuitClass ∧
    hop.grantedInitialWindow = record.tuple.grantedInitialWindow ∧
    hop.maxDataBytes = record.maxDataBytes ∧
    hop.maxCircuitBytes = record.tuple.maxCircuitBytes ∧
    hop.idleMillis = record.tuple.idleMillis ∧
    hop.lifetimeMillis = record.tuple.lifetimeMillis ∧
    hop.clientRequestCommitment = record.requestCommitment ∧
    hop.routeScope = record.routeScope

instance (record : Record B) (hop : HopOpen B) : Decidable (HopFrozen record hop) :=
  inferInstanceAs (Decidable (_ ∧ _))

/-- From `buildHopOpen` to `persistence.reserve`. -/
def hopBuilt (r : ℕ) (answer : Except Failure (HopOpen B)) : ServiceOp B (Phase B) := do
  let record ← recordOf r
  let hop ← Act.ofExcept answer
  Act.ofExcept (require (HopFrozen record hop) (failure .internal "FORWARD HopOpen builder changed a frozen field"))
  assign r fun record => { record with hopOpen := some hop }
  pure (.reserving r)

/-- From `persistence.reserve` to `dialAuthorizedRoute`. -/
def reserved (r : ℕ) (answer : Except Failure Unit) : ServiceOp B (Phase B) := do
  Act.ofExcept answer
  assign r fun record => { record with status := .reserved }
  pure (.dialing r)

/-- From `dialAuthorizedRoute` to `verifyHopAccept`. -/
def dialed (r : ℕ) (answer : Except Failure (Option (Adjacent B))) : ServiceOp B (Phase B) := do
  let adjacent ← Act.ofExcept answer
  let adjacent ← Act.ofExcept (demand adjacent
    (failure .internal "authorized FORWARD dial returned no adjacent stream"))
  let nextStreamId ← Act.ofExcept (u64 adjacent.nextStreamId "nextStreamId")
  assign r fun record => { record with nextStreamId := some nextStreamId }
  Act.ofExcept (require (nextStreamId ≠ 0) (failure .internal "next hop returned a zero stream ID"))
  let hopAccept ← Act.ofExcept adjacent.hopAccept
  assign r fun record => { record with hopAccept := some hopAccept }
  pure (.verifying r adjacent.port)

/-- The checks of the constructor of `ForwardCircuit`. -/
def newCircuit (record : Record B) (port : Bool) : Except Failure Unit := do
  require (record.callerStreamId ≠ 0 ∧ record.nextStreamId ≠ some 0)
    (failure .badEncoding "FORWARD stream IDs must be nonzero")
  require (record.maxDataBytes ≠ 0 ∧ (forwardCircuitClass record.request.circuitClass).isSome)
    (failure .badEncoding "FORWARD class is not registered")
  require (port = true) (failure .typeError "nextPort must be an injected bounded stream port with write()")

/-- From `verifyHopAccept` to `buildResult`. -/
def verified (r : ℕ) (port : Bool) (answer : Except Failure Bool) (look : Look) : ServiceOp B (Phase B) := do
  let accepted ← Act.ofExcept answer
  Act.ofExcept (require (accepted = true) (failure .conflict "next-hop accept failed authenticated verification"))
  let record ← recordOf r
  let missing := failure .typeError "Cannot read properties of null"
  let hopAccept ← Act.ofExcept (demand record.hopAccept missing)
  Act.ofExcept (require (some hopAccept.nextStreamId = record.nextStreamId)
    (failure .conflict "next-hop stream ID changed in its accept"))
  Act.ofExcept (require (hopAccept.acceptedRouteScopeHash = record.routeScope.scopeHash ∧
      hopAccept.acceptedRelayCount = record.routeScope.relayCount)
    (failure .conflict "next-hop accept changed the authenticated route scope"))
  let scope ← Act.ofExcept (demand record.scope missing)
  let _ ← onPlane (Stream.assertActive scope look)
  Act.ofExcept (newCircuit record port)
  assign r fun record => { record with circuit := some false }
  pure (.buildingResult r)

/-- What `_buildAndValidateResult` asks of a result. -/
def ResultFrozen (record : Record B) (result : OpenResult B) : Prop :=
  result.relayPublicKey = cfg.relayPublicKey ∧ result.routeId = record.request.routeId ∧
    result.nextDescriptorSequence = record.request.nextDescriptorSequence ∧
    result.nextDescriptorHash = record.request.nextDescriptorHash ∧
    result.circuitNonce = record.request.circuitNonce ∧
    result.grantedWireClass = record.request.requestedWireClass ∧
    result.circuitClass = record.request.circuitClass ∧
    result.streamId = record.callerStreamId ∧
    result.grantedInitialWindow = record.tuple.grantedInitialWindow ∧
    result.maxDataBytes = record.maxDataBytes ∧
    result.maxCircuitBytes = record.tuple.maxCircuitBytes ∧
    result.idleMillis = record.tuple.idleMillis ∧
    result.lifetimeMillis = record.tuple.lifetimeMillis ∧
    result.requestCommitment = record.requestCommitment ∧
    result.acceptedRouteScopeHash = record.routeScope.scopeHash ∧
    result.acceptedRelayCount = record.routeScope.relayCount

instance (record : Record B) (result : OpenResult B) :
    Decidable (ResultFrozen cfg record result) := inferInstanceAs (Decidable (_ ∧ _))

/-- From `buildResult` to `persistence.activate`. -/
def resultBuilt (r : ℕ) (answer : Except Failure (OpenResult B)) : ServiceOp B (Phase B) := do
  let record ← recordOf r
  let result ← Act.ofExcept answer
  Act.ofExcept (require (ResultFrozen cfg record result)
    (failure .internal "FORWARD result builder changed a frozen open field"))
  assign r fun record => { record with result := some result }
  pure (.activating r)

/-- `_resolveRecordedClaim` and `_rejectRecordedClaim`. -/
def settleClaim (number : ℕ) (status : ClaimStatus) (error : Option Failure) :
    ServiceOp B Unit := do
  let claim ← claimOf number
  Act.modify fun s => s.endClaim number claim status (error.orElse fun _ => claim.error)

/-- The ticket and the answer of a record that is live. -/
def announce (r : ℕ) (ticket : TicketInputs B) (issued : Option ℕ) (inputs : ResponseInputs B) :
    ServiceOp B (Phase B) := do
  let record ← recordOf r
  let scope ← Act.ofExcept (demand record.scope (failure .typeError "Cannot read properties of null"))
  let token ← issueTicket cfg record scope ticket
  assign r fun record =>
    { record with ticket := some token, ticketIssuedMonotonicMillis := issued }
  let answer ← response cfg r false inputs
  settleClaim record.claim .live none
  pure (.returned answer)

/-- From `persistence.activate` to the end. -/
def activated (r : ℕ) (answer : Except Failure Unit) (ticket : TicketInputs B) (issued : Option ℕ)
    (inputs : ResponseInputs B) : ServiceOp B (Phase B) := do
  Act.ofExcept answer
  assign r fun record => { record with status := .live }
  announce cfg r ticket issued inputs

/-! ### The end of a record -/

/-- `_persistTerminal`, up to its `await`. -/
def Record.persistTerminal (record : Record B) : Record B :=
  { record with terminalPersisted := true }

def Service.giveBack (s : Service B) (routeKey : B) : Service B :=
  let count := s.activeForRoute routeKey
  { s with
    routeCounts := if count ≤ 1 then s.routeCounts.delete routeKey
      else s.routeCounts.set routeKey (count - 1) }

/-- `_onScopeClose`, after the teardown of the circuit and up to the `await` of
`_persistTerminal`. -/
def Service.onScopeClose (s : Service B) (r : ℕ) (record : Record B) (reason : String) :
    Service B :=
  let closed := { record with
    status := .terminal
    terminalReason := some reason
    closeHookRun := true
    routeCounted := false }
  let s' := if record.routeCounted then s.giveBack record.routeKey else s
  s'.setRecord r closed.persistTerminal

/-- The assignments of the `catch` block of `open`. -/
def Record.failed (record : Record B) (error : Failure) : Record B :=
  { record with status := .terminal, terminalReason := some (errorName error.code) }

/-- The `catch` block of `open`, up to its `await`. -/
def Service.caught (s : Service B) (call r : ℕ) (error : Failure) : Service B :=
  match s.records[r]? with
  | none => s
  | some record =>
    match record.scope with
    | some scope =>
      { s.setRecord r (record.failed error) with
        plane := s.plane.closeScope scope "forward-open-failed" }.setCall call (.closing r error)
    | none =>
      (s.setRecord r (record.failed error).persistTerminal).setCall call (.closing r error)

/-- The end of the `catch` block. -/
def Service.rejected (s : Service B) (call r : ℕ) (error : Failure) : Service B :=
  let terminal := protocolError error "FORWARD authorized dial failed terminally"
  let s' := match s.records[r]? with
    | none => s
    | some record => (settleClaim record.claim .terminal (some terminal) s).2
  s'.setCall call (.failed terminal)

/-! ### Steps -/

/-- Before there is a record: what is thrown ends the call. -/
def Service.proceed (s : Service B) (call : ℕ) (x : ServiceOp B (Phase B)) : Service B :=
  match x s with
  | (.ok phase, s') => s'.setCall call phase
  | (.error e, s') => s'.setCall call (.failed e)

/-- In the `try` block of a record. -/
def Service.proceedWith (s : Service B) (call r : ℕ) (x : ServiceOp B (Phase B)) : Service B :=
  match x s with
  | (.ok phase, s') => s'.setCall call phase
  | (.error e, s') => s'.caught call r e

/-- From `allocateStreamId` to `buildHopOpen`: the record is created, and then its session. -/
def Service.allocated (s : Service B) (call number : ℕ) (held : Admitted B)
    (answer : Except Failure ℕ) (reading again : Option ℕ) : Service B :=
  match allocatedId number answer s with
  | (.error e, s') => s'.setCall call (.failed e)
  | (.ok streamId, s') =>
    (s'.addRecord (held.record number streamId) held.activeForRoute).proceedWith call
      s'.records.length (createScope cfg s'.records.length reading again)

/-- `attach`, with `attachCaller`; the answer says whether the caller is a stream port. -/
def attach (token : B) (expected : Stream.TicketBinding B) (port : Bool) (reading : Option ℕ)
    (look again : Look) : ServiceOp B Unit := do
  let scope ← onPlane (Stream.consumeTicket cfg.plane token { expected with family := familyForward } reading look)
  let session ← onPlane (Stream.scopeOf scope)
  let s ← Act.get
  let unmatched := failure .retryTerminal "FORWARD ticket has no matching live open record"
  let r ← Act.ofExcept (demand (s.recordsByScope.get? session.key) unmatched)
  let record ← recordOf r
  Act.ofExcept (require (record.status = .live ∧ record.parent = expected.parentSessionId) unmatched)
  let scope ← Act.ofExcept (demand record.scope unmatched)
  let _ ← onPlane (Stream.assertActive scope again)
  Act.ofExcept (require (record.circuit ≠ some true) (failure .retryTerminal "FORWARD caller is already attached"))
  Act.ofExcept (require (port = true)
    (failure .typeError "callerPort must be an injected bounded stream port with write()"))
  assign r fun record =>
    { record with
      circuit := some true
      ticket := none
      ticketIssuedMonotonicMillis := none }

/-- The claims that `close` ends: those without a record. -/
def Service.endClaims (s : Service B) : List (B × ℕ) → Service B
  | [] => s
  | (nonceKey, number) :: rest =>
    match s.claims[number]? with
    | none => s.endClaims rest
    | some claim =>
      if s.recordsByNonce.has nonceKey = false ∧ claim.status = .claiming then
        (s.endClaim number claim .terminal (some
          (failure .retryTerminal "FORWARD service closed during nonce claim"))).endClaims rest
      else s.endClaims rest

/-- Close the scopes of the records of a list. -/
def Service.closeRecords (s : Service B) (reason : String) : List ℕ → Service B
  | [] => s
  | r :: rest =>
    match s.records[r]?.bind Record.scope with
    | none => s.closeRecords reason rest
    | some scope => { s with plane := s.plane.closeScope scope reason }.closeRecords reason rest

/-- `close`, up to its `await`. -/
def Service.close (s : Service B) (reason : String) : Service B :=
  ({ s with closing := true }.endClaims s.claimsByNonce.entries).closeRecords reason s.recordsByNonce.values

/-- One thing that happens: a call claims its nonce, a hook that a call awaits settles, a close hook
comes to its end, or something else is done with the service or the plane. -/
inductive ForwardMove (B : Type) where
  | openCall (held : Prepared B) (inputs : ResponseInputs B)
  | admitted (call : ℕ) (answer : Except Failure (Option (Admission B)))
  | allocated (call : ℕ) (answer : Except Failure ℕ) (reading again : Option ℕ)
  | hopBuilt (call : ℕ) (answer : Except Failure (HopOpen B))
  | reserved (call : ℕ) (answer : Except Failure Unit)
  | dialed (call : ℕ) (answer : Except Failure (Option (Adjacent B)))
  | verified (call : ℕ) (answer : Except Failure Bool) (look : Look)
  | resultBuilt (call : ℕ) (answer : Except Failure (OpenResult B))
  | activated (call : ℕ) (answer : Except Failure Unit) (ticket : TicketInputs B)
      (issued : Option ℕ) (inputs : ResponseInputs B)
  /-- What the `catch` block awaits settles. -/
  | closed (call : ℕ)
  /-- The close hook of the scope of a record, after the teardown of the circuit. -/
  | closeHook (record : ℕ)
  | attach (token : B) (expected : Stream.TicketBinding B) (port : Bool) (reading : Option ℕ)
      (look again : Look)
  | close (reason : String)
  /-- A fence, an expiry, a close or another session of the plane. -/
  | plane (move : PlaneMove B)

def forwardStep (s : Service B) : ForwardMove B → Option (Service B)
  | .openCall held inputs =>
    let s' := { s with calls := s.calls ++ [Phase.failed (failure .plain "open")] }
    some (s'.proceed s.calls.length (claimNonce cfg held inputs))
  | .admitted call answer =>
    match s.calls[call]? with
    | some (.admitting number held) => some (s.proceed call (admitted number held answer))
    | _ => none
  | .allocated call answer reading again =>
    match s.calls[call]? with
    | some (.allocating number held) =>
      some (s.allocated cfg call number held answer reading again)
    | _ => none
  | .hopBuilt call answer =>
    match s.calls[call]? with
    | some (.buildingHop r) => some (s.proceedWith call r (hopBuilt r answer))
    | _ => none
  | .reserved call answer =>
    match s.calls[call]? with
    | some (.reserving r) => some (s.proceedWith call r (reserved r answer))
    | _ => none
  | .dialed call answer =>
    match s.calls[call]? with
    | some (.dialing r) => some (s.proceedWith call r (dialed r answer))
    | _ => none
  | .verified call answer look =>
    match s.calls[call]? with
    | some (.verifying r port) => some (s.proceedWith call r (verified r port answer look))
    | _ => none
  | .resultBuilt call answer =>
    match s.calls[call]? with
    | some (.buildingResult r) => some (s.proceedWith call r (resultBuilt cfg r answer))
    | _ => none
  | .activated call answer ticket issued inputs =>
    match s.calls[call]? with
    | some (.activating r) =>
      some (s.proceedWith call r (activated cfg r answer ticket issued inputs))
    | _ => none
  | .closed call =>
    match s.calls[call]? with
    | some (.closing r error) => some (s.rejected call r error)
    | _ => none
  | .closeHook r =>
    match s.records[r]? with
    | none => none
    | some record =>
      match record.scope.bind fun scope => s.plane.scopes[scope]? with
      | none => none
      | some scope =>
        if scope.closed = true ∧ record.closeHookRun = false then
          some (s.onScopeClose r record (scope.closeReason.getD "closed"))
        else none
  | .attach token expected port reading look again =>
    some (attach cfg token expected port reading look again s).2
  | .close reason => some (s.close reason)
  | .plane move => (planeStep cfg.plane s.plane move).map fun p => { s with plane := p }

end Methods

def Service.new (plane : Plane B) : Service B where
  plane := plane
  records := []
  recordsByNonce := .empty
  recordsBySpend := .empty
  recordsByScope := .empty
  routeCounts := .empty
  claims := []
  claimsByNonce := .empty
  closing := false
  calls := []

end HiveRelay.ForwardOpen
