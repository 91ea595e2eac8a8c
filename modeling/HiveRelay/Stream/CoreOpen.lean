import HiveRelay.Core.State
import HiveRelay.Stream.Ledger

/-!
# Opening a replication stream

`CoreReplicationStreamService` answers `CORE.OPEN`: it authenticates the parent channel, has the
admission authorized, creates a record under three indexes and a session in the stream plane, builds
a signed result, has the record persisted as reserved, dials upstream and has it persisted as live.
Every one of these goes through a hook that may take its time and may fail, and other calls, and the
close hooks of the sessions, run in between.

A call is a phase: the hook that it awaits, with the local variables that are used afterwards. What
happens when a hook settles, up to the next `await`, is one step. The answers of the hooks, the
readings of the clock and the tokens of the tickets are arguments of the step; the steps of other
users of the plane are steps too. Records are numbered in the order of their creation. The calls of
the persistence hooks, and how often upstream was dialled, are kept on record; no method looks at
them.
-/

namespace HiveRelay.CoreOpen

open HiveRelay.Stream (Failure failure Plane PlaneConfig PlaneMove PlaneOp Look Readiness StreamKey u64
  familyCore planeStep sliceReason)
open Cell (PreparedAdmission)
open HiveRelay.Core (OpenResult LifecycleState coreSessionClass)

/-! ### Values -/

section Values

variable (B : Type)

/-- `coreOpenReplicationV1`, without the admission that only the hook reads. -/
structure OpenRequest where
  wireProfileHash : B
  (sessionClass controlChannelId : ℕ)
  (parentChannelBinding clientNonce : B)

/-- What `authenticateParent` returns. -/
structure ParentAuth where
  (verified authenticatedExporter : Bool)
  computedParentChannelBinding : B
  controlChannelId : ℕ
  parentSessionId : B
  readiness : Option (Readiness B)

/-- What `authorizeAdmission` returns; `preparedAdmission` is the whole of it where it has no such
field. -/
structure Admission where
  accepted : Bool
  spendTag : B
  preparedAdmission : PreparedAdmission B

/-- The key of a control channel: `${parent}:${controlChannelId}`. -/
abbrev ChannelKey : Type := B × ℕ

/-- The `status` of a record. -/
inductive Status where
  | reserving | reserved | live | terminal
  deriving DecidableEq

/-- A call of a persistence hook: the fields of its argument that change in the life of a
record. -/
structure PersistCall where
  state : LifecycleState
  result : Option (OpenResult B)
  terminalReason : Option String

/-- A value of `recordsByLogical`, `recordsBySpend` and `controlChannels`. -/
structure Record where
  (logicalKey spendKey : B)
  channelKey : ChannelKey B
  parent : B
  request : OpenRequest B
  requestCommitment : B
  (streamId openedAtEpoch : ℕ)
  status : Status
  terminalReason : Option String
  terminalPersisted : Bool
  result : Option (OpenResult B)
  /-- The number of the scope. -/
  scope : Option ℕ
  /-- The close hook of the scope has run. -/
  closeHookRun : Bool
  /-- Whether there is a `child`, and whether a caller is attached to it. -/
  child : Option Bool
  ticket : Option B
  ticketIssuedMonotonicMillis : Option ℕ
  preparedAdmission : Option (PreparedAdmission B)
  /-- The calls of the persistence hooks for this record. -/
  calls : List (PersistCall B)
  /-- How often `openUpstream` was called for this record. -/
  upstreams : ℕ

/-- What a call has computed when it awaits `authorizeAdmission`. -/
structure Prepared where
  request : OpenRequest B
  parent : B
  readiness : Option (Readiness B)
  (commitment logicalKey : B)
  channelKey : ChannelKey B

/-- What a call has computed when it awaits `allocateStreamId`. -/
structure Admitted extends Prepared B where
  spendKey : B
  preparedAdmission : PreparedAdmission B

/-- What an `open` returns. -/
structure Response where
  result : Option (OpenResult B)
  ticket : Option B
  (attached retried : Bool)

/-- A call of `open`, by what it awaits. -/
inductive Phase where
  /-- `authenticateParent`. -/
  | authenticating (request : OpenRequest B)
  /-- `authorizeAdmission`. -/
  | admitting (prepared : Prepared B)
  /-- `allocateStreamId`. -/
  | allocating (admitted : Admitted B)
  /-- `nowEpoch`. -/
  | timing (admitted : Admitted B) (streamId : ℕ)
  /-- `buildResult`, for a record that it has created. -/
  | building (record : ℕ)
  /-- `persistence.reserve`. -/
  | reserving (record : ℕ)
  /-- `openUpstream`. -/
  | dialing (record : ℕ)
  /-- `persistence.activate`. -/
  | activating (record : ℕ)
  /-- The close of the scope in the `catch` block, or the call of `persistence.terminal`. -/
  | closing (record : ℕ) (error : Failure)
  /-- The promise of a record that another call is opening. -/
  | waiting (record : ℕ)
  | returned (response : Response B)
  | failed (error : Failure)

/-- A `CoreReplicationStreamService` with its plane and its calls. -/
structure Service where
  plane : Plane B
  /-- The records that were created, by their number. -/
  records : List (Record B)
  (recordsByLogical recordsBySpend : OrderedMap B ℕ)
  controlChannels : OrderedMap (ChannelKey B) ℕ
  recordsByScope : OrderedMap StreamKey ℕ
  persistenceFailure : Bool
  calls : List (Phase B)

/-- The options of the service, and the hashes that it uses. -/
structure Config where
  plane : PlaneConfig B
  (relayPublicKey wireProfileHash : B)
  maxRecords : ℕ
  /-- `coreOpenReplicationRequestCommitment`, at the key of the relay. -/
  coreOpenReplicationRequestCommitment : OpenRequest B → B
  /-- `coreOpenReplicationLogicalRetryKey`, at the key of the relay. -/
  coreOpenReplicationLogicalRetryKey : OpenRequest B → B

/-- What `issueTicket` takes from outside; `tokens` are the random tokens that it draws. -/
structure TicketInputs where
  look : Look
  reading : Option ℕ
  tokens : List B

/-- What `_retry` and `_response` take from outside. -/
structure ResponseInputs where
  poll : Look
  now : Option ℕ
  ticket : TicketInputs B

end Values

variable {B : Type} [DecidableEq B] [Zero B]

abbrev ServiceOp (B α : Type) : Type := Act (Service B) Failure α

def onPlane {α : Type} (x : PlaneOp B α) : ServiceOp B α := fun s =>
  ((x s.plane).1, { s with plane := (x s.plane).2 })

def Service.setRecord (s : Service B) (r : ℕ) (record : Record B) : Service B :=
  { s with records := s.records.set r record }

def Service.setCall (s : Service B) (call : ℕ) (phase : Phase B) : Service B :=
  { s with calls := s.calls.set call phase }

/-- The record of a number; the callers hold references to records of this service. -/
def recordOf (r : ℕ) : ServiceOp B (Record B) := do
  let s ← Act.get
  Act.ofExcept (demand s.records[r]? (failure .typeError "record of another service"))

def assign (r : ℕ) (f : Record B → Record B) : ServiceOp B Unit := do
  let record ← recordOf r
  Act.modify fun s => s.setRecord r (f record)

/-! ### Answers -/

section Methods

variable (cfg : Config B)

/-- The loop that draws a token draws again while the token is in use. -/
def TicketInputs.drawn (inputs : TicketInputs B) (p : Plane B) : Option B :=
  inputs.tokens.find? fun t => p.tickets.has t = false

/-- `this.plane.issueTicket(record.scope, record.parentSessionId)`. -/
def issueTicket (record : Record B) (scope : ℕ) (inputs : TicketInputs B) : ServiceOp B B := do
  let s ← Act.get
  onPlane (Stream.issueTicket cfg.plane scope record.parent inputs.look inputs.reading (inputs.drawn s.plane))

/-- The ticket of a record is gone or is too old. -/
def TicketExpired (record : Record B) (now : ℕ) : Prop :=
  record.ticket = none ∨ ∀ issued ∈ record.ticketIssuedMonotonicMillis, issued + cfg.plane.ttlMillis ≤ now
  deriving Decidable

/-- The first half of `_response`: a caller that is not attached gets a ticket that is not too
old. -/
def refreshTicket (r : ℕ) (inputs : ResponseInputs B) : ServiceOp B Unit := do
  let record ← recordOf r
  if record.child = some true then pure ()
  else do
    let now ← Act.ofExcept (demand inputs.now (failure .typeError "Cannot mix BigInt"))
    match record.scope with
    | none => Act.throw (failure .typeError "Cannot read properties of null")
    | some scope =>
      if TicketExpired cfg record now then do
        let s ← onPlane (Stream.scopeOf scope)
        onPlane (Act.modify fun p => p.revokeScope s.key)
        let token ← issueTicket cfg record scope inputs.ticket
        assign r fun record =>
          { record with ticket := some token, ticketIssuedMonotonicMillis := some now }
      else pure ()

def response (r : ℕ) (retried : Bool) (inputs : ResponseInputs B) : ServiceOp B (Response B) := do
  refreshTicket cfg r inputs
  let record ← recordOf r
  let attached := record.child.getD false
  pure
    { result := record.result
      ticket := if attached then none else record.ticket
      attached := attached
      retried := retried }

/-- `_retry`: the phase of the call. -/
def retry (r : ℕ) (request : OpenRequest B) (commitment parent : B)
    (inputs : ResponseInputs B) : ServiceOp B (Phase B) := do
  let record ← recordOf r
  Act.ofExcept (require (record.parent = parent ∧ record.request.controlChannelId = request.controlChannelId ∧
      record.request.parentChannelBinding = request.parentChannelBinding)
    (failure .retryTerminal "CORE logical retry moved to another authenticated channel"))
  Act.ofExcept (require (record.requestCommitment = commitment)
    (failure .spendReplay "CORE retry changed its committed fields"))
  if record.status = .reserving ∨ record.status = .reserved then pure (.waiting r)
  else do
    let notLive := failure .retryTerminal "CORE child stream is no longer live"
    Act.ofExcept (require (record.status = .live) notLive)
    let scope ← Act.ofExcept (demand record.scope notLive)
    let polled ← onPlane (Stream.pollScope scope inputs.poll)
    Act.ofExcept (require (polled = true) notLive)
    let answer ← response cfg r true inputs
    pure (.returned answer)

/-! ### Before there is a record -/

/-- The checks of `coreOpenReplicationV1`. -/
def OpenRequest.Canonical (request : OpenRequest B) : Prop :=
  (1 ≤ request.sessionClass ∧ request.sessionClass ≤ 3) ∧
    (1 ≤ request.controlChannelId ∧ request.controlChannelId ≤ Stream.maxU64) ∧
    request.parentChannelBinding ≠ 0

instance (request : OpenRequest B) : Decidable request.Canonical :=
  inferInstanceAs (Decidable (_ ∧ _))

/-- `open`, up to `authenticateParent`. -/
def openCall (request : OpenRequest B) (nativeTransport : Bool) : ServiceOp B (Phase B) := do
  let s ← Act.get
  Act.ofExcept (require (s.persistenceFailure = false) (failure .busy "CORE stream persistence requires recovery"))
  Act.ofExcept (require request.Canonical (failure .badEncoding "CORE open is not canonical"))
  Act.ofExcept (require (request.wireProfileHash = cfg.wireProfileHash)
    (failure .conflict "CORE wire profile does not match the signed descriptor"))
  Act.ofExcept (require (nativeTransport = true) (failure .transportUnsupported
      "CORE replication requires a native authenticated stream transport"))
  pure (.authenticating request)

/-- From `authenticateParent` to `authorizeAdmission`. -/
def authenticated (request : OpenRequest B) (answer : Except Failure (Option (ParentAuth B)))
    (inputs : ResponseInputs B) : ServiceOp B (Phase B) := do
  let unavailable := failure .transportUnsupported "authenticated parent exporter is unavailable"
  let auth ← Act.ofExcept answer
  let auth ← Act.ofExcept (demand auth unavailable)
  Act.ofExcept (require (auth.verified = true ∧ auth.authenticatedExporter = true) unavailable)
  let channel ← Act.ofExcept (u64 auth.controlChannelId "authenticated controlChannelId")
  Act.ofExcept (require (auth.computedParentChannelBinding = request.parentChannelBinding ∧
      channel = request.controlChannelId)
    (failure .badEncoding "CORE parent channel binding does not match the authenticated channel"))
  Act.ofExcept (require (auth.parentSessionId ≠ 0)
    (failure .badEncoding "authenticated parentSessionId must be nonzero"))
  let prepared : Prepared B :=
    { request := request
      parent := auth.parentSessionId
      readiness := auth.readiness
      commitment := cfg.coreOpenReplicationRequestCommitment request
      logicalKey := cfg.coreOpenReplicationLogicalRetryKey request
      channelKey := (auth.parentSessionId, request.controlChannelId) }
  let s ← Act.get
  match s.recordsByLogical.get? prepared.logicalKey with
  | some r => retry cfg r request prepared.commitment prepared.parent inputs
  | none => do
    Act.ofExcept (require (s.controlChannels.has prepared.channelKey = false)
      (failure .badEncoding "controlChannelId was already used in this authenticated session"))
    pure (.admitting prepared)

/-- From `authorizeAdmission` to `allocateStreamId`. -/
def admitted (prepared : Prepared B) (answer : Except Failure (Option (Admission B)))
    (inputs : ResponseInputs B) : ServiceOp B (Phase B) := do
  let refused := failure .spendInvalid "CORE admission was not accepted"
  let admission ← Act.ofExcept answer
  let admission ← Act.ofExcept (demand admission refused)
  Act.ofExcept (require (admission.accepted = true) refused)
  Act.ofExcept (require (admission.spendTag ≠ 0) (failure .spendInvalid "CORE admission spend tag must be nonzero"))
  let s ← Act.get
  match s.recordsByLogical.get? prepared.logicalKey with
  | some r => retry cfg r prepared.request prepared.commitment prepared.parent inputs
  | none => do
    Act.ofExcept (require (s.recordsBySpend.has admission.spendTag = false)
      (failure .spendReplay "CORE admission spend tag was already used"))
    Act.ofExcept (require (s.recordsByLogical.size < cfg.maxRecords)
      (failure .busy "CORE retry record capacity is exhausted"))
    pure (.allocating
      { prepared with
        spendKey := admission.spendTag
        preparedAdmission := admission.preparedAdmission })

/-- From `allocateStreamId` to `nowEpoch`. -/
def allocated (held : Admitted B) (answer : Except Failure ℕ) : ServiceOp B (Phase B) := do
  let streamId ← Act.ofExcept answer
  let streamId ← Act.ofExcept (u64 streamId "streamId")
  Act.ofExcept (require (streamId ≠ 0) (failure .internal "CORE stream allocator returned zero"))
  pure (.timing held streamId)

/-! ### The record -/

def u32 (value : ℕ) (field : String) : Except Failure ℕ := do
  require (value ≤ Cell.maxU32) (failure .badEncoding (field ++ " is outside u32"))
  pure value

/-- The record that `open` creates. -/
def Admitted.record (held : Admitted B) (streamId openedAtEpoch : ℕ) : Record B where
  __ := held
  requestCommitment := held.commitment
  streamId := streamId
  openedAtEpoch := openedAtEpoch
  status := .reserving
  terminalReason := none
  terminalPersisted := false
  result := none
  scope := none
  closeHookRun := false
  child := none
  ticket := none
  ticketIssuedMonotonicMillis := none
  preparedAdmission := some held.preparedAdmission
  calls := []
  upstreams := 0

/-- Put a record under its three keys. -/
def Service.addRecord (s : Service B) (record : Record B) : Service B where
  __ := s
  records := s.records ++ [record]
  recordsByLogical := s.recordsByLogical.set record.logicalKey s.records.length
  recordsBySpend := s.recordsBySpend.set record.spendKey s.records.length
  controlChannels := s.controlChannels.set record.channelKey s.records.length

/-- The options of the session of a record. -/
def sessionOptions (record : Record B) (readiness : Option (Readiness B)) :
    Stream.SessionOptions B :=
  let limits := (coreSessionClass record.request.sessionClass).getD (0, 0, 0)
  { family := familyCore
    streamId := record.streamId
    maxBytes := limits.1
    maxBufferedBytes := some (min cfg.plane.maxPerStreamBufferedBytes (1024 * 1024 + 65535))
    idleMillis := some limits.2.1
    lifetimeMillis := some limits.2.2
    readiness := readiness }

/-- The session of a record, up to `buildResult`. -/
def createScope (r : ℕ) (readiness : Option (Readiness B)) (reading again : Option ℕ) : ServiceOp B (Phase B) := do
  let record ← recordOf r
  let scope ← onPlane (Stream.createSession cfg.plane (sessionOptions cfg record readiness) reading again)
  assign r fun record => { record with scope := some scope }
  Act.modify fun s =>
    { s with recordsByScope := s.recordsByScope.set (familyCore, record.streamId) r }
  pure (.building r)

/-- What `_buildAndValidateResult` asks of a result. -/
def ResultFrozen (record : Record B) (result : OpenResult B) : Prop :=
  result.Canonical ∧ result.relayBinding.relayPublicKey = cfg.relayPublicKey ∧
    result.wireProfileHash = record.request.wireProfileHash ∧
    result.sessionClass = record.request.sessionClass ∧
    result.controlChannelId = record.request.controlChannelId ∧
    result.parentChannelBinding = record.request.parentChannelBinding ∧
    result.streamId = record.streamId ∧
    coreSessionClass record.request.sessionClass =
      some (result.maxSessionBytes, result.idleMillis, result.lifetimeMillis) ∧
    result.openedAtEpoch = record.openedAtEpoch ∧
    result.requestNonce = record.request.clientNonce ∧
    result.requestCommitment = record.requestCommitment

instance (record : Record B) (result : OpenResult B) :
    Decidable (ResultFrozen cfg record result) := inferInstanceAs (Decidable (_ ∧ _))

/-- Call a persistence hook with `_persistentRecord(record, state)`. -/
def Record.persist (record : Record B) (state : LifecycleState) (terminalReason : Option String) :
    Record B :=
  { record with calls := record.calls ++ [⟨state, record.result, terminalReason⟩] }

/-- From `buildResult` to `persistence.reserve`. -/
def built (r : ℕ) (answer : Except Failure (OpenResult B)) : ServiceOp B (Phase B) := do
  let record ← recordOf r
  let result ← Act.ofExcept answer
  Act.ofExcept (require (ResultFrozen cfg record result)
    (failure .internal "CORE result builder changed a frozen open field"))
  assign r fun record => { record with result := some result }
  assign r fun record => record.persist .reserved none
  pure (.reserving r)

/-- From `persistence.reserve` to `openUpstream`. -/
def reserved (r : ℕ) (answer : Except Failure Unit) : ServiceOp B (Phase B) := do
  Act.ofExcept answer
  assign r fun record => { record with status := .reserved }
  assign r fun record => { record with upstreams := record.upstreams + 1 }
  pure (.dialing r)

/-- From `openUpstream` to `persistence.activate`; the answer says whether what was returned is a
stream port. -/
def dialed (r : ℕ) (answer : Except Failure Bool) (look : Look) : ServiceOp B (Phase B) := do
  let port ← Act.ofExcept answer
  let record ← recordOf r
  let scope ← Act.ofExcept (demand record.scope (failure .typeError "Cannot read properties of null"))
  let _ ← onPlane (Stream.assertActive scope look)
  Act.ofExcept (require (port = true) (failure .typeError "upstream must be an injected stream port"))
  assign r fun record => { record with child := some false }
  assign r fun record => record.persist .live none
  pure (.activating r)

/-- From `persistence.activate` to the end. -/
def activated (r : ℕ) (answer : Except Failure Unit) (ticket : TicketInputs B) (issued : Option ℕ)
    (inputs : ResponseInputs B) : ServiceOp B (Phase B) := do
  Act.ofExcept answer
  assign r fun record => { record with status := .live }
  let record ← recordOf r
  let scope ← Act.ofExcept (demand record.scope (failure .typeError "Cannot read properties of null"))
  let token ← issueTicket cfg record scope ticket
  assign r fun record =>
    { record with ticket := some token, ticketIssuedMonotonicMillis := issued }
  let answer ← response cfg r false inputs
  pure (.returned answer)

/-! ### The end of a record -/

/-- `_persistTerminal`, up to its `await`. -/
def Record.persistTerminal (record : Record B) (reason : String) : Record B :=
  if record.terminalPersisted then record
  else { record with terminalPersisted := true }.persist .terminal (some (sliceReason reason))

/-- `_onScopeClose`, up to its first `await`; the teardown of the child changes no record. -/
def Record.onScopeClose (record : Record B) (reason : String) : Record B :=
  ({ record with
      status := .terminal
      terminalReason := some reason
      closeHookRun := true }).persistTerminal reason

/-- The code of an error as the source spells it. -/
def errorName : Stream.ErrorCode → String
  | .badEncoding => "BAD_ENCODING"
  | .busy => "BUSY"
  | .conflict => "CONFLICT"
  | .expired => "EXPIRED"
  | .internal => "INTERNAL"
  | .notFound => "NOT_FOUND"
  | .retryTerminal => "RETRY_TERMINAL"
  | .spendInvalid => "SPEND_INVALID"
  | .spendReplay => "SPEND_REPLAY"
  | .tooLarge => "TOO_LARGE"
  | .transportUnsupported => "TRANSPORT_UNSUPPORTED"
  | .typeError | .plain => "open-failed"

/-- The assignments of the `catch` block of `open`. -/
def Record.failed (record : Record B) (error : Failure) : Record B :=
  { record with status := .terminal, terminalReason := some (errorName error.code) }

/-- The `catch` block of `open`, up to its `await`. -/
def Service.caught (s : Service B) (call r : ℕ) (error : Failure) : Service B :=
  match s.records[r]? with
  | none => s
  | some record =>
    match record.scope with
    | some scope =>
      { s.setRecord r (record.failed error) with
        plane := s.plane.closeScope scope "core-open-failed" }.setCall call (.closing r error)
    | none =>
      (s.setRecord r ((record.failed error).persistTerminal "core-open-failed")).setCall call (.closing r error)

/-- What the `catch` block throws in the end. -/
def terminalError (error : Failure) : Failure :=
  if error.code = .typeError ∨ error.code = .plain then
    failure .internal "CORE upstream allocation failed terminally"
  else error

/-- From `nowEpoch` to `buildResult`: the record is created, and then its session. -/
def timed (held : Admitted B) (streamId : ℕ) (answer : Except Failure ℕ) :
    ServiceOp B ℕ := do
  let epoch ← Act.ofExcept answer
  let openedAtEpoch ← Act.ofExcept (u32 epoch "openedAtEpoch")
  let s ← Act.get
  Act.modify fun s => s.addRecord (held.record streamId openedAtEpoch)
  pure s.records.length

/-! ### Steps -/

/-- Before there is a record: what is thrown ends the call. -/
def Service.proceed (s : Service B) (call : ℕ) (x : ServiceOp B (Phase B)) : Service B :=
  match x s with
  | (.ok phase, s') => s'.setCall call phase
  | (.error e, s') => s'.setCall call (.failed e)

/-- In the `try` block of a record. -/
def Service.proceedWith (s : Service B) (call r : ℕ) (x : ServiceOp B (Phase B)) : Service B :=
  match x s with
  | (.ok phase, s') => s'.setCall call phase
  | (.error e, s') => s'.caught call r e

/-- Create a record and go on with it. -/
def Service.create (s : Service B) (call : ℕ) (held : Admitted B) (streamId : ℕ)
    (answer : Except Failure ℕ) (reading again : Option ℕ) : Service B :=
  match timed held streamId answer s with
  | (.ok r, s') => s'.proceedWith call r (createScope cfg r held.readiness reading again)
  | (.error e, s') => s'.setCall call (.failed e)

/-- `attach`; the answer says whether the caller is a stream port. -/
def attach (token : B) (expected : Stream.TicketBinding B) (port : Bool) (reading : Option ℕ)
    (look again : Look) : ServiceOp B Unit := do
  let scope ← onPlane (Stream.consumeTicket cfg.plane token { expected with family := familyCore } reading look)
  let session ← onPlane (Stream.scopeOf scope)
  let s ← Act.get
  let unmatched := failure .retryTerminal "CORE ticket has no matching live open record"
  let r ← Act.ofExcept (demand (s.recordsByScope.get? session.key) unmatched)
  let record ← recordOf r
  Act.ofExcept (require (record.status = .live ∧ record.parent = expected.parentSessionId) unmatched)
  let scope ← Act.ofExcept (demand record.scope unmatched)
  let _ ← onPlane (Stream.assertActive scope again)
  Act.ofExcept (require (record.child ≠ some true) (failure .retryTerminal "CORE child stream is already attached"))
  Act.ofExcept (require (port = true) (failure .typeError "caller must be an injected stream port"))
  assign r fun record =>
    { record with
      child := some true
      ticket := none
      ticketIssuedMonotonicMillis := none }

/-- One thing that happens: a call begins, a hook that a call awaits settles, a close hook runs, or
something else is done with the plane. -/
inductive ServiceMove (B : Type) where
  | openCall (request : OpenRequest B) (nativeTransport : Bool)
  | authenticated (call : ℕ) (answer : Except Failure (Option (ParentAuth B)))
      (inputs : ResponseInputs B)
  | admitted (call : ℕ) (answer : Except Failure (Option (Admission B)))
      (inputs : ResponseInputs B)
  | allocated (call : ℕ) (answer : Except Failure ℕ)
  | timed (call : ℕ) (answer : Except Failure ℕ) (reading again : Option ℕ)
  | built (call : ℕ) (answer : Except Failure (OpenResult B))
  | reserved (call : ℕ) (answer : Except Failure Unit)
  | dialed (call : ℕ) (answer : Except Failure Bool) (look : Look)
  | activated (call : ℕ) (answer : Except Failure Unit) (ticket : TicketInputs B)
      (issued : Option ℕ) (inputs : ResponseInputs B)
  /-- What the `catch` block awaits settles. -/
  | closed (call : ℕ)
  /-- The close hook of the scope of a record runs. -/
  | closeHook (record : ℕ)
  /-- A call of `persistence.terminal` fails. -/
  | terminalFailed
  | attach (token : B) (expected : Stream.TicketBinding B) (port : Bool) (reading : Option ℕ)
      (look again : Look)
  /-- A fence, an expiry, a close or another session of the plane. -/
  | plane (move : PlaneMove B)

def serviceStep (s : Service B) : ServiceMove B → Option (Service B)
  | .openCall request nativeTransport =>
    let s' := { s with calls := s.calls ++ [Phase.authenticating request] }
    some (s'.proceed s.calls.length (openCall cfg request nativeTransport))
  | .authenticated call answer inputs =>
    match s.calls[call]? with
    | some (.authenticating request) =>
      some (s.proceed call (authenticated cfg request answer inputs))
    | _ => none
  | .admitted call answer inputs =>
    match s.calls[call]? with
    | some (.admitting prepared) =>
      some (s.proceed call (admitted cfg prepared answer inputs))
    | _ => none
  | .allocated call answer =>
    match s.calls[call]? with
    | some (.allocating held) => some (s.proceed call (allocated held answer))
    | _ => none
  | .timed call answer reading again =>
    match s.calls[call]? with
    | some (.timing held streamId) =>
      some (s.create cfg call held streamId answer reading again)
    | _ => none
  | .built call answer =>
    match s.calls[call]? with
    | some (.building r) => some (s.proceedWith call r (built cfg r answer))
    | _ => none
  | .reserved call answer =>
    match s.calls[call]? with
    | some (.reserving r) => some (s.proceedWith call r (reserved r answer))
    | _ => none
  | .dialed call answer look =>
    match s.calls[call]? with
    | some (.dialing r) => some (s.proceedWith call r (dialed r answer look))
    | _ => none
  | .activated call answer ticket issued inputs =>
    match s.calls[call]? with
    | some (.activating r) =>
      some (s.proceedWith call r (activated cfg r answer ticket issued inputs))
    | _ => none
  | .closed call =>
    match s.calls[call]? with
    | some (.closing _ error) => some (s.setCall call (.failed (terminalError error)))
    | _ => none
  | .closeHook r =>
    match s.records[r]? with
    | none => none
    | some record =>
      match record.scope.bind fun scope => s.plane.scopes[scope]? with
      | none => none
      | some scope =>
        if scope.closed = true ∧ record.closeHookRun = false then
          some (s.setRecord r (record.onScopeClose (scope.closeReason.getD "closed")))
        else none
  | .terminalFailed => some { s with persistenceFailure := true }
  | .attach token expected port reading look again =>
    some (attach cfg token expected port reading look again s).2
  | .plane move => (planeStep cfg.plane s.plane move).map fun p => { s with plane := p }

/-! ### Records of an earlier run -/

/-- A record as `_restoreRecoveredRecords` reads it. -/
structure Recovered (B : Type) where
  lifecycleState : LifecycleState
  terminalReason : Option String
  request : OpenRequest B
  (logicalRetryKey requestCommitment spendTag parentSessionId : B)
  (streamId maxSessionBytes idleMillis lifetimeMillis openedAtEpoch : ℕ)
  result : Option (OpenResult B)

/-- The terminal record that `_restoreRecoveredRecords` puts in. -/
def Recovered.record (recovered : Recovered B) : Record B where
  __ := recovered
  logicalKey := recovered.logicalRetryKey
  spendKey := recovered.spendTag
  channelKey := (recovered.parentSessionId, recovered.request.controlChannelId)
  parent := recovered.parentSessionId
  status := .terminal
  terminalPersisted := true
  scope := none
  closeHookRun := false
  child := none
  ticket := none
  ticketIssuedMonotonicMillis := none
  preparedAdmission := none
  calls := []
  upstreams := 0

/-- The body of the loop of `_restoreRecoveredRecords`. -/
def restoreRecord (s : Service B) (recovered : Recovered B) : Except Failure (Service B) := do
  require (recovered.lifecycleState = .terminal ∧ recovered.terminalReason ≠ none)
    (failure .typeError "recovered CORE OPEN records must already be terminal")
  require (cfg.coreOpenReplicationLogicalRetryKey recovered.request = recovered.logicalRetryKey)
    (failure .typeError "recovered CORE OPEN logical retry key is invalid")
  require (cfg.coreOpenReplicationRequestCommitment recovered.request = recovered.requestCommitment)
    (failure .typeError "recovered CORE OPEN request commitment is invalid")
  require (s.recordsByLogical.has recovered.logicalRetryKey = false ∧
      s.recordsBySpend.has recovered.spendTag = false ∧
      s.controlChannels.has (recovered.parentSessionId, recovered.request.controlChannelId) = false ∧
      s.recordsByLogical.size < cfg.maxRecords)
    (failure .typeError "recovered CORE OPEN indexes collide or exceed their bound")
  require (coreSessionClass recovered.request.sessionClass =
      some (recovered.maxSessionBytes, recovered.idleMillis, recovered.lifetimeMillis))
    (failure .typeError "recovered CORE OPEN class limits are invalid")
  pure (s.addRecord recovered.record)

def Service.empty (plane : Plane B) : Service B where
  plane := plane
  records := []
  recordsByLogical := .empty
  recordsBySpend := .empty
  controlChannels := .empty
  recordsByScope := .empty
  persistenceFailure := false
  calls := []

/-- `_restoreRecoveredRecords`, as the constructor calls it. -/
def restoreRecoveredRecords (plane : Plane B) (records : List (Recovered B)) : Except Failure (Service B) :=
  records.foldlM (restoreRecord cfg) (.empty plane)

end Methods

end HiveRelay.CoreOpen
