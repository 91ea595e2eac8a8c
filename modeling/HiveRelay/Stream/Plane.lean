import HiveRelay.Lib.Act
import HiveRelay.Lib.Bytes
import HiveRelay.Lib.OrderedMap

/-!
# The stream plane

`StreamSessionPlane` holds the sessions of the private streams of a daemon. A session has a lifetime,
an idle limit and a readiness descriptor; bytes that are in transit are reserved against its buffer
and against the buffer of the plane, and a one-use ticket lets a caller attach to it.

A method reads the monotonic clock and asks the readiness hook as it goes; each reading and each
answer is an argument here. What a scope has reserved is listed once and for all, so that a release
closure is the number of its reservation. The ticket of a stream is bound to five fields, by the hash of
their encoding; what was issued and consumed is on record with the fields themselves.
-/

namespace HiveRelay.Stream

/-! ### What is thrown -/

/-- The codes of a `BlindProtocolError`; `typeError` for a `TypeError`. -/
inductive ErrorCode where
  | badEncoding | busy | conflict | expired | internal | notFound | retryTerminal | spendInvalid
  | spendReplay | tooLarge | transportUnsupported | typeError | plain
  deriving DecidableEq

structure Failure where
  code : ErrorCode
  message : String

/-- `new BlindProtocolError(code, message)`. -/
def failure (code : ErrorCode) (message : String) : Failure := ⟨code, message⟩

def maxU64 : ℕ := 2 ^ 64 - 1

/-- `FAMILY.CORE`. -/
def familyCore : ℕ := 4

/-- `FAMILY.FORWARD`. -/
def familyForward : ℕ := 5

def u64 (value : ℕ) (field : String) : Except Failure ℕ := do
  require (value ≤ maxU64) (failure .badEncoding (field ++ " is outside u64"))
  pure value

def positiveInteger (value : Option ℕ) (fallback : Option ℕ) (field : String) : Except Failure (Option ℕ) :=
  match value with
  | none => pure fallback
  | some v => do
    require (1 ≤ v) (failure .typeError (field ++ " must be a positive safe integer"))
    pure (some v)

/-- `currentMonotonic` of a reading; `none` is a reading that is no bigint. -/
def currentMonotonic (reading : Option ℕ) : Except Failure ℕ := do
  let now ← demand reading (failure .typeError "monotonicMillis must return a u64 bigint")
  require (now ≤ maxU64) (failure .typeError "monotonicMillis must return a u64 bigint")
  pure now

/-! ### Sessions -/

section Values

variable (B : Type)

structure Readiness where
  descriptorSequence : ℕ
  descriptorHash : B
  expiresMonotonicMillis : ℕ

structure BufferReservation where
  active : Bool
  length : ℕ

/-- The key of a session: `${family}:${streamId}`. -/
abbrev StreamKey : Type := ℕ × ℕ

/-- A `StreamScope`. -/
structure StreamScope where
  (family streamId maxBytes maxBufferedBytes idleMillis lifetimeMillis : ℕ)
  readiness : Readiness B
  (openedMonotonicMillis lastActivityMonotonicMillis totalBytes : ℕ)
  bufferedBytes : ℤ
  /-- The reservations that were made; those that are active are in the set of the source. -/
  reservations : List BufferReservation
  closed : Bool
  closeReason : Option String

/-- The `record` of a ticket. -/
structure TicketRecord where
  bindingHash : B
  scopeId : StreamKey
  /-- The scope, by its number. -/
  payload : ℕ
  expiresMonotonicMillis : ℕ
  /-- How many tickets were issued before. -/
  number : ℕ

/-- What `streamTicketBinding` hashes. -/
structure TicketBinding where
  (family streamId descriptorSequence : ℕ)
  (descriptorHash parentSessionId : B)
  deriving DecidableEq

/-- What is recorded of a ticket that was issued. -/
structure IssuedTicket where
  token : B
  binding : TicketBinding B
  (scope expiresMonotonicMillis : ℕ)

/-- What is recorded of a ticket that was consumed. -/
structure ConsumedTicket where
  number : ℕ
  token : B
  /-- The binding that was expected of it. -/
  binding : TicketBinding B
  scope : ℕ
  /-- The reading of the clock at which it was found to be live. -/
  now : ℕ

/-- A `StreamSessionPlane` with its tickets. -/
structure Plane where
  /-- The scopes that were created, by their number. -/
  scopes : List (StreamScope B)
  sessions : OrderedMap StreamKey ℕ
  bufferedBytes : ℤ
  closing : Bool
  tickets : OrderedMap B (TicketRecord B)
  issued : List (IssuedTicket B)
  consumed : List (ConsumedTicket B)

/-- The options of a plane, as its constructor accepts them. -/
structure PlaneConfig where
  (maxStreams maxBufferedBytes maxPerStreamBufferedBytes maxTickets ttlMillis : ℕ)
  /-- The bytes of a value, which stands for a buffer. -/
  bytes : B → Bytes
  blake2b256 : Bytes → B
  one_le_maxStreams : 1 ≤ maxStreams
  one_le_perStream : 1 ≤ maxPerStreamBufferedBytes
  perStream_le : maxPerStreamBufferedBytes ≤ maxBufferedBytes

/-- The options of `createSession`. -/
structure SessionOptions where
  (family streamId maxBytes : ℕ)
  (maxBufferedBytes idleMillis lifetimeMillis : Option ℕ)
  readiness : Option (Readiness B)

end Values

def Plane.new (B : Type) : Plane B := ⟨[], ⟨[], List.nodup_nil⟩, 0, false, ⟨[], List.nodup_nil⟩, [], []⟩

variable {B : Type} [DecidableEq B]

abbrev PlaneOp (B α : Type) : Type := Act (Plane B) Failure α

/-- What `assertActive` takes from outside: a reading of the clock and the answer of `isReady`. -/
structure Look where
  now : Option ℕ
  ready : Bool

def StreamScope.key (s : StreamScope B) : StreamKey := (s.family, s.streamId)

def streamKey (family streamId : ℕ) : Except Failure StreamKey := do
  require (family = familyCore ∨ family = familyForward)
    (failure .badEncoding "private stream family must be CORE or FORWARD")
  let streamId ← u64 streamId "streamId"
  require (streamId ≠ 0) (failure .badEncoding "streamId must be nonzero")
  pure (family, streamId)

/-- `String(reason).slice(0, 64)`. -/
def sliceReason (reason : String) : String := String.ofList (reason.toList.take 64)

def StreamScope.terminated (s : StreamScope B) (reason : String) : StreamScope B :=
  { s with
    closed := true
    closeReason := some (sliceReason reason)
    reservations := s.reservations.map fun r => { r with active := false }
    bufferedBytes := 0 }

def Plane.revokeScope (p : Plane B) (scopeId : StreamKey) : Plane B :=
  { p with tickets := p.tickets.filter fun _ record => record.scopeId ≠ scopeId }

def Plane.sweep (p : Plane B) (now : ℕ) : Plane B :=
  { p with tickets := p.tickets.filter fun _ record => now < record.expiresMonotonicMillis }

/-- `StreamScope.close`. -/
def Plane.closeScope (p : Plane B) (i : ℕ) (reason : String) : Plane B :=
  match p.scopes[i]? with
  | none => p
  | some s =>
    if s.closed then p
    else
      { p.revokeScope s.key with
        scopes := p.scopes.set i (s.terminated reason)
        bufferedBytes := p.bufferedBytes - s.bufferedBytes
        sessions := p.sessions.delete s.key }

def Plane.setScope (p : Plane B) (i : ℕ) (s : StreamScope B) : Plane B :=
  { p with scopes := p.scopes.set i s }

def closeAndFail {α : Type} (i : ℕ) (reason : String) (error : Failure) : PlaneOp B α := do
  Act.modify fun p => p.closeScope i reason
  Act.throw error

/-- The scope of a number; the callers hold references to scopes of this plane. -/
def scopeOf (i : ℕ) : PlaneOp B (StreamScope B) := do
  let p ← Act.get
  Act.ofExcept (demand p.scopes[i]? (failure .typeError "scope belongs to another stream plane"))

def assertActive (i : ℕ) (look : Look) : PlaneOp B ℕ := do
  let s ← scopeOf i
  if s.closed then
    Act.throw (failure .retryTerminal ("stream is terminal (" ++ s.closeReason.getD "closed" ++ ")"))
  else do
    let now ← Act.ofExcept (currentMonotonic look.now)
    if look.ready = false then
      closeAndFail i "readiness-expired" (failure .expired "stream readiness descriptor is no longer active")
    else if s.readiness.expiresMonotonicMillis ≤ now then
      closeAndFail i "readiness-expired" (failure .expired "stream readiness has expired")
    else if s.openedMonotonicMillis + s.lifetimeMillis ≤ now then
      closeAndFail i "lifetime-expired" (failure .expired "stream lifetime has expired")
    else if s.lastActivityMonotonicMillis + s.idleMillis ≤ now then
      closeAndFail i "idle-expired" (failure .expired "stream idle limit has expired")
    else pure now

/-- `StreamScope._scheduleExpiry`: a reading of the clock, and a timer. -/
def scheduleExpiry (i : ℕ) (reading : Option ℕ) : PlaneOp B Unit := do
  let s ← scopeOf i
  if s.closed then pure ()
  else do
    let _ ← Act.ofExcept (currentMonotonic reading)
    pure ()

def touch (i : ℕ) (look : Look) (reading : Option ℕ) : PlaneOp B Unit := do
  let now ← assertActive i look
  let s ← scopeOf i
  Act.modify fun p => p.setScope i { s with lastActivityMonotonicMillis := now }
  scheduleExpiry i reading

def countBytes (i length : ℕ) (look again : Look) (reading : Option ℕ) : PlaneOp B Unit := do
  Act.ofExcept (require (1 ≤ length) (failure .badEncoding "stream byte count must be positive"))
  let _ ← assertActive i look
  let s ← scopeOf i
  if s.maxBytes < s.totalBytes + length then
    closeAndFail i "byte-cap" (failure .tooLarge "stream aggregate byte cap exceeded")
  else do
    Act.modify fun p => p.setScope i { s with totalBytes := s.totalBytes + length }
    touch i again reading

/-- A scope with one more reservation. -/
def StreamScope.reserve (s : StreamScope B) (length : ℕ) : StreamScope B :=
  { s with
    reservations := s.reservations ++ [⟨true, length⟩]
    bufferedBytes := s.bufferedBytes + length }

section Methods

variable (cfg : PlaneConfig B)

/-- `StreamScope.reserveBuffer`; the number of the reservation. -/
def reserveBuffer (i length : ℕ) (look : Look) : PlaneOp B ℕ := do
  Act.ofExcept (require (1 ≤ length) (failure .badEncoding "buffer reservation must be positive"))
  let _ ← assertActive i look
  let s ← scopeOf i
  let p ← Act.get
  if s.maxBufferedBytes < s.bufferedBytes + length ∨ cfg.maxBufferedBytes < p.bufferedBytes + length then
    closeAndFail i "buffer-cap" (failure .busy "stream buffer cap exceeded")
  else do
    Act.modify fun p =>
      { p.setScope i (s.reserve length) with bufferedBytes := p.bufferedBytes + length }
    pure s.reservations.length

/-- A scope one of whose reservations is given back. -/
def StreamScope.release (s : StreamScope B) (k : ℕ) (r : BufferReservation) : StreamScope B :=
  { s with
    reservations := s.reservations.set k { r with active := false }
    bufferedBytes := s.bufferedBytes - r.length }

/-- The closure that `reserveBuffer` returns. -/
def releaseBuffer (i k : ℕ) : PlaneOp B Unit := do
  let s ← scopeOf i
  match s.reservations[k]? with
  | none => pure ()
  | some r =>
    if r.active then
      Act.modify fun p =>
        { p.setScope i (s.release k r) with bufferedBytes := p.bufferedBytes - r.length }
    else pure ()

/-- `StreamScope.poll`. -/
def pollScope (i : ℕ) (look : Look) : PlaneOp B Bool := fun p =>
  match assertActive i look p with
  | (.ok _, p') => (.ok true, p')
  | (.error _, p') => (.ok false, p')

def normalizeReadiness (value : Option (Readiness B)) (now : ℕ) : Except Failure (Readiness B) := do
  let readiness ← demand value (failure .expired "stream requires a readiness descriptor fence")
  let _ ← u64 readiness.descriptorSequence "descriptorSequence"
  let _ ← u64 readiness.expiresMonotonicMillis "expiresMonotonicMillis"
  require (now < readiness.expiresMonotonicMillis) (failure .expired "stream readiness has expired")
  pure readiness

/-- The constructor of `StreamScope`. -/
def newScope (options : SessionOptions B) (reading : Option ℕ) : Except Failure (StreamScope B) := do
  let maxBytes ← u64 options.maxBytes "maxBytes"
  require (maxBytes ≠ 0) (failure .badEncoding "maxBytes must be nonzero")
  let maxBufferedBytes ← positiveInteger options.maxBufferedBytes
    (some cfg.maxPerStreamBufferedBytes) "maxBufferedBytes"
  require (maxBufferedBytes.getD 0 ≤ cfg.maxBufferedBytes)
    (failure .typeError "maxBufferedBytes cannot exceed the global stream buffer cap")
  let idleMillis ← positiveInteger options.idleMillis none "idleMillis"
  let lifetimeMillis ← positiveInteger options.lifetimeMillis none "lifetimeMillis"
  let required := failure .typeError "idleMillis and lifetimeMillis are required"
  let idleMillis ← demand idleMillis required
  let lifetimeMillis ← demand lifetimeMillis required
  let now ← currentMonotonic reading
  let readiness ← normalizeReadiness options.readiness now
  pure
    { options with
      maxBytes := maxBytes
      maxBufferedBytes := maxBufferedBytes.getD 0
      idleMillis := idleMillis
      lifetimeMillis := lifetimeMillis
      readiness := readiness
      openedMonotonicMillis := now
      lastActivityMonotonicMillis := now
      totalBytes := 0
      bufferedBytes := 0
      reservations := []
      closed := false
      closeReason := none }

def Plane.addSession (p : Plane B) (s : StreamScope B) : Plane B :=
  { p with
    scopes := p.scopes ++ [s]
    sessions := p.sessions.set s.key p.scopes.length }

/-- `StreamSessionPlane.createSession`; the number of the scope. -/
def createSession (options : SessionOptions B) (reading again : Option ℕ) : PlaneOp B ℕ := do
  let p ← Act.get
  Act.ofExcept (require (p.closing = false) (failure .busy "stream plane is draining"))
  let key ← Act.ofExcept (streamKey options.family options.streamId)
  Act.ofExcept (require (p.sessions.has key = false) (failure .conflict "streamId is already active for this family"))
  Act.ofExcept (require (p.sessions.size < cfg.maxStreams) (failure .busy "active stream capacity is exhausted"))
  let s ← Act.ofExcept (newScope cfg options reading)
  -- the timer of the constructor
  let _ ← Act.ofExcept (currentMonotonic again)
  Act.modify fun p => p.addSession s
  pure p.scopes.length

/-- `bytes(value, field, minimum, maximum)`. -/
def boundedBytes (value : B) (field : String) (minimum maximum : ℕ) : Except Failure Bytes := do
  let output := cfg.bytes value
  require (minimum ≤ output.length ∧ output.length ≤ maximum) (failure .badEncoding
    (field ++ " must be " ++ toString minimum ++ ".." ++ toString maximum ++ " bytes"))
  pure output

def bindingDomain : Bytes := Bytes.ofAscii "hiverelay.blind.private-stream-ticket-binding.v1"

/-- The bytes that `streamTicketBinding` hashes. -/
def bindingMessage (value : TicketBinding B) : Bytes :=
  bindingDomain ++ ([UInt8.ofNat value.family] ++ (Bytes.ofNat 8 value.streamId ++
    (Bytes.ofNat 8 value.descriptorSequence ++ (cfg.bytes value.descriptorHash ++
      (Bytes.ofNat 2 (cfg.bytes value.parentSessionId).length ++ cfg.bytes value.parentSessionId)))))

def streamTicketBinding (value : TicketBinding B) : Except Failure B := do
  require (value.family = familyCore ∨ value.family = familyForward)
    (failure .badEncoding "stream ticket family must be CORE or FORWARD")
  let parentSessionId ← boundedBytes cfg value.parentSessionId "parentSessionId" 1 256
  require (parentSessionId.length ≤ 0xffff) (failure .badEncoding "parentSessionId is too long")
  let streamId ← u64 value.streamId "streamId"
  require (streamId ≠ 0) (failure .badEncoding "streamId must be nonzero")
  let _ ← u64 value.descriptorSequence "descriptorSequence"
  let _ ← boundedBytes cfg value.descriptorHash "descriptorHash" 32 32
  pure (cfg.blake2b256 (bindingMessage cfg value))

def Plane.addTicket (p : Plane B) (token bindingHash : B) (binding : TicketBinding B) (scopeId : StreamKey)
    (payload expires : ℕ) : Plane B :=
  { p with
    tickets := p.tickets.set token
      { bindingHash := bindingHash
        scopeId := scopeId
        payload := payload
        expiresMonotonicMillis := expires
        number := p.issued.length }
    issued := p.issued ++ [⟨token, binding, payload, expires⟩] }

/-- `OneUseStreamTickets.issue`, for the hash of a binding; `token` is the first random token that is not
in use. -/
def issue (bindingHash : B) (binding : TicketBinding B) (scopeId : StreamKey) (payload callerExpiry : ℕ)
    (reading : Option ℕ)
    (token : Option B) : PlaneOp B B := do
  let now ← Act.ofExcept (currentMonotonic reading)
  Act.modify fun p => p.sweep now
  let p ← Act.get
  Act.ofExcept (require (p.tickets.size < cfg.maxTickets)
    (failure .busy "pending stream ticket capacity is exhausted"))
  let callerExpiry ← Act.ofExcept (u64 callerExpiry "expiresMonotonicMillis")
  let expiry := min callerExpiry (now + cfg.ttlMillis)
  Act.ofExcept (require (now < expiry) (failure .expired "stream ticket would already be expired"))
  let token ← Act.ofExcept (demand token
    (failure .plain "ticket entropy source repeatedly returned the all-zero token"))
  Act.modify fun p => p.addTicket token bindingHash binding scopeId payload expiry
  pure token

def issueTicket (i : ℕ) (parentSessionId : B) (look : Look) (reading : Option ℕ)
    (token : Option B) : PlaneOp B B := do
  let _ ← assertActive i look
  let s ← scopeOf i
  let binding : TicketBinding B :=
    { s with
      descriptorSequence := s.readiness.descriptorSequence
      descriptorHash := s.readiness.descriptorHash
      parentSessionId := parentSessionId }
  let bindingHash ← Act.ofExcept (streamTicketBinding cfg binding)
  issue cfg bindingHash binding s.key i s.readiness.expiresMonotonicMillis reading token

/-- `OneUseStreamTickets.consume`; the record and the reading at which it was live. -/
def consume (token binding : B) (reading : Option ℕ) : PlaneOp B (TicketRecord B × ℕ) := do
  let p ← Act.get
  let record ← Act.ofExcept (demand (p.tickets.get? token)
    (failure .retryTerminal "stream ticket is unknown or already consumed"))
  Act.modify fun p => { p with tickets := p.tickets.delete token }
  let now ← Act.ofExcept (currentMonotonic reading)
  Act.ofExcept (require (now < record.expiresMonotonicMillis) (failure .retryTerminal "stream ticket has expired"))
  Act.ofExcept (require (record.bindingHash = binding)
    (failure .retryTerminal "stream ticket binding does not match"))
  pure (record, now)

def consumeTicket (token : B) (expected : TicketBinding B) (reading : Option ℕ) (look : Look) :
    PlaneOp B ℕ := do
  let binding ← Act.ofExcept (streamTicketBinding cfg expected)
  let (record, now) ← consume token binding reading
  let _ ← assertActive record.payload look
  Act.modify fun p =>
    { p with consumed := ⟨record.number, token, expected, record.payload, now⟩ :: p.consumed }
  pure record.payload

structure FenceEvent (B : Type) where
  reason : Option String
  descriptorSequence : Option ℕ
  descriptorHash : Option B

/-- The scope is what an event is about. -/
def FenceEvent.matches (event : FenceEvent B) (s : StreamScope B) : Bool :=
  event.descriptorSequence.all (· = s.readiness.descriptorSequence) &&
    event.descriptorHash.all (· = s.readiness.descriptorHash)

def Plane.closeEach (reason : String) (test : StreamScope B → Bool) (p : Plane B) : List ℕ → Plane B
  | [] => p
  | i :: rest =>
    match p.scopes[i]? with
    | none => p.closeEach reason test rest
    | some s =>
      if test s then (p.closeScope i reason).closeEach reason test rest
      else p.closeEach reason test rest

def fence (event : FenceEvent B) : PlaneOp B Unit := do
  let reason := match event.reason with
    | some r => "readiness-" ++ r
    | none => "readiness-fenced"
  let _ ← Act.ofExcept (u64 (event.descriptorSequence.getD 0) "descriptorSequence")
  Act.modify fun p => p.closeEach reason event.matches p.sessions.values

def pollEach (looks : ℕ → Look) : List ℕ → PlaneOp B Unit
  | [] => pure ()
  | i :: rest => do
    let _ ← pollScope i (looks i)
    pollEach looks rest

def poll (reading : Option ℕ) (looks : ℕ → Look) : PlaneOp B Unit := do
  let now ← Act.ofExcept (currentMonotonic reading)
  Act.modify fun p => p.sweep now
  let p ← Act.get
  pollEach looks p.sessions.values

/-- `StreamSessionPlane.close`. -/
def closePlane (reason : String) : PlaneOp B Unit := do
  let p ← Act.get
  if p.closing then pure ()
  else
    Act.modify fun p =>
      { p with closing := true, tickets := .empty }.closeEach reason (fun _ => true) p.sessions.values

end Methods

end HiveRelay.Stream
