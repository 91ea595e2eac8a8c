import HiveRelay.Quota.Authority

/-!
# Calls of the aggregate quota that overlap

The calls on a quota authority are asynchronous. Each runs up to its first await, and what is left of
it runs at some later time, after other calls have run. A reserve waits for the promise of the reserve
before it, and its own promise is resolved by whoever ends the operation.

A step of the authority is a call up to its await, or the rest of one. The hash and the head of an
appended frame are those that the log answers with. Calls that are rejected are steps too.
-/

namespace HiveRelay.Quota

inductive Flight where
  /-- A reserve waits for the operation before it. -/
  | acquire (ticket : ℕ) (role : QuotaRole) (plan : Plan)
  /-- A reserve measures the directories. -/
  | measure (ticket : ℕ) (role : QuotaRole) (plan : Plan)
  /-- A frame is appended. -/
  | append (reservation : ℕ) (role : QuotaRole) (storeRole : StoreRole) (ordinal : ℕ)
      (durable : WalFrame)
  /-- A commit measures the directories. -/
  | commit (reservation : ℕ) (role : QuotaRole)
  /-- A release waits for the fault injector. -/
  | release (reservation : ℕ)
  /-- An adjustment measures the directories. -/
  | adjust (reservation : ℕ)
  deriving DecidableEq

/-- The state of an authority. Reservations are numbered by their tickets; `released` has the tickets
whose promises were resolved. -/
structure Authority where
  limits : Limits
  ledger : Ledger
  wal : StoreRole → List WalFrame
  failed : Bool
  pending : Option ℕ
  reservations : OrderedMap ℕ Reservation
  tickets : ℕ
  released : List ℕ
  flights : List Flight

def durableFrame (wal : List WalFrame) (type : ℕ) (payload payloadHash walHash : Bytes) : WalFrame where
  type := type
  payload := payload
  payloadHash := payloadHash
  sequence := wal.length + 1
  previousWalHash := wal.getLast?.elim zero32 WalFrame.walHash
  walHash := walHash
  frameBytes := payload.length + walFrameOverheadBytes

namespace Authority

def setReservation (st : Authority) (k : ℕ) (r : Reservation) : Authority :=
  { st with reservations := st.reservations.set k r }

def await (st : Authority) (flight : Flight) : Authority :=
  { st with flights := st.flights ++ [flight] }

def releaseOpFor (st : Authority) (k : ℕ) : Authority :=
  match st.reservations.get? k with
  | none => st
  | some r =>
    match r.opRelease with
    | none => st
    | some ticket => { st with
        reservations := st.reservations.set k { r with opRelease := none }
        released := ticket :: st.released }

/-- The pending reservation is forgotten and its mutex is released. -/
def finish (st : Authority) (k : ℕ) : Authority := { st with pending := none }.releaseOpFor k

/-- `failForwardHttpsAggregateQuotaWalAttemptV3`. -/
def failWal (st : Authority) (role : QuotaRole) (token : Option ℕ) : Authority :=
  if st.failed = true ∨ role.store? = none ∨ (token ≠ none ∧ token ≠ st.pending) then st
  else
    let st := { st with failed := true }
    match st.pending with
    | none => st
    | some k => st.releaseOpFor k

/-- What a `catch` does with the log, of a reservation that may have attempted an append. -/
def failAttempted (st : Authority) (role : QuotaRole) (k : ℕ) (r : Reservation) : Authority :=
  if r.walAttempted = true then st.failWal role (some k) else st

/-- A reservation that a capability may use. -/
def usable (st : Authority) (role : QuotaRole) (k : ℕ) : Option Reservation :=
  if st.failed = true then none
  else (st.reservations.get? k).filter fun r => !r.burned && r.role == role

end Authority

/-- A call, or the rest of one; the directories are measured when it ends. -/
inductive Act where
  | reserve (role : QuotaRole) (request : PlanRequest)
  | bind (role : QuotaRole) (reservation : ℕ) (input : ActualBuffers)
  | apply (role : QuotaRole) (reservation ordinal type : ℕ) (payload payloadHash walHash : Bytes)
  | commit (role : QuotaRole) (reservation : ℕ) (head : ℕ × Bytes)
  | release (role : QuotaRole) (reservation : ℕ)
  | adjust (role : QuotaRole) (tombstone : Bytes) (head : ℕ × Bytes)
  | failWal (role : QuotaRole) (token : Option ℕ)
  | resume (flight : Flight) (physical : QuotaRole → ℕ)

namespace Authority

variable (C : Crypto)

/-- `reserveForwardHttpsAggregateQuotaV3` up to its mutex. -/
def reserve (st : Authority) (role : QuotaRole) (request : PlanRequest) : Authority :=
  if st.failed = true then st
  else match createPlan C role request with
  | .error _ => st
  | .ok plan => { st with tickets := st.tickets + 1 }.await (.acquire st.tickets role plan)

/-- A reserve that was woken checks the authority once more. -/
def acquired (st : Authority) (ticket : ℕ) (role : QuotaRole) (plan : Plan) : Authority :=
  if st.failed = true then { st with pending := none, released := ticket :: st.released }
  else st.await (.measure ticket role plan)

def measured (st : Authority) (ticket : ℕ) (role : QuotaRole) (plan : Plan) (physical : QuotaRole → ℕ) : Authority :=
  let st := { st with ledger := { st.ledger with physical := physical } }
  match reserved st.limits st.ledger role plan ticket with
  | .error _ => { st with pending := none, released := ticket :: st.released }
  | .ok r => { st.setReservation ticket r with pending := some ticket }

/-- `bindForwardHttpsStoreQuotaActualBuffersV3`. -/
def bindBuffers (st : Authority) (role : QuotaRole) (k : ℕ) (input : ActualBuffers) : Authority :=
  match st.usable role k with
  | none => st
  | some r =>
    match bindForwardHttpsStoreQuotaActualBuffersV3 C st.ledger role r input with
    | .error _ => st
    | .ok r' => st.setReservation k r'

/-- `applyForwardHttpsAggregateQuotaWalFrameV3` up to its append. A replay journal has nothing bound
that it could apply. -/
def applyFrame (st : Authority) (role : QuotaRole) (k ordinal type : ℕ)
    (payload payloadHash walHash : Bytes) : Authority :=
  match role.store?, st.usable role k with
  | some storeRole, some r =>
    match beginApply role r ordinal type payload with
    | .refused _ => st
    | .rejected r' _ => (st.setReservation k r').failAttempted role k r'
    | .appending r' =>
      let durable := durableFrame (st.wal storeRole) type payload payloadHash walHash
      { st.setReservation k r' with
        wal := Function.update st.wal storeRole (st.wal storeRole ++ [durable]) }.await
          (.append k role storeRole ordinal durable)
  | _, _ => st

def appended (st : Authority) (k : ℕ) (role : QuotaRole) (storeRole : StoreRole) (ordinal : ℕ)
    (durable : WalFrame) : Authority :=
  match st.reservations.get? k with
  | none => st
  | some r =>
    match applied C storeRole (st.ledger.sessions storeRole) r ordinal durable with
    | .error _ => st.failAttempted role k r
    | .ok (r', sessions, _) =>
      { st.setReservation k r' with ledger := st.ledger.setSessions storeRole sessions }

/-- `commitForwardHttpsAggregateQuotaV3` up to its measurement. -/
def commit (st : Authority) (role : QuotaRole) (k : ℕ) (head : ℕ × Bytes) : Authority :=
  match st.usable role k with
  | none => st
  | some r =>
    match commitChecks role r head with
    | .error _ => (st.failAttempted role k r).finish k
    | .ok _ =>
      { st.setReservation k { r with burned := true } with
        ledger := Quota.committed st.ledger role r }.await (.commit k role)

def committed (st : Authority) (k : ℕ) (role : QuotaRole) (physical : QuotaRole → ℕ) : Authority :=
  let st := { st with ledger := { st.ledger with physical := physical } }
  match st.reservations.get? k with
  | none => st
  | some r =>
    match ensureQuota st.limits st.ledger none 0 0 false with
    | .error _ => (st.failAttempted role k r).finish k
    | .ok _ => st.finish k

/-- `releaseForwardHttpsAggregateQuotaV3` up to the fault injector. -/
def release (st : Authority) (role : QuotaRole) (k : ℕ) : Authority :=
  match st.usable role k with
  | none => st
  | some r => if r.walAttempted = true then st.finish k else st.await (.release k)

/-- The rest of a release; that of a terminal record fails the authority. -/
def released' (st : Authority) (k : ℕ) : Authority :=
  match st.reservations.get? k with
  | none => st
  | some r =>
    let st := (st.setReservation k { r with
      burned := true
      claims := r.claims.map fun _ => .burned }).finish k
    if r.plan.operation = .sessionTerminal ∨ r.terminal ≠ none then { st with failed := true } else st

/-- `adjustForwardHttpsAggregateQuotaV3` up to its measurement, of the reservation that is pending. -/
def adjust (st : Authority) (role : QuotaRole) (tombstone : Bytes) (head : ℕ × Bytes) : Authority :=
  match role.store? with
  | none => st
  | some storeRole =>
    if st.failed = true then st
    else match st.pending with
    | none => st
    | some k =>
      match st.reservations.get? k with
      | none => { st with pending := none }
      | some r =>
        match adjustChecks C (st.ledger.sessions storeRole) role r tombstone head with
        | .error _ => (st.failAttempted role k r).finish k
        | .ok pruned =>
          match Quota.adjusted C st.ledger storeRole pruned with
          | .error _ => (st.failAttempted role k r).finish k
          | .ok ledger => { st with ledger := ledger }.await (.adjust k)

def adjusted (st : Authority) (k : ℕ) (physical : QuotaRole → ℕ) : Authority :=
  let st := { st with ledger := { st.ledger with physical := physical } }
  match st.reservations.get? k with
  | none => st
  | some r => (st.setReservation k { r with burned := true }).finish k

/-- The rest of a call can run: that of a reserve when the promise before it was resolved. -/
def Ready (st : Authority) : Flight → Prop
  | .acquire ticket _ _ => ticket = 0 ∨ ticket - 1 ∈ st.released
  | _ => True

instance (st : Authority) (flight : Flight) : Decidable (st.Ready flight) := by
  unfold Ready
  split <;> infer_instance

def step (st : Authority) : Act → Authority
  | .reserve role request => st.reserve C role request
  | .bind role k input => st.bindBuffers C role k input
  | .apply role k ordinal type payload payloadHash walHash =>
    st.applyFrame role k ordinal type payload payloadHash walHash
  | .commit role k head => st.commit role k head
  | .release role k => st.release role k
  | .adjust role tombstone head => st.adjust C role tombstone head
  | .failWal role token => st.failWal role token
  | .resume flight physical =>
    if flight ∈ st.flights ∧ st.Ready flight then
      let st := { st with flights := st.flights.erase flight }
      match flight with
      | .acquire ticket role plan => st.acquired ticket role plan
      | .measure ticket role plan => st.measured ticket role plan physical
      | .append k role storeRole ordinal durable => st.appended C k role storeRole ordinal durable
      | .commit k role => st.committed k role physical
      | .release k => st.released' k
      | .adjust k => st.adjusted k physical
    else st

end Authority

/-! ### The steps that keep operations apart -/

/-- A call does none of the following. A commit is rejected before anything of its reservation was
appended, or while it is being released. A release is made when something was appended, or a second
time. A frame is applied while its reservation is being released. An adjustment is not of the pending
reservation, or before its frame, or a second one, or of another tombstone than was appended. The log
is failed while a reserve measures. -/
def Allowed (st : Authority) : Act → Prop
  | .apply role k _ _ _ _ _ => st.usable role k ≠ none → .release k ∉ st.flights
  | .commit role k head => ∀ r, st.usable role k = some r →
      (r.walAttempted = true ∨ commitChecks role r head = .ok ()) ∧ .release k ∉ st.flights
  | .release role k => ∀ r, st.usable role k = some r →
      r.walAttempted = false ∧ .release k ∉ st.flights
  | .adjust role tombstone _ => st.failed = false → ∀ storeRole k, role.store? = some storeRole →
      st.pending = some k → ∃ r, st.reservations.get? k = some r ∧ r.role = role ∧
        r.plan.operation = .prune ∧ r.walAttempted = true ∧ .adjust k ∉ st.flights ∧
        ∀ f, (st.wal storeRole).getLast? = some f → f.payload = tombstone
  | .failWal role token => st.failed = false → role.store? ≠ none →
      (token = none ∨ token = st.pending) →
      ∀ ticket role plan, .measure ticket role plan ∉ st.flights
  | _ => True

end HiveRelay.Quota
