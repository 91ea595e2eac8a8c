import HiveRelay.Quota.LedgerExact

/-!
# Operations of the aggregate quota exclude each other

The mutex of an authority is a chain of promises: the reserve with ticket `t + 1` runs when the promise
of ticket `t` was resolved. The tickets that were resolved are those below a number `h`, the tickets that
wait are those from `h` or `h + 1` on, and in the second case ticket `h` has the mutex. It measures, or
it has a reservation, and of that at most one call is in flight.

`Phase` says which of these it is, and what the ledger owes to the log. A step of an `Allowed` run goes
from one phase to another.

## Main definitions

* `Phase`, `Inv` — who has the mutex, and what is owed
* `AllowedRun` — the runs of allowed steps

## Main results

* `exclusive_of_allowedRun` — operations exclude each other
-/

namespace HiveRelay.Quota

open List Option OrderedMap Function

/-! ### What is in flight -/

/-- The ticket of a reserve that waits. -/
def Flight.ticket? : Flight → Option ℕ
  | .acquire ticket _ _ => some ticket
  | _ => none

def queueOf (flights : List Flight) : List ℕ := flights.filterMap Flight.ticket?

def busyOf (flights : List Flight) : List Flight := flights.filter fun f => f.ticket?.isNone

section Flights

variable {flights : List Flight} {flight : Flight} {ticket n : ℕ}

@[simp] theorem queueOf_append (flight : Flight) :
    queueOf (flights ++ [flight]) = queueOf flights ++ flight.ticket?.toList := by
  cases h : flight.ticket? <;> simp [queueOf, h]

@[simp] theorem busyOf_append (flight : Flight) : busyOf (flights ++ [flight]) =
      busyOf flights ++ if flight.ticket?.isNone then [flight] else [] := by
  split <;> simp_all [busyOf]

theorem mem_queueOf : ticket ∈ queueOf flights ↔ ∃ role plan, .acquire ticket role plan ∈ flights := by
  simp only [queueOf, mem_filterMap]
  constructor
  · rintro ⟨f, hf, hticket⟩
    cases f <;> cases hticket
    exact ⟨_, _, hf⟩
  · rintro ⟨role, plan, h⟩
    exact ⟨_, h, rfl⟩

theorem mem_busyOf (hticket : flight.ticket? = none) : flight ∈ busyOf flights ↔ flight ∈ flights := by
  simp [busyOf, hticket]

theorem queueOf_erase_busy (hticket : flight.ticket? = none) : queueOf (flights.erase flight) = queueOf flights := by
  induction flights with
  | nil => rfl
  | cons first flights ih =>
    by_cases h : first = flight
    · subst h
      rw [erase_cons_head, queueOf, queueOf, filterMap_cons_none hticket]
    · rw [erase_cons_tail (by simpa using h)]
      simp only [queueOf, filterMap_cons] at ih ⊢
      rw [ih]

theorem busyOf_erase (flights : List Flight) (flight : Flight) :
    busyOf (flights.erase flight) = (busyOf flights).erase flight :=
  erase_filter.symm

theorem busyOf_erase_acquire (hticket : flight.ticket? = some ticket) :
    busyOf (flights.erase flight) = busyOf flights := by
  rw [busyOf_erase]
  refine erase_of_not_mem fun hmem => ?_
  have := (mem_filter.mp hmem).2
  rw [hticket] at this
  cases this

theorem queueOf_erase_acquire (hmem : flight ∈ flights) (hticket : flight.ticket? = some ticket)
    (hqueue : queueOf flights = range' ticket n) :
    queueOf (flights.erase flight) = range' (ticket + 1) (n - 1) := by
  obtain ⟨before, after, -, hflights, herase⟩ := exists_erase_eq hmem
  have hsplit : queueOf flights = queueOf before ++ ticket :: queueOf after := by
    rw [hflights, queueOf, filterMap_append, filterMap_cons_some hticket]
    rfl
  rw [herase, queueOf, filterMap_append]
  show queueOf before ++ queueOf after = _
  rw [hqueue] at hsplit
  cases hbefore : queueOf before with
  | nil =>
    rw [hbefore, nil_append, range'_eq_cons_iff] at hsplit
    exact hsplit.2.2
  | cons first rest =>
    -- its ticket would be there twice
    exfalso
    rw [hbefore, cons_append] at hsplit
    have hfirst := (range'_eq_cons_iff.mp hsplit).1
    have hnodup : (range' ticket n).Nodup := nodup_range'
    rw [hsplit, ← hfirst, nodup_cons] at hnodup
    exact hnodup.1 (mem_append_right _ mem_cons_self)

end Flights

/-! ### The invariant -/

/-- Tickets below `h` were resolved, those from `a` on wait. -/
structure Orderly (st : Authority) (h a : ℕ) : Prop where
  released : ∀ t, t ∈ st.released ↔ t < h
  queue : queueOf st.flights = range' a (st.tickets - a)
  le : a ≤ st.tickets
  past : ∀ k r, st.reservations.get? k = some r → k < h → r.opRelease = none ∧ (r.burned = true ∨ st.failed = true)

/-- The ledger of a store is what its log is absorbed to. -/
def Exact (C : Crypto) (wal : StoreRole → List WalFrame) (ledger : Ledger) (storeRole : StoreRole) :
    Prop :=
  Recovers C storeRole (wal storeRole) (ledger.sessions storeRole) (ledger.logical storeRole)

/-- What a reservation has yet to add to the ledger of a store. -/
def Reservation.owed (r : Reservation) (storeRole : StoreRole) : ℤ :=
  if r.role.store? = some storeRole then r.derivedLogical else 0

/-- The ledger of the store of a reservation lacks the last frame. -/
structure Lacks (C : Crypto) (wal : StoreRole → List WalFrame) (ledger : Ledger)
    (storeRole : StoreRole) (r : Reservation) (settled : List WalFrame) (frame : WalFrame) : Prop where
  wal_eq : wal storeRole = settled ++ [frame]
  joins : Joins settled frame
  recovers : Recovers C storeRole settled (ledger.sessions storeRole) (ledger.logical storeRole + r.derivedLogical)
  others : ∀ other, other ≠ storeRole → Exact C wal ledger other

/-- How far the operation of the pending reservation is. -/
inductive Stage (C : Crypto) (wal : StoreRole → List WalFrame) (ledger : Ledger)
    (busy : List Flight) (h : ℕ) (r : Reservation) : Prop
  | working (hbusy : busy = []) (hburned : r.burned = false) (hfits : Fits r)
      (hprune : r.plan.operation = .prune → r.walAttempted = false)
      (hledger : ∀ storeRole, Recovers C storeRole (wal storeRole) (ledger.sessions storeRole)
        (ledger.logical storeRole + r.owed storeRole))
  | appending (storeRole : StoreRole) (frame : WalFrame) (settled : List WalFrame)
      (hbusy : busy = [.append h r.role storeRole r.nextOrdinal frame])
      (hburned : r.burned = false) (hfits : Fits r) (hattempted : r.walAttempted = true)
      (hstore : r.role.store? = some storeRole) (hlt : r.nextOrdinal < r.totalFrames)
      (hclaim : r.claims[r.nextOrdinal]? = some .begun)
      (hclass : ∀ cls, (walRegistry frame.type).map Prod.snd = some cls →
        (cls = .pruneTransition ↔ r.plan.operation = .prune))
      (hfirst : r.plan.operation = .prune → r.derivedLogical = 0)
      (hlacks : Lacks C wal ledger storeRole r settled frame)
  | pruned (storeRole : StoreRole) (frame : WalFrame) (settled : List WalFrame) (entry : WalEntry)
      (hbusy : busy = []) (hburned : r.burned = false) (hfits : Fits r)
      (hattempted : r.walAttempted = true) (hprune : r.plan.operation = .prune)
      (hstore : r.role.store? = some storeRole) (hall : r.nextOrdinal = r.totalFrames)
      (hwalHash : frame.walHash.length = 32)
      (hderive : deriveForwardHttpsStoreWalQuotaEntryV3 C storeRole frame
        (ledger.sessions storeRole).get? = .ok entry)
      (hscope : entry.scope = .pruneTransition)
      (hlacks : Lacks C wal ledger storeRole { r with derivedLogical := 0 } settled frame)
  | committing (role : QuotaRole) (hbusy : busy = [.commit h role])
      (hburned : r.burned = true) (hstore : r.walAttempted = true → role.store? ≠ none)
      (hledger : ∀ storeRole, Exact C wal ledger storeRole)
  | releasing (hbusy : busy = [.release h]) (hburned : r.burned = false) (hfits : Fits r)
      (hattempted : r.walAttempted = false) (hledger : ∀ storeRole, Exact C wal ledger storeRole)
  | adjusting (hbusy : busy = [.adjust h]) (hburned : r.burned = false) (hfits : Fits r)
      (hattempted : r.walAttempted = true) (hprune : r.plan.operation = .prune)
      (hall : r.nextOrdinal = r.totalFrames) (hledger : ∀ storeRole, Exact C wal ledger storeRole)

structure Holds (st : Authority) (h : ℕ) (r : Reservation) : Prop where
  failed : st.failed = false
  pending : st.pending = some h
  get : st.reservations.get? h = some r
  release : r.opRelease = some h
  last : ∀ k r', st.reservations.get? k = some r' → k ≤ h

inductive Phase (C : Crypto) (st : Authority) (h : ℕ) : ℕ → Prop
  | failed (hfailed : st.failed = true)
      (hmeasure : ∀ ticket role plan, .measure ticket role plan ∉ st.flights)
      (hnone : ∀ k r, st.reservations.get? k = some r → k < h) : Phase C st h h
  | idle (hfailed : st.failed = false) (hpending : st.pending = none) (hbusy : busyOf st.flights = [])
      (hnone : ∀ k r, st.reservations.get? k = some r → k < h)
      (hledger : ∀ storeRole, Exact C st.wal st.ledger storeRole) : Phase C st h h
  | measuring (role : QuotaRole) (plan : Plan) (hfailed : st.failed = false)
      (hpending : st.pending = none) (hbusy : busyOf st.flights = [.measure h role plan])
      (hnone : ∀ k r, st.reservations.get? k = some r → k < h)
      (hledger : ∀ storeRole, Exact C st.wal st.ledger storeRole) : Phase C st h (h + 1)
  | held (r : Reservation) (hholds : Holds st h r)
      (hstage : Stage C st.wal st.ledger (busyOf st.flights) h r) : Phase C st h (h + 1)

def Inv (C : Crypto) (st : Authority) : Prop := ∃ h a, Orderly st h a ∧ Phase C st h a

/-! ### Ends of an operation -/

variable {ticket : ℕ} {flight : Flight} {token : Option ℕ}

section Ends

variable {C : Crypto} {st st' : Authority} {h k a : ℕ} {r r' : Reservation} {role : QuotaRole}

variable (st) in
theorem Authority.releaseOpFor_some (hget : st.reservations.get? k = some r)
    (hrelease : r.opRelease = some ticket) : st.releaseOpFor k = { st with
      reservations := st.reservations.set k { r with opRelease := none }
      released := ticket :: st.released } := by
  simp only [releaseOpFor, hget, hrelease]

theorem Authority.releaseOpFor_none
    (hnone : ∀ r, st.reservations.get? k = some r → r.opRelease = none) : st.releaseOpFor k = st := by
  unfold releaseOpFor
  split
  · rfl
  · next r hget => rw [hnone r hget]

theorem Authority.usable_eq_some (hused : st.usable role k = some r) :
    st.failed = false ∧ st.reservations.get? k = some r ∧ r.burned = false ∧ r.role = role := by
  unfold usable at hused
  split at hused
  · cases hused
  · next hfailed =>
    simpa [Bool.not_eq_true _ ▸ hfailed] using hused

theorem held_of_usable (hord : Orderly st h a) (hphase : Phase C st h a) (hused : st.usable role k = some r) :
    k = h ∧ a = h + 1 ∧ Holds st h r ∧ Stage C st.wal st.ledger (busyOf st.flights) h r ∧ r.burned = false ∧
      r.role = role := by
  obtain ⟨hfailed, hget, hburned, hrole⟩ := Authority.usable_eq_some hused
  -- reservations before it are burned
  have hnot : ¬ k < h := by
    intro hlt
    rcases (hord.past k r hget hlt).2 with hb | hf
    · exact absurd (hb.symm.trans hburned) (by decide)
    · exact absurd (hf.symm.trans hfailed) (by decide)
  cases hphase with
  | failed hf => exact absurd (hf.symm.trans hfailed) (by decide)
  | idle _ _ _ hnone | measuring _ _ _ _ _ hnone => exact absurd (hnone k r hget) hnot
  | held r₀ hholds hstage =>
    obtain rfl : k = h := Nat.le_antisymm (hholds.last k r hget) (Nat.le_of_not_lt hnot)
    obtain rfl := mem_unique hholds.get hget
    exact ⟨rfl, rfl, hholds, hstage, hburned, hrole⟩

/-- The reservation at `h` is replaced. -/
def Replaced (st st' : Authority) (h : ℕ) (r' : Reservation) : Prop :=
  ∀ k, st'.reservations.get? k = if k = h then some r' else st.reservations.get? k

theorem replaced_set : Replaced st (st.setReservation h r') h r' := fun _ => get?_set

theorem Orderly.ended (r' : Reservation) (hord : Orderly st h (h + 1))
    (hlast : ∀ k r, st.reservations.get? k = some r → k ≤ h) (hreplaced : Replaced st st' h r')
    (hrelease : r'.opRelease = none) (hburned : r'.burned = true ∨ st'.failed = true)
    (hreleased : st'.released = h :: st.released) (hqueue : queueOf st'.flights = queueOf st.flights)
    (htickets : st'.tickets = st.tickets) (hfailed : st.failed = true → st'.failed = true) :
    Orderly st' (h + 1) (h + 1) ∧ ∀ k r, st'.reservations.get? k = some r → k < h + 1 := by
  have hget : ∀ k r, st'.reservations.get? k = some r → k = h ∧ r = r' ∨ k < h ∧ st.reservations.get? k = some r := by
    intro k r hk
    rw [hreplaced k] at hk
    split at hk
    · next heq => exact .inl ⟨heq, (some.inj hk).symm⟩
    · next hne => exact .inr ⟨Nat.lt_of_le_of_ne (hlast k r hk) hne, hk⟩
  refine ⟨⟨fun t => ?_, ?_, ?_, fun k r hk _ => ?_⟩, fun k r hk => ?_⟩
  · rw [hreleased, mem_cons, hord.released]
    omega
  · rw [hqueue, htickets, hord.queue]
  · rw [htickets]
    exact hord.le
  · rcases hget k r hk with ⟨rfl, rfl⟩ | ⟨hlt, hk⟩
    · exact ⟨hrelease, hburned⟩
    · exact ⟨(hord.past k r hk hlt).1, (hord.past k r hk hlt).2.imp_right hfailed⟩
  · rcases hget k r hk with ⟨rfl, -⟩ | ⟨hlt, -⟩ <;> omega

theorem Orderly.replace (r' : Reservation) (hord : Orderly st h a) (hreplaced : Replaced st st' h r')
    (hreleased : st'.released = st.released) (hqueue : queueOf st'.flights = queueOf st.flights)
    (htickets : st'.tickets = st.tickets) (hfailed : st'.failed = st.failed) : Orderly st' h a := by
  refine ⟨fun t => ?_, ?_, ?_, fun k r hk hlt => ?_⟩
  · rw [hreleased]
    exact hord.released t
  · rw [hqueue, htickets, hord.queue]
  · rw [htickets]
    exact hord.le
  · rw [hreplaced k, if_neg (by omega)] at hk
    rw [hfailed]
    exact hord.past k r hk hlt

theorem Holds.replace (hholds : Holds st h r) (hreplaced : Replaced st st' h r')
    (hfailed : st'.failed = st.failed) (hpending : st'.pending = st.pending)
    (hrelease : r'.opRelease = r.opRelease) : Holds st' h r' := by
  refine ⟨hfailed.trans hholds.failed, hpending.trans hholds.pending, ?_, ?_, fun k r'' hk => ?_⟩
  · rw [hreplaced h, if_pos rfl]
  · rw [hrelease, hholds.release]
  · rw [hreplaced k] at hk
    split at hk
    · omega
    · exact hholds.last k r'' hk

theorem not_measure_of_busy (hbusy : busyOf st.flights = [flight])
    (hne : ∀ ticket role plan, flight ≠ .measure ticket role plan) (ticket : ℕ) (role : QuotaRole)
    (plan : Plan) : .measure ticket role plan ∉ st.flights := by
  intro hmem
  have := (mem_busyOf rfl).mpr hmem
  rw [hbusy, mem_singleton] at this
  exact hne ticket role plan this.symm

theorem Stage.not_measure (hstage : Stage C st.wal st.ledger (busyOf st.flights) h r) (ticket : ℕ) (role : QuotaRole)
    (plan : Plan) :
    .measure ticket role plan ∉ st.flights := by
  cases hstage with
  | working hbusy | pruned _ _ _ _ hbusy =>
    intro hmem
    have := (mem_busyOf rfl).mpr hmem
    rw [hbusy] at this
    cases this
  | appending _ _ _ hbusy =>
    exact not_measure_of_busy hbusy (fun _ _ _ heq => by cases heq) _ _ _
  | committing _ hbusy | releasing hbusy | adjusting hbusy =>
    exact not_measure_of_busy hbusy (fun _ _ _ heq => by cases heq) _ _ _

theorem Inv.fail (r' : Reservation) (hord : Orderly st h (h + 1)) (hlast : ∀ k r, st.reservations.get? k = some r → k ≤ h)
    (hmeasure : ∀ ticket role plan, .measure ticket role plan ∉ st'.flights)
    (hreplaced : Replaced st st' h r') (hrelease : r'.opRelease = none) (hfailed : st'.failed = true)
    (hreleased : st'.released = h :: st.released) (hqueue : queueOf st'.flights = queueOf st.flights)
    (htickets : st'.tickets = st.tickets) : Inv C st' := by
  obtain ⟨hord', hnone⟩ := hord.ended r' hlast hreplaced hrelease (.inr hfailed) hreleased hqueue htickets
    fun _ => hfailed
  exact ⟨_, _, hord', .failed hfailed hmeasure hnone⟩

theorem Inv.finish (r' : Reservation) (hord : Orderly st h (h + 1)) (hholds : Holds st h r)
    (hreplaced : Replaced st st' h r') (hrelease : r'.opRelease = none) (hburned : r'.burned = true)
    (hfailed : st'.failed = st.failed) (hpending : st'.pending = none)
    (hreleased : st'.released = h :: st.released) (hqueue : queueOf st'.flights = queueOf st.flights)
    (htickets : st'.tickets = st.tickets) (hbusy : busyOf st'.flights = [])
    (hledger : ∀ storeRole, Exact C st'.wal st'.ledger storeRole) : Inv C st' := by
  obtain ⟨hord', hnone⟩ := hord.ended r' hholds.last hreplaced hrelease (.inl hburned) hreleased hqueue
    htickets fun hf => hfailed.trans hf
  exact ⟨_, _, hord', .idle (hfailed.trans hholds.failed) hpending hbusy hnone hledger⟩

theorem Holds.failWal_eq (hholds : Holds st h r) (hstore : role.store? ≠ none)
    (htoken : token = none ∨ token = some h) : st.failWal role token = { st with
      failed := true
      reservations := st.reservations.set h { r with opRelease := none }
      released := h :: st.released } := by
  rw [Authority.failWal, if_neg]
  · dsimp only
    split
    · next hnone => exact absurd (hnone.symm.trans hholds.pending) (some_ne_none h).symm
    · next k hk =>
      obtain rfl := mem_unique hholds.pending hk
      exact Authority.releaseOpFor_some { st with failed := true } hholds.get hholds.release
  · rw [hholds.failed, hholds.pending]
    rintro (hf | hs | ⟨hne, hpending⟩)
    · cases hf
    · exact hstore hs
    · rcases htoken with rfl | rfl
      · exact hne rfl
      · exact hpending rfl

theorem Inv.failWal (hord : Orderly st h (h + 1)) (hholds : Holds st h r)
    (hmeasure : ∀ ticket role plan, .measure ticket role plan ∉ st.flights)
    (hstore : role.store? ≠ none) (htoken : token = none ∨ token = some h) :
    Inv C (st.failWal role token) := by
  rw [hholds.failWal_eq hstore htoken]
  exact .fail { r with opRelease := none } hord hholds.last hmeasure
    (fun _ => get?_set) rfl rfl rfl rfl rfl

theorem Inv.failAttempted_finish (hord : Orderly st h (h + 1)) (hholds : Holds st h r)
    (hmeasure : ∀ ticket role plan, .measure ticket role plan ∉ st.flights)
    (hstore : role.store? ≠ none) (hattempted : r.walAttempted = true) :
    Inv C ((st.failAttempted role h r).finish h) := by
  rw [Authority.failAttempted, if_pos hattempted, hholds.failWal_eq hstore (.inr rfl), Authority.finish,
    Authority.releaseOpFor_none]
  · exact .fail { r with opRelease := none } hord hholds.last hmeasure
      (fun _ => get?_set) rfl rfl rfl rfl rfl
  · intro r' hget
    rw [get?_set, if_pos rfl] at hget
    rw [← some.inj hget]

end Ends

/-! ### Steps of the calls -/

variable {storeRole : StoreRole} {ordinal : ℕ}

section Calls

variable {C : Crypto} {st : Authority} {h k a : ℕ} {r : Reservation} {role : QuotaRole}

theorem Inv.reserve (hinv : Inv C st) (role : QuotaRole) (request : PlanRequest) :
    Inv C (st.reserve C role request) := by
  unfold Authority.reserve
  split
  · exact hinv
  split
  · exact hinv
  next hnot _ plan _ =>
  obtain ⟨h, a, hord, hphase⟩ := hinv
  have hle := hord.le
  have hbusy : busyOf (st.flights ++ [.acquire st.tickets role plan]) = busyOf st.flights := by
    simp [Flight.ticket?]
  refine ⟨h, a, ⟨hord.released, ?_, Nat.le_succ_of_le hle, hord.past⟩, ?_⟩
  · show queueOf (st.flights ++ [.acquire st.tickets role plan]) = range' a (st.tickets + 1 - a)
    rw [queueOf_append, hord.queue, Nat.sub_add_comm hle, range'_1_concat,
      show a + (st.tickets - a) = st.tickets by omega]
    rfl
  · cases hphase with
    | failed hf => exact absurd hf hnot
    | idle hf hp hb hn hl => exact .idle hf hp (hbusy.trans hb) hn hl
    | measuring role' plan' hf hp hb hn hl => exact .measuring role' plan' hf hp (hbusy.trans hb) hn hl
    | held r hholds hstage =>
      refine .held r ⟨hholds.failed, hholds.pending, hholds.get, hholds.release, hholds.last⟩ ?_
      show Stage C st.wal st.ledger (busyOf (st.flights ++ [.acquire st.tickets role plan])) h r
      rwa [hbusy]

theorem Inv.bind (hinv : Inv C st) (role : QuotaRole) (k : ℕ) (input : ActualBuffers) :
    Inv C (st.bindBuffers C role k input) := by
  unfold Authority.bindBuffers
  split
  · exact hinv
  next r hused =>
  split
  · exact hinv
  next r' hbind =>
  obtain ⟨h, a, hord, hphase⟩ := hinv
  obtain ⟨rfl, rfl, hholds, hstage, -, -⟩ := held_of_usable hord hphase hused
  have hbound := bound_of_bind hbind
  have hsame : r'.burned = r.burned ∧ r'.plan = r.plan ∧ r'.walAttempted = r.walAttempted ∧
      r'.opRelease = r.opRelease ∧ ∀ s, r'.owed s = r.owed s := by
    obtain ⟨frames, session, commitment, rfl⟩ := hbound.eq
    exact ⟨rfl, rfl, rfl, rfl, fun _ => rfl⟩
  obtain ⟨hburned', hplan', hattempted', hrelease', howed'⟩ := hsame
  have hord' : Orderly (st.setReservation k r') k (k + 1) :=
    hord.replace _ replaced_set rfl rfl rfl rfl
  refine ⟨k, k + 1, hord', .held r' (hholds.replace replaced_set rfl rfl hrelease') ?_⟩
  have hbare : Fits r → r.walAttempted = true → False := fun hfits hattempted =>
    absurd (hattempted.symm.trans (hfits.unbound hbound.unbound).2) (by decide)
  cases hstage with
  | working hb hburned hfits hprune hledger =>
    refine .working hb (hburned'.trans hburned) (hfits.bind hbound) (fun hp => ?_) fun s => ?_
    · rw [hattempted']
      exact hprune (hplan' ▸ hp)
    · rw [howed']
      exact hledger s
  | appending _ _ _ _ _ hfits hattempted | pruned _ _ _ _ _ _ hfits hattempted =>
    exact (hbare hfits hattempted).elim
  | committing _ _ hburned =>
    exact absurd (hburned.symm.trans (Authority.usable_eq_some hused).2.2.1) (by decide)
  | releasing hb hburned hfits hattempted hledger =>
    exact .releasing hb (hburned'.trans hburned) (hfits.bind hbound) (hattempted'.trans hattempted) hledger
  | adjusting _ _ hfits hattempted => exact (hbare hfits hattempted).elim

theorem Inv.release (hinv : Inv C st) (hallowed : Allowed st (.release role k)) : Inv C (st.release role k) := by
  unfold Authority.release
  split
  · exact hinv
  next r hused =>
  obtain ⟨hattempted, hnot⟩ := hallowed r hused
  rw [if_neg (by rw [hattempted]; decide)]
  obtain ⟨h, a, hord, hphase⟩ := hinv
  obtain ⟨rfl, rfl, hholds, hstage, -, -⟩ := held_of_usable hord hphase hused
  have hbusy : busyOf (st.flights ++ [.release k]) = busyOf st.flights ++ [.release k] := by
    simp [Flight.ticket?]
  have hqueue : queueOf (st.flights ++ [.release k]) = queueOf st.flights := by
    simp [Flight.ticket?]
  refine ⟨k, k + 1, ⟨hord.released, hqueue.trans hord.queue, hord.le, hord.past⟩,
    .held r ⟨hholds.failed, hholds.pending, hholds.get, hholds.release, hholds.last⟩ ?_⟩
  show Stage C st.wal st.ledger (busyOf (st.flights ++ [.release k])) k r
  rw [hbusy]
  cases hstage with
  | working hb hburned hfits hprune hledger =>
    refine .releasing (by rw [hb, nil_append]) hburned hfits hattempted fun s => ?_
    have hs := hledger s
    rwa [Reservation.owed, (hfits.fresh hattempted).2, Nat.cast_zero, ite_self, add_zero] at hs
  | appending _ _ _ _ _ _ hattempted' | pruned _ _ _ _ _ _ _ hattempted' =>
    exact absurd (hattempted.symm.trans hattempted') (by decide)
  | committing _ _ hburned =>
    exact absurd (hburned.symm.trans (Authority.usable_eq_some hused).2.2.1) (by decide)
  | releasing hb =>
    refine absurd ((mem_busyOf rfl).mp ?_) hnot
    rw [hb]
    exact mem_singleton_self _
  | adjusting _ _ _ hattempted' => exact absurd (hattempted.symm.trans hattempted') (by decide)

theorem Stage.begin {type : ℕ} {payload : Bytes} {begun : Reservation}
    (hstage : Stage C st.wal st.ledger (busyOf st.flights) k r) (hburned : r.burned = false)
    (hstore : role.store? = some storeRole) (hnot : .release k ∉ st.flights)
    (hbegin : beginApply role r ordinal type payload = .appending begun) (payloadHash walHash : Bytes) :
    Stage C (update st.wal storeRole (st.wal storeRole ++
        [durableFrame (st.wal storeRole) type payload payloadHash walHash])) st.ledger
      [.append k role storeRole ordinal
        (durableFrame (st.wal storeRole) type payload payloadHash walHash)] k begun := by
  have hbegun := begun_of_beginApply hbegin
  have hrole : r.role.store? = some storeRole := by rw [hbegun.role_eq, hstore]
  cases hstage with
  | working _ _ hfits hprune hledger =>
    have hordinal : begun.nextOrdinal = ordinal := by rw [hbegun.eq, hbegun.ordinal_eq]
    have hlacks : Lacks C (update st.wal storeRole (st.wal storeRole ++
        [durableFrame (st.wal storeRole) type payload payloadHash walHash])) st.ledger storeRole begun
        (st.wal storeRole) (durableFrame (st.wal storeRole) type payload payloadHash walHash) := by
      refine ⟨update_self .., joins_durableFrame hbegun.type_range .., ?_, fun other hne => ?_⟩
      · have hs := hledger storeRole
        rw [Reservation.owed, if_pos hrole] at hs
        rw [hbegun.eq]
        exact hs
      · have hs := hledger other
        rw [Reservation.owed, if_neg (fun heq => hne (some.inj (hrole.symm.trans heq)).symm), add_zero] at hs
        rw [Exact, update_of_ne hne]
        exact hs
    have hclaim : begun.claims[begun.nextOrdinal]? = some .begun := by
      obtain ⟨state, hstate, -⟩ := hbegun.claim
      rw [hordinal, hbegun.eq]
      exact getElem?_set_self (List.getElem?_eq_some_iff.mp hstate).1
    refine .appending storeRole _ _ ?_ ?_ (hfits.begin hstore hbegun) ?_ ?_ ?_ hclaim
      (fun cls hclass => ?_) (fun hp => ?_) hlacks
    · rw [hordinal, hbegun.eq, hbegun.role_eq]
    · rw [hbegun.eq]
      exact hburned
    · rw [hbegun.eq]
    · rw [hbegun.eq]
      exact hrole
    · rw [hordinal, hbegun.eq]
      exact hbegun.ordinal_lt
    · rw [hfits.prune_iff hbegun hclass, hbegun.eq]
    · rw [hbegun.eq] at hp ⊢
      exact (hfits.fresh (hprune hp)).2
  | appending _ _ _ _ _ _ _ _ _ hclaim => exact (not_begun_twice hclaim hbegin).elim
  | pruned _ _ _ _ _ _ _ _ _ _ hall =>
    have := hbegun.ordinal_lt
    have := hbegun.ordinal_eq
    omega
  | committing _ _ hb => exact absurd (hb.symm.trans hburned) (by decide)
  | releasing hb =>
    refine absurd ((mem_busyOf rfl).mp ?_) hnot
    rw [hb]
    exact mem_singleton_self _
  | adjusting _ _ _ _ _ hall =>
    have := hbegun.ordinal_lt
    have := hbegun.ordinal_eq
    omega

theorem Inv.apply (hinv : Inv C st) {ordinal type : ℕ} {payload payloadHash walHash : Bytes}
    (hallowed : Allowed st (.apply role k ordinal type payload payloadHash walHash)) :
    Inv C (st.applyFrame role k ordinal type payload payloadHash walHash) := by
  unfold Authority.applyFrame
  split
  swap
  · exact hinv
  next storeRole r hstore hused =>
  have hnot := hallowed (by rw [hused]; exact some_ne_none r)
  obtain ⟨h, a, hord, hphase⟩ := id hinv
  obtain ⟨rfl, rfl, hholds, hstage, hburned, -⟩ := held_of_usable hord hphase hused
  split
  · exact hinv
  · next r' _ hreject =>
    have hrelease : r'.opRelease = r.opRelease := by
      rcases reservation_of_rejected hreject with rfl | rfl <;> rfl
    have hord' : Orderly (st.setReservation k r') k (k + 1) :=
      hord.replace _ replaced_set rfl rfl rfl rfl
    have hholds' : Holds (st.setReservation k r') k r' := hholds.replace replaced_set rfl rfl hrelease
    unfold Authority.failAttempted
    split
    · exact .failWal hord' hholds' hstage.not_measure (by rw [hstore]; exact some_ne_none _) (.inr rfl)
    · next hnotAttempted =>
      obtain rfl : r' = r := by
        rcases reservation_of_rejected hreject with rfl | rfl
        · rfl
        · exact absurd rfl hnotAttempted
      exact ⟨_, _, hord', .held r' hholds' hstage⟩
  · next begun hbegin =>
    have hbegun := begun_of_beginApply hbegin
    have hrelease : begun.opRelease = r.opRelease := by rw [hbegun.eq]
    have hstage' := hstage.begin hburned hstore hnot hbegin payloadHash walHash
    have hbusy : busyOf st.flights = [] := by
      cases hstage with
      | working hb | pruned _ _ _ _ hb => exact hb
      | appending _ _ _ _ _ _ _ _ _ hclaim => exact (not_begun_twice hclaim hbegin).elim
      | committing _ _ hb => exact absurd (hb.symm.trans hburned) (by decide)
      | releasing hb =>
        refine absurd ((mem_busyOf rfl).mp ?_) hnot
        rw [hb]
        exact mem_singleton_self _
      | adjusting _ _ _ _ _ hall =>
        have := hbegun.ordinal_lt
        have := hbegun.ordinal_eq
        omega
    refine ⟨k, k + 1, hord.replace begun (fun _ => get?_set) rfl ?_ rfl rfl,
      .held begun (hholds.replace (fun _ => get?_set) rfl rfl hrelease) ?_⟩
    · show queueOf (st.flights ++ [_]) = _
      simp [Flight.ticket?]
    · show Stage C _ st.ledger (busyOf (st.flights ++ [_])) k begun
      rw [busyOf_append, hbusy]
      exact hstage'

theorem exact_of_committed {head : ℕ × Bytes} (hchecks : commitChecks role r head = .ok ())
    (hrole : r.role = role) (hledger : ∀ storeRole, Recovers C storeRole (st.wal storeRole)
      (st.ledger.sessions storeRole) (st.ledger.logical storeRole + r.owed storeRole))
    (storeRole : StoreRole) : Exact C st.wal (Quota.committed st.ledger role r) storeRole := by
  have hs := hledger storeRole
  cases hstore : role.store? with
  | none =>
    rw [Reservation.owed, hrole, hstore, if_neg (some_ne_none _).symm, add_zero] at hs
    rw [Quota.committed, hstore]
    exact hs
  | some own =>
    rw [(commitChecks_spec st.ledger hstore hchecks).2]
    rw [Reservation.owed, hrole, hstore] at hs
    by_cases heq : storeRole = own
    · subst heq
      rw [if_pos rfl] at hs
      rw [Exact, Ledger.setLogical]
      simpa only [update_self] using hs
    · rw [if_neg fun h => heq (some.inj h).symm, add_zero] at hs
      rw [Exact, Ledger.setLogical]
      simpa only [update_of_ne heq] using hs

theorem Inv.commit (hinv : Inv C st) {head : ℕ × Bytes} (hallowed : Allowed st (.commit role k head)) :
    Inv C (st.commit role k head) := by
  unfold Authority.commit
  split
  · exact hinv
  next r hused =>
  obtain ⟨hreason, hnot⟩ := hallowed r hused
  obtain ⟨h, a, hord, hphase⟩ := hinv
  obtain ⟨rfl, rfl, hholds, hstage, hburned, hrole⟩ := held_of_usable hord hphase hused
  have hstore : Fits r → r.walAttempted = true → role.store? ≠ none := fun hfits hattempted =>
    hrole ▸ hfits.store hattempted
  have hfits : Fits r := by
    cases hstage with
    | working _ _ hfits | appending _ _ _ _ _ hfits | pruned _ _ _ _ _ _ hfits => exact hfits
    | committing _ _ hb => exact absurd (hb.symm.trans hburned) (by decide)
    | releasing _ _ hfits | adjusting _ _ hfits => exact hfits
  split
  · next hchecks =>
    have hattempted : r.walAttempted = true :=
      hreason.resolve_right fun hok => by rw [hok] at hchecks; cases hchecks
    exact .failAttempted_finish hord hholds hstage.not_measure (hstore hfits hattempted) hattempted
  · next hchecks =>
    have hspec := hchecks
    simp only [commitChecks, guards_eq_ok] at hspec
    have hworking : busyOf st.flights = [] ∧ ∀ storeRole, Recovers C storeRole (st.wal storeRole)
        (st.ledger.sessions storeRole) (st.ledger.logical storeRole + r.owed storeRole) := by
      cases hstage with
      | working hb _ _ _ hledger => exact ⟨hb, hledger⟩
      | appending _ _ _ _ _ _ hattempted _ hlt =>
        have hbound : r.bound = true := by
          by_contra hne
          exact absurd (hattempted.symm.trans (hfits.unbound (Bool.not_eq_true _ ▸ hne)).2) (by decide)
        have := (hspec.2.1 hbound).1
        omega
      | pruned _ _ _ _ _ _ _ _ hprune => exact absurd hprune hspec.1
      | committing _ _ hb => exact absurd (hb.symm.trans hburned) (by decide)
      | releasing hb =>
        refine absurd ((mem_busyOf rfl).mp ?_) hnot
        rw [hb]
        exact mem_singleton_self _
      | adjusting _ _ _ _ hprune => exact absurd hprune hspec.1
    refine ⟨k, k + 1, hord.replace { r with burned := true } (fun _ => get?_set) rfl ?_
      rfl rfl, .held { r with burned := true } (hholds.replace (fun _ => get?_set) rfl rfl rfl) ?_⟩
    · show queueOf (st.flights ++ [_]) = _
      simp [Flight.ticket?]
    · show Stage C st.wal _ (busyOf (st.flights ++ [_])) k { r with burned := true }
      rw [busyOf_append, hworking.1]
      exact .committing role rfl rfl (hstore hfits) (exact_of_committed hchecks hrole hworking.2)

theorem Inv.adjust (hinv : Inv C st) {tombstone : Bytes} {head : ℕ × Bytes}
    (hallowed : Allowed st (.adjust role tombstone head)) :
    Inv C (st.adjust C role tombstone head) := by
  unfold Authority.adjust
  split
  · exact hinv
  next storeRole hstore =>
  split
  · exact hinv
  next hnotFailed =>
  split
  · exact hinv
  next k hpending =>
  obtain ⟨r, hget, hrole, hprune, hattempted, hnot, htombstone⟩ :=
    hallowed (Bool.not_eq_true _ ▸ hnotFailed) storeRole k hstore hpending
  rw [hget]
  dsimp only
  obtain ⟨h, a, hord, hphase⟩ := hinv
  cases hphase with
  | failed hf => exact absurd hf hnotFailed
  | idle _ hp | measuring _ _ _ hp => rw [hp] at hpending; cases hpending
  | held r₀ hholds hstage =>
    obtain rfl : h = k := mem_unique hholds.pending hpending
    obtain rfl := mem_unique hholds.get hget
    have hend : Inv C ((st.failAttempted role h r₀).finish h) :=
      .failAttempted_finish hord hholds hstage.not_measure (by rw [hstore]; exact some_ne_none _) hattempted
    split
    · exact hend
    next pruned hchecks =>
    split
    · exact hend
    next ledger hadjusted =>
    simp only [adjustChecks, guards_eq_ok] at hchecks
    obtain ⟨⟨hburned, -, -⟩, ⟨hbound, hall, -⟩, -, -, pruned₀, hdecode, hpruneRole, hchecks⟩ := hchecks
    split at hchecks
    · cases hchecks
    next hmatch =>
    cases hchecks
    cases hstage with
    | working _ _ _ hworking => exact absurd (hattempted.symm.trans (hworking hprune)) (by decide)
    | appending _ _ _ _ _ _ _ _ hlt => omega
    | committing _ _ hb => exact absurd (hb.symm.trans hburned) (by decide)
    | releasing _ _ _ hna => exact absurd (hattempted.symm.trans hna) (by decide)
    | adjusting hb =>
      refine absurd ((mem_busyOf rfl).mp ?_) hnot
      rw [hb]
      exact mem_singleton_self _
    | pruned storeRole₀ frame settled entry hb _ hfits _ _ hstore₀ _ hwalHash hderive hscope hlacks =>
      obtain rfl : storeRole = storeRole₀ := by
        rw [hrole, hstore] at hstore₀
        exact some.inj hstore₀
      have hpayload : frame.payload = tombstone := by
        refine htombstone frame ?_
        rw [hlacks.wal_eq, getLast?_concat]
      subst hpayload
      have hrecovers := hlacks.recovers
      simp only [Nat.cast_zero, add_zero] at hrecovers
      have hexact : ∀ s, Exact C st.wal ledger s := by
        intro s
        by_cases heq : s = storeRole
        · subst heq
          rw [Exact, hlacks.wal_eq]
          refine hrecovers.adjust hlacks.joins hwalHash hderive hscope hdecode ?_ hadjusted
          rw [hpruneRole]
          exact hmatch
        · have hs := hlacks.others s heq
          rw [Exact] at hs ⊢
          rw [adjusted_spec hadjusted]
          simpa only [Ledger.setLogical, Ledger.setSessions, update_of_ne heq] using hs
      refine ⟨h, h + 1, ⟨hord.released, ?_, hord.le, hord.past⟩,
        .held r₀ ⟨hholds.failed, hholds.pending, hholds.get, hholds.release, hholds.last⟩ ?_⟩
      · refine Eq.trans ?_ hord.queue
        show queueOf (st.flights ++ [_]) = queueOf st.flights
        simp [Flight.ticket?]
      · show Stage C st.wal ledger (busyOf (st.flights ++ [_])) h r₀
        rw [busyOf_append, hb]
        exact .adjusting rfl hburned hfits hattempted hprune hall hexact

theorem Inv.failWal_call (hinv : Inv C st) (hallowed : Allowed st (.failWal role token)) :
    Inv C (st.failWal role token) := by
  by_cases hskip : st.failed = true ∨ role.store? = none ∨ (token ≠ none ∧ token ≠ st.pending)
  · rw [Authority.failWal, if_pos hskip]
    exact hinv
  rw [not_or, not_or, not_and_or, not_ne_iff, not_ne_iff] at hskip
  obtain ⟨hnotFailed, hstore, htoken⟩ := hskip
  obtain ⟨h, a, hord, hphase⟩ := hinv
  cases hphase with
  | failed hf => exact absurd hf hnotFailed
  | idle hf hp hb hn =>
    have heq : st.failWal role token = { st with failed := true } := by
      rw [Authority.failWal, if_neg (by tauto)]
      simp only [hp]
    rw [heq]
    refine ⟨h, h, ⟨hord.released, hord.queue, hord.le, fun k r hk hlt =>
      ⟨(hord.past k r hk hlt).1, .inr rfl⟩⟩, .failed rfl (fun t role plan hmem => ?_) hn⟩
    have := (mem_busyOf rfl).mpr hmem
    rw [hb] at this
    cases this
  | measuring role' plan hf _ hb =>
    refine absurd ((mem_busyOf rfl).mp ?_) (hallowed hf hstore htoken h role' plan)
    rw [hb]
    exact mem_singleton_self _
  | held r hholds hstage =>
    rw [hholds.pending] at htoken
    exact .failWal hord hholds hstage.not_measure hstore htoken

end Calls

/-! ### Steps of what is in flight -/

variable {plan : Plan}

section Rests

variable {C : Crypto} {st st' : Authority} {h k a : ℕ} {r : Reservation} {role : QuotaRole}

def Authority.resumed (st : Authority) (flight : Flight) : Authority :=
  { st with flights := st.flights.erase flight }

theorem Orderly.resumed (hord : Orderly st h a) (flight : Flight) (hticket : flight.ticket? = none) :
    Orderly (st.resumed flight) h a :=
  { hord with queue := (queueOf_erase_busy hticket).trans hord.queue }

theorem Holds.resumed (hholds : Holds st h r) (flight : Flight) : Holds (st.resumed flight) h r :=
  { hholds with }

/-- What is resumed when the authority has failed changes reservations that were released. -/
theorem Inv.rest_of_failed (hord : Orderly st h h) (hnone : ∀ k r, st.reservations.get? k = some r → k < h)
    (hreservations : ∀ k r', st'.reservations.get? k = some r' →
      ∃ r, st.reservations.get? k = some r ∧ (r.opRelease = none → r'.opRelease = none))
    (hfailed : st'.failed = true) (hreleased : st'.released = st.released)
    (htickets : st'.tickets = st.tickets) (hqueue : queueOf st'.flights = queueOf st.flights)
    (hmeasure : ∀ ticket role plan, .measure ticket role plan ∉ st'.flights) : Inv C st' := by
  refine ⟨h, h, ⟨fun t => ?_, ?_, ?_, fun k r' hk hlt => ?_⟩, .failed hfailed hmeasure fun k r' hk => ?_⟩
  · rw [hreleased]
    exact hord.released t
  · rw [hqueue, htickets]
    exact hord.queue
  · rw [htickets]
    exact hord.le
  · obtain ⟨r, hget, hkeep⟩ := hreservations k r' hk
    exact ⟨hkeep (hord.past k r hget hlt).1, .inr hfailed⟩
  · obtain ⟨r, hget, -⟩ := hreservations k r' hk
    exact hnone k r hget

variable (st) in
theorem Authority.finish_some (hget : st.reservations.get? k = some r)
    (hrelease : r.opRelease = some ticket) : st.finish k = { st with
      pending := none
      reservations := st.reservations.set k { r with opRelease := none }
      released := ticket :: st.released } :=
  Authority.releaseOpFor_some { st with pending := none } hget hrelease

theorem Authority.finish_none (hnone : ∀ r, st.reservations.get? k = some r → r.opRelease = none) :
    st.finish k = { st with pending := none } :=
  Authority.releaseOpFor_none hnone

variable (st) in
theorem Authority.failAttempted_of_failed (hfailed : st.failed = true) : st.failAttempted role k r = st := by
  unfold failAttempted failWal
  split
  · rw [if_pos (.inl hfailed)]
  · rfl

theorem Phase.flight_eq (hphase : Phase C st h a) (hmem : flight ∈ st.flights)
    (hticket : flight.ticket? = none) (hnot : ∀ ticket role plan, flight ≠ .measure ticket role plan) :
    (st.failed = true ∧ a = h ∧ (∀ ticket role plan, .measure ticket role plan ∉ st.flights) ∧
      ∀ k r, st.reservations.get? k = some r → k < h) ∨
    (a = h + 1 ∧ busyOf st.flights = [flight] ∧ ∃ r, Holds st h r ∧ Stage C st.wal st.ledger [flight] h r) := by
  have hmem' := (mem_busyOf hticket).mpr hmem
  cases hphase with
  | failed hf hmeasure hnone => exact .inl ⟨hf, rfl, hmeasure, hnone⟩
  | idle _ _ hb => rw [hb] at hmem'; cases hmem'
  | measuring _ _ _ _ hb =>
    rw [hb, mem_singleton] at hmem'
    exact absurd hmem' (hnot _ _ _)
  | held r hholds hstage =>
    have hbusy : busyOf st.flights = [flight] := by
      cases hstage with
      | working hb | pruned _ _ _ _ hb => rw [hb] at hmem'; cases hmem'
      | appending _ _ _ hb | committing _ hb | releasing hb | adjusting hb =>
        rw [hb, mem_singleton] at hmem'; rw [hb, hmem']
    rw [hbusy] at hstage
    exact .inr ⟨rfl, hbusy, r, hholds, hstage⟩

theorem not_measure_resumed (hmeasure : ∀ ticket role plan, .measure ticket role plan ∉ st.flights)
    (flight : Flight) (ticket : ℕ) (role : QuotaRole) (plan : Plan) :
    .measure ticket role plan ∉ (st.resumed flight).flights := fun hmem =>
  hmeasure _ _ _ (mem_of_mem_erase hmem)

theorem busyOf_resumed (hbusy : busyOf st.flights = [flight]) : busyOf (st.resumed flight).flights = [] := by
  rw [Authority.resumed, busyOf_erase, hbusy, erase_cons_head]

theorem Derived.scope_iff {frame : WalFrame} {resolve : Bytes → Option Mirror}
    {entry : WalEntry} (hderived : Derived C storeRole frame resolve entry) :
    ∃ cls, (walRegistry frame.type).map Prod.snd = some cls ∧
      (cls = .pruneTransition ↔ entry.scope = .pruneTransition) := by
  cases hderived with
  | run hclass hscope | other hclass hscope | terminal _ hclass hscope | prune _ hclass hscope
  | roleGlobal hclass hscope => exact ⟨_, hclass, by simp [hscope]⟩

/-- **A frame that was appended** is settled, or it is a tombstone to be adjusted. -/
theorem Stage.applied {r' : Reservation} {sessions' : OrderedMap Bytes Mirror} {frame : WalFrame} {entry : WalEntry}
    (hstage : Stage C st.wal st.ledger [.append k role storeRole ordinal frame] h r)
    (happlied : Applied C storeRole (st.ledger.sessions storeRole) r ordinal frame r' sessions' entry) :
    Stage C st.wal (st.ledger.setSessions storeRole sessions') [] h r' := by
  cases hstage with
  | appending storeRole₀ frame₀ settled hb hburned hfits hattempted hstore hlt hclaim hclass hfirst
      hlacks =>
    obtain ⟨rfl, rfl, rfl, rfl, rfl⟩ := Flight.append.inj (singleton_inj.mp hb)
    have hfits' := hfits.apply hattempted happlied
    have hderive := happlied.derive
    rw [hlacks.joins.derived_frame] at hderive
    obtain ⟨cls, hcls, hscope⟩ := (derived_of_derive hderive).2.scope_iff
    have hoperation := hclass cls hcls
    have hothers : ∀ s, s ≠ storeRole → Exact C st.wal (st.ledger.setSessions storeRole sessions') s := by
      intro s hne
      have hs := hlacks.others s hne
      rw [Exact] at hs ⊢
      simpa only [Ledger.setSessions, update_of_ne hne] using hs
    obtain ⟨handoff, claims, heq⟩ := happlied.eq
    by_cases hprune : entry.scope = .pruneTransition
    · have hp := hoperation.mp (hscope.mpr hprune)
      have hbound : r.bound = true := by
        by_contra hne
        exact absurd (hattempted.symm.trans (hfits.unbound (Bool.not_eq_true _ ▸ hne)).2) (by decide)
      have htotal := (hfits.prune hbound hp).2
      have hsame := happlied.sessions_of_prune hprune
      refine .pruned storeRole frame settled entry rfl ?_ hfits' ?_ ?_ ?_ ?_ happlied.length_walHash ?_
        hprune ⟨hlacks.wal_eq, hlacks.joins, ?_, hothers⟩
      · rw [heq]
        exact hburned
      · rw [heq]
        exact hattempted
      · rw [heq]
        exact hp
      · rw [heq]
        exact hstore
      · rw [heq]
        show r.nextOrdinal + 1 = r.totalFrames
        omega
      · simpa only [Ledger.setSessions, update_self, hsame] using hderive
      · have hrecovers := hlacks.recovers
        rw [hfirst hp] at hrecovers
        simpa only [Ledger.setSessions, update_self, hsame] using hrecovers
    · have hrecovers := hlacks.recovers.applied hlacks.joins happlied hprune
      refine .working rfl ?_ hfits' (fun hp => ?_) fun s => ?_
      · rw [heq]
        exact hburned
      · rw [heq] at hp
        exact absurd (hscope.mp (hoperation.mpr hp)) hprune
      · by_cases hs : s = storeRole
        · subst hs
          have howed : r'.owed s = r.derivedLogical + entry.ordinaryLogicalCharge + entry.terminalLogicalCharge := by
            rw [heq, Reservation.owed]
            show (if r.role.store? = some s then _ else _) = _
            rw [if_pos hstore]
            rfl
          rw [hlacks.wal_eq, howed, ← add_assoc, ← add_assoc]
          simpa only [Ledger.setSessions, update_self] using hrecovers
        · have howed : r'.owed s = 0 := by
            rw [heq, Reservation.owed]
            exact if_neg fun h => hs (mem_unique hstore h).symm
          rw [howed, add_zero]
          exact hothers s hs
  | working hb | pruned _ _ _ _ hb | committing _ hb | releasing hb | adjusting hb => cases hb

theorem Inv.finish_of_failed (hord : Orderly st h h)
    (hmeasure : ∀ ticket role plan, .measure ticket role plan ∉ st.flights)
    (hnone : ∀ k r, st.reservations.get? k = some r → k < h)
    (hticket : flight.ticket? = none)
    (hreservations : ∀ k r', st'.reservations.get? k = some r' →
      ∃ r, st.reservations.get? k = some r ∧ (r.opRelease = none → r'.opRelease = none))
    (hfailed : st'.failed = true) (hreleased : st'.released = st.released)
    (htickets : st'.tickets = st.tickets) (hflights : st'.flights = (st.resumed flight).flights) :
    Inv C (st'.finish k) := by
  rw [Authority.finish_none]
  · refine .rest_of_failed hord hnone hreservations hfailed hreleased htickets ?_ ?_
    · show queueOf st'.flights = _
      rw [hflights]
      exact queueOf_erase_busy hticket
    · intro ticket role plan hmem
      rw [hflights] at hmem
      exact not_measure_resumed hmeasure _ _ _ _ hmem
  · intro r' hk
    obtain ⟨r, hget, hkeep⟩ := hreservations k r' hk
    exact hkeep (hord.past k r hget (hnone k r hget)).1

theorem keeps_of_set {r' : Reservation} (hget : st.reservations.get? k = some r)
    (hrelease : r.opRelease = none → r'.opRelease = none) (j : ℕ) (r'' : Reservation)
    (hk : (st.reservations.set k r').get? j = some r'') :
    ∃ r, st.reservations.get? j = some r ∧ (r.opRelease = none → r''.opRelease = none) := by
  rw [get?_set] at hk
  split at hk
  · next heq => exact ⟨r, heq ▸ hget, some.inj hk ▸ hrelease⟩
  · exact ⟨r'', hk, id⟩

theorem Inv.appended (hinv : Inv C st) {durable : WalFrame}
    (hmem : .append k role storeRole ordinal durable ∈ st.flights) :
    Inv C ((st.resumed (.append k role storeRole ordinal durable)).appended C k role storeRole ordinal durable) := by
  obtain ⟨h, a, hord, hphase⟩ := hinv
  rcases hphase.flight_eq hmem rfl (fun _ _ _ heq => by cases heq) with
    ⟨hf, rfl, hmeasure, hnone⟩ | ⟨rfl, hbusy, r, hholds, hstage⟩
  · unfold Authority.appended
    split
    · exact .rest_of_failed hord hnone (fun _ r hk => ⟨r, hk, id⟩) hf rfl rfl (queueOf_erase_busy rfl)
        (not_measure_resumed hmeasure _)
    next r hget =>
    split
    · rw [Authority.failAttempted_of_failed]
      · exact .rest_of_failed hord hnone (fun _ r hk => ⟨r, hk, id⟩) hf rfl rfl (queueOf_erase_busy rfl)
          (not_measure_resumed hmeasure _)
      · exact hf
    next r' sessions' entry hok =>
    obtain ⟨handoff, claims, hr'⟩ := (applied_of_applied hok).eq
    exact .rest_of_failed hord hnone (keeps_of_set hget fun hr => by rw [hr']; exact hr) hf rfl rfl
      (queueOf_erase_busy rfl) (not_measure_resumed hmeasure _)
  · have hk : k = h := by
      cases hstage with
      | appending _ _ _ hb => exact (Flight.append.inj (singleton_inj.mp hb)).1
      | working hb | pruned _ _ _ _ hb | committing _ hb | releasing hb | adjusting hb => cases hb
    subst hk
    have hattempted : r.walAttempted = true ∧ role = r.role ∧ r.role.store? ≠ none := by
      cases hstage with
      | appending _ _ _ hb _ _ hattempted hstore =>
        exact ⟨hattempted, (Flight.append.inj (singleton_inj.mp hb)).2.1,
          by rw [hstore]; exact some_ne_none _⟩
      | working hb | pruned _ _ _ _ hb | committing _ hb | releasing hb | adjusting hb => cases hb
    have hord' := hord.resumed (.append k role storeRole ordinal durable) rfl
    have hholds' := hholds.resumed (.append k role storeRole ordinal durable)
    have hmeasure := not_measure_of_busy hbusy fun _ _ _ heq => by cases heq
    unfold Authority.appended
    rw [hholds'.get]
    dsimp only
    split
    · rw [Authority.failAttempted, if_pos hattempted.1]
      exact .failWal hord' hholds' (not_measure_resumed hmeasure _) (hattempted.2.1 ▸ hattempted.2.2) (.inr rfl)
    · next r' sessions' entry hok =>
      have happlied := applied_of_applied hok
      have hrelease : r'.opRelease = r.opRelease := by
        obtain ⟨handoff, claims, hr'⟩ := happlied.eq
        rw [hr']
      refine ⟨k, k + 1, hord'.replace r' (fun _ => get?_set) rfl rfl rfl rfl,
        .held r' (hholds'.replace (fun _ => get?_set) rfl rfl hrelease) ?_⟩
      show Stage C st.wal (st.ledger.setSessions storeRole sessions')
        (busyOf (st.resumed (.append k role storeRole ordinal durable)).flights) k r'
      rw [busyOf_resumed hbusy]
      exact hstage.applied happlied

theorem Inv.committed (hinv : Inv C st) (physical : QuotaRole → ℕ) (hmem : .commit k role ∈ st.flights) :
    Inv C ((st.resumed (.commit k role)).committed k role physical) := by
  obtain ⟨h, a, hord, hphase⟩ := hinv
  rcases hphase.flight_eq hmem rfl (fun _ _ _ heq => by cases heq) with
    ⟨hf, rfl, hmeasure, hnone⟩ | ⟨rfl, hbusy, r, hholds, hstage⟩
  · unfold Authority.committed
    dsimp only
    split
    · exact .rest_of_failed hord hnone (fun _ r hk => ⟨r, hk, id⟩) hf rfl rfl (queueOf_erase_busy rfl)
        (not_measure_resumed hmeasure _)
    split
    · rw [Authority.failAttempted_of_failed]
      · exact .finish_of_failed hord hmeasure hnone rfl (fun _ r hk => ⟨r, hk, id⟩) hf rfl rfl rfl
      · exact hf
    · exact .finish_of_failed hord hmeasure hnone rfl (fun _ r hk => ⟨r, hk, id⟩) hf rfl rfl rfl
  · cases hstage with
    | committing role₀ hb hburned hstore hledger =>
      obtain ⟨rfl, rfl⟩ := Flight.commit.inj (singleton_inj.mp hb)
      have hmeasure := not_measure_of_busy hbusy fun _ _ _ heq => by cases heq
      have hord' : Orderly { st.resumed (.commit k role) with
          ledger := { st.ledger with physical := physical } } k (k + 1) :=
        { hord.resumed (.commit k role) rfl with }
      have hholds' : Holds { st.resumed (.commit k role) with
          ledger := { st.ledger with physical := physical } } k r := { hholds with }
      have hfinish : Inv C ({ st.resumed (.commit k role) with
          ledger := { st.ledger with physical := physical } }.finish k) := by
        rw [Authority.finish_some _ hholds'.get hholds'.release]
        exact .finish { r with opRelease := none } hord' hholds' (fun _ => get?_set)
          rfl hburned rfl rfl rfl rfl rfl (busyOf_resumed hbusy) hledger
      unfold Authority.committed
      dsimp only
      rw [show (st.resumed (.commit k role)).reservations.get? k = some r from hholds.get]
      dsimp only
      split
      · by_cases hattempted : r.walAttempted = true
        · exact .failAttempted_finish hord' hholds' (not_measure_resumed hmeasure _) (hstore hattempted) hattempted
        · rw [Authority.failAttempted, if_neg hattempted]
          exact hfinish
      · exact hfinish
    | working hb | appending _ _ _ hb | pruned _ _ _ _ hb | releasing hb | adjusting hb => cases hb

theorem get?_set_set {r₁ r₂ : Reservation} (j : ℕ) : ((st.reservations.set k r₁).set k r₂).get? j =
      if j = k then some r₂ else st.reservations.get? j := by
  rw [get?_set, get?_set]
  split <;> rfl

theorem Inv.released (hinv : Inv C st) (hmem : .release k ∈ st.flights) :
    Inv C ((st.resumed (.release k)).released' k) := by
  obtain ⟨h, a, hord, hphase⟩ := hinv
  rcases hphase.flight_eq hmem rfl (fun _ _ _ heq => by cases heq) with
    ⟨hf, rfl, hmeasure, hnone⟩ | ⟨rfl, hbusy, r, hholds, hstage⟩
  · unfold Authority.released'
    split
    · exact .rest_of_failed hord hnone (fun _ r hk => ⟨r, hk, id⟩) hf rfl rfl (queueOf_erase_busy rfl)
        (not_measure_resumed hmeasure _)
    next r hget =>
    rw [Authority.finish_none]
    · split <;>
        exact .rest_of_failed hord hnone (keeps_of_set hget id) (by first | rfl | exact hf) rfl rfl
          (queueOf_erase_busy rfl) (not_measure_resumed hmeasure _)
    · intro r' hk
      have hk : (st.reservations.set k _).get? k = some r' := hk
      rw [get?_set, if_pos rfl] at hk
      rw [← some.inj hk]
      exact (hord.past k r hget (hnone k r hget)).1
  · cases hstage with
    | releasing hb hburned hfits hattempted hledger =>
      obtain rfl := Flight.release.inj (singleton_inj.mp hb)
      have hmeasure := not_measure_of_busy hbusy fun _ _ _ heq => by cases heq
      have hget : ((st.resumed (.release k)).setReservation k { r with
          burned := true
          claims := r.claims.map fun _ => .burned }).reservations.get? k = some { r with
            burned := true
            claims := r.claims.map fun _ => .burned } :=
        get?_set.trans (if_pos rfl)
      unfold Authority.released'
      rw [show (st.resumed (.release k)).reservations.get? k = some r from hholds.get]
      dsimp only
      rw [Authority.finish_some _ hget hholds.release]
      split
      · exact .fail _ hord hholds.last (not_measure_resumed hmeasure _) get?_set_set rfl rfl rfl
          (queueOf_erase_busy rfl) rfl
      · exact .finish _ hord hholds get?_set_set rfl rfl rfl rfl rfl (queueOf_erase_busy rfl) rfl
          (busyOf_resumed hbusy) hledger
    | working hb | appending _ _ _ hb | pruned _ _ _ _ hb | committing _ hb | adjusting hb => cases hb

theorem Inv.adjusted (hinv : Inv C st) (physical : QuotaRole → ℕ) (hmem : .adjust k ∈ st.flights) :
    Inv C ((st.resumed (.adjust k)).adjusted k physical) := by
  obtain ⟨h, a, hord, hphase⟩ := hinv
  rcases hphase.flight_eq hmem rfl (fun _ _ _ heq => by cases heq) with
    ⟨hf, rfl, hmeasure, hnone⟩ | ⟨rfl, hbusy, r, hholds, hstage⟩
  · unfold Authority.adjusted
    dsimp only
    split
    · exact .rest_of_failed hord hnone (fun _ r hk => ⟨r, hk, id⟩) hf rfl rfl (queueOf_erase_busy rfl)
        (not_measure_resumed hmeasure _)
    next r hget =>
    exact .finish_of_failed hord hmeasure hnone rfl (keeps_of_set hget id) hf rfl rfl rfl
  · cases hstage with
    | adjusting hb hburned hfits hattempted hprune hall hledger =>
      obtain rfl := Flight.adjust.inj (singleton_inj.mp hb)
      have hget : ({ st.resumed (.adjust k) with
          ledger := { (st.resumed (.adjust k)).ledger with physical := physical } }.setReservation k
            { r with burned := true }).reservations.get? k = some { r with burned := true } :=
        get?_set.trans (if_pos rfl)
      unfold Authority.adjusted
      dsimp only
      rw [show (st.resumed (.adjust k)).reservations.get? k = some r from hholds.get]
      dsimp only
      rw [Authority.finish_some _ hget hholds.release]
      exact .finish _ hord hholds get?_set_set rfl rfl rfl rfl rfl (queueOf_erase_busy rfl) rfl
        (busyOf_resumed hbusy) hledger
    | working hb | appending _ _ _ hb | pruned _ _ _ _ hb | committing _ hb | releasing hb => cases hb

/-- **A reserve that was woken** is the first of those that wait. -/
theorem Inv.acquired (hinv : Inv C st)
    (hmem : .acquire ticket role plan ∈ st.flights) (hready : st.Ready (.acquire ticket role plan)) :
    Inv C ((st.resumed (.acquire ticket role plan)).acquired ticket role plan) := by
  obtain ⟨h, a, hord, hphase⟩ := hinv
  have hticket : ticket ∈ queueOf st.flights := mem_queueOf.mpr ⟨_, _, hmem⟩
  rw [hord.queue, mem_range'_1] at hticket
  have hturn : ticket ≤ h := by
    rcases hready with hzero | hprevious
    · omega
    · have := (hord.released _).mp hprevious
      omega
  unfold Authority.acquired
  cases hphase with
  | failed hf hmeasure hnone =>
    obtain rfl : ticket = h := by omega
    have hqueue := queueOf_erase_acquire hmem rfl hord.queue
    rw [if_pos (show (st.resumed _).failed = true from hf)]
    refine ⟨ticket + 1, ticket + 1, ⟨fun t => ?_, ?_, ?_, fun k r hk hlt => ?_⟩,
      .failed hf (not_measure_resumed hmeasure _) fun k r hk => ?_⟩
    · rw [mem_cons]
      show _ ∨ t ∈ st.released ↔ _
      rw [hord.released]
      omega
    · show queueOf (st.flights.erase _) = range' _ (st.tickets - (ticket + 1))
      rw [hqueue, Nat.sub_sub]
    · show ticket + 1 ≤ st.tickets
      omega
    · exact hord.past k r hk (hnone k r hk)
    · exact Nat.lt_succ_of_lt (hnone k r hk)
  | idle hf hp hb hnone hledger =>
    obtain rfl : ticket = h := by omega
    have hqueue := queueOf_erase_acquire hmem rfl hord.queue
    rw [if_neg (by rw [show (st.resumed _).failed = false from hf]; decide)]
    refine ⟨ticket, ticket + 1, ⟨hord.released, ?_, ?_, hord.past⟩, .measuring role plan hf hp ?_ hnone hledger⟩
    · show queueOf (st.flights.erase _ ++ [_]) = range' _ (st.tickets - (ticket + 1))
      rw [queueOf_append, hqueue, Nat.sub_sub]
      exact append_nil _
    · show ticket + 1 ≤ st.tickets
      omega
    · show busyOf (st.flights.erase _ ++ [_]) = _
      rw [busyOf_append, busyOf_erase_acquire rfl, hb]
      rfl
  | measuring | held => omega

theorem Inv.measured (hinv : Inv C st) (physical : QuotaRole → ℕ) (hmem : .measure ticket role plan ∈ st.flights) :
    Inv C ((st.resumed (.measure ticket role plan)).measured ticket role plan physical) := by
  obtain ⟨h, a, hord, hphase⟩ := hinv
  have hmem' := (mem_busyOf rfl).mpr hmem
  cases hphase with
  | failed _ hmeasure => exact absurd hmem (hmeasure _ _ _)
  | idle _ _ hb => rw [hb] at hmem'; cases hmem'
  | held r _ hstage => exact absurd hmem (hstage.not_measure _ _ _)
  | measuring role₀ plan₀ hf hp hb hnone hledger =>
    rw [hb, mem_singleton] at hmem'
    obtain ⟨rfl, rfl, rfl⟩ := Flight.measure.inj hmem'
    have hqueue : queueOf (st.flights.erase (.measure ticket role plan)) =
        range' (ticket + 1) (st.tickets - (ticket + 1)) :=
      (queueOf_erase_busy rfl).trans hord.queue
    unfold Authority.measured
    dsimp only
    split
    · refine ⟨ticket + 1, ticket + 1, ⟨fun t => ?_, hqueue, hord.le, fun k r hk hlt =>
        hord.past k r hk (hnone k r hk)⟩, .idle hf rfl (busyOf_resumed hb)
          (fun k r hk => Nat.lt_succ_of_lt (hnone k r hk)) hledger⟩
      rw [mem_cons]
      show _ ∨ t ∈ st.released ↔ _
      rw [hord.released]
      omega
    · next r hreserved =>
      obtain ⟨hfits, -, -, hburned, hattempted, hrelease⟩ := fits_of_reserved hreserved
      refine ⟨ticket, ticket + 1, ⟨hord.released, hqueue, hord.le, fun k r' hk hlt => ?_⟩,
        .held r ⟨hf, rfl, get?_set.trans (if_pos rfl), hrelease, fun k r' hk => ?_⟩
          (.working (busyOf_resumed hb) hburned hfits (fun _ => hattempted) fun s => ?_)⟩
      · have hk : (st.reservations.set ticket r).get? k = some r' := hk
        rw [get?_set, if_neg (Nat.ne_of_lt hlt)] at hk
        exact hord.past k r' hk hlt
      · have hk : (st.reservations.set ticket r).get? k = some r' := hk
        rw [get?_set] at hk
        split at hk
        · omega
        · exact Nat.le_of_lt (hnone k r' hk)
      · have hs := hledger s
        rw [Reservation.owed, (hfits.fresh hattempted).2, Nat.cast_zero, ite_self, add_zero]
        exact hs

end Rests

/-! ### Runs -/

section Runs

variable {C : Crypto} {st : Authority}

theorem Inv.step (hinv : Inv C st) {act : Act} (hallowed : Allowed st act) : Inv C (st.step C act) := by
  cases act with
  | reserve role request => exact hinv.reserve role request
  | bind role k input => exact hinv.bind role k input
  | apply role k ordinal type payload payloadHash walHash => exact hinv.apply hallowed
  | commit role k head => exact hinv.commit hallowed
  | release role k => exact hinv.release hallowed
  | adjust role tombstone head => exact hinv.adjust hallowed
  | failWal role token => exact hinv.failWal_call hallowed
  | resume flight physical =>
    by_cases hmem : flight ∈ st.flights ∧ st.Ready flight
    swap
    · rw [Authority.step, if_neg hmem]
      exact hinv
    rw [Authority.step, if_pos hmem]
    cases flight with
    | acquire ticket role plan => exact hinv.acquired hmem.1 hmem.2
    | measure ticket role plan => exact hinv.measured physical hmem.1
    | append k role storeRole ordinal durable => exact hinv.appended hmem.1
    | commit k role => exact hinv.committed physical hmem.1
    | release k => exact hinv.released hmem.1
    | adjust k => exact hinv.adjusted physical hmem.1

structure Initialized (C : Crypto) (st : Authority) : Prop where
  recovered : ∀ storeRole, Exact C st.wal st.ledger storeRole
  failed : st.failed = false
  pending : st.pending = none
  reservations : st.reservations = .empty
  tickets : st.tickets = 0
  released : st.released = []
  flights : st.flights = []

theorem Initialized.inv (hinit : Initialized C st) : Inv C st := by
  have hnone : ∀ k r, st.reservations.get? k = some r → k < 0 := by
    intro k r hk
    rw [hinit.reservations] at hk
    cases hk
  refine ⟨0, 0, ⟨fun t => ?_, ?_, Nat.zero_le _, fun k r hk => ?_⟩,
    .idle hinit.failed hinit.pending ?_ hnone hinit.recovered⟩
  · rw [hinit.released]
    simp
  · rw [hinit.flights, hinit.tickets]
    rfl
  · exact absurd (hnone k r hk) (Nat.not_lt_zero k)
  · rw [hinit.flights]
    rfl

/-- The runs of an authority by allowed steps. -/
inductive AllowedRun (C : Crypto) : Authority → Prop
  | init {st : Authority} (hinit : Initialized C st) : AllowedRun C st
  | step {st : Authority} {act : Act} (h : AllowedRun C st) (hallowed : Allowed st act) :
      AllowedRun C (st.step C act)

theorem inv_of_allowedRun (h : AllowedRun C st) : Inv C st := by
  induction h with
  | init hinit => exact hinit.inv
  | step _ hallowed ih => exact ih.step hallowed

end Runs

/-! ### What no step undoes -/

section Later

variable {C : Crypto} {st st' st'' : Authority} {k : ℕ} {r r' : Reservation} {role : QuotaRole}

/-- What has failed or is burned stays so. -/
structure Later (st st' : Authority) : Prop where
  failed : st.failed = true → st'.failed = true
  burned : ∀ k r, st.reservations.get? k = some r → r.burned = true →
    ∃ r', st'.reservations.get? k = some r' ∧ r'.burned = true

theorem later_refl (st : Authority) : Later st st := ⟨id, fun _ r hget hb => ⟨r, hget, hb⟩⟩

theorem Later.trans (h : Later st st') (h' : Later st' st'') : Later st st'' := by
  refine ⟨h'.failed ∘ h.failed, fun k r hget hb => ?_⟩
  obtain ⟨r', hget', hb'⟩ := h.burned k r hget hb
  exact h'.burned k r' hget' hb'

theorem later_of_same (hfailed : st.failed = true → st'.failed = true)
    (hreservations : st'.reservations = st.reservations) : Later st st' :=
  ⟨hfailed, fun _ r hget hb => ⟨r, hreservations ▸ hget, hb⟩⟩

theorem later_set (hfailed : st.failed = true → st'.failed = true)
    (hreservations : st'.reservations = st.reservations.set k r')
    (hkeep : ∀ r, st.reservations.get? k = some r → r.burned = true → r'.burned = true) :
    Later st st' := by
  refine ⟨hfailed, fun j r hget hb => ?_⟩
  rw [hreservations, get?_set]
  split
  · next heq =>
    subst heq
    exact ⟨r', rfl, hkeep r hget hb⟩
  · exact ⟨r, hget, hb⟩

theorem later_releaseOpFor (st : Authority) (k : ℕ) :
    Later st (st.releaseOpFor k) ∧ (st.releaseOpFor k).wal = st.wal := by
  unfold Authority.releaseOpFor
  split
  · exact ⟨later_refl st, rfl⟩
  next r hget =>
  split
  · exact ⟨later_refl st, rfl⟩
  · refine ⟨later_set id rfl fun r₀ hget₀ hb => ?_, rfl⟩
    rw [hget] at hget₀
    rw [some.inj hget₀]
    exact hb

theorem later_finish (st : Authority) (k : ℕ) : Later st (st.finish k) ∧ (st.finish k).wal = st.wal := by
  obtain ⟨hlater, hwal⟩ := later_releaseOpFor { st with pending := none } k
  exact ⟨(later_of_same id rfl : Later st { st with pending := none }).trans hlater, hwal⟩

theorem later_failWal (st : Authority) (role : QuotaRole) (token : Option ℕ) :
    Later st (st.failWal role token) ∧ (st.failWal role token).wal = st.wal := by
  have hset : Later st { st with failed := true } := later_of_same (fun _ => rfl) rfl
  unfold Authority.failWal
  split
  · exact ⟨later_refl st, rfl⟩
  dsimp only
  split
  · exact ⟨hset, rfl⟩
  · next k _ =>
    obtain ⟨hlater, hwal⟩ := later_releaseOpFor { st with failed := true } k
    exact ⟨hset.trans hlater, hwal⟩

theorem later_failAttempted (st : Authority) (role : QuotaRole) (k : ℕ) (r : Reservation) :
    Later st (st.failAttempted role k r) ∧ (st.failAttempted role k r).wal = st.wal := by
  unfold Authority.failAttempted
  split
  · exact later_failWal st role (some k)
  · exact ⟨later_refl st, rfl⟩

theorem later_failAttempted_finish (st : Authority) (role : QuotaRole) (k : ℕ) (r : Reservation) :
    Later st ((st.failAttempted role k r).finish k) ∧ ((st.failAttempted role k r).finish k).wal = st.wal := by
  obtain ⟨hlater, hwal⟩ := later_failAttempted st role k r
  obtain ⟨hlater', hwal'⟩ := later_finish (st.failAttempted role k r) k
  exact ⟨hlater.trans hlater', hwal'.trans hwal⟩

theorem keeps_burned (hget : st.reservations.get? k = some r) (hkeep : r.burned = true → r'.burned = true)
    (r₀ : Reservation) (hget₀ : st.reservations.get? k = some r₀) (hb : r₀.burned = true) :
    r'.burned = true := by
  rw [hget] at hget₀
  rw [← some.inj hget₀] at hb
  exact hkeep hb

def Authority.rest (C : Crypto) (st : Authority) (physical : QuotaRole → ℕ) : Flight → Authority
  | .acquire ticket role plan => st.acquired ticket role plan
  | .measure ticket role plan => st.measured ticket role plan physical
  | .append k role storeRole ordinal durable => st.appended C k role storeRole ordinal durable
  | .commit k role => st.committed k role physical
  | .release k => st.released' k
  | .adjust k => st.adjusted k physical

theorem later_rest (hinv : Inv C st) (hmem : flight ∈ st.flights) (physical : QuotaRole → ℕ) :
    Later (st.resumed flight) ((st.resumed flight).rest C physical flight) ∧
      ((st.resumed flight).rest C physical flight).wal = (st.resumed flight).wal := by
  generalize hst : st.resumed flight = st'
  cases flight with
  | acquire ticket role plan =>
    dsimp only [Authority.rest, Authority.acquired]
    split <;> exact ⟨later_of_same id rfl, rfl⟩
  | measure ticket role plan =>
    dsimp only [Authority.rest, Authority.measured]
    split
    · exact ⟨later_of_same id rfl, rfl⟩
    refine ⟨later_set id rfl fun r hget _ => ?_, rfl⟩
    -- the reserve that measures has no reservation
    obtain ⟨h, a, -, hphase⟩ := hinv
    have hmem' := (mem_busyOf rfl).mpr hmem
    rw [← hst] at hget
    cases hphase with
    | failed _ hmeasure => exact absurd hmem (hmeasure _ _ _)
    | idle _ _ hb => rw [hb] at hmem'; cases hmem'
    | held _ _ hstage => exact absurd hmem (hstage.not_measure _ _ _)
    | measuring _ _ _ _ hb hnone =>
      rw [hb, mem_singleton] at hmem'
      obtain ⟨rfl, -, -⟩ := Flight.measure.inj hmem'
      exact absurd (hnone _ r hget) (Nat.lt_irrefl _)
  | append k role storeRole ordinal durable =>
    dsimp only [Authority.rest, Authority.appended]
    split
    · exact ⟨later_refl st', rfl⟩
    next r hget =>
    split
    · exact later_failAttempted st' role k r
    next r' sessions' entry hok =>
    obtain ⟨handoff, claims, heq⟩ := (applied_of_applied hok).eq
    refine ⟨later_set id rfl (keeps_burned hget fun hb => ?_), rfl⟩
    rw [heq]
    exact hb
  | commit k role =>
    dsimp only [Authority.rest, Authority.committed]
    have hsame : Later st' { st' with ledger := { st'.ledger with physical := physical } } :=
      later_of_same id rfl
    split
    · exact ⟨hsame, rfl⟩
    next r _ =>
    split
    · obtain ⟨hlater, hwal⟩ := later_failAttempted_finish
        { st' with ledger := { st'.ledger with physical := physical } } role k r
      exact ⟨hsame.trans hlater, hwal⟩
    · obtain ⟨hlater, hwal⟩ := later_finish { st' with ledger := { st'.ledger with physical := physical } } k
      exact ⟨hsame.trans hlater, hwal⟩
  | release k =>
    dsimp only [Authority.rest, Authority.released']
    split
    · exact ⟨later_refl st', rfl⟩
    next r _ =>
    obtain ⟨hlater, hwal⟩ := later_finish (st'.setReservation k { r with
      burned := true
      claims := r.claims.map fun _ => .burned }) k
    have hset : Later st' (st'.setReservation k { r with
        burned := true
        claims := r.claims.map fun _ => .burned }) := later_set id rfl fun _ _ _ => rfl
    split
    · exact ⟨(hset.trans hlater).trans (later_of_same (fun _ => rfl) rfl), hwal⟩
    · exact ⟨hset.trans hlater, hwal⟩
  | adjust k =>
    dsimp only [Authority.rest, Authority.adjusted]
    have hsame : Later st' { st' with ledger := { st'.ledger with physical := physical } } :=
      later_of_same id rfl
    split
    · exact ⟨hsame, rfl⟩
    next r _ =>
    obtain ⟨hlater, hwal⟩ := later_finish
      ({ st' with ledger := { st'.ledger with physical := physical } }.setReservation k { r with burned := true }) k
    have hset : Later { st' with ledger := { st'.ledger with physical := physical } }
        ({ st' with ledger := { st'.ledger with physical := physical } }.setReservation k
          { r with burned := true }) := later_set id rfl fun _ _ _ => rfl
    exact ⟨(hsame.trans hset).trans hlater, hwal⟩

/-- **Steps undo nothing**, and only frames that are applied move a log. -/
theorem later_step (hinv : Inv C st) (act : Act) : Later st (st.step C act) ∧
    ((st.step C act).wal = st.wal ∨ ∃ role k ordinal type payload payloadHash walHash r,
      act = .apply role k ordinal type payload payloadHash walHash ∧ st.usable role k = some r) := by
  cases act with
  | reserve role request =>
    dsimp only [Authority.step, Authority.reserve]
    split
    · exact ⟨later_refl st, .inl rfl⟩
    split
    · exact ⟨later_refl st, .inl rfl⟩
    · exact ⟨later_of_same id rfl, .inl rfl⟩
  | bind role k input =>
    dsimp only [Authority.step, Authority.bindBuffers]
    split
    · exact ⟨later_refl st, .inl rfl⟩
    next r hused =>
    split
    · exact ⟨later_refl st, .inl rfl⟩
    next r' hbind =>
    obtain ⟨frames, session, commitment, heq⟩ := (bound_of_bind hbind).eq
    refine ⟨later_set id rfl (keeps_burned (Authority.usable_eq_some hused).2.1 fun hb => ?_), .inl rfl⟩
    rw [heq]
    exact hb
  | apply role k ordinal type payload payloadHash walHash =>
    dsimp only [Authority.step, Authority.applyFrame]
    split
    swap
    · exact ⟨later_refl st, .inl rfl⟩
    next storeRole r _ hused =>
    refine ⟨?_, .inr ⟨role, k, ordinal, type, payload, payloadHash, walHash, r, rfl, hused⟩⟩
    have hget := (Authority.usable_eq_some hused).2.1
    split
    · exact later_refl st
    · next r' _ hreject =>
      have hset : Later st (st.setReservation k r') := by
        refine later_set id rfl (keeps_burned hget fun hb => ?_)
        rcases reservation_of_rejected hreject with rfl | rfl <;> exact hb
      exact hset.trans (later_failAttempted _ role k r').1
    · next begun hbegin =>
      refine later_set id rfl (keeps_burned hget fun hb => ?_)
      rw [(begun_of_beginApply hbegin).eq]
      exact hb
  | commit role k head =>
    dsimp only [Authority.step, Authority.commit]
    split
    · exact ⟨later_refl st, .inl rfl⟩
    next r hused =>
    split
    · obtain ⟨hlater, hwal⟩ := later_failAttempted_finish st role k r
      exact ⟨hlater, .inl hwal⟩
    · exact ⟨later_set id rfl fun _ _ _ => rfl, .inl rfl⟩
  | release role k =>
    dsimp only [Authority.step, Authority.release]
    split
    · exact ⟨later_refl st, .inl rfl⟩
    split
    · exact (later_finish st k).imp_right .inl
    · exact ⟨later_of_same id rfl, .inl rfl⟩
  | adjust role tombstone head =>
    dsimp only [Authority.step, Authority.adjust]
    split
    · exact ⟨later_refl st, .inl rfl⟩
    split
    · exact ⟨later_refl st, .inl rfl⟩
    split
    · exact ⟨later_refl st, .inl rfl⟩
    split
    · exact ⟨later_of_same id rfl, .inl rfl⟩
    next r _ =>
    split
    · exact (later_failAttempted_finish st role _ r).imp_right .inl
    split
    · exact (later_failAttempted_finish st role _ r).imp_right .inl
    · exact ⟨later_of_same id rfl, .inl rfl⟩
  | failWal role token => exact (later_failWal st role token).imp_right .inl
  | resume flight physical =>
    by_cases hmem : flight ∈ st.flights ∧ st.Ready flight
    swap
    · rw [Authority.step, if_neg hmem]
      exact ⟨later_refl st, .inl rfl⟩
    rw [Authority.step, if_pos hmem]
    have hrest := later_rest hinv hmem.1 physical
    exact ⟨(later_of_same id rfl : Later st (st.resumed flight)).trans hrest.1, .inl hrest.2⟩

end Later

/-! ### Exclusion -/

section Exclusion

variable {C : Crypto} {st : Authority}

/-- A reservation that is not burned. -/
def Authority.Open (st : Authority) (k : ℕ) : Prop :=
  ∃ r, st.reservations.get? k = some r ∧ r.burned = false

/-- A reservation that is not burned, or whose commit is not over. -/
def Authority.InProgress (st : Authority) (k : ℕ) : Prop :=
  ∃ r, st.reservations.get? k = some r ∧ (r.burned = false ∨ ∃ role, .commit k role ∈ st.flights)

variable {role : QuotaRole}

theorem Inv.only {k : ℕ} {r : Reservation} (hinv : Inv C st)
    (hused : st.usable role k = some r) {j : ℕ} (hj : st.InProgress j) : j = k := by
  obtain ⟨h, a, hord, hphase⟩ := hinv
  obtain ⟨rfl, rfl, hholds, hstage, hburned, -⟩ := held_of_usable hord hphase hused
  obtain ⟨r', hget, hopen⟩ := hj
  have hle := hholds.last j r' hget
  by_contra hne
  have hburned' : r'.burned = true := by
    rcases (hord.past j r' hget (by omega)).2 with hb | hf
    · exact hb
    · exact absurd (hf.symm.trans hholds.failed) (by decide)
  rcases hopen with hb | ⟨role', hmem⟩
  · exact absurd (hburned'.symm.trans hb) (by decide)
  · have hmem' := (mem_busyOf rfl).mpr hmem
    cases hstage with
    | working hbusy | pruned _ _ _ _ hbusy => rw [hbusy] at hmem'; cases hmem'
    | appending _ _ _ hbusy => rw [hbusy, mem_singleton] at hmem'; cases hmem'
    | committing _ _ hb => exact absurd (hb.symm.trans hburned) (by decide)
    | releasing hbusy | adjusting hbusy => rw [hbusy, mem_singleton] at hmem'; cases hmem'

theorem Stage.inProgress {h : ℕ} {r : Reservation} (hholds : Holds st h r)
    (hstage : Stage C st.wal st.ledger (busyOf st.flights) h r) : st.InProgress h := by
  refine ⟨r, hholds.get, ?_⟩
  cases hstage with
  | working _ hb | appending _ _ _ _ hb | pruned _ _ _ _ _ hb => exact .inl hb
  | committing role hbusy =>
    refine .inr ⟨role, (mem_busyOf rfl).mp ?_⟩
    rw [hbusy]
    exact mem_singleton_self _
  | releasing _ hb | adjusting _ hb => exact .inl hb

theorem Inv.ready (hinv : Inv C st) {t : ℕ} (hmem : .acquire (t + 1) role plan ∈ st.flights)
    (hover : ∀ role plan, .acquire t role plan ∉ st.flights ∧ .measure t role plan ∉ st.flights)
    (hclosed : st.InProgress t → st.failed = true) : st.Ready (.acquire (t + 1) role plan) := by
  obtain ⟨h, a, hord, hphase⟩ := hinv
  have hqueued : t + 1 ∈ queueOf st.flights := mem_queueOf.mpr ⟨_, _, hmem⟩
  rw [hord.queue, mem_range'_1] at hqueued
  have hwaits : ¬ a ≤ t := by
    intro hle
    have : t ∈ queueOf st.flights := by
      rw [hord.queue, mem_range'_1]
      omega
    obtain ⟨role', plan', hacquire⟩ := mem_queueOf.mp this
    exact (hover role' plan').1 hacquire
  refine .inr ((hord.released _).mpr ?_)
  rw [Nat.add_sub_cancel]
  cases hphase with
  | failed | idle => omega
  | measuring role' plan' _ _ hb =>
    by_contra hnot
    obtain rfl : t = h := by omega
    refine (hover role' plan').2 ((mem_busyOf rfl).mp ?_)
    rw [hb]
    exact mem_singleton_self _
  | held r hholds hstage =>
    by_contra hnot
    obtain rfl : t = h := by omega
    exact absurd ((hclosed (hstage.inProgress hholds)).symm.trans hholds.failed) (by decide)

theorem Inv.exact (hinv : Inv C st) (hfailed : st.failed = false) (hclosed : ∀ k, ¬ st.Open k)
    (storeRole : StoreRole) : Exact C st.wal st.ledger storeRole := by
  obtain ⟨h, a, hord, hphase⟩ := hinv
  cases hphase with
  | failed hf => exact absurd (hf.symm.trans hfailed) (by decide)
  | idle _ _ _ _ hledger | measuring _ _ _ _ _ _ hledger => exact hledger storeRole
  | held r hholds hstage =>
    cases hstage with
    | working _ hb | appending _ _ _ _ hb | pruned _ _ _ _ _ hb => exact absurd ⟨r, hholds.get, hb⟩ (hclosed h)
    | committing _ _ _ _ hledger => exact hledger storeRole
    | releasing _ hb | adjusting _ hb => exact absurd ⟨r, hholds.get, hb⟩ (hclosed h)

/-- **Operations exclude each other and the ledger is exact.** In a run of allowed steps a frame is
appended only under an open reservation of an authority that has not failed, while no other operation is
in progress; what is burned or has failed stays so; a reserve that waits is ready when the operation
before it is over or the authority has failed; and when no reservation is open, each store has the ledger
that its log is absorbed to. -/
theorem exclusive_of_allowedRun (h : AllowedRun C st) :
    (∀ act, (st.step C act).wal ≠ st.wal → ∃ role k ordinal type payload payloadHash walHash,
      act = .apply role k ordinal type payload payloadHash walHash ∧ st.failed = false ∧ st.Open k ∧
        ∀ j, st.InProgress j → j = k) ∧
    (∀ act, Later st (st.step C act)) ∧
    (∀ t role plan, .acquire (t + 1) role plan ∈ st.flights →
      (∀ role plan, .acquire t role plan ∉ st.flights ∧ .measure t role plan ∉ st.flights) →
      (st.InProgress t → st.failed = true) → st.Ready (.acquire (t + 1) role plan)) ∧
    (st.failed = false → (∀ k, ¬ st.Open k) → ∀ storeRole, Exact C st.wal st.ledger storeRole) := by
  have hinv := inv_of_allowedRun h
  refine ⟨fun act hne => ?_, fun act => (later_step hinv act).1, fun t role plan => hinv.ready, hinv.exact⟩
  rcases (later_step hinv act).2 with hsame | ⟨role, k, ordinal, type, payload, payloadHash, walHash, r, hact, hused⟩
  · exact absurd hsame hne
  · obtain ⟨hfailed, hget, hburned, -⟩ := Authority.usable_eq_some hused
    exact ⟨role, k, ordinal, type, payload, payloadHash, walHash, hact, hfailed, ⟨r, hget, hburned⟩,
      fun j => hinv.only hused⟩

/-! ### Samples -/

def emptyAuthority : Authority where
  limits := ⟨2000, 4000, 65536⟩
  ledger := .empty fun _ => 0
  wal := fun _ => []
  failed := false
  pending := none
  reservations := .empty
  tickets := 0
  released := []
  flights := []

theorem initialized_empty : Initialized C emptyAuthority where
  recovered := fun storeRole => ⟨.begin storeRole, [], rfl, rfl, rfl⟩
  failed := rfl
  pending := rfl
  reservations := rfl
  tickets := rfl
  released := rfl
  flights := rfl

/-- The calls of a reserve for the minimal terminal record, with the ticket that it takes. -/
def reserveMinimal (ticket : ℕ) : List Act :=
  [.reserve .sourceStore (.store .sessionTerminal [minimalTerminal] [] 0),
    .resume (.acquire ticket .sourceStore minimalPlan) fun _ => 0,
    .resume (.measure ticket .sourceStore minimalPlan) fun _ => 0]

def bindMinimal (ticket : ℕ) : Act := .bind .sourceStore ticket ⟨[], [], [minimalTerminal], []⟩

def applyMinimal (ticket : ℕ) : Act :=
  .apply .sourceStore ticket 0 99 minimalTerminal (Blake2b.hash minimalTerminal) (replicate 32 1)

def Authority.steps (C : Crypto) (st : Authority) (acts : List Act) : Authority :=
  acts.foldl (fun st act => st.step C act) st

/-- Steps that are allowed one after another. -/
def AllowedAll (C : Crypto) : Authority → List Act → Prop
  | _, [] => True
  | st, act :: acts => Allowed st act ∧ AllowedAll C (st.step C act) acts

theorem AllowedRun.steps (h : AllowedRun C st) {acts : List Act} (hall : AllowedAll C st acts) :
    AllowedRun C (st.steps C acts) := by
  induction acts generalizing st with
  | nil => exact h
  | cons act acts ih => exact ih (h.step hall.1) hall.2

/-- The operation of the minimal terminal record. -/
def minimalOperation : List Act :=
  reserveMinimal 0 ++ [bindMinimal 0, applyMinimal 0,
    .resume (.append 0 .sourceStore .source 0 minimalFrame) fun _ => 0,
    .commit .sourceStore 0 (1, replicate 32 1), .resume (.commit 0 .sourceStore) fun _ => 0]

theorem allowed_commit {k : ℕ} {head : ℕ × Bytes}
    (h : (st.usable role k).all Reservation.walAttempted = true ∧ .release k ∉ st.flights) :
    Allowed st (.commit role k head) := by
  intro r hused
  rw [hused] at h
  exact ⟨.inl h.1, h.2⟩

theorem Authority.open_of_entries {k : ℕ}
    (h : ∃ e ∈ st.reservations.entries, e.1 = k ∧ e.2.burned = false) : st.Open k := by
  obtain ⟨e, hmem, rfl, hburned⟩ := h
  exact ⟨e.2, mem_entries_iff.mp hmem, hburned⟩

theorem Authority.not_open_of_entries (h : ∀ e ∈ st.reservations.entries, e.2.burned = true) (k : ℕ) :
    ¬ st.Open k := by
  rintro ⟨r, hget, hburned⟩
  exact absurd ((h _ (mem_entries_iff.mpr hget)).symm.trans hburned) (by decide)

/-- The record is written and the ledger has it. -/
theorem exclusive_of_allowedRun_minimal : ∃ st, AllowedRun Blake2b.crypto st ∧
    st.ledger.logical .source = 608 ∧ ∀ storeRole, Exact Blake2b.crypto st.wal st.ledger storeRole := by
  have hrun : AllowedRun Blake2b.crypto (emptyAuthority.steps Blake2b.crypto minimalOperation) :=
    (AllowedRun.init initialized_empty).steps ⟨trivial, trivial, trivial, trivial, fun _ => by
        decide +kernel, trivial, allowed_commit (by decide +kernel), trivial, trivial⟩
  have hstate : (emptyAuthority.steps Blake2b.crypto minimalOperation).failed = false ∧
      (emptyAuthority.steps Blake2b.crypto minimalOperation).ledger.logical .source = 608 ∧
      ∀ e ∈ (emptyAuthority.steps Blake2b.crypto minimalOperation).reservations.entries, e.2.burned = true := by
    decide +kernel
  exact ⟨_, hrun, hstate.2.1, (exclusive_of_allowedRun hrun).2.2.2 hstate.1
    (Authority.not_open_of_entries hstate.2.2)⟩

/-- **A frame is appended while another reservation is open.** The first reservation is committed before
it is bound: the commit is rejected, and hands the mutex on. -/
theorem appends_beside_open : ∃ acts, (emptyAuthority.steps Blake2b.crypto acts).failed = false ∧
    (emptyAuthority.steps Blake2b.crypto acts).Open 0 ∧
    ((emptyAuthority.steps Blake2b.crypto acts).step Blake2b.crypto (applyMinimal 1)).wal .source ≠
      (emptyAuthority.steps Blake2b.crypto acts).wal .source := by
  refine ⟨reserveMinimal 0 ++ [.commit .sourceStore 0 (0, [])] ++ reserveMinimal 1 ++ [bindMinimal 1],
    ?_, Authority.open_of_entries ?_, ?_⟩ <;> decide +kernel

end Exclusion

end HiveRelay.Quota
