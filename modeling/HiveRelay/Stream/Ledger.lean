import Mathlib.Logic.Relation
import HiveRelay.Lib.Run
import HiveRelay.Lib.Sums
import HiveRelay.Stream.Plane

/-!
# The ledger of the stream plane

Whatever a method of the plane does is a sequence of changes, each of which is small: a scope is
closed, counts bytes, makes or gives back a reservation, is added; a ticket is added, forgotten or
consumed. The ledger is an invariant of the changes, so it is one of every run.

## Main definitions

* `PlaneChange` — the small changes
* `PlaneInv` — ledger, sessions and tickets

## Main results

* `bindingMessage_injective` — what a binding is of
* `stream_plane_ledger` — the ledger in every run
-/

set_option linter.unusedSectionVars false

namespace HiveRelay.Stream

open List Option OrderedMap Act

variable {B : Type} [DecidableEq B]

/-! ### Changes -/

/-- A scope that only counts: bytes and activity. -/
structure StreamScope.Counts (s s' : StreamScope B) : Prop where
  key : s'.key = s.key
  bufferedBytes : s'.bufferedBytes = s.bufferedBytes
  reservations : s'.reservations = s.reservations
  maxBufferedBytes : s'.maxBufferedBytes = s.maxBufferedBytes
  closed : s'.closed = s.closed
  maxBytes : s'.maxBytes = s.maxBytes
  totalBytes : s.totalBytes ≤ s'.totalBytes
  total : s.totalBytes ≤ s.maxBytes → s'.totalBytes ≤ s.maxBytes

structure StreamScope.Fresh (s : StreamScope B) : Prop where
  closed : s.closed = false
  bufferedBytes : s.bufferedBytes = 0
  reservations : s.reservations = []
  totalBytes : s.totalBytes = 0

inductive PlaneChange (cfg : PlaneConfig B) : Plane B → Plane B → Prop
  | close {p i s} (reason : String) (hs : p.scopes[i]? = some s) (hopen : s.closed = false) :
    PlaneChange cfg p (p.closeScope i reason)
  | count {p i s s'} (hs : p.scopes[i]? = some s) (hcounts : s.Counts s') :
    PlaneChange cfg p (p.setScope i s')
  | reserve {p : Plane B} {i length : ℕ} {s : StreamScope B} (hs : p.scopes[i]? = some s) (hopen : s.closed = false)
    (hscope : s.bufferedBytes + length ≤ s.maxBufferedBytes)
    (hplane : p.bufferedBytes + length ≤ cfg.maxBufferedBytes) :
    PlaneChange cfg p { p.setScope i (s.reserve length) with bufferedBytes := p.bufferedBytes + length }
  | release {p i s k r} (hs : p.scopes[i]? = some s) (hr : s.reservations[k]? = some r)
    (hactive : r.active = true) :
    PlaneChange cfg p { p.setScope i (s.release k r) with bufferedBytes := p.bufferedBytes - r.length }
  | add {p s} (hfresh : s.Fresh) (hkey : p.sessions.get? s.key = none)
    (hroom : p.sessions.size < cfg.maxStreams) : PlaneChange cfg p (p.addSession s)
  | ticket {p token i s binding bindingHash} (hbinding : streamTicketBinding cfg binding = .ok bindingHash)
    (expires : ℕ) (htoken : p.tickets.get? token = none) (hs : p.scopes[i]? = some s) (hopen : s.closed = false) :
    PlaneChange cfg p (p.addTicket token bindingHash binding s.key i expires)
  | forget {p} {tickets : OrderedMap B (TicketRecord B)}
    (h : ∀ token record, tickets.get? token = some record → p.tickets.get? token = some record) :
    PlaneChange cfg p { p with tickets := tickets }
  | drain {p} : PlaneChange cfg p { p with closing := true }
  | consume {p token record now s binding} (hrecord : p.tickets.get? token = some record)
    (hnow : now < record.expiresMonotonicMillis)
    (hbinding : streamTicketBinding cfg binding = .ok record.bindingHash) (hs : p.scopes[record.payload]? = some s)
    (hopen : s.closed = false) :
    PlaneChange cfg p
      { p with
        tickets := p.tickets.delete token
        consumed := ⟨record.number, token, binding, record.payload, now⟩ :: p.consumed }

def PlaneChanges (cfg : PlaneConfig B) : Plane B → Plane B → Prop :=
  Relation.ReflTransGen (PlaneChange cfg)

/-! ### The invariant -/

/-- The bytes of the reservations that are active. -/
def activeBytes (l : List BufferReservation) : ℤ :=
  (l.map fun r => if r.active then (r.length : ℤ) else 0).sum

structure StreamScope.Sound (s : StreamScope B) : Prop where
  buffered : s.bufferedBytes = activeBytes s.reservations
  capped : s.bufferedBytes ≤ s.maxBufferedBytes
  total : s.totalBytes ≤ s.maxBytes
  closed : s.closed = true → s.bufferedBytes = 0

/-- A ticket that can be consumed was issued for a scope that is open, and was not consumed. -/
structure TicketRecord.Sound (cfg : PlaneConfig B) (p : Plane B) (token : B) (record : TicketRecord B) : Prop where
  issued : ∃ binding, streamTicketBinding cfg binding = .ok record.bindingHash ∧
    p.issued[record.number]? = some ⟨token, binding, record.payload, record.expiresMonotonicMillis⟩
  live : ∃ s, p.scopes[record.payload]? = some s ∧ s.closed = false ∧ s.key = record.scopeId
  unused : ∀ c ∈ p.consumed, c.number ≠ record.number

/-- A ticket was consumed with a binding of the same hash, for its scope and before it expired. -/
def ConsumedTicket.Sound (cfg : PlaneConfig B) (p : Plane B) (c : ConsumedTicket B) : Prop :=
  ∃ t bindingHash, p.issued[c.number]? = some t ∧ t.token = c.token ∧ t.scope = c.scope ∧
    c.now < t.expiresMonotonicMillis ∧ streamTicketBinding cfg t.binding = .ok bindingHash ∧
    streamTicketBinding cfg c.binding = .ok bindingHash

/-- **The ledger, the sessions and the tickets.** -/
structure PlaneInv (cfg : PlaneConfig B) (p : Plane B) : Prop where
  scope : ∀ (i : ℕ) (s : StreamScope B), p.scopes[i]? = some s → s.Sound
  buffered : p.bufferedBytes = (p.scopes.map StreamScope.bufferedBytes).sum
  capped : p.bufferedBytes ≤ cfg.maxBufferedBytes
  session : ∀ (key : StreamKey) (i : ℕ), p.sessions.get? key = some i ↔
    ∃ s, p.scopes[i]? = some s ∧ s.closed = false ∧ s.key = key
  size : p.sessions.size ≤ cfg.maxStreams
  ticket : ∀ (token : B) (record : TicketRecord B), p.tickets.get? token = some record → record.Sound cfg p token
  consumed : ∀ c ∈ p.consumed, c.Sound cfg p
  once : (p.consumed.map ConsumedTicket.number).Nodup

/-- What stays as it is of a scope: its key and its cap, and that it is closed; it only ever counts
more bytes. -/
structure StreamScope.Later (s s' : StreamScope B) : Prop where
  key : s'.key = s.key
  maxBytes : s'.maxBytes = s.maxBytes
  totalBytes : s.totalBytes ≤ s'.totalBytes
  closed : s.closed = true → s'.closed = true

theorem StreamScope.Later.refl (s : StreamScope B) : s.Later s := ⟨rfl, rfl, Nat.le_refl _, id⟩

theorem StreamScope.Later.trans {s₁ s₂ s₃ : StreamScope B} (h : s₁.Later s₂) (h' : s₂.Later s₃) :
    s₁.Later s₃ :=
  ⟨h'.key.trans h.key, h'.maxBytes.trans h.maxBytes, h.totalBytes.trans h'.totalBytes, h'.closed ∘ h.closed⟩

/-- What stays as it is: the scopes, and tickets are only consumed for scopes that were open
before. -/
structure PlaneLater (p p' : Plane B) : Prop where
  scope : ∀ (i : ℕ) (s : StreamScope B), p.scopes[i]? = some s → ∃ s', p'.scopes[i]? = some s' ∧ s.Later s'
  consumed : ∃ new, p'.consumed = new ++ p.consumed ∧ ∀ c ∈ new, ∀ s, p.scopes[c.scope]? = some s → s.closed = false

theorem PlaneLater.refl (p : Plane B) : PlaneLater p p :=
  ⟨fun _ s hs => ⟨s, hs, .refl s⟩, [], rfl, nofun⟩

theorem PlaneLater.trans {p₁ p₂ p₃ : Plane B} (h : PlaneLater p₁ p₂) (h' : PlaneLater p₂ p₃) :
    PlaneLater p₁ p₃ := by
  refine ⟨fun i s hs => ?_, ?_⟩
  · obtain ⟨s₂, hs₂, hlater₂⟩ := h.scope i s hs
    obtain ⟨s₃, hs₃, hlater₃⟩ := h'.scope i s₂ hs₂
    exact ⟨s₃, hs₃, hlater₂.trans hlater₃⟩
  · obtain ⟨new₂, hnew₂, hopen₂⟩ := h.consumed
    obtain ⟨new₃, hnew₃, hopen₃⟩ := h'.consumed
    refine ⟨new₃ ++ new₂, by rw [hnew₃, hnew₂, append_assoc], fun c hc s hs => ?_⟩
    rcases mem_append.mp hc with hc | hc
    · obtain ⟨s₂, hs₂, hlater₂⟩ := h.scope _ s hs
      by_contra hclosed
      rw [Bool.not_eq_false] at hclosed
      exact nomatch (hopen₃ c hc s₂ hs₂).symm.trans (hlater₂.closed hclosed)
    · exact hopen₂ c hc s hs

/-! ### Each change keeps the invariant -/

section Change

variable {cfg : PlaneConfig B} {p p' : Plane B} {i : ℕ} {s s' : StreamScope B}

theorem setScope_get? (hs : p.scopes[i]? = some s) (j : ℕ) :
    (p.scopes.set i s')[j]? = if j = i then some s' else p.scopes[j]? := by
  rw [getElem?_set]
  by_cases hj : j = i
  · rw [if_pos hj.symm, if_pos (List.getElem?_eq_some_iff.mp hs).1, if_pos hj]
  · rw [if_neg (Ne.symm hj), if_neg hj]

/-- One scope is written, and stays open if it was. -/
structure WritesScope (p p' : Plane B) (i : ℕ) (s s' : StreamScope B) : Prop where
  before : p.scopes[i]? = some s
  scopes : p'.scopes = p.scopes.set i s'
  key : s'.key = s.key
  closed : s'.closed = s.closed
  sessions : p'.sessions = p.sessions
  tickets : p'.tickets = p.tickets
  issued : p'.issued = p.issued
  consumed : p'.consumed = p.consumed

theorem WritesScope.get? (h : WritesScope p p' i s s') (j : ℕ) :
    p'.scopes[j]? = if j = i then some s' else p.scopes[j]? := by
  rw [h.scopes]
  exact setScope_get? h.before j

theorem WritesScope.open_iff (h : WritesScope p p' i s s') (j : ℕ) (key : StreamKey) :
    (∃ t, p'.scopes[j]? = some t ∧ t.closed = false ∧ t.key = key) ↔
      ∃ t, p.scopes[j]? = some t ∧ t.closed = false ∧ t.key = key := by
  rw [h.get?]
  by_cases hj : j = i
  · rw [if_pos hj, hj, h.before]
    simp only [some.injEq, exists_eq_left']
    rw [h.closed, h.key]
  · rw [if_neg hj]

theorem PlaneInv.write (hinv : PlaneInv cfg p) (h : WritesScope p p' i s s') (hsound : s'.Sound)
    (hbuffered : p'.bufferedBytes = p.bufferedBytes - s.bufferedBytes + s'.bufferedBytes)
    (hcapped : p'.bufferedBytes ≤ cfg.maxBufferedBytes) : PlaneInv cfg p' := by
  refine ⟨fun j t hj => ?_, ?_, hcapped, fun key j => ?_, ?_, fun token record hrecord => ?_, ?_, ?_⟩
  · rw [h.get?] at hj
    split at hj
    · rw [← some.inj hj]
      exact hsound
    · exact hinv.scope j t hj
  · rw [hbuffered, h.scopes, sum_map_set _ _ h.before, hinv.buffered]
  · rw [h.sessions, hinv.session, h.open_iff]
  · rw [h.sessions]
    exact hinv.size
  · rw [h.tickets] at hrecord
    obtain ⟨hissued, hlive, hunused⟩ := hinv.ticket token record hrecord
    refine ⟨?_, (h.open_iff _ _).mpr hlive, ?_⟩
    · rw [h.issued]
      exact hissued
    · rw [h.consumed]
      exact hunused
  · rw [h.consumed]
    intro c hc
    unfold ConsumedTicket.Sound
    rw [h.issued]
    exact hinv.consumed c hc
  · rw [h.consumed]
    exact hinv.once

theorem activeBytes_nonneg (l : List BufferReservation) : 0 ≤ activeBytes l := by
  refine sum_nonneg fun x hx => ?_
  obtain ⟨r, -, rfl⟩ := mem_map.mp hx
  split
  · exact Int.natCast_nonneg _
  · exact le_refl 0

theorem activeBytes_set {l : List BufferReservation} {k : ℕ} {r : BufferReservation}
    (hr : l[k]? = some r) (hactive : r.active = true) :
    activeBytes (l.set k { r with active := false }) = activeBytes l - r.length := by
  unfold activeBytes
  rw [sum_map_set _ _ hr]
  simp [hactive]

theorem activeBytes_inactive (l : List BufferReservation) :
    activeBytes (l.map fun r => { r with active := false }) = 0 := by
  refine sum_eq_zero fun x hx => ?_
  simp only [List.map_map, List.mem_map, Function.comp_apply] at hx
  obtain ⟨r, -, rfl⟩ := hx
  rfl

theorem StreamScope.Sound.terminated (h : s.Sound) (reason : String) : (s.terminated reason).Sound := by
  refine ⟨(activeBytes_inactive _).symm, ?_, h.total, fun _ => rfl⟩
  exact Int.natCast_nonneg _

theorem closeScope_eq (hs : p.scopes[i]? = some s) (hopen : s.closed = false) (reason : String) :
    p.closeScope i reason =
      { p.revokeScope s.key with
        scopes := p.scopes.set i (s.terminated reason)
        bufferedBytes := p.bufferedBytes - s.bufferedBytes
        sessions := p.sessions.delete s.key } := by
  unfold Plane.closeScope
  rw [hs]
  simp only [hopen, Bool.false_eq_true, if_false]

theorem closeScope_get? (hs : p.scopes[i]? = some s) (reason : String) :
    ∃ s', (p.closeScope i reason).scopes[i]? = some s' ∧ s'.closed = true := by
  cases hclosed : s.closed with
  | true =>
    refine ⟨s, ?_, hclosed⟩
    unfold Plane.closeScope
    rw [hs]
    simp only [hclosed, if_true]
    exact hs
  | false =>
    refine ⟨s.terminated reason, ?_, rfl⟩
    rw [closeScope_eq hs hclosed]
    exact (setScope_get? hs i).trans (if_pos rfl)

theorem PlaneInv.bufferedBytes_nonneg (hinv : PlaneInv cfg p) (hs : p.scopes[i]? = some s) : 0 ≤ s.bufferedBytes := by
  rw [(hinv.scope i s hs).buffered]
  exact activeBytes_nonneg _

theorem PlaneInv.close (hinv : PlaneInv cfg p) (hs : p.scopes[i]? = some s)
    (hopen : s.closed = false) (reason : String) : PlaneInv cfg (p.closeScope i reason) := by
  rw [closeScope_eq hs hopen]
  have hget : ∀ j, (p.scopes.set i (s.terminated reason))[j]? =
      if j = i then some (s.terminated reason) else p.scopes[j]? := setScope_get? hs
  have hnonneg := hinv.bufferedBytes_nonneg hs
  have hkey : p.sessions.get? s.key = some i := (hinv.session _ _).mpr ⟨s, hs, hopen, rfl⟩
  refine ⟨fun j t hj => ?_, ?_, ?_, fun key j => ?_, ?_, fun token record hrecord => ?_, hinv.consumed, hinv.once⟩
  · have hj' := (hget j).symm.trans hj
    split at hj'
    · rw [← some.inj hj']
      exact (hinv.scope i s hs).terminated reason
    · exact hinv.scope j t hj'
  · show p.bufferedBytes - s.bufferedBytes = _
    rw [sum_map_set _ _ hs, hinv.buffered]
    show _ = _ - s.bufferedBytes + 0
    rw [add_zero]
  · have hcapped := hinv.capped
    show p.bufferedBytes - s.bufferedBytes ≤ _
    omega
  · show (p.sessions.delete s.key).get? key = some j ↔
      ∃ t, (p.scopes.set i (s.terminated reason))[j]? = some t ∧ t.closed = false ∧ t.key = key
    rw [get?_delete, hget]
    by_cases hk : key = s.key
    · rw [if_pos hk]
      refine ⟨nofun, ?_⟩
      rintro ⟨t, ht, htopen, htkey⟩
      split at ht
      · rw [← some.inj ht] at htopen
        exact nomatch htopen
      · rename_i hj
        have hsame := (hinv.session key j).mpr ⟨t, ht, htopen, htkey⟩
        rw [hk, hkey] at hsame
        exact absurd (some.inj hsame).symm hj
    · rw [if_neg hk, hinv.session]
      by_cases hj : j = i
      · rw [if_pos hj, hj, hs]
        constructor
        · rintro ⟨t, ht, -, htkey⟩
          rw [← some.inj ht] at htkey
          exact absurd htkey.symm hk
        · rintro ⟨t, ht, htopen, -⟩
          rw [← some.inj ht] at htopen
          exact nomatch htopen
      · rw [if_neg hj]
  · show (p.sessions.delete s.key).size ≤ cfg.maxStreams
    have hsize := size_delete_of_get? hkey
    have hbound := hinv.size
    omega
  · have hrecord' : (p.tickets.filter fun _ record => record.scopeId ≠ s.key).get? token =
        some record := hrecord
    rw [get?_filter, filter_eq_some_iff, decide_eq_true_eq] at hrecord'
    obtain ⟨hissued, ⟨t, ht, htopen, htkey⟩, hunused⟩ := hinv.ticket token record hrecord'.1
    refine ⟨hissued, ⟨t, ?_, htopen, htkey⟩, hunused⟩
    refine (hget _).trans ?_
    rw [if_neg, ht]
    intro hpayload
    rw [hpayload, hs] at ht
    rw [← some.inj ht] at htkey
    exact hrecord'.2 htkey.symm

theorem PlaneInv.add (hinv : PlaneInv cfg p) (hfresh : s.Fresh)
    (hkey : p.sessions.get? s.key = none) (hroom : p.sessions.size < cfg.maxStreams) :
    PlaneInv cfg (p.addSession s) := by
  have hget : ∀ j, (p.scopes ++ [s])[j]? = if j = p.scopes.length then some s else p.scopes[j]? := by
    intro j
    rw [getElem?_append]
    rcases Nat.lt_trichotomy j p.scopes.length with hj | hj | hj
    · rw [if_pos hj, if_neg (Nat.ne_of_lt hj)]
    · rw [hj, if_neg (Nat.lt_irrefl _), if_pos rfl, Nat.sub_self]
      rfl
    · rw [if_neg (by omega), if_neg (Nat.ne_of_gt hj), getElem?_eq_none (by simp; omega),
        getElem?_eq_none (by omega)]
  have hold : ∀ {j : ℕ} {t}, p.scopes[j]? = some t → j ≠ p.scopes.length := fun hj =>
    Nat.ne_of_lt (List.getElem?_eq_some_iff.mp hj).1
  refine ⟨fun j t hj => ?_, ?_, hinv.capped, fun key j => ?_, ?_, fun token record hrecord => ?_,
    hinv.consumed, hinv.once⟩
  · have hj' := (hget j).symm.trans hj
    split at hj'
    · rw [← some.inj hj']
      refine ⟨?_, ?_, ?_, fun _ => hfresh.bufferedBytes⟩
      · rw [hfresh.bufferedBytes, hfresh.reservations]
        rfl
      · rw [hfresh.bufferedBytes]
        exact Int.natCast_nonneg _
      · rw [hfresh.totalBytes]
        exact Nat.zero_le _
    · exact hinv.scope j t hj'
  · show p.bufferedBytes = ((p.scopes ++ [s]).map StreamScope.bufferedBytes).sum
    rw [sum_map_concat, hfresh.bufferedBytes, add_zero, hinv.buffered]
  · show (p.sessions.set s.key p.scopes.length).get? key = some j ↔
      ∃ t, (p.scopes ++ [s])[j]? = some t ∧ t.closed = false ∧ t.key = key
    rw [get?_set, hget]
    by_cases hk : key = s.key
    · rw [if_pos hk]
      constructor
      · intro hj
        rw [if_pos (some.inj hj).symm]
        exact ⟨s, rfl, hfresh.closed, hk.symm⟩
      · rintro ⟨t, ht, htopen, htkey⟩
        split at ht
        · rename_i hj
          rw [hj]
        · have hsame := (hinv.session key j).mpr ⟨t, ht, htopen, htkey⟩
          rw [hk, hkey] at hsame
          exact nomatch hsame
    · rw [if_neg hk, hinv.session]
      constructor
      · rintro ⟨t, ht, htopen, htkey⟩
        rw [if_neg (hold ht)]
        exact ⟨t, ht, htopen, htkey⟩
      · rintro ⟨t, ht, htopen, htkey⟩
        split at ht
        · rw [← some.inj ht] at htkey
          exact absurd htkey.symm hk
        · exact ⟨t, ht, htopen, htkey⟩
  · show (p.sessions.set s.key p.scopes.length).size ≤ cfg.maxStreams
    rw [size_set_of_get?_eq_none hkey]
    exact hroom
  · obtain ⟨hissued, ⟨t, ht, htlive⟩, hunused⟩ := hinv.ticket token record hrecord
    refine ⟨hissued, ⟨t, ?_, htlive⟩, hunused⟩
    exact (hget _).trans ((if_neg (hold ht)).trans ht)

theorem PlaneInv.number_lt (hinv : PlaneInv cfg p) {c : ConsumedTicket B} (hc : c ∈ p.consumed) :
    c.number < p.issued.length := by
  obtain ⟨t, _, ht, -⟩ := hinv.consumed c hc
  exact (List.getElem?_eq_some_iff.mp ht).1

theorem PlaneInv.addTicket (hinv : PlaneInv cfg p) {token bindingHash : B} {binding : TicketBinding B}
    {expires : ℕ} (hbinding : streamTicketBinding cfg binding = .ok bindingHash)
    (hs : p.scopes[i]? = some s) (hopen : s.closed = false) :
    PlaneInv cfg (p.addTicket token bindingHash binding s.key i expires) := by
  have hget : ∀ {k : ℕ} {t}, p.issued[k]? = some t →
      (p.issued ++ [(⟨token, binding, i, expires⟩ : IssuedTicket B)])[k]? = some t :=
    fun hk => (getElem?_append_left (List.getElem?_eq_some_iff.mp hk).1).trans hk
  refine ⟨hinv.scope, hinv.buffered, hinv.capped, hinv.session, hinv.size, ?_, ?_, hinv.once⟩
  · refine forall_set (fun token' record hrecord => ?_) ?_
    · obtain ⟨⟨bound, hbound, hissued⟩, hlive, hunused⟩ := hinv.ticket token' record hrecord
      exact ⟨⟨bound, hbound, hget hissued⟩, hlive, hunused⟩
    · refine ⟨⟨binding, hbinding, getElem?_concat_length⟩, ⟨s, hs, hopen, rfl⟩, fun c hc => ?_⟩
      exact Nat.ne_of_lt (hinv.number_lt hc)
  · intro c hc
    obtain ⟨t, bindingHash, ht, hrest⟩ := hinv.consumed c hc
    exact ⟨t, bindingHash, hget ht, hrest⟩

theorem PlaneInv.forget (hinv : PlaneInv cfg p) {tickets : OrderedMap B (TicketRecord B)}
    (h : ∀ token record, tickets.get? token = some record → p.tickets.get? token = some record) :
    PlaneInv cfg { p with tickets := tickets } := by
  refine ⟨hinv.scope, hinv.buffered, hinv.capped, hinv.session, hinv.size, ?_, hinv.consumed, hinv.once⟩
  intro token record hrecord
  obtain ⟨hissued, hlive, hunused⟩ := hinv.ticket token record (h token record hrecord)
  exact ⟨hissued, hlive, hunused⟩

theorem PlaneInv.consume (hinv : PlaneInv cfg p) {token : B} {record : TicketRecord B} {now : ℕ}
    {binding : TicketBinding B} (hrecord : p.tickets.get? token = some record)
    (hnow : now < record.expiresMonotonicMillis)
    (hbinding : streamTicketBinding cfg binding = .ok record.bindingHash) :
    PlaneInv cfg
      { p with
        tickets := p.tickets.delete token
        consumed := ⟨record.number, token, binding, record.payload, now⟩ :: p.consumed } := by
  obtain ⟨⟨bound, hbound, hissued⟩, -, hfresh⟩ := hinv.ticket token record hrecord
  refine ⟨hinv.scope, hinv.buffered, hinv.capped, hinv.session, hinv.size, ?_, ?_, ?_⟩
  · intro token' record' hrecord'
    have hget : (p.tickets.delete token).get? token' = some record' := hrecord'
    rw [get?_delete] at hget
    split at hget
    · cases hget
    · rename_i hne
      obtain ⟨⟨bound', hbound', hissued'⟩, hlive, hunused⟩ := hinv.ticket token' record' hget
      refine ⟨⟨bound', hbound', hissued'⟩, hlive, fun c hc => ?_⟩
      rcases mem_cons.mp hc with rfl | hc
      · intro hnumber
        have hsame := hissued.symm.trans ((congrArg (p.issued[·]?) hnumber).trans hissued')
        exact hne (IssuedTicket.mk.inj (some.inj hsame)).1.symm
      · exact hunused c hc
  · intro c hc
    rcases mem_cons.mp hc with rfl | hc
    · exact ⟨_, record.bindingHash, hissued, rfl, rfl, hnow, hbound, hbinding⟩
    · exact hinv.consumed c hc
  · refine nodup_cons.mpr ⟨fun hmem => ?_, hinv.once⟩
    obtain ⟨c, hc, hnumber⟩ := mem_map.mp hmem
    exact hfresh c hc hnumber

/-- Every small change keeps the ledger. -/
theorem PlaneInv.change (hinv : PlaneInv cfg p) (h : PlaneChange cfg p p') : PlaneInv cfg p' := by
  cases h with
  | close reason hs hopen => exact hinv.close hs hopen reason
  | @count i s s' hs hcounts =>
    have hsound := hinv.scope i s hs
    have hw : WritesScope p (p.setScope i s') i s s' :=
      ⟨hs, rfl, hcounts.key, hcounts.closed, rfl, rfl, rfl, rfl⟩
    refine hinv.write hw ⟨?_, ?_, ?_, ?_⟩ ?_ hinv.capped
    · rw [hcounts.bufferedBytes, hcounts.reservations]
      exact hsound.buffered
    · rw [hcounts.bufferedBytes, hcounts.maxBufferedBytes]
      exact hsound.capped
    · rw [hcounts.maxBytes]
      exact hcounts.total hsound.total
    · rw [hcounts.closed, hcounts.bufferedBytes]
      exact hsound.closed
    · rw [hcounts.bufferedBytes]
      exact (sub_add_cancel _ _).symm
  | @reserve i length s hs hopen hscope hplane =>
    have hsound := hinv.scope i s hs
    have hw : WritesScope p { p.setScope i (s.reserve length) with bufferedBytes := p.bufferedBytes + length } i s
        (s.reserve length) := ⟨hs, rfl, rfl, rfl, rfl, rfl, rfl, rfl⟩
    refine hinv.write hw ⟨?_, hscope, hsound.total, ?_⟩ ?_ hplane
    · show s.bufferedBytes + length = activeBytes (s.reservations ++ [⟨true, length⟩])
      rw [hsound.buffered]
      unfold activeBytes
      rw [sum_map_concat]
      rfl
    · exact fun hclosed => nomatch hopen.symm.trans hclosed
    · show p.bufferedBytes + length = p.bufferedBytes - s.bufferedBytes + (s.bufferedBytes + length)
      ring
  | @release i s k r hs hr hactive =>
    have hsound := hinv.scope i s hs
    have hcapped := hsound.capped
    have hbuffered := hsound.buffered
    have hset := activeBytes_set hr hactive
    have hnonneg := activeBytes_nonneg (s.reservations.set k { r with active := false })
    have hw : WritesScope p { p.setScope i (s.release k r) with bufferedBytes := p.bufferedBytes - r.length } i s
        (s.release k r) := ⟨hs, rfl, rfl, rfl, rfl, rfl, rfl, rfl⟩
    refine hinv.write hw ⟨?_, ?_, hsound.total, ?_⟩ ?_ ?_
    · show s.bufferedBytes - r.length = activeBytes (s.reservations.set k { r with active := false })
      rw [hset, hbuffered]
    · show s.bufferedBytes - r.length ≤ s.maxBufferedBytes
      omega
    · intro hclosed
      have hzero := hsound.closed hclosed
      show s.bufferedBytes - r.length = 0
      omega
    · show p.bufferedBytes - r.length = p.bufferedBytes - s.bufferedBytes + (s.bufferedBytes - r.length)
      ring
    · have hplane := hinv.capped
      show p.bufferedBytes - r.length ≤ _
      omega
  | add hfresh hkey hroom => exact hinv.add hfresh hkey hroom
  | ticket hbinding expires _ hs hopen => exact hinv.addTicket hbinding hs hopen
  | forget h => exact hinv.forget h
  | drain =>
    exact ⟨hinv.scope, hinv.buffered, hinv.capped, hinv.session, hinv.size, fun token record hr =>
      ⟨(hinv.ticket token record hr).issued, (hinv.ticket token record hr).live,
        (hinv.ticket token record hr).unused⟩, hinv.consumed, hinv.once⟩
  | consume hrecord hnow hbinding _ _ => exact hinv.consume hrecord hnow hbinding

theorem planeLater_of_set (hs : p.scopes[i]? = some s) (hscopes : p'.scopes = p.scopes.set i s')
    (hlater : s.Later s') (hconsumed : p'.consumed = p.consumed) : PlaneLater p p' := by
  refine ⟨fun j t hj => ?_, [], hconsumed, nofun⟩
  rw [hscopes, setScope_get? hs]
  by_cases hji : j = i
  · rw [hji, hs] at hj
    rw [if_pos hji, ← some.inj hj]
    exact ⟨s', rfl, hlater⟩
  · rw [if_neg hji]
    exact ⟨t, hj, .refl t⟩

theorem planeLater_of_change (h : PlaneChange cfg p p') : PlaneLater p p' := by
  cases h with
  | close reason hs hopen =>
    rw [closeScope_eq hs hopen]
    exact planeLater_of_set hs rfl ⟨rfl, rfl, Nat.le_refl _, fun _ => rfl⟩ rfl
  | count hs hcounts =>
    refine planeLater_of_set hs rfl ⟨hcounts.key, hcounts.maxBytes, hcounts.totalBytes, ?_⟩ rfl
    exact fun h => hcounts.closed.trans h
  | reserve hs _ _ _ | release hs _ _ => exact planeLater_of_set hs rfl ⟨rfl, rfl, Nat.le_refl _, id⟩ rfl
  | add _ _ _ =>
    refine ⟨fun j t hj => ⟨t, ?_, .refl t⟩, [], rfl, nofun⟩
    exact (getElem?_append_left (List.getElem?_eq_some_iff.mp hj).1).trans hj
  | ticket _ _ _ _ _ | forget _ | drain => exact ⟨fun _ s hs => ⟨s, hs, .refl s⟩, [], rfl, nofun⟩
  | consume _ _ _ hs hopen =>
    refine ⟨fun _ s hs => ⟨s, hs, .refl s⟩, [_], rfl, fun c hc s' hs' => ?_⟩
    rw [mem_singleton.mp hc] at hs'
    rw [← mem_unique hs hs']
    exact hopen

theorem PlaneInv.changes (hinv : PlaneInv cfg p) (h : PlaneChanges cfg p p') : PlaneInv cfg p' := by
  induction h with
  | refl => exact hinv
  | tail _ hstep ih => exact ih.change hstep

theorem planeLater_of_changes (h : PlaneChanges cfg p p') : PlaneLater p p' := by
  induction h with
  | refl => exact .refl p
  | tail _ hstep ih => exact ih.trans (planeLater_of_change hstep)

end Change

/-! ### The methods only make changes -/

section Methods

variable {α β : Type} {cfg : PlaneConfig B} {p q q' : Plane B} {i : ℕ} {s : StreamScope B}

def Keeps (cfg : PlaneConfig B) (x : PlaneOp B α) : Prop :=
  ∀ p, Act.Spec (PlaneChanges cfg p) x fun _ => PlaneChanges cfg p

theorem changes_closeScope (hq : PlaneChanges cfg p q) (i : ℕ) (reason : String) :
    PlaneChanges cfg p (q.closeScope i reason) := by
  cases hs : q.scopes[i]? with
  | none =>
    have hsame : q.closeScope i reason = q := by
      unfold Plane.closeScope
      rw [hs]
    rw [hsame]
    exact hq
  | some s =>
    cases hclosed : s.closed with
    | true =>
      have hsame : q.closeScope i reason = q := by
        unfold Plane.closeScope
        rw [hs]
        simp only [hclosed, if_true]
      rw [hsame]
      exact hq
    | false => exact hq.tail (.close reason hs hclosed)

theorem keeps_pure (a : α) : Keeps cfg (pure a : PlaneOp B α) := fun _ => spec_pure fun _ h => h

theorem keeps_closeAndFail (i : ℕ) (reason : String) (error : Failure) :
    Keeps cfg (closeAndFail i reason error : PlaneOp B α) :=
  fun _ _ hq => changes_closeScope hq i reason

variable {x : PlaneOp B α}

theorem keeps_ite {c : Prop} [Decidable c] {y : PlaneOp B α} (hx : c → Keeps cfg x)
    (hy : ¬ c → Keeps cfg y) : Keeps cfg (if c then x else y) :=
  fun p => spec_ite (fun h => hx h p) fun h => hy h p

theorem keeps_bind {f : α → PlaneOp B β} (hx : Keeps cfg x) (hf : ∀ a, Keeps cfg (f a)) : Keeps cfg (x >>= f) :=
  fun p => spec_bind (hx p) (fun a => hf a p) fun _ _ h => h

theorem keeps_ofExcept (x : Except Failure α) : Keeps cfg (Act.ofExcept x : PlaneOp B α) :=
  fun _ _ hq => hq

theorem keeps_scopeOf (i : ℕ) : Keeps cfg (scopeOf i : PlaneOp B (StreamScope B)) :=
  fun _ _ hq => hq

theorem keeps_get : Keeps cfg (Act.get : PlaneOp B (Plane B)) := fun _ _ hq => hq

/-- A method that is run in a known state. -/
def KeepsAt (cfg : PlaneConfig B) (q : Plane B) (x : PlaneOp B α) : Prop :=
  PlaneChanges cfg q (x q).2

theorem Keeps.at (h : Keeps cfg x) (q : Plane B) : KeepsAt cfg q x := h q q .refl

theorem scopeOf_eq (hs : q.scopes[i]? = some s) : (scopeOf i : PlaneOp B (StreamScope B)) q = (.ok s, q) := by
  show ((demand q.scopes[i]? _ : Except Failure _), q) = _
  rw [hs]
  rfl

/-- What `assertActive` comes to: the scope is open and nothing has changed, or it throws, and may
have closed the scope. -/
def Checked (i : ℕ) (q : Plane B) : Except Failure ℕ → Plane B → Prop
  | .ok _, q' => q' = q ∧ ∃ s, q.scopes[i]? = some s ∧ s.closed = false
  | .error _, q' => q' = q ∨ ∃ reason, q' = q.closeScope i reason

theorem spec_assertActive (i : ℕ) (look : Look) (q : Plane B) :
    Act.Spec (· = q) (assertActive i look) (Checked i q) := by
  have hclose : ∀ (reason : String) (e : Failure), Act.Spec (· = q)
      (closeAndFail i reason e : PlaneOp B ℕ) (Checked i q) := by
    rintro reason e _ rfl
    exact .inr ⟨reason, rfl⟩
  have hscope : Act.Spec (· = q) (scopeOf i : PlaneOp B (StreamScope B))
      fun r q' => q' = q ∧ ∀ s, r = .ok s → q.scopes[i]? = some s := by
    rintro _ rfl
    exact ⟨rfl, fun s hs => demand_eq_ok.mp hs⟩
  refine spec_bind hscope (fun s => spec_ite (fun _ => ?_) fun hopen => ?_) ?_
  · exact spec_throw fun _ h => .inl h.1
  · refine spec_ofExcept_bind (fun now _ => ?_) fun _ _ h => .inl h.1
    have hP : ∀ {x : PlaneOp B ℕ}, Act.Spec (· = q) x (Checked i q) →
        Act.Spec (fun q' => q' = q ∧ ∀ s', Except.ok s = Except.ok (ε := Failure) s' →
          q.scopes[i]? = some s') x (Checked i q) := fun hx q' hq' => hx q' hq'.1
    refine spec_ite (fun _ => hP (hclose _ _)) fun _ => ?_
    refine spec_ite (fun _ => hP (hclose _ _)) fun _ => ?_
    refine spec_ite (fun _ => hP (hclose _ _)) fun _ => ?_
    refine spec_ite (fun _ => hP (hclose _ _)) fun _ => spec_pure fun q' hq' => ?_
    exact ⟨hq'.1, s, hq'.2 s rfl, Bool.eq_false_of_not_eq_true hopen⟩
  · exact fun _ _ h => .inl h.1

theorem keeps_assertActive_bind {f : ℕ → PlaneOp B α} {look : Look}
    (hf : ∀ q now s, q.scopes[i]? = some s → s.closed = false → KeepsAt cfg q (f now)) :
    Keeps cfg (assertActive i look >>= f) := by
  intro p q hq
  have hchecked := spec_assertActive i look q q rfl
  cases hx : assertActive i look q with
  | mk r q' =>
    rw [hx] at hchecked
    cases r with
    | ok now =>
      obtain ⟨rfl, s, hs, hopen⟩ := hchecked
      rw [bind_of_ok hx]
      exact hq.trans (hf q' now s hs hopen)
    | error e =>
      rw [bind_of_error hx]
      rcases hchecked with rfl | ⟨reason, rfl⟩
      · exact hq
      · exact changes_closeScope hq i reason

theorem keepsAt_scopeOf_bind {f : StreamScope B → PlaneOp B α} (hs : q.scopes[i]? = some s)
    (hf : KeepsAt cfg q (f s)) : KeepsAt cfg q (scopeOf i >>= f) := by
  unfold KeepsAt
  rw [bind_of_ok (scopeOf_eq hs)]
  exact hf

theorem keepsAt_modify_bind {g : Plane B → Plane B} {f : Unit → PlaneOp B α}
    (hg : PlaneChange cfg q (g q)) (hf : Keeps cfg (f ())) :
    KeepsAt cfg q (Act.modify g >>= f) := by
  have hrest : KeepsAt cfg (g q) (f ()) := hf.at _
  exact (Relation.ReflTransGen.single hg).trans hrest

theorem keepsAt_ofExcept_bind {x : Except Failure β} {f : β → PlaneOp B α}
    (hf : ∀ a, x = .ok a → KeepsAt cfg q (f a)) : KeepsAt cfg q (Act.ofExcept x >>= f) := by
  cases x with
  | ok a => exact hf a rfl
  | error e => exact .refl

theorem keeps_scheduleExpiry (i : ℕ) (reading : Option ℕ) :
    Keeps cfg (scheduleExpiry i reading : PlaneOp B Unit) := by
  refine keeps_bind (keeps_scopeOf i) fun s => keeps_ite (fun _ => keeps_pure ()) fun _ => ?_
  exact keeps_bind (keeps_ofExcept _) fun _ => keeps_pure ()

theorem keeps_assertActive (i : ℕ) (look : Look) : Keeps cfg (assertActive i look : PlaneOp B ℕ) := by
  intro p q hq
  have hchecked := spec_assertActive i look q q rfl
  cases hx : (assertActive i look q).1 with
  | ok now =>
    rw [hx] at hchecked
    rw [hchecked.1]
    exact hq
  | error e =>
    rw [hx] at hchecked
    rcases hchecked with hsame | ⟨reason, hclosed⟩
    · rw [hsame]
      exact hq
    · rw [hclosed]
      exact changes_closeScope hq i reason

theorem keeps_touch (i : ℕ) (look : Look) (reading : Option ℕ) :
    Keeps cfg (touch i look reading : PlaneOp B Unit) := by
  refine keeps_assertActive_bind fun q now s hs hopen => keepsAt_scopeOf_bind hs ?_
  refine keepsAt_modify_bind (.count hs ⟨rfl, rfl, rfl, rfl, rfl, rfl, Nat.le_refl _, id⟩) ?_
  exact keeps_scheduleExpiry i reading

theorem keeps_countBytes (i length : ℕ) (look again : Look) (reading : Option ℕ) :
    Keeps cfg (countBytes i length look again reading : PlaneOp B Unit) := by
  refine keeps_bind (keeps_ofExcept _) fun _ => ?_
  refine keeps_assertActive_bind fun q now s hs hopen => keepsAt_scopeOf_bind hs ?_
  by_cases hcap : s.maxBytes < s.totalBytes + length
  · rw [if_pos hcap]
    exact (keeps_closeAndFail i _ _).at q
  · rw [if_neg hcap]
    refine keepsAt_modify_bind (.count hs ⟨rfl, rfl, rfl, rfl, rfl, rfl, Nat.le_add_right _ _, fun _ => ?_⟩) ?_
    · exact Nat.le_of_not_lt hcap
    · exact keeps_touch i again reading

theorem keeps_reserveBuffer (i length : ℕ) (look : Look) : Keeps cfg (reserveBuffer cfg i length look) := by
  refine keeps_bind (keeps_ofExcept _) fun _ => ?_
  refine keeps_assertActive_bind fun q now s hs hopen => keepsAt_scopeOf_bind hs ?_
  show KeepsAt cfg q (if _ then _ else _)
  by_cases hcap : s.maxBufferedBytes < s.bufferedBytes + length ∨ cfg.maxBufferedBytes < q.bufferedBytes + length
  · rw [if_pos hcap]
    exact (keeps_closeAndFail i _ _).at q
  · rw [if_neg hcap]
    rw [not_or] at hcap
    refine keepsAt_modify_bind (.reserve hs hopen ?_ ?_) (keeps_pure _)
    · exact Int.not_lt.mp hcap.1
    · exact Int.not_lt.mp hcap.2

theorem keeps_releaseBuffer (i k : ℕ) : Keeps cfg (releaseBuffer i k : PlaneOp B Unit) := by
  intro p q hq
  cases hs : q.scopes[i]? with
  | none =>
    have hscope : (scopeOf i : PlaneOp B (StreamScope B)) q =
        (.error (failure .typeError "scope belongs to another stream plane"), q) := by
      show ((demand q.scopes[i]? _ : Except Failure _), q) = _
      rw [hs]
      rfl
    unfold releaseBuffer
    rw [bind_of_error hscope]
    exact hq
  | some s =>
    refine hq.trans (keepsAt_scopeOf_bind hs ?_)
    cases hr : s.reservations[k]? with
    | none => exact .refl
    | some r =>
      show KeepsAt cfg q (if r.active then _ else _)
      by_cases hactive : r.active = true
      · rw [if_pos hactive]
        exact .single (.release hs hr hactive)
      · rw [if_neg hactive]
        exact .refl

theorem keeps_pollScope (i : ℕ) (look : Look) : Keeps cfg (pollScope i look : PlaneOp B Bool) := by
  intro p q hq
  have hactive : PlaneChanges cfg p (assertActive i look q).2 := keeps_assertActive i look p q hq
  unfold pollScope
  cases hx : assertActive i look q with
  | mk r q' =>
    rw [hx] at hactive
    cases r <;> exact hactive

variable {reading : Option ℕ}

theorem fresh_of_newScope {options : SessionOptions B} (h : newScope cfg options reading = .ok s) :
    s.Fresh ∧ s.key = (options.family, options.streamId) := by
  simp only [newScope, guards_eq_ok] at h
  obtain ⟨_, -, _, -, _, -, _, -, _, -, _, -, _, -, _, -, _, -, _, -, rfl⟩ := h
  exact ⟨⟨rfl, rfl, rfl, rfl⟩, rfl⟩

theorem streamKey_eq_ok {family streamId : ℕ} {key : StreamKey}
    (h : streamKey family streamId = .ok key) : key = (family, streamId) := by
  simp only [streamKey, u64, Except.bind_eq_ok, pure_eq_ok_iff] at h
  obtain ⟨_, -, _, ⟨_, -, rfl⟩, _, -, rfl⟩ := h
  rfl

theorem keeps_createSession (options : SessionOptions B) (reading again : Option ℕ) :
    Keeps cfg (createSession cfg options reading again) := by
  intro p q hq
  refine hq.trans ?_
  show KeepsAt cfg q (Act.ofExcept _ >>= _)
  refine keepsAt_ofExcept_bind fun _ _ => keepsAt_ofExcept_bind fun key hkey => ?_
  refine keepsAt_ofExcept_bind fun _ hnew => keepsAt_ofExcept_bind fun _ hroom => ?_
  refine keepsAt_ofExcept_bind fun s hs => keepsAt_ofExcept_bind fun _ _ => ?_
  obtain ⟨hfresh, hskey⟩ := fresh_of_newScope hs
  rw [streamKey_eq_ok hkey, ← hskey] at hnew
  refine keepsAt_modify_bind (.add hfresh ?_ (require_eq_ok.mp hroom)) (keeps_pure _)
  exact has_eq_false_iff.mp (require_eq_ok.mp hnew)

theorem createSession_open {options : SessionOptions B} {again : Option ℕ} {n : ℕ}
    {p' : Plane B} (h : createSession cfg options reading again p = (.ok n, p')) :
    ∃ scope, p'.scopes[n]? = some scope ∧ scope.closed = false := by
  obtain ⟨p₁, _, hget, h⟩ := Act.bind_eq_ok h
  obtain ⟨hp₁, rfl⟩ := Prod.mk.inj hget
  cases hp₁
  obtain ⟨-, -, h⟩ := ofExcept_bind_eq_ok h
  obtain ⟨key, -, h⟩ := ofExcept_bind_eq_ok h
  obtain ⟨-, -, h⟩ := ofExcept_bind_eq_ok h
  obtain ⟨-, -, h⟩ := ofExcept_bind_eq_ok h
  obtain ⟨scope, hscope, h⟩ := ofExcept_bind_eq_ok h
  obtain ⟨-, -, h⟩ := ofExcept_bind_eq_ok h
  obtain ⟨hn, rfl⟩ := Prod.mk.inj h
  cases hn
  refine ⟨scope, ?_, (fresh_of_newScope hscope).1.closed⟩
  show (p.scopes ++ [scope])[p.scopes.length]? = some scope
  rw [getElem?_concat_length]

theorem keeps_revokeScope (key : StreamKey) : Keeps cfg (Act.modify fun p : Plane B => p.revokeScope key) := by
  refine fun _ _ hq => hq.tail (.forget fun token record hrecord => ?_)
  rw [get?_filter, filter_eq_some_iff] at hrecord
  exact hrecord.1

theorem change_sweep (q : Plane B) (now : ℕ) : PlaneChange cfg q (q.sweep now) := by
  refine .forget fun token record hrecord => ?_
  rw [get?_filter, filter_eq_some_iff] at hrecord
  exact hrecord.1

theorem change_deleteTicket (q : Plane B) (token : B) :
    PlaneChange cfg q { q with tickets := q.tickets.delete token } := by
  refine .forget fun token' record hrecord => ?_
  rw [get?_delete] at hrecord
  split at hrecord
  · cases hrecord
  · exact hrecord

theorem keepsAt_sweep_bind {now : ℕ} {f : Unit → PlaneOp B α} (hf : KeepsAt cfg (q.sweep now) (f ())) :
    KeepsAt cfg q (Act.modify (fun p => p.sweep now) >>= f) :=
  (Relation.ReflTransGen.single (change_sweep q now)).trans hf

theorem keepsAt_issue {binding : TicketBinding B} {bindingHash : B} {callerExpiry : ℕ} {token : Option B}
    (hbinding : streamTicketBinding cfg binding = .ok bindingHash)
    (hs : q.scopes[i]? = some s) (hopen : s.closed = false)
    (htoken : ∀ t ∈ token, q.tickets.get? t = none) :
    KeepsAt cfg q (issue cfg bindingHash binding s.key i callerExpiry reading token) := by
  refine keepsAt_ofExcept_bind fun now _ => keepsAt_sweep_bind ?_
  show KeepsAt cfg (q.sweep now) (Act.ofExcept _ >>= _)
  refine keepsAt_ofExcept_bind fun _ _ => keepsAt_ofExcept_bind fun expiry _ => ?_
  refine keepsAt_ofExcept_bind fun _ _ => keepsAt_ofExcept_bind fun t ht => ?_
  refine keepsAt_modify_bind (.ticket hbinding _ ?_ hs hopen) (keeps_pure _)
  show (q.tickets.filter _).get? t = none
  rw [get?_filter, htoken t (demand_eq_ok.mp ht)]
  rfl

theorem keepsAt_issueTicket {parentSessionId : B} {look : Look}
    {token : Option B} (htoken : ∀ t ∈ token, q.tickets.get? t = none) :
    KeepsAt cfg q (issueTicket cfg i parentSessionId look reading token) := by
  have hchecked := spec_assertActive i look q q rfl
  cases hx : assertActive i look q with
  | mk r q' =>
    rw [hx] at hchecked
    unfold KeepsAt issueTicket
    cases r with
    | ok now =>
      obtain ⟨rfl, s, hs, hopen⟩ := hchecked
      rw [bind_of_ok hx]
      refine keepsAt_scopeOf_bind hs (keepsAt_ofExcept_bind fun bindingHash hbinding => ?_)
      exact keepsAt_issue hbinding hs hopen htoken
    | error e =>
      rw [bind_of_error hx]
      rcases hchecked with rfl | ⟨reason, rfl⟩
      · exact .refl
      · exact changes_closeScope .refl i reason

/-- What `consume` comes to: the ticket is gone, and was live and bound as it is returned. -/
def Taken (token binding : B) (q : Plane B) : Except Failure (TicketRecord B × ℕ) → Plane B → Prop
  | .ok (record, now), q' => q' = { q with tickets := q.tickets.delete token } ∧
      q.tickets.get? token = some record ∧ now < record.expiresMonotonicMillis ∧
      record.bindingHash = binding
  | .error _, q' => q' = q ∨ q' = { q with tickets := q.tickets.delete token }

theorem spec_consume (token binding : B) (reading : Option ℕ) (q : Plane B) :
    Act.Spec (· = q) (consume token binding reading) (Taken token binding q) := by
  refine spec_get_bind fun q₀ hq₀ => ?_
  subst hq₀
  refine spec_ofExcept_bind (P := (· = q₀)) (fun record hrecord => ?_) (fun _ _ h => .inl h) q₀ rfl
  have hdelete : Act.Spec (· = q₀) (Act.modify fun p => { p with tickets := p.tickets.delete token } : PlaneOp B Unit)
      fun _ q' => q' = { q₀ with tickets := q₀.tickets.delete token } := by
    rintro _ rfl
    rfl
  refine spec_bind hdelete (fun _ => ?_) fun _ _ h => .inr h
  refine spec_ofExcept_bind (fun now _ => ?_) fun _ _ h => .inr h
  refine spec_ofExcept_bind (fun _ hnow => ?_) fun _ _ h => .inr h
  refine spec_ofExcept_bind (fun _ hbinding => spec_pure fun q' hq' => ?_) fun _ _ h => .inr h
  exact ⟨hq', demand_eq_ok.mp hrecord, require_eq_ok.mp hnow, require_eq_ok.mp hbinding⟩

theorem keeps_consumeTicket (token : B) (expected : TicketBinding B) (reading : Option ℕ)
    (look : Look) : Keeps cfg (consumeTicket cfg token expected reading look) := by
  refine fun p q hq => hq.trans (keepsAt_ofExcept_bind fun bindingHash hbinding => ?_)
  have htaken := spec_consume token bindingHash reading q q rfl
  unfold KeepsAt
  cases hx : consume token bindingHash reading q with
  | mk r q₁ =>
    rw [hx] at htaken
    cases r with
    | error e =>
      rw [bind_of_error hx]
      rcases htaken with rfl | rfl
      · exact .refl
      · exact .single (change_deleteTicket q token)
    | ok x =>
      obtain ⟨record, now⟩ := x
      obtain ⟨rfl, hrecord, hnow, rfl⟩ := htaken
      rw [bind_of_ok hx]
      have hchecked := spec_assertActive record.payload look { q with tickets := q.tickets.delete token } _ rfl
      cases hy : assertActive record.payload look { q with tickets := q.tickets.delete token } with
      | mk r q₂ =>
        rw [hy] at hchecked
        cases r with
        | ok later =>
          obtain ⟨rfl, s, hs, hopen⟩ := hchecked
          show PlaneChanges cfg q ((assertActive record.payload look >>= _) _).2
          rw [bind_of_ok hy]
          exact .single (.consume hrecord hnow hbinding hs hopen)
        | error e =>
          show PlaneChanges cfg q ((assertActive record.payload look >>= _) _).2
          rw [bind_of_error hy]
          have hgone : PlaneChanges cfg q { q with tickets := q.tickets.delete token } :=
            .single (change_deleteTicket q token)
          rcases hchecked with rfl | ⟨reason, rfl⟩
          · exact hgone
          · exact changes_closeScope hgone _ reason

theorem changes_closeEach (reason : String) (test : StreamScope B → Bool) (l : List ℕ)
    (hq : PlaneChanges cfg p q) : PlaneChanges cfg p (q.closeEach reason test l) := by
  induction l generalizing q with
  | nil => exact hq
  | cons i rest ih =>
    unfold Plane.closeEach
    split
    · exact ih hq
    · split
      · exact ih (changes_closeScope hq i reason)
      · exact ih hq

theorem keeps_fence (event : FenceEvent B) : Keeps cfg (fence event) :=
  keeps_bind (keeps_ofExcept _) fun _ _ _ hq => changes_closeEach _ _ _ hq

theorem keeps_pollEach (looks : ℕ → Look) (l : List ℕ) : Keeps cfg (pollEach looks l : PlaneOp B Unit) := by
  induction l with
  | nil => exact keeps_pure ()
  | cons i rest ih => exact keeps_bind (keeps_pollScope i (looks i)) fun _ => ih

theorem keeps_poll (reading : Option ℕ) (looks : ℕ → Look) : Keeps cfg (poll reading looks : PlaneOp B Unit) := by
  refine keeps_bind (keeps_ofExcept _) fun now => ?_
  refine keeps_bind (fun _ q hq => hq.tail (change_sweep q now)) fun _ => ?_
  exact keeps_bind keeps_get fun q => keeps_pollEach looks _

theorem keeps_closePlane (reason : String) : Keeps cfg (closePlane reason : PlaneOp B Unit) := by
  refine keeps_bind keeps_get fun _ => keeps_ite (fun _ => keeps_pure ()) fun _ p q hq => ?_
  refine changes_closeEach _ _ _ ?_
  exact (hq.tail .drain).tail (.forget fun token record h => nomatch h)

end Methods

/-! ### Bindings -/

section Bindings

variable {cfg : PlaneConfig B} {v w : TicketBinding B} {x y : B}

theorem streamTicketBinding_spec (h : streamTicketBinding cfg v = .ok x) :
    (v.family = familyCore ∨ v.family = familyForward) ∧ v.streamId ≤ maxU64 ∧ v.descriptorSequence ≤ maxU64 ∧
      (cfg.bytes v.descriptorHash).length = 32 ∧ cfg.blake2b256 (bindingMessage cfg v) = x := by
  simp only [streamTicketBinding, boundedBytes, u64, guards_eq_ok] at h
  obtain ⟨hfamily, _, -, -, _, ⟨hstream, rfl⟩, -, _, ⟨hsequence, rfl⟩, _, ⟨hhash, rfl⟩, hx⟩ := h
  exact ⟨hfamily, hstream, hsequence, by omega, hx⟩

/-- The message of a binding determines its fields. -/
theorem bindingMessage_injective (hbytes : Function.Injective cfg.bytes)
    (hv : streamTicketBinding cfg v = .ok x) (hw : streamTicketBinding cfg w = .ok y)
    (h : bindingMessage cfg v = bindingMessage cfg w) : v = w := by
  obtain ⟨hfamily, hstream, hsequence, hhash, -⟩ := streamTicketBinding_spec hv
  obtain ⟨hfamily', hstream', hsequence', hhash', -⟩ := streamTicketBinding_spec hw
  obtain ⟨-, h⟩ := append_inj h rfl
  obtain ⟨hf, h⟩ := append_inj h rfl
  obtain ⟨hs, h⟩ := append_inj h (by rw [Bytes.length_ofNat, Bytes.length_ofNat])
  obtain ⟨hq, h⟩ := append_inj h (by rw [Bytes.length_ofNat, Bytes.length_ofNat])
  obtain ⟨hd, h⟩ := append_inj h (hhash.trans hhash'.symm)
  obtain ⟨-, hp⟩ := append_inj h (by rw [Bytes.length_ofNat, Bytes.length_ofNat])
  have hfamilies : v.family = w.family := by
    rcases hfamily with hfamily | hfamily <;> rcases hfamily' with hfamily' | hfamily' <;>
      rw [hfamily, hfamily'] at hf ⊢
    · exact absurd hf (by decide)
    · exact absurd hf (by decide)
  have hstreams : v.streamId = w.streamId :=
    Bytes.ofNat_injective (Nat.lt_of_le_of_lt hstream (by decide)) (Nat.lt_of_le_of_lt hstream' (by decide)) hs
  have hsequences : v.descriptorSequence = w.descriptorSequence :=
    Bytes.ofNat_injective (Nat.lt_of_le_of_lt hsequence (by decide))
      (Nat.lt_of_le_of_lt hsequence' (by decide)) hq
  cases v
  cases w
  exact TicketBinding.mk.injEq .. ▸ ⟨hfamilies, hstreams, hsequences, hbytes hd, hbytes hp⟩

/-- No two different messages have the same hash, among those of the bindings that were issued and those
that were presented. -/
def Plane.NoCollision (cfg : PlaneConfig B) (p : Plane B) : Prop :=
  Set.InjOn cfg.blake2b256 {m | ∃ v ∈ p.issued.map IssuedTicket.binding ++ p.consumed.map ConsumedTicket.binding,
    m = bindingMessage cfg v}

/-- A ticket is consumed with the very binding that it was issued for. -/
theorem ConsumedTicket.Sound.binding_eq {p : Plane B} {c : ConsumedTicket B} (h : c.Sound cfg p)
    (hc : c ∈ p.consumed) : ∃ t, p.issued[c.number]? = some t ∧ t.token = c.token ∧ t.scope = c.scope ∧
      c.now < t.expiresMonotonicMillis ∧
      (Function.Injective cfg.bytes → p.NoCollision cfg → t.binding = c.binding) := by
  obtain ⟨t, bindingHash, ht, htoken, hscope, hnow, hissued, hexpected⟩ := h
  refine ⟨t, ht, htoken, hscope, hnow, fun hbytes hapart => ?_⟩
  refine bindingMessage_injective hbytes hissued hexpected (hapart ?_ ?_ ?_)
  · exact ⟨_, mem_append_left _ (mem_map_of_mem (mem_of_getElem? ht)), rfl⟩
  · exact ⟨_, mem_append_right _ (mem_map_of_mem hc), rfl⟩
  · exact (streamTicketBinding_spec hissued).2.2.2.2.trans (streamTicketBinding_spec hexpected).2.2.2.2.symm

end Bindings

/-! ### Runs -/

/-- A call. The token of `issueTicket` is the one its loop ends with; `none` when the entropy source
is at fault. -/
inductive PlaneMove (B : Type) where
  | createSession (options : SessionOptions B) (reading again : Option ℕ)
  | countBytes (i length : ℕ) (look again : Look) (reading : Option ℕ)
  | reserveBuffer (i length : ℕ) (look : Look)
  | releaseBuffer (i k : ℕ)
  | touch (i : ℕ) (look : Look) (reading : Option ℕ)
  | assertActive (i : ℕ) (look : Look)
  | pollScope (i : ℕ) (look : Look)
  | closeScope (i : ℕ) (reason : String)
  | issueTicket (i : ℕ) (parentSessionId : B) (look : Look) (reading : Option ℕ) (token : Option B)
  | consumeTicket (token : B) (expected : TicketBinding B) (reading : Option ℕ) (look : Look)
  | fence (event : FenceEvent B)
  | poll (reading : Option ℕ) (looks : ℕ → Look)
  | close (reason : String)

/-- The plane after a call, whether it returns or throws. -/
def planeStep (cfg : PlaneConfig B) (p : Plane B) : PlaneMove B → Option (Plane B)
  | .createSession options reading again => some (createSession cfg options reading again p).2
  | .countBytes i length look again reading =>
    some (countBytes i length look again reading p).2
  | .reserveBuffer i length look => some (reserveBuffer cfg i length look p).2
  | .releaseBuffer i k => some (releaseBuffer i k p).2
  | .touch i look reading => some (touch i look reading p).2
  | .assertActive i look => some (assertActive i look p).2
  | .pollScope i look => some (pollScope i look p).2
  | .closeScope i reason => some (p.closeScope i reason)
  | .issueTicket i parentSessionId look reading token =>
    -- the loop draws again while the token is in use
    if ∀ t ∈ token, p.tickets.get? t = none then
      some (issueTicket cfg i parentSessionId look reading token p).2
    else none
  | .consumeTicket token expected reading look =>
    some (consumeTicket cfg token expected reading look p).2
  | .fence event => some (fence event p).2
  | .poll reading looks => some (poll reading looks p).2
  | .close reason => some (closePlane reason p).2

section Runs

variable {cfg : PlaneConfig B} {p p' : Plane B}

theorem planeStep_changes {m : PlaneMove B} (h : planeStep cfg p m = some p') : PlaneChanges cfg p p' := by
  cases m with
  | createSession options reading again =>
    exact some.inj h ▸ (keeps_createSession options reading again).at p
  | countBytes i length look again reading =>
    exact some.inj h ▸ (keeps_countBytes i length look again reading).at p
  | reserveBuffer i length look => exact some.inj h ▸ (keeps_reserveBuffer i length look).at p
  | releaseBuffer i k => exact some.inj h ▸ (keeps_releaseBuffer i k).at p
  | touch i look reading => exact some.inj h ▸ (keeps_touch i look reading).at p
  | assertActive i look => exact some.inj h ▸ (keeps_assertActive i look).at p
  | pollScope i look => exact some.inj h ▸ (keeps_pollScope i look).at p
  | closeScope i reason => exact some.inj h ▸ changes_closeScope .refl i reason
  | issueTicket i parentSessionId look reading token =>
    simp only [planeStep] at h
    split at h
    · rename_i htoken
      exact some.inj h ▸ keepsAt_issueTicket htoken
    · cases h
  | consumeTicket token expected reading look =>
    exact some.inj h ▸ (keeps_consumeTicket token expected reading look).at p
  | fence event => exact some.inj h ▸ (keeps_fence event).at p
  | poll reading looks => exact some.inj h ▸ (keeps_poll reading looks).at p
  | close reason => exact some.inj h ▸ (keeps_closePlane reason).at p

theorem planeInv_new (cfg : PlaneConfig B) : PlaneInv cfg (Plane.new B) := by
  refine ⟨nofun, rfl, Int.natCast_nonneg _, fun key i => ⟨nofun, ?_⟩, Nat.zero_le _, nofun, nofun, nodup_nil⟩
  rintro ⟨s, hs, -⟩
  exact nomatch hs

theorem planeChanges_run {moves : List (PlaneMove B)}
    (hrun : run (planeStep cfg) p moves = some p') : PlaneChanges cfg p p' :=
  run_preserves (PlaneChanges cfg p) (fun _ _ _ hq hstep => hq.trans (planeStep_changes hstep)) .refl hrun

def StreamScope.isOpen (s : StreamScope B) : Bool := !s.closed

theorem sum_open {l : List (StreamScope B)} (h : ∀ s ∈ l, s.Sound) : (l.map StreamScope.bufferedBytes).sum =
      ((l.filter StreamScope.isOpen).map StreamScope.bufferedBytes).sum := by
  induction l with
  | nil => rfl
  | cons s l ih =>
    rw [map_cons, sum_cons, ih fun t ht => h t (mem_cons_of_mem s ht)]
    cases hclosed : s.closed with
    | true =>
      rw [filter_cons_of_neg (by simp [StreamScope.isOpen, hclosed]),
        (h s mem_cons_self).closed hclosed, zero_add]
    | false =>
      rw [filter_cons_of_pos (by simp [StreamScope.isOpen, hclosed]), map_cons, sum_cons]

/-- **The ledger of the stream plane.** In every state that a plane reaches, its buffer is the sum
over the scopes that are open, the buffer of a scope is the sum of its active reservations, all of
them within their caps; the sessions are the open scopes by their keys, and there are at most
`maxStreams` of them; a ticket is consumed at most once, for the scope it was issued for and before it
expires, and with the five fields it was issued for unless the hash has a collision. Later on, a scope
that is closed is still closed, and every ticket that is consumed is one of a scope that was not. -/
theorem stream_plane_ledger {moves more : List (PlaneMove B)}
    (hrun : run (planeStep cfg) (Plane.new B) moves = some p)
    (hmore : run (planeStep cfg) p more = some p') :
    p'.bufferedBytes = ((p'.scopes.filter StreamScope.isOpen).map StreamScope.bufferedBytes).sum ∧
      p'.bufferedBytes ≤ cfg.maxBufferedBytes ∧
      (∀ s ∈ p'.scopes, s.bufferedBytes = activeBytes s.reservations ∧
        s.bufferedBytes ≤ s.maxBufferedBytes ∧ s.totalBytes ≤ s.maxBytes) ∧
      p'.sessions.size ≤ cfg.maxStreams ∧
      (∀ (key : StreamKey) (i : ℕ), p'.sessions.get? key = some i ↔
        ∃ s, p'.scopes[i]? = some s ∧ s.closed = false ∧ s.key = key) ∧
      (p'.consumed.map ConsumedTicket.number).Nodup ∧
      (∀ c ∈ p'.consumed, ∃ t, p'.issued[c.number]? = some t ∧ t.token = c.token ∧ t.scope = c.scope ∧
        c.now < t.expiresMonotonicMillis ∧
        (Function.Injective cfg.bytes → p'.NoCollision cfg → t.binding = c.binding)) ∧
      (∀ (i : ℕ) (s : StreamScope B), p.scopes[i]? = some s → s.closed = true →
        ∃ s', p'.scopes[i]? = some s' ∧ s'.key = s.key ∧ s'.closed = true) ∧
      ∃ new, p'.consumed = new ++ p.consumed ∧ ∀ c ∈ new, ∀ s, p.scopes[c.scope]? = some s → s.closed = false := by
  have hmoves := planeChanges_run hrun
  have hlater := planeChanges_run hmore
  have hinv : PlaneInv cfg p' := ((planeInv_new cfg).changes hmoves).changes hlater
  have hkept := planeLater_of_changes hlater
  have hscope : ∀ s ∈ p'.scopes, s.Sound := by
    intro s hs
    obtain ⟨i, hi⟩ := getElem?_of_mem hs
    exact hinv.scope i s hi
  refine ⟨?_, hinv.capped, fun s hs => ?_, hinv.size, hinv.session, hinv.once,
    fun c hc => (hinv.consumed c hc).binding_eq hc, fun i s hs hclosed => ?_, hkept.consumed⟩
  · rw [hinv.buffered, sum_open hscope]
  · exact ⟨(hscope s hs).buffered, (hscope s hs).capped, (hscope s hs).total⟩
  · obtain ⟨s', hs', hlater⟩ := hkept.scope i s hs
    exact ⟨s', hs', hlater.key, hlater.closed hclosed⟩

/-- A plane with room for two streams, whose buffers have the given bytes. -/
def samplePlaneOf (bytes : B → Bytes) (blake2b256 : Bytes → B) : PlaneConfig B where
  maxStreams := 2
  maxBufferedBytes := 100
  maxPerStreamBufferedBytes := 60
  maxTickets := 4
  ttlMillis := 30
  bytes := bytes
  blake2b256 := blake2b256
  one_le_maxStreams := by decide
  one_le_perStream := by decide
  perStream_le := by decide

/-- A plane whose buffers are numbers. -/
def samplePlane : PlaneConfig ℕ := samplePlaneOf (Bytes.ofNat 32) length

/-- A plane whose buffers are byte strings, which are their own hashes. -/
def sampleBytesPlane : PlaneConfig Bytes := samplePlaneOf id id

/-- A session that is opened, buffers and gets two tickets; the first one is presented with its binding and
the second one with that of another parent. -/
def sampleMoves : List (PlaneMove Bytes) :=
  let descriptorHash := Bytes.ofNat 32 7
  [.createSession ⟨4, 9, 1000, none, some 50, some 500, some ⟨1, descriptorHash, 400⟩⟩ (some 10) (some 10),
    .countBytes 0 30 ⟨some 11, true⟩ ⟨some 11, true⟩ (some 11),
    .reserveBuffer 0 30 ⟨some 11, true⟩,
    .issueTicket 0 [5] ⟨some 12, true⟩ (some 12) (some [77]),
    .issueTicket 0 [5] ⟨some 12, true⟩ (some 12) (some [78]),
    .consumeTicket [77] ⟨4, 9, 1, descriptorHash, [5]⟩ (some 13) ⟨some 13, true⟩,
    .consumeTicket [78] ⟨4, 9, 1, descriptorHash, [6]⟩ (some 13) ⟨some 13, true⟩]

/-- The session closes, and its buffer is released after that. -/
def sampleClosing : List (PlaneMove Bytes) := [.closeScope 0 "done", .releaseBuffer 0 0]

/-- The run of `sampleMoves` and what follows it. -/
theorem stream_plane_ledger_sample : ∃ p p' c t, run (planeStep sampleBytesPlane) (Plane.new Bytes) sampleMoves = some p ∧
      run (planeStep sampleBytesPlane) p sampleClosing = some p' ∧ p.bufferedBytes = 30 ∧
      p'.bufferedBytes = 0 ∧
      p'.bufferedBytes = ((p'.scopes.filter StreamScope.isOpen).map StreamScope.bufferedBytes).sum ∧
      p'.consumed = [c] ∧ p'.issued.length = 2 ∧ p'.issued[c.number]? = some t ∧ t.binding = c.binding := by
  obtain ⟨p, hp⟩ : ∃ p, run (planeStep sampleBytesPlane) (Plane.new Bytes) sampleMoves = some p :=
    isSome_iff_exists.mp (by decide +kernel)
  obtain ⟨p', hp'⟩ : ∃ p', run (planeStep sampleBytesPlane) p sampleClosing = some p' := ⟨_, rfl⟩
  have hfacts : ((run (planeStep sampleBytesPlane) (Plane.new Bytes) sampleMoves).bind fun p =>
      (run (planeStep sampleBytesPlane) p sampleClosing).map fun p' =>
        (p.bufferedBytes, p'.bufferedBytes, p'.consumed.length, p'.issued.length)) = some (30, 0, 1, 2) := by
    decide +kernel
  rw [hp, bind_some, hp', map_some, some_inj] at hfacts
  simp only [Prod.mk.injEq] at hfacts
  obtain ⟨hbuffered, hbuffered', hconsumed, hissued⟩ := hfacts
  obtain ⟨c, hc⟩ := length_eq_one_iff.mp hconsumed
  obtain ⟨hsum, -, -, -, -, -, hbindings, -⟩ := stream_plane_ledger hp hp'
  obtain ⟨t, ht, -, -, -, hbinding⟩ := hbindings c (by rw [hc]; exact mem_singleton_self c)
  have hapart : p'.NoCollision sampleBytesPlane := fun _ _ _ _ h => h
  exact ⟨p, p', c, t, hp, hp', hbuffered, hbuffered', hsum, hc, hissued, ht, hbinding (fun _ _ h => h) hapart⟩

end Runs

end HiveRelay.Stream
