import HiveRelay.Ipc.ReplayRuns

/-!
# Receipts of reservations

A reservation that is answered leaves a receipt (`mintReceipt`), and the record may be executed once
`consumePrivateIpcReplayReservationV2` has taken it. The receipt names the entry by the generation of
the journal and the sequence number of its frame; compaction writes the live entries anew, with other
numbers, so it makes every receipt of before stale.

The receipts of all journals are in one `WeakMap`. Reservations of a journal run one after the other;
a consumption is one synchronous call.

## Main definitions

* `Process` — the open journals, and the receipts

## Main results

* `receipt_honoured_once` — at most once, and until a compaction
-/

namespace HiveRelay.Ipc

open OrderedMap List Option Function

/-- Whether some operations put a new file in the place of the journal. -/
def compacts (ops : List DiskOp) : Bool :=
  ops.any fun
    | .replace _ => true
    | _ => false

/-- What `RECEIPTS` has of a receipt. -/
structure Receipt where
  authority : ℕ
  replayTupleHash : Bytes
  (expiresMonotonicMillis generation sequence : ℕ)

/-- What `expectedReservationBinding` returns. -/
structure Expected where
  replayTupleHash : Bytes
  expiresMonotonicMillis : ℕ

/-- The open journals of a process, by their authorities, and the receipts, by the order in which they
were minted. -/
structure Process where
  journals : ℕ → Mem
  receipts : OrderedMap ℕ Receipt
  minted : ℕ

def Process.started (journals : ℕ → Mem) : Process := ⟨journals, .empty, 0⟩

def Process.setJournal (p : Process) (authority : ℕ) (mem : Mem) : Process :=
  { p with journals := update p.journals authority mem }

/-- `mintReceipt`. -/
def mintReceipt (p : Process) (authority : ℕ) (tuple : Bytes) (entry : Entry) : Process :=
  { p with
    receipts := p.receipts.set p.minted
      ⟨authority, tuple, entry.expiresMonotonicMillis, entry.generation, entry.sequence⟩
    minted := p.minted + 1 }

/-- Whether the entry of a tuple is still the one that a receipt was minted for. -/
def Receipt.Current (internal : Receipt) (now : ℕ) (entry : Entry) : Prop :=
  now < entry.expiresMonotonicMillis ∧ now < internal.expiresMonotonicMillis ∧
    entry.expiresMonotonicMillis = internal.expiresMonotonicMillis ∧
      entry.generation = internal.generation ∧ entry.sequence = internal.sequence
  deriving Decidable

/-- `consumePrivateIpcReplayReservationV2`, with its reading of the clock. -/
def consume (p : Process) (authority receipt : ℕ) (expected : Expected) (now : ℕ) : Process × Except Failure Unit :=
  let mem := p.journals authority
  if mem.opened = false then
    (p, .error ⟨.unavailable, "private IPC replay reservation cannot be consumed from an unavailable journal"⟩)
  else match p.receipts.get? receipt with
  | none => (p, .error ⟨.reservationInvalid,
      "private IPC replay reservation receipt is forged, foreign, or already consumed"⟩)
  | some internal =>
    let p := { p with receipts := p.receipts.delete receipt }
    if internal.authority ≠ authority ∨ internal.replayTupleHash ≠ expected.replayTupleHash ∨
        internal.expiresMonotonicMillis ≠ expected.expiresMonotonicMillis then
      (p, .error ⟨.reservationInvalid,
        "private IPC replay reservation receipt does not match its expected tuple and expiry"⟩)
    else if now < mem.lastNow then (p.setJournal authority { mem with opened := false }, .error clockUnsafe)
    else
      let p := p.setJournal authority { mem with lastNow := now }
      if ∃ entry ∈ mem.entries.get? internal.replayTupleHash, internal.Current now entry then (p, .ok ())
      else (p, .error ⟨.reservationInvalid,
        "private IPC replay reservation is expired, superseded, or no longer current"⟩)

inductive Call where
  | reserve (authority : ℕ) (r : Reservation)
  | consume (authority receipt : ℕ) (expected : Expected) (now : ℕ)

section Runs

variable (C : Crypto) (L : ℕ → Launch)

def Process.step (p : Process) : Call → Process
  | .reserve authority r =>
    let outcome := Ipc.reserve C (L authority) (p.journals authority) r
    let p := p.setJournal authority outcome.mem
    match outcome.result with
    | .error _ => p
    | .ok entry => mintReceipt p authority r.tuple entry
  | .consume authority receipt expected now => (Ipc.consume p authority receipt expected now).1

def Process.run (p : Process) (calls : List Call) : Process := calls.foldl (Process.step C L) p

/-- How often a call compacts a journal. -/
def Process.compactions (p : Process) (authority : ℕ) : Call → ℕ
  | .reserve b r =>
    if b = authority then (compacts (Ipc.reserve C (L b) (p.journals b) r).ops).toNat else 0
  | .consume .. => 0

/-- How often some calls compact a journal. -/
def Process.runCompactions (authority : ℕ) : Process → List Call → ℕ
  | _, [] => 0
  | p, call :: calls =>
    p.compactions C L authority call + (p.step C L call).runCompactions authority calls

end Runs

/-! ### What a reservation does to the entries -/

/-- What a reservation does to the entries of its journal. -/
structure Renumbered (mem : Mem) (r : Reservation) (o : Outcome) : Prop where
  lastNow_le : mem.lastNow ≤ o.mem.lastNow
  opened : o.mem.opened = true → mem.opened = true
  generation : o.mem.generation = mem.generation + (compacts o.ops).toNat
  kept : compacts o.ops = false → ∀ k e, mem.entries.get? k = some e →
    o.mem.lastNow < e.expiresMonotonicMillis → o.mem.entries.get? k = some e
  numbered : ∀ k e, o.mem.entries.get? k = some e → e.generation = o.mem.generation ∨
    compacts o.ops = false ∧ mem.entries.get? k = some e
  minted : ∀ e, o.result = .ok e → o.mem.entries.get? r.tuple = some e ∧
    e.generation = o.mem.generation ∧ e.expiresMonotonicMillis = r.expires

section Reservations

variable {C : Crypto} {L : Launch} {mem : Mem} {r : Reservation} {ops : List DiskOp} {expired : List Bytes}

theorem renumbered_ite {p : Prop} [Decidable p] {x y : Outcome} (hx : p → Renumbered mem r x)
    (hy : ¬ p → Renumbered mem r y) : Renumbered mem r (if p then x else y) :=
  iteInduction hx hy

theorem renumbered_refused {mem' : Mem} {error : Failure} (hgeneration : mem'.generation = mem.generation)
    (hentries : mem'.entries = mem.entries) (hopened : mem'.opened = true → mem.opened = true)
    (hlastNow : mem.lastNow ≤ mem'.lastNow) : Renumbered mem r ⟨[], mem', .error error⟩ where
  lastNow_le := hlastNow
  opened := hopened
  generation := hgeneration
  kept _ k e he _ := hentries ▸ he
  numbered k e he := .inr ⟨rfl, hentries ▸ he⟩
  minted e he := by cases he

theorem generation_numbered {generation : ℕ} {snapshot : List LiveEntry} :
    ∀ {sequence : ℕ} {entries : OrderedMap Bytes Entry},
      (∀ k e, entries.get? k = some e → e.generation = generation) →
        ∀ k e, (numbered generation sequence entries snapshot).get? k = some e → e.generation = generation := by
  induction snapshot with
  | nil => exact fun h => h
  | cons live rest ih => exact fun h => ih (forall_set h rfl)

/-- **The part of a reservation that appends**, after a compaction or without one. -/
theorem renumbered_append {mem₀ : Mem} (hlastNow : mem₀.lastNow ≤ mem.lastNow)
    (hopened : mem.opened = true → mem₀.opened = true)
    (hgeneration : mem.generation = mem₀.generation + (compacts ops).toNat)
    (hkept : compacts ops = false → mem.entries = mem₀.entries ∧
      ∀ k e, k = r.tuple ∨ k ∈ expired → mem.entries.get? k = some e → e.expiresMonotonicMillis ≤ mem.lastNow)
    (hnumbered : ∀ k e, mem.entries.get? k = some e → e.generation = mem.generation ∨
      compacts ops = false ∧ mem₀.entries.get? k = some e) :
    Renumbered mem₀ r (reserveAppend C L mem ops expired r) := by
  have hstop : ∀ mem' error, mem'.generation = mem.generation → mem'.entries = mem.entries →
      (mem'.opened = true → mem.opened = true) → mem.lastNow ≤ mem'.lastNow →
        Renumbered mem₀ r ⟨ops, mem', .error error⟩ := by
    intro mem' error hgeneration' hentries hopened' hlastNow'
    refine ⟨hlastNow.trans hlastNow', hopened ∘ hopened', hgeneration'.trans hgeneration, ?_, ?_, ?_⟩
    · intro hcompacted k e he _
      rw [hentries, (hkept hcompacted).1, he]
    · rw [hentries, hgeneration']
      exact hnumbered
    · rintro _ ⟨⟩
  have hcompacted : compacts (ops ++ appendOps C L { mem with lastNow := r.durableNow } expired r) =
      compacts ops := by simp [compacts, appendOps]
  -- with the frames written
  have hwritten : mem.lastNow ≤ r.durableNow → ∀ lastNow opened result,
      (opened = true → mem.opened = true) → mem.lastNow ≤ lastNow →
      (∀ e, result = .ok e → e = ⟨r.expires, mem.generation, mem.sequence + (reservedSpecs expired r).length⟩) →
      Renumbered mem₀ r ⟨ops ++ appendOps C L { mem with lastNow := r.durableNow } expired r,
        { appended C L { mem with lastNow := r.durableNow } expired r with
          lastNow := lastNow, opened := opened }, result⟩ := by
    intro hdurable lastNow opened result hopened' hlastNow' hresult
    refine ⟨hlastNow.trans hlastNow', hopened ∘ hopened', ?_, ?_, ?_, ?_⟩
    · rw [hcompacted]
      exact hgeneration
    · intro hnot k e he hlive
      rw [hcompacted] at hnot
      obtain ⟨hentries, hfree⟩ := hkept hnot
      rw [← hentries] at he
      have hnot_free : ¬ (k = r.tuple ∨ k ∈ expired) := fun hk =>
        absurd ((hfree k e hk he).trans hlastNow') (Nat.not_le.mpr hlive)
      obtain ⟨htuple, hexpired⟩ := not_or.mp hnot_free
      exact (appended_get? (C := C) (L := L)).trans ((if_neg htuple).trans ((if_neg hexpired).trans he))
    · intro k e he
      rw [hcompacted]
      replace he := (appended_get? (C := C) (L := L)).symm.trans he
      split at he
      · exact .inl ((some.inj he) ▸ rfl)
      · split at he
        · cases he
        · exact hnumbered k e he
    · intro e he
      obtain rfl := hresult e he
      exact ⟨(appended_get? (C := C) (L := L)).trans (if_pos rfl), rfl, rfl⟩
  refine renumbered_ite (fun _ => hstop _ _ rfl rfl (by simp) le_rfl) fun hclock => ?_
  have hdurable : mem.lastNow ≤ r.durableNow := Nat.not_lt.mp hclock
  refine renumbered_ite (fun _ => hstop _ _ rfl rfl id hdurable) fun _ => ?_
  refine renumbered_ite (fun _ => hstop _ _ rfl rfl id hdurable) fun _ => ?_
  refine renumbered_ite
    (fun _ => hwritten hdurable _ _ _ (by simp) hdurable (by simp)) fun hclock' => ?_
  have hcommitted := hdurable.trans (Nat.not_lt.mp hclock')
  refine renumbered_ite (fun _ => hwritten hdurable _ _ _ id hcommitted (by simp)) fun _ => ?_
  exact hwritten hdurable _ _ _ id hcommitted fun e he => (Except.ok.inj he).symm

theorem renumbered_reserve (C : Crypto) (L : Launch) (mem : Mem) (r : Reservation) :
    Renumbered mem r (reserve C L mem r) := by
  refine renumbered_ite (fun _ => renumbered_refused rfl rfl id le_rfl) fun _ => ?_
  refine renumbered_ite (fun _ => renumbered_refused rfl rfl id le_rfl) fun _ => ?_
  refine renumbered_ite (fun _ => renumbered_refused rfl rfl nofun le_rfl) fun hclock => ?_
  have hnow : mem.lastNow ≤ r.now := Nat.not_lt.mp hclock
  refine renumbered_ite (fun _ => renumbered_refused rfl rfl id hnow) fun _ => ?_
  refine renumbered_ite (fun _ => renumbered_refused rfl rfl id hnow) fun _ => ?_
  refine renumbered_ite (fun _ => renumbered_refused rfl rfl id hnow) fun hreplay => ?_
  refine renumbered_ite (fun _ => renumbered_refused rfl rfl id hnow) fun _ => ?_
  refine renumbered_ite (fun _ => ?_) fun _ => ?_
  · refine renumbered_ite (fun _ => renumbered_refused rfl rfl id hnow) fun _ => ?_
    refine renumbered_ite (fun _ => renumbered_refused rfl rfl nofun hnow) fun _ => ?_
    cases liveSnapshot mem.entries r.now (expiredKeys mem.entries r.now) with
    | error error => exact renumbered_refused rfl rfl id hnow
    | ok snapshot =>
      have hnumbered : ∀ k e, (compacted C L { mem with lastNow := r.now } snapshot).entries.get? k = some e →
          e.generation = mem.generation + 1 :=
        generation_numbered nofun
      refine renumbered_ite (fun _ => ?_) fun _ => ?_
      · exact ⟨hnow, id, rfl, nofun, fun k e he => .inl (hnumbered k e he), nofun⟩
      · exact renumbered_append hnow id rfl nofun fun k e he => .inl (hnumbered k e he)
  · refine renumbered_append hnow id rfl (fun _ => ⟨rfl, fun k e hk he => ?_⟩) fun k e he => .inr ⟨rfl, he⟩
    -- what is written over or deleted has expired
    rcases hk with rfl | hk
    · by_contra hlive
      refine hreplay ⟨has_eq_true_iff.mpr ⟨e, he⟩, fun hexpired => ?_⟩
      obtain ⟨e', he', hle⟩ := mem_expiredKeys.mp hexpired
      obtain rfl := mem_unique he he'
      exact hlive hle
    · obtain ⟨e', he', hle⟩ := mem_expiredKeys.mp hk
      obtain rfl := mem_unique he he'
      exact hle

end Reservations

/-! ### Runs -/

/-- What is known of the entry `e` that was reserved for a tuple, `n` compactions ago. -/
structure Since (tuple : Bytes) (e : Entry) (n : ℕ) (mem : Mem) : Prop where
  generation : mem.generation = e.generation + n
  current : n = 0 → mem.lastNow < e.expiresMonotonicMillis → mem.entries.get? tuple = some e
  renumbered : 0 < n → ∀ k e', mem.entries.get? k = some e' → e.generation < e'.generation

/-- What a consumption does to a journal: it reads the clock. -/
structure Looked (mem mem' : Mem) : Prop where
  lastNow_le : mem.lastNow ≤ mem'.lastNow
  opened : mem'.opened = true → mem.opened = true
  generation : mem'.generation = mem.generation
  entries : mem'.entries = mem.entries

section Steps

variable {tuple : Bytes} {e : Entry} {n : ℕ} {mem mem' : Mem} {r : Reservation} {o : Outcome}

theorem Since.reserve (h : Since tuple e n mem) (ho : Renumbered mem r o) :
    Since tuple e ((compacts o.ops).toNat + n) o.mem := by
  have hlater : o.mem.lastNow < e.expiresMonotonicMillis → mem.lastNow < e.expiresMonotonicMillis :=
    ho.lastNow_le.trans_lt
  have hgeneration := ho.generation
  rw [h.generation] at hgeneration
  refine ⟨by omega, fun hn hlive => ?_, fun hn k e' he' => ?_⟩
  · have hnot : compacts o.ops = false := by simpa using (Nat.add_eq_zero_iff.mp hn).1
    exact ho.kept hnot tuple e (h.current (Nat.add_eq_zero_iff.mp hn).2 (hlater hlive)) hlive
  · rcases ho.numbered k e' he' with heq | ⟨hnot, hold⟩
    · omega
    · rw [hnot, Bool.toNat_false, Nat.zero_add] at hn
      exact h.renumbered hn k e' hold

theorem Since.looked (h : Since tuple e n mem) (hm : Looked mem mem') : Since tuple e n mem' where
  generation := hm.generation.trans h.generation
  current hn hlive := hm.entries ▸ h.current hn (hm.lastNow_le.trans_lt hlive)
  renumbered hn := hm.entries ▸ h.renumbered hn

end Steps

section Consumptions

variable {p : Process} {b receipt now : ℕ} {expected : Expected}

theorem consume_eq_ok : (consume p b receipt expected now).2 = .ok () ↔
    (p.journals b).opened = true ∧ ∃ internal, p.receipts.get? receipt = some internal ∧
      (internal.authority = b ∧ internal.replayTupleHash = expected.replayTupleHash ∧
        internal.expiresMonotonicMillis = expected.expiresMonotonicMillis) ∧
      (p.journals b).lastNow ≤ now ∧
      ∃ entry ∈ (p.journals b).entries.get? internal.replayTupleHash, internal.Current now entry := by
  cases hopened : (p.journals b).opened with
  | false => simp [consume, hopened]
  | true =>
    cases hget : p.receipts.get? receipt with
    | none => simp [consume, hopened, hget]
    | some internal =>
      simp only [consume, hopened, hget, Bool.true_eq_false, if_false, true_and, some.injEq, exists_eq_left']
      by_cases hbinding : internal.authority = b ∧ internal.replayTupleHash = expected.replayTupleHash ∧
          internal.expiresMonotonicMillis = expected.expiresMonotonicMillis
      · rw [if_neg (by tauto)]
        by_cases hclock : now < (p.journals b).lastNow
        · simp [hclock, hclock.not_ge]
        · rw [if_neg hclock]
          split <;> simp_all
      · rw [if_pos (by tauto)]
        simp [hbinding]

structure Consumed (p : Process) (b receipt : ℕ) (p' : Process) : Prop where
  journals : ∀ a, Looked (p.journals a) (p'.journals a)
  minted : p'.minted = p.minted
  receipts : p'.receipts = if (p.journals b).opened then p.receipts.delete receipt else p.receipts

theorem looked_self (mem : Mem) : Looked mem mem := ⟨le_rfl, id, rfl, rfl⟩

theorem looked_setJournal {mem : Mem} (h : Looked (p.journals b) mem) (a : ℕ) :
    Looked (p.journals a) ((p.setJournal b mem).journals a) := by
  by_cases ha : a = b
  · subst ha
    simpa [Process.setJournal] using h
  · simpa [Process.setJournal, ha] using looked_self _

theorem consumed_consume : Consumed p b receipt (consume p b receipt expected now).1 := by
  cases hopened : (p.journals b).opened with
  | false =>
    rw [consume, if_pos hopened]
    exact ⟨fun a => looked_self _, rfl, by simp [hopened]⟩
  | true =>
    cases hget : p.receipts.get? receipt with
    | none =>
      simp only [consume, hopened, hget, Bool.true_eq_false, if_false]
      exact ⟨fun a => looked_self _, rfl, by simp [delete_of_get?_eq_none hget]⟩
    | some internal =>
      have hdeleted : ∀ mem, Looked (p.journals b) mem →
          Consumed p b receipt ({ p with receipts := p.receipts.delete receipt }.setJournal b mem) :=
        fun mem hmem => ⟨looked_setJournal hmem, rfl, by simp [Process.setJournal, hopened]⟩
      simp only [consume, hopened, hget, Bool.true_eq_false, if_false]
      split
      · exact ⟨fun a => looked_self _, rfl, by simp [hopened]⟩
      split
      · exact hdeleted _ ⟨le_rfl, fun _ => hopened, rfl, rfl⟩
      next hclock =>
        split <;> exact hdeleted _ ⟨Nat.not_lt.mp hclock, fun _ => hopened, rfl, rfl⟩

end Consumptions

section Process

variable {C : Crypto} {L : ℕ → Launch} {p : Process} {tuple : Bytes} {e : Entry} {n a id : ℕ}

theorem journals_reserve (b : ℕ) (r : Reservation) : (p.step C L (.reserve b r)).journals =
    update p.journals b (Ipc.reserve C (L b) (p.journals b) r).mem := by
  simp only [Process.step]
  split <;> rfl

theorem opened_step (call : Call) (h : ((p.step C L call).journals a).opened = true) :
    (p.journals a).opened = true := by
  cases call with
  | consume b receipt expected now => exact (consumed_consume.journals a).opened h
  | reserve b r =>
    rw [journals_reserve] at h
    by_cases ha : a = b
    · subst ha
      rw [update_self] at h
      exact (renumbered_reserve C (L a) (p.journals a) r).opened h
    · rwa [update_of_ne ha] at h

theorem opened_run {calls : List Call} (h : ((p.run C L calls).journals a).opened = true) :
    (p.journals a).opened = true := by
  induction calls generalizing p with
  | nil => exact h
  | cons call calls ih => exact opened_step call (ih h)

theorem Since.step (h : Since tuple e n (p.journals a)) (call : Call) :
    Since tuple e (p.compactions C L a call + n) ((p.step C L call).journals a) := by
  cases call with
  | consume b receipt expected now =>
    rw [Process.compactions, Nat.zero_add]
    exact h.looked (consumed_consume.journals a)
  | reserve b r =>
    rw [journals_reserve, Process.compactions]
    by_cases ha : b = a
    · subst ha
      rw [update_self, if_pos rfl]
      exact h.reserve (renumbered_reserve C (L b) (p.journals b) r)
    · rw [update_of_ne (Ne.symm ha), if_neg ha, Nat.zero_add]
      exact h

theorem Since.run (h : Since tuple e n (p.journals a)) (calls : List Call) :
    Since tuple e (p.runCompactions C L a calls + n) ((p.run C L calls).journals a) := by
  induction calls generalizing p n with
  | nil => rwa [Process.runCompactions, Nat.zero_add]
  | cons call calls ih =>
    have hrest := ih (h.step (C := C) (L := L) call)
    rwa [Nat.add_left_comm, ← Nat.add_assoc] at hrest

theorem get?_step (hid : id < p.minted) (call : Call) : id < (p.step C L call).minted ∧
      ((∀ b x now, call ≠ .consume b id x now) → (p.step C L call).receipts.get? id = p.receipts.get? id) ∧
      (p.receipts.get? id = none → (p.step C L call).receipts.get? id = none) := by
  cases call with
  | consume b receipt x now =>
    have hc : Consumed p b receipt (p.step C L (.consume b receipt x now)) := consumed_consume
    rw [hc.minted, hc.receipts]
    refine ⟨hid, fun hother => ?_, fun hnone => ?_⟩
    · have hne : id ≠ receipt := fun heq => hother b x now (heq ▸ rfl)
      split
      · exact get?_delete_of_ne hne
      · rfl
    · split
      · rw [get?_delete, hnone, ite_self]
      · exact hnone
  | reserve b r =>
    simp only [Process.step]
    split
    · exact ⟨hid, fun _ => rfl, fun hnone => hnone⟩
    · have hsame : ∀ v, (p.receipts.set p.minted v).get? id = p.receipts.get? id :=
        fun v => get?_set_of_ne hid.ne
      exact ⟨Nat.lt_succ_of_lt hid, fun _ => hsame _, (hsame _).trans⟩

theorem get?_run (hid : id < p.minted) (calls : List Call) : id < (p.run C L calls).minted ∧
      ((∀ b x now, .consume b id x now ∉ calls) → (p.run C L calls).receipts.get? id = p.receipts.get? id) ∧
      (p.receipts.get? id = none → (p.run C L calls).receipts.get? id = none) := by
  induction calls generalizing p with
  | nil => exact ⟨hid, fun _ => rfl, fun hnone => hnone⟩
  | cons call calls ih =>
    obtain ⟨hid', hother, hnone⟩ := get?_step (C := C) (L := L) hid call
    obtain ⟨hlt, hrest, hgone⟩ := ih hid'
    refine ⟨hlt, fun h => ?_, fun h => hgone (hnone h)⟩
    have hcall := hother fun b x now heq => h b x now (heq ▸ mem_cons_self)
    exact (hrest fun b x now hmem => h b x now (mem_cons_of_mem _ hmem)).trans hcall

theorem minted_step {r : Reservation} (h : (Ipc.reserve C (L a) (p.journals a) r).result = .ok e) :
    Since r.tuple e 0 ((p.step C L (.reserve a r)).journals a) ∧ (p.step C L (.reserve a r)).receipts.get? p.minted =
        some ⟨a, r.tuple, e.expiresMonotonicMillis, e.generation, e.sequence⟩ ∧
      p.minted < (p.step C L (.reserve a r)).minted ∧ e.expiresMonotonicMillis = r.expires := by
  obtain ⟨hget, hgeneration, hexpires⟩ := (renumbered_reserve C (L a) (p.journals a) r).minted e h
  refine ⟨?_, ?_, ?_, hexpires⟩
  · rw [journals_reserve, update_self]
    exact ⟨hgeneration.symm, fun _ _ => hget, fun hlt => absurd hlt (lt_irrefl 0)⟩
  · simp only [Process.step, h]
    exact get?_set_self
  · simp only [Process.step, h]
    exact Nat.lt_succ_self _

/-- When the receipt of an entry is honoured. -/
theorem consume_iff (hsince : Since tuple e n (p.journals a)) (hopened : (p.journals a).opened = true)
    (hreceipt : p.receipts.get? id = some ⟨a, tuple, e.expiresMonotonicMillis, e.generation, e.sequence⟩)
    (b : ℕ) (x : Expected) (now : ℕ) : (consume p b id x now).2 = .ok () ↔
      b = a ∧ x = ⟨tuple, e.expiresMonotonicMillis⟩ ∧ (p.journals a).lastNow ≤ now ∧
        now < e.expiresMonotonicMillis ∧ n = 0 := by
  rw [consume_eq_ok, hreceipt]
  constructor
  · rintro ⟨-, internal, hinternal, ⟨rfl, htuple, hexpiry⟩, hclock, entry, hentry, -, hlive, -, hsame, -⟩
    cases hinternal
    obtain ⟨xtuple, xexpires⟩ := x
    refine ⟨rfl, Expected.mk.injEq .. ▸ ⟨htuple.symm, hexpiry.symm⟩, hclock, hlive, ?_⟩
    by_contra hcompacted
    exact (hsince.renumbered (Nat.pos_of_ne_zero hcompacted) _ entry hentry).ne' hsame
  · rintro ⟨rfl, rfl, hclock, hlive, hnone⟩
    exact ⟨hopened, _, rfl, ⟨rfl, rfl, rfl⟩, hclock, e, hsince.current hnone (hclock.trans_lt hlive), hlive, hlive,
      rfl, rfl, rfl⟩

/-- **A receipt is honoured once**, unless the journal is compacted in between. -/
theorem receipt_honoured_once {r : Reservation} (calls : List Call)
    (h : (Ipc.reserve C (L a) (p.journals a) r).result = .ok e)
    (hopened : (((p.step C L (.reserve a r)).run C L calls).journals a).opened = true) :
    ((∀ b x now, .consume b p.minted x now ∉ calls) → ∀ b x now,
      ((consume ((p.step C L (.reserve a r)).run C L calls) b p.minted x now).2 = .ok () ↔
        b = a ∧ x = ⟨r.tuple, r.expires⟩ ∧
          (((p.step C L (.reserve a r)).run C L calls).journals a).lastNow ≤ now ∧ now < r.expires ∧
            (p.step C L (.reserve a r)).runCompactions C L a calls = 0)) ∧
    ∀ before b x now after, calls = before ++ .consume b p.minted x now :: after →
      (b = a ∨ (((p.step C L (.reserve a r)).run C L before).journals b).opened = true) → ∀ b' x' now',
          (consume ((p.step C L (.reserve a r)).run C L calls) b' p.minted x' now').2 ≠ .ok () := by
  obtain ⟨hsince, hreceipt, hid, hexpires⟩ := minted_step h
  set q := p.step C L (.reserve a r) with hq
  refine ⟨fun hother b x now => ?_, fun before b x now after hcalls hb b' x' now' hok => ?_⟩
  · rw [← hexpires]
    exact consume_iff (hsince.run calls) hopened (((get?_run hid calls).2.1 hother).trans hreceipt) b x now
  · -- the receipt was deleted, whatever came of that consumption
    subst hcalls
    rw [Process.run, foldl_append] at hok hopened
    have hopen : ((q.run C L before).journals b).opened = true := by
      rcases hb with rfl | hb
      · exact opened_run hopened
      · exact hb
    have hlt := (get?_run (C := C) (L := L) hid before).1
    have hgone : ((q.run C L before).step C L (.consume b p.minted x now)).receipts.get? p.minted = none := by
      have hc : Consumed (q.run C L before) b p.minted
          ((q.run C L before).step C L (.consume b p.minted x now)) := consumed_consume
      rw [hc.receipts, if_pos hopen, get?_delete_self]
    have hspent := (get?_run (C := C) (L := L) (get?_step hlt _).1 after).2.2 hgone
    obtain ⟨-, internal, hinternal, -⟩ := consume_eq_ok.mp hok
    exact absurd (hspent.symm.trans hinternal) (by simp)

/-- A process whose journals compact as soon as they have a frame. -/
def sampleProcess (C : Crypto) (L : ℕ → Launch) : Process :=
  .started fun a => { sampleMem C (L a) with compactionRecordLimit := 1 }

/-- A reservation of the tuple of a byte, for one second. -/
def secondReservation (byte : UInt8) : Reservation :=
  ⟨replicate 32 byte, 16000, 15000, 15000, 15000, false, false, false, false, rfl⟩

/-- The next reservation compacts the journal, and the receipt of before is refused. -/
theorem receipt_refused_after_compaction : ¬ ∃ (C : Crypto) (L : ℕ → Launch), ∀ (p : Process) a r e
    (calls : List Call) now,
    (Ipc.reserve C (L a) (p.journals a) r).result = .ok e →
      (((p.step C L (.reserve a r)).run C L calls).journals a).opened = true →
        (∀ b x now, .consume b p.minted x now ∉ calls) →
          (((p.step C L (.reserve a r)).run C L calls).journals a).lastNow ≤ now → now < r.expires →
            (consume ((p.step C L (.reserve a r)).run C L calls) a p.minted ⟨r.tuple, r.expires⟩ now).2 = .ok () := by
  rintro ⟨C, L, h⟩
  obtain ⟨hsince, hreceipt, hid, -⟩ := minted_step (C := C) (L := L) (p := sampleProcess C L) (a := 0)
    (r := secondReservation 1) (e := ⟨16000, 1, 1⟩) rfl
  have hopened : ((((sampleProcess C L).step C L (.reserve 0 (secondReservation 1))).run C L
      [.reserve 0 (secondReservation 2)]).journals 0).opened = true := by rfl
  have hother : ∀ b x now, Call.consume b 0 x now ∉ [Call.reserve 0 (secondReservation 2)] := by simp
  have hok := h (sampleProcess C L) 0 (secondReservation 1) ⟨16000, 1, 1⟩ _ 15000 rfl hopened hother
    (by exact le_rfl) (by decide)
  have hnone := ((consume_iff (hsince.run _) hopened (((get?_run hid _).2.1 hother).trans hreceipt) _ _ _).mp
    hok).2.2.2.2
  have hcompacts : ((sampleProcess C L).step C L (.reserve 0 (secondReservation 1))).runCompactions C L 0
      [.reserve 0 (secondReservation 2)] = 1 := by rfl
  rw [hcompacts] at hnone
  cases hnone

theorem sampleProcess_honoured :
    (consume ((sampleProcess sampleCrypto fun _ => sampleLaunch).step sampleCrypto (fun _ => sampleLaunch)
      (.reserve 0 (secondReservation 1))) 0 0 ⟨replicate 32 1, 16000⟩ 15999).2 = .ok () := by
  have honce := receipt_honoured_once (C := sampleCrypto) (L := fun _ => sampleLaunch)
    (p := sampleProcess sampleCrypto fun _ => sampleLaunch) (a := 0) (r := secondReservation 1)
    (e := ⟨16000, 1, 1⟩) [] rfl rfl
  exact (honce.1 (nofun) 0 ⟨replicate 32 1, 16000⟩ 15999).mpr
    ⟨rfl, rfl, by decide, by decide, rfl⟩

end Process

end HiveRelay.Ipc
