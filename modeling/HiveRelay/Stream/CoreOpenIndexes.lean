import HiveRelay.Stream.CoreOpenLifecycle

/-!
# One record for a request

The service keeps every record under its logical retry key, its spend tag and its control channel,
and asks these indexes before it creates a record. It asks them before it awaits a stream identifier
and the epoch, and the index of the channels before it awaits the admission, and it creates the
record without asking again. Two calls that overlap there both create a record, and the later one
takes the place of the earlier one in an index.

In a run whose records are created while their keys are free and there is room for them, the indexes
are exact. That upstream is dialled once for a record holds in every run.

## Main definitions

* `Indexed` — the indexes are those of the records
* `CreatesAlone` — a record that is created while its keys are free

## Main results

* `open_records_exactly_once` — exactly one record for a request
-/

namespace HiveRelay.CoreOpen

open List Option OrderedMap
open HiveRelay.Stream (Failure Plane)

variable {B : Type} [DecidableEq B] [Zero B]

def Record.keys (record : Record B) : B × B × ChannelKey B :=
  (record.logicalKey, record.spendKey, record.channelKey)

/-- The indexes hold the records under their keys, and nothing else. -/
structure Indexed (cfg : Config B) (s : Service B) : Prop where
  logical : s.recordsByLogical.Indexes (s.records.map Record.logicalKey)
  spend : s.recordsBySpend.Indexes (s.records.map Record.spendKey)
  channel : s.controlChannels.Indexes (s.records.map Record.channelKey)
  size : s.recordsByLogical.size ≤ cfg.maxRecords

/-- What a call has that is about to create its record. -/
def Phase.timing? : Phase B → Option (Admitted B)
  | .timing held _ => some held
  | _ => none

/-- The keys of a record are free, and there is room for it. -/
def HasRoom (cfg : Config B) (s : Service B) (keys : B × B × ChannelKey B) : Prop :=
  s.recordsByLogical.get? keys.1 = none ∧ s.recordsBySpend.get? keys.2.1 = none ∧
    s.controlChannels.get? keys.2.2 = none ∧ s.recordsByLogical.size < cfg.maxRecords

/-- A record is created while its keys are free and there is room for it. -/
def CreatesAlone (cfg : Config B) (s : Service B) (m : ServiceMove B) : Prop :=
  match m with
  | .timed call (.ok epoch) _ _ => ∀ phase ∈ s.calls[call]?, ∀ held ∈ phase.timing?,
      epoch ≤ Cell.maxU32 → HasRoom cfg s (held.logicalKey, held.spendKey, held.channelKey)
  | _ => True

instance (cfg : Config B) (s : Service B) (keys : B × B × ChannelKey B) :
    Decidable (HasRoom cfg s keys) := inferInstanceAs (Decidable (_ ∧ _))

instance (cfg : Config B) (s : Service B) : (m : ServiceMove B) → Decidable (CreatesAlone cfg s m)
  | .timed call (.ok epoch) _ _ => inferInstanceAs (Decidable (∀ phase ∈ s.calls[call]?,
      ∀ held ∈ phase.timing?, epoch ≤ Cell.maxU32 → HasRoom cfg s (held.logicalKey, held.spendKey, held.channelKey)))
  | .timed _ (.error _) _ _ | .openCall .. | .authenticated .. | .admitted .. | .allocated ..
  | .built .. | .reserved .. | .dialed .. | .activated .. | .closed .. | .closeHook ..
  | .terminalFailed | .attach .. | .plane .. => isTrue trivial

/-! ### Steps -/

section Steps

variable {cfg : Config B} {s s' s₁ : Service B}

/-- The same keys and the same indexes. -/
structure SameKeys (s s' : Service B) : Prop where
  keys : s'.records.map Record.keys = s.records.map Record.keys
  recordsByLogical : s'.recordsByLogical = s.recordsByLogical
  recordsBySpend : s'.recordsBySpend = s.recordsBySpend
  controlChannels : s'.controlChannels = s.controlChannels

omit [DecidableEq B] [Zero B] in
theorem SameKeys.map {α : Type} (h : SameKeys s s') (f : Record B → α)
    (g : B × B × ChannelKey B → α) (hf : ∀ record, f record = g record.keys) :
    s'.records.map f = s.records.map f := by
  have hmap : ∀ l : List (Record B), l.map f = (l.map Record.keys).map g := by
    intro l
    rw [List.map_map]
    exact map_congr_left fun record _ => hf record
  rw [hmap, hmap, h.keys]

omit [Zero B] in
theorem Indexed.same (h : Indexed cfg s) (hsame : SameKeys s s') : Indexed cfg s' := by
  refine ⟨?_, ?_, ?_, ?_⟩
  · rw [hsame.recordsByLogical, hsame.map Record.logicalKey (fun keys => keys.1) fun _ => rfl]
    exact h.logical
  · rw [hsame.recordsBySpend, hsame.map Record.spendKey (fun keys => keys.2.1) fun _ => rfl]
    exact h.spend
  · rw [hsame.controlChannels, hsame.map Record.channelKey (fun keys => keys.2.2) fun _ => rfl]
    exact h.channel
  · rw [hsame.recordsByLogical]
    exact h.size

omit [Zero B] in
theorem Unchanged.sameKeys (h : Unchanged cfg s s') : SameKeys s s' := by
  refine ⟨?_, h.recordsByLogical, h.recordsBySpend, h.controlChannels⟩
  have hkeys : ∀ l : List (Record B), l.map Record.keys = (l.map Record.core).map Record.keys := by
    intro l
    rw [List.map_map]
    rfl
  rw [hkeys, h.records, ← hkeys]

omit [DecidableEq B] [Zero B] in
theorem sameKeys_setRecord {r : ℕ} {record record' : Record B} (hr : s.records[r]? = some record)
    (hkeys : record'.keys = record.keys) : SameKeys s (s.setRecord r record') := by
  refine ⟨?_, rfl, rfl, rfl⟩
  have hself := congrArg (fun s => s.records.map Record.keys) (setRecord_self hr)
  simp only [Service.setRecord, map_set] at hself ⊢
  rw [hkeys]
  exact hself

omit [DecidableEq B] [Zero B] in
theorem keys_persistTerminal (record : Record B) (reason : String) :
    (record.persistTerminal reason).keys = record.keys := by
  unfold Record.persistTerminal
  split <;> rfl

omit [Zero B] in
theorem Indexed.add (h : Indexed cfg s) {record : Record B} (hroom : HasRoom cfg s record.keys) :
    Indexed cfg (s.addRecord record) := by
  obtain ⟨hlogical, hspend, hchannel, hsize⟩ := hroom
  simp only [Record.keys] at hlogical hspend hchannel
  have hmap : ∀ {α : Type} (f : Record B → α), (s.addRecord record).records.map f =
      s.records.map f ++ [f record] := by
    intro α f
    rw [Service.addRecord, map_append, map_singleton]
  have hlen : ∀ {α : Type} (f : Record B → α), s.records.length = (s.records.map f).length :=
    fun f => (length_map f).symm
  refine ⟨?_, ?_, ?_, ?_⟩
  · rw [hmap, Service.addRecord, hlen Record.logicalKey]
    exact h.logical.set hlogical
  · rw [hmap, Service.addRecord, hlen Record.spendKey]
    exact h.spend.set hspend
  · rw [hmap, Service.addRecord, hlen Record.channelKey]
    exact h.channel.set hchannel
  · rw [Service.addRecord, size_set_of_get?_eq_none hlogical]
    exact hsize

/-- **The indexes stay exact** when a record is created while its keys are free. -/
theorem indexed_step {m : ServiceMove B} (hexist : OwnedExist s) (h : Indexed cfg s)
    (hok : CreatesAlone cfg s m) (hstep : serviceStep cfg s m = some s') : Indexed cfg s' := by
  have hcalls : ∀ {s : Service B} {call : ℕ} {phase : Phase B}, Indexed cfg s →
      Indexed cfg (s.setCall call phase) := fun h => h.same ⟨rfl, rfl, rfl, rfl⟩
  cases serviceStep_change hexist hstep with
  | quiet hsame => exact h.same hsame.sameKeys
  | begins => exact h.same ⟨rfl, rfl, rfl, rfl⟩
  | proceeds _ _ _ hsame | finishes _ _ _ hsame | caught _ _ _ _ hsame =>
    exact hcalls (h.same hsame.sameKeys)
  | created hcall hrange hsame | abandoned hcall hrange hsame =>
    refine hcalls ((h.add ?_).same hsame.sameKeys)
    exact hok _ hcall _ rfl hrange
  | built _ hr => exact hcalls (h.same (sameKeys_setRecord hr rfl))
  | reserved _ hr hsame | dialed _ hr _ _ _ hsame =>
    refine hcalls (Indexed.same ?_ hsame.sameKeys)
    exact h.same (sameKeys_setRecord hr rfl)
  | caughtBare _ _ hr _ hsame =>
    refine hcalls (Indexed.same ?_ hsame.sameKeys)
    exact h.same (sameKeys_setRecord hr (keys_persistTerminal _ _))
  | closeHook hr =>
    refine h.same (sameKeys_setRecord hr ?_)
    exact keys_persistTerminal _ _

omit [Zero B] in
theorem indexed_restored {plane : Plane B} {recovered : List (Recovered B)}
    (h : restoreRecoveredRecords cfg plane recovered = .ok s) : Indexed cfg s := by
  refine restored_invariant h (Indexed cfg) ?_ fun s record s' hs hstep => ?_
  · exact ⟨indexes_empty, indexes_empty, indexes_empty, Nat.zero_le _⟩
  · obtain ⟨hlogical, hspend, hchannel, hsize, rfl⟩ := restoreRecord_eq_ok hstep
    exact hs.add ⟨hlogical, hspend, hchannel, hsize⟩

end Steps

/-! ### Upstream -/

/-- Upstream is not dialled yet for the record of a phase. -/
def Phase.NotDialed : Phase B → Record B → Prop
  | .building _, record | .reserving _, record => record.upstreams = 0
  | _, _ => True

omit [DecidableEq B] [Zero B] in
theorem upstreams_persistTerminal (record : Record B) (reason : String) :
    (record.persistTerminal reason).upstreams = record.upstreams := by
  unfold Record.persistTerminal
  split <;> rfl

/-- **Upstream is dialled once** for a record. -/
theorem upstreams_local (cfg : Config B) :
    Local cfg (fun _ _ => True) (fun _ record => record.upstreams ≤ 1) Phase.NotDialed where
  later := by
    intro p p' record record' h hcore _
    have hsame : record'.upstreams = record.upstreams :=
      Record.core_congr Record.upstreams (fun _ => rfl) hcore
    exact hsame.trans_le h
  core := by
    intro phase record record' h hcore
    have hsame : record'.upstreams = record.upstreams :=
      Record.core_congr Record.upstreams (fun _ => rfl) hcore
    cases phase with
    | building r | reserving r => exact hsame.trans h
    | _ => trivial
  created := fun _ _ => ⟨Nat.zero_le 1, rfl⟩
  abandoned := by
    intro p held streamId epoch
    exact Nat.zero_le 1
  built := fun _ _ _ _ hR hF => ⟨hR, hF⟩
  reserved := by
    intro p r record _ hF
    exact ⟨Nat.le_of_eq (congrArg (· + 1) hF), trivial⟩
  dialed := fun _ _ _ hR _ => ⟨hR, trivial⟩
  closing := fun _ => trivial
  bare := by
    intro p record _ hR
    rw [upstreams_persistTerminal]
    exact hR
  closeHook := by
    intro p scope record session reason _ _ _ _ hR
    have hsame : (record.onScopeClose reason).upstreams = record.upstreams :=
      upstreams_persistTerminal _ _
    refine ⟨hsame.trans_le hR, fun phase hF => ?_⟩
    cases phase with
    | building r | reserving r => exact hsame.trans hF
    | _ => trivial

/-! ### Runs -/

/-- **Exactly one record for a request.** In every run whose records are created while their keys
are free and there is room for them, no two records have the same logical key, the same spend or the
same control channel, upstream is dialled at most once for a record, there are at most `maxRecords`
of them, and a record that one of the indexes holds is what the other two hold under its keys. -/
theorem open_records_exactly_once {cfg : Config B} {plane : Plane B}
    {recovered : List (Recovered B)} {s₀ s : Service B} {moves : List (ServiceMove B)}
    (hrestore : restoreRecoveredRecords cfg plane recovered = .ok s₀)
    (hrun : run (serviceStep cfg) s₀ moves = some s)
    (hmeets : RunMeets (serviceStep cfg) (CreatesAlone cfg) s₀ moves) :
    (∀ (r r' : ℕ) (record record' : Record B), s.records[r]? = some record →
        s.records[r']? = some record' → record.logicalKey = record'.logicalKey ∨
          record.spendKey = record'.spendKey ∨ record.channelKey = record'.channelKey → r = r') ∧
      (∀ (r : ℕ) (record : Record B), s.records[r]? = some record → record.upstreams ≤ 1) ∧
      s.recordsByLogical.size ≤ cfg.maxRecords ∧
      ∀ r : ℕ, (∃ key, s.recordsByLogical.get? key = some r) ∨ (∃ key, s.recordsBySpend.get? key = some r) ∨
          (∃ key, s.controlChannels.get? key = some r) →
        ∃ record, s.records[r]? = some record ∧ s.recordsByLogical.get? record.logicalKey = some r ∧
          s.recordsBySpend.get? record.spendKey = some r ∧
          s.controlChannels.get? record.channelKey = some r := by
  have hinv : Indexed cfg s ∧ Tracked (fun _ record => record.upstreams ≤ 1) Phase.NotDialed s := by
    refine run_invariant (CreatesAlone cfg) (fun s => Indexed cfg s ∧ Tracked _ Phase.NotDialed s)
      (fun s m s' h hok hstep => ?_) ⟨indexed_restored hrestore, ?_⟩ hmeets hrun
    · exact ⟨indexed_step h.2.exist h.1 hok hstep, tracked_step (upstreams_local cfg) h.2 trivial hstep⟩
    · exact tracked_restored hrestore fun _ _ => Nat.zero_le 1
  obtain ⟨hindexed, htracked⟩ := hinv
  have hkey : ∀ {κ : Type} (f : Record B → κ) {r : ℕ} {record : Record B},
      s.records[r]? = some record → (s.records.map f)[r]? = some (f record) := by
    intro κ f r record hr
    rw [getElem?_map, hr, map_some]
  refine ⟨fun r r' record record' hr hr' heq => ?_, htracked.record, hindexed.size, fun r hheld => ?_⟩
  · rcases heq with heq | heq | heq
    · exact hindexed.logical.unique (hkey _ hr) (heq ▸ hkey _ hr')
    · exact hindexed.spend.unique (hkey _ hr) (heq ▸ hkey _ hr')
    · exact hindexed.channel.unique (hkey _ hr) (heq ▸ hkey _ hr')
  · have hlt : r < s.records.length := by
      have hpos : ∀ {κ : Type} {f : Record B → κ} {key : κ}, (s.records.map f)[r]? = some key →
          r < s.records.length := fun h =>
        (length_map _).symm ▸ (List.getElem?_eq_some_iff.mp h).1
      rcases hheld with ⟨key, h⟩ | ⟨key, h⟩ | ⟨key, h⟩
      · exact hpos ((hindexed.logical r key).mp h)
      · exact hpos ((hindexed.spend r key).mp h)
      · exact hpos ((hindexed.channel r key).mp h)
    have hr : s.records[r]? = some s.records[r] := getElem?_eq_getElem hlt
    exact ⟨_, hr, (hindexed.logical r _).mpr (hkey _ hr), (hindexed.spend r _).mpr (hkey _ hr),
      (hindexed.channel r _).mpr (hkey _ hr)⟩

/-- Two calls that overlap: each waits for the other one at every hook. -/
def sampleOverlap (first second : List (ServiceMove ℕ)) : List (ServiceMove ℕ) :=
  (first.zip second).flatMap fun moves => [moves.1, moves.2]

def sampleApart : List (ServiceMove ℕ) :=
  sampleOverlap (sampleOpening 0 3 5 21 9) (sampleOpening 1 4 6 22 10)

theorem open_records_exactly_once_sample : ∃ s, sampleService sampleApart = some s ∧ s.records.length = 2 ∧
      s.recordsByLogical.size ≤ 2 ∧
      ∃ record, s.records[1]? = some record ∧ s.recordsByLogical.get? record.logicalKey = some 1 ∧
        s.recordsBySpend.get? record.spendKey = some 1 := by
  have hsome : (sampleService sampleApart).isSome = true := by decide +kernel
  obtain ⟨s, hs⟩ := isSome_iff_exists.mp hsome
  have hfacts : (sampleService sampleApart).all fun s =>
      s.records.length = 2 ∧ s.recordsByLogical.get? 106 = some 1 := by decide +kernel
  rw [hs, all_some, decide_eq_true_eq] at hfacts
  obtain ⟨hlength, hheld⟩ := hfacts
  have hrestore : restoreRecoveredRecords sampleConfig (Plane.new ℕ) [] = .ok (.empty (Plane.new ℕ)) := rfl
  obtain ⟨-, -, hsize, hindexes⟩ := open_records_exactly_once hrestore hs (by decide +kernel)
  obtain ⟨record, hr, hlogical, hspend, -⟩ := hindexes 1 (.inl ⟨106, hheld⟩)
  exact ⟨s, hs, hlength, hsize, record, hr, hlogical, hspend⟩

/-- A request and its exact retry, which is sent while the request is being opened. -/
def sampleRetried : List (ServiceMove ℕ) :=
  sampleOverlap (sampleOpening 0 3 5 21 9 ++ [.built 0 (.ok (sampleResult 3 5 9)), .reserved 0 (.ok ())])
    (sampleOpening 1 3 5 21 10 ++ [.built 1 (.ok (sampleResult 3 5 10)), .reserved 1 (.ok ())])

/-- **A retry that overlaps its request opens a second stream**: both calls find the indexes empty,
both create a record under the same three keys, and both dial upstream. -/
theorem overlapping_retry_creates_second_record :
    ∃ s record record', sampleService sampleRetried = some s ∧ s.records[0]? = some record ∧
      s.records[1]? = some record' ∧ record.keys = record'.keys ∧ record.upstreams = 1 ∧
      record'.upstreams = 1 := by
  have hsome : (sampleService sampleRetried).isSome = true := by decide +kernel
  obtain ⟨s, hs⟩ := isSome_iff_exists.mp hsome
  have hfacts : (sampleService sampleRetried).all fun s =>
      s.records.map Record.keys = [(105, 21, (6, 3)), (105, 21, (6, 3))] ∧
        s.records.map Record.upstreams = [1, 1] := by decide +kernel
  rw [hs, all_some, decide_eq_true_eq] at hfacts
  obtain ⟨hkeys, hupstreams⟩ := hfacts
  obtain ⟨record, record', hpair⟩ : ∃ record record', s.records = [record, record'] := by
    have hlength : s.records.length = 2 := by
      rw [← length_map Record.upstreams, hupstreams]
      rfl
    exact length_eq_two.mp hlength
  rw [hpair] at hkeys hupstreams
  simp only [map_cons, map_nil, cons.injEq, and_true] at hkeys hupstreams
  refine ⟨s, record, record', hs, by rw [hpair]; rfl, by rw [hpair]; rfl, ?_, hupstreams⟩
  rw [hkeys.1, hkeys.2]

end HiveRelay.CoreOpen
