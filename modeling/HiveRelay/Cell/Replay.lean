import HiveRelay.Cell.Footprint

/-!
# Replaying a live run

The engine applies a frame twice in its life: live, after the group that carries it is durable, and
again when the store is opened and its log is read back. Only one of the transitions looks at which
of the two it is: `#applyIntegrity` drops a live record of evidence whose hash it already holds, and
keeps it when recovering.

A recovery therefore accepts every log that was accepted live and ends in the same state but for the
evidence, and the evidence is the same exactly when no two of the records in the log carry the same
hash.

## Main definitions

* `SameState` — equal but for the heap of retry deadlines

## Main results

* `replay_of_live` — a live run is accepted again
* `recovered_iff_evidence_nodup` — when it ends in the same state
-/

set_option linter.unusedSectionVars false

namespace HiveRelay.Cell

open List

variable {B : Type} [LinearOrder B] [Zero B]

/-! ### States up to their evidence -/

/-- A state with another list of evidence. -/
def State.withEvidence (s : State B) (evidence : List (IntegrityFailed B)) : State B :=
  { s with integrityEvidence := evidence }

@[simp] theorem State.withEvidence_integrityEvidence (s : State B)
    (evidence : List (IntegrityFailed B)) : (s.withEvidence evidence).integrityEvidence = evidence :=
  rfl

/-- The evidence after a record of it is applied. -/
def noteEvidence (recovering : Bool) (evidence : List (IntegrityFailed B)) (v : IntegrityFailed B) :
    List (IntegrityFailed B) :=
  if recovering || evidence.all fun item => item.evidenceHash ≠ v.evidenceHash then
    evidence ++ [v]
  else evidence

/-- The record of an integrity failure that a payload is. -/
def Payload.evidence? : Payload B → Option (IntegrityFailed B)
  | .integrityFailed v => some v
  | _ => none

/-- The records of integrity failures in a list of frames. -/
def evidenceOf (frames : List (Frame B)) : List (IntegrityFailed B) :=
  frames.filterMap fun frame => frame.payload.evidence?

def evidenceAfter (recovering : Bool) (evidence : List (IntegrityFailed B)) (p : Payload B) :
    List (IntegrityFailed B) :=
  p.evidence?.elim evidence (noteEvidence recovering evidence)

variable {cfg : Config B}

/-- No frame but a record of an integrity failure reads or writes the evidence, and none reads the
`recovering` flag. -/
theorem Step.withEvidence {s s' : State B} {frame : Frame B} {recovering : Bool}
    (h : Step cfg s frame recovering s') (evidence : List (IntegrityFailed B))
    (recovering' : Bool) :
    Step cfg (s.withEvidence evidence) frame recovering'
      (s'.withEvidence (evidenceAfter recovering' evidence frame.payload)) := by
  cases h with
  | reserve v hp h =>
    rw [hp]
    exact .reserve v hp { h with fresh := h.fresh.congr rfl rfl }
  | attempt v entry r hp h =>
    rw [hp]
    exact .attempt v entry r hp { h with reservation := h.reservation.congr rfl }
  | put v entry r hp h =>
    rw [hp]
    exact .put v entry r hp { h with reservation := h.reservation.congr rfl }
  | terminate v entry r hp h =>
    rw [hp]
    exact .terminate v entry r hp { h with reservation := h.reservation.congr rfl }
  | renew v record hp h =>
    rw [hp]
    exact .renew v record hp { h with fresh := h.fresh.congr rfl rfl }
  | drop v record hp h =>
    rw [hp]
    exact .drop v record hp { h with }
  | policy v record hp h =>
    rw [hp]
    exact .policy v record hp { h with }
  | gc v record hp h =>
    rw [hp]
    exact .gc v record hp { h with }
  | floor v confirmed hp h =>
    have hnone : frame.payload.evidence? = none := by
      rw [hp]
      cases confirmed <;> rfl
    rw [evidenceAfter, hnone]
    exact .floor v confirmed hp { h with }
  | clockUnsafe v hp h =>
    rw [hp]
    exact .clockUnsafe v hp { h with }
  | compact v hp epoch h =>
    rw [hp]
    have hcompact : Step cfg (s.withEvidence evidence) frame recovering'
        ((s.withEvidence evidence).compacted frame v.entryKind v.key) :=
      .compact v hp epoch (h.congr (fun _ => rfl) (fun _ => rfl) fun _ => rfl)
    convert hcompact using 1
    obtain ⟨kind, key, epoch⟩ := v
    cases kind with
    | cell => rfl
    | spend =>
      obtain ⟨entry, age, hentry, -⟩ := h
      simp only [State.compacted, State.withEvidence, hentry]
      rfl
    | requestResult => rfl
  | integrity v hp =>
    rw [hp]
    exact .integrity v hp
  | pinRead v hp h =>
    rw [hp]
    exact .pinRead v hp { h with
      fresh := h.fresh.congr rfl rfl
      pins := h.pins.congr (fun _ _ => rfl) rfl }
  | finalizeRead v entry pin hp h =>
    rw [hp]
    exact .finalizeRead v entry pin hp { h with pins := h.pins.congr (fun _ _ => rfl) rfl }
  | expireRead v entry pin hp h =>
    rw [hp]
    exact .expireRead v entry pin hp { h with }
  | atomicPut v hp h =>
    rw [hp]
    exact .atomicPut v hp { h with fresh := h.fresh.congr rfl rfl }

theorem Step.integrityEvidence {s s' : State B} {frame : Frame B}
    {recovering : Bool} (h : Step cfg s frame recovering s') :
    s'.integrityEvidence = evidenceAfter recovering s.integrityEvidence frame.payload := by
  have hsame : Step cfg s frame recovering
      (s'.withEvidence (evidenceAfter recovering s.integrityEvidence frame.payload)) :=
    h.withEvidence s.integrityEvidence recovering
  have hok := (applyPayload_eq_ok_iff.mpr h).symm.trans (applyPayload_eq_ok_iff.mpr hsame)
  rw [Except.ok.inj hok]
  rfl

/-! ### A recovery of a live run -/

theorem foldl_noteEvidence_recovering (evidence : List (IntegrityFailed B)) (records : List (IntegrityFailed B)) :
    records.foldl (noteEvidence true) evidence = evidence ++ records := by
  induction records generalizing evidence with
  | nil => rw [foldl_nil, append_nil]
  | cons v records ih =>
    rw [foldl_cons, ih]
    simp [noteEvidence]

theorem length_foldl_noteEvidence_le (evidence records : List (IntegrityFailed B)) :
    (records.foldl (noteEvidence false) evidence).length ≤ evidence.length + records.length := by
  induction records generalizing evidence with
  | nil => rfl
  | cons v records ih =>
    have hstep : (noteEvidence false evidence v).length ≤ evidence.length + 1 := by
      unfold noteEvidence
      split
      · exact (length_append ..).le
      · exact Nat.le_succ _
    calc (records.foldl (noteEvidence false) (noteEvidence false evidence v)).length
        ≤ (noteEvidence false evidence v).length + records.length := ih _
      _ ≤ evidence.length + (v :: records).length := by
        rw [length_cons]
        omega

theorem foldl_noteEvidence_live_eq_iff {evidence records : List (IntegrityFailed B)} :
    records.foldl (noteEvidence false) evidence = evidence ++ records ↔
      (records.map IntegrityFailed.evidenceHash).Nodup ∧
        ∀ item ∈ evidence, item.evidenceHash ∉ records.map IntegrityFailed.evidenceHash := by
  induction records generalizing evidence with
  | nil => simp
  | cons v records ih =>
    rw [foldl_cons]
    by_cases hfresh : ∀ item ∈ evidence, item.evidenceHash ≠ v.evidenceHash
    · -- the record is kept, and the rest must avoid its hash too
      have hnote : noteEvidence false evidence v = evidence ++ [v] := by
        simpa [noteEvidence] using hfresh
      rw [hnote, append_cons evidence v records, ih]
      simp only [map_cons, nodup_cons, mem_append, mem_cons, not_mem_nil, or_false, not_or]
      constructor
      · rintro ⟨hnodup, hrest⟩
        exact ⟨⟨hrest v (.inr rfl), hnodup⟩, fun item hitem =>
          ⟨hfresh item hitem, hrest item (.inl hitem)⟩⟩
      · rintro ⟨⟨hv, hnodup⟩, hrest⟩
        refine ⟨hnodup, ?_⟩
        rintro item (hitem | rfl)
        · exact (hrest item hitem).2
        · exact hv
    · -- the record is dropped, so the live list ends up too short
      have hnote : noteEvidence false evidence v = evidence := by
        rw [noteEvidence, if_neg]
        simpa using hfresh
      rw [hnote]
      push Not at hfresh
      obtain ⟨item, hitem, hhash⟩ := hfresh
      constructor
      · intro heq
        have hle := length_foldl_noteEvidence_le evidence records
        rw [heq, length_append, length_cons] at hle
        omega
      · rintro ⟨-, hrest⟩
        exact absurd (mem_cons.mpr (.inl hhash)) (hrest item hitem)

theorem foldl_evidenceOf_cons (recovering : Bool) (evidence : List (IntegrityFailed B))
    (frame : Frame B) (frames : List (Frame B)) :
    (evidenceOf (frame :: frames)).foldl (noteEvidence recovering) evidence =
      (evidenceOf frames).foldl (noteEvidence recovering) (evidenceAfter recovering evidence frame.payload) := by
  rw [evidenceOf, filterMap_cons]
  unfold evidenceAfter
  cases frame.payload.evidence? <;> rfl

/-- **A recovery of a live run.** The frames that were accepted live are accepted again from any
list of evidence, and the state they end in differs from the live one in its evidence only. -/
theorem replay_of_live {live : List (Application B)} {s s' : State B} (hlive : ∀ m ∈ live, m.recovering = false)
    (hrun : run (frameStep cfg) s live = some s') (evidence : List (IntegrityFailed B)) :
    replay cfg (s.withEvidence evidence) (live.map Application.frame) =
        .ok (s'.withEvidence (evidence ++ evidenceOf (live.map Application.frame))) ∧
      s'.integrityEvidence = (evidenceOf (live.map Application.frame)).foldl (noteEvidence false)
          s.integrityEvidence := by
  induction live generalizing s evidence with
  | nil =>
    cases hrun
    refine ⟨?_, rfl⟩
    rw [show evidenceOf (map Application.frame ([] : List (Application B))) = [] from rfl, append_nil]
    rfl
  | cons m live ih =>
    obtain ⟨s₁, hm, hrest⟩ := run_cons.mp hrun
    obtain ⟨hcanonical, happly, hsafe, -⟩ := applyFrame_eq_ok.mp (frameStep_eq_some.mp hm)
    have hstep := applyPayload_eq_ok_iff.mp happly
    have hagain : applyFrame cfg (s.withEvidence evidence) m.frame .empty true =
        .ok (s₁.withEvidence (evidenceAfter true evidence m.frame.payload)) := by
      refine applyFrame_eq_ok.mpr ⟨hcanonical, ?_, hsafe, by decide⟩
      exact applyPayload_eq_ok_iff.mpr (hstep.withEvidence evidence true)
    obtain ⟨hreplay, hevidence⟩ := ih (fun m hm => hlive m (mem_cons_of_mem _ hm)) hrest
      (evidenceAfter true evidence m.frame.payload)
    rw [map_cons]
    constructor
    · rw [replay, foldlM_cons, hagain, ← foldl_noteEvidence_recovering,
        foldl_evidenceOf_cons, foldl_noteEvidence_recovering]
      exact hreplay
    · rw [foldl_evidenceOf_cons, hevidence, hstep.integrityEvidence, hlive m mem_cons_self]

/-- Two states agree in everything but what is volatile: the heap of retry deadlines. -/
structure SameState (s t : State B) : Prop where
  spends : s.spends = t.spends
  commitments : s.commitments = t.commitments
  requestResults : s.requestResults = t.requestResults
  cells : s.cells = t.cells
  accounting : s.accounting = t.accounting
  epochFloor : s.epochFloor = t.epochFloor
  clockUnsafe : s.clockUnsafe = t.clockUnsafe
  compactionWalHighWater : s.compactionWalHighWater = t.compactionWalHighWater
  readOnlyReason : s.readOnlyReason = t.readOnlyReason
  integrityEvidence : s.integrityEvidence = t.integrityEvidence

theorem SameState.withEvidence_iff {s : State B} {evidence : List (IntegrityFailed B)} :
    SameState (s.withEvidence evidence) s ↔ s.integrityEvidence = evidence := by
  constructor
  · intro h
    exact h.integrityEvidence.symm
  · rintro rfl
    exact ⟨rfl, rfl, rfl, rfl, rfl, rfl, rfl, rfl, rfl, rfl⟩

/-- **Recovery refines the live run exactly when no evidence hash comes twice.** -/
theorem recovered_iff_evidence_nodup {cfg : Config B} {live : List (Application B)} {s : State B}
    (hlive : ∀ m ∈ live, m.recovering = false)
    (hrun : run (frameStep cfg) (.empty B) live = some s) :
    (∃ s', replay cfg (.empty B) (live.map Application.frame) = .ok s' ∧ SameState s' s) ↔
      ((evidenceOf (live.map Application.frame)).map IntegrityFailed.evidenceHash).Nodup := by
  obtain ⟨hreplay, hevidence⟩ := replay_of_live hlive hrun []
  rw [nil_append] at hreplay
  have hempty : (State.empty B).withEvidence [] = .empty B := rfl
  rw [hempty] at hreplay
  have hkept : s.integrityEvidence = evidenceOf (live.map Application.frame) ↔
      ((evidenceOf (live.map Application.frame)).map IntegrityFailed.evidenceHash).Nodup := by
    rw [hevidence]
    refine foldl_noteEvidence_live_eq_iff.trans ?_
    exact and_iff_left nofun
  rw [← hkept, ← SameState.withEvidence_iff]
  constructor
  · rintro ⟨s', hs', hsame⟩
    rw [hreplay] at hs'
    rw [Except.ok.inj hs']
    exact hsame
  · intro hsame
    exact ⟨_, hreplay, hsame⟩

/-! ### Two readers of one corrupt cell

Two reads that fail on the same cell both find no evidence of it yet, and each appends a record. -/

/-- The record of a hash mismatch in the sample cell. -/
def sampleEvidence : IntegrityFailed ℕ where
  reason := .hash
  detectedEpoch := 10
  evidenceHash := 71

/-- The sample log, and one record of its corrupt cell for each reader. -/
def sampleReads (readers : ℕ) : List (Application ℕ) :=
  (sampleFrames ++ (range readers).map fun i =>
    sampleFrame (5 + i) 0 (.integrityFailed sampleEvidence)).map fun f => ⟨f, .empty, false⟩

/-- With one reader the sample is recovered. -/
theorem one_reader_recovered : ∃ s, run (frameStep sampleConfig) (.empty ℕ) (sampleReads 1) = some s ∧
      ∃ s', replay sampleConfig (.empty ℕ) ((sampleReads 1).map Application.frame) = .ok s' ∧ SameState s' s := by
  obtain ⟨s, hs⟩ : ∃ s, run (frameStep sampleConfig) (.empty ℕ) (sampleReads 1) = some s :=
    Option.isSome_iff_exists.mp (by decide)
  exact ⟨s, hs, (recovered_iff_evidence_nodup (by decide) hs).mpr (by decide)⟩

/-- With two readers it is not: the live engine keeps one record and the recovered one keeps two. -/
theorem two_readers_not_recovered : ∃ s, run (frameStep sampleConfig) (.empty ℕ) (sampleReads 2) = some s ∧
      ¬ ∃ s', replay sampleConfig (.empty ℕ) ((sampleReads 2).map Application.frame) = .ok s' ∧ SameState s' s := by
  obtain ⟨s, hs⟩ : ∃ s, run (frameStep sampleConfig) (.empty ℕ) (sampleReads 2) = some s :=
    Option.isSome_iff_exists.mp (by decide)
  refine ⟨s, hs, ?_⟩
  rintro ⟨s', hs', hsame⟩
  obtain ⟨hreplay, hlive⟩ := replay_of_live (by decide) hs []
  have hkept : s'.integrityEvidence = [sampleEvidence, sampleEvidence] := by
    rw [← Except.ok.inj (hreplay.symm.trans hs'), State.withEvidence_integrityEvidence]
    decide
  have hdropped : s.integrityEvidence = [sampleEvidence] := hlive.trans (by decide)
  rw [hsame.integrityEvidence, hdropped] at hkept
  exact absurd hkept (by decide)

end HiveRelay.Cell
