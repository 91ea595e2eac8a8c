import HiveRelay.Denylist.Convergence
import HiveRelay.Federation.TrustSet

/-!
# Saves that are joined

`save` of `Federation` and of `GatewayDenylist`, of `packages/core/core`, has one write under way at a time:
it makes the directory, serializes the state, writes a temporary file and renames it. A call that comes
meanwhile waits for that write, also when the state has changed since it was serialized: such a call returns
as if its change were saved. `AppRegistry.save` writes once more then; these two do not.

There is a path to save to; without one `save` does nothing.

## Main definitions

* `Move`, `Prompt` — the turns of a save, and a call that joins no stale one

## Main results

* `saves_lose_nothing` — runs of prompt calls
-/

namespace HiveRelay.Saves

open List Option

/-- A class whose state is saved: the text that is made at a time, and the state that making it leaves. -/
structure Saver (σ Payload : Type) where
  serialize : σ → ℕ → Payload × σ

/-- `Federation`: the entries of the lists, and the time. The republished apps are a parameter. -/
def federation {U P R Payload : Type} [DecidableEq U]
    (stringify : List (Federation.Entry U P) → List (Federation.Entry U P) → List R → ℕ → Payload) :
    Saver (Federation.State U P × List R) Payload where
  serialize s now := (stringify s.1.followed.values s.1.mirrored.values s.2 now, s)

/-- `GatewayDenylist`: what `list` returns, which forgets what has expired. -/
def gatewayDenylist {Payload : Type} (stringify : List Denylist.Entry → ℕ → Payload) :
    Saver Denylist.Entries Payload where
  serialize entries now := ((stringify (Denylist.list entries now).1 now), (Denylist.list entries now).2)

variable {σ Payload : Type}

/-- How far a write is: the directory is being made, the temporary file is being written with a text of the
state after so many changes, it is being renamed, it is done. -/
inductive Phase (Payload : Type) where
  | started
  | serialized (version : ℕ) (payload : Payload)
  | written (version : ℕ) (payload : Payload)
  | renamed (version : ℕ)

/-- `_saveInFlight`: the write, and for every call that waits for it how many changes there were before. -/
structure Flight (Payload : Type) where
  phase : Phase Payload
  callers : List ℕ

/-- The states that there were, the last one being the present one, the file with the number of changes
before it was serialized, the write under way, and the calls that resolved without an error. -/
structure State (σ Payload : Type) where
  past : List σ
  present : σ
  file : Option (ℕ × Payload)
  flight : Option (Flight Payload)
  resolved : List ℕ

def State.version (s : State σ Payload) : ℕ := s.past.length

def State.change (s : State σ Payload) (next : σ) : State σ Payload :=
  { s with past := s.past ++ [s.present], present := next }

def State.init (present : σ) : State σ Payload := ⟨[], present, none, none, []⟩

/-- A change, a call of `save`, the steps of the write under way, and its failure at any of them. -/
inductive Move (σ : Type) where
  | mutate (next : σ)
  | save
  | serialize (now : ℕ)
  | write
  | rename
  | finish
  | fail

def step (S : Saver σ Payload) (s : State σ Payload) : Move σ → Option (State σ Payload)
  | .mutate next => some (s.change next)
  | .save =>
    match s.flight with
    | none => some { s with flight := some ⟨.started, [s.version]⟩ }
    | some flight => some { s with flight := some { flight with callers := flight.callers ++ [s.version] } }
  | .serialize now =>
    match s.flight with
    | some ⟨.started, callers⟩ =>
      let (payload, next) := S.serialize s.present now
      let s := s.change next
      some { s with flight := some ⟨.serialized s.version payload, callers⟩ }
    | _ => none
  | .write =>
    match s.flight with
    | some ⟨.serialized version payload, callers⟩ => some { s with flight := some ⟨.written version payload, callers⟩ }
    | _ => none
  | .rename =>
    match s.flight with
    | some ⟨.written version payload, callers⟩ =>
      some { s with file := some (version, payload), flight := some ⟨.renamed version, callers⟩ }
    | _ => none
  | .finish =>
    match s.flight with
    | some ⟨.renamed _, callers⟩ => some { s with flight := none, resolved := s.resolved ++ callers }
    | _ => none
  | .fail =>
    match s.flight with
    | some ⟨.renamed _, _⟩ => none
    | some _ => some { s with flight := none }
    | none => none

/-- The number of changes before the text of a write was made, once it is. -/
def Phase.version? : Phase Payload → Option ℕ
  | .started => none
  | .serialized version _ => some version
  | .written version _ => some version
  | .renamed version => some version

/-- A call of `save` joins no write whose text was made before the last change. -/
def Prompt (s : State σ Payload) : Move σ → Prop
  | .save => ∀ flight ∈ s.flight, ∀ version ∈ flight.phase.version?, version = s.version
  | _ => True

instance (s : State σ Payload) : (m : Move σ) → Decidable (Prompt s m)
  | .save => inferInstanceAs (Decidable (∀ flight ∈ s.flight, ∀ version ∈ flight.phase.version?, version = s.version))
  | .mutate _ | .serialize _ | .write | .rename | .finish | .fail => .isTrue trivial

/-! ### What the file contains -/

/-- A text is one whose making left the state that there was after so many changes. -/
def Rendered (S : Saver σ Payload) (s : State σ Payload) (version : ℕ) (payload : Payload) : Prop :=
  ∃ x now next, (s.past ++ [s.present])[version]? = some next ∧ S.serialize x now = (payload, next)

def Phase.text? : Phase Payload → Option (ℕ × Payload)
  | .serialized version payload => some (version, payload)
  | .written version payload => some (version, payload)
  | _ => none

/-- The file and the write under way have texts of states that there were; a write is not older than the
file, nor than the calls that wait for it; and the file is not older than the calls that resolved. -/
structure Saved (S : Saver σ Payload) (s : State σ Payload) : Prop where
  file : ∀ f ∈ s.file, Rendered S s f.1 f.2
  resolved : ∀ c ∈ s.resolved, ∃ f ∈ s.file, c ≤ f.1
  callers : ∀ flight ∈ s.flight, ∀ c ∈ flight.callers, c ≤ s.version
  text : ∀ flight ∈ s.flight, ∀ p ∈ flight.phase.text?, Rendered S s p.1 p.2
  newer : ∀ flight ∈ s.flight, ∀ v ∈ flight.phase.version?, (∀ c ∈ flight.callers, c ≤ v) ∧ ∀ f ∈ s.file, f.1 ≤ v
  renamed : ∀ flight ∈ s.flight, ∀ v, flight.phase = .renamed v → ∃ f ∈ s.file, f.1 = v

variable {S : Saver σ Payload} {s s' : State σ Payload} {version : ℕ} {payload : Payload}

theorem Rendered.change (h : Rendered S s version payload) (next : σ) : Rendered S (s.change next) version payload := by
  obtain ⟨x, now, left, hx, hpayload⟩ := h
  exact ⟨x, now, left, getElem?_append_left (List.getElem?_eq_some_iff.mp hx).1 ▸ hx, hpayload⟩

theorem Rendered.le_version (h : Rendered S s version payload) : version ≤ s.version := by
  obtain ⟨_, _, _, hx, -⟩ := h
  have hlt := (List.getElem?_eq_some_iff.mp hx).1
  rw [length_append, length_singleton] at hlt
  exact Nat.le_of_lt_succ hlt

theorem version_change (s : State σ Payload) (next : σ) : (s.change next).version = s.version + 1 := by
  simp [State.version, State.change]

theorem Saved.change (h : Saved S s) (next : σ) : Saved S (s.change next) where
  file f hf := (h.file f hf).change next
  resolved := h.resolved
  callers flight hflight c hc := (h.callers flight hflight c hc).trans (by rw [version_change]; exact Nat.le_succ _)
  text flight hflight p hp := (h.text flight hflight p hp).change next
  newer := h.newer
  renamed := h.renamed

/-- **One step** keeps what the file is known to contain. -/
theorem Saved.step {m : Move σ} (h : Saved S s) (hprompt : Prompt s m) (hstep : step S s m = some s') : Saved S s' := by
  cases m with
  | mutate next => exact some.inj hstep ▸ h.change next
  | save =>
    cases hflight : s.flight with
    | none =>
      simp only [Saves.step, hflight, some.injEq] at hstep
      subst hstep
      refine ⟨h.file, h.resolved, ?_, ?_, ?_, ?_⟩ <;> rintro flight ⟨⟩
      · simp [State.version]
      · exact nofun
      · exact nofun
      · exact nofun
    | some old =>
      simp only [Saves.step, hflight, some.injEq] at hstep
      subst hstep
      have hcallers := h.callers old hflight
      refine ⟨h.file, h.resolved, ?_, ?_, ?_, ?_⟩ <;> rintro flight ⟨⟩
      · exact forall_mem_append.mpr ⟨hcallers, forall_mem_singleton.mpr le_rfl⟩
      · exact h.text old hflight
      · intro v hv
        obtain ⟨hwaiting, hfile⟩ := h.newer old hflight v hv
        exact ⟨forall_mem_append.mpr ⟨hwaiting, forall_mem_singleton.mpr (hprompt old hflight v hv).ge⟩, hfile⟩
      · exact h.renamed old hflight
  | serialize now =>
    simp only [Saves.step] at hstep
    split at hstep
    · next callers hflight =>
      cases hstep
      have hchange := h.change (S.serialize s.present now).2
      refine ⟨hchange.file, hchange.resolved, ?_, ?_, ?_, ?_⟩ <;> rintro flight ⟨⟩
      · exact hchange.callers ⟨.started, callers⟩ hflight
      · rintro p ⟨⟩
        refine ⟨s.present, now, (S.serialize s.present now).2, ?_, rfl⟩
        simp [State.version, State.change]
      · rintro v ⟨⟩
        exact ⟨hchange.callers ⟨.started, callers⟩ hflight, fun f hf => (hchange.file f hf).le_version⟩
      · exact nofun
    · cases hstep
  | write =>
    simp only [Saves.step] at hstep
    split at hstep
    · next version payload callers hflight =>
      cases hstep
      refine ⟨h.file, h.resolved, ?_, ?_, ?_, ?_⟩ <;> rintro flight ⟨⟩
      · exact h.callers ⟨.serialized version payload, callers⟩ hflight
      · exact h.text ⟨.serialized version payload, callers⟩ hflight
      · exact h.newer ⟨.serialized version payload, callers⟩ hflight
      · exact nofun
    · cases hstep
  | rename =>
    simp only [Saves.step] at hstep
    split at hstep
    · next version payload callers hflight =>
      cases hstep
      obtain ⟨hwaiting, hfile⟩ := h.newer _ hflight version rfl
      refine ⟨?_, fun c hc => ?_, ?_, ?_, ?_, ?_⟩
      · rintro f ⟨⟩
        exact h.text _ hflight _ rfl
      · obtain ⟨f, hf, hle⟩ := h.resolved c hc
        exact ⟨_, rfl, hle.trans (hfile f hf)⟩
      · rintro flight ⟨⟩
        exact h.callers ⟨.written version payload, callers⟩ hflight
      · rintro flight ⟨⟩
        exact nofun
      · rintro flight ⟨⟩ v ⟨⟩
        exact ⟨hwaiting, fun f hf => by cases hf; exact le_rfl⟩
      · rintro flight ⟨⟩ v ⟨⟩
        exact ⟨_, rfl, rfl⟩
    · cases hstep
  | finish =>
    simp only [Saves.step] at hstep
    split at hstep
    · next version callers hflight =>
      cases hstep
      obtain ⟨f, hf, rfl⟩ := h.renamed _ hflight version rfl
      refine ⟨h.file, forall_mem_append.mpr ⟨h.resolved, fun c hc => ?_⟩, nofun, nofun, nofun, nofun⟩
      exact ⟨f, hf, (h.newer _ hflight _ rfl).1 c hc⟩
    · cases hstep
  | fail =>
    simp only [Saves.step] at hstep
    split at hstep
    · cases hstep
    · cases hstep
      exact ⟨h.file, h.resolved, nofun, nofun, nofun, nofun⟩
    · cases hstep

theorem saved_init (S : Saver σ Payload) (present : σ) : Saved S (.init present) := by
  refine ⟨?_, ?_, ?_, ?_, ?_, ?_⟩ <;> rintro _ ⟨⟩

/-- **Saves lose nothing** where no call joins a write whose text was made before the last change: the file
has the text of a state that is not older than any call that has returned without an error. -/
theorem saves_lose_nothing (S : Saver σ Payload) (present : σ) (moves : List (Move σ)) (s : State σ Payload)
    (hprompt : RunMeets (step S) Prompt (.init present) moves)
    (hrun : run (step S) (.init present) moves = some s) :
    ∀ c ∈ s.resolved, ∃ f ∈ s.file, c ≤ f.1 ∧
      ∃ x now next, (s.past ++ [s.present])[f.1]? = some next ∧ S.serialize x now = (f.2, next) := by
  have h : Saved S s := run_invariant Prompt (Saved S) (fun _ _ _ h hok hstep => h.step hok hstep)
    (saved_init S present) hprompt hrun
  intro c hc
  obtain ⟨f, hf, hle⟩ := h.resolved c hc
  exact ⟨f, hf, hle, h.file f hf⟩

section Samples

open Federation

/-- A federation whose file is the lists and the time. -/
def sampleSaver : Saver (Federation.State ℕ ℕ × List ℕ) (List (Entry ℕ ℕ) × List (Entry ℕ ℕ) × List ℕ × ℕ) :=
  federation fun followed mirrored republished now => (followed, mirrored, republished, now)

/-- A federation that follows some relays. -/
def following (urls : List ℕ) : Federation.State ℕ ℕ × List ℕ :=
  (urls.foldl (fun s url => ((follow (fun _ => true) 1 s url none).toOption.getD s)) ⟨.empty, .empty, some ∅⟩, [])

/-- The second call joins the write before its text is made. -/
def joinedBefore : List (Move (Federation.State ℕ ℕ × List ℕ)) :=
  [.mutate (following [0]), .save, .mutate (following [0, 1]), .save, .serialize 5, .write, .rename, .finish]

theorem saves_lose_nothing_sample : ∃ s, run (step sampleSaver) (.init (following [])) joinedBefore = some s ∧
      ∀ c ∈ s.resolved, ∃ f ∈ s.file, c ≤ f.1 ∧
        ∃ x now next, (s.past ++ [s.present])[f.1]? = some next ∧ sampleSaver.serialize x now = (f.2, next) := by
  exact ⟨_, rfl, saves_lose_nothing sampleSaver (following []) joinedBefore _ (by decide +kernel) rfl⟩

/-- A relay is followed after the text was made: both calls return, and the file has the first relay only. -/
theorem saves_lose_change : ∃ s,
    run (step sampleSaver) (.init (following [])) [.mutate (following [0]), .save, .serialize 5,
      .mutate (following [0, 1]), .save, .write, .rename, .finish] = some s ∧
      s.resolved = [1, 3] ∧ s.present.1.followed.values.map (·.url) = [0, 1] ∧
      s.file.map (·.2.1.map (·.url)) = some [0] :=
  ⟨_, rfl, rfl, rfl, rfl⟩

end Samples

end HiveRelay.Saves
