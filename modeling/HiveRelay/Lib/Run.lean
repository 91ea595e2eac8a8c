import Mathlib.Logic.Basic

/-!
# Runs of a step function

A system is a partial step function `step : σ → μ → Option σ`: `step s m` is the state after move
`m`, or `none` when `m` is not possible in `s`. A run is a list of moves. This file has the two rules
every safety proof over runs uses: an invariant of the steps is an invariant of the runs, and the
steps of a run may be assumed to meet a condition the run as a whole is known to meet.

## Main definitions

* `run` — the state after a list of moves
* `RunMeets` — every step of a run meets a condition on the state before it and its move

## Main results

* `run_preserves`, `run_invariant` — the induction over a run
* `run_view` — a view that only some of the moves change
-/

namespace HiveRelay

variable {σ μ : Type} (step : σ → μ → Option σ)

/-- The state after a list of moves. -/
def run (s : σ) : List μ → Option σ
  | [] => some s
  | m :: moves => (step s m).bind fun s' => run s' moves

/-- Every move of a run meets `ok` in the state it is made in. -/
def RunMeets (ok : σ → μ → Prop) (s : σ) : List μ → Prop
  | [] => True
  | m :: moves => ok s m ∧ ∀ s', step s m = some s' → RunMeets ok s' moves

instance decidableRunMeets (ok : σ → μ → Prop) [∀ s m, Decidable (ok s m)] :
    (s : σ) → (moves : List μ) → Decidable (RunMeets step ok s moves)
  | _, [] => isTrue trivial
  | s, m :: moves =>
    match h : step s m with
    | none => decidable_of_iff (ok s m) (by simp [RunMeets, h])
    | some s' =>
      have := decidableRunMeets ok s' moves
      decidable_of_iff (ok s m ∧ RunMeets step ok s' moves) (by simp [RunMeets, h])

variable {step}

variable {s : σ} {moves : List μ}

theorem run_cons {s' : σ} {m : μ} :
    run step s (m :: moves) = some s' ↔ ∃ s₁, step s m = some s₁ ∧ run step s₁ moves = some s' :=
  Option.bind_eq_some_iff

theorem run_append {s' : σ} {more : List μ} : run step s (moves ++ more) = some s' ↔
      ∃ s₁, run step s moves = some s₁ ∧ run step s₁ more = some s' := by
  induction moves generalizing s with
  | nil => simp [run]
  | cons m moves ih =>
    simp only [List.cons_append, run_cons, ih]
    constructor
    · rintro ⟨s₁, hstep, s₂, hrun, hmore⟩
      exact ⟨s₂, ⟨s₁, hstep, hrun⟩, hmore⟩
    · rintro ⟨s₂, ⟨s₁, hstep, hrun⟩, hmore⟩
      exact ⟨s₁, hstep, s₂, hrun, hmore⟩

/-- **An invariant of the steps is an invariant of the runs.** -/
theorem run_invariant (ok : σ → μ → Prop) (invariant : σ → Prop)
    (hstep : ∀ s m s', invariant s → ok s m → step s m = some s' → invariant s')
    {s' : σ} (hs : invariant s) (hok : RunMeets step ok s moves)
    (hrun : run step s moves = some s') : invariant s' := by
  induction moves generalizing s with
  | nil => exact Option.some.inj hrun ▸ hs
  | cons m moves ih =>
    obtain ⟨s₁, hs₁, hrest⟩ := run_cons.mp hrun
    exact ih (hstep s m s₁ hs hok.1 hs₁) (hok.2 s₁ hs₁) hrest

/-- An invariant that every step keeps, with nothing asked of the moves. -/
theorem run_preserves (invariant : σ → Prop) (hstep : ∀ s m s', invariant s → step s m = some s' → invariant s')
    {s' : σ} (hs : invariant s) (hrun : run step s moves = some s') :
    invariant s' := by
  induction moves generalizing s with
  | nil => exact Option.some.inj hrun ▸ hs
  | cons m moves ih =>
    obtain ⟨s₁, hs₁, hrest⟩ := run_cons.mp hrun
    exact ih (hstep s m s₁ hs hs₁) hrest

theorem runMeets_append {ok : σ → μ → Prop} {more : List μ} (h : RunMeets step ok s moves)
    (hmore : ∀ s', run step s moves = some s' → RunMeets step ok s' more) :
    RunMeets step ok s (moves ++ more) := by
  induction moves generalizing s with
  | nil => exact hmore s rfl
  | cons m moves ih =>
    refine ⟨h.1, fun s' hstep => ih (h.2 s' hstep) fun s'' hrun => hmore s'' ?_⟩
    exact run_cons.mpr ⟨s', hstep, hrun⟩

theorem RunMeets.mono {ok ok' : σ → μ → Prop} (h : ∀ s m, ok s m → ok' s m) (hok : RunMeets step ok s moves) :
    RunMeets step ok' s moves := by
  induction moves generalizing s with
  | nil => trivial
  | cons m moves ih => exact ⟨h s m hok.1, fun s' hs' => ih (hok.2 s' hs')⟩

/-- Conditions that agree on the steps that can be made agree on a run. -/
theorem runMeets_congr {ok ok' : σ → μ → Prop} (h : ∀ s m s', step s m = some s' → (ok s m ↔ ok' s m)) {s' : σ}
    (hrun : run step s moves = some s') : RunMeets step ok s moves ↔ RunMeets step ok' s moves := by
  induction moves generalizing s with
  | nil => exact Iff.rfl
  | cons m moves ih =>
    obtain ⟨s₁, hm, hrest⟩ := run_cons.mp hrun
    refine and_congr (h s m s₁ hm) (forall₂_congr fun s₂ hs₂ => ?_)
    rw [hm] at hs₂
    cases hs₂
    exact ih hrest

/-- **Unwinding.** When the moves that are not seen leave a view of the state as it is, and those that are seen
change it by what it is, the view after a run is a function of the moves that are seen. -/
theorem run_view {ν : Type} (ok : σ → μ → Prop) (invariant : σ → Prop) (view : σ → ν) (next : ν → μ → ν)
    (seen : μ → Bool) (hinv : ∀ s m s', invariant s → step s m = some s' → invariant s')
    (hseen : ∀ s m s', invariant s → seen m = true → step s m = some s' → view s' = next (view s) m)
    (hhidden : ∀ s m s', invariant s → ok s m → seen m = false → step s m = some s' → view s' = view s)
    {s' : σ} (hs : invariant s) (hok : RunMeets step ok s moves) (hrun : run step s moves = some s') :
    view s' = (moves.filter seen).foldl next (view s) := by
  induction moves generalizing s with
  | nil => exact Option.some.inj hrun ▸ rfl
  | cons m moves ih =>
    obtain ⟨s₁, hs₁, hrest⟩ := run_cons.mp hrun
    rw [ih (hinv s m s₁ hs hs₁) (hok.2 s₁ hs₁) hrest]
    cases hm : seen m with
    | true => rw [List.filter_cons_of_pos hm, List.foldl_cons, hseen s m s₁ hs hm hs₁]
    | false => rw [List.filter_cons_of_neg (by simp [hm]), hhidden s m s₁ hs hok.1 hm hs₁]

/-- A condition on the moves alone is met by a run whose moves meet it. -/
theorem runMeets_of_forall {ok : μ → Prop} (h : ∀ m ∈ moves, ok m) : RunMeets step (fun _ m => ok m) s moves := by
  induction moves generalizing s with
  | nil => trivial
  | cons m moves ih =>
    exact ⟨h m List.mem_cons_self, fun s' _ => ih fun m hm => h m (List.mem_cons_of_mem _ hm)⟩

end HiveRelay
