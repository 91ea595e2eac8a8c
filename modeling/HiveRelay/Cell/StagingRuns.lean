import HiveRelay.Cell.Accounting
import HiveRelay.Cell.Staging

/-!
# Every staging is released once

Each operation on stagings keeps the contract, so that the ledger, the count and the winners are as
they should be along every interleaving.

## Main definitions

* `StagingMove` — the moves of the engine
* `Reaches` — where a program ends

## Main results

* `staging_released_once` — along every interleaving
-/

set_option linter.unusedSectionVars false

namespace HiveRelay.Cell

open Option HiveRelay.Except List

variable {B : Type} [LinearOrder B] [Zero B]

variable {Q : Except Failure Unit → StagingView B → Prop} {e : Engine B}

section Release

variable {cfg : Config B} {m : StagingView B} {n : ℕ} {r : Retained B}

theorem wp_locked {α : Type} {keys : List (LockKey B)} {p : CellOp B α}
    {Q : Except Failure α → StagingView B → Prop}
    (hp : ∀ m₁, Kept m m₁ → wp (stagingDiscipline cfg).logic p
      (fun res m₂ => GoodView m₂ ∧ ∀ m₃, Kept m₂ m₃ → Q res m₃) m₁) :
    wp (stagingDiscipline cfg).logic (withLocks keys p) Q m := by
  refine Op.wp_withLocks.mpr ?_
  rintro m' ⟨m₁, hm₁, -, rfl⟩
  have hkept := kept_of_later hm₁
  have hacquired : Kept m (m₁.acquire keys) :=
    ⟨⟨hkept.good.inv, hkept.good.owns⟩, hkept.rely.trans ⟨fun _ => Iff.rfl, fun _ _ => rfl, .refl _,
      fun _ h => h⟩⟩
  refine wp_mono (hp _ hacquired) fun res m₂ ⟨hgood, hQ⟩ m₃ hm₃ => ?_
  have hlast := kept_of_later hm₃
  exact hQ m₃ ⟨hlast.good, hlast.rely.mine, hlast.rely.kept, hlast.rely.lead, hlast.rely.appended⟩

/-- A task writes a record of its own, or one that is out, and neither the ledger nor the count. -/
theorem set_record (cfg : Config B) {f : Retained B → Retained B} (hm : GoodView m)
    (hr : m.store.retained[n]? = some r) (howner : n ∈ m.own.mine ∨ r.leased = true)
    (hlead : r.Leads (f r)) (hsound : (f r).Sound) (hquota : (f r).quotaReserved = r.quotaReserved)
    (hlive : (f r).live = r.live) :
    StagingWrite m (m.store.setRetained n f) ∧
      Progress m (m.write (stagingSurroundings cfg) (m.store.setRetained n f)) ∧
      ((f r).leased = false →
        Mine n (f r) (m.write (stagingSurroundings cfg) (m.store.setRetained n f))) :=
  write_record cfg (writes_setRetained _ n f) hr howner
    (hm.inv.setRetained hr hlead hsound hquota hlive) hlead

theorem take_lease (cfg : Config B) (phase : StagingPhase) (hm : GoodView m) (hr : m.store.leased? n = some r)
    (hphase : phase ≠ .staging) :
    StagingWrite m (m.store.takeLease n phase) ∧
      Progress m (m.write (stagingSurroundings cfg) (m.store.takeLease n phase)) ∧
      Mine n { r with phase := phase, leased := false }
        (m.write (stagingSurroundings cfg) (m.store.takeLease n phase)) := by
  obtain ⟨hrecord, hleased⟩ := leased?_eq_some.mp hr
  have hsound := hm.inv.record n r hrecord
  have hleads : r.Leads { r with phase := phase, leased := false } := by
    refine ⟨rfl, ?_, fun _ => rfl, fun hspent => nomatch hspent.2.symm.trans hleased⟩
    rw [(hsound.leased hleased).1]
    exact ⟨nofun, False.elim, fun h => absurd h hphase⟩
  obtain ⟨hwrite, hprogress, hnext⟩ := set_record cfg
    (f := fun r => { r with phase := phase, leased := false }) hm hrecord (.inr hleased) hleads
    ⟨hsound.positive, nofun, hsound.unreleased, hsound.reserved⟩ rfl rfl
  exact ⟨hwrite, hprogress, hnext rfl⟩

theorem leaves_checkAccounting : LeavesStaging (checkAccounting : CellOp B Unit) :=
  leaves_op_bind leaves_engine fun _ => leaves_ofExcept _

theorem settle_spec (hm : GoodView m) (hmine : Mine n r m)
    (hQ : ∀ res m', Progress m m' → Mine n { r with quotaReserved := false } m' → Q res m') :
    wp (stagingDiscipline cfg).logic (settleStaging n) Q m := by
  refine wp_engine_bind.mpr ?_
  rw [show (Engine.retained ((stagingDiscipline cfg).logic.store m))[n]? = _ from hmine.record]
  by_cases hquota : r.quotaReserved = true
  · show wp _ (if r.quotaReserved then _ else _ : CellOp B Unit) Q m
    rw [if_pos hquota]
    refine wp_locked fun m₁ hm₁ => wp_modify_bind.mpr ?_
    have hmine₁ := hm₁.mine hmine
    have hinv := hm₁.good.inv.giveBack hmine₁.record hquota
    obtain ⟨hwrite, hprogress, hnext⟩ := write_record cfg (m := m₁)
      (writes_giveBackStaging _ n r.input) hmine₁.record (.inl hmine₁.mem) hinv
      ⟨rfl, .refl _, fun _ => rfl, id⟩
    refine ⟨hwrite, wp_of_leaves leaves_checkAccounting hprogress.good fun res m₂ hm₂ => ?_⟩
    refine ⟨hm₂.good, fun m₃ hm₃ => ?_⟩
    have hlast := hm₂.trans hm₃
    exact hQ res m₃ (hm₁.progress.trans (hprogress.trans hlast.progress))
      (hlast.mine (hnext (hmine₁.leased hm₁.good)))
  · show wp _ (if r.quotaReserved then _ else _ : CellOp B Unit) Q m
    rw [if_neg hquota]
    rw [Bool.not_eq_true] at hquota
    refine hQ _ m (.refl hm) ?_
    have hsame : ({ r with quotaReserved := false } : Retained B) = r := by
      rw [← hquota]
    rw [hsame]
    exact hmine

/-- **Release.** Whoever owns a staging can release it, and owns it afterwards. -/
theorem release_spec {discard : Bool} {Q : Except Failure Bool → StagingView B → Prop}
    (hm : GoodView m) (hmine : Mine n r m)
    (hQ : ∀ res m' r', Progress m m' → Mine n r' m' → r'.phase = r.phase → Q res m') :
    wp (stagingDiscipline cfg).logic (releaseAtomicStaging n discard) Q m := by
  refine wp_engine_bind.mpr ?_
  rw [show (Engine.retained ((stagingDiscipline cfg).logic.store m))[n]? = _ from hmine.record]
  show wp _ (if r.released then _ else _ : CellOp B Bool) Q m
  by_cases hreleased : r.released = true
  · rw [if_pos hreleased]
    exact hQ _ m r (.refl hm) hmine rfl
  · rw [if_neg hreleased]
    rw [Bool.not_eq_true] at hreleased
    have hsound := hm.inv.record n r hmine.record
    have hlive := hsound.unreleased hreleased
    obtain ⟨hwrite, hprogress, hnext⟩ := set_record cfg
      (f := fun r => { r with released := true, leased := false }) hm hmine.record
      (.inl hmine.mem) ⟨rfl, .refl _, fun _ => rfl, fun hspent => ⟨hspent.1, rfl⟩⟩
      ⟨hsound.positive, by simp, by simp, hsound.reserved⟩ rfl rfl
    refine wp_modify_bind.mpr ⟨hwrite, Op.wp_attempt_bind.mpr ?_⟩
    refine wp_of_leaves (leaves_ite (fun _ => leaves_discardStaged) fun _ => leaves_pure ())
      hprogress.good fun discarded m₁ hm₁ => Op.wp_attempt_bind.mpr ?_
    refine settle_spec hm₁.good (hm₁.mine (hnext rfl)) fun settled m₂ hm₂ hmine₂ => ?_
    have hinv₂ := hm₂.good.inv.endStaging hmine₂.record hlive rfl rfl rfl
    obtain ⟨hwrite₂, hprogress₂, hnext₂⟩ := write_record cfg (m := m₂)
      (writes_endStaging _ n) hmine₂.record (.inl hmine₂.mem) hinv₂ ⟨rfl, .refl _, fun _ => rfl, id⟩
    have hall := hprogress.trans (hm₁.progress.trans (hm₂.trans hprogress₂))
    have hQ' : ∀ res, Q res (m₂.write (stagingSurroundings cfg) (m₂.store.endStaging n)) :=
      fun res => hQ res _ _ hall (hnext₂ rfl) rfl
    refine wp_modify_bind.mpr ⟨hwrite₂, Op.wp_ofExcept_bind.mpr ?_⟩
    cases settled with
    | error error => exact hQ' _
    | ok _ =>
      refine Op.wp_ofExcept_bind.mpr ?_
      cases discarded with
      | error error | ok _ => exact hQ' _

/-- **Cancelling.** A cancel that returns `true` has cancelled its authority. -/
theorem cancel_spec {Q : Except Failure Bool → StagingView B → Prop} (hm : GoodView m)
    (hQ : ∀ res m', Progress m m' → (res = .ok true → ∃ r, m'.store.retained[n]? = some r ∧
      r.phase = .cancelled) → Q res m') :
    wp (stagingDiscipline cfg).logic (cancelAtomicCellPut n) Q m := by
  refine wp_engine_bind.mpr ?_
  split
  · exact hQ _ m (.refl hm) (by simp)
  · rename_i r hr
    by_cases hphase : r.phase = .staged
    · rw [if_pos hphase]
      obtain ⟨hwrite, hprogress, hmine⟩ :=
        take_lease cfg .cancelled hm hr (by simp)
      refine wp_modify_bind.mpr ⟨hwrite, ?_⟩
      refine release_spec hprogress.good hmine fun res m₁ r₁ hm₁ hmine₁ hphase₁ => ?_
      exact hQ res m₁ (hprogress.trans hm₁) fun _ => ⟨r₁, hmine₁.record, hphase₁⟩
    · rw [if_neg hphase]
      exact hQ _ m (.refl hm) (by simp)

theorem cancelEach_spec {due : Retained B → Bool} {ns : List ℕ} {failure : Option Failure}
    {Q : Except Failure (Option Failure) → StagingView B → Prop}
    (hm : GoodView m) (hQ : ∀ res m', Progress m m' → Q res m') :
    wp (stagingDiscipline cfg).logic (cancelEach due ns failure) Q m := by
  induction ns generalizing failure m with
  | nil => exact hQ _ m (.refl hm)
  | cons n rest ih =>
    refine wp_engine_bind.mpr ?_
    split
    · exact ih hm hQ
    · rename_i r _
      by_cases hdue : due r = true
      · rw [if_pos hdue]
        refine Op.wp_attempt_bind.mpr (cancel_spec hm fun res m₁ hm₁ _ => ?_)
        cases res with
        | ok _ | error error => exact ih hm₁.good fun res m' hm' => hQ res m' (hm₁.trans hm')
      · rw [if_neg hdue]
        exact ih hm hQ

/-- A program after which nothing is known but progress, and what a task keeps to itself. -/
def Progresses {α : Type} (cfg : Config B) (I : View (signature B) StagingTask → Prop)
    (p : CellOp B α) : Prop :=
  ∀ (m : View (signature B) StagingTask)
    (Q : Except Failure α → View (signature B) StagingTask → Prop), GoodView m → I m →
    (∀ res m', Progress m m' → I m' → Q res m') → wp (stagingDiscipline cfg).logic p Q m

section Progresses

variable {α β : Type} {I : StagingView B → Prop}

variable {p : CellOp B α}

theorem progresses_of_leaves (hI : ∀ {m m'}, Kept m m' → I m → I m')
    (hp : LeavesStaging p) : Progresses cfg I p :=
  fun _ _ hm hi hQ => wp_of_leaves hp hm fun res m' hm' => hQ res m' hm'.progress (hI hm' hi)

variable {f : α → CellOp B β}

theorem progresses_bind (hp : Progresses cfg I p)
    (hf : ∀ a, Progresses cfg I (f a)) : Progresses cfg I (p >>= f : CellOp B β) := by
  intro m Q hm hi hQ
  refine wp_bind_op.mpr (hp m _ hm hi fun res m₁ hm₁ hi₁ => ?_)
  cases res with
  | ok a => exact hf a m₁ Q hm₁.good hi₁ fun res m' hm' => hQ res m' (hm₁.trans hm')
  | error error => exact hQ _ m₁ hm₁ hi₁

/-- Where a program ends: it has reached its aim, or a task still has what it keeps to itself. -/
def Reaches (I : View (signature B) StagingTask → Prop)
    (Done : α → View (signature B) StagingTask → Prop) (m : View (signature B) StagingTask)
    (res : Except Failure α) (m' : View (signature B) StagingTask) : Prop :=
  Progress m m' ∧
    match res with
    | .ok a => Done a m'
    | .error _ => I m'

theorem Reaches.after {Done : α → StagingView B → Prop}
    {m₁ m' : StagingView B} {res : Except Failure α} (hm₁ : Progress m m₁)
    (h : Reaches I Done m₁ res m') : Reaches I Done m res m' := ⟨hm₁.trans h.1, h.2⟩

theorem reaches_bind {Done : β → StagingView B → Prop} (hm : GoodView m) (hi : I m) (hp : Progresses cfg I p)
    (hf : ∀ a m', GoodView m' → I m' →
      wp (stagingDiscipline cfg).logic (f a) (Reaches I Done m') m') :
    wp (stagingDiscipline cfg).logic (p >>= f : CellOp B β) (Reaches I Done m) m := by
  refine wp_bind_op.mpr (hp m _ hm hi fun res m₁ hm₁ hi₁ => ?_)
  cases res with
  | ok a => exact wp_mono (hf a m₁ hm₁.good hi₁) fun _ _ => .after hm₁
  | error error => exact ⟨hm₁, hi₁⟩

theorem progresses_ofExcept_bind {x : Except Failure α}
    (hI : ∀ {m m'}, Kept m m' → I m → I m') (hf : ∀ a, x = .ok a → Progresses cfg I (f a)) :
    Progresses cfg I (Op.ofExcept x >>= f : CellOp B β) := by
  cases x with
  | ok a => exact hf a rfl
  | error error => exact progresses_of_leaves hI (leaves_fail error)

end Progresses

/-- Nothing is known of what a task owns. -/
def Nothing (_ : View (signature B) StagingTask) : Prop := True

theorem progresses_cancelEach {due : Retained B → Bool} {ns : List ℕ} {failure : Option Failure} :
    Progresses cfg Nothing (cancelEach due ns failure) :=
  fun _ _ hm _ hQ => cancelEach_spec hm fun res m' hm' => hQ res m' hm' trivial

theorem leaves_rethrow (failure : Option Failure) :
    LeavesStaging (rethrow failure : CellOp B Unit) := by
  cases failure <;> trivial

theorem progresses_sweepExpiredAtomicStaging :
    Progresses cfg Nothing (sweepExpiredAtomicStaging : CellOp B Unit) := by
  refine progresses_bind (progresses_of_leaves (fun _ h => h) leaves_nowUnixMillis) fun now => ?_
  refine progresses_bind (progresses_of_leaves (fun _ h => h) leaves_engine) fun e => ?_
  refine progresses_bind progresses_cancelEach fun failure => ?_
  exact progresses_of_leaves (fun _ h => h) (leaves_rethrow failure)

theorem progresses_close : Progresses cfg Nothing (close : CellOp B Unit) := by
  refine progresses_bind (progresses_of_leaves (fun _ h => h) ⟨fun e => ?_, trivial⟩) fun _ => ?_
  · exact ⟨rfl, rfl, rfl, rfl, rfl, rfl⟩
  refine progresses_bind (progresses_of_leaves (fun _ h => h) leaves_engine) fun e => ?_
  refine progresses_bind progresses_cancelEach fun failure => ?_
  exact progresses_of_leaves (fun _ h => h) (leaves_rethrow failure)

theorem StagingInv.shift (hinv : StagingInv e) (k : ℤ) :
    StagingInv { e with activeOperations := e.activeOperations + k
                        operations := e.operations + k } := by
  refine ⟨hinv.bytes, hinv.items, hinv.byProfile, ?_, hinv.record, hinv.published, hinv.appended,
    hinv.once⟩
  show e.activeOperations + k = e.operations + k + e.sumRetained Retained.count
  rw [hinv.count]
  ring

theorem progresses_runOperation {α : Type} {p : CellOp B α} (hp : Progresses cfg Nothing p) :
    Progresses cfg Nothing (runOperation p) := by
  refine progresses_bind (progresses_of_leaves (fun _ h => h) leaves_assertAdmitting) fun _ => ?_
  intro m Q hm _ hQ
  obtain ⟨hwrite, hkept⟩ := kept_of_sameRetained cfg hm (hm.inv.shift 1) rfl
    fun _ h => h
  refine wp_modify_bind.mpr ⟨hwrite, Op.wp_attempt_bind.mpr (hp _ _ hkept.good trivial ?_)⟩
  intro res m₁ hm₁ _
  obtain ⟨hwrite₁, hkept₁⟩ := kept_of_sameRetained cfg hm₁.good
    (hm₁.good.inv.shift (-1)) rfl fun _ h => h
  refine wp_modify_bind.mpr ⟨hwrite₁, ?_⟩
  exact hQ res _ (hkept.progress.trans (hm₁.trans hkept₁.progress)) trivial

end Release

/-! ### Staging a body -/

variable {input : AtomicInput B}

section Stage

variable {cfg : Config B} {m : StagingView B} {n : ℕ} {r : Retained B}

def Filling (n : ℕ) (m : View (signature B) StagingTask) : Prop :=
  ∃ r, Mine n r m ∧ r.phase = .staging ∧ r.released = false

theorem Filling.kept {m' : StagingView B} (h : Kept m m') : Filling n m → Filling n m'
  | ⟨r, hmine, hr⟩ => ⟨r, h.mine hmine, hr⟩

theorem progresses_fill {f : Retained B → Retained B}
    (hf : ∀ r : Retained B, r.phase = .staging → r.Sound → r.leased = false →
      r.Leads (f r) ∧ (f r).Sound ∧ (f r).leased = false ∧ (f r).phase = .staging)
    (hsame : ∀ r : Retained B, (f r).quotaReserved = r.quotaReserved ∧ (f r).live = r.live ∧
      (f r).released = r.released) :
    Progresses cfg (Filling n) (modify fun e => e.setRetained n f) := by
  rintro m Q hm ⟨r, hmine, hphase, hreleased⟩ hQ
  obtain ⟨hlead, hsound, hleased, hphase'⟩ :=
    hf r hphase (hm.inv.record n r hmine.record) (hmine.leased hm)
  obtain ⟨hquota, hlive, hreleased'⟩ := hsame r
  obtain ⟨hwrite, hprogress, hnext⟩ := set_record cfg (f := f) hm hmine.record
    (.inl hmine.mem) hlead hsound hquota hlive
  exact wp_modify.mpr ⟨hwrite, hQ _ _ hprogress
    ⟨_, hnext hleased, hphase', hreleased'.trans hreleased⟩⟩

theorem progresses_stageOpaque : Progresses cfg (Filling n) (stageOpaque n : CellOp B Unit) := by
  refine progresses_bind (progresses_of_leaves .kept (leaves_await .stageOpaque))
    fun result : StageResult => ?_
  cases result with
  | staged =>
    refine progresses_fill (fun r hphase hsound hleased => ?_) fun _ => ⟨rfl, rfl, rfl⟩
    exact ⟨⟨rfl, .refl _, fun _ => rfl, id⟩,
      ⟨hsound.positive, hsound.leased, hsound.unreleased, hsound.reserved⟩, hleased, hphase⟩
  | body terminal deadlineExpired message | failed error => exact progresses_of_leaves .kept (leaves_fail _)

theorem claim_spec (hm : GoodView m)
    (hmine : Mine n r m) (hinput : r.input = input) (hphase : r.phase = .staging)
    (hreleased : r.released = false) (hquota : r.quotaReserved = false)
    (hQ : ∀ res m', Progress m m' → Filling n m' → Q res m') :
    wp (stagingDiscipline cfg).logic (claimQuota cfg n input) Q m := by
  refine wp_locked fun m₁ hm₁ => wp_engine_bind.mpr (Op.wp_ofExcept_bind.mpr ?_)
  have hmine₁ := hm₁.mine hmine
  cases checkStagingQuota cfg ((stagingDiscipline cfg).logic.store m₁) input with
  | error error =>
    refine ⟨hm₁.good, fun m₂ hm₂ => hQ _ m₂ (hm₁.trans hm₂).progress ?_⟩
    exact ⟨r, hm₂.mine hmine₁, hphase, hreleased⟩
  | ok _ =>
    have hlive := (hm.inv.record n r hmine.record).unreleased hreleased
    have hinv := hm₁.good.inv.claim hmine₁.record hquota hlive
    rw [hinput] at hinv
    obtain ⟨hwrite, hprogress, hnext⟩ := write_record cfg (m := m₁)
      (writes_claimStaging _ n input) hmine₁.record (.inl hmine₁.mem) hinv
      ⟨rfl, .refl _, fun _ => rfl, id⟩
    refine ⟨hwrite, hprogress.good, fun m₂ hm₂ => ?_⟩
    exact hQ _ m₂ (hm₁.progress.trans (hprogress.trans hm₂.progress))
      ⟨_, hm₂.mine (hnext (hmine₁.leased hm₁.good)), hphase, hreleased⟩

theorem issue_spec (hm : GoodView m) (hfill : Filling n m) (hQ : ∀ m', Progress m m' → Q (.ok ()) m') :
    wp (stagingDiscipline cfg).logic
      (modify fun e => e.setRetained n fun r => { r with phase := .staged, leased := true }) Q m := by
  obtain ⟨r, hmine, hphase, hreleased⟩ := hfill
  have hsound := hm.inv.record n r hmine.record
  have hlead : r.Leads { r with phase := .staged, leased := true } := by
    refine ⟨rfl, ⟨?_, ?_, nofun⟩, fun _ => rfl, ?_⟩
    · rw [hphase]
      exact nofun
    · rw [hphase]
      exact False.elim
    · rw [hphase]
      exact fun h => nomatch h.1
  obtain ⟨hwrite, hprogress, -⟩ := set_record cfg
    (f := fun r => { r with phase := .staged, leased := true }) hm hmine.record (.inl hmine.mem)
    hlead ⟨hsound.positive, fun _ => ⟨rfl, hreleased⟩, hsound.unreleased, hsound.reserved⟩ rfl rfl
  exact wp_modify.mpr ⟨hwrite, hQ _ hprogress⟩

theorem fill_spec (hm : GoodView m) (hmine : Mine n r m)
    (hinput : r.input = input) (hphase : r.phase = .staging) (hreleased : r.released = false)
    (hquota : r.quotaReserved = false) :
    wp (stagingDiscipline cfg).logic (fillStaging cfg n input) (Reaches (Filling n) (fun _ _ => True) m) m := by
  refine wp_bind_op.mpr (claim_spec hm hmine hinput hphase hreleased hquota ?_)
  intro res m₁ hm₁ hfill₁
  cases res with
  | error error => exact ⟨hm₁, hfill₁⟩
  | ok _ =>
    refine wp_mono (Q := Reaches (Filling n) (fun _ _ => True) m₁) ?_ fun _ _ => .after hm₁
    refine reaches_bind hm₁.good hfill₁ (progresses_of_leaves .kept leaves_nowUnixMillis)
      fun now m₂ hm₂ hfill₂ => ?_
    refine reaches_bind hm₂ hfill₂ (progresses_of_leaves .kept (leaves_ofExcept _))
      fun _ m₃ hm₃ hfill₃ => ?_
    refine reaches_bind hm₃ hfill₃ (progresses_fill (fun r hphase hsound hleased => ?_)
      fun _ => ⟨rfl, rfl, rfl⟩) fun _ m₄ hm₄ hfill₄ => ?_
    · refine ⟨⟨rfl, .refl _, absurd hphase, id⟩, ?_, hleased, hphase⟩
      exact ⟨hsound.positive, hsound.leased, hsound.unreleased, hsound.reserved⟩
    refine reaches_bind hm₄ hfill₄ progresses_stageOpaque fun _ m₅ hm₅ hfill₅ => ?_
    refine reaches_bind hm₅ hfill₅ (progresses_of_leaves .kept leaves_assertPutLive)
      fun _ m₆ hm₆ hfill₆ => wp_engine_bind.mpr ?_
    by_cases hclosing : ((stagingDiscipline cfg).logic.store m₆).closing = true
    · rw [if_pos hclosing]
      exact ⟨.refl hm₆, hfill₆⟩
    · rw [if_neg hclosing]
      refine reaches_bind hm₆ hfill₆ (progresses_of_leaves .kept leaves_nowUnixMillis)
        fun later m₇ hm₇ hfill₇ => ?_
      by_cases hexpired : now + cfg.reservationMillis ≤ later
      · rw [if_pos hexpired]
        exact ⟨.refl hm₇, hfill₇⟩
      · rw [if_neg hexpired]
        exact issue_spec hm₇ hfill₇ fun m' hm' => ⟨hm', trivial⟩

theorem signedAllocation_sizeClass {request : PutRequest B} {allocation : B}
    (h : signedAllocation cfg request = .ok allocation) :
    1 ≤ request.sizeClass ∧ request.sizeClass ≤ 5 := by
  simp only [signedAllocation, integer, bind_eq_ok, require_eq_ok] at h
  obtain ⟨-, -, -, -, -, -, size, ⟨-, hsize, -⟩, -⟩ := h
  exact hsize

theorem atomicStagingInput_pos {call : StageCall B}
    (h : atomicStagingInput cfg call = .ok input) : 0 < input.declaredBytes := by
  obtain ⟨binding, -, h⟩ := bind_eq_ok.mp h
  obtain ⟨-, -, h⟩ := bind_eq_ok.mp h
  obtain ⟨profileId, -, h⟩ := bind_eq_ok.mp h
  obtain ⟨allocation, hallocation, h⟩ := bind_eq_ok.mp h
  cases h
  obtain ⟨hlow, hhigh⟩ := signedAllocation_sizeClass hallocation
  exact cellSizeClass_pos hlow hhigh

theorem begin_record (cfg : Config B) (hm : GoodView m) (hpositive : 0 < input.declaredBytes) :
    StagingWrite m (m.store.beginStaging input) ∧
      Progress m (m.write (stagingSurroundings cfg) (m.store.beginStaging input)) ∧
      Mine m.store.retained.length ⟨input, false, .staging, false, false, 0, false, true⟩
        (m.write (stagingSurroundings cfg) (m.store.beginStaging input)) := by
  have hinv := hm.inv.beginStaging hpositive
  have hget : ∀ {k : ℕ} {r}, m.store.retained[k]? = some r →
      (m.store.beginStaging input).retained[k]? = some r := by
    intro k r hk
    exact (getElem?_append_left (List.getElem?_eq_some_iff.mp hk).1).trans hk
  have hlead : m.store.RecordsLead (m.store.beginStaging input) :=
    fun k r hk => ⟨r, hget hk, .refl r⟩
  have hnew : (m.store.beginStaging input).retained[m.store.retained.length]? =
      some ⟨input, false, .staging, false, false, 0, false, true⟩ := getElem?_concat_length
  refine ⟨⟨hinv, hlead, fun _ h => h, fun k r hk hne => absurd (hget hk) hne⟩,
    ⟨⟨hinv, StagingTask.owns_wrote _ _ _⟩, hlead, fun _ h => h⟩, ?_, hnew⟩
  refine mem_wrote.mpr ⟨(List.getElem?_eq_some_iff.mp hnew).1, .inr ?_, ?_⟩
  · rw [hnew, getElem?_eq_none (le_refl _)]
    exact nofun
  · rw [eq_none_iff_forall_ne_some]
    intro r hr
    obtain ⟨hr', hleased⟩ := leased?_eq_some.mp hr
    rw [hnew] at hr'
    rw [← some.inj hr'] at hleased
    exact nomatch hleased

theorem progresses_stageAtomicCellPut (call : StageCall B) :
    Progresses cfg Nothing (stageAtomicCellPut cfg call) := by
  refine progresses_bind (progresses_of_leaves (fun _ h => h) leaves_assertAdmitting) fun _ => ?_
  refine progresses_bind (progresses_of_leaves (fun _ h => h) (leaves_assertWritable _)) fun _ => ?_
  refine progresses_ofExcept_bind (fun _ h => h) fun input hinput => ?_
  refine progresses_bind (progresses_of_leaves (fun _ h => h) leaves_assertPutLive) fun _ => ?_
  intro m Q hm _ hQ
  obtain ⟨hwrite, hprogress, hmine⟩ :=
    begin_record cfg hm (atomicStagingInput_pos hinput)
  refine wp_engine_bind.mpr (wp_modify_bind.mpr ⟨hwrite, Op.wp_attempt_bind.mpr ?_⟩)
  refine wp_mono (fill_spec hprogress.good hmine rfl rfl rfl rfl) ?_
  rintro res m₁ ⟨hm₁, hres⟩
  have hall := hprogress.trans hm₁
  cases res with
  | ok _ => exact hQ _ m₁ hall trivial
  | error error =>
    obtain ⟨r, hmine₁, -⟩ := hres
    refine wp_bind_op.mpr (release_spec hm₁.good hmine₁ fun res m₂ r₂ hm₂ _ _ => ?_)
    cases res with
    | ok _ | error error => exact hQ _ m₂ (hall.trans hm₂) trivial

end Stage

/-! ### Committing -/

section Commit

variable {cfg : Config B} {m : StagingView B} {n : ℕ} {r : Retained B}

/-- A program that neither writes nor waits. -/
def AsksOnly {α : Type} : Prog (signature B) α → Prop
  | .ret _ => True
  | .read next => ∀ e, AsksOnly (next e)
  | .ask _ next => ∀ a, AsksOnly (next a)
  | _ => False

theorem wp_of_asksOnly {α : Type} {p : Prog (signature B) α}
    {Q : α → StagingView B → Prop} (hp : AsksOnly p) (hQ : ∀ a, Q a m) :
    wp (stagingDiscipline cfg).logic p Q m := by
  induction p with
  | ret a => exact hQ a
  | read next ih => exact ih _ (hp _)
  | ask q next ih =>
    rintro a m' ⟨-, rfl⟩
    exact ih a (hp a)
  | write update next ih | yield next ih | acquire keys next ih | release keys next ih | append r next ih =>
    exact hp.elim

theorem asksOnly_nowUnixMillis : AsksOnly (nowUnixMillis : CellOp B ℕ) := fun _ => trivial

theorem asksOnly_assertPutLive : AsksOnly (assertPutLive : CellOp B Unit) := by
  intro (aborted : Bool)
  cases aborted <;> trivial

theorem asksOnly_preCommitFence : AsksOnly (preCommitFence : CellOp B Unit) := by
  intro (fence : FenceResult)
  cases fence with
  | accepted => exact asksOnly_assertPutLive
  | rejected | promise | threw error => trivial

def Committing (n : ℕ) (m : View (signature B) StagingTask) : Prop :=
  ∃ r, Mine n r m ∧ r.phase.Commits

theorem Committing.kept {m' : StagingView B} (h : Kept m m') :
    Committing n m → Committing n m'
  | ⟨r, hmine, hr⟩ => ⟨r, h.mine hmine, hr⟩

theorem StagingInv.publish {now : ℕ} (hinv : StagingInv e)
    (hr : e.retained[n]? = some r) (hcommits : r.phase.Commits) (hnow : now < r.expiresUnixMillis)
    (hfresh : ∀ x ∈ e.published, x.authority ≠ n) :
    StagingInv { e with published := ⟨n, now⟩ :: e.published } := by
  refine ⟨hinv.bytes, hinv.items, hinv.byProfile, hinv.count, hinv.record, ?_, hinv.appended, ?_⟩
  · intro x hx
    rcases mem_cons.mp hx with rfl | hx
    · exact ⟨r, hr, hcommits, hnow⟩
    · exact hinv.published x hx
  · refine nodup_cons.mpr ⟨fun hmem => ?_, hinv.once⟩
    obtain ⟨x, hx, hxn⟩ := mem_map.mp hmem
    exact hfresh x hx hxn

theorem StagingInv.append (hinv : StagingInv e) (hr : e.retained[n]? = some r)
    (hcommits : r.phase.Commits) : StagingInv { e with appended := n :: e.appended } := by
  refine ⟨hinv.bytes, hinv.items, hinv.byProfile, hinv.count, hinv.record, hinv.published, ?_,
    hinv.once⟩
  intro k hk
  rcases mem_cons.mp hk with rfl | hk
  · exact ⟨r, hr, hcommits⟩
  · exact hinv.appended k hk

variable {view : ResultView B}

theorem resultView_replay {entry : SpendEntry B} {status : ResultOperation} {replay : Bool}
    (h : entry.resultView status replay = .ok view) : view.replay = replay := by
  unfold SpendEntry.resultView at h
  split at h
  · rw [← Except.ok.inj h]
  · rw [← Except.ok.inj h]
  · exact nomatch h

theorem spendReplay_replay {s : State B} {entry : Option (SpendEntry B)} {c f : B}
    (h : spendReplay s entry c f = .ok (some view)) : view.replay = true := by
  obtain ⟨entry, -, h⟩ := bind_eq_ok.mp h
  obtain ⟨-, -, h⟩ := bind_eq_ok.mp h
  obtain ⟨-, -, h⟩ := bind_eq_ok.mp h
  have hview : ∀ {record : Option (CellRecord B)},
      (do require ((publiclyVisible record s.epochFloor).isSome)
            (failure .retryTerminal "the committed result is no longer replayable")
          let view ← entry.resultView .stored true
          pure (some view) : Except Failure (Option (ResultView B))) = .ok (some view) →
        view.replay = true := by
    intro record h
    obtain ⟨-, -, h⟩ := bind_eq_ok.mp h
    obtain ⟨v, hv, h⟩ := bind_eq_ok.mp h
    rw [← some.inj (Except.ok.inj h)]
    exact resultView_replay hv
  split at h
  · exact hview h
  · exact hview h
  · exact nomatch h
  · exact nomatch Except.ok.inj h

theorem atomicReplay_replay {s : State B} {spendTag c f : B}
    (h : atomicReplay s spendTag c f = .ok (some view)) : view.replay = true := by
  unfold atomicReplay at h
  split at h
  · exact nomatch Except.ok.inj h
  · exact spendReplay_replay h

theorem set_phase (cfg : Config B) (phase : StagingPhase) (e' : Engine B) (hm : GoodView m)
    (hsame : SameStaging (m.store.setPhase n phase) e') (hcommit : Committing n m)
    (hphase : phase.Commits) :
    StagingWrite m e' ∧ Progress m (m.write (stagingSurroundings cfg) e') ∧
      Committing n (m.write (stagingSurroundings cfg) e') := by
  obtain ⟨r, hmine, hcommits⟩ := hcommit
  have hsound := hm.inv.record n r hmine.record
  have hlead : r.Leads { r with phase := phase } := by
    refine ⟨rfl, ⟨fun h => ?_, fun _ => hphase, fun h => ?_⟩, fun _ => rfl, fun h => ?_⟩
    · rw [h] at hcommits
      exact hcommits.elim
    · have hphase' : StagingPhase.staging.Commits := h ▸ hphase
      exact hphase'.elim
    · rw [h.1] at hcommits
      exact hcommits.elim
  have hleased := hmine.leased hm
  have hinv := hm.inv.setRetained (f := fun r => { r with phase := phase }) hmine.record hlead
    ⟨hsound.positive, fun h => absurd h (by rw [hleased]; nofun), hsound.unreleased,
      hsound.reserved⟩ rfl rfl
  have hwrites : WritesRecord m.store e' n fun r => { r with phase := phase } :=
    ⟨hsame.retained, hsame.published, hsame.appended⟩
  obtain ⟨hwrite, hprogress, hnext⟩ := write_record cfg (m := m) hwrites hmine.record
    (.inl hmine.mem) (hinv.congr hsame) hlead
  exact ⟨hwrite, hprogress, _, hnext hleased, hphase⟩

def Published (n : ℕ) (view : ResultView B) (m : View (signature B) StagingTask) : Prop :=
  view.replay = false ∧ n ∈ m.store.appended

variable {prepared : PreparedAdmission B} {fingerprint : B}

theorem append_spec {transactionId objectId : B} {leaseEpoch : ℕ} (hm : GoodView m)
    (hcommit : Committing n m) :
    wp (stagingDiscipline cfg).logic
      (appendAtomic cfg n input prepared fingerprint leaseEpoch transactionId objectId)
      (Reaches (Committing n) (Published n) m) m := by
  obtain ⟨r, hmine, hcommits⟩ := hcommit
  obtain ⟨hwrite, hkept⟩ := kept_of_sameRetained cfg hm
    (hm.inv.append hmine.record hcommits) rfl fun _ => mem_cons_of_mem n
  refine wp_engine_bind.mpr (wp_modify_bind.mpr ⟨hwrite, wp_bind_op.mpr ?_⟩)
  refine wp_of_leaves (leaves_appendAndApply _ _ _ _) hkept.good fun res m₁ hm₁ => ?_
  have hcommit₁ : Committing n m₁ := ⟨r, hm₁.mine (hkept.mine hmine), hcommits⟩
  have happended : n ∈ m₁.store.appended := hm₁.rely.appended n mem_cons_self
  have hprogress := hkept.progress.trans hm₁.progress
  cases res with
  | error error => exact ⟨hprogress, hcommit₁⟩
  | ok _ =>
    refine wp_engine_bind.mpr (Op.wp_ofExcept_bind.mpr ?_)
    cases demand (((stagingDiscipline cfg).logic.store m₁).state.spends.get? prepared.spendTag)
      (failure .plain "Cannot read properties of undefined") with
    | error error => exact ⟨hprogress, hcommit₁⟩
    | ok committed =>
      refine Op.wp_ofExcept_bind.mpr ?_
      cases hview : committed.resultView .stored false with
      | error error => exact ⟨hprogress, hcommit₁⟩
      | ok view =>
        obtain ⟨hwrite₁, hprogress₁, r₁, hmine₁, hcommits₁⟩ :=
          set_phase cfg .committed (m₁.store.setPhase n .committed) hm₁.good (.refl _) hcommit₁ trivial
        refine Op.cont_ok.mpr (wp_modify_bind.mpr ⟨hwrite₁, ?_⟩)
        refine wp_bind_op.mpr (release_spec hprogress₁.good hmine₁ fun res m₂ r₂ hm₂ hmine₂ hphase₂ => ?_)
        have hall := hprogress.trans (hprogress₁.trans hm₂)
        cases res with
        | error error => exact ⟨hall, r₂, hmine₂, hphase₂ ▸ hcommits₁⟩
        | ok _ =>
          exact ⟨hall, resultView_replay hview, (hprogress₁.trans hm₂).appended n happended⟩

theorem publish_spec {now leaseEpoch : ℕ} {Q : Except Failure (ResultView B) → StagingView B → Prop}
    (hm : GoodView m) (hmine : Mine n r m) (hcommits : r.phase.Commits)
    (hnow : now < r.expiresUnixMillis) (hfresh : ∀ x ∈ m.store.published, x.authority ≠ n)
    (hQ : ∀ res m', Progress m m' → (∀ view, res = .ok view → Published n view m') → Q res m') :
    wp (stagingDiscipline cfg).logic
      (publishAtomic cfg n now input prepared fingerprint leaseEpoch) Q m := by
  refine wp_bind_op.mpr (wp_of_asksOnly (fun _ => trivial) fun transactionId => ?_)
  cases transactionId with
  | error error => exact hQ _ m (.refl hm) nofun
  | ok transactionId =>
    obtain ⟨hwrite, hkept⟩ := kept_of_sameRetained cfg hm
      (hm.inv.publish hmine.record hcommits hnow hfresh) rfl fun _ h => h
    have hcommit : Committing n _ := ⟨r, hkept.mine hmine, hcommits⟩
    refine Op.wp_attempt_bind.mpr (wp_modify_bind.mpr ⟨hwrite, ?_⟩)
    refine wp_mono (Q := Reaches (Committing n) (Published n) _)
      (reaches_bind hkept.good hcommit (progresses_of_leaves .kept (leaves_await .publishOpaque))
        fun _ m₁ hm₁ hcommit₁ => reaches_bind hm₁ hcommit₁
          (progresses_of_leaves .kept (leaves_ofExcept _)) fun objectId m₂ hm₂ hcommit₂ =>
          append_spec hm₂ hcommit₂) ?_
    rintro res m₁ ⟨hm₁, hres⟩
    have hall := hkept.progress.trans hm₁
    cases res with
    | ok view => exact hQ _ m₁ hall fun view' h => Except.ok.inj h ▸ hres
    | error error =>
      obtain ⟨hwrite₁, hprogress₁, r₁, hmine₁, -⟩ := set_phase cfg .ambiguous
        ((m₁.store.setPhase n .ambiguous).setReadOnly .ambiguousAtomicPublish) hm₁.good
        ⟨rfl, rfl, rfl, rfl, rfl, rfl⟩ hres trivial
      refine wp_modify_bind.mpr ⟨hwrite₁, Op.wp_attempt_bind.mpr ?_⟩
      refine release_spec hprogress₁.good hmine₁ fun _ m₂ _ hm₂ _ _ => ?_
      exact hQ _ m₂ (hall.trans (hprogress₁.trans hm₂)) nofun

/-- What a commit that returns a result has come to. -/
def Committed (n : ℕ) (res : Except Failure (ResultView B))
    (m : View (signature B) StagingTask) : Prop :=
  ∀ view, res = .ok view → (StagingOutcome.committed n view.replay).Final m.store

theorem StagingInv.fresh (hinv : StagingInv e) (hr : e.leased? n = some r) :
    ∀ x ∈ e.published, x.authority ≠ n := by
  rintro x hx rfl
  obtain ⟨hrecord, hleased⟩ := leased?_eq_some.mp hr
  obtain ⟨r', hr', hcommits, -⟩ := hinv.published x hx
  rw [hrecord] at hr'
  rw [← some.inj hr', ((hinv.record _ r hrecord).leased hleased).1] at hcommits
  exact hcommits

theorem commitLocked_spec
    {Q : Except Failure (ResultView B) → StagingView B → Prop} (hm : GoodView m)
    (hQ : ∀ res m', Progress m m' → Committed n res m' → Q res m') :
    wp (stagingDiscipline cfg).logic (commitAtomicLocked cfg n prepared fingerprint) Q m := by
  refine wp_engine_bind.mpr ?_
  split
  · exact hQ _ m (.refl hm) (by rintro _ ⟨⟩)
  · rename_i r hr
    obtain ⟨hr, -⟩ := filter_eq_some_iff.mp hr
    have hstaged := ((hm.inv.record n r (leased?_eq_some.mp hr).1).leased (leased?_eq_some.mp hr).2).1
    refine wp_bind_op.mpr (wp_of_asksOnly asksOnly_nowUnixMillis fun now => ?_)
    cases now with
    | error error => exact hQ _ m (.refl hm) (by rintro _ ⟨⟩)
    | ok now =>
      by_cases hexpired : r.expiresUnixMillis ≤ now
      · show wp _ (if r.expiresUnixMillis ≤ now then _ else _ : CellOp B _) Q m
        rw [if_pos hexpired]
        obtain ⟨hwrite, hprogress, hmine⟩ :=
          take_lease cfg .cancelled hm hr (by simp)
        refine wp_modify_bind.mpr ⟨hwrite, ?_⟩
        refine wp_bind_op.mpr (release_spec hprogress.good hmine fun res m₁ _ hm₁ _ _ => ?_)
        cases res with
        | ok _ | error error => exact hQ _ m₁ (hprogress.trans hm₁) (by rintro _ ⟨⟩)
      · show wp _ (if r.expiresUnixMillis ≤ now then _ else _ : CellOp B _) Q m
        rw [if_neg hexpired]
        refine Op.wp_ofExcept_bind.mpr ?_
        cases hreplay : atomicReplay ((stagingDiscipline cfg).logic.store m).state
            prepared.spendTag r.input.requestCommitment fingerprint with
        | error error => exact hQ _ m (.refl hm) (by rintro _ ⟨⟩)
        | ok replay =>
          cases replay with
          | some view =>
            obtain ⟨hwrite, hprogress, hmine⟩ :=
              take_lease cfg r.phase hm hr (by simp [hstaged])
            refine Op.cont_ok.mpr (wp_modify_bind.mpr ⟨hwrite, ?_⟩)
            refine wp_bind_op.mpr (release_spec hprogress.good hmine
              fun res m₁ r₁ hm₁ hmine₁ hphase₁ => ?_)
            cases res with
            | error error => exact hQ _ m₁ (hprogress.trans hm₁) (by rintro _ ⟨⟩)
            | ok _ =>
              refine hQ _ m₁ (hprogress.trans hm₁) fun view' hview' => ?_
              rw [← Except.ok.inj hview', atomicReplay_replay hreplay]
              exact ⟨r₁, hmine₁.record, hphase₁.trans hstaged, hmine₁.leased hm₁.good⟩
          | none =>
            refine Op.cont_ok.mpr (Op.wp_ofExcept_bind.mpr ?_)
            cases checkAtomicPut cfg ((stagingDiscipline cfg).logic.store m) r.input fingerprint with
            | error error => exact hQ _ m (.refl hm) (by rintro _ ⟨⟩)
            | ok leaseEpoch =>
              refine Op.cont_ok.mpr (wp_bind_op.mpr ?_)
              refine wp_of_asksOnly asksOnly_preCommitFence fun fence => ?_
              cases fence with
              | error error => exact hQ _ m (.refl hm) (by rintro _ ⟨⟩)
              | ok _ =>
                obtain ⟨hwrite, hprogress, hmine⟩ :=
                  take_lease cfg .committing hm hr (by simp)
                refine Op.cont_ok.mpr (wp_modify_bind.mpr ⟨hwrite, ?_⟩)
                refine publish_spec hprogress.good hmine trivial (Nat.lt_of_not_le hexpired)
                  (hm.inv.fresh hr) fun res m₁ hm₁ hres => ?_
                refine hQ res m₁ (hprogress.trans hm₁) fun view hview => ?_
                rw [(hres view hview).1]
                exact (hres view hview).2

theorem cancelFail_spec {error : Failure}
    {Q : Except Failure (ResultView B) → StagingView B → Prop} (hm : GoodView m)
    (hQ : ∀ error' m', Progress m m' → Q (.error error') m') :
    wp (stagingDiscipline cfg).logic
      (cancelAtomicCellPut n >>= fun _ => fail error : CellOp B (ResultView B)) Q m := by
  refine wp_bind_op.mpr (cancel_spec hm fun res m₁ hm₁ _ => ?_)
  cases res with
  | ok _ | error error => exact hQ _ m₁ hm₁

theorem commitTry_spec {slot : B}
    {Q : Except Failure (ResultView B) → StagingView B → Prop} (hm : GoodView m)
    (hQ : ∀ res m', Progress m m' → Committed n res m' → Q res m') :
    wp (stagingDiscipline cfg).logic (lockAndCommitAtomic cfg n prepared fingerprint slot) Q m := by
  refine wp_bind_op.mpr (wp_of_leaves leaves_assertPutLive hm fun res m₁ hm₁ => ?_)
  cases res with
  | error error => exact hQ _ m₁ hm₁.progress nofun
  | ok _ =>
    refine Op.cont_ok.mpr (wp_bind_op.mpr ?_)
    refine wp_of_leaves leaves_refreshClock hm₁.good fun res m₂ hm₂ => ?_
    cases res with
    | error error => exact hQ _ m₂ (hm₁.trans hm₂).progress nofun
    | ok _ =>
      refine Op.cont_ok.mpr (wp_bind_op.mpr ?_)
      refine wp_of_leaves (leaves_assertWritable true) hm₂.good fun res m₃ hm₃ => ?_
      have hthree := hm₁.trans (hm₂.trans hm₃)
      cases res with
      | error error => exact hQ _ m₃ hthree.progress nofun
      | ok _ =>
        refine Op.cont_ok.mpr (wp_locked fun m₄ hm₄ => ?_)
        refine commitLocked_spec hm₄.good fun res m₅ hm₅ hres => ⟨hm₅.good, fun m₆ hm₆ => ?_⟩
        refine hQ res m₆ ((hthree.trans hm₄).progress.trans (hm₅.trans hm₆.progress)) ?_
        exact fun view hview => (hres view hview).mono hm₆.rely.lead hm₆.rely.appended

theorem commit_spec {call : CommitCall B}
    {Q : Except Failure (ResultView B) → StagingView B → Prop} (hm : GoodView m)
    (hQ : ∀ res m', Progress m m' → Committed call.authority res m' → Q res m') :
    wp (stagingDiscipline cfg).logic (commitAtomicCellPut cfg call) Q m := by
  refine wp_engine_bind.mpr ?_
  split
  · exact hQ _ m (.refl hm) (by rintro _ ⟨⟩)
  · rename_i r hr
    refine wp_bind_op.mpr (wp_of_asksOnly asksOnly_nowUnixMillis fun now => ?_)
    cases now with
    | error error => exact hQ _ m (.refl hm) (by rintro _ ⟨⟩)
    | ok now =>
      show wp _ (if r.expiresUnixMillis ≤ now then _ else _ : CellOp B _) Q m
      by_cases hexpired : r.expiresUnixMillis ≤ now
      · rw [if_pos hexpired]
        exact cancelFail_spec hm fun _ m₁ hm₁ => hQ _ m₁ hm₁ (by rintro _ ⟨⟩)
      · rw [if_neg hexpired]
        refine Op.wp_ofExcept_bind.mpr ?_
        cases preparedAdmission call.preparedAdmission with
        | error error => exact hQ _ m (.refl hm) (by rintro _ ⟨⟩)
        | ok prepared =>
          refine Op.cont_ok.mpr ?_
          by_cases hbinds : prepared.requestCommitment ≠ r.input.requestCommitment ∨
              prepared.profileId ≠ r.input.profileId
          · rw [if_pos hbinds]
            exact cancelFail_spec hm fun _ m₁ hm₁ => hQ _ m₁ hm₁ (by rintro _ ⟨⟩)
          · rw [if_neg hbinds]
            refine Op.wp_attempt_bind.mpr (commitTry_spec hm fun res m₁ hm₁ hres => ?_)
            cases res with
            | ok view => exact hQ _ m₁ hm₁ hres
            | error error =>
              refine wp_engine_bind.mpr ?_
              by_cases hout : (Engine.leased? ((stagingDiscipline cfg).logic.store m₁)
                  call.authority).isSome = true
              · rw [if_pos hout]
                exact cancelFail_spec hm₁.good fun _ m₂ hm₂ => hQ _ m₂ (hm₁.trans hm₂) (by rintro _ ⟨⟩)
              · rw [if_neg hout]
                exact hQ _ m₁ hm₁ (by rintro _ ⟨⟩)

end Commit

/-! ### Runs -/

/-- An operation that leaves the stagings alone. -/
def OtherOp (B : Type) : Type := { p : CellOp B Unit // LeavesStaging p }

inductive StagingCall (B : Type) where
  | stage (call : StageCall B)
  | commit (call : CommitCall B)
  | cancel (n : ℕ)
  /-- An operation with an expiry sweep in it, such as a tick of the clock timer. -/
  | sweep (before after : OtherOp B)
  | close
  /-- Any other operation. -/
  | operation (p : OtherOp B)

/-- What becomes of a call whose result nobody asks for. -/
def forget {α : Type} (p : CellOp B α) : Prog (signature B) StagingOutcome :=
  Prog.bind p fun _ => .ret .other

def StagingCall.program (cfg : Config B) : StagingCall B → Prog (signature B) StagingOutcome
  | .stage call => forget (stageAtomicCellPut cfg call)
  | .commit call => Prog.bind (commitAtomicCellPut cfg call) fun
    | .ok view => .ret (.committed call.authority view.replay)
    | .error _ => .ret .other
  | .cancel n => Prog.bind (cancelAtomicCellPut n) fun
    | .ok won => .ret (.cancelled n won)
    | .error _ => .ret .other
  | .sweep before after => forget (runOperation do
      before.val
      sweepExpiredAtomicStaging
      after.val)
  | .close => forget Cell.close
  | .operation p => forget (runOperation p.val)

inductive StagingMove (B : Type) where
  /-- A call, with a signal that may have fired. -/
  | call (c : StagingCall B) (aborted : Bool)
  | turn (i : ℕ) (oracle : ℕ → (q : Query) → q.Answer B)
  | settle (f : Fate)
  | eject (k : ℕ)
  /-- The signal of a call fires. -/
  | abort (i : ℕ)

def StagingMove.toMove (cfg : Config B) :
    StagingMove B → LoopMove (signature B) StagingTask Fate Unit StagingOutcome
  | .call c aborted => .call (c.program cfg) ⟨aborted, []⟩
  | .turn i oracle => .turn i oracle
  | .settle f => .settle f
  | .eject k => .eject k
  | .abort i => .change i ()

def stagingStep (cfg : Config B) (l : Loop (signature B) StagingTask StagingOutcome)
    (mv : StagingMove B) : Option (Loop (signature B) StagingTask StagingOutcome) :=
  l.step (stagingSurroundings cfg) (mv.toMove cfg)

/-- An engine in which nothing is staged, such as one that has just been opened. -/
structure NoStaging (e : Engine B) : Prop where
  atomicStaging : e.atomicStaging = .empty
  retained : e.retained = []
  activeOperations : e.activeOperations = e.operations
  published : e.published = []
  appended : e.appended = []

section Runs

variable {cfg : Config B}

theorem NoStaging.inv (h : NoStaging e) : StagingInv e := by
  have hsum : ∀ f, e.sumRetained f = 0 := fun f => by
    unfold Engine.sumRetained
    rw [h.retained]
    rfl
  refine ⟨?_, ?_, fun p => ?_, ?_, ?_, ?_, ?_, ?_⟩
  · rw [hsum, h.atomicStaging]
    rfl
  · rw [hsum, h.atomicStaging]
    rfl
  · rw [hsum, h.atomicStaging]
    rfl
  · rw [hsum, h.activeOperations, add_zero]
  · rw [h.retained]
    exact nofun
  · rw [h.published]
    exact nofun
  · rw [h.appended]
    exact nofun
  · rw [h.published]
    exact nodup_nil

theorem wp_forget {α : Type} {p : CellOp B α} {m : StagingView B}
    (hp : Progresses cfg Nothing p) (hm : GoodView m) :
    wp (stagingDiscipline cfg).logic (forget p) (stagingDiscipline cfg).post m :=
  wp_bind.mpr (hp m _ hm trivial fun _ _ _ _ => trivial)

theorem StagingCall.keeps (c : StagingCall B) {m : StagingView B} (hm : GoodView m) :
    wp (stagingDiscipline cfg).logic (c.program cfg) (stagingDiscipline cfg).post m := by
  cases c with
  | stage call => exact wp_forget (progresses_stageAtomicCellPut call) hm
  | commit call =>
    refine wp_bind.mpr (commit_spec hm fun res m' _ hres => ?_)
    cases res with
    | ok view => exact hres view rfl
    | error error => trivial
  | cancel n =>
    refine wp_bind.mpr (cancel_spec hm fun res m' _ hres => ?_)
    cases res with
    | ok won =>
      cases won with
      | true => exact hres rfl
      | false => trivial
    | error error => trivial
  | sweep before after =>
    refine wp_forget (progresses_runOperation ?_) hm
    refine progresses_bind (progresses_of_leaves (fun _ h => h) before.property) fun _ => ?_
    refine progresses_bind progresses_sweepExpiredAtomicStaging fun _ => ?_
    exact progresses_of_leaves (fun _ h => h) after.property
  | close => exact wp_forget progresses_close hm
  | operation p =>
    exact wp_forget (progresses_runOperation (progresses_of_leaves (fun _ h => h) p.property)) hm

theorem StagingMove.admissible (mv : StagingMove B)
    (l : Loop (signature B) StagingTask StagingOutcome) :
    (stagingDiscipline cfg).Admissible l (mv.toMove cfg) := by
  cases mv with
  | call c aborted =>
    refine ⟨nofun, fun e he => ⟨nofun, fun m' hm' => ?_⟩⟩
    exact c.keeps ⟨hm'.inv, hm'.loc⟩
  | turn i oracle | settle f | eject k => trivial
  | abort i => exact fun _ _ => trivial

variable {l l' : Loop (signature B) StagingTask StagingOutcome} {moves : List (StagingMove B)}

theorem staging_sound_run (hs : (stagingDiscipline cfg).Sound l)
    (hrun : run (stagingStep cfg) l moves = some l') : (stagingDiscipline cfg).Sound l' :=
  run_preserves (stagingDiscipline cfg).Sound
    (fun _ mv _ hs h => Discipline.sound_step hs (mv.admissible _) h) hs hrun

theorem staging_final_run {a : StagingOutcome} (hs : (stagingDiscipline cfg).Sound l)
    (hrun : run (stagingStep cfg) l moves = some l') (ha : a.Final l.store) : a.Final l'.store :=
  (run_preserves (fun l => (stagingDiscipline cfg).Sound l ∧ a.Final l.store)
    (fun _ mv _ h hstep => ⟨Discipline.sound_step h.1 (mv.admissible _) hstep,
      Discipline.final_step h.1 (mv.admissible _) hstep h.2⟩) ⟨hs, ha⟩ hrun).2

theorem StagingInv.cancelled {n : ℕ} (hinv : StagingInv e)
    (h : (StagingOutcome.cancelled n true).Final e) :
    (∀ x ∈ e.published, x.authority ≠ n) ∧ n ∉ e.appended := by
  obtain ⟨r, hr, hphase⟩ := h
  constructor
  · rintro x hx rfl
    obtain ⟨r', hr', hcommits, -⟩ := hinv.published x hx
    rw [hr] at hr'
    rw [← some.inj hr', hphase] at hcommits
    exact hcommits
  · intro hn
    obtain ⟨r', hr', hcommits⟩ := hinv.appended n hn
    rw [hr] at hr'
    rw [← some.inj hr', hphase] at hcommits
    exact hcommits

end Runs

/-- A task runs, and nothing goes wrong outside. -/
def sampleTurn (i : ℕ) : StagingMove ℕ := .turn i fun _ => sampleAnswer

/-- The sample put is staged twice, and the second authority is cancelled. -/
def sampleStagings : List (StagingMove ℕ) :=
  [.call (.stage ⟨sampleRequest, 1, some sampleBinding⟩) false, sampleTurn 0, sampleTurn 0,
    sampleTurn 0, sampleTurn 0,
    .call (.stage ⟨sampleRequest, 1, some sampleBinding⟩) false, sampleTurn 1, sampleTurn 1,
    sampleTurn 1, sampleTurn 1,
    .call (.cancel 1) false, sampleTurn 2, sampleTurn 2, sampleTurn 2, sampleTurn 2]

/-- The first authority is committed, while a cancel comes too late. -/
def sampleCommit : List (StagingMove ℕ) :=
  [.call (.commit ⟨0, sampleAdmission⟩) false, .call (.cancel 0) false, sampleTurn 3, sampleTurn 3,
    sampleTurn 3, sampleTurn 3, sampleTurn 4, sampleTurn 3, .settle .applied, sampleTurn 3,
    sampleTurn 3, sampleTurn 3, sampleTurn 3, sampleTurn 3]

end HiveRelay.Cell
