import HiveRelay.Lib.Sums
import HiveRelay.Cell.Machine

/-!
# Staged bodies are released once

A staging is shared while its authority is out: a commit, a cancel, an expiry sweep and `close` may
all reach for it. Whoever takes the authority back owns the staging from then on, and nobody else
writes its record again; before the authority is out it belongs to the call that stages it. That is
the contract between the tasks, and what it buys is that every step of a release finds the record as
the step before has left it, whatever was awaited in between.
-/

set_option linter.unusedSectionVars false

namespace HiveRelay.Cell

open Option List OrderedMap

variable {B : Type} [LinearOrder B] [Zero B]

/-! ### Records -/

/-- The phases of a put that has passed its last cancellable fence. -/
def StagingPhase.Commits : StagingPhase → Prop
  | .committing | .committed | .ambiguous => True
  | _ => False

structure StagingPhase.Leads (p q : StagingPhase) : Prop where
  cancelled : p = .cancelled → q = .cancelled
  commits : p.Commits → q.Commits
  staging : q = .staging → p = .staging

theorem StagingPhase.Leads.refl (p : StagingPhase) : p.Leads p := ⟨id, id, id⟩

theorem StagingPhase.Leads.trans {p q r : StagingPhase} (h : p.Leads q) (h' : q.Leads r) : p.Leads r :=
  ⟨h'.cancelled ∘ h.cancelled, h'.commits ∘ h.commits, h.staging ∘ h'.staging⟩

structure Retained.Leads (r r' : Retained B) : Prop where
  input : r'.input = r.input
  phase : r.phase.Leads r'.phase
  expires : r.phase ≠ .staging → r'.expiresUnixMillis = r.expiresUnixMillis
  /-- A replay has taken the authority back. -/
  spent : r.phase = .staged ∧ r.leased = false → r'.phase = .staged ∧ r'.leased = false

theorem Retained.Leads.refl (r : Retained B) : r.Leads r := ⟨rfl, .refl _, fun _ => rfl, id⟩

theorem Retained.Leads.trans {r₁ r₂ r₃ : Retained B} (h : r₁.Leads r₂) (h' : r₂.Leads r₃) :
    r₁.Leads r₃ := by
  refine ⟨h'.input.trans h.input, h.phase.trans h'.phase, fun hne => ?_, h'.spent ∘ h.spent⟩
  rw [h'.expires fun h₂ => hne (h.phase.staging h₂), h.expires hne]

/-- Every record is still there, and has become something it can become. -/
def Engine.RecordsLead (e e' : Engine B) : Prop :=
  ∀ (n : ℕ) (r : Retained B), e.retained[n]? = some r → ∃ r', e'.retained[n]? = some r' ∧ r.Leads r'

theorem Engine.RecordsLead.refl (e : Engine B) : e.RecordsLead e := fun _ r h => ⟨r, h, .refl r⟩

theorem Engine.RecordsLead.trans {e₁ e₂ e₃ : Engine B} (h : e₁.RecordsLead e₂)
    (h' : e₂.RecordsLead e₃) : e₁.RecordsLead e₃ := by
  intro n r hr
  obtain ⟨r₂, hr₂, h₁₂⟩ := h n r hr
  obtain ⟨r₃, hr₃, h₂₃⟩ := h' n r₂ hr₂
  exact ⟨r₃, hr₃, h₁₂.trans h₂₃⟩

structure Retained.Sound (r : Retained B) : Prop where
  positive : 0 < r.input.declaredBytes
  leased : r.leased = true → r.phase = .staged ∧ r.released = false
  unreleased : r.released = false → r.live = true
  reserved : r.quotaReserved = true → r.live = true

/-! ### Sums over the records -/

/-- The bytes that a record has in the ledger. -/
def Retained.bytes (r : Retained B) : ℤ := if r.quotaReserved then r.input.declaredBytes else 0

/-- The item that a record has in the ledger. -/
def Retained.item (r : Retained B) : ℤ := if r.quotaReserved then 1 else 0

/-- The bytes that a record has in the ledger of a profile. -/
def Retained.profileBytes (profileId : ℕ) (r : Retained B) : ℤ :=
  if r.quotaReserved ∧ r.input.profileId = profileId then r.input.declaredBytes else 0

/-- How often a record is counted in `activeOperations`. -/
def Retained.count (r : Retained B) : ℤ := if r.live then 1 else 0

def Engine.sumRetained (e : Engine B) (f : Retained B → ℤ) : ℤ := (e.retained.map f).sum

/-! ### The invariant -/

/-- The ledger and the count are the sums over the records, and only puts past their fence have been
published, once, or appended. -/
structure StagingInv (e : Engine B) : Prop where
  bytes : e.atomicStaging.bytes = e.sumRetained Retained.bytes
  items : e.atomicStaging.items = e.sumRetained Retained.item
  byProfile : ∀ p, e.atomicStaging.byProfile.get? p =
    if e.sumRetained (Retained.profileBytes p) = 0 then none
    else some (e.sumRetained (Retained.profileBytes p))
  count : e.activeOperations = e.operations + e.sumRetained Retained.count
  record : ∀ (n : ℕ) (r : Retained B), e.retained[n]? = some r → r.Sound
  published : ∀ x ∈ e.published, ∃ r, e.retained[x.authority]? = some r ∧ r.phase.Commits ∧
    x.checkedUnixMillis < r.expiresUnixMillis
  appended : ∀ n ∈ e.appended, ∃ r, e.retained[n]? = some r ∧ r.phase.Commits
  once : (e.published.map Publication.authority).Nodup

/-- Two engines agree in what the stagings are about. -/
structure SameStaging (e e' : Engine B) : Prop where
  atomicStaging : e'.atomicStaging = e.atomicStaging
  retained : e'.retained = e.retained
  activeOperations : e'.activeOperations = e.activeOperations
  operations : e'.operations = e.operations
  published : e'.published = e.published
  appended : e'.appended = e.appended

theorem SameStaging.refl (e : Engine B) : SameStaging e e := ⟨rfl, rfl, rfl, rfl, rfl, rfl⟩

section Inv

variable {e e' : Engine B}

theorem StagingInv.congr (h : StagingInv e) (hsame : SameStaging e e') : StagingInv e' := by
  have hsum : ∀ f, e'.sumRetained f = e.sumRetained f := fun f => by
    unfold Engine.sumRetained
    rw [hsame.retained]
  constructor
  · rw [hsame.atomicStaging, hsum, h.bytes]
  · rw [hsame.atomicStaging, hsum, h.items]
  · intro p
    rw [hsame.atomicStaging, hsum, h.byProfile]
  · rw [hsame.activeOperations, hsame.operations, hsum, h.count]
  · rw [hsame.retained]
    exact h.record
  · rw [hsame.published, hsame.retained]
    exact h.published
  · rw [hsame.appended, hsame.retained]
    exact h.appended
  · rw [hsame.published]
    exact h.once

theorem StagingInv.getD_byProfile (h : StagingInv e) (p : ℕ) :
    (e.atomicStaging.byProfile.get? p).getD 0 = e.sumRetained (Retained.profileBytes p) := by
  rw [h.byProfile]
  split
  · rename_i hzero
    rw [hzero]
    rfl
  · rfl

theorem StagingInv.published_of_lead (h : StagingInv e) (hlead : e.RecordsLead e') :
    (∀ x ∈ e.published, ∃ r, e'.retained[x.authority]? = some r ∧ r.phase.Commits ∧
      x.checkedUnixMillis < r.expiresUnixMillis) ∧
    ∀ n ∈ e.appended, ∃ r, e'.retained[n]? = some r ∧ r.phase.Commits := by
  constructor
  · intro x hx
    obtain ⟨r, hr, hcommits, hchecked⟩ := h.published x hx
    obtain ⟨r', hr', hleads⟩ := hlead _ r hr
    refine ⟨r', hr', hleads.phase.commits hcommits, ?_⟩
    rw [hleads.expires fun hstaging => by rw [hstaging] at hcommits; exact hcommits]
    exact hchecked
  · intro n hn
    obtain ⟨r, hr, hcommits⟩ := h.appended n hn
    obtain ⟨r', hr', hleads⟩ := hlead _ r hr
    exact ⟨r', hr', hleads.phase.commits hcommits⟩

end Inv

/-! ### Writing one record -/

section Write

variable {e e' : Engine B} {n : ℕ} {r : Retained B} {f : Retained B → Retained B}

/-- The record of one authority is written. -/
structure WritesRecord (e e' : Engine B) (n : ℕ) (f : Retained B → Retained B) : Prop where
  retained : e'.retained = e.retained.modify n f
  published : e'.published = e.published
  appended : e'.appended = e.appended

theorem writes_setRetained (e : Engine B) (n : ℕ) (f : Retained B → Retained B) :
    WritesRecord e (e.setRetained n f) n f := ⟨rfl, rfl, rfl⟩

theorem writes_claimStaging (e : Engine B) (n : ℕ) (input : AtomicInput B) :
    WritesRecord e (e.claimStaging n input) n fun r => { r with quotaReserved := true } :=
  ⟨rfl, rfl, rfl⟩

theorem writes_giveBackStaging (e : Engine B) (n : ℕ) (input : AtomicInput B) :
    WritesRecord e (e.giveBackStaging n input) n fun r => { r with quotaReserved := false } :=
  ⟨rfl, rfl, rfl⟩

theorem writes_endStaging (e : Engine B) (n : ℕ) :
    WritesRecord e (e.endStaging n) n fun r => { r with live := false } := ⟨rfl, rfl, rfl⟩

theorem WritesRecord.get? (h : WritesRecord e e' n f) (hr : e.retained[n]? = some r) (k : ℕ) :
    e'.retained[k]? = if k = n then some (f r) else e.retained[k]? := by
  rw [h.retained]
  by_cases hk : k = n
  · rw [if_pos hk, hk, getElem?_modify_eq, hr]
    rfl
  · rw [if_neg hk, getElem?_modify_ne _ _ (Ne.symm hk)]

theorem WritesRecord.lead (h : WritesRecord e e' n f) (hr : e.retained[n]? = some r)
    (hlead : r.Leads (f r)) : e.RecordsLead e' := by
  intro k rk hrk
  rw [h.get? hr]
  by_cases hk : k = n
  · rw [if_pos hk]
    rw [hk, hr] at hrk
    cases hrk
    exact ⟨f r, rfl, hlead⟩
  · rw [if_neg hk]
    exact ⟨rk, hrk, .refl rk⟩

theorem WritesRecord.sum (h : WritesRecord e e' n f) (hr : e.retained[n]? = some r)
    (g : Retained B → ℤ) : e'.sumRetained g = e.sumRetained g - g r + g (f r) := by
  unfold Engine.sumRetained
  rw [h.retained]
  exact sum_map_modify g f hr

theorem StagingInv.write (hinv : StagingInv e) (h : WritesRecord e e' n f)
    (hr : e.retained[n]? = some r) (hlead : r.Leads (f r)) (hsound : (f r).Sound)
    (hbytes : e'.atomicStaging.bytes = e.atomicStaging.bytes - r.bytes + (f r).bytes)
    (hitems : e'.atomicStaging.items = e.atomicStaging.items - r.item + (f r).item)
    (hprofile : ∀ p, e'.atomicStaging.byProfile.get? p =
      if e'.sumRetained (Retained.profileBytes p) = 0 then none
      else some (e'.sumRetained (Retained.profileBytes p)))
    (hcount : e'.activeOperations - e'.operations =
      e.activeOperations - e.operations - r.count + (f r).count) : StagingInv e' := by
  obtain ⟨hpublished, happended⟩ := hinv.published_of_lead (h.lead hr hlead)
  constructor
  · rw [hbytes, h.sum hr, hinv.bytes]
  · rw [hitems, h.sum hr, hinv.items]
  · exact hprofile
  · have hbefore := hinv.count
    rw [h.sum hr]
    omega
  · intro k rk hrk
    rw [h.get? hr] at hrk
    split at hrk
    · rw [← some.inj hrk]
      exact hsound
    · exact hinv.record k rk hrk
  · rw [h.published]
    exact hpublished
  · rw [h.appended]
    exact happended
  · rw [h.published]
    exact hinv.once

theorem StagingInv.setRetained (hinv : StagingInv e) (hr : e.retained[n]? = some r)
    (hlead : r.Leads (f r)) (hsound : (f r).Sound)
    (hquota : (f r).quotaReserved = r.quotaReserved) (hlive : (f r).live = r.live) :
    StagingInv (e.setRetained n f) := by
  have hwrites := writes_setRetained e n f
  have hprofile : ∀ p, Retained.profileBytes p (f r) = Retained.profileBytes p r := fun p => by
    unfold Retained.profileBytes
    rw [hquota, hlead.input]
  refine hinv.write hwrites hr hlead hsound ?_ ?_ ?_ ?_
  · unfold Retained.bytes
    rw [hquota, hlead.input]
    exact (sub_add_cancel _ _).symm
  · unfold Retained.item
    rw [hquota]
    exact (sub_add_cancel _ _).symm
  · intro p
    rw [hwrites.sum hr, hprofile, sub_add_cancel]
    exact hinv.byProfile p
  · unfold Retained.count
    rw [hlive]
    exact (sub_add_cancel _ _).symm

theorem sumRetained_profileBytes_nonneg (e : Engine B) (p : ℕ) : 0 ≤ e.sumRetained (Retained.profileBytes p) := by
  refine sum_nonneg fun x hx => ?_
  obtain ⟨r, -, rfl⟩ := mem_map.mp hx
  unfold Retained.profileBytes
  split
  · exact Int.natCast_nonneg _
  · exact le_refl 0

theorem StagingInv.claim (hinv : StagingInv e) (hr : e.retained[n]? = some r)
    (hquota : r.quotaReserved = false) (hlive : r.live = true) :
    StagingInv (e.claimStaging n r.input) := by
  have hsound := hinv.record n r hr
  have hwrites := writes_claimStaging e n r.input
  refine hinv.write hwrites hr ⟨rfl, .refl _, fun _ => rfl, id⟩
    ⟨hsound.positive, hsound.leased, hsound.unreleased, fun _ => hlive⟩ ?_ ?_ ?_ ?_
  · show e.atomicStaging.bytes + r.input.declaredBytes = _
    simp [Retained.bytes, hquota]
  · show e.atomicStaging.items + 1 = _
    simp [Retained.item, hquota]
  · intro p
    show (e.atomicStaging.byProfile.set r.input.profileId
      ((e.atomicStaging.byProfile.get? r.input.profileId).getD 0 + r.input.declaredBytes)).get? p = _
    have hnonneg := sumRetained_profileBytes_nonneg e p
    have hpositive := hsound.positive
    rw [get?_set, hwrites.sum hr]
    by_cases hp : p = r.input.profileId
    · have hbefore : Retained.profileBytes p r = 0 := by simp [Retained.profileBytes, hquota]
      have hafter : Retained.profileBytes p { r with quotaReserved := true } =
          r.input.declaredBytes := by simp [Retained.profileBytes, hp]
      rw [if_pos hp, hbefore, hafter, ← hp, hinv.getD_byProfile, sub_zero, if_neg (by omega)]
    · have hbefore : Retained.profileBytes p r = 0 := by simp [Retained.profileBytes, hquota]
      have hafter : Retained.profileBytes p { r with quotaReserved := true } = 0 := by
        simp [Retained.profileBytes, Ne.symm hp]
      rw [if_neg hp, hbefore, hafter, sub_zero, add_zero]
      exact hinv.byProfile p
  · show e.activeOperations - e.operations = _
    simp [Retained.count]

theorem StagingInv.giveBack (hinv : StagingInv e) (hr : e.retained[n]? = some r)
    (hquota : r.quotaReserved = true) : StagingInv (e.giveBackStaging n r.input) := by
  have hsound := hinv.record n r hr
  have hwrites := writes_giveBackStaging e n r.input
  refine hinv.write hwrites hr ⟨rfl, .refl _, fun _ => rfl, id⟩
    ⟨hsound.positive, hsound.leased, hsound.unreleased, nofun⟩ ?_ ?_ ?_ ?_
  · show e.atomicStaging.bytes - r.input.declaredBytes = _
    simp [Retained.bytes, hquota]
  · show e.atomicStaging.items - 1 = _
    simp [Retained.item, hquota]
  · intro p
    have hafter : Retained.profileBytes p { r with quotaReserved := false } = 0 := by
      simp [Retained.profileBytes]
    show (if (e.atomicStaging.byProfile.get? r.input.profileId).getD 0 - r.input.declaredBytes = 0
      then e.atomicStaging.byProfile.delete r.input.profileId
      else e.atomicStaging.byProfile.set r.input.profileId
        ((e.atomicStaging.byProfile.get? r.input.profileId).getD 0 - r.input.declaredBytes)).get? p = _
    rw [hwrites.sum hr, hafter, add_zero]
    by_cases hp : p = r.input.profileId
    · have hbefore : Retained.profileBytes p r = r.input.declaredBytes := by
        simp [Retained.profileBytes, hquota, hp]
      rw [hbefore, hp, hinv.getD_byProfile]
      split
      · exact get?_delete_self
      · exact get?_set_self
    · have hbefore : Retained.profileBytes p r = 0 := by
        simp [Retained.profileBytes, Ne.symm hp]
      rw [hbefore, sub_zero, ← hinv.byProfile p]
      split
      · exact get?_delete_of_ne hp
      · exact get?_set_of_ne hp
  · show e.activeOperations - e.operations = _
    simp [Retained.count]

theorem StagingInv.endStaging (hinv : StagingInv e) (hr : e.retained[n]? = some r)
    (hlive : r.live = true) (hreleased : r.released = true) (hquota : r.quotaReserved = false)
    (hleased : r.leased = false) : StagingInv (e.endStaging n) := by
  have hsound := hinv.record n r hr
  have hwrites := writes_endStaging e n
  have hlead : r.Leads { r with live := false } := ⟨rfl, .refl _, fun _ => rfl, id⟩
  refine hinv.write hwrites hr hlead ⟨hsound.positive, ?_, ?_, ?_⟩ ?_ ?_ ?_ ?_
  · exact fun h => nomatch hleased.symm.trans h
  · exact fun h => nomatch hreleased.symm.trans h
  · exact fun h => nomatch hquota.symm.trans h
  · show e.atomicStaging.bytes = _
    simp [Retained.bytes]
  · show e.atomicStaging.items = _
    simp [Retained.item]
  · intro p
    have hsame : Retained.profileBytes p { r with live := false } = Retained.profileBytes p r := rfl
    rw [hwrites.sum hr, hsame, sub_add_cancel]
    exact hinv.byProfile p
  · show e.activeOperations - 1 - e.operations = _
    simp only [Retained.count, hlive, if_true, Bool.false_eq_true, if_false]
    ring

theorem StagingInv.beginStaging (hinv : StagingInv e) {input : AtomicInput B}
    (hpositive : 0 < input.declaredBytes) : StagingInv (e.beginStaging input) := by
  have hsum : ∀ f, (e.beginStaging input).sumRetained f =
      e.sumRetained f + f ⟨input, false, .staging, false, false, 0, false, true⟩ :=
    fun f => sum_map_concat _ _ f
  have hget : ∀ {k : ℕ} {r}, e.retained[k]? = some r → (e.beginStaging input).retained[k]? = some r := by
    intro k r hk
    refine (getElem?_append_left ?_).trans hk
    exact (List.getElem?_eq_some_iff.mp hk).1
  have hlead : e.RecordsLead (e.beginStaging input) := fun k r hk => ⟨r, hget hk, .refl r⟩
  obtain ⟨hpublished, happended⟩ := hinv.published_of_lead hlead
  constructor
  · rw [hsum]
    exact hinv.bytes.trans (add_zero _).symm
  · rw [hsum]
    exact hinv.items.trans (add_zero _).symm
  · intro p
    have hzero : Retained.profileBytes p
        (⟨input, false, .staging, false, false, 0, false, true⟩ : Retained B) = 0 := by
      simp [Retained.profileBytes]
    rw [hsum, hzero, add_zero]
    exact hinv.byProfile p
  · rw [hsum]
    show e.activeOperations + 1 = e.operations + (e.sumRetained Retained.count + 1)
    rw [hinv.count]
    ring
  · intro k r hk
    have hk' : (e.retained ++ [(⟨input, false, .staging, false, false, 0, false, true⟩ :
        Retained B)])[k]? = some r := hk
    rw [getElem?_append] at hk'
    split at hk'
    · exact hinv.record k r hk'
    · obtain rfl := mem_singleton.mp (mem_of_getElem? hk')
      exact ⟨hpositive, nofun, fun _ => rfl, nofun⟩
  · exact hpublished
  · exact happended
  · exact hinv.once

end Write

/-! ### What a task owns -/

structure StagingTask where
  /-- Its signal has fired. -/
  aborted : Bool
  /-- The stagings it has begun or taken back, and not handed out. -/
  mine : List ℕ

abbrev StagingView (B : Type) : Type := View (signature B) StagingTask

/-- What a task owns after a write: what it has touched is its own unless the authority is out. -/
def StagingTask.wrote (v : StagingTask) (e e' : Engine B) : StagingTask :=
  { v with
    mine := (range e'.retained.length).filter fun n =>
      (n ∈ v.mine ∨ e.retained[n]? ≠ e'.retained[n]?) ∧ e'.leased? n = none }

def stagingSurroundings (cfg : Config B) : Surroundings (signature B) StagingTask Fate Unit :=
  cellSurroundings cfg StagingTask StagingTask.aborted (fun v => { v with aborted := true })
    (fun _ v _ _ => v) StagingTask.wrote (fun v _ _ => v)

variable {e : Engine B}

theorem mem_wrote {v : StagingTask} {e' : Engine B} {n : ℕ} : n ∈ (v.wrote e e').mine ↔
      n < e'.retained.length ∧ (n ∈ v.mine ∨ e.retained[n]? ≠ e'.retained[n]?) ∧ e'.leased? n = none := by
  unfold StagingTask.wrote
  rw [mem_filter, mem_range, decide_eq_true_eq]

variable {r : Retained B}

theorem leased?_eq_some {n : ℕ} : e.leased? n = some r ↔ e.retained[n]? = some r ∧ r.leased = true := by
  unfold Engine.leased?
  rw [filter_eq_some_iff]

/-- What a task owns is there and is not out. -/
def StagingTask.Owns (e : Engine B) (v : StagingTask) : Prop :=
  ∀ n ∈ v.mine, ∃ r, e.retained[n]? = some r ∧ r.leased = false

/-- What a task may write: its own stagings, those that are out, and new ones. -/
structure StagingWrite (m : View (signature B) StagingTask) (e' : Engine B) : Prop where
  inv : StagingInv e'
  lead : m.store.RecordsLead e'
  appended : ∀ n ∈ m.store.appended, n ∈ e'.appended
  touched : ∀ n r, m.store.retained[n]? = some r → e'.retained[n]? ≠ some r → n ∈ m.own.mine ∨ r.leased = true

/-- What a task may rely on: nobody else writes what it owns. -/
structure StagingRely (m m' : View (signature B) StagingTask) : Prop where
  mine : ∀ n, n ∈ m'.own.mine ↔ n ∈ m.own.mine
  kept : ∀ n ∈ m.own.mine, m'.store.retained[n]? = m.store.retained[n]?
  lead : m.store.RecordsLead m'.store
  appended : ∀ n ∈ m.store.appended, n ∈ m'.store.appended

theorem StagingRely.refl (m : StagingView B) : StagingRely m m :=
  ⟨fun _ => Iff.rfl, fun _ _ => rfl, .refl _, fun _ h => h⟩

theorem StagingRely.trans {m₁ m₂ m₃ : StagingView B} (h : StagingRely m₁ m₂)
    (h' : StagingRely m₂ m₃) : StagingRely m₁ m₃ := by
  refine ⟨fun k => (h'.mine k).trans (h.mine k), fun k hk => ?_, h.lead.trans h'.lead,
    fun k hk => h'.appended k (h.appended k hk)⟩
  rw [h'.kept k ((h.mine k).mpr hk), h.kept k hk]

inductive StagingOutcome where
  /-- `cancelAtomicCellPut` has returned. -/
  | cancelled (n : ℕ) (won : Bool)
  /-- `commitAtomicCellPut` has returned a result. -/
  | committed (n : ℕ) (replay : Bool)
  | other
  deriving DecidableEq

/-- A cancel that returns `true` has cancelled its authority, a commit that returns a result which is
not a replay has appended its frame, and one that returns a replay has taken its authority back. -/
def StagingOutcome.Final : StagingOutcome → Engine B → Prop
  | .cancelled n true, e => ∃ r, e.retained[n]? = some r ∧ r.phase = .cancelled
  | .committed n false, e => n ∈ e.appended
  | .committed n true, e => ∃ r, e.retained[n]? = some r ∧ r.phase = .staged ∧ r.leased = false
  | _, _ => True

theorem StagingOutcome.Final.mono {a : StagingOutcome} {e' : Engine B} (h : a.Final e)
    (hlead : e.RecordsLead e') (happended : ∀ n ∈ e.appended, n ∈ e'.appended) : a.Final e' := by
  match a, h with
  | .cancelled n true, ⟨r, hr, hphase⟩ =>
    obtain ⟨r', hr', hleads⟩ := hlead n r hr
    exact ⟨r', hr', hleads.phase.cancelled hphase⟩
  | .cancelled n false, _ => trivial
  | .committed n false, h => exact happended n h
  | .committed n true, ⟨r, hr, hspent⟩ =>
    obtain ⟨r', hr', hleads⟩ := hlead n r hr
    exact ⟨r', hr', hleads.spent hspent⟩
  | .other, _ => trivial

section Contract

variable {m n : StagingView B} {e' : Engine B}

theorem StagingWrite.untouched (hw : StagingWrite m e') (hstore : n.store = m.store)
    (hapart : m.own.mine.Disjoint n.own.mine) (howns : n.own.Owns n.store) {k : ℕ}
    (hk : k ∈ n.own.mine) : e'.retained[k]? = m.store.retained[k]? := by
  obtain ⟨r, hr, hleased⟩ := howns k hk
  rw [hstore] at hr
  rw [hr]
  by_contra hne
  rcases hw.touched k r hr hne with hmine | hout
  · exact hapart hmine hk
  · exact nomatch hleased.symm.trans hout

theorem StagingTask.owns_wrote (v : StagingTask) (e e' : Engine B) : (v.wrote e e').Owns e' := by
  intro k hk
  obtain ⟨hlt, -, hout⟩ := mem_wrote.mp hk
  obtain ⟨r, hr⟩ : ∃ r, e'.retained[k]? = some r := ⟨_, getElem?_eq_getElem hlt⟩
  refine ⟨r, hr, ?_⟩
  by_contra hleased
  rw [Bool.not_eq_false] at hleased
  exact nomatch hout.symm.trans (leased?_eq_some.mpr ⟨hr, hleased⟩)

theorem StagingWrite.apart (hw : StagingWrite m e') (hstore : n.store = m.store)
    (hapart : m.own.mine.Disjoint n.own.mine) (howns : n.own.Owns n.store) :
    (m.own.wrote m.store e').mine.Disjoint n.own.mine := by
  intro k hk hk'
  obtain ⟨-, hmine | htouched, -⟩ := mem_wrote.mp hk
  · exact hapart hmine hk'
  · exact htouched (hw.untouched hstore hapart howns hk').symm

theorem StagingWrite.rely (hw : StagingWrite m e') (hstore : n.store = m.store)
    (hapart : m.own.mine.Disjoint n.own.mine) (howns : n.own.Owns n.store) :
    StagingRely n (n.on e') := by
  refine ⟨fun _ => Iff.rfl, fun k hk => ?_, ?_, ?_⟩
  · rw [hstore]
    exact hw.untouched hstore hapart howns hk
  · rw [hstore]
    exact hw.lead
  · rw [hstore]
    exact hw.appended

theorem sameStaging_settle {cfg : Config B} {r : WalRequest B} {f : Fate}
    {reply : Except Failure Unit} (h : settleRequest cfg e r f = some (e', reply)) :
    SameStaging e e' := by
  rcases settleRequest_eq_some h with ⟨state, -, rfl, -⟩ | ⟨error, -, rfl | rfl⟩
  · exact ⟨rfl, rfl, rfl, rfl, rfl, rfl⟩
  · exact .refl _
  · exact ⟨rfl, rfl, rfl, rfl, rfl, rfl⟩

theorem SameStaging.lead (h : SameStaging e e') : e.RecordsLead e' := by
  intro k r hk
  rw [h.retained]
  exact ⟨r, hk, .refl r⟩

theorem SameStaging.rely (h : SameStaging e e') (hn : n.store = e) : StagingRely n (n.on e') := by
  subst hn
  refine ⟨fun _ => Iff.rfl, fun k _ => ?_, h.lead, fun k hk => ?_⟩
  · show e'.retained[k]? = _
    rw [h.retained]
  · show k ∈ e'.appended
    rw [h.appended]
    exact hk

theorem StagingTask.Owns.congr {v : StagingTask} (h : v.Owns e) (hsame : SameStaging e e') : v.Owns e' := by
  unfold StagingTask.Owns
  rw [hsame.retained]
  exact h

end Contract

def stagingDiscipline (cfg : Config B) : Discipline (stagingSurroundings cfg) StagingOutcome where
  inv := StagingInv
  loc e v := v.Owns e
  apart v w := v.mine.Disjoint w.mine
  rely := StagingRely
  writable := StagingWrite
  enqueue _ _ := True
  permits _ _ := True
  post a m := a.Final m.store
  final a e := a.Final e
  apart_symm h := fun _ hk hk' => h hk' hk
  rely_refl := .refl
  rely_trans := .trans
  asked _ _ _ hloc := ⟨hloc, fun _ h => h⟩
  write_own _ _ hw := ⟨hw.inv, StagingTask.owns_wrote _ _ _, fun _ h => h.mono hw.lead hw.appended⟩
  write_other _ _ hw hn _ hapart hloc := by
    refine ⟨fun k hk => ?_, hw.rely hn hapart hloc, hw.apart hn hapart hloc⟩
    rw [hw.untouched hn hapart hloc hk, ← hn]
    exact hloc k hk
  settle_own hinv hloc _ h := by
    have hsame := sameStaging_settle h
    refine ⟨hinv.congr hsame, hloc.congr hsame, fun a ha => ha.mono hsame.lead fun k hk => ?_⟩
    rw [hsame.appended]
    exact hk
  settle_other _ _ _ h hn _ hapart hloc := by
    have hsame := sameStaging_settle h
    rw [hn] at hloc
    exact ⟨hloc.congr hsame, hsame.rely hn, hapart⟩
  eject _ hloc _ _ := ⟨hloc, fun _ h => h⟩
  enqueue_stable _ _ _ _ _ := trivial
  changed _ hloc _ :=
    ⟨hloc, ⟨fun _ => Iff.rfl, fun _ _ => rfl, .refl _, fun _ h => h⟩, fun _ h => h⟩
  post_final h := h

/-! ### Operations that leave the stagings alone -/

/-- A program that writes nothing the stagings are about. -/
def LeavesStaging {α : Type} : Prog (signature B) α → Prop
  | .ret _ => True
  | .read next => ∀ e, LeavesStaging (next e)
  | .write update next => (∀ e, SameStaging e (update e)) ∧ LeavesStaging next
  | .ask _ next => ∀ a, LeavesStaging (next a)
  | .yield next => LeavesStaging next
  | .acquire _ next => LeavesStaging next
  | .release _ next => LeavesStaging next
  | .append _ next => ∀ reply, LeavesStaging (next reply)

section Specs

variable {cfg : Config B} {α : Type} {m m' : StagingView B}

/-- A view in which the invariant holds. -/
structure GoodView (m : View (signature B) StagingTask) : Prop where
  inv : StagingInv m.store
  owns : m.own.Owns m.store

/-- The view of a task that has left the stagings alone, whatever the others did. -/
structure Kept (m m' : View (signature B) StagingTask) : Prop where
  good : GoodView m'
  rely : StagingRely m m'

/-- The view of a task that may have done something to stagings. -/
structure Progress (m m' : View (signature B) StagingTask) : Prop where
  good : GoodView m'
  lead : m.store.RecordsLead m'.store
  appended : ∀ n ∈ m.store.appended, n ∈ m'.store.appended

theorem Kept.trans {m₁ m₂ m₃ : StagingView B} (h : Kept m₁ m₂)
    (h' : Kept m₂ m₃) : Kept m₁ m₃ := ⟨h'.good, h.rely.trans h'.rely⟩

theorem Kept.progress (h : Kept m m') : Progress m m' := ⟨h.good, h.rely.lead, h.rely.appended⟩

theorem Progress.refl (h : GoodView m) : Progress m m := ⟨h, .refl _, fun _ h => h⟩

theorem Progress.trans {m₁ m₂ m₃ : StagingView B} (h : Progress m₁ m₂)
    (h' : Progress m₂ m₃) : Progress m₁ m₃ :=
  ⟨h'.good, h.lead.trans h'.lead, fun k hk => h'.appended k (h.appended k hk)⟩

theorem kept_of_later (h : (stagingDiscipline cfg).Later m m') : Kept m m' :=
  ⟨⟨h.inv, h.loc⟩, h.rely⟩

variable {e' : Engine B}

theorem kept_of_sameRetained (cfg : Config B) (hm : GoodView m) (hinv : StagingInv e')
    (hretained : e'.retained = m.store.retained)
    (happended : ∀ n ∈ m.store.appended, n ∈ e'.appended) :
    StagingWrite m e' ∧ Kept m (m.write (stagingSurroundings cfg) e') := by
  have hlead : m.store.RecordsLead e' := by
    intro k r hk
    rw [hretained]
    exact ⟨r, hk, .refl r⟩
  constructor
  · refine ⟨hinv, hlead, happended, fun k r hr hne => ?_⟩
    rw [hretained] at hne
    exact absurd hr hne
  · refine ⟨⟨hinv, StagingTask.owns_wrote _ _ _⟩, ⟨fun k => ?_, fun k _ => ?_, hlead, happended⟩⟩
    · refine mem_wrote.trans ⟨?_, fun hk => ?_⟩
      · rintro ⟨-, hmine | htouched, -⟩
        · exact hmine
        · rw [hretained] at htouched
          exact absurd rfl htouched
      · obtain ⟨r, hr, hleased⟩ := hm.owns k hk
        rw [hretained]
        refine ⟨(List.getElem?_eq_some_iff.mp hr).1, .inl hk, ?_⟩
        rw [eq_none_iff_forall_ne_some]
        intro r' hr'
        obtain ⟨hr'', hout⟩ := leased?_eq_some.mp hr'
        rw [hretained, hr] at hr''
        rw [← some.inj hr'', hleased] at hout
        exact nomatch hout
    · show e'.retained[k]? = _
      rw [hretained]

theorem kept_of_sameStaging (cfg : Config B) (hm : GoodView m) (h : SameStaging m.store e') :
    StagingWrite m e' ∧ Kept m (m.write (stagingSurroundings cfg) e') := by
  refine kept_of_sameRetained cfg hm (hm.inv.congr h) h.retained fun k hk => ?_
  rw [h.appended]
  exact hk

/-- A task owns a staging, and this is its record. -/
structure Mine (n : ℕ) (r : Retained B) (m : View (signature B) StagingTask) : Prop where
  mem : n ∈ m.own.mine
  record : m.store.retained[n]? = some r

theorem Kept.mine {n : ℕ} (h : Kept m m') (hmine : Mine n r m) : Mine n r m' :=
  ⟨(h.rely.mine n).mpr hmine.mem, (h.rely.kept n hmine.mem).trans hmine.record⟩

theorem Mine.leased {n : ℕ} (h : Mine n r m) (hm : GoodView m) : r.leased = false := by
  obtain ⟨r', hr', hleased⟩ := hm.owns n h.mem
  rw [h.record] at hr'
  rw [some.inj hr']
  exact hleased

theorem write_record (cfg : Config B) {n : ℕ} {f : Retained B → Retained B}
    (hw : WritesRecord m.store e' n f) (hr : m.store.retained[n]? = some r)
    (howner : n ∈ m.own.mine ∨ r.leased = true) (hinv : StagingInv e') (hlead : r.Leads (f r)) :
    StagingWrite m e' ∧ Progress m (m.write (stagingSurroundings cfg) e') ∧
      ((f r).leased = false → Mine n (f r) (m.write (stagingSurroundings cfg) e')) := by
  have hleads := hw.lead hr hlead
  have happended : ∀ k ∈ m.store.appended, k ∈ e'.appended := by
    rw [hw.appended]
    exact fun _ h => h
  have hn : e'.retained[n]? = some (f r) := (hw.get? hr n).trans (if_pos rfl)
  refine ⟨⟨hinv, hleads, happended, fun k rk hrk hne => ?_⟩,
    ⟨⟨hinv, StagingTask.owns_wrote _ _ _⟩, hleads, happended⟩, fun hleased => ⟨?_, hn⟩⟩
  · by_cases hk : k = n
    · rw [hk, hr] at hrk
      rw [hk, ← some.inj hrk]
      exact howner
    · rw [hw.get? hr, if_neg hk] at hne
      exact absurd hrk hne
  · refine mem_wrote.mpr ⟨(List.getElem?_eq_some_iff.mp hn).1, ?_, ?_⟩
    · rcases howner with hmine | hout
      · exact .inl hmine
      · refine .inr fun hsame => ?_
        have hsame' := hr.symm.trans (hsame.trans hn)
        rw [some.inj hsame', hleased] at hout
        exact nomatch hout
    · rw [eq_none_iff_forall_ne_some]
      intro r' hr'
      obtain ⟨hr'', hout⟩ := leased?_eq_some.mp hr'
      rw [hn] at hr''
      rw [← some.inj hr'', hleased] at hout
      exact nomatch hout

theorem wp_of_leaves {p : Prog (signature B) α} {Q : α → StagingView B → Prop}
    (hp : LeavesStaging p) (hm : GoodView m) (hQ : ∀ a m', Kept m m' → Q a m') :
    wp (stagingDiscipline cfg).logic p Q m := by
  induction p generalizing m with
  | ret a => exact hQ a m ⟨hm, .refl m⟩
  | read next ih => exact ih _ (hp _) hm hQ
  | write update next ih =>
    obtain ⟨hwrite, hkept⟩ := kept_of_sameStaging cfg hm (hp.1 m.store)
    exact ⟨hwrite, ih hp.2 hkept.good fun a m' hm' => hQ a m' (hkept.trans hm')⟩
  | ask q next ih =>
    rintro a m' ⟨-, rfl⟩
    exact ih a (hp a) hm hQ
  | yield next ih =>
    intro m₁ hm₁
    have hkept := kept_of_later hm₁
    exact ih hp hkept.good fun a m' hm' => hQ a m' (hkept.trans hm')
  | acquire keys next ih =>
    rintro m' ⟨m₁, hm₁, -, rfl⟩
    have hkept := kept_of_later hm₁
    have hgood : GoodView (m₁.acquire keys) := ⟨hkept.good.inv, hkept.good.owns⟩
    refine ih hp hgood fun a m' hm' => hQ a m' (hkept.trans ⟨hm'.good, ?_⟩)
    exact ⟨hm'.rely.mine, hm'.rely.kept, hm'.rely.lead, hm'.rely.appended⟩
  | release keys next ih =>
    have hgood : GoodView (m.release keys) := ⟨hm.inv, hm.owns⟩
    refine ih hp hgood fun a m' hm' => hQ a m' ⟨hm'.good, ?_⟩
    exact ⟨hm'.rely.mine, hm'.rely.kept, hm'.rely.lead, hm'.rely.appended⟩
  | append r next ih =>
    refine ⟨trivial, ?_⟩
    rintro reply m₃ ⟨m₁, hm₁, ⟨f, s, hsettle, hm₃⟩ | ⟨-, hm₃⟩⟩
    · have hkept := kept_of_later hm₁
      have hsame := sameStaging_settle hsettle
      have hrely : StagingRely m₁ (m₁.reply (stagingSurroundings cfg) s r reply) := by
        obtain ⟨h₁, h₂, h₃, h₄⟩ := hsame.rely (n := m₁) rfl
        exact ⟨h₁, h₂, h₃, h₄⟩
      have hthird := kept_of_later hm₃
      exact ih reply (hp reply) hthird.good fun a m' hm' =>
        hQ a m' (hkept.trans ⟨hm'.good, hrely.trans (hthird.rely.trans hm'.rely)⟩)
    · have hkept := kept_of_later hm₁
      have hthird := kept_of_later hm₃
      have hrely : StagingRely m₁ (m₁.reply (stagingSurroundings cfg) m₁.store r reply) :=
        ⟨fun _ => Iff.rfl, fun _ _ => rfl, .refl _, fun _ h => h⟩
      exact ih reply (hp reply) hthird.good fun a m' hm' =>
        hQ a m' (hkept.trans ⟨hm'.good, hrely.trans (hthird.rely.trans hm'.rely)⟩)

end Specs

section Leaves

variable {α β : Type}

theorem leaves_bind {p : Prog (signature B) α} {f : α → Prog (signature B) β}
    (hp : LeavesStaging p) (hf : ∀ a, LeavesStaging (f a)) : LeavesStaging (p.bind f) := by
  induction p with
  | ret a => exact hf a
  | read next ih => exact fun e => ih e (hp e)
  | write update next ih => exact ⟨hp.1, ih hp.2⟩
  | ask q next ih => exact fun a => ih a (hp a)
  | yield next ih | acquire keys next ih | release keys next ih => exact ih hp
  | append r next ih => exact fun reply => ih reply (hp reply)

variable {p : CellOp B α}

theorem leaves_op_bind {f : α → CellOp B β} (hp : LeavesStaging p)
    (hf : ∀ a, LeavesStaging (f a)) : LeavesStaging (p >>= f : CellOp B β) := by
  refine leaves_bind hp fun r => ?_
  cases r with
  | ok a => exact hf a
  | error e => trivial

theorem leaves_withLocks {keys : List (LockKey B)} (hp : LeavesStaging p) : LeavesStaging (withLocks keys p) :=
  leaves_bind hp fun _ => trivial

theorem leaves_ite {c : Prop} [Decidable c] {q : CellOp B α} (hp : c → LeavesStaging p)
    (hq : ¬ c → LeavesStaging q) : LeavesStaging (if c then p else q : CellOp B α) := by
  by_cases hc : c
  · rw [if_pos hc]
    exact hp hc
  · rw [if_neg hc]
    exact hq hc

theorem leaves_pure (a : α) : LeavesStaging (pure a : CellOp B α) := trivial

theorem leaves_fail (error : Failure) : LeavesStaging (fail error : CellOp B α) := trivial

theorem leaves_ofExcept (x : Except Failure α) : LeavesStaging (Op.ofExcept x : CellOp B α) :=
  trivial

theorem leaves_engine : LeavesStaging (engine : CellOp B (Engine B)) := fun _ => trivial

theorem leaves_ask (q : Query) : LeavesStaging (ask q : CellOp B (q.Answer B)) := fun _ => trivial

theorem leaves_await (q : Query) : LeavesStaging (await q : CellOp B (q.Answer B)) :=
  fun _ => trivial

theorem leaves_append (r : WalRequest B) :
    LeavesStaging (Op.append (S := signature B) r : CellOp B (Except Failure Unit)) :=
  fun _ => trivial

theorem leaves_nowUnixMillis : LeavesStaging (nowUnixMillis : CellOp B ℕ) :=
  leaves_op_bind (leaves_ask .now) fun _ => leaves_ofExcept _

theorem leaves_assertPutLive : LeavesStaging (assertPutLive : CellOp B Unit) := by
  refine leaves_op_bind (leaves_ask .aborted) fun (aborted : Bool) => ?_
  exact leaves_ite (fun _ => leaves_fail _) fun _ => leaves_pure ()

theorem leaves_assertWritable (leaseMutation : Bool) :
    LeavesStaging (assertWritable leaseMutation : CellOp B Unit) := by
  refine leaves_op_bind leaves_engine fun e => ?_
  split
  · exact leaves_fail _
  · exact leaves_ite (fun _ => leaves_fail _) fun _ => leaves_pure ()

theorem leaves_assertAdmitting : LeavesStaging (assertAdmitting : CellOp B Unit) :=
  leaves_op_bind leaves_engine fun _ => leaves_ite (fun _ => leaves_fail _) fun _ => leaves_pure ()

theorem leaves_discardStaged : LeavesStaging (B := B) discardStaged :=
  leaves_op_bind (leaves_await .discardStaged) fun _ => leaves_ofExcept _

theorem leaves_appendAndApply (transactionId : B) (virtualBucket : ℕ) (payload : Payload B) (fenced : Bool) :
    LeavesStaging (appendAndApply transactionId virtualBucket payload fenced : CellOp B Unit) := by
  refine leaves_op_bind (leaves_ofExcept _) fun _ => leaves_op_bind (leaves_append _) fun _ => ?_
  refine leaves_op_bind (leaves_ofExcept _) fun _ => ?_
  refine leaves_ite (fun _ => ?_) fun _ => leaves_pure ()
  exact leaves_op_bind (leaves_await .acknowledged) fun _ => leaves_ofExcept _

theorem leaves_refreshClockLocked (observedEpoch : ℕ) :
    LeavesStaging (refreshClockLocked observedEpoch : CellOp B ClockReport) := by
  refine leaves_op_bind leaves_engine fun e => ?_
  refine leaves_ite (fun _ => leaves_pure _) fun _ => leaves_ite (fun _ => leaves_pure _) fun _ => ?_
  refine leaves_ite (fun _ => ?_) fun _ => ?_
  · exact leaves_op_bind (leaves_ask .transactionId) fun _ =>
      leaves_op_bind (leaves_appendAndApply _ _ _ _) fun _ =>
        leaves_op_bind leaves_engine fun _ => leaves_pure _
  · exact leaves_op_bind (leaves_ask .transactionId) fun _ =>
      leaves_op_bind (leaves_appendAndApply _ _ _ _) fun _ =>
        leaves_op_bind leaves_engine fun _ => leaves_pure _

theorem leaves_refreshClock : LeavesStaging (refreshClock : CellOp B ClockReport) := by
  refine leaves_op_bind leaves_engine fun e => leaves_ite (fun _ => leaves_pure _) fun _ => ?_
  refine leaves_op_bind (leaves_ask .now) fun _ => leaves_op_bind (leaves_ofExcept _) fun epoch => ?_
  exact leaves_withLocks (leaves_refreshClockLocked epoch)

end Leaves

end HiveRelay.Cell
