import HiveRelay.Lib.OrderedMap
import Mathlib.Logic.Relation

/-!
# Maps that forget nothing

Between two states of a map no entry is lost, and each one has moved along a relation.
-/

namespace HiveRelay.OrderedMap

open Relation

variable {κ ν : Type} [DecidableEq κ] {m m' m'' : OrderedMap κ ν} {R : ν → ν → Prop} {k : κ} {v v' : ν}

/-- Every entry of `m` is in `m'`, some steps of `R` later. -/
def Advances (R : ν → ν → Prop) (m m' : OrderedMap κ ν) : Prop :=
  ∀ k v, m.get? k = some v → ∃ v', m'.get? k = some v' ∧ ReflTransGen R v v'

theorem Advances.refl (R : ν → ν → Prop) (m : OrderedMap κ ν) : m.Advances R m :=
  fun _ v h => ⟨v, h, .refl⟩

theorem Advances.trans (h : Advances R m m') (h' : Advances R m' m'') : Advances R m m'' := by
  intro k v hv
  obtain ⟨v', hv', hfirst⟩ := h k v hv
  obtain ⟨v'', hv'', hlater⟩ := h' k v' hv'
  exact ⟨v'', hv'', hfirst.trans hlater⟩

theorem advances_add (hfresh : m.get? k = none) : Advances R m (m.set k v) := by
  intro k' w hw
  refine ⟨w, (get?_set_of_ne ?_).trans hw, .refl⟩
  rintro rfl
  exact absurd (hfresh.symm.trans hw) nofun

theorem advances_set (hold : m.get? k = some v) (h : R v v') : Advances R m (m.set k v') := by
  intro k' w hw
  by_cases hkey : k' = k
  · subst hkey
    obtain rfl := Option.mem_unique hold hw
    exact ⟨v', get?_set_self, .single h⟩
  · exact ⟨w, (get?_set_of_ne hkey).trans hw, .refl⟩

/-- An entry with a value that has no step stays as it is. -/
theorem Advances.final (h : Advances R m m') (hv : m.get? k = some v) (hend : ∀ w, ¬ R v w) :
    m'.get? k = some v := by
  obtain ⟨w, hw, hsteps⟩ := h k v hv
  rcases hsteps.cases_head with rfl | ⟨u, hstep, -⟩
  · exact hw
  · exact absurd hstep (hend u)

end HiveRelay.OrderedMap
