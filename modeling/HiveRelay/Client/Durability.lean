import HiveRelay.Lib.Bytes
import HiveRelay.Lib.Guard
import HiveRelay.Lib.OrderedMap

/-!
# Evidence of durability

A client notes what the relays that it stored a value with have shown: that they acknowledged it, that it was
read back, who operates them. A label sums this up. What is noted only grows, and its order does not matter.
The label goes down in one case: a second relay acknowledges before any is read back.

## Main definitions

* `Slips` — a call that takes a label down
* `Describes` — an entry is what the calls have shown

## Main results

* `rank_lt_iff` — when a label goes down
* `durability_evidence` — evidence grows, in any order
-/

namespace HiveRelay.Client

open OrderedMap List Option

/-! ### The tracker -/

structure Replica where
  continuityRoot : Bytes
  (acknowledged readbackVerified externallyWitnessed : Bool)
  operatorGroupId : Option Bytes

structure Evidence where
  (acknowledged readbackVerified externallyWitnessed : Bool)
  operatorGroupId : Option Bytes

inductive Label where
  | localQueued
  | remoteStored
  | remoteReadbackVerified
  | replicated
  | resilientMultiOperator
deriving DecidableEq

/-- The place of a label in their order. -/
def Label.rank : Label → ℕ
  | .localQueued => 0
  | .remoteStored => 1
  | .remoteReadbackVerified => 2
  | .replicated => 3
  | .resilientMultiOperator => 4

structure Status where
  remoteStored : Bool
  (acknowledgedReplicas readbackReplicas qualifiedIndependentOperators externallyWitnessedReplicas : ℕ)
  label : Label

abbrev Replicas : Type := OrderedMap Bytes Replica

abbrev Records : Type := OrderedMap Bytes Replicas

def replicasOf (records : Records) (logicalId : Bytes) : Replicas := (records.get? logicalId).getD .empty

def labelOf (stored readback operators : ℕ) : Label :=
  if 3 ≤ readback ∧ 2 ≤ operators then .resilientMultiOperator
  else if 2 ≤ readback then .replicated
  else if readback = 1 then .remoteReadbackVerified
  else if stored = 1 then .remoteStored
  else .localQueued

def operatorGroups (replicas : Replicas) : Finset Bytes :=
  ((replicas.values.filter (·.readbackVerified)).filterMap (·.operatorGroupId)).toFinset

def statusOf (replicas : Replicas) : Status :=
  let stored := replicas.values.countP (·.acknowledged)
  let readback := replicas.values.countP (·.readbackVerified)
  let operators := (operatorGroups replicas).card
  { remoteStored := decide (1 ≤ stored)
    acknowledgedReplicas := stored
    readbackReplicas := readback
    qualifiedIndependentOperators := operators
    externallyWitnessedReplicas := replicas.values.countP fun r => r.readbackVerified && r.externallyWitnessed
    label := labelOf stored readback operators }

def statusByKey (records : Records) (logicalId : Bytes) : Status := statusOf (replicasOf records logicalId)

/-- The replica with the evidence added. Its flags stay set. -/
def merged (previous : Option Replica) (root : Bytes) (evidence : Evidence) : Replica :=
  let readbackVerified := previous.any (·.readbackVerified) || evidence.readbackVerified
  { continuityRoot := root
    acknowledged := previous.any (·.acknowledged) || evidence.acknowledged || readbackVerified
    readbackVerified
    externallyWitnessed := previous.any (·.externallyWitnessed) || evidence.externallyWitnessed
    operatorGroupId := evidence.operatorGroupId.or (previous.bind (·.operatorGroupId)) }

def SameGroup (previous : Option Replica) (evidence : Evidence) : Prop :=
  ∀ old ∈ previous.bind (·.operatorGroupId), ∀ new ∈ evidence.operatorGroupId, old = new
  deriving Decidable

def mergeEvidence (previous : Option Replica) (root : Bytes) (evidence : Evidence) : Except String Replica := do
  require (∀ group ∈ evidence.operatorGroupId, group.length = 32) "operatorGroupId must be exactly 32 bytes"
  require (SameGroup previous evidence) "durability operator-group evidence changed for one continuity root"
  return merged previous root evidence

/-- The arguments of `observe`. An endpoint that is verified has a continuity root. -/
structure Call where
  logicalId : Bytes
  endpoint : Option Bytes
  evidence : Evidence

/-- `observe`, whose failures are `BAD_CLIENT_INPUT`. A record is made before the evidence is looked at. -/
def observe (records : Records) (c : Call) : Except String Status × Records :=
  if c.logicalId.length ≠ 32 then (.error "logicalId must be exactly 32 bytes", records)
  else
    match c.endpoint with
    | none => (.error "a VerifiedEndpoint is required", records)
    | some root =>
      let replicas := replicasOf records c.logicalId
      match mergeEvidence (replicas.get? root) root c.evidence with
      | .error failure => (.error failure, records.set c.logicalId replicas)
      | .ok replica =>
        let records := records.set c.logicalId (replicas.set root replica)
        (.ok (statusByKey records c.logicalId), records)

/-- What is noted after calls. -/
def observed (calls : List Call) : Records := calls.foldl (fun records c => (observe records c).2) .empty

/-- The call is not refused. -/
structure Accepts (records : Records) (c : Call) (root : Bytes) : Prop where
  length_logicalId : c.logicalId.length = 32
  endpoint : c.endpoint = some root
  length_group : ∀ group ∈ c.evidence.operatorGroupId, group.length = 32
  sameGroup : SameGroup ((replicasOf records c.logicalId).get? root) c.evidence

/-- A call acknowledges another replica without a read back, while one is acknowledged and none is read back. -/
def Slips (records : Records) (c : Call) : Prop :=
  ∃ root, Accepts records c root ∧ c.evidence.acknowledged = true ∧ c.evidence.readbackVerified = false ∧
    ((replicasOf records c.logicalId).get? root).any (·.acknowledged) = false ∧
    (statusByKey records c.logicalId).acknowledgedReplicas = 1 ∧
    (statusByKey records c.logicalId).readbackReplicas = 0

/-! ### A call -/

section Call

variable {records : Records} {c : Call} {id : Bytes}

theorem replicasOf_set (logicalId : Bytes) (replicas : Replicas) :
    replicasOf (records.set logicalId replicas) id = if id = logicalId then replicas else replicasOf records id := by
  rw [replicasOf, get?_set]
  split <;> rfl

/-- A call that is refused leaves the replicas; one that is accepted merges its evidence. -/
theorem observe_cases (records : Records) (c : Call) :
    (∃ failure, (observe records c).1 = .error failure) ∧ (∀ root, ¬ Accepts records c root) ∧
        (∀ id, replicasOf (observe records c).2 id = replicasOf records id) ∨
      ∃ root, Accepts records c root ∧ ∀ id, replicasOf (observe records c).2 id =
        if id = c.logicalId then (replicasOf records c.logicalId).set root
          (merged ((replicasOf records c.logicalId).get? root) root c.evidence)
        else replicasOf records id := by
  unfold observe
  split
  · next hlength => exact .inl ⟨⟨_, rfl⟩, fun root h => hlength h.length_logicalId, fun _ => rfl⟩
  · next hlength =>
    split
    · next hnone => exact .inl ⟨⟨_, rfl⟩, fun root h => (by cases hnone.symm.trans h.endpoint), fun _ => rfl⟩
    · next root hroot =>
      cases hmerge : mergeEvidence ((replicasOf records c.logicalId).get? root) root c.evidence with
      | error failure =>
        simp only [hmerge]
        refine .inl ⟨⟨_, rfl⟩, fun root' h => ?_, fun id => ?_⟩
        · obtain rfl : root = root' := mem_unique hroot h.endpoint
          rw [mergeEvidence, require, if_pos h.length_group, require, if_pos h.sameGroup] at hmerge
          cases hmerge
        · rw [replicasOf_set]
          split
          · next hid => rw [hid]
          · rfl
      | ok replica =>
        simp only [hmerge]
        simp only [mergeEvidence, guards_eq_ok] at hmerge
        obtain ⟨hgroup, hsame, rfl⟩ := hmerge
        exact .inr ⟨root, ⟨not_not.mp hlength, hroot, hgroup, hsame⟩, fun id => replicasOf_set _ _⟩

end Call

/-! ### Counts -/

section Counts

variable {m : Replicas} {root : Bytes} {v : Replica} {p : Replica → Bool}

theorem countP_values (m : Replicas) (root : Bytes) (p : Replica → Bool) :
    m.values.countP p = (m.delete root).values.countP p + ((m.get? root).any p).toNat := by
  cases h : m.get? root with
  | none => rw [delete_of_get?_eq_none h]; rfl
  | some old =>
    rw [values, ((entries_perm_of_get? h).map Prod.snd).countP_eq, map_cons, countP_cons,
      any_some]
    cases p old <;> rfl

theorem countP_values_set (m : Replicas) (root : Bytes) (v : Replica) (p : Replica → Bool) :
    (m.set root v).values.countP p = (m.delete root).values.countP p + (p v).toNat := by
  rw [countP_values _ root, get?_set_self]
  exact congrArg (· + _) ((delete_set.map Prod.snd).countP_eq p)

theorem mem_operatorGroups {group : Bytes} : group ∈ operatorGroups m ↔
    ∃ root r, m.get? root = some r ∧ r.readbackVerified = true ∧ r.operatorGroupId = some group := by
  simp only [operatorGroups, List.mem_toFinset, mem_filterMap, mem_filter, mem_values_iff]
  constructor
  · rintro ⟨r, ⟨⟨root, hr⟩, hread⟩, hgroup⟩
    exact ⟨root, r, hr, hread, hgroup⟩
  · rintro ⟨root, r, hr, hread, hgroup⟩
    exact ⟨r, ⟨⟨root, hr⟩, hread⟩, hgroup⟩

/-- A replica keeps its group: evidence names it again or names none. -/
theorem operatorGroupId_merged {previous : Option Replica} {evidence : Evidence} (hsame : SameGroup previous evidence)
    (group : Bytes) : (merged previous root evidence).operatorGroupId = some group ↔
      evidence.operatorGroupId = some group ∨ previous.bind (·.operatorGroupId) = some group := by
  unfold SameGroup at hsame
  unfold merged
  cases hnew : evidence.operatorGroupId with
  | none => simp
  | some new =>
    cases hold : previous.bind (·.operatorGroupId) with
    | none => simp
    | some old => simp [hsame old hold new hnew]

theorem operatorGroups_subset {evidence : Evidence} (hsame : SameGroup (m.get? root) evidence) :
    operatorGroups m ⊆ operatorGroups (m.set root (merged (m.get? root) root evidence)) := by
  intro group h
  obtain ⟨k, r, hr, hread, hgroup⟩ := mem_operatorGroups.mp h
  refine mem_operatorGroups.mpr ⟨k, ?_⟩
  by_cases hk : k = root
  · subst hk
    refine ⟨_, get?_set_self, ?_, (operatorGroupId_merged hsame group).mpr (.inr ?_)⟩
    · simp [merged, hr, hread]
    · rw [hr]
      exact hgroup
  · exact ⟨r, (get?_set_of_ne hk).trans hr, hread, hgroup⟩

/-- What is counted has not become less. -/
structure Status.Within (a b : Status) : Prop where
  acknowledged : a.acknowledgedReplicas ≤ b.acknowledgedReplicas
  readback : a.readbackReplicas ≤ b.readbackReplicas
  operators : a.qualifiedIndependentOperators ≤ b.qualifiedIndependentOperators

theorem within_merged {evidence : Evidence} (hsame : SameGroup (m.get? root) evidence) :
    (statusOf m).Within (statusOf (m.set root (merged (m.get? root) root evidence))) := by
  refine ⟨?_, ?_, Finset.card_le_card (operatorGroups_subset hsame)⟩
  · show m.values.countP _ ≤ (m.set root _).values.countP _
    rw [countP_values m root, countP_values_set]
    refine Nat.add_le_add_left (Bool.toNat_le_toNat ?_) _
    rw [merged, Bool.or_assoc]
    exact Bool.left_le_or _ _
  · show m.values.countP _ ≤ (m.set root _).values.countP _
    rw [countP_values m root, countP_values_set]
    exact Nat.add_le_add_left (Bool.toNat_le_toNat (Bool.left_le_or _ _)) _

theorem rank_labelOf_lt_iff {stored readback operators stored' readback' operators' : ℕ} (hr : readback ≤ readback')
    (ho : operators ≤ operators') :
    (labelOf stored' readback' operators').rank < (labelOf stored readback operators).rank ↔
      stored = 1 ∧ stored' ≠ 1 ∧ readback' = 0 := by
  unfold labelOf
  split_ifs <;> simp [Label.rank] <;> omega

/-- One replica is acknowledged and another count follows, exactly if a further one is acknowledged only. -/
theorem slips_counts_iff {others read : ℕ} {acknowledged readback acknowledges reads : Bool} :
    others + acknowledged.toNat = 1 ∧ others + (acknowledged || acknowledges || (readback || reads)).toNat ≠ 1 ∧
        read + (readback || reads).toNat = 0 ↔
      acknowledges = true ∧ reads = false ∧ acknowledged = false ∧ others + acknowledged.toNat = 1 ∧
        read + readback.toNat = 0 := by
  cases acknowledged <;> cases readback <;> cases acknowledges <;> cases reads <;> simp <;> omega

end Counts

/-! ### The label -/

section Label

variable {records : Records} {c : Call}

theorem within_observe (records : Records) (c : Call) (id : Bytes) :
    (statusByKey records id).Within (statusByKey (observe records c).2 id) := by
  have hsame : ∀ replicas, (statusOf replicas).Within (statusOf replicas) := fun _ => ⟨le_rfl, le_rfl, le_rfl⟩
  rw [statusByKey, statusByKey]
  obtain ⟨-, -, hkept⟩ | ⟨root, haccepts, hset⟩ := observe_cases records c
  · rw [hkept]
    exact hsame _
  · rw [hset]
    split
    · next hid =>
      rw [hid]
      exact within_merged haccepts.sameGroup
    · exact hsame _

/-- **The label goes down** with a call that slips, and with no other. -/
theorem rank_lt_iff (records : Records) (c : Call) (id : Bytes) :
    (statusByKey (observe records c).2 id).label.rank < (statusByKey records id).label.rank ↔
      c.logicalId = id ∧ Slips records c := by
  obtain ⟨-, hrefused, hkept⟩ | ⟨root, haccepts, hset⟩ := observe_cases records c
  · simp only [statusByKey, hkept, lt_irrefl, false_iff]
    rintro ⟨-, root, haccepts, -⟩
    exact hrefused root haccepts
  · by_cases hid : c.logicalId = id
    · subst hid
      set m := replicasOf records c.logicalId with hm
      have hwithin := within_merged haccepts.sameGroup
      have hslips : Slips records c ↔ c.evidence.acknowledged = true ∧ c.evidence.readbackVerified = false ∧
          (m.get? root).any (·.acknowledged) = false ∧ m.values.countP (·.acknowledged) = 1 ∧
          m.values.countP (·.readbackVerified) = 0 := by
        refine ⟨fun ⟨root', haccepts', h⟩ => ?_, fun h => ⟨root, haccepts, h⟩⟩
        obtain rfl := mem_unique haccepts.endpoint haccepts'.endpoint
        exact h
      rw [hslips, statusByKey, statusByKey, hset, if_pos rfl, ← hm]
      refine (rank_labelOf_lt_iff hwithin.readback hwithin.operators).trans ?_
      show m.values.countP _ = 1 ∧ (m.set root _).values.countP _ ≠ 1 ∧ (m.set root _).values.countP _ = 0 ↔ _
      rw [countP_values_set, countP_values_set, countP_values m root, countP_values m root]
      exact slips_counts_iff.trans (and_iff_right rfl).symm
    · simp only [statusByKey, hset, if_neg (Ne.symm hid), lt_irrefl, false_iff]
      exact fun h => hid h.1

end Label

/-! ### The order of the calls -/

/-- A call about a replica is among those that were made. -/
def Noted (calls : List Call) (id root : Bytes) (P : Evidence → Prop) : Prop :=
  ∃ c ∈ calls, (c.logicalId = id ∧ c.endpoint = some root) ∧ P c.evidence

/-- The replica is what was noted. -/
structure Describes (calls : List Call) (id root : Bytes) (r : Option Replica) : Prop where
  present : r.isSome = true ↔ Noted calls id root fun _ => True
  continuityRoot : ∀ x ∈ r, x.continuityRoot = root
  acknowledged : r.any (·.acknowledged) = true ↔
    Noted calls id root fun e => e.acknowledged = true ∨ e.readbackVerified = true
  readbackVerified : r.any (·.readbackVerified) = true ↔ Noted calls id root (·.readbackVerified = true)
  externallyWitnessed : r.any (·.externallyWitnessed) = true ↔ Noted calls id root (·.externallyWitnessed = true)
  operatorGroupId : ∀ group, r.bind (·.operatorGroupId) = some group ↔
    Noted calls id root (·.operatorGroupId = some group)

/-- Every call is accepted. -/
def Accepted (calls : List Call) : Prop :=
  ∀ pre c, pre ++ [c] <+: calls → ∃ status, (observe (observed pre) c).1 = .ok status

section Order

variable {calls calls' : List Call} {c : Call} {id root : Bytes} {r r' : Option Replica}

theorem observed_concat (calls : List Call) (c : Call) : observed (calls ++ [c]) = (observe (observed calls) c).2 := by
  rw [observed, foldl_append]
  rfl

theorem noted_concat {P : Evidence → Prop} : Noted (calls ++ [c]) id root P ↔
    Noted calls id root P ∨ (c.logicalId = id ∧ c.endpoint = some root) ∧ P c.evidence := by
  simp [Noted, or_and_right, exists_or]

theorem noted_congr (hsame : ∀ c, c ∈ calls ↔ c ∈ calls') {P : Evidence → Prop} :
    Noted calls id root P ↔ Noted calls' id root P :=
  exists_congr fun c => and_congr_left fun _ => hsame c

theorem Describes.other (h : Describes calls id root r) (hother : ¬ (c.logicalId = id ∧ c.endpoint = some root)) :
    Describes (calls ++ [c]) id root r := by
  have hconcat : ∀ P, Noted (calls ++ [c]) id root P ↔ Noted calls id root P := fun P =>
    noted_concat.trans (or_iff_left fun hnew => hother hnew.1)
  exact ⟨h.present.trans (hconcat _).symm, h.continuityRoot, h.acknowledged.trans (hconcat _).symm,
    h.readbackVerified.trans (hconcat _).symm, h.externallyWitnessed.trans (hconcat _).symm,
    fun group => (h.operatorGroupId group).trans (hconcat _).symm⟩

theorem Describes.merged (h : Describes calls id root r) (habout : c.logicalId = id ∧ c.endpoint = some root)
    (hsame : SameGroup r c.evidence) : Describes (calls ++ [c]) id root (some (merged r root c.evidence)) := by
  have hconcat : ∀ P, Noted (calls ++ [c]) id root P ↔ Noted calls id root P ∨ P c.evidence := fun P =>
    noted_concat.trans (or_congr_right (and_iff_right habout))
  have hread := h.readbackVerified
  have hacknowledged := h.acknowledged
  have hmono : (Noted calls id root fun e => e.readbackVerified = true) →
      Noted calls id root fun e => e.acknowledged = true ∨ e.readbackVerified = true :=
    fun ⟨c, hc, habout, hreads⟩ => ⟨c, hc, habout, .inr hreads⟩
  refine ⟨by simp [hconcat], by rintro x ⟨⟩; rfl, ?_, ?_, ?_, fun group => ?_⟩
  · simp only [any_some, Client.merged, Bool.or_eq_true, hacknowledged, hread, hconcat]
    tauto
  · simp only [any_some, Client.merged, Bool.or_eq_true, hread, hconcat]
  · simp only [any_some, Client.merged, Bool.or_eq_true, h.externallyWitnessed, hconcat]
  · exact ((operatorGroupId_merged hsame group).trans
      ((or_congr_right (h.operatorGroupId group)).trans or_comm)).trans (hconcat _).symm

theorem Describes.unique (h : Describes calls id root r) (h' : Describes calls' id root r')
    (hsame : ∀ c, c ∈ calls ↔ c ∈ calls') : r = r' := by
  have hgroup : r.bind (·.operatorGroupId) = r'.bind (·.operatorGroupId) := ext fun group =>
    (h.operatorGroupId group).trans ((noted_congr hsame).trans (h'.operatorGroupId group).symm)
  have hpresent := Bool.eq_iff_iff.mpr (h.present.trans ((noted_congr hsame).trans h'.present.symm))
  have hacknowledged := Bool.eq_iff_iff.mpr (h.acknowledged.trans ((noted_congr hsame).trans h'.acknowledged.symm))
  have hread := Bool.eq_iff_iff.mpr
    (h.readbackVerified.trans ((noted_congr hsame).trans h'.readbackVerified.symm))
  have hwitnessed := Bool.eq_iff_iff.mpr
    (h.externallyWitnessed.trans ((noted_congr hsame).trans h'.externallyWitnessed.symm))
  cases r with
  | none => exact (isSome_eq_false_iff.mp hpresent.symm |> isNone_iff_eq_none.mp).symm
  | some x =>
    obtain ⟨y, rfl⟩ := isSome_iff_exists.mp hpresent.symm
    have hroot := (h.continuityRoot x rfl).trans (h'.continuityRoot y rfl).symm
    cases x
    cases y
    simp_all

theorem accepted_nil : Accepted [] := fun pre c h => by simp at h

theorem accepted_concat :
    Accepted (calls ++ [c]) ↔ Accepted calls ∧ ∃ status, (observe (observed calls) c).1 = .ok status := by
  constructor
  · intro h
    exact ⟨fun pre c' hpre => h pre c' (hpre.trans (prefix_append _ _)), h calls c prefix_rfl⟩
  · rintro ⟨hcalls, hlast⟩ pre c' hpre
    rcases prefix_concat_iff.mp hpre with heq | hpre
    · obtain ⟨rfl, hc⟩ := append_inj' heq rfl
      obtain rfl : c' = c := by simpa using hc
      exact hlast
    · exact hcalls pre c' hpre

theorem describes_observed (haccepted : Accepted calls) (id root : Bytes) :
    Describes calls id root ((replicasOf (observed calls) id).get? root) := by
  induction calls using reverseRecOn with
  | nil =>
    have hnone : ∀ P, ¬ Noted [] id root P := fun _ ⟨_, hc, _⟩ => nomatch hc
    exact ⟨by simp [hnone, observed, replicasOf], nofun, by simp [hnone, observed, replicasOf],
      by simp [hnone, observed, replicasOf], by simp [hnone, observed, replicasOf],
      by simp [hnone, observed, replicasOf]⟩
  | append_singleton calls c ih =>
    obtain ⟨hcalls, status, hok⟩ := accepted_concat.mp haccepted
    have h := ih hcalls
    obtain ⟨⟨failure, herror⟩, -⟩ | ⟨root', haccepts, hset⟩ := observe_cases (observed calls) c
    · rw [herror] at hok
      cases hok
    · rw [observed_concat, hset]
      split
      · next hid =>
        subst hid
        by_cases hroot : root = root'
        · subst hroot
          rw [get?_set_self]
          exact h.merged ⟨rfl, haccepts.endpoint⟩ haccepts.sameGroup
        · rw [get?_set_of_ne hroot]
          exact h.other fun habout => hroot (mem_unique habout.2 haccepts.endpoint)
      · next hid => exact h.other fun habout => hid habout.1.symm

theorem statusOf_congr {m m' : Replicas} (h : ∀ root, m.get? root = m'.get? root) : statusOf m = statusOf m' := by
  have hvalues : m.values.Perm m'.values := (perm_of_get?_eq h).map Prod.snd
  have hgroups : operatorGroups m = operatorGroups m' := by
    ext group
    simp only [mem_operatorGroups, h]
  simp only [statusOf, hvalues.countP_eq, hgroups]

end Order

/-- **Evidence grows, and its label goes down when a call slips.** The label that is reported for an id goes
down in no step exactly if no call for the id acknowledges another replica, without a read back, while one is
acknowledged and none is read back. The replicas that are acknowledged, those that are read back and their
operators never become fewer. And calls that are accepted come to the same status in any order, however
often each is made. -/
theorem durability_evidence (calls : List Call) (id : Bytes) :
    ((∀ pre c, pre ++ [c] <+: calls → (statusByKey (observed pre) id).label.rank ≤
        (statusByKey (observed (pre ++ [c])) id).label.rank) ↔
      ∀ pre c, pre ++ [c] <+: calls → c.logicalId = id → ¬ Slips (observed pre) c) ∧
    (∀ pre c, pre ++ [c] <+: calls → (statusByKey (observed pre) id).Within
      (statusByKey (observed (pre ++ [c])) id)) ∧
    (Accepted calls → ∀ calls', Accepted calls' → (∀ c, c ∈ calls ↔ c ∈ calls') →
      statusByKey (observed calls) id = statusByKey (observed calls') id) := by
  refine ⟨forall_congr' fun pre => forall_congr' fun c => imp_congr_right fun _ => ?_, fun pre c _ => ?_,
    fun haccepted calls' haccepted' hsame => statusOf_congr fun root => ?_⟩
  · rw [observed_concat, ← not_lt, rank_lt_iff, not_and]
  · rw [observed_concat]
    exact within_observe _ c id
  · exact (describes_observed haccepted id root).unique (describes_observed haccepted' id root) hsame

/-- An acknowledgement of a value by a relay. -/
def acknowledgement (root : UInt8) : Call where
  logicalId := replicate 32 0x22
  endpoint := some (replicate 32 root)
  evidence := ⟨true, false, false, none⟩

/-- Two relays acknowledge a value, and one of them, of an operator, is read back. -/
def sampleCalls : List Call :=
  [acknowledgement 1, acknowledgement 2,
    { acknowledgement 1 with evidence := ⟨false, true, false, some (replicate 32 0x0f)⟩ }]

/-- In the other order the read back comes first, and the status is the same. -/
theorem durability_evidence_sample : Accepted sampleCalls ∧ Accepted sampleCalls.reverse ∧
    statusByKey (observed sampleCalls) (replicate 32 0x22) =
      statusByKey (observed sampleCalls.reverse) (replicate 32 0x22) ∧
    (statusByKey (observed sampleCalls) (replicate 32 0x22)).label = .remoteReadbackVerified := by
  have haccepted : Accepted sampleCalls :=
    accepted_concat.mpr ⟨accepted_concat.mpr ⟨accepted_concat.mpr ⟨accepted_nil, _, rfl⟩, _, rfl⟩, _, rfl⟩
  have haccepted' : Accepted sampleCalls.reverse :=
    accepted_concat.mpr ⟨accepted_concat.mpr ⟨accepted_concat.mpr ⟨accepted_nil, _, rfl⟩, _, rfl⟩, _, rfl⟩
  exact ⟨haccepted, haccepted', (durability_evidence sampleCalls _).2.2 haccepted _ haccepted'
    fun c => mem_reverse.symm, by decide +kernel⟩

/-- When a second relay has acknowledged, the label is that of a value that is queued locally. -/
theorem label_goes_down : ((observe (observed []) (acknowledgement 1)).1.map (·.label)).toOption = some .remoteStored ∧
    ((observe (observed [acknowledgement 1]) (acknowledgement 2)).1.map
      fun s => (s.label, s.remoteStored, s.acknowledgedReplicas)).toOption = some (.localQueued, true, 2) := by
  decide +kernel

end HiveRelay.Client
