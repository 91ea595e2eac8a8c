import HiveRelay.Capacity.StorageCap
import HiveRelay.Lib.Apportion

/-!
# Planning with a capacity profile

A profile divides what a filesystem may hold into pools. The planner keeps a reserve of its own, larger
than the one of the gate, and counts what is promised twice: as bytes of the durable pool and as bytes
that will be taken from what is free. So what it advertises is something the gate lets in.

A field that is left out is `none`, and one that is not a non-negative integer is `some none`.

## Main definitions

* `BudgetSpec`, `PlanSpec` — what a budget and a plan are

## Main results

* `exists_planCapacityBudget_iff` — when there is a budget
* `advertised_is_admitted` — the gate lets in what is advertised
-/

namespace HiveRelay.Storage

open Option HiveRelay.Except
open Codec (maxSafeInteger)
open JsString (ofText)

/-! ### Profiles -/

/-- `CAPACITY_POOL_IDS`. -/
inductive PoolId where
  | durable | serviceControl | repair | cache | burst
  deriving DecidableEq

/-- `CAPACITY_PROFILE_IDS`. -/
inductive ProfileId where
  | edgeCommunity | seederStandard | seederRegional | servicesS2 | archiveStorage

def ProfileId.text : ProfileId → String
  | edgeCommunity => "edge-community"
  | seederStandard => "seeder-standard"
  | seederRegional => "seeder-regional"
  | servicesS2 => "services-s2"
  | archiveStorage => "archive-storage"

/-- `PROFILE_WEIGHTS`, with the names of the pools. -/
def ProfileId.poolWeights : ProfileId → List (PoolId × ℕ)
  | edgeCommunity => [(.durable, 35), (.serviceControl, 10), (.repair, 10), (.cache, 30), (.burst, 15)]
  | seederStandard | seederRegional =>
    [(.durable, 60), (.serviceControl, 10), (.repair, 15), (.cache, 15), (.burst, 0)]
  | servicesS2 =>
    [(.durable, 8000), (.serviceControl, 0), (.repair, 2000), (.cache, 1500), (.burst, 1556)]
  | archiveStorage => [(.durable, 70), (.serviceControl, 5), (.repair, 20), (.cache, 5), (.burst, 0)]

inductive PlanError where
  | typeError (message : String)
  | rangeError (message : String)

def normalizeCapacityProfile (value : Option JsString) : Except PlanError ProfileId := do
  let name ← demand value (.typeError "capacity profile must be a string")
  demand ([ProfileId.edgeCommunity, .seederStandard, .seederRegional, .servicesS2, .archiveStorage].find?
    fun id => ofText id.text = Outbox.toLowerCase (Outbox.trim name))
    (.rangeError "unknown capacity profile")

/-! ### Numbers -/

abbrev Given : Type := Option (Option ℕ)

def byteCount (name : String) (value : Given) : Except PlanError ℕ :=
  demand (value.bind finiteNonNegativeInteger) (.typeError (name ++ " must be a finite, non-negative safe integer"))

/-- `byteCount` of a field that may be left out. -/
def optionalByteCount (name : String) : Given → Except PlanError (Option ℕ)
  | none => return none
  | value => do return some (← byteCount name value)

/-- `byteCount` of a field that is zero when it is left out. -/
def byteCountOrZero (name : String) (value : Given) : Except PlanError ℕ :=
  byteCount name (some (value.getD (some 0)))

def safeSum (name : String) (values : List ℕ) : Except PlanError ℕ :=
  if maxSafeInteger < values.sum then .error (.rangeError (name ++ " exceeds the safe integer range"))
  else .ok values.sum

variable {name : String}

@[simp] theorem byteCount_eq_ok {value : Given} {n : ℕ} :
    byteCount name value = .ok n ↔ value = some (some n) ∧ n ≤ maxSafeInteger := by
  simp [byteCount, bind_eq_some_iff]

@[simp] theorem optionalByteCount_eq_ok {value : Given} {o : Option ℕ} :
    optionalByteCount name value = .ok o ↔ value = o.map some ∧ ∀ n ∈ o, n ≤ maxSafeInteger := by
  cases value with
  | none => cases o <;> simp [optionalByteCount]
  | some given =>
    simp only [optionalByteCount, guards_eq_ok, byteCount_eq_ok]
    cases o <;> simp

@[simp] theorem safeSum_eq_ok {values : List ℕ} {n : ℕ} :
    safeSum name values = .ok n ↔ values.sum ≤ maxSafeInteger ∧ values.sum = n := by
  unfold safeSum
  split <;> simp <;> omega

/-! ### The budget -/

def capacityReserveBasisPoints : ℕ := 1500

def capacityReserveFloorBytes : ℕ := 32 * 1024 * 1024 * 1024

def reserveBytes (observedUsableBytes : ℕ) : ℕ :=
  if observedUsableBytes = 0 then 0
  else min observedUsableBytes
    (max capacityReserveFloorBytes (observedUsableBytes * capacityReserveBasisPoints / 10000))

def allocatePools (managedCapacityBytes : ℕ) (profile : ProfileId) : Option (List (PoolId × ℕ)) :=
  (Apportion.apportion managedCapacityBytes profile.poolWeights).map
    (·.map fun allocation => (allocation.id, allocation.bytes))

/-- The input of `planCapacityBudget`. -/
structure BudgetInput where
  profileId : Option JsString
  (observedUsableBytes operatorCapBytes : Given)

/-- What `planCapacityBudget` returns. -/
structure Budget where
  profileId : ProfileId
  (observedUsableBytes physicalReserveBytes postReserveBytes : ℕ)
  operatorCapBytes : Option ℕ
  operatorCapApplied : Bool
  managedCapacityBytes : ℕ
  poolBytes : List (PoolId × ℕ)

def planCapacityBudget (input : BudgetInput) : Except PlanError Budget := do
  let profileId ← normalizeCapacityProfile input.profileId
  let observedUsableBytes ← byteCount "observedUsableBytes" input.observedUsableBytes
  let operatorCapBytes ← optionalByteCount "operatorCapBytes" input.operatorCapBytes
  let physicalReserveBytes := reserveBytes observedUsableBytes
  let postReserveBytes := observedUsableBytes - physicalReserveBytes
  let managedCapacityBytes := operatorCapBytes.elim postReserveBytes (min postReserveBytes)
  let poolBytes ← demand (allocatePools managedCapacityBytes profileId)
    (.typeError "Cannot read properties of undefined (reading 'bytes')")
  return {
    profileId
    observedUsableBytes
    physicalReserveBytes
    postReserveBytes
    operatorCapBytes
    operatorCapApplied := operatorCapBytes.any (· < postReserveBytes)
    managedCapacityBytes
    poolBytes }

def Budget.pool (budget : Budget) (id : PoolId) : ℕ := (budget.poolBytes.lookup id).getD 0

/-- What `planCapacityCeiling` returns. -/
structure Ceiling where
  profileId : ProfileId
  poolId : PoolId
  source : String
  (observedUsableBytes physicalReserveBytes managedCapacityBytes : ℕ)
  operatorCapBytes : Option ℕ
  ceilingBytes : ℕ

def planCapacityCeiling (input : BudgetInput) : Except PlanError Ceiling := do
  let budget ← planCapacityBudget input
  return {
    profileId := budget.profileId
    poolId := .durable
    source := "capacity-profile:" ++ budget.profileId.text ++ ":durable"
    observedUsableBytes := budget.observedUsableBytes
    physicalReserveBytes := budget.physicalReserveBytes
    managedCapacityBytes := budget.managedCapacityBytes
    operatorCapBytes := budget.operatorCapBytes
    ceilingBytes := budget.pool .durable }

/-! ### The plan -/

/-- The input of `planBoundedCapacity`. -/
structure PlanInput extends BudgetInput where
  (observedFreeBytes actualUsageBytes committedBytes pendingBytes untrackedDebtBytes : Given)

/-- What `planBoundedCapacity` returns. -/
structure Plan where
  budget : Budget
  observedFreeBytes : ℕ
  observedFreeAssumed : Bool
  (actualUsageBytes committedBytes pendingBytes untrackedDebtBytes futureDebtBytes conservativeDemandBytes : ℕ)
  (physicalHeadroomBytes logicalAvailableBytes availableBytes advertisableBytes overcommittedBytes : ℕ)
  (atCapacity advertisingBlocked : Bool)

def planBoundedCapacity (input : PlanInput) : Except PlanError Plan := do
  let budget ← planCapacityBudget input.toBudgetInput
  let suppliedFreeBytes ← optionalByteCount "observedFreeBytes" input.observedFreeBytes
  require (∀ free ∈ suppliedFreeBytes, free ≤ budget.observedUsableBytes)
    (.rangeError "observedFreeBytes cannot exceed observedUsableBytes")
  let observedFreeBytes := suppliedFreeBytes.getD budget.observedUsableBytes
  let actualUsageBytes ← byteCountOrZero "actualUsageBytes" input.actualUsageBytes
  let committedBytes ← byteCountOrZero "committedBytes" input.committedBytes
  let pendingBytes ← byteCountOrZero "pendingBytes" input.pendingBytes
  let untrackedDebtBytes ← byteCountOrZero "untrackedDebtBytes" input.untrackedDebtBytes
  let conservativeDemandBytes ← safeSum "conservative demand"
    [actualUsageBytes, committedBytes, pendingBytes, untrackedDebtBytes]
  let futureDebtBytes ← safeSum "future debt" [committedBytes, pendingBytes, untrackedDebtBytes]
  let physicalHeadroomBytes := observedFreeBytes - budget.physicalReserveBytes - futureDebtBytes
  let logicalAvailableBytes := budget.managedCapacityBytes - conservativeDemandBytes
  let availableBytes := min logicalAvailableBytes physicalHeadroomBytes
  let durableAvailableBytes := budget.pool .durable - conservativeDemandBytes
  let advertisableBytes := min availableBytes durableAvailableBytes
  return {
    budget
    observedFreeBytes
    observedFreeAssumed := suppliedFreeBytes.isNone
    actualUsageBytes
    committedBytes
    pendingBytes
    untrackedDebtBytes
    futureDebtBytes
    conservativeDemandBytes
    physicalHeadroomBytes
    logicalAvailableBytes
    availableBytes
    advertisableBytes
    overcommittedBytes := conservativeDemandBytes - budget.managedCapacityBytes
    atCapacity := availableBytes = 0
    advertisingBlocked := advertisableBytes = 0 }

/-! ### The pools -/

section Pools

variable {capacity : ℕ} {profile : ProfileId} {pools : List (PoolId × ℕ)}

theorem totalWeight_pos (profile : ProfileId) : 0 < Apportion.totalWeight profile.poolWeights := by
  cases profile <;> decide

theorem exists_allocatePools (capacity : ℕ) (profile : ProfileId) :
    ∃ pools, allocatePools capacity profile = some pools := by
  obtain ⟨l, hl⟩ := Apportion.exists_apportion (totalWeight_pos profile) capacity
  exact ⟨_, by rw [allocatePools, hl, map_some]⟩

theorem sum_allocatePools (h : allocatePools capacity profile = some pools) :
    (pools.map Prod.snd).sum = capacity := by
  obtain ⟨l, hl, rfl⟩ := map_eq_some_iff.mp h
  rw [List.map_map]
  exact Apportion.sum_apportion (totalWeight_pos profile) hl

theorem map_fst_allocatePools (h : allocatePools capacity profile = some pools) :
    pools.map Prod.fst = [.durable, .serviceControl, .repair, .cache, .burst] := by
  obtain ⟨l, hl, rfl⟩ := map_eq_some_iff.mp h
  rw [List.map_map]
  refine (Apportion.map_id_apportion hl).trans ?_
  cases profile <;> rfl

theorem exists_of_mem_allocatePools (h : allocatePools capacity profile = some pools)
    {entry : PoolId × ℕ} (hentry : entry ∈ pools) :
    ∃ weight, (entry.1, weight) ∈ profile.poolWeights ∧
      (entry.2 = capacity * weight / Apportion.totalWeight profile.poolWeights ∨
        entry.2 = capacity * weight / Apportion.totalWeight profile.poolWeights + 1) := by
  obtain ⟨l, hl, rfl⟩ := map_eq_some_iff.mp h
  obtain ⟨b, hb, rfl⟩ := List.mem_map.mp hentry
  exact Apportion.exists_of_mem_apportion hl hb

theorem lookup_allocatePools_le (h : allocatePools capacity profile = some pools) (id : PoolId) :
    (pools.lookup id).getD 0 ≤ capacity := by
  cases hlookup : pools.lookup id with
  | none => exact Nat.zero_le _
  | some bytes =>
    have hmem : (id, bytes) ∈ pools := by
      obtain ⟨l₁, l₂, rfl, -⟩ := List.lookup_eq_some_iff.mp hlookup
      simp
    rw [← sum_allocatePools h]
    exact List.le_sum_of_mem (List.mem_map_of_mem (f := Prod.snd) hmem)

end Pools

/-! ### The budget, as it is returned -/

structure BudgetSpec (input : BudgetInput) (budget : Budget) : Prop where
  usable : input.observedUsableBytes = some (some budget.observedUsableBytes)
  usable_le : budget.observedUsableBytes ≤ maxSafeInteger
  cap : input.operatorCapBytes = budget.operatorCapBytes.map some
  cap_le : ∀ n ∈ budget.operatorCapBytes, n ≤ maxSafeInteger
  reserve : budget.physicalReserveBytes = reserveBytes budget.observedUsableBytes
  managed : budget.managedCapacityBytes = budget.operatorCapBytes.elim
    (budget.observedUsableBytes - budget.physicalReserveBytes)
    (min (budget.observedUsableBytes - budget.physicalReserveBytes))
  pools : allocatePools budget.managedCapacityBytes budget.profileId = some budget.poolBytes

variable {input : BudgetInput}

theorem planCapacityBudget_spec {budget : Budget}
    (h : planCapacityBudget input = .ok budget) : BudgetSpec input budget := by
  simp only [planCapacityBudget, bind_eq_ok, byteCount_eq_ok, optionalByteCount_eq_ok,
    demand_eq_ok, pure_eq_ok_iff] at h
  obtain ⟨profile, -, usable, ⟨husable, hle⟩, cap, ⟨hcap, hcaple⟩, pools, hpools, rfl⟩ := h
  exact ⟨husable, hle, hcap, hcaple, rfl, rfl, hpools⟩

/-- A budget is returned for every input that is valid: the pools are always found. -/
theorem exists_planCapacityBudget_iff : (∃ budget, planCapacityBudget input = .ok budget) ↔
    ∃ profile, normalizeCapacityProfile input.profileId = .ok profile ∧
      ∃ usable, (input.observedUsableBytes = some (some usable) ∧ usable ≤ maxSafeInteger) ∧
        ∃ cap : Option ℕ, input.operatorCapBytes = cap.map some ∧ ∀ n ∈ cap, n ≤ maxSafeInteger := by
  simp only [planCapacityBudget, bind_eq_ok, byteCount_eq_ok, optionalByteCount_eq_ok,
    demand_eq_ok, pure_eq_ok_iff]
  constructor
  · rintro ⟨budget, profile, hprofile, usable, husable, cap, hcap, -⟩
    exact ⟨profile, hprofile, usable, husable, cap, hcap⟩
  · rintro ⟨profile, hprofile, usable, husable, cap, hcap⟩
    obtain ⟨pools, hpools⟩ := exists_allocatePools (cap.elim (usable - reserveBytes usable)
      (min (usable - reserveBytes usable))) profile
    exact ⟨_, profile, hprofile, usable, husable, cap, hcap, pools, hpools, rfl⟩

theorem BudgetSpec.exists_cap {budget : Budget} (h : BudgetSpec input budget)
    {o : Option ℕ} (hcap : input.operatorCapBytes = some o) :
    ∃ cap, o = some cap ∧ budget.operatorCapBytes = some cap ∧ cap ≤ maxSafeInteger ∧
      budget.managedCapacityBytes ≤ cap := by
  have heq := h.cap.symm.trans hcap
  cases hbudget : budget.operatorCapBytes with
  | none => simp [hbudget] at heq
  | some cap =>
    refine ⟨cap, by simpa [hbudget] using heq.symm, rfl, h.cap_le cap hbudget, ?_⟩
    rw [h.managed, hbudget]
    exact Nat.min_le_right _ _

/-! ### The two reserves -/

theorem storageReserveBytes_le_reserveBytes (usable : ℕ) :
    storageReserveBytes (some usable) ≤ reserveBytes usable := by
  have hgate := storageReserveBytes_le usable
  unfold reserveBytes
  split
  · omega
  · simp only [storageReserveMaxBytes, capacityReserveFloorBytes] at hgate ⊢
    omega

/-! ### What is advertised is let in -/

structure PlanSpec (input : PlanInput) (plan : Plan) : Prop where
  budget : planCapacityBudget input.toBudgetInput = .ok plan.budget
  free_le : plan.observedFreeBytes ≤ plan.budget.observedUsableBytes
  demand : plan.conservativeDemandBytes =
    plan.actualUsageBytes + plan.committedBytes + plan.pendingBytes + plan.untrackedDebtBytes
  demand_le : plan.conservativeDemandBytes ≤ maxSafeInteger
  advertisable : plan.advertisableBytes = min (min (plan.budget.managedCapacityBytes - plan.conservativeDemandBytes)
      (plan.observedFreeBytes - plan.budget.physicalReserveBytes -
        (plan.committedBytes + plan.pendingBytes + plan.untrackedDebtBytes)))
    (plan.budget.pool .durable - plan.conservativeDemandBytes)

theorem planBoundedCapacity_spec {input : PlanInput} {plan : Plan}
    (h : planBoundedCapacity input = .ok plan) : PlanSpec input plan := by
  simp only [planBoundedCapacity, bind_eq_ok, optionalByteCount_eq_ok, byteCountOrZero,
    byteCount_eq_ok, safeSum_eq_ok, require_eq_ok, pure_eq_ok_iff] at h
  obtain ⟨budget, hbudget, free, -, -, hfree, actual, -, committed, -, pending, -, untracked, -,
    demand, ⟨hle, rfl⟩, debt, ⟨-, rfl⟩, rfl⟩ := h
  refine ⟨hbudget, ?_, by simp; omega, hle, by simp [Nat.add_assoc]⟩
  cases free with
  | none => exact Nat.le_refl _
  | some free => exact hfree free rfl

/-- **The planner and the gate agree.** There is a budget for every input that is valid. Its pools add up to
what is managed, each is the floor of its weighted share or one more, and the ceiling is within the cap of
the operator. What is advertised for a filesystem without untracked debt is let in by the gate, under the
ceiling for the same filesystem and cap, when the demand counts as used and the promises as committed. -/
theorem advertised_is_admitted (input : PlanInput) :
    ((∃ budget, planCapacityBudget input.toBudgetInput = .ok budget) ↔
      ∃ profile, normalizeCapacityProfile input.profileId = .ok profile ∧
        ∃ usable, (input.observedUsableBytes = some (some usable) ∧ usable ≤ maxSafeInteger) ∧
          ∃ cap : Option ℕ, input.operatorCapBytes = cap.map some ∧ ∀ n ∈ cap, n ≤ maxSafeInteger) ∧
    (∀ budget, planCapacityBudget input.toBudgetInput = .ok budget →
      (budget.poolBytes.map Prod.snd).sum = budget.managedCapacityBytes ∧
      budget.poolBytes.map Prod.fst = [.durable, .serviceControl, .repair, .cache, .burst] ∧
      ∀ entry ∈ budget.poolBytes, ∃ weight, (entry.1, weight) ∈ budget.profileId.poolWeights ∧
        (entry.2 = budget.managedCapacityBytes * weight / Apportion.totalWeight budget.profileId.poolWeights ∨
          entry.2 = budget.managedCapacityBytes * weight / Apportion.totalWeight budget.profileId.poolWeights + 1)) ∧
    (∀ ceiling cap, planCapacityCeiling input.toBudgetInput = .ok ceiling →
      input.operatorCapBytes = some (some cap) → ceiling.ceilingBytes ≤ cap) ∧
    ∀ plan, planBoundedCapacity input = .ok plan → plan.untrackedDebtBytes = 0 →
      ∃ ceiling, planCapacityCeiling input.toBudgetInput = .ok ceiling ∧
        ∀ (config : CapConfig) (capCeilingSource : Option String) (request : ℕ),
          input.operatorCapBytes = some config.maxStorageBytes →
          (∀ p ∈ config.provenance, p.resolved = true) →
          0 < request → request ≤ plan.advertisableBytes →
          (evaluateStorageAdmission config
            { usedBytes := some (plan.actualUsageBytes + plan.committedBytes + plan.pendingBytes)
              additionalBytes := some request
              committedBytes := some (plan.committedBytes + plan.pendingBytes)
              diskInfo := some ⟨some plan.observedFreeBytes, some plan.budget.observedUsableBytes⟩
              capCeilingBytes := some (some ceiling.ceilingBytes)
              capCeilingSource }).allowed = true := by
  refine ⟨exists_planCapacityBudget_iff, fun budget hbudget => ?_, fun ceiling cap hceiling hcap => ?_,
    fun plan hplan hdebt => ?_⟩
  · have hspec := planCapacityBudget_spec hbudget
    exact ⟨sum_allocatePools hspec.pools, map_fst_allocatePools hspec.pools,
      fun entry => exists_of_mem_allocatePools hspec.pools⟩
  · simp only [planCapacityCeiling, guards_eq_ok] at hceiling
    obtain ⟨budget, hbudget, rfl⟩ := hceiling
    have hspec := planCapacityBudget_spec hbudget
    obtain ⟨cap', hcap', -, -, hmanaged⟩ := hspec.exists_cap hcap
    cases hcap'
    exact (lookup_allocatePools_le hspec.pools .durable).trans hmanaged
  · have hspec := planBoundedCapacity_spec hplan
    have hbudget := planCapacityBudget_spec hspec.budget
    refine ⟨_, by simp only [planCapacityCeiling, hspec.budget, ok_bind]; rfl,
      fun config source request hcap hresolved hpos hrequest => ?_⟩
    obtain ⟨cap, hconfig, -, hcaple, hmanaged⟩ := hbudget.exists_cap hcap
    have hpool := lookup_allocatePools_le hbudget.pools .durable
    have hreserve := storageReserveBytes_le_reserveBytes plan.budget.observedUsableBytes
    have hdemand := hspec.demand
    have hdemandle := hspec.demand_le
    have hfreele := hspec.free_le
    have husable := hbudget.usable_le
    rw [hspec.advertisable, hbudget.reserve] at hrequest
    simp only [Budget.pool] at hrequest ⊢
    refine (allowed_of_reads (plan.actualUsageBytes + plan.committedBytes + plan.pendingBytes) request
      (plan.committedBytes + plan.pendingBytes) cap (some ((plan.budget.poolBytes.lookup .durable).getD 0)) ?_).mpr ?_
    · exact ⟨⟨rfl, by omega⟩, ⟨rfl, by omega⟩, ⟨rfl, by omega⟩, ⟨hconfig, hcaple, by omega⟩,
        ⟨rfl, fun c hc => by cases hc; omega⟩, hresolved⟩
    · have hreadable : DiskInfo.readable ⟨some plan.observedFreeBytes, some plan.budget.observedUsableBytes⟩ =
            some (plan.budget.observedUsableBytes, plan.observedFreeBytes) := by
        simp only [DiskInfo.readable, finiteNonNegativeInteger_eq_some.mpr ⟨rfl, hfreele.trans husable⟩,
          positiveStorageBound_eq_some.mpr ⟨rfl, husable, (by omega : 0 < _)⟩]
      simp only [effectiveCapBytes, physicalAvailable, bind_some, hreadable, mem_some_iff, forall_eq']
      omega

/-- A disk of 1000 GiB, 500 GiB of which are offered. -/
def sampleInput : PlanInput where
  profileId := some (ofText " Seeder-Standard ")
  observedUsableBytes := some (some (1000 * 1024 ^ 3))
  operatorCapBytes := some (some (500 * 1024 ^ 3))
  observedFreeBytes := some (some (600 * 1024 ^ 3))
  actualUsageBytes := some (some (100 * 1024 ^ 3))
  committedBytes := some (some (50 * 1024 ^ 3))
  pendingBytes := none
  untrackedDebtBytes := none

/-- A volume of 1000 GiB under a cap of 500. -/
theorem advertised_is_admitted_sample : ∃ plan ceiling, planBoundedCapacity sampleInput = .ok plan ∧
    planCapacityCeiling sampleInput.toBudgetInput = .ok ceiling ∧
    (evaluateStorageAdmission ⟨some (500 * 1024 ^ 3), none⟩
      { usedBytes := some (plan.actualUsageBytes + plan.committedBytes + plan.pendingBytes)
        additionalBytes := some (150 * 1024 ^ 3)
        committedBytes := some (plan.committedBytes + plan.pendingBytes)
        diskInfo := some ⟨some plan.observedFreeBytes, some plan.budget.observedUsableBytes⟩
        capCeilingBytes := some (some ceiling.ceilingBytes)
        capCeilingSource := none }).allowed = true := by
  obtain ⟨plan, hplan, hdebt, hadvertised⟩ := exists_ok (planBoundedCapacity sampleInput)
    (fun plan => plan.untrackedDebtBytes = 0 ∧ 150 * 1024 ^ 3 ≤ plan.advertisableBytes)
    (by decide +kernel)
  obtain ⟨ceiling, hceiling, hallowed⟩ := (advertised_is_admitted sampleInput).2.2.2 plan hplan hdebt
  exact ⟨plan, ceiling, hplan, hceiling, hallowed ⟨_, none⟩ none _ rfl (by simp) (by decide) hadvertised⟩

end HiveRelay.Storage
