import HiveRelay.Lib.Bytes
import HiveRelay.Lib.Guard
import Mathlib.Algebra.Order.Floor.Semiring
import Mathlib.Data.Finset.Card
import Mathlib.Data.List.Sort
import Mathlib.Data.Rat.Floor

/-!
# The gates of an eviction sweep

A relay under pressure evicts an entry that enough others hold. So that not all of them leave at once,
the holders are ranked by the distance of their keys from the key of the entry, and only as many of the
farthest as there are to spare may leave. Nobody asks anybody: the holders find the same ranking because
the distances are all different, in whatever order they list the holders.

How many are to spare need not be a whole number, since neither the target nor the margin need be one. A
rank is below a fraction when it is below the next whole number, so then one too many leaves.

Numbers are rational here, and doubles in the source. The two agree where nothing is rounded: wherever the
target, the margin and the counts are multiples of one power of two that are less than 2^52 times as large,
so for all whole numbers below 2^52, for halves, quarters and so on. A target or a margin that is no such
fraction (0.1, say, is not even a double) is its nearest double first, and its sum with the margin, or the
surplus, may be rounded again: only there can a rank that equals the rational surplus fall on the other side.

## Main definitions

* `Staggered` — what the stagger is for

## Main results

* `ranked_perm` — the ranking is the same for all holders
* `candidateGates_isOk_iff` — who passes the gates
* `staggered_iff` — when the stagger works
-/

namespace HiveRelay.Eviction

/-! ### The ranking -/

def Key : Type := { bytes : Bytes // bytes.length = 32 }

instance : DecidableEq Key := inferInstanceAs (DecidableEq { bytes : Bytes // bytes.length = 32 })

def xorDistance (a b : Bytes) : Bytes := List.zipWith (· ^^^ ·) a b

def compareBuffers : Bytes → Bytes → ℤ
  | x :: xs, y :: ys => if x ≠ y then (x.toNat : ℤ) - y.toNat else compareBuffers xs ys
  | xs, ys => (xs.length : ℤ) - ys.length

def Farther (appKey a b : Key) : Prop :=
  compareBuffers (xorDistance b.1 appKey.1) (xorDistance a.1 appKey.1) ≤ 0

instance (appKey : Key) : DecidableRel (Farther appKey) :=
  fun _ _ => inferInstanceAs (Decidable (_ ≤ _))

def ranked (appKey : Key) (holders : List Key) : List Key := holders.insertionSort (Farther appKey)

theorem perm_ranked (appKey : Key) (holders : List Key) : (ranked appKey holders).Perm holders :=
  List.perm_insertionSort _ _

theorem compareBuffers_neg (x y : Bytes) : compareBuffers y x = -compareBuffers x y := by
  induction x generalizing y with
  | nil => cases y <;> simp [compareBuffers]
  | cons a x ih =>
    cases y with
    | nil => simp [compareBuffers]
    | cons b y =>
      by_cases hab : a = b
      · simp [compareBuffers, hab, ih]
      · simp [compareBuffers, hab, Ne.symm hab]

theorem eq_of_compareBuffers {x y : Bytes} (h : compareBuffers x y = 0) : x = y := by
  induction x generalizing y with
  | nil => cases y <;> simp [compareBuffers] at h ⊢; omega
  | cons a x ih =>
    cases y with
    | nil => simp [compareBuffers] at h; omega
    | cons b y =>
      by_cases hab : a = b
      · rw [hab, ih (by simpa [compareBuffers, hab] using h)]
      · simp only [compareBuffers, ne_eq, hab, not_false_eq_true, if_true] at h
        exact absurd (UInt8.toNat_inj.mp (by omega)) hab

theorem compareBuffers_trans {x y z : Bytes} (hxy : compareBuffers x y ≤ 0)
    (hyz : compareBuffers y z ≤ 0) : compareBuffers x z ≤ 0 := by
  induction x generalizing y z with
  | nil => cases z <;> simp [compareBuffers]
  | cons a x ih =>
    cases y with
    | nil => simp [compareBuffers] at hxy; omega
    | cons b y =>
      cases z with
      | nil => simp [compareBuffers] at hyz; omega
      | cons c z =>
        have hne : ∀ {u v : UInt8}, u ≠ v → u.toNat ≠ v.toNat := fun h e => h (UInt8.toNat_inj.mp e)
        by_cases hab : a = b <;> by_cases hbc : b = c
        · simp only [compareBuffers, hab, hbc, ne_eq, not_true_eq_false, if_false] at hxy hyz ⊢
          exact ih hxy hyz
        · simp only [compareBuffers, hab, hbc, ne_eq, not_false_eq_true, if_true] at hyz ⊢
          exact hyz
        · simp only [compareBuffers, ← hbc, hab, ne_eq, not_false_eq_true, if_true] at hxy ⊢
          exact hxy
        · have := hne hab
          simp only [compareBuffers, hab, hbc, ne_eq, not_false_eq_true, if_true] at hxy hyz
          have hac : a ≠ c := by rintro rfl; omega
          simp only [compareBuffers, ne_eq, hac, not_false_eq_true, if_true]
          omega

theorem xorDistance_injective {a b appKey : Key}
    (h : xorDistance a.1 appKey.1 = xorDistance b.1 appKey.1) : a = b := by
  refine Subtype.ext (List.ext_getElem (a.2.trans b.2.symm) fun i ha hb => ?_)
  have hkey : i < appKey.1.length := by rw [appKey.2, ← a.2]; exact ha
  have hi := congrArg (·[i]?) h
  simp only [xorDistance, List.getElem?_zipWith, List.getElem?_eq_getElem, ha, hb, hkey, Option.some.injEq] at hi
  simpa [UInt8.xor_assoc] using congrArg (· ^^^ appKey.1[i]) hi

instance (appKey : Key) : Std.Total (Farther appKey) where
  total a b := by
    unfold Farther
    rw [compareBuffers_neg (xorDistance b.1 appKey.1)]
    omega

instance (appKey : Key) : IsTrans Key (Farther appKey) where
  trans _ _ _ hab hbc := compareBuffers_trans hbc hab

theorem Farther.antisymm {appKey a b : Key} (hab : Farther appKey a b) (hba : Farther appKey b a) : a = b := by
  unfold Farther at hab hba
  rw [compareBuffers_neg (xorDistance b.1 appKey.1)] at hba
  have hzero : compareBuffers (xorDistance b.1 appKey.1) (xorDistance a.1 appKey.1) = 0 := by omega
  exact xorDistance_injective (eq_of_compareBuffers hzero).symm

/-- **The ranking** does not depend on the order in which the holders are listed. -/
theorem ranked_perm {appKey : Key} {holders holders' : List Key} (h : holders.Perm holders') :
    ranked appKey holders = ranked appKey holders' := by
  have hperm : (ranked appKey holders).Perm (ranked appKey holders') :=
    (perm_ranked _ _).trans (h.trans (perm_ranked _ _).symm)
  exact hperm.eq_of_pairwise (fun a b _ _ => Farther.antisymm)
    (List.pairwise_insertionSort _ _) (List.pairwise_insertionSort _ _)

/-! ### The gates -/

structure Config where
  (targetFloor floorMargin rankBypassPct : ℚ)

structure Health where
  (current target : ℚ)

/-- What a relay has at hand when it sweeps. -/
structure Sweep where
  my : Key
  overCap : Bool
  usedPct : ℚ

inductive Skip where
  | noCensus | floor | rank

/-- The census: the row of the entry, or else the list of its holders. -/
def census (config : Config) (health : Option Health) (holders : List Key) : Option Health :=
  match health with
  | some row => some row
  | none => if holders = [] then none else some ⟨holders.length, max 1 config.targetFloor⟩

/-- The gates of `sweep` for an entry. What is returned is how many copies remain. -/
def candidateGates (config : Config) (sweep : Sweep) (appKey : Key) (health : Option Health)
    (holders : List Key) : Except Skip ℚ := do
  let h ← demand (census config health holders) .noCensus
  let weAreCounted := sweep.my ∈ holders
  let remaining := if weAreCounted then h.current - 1 else h.current
  require (¬ remaining < h.target + config.floorMargin) .floor
  let surplus := remaining - (h.target + config.floorMargin) + 1
  if !sweep.overCap ∧ sweep.usedPct < config.rankBypassPct ∧ weAreCounted ∧ 1 < holders.length then
    let ourRank ← demand ((ranked appKey holders).findIdx? (· = sweep.my)) .rank
    require (¬ surplus ≤ ourRank) .rank
  return remaining

/-! ### Who passes -/

section Gates

variable {config : Config} {appKey : Key} {health : Option Health} {h : Health} {holders : List Key}

def floorOf (config : Config) (h : Health) : ℚ := h.target + config.floorMargin

theorem census_perm {view : List Key} (hview : view.Perm holders) :
    census config health view = census config health holders := by
  cases health with
  | some row => rfl
  | none => simp only [census, hview.length_eq, ← List.length_eq_zero_iff]

theorem findIdx?_eq_idxOf {l : List Key} {k : Key} (hk : k ∈ l) : l.findIdx? (· = k) = some (l.idxOf k) := by
  rw [List.findIdx?_eq_some_iff_findIdx_eq]
  refine ⟨List.idxOf_lt_length_of_mem hk, ?_⟩
  simp [List.idxOf, beq_eq_decide]

/-- **Who passes**: a holder below the pressure that bypasses the ranks passes if enough copies remain
and its rank is below what is to spare. -/
theorem candidateGates_isOk_iff {sweep : Sweep} (hcensus : census config health holders = some h)
    (hcurrent : h.current = holders.length) (hmy : sweep.my ∈ holders)
    (hcap : sweep.overCap = false) (hpct : sweep.usedPct < config.rankBypassPct) :
    (candidateGates config sweep appKey health holders).isOk = true ↔ floorOf config h + 1 ≤ holders.length ∧
        ((ranked appKey holders).idxOf sweep.my : ℚ) < holders.length - floorOf config h := by
  have hmem : sweep.my ∈ ranked appKey holders := (perm_ranked _ _).mem_iff.mpr hmy
  have hok : ∀ x : Except Skip ℚ, x.isOk = true ↔ ∃ r, x = .ok r := by
    rintro (e | r) <;> simp [Except.isOk, Except.toBool]
  rw [hok]
  simp only [candidateGates, hcensus, hmy, if_true, hcap, hpct, guards_eq_ok, Option.some.injEq, exists_eq_left',
    findIdx?_eq_idxOf hmem, hcurrent, Bool.not_false, true_and, not_lt, not_le]
  have hpos : 0 < holders.length := List.length_pos_of_mem hmy
  split
  · next hone =>
    simp only [Except.bind_eq_ok, demand_eq_ok, Option.some.injEq, exists_eq_left', require_eq_ok,
      pure_eq_ok_iff, floorOf]
    constructor
    · rintro ⟨r, hfloor, -, hrank, -⟩
      exact ⟨by linarith, by linarith⟩
    · rintro ⟨hfloor, hrank⟩
      exact ⟨_, by linarith, (), by linarith, rfl⟩
  · next hone =>
    have hlen : holders.length = 1 := by omega
    have hrank : (ranked appKey holders).idxOf sweep.my = 0 := by
      have := List.idxOf_lt_length_of_mem hmem
      rw [(perm_ranked _ _).length_eq, hlen] at this
      exact Nat.lt_one_iff.mp this
    simp only [pure_eq_ok_iff, exists_and_left, exists_eq', and_true, floorOf, hlen, hrank,
      Nat.cast_one, Nat.cast_zero]
    constructor
    · intro hfloor
      exact ⟨by linarith, by linarith⟩
    · rintro ⟨hfloor, -⟩
      linarith

end Gates

/-! ### Many holders at once -/

/-- Those of a set of holders that pass, each with its own list of the holders. -/
def passing (config : Config) (appKey : Key) (health : Option Health) (usedPct : Key → ℚ)
    (views : Key → List Key) (evaluating : Finset Key) : Finset Key :=
  evaluating.filter fun k =>
    (candidateGates config ⟨k, false, usedPct k⟩ appKey health (views k)).isOk = true

/-- **What the stagger is for**: whatever set of holders evaluates the gates at once, no more of them pass
than there are copies beyond the floor, and they all have the same ranking. -/
structure Staggered (config : Config) (appKey : Key) (health : Option Health) (h : Health)
    (holders : List Key) : Prop where
  floor : ∀ (usedPct : Key → ℚ) (views : Key → List Key) (evaluating : Finset Key),
    (∀ k ∈ evaluating, k ∈ holders ∧ usedPct k < config.rankBypassPct ∧ (views k).Perm holders) →
      ((passing config appKey health usedPct views evaluating).card : ℚ) ≤ max 0 (h.current - floorOf config h)
  ranking : ∀ view : List Key, view.Perm holders → ranked appKey view = ranked appKey holders

theorem card_filter_idxOf_lt {l : List Key} (hl : l.Nodup) (bound : ℚ) :
    (l.toFinset.filter fun k => (l.idxOf k : ℚ) < bound).card = min l.length ⌈bound⌉₊ := by
  have htake : l.toFinset.filter (fun k => (l.idxOf k : ℚ) < bound) = (l.take ⌈bound⌉₊).toFinset := by
    ext k
    rw [Finset.mem_filter, List.mem_toFinset, List.mem_toFinset]
    constructor
    · rintro ⟨hk, hlt⟩
      exact (List.mem_take_iff_idxOf_lt hk).mpr (Nat.lt_ceil.mpr hlt)
    · intro hk
      have hmem := List.mem_of_mem_take hk
      exact ⟨hmem, Nat.lt_ceil.mp ((List.mem_take_iff_idxOf_lt hmem).mp hk)⟩
  rw [htake, List.toFinset_card_of_nodup (hl.sublist (List.take_sublist _ _)), List.length_take, Nat.min_comm]

section Staggered

variable {config : Config} {appKey : Key} {health : Option Health} {h : Health} {holders : List Key}

theorem mem_passing_iff (hcensus : census config health holders = some h)
    (hcurrent : h.current = holders.length) {usedPct : Key → ℚ} {views : Key → List Key}
    {evaluating : Finset Key} (hviews : ∀ k ∈ evaluating,
      k ∈ holders ∧ usedPct k < config.rankBypassPct ∧ (views k).Perm holders) {k : Key} :
    k ∈ passing config appKey health usedPct views evaluating ↔ k ∈ evaluating ∧
      floorOf config h + 1 ≤ holders.length ∧
        ((ranked appKey holders).idxOf k : ℚ) < holders.length - floorOf config h := by
  rw [passing, Finset.mem_filter]
  refine and_congr_right fun hk => ?_
  obtain ⟨hmem, hpct, hview⟩ := hviews k hk
  have hlength := hview.length_eq
  rw [candidateGates_isOk_iff (h := h) ((census_perm hview).trans hcensus)
    (by rw [hcurrent, hlength]) (hview.mem_iff.mpr hmem) rfl hpct, ranked_perm hview, hlength]

theorem card_passing_le (hcensus : census config health holders = some h)
    (hcurrent : h.current = holders.length) (hnodup : holders.Nodup) {usedPct : Key → ℚ}
    {views : Key → List Key} {evaluating : Finset Key} (hviews : ∀ k ∈ evaluating,
      k ∈ holders ∧ usedPct k < config.rankBypassPct ∧ (views k).Perm holders) :
    (passing config appKey health usedPct views evaluating).card ≤
      min holders.length ⌈(holders.length - floorOf config h : ℚ)⌉₊ := by
  have hperm := perm_ranked appKey holders
  have hcard := card_filter_idxOf_lt (hperm.nodup_iff.mpr hnodup) (holders.length - floorOf config h)
  rw [hperm.length_eq] at hcard
  rw [← hcard]
  refine Finset.card_le_card fun k hk => ?_
  obtain ⟨hmem, -, hrank⟩ := (mem_passing_iff hcensus hcurrent hviews).mp hk
  exact Finset.mem_filter.mpr ⟨List.mem_toFinset.mpr (hperm.mem_iff.mpr (hviews k hmem).1), hrank⟩

/-- **The floor is kept** exactly when what must remain is a whole number, or nothing must remain, or no
copy is to spare. -/
theorem staggered_iff (hcensus : census config health holders = some h)
    (hcurrent : h.current = holders.length) (hnodup : holders.Nodup) :
    Staggered config appKey health h holders ↔ (∃ whole : ℤ, floorOf config h = whole) ∨ floorOf config h ≤ 0 ∨
        h.current < floorOf config h + 1 := by
  constructor
  · intro hstaggered
    by_contra hnot
    push Not at hnot
    obtain ⟨hfraction, hpos, hspare⟩ := hnot
    rw [hcurrent] at hspare
    -- all the holders evaluate the gates at once, unpressured
    have hall : ∀ k ∈ holders.toFinset, k ∈ holders ∧
        config.rankBypassPct - 1 < config.rankBypassPct ∧ holders.Perm holders :=
      fun k hk => ⟨List.mem_toFinset.mp hk, by linarith, .refl _⟩
    have hfloor := hstaggered.floor (fun _ => config.rankBypassPct - 1) (fun _ => holders) holders.toFinset hall
    have hperm := perm_ranked appKey holders
    have hpassing : passing config appKey health (fun _ => config.rankBypassPct - 1)
        (fun _ => holders) holders.toFinset = (ranked appKey holders).toFinset.filter
          fun k => ((ranked appKey holders).idxOf k : ℚ) < holders.length - floorOf config h := by
      ext k
      rw [mem_passing_iff hcensus hcurrent hall, Finset.mem_filter, List.mem_toFinset,
        List.mem_toFinset, hperm.mem_iff]
      exact and_congr_right fun _ => and_iff_right hspare
    rw [hpassing, card_filter_idxOf_lt (hperm.nodup_iff.mpr hnodup), hperm.length_eq,
      hcurrent, max_eq_right (by linarith)] at hfloor
    have hceil : ⌈(holders.length - floorOf config h : ℚ)⌉₊ ≤ holders.length :=
      Nat.ceil_le.mpr (by linarith)
    rw [Nat.min_eq_right hceil] at hfloor
    have hexact := le_antisymm hfloor (Nat.le_ceil _)
    refine hfraction (holders.length - ⌈(holders.length - floorOf config h : ℚ)⌉₊) ?_
    simp only [Int.cast_sub, Int.cast_natCast]
    linarith
  · intro hcond
    refine ⟨fun usedPct views evaluating hviews => ?_, fun view => ranked_perm⟩
    have hcard : (passing config appKey health usedPct views evaluating).card ≤ _ :=
      card_passing_le hcensus hcurrent hnodup hviews
    rw [hcurrent]
    rcases hcond with ⟨whole, hwhole⟩ | hnothing | hshort
    · rw [hwhole] at hcard ⊢
      have hceil : ⌈(holders.length - whole : ℚ)⌉₊ ≤ ((holders.length : ℤ) - whole).toNat := by
        rw [Nat.ceil_le]
        exact_mod_cast Int.self_le_toNat ((holders.length : ℤ) - whole)
      have hle := (hcard.trans (Nat.min_le_right _ _)).trans hceil
      have hmax : (((holders.length : ℤ) - whole).toNat : ℚ) = max 0 ((holders.length : ℚ) - (whole : ℚ)) := by
        rw [← Int.cast_natCast, Int.toNat_eq_max, max_comm]
        push_cast
        rfl
      rw [← hmax]
      exact_mod_cast hle
    · have hle : ((passing config appKey health usedPct views evaluating).card : ℚ) ≤
          holders.length := by exact_mod_cast hcard.trans (Nat.min_le_left _ _)
      exact hle.trans (le_max_of_le_right (by linarith))
    · have hempty : passing config appKey health usedPct views evaluating = ∅ := by
        refine Finset.eq_empty_of_forall_notMem fun k hk => ?_
        have hspare := ((mem_passing_iff hcensus hcurrent hviews).mp hk).2.1
        linarith
      rw [hempty]
      exact le_max_left _ _

end Staggered

/-- The key whose last byte is given. -/
def keyOf (last : UInt8) : Key := ⟨List.replicate 31 0 ++ [last], rfl⟩

def sampleHolders : List Key := [keyOf 3, keyOf 1, keyOf 5, keyOf 2, keyOf 4]

def sampleConfig : Config := ⟨1, 1, 97⟩

/-- Five holders, of whom two are to spare. -/
theorem staggered_iff_sample : Staggered sampleConfig (keyOf 0) (some ⟨5, 2⟩) ⟨5, 2⟩ sampleHolders :=
  (staggered_iff (h := ⟨5, 2⟩) rfl rfl (by decide)).mpr (.inl ⟨3, by norm_num [floorOf, sampleConfig]⟩)

/-- Two and a half copies are the target of five holders, one and a half are to spare, two leave. -/
theorem two_of_five_pass : (passing sampleConfig (keyOf 0) (some ⟨5, 5 / 2⟩) (fun _ => 90) (fun _ => sampleHolders)
      sampleHolders.toFinset).card = 2 ∧ (5 - 2 : ℚ) < 5 / 2 + sampleConfig.floorMargin := by
  decide +kernel

end HiveRelay.Eviction
