import HiveRelay.Lib.OrderedMap
import HiveRelay.Lib.Guard
import HiveRelay.Lib.Run

/-!
# The mirror trust set

`Federation` of `packages/core/core/federation.js` keeps its mirrored relays in a map by url, and beside
it the set of their pubkeys: a peer in the set bypasses the accept queue. The set is kept up to date one
pubkey at a time. An entry that replaces another one under its url leaves the old pubkey in the set, an
entry that goes takes its pubkey out of the set though another url may have it as well, and while the
constructor adds its entries there is no set yet. `validateUrl` is a parameter.

## Main definitions

* `Exact` — the set is that of the entries
* `Separate` — an operation that takes no pubkey which stays

## Main results

* `construct_ok_iff` — when there is a federation
* `mirrored_exact` — the set is exact in runs of separate operations
-/

namespace HiveRelay.Federation

open Option OrderedMap HiveRelay.Except

variable {U P : Type} [DecidableEq U] [DecidableEq P]

/-- An entry of one of the lists. A pubkey or a time that is missing or falsy is `none`. -/
structure Entry (U P : Type) where
  url : U
  pubkey : Option P
  addedAt : Option ℕ

/-- The entry that is stored: `addedAt || Date.now()`. -/
def Entry.stamped (entry : Entry U P) (now : ℕ) : Entry U P :=
  { entry with addedAt := some (entry.addedAt.getD now) }

/-- The fields of `Federation` that say which relays are followed and mirrored. -/
structure State (U P : Type) [DecidableEq U] where
  (followed mirrored : OrderedMap U (Entry U P))
  /-- `_mirroredPubkeys`, `none` while it is undefined. -/
  mirroredPubkeys : Option (Finset P)

/-- The errors: the one of `validateUrl`, and a member of `undefined`. -/
inductive Failure where
  | invalidUrl | typeError

section Operations

variable (valid : U → Bool) (now : ℕ)

def addFollowed (s : State U P) (entry : Entry U P) : State U P :=
  if valid entry.url then { s with followed := s.followed.set entry.url (entry.stamped now) } else s

def addMirrored (s : State U P) (entry : Entry U P) : Except Failure (State U P) :=
  if valid entry.url then
    let s := { s with mirrored := s.mirrored.set entry.url (entry.stamped now) }
    match entry.pubkey, s.mirroredPubkeys with
    | none, _ => .ok s
    | some _, none => .error .typeError
    | some pubkey, some pubkeys => .ok { s with mirroredPubkeys := some (insert pubkey pubkeys) }
  else .ok s

/-- The constructor: the set is made after the entries were added. -/
def construct (followed mirrored : List (Entry U P)) : Except Failure (State U P) := do
  let s ← mirrored.foldlM (addMirrored valid now) (followed.foldl (addFollowed valid now) ⟨.empty, .empty, none⟩)
  return { s with mirroredPubkeys := some (s.mirrored.values.filterMap Entry.pubkey).toFinset }

/-- What `load` keeps of a list: entries that are there and whose url is valid. -/
def loaded (entries : List (Option (Entry U P))) : List (Entry U P) :=
  (entries.filterMap id).filter fun entry => valid entry.url

/-- `load`, with the lists of the file. A file that is missing or is no JSON has no lists. -/
def load (s : State U P) (followed mirrored : List (Option (Entry U P))) : Except Failure (State U P) :=
  (loaded valid mirrored).foldlM (addMirrored valid now) ((loaded valid followed).foldl (addFollowed valid now) s)

def restoreSnapshot (followed mirrored : List (Entry U P)) : Except Failure (State U P) :=
  mirrored.foldlM (addMirrored valid now) (followed.foldl (addFollowed valid now) ⟨.empty, .empty, some ∅⟩)

def follow (s : State U P) (url : U) (pubkey : Option P) : Except Failure (State U P) := do
  require (valid url) .invalidUrl
  return addFollowed valid now s ⟨url, pubkey, some now⟩

def mirror (s : State U P) (url : U) (pubkey : Option P) : Except Failure (State U P) := do
  require (valid url) .invalidUrl
  addMirrored valid now s ⟨url, pubkey, some now⟩

def unfollow (s : State U P) (url : U) : State U P where
  followed := s.followed.delete url
  mirrored := s.mirrored.delete url
  mirroredPubkeys :=
    match (s.mirrored.get? url).bind Entry.pubkey with
    | some pubkey => s.mirroredPubkeys.map (·.erase pubkey)
    | none => s.mirroredPubkeys

end Operations

def isMirroredPubkey (s : State U P) (pubkey : Option P) : Bool :=
  pubkey.any fun p => s.mirroredPubkeys.any (p ∈ ·)

inductive Op (U P : Type) where
  | follow (now : ℕ) (url : U) (pubkey : Option P)
  | mirror (now : ℕ) (url : U) (pubkey : Option P)
  | unfollow (url : U)
  | load (now : ℕ) (followed mirrored : List (Option (Entry U P)))
  | restoreSnapshot (now : ℕ) (followed mirrored : List (Entry U P))

variable (valid : U → Bool)

def perform (s : State U P) : Op U P → Except Failure (State U P)
  | .follow now url pubkey => Federation.follow valid now s url pubkey
  | .mirror now url pubkey => Federation.mirror valid now s url pubkey
  | .unfollow url => .ok (Federation.unfollow s url)
  | .load now followed mirrored => Federation.load valid now s followed mirrored
  | .restoreSnapshot now followed mirrored => Federation.restoreSnapshot valid now followed mirrored

/-- One call. A call that throws does so before it changes anything. -/
def step (s : State U P) (op : Op U P) : Option (State U P) :=
  some ((perform valid s op).toOption.getD s)

/-! ### When the set is exact -/

/-- The pubkey a map has under a url. -/
def pubkeyAt (m : OrderedMap U (Entry U P)) (url : U) : Option P := (m.get? url).bind Entry.pubkey

/-- The set has the pubkeys of the mirrored entries, and no other. -/
def Exact (s : State U P) : Prop :=
  ∃ pubkeys, s.mirroredPubkeys = some pubkeys ∧ ∀ p, p ∈ pubkeys ↔ ∃ url, pubkeyAt s.mirrored url = some p

/-- An addition replaces no pubkey that is not also the new one or the one of a further url. -/
def KeepsOld (s : State U P) (entry : Entry U P) : Prop :=
  valid entry.url = true → ∀ p, pubkeyAt s.mirrored entry.url = some p →
    entry.pubkey = some p ∨ ∃ url ≠ entry.url, pubkeyAt s.mirrored url = some p

def addStep (now : ℕ) (s : State U P) (entry : Entry U P) : Option (State U P) :=
  (addMirrored valid now s entry).toOption

/-- Additions replace no pubkey, one after another, and an entry that goes does not share its pubkey. -/
def Separate (s : State U P) : Op U P → Prop
  | .follow .. => True
  | .mirror now url pubkey => KeepsOld valid s ⟨url, pubkey, some now⟩
  | .unfollow url => ∀ p, pubkeyAt s.mirrored url = some p → ∀ url' ≠ url, pubkeyAt s.mirrored url' ≠ some p
  | .load now followed mirrored =>
    RunMeets (addStep valid now) (KeepsOld valid) ((loaded valid followed).foldl (addFollowed valid now) s)
      (loaded valid mirrored)
  | .restoreSnapshot now followed mirrored =>
    RunMeets (addStep valid now) (KeepsOld valid)
      (followed.foldl (addFollowed valid now) ⟨.empty, .empty, some ∅⟩) mirrored

variable {valid} {s s' : State U P} {now : ℕ} {entry : Entry U P}

theorem isMirroredPubkey_of_exact (h : Exact s) (p : P) : isMirroredPubkey s (some p) = true ↔
    ∃ url entry, s.mirrored.get? url = some entry ∧ entry.pubkey = some p := by
  obtain ⟨pubkeys, hset, hexact⟩ := h
  simp only [isMirroredPubkey, hset, any_some, decide_eq_true_eq, hexact, pubkeyAt, bind_eq_some_iff]

omit [DecidableEq P] in
theorem pubkeyAt_set (m : OrderedMap U (Entry U P)) (url url' : U) :
    pubkeyAt (m.set url entry) url' = if url' = url then entry.pubkey else pubkeyAt m url' := by
  rw [pubkeyAt, get?_set]
  split
  · rfl
  · rfl

/-- **One addition** keeps the set exact, if the entry it replaces has a pubkey that stays. -/
theorem Exact.added (h : Exact s) (hold : KeepsOld valid s entry)
    (hadd : addMirrored valid now s entry = .ok s') : Exact s' := by
  rw [Federation.addMirrored] at hadd
  split at hadd
  case isFalse => exact Except.ok.inj hadd ▸ h
  case isTrue hvalid =>
    obtain ⟨pubkeys, hset, hexact⟩ := h
    have hpubkey : (entry.stamped now).pubkey = entry.pubkey := rfl
    have hmirrored : ∀ p, (∃ url, pubkeyAt (s.mirrored.set entry.url (entry.stamped now)) url = some p) ↔
        entry.pubkey = some p ∨ ∃ url, pubkeyAt s.mirrored url = some p := by
      intro p
      simp only [pubkeyAt_set, hpubkey]
      constructor
      · rintro ⟨url, hurl⟩
        split at hurl
        · exact .inl hurl
        · exact .inr ⟨url, hurl⟩
      · rintro (hp | ⟨url, hurl⟩)
        · exact ⟨entry.url, by rw [if_pos rfl, hp]⟩
        · by_cases hsame : url = entry.url
          · rcases hold hvalid p (hsame ▸ hurl) with hp | ⟨url', hne, hurl'⟩
            · exact ⟨entry.url, by rw [if_pos rfl, hp]⟩
            · exact ⟨url', by rw [if_neg hne, hurl']⟩
          · exact ⟨url, by rw [if_neg hsame, hurl]⟩
    simp only [hset] at hadd
    cases hp : entry.pubkey with
    | none =>
      simp only [hp] at hadd
      cases hadd
      exact ⟨pubkeys, rfl, fun p => by rw [hexact, hmirrored, hp]; simp⟩
    | some pubkey =>
      simp only [hp] at hadd
      cases hadd
      refine ⟨_, rfl, fun p => ?_⟩
      rw [Finset.mem_insert, hexact, hmirrored, hp, some.injEq, eq_comm]

theorem run_of_foldlM {entries : List (Entry U P)} (h : entries.foldlM (addMirrored valid now) s = .ok s') :
    run (addStep valid now) s entries = some s' := by
  induction entries generalizing s with
  | nil => exact congrArg some (Except.ok.inj h)
  | cons entry entries ih =>
    rw [List.foldlM_cons, bind_eq_ok] at h
    obtain ⟨s₁, hadd, hrest⟩ := h
    exact run_cons.mpr ⟨s₁, by rw [addStep, hadd]; rfl, ih hrest⟩

theorem Exact.addedAll {entries : List (Entry U P)} (h : Exact s)
    (hold : RunMeets (addStep valid now) (KeepsOld valid) s entries)
    (hadd : entries.foldlM (addMirrored valid now) s = .ok s') : Exact s' := by
  refine run_invariant (KeepsOld valid) Exact (fun s entry s' hs hkeeps hstep => ?_) h hold (run_of_foldlM hadd)
  rw [addStep] at hstep
  cases hresult : Federation.addMirrored valid now s entry with
  | error e => rw [hresult] at hstep; cases hstep
  | ok s₁ => rw [hresult] at hstep; cases hstep; exact hs.added hkeeps hresult

omit [DecidableEq P] in
theorem addFollowed_mirrored (valid : U → Bool) (now : ℕ) (s : State U P) (entries : List (Entry U P)) :
    (entries.foldl (addFollowed valid now) s).mirrored = s.mirrored ∧
      (entries.foldl (addFollowed valid now) s).mirroredPubkeys = s.mirroredPubkeys := by
  induction entries generalizing s with
  | nil => exact ⟨rfl, rfl⟩
  | cons entry entries ih =>
    rw [List.foldl_cons, (ih _).1, (ih _).2, addFollowed]
    split
    · exact ⟨rfl, rfl⟩
    · exact ⟨rfl, rfl⟩

omit [DecidableEq P] in
theorem Exact.followed (h : Exact s) (entries : List (Entry U P)) :
    Exact (entries.foldl (addFollowed valid now) s) := by
  rw [Exact, (addFollowed_mirrored valid now s entries).1, (addFollowed_mirrored valid now s entries).2]
  exact h

omit [DecidableEq P] in
theorem exact_empty (followed : OrderedMap U (Entry U P)) : Exact ⟨followed, .empty, some (∅ : Finset P)⟩ :=
  ⟨∅, rfl, fun p => by simp [pubkeyAt]⟩

/-- **An entry that goes** takes its pubkey along, if no other url has it. -/
theorem Exact.unfollow {url : U} (h : Exact s)
    (halone : ∀ p, pubkeyAt s.mirrored url = some p → ∀ url' ≠ url, pubkeyAt s.mirrored url' ≠ some p) :
    Exact (unfollow s url) := by
  obtain ⟨pubkeys, hset, hexact⟩ := h
  have hrest : ∀ url', pubkeyAt (s.mirrored.delete url) url' =
      if url' = url then none else pubkeyAt s.mirrored url' := by
    intro url'
    rw [pubkeyAt, get?_delete]
    split
    · rfl
    · rfl
  rw [Federation.unfollow, ← pubkeyAt]
  cases hp : pubkeyAt s.mirrored url with
  | none =>
    refine ⟨pubkeys, hset, fun p => (hexact p).trans (exists_congr fun url' => ?_)⟩
    rw [hrest]
    split
    · next hsame => rw [hsame, hp]
    · rfl
  | some pubkey =>
    refine ⟨pubkeys.erase pubkey, by rw [hset]; rfl, fun p => ?_⟩
    rw [Finset.mem_erase, hexact]
    constructor
    · rintro ⟨hne, url', hurl'⟩
      have hother : url' ≠ url := by
        rintro rfl
        exact hne (mem_unique hurl' hp)
      exact ⟨url', by rw [hrest, if_neg hother, hurl']⟩
    · rintro ⟨url', hurl'⟩
      rw [hrest] at hurl'
      split at hurl'
      · cases hurl'
      · next hother => exact ⟨fun hsame => halone pubkey hp url' hother (hsame ▸ hurl'), url', hurl'⟩

theorem Exact.perform {op : Op U P} (h : Exact s) (hsep : Separate valid s op)
    (hop : perform valid s op = .ok s') : Exact s' := by
  cases op with
  | follow now url pubkey =>
    simp only [Federation.perform, Federation.follow, guards_eq_ok] at hop
    obtain ⟨-, rfl⟩ := hop
    exact h.followed [⟨url, pubkey, some now⟩]
  | mirror now url pubkey =>
    simp only [Federation.perform, mirror, guards_eq_ok] at hop
    exact h.added hsep hop.2
  | unfollow url => exact Except.ok.inj hop ▸ h.unfollow hsep
  | load now followed mirrored => exact (h.followed _).addedAll hsep hop
  | restoreSnapshot now followed mirrored => exact ((exact_empty .empty).followed followed).addedAll hsep hop

/-- **The constructor** returns exactly when no entry that it would add has a pubkey. -/
theorem construct_ok_iff {followed mirrored : List (Entry U P)} :
    (∃ s, construct valid now followed mirrored = .ok s) ↔
      ∀ entry ∈ mirrored, valid entry.url = true → entry.pubkey = none := by
  have hloop : ∀ s : State U P, s.mirroredPubkeys = none →
      ((∃ s', mirrored.foldlM (addMirrored valid now) s = .ok s') ↔
        ∀ entry ∈ mirrored, valid entry.url = true → entry.pubkey = none) := by
    induction mirrored with
    | nil => exact fun s _ => ⟨fun _ => by simp, fun _ => ⟨s, rfl⟩⟩
    | cons entry mirrored ih =>
      intro s hs
      rw [List.forall_mem_cons, List.foldlM_cons, addMirrored]
      by_cases hvalid : valid entry.url = true
      · rw [if_pos hvalid]
        cases hp : entry.pubkey with
        | none =>
          refine (ih _ (by exact hs)).trans ?_
          simp
        | some pubkey =>
          simp only [hs]
          simp [hvalid]
      · rw [if_neg hvalid]
        refine (ih s hs).trans ?_
        simp [hvalid]
  rw [← hloop _ (addFollowed_mirrored valid now ⟨.empty, .empty, none⟩ followed).2]
  simp only [construct, guards_eq_ok]
  constructor
  · rintro ⟨_, s', h, _⟩
    exact ⟨s', h⟩
  · rintro ⟨s', h⟩
    exact ⟨_, s', h, rfl⟩

theorem exact_of_construct {followed mirrored : List (Entry U P)}
    (h : construct valid now followed mirrored = .ok s) : Exact s := by
  simp only [construct, guards_eq_ok] at h
  obtain ⟨s₁, -, rfl⟩ := h
  refine ⟨_, rfl, fun p => ?_⟩
  simp only [List.mem_toFinset, List.mem_filterMap, mem_values_iff, pubkeyAt, bind_eq_some_iff]
  exact ⟨fun ⟨entry, ⟨url, hurl⟩, hp⟩ => ⟨url, entry, hurl, hp⟩,
    fun ⟨url, entry, hurl, hp⟩ => ⟨entry, ⟨url, hurl⟩, hp⟩⟩

/-- **The trust set is exact** in every run of separate operations, from what the constructor returns; and
the constructor returns exactly when none of the entries has a pubkey. -/
theorem mirrored_exact (valid : U → Bool) (now : ℕ) (followed mirrored : List (Entry U P)) :
    ((∃ s, construct valid now followed mirrored = .ok s) ↔
      ∀ entry ∈ mirrored, valid entry.url = true → entry.pubkey = none) ∧
    ∀ s ops s', construct valid now followed mirrored = .ok s →
      RunMeets (step valid) (Separate valid) s ops → run (step valid) s ops = some s' →
      ∀ p : P, isMirroredPubkey s' (some p) = true ↔
        ∃ url entry, s'.mirrored.get? url = some entry ∧ entry.pubkey = some p := by
  refine ⟨construct_ok_iff, fun s ops s' hs hsep hrun p => isMirroredPubkey_of_exact ?_ p⟩
  refine run_invariant (Separate valid) Exact (fun s op s' h hsep hstep => ?_) (exact_of_construct hs) hsep hrun
  rw [step, some.injEq] at hstep
  cases hop : perform valid s op with
  | error e => rwa [← hstep, hop]
  | ok s₁ =>
    rw [← hstep, hop]
    exact h.perform hsep hop

/-- Two urls share a pubkey, one of them is mirrored again with another, and a third relay comes and
goes. -/
def sampleOps : List (Op ℕ ℕ) :=
  [.mirror 1 0 (some 7), .mirror 2 1 (some 7), .mirror 3 0 (some 9), .mirror 4 2 (some 8), .unfollow 2]

theorem separate_sampleOps :
    RunMeets (step fun _ => true) (Separate fun _ => true) ⟨.empty, .empty, some ∅⟩ sampleOps := by
  refine ⟨fun _ p hp => absurd (show none = some p from hp) (by simp), fun _ hs => ?_⟩
  cases hs
  refine ⟨fun _ p hp => absurd (show none = some p from hp) (by simp), fun _ hs => ?_⟩
  cases hs
  refine ⟨fun _ p hp => .inr ⟨1, by decide, hp⟩, fun _ hs => ?_⟩
  cases hs
  refine ⟨fun _ p hp => absurd (show none = some p from hp) (by simp), fun _ hs => ?_⟩
  cases hs
  refine ⟨fun p hp url' hne => ?_, fun _ _ => trivial⟩
  -- no other url has the pubkey of the relay that goes
  obtain rfl : 8 = p := some.inj hp
  change pubkeyAt ((((OrderedMap.empty.set 0 ⟨0, some 7, some 1⟩).set 1 ⟨1, some 7, some 2⟩).set 0
    ⟨0, some 9, some 3⟩).set 2 ⟨2, some 8, some 4⟩) url' ≠ some 8
  simp only [pubkeyAt_set, if_neg hne]
  split_ifs <;> simp [pubkeyAt]

theorem mirrored_exact_sample : ∃ s : State ℕ ℕ,
    run (step fun _ => true) ⟨.empty, .empty, some ∅⟩ sampleOps = some s ∧
      isMirroredPubkey s (some 7) = true ∧ isMirroredPubkey s (some 9) = true ∧
      ∀ p, isMirroredPubkey s (some p) = true ↔
        ∃ url entry, s.mirrored.get? url = some entry ∧ entry.pubkey = some p :=
  ⟨_, rfl, by decide +kernel, by decide +kernel, (mirrored_exact (fun _ => true) 0 [] []).2
    ⟨.empty, .empty, some ∅⟩ sampleOps _ rfl separate_sampleOps rfl⟩

/-- The constructor throws for a mirrored entry with a pubkey, a pubkey that was replaced is trusted, and
one that another url has is not. -/
theorem mirrored_inexact :
    construct (fun _ : ℕ => true) 0 [] [⟨0, some 7, none⟩] = (.error .typeError : Except _ (State ℕ ℕ)) ∧
    (∃ s s', construct (fun _ : ℕ => true) 0 [] [] = .ok s ∧
      run (step fun _ => true) s [.mirror 1 0 (some 7), .mirror 2 0 (some 8)] = some s' ∧
        isMirroredPubkey s' (some 7) = true ∧ s'.mirrored.values.map Entry.pubkey = [some 8]) ∧
    ∃ s s', construct (fun _ : ℕ => true) 0 [] [] = .ok s ∧
      run (step fun _ => true) s [.mirror 1 0 (some 7), .mirror 2 1 (some 7), .unfollow 0] = some s' ∧
        isMirroredPubkey s' (some 7) = false ∧ s'.mirrored.values.map Entry.pubkey = [some 7] :=
  ⟨rfl, ⟨_, _, rfl, rfl, by decide +kernel, by decide +kernel⟩,
    ⟨_, _, rfl, rfl, by decide +kernel, by decide +kernel⟩⟩

end HiveRelay.Federation
