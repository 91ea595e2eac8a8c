import HiveRelay.Lib.Guard
import HiveRelay.Lib.OrderedMap
import HiveRelay.Lib.Run
import Mathlib.Data.List.Sort

/-!
# Custody in the seeding registry

A publisher signs an intent, relays sign receipts for it, and the publisher signs a commit that names the
relays, and at last that the source is retired. The entries arrive in any order, from logs and from
peers. A receipt is checked against its intent when it arrives, if the intent is there. A commit and a
retirement are kept as they are and checked when the status is asked for, which is then cached.

An entry is taken here after its normalization. A text of 64 hexadecimal digits is the number it writes,
so that its order is the one of the texts. The hash of the receipts and the check of a signature are
parameters. The counts of the status are left out.
-/

namespace HiveRelay.Custody

open OrderedMap Option

abbrev Hex32 : Type := ℕ

/-! ### Entries -/

/-- The share custody an intent declares. -/
structure ShareTerms where
  shareScheme : String
  commitmentRoot : Hex32
  shareAssignments : List (Hex32 × ℕ)
  /-- Indices with their commitments. -/
  shareManifest : Option (List (ℕ × Hex32))

/-- `custody-intent`. -/
structure Intent where
  timestamp : ℕ
  (intentId blindContentId ciphertextRoot : Hex32)
  contentVersion : ℕ
  publisherPubkey : Hex32
  requiredReplicas : ℕ
  requiredReplicas_pos : 0 < requiredReplicas
  (deadline retainUntil : ℕ)
  shares : Option ShareTerms

/-- The share custody a receipt attests. -/
structure ShareClaim where
  shareScheme : String
  commitmentRoot : Hex32
  shareIndex : ℕ
  shareCommitment : Hex32
  shareVerified : Bool

/-- `custody-receipt`. -/
structure Receipt where
  timestamp : ℕ
  (intentId blindContentId ciphertextRoot : Hex32)
  contentVersion : ℕ
  relayPubkey : Hex32
  anchored : Bool
  (retainUntil signature : ℕ)
  shares : Option ShareClaim

/-- `custody-commit`. -/
structure Commit where
  timestamp : ℕ
  (intentId publisherPubkey : Hex32)
  relayQuorum : List Hex32
  receiptRoot : Hex32

/-- `source-retired`. -/
structure Retirement where
  timestamp : ℕ
  (intentId publisherPubkey : Hex32)

/-- The kinds of entries that are only listed. -/
inductive Kind where
  | proof | nonServingProof | expiryWitness
  deriving DecidableEq

/-- `custody-proof`, `custody-non-serving-proof`, `custody-expiry-witness`. -/
structure Attestation where
  kind : Kind
  timestamp : ℕ
  (intentId signer : Hex32)
  /-- What it is deduplicated by: the keys and the nonce. -/
  key : List Hex32

inductive Entry where
  | intent (i : Intent)
  | receipt (r : Receipt)
  | commit (c : Commit)
  | retired (x : Retirement)
  | attestation (a : Attestation)

def Entry.timestamp : Entry → ℕ
  | intent i => i.timestamp
  | receipt r => r.timestamp
  | commit c => c.timestamp
  | retired x => x.timestamp
  | attestation a => a.timestamp

/-- Who signs an entry: `SIGNER_FIELD_BY_TYPE`. -/
def Entry.signer : Entry → Hex32
  | intent i => i.publisherPubkey
  | receipt r => r.relayPubkey
  | commit c => c.publisherPubkey
  | retired x => x.publisherPubkey
  | attestation a => a.signer

/-! ### The rules -/

def computeReceiptRoot (hashLeaves : List ℕ → Hex32) (receipts : List Receipt) : Hex32 :=
  hashLeaves ((receipts.map Receipt.signature).insertionSort (· ≤ ·))

/-- The rules for the shares of a receipt. -/
def validateShares (r : Receipt) (requiredReplicas : ℕ) (terms : ShareTerms) : Except String Unit := do
  let claim ← demand r.shares "shareScheme mismatch"
  require (claim.shareScheme = terms.shareScheme) "shareScheme mismatch"
  require (claim.commitmentRoot = terms.commitmentRoot) "commitmentRoot mismatch"
  require (1 ≤ claim.shareIndex ∧ claim.shareIndex ≤ requiredReplicas) "shareIndex out of range"
  let assigned ← demand (terms.shareAssignments.lookup r.relayPubkey) "relay not in shareAssignments"
  require (assigned = claim.shareIndex) "shareIndex does not match assignment"
  if let some manifest := terms.shareManifest then
    let bound ← demand (manifest.lookup claim.shareIndex) "shareIndex not in shareManifest"
    require (claim.shareCommitment = bound) "shareCommitment does not match manifest binding"
  require (claim.shareVerified = true) "shareVerified must be true"

/-- `validateCustodyTransition`, of a receipt. -/
def validateReceipt (r : Receipt) : Option Intent → Except String Unit
  | none => pure ()
  | some i => do
    require (r.blindContentId = i.blindContentId) "blindContentId mismatch"
    require (r.ciphertextRoot = i.ciphertextRoot) "ciphertextRoot mismatch"
    require (r.contentVersion = i.contentVersion) "contentVersion mismatch"
    require (¬ i.deadline < r.timestamp) "receipt after deadline"
    require (¬ r.retainUntil < i.retainUntil) "retainUntil below intent"
    match i.shares with
    | some terms => validateShares r i.requiredReplicas terms
    | none => require (r.shares.isNone) "share custody declared for non-PVSS intent"

/-- The anchored receipts a commit names, or all of them if it names none. -/
def chosen (c : Commit) (receipts : List Receipt) : List Receipt :=
  let anchored := receipts.filter (·.anchored)
  if c.relayQuorum = [] then anchored else anchored.filter (·.relayPubkey ∈ c.relayQuorum)

/-- `validateCustodyTransition`, of a commit. -/
def validateCommit (hashLeaves : List ℕ → Hex32) (c : Commit) (intent : Option Intent)
    (receipts : List Receipt) : Except String Unit :=
  match intent with
  | none => pure ()
  | some i => do
    require (c.publisherPubkey = i.publisherPubkey) "publisherPubkey mismatch"
    let receipts := chosen c receipts
    require (c.relayQuorum = [] ∨ receipts.length = c.relayQuorum.length)
      "relayQuorum names receipts not yet visible to this relay"
    require (¬ receipts.length < i.requiredReplicas) "quorum not reached"
    require (c.receiptRoot = computeReceiptRoot hashLeaves receipts) "receiptRoot mismatch"
    require (c.relayQuorum = (receipts.map Receipt.relayPubkey).insertionSort (· ≤ ·)) "relayQuorum mismatch"
    if i.shares.isSome then
      let indices : List (Option ℕ) := receipts.map fun r => r.shares.map ShareClaim.shareIndex
      require (indices.all fun i => i.any fun n => decide (1 ≤ n)) "committed receipt missing shareIndex"
      require indices.Nodup "duplicate shareIndex in quorum"

/-- `validateCustodyTransition`, of a source retirement. -/
def validateRetirement (x : Retirement) (intent : Option Intent) (commit : Option Commit) :
    Except String Unit := do
  require (∀ i ∈ intent, x.publisherPubkey = i.publisherPubkey) "publisherPubkey mismatch"
  require (commit.isSome) "custody commit required before source retirement"

/-! ### The registry -/

/-- What `getCustodyStatus` returns. -/
structure Status where
  intent : Option Intent
  receipts : List Receipt
  commit : Option Commit
  commitPendingReason : Option String
  sourceRetirement : Option Retirement
  sourceRetirementPendingReason : Option String

def Status.committed (st : Status) : Bool := st.commit.isSome

def Status.sourceRetired (st : Status) : Bool := st.sourceRetirement.isSome

/-- `SeedingRegistry`, of its custody indexes. -/
structure Registry where
  custodyIntents : OrderedMap Hex32 Intent
  custodyReceipts : OrderedMap Hex32 (OrderedMap Hex32 Receipt)
  custodyCommits : OrderedMap Hex32 Commit
  sourceRetirements : OrderedMap Hex32 Retirement
  attestations : OrderedMap (Kind × Hex32) (List Attestation)
  custodyStatusCache : OrderedMap Hex32 Status

def Registry.init : Registry := ⟨.empty, .empty, .empty, .empty, .empty, .empty⟩

/-- The receipts of an intent, by relay. -/
def Registry.receiptsOf (s : Registry) (id : Hex32) : OrderedMap Hex32 Receipt :=
  (s.custodyReceipts.get? id).getD .empty

/-- The reason of a check that fails. -/
def pendingReason : Except String Unit → Option String
  | .ok () => none
  | .error reason => some reason

def computeStatus (hashLeaves : List ℕ → Hex32) (s : Registry) (id : Hex32) : Status :=
  let intent := s.custodyIntents.get? id
  let receipts := (s.receiptsOf id).values
  let rawCommit := s.custodyCommits.get? id
  let commitCheck := fun c => validateCommit hashLeaves c intent receipts
  let commit := rawCommit.filter fun c => (commitCheck c).isOk
  let sourceRetired := s.sourceRetirements.get? id
  let retirementCheck := fun x => validateRetirement x intent commit
  { intent
    receipts
    commit
    commitPendingReason := rawCommit.bind fun c => pendingReason (commitCheck c)
    sourceRetirement := sourceRetired.filter fun x => (retirementCheck x).isOk
    sourceRetirementPendingReason := sourceRetired.bind fun x => pendingReason (retirementCheck x) }

def getCustodyStatus (hashLeaves : List ℕ → Hex32) (s : Registry) (id : Hex32) : Status × Registry :=
  match s.custodyStatusCache.get? id with
  | some cached => (cached, s)
  | none =>
    let status := computeStatus hashLeaves s id
    (status, { s with custodyStatusCache := s.custodyStatusCache.set id status })

/-- `_invalidateCustodyStatus`. -/
def invalidate (s : Registry) (id : Hex32) : Registry :=
  { s with custodyStatusCache := s.custodyStatusCache.delete id }

def maxEntryFutureSkewMs : ℕ := 10 * 60 * 1000

def maxEntryAgeMs : ℕ := 180 * 24 * 60 * 60 * 1000

def isPlausibleTimestamp (now timestamp : ℕ) : Prop :=
  0 < timestamp ∧ timestamp ≤ now + maxEntryFutureSkewMs ∧ now ≤ timestamp + maxEntryAgeMs
  deriving Decidable

/-- A peer pushes only what it signed itself, of the kinds that relays and observers sign. -/
def fromPeer : Entry → Option Hex32 → Prop
  | .receipt r, some peer => r.relayPubkey = peer
  | .attestation a, some peer => a.kind = .expiryWitness ∨ a.signer = peer
  | _, _ => True

instance : (entry : Entry) → (peer : Option Hex32) → Decidable (fromPeer entry peer)
  | .receipt _, some _ => inferInstanceAs (Decidable (_ = _))
  | .attestation _, some _ => inferInstanceAs (Decidable (_ ∨ _))
  | .intent _, _ | .commit _, _ | .retired _, _ | .receipt _, none | .attestation _, none =>
    inferInstanceAs (Decidable True)

/-- `verifyCustodyEntry`, at a time. -/
abbrev Verify : Type := ℕ → Entry → Bool

def Verified (verifyCustodyEntry : Verify) (e : Entry) : Prop := ∃ now, verifyCustodyEntry now e = true

/-- `_normalizeIndexedEntry`: whether an entry is indexed. A receipt fills the cache. -/
def normalizeIndexedEntry (hashLeaves : List ℕ → Hex32) (verifyCustodyEntry : Verify) (now : ℕ)
    (entry : Entry) (peer : Option Hex32) (s : Registry) : Bool × Registry :=
  if isPlausibleTimestamp now entry.timestamp ∧ verifyCustodyEntry now entry = true ∧ fromPeer entry peer then
    match entry with
    | .receipt r =>
      let (status, s) := getCustodyStatus hashLeaves s r.intentId
      ((validateReceipt r status.intent).isOk, s)
    | _ => (true, s)
  else (false, s)

/-- An entry takes a place that is free, or the one of an entry that is not newer. -/
def Replaces (timestamp : ℕ) (current : Option ℕ) : Prop := ∀ old ∈ current, old ≤ timestamp

instance (timestamp : ℕ) (current : Option ℕ) : Decidable (Replaces timestamp current) :=
  decidable_of_iff (current.all (· ≤ timestamp) = true) (by cases current <;> simp [Replaces])

def upsert (a : Attestation) : List Attestation → List Attestation
  | [] => [a]
  | b :: list => if b.key = a.key then (if b.timestamp ≤ a.timestamp then a else b) :: list
    else b :: upsert a list

/-- What `_applyEntry` does to the indexes. -/
def index (entry : Entry) (s : Registry) : Registry :=
  match entry with
  | .intent i =>
    if Replaces i.timestamp ((s.custodyIntents.get? i.intentId).map Intent.timestamp) then
      invalidate { s with custodyIntents := s.custodyIntents.set i.intentId i } i.intentId
    else s
  | .receipt r =>
    let receipts := s.receiptsOf r.intentId
    if Replaces r.timestamp ((receipts.get? r.relayPubkey).map Receipt.timestamp) then
      invalidate { s with
        custodyReceipts := s.custodyReceipts.set r.intentId (receipts.set r.relayPubkey r) } r.intentId
    else s
  | .commit c =>
    if Replaces c.timestamp ((s.custodyCommits.get? c.intentId).map Commit.timestamp) then
      invalidate { s with custodyCommits := s.custodyCommits.set c.intentId c } c.intentId
    else s
  | .retired x =>
    if s.sourceRetirements.get? x.intentId = none then
      invalidate { s with sourceRetirements := s.sourceRetirements.set x.intentId x } x.intentId
    else s
  | .attestation a =>
    let list := (s.attestations.get? (a.kind, a.intentId)).getD []
    invalidate { s with attestations := s.attestations.set (a.kind, a.intentId) (upsert a list) } a.intentId

inductive Move where
  /-- `_applyEntry`, with the clock and the peer. -/
  | apply (now : ℕ) (entry : Entry) (peer : Option Hex32)
  /-- `getCustodyStatus`. -/
  | query (id : Hex32)

def step (hashLeaves : List ℕ → Hex32) (verifyCustodyEntry : Verify) (s : Registry) : Move → Option Registry
  | .apply now entry peer =>
    let (valid, s) := normalizeIndexedEntry hashLeaves verifyCustodyEntry now entry peer s
    some (if valid then index entry s else s)
  | .query id => some (getCustodyStatus hashLeaves s id).2

/-! ### The cache -/

section Cache

variable {hashLeaves : List ℕ → Hex32} {verifyCustodyEntry : Verify} {s s' : Registry} {id : Hex32}

/-- The cache holds what would be computed. -/
def Sound (hashLeaves : List ℕ → Hex32) (s : Registry) : Prop :=
  ∀ id status, s.custodyStatusCache.get? id = some status → status = computeStatus hashLeaves s id

theorem computeStatus_congr (hintent : s'.custodyIntents.get? id = s.custodyIntents.get? id)
    (hreceipts : s'.receiptsOf id = s.receiptsOf id)
    (hcommit : s'.custodyCommits.get? id = s.custodyCommits.get? id)
    (hretired : s'.sourceRetirements.get? id = s.sourceRetirements.get? id) :
    computeStatus hashLeaves s' id = computeStatus hashLeaves s id := by
  simp only [computeStatus, hintent, hreceipts, hcommit, hretired]

/-- **The cache** says what would be computed. -/
theorem getCustodyStatus_eq (hs : Sound hashLeaves s) (id : Hex32) :
    (getCustodyStatus hashLeaves s id).1 = computeStatus hashLeaves s id := by
  unfold getCustodyStatus
  split
  · next status hcached => exact hs id status hcached
  · rfl

theorem getCustodyStatus_snd (hs : Sound hashLeaves s) (id : Hex32) :
    ∃ cache, (getCustodyStatus hashLeaves s id).2 = { s with custodyStatusCache := cache } ∧
      Sound hashLeaves { s with custodyStatusCache := cache } := by
  unfold getCustodyStatus
  split
  · exact ⟨_, rfl, hs⟩
  · refine ⟨_, rfl, fun id' status h => ?_⟩
    rw [get?_set] at h
    split at h
    · next heq => exact heq ▸ (some.inj h).symm
    · exact hs id' status h

theorem sound_invalidate (hs : Sound hashLeaves s) (hcache : s'.custodyStatusCache = s.custodyStatusCache)
    (hsame : ∀ id' ≠ id, computeStatus hashLeaves s' id' = computeStatus hashLeaves s id') :
    Sound hashLeaves (invalidate s' id) := by
  intro id' status h
  rw [invalidate, hcache, get?_delete] at h
  split at h
  · cases h
  · next hne => exact (hs id' status h).trans (hsame id' hne).symm

end Cache

/-! ### What a move does -/

/-- What a move does to the indexes, the cache apart. -/
inductive Effect (verifyCustodyEntry : Verify) (s : Registry) : Move → Registry → Prop where
  | idle {m : Move} (attestations : OrderedMap (Kind × Hex32) (List Attestation))
      (cache : OrderedMap Hex32 Status) :
      Effect verifyCustodyEntry s m { s with attestations, custodyStatusCache := cache }
  | intent {now : ℕ} {peer : Option Hex32} (i : Intent) (cache : OrderedMap Hex32 Status)
      (hverify : Verified verifyCustodyEntry (.intent i))
      (hreplaces : Replaces i.timestamp ((s.custodyIntents.get? i.intentId).map Intent.timestamp)) :
      Effect verifyCustodyEntry s (.apply now (.intent i) peer)
        { s with custodyIntents := s.custodyIntents.set i.intentId i, custodyStatusCache := cache }
  | receipt {now : ℕ} {peer : Option Hex32} (r : Receipt) (cache : OrderedMap Hex32 Status)
      (hverify : Verified verifyCustodyEntry (.receipt r))
      (hvalid : (validateReceipt r (s.custodyIntents.get? r.intentId)).isOk = true) :
      Effect verifyCustodyEntry s (.apply now (.receipt r) peer)
        { s with
          custodyReceipts :=
            s.custodyReceipts.set r.intentId ((s.receiptsOf r.intentId).set r.relayPubkey r)
          custodyStatusCache := cache }
  | commit {now : ℕ} {peer : Option Hex32} (c : Commit) (cache : OrderedMap Hex32 Status)
      (hverify : Verified verifyCustodyEntry (.commit c))
      (hreplaces : Replaces c.timestamp ((s.custodyCommits.get? c.intentId).map Commit.timestamp)) :
      Effect verifyCustodyEntry s (.apply now (.commit c) peer)
        { s with custodyCommits := s.custodyCommits.set c.intentId c, custodyStatusCache := cache }
  | retired {now : ℕ} {peer : Option Hex32} (x : Retirement) (cache : OrderedMap Hex32 Status)
      (hverify : Verified verifyCustodyEntry (.retired x))
      (hfree : s.sourceRetirements.get? x.intentId = none) :
      Effect verifyCustodyEntry s (.apply now (.retired x) peer)
        { s with
          sourceRetirements := s.sourceRetirements.set x.intentId x
          custodyStatusCache := cache }

section Effect

variable {hashLeaves : List ℕ → Hex32} {verifyCustodyEntry : Verify} {s s' : Registry}

theorem receiptsOf_set (receipts : OrderedMap Hex32 Receipt) (id id' : Hex32) (cache : OrderedMap Hex32 Status) :
    Registry.receiptsOf { s with
        custodyReceipts := s.custodyReceipts.set id receipts, custodyStatusCache := cache } id' =
      if id' = id then receipts else s.receiptsOf id' := by
  simp only [Registry.receiptsOf, get?_set]
  split <;> rfl

theorem index_effect (now : ℕ) (peer : Option Hex32) {e : Entry} (hs : Sound hashLeaves s)
    (hverify : Verified verifyCustodyEntry e)
    (hvalid : ∀ r, e = .receipt r → (validateReceipt r (s.custodyIntents.get? r.intentId)).isOk = true) :
    Effect verifyCustodyEntry s (.apply now e peer) (index e s) ∧ Sound hashLeaves (index e s) := by
  cases e with
  | intent i =>
    simp only [index]
    split
    · next hreplaces =>
      refine ⟨.intent i _ hverify hreplaces, sound_invalidate hs rfl fun id' hne => ?_⟩
      exact computeStatus_congr (get?_set_of_ne hne) rfl rfl rfl
    · exact ⟨.idle _ _, hs⟩
  | receipt r =>
    simp only [index]
    split
    · refine ⟨.receipt r _ hverify (hvalid r rfl), sound_invalidate hs rfl fun id' hne => ?_⟩
      exact computeStatus_congr rfl ((receiptsOf_set _ _ _ _).trans (if_neg hne)) rfl rfl
    · exact ⟨.idle _ _, hs⟩
  | commit c =>
    simp only [index]
    split
    · next hreplaces =>
      refine ⟨.commit c _ hverify hreplaces, sound_invalidate hs rfl fun id' hne => ?_⟩
      exact computeStatus_congr rfl rfl (get?_set_of_ne hne) rfl
    · exact ⟨.idle _ _, hs⟩
  | retired x =>
    simp only [index]
    split
    · next hfree =>
      refine ⟨.retired x _ hverify hfree, sound_invalidate hs rfl fun id' hne => ?_⟩
      exact computeStatus_congr rfl rfl rfl (get?_set_of_ne hne)
    · exact ⟨.idle _ _, hs⟩
  | attestation a =>
    exact ⟨.idle _ _, sound_invalidate hs rfl fun id' _ => computeStatus_congr rfl rfl rfl rfl⟩

theorem normalizeIndexedEntry_of_ne {now : ℕ} {peer : Option Hex32} {e : Entry}
    (hentry : isPlausibleTimestamp now e.timestamp ∧ verifyCustodyEntry now e = true ∧ fromPeer e peer)
    (hne : ∀ r, e ≠ .receipt r) :
    normalizeIndexedEntry hashLeaves verifyCustodyEntry now e peer s = (true, s) := by
  rw [normalizeIndexedEntry, if_pos hentry]
  exact hne

/-- A receipt is checked against the intent that is indexed. -/
theorem normalizeIndexedEntry_receipt (hs : Sound hashLeaves s) {now : ℕ} {peer : Option Hex32} {r : Receipt}
    (hentry : isPlausibleTimestamp now (Entry.receipt r).timestamp ∧ verifyCustodyEntry now (.receipt r) = true ∧
      fromPeer (.receipt r) peer) :
    ∃ cache, Sound hashLeaves { s with custodyStatusCache := cache } ∧
      normalizeIndexedEntry hashLeaves verifyCustodyEntry now (.receipt r) peer s =
        ((validateReceipt r (s.custodyIntents.get? r.intentId)).isOk, { s with custodyStatusCache := cache }) := by
  obtain ⟨cache, hcache, hsound⟩ := getCustodyStatus_snd hs r.intentId
  refine ⟨cache, hsound, ?_⟩
  rw [normalizeIndexedEntry, if_pos hentry, ← hcache]
  simp only [getCustodyStatus_eq hs]
  rfl

/-- An entry passes its own checks, and a receipt those against the intent that is indexed. -/
def Admitted (verifyCustodyEntry : Verify) (s : Registry) (now : ℕ) (e : Entry) (peer : Option Hex32) : Prop :=
  (isPlausibleTimestamp now e.timestamp ∧ verifyCustodyEntry now e = true ∧ fromPeer e peer) ∧
    ∀ r, e = .receipt r → (validateReceipt r (s.custodyIntents.get? r.intentId)).isOk = true

/-- **An entry that is applied** is indexed exactly if it is admitted. The check may fill the cache. -/
theorem step_apply {now : ℕ} {e : Entry} {peer : Option Hex32} (hs : Sound hashLeaves s)
    (h : step hashLeaves verifyCustodyEntry s (.apply now e peer) = some s') :
    ∃ cache, Sound hashLeaves { s with custodyStatusCache := cache } ∧
      (Admitted verifyCustodyEntry s now e peer ∧ s' = index e { s with custodyStatusCache := cache } ∨
        ¬ Admitted verifyCustodyEntry s now e peer ∧ s' = { s with custodyStatusCache := cache }) := by
  by_cases hentry : isPlausibleTimestamp now e.timestamp ∧ verifyCustodyEntry now e = true ∧ fromPeer e peer
  · cases e with
    | receipt r =>
      obtain ⟨cache, hsound, hnormalized⟩ := normalizeIndexedEntry_receipt hs hentry
      simp only [step, hnormalized, some.injEq] at h
      subst h
      refine ⟨cache, hsound, ?_⟩
      split
      · next hvalid => exact .inl ⟨⟨hentry, fun r' hr' => Entry.receipt.inj hr' ▸ hvalid⟩, rfl⟩
      · next hvalid => exact .inr ⟨fun hadmitted => hvalid (hadmitted.2 r rfl), rfl⟩
    | intent i | commit c | retired x | attestation a =>
      have hnormalized : normalizeIndexedEntry hashLeaves verifyCustodyEntry now _ peer s = _ :=
        normalizeIndexedEntry_of_ne hentry (by simp)
      simp only [step, hnormalized, if_true, some.injEq] at h
      exact ⟨s.custodyStatusCache, hs, .inl ⟨⟨hentry, by simp⟩, h.symm⟩⟩
  · have hnormalized : normalizeIndexedEntry hashLeaves verifyCustodyEntry now e peer s = (false, s) :=
      if_neg hentry
    simp only [step, hnormalized, Bool.false_eq_true, if_false, some.injEq] at h
    exact ⟨s.custodyStatusCache, hs, .inr ⟨fun hadmitted => hentry hadmitted.1, h.symm⟩⟩

/-- What a move does does not depend on the cache. -/
theorem Effect.of_cache {m : Move} {cache : OrderedMap Hex32 Status}
    (h : Effect verifyCustodyEntry { s with custodyStatusCache := cache } m s') : Effect verifyCustodyEntry s m s' := by
  cases h with
  | idle attestations cache' => exact .idle _ _
  | intent i cache' hverify hreplaces => exact .intent i _ hverify hreplaces
  | receipt r cache' hverify hvalid => exact .receipt r _ hverify hvalid
  | commit c cache' hverify hreplaces => exact .commit c _ hverify hreplaces
  | retired x cache' hverify hfree => exact .retired x _ hverify hfree

/-- **What a move does**, with a cache that stays sound. -/
theorem step_effect {m : Move} (hs : Sound hashLeaves s) (h : step hashLeaves verifyCustodyEntry s m = some s') :
    Effect verifyCustodyEntry s m s' ∧ Sound hashLeaves s' := by
  cases m with
  | query id =>
    obtain ⟨cache, hcache, hsound⟩ := getCustodyStatus_snd hs id
    cases h
    rw [hcache]
    exact ⟨.idle _ _, hsound⟩
  | apply now e peer =>
    obtain ⟨cache, hsound, ⟨⟨hentry, hvalid⟩, rfl⟩ | ⟨-, rfl⟩⟩ := step_apply hs h
    · obtain ⟨heffect, hsound'⟩ := index_effect now peer hsound ⟨now, hentry.2.1⟩ hvalid
      exact ⟨heffect.of_cache, hsound'⟩
    · exact ⟨.idle _ _, hsound⟩

end Effect

end HiveRelay.Custody
