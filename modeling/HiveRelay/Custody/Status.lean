import HiveRelay.Custody.Registry

/-!
# What a custody status is worth

The status says that an intent is committed when the commit that is indexed passes the rules. These ask
for anchored receipts from the relays it names, but they do not check the receipts again: that was done
when each of them arrived, against the intent that was indexed then. So the status is worth what it says
when every intent is indexed before its receipts, or after receipts that fit it, and before its commits.

An entry of somebody else takes the place of an intent or of a commit when it is as new, and a place that is
free, whoever signed it. As long as it takes no place it does not count: the status is a function of the other
entries.

## Main definitions

* `Indexed`, `Reached` — what holds of the indexes in every state
* `Witnessed` — what a commit is backed by
* `InOrder` — the order of arrival in which it is
* `Foreign`, `LeavesPlaces` — entries of others, and those that take no place
* `View` — what the status of an intent is computed from

## Main results

* `custody_commit_sound` — what is committed is backed, when the entries arrive in order
* `committed_without_fitting_receipt` — and not otherwise
* `foreign_entries_keep_status` — entries of others that take no place do not count
* `foreign_entries_change_status` — those that take one do
-/

namespace HiveRelay.Custody

open List Option OrderedMap

variable {hashLeaves : List ℕ → Hex32} {verifyCustodyEntry : Verify} {s s' : Registry}

theorem isOk_iff {ε α : Type} {x : Except ε α} : x.isOk = true ↔ ∃ a, x = .ok a := by
  cases x <;> simp [Except.isOk, Except.toBool]

/-! ### What is indexed -/

/-- What is indexed was signed, and is where it belongs. -/
structure Indexed (verifyCustodyEntry : Verify) (s : Registry) : Prop where
  intents : ∀ id i, s.custodyIntents.get? id = some i → i.intentId = id ∧ Verified verifyCustodyEntry (.intent i)
  receipts : ∀ id k r, (s.receiptsOf id).get? k = some r →
    r.relayPubkey = k ∧ Verified verifyCustodyEntry (.receipt r)
  commits : ∀ id c, s.custodyCommits.get? id = some c → c.intentId = id ∧ Verified verifyCustodyEntry (.commit c)
  retired : ∀ id x, s.sourceRetirements.get? id = some x → x.intentId = id ∧ Verified verifyCustodyEntry (.retired x)

variable {r : Receipt} {id : Hex32}

theorem get?_receiptsOf_set {cache : OrderedMap Hex32 Status} {k : Hex32} :
    (Registry.receiptsOf { s with
        custodyReceipts :=
          s.custodyReceipts.set r.intentId ((s.receiptsOf r.intentId).set r.relayPubkey r)
        custodyStatusCache := cache } id).get? k =
      if id = r.intentId ∧ k = r.relayPubkey then some r else (s.receiptsOf id).get? k := by
  rw [receiptsOf_set]
  by_cases hid : id = r.intentId
  · subst hid
    simp [get?_set]
  · simp [hid]

variable {m : Move}

theorem Indexed.effect (hs : Indexed verifyCustodyEntry s)
    (h : Effect verifyCustodyEntry s m s') : Indexed verifyCustodyEntry s' := by
  cases h with
  | idle attestations cache => exact ⟨hs.intents, hs.receipts, hs.commits, hs.retired⟩
  | intent i cache hverify _ =>
    exact ⟨forall_set hs.intents ⟨rfl, hverify⟩, hs.receipts, hs.commits, hs.retired⟩
  | receipt r cache hverify _ =>
    refine ⟨hs.intents, fun id k r' hr' => ?_, hs.commits, hs.retired⟩
    rw [get?_receiptsOf_set] at hr'
    split at hr'
    · next heq =>
      cases hr'
      exact ⟨heq.2.symm, hverify⟩
    · exact hs.receipts id k r' hr'
  | commit c cache hverify _ =>
    exact ⟨hs.intents, hs.receipts, forall_set hs.commits ⟨rfl, hverify⟩, hs.retired⟩
  | retired x cache hverify _ =>
    exact ⟨hs.intents, hs.receipts, hs.commits, forall_set hs.retired ⟨rfl, hverify⟩⟩

/-- What holds in every state that is reached. -/
structure Reached (hashLeaves : List ℕ → Hex32) (verifyCustodyEntry : Verify) (s : Registry) : Prop where
  sound : Sound hashLeaves s
  indexed : Indexed verifyCustodyEntry s

theorem reached_init : Reached hashLeaves verifyCustodyEntry .init :=
  ⟨nofun, ⟨nofun, nofun,
    nofun, nofun⟩⟩

theorem Reached.step (hs : Reached hashLeaves verifyCustodyEntry s)
    (h : step hashLeaves verifyCustodyEntry s m = some s') : Reached hashLeaves verifyCustodyEntry s' :=
  have heffect := step_effect hs.sound h
  ⟨heffect.2, hs.indexed.effect heffect.1⟩

/-- **What is indexed was signed**, and the cache is sound, whatever has arrived. -/
theorem reached_of_run {moves : List Move} (hrun : run (step hashLeaves verifyCustodyEntry) .init moves = some s) :
    Reached hashLeaves verifyCustodyEntry s :=
  run_preserves _ (fun _ _ _ => Reached.step) reached_init hrun

/-! ### The rules -/

structure ReceiptRules (r : Receipt) (i : Intent) : Prop where
  blindContentId : r.blindContentId = i.blindContentId
  ciphertextRoot : r.ciphertextRoot = i.ciphertextRoot
  contentVersion : r.contentVersion = i.contentVersion
  deadline : r.timestamp ≤ i.deadline
  retainUntil : i.retainUntil ≤ r.retainUntil
  shares : ∀ terms ∈ i.shares, ∃ claim ∈ r.shares, claim.shareScheme = terms.shareScheme ∧
    claim.commitmentRoot = terms.commitmentRoot ∧ claim.shareIndex ≤ i.requiredReplicas ∧
    terms.shareAssignments.lookup r.relayPubkey = some claim.shareIndex ∧ claim.shareVerified = true

theorem validateShares_ok {required : ℕ} {terms : ShareTerms} {u : Unit}
    (h : validateShares r required terms = .ok u) :
    ∃ claim ∈ r.shares, claim.shareScheme = terms.shareScheme ∧
      claim.commitmentRoot = terms.commitmentRoot ∧ claim.shareIndex ≤ required ∧
      terms.shareAssignments.lookup r.relayPubkey = some claim.shareIndex ∧
      claim.shareVerified = true := by
  simp only [validateShares, guards_eq_ok] at h
  obtain ⟨claim, hclaim, hscheme, hroot, hindex, assigned, hassigned, heq, h⟩ := h
  refine ⟨claim, hclaim, hscheme, hroot, hindex.2, heq ▸ hassigned, ?_⟩
  split at h
  · simp only [guards_eq_ok] at h
    obtain ⟨_, -, -, hverified⟩ := h
    exact hverified
  · exact require_eq_ok.mp h

variable {i : Intent}

theorem receiptRules (h : (validateReceipt r (some i)).isOk = true) : ReceiptRules r i := by
  obtain ⟨u, hu⟩ := isOk_iff.mp h
  simp only [validateReceipt, guards_eq_ok, not_lt] at hu
  obtain ⟨hblind, hroot, hversion, hdeadline, hretain, hshares⟩ := hu
  refine ⟨hblind, hroot, hversion, hdeadline, hretain, fun terms hterms => ?_⟩
  rw [mem_def.mp hterms] at hshares
  exact validateShares_ok hshares

structure CommitRules (c : Commit) (i : Intent) (receipts : List Receipt) : Prop where
  publisherPubkey : c.publisherPubkey = i.publisherPubkey
  required : i.requiredReplicas ≤ (chosen c receipts).length
  quorum : c.relayQuorum = ((chosen c receipts).map Receipt.relayPubkey).insertionSort (· ≤ ·)
  distinct : i.shares.isSome = true → ((chosen c receipts).map fun r => r.shares.map ShareClaim.shareIndex).Nodup

variable {c : Commit} {receipts : List Receipt}

theorem commitRules (h : (validateCommit hashLeaves c (some i) receipts).isOk = true) : CommitRules c i receipts := by
  obtain ⟨u, hu⟩ := isOk_iff.mp h
  simp only [validateCommit, guards_eq_ok, not_lt] at hu
  obtain ⟨hpublisher, -, hrequired, -, hquorum, hdistinct⟩ := hu
  refine ⟨hpublisher, hrequired, hquorum, fun hshares => ?_⟩
  rw [if_pos hshares] at hdistinct
  simp only [guards_eq_ok] at hdistinct
  exact hdistinct.2

theorem mem_chosen (h : r ∈ chosen c receipts) : r ∈ receipts ∧ r.anchored = true := by
  unfold chosen at h
  split at h
  · exact mem_filter.mp h
  · exact mem_filter.mp (mem_of_mem_filter h)

theorem chosen_sublist (c : Commit) (receipts : List Receipt) : (chosen c receipts).Sublist receipts := by
  unfold chosen
  split
  · exact filter_sublist
  · exact filter_sublist.trans filter_sublist

theorem CommitRules.quorum_ne_nil (h : CommitRules c i receipts) : c.relayQuorum ≠ [] := by
  intro hnil
  have hlength := congrArg length h.quorum
  rw [hnil, length_insertionSort, length_map] at hlength
  have := h.required
  have := i.requiredReplicas_pos
  simp at hlength
  omega

theorem Indexed.nodup_relays (hs : Indexed verifyCustodyEntry s) (id : Hex32) :
    ((s.receiptsOf id).values.map Receipt.relayPubkey).Nodup := by
  have hkeys : (s.receiptsOf id).values.map Receipt.relayPubkey = (s.receiptsOf id).entries.map Prod.fst := by
    rw [OrderedMap.values, List.map_map]
    exact map_congr_left fun e he => (hs.receipts id e.1 e.2 (mem_entries_iff.mp he)).1
  rw [hkeys]
  exact (s.receiptsOf id).nodup_keys

/-! ### Commits -/

/-- What a commit is backed by: the publisher signed the intent and the commit, which names as many
relays as the intent requires, all different, and each of them signed a receipt that fits the intent. The
shares are all different. -/
structure Witnessed (verifyCustodyEntry : Verify) (s : Registry) (id : Hex32) (c : Commit)
    (i : Intent) : Prop where
  intent : s.custodyIntents.get? id = some i
  intent_signed : Verified verifyCustodyEntry (.intent i)
  commit_signed : Verified verifyCustodyEntry (.commit c)
  publisherPubkey : c.publisherPubkey = i.publisherPubkey
  nodup : c.relayQuorum.Nodup
  required : i.requiredReplicas ≤ c.relayQuorum.length
  receipts : ∀ k ∈ c.relayQuorum, ∃ r, (s.receiptsOf id).get? k = some r ∧
    Verified verifyCustodyEntry (.receipt r) ∧ r.relayPubkey = k ∧ r.anchored = true ∧ ReceiptRules r i
  shares : i.shares.isSome = true → ∀ k ∈ c.relayQuorum, ∀ k' ∈ c.relayQuorum, ∀ r r',
    (s.receiptsOf id).get? k = some r → (s.receiptsOf id).get? k' = some r' →
    r.shares.map ShareClaim.shareIndex = r'.shares.map ShareClaim.shareIndex → k = k'

/-- The receipts that a commit names fit an intent. -/
def NamedFit (s : Registry) (id : Hex32) (c : Commit) (i : Intent) : Prop :=
  ∀ k ∈ c.relayQuorum, ∀ r, (s.receiptsOf id).get? k = some r → (validateReceipt r (some i)).isOk = true

/-- An intent that takes its place fits the receipts that the indexed commit names, and a commit that takes its
place comes after its intent, which fits those it names. Of entries that do not verify nothing is asked. -/
def InOrder (verifyCustodyEntry : Verify) (s : Registry) : Move → Prop
  | .apply _ (.intent i) _ =>
    Verified verifyCustodyEntry (.intent i) →
      Replaces i.timestamp ((s.custodyIntents.get? i.intentId).map Intent.timestamp) →
        ∀ c, s.custodyCommits.get? i.intentId = some c → NamedFit s i.intentId c i
  | .apply _ (.commit c) _ =>
    Verified verifyCustodyEntry (.commit c) →
      Replaces c.timestamp ((s.custodyCommits.get? c.intentId).map Commit.timestamp) →
        ∃ i, s.custodyIntents.get? c.intentId = some i ∧ NamedFit s c.intentId c i
  | _ => True

/-- Every commit has its intent, and the receipts it names fit it. -/
def Ordered (s : Registry) : Prop :=
  ∀ id c, s.custodyCommits.get? id = some c → ∃ i, s.custodyIntents.get? id = some i ∧ NamedFit s id c i

/-- **A step in order** keeps everything fitting. -/
theorem Ordered.effect (hs : Ordered s) (horder : InOrder verifyCustodyEntry s m)
    (h : Effect verifyCustodyEntry s m s') : Ordered s' := by
  cases h with
  | idle attestations cache => exact hs
  | intent i cache hverify hreplaces =>
    intro id c hc
    by_cases hid : id = i.intentId
    · subst hid
      exact ⟨i, get?_set_self, horder hverify hreplaces c hc⟩
    · obtain ⟨i', hi', hfit⟩ := hs id c hc
      exact ⟨i', (get?_set_of_ne hid).trans hi', hfit⟩
  | receipt r cache hverify hvalid =>
    intro id c hc
    obtain ⟨i, hi, hfit⟩ := hs id c hc
    refine ⟨i, hi, fun k hk r' hr' => ?_⟩
    rw [get?_receiptsOf_set] at hr'
    split at hr'
    · next heq =>
      cases hr'
      obtain ⟨rfl, -⟩ := heq
      rwa [hi] at hvalid
    · exact hfit k hk r' hr'
  | commit c cache hverify hreplaces => exact forall_set hs (horder hverify hreplaces)
  | retired x cache hverify hfree => exact hs

theorem ordered_init : Ordered .init := nofun

theorem witnessed_of_commit (hs : Ordered s) (hindexed : Indexed verifyCustodyEntry s)
    (hc : (computeStatus hashLeaves s id).commit = some c) :
    ∃ i, Witnessed verifyCustodyEntry s id c i := by
  obtain ⟨hraw, hvalid⟩ := filter_eq_some_iff.mp hc
  obtain ⟨i, hi, hfit⟩ := hs id c hraw
  simp only [hi] at hvalid
  have hrules := commitRules hvalid
  have hnodup := (hindexed.nodup_relays id).sublist
    ((chosen_sublist c (s.receiptsOf id).values).map Receipt.relayPubkey)
  have hmem : ∀ {k r}, k ∈ c.relayQuorum → (s.receiptsOf id).get? k = some r →
      r ∈ chosen c (s.receiptsOf id).values := by
    intro k r hk hr
    rw [hrules.quorum, mem_insertionSort] at hk
    obtain ⟨r', hr', hkr'⟩ := mem_map.mp hk
    obtain ⟨k', hget⟩ := mem_values_iff.mp (mem_chosen hr').1
    obtain rfl : k' = k := (hindexed.receipts id k' r' hget).1.symm.trans hkr'
    exact mem_unique hr hget ▸ hr'
  refine ⟨i, hi, (hindexed.intents id i hi).2, (hindexed.commits id c hraw).2, hrules.publisherPubkey,
    ?_, ?_, fun k hk => ?_, fun hshares k hk k' hk' r r' hr hr' heq => ?_⟩
  · rw [hrules.quorum]
    exact (perm_insertionSort _ _).nodup_iff.mpr hnodup
  · rw [hrules.quorum, length_insertionSort, length_map]
    exact hrules.required
  · have hnamed := hk
    rw [hrules.quorum, mem_insertionSort] at hk
    obtain ⟨r, hr, rfl⟩ := mem_map.mp hk
    obtain ⟨hvalues, hanchored⟩ := mem_chosen hr
    obtain ⟨k, hget⟩ := mem_values_iff.mp hvalues
    obtain ⟨hkey, hsigned⟩ := hindexed.receipts id k r hget
    have hget : (s.receiptsOf id).get? r.relayPubkey = some r := hkey ▸ hget
    exact ⟨r, hget, hsigned, rfl, hanchored, receiptRules (hfit _ hnamed r hget)⟩
  · have hsame := inj_on_of_nodup_map (hrules.distinct hshares) (hmem hk hr) (hmem hk' hr') heq
    rw [← (hindexed.receipts id k r hr).1, ← (hindexed.receipts id k' r' hr').1, hsame]

/-- **What is committed is backed**, when the entries arrive in order. And what is retired is committed. -/
theorem custody_commit_sound (hashLeaves : List ℕ → Hex32) (verifyCustodyEntry : Verify)
    (moves : List Move) {s : Registry}
    (hrun : run (step hashLeaves verifyCustodyEntry) .init moves = some s)
    (horder : RunMeets (step hashLeaves verifyCustodyEntry) (InOrder verifyCustodyEntry) .init moves) (id : Hex32) :
    ((getCustodyStatus hashLeaves s id).1.committed = true →
      ∃ c i, (getCustodyStatus hashLeaves s id).1.commit = some c ∧ Witnessed verifyCustodyEntry s id c i) ∧
    ((getCustodyStatus hashLeaves s id).1.sourceRetired = true →
      (getCustodyStatus hashLeaves s id).1.committed = true) := by
  have hreached := reached_of_run hrun
  have hordered := (run_invariant (InOrder verifyCustodyEntry)
    (fun s => Reached hashLeaves verifyCustodyEntry s ∧ Ordered s)
    (fun s m s' hs hm hstep => ⟨hs.1.step hstep, hs.2.effect hm (step_effect hs.1.sound hstep).1⟩)
    ⟨reached_init, ordered_init⟩ horder hrun).2
  rw [getCustodyStatus_eq hreached.sound]
  refine ⟨fun hcommitted => ?_, fun hretired => ?_⟩
  · obtain ⟨c, hc⟩ := isSome_iff_exists.mp hcommitted
    obtain ⟨i, hi⟩ := witnessed_of_commit hordered hreached.indexed hc
    exact ⟨c, i, hc, hi⟩
  · obtain ⟨x, hx⟩ := isSome_iff_exists.mp hretired
    obtain ⟨-, hvalid⟩ := filter_eq_some_iff.mp hx
    obtain ⟨u, hu⟩ := isOk_iff.mp hvalid
    simp only [validateRetirement, guards_eq_ok] at hu
    exact hu.2

def sampleIntent (timestamp publisherPubkey : ℕ) : Intent :=
  ⟨timestamp, 1, 2, 3, 4, publisherPubkey, 1, Nat.one_pos, 1000, 1000, none⟩

def sampleReceipt (blindContentId : Hex32) : Receipt :=
  ⟨100, 1, blindContentId, 3, 4, 9, true, 1000, 0, none⟩

def sampleCommit (timestamp publisherPubkey : ℕ) : Commit := ⟨timestamp, 1, publisherPubkey, [9], 0⟩

/-- A step whose signatures all verify. -/
def sampleStep : Registry → Move → Option Registry := step (fun _ => 0) fun _ _ => true

/-- Entries of the publisher 5, in order. -/
def sampleMoves : List Move :=
  [.apply 100 (.intent (sampleIntent 100 5)) none, .apply 100 (.receipt (sampleReceipt 2)) none,
    .apply 100 (.commit (sampleCommit 100 5)) none]

theorem custody_commit_sound_sample : ∃ s, run sampleStep .init sampleMoves = some s ∧
    (getCustodyStatus (fun _ => 0) s 1).1.committed = true ∧
    ∃ c i, Witnessed (fun _ _ => true) s 1 c i := by
  have horder : RunMeets sampleStep (InOrder fun _ _ => true) .init sampleMoves := by
    refine ⟨nofun, fun s₁ h₁ => ?_⟩
    cases h₁
    refine ⟨trivial, fun s₂ h₂ => ?_⟩
    cases h₂
    refine ⟨fun _ _ => ⟨sampleIntent 100 5, rfl, fun k hk r hr => ?_⟩, fun _ _ => trivial⟩
    cases List.mem_singleton.mp hk
    cases hr
    rfl
  have hcommitted : (run sampleStep .init sampleMoves).any
      (fun s => (getCustodyStatus (fun _ => 0) s 1).1.committed) = true := by decide +kernel
  cases hrun : run sampleStep .init sampleMoves with
  | none =>
    rw [hrun] at hcommitted
    cases hcommitted
  | some s =>
    rw [hrun] at hcommitted
    obtain ⟨c, i, -, hi⟩ := (custody_commit_sound (fun _ => 0) (fun _ _ => true) sampleMoves hrun
      horder 1).1 hcommitted
    exact ⟨s, rfl, hcommitted, c, i, hi⟩

/-- A receipt for other content that arrives before the intent backs the commit, and a commit without an
intent is taken as committed. -/
theorem committed_without_fitting_receipt : ((run sampleStep .init [.apply 100 (.receipt (sampleReceipt 7)) none,
      .apply 100 (.intent (sampleIntent 100 5)) none,
      .apply 100 (.commit (sampleCommit 100 5)) none]).any fun s =>
        (getCustodyStatus (fun _ => 0) s 1).1.committed &&
          ((s.custodyIntents.get? 1).any fun i => (sampleReceipt 7).blindContentId != i.blindContentId) &&
            ((s.receiptsOf 1).values.map Receipt.blindContentId == [7])) = true ∧
    ((run sampleStep .init [.apply 100 (.commit (sampleCommit 100 5)) none]).any fun s =>
      (getCustodyStatus (fun _ => 0) s 1).1.committed && (s.custodyIntents.get? 1).isNone) = true := by
  decide +kernel

/-! ### Entries of others -/

/-- A move that neither the publisher nor a relay of the quorum signed. -/
def Foreign (publisherPubkey : Hex32) (relayQuorum : List Hex32) : Move → Prop
  | .apply _ entry _ => entry.signer ≠ publisherPubkey ∧ entry.signer ∉ relayQuorum
  | .query _ => True

/-- What the publisher and the relays look at. -/
structure SameStatus (st st' : Status) : Prop where
  intent : st'.intent = st.intent
  commit : st'.commit = st.commit
  sourceRetirement : st'.sourceRetirement = st.sourceRetirement

theorem sameStatus_of_commit (hintent : s'.custodyIntents.get? id = s.custodyIntents.get? id)
    (hcommit : (computeStatus hashLeaves s' id).commit = (computeStatus hashLeaves s id).commit)
    (hretired : s'.sourceRetirements.get? id = s.sourceRetirements.get? id) :
    SameStatus (computeStatus hashLeaves s id) (computeStatus hashLeaves s' id) := by
  refine ⟨hintent, hcommit, ?_⟩
  have hunfold : ∀ t : Registry, (computeStatus hashLeaves t id).sourceRetirement =
      (t.sourceRetirements.get? id).filter fun x =>
        (validateRetirement x (t.custodyIntents.get? id) (computeStatus hashLeaves t id).commit).isOk :=
    fun _ => rfl
  rw [hunfold, hunfold, hintent, hcommit, hretired]

theorem isOk_validateCommit_congr {receipts' : List Receipt}
    (h : receipts'.filter (fun r => r.anchored && decide (r.relayPubkey ∈ c.relayQuorum)) =
      receipts.filter fun r => r.anchored && decide (r.relayPubkey ∈ c.relayQuorum)) :
    (validateCommit hashLeaves c (some i) receipts').isOk = (validateCommit hashLeaves c (some i) receipts).isOk := by
  by_cases hnil : c.relayQuorum = []
  · have hnot : ∀ l, (validateCommit hashLeaves c (some i) l).isOk = false := fun l => by
      rw [← Bool.not_eq_true]
      exact fun hok => (commitRules hok).quorum_ne_nil hnil
    rw [hnot, hnot]
  · have hchosen : chosen c receipts' = chosen c receipts := by
      simp only [chosen, if_neg hnil, List.filter_filter, Bool.and_comm] at h ⊢
      exact h
    simp only [validateCommit, hchosen]

/-! ### Two runs -/

instance (publisherPubkey : Hex32) (relayQuorum : List Hex32) :
    (m : Move) → Decidable (Foreign publisherPubkey relayQuorum m)
  | .apply _ _ _ => inferInstanceAs (Decidable (_ ∧ _))
  | .query _ => inferInstanceAs (Decidable True)

/-- A move takes none of the places of an intent: each has an entry that is newer, or was first. -/
def LeavesPlaces (id : Hex32) (s : Registry) : Move → Prop
  | .apply _ (.intent i) _ => i.intentId = id →
    ∃ current, s.custodyIntents.get? id = some current ∧ i.timestamp < current.timestamp
  | .apply _ (.commit c) _ => c.intentId = id →
    ∃ current, s.custodyCommits.get? id = some current ∧ c.timestamp < current.timestamp
  | .apply _ (.retired x) _ => x.intentId = id → s.sourceRetirements.get? id ≠ none
  | _ => True

/-- What the status of an intent is computed from, if a commit names only some relays. -/
structure View where
  intent : Option Intent
  receipts : OrderedMap Hex32 Receipt
  commit : Option Commit
  retired : Option Retirement

def Registry.view (id : Hex32) (relays : List Hex32) (s : Registry) : View :=
  ⟨s.custodyIntents.get? id, (s.receiptsOf id).filter fun k _ => decide (k ∈ relays), s.custodyCommits.get? id,
    s.sourceRetirements.get? id⟩

/-- What an entry that is indexed does to a view. -/
def View.index (id : Hex32) (relays : List Hex32) (v : View) : Entry → View
  | .intent i =>
    if i.intentId = id ∧ Replaces i.timestamp (v.intent.map Intent.timestamp) then { v with intent := some i } else v
  | .receipt r =>
    if r.intentId = id ∧ r.relayPubkey ∈ relays ∧
        Replaces r.timestamp ((v.receipts.get? r.relayPubkey).map Receipt.timestamp) then
      { v with receipts := v.receipts.set r.relayPubkey r }
    else v
  | .commit c =>
    if c.intentId = id ∧ Replaces c.timestamp (v.commit.map Commit.timestamp) then { v with commit := some c } else v
  | .retired x => if x.intentId = id ∧ v.retired = none then { v with retired := some x } else v
  | .attestation _ => v

/-- A receipt of an intent fits it. -/
def Entry.fits (id : Hex32) (intent : Option Intent) : Entry → Bool
  | receipt r => decide (r.intentId ≠ id) || (validateReceipt r intent).isOk
  | _ => true

/-- What a move does to a view. -/
def View.next (verifyCustodyEntry : Verify) (id : Hex32) (relays : List Hex32) (v : View) : Move → View
  | .apply now e peer =>
    if (isPlausibleTimestamp now e.timestamp ∧ verifyCustodyEntry now e = true ∧ fromPeer e peer) ∧
        e.fits id v.intent = true then
      v.index id relays e
    else v
  | .query _ => v

section View

variable {relays : List Hex32}

/-- What is indexed is seen in the view. -/
theorem view_index (e : Entry) : (index e s).view id relays = (s.view id relays).index id relays e := by
  cases e with
  | intent x | commit x | retired x =>
    by_cases hid : x.intentId = id
    · subst hid
      simp only [index, View.index, Registry.view, true_and]
      split
      · simp only [invalidate, get?_set_self]
        rfl
      · rfl
    · simp only [index, View.index, hid, false_and, if_false]
      split
      · simp only [Registry.view, invalidate, get?_set_of_ne (Ne.symm hid)]
        rfl
      · rfl
  | receipt r =>
    have hview : ∀ receipts, Registry.view id relays (invalidate
        { s with custodyReceipts := s.custodyReceipts.set r.intentId receipts } r.intentId) =
          { s.view id relays with
            receipts :=
              (if id = r.intentId then receipts else s.receiptsOf id).filter fun k _ => decide (k ∈ relays) } := by
      intro receipts
      simp only [Registry.view, invalidate, ← receiptsOf_set receipts r.intentId id s.custodyStatusCache]
      rfl
    by_cases hid : r.intentId = id
    · subst hid
      simp only [index, View.index, true_and]
      by_cases hr : r.relayPubkey ∈ relays
      · have hget : (s.view r.intentId relays).receipts.get? r.relayPubkey =
            (s.receiptsOf r.intentId).get? r.relayPubkey := by
          simp only [Registry.view, get?_filter, hr, decide_true]
          cases (s.receiptsOf r.intentId).get? r.relayPubkey <;> rfl
        simp only [hget, hr, true_and]
        split
        · rw [hview, if_pos rfl, filter_set_key, if_pos (decide_eq_true hr)]
          rfl
        · rfl
      · simp only [hr, false_and, if_false]
        split
        · rw [hview, if_pos rfl, filter_set_key, if_neg (by simp [hr])]
          rfl
        · rfl
    · simp only [index, View.index, hid, false_and, if_false]
      split
      · rw [hview, if_neg (Ne.symm hid)]
        rfl
      · rfl
  | attestation a => rfl

/-- An entry that is not admitted leaves the view as it is. -/
theorem View.next_of_not_admitted {now : ℕ} {e : Entry} {peer : Option Hex32}
    (h : ¬ Admitted verifyCustodyEntry s now e peer) :
    (s.view id relays).next verifyCustodyEntry id relays (.apply now e peer) = s.view id relays := by
  rw [View.next]
  split
  · next hok =>
    cases e with
    | receipt r =>
      by_cases hid : r.intentId = id
      · subst hid
        have hvalid : (validateReceipt r (s.custodyIntents.get? r.intentId)).isOk = true := by
          simpa [Entry.fits, Registry.view] using hok.2
        exact absurd ⟨hok.1, fun r' hr' => Entry.receipt.inj hr' ▸ hvalid⟩ h
      · rw [View.index, if_neg fun hboth => hid hboth.1]
    | intent i | commit c | retired x | attestation a => exact absurd ⟨hok.1, by simp⟩ h
  · rfl

/-- A move is seen in the view. -/
theorem view_step (hs : Sound hashLeaves s) (h : step hashLeaves verifyCustodyEntry s m = some s') :
    s'.view id relays = (s.view id relays).next verifyCustodyEntry id relays m := by
  cases m with
  | query id' =>
    obtain ⟨cache, hcache, -⟩ := getCustodyStatus_snd hs id'
    cases h
    rw [hcache]
    rfl
  | apply now e peer =>
    obtain ⟨cache, -, ⟨⟨hentry, hvalid⟩, rfl⟩ | ⟨hnot, rfl⟩⟩ := step_apply hs h
    · have hfits : e.fits id (s.view id relays).intent = true := by
        cases e with
        | receipt r =>
          by_cases hid : r.intentId = id
          · subst hid
            exact (Bool.or_eq_true _ _).mpr (.inr (hvalid r rfl))
          · simp [Entry.fits, hid]
        | intent i | commit c | retired x | attestation a => rfl
      rw [view_index, View.next, if_pos ⟨hentry, hfits⟩]
      rfl
    · exact (View.next_of_not_admitted hnot).symm

/-- A move of somebody else that takes no place leaves the view as it is. -/
theorem view_foreign {publisherPubkey : Hex32} (hs : Sound hashLeaves s)
    (hforeign : Foreign publisherPubkey relays m) (hleaves : LeavesPlaces id s m)
    (h : step hashLeaves verifyCustodyEntry s m = some s') : s'.view id relays = s.view id relays := by
  have hkept : ∀ {t : ℕ} {c : Option ℕ}, (∃ current, c = some current ∧ t < current) → ¬ Replaces t c := by
    rintro t c ⟨current, rfl, hlt⟩ hreplaces
    exact absurd (hreplaces current rfl) (Nat.not_le.mpr hlt)
  rw [view_step hs h]
  cases m with
  | query id' => rfl
  | apply now e peer =>
    refine ite_eq_right_iff.mpr fun _ => ?_
    cases e with
    | intent i =>
      refine if_neg fun hboth => ?_
      obtain ⟨current, hcurrent, hlt⟩ := hleaves hboth.1
      exact hkept ⟨_, congrArg (Option.map _) hcurrent, hlt⟩ hboth.2
    | receipt r => exact if_neg fun hall => hforeign.2 hall.2.1
    | commit c =>
      refine if_neg fun hboth => ?_
      obtain ⟨current, hcurrent, hlt⟩ := hleaves hboth.1
      exact hkept ⟨_, congrArg (Option.map _) hcurrent, hlt⟩ hboth.2
    | retired x => exact if_neg fun hboth => hleaves hboth.1 hboth.2
    | attestation a => rfl

/-- Equal views have equal statuses, if the commit names only the relays of the view. -/
theorem sameStatus_of_view (hs : Indexed verifyCustodyEntry s) (hs' : Indexed verifyCustodyEntry s')
    (hview : s'.view id relays = s.view id relays)
    (hnamed : ∀ c, s.custodyCommits.get? id = some c → c.relayQuorum ⊆ relays) :
    SameStatus (computeStatus hashLeaves s id) (computeStatus hashLeaves s' id) := by
  have hintent := congrArg View.intent hview
  have hcommit := congrArg View.commit hview
  simp only [Registry.view] at hintent hcommit
  refine sameStatus_of_commit hintent ?_ (congrArg View.retired hview)
  simp only [computeStatus, hintent, hcommit]
  cases hc : s.custodyCommits.get? id with
  | none => rfl
  | some c =>
    have hvalues : ∀ t : Registry, Indexed verifyCustodyEntry t →
        (t.receiptsOf id).values.filter (fun r => r.anchored && decide (r.relayPubkey ∈ c.relayQuorum)) =
          (t.view id relays).receipts.values.filter fun r => r.anchored && decide (r.relayPubkey ∈ c.relayQuorum) := by
      intro t ht
      simp only [Registry.view, OrderedMap.values, OrderedMap.filter, List.filter_map, List.filter_filter]
      congr 1
      refine List.filter_congr fun e he => ?_
      have hkey := (ht.receipts id e.1 e.2 (mem_entries_iff.mp he)).1
      simp only [Function.comp, hkey]
      by_cases hmem : e.1 ∈ c.relayQuorum
      · simp [hmem, hnamed c hc hmem]
      · simp [hmem]
    have hok : (validateCommit hashLeaves c (s.custodyIntents.get? id) (s'.receiptsOf id).values).isOk =
        (validateCommit hashLeaves c (s.custodyIntents.get? id) (s.receiptsOf id).values).isOk := by
      cases s.custodyIntents.get? id with
      | none => rfl
      | some i => exact isOk_validateCommit_congr (by rw [hvalues s' hs', hvalues s hs, hview])
    simp only [filter_some, hok]

/-- The view after a run in which the entries of others take no place is what the other moves make of it. -/
theorem view_run {publisherPubkey : Hex32} {moves : List Move} (hs : Reached hashLeaves verifyCustodyEntry s)
    (hleaves : RunMeets (step hashLeaves verifyCustodyEntry)
      (fun s m => Foreign publisherPubkey relays m → LeavesPlaces id s m) s moves)
    (hrun : run (step hashLeaves verifyCustodyEntry) s moves = some s') :
    s'.view id relays = (moves.filter fun m => decide ¬ Foreign publisherPubkey relays m).foldl
      (View.next verifyCustodyEntry id relays) (s.view id relays) :=
  run_view _ (Reached hashLeaves verifyCustodyEntry) (Registry.view id relays) _ _ (fun _ _ _ => Reached.step)
    (fun _ _ _ ht _ hstep => view_step ht.sound hstep)
    (fun _ _ _ ht hok hforeign hstep =>
      have hforeign := of_not_not (of_decide_eq_false hforeign)
      view_foreign ht.sound hforeign (hok hforeign) hstep) hs hleaves hrun

end View

/-- **Entries of others keep the status**, as long as they take no place. A run of them leaves the status as it
is, and two runs that differ only in them end in the same status. The others are all but the publisher, whichever
key that is, and the relays that the indexed commit names. -/
theorem foreign_entries_keep_status (hashLeaves : List ℕ → Hex32) (verifyCustodyEntry : Verify) (moves : List Move)
    {s : Registry} (hrun : run (step hashLeaves verifyCustodyEntry) .init moves = some s)
    (id publisherPubkey : Hex32) (relays : List Hex32) :
    (∀ (foreign : List Move) (s' : Registry), (∀ m ∈ foreign, Foreign publisherPubkey relays m) →
      RunMeets (step hashLeaves verifyCustodyEntry) (LeavesPlaces id) s foreign →
      run (step hashLeaves verifyCustodyEntry) s foreign = some s' →
      (∀ c, s.custodyCommits.get? id = some c → c.relayQuorum ⊆ relays) →
        SameStatus (getCustodyStatus hashLeaves s id).1 (getCustodyStatus hashLeaves s' id).1) ∧
    ∀ (left right : List Move) (s₁ s₂ : Registry),
      (left.filter fun m => decide ¬ Foreign publisherPubkey relays m) =
        (right.filter fun m => decide ¬ Foreign publisherPubkey relays m) →
      RunMeets (step hashLeaves verifyCustodyEntry)
        (fun s m => Foreign publisherPubkey relays m → LeavesPlaces id s m) s left →
      RunMeets (step hashLeaves verifyCustodyEntry)
        (fun s m => Foreign publisherPubkey relays m → LeavesPlaces id s m) s right →
      run (step hashLeaves verifyCustodyEntry) s left = some s₁ →
      run (step hashLeaves verifyCustodyEntry) s right = some s₂ →
      (∀ c, s₁.custodyCommits.get? id = some c → c.relayQuorum ⊆ relays) →
        SameStatus (getCustodyStatus hashLeaves s₁ id).1 (getCustodyStatus hashLeaves s₂ id).1 := by
  have hreached := reached_of_run hrun
  refine ⟨fun foreign s' hforeign hleaves hrun' hnamed => ?_, ?_⟩
  · have hreached' := run_preserves _ (fun _ _ _ => Reached.step) hreached hrun'
    rw [getCustodyStatus_eq hreached.sound, getCustodyStatus_eq hreached'.sound]
    refine sameStatus_of_view hreached.indexed hreached'.indexed ?_ hnamed
    have hnone : (foreign.filter fun m => decide ¬ Foreign publisherPubkey relays m) = [] :=
      filter_eq_nil_iff.mpr fun m hm => by simpa using hforeign m hm
    have hview := @view_run _ _ _ _ _ relays publisherPubkey _ hreached
      (hleaves.mono fun _ _ hok _ => hok) hrun'
    rwa [hnone] at hview
  · intro left right s₁ s₂ hsame hleft hright hrun₁ hrun₂ hnamed
    have hreached₁ := run_preserves _ (fun _ _ _ => Reached.step) hreached hrun₁
    have hreached₂ := run_preserves _ (fun _ _ _ => Reached.step) hreached hrun₂
    rw [getCustodyStatus_eq hreached₁.sound, getCustodyStatus_eq hreached₂.sound]
    refine sameStatus_of_view hreached₁.indexed hreached₂.indexed ?_ hnamed
    rw [view_run hreached hleft hrun₁, view_run hreached hright hrun₂, hsame]

/-- An older commit of the publisher 6, a question, and a receipt of a relay that is not named. -/
def foreignMoves : List Move :=
  [.apply 100 (.commit (sampleCommit 99 6)) none, .query 1,
    .apply 100 (.receipt { sampleReceipt 2 with relayPubkey := 8 }) none]

/-- The retirement of the publisher, alone and between entries of others. -/
def ownMoves : List Move := [.apply 100 (.retired ⟨100, 1, 5⟩) none]

def mixedMoves : List Move := .apply 100 (.commit (sampleCommit 99 6)) none :: ownMoves ++
  [.apply 100 (.retired ⟨100, 1, 6⟩) none]

theorem foreign_entries_keep_status_sample : ∃ s s' s₁ s₂, run sampleStep .init sampleMoves = some s ∧
    run sampleStep s foreignMoves = some s' ∧
    SameStatus (getCustodyStatus (fun _ => 0) s 1).1 (getCustodyStatus (fun _ => 0) s' 1).1 ∧
    run sampleStep s ownMoves = some s₁ ∧ run sampleStep s mixedMoves = some s₂ ∧
    (getCustodyStatus (fun _ => 0) s₁ 1).1.sourceRetired = true ∧
    SameStatus (getCustodyStatus (fun _ => 0) s₁ 1).1 (getCustodyStatus (fun _ => 0) s₂ 1).1 := by
  obtain ⟨hone, htwo⟩ := @foreign_entries_keep_status (fun _ => 0) (fun _ _ => true) sampleMoves _ rfl 1 5 [9]
  refine ⟨_, _, _, _, rfl, rfl, hone foreignMoves _ (by decide) ?_ rfl ?_, rfl, rfl, by decide +kernel,
    htwo ownMoves mixedMoves _ _ rfl ?_ ?_ rfl rfl ?_⟩
  · exact ⟨fun _ => ⟨_, rfl, by decide⟩, fun _ _ => ⟨trivial, fun _ _ => ⟨trivial, fun _ _ => trivial⟩⟩⟩
  · intro c hc
    cases hc
    exact fun k hk => hk
  · exact ⟨fun hown => absurd rfl hown.1, fun _ _ => trivial⟩
  · refine ⟨fun _ _ => ⟨_, rfl, by decide⟩, fun t₁ h₁ => ?_⟩
    cases h₁
    refine ⟨fun hown => absurd rfl hown.1, fun t₂ h₂ => ?_⟩
    cases h₂
    exact ⟨fun _ _ => nofun, fun _ _ => trivial⟩
  · intro c hc
    cases hc
    exact fun k hk => hk

/-- A commit of another publisher, as new as the one that counts, undoes it. An intent of another publisher
replaces the one of the first. And a retirement of another publisher keeps the place from the one of the first. -/
theorem foreign_entries_change_status : ((run sampleStep .init sampleMoves).any fun s =>
      (getCustodyStatus (fun _ => 0) s 1).1.committed) = true ∧
    ((run sampleStep .init (sampleMoves ++ [.apply 100 (.commit (sampleCommit 100 6)) none])).any
      fun s => !(getCustodyStatus (fun _ => 0) s 1).1.committed) = true ∧
    ((run sampleStep .init (sampleMoves ++ [.apply 100 (.intent (sampleIntent 100 6)) none])).any
      fun s => (getCustodyStatus (fun _ => 0) s 1).1.intent.any fun i => i.publisherPubkey == 6) = true ∧
    ((run sampleStep .init (sampleMoves ++ ownMoves)).any
      fun s => (getCustodyStatus (fun _ => 0) s 1).1.sourceRetired) = true ∧
    ((run sampleStep .init (sampleMoves ++ .apply 100 (.retired ⟨100, 1, 6⟩) none :: ownMoves)).any
      fun s => !(getCustodyStatus (fun _ => 0) s 1).1.sourceRetired) = true := by
  decide +kernel

end HiveRelay.Custody
