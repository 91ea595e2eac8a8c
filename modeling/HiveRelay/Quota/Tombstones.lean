import HiveRelay.Quota.Blake2b
import HiveRelay.Quota.ChargeRegistry

/-!
# Which tombstones a mirror accepts

The commitment of a tombstone is the end of a chain over the entries that it was encoded from. The
chain determines the entries when the hash does not collide on what is hashed for them, so a
tombstone that a mirror accepts was encoded from the entries that the mirror stands for; and the one
of exactly those entries can be encoded and is accepted.

A run on a session that was not seen before is removed together with the session. That tombstone is
compared with the chain of all entries, so it has to be of all of them: when another operation left
an entry during the run, no tombstone is accepted.

## Main definitions

* `Encodable` — what a tombstone can be encoded from

## Main results

* `Reflects.entries_of_match` — a tombstone that matches
* `charge_mirror_exact` — mirrors equal the registry
-/

namespace HiveRelay.Quota

open List Option HiveRelay.Except Bytes

/-! ### Chains determine their entries -/

section Chains

variable (C : Crypto) (role : UInt8) (id : Bytes)

/-- What is hashed for the chain of some entries. -/
def chainMessages (entries : List Bytes) : Set Bytes :=
  {m | m = domainChargeRegistryInit ++ [role] ++ id ∨ ∃ before entry after,
    entries = before ++ entry :: after ∧
      m = domainChargeRegistryStep ++ chargeChainOf C role id before ++ entry}

/-- What is hashed for the commitment to some entries. -/
def chargeMessages (count sum : ℕ) (entries : List Bytes) : Set Bytes :=
  insert (domainChargeRegistryFinal ++ [role] ++ id ++ ofNat 4 count ++ ofNat 8 sum ++
    chargeChainOf C role id entries) (chainMessages C role id entries)

variable {C role id} {entries entries' : List Bytes}

theorem chargeChainOf_append (entries : List Bytes) (entry : Bytes) : chargeChainOf C role id (entries ++ [entry]) =
      chargeChainStep C (chargeChainOf C role id entries) entry := by
  simp [chargeChainOf]

theorem length_chargeChainOf : (chargeChainOf C role id entries).length = 32 := by
  induction entries using reverseRecOn with
  | nil => exact C.length_blake2b256 _
  | append_singleton entries entry _ =>
    rw [chargeChainOf_append]
    exact C.length_blake2b256 _

theorem chainMessages_mono (entry : Bytes) :
    chainMessages C role id entries ⊆ chainMessages C role id (entries ++ [entry]) := by
  rintro m (rfl | ⟨before, e, after, rfl, rfl⟩)
  · exact .inl rfl
  · exact .inr ⟨before, e, after ++ [entry], by simp, rfl⟩

theorem last_mem_chainMessages (entries : List Bytes) (entry : Bytes) :
    domainChargeRegistryStep ++ chargeChainOf C role id entries ++ entry ∈
      chainMessages C role id (entries ++ [entry]) := .inr ⟨entries, entry, [], rfl, rfl⟩

theorem init_ne_step (hid : id.length = 32) {chain entry : Bytes} (hchain : chain.length = 32)
    (hentry : entry.length = 49) :
    domainChargeRegistryInit ++ [role] ++ id ≠ domainChargeRegistryStep ++ chain ++ entry := by
  intro h
  have hlength := congrArg length h
  have hdomains : domainChargeRegistryInit.length = domainChargeRegistryStep.length := by
    decide +kernel
  simp only [length_append, length_singleton, hdomains, hid, hchain, hentry] at hlength
  omega

theorem chargeChainOf_injective (hid : id.length = 32) (hentries : ∀ e ∈ entries, e.length = 49)
    (hentries' : ∀ e ∈ entries', e.length = 49)
    (hinj : Set.InjOn C.blake2b256 (chainMessages C role id entries ∪ chainMessages C role id entries'))
    (h : chargeChainOf C role id entries = chargeChainOf C role id entries') : entries = entries' := by
  induction entries using reverseRecOn generalizing entries' with
  | nil =>
    rcases entries'.eq_nil_or_concat with rfl | ⟨rest, last, rfl⟩
    · rfl
    · rw [concat_eq_append] at hentries' hinj h
      rw [chargeChainOf_append] at h
      have heq := hinj (.inl (.inl rfl)) (.inr (last_mem_chainMessages rest last)) h
      exact absurd heq (init_ne_step hid length_chargeChainOf (hentries' last (by simp)))
  | append_singleton rest last ih =>
    rw [chargeChainOf_append] at h
    rcases entries'.eq_nil_or_concat with rfl | ⟨rest', last', rfl⟩
    · have heq := hinj (.inl (last_mem_chainMessages rest last)) (.inr (.inl rfl)) h
      exact absurd heq.symm (init_ne_step hid length_chargeChainOf (hentries last (by simp)))
    · rw [concat_eq_append] at hentries' hinj h ⊢
      rw [chargeChainOf_append] at h
      have heq := hinj (.inl (last_mem_chainMessages rest last)) (.inr (last_mem_chainMessages rest' last')) h
      rw [append_assoc, append_assoc] at heq
      obtain ⟨hchain, hlast⟩ := append_inj (append_cancel_left heq)
        (length_chargeChainOf.trans length_chargeChainOf.symm)
      have hsub : chainMessages C role id rest ∪ chainMessages C role id rest' ⊆
          chainMessages C role id (rest ++ [last]) ∪ chainMessages C role id (rest' ++ [last']) :=
        Set.union_subset_union (chainMessages_mono last) (chainMessages_mono last')
      have hrest := ih (fun e he => hentries e (by simp [he])) (fun e he => hentries' e (by simp [he]))
        (hinj.mono hsub) hchain
      rw [hrest, hlast]

theorem chargeChainFinal_injective {count sum : ℕ} (hid : id.length = 32)
    (hentries : ∀ e ∈ entries, e.length = 49) (hentries' : ∀ e ∈ entries', e.length = 49)
    (hinj : Set.InjOn C.blake2b256 (chargeMessages C role id count sum entries ∪
      chargeMessages C role id count sum entries'))
    (h : chargeChainFinal C role id count sum (chargeChainOf C role id entries) =
      chargeChainFinal C role id count sum (chargeChainOf C role id entries')) :
    entries = entries' := by
  have hchain := append_cancel_left (hinj (.inl (Set.mem_insert _ _)) (.inr (Set.mem_insert _ _)) h)
  exact chargeChainOf_injective hid hentries hentries'
    (hinj.mono (Set.union_subset_union (Set.subset_insert _ _) (Set.subset_insert _ _))) hchain

end Chains

/-! ### The fields of a mirror fit a tombstone -/

variable {sink : Sink}

section Valid

variable {C : Crypto} {role : StoreRole} {id : Bytes} {mirror mirror' : Mirror} {entry : WalEntry}
  {payload : Bytes} {frame : WalFrame}

def CommitmentsValid (commitments : List Bytes) : Prop :=
  commitments.length = authorityClassCount ∧ ∀ c ∈ commitments, c.length = 32

/-- The fields of a mirror are in their ranges, and only a consumed session has clocks. -/
structure MirrorValid (id : Bytes) (mirror : Mirror) : Prop where
  length_id : mirror.present = true → id.length = 32
  bitmap_le : mirror.bitmap ≤ 1023
  commitments : CommitmentsValid (mirror.commitments.getD zeroCommitments)
  watermark_le : mirror.trustedEpochHighWatermark ≤ u32Max
  expires_le : mirror.expiresAtEpoch ≤ expiryHorizon
  grace_le : mirror.recoveryGraceUntilEpoch ≤ u32Max
  clocks : mirror.consumed = false → mirror.expiresAtEpoch = 0 ∧ mirror.recoveryGraceUntilEpoch = 0
  revision_pos : mirror.present = true → 1 ≤ mirror.priorRevision
  count_le : mirror.chargeEntryCount ≤ maximumChargeEntries

theorem commitmentsValid_zero : CommitmentsValid zeroCommitments := by
  refine ⟨rfl, fun c hc => ?_⟩
  rw [eq_of_mem_replicate hc]
  rfl

theorem CommitmentsValid.set {commitments : List Bytes} (h : CommitmentsValid commitments) (i : ℕ)
    {c : Bytes} (hc : c.length = 32) : CommitmentsValid (commitments.set i c) := by
  refine ⟨by rw [length_set]; exact h.1, fun c' hc' => ?_⟩
  rcases mem_or_eq_of_mem_set hc' with hmem | rfl
  · exact h.2 c' hmem
  · exact hc

theorem mirrorValid_unseen : MirrorValid id .unseen where
  length_id h := by cases h
  bitmap_le := Nat.zero_le _
  commitments := commitmentsValid_zero
  watermark_le := Nat.zero_le _
  expires_le := Nat.zero_le _
  grace_le := Nat.zero_le _
  clocks _ := ⟨rfl, rfl⟩
  revision_pos h := by cases h
  count_le := Nat.zero_le _

/-- What the authority of an entry has to be. -/
structure AuthorityValid (entry : WalEntry) (payload : Bytes) : Prop where
  bitmap_le : entry.authorityBitmap ≤ 1023
  commitments : CommitmentsValid entry.authorityCommitments
  clocks : 0 < entry.terminalLogicalCharge → readU payload 6 2 = 1 →
    readU payload 141 4 ≤ expiryHorizon ∧ readU payload 145 4 ≤ u32Max

theorem MirrorValid.session (h : MirrorValid id mirror) (hid : id.length = 32) (hentry : AuthorityValid entry payload)
    (hok : applySession C mirror entry id payload = .ok mirror') : MirrorValid id mirror' := by
  obtain ⟨m, rfl, hpresent, hkept, hrevision, hcount, hwatermark⟩ := applySession_eq_authorize hok
  have hread : readU payload 72 4 ≤ u32Max := by
    have hlt := toNat_lt (payload.window 72 4)
    have hle := length_window_le payload 72 4
    have hpow : 256 ^ (payload.window 72 4).length ≤ 256 ^ 4 := Nat.pow_le_pow_right (by decide) hle
    unfold readU u32Max
    omega
  have hm : MirrorValid id m :=
    { length_id := fun _ => hid
      bitmap_le := hkept.bitmap ▸ h.bitmap_le
      commitments := hkept.commitments ▸ h.commitments
      watermark_le := by
        rcases hwatermark with heq | heq
        · rw [heq]
          exact h.watermark_le
        · rw [heq]
          exact max_le h.watermark_le hread
      expires_le := hkept.expiresAtEpoch ▸ h.expires_le
      grace_le := hkept.recoveryGraceUntilEpoch ▸ h.grace_le
      clocks := fun hc => by
        rw [hkept.expiresAtEpoch, hkept.recoveryGraceUntilEpoch]
        exact h.clocks (hkept.consumed ▸ hc)
      revision_pos := fun _ => by omega
      count_le := by
        rcases hcount with heq | hle
        · exact heq ▸ h.count_le
        · exact hle }
  unfold authorize
  dsimp only
  split
  · next hc =>
    -- only a terminal record brings clocks, and it consumes the session
    split
    · next hterminal =>
      obtain ⟨hexp, hgr⟩ := hentry.clocks hterminal.1 hterminal.2.2
      exact
        { hm with
          bitmap_le := hentry.bitmap_le
          commitments := hentry.commitments
          expires_le := hexp
          grace_le := hgr
          clocks := fun hfalse => by simp [hterminal.1] at hfalse }
    · exact
        { hm with
          bitmap_le := hentry.bitmap_le
          commitments := hentry.commitments
          clocks := fun _ => hm.clocks hc }
  · next hc =>
    split
    · next hterminal =>
      obtain ⟨hexp, hgr⟩ := hentry.clocks hterminal.1 hterminal.2.2
      exact { hm with expires_le := hexp, grace_le := hgr, clocks := fun hfalse => absurd hfalse hc }
    · exact hm

theorem clocks_of_decodeFtm9Payload {walType : ℕ} {terminal : Terminal}
    (h : decodeFtm9Payload C payload walType = .ok terminal) :
    terminal.stableSessionId.length = 32 ∧ (readU payload 6 2 = 1 →
      readU payload 141 4 ≤ expiryHorizon ∧ readU payload 145 4 ≤ u32Max) := by
  simp only [decodeFtm9Payload, guards_eq_ok] at h
  obtain ⟨hlength, -, -, -, -, -, -, h⟩ := h
  have hid : (payload.window 8 32).length = 32 := by
    refine length_window ?_
    rw [hlength]
    decide
  split at h
  · next hzero =>
    simp only [guards_eq_ok] at h
    obtain ⟨-, -, rfl⟩ := h
    exact ⟨hid, fun hone => absurd (hzero.symm.trans hone) (by decide)⟩
  · simp only [guards_eq_ok] at h
    obtain ⟨-, -, -, -, hexpires, hretained, -, -, rfl⟩ := h
    refine ⟨hid, fun _ => ?_⟩
    have h0 : readU (payload.window 141 51) 0 4 = readU payload 141 4 := by
      rw [readU, window_window _ (by decide), readU]
    have h4 : readU (payload.window 141 51) 4 4 = readU payload 145 4 := by
      rw [readU, window_window _ (by decide), readU]
    rw [h0] at hexpires hretained
    refine ⟨hexpires, ?_⟩
    unfold expiryHorizon at hexpires
    unfold recoveryGraceSeconds at hretained
    unfold u32Max
    omega

theorem authority_of_terminal {terminal : Terminal} {predecessor : Option Mirror} {sequence : ℕ}
    {payloadHash : Bytes} {authority : ℕ × List Bytes}
    (hvalid : ∀ m, predecessor = some m → MirrorValid id m)
    (h : terminalAuthority C role terminal predecessor sequence payloadHash = .ok authority) :
    authority.1 ≤ 1023 ∧ CommitmentsValid authority.2 := by
  unfold terminalAuthority at h
  split at h
  · simp only [guards_eq_ok] at h
    obtain ⟨-, rfl⟩ := h
    exact ⟨by show minimalTerminalBitmap ≤ 1023; decide,
      (commitmentsValid_zero.set 7 (C.length_blake2b256 _)).set 9 (C.length_blake2b256 _)⟩
  · simp only [guards_eq_ok, filter_eq_some_iff] at h
    obtain ⟨m, ⟨hm, -⟩, -, rfl⟩ := h
    have hlt : m.bitmap ||| 512 < 2 ^ 10 :=
      Nat.or_lt_two_pow (Nat.lt_succ_of_le (hvalid m hm).bitmap_le) (by decide)
    exact ⟨Nat.le_of_lt_succ hlt, (hvalid m hm).commitments.set 9 (C.length_blake2b256 _)⟩

theorem MirrorValid.prune (h : MirrorValid id mirror) {pruned : Tombstone} {label : UInt8}
    (hpair : PairValid pruned.flags pruned.allocationDisposition pruned.terminalSlotState)
    (hmatch : matchFpr9AgainstMirror C (some mirror) pruned label id = .ok ()) :
    MirrorValid id (applyPrune C mirror pruned) := by
  simp only [matchFpr9AgainstMirror, guards_eq_ok, filter_eq_some_iff, some.injEq] at hmatch
  obtain ⟨m, ⟨rfl, hpresent⟩, -, -, -, -, -, -, -, -, -, -, hslot, hfresh, hexisting, -⟩ := hmatch
  have hcount : mirror.chargeEntryCount - pruned.chargeEntryCount ≤ maximumChargeEntries :=
    (Nat.sub_le _ _).trans h.count_le
  unfold applyPrune
  split
  · next htwo =>
    exact { h with
      length_id := fun _ => h.length_id hpresent
      revision_pos := fun _ => h.revision_pos hpresent
      count_le := hcount
      clocks := fun _ => h.clocks (hexisting htwo).2 }
  · next htwo =>
    split
    · next hdisposition =>
      have hconsumed : mirror.consumed = false := by
        rcases hpair with ⟨hzero, -⟩ | ⟨hone, -⟩ | ⟨hflags, -⟩
        · exact (hslot hzero).1 hdisposition
        · exact (hfresh hone).2
        · exact absurd hflags htwo
      exact { h with
        length_id := by simp
        revision_pos := by simp
        count_le := hcount
        bitmap_le := Nat.zero_le _
        commitments := commitmentsValid_zero
        clocks := fun _ => h.clocks hconsumed }
    · exact { h with
        length_id := fun _ => h.length_id hpresent
        revision_pos := fun _ => h.revision_pos hpresent
        count_le := hcount
        bitmap_le := Nat.zero_le _
        commitments := commitmentsValid_zero
        clocks := fun hc => by cases hc }

theorem Absorbed.mirrorValid {sink' : Sink} (h : Absorbed C sink frame sink' entry)
    (hvalid : ∀ id, MirrorValid id (mirrorOf sink.sessions id)) (id : Bytes) :
    MirrorValid id (mirrorOf sink'.sessions id) := by
  have hsession : ∀ sid, entry.scope = .session → entry.stableSessionId = some sid → sid.length = 32 →
      AuthorityValid entry frame.payload → MirrorValid id (mirrorOf sink'.sessions id) := by
    intro sid hscope hid hlength hentry
    obtain ⟨mirror, hok, hmirror⟩ := mirrorOf_session id hscope hid h.sessions
    rw [hmirror]
    split
    · next heq =>
      subst heq
      exact (hvalid id).session hlength hentry hok
    · exact hvalid id
  cases h.derived with
  | run _ hscope hid _ _ hterminal hlength hbitmap hcommitments
  | other _ hscope hid _ _ hterminal hlength hbitmap hcommitments =>
    refine hsession _ hscope hid (length_window (by omega)) ⟨?_, ?_, fun hpos => ?_⟩
    · rw [hbitmap]
      exact Nat.zero_le _
    · rw [hcommitments]
      exact commitmentsValid_zero
    · rw [hterminal] at hpos
      exact absurd hpos (lt_irrefl 0)
  | terminal terminal _ hscope hid _ _ _ hdecode hauthority =>
    obtain ⟨hlength, hclocks⟩ := clocks_of_decodeFtm9Payload hdecode
    have hpredecessor : ∀ m, sink.sessions.get? terminal.stableSessionId = some m →
        MirrorValid terminal.stableSessionId m := by
      intro m hm
      have := hvalid terminal.stableSessionId
      rwa [mirrorOf, hm] at this
    obtain ⟨hbitmap, hcommitments⟩ := authority_of_terminal hpredecessor hauthority
    exact hsession _ hscope hid hlength ⟨hbitmap, hcommitments, fun _ => hclocks⟩
  | prune pruned _ hscope hid hdecode _ _ _ =>
    rw [mirrorOf_prune hscope hid hdecode h.sessions]
    split
    · next heq =>
      subst heq
      exact (hvalid _).prune (pairValid_of_decode hdecode) (some_mirrorOf_of_match (h.matched pruned hscope hdecode))
    · exact hvalid id
  | roleGlobal _ hscope _ _ _ =>
    have hsame := h.sessions
    simp only [applyEntryToSessionMirror, hscope, pure_eq_ok_iff] at hsame
    rw [← hsame]
    exact hvalid id

/-! ### The fields of a registry fit a tombstone -/

/-- The fields of an entry are in their ranges. -/
structure EntryValid (entry : WalEntry) : Prop where
  walType_le : entry.walType ≤ 255
  sequence_lt : entry.walSequence < 2 ^ 64
  length_payloadHash : entry.payloadHash.length = 32
  charge_pos : 0 < entry.ordinaryLogicalCharge
  charge_le : entry.ordinaryLogicalCharge ≤ 2 * maximumWalPayloadBytes + walFrameOverheadBytes

theorem EntryValid.length_mirrorEntry49 (h : EntryValid entry) : (mirrorEntry49 entry).length = 49 := by
  simp [mirrorEntry49, h.length_payloadHash]

theorem EntryValid.readU_mirrorEntry49 (h : EntryValid entry) :
    readU (mirrorEntry49 entry) 41 8 = entry.ordinaryLogicalCharge := by
  have hle := h.charge_le
  unfold maximumWalPayloadBytes walFrameOverheadBytes at hle
  have hlength : (ofNat 1 entry.walType ++ ofNat 8 entry.walSequence ++
      entry.payloadHash).length = 41 := by
    simp [h.length_payloadHash]
  rw [readU, mirrorEntry49, window_append_right _ _ hlength.le, hlength,
    window_all (length_ofNat _ _), toNat_ofNat (by omega)]

/-- The entries of a registry are in their ranges, and its revisions count frames. -/
structure RegistryValid (reg : Registry) (lastSequence : ℕ) : Prop where
  entries : ∀ e ∈ reg.all, EntryValid e
  revision_le : reg.revision ≤ lastSequence
  lastRevision : reg.run ≠ none → 1 ≤ reg.lastRevision ∧ reg.lastRevision ≤ reg.revision

theorem registryValid_empty (n : ℕ) : RegistryValid .empty n where
  entries _ he := absurd he not_mem_nil
  revision_le := Nat.zero_le n
  lastRevision hne := absurd rfl hne

variable {reg : Registry} {n : ℕ}

theorem RegistryValid.mono (h : RegistryValid reg n) {n' : ℕ} (hle : n ≤ n') : RegistryValid reg n' :=
  { h with revision_le := h.revision_le.trans hle }

theorem RegistryValid.settle (h : RegistryValid reg n) : RegistryValid reg.settle n :=
  { h with
    entries := fun e he => h.entries e (by rwa [Registry.all_settle] at he)
    lastRevision := absurd rfl }

theorem RegistryValid.enlist (h : RegistryValid reg n)
    (hentry : entry.terminalLogicalCharge = 0 → EntryValid entry) (hterminal : entry.walType = 113 →
      entry.terminalLogicalCharge = 0) : RegistryValid (reg.enlist entry payload) (n + 1) := by
  have hrevision := h.revision_le
  unfold Registry.enlist
  split
  · next hwal =>
    refine ⟨fun e he => ?_, by show reg.revision + 1 ≤ n + 1; omega, fun _ => ?_⟩
    · simp only [Registry.all, map_append, mem_append, map_cons, map_nil,
        mem_singleton] at he
      rcases he with he | rfl
      · exact h.entries e he
      · exact hentry (hterminal hwal)
    · show 1 ≤ reg.revision + 1 ∧ reg.revision + 1 ≤ reg.revision + 1
      omega
  · split
    · exact
        { entries := h.settle.entries
          revision_le := by show reg.revision + 1 ≤ n + 1; omega
          lastRevision := absurd rfl }
    · next hzero =>
      set before := if reg.run ≠ none ∧ payloadCommitment payload = reg.run then reg.settle else reg with hbefore
      have hb : RegistryValid before n := by
        rw [hbefore]
        split
        · exact h.settle
        · exact h
      refine ⟨fun e he => ?_, ?_, fun hne => ?_⟩
      · simp only [Registry.all, map_append, mem_append, map_cons, map_nil,
          mem_singleton] at he
        rcases he with he | rfl
        · exact hb.entries e he
        · exact hentry (by omega)
      · have := hb.revision_le
        show before.revision + 1 ≤ n + 1
        omega
      · obtain ⟨hpos, hle⟩ := hb.lastRevision hne
        exact ⟨hpos, Nat.le_succ_of_le hle⟩

theorem RegistryValid.prune (h : RegistryValid reg n) (pruned : Tombstone) : RegistryValid (reg.prune pruned) n := by
  unfold Registry.prune
  split
  · exact
      { entries := nofun
        revision_le := h.revision_le
        lastRevision := absurd rfl }
  · refine ⟨fun e he => h.entries e ?_, h.revision_le, absurd rfl⟩
    rw [Registry.all, map_fst_map_false, Registry.rest] at he
    obtain ⟨pair, hpair, rfl⟩ := mem_map.mp he
    exact mem_map_of_mem (mem_of_mem_filter hpair)

theorem Absorbed.registryValid {sink' : Sink} (h : Absorbed C sink frame sink' entry)
    (hvalid : RegistryValid reg sink.lastSequence) (id : Bytes) :
    RegistryValid (Registry.absorb id reg (entry, frame.payload)) sink'.lastSequence := by
  have hnext : sink'.lastSequence = sink.lastSequence + 1 := h.lastSequence_eq.trans h.sequence_eq
  have hstay : RegistryValid reg sink'.lastSequence := hvalid.mono (by omega)
  have hfrom := h.from_frame
  have hentry : 0 < entry.ordinaryLogicalCharge → entry.ordinaryLogicalCharge ≤
      2 * maximumWalPayloadBytes + walFrameOverheadBytes → EntryValid entry := fun hpos hle =>
    { walType_le := by rw [hfrom.walType_eq]; exact hfrom.walType_le
      sequence_lt := by rw [hfrom.sequence_eq]; exact hfrom.sequence_lt
      length_payloadHash := by rw [hfrom.payloadHash_eq]; exact hfrom.length_payloadHash
      charge_pos := hpos
      charge_le := hle }
  have hsession : (entry.terminalLogicalCharge = 0 → EntryValid entry) →
      (entry.walType = 113 → entry.terminalLogicalCharge = 0) → entry.scope = .session →
      RegistryValid (Registry.absorb id reg (entry, frame.payload)) sink'.lastSequence := by
    intro hcharged hterminal hscope
    unfold Registry.absorb
    split
    · simp only [hscope]
      rw [hnext]
      exact hvalid.enlist hcharged hterminal
    · exact hstay
  cases h.derived with
  | run _ hscope _ _ hcharge hterminal _ _ _ =>
    refine hsession (fun _ => hentry ?_ ?_) (fun _ => hterminal) hscope <;> rw [hcharge] <;> decide
  | other _ hscope _ _ hcharge hterminal _ _ _ =>
    have hlength := hfrom.length_le
    have hbytes := hfrom.frameBytes_eq
    unfold walFrameOverheadBytes at hbytes
    exact hsession (fun _ => hentry (by omega) (by unfold walFrameOverheadBytes; omega))
      (fun _ => hterminal) hscope
  | terminal terminal _ hscope _ hwal _ hterminal _ _ =>
    refine hsession (fun hzero => ?_) (fun heq => absurd heq hwal) hscope
    rw [hterminal] at hzero
    exact absurd hzero (by decide)
  | prune pruned _ hscope _ hdecode _ _ _ =>
    unfold Registry.absorb
    split
    · simp only [hscope, hdecode]
      exact hstay.prune pruned
    · exact hstay
  | roleGlobal _ hscope _ _ _ =>
    unfold Registry.absorb
    split
    · simp only [hscope]
      exact hstay
    · exact hstay

end Valid

/-! ### Tombstones of a mirror -/

section Exact

variable {C : Crypto} {role : StoreRole} {id : Bytes} {mirror : Mirror} {reg : Registry}

/-- The entries that a variant removes. -/
def Registry.removable (reg : Registry) (flags : ℕ) : List WalEntry :=
  if flags = 0 then reg.all else reg.orphans

/-- The tombstone of a variant that a mirror calls for, of exactly the entries that it removes. -/
def exactTombstone (role : StoreRole) (id : Bytes) (mirror : Mirror) (reg : Registry)
    (flags epoch : ℕ) : TombstoneInput where
  __ := mirror
  role := role
  flags := flags
  stableSessionId := id
  priorSessionRevision := if flags = 0 then mirror.priorRevision else mirror.orphanLastRevision
  pruneEpochSeconds := epoch
  trustedEpochHighWatermark := max mirror.trustedEpochHighWatermark epoch
  removedOrdinaryLogicalBytes := chargeSumOf (reg.removable flags)
  chargeEntryCount := (reg.removable flags).length
  beforeAuthorityBitmap := mirror.bitmap
  allocationDisposition := if flags = 2 then 2 else if flags = 0 ∧ mirror.consumed = true then 0 else 1
  terminalSlotState :=
    if flags = 1 then 3 else if flags = 0 ∧ mirror.consumed = true then 2 else 1
  chargeEntryBuffers := (reg.removable flags).map mirrorEntry49
  authorityCommitments := mirror.commitments.getD zeroCommitments

/-- The variant is one for the state of the session, and the epoch is one at which it may be
written. -/
def Eligible (mirror : Mirror) (flags epoch : ℕ) : Prop :=
  mirror.present = true ∧ epoch ≤ u32Max ∧ (flags = 0 ∧ mirror.recoveryGraceUntilEpoch < epoch ∨
      flags = 1 ∧ epoch ≠ 0 ∧ mirror.openPrefix = some .fresh ∧ mirror.consumed = false ∨
      flags = 2 ∧ epoch ≠ 0 ∧ mirror.openPrefix = some .existing ∧ mirror.consumed = false)
  deriving Decidable

/-- What a tombstone can be encoded of. -/
structure Encodable (id : Bytes) (mirror : Mirror) (reg : Registry) : Prop where
  nonzero : id ≠ zero32
  mirror_valid : MirrorValid id mirror
  revision_lt : reg.revision < 2 ^ 64
  lastRevision : reg.run ≠ none → 1 ≤ reg.lastRevision ∧ reg.lastRevision ≤ reg.revision
  entries : ∀ e ∈ reg.all, EntryValid e

variable {flags : ℕ}

theorem Registry.mem_all_of_removable {e : WalEntry} (h : e ∈ reg.removable flags) : e ∈ reg.all := by
  unfold Registry.removable at h
  split at h
  · exact h
  · obtain ⟨pair, hpair, rfl⟩ := mem_map.mp h
    exact mem_map_of_mem (mem_of_mem_filter hpair)

theorem Registry.length_removable_le (reg : Registry) (flags : ℕ) :
    (reg.removable flags).length ≤ reg.all.length := by
  have := reg.length_all
  unfold Registry.removable
  split <;> omega

theorem Registry.all_eq_orphans (h : reg.rest = []) : reg.all = reg.orphans := by
  have hall := reg.length_all
  rw [h, length_nil, Nat.add_zero] at hall
  simp only [Registry.all, Registry.orphans, length_map] at hall ⊢
  rw [List.Sublist.eq_of_length_le filter_sublist hall.le]

theorem chargeSumOf_bounds {entries : List WalEntry} (h : ∀ e ∈ entries, EntryValid e) :
    chargeSumOf entries ≤ entries.length * (2 * maximumWalPayloadBytes + walFrameOverheadBytes) ∧
      (0 < entries.length → chargeSumOf entries ≠ 0) := by
  have hmap : ∀ c ∈ entries.map WalEntry.ordinaryLogicalCharge,
      c ≤ 2 * maximumWalPayloadBytes + walFrameOverheadBytes := by
    intro c hc
    obtain ⟨e, he, rfl⟩ := mem_map.mp hc
    exact (h e he).charge_le
  refine ⟨by simpa [chargeSumOf] using sum_le_card_nsmul _ _ hmap, fun hpos hzero => ?_⟩
  obtain ⟨e, he⟩ := exists_mem_of_length_pos hpos
  have hle := single_le_sum (fun _ _ => Nat.zero_le _) _
    (mem_map_of_mem (f := WalEntry.ordinaryLogicalCharge) he)
  have := (h e he).charge_pos
  unfold chargeSumOf at hzero
  omega

theorem pairValid_exactTombstone (role : StoreRole) (id : Bytes) (mirror : Mirror) (reg : Registry) (epoch : ℕ)
    (hflags : flags = 0 ∨ flags = 1 ∨ flags = 2) :
    PairValid flags (exactTombstone role id mirror reg flags epoch).allocationDisposition
      (exactTombstone role id mirror reg flags epoch).terminalSlotState := by
  unfold PairValid exactTombstone
  rcases hflags with rfl | rfl | rfl
  · cases mirror.consumed <;> simp
  · simp
  · simp

theorem PairValid.ranges {disposition slot : ℕ} (h : PairValid flags disposition slot) :
    (disposition = 0 ∨ disposition = 1 ∨ disposition = 2) ∧ (slot = 1 ∨ slot = 2 ∨ slot = 3) := by
  unfold PairValid at h
  omega

variable {epoch : ℕ}

theorem Encodable.encode (h : Encodable id mirror reg) (hreflects : Reflects C role id mirror reg)
    (heligible : Eligible mirror flags epoch) :
    ∃ payload, encodeForwardHttpsRetentionPrunedV3 C (exactTombstone role id mirror reg flags epoch) =
      .ok payload := by
  obtain ⟨hpresent, hepoch, hvariant⟩ := heligible
  have hv := h.mirror_valid
  have hentries : ∀ e ∈ reg.removable flags, EntryValid e := fun e he =>
    h.entries e (Registry.mem_all_of_removable he)
  have hcount : (reg.removable flags).length ≤ maximumChargeEntries :=
    (reg.length_removable_le flags).trans (hreflects.count ▸ hv.count_le)
  obtain ⟨hsum, hpositive⟩ := chargeSumOf_bounds hentries
  have hflags : flags = 0 ∨ flags = 1 ∨ flags = 2 := by
    rcases hvariant with ⟨hf, -⟩ | ⟨hf, -⟩ | ⟨hf, -⟩ <;> simp [hf]
  have hopened : flags ≠ 0 → mirror.openPrefix ≠ none ∧ mirror.consumed = false ∧ epoch ≠ 0 := by
    intro hne
    rcases hvariant with ⟨hf, -⟩ | ⟨-, he, hp, hc⟩ | ⟨-, he, hp, hc⟩
    · exact absurd hf hne
    · exact ⟨by rw [hp]; exact some_ne_none _, hc, he⟩
    · exact ⟨by rw [hp]; exact some_ne_none _, hc, he⟩
  have hrevision : (if flags = 0 then mirror.priorRevision else mirror.orphanLastRevision) < 2 ^ 64 ∧
      (if flags = 0 then mirror.priorRevision else mirror.orphanLastRevision) ≠ 0 := by
    have hlt := h.revision_lt
    split
    · have hpos := hv.revision_pos hpresent
      rw [hreflects.revision] at hpos ⊢
      omega
    · next hne =>
      obtain ⟨hopen, -⟩ := hopened hne
      obtain ⟨hpos, hle⟩ := h.lastRevision (mt hreflects.opened.mpr hopen)
      rw [hreflects.orphanRevision hopen]
      omega
  have hsum64 : chargeSumOf (reg.removable flags) < 2 ^ 64 := by
    unfold maximumWalPayloadBytes walFrameOverheadBytes at hsum
    unfold maximumChargeEntries at hcount
    omega
  -- a prefix variant removes the entries of an open run, of which there are some
  have horphans : flags ≠ 0 → (reg.removable flags).length ≠ 0 := by
    intro hne hnil
    rw [Registry.removable, if_neg hne, length_eq_zero_iff] at hnil
    exact (hopened hne).1 (hreflects.opened.mpr (hreflects.marked.mpr hnil))
  have hbuffers : ((reg.removable flags).map mirrorEntry49).map (fun entry => readU entry 41 8) =
      (reg.removable flags).map WalEntry.ordinaryLogicalCharge := by
    rw [List.map_map]
    exact map_congr_left fun e he => (hentries e he).readU_mirrorEntry49
  have hpair := pairValid_exactTombstone role id mirror reg epoch hflags
  refine ⟨((exactTombstone role id mirror reg flags epoch).tombstone C).parts.flatten, ?_⟩
  simp only [encodeForwardHttpsRetentionPrunedV3, guards_eq_ok, and_true]
  refine ⟨hflags, hv.length_id hpresent, h.nonzero, hrevision, hepoch, max_le hv.watermark_le hepoch,
    hv.expires_le.trans (by decide), hv.grace_le, hv.expires_le, hsum64, hcount, hv.bitmap_le,
    hpair.ranges.1, hpair.ranges.2, length_map _, ?_, hv.commitments.1, hv.commitments.2, ?_, hpositive,
    hpair, fun hne => hv.clocks (hopened hne).2.1, fun hne => (hopened hne).2.2, horphans, ?_⟩
  · intro e he
    obtain ⟨entry, hentry, rfl⟩ := mem_map.mp he
    exact (hentries entry hentry).length_mirrorEntry49
  · intro hnil
    show chargeSumOf (reg.removable flags) = 0
    rw [show reg.removable flags = [] from length_eq_zero_iff.mp hnil]
    rfl
  · show sum (((reg.removable flags).map mirrorEntry49).map fun entry => readU entry 41 8) = _
    rw [hbuffers]
    rfl

/-- **The exact tombstone matches**, when a session that is released has no other entries. -/
theorem Reflects.match_exactTombstone (h : Reflects C role id mirror reg)
    (heligible : Eligible mirror flags epoch) (hrest : flags = 1 → reg.rest = []) :
    matchFpr9AgainstMirror C (some mirror)
      ((exactTombstone role id mirror reg flags epoch).tombstone C) role.byte id = .ok () := by
  obtain ⟨hpresent, -, hvariant⟩ := heligible
  have hsame : flags = 1 → reg.all = reg.orphans := fun hone => Registry.all_eq_orphans (hrest hone)
  have hcount : (reg.removable flags).length =
      if flags = 0 then mirror.chargeEntryCount else mirror.orphanCount := by
    unfold Registry.removable
    split
    · exact h.count.symm
    · exact h.orphanCount.symm
  have hsum : chargeSumOf (reg.removable flags) = if flags = 2 then mirror.orphanSum
      else if flags = 1 then mirror.orphanSum else mirror.chargeSum := by
    rcases hvariant with ⟨rfl, -⟩ | ⟨rfl, -⟩ | ⟨rfl, -⟩
    · exact h.sum.symm
    · exact h.orphanSum.symm
    · exact h.orphanSum.symm
  have hchain : chargeChainOf C role.byte id ((reg.removable flags).map mirrorEntry49) =
      if flags = 2 then chainOr C mirror.orphanChain role.byte id
      else chainOr C mirror.chargeChain role.byte id := by
    rcases hvariant with ⟨rfl, -⟩ | ⟨rfl, -⟩ | ⟨rfl, -⟩
    · exact h.chain.symm
    · exact (congrArg (chainOf C role id) (hsame rfl).symm).trans h.chain.symm
    · exact h.orphanChain.symm
  simp only [matchFpr9AgainstMirror, guards_eq_ok, filter_eq_some_iff, some.injEq]
  refine ⟨mirror, ⟨rfl, hpresent⟩, fun hf => if_pos hf, fun hf => if_neg hf, rfl, rfl, ⟨hcount, hsum⟩, ?_, rfl, rfl,
      rfl, ?_, ?_,
    ?_, ?_, rfl⟩
  · show chargeChainFinal C role.byte id (reg.removable flags).length (chargeSumOf (reg.removable flags))
      (chargeChainOf C role.byte id ((reg.removable flags).map mirrorEntry49)) = _
    rw [hcount, hsum, hchain]
    rfl
  · intro hzero
    rcases hvariant with ⟨-, hepoch⟩ | ⟨hf, -⟩ | ⟨hf, -⟩
    · exact hepoch
    · exact absurd (hzero.symm.trans hf) (by decide)
    · exact absurd (hzero.symm.trans hf) (by decide)
  · intro hzero
    subst hzero
    cases hconsumed : mirror.consumed <;>
      simp [TombstoneInput.tombstone, exactTombstone, hconsumed]
  · intro hone
    rcases hvariant with ⟨hf, -⟩ | ⟨-, -, hfresh⟩ | ⟨hf, -⟩
    · exact absurd (hf.symm.trans hone) (by decide)
    · exact hfresh
    · exact absurd (hf.symm.trans hone) (by decide)
  · intro htwo
    rcases hvariant with ⟨hf, -⟩ | ⟨hf, -⟩ | ⟨-, -, hexisting⟩
    · exact absurd (hf.symm.trans htwo) (by decide)
    · exact absurd (hf.symm.trans htwo) (by decide)
    · exact hexisting

/-- The tombstone of a run is refused when another entry is left: the chain of all entries is not that
of the run. -/
theorem Reflects.match_other_chain (h : Reflects C role id mirror reg) (heligible : Eligible mirror 1 epoch)
    (hchain : chargeChainFinal C role.byte id reg.orphans.length (chargeSumOf reg.orphans)
        (chainOf C role id reg.orphans) ≠
      chargeChainFinal C role.byte id reg.orphans.length (chargeSumOf reg.orphans) (chainOf C role id reg.all)) :
    matchFpr9AgainstMirror C (some mirror) ((exactTombstone role id mirror reg 1 epoch).tombstone C) role.byte id =
        .error "charge chain mismatch" := by
  have hcount : (reg.removable 1).length = mirror.orphanCount := h.orphanCount.symm
  have hsum : chargeSumOf (reg.removable 1) = mirror.orphanSum := h.orphanSum.symm
  rw [← h.chain, ← h.orphanCount, ← h.orphanSum] at hchain
  have hrefused : ¬ chargeRegistryCommitment C role.byte id mirror.orphanCount mirror.orphanSum
      ((reg.removable 1).map mirrorEntry49) = chargeChainFinal C role.byte id mirror.orphanCount
        mirror.orphanSum (chainOr C mirror.chargeChain role.byte id) := hchain
  rw [matchFpr9AgainstMirror, filter_some, if_pos heligible.1]
  simp [TombstoneInput.tombstone, exactTombstone, demand, require, hcount, hsum, hrefused]

/-- **A tombstone that matches** was encoded from the entries that it removes. -/
theorem Reflects.entries_of_match (h : Reflects C role id mirror reg) (hid : id.length = 32)
    (hvalid : ∀ e ∈ reg.all, EntryValid e) {input : TombstoneInput} {payload : Bytes}
    (hrole : input.role = role) (hsession : input.stableSessionId = id)
    (hencode : encodeForwardHttpsRetentionPrunedV3 C input = .ok payload)
    (hinj : Set.InjOn C.blake2b256
      (chargeMessages C role.byte id input.chargeEntryCount input.removedOrdinaryLogicalBytes
          input.chargeEntryBuffers ∪
        (chargeMessages C role.byte id input.chargeEntryCount input.removedOrdinaryLogicalBytes
            (reg.all.map mirrorEntry49) ∪
          chargeMessages C role.byte id input.chargeEntryCount input.removedOrdinaryLogicalBytes
            (reg.orphans.map mirrorEntry49))))
    (hmatch : matchFpr9AgainstMirror C (some mirror) (input.tombstone C) role.byte id = .ok ()) :
    input.chargeEntryBuffers = (reg.removable input.flags).map mirrorEntry49 ∧ (input.flags = 1 → reg.rest = []) := by
  simp only [encodeForwardHttpsRetentionPrunedV3, guards_eq_ok] at hencode
  obtain ⟨hflags, -, -, -, -, -, -, -, -, -, -, -, -, -, hlength, h49, -⟩ := hencode
  simp only [matchFpr9AgainstMirror, guards_eq_ok, filter_eq_some_iff, some.injEq] at hmatch
  obtain ⟨m, ⟨rfl, -⟩, -, -, -, -, hcounts, hchain, -⟩ := hmatch
  obtain ⟨hcount, hsum⟩ := hcounts
  rw [← hcount, ← hsum] at hchain
  have hbuffers : ∀ e ∈ reg.all.map mirrorEntry49, e.length = 49 := by
    intro e he
    obtain ⟨entry, hentry, rfl⟩ := mem_map.mp he
    exact (hvalid entry hentry).length_mirrorEntry49
  have horphans : ∀ e ∈ reg.orphans.map mirrorEntry49, e.length = 49 := by
    intro e he
    obtain ⟨entry, hentry, rfl⟩ := mem_map.mp he
    obtain ⟨pair, hpair, rfl⟩ := mem_map.mp hentry
    exact hbuffers _ (mem_map_of_mem (mem_map_of_mem (mem_of_mem_filter hpair)))
  subst hrole hsession
  have hall : input.flags ≠ 2 → input.chargeEntryBuffers = reg.all.map mirrorEntry49 := by
    intro hne
    have hchain : chargeRegistryCommitment C input.role.byte input.stableSessionId _ _ _ =
      chargeChainFinal C input.role.byte input.stableSessionId _ _ (if input.flags = 2 then _ else _) := hchain
    rw [if_neg hne, h.chain] at hchain
    exact chargeChainFinal_injective hid h49 hbuffers (hinj.mono (Set.union_subset_union_right _
      Set.subset_union_left)) hchain
  rcases hflags with hzero | hone | htwo
  · refine ⟨?_, fun hone => absurd (hzero.symm.trans hone) (by decide)⟩
    rw [Registry.removable, if_pos hzero]
    exact hall (by omega)
  · -- the chain of all entries has the length of the run
    have hbuffered := hall (by omega)
    have hnil : reg.rest = [] := by
      have hcount : input.chargeEntryCount = if input.flags = 0 then _ else _ := hcount
      rw [if_neg (by omega), h.orphanCount, ← hlength, hbuffered, length_map] at hcount
      have := reg.length_all
      exact length_eq_zero_iff.mp (by omega)
    refine ⟨?_, fun _ => hnil⟩
    rw [Registry.removable, if_neg (by omega), hbuffered, Registry.all_eq_orphans hnil]
  · refine ⟨?_, fun hone => absurd (htwo.symm.trans hone) (by decide)⟩
    have hchain : chargeRegistryCommitment C input.role.byte input.stableSessionId _ _ _ =
      chargeChainFinal C input.role.byte input.stableSessionId _ _ (if input.flags = 2 then _ else _) := hchain
    rw [if_pos htwo, h.orphanChain] at hchain
    rw [Registry.removable, if_neg (by omega)]
    exact chargeChainFinal_injective hid h49 horphans (hinj.mono (Set.union_subset_union_right _
      Set.subset_union_right)) hchain

/-! ### What is recovered -/

variable {frames : List WalFrame} {log : List (WalEntry × Bytes)}

/-- The mirrors of a sink, and the registry of a session, are in their ranges along the frames that
it absorbs. -/
theorem valid_of_absorbAll_from (id : Bytes) {sink' : Sink} (h : absorbAll C sink frames = .ok (sink', log))
    (hvalid : ∀ id, MirrorValid id (mirrorOf sink.sessions id))
    (hreg : RegistryValid reg sink.lastSequence) (hsequence : sink.lastSequence < 2 ^ 64) :
    sink'.role = sink.role ∧ (∀ id, MirrorValid id (mirrorOf sink'.sessions id)) ∧
      RegistryValid (log.foldl (Registry.absorb id) reg) sink'.lastSequence ∧
      sink'.lastSequence < 2 ^ 64 := by
  induction frames generalizing sink log reg with
  | nil =>
    obtain ⟨rfl, rfl⟩ := h
    exact ⟨rfl, hvalid, hreg, hsequence⟩
  | cons frame frames ih =>
    simp only [absorbAll, guards_eq_ok, Prod.mk.injEq] at h
    obtain ⟨⟨sink₁, entry⟩, habsorb, ⟨sink₂, log₂⟩, hrest, rfl, rfl⟩ := h
    have habsorbed := absorbed_of_absorb habsorb
    have hlt : sink₁.lastSequence < 2 ^ 64 := by
      rw [habsorbed.lastSequence_eq]
      exact habsorbed.from_frame.sequence_lt
    obtain ⟨hrole, hrest⟩ := ih hrest (habsorbed.mirrorValid hvalid) (habsorbed.registryValid hreg id) hlt
    exact ⟨hrole.trans habsorbed.role_eq, hrest⟩

theorem match_mirrorOf {sessions : OrderedMap Bytes Mirror} {pruned : Tombstone} {label : UInt8}
    (hpresent : (mirrorOf sessions id).present = true) :
    matchFpr9AgainstMirror C (sessions.get? id) pruned label id =
      matchFpr9AgainstMirror C (some (mirrorOf sessions id)) pruned label id := by
  cases hget : sessions.get? id with
  | none =>
    rw [mirrorOf, hget] at hpresent
    cases hpresent
  | some mirror => rw [mirrorOf, hget, getD_some]

theorem reflects_of_absorbAll
    (h : absorbAll C (.begin role) frames = .ok (sink, log)) (hlost : (registryOf id log).lost = false) :
    Reflects C role id (mirrorOf sink.sessions id) (registryOf id log) := by
  have hreflects : Reflects C sink.role id (mirrorOf sink.sessions id) (registryOf id log) :=
    reflects_of_absorbAll_from h (fun _ => reflects_unseen) hlost
  have hrole : sink.role = role := (valid_of_absorbAll_from id h
    (fun _ => mirrorValid_unseen) (registryValid_empty 0) (Nat.two_pow_pos 64)).1
  rwa [hrole] at hreflects

/-- The tombstone of the entries that are left can be encoded, and is decoded to what it was. -/
theorem tombstone_of_absorbAll (h : absorbAll C (.begin role) frames = .ok (sink, log))
    (hlost : (registryOf id log).lost = false) (hnonzero : id ≠ zero32)
    (heligible : Eligible (mirrorOf sink.sessions id) flags epoch) :
    ∃ payload, encodeForwardHttpsRetentionPrunedV3 C (exactTombstone role id
        (mirrorOf sink.sessions id) (registryOf id log) flags epoch) = .ok payload ∧
      decodeForwardHttpsRetentionPrunedV3 payload = .ok ((exactTombstone role id
        (mirrorOf sink.sessions id) (registryOf id log) flags epoch).tombstone C) := by
  have hreflects := reflects_of_absorbAll h hlost
  obtain ⟨-, hvalid, hreg, hsequence⟩ := valid_of_absorbAll_from id h
    (fun _ => mirrorValid_unseen) (registryValid_empty 0) (Nat.two_pow_pos 64)
  have hencodable : Encodable id (mirrorOf sink.sessions id) (registryOf id log) :=
    { hreg with
      nonzero := hnonzero
      mirror_valid := hvalid id
      revision_lt := hreg.revision_le.trans_lt hsequence }
  obtain ⟨payload, hencode⟩ := hencodable.encode hreflects heligible
  exact ⟨payload, hencode, decode_encodeForwardHttpsRetentionPrunedV3 hencode⟩

/-- **The bounded charge mirror equals the full registry.** After the frames of a log the mirror of a
session has the count, the sum and the chain of the entries that are left, and of those of the open
run. The tombstone of exactly these entries can be encoded and is accepted, and one that is accepted
was encoded from exactly these entries. A session whose first run is released must have no other
entries. -/
theorem charge_mirror_exact {frames : List WalFrame} {sink : Sink} {log : List (WalEntry × Bytes)}
    (h : absorbAll C (.begin role) frames = .ok (sink, log))
    (hlost : (registryOf id log).lost = false) :
    ((mirrorOf sink.sessions id).chargeEntryCount = (registryOf id log).all.length ∧
      (mirrorOf sink.sessions id).chargeSum = chargeSumOf (registryOf id log).all ∧
      chainOr C (mirrorOf sink.sessions id).chargeChain role.byte id = chainOf C role id (registryOf id log).all) ∧
    ((mirrorOf sink.sessions id).openPrefix ≠ none →
      (mirrorOf sink.sessions id).orphanCount = (registryOf id log).orphans.length ∧
      (mirrorOf sink.sessions id).orphanSum = chargeSumOf (registryOf id log).orphans ∧
      chainOr C (mirrorOf sink.sessions id).orphanChain role.byte id = chainOf C role id (registryOf id log).orphans ∧
      (mirrorOf sink.sessions id).orphanLastRevision = (registryOf id log).lastRevision) ∧
    (∀ flags epoch, id ≠ zero32 → Eligible (mirrorOf sink.sessions id) flags epoch →
      (flags = 1 → (registryOf id log).rest = []) →
      ∃ payload pruned, encodeForwardHttpsRetentionPrunedV3 C (exactTombstone role id (mirrorOf sink.sessions id)
          (registryOf id log) flags epoch) = .ok payload ∧
        decodeForwardHttpsRetentionPrunedV3 payload = .ok pruned ∧
        matchFpr9AgainstMirror C (sink.sessions.get? id) pruned role.byte id = .ok ()) ∧
    ∀ input payload pruned, input.role = role → input.stableSessionId = id →
      encodeForwardHttpsRetentionPrunedV3 C input = .ok payload →
      decodeForwardHttpsRetentionPrunedV3 payload = .ok pruned →
      Set.InjOn C.blake2b256 (chargeMessages C role.byte id input.chargeEntryCount input.removedOrdinaryLogicalBytes
            input.chargeEntryBuffers ∪
          (chargeMessages C role.byte id input.chargeEntryCount input.removedOrdinaryLogicalBytes
              ((registryOf id log).all.map mirrorEntry49) ∪
            chargeMessages C role.byte id input.chargeEntryCount input.removedOrdinaryLogicalBytes
              ((registryOf id log).orphans.map mirrorEntry49))) →
      matchFpr9AgainstMirror C (sink.sessions.get? id) pruned role.byte id = .ok () →
      input.chargeEntryBuffers = ((registryOf id log).removable input.flags).map mirrorEntry49 ∧
        (input.flags = 1 → (registryOf id log).rest = []) := by
  have hreflects := reflects_of_absorbAll h hlost
  obtain ⟨-, hvalid, hreg, hsequence⟩ := valid_of_absorbAll_from id h
    (fun _ => mirrorValid_unseen) (registryValid_empty 0) (Nat.two_pow_pos 64)
  refine ⟨⟨hreflects.count, hreflects.sum, hreflects.chain⟩, fun hopen => ⟨hreflects.orphanCount,
    hreflects.orphanSum, hreflects.orphanChain, hreflects.orphanRevision hopen⟩, ?_, ?_⟩
  · intro flags epoch hnonzero heligible hrest
    obtain ⟨payload, hencode, hdecode⟩ := tombstone_of_absorbAll h hlost hnonzero heligible
    refine ⟨payload, _, hencode, hdecode, ?_⟩
    rw [match_mirrorOf heligible.1]
    exact hreflects.match_exactTombstone heligible hrest
  · intro input payload pruned hinput hsession hencode hdecode hinj hmatch
    rw [decode_encodeForwardHttpsRetentionPrunedV3 hencode] at hdecode
    cases hdecode
    have hsome := some_mirrorOf_of_match hmatch
    have hpresent : (mirrorOf sink.sessions id).present = true := by
      simp only [matchFpr9AgainstMirror, guards_eq_ok, filter_eq_some_iff, some.injEq] at hsome
      obtain ⟨m, ⟨rfl, hpresent⟩, -⟩ := hsome
      exact hpresent
    exact hreflects.entries_of_match ((hvalid id).length_id hpresent) hreg.entries hinput hsession hencode hinj hsome

end Exact

/-! ### A run with another operation -/

def sampleSession : Bytes := replicate 32 7

/-- A payload of a session frame, with the commitment of its request. -/
def samplePayload (commitment : UInt8) : Bytes :=
  [0, 0, 0, 0] ++ (sampleSession ++ (replicate 32 commitment ++ replicate 50 0))

def sampleFrame (type sequence : ℕ) (previousWalHash walHash payload : Bytes) : WalFrame where
  type := type
  payload := payload
  payloadHash := Blake2b.hash payload
  sequence := sequence
  previousWalHash := previousWalHash
  walHash := walHash
  frameBytes := payload.length + walFrameOverheadBytes

/-- A run that was begun on a new session. -/
def runFrame : WalFrame := sampleFrame 113 1 zero32 (replicate 32 1) (samplePayload 1)

/-- A frame of another request on it. -/
def otherFrame : WalFrame :=
  sampleFrame 115 2 (replicate 32 1) (replicate 32 2) (samplePayload 2)

/-- The tombstone of a run on a new session is accepted. -/
theorem charge_mirror_exact_run : ∃ sink log payload pruned,
    absorbAll Blake2b.crypto (.begin .target) [runFrame] = .ok (sink, log) ∧
    encodeForwardHttpsRetentionPrunedV3 Blake2b.crypto (exactTombstone .target sampleSession
      (mirrorOf sink.sessions sampleSession) (registryOf sampleSession log) 1 1) = .ok payload ∧
    decodeForwardHttpsRetentionPrunedV3 payload = .ok pruned ∧
    matchFpr9AgainstMirror Blake2b.crypto (sink.sessions.get? sampleSession) pruned 2 sampleSession = .ok () := by
  obtain ⟨⟨sink, log⟩, habsorb, hlost, heligible, hrest⟩ := exists_ok
    (absorbAll Blake2b.crypto (.begin .target) [runFrame]) (fun r => (registryOf sampleSession r.2).lost = false ∧
      Eligible (mirrorOf r.1.sessions sampleSession) 1 1 ∧ (registryOf sampleSession r.2).rest = [])
    (by decide +kernel)
  obtain ⟨-, -, haccepted, -⟩ := charge_mirror_exact habsorb hlost
  obtain ⟨payload, pruned, hencode, hdecode, hmatch⟩ :=
    haccepted 1 1 (by decide) heligible fun _ => hrest
  exact ⟨sink, log, payload, pruned, habsorb, hencode, hdecode, hmatch⟩

/-- **With a frame of another request the tombstone of the run is not accepted.** -/
theorem run_with_other_operation_not_released : ∃ sink log payload pruned,
    absorbAll Blake2b.crypto (.begin .target) [runFrame, otherFrame] = .ok (sink, log) ∧
    (registryOf sampleSession log).lost = false ∧
    Eligible (mirrorOf sink.sessions sampleSession) 1 1 ∧
    encodeForwardHttpsRetentionPrunedV3 Blake2b.crypto (exactTombstone .target sampleSession
      (mirrorOf sink.sessions sampleSession) (registryOf sampleSession log) 1 1) = .ok payload ∧
    decodeForwardHttpsRetentionPrunedV3 payload = .ok pruned ∧
    matchFpr9AgainstMirror Blake2b.crypto (sink.sessions.get? sampleSession) pruned 2 sampleSession =
      .error "charge chain mismatch" := by
  obtain ⟨⟨sink, log⟩, habsorb, hlost, heligible, hchain⟩ := exists_ok
      (absorbAll Blake2b.crypto (.begin .target) [runFrame, otherFrame])
      (fun r => (registryOf sampleSession r.2).lost = false ∧ Eligible (mirrorOf r.1.sessions sampleSession) 1 1 ∧
        chargeChainFinal Blake2b.crypto 2 sampleSession (registryOf sampleSession r.2).orphans.length
            (chargeSumOf (registryOf sampleSession r.2).orphans)
            (chainOf Blake2b.crypto .target sampleSession (registryOf sampleSession r.2).orphans) ≠
          chargeChainFinal Blake2b.crypto 2 sampleSession (registryOf sampleSession r.2).orphans.length
            (chargeSumOf (registryOf sampleSession r.2).orphans)
            (chainOf Blake2b.crypto .target sampleSession (registryOf sampleSession r.2).all))
      (by decide +kernel)
  obtain ⟨payload, hencode, hdecode⟩ := tombstone_of_absorbAll habsorb hlost (by decide) heligible
  refine ⟨sink, log, payload, _, habsorb, hlost, heligible, hencode, hdecode, ?_⟩
  rw [match_mirrorOf heligible.1]
  exact (reflects_of_absorbAll habsorb hlost).match_other_chain heligible hchain

end HiveRelay.Quota
