import HiveRelay.Capacity.Authority
import HiveRelay.Lib.Run

/-!
# Runs of the storage admission ledger

The calls of the authority one after another, with whatever is read from outside. The tokens that were
returned are remembered, and those that were committed or rolled back.

A reservation is always the one of a token that is not settled, so a token is settled once. A handoff that
lost its key does not get it back, but one whose key is reserved again is only suspended.

## Main definitions

* `Ledger`, `Inv` — the authority with the tokens it returned, and its invariant

## Main results

* `step_moves` — a call moves at most one token
* `ledger_sound` — the counters are sums, and a token is settled once
-/

namespace HiveRelay.Storage

open List Option OrderedMap Act
open Authority

/-- A call. A token is given by the number of the reservation that returned it, and `null` is `none`. -/
inductive Call where
  | reserve (key : JsString) (boundBytes : Option ℕ) (opts : ReserveOpts) (readings : Readings)
  | commit (token : Option ℕ) (opts : CommitOpts)
  | rollback (token : Option ℕ)
  | release (key : JsString)
  | adoptRecovery (key : JsString) (boundBytes : Option ℕ) (opts : RecoveryOpts)
  | reconcileActual (key : JsString) (actualBytes : Option ℕ)
  | issueOwnedHandoff (key : JsString)
  | releaseOwnedHandoff (handoff : ℕ)
  | markRecoveryReady (kind : JsString)
  | beginRecovery (kinds : List JsString)
  | openMutations
  | closeMutations (reason : String)
  | failClosed (reason : String)
  | setConfig (config : Config)

/-- The authority, the tokens that were returned, and the numbers of those that were settled. -/
structure Ledger where
  authority : Authority
  issued : List Token := []
  settled : List ℕ := []

def Ledger.settle (l : Ledger) (i : Option ℕ) (call : Option Token → Bool × Authority) :
    Option Ledger :=
  match i with
  | none => some { l with authority := (call none).2 }
  | some i => l.issued[i]?.map fun token =>
    { l with
      authority := (call (some token)).2
      settled := if (call (some token)).1 then i :: l.settled else l.settled }

def step (sampleMaxAgeMs : ℕ) (l : Ledger) : Call → Option Ledger
  | .reserve key boundBytes opts readings =>
    match Authority.reserve sampleMaxAgeMs key boundBytes opts readings l.authority with
    | (.ok token, a) => some { l with authority := a, issued := l.issued ++ [token] }
    | (.error _, a) => some { l with authority := a }
  | .commit i opts => l.settle i fun token => l.authority.commit token opts
  | .rollback i => l.settle i l.authority.rollback
  | .release key => some { l with authority := (l.authority.release key).2 }
  | .adoptRecovery key boundBytes opts =>
    some { l with authority := (l.authority.adoptRecovery key boundBytes opts).2 }
  | .reconcileActual key actualBytes =>
    some { l with authority := (l.authority.reconcileActual key actualBytes).2 }
  | .issueOwnedHandoff key => some { l with authority := (l.authority.issueOwnedHandoff key).2 }
  | .releaseOwnedHandoff handoff =>
    some { l with authority := (l.authority.releaseOwnedHandoff handoff).2 }
  | .markRecoveryReady kind =>
    some { l with authority := { l.authority with
      recoveryPending := l.authority.recoveryPending.filter (· ≠ kind) } }
  | .beginRecovery kinds => some { l with authority := l.authority.beginRecovery kinds }
  | .openMutations =>
    some { l with authority := { l.authority with
      acceptingMutations := true, mutationStopReason := none } }
  | .closeMutations reason =>
    some { l with authority := { l.authority with
      acceptingMutations := false, mutationStopReason := some reason } }
  | .failClosed reason => some { l with authority := l.authority.failClosed reason }
  | .setConfig config => some { l with authority := { l.authority with config } }

/-! ### What a call does to the reservations -/

variable {record : Record} {boundBytes : Option ℕ}

section Reservations

variable {a a' : Authority} {key : JsString}

/-- The counters follow, and there is no new reservation. -/
structure Calm (a a' : Authority) : Prop where
  counted : a.Counted → a'.Counted
  reserved : ∀ key record, a'.records.get? key = some record → record.state = .reserved →
    a.records.get? key = some record
  tokenSequence : a'.tokenSequence = a.tokenSequence

theorem Calm.of_eq (hrecords : a'.records = a.records) (htotals : a'.totals = a.totals)
    (hsequence : a'.tokenSequence = a.tokenSequence) : Calm a a' where
  counted h := by rw [Counted, hrecords, htotals]; exact h
  reserved key record h _ := hrecords ▸ h
  tokenSequence := hsequence

theorem Calm.setRecord (h : record.state ≠ .reserved) : Calm a (a.setRecord key record) where
  counted hcounted := hcounted.setRecord record
  reserved k r hget hreserved := by
    simp only [Authority.setRecord, get?_set] at hget
    split at hget
    · cases hget
      exact absurd hreserved h
    · exact hget
  tokenSequence := rfl

theorem Calm.deleteRecord : Calm a (a.deleteRecord key).2 where
  counted := Counted.deleteRecord
  reserved k r hget _ := by
    rw [get?_deleteRecord] at hget
    split at hget
    · cases hget
    · exact hget
  tokenSequence := by
    unfold Authority.deleteRecord
    split <;> rfl

theorem Calm.reconcileActual {actualBytes : Option ℕ} : Calm a (a.reconcileActual key actualBytes).2 := by
  unfold Authority.reconcileActual
  split
  · next record actual hget _ =>
    split
    · next hcommitted =>
      refine ⟨fun hcounted => ?_, fun k r hr hreserved => ?_, rfl⟩
      · rw [Counted, sumBy_set, show a.totals = _ from hcounted, sumBy_eq_of_get? _ hget]
        rfl
      · rw [get?_set] at hr
        split at hr
        · cases hr
          exact absurd (hcommitted.1.symm.trans hreserved) (by decide)
        · exact hr
    · exact .of_eq rfl rfl rfl
  · exact .of_eq rfl rfl rfl

theorem Calm.adoptRecovery {opts : RecoveryOpts} : Calm a (a.adoptRecovery key boundBytes opts).2 := by
  unfold Authority.adoptRecovery
  dsimp only
  split
  · exact .of_eq rfl rfl rfl
  · split
    · exact .of_eq rfl rfl rfl
    · refine .setRecord ?_
      split <;> simp

theorem Calm.beginRecovery {kinds : List JsString} : Calm a (a.beginRecovery kinds) where
  counted _ := rfl
  reserved _ _ h _ := by cases h
  tokenSequence := rfl

theorem Calm.issueOwnedHandoff : Calm a (a.issueOwnedHandoff key).2 := by
  unfold Authority.issueOwnedHandoff
  split <;> exact .of_eq rfl rfl rfl

theorem Calm.releaseOwnedHandoff {handoff : ℕ} : Calm a (a.releaseOwnedHandoff handoff).2 := by
  unfold Authority.releaseOwnedHandoff
  split <;> exact .of_eq rfl rfl rfl

theorem Calm.trans {a₁ a₂ : Authority} (h : Calm a a₁) (h' : Calm a₁ a₂) : Calm a a₂ where
  counted hcounted := h'.counted (h.counted hcounted)
  reserved k record hget hreserved :=
    h.reserved k record (h'.reserved k record hget hreserved) hreserved
  tokenSequence := h'.tokenSequence.trans h.tokenSequence

theorem Calm.release : Calm a (a.release key).2 := by
  unfold Authority.release
  cases a.ownedLeases.get? key with
  | none => exact .deleteRecord
  | some handoff => exact Calm.releaseOwnedHandoff.trans .deleteRecord

/-- What settles a token ends its reservation. -/
structure Settles (a a' : Authority) (token : Token) : Prop where
  calm : Calm a a'
  owned : ∃ record, a.records.get? token.key = some record ∧ record.state = .reserved ∧
    record.tokenId = some token.tokenId
  ended : ∀ record, a'.records.get? token.key = some record → record.state ≠ .reserved

variable {token : Token}

theorem ownedRecord_eq_some : a.ownedRecord token = some record ↔ a.records.get? token.key = some record ∧
      record.state = .reserved ∧ record.tokenId = some token.tokenId := by
  simp [ownedRecord, filter_eq_some_iff]

theorem commit_settles {opts : CommitOpts} (h : (a.commit (some token) opts).1 = true) :
    Settles a (a.commit (some token) opts).2 token := by
  unfold Authority.commit at h ⊢
  split at h
  · cases h
  · next key record bound hbind =>
    simp only [bind_some, bind_eq_some_iff, map_eq_some_iff, Prod.mk.injEq] at hbind
    obtain ⟨_, howned, _, -, rfl, rfl, -⟩ := hbind
    refine ⟨.setRecord (by simp), ⟨_, ownedRecord_eq_some.mp howned⟩, fun r hget => ?_⟩
    simp only [Authority.setRecord, get?_set_self, some.injEq] at hget
    subst hget
    simp

theorem commit_calm {token : Option Token} {opts : CommitOpts}
    (h : (a.commit token opts).1 = false) : Calm a (a.commit token opts).2 := by
  unfold Authority.commit at h ⊢
  split at h
  · exact .of_eq rfl rfl rfl
  · cases h

/-- **A rollback** that is done puts back what the token replaced, and touches no other key. -/
theorem rollback_get? (h : (a.rollback (some token)).1 = true) :
    (a.ownedRecord token).isSome = true ∧ ∀ k, (a.rollback (some token)).2.records.get? k =
      if k = token.key then token.previous else a.records.get? k := by
  unfold Authority.rollback at h ⊢
  split at h
  · cases h
  · next token' howned =>
    obtain ⟨heq, howned⟩ := filter_eq_some_iff.mp howned
    cases heq
    refine ⟨howned, fun k => ?_⟩
    cases hprevious : token.previous with
    | none => exact get?_deleteRecord k
    | some previous => exact get?_set

theorem rollback_settles (h : (a.rollback (some token)).1 = true)
    (hprevious : token.previous.map Record.state ≠ some .reserved) :
    Settles a (a.rollback (some token)).2 token := by
  obtain ⟨howned, hget⟩ := rollback_get? h
  obtain ⟨record, howned⟩ := isSome_iff_exists.mp howned
  refine ⟨?_, ⟨record, ownedRecord_eq_some.mp howned⟩, fun r hr hreserved => ?_⟩
  · unfold Authority.rollback at h ⊢
    split at h
    · cases h
    · next token' hfilter =>
      obtain ⟨heq, -⟩ := filter_eq_some_iff.mp hfilter
      cases heq
      cases hp : token.previous with
      | none => exact .deleteRecord
      | some previous =>
        refine .setRecord fun hreserved => hprevious ?_
        rw [hp, map_some, hreserved]
  · rw [hget, if_pos rfl] at hr
    rw [hr, map_some, hreserved] at hprevious
    exact hprevious rfl

theorem rollback_calm {token : Option Token} (h : (a.rollback token).1 = false) : (a.rollback token).2 = a := by
  unfold Authority.rollback at h ⊢
  split at h
  · rfl
  · cases h

/-- Nothing but the reason of a failure differs. -/
def Fatal (a a' : Authority) : Prop := ∃ fatal, a' = { a with fatalReason := fatal }

theorem within_committedRemainder (readings : Readings) (entries : List (JsString × Record))
    (total : ℕ) : Act.Within Fatal (committedRemainder readings entries total) := by
  induction entries generalizing total with
  | nil => exact within_pure _
  | cons e entries ih =>
    refine within_bind (within_ofExcept_bind fun bound => ?_) fun remaining =>
      within_ofExcept_bind fun _ => ih _
    refine within_ite (within_bind (within_modify ?_) fun _ => within_throw _)
      (within_ofExcept_bind fun _ => within_pure _)
    rintro s₀ s ⟨fatal, rfl⟩
    exact ⟨_, rfl⟩

theorem reserve_error {sampleMaxAgeMs : ℕ} {opts : ReserveOpts} {readings : Readings} {refused : Refused}
    (h : Authority.reserve sampleMaxAgeMs key boundBytes opts readings a = (.error refused, a')) :
    Fatal a a' := by
  have hspec : Act.Spec (Fatal a) (Authority.reserve sampleMaxAgeMs key boundBytes opts readings)
      fun r s => r.toOption = none → Fatal a s := by
    refine spec_bind (R := fun _ => Fatal a) (fun _ hs => hs) (fun a₁ => ?_) fun _ _ hs _ => hs
    refine spec_bind (R := fun _ => Fatal a) (fun _ hs => hs) (fun checked => ?_) fun _ _ hs _ => hs
    refine spec_bind (R := fun _ => Fatal a) ?_ (fun admission => ?_) fun _ _ hs _ => hs
    · refine within_ofExcept_bind (fun _ => within_bind within_get fun _ =>
        within_ofExcept_bind fun _ => within_ofExcept_bind fun _ =>
        within_ofExcept_bind fun _ =>
        within_bind (within_committedRemainder _ _ _) fun _ => within_ofExcept _) a
    refine spec_bind (R := fun _ => Fatal a) (fun _ hs => hs) (fun _ => ?_) fun _ _ hs _ => hs
    exact fun s _ hok => nomatch hok
  have hat := hspec a ⟨a.fatalReason, rfl⟩
  rw [h] at hat
  exact hat rfl

end Reservations

/-! ### What a call does to the handoffs -/

section Handoffs

variable {a a' : Authority} {key : JsString} {handoff : ℕ}

/-- The handoff of a key is one of it, and the next handoff is new. -/
structure Handoffs (a : Authority) : Prop where
  known : ∀ key handoff, a.ownedLeases.get? key = some handoff → a.ownedHandoffs.get? handoff = some key
  old : ∀ handoff key, a.ownedHandoffs.get? handoff = some key → handoff < a.handoffSequence

/-- A handoff that is not the one of a key does not become it. -/
structure Handed (a a' : Authority) : Prop where
  handoffs : Handoffs a → Handoffs a'
  handoffSequence : a.handoffSequence ≤ a'.handoffSequence
  leased : ∀ handoff key, handoff < a.handoffSequence → a'.Leased handoff key → a.Leased handoff key

theorem Handed.of_eq (hhandoffs : a'.ownedHandoffs = a.ownedHandoffs)
    (hleases : a'.ownedLeases = a.ownedLeases) (hsequence : a'.handoffSequence = a.handoffSequence) :
    Handed a a' where
  handoffs h := ⟨by rw [hhandoffs, hleases]; exact h.known, by rw [hhandoffs, hsequence]; exact h.old⟩
  handoffSequence := hsequence.ge
  leased handoff key _ h := by rw [Leased, hhandoffs, hleases] at h; exact h

theorem Handed.deleteRecord : Handed a (a.deleteRecord key).2 := by
  unfold Authority.deleteRecord
  split <;> exact .of_eq rfl rfl rfl

theorem Handed.commit {token : Option Token} {opts : CommitOpts} : Handed a (a.commit token opts).2 := by
  unfold Authority.commit
  split <;> exact .of_eq rfl rfl rfl

theorem Handed.rollback {token : Option Token} : Handed a (a.rollback token).2 := by
  unfold Authority.rollback
  split
  · exact .of_eq rfl rfl rfl
  · next token' _ =>
    cases token'.previous with
    | none => exact .deleteRecord
    | some previous => exact .of_eq rfl rfl rfl

theorem Handed.adoptRecovery {opts : RecoveryOpts} : Handed a (a.adoptRecovery key boundBytes opts).2 := by
  unfold Authority.adoptRecovery
  dsimp only
  split
  · exact .of_eq rfl rfl rfl
  · split <;> exact .of_eq rfl rfl rfl

theorem Handed.reconcileActual {actualBytes : Option ℕ} : Handed a (a.reconcileActual key actualBytes).2 := by
  unfold Authority.reconcileActual
  split
  · split <;> exact .of_eq rfl rfl rfl
  · exact .of_eq rfl rfl rfl

theorem Handed.beginRecovery {kinds : List JsString} : Handed a (a.beginRecovery kinds) where
  handoffs h := ⟨nofun, h.old⟩
  handoffSequence := le_rfl
  leased _ _ _ h := nomatch h.2

theorem Handed.issueOwnedHandoff : Handed a (a.issueOwnedHandoff key).2 := by
  unfold Authority.issueOwnedHandoff
  split
  · next hissue =>
    refine ⟨fun h => ⟨fun k n hk => ?_, fun n k hn => ?_⟩, Nat.le_succ _, fun n k hold hleased => ?_⟩
    · simp only [get?_set] at hk ⊢
      split at hk
      · next heq =>
        cases hk
        rw [if_pos rfl, heq]
      · have hknown := h.known k n hk
        rw [if_neg (h.old n k hknown).ne, hknown]
    · simp only [get?_set] at hn
      split at hn
      · next heq => exact heq ▸ Nat.lt_succ_self _
      · exact (h.old n k hn).trans (Nat.lt_succ_self _)
    · simp only [Leased, get?_set, if_neg hold.ne] at hleased ⊢
      refine ⟨hleased.1, ?_⟩
      have hlease := hleased.2
      split at hlease
      · cases hlease
        exact absurd hold (lt_irrefl _)
      · exact hlease
  · exact .of_eq rfl rfl rfl

theorem releaseOwnedHandoff_eq (handoff : ℕ) : (a.releaseOwnedHandoff handoff).2 = a ∨ ∃ key, a.Leased handoff key ∧
      (a.releaseOwnedHandoff handoff).2 = { a with
        ownedLeases := a.ownedLeases.delete key, ownedHandoffs := a.ownedHandoffs.delete handoff } := by
  unfold Authority.releaseOwnedHandoff
  split
  · exact .inl rfl
  · next key hfilter =>
    obtain ⟨hknown, hlease⟩ := filter_eq_some_iff.mp hfilter
    simp only [ne_eq, decide_eq_true_eq] at hlease
    exact .inr ⟨key, ⟨hknown, hlease.2⟩, rfl⟩

theorem Handed.releaseOwnedHandoff : Handed a (a.releaseOwnedHandoff handoff).2 := by
  obtain heq | ⟨key, hleased, heq⟩ := releaseOwnedHandoff_eq (a := a) handoff
  · rw [heq]
    exact .of_eq rfl rfl rfl
  · rw [heq]
    refine ⟨fun h => ⟨fun k n hk => ?_, fun n k hn => ?_⟩, le_rfl, fun n k _ hleased' => ?_⟩
    · simp only [get?_delete] at hk ⊢
      split at hk
      · cases hk
      · next hne =>
        have hknown := h.known k n hk
        have hother : n ≠ handoff := by
          rintro rfl
          exact hne (mem_unique hknown hleased.1)
        rw [if_neg hother, hknown]
    · simp only [get?_delete] at hn
      split at hn
      · cases hn
      · exact h.old n k hn
    · simp only [Leased, get?_delete] at hleased' ⊢
      obtain ⟨h₁, h₂⟩ := hleased'
      split at h₁
      · cases h₁
      · split at h₂
        · cases h₂
        · exact ⟨h₁, h₂⟩

theorem Handed.trans {a₁ a₂ : Authority} (h : Handed a a₁) (h' : Handed a₁ a₂) : Handed a a₂ where
  handoffs hs := h'.handoffs (h.handoffs hs)
  handoffSequence := h.handoffSequence.trans h'.handoffSequence
  leased n k hold hleased :=
    h.leased n k hold (h'.leased n k (hold.trans_le h.handoffSequence) hleased)

theorem Handed.release : Handed a (a.release key).2 := by
  unfold Authority.release
  cases a.ownedLeases.get? key with
  | none => exact .deleteRecord
  | some handoff => exact Handed.releaseOwnedHandoff.trans .deleteRecord

/-- **A key that is released** has no handoff. -/
theorem not_leased_release (h : Handoffs a) (hkey : key ≠ []) (n : ℕ) : ¬ (a.release key).2.Leased n key := by
  intro hleased
  have hafter : (((a.ownedLeases.get? key).elim a fun handoff =>
      (a.releaseOwnedHandoff handoff).2)).ownedLeases.get? key = some n := by
    have hlease := hleased.2
    unfold Authority.release Authority.deleteRecord at hlease
    split at hlease <;> exact hlease
  cases hlease : a.ownedLeases.get? key with
  | none =>
    rw [hlease, Option.elim, hlease] at hafter
    cases hafter
  | some handoff =>
    have hfilter : (a.ownedHandoffs.get? handoff).filter (fun k =>
        k ≠ [] ∧ a.ownedLeases.get? k = some handoff) = some key :=
      filter_eq_some_iff.mpr ⟨h.known key handoff hlease, by simp [hkey, hlease]⟩
    rw [hlease, Option.elim, Authority.releaseOwnedHandoff, hfilter] at hafter
    simp at hafter

theorem leased_of_validate (h : a.validateOwnedHandoff handoff (some key) = true) :
    key ≠ [] ∧ a.Leased handoff key ∧ a.CommittedWithBound key := by
  simp only [Authority.validateOwnedHandoff, Bool.and_eq_true, Option.any_eq_true, decide_eq_true_eq] at h
  obtain ⟨-, ownedKey, hknown, hne, hlease, hkey, hcommitted⟩ := h
  obtain rfl := hkey key rfl
  exact ⟨hne, ⟨hknown, hlease⟩, hcommitted⟩

end Handoffs

/-! ### A step -/

section Step

variable {sampleMaxAgeMs : ℕ} {l l' : Ledger}

/-- What a call does to the tokens: nothing, it settles one, or it returns one. -/
inductive Moves (l l' : Ledger) : Prop where
  | calm (h : Calm l.authority l'.authority) (issued : l'.issued = l.issued)
      (settled : l'.settled = l.settled)
  | settles (i : ℕ) (token : Token) (hi : l.issued[i]? = some token)
      (h : Settles l.authority l'.authority token) (issued : l'.issued = l.issued)
      (settled : l'.settled = i :: l.settled)
  | reserves (token : Token) (record : Record) (h : l'.authority = Authority.setRecord
        { l.authority with tokenSequence := l.authority.tokenSequence + 1 } token.key record)
      (hrecord : Reserves token record) (htoken : token.tokenId = l.authority.tokenSequence + 1)
      (hprevious : token.previous.map Record.state ≠ some .reserved)
      (issued : l'.issued = l.issued ++ [token]) (settled : l'.settled = l.settled)

/-- **Every call** keeps the handoffs, and moves at most one token. -/
theorem step_moves {call : Call} (h : step sampleMaxAgeMs l call = some l')
    (hprevious : ∀ token ∈ l.issued, token.previous.map Record.state ≠ some .reserved) :
    Handed l.authority l'.authority ∧ Moves l l' := by
  cases call with
  | reserve key boundBytes opts readings =>
    simp only [step] at h
    split at h
    · next token a hreserve =>
      cases h
      obtain ⟨record, rfl, hrecord, rfl, htoken, -, hprevious, -⟩ := reserve_ok _ hreserve
      exact ⟨.of_eq rfl rfl rfl, .reserves token record rfl hrecord htoken hprevious rfl rfl⟩
    · next refused a hreserve =>
      cases h
      obtain ⟨fatal, rfl⟩ := reserve_error hreserve
      exact ⟨.of_eq rfl rfl rfl, .calm (.of_eq rfl rfl rfl) rfl rfl⟩
  | commit i opts =>
    cases i with
    | none =>
      cases h
      exact ⟨Handed.commit, .calm (commit_calm rfl) rfl rfl⟩
    | some i =>
      obtain ⟨token, hi, rfl⟩ := map_eq_some_iff.mp h
      refine ⟨Handed.commit, ?_⟩
      cases hdone : (l.authority.commit (some token) opts).1 with
      | true => exact .settles i token hi (commit_settles hdone) rfl rfl
      | false => exact .calm (commit_calm hdone) rfl rfl
  | rollback i =>
    cases i with
    | none =>
      cases h
      exact ⟨Handed.rollback, .calm (.of_eq rfl rfl rfl) rfl rfl⟩
    | some i =>
      obtain ⟨token, hi, rfl⟩ := map_eq_some_iff.mp h
      refine ⟨Handed.rollback, ?_⟩
      cases hdone : (l.authority.rollback (some token)).1 with
      | true =>
        exact .settles i token hi (rollback_settles hdone (hprevious _ (mem_of_getElem? hi))) rfl rfl
      | false =>
        refine .calm ?_ rfl rfl
        exact .of_eq (by rw [rollback_calm hdone]) (by rw [rollback_calm hdone]) (by rw [rollback_calm hdone])
  | release key =>
    cases h
    exact ⟨.release, .calm .release rfl rfl⟩
  | adoptRecovery key boundBytes opts =>
    cases h
    exact ⟨.adoptRecovery, .calm .adoptRecovery rfl rfl⟩
  | reconcileActual key actualBytes =>
    cases h
    exact ⟨.reconcileActual, .calm .reconcileActual rfl rfl⟩
  | issueOwnedHandoff key =>
    cases h
    exact ⟨.issueOwnedHandoff, .calm .issueOwnedHandoff rfl rfl⟩
  | releaseOwnedHandoff handoff =>
    cases h
    exact ⟨.releaseOwnedHandoff, .calm .releaseOwnedHandoff rfl rfl⟩
  | beginRecovery kinds =>
    cases h
    exact ⟨.beginRecovery, .calm .beginRecovery rfl rfl⟩
  | markRecoveryReady | openMutations | closeMutations | failClosed | setConfig =>
    cases h
    exact ⟨.of_eq rfl rfl rfl, .calm (.of_eq rfl rfl rfl) rfl rfl⟩

/-- What holds of the ledger in a run. A token has the number of its reservation, and a record that is
reserved is the reservation of a token that is not settled. -/
structure Inv (l : Ledger) : Prop where
  counted : l.authority.Counted
  handoffs : Handoffs l.authority
  sequence : l.authority.tokenSequence = l.issued.length
  tokenId : ∀ i token, l.issued[i]? = some token → token.tokenId = i + 1
  previous : ∀ token ∈ l.issued, token.previous.map Record.state ≠ some .reserved
  reserved : ∀ key record, l.authority.records.get? key = some record → record.state = .reserved →
    ∃ i token, l.issued[i]? = some token ∧ token.key = key ∧ Reserves token record ∧ i ∉ l.settled
  settled : l.settled.Nodup
  old : ∀ i ∈ l.settled, i < l.issued.length

theorem Inv.owned (hl : Inv l) {i : ℕ} {token : Token}
    (hi : l.issued[i]? = some token) (hget : l.authority.records.get? token.key = some record)
    (hreserved : record.state = .reserved) (hid : record.tokenId = some token.tokenId) :
    i ∉ l.settled ∧ Reserves token record := by
  obtain ⟨j, token', hj, -, hrecord, hsettled⟩ := hl.reserved _ _ hget hreserved
  have hids : token'.tokenId = token.tokenId := mem_unique hrecord.tokenId hid
  rw [hl.tokenId j token' hj, hl.tokenId i token hi] at hids
  cases hids
  obtain rfl := mem_unique hj hi
  exact ⟨hsettled, hrecord⟩

/-- **A step** keeps the invariant. -/
theorem Inv.step {call : Call} (hl : Inv l) (h : step sampleMaxAgeMs l call = some l') : Inv l' := by
  obtain ⟨hhanded, hmoves⟩ := step_moves h hl.previous
  have hhandoffs := hhanded.handoffs hl.handoffs
  cases hmoves with
  | calm hcalm hissued hsettled =>
    refine ⟨hcalm.counted hl.counted, hhandoffs, ?_, ?_, ?_, fun k r hget hreserved => ?_, ?_, ?_⟩
    · rw [hcalm.tokenSequence, hissued, hl.sequence]
    · rw [hissued]; exact hl.tokenId
    · rw [hissued]; exact hl.previous
    · rw [hissued, hsettled]
      exact hl.reserved k r (hcalm.reserved k r hget hreserved) hreserved
    · rw [hsettled]; exact hl.settled
    · rw [hsettled, hissued]; exact hl.old
  | settles i token hi hsettles hissued hsettled =>
    obtain ⟨record, hget, hreserved, hid⟩ := hsettles.owned
    have hfresh := (hl.owned hi hget hreserved hid).1
    refine ⟨hsettles.calm.counted hl.counted, hhandoffs, ?_, ?_, ?_, fun k r hr hreserved => ?_, ?_, ?_⟩
    · rw [hsettles.calm.tokenSequence, hissued, hl.sequence]
    · rw [hissued]; exact hl.tokenId
    · rw [hissued]; exact hl.previous
    · rw [hissued, hsettled]
      obtain ⟨j, token', hj, rfl, hrecord, hsettled'⟩ :=
        hl.reserved k r (hsettles.calm.reserved k r hr hreserved) hreserved
      refine ⟨j, token', hj, rfl, hrecord, not_mem_cons_of_ne_of_not_mem ?_ hsettled'⟩
      rintro rfl
      obtain rfl := mem_unique hj hi
      exact hsettles.ended r hr hreserved
    · rw [hsettled]; exact nodup_cons.mpr ⟨hfresh, hl.settled⟩
    · rw [hsettled, hissued]
      exact forall_mem_cons.mpr ⟨(List.getElem?_eq_some_iff.mp hi).1, hl.old⟩
  | reserves token record ha hrecord htoken hprevious hissued hsettled =>
    have hnumber : ∀ i token', l'.issued[i]? = some token' →
        l.issued[i]? = some token' ∨ i = l.issued.length ∧ token' = token := by
      intro i token' hi
      rw [hissued, getElem?_append] at hi
      split at hi
      · exact .inl hi
      · next hle =>
        obtain ⟨hlt, heq⟩ := List.getElem?_eq_some_iff.mp hi
        simp only [length_singleton, getElem_singleton] at hlt heq
        exact .inr ⟨by omega, heq.symm⟩
    refine ⟨ha ▸ Counted.setRecord (a := { l.authority with tokenSequence := _ }) hl.counted record,
      hhandoffs, ?_, fun i token' hi => ?_, ?_, fun k r hr hreserved => ?_, hsettled ▸ hl.settled, ?_⟩
    · rw [ha, hissued, length_append, ← hl.sequence]
      rfl
    · obtain hi | ⟨rfl, rfl⟩ := hnumber i token' hi
      · exact hl.tokenId i token' hi
      · rw [htoken, hl.sequence]
    · rw [hissued]
      exact forall_mem_append.mpr ⟨hl.previous, forall_mem_singleton.mpr hprevious⟩
    · simp only [ha, Authority.setRecord, get?_set] at hr
      split at hr
      · next hk =>
        cases hr
        refine ⟨l.issued.length, token, by rw [hissued]; simp, hk.symm, hrecord, ?_⟩
        rw [hsettled]
        exact fun hmem => absurd (hl.old _ hmem) (lt_irrefl _)
      · obtain ⟨i, token', hi, hkey, hrecord', hi'⟩ := hl.reserved k r hr hreserved
        refine ⟨i, token', ?_, hkey, hrecord', hsettled ▸ hi'⟩
        rw [hissued, getElem?_append_left (List.getElem?_eq_some_iff.mp hi).1, hi]
    · rw [hsettled, hissued, length_append]
      exact fun i hi => Nat.lt_add_right _ (hl.old i hi)

end Step

/-! ### Runs -/

section Runs

variable (sampleMaxAgeMs : ℕ) (config : Config) (kinds : List JsString)

def Ledger.new : Ledger := ⟨.new config kinds, [], []⟩

theorem inv_new : Inv (.new config kinds) where
  counted := rfl
  handoffs := ⟨nofun, nofun⟩
  sequence := rfl
  tokenId _ _ h := by cases h
  previous _ h := by cases h
  reserved _ _ h _ := by cases h
  settled := nodup_nil
  old _ h := by cases h

variable {sampleMaxAgeMs config kinds}

theorem not_leased_of_run {l l' : Ledger} {calls : List Call} (hl : Inv l) {handoff : ℕ}
    {key : JsString} (hold : handoff < l.authority.handoffSequence)
    (hleased : ¬ l.authority.Leased handoff key)
    (hrun : run (step sampleMaxAgeMs) l calls = some l') : ¬ l'.authority.Leased handoff key := by
  have hinv : Inv l' ∧ handoff < l'.authority.handoffSequence ∧ ¬ l'.authority.Leased handoff key :=
    run_preserves (fun l => Inv l ∧ handoff < l.authority.handoffSequence ∧
      ¬ l.authority.Leased handoff key) (fun s call s' hs h => by
        have hhanded := (step_moves h hs.1.previous).1
        exact ⟨hs.1.step h, hs.2.1.trans_le hhanded.handoffSequence,
          fun hleased => hs.2.2 (hhanded.leased _ _ hs.2.1 hleased)⟩) ⟨hl, hold, hleased⟩ hrun
  exact hinv.2.2

/-- **The ledger is sound** in every run. The counters are the sums over the records. A token is settled
once, while its own reservation is the record of its key, and a rollback puts back what it replaced. One
handoff of a key is valid, while the key is committed, and none that there was when it was released. What is
reserved is covered. -/
theorem ledger_sound (sampleMaxAgeMs : ℕ) (config : Config) (kinds : List JsString) (calls : List Call) {l : Ledger}
    (hrun : run (step sampleMaxAgeMs) (.new config kinds) calls = some l) :
    l.authority.Counted ∧ l.settled.Nodup ∧
    (∀ i token, l.issued[i]? = some token → (∀ opts, (l.authority.commit (some token) opts).1 = true ∨
          (l.authority.rollback (some token)).1 = true →
        i ∉ l.settled ∧ ∃ record ∈ l.authority.records.get? token.key, Reserves token record) ∧
      ((l.authority.rollback (some token)).1 = true → ∀ k, (l.authority.rollback (some token)).2.records.get? k =
          if k = token.key then token.previous else l.authority.records.get? k)) ∧
    (∀ key handoff handoff', l.authority.validateOwnedHandoff handoff (some key) = true →
      l.authority.validateOwnedHandoff handoff' (some key) = true → handoff = handoff') ∧
    (∀ key handoff, l.authority.validateOwnedHandoff handoff (some key) = true → l.authority.CommittedWithBound key) ∧
    (∀ key handoff more l', handoff < l.authority.handoffSequence →
      run (step sampleMaxAgeMs) l (.release key :: more) = some l' →
        l'.authority.validateOwnedHandoff handoff (some key) = false) ∧
    ∀ key boundBytes opts readings token a',
      Authority.reserve sampleMaxAgeMs key boundBytes opts readings l.authority = (.ok token, a') →
        token.key = key ∧ token.previous = l.authority.records.get? key ∧
        (∃ record ∈ a'.records.get? key, Reserves token record) ∧
        Covered l.authority.config readings a'.records := by
  have hl : Inv l := run_preserves Inv (fun _ _ _ hs h => hs.step h) (inv_new config kinds) hrun
  refine ⟨hl.counted, hl.settled, fun i token hi => ⟨fun opts hdone => ?_, fun hdone => ?_⟩,
    fun key n n' h h' => ?_, fun key n h => (leased_of_validate h).2.2,
    fun key n more l' hold hmore => ?_, fun key boundBytes opts readings token a' h => ?_⟩
  · have howned : ∃ record, l.authority.records.get? token.key = some record ∧
        record.state = .reserved ∧ record.tokenId = some token.tokenId := by
      obtain hdone | hdone := hdone
      · exact (commit_settles hdone).owned
      · exact (rollback_settles hdone (hl.previous _ (mem_of_getElem? hi))).owned
    obtain ⟨record, hget, hreserved, hid⟩ := howned
    obtain ⟨hfresh, hrecord⟩ := hl.owned hi hget hreserved hid
    exact ⟨hfresh, record, hget, hrecord⟩
  · exact (rollback_get? hdone).2
  · exact some.inj ((leased_of_validate h).2.1.2.symm.trans (leased_of_validate h').2.1.2)
  · obtain ⟨l₁, hrelease, hmore⟩ := run_cons.mp hmore
    have hl₁ := hl.step hrelease
    have hhanded := (step_moves hrelease hl.previous).1
    cases hrelease
    by_contra hvalid
    obtain ⟨hkey, hleased, -⟩ := leased_of_validate (Bool.not_eq_false _ ▸ hvalid)
    exact not_leased_of_run hl₁ (hold.trans_le hhanded.handoffSequence)
      (not_leased_release hl.handoffs hkey n) hmore hleased
  · obtain ⟨record, rfl, hrecord, rfl, -, hprevious, -, hcovered⟩ := reserve_ok _ h
    exact ⟨rfl, hprevious, ⟨record, by simp [Authority.setRecord], hrecord⟩, hcovered⟩

end Runs

/-- A hundred bytes, with no profile. -/
def sampleConfig : Config := ⟨⟨some 100, none⟩, none⟩

/-- Nothing is used, and a disk is sampled twice. -/
def sampleReadings (disk : DiskInfo) : Readings :=
  let sample : FilesystemSample := ⟨disk, none, none, none, none, some 0⟩
  ⟨.ok sample, 0, fun _ _ => none, some 0, .ok sample⟩

def sampleDisk : Readings := sampleReadings ⟨some (2 ^ 40), some (2 ^ 40)⟩

def sampleReserve (bound : ℕ) : Call := .reserve [0x78] (some bound) {} sampleDisk

/-- A key is committed and handed over, and a growth of it is rolled back. -/
def sampleCalls : List Call :=
  [sampleReserve 10, .commit (some 0) {}, .issueOwnedHandoff [0x78], sampleReserve 20, .rollback (some 1)]

theorem ledger_sound_sample : ∃ l l' token a', run (step 60000) (.new sampleConfig []) sampleCalls = some l ∧
    l.settled = [1, 0] ∧ l.authority.Counted ∧ l.authority.CommittedWithBound [0x78] ∧
    run (step 60000) l [.release [0x78]] = some l' ∧
    l'.authority.validateOwnedHandoff 0 (some [0x78]) = false ∧
    Authority.reserve 60000 [0x79] (some 30) {} sampleDisk l.authority = (.ok token, a') ∧
    Covered l.authority.config sampleDisk a'.records := by
  have hruns : (run (step 60000) (.new sampleConfig []) sampleCalls).any (fun l => l.settled == [1, 0] &&
      l.authority.validateOwnedHandoff 0 (some [0x78]) && l.authority.handoffSequence == 1 &&
      (Authority.reserve 60000 [0x79] (some 30) {} sampleDisk l.authority).1.isOk) = true := by decide +kernel
  obtain ⟨l, hrun, htest⟩ := (any_eq_true _ _).mp hruns
  simp only [Bool.and_eq_true, beq_iff_eq] at htest
  obtain ⟨⟨⟨hsettled, hvalid⟩, hsequence⟩, hok⟩ := htest
  obtain ⟨hcounted, -, -, -, hcommitted, hreleased, hcovered⟩ := ledger_sound 60000 sampleConfig [] _ hrun
  have hrelease : run (step 60000) l [.release [0x78]] =
      some { l with authority := (l.authority.release [0x78]).2 } := rfl
  cases hreserve : Authority.reserve 60000 [0x79] (some 30) {} sampleDisk l.authority with
  | mk answer a' =>
    rw [hreserve] at hok
    cases answer with
    | error error => cases hok
    | ok token =>
      exact ⟨l, _, token, a', hrun, hsettled, hcounted, hcommitted _ _ hvalid, hrelease,
        hreleased [0x78] 0 [] _ (by omega) hrelease, hreserve, (hcovered _ _ _ _ _ _ hreserve).2.2.2⟩

/-- The handoff of a key is valid again when the key was reserved again and the reservation is committed.
And ten bytes are reserved on a disk with five, when its size is not known. -/
theorem handoff_returns : (run (step 60000) (.new sampleConfig []) [sampleReserve 10, .commit (some 0) {},
        .issueOwnedHandoff [0x78], sampleReserve 20, .commit (some 1) {}]).any
      (fun l => l.authority.validateOwnedHandoff 0 (some [0x78])) = true ∧
    (run (step 60000) (.new sampleConfig []) [.reserve [0x78] (some 10) {} (sampleReadings ⟨some 5, none⟩)]).any
      (fun l => l.authority.records.sumBy (fun _ => Record.debt) == 10) = true := by
  decide +kernel

end HiveRelay.Storage
