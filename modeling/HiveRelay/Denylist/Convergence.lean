import HiveRelay.Lib.Guard
import HiveRelay.Lib.OrderedMap
import HiveRelay.Outbox.Record
import Mathlib.Algebra.Order.Ring.Rat

/-!
# The gateway denylist

`GatewayDenylist` of `packages/core/core/gateway-denylist.js`. Takedowns are signed envelopes that relays
pass on to each other. A node has one envelope for each target, the one that was issued last of those it
has seen, and forgets what has expired, with the time of its issue. So it may take an envelope that a later
one had superseded: whether the old takedown returns then depends on when the node last pruned. In a run in
which that does not happen, what a node denies depends only on what it has seen: a drive is denied while
the envelope for it that was issued last has not expired.

## Main definitions

* `verifyDenylistEntry`, `add`, `entryFor`, `list` and `after`: the source's functions and a run of calls.
* `Latest`: the envelope of a target that was issued last, among what was seen.
* `Remembers`: no call of a run takes an envelope after it has forgotten a later one of its target.

## Main results

* `Ingests.isDenied_iff`: a drive is denied exactly while the last envelope for it has not expired.
* `denylists_converge`: nodes that have seen the same envelopes deny the same drives; `denylists_diverge`
  has two nodes, one of which has forgotten a later envelope.
* `denylist_backed`: what is stored was verified, of a trusted admin, and is not too much.

Times are numbers; the sum of a time and the tolerance is exact for whole milliseconds. The signature
scheme, the hash of drive keys and the text of a number are parameters.
-/

namespace HiveRelay.Denylist

open List OrderedMap Option
open JsString (ofText)
open Outbox (toLowerCase isHex fromHex)

/-! ### Envelopes -/

/-- The target of an envelope. A field that is no text is `none`. -/
structure Target where
  (kind keyHash : Option JsString)

structure Admin where
  (pubkey signature : Option JsString)

/-- An envelope as it arrives. A field of another type is `none`, and so is a number that is not finite. -/
structure Envelope where
  version : Option ℚ
  /-- `String(version)`. -/
  versionText : String
  target : Option Target
  reason : Option JsString
  (issuedAt expiresAt : Option ℚ)
  admin : Option Admin

/-- The fields of an envelope that is stored; its version is 1 and the kind of its target is `drive`. -/
structure Entry where
  (keyHash reason : JsString)
  (issuedAt expiresAt : ℚ)
  (pubkey signature : JsString)
  deriving DecidableEq

def denylistReasons : List JsString :=
  ["legal-order", "csam", "copyright", "malware", "harassment", "operator-discretion"].map ofText

def denylistKeyDomain : Bytes := Bytes.ofAscii "hiverelay-gateway-denylist-v1:"

def futureSkewToleranceMs : ℚ := 300000

/-- What is outside: the check of a signature over a text with a key, `String` of a number, and the hash of
a drive key as hexadecimal text. -/
structure Crypto where
  verify : Bytes → JsString → Bytes → Bool
  numberText : ℚ → JsString
  generichash : Bytes → JsString

variable (C : Crypto)

def hashDriveKeyForDenylist (keyHex : JsString) : Option JsString :=
  if isHex keyHex 64 then some (C.generichash (denylistKeyDomain ++ fromHex (toLowerCase keyHex))) else none

def canonicalSignablePayload (e : Entry) : JsString :=
  [ofText "1", ofText "drive", e.keyHash, e.reason, C.numberText e.issuedAt, C.numberText e.expiresAt,
    e.pubkey].intersperse (ofText "\n") |>.flatten

/-- `verifyDenylistEntry`, with the fields that are then stored; its `admin` is their `pubkey`. -/
def verifyDenylistEntry (entry : Option Envelope) (now : ℚ) : Except String Entry := do
  let entry ← demand entry "not an object"
  require (entry.version = some 1) ("unsupported denylist version: " ++ entry.versionText)
  let target ← demand entry.target "bad target kind"
  require (target.kind = some (ofText "drive")) "bad target kind"
  let keyHash ← demand (target.keyHash.filter (isHex · 64)) "bad target.keyHash"
  let reason ← demand (entry.reason.filter (· ∈ denylistReasons)) "reason is not a bounded code"
  let issuedAt ← demand entry.issuedAt "bad issuedAt/expiresAt"
  let expiresAt ← demand (entry.expiresAt.filter (issuedAt < ·)) "bad issuedAt/expiresAt"
  let admin ← demand entry.admin "no admin in envelope"
  let pubkey ← demand (admin.pubkey.filter (isHex · 64)) "bad admin.pubkey"
  let signature ← demand (admin.signature.filter (isHex · 128)) "bad admin.signature"
  require (issuedAt ≤ now + futureSkewToleranceMs) "issuedAt is in the future"
  require (now < expiresAt) "entry expired"
  let e : Entry :=
    ⟨toLowerCase keyHash, reason, issuedAt, expiresAt, toLowerCase pubkey, toLowerCase signature⟩
  require (C.verify (fromHex signature) (canonicalSignablePayload C e) (fromHex pubkey))
    "signature verification failed"
  return e

/-! ### Nodes -/

/-- What the constructor of a node pins. -/
structure Config where
  trustedAdmins : List JsString
  maxEntries : ℕ

/-- The envelopes of a node by the hash of their target. -/
abbrev Entries : Type := OrderedMap JsString Entry

def pruneExpired (entries : Entries) (now : ℚ) : Entries := entries.filter fun _ e => now < e.expiresAt

/-- What `add` returns. -/
inductive AddResult where
  | rejected (reason : String)
  | known (keyHash : JsString)
  | added (keyHash : JsString)

/-- `add`. It reads the clock once to verify and once to prune. -/
def add (cfg : Config) (entries : Entries) (entry : Option Envelope) (now pruneAt : ℚ) : AddResult × Entries :=
  match verifyDenylistEntry C entry now with
  | .error reason => (.rejected reason, entries)
  | .ok e =>
    if e.pubkey ∈ cfg.trustedAdmins then
      let existing := entries.get? e.keyHash
      if existing.any (e.issuedAt ≤ ·.issuedAt) then (.known e.keyHash, entries)
      else
        let entries := pruneExpired entries pruneAt
        if existing = none ∧ cfg.maxEntries ≤ entries.size then (.rejected "denylist full", entries)
        else (.added e.keyHash, entries.set e.keyHash e)
    else (.rejected "admin not on trusted allow-list", entries)

def entryFor (entries : Entries) (keyHex : JsString) (now : ℚ) : Option Entry :=
  (hashDriveKeyForDenylist C keyHex).bind fun keyHash =>
    (entries.get? keyHash).bind fun e => if e.expiresAt ≤ now then none else some e

def isDenied (entries : Entries) (keyHex : JsString) (now : ℚ) : Bool := (entryFor C entries keyHex now).isSome

def list (entries : Entries) (now : ℚ) : List Entry × Entries :=
  let entries := pruneExpired entries now
  ((Json.sortKeys entries.entries).map Prod.snd, entries)

inductive Op where
  | add (entry : Option Envelope) (now pruneAt : ℚ)
  | list (now : ℚ)
  | entryFor (keyHex : JsString) (now : ℚ)

/-- The times that a call reads, in order. -/
def Op.readings : Op → List ℚ
  | .add _ now pruneAt => [now, pruneAt]
  | .list now => [now]
  | .entryFor _ now => [now]

def step (cfg : Config) (entries : Entries) : Op → Entries
  | .add entry now pruneAt => (Denylist.add C cfg entries entry now pruneAt).2
  | .list now => (Denylist.list entries now).2
  | .entryFor _ _ => entries

/-- The entries after calls, from an empty list. -/
def after (cfg : Config) (ops : List Op) : Entries := ops.foldl (step C cfg) .empty

/-! ### What a node knows -/

section Knows

variable {C} {S : Finset Entry} {seen : Entry → Prop} {clock now pruneAt : ℚ} {entries : Entries} {cfg : Config}

/-- Envelopes of a target have different times of issue. -/
def IssuedApart (S : Finset Entry) : Prop :=
  ∀ e ∈ S, ∀ e' ∈ S, e.keyHash = e'.keyHash → e.issuedAt = e'.issuedAt → e = e'

/-- Of the envelopes of its target that were seen, the one that was issued last. -/
structure Latest (S : Finset Entry) (seen : Entry → Prop) (x : Entry) : Prop where
  mem : x ∈ S
  heard : seen x
  last : ∀ e ∈ S, seen e → e.keyHash = x.keyHash → e.issuedAt ≤ x.issuedAt

/-- What is stored is the latest of its target, and the latest of a target is stored or has expired. -/
structure Caught (S : Finset Entry) (seen : Entry → Prop) (clock : ℚ) (entries : Entries) : Prop where
  genuine : ∀ k x, entries.get? k = some x → Latest S seen x ∧ x.keyHash = k
  kept : ∀ x, Latest S seen x → entries.get? x.keyHash = some x ∨ x.expiresAt ≤ clock

/-- A call added this trusted envelope when it could be verified. -/
def Taken (C : Crypto) (cfg : Config) (ops : List Op) (e : Entry) : Prop :=
  e.pubkey ∈ cfg.trustedAdmins ∧
    ∃ entry now pruneAt, .add entry now pruneAt ∈ ops ∧ verifyDenylistEntry C entry now = .ok e

/-- Calls at non-decreasing times that add no other trusted envelope than those of the set. -/
structure Hears (C : Crypto) (cfg : Config) (S : Finset Entry) (ops : List Op) : Prop where
  targets : (S.image Entry.keyHash).card ≤ cfg.maxEntries
  ordered : (ops.flatMap Op.readings).Pairwise (· ≤ ·)
  only : ∀ e, Taken C cfg ops e → e ∈ S

/-- Such calls up to `t`, that add each envelope of the set at some time at which it can be verified. -/
structure Ingests (C : Crypto) (cfg : Config) (S : Finset Entry) (t : ℚ) (ops : List Op) : Prop
    extends Hears C cfg S ops where
  notAfter : ∀ r ∈ ops.flatMap Op.readings, r ≤ t
  all : ∀ e ∈ S, Taken C cfg ops e

/-- Wherever a trusted envelope is added for a target without an entry, no later one of that target was taken
before: what the node took and has forgotten was issued earlier. -/
def Remembers (C : Crypto) (cfg : Config) (ops : List Op) : Prop :=
  ∀ before entry now pruneAt, before ++ [.add entry now pruneAt] <+: ops →
    ∀ e, verifyDenylistEntry C entry now = .ok e → e.pubkey ∈ cfg.trustedAdmins →
      (after C cfg before).get? e.keyHash = none →
      ∀ e', Taken C cfg before e' → e'.keyHash = e.keyHash → e'.issuedAt ≤ e.issuedAt

theorem Latest.unique (hS : IssuedApart S) {x y : Entry} (hx : Latest S seen x) (hy : Latest S seen y)
    (hkey : x.keyHash = y.keyHash) : x = y :=
  hS x hx.mem y hy.mem hkey ((hy.last x hx.mem hx.heard hkey).antisymm (hx.last y hy.mem hy.heard hkey.symm))

theorem Caught.later (h : Caught S seen clock entries) (hclock : clock ≤ now) : Caught S seen now entries :=
  ⟨h.genuine, fun x hx => (h.kept x hx).imp_right hclock.trans'⟩

theorem Caught.congr {seen' : Entry → Prop} (h : Caught S seen clock entries)
    (hseen : ∀ e ∈ S, seen' e ↔ seen e) : Caught S seen' clock entries := by
  have hlatest : ∀ x, Latest S seen' x ↔ Latest S seen x := fun x =>
    ⟨fun ⟨hx, hs, hlast⟩ => ⟨hx, (hseen x hx).mp hs, fun e he hse => hlast e he ((hseen e he).mpr hse)⟩,
      fun ⟨hx, hs, hlast⟩ => ⟨hx, (hseen x hx).mpr hs, fun e he hse => hlast e he ((hseen e he).mp hse)⟩⟩
  exact ⟨fun k x hget => (h.genuine k x hget).imp_left (hlatest x).mpr, fun x hx => h.kept x ((hlatest x).mp hx)⟩

/-- **Pruning** forgets only what expired. -/
theorem Caught.prune (h : Caught S seen clock entries) (hclock : clock ≤ now) :
    Caught S seen now (pruneExpired entries now) := by
  refine ⟨forall_filter h.genuine, fun x hx => ?_⟩
  rcases h.kept x hx with hget | hexpired
  · by_cases hlive : now < x.expiresAt
    · left
      rw [pruneExpired, get?_filter, hget, filter_some, if_pos (by simpa using hlive)]
    · exact .inr (not_lt.mp hlive)
  · exact .inr (hexpired.trans hclock)

theorem Caught.size_lt (h : Caught S seen clock entries) (htargets : (S.image Entry.keyHash).card ≤ cfg.maxEntries)
    {e : Entry} (he : e ∈ S) (hnone : entries.get? e.keyHash = none) : entries.size < cfg.maxEntries := by
  refine lt_of_lt_of_le ?_ htargets
  rw [← card_keySet]
  refine Finset.card_lt_card ⟨fun k hk => ?_, fun hsub => ?_⟩
  · obtain ⟨x, hx⟩ := has_eq_true_iff.mp (mem_keySet.mp hk)
    exact Finset.mem_image.mpr ⟨x, (h.genuine k x hx).1.mem, (h.genuine k x hx).2⟩
  · have hmem := mem_keySet.mp (hsub (Finset.mem_image_of_mem _ he))
    rw [has_eq_false_iff.mpr hnone] at hmem
    cases hmem

/-- An envelope behind the latest of its target changes nothing. -/
theorem Caught.known (hS : IssuedApart S) (h : Caught S seen clock entries) {new x : Entry} (hnew : new ∈ S)
    (hget : entries.get? new.keyHash = some x) (hle : new.issuedAt ≤ x.issuedAt) :
    Caught S (fun e => seen e ∨ e = new) clock entries := by
  obtain ⟨hx, hkey⟩ := h.genuine _ _ hget
  have hlatest : ∀ y, Latest S seen y → Latest S (fun e => seen e ∨ e = new) y := by
    refine fun y hy => ⟨hy.mem, .inl hy.heard, fun e he hseen hsame => ?_⟩
    rcases hseen with hold | rfl
    · exact hy.last e he hold hsame
    · exact hle.trans (hy.last x hx.mem hx.heard (hkey.trans hsame))
  refine ⟨fun k y hy => (h.genuine k y hy).imp_left (hlatest y), fun y hy => ?_⟩
  by_cases hsame : y.keyHash = new.keyHash
  · left
    rw [hsame, hget, (hlatest x hx).unique hS hy (hkey.trans hsame.symm)]
  · refine h.kept y ⟨hy.mem, hy.heard.resolve_right (hsame <| congrArg _ ·), fun e he hseen => hy.last e he (.inl hseen)⟩

/-- An envelope behind which no later one was seen becomes the latest of its target. -/
theorem Caught.set (hS : IssuedApart S) (h : Caught S seen clock entries) {new : Entry} (hnew : new ∈ S)
    (hlast : ∀ e ∈ S, seen e → e.keyHash = new.keyHash → e.issuedAt ≤ new.issuedAt) :
    Caught S (fun e => seen e ∨ e = new) clock (entries.set new.keyHash new) := by
  have hnewLatest : Latest S (fun e => seen e ∨ e = new) new := by
    refine ⟨hnew, .inr rfl, fun e he hseen hsame => ?_⟩
    rcases hseen with hold | rfl
    · exact hlast e he hold hsame
    · exact le_rfl
  have hother : ∀ y, y.keyHash ≠ new.keyHash → (Latest S (fun e => seen e ∨ e = new) y ↔ Latest S seen y) := by
    intro y hne
    constructor
    · exact fun hy =>
        ⟨hy.mem, hy.heard.resolve_right (hne <| congrArg _ ·), fun e he hseen => hy.last e he (.inl hseen)⟩
    · refine fun hy => ⟨hy.mem, .inl hy.heard, fun e he hseen hsame => ?_⟩
      rcases hseen with hold | rfl
      · exact hy.last e he hold hsame
      · exact absurd hsame.symm hne
  constructor
  · intro k y hget
    by_cases hk : k = new.keyHash
    · subst hk
      cases get?_set_self.symm.trans hget
      exact ⟨hnewLatest, rfl⟩
    · rw [get?_set_of_ne hk] at hget
      obtain ⟨hy, rfl⟩ := h.genuine k y hget
      exact ⟨(hother y hk).mpr hy, rfl⟩
  · intro y hy
    by_cases hsame : y.keyHash = new.keyHash
    · left
      rw [hy.unique hS hnewLatest hsame, get?_set_self]
    · rw [get?_set_of_ne hsame]
      exact h.kept y ((hother y hsame).mp hy)

/-- **An envelope that is added** becomes the latest of its target, or the latest stays, unless a later one was
forgotten. -/
theorem Caught.add (hS : IssuedApart S) (h : Caught S seen clock entries) {entry : Option Envelope} {new : Entry}
    (htargets : (S.image Entry.keyHash).card ≤ cfg.maxEntries) (hverify : verifyDenylistEntry C entry now = .ok new)
    (hadmin : new.pubkey ∈ cfg.trustedAdmins) (hnew : new ∈ S) (hclock : clock ≤ pruneAt)
    (hremembers : entries.get? new.keyHash = none →
      ∀ e ∈ S, seen e → e.keyHash = new.keyHash → e.issuedAt ≤ new.issuedAt) :
    Caught S (fun e => seen e ∨ e = new) pruneAt (add C cfg entries entry now pruneAt).2 := by
  have hpruned := h.prune hclock
  rw [Denylist.add, hverify]
  dsimp only
  rw [if_pos hadmin]
  cases hget : entries.get? new.keyHash with
  | none =>
    have hroom := hpruned.size_lt htargets hnew (by rw [pruneExpired, get?_filter, hget, filter_none])
    rw [if_neg (by simp), if_neg fun hfull => hroom.not_ge hfull.2]
    exact hpruned.set hS hnew (hremembers hget)
  | some x =>
    obtain ⟨hx, hkey⟩ := h.genuine _ _ hget
    by_cases hle : new.issuedAt ≤ x.issuedAt
    · rw [if_pos (by simpa using hle)]
      exact (h.later hclock).known hS hnew hget hle
    · rw [if_neg (by simpa using hle), if_neg (by simp)]
      -- what is stored is the latest that was seen, and the new envelope was issued after it
      exact hpruned.set hS hnew fun e he hseen hsame =>
        (hx.last e he hseen (hsame.trans hkey.symm)).trans (not_le.mp hle).le

/-- What is rejected, or signed by an admin who is not trusted, changes nothing. -/
theorem add_rejected {entry : Option Envelope}
    (hreject : ∀ e, verifyDenylistEntry C entry now = .ok e → e.pubkey ∉ cfg.trustedAdmins) :
    (add C cfg entries entry now pruneAt).2 = entries := by
  rw [add]
  cases hverify : verifyDenylistEntry C entry now with
  | error reason => rfl
  | ok e => dsimp only; rw [if_neg (hreject e hverify)]

variable {ops : List Op} {op : Op} {t : ℚ} {e : Entry}

theorem Taken.mono {ops' : List Op} (h : Taken C cfg ops e) (hsub : ops ⊆ ops') : Taken C cfg ops' e :=
  let ⟨hadmin, entry, now, pruneAt, hmem, hverify⟩ := h
  ⟨hadmin, entry, now, pruneAt, hsub hmem, hverify⟩

theorem taken_concat : Taken C cfg (ops ++ [op]) e ↔ Taken C cfg ops e ∨ Taken C cfg [op] e := by
  simp only [Taken, mem_append, or_and_right, exists_or, and_or_left]

theorem taken_add {entry : Option Envelope} :
    Taken C cfg [.add entry now pruneAt] e ↔ e.pubkey ∈ cfg.trustedAdmins ∧ verifyDenylistEntry C entry now = .ok e := by
  simp [Taken]

theorem Hears.init (h : Hears C cfg S (ops ++ [op])) : Hears C cfg S ops where
  targets := h.targets
  ordered := (pairwise_append.mp (flatMap_append ▸ h.ordered)).1
  only e he := h.only e (he.mono (subset_append_left ops [op]))

theorem Remembers.init (h : Remembers C cfg (ops ++ [op])) : Remembers C cfg ops :=
  fun before entry now pruneAt hbefore => h before entry now pruneAt (hbefore.trans (prefix_append ops [op]))

/-- **A node knows** the latest of each target, of what its calls took, as long as it has not expired. -/
theorem Hears.caught (hS : IssuedApart S) (h : Hears C cfg S ops) (hremembers : Remembers C cfg ops)
    (hclock : ∀ r ∈ ops.flatMap Op.readings, r ≤ clock) : Caught S (Taken C cfg ops) clock (after C cfg ops) := by
  induction ops using reverseRecOn generalizing clock with
  | nil => exact ⟨by rintro k x ⟨⟩, by rintro x ⟨-, ⟨-, _, _, _, ⟨⟩, -⟩, -⟩⟩
  | append_singleton ops op ih =>
    have hordered := h.ordered
    rw [flatMap_append, pairwise_append, flatMap_singleton] at hordered
    rw [flatMap_append, flatMap_singleton] at hclock
    obtain ⟨-, hreadings, hbefore⟩ := hordered
    have hcaught : ∀ r ∈ op.readings, Caught S (Taken C cfg ops) r (after C cfg ops) :=
      fun r hr => ih h.init hremembers.init fun r' hr' => hbefore r' hr' r hr
    have hlast := fun r hr => hclock r (mem_append_right _ hr)
    have hafter : after C cfg (ops ++ [op]) = step C cfg (after C cfg ops) op := foldl_concat ..
    rw [hafter]
    cases op with
    | list now =>
      refine (((hcaught now mem_cons_self).prune le_rfl).later (hlast now mem_cons_self)).congr fun e _ => ?_
      simp [Taken]
    | entryFor keyHex now =>
      refine ((hcaught now mem_cons_self).later (hlast now mem_cons_self)).congr fun e _ => ?_
      simp [Taken]
    | add entry now pruneAt =>
      have hnow := (hcaught now mem_cons_self).later (pairwise_pair.mp hreadings)
      refine Caught.later ?_ (hlast pruneAt (mem_cons_of_mem _ mem_cons_self))
      by_cases hnew : ∃ e, verifyDenylistEntry C entry now = .ok e ∧ e.pubkey ∈ cfg.trustedAdmins
      · obtain ⟨new, hverify, hadmin⟩ := hnew
        have hin := h.only new (taken_concat.mpr (.inr ⟨hadmin, entry, now, pruneAt, mem_cons_self, hverify⟩))
        refine (hnow.add hS h.targets hverify hadmin hin le_rfl fun hnone e he htaken => ?_).congr fun e he => ?_
        · exact hremembers ops entry now pruneAt prefix_rfl new hverify hadmin hnone e htaken
        · rw [taken_concat, taken_add, hverify, Except.ok.injEq]
          exact or_congr_right ⟨fun hok => hok.2.symm, by rintro rfl; exact ⟨hadmin, rfl⟩⟩
      · have hreject := fun e hverify hadmin => hnew ⟨e, hverify, hadmin⟩
        rw [step, add_rejected hreject]
        refine hnow.congr fun e _ => ?_
        rw [taken_concat, taken_add, or_iff_left fun hok => hreject e hok.2 hok.1]

/-- **A drive is denied** while the envelope for it that was issued last has not expired. -/
theorem Ingests.isDenied_iff (hS : IssuedApart S) (h : Ingests C cfg S t ops) (hremembers : Remembers C cfg ops)
    (keyHex : JsString) : isDenied C (after C cfg ops) keyHex t = true ↔
      ∃ x, Latest S (· ∈ S) x ∧ hashDriveKeyForDenylist C keyHex = some x.keyHash ∧ t < x.expiresAt := by
  have hcaught := (h.caught hS hremembers h.notAfter).congr fun e he => iff_of_true he (h.all e he)
  simp only [isDenied, entryFor, isSome_iff_exists, bind_eq_some_iff, ite_none_left_eq_some, not_le]
  constructor
  · rintro ⟨_, keyHash, hkey, x, hget, hlive, -⟩
    obtain ⟨hx, rfl⟩ := hcaught.genuine _ _ hget
    exact ⟨x, hx, hkey, hlive⟩
  · rintro ⟨x, hx, hkey, hlive⟩
    exact ⟨x, _, hkey, x, (hcaught.kept x hx).resolve_right hlive.not_ge, hlive, rfl⟩

end Knows

/-- **Nodes that have seen the same envelopes deny the same drives**, each in its own order, with its own
repeats and queries, where neither takes an envelope after it has forgotten a later one of its target. And an
envelope that is rejected, or whose admin is not trusted, changes nothing. -/
theorem denylists_converge (C : Crypto) (S : Finset Entry) (hS : IssuedApart S) :
    (∀ cfg ops cfg' ops' t, Ingests C cfg S t ops → Remembers C cfg ops →
      Ingests C cfg' S t ops' → Remembers C cfg' ops' → ∀ keyHex,
        isDenied C (after C cfg ops) keyHex t = isDenied C (after C cfg' ops') keyHex t) ∧
    ∀ cfg entries entry now pruneAt, (∀ e, verifyDenylistEntry C entry now = .ok e → e.pubkey ∉ cfg.trustedAdmins) →
        (add C cfg entries entry now pruneAt).2 = entries := by
  refine ⟨fun cfg ops cfg' ops' t h hremembers h' hremembers' keyHex => ?_, fun _ _ _ _ _ => add_rejected⟩
  rw [Bool.eq_iff_iff, h.isDenied_iff hS hremembers, h'.isDenied_iff hS hremembers']

variable {C} {cfg : Config} {ops : List Op} {entries : Entries}

/-- What is stored is under its target, of a trusted admin and verified by a call, and is not too much. -/
structure Backed (C : Crypto) (cfg : Config) (ops : List Op) (entries : Entries) : Prop where
  size : entries.size ≤ cfg.maxEntries
  backed : ∀ k e, entries.get? k = some e → e.keyHash = k ∧ e.pubkey ∈ cfg.trustedAdmins ∧
    ∃ entry now pruneAt, .add entry now pruneAt ∈ ops ∧ verifyDenylistEntry C entry now = .ok e

theorem Backed.prune (h : Backed C cfg ops entries) (now : ℚ) : Backed C cfg ops (pruneExpired entries now) where
  size := (List.length_filter_le _ _).trans h.size
  backed := forall_filter h.backed

theorem Backed.mono (h : Backed C cfg ops entries) {ops' : List Op} (hsub : ops ⊆ ops') :
    Backed C cfg ops' entries where
  size := h.size
  backed k e hget :=
    let ⟨hkey, hadmin, entry, now, pruneAt, hmem, hverify⟩ := h.backed k e hget
    ⟨hkey, hadmin, entry, now, pruneAt, hsub hmem, hverify⟩

/-- **The denylist never holds what no call verified**, or what an admin signed who is not trusted, and never
more than its limit. -/
theorem denylist_backed (C : Crypto) (cfg : Config) (ops : List Op) : Backed C cfg ops (after C cfg ops) := by
  induction ops using reverseRecOn with
  | nil => exact ⟨Nat.zero_le _, nofun⟩
  | append_singleton ops op ih =>
    have h := ih.mono (subset_append_left ops [op])
    rw [after, foldl_append]
    change Backed C cfg _ (step C cfg (after C cfg ops) op)
    generalize after C cfg ops = entries at h
    cases op with
    | list now => exact h.prune now
    | entryFor keyHex now => exact h
    | add entry now pruneAt =>
      simp only [step, Denylist.add]
      cases hverify : verifyDenylistEntry C entry now with
      | error reason => exact h
      | ok e =>
        dsimp only
        split_ifs with hadmin hknown hfull
        · exact h
        · exact h.prune pruneAt
        · refine ⟨?_, forall_set (h.prune pruneAt).backed
            ⟨rfl, hadmin, entry, now, pruneAt, mem_append_right _ mem_cons_self, hverify⟩⟩
          cases hget : (pruneExpired entries pruneAt).get? e.keyHash with
          | some x => exact (size_set_of_get? hget).trans_le (h.prune pruneAt).size
          | none =>
            rw [size_set_of_get?_eq_none hget]
            by_cases hexisting : entries.get? e.keyHash = none
            · exact Nat.lt_of_not_le fun hle => hfull ⟨hexisting, hle⟩
            · -- the envelope that it replaces was pruned
              obtain ⟨x, hx⟩ := ne_none_iff_exists'.mp hexisting
              rw [pruneExpired, get?_filter, hx, filter_eq_none_iff] at hget
              exact (length_filter_lt_length_iff_exists.mpr ⟨_, mem_entries_iff.mpr hx, hget x rfl⟩).trans_le h.size
        · exact h

/-! ### Samples -/

/-- A scheme that takes every signature. -/
def sampleCrypto : Crypto := ⟨fun _ _ _ => true, fun _ => [], fun _ => replicate 64 0x30⟩

def sampleConfig : Config := ⟨[replicate 64 0x31], 1⟩

def sampleEnvelope (issuedAt expiresAt : ℚ) : Option Envelope :=
  some ⟨some 1, "1", some ⟨some (ofText "drive"), some (replicate 64 0x30)⟩, some (ofText "malware"),
    some issuedAt, some expiresAt, some ⟨some (replicate 64 0x31), some (replicate 128 0x32)⟩⟩

def sampleEntry (issuedAt expiresAt : ℚ) : Entry :=
  ⟨replicate 64 0x30, ofText "malware", issuedAt, expiresAt, replicate 64 0x31, replicate 128 0x32⟩

/-- Two envelopes, the later of which expires first: in the order of their issue, and the other way round, where
the node has not pruned the later one when the earlier one comes. -/
theorem denylists_converge_sample :
    isDenied sampleCrypto (after sampleCrypto sampleConfig
      [.add (sampleEnvelope 1 100) 10 10, .add (sampleEnvelope 2 50) 20 20]) (replicate 64 0x33) 80 =
    isDenied sampleCrypto (after sampleCrypto sampleConfig
      [.add (sampleEnvelope 2 50) 20 20, .add (sampleEnvelope 1 100) 55 55, .list 60]) (replicate 64 0x33) 80 := by
  have hverify : ∀ now ∈ [10, 55], verifyDenylistEntry sampleCrypto (sampleEnvelope 1 100) now =
      .ok (sampleEntry 1 100) := by decide +kernel
  have hfirst := hverify 10 (by simp)
  have hagain := hverify 55 (by simp)
  have hlater : verifyDenylistEntry sampleCrypto (sampleEnvelope 2 50) 20 = .ok (sampleEntry 2 50) := by decide +kernel
  have hboth : ∀ e : Entry, e.pubkey ∈ sampleConfig.trustedAdmins ∧ (sampleEntry 1 100 = e ∨ sampleEntry 2 50 = e) ↔
      e = sampleEntry 1 100 ∨ e = sampleEntry 2 50 := by
    refine fun e => ⟨fun h => h.2.imp Eq.symm Eq.symm, fun h => ⟨?_, h.imp Eq.symm Eq.symm⟩⟩
    rcases h with rfl | rfl <;> simp [sampleEntry, sampleConfig]
  have hinOrder : ∀ e, Taken sampleCrypto sampleConfig
      [.add (sampleEnvelope 1 100) 10 10, .add (sampleEnvelope 2 50) 20 20] e ↔
      e ∈ ({sampleEntry 1 100, sampleEntry 2 50} : Finset Entry) := fun e => by
    simpa [Taken, or_and_right, exists_or, hfirst, hlater] using hboth e
  have hreversed : ∀ e, Taken sampleCrypto sampleConfig
      [.add (sampleEnvelope 2 50) 20 20, .add (sampleEnvelope 1 100) 55 55, .list 60] e ↔
      e ∈ ({sampleEntry 1 100, sampleEntry 2 50} : Finset Entry) := fun e => by
    rw [Finset.pair_comm]
    simpa [Taken, or_and_right, exists_or, hagain, hlater, or_comm] using hboth e
  refine (denylists_converge sampleCrypto {sampleEntry 1 100, sampleEntry 2 50} (by unfold IssuedApart; decide +kernel)).1
    sampleConfig _ sampleConfig _ 80
    ⟨⟨by decide +kernel, by decide +kernel, fun e => (hinOrder e).mp⟩, by decide +kernel, fun e => (hinOrder e).mpr⟩ ?_
    ⟨⟨by decide +kernel, by decide +kernel, fun e => (hreversed e).mp⟩, by decide +kernel, fun e => (hreversed e).mpr⟩ ?_ _
  · rintro before entry now pruneAt hprefix e hok - - e' ⟨-, _, _, _, hmem, hok'⟩ -
    rcases before with _ | ⟨_, _ | ⟨_, before⟩⟩ <;> simp [prefix_cons_iff] at hprefix
    · cases hmem
    · obtain ⟨rfl, rfl, rfl, rfl⟩ := hprefix
      cases mem_singleton.mp hmem
      cases hfirst.symm.trans hok'
      cases hlater.symm.trans hok
      decide
  · rintro before entry now pruneAt hprefix e hok - hnone e' ⟨-, _, _, _, hmem, -⟩ -
    rcases before with _ | ⟨_, _ | ⟨_, _ | ⟨_, before⟩⟩⟩ <;> simp [prefix_cons_iff] at hprefix
    · cases hmem
    · obtain ⟨rfl, rfl, rfl, rfl⟩ := hprefix
      cases hagain.symm.trans hok
      -- the later envelope is still there
      exact absurd hnone (by decide +kernel)

/-- A node that has forgotten a later envelope, which has expired, takes an earlier one again; a node that had
them in the order of their issue does not deny the drive. -/
theorem denylists_diverge : isDenied sampleCrypto (after sampleCrypto sampleConfig
      [.add (sampleEnvelope 1 100) 10 10, .add (sampleEnvelope 2 50) 20 20]) (replicate 64 0x33) 80 = false ∧
    isDenied sampleCrypto (after sampleCrypto sampleConfig
      [.add (sampleEnvelope 2 50) 20 20, .list 60, .add (sampleEnvelope 1 100) 70 70])
      (replicate 64 0x33) 80 = true := by
  decide +kernel

end HiveRelay.Denylist
