import HiveRelay.Outbox.Record
import Mathlib.Algebra.Order.BigOperators.Group.List

/-!
# What a record signature covers

The fields that are named like those of a signature are left out of the text that is signed at any depth,
and not only at the top of a record. A signature covers all of a record exactly if there are no objects in
the fields that it covers; the body of a blind record is no exception to what is covered, because its form
is checked.

## Main definitions

* `SameSigned` — one signature, by one writer

## Main results

* `canonicalOutboxRecord_injective` — what the text determines
* `signature_covers_iff` — what a signature covers
-/

namespace HiveRelay.Outbox

open List
open JsString (ofText)

variable {type : JsString}

/-- **The text that is signed** determines the type, and the record without fields named like those of a
signature. -/
theorem canonicalOutboxRecord_injective {type' : JsString} {data data' : Json}
    (h : canonicalOutboxRecord type data = canonicalOutboxRecord type' data') :
    type = type' ∧ Json.prune isSigField data = Json.prune isSigField data' := by
  rw [canonicalOutboxRecord, canonicalOutboxRecord, stable_eq_text, stable_eq_text] at h
  exact Json.append_bar_inj h

structure Record where
  members : List (JsString × Json)
  distinct : Json.Distinct (.object members)

variable {m : JsString × Json}

namespace Record

def json (r : Record) : Json := .object r.members

theorem nodup (r : Record) : (r.members.map Prod.fst).Nodup := r.distinct.1

theorem distinct_of_mem (r : Record) (hm : m ∈ r.members) : Json.Distinct m.2 :=
  Json.distinctMembers_iff.mp r.distinct.2 m hm

end Record

/-- The members that are not fields of the signature. -/
def unsigned (members : List (JsString × Json)) : List (JsString × Json) :=
  members.filter fun m => !isSigField m.1

/-- Records that differ in the fields of their signatures at most. -/
def SameButSignature (r r' : Record) : Prop :=
  Json.Same (.object (unsigned r.members)) (.object (unsigned r'.members))

/-- The writer, the drive key, the namespace and the bytes of the signature are the same. -/
def SameSigned (r r' : Record) : Prop :=
  (signatureFields r.members).writer = (signatureFields r'.members).writer ∧
    (signatureFields r.members).driveKey = (signatureFields r'.members).driveKey ∧
      (signatureFields r.members).ns = (signatureFields r'.members).ns ∧
        fromHex (signatureFields r.members).sigHex = fromHex (signatureFields r'.members).sigHex

variable {r : Record}

section Scheme

variable (verifyDetached : VerifyDetached) (registry : NamespaceRegistry)

def Accepted (appId type : JsString) (r : Record) : Prop :=
  verifyOutboxRecordSignature verifyDetached registry appId type r.json = true

def Binds : Prop :=
  ∀ signature message message' publicKey, verifyDetached signature message publicKey = true →
    verifyDetached signature message' publicKey = true → message = message'

variable {verifyDetached registry}

structure Checked (verifyDetached : VerifyDetached) (registry : NamespaceRegistry) (appId type : JsString)
    (r : Record) : Prop where
  type_ne : type.isEmpty = false
  writer : isHex (signatureFields r.members).writer 64 = true ∧ isHex (toLowerCase appId) 64 = true ∧
    (signatureFields r.members).writer = toLowerCase appId
  hex : isHex (signatureFields r.members).driveKey 64 = true ∧ isHex (signatureFields r.members).sigHex 128 = true
  allowed : ∃ info, registry.get (signatureFields r.members).ns = some info ∧
    namespaceRecordAllowed info r.json = true
  verified : verifyDetached (fromHex (signatureFields r.members).sigHex)
    (JsString.utf8 (signedText (signatureFields r.members) type r.json))
    (fromHex (signatureFields r.members).writer) = true

theorem accepted_iff {appId : JsString} :
    Accepted verifyDetached registry appId type r ↔ Checked verifyDetached registry appId type r := by
  simp only [Accepted, verifyOutboxRecordSignature, Record.json, Bool.and_eq_true, decide_eq_true_eq,
    Bool.not_eq_true']
  constructor
  · rintro ⟨⟨⟨⟨htype, ⟨hwriter, houtbox⟩, heq⟩, hhex⟩, hallowed⟩, hverified⟩
    refine ⟨htype, ⟨hwriter, houtbox, heq⟩, hhex, ?_, hverified⟩
    split at hallowed
    · cases hallowed
    · next info hinfo => exact ⟨info, hinfo, hallowed⟩
  · rintro ⟨htype, ⟨hwriter, houtbox, heq⟩, hhex, ⟨info, hinfo, hallowed⟩, hverified⟩
    refine ⟨⟨⟨⟨htype, ⟨hwriter, houtbox⟩, heq⟩, hhex⟩, ?_⟩, hverified⟩
    rw [hinfo]
    exact hallowed

theorem signedText_eq (fields : SignatureFields) (type : JsString) (data : Json) :
    signedText fields type data = (ofText "pear.app." ++ fields.driveKey ++ ofText ":" ++ fields.ns ++
      ofText ":" ++ type) ++ 0x7c :: stable data := by
  rw [signedText, canonicalOutboxRecord, ← append_assoc]

/-- **Records with the same signature** are the same without fields named like those of a signature. -/
theorem prune_eq_of_accepted (hbinds : Binds verifyDetached) {appId appId' : JsString}
    {r' : Record} (h : Accepted verifyDetached registry appId type r)
    (h' : Accepted verifyDetached registry appId' type r') (hsame : SameSigned r r') :
    Json.prune isSigField r.json = Json.prune isSigField r'.json := by
  obtain ⟨hwriter, hdrive, hns, hsig⟩ := hsame
  have hverified := (accepted_iff.mp h).verified
  have hverified' := (accepted_iff.mp h').verified
  rw [← hwriter, ← hsig] at hverified'
  have hutf8 := hbinds _ _ _ _ hverified hverified'
  rw [signedText_eq, signedText_eq, ← hdrive, ← hns] at hutf8
  have hwell : ∀ v, JsString.WellFormed (0x7c :: stable v) := fun v => by
    rw [stable_eq_text]
    exact .unit rfl (Json.wellFormed_text _)
  have hstable := JsString.utf8_append_inj rfl (hwell _) (hwell _) hutf8
  rw [stable_eq_text, stable_eq_text] at hstable
  exact Json.text_injective hstable

end Scheme

/-! ### Values of which nothing is left out -/

def Kept (v : Json) : Prop := Json.prune isSigField v = Json.prune (fun _ => false) v

variable {v : Json}

theorem kept_of_hasObject (h : Json.hasObject v = false) : Kept v := by
  rw [Kept, Json.prune_of_hasObject h, Json.prune_of_hasObject h]

theorem filter_none (members : List (JsString × Json)) : (members.filter fun _ => !false) = members :=
  filter_eq_self.mpr fun _ _ => rfl

theorem kept_object {members : List (JsString × Json)}
    (h : ∀ m ∈ members, isSigField m.1 = false ∧ Kept m.2) : Kept (.object members) := by
  have hfilter : (members.filter fun m => !isSigField m.1) = members :=
    filter_eq_self.mpr fun m hm => by rw [(h m hm).1]; rfl
  rw [Kept, Json.prune, Json.prune, Json.pruneMembers_eq_map, Json.pruneMembers_eq_map, hfilter, filter_none]
  refine congrArg (fun members => Json.object (Json.sortKeys members)) (map_congr_left fun m hm => ?_)
  exact Prod.ext rfl (h m hm).2

mutual

/-- No field in a value is named like one of a signature. -/
def noSigField : Json → Bool
  | .array items => noSigFieldItems items
  | .object members => noSigFieldMembers members
  | _ => true

def noSigFieldItems : List Json → Bool
  | [] => true
  | item :: items => noSigField item && noSigFieldItems items

def noSigFieldMembers : List (JsString × Json) → Bool
  | [] => true
  | (key, value) :: members => !isSigField key && noSigField value && noSigFieldMembers members

end

theorem noSigFieldItems_iff {items : List Json} :
    noSigFieldItems items = true ↔ ∀ v ∈ items, noSigField v = true := by
  induction items with
  | nil => simp [noSigFieldItems]
  | cons item items ih => simp [noSigFieldItems, ih]

theorem noSigFieldMembers_iff {members : List (JsString × Json)} : noSigFieldMembers members = true ↔
    ∀ m ∈ members, isSigField m.1 = false ∧ noSigField m.2 = true := by
  induction members with
  | nil => simp [noSigFieldMembers]
  | cons m members ih =>
    simp [noSigFieldMembers, ih]

theorem kept_of_noSigField (h : noSigField v = true) : Kept v := by
  induction v with
  | array items ih =>
    rw [Kept, Json.prune, Json.prune, Json.pruneItems_eq_map, Json.pruneItems_eq_map]
    exact congrArg Json.array (map_congr_left fun v hv => ih v hv (noSigFieldItems_iff.mp h v hv))
  | object members ih =>
    have hmembers := noSigFieldMembers_iff.mp h
    exact kept_object fun m hm => ⟨(hmembers m hm).1, ih m hm (hmembers m hm).2⟩
  | _ => rfl

/-- Records of which nothing is left out but the signature are the same if what is left of them is. -/
theorem sameButSignature_of_kept {r' : Record} (h : Json.prune isSigField r.json = Json.prune isSigField r'.json)
    (hr : ∀ m ∈ unsigned r.members, Kept m.2) (hr' : ∀ m ∈ unsigned r'.members, Kept m.2) :
    SameButSignature r r' := by
  have hprune : ∀ r : Record, (∀ m ∈ unsigned r.members, Kept m.2) →
      Json.prune (fun _ => false) (.object (unsigned r.members)) = Json.prune isSigField r.json := by
    intro r hr
    rw [Record.json, Json.prune, Json.prune, Json.pruneMembers_eq_map, Json.pruneMembers_eq_map, filter_none]
    refine congrArg (fun members => Json.object (Json.sortKeys members)) (map_congr_left fun m hm => ?_)
    exact Prod.ext rfl (hr m hm).symm
  rw [SameButSignature, Json.Same, hprune r hr, hprune r' hr', h]

theorem exists_of_prune_eq {r' : Record} (h : Json.prune isSigField r.json = Json.prune isSigField r'.json)
    (hm : m ∈ unsigned r.members) : ∃ m' ∈ unsigned r'.members, m'.1 = m.1 ∧
      Json.prune isSigField m'.2 = Json.prune isSigField m.2 := by
  have hsorted : Json.sortKeys (Json.pruneMembers isSigField r.members) =
      Json.sortKeys (Json.pruneMembers isSigField r'.members) := Json.object.inj h
  have hmem : (m.1, Json.prune isSigField m.2) ∈ Json.pruneMembers isSigField r.members := by
    rw [Json.pruneMembers_eq_map]
    exact mem_map_of_mem (f := Prod.map id (Json.prune isSigField)) hm
  rw [← (Json.perm_sortKeys _).mem_iff, hsorted, (Json.perm_sortKeys _).mem_iff, Json.pruneMembers_eq_map] at hmem
  obtain ⟨m', hm', heq⟩ := mem_map.mp hmem
  obtain ⟨hkey, hvalue⟩ := Prod.mk.inj heq
  exact ⟨m', hm', hkey, hvalue⟩

/-! ### The body of a blind record -/

theorem hasObject_of_isShortString {maxLength : ℕ} (h : isShortString maxLength (some v) = true) :
    Json.hasObject v = false := by
  cases v with
  | string s => rfl
  | _ => cases h

theorem hasObject_of_isBlindSeal {sealed : List (JsString × Json)}
    (hnodup : (sealed.map Prod.fst).Nodup) (h : isBlindSeal (some (.object sealed)) = true)
    (hm : m ∈ sealed) : isSigField m.1 = false ∧ Json.hasObject m.2 = false := by
  simp only [isBlindSeal, Bool.and_eq_true] at h
  obtain ⟨⟨⟨⟨⟨⟨hkeys, hversion⟩, halg⟩, -⟩, hnonce⟩, hciphertext⟩, hkeyId⟩ := h
  have hkey := all_eq_true.mp hkeys m hm
  have hfound : getMember sealed m.1 = some m.2 := Json.lookup_of_mem hnodup hm
  rw [contains_iff_mem] at hkey
  refine ⟨(show ∀ key ∈ [ofText "version", ofText "alg", ofText "nonce", ofText "ciphertext",
    ofText "keyId"], isSigField key = false by decide +kernel) _ hkey, ?_⟩
  simp only [mem_cons, not_mem_nil, or_false] at hkey
  rcases hkey with hkey | hkey | hkey | hkey | hkey <;> rw [hkey] at hfound
  · rw [hfound] at hversion
    cases hvalue : m.2 with
    | number n => rfl
    | _ => rw [hvalue] at hversion; cases hversion
  · rw [hfound] at halg
    exact hasObject_of_isShortString halg
  · rw [hfound] at hnonce
    exact hasObject_of_isShortString hnonce
  · rw [hfound] at hciphertext
    cases hvalue : m.2 with
    | string s => rfl
    | _ => rw [hvalue] at hciphertext; cases hciphertext
  · rw [hfound] at hkeyId
    cases hvalue : m.2 with
    | null | string s => rfl
    | _ => rw [hvalue] at hkeyId; cases hkeyId

theorem kept_of_isOutboxBlindSealedBody (hdistinct : Json.Distinct v)
    (h : isOutboxBlindSealedBody (some v) = true) : Kept v := by
  cases v with
  | object body =>
    simp only [isOutboxBlindSealedBody, Bool.and_eq_true] at h
    obtain ⟨hkeys, hseal⟩ := h
    refine kept_object fun m hm => ?_
    have hkey := all_eq_true.mp hkeys m hm
    rw [contains_iff_mem, mem_singleton] at hkey
    have hfound : getMember body m.1 = some m.2 := Json.lookup_of_mem hdistinct.1 hm
    rw [hkey] at hfound
    rw [hfound] at hseal
    refine ⟨by rw [hkey]; decide +kernel, ?_⟩
    have hvalue := Json.distinctMembers_iff.mp hdistinct.2 m hm
    cases hm2 : m.2 with
    | object sealed =>
      rw [hm2] at hseal hvalue
      refine kept_object fun n hn => ?_
      obtain ⟨hsig, hflat⟩ := hasObject_of_isBlindSeal hvalue.1 hseal hn
      exact ⟨hsig, kept_of_hasObject hflat⟩
    | _ => rw [hm2] at hseal; cases hseal
  | _ => cases h

/-- The members in which an object matters: not the body of a blind record, whose form is checked. -/
def covered (info : NamespaceInfo) (members : List (JsString × Json)) : List (JsString × Json) :=
  (unsigned members).filter fun m => !(info.blind && m.1 == ofText "body")

variable {info : NamespaceInfo}

theorem kept_of_not_covered (hallowed : namespaceRecordAllowed info r.json = true)
    (hm : m ∈ unsigned r.members) (hcovered : m ∉ covered info r.members) : Kept m.2 := by
  have hbody : (info.blind && m.1 == ofText "body") = true := by
    by_contra hbody
    exact hcovered (mem_filter.mpr ⟨hm, by rw [Bool.eq_false_iff.mpr hbody]; rfl⟩)
  obtain ⟨hblind, hkey⟩ := Bool.and_eq_true_iff.mp hbody
  have hmem := mem_of_mem_filter hm
  have hfound : getMember r.members m.1 = some m.2 := Json.lookup_of_mem r.nodup hmem
  rw [namespaceRecordAllowed, hblind, Bool.not_true, Bool.false_or, Bool.and_eq_true_iff] at hallowed
  have hrecord : isOutboxBlindSealedBody (getMember r.members (ofText "body")) = true := hallowed.1
  rw [← eq_of_beq hkey, hfound] at hrecord
  exact kept_of_isOutboxBlindSealedBody (r.distinct_of_mem hmem) hrecord

/-! ### Another record with the same signature -/

def algKey : JsString := ofText "_alg"

mutual

/-- A value with another field, named like one of a signature, in each of its outermost objects. -/
def toggle : Json → Json
  | .array items => .array (toggleItems items)
  | .object members =>
    .object (if algKey ∈ members.map Prod.fst
      then members.map fun m => if m.1 = algKey then (m.1, .array [m.2]) else m
      else (algKey, .null) :: members)
  | .null => .null
  | .bool b => .bool b
  | .number n => .number n
  | .string s => .string s

def toggleItems : List Json → List Json
  | [] => []
  | item :: items => toggle item :: toggleItems items

end

theorem toggleItems_eq_map (items : List Json) : toggleItems items = items.map toggle := by
  induction items with
  | nil => rfl
  | cons item items ih => rw [toggleItems, ih, map_cons]

theorem prune_toggle (v : Json) : Json.prune isSigField (toggle v) = Json.prune isSigField v := by
  induction v with
  | array items ih =>
    rw [toggle, Json.prune, Json.prune, toggleItems_eq_map, Json.pruneItems_eq_map, Json.pruneItems_eq_map,
      map_map]
    exact congrArg Json.array (map_congr_left ih)
  | object members =>
    have hsig : isSigField algKey = true := by decide +kernel
    refine congrArg (fun members => Json.object (Json.sortKeys members)) ?_
    split
    · clear * - hsig
      induction members with
      | nil => rfl
      | cons m members ih =>
        obtain ⟨key, value⟩ := m
        rw [map_cons]
        by_cases hkey : key = algKey
        · rw [if_pos hkey, Json.pruneMembers, Json.pruneMembers, hkey, hsig, ih]
          rfl
        · rw [if_neg hkey, Json.pruneMembers, Json.pruneMembers, ih]
    · rw [Json.pruneMembers, hsig]
      rfl
  | _ => rfl

theorem nodes_toggle (v : Json) : Json.nodes v ≤ Json.nodes (toggle v) ∧
    (Json.hasObject v = true → Json.nodes v < Json.nodes (toggle v)) := by
  induction v with
  | array items ih =>
    rw [toggle, Json.nodes, Json.nodes, Json.hasObject, Json.anyObject_eq_any, toggleItems_eq_map,
      Json.nodesOfItems_eq_sum, Json.nodesOfItems_eq_sum, map_map]
    constructor
    · exact Nat.add_le_add_left (sum_le_sum fun v hv => (ih v hv).1) 1
    · intro h
      obtain ⟨v, hv, hobject⟩ := any_eq_true.mp h
      exact Nat.add_lt_add_left (sum_lt_sum _ _ (fun v hv => (ih v hv).1) ⟨v, hv, (ih v hv).2 hobject⟩) 1
  | object members =>
    have hlt : Json.nodes (.object members) < Json.nodes (toggle (.object members)) := by
      rw [toggle, Json.nodes, Json.nodes]
      split
      · next h =>
        rw [Json.nodesOfMembers_eq_sum, Json.nodesOfMembers_eq_sum, map_map]
        obtain ⟨m, hm, hkey⟩ := mem_map.mp h
        refine Nat.add_lt_add_left (sum_lt_sum _ _ (fun n _ => ?_) ⟨m, hm, ?_⟩) 1
        · simp only [Function.comp]
          split
          · simp only [Json.nodes, Json.nodesOfItems]
            omega
          · exact le_rfl
        · simp only [Function.comp, if_pos hkey, Json.nodes, Json.nodesOfItems]
          omega
      · show 1 + _ < 1 + (1 + _)
        omega
    exact ⟨hlt.le, fun _ => hlt⟩
  | _ => exact ⟨le_rfl, by rintro ⟨⟩⟩

theorem distinct_toggle (h : Json.Distinct v) : Json.Distinct (toggle v) := by
  induction v with
  | array items ih =>
    rw [toggle, toggleItems_eq_map]
    refine Json.distinctItems_iff.mpr fun w hw => ?_
    obtain ⟨v, hv, rfl⟩ := mem_map.mp hw
    exact ih v hv (Json.distinctItems_iff.mp h v hv)
  | object members =>
    have hmembers := Json.distinctMembers_iff.mp h.2
    rw [toggle]
    split
    · refine ⟨?_, Json.distinctMembers_iff.mpr fun m hm => ?_⟩
      · rw [map_map]
        have hkeys : members.map (Prod.fst ∘ fun m => if m.1 = algKey then (m.1, Json.array [m.2]) else m) =
            members.map Prod.fst := by
          refine map_congr_left fun m _ => ?_
          simp only [Function.comp]
          split <;> rfl
        rw [hkeys]
        exact h.1
      · obtain ⟨n, hn, rfl⟩ := mem_map.mp hm
        split
        · exact ⟨hmembers n hn, trivial⟩
        · exact hmembers n hn
    · next hkey => exact ⟨nodup_cons.mpr ⟨hkey, h.1⟩, trivial, h.2⟩
  | _ => trivial

theorem anyForbiddenItem_eq_any (items : List Json) : anyForbiddenItem items = items.any hasBlindForbiddenField := by
  induction items with
  | nil => rfl
  | cons item items ih => rw [anyForbiddenItem, ih, any_cons]

theorem anyForbiddenMember_eq_any (members : List (JsString × Json)) : anyForbiddenMember members =
    members.any fun m => BLIND_FORBIDDEN_FIELDS.contains m.1 || hasBlindForbiddenField m.2 := by
  induction members with
  | nil => rfl
  | cons m members ih =>
    rw [anyForbiddenMember, ih, any_cons]

theorem hasBlindForbiddenField_toggle (v : Json) : hasBlindForbiddenField (toggle v) = hasBlindForbiddenField v := by
  induction v with
  | array items ih =>
    rw [toggle, hasBlindForbiddenField, hasBlindForbiddenField, anyForbiddenItem_eq_any,
      anyForbiddenItem_eq_any, toggleItems_eq_map, any_map]
    refine Bool.eq_iff_iff.mpr ?_
    rw [any_eq_true, any_eq_true]
    exact exists_congr fun v => and_congr_right fun hv => by rw [Function.comp, ih v hv]
  | object members =>
    rw [toggle, hasBlindForbiddenField, hasBlindForbiddenField, anyForbiddenMember_eq_any, anyForbiddenMember_eq_any]
    split
    · rw [any_map]
      refine congrArg (any members) (funext fun m => ?_)
      simp only [Function.comp]
      split
      · simp only [hasBlindForbiddenField, anyForbiddenItem, Bool.or_false]
      · rfl
    · have hallowed : BLIND_FORBIDDEN_FIELDS.contains algKey = false := by decide +kernel
      rw [any_cons, hallowed]
      rfl
  | _ => rfl

/-- The record in which a member has other objects. -/
def changeMember (key : JsString) (members : List (JsString × Json)) : List (JsString × Json) :=
  members.map fun m => if m.1 = key then (m.1, toggle m.2) else m

theorem lookup_changeMember {key other : JsString} (hne : other ≠ key) (members : List (JsString × Json)) :
    (changeMember key members).lookup other = members.lookup other := by
  induction members with
  | nil => rfl
  | cons m members ih =>
    obtain ⟨k, v⟩ := m
    rw [changeMember, map_cons]
    by_cases hkey : k = key
    · subst hkey
      rw [if_pos rfl, lookup_cons, lookup_cons, beq_false_of_ne hne]
      exact ih
    · rw [if_neg hkey, lookup_cons, lookup_cons]
      cases other == k with
      | true => rfl
      | false => exact ih

theorem map_fst_changeMember (key : JsString) (members : List (JsString × Json)) :
    (changeMember key members).map Prod.fst = members.map Prod.fst := by
  rw [changeMember, map_map]
  refine map_congr_left fun m _ => ?_
  simp only [Function.comp]
  split <;> rfl

namespace Record

/-- The record in which a member has other objects. -/
def change (r : Record) (key : JsString) : Record where
  members := changeMember key r.members
  distinct := by
    refine ⟨?_, Json.distinctMembers_iff.mpr fun m hm => ?_⟩
    · rw [map_fst_changeMember]
      exact r.nodup
    · obtain ⟨n, hn, rfl⟩ := mem_map.mp hm
      split
      · exact distinct_toggle (r.distinct_of_mem hn)
      · exact r.distinct_of_mem hn

end Record

theorem signatureFields_change (r : Record) {key : JsString} (hkey : isSigField key = false) :
    signatureFields (r.change key).members = signatureFields r.members := by
  have hget : ∀ field, isSigField field = true →
      getString (r.change key).members field = getString r.members field := by
    intro field hfield
    have hne : field ≠ key := by
      rintro rfl
      rw [hkey] at hfield
      cases hfield
    rw [getString, getString, getMember, getMember, Record.change, lookup_changeMember hne]
  rw [signatureFields, signatureFields, hget _ (by decide +kernel), hget _ (by decide +kernel),
    hget _ (by decide +kernel), hget _ (by decide +kernel)]

theorem prune_change (r : Record) (key : JsString) :
    Json.prune isSigField (r.change key).json = Json.prune isSigField r.json := by
  have hmembers : ∀ members : List (JsString × Json),
      Json.pruneMembers isSigField (changeMember key members) = Json.pruneMembers isSigField members := by
    intro members
    induction members with
    | nil => rfl
    | cons m members ih =>
      obtain ⟨k, v⟩ := m
      rw [changeMember, map_cons, Json.pruneMembers]
      by_cases hkey : k = key
      · rw [if_pos hkey, Json.pruneMembers, prune_toggle]
        exact congrArg (fun rest => if isSigField k = true then rest else _ :: rest) ih
      · rw [if_neg hkey, Json.pruneMembers]
        exact congrArg (fun rest => if isSigField k = true then rest else _ :: rest) ih
  rw [Record.json, Record.json, Json.prune, Json.prune, Record.change, hmembers]

theorem not_same_change (hm : m ∈ unsigned r.members)
    (hobject : Json.hasObject m.2 = true) : ¬ SameButSignature r (r.change m.1) := by
  intro h
  have hnodes := Json.nodes_eq_of_same h
  rw [Json.nodes, Json.nodes, Json.nodesOfMembers_eq_sum, Json.nodesOfMembers_eq_sum] at hnodes
  have hunsigned : unsigned (r.change m.1).members = changeMember m.1 (unsigned r.members) := by
    show (changeMember m.1 r.members).filter _ = _
    rw [unsigned, changeMember, changeMember, filter_map]
    refine congrArg (map _) (filter_congr fun n _ => ?_)
    simp only [Function.comp]
    split <;> rfl
  rw [hunsigned, changeMember, map_map] at hnodes
  have hlt : ((unsigned r.members).map fun n => Json.nodes n.2).sum <
      ((unsigned r.members).map ((fun n => Json.nodes n.2) ∘ fun n =>
        if n.1 = m.1 then (n.1, toggle n.2) else n)).sum := by
    refine sum_lt_sum _ _ (fun n _ => ?_) ⟨m, hm, ?_⟩
    · simp only [Function.comp]
      split
      · exact (nodes_toggle n.2).1
      · exact le_rfl
    · simp only [Function.comp, if_pos]
      exact (nodes_toggle m.2).2 hobject
  omega

/-! ### What a signature covers -/

section Covers

variable {verifyDetached : VerifyDetached} {registry : NamespaceRegistry}

theorem accepted_change {appId : JsString} (h : Accepted verifyDetached registry appId type r)
    (hinfo : registry.get (signatureFields r.members).ns = some info)
    (hm : m ∈ covered info r.members) :
    Accepted verifyDetached registry appId type (r.change m.1) ∧ SameSigned r (r.change m.1) := by
  obtain ⟨hunsigned, hbody⟩ := mem_filter.mp hm
  have hsig : isSigField m.1 = false := by
    have := (mem_filter.mp hunsigned).2
    simpa using this
  have hfields := signatureFields_change r hsig
  have hchecked := accepted_iff.mp h
  obtain ⟨info', hinfo', hallowed⟩ := hchecked.allowed
  obtain rfl : info = info' := Option.some.inj (hinfo.symm.trans hinfo')
  refine ⟨accepted_iff.mpr ⟨hchecked.type_ne, ?_, ?_, ⟨info, ?_, ?_⟩, ?_⟩, ?_⟩
  · rw [hfields]
    exact hchecked.writer
  · rw [hfields]
    exact hchecked.hex
  · rw [hfields]
    exact hinfo
  · cases hblind : info.blind with
    | false => rw [namespaceRecordAllowed, hblind]; rfl
    | true =>
      have hne : ofText "body" ≠ m.1 := by
        intro heq
        rw [hblind, ← heq, beq_self_eq_true] at hbody
        cases hbody
      have hforbidden : hasBlindForbiddenField (r.change m.1).json = hasBlindForbiddenField r.json := by
        show anyForbiddenMember (changeMember m.1 r.members) = anyForbiddenMember r.members
        rw [anyForbiddenMember_eq_any, anyForbiddenMember_eq_any, changeMember, any_map]
        refine congrArg (any r.members) (funext fun n => ?_)
        simp only [Function.comp]
        split
        · rw [hasBlindForbiddenField_toggle]
        · rfl
      have hrecord : isOutboxBlindRecord (r.change m.1).json = isOutboxBlindRecord r.json := by
        show isOutboxBlindSealedBody (lookup _ (changeMember _ _)) = _
        rw [lookup_changeMember hne]
        rfl
      rw [namespaceRecordAllowed, hforbidden, hrecord]
      exact hallowed
  · have hstable : stable (r.change m.1).json = stable r.json := by
      rw [stable_eq_text, stable_eq_text, prune_change]
    rw [hfields, signedText_eq, hstable, ← signedText_eq]
    exact hchecked.verified
  · rw [SameSigned, hfields]
    exact ⟨rfl, rfl, rfl, rfl⟩

/-- Objects in other members are left as they are: a record that is verified with the same signature has
none of them either. -/
theorem sameButSignature_of_flat {r' : Record} (h : Json.prune isSigField r.json = Json.prune isSigField r'.json)
    (hallowed : namespaceRecordAllowed info r.json = true)
    (hallowed' : namespaceRecordAllowed info r'.json = true)
    (hflat : ∀ m ∈ covered info r.members, Json.hasObject m.2 = false) : SameButSignature r r' := by
  refine sameButSignature_of_kept h (fun m hm => ?_) fun m' hm' => ?_
  · by_cases hcovered : m ∈ covered info r.members
    · exact kept_of_hasObject (hflat m hcovered)
    · exact kept_of_not_covered hallowed hm hcovered
  · by_cases hcovered : m' ∈ covered info r'.members
    · obtain ⟨m, hm, hkey, hprune⟩ := exists_of_prune_eq h.symm hm'
      have hmcovered : m ∈ covered info r.members := by
        refine mem_filter.mpr ⟨hm, ?_⟩
        rw [hkey]
        exact (mem_filter.mp hcovered).2
      have hm'flat := hflat m hmcovered
      rw [← Json.hasObject_prune isSigField, hprune, Json.hasObject_prune] at hm'flat
      exact kept_of_hasObject hm'flat
    · exact kept_of_not_covered hallowed' hm' hcovered

/-- **What a signature covers.** Different types are never signed as the same text. Two records with the
same signature are the same but for the fields of the signature, if no other field in them is named like
one. A record is the only one with its signature exactly if it has no objects in the members that are
covered. -/
theorem signature_covers_iff (hbinds : Binds verifyDetached) : (∀ (type type' : JsString) (data data' : Json),
      canonicalOutboxRecord type data = canonicalOutboxRecord type' data' → type = type') ∧
    (∀ (appId appId' type : JsString) (r r' : Record), Accepted verifyDetached registry appId type r →
      Accepted verifyDetached registry appId' type r' → SameSigned r r' →
        (∀ m ∈ unsigned r.members, noSigField m.2 = true) →
          (∀ m ∈ unsigned r'.members, noSigField m.2 = true) → SameButSignature r r') ∧
    ∀ (appId type : JsString) (r : Record) (info : NamespaceInfo), Accepted verifyDetached registry appId type r →
        registry.get (signatureFields r.members).ns = some info →
          ((∀ (appId' : JsString) (r' : Record), Accepted verifyDetached registry appId' type r' →
            SameSigned r r' → SameButSignature r r') ↔ ∀ m ∈ covered info r.members, Json.hasObject m.2 = false) := by
  refine ⟨fun type type' data data' h => (canonicalOutboxRecord_injective h).1,
    fun appId appId' type r r' h h' hsame hr hr' => ?_, fun appId type r info h hinfo => ⟨?_, ?_⟩⟩
  · exact sameButSignature_of_kept (prune_eq_of_accepted hbinds h h' hsame)
      (fun m hm => kept_of_noSigField (hr m hm)) fun m hm => kept_of_noSigField (hr' m hm)
  · intro hcovers m hm
    by_contra hobject
    rw [Bool.not_eq_false] at hobject
    obtain ⟨hchanged, hsame⟩ := accepted_change h hinfo hm
    exact not_same_change (mem_of_mem_filter hm) hobject (hcovers appId _ hchanged hsame)
  · intro hflat appId' r' h' hsame
    obtain ⟨info₁, hinfo₁, hallowed⟩ := (accepted_iff.mp h).allowed
    obtain ⟨info₂, hinfo₂, hallowed'⟩ := (accepted_iff.mp h').allowed
    obtain rfl : info = info₁ := Option.some.inj (hinfo.symm.trans hinfo₁)
    rw [← hsame.2.2.1, hinfo] at hinfo₂
    cases hinfo₂
    exact sameButSignature_of_flat (prune_eq_of_accepted hbinds h h' hsame) hallowed hallowed' hflat

end Covers

/-! ### A field in the body -/

section Sample

/-- The registry when nothing is configured. -/
def defaultRegistry : NamespaceRegistry where
  configured := false
  entries := [⟨ofText "outbox", false, ⟨none, none, none, none⟩⟩]

/-- The fields of the signature of the samples. -/
def sampleSigned : List (JsString × Json) :=
  [(ofText "_k", .string (replicate 64 0x61)), (ofText "_dk", .string (replicate 64 0x64)),
    (ofText "_ns", .string (ofText "outbox")), (ofText "_sig", .string (replicate 128 0x30))]

def sampleRecord (members : List (JsString × Json)) (h : Json.Distinct (.object (members ++ sampleSigned))) :
    Record :=
  ⟨members ++ sampleSigned, h⟩

/-- A record whose body is an object. -/
def bodyRecord : Record :=
  sampleRecord [(ofText "id", .string (ofText "p1")),
    (ofText "body", .object [(ofText "ciphertext", .string (ofText "before"))])] (by
      refine ⟨by decide +kernel, ?_⟩
      simp [Json.DistinctMembers, Json.Distinct, sampleSigned])

/-- The same record with another field in its body. -/
def tamperedRecord : Record :=
  sampleRecord [(ofText "id", .string (ofText "p1")),
    (ofText "body", .object [(ofText "ciphertext", .string (ofText "before")),
      (ofText "_k", .string (ofText "after"))])] (by
      refine ⟨by decide +kernel, ?_⟩
      simp only [cons_append, nil_append, sampleSigned, Json.DistinctMembers, Json.Distinct,
        and_true, true_and]
      decide +kernel)

/-- A record whose members are strings. -/
def flatRecord : Record :=
  sampleRecord [(ofText "id", .string (ofText "p1")), (ofText "body", .string (ofText "before"))] (by
      refine ⟨by decide +kernel, ?_⟩
      simp [Json.DistinctMembers, Json.Distinct, sampleSigned])

/-- The same record with another field of the signature. -/
def algRecord : Record :=
  sampleRecord [(ofText "_alg", .string (ofText "ed25519")), (ofText "id", .string (ofText "p1")),
    (ofText "body", .string (ofText "before"))] (by
      refine ⟨by decide +kernel, ?_⟩
      simp [Json.DistinctMembers, Json.Distinct, sampleSigned])

/-- One message is signed: the one of a record. -/
def verifyOf (type : JsString) (r : Record) : VerifyDetached := fun _ message _ =>
  decide (message = JsString.utf8 (signedText (signatureFields r.members) type r.json))

/-- A field that is added to the body is not covered. -/
theorem accepted_tampered :
    Accepted (verifyOf (ofText "post") bodyRecord) defaultRegistry (replicate 64 0x61) (ofText "post")
      bodyRecord ∧
    Accepted (verifyOf (ofText "post") bodyRecord) defaultRegistry (replicate 64 0x61) (ofText "post")
      tamperedRecord ∧
    SameSigned bodyRecord tamperedRecord ∧ ¬ SameButSignature bodyRecord tamperedRecord := by
  refine ⟨?_, ?_, ⟨?_, ?_, ?_, ?_⟩, fun h => ?_⟩
  · rw [Accepted]
    decide +kernel
  · rw [Accepted]
    decide +kernel
  · decide +kernel
  · decide +kernel
  · decide +kernel
  · decide +kernel
  · exact absurd (Json.nodes_eq_of_same h) (by decide +kernel)

/-- A record with the same members is the same but for the fields of the signature. -/
theorem signature_covers_flatRecord : SameButSignature flatRecord algRecord := by
  have hbinds : Binds (verifyOf (ofText "post") flatRecord) := by
    intro signature message message' publicKey hm hm'
    rw [of_decide_eq_true hm, of_decide_eq_true hm']
  have haccepted : Accepted (verifyOf (ofText "post") flatRecord) defaultRegistry (replicate 64 0x61)
      (ofText "post") flatRecord := by
    rw [Accepted]
    decide +kernel
  have haccepted' : Accepted (verifyOf (ofText "post") flatRecord) defaultRegistry (replicate 64 0x41)
      (ofText "post") algRecord := by
    rw [Accepted]
    decide +kernel
  have hsame : SameSigned flatRecord algRecord :=
    ⟨by decide +kernel, by decide +kernel, by decide +kernel, by decide +kernel⟩
  have hiff := (signature_covers_iff hbinds).2.2 _ _ _ ⟨ofText "outbox", false, ⟨none, none, none, none⟩⟩
    haccepted (by decide +kernel)
  exact hiff.mpr (by decide +kernel) _ _ haccepted' hsame

end Sample

end HiveRelay.Outbox
