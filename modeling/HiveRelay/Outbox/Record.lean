import HiveRelay.Lib.Json

/-!
# Records of the outbox log

A record is an object that a writer has signed. What is signed is the type of the record and a text of it,
in which the members are sorted and the fields of the signature are left out. The signature scheme is a
parameter.
-/

namespace HiveRelay.Outbox

open List
open JsString (ofText)

/-! ### Strings -/

/-- `toLowerCase`, of the units whose lower case is an ASCII letter. -/
def toLowerCase (s : JsString) : JsString :=
  s.map fun u => if 0x41 ≤ u && u ≤ 0x5a then u + 0x20 else if u = 0x212a then 0x6b else u

def isSpace (u : UInt16) : Bool :=
  (0x09 ≤ u && u ≤ 0x0d) || u == 0x20 || u == 0xa0 || u == 0x1680 || (0x2000 ≤ u && u ≤ 0x200a) ||
    u == 0x2028 || u == 0x2029 || u == 0x202f || u == 0x205f || u == 0x3000 || u == 0xfeff

def trim (s : JsString) : JsString := ((s.dropWhile isSpace).reverse.dropWhile isSpace).reverse

def isAlnum (u : UInt16) : Bool := (0x61 ≤ u && u ≤ 0x7a) || (0x30 ≤ u && u ≤ 0x39)

/-- A letter or a digit, and then up to 63 of those or of some other units. -/
def isName (others : JsString) : JsString → Bool
  | [] => false
  | u :: rest => isAlnum u && decide (rest.length ≤ 63) && rest.all fun v => isAlnum v || others.contains v

/-- A hexadecimal digit, of either case. -/
def hexValue (u : UInt16) : Option ℕ :=
  if 0x30 ≤ u && u ≤ 0x39 then some (u.toNat - 0x30)
  else if 0x61 ≤ u && u ≤ 0x66 then some (u.toNat - 0x57)
  else if 0x41 ≤ u && u ≤ 0x46 then some (u.toNat - 0x37)
  else none

def isHex (s : JsString) (length : ℕ) : Bool :=
  decide (s.length = length) && s.all fun u => (hexValue u).isSome

/-- `b4a.from(s, 'hex')`. -/
def fromHex : JsString → Bytes
  | u :: v :: rest => UInt8.ofNat ((hexValue u).getD 0 * 16 + (hexValue v).getD 0) :: fromHex rest
  | _ => []

/-! ### Namespaces -/

structure NamespaceCaps where
  (maxOutboxes maxEntriesPerOutbox maxValueBytes bytesPerDay : Option ℕ)
  deriving DecidableEq

structure NamespaceInfo where
  name : JsString
  blind : Bool
  caps : NamespaceCaps
  deriving DecidableEq

/-- `createOutboxNamespaceRegistry`. -/
structure NamespaceRegistry where
  configured : Bool
  entries : List NamespaceInfo

def normalizeNamespaceName (name : JsString) : Option JsString :=
  let normalized := toLowerCase (trim name)
  if isName (ofText "._-") normalized then some normalized else none

theorem plain_of_name {u : UInt16} (h : (isAlnum u || (ofText "._-").contains u) = true) :
    isSpace u = false ∧ toLowerCase [u] = [u] := by
  have hcase : (0x61 ≤ u.toNat ∧ u.toNat ≤ 0x7a) ∨ (0x30 ≤ u.toNat ∧ u.toNat ≤ 0x39) ∨ u.toNat = 0x2e ∨
      u.toNat = 0x5f ∨ u.toNat = 0x2d := by
    have hothers : ofText "._-" = [0x2e, 0x5f, 0x2d] := by decide
    rw [hothers] at h
    simp only [isAlnum, contains_cons, contains_nil, Bool.or_eq_true, Bool.and_eq_true,
      decide_eq_true_eq, beq_iff_eq, UInt16.le_iff_toNat_le, ← UInt16.toNat_inj, Bool.or_false] at h
    simpa [or_assoc] using h
  constructor
  · simp only [isSpace, Bool.or_eq_false_iff, Bool.and_eq_false_iff, decide_eq_false_iff_not,
      beq_eq_false_iff_ne, ne_eq, UInt16.le_iff_toNat_le, ← UInt16.toNat_inj]
    simp
    omega
  · simp only [toLowerCase, map_cons, map_nil, cons.injEq, and_true, Bool.and_eq_true,
      decide_eq_true_eq, UInt16.le_iff_toNat_le, ← UInt16.toNat_inj]
    rw [if_neg, if_neg] <;> simp <;> omega

theorem all_of_isName {others n : JsString} (h : isName others n = true) :
    ∀ u ∈ n, (isAlnum u || others.contains u) = true := by
  cases n with
  | nil => cases h
  | cons u rest =>
    simp only [isName, Bool.and_eq_true, decide_eq_true_eq, all_eq_true] at h
    intro v hv
    rcases mem_cons.mp hv with rfl | hv
    · rw [h.1.1, Bool.true_or]
    · exact h.2 v hv

theorem dropWhile_isSpace {n : JsString} (h : ∀ u ∈ n, isSpace u = false) : n.dropWhile isSpace = n := by
  cases n with
  | nil => rfl
  | cons u rest => rw [dropWhile_cons_of_neg (by simp [h u])]

theorem normalizeNamespaceName_idem {s n : JsString} (h : normalizeNamespaceName s = some n) :
    normalizeNamespaceName n = some n := by
  have hname : isName (ofText "._-") n = true := by
    simp only [normalizeNamespaceName] at h
    split at h
    · next hname => rw [← Option.some.inj h]; exact hname
    · cases h
  have hplain := fun u hu => plain_of_name (all_of_isName hname u hu)
  have htrim : trim n = n := by
    rw [trim, dropWhile_isSpace fun u hu => (hplain u hu).1,
      dropWhile_isSpace fun u hu => (hplain u (mem_reverse.mp hu)).1, reverse_reverse]
  have hlower : toLowerCase n = n := by
    refine (map_congr_left fun u hu => ?_).trans (map_id n)
    exact (cons.inj (hplain u hu).2).1
  simp only [normalizeNamespaceName, htrim, hlower, hname, if_true]

def NamespaceRegistry.get (registry : NamespaceRegistry) (name : JsString) : Option NamespaceInfo :=
  (normalizeNamespaceName name).bind fun normalized => registry.entries.find? fun info => info.name = normalized

/-! ### Records -/

def getMember (members : List (JsString × Json)) (key : JsString) : Option Json := members.lookup key

/-- The value of a member that is a string. -/
def getString (members : List (JsString × Json)) (key : JsString) : Option JsString :=
  match getMember members key with
  | some (.string s) => some s
  | _ => none

/-- `SIG_FIELDS`. -/
def SIG_FIELDS : List JsString :=
  [ofText "_sig", ofText "_k", ofText "_dk", ofText "_ns", ofText "_alg"]

def isSigField (key : JsString) : Bool := SIG_FIELDS.contains key

mutual

def stable : Json → JsString
  | .array items => 0x5b :: (Json.join (stableItems items) ++ [0x5d])
  | .object members => 0x7b :: (Json.join ((Json.sortKeys (stableMembers members)).map fun m =>
      JsString.quote m.1 ++ 0x3a :: m.2) ++ [0x7d])
  | .null => Json.text .null
  | .bool b => Json.text (.bool b)
  | .number n => Json.text (.number n)
  | .string s => Json.text (.string s)

def stableItems : List Json → List JsString
  | [] => []
  | item :: items => stable item :: stableItems items

/-- The members that are not fields of the signature, with what their values are written as. -/
def stableMembers : List (JsString × Json) → List (JsString × JsString)
  | [] => []
  | (key, value) :: members =>
    if isSigField key then stableMembers members else (key, stable value) :: stableMembers members

end

def canonicalOutboxRecord (type : JsString) (data : Json) : JsString := type ++ 0x7c :: stable data

/-! ### Blind records -/

def isShortString (maxLength : ℕ) : Option Json → Bool
  | some (.string s) => decide (0 < s.length ∧ s.length ≤ maxLength)
  | _ => false

/-- The keys of members are all of some keys. -/
def keysWithin (members : List (JsString × Json)) (keys : List JsString) : Bool :=
  members.all fun m => keys.contains m.1

/-- `normalizeBlindSeal`, as a check. -/
def isBlindSeal : Option Json → Bool
  | some (.object sealed) =>
    keysWithin sealed [ofText "version", ofText "alg", ofText "nonce", ofText "ciphertext", ofText "keyId"] &&
    (match getMember sealed (ofText "version") with
      | some (.number n) => decide (n.text = ofText "1")
      | _ => false) &&
    isShortString 64 (getMember sealed (ofText "alg")) &&
    (match getMember sealed (ofText "alg") with
      | some (.string alg) => isName (ofText "._+-") alg
      | _ => false) &&
    isShortString 512 (getMember sealed (ofText "nonce")) &&
    (match getMember sealed (ofText "ciphertext") with
      | some (.string ciphertext) => decide (ciphertext.length ≠ 0)
      | _ => false) &&
    (match getMember sealed (ofText "keyId") with
      | none => true
      | some .null => true
      | some keyId => isShortString 256 (some keyId))
  | _ => false

def isOutboxBlindSealedBody : Option Json → Bool
  | some (.object body) => keysWithin body [ofText "sealed"] && isBlindSeal (getMember body (ofText "sealed"))
  | _ => false

def isOutboxBlindRecord : Json → Bool
  | .object members => isOutboxBlindSealedBody (getMember members (ofText "body"))
  | _ => false

/-- `BLIND_FORBIDDEN_FIELDS`. -/
def BLIND_FORBIDDEN_FIELDS : List JsString :=
  [ofText "plaintext", ofText "plainText", ofText "cleartext", ofText "clearText", ofText "dataKey"]

mutual

def hasBlindForbiddenField : Json → Bool
  | .array items => anyForbiddenItem items
  | .object members => anyForbiddenMember members
  | _ => false

def anyForbiddenItem : List Json → Bool
  | [] => false
  | item :: items => hasBlindForbiddenField item || anyForbiddenItem items

def anyForbiddenMember : List (JsString × Json) → Bool
  | [] => false
  | (key, value) :: members =>
    BLIND_FORBIDDEN_FIELDS.contains key || hasBlindForbiddenField value || anyForbiddenMember members

end

def namespaceRecordAllowed (info : NamespaceInfo) (data : Json) : Bool :=
  !info.blind || (isOutboxBlindRecord data && !hasBlindForbiddenField data)

def recordNamespace : Json → Option JsString
  | .object members => (getString members (ofText "_ns")).bind normalizeNamespaceName
  | _ => none

/-! ### Signatures -/

/-- The fields of the signature, with the defaults for what is not a string. -/
structure SignatureFields where
  (writer driveKey ns sigHex : JsString)

/-- The fields that are read of a record. -/
def signatureFields (members : List (JsString × Json)) : SignatureFields where
  writer := ((getString members (ofText "_k")).map toLowerCase).getD []
  driveKey := ((getString members (ofText "_dk")).map toLowerCase).getD []
  ns := (getString members (ofText "_ns")).getD []
  sigHex := (getString members (ofText "_sig")).getD []

def signedText (fields : SignatureFields) (type : JsString) (data : Json) : JsString :=
  ofText "pear.app." ++ fields.driveKey ++ ofText ":" ++ fields.ns ++ ofText ":" ++ canonicalOutboxRecord type data

/-- `crypto_sign_verify_detached`, of a signature, a message and a public key. -/
abbrev VerifyDetached := (signature message publicKey : Bytes) → Bool

/-- `verifyOutboxRecordSignature`. An array has no members, so it has no writer. -/
def verifyOutboxRecordSignature (verifyDetached : VerifyDetached) (registry : NamespaceRegistry)
    (appId type : JsString) (data : Json) : Bool :=
  match data with
  | .object members =>
    let fields := signatureFields members
    let outboxWriter := toLowerCase appId
    !type.isEmpty &&
    (isHex fields.writer 64 && isHex outboxWriter 64 && decide (fields.writer = outboxWriter)) &&
    (isHex fields.driveKey 64 && isHex fields.sigHex 128) &&
    (match registry.get fields.ns with
      | none => false
      | some info => namespaceRecordAllowed info data) &&
    verifyDetached (fromHex fields.sigHex) (JsString.utf8 (signedText fields type data)) (fromHex fields.writer)
  | _ => false

/-! ### What is signed -/

theorem stableItems_eq_map (items : List Json) : stableItems items = items.map stable := by
  induction items with
  | nil => rfl
  | cons item items ih => rw [stableItems, ih, map_cons]

theorem stableMembers_eq_map (members : List (JsString × Json)) : stableMembers members =
    (members.filter fun m => !isSigField m.1).map (Prod.map id stable) := by
  induction members with
  | nil => rfl
  | cons m members ih =>
    obtain ⟨key, value⟩ := m
    rw [stableMembers, ih]
    cases hsig : isSigField key with
    | true =>
      rw [filter_cons_of_neg (by rw [hsig]; decide)]
      rfl
    | false =>
      rw [filter_cons_of_pos (by rw [hsig]; decide)]
      rfl

/-- **What is signed** leaves out all fields that are named like those of a signature. -/
theorem stable_eq_text (v : Json) : stable v = Json.text (Json.prune isSigField v) := by
  induction v with
  | null | bool b | number n | string s => rfl
  | array items ih =>
    rw [stable, Json.prune, Json.text, stableItems_eq_map, Json.texts_eq_map, Json.pruneItems_eq_map, map_map]
    exact congrArg (fun ss => 0x5b :: (Json.join ss ++ [0x5d])) (map_congr_left ih)
  | object members ih =>
    have htexts : stableMembers members = (Json.pruneMembers isSigField members).map (Prod.map id Json.text) := by
      rw [stableMembers_eq_map, Json.pruneMembers_eq_map, map_map]
      refine map_congr_left fun m hm => ?_
      exact Prod.ext rfl (ih m (mem_of_mem_filter hm))
    rw [stable, Json.prune, Json.text, Json.memberTexts_eq_map, htexts, ← Json.map_sortKeys, map_map]
    rfl

end HiveRelay.Outbox
