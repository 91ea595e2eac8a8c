import HiveRelay.Quota.Blake2b

/-!
# Route scopes of FORWARD

A FORWARD open carries the scope of its route: the fields of the first open, and a hop for each relay
that it went through. Each hop has the hash of what was before it and the signature of its relay. A relay
verifies the scope that it is shown, appends its own hop and verifies the result.

The hash and the hooks (signatures, descriptor bindings) are parameters. A hook is a function here, so
all relays are given the same answers. Scopes that a relay is shown are arbitrary; nothing says that they
come from a relay.

## Main definitions

* `Run` — relays that are shown arbitrary scopes
* `Chained` — each hop is linked to what is before it

## Main results

* `prefix_of_accepted` — what is before the hop of an honest relay
* `route_scope_chain` — no loops, no growth
-/

namespace HiveRelay.Route

open List Option HiveRelay.Except Bytes

/-- `BlindProtocolError` codes that are used here. -/
inductive ErrorCode where
  | badEncoding | conflict | expired | tooLarge | internal
  deriving DecidableEq

structure Failure where
  code : ErrorCode
  message : String
  deriving DecidableEq

/-- `fail('BAD_ENCODING', ..)`. -/
def badEncoding (message : String) : Failure := ⟨.badEncoding, message⟩

/-- `fail('CONFLICT', ..)`. -/
def conflict (message : String) : Failure := ⟨.conflict, message⟩

/-! ### Scopes -/

/-- `blindForwardRouteHopV1`. -/
structure Hop where
  hopIndex : ℕ
  relayPublicKey : Bytes
  descriptorSequence : ℕ
  (descriptorHash previousScopeHash scopeHash relaySignature : Bytes)
  deriving DecidableEq

/-- `blindForwardRouteScopeV1`. -/
structure Scope where
  version : ℕ
  (rootRouteId rootCircuitNonce rootRequestCommitment : Bytes)
  (maxRelayCount expiresEpoch : ℕ)
  hops : List Hop
  deriving DecidableEq

/-- The fields of a hop are in their ranges. -/
def Hop.InRange (hop : Hop) : Prop :=
  hop.hopIndex ≤ 3 ∧ hop.relayPublicKey.length = 32 ∧ hop.descriptorSequence < 2 ^ 64 ∧
    hop.descriptorHash.length = 32 ∧ hop.previousScopeHash.length = 32 ∧ hop.scopeHash.length = 32 ∧
    hop.relaySignature.length = 64
  deriving Decidable

def checkHop (hop : Hop) : Except Failure Unit := do
  require hop.InRange (badEncoding "BlindForwardRouteHopV1")
  require (hop.relayPublicKey.isZero = false) (badEncoding "relayPublicKey")
  require (hop.descriptorHash.isZero = false) (badEncoding "descriptorHash")
  require (hop.scopeHash.isZero = false) (badEncoding "scopeHash")
  require (hop.hopIndex = 0 → hop.previousScopeHash.isZero = true)
    (badEncoding "route-scope hop zero requires an all-zero previousScopeHash")
  require (hop.hopIndex ≠ 0 → hop.previousScopeHash.isZero = false)
    (badEncoding "route-scope continuation requires a nonzero previousScopeHash")

/-- The keys of the relays of some hops. -/
def relayKeys (hops : List Hop) : List Bytes := hops.map Hop.relayPublicKey

/-- What the codec checks of the hop at a position. -/
def checkPosition (scope : Scope) (index : ℕ) : Except Failure Unit := do
  let hop ← demand scope.hops[index]? (badEncoding "forward route-scope hops")
  require (hop.hopIndex = index) (badEncoding "route-scope hop indexes must be contiguous from zero")
  require (0 < index → some hop.previousScopeHash = scope.hops[index - 1]?.map Hop.scopeHash)
    (badEncoding "route-scope previousScopeHash does not bind the complete prefix")
  require (hop.relayPublicKey ∉ relayKeys (scope.hops.take index))
    (badEncoding "route-scope repeats a relay public key")

/-- `canonicalScope`: what is encoded and decoded again. -/
def canonicalScope (scope : Scope) : Except Failure Scope := do
  require (scope.version = 1 ∧ scope.rootRouteId.length = 16 ∧ scope.rootCircuitNonce.length = 32 ∧
      scope.rootRequestCommitment.length = 32 ∧ 2 ≤ scope.maxRelayCount ∧ scope.maxRelayCount ≤ 4 ∧
      scope.expiresEpoch < 2 ^ 32 ∧ 1 ≤ scope.hops.length ∧ scope.hops.length ≤ 4)
    (badEncoding "BlindForwardRouteScopeV1")
  scope.hops.forM checkHop
  require (scope.rootRouteId.isZero = false) (badEncoding "rootRouteId")
  require (scope.rootCircuitNonce.isZero = false) (badEncoding "rootCircuitNonce")
  require (scope.rootRequestCommitment.isZero = false) (badEncoding "rootRequestCommitment")
  require (scope.expiresEpoch ≠ 0) (badEncoding "route-scope expiresEpoch must be nonzero")
  require (scope.hops.length ≤ scope.maxRelayCount) (badEncoding "route-scope relay count exceeds maxRelayCount")
  (range scope.hops.length).forM (checkPosition scope)
  pure scope

/-! ### Hashes -/

/-- The input of `forwardRouteScopeGenesisHash`. -/
def genesisMessage (scope : Scope) : Bytes :=
  [ofAscii "hiverelay.blind.forward-scope-genesis.v1", scope.rootRouteId, scope.rootCircuitNonce,
    scope.rootRequestCommitment, ofNat 1 scope.maxRelayCount,
    ofNat 4 scope.expiresEpoch].flatten

/-- The input of `forwardRouteScopeHopHash`. -/
def hopMessage (hashParent : Bytes) (hop : Hop) : Bytes :=
  [ofAscii "hiverelay.blind.forward-scope-hop.v1", hashParent, ofNat 1 hop.hopIndex,
    hop.relayPublicKey, ofNat 8 hop.descriptorSequence, hop.descriptorHash].flatten

def forwardRouteScopeSignaturePayload (scopeHash : Bytes) : Bytes :=
  ofAscii "hiverelay.blind.forward-route-scope.v1" ++ ofNat 8 scopeHash.length ++ scopeHash

def lastScopeHash (scope : Scope) : Bytes := scope.hops.getLast?.elim [] Hop.scopeHash

section Checks

variable (hash : Bytes → Bytes)

def forwardRouteScopeGenesisHash (scope : Scope) : Bytes := hash (genesisMessage scope)

def forwardRouteScopeHopHash (hashParent : Bytes) (hop : Hop) : Bytes := hash (hopMessage hashParent hop)

/-- The hash before the hop at a position. -/
def hashParent (scope : Scope) : ℕ → Bytes
  | 0 => forwardRouteScopeGenesisHash hash scope
  | index + 1 => scope.hops[index]?.elim [] Hop.scopeHash

/-- What `verifyForwardRouteScope` asks its hooks. -/
structure Hooks where
  verifyDescriptorBinding : (relayPublicKey : Bytes) → (descriptorSequence : ℕ) →
    (descriptorHash : Bytes) → (hopIndex : ℕ) → Scope → Bool
  verifySignature : (publicKey signature payload : Bytes) → (hopIndex : ℕ) → Scope → Bool

variable (hooks : Hooks)

/-- What is verified of the hop at a position. -/
def verifyHop (scope : Scope) (index : ℕ) : Except Failure Unit := do
  let hop ← demand scope.hops[index]? (badEncoding "forward route-scope hops")
  require (hop.relayPublicKey ∉ relayKeys (scope.hops.take index))
    (conflict "FORWARD route scope contains a relay cycle")
  require (forwardRouteScopeHopHash hash (hashParent hash scope index) hop = hop.scopeHash)
    (conflict "FORWARD route-scope prefix hash is invalid")
  require (hooks.verifyDescriptorBinding hop.relayPublicKey hop.descriptorSequence hop.descriptorHash index
      scope = true)
    (conflict "FORWARD route-scope descriptor binding is invalid")
  require (hooks.verifySignature hop.relayPublicKey hop.relaySignature
      (forwardRouteScopeSignaturePayload hop.scopeHash) index scope = true)
    (conflict "FORWARD route-scope relay signature is invalid")

def verifyForwardRouteScope (nowEpoch : ℕ) (routeScope : Scope) : Except Failure Scope := do
  require (nowEpoch ≤ 0xffffffff) (badEncoding "nowEpoch is outside u32")
  let scope ← canonicalScope routeScope
  require (nowEpoch < scope.expiresEpoch) ⟨.expired, "FORWARD route scope is expired"⟩
  (range scope.hops.length).forM (verifyHop hash hooks scope)
  pure scope

/-! ### Extension -/

/-- The options of `extendForwardRouteScope`. -/
structure ExtendOptions where
  relayPublicKey : Bytes
  descriptorSequence : ℕ
  descriptorHash : Bytes
  routeScope : Option Scope
  (rootRouteId rootCircuitNonce rootRequestCommitment : Bytes)
  (maxRelayCount expiresEpoch : ℕ)

def rootScope (options : ExtendOptions) : Except Failure Scope := do
  require (options.rootRouteId.length = 16) (badEncoding "rootRouteId must be exactly 16 bytes")
  require (options.rootCircuitNonce.length = 32) (badEncoding "rootCircuitNonce must be exactly 32 bytes")
  require (options.rootRequestCommitment.length = 32) (badEncoding "rootRequestCommitment must be exactly 32 bytes")
  require (options.expiresEpoch ≤ 0xffffffff) (badEncoding "expiresEpoch is outside u32")
  require (2 ≤ options.maxRelayCount ∧ options.maxRelayCount ≤ 4) (badEncoding "maxRelayCount is outside 2..4")
  pure
    { options with
      version := 1
      hops := [] }

/-- `extendForwardRouteScope` up to its call of `sign`: the scope and the hop that is to be signed. -/
def unsignedExtension (options : ExtendOptions) : Except Failure (Scope × Hop) := do
  require (options.relayPublicKey.length = 32) (badEncoding "relayPublicKey must be exactly 32 bytes")
  require (options.descriptorSequence < 2 ^ 64) (badEncoding "current descriptorSequence is outside u64")
  require (options.descriptorHash.length = 32) (badEncoding "current descriptorHash must be exactly 32 bytes")
  let (scope, parent, previousScopeHash) ← (match options.routeScope with
    | none => do
      let scope ← rootScope options
      pure (scope, forwardRouteScopeGenesisHash hash scope, replicate 32 0)
    | some routeScope => do
      let scope ← canonicalScope routeScope
      pure (scope, lastScopeHash scope, lastScopeHash scope))
  require (scope.hops.length < scope.maxRelayCount ∧ scope.hops.length < 4)
    ⟨.tooLarge, "FORWARD route scope exceeds its relay-count bound"⟩
  require (options.relayPublicKey ∉ relayKeys scope.hops) (conflict "FORWARD route scope repeats the current relay")
  let hop : Hop :=
    { options with
      hopIndex := scope.hops.length
      previousScopeHash := previousScopeHash
      scopeHash := []
      relaySignature := [] }
  pure (scope, { hop with scopeHash := forwardRouteScopeHopHash hash parent hop })

/-- The hook that signs: it is given the key, the payload and the position. -/
abbrev Sign := Bytes → Bytes → ℕ → Except Failure Bytes

/-- The rest of `extendForwardRouteScope`. -/
def signExtension (sign : Sign) (scope : Scope) (hop : Hop) : Except Failure Scope := do
  let relaySignature ← sign hop.relayPublicKey (forwardRouteScopeSignaturePayload hop.scopeHash) hop.hopIndex
  require (relaySignature.length = 64) (badEncoding "relaySignature must be exactly 64 bytes")
  canonicalScope { scope with hops := scope.hops ++ [{ hop with relaySignature := relaySignature }] }

/-! ### Opens -/

/-- A relay and its current descriptor. -/
structure Relay where
  relayPublicKey : Bytes
  descriptorSequence : ℕ
  descriptorHash : Bytes

/-- The fields of a `blindTransportRouteV1` that are read here. -/
structure TransportRoute where
  (previousRelayKey nextRelayKey : Bytes)
  nextDescriptorSequence : ℕ
  nextDescriptorHash : Bytes
  (maxRelayCount expiresEpoch : ℕ)

/-- The fields of a `blindForwardHopOpenV1` that are read here. -/
structure HopOpen where
  route : TransportRoute
  routeScope : Scope
  previousDescriptorSequence : ℕ
  previousDescriptorHash : Bytes

structure ParentContext where
  inheritedScopeHash : Bytes
  inheritedRelayCount : ℕ
  routeScope : Scope
  deriving DecidableEq

/-- `createForwardedForwardParentContext`, of a scope that is canonical. -/
def createForwardedForwardParentContext (scope : Scope) : ParentContext where
  inheritedScopeHash := lastScopeHash scope
  inheritedRelayCount := scope.hops.length
  routeScope := scope

/-- `normalizeForwardParentContext`, of a FORWARDED parent. -/
def normalizeForwardParentContext (context : ParentContext) : Except Failure ParentContext := do
  require (context.inheritedScopeHash.length = 32) (badEncoding "inheritedScopeHash must be exactly 32 bytes")
  require (context.inheritedScopeHash.isZero = false)
    (conflict "forwarded FORWARD parent context has a zero scope hash")
  let scope ← canonicalScope context.routeScope
  require (context.inheritedRelayCount = scope.hops.length ∧ context.inheritedScopeHash = lastScopeHash scope)
    (conflict "forwarded FORWARD parent context does not bind its complete route prefix")
  pure { context with routeScope := scope }

/-- The hop that a scope ends with is of the relay and the descriptor of an open. -/
def EndsAt (scope : Scope) (relayPublicKey : Bytes) (descriptorSequence : ℕ) (descriptorHash : Bytes) :
    Prop :=
  ∃ hop ∈ scope.hops.getLast?, hop.relayPublicKey = relayPublicKey ∧
    hop.descriptorSequence = descriptorSequence ∧ hop.descriptorHash = descriptorHash

instance (scope : Scope) (relayPublicKey : Bytes) (descriptorSequence : ℕ) (descriptorHash : Bytes) :
    Decidable (EndsAt scope relayPublicKey descriptorSequence descriptorHash) := by
  unfold EndsAt
  infer_instance

/-- `canonicalHopOpen`, as far as it is about the scope. -/
def canonicalHopOpen (hopOpen : HopOpen) : Except Failure HopOpen := do
  let scope ← canonicalScope hopOpen.routeScope
  require (EndsAt scope hopOpen.route.previousRelayKey hopOpen.previousDescriptorSequence
      hopOpen.previousDescriptorHash)
    (badEncoding "BlindForwardHopOpenV1 route scope does not end at the forwarding relay descriptor")
  require (scope.hops.length ≤ hopOpen.route.maxRelayCount)
    (badEncoding "BlindForwardHopOpenV1 route scope exceeds the signed route relay bound")
  pure { hopOpen with routeScope := scope }

def verifyForwardHopOpenRouteScope (nowEpoch : ℕ) (receiver : Relay) (rawHopOpen : HopOpen) :
    Except Failure ParentContext := do
  let hopOpen ← canonicalHopOpen rawHopOpen
  require (receiver.relayPublicKey.length = 32) (badEncoding "receiverRelayPublicKey must be exactly 32 bytes")
  require (receiver.descriptorSequence < 2 ^ 64) (badEncoding "receiver descriptorSequence is outside u64")
  require (receiver.descriptorHash.length = 32) (badEncoding "receiver descriptorHash must be exactly 32 bytes")
  require (hopOpen.route.nextRelayKey = receiver.relayPublicKey)
    (conflict "FORWARD HopOpen route is addressed to another relay")
  require (hopOpen.route.nextDescriptorSequence = receiver.descriptorSequence ∧
      hopOpen.route.nextDescriptorHash = receiver.descriptorHash)
    (conflict "FORWARD HopOpen route does not bind the receiving relay descriptor")
  let routeScope ← verifyForwardRouteScope hash hooks nowEpoch hopOpen.routeScope
  require (routeScope.maxRelayCount = hopOpen.route.maxRelayCount)
    (conflict "FORWARD HopOpen changed the signed root relay-count bound")
  require (hopOpen.route.expiresEpoch = routeScope.expiresEpoch)
    (conflict "FORWARD HopOpen changed the signed root expiry")
  require (EndsAt routeScope hopOpen.route.previousRelayKey hopOpen.previousDescriptorSequence
      hopOpen.previousDescriptorHash)
    (conflict "FORWARD HopOpen route scope does not bind the adjacent forwarding relay")
  require (receiver.relayPublicKey ∉ relayKeys routeScope.hops)
    (conflict "FORWARD HopOpen would create a relay cycle")
  pure (createForwardedForwardParentContext routeScope)

/-- The fields of a FORWARD open request that are read here. -/
structure OpenRequest where
  (routeId circuitNonce parentRouteScopeHash requestCommitment : Bytes)

/-- The scope that an open inherits; a DIRECT parent has none. -/
def inheritedScope (nowEpoch : ℕ) (request : OpenRequest) :
    Option ParentContext → Except Failure (Option ParentContext)
  | none => do
    require (request.parentRouteScopeHash.isZero = true)
      (conflict "direct FORWARD parent requires the zero route-scope root")
    pure none
  | some parent => do
    let context ← normalizeForwardParentContext parent
    require (request.parentRouteScopeHash = context.inheritedScopeHash)
      (conflict "forwarded FORWARD parent route scope was reset or changed")
    let verified ← verifyForwardRouteScope hash hooks nowEpoch context.routeScope
    pure (some { context with routeScope := verified })

/-- The checks of `_prepareRouteScope` on what is inherited. -/
def checkInherited (relay : Relay) (route : TransportRoute) (inherited : Option ParentContext) :
    Except Failure Unit := do
  match inherited with
  | none => pure ()
  | some context => do
    require (lastScopeHash context.routeScope = context.inheritedScopeHash ∧
        context.routeScope.hops.length = context.inheritedRelayCount)
      (conflict "authenticated FORWARD parent route context changed after verification")
    require (route.maxRelayCount = context.routeScope.maxRelayCount)
      (conflict "FORWARD continuation changed the signed root relay-count bound")
    require (route.expiresEpoch = context.routeScope.expiresEpoch)
      (conflict "FORWARD continuation changed the signed root expiry")
    require (context.routeScope.hops.length < route.maxRelayCount)
      ⟨.tooLarge, "FORWARD continuation exceeds the signed route relay-count bound"⟩
  let priorHops := inherited.elim [] fun context => context.routeScope.hops
  require (relay.relayPublicKey ∉ relayKeys priorHops) (conflict "FORWARD continuation repeats the current relay")
  require (route.nextRelayKey ≠ relay.relayPublicKey ∧ route.nextRelayKey ∉ relayKeys priorHops)
    (conflict "FORWARD continuation would create a relay cycle")

/-- What an open has checked when it asks for a signature: the scope that is extended, and the hop. The
route was authorized for this relay. -/
def openExtension (nowEpoch : ℕ) (relay : Relay) (route : TransportRoute) (request : OpenRequest)
    (parent : Option ParentContext) : Except Failure (Scope × Hop) := do
  let inherited ← inheritedScope hash hooks nowEpoch request parent
  require (route.previousRelayKey = relay.relayPublicKey)
    (conflict "FORWARD request does not match its signed app-free route")
  checkInherited relay route inherited
  unsignedExtension hash
    { relay with
      routeScope := inherited.map ParentContext.routeScope
      rootRouteId := request.routeId
      rootCircuitNonce := request.circuitNonce
      rootRequestCommitment := request.requestCommitment
      maxRelayCount := route.maxRelayCount
      expiresEpoch := route.expiresEpoch }

/-- The route scope of an open: `ForwardStreamService.open` up to `_prepareRouteScope`. The clock is read
once for what is inherited and once for what is produced. -/
def openRouteScope (sign : Sign) (parentEpoch nowEpoch : ℕ) (relay : Relay) (route : TransportRoute)
    (request : OpenRequest) (parent : Option ParentContext) : Except Failure Scope := do
  let (scope, hop) ← openExtension hash hooks parentEpoch relay route request parent
  let routeScope ← signExtension sign scope hop
  let verified ← verifyForwardRouteScope hash hooks nowEpoch routeScope
  require ((∃ last ∈ verified.hops.getLast?, last.relayPublicKey = relay.relayPublicKey) ∧
      verified.hops.length ≤ route.maxRelayCount)
    ⟨.internal, "FORWARD route-scope signer changed the bounded append"⟩
  pure verified

end Checks

/-! ### What is checked -/

variable {nowEpoch : ℕ} {request : OpenRequest} {parent : Option ParentContext}

section Specs

variable {hash : Bytes → Bytes} {hooks : Hooks} {scope scope' : Scope}

structure Canonical (scope : Scope) : Prop where
  length_rootRouteId : scope.rootRouteId.length = 16
  length_rootCircuitNonce : scope.rootCircuitNonce.length = 32
  length_rootRequestCommitment : scope.rootRequestCommitment.length = 32
  maxRelayCount_le : scope.maxRelayCount ≤ 4
  expiresEpoch_lt : scope.expiresEpoch < 2 ^ 32
  length_pos : 0 < scope.hops.length
  length_le : scope.hops.length ≤ scope.maxRelayCount
  inRange : ∀ hop ∈ scope.hops, hop.InRange ∧ (hop.hopIndex = 0 → hop.previousScopeHash.isZero = true)
  position : ∀ i hop, scope.hops[i]? = some hop → hop.hopIndex = i ∧
    (0 < i → some hop.previousScopeHash = scope.hops[i - 1]?.map Hop.scopeHash) ∧
      hop.relayPublicKey ∉ relayKeys (scope.hops.take i)

theorem canonical_of_canonicalScope (h : canonicalScope scope = .ok scope') : scope' = scope ∧ Canonical scope := by
  simp only [canonicalScope, guards_eq_ok, forM_eq_ok, mem_range] at h
  obtain ⟨⟨-, hroute, hnonce, hcommitment, -, hmax, hexpires, hpos, -⟩, hhops, -, -, -, -, hlength,
    hposition, rfl⟩ := h
  refine ⟨rfl, hroute, hnonce, hcommitment, hmax, hexpires, hpos, hlength, fun hop hmem => ?_, fun i hop hi => ?_⟩
  · have hcheck := hhops hop hmem
    simp only [checkHop, guards_eq_ok] at hcheck
    exact ⟨hcheck.1, hcheck.2.2.2.2.1⟩
  · have hcheck := hposition i (List.getElem?_eq_some_iff.mp hi).1
    simp only [checkPosition, hi, demand, ok_bind, guards_eq_ok] at hcheck
    exact hcheck

theorem Canonical.nodup (h : Canonical scope) : (relayKeys scope.hops).Nodup := by
  rw [nodup_iff_pairwise_ne, pairwise_iff_getElem]
  intro i j hi hj hij heq
  have hlength : (relayKeys scope.hops).length = scope.hops.length := length_map _
  have hj' : j < scope.hops.length := hlength ▸ hj
  refine (h.position j scope.hops[j] (getElem?_eq_getElem hj')).2.2 ?_
  rw [relayKeys, List.mem_map]
  refine ⟨scope.hops[i], mem_take_iff_getElem.mpr ⟨i, by omega, rfl⟩, ?_⟩
  simpa [relayKeys] using heq

structure Verified (hash : Bytes → Bytes) (hooks : Hooks) (scope : Scope) (i : ℕ) (hop : Hop) :
    Prop where
  scopeHash_eq : forwardRouteScopeHopHash hash (hashParent hash scope i) hop = hop.scopeHash
  signature : hooks.verifySignature hop.relayPublicKey hop.relaySignature
    (forwardRouteScopeSignaturePayload hop.scopeHash) i scope = true

theorem verifyForwardRouteScope_spec (h : verifyForwardRouteScope hash hooks nowEpoch scope = .ok scope') :
    scope' = scope ∧ Canonical scope ∧ nowEpoch < scope.expiresEpoch ∧
      ∀ i hop, scope.hops[i]? = some hop → Verified hash hooks scope i hop := by
  simp only [verifyForwardRouteScope, guards_eq_ok, forM_eq_ok, mem_range] at h
  obtain ⟨-, scope₀, hcanonical, hexpires, hhops, rfl⟩ := h
  obtain ⟨rfl, hcanonical⟩ := canonical_of_canonicalScope hcanonical
  refine ⟨rfl, hcanonical, hexpires, fun i hop hi => ?_⟩
  have hcheck := hhops i (List.getElem?_eq_some_iff.mp hi).1
  simp only [verifyHop, hi, demand, ok_bind, guards_eq_ok] at hcheck
  exact ⟨hcheck.2.1, hcheck.2.2.2⟩

theorem verifyForwardRouteScope_later {laterEpoch : ℕ}
    (h : verifyForwardRouteScope hash hooks nowEpoch scope = .ok scope')
    (hlater : laterEpoch < scope.expiresEpoch) :
    verifyForwardRouteScope hash hooks laterEpoch scope = .ok scope' := by
  obtain ⟨rfl, hcanonical', -⟩ := verifyForwardRouteScope_spec h
  have hexpires := hcanonical'.expiresEpoch_lt
  simp only [verifyForwardRouteScope, guards_eq_ok] at h ⊢
  obtain ⟨-, scope₀, hcanonical, -, u, hhops, rfl⟩ := h
  exact ⟨by omega, _, hcanonical, hlater, u, hhops, rfl⟩

theorem verifyForwardHopOpenRouteScope_spec {receiver : Relay} {hopOpen : HopOpen} {context : ParentContext}
    (h : verifyForwardHopOpenRouteScope hash hooks nowEpoch receiver hopOpen = .ok context) :
    verifyForwardRouteScope hash hooks nowEpoch context.routeScope = .ok context.routeScope ∧
      context = createForwardedForwardParentContext context.routeScope ∧
      receiver.relayPublicKey ∉ relayKeys context.routeScope.hops := by
  simp only [verifyForwardHopOpenRouteScope, guards_eq_ok] at h
  obtain ⟨hopOpen', -, -, -, -, -, -, scope, hverify, -, -, -, hcycle, rfl⟩ := h
  obtain ⟨heq, -⟩ := verifyForwardRouteScope_spec hverify
  exact ⟨heq ▸ hverify, rfl, hcycle⟩

/-- What an extension that is asked to be signed looks like. -/
structure Extension (hash : Bytes → Bytes) (options : ExtendOptions) (scope : Scope) (hop : Hop) :
    Prop where
  scope_eq : ∀ routeScope, options.routeScope = some routeScope → scope = routeScope ∧ Canonical routeScope
  root_eq : options.routeScope = none → scope.rootRouteId = options.rootRouteId ∧
    scope.rootCircuitNonce = options.rootCircuitNonce ∧ scope.rootRequestCommitment = options.rootRequestCommitment ∧
        scope.maxRelayCount = options.maxRelayCount ∧ scope.expiresEpoch = options.expiresEpoch ∧ scope.hops = []
  root_range : options.routeScope = none → scope.rootRouteId.length = 16 ∧
    scope.rootCircuitNonce.length = 32 ∧ scope.rootRequestCommitment.length = 32 ∧
      scope.maxRelayCount ≤ 4 ∧ scope.expiresEpoch < 2 ^ 32
  hopIndex_eq : hop.hopIndex = scope.hops.length
  relay_eq : hop.relayPublicKey = options.relayPublicKey ∧
    hop.descriptorSequence = options.descriptorSequence ∧ hop.descriptorHash = options.descriptorHash
  range : hop.relayPublicKey.length = 32 ∧ hop.descriptorSequence < 2 ^ 64 ∧ hop.descriptorHash.length = 32
  previous_eq : hop.previousScopeHash =
    if scope.hops = [] then replicate 32 0 else hashParent hash scope scope.hops.length
  scopeHash_eq : hop.scopeHash = forwardRouteScopeHopHash hash (hashParent hash scope scope.hops.length) hop
  unsigned : hop.relaySignature = []

theorem Canonical.hashParent_length (h : Canonical scope) (hash : Bytes → Bytes) :
    hashParent hash scope scope.hops.length = lastScopeHash scope := by
  have hpos := h.length_pos
  obtain ⟨n, hn⟩ : ∃ n, scope.hops.length = n + 1 := ⟨scope.hops.length - 1, by omega⟩
  rw [hn, hashParent, lastScopeHash, getLast?_eq_getElem?, hn, Nat.add_sub_cancel]

theorem extension_of_unsignedExtension {options : ExtendOptions} {hop : Hop}
    (h : unsignedExtension hash options = .ok (scope, hop)) : Extension hash options scope hop := by
  simp only [unsignedExtension, guards_eq_ok] at h
  obtain ⟨hkey, hsequence, hhash, ⟨scope₀, parent, previous⟩, hscope, hlength, hrepeat, heq⟩ := h
  cases heq
  cases hroute : options.routeScope with
  | none =>
    simp only [hroute, rootScope, guards_eq_ok, Prod.mk.injEq] at hscope
    obtain ⟨_, ⟨hid, hnonce, hcommitment, hexpires, hmax, rfl⟩, rfl, rfl, rfl⟩ := hscope
    exact
      { scope_eq := fun _ hsome => by rw [hroute] at hsome; cases hsome
        root_eq := fun _ => ⟨rfl, rfl, rfl, rfl, rfl, rfl⟩
        root_range := fun _ => ⟨hid, hnonce, hcommitment, hmax.2, by
          show options.expiresEpoch < 2 ^ 32
          omega⟩
        hopIndex_eq := rfl
        relay_eq := ⟨rfl, rfl, rfl⟩
        range := ⟨hkey, hsequence, hhash⟩
        previous_eq := rfl
        scopeHash_eq := rfl
        unsigned := rfl }
  | some routeScope =>
    simp only [hroute, guards_eq_ok, Prod.mk.injEq] at hscope
    obtain ⟨scope, hcanonical, rfl, rfl, rfl⟩ := hscope
    obtain ⟨rfl, hcanonical⟩ := canonical_of_canonicalScope hcanonical
    have hparent := hcanonical.hashParent_length hash
    have hne : scope.hops ≠ [] := length_pos_iff.mp hcanonical.length_pos
    exact
      { scope_eq := fun _ hsome => by
          rw [hroute] at hsome
          cases hsome
          exact ⟨rfl, hcanonical⟩
        root_eq := fun hnone => by rw [hroute] at hnone; cases hnone
        root_range := fun hnone => by rw [hroute] at hnone; cases hnone
        hopIndex_eq := rfl
        relay_eq := ⟨rfl, rfl, rfl⟩
        range := ⟨hkey, hsequence, hhash⟩
        previous_eq := by rw [if_neg hne, hparent]
        scopeHash_eq := by rw [hparent]; rfl
        unsigned := rfl }

theorem signExtension_spec {sign : Sign} {hop : Hop} (h : signExtension sign scope hop = .ok scope') :
    ∃ relaySignature, scope' = { scope with hops := scope.hops ++ [{ hop with relaySignature := relaySignature }] } ∧
        Canonical scope' := by
  simp only [signExtension, guards_eq_ok] at h
  obtain ⟨relaySignature, -, -, hcanonical⟩ := h
  obtain ⟨rfl, hvalid⟩ := canonical_of_canonicalScope hcanonical
  exact ⟨relaySignature, rfl, hvalid⟩

theorem inheritedScope_spec {inherited : Option ParentContext}
    (h : inheritedScope hash hooks nowEpoch request parent = .ok inherited) :
    inherited = parent ∧ ∀ context, parent = some context →
      verifyForwardRouteScope hash hooks nowEpoch context.routeScope = .ok context.routeScope := by
  cases parent with
  | none =>
    simp only [inheritedScope, guards_eq_ok] at h
    exact ⟨h.2.symm, nofun⟩
  | some parent =>
    simp only [inheritedScope, normalizeForwardParentContext, guards_eq_ok] at h
    obtain ⟨_, ⟨-, -, scope, hcanonical, -, rfl⟩, -, verified, hverify, rfl⟩ := h
    obtain ⟨rfl, -⟩ := canonical_of_canonicalScope hcanonical
    obtain ⟨rfl, -⟩ := verifyForwardRouteScope_spec hverify
    refine ⟨rfl, fun context hsome => ?_⟩
    cases hsome
    exact hverify

end Specs

/-! ### What a scope hash determines -/

section Chains

variable {hash : Bytes → Bytes} {hooks : Hooks} {scope A S : Scope} {hop : Hop}

/-- A hop without its signature, which no hash covers. -/
def Hop.unsigned (hop : Hop) : Hop := { hop with relaySignature := [] }

theorem Hop.eq_of_unsigned_eq {hop' : Hop} (h : hop.unsigned = hop'.unsigned)
    (hsignature : hop.relaySignature = hop'.relaySignature) : hop = hop' := by
  cases hop
  cases hop'
  simp only [Hop.unsigned, Hop.mk.injEq] at h
  simp_all

def SameRoot (A S : Scope) : Prop :=
  A.rootRouteId = S.rootRouteId ∧ A.rootCircuitNonce = S.rootCircuitNonce ∧
    A.rootRequestCommitment = S.rootRequestCommitment ∧ A.maxRelayCount = S.maxRelayCount ∧
      A.expiresEpoch = S.expiresEpoch

/-- A hop that is linked to what is before it. -/
structure Link (hash : Bytes → Bytes) (scope : Scope) (i : ℕ) (hop : Hop) : Prop where
  index : hop.hopIndex = i
  index_le : i ≤ 3
  length_relayPublicKey : hop.relayPublicKey.length = 32
  descriptorSequence_lt : hop.descriptorSequence < 2 ^ 64
  length_descriptorHash : hop.descriptorHash.length = 32
  previous : hop.previousScopeHash = if i = 0 then replicate 32 0 else hashParent hash scope i
  scopeHash_eq : forwardRouteScopeHopHash hash (hashParent hash scope i) hop = hop.scopeHash

/-- A scope whose hops are all linked. -/
structure Chained (hash : Bytes → Bytes) (scope : Scope) : Prop where
  length_rootRouteId : scope.rootRouteId.length = 16
  length_rootCircuitNonce : scope.rootCircuitNonce.length = 32
  length_rootRequestCommitment : scope.rootRequestCommitment.length = 32
  maxRelayCount_le : scope.maxRelayCount ≤ 4
  expiresEpoch_lt : scope.expiresEpoch < 2 ^ 32
  links : ∀ i hop, scope.hops[i]? = some hop → Link hash scope i hop

theorem chained_of_verified {scope' : Scope}
    (h : verifyForwardRouteScope hash hooks nowEpoch scope = .ok scope') : Chained hash scope := by
  obtain ⟨-, hcanonical, -, hverified⟩ := verifyForwardRouteScope_spec h
  refine ⟨hcanonical.length_rootRouteId, hcanonical.length_rootCircuitNonce,
    hcanonical.length_rootRequestCommitment, hcanonical.maxRelayCount_le, hcanonical.expiresEpoch_lt,
    fun i hop hi => ?_⟩
  obtain ⟨⟨hindex3, hkey, hsequence, hdescriptor, hprevious32, -, -⟩, hzero⟩ :=
    hcanonical.inRange hop (mem_of_getElem? hi)
  obtain ⟨hindex, hprevious, -⟩ := hcanonical.position i hop hi
  refine ⟨hindex, hindex ▸ hindex3, hkey, hsequence, hdescriptor, ?_, (hverified i hop hi).scopeHash_eq⟩
  split
  · next hfirst =>
    refine eq_of_isZero (hzero (hindex.trans hfirst)) (by decide) ?_
    rw [hprevious32, length_replicate]
  · next hlater =>
    obtain ⟨j, rfl⟩ : ∃ j, i = j + 1 := ⟨i - 1, by omega⟩
    have hsome := hprevious (Nat.succ_pos j)
    rw [Nat.add_sub_cancel] at hsome
    rw [hashParent]
    cases hj : scope.hops[j]? with
    | none => rw [hj] at hsome; cases hsome
    | some before =>
      rw [hj] at hsome
      exact some.inj hsome

/-- The messages that are hashed for a scope. -/
def messagesOf (hash : Bytes → Bytes) (scope : Scope) : Set Bytes :=
  insert (genesisMessage scope)
    {m | ∃ i hop, scope.hops[i]? = some hop ∧ m = hopMessage (hashParent hash scope i) hop}

theorem sameRoot_of_genesisMessage (hA : Chained hash A) (hS : Chained hash S)
    (h : genesisMessage A = genesisMessage S) : SameRoot A S := by
  have hparts := eq_iff_flatten_eq.mpr ⟨h, by
    simp [hA.length_rootRouteId, hA.length_rootCircuitNonce, hA.length_rootRequestCommitment,
      hS.length_rootRouteId, hS.length_rootCircuitNonce, hS.length_rootRequestCommitment]⟩
  simp only [cons.injEq, and_true, true_and] at hparts
  obtain ⟨hid, hnonce, hcommitment, hmax, hexpires⟩ := hparts
  have hAmax := hA.maxRelayCount_le
  have hSmax := hS.maxRelayCount_le
  exact ⟨hid, hnonce, hcommitment, ofNat_injective (by omega) (by omega) hmax,
    ofNat_injective hA.expiresEpoch_lt hS.expiresEpoch_lt hexpires⟩

theorem hopMessage_injective {p q : Bytes} {g : Hop} (hp : p.length = 32) (hq : q.length = 32)
    (hindex : hop.hopIndex ≤ 3) (gindex : g.hopIndex ≤ 3)
    (hhop : hop.relayPublicKey.length = 32 ∧ hop.descriptorSequence < 2 ^ 64 ∧ hop.descriptorHash.length = 32)
    (hg : g.relayPublicKey.length = 32 ∧ g.descriptorSequence < 2 ^ 64 ∧ g.descriptorHash.length = 32)
    (h : hopMessage p hop = hopMessage q g) : p = q ∧ hop.hopIndex = g.hopIndex ∧
      hop.relayPublicKey = g.relayPublicKey ∧ hop.descriptorSequence = g.descriptorSequence ∧
        hop.descriptorHash = g.descriptorHash := by
  have hparts := eq_iff_flatten_eq.mpr ⟨h, by
    simp [hp, hq, hhop.1, hhop.2.2, hg.1, hg.2.2]⟩
  simp only [cons.injEq, and_true, true_and] at hparts
  obtain ⟨hparent, hindex', hkey, hsequence, hdescriptor⟩ := hparts
  exact ⟨hparent, ofNat_injective (by omega) (by omega) hindex', hkey,
    ofNat_injective hhop.2.1 hg.2.1 hsequence, hdescriptor⟩

theorem Chained.length_hashParent (h : Chained hash scope) (hlength : ∀ m, (hash m).length = 32) {n : ℕ}
    (hn : n ≤ scope.hops.length) : (hashParent hash scope n).length = 32 := by
  cases n with
  | zero => exact hlength _
  | succ n =>
    have hget : scope.hops[n]? = some scope.hops[n] := getElem?_eq_getElem hn
    rw [hashParent, hget, elim_some, ← (h.links n _ hget).scopeHash_eq]
    exact hlength _

/-- **A scope hash determines everything before it**, except signatures. -/
theorem sameRoot_of_hashParent (hA : Chained hash A) (hS : Chained hash S) (hlength : ∀ m, (hash m).length = 32)
    (hinj : Set.InjOn hash (messagesOf hash A ∪ messagesOf hash S)) {n : ℕ} (hnA : n ≤ A.hops.length)
    (hnS : n ≤ S.hops.length) (h : hashParent hash A n = hashParent hash S n) :
    SameRoot A S ∧ (A.hops.take n).map Hop.unsigned = (S.hops.take n).map Hop.unsigned := by
  induction n with
  | zero =>
    refine ⟨sameRoot_of_genesisMessage hA hS (hinj ?_ ?_ h), rfl⟩
    · exact .inl (Set.mem_insert _ _)
    · exact .inr (Set.mem_insert _ _)
  | succ n ih =>
    have hgetA : A.hops[n]? = some A.hops[n] := getElem?_eq_getElem hnA
    have hgetS : S.hops[n]? = some S.hops[n] := getElem?_eq_getElem hnS
    have hlinkA := hA.links n _ hgetA
    have hlinkS := hS.links n _ hgetS
    rw [hashParent, hashParent, hgetA, hgetS, elim_some, elim_some, ← hlinkA.scopeHash_eq,
      ← hlinkS.scopeHash_eq] at h
    have hmessage := hinj (.inl (Set.mem_insert_of_mem _ ⟨n, _, hgetA, rfl⟩))
      (.inr (Set.mem_insert_of_mem _ ⟨n, _, hgetS, rfl⟩)) h
    obtain ⟨hparent, hindex, hkey, hsequence, hdescriptor⟩ := hopMessage_injective
      (hA.length_hashParent hlength (Nat.le_of_lt hnA)) (hS.length_hashParent hlength (Nat.le_of_lt hnS))
      (hlinkA.index.trans_le hlinkA.index_le) (hlinkS.index.trans_le hlinkS.index_le)
      ⟨hlinkA.length_relayPublicKey, hlinkA.descriptorSequence_lt, hlinkA.length_descriptorHash⟩
      ⟨hlinkS.length_relayPublicKey, hlinkS.descriptorSequence_lt, hlinkS.length_descriptorHash⟩ hmessage
    obtain ⟨hroot, hbefore⟩ := ih (Nat.le_of_lt hnA) (Nat.le_of_lt hnS) hparent
    refine ⟨hroot, ?_⟩
    have hunsigned : A.hops[n].unsigned = S.hops[n].unsigned := by
      have hprevious : A.hops[n].previousScopeHash = S.hops[n].previousScopeHash := by
        rw [hlinkA.previous, hlinkS.previous, hparent]
      have hscopeHash : A.hops[n].scopeHash = S.hops[n].scopeHash := by
        rw [← hlinkA.scopeHash_eq, ← hlinkS.scopeHash_eq, h]
      simp only [Hop.unsigned, hindex, hkey, hsequence, hdescriptor, hprevious, hscopeHash]
    rw [take_add_one, take_add_one, hgetA, hgetS, map_append, map_append, hbefore]
    simp [hunsigned]

end Chains

/-! ### Runs of relays -/

structure Accepted where
  nowEpoch : ℕ
  receiver : Relay
  hopOpen : HopOpen
  routeScope : Scope

/-- A relay asks for the signature of a hop that extends a scope. -/
structure Signed where
  scope : Scope
  hop : Hop

structure Produced where
  (parentEpoch nowEpoch : ℕ)
  relay : Relay
  route : TransportRoute
  request : OpenRequest
  parent : Option ParentContext
  routeScope : Scope

structure History where
  accepted : List Accepted
  signed : List Signed
  produced : List Produced

/-- Relays accept, sign and produce scopes in any order. Neither the HopOpens nor the parent contexts need
to come from a relay. -/
inductive Run (hash : Bytes → Bytes) (hooks : Hooks) : History → Prop
  | start : Run hash hooks ⟨[], [], []⟩
  | accept {H : History} (h : Run hash hooks H) (e : Accepted)
      (haccept : verifyForwardHopOpenRouteScope hash hooks e.nowEpoch e.receiver e.hopOpen =
        .ok (createForwardedForwardParentContext e.routeScope)) :
      Run hash hooks { H with accepted := e :: H.accepted }
  | sign {H : History} (h : Run hash hooks H) (s : Signed) {nowEpoch : ℕ} {relay : Relay}
      {route : TransportRoute} {request : OpenRequest} {parent : Option ParentContext}
      (hopen : openExtension hash hooks nowEpoch relay route request parent = .ok (s.scope, s.hop)) :
      Run hash hooks { H with signed := s :: H.signed }
  | produce {H : History} (h : Run hash hooks H) (e : Produced) (sign : Sign)
      (hopen : openRouteScope hash hooks sign e.parentEpoch e.nowEpoch e.relay e.route e.request e.parent =
        .ok e.routeScope) :
      Run hash hooks { H with produced := e :: H.produced }

/-- The messages that relays have hashed. -/
def hashedMessages (hash : Bytes → Bytes) (H : History) : Set Bytes :=
  {m | (∃ e ∈ H.accepted, m ∈ messagesOf hash e.routeScope) ∨
    ∃ s ∈ H.signed, m ∈ messagesOf hash s.scope ∨
      m = hopMessage (hashParent hash s.scope s.scope.hops.length) s.hop}

/-- Signatures of honest relays are accepted for what they were asked to sign, and there is one for each
payload. -/
structure SignaturesSound (hooks : Hooks) (honest : Set Bytes) (H : History) : Prop where
  signed : ∀ publicKey ∈ honest, ∀ signature payload index scope,
    hooks.verifySignature publicKey signature payload index scope = true →
      ∃ s ∈ H.signed, s.hop.relayPublicKey = publicKey ∧ forwardRouteScopeSignaturePayload s.hop.scopeHash = payload
  unique : ∀ publicKey ∈ honest, ∀ signature signature' payload index scope scope',
    hooks.verifySignature publicKey signature payload index scope = true →
      hooks.verifySignature publicKey signature' payload index scope' = true → signature = signature'

/-- A scope is the first hops of another one, but for signatures of relays that are not honest. -/
structure FirstHops (honest : Set Bytes) (A S : Scope) (i : ℕ) : Prop where
  sameRoot : SameRoot A S
  unsigned_eq : A.hops.map Hop.unsigned = (S.hops.take i).map Hop.unsigned
  honest_eq : ∀ (j : ℕ) (hop : Hop), A.hops[j]? = some hop → hop.relayPublicKey ∈ honest → S.hops[j]? = some hop

section Runs

variable {hash : Bytes → Bytes} {hooks : Hooks} {H : History}

/-- What a relay was asked to sign is linked to a scope that is chained, and whose signatures are
accepted. -/
structure WellSigned (hash : Bytes → Bytes) (hooks : Hooks) (s : Signed) : Prop where
  chained : Chained hash s.scope
  hop : Link hash s.scope s.scope.hops.length s.hop
  unsigned : s.hop.relaySignature = []
  verified : ∀ i hop, s.scope.hops[i]? = some hop → Verified hash hooks s.scope i hop

variable {relay : Relay} {route : TransportRoute}

theorem openExtension_spec {scope : Scope} {hop : Hop}
    (h : openExtension hash hooks nowEpoch relay route request parent = .ok (scope, hop)) :
    (∀ context, parent = some context →
      verifyForwardRouteScope hash hooks nowEpoch context.routeScope = .ok context.routeScope) ∧
    route.previousRelayKey = relay.relayPublicKey ∧ checkInherited relay route parent = .ok () ∧
    Extension hash
      { relay with
        routeScope := parent.map ParentContext.routeScope
        rootRouteId := request.routeId
        rootCircuitNonce := request.circuitNonce
        rootRequestCommitment := request.requestCommitment
        maxRelayCount := route.maxRelayCount
        expiresEpoch := route.expiresEpoch } scope hop ∧ scope.hops.length < 4 := by
  simp only [openExtension, guards_eq_ok] at h
  obtain ⟨inherited, hinherited, hroute, u, hcheck, hextension⟩ := h
  obtain ⟨rfl, hverified⟩ := inheritedScope_spec hinherited
  refine ⟨hverified, hroute, hcheck, extension_of_unsignedExtension hextension, ?_⟩
  simp only [unsignedExtension, guards_eq_ok] at hextension
  obtain ⟨-, -, -, ⟨scope₀, _, _⟩, -, hlength, -, heq⟩ := hextension
  obtain ⟨rfl, -⟩ := Prod.mk.inj heq
  exact hlength.2

theorem wellSigned_of_openExtension {s : Signed}
    (h : openExtension hash hooks nowEpoch relay route request parent = .ok (s.scope, s.hop)) :
    WellSigned hash hooks s := by
  obtain ⟨hverified, -, -, hextension, hlength⟩ := openExtension_spec h
  refine ⟨?_, ⟨hextension.hopIndex_eq, by omega, hextension.range.1, hextension.range.2.1,
    hextension.range.2.2, ?_, hextension.scopeHash_eq.symm⟩, hextension.unsigned, fun i hop hi => ?_⟩
  · cases parent with
    | none =>
      obtain ⟨hid, hnonce, hcommitment, hmax, hexpires⟩ := hextension.root_range rfl
      refine ⟨hid, hnonce, hcommitment, hmax, hexpires, fun i hop hi => ?_⟩
      rw [(hextension.root_eq rfl).2.2.2.2.2] at hi
      cases hi
    | some context =>
      rw [(hextension.scope_eq _ rfl).1]
      exact chained_of_verified (hverified context rfl)
  · rw [hextension.previous_eq]
    simp only [length_eq_zero_iff]
  · cases parent with
    | none =>
      rw [(hextension.root_eq rfl).2.2.2.2.2] at hi
      cases hi
    | some context =>
      rw [(hextension.scope_eq _ rfl).1] at hi ⊢
      exact (verifyForwardRouteScope_spec (hverified context rfl)).2.2.2 i hop hi

theorem wellSigned_of_run (h : Run hash hooks H) : ∀ s ∈ H.signed, WellSigned hash hooks s := by
  induction h with
  | start => exact nofun
  | accept _ _ _ ih => exact ih
  | sign _ s hopen ih =>
    intro s' hs'
    rcases mem_cons.mp hs' with rfl | hs'
    · exact wellSigned_of_openExtension hopen
    · exact ih s' hs'
  | produce _ _ _ _ ih => exact ih

theorem accepted_of_run (h : Run hash hooks H) : ∀ e ∈ H.accepted,
    verifyForwardHopOpenRouteScope hash hooks e.nowEpoch e.receiver e.hopOpen =
      .ok (createForwardedForwardParentContext e.routeScope) := by
  induction h with
  | start => exact nofun
  | accept _ e haccept ih =>
    intro e' he'
    rcases mem_cons.mp he' with rfl | he'
    · exact haccept
    · exact ih e' he'
  | sign _ _ _ ih | produce _ _ _ _ ih => exact ih

theorem produced_of_run (h : Run hash hooks H) : ∀ e ∈ H.produced, ∃ sign,
    openRouteScope hash hooks sign e.parentEpoch e.nowEpoch e.relay e.route e.request e.parent =
      .ok e.routeScope := by
  induction h with
  | start => exact nofun
  | accept _ _ _ ih | sign _ _ _ ih => exact ih
  | produce _ e sign hopen ih =>
    intro e' he'
    rcases mem_cons.mp he' with rfl | he'
    · exact ⟨sign, hopen⟩
    · exact ih e' he'

theorem getElem?_of_unsigned_eq {hops hops' : List Hop} {i j : ℕ} {hop : Hop}
    (h : hops.map Hop.unsigned = (hops'.take i).map Hop.unsigned) (hj : hops[j]? = some hop) :
    ∃ hop', hops'[j]? = some hop' ∧ hop.unsigned = hop'.unsigned := by
  have heq : (hops.map Hop.unsigned)[j]? = ((hops'.take i).map Hop.unsigned)[j]? := by rw [h]
  rw [getElem?_map, getElem?_map, hj, map_some] at heq
  obtain ⟨hop', hmem, hunsigned⟩ := map_eq_some_iff.mp heq.symm
  rw [getElem?_take] at hmem
  split at hmem
  · exact ⟨hop', hmem, hunsigned.symm⟩
  · cases hmem

/-- **A hop of an honest relay** stands behind what the relay extended. -/
theorem prefix_of_accepted {scope : Scope} (hverify : verifyForwardRouteScope hash hooks nowEpoch scope = .ok scope)
    (hlength : ∀ m, (hash m).length = 32) {honest : Set Bytes} (hsound : SignaturesSound hooks honest H)
    (hsigned : ∀ s ∈ H.signed, WellSigned hash hooks s) (hinj : Set.InjOn hash (hashedMessages hash H))
    (hmessages : messagesOf hash scope ⊆ hashedMessages hash H) {i : ℕ} {hop : Hop}
    (hi : scope.hops[i]? = some hop) (hhonest : hop.relayPublicKey ∈ honest) :
    ∃ s ∈ H.signed, FirstHops honest s.scope scope i ∧ s.hop = hop.unsigned := by
  obtain ⟨-, -, -, hverified⟩ := verifyForwardRouteScope_spec hverify
  have hchained := chained_of_verified hverify
  have hlink := hchained.links i hop hi
  obtain ⟨s, hs, hkey, hpayload⟩ := hsound.signed _ hhonest _ _ _ _ (hverified i hop hi).signature
  have hwell := hsigned s hs
  have hscopeHash : s.hop.scopeHash = hop.scopeHash := by
    rw [forwardRouteScopeSignaturePayload, forwardRouteScopeSignaturePayload, ← hlink.scopeHash_eq,
      ← hwell.hop.scopeHash_eq] at hpayload
    rw [← hlink.scopeHash_eq, ← hwell.hop.scopeHash_eq]
    refine (List.append_inj hpayload ?_).2
    simp
  have hi' := (List.getElem?_eq_some_iff.mp hi).1
  have hmessage : hopMessage (hashParent hash s.scope s.scope.hops.length) s.hop =
      hopMessage (hashParent hash scope i) hop := by
    refine hinj (.inr ⟨s, hs, .inr rfl⟩) (hmessages (.inr ⟨i, hop, hi, rfl⟩)) ?_
    show forwardRouteScopeHopHash hash _ _ = forwardRouteScopeHopHash hash _ _
    rw [hwell.hop.scopeHash_eq, hlink.scopeHash_eq, hscopeHash]
  obtain ⟨hparent, hindex, hkey', hsequence, hdescriptor⟩ := hopMessage_injective
    (hwell.chained.length_hashParent hlength le_rfl)
    (hchained.length_hashParent hlength (Nat.le_of_lt hi')) (hwell.hop.index.trans_le hwell.hop.index_le)
    (hlink.index.trans_le hlink.index_le)
    ⟨hwell.hop.length_relayPublicKey, hwell.hop.descriptorSequence_lt, hwell.hop.length_descriptorHash⟩
    ⟨hlink.length_relayPublicKey, hlink.descriptorSequence_lt, hlink.length_descriptorHash⟩ hmessage
  have hposition : s.scope.hops.length = i := by
    rw [← hwell.hop.index, hindex, hlink.index]
  rw [hposition] at hparent
  obtain ⟨hroot, hbefore⟩ := sameRoot_of_hashParent hwell.chained hchained hlength
    (hinj.mono (Set.union_subset (fun m hm => .inr ⟨s, hs, .inl hm⟩) hmessages)) hposition.ge
    (Nat.le_of_lt hi') hparent
  have hfirst : s.scope.hops.map Hop.unsigned = (scope.hops.take i).map Hop.unsigned := by
    rw [← hbefore, ← hposition, take_length]
  refine ⟨s, hs, ⟨hroot, hfirst, fun j g hg hhonest' => ?_⟩, ?_⟩
  · obtain ⟨g', hg', hunsigned⟩ := getElem?_of_unsigned_eq hfirst hg
    -- the two signatures are for the same payload
    have hfields := Hop.mk.inj hunsigned
    have hsignature : g.relaySignature = g'.relaySignature := by
      have haccepted := (hverified j g' hg').signature
      rw [← hfields.2.1, ← hfields.2.2.2.2.2.1] at haccepted
      exact hsound.unique _ hhonest' _ _ _ _ _ _ (hwell.verified j g hg).signature haccepted
    rw [hg', Hop.eq_of_unsigned_eq hunsigned hsignature]
  · have hprevious : s.hop.previousScopeHash = hop.previousScopeHash := by
      rw [hwell.hop.previous, hlink.previous, hposition, hparent]
    rw [show s.hop = s.hop.unsigned by rw [Hop.unsigned, ← hwell.unsigned]]
    simp only [Hop.unsigned, hindex, hkey', hsequence, hdescriptor, hprevious, hscopeHash]

/-- The scope that an open extends, or that it begins with. -/
def Produced.Extends (e : Produced) (hop : Hop) : Prop :=
  match e.parent with
  | some context => e.routeScope = { context.routeScope with hops := context.routeScope.hops ++ [hop] }
  | none => e.routeScope.rootRouteId = e.request.routeId ∧
      e.routeScope.rootCircuitNonce = e.request.circuitNonce ∧
        e.routeScope.rootRequestCommitment = e.request.requestCommitment ∧
          e.routeScope.maxRelayCount = e.route.maxRelayCount ∧
            e.routeScope.expiresEpoch = e.route.expiresEpoch ∧ e.routeScope.hops = [hop]

def priorHops (inherited : Option ParentContext) : List Hop :=
  inherited.elim [] fun context => context.routeScope.hops

theorem checkInherited_spec {inherited : Option ParentContext} (h : checkInherited relay route inherited = .ok ()) :
    (∀ context, inherited = some context → route.maxRelayCount = context.routeScope.maxRelayCount ∧
      route.expiresEpoch = context.routeScope.expiresEpoch) ∧
    relay.relayPublicKey ∉ relayKeys (priorHops inherited) ∧ route.nextRelayKey ≠ relay.relayPublicKey ∧
        route.nextRelayKey ∉ relayKeys (priorHops inherited) := by
  cases inherited with
  | none =>
    simp only [checkInherited, guards_eq_ok] at h
    refine ⟨fun _ hsome => ?_, h⟩
    cases hsome
  | some context =>
    simp only [checkInherited, guards_eq_ok] at h
    obtain ⟨-, hmax, hexpires, -, hprior⟩ := h
    refine ⟨fun context' hsome => ?_, hprior⟩
    cases hsome
    exact ⟨hmax, hexpires⟩

structure TransportRoute.LeadsTo (route : TransportRoute) (receiver : Relay) : Prop where
  relayPublicKey : route.nextRelayKey = receiver.relayPublicKey
  descriptor : route.nextDescriptorSequence = receiver.descriptorSequence ∧
    route.nextDescriptorHash = receiver.descriptorHash
  range : receiver.relayPublicKey.length = 32 ∧ receiver.descriptorSequence < 2 ^ 64 ∧
    receiver.descriptorHash.length = 32

/-- The HopOpen that a relay sends for what it produced. -/
def Produced.hopOpen (e : Produced) : HopOpen where
  __ := e
  previousDescriptorSequence := e.relay.descriptorSequence
  previousDescriptorHash := e.relay.descriptorHash

/-- **What a relay produces** extends what it inherited by its own hop, and the next relay accepts it until
it expires. -/
theorem produced_spec {e : Produced} {sign : Sign}
    (h : openRouteScope hash hooks sign e.parentEpoch e.nowEpoch e.relay e.route e.request e.parent =
      .ok e.routeScope) :
    (∃ hop, hop.relayPublicKey = e.relay.relayPublicKey ∧ e.Extends hop) ∧
    ∀ receiver laterEpoch, e.route.LeadsTo receiver → laterEpoch < e.routeScope.expiresEpoch →
      verifyForwardHopOpenRouteScope hash hooks laterEpoch receiver e.hopOpen =
        .ok (createForwardedForwardParentContext e.routeScope) := by
  simp only [openRouteScope, guards_eq_ok] at h
  obtain ⟨⟨scope, hop⟩, hopen, produced, hsign, verified, hverify, ⟨-, hbound⟩, hverified⟩ := h
  obtain ⟨heq, hcanonical, -, -⟩ := verifyForwardRouteScope_spec hverify
  obtain rfl : produced = e.routeScope := heq.symm.trans hverified
  rw [hverified] at hverify hbound
  obtain ⟨-, hroute, hcheck, hextension, -⟩ := openExtension_spec hopen
  obtain ⟨relaySignature, hproduced, -⟩ := signExtension_spec hsign
  obtain ⟨hfields, hprior⟩ := checkInherited_spec hcheck
  have hscope : scope.hops = priorHops e.parent ∧ e.route.maxRelayCount = scope.maxRelayCount ∧
      e.route.expiresEpoch = scope.expiresEpoch := by
    cases hparent : e.parent with
    | none =>
      obtain ⟨-, -, -, hmax, hexpires, hhops⟩ := hextension.root_eq (by rw [hparent]; rfl)
      exact ⟨hhops, hmax.symm, hexpires.symm⟩
    | some context =>
      have hsame : scope = context.routeScope :=
        (hextension.scope_eq context.routeScope (by rw [hparent]; rfl)).1
      rw [hsame]
      exact ⟨rfl, hfields context hparent⟩
  refine ⟨⟨{ hop with relaySignature := relaySignature }, hextension.relay_eq.1, ?_⟩,
    fun receiver laterEpoch hleads hlater => ?_⟩
  · unfold Produced.Extends
    rw [hproduced]
    split
    · next context hparent =>
      have hsame : scope = context.routeScope :=
        (hextension.scope_eq context.routeScope (by rw [hparent]; rfl)).1
      rw [hsame]
    · next hparent =>
      obtain ⟨hid, hnonce, hcommitment, hmax, hexpires, hhops⟩ := hextension.root_eq (by rw [hparent]; rfl)
      exact ⟨hid, hnonce, hcommitment, hmax, hexpires, by rw [hhops]; rfl⟩
  · have hends : EndsAt e.routeScope e.route.previousRelayKey e.relay.descriptorSequence
        e.relay.descriptorHash := by
      refine ⟨{ hop with relaySignature := relaySignature }, ?_, hextension.relay_eq.1.trans hroute.symm,
        hextension.relay_eq.2⟩
      rw [hproduced]
      exact getLast?_concat
    have hcycle : receiver.relayPublicKey ∉ relayKeys e.routeScope.hops := by
      rw [hproduced, ← hleads.relayPublicKey]
      show e.route.nextRelayKey ∉ relayKeys (scope.hops ++ [_])
      rw [relayKeys, map_append, mem_append, hscope.1, not_or]
      refine ⟨hprior.2.2, fun hlast => hprior.2.1 ?_⟩
      rw [mem_singleton.mp hlast]
      exact hextension.relay_eq.1
    have hcanonicalScope : canonicalScope e.routeScope = .ok e.routeScope := by
      simp only [verifyForwardRouteScope, guards_eq_ok] at hverify
      obtain ⟨-, scope₀, hok, -, -, -, rfl⟩ := hverify
      exact hok
    have hopenOk : canonicalHopOpen e.hopOpen = .ok e.hopOpen := by
      simp only [canonicalHopOpen, guards_eq_ok]
      exact ⟨_, hcanonicalScope, hends, hbound, rfl⟩
    have hmax : e.routeScope.maxRelayCount = e.route.maxRelayCount := by
      rw [hproduced]
      exact hscope.2.1.symm
    have hexpires : e.route.expiresEpoch = e.routeScope.expiresEpoch := by
      rw [hproduced]
      exact hscope.2.2
    simp only [verifyForwardHopOpenRouteScope, guards_eq_ok]
    exact ⟨_, hopenOk, hleads.range.1, hleads.range.2.1, hleads.range.2.2, hleads.relayPublicKey,
      hleads.descriptor, _, verifyForwardRouteScope_later hverify hlater, hmax, hexpires, hends, hcycle, rfl⟩

/-- **Route scopes cannot loop or grow.** A scope that a relay accepts has each relay once and not the
relay itself, and has at most as many hops as its root says; what is before a hop of an honest relay is
what that relay extended. A scope that a relay produces is the one that it inherited with its own hop at
the end, and the next relay accepts it as long as it has not expired. -/
theorem route_scope_chain (h : Run hash hooks H) (hlength : ∀ m, (hash m).length = 32)
    {honest : Set Bytes} (hsound : SignaturesSound hooks honest H)
    (hinj : Set.InjOn hash (hashedMessages hash H)) :
    (∀ e ∈ H.accepted, (relayKeys e.routeScope.hops).Nodup ∧ e.receiver.relayPublicKey ∉ relayKeys e.routeScope.hops ∧
      e.routeScope.hops.length ≤ e.routeScope.maxRelayCount ∧ e.routeScope.maxRelayCount ≤ 4 ∧
      ∀ i hop, e.routeScope.hops[i]? = some hop → hop.relayPublicKey ∈ honest →
        ∃ s ∈ H.signed, FirstHops honest s.scope e.routeScope i ∧ s.hop = hop.unsigned) ∧
    (∀ e ∈ H.produced, (∃ hop, hop.relayPublicKey = e.relay.relayPublicKey ∧ e.Extends hop) ∧
      ∀ receiver laterEpoch, e.route.LeadsTo receiver → laterEpoch < e.routeScope.expiresEpoch →
        verifyForwardHopOpenRouteScope hash hooks laterEpoch receiver e.hopOpen =
          .ok (createForwardedForwardParentContext e.routeScope)) := by
  refine ⟨fun e he => ?_, fun e he => ?_⟩
  · obtain ⟨hverify, -, hcycle⟩ := verifyForwardHopOpenRouteScope_spec (accepted_of_run h e he)
    obtain ⟨-, hcanonical, -⟩ := verifyForwardRouteScope_spec hverify
    exact ⟨hcanonical.nodup, hcycle, hcanonical.length_le, hcanonical.maxRelayCount_le,
      fun i hop hi hhonest => prefix_of_accepted hverify hlength hsound (wellSigned_of_run h) hinj
        (fun m hm => .inl ⟨e, he, hm⟩) hi hhonest⟩
  · obtain ⟨sign, hopen⟩ := produced_of_run h e he
    exact produced_spec hopen

/-! ### A relay that opens a route -/

section Sample

open Quota

def sampleRelay (n : UInt8) : Relay := ⟨replicate 32 n, 1, replicate 32 n⟩

/-- A route from the first relay to the second that expires at epoch 2. -/
def sampleRoute : TransportRoute where
  previousRelayKey := replicate 32 1
  nextRelayKey := replicate 32 2
  nextDescriptorSequence := 1
  nextDescriptorHash := replicate 32 2
  maxRelayCount := 2
  expiresEpoch := 2

def sampleRequest : OpenRequest where
  routeId := replicate 16 9
  circuitNonce := replicate 32 9
  parentRouteScopeHash := replicate 32 0
  requestCommitment := replicate 32 9

def sampleRoot : Scope where
  version := 1
  rootRouteId := replicate 16 9
  rootCircuitNonce := replicate 32 9
  rootRequestCommitment := replicate 32 9
  maxRelayCount := 2
  expiresEpoch := 2
  hops := []

def sampleHop : Hop :=
  let hop : Hop :=
    { hopIndex := 0
      relayPublicKey := replicate 32 1
      descriptorSequence := 1
      descriptorHash := replicate 32 1
      previousScopeHash := replicate 32 0
      scopeHash := []
      relaySignature := [] }
  let parent := forwardRouteScopeGenesisHash Blake2b.hash sampleRoot
  { hop with scopeHash := forwardRouteScopeHopHash Blake2b.hash parent hop }

/-- The signature of the first relay for its hop. -/
def sampleSignature : Bytes := replicate 64 7

/-- The signature of the sample hop is the only one. -/
def sampleHooks : Hooks where
  verifyDescriptorBinding _ _ _ _ _ := true
  verifySignature publicKey signature payload _ _ := decide (publicKey = sampleHop.relayPublicKey ∧
    signature = sampleSignature ∧ payload = forwardRouteScopeSignaturePayload sampleHop.scopeHash)

def sampleScope : Scope :=
  { sampleRoot with hops := [{ sampleHop with relaySignature := sampleSignature }] }

def sampleProduced : Produced where
  parentEpoch := 1
  nowEpoch := 1
  relay := sampleRelay 1
  route := sampleRoute
  request := sampleRequest
  parent := none
  routeScope := sampleScope

theorem opened_sample : openExtension Blake2b.hash sampleHooks 1 (sampleRelay 1) sampleRoute sampleRequest none =
        .ok (sampleRoot, sampleHop) ∧
      openRouteScope Blake2b.hash sampleHooks (fun _ _ _ => .ok sampleSignature) 1 1 (sampleRelay 1)
        sampleRoute sampleRequest none = .ok sampleScope ∧
      verifyForwardHopOpenRouteScope Blake2b.hash sampleHooks 1 (sampleRelay 2) sampleProduced.hopOpen =
        .ok (createForwardedForwardParentContext sampleScope) := by
  decide +kernel

/-- The route from the second relay to a third. -/
def continuedRoute : TransportRoute where
  previousRelayKey := replicate 32 2
  nextRelayKey := replicate 32 3
  nextDescriptorSequence := 1
  nextDescriptorHash := replicate 32 3
  maxRelayCount := 2
  expiresEpoch := 2

/-- The hop that the second relay signs. -/
def continuedHop : Hop :=
  let hop : Hop :=
    { hopIndex := 1
      relayPublicKey := replicate 32 2
      descriptorSequence := 1
      descriptorHash := replicate 32 2
      previousScopeHash := sampleHop.scopeHash
      scopeHash := []
      relaySignature := [] }
  { hop with scopeHash := forwardRouteScopeHopHash Blake2b.hash sampleHop.scopeHash hop }

/-- The first relay signs as often as it likes, the second one only once. -/
def resigningHooks : Hooks where
  verifyDescriptorBinding _ _ _ _ _ := true
  verifySignature publicKey signature payload _ _ := decide (publicKey = sampleHop.relayPublicKey ∨
    publicKey = continuedHop.relayPublicKey ∧ signature = sampleSignature ∧
      payload = forwardRouteScopeSignaturePayload continuedHop.scopeHash)

/-- What a third relay is shown: the first hop has another signature. -/
def resignedHopOpen : HopOpen where
  route := continuedRoute
  routeScope :=
    { sampleRoot with
      hops := [{ sampleHop with relaySignature := replicate 64 8 },
        { continuedHop with relaySignature := sampleSignature }] }
  previousDescriptorSequence := 1
  previousDescriptorHash := replicate 32 2

/-- The next relay does not accept what was produced when it has expired, and it accepts a scope with
another signature on a hop before the one of an honest relay. -/
theorem produced_expires_and_resigned :
    (openRouteScope Blake2b.hash sampleHooks (fun _ _ _ => .ok sampleSignature) 1 1 (sampleRelay 1)
        sampleRoute sampleRequest none = .ok sampleProduced.routeScope ∧
      verifyForwardHopOpenRouteScope Blake2b.hash sampleHooks 2 (sampleRelay 2) sampleProduced.hopOpen =
        .error ⟨.expired, "FORWARD route scope is expired"⟩) ∧
    openExtension Blake2b.hash resigningHooks 1 (sampleRelay 2) continuedRoute
        { sampleRequest with parentRouteScopeHash := sampleHop.scopeHash }
        (some (createForwardedForwardParentContext sampleScope)) = .ok (sampleScope, continuedHop) ∧
      verifyForwardHopOpenRouteScope Blake2b.hash resigningHooks 1 (sampleRelay 3) resignedHopOpen =
        .ok (createForwardedForwardParentContext resignedHopOpen.routeScope) ∧
      resignedHopOpen.routeScope.hops[0]? ≠ sampleScope.hops[0]? := by
  exact ⟨⟨opened_sample.2.1, by decide +kernel⟩, by decide +kernel, by decide +kernel, by decide +kernel⟩

/-- The first relay produces a scope and the second accepts it. -/
def sampleHistory : History where
  accepted := [⟨1, sampleRelay 2, sampleProduced.hopOpen, sampleScope⟩]
  signed := [⟨sampleRoot, sampleHop⟩]
  produced := [sampleProduced]

theorem run_sample : Run Blake2b.hash sampleHooks sampleHistory :=
  .accept (H := ⟨[], [⟨sampleRoot, sampleHop⟩], [sampleProduced]⟩)
    (.produce (.sign .start ⟨sampleRoot, sampleHop⟩ opened_sample.1) sampleProduced _
      opened_sample.2.1) ⟨1, sampleRelay 2, sampleProduced.hopOpen, sampleScope⟩ opened_sample.2.2

theorem hashedMessages_sample : hashedMessages Blake2b.hash sampleHistory ⊆
    {genesisMessage sampleRoot, hopMessage (hashParent Blake2b.hash sampleRoot 0) sampleHop} := by
  rintro m (⟨e, he, hm⟩ | ⟨s, hs, hm⟩)
  · obtain rfl := mem_singleton.mp he
    rcases hm with rfl | ⟨i, hop, hi, rfl⟩
    · exact .inl rfl
    · obtain ⟨hlt, rfl⟩ := List.getElem?_eq_some_iff.mp hi
      obtain rfl : i = 0 := Nat.lt_one_iff.mp hlt
      exact .inr rfl
  · obtain rfl := mem_singleton.mp hs
    rcases hm with (rfl | ⟨i, hop, hi, -⟩) | rfl
    · exact .inl rfl
    · cases hi
    · exact .inr rfl

theorem injOn_hashedMessages_sample : Set.InjOn Blake2b.hash (hashedMessages Blake2b.hash sampleHistory) := by
  have hne : Blake2b.hash (genesisMessage sampleRoot) ≠
      Blake2b.hash (hopMessage (hashParent Blake2b.hash sampleRoot 0) sampleHop) := by
    decide +kernel
  refine Set.InjOn.mono hashedMessages_sample ?_
  rintro a (rfl | rfl) b (rfl | rfl) heq
  · rfl
  · exact absurd heq hne
  · exact absurd heq.symm hne
  · rfl

theorem signaturesSound_sample : SignaturesSound sampleHooks {sampleHop.relayPublicKey} sampleHistory := by
  constructor
  · intro publicKey _ signature payload index scope h
    obtain ⟨rfl, -, rfl⟩ := of_decide_eq_true h
    exact ⟨_, mem_singleton_self _, rfl, rfl⟩
  · intro publicKey _ signature signature' payload index scope scope' h h'
    obtain ⟨-, rfl, -⟩ := of_decide_eq_true h
    obtain ⟨-, rfl, -⟩ := of_decide_eq_true h'
    rfl

/-- The second relay has a scope that is the one the first relay extended, with the hop that it signed. -/
theorem route_scope_chain_sample : (relayKeys sampleScope.hops).Nodup ∧
    (sampleRelay 2).relayPublicKey ∉ relayKeys sampleScope.hops ∧
    (∃ s ∈ sampleHistory.signed, FirstHops {sampleHop.relayPublicKey} s.scope sampleScope 0 ∧
      s.hop = sampleHop.unsigned) ∧
    verifyForwardHopOpenRouteScope Blake2b.hash sampleHooks 0 (sampleRelay 2) sampleProduced.hopOpen =
      .ok (createForwardedForwardParentContext sampleScope) := by
  obtain ⟨haccepted, hproduced⟩ := route_scope_chain run_sample Blake2b.length_hash signaturesSound_sample
    injOn_hashedMessages_sample
  obtain ⟨hnodup, hreceiver, -, -, hhonest⟩ := haccepted _ (mem_singleton_self _)
  refine ⟨hnodup, hreceiver, hhonest 0 { sampleHop with relaySignature := sampleSignature } rfl rfl, ?_⟩
  exact (hproduced _ (mem_singleton_self _)).2 (sampleRelay 2) 0 (by constructor <;> decide) (by decide)

end Sample

end Runs

end HiveRelay.Route
