import HiveRelay.Cell.AtomicPuts
import HiveRelay.Cell.Index
import HiveRelay.Lib.EventLoop

/-!
# The engine on its event loop

What the operations of the engine find around them: an abort signal that only fires while a call
waits, clock readings and I/O results that may be anything, and a log that applies a request to the
state as it is when its turn comes, leaves a fenced request out when its caller has aborted, or
fails.
-/

set_option linter.unusedSectionVars false

namespace HiveRelay.Cell

variable {B : Type} [LinearOrder B] [Zero B]

instance : DecidableEq (signature B).Key := inferInstanceAs (DecidableEq (LockKey B))

/-- The answer to a question: the signal is what it is, and the rest is up to the outside. -/
def answerTo (aborted : Bool) : (q : Query) → q.Answer B → q.Answer B
  | .aborted, _ => aborted
  | .now, raw | .transactionId, raw | .fence, raw | .stageOpaque, raw | .publishOpaque, raw
  | .readOpaque, raw | .discardStaged, raw | .removeOpaque, raw | .acknowledged, raw
  | .next, raw => raw

inductive Fate where
  /-- It is written, synced and applied. -/
  | applied
  /-- It is rejected, by a failure of the log. -/
  | failed (error : Failure)

/-- The tag of the reservation that a payload ends. -/
def Payload.ends? : Payload B → Option B
  | .putCommitted v => some v.spendTag
  | .putTerminal v => some v.spendTag
  | _ => none

/-- `entry.inFlight = false` in `#applyPut` and `#applyTerminal`. -/
def Engine.endInFlight (e : Engine B) (payload : Payload B) : List ℕ :=
  match payload.ends?.bind e.state.spends.get? with
  | some entry => e.inFlight.filter (· ≠ entry.reservedWalSequence)
  | none => e.inFlight

/-- The engine after a frame has been applied. -/
def Engine.applied (e : Engine B) (r : WalRequest B) (state : State B) : Engine B :=
  { e with
    state := state
    inFlight := e.endInFlight r.payload
    walSequence := e.walSequence + 1 }

section Log

variable (cfg : Config B)

/-- The log settles a request: it gets the next sequence number and is applied to the state as it is
now. -/
def settleRequest (e : Engine B) (r : WalRequest B) : Fate → Option (Engine B × Except Failure Unit)
  | .applied =>
    match applyFrame cfg e.state ⟨r.toAppendRequest, e.walSequence + 1⟩ e.atomicStaging false with
    | .ok state => some (e.applied r state, .ok ())
    | .error error => some ({ e with walSequence := e.walSequence + 1 }, .error error)
  | .failed error => some (e, .error error)

/-- The `prewriteFence` of a caller that has aborted. -/
def ejectRequest (aborted : Bool) (r : WalRequest B) : Option (Except Failure Unit) :=
  if aborted && r.fenced then
    some (.error (failure .internal "CELL PUT crossed its authenticated abort fence"))
  else none

/-- The surroundings of the engine's tasks. `V` is what is recorded of a task: whether its signal has
fired, and what a proof wants to know of its past. -/
def cellSurroundings (V : Type) (aborted : V → Bool) (abort : V → V)
    (asked : Engine B → V → (q : Query) → q.Answer B → V) (wrote : V → Engine B → Engine B → V)
    (replied : V → WalRequest B → Except Failure Unit → V) :
    Surroundings (signature B) V Fate Unit where
  answer _ v q raw := answerTo (aborted v) q raw
  asked := asked
  wrote := wrote
  settle e _ r f := settleRequest cfg e r f
  eject v r := ejectRequest (aborted v) r
  replied := replied
  change v _ := abort v

end Log

theorem settleRequest_eq_some {cfg : Config B} {e e' : Engine B} {r : WalRequest B} {f : Fate}
    {reply : Except Failure Unit} (h : settleRequest cfg e r f = some (e', reply)) :
    (∃ state, applyFrame cfg e.state ⟨r.toAppendRequest, e.walSequence + 1⟩ e.atomicStaging false =
        .ok state ∧ e' = e.applied r state ∧ reply = .ok ()) ∨
      (∃ error, reply = .error error ∧ (e' = e ∨ e' = { e with walSequence := e.walSequence + 1 })) := by
  cases f with
  | applied =>
    simp only [settleRequest] at h
    split at h
    · rename_i state hstate
      obtain ⟨rfl, rfl⟩ := Prod.mk.inj (Option.some.inj h)
      exact .inl ⟨state, hstate, rfl, rfl⟩
    · rename_i error _
      obtain ⟨rfl, rfl⟩ := Prod.mk.inj (Option.some.inj h)
      exact .inr ⟨error, rfl, .inr rfl⟩
  | failed error =>
    obtain ⟨rfl, rfl⟩ := Prod.mk.inj (Option.some.inj h)
    exact .inr ⟨error, rfl, .inl rfl⟩

/-! ### Rules -/

section Rules

variable {M α β : Type} {L : Logic (signature B) M} {Q : Except Failure β → M → Prop} {m : M}

theorem wp_engine_bind {f : Engine B → CellOp B β} :
    wp L (engine >>= f : CellOp B β) Q m ↔ wp L (f (L.store m)) Q m := Iff.rfl

theorem wp_modify_bind {update : Engine B → Engine B} {f : Unit → CellOp B β} :
    wp L (modify update >>= f : CellOp B β) Q m ↔
      L.writable m (update (L.store m)) ∧ wp L (f ()) Q (L.set m (update (L.store m))) := Iff.rfl

theorem wp_modify {update : Engine B → Engine B} {Q : Except Failure Unit → M → Prop} :
    wp L (modify update : CellOp B Unit) Q m ↔
      L.writable m (update (L.store m)) ∧ Q (.ok ()) (L.set m (update (L.store m))) := Iff.rfl

theorem wp_bind_op {p : CellOp B α} {f : α → CellOp B β} :
    wp L (p >>= f : CellOp B β) Q m ↔ wp L p (Op.cont L f Q) m := Op.wp_op_bind

end Rules

/-! ### A sample engine -/

/-- What the outside has to say, at the beginning of epoch 10, when nothing goes wrong. -/
def sampleAnswer : (q : Query) → q.Answer ℕ
  | .now => (216000000 : ℕ)
  | .transactionId => (51 : ℕ)
  | .aborted => false
  | .fence => FenceResult.accepted
  | .stageOpaque => StageResult.staged
  | .publishOpaque => (.ok 61 : Except Failure ℕ)
  | .readOpaque => ReadResult.body
  | .discardStaged | .acknowledged => (.ok () : Except Failure Unit)
  | .removeOpaque => ()
  | .next => (none : Option ℕ)

def sampleRequest : PutRequest ℕ where
  storageSlot := sampleSlot
  allocationEpoch := 10
  sizeClass := 1
  leaseClass := 1
  clientNonce := 0
  declaredBlobHash := 41
  createPublicKey := 31
  renewPublicKey := 32
  dropPublicKey := 33
  createSignature := 3

/-- An engine that has just been opened on an empty store, in epoch 10. -/
def sampleEngine : Engine ℕ where
  state := { State.empty ℕ with epochFloor := 10 }
  inFlight := []
  atomicStaging := .empty
  retained := []
  walSequence := 1
  activeOperations := 0
  closing := false
  snapshotting := false
  operations := 0
  published := []
  appended := []

end HiveRelay.Cell
