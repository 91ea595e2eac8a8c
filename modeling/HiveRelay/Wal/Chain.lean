import HiveRelay.Wal.Recovery

/-!
# Chains of written frames

What a store writes is a chain: consecutive sequence numbers, each frame naming the hash of the one
before it, all with the store's own bindings. A crash leaves such a chain on disk up to some byte.
This file says what the walker of `#scanSegmentFrames` makes of it: every whole frame is handed to
the callback, in order, and what is left of the next one is a torn tail.
-/

namespace HiveRelay.Wal

open List
open Bytes

/-! ### Chains -/

/-- `v` carries the bindings of the store and is accepted by its encoder. -/
structure WrittenBy (B : StoreBindings) (v : WalFrameValue) : Prop where
  encodable : v.Encodable B.maximumWalPayloadBytes
  mapGeneration : v.mapGeneration = B.mapGeneration
  ownerFenceTokenHash : v.ownerFenceTokenHash = B.ownerFenceTokenHash
  durabilityContinuityHash : v.durabilityContinuityHash = B.durabilityContinuityHash

/-- The hash the next frame has to name. -/
def WalFrameValue.walHash (H : Blake2b256) (v : WalFrameValue) : Bytes :=
  frameHash H (frameBytes H v)

@[simp] theorem length_walHash (H : Blake2b256) (v : WalFrameValue) : (v.walHash H).length = 32 :=
  length_frameHash _ _

/-- Frames written one after the other, from a sequence number and a predecessor hash on. -/
def IsChain (H : Blake2b256) (B : StoreBindings) : ℕ → Bytes → List WalFrameValue → Prop
  | _, _, [] => True
  | sequence, previous, v :: rest => v.sequence = sequence ∧ v.previousWalHash = previous ∧
      WrittenBy B v ∧ IsChain H B (sequence + 1) (v.walHash H) rest

/-- The hash at the end of a chain that starts at `previous`. -/
def chainHash (H : Blake2b256) (previous : Bytes) (frames : List WalFrameValue) : Bytes :=
  frames.foldl (fun _ v => v.walHash H) previous

/-- The bytes of the frames, one after the other. -/
def chainBytes (H : Blake2b256) (frames : List WalFrameValue) : Bytes :=
  frames.flatMap (frameBytes H)

section Chain

variable {H : Blake2b256} {B : StoreBindings}

@[simp] theorem chainBytes_nil : chainBytes H [] = [] := rfl

@[simp] theorem chainBytes_cons (v : WalFrameValue) (rest : List WalFrameValue) :
    chainBytes H (v :: rest) = frameBytes H v ++ chainBytes H rest := rfl

@[simp] theorem chainBytes_append (a b : List WalFrameValue) :
    chainBytes H (a ++ b) = chainBytes H a ++ chainBytes H b := flatMap_append

@[simp] theorem chainHash_nil (previous : Bytes) : chainHash H previous [] = previous := rfl

@[simp] theorem chainHash_cons (previous : Bytes) (v : WalFrameValue) (rest : List WalFrameValue) :
    chainHash H previous (v :: rest) = chainHash H (v.walHash H) rest := rfl

@[simp] theorem chainHash_append (previous : Bytes) (a b : List WalFrameValue) :
    chainHash H previous (a ++ b) = chainHash H (chainHash H previous a) b :=
  foldl_append

variable {sequence : ℕ} {previous : Bytes}

theorem isChain_append {a b : List WalFrameValue} :
    IsChain H B sequence previous (a ++ b) ↔ IsChain H B sequence previous a ∧
      IsChain H B (sequence + a.length) (chainHash H previous a) b := by
  induction a generalizing sequence previous with
  | nil => simp [IsChain]
  | cons v a ih =>
    simp only [cons_append, IsChain, ih, length_cons, chainHash_cons,
      Nat.add_right_comm sequence 1, Nat.add_assoc, and_assoc]

variable {frames : List WalFrameValue} {v : WalFrameValue}

theorem IsChain.writtenBy (h : IsChain H B sequence previous frames) (hv : v ∈ frames) :
    WrittenBy B v := by
  induction frames generalizing sequence previous with
  | nil => cases hv
  | cons w frames ih =>
    obtain ⟨-, -, hw, hrest⟩ := h
    rcases mem_cons.mp hv with rfl | hv
    · exact hw
    · exact ih hrest hv

theorem IsChain.map_sequence (h : IsChain H B sequence previous frames) :
    frames.map WalFrameValue.sequence = List.range' sequence frames.length := by
  induction frames generalizing sequence previous with
  | nil => rfl
  | cons v frames ih =>
    obtain ⟨hseq, -, -, hrest⟩ := h
    rw [map_cons, hseq, ih hrest, length_cons, range'_succ]

theorem IsChain.length_le (h : IsChain H B (sequence + 1) previous frames) (hs : sequence ≤ maxU64) :
    sequence + frames.length ≤ maxU64 := by
  induction frames generalizing sequence previous with
  | nil => exact hs
  | cons v frames ih =>
    obtain ⟨hseq, -, hv, hrest⟩ := h
    have hle := hv.encodable.sequence.2
    rw [hseq] at hle
    have := ih hrest hle
    rw [length_cons]
    omega

/-- A frame of a chain is where its sequence number says, and the chain up to it ends in its
hash. -/
theorem IsChain.take_sequence {base : ℕ} (h : IsChain H B (base + 1) previous frames) (hv : v ∈ frames) :
    base < v.sequence ∧ v.sequence ≤ base + frames.length ∧
      chainHash H previous (frames.take (v.sequence - base)) = v.walHash H := by
  obtain ⟨front, back, rfl⟩ := append_of_mem hv
  obtain ⟨hseq, -⟩ := (isChain_append.mp h).2
  have hindex : v.sequence - base = (front ++ [v]).length := by
    rw [hseq, length_append, length_singleton]
    omega
  refine ⟨by omega, by simp; omega, ?_⟩
  rw [hindex, show front ++ v :: back = (front ++ [v]) ++ back by simp, take_left, chainHash_append]
  rfl

/-! ### Whole frames and a torn one -/

/-- The frames that lie wholly within the first `n` bytes. -/
def wholeFrames (H : Blake2b256) : List WalFrameValue → ℕ → List WalFrameValue
  | [], _ => []
  | v :: rest, n =>
    if (frameBytes H v).length ≤ n then v :: wholeFrames H rest (n - (frameBytes H v).length)
    else []

theorem wholeFrames_prefix_self (frames : List WalFrameValue) (n : ℕ) : wholeFrames H frames n <+: frames := by
  induction frames generalizing n with
  | nil => exact prefix_rfl
  | cons v frames ih =>
    rw [wholeFrames]
    split_ifs
    · exact cons_prefix_cons.mpr ⟨rfl, ih _⟩
    · exact nil_prefix

/-- What is left of the frame after the whole ones: nothing, or a proper part of it. -/
def IsTornTail (H : Blake2b256) (rest : List WalFrameValue) (tail : Bytes) : Prop :=
  tail = [] ∨ ∃ v more n, rest = v :: more ∧ tail = (frameBytes H v).take n ∧ 0 < n ∧ n < (frameBytes H v).length

/-- **A prefix of the bytes of a chain is some whole frames and a torn one.** -/
theorem take_chainBytes (frames : List WalFrameValue) (n : ℕ) : ∃ rest tail, frames = wholeFrames H frames n ++ rest ∧
      (chainBytes H frames).take n = chainBytes H (wholeFrames H frames n) ++ tail ∧
      IsTornTail H rest tail := by
  induction frames generalizing n with
  | nil => exact ⟨[], [], rfl, by simp [wholeFrames], .inl rfl⟩
  | cons v frames ih =>
    by_cases hle : (frameBytes H v).length ≤ n
    · obtain ⟨rest, tail, hsplit, htake, htorn⟩ := ih (n - (frameBytes H v).length)
      refine ⟨rest, tail, ?_, ?_, htorn⟩
      · rw [wholeFrames, if_pos hle, cons_append, ← hsplit]
      · rw [wholeFrames, if_pos hle, chainBytes_cons, chainBytes_cons, take_append,
          take_of_length_le hle, htake, append_assoc]
    · refine ⟨v :: frames, (frameBytes H v).take n, ?_, ?_, ?_⟩
      · rw [wholeFrames, if_neg hle, nil_append]
      · rw [wholeFrames, if_neg hle, chainBytes_cons, take_append_of_le_length (by omega),
          chainBytes_nil, nil_append]
      · rcases Nat.eq_zero_or_pos n with rfl | hpos
        · exact .inl take_zero
        · exact .inr ⟨v, frames, n, rfl, rfl, hpos, by omega⟩

/-! ### The front of a chain on disk -/

theorem WrittenBy.mapGeneration_ne_zero (h : WrittenBy B v) : v.mapGeneration ≠ 0 := by
  rw [h.mapGeneration]
  exact B.mapGeneration_range.1.ne'

theorem WrittenBy.length_frameBytes (h : WrittenBy B v) :
    (frameBytes H v).length = walMinFrameBytes + v.payload.length :=
  h.encodable.length_frameBytes

theorem WrittenBy.inspectHeader_take (h : WrittenBy B v) {n : ℕ} (hn : walHeaderBytes ≤ n) (more : Bytes) :
    inspectHeader (window ((frameBytes H v ++ more).take n) 0 walHeaderBytes)
      B.maximumWalPayloadBytes = .ok (v.header H) := by
  have hwindow : window ((frameBytes H v ++ more).take n) 0 walHeaderBytes = walHeader H v := by
    rw [window_take _ (by omega), frameBytes, append_assoc]
    exact window_append_left _ h.encodable.length_walHeader
  rw [hwindow]
  exact inspectHeader_walHeader h.encodable B.frame_fits h.mapGeneration_ne_zero

theorem WrittenBy.inspectHeader (h : WrittenBy B v) (more : Bytes) :
    inspectHeader (window (frameBytes H v ++ more) 0 walHeaderBytes) B.maximumWalPayloadBytes = .ok (v.header H) := by
  have hle : walHeaderBytes ≤ (frameBytes H v ++ more).length := by
    rw [length_append, h.length_frameBytes]
    simp only [walHeaderBytes, walMinFrameBytes]
    omega
  have := h.inspectHeader_take hle more (H := H)
  rwa [take_length] at this

theorem WrittenBy.tornAt (h : WrittenBy B v) {n : ℕ} (hpos : 0 < n)
    (hn : n < (frameBytes H v).length) : TornAt B ((frameBytes H v).take n) := by
  have hlength : ((frameBytes H v).take n).length = n := by
    rw [length_take]
    omega
  refine ⟨fun hnil => ?_, ?_⟩
  · rw [hnil] at hlength
    exact hpos.ne hlength
  · rw [hlength]
    rcases Nat.lt_or_ge n walHeaderBytes with hshort | hlong
    · exact .inl hshort
    · have hinspect := h.inspectHeader_take hlong [] (H := H)
      rw [append_nil] at hinspect
      refine .inr ⟨hlong, _, hinspect, ?_⟩
      rw [h.length_frameBytes] at hn
      exact hn

/-! ### Walking a chain -/

section Walk

variable {σ : Type} {chain : σ → ChainExpectation} {onFrame : σ → WalFrame → Except WalError σ}

/-- The chain expectation admits a frame: its number is due, and its predecessor is the expected
one or is not known. -/
def Expects (e : ChainExpectation) (sequence : ℕ) (previous : Bytes) : Prop :=
  e.expectedSequence = sequence ∧ (e.expectedPreviousWalHash = none ∨ e.expectedPreviousWalHash = some previous)

/-- A callback that leaves the chain expecting the successor of its frame. -/
def AdvancesChain (chain : σ → ChainExpectation) (onFrame : σ → WalFrame → Except WalError σ) :
    Prop :=
  ∀ s frame s', onFrame s frame = .ok s' → chain s' = ⟨frame.sequence + 1, some frame.walHash⟩

theorem WrittenBy.visitFrame (onFrame : σ → WalFrame → Except WalError σ) (h : WrittenBy B v) (more : Bytes) {s : σ}
    (hs : Expects (chain s) v.sequence v.previousWalHash) :
    visitFrame H B chain onFrame (frameBytes H v ++ more) (v.header H) s = onFrame s (v.decoded H) := by
  have htake : (frameBytes H v ++ more).take (v.header H).totalLength = frameBytes H v := by
    rw [show (v.header H).totalLength = (frameBytes H v).length from h.length_frameBytes.symm, take_left]
  have hprevious : (chain s).expectedPreviousWalHash.getD (v.header H).previousWalHash =
      v.previousWalHash := by
    rcases hs.2 with hnone | hsome
    · rw [hnone]; rfl
    · rw [hsome]; rfl
  have hdecode := decodeFrame_frameBytes (H := H) h.encodable B.frame_fits h.mapGeneration_ne_zero
  rw [h.durabilityContinuityHash] at hdecode
  rw [Wal.visitFrame, htake, hprevious, hs.1, hdecode]
  change (require ((v.decoded H).mapGeneration = B.mapGeneration ∧
    (v.decoded H).ownerFenceTokenHash = B.ownerFenceTokenHash) _ >>= fun _ => _) = _
  rw [require_of ⟨h.mapGeneration, h.ownerFenceTokenHash⟩]
  rfl

/-- **The walk over a chain is a fold of the callback over its frames.** Behind the chain the file
ends, or, in the live segment, is torn. -/
theorem scanFrom_chain (hadv : AdvancesChain chain onFrame) {isSealed : Bool} {tail : Bytes}
    (htail : tail = [] ∨ isSealed = false ∧ TornAt B tail) :
    ∀ {fuel sequence offset : ℕ} {previous : Bytes} {s : σ},
    IsChain H B sequence previous frames → Expects (chain s) sequence previous →
    (chainBytes H frames ++ tail).length ≤ fuel →
    scanFrom H B chain onFrame isSealed fuel (chainBytes H frames ++ tail) offset s =
      (frames.map (·.decoded H)).foldlM onFrame s >>= fun s' => .ok ⟨s', offset + (chainBytes H frames).length,
          if tail = [] then none else some (offset + (chainBytes H frames).length)⟩ := by
  induction frames with
  | nil =>
    intro fuel sequence offset previous s _ _ hfuel
    rw [chainBytes_nil, nil_append] at hfuel ⊢
    rcases htail with rfl | ⟨rfl, htorn⟩
    · exact scanFrom_nil _ _ _ _
    · rw [scanFrom_torn htorn hfuel, if_neg htorn.1]
      rfl
  | cons v frames ih =>
    intro fuel sequence offset previous s hchain hexpects hfuel
    obtain ⟨rfl, rfl, hv, hrest⟩ := hchain
    rw [chainBytes_cons, append_assoc] at hfuel ⊢
    have hlength := hv.length_frameBytes (H := H)
    have hpos : 0 < (frameBytes H v).length := by
      rw [hlength]
      exact Nat.add_pos_left (by decide) _
    rw [length_append] at hfuel
    obtain ⟨fuel, rfl⟩ : ∃ n, fuel = n + 1 := Nat.exists_eq_succ_of_ne_zero (by omega)
    have hle : walHeaderBytes ≤ (frameBytes H v ++ (chainBytes H frames ++ tail)).length := by
      rw [length_append, hlength]
      simp only [walHeaderBytes, walMinFrameBytes]
      omega
    have htotal : (v.header H).totalLength ≤ (frameBytes H v ++ (chainBytes H frames ++ tail)).length := by
      rw [length_append, hlength]
      exact Nat.le_add_right _ _
    have hvisit := hv.visitFrame onFrame (H := H) (chainBytes H frames ++ tail) hexpects
    have hinspect := hv.inspectHeader (H := H) (chainBytes H frames ++ tail)
    have hdrop : (frameBytes H v ++ (chainBytes H frames ++ tail)).drop (v.header H).totalLength =
        chainBytes H frames ++ tail := by
      rw [show (v.header H).totalLength = (frameBytes H v).length from hlength.symm, drop_left]
    rw [scanFrom_frame s isSealed offset hle hinspect htotal, hvisit, hdrop, map_cons,
      foldlM_cons, show (v.header H).totalLength = (frameBytes H v).length from hlength.symm]
    cases hframe : onFrame s (v.decoded H) with
    | error e => rfl
    | ok s' =>
      have hnext : Expects (chain s') (v.sequence + 1) (v.walHash H) := by
        rw [hadv _ _ _ hframe]
        exact ⟨rfl, .inr rfl⟩
      refine (ih hrest hnext (by omega)).trans ?_
      rw [length_append, Nat.add_assoc]
      rfl

theorem scanSegmentFrames_chain (hadv : AdvancesChain chain onFrame) (isSealed : Bool)
    {tail : Bytes} (htail : tail = [] ∨ isSealed = false ∧ TornAt B tail) {s : σ}
    (hchain : IsChain H B sequence previous frames)
    (hexpects : Expects (chain s) sequence previous) :
    scanSegmentFrames H B chain onFrame isSealed (chainBytes H frames ++ tail) s =
      (frames.map (·.decoded H)).foldlM onFrame s >>= fun s' => .ok ⟨s', (chainBytes H frames).length,
          if tail = [] then none else some (chainBytes H frames).length⟩ := by
  rw [scanSegmentFrames, scanFrom_chain hadv htail hchain hexpects le_rfl, Nat.zero_add]

theorem WrittenBy.expects_of_scan (h : WrittenBy B v) {isSealed : Bool} {more : Bytes} {s : σ} {r : SegmentScan σ}
    (hscan : scanSegmentFrames H B chain onFrame isSealed (frameBytes H v ++ more) s = .ok r) :
    Expects (chain s) v.sequence v.previousWalHash := by
  have hlength := h.length_frameBytes (H := H)
  have htotal : (v.header H).totalLength ≤ (frameBytes H v ++ more).length := by
    rw [length_append, hlength]
    exact Nat.le_add_right _ _
  have hle : walHeaderBytes ≤ (frameBytes H v ++ more).length := by
    rw [length_append, hlength]
    simp only [walHeaderBytes, walMinFrameBytes]
    omega
  obtain ⟨fuel, hfuel⟩ : ∃ n, (frameBytes H v ++ more).length = n + 1 :=
    Nat.exists_eq_succ_of_ne_zero (by simp only [walHeaderBytes] at hle; omega)
  have htake : (frameBytes H v ++ more).take (v.header H).totalLength = frameBytes H v := by
    rw [show (v.header H).totalLength = (frameBytes H v).length from hlength.symm, take_left]
  rw [scanSegmentFrames, hfuel, scanFrom_frame s isSealed 0 hle (h.inspectHeader more) htotal,
    Except.bind_eq_ok] at hscan
  obtain ⟨s', hvisit, -⟩ := hscan
  rw [Wal.visitFrame, htake, Except.bind_eq_ok] at hvisit
  obtain ⟨frame, hdecode, -⟩ := hvisit
  obtain ⟨hsequence, -, header, hinspect, -, hheader, hprevious⟩ := decodeFrame_eq_ok hdecode
  have hown := h.inspectHeader [] (H := H)
  rw [append_nil, hinspect] at hown
  cases hown
  refine ⟨hsequence.symm.trans hheader, ?_⟩
  cases he : (chain s).expectedPreviousWalHash with
  | none => exact .inl rfl
  | some expected =>
    rw [he] at hprevious
    exact .inr (congrArg some hprevious.symm)

end Walk

end Chain

end HiveRelay.Wal
