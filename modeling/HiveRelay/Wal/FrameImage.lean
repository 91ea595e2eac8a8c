import HiveRelay.Wal.Frame

/-!
# Accepted frames

A frame that is accepted is the one that is written for the fields it returns: the windows of the header
follow each other without a gap, the two lengths agree, and the hash and the checksum are functions of the
rest.

## Main results

* `frame_of_decodeFrame` — an accepted frame
* `frame_codec` — both directions
-/

namespace HiveRelay.Wal

open List
open Bytes

/-- The fields of a decoded frame that were written. -/
def WalFrame.value (decoded : WalFrame) : WalFrameValue where
  __ := decoded

variable {H : Blake2b256} {m : ℕ}

theorem header_windows {b : Bytes} (h : b.length = 192) :
    b = window b 0 4 ++ (window b 4 1 ++ (window b 5 1 ++ (window b 6 4 ++ (window b 10 8 ++
      (window b 18 32 ++ (window b 50 2 ++ (window b 52 8 ++ (window b 60 32 ++ (window b 92 4 ++
        (window b 96 32 ++ (window b 128 32 ++ window b 160 32))))))))))) := by
  conv_lhs => rw [← window_all h]
  rw [show 192 = 4 + (1 + (1 + (4 + (8 + (32 + (2 + (8 + (32 + (4 + (32 + (32 + 32))))))))))) from rfl]
  simp only [window_add]

/-- **An accepted frame** is the frame of the fields it returns. -/
theorem frame_of_decodeFrame {frame : Bytes} {sequence : ℕ} {previous continuity : Bytes}
    {decoded : WalFrame} (h : decodeFrame H frame sequence previous continuity m = .ok decoded) :
    decoded.value.Encodable m ∧ frame = frameBytes H decoded.value := by
  simp only [decodeFrame, inspectHeader, guards_eq_ok] at h
  obtain ⟨hmin, header, ⟨hmagic, hversion, htype, hlengths, hbound, hsequence, htransaction, hgeneration,
    hfence, hcontinuity, rfl⟩, htotal, -, -, -, hhash, hchecksum, rfl⟩ := h
  have hheader : (frame.window 0 walHeaderBytes).length = 192 :=
    length_window (by simp only [walMinFrameBytes, walHeaderBytes] at hmin ⊢; omega)
  have hframe : frame = frame.window 0 walHeaderBytes ++ frame.drop walHeaderBytes :=
    (take_append_drop _ _).symm
  generalize hb : frame.window 0 walHeaderBytes = b at *
  have hread : ∀ offset length, offset + length ≤ 192 →
      Bytes.ofNat length (toNat (window b offset length)) = window b offset length :=
    fun offset length hle => ofNat_toNat_window (hheader ▸ hle)
  have hrange : ∀ offset length, offset + length ≤ 192 →
      toNat (window b offset length) < 256 ^ length := fun offset length hle => by
    have hlt := toNat_lt (window b offset length)
    rwa [length_window (hheader ▸ hle)] at hlt
  have hsize : frame.length = 224 + (readHeader b).payloadLength := htotal.symm.trans hlengths
  have hlength : (window frame walHeaderBytes (readHeader b).payloadLength).length = (readHeader b).payloadLength :=
    length_window (by simp only [walHeaderBytes]; omega)
  have hlong : ∀ offset, offset + 32 ≤ 192 → (window b offset 32).length = 32 :=
    fun offset hle => length_window (hheader ▸ hle)
  refine ⟨⟨⟨Nat.one_le_iff_ne_zero.mpr htype, Nat.le_of_lt_succ (hrange 5 1 (by omega))⟩,
    ⟨Nat.pos_of_ne_zero hsequence, Nat.le_of_lt_succ (hrange 10 8 (by omega))⟩,
    ⟨hlong 18 (by omega), htransaction⟩, Nat.le_of_lt_succ (hrange 50 2 (by omega)),
    Nat.le_of_lt_succ (hrange 52 8 (by omega)), ⟨hlong 60 (by omega), hfence⟩,
    ⟨hlong 128 (by omega), hcontinuity⟩, hlong 96 (by omega), hlength.trans_le hbound⟩, ?_⟩
  generalize hpayload : window frame walHeaderBytes (readHeader b).payloadLength = payload at *
  generalize hv : WalFrame.value _ = v
  have hwritten : walHeader H v = b := by
    conv_rhs => rw [header_windows hheader, hmagic, hversion]
    subst hv
    have htypeByte : [UInt8.ofNat (toNat (window b 5 1))] = window b 5 1 := by
      rw [← hread 5 1 (by omega)]
      simp [Bytes.ofNat, Bytes.toNat]
    have hlengthBytes := hread 92 4 (by omega)
    have htotalBytes := hread 6 4 (by omega)
    simp only [readHeader] at hlengths hlength hhash
    rw [hlengths] at htotalBytes
    simp only [walHeader, WalFrame.value, readHeader, hlength, hhash, htotalBytes, hlengthBytes,
      hread _ _ (show 10 + 8 ≤ 192 by omega), hread _ _ (show 50 + 2 ≤ 192 by omega),
      hread _ _ (show 52 + 8 ≤ 192 by omega)]
    rw [show [walVersion, UInt8.ofNat (toNat (window b 5 1))] =
      [walVersion] ++ [UInt8.ofNat (toNat (window b 5 1))] from rfl, htypeByte]
    simp only [append_assoc]
  have hbody : frame.drop walHeaderBytes = payload ++ frame.drop (frame.length - walChecksumBytes) := by
    rw [← hpayload, window]
    conv_lhs => rw [← take_append_drop (readHeader b).payloadLength (frame.drop walHeaderBytes), drop_drop]
    congr 2
    simp only [walHeaderBytes, walChecksumBytes]
    omega
  have hprefix : frame.take (frame.length - walChecksumBytes) = b ++ payload := by
    have hsplit := take_append_drop (frame.length - walChecksumBytes) frame
    conv_rhs at hsplit => rw [hframe, hbody, ← append_assoc]
    exact append_cancel_right hsplit
  have hpayloadOf : v.payload = payload := by subst hv; rfl
  rw [frameBytes, hwritten, hpayloadOf, ← hprefix, hchecksum, ← hbody]
  exact hframe

/-- **Decoding and encoding are inverse**: what is encoded decodes to its fields, and what decodes is the
encoding of the fields it returns, so two accepted frames with the same fields are the same bytes. -/
theorem frame_codec (H : Blake2b256) {m : ℕ} (hm : 1024 ≤ m ∧ m ≤ 16 * 1024 * 1024) :
    (∀ v : WalFrameValue, v.Encodable m → v.mapGeneration ≠ 0 → ∃ frame decoded, encodeWalFrame H v m = .ok frame ∧
        decodeFrame H frame v.sequence v.previousWalHash v.durabilityContinuityHash m = .ok decoded ∧
        decoded.value = v) ∧
    (∀ frame sequence previous continuity decoded, decodeFrame H frame sequence previous continuity m = .ok decoded →
        encodeWalFrame H decoded.value m = .ok frame) ∧
    (∀ frame sequence previous continuity decoded frame' sequence' previous' continuity' decoded',
      decodeFrame H frame sequence previous continuity m = .ok decoded →
      decodeFrame H frame' sequence' previous' continuity' m = .ok decoded' →
      decoded.value = decoded'.value → frame = frame') := by
  have himage : ∀ frame sequence previous continuity decoded,
      decodeFrame H frame sequence previous continuity m = .ok decoded →
        encodeWalFrame H decoded.value m = .ok frame :=
    fun _ _ _ _ _ h => encodeWalFrame_eq_ok.mpr (frame_of_decodeFrame h)
  refine ⟨fun v hv hgeneration => ?_, himage, ?_⟩
  · have hfit : walMinFrameBytes + m < 2 ^ 32 := by
      simp only [walMinFrameBytes]
      omega
    exact ⟨_, _, encodeWalFrame_eq_ok.mpr ⟨hv, rfl⟩, decodeFrame_frameBytes hv hfit hgeneration, rfl⟩
  · intro frame _ _ _ decoded frame' _ _ _ decoded' h h' hvalue
    have hsame := (himage _ _ _ _ _ h).symm.trans (hvalue ▸ himage _ _ _ _ _ h')
    exact Except.ok.inj hsame

theorem encodable_sampleFrame : (sampleFrame 1 zero32).Encodable (1024 * 1024) :=
  ⟨by decide, by decide, by decide, by decide, by decide, by decide, by decide, by decide, by decide⟩

/-- The first frame of a log is written and read back, within the bound that the store takes when none is
given. -/
theorem frame_codec_sample : ∃ frame decoded,
    encodeWalFrame polynomialDigest (sampleFrame 1 zero32) (1024 * 1024) = .ok frame ∧
      decodeFrame polynomialDigest frame 1 zero32 (sampleFrame 1 zero32).durabilityContinuityHash (1024 * 1024) =
        .ok decoded ∧ decoded.value = sampleFrame 1 zero32 ∧
      encodeWalFrame polynomialDigest decoded.value (1024 * 1024) = .ok frame := by
  obtain ⟨hencoded, hdecoded, -⟩ := frame_codec polynomialDigest (m := 1024 * 1024) (by decide)
  obtain ⟨frame, decoded, hframe, hdecode, hvalue⟩ := hencoded (sampleFrame 1 zero32) encodable_sampleFrame (by decide)
  exact ⟨frame, decoded, hframe, hdecode, hvalue, hdecoded _ _ _ _ _ hdecode⟩

end HiveRelay.Wal
