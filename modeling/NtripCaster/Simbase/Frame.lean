import Mathlib.Logic.Function.Iterate
import NtripCaster.Rtcm.MsgType

/-!
# The simulated base station's frames

`buildRTCM3Frame` and `crc24q` of `cmd/simbase/main.go`: an RTCM3 frame with a message type, a
random payload and its CRC-24Q.

## Main definitions

* `crc24q`, `crcBytes`: the checksum of a byte string, and as the last bytes of a frame
* `buildRTCM3Frame`: the frame
* `WellFormed`: a whole frame that ends in its checksum

## Main results

* `wellFormed_buildRTCM3Frame`: every frame built is well formed
* `extractMsgType_buildRTCM3Frame`: the type it was built with is read back
* `RTCMFramer.pushAll_built`: the framer returns the frames built, whatever stands between them
-/

namespace NtripCaster

open Framing

/-- One round of the inner loop of `crc24q`. -/
def crc24qShift (crc : UInt32) : UInt32 :=
  let crc := crc <<< 1
  if crc &&& 0x1000000 ≠ 0 then crc ^^^ 0x1864CFB else crc

/-- One round of the outer loop. -/
def crc24qByte (crc : UInt32) (b : UInt8) : UInt32 :=
  crc24qShift^[8] (crc ^^^ b.toUInt32 <<< 16)

/-- `crc24q`: the register starts at 0, and 24 bits of it are kept. -/
def crc24q (data : Bytes) : UInt32 := data.foldl crc24qByte 0 &&& 0xFFFFFF

/-- The last bytes of a frame. -/
def crcBytes (crc : UInt32) : Bytes := [(crc >>> 16).toUInt8, (crc >>> 8).toUInt8, crc.toUInt8]

/-- What a frame draws from the random source: `rand.Intn(16)`, and `byte(rand.Intn(256))` for
the index `i` of the frame. -/
structure Draws where
  nibble : Fin 16
  byte : ℕ → UInt8

/-- The payload length of a frame: the requested one, clamped to `2..1023`. -/
def clampPayload (payloadLen : ℤ) : ℕ :=
  let payloadLen := if payloadLen < 2 then 2 else payloadLen
  let payloadLen := if payloadLen > 1023 then 1023 else payloadLen
  payloadLen.toNat

/-- The header and the payload, which the checksum is taken of. -/
def frameBody (msgType : UInt16) (payloadLen : ℕ) (rand : Draws) : Bytes :=
  [0xD3, UInt8.ofNat (payloadLen >>> 8 &&& 0x03), UInt8.ofNat (payloadLen &&& 0xFF),
    (msgType >>> 4).toUInt8, (msgType <<< 4).toUInt8 ||| UInt8.ofNat rand.nibble] ++
    (List.range' 5 (3 + payloadLen - 5)).map rand.byte

/-- `buildRTCM3Frame`: header, payload and checksum. -/
def buildRTCM3Frame (msgType : UInt16) (payloadLen : ℤ) (rand : Draws) : Bytes :=
  let body := frameBody msgType (clampPayload payloadLen) rand
  body ++ crcBytes (crc24q body)

/-- A whole RTCM3 frame that ends in its checksum. -/
def WellFormed (p : Bytes) : Prop :=
  p.head? = some preamble ∧ p.length = frameLen p ∧
    p.drop (p.length - crcLen) = crcBytes (crc24q (p.take (p.length - crcLen)))

instance (p : Bytes) : Decidable (WellFormed p) := by
  unfold WellFormed
  infer_instance

theorem clampPayload_bounds (payloadLen : ℤ) :
    2 ≤ clampPayload payloadLen ∧ clampPayload payloadLen ≤ 1023 := by
  simp only [clampPayload]
  split_ifs <;> omega

@[simp] theorem crcBytes_length (crc : UInt32) : (crcBytes crc).length = crcLen := rfl

theorem frameBody_length (msgType : UInt16) {n : ℕ} (hn : 2 ≤ n) (rand : Draws) :
    (frameBody msgType n rand).length = headerLen + n := by
  simp only [frameBody, List.length_append, List.length_cons, List.length_nil, List.length_map,
    List.length_range', headerLen]
  omega

/-- The two high bits and the low byte of a length up to 1023 give the length back. -/
theorem payloadLen_frameBody (msgType : UInt16) {n : ℕ} (hn : n ≤ 1023) (rand : Draws)
    (rest : Bytes) : payloadLen (frameBody msgType n rand ++ rest) = n := by
  have hhigh : n >>> 8 &&& 3 = n / 256 := by
    rw [Nat.shiftRight_eq_div_pow, show (3 : ℕ) = 2 ^ 2 - 1 from rfl,
      Nat.and_two_pow_sub_one_eq_mod]
    omega
  have hlow : n &&& 0xFF = n % 256 := by
    rw [show (0xFF : ℕ) = 2 ^ 8 - 1 from rfl, Nat.and_two_pow_sub_one_eq_mod]
  simp only [payloadLen, frameBody, List.cons_append, List.getD_cons_succ, List.getD_cons_zero,
    UInt8.toNat_and, hhigh, hlow, UInt8.toNat_ofNat']
  -- the mask keeps the high bits, and the low byte fills the zeros below them
  have hmask : n / 256 % 2 ^ 8 &&& (3 : UInt8).toNat = n / 256 := by
    rw [show (3 : UInt8).toNat = 2 ^ 2 - 1 from rfl, Nat.and_two_pow_sub_one_eq_mod]
    omega
  rw [hmask, ← Nat.shiftLeft_add_eq_or_of_lt (show n % 256 % 2 ^ 8 < 2 ^ 8 by omega),
    Nat.shiftLeft_eq]
  omega

theorem frameLen_buildRTCM3Frame (msgType : UInt16) (payloadLen : ℤ) (rand : Draws) :
    frameLen (buildRTCM3Frame msgType payloadLen rand) =
      (buildRTCM3Frame msgType payloadLen rand).length := by
  obtain ⟨hlo, hhi⟩ := clampPayload_bounds payloadLen
  simp only [frameLen, buildRTCM3Frame, payloadLen_frameBody msgType hhi, List.length_append,
    frameBody_length msgType hlo, crcBytes_length]

/-- Every frame built starts with the preamble, has its declared length and ends in its
checksum. -/
theorem wellFormed_buildRTCM3Frame (msgType : UInt16) (payloadLen : ℤ) (rand : Draws) :
    WellFormed (buildRTCM3Frame msgType payloadLen rand) := by
  refine ⟨rfl, (frameLen_buildRTCM3Frame msgType payloadLen rand).symm, ?_⟩
  simp only [buildRTCM3Frame, List.length_append, crcBytes_length, Nat.add_sub_cancel,
    List.drop_left, List.take_left]

theorem WellFormed.isFrame {p : Bytes} (h : WellFormed p) : rtcm3.IsFrame p := by
  refine rtcm3_isFrame_iff.mpr ⟨h.1, ?_⟩
  have := h.2.1
  simp only [frameLen, headerLen, crcLen] at this
  omega

/-- A type below 4096 is twelve bits, and the random nibble stays below them. -/
theorem extractMsgType_buildRTCM3Frame {msgType : UInt16} (h : msgType < 4096) (payloadLen : ℤ)
    (rand : Draws) : extractMsgType ⟨buildRTCM3Frame msgType payloadLen rand⟩ = msgType.toNat := by
  have hlt : msgType.toNat < 4096 := by simpa [UInt16.lt_iff_toNat_lt] using h
  have hnib : rand.nibble.val < 2 ^ 4 := rand.nibble.isLt
  have hlen : ¬ (buildRTCM3Frame msgType payloadLen rand).length < 5 := by
    simp [buildRTCM3Frame, frameBody]
  have hhigh : ((msgType >>> 4).toUInt8).toNat = msgType.toNat / 16 := by
    simp [UInt16.toNat_shiftRight, Nat.shiftRight_eq_div_pow]
    omega
  have hlow : ((msgType <<< 4).toUInt8).toNat = msgType.toNat % 16 * 2 ^ 4 := by
    simp [Nat.shiftLeft_eq]
    omega
  have hdrop : ((msgType <<< 4).toUInt8 ||| UInt8.ofNat rand.nibble).toNat >>> 4 =
      msgType.toNat % 16 := by
    rw [UInt8.toNat_or, hlow, UInt8.toNat_ofNat',
      Nat.mod_eq_of_lt (show rand.nibble.val < 2 ^ 8 by omega), ← Nat.shiftLeft_eq,
      ← Nat.shiftLeft_add_eq_or_of_lt hnib, Nat.shiftLeft_eq, Nat.shiftRight_eq_div_pow]
    omega
  rw [extractMsgType, if_neg hlen]
  show (msgType >>> 4).toUInt8.toNat <<< 4 |||
    ((msgType <<< 4).toUInt8 ||| UInt8.ofNat rand.nibble).toNat >>> 4 = msgType.toNat
  rw [hhigh, hdrop, ← Nat.shiftLeft_add_eq_or_of_lt (show msgType.toNat % 16 < 2 ^ 4 by omega),
    Nat.shiftLeft_eq]
  omega

/-- The arguments of one call of `buildRTCM3Frame`. -/
structure FrameArgs where
  msgType : UInt16
  payloadLen : ℤ
  rand : Draws

/-- The frame of a call. -/
def FrameArgs.frame (a : FrameArgs) : Bytes := buildRTCM3Frame a.msgType a.payloadLen a.rand

/-- **Encoder and framer agree**: a fresh framer that is pushed frames built one after the other,
with preamble-free strings before, between and after them and cut anywhere, returns these frames,
and each has the type it was built with. -/
theorem RTCMFramer.pushAll_built (frames : List FrameArgs) (gaps : List Bytes) (gap : Bytes)
    (chunks : List Bytes) (htypes : ∀ a ∈ frames, a.msgType < 4096)
    (hlen : gaps.length = frames.length) (hgaps : ∀ g ∈ gaps, preamble ∉ g)
    (hgap : preamble ∉ gap)
    (hchunks : chunks.flatten =
      (List.zipWith (fun g a => g ++ a.frame) gaps frames).flatten ++ gap) :
    (pushAll {} chunks).2.map RTCMPacket.data = frames.map FrameArgs.frame ∧
      (pushAll {} chunks).2.map extractMsgType = frames.map fun a => a.msgType.toNat := by
  have hframes : ∀ p ∈ frames.map FrameArgs.frame, rtcm3.IsFrame p := by
    intro p hp
    obtain ⟨a, -, rfl⟩ := List.mem_map.mp hp
    exact (wellFormed_buildRTCM3Frame _ _ _).isFrame
  -- the stream is laid out as the frames, so these are what is parsed from it
  have hlay : rtcm3.Layout (frames.map FrameArgs.frame) chunks.flatten := by
    rw [hchunks, ← List.zipWith_map_right]
    exact .of_gaps (by rw [hlen, List.length_map]) (fun g hg => rtcm3_gap_iff.mpr (hgaps g hg))
      (rtcm3_gap_iff.mpr hgap) hframes
  have hparse := hlay.parse_append (r := [])
  rw [List.append_nil, pushAll_parse, Format.parse_gap .nil, List.append_nil] at hparse
  have hdata : (pushAll {} chunks).2.map RTCMPacket.data = frames.map FrameArgs.frame :=
    congrArg Prod.fst hparse
  refine ⟨hdata, ?_⟩
  have hpkts : (pushAll {} chunks).2 = frames.map fun a => ⟨a.frame⟩ := by
    refine List.map_injective_iff.mpr RTCMPacket.data_injective ?_
    rw [hdata, List.map_map]
    rfl
  rw [hpkts, List.map_map]
  exact List.map_congr_left fun a ha => extractMsgType_buildRTCM3Frame (htypes a ha) _ _

/-- A frame whose payload is all preambles, cut inside its header. -/
theorem RTCMFramer.pushAll_built_cut_header :
    let a : FrameArgs := ⟨1005, 300, 13, fun _ => 0xD3⟩
    (pushAll {} [[0x0A] ++ a.frame.take 2, a.frame.drop 2 ++ [0x0D]]).2.map RTCMPacket.data =
        [a.frame] ∧
      (pushAll {} [[0x0A] ++ a.frame.take 2, a.frame.drop 2 ++ [0x0D]]).2.map extractMsgType =
        [1005] := by
  intro a
  refine RTCMFramer.pushAll_built [a] [[0x0A]] [0x0D] _ (by decide) rfl (by decide) (by decide) ?_
  simp [← List.append_assoc]

end NtripCaster
