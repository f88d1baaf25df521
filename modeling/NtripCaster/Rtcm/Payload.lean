import NtripCaster.Library.Bits
import NtripCaster.Rtcm.MsgType

/-!
# The parts of a frame

A frame is a header, the payload and the CRC. The header holds the preamble, six reserved bits
and the length of the payload; the payload starts with the message number, in twelve bits.

## Main definitions

* `RTCMPacket.payload`, `RTCMPacket.checked`: the payload, and what the CRC is over
* `messageNumber`: the message number of a payload
* `Frame`: a frame by its parts

## Main results

* `payloadLen_eq_value`, `extractMsgType_eq_value`: the bits that the two functions read
* `extractMsgType_eq_messageNumber_iff`: when the type is the message number of the payload
* `Frame.pushAll_bytes`: a framer returns every frame
-/

namespace NtripCaster

open Bits Framing

/-- The ten bits of the length field come after the preamble and six reserved bits. -/
theorem payloadLen_eq_value {buf : Bytes} (h : headerLen ≤ buf.length) :
    payloadLen buf = value (((ofBytes buf).drop 14).take 10) := by
  match buf, h with
  | b₀ :: b₁ :: b₂ :: buf, _ =>
    have hlow : b₂.toNat < 2 ^ 8 := b₂.toNat_lt
    have hbits : ((ofBytes (b₀ :: b₁ :: b₂ :: buf)).drop 14).take 10 =
        word 2 b₁.toNat ++ ofByte b₂ := rfl
    rw [hbits, value_append, value_word, ofByte, value_word_of_lt hlow, length_word]
    show (b₁ &&& 0x03).toNat <<< 8 ||| b₂.toNat = _
    rw [UInt8.toNat_and, ← Nat.shiftLeft_add_eq_or_of_lt hlow, Nat.shiftLeft_eq]
    exact congrArg (· * 2 ^ 8 + b₂.toNat) (Nat.and_two_pow_sub_one_eq_mod _ 2)

/-- The message type is in the twelve bits after the header. -/
theorem extractMsgType_eq_value {pkt : RTCMPacket} (h : headerLen + 2 ≤ pkt.data.length) :
    extractMsgType pkt = value ((ofBytes (pkt.data.drop headerLen)).take 12) := by
  have hlen : ¬ pkt.data.length < 5 := Nat.not_lt.mpr h
  rw [extractMsgType, if_neg hlen]
  match pkt, h with
  | ⟨_ :: _ :: _ :: b₃ :: b₄ :: rest⟩, _ =>
    have hbits : (ofBytes (b₃ :: b₄ :: rest)).take 12 =
        ofByte b₃ ++ word 4 (b₄.toNat / 2 ^ 4) := by
      rw [ofBytes_cons, ofBytes_cons, ofByte, ofByte, word_add 4 4 b₄.toNat]
      rfl
    have hlow : b₄.toNat / 2 ^ 4 < 2 ^ 4 := by
      have := b₄.toNat_lt
      omega
    show b₃.toNat <<< 4 ||| b₄.toNat >>> 4 = value ((ofBytes (b₃ :: b₄ :: rest)).take 12)
    rw [hbits, value_append, ofByte, value_word_of_lt b₃.toNat_lt, value_word_of_lt hlow,
      length_word, Nat.shiftRight_eq_div_pow, ← Nat.shiftLeft_add_eq_or_of_lt hlow,
      Nat.shiftLeft_eq]

/-! ## Packets -/

/-- The message number of a payload, its first twelve bits; 0 for one that is too short. -/
def messageNumber (payload : Bytes) : ℕ :=
  if 2 ≤ payload.length then value ((ofBytes payload).take 12) else 0

/-- The payload of a packet, by the length in its header. -/
def RTCMPacket.payload (pkt : RTCMPacket) : Bytes :=
  (pkt.data.drop headerLen).take (payloadLen pkt.data)

/-- What the CRC of a packet is over: the header and the payload. -/
def RTCMPacket.checked (pkt : RTCMPacket) : Bytes :=
  pkt.data.take (headerLen + payloadLen pkt.data)

/-- The packet with another CRC. -/
def RTCMPacket.withCrc (pkt : RTCMPacket) (crc : Bytes) : RTCMPacket := ⟨pkt.checked ++ crc⟩

theorem RTCMPacket.payload_eq_drop (pkt : RTCMPacket) :
    pkt.payload = pkt.checked.drop headerLen := by
  rw [RTCMPacket.payload, RTCMPacket.checked, List.take_drop]

theorem RTCMPacket.head_withCrc {pkt : RTCMPacket} (hhead : pkt.data.head? = some preamble)
    (crc : Bytes) :
    (pkt.withCrc crc).data.head? = some preamble := by
  rw [RTCMPacket.withCrc, RTCMPacket.checked, List.head?_append, List.head?_take,
    if_neg (by rw [headerLen]; omega), hhead]
  rfl

section Whole

variable {pkt : RTCMPacket} (hpkt : pkt.data.length = 6 + payloadLen pkt.data)

include hpkt

theorem RTCMPacket.length_payload : pkt.payload.length = payloadLen pkt.data := by
  rw [RTCMPacket.payload, List.length_take, List.length_drop, headerLen]
  omega

/-- The payload of at least two bytes holds all the bits that are read. -/
theorem extractMsgType_eq_messageNumber (h : 2 ≤ payloadLen pkt.data) :
    extractMsgType pkt = messageNumber pkt.payload := by
  rw [messageNumber, if_pos (by rwa [RTCMPacket.length_payload hpkt]), RTCMPacket.payload,
    ofBytes_take, List.take_take, Nat.min_eq_left (by omega),
    extractMsgType_eq_value (by simp only [headerLen]; omega)]

/-- **When the type is the message number of the payload**: the payload has at least two bytes,
or the twelve bits after the header, part of which are the CRC, happen to be 0. -/
theorem extractMsgType_eq_messageNumber_iff :
    extractMsgType pkt = messageNumber pkt.payload ↔
      2 ≤ payloadLen pkt.data ∨ value ((ofBytes (pkt.data.drop headerLen)).take 12) = 0 := by
  rcases Nat.lt_or_ge (payloadLen pkt.data) 2 with h | h
  · rw [messageNumber, if_neg (by rw [RTCMPacket.length_payload hpkt]; omega),
      extractMsgType_eq_value (by simp only [headerLen]; omega)]
    exact ⟨.inr, fun h' => h'.resolve_left (by omega)⟩
  · exact ⟨fun _ => .inl h, fun _ => extractMsgType_eq_messageNumber hpkt h⟩

theorem RTCMPacket.length_checked : pkt.checked.length = headerLen + payloadLen pkt.data :=
  List.length_take_of_le (by rw [headerLen]; omega)

theorem RTCMPacket.payloadLen_checked_append (ys : Bytes) :
    payloadLen (pkt.checked ++ ys) = payloadLen pkt.data := by
  have hlen : headerLen ≤ pkt.checked.length := by
    rw [RTCMPacket.length_checked hpkt]
    omega
  have happ : payloadLen pkt.data = payloadLen pkt.checked := by
    conv_lhs => rw [← List.take_append_drop (headerLen + payloadLen pkt.data) pkt.data]
    exact payloadLen_append hlen _
  rw [payloadLen_append hlen, happ]

theorem RTCMPacket.checked_withCrc (crc : Bytes) : (pkt.withCrc crc).checked = pkt.checked := by
  rw [RTCMPacket.checked, RTCMPacket.withCrc, RTCMPacket.payloadLen_checked_append hpkt,
    List.take_left' (RTCMPacket.length_checked hpkt)]

theorem RTCMPacket.length_withCrc {crc : Bytes} (hcrc : crc.length = crcLen) :
    (pkt.withCrc crc).data.length = 6 + payloadLen (pkt.withCrc crc).data := by
  rw [RTCMPacket.withCrc, RTCMPacket.payloadLen_checked_append hpkt, List.length_append,
    RTCMPacket.length_checked hpkt, hcrc, headerLen, crcLen]
  omega

/-- A payload that is too short leaves bits of the type to the CRC. -/
theorem extractMsgType_withCrc_ne (h : payloadLen pkt.data < 2) :
    extractMsgType (pkt.withCrc [0, 0, 0]) ≠ extractMsgType (pkt.withCrc [0xFF, 0xFF, 0xFF]) := by
  have hlen := RTCMPacket.length_checked hpkt
  have hread : ∀ crc : Bytes, crc.length = crcLen → extractMsgType (pkt.withCrc crc) =
      value ((ofBytes (pkt.payload ++ crc)).take 12) := by
    intro crc hcrc
    rw [extractMsgType_eq_value, RTCMPacket.withCrc, List.drop_append_of_le_length (by omega),
      RTCMPacket.payload_eq_drop]
    rw [RTCMPacket.length_withCrc hpkt hcrc, headerLen]
    omega
  rw [hread _ rfl, hread _ rfl]
  have hpay := RTCMPacket.length_payload hpkt
  generalize pkt.payload = payload at hpay
  intro heq
  rcases payload with _ | ⟨b, _ | ⟨c, payload⟩⟩
  · exact absurd heq (by decide)
  · -- the bits differ behind the only byte of the payload
    have hbits : ofByte b ++ [false, false, false, false] = ofByte b ++ [true, true, true, true] :=
      value_inj rfl heq
    exact absurd (List.append_cancel_left hbits) (by decide)
  · simp only [List.length_cons] at hpay
    omega

end Whole

/-! ## Frames -/

/-- A fresh framer that is pushed a frame returns it. -/
theorem RTCMFramer.pushAll_frame {p : Bytes} (hp : rtcm3.IsFrame p) :
    (pushAll {} [p]).2 = [⟨p⟩] := by
  have hparse : rtcm3.parse [p].flatten = ([p], []) := by
    rw [List.flatten_singleton, ← List.append_nil p, Format.parse_frame_append hp,
      Format.parse_gap .nil, List.append_nil]
  rw [pushAll_parse] at hparse
  exact List.map_injective_iff.mpr RTCMPacket.data_injective (congrArg Prod.fst hparse)

/-- A frame by its parts. -/
structure Frame where
  reserved : BitVec 6
  payload : Bytes
  crc : Bytes
  payload_le : payload.length ≤ maxPayload
  length_crc : crc.length = crcLen

namespace Frame

variable (fr : Frame)

/-- The three bytes before the payload, bit by bit. -/
def headerBits : List Bool :=
  word 8 preamble.toNat ++ (word 6 fr.reserved.toNat ++ word 10 fr.payload.length)

/-- The frame as it is sent. -/
def bytes : Bytes := pack fr.headerBits ++ (fr.payload ++ fr.crc)

theorem ofBytes_header : ofBytes (pack fr.headerBits) = fr.headerBits :=
  (ofBytes_pack 3 (by simp [headerBits])).1

theorem length_header : (pack fr.headerBits).length = headerLen :=
  (ofBytes_pack 3 (by simp [headerBits])).2

theorem head_bytes : fr.bytes.head? = some preamble := rfl

/-- The header declares the length of the payload. -/
theorem payloadLen_bytes : payloadLen fr.bytes = fr.payload.length := by
  have hlt : fr.payload.length < 2 ^ 10 := Nat.lt_succ_of_le fr.payload_le
  have hbits : fr.headerBits.drop 14 = word 10 fr.payload.length := rfl
  rw [bytes, payloadLen_append fr.length_header.ge, payloadLen_eq_value fr.length_header.ge,
    ofBytes_header, hbits, List.take_of_length_le (length_word 10 _).le, value_word_of_lt hlt]

theorem length_bytes : fr.bytes.length = 6 + payloadLen fr.bytes := by
  rw [payloadLen_bytes, bytes, List.length_append, List.length_append, length_header,
    fr.length_crc, headerLen, crcLen]
  omega

theorem payload_bytes : RTCMPacket.payload ⟨fr.bytes⟩ = fr.payload := by
  rw [RTCMPacket.payload, payloadLen_bytes, bytes, List.drop_left' fr.length_header,
    List.take_left]

/-- A fresh framer returns the frame. -/
theorem pushAll_bytes : (RTCMFramer.pushAll {} [fr.bytes]).2 = [⟨fr.bytes⟩] :=
  RTCMFramer.pushAll_frame (rtcm3_isFrame_iff.mpr ⟨fr.head_bytes, fr.length_bytes⟩)

end Frame

end NtripCaster
