import NtripCaster.Go.Bufio
import NtripCaster.Rtcm.Payload

/-!
# The read loop of a source

`Source.ReadLoop` of `internal/source/source.go`: every `Read` of the connection is pushed into a
framer, and the packets that come out are broadcast one after the other. The loop ends with the
first `Read` that fails; stopping the session makes the next one fail.

## Main definitions

* `SourceEffect`: what the loop does, in order
* `readLoop`: the effects of the loop on a connection
* `broadcasts`: the packets among them

## Main results

* `broadcasts_readLoop`: the loop broadcasts what the framer returns
* `type_of_payload_iff`: when the type of a packet comes from its payload
-/

namespace NtripCaster

/-- What the read loop does: count received bytes, for the session and for the mountpoint; hand
a packet to `Decode1005`, and its position to the mountpoint; call `Broadcast`; call
`addBytesOut`. -/
inductive SourceEffect
  | bytesIn (n : ℕ)
  | decode1005 (pkt : RTCMPacket)
  | broadcast (pkt : RTCMPacket)
  | addBytesOut (pkt : RTCMPacket)
  deriving DecidableEq, Repr

/-- The body of the loop over the packets of one `Read`. -/
def packetEffects (pkt : RTCMPacket) : List SourceEffect :=
  (if extractMsgType pkt = 1005 then [.decode1005 pkt] else []) ++
    [.broadcast pkt, .addBytesOut pkt]

/-- The length of the buffer that `ReadLoop` offers to each `Read`. -/
def readLoopSize : ℕ := 4096

/-- The loop of `ReadLoop` on a connection whose `Read` calls return `conn`; `none` if they
cannot. -/
def readLoop (framer : RTCMFramer) : List Bytes → Option (List SourceEffect)
  | [] => some []
  | r :: conn =>
    if Readable readLoopSize r then
      (readLoop (framer.push r).1 conn).map fun effects =>
        .bytesIn r.length :: (framer.push r).2.flatMap packetEffects ++ effects
    else none

/-- The packets broadcast. -/
def broadcasts (effects : List SourceEffect) : List RTCMPacket :=
  effects.filterMap fun
    | .broadcast pkt => some pkt
    | _ => none

theorem broadcasts_append (effects effects' : List SourceEffect) :
    broadcasts (effects ++ effects') = broadcasts effects ++ broadcasts effects' :=
  List.filterMap_append

theorem broadcasts_bytesIn (n : ℕ) (effects : List SourceEffect) :
    broadcasts (.bytesIn n :: effects) = broadcasts effects := rfl

theorem broadcasts_flatMap_packetEffects (pkts : List RTCMPacket) :
    broadcasts (pkts.flatMap packetEffects) = pkts := by
  induction pkts with
  | nil => rfl
  | cons pkt pkts ih =>
    have hpkt : broadcasts (packetEffects pkt) = [pkt] := by
      unfold packetEffects
      split_ifs <;> rfl
    rw [List.flatMap_cons, broadcasts_append, hpkt, ih]
    rfl

theorem broadcasts_readLoop {conn : List Bytes} (h : ∀ r ∈ conn, Readable readLoopSize r)
    (framer : RTCMFramer) :
    (readLoop framer conn).map broadcasts = some (framer.pushAll conn).2 := by
  induction conn generalizing framer with
  | nil => rfl
  | cons r conn ih =>
    obtain ⟨hr, hconn⟩ := List.forall_mem_cons.mp h
    obtain ⟨effects, heffects, hpkts⟩ := Option.map_eq_some_iff.mp (ih hconn (framer.push r).1)
    rw [readLoop, if_pos hr, heffects, Option.map_some, Option.map_some, List.cons_append,
      broadcasts_bytesIn, broadcasts_append, broadcasts_flatMap_packetEffects, hpkts]
    rfl

/-! ## The type of a packet -/

theorem decode1005_mem_packetEffects {pkt : RTCMPacket} :
    .decode1005 pkt ∈ packetEffects pkt ↔ extractMsgType pkt = 1005 := by
  unfold packetEffects
  split_ifs with h
  · simp [h]
  · simp [h]

/-- Two packets with the same header and payload have the same type, if the payload holds it. -/
theorem extractMsgType_congr {pkt pkt' : RTCMPacket}
    (hpkt : pkt.data.length = 6 + payloadLen pkt.data)
    (hpkt' : pkt'.data.length = 6 + payloadLen pkt'.data) (hsame : pkt'.checked = pkt.checked)
    (h : 2 ≤ payloadLen pkt.data) : extractMsgType pkt' = extractMsgType pkt := by
  have hlen : payloadLen pkt'.data = payloadLen pkt.data := by
    have hlen := RTCMPacket.length_checked hpkt
    rw [← hsame, RTCMPacket.length_checked hpkt'] at hlen
    omega
  rw [extractMsgType_eq_messageNumber hpkt h, extractMsgType_eq_messageNumber hpkt' (hlen ▸ h),
    RTCMPacket.payload_eq_drop, RTCMPacket.payload_eq_drop, hsame]

/-- **When the type comes from the payload**: the type of a packet that a framer returns is the
message number of its payload, and every packet with the same header and payload has the same
type and takes the same branch, exactly if the payload has two bytes or more. A shorter one
passes the length check as well, and then bits of the CRC are read. -/
theorem type_of_payload_iff (f : RTCMFramer) (chunks : List Bytes) {pkt : RTCMPacket}
    (hpkt : pkt ∈ (f.pushAll chunks).2) :
    (extractMsgType pkt = messageNumber pkt.payload ∧
      ∀ (f' : RTCMFramer) (chunks' : List Bytes), ∀ pkt' ∈ (f'.pushAll chunks').2,
        pkt'.checked = pkt.checked → extractMsgType pkt' = extractMsgType pkt ∧
          (.decode1005 pkt' ∈ packetEffects pkt' ↔ .decode1005 pkt ∈ packetEffects pkt)) ↔
      2 ≤ payloadLen pkt.data := by
  obtain ⟨hhead, hlen⟩ := RTCMFramer.mem_pushAll hpkt
  constructor
  · rintro ⟨-, hall⟩
    by_contra hshort
    -- every CRC can follow the header and the payload, so all of them give the same type
    have hsame : ∀ crc : Bytes, crc.length = crcLen →
        extractMsgType (pkt.withCrc crc) = extractMsgType pkt := by
      intro crc hcrc
      have hframe : rtcm3.IsFrame (pkt.withCrc crc).data :=
        rtcm3_isFrame_iff.mpr
          ⟨RTCMPacket.head_withCrc hhead crc, RTCMPacket.length_withCrc hlen hcrc⟩
      have hmem := List.mem_singleton_self (pkt.withCrc crc)
      rw [← RTCMFramer.pushAll_frame hframe] at hmem
      exact (hall _ _ _ hmem (RTCMPacket.checked_withCrc hlen crc)).1
    exact extractMsgType_withCrc_ne hlen (by omega) ((hsame _ rfl).trans (hsame _ rfl).symm)
  · intro h
    refine ⟨extractMsgType_eq_messageNumber hlen h, fun f' chunks' pkt' hpkt' hchecked => ?_⟩
    have htype := extractMsgType_congr hlen (RTCMFramer.mem_pushAll hpkt').2 hchecked h
    rw [decode1005_mem_packetEffects, decode1005_mem_packetEffects, htype]
    exact ⟨rfl, Iff.rfl⟩

/-- A packet without a payload and with the CRC `3E D0 00`. -/
def empty1005 : RTCMPacket := ⟨[0xD3, 0x00, 0x00, 0x3E, 0xD0, 0x00]⟩

theorem type_of_payload_iff_empty1005 :
    (extractMsgType empty1005 = messageNumber empty1005.payload ∧
      ∀ (f' : RTCMFramer) (chunks' : List Bytes), ∀ pkt' ∈ (f'.pushAll chunks').2,
        pkt'.checked = empty1005.checked → extractMsgType pkt' = extractMsgType empty1005 ∧
          (.decode1005 pkt' ∈ packetEffects pkt' ↔
            .decode1005 empty1005 ∈ packetEffects empty1005)) ↔
      2 ≤ payloadLen empty1005.data :=
  type_of_payload_iff {} [[0xD3, 0x00], [0x00, 0x3E, 0xD0, 0x00]] (by decide)

/-- Without a payload the type 1005 is read from the CRC, and with another CRC the type 0. -/
theorem type_of_payload_empty :
    let other : RTCMPacket := ⟨[0xD3, 0x00, 0x00, 0x00, 0x00, 0x00]⟩
    empty1005 ∈ (RTCMFramer.pushAll {} [empty1005.data]).2 ∧
      other ∈ (RTCMFramer.pushAll {} [other.data]).2 ∧
      payloadLen empty1005.data = 0 ∧ other.checked = empty1005.checked ∧
      extractMsgType empty1005 = 1005 ∧ messageNumber empty1005.payload = 0 ∧
      extractMsgType other = 0 ∧ .decode1005 empty1005 ∈ packetEffects empty1005 ∧
      .decode1005 other ∉ packetEffects other := by
  decide

end NtripCaster
