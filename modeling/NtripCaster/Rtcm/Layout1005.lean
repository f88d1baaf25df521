import NtripCaster.Rtcm.BitReader
import NtripCaster.Rtcm.Payload

/-!
# The layout of a message 1005

Message 1005 of RTCM3 carries the antenna position of a base station in three coordinates of 38
bits, behind and between other fields. `Decode1005` reads back the coordinates laid out.

## Main definitions

* `Coordinate`: a signed number of 38 bits, in units of 0.1 mm
* `Message1005`: the fields of a message; `Message1005.bits` lays them out

## Main results

* `BitReader.readSigned38_bits`: a coordinate is read where it was laid out
* `decode1005_layout`: so `Decode1005` converts the coordinates of the message
-/

namespace NtripCaster

open Bits

/-- A coordinate, in units of 0.1 mm. -/
abbrev Coordinate := {v : ℤ // -2 ^ 37 ≤ v ∧ v < 2 ^ 37}

/-- The bits of a coordinate: its two's complement. -/
def Coordinate.bits (v : Coordinate) : List Bool := word 38 (BitVec.ofInt 38 v).toNat

/-- The fields of a message 1005, beside its number: each of the coordinates `x` and `y` is
followed by two bits. -/
structure Message1005 where
  station : BitVec 12
  itrfYear : BitVec 6
  flags : BitVec 4
  x : Coordinate
  afterX : BitVec 2
  y : Coordinate
  afterY : BitVec 2
  z : Coordinate

/-- The layout of a message. -/
def Message1005.bits (m : Message1005) : List Bool :=
  word 12 1005 ++ word 12 m.station.toNat ++ word 6 m.itrfYear.toNat ++ word 4 m.flags.toNat ++
    m.x.bits ++ word 2 m.afterX.toNat ++ m.y.bits ++ word 2 m.afterY.toNat ++ m.z.bits

/-- A payload that starts with the message. -/
def Message1005.payload (m : Message1005) (trailing : Bytes) : Bytes := pack m.bits ++ trailing

theorem Coordinate.value_bits (v : Coordinate) :
    (BitVec.ofNat 38 (value v.bits)).toInt = v := by
  have hlt : (BitVec.ofInt 38 v).toNat < 2 ^ 38 := (BitVec.ofInt 38 v).isLt
  rw [bits, value_word_of_lt hlt, BitVec.ofNat_toNat, BitVec.setWidth_eq, BitVec.toInt_ofInt]
  exact Int.bmod_eq_of_le v.2.1 v.2.2

theorem Coordinate.toInt_ofInt (v : Coordinate) : (Int64.ofInt v).toInt = v := by
  have hlo := v.2.1
  have hhi := v.2.2
  exact Int64.toInt_ofInt_of_le (by omega) (by omega)

/-- A coordinate is read where it was laid out. -/
theorem BitReader.readSigned38_bits {br : BitReader} (herr : br.err = none)
    (h : br.offset + 38 ≤ 8 * br.data.length) {v : Coordinate} (hbits : br.next 38 = v.bits) :
    br.readSigned38 = .ok (Int64.ofInt v, { br with offset := br.offset + 38 }) := by
  rw [readSigned38_value herr h, hbits, v.value_bits]

namespace Message1005

variable (m : Message1005) (trailing : Bytes)

theorem length_bits : m.bits.length = 8 * 19 := by
  simp [bits, Coordinate.bits]

theorem ofBytes_payload : ofBytes (m.payload trailing) = m.bits ++ ofBytes trailing := by
  rw [payload, ofBytes_append, (ofBytes_pack 19 m.length_bits).1]

theorem length_payload : (m.payload trailing).length = 19 + trailing.length := by
  rw [payload, List.length_append, (ofBytes_pack 19 m.length_bits).2]

/-- The message starts with its number. -/
theorem messageNumber_payload : messageNumber (m.payload trailing) = 1005 := by
  have hnum : m.bits.take 12 = word 12 1005 := rfl
  rw [messageNumber, if_pos (by rw [length_payload]; omega), ofBytes_payload,
    List.take_append_of_le_length (by rw [length_bits]; omega), hnum]
  rfl

/-- What follows the message does not matter for the bits at `offset`. -/
theorem next_payload {offset n : ℕ} (h : offset + n ≤ 152) :
    (BitReader.mk (m.payload trailing) offset none).next n = (m.bits.drop offset).take n := by
  have hlen : m.bits.length = 152 := m.length_bits
  rw [BitReader.next, ofBytes_payload]
  dsimp only
  rw [List.drop_append_of_le_length (by omega),
    List.take_append_of_le_length (by rw [List.length_drop]; omega)]

/-- The three coordinates are at the offsets 34, 74 and 114. -/
theorem readSigned38_payload {offset : ℕ} (h : offset + 38 ≤ 152) {v : Coordinate}
    (hbits : (m.bits.drop offset).take 38 = v.bits) :
    (BitReader.mk (m.payload trailing) offset none).readSigned38 =
      .ok (Int64.ofInt v, ⟨m.payload trailing, offset + 38, none⟩) :=
  BitReader.readSigned38_bits rfl (by rw [length_payload]; dsimp only; omega)
    ((m.next_payload trailing h).trans hbits)

theorem bits_x : (m.bits.drop 34).take 38 = m.x.bits := rfl

theorem bits_y : (m.bits.drop 74).take 38 = m.y.bits := rfl

theorem bits_z : (m.bits.drop 114).take 38 = m.z.bits := rfl

end Message1005

/-- What `Decode1005` makes of the coordinates that it read. -/
def ofCoordinates (now : ℤ) (x y z : Int64) : Except Decode1005Error AntennaPosition :=
  match ecefToLatLng (x.toFloat * 0.0001) (y.toFloat * 0.0001) (z.toFloat * 0.0001) with
  | .error e => .error (.coordinates e)
  | .ok (lat, lon, h) => .ok ⟨lat, lon, h, now⟩

/-- A payload that the reader finds the three coordinates in is converted from these. -/
theorem decodePayload_eq (now : ℤ) {payload : Bytes} {x y z : Int64}
    (hx : (BitReader.mk payload 34 none).readSigned38 = .ok (x, ⟨payload, 72, none⟩))
    (hy : (BitReader.mk payload 74 none).readSigned38 = .ok (y, ⟨payload, 112, none⟩))
    (hz : (BitReader.mk payload 114 none).readSigned38 = .ok (z, ⟨payload, 152, none⟩)) :
    decodePayload now payload = .ok (ofCoordinates now x y z) := by
  unfold decodePayload ofCoordinates
  dsimp only [BitReader.skip]
  rw [hx, ok_bind]
  dsimp only
  rw [hy, ok_bind]
  dsimp only
  rw [hz, ok_bind]
  dsimp only
  generalize ecefToLatLng _ _ _ = r
  rcases r with e | ⟨lat, lon, h⟩ <;> rfl

/-- On a frame whose payload starts with a message, the checks before the bit reader pass. -/
theorem decode1005_frame (m : Message1005) {trailing : Bytes} {fr : Frame}
    (hfr : fr.payload = m.payload trailing) (now : ℤ) :
    decode1005 now ⟨fr.bytes⟩ = decodePayload now (m.payload trailing) := by
  have hlen : 19 ≤ payloadLen fr.bytes := by
    rw [fr.payloadLen_bytes, hfr, m.length_payload]
    omega
  have hbytes := fr.length_bytes
  have htype : extractMsgType ⟨fr.bytes⟩ = 1005 := by
    have heq : extractMsgType ⟨fr.bytes⟩ = messageNumber (RTCMPacket.payload ⟨fr.bytes⟩) :=
      extractMsgType_eq_messageNumber hbytes (by dsimp only; omega)
    rw [heq, fr.payload_bytes, hfr, m.messageNumber_payload]
  have hslice : slice fr.bytes 3 (3 + payloadLen fr.bytes) = .ok (m.payload trailing) := by
    rw [slice_of_le (by omega) (by omega), ← List.take_drop, ← hfr]
    exact congrArg Except.ok fr.payload_bytes
  unfold decode1005
  dsimp only
  rw [if_neg (by omega), extractMsgTypeRun_eq, ok_bind, htype, if_neg (not_not.mpr rfl),
    index_of_lt (by omega), ok_bind, index_of_lt (by omega), ok_bind]
  show (if payloadLen fr.bytes < 19 then _ else _) = _
  rw [if_neg (by omega)]
  unfold payloadLen at hslice
  rw [hslice, ok_bind]

/-- **The bit reader inverts the layout of message 1005**: on every frame whose payload starts
with the message, whatever its other fields, its trailing bytes, its reserved bits and its CRC
are, each coordinate is read as it is, without an error, and these three are converted. -/
theorem decode1005_layout (m : Message1005) {trailing : Bytes} {fr : Frame}
    (hfr : fr.payload = m.payload trailing) (now : ℤ) :
    ∃ x y z : Int64, x.toInt = m.x ∧ y.toInt = m.y ∧ z.toInt = m.z ∧
      (BitReader.mk fr.payload 34 none).readSigned38 = .ok (x, ⟨fr.payload, 72, none⟩) ∧
      (BitReader.mk fr.payload 74 none).readSigned38 = .ok (y, ⟨fr.payload, 112, none⟩) ∧
      (BitReader.mk fr.payload 114 none).readSigned38 = .ok (z, ⟨fr.payload, 152, none⟩) ∧
      decode1005 now ⟨fr.bytes⟩ = .ok (ofCoordinates now x y z) := by
  have hx := m.readSigned38_payload trailing (show 34 + 38 ≤ 152 by decide) m.bits_x
  have hy := m.readSigned38_payload trailing (show 74 + 38 ≤ 152 by decide) m.bits_y
  have hz := m.readSigned38_payload trailing (show 114 + 38 ≤ 152 by decide) m.bits_z
  refine ⟨_, _, _, m.x.toInt_ofInt, m.y.toInt_ofInt, m.z.toInt_ofInt, hfr ▸ hx, hfr ▸ hy,
    hfr ▸ hz, ?_⟩
  rw [decode1005_frame m hfr, decodePayload_eq now hx hy hz]

/-- The least and the greatest coordinate, with one trailing byte. -/
def extreme1005 : Message1005 where
  station := 7
  itrfYear := 0
  flags := 0xF
  x := ⟨-2 ^ 37, by decide⟩
  afterX := 3
  y := ⟨2 ^ 37 - 1, by decide⟩
  afterY := 1
  z := ⟨-1, by decide⟩

/-- The reserved bits are set, a byte follows the message, and the CRC bytes are any. -/
def extremeFrame : Frame where
  reserved := 0x3F
  payload := extreme1005.payload [0xD3]
  crc := [0x00, 0x3E, 0xD0]
  payload_le := by rw [Message1005.length_payload]; decide
  length_crc := rfl

theorem decode1005_layout_extreme :
    ∃ x y z : Int64, x.toInt = extreme1005.x ∧ y.toInt = extreme1005.y ∧
      z.toInt = extreme1005.z ∧
      (BitReader.mk extremeFrame.payload 34 none).readSigned38 =
        .ok (x, ⟨extremeFrame.payload, 72, none⟩) ∧
      (BitReader.mk extremeFrame.payload 74 none).readSigned38 =
        .ok (y, ⟨extremeFrame.payload, 112, none⟩) ∧
      (BitReader.mk extremeFrame.payload 114 none).readSigned38 =
        .ok (z, ⟨extremeFrame.payload, 152, none⟩) ∧
      decode1005 0 ⟨extremeFrame.bytes⟩ = .ok (ofCoordinates 0 x y z) :=
  decode1005_layout extreme1005 rfl 0

end NtripCaster
