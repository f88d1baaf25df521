import Mathlib.Data.Rat.Floor
import NtripCaster.Rtcm.MsgType

/-!
# Antenna positions

`internal/rtcm/decode1005.go`: the antenna position of a base station, from the ECEF coordinates in
an RTCM message 1005. An index or slice expression out of range stops the whole process, so
every function that has one returns a `RuntimeError` there.

## Main definitions

* `extractMsgTypeRun`: `ExtractMsgType` with its index expressions
* `BitReader`, `BitReader.readUint`, `BitReader.readSigned38`
* `ecefToLatLng`: the coordinate conversion, in floating point
* `decode1005`

## Main results

* `BitReader.readUint_ok`: a read within the data returns and moves the offset on
* `decode1005_of_frame`: on a whole frame there is no panic and no error of the bit reader
* `decode1005_pushed`: so on every packet a framer returns
-/

namespace NtripCaster

/-- `ExtractMsgType`, index expression by index expression. -/
def extractMsgTypeRun (pkt : RTCMPacket) : Except RuntimeError ℕ :=
  if pkt.data.length < 5 then .ok 0
  else do
    let b₃ ← index pkt.data 3
    let b₄ ← index pkt.data 4
    return b₃.toNat <<< 4 ||| b₄.toNat >>> 4

theorem extractMsgTypeRun_eq (pkt : RTCMPacket) :
    extractMsgTypeRun pkt = .ok (extractMsgType pkt) := by
  unfold extractMsgTypeRun extractMsgType
  split_ifs with h
  · rfl
  · rw [index_of_lt (by omega), index_of_lt (by omega)]
    rfl

/-! ## Coordinates -/

/-- The `float64` of an exact constant, from its first forty decimals. -/
def float64 (q : ℚ) : Float := Float.ofScientific (q * 10 ^ 40).floor.toNat true 40

/-- The semi-major axis of WGS 84. Untyped constants of Go are exact. -/
def wgs84A : ℚ := 6378137
/-- The flattening. -/
def wgs84F : ℚ := 1 / 298.257223563
/-- The semi-minor axis. -/
def wgs84B : ℚ := wgs84A * (1 - wgs84F)
/-- The square of the first eccentricity. -/
def wgs84E2 : ℚ := 2 * wgs84F - wgs84F * wgs84F
/-- The square of the second eccentricity. -/
def wgs84Ep2 : ℚ := wgs84E2 / (1 - wgs84E2)

/-- `math.Pi`. -/
def mathPi : Float := float64 3.14159265358979323846264338327950288419716939937510582097494459

/-- `ErrZeroCoordinates` and `ErrOutOfRange`. -/
inductive CoordinateError
  | zeroCoordinates
  | outOfRange
  deriving DecidableEq, Repr

/-- `AntennaPosition`. -/
structure AntennaPosition where
  latitude : Float
  longitude : Float
  height : Float
  updatedAt : ℤ

/-- The loop of `ecefToLatLng` that approaches the latitude, from `theta` on. -/
def latitudeLoop (z p : Float) : ℕ → Float → Float
  | 0, theta => theta
  | n + 1, theta =>
    let lat := Float.atan2 (z + float64 (wgs84Ep2 * wgs84B) * Float.pow (Float.sin theta) 3)
      (p - float64 (wgs84E2 * wgs84A) * Float.pow (Float.cos theta) 3)
    -- `lat` and `theta` are equal at the head of the loop
    if Float.abs (lat - theta) < 1e-12 then lat else latitudeLoop z p n lat

/-- `ecefToLatLng`: latitude, longitude and height. -/
def ecefToLatLng (x y z : Float) : Except CoordinateError (Float × Float × Float) :=
  if x == 0 && y == 0 && z == 0 then .error .zeroCoordinates
  else
    let r := Float.sqrt (x * x + y * y + z * z)
    if r < 1000000 || 10000000 < r then .error .outOfRange
    else
      let lon := Float.atan2 y x * 180 / mathPi
      let p := Float.sqrt (x * x + y * y)
      let theta := Float.atan2 (z * float64 wgs84A) (p * float64 wgs84B)
      let lat := latitudeLoop z p 10 theta * 180 / mathPi
      let sinLat := Float.sin (lat * mathPi / 180)
      let cosLat := Float.cos (lat * mathPi / 180)
      let n := float64 wgs84A / Float.sqrt (1 - float64 wgs84E2 * sinLat * sinLat)
      let h := if 1e-10 < cosLat then p / cosLat - n
        else z / sinLat - n * float64 (1 - wgs84E2)
      .ok (lat, lon, h)

/-! ## The bit reader -/

/-- `bitReader`; its error is the bit at which the data ended. -/
structure BitReader where
  data : Bytes
  offset : ℕ
  err : Option ℕ
  deriving DecidableEq, Repr

namespace BitReader

variable (br : BitReader)

/-- `skip`: past the end of the payload, too. -/
def skip (n : ℕ) : BitReader := { br with offset := br.offset + n }

/-- The loop of `readUint`, which reads `n` more bits onto `result`. -/
def readUintLoop : ℕ → UInt64 → BitReader → Except RuntimeError (UInt64 × BitReader)
  | 0, result, br => .ok (result, br)
  | n + 1, result, br =>
    if br.data.length ≤ br.offset / 8 then .ok (0, { br with err := some br.offset })
    else do
      let b ← index br.data (br.offset / 8)
      -- the most significant bit comes first
      let bit := (b >>> UInt8.ofNat (7 - br.offset % 8)) &&& 1
      readUintLoop n (result <<< 1 ||| bit.toUInt64) { br with offset := br.offset + 1 }

/-- `readUint`. An error is kept: nothing is read after it. -/
def readUint (n : ℕ) : Except RuntimeError (UInt64 × BitReader) :=
  if br.err.isSome then .ok (0, br) else readUintLoop n 0 br

/-- `readSigned38`: two's complement in 38 bits. -/
def readSigned38 : Except RuntimeError (Int64 × BitReader) := do
  let (u, br) ← br.readUint 38
  if br.err.isSome then return (0, br)
  else if u ≥ (1 : UInt64) <<< 37 then return (u.toInt64 - (1 : Int64) <<< 38, br)
  else return (u.toInt64, br)

/-- A loop that stays within the data reads all its bits. -/
theorem readUintLoop_ok (n : ℕ) (result : UInt64) (br : BitReader)
    (h : br.offset + n ≤ 8 * br.data.length) :
    ∃ u, readUintLoop n result br = .ok (u, { br with offset := br.offset + n }) := by
  induction n generalizing result br with
  | zero => exact ⟨result, rfl⟩
  | succ n ih =>
    have hlt : br.offset / 8 < br.data.length := by omega
    rw [readUintLoop, if_neg (by omega), index_of_lt hlt]
    obtain ⟨u, hu⟩ := ih _ { br with offset := br.offset + 1 } (by simpa using by omega)
    refine ⟨u, hu.trans ?_⟩
    rw [Nat.add_right_comm, Nat.add_assoc]

variable {br}

theorem readUint_ok {n : ℕ} (herr : br.err = none) (h : br.offset + n ≤ 8 * br.data.length) :
    ∃ u, br.readUint n = .ok (u, { br with offset := br.offset + n }) := by
  rw [readUint, if_neg (by simp [herr])]
  exact readUintLoop_ok n 0 br h

theorem readSigned38_ok (br : BitReader) (herr : br.err = none)
    (h : br.offset + 38 ≤ 8 * br.data.length) :
    ∃ v, br.readSigned38 = .ok (v, { br with offset := br.offset + 38 }) := by
  obtain ⟨u, hu⟩ := readUint_ok herr h
  unfold readSigned38
  rw [hu, ok_bind]
  dsimp only
  rw [if_neg (by simp [herr])]
  split_ifs
  · exact ⟨_, rfl⟩
  · exact ⟨_, rfl⟩

end BitReader

/-! ## Messages 1005 -/

/-- The errors of `Decode1005`, with the values that their texts show. -/
inductive Decode1005Error
  | frameTooShort (n : ℕ)
  | messageType (msgType : ℕ)
  | payloadTooShort (n : ℕ)
  | bitField (offset : ℕ)
  | coordinates (e : CoordinateError)
  deriving DecidableEq, Repr

/-- `Decode1005` on the payload of a message: `now` is the clock in seconds. -/
def decodePayload (now : ℤ) (payload : Bytes) :
    Except RuntimeError (Except Decode1005Error AntennaPosition) := do
  -- message type, station, ITRF year, four indicators
  let br := ((((BitReader.mk payload 0 none).skip 12).skip 12).skip 6).skip 4
  let (x, br) ← br.readSigned38
  let (y, br) ← (br.skip 2).readSigned38
  let (z, br) ← (br.skip 2).readSigned38
  match br.err with
  | some offset => return .error (.bitField offset)
  | none =>
    match ecefToLatLng (x.toFloat * 0.0001) (y.toFloat * 0.0001) (z.toFloat * 0.0001) with
    | .error e => return .error (.coordinates e)
    | .ok (lat, lon, h) => return .ok ⟨lat, lon, h, now⟩

/-- `Decode1005`. -/
def decode1005 (now : ℤ) (pkt : RTCMPacket) :
    Except RuntimeError (Except Decode1005Error AntennaPosition) :=
  if pkt.data.length < 22 then .ok (.error (.frameTooShort pkt.data.length))
  else do
    let msgType ← extractMsgTypeRun pkt
    if msgType ≠ 1005 then return .error (.messageType msgType)
    else
      let b₁ ← index pkt.data 1
      let b₂ ← index pkt.data 2
      let len := (b₁ &&& 0x03).toNat <<< 8 ||| b₂.toNat
      if len < 19 then return .error (.payloadTooShort len)
      else decodePayload now (← slice pkt.data 3 (3 + len))

/-- The three coordinates end at bit 152, the last of 19 bytes. -/
theorem decodePayload_ok (now : ℤ) {payload : Bytes} (h : 19 ≤ payload.length) :
    ∃ r, decodePayload now payload = .ok r ∧
      ∀ e, r = .error e → ∃ e', e = .coordinates e' := by
  obtain ⟨x, hx⟩ := BitReader.readSigned38_ok ⟨payload, 34, none⟩ rfl (by simp; omega)
  obtain ⟨y, hy⟩ := BitReader.readSigned38_ok ⟨payload, 74, none⟩ rfl (by simp; omega)
  obtain ⟨z, hz⟩ := BitReader.readSigned38_ok ⟨payload, 114, none⟩ rfl (by simp; omega)
  unfold decodePayload
  dsimp only [BitReader.skip]
  rw [hx, ok_bind]
  dsimp only
  rw [hy, ok_bind]
  dsimp only
  rw [hz, ok_bind]
  dsimp only
  -- the reads have left no error, so only the conversion can fail
  split
  next e _ => exact ⟨_, rfl, fun e' he => ⟨e, (Except.error.inj he).symm⟩⟩
  next => exact ⟨_, rfl, nofun⟩

/-- **A whole frame is safe to decode**: neither function panics, and the errors are those of the
length checks, the type check and the coordinates. -/
theorem decode1005_of_frame (now : ℤ) {pkt : RTCMPacket}
    (h : pkt.data.length = 6 + payloadLen pkt.data) :
    ∃ r, decode1005 now pkt = .ok r ∧ ∀ e, r = .error e →
      (∃ n, e = .frameTooShort n) ∨ (∃ t, e = .messageType t) ∨ (∃ n, e = .payloadTooShort n) ∨
        ∃ e', e = .coordinates e' := by
  unfold decode1005
  split_ifs with hshort
  · exact ⟨_, rfl, fun e he => .inl ⟨_, (Except.error.inj he).symm⟩⟩
  rw [extractMsgTypeRun_eq, ok_bind]
  split_ifs with htype
  · exact ⟨_, rfl, fun e he => .inr (.inl ⟨_, (Except.error.inj he).symm⟩)⟩
  rw [index_of_lt (by omega), ok_bind, index_of_lt (by omega), ok_bind]
  show ∃ r, (if payloadLen pkt.data < 19 then _ else _) = _ ∧ _
  split_ifs with hlen
  · exact ⟨_, rfl, fun e he => .inr (.inr (.inl ⟨_, (Except.error.inj he).symm⟩))⟩
  -- the payload lies within the frame, since the frame has the length its header declares
  have hslice : slice pkt.data 3 (3 + payloadLen pkt.data) =
      .ok ((pkt.data.take (3 + payloadLen pkt.data)).drop 3) :=
    slice_of_le (by omega) (by omega)
  unfold payloadLen at hslice
  rw [hslice, ok_bind]
  have hpayload : 19 ≤ ((pkt.data.take (3 + payloadLen pkt.data)).drop 3).length := by
    simp
    omega
  obtain ⟨r, hr, herr⟩ := decodePayload_ok now hpayload
  exact ⟨r, hr, fun e he => .inr (.inr (.inr (herr e he)))⟩

/-- **No base station can stop the caster through a message 1005**: on every packet a framer
returns, neither `ExtractMsgType` nor `Decode1005` panics, and the bit reader has all its bits. -/
theorem decode1005_pushed (f : RTCMFramer) (chunks : List Bytes) (now : ℤ) {pkt : RTCMPacket}
    (hpkt : pkt ∈ (f.pushAll chunks).2) :
    (∃ t, extractMsgTypeRun pkt = .ok t) ∧
      ∃ r, decode1005 now pkt = .ok r ∧ ∀ e, r = .error e →
        (∃ n, e = .frameTooShort n) ∨ (∃ t, e = .messageType t) ∨
          (∃ n, e = .payloadTooShort n) ∨ ∃ e', e = .coordinates e' :=
  ⟨⟨_, extractMsgTypeRun_eq pkt⟩, decode1005_of_frame now (RTCMFramer.mem_pushAll hpkt).2⟩

/-- A message 1005 of 19 bytes, the shortest one that is decoded. -/
def shortest1005 : RTCMPacket :=
  ⟨[0xD3, 0x00, 0x13, 0x3E, 0xD0] ++ List.replicate 20 0x00⟩

theorem decode1005_pushed_shortest1005 :
    (∃ t, extractMsgTypeRun shortest1005 = .ok t) ∧
      ∃ r, decode1005 0 shortest1005 = .ok r ∧ ∀ e, r = .error e →
        (∃ n, e = .frameTooShort n) ∨ (∃ t, e = .messageType t) ∨
          (∃ n, e = .payloadTooShort n) ∨ ∃ e', e = .coordinates e' :=
  decode1005_pushed {} [[0x00, 0xD3, 0x00], [0x13, 0x3E, 0xD0] ++ List.replicate 20 0x00] 0
    (by decide)

end NtripCaster
