import NtripCaster.Rtcm.Framer

/-!
# Message types

`internal/rtcm/msgtype.go`.
-/

namespace NtripCaster

/-- `ExtractMsgType`: the twelve bits after the header, 0 for a frame too short to hold them. -/
def extractMsgType (pkt : RTCMPacket) : ℕ :=
  if pkt.data.length < 5 then 0
  else (pkt.data.getD 3 0).toNat <<< 4 ||| (pkt.data.getD 4 0).toNat >>> 4

end NtripCaster
