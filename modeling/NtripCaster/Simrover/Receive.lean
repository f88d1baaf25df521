import Mathlib.Data.List.Infix
import NtripCaster.Go.Strings
import NtripCaster.Rover.Accounting
import NtripCaster.Rtcm.Reference

/-!
# The simulated rover

`runRover` of `cmd/simrover/main.go`: one `Read` must return the response, and what follows the
response in it and in later ones is pushed into a framer of its own. What it gets is followed
from the stream of the base station through the caster.

## Main definitions

* `Simrover.RtcmFramer`: the framer of the rover
* `Simrover.runRover`: a connection from the response to the first `Read` that fails

## Main results

* `Simrover.runRover_eq`: the packets are those of the bytes behind the response
* `Simrover.base_to_rover`: they are a run of the frames that the base station sent
-/

namespace NtripCaster

open Framing Transition

namespace Simrover

/-- `rtcmFramer`, the framer of the test client. -/
structure RtcmFramer where
  buf : Bytes := []
  deriving DecidableEq, Repr

namespace RtcmFramer

/-- The loop of `push` on the buffer `buf`: the frames and the buffer left at its `break`. Every
round shortens the buffer, so `fuel` beyond its length is never spent. -/
def pushLoop : ℕ → Bytes → List Bytes × Bytes
  | 0, buf => ([], buf)
  | fuel + 1, buf =>
    if buf.length < headerLen then ([], buf)
    else if buf.head? ≠ some preamble then
      match buf.findIdx? (· == preamble) with
      | none => ([], [])
      | some idx => pushLoop fuel (buf.drop idx)
    else
      let frameLen := headerLen + payloadLen buf + crcLen
      if buf.length < frameLen then ([], buf)
      else
        let rest := pushLoop fuel (buf.drop frameLen)
        (buf.take frameLen :: rest.1, rest.2)

/-- `push`: append the bytes to the buffer and take the complete frames. -/
def push (f : RtcmFramer) (data : Bytes) : RtcmFramer × List Bytes :=
  let r := pushLoop ((f.buf ++ data).length + 1) (f.buf ++ data)
  (⟨r.2⟩, r.1)

/-- Successive `push` calls: the frames of each. -/
def calls (f : RtcmFramer) : List Bytes → List (List Bytes)
  | [] => []
  | data :: rest => (f.push data).2 :: (f.push data).1.calls rest

/-- The two loops go the same way. -/
theorem pushLoop_eq (fuel : ℕ) (buf : Bytes) :
    pushLoop fuel buf =
      ((RTCMFramer.pushLoop fuel buf).1.map RTCMPacket.data, (RTCMFramer.pushLoop fuel buf).2) := by
  induction fuel generalizing buf with
  | zero => rfl
  | succ fuel ih =>
    unfold pushLoop RTCMFramer.pushLoop
    dsimp only
    by_cases hshort : buf.length < headerLen
    · rw [if_pos hshort, if_pos hshort]
      rfl
    rw [if_neg hshort, if_neg hshort]
    by_cases hhead : buf.head? ≠ some preamble
    · rw [if_pos hhead, if_pos hhead]
      unfold findPreamble
      cases buf.findIdx? (· == preamble) with
      | none => rfl
      | some idx => exact ih (buf.drop idx)
    rw [if_neg hhead, if_neg hhead]
    by_cases hpart : buf.length < frameLen buf
    · rw [if_pos hpart]
      exact if_pos hpart
    · rw [if_neg hpart, ih]
      exact if_neg hpart

/-- "mirrors internal/rtcm": each call returns the packets that `RTCMFramer.Push` returns. -/
theorem calls_eq (chunks : List Bytes) (f : RtcmFramer) :
    f.calls chunks = (RTCMFramer.calls ⟨f.buf⟩ chunks).map (List.map RTCMPacket.data) := by
  induction chunks generalizing f with
  | nil => rfl
  | cons data rest ih =>
    rw [calls, RTCMFramer.calls, List.map_cons, ih]
    unfold push RTCMFramer.push
    rw [pushLoop_eq]

end RtcmFramer

/-- How `runRover` ends: it counts as failed, or as connected, with what it adds to the totals
and the packets that it logs. -/
inductive RoverRun
  | failed
  | connected (totalBytes totalPkts : ℕ) (pkts : List Bytes)
  deriving DecidableEq, Repr

/-- What the first `Read` returned behind the response. -/
def leftover (resp : Bytes) : Bytes :=
  match indexOf (ascii "\r\n\r\n") resp with
  | some headerEnd => if headerEnd + 4 < resp.length then resp.drop (headerEnd + 4) else []
  | none => []

/-- The loop of `runRover` over the further `Read` results. -/
def receive (framer : RtcmFramer) : List Bytes → ℕ × ℕ × List Bytes
  | [] => (0, 0, [])
  | r :: conn =>
    let pkts := (framer.push r).2
    let rest := receive (framer.push r).1 conn
    (r.length + rest.1, pkts.length + rest.2.1, pkts ++ rest.2.2)

/-- `runRover` on a connection whose `Read` calls return `conn` before one fails. -/
def runRover : List Bytes → RoverRun
  | [] => .failed
  | resp :: conn =>
    if !contains resp (ascii "200") then .failed
    else
      let left := leftover resp
      let first : RtcmFramer × List Bytes :=
        if 0 < left.length then RtcmFramer.push {} left else ({}, [])
      let rest := receive first.1 conn
      .connected (left.length + rest.1) (first.2.length + rest.2.1) (first.2 ++ rest.2.2)

/-! ## What the rover gets -/

theorem receive_eq (conn : List Bytes) (framer : RtcmFramer) :
    receive framer conn = (conn.flatten.length, (framer.calls conn).flatten.length,
      (framer.calls conn).flatten) := by
  induction conn generalizing framer with
  | nil => rfl
  | cons r conn ih =>
    rw [receive, ih]
    simp [RtcmFramer.calls]

/-- The frames of all calls on a fresh framer are those of the stream. -/
theorem flatten_calls (chunks : List Bytes) :
    (RtcmFramer.calls {} chunks).flatten = (rtcm3.parse chunks.flatten).1 := by
  rw [RtcmFramer.calls_eq, RTCMFramer.calls_map_data,
    RTCMFramer.framer.flatten_calls resting_nil.pending]
  rfl

/-- The beginnings of the response: `200` is in those of seven bytes or more, and nothing comes
behind it. -/
theorem response_take : ∀ k ≤ 14,
    (contains (icyOK.take k) (ascii "200") = true ↔ 7 ≤ k) ∧ leftover (icyOK.take k) = [] := by
  decide

theorem leftover_append (y : Bytes) : leftover (icyOK ++ y) = y := by
  have hindex : indexOf (ascii "\r\n\r\n") (icyOK ++ y) = some 10 := rfl
  have hlen : (icyOK ++ y).length = 14 + y.length := by
    rw [List.length_append]
    rfl
  unfold leftover
  rw [hindex]
  dsimp only
  split_ifs with h
  · rfl
  · exact (List.eq_nil_of_length_eq_zero (by omega)).symm

/-- What a first `Read` of a stream behind the response counts for. -/
theorem response_cases {resp more : Bytes} (h : resp <+: icyOK ++ more) :
    (contains resp (ascii "200") = true ↔ 7 ≤ resp.length) ∧ leftover resp = resp.drop 14 := by
  have hlen : icyOK.length = 14 := rfl
  by_cases hshort : resp.length ≤ 14
  · have htake : resp = icyOK.take resp.length :=
      List.prefix_iff_eq_take.mp (List.prefix_of_prefix_length_le h (List.prefix_append _ _) hshort)
    have hk := response_take resp.length hshort
    rw [← htake] at hk
    exact ⟨hk.1, by rw [hk.2, List.drop_eq_nil_of_le hshort]⟩
  · obtain ⟨y, rfl⟩ := List.prefix_of_prefix_length_le (List.prefix_append icyOK more) h
      (by omega)
    refine ⟨iff_of_true ?_ (by rw [List.length_append]; omega), ?_⟩
    · exact contains_iff.mpr (List.infix_append (ascii "ICY ") (ascii "200")
        (ascii " OK\r\n\r\n" ++ y))
    · rw [leftover_append]
      rfl

/-- **The packets are those of the bytes behind the response**, however the connection cuts them;
a first `Read` of fewer than seven bytes is taken for a refusal. -/
theorem runRover_eq {resp more : Bytes} {reads : List Bytes}
    (h : (resp :: reads).flatten <+: icyOK ++ more) :
    runRover (resp :: reads) =
      if resp.length < 7 then .failed
      else
        let pkts := (rtcm3.parse ((resp :: reads).flatten.drop 14)).1
        .connected ((resp.drop 14).length + reads.flatten.length) pkts.length pkts := by
  rw [List.flatten_cons] at h ⊢
  obtain ⟨hcontains, hleft⟩ := response_cases ((List.prefix_append resp _).trans h)
  rw [runRover]
  by_cases h7 : resp.length < 7
  · have hno : contains resp (ascii "200") = false :=
      Bool.eq_false_iff.mpr fun hc => (hcontains.mp hc).not_gt h7
    rw [hno, if_pos h7]
    rfl
  rw [hcontains.mpr (Nat.not_lt.mp h7), if_neg h7]
  -- what is pushed is what stands behind the response, after what was not yet read of that
  have hgap : rtcm3.Gap (((resp ++ reads.flatten).take 14).drop resp.length) := by
    refine rtcm3_gap_iff.mpr fun hmem => ?_
    have hpre : (resp ++ reads.flatten).take 14 <+: icyOK :=
      List.prefix_of_prefix_length_le ((List.take_prefix 14 _).trans h) (List.prefix_append _ _)
        (List.length_take_le 14 _)
    exact absurd (hpre.subset (List.mem_of_mem_drop hmem)) (by decide)
  have hstream : resp.drop 14 ++ reads.flatten =
      ((resp ++ reads.flatten).take 14).drop resp.length ++ (resp ++ reads.flatten).drop 14 := by
    rcases Nat.le_total resp.length 14 with hle | hle
    · rw [List.drop_eq_nil_of_le hle, List.nil_append, ← List.drop_append_of_le_length
        (by rw [List.length_take, List.length_append]; omega), List.take_append_drop,
        List.drop_left]
    · have hnil : ((resp ++ reads.flatten).take 14).drop resp.length = [] :=
        List.drop_eq_nil_of_le ((List.length_take_le 14 _).trans hle)
      rw [hnil, List.nil_append, List.drop_append_of_le_length hle]
  have hparse : (rtcm3.parse (resp.drop 14 ++ reads.flatten)).1 =
      (rtcm3.parse ((resp ++ reads.flatten).drop 14)).1 := by
    rw [hstream, Format.parse_gap_append hgap]
  simp only [Bool.not_true, hleft, receive_eq]
  by_cases hpos : 0 < (resp.drop 14).length
  · have hcalls := flatten_calls (resp.drop 14 :: reads)
    rw [List.flatten_cons, hparse, RtcmFramer.calls, List.flatten_cons] at hcalls
    rw [if_pos hpos, ← hcalls, List.length_append]
    rfl
  · have hnil : resp.drop 14 = [] := List.eq_nil_of_length_eq_zero (Nat.eq_zero_of_not_pos hpos)
    have hcalls := flatten_calls reads
    rw [hnil, List.nil_append] at hparse
    rw [if_neg hpos, hcalls, ← hparse]
    simp

/-- **From the base station to the rover.** In every reachable state of the caster whose
broadcasts on a mountpoint are packets of framers, let a rover of the mountpoint have read what
`resp` and `reads` hold of the bytes written to it, however they are cut. If the first `Read` got
seven bytes, then the rover's packets are the frames of a contiguous run of the broadcasts, and
all that it has received completely; and if the broadcasts are those of one read loop, they are a
run of the frames in the stream of its base station. -/
theorem base_to_rover {maxClients : ℤ} {s : RoverState} (h : (roverSystem maxClients).Reachable s)
    {m : ℕ} {mt : Mount} (hmt : s.mounts[m]? = some mt)
    (hlog : ∀ e ∈ mt.log, ∃ (f : RTCMFramer) (chunks : List Bytes), e.1 ∈ (f.pushAll chunks).2)
    {x : Session} (hx : x ∈ s.sessions) (hm : x.mount = m) (hadm : x.pc.admitted = true)
    {resp : Bytes} {reads : List Bytes} (hread : (resp :: reads).flatten <+: x.wire) :
    (resp.length < 7 → runRover (resp :: reads) = .failed) ∧
    (7 ≤ resp.length → ∃ first pkts,
      runRover (resp :: reads) = .connected ((resp.drop 14).length + reads.flatten.length)
        pkts.length (pkts.map RTCMPacket.data) ∧
      pkts <+: (mt.log.map Prod.fst).drop first ∧ pkts <+: x.packets ∧
      (∀ pkt, pkts ++ [pkt] <+: x.packets →
        (resp :: reads).flatten.length < (icyOK ++ Session.bytesOf (pkts ++ [pkt])).length) ∧
      ∀ conn : List Bytes, mt.log.map Prod.fst <+: (RTCMFramer.pushAll {} conn).2 →
        pkts.map RTCMPacket.data <+: (rtcm3.parse conn.flatten).1.drop first) := by
  have hserving := reachable_serving h
  obtain ⟨i, hi⟩ := List.getElem?_of_mem hx
  obtain ⟨φ, hφ⟩ := (hserving.delivering m mt hmt).feed i x hi hm
  obtain ⟨first, hblock, -⟩ := hφ.gapFree
  have hpre := hread.trans ((hserving.delivered x hx).on_wire hadm)
  have hrun := runRover_eq hpre
  refine ⟨fun h7 => by rw [hrun, if_pos h7], fun h7 => ?_⟩
  rw [if_neg (Nat.not_lt.mpr h7)] at hrun
  have hbroadcast : x.packets <+: (mt.log.map Prod.fst).drop first := by
    rw [hblock]
    exact List.take_prefix _ _
  have hframes : ∀ p ∈ x.packets.map RTCMPacket.data, rtcm3.IsFrame p := by
    intro p hp
    obtain ⟨pkt, hpkt, rfl⟩ := List.mem_map.mp hp
    obtain ⟨e, he, rfl⟩ := List.mem_map.mp (List.mem_of_mem_drop (hbroadcast.subset hpkt))
    obtain ⟨f, chunks, hmem⟩ := hlog e he
    exact rtcm3_isFrame_iff.mpr (RTCMFramer.mem_pushAll hmem)
  -- behind the response there are accepted packets only, the last of them perhaps cut off
  have hbytes : (resp :: reads).flatten.drop 14 <+: (x.packets.map RTCMPacket.data).flatten := by
    have hdrop := List.IsPrefix.drop hpre icyOK.length
    rw [List.drop_left] at hdrop
    exact hdrop
  obtain ⟨n, hn, hparse, -, hmax⟩ := Format.parse_cut_off hframes hbytes
  rw [List.length_map] at hn hmax
  rw [← List.map_take] at hparse hmax
  have hlen : (x.packets.take n).length = n := List.length_take_of_le hn
  have htake : x.packets.take n <+: x.packets := List.take_prefix n _
  refine ⟨first, x.packets.take n, ?_, htake.trans hbroadcast, htake, fun pkt hpkt => ?_,
    fun conn hconn => ?_⟩
  · rw [hrun, hparse]
    simp only [List.length_map]
  · have hnext : x.packets.take n ++ [pkt] = x.packets.take (n + 1) := by
      rw [List.prefix_iff_eq_take.mp hpkt, List.length_append, hlen]
      rfl
    have hlt := hmax (Nat.lt_of_succ_le (by simpa [hlen] using hpkt.length_le))
    have h14 : icyOK.length = 14 := rfl
    rw [hnext, List.length_append, Session.bytesOf, List.flatMap_def, h14]
    rw [List.length_drop] at hlt
    omega
  · have hstream := congrArg Prod.fst (RTCMFramer.pushAll_parse conn)
    rw [hstream, ← List.map_drop]
    exact ((htake.trans hbroadcast).trans (List.IsPrefix.drop hconn first)).map _

/-- A frame without a payload. -/
def shortFrame : RTCMPacket := ⟨[0xD3, 0x00, 0x00, 0x0A, 0x0B, 0x0C]⟩

/-- A rover joins, and one frame is broadcast and written to it. -/
def oneFrame : List RoverStep :=
  [.operate 0 (.setSource ⟨0, ascii "s", 0⟩), .connect 0 (ascii "a") 0] ++
  List.replicate 6 (.handler 0 .stored .ok) ++
  [.broadcast 0 shortFrame, .deliver 0 .writeChan, .deliver 0 .writeChan, .deliver 0 .writeChan,
    .writeLoop 0 .writeChan .stored .ok, .writeLoop 0 .writeChan .stored .ok]

/-- One frame of six bytes, and the response in two reads: what the client makes of either. -/
theorem base_to_rover_oneFrame :
    ∃ s mt x, (roverSystem 8).run (oneMount 8) oneFrame = some s ∧ s.mounts[0]? = some mt ∧
      s.sessions = [x] ∧ x.wire = icyOK ++ shortFrame.data ∧
      ((ascii "ICY 200 ").length < 7 →
        runRover [ascii "ICY 200 ", ascii "OK\r\n\r\n" ++ [0xD3, 0], [0, 0x0A, 0x0B, 0x0C]] =
          .failed) ∧
      (7 ≤ (ascii "ICY 200 ").length → ∃ first pkts,
        runRover [ascii "ICY 200 ", ascii "OK\r\n\r\n" ++ [0xD3, 0], [0, 0x0A, 0x0B, 0x0C]] =
          .connected 12 pkts.length (pkts.map RTCMPacket.data) ∧
        pkts <+: (mt.log.map Prod.fst).drop first ∧ pkts <+: x.packets ∧
        (∀ pkt, pkts ++ [pkt] <+: x.packets →
          20 < (icyOK ++ Session.bytesOf (pkts ++ [pkt])).length) ∧
        ∀ conn : List Bytes, mt.log.map Prod.fst <+: (RTCMFramer.pushAll {} conn).2 →
          pkts.map RTCMPacket.data <+: (rtcm3.parse conn.flatten).1.drop first) := by
  obtain ⟨s, mt, x, hs, hmt, hx, hwire, hlog, hm, hadm⟩ :
      ∃ s mt x, (roverSystem 8).run (oneMount 8) oneFrame = some s ∧ s.mounts[0]? = some mt ∧
        s.sessions = [x] ∧ x.wire = icyOK ++ shortFrame.data ∧ mt.log.map Prod.fst = [shortFrame] ∧
        x.mount = 0 ∧ x.pc.admitted = true := ⟨_, _, _, rfl, rfl, rfl, rfl, rfl, rfl, rfl⟩
  refine ⟨s, mt, x, hs, hmt, hx, hwire, ?_⟩
  refine base_to_rover (.of_run _ (oneMount_init 8) hs) hmt (fun e he => ?_)
    (hx ▸ List.mem_singleton_self x) hm hadm ?_
  · refine ⟨{}, [shortFrame.data], ?_⟩
    have hmem : e.1 ∈ mt.log.map Prod.fst := List.mem_map_of_mem he
    rw [hlog] at hmem
    rw [List.mem_singleton.mp hmem]
    decide
  · rw [hwire]
    exact List.prefix_rfl

end Simrover

end NtripCaster
