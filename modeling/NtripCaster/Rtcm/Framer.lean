import Mathlib.Data.List.GetD
import NtripCaster.Go.Bytes
import NtripCaster.Library.Framing

/-!
# The RTCM3 framer

`internal/rtcm/framer.go` and `packet.go`: bytes are pushed into a buffer, and complete RTCM3
frames are taken from its front. A frame is the preamble `0xD3`, two bytes with a 10-bit
payload length, the payload and three bytes of CRC.

## Main definitions

* `RTCMFramer.push`: buffer the bytes and return the complete packets
* `RTCMFramer.pushAll`: successive `push` calls
* `rtcm3`: the RTCM3 frame format, as a `Framing.Format`

## Main results

* `RTCMFramer.push_layout`: one call lays out the bytes it takes from the buffer
* `RTCMFramer.pushAll_layout`: so does any sequence of calls on a framer at rest
* `RTCMFramer.mem_pushAll`: every packet is a whole frame
* `RTCMFramer.pushAll_segmentation`: the cuts between calls make no difference
* `RTCMFramer.pushAll_conservation`: no byte is lost, and the buffer stays bounded
-/

namespace NtripCaster

open Framing

/-- A complete RTCM3 frame. -/
structure RTCMPacket where
  data : Bytes
  deriving DecidableEq, Repr

/-- The byte that a frame starts with. -/
def preamble : UInt8 := 0xD3
/-- The preamble, six reserved bits and ten of the length. -/
def headerLen : ℕ := 3
/-- The CRC-24Q behind the payload, which the framer does not check. -/
def crcLen : ℕ := 3
/-- The largest length of a payload that ten bits can give. -/
def maxPayload : ℕ := 1023
/-- The longest frame. -/
def maxFrame : ℕ := headerLen + maxPayload + crcLen

/-- The 10-bit length field: `int(buf[1]&0x03)<<8 | int(buf[2])`. -/
def payloadLen (buf : Bytes) : ℕ :=
  (buf.getD 1 0 &&& 0x03).toNat <<< 8 ||| (buf.getD 2 0).toNat

/-- The total size of the frame whose header starts `buf`. -/
def frameLen (buf : Bytes) : ℕ := headerLen + payloadLen buf + crcLen

/-- The index of the first preamble, or `none` for the source's `-1`. -/
def findPreamble (buf : Bytes) : Option ℕ := buf.findIdx? (· == preamble)

/-- `RTCMFramer`: the bytes it has not cut into frames yet. -/
structure RTCMFramer where
  buf : Bytes := []
  deriving DecidableEq, Repr

namespace RTCMFramer

/-- The loop of `Push` on the buffer `buf`: the packets and the buffer left at its `break`.
Every round shortens the buffer, so `fuel` beyond its length is never spent. -/
def pushLoop : ℕ → Bytes → List RTCMPacket × Bytes
  | 0, buf => ([], buf)
  | fuel + 1, buf =>
    -- fewer bytes than a header are kept without a look at them
    if buf.length < headerLen then ([], buf)
    else if buf.head? ≠ some preamble then
      match findPreamble buf with
      | none => ([], []) -- no preamble at all: the buffer is emptied
      | some idx => pushLoop fuel (buf.drop idx)
    -- the frame is not complete: wait for more
    else if buf.length < frameLen buf then ([], buf)
    else
      let pkt : RTCMPacket := ⟨buf.take (frameLen buf)⟩
      let rest := pushLoop fuel (buf.drop (frameLen buf))
      (pkt :: rest.1, rest.2)

/-- `RTCMFramer.Push`: append the bytes to the buffer and take the complete packets. -/
def push (f : RTCMFramer) (data : Bytes) : RTCMFramer × List RTCMPacket :=
  let r := pushLoop ((f.buf ++ data).length + 1) (f.buf ++ data)
  (⟨r.2⟩, r.1)

/-- Successive `Push` calls: the final framer and all packets in the order returned. -/
def pushAll (f : RTCMFramer) : List Bytes → RTCMFramer × List RTCMPacket
  | [] => (f, [])
  | data :: rest =>
    let r := pushAll (f.push data).1 rest
    (r.1, (f.push data).2 ++ r.2)

end RTCMFramer

/-! ## RTCM3 as a frame format -/

theorem payloadLen_le (buf : Bytes) : payloadLen buf ≤ maxPayload := by
  have h₁ : (buf.getD 1 0 &&& 0x03).toNat < 2 ^ 2 := by
    rw [UInt8.toNat_and]
    exact Nat.and_lt_two_pow _ (by decide)
  have h₂ : (buf.getD 2 0).toNat < 2 ^ 8 := UInt8.toNat_lt _
  unfold payloadLen
  rw [← Nat.shiftLeft_add_eq_or_of_lt h₂, Nat.shiftLeft_eq, maxPayload]
  omega

theorem frameLen_le (buf : Bytes) : frameLen buf ≤ maxFrame := by
  have := payloadLen_le buf
  unfold frameLen maxFrame
  omega

theorem frameLen_pos (buf : Bytes) : headerLen < frameLen buf := by
  unfold frameLen crcLen
  omega

theorem payloadLen_append {buf : Bytes} (h : headerLen ≤ buf.length) (ys : Bytes) :
    payloadLen (buf ++ ys) = payloadLen buf := by
  unfold headerLen at h
  unfold payloadLen
  rw [List.getD_append _ _ _ _ (by omega), List.getD_append _ _ _ _ (by omega)]

/-- The RTCM3 frame format. -/
def rtcm3 : Format UInt8 where
  lead b := b == preamble
  size buf := if buf.length < headerLen then none else some (frameLen buf)
  size_pos {buf n} h := by
    split_ifs at h
    obtain rfl := Option.some.inj h
    exact (Nat.zero_le _).trans_lt (frameLen_pos buf)
  size_append {buf n} h ys := by
    split_ifs at h with hlen
    have hlen' : headerLen ≤ buf.length := by omega
    rw [if_neg (by rw [List.length_append]; omega), ← h, frameLen, frameLen,
      payloadLen_append hlen']

@[simp] theorem rtcm3_lead (b : UInt8) : rtcm3.lead b = (b == preamble) := rfl

theorem rtcm3_size (buf : Bytes) :
    rtcm3.size buf = if buf.length < headerLen then none else some (frameLen buf) := rfl

theorem rtcm3_gap_iff {xs : Bytes} : rtcm3.Gap xs ↔ preamble ∉ xs := by
  constructor
  · intro h hmem
    simpa using h _ hmem
  · intro h x hx
    exact beq_false_of_ne fun he => h (he ▸ hx)

theorem rtcm3_isFrame_iff {p : Bytes} :
    rtcm3.IsFrame p ↔ p.head? = some preamble ∧ p.length = 6 + payloadLen p := by
  constructor
  · rintro ⟨⟨x, xs, rfl, hx⟩, hsize⟩
    refine ⟨by simpa using hx, ?_⟩
    rw [rtcm3_size] at hsize
    split_ifs at hsize
    have := Option.some.inj hsize
    simp only [frameLen, headerLen, crcLen] at this
    omega
  · rintro ⟨hhead, hlen⟩
    cases p with
    | nil => cases hhead
    | cons x xs =>
      refine ⟨⟨x, xs, rfl, by simpa using hhead⟩, ?_⟩
      rw [rtcm3_size, if_neg (by simp only [headerLen]; omega)]
      simp only [frameLen, headerLen, crcLen, Option.some.injEq]
      omega

/-! ## The loop of `push` -/

/-- The buffer a `push` leaves: too short for a header, or an incomplete frame. -/
def Resting (buf : Bytes) : Prop :=
  buf.length < headerLen ∨ buf.head? = some preamble ∧ buf.length < frameLen buf

theorem Resting.length_lt {buf : Bytes} (h : Resting buf) : buf.length < maxFrame := by
  rcases h with h | ⟨-, h⟩
  · exact h.trans_le (by decide)
  · exact h.trans_le (frameLen_le buf)

theorem Resting.pending {buf : Bytes} (h : Resting buf) : rtcm3.Pending buf := by
  rcases h with h | ⟨hhead, hlt⟩
  · rcases hsync : rtcm3.resync buf with - | ⟨x, xs⟩
    · exact .inl hsync
    · refine .inr ⟨⟨x, xs, hsync, ?_⟩, fun n hn => ?_⟩
      · have := List.head?_dropWhile_not (fun b => !rtcm3.lead b) buf
        rw [← Format.resync, hsync] at this
        simpa using this
      · have hle := rtcm3.resync_length_le buf
        rw [rtcm3_size, if_pos (by omega)] at hn
        cases hn
  · cases buf with
    | nil => cases hhead
    | cons x xs =>
      have hx : rtcm3.lead x = true := by simpa using hhead
      have hsync : rtcm3.resync (x :: xs) = x :: xs := Format.resync_lead hx
      refine .inr ⟨⟨x, xs, hsync, hx⟩, fun n hn => ?_⟩
      rw [hsync] at hn ⊢
      rw [rtcm3_size] at hn
      -- a header is there, so the frame it declares is the one that is not complete
      split_ifs at hn
      exact Option.some.inj hn ▸ hlt

theorem findPreamble_none {buf : Bytes} (h : findPreamble buf = none) : rtcm3.Gap buf := by
  rw [rtcm3_gap_iff]
  intro hmem
  have := List.findIdx?_eq_none_iff.mp h preamble hmem
  simp at this

theorem findPreamble_some {buf : Bytes} {idx : ℕ} (h : findPreamble buf = some idx) :
    rtcm3.Gap (buf.take idx) ∧ idx < buf.length := by
  obtain ⟨hlt, -, hbefore⟩ := List.findIdx?_eq_some_iff_getElem.mp h
  refine ⟨fun x hx => ?_, hlt⟩
  obtain ⟨j, hj, rfl⟩ := List.mem_iff_getElem.mp hx
  rw [List.length_take] at hj
  have := hbefore j (by omega)
  simpa [List.getElem_take] using this

theorem findPreamble_pos {buf : Bytes} {idx : ℕ} (h : findPreamble buf = some idx)
    (hhead : buf.head? ≠ some preamble) : 0 < idx := by
  obtain ⟨hlt, hlead, -⟩ := List.findIdx?_eq_some_iff_getElem.mp h
  refine Nat.pos_of_ne_zero fun h0 => hhead ?_
  subst h0
  rw [List.head?_eq_getElem?, List.getElem?_eq_getElem hlt]
  simpa using hlead

theorem isFrame_take_frameLen {buf : Bytes} (hhead : buf.head? = some preamble)
    (hlen : frameLen buf ≤ buf.length) : rtcm3.IsFrame (buf.take (frameLen buf)) := by
  have hpos := frameLen_pos buf
  have htake : (buf.take (frameLen buf)).length = frameLen buf := List.length_take_of_le hlen
  have hpay : payloadLen (buf.take (frameLen buf)) = payloadLen buf := by
    conv_rhs => rw [← List.take_append_drop (frameLen buf) buf]
    exact (payloadLen_append (by omega) _).symm
  refine rtcm3_isFrame_iff.mpr ⟨?_, ?_⟩
  · rw [List.head?_take, if_neg (by omega), hhead]
  · rw [htake, hpay]
    simp only [frameLen, headerLen, crcLen]
    omega

/-- A frame at the front of the buffer is the first of the layout of what is taken. -/
theorem layout_frame {buf taken left : Bytes} {ps : List Bytes} (hhead : buf.head? = some preamble)
    (hlen : frameLen buf ≤ buf.length) (hbuf : buf.drop (frameLen buf) = taken ++ left)
    (hlay : rtcm3.Layout ps taken) :
    buf = buf.take (frameLen buf) ++ taken ++ left ∧
      rtcm3.Layout (buf.take (frameLen buf) :: ps) (buf.take (frameLen buf) ++ taken) := by
  refine ⟨?_, .frame (g := []) .nil (isFrame_take_frameLen hhead hlen) hlay⟩
  rw [List.append_assoc, ← hbuf, List.take_append_drop]

theorem resting_nil : Resting [] := .inl (by decide)

theorem RTCMPacket.data_injective : Function.Injective RTCMPacket.data := by
  rintro ⟨d⟩ ⟨d'⟩ rfl
  rfl

namespace RTCMFramer

/-- One run of the loop: the bytes it takes from the buffer are laid out as its packets, and
the buffer it leaves is at rest. -/
theorem pushLoop_layout (fuel : ℕ) (buf : Bytes) (hfuel : buf.length < fuel) :
    ∃ taken, buf = taken ++ (pushLoop fuel buf).2 ∧
      rtcm3.Layout ((pushLoop fuel buf).1.map RTCMPacket.data) taken ∧
      Resting (pushLoop fuel buf).2 := by
  induction fuel generalizing buf with
  | zero => omega
  | succ fuel ih =>
    unfold pushLoop
    split_ifs with hshort hhead hpart
    · exact ⟨[], rfl, .gap .nil, .inl hshort⟩
    · split
      next hnone =>
        exact ⟨buf, (List.append_nil buf).symm, .gap (findPreamble_none hnone), .inl (by decide)⟩
      next idx hsome =>
        obtain ⟨hgap, hlt⟩ := findPreamble_some hsome
        have hpos := findPreamble_pos hsome hhead
        obtain ⟨taken, hbuf, hlay, hrest⟩ := ih (buf.drop idx) (by rw [List.length_drop]; omega)
        refine ⟨buf.take idx ++ taken, ?_, hlay.gap_append hgap, hrest⟩
        rw [List.append_assoc, ← hbuf, List.take_append_drop]
    · exact ⟨[], rfl, .gap .nil, .inr ⟨not_not.mp hhead, hpart⟩⟩
    · have hpos := frameLen_pos buf
      obtain ⟨taken, hbuf, hlay, hrest⟩ :=
        ih (buf.drop (frameLen buf)) (by rw [List.length_drop]; omega)
      obtain ⟨hbuf, hlay⟩ := layout_frame (not_not.mp hhead) (by omega) hbuf hlay
      exact ⟨_, hbuf, hlay, hrest⟩

/-- One `push`: the buffered bytes and the new ones are the bytes taken, laid out as the
packets returned, and the new buffer, which is at rest. -/
theorem push_layout (f : RTCMFramer) (data : Bytes) :
    ∃ taken, f.buf ++ data = taken ++ (f.push data).1.buf ∧
      rtcm3.Layout ((f.push data).2.map RTCMPacket.data) taken ∧
      Resting (f.push data).1.buf :=
  pushLoop_layout _ _ (Nat.lt_succ_self _)

/-- Any sequence of calls on a framer at rest. -/
theorem pushAll_layout (chunks : List Bytes) (f : RTCMFramer) (hf : Resting f.buf) :
    ∃ taken, f.buf ++ chunks.flatten = taken ++ (f.pushAll chunks).1.buf ∧
      rtcm3.Layout ((f.pushAll chunks).2.map RTCMPacket.data) taken ∧
      Resting (f.pushAll chunks).1.buf := by
  induction chunks generalizing f with
  | nil => exact ⟨[], by simp [pushAll], .gap .nil, hf⟩
  | cons data rest ih =>
    -- the first call leaves a buffer at rest, from which the others go on
    obtain ⟨taken, hbuf, hlay, hrest⟩ := push_layout f data
    obtain ⟨taken', hbuf', hlay', hrest'⟩ := ih (f.push data).1 hrest
    refine ⟨taken ++ taken', ?_, ?_, hrest'⟩
    · rw [List.flatten_cons, ← List.append_assoc, hbuf, List.append_assoc, hbuf',
        ← List.append_assoc]
      rfl
    · simpa only [pushAll, List.map_append] using hlay.append hlay'

/-- Whatever was in the buffer, the packets returned are whole frames. -/
theorem mem_pushAll {chunks : List Bytes} {f : RTCMFramer} {pkt : RTCMPacket}
    (h : pkt ∈ (f.pushAll chunks).2) :
    pkt.data.head? = some preamble ∧ pkt.data.length = 6 + payloadLen pkt.data := by
  induction chunks generalizing f with
  | nil => cases h
  | cons data rest ih =>
    rcases List.mem_append.mp h with h | h
    · obtain ⟨_, -, hlay, -⟩ := push_layout f data
      exact rtcm3_isFrame_iff.mp (hlay.isFrame _ (List.mem_map_of_mem h))
    · exact ih h

/-! ## Runs of a fresh framer -/

/-- A fresh framer sees only the stream: its packets and its buffer from the first preamble on
are those of `Format.parse`, however the stream is cut. -/
theorem pushAll_parse (chunks : List Bytes) :
    rtcm3.parse chunks.flatten =
      ((pushAll {} chunks).2.map RTCMPacket.data, rtcm3.resync (pushAll {} chunks).1.buf) := by
  obtain ⟨taken, hbuf, hlay, hrest⟩ := pushAll_layout chunks {} resting_nil
  rw [← hlay.parse_pending hrest.pending, ← hbuf]
  rfl

/-- **Framing does not depend on segmentation**: two ways of cutting one stream into `push`
calls return the same packets, and leave the same buffer from its first preamble on. -/
theorem pushAll_segmentation {chunks chunks' : List Bytes}
    (h : chunks.flatten = chunks'.flatten) :
    (pushAll {} chunks).2 = (pushAll {} chunks').2 ∧
      (pushAll {} chunks).1.buf.dropWhile (· != preamble) =
        (pushAll {} chunks').1.buf.dropWhile (· != preamble) := by
  have hparse := (pushAll_parse chunks).symm.trans (h ▸ pushAll_parse chunks')
  refine ⟨?_, congrArg Prod.snd hparse⟩
  exact List.map_injective_iff.mpr RTCMPacket.data_injective (congrArg Prod.fst hparse)

theorem pushAll_segmentation_cut_header :
    (pushAll {} [[0x00, 0xD3], [], [0x00], [0x00, 0x0A, 0x0B, 0x0C, 0xD3]]).2 =
        (pushAll {} [[0x00, 0xD3, 0x00, 0x00, 0x0A, 0x0B, 0x0C, 0xD3]]).2 ∧
      (pushAll {} [[0x00, 0xD3], [], [0x00], [0x00, 0x0A, 0x0B, 0x0C, 0xD3]]).1.buf.dropWhile
          (· != preamble) =
        (pushAll {} [[0x00, 0xD3, 0x00, 0x00, 0x0A, 0x0B, 0x0C, 0xD3]]).1.buf.dropWhile
          (· != preamble) :=
  pushAll_segmentation (by decide)

/-- **Conservation and bounded buffer**: the bytes pushed so far are the packets returned, in
order, with preamble-free stretches dropped before each of them and after the last, and the
buffer; each packet is one whole frame; the buffer is short or an incomplete frame. -/
theorem pushAll_conservation (chunks : List Bytes) :
    (∃ (gaps : List Bytes) (gap : Bytes),
      gaps.length = (pushAll {} chunks).2.length ∧
      (∀ g ∈ gaps, preamble ∉ g) ∧ preamble ∉ gap ∧
      chunks.flatten =
        (List.zipWith (fun g pkt => g ++ pkt.data) gaps (pushAll {} chunks).2).flatten ++ gap ++
          (pushAll {} chunks).1.buf) ∧
    (∀ pkt ∈ (pushAll {} chunks).2,
      pkt.data.head? = some preamble ∧ pkt.data.length = 6 + payloadLen pkt.data) ∧
    (pushAll {} chunks).1.buf.length ≤ 1028 ∧
    ((pushAll {} chunks).1.buf.length < 3 ∨
      (pushAll {} chunks).1.buf.head? = some preamble ∧
        (pushAll {} chunks).1.buf.length < frameLen (pushAll {} chunks).1.buf) := by
  obtain ⟨taken, hbuf, hlay, hrest⟩ := pushAll_layout chunks {} resting_nil
  refine ⟨?_, fun pkt hpkt => mem_pushAll hpkt, Nat.le_of_lt_succ hrest.length_lt, hrest⟩
  obtain ⟨gaps, gap, hlen, hgaps, hgap, htaken⟩ := hlay.exists_gaps
  refine ⟨gaps, gap, by simpa using hlen, fun g hg => rtcm3_gap_iff.mp (hgaps g hg),
    rtcm3_gap_iff.mp hgap, ?_⟩
  rw [List.zipWith_map_right] at htaken
  rw [← htaken, ← hbuf]
  rfl

end RTCMFramer

end NtripCaster
