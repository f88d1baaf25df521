import NtripCaster.Rtcm.Framer

/-!
# The reference framer

`docs/go_ntrip_caster_architecture.md`, section 6, gives a framer that drops one byte at a time
before a preamble. `RTCMFramer.Push` jumps to the preamble, and empties a buffer that has none.

## Main definitions

* `ReferenceFramer.push`: the framer of the document
* `RTCMFramer.calls`, `ReferenceFramer.calls`: the packets of each call

## Main results

* `RTCMFramer.calls_eq_reference`: both framers return the same packets in every call
-/

namespace NtripCaster

open Framing

/-- A loop whose packets are laid out in the bytes that it takes, and that leaves a buffer at rest,
is a framer for the frame format. -/
def framerOfLoop (pushLoop : ℕ → Bytes → List RTCMPacket × Bytes)
    (hloop : ∀ fuel buf, buf.length < fuel → ∃ taken, buf = taken ++ (pushLoop fuel buf).2 ∧
      rtcm3.Layout ((pushLoop fuel buf).1.map RTCMPacket.data) taken ∧
      Resting (pushLoop fuel buf).2) : rtcm3.Framer where
  take buf := ((pushLoop (buf.length + 1) buf).1.map RTCMPacket.data,
    (pushLoop (buf.length + 1) buf).2)
  take_layout buf := by
    obtain ⟨taken, hbuf, hlay, hrest⟩ := hloop (buf.length + 1) buf (Nat.lt_succ_self _)
    exact ⟨taken, hbuf, hlay, hrest.pending⟩

/-- The framer of the document. -/
structure ReferenceFramer where
  buf : Bytes := []
  deriving DecidableEq, Repr

namespace ReferenceFramer

/-- The loop of the document's `Push`. Every round shortens the buffer, so `fuel` beyond its
length is never spent. -/
def pushLoop : ℕ → Bytes → List RTCMPacket × Bytes
  | 0, buf => ([], buf)
  | fuel + 1, buf =>
    if buf.length < 3 then ([], buf)
    else if buf.head? ≠ some 0xD3 then pushLoop fuel (buf.drop 1)
    else
      let total := 3 + payloadLen buf + 3
      if buf.length < total then ([], buf)
      else
        let rest := pushLoop fuel (buf.drop total)
        (⟨buf.take total⟩ :: rest.1, rest.2)

/-- `Push`, with the loop of the document. -/
def push (f : ReferenceFramer) (data : Bytes) : ReferenceFramer × List RTCMPacket :=
  let r := pushLoop ((f.buf ++ data).length + 1) (f.buf ++ data)
  (⟨r.2⟩, r.1)

/-- Successive `Push` calls: the packets of each. -/
def calls (f : ReferenceFramer) : List Bytes → List (List RTCMPacket)
  | [] => []
  | data :: rest => (f.push data).2 :: (f.push data).1.calls rest

/-- The bytes that the loop takes are laid out as its packets, one gap byte after the other. -/
theorem pushLoop_layout (fuel : ℕ) (buf : Bytes) (hfuel : buf.length < fuel) :
    ∃ taken, buf = taken ++ (pushLoop fuel buf).2 ∧
      rtcm3.Layout ((pushLoop fuel buf).1.map RTCMPacket.data) taken ∧
      Resting (pushLoop fuel buf).2 := by
  induction fuel generalizing buf with
  | zero => omega
  | succ fuel ih =>
    unfold pushLoop
    dsimp only
    split_ifs with hshort hhead hpart
    · exact ⟨[], rfl, .gap .nil, .inl hshort⟩
    · match buf, hhead, hshort, hfuel with
      | b :: rest, hhead, hshort, hfuel =>
        obtain ⟨taken, hbuf, hlay, hrest⟩ := ih rest (Nat.lt_of_succ_lt_succ hfuel)
        have hgap : rtcm3.Gap [b] := by
          rw [rtcm3_gap_iff, List.mem_singleton]
          rintro rfl
          exact hhead rfl
        exact ⟨b :: taken, congrArg (b :: ·) hbuf, hlay.gap_append hgap, hrest⟩
    · exact ⟨[], rfl, .gap .nil, .inr ⟨not_not.mp hhead, hpart⟩⟩
    · have hpart' : frameLen buf ≤ buf.length := Nat.not_lt.mp hpart
      have hpos := frameLen_pos buf
      obtain ⟨taken, hbuf, hlay, hrest⟩ :=
        ih (buf.drop (frameLen buf)) (by rw [List.length_drop]; omega)
      obtain ⟨hbuf, hlay⟩ := layout_frame (not_not.mp hhead) hpart' hbuf hlay
      exact ⟨_, hbuf, hlay, hrest⟩

/-- The reference framer, as one for the frame format. -/
def framer : rtcm3.Framer := framerOfLoop pushLoop pushLoop_layout

theorem calls_map_data (chunks : List Bytes) (f : ReferenceFramer) :
    (f.calls chunks).map (List.map RTCMPacket.data) = framer.calls f.buf chunks := by
  induction chunks generalizing f with
  | nil => rfl
  | cons data rest ih => rw [calls, List.map_cons, ih]; rfl

end ReferenceFramer

namespace RTCMFramer

/-- Successive `Push` calls: the packets of each. -/
def calls (f : RTCMFramer) : List Bytes → List (List RTCMPacket)
  | [] => []
  | data :: rest => (f.push data).2 :: (f.push data).1.calls rest

/-- The framer of the code, as one for the frame format. -/
def framer : rtcm3.Framer := framerOfLoop pushLoop pushLoop_layout

theorem calls_map_data (chunks : List Bytes) (f : RTCMFramer) :
    (f.calls chunks).map (List.map RTCMPacket.data) = framer.calls f.buf chunks := by
  induction chunks generalizing f with
  | nil => rfl
  | cons data rest ih => rw [calls, List.map_cons, ih]; rfl

/-- **The fast framer refines the plain one**: for every sequence of chunks, each call of `Push`
returns the packets that the same call of the reference framer returns. -/
theorem calls_eq_reference (chunks : List Bytes) :
    calls {} chunks = ReferenceFramer.calls {} chunks := by
  have hinj : Function.Injective (List.map (List.map RTCMPacket.data)) :=
    List.map_injective_iff.mpr (List.map_injective_iff.mpr RTCMPacket.data_injective)
  apply hinj
  rw [calls_map_data, ReferenceFramer.calls_map_data]
  exact Format.Framer.calls_eq framer ReferenceFramer.framer chunks rfl

/-- Two bytes of junk are kept by both, three by the plain framer only. -/
example :
    (push {} [0x01, 0x02, 0x03]).1.buf = [] ∧
      (ReferenceFramer.push {} [0x01, 0x02, 0x03]).1.buf = [0x02, 0x03] ∧
      calls {} [[0x01, 0x02, 0x03], [0xD3, 0x00], [0x00, 0x0A, 0x0B, 0x0C]] =
        [[], [], [⟨[0xD3, 0x00, 0x00, 0x0A, 0x0B, 0x0C]⟩]] := by
  decide

end RTCMFramer

end NtripCaster
