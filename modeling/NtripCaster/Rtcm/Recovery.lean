import NtripCaster.Simbase.Frame

/-!
# Stray preambles

The framer checks no CRC: at a preamble it takes as many bytes as are declared there. Between
well formed frames a preamble in the noise is therefore taken for a frame, and hides what comes
next.

## Main results

* `RTCMFramer.pushAll_noisy_iff`: the frames of a noisy stream are returned, and nothing else, if
  and only if no noise holds a preamble
* `RTCMFramer.pushAll_noisy_swallowed`: three bytes of noise swallow the frame after them
-/

namespace NtripCaster

open Framing Framing.Format

theorem rtcm3_bounded : rtcm3.Bounded maxFrame := by
  intro xs hlen
  have hle := frameLen_le xs
  refine ⟨frameLen xs, ?_, hle.trans hlen⟩
  rw [rtcm3_size, if_neg]
  simp only [maxFrame, headerLen] at hlen ⊢
  omega

/-- The bytes declared at the start of `buf`. -/
def takeFrame (buf : Bytes) : Bytes := buf.take (frameLen buf)

/-- In a stream that ends in bytes without a preamble, where well formed frames can start is
settled by a look at the bytes before. -/
theorem starts_of_wellFormed {s tail : Bytes} {offsets : List ℕ} (htail : preamble ∉ tail)
    (hs : ∀ i < s.length, i ∈ offsets ∨ ¬ WellFormed (takeFrame ((s ++ tail).drop i))) :
    ∀ u p v, s ++ tail = u ++ p ++ v → WellFormed p → u.length ∈ offsets := by
  intro u p v heq hp
  have hdrop : (s ++ tail).drop u.length = p ++ v := by
    rw [heq, List.append_assoc, List.drop_left]
  have hhead : headerLen ≤ p.length := hp.2.1 ▸ (frameLen_pos p).le
  have hframe : takeFrame ((s ++ tail).drop u.length) = p := by
    have hsize : frameLen (p ++ v) = p.length := by
      rw [hp.2.1, frameLen, payloadLen_append hhead, frameLen]
    rw [takeFrame, hdrop, hsize, List.take_left]
  by_cases hlt : u.length < s.length
  · refine (hs _ hlt).resolve_right fun hnot => hnot ?_
    rwa [hframe]
  · -- a frame starts with a preamble, and the tail holds none
    rw [List.drop_append, List.drop_eq_nil_of_le (by omega), List.nil_append] at hdrop
    have hmem : preamble ∈ p ++ v := List.mem_append_left _ (List.mem_of_mem_head? hp.1)
    exact absurd (List.mem_of_mem_drop (hdrop ▸ hmem)) htail

namespace RTCMFramer

/-- **Recovery from stray preambles**: of a stream in which well formed frames are separated by
noise, and start nowhere else, the framer returns exactly these frames if and only if no noise
holds a preamble. -/
theorem pushAll_noisy_iff (segs : List (Bytes × Bytes)) (last tail : Bytes) (chunks : List Bytes)
    (hframes : ∀ s ∈ segs, WellFormed s.2) (htail : preamble ∉ tail)
    (hlen : 1029 ≤ tail.length)
    (honly : ∀ u p v, noisy segs (last ++ tail) = u ++ p ++ v → WellFormed p →
      u.length ∈ starts segs)
    (hchunks : chunks.flatten = noisy segs (last ++ tail)) :
    (pushAll {} chunks).2.map RTCMPacket.data = segs.map Prod.snd ↔
      (∀ s ∈ segs, preamble ∉ s.1) ∧ preamble ∉ last := by
  have hparse := parse_noisy_iff rtcm3_bounded (fun _ h => WellFormed.isFrame h) hframes
    (rtcm3_gap_iff.mpr htail) hlen honly
  rw [← hchunks, pushAll_parse] at hparse
  simpa only [rtcm3_gap_iff] using hparse

/-- As many bytes without a preamble as the longest frame has. -/
@[irreducible] def quiet : Bytes := List.replicate 1029 0x00

theorem preamble_not_mem_quiet : preamble ∉ quiet := by
  unfold quiet
  exact fun h => absurd (List.eq_of_mem_replicate h) (by decide)

theorem length_quiet : quiet.length = 1029 := by
  unfold quiet
  exact List.length_replicate

/-- The shortest frame. -/
def shortest : Bytes := [0xD3, 0x00, 0x00, 0x47, 0xEA, 0x4B]

theorem pushAll_noisy_iff_shortest :
    (pushAll {} [[0x0A, 0xD3, 0x00], [0x00, 0x47, 0xEA, 0x4B] ++ quiet]).2.map RTCMPacket.data =
        [shortest] ↔
      (∀ s ∈ [(([0x0A] : Bytes), shortest)], preamble ∉ s.1) ∧ preamble ∉ ([] : Bytes) := by
  have hs : ∀ i < ([0x0A] ++ shortest).length, i ∈ [1] ∨
      ¬ WellFormed (takeFrame (([0x0A] ++ shortest ++ quiet).drop i)) := by decide +kernel
  exact pushAll_noisy_iff [([0x0A], shortest)] [] quiet _ (by decide +kernel)
    preamble_not_mem_quiet length_quiet.ge (starts_of_wellFormed preamble_not_mem_quiet hs)
    (by simp [shortest])

/-- The preamble in the noise declares an empty payload, and the checksum it takes as its own
is the start of the genuine frame. -/
theorem pushAll_noisy_swallowed :
    ¬ ∀ (segs : List (Bytes × Bytes)) (last tail : Bytes) (chunks : List Bytes),
      (∀ s ∈ segs, WellFormed s.2) → preamble ∉ tail → 1029 ≤ tail.length →
      (∀ u p v, noisy segs (last ++ tail) = u ++ p ++ v → WellFormed p →
        u.length ∈ starts segs) →
      chunks.flatten = noisy segs (last ++ tail) →
      (pushAll {} chunks).2.map RTCMPacket.data = segs.map Prod.snd := by
  intro h
  have hframes : ∀ s ∈ [(([0xD3, 0x00, 0x00] : Bytes), shortest)], WellFormed s.2 := by
    decide +kernel
  have hs : ∀ i < ([0xD3, 0x00, 0x00] ++ shortest).length, i ∈ [3] ∨
      ¬ WellFormed (takeFrame (([0xD3, 0x00, 0x00] ++ shortest ++ quiet).drop i)) := by
    decide +kernel
  have honly : ∀ u p v, noisy [([0xD3, 0x00, 0x00], shortest)] ([] ++ quiet) = u ++ p ++ v →
      WellFormed p → u.length ∈ starts [(([0xD3, 0x00, 0x00] : Bytes), shortest)] :=
    starts_of_wellFormed preamble_not_mem_quiet hs
  have hflat : [noisy [([0xD3, 0x00, 0x00], shortest)] ([] ++ quiet)].flatten =
      noisy [([0xD3, 0x00, 0x00], shortest)] ([] ++ quiet) := List.append_nil _
  have hfound := h _ [] quiet _ hframes preamble_not_mem_quiet length_quiet.ge honly hflat
  have hparse := congrArg Prod.fst
    (pushAll_parse [noisy [([0xD3, 0x00, 0x00], shortest)] ([] ++ quiet)])
  rw [hfound, hflat] at hparse
  -- the frame is found only if the noise is a gap
  have hgap := (parse_noisy_iff rtcm3_bounded (fun _ h => WellFormed.isFrame h) hframes
    (rtcm3_gap_iff.mpr preamble_not_mem_quiet) length_quiet.ge honly).mp hparse
  exact absurd (hgap.1 _ (List.mem_singleton_self _) 0xD3 (by decide)) (by decide)

end RTCMFramer

end NtripCaster
