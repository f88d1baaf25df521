import Mathlib.Data.List.Basic
import Mathlib.Data.List.TakeWhile
import Mathlib.Tactic.Common

/-!
# Self-delimiting frames in a stream

A frame format has lead symbols and declares, in a header at the start of a frame, how
long the frame is. A stream is read by dropping the symbols before the next lead symbol
and then taking the frame declared there.

## Main definitions

* `Format`: lead symbols and a declared size that later symbols cannot change
* `Format.next`, `Format.parse`: the first frame of a stream; all its frames, and what remains
* `Format.Layout`: a stretch of a stream that is frames separated by lead-free gaps
* `Format.Pending`: a remainder from which no frame can be taken yet
* `Format.Framer`: what takes the frames of a stream that arrives in chunks
* `Format.noisy`: a stream of frames with noise between them

## Main results

* `Format.Layout.parse_append`: a laid out stretch contributes exactly its frames
* `Format.Layout.unique`: frames and remainder are determined by the stream alone
* `Format.Framer.calls_eq`: two framers take the same frames at every chunk
* `Format.Framer.flatten_calls`: the frames of all chunks are those of the stream
* `Format.parse_cut_off`: of frames that are cut off, the complete ones are found
* `Format.parse_noisy_iff`: when exactly the frames of a noisy stream are found
-/

namespace Framing

universe u

/-- A frame format: which symbols start a frame, and the total size that a stream starting
with a frame declares, once enough of the header is there. -/
structure Format (α : Type u) where
  lead : α → Bool
  size : List α → Option ℕ
  size_pos : ∀ {xs n}, size xs = some n → 0 < n
  size_append : ∀ {xs n}, size xs = some n → ∀ ys, size (xs ++ ys) = some n

namespace Format

variable {α : Type u} (F : Format α)

/-- Drop the symbols before the next lead symbol. -/
def resync (xs : List α) : List α := xs.dropWhile fun x => !F.lead x

/-- No symbol of `xs` starts a frame. -/
def Gap (xs : List α) : Prop := ∀ x ∈ xs, F.lead x = false

/-- `p` is one whole frame: it starts with a lead symbol and has its declared size. -/
def IsFrame (p : List α) : Prop :=
  (∃ x xs, p = x :: xs ∧ F.lead x = true) ∧ F.size p = some p.length

/-- `r` starts with a lead symbol, and the frame declared there is not complete. -/
def Unfinished (r : List α) : Prop :=
  (∃ x xs, r = x :: xs ∧ F.lead x = true) ∧ ∀ n, F.size r = some n → r.length < n

/-- No frame can be taken from `r` yet: past its gap it is empty or unfinished. -/
def Pending (r : List α) : Prop := F.resync r = [] ∨ F.Unfinished (F.resync r)

variable {F}

theorem resync_gap_append {g xs : List α} (hg : F.Gap g) : F.resync (g ++ xs) = F.resync xs := by
  unfold resync
  rw [List.dropWhile_append_of_pos fun x hx => by simp [hg x hx]]

theorem resync_lead {x : α} {xs : List α} (hx : F.lead x = true) :
    F.resync (x :: xs) = x :: xs := by
  simp [resync, hx]

theorem resync_gap {g : List α} (hg : F.Gap g) : F.resync g = [] := by
  have h : F.resync (g ++ []) = F.resync [] := resync_gap_append hg
  rwa [List.append_nil] at h

theorem Gap.nil : F.Gap [] := fun _ h => by cases h

theorem Gap.append {g g' : List α} (hg : F.Gap g) (hg' : F.Gap g') : F.Gap (g ++ g') :=
  fun x hx => (List.mem_append.mp hx).elim (hg x) (hg' x)

theorem resync_length_le (xs : List α) : (F.resync xs).length ≤ xs.length :=
  (List.dropWhile_suffix _).length_le

/-! ## The frames of a stream -/

/-- The first frame of a stream and the symbols after it, if a whole frame is there. -/
def next (F : Format α) (xs : List α) : Option (List α × List α) :=
  match F.resync xs, F.size (F.resync xs) with
  | y :: ys, some n => if n ≤ (y :: ys).length then some ((y :: ys).splitAt n) else none
  | _, _ => none

theorem next_length_lt {xs p rest : List α} (h : F.next xs = some (p, rest)) :
    rest.length < xs.length := by
  have hle := F.resync_length_le xs
  unfold next at h
  split at h
  next y ys n hsync hsize =>
    have hpos := F.size_pos hsize
    rw [hsync] at hle
    split_ifs at h with hn
    simp only [List.splitAt_eq, Option.some.injEq, Prod.mk.injEq] at h
    rw [← h.2, List.length_drop]
    omega
  next => cases h

/-- The frames of a stream in order, and the remainder after the last of them, read from its
first lead symbol on. -/
def parse (F : Format α) (xs : List α) : List (List α) × List α :=
  match _h : F.next xs with
  | none => ([], F.resync xs)
  | some (p, rest) => (p :: (parse F rest).1, (parse F rest).2)
  termination_by xs.length
  decreasing_by all_goals exact next_length_lt _h

theorem parse_of_next_none {xs : List α} (h : F.next xs = none) :
    F.parse xs = ([], F.resync xs) := by
  rw [parse]
  split
  next => rfl
  next h' => rw [h] at h'; cases h'

theorem parse_of_next_some {xs p rest : List α} (h : F.next xs = some (p, rest)) :
    F.parse xs = (p :: (F.parse rest).1, (F.parse rest).2) := by
  rw [parse]
  split
  next h' => rw [h] at h'; cases h'
  next h' =>
    rw [h] at h'
    obtain ⟨rfl, rfl⟩ := Prod.mk.inj (Option.some.inj h')
    rfl

theorem parse_gap_append {g xs : List α} (hg : F.Gap g) : F.parse (g ++ xs) = F.parse xs := by
  have hsync : F.resync (g ++ xs) = F.resync xs := resync_gap_append hg
  -- the gap is dropped before anything else is looked at
  have hnext : F.next (g ++ xs) = F.next xs := by simp only [next, hsync]
  cases h : F.next xs with
  | none => rw [parse_of_next_none h, parse_of_next_none (hnext.trans h), hsync]
  | some v => rw [parse_of_next_some h, parse_of_next_some (hnext.trans h)]

theorem parse_frame_append {p xs : List α} (hp : F.IsFrame p) :
    F.parse (p ++ xs) = (p :: (F.parse xs).1, (F.parse xs).2) := by
  obtain ⟨⟨x, p, rfl, hx⟩, hsize⟩ := hp
  have hsync : F.resync (x :: p ++ xs) = x :: (p ++ xs) := resync_lead hx
  refine parse_of_next_some ?_
  -- the frame declares its own size, whatever follows it
  have hsize' := F.size_append hsize xs
  rw [List.cons_append] at hsize' hsync
  simp [next, hsync, hsize', List.splitAt_eq]

theorem parse_pending {r : List α} (hr : F.Pending r) : F.parse r = ([], F.resync r) := by
  refine parse_of_next_none ?_
  unfold next
  split
  next y ys n hsync hsize =>
    rcases hr with hnil | ⟨-, hlt⟩
    · rw [hsync] at hnil
      cases hnil
    · have := hlt n hsize
      rw [hsync] at this
      rw [if_neg (by omega)]
  next => rfl

theorem parse_gap {g : List α} (hg : F.Gap g) : F.parse g = ([], []) := by
  rw [parse_pending (.inl (resync_gap hg)), resync_gap hg]

/-! ## Laid out stretches -/

/-- `Layout F ps xs`: the stretch `xs` is the frames `ps` in order, with gaps before, between
and after them. -/
inductive Layout (F : Format α) : List (List α) → List α → Prop
  | gap {g : List α} (hg : F.Gap g) : Layout F [] g
  | frame {g p xs : List α} {ps : List (List α)} (hg : F.Gap g) (hp : F.IsFrame p)
      (rest : Layout F ps xs) : Layout F (p :: ps) (g ++ p ++ xs)

theorem Layout.gap_append {g xs : List α} {ps : List (List α)} (hg : F.Gap g)
    (h : F.Layout ps xs) : F.Layout ps (g ++ xs) := by
  cases h with
  | gap hg' => exact .gap (hg.append hg')
  | frame hg' hp rest =>
    rw [← List.append_assoc, ← List.append_assoc]
    exact .frame (hg.append hg') hp rest

theorem Layout.append {xs ys : List α} {ps qs : List (List α)} (hx : F.Layout ps xs)
    (hy : F.Layout qs ys) : F.Layout (ps ++ qs) (xs ++ ys) := by
  induction hx with
  | gap hg => exact hy.gap_append hg
  | frame hg hp _ ih =>
    rw [List.append_assoc]
    exact .frame hg hp ih

/-- The frames of a layout are frames. -/
theorem Layout.isFrame {xs : List α} {ps : List (List α)} (h : F.Layout ps xs) :
    ∀ p ∈ ps, F.IsFrame p := by
  induction h with
  | gap => intro p hp; cases hp
  | frame _ hp _ ih => exact List.forall_mem_cons.mpr ⟨hp, ih⟩

/-- A laid out stretch is its frames, each after its gap, and a last gap. -/
theorem Layout.exists_gaps {xs : List α} {ps : List (List α)} (h : F.Layout ps xs) :
    ∃ (gaps : List (List α)) (gap : List α), gaps.length = ps.length ∧
      (∀ g ∈ gaps, F.Gap g) ∧ F.Gap gap ∧
      xs = (List.zipWith (fun g p => g ++ p) gaps ps).flatten ++ gap := by
  induction h with
  | @gap g hg => exact ⟨[], g, rfl, by simp, hg, rfl⟩
  | @frame g p xs ps hg _ _ ih =>
    obtain ⟨gaps, gap, hlen, hgaps, hgap, rfl⟩ := ih
    exact ⟨g :: gaps, gap, by simpa using hlen, List.forall_mem_cons.mpr ⟨hg, hgaps⟩, hgap,
      by simp⟩

/-- Frames, each after its gap, and a last gap are a layout. -/
theorem Layout.of_gaps {gaps ps : List (List α)} {gap : List α} (hlen : gaps.length = ps.length)
    (hgaps : ∀ g ∈ gaps, F.Gap g) (hgap : F.Gap gap) (hps : ∀ p ∈ ps, F.IsFrame p) :
    F.Layout ps ((List.zipWith (fun g p => g ++ p) gaps ps).flatten ++ gap) := by
  induction ps generalizing gaps with
  | nil =>
    rw [List.zipWith_nil_right]
    exact .gap hgap
  | cons p ps ih =>
    cases gaps with
    | nil => cases hlen
    | cons g gaps =>
      have ⟨hg, hgaps⟩ := List.forall_mem_cons.mp hgaps
      have ⟨hp, hps⟩ := List.forall_mem_cons.mp hps
      rw [List.zipWith_cons_cons, List.flatten_cons, List.append_assoc]
      exact .frame hg hp (ih (Nat.succ.inj hlen) hgaps hps)

/-- A laid out stretch contributes its frames, whatever follows it. -/
theorem Layout.parse_append {xs r : List α} {ps : List (List α)} (h : F.Layout ps xs) :
    F.parse (xs ++ r) = (ps ++ (F.parse r).1, (F.parse r).2) := by
  induction h with
  | gap hg => simp [parse_gap_append hg]
  | frame hg hp _ ih =>
    rw [List.append_assoc, List.append_assoc, parse_gap_append hg, parse_frame_append hp, ih]
    rfl

/-- A layout followed by a pending remainder is what `parse` finds. -/
theorem Layout.parse_pending {xs r : List α} {ps : List (List α)} (h : F.Layout ps xs)
    (hr : F.Pending r) : F.parse (xs ++ r) = (ps, F.resync r) := by
  rw [h.parse_append, Format.parse_pending hr]
  simp

/-- **The stream determines its frames**: two readings of one stream as a layout and a pending
remainder have the same frames, and the same remainder from its first lead symbol on. -/
theorem Layout.unique {xs ys r r' : List α} {ps qs : List (List α)} (hx : F.Layout ps xs)
    (hr : F.Pending r) (hy : F.Layout qs ys) (hr' : F.Pending r') (h : xs ++ r = ys ++ r') :
    ps = qs ∧ F.resync r = F.resync r' := by
  have h₁ := hx.parse_pending hr
  rw [h, hy.parse_pending hr'] at h₁
  exact ⟨(congrArg Prod.fst h₁).symm, (congrArg Prod.snd h₁).symm⟩

/-! ## Framers

A framer has a buffer, to which a chunk of the stream is appended before the frames are taken.
Framers differ in the gaps that they keep in their buffers. -/

/-- What takes the frames of a buffer: the frames with the gaps between them, up to a remainder
from which no frame can be taken yet. -/
structure Framer (F : Format α) where
  take : List α → List (List α) × List α
  take_layout : ∀ buf, ∃ taken, buf = taken ++ (take buf).2 ∧ F.Layout (take buf).1 taken ∧
    F.Pending (take buf).2

namespace Framer

/-- The frames taken at each of the chunks. -/
def calls (P : Framer F) (buf : List α) : List (List α) → List (List (List α))
  | [] => []
  | data :: rest => (P.take (buf ++ data)).1 :: P.calls (P.take (buf ++ data)).2 rest

theorem parse_eq (P : Framer F) (buf : List α) :
    F.parse buf = ((P.take buf).1, F.resync (P.take buf).2) := by
  obtain ⟨taken, hbuf, hlay, hpend⟩ := P.take_layout buf
  rw [← hlay.parse_pending hpend, ← hbuf]

/-- Buffers that agree from their first lead symbol on hold the same frames, whatever comes
next. -/
theorem parse_append_congr {xs ys : List α} (h : F.resync xs = F.resync ys) (data : List α) :
    F.parse (xs ++ data) = F.parse (ys ++ data) := by
  have hsync : ∀ zs : List α, F.parse (zs ++ data) = F.parse (F.resync zs ++ data) := by
    intro zs
    have hgap : F.Gap (zs.takeWhile fun x => !F.lead x) := by
      intro x hx
      simpa using List.mem_takeWhile_imp hx
    conv_lhs => rw [← List.takeWhile_append_dropWhile (p := fun x => !F.lead x) (l := zs)]
    rw [List.append_assoc, parse_gap_append hgap]
    rfl
  rw [hsync xs, hsync ys, h]

/-- **Two framers take the same frames at every chunk**: their buffers may differ before the first
lead symbol only, and stay so. -/
theorem calls_eq (P Q : Framer F) (chunks : List (List α)) {buf buf' : List α}
    (h : F.resync buf = F.resync buf') : P.calls buf chunks = Q.calls buf' chunks := by
  induction chunks generalizing buf buf' with
  | nil => rfl
  | cons data rest ih =>
    have hparse := parse_append_congr h data
    rw [P.parse_eq, Q.parse_eq] at hparse
    obtain ⟨hframes, hsync⟩ := Prod.mk.inj hparse
    rw [calls, calls, hframes, ih hsync]

/-- The frames taken at all chunks are those of the stream. -/
theorem flatten_calls (P : Framer F) {buf : List α} (hbuf : F.Pending buf)
    (chunks : List (List α)) :
    (P.calls buf chunks).flatten = (F.parse (buf ++ chunks.flatten)).1 := by
  induction chunks generalizing buf with
  | nil => rw [List.flatten_nil, List.append_nil, parse_pending hbuf]; rfl
  | cons data rest ih =>
    obtain ⟨taken, htaken, hlay, hpend⟩ := P.take_layout (buf ++ data)
    have hstream : buf ++ (data ++ rest.flatten) =
        taken ++ ((P.take (buf ++ data)).2 ++ rest.flatten) := by
      rw [← List.append_assoc, ← List.append_assoc, ← htaken]
    rw [calls, List.flatten_cons, ih hpend, List.flatten_cons, hstream, hlay.parse_append]

end Framer

/-! ## A stream cut off -/

/-- A proper beginning of a frame is unfinished. -/
theorem IsFrame.pending_of_prefix {p xs : List α} (hp : F.IsFrame p) (h : xs <+: p)
    (hlt : xs.length < p.length) : F.Pending xs := by
  obtain ⟨⟨x, p, rfl, hx⟩, hsize⟩ := hp
  cases xs with
  | nil => exact .inl rfl
  | cons y ys =>
    obtain ⟨rfl, -⟩ := List.cons_prefix_cons.mp h
    refine .inr ?_
    rw [resync_lead hx]
    refine ⟨⟨y, ys, rfl, hx⟩, fun n hn => ?_⟩
    obtain ⟨rest, hrest⟩ := h
    have hfull := F.size_append hn rest
    rw [hrest, hsize] at hfull
    exact Option.some.inj hfull ▸ hlt

/-- What is found in the beginning of a stream comes first in the whole. -/
theorem parse_prefix (P : Framer F) {xs ys : List α} (h : xs <+: ys) :
    (F.parse xs).1 <+: (F.parse ys).1 := by
  obtain ⟨t, rfl⟩ := h
  obtain ⟨taken, hxs, hlay, -⟩ := P.take_layout xs
  have hys : F.parse (xs ++ t) = F.parse (taken ++ ((P.take xs).2 ++ t)) := by
    rw [← List.append_assoc, ← hxs]
  rw [hys, hlay.parse_append, P.parse_eq]
  exact List.prefix_append _ _

/-- **Of frames that are cut off, the complete ones are found**, and no others. -/
theorem parse_cut_off {ps : List (List α)} (hps : ∀ p ∈ ps, F.IsFrame p) {xs : List α}
    (h : xs <+: ps.flatten) :
    ∃ n, n ≤ ps.length ∧ (F.parse xs).1 = ps.take n ∧ (ps.take n).flatten <+: xs ∧
      (n < ps.length → xs.length < (ps.take (n + 1)).flatten.length) := by
  induction ps generalizing xs with
  | nil =>
    obtain rfl := List.prefix_nil.mp h
    exact ⟨0, le_rfl, by rw [parse_pending (.inl rfl)]; rfl, List.nil_prefix, fun h => h.false.elim⟩
  | cons p ps ih =>
    have ⟨hp, hps⟩ := List.forall_mem_cons.mp hps
    rw [List.flatten_cons] at h
    by_cases hlen : p.length ≤ xs.length
    · obtain ⟨ys, rfl⟩ := List.prefix_of_prefix_length_le (List.prefix_append p _) h hlen
      obtain ⟨n, hn, hparse, hpre, hmax⟩ := ih hps ((List.prefix_append_right_inj p).mp h)
      refine ⟨n + 1, Nat.succ_le_succ hn, ?_, ?_, fun hlt => ?_⟩
      · rw [parse_frame_append hp, hparse, List.take_succ_cons]
      · rw [List.take_succ_cons, List.flatten_cons]
        exact (List.prefix_append_right_inj p).mpr hpre
      · have := hmax (Nat.lt_of_succ_lt_succ hlt)
        rw [List.take_succ_cons, List.flatten_cons, List.length_append, List.length_append]
        omega
    · have hpre := List.prefix_of_prefix_length_le h (List.prefix_append p _)
        (Nat.le_of_not_le hlen)
      have hpend := hp.pending_of_prefix hpre (Nat.lt_of_not_le hlen)
      refine ⟨0, Nat.zero_le _, by rw [parse_pending hpend]; rfl, List.nil_prefix, fun _ => ?_⟩
      simpa using Nat.lt_of_not_le hlen

/-! ## Noise

A stream may hold noise in which lead symbols occur. The frame that one of them declares is
taken, whatever it is, so what follows the noise is no longer read frame by frame. -/

/-- The frames of `segs`, each after its noise, and what follows the last of them. -/
def noisy (segs : List (List α × List α)) (rest : List α) : List α :=
  segs.flatMap (fun s => s.1 ++ s.2) ++ rest

/-- The offsets in `noisy` at which the frames of `segs` start. -/
def starts : List (List α × List α) → List ℕ
  | [] => []
  | s :: segs => s.1.length :: (starts segs).map (s.1.length + s.2.length + ·)

@[simp] theorem noisy_nil (rest : List α) : noisy [] rest = rest := rfl

@[simp] theorem noisy_cons (s : List α × List α) (segs : List (List α × List α))
    (rest : List α) : noisy (s :: segs) rest = s.1 ++ (s.2 ++ noisy segs rest) := by
  simp [noisy]

theorem length_le_of_mem_starts {s : List α × List α} {segs : List (List α × List α)} {k : ℕ}
    (h : k ∈ starts (s :: segs)) : s.1.length ≤ k := by
  rcases List.mem_cons.mp h with rfl | h
  · exact le_rfl
  · obtain ⟨j, -, rfl⟩ := List.mem_map.mp h
    omega

/-- Past the first frame, the starts are those of the other frames. -/
theorem mem_starts_of_cons {s : List α × List α} {segs : List (List α × List α)} {k : ℕ}
    (hs : s.2 ≠ []) (h : s.1.length + s.2.length + k ∈ starts (s :: segs)) : k ∈ starts segs := by
  have hpos := List.length_pos_iff.mpr hs
  rcases List.mem_cons.mp h with h | h
  · omega
  · obtain ⟨j, hj, hjk⟩ := List.mem_map.mp h
    obtain rfl : j = k := by omega
    exact hj

theorem exists_lead_of_not_gap {g : List α} (hg : ¬ F.Gap g) :
    ∃ a x b, g = a ++ x :: b ∧ F.Gap a ∧ F.lead x = true := by
  induction g with
  | nil => exact absurd Gap.nil hg
  | cons y g ih =>
    by_cases hy : F.lead y = true
    · exact ⟨[], y, g, rfl, .nil, hy⟩
    · have hg' : ¬ F.Gap g := fun h =>
        hg (List.forall_mem_cons.mpr ⟨Bool.eq_false_iff.mpr hy, h⟩)
      obtain ⟨a, x, b, rfl, ha, hx⟩ := ih hg'
      exact ⟨y :: a, x, b, rfl, List.forall_mem_cons.mpr ⟨Bool.eq_false_iff.mpr hy, ha⟩, hx⟩

theorem parse_lead {x : α} {xs : List α} {n : ℕ} (hx : F.lead x = true)
    (hsize : F.size (x :: xs) = some n) (hn : n ≤ (x :: xs).length) :
    F.parse (x :: xs) =
      ((x :: xs).take n :: (F.parse ((x :: xs).drop n)).1, (F.parse ((x :: xs).drop n)).2) := by
  refine parse_of_next_some ?_
  rw [next, resync_lead hx, hsize]
  simp only [hn, if_true, List.splitAt_eq]

/-- No more than `M` symbols are needed to see a frame's size and to hold the frame. -/
def Bounded (F : Format α) (M : ℕ) : Prop :=
  ∀ xs : List α, M ≤ xs.length → ∃ n, F.size xs = some n ∧ n ≤ xs.length

/-- The first frame found in noise with a lead symbol starts inside the noise. -/
theorem parse_noise {M : ℕ} (hF : F.Bounded M) {g rest : List α} (hg : ¬ F.Gap g)
    (hrest : M ≤ rest.length) :
    ∃ u p v, g ++ rest = u ++ p ++ v ∧ u.length < g.length ∧
      (F.parse (g ++ rest)).1 = p :: (F.parse v).1 := by
  obtain ⟨a, x, b, rfl, ha, hx⟩ := exists_lead_of_not_gap hg
  obtain ⟨n, hsize, hn⟩ := hF (x :: (b ++ rest)) (by simp; omega)
  refine ⟨a, (x :: (b ++ rest)).take n, (x :: (b ++ rest)).drop n, ?_, by simp, ?_⟩
  · rw [List.append_assoc, List.append_assoc, List.take_append_drop, List.cons_append]
  · rw [List.append_assoc, List.cons_append, parse_gap_append ha, parse_lead hx hsize hn]

/-- **Noise is harmless only without lead symbols**: of a stream in which frames with a property
`Good` occur only where `segs` has them, exactly these are found if and only if no noise holds a
lead symbol. -/
theorem parse_noisy_iff {M : ℕ} (hF : F.Bounded M) {Good : List α → Prop}
    (hgood : ∀ p, Good p → F.IsFrame p) {segs : List (List α × List α)} {last tail : List α}
    (hsegs : ∀ s ∈ segs, Good s.2) (htail : F.Gap tail) (hlen : M ≤ tail.length)
    (honly : ∀ u p v, noisy segs (last ++ tail) = u ++ p ++ v → Good p →
      u.length ∈ starts segs) :
    (F.parse (noisy segs (last ++ tail))).1 = segs.map Prod.snd ↔
      (∀ s ∈ segs, F.Gap s.1) ∧ F.Gap last := by
  induction segs with
  | nil =>
    rw [noisy_nil]
    by_cases hlast : F.Gap last
    · simp [parse_gap (hlast.append htail), hlast]
    · -- a lead symbol in the last noise makes a frame where there is none
      obtain ⟨u, p, v, -, -, hparse⟩ := parse_noise hF hlast hlen
      simp [hparse, hlast]
  | cons s segs ih =>
    have ⟨hs, hsegs⟩ := List.forall_mem_cons.mp hsegs
    have hne : s.2 ≠ [] := by
      obtain ⟨⟨x, xs, hcons, -⟩, -⟩ := hgood _ hs
      rw [hcons]
      exact List.cons_ne_nil x xs
    rw [noisy_cons] at honly ⊢
    by_cases hgap : F.Gap s.1
    · have hrest := ih hsegs fun u p v heq hp =>
        mem_starts_of_cons hne <| by
          have h := honly (s.1 ++ (s.2 ++ u)) p v (by rw [heq]; simp) hp
          rwa [List.length_append, List.length_append, ← Nat.add_assoc] at h
      rw [parse_gap_append hgap, parse_frame_append (hgood _ hs), List.map_cons,
        List.cons_inj_right, hrest, List.forall_mem_cons]
      exact ⟨fun h => ⟨⟨hgap, h.1⟩, h.2⟩, fun h => ⟨h.1.2, h.2⟩⟩
    · -- what is found in the noise is none of the frames
      have hrest : M ≤ (s.2 ++ noisy segs (last ++ tail)).length := by
        simp only [noisy, List.length_append]
        omega
      obtain ⟨u, p, v, heq, hlt, hparse⟩ := parse_noise hF hgap hrest
      refine iff_of_false (fun h => ?_) fun h => hgap (h.1 s (List.mem_cons_self ..))
      rw [hparse, List.map_cons] at h
      have := length_le_of_mem_starts (honly u p v heq ((List.cons.inj h).1 ▸ hs))
      omega

end Format

end Framing
