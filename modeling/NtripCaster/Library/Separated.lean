import Mathlib.Data.List.Infix
import Mathlib.Tactic.Common

/-!
# Text with separators

Text is cut at every occurrence of a separator, from left to right. A piece never holds the
separator, so what holds it does not come back as a piece.

## Main definitions

* `split sep`: the pieces of a text
* `Unbordered sep`: the separator does not overlap itself

## Main results

* `not_infix_of_mem_split`: no piece holds the separator
* `split_piece`: a piece and a separator in front of a text
* `not_infix_append_cons`: a symbol that the separator does not have keeps its occurrences apart
-/

namespace Separated

universe u

variable {α : Type u} {sep : List α}

/-! ## Occurrences of a separator -/

/-- No proper suffix of the separator starts it, so its occurrences do not overlap. -/
def Unbordered (sep : List α) : Prop :=
  sep ≠ [] ∧ ∀ t ∈ sep.tails, t <+: sep → t = [] ∨ t = sep

/-- Before the end of a piece no separator starts. -/
theorem not_prefix_piece (hsep : Unbordered sep) {c : α} {a : List α} (ha : ¬ sep <:+: c :: a)
    (s : List α) : ¬ sep <+: c :: a ++ (sep ++ s) := by
  intro hpre
  rcases List.prefix_or_prefix_of_prefix hpre (List.prefix_append (c :: a) _) with h | h
  · exact ha h.isInfix
  · -- what of the separator reaches past the piece would be a border of it
    obtain ⟨t, ht⟩ := h
    have htail : t ∈ sep.tails := (List.mem_tails _ _).mpr ⟨c :: a, ht⟩
    have hts : t <+: sep ++ s := (List.prefix_append_right_inj (c :: a)).mp (ht ▸ hpre)
    have hlen : t.length < sep.length := by
      rw [← ht, List.length_append, List.length_cons]
      omega
    have htsep : t <+: sep := List.prefix_of_prefix_length_le hts (List.prefix_append _ _) hlen.le
    rcases hsep.2 t htail htsep with rfl | rfl
    · rw [List.append_nil] at ht
      exact ha (ht ▸ List.infix_rfl)
    · omega

/-- An occurrence of the separator lies on one side of a symbol that is not in it. -/
theorem not_infix_append_cons {c : α} (hc : c ∉ sep) {a b : List α} (ha : ¬ sep <:+: a)
    (hb : ¬ sep <:+: b) : ¬ sep <:+: a ++ c :: b := by
  induction a with
  | nil =>
    rw [List.nil_append]
    intro hin
    rcases List.infix_cons_iff.mp hin with hpre | hin
    · cases sep with
      | nil => exact hb List.nil_infix
      | cons d t =>
        obtain ⟨u, hu⟩ := hpre
        exact hc (List.mem_cons.mpr (.inl (List.cons.inj hu).1.symm))
    · exact hb hin
  | cons x a ih =>
    intro hin
    rcases List.infix_cons_iff.mp hin with hpre | hin
    · rcases List.prefix_or_prefix_of_prefix hpre (List.prefix_append (x :: a) (c :: b)) with h | h
      · exact ha h.isInfix
      · obtain ⟨t, ht⟩ := h
        have hts : t <+: c :: b := (List.prefix_append_right_inj (x :: a)).mp (ht ▸ hpre)
        cases t with
        | nil => exact ha (by rw [← ht, List.append_nil])
        | cons d t =>
          obtain ⟨u, hu⟩ := hts
          exact hc (by rw [← ht, (List.cons.inj hu).1]; simp)
    · exact ih (fun h => ha (List.infix_cons h)) hin

/-! ## Cutting -/

variable [DecidableEq α]

/-- The pieces of what remains, with `skip` symbols of a separator still to pass. -/
def splitFrom (sep : List α) : ℕ → List α → List (List α)
  | _, [] => [[]]
  | skip + 1, _ :: s => splitFrom sep skip s
  | 0, c :: s =>
    if sep.isPrefixOf (c :: s) then [] :: splitFrom sep (sep.length - 1) s
    else (splitFrom sep 0 s).modifyHead (c :: ·)

/-- The pieces of a text between its separators. -/
def split (sep s : List α) : List (List α) := splitFrom sep 0 s

theorem splitFrom_ne_nil (sep : List α) (skip : ℕ) (s : List α) : splitFrom sep skip s ≠ [] := by
  fun_induction splitFrom sep skip s with
  | case1 => exact List.cons_ne_nil _ _
  | case2 _ _ _ ih => exact ih
  | case3 => exact List.cons_ne_nil _ _
  | case4 c s _ ih =>
    obtain ⟨l, ls, h⟩ := List.exists_cons_of_ne_nil ih
    rw [h]
    exact List.cons_ne_nil _ _

/-- The first piece starts the text, unless a separator is being passed. -/
theorem head_splitFrom_le {s l : List α} {ls : List (List α)}
    (h : splitFrom sep 0 s = l :: ls) : l <+: s := by
  induction s generalizing l ls with
  | nil =>
    rw [splitFrom] at h
    exact (List.cons.inj h).1 ▸ List.prefix_rfl
  | cons c s ih =>
    rw [splitFrom] at h
    split_ifs at h
    · exact (List.cons.inj h).1 ▸ List.nil_prefix
    · obtain ⟨k, ks, hk⟩ := List.exists_cons_of_ne_nil (splitFrom_ne_nil sep 0 s)
      rw [hk] at h
      exact (List.cons.inj h).1 ▸ (List.prefix_cons_inj c).mpr (ih hk)

theorem not_infix_of_mem_splitFrom (hsep : sep ≠ []) {skip : ℕ} {s l : List α}
    (h : l ∈ splitFrom sep skip s) : ¬ sep <:+: l := by
  fun_induction splitFrom sep skip s generalizing l with
  | case1 =>
    obtain rfl := List.mem_singleton.mp h
    simpa using hsep
  | case2 _ _ _ ih => exact ih h
  | case3 c s _ ih =>
    rcases List.mem_cons.mp h with rfl | h
    · simpa using hsep
    · exact ih h
  | case4 c s hnot ih =>
    obtain ⟨k, ks, hk⟩ := List.exists_cons_of_ne_nil (splitFrom_ne_nil sep 0 s)
    rw [hk] at h ih
    rcases List.mem_cons.mp h with rfl | h
    · intro hin
      rcases List.infix_cons_iff.mp hin with hpre | hin
      · have hcs := hpre.trans ((List.prefix_cons_inj c).mpr (head_splitFrom_le hk))
        exact hnot (List.isPrefixOf_iff_prefix.mpr hcs)
      · exact ih (List.mem_cons_self ..) hin
    · exact ih (List.mem_cons_of_mem _ h)

/-- No piece holds the separator. -/
theorem not_infix_of_mem_split (hsep : sep ≠ []) {s l : List α} (h : l ∈ split sep s) :
    ¬ sep <:+: l :=
  not_infix_of_mem_splitFrom hsep h

theorem infix_of_mem_splitFrom {skip : ℕ} {s l : List α} (h : l ∈ splitFrom sep skip s) :
    l <:+: s := by
  fun_induction splitFrom sep skip s generalizing l with
  | case1 => exact (List.mem_singleton.mp h) ▸ List.infix_rfl
  | case2 _ _ _ ih => exact List.infix_cons (ih h)
  | case3 c s _ ih =>
    rcases List.mem_cons.mp h with rfl | h
    · exact List.nil_infix
    · exact List.infix_cons (ih h)
  | case4 c s _ ih =>
    obtain ⟨k, ks, hk⟩ := List.exists_cons_of_ne_nil (splitFrom_ne_nil sep 0 s)
    rw [hk] at h ih
    rcases List.mem_cons.mp h with rfl | h
    · exact ((List.prefix_cons_inj c).mpr (head_splitFrom_le hk)).isInfix
    · exact List.infix_cons (ih (List.mem_cons_of_mem _ h))

/-- The pieces are stretches of the text. -/
theorem infix_of_mem_split {s l : List α} (h : l ∈ split sep s) : l <:+: s :=
  infix_of_mem_splitFrom h

/-! ## Pieces put together -/

instance (sep : List α) : Decidable (Unbordered sep) := inferInstanceAs (Decidable (_ ∧ _))

theorem splitFrom_length (a s : List α) : splitFrom sep a.length (a ++ s) = splitFrom sep 0 s := by
  induction a with
  | nil => rfl
  | cons c a ih =>
    rw [List.cons_append, List.length_cons, splitFrom]
    exact ih

/-- A piece without the separator, and the separator after it. -/
theorem split_piece (hsep : Unbordered sep) {a : List α} (ha : ¬ sep <:+: a) (s : List α) :
    split sep (a ++ (sep ++ s)) = a :: split sep s := by
  induction a with
  | nil =>
    obtain ⟨c, t, rfl⟩ := List.exists_cons_of_ne_nil hsep.1
    rw [List.nil_append, List.cons_append, split, splitFrom, if_pos]
    · exact congrArg _ (splitFrom_length t s)
    · exact List.isPrefixOf_iff_prefix.mpr ((List.prefix_cons_inj c).mpr (List.prefix_append _ _))
  | cons c a ih =>
    have hnot := not_prefix_piece hsep ha s
    rw [List.cons_append] at hnot ⊢
    rw [split, splitFrom, if_neg (fun h => hnot (List.isPrefixOf_iff_prefix.mp h))]
    rw [← split, ih fun h => ha (List.infix_cons h)]
    rfl

end Separated
