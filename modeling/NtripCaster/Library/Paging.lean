import Mathlib.Data.List.Nodup
import Mathlib.Data.List.Range
import Mathlib.Tactic.Common

/-!
# Pages of a listing

A page is a window of a list. Windows that follow each other make up the list, and windows at two
places are equal only if they are empty.

## Main definitions

* `window rows offset limit`: the rows from `offset` on, at most `limit`
* `limitOffset`: the `LIMIT` and `OFFSET` of a query, which may be negative

## Main results

* `window_eq_iff`: when two windows are equal
* `flatten_windows`: the windows one after the other
-/

namespace Paging

universe u

variable {ρ : Type u}

/-- The rows from `offset` on, at most `limit`. -/
def window (rows : List ρ) (offset limit : ℕ) : List ρ := (rows.drop offset).take limit

/-- `LIMIT … OFFSET …` of SQLite: no limit if it is negative, and no offset if it is. -/
def limitOffset (limit offset : ℤ) (rows : List ρ) : List ρ :=
  if limit < 0 then rows.drop offset.toNat else window rows offset.toNat limit.toNat

theorem head?_window {limit : ℕ} (h : 0 < limit) (rows : List ρ) (offset : ℕ) :
    (window rows offset limit).head? = rows[offset]? := by
  rw [window, List.head?_take, if_neg (by omega), List.head?_drop]

theorem window_of_length_le {rows : List ρ} {offset : ℕ} (h : rows.length ≤ offset) (limit : ℕ) :
    window rows offset limit = [] := by
  rw [window, List.drop_of_length_le h, List.take_nil]

/-- Two windows of a list without duplicates are equal if they start at the same row, or both
behind the last one. -/
theorem window_eq_iff {rows : List ρ} (hrows : rows.Nodup) {limit : ℕ} (hlimit : 0 < limit)
    {i j : ℕ} :
    window rows i limit = window rows j limit ↔ i = j ∨ rows.length ≤ i ∧ rows.length ≤ j := by
  constructor
  · intro h
    have hhead := congrArg List.head? h
    rw [head?_window hlimit, head?_window hlimit] at hhead
    rcases Nat.lt_or_ge i rows.length with hi | hi
    · -- the first rows are equal, and a row occurs once
      exact .inl ((List.getElem?_inj hi hrows).mp hhead)
    · rw [List.getElem?_eq_none hi] at hhead
      exact .inr ⟨hi, List.getElem?_eq_none_iff.mp hhead.symm⟩
  · rintro (rfl | ⟨hi, hj⟩)
    · rfl
    · rw [window_of_length_le hi, window_of_length_le hj]

/-- The first windows one after the other are the rows up to the last of them. -/
theorem flatten_windows (rows : List ρ) (limit pages : ℕ) :
    ((List.range pages).map fun i => window rows (i * limit) limit).flatten =
      rows.take (pages * limit) := by
  induction pages with
  | zero => simp
  | succ pages ih =>
    rw [List.range_succ, List.map_append, List.flatten_append, ih, List.map_singleton,
      List.flatten_singleton, window, Nat.succ_mul, List.take_add]

end Paging
