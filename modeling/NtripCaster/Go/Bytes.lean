import Mathlib.Data.List.Basic

/-!
# Byte strings

A Go `string` or `[]byte` is a list of bytes. `ascii` turns a literal of the source into one.
`index` and `slice` are the expressions that stop the program when they are out of range.
-/

namespace NtripCaster

/-- A Go `string` or `[]byte`. -/
abbrev Bytes := List UInt8

/-- The bytes of an ASCII literal. -/
def ascii (s : String) : Bytes := s.toList.map fun c => UInt8.ofNat c.toNat

/-- The panics of index and slice expressions. -/
inductive RuntimeError
  | indexOutOfRange
  | sliceBoundsOutOfRange
  deriving DecidableEq, Repr

/-- `b[i]`. -/
def index (b : Bytes) (i : ℕ) : Except RuntimeError UInt8 :=
  match b[i]? with
  | some x => .ok x
  | none => .error .indexOutOfRange

/-- `b[lo:hi]`, for a slice made with its length as capacity. -/
def slice (b : Bytes) (lo hi : ℕ) : Except RuntimeError Bytes :=
  if lo ≤ hi ∧ hi ≤ b.length then .ok ((b.take hi).drop lo)
  else .error .sliceBoundsOutOfRange

/-- An expression that does not panic is evaluated. -/
@[simp] theorem ok_bind {ε α β : Type} (a : α) (f : α → Except ε β) :
    (Except.ok a >>= f) = f a := rfl

theorem index_of_lt {b : Bytes} {i : ℕ} (h : i < b.length) : index b i = .ok (b.getD i 0) := by
  unfold index
  rw [List.getD_eq_getElem?_getD, List.getElem?_eq_getElem h]
  rfl

theorem slice_of_le {b : Bytes} {lo hi : ℕ} (hlo : lo ≤ hi) (hhi : hi ≤ b.length) :
    slice b lo hi = .ok ((b.take hi).drop lo) :=
  if_pos ⟨hlo, hhi⟩

end NtripCaster
