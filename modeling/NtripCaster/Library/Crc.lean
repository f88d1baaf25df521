import Mathlib.Algebra.Field.ZMod
import Mathlib.Algebra.Polynomial.FieldDivision
import Mathlib.Data.Nat.Bitwise
import Mathlib.Data.Nat.Size
import Mathlib.Tactic.LinearCombination

/-!
# Cyclic redundancy checks

A number stands for the polynomial over GF(2) whose coefficients are its binary digits. A register
of `width` bits is shifted by one bit after the other, and the generator is subtracted whenever a
one leaves it; chunks of the message are added at its high end. What the register then holds is the
remainder of the message, moved up by `width`.

## Main definitions

* `poly n`: the polynomial of a number
* `Generator`: a generator polynomial, as a number
* `Generator.shift`, `Generator.absorb`: the register after a bit, and after a chunk
* `Generator.Holds m r`: the register `r` holds the remainder of the message `m`

## Main results

* `Generator.Holds.absorb`: the register follows the message, chunk by chunk
* `Generator.Holds.poly_eq`, `Generator.Holds.unique`: the remainder is that of polynomial division
* `Generator.Holds.append_remainder`: a message with its remainder behind it leaves no remainder
-/

namespace Crc

open Polynomial

/-! ## Numbers as polynomials -/

/-- The polynomial whose coefficients are the binary digits of `n`. -/
noncomputable def poly (n : ℕ) : (ZMod 2)[X] :=
  ∑ i ∈ Finset.range n.size, C ((n.testBit i).toNat : ZMod 2) * X ^ i

theorem coeff_poly (n i : ℕ) : (poly n).coeff i = ((n.testBit i).toNat : ZMod 2) := by
  simp only [poly, finsetSum_coeff, coeff_C_mul_X_pow, Finset.sum_ite_eq, Finset.mem_range]
  split_ifs with h
  · rfl
  · rw [Nat.testBit_lt_two_pow (Nat.size_le.mp (not_lt.mp h))]
    rfl

theorem poly_injective : Function.Injective poly := by
  intro m n h
  refine Nat.eq_of_testBit_eq fun i => ?_
  have hcoeff := congrArg (fun p => coeff p i) h
  simp only [coeff_poly] at hcoeff
  cases hm : m.testBit i <;> cases hn : n.testBit i <;> simp [hm, hn] at hcoeff ⊢

@[simp] theorem poly_zero : poly 0 = 0 := by
  ext i
  simp [coeff_poly]

/-- Addition is exclusive or. -/
theorem poly_xor (m n : ℕ) : poly (m ^^^ n) = poly m + poly n := by
  ext i
  rw [coeff_add, coeff_poly, coeff_poly, coeff_poly, Nat.testBit_xor]
  cases m.testBit i <;> cases n.testBit i <;> decide

theorem poly_mul_two_pow (n k : ℕ) : poly (n * 2 ^ k) = poly n * X ^ k := by
  ext i
  rw [coeff_mul_X_pow', coeff_poly, Nat.testBit_mul_two_pow]
  split_ifs with h
  · simp [coeff_poly, h]
  · simp [h]

/-- The number with `c` behind `n`. -/
theorem poly_append (n : ℕ) {c k : ℕ} (h : c < 2 ^ k) :
    poly (n * 2 ^ k + c) = poly n * X ^ k + poly c := by
  rw [← poly_mul_two_pow, ← poly_xor]
  congr 1
  refine Nat.eq_of_testBit_eq fun i => ?_
  rw [Nat.testBit_xor, Nat.testBit_mul_two_pow, Nat.mul_comm, Nat.testBit_two_pow_mul_add _ h]
  split_ifs with hi
  · simp [Nat.not_le.mpr hi]
  · have hk : k ≤ i := not_lt.mp hi
    rw [Nat.testBit_lt_two_pow (h.trans_le (Nat.pow_le_pow_right (by decide) hk))]
    simp [hk]

theorem degree_poly_lt {n w : ℕ} (h : n < 2 ^ w) : (poly n).degree < w := by
  refine (degree_lt_iff_coeff_zero _ _).mpr fun i hi => ?_
  rw [coeff_poly, Nat.testBit_lt_two_pow (h.trans_le (Nat.pow_le_pow_right (by decide) hi))]
  rfl

/-! ## The register -/

/-- A generator: its leading coefficient is that of `X ^ width`. -/
structure Generator where
  width : ℕ
  code : ℕ
  leading : code.testBit width = true
  code_lt : code < 2 ^ (width + 1)

namespace Generator

variable (g : Generator)

/-- The generator polynomial. -/
noncomputable def modulus : (ZMod 2)[X] := poly g.code

/-- The register after one bit. -/
def shift (r : ℕ) : ℕ := if (2 * r).testBit g.width then 2 * r ^^^ g.code else 2 * r

/-- The register after a chunk `c` of `k` bits, which is added at its high end. -/
def absorb (k r c : ℕ) : ℕ := g.shift^[k] (r ^^^ c * 2 ^ (g.width - k))

theorem degree_modulus : g.modulus.degree = g.width := by
  have hle : g.modulus.degree ≤ g.width := by
    refine (degree_le_iff_coeff_zero _ _).mpr fun i hi => ?_
    have hwi : g.width + 1 ≤ i := Nat.cast_lt.mp hi
    have hlt := g.code_lt.trans_le (Nat.pow_le_pow_right (by decide) hwi)
    rw [modulus, coeff_poly, Nat.testBit_lt_two_pow hlt]
    rfl
  refine degree_eq_of_le_of_coeff_ne_zero hle ?_
  rw [modulus, coeff_poly, g.leading]
  decide

theorem modulus_ne_zero : g.modulus ≠ 0 := by
  intro h
  have hdeg := g.degree_modulus
  rw [h, degree_zero] at hdeg
  cases hdeg

variable {g} {r : ℕ}

/-- The bit that leaves the register is cleared with the generator's leading one. -/
theorem shift_lt (h : r < 2 ^ g.width) : g.shift r < 2 ^ g.width := by
  have hdouble : 2 * r < 2 ^ (g.width + 1) := by
    rw [Nat.pow_succ]
    omega
  refine Nat.lt_pow_two_of_testBit _ fun i hi => ?_
  have hhigh {n : ℕ} (hn : n < 2 ^ (g.width + 1)) (hwi : g.width < i) : n.testBit i = false :=
    Nat.testBit_lt_two_pow (hn.trans_le (Nat.pow_le_pow_right (by decide) hwi))
  rw [shift]
  rcases Nat.eq_or_lt_of_le hi with rfl | hwi
  · split_ifs with htop
    · rw [Nat.testBit_xor, htop, g.leading]
      rfl
    · exact Bool.eq_false_iff.mpr htop
  · split_ifs
    · rw [Nat.testBit_xor, hhigh hdouble hwi, hhigh g.code_lt hwi]
      rfl
    · exact hhigh hdouble hwi

theorem iterate_shift_lt (k : ℕ) (h : r < 2 ^ g.width) : g.shift^[k] r < 2 ^ g.width := by
  induction k generalizing r with
  | zero => exact h
  | succ k ih => exact ih (shift_lt h)

/-- A bit multiplies the register by `X`, up to the generator. -/
theorem dvd_shift (r : ℕ) : g.modulus ∣ poly r * X + poly (g.shift r) := by
  have hdouble : poly (2 * r) = poly r * X := by
    rw [Nat.mul_comm, ← pow_one X, ← poly_mul_two_pow, Nat.pow_one]
  rw [shift]
  split_ifs
  · rw [poly_xor, hdouble, CharTwo.add_cancel_left]
    exact dvd_rfl
  · rw [hdouble, CharTwo.add_self_eq_zero]
    exact dvd_zero _

theorem dvd_iterate_shift (k r : ℕ) :
    g.modulus ∣ poly r * X ^ k + poly (g.shift^[k] r) := by
  induction k generalizing r with
  | zero =>
    rw [pow_zero, mul_one, Function.iterate_zero, id, CharTwo.add_self_eq_zero]
    exact dvd_zero _
  | succ k ih =>
    have hsum : poly r * X ^ (k + 1) + poly (g.shift^[k + 1] r) =
        (poly r * X + poly (g.shift r)) * X ^ k +
          (poly (g.shift r) * X ^ k + poly (g.shift^[k] (g.shift r))) := by
      rw [Function.iterate_succ_apply, add_mul, add_assoc, CharTwo.add_cancel_left, pow_succ',
        mul_assoc]
    rw [hsum]
    exact dvd_add ((dvd_shift r).mul_right _) (ih _)

/-! ## The remainder -/

/-- The register `r` holds the remainder of the message `m`, moved up by the width. -/
structure Holds (g : Generator) (m r : ℕ) : Prop where
  lt : r < 2 ^ g.width
  dvd : g.modulus ∣ poly m * X ^ g.width + poly r

theorem holds_zero : g.Holds 0 0 where
  lt := Nat.two_pow_pos _
  dvd := by simp

namespace Holds

variable {m : ℕ}

theorem poly_eq (h : g.Holds m r) : poly r = poly m * X ^ g.width % g.modulus := by
  have hself : poly r % g.modulus = poly r := by
    refine (mod_eq_self_iff g.modulus_ne_zero).mpr ?_
    rw [g.degree_modulus]
    exact degree_poly_lt h.lt
  rw [← hself]
  refine mod_eq_of_dvd_sub ?_
  rw [CharTwo.sub_eq_add, add_comm]
  exact h.dvd

theorem unique {r' : ℕ} (h : g.Holds m r) (h' : g.Holds m r') : r = r' :=
  poly_injective (h.poly_eq.trans h'.poly_eq.symm)

/-- The register follows a message that goes on with a chunk. -/
theorem absorb {k c : ℕ} (h : g.Holds m r) (hk : k ≤ g.width) (hc : c < 2 ^ k) :
    g.Holds (m * 2 ^ k + c) (g.absorb k r c) where
  lt := by
    refine iterate_shift_lt k (Nat.xor_lt_two_pow h.lt ?_)
    calc c * 2 ^ (g.width - k) < 2 ^ k * 2 ^ (g.width - k) :=
          Nat.mul_lt_mul_of_pos_right hc (Nat.two_pow_pos _)
      _ = 2 ^ g.width := by rw [← Nat.pow_add, Nat.add_sub_cancel' hk]
  dvd := by
    have hpow : (X : (ZMod 2)[X]) ^ g.width = X ^ (g.width - k) * X ^ k := by
      rw [← pow_add, Nat.sub_add_cancel hk]
    -- the chunk meets the message's remainder at the high end of the register
    have hsum : poly (m * 2 ^ k + c) * X ^ g.width + poly (g.absorb k r c) =
        (poly m * X ^ g.width + poly r) * X ^ k +
          (poly (r ^^^ c * 2 ^ (g.width - k)) * X ^ k + poly (g.absorb k r c)) := by
      rw [poly_append m hc, poly_xor, poly_mul_two_pow, hpow]
      linear_combination -CharTwo.add_self_eq_zero (poly r * X ^ k)
    rw [hsum]
    exact dvd_add (h.dvd.mul_right _) (dvd_iterate_shift k _)

/-- A message with its remainder behind it leaves no remainder. -/
theorem append_remainder (h : g.Holds m r) : g.Holds (m * 2 ^ g.width + r) 0 where
  lt := Nat.two_pow_pos _
  dvd := by
    rw [poly_zero, add_zero, poly_append m h.lt]
    exact h.dvd.mul_right _

end Holds

end Generator

end Crc
