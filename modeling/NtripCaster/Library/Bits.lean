import Mathlib.Algebra.Order.Ring.Nat
import Mathlib.Data.List.Basic
import Mathlib.Tactic.Common
import Mathlib.Tactic.Ring

/-!
# Bit strings

A bit string has its most significant bit first. A string of bytes is the bit string of its
bytes, one after the other.

## Main definitions

* `value bits`: the number that a bit string spells
* `word w n`: the `w` low bits of `n`
* `ofBytes`, `pack`: the bits of a byte string, and the bytes of a bit string

## Main results

* `value_word`, `word_value`: a number and its bits
* `value_append`, `word_add`: a bit string cut in two
* `getElem?_ofBytes`: where in its byte a bit lies
* `ofBytes_pack`: bits packed into bytes are these bits
-/

namespace Bits

/-! ## Numbers -/

/-- The number that `bits` spells, with `n` in front of it. -/
def valueFrom (n : ℕ) (bits : List Bool) : ℕ := bits.foldl (fun n b => 2 * n + b.toNat) n

/-- The number that `bits` spells. -/
def value (bits : List Bool) : ℕ := valueFrom 0 bits

/-- The `w` low bits of `n`. -/
def word : ℕ → ℕ → List Bool
  | 0, _ => []
  | w + 1, n => n.testBit w :: word w n

@[simp] theorem value_nil : value [] = 0 := rfl

@[simp] theorem length_word (w n : ℕ) : (word w n).length = w := by
  induction w with
  | zero => rfl
  | succ w ih => rw [word, List.length_cons, ih]

theorem valueFrom_cons (n : ℕ) (b : Bool) (bits : List Bool) :
    valueFrom n (b :: bits) = valueFrom (2 * n + b.toNat) bits := rfl

theorem valueFrom_eq (n : ℕ) (bits : List Bool) :
    valueFrom n bits = n * 2 ^ bits.length + value bits := by
  induction bits generalizing n with
  | nil => simp [valueFrom]
  | cons b bits ih =>
    rw [valueFrom_cons, ih, value, value, valueFrom_cons, ih (2 * 0 + b.toNat), List.length_cons,
      value]
    ring

theorem value_cons (b : Bool) (bits : List Bool) :
    value (b :: bits) = b.toNat * 2 ^ bits.length + value bits := by
  rw [value, valueFrom_cons, valueFrom_eq, Nat.mul_zero, Nat.zero_add]

theorem value_append (xs ys : List Bool) :
    value (xs ++ ys) = value xs * 2 ^ ys.length + value ys := by
  rw [value, valueFrom, List.foldl_append]
  exact valueFrom_eq _ ys

theorem value_lt (bits : List Bool) : value bits < 2 ^ bits.length := by
  induction bits with
  | nil => decide
  | cons b bits ih =>
    rw [value_cons, List.length_cons, Nat.pow_succ]
    cases b with
    | false => rw [Bool.toNat_false]; omega
    | true => rw [Bool.toNat_true]; omega

theorem value_word (w n : ℕ) : value (word w n) = n % 2 ^ w := by
  induction w with
  | zero => simp [word, Nat.mod_one]
  | succ w ih =>
    rw [word, value_cons, length_word, ih, Nat.mod_pow_succ, Nat.toNat_testBit, Nat.mul_comm,
      Nat.add_comm]

theorem value_word_of_lt {w n : ℕ} (h : n < 2 ^ w) : value (word w n) = n :=
  (value_word w n).trans (Nat.mod_eq_of_lt h)

/-- A bit string is the word of the number it spells. -/
theorem word_value (bits : List Bool) : word bits.length (value bits) = bits := by
  induction bits with
  | nil => rfl
  | cons b bits ih =>
    have hlt := value_lt bits
    have hlow : ∀ w ≤ bits.length, word w (value (b :: bits)) = word w (value bits) := by
      intro w hw
      induction w with
      | zero => rfl
      | succ w ihw =>
        rw [word, word, ihw (by omega), value_cons, Nat.mul_comm,
          Nat.testBit_two_pow_mul_add _ hlt, if_pos (by omega)]
    rw [List.length_cons, word, hlow _ le_rfl, ih, value_cons, Nat.mul_comm,
      Nat.testBit_two_pow_mul_add _ hlt, if_neg (by omega), Nat.sub_self]
    cases b <;> rfl

theorem value_inj {xs ys : List Bool} (hlen : xs.length = ys.length)
    (h : value xs = value ys) : xs = ys := by
  rw [← word_value xs, hlen, h, word_value]

/-- The high bits and the low bits of a number. -/
theorem word_add (v w n : ℕ) : word (v + w) n = word v (n / 2 ^ w) ++ word w n := by
  induction v with
  | zero => rw [Nat.zero_add]; rfl
  | succ v ih => rw [Nat.succ_add, word, word, ih, Nat.testBit_div_two_pow, List.cons_append]

theorem getElem?_word {w i : ℕ} (h : i < w) (n : ℕ) :
    (word w n)[i]? = some (n.testBit (w - 1 - i)) := by
  induction w generalizing i with
  | zero => omega
  | succ w ih =>
    rw [word]
    cases i with
    | zero => rfl
    | succ i =>
      rw [List.getElem?_cons_succ, ih (by omega)]
      congr 2
      omega

/-! ## Bytes -/

/-- The bits of a byte. -/
def ofByte (b : UInt8) : List Bool := word 8 b.toNat

/-- The bits of a byte string. -/
def ofBytes (bytes : List UInt8) : List Bool := bytes.flatMap ofByte

/-- The bytes of a bit string, eight bits each; the bits that do not fill a byte are left out. -/
def pack : List Bool → List UInt8
  | b₇ :: b₆ :: b₅ :: b₄ :: b₃ :: b₂ :: b₁ :: b₀ :: bits =>
    UInt8.ofNat (value [b₇, b₆, b₅, b₄, b₃, b₂, b₁, b₀]) :: pack bits
  | _ => []

@[simp] theorem length_ofByte (b : UInt8) : (ofByte b).length = 8 := length_word 8 _

@[simp] theorem ofBytes_nil : ofBytes [] = [] := rfl

@[simp] theorem ofBytes_cons (b : UInt8) (bytes : List UInt8) :
    ofBytes (b :: bytes) = ofByte b ++ ofBytes bytes := rfl

@[simp] theorem ofBytes_append (xs ys : List UInt8) :
    ofBytes (xs ++ ys) = ofBytes xs ++ ofBytes ys := List.flatMap_append

@[simp] theorem length_ofBytes (bytes : List UInt8) :
    (ofBytes bytes).length = 8 * bytes.length := by
  induction bytes with
  | nil => rfl
  | cons b bytes ih =>
    rw [ofBytes_cons, List.length_append, length_ofByte, ih, List.length_cons]
    ring

theorem ofBytes_take (n : ℕ) (bytes : List UInt8) :
    ofBytes (bytes.take n) = (ofBytes bytes).take (8 * n) := by
  induction bytes generalizing n with
  | nil => simp
  | cons b bytes ih =>
    cases n with
    | zero => rfl
    | succ n =>
      have hbyte : (ofByte b).take (8 * (n + 1)) = ofByte b :=
        List.take_of_length_le (by rw [length_ofByte]; omega)
      rw [List.take_succ_cons, ofBytes_cons, ofBytes_cons, List.take_append, length_ofByte, hbyte,
        ih]
      rfl

/-- Bit `i` of a byte string lies in byte `i / 8`, where bit 7 comes first. -/
theorem getElem?_ofBytes (bytes : List UInt8) (i : ℕ) :
    (ofBytes bytes)[i]? = bytes[i / 8]?.map fun b => b.toNat.testBit (7 - i % 8) := by
  induction bytes generalizing i with
  | nil => simp
  | cons b bytes ih =>
    rw [ofBytes_cons]
    rcases Nat.lt_or_ge i 8 with h | h
    · rw [List.getElem?_append_left (by simpa using h), ofByte, getElem?_word h,
        Nat.div_eq_of_lt h, Nat.mod_eq_of_lt h]
      rfl
    · have hdiv : i / 8 = (i - 8) / 8 + 1 := by omega
      have hmod : i % 8 = (i - 8) % 8 := by omega
      rw [List.getElem?_append_right (by simpa using h), length_ofByte, ih, hdiv, hmod,
        List.getElem?_cons_succ]

theorem ofByte_ofNat_value {bits : List Bool} (h : bits.length = 8) :
    ofByte (UInt8.ofNat (value bits)) = bits := by
  have hlt : value bits < 2 ^ 8 := h ▸ value_lt bits
  rw [ofByte, UInt8.toNat_ofNat_of_lt' hlt, ← h, word_value]

/-- Bits that fill whole bytes are packed without a loss. -/
theorem ofBytes_pack (n : ℕ) {bits : List Bool} (h : bits.length = 8 * n) :
    ofBytes (pack bits) = bits ∧ (pack bits).length = n := by
  induction n generalizing bits with
  | zero =>
    obtain rfl := List.eq_nil_of_length_eq_zero h
    exact ⟨rfl, rfl⟩
  | succ n ih =>
    match bits, h with
    | b₇ :: b₆ :: b₅ :: b₄ :: b₃ :: b₂ :: b₁ :: b₀ :: bits, h =>
      have hrest : bits.length = 8 * n := by
        simp only [List.length_cons] at h
        omega
      obtain ⟨hbits, hlen⟩ := ih hrest
      rw [pack, ofBytes_cons, ofByte_ofNat_value rfl, hbits, List.length_cons, hlen]
      exact ⟨rfl, rfl⟩

end Bits
