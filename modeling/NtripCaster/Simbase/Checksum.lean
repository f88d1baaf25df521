import NtripCaster.Library.Bits
import NtripCaster.Library.Crc
import NtripCaster.Simbase.Frame

/-!
# The checksum of a frame

`crc24q` of `cmd/simbase/main.go` is the remainder of polynomial division over GF(2), and the
frames of `buildRTCM3Frame` are multiples of the generator.

## Main definitions

* `crc24qGenerator`: the generator polynomial of CRC-24Q
* `crc24qValues`: the values that the register takes

## Main results

* `holds_crc24q`: what the register holds is the remainder
* `crc24qValues_lt`: the register needs 25 bits
* `crc24q_append_crcBytes`: a byte string with its checksum behind it has the checksum 0
* `crc24q_remainder`: the three together
-/

namespace NtripCaster

open Bits Crc Polynomial

/-- The constant of `crc24q`. -/
def crc24qGenerator : Generator where
  width := 24
  code := 0x1864CFB
  leading := by decide
  code_lt := by decide

/-- The values that `crc` takes while `crc24q` does `n` more rounds of its inner loop and then reads
`data`. -/
def crc24qValues : ℕ → UInt32 → Bytes → List UInt32
  | 0, crc, [] => [crc]
  | 0, crc, b :: data => crc :: crc24qValues 8 (crc ^^^ b.toUInt32 <<< 16) data
  | n + 1, crc, data => crc :: crc <<< 1 :: crc24qValues n (crc24qShift crc) data
termination_by n _ data => (data.length, n)

/-- The last value is the one that `crc24q` masks. -/
theorem getLast?_crc24qValues (n : ℕ) (crc : UInt32) (data : Bytes) :
    (crc24qValues n crc data).getLast? = some (data.foldl crc24qByte (crc24qShift^[n] crc)) := by
  fun_induction crc24qValues n crc data with
  | case1 crc => rfl
  | case2 crc b data ih =>
    rw [List.getLast?_cons, ih]
    rfl
  | case3 crc data n ih =>
    rw [List.getLast?_cons, List.getLast?_cons, ih]
    rfl

/-! ## The register -/

section Register

variable {crc : UInt32}

theorem toNat_shiftLeft_one (h : crc.toNat < 2 ^ 24) : (crc <<< 1).toNat = 2 * crc.toNat := by
  rw [UInt32.toNat_shiftLeft, UInt32.toNat_one, Nat.shiftLeft_eq, Nat.pow_one]
  omega

theorem and_bit24_ne_zero (crc : UInt32) :
    crc &&& 0x1000000 ≠ 0 ↔ crc.toNat.testBit 24 = true := by
  rw [ne_eq, ← UInt32.toNat_inj, UInt32.toNat_and, UInt32.toNat_zero,
    show (0x1000000 : UInt32).toNat = 2 ^ 24 from rfl, Nat.and_two_pow]
  cases crc.toNat.testBit 24 <;> simp

/-- A round of the inner loop is a shift of the register. -/
theorem toNat_crc24qShift (h : crc.toNat < 2 ^ 24) :
    (crc24qShift crc).toNat = crc24qGenerator.shift crc.toNat := by
  have hbit : crc <<< 1 &&& 0x1000000 ≠ 0 ↔
      (2 * crc.toNat).testBit crc24qGenerator.width = true := by
    rw [and_bit24_ne_zero, toNat_shiftLeft_one h]
    exact Iff.rfl
  simp only [crc24qShift, Generator.shift, hbit]
  split_ifs
  · rw [UInt32.toNat_xor, toNat_shiftLeft_one h]
    rfl
  · exact toNat_shiftLeft_one h

theorem crc24qShift_lt (h : crc.toNat < 2 ^ 24) : (crc24qShift crc).toNat < 2 ^ 24 := by
  rw [toNat_crc24qShift h]
  exact Generator.shift_lt (g := crc24qGenerator) h

theorem toNat_iterate_crc24qShift (n : ℕ) (h : crc.toNat < 2 ^ 24) :
    (crc24qShift^[n] crc).toNat = crc24qGenerator.shift^[n] crc.toNat := by
  induction n generalizing crc with
  | zero => rfl
  | succ n ih =>
    rw [Function.iterate_succ_apply, Function.iterate_succ_apply, ih (crc24qShift_lt h),
      toNat_crc24qShift h]

theorem toNat_xor_byte (crc : UInt32) (b : UInt8) :
    (crc ^^^ b.toUInt32 <<< 16).toNat = crc.toNat ^^^ b.toNat * 2 ^ 16 := by
  have hb : b.toNat < 2 ^ 8 := b.toNat_lt
  have hshift : (b.toUInt32 <<< 16).toNat = b.toNat * 2 ^ 16 := by
    rw [UInt32.toNat_shiftLeft, UInt8.toNat_toUInt32, show (16 : UInt32).toNat % 32 = 16 from rfl,
      Nat.shiftLeft_eq]
    omega
  rw [UInt32.toNat_xor, hshift]

theorem xor_byte_lt (h : crc.toNat < 2 ^ 24) (b : UInt8) :
    (crc ^^^ b.toUInt32 <<< 16).toNat < 2 ^ 24 := by
  have hb : b.toNat < 2 ^ 8 := b.toNat_lt
  rw [toNat_xor_byte]
  exact Nat.xor_lt_two_pow h (by omega)

/-- A round of the outer loop takes up a byte. -/
theorem toNat_crc24qByte (h : crc.toNat < 2 ^ 24) (b : UInt8) :
    (crc24qByte crc b).toNat = crc24qGenerator.absorb 8 crc.toNat b.toNat := by
  rw [crc24qByte, toNat_iterate_crc24qShift 8 (xor_byte_lt h b), toNat_xor_byte]
  rfl

end Register

/-! ## The remainder -/

/-- The register after `data` holds the remainder of the bits of `data`. -/
theorem holds_crc24q (data : Bytes) :
    crc24qGenerator.Holds (value (ofBytes data)) (data.foldl crc24qByte 0).toNat := by
  induction data using List.reverseRecOn with
  | nil => exact Generator.holds_zero
  | append_singleton data b ih =>
    have hmessage : value (ofBytes (data ++ [b])) = value (ofBytes data) * 2 ^ 8 + b.toNat := by
      rw [ofBytes_append, value_append, ofBytes_cons, ofBytes_nil, List.append_nil, length_ofByte,
        ofByte, value_word_of_lt b.toNat_lt]
    rw [List.foldl_append, List.foldl_cons, List.foldl_nil, toNat_crc24qByte ih.lt, hmessage]
    exact ih.absorb (by decide) b.toNat_lt

/-- The mask at the end changes nothing. -/
theorem toNat_crc24q (data : Bytes) : (crc24q data).toNat = (data.foldl crc24qByte 0).toNat := by
  have hlt : (data.foldl crc24qByte 0).toNat < 2 ^ 24 := (holds_crc24q data).lt
  rw [crc24q, UInt32.toNat_and, show (0xFFFFFF : UInt32).toNat = 2 ^ 24 - 1 from rfl,
    Nat.and_two_pow_sub_one_eq_mod, Nat.mod_eq_of_lt hlt]

/-- The bytes of a checksum spell it. -/
theorem value_crcBytes {crc : UInt32} (h : crc.toNat < 2 ^ 24) :
    value (ofBytes (crcBytes crc)) = crc.toNat := by
  have hbyte : ∀ b : UInt8, value (ofByte b) = b.toNat := fun b => value_word_of_lt b.toNat_lt
  simp only [crcBytes, ofBytes_cons, ofBytes_nil, value_append, hbyte, value_nil, length_ofByte,
    List.length_append, List.length_nil, UInt32.toNat_toUInt8, UInt32.toNat_shiftRight,
    show (16 : UInt32).toNat % 32 = 16 from rfl, show (8 : UInt32).toNat % 32 = 8 from rfl,
    Nat.shiftRight_eq_div_pow]
  omega

/-- A byte string with its checksum behind it has the checksum 0. -/
theorem crc24q_append_crcBytes (data : Bytes) : crc24q (data ++ crcBytes (crc24q data)) = 0 := by
  have hholds := holds_crc24q data
  have hbytes : value (ofBytes (crcBytes (crc24q data))) = (crc24q data).toNat :=
    value_crcBytes (by rw [toNat_crc24q]; exact hholds.lt)
  have hmessage : value (ofBytes (data ++ crcBytes (crc24q data))) =
      value (ofBytes data) * 2 ^ 24 + (crc24q data).toNat := by
    rw [ofBytes_append, value_append, hbytes]
    rfl
  have hwhole := holds_crc24q (data ++ crcBytes (crc24q data))
  rw [hmessage, toNat_crc24q] at hwhole
  refine UInt32.toNat_inj.mp ?_
  rw [toNat_crc24q]
  exact hwhole.unique hholds.append_remainder

/-- The register needs 25 bits. -/
theorem crc24qValues_lt (n : ℕ) {crc : UInt32} (h : crc.toNat < 2 ^ 24) (data : Bytes) :
    ∀ v ∈ crc24qValues n crc data, v.toNat < 2 ^ 25 := by
  fun_induction crc24qValues n crc data with
  | case1 crc =>
    rw [List.forall_mem_singleton]
    omega
  | case2 crc b data ih =>
    rw [List.forall_mem_cons]
    exact ⟨by omega, ih (xor_byte_lt h b)⟩
  | case3 crc data n ih =>
    have hdouble := toNat_shiftLeft_one h
    rw [List.forall_mem_cons, List.forall_mem_cons]
    exact ⟨by omega, by omega, ih (crc24qShift_lt h)⟩

/-- **The checksum is the remainder of polynomial division**: `crc24q` of a byte string is the
remainder of its polynomial times `X ^ 24`, its register stays below `2 ^ 25` up to the last value,
which is masked, and every frame of `buildRTCM3Frame` has the checksum 0. -/
theorem crc24q_remainder :
    (∀ data : Bytes,
      poly (crc24q data).toNat = poly (value (ofBytes data)) * X ^ 24 % poly 0x1864CFB ∧
        ((crc24qValues 0 0 data).getLast?.map fun crc => crc &&& 0xFFFFFF) = some (crc24q data) ∧
        ∀ crc ∈ crc24qValues 0 0 data, crc.toNat < 2 ^ 25) ∧
      ∀ (msgType : UInt16) (payloadLen : ℤ) (rand : Draws),
        crc24q (buildRTCM3Frame msgType payloadLen rand) = 0 := by
  refine ⟨fun data => ⟨?_, ?_, crc24qValues_lt 0 (by decide) data⟩,
    fun msgType payloadLen rand => crc24q_append_crcBytes _⟩
  · rw [toNat_crc24q]
    exact (holds_crc24q data).poly_eq
  · rw [getLast?_crc24qValues]
    rfl

end NtripCaster
