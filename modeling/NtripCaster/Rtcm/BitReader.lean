import NtripCaster.Library.Bits
import NtripCaster.Rtcm.Decode1005

/-!
# What the bit reader reads

`bitReader` of `internal/rtcm/decode1005.go`: a read within the data returns the number that its
bits spell, most significant bit first; a read that leaves the data sets the error, and the error
stays.

## Main definitions

* `BitReader.next`: the next bits of a reader
* `BitReader.Inside`: whether they all lie inside the data
* `BitReader.Later`: the readers that its operations lead to

## Main results

* `BitReader.readUint_value`: an unsigned field
* `BitReader.readSigned38_value`: a coordinate, in two's complement
* `BitReader.readUint_of_not_inside`: a field that leaves the data
* `BitReader.Later.isSome_err`: the error stays
* `BitReader.readUint_law`: what `readUint` does, in any state of the reader
-/

namespace NtripCaster

open Bits

namespace BitReader

/-- The next `n` bits of a reader. -/
def next (br : BitReader) (n : ℕ) : List Bool := ((ofBytes br.data).drop br.offset).take n

variable {br : BitReader}

theorem length_next {n : ℕ} (h : br.offset + n ≤ 8 * br.data.length) :
    (br.next n).length = n := by
  rw [next, List.length_take, List.length_drop, length_ofBytes]
  omega

/-- The bit that a round of the loop takes from a byte. -/
theorem toNat_shiftRight_and_one (b : UInt8) {i : ℕ} (hi : i < 8) :
    ((b >>> UInt8.ofNat i) &&& 1).toUInt64.toNat = (b.toNat.testBit i).toNat := by
  have hsize : i < UInt8.size := hi.trans (by decide)
  rw [UInt8.toNat_toUInt64, UInt8.toNat_and, UInt8.toNat_shiftRight,
    UInt8.toNat_ofNat_of_lt' hsize, Nat.mod_eq_of_lt hi, Nat.toNat_testBit,
    Nat.shiftRight_eq_div_pow]
  exact Nat.and_one_is_mod _

/-- A round of the loop puts a bit behind those it has. -/
theorem shiftLeft_one_or (n : ℕ) {w : UInt64} {b : Bool} (hw : w.toNat = b.toNat) :
    UInt64.ofNat n <<< 1 ||| w = UInt64.ofNat (2 * n + b.toNat) := by
  apply UInt64.toNat_inj.mp
  have hb : b.toNat < 2 ^ 1 := Bool.toNat_lt b
  have hshift : (UInt64.ofNat n <<< 1).toNat = (n % 2 ^ 63) <<< 1 := by
    rw [UInt64.toNat_shiftLeft, UInt64.toNat_ofNat', UInt64.toNat_one, Nat.shiftLeft_eq,
      Nat.shiftLeft_eq, Nat.pow_one]
    omega
  rw [UInt64.toNat_or, hshift, hw, ← Nat.shiftLeft_add_eq_or_of_lt hb, Nat.shiftLeft_eq,
    UInt64.toNat_ofNat']
  omega

theorem next_succ {n : ℕ} (h : br.offset / 8 < br.data.length) :
    br.next (n + 1) = (br.data.getD (br.offset / 8) 0).toNat.testBit (7 - br.offset % 8) ::
      next { br with offset := br.offset + 1 } n := by
  have hget : (ofBytes br.data)[br.offset]? =
      some ((br.data.getD (br.offset / 8) 0).toNat.testBit (7 - br.offset % 8)) := by
    rw [getElem?_ofBytes, List.getD_eq_getElem?_getD, List.getElem?_eq_getElem h]
    rfl
  obtain ⟨hlt, hbit⟩ := List.getElem?_eq_some_iff.mp hget
  rw [next, List.drop_eq_getElem_cons hlt, List.take_succ_cons, hbit]
  rfl

/-- The loop puts the next bits behind those it has. -/
theorem readUintLoop_value (n m : ℕ) (br : BitReader)
    (h : br.offset + n ≤ 8 * br.data.length) :
    readUintLoop n (UInt64.ofNat m) br =
      .ok (UInt64.ofNat (valueFrom m (br.next n)), { br with offset := br.offset + n }) := by
  induction n generalizing m br with
  | zero => rfl
  | succ n ih =>
    have hlt : br.offset / 8 < br.data.length := by omega
    rw [readUintLoop, if_neg (by omega), index_of_lt hlt, ok_bind]
    dsimp only
    rw [shiftLeft_one_or m (toNat_shiftRight_and_one _ (by omega)),
      ih _ _ (by simpa using by omega), next_succ hlt, valueFrom_cons, Nat.add_right_comm,
      Nat.add_assoc]

/-- **An unsigned field**: the number that its bits spell. -/
theorem readUint_value {n : ℕ} (herr : br.err = none)
    (h : br.offset + n ≤ 8 * br.data.length) :
    br.readUint n =
      .ok (UInt64.ofNat (value (br.next n)), { br with offset := br.offset + n }) := by
  rw [readUint, if_neg (by simp [herr])]
  exact readUintLoop_value n 0 br h

/-- What `readSigned38` makes of the unsigned value is its two's complement. -/
theorem signed_eq {u : ℕ} (h : u < 2 ^ 38) :
    (if UInt64.ofNat u ≥ (1 : UInt64) <<< 37 then
      (UInt64.ofNat u).toInt64 - (1 : Int64) <<< 38 else (UInt64.ofNat u).toInt64) =
      Int64.ofInt (BitVec.ofNat 38 u).toInt := by
  have hsize : u < UInt64.size := h.trans (by decide)
  have hge : UInt64.ofNat u ≥ (1 : UInt64) <<< 37 ↔ 2 ^ 37 ≤ u := by
    rw [ge_iff_le, UInt64.le_iff_toNat_le, UInt64.toNat_ofNat_of_lt' hsize]
    exact Iff.rfl
  have hof : (UInt64.ofNat u).toInt64 = Int64.ofInt u :=
    UInt64.toInt64_ofNat'.trans Int64.ofInt_eq_ofNat.symm
  have hone : (1 : Int64) <<< 38 = Int64.ofInt (2 ^ 38) := by decide
  rw [BitVec.toInt_eq_toNat_cond, BitVec.toNat_ofNat, Nat.mod_eq_of_lt h, hof, hone]
  split_ifs with hneg hlow hlow
  · rw [hge] at hneg
    omega
  · exact (Int64.ofInt_sub _ _).symm
  · rfl
  · rw [hge] at hneg
    omega

/-- **A coordinate**: the 38 bits, read in two's complement. -/
theorem readSigned38_value (herr : br.err = none) (h : br.offset + 38 ≤ 8 * br.data.length) :
    br.readSigned38 = .ok (Int64.ofInt (BitVec.ofNat 38 (value (br.next 38))).toInt,
      { br with offset := br.offset + 38 }) := by
  have hlt : value (br.next 38) < 2 ^ 38 := by
    simpa only [length_next h] using value_lt (br.next 38)
  unfold readSigned38
  rw [readUint_value herr h, ok_bind]
  dsimp only
  rw [if_neg (by simp [herr])]
  rw [← signed_eq hlt]
  split_ifs <;> rfl

/-! ## Fields inside and outside the data -/

/-- The next `n` bits lie inside the data. No bits do so at any offset. -/
def Inside (br : BitReader) (n : ℕ) : Prop :=
  ∀ i, br.offset ≤ i → i < br.offset + n → i < 8 * br.data.length

theorem inside_iff {n : ℕ} : br.Inside n ↔ n = 0 ∨ br.offset + n ≤ 8 * br.data.length := by
  constructor
  · intro h
    by_cases hn : n = 0
    · exact .inl hn
    · have hlast := h (br.offset + n - 1) (by omega) (by omega)
      exact .inr (by omega)
  · intro h i hle hlt
    omega

/-- Two fields next to each other lie inside the data if each of them does. -/
theorem inside_add {a b : ℕ} : br.Inside (a + b) ↔
    br.Inside a ∧ Inside { br with offset := br.offset + a } b := by
  simp only [Inside]
  constructor
  · intro h
    exact ⟨fun i hle hlt => h i hle (by omega), fun i hle hlt => h i (by omega) (by omega)⟩
  · rintro ⟨hfirst, hsecond⟩ i hle hlt
    rcases Nat.lt_or_ge i (br.offset + a) with hi | hi
    · exact hfirst i hle hi
    · exact hsecond i hi (by omega)

theorem Inside.length_next {n : ℕ} (h : br.Inside n) : (br.next n).length = n := by
  rcases inside_iff.mp h with rfl | h
  · rfl
  · exact BitReader.length_next h

theorem value_next_lt (br : BitReader) (n : ℕ) : value (br.next n) < 2 ^ n :=
  (value_lt _).trans_le (Nat.pow_le_pow_right (by decide) (List.length_take_le n _))

/-- A field inside the data. -/
theorem readUint_of_inside {n : ℕ} (herr : br.err = none) (h : br.Inside n) :
    br.readUint n =
      .ok (UInt64.ofNat (value (br.next n)), { br with offset := br.offset + n }) := by
  rcases inside_iff.mp h with rfl | h
  · rw [readUint, if_neg (by simp [herr])]
    rfl
  · exact readUint_value herr h

/-- The loop stops at the first bit that lies outside the data. -/
theorem readUintLoop_outside (n : ℕ) (result : UInt64) (br : BitReader) (hn : 0 < n)
    (h : 8 * br.data.length < br.offset + n) :
    ∃ e, readUintLoop n result br = .ok (0, { br with offset := e, err := some e }) := by
  induction n generalizing result br with
  | zero => omega
  | succ n ih =>
    by_cases hend : br.data.length ≤ br.offset / 8
    · rw [readUintLoop, if_pos hend]
      exact ⟨br.offset, rfl⟩
    · have hlt : br.offset / 8 < br.data.length := not_le.mp hend
      rw [readUintLoop, if_neg hend, index_of_lt hlt, ok_bind]
      exact ih _ { br with offset := br.offset + 1 } (by omega) (by simpa using by omega)

theorem readUint_of_not_inside {n : ℕ} (herr : br.err = none) (h : ¬ br.Inside n) :
    ∃ e, br.readUint n = .ok (0, { br with offset := e, err := some e }) := by
  rw [inside_iff, not_or, not_le] at h
  rw [readUint, if_neg (by simp [herr])]
  exact readUintLoop_outside n 0 br (Nat.pos_of_ne_zero h.1) h.2

/-! ## After an error -/

theorem readUint_of_err (h : br.err.isSome) (n : ℕ) : br.readUint n = .ok (0, br) := by
  rw [readUint, if_pos h]

theorem readSigned38_of_err (h : br.err.isSome) : br.readSigned38 = .ok (0, br) := by
  rw [readSigned38, readUint_of_err h, ok_bind]
  dsimp only
  rw [if_pos h]
  rfl

/-- The readers that operations on `br` lead to. -/
inductive Later (br : BitReader) : BitReader → Prop
  | refl : Later br br
  | skip {br' : BitReader} (h : Later br br') (n : ℕ) : Later br (br'.skip n)
  | readUint {br' br'' : BitReader} {n : ℕ} {u : UInt64} (h : Later br br')
      (hread : br'.readUint n = .ok (u, br'')) : Later br br''
  | readSigned38 {br' br'' : BitReader} {v : Int64} (h : Later br br')
      (hread : br'.readSigned38 = .ok (v, br'')) : Later br br''

/-- No operation takes the error back. -/
theorem Later.isSome_err {br' : BitReader} (h : br.Later br') (herr : br.err.isSome) :
    br'.err.isSome := by
  induction h with
  | refl => exact herr
  | skip _ n ih => exact ih
  | readUint _ hread ih =>
    rw [readUint_of_err ih] at hread
    obtain ⟨-, rfl⟩ := Prod.mk.inj (Except.ok.inj hread)
    exact ih
  | readSigned38 _ hread ih =>
    rw [readSigned38_of_err ih] at hread
    obtain ⟨-, rfl⟩ := Prod.mk.inj (Except.ok.inj hread)
    exact ih

/-! ## The law -/

theorem next_add (br : BitReader) (a b : ℕ) :
    br.next (a + b) = br.next a ++ next { br with offset := br.offset + a } b := by
  rw [next, List.take_add, List.drop_drop]
  rfl

/-- Two fields next to each other make up one. -/
theorem value_next_add {a b : ℕ} (h : br.Inside (a + b)) :
    value (br.next (a + b)) =
      value (br.next a) * 2 ^ b + value (next { br with offset := br.offset + a } b) := by
  rw [next_add, value_append, (inside_add.mp h).2.length_next]

/-- **The law of the bit reader**: a reader without an error returns the value of the next bits if
they lie inside the data, and else sets the error; a reader with an error returns zeros from then
on; and two fields next to each other make up one. -/
theorem readUint_law :
    (∀ br : BitReader, br.err = none → ∀ n ≤ 64,
      (br.Inside n → ∃ u, br.readUint n = .ok (u, { br with offset := br.offset + n }) ∧
        u.toNat = value (br.next n)) ∧
      (¬ br.Inside n →
        ∃ e, br.readUint n = .ok (0, { br with offset := e, err := some e }))) ∧
    (∀ br br' : BitReader, br.err.isSome → br.Later br' →
      (∀ n, br'.readUint n = .ok (0, br')) ∧ br'.readSigned38 = .ok (0, br')) ∧
    ∀ br : BitReader, br.err = none → ∀ a b, a + b ≤ 64 → br.Inside (a + b) →
      ∃ u v w br₁ br₂, br.readUint a = .ok (u, br₁) ∧ br₁.readUint b = .ok (v, br₂) ∧
        br.readUint (a + b) = .ok (w, br₂) ∧ w.toNat = u.toNat * 2 ^ b + v.toNat := by
  have hvalue : ∀ (br : BitReader) {n : ℕ}, n ≤ 64 →
      (UInt64.ofNat (value (br.next n))).toNat = value (br.next n) := fun br n hn =>
    UInt64.toNat_ofNat_of_lt'
      ((value_next_lt br n).trans_le (Nat.pow_le_pow_right (by decide) hn))
  refine ⟨fun br herr n hn => ⟨fun h => ?_, readUint_of_not_inside herr⟩,
    fun br br' herr hlater => ?_, fun br herr a b hab h => ?_⟩
  · exact ⟨_, readUint_of_inside herr h, hvalue br hn⟩
  · have herr' := hlater.isSome_err herr
    exact ⟨readUint_of_err herr', readSigned38_of_err herr'⟩
  · obtain ⟨hfirst, hsecond⟩ := inside_add.mp h
    have hwhole := readUint_of_inside herr h
    rw [← Nat.add_assoc] at hwhole
    refine ⟨_, _, _, _, _, readUint_of_inside herr hfirst, readUint_of_inside herr hsecond, hwhole,
      ?_⟩
    rw [hvalue _ hab, hvalue _ (by omega), hvalue _ (by omega), value_next_add h]

/-- The header of a frame, from the length field on: the field, one that leaves the data, a reader
skipped past the end after that, and the field read in two pieces. -/
theorem readUint_law_header :
    let br : BitReader := ⟨[0xD3, 0x00, 0x13], 14, none⟩
    let ended : BitReader := { br with offset := 24, err := some 24 }
    (∃ u, br.readUint 10 = .ok (u, { br with offset := 24 }) ∧ u.toNat = value (br.next 10)) ∧
      (∃ e, br.readUint 12 = .ok (0, { br with offset := e, err := some e })) ∧
      ((∀ n, (ended.skip 50).readUint n = .ok (0, ended.skip 50)) ∧
        (ended.skip 50).readSigned38 = .ok (0, ended.skip 50)) ∧
      ∃ u v w br₁ br₂, br.readUint 2 = .ok (u, br₁) ∧ br₁.readUint 8 = .ok (v, br₂) ∧
        br.readUint (2 + 8) = .ok (w, br₂) ∧ w.toNat = u.toNat * 2 ^ 8 + v.toNat := by
  intro br ended
  have hfield : br.Inside 10 := inside_iff.mpr (.inr (by decide))
  have hpast : ¬ br.Inside 12 := by
    rw [inside_iff]
    decide
  exact ⟨(readUint_law.1 br rfl 10 (by decide)).1 hfield,
    (readUint_law.1 br rfl 12 (by decide)).2 hpast,
    readUint_law.2.1 ended (ended.skip 50) rfl (.skip .refl 50),
    readUint_law.2.2 br rfl 2 8 (by decide) hfield⟩

end BitReader

end NtripCaster
