import Mathlib.Algebra.Order.Ring.Nat
import NtripCaster.Go.Strings

/-!
# Basic authentication headers

`internal/auth/auth.go`, with `base64.StdEncoding.DecodeString`: line breaks are skipped,
padding is required, and the bits that padding leaves over may be anything.

## Main definitions

* `decodeBase64`, `encodeBase64`: `base64.StdEncoding.DecodeString` and `EncodeToString`
* `parseBasicAuth`: user name and password of an `Authorization` header

## Main results

* `decodeBase64_encodeBase64`: decoding inverts encoding
-/

namespace NtripCaster

/-- The value of a character of the standard alphabet. -/
def base64Value (c : UInt8) : Option ℕ :=
  if 65 ≤ c ∧ c ≤ 90 then some (c.toNat - 65)
  else if 97 ≤ c ∧ c ≤ 122 then some (c.toNat - 97 + 26)
  else if 48 ≤ c ∧ c ≤ 57 then some (c.toNat - 48 + 52)
  else if c = 43 then some 62
  else if c = 47 then some 63
  else none

/-- The value of a group of characters, most significant first. -/
def base64Quantum : List UInt8 → Option ℕ :=
  List.foldlM (fun acc c => (base64Value c).map fun v => acc * 64 + v) 0

/-- Groups of four characters; the last may end in one or two `=`. -/
def decodeQuanta : Bytes → Option Bytes
  | [] => some []
  | a :: b :: c :: d :: rest =>
    if d = 61 then
      if rest ≠ [] then none
      else if c = 61 then (base64Quantum [a, b]).map fun v => [UInt8.ofNat (v >>> 4)]
      else
        (base64Quantum [a, b, c]).map fun v => [UInt8.ofNat (v >>> 10), UInt8.ofNat (v >>> 2)]
    else
      (base64Quantum [a, b, c, d]).bind fun v =>
        (decodeQuanta rest).map fun out =>
          UInt8.ofNat (v >>> 16) :: UInt8.ofNat (v >>> 8) :: UInt8.ofNat v :: out
  | _ => none

/-- `base64.StdEncoding.DecodeString`. -/
def decodeBase64 (s : Bytes) : Option Bytes :=
  decodeQuanta (s.filter fun c => c != 13 && c != 10)

/-- `ParseBasicAuth`: the `SplitN` at the first colon needs a colon to give two parts. -/
def parseBasicAuth (authHeader : Bytes) : Option (Bytes × Bytes) :=
  if (ascii "Basic ").isPrefixOf authHeader then
    (decodeBase64 (authHeader.drop (ascii "Basic ").length)).bind (cut 58)
  else none

example : parseBasicAuth (ascii "Basic dXNlcjpwYXNz") = some (ascii "user", ascii "pass") := by
  decide

/-! ## Encoding -/

/-- The character of a value, the inverse of `base64Value`. -/
def base64Char (v : ℕ) : UInt8 :=
  if v < 26 then UInt8.ofNat (v + 65)
  else if v < 52 then UInt8.ofNat (v - 26 + 97)
  else if v < 62 then UInt8.ofNat (v - 52 + 48)
  else if v = 62 then 43
  else 47

/-- `base64.StdEncoding.EncodeToString`: four characters for three bytes, with padding. -/
def encodeBase64 : Bytes → Bytes
  | [] => []
  | [a] =>
    let v := a.toNat * 2 ^ 4
    [base64Char (v / 2 ^ 6), base64Char (v % 2 ^ 6), 61, 61]
  | [a, b] =>
    let v := (a.toNat * 2 ^ 8 + b.toNat) * 2 ^ 2
    [base64Char (v / 2 ^ 12), base64Char (v / 2 ^ 6 % 2 ^ 6), base64Char (v % 2 ^ 6), 61]
  | a :: b :: c :: rest =>
    let v := a.toNat * 2 ^ 16 + b.toNat * 2 ^ 8 + c.toNat
    base64Char (v / 2 ^ 18) :: base64Char (v / 2 ^ 12 % 2 ^ 6) :: base64Char (v / 2 ^ 6 % 2 ^ 6) ::
      base64Char (v % 2 ^ 6) :: encodeBase64 rest

theorem base64Value_base64Char : ∀ v < 64, base64Value (base64Char v) = some v := by decide

/-- The characters of an encoding are printable. -/
theorem base64Char_bounds (v : ℕ) : 43 ≤ base64Char v ∧ base64Char v ≤ 122 := by
  by_cases hv : v < 64
  · revert v
    decide
  · have h47 : base64Char v = 47 := by
      unfold base64Char
      rw [if_neg (by omega), if_neg (by omega), if_neg (by omega), if_neg (by omega)]
    rw [h47]
    decide

theorem base64Char_ne_pad : ∀ v < 64, base64Char v ≠ 61 := by decide

theorem base64Quantum_chars (vs : List ℕ) (h : ∀ v ∈ vs, v < 64) :
    base64Quantum (vs.map base64Char) = some (vs.foldl (fun acc v => acc * 64 + v) 0) := by
  have hfold : ∀ acc, List.foldlM (fun acc c => (base64Value c).map fun v => acc * 64 + v) acc
      (vs.map base64Char) = some (vs.foldl (fun acc v => acc * 64 + v) acc) := by
    induction vs with
    | nil => exact fun acc => rfl
    | cons v vs ih =>
      have ⟨hv, hvs⟩ := List.forall_mem_cons.mp h
      intro acc
      rw [List.map_cons, List.foldlM_cons, base64Value_base64Char v hv]
      exact ih hvs _
  exact hfold 0

/-- Four characters carry 24 bits. -/
theorem base64Quantum_four {v : ℕ} (h : v < 2 ^ 24) :
    base64Quantum [base64Char (v / 2 ^ 18), base64Char (v / 2 ^ 12 % 2 ^ 6),
      base64Char (v / 2 ^ 6 % 2 ^ 6), base64Char (v % 2 ^ 6)] = some v := by
  refine (base64Quantum_chars
    [v / 2 ^ 18, v / 2 ^ 12 % 2 ^ 6, v / 2 ^ 6 % 2 ^ 6, v % 2 ^ 6] (by simp; omega)).trans ?_
  simp only [List.foldl_cons, List.foldl_nil, Option.some.injEq]
  omega

/-- The last character of a whole group is no padding. -/
theorem decodeQuanta_group {v : ℕ} (h : v < 2 ^ 24) (rest : Bytes) :
    decodeQuanta (base64Char (v / 2 ^ 18) :: base64Char (v / 2 ^ 12 % 2 ^ 6) ::
      base64Char (v / 2 ^ 6 % 2 ^ 6) :: base64Char (v % 2 ^ 6) :: rest) =
      (decodeQuanta rest).map fun out =>
        UInt8.ofNat (v >>> 16) :: UInt8.ofNat (v >>> 8) :: UInt8.ofNat v :: out := by
  rw [decodeQuanta, if_neg (base64Char_ne_pad _ (by omega)), base64Quantum_four h,
    Option.bind_some]

theorem ofNat_eq {n : ℕ} {b : UInt8} (h : n % 2 ^ 8 = b.toNat) : UInt8.ofNat n = b :=
  UInt8.toNat_inj.mp (by rw [UInt8.toNat_ofNat', h])

/-- Decoding undoes encoding, three bytes at a time. -/
theorem decodeQuanta_encodeBase64 (s : Bytes) : decodeQuanta (encodeBase64 s) = some s := by
  fun_induction encodeBase64 s with
  | case1 => rfl
  | case2 a v =>
    have hv : v = a.toNat * 2 ^ 4 := rfl
    have ha := a.toNat_lt
    have hq := base64Quantum_chars [v / 2 ^ 6, v % 2 ^ 6] (by simp; omega)
    simp only [List.map_cons, List.map_nil, List.foldl_cons, List.foldl_nil] at hq
    rw [decodeQuanta, if_pos rfl, if_neg (by simp), if_pos rfl, hq, Option.map_some,
      Nat.shiftRight_eq_div_pow, ofNat_eq (b := a) (by omega)]
  | case3 a b v =>
    have hv : v = (a.toNat * 2 ^ 8 + b.toNat) * 2 ^ 2 := rfl
    have ha := a.toNat_lt
    have hb := b.toNat_lt
    have hq := base64Quantum_chars [v / 2 ^ 12, v / 2 ^ 6 % 2 ^ 6, v % 2 ^ 6]
      (by simp; omega)
    simp only [List.map_cons, List.map_nil, List.foldl_cons, List.foldl_nil] at hq
    rw [decodeQuanta, if_pos rfl, if_neg (by simp), if_neg (base64Char_ne_pad _ (by omega)), hq,
      Option.map_some, Nat.shiftRight_eq_div_pow, Nat.shiftRight_eq_div_pow,
      ofNat_eq (b := a) (by omega), ofNat_eq (b := b) (by omega)]
  | case4 a b c rest v ih =>
    have hv : v = a.toNat * 2 ^ 16 + b.toNat * 2 ^ 8 + c.toNat := rfl
    have ha := a.toNat_lt
    have hb := b.toNat_lt
    have hc := c.toNat_lt
    rw [decodeQuanta_group (by omega), ih, Option.map_some, Nat.shiftRight_eq_div_pow,
      Nat.shiftRight_eq_div_pow, ofNat_eq (b := a) (by omega), ofNat_eq (b := b) (by omega),
      ofNat_eq (b := c) (by omega)]

/-- The alphabet has neither spaces nor line ends in it, so that a header line keeps it whole. -/
theorem base64_of_mem {s : Bytes} {c : UInt8} (h : c ∈ encodeBase64 s) :
    43 ≤ c ∧ c ≤ 122 := by
  fun_induction encodeBase64 s with
  | case1 => cases h
  | case2 a v =>
    simp only [List.mem_cons, List.not_mem_nil, or_false] at h
    rcases h with rfl | rfl | rfl | rfl
    · exact base64Char_bounds _
    · exact base64Char_bounds _
    · decide
    · decide
  | case3 a b v =>
    simp only [List.mem_cons, List.not_mem_nil, or_false] at h
    rcases h with rfl | rfl | rfl | rfl
    · exact base64Char_bounds _
    · exact base64Char_bounds _
    · exact base64Char_bounds _
    · decide
  | case4 a b c rest v ih =>
    simp only [List.mem_cons] at h
    rcases h with rfl | rfl | rfl | rfl | h
    · exact base64Char_bounds _
    · exact base64Char_bounds _
    · exact base64Char_bounds _
    · exact base64Char_bounds _
    · exact ih h

/-- Decoding inverts encoding: no character of the encoding is a line break. -/
theorem decodeBase64_encodeBase64 (s : Bytes) : decodeBase64 (encodeBase64 s) = some s := by
  have hfilter : (encodeBase64 s).filter (fun c => c != 13 && c != 10) = encodeBase64 s := by
    refine List.filter_eq_self.mpr fun c hc => ?_
    obtain ⟨hlow, -⟩ := base64_of_mem hc
    have h13 : c ≠ 13 := by rintro rfl; exact absurd hlow (by decide)
    have h10 : c ≠ 10 := by rintro rfl; exact absurd hlow (by decide)
    simp [h13, h10]
  rw [decodeBase64, hfilter, decodeQuanta_encodeBase64]

theorem encodeBase64_ne_nil {s : Bytes} (h : s ≠ []) : encodeBase64 s ≠ [] := by
  fun_cases encodeBase64 s with
  | case1 => exact absurd rfl h
  | case2 => exact List.cons_ne_nil _ _
  | case3 => exact List.cons_ne_nil _ _
  | case4 => exact List.cons_ne_nil _ _

end NtripCaster
