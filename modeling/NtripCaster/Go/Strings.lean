import Mathlib.Data.List.DropRight
import Mathlib.Tactic.Common
import NtripCaster.Go.Bytes

/-!
# Functions of the package `strings`

The functions of Go's `strings` that the request parser uses. White space is what
`unicode.IsSpace` accepts. Its UTF-8 encodings start with a byte that no other position of a
valid encoding can hold, so scanning bytes for them finds the runes that decoding finds.

## Main definitions

* `cut`: what stands before and after the first occurrence of a byte
* `trimRight`, `trimPrefix`, `trimSpace`, `fields`
* `indexOf`, `contains`: `strings.Index` and `strings.Contains`
* `formatInt`: what `%d` prints
* `NoSpace`: no white space anywhere

## Main results

* `cut_eq_some`: what `cut` returns
* `trimRight_eq_nil`: when nothing is left
* `fields_word`, `fields_last`: the fields of words with spaces between them
* `contains_iff`: `contains` finds substrings
* `trimSpace_of_noSpace`: when nothing is trimmed
* `formatInt_injective`
-/

namespace NtripCaster

/-- `s[:i]` and `s[i+1:]` for the index `i` that `strings.IndexByte(s, b)` returns, `none` where
it returns `-1`. -/
def cut (b : UInt8) : Bytes → Option (Bytes × Bytes)
  | [] => none
  | c :: s => if c = b then some ([], s) else (cut b s).map fun p => (c :: p.1, p.2)

/-- `strings.TrimRight`, with the cut set as a list. -/
def trimRight (s cutset : Bytes) : Bytes := s.rdropWhile fun c => cutset.contains c

/-- `strings.TrimPrefix`. -/
def trimPrefix (s pre : Bytes) : Bytes := if pre.isPrefixOf s then s.drop pre.length else s

/-- The encodings of the code points for which `unicode.IsSpace` holds. -/
def spaces : List Bytes :=
  [[0x09], [0x0A], [0x0B], [0x0C], [0x0D], [0x20], [0xC2, 0x85], [0xC2, 0xA0],
    [0xE1, 0x9A, 0x80], [0xE2, 0x80, 0x80], [0xE2, 0x80, 0x81], [0xE2, 0x80, 0x82],
    [0xE2, 0x80, 0x83], [0xE2, 0x80, 0x84], [0xE2, 0x80, 0x85], [0xE2, 0x80, 0x86],
    [0xE2, 0x80, 0x87], [0xE2, 0x80, 0x88], [0xE2, 0x80, 0x89], [0xE2, 0x80, 0x8A],
    [0xE2, 0x80, 0xA8], [0xE2, 0x80, 0xA9], [0xE2, 0x80, 0xAF], [0xE2, 0x81, 0x9F],
    [0xE3, 0x80, 0x80]]

/-- The length of the member of `ws` that `s` starts with, 0 if there is none. -/
def leadLength (ws : List Bytes) (s : Bytes) : ℕ :=
  (ws.find? (·.isPrefixOf s)).elim 0 List.length

/-- The fields of what remains, with `cur` the field being read and `skip` bytes of white space
still to pass. -/
def fieldsFrom (cur : Bytes) : ℕ → Bytes → List Bytes
  | _, [] => if cur = [] then [] else [cur]
  | skip + 1, _ :: s => fieldsFrom cur skip s
  | 0, c :: s =>
    match leadLength spaces (c :: s) with
    | 0 => fieldsFrom (cur ++ [c]) 0 s
    | skip + 1 => if cur = [] then fieldsFrom [] skip s else cur :: fieldsFrom [] skip s

/-- `strings.Fields`. -/
def fields (s : Bytes) : List Bytes := fieldsFrom [] 0 s

/-- What remains once members of `ws` are dropped from the front, after `skip` further bytes. -/
def trimLead (ws : List Bytes) : ℕ → Bytes → Bytes
  | _, [] => []
  | skip + 1, _ :: s => trimLead ws skip s
  | 0, c :: s =>
    match leadLength ws (c :: s) with
    | 0 => c :: s
    | skip + 1 => trimLead ws skip s

/-- `strings.TrimSpace`. -/
def trimSpace (s : Bytes) : Bytes :=
  (trimLead (spaces.map List.reverse) 0 (trimLead spaces 0 s).reverse).reverse

/-- `strings.Index(s, sub)`, `none` where it returns `-1`. -/
def indexOf (sub : Bytes) : Bytes → Option ℕ
  | [] => if sub = [] then some 0 else none
  | c :: s => if sub.isPrefixOf (c :: s) then some 0 else (indexOf sub s).map (· + 1)

/-- `strings.Contains`. -/
def contains (s sub : Bytes) : Bool := (indexOf sub s).isSome

/-- `fmt.Sprintf("%d", n)`, of a number that is not negative. -/
def formatInt (n : ℕ) : Bytes := ascii n.repr

theorem contains_iff {s sub : Bytes} : contains s sub = true ↔ sub <:+: s := by
  unfold contains
  induction s with
  | nil =>
    unfold indexOf
    split_ifs with h
    · simp [h]
    · simp [h]
  | cons c s ih =>
    unfold indexOf
    split_ifs with h
    · simpa using (List.isPrefixOf_iff_prefix.mp h).isInfix
    · rw [Option.isSome_map, ih, List.infix_cons_iff]
      exact (or_iff_right fun hpre => h (List.isPrefixOf_iff_prefix.mpr hpre)).symm

theorem cut_eq_none {b : UInt8} {s : Bytes} : cut b s = none ↔ b ∉ s := by
  induction s with
  | nil => simp [cut]
  | cons c s ih =>
    unfold cut
    split_ifs with h
    · simp [h]
    · rw [Option.map_eq_none_iff, ih, List.mem_cons, not_or]
      exact ⟨fun hs => ⟨Ne.symm h, hs⟩, And.right⟩

/-- `Cut` finds the first occurrence of the separator. -/
theorem cut_eq_some {b : UInt8} {s x y : Bytes} :
    cut b s = some (x, y) ↔ s = x ++ b :: y ∧ b ∉ x := by
  induction s generalizing x with
  | nil => simp [cut]
  | cons c s ih =>
    unfold cut
    split_ifs with h
    · subst h
      constructor
      · intro he
        obtain ⟨rfl, rfl⟩ := Prod.mk.inj (Option.some.inj he)
        exact ⟨rfl, List.not_mem_nil⟩
      · rintro ⟨he, hx⟩
        cases x with
        | nil => simpa using (List.cons.inj he).2
        | cons d x => exact absurd (List.mem_cons.mpr (.inl (List.cons.inj he).1)) hx
    · constructor
      · intro he
        obtain ⟨⟨x', y'⟩, hcut, hxy⟩ := Option.map_eq_some_iff.mp he
        obtain ⟨rfl, rfl⟩ := Prod.mk.inj hxy
        obtain ⟨rfl, hx'⟩ := ih.mp hcut
        exact ⟨rfl, by simpa [Ne.symm h] using hx'⟩
      · rintro ⟨he, hx⟩
        cases x with
        | nil => exact absurd (List.cons.inj he).1 h
        | cons d x =>
          obtain ⟨rfl, hs⟩ := List.cons.inj he
          rw [ih.mpr ⟨hs, fun hm => hx (List.mem_cons_of_mem _ hm)⟩]
          rfl

theorem trimRight_eq_nil {s cutset : Bytes} : trimRight s cutset = [] ↔ ∀ c ∈ s, c ∈ cutset := by
  simp [trimRight]

/-! ## White space -/

/-- No rune of `s` is white space. -/
def NoSpace (s : Bytes) : Prop := ∀ w ∈ spaces, ¬ w <:+: s

instance (s : Bytes) : Decidable (NoSpace s) := inferInstanceAs (Decidable (∀ _ ∈ _, _))

theorem NoSpace.tail {c : UInt8} {s : Bytes} (h : NoSpace (c :: s)) : NoSpace s :=
  fun w hw hin => h w hw (List.infix_cons hin)

theorem NoSpace.not_mem {s : Bytes} (h : NoSpace s) {c : UInt8} (hc : [c] ∈ spaces) : c ∉ s := by
  intro hmem
  obtain ⟨u, v, rfl⟩ := List.append_of_mem hmem
  exact h [c] hc ⟨u, v, by simp⟩

/-- A character that starts no white space can be put in front. -/
theorem NoSpace.cons {c : UInt8} {s : Bytes} (h : NoSpace s) (hc : ∀ w ∈ spaces, w.head? ≠ some c) :
    NoSpace (c :: s) := by
  intro w hw hin
  rcases List.infix_cons_iff.mp hin with hpre | hin
  · cases w with
    | nil => exact absurd hw (by decide)
    | cons d w =>
      obtain ⟨t, ht⟩ := hpre
      exact hc _ hw (congrArg some (List.cons.inj ht).1)
  · exact h w hw hin

theorem leadLength_eq_zero {ws : List Bytes} {s : Bytes} (h : ∀ w ∈ ws, ¬ w <+: s) :
    leadLength ws s = 0 := by
  have hnone : ws.find? (·.isPrefixOf s) = none :=
    List.find?_eq_none.mpr fun w hw => by simpa using h w hw
  rw [leadLength, hnone]
  rfl

/-- White space after a word starts no earlier than the word ends. -/
theorem leadLength_word {c : UInt8} {w rest : Bytes} (hw : NoSpace (c :: w))
    (hrest : rest.head? ≠ some 0x20 → rest = []) : leadLength spaces (c :: w ++ rest) = 0 := by
  refine leadLength_eq_zero fun p hp hpre => ?_
  rcases List.prefix_or_prefix_of_prefix hpre (List.prefix_append (c :: w) rest) with h | h
  · exact hw p hp h.isInfix
  · -- an encoding that reaches past the word would hold an ASCII space
    obtain ⟨q, rfl⟩ := h
    have hq : q <+: rest := (List.prefix_append_right_inj _).mp hpre
    have hne : ∀ p ∈ spaces, 0x20 ∉ p.tail := by decide
    cases q with
    | nil => exact hw _ hp (by simp)
    | cons d q =>
      obtain ⟨t, rfl⟩ := hq
      have hd : d = 0x20 := by
        by_contra hd
        have := hrest (by simpa using hd)
        simp at this
      exact hne _ hp (by simp [hd])

theorem fieldsFrom_word {w rest : Bytes} (hw : NoSpace w)
    (hrest : rest.head? ≠ some 0x20 → rest = []) (cur : Bytes) :
    fieldsFrom cur 0 (w ++ rest) = fieldsFrom (cur ++ w) 0 rest := by
  induction w generalizing cur with
  | nil => simp
  | cons c w ih =>
    have hlead := leadLength_word hw hrest
    rw [List.cons_append] at hlead ⊢
    rw [fieldsFrom, hlead]
    simpa using ih hw.tail (cur ++ [c])

theorem fields_word {w rest : Bytes} (hne : w ≠ []) (hw : NoSpace w) :
    fields (w ++ 0x20 :: rest) = w :: fields rest := by
  have hspace : leadLength spaces (0x20 :: rest) = 1 := rfl
  rw [fields, fieldsFrom_word hw (fun h => absurd rfl h), List.nil_append, fieldsFrom, hspace]
  exact if_neg hne

theorem fields_last {w : Bytes} (hne : w ≠ []) (hw : NoSpace w) : fields w = [w] := by
  have h : fieldsFrom [] 0 (w ++ []) = fieldsFrom ([] ++ w) 0 [] :=
    fieldsFrom_word hw (fun _ => rfl) []
  rw [List.append_nil, List.nil_append] at h
  rw [fields, h, fieldsFrom, if_neg hne]

/-- A character that can stand at the edge of a trimmed string: printable, and not a space. -/
def Graphic (c : UInt8) : Prop := 0x21 ≤ c ∧ c ≤ 0x7E

theorem leadLength_graphic {ws : List Bytes} {c : UInt8} (hc : Graphic c) (s : Bytes)
    (hws : ∀ w ∈ ws, w.head?.any (fun x => x < 0x21 || 0x7E < x) = true) :
    leadLength ws (c :: s) = 0 := by
  refine leadLength_eq_zero fun w hw hpre => ?_
  have hedge := hws w hw
  cases w with
  | nil => cases hedge
  | cons d w =>
    obtain ⟨t, ht⟩ := hpre
    obtain rfl := (List.cons.inj ht).1
    rcases (Bool.or_eq_true ..).mp hedge with h | h
    · exact absurd hc.1 (by simpa using h)
    · exact absurd hc.2 (by simpa using h)

/-- A leading space is trimmed from a string that starts and ends with graphic characters. -/
theorem trimSpace_space {a b : UInt8} {s t : Bytes} (ha : Graphic a) (hb : Graphic b)
    (h : a :: s = t ++ [b]) : trimSpace (0x20 :: a :: s) = a :: s := by
  have hspace : leadLength spaces (0x20 :: a :: s) = 1 := rfl
  have hlead : leadLength spaces (a :: s) = 0 := leadLength_graphic ha s (by decide)
  have htrail : leadLength (spaces.map List.reverse) (b :: t.reverse) = 0 :=
    leadLength_graphic hb _ (by decide)
  have hrev : (a :: s).reverse = b :: t.reverse := by rw [h, List.reverse_append]; rfl
  have hfront : trimLead spaces 0 (0x20 :: a :: s) = a :: s := by
    simp only [trimLead, hspace, hlead]
  rw [trimSpace, hfront, hrev]
  simp only [trimLead, htrail]
  rw [← hrev, List.reverse_reverse]

theorem trimLead_of_leadLength {ws : List Bytes} {s : Bytes} (h : leadLength ws s = 0) :
    trimLead ws 0 s = s := by
  cases s with
  | nil => rfl
  | cons c s => simp only [trimLead, h]

/-- Without white space there is nothing to trim. -/
theorem trimSpace_of_noSpace {s : Bytes} (h : NoSpace s) : trimSpace s = s := by
  have hlead : leadLength spaces s = 0 :=
    leadLength_eq_zero fun w hw hpre => h w hw hpre.isInfix
  have htrail : leadLength (spaces.map List.reverse) s.reverse = 0 := by
    refine leadLength_eq_zero fun w hw hpre => ?_
    obtain ⟨v, hv, rfl⟩ := List.mem_map.mp hw
    exact h v hv (List.reverse_prefix.mp hpre).isInfix
  rw [trimSpace, trimLead_of_leadLength hlead, trimLead_of_leadLength htrail, List.reverse_reverse]

theorem noSpace_of_graphic {s : Bytes} (h : ∀ c ∈ s, Graphic c) : NoSpace s := by
  intro w hw hin
  have hedge : ∀ v ∈ spaces, v.head?.any (fun x => x < 0x21 || 0x7E < x) = true := by decide
  have hany := hedge w hw
  cases w with
  | nil => cases hany
  | cons d w =>
    obtain ⟨hlow, hhigh⟩ := h d (hin.subset List.mem_cons_self)
    rcases (Bool.or_eq_true ..).mp hany with hd | hd
    · exact absurd hlow (by simpa using hd)
    · exact absurd hhigh (by simpa using hd)

/-! ## Numbers -/

theorem toNat_of_mem_digits {n : ℕ} {c : Char} (h : c ∈ Nat.toDigits 10 n) :
    48 ≤ c.toNat ∧ c.toNat ≤ 57 :=
  Char.isDigit_iff_toNat.mp (Nat.isDigit_of_mem_toDigits (by decide) (by decide) h)

theorem mem_formatInt {n : ℕ} {c : UInt8} (h : c ∈ formatInt n) : 48 ≤ c ∧ c ≤ 57 := by
  obtain ⟨d, hd, rfl⟩ := List.mem_map.mp h
  rw [Nat.toList_repr] at hd
  obtain ⟨hlow, hhigh⟩ := toNat_of_mem_digits hd
  have hbyte : d.toNat < UInt8.size := by
    show d.toNat < 256
    omega
  rw [UInt8.le_iff_toNat_le, UInt8.le_iff_toNat_le, UInt8.toNat_ofNat_of_lt' hbyte]
  exact ⟨hlow, hhigh⟩

theorem noSpace_formatInt (n : ℕ) : NoSpace (formatInt n) := by
  refine noSpace_of_graphic fun c hc => ?_
  obtain ⟨hlow, hhigh⟩ := mem_formatInt hc
  exact ⟨UInt8.le_trans (by decide) hlow, UInt8.le_trans hhigh (by decide)⟩

theorem formatInt_injective : Function.Injective formatInt := by
  intro n m h
  -- the digits come back from their bytes
  have hback : ∀ k, (formatInt k).map (fun b => Char.ofNat b.toNat) = Nat.toDigits 10 k := by
    intro k
    rw [formatInt, ascii, List.map_map, Nat.toList_repr]
    refine (List.map_congr_left fun c hc => ?_).trans (List.map_id _)
    obtain ⟨-, hhigh⟩ := toNat_of_mem_digits hc
    have hbyte : c.toNat < UInt8.size := by
      show c.toNat < 256
      omega
    rw [Function.comp_apply, UInt8.toNat_ofNat_of_lt' hbyte, Char.ofNat_toNat, id]
  have hdigits : Nat.toDigits 10 n = Nat.toDigits 10 m := by rw [← hback n, h, hback m]
  rw [← Nat.ofDigitChars_ten_toDigits (n := n), hdigits, Nat.ofDigitChars_ten_toDigits]

example : fields (ascii "SOURCE  pw\t/M \r") = [ascii "SOURCE", ascii "pw", ascii "/M"] := by
  decide

example : trimSpace [0x20, 0xC2, 0xA0, 0x61, 0x20, 0x62, 0xE3, 0x80, 0x80] = ascii "a b" := by
  decide

end NtripCaster
