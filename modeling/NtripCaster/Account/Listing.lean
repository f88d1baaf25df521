import Mathlib.Algebra.Order.Ring.Nat
import Mathlib.Data.List.Sort
import NtripCaster.Account.Admin
import NtripCaster.Library.Paging

/-!
# Paginated listings

`ListUsersPaginated` and `ListMountPointRowsPaginated` of `internal/account/service.go`, which are
one function on two tables, and `parseIntParam` of `internal/api/handlers.go`, which their pages and
limits come from. The offset of a page is computed in 64 bits, and the database refuses a pattern
that is too long.

## Main definitions

* `Listing`: the columns that a listing reads; `Listing.matching`, the rows that a filter selects
* `Listing.refused`: the filters whose pattern the database refuses
* `Listing.paginated`: the two queries of a listing
* `listUsersPaginated`, `listMountPointRowsPaginated`
* `Listing.Exact`: a page is exactly its rows, and the total their number

## Main results

* `Listing.exact_iff`: which pages are exact
* `Listing.all_exact_iff`: with which limits all of them are
* `listings_exact_iff`: so on both tables
-/

namespace NtripCaster

open Paging Tables

/-! ## Numbers from the query string -/

/-- The value of decimal digits. -/
def decimal (digits : Bytes) : ℕ := digits.foldl (fun n b => 10 * n + (b.toNat - 48)) 0

/-- `strconv.Atoi`: an optional sign and decimal digits, within 64 bits. -/
def atoi (s : Bytes) : Option Int64 :=
  let (neg, digits) := match s with
    | 0x2D :: digits => (true, digits)
    | 0x2B :: digits => (false, digits)
    | digits => (false, digits)
  if digits ≠ [] ∧ digits.all (fun b => 48 ≤ b && b ≤ 57) then
    let v : ℤ := if neg then -decimal digits else decimal digits
    if -2 ^ 63 ≤ v ∧ v < 2 ^ 63 then some (Int64.ofInt v) else none
  else none

/-- `parseIntParam`: what is missing or no number is the default, and so is what is below 1. -/
def parseIntParam (s : Bytes) (defaultVal : Int64) : Int64 :=
  if s = [] then defaultVal
  else match atoi s with
    | none => defaultVal
    | some v => if v < 1 then defaultVal else v

/-- Pages and limits are positive. -/
theorem parseIntParam_pos (s : Bytes) {defaultVal : Int64} (h : 0 < defaultVal) :
    0 < parseIntParam s defaultVal := by
  unfold parseIntParam
  split_ifs
  · exact h
  · split
    · exact h
    · split_ifs with hv
      · exact h
      · rw [Int64.lt_iff_toInt_lt] at hv ⊢
        have hone : (1 : Int64).toInt = 1 := rfl
        have hzero : (0 : Int64).toInt = 0 := rfl
        omega

/-! ## Listings -/

/-- The columns of a table that a listing reads: its order, the text searched, and two filters. -/
structure Listing (ρ : Type) where
  table : String
  id : ρ → ℤ
  name : ρ → Bytes
  kind : ρ → Bytes
  enabled : ρ → ℤ

/-- The filters of a listing; empty texts and a nil `enabled` do not filter. -/
structure ListFilter where
  search : Bytes
  kind : Bytes
  enabled : Option Bool

/-- The argument of `LIKE`. -/
def ListFilter.pattern (f : ListFilter) : Bytes := ascii "%" ++ f.search ++ ascii "%"

/-- `SQLITE_MAX_LIKE_PATTERN_LENGTH`, in bytes. -/
def maxLikePattern : ℕ := 50000

/-- The errors of a listing. -/
inductive ListingError
  | count (table : String)
  deriving DecidableEq, Repr

/-- The text of an error; the text of the driver follows the colon. -/
def ListingError.text : ListingError → String
  | count table => "count " ++ table ++ ": "

namespace Listing

variable {ρ τ : Type} (L : Listing ρ) (like : Bytes → Bytes → Bool) (f : ListFilter)

/-- The `WHERE` clause; `like pattern text` is the operator `LIKE` of the database. -/
def selects (r : ρ) : Bool :=
  (f.search = [] || like f.pattern (L.name r)) &&
    (f.kind = [] || L.kind r == f.kind) &&
    f.enabled.all fun b => L.enabled r == if b then 1 else 0

/-- "LIKE or GLOB pattern too complex": the first row that a pattern above the limit is compared
with is the end of the query. -/
def refused (rows : List ρ) : Bool := decide (maxLikePattern < f.pattern.length) && !rows.isEmpty

/-- `SELECT … WHERE … ORDER BY id`. -/
def matching (rows : List ρ) : List ρ :=
  (rows.filter (L.selects like f)).insertionSort fun r r' => L.id r ≤ L.id r'

/-- The count and the page, from two queries with the same clause, of which the first one fails if
the pattern is refused; `scan` makes a result of a row. -/
def paginated (scan : ρ → τ) (rows : List ρ) (page limit : Int64) :
    Except ListingError (List τ × ℕ) :=
  if refused f rows then .error (.count L.table)
  else
    let total := (rows.filter (L.selects like f)).length
    let offset := (page - 1) * limit
    .ok ((limitOffset limit.toInt offset.toInt (L.matching like f rows)).map scan, total)

/-- The page is the rows with an index from `(page - 1) * limit` on and below `page * limit`, and
the total is the number of all rows. -/
def Exact (scan : ρ → τ) (rows : List ρ) (page limit : Int64) : Prop :=
  L.paginated like f scan rows page limit =
    .ok ((window (L.matching like f rows) ((page.toInt - 1) * limit.toInt).toNat
      limit.toInt.toNat).map scan, (L.matching like f rows).length)

end Listing

/-- The listing of users. -/
def userListing : Listing UserRow :=
  ⟨"users", UserRow.id, UserRow.username, UserRow.role, UserRow.enabled⟩

/-- `ListUsersPaginated`. -/
def listUsersPaginated (like : Bytes → Bytes → Bool) (users : UserTable) (page limit : Int64)
    (search role : Bytes) (enabled : Option Bool) : Except ListingError (List User × ℕ) :=
  userListing.paginated like ⟨search, role, enabled⟩ UserRow.scan users.rows page limit

/-- `account.MountPointRow`. -/
structure ListedMountPoint where
  id : ℤ
  name : Bytes
  description : Bytes
  enabled : Bool
  format : Bytes
  sourceAuthMode : Bytes
  writeQueue : Option ℤ
  writeTimeoutMs : Option ℤ
  maxClients : ℤ
  deriving DecidableEq, Repr

/-- The row as the paginated listing scans it. -/
def MountPointRow.scan (r : MountPointRow) : ListedMountPoint where
  id := r.id
  name := r.name
  description := r.description
  enabled := r.isEnabled
  format := r.format
  sourceAuthMode := r.sourceAuthMode
  writeQueue := r.writeQueue
  writeTimeoutMs := r.writeTimeoutMs
  maxClients := r.limit

/-- The listing of mountpoints. -/
def mountPointListing : Listing MountPointRow :=
  ⟨"mountpoints", MountPointRow.id, MountPointRow.name, MountPointRow.format,
    MountPointRow.enabled⟩

/-- `ListMountPointRowsPaginated`. -/
def listMountPointRowsPaginated (like : Bytes → Bytes → Bool) (mountpoints : MountPointTable)
    (page limit : Int64) (search format : Bytes) (enabled : Option Bool) :
    Except ListingError (List ListedMountPoint × ℕ) :=
  mountPointListing.paginated like ⟨search, format, enabled⟩ MountPointRow.scan mountpoints.rows
    page limit

namespace Listing

variable {ρ τ : Type} {L : Listing ρ} {like : Bytes → Bytes → Bool} {f : ListFilter}
  {rows : List ρ} {scan : ρ → τ} {page limit : Int64}

/-! ## The rows of a listing -/

theorem matching_perm : (L.matching like f rows).Perm (rows.filter (L.selects like f)) :=
  List.perm_insertionSort _ _

theorem length_matching :
    (L.matching like f rows).length = (rows.filter (L.selects like f)).length :=
  matching_perm.length_eq

/-- The rows of a listing are in the order of their ids. -/
theorem matching_pairwise : (L.matching like f rows).Pairwise fun r r' => L.id r ≤ L.id r' := by
  have htotal : Std.Total fun r r' : ρ => L.id r ≤ L.id r' := ⟨fun r r' => Int.le_total _ _⟩
  have htrans : IsTrans ρ fun r r' => L.id r ≤ L.id r' := ⟨fun _ _ _ => Int.le_trans⟩
  exact List.pairwise_insertionSort _ _

/-- No row is listed twice, since its id is a key. -/
theorem nodup_map_matching (h : (rows.map L.id).Nodup) :
    ((L.matching like f rows).map L.id).Nodup := by
  refine (matching_perm.map L.id).nodup_iff.mpr ?_
  exact h.sublist (List.filter_sublist.map L.id)

/-! ## Exact pages -/

/-- The offset of a page, reduced to 64 bits. -/
theorem toInt_offset (hpage : 0 < page) :
    ((page - 1) * limit).toInt = ((page.toInt - 1) * limit.toInt).bmod (2 ^ 64) := by
  have hpos : 0 < page.toInt := Int64.lt_iff_toInt_lt.mp hpage
  have hlt := page.toInt_lt
  have hsub : (page - 1).toInt = page.toInt - 1 := by
    rw [Int64.toInt_sub]
    exact Int.bmod_eq_of_le (by simp; omega) (by simp; omega)
  rw [Int64.toInt_mul, hsub]

/-- Results that keep the id of their rows are equal on windows only if the windows are. -/
theorem map_window_inj {key : τ → ℤ} (hscan : ∀ r, key (scan r) = L.id r)
    (hrows : (rows.map L.id).Nodup) {i j n : ℕ} (hn : 0 < n) :
    (window rows i n).map scan = (window rows j n).map scan ↔
      i = j ∨ rows.length ≤ i ∧ rows.length ≤ j := by
  have hwindow : ∀ k, (window rows k n).map L.id = window (rows.map L.id) k n := by
    intro k
    rw [window, window, List.map_take, List.map_drop]
  constructor
  · intro h
    have hids := congrArg (List.map key) h
    rw [List.map_map, List.map_map, funext (f := key ∘ scan) hscan, hwindow, hwindow,
      window_eq_iff hrows hn, List.length_map] at hids
    exact hids
  · rintro (rfl | ⟨hi, hj⟩)
    · rfl
    · rw [window_of_length_le hi, window_of_length_le hj]

/-- A page with a pattern that is not refused: the window at the offset reduced to 64 bits. -/
theorem paginated_eq (hrefused : refused f rows = false) (hpage : 0 < page) (hlimit : 0 < limit) :
    L.paginated like f scan rows page limit =
      .ok ((window (L.matching like f rows)
        (((page.toInt - 1) * limit.toInt).bmod (2 ^ 64)).toNat limit.toInt.toNat).map scan,
        (L.matching like f rows).length) := by
  have hlimit' : 0 < limit.toInt := Int64.lt_iff_toInt_lt.mp hlimit
  rw [paginated, hrefused, if_neg Bool.false_ne_true]
  dsimp only
  rw [toInt_offset hpage, limitOffset, if_neg (by omega), length_matching]

/-- A listing fails for a search of 49999 bytes or more in a table with rows. -/
theorem paginated_eq_error {e : ListingError} :
    L.paginated like f scan rows page limit = .error e ↔
      49999 ≤ f.search.length ∧ rows ≠ [] ∧ e = .count L.table := by
  have hlen : f.pattern.length = f.search.length + 2 := by
    simp [ListFilter.pattern, ascii]
  rw [paginated]
  split_ifs with h
  · simp only [refused, hlen, maxLikePattern, Bool.and_eq_true, decide_eq_true_eq,
      Bool.not_eq_true', List.isEmpty_eq_false_iff] at h
    rw [Except.error.injEq, eq_comm]
    exact ⟨fun he => ⟨by omega, h.2, he⟩, fun he => he.2.2⟩
  · refine iff_of_false (fun he => by cases he) fun ⟨hlong, hne, _⟩ => h ?_
    simp only [refused, hlen, maxLikePattern, Bool.and_eq_true, decide_eq_true_eq,
      Bool.not_eq_true', List.isEmpty_eq_false_iff]
    exact ⟨by omega, hne⟩

/-- **Which pages are exact**, with a pattern that is not refused: those whose offset does not
overflow, and those whose overflown offset is behind the last row all the same. -/
theorem exact_iff {key : τ → ℤ} (hscan : ∀ r, key (scan r) = L.id r)
    (hrows : (rows.map L.id).Nodup) (hpage : 0 < page) (hlimit : 0 < limit) :
    L.Exact like f scan rows page limit ↔
      refused f rows = false ∧ ((page.toInt - 1) * limit.toInt < 2 ^ 63 ∨
        (L.matching like f rows).length ≤
          (((page.toInt - 1) * limit.toInt).bmod (2 ^ 64)).toNat) := by
  cases hrefused : refused f rows with
  | true =>
    rw [Exact, paginated, if_pos hrefused]
    exact iff_of_false (fun h => by cases h) fun h => by cases h.1
  | false =>
    have hpage' : 0 < page.toInt := Int64.lt_iff_toInt_lt.mp hpage
    have hlimit' : 0 < limit.toInt := Int64.lt_iff_toInt_lt.mp hlimit
    have hnonneg : 0 ≤ (page.toInt - 1) * limit.toInt := Int.mul_nonneg (by omega) (by omega)
    rw [Exact, paginated_eq hrefused hpage hlimit, Except.ok.injEq, Prod.mk.injEq,
      and_iff_left rfl, and_iff_right rfl,
      map_window_inj hscan (nodup_map_matching hrows) (by omega)]
    generalize (page.toInt - 1) * limit.toInt = offset at hnonneg
    rcases lt_or_ge offset (2 ^ 63) with h | h
    · have hmod : offset.bmod (2 ^ 64) = offset := Int.bmod_eq_of_le (by omega) (by omega)
      rw [hmod]
      exact ⟨fun _ => .inl h, fun _ => .inl rfl⟩
    · -- an overflown offset is another one, and a smaller one
      have hmod : offset.bmod (2 ^ 64) < 2 ^ 63 := Int.bmod_lt (by decide)
      omega

/-- From a limit of 2 on, the offset of some page overflows to a negative number. -/
theorem exists_overflow {l : ℤ} (hl : 2 ≤ l) (hlt : l < 2 ^ 63) :
    ∃ p : ℤ, 0 < p ∧ p < 2 ^ 63 ∧ 2 ^ 63 ≤ (p - 1) * l ∧ (p - 1) * l < 2 ^ 64 := by
  -- the first page whose offset is `2 ^ 63` or more
  have hle : (2 ^ 63 + l - 1) / l * l ≤ 2 ^ 63 + l - 1 := Int.ediv_mul_le _ (by omega)
  have hgt : 2 ^ 63 + l - 1 < ((2 ^ 63 + l - 1) / l + 1) * l :=
    Int.lt_ediv_add_one_mul_self _ (by omega)
  have hq : 0 ≤ (2 ^ 63 + l - 1) / l := Int.ediv_nonneg (by omega) (by omega)
  generalize (2 ^ 63 + l - 1) / l = q at hle hgt hq
  have hdouble : (q - 1) * 2 ≤ (q - 1) * l ∨ q = 0 := by
    rcases hq.eq_or_lt with h | h
    · exact .inr h.symm
    · exact .inl (Int.mul_le_mul_of_nonneg_left hl (by omega))
  have hpred : (q - 1) * l = q * l - l := by rw [Int.sub_mul, Int.one_mul]
  have hsucc : (q + 1) * l = q * l + l := by rw [Int.add_mul, Int.one_mul]
  refine ⟨q + 1, by omega, by omega, ?_, ?_⟩
  · rw [Int.add_sub_cancel]
    omega
  · rw [Int.add_sub_cancel]
    omega

/-- **With which limits all pages are exact**, with a pattern that is not refused: with 1, and with
every limit if no row matches. -/
theorem all_exact_iff {key : τ → ℤ} (hscan : ∀ r, key (scan r) = L.id r)
    (hrows : (rows.map L.id).Nodup) (hlimit : 0 < limit) :
    (∀ page : Int64, 0 < page → L.Exact like f scan rows page limit) ↔
      refused f rows = false ∧ (limit = 1 ∨ L.matching like f rows = []) := by
  constructor
  · intro h
    have hone : (0 : Int64) < 1 := by decide
    refine ⟨((exact_iff hscan hrows hone hlimit).mp (h 1 hone)).1, ?_⟩
    by_contra hne
    obtain ⟨hone, hmatch⟩ := not_or.mp hne
    have hlimit' : 0 < limit.toInt := Int64.lt_iff_toInt_lt.mp hlimit
    have hone' : limit.toInt ≠ 1 := fun h => hone (Int64.toInt_inj.mp h)
    obtain ⟨p, hp, hlt, hlo, hhi⟩ := exists_overflow (l := limit.toInt) (by omega) limit.toInt_lt
    have hof : (Int64.ofInt p).toInt = p := Int64.toInt_ofInt_of_le (by omega) hlt
    have hpos : 0 < Int64.ofInt p := Int64.lt_iff_toInt_lt.mpr (hof.symm ▸ hp)
    have hmod : ((p - 1) * limit.toInt).bmod (2 ^ 64) = (p - 1) * limit.toInt - 2 ^ 64 := by
      rw [← Int.sub_bmod_right]
      exact Int.bmod_eq_of_le (by omega) (by omega)
    rcases ((exact_iff hscan hrows hpos hlimit).mp (h _ hpos)).2 with h | h
    · rw [hof] at h
      omega
    · rw [hof, hmod] at h
      exact hmatch (List.eq_nil_of_length_eq_zero (by omega))
  · rintro ⟨hrefused, rfl | hnil⟩ page hpage
    · have := page.toInt_lt
      exact (exact_iff hscan hrows hpage hlimit).mpr ⟨hrefused, .inl (by
        rw [show (1 : Int64).toInt = 1 from rfl]
        omega)⟩
    · rw [exact_iff hscan hrows hpage hlimit, hnil]
      exact ⟨hrefused, .inr (Nat.zero_le _)⟩

/-- Exact pages one after the other are the first rows of the listing, each of them once. -/
theorem flatten_pages {n : ℕ} (hn : n < 2 ^ 63) (hlimit : 0 < limit)
    (h : ∀ i < n, L.Exact like f scan rows (Int64.ofNat (i + 1)) limit) :
    ((List.range n).map fun i =>
      (L.paginated like f scan rows (Int64.ofNat (i + 1)) limit).toOption.elim []
        Prod.fst).flatten =
        ((L.matching like f rows).take (n * limit.toInt.toNat)).map scan := by
  have hlimit' : 0 < limit.toInt := Int64.lt_iff_toInt_lt.mp hlimit
  rw [← flatten_windows, List.map_flatten, List.map_map]
  congr 1
  refine List.map_congr_left fun i hi => ?_
  have hi' : i < n := List.mem_range.mp hi
  have hpage : (Int64.ofNat (i + 1)).toInt = i + 1 := by
    rw [← Int64.ofInt_eq_ofNat, Int64.toInt_ofInt_of_le (by omega) (by omega)]
    rfl
  have hoffset : ((i + 1 - 1 : ℤ) * limit.toInt).toNat = i * limit.toInt.toNat := by
    rw [Int.add_sub_cancel, Int.toNat_mul (by omega) (by omega), Int.toNat_natCast]
  rw [h i hi', hpage, hoffset]
  rfl

end Listing

/-! ## Both tables -/

section Both

variable (like : Bytes → Bytes → Bool) (users : UserTable) (mountpoints : MountPointTable)
  (search kind : Bytes) (enabled : Option Bool) {page limit : Int64}

/-- **Pages partition the listing, unless an offset overflows or the pattern is refused**: with
every table, filter, page and limit, a page of either listing is exactly its rows, and the total
their number, if and only if the pattern is not refused, and the offset of the page is below
`2 ^ 63` or the overflown one is behind the last matching row. All pages of a limit are exact if and
only if the pattern is not refused, and the limit is 1 or no row matches. -/
theorem listings_exact_iff (hpage : 0 < page) (hlimit : 0 < limit) :
    let f : ListFilter := ⟨search, kind, enabled⟩
    let matchingUsers := userListing.matching like f users.rows
    let matchingMounts := mountPointListing.matching like f mountpoints.rows
    let offset := (page.toInt - 1) * limit.toInt
    (listUsersPaginated like users page limit search kind enabled =
        .ok ((window matchingUsers offset.toNat limit.toInt.toNat).map UserRow.scan,
          matchingUsers.length) ↔
      Listing.refused f users.rows = false ∧
        (offset < 2 ^ 63 ∨ matchingUsers.length ≤ (offset.bmod (2 ^ 64)).toNat)) ∧
    (listMountPointRowsPaginated like mountpoints page limit search kind enabled =
        .ok ((window matchingMounts offset.toNat limit.toInt.toNat).map MountPointRow.scan,
          matchingMounts.length) ↔
      Listing.refused f mountpoints.rows = false ∧
        (offset < 2 ^ 63 ∨ matchingMounts.length ≤ (offset.bmod (2 ^ 64)).toNat)) ∧
    ((∀ page : Int64, 0 < page → listUsersPaginated like users page limit search kind enabled =
        .ok ((window matchingUsers ((page.toInt - 1) * limit.toInt).toNat limit.toInt.toNat).map
          UserRow.scan, matchingUsers.length)) ↔
      Listing.refused f users.rows = false ∧ (limit = 1 ∨ matchingUsers = [])) ∧
    ((∀ page : Int64, 0 < page →
      listMountPointRowsPaginated like mountpoints page limit search kind enabled =
        .ok ((window matchingMounts ((page.toInt - 1) * limit.toInt).toNat limit.toInt.toNat).map
          MountPointRow.scan, matchingMounts.length)) ↔
      Listing.refused f mountpoints.rows = false ∧ (limit = 1 ∨ matchingMounts = [])) :=
  have huser : ∀ r : UserRow, r.scan.id = userListing.id r := fun _ => rfl
  have hmount : ∀ r : MountPointRow, r.scan.id = mountPointListing.id r := fun _ => rfl
  ⟨Listing.exact_iff huser users.id_nodup hpage hlimit,
    Listing.exact_iff hmount mountpoints.id_nodup hpage hlimit,
    Listing.all_exact_iff huser users.id_nodup hlimit,
    Listing.all_exact_iff hmount mountpoints.id_nodup hlimit⟩

/-- Three users, stored in the order of their names. -/
def threeUsers : UserTable where
  rows := [⟨2, ascii "a", [], roleBase, 1⟩, ⟨1, ascii "b", [], roleRover, 1⟩,
    ⟨3, ascii "c", [], roleRover, 0⟩]
  seq := 3
  key_nodup := by decide
  id_nodup := by decide
  id_le_seq := by decide

/-- A page whose offset does not fit 64 bits, of three users and of an empty table. -/
theorem listings_exact_iff_three :
    let like : Bytes → Bytes → Bool := fun _ _ => true
    let mountpoints : MountPointTable := .empty
    let f : ListFilter := ⟨[], [], none⟩
    let matchingUsers := userListing.matching like f threeUsers.rows
    let matchingMounts := mountPointListing.matching like f mountpoints.rows
    let page : Int64 := 4611686018427387905
    let offset := (page.toInt - 1) * (2 : Int64).toInt
    (listUsersPaginated like threeUsers page 2 [] [] none =
        .ok ((window matchingUsers offset.toNat (2 : Int64).toInt.toNat).map UserRow.scan,
          matchingUsers.length) ↔
      Listing.refused f threeUsers.rows = false ∧
        (offset < 2 ^ 63 ∨ matchingUsers.length ≤ (offset.bmod (2 ^ 64)).toNat)) ∧
    (listMountPointRowsPaginated like mountpoints page 2 [] [] none =
        .ok ((window matchingMounts offset.toNat (2 : Int64).toInt.toNat).map MountPointRow.scan,
          matchingMounts.length) ↔
      Listing.refused f mountpoints.rows = false ∧
        (offset < 2 ^ 63 ∨ matchingMounts.length ≤ (offset.bmod (2 ^ 64)).toNat)) ∧
    ((∀ page : Int64, 0 < page → listUsersPaginated like threeUsers page 2 [] [] none =
        .ok ((window matchingUsers ((page.toInt - 1) * (2 : Int64).toInt).toNat
          (2 : Int64).toInt.toNat).map UserRow.scan, matchingUsers.length)) ↔
      Listing.refused f threeUsers.rows = false ∧ ((2 : Int64) = 1 ∨ matchingUsers = [])) ∧
    ((∀ page : Int64, 0 < page →
      listMountPointRowsPaginated like mountpoints page 2 [] [] none =
        .ok ((window matchingMounts ((page.toInt - 1) * (2 : Int64).toInt).toNat
          (2 : Int64).toInt.toNat).map MountPointRow.scan, matchingMounts.length)) ↔
      Listing.refused f mountpoints.rows = false ∧ ((2 : Int64) = 1 ∨ matchingMounts = [])) :=
  listings_exact_iff (fun _ _ => true) threeUsers .empty [] [] none (by decide) (by decide)

/-- An offset of `2 ^ 63` becomes `-2 ^ 63`, which SQLite takes for 0: the page far behind the end
shows the first users again. -/
theorem listings_exact_overflow :
    let matchingUsers := userListing.matching (fun _ _ => true) ⟨[], [], none⟩ threeUsers.rows
    listUsersPaginated (fun _ _ => true) threeUsers 4611686018427387905 2 [] [] none =
        .ok ([⟨1, ascii "b", [], roleRover, true⟩, ⟨2, ascii "a", [], roleBase, true⟩], 3) ∧
      listUsersPaginated (fun _ _ => true) threeUsers 1 2 [] [] none =
        .ok ([⟨1, ascii "b", [], roleRover, true⟩, ⟨2, ascii "a", [], roleBase, true⟩], 3) ∧
      (window matchingUsers (((4611686018427387905 : Int64).toInt - 1) * 2).toNat 2).map
        UserRow.scan = [] := by
  decide

end Both

end NtripCaster
