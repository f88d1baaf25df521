import Mathlib.Algebra.Order.Ring.Int
import Mathlib.Data.List.Nodup
import Mathlib.Data.List.Sort
import Mathlib.Order.Defs.LinearOrder
import Mathlib.Tactic.Common

/-!
# Queries over several tables

The `JOIN` of a table with another one on its key, as the nested loops that it means and as lookups,
the rows that come from each row of a table, and `ORDER BY` a column without duplicates.

## Main definitions

* `join`: every row with the rows that it joins
* `orderBy`: the rows in the order of a column

## Main results

* `ne_key_iff`: rows removed by one key and by another
* `join_eq_filterMap`: on a key a join is a lookup for each row
* `filter_flatMap_key`: the rows that come from one row of a table
* `eq_orderBy`: the order of a column without duplicates is unique
* `filter_orderBy`: a selection of ordered rows is the order of the selection
-/

namespace Tables

universe u v w

variable {ρ : Type u} {τ : Type v} {κ : Type w}

/-! ## Joins -/

/-- `FROM rows JOIN others ON …`. -/
def join (rows : List ρ) (others : List τ) (on : ρ → τ → Bool) : List (ρ × τ) :=
  rows.flatMap fun r => (others.filter (on r)).map fun t => (r, t)

theorem mem_join {rows : List ρ} {others : List τ} {on : ρ → τ → Bool} {r : ρ} {t : τ} :
    (r, t) ∈ join rows others on ↔ r ∈ rows ∧ t ∈ others ∧ on r t = true := by
  simp only [join, List.mem_flatMap, List.mem_map, List.mem_filter, Prod.mk.injEq]
  constructor
  · rintro ⟨r', hr, t', ht, rfl, rfl⟩
    exact ⟨hr, ht⟩
  · rintro ⟨hr, ht⟩
    exact ⟨r, hr, t, ht, rfl, rfl⟩

section Key

variable [BEq κ] [LawfulBEq κ] {key : τ → κ} {others : List τ}

/-- A selection by a key selects what the lookup finds. -/
theorem filter_key_eq_find? (h : (others.map key).Nodup) (k : κ) :
    others.filter (k == key ·) = (others.find? (key · == k)).toList := by
  induction others with
  | nil => rfl
  | cons t others ih =>
    obtain ⟨hnew, hrest⟩ := List.nodup_cons.mp h
    by_cases hk : key t = k
    · have hnone : others.filter (k == key ·) = [] := by
        refine List.filter_eq_nil_iff.mpr fun t' ht' heq => hnew ?_
        rw [hk, beq_iff_eq.mp heq]
        exact List.mem_map_of_mem ht'
      rw [List.find?_cons_of_pos (by simpa using hk), List.filter_cons_of_pos (by simp [hk]), hnone]
      rfl
    · rw [List.find?_cons_of_neg (by simpa using hk),
        List.filter_cons_of_neg (by simpa using Ne.symm hk), ih hrest]

/-- With two keys, the rows that a lookup by one of them does not find are those that differ from it
in the other. -/
theorem ne_key_iff {κ' : Type*} {name : τ → κ'} (h : (others.map key).Nodup)
    (hname : (others.map name).Nodup) {k : κ} {t : τ} (ht : t ∈ others) :
    key t ≠ k ↔ (others.find? (key · == k)).map name ≠ some (name t) := by
  cases hfind : others.find? (key · == k) with
  | none => simpa using List.find?_eq_none.mp hfind t ht
  | some t₀ =>
    have ht₀ := List.mem_of_find?_eq_some hfind
    have hk : key t₀ = k := by simpa using List.find?_some hfind
    rw [Option.map_some, ne_eq, ne_eq, Option.some.injEq, ← hk]
    refine not_congr ⟨fun heq => ?_, fun heq => ?_⟩
    · rw [List.inj_on_of_nodup_map h ht ht₀ heq]
    · rw [List.inj_on_of_nodup_map hname ht₀ ht heq]

/-- **A join on a key is a lookup for each row.** -/
theorem join_eq_filterMap (h : (others.map key).Nodup) (rows : List ρ) (foreign : ρ → κ) :
    join rows others (fun r t => foreign r == key t) =
      rows.filterMap fun r => (others.find? (key · == foreign r)).map fun t => (r, t) := by
  induction rows with
  | nil => rfl
  | cons r rows ih =>
    have hcons : join (r :: rows) others (fun r t => foreign r == key t) =
        (others.filter (foreign r == key ·)).map (fun t => (r, t)) ++
          join rows others (fun r t => foreign r == key t) := rfl
    rw [hcons, ih, filter_key_eq_find? h, List.filterMap_cons]
    cases others.find? (key · == foreign r) <;> rfl

/-- The rows of a join on a key are in the order of the table. -/
theorem map_fst_join_sublist (h : (others.map key).Nodup) (rows : List ρ) (foreign : ρ → κ) :
    ((join rows others fun r t => foreign r == key t).map Prod.fst).Sublist rows := by
  rw [join_eq_filterMap h]
  induction rows with
  | nil => exact .slnil
  | cons r rows ih =>
    rw [List.filterMap_cons]
    cases others.find? (key · == foreign r) with
    | none => exact ih.cons r
    | some t => exact ih.cons_cons r

end Key

/-! ## Groups -/

section Groups

variable {rows : List ρ} {group : ρ → List τ}

/-- The number of rows is the sum over the groups. -/
theorem length_flatMap_eq_sum {size : ρ → ℤ} (h : ∀ r ∈ rows, ((group r).length : ℤ) = size r) :
    ((rows.flatMap group).length : ℤ) = (rows.map size).sum := by
  induction rows with
  | nil => rfl
  | cons r rows ih =>
    have ⟨hr, hrows⟩ := List.forall_mem_cons.mp h
    rw [List.flatMap_cons, List.length_append, Int.natCast_add, hr, ih hrows, List.map_cons,
      List.sum_cons]

/-- Groups of at most one row are counted by the rows that have one. -/
theorem length_flatMap_eq_countP {p : ρ → Bool} (h : ∀ r ∈ rows, (group r).length = (p r).toNat) :
    (rows.flatMap group).length = rows.countP p := by
  induction rows with
  | nil => rfl
  | cons r rows ih =>
    have ⟨hr, hrows⟩ := List.forall_mem_cons.mp h
    rw [List.flatMap_cons, List.length_append, hr, ih hrows, List.countP_cons, Nat.add_comm]
    cases p r <;> rfl

variable [BEq κ] [LawfulBEq κ] {key : ρ → κ} {key' : τ → κ}

/-- No group has the key of none of the rows. -/
theorem filter_flatMap_of_notMem (hgroup : ∀ r ∈ rows, ∀ t ∈ group r, key' t = key r) {k : κ}
    (hk : k ∉ rows.map key) : (rows.flatMap group).filter (key' · == k) = [] := by
  refine List.filter_eq_nil_iff.mpr fun t ht heq => hk ?_
  obtain ⟨r, hr, ht⟩ := List.mem_flatMap.mp ht
  rw [← beq_iff_eq.mp heq, hgroup r hr t ht]
  exact List.mem_map_of_mem hr

/-- **The rows of one group**: the key of a row selects what comes from it. -/
theorem filter_flatMap_key (h : (rows.map key).Nodup)
    (hgroup : ∀ r ∈ rows, ∀ t ∈ group r, key' t = key r) {r : ρ} (hr : r ∈ rows) :
    (rows.flatMap group).filter (key' · == key r) = group r := by
  induction rows with
  | nil => cases hr
  | cons r₀ rows ih =>
    obtain ⟨hnew, hrest⟩ := List.nodup_cons.mp h
    obtain ⟨hfirst, hothers⟩ := List.forall_mem_cons.mp hgroup
    rw [List.flatMap_cons, List.filter_append]
    rcases List.mem_cons.mp hr with rfl | hr
    · rw [filter_flatMap_of_notMem hothers hnew, List.append_nil]
      exact List.filter_eq_self.mpr fun t ht => beq_iff_eq.mpr (hfirst t ht)
    · have hnone : (group r₀).filter (key' · == key r) = [] := by
        refine List.filter_eq_nil_iff.mpr fun t ht heq => hnew ?_
        rw [← hfirst t ht, beq_iff_eq.mp heq]
        exact List.mem_map_of_mem hr
      rw [hnone, ih hrest hothers hr]
      rfl

end Groups

/-! ## Order -/

section Order

variable [LinearOrder κ] (key : ρ → κ)

/-- `ORDER BY key`. -/
def orderBy (rows : List ρ) : List ρ := rows.insertionSort fun r r' => key r ≤ key r'

variable {key} {rows l : List ρ}

theorem orderBy_perm : (orderBy key rows).Perm rows := List.perm_insertionSort _ _

theorem pairwise_orderBy : (orderBy key rows).Pairwise fun r r' => key r ≤ key r' := by
  have htotal : Std.Total fun r r' : ρ => key r ≤ key r' := ⟨fun r r' => le_total _ _⟩
  have htrans : IsTrans ρ fun r r' => key r ≤ key r' := ⟨fun _ _ _ => le_trans⟩
  exact List.pairwise_insertionSort _ _

/-- A column without duplicates is strictly ordered. -/
theorem pairwise_lt_orderBy (h : (rows.map key).Nodup) :
    (orderBy key rows).Pairwise fun r r' => key r < key r' := by
  have hnodup : ((orderBy key rows).map key).Nodup := (orderBy_perm.map key).nodup_iff.mpr h
  have hne := List.pairwise_map.mp hnodup
  exact (pairwise_orderBy.and hne).imp fun hle => lt_of_le_of_ne hle.1 hle.2

/-- **There is one order by a column without duplicates.** -/
theorem eq_orderBy (hperm : l.Perm rows) (hl : l.Pairwise fun r r' => key r < key r') :
    l = orderBy key rows := by
  have hnodup : (rows.map key).Nodup :=
    (hperm.map key).nodup_iff.mp (List.pairwise_map.mpr (hl.imp ne_of_lt))
  have hasymm : ∀ r r', r ∈ l → r' ∈ orderBy key rows →
      key r < key r' → key r' < key r → r = r' :=
    fun r r' _ _ hlt hgt => absurd (hlt.trans hgt) (lt_irrefl _)
  exact List.Perm.eq_of_pairwise hasymm hl (pairwise_lt_orderBy hnodup)
    (hperm.trans orderBy_perm.symm)

/-- A selection of ordered rows is the order of the selection, also by a column that orders only
what is selected. -/
theorem filter_orderBy {κ' : Type*} [LinearOrder κ'] {key' : ρ → κ'} {p : ρ → Bool}
    (h : (rows.map key).Nodup)
    (hkey : ∀ r ∈ rows, ∀ r' ∈ rows, p r = true → p r' = true →
      key r < key r' → key' r < key' r') :
    (orderBy key rows).filter p = orderBy key' (rows.filter p) := by
  refine eq_orderBy (orderBy_perm.filter p) ?_
  have hlt := List.Pairwise.and_mem.mp ((pairwise_lt_orderBy h).filter p)
  refine hlt.imp fun {r r'} hmem => ?_
  obtain ⟨hr, hr', hrr'⟩ := hmem
  obtain ⟨hr, hpr⟩ := List.mem_filter.mp hr
  obtain ⟨hr', hpr'⟩ := List.mem_filter.mp hr'
  exact hkey r (orderBy_perm.mem_iff.mp hr) r' (orderBy_perm.mem_iff.mp hr') hpr hpr' hrr'

end Order

end Tables
