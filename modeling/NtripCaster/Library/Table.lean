import Mathlib.Data.Int.Notation
import Mathlib.Data.List.Nodup
import Mathlib.Tactic.Common

/-!
# Tables with two keys

A database table with an `AUTOINCREMENT` key and a second column that is unique. That both are
keys is part of the table, so every statement keeps it.

## Main definitions

* `Table`: the rows, in the order of their ids, and the largest id handed out
* `Table.byID`, `Table.byKey`, `Table.insert`, `Table.modify`, `Table.delete`, `Table.deleteWhere`
* `Table.Puts`: one row is put in, for the one of its id if there is one

## Main results

* `Table.byID_eq_some`, `Table.byKey_eq_some`: a lookup finds exactly the row of the id, or of the
  key
* `Table.mem_delete`, `Table.puts_insert`, `Table.Puts.modify`: the rows after a statement
-/

namespace Tables

universe u v

variable {ρ : Type u} {κ : Type v}

/-- A table over rows `ρ` with the columns `id` and `key`. -/
structure Table (id : ρ → ℤ) (key : ρ → κ) where
  rows : List ρ
  seq : ℤ
  id_nodup : (rows.map id).Nodup
  key_nodup : (rows.map key).Nodup
  id_le_seq : ∀ r ∈ rows, id r ≤ seq

namespace Table

variable {id : ρ → ℤ} {key : ρ → κ} (t : Table id key)

/-- A new table; its first key is 1. -/
def empty : Table id key := ⟨[], 0, List.nodup_nil, List.nodup_nil, by simp⟩

/-- `SELECT … WHERE id = ?`. -/
def byID (i : ℤ) : Option ρ := t.rows.find? (id · == i)

/-- `SELECT … WHERE key = ?`. -/
def byKey [BEq κ] (k : κ) : Option ρ := t.rows.find? (key · == k)

/-- A column that `f` leaves as it is, over the rows of an `UPDATE`. -/
theorem map_column {β : Type v} {column : ρ → β} {i : ℤ} {f : ρ → ρ}
    (hf : ∀ r, column (f r) = column r) (rows : List ρ) :
    (rows.map fun r => if id r = i then f r else r).map column = rows.map column := by
  rw [List.map_map]
  refine List.map_congr_left fun r _ => ?_
  simp only [Function.comp_apply]
  split_ifs
  · exact hf r
  · rfl

/-- A lookup after an `UPDATE` of the row that it finds. -/
theorem find?_modify {i : ℤ} {f : ρ → ρ} (hf : ∀ r, id (f r) = id r) (rows : List ρ) :
    (rows.map fun r => if id r = i then f r else r).find? (id · == i) =
      (rows.find? (id · == i)).map f := by
  induction rows with
  | nil => rfl
  | cons r rows ih =>
    rw [List.map_cons]
    by_cases hr : id r = i
    · rw [if_pos hr, List.find?_cons_of_pos (by simp [hf, hr]),
        List.find?_cons_of_pos (by simp [hr])]
      rfl
    · rw [if_neg hr, List.find?_cons_of_neg (by simp [hr]),
        List.find?_cons_of_neg (by simp [hr]), ih]

/-- `UPDATE … WHERE id = ?`, of other columns than the two keys. -/
def modify (i : ℤ) (f : ρ → ρ) (hf : ∀ r, id (f r) = id r ∧ key (f r) = key r) :
    Table id key where
  rows := t.rows.map fun r => if id r = i then f r else r
  seq := t.seq
  id_nodup := by
    rw [map_column fun r => (hf r).1]
    exact t.id_nodup
  key_nodup := by
    rw [map_column fun r => (hf r).2]
    exact t.key_nodup
  id_le_seq := by
    intro r hr
    obtain ⟨r', hr', rfl⟩ := List.mem_map.mp hr
    have hle := t.id_le_seq r' hr'
    split_ifs
    · exact (hf r').1 ▸ hle
    · exact hle

/-- `DELETE … WHERE id = ?`. -/
def delete (i : ℤ) : Table id key where
  rows := t.rows.filter (id · != i)
  seq := t.seq
  id_nodup := t.id_nodup.sublist (List.filter_sublist.map _)
  key_nodup := t.key_nodup.sublist (List.filter_sublist.map _)
  id_le_seq := fun r hr => t.id_le_seq r (List.mem_of_mem_filter hr)

/-- `DELETE … WHERE p`, as a cascade does it. -/
def deleteWhere (p : ρ → Bool) : Table id key where
  rows := t.rows.filter fun r => !p r
  seq := t.seq
  id_nodup := t.id_nodup.sublist (List.filter_sublist.map _)
  key_nodup := t.key_nodup.sublist (List.filter_sublist.map _)
  id_le_seq := fun r hr => t.id_le_seq r (List.mem_of_mem_filter hr)

/-- An `INSERT OR IGNORE` that is ignored: it has drawn an id. -/
def skip : Table id key where
  rows := t.rows
  seq := t.seq + 1
  id_nodup := t.id_nodup
  key_nodup := t.key_nodup
  id_le_seq := fun r hr => Int.le_trans (t.id_le_seq r hr) (by omega)

section Insert

variable {k : κ} {row : ℤ → ρ} (hrow : ∀ i, id (row i) = i ∧ key (row i) = k)

include hrow

/-- A new id is greater than those drawn before. -/
theorem insert_id_nodup : ((t.rows ++ [row (t.seq + 1)]).map id).Nodup := by
  rw [List.map_append]
  refine t.id_nodup.append (List.nodup_singleton _) ?_
  simp only [List.map_cons, List.map_nil, List.disjoint_singleton, List.mem_map, not_exists,
    not_and, (hrow _).1]
  intro r hr
  have := t.id_le_seq r hr
  omega

theorem insert_key_nodup (h : k ∉ t.rows.map key) :
    ((t.rows ++ [row (t.seq + 1)]).map key).Nodup := by
  rw [List.map_append]
  refine t.key_nodup.append (List.nodup_singleton _) ?_
  rw [List.map_singleton, List.disjoint_singleton, (hrow _).2]
  exact h

theorem insert_id_le_seq : ∀ r ∈ t.rows ++ [row (t.seq + 1)], id r ≤ t.seq + 1 := by
  intro r hr
  rcases List.mem_append.mp hr with hr | hr
  · have := t.id_le_seq r hr
    omega
  · obtain rfl := List.mem_singleton.mp hr
    exact Int.le_of_eq (hrow _).1

end Insert

/-- `INSERT`: fails if the key is taken; otherwise the new table and the new id. -/
def insert [DecidableEq κ] (k : κ) (row : ℤ → ρ) (hrow : ∀ i, id (row i) = i ∧ key (row i) = k) :
    Option (Table id key × ℤ) :=
  if h : k ∈ t.rows.map key then none
  else
    some (⟨t.rows ++ [row (t.seq + 1)], t.seq + 1, t.insert_id_nodup hrow,
      t.insert_key_nodup hrow h, t.insert_id_le_seq hrow⟩, t.seq + 1)

variable {t}

/-! ## Rows -/

/-- Rows with the same id are the same row. -/
theorem eq_of_id {r r' : ρ} (hr : r ∈ t.rows) (hr' : r' ∈ t.rows) (h : id r = id r') : r = r' :=
  List.inj_on_of_nodup_map t.id_nodup hr hr' h

/-- Rows with the same key are the same row. -/
theorem eq_of_key {r r' : ρ} (hr : r ∈ t.rows) (hr' : r' ∈ t.rows) (h : key r = key r') :
    r = r' :=
  List.inj_on_of_nodup_map t.key_nodup hr hr' h

/-- A column without duplicates finds the one row with a value. -/
theorem find?_eq_some_of_nodup {β : Type*} [BEq β] [LawfulBEq β] {column : ρ → β} {rows : List ρ}
    (h : (rows.map column).Nodup) {k : β} {r : ρ} :
    rows.find? (column · == k) = some r ↔ r ∈ rows ∧ column r = k := by
  constructor
  · intro hf
    exact ⟨List.mem_of_find?_eq_some hf, by simpa using List.find?_some hf⟩
  · rintro ⟨hr, rfl⟩
    cases hf : rows.find? (column · == column r) with
    | none => simpa using List.find?_eq_none.mp hf r hr
    | some r' =>
      have hkey : column r' = column r := by simpa using List.find?_some hf
      rw [List.inj_on_of_nodup_map h (List.mem_of_find?_eq_some hf) hr hkey]

theorem byID_eq_some {i : ℤ} {r : ρ} : t.byID i = some r ↔ r ∈ t.rows ∧ id r = i :=
  find?_eq_some_of_nodup t.id_nodup

theorem byKey_eq_some [BEq κ] [LawfulBEq κ] {k : κ} {r : ρ} :
    t.byKey k = some r ↔ r ∈ t.rows ∧ key r = k :=
  find?_eq_some_of_nodup t.key_nodup

theorem byID_modify {i : ℤ} (f : ρ → ρ) (hf : ∀ r, id (f r) = id r ∧ key (f r) = key r) :
    (t.modify i f hf).byID i = (t.byID i).map f :=
  find?_modify (fun r => (hf r).1) t.rows

theorem byKey_modify [BEq κ] {i : ℤ} {f : ρ → ρ}
    (hf : ∀ r, id (f r) = id r ∧ key (f r) = key r) (k : κ) :
    (t.modify i f hf).byKey k = (t.byKey k).map fun r => if id r = i then f r else r := by
  rw [byKey, modify, List.find?_map, byKey]
  refine congrArg (Option.map _) (congrArg (List.find? · t.rows) (funext fun r => ?_))
  simp only [Function.comp_apply]
  split_ifs
  · rw [(hf r).2]
  · rfl

theorem mem_modify {i : ℤ} {f : ρ → ρ} {hf : ∀ r, id (f r) = id r ∧ key (f r) = key r} {r : ρ} :
    r ∈ (t.modify i f hf).rows ↔
      r ∈ t.rows ∧ id r ≠ i ∨ ∃ r₀ ∈ t.rows, id r₀ = i ∧ f r₀ = r := by
  simp only [modify, List.mem_map]
  constructor
  · rintro ⟨r₀, hr₀, rfl⟩
    split
    next hi => exact .inr ⟨r₀, hr₀, hi, rfl⟩
    next hi => exact .inl ⟨hr₀, hi⟩
  · rintro (⟨hr, hi⟩ | ⟨r₀, hr₀, hi, rfl⟩)
    · exact ⟨r, hr, if_neg hi⟩
    · exact ⟨r₀, hr₀, if_pos hi⟩

theorem mem_delete {i : ℤ} {r : ρ} : r ∈ (t.delete i).rows ↔ r ∈ t.rows ∧ id r ≠ i := by
  simp [delete]

theorem mem_deleteWhere {p : ρ → Bool} {r : ρ} :
    r ∈ (t.deleteWhere p).rows ↔ r ∈ t.rows ∧ p r = false := by
  simp [deleteWhere]

theorem byID_isSome {i : ℤ} : (t.byID i).isSome = true ↔ ∃ r ∈ t.rows, id r = i := by
  simp only [Option.isSome_iff_exists, byID_eq_some]

theorem byID_isSome_delete {i j : ℤ} :
    ((t.delete i).byID j).isSome = true ↔ (t.byID j).isSome = true ∧ j ≠ i := by
  simp only [byID_isSome, mem_delete]
  constructor
  · rintro ⟨r, ⟨hr, hi⟩, rfl⟩
    exact ⟨⟨r, hr, rfl⟩, hi⟩
  · rintro ⟨⟨r, hr, rfl⟩, hi⟩
    exact ⟨r, ⟨hr, hi⟩, rfl⟩

/-! ## Rows that are put in -/

/-- `t'` is `t` with the row `r` put in, for the one of its id if there is one. -/
def Puts (t : Table id key) (r : ρ) (t' : Table id key) : Prop :=
  ∀ x, x ∈ t'.rows ↔ x ∈ t.rows ∧ id x ≠ id r ∨ x = r

/-- A row of the table is there already. -/
theorem puts_self {r : ρ} (hr : r ∈ t.rows) : t.Puts r t := by
  intro x
  constructor
  · intro hx
    by_cases hid : id x = id r
    · exact .inr (eq_of_id hx hr hid)
    · exact .inl ⟨hx, hid⟩
  · rintro (⟨hx, -⟩ | rfl)
    · exact hx
    · exact hr

/-- An `UPDATE` of the row that was put in. -/
theorem Puts.modify {t' : Table id key} {r : ρ} (h : t.Puts r t') (f : ρ → ρ)
    (hf : ∀ r, id (f r) = id r ∧ key (f r) = key r) :
    t.Puts (f r) (t'.modify (id r) f hf) := by
  intro x
  rw [mem_modify, (hf r).1]
  constructor
  · rintro (⟨hx, hid⟩ | ⟨r₀, hr₀, hid, rfl⟩)
    · rcases (h x).mp hx with hx | rfl
      · exact .inl hx
      · exact absurd rfl hid
    · rw [eq_of_id hr₀ ((h r).mpr (.inr rfl)) hid]
      exact .inr rfl
  · rintro (⟨hx, hid⟩ | rfl)
    · exact .inl ⟨(h x).mpr (.inl ⟨hx, hid⟩), hid⟩
    · exact .inr ⟨r, (h r).mpr (.inr rfl), rfl, rfl⟩

section Insert

variable [DecidableEq κ] {k : κ} {row : ℤ → ρ} {hrow : ∀ i, id (row i) = i ∧ key (row i) = k}
  {t' : Table id key} {i : ℤ}

/-- Id and key of a new row are new. -/
theorem ne_of_insert (h : t.insert k row hrow = some (t', i)) {r : ρ} (hr : r ∈ t.rows) :
    id r ≠ i ∧ key r ≠ k := by
  unfold insert at h
  split_ifs at h with hk
  obtain ⟨-, rfl⟩ := Prod.mk.inj (Option.some.inj h)
  constructor
  · have := t.id_le_seq r hr
    omega
  · rintro rfl
    exact hk (List.mem_map_of_mem hr)

/-- An `INSERT` fails for a row that has the key. -/
theorem mem_of_insert_eq_none (h : t.insert k row hrow = none) : ∃ r ∈ t.rows, key r = k := by
  unfold insert at h
  split_ifs at h with hk
  exact List.mem_map.mp hk

/-- An `INSERT` fails for a key that is taken, and otherwise adds a row with the next id. -/
theorem insert_cases (t : Table id key) (k : κ) (row : ℤ → ρ)
    (hrow : ∀ i, id (row i) = i ∧ key (row i) = k) :
    (t.insert k row hrow = none ∧ ∃ r ∈ t.rows, key r = k) ∨
      ∃ t', t.insert k row hrow = some (t', t.seq + 1) ∧ t'.seq = t.seq + 1 ∧
        t'.rows = t.rows ++ [row (t.seq + 1)] := by
  unfold insert
  split_ifs with h
  · exact .inl ⟨rfl, List.mem_map.mp h⟩
  · exact .inr ⟨_, rfl, rfl, rfl⟩

/-- A new row has the next id. -/
theorem id_of_insert (h : t.insert k row hrow = some (t', i)) : i = t.seq + 1 := by
  unfold insert at h
  split_ifs at h
  exact (Prod.mk.inj (Option.some.inj h)).2.symm

theorem seq_of_insert (h : t.insert k row hrow = some (t', i)) : t'.seq = i := by
  unfold insert at h
  split_ifs at h
  obtain ⟨rfl, rfl⟩ := Prod.mk.inj (Option.some.inj h)
  rfl

theorem puts_insert (h : t.insert k row hrow = some (t', i)) : t.Puts (row i) t' := by
  have hne := fun x hx => (ne_of_insert (r := x) h hx).1
  unfold insert at h
  split_ifs at h
  obtain ⟨rfl, rfl⟩ := Prod.mk.inj (Option.some.inj h)
  intro x
  rw [List.mem_append, List.mem_singleton, (hrow _).1]
  exact or_congr_left (iff_self_and.mpr (hne x))

theorem mem_keys_insert (h : t.insert k row hrow = some (t', i)) {k' : κ} :
    k' ∈ t'.rows.map key ↔ k' ∈ t.rows.map key ∨ k' = k := by
  unfold insert at h
  split_ifs at h
  obtain ⟨rfl, rfl⟩ := Prod.mk.inj (Option.some.inj h)
  rw [List.map_append, List.mem_append, List.map_singleton, List.mem_singleton, (hrow _).2]

end Insert

end Table

end Tables
