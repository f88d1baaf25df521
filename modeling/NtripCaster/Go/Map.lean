import Mathlib.Data.List.AList

/-!
# Go maps

A Go map is a finite map (Mathlib's `AList`). The language leaves the order of a `range` loop
open, so a loop is given the order it visits the entries in.

## Main definitions

* `GoMap`, `GoMap.len`, `GoMap.values`
* `RangeOrder`: the order of one `range` loop
* `GoMap.deleteWhere`: the map after a loop that deletes the entries meeting a test
* `GoMap.filterMap`: what the values lead to
-/

namespace NtripCaster

universe u v

/-- A Go `map[K]V`. -/
abbrev GoMap (K : Type u) (V : Type v) := AList fun _ : K => V

/-- The order in which one `range` loop visits what it ranges over. -/
structure RangeOrder (β : Type u) where
  visit : List β → List β
  visit_perm : ∀ l, (visit l).Perm l

namespace RangeOrder

variable {β : Type u}

/-- The order in which the map happens to be stored. -/
def stored : RangeOrder β := ⟨id, fun l => .refl l⟩

instance : Inhabited (RangeOrder β) := ⟨stored⟩

@[simp] theorem mem_visit (ord : RangeOrder β) {l : List β} {b : β} : b ∈ ord.visit l ↔ b ∈ l :=
  (ord.visit_perm l).mem_iff

end RangeOrder

namespace GoMap

variable {K : Type u} {V : Type v}

/-- `len(m)`. -/
def len (m : GoMap K V) : ℕ := m.entries.length

/-- The values of the map, each once for each of its keys. -/
def values (m : GoMap K V) : List V := m.entries.map Sigma.snd

@[simp] theorem length_values (m : GoMap K V) : m.values.length = m.len := List.length_map _

/-- The map after a `range` loop that deletes the entries meeting the test `p`. -/
def deleteWhere (m : GoMap K V) (p : K → V → Bool) : GoMap K V where
  entries := m.entries.filter fun e => !p e.1 e.2
  nodupKeys := m.nodupKeys.sublist List.filter_sublist

/-- The entries whose values lead somewhere, with what they lead to. -/
def filterMap {W : Type*} (f : V → Option W) (m : GoMap K V) : GoMap K W where
  entries := m.entries.filterMap fun e => (f e.2).map (Sigma.mk e.1)
  nodupKeys := by
    refine List.Nodup.sublist ?_ m.nodupKeys
    induction m.entries with
    | nil => exact .slnil
    | cons e l ih =>
      rw [List.filterMap_cons]
      cases f e.2 with
      | none => exact ih.cons _
      | some w => exact ih.cons_cons _

variable [DecidableEq K]

theorem lookup_filterMap {W : Type*} {f : V → Option W} {m : GoMap K V} {k : K} {w : W} :
    (m.filterMap f).lookup k = some w ↔ ∃ v, m.lookup k = some v ∧ f v = some w := by
  have h : Sigma.mk k w ∈ (m.filterMap f).entries ↔
      ∃ v, Sigma.mk k v ∈ m.entries ∧ f v = some w := by
    simp only [filterMap, List.mem_filterMap, Option.map_eq_some_iff]
    constructor
    · rintro ⟨⟨k', v⟩, hmem, w', hw, heq⟩
      cases heq
      exact ⟨v, hmem, hw⟩
    · rintro ⟨v, hmem, hw⟩
      exact ⟨⟨k, v⟩, hmem, w, hw, rfl⟩
  refine AList.mem_lookup_iff.trans (h.trans (exists_congr fun v => and_congr_left' ?_))
  exact AList.mem_lookup_iff.symm

theorem mem_values {m : GoMap K V} {v : V} : v ∈ m.values ↔ ∃ k, m.lookup k = some v := by
  simp only [values, List.mem_map]
  constructor
  · rintro ⟨⟨k, w⟩, hmem, rfl⟩
    exact ⟨k, AList.mem_lookup_iff.mpr hmem⟩
  · rintro ⟨k, hk⟩
    exact ⟨⟨k, v⟩, AList.mem_lookup_iff.mp hk, rfl⟩

theorem lookup_deleteWhere {m : GoMap K V} {p : K → V → Bool} {k : K} {v : V} :
    (m.deleteWhere p).lookup k = some v ↔ m.lookup k = some v ∧ p k v = false := by
  have h : Sigma.mk k v ∈ m.entries.filter (fun e => !p e.1 e.2) ↔
      Sigma.mk k v ∈ m.entries ∧ p k v = false := by
    simp [List.mem_filter]
  exact AList.mem_lookup_iff.trans (h.trans (and_congr_left' AList.mem_lookup_iff.symm))

theorem lookup_erase_eq_some {m : GoMap K V} {k k' : K} {v : V} :
    (m.erase k').lookup k = some v ↔ k ≠ k' ∧ m.lookup k = some v := by
  by_cases h : k = k'
  · subst h
    simp [AList.lookup_erase]
  · simp [AList.lookup_erase_ne h, h]

theorem lookup_insert_eq_some {m : GoMap K V} {k k' : K} {v v' : V} :
    (m.insert k' v').lookup k = some v ↔
      k = k' ∧ v = v' ∨ k ≠ k' ∧ m.lookup k = some v := by
  by_cases h : k = k'
  · subst h
    simp [AList.lookup_insert, eq_comm]
  · simp [AList.lookup_insert_ne h, h]

/-- A map that has no entries of its own has no more entries. -/
theorem len_le_of_lookup {m m' : GoMap K V}
    (h : ∀ k v, m'.lookup k = some v → m.lookup k = some v) : m'.len ≤ m.len := by
  have hsub : m'.entries ⊆ m.entries := fun e he =>
    AList.mem_lookup_iff.mp (h e.1 e.2 (AList.mem_lookup_iff.mpr he))
  exact (List.subperm_of_subset m'.nodupKeys.nodup hsub).length_le

theorem len_insert_le (m : GoMap K V) (k : K) (v : V) :
    len (AList.insert k v m) ≤ m.len + 1 := by
  rw [len, AList.entries_insert, List.length_cons]
  exact Nat.succ_le_succ (List.kerase_sublist k m.entries).length_le

/-- Values stored under a key that they carry are stored once. -/
theorem nodup_values {m : GoMap K V} {key : V → K}
    (h : ∀ k v, m.lookup k = some v → key v = k) : m.values.Nodup := by
  have hkeys : m.values.map key = m.keys := by
    rw [values, List.map_map]
    refine List.map_congr_left fun e he => ?_
    exact h e.1 e.2 (AList.mem_lookup_iff.mpr he)
  exact List.Nodup.of_map key (hkeys ▸ m.keys_nodup)

end GoMap

end NtripCaster
