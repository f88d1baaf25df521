import NtripCaster.Go.Bytes
import NtripCaster.Library.Table

/-!
# The users table

The `users` table of `internal/database/database.go`, a table with the keys `id` and `username`,
and the SQL statements that `internal/account/service.go` runs on it.

## Main definitions

* `User`, `UserRow`, `UserTable`
* `UserTable.byName`, `UserTable.insert`

## Main results

* `UserTable.byName_eq_some`: a lookup by name finds exactly the row of that name
-/

namespace NtripCaster

open Tables

/-- `account.User`. -/
structure User where
  id : ℤ
  username : Bytes
  passwordHash : Bytes
  role : Bytes
  enabled : Bool
  deriving DecidableEq, Repr

/-- `RoleAdmin`: passes wherever a role is asked for, and alone logs in to the admin API. -/
def roleAdmin : Bytes := ascii "admin"
/-- `RoleBase`: the role that publishing asks for. -/
def roleBase : Bytes := ascii "base"
/-- `RoleRover`: the role that subscribing asks for. -/
def roleRover : Bytes := ascii "rover"

/-- A row of `users`; `enabled` is an `INTEGER` column. -/
structure UserRow where
  id : ℤ
  username : Bytes
  passwordHash : Bytes
  role : Bytes
  enabled : ℤ
  deriving DecidableEq, Repr

/-- The scan of a row into a `User`: `u.Enabled = enabled != 0`. -/
def UserRow.scan (r : UserRow) : User where
  id := r.id
  username := r.username
  passwordHash := r.passwordHash
  role := r.role
  enabled := r.enabled != 0

/-- The `users` table. -/
abbrev UserTable := Table UserRow.id UserRow.username

namespace UserTable

variable (t : UserTable)

/-- A table of one row. -/
def single (r : UserRow) : UserTable :=
  ⟨[r], r.id, List.nodup_singleton _, List.nodup_singleton _, by simp⟩

/-- `SELECT … FROM users WHERE username = ?`. -/
def byName (username : Bytes) : Option UserRow := t.byKey username

/-- `INSERT INTO users … VALUES (?, ?, ?, 1)`: fails on a duplicate username, otherwise the new
table and the new id. -/
def insert (username passwordHash role : Bytes) : Option (UserTable × ℤ) :=
  Table.insert t username (fun id => ⟨id, username, passwordHash, role, 1⟩) fun _ => ⟨rfl, rfl⟩

variable {t}

theorem byName_eq_some {username : Bytes} {r : UserRow} :
    t.byName username = some r ↔ r ∈ t.rows ∧ r.username = username :=
  Table.byKey_eq_some

/-- An `INSERT` fails for a name that is taken, and otherwise adds a row with the next id. -/
theorem insert_cases (t : UserTable) (username passwordHash role : Bytes) :
    (t.insert username passwordHash role = none ∧ ∃ u ∈ t.rows, u.username = username) ∨
      ∃ t', t.insert username passwordHash role = some (t', t.seq + 1) ∧ t'.seq = t.seq + 1 ∧
        t'.rows = t.rows ++ [⟨t.seq + 1, username, passwordHash, role, 1⟩] :=
  Table.insert_cases t username _ _

/-- An `INSERT` keeps the rows. -/
theorem mem_of_insert {username passwordHash role : Bytes} {t' : UserTable} {id : ℤ}
    (h : t.insert username passwordHash role = some (t', id)) {r : UserRow} (hr : r ∈ t.rows) :
    r ∈ t'.rows :=
  (Table.puts_insert h r).mpr (.inl ⟨hr, (Table.ne_of_insert h hr).1⟩)

/-- A new row leaves the lookups that find a row as they are. -/
theorem byName_insert {username passwordHash role : Bytes} {t' : UserTable} {id : ℤ}
    (h : t.insert username passwordHash role = some (t', id)) {name : Bytes} {r : UserRow}
    (hr : t.byName name = some r) : t'.byName name = some r := by
  obtain ⟨hmem, hname⟩ := byName_eq_some.mp hr
  exact byName_eq_some.mpr ⟨mem_of_insert h hmem, hname⟩

end UserTable

end NtripCaster
