import NtripCaster.Account.Grants
import NtripCaster.Config.Config
import NtripCaster.Testenv.Stations

/-!
# The test environment

`main` of `cmd/testenv/main.go` from the database that it has opened on: three users, and
mountpoints that the base station and the rover are bound to. It succeeds on the new file that it
makes.

## Main definitions

* `Testenv.createUsers`, `Testenv.createMounts`, `Testenv.main`: the steps of `main`
* `Testenv.config`: the configuration that is generated
* `Testenv.Populated`: what the tables hold

## Main results

* `Testenv.main_ok`: `main` succeeds, and leaves the tables populated
-/

namespace NtripCaster

open Tables

namespace Database

variable {bc : Bcrypt} {db : Database}

theorem createUser_ok {salt username password hash : Bytes}
    (hnew : ∀ u ∈ db.users.rows, u.username ≠ username)
    (hhash : bc.generateFromPassword salt password = some hash) (role : Bytes) :
    ∃ users, db.createUser bc salt username password role = .ok { db with users := users } ∧
      users.seq = db.users.seq + 1 ∧
      users.rows = db.users.rows ++ [⟨db.users.seq + 1, username, hash, role, 1⟩] := by
  rcases createUser_cases bc db salt username password role with
    ⟨e, -, hnone | ⟨u, hu, hname⟩⟩ | ⟨users, hash', hhash', hok, hseq, hrows⟩
  · rw [hhash] at hnone
    cases hnone
  · exact absurd hname (hnew u hu)
  · obtain rfl := Option.some.inj (hhash.symm.trans hhash')
    exact ⟨users, hok, hseq, hrows⟩

/-- A pair of rows that are there can be bound on any connection. -/
theorem addBinding_ok {userID mountPointID : ℤ} (h : db.HasParents userID mountPointID)
    (foreignKeys : Bool) :
    ∃ bindings, db.addBinding foreignKeys userID mountPointID =
        .ok { db with bindings := bindings } ∧
      ∀ p, p ∈ bindings.pairs ↔ p ∈ db.bindings.pairs ∨ p = (userID, mountPointID) := by
  unfold addBinding
  rw [decide_eq_true h, Bool.or_true]
  split
  next hnone =>
    obtain ⟨hfalse, -⟩ := BindingTable.insertOrIgnore_eq_none_iff.mp hnone
    cases hfalse
  next bindings hsome =>
    exact ⟨bindings, rfl, fun p => BindingTable.mem_pairs_insertOrIgnore hsome⟩

end Database

namespace Testenv

/-! ## The steps of `main` -/

/-- `Open` on a file that has been removed. -/
def newDatabase : Database := ⟨.empty, .empty, .empty⟩

variable (bc : Bcrypt) (foreignKeys : Bool) (salt : ℕ → Bytes) (numMounts : ℕ) (pre : Bytes)

/-- The users, with the ids of the base user and of the rover; `LastInsertId` is the id that the
table has drawn last. -/
def createUsers (db : Database) : Except DatabaseError (Database × ℤ × ℤ) := do
  let db ← db.createUser bc (salt 0) (ascii "admin") (ascii "admin") roleAdmin
  let db ← db.createUser bc (salt 1) baseUser password roleBase
  let baseID := db.users.seq
  let db ← db.createUser bc (salt 2) roverUser password roleRover
  let roverID := db.users.seq
  return (db, baseID, roverID)

/-- A turn of the loop over the mountpoints. -/
def createMount (baseID roverID : ℤ) (db : Database) (i : ℕ) : Except DatabaseError Database := do
  let db ← db.createMountPointRow (mountName numMounts pre i)
    (ascii "test mountpoint " ++ formatInt i) (ascii "RTCM3")
  let mountPointID := db.mountpoints.seq
  let db ← db.addBinding foreignKeys baseID mountPointID
  db.addBinding foreignKeys roverID mountPointID

/-- The loop over the mountpoints; the first failing statement ends the program. -/
def createMounts (baseID roverID : ℤ) (db : Database) : Except DatabaseError Database :=
  (List.range numMounts).foldlM (createMount foreignKeys numMounts pre baseID roverID) db

/-- The part of `main` that fills the database. -/
def main : Except DatabaseError Database := do
  let (db, baseID, roverID) ← createUsers bc salt newDatabase
  createMounts foreignKeys numMounts pre baseID roverID db

/-- What `Load` reads from the file that `generateConfig` writes, over `defaultConfig`. -/
def config (auth : Bool) : Config where
  auth :=
    { enabled := auth
      ntripSourceAuth := ascii "user_binding"
      ntripRoverAuth := ascii "basic" }

/-! ## What it leaves -/

/-- The users are the three, and both stations are bound to each mountpoint, which has nothing but
its name, its texts and the defaults. -/
structure Populated (names : List Bytes) (db : Database) : Prop where
  users : ∃ hash₁ hash₂ hash₃, db.users.rows =
      [⟨1, ascii "admin", hash₁, roleAdmin, 1⟩, ⟨2, baseUser, hash₂, roleBase, 1⟩,
        ⟨3, roverUser, hash₃, roleRover, 1⟩] ∧
    (∃ salt, bc.generateFromPassword salt password = some hash₂) ∧
    ∃ salt, bc.generateFromPassword salt password = some hash₃
  mounts : ∀ name, name ∈ names ↔ ∃ row ∈ db.mountpoints.rows, row.name = name
  plain : ∀ row ∈ db.mountpoints.rows,
    row.isEnabled = true ∧ row.writeQueue = none ∧ row.limit = 0
  pairs : ∀ p, p ∈ db.bindings.pairs ↔
    (p.1 = 2 ∨ p.1 = 3) ∧ ∃ row ∈ db.mountpoints.rows, row.id = p.2

variable {bc numMounts pre} {names : List Bytes} {db : Database}

/-- The three accounts get the ids 1 to 3, in a new database. -/
theorem createUsers_ok
    (hadmin : ∀ salt, bc.generateFromPassword salt (ascii "admin") ≠ none)
    (hpassword : ∀ salt, bc.generateFromPassword salt password ≠ none) (salt : ℕ → Bytes) :
    ∃ db, createUsers bc salt newDatabase = .ok (db, 2, 3) ∧ Populated bc [] db := by
  obtain ⟨hash₁, hhash₁⟩ := Option.ne_none_iff_exists'.mp (hadmin (salt 0))
  obtain ⟨hash₂, hhash₂⟩ := Option.ne_none_iff_exists'.mp (hpassword (salt 1))
  obtain ⟨hash₃, hhash₃⟩ := Option.ne_none_iff_exists'.mp (hpassword (salt 2))
  have hnew₁ : ∀ u ∈ newDatabase.users.rows, u.username ≠ ascii "admin" := fun u hu => by cases hu
  obtain ⟨users₁, hok₁, hseq₁, hrows₁⟩ := Database.createUser_ok hnew₁ hhash₁ roleAdmin
  have hrows₁ : users₁.rows = [⟨1, ascii "admin", hash₁, roleAdmin, 1⟩] := hrows₁
  have hnew₂ : ∀ u ∈ ({ newDatabase with users := users₁ } : Database).users.rows,
      u.username ≠ baseUser := by
    show ∀ u ∈ users₁.rows, u.username ≠ baseUser
    rw [hrows₁, List.forall_mem_singleton]
    show ascii "admin" ≠ baseUser
    decide
  obtain ⟨users₂, hok₂, hseq₂, hrows₂⟩ := Database.createUser_ok hnew₂ hhash₂ roleBase
  have hrows₂ : users₂.rows = [⟨1, ascii "admin", hash₁, roleAdmin, 1⟩,
      ⟨2, baseUser, hash₂, roleBase, 1⟩] := by
    rw [hrows₂, hrows₁, hseq₁]
    rfl
  have hnew₃ : ∀ u ∈ ({ newDatabase with users := users₂ } : Database).users.rows,
      u.username ≠ roverUser := by
    show ∀ u ∈ users₂.rows, u.username ≠ roverUser
    rw [hrows₂, List.forall_mem_cons, List.forall_mem_singleton]
    show ascii "admin" ≠ roverUser ∧ baseUser ≠ roverUser
    decide
  obtain ⟨users₃, hok₃, hseq₃, hrows₃⟩ := Database.createUser_ok hnew₃ hhash₃ roleRover
  have hseq₂ : users₂.seq = 2 := hseq₂.trans (congrArg (· + 1) hseq₁)
  have hseq₃ : users₃.seq = 3 := hseq₃.trans (congrArg (· + 1) hseq₂)
  refine ⟨{ newDatabase with users := users₃ }, ?_, ?_⟩
  · unfold createUsers
    simp only [hok₁, ok_bind, hok₂, hok₃, hseq₂, hseq₃]
    rfl
  · refine ⟨⟨hash₁, hash₂, hash₃, ?_, ⟨_, hhash₂⟩, _, hhash₃⟩, ?_, ?_, ?_⟩
    · show users₃.rows = _
      rw [hrows₃, hrows₂, hseq₂]
      rfl
    · intro name
      simp [newDatabase, Table.empty]
    · intro row hrow
      cases hrow
    · intro p
      simp [newDatabase, Table.empty, BindingTable.pairs]

theorem Populated.base (h : Populated bc names db) :
    ∃ hash salt, bc.generateFromPassword salt password = some hash ∧
      ⟨2, baseUser, hash, roleBase, 1⟩ ∈ db.users.rows := by
  obtain ⟨hash₁, hash₂, hash₃, husers, ⟨salt, hhash⟩, -⟩ := h.users
  rw [husers]
  exact ⟨hash₂, salt, hhash, .tail _ (.head _)⟩

theorem Populated.rover (h : Populated bc names db) :
    ∃ hash salt, bc.generateFromPassword salt password = some hash ∧
      ⟨3, roverUser, hash, roleRover, 1⟩ ∈ db.users.rows := by
  obtain ⟨hash₁, hash₂, hash₃, husers, -, salt, hhash⟩ := h.users
  rw [husers]
  exact ⟨hash₃, salt, hhash, .tail _ (.tail _ (.head _))⟩

/-- A turn of the loop succeeds for a new name, and binds both stations to the new mountpoint. -/
theorem Populated.createMount (h : Populated bc names db) (foreignKeys : Bool) {i : ℕ}
    (hnew : mountName numMounts pre i ∉ names) :
    ∃ db', createMount foreignKeys numMounts pre 2 3 db i = .ok db' ∧
      Populated bc (names ++ [mountName numMounts pre i]) db' := by
  cases hcreate : db.mountpoints.create (mountName numMounts pre i)
      (ascii "test mountpoint " ++ formatInt i) (ascii "RTCM3") with
  | none => exact absurd ((h.mounts _).mpr (Table.mem_of_insert_eq_none hcreate)) hnew
  | some result =>
    obtain ⟨mountpoints, id⟩ := result
    have hrows := Table.puts_insert hcreate
    have hid := Table.seq_of_insert hcreate
    have hmem : ∀ row, row ∈ mountpoints.rows ↔ row ∈ db.mountpoints.rows ∨
        row = .new (mountName numMounts pre i) (ascii "test mountpoint " ++ formatInt i)
          (ascii "RTCM3") id := fun row =>
      (hrows row).trans
        (or_congr_left (and_iff_left_of_imp fun hrow => (Table.ne_of_insert hcreate hrow).1))
    have hmount : (mountpoints.byID id).isSome = true :=
      Table.byID_isSome.mpr ⟨_, (hmem _).mpr (.inr rfl), rfl⟩
    have hparents : ∀ userID, userID = 2 ∨ userID = 3 →
        ∀ bindings, Database.HasParents ⟨db.users, mountpoints, bindings⟩ userID id := by
      intro userID huser bindings
      refine ⟨Table.byID_isSome.mpr ?_, hmount⟩
      rcases huser with rfl | rfl
      · obtain ⟨hash, -, -, hbase⟩ := h.base
        exact ⟨_, hbase, rfl⟩
      · obtain ⟨hash, -, -, hrover⟩ := h.rover
        exact ⟨_, hrover, rfl⟩
    obtain ⟨bindings₁, hok₁, hpairs₁⟩ :=
      Database.addBinding_ok (hparents 2 (.inl rfl) db.bindings) foreignKeys
    obtain ⟨bindings₂, hok₂, hpairs₂⟩ :=
      Database.addBinding_ok (hparents 3 (.inr rfl) bindings₁) foreignKeys
    refine ⟨⟨db.users, mountpoints, bindings₂⟩, ?_, ?_⟩
    · have hcreated : db.createMountPointRow (mountName numMounts pre i)
          (ascii "test mountpoint " ++ formatInt i) (ascii "RTCM3") =
            .ok { db with mountpoints := mountpoints } := by
        rw [Database.createMountPointRow, hcreate]
      unfold Testenv.createMount
      simp only [hcreated, ok_bind, hid, hok₁, hok₂]
    · refine ⟨h.users, fun name => ?_, fun row hrow => ?_, fun p => ?_⟩
      · simp only [List.mem_append, List.mem_singleton, h.mounts, hmem, or_and_right, exists_or,
          exists_eq_left]
        exact or_congr_right eq_comm
      · rcases (hmem row).mp hrow with hrow | rfl
        · exact h.plain row hrow
        · exact ⟨rfl, rfl, rfl⟩
      · rw [hpairs₂, hpairs₁, h.pairs]
        simp only [hmem, or_and_right, exists_or, exists_eq_left, Prod.ext_iff, or_assoc,
          and_or_left]
        rw [@eq_comm _ p.2 id]
        exact or_congr_right Iff.rfl

/-- Mountpoint by mountpoint, with a binding for either user, by induction over the names so far. -/
theorem createMounts_ok (h : Populated bc [] db) (foreignKeys : Bool) (numMounts : ℕ)
    (pre : Bytes) :
    ∃ db', createMounts foreignKeys numMounts pre 2 3 db = .ok db' ∧
      Populated bc (mountNames numMounts pre) db' := by
  have hnodup := mountNames_nodup numMounts pre
  unfold createMounts mountNames
  -- the mountpoints of the first turns, and the names that are still to come
  suffices hloop : ∀ (is : List ℕ) (names : List Bytes) (db : Database), Populated bc names db →
      (names ++ is.map (mountName numMounts pre)).Nodup →
      ∃ db', is.foldlM (createMount foreignKeys numMounts pre 2 3) db = .ok db' ∧
        Populated bc (names ++ is.map (mountName numMounts pre)) db' from
    hloop (List.range numMounts) [] db h hnodup
  intro is
  induction is with
  | nil =>
    intro names db h _
    refine ⟨db, rfl, ?_⟩
    rwa [List.map_nil, List.append_nil]
  | cons i is ih =>
    intro names db h hnodup
    rw [List.map_cons, List.append_cons] at hnodup ⊢
    have hnew : mountName numMounts pre i ∉ names := fun hmem =>
      (List.nodup_append.mp (List.nodup_append.mp hnodup).1).2.2 _ hmem _
        (List.mem_singleton_self _) rfl
    obtain ⟨db₁, hok, h₁⟩ := h.createMount foreignKeys hnew
    obtain ⟨db', hok', h'⟩ := ih _ db₁ h₁ hnodup
    refine ⟨db', ?_, h'⟩
    rw [List.foldlM_cons, hok]
    exact hok'

/-- **The test environment is set up**: on a new file, with a bcrypt that hashes the two passwords,
no step of `main` fails. -/
theorem main_ok (hadmin : ∀ salt, bc.generateFromPassword salt (ascii "admin") ≠ none)
    (hpassword : ∀ salt, bc.generateFromPassword salt password ≠ none) (foreignKeys : Bool)
    (salt : ℕ → Bytes) (numMounts : ℕ) (pre : Bytes) :
    ∃ db, main bc foreignKeys salt numMounts pre = .ok db ∧
      Populated bc (mountNames numMounts pre) db := by
  obtain ⟨db₁, hok, h⟩ := createUsers_ok hadmin hpassword salt
  obtain ⟨db, hok', h'⟩ := createMounts_ok h foreignKeys numMounts pre
  refine ⟨db, ?_, h'⟩
  unfold main
  rw [hok]
  exact hok'

/-- Nobody but the two stations may use the mountpoints. -/
theorem Populated.granted (h : Populated bc names db) :
    db.granted = {baseUser, roverUser} ×ˢ {name | name ∈ names} := by
  obtain ⟨hash₁, hash₂, hash₃, husers, -⟩ := h.users
  ext p
  constructor
  · rintro ⟨u, hu, m, hm, hpair, huser, hmount⟩
    obtain ⟨hid, -⟩ := (h.pairs _).mp hpair
    refine ⟨?_, (h.mounts _).mpr ⟨m, hm, hmount⟩⟩
    rw [husers] at hu
    rw [← huser]
    simp only [List.mem_cons, List.not_mem_nil, or_false] at hu
    rcases hu with rfl | rfl | rfl
    · rcases hid with hid | hid
      · cases hid
      · cases hid
    · exact .inl rfl
    · exact .inr rfl
  · rintro ⟨huser, hmount⟩
    obtain ⟨m, hm, hname⟩ := (h.mounts _).mp hmount
    rcases huser with huser | huser
    · obtain ⟨hash, -, -, hbase⟩ := h.base
      exact ⟨_, hbase, m, hm, (h.pairs _).mpr ⟨.inl rfl, m, hm, rfl⟩, huser.symm, hname⟩
    · obtain ⟨hash, -, -, hrover⟩ := h.rover
      exact ⟨_, hrover, m, hm, (h.pairs _).mpr ⟨.inr rfl, m, hm, rfl⟩, huser.symm, hname⟩

end Testenv

end NtripCaster
