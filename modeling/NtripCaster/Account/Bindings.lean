import NtripCaster.Account.Admin
import NtripCaster.Library.Transition

/-!
# Bindings and the connections of the pool

The bindings of `internal/database/database.go` refer to users and mountpoints by `REFERENCES … ON
DELETE CASCADE`. SQLite enforces that on a connection that has executed `PRAGMA foreign_keys=ON`;
`Open` executes it once, on the first connection of the `database/sql` pool, which may open others
for the functions of `internal/account/service.go`.

## Main definitions

* `BindingTable`, `Database`: the three tables
* `Database.addBinding`, `removeBinding`, `deleteUser`, `deleteMountPointRow`, `createUser`,
  `createMountPointRow`: the functions of the service, on a connection with or without the pragma
* `Database.Intact`: no binding dangles
* `poolSystem`: calls served by any connection of the pool
* `Enforced`: the condition on a step

## Main results

* `Database.exec_intact_iff`: when a call leaves no binding dangling
* `bindings_intact`: no binding ever dangles, under the condition
* `bindings_dangling`: a second connection deletes a user and leaves the binding
-/

namespace NtripCaster

open Tables Transition

/-! ## The tables -/

/-- The `user_mountpoint_bindings` table, with `UNIQUE(user_id, mountpoint_id)`. -/
abbrev BindingTable := Table BindingRow.id fun b => (b.userID, b.mountPointID)

namespace BindingTable

variable (t : BindingTable)

/-- The pairs of ids that are bound. -/
def pairs : List (ℤ × ℤ) := t.rows.map fun b => (b.userID, b.mountPointID)

/-- `INSERT OR IGNORE INTO … (user_id, mountpoint_id) VALUES (?, ?)`, of a pair that the foreign
keys allow or not: `OR IGNORE` is about a pair that is there already, and draws an id for it. -/
def insertOrIgnore (allowed : Bool) (userID mountPointID : ℤ) : Option BindingTable :=
  match t.insert (userID, mountPointID) (⟨·, userID, mountPointID⟩) fun _ => ⟨rfl, rfl⟩ with
  | none => some t.skip
  | some (t', _) => if allowed = true then some t' else none

variable {t} {t' : BindingTable} {allowed : Bool} {userID mountPointID : ℤ}

theorem insertOrIgnore_eq_none_iff :
    t.insertOrIgnore allowed userID mountPointID = none ↔
      allowed = false ∧ (userID, mountPointID) ∉ t.pairs := by
  unfold insertOrIgnore
  split
  next hinsert =>
    obtain ⟨b, hb, hpair⟩ := Table.mem_of_insert_eq_none hinsert
    refine iff_of_false (by simp) fun h => h.2 ?_
    exact List.mem_map.mpr ⟨b, hb, hpair⟩
  next hinsert =>
    have hnew : (userID, mountPointID) ∉ t.pairs := by
      intro hmem
      obtain ⟨b, hb, hpair⟩ := List.mem_map.mp hmem
      exact (Table.ne_of_insert hinsert hb).2 hpair
    rw [and_iff_left hnew]
    cases allowed <;> simp

theorem mem_pairs_insertOrIgnore (h : t.insertOrIgnore allowed userID mountPointID = some t')
    {p : ℤ × ℤ} : p ∈ t'.pairs ↔ p ∈ t.pairs ∨ p = (userID, mountPointID) := by
  unfold insertOrIgnore at h
  split at h
  next hinsert =>
    obtain rfl := Option.some.inj h
    obtain ⟨b, hb, hpair⟩ := Table.mem_of_insert_eq_none hinsert
    refine (or_iff_left_of_imp ?_).symm
    rintro rfl
    exact List.mem_map.mpr ⟨b, hb, hpair⟩
  next hinsert =>
    obtain ⟨-, h⟩ := Option.ite_none_right_eq_some.mp h
    obtain rfl := Option.some.inj h
    exact Table.mem_keys_insert hinsert

end BindingTable

/-- The database file. -/
structure Database where
  users : UserTable
  mountpoints : MountPointTable
  bindings : BindingTable

/-- The errors of the functions that change rows. -/
inductive DatabaseError
  | hashPassword
  | insertUser
  | insertMountpoint
  | addBinding
  deriving DecidableEq, Repr

/-- The text of an error; the text of the driver or of bcrypt follows it. -/
def DatabaseError.text : DatabaseError → String
  | hashPassword => "hash password: "
  | insertUser => "insert user: "
  | insertMountpoint => "insert mountpoint: "
  | addBinding => "add binding: "

namespace Database

variable (bc : Bcrypt) (foreignKeys : Bool) (db : Database)

/-- `NewService`. -/
def newService : Service := .new db.users db.mountpoints.rows db.bindings.rows

/-- `CreateUser`. -/
def createUser (salt username password role : Bytes) : Except DatabaseError Database :=
  match db.newService.createUser bc salt username password role with
  | (svc, .ok _) => .ok { db with users := svc.users }
  | (_, .error .hashPassword) => .error .hashPassword
  | (_, .error _) => .error .insertUser

/-- `CreateMountPointRow`. -/
def createMountPointRow (name description format : Bytes) : Except DatabaseError Database :=
  match db.mountpoints.create name description format with
  | none => .error .insertMountpoint
  | some (mountpoints, _) => .ok { db with mountpoints := mountpoints }

/-- `ON DELETE CASCADE`, of the bindings that refer to a row if that row is there. -/
def cascade (found : Bool) (refers : BindingRow → Bool) : BindingTable :=
  if foreignKeys && found then db.bindings.deleteWhere refers else db.bindings

/-- `DeleteUser`. -/
def deleteUser (id : ℤ) : Database where
  users := db.users.delete id
  mountpoints := db.mountpoints
  bindings := db.cascade foreignKeys (db.users.byID id).isSome (·.userID == id)

/-- `DeleteMountPointRow`. -/
def deleteMountPointRow (id : ℤ) : Database where
  users := db.users
  mountpoints := db.mountpoints.delete id
  bindings := db.cascade foreignKeys (db.mountpoints.byID id).isSome (·.mountPointID == id)

/-- The two rows that a binding refers to are there. -/
def HasParents (userID mountPointID : ℤ) : Prop :=
  (db.users.byID userID).isSome = true ∧ (db.mountpoints.byID mountPointID).isSome = true

instance (userID mountPointID : ℤ) : Decidable (db.HasParents userID mountPointID) :=
  inferInstanceAs (Decidable (_ ∧ _))

/-- `AddBinding`. -/
def addBinding (userID mountPointID : ℤ) : Except DatabaseError Database :=
  match db.bindings.insertOrIgnore (!foreignKeys || decide (db.HasParents userID mountPointID))
      userID mountPointID with
  | none => .error .addBinding
  | some bindings => .ok { db with bindings := bindings }

/-- `RemoveBinding`. -/
def removeBinding (id : ℤ) : Database := { db with bindings := db.bindings.delete id }

end Database

/-- A call of the service. -/
inductive ServiceCall
  | createUser (salt username password role : Bytes)
  | createMountPointRow (name description format : Bytes)
  | deleteUser (id : ℤ)
  | deleteMountPointRow (id : ℤ)
  | addBinding (userID mountPointID : ℤ)
  | removeBinding (id : ℤ)

namespace Database

variable (bc : Bcrypt) (foreignKeys : Bool) (db : Database)

/-- A call, served by a connection that enforces foreign keys or not. -/
def call : ServiceCall → Except DatabaseError Database
  | .createUser salt username password role => db.createUser bc salt username password role
  | .createMountPointRow name description format => db.createMountPointRow name description format
  | .deleteUser id => .ok (db.deleteUser foreignKeys id)
  | .deleteMountPointRow id => .ok (db.deleteMountPointRow foreignKeys id)
  | .addBinding userID mountPointID => db.addBinding foreignKeys userID mountPointID
  | .removeBinding id => .ok (db.removeBinding id)

/-- The database after a call; one that fails has changed nothing. -/
def exec (c : ServiceCall) : Database := (db.call bc foreignKeys c).toOption.getD db

/-- Every binding refers to a user and to a mountpoint that exist. -/
def Intact : Prop := ∀ b ∈ db.bindings.rows, db.HasParents b.userID b.mountPointID

/-- The call needs no enforcement: what it adds has its parents, and what it deletes has no
bindings. -/
def Harmless : ServiceCall → Prop
  | .addBinding userID mountPointID => db.HasParents userID mountPointID
  | .deleteUser id => ∀ b ∈ db.bindings.rows, b.userID ≠ id
  | .deleteMountPointRow id => ∀ b ∈ db.bindings.rows, b.mountPointID ≠ id
  | _ => True

instance (c : ServiceCall) : Decidable (db.Harmless c) :=
  match c with
  | .addBinding userID mountPointID =>
    inferInstanceAs (Decidable (db.HasParents userID mountPointID))
  | .deleteUser id => inferInstanceAs (Decidable (∀ b ∈ db.bindings.rows, b.userID ≠ id))
  | .deleteMountPointRow id =>
    inferInstanceAs (Decidable (∀ b ∈ db.bindings.rows, b.mountPointID ≠ id))
  | .createUser .. | .createMountPointRow .. | .removeBinding _ => .isTrue trivial

/-! ## Calls -/

variable {bc foreignKeys db} {b : BindingRow} {id : ℤ}

theorem mem_cascade {found : Bool} {refers : BindingRow → Bool} :
    b ∈ (db.cascade foreignKeys found refers).rows ↔
      b ∈ db.bindings.rows ∧ ¬ (foreignKeys = true ∧ found = true ∧ refers b = true) := by
  unfold cascade
  split_ifs with h
  · obtain ⟨rfl, rfl⟩ := Bool.and_eq_true_iff.mp h
    simp [Table.mem_deleteWhere]
  · rw [Bool.and_eq_true_iff] at h
    exact (and_iff_left fun hb => h ⟨hb.1, hb.2.1⟩).symm

/-- The bindings of a user are gone, on a connection with the pragma. -/
theorem mem_deleteUser (hdb : db.Intact) :
    b ∈ (db.deleteUser foreignKeys id).bindings.rows ↔
      b ∈ db.bindings.rows ∧ ¬ (foreignKeys = true ∧ b.userID = id) := by
  refine mem_cascade.trans (and_congr_right fun hb => not_congr (and_congr_right fun _ => ?_))
  rw [beq_iff_eq, and_iff_right_iff_imp]
  rintro rfl
  exact (hdb b hb).1

theorem mem_deleteMountPointRow (hdb : db.Intact) :
    b ∈ (db.deleteMountPointRow foreignKeys id).bindings.rows ↔
      b ∈ db.bindings.rows ∧ ¬ (foreignKeys = true ∧ b.mountPointID = id) := by
  refine mem_cascade.trans (and_congr_right fun hb => not_congr (and_congr_right fun _ => ?_))
  rw [beq_iff_eq, and_iff_right_iff_imp]
  rintro rfl
  exact (hdb b hb).2

theorem deleteUser_intact_iff (hdb : db.Intact) :
    (db.deleteUser foreignKeys id).Intact ↔
      foreignKeys = true ∨ ∀ b ∈ db.bindings.rows, b.userID ≠ id := by
  constructor
  · intro h
    cases foreignKeys with
    | true => exact .inl rfl
    | false =>
      refine .inr fun b hb => ?_
      exact (Table.byID_isSome_delete.mp (h b ((mem_deleteUser hdb).mpr ⟨hb, by simp⟩)).1).2
  · intro h b hb
    obtain ⟨hb, hid⟩ := (mem_deleteUser hdb).mp hb
    refine ⟨Table.byID_isSome_delete.mpr ⟨(hdb b hb).1, fun heq => ?_⟩, (hdb b hb).2⟩
    rcases h with h | h
    · exact hid ⟨h, heq⟩
    · exact h b hb heq

theorem deleteMountPointRow_intact_iff (hdb : db.Intact) :
    (db.deleteMountPointRow foreignKeys id).Intact ↔
      foreignKeys = true ∨ ∀ b ∈ db.bindings.rows, b.mountPointID ≠ id := by
  constructor
  · intro h
    cases foreignKeys with
    | true => exact .inl rfl
    | false =>
      refine .inr fun b hb => ?_
      have hb' := h b ((mem_deleteMountPointRow hdb).mpr ⟨hb, by simp⟩)
      exact (Table.byID_isSome_delete.mp hb'.2).2
  · intro h b hb
    obtain ⟨hb, hid⟩ := (mem_deleteMountPointRow hdb).mp hb
    refine ⟨(hdb b hb).1, Table.byID_isSome_delete.mpr ⟨(hdb b hb).2, fun heq => ?_⟩⟩
    rcases h with h | h
    · exact hid ⟨h, heq⟩
    · exact h b hb heq

/-- More users and mountpoints, and no other bindings. -/
theorem Intact.mono (hdb : db.Intact) {db' : Database}
    (husers : ∀ r ∈ db.users.rows, r ∈ db'.users.rows)
    (hmountpoints : ∀ r ∈ db.mountpoints.rows, r ∈ db'.mountpoints.rows)
    (hbindings : ∀ b ∈ db'.bindings.rows, b ∈ db.bindings.rows) : db'.Intact := by
  intro b hb
  obtain ⟨huser, hmountpoint⟩ := hdb b (hbindings b hb)
  obtain ⟨u, hu, hid⟩ := Table.byID_isSome.mp huser
  obtain ⟨m, hm, hid'⟩ := Table.byID_isSome.mp hmountpoint
  exact ⟨Table.byID_isSome.mpr ⟨u, husers u hu, hid⟩,
    Table.byID_isSome.mpr ⟨m, hmountpoints m hm, hid'⟩⟩

/-- A new user leaves the other rows as they are. -/
theorem createUser_eq_ok {salt username password role : Bytes} {db' : Database}
    (h : db.createUser bc salt username password role = .ok db') :
    ∃ users, db' = { db with users := users } ∧ ∀ r ∈ db.users.rows, r ∈ users.rows := by
  cases hcreate : db.newService.createUser bc salt username password role with
  | mk svc result =>
    rw [createUser, hcreate] at h
    cases result with
    | error e => cases e <;> cases h
    | ok u =>
      obtain rfl := Except.ok.inj h
      refine ⟨svc.users, rfl, fun r hr => ?_⟩
      unfold Service.createUser at hcreate
      split at hcreate
      · cases hcreate
      · split at hcreate
        · cases hcreate
        next hinsert =>
          cases hcreate
          exact UserTable.mem_of_insert hinsert hr

theorem createMountPointRow_eq_ok {name description format : Bytes} {db' : Database}
    (h : db.createMountPointRow name description format = .ok db') :
    ∃ mountpoints, db' = { db with mountpoints := mountpoints } ∧
      ∀ r ∈ db.mountpoints.rows, r ∈ mountpoints.rows := by
  cases hcreate : db.mountpoints.create name description format with
  | none =>
    rw [createMountPointRow, hcreate] at h
    cases h
  | some p =>
    rw [createMountPointRow, hcreate] at h
    obtain rfl := Except.ok.inj h
    refine ⟨p.1, rfl, fun r hr => ?_⟩
    exact (Table.puts_insert hcreate r).mpr (.inl ⟨hr, (Table.ne_of_insert hcreate hr).1⟩)

theorem exec_of_error {c : ServiceCall} {e : DatabaseError}
    (h : db.call bc foreignKeys c = .error e) : db.exec bc foreignKeys c = db := by
  rw [exec, h]
  rfl

theorem exec_of_ok {c : ServiceCall} {db' : Database} (h : db.call bc foreignKeys c = .ok db') :
    db.exec bc foreignKeys c = db' := by
  rw [exec, h]
  rfl

/-- A call that keeps what it does not refuse. -/
theorem Intact.exec (hdb : db.Intact) {c : ServiceCall}
    (h : ∀ db', db.call bc foreignKeys c = .ok db' → db'.Intact) :
    (db.exec bc foreignKeys c).Intact := by
  cases hcall : db.call bc foreignKeys c with
  | error e =>
    rw [exec_of_error hcall]
    exact hdb
  | ok db' =>
    rw [exec_of_ok hcall]
    exact h db' hcall

theorem intact_iff : db.Intact ↔ ∀ p ∈ db.bindings.pairs, db.HasParents p.1 p.2 := by
  simp only [Intact, BindingTable.pairs, List.forall_mem_map]

/-- A pair that is there already has its parents; a new one is refused or added. -/
theorem exec_addBinding_intact_iff (hdb : db.Intact) {userID mountPointID : ℤ} :
    (db.exec bc foreignKeys (.addBinding userID mountPointID)).Intact ↔
      foreignKeys = true ∨ db.HasParents userID mountPointID := by
  have hcall : db.call bc foreignKeys (.addBinding userID mountPointID) =
      db.addBinding foreignKeys userID mountPointID := rfl
  rw [addBinding] at hcall
  split at hcall
  next hrefused =>
    obtain ⟨hallowed, -⟩ := BindingTable.insertOrIgnore_eq_none_iff.mp hrefused
    rw [exec_of_error hcall]
    exact iff_of_true hdb (.inl (by simpa using (Bool.or_eq_false_iff.mp hallowed).1))
  next bindings hinsert =>
    have hpairs := fun p => BindingTable.mem_pairs_insertOrIgnore (p := p) hinsert
    rw [exec_of_ok hcall, intact_iff]
    constructor
    · intro h
      exact .inr (h _ ((hpairs _).mpr (.inr rfl)))
    · intro h
      have hparents : db.HasParents userID mountPointID := by
        by_contra hnot
        obtain rfl := h.resolve_right hnot
        have hallowed : (!true || decide (db.HasParents userID mountPointID)) = false := by
          simpa using hnot
        have hnone := BindingTable.insertOrIgnore_eq_none_iff.mpr
          ⟨hallowed, fun hmem => hnot (intact_iff.mp hdb _ hmem)⟩
        cases hinsert.symm.trans hnone
      intro p hp
      rcases (hpairs p).mp hp with hp | rfl
      · exact intact_iff.mp hdb p hp
      · exact hparents

/-- A call leaves no binding dangling exactly if its connection enforces foreign keys or it needs no
enforcement. -/
theorem exec_intact_iff (hdb : db.Intact) (c : ServiceCall) :
    (db.exec bc foreignKeys c).Intact ↔ foreignKeys = true ∨ db.Harmless c := by
  cases c with
  | createUser salt username password role =>
    refine iff_of_true (hdb.exec fun db' h => ?_) (.inr trivial)
    obtain ⟨users, rfl, hkeep⟩ := createUser_eq_ok h
    exact hdb.mono hkeep (fun _ hr => hr) fun _ hb => hb
  | createMountPointRow name description format =>
    refine iff_of_true (hdb.exec fun db' h => ?_) (.inr trivial)
    obtain ⟨mountpoints, rfl, hkeep⟩ := createMountPointRow_eq_ok h
    exact hdb.mono (fun _ hr => hr) hkeep fun _ hb => hb
  | deleteUser id => exact deleteUser_intact_iff hdb
  | deleteMountPointRow id => exact deleteMountPointRow_intact_iff hdb
  | addBinding userID mountPointID => exact exec_addBinding_intact_iff hdb
  | removeBinding id =>
    refine iff_of_true (fun b hb => ?_) (.inr trivial)
    exact hdb b (Table.mem_delete.mp hb).1

/-- No binding refers to a user or a mountpoint that the call deletes. -/
def Unbound : ServiceCall → Prop
  | .deleteUser id => ∀ b ∈ db.bindings.rows, b.userID ≠ id
  | .deleteMountPointRow id => ∀ b ∈ db.bindings.rows, b.mountPointID ≠ id
  | _ => True

/-- What a deletion leaves intact has no binding of what it deleted. -/
theorem Intact.unbound {c : ServiceCall} (h : (db.exec bc foreignKeys c).Intact) :
    (db.exec bc foreignKeys c).Unbound c := by
  cases c with
  | deleteUser id =>
    intro b hb
    exact (Table.byID_isSome_delete.mp (h b hb).1).2
  | deleteMountPointRow id =>
    intro b hb
    exact (Table.byID_isSome_delete.mp (h b hb).2).2
  | _ => trivial

end Database

/-! ## The pool -/

/-- The database and its open connections: for each, whether it has executed the pragma. -/
structure PoolState where
  db : Database
  conns : List Bool

/-- The pool opens or closes a connection, or a connection serves a call. -/
inductive PoolAction
  | connect
  | disconnect (i : ℕ)
  | call (i : ℕ) (c : ServiceCall)

/-- The pool opens or closes a connection, or runs a call of the service on one. -/
def PoolState.step (bc : Bcrypt) (s : PoolState) : PoolAction → Option PoolState
  -- the pool opens it as the driver makes it: no pragma
  | .connect => some { s with conns := s.conns ++ [false] }
  | .disconnect i => (s.conns[i]?).map fun _ => { s with conns := s.conns.eraseIdx i }
  | .call i c => (s.conns[i]?).map fun foreignKeys => { s with db := s.db.exec bc foreignKeys c }

/-- Calls in any order on any connection, from what `Open` leaves: one connection, which has
executed the pragma, on a database without dangling bindings. -/
def poolSystem (bc : Bcrypt) : System PoolState PoolAction where
  init s := s.conns = [true] ∧ s.db.Intact
  step s a := s.step bc a

/-- The condition on a step: a call that needs enforcement is served by a connection that has
executed the pragma. -/
def Enforced (s : PoolState) : PoolAction → Prop
  | .call i c => ∀ foreignKeys ∈ s.conns[i]?, foreignKeys = true ∨ s.db.Harmless c
  | _ => True

instance (s : PoolState) (a : PoolAction) : Decidable (Enforced s a) :=
  match a with
  | .call i c =>
    inferInstanceAs (Decidable (∀ foreignKeys ∈ s.conns[i]?, foreignKeys = true ∨ s.db.Harmless c))
  | .connect | .disconnect _ => .isTrue trivial

theorem PoolState.intact_step {bc : Bcrypt} {s s' : PoolState} {a : PoolAction}
    (hs : s.db.Intact) (hguard : Enforced s a) (hstep : s.step bc a = some s') : s'.db.Intact := by
  cases a with
  | connect =>
    obtain rfl := Option.some.inj hstep
    exact hs
  | disconnect i =>
    obtain ⟨-, -, rfl⟩ := Option.map_eq_some_iff.mp hstep
    exact hs
  | call i c =>
    obtain ⟨foreignKeys, hconn, rfl⟩ := Option.map_eq_some_iff.mp hstep
    exact (Database.exec_intact_iff hs c).mpr (hguard foreignKeys hconn)

/-- **Bindings never dangle**: in a run in which every call that needs enforcement is served by a
connection with the pragma, every binding refers to a user and a mountpoint that exist, and the
deletion of one leaves no binding of it. -/
theorem bindings_intact {bc : Bcrypt} {s : PoolState}
    (hr : ((poolSystem bc).restrict Enforced).Reachable s) :
    s.db.Intact ∧ ∀ i c s', ((poolSystem bc).restrict Enforced).step s (.call i c) = some s' →
      s'.db.Unbound c := by
  have hintact : ∀ t, ((poolSystem bc).restrict Enforced).Reachable t → t.db.Intact := fun t ht =>
    System.Reachable.restrict_invariant (I := fun t => t.db.Intact)
      (fun _ (h : _ = [true] ∧ _) => h.2)
      (fun _ _ _ _ h hguard hstep => PoolState.intact_step h hguard hstep) ht
  refine ⟨hintact s hr, fun i c s' hstep => ?_⟩
  have hs' := hintact s' (hr.step hstep)
  obtain ⟨-, hcall⟩ := System.restrict_step_iff.mp hstep
  obtain ⟨foreignKeys, -, rfl⟩ := Option.map_eq_some_iff.mp hcall
  exact Database.Intact.unbound hs'

/-- What `Open` leaves of a new file. -/
def freshPool : PoolState := ⟨⟨.empty, .empty, .empty⟩, [true]⟩

theorem freshPool_init (bc : Bcrypt) : (poolSystem bc).init freshPool := by
  refine ⟨rfl, ?_⟩
  rintro b ⟨⟩

/-- The user `u`, the mountpoint `M` and a binding of the two, made on the first connection. -/
def bindOne : List PoolAction :=
  [.call 0 (.createUser [] (ascii "u") (ascii "pw") roleRover),
    .call 0 (.createMountPointRow (ascii "M") [] (ascii "RTCM3")), .call 0 (.addBinding 1 1)]

/-- A second connection adds another binding and the first one deletes the user. -/
theorem bindings_intact_second_connection :
    ∃ s s', ((poolSystem plainBcrypt).restrict Enforced).run freshPool
        (bindOne ++ [.connect, .call 1 (.createMountPointRow (ascii "N") [] (ascii "RTCM3")),
          .call 1 (.addBinding 1 2)]) = some s ∧
      s.db.bindings.rows = [⟨1, 1, 1⟩, ⟨2, 1, 2⟩] ∧
      ((poolSystem plainBcrypt).restrict Enforced).step s (.call 0 (.deleteUser 1)) = some s' ∧
      s.db.Intact ∧ s'.db.Unbound (.deleteUser 1) := by
  obtain ⟨s, s', hrun, hrows, hstep⟩ : ∃ s s', ((poolSystem plainBcrypt).restrict Enforced).run
        freshPool
        (bindOne ++ [.connect, .call 1 (.createMountPointRow (ascii "N") [] (ascii "RTCM3")),
          .call 1 (.addBinding 1 2)]) = some s ∧
      s.db.bindings.rows = [⟨1, 1, 1⟩, ⟨2, 1, 2⟩] ∧
      ((poolSystem plainBcrypt).restrict Enforced).step s (.call 0 (.deleteUser 1)) = some s' :=
    ⟨_, _, rfl, rfl, rfl⟩
  have hs := bindings_intact (.of_run _ (freshPool_init plainBcrypt) hrun)
  exact ⟨s, s', hrun, hrows, hstep, hs.1, hs.2 0 _ s' hstep⟩

/-- A connection that the pool has opened later deletes the user and leaves the binding. -/
theorem bindings_dangling :
    ¬ ∀ (bc : Bcrypt) (s : PoolState), (poolSystem bc).Reachable s → s.db.Intact := by
  intro hall
  obtain ⟨s, hrun, hrows, husers⟩ : ∃ s, (poolSystem plainBcrypt).run freshPool
        (bindOne ++ [.connect, .call 1 (.deleteUser 1)]) = some s ∧
      s.db.bindings.rows = [⟨1, 1, 1⟩] ∧ s.db.users.rows = [] := ⟨_, rfl, rfl, rfl⟩
  have hs := hall plainBcrypt s (.of_run _ (freshPool_init plainBcrypt) hrun)
  have huser := (hs ⟨1, 1, 1⟩ (hrows ▸ List.mem_singleton_self _)).1
  obtain ⟨r, hr, -⟩ := Table.byID_isSome.mp huser
  rw [husers] at hr
  cases hr

end NtripCaster
