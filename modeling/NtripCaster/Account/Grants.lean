import Mathlib.Algebra.Order.Ring.Nat
import Mathlib.Data.List.Lex
import Mathlib.Data.Prod.Lex
import NtripCaster.Account.Bindings
import NtripCaster.Library.AccessMatrix
import NtripCaster.Library.Query

/-!
# Who may use which mountpoint

`ListBindings`, `ListBindingsByUser` and `HasBinding` of `internal/account/service.go` read the
bindings through joins with the two other tables. What they say is followed through all calls of the
service, on any connections of the pool.

## Main definitions

* `Binding`, `Database.listBindings`, `Database.listBindingsByUser`
* `Database.matrix`: the access matrix that the tables stand for
* `Database.accessCall`: a call of the service, by the names of what its ids stand for
* `Grounded`: the condition on a step

## Main results

* `Database.listBindings_exact`: the two listings and `HasBinding` say the same
* `Database.matrix_exec`: a call changes the matrix as its names say
* `access_follows`: so does every run, and access is never inherited
-/

namespace NtripCaster

open AccessControl Tables Transition

/-! ## The listings -/

/-- `account.Binding`. -/
structure Binding where
  id : ℤ
  userID : ℤ
  mountPointID : ℤ
  username : Bytes
  mountPointName : Bytes
  deriving DecidableEq, Repr

/-- What a text is ordered by: the collation `BINARY` compares bytes. -/
def collate (text : Bytes) : List ℕ := text.map UInt8.toNat

theorem collate_injective : Function.Injective collate :=
  List.map_injective_iff.mpr fun _ _ => UInt8.toNat_inj.mp

namespace Binding

variable (b : Binding)

/-- Who may use which mountpoint, by the names that the join finds. -/
def names : Bytes × Bytes := (b.username, b.mountPointName)

/-- The columns of `ORDER BY u.username, m.name`. -/
def order : List ℕ ×ₗ List ℕ := toLex (collate b.username, collate b.mountPointName)

end Binding

namespace Database

variable (db : Database)

/-- `FROM user_mountpoint_bindings b JOIN users u ON b.user_id = u.id JOIN mountpoints m ON
b.mountpoint_id = m.id`. -/
def joinedBindings : List Binding :=
  (join (join db.bindings.rows db.users.rows fun b u => b.userID == u.id) db.mountpoints.rows
    fun p m => p.1.mountPointID == m.id).map
    fun p => ⟨p.1.1.id, p.1.1.userID, p.1.1.mountPointID, p.1.2.username, p.2.name⟩

/-- `ListBindings`. -/
def listBindings : List Binding := orderBy Binding.order db.joinedBindings

/-- `ListBindingsByUser`. -/
def listBindingsByUser (userID : ℤ) : List Binding :=
  orderBy (fun b => collate b.mountPointName) (db.joinedBindings.filter (·.userID == userID))

variable {db}

theorem mem_joinedBindings {b : Binding} :
    b ∈ db.joinedBindings ↔ ⟨b.id, b.userID, b.mountPointID⟩ ∈ db.bindings.rows ∧
      (∃ u ∈ db.users.rows, u.id = b.userID ∧ u.username = b.username) ∧
      ∃ m ∈ db.mountpoints.rows, m.id = b.mountPointID ∧ m.name = b.mountPointName := by
  simp only [joinedBindings, List.mem_map, Prod.exists, mem_join, beq_iff_eq]
  constructor
  · rintro ⟨r, u, m, ⟨⟨hr, hu, huser⟩, hm, hmount⟩, rfl⟩
    exact ⟨hr, ⟨u, hu, huser.symm, rfl⟩, m, hm, hmount.symm, rfl⟩
  · rintro ⟨hr, ⟨u, hu, huser, hname⟩, m, hm, hmount, hname'⟩
    refine ⟨_, u, m, ⟨⟨hr, hu, huser.symm⟩, hm, hmount.symm⟩, ?_⟩
    rw [hname, hname']

theorem mem_listBindings {b : Binding} : b ∈ db.listBindings ↔ b ∈ db.joinedBindings :=
  orderBy_perm.mem_iff

/-- The joined rows are bindings of the table, each at most once. -/
theorem joinedBindings_ids :
    (db.joinedBindings.map fun b => (b.userID, b.mountPointID)).Sublist db.bindings.pairs := by
  have husers := map_fst_join_sublist db.users.id_nodup db.bindings.rows BindingRow.userID
  have hmounts := map_fst_join_sublist db.mountpoints.id_nodup
    (join db.bindings.rows db.users.rows fun b u => b.userID == u.id) fun p => p.1.mountPointID
  have hrows := (hmounts.map Prod.fst).trans husers
  have hpairs := hrows.map fun b => (b.userID, b.mountPointID)
  rw [List.map_map, List.map_map] at hpairs
  rw [joinedBindings, List.map_map]
  exact hpairs

/-- No name of a user stands twice beside that of a mountpoint. -/
theorem joinedBindings_names_nodup : (db.joinedBindings.map Binding.names).Nodup := by
  have hids : (db.joinedBindings.map fun b => (b.userID, b.mountPointID)).Nodup :=
    db.bindings.key_nodup.sublist joinedBindings_ids
  have hbinding : db.joinedBindings.Nodup := List.Nodup.of_map _ hids
  refine hbinding.map_on fun b hb b' hb' hnames => ?_
  obtain ⟨huser, hmount⟩ := Prod.mk.inj hnames
  obtain ⟨-, ⟨u, hu, hid, hname⟩, m, hm, hid', hname'⟩ := mem_joinedBindings.mp hb
  obtain ⟨-, ⟨u', hu', hid₂, hname₂⟩, m', hm', hid₂', hname₂'⟩ := mem_joinedBindings.mp hb'
  have heq : u = u' := List.inj_on_of_nodup_map db.users.key_nodup hu hu'
    (hname.trans (huser.trans hname₂.symm))
  have heq' : m = m' := Table.eq_of_key hm hm' (hname'.trans (hmount.trans hname₂'.symm))
  refine List.inj_on_of_nodup_map hids hb hb' ?_
  rw [← hid, ← hid', ← hid₂, ← hid₂', heq, heq']

theorem listBindings_names_nodup : (db.listBindings.map Binding.names).Nodup :=
  (orderBy_perm.map _).nodup_iff.mpr joinedBindings_names_nodup

theorem names_eq_iff_order {b b' : Binding} : b.order = b'.order ↔ b.names = b'.names := by
  simp only [Binding.order, Binding.names, EmbeddingLike.apply_eq_iff_eq, Prod.mk.injEq,
    collate_injective.eq_iff]

theorem joinedBindings_order_nodup : (db.joinedBindings.map Binding.order).Nodup := by
  have hnames : (db.joinedBindings.map Binding.names).Nodup := joinedBindings_names_nodup
  exact List.pairwise_map.mpr
    ((List.pairwise_map.mp hnames).imp fun hne heq => hne (names_eq_iff_order.mp heq))

/-- Rows of one user are of one user name. -/
theorem username_of_userID {b b' : Binding} (hb : b ∈ db.joinedBindings)
    (hb' : b' ∈ db.joinedBindings) (h : b.userID = b'.userID) : b.username = b'.username := by
  obtain ⟨-, ⟨u, hu, hid, hname⟩, -⟩ := mem_joinedBindings.mp hb
  obtain ⟨-, ⟨u', hu', hid', hname'⟩, -⟩ := mem_joinedBindings.mp hb'
  have heq : u = u' := List.inj_on_of_nodup_map db.users.id_nodup hu hu'
    (hid.trans (h.trans hid'.symm))
  rw [← hname, ← hname', heq]

/-- The listing of a user is that part of the whole one. -/
theorem listBindingsByUser_eq (userID : ℤ) :
    db.listBindingsByUser userID = db.listBindings.filter (·.userID == userID) := by
  refine (filter_orderBy joinedBindings_order_nodup fun b hb b' hb' hid hid' hlt => ?_).symm
  have huser := username_of_userID hb hb' ((beq_iff_eq.mp hid).trans (beq_iff_eq.mp hid').symm)
  rcases Prod.Lex.toLex_lt_toLex.mp hlt with hlt | ⟨-, hlt⟩
  · exact absurd (huser ▸ hlt) (lt_irrefl _)
  · exact hlt

/-! ## The access matrix -/

theorem hasBinding_eq_true {userID : ℤ} {name : Bytes} :
    db.newService.hasBinding noFault userID name = .ok true ↔
      ∃ m ∈ db.mountpoints.rows, m.name = name ∧ (userID, m.id) ∈ db.bindings.pairs := by
  have hcount : db.newService.hasBinding noFault userID name = .ok true ↔
      0 < db.newService.countBindings userID name := by
    rw [Service.hasBinding, if_neg (by simp [noFault]), Except.ok.injEq, decide_eq_true_iff]
  rw [hcount, Service.countBindings, List.length_pos_iff_exists_mem]
  simp only [List.mem_flatMap, List.mem_filter, Bool.and_eq_true, beq_iff_eq,
    BindingTable.pairs, List.mem_map, Prod.mk.injEq]
  constructor
  · rintro ⟨m, b, hb, hm, ⟨hid, huser⟩, hname⟩
    exact ⟨m, hm, hname, b, hb, huser, hid⟩
  · rintro ⟨m, hm, hname, b, hb, huser, hid⟩
    exact ⟨m, b, hb, hm, ⟨hid, huser⟩, hname⟩

variable (db)

/-- The names of the user and the mountpoint of a binding. -/
def granted : Set (Bytes × Bytes) :=
  {p | ∃ u ∈ db.users.rows, ∃ m ∈ db.mountpoints.rows,
    (u.id, m.id) ∈ db.bindings.pairs ∧ u.username = p.1 ∧ m.name = p.2}

theorem granted_known :
    db.granted ⊆ {name | ∃ u ∈ db.users.rows, u.username = name} ×ˢ
      {name | ∃ m ∈ db.mountpoints.rows, m.name = name} := by
  rintro p ⟨u, hu, m, hm, -, huser, hmount⟩
  exact ⟨⟨u, hu, huser⟩, m, hm, hmount⟩

/-- The access matrix that the tables stand for. -/
def matrix : AccessMatrix Bytes Bytes where
  subjects := {name | ∃ u ∈ db.users.rows, u.username = name}
  objects := {name | ∃ m ∈ db.mountpoints.rows, m.name = name}
  granted := db.granted
  known := db.granted_known

/-- The listings and `HasBinding` are read off one matrix: the listing has a row for each of its
grants and no other, in the order of the names; that of a user is its part of it; and `HasBinding`
answers by it. -/
structure Agrees (a : AccessMatrix Bytes Bytes) : Prop where
  nodup : (db.listBindings.map Binding.names).Nodup
  listed : ∀ p, p ∈ db.listBindings.map Binding.names ↔ p ∈ a.granted
  sorted : db.listBindings.Pairwise fun b b' => b.order < b'.order
  byUser : ∀ id, db.listBindingsByUser id = db.listBindings.filter (·.userID == id)
  hasBinding : ∀ u ∈ db.users.rows, ∀ name,
    db.newService.hasBinding noFault u.id name = .ok true ↔ (u.username, name) ∈ a.granted

variable {db}

theorem mem_names_iff {p : Bytes × Bytes} :
    p ∈ db.listBindings.map Binding.names ↔ p ∈ db.granted := by
  simp only [List.mem_map, mem_listBindings, mem_joinedBindings, granted, Set.mem_ofPred_eq,
    BindingTable.pairs, Binding.names]
  constructor
  · rintro ⟨b, ⟨hb, ⟨u, hu, hid, hname⟩, m, hm, hid', hname'⟩, rfl⟩
    exact ⟨u, hu, m, hm, ⟨_, hb, by rw [hid, hid']⟩, hname, hname'⟩
  · rintro ⟨u, hu, m, hm, ⟨b, hb, hpair⟩, hname, hname'⟩
    obtain ⟨hid, hid'⟩ := Prod.mk.inj hpair
    exact ⟨⟨b.id, b.userID, b.mountPointID, p.1, p.2⟩,
      ⟨hb, ⟨u, hu, hid.symm, hname⟩, m, hm, hid'.symm, hname'⟩, rfl⟩

theorem hasBinding_iff_granted {u : UserRow} (hu : u ∈ db.users.rows) {name : Bytes} :
    db.newService.hasBinding noFault u.id name = .ok true ↔ (u.username, name) ∈ db.granted := by
  rw [hasBinding_eq_true]
  constructor
  · rintro ⟨m, hm, hname, hpair⟩
    exact ⟨u, hu, m, hm, hpair, rfl, hname⟩
  · rintro ⟨u', hu', m, hm, hpair, huser, hname⟩
    obtain rfl := List.inj_on_of_nodup_map db.users.key_nodup hu' hu huser
    exact ⟨m, hm, hname, hpair⟩

/-- **The listings and `HasBinding` say the same.** -/
theorem agrees (db : Database) : db.Agrees db.matrix where
  nodup := listBindings_names_nodup
  listed _ := mem_names_iff
  sorted := pairwise_lt_orderBy joinedBindings_order_nodup
  byUser := listBindingsByUser_eq
  hasBinding _ hu _ := hasBinding_iff_granted hu

/-! ## Calls -/

/-- The names that a pair of ids stands for. -/
def namesOf (db : Database) (p : ℤ × ℤ) : Option (Bytes × Bytes) :=
  (db.users.byID p.1).bind fun u => (db.mountpoints.byID p.2).map fun m => (u.username, m.name)

/-- A call by the names of what its ids stand for; `none` if an id stands for nothing, or if the
password cannot be hashed. -/
def accessCall (bc : Bcrypt) (db : Database) : ServiceCall → Option (AccessCall Bytes Bytes)
  | .createUser salt username password _ =>
    (bc.generateFromPassword salt password).map fun _ => .addSubject username
  | .createMountPointRow name _ _ => some (.addObject name)
  | .deleteUser id => ((db.users.byID id).map UserRow.username).map .removeSubject
  | .deleteMountPointRow id => ((db.mountpoints.byID id).map MountPointRow.name).map .removeObject
  | .addBinding userID mountPointID =>
    (db.namesOf (userID, mountPointID)).map fun n => .grant n.1 n.2
  | .removeBinding id =>
    ((db.bindings.byID id).bind fun b => db.namesOf (b.userID, b.mountPointID)).map
      fun n => .revoke n.1 n.2

/-- No binding refers to an id that is not drawn yet. -/
def Drawn (db : Database) : Prop :=
  ∀ p ∈ db.bindings.pairs, p.1 ≤ db.users.seq ∧ p.2 ≤ db.mountpoints.seq

variable {bc : Bcrypt} {foreignKeys : Bool} {id : ℤ}

theorem HasParents.drawn {userID mountPointID : ℤ} (h : db.HasParents userID mountPointID) :
    userID ≤ db.users.seq ∧ mountPointID ≤ db.mountpoints.seq := by
  obtain ⟨u, hu, hid⟩ := Table.byID_isSome.mp h.1
  obtain ⟨m, hm, hid'⟩ := Table.byID_isSome.mp h.2
  exact ⟨hid ▸ db.users.id_le_seq u hu, hid' ▸ db.mountpoints.id_le_seq m hm⟩

theorem Intact.drawn (h : db.Intact) : db.Drawn := fun p hp => (intact_iff.mp h p hp).drawn

theorem createUser_cases (bc : Bcrypt) (db : Database) (salt username password role : Bytes) :
    (∃ e, db.createUser bc salt username password role = .error e ∧
        (bc.generateFromPassword salt password = none ∨
          ∃ u ∈ db.users.rows, u.username = username)) ∨
      ∃ users hash, bc.generateFromPassword salt password = some hash ∧
        db.createUser bc salt username password role = .ok { db with users := users } ∧
        users.seq = db.users.seq + 1 ∧
        users.rows = db.users.rows ++ [⟨db.users.seq + 1, username, hash, role, 1⟩] := by
  unfold createUser Service.createUser
  cases bc.generateFromPassword salt password with
  | none => exact .inl ⟨_, rfl, .inl rfl⟩
  | some hash =>
    have hinsert : db.newService.users = db.users := rfl
    rcases db.users.insert_cases username hash role with ⟨hnone, hu⟩ | ⟨users, hsome, hseq, hrows⟩
    · refine .inl ⟨.insertUser, ?_, .inr hu⟩
      simp only [hinsert, hnone]
    · refine .inr ⟨users, hash, rfl, ?_, hseq, hrows⟩
      simp only [hinsert, hsome]

/-- A matrix is known by its members. -/
theorem matrix_eq {a : AccessMatrix Bytes Bytes}
    (husers : ∀ name, (∃ u ∈ db.users.rows, u.username = name) ↔ name ∈ a.subjects)
    (hmounts : ∀ name, (∃ m ∈ db.mountpoints.rows, m.name = name) ↔ name ∈ a.objects)
    (hgranted : ∀ p, p ∈ db.granted ↔ p ∈ a.granted) : db.matrix = a :=
  AccessMatrix.ext (Set.ext husers) (Set.ext hmounts) (Set.ext hgranted)

/-- A new user has a new id, to which no binding refers. -/
theorem matrix_insertUser (hd : db.Drawn) {users : UserTable} {new : UserRow}
    (hrows : users.rows = db.users.rows ++ [new]) (hid : new.id = db.users.seq + 1) :
    { db with users := users }.matrix = db.matrix.exec (.addSubject new.username) := by
  refine matrix_eq (fun name => ?_) (fun name => Iff.rfl) fun p => ?_
  · simp only [hrows, List.mem_append, List.mem_singleton, or_and_right, exists_or,
      exists_eq_left]
    exact or_comm.trans (or_congr_left eq_comm)
  · constructor
    · rintro ⟨u, hu, m, hm, hpair, hnames⟩
      rcases List.mem_append.mp (hrows ▸ hu) with hu | hu
      · exact ⟨u, hu, m, hm, hpair, hnames⟩
      · have hle := (hd _ hpair).1
        rw [List.mem_singleton.mp hu, hid] at hle
        omega
    · rintro ⟨u, hu, m, hm, hpair, hnames⟩
      exact ⟨u, hrows ▸ List.mem_append_left _ hu, m, hm, hpair, hnames⟩

theorem matrix_insertMount (hd : db.Drawn) {mountpoints : MountPointTable} {new : MountPointRow}
    (hrows : ∀ m, m ∈ mountpoints.rows ↔ m ∈ db.mountpoints.rows ∨ m = new)
    (hid : new.id = db.mountpoints.seq + 1) :
    { db with mountpoints := mountpoints }.matrix = db.matrix.exec (.addObject new.name) := by
  refine matrix_eq (fun name => Iff.rfl) (fun name => ?_) fun p => ?_
  · simp only [hrows, or_and_right, exists_or, exists_eq_left]
    exact or_comm.trans (or_congr_left eq_comm)
  · constructor
    · rintro ⟨u, hu, m, hm, hpair, hnames⟩
      rcases (hrows m).mp hm with hm | rfl
      · exact ⟨u, hu, m, hm, hpair, hnames⟩
      · have hle := (hd _ hpair).2
        rw [hid] at hle
        omega
    · rintro ⟨u, hu, m, hm, hpair, hnames⟩
      exact ⟨u, hu, m, (hrows m).mpr (.inl hm), hpair, hnames⟩

/-- The cascade removes no binding that does not refer to the row. -/
theorem mem_pairs_cascade {found : Bool} {refers : BindingRow → Bool} {p : ℤ × ℤ}
    (hp : ∀ b : BindingRow, (b.userID, b.mountPointID) = p → refers b = false) :
    p ∈ (db.cascade foreignKeys found refers).pairs ↔ p ∈ db.bindings.pairs := by
  simp only [BindingTable.pairs, List.mem_map, mem_cascade]
  constructor
  · rintro ⟨b, ⟨hb, -⟩, hpair⟩
    exact ⟨b, hb, hpair⟩
  · rintro ⟨b, hb, hpair⟩
    refine ⟨b, ⟨hb, fun h => ?_⟩, hpair⟩
    exact absurd h.2.2 (Bool.eq_false_iff.mp (hp b hpair))

/-- Bindings of a deleted user may stay behind, but they stand for no access. -/
theorem matrix_deleteUser (id : ℤ) :
    (db.deleteUser foreignKeys id).matrix =
      db.matrix.run (((db.users.byID id).map UserRow.username).map .removeSubject).toList := by
  obtain ⟨hsubjects, hobjects, hgranted⟩ := db.matrix.mem_run_removeSubject
    (u := (db.users.byID id).map UserRow.username)
  have hrows : ∀ u, u ∈ (db.deleteUser foreignKeys id).users.rows ↔
      u ∈ db.users.rows ∧ (db.users.byID id).map UserRow.username ≠ some u.username := by
    intro u
    refine Table.mem_delete.trans (and_congr_right fun hu => ?_)
    exact ne_key_iff db.users.id_nodup db.users.key_nodup hu
  have hpairs : ∀ u ∈ (db.deleteUser foreignKeys id).users.rows, ∀ mountPointID,
      ((u.id, mountPointID) ∈ (db.deleteUser foreignKeys id).bindings.pairs ↔
        (u.id, mountPointID) ∈ db.bindings.pairs) := by
    intro u hu mountPointID
    refine mem_pairs_cascade fun b hb => beq_eq_false_iff_ne.mpr ?_
    rw [(Prod.mk.inj hb).1]
    exact (Table.mem_delete.mp hu).2
  refine matrix_eq (fun name => ?_) (fun name => ?_) fun p => ?_
  · rw [hsubjects]
    constructor
    · rintro ⟨u, hu, rfl⟩
      exact ⟨⟨u, ((hrows u).mp hu).1, rfl⟩, ((hrows u).mp hu).2⟩
    · rintro ⟨⟨u, hu, rfl⟩, hne⟩
      exact ⟨u, (hrows u).mpr ⟨hu, hne⟩, rfl⟩
  · rw [hobjects]
    exact Iff.rfl
  · rw [hgranted]
    constructor
    · rintro ⟨u, hu, m, hm, hpair, huser, hmount⟩
      obtain ⟨hu', hne⟩ := (hrows u).mp hu
      exact ⟨⟨u, hu', m, hm, (hpairs u hu m.id).mp hpair, huser, hmount⟩, huser ▸ hne⟩
    · rintro ⟨⟨u, hu, m, hm, hpair, huser, hmount⟩, hne⟩
      have hu' := (hrows u).mpr ⟨hu, huser ▸ hne⟩
      exact ⟨u, hu', m, hm, (hpairs u hu' m.id).mpr hpair, huser, hmount⟩

/-- The rows of its bindings go with a mountpoint, or stay behind and name nothing: either way its
column of the matrix is gone. -/
theorem matrix_deleteMountPointRow (id : ℤ) :
    (db.deleteMountPointRow foreignKeys id).matrix =
      db.matrix.run
        (((db.mountpoints.byID id).map MountPointRow.name).map .removeObject).toList := by
  obtain ⟨hsubjects, hobjects, hgranted⟩ := db.matrix.mem_run_removeObject
    (m := (db.mountpoints.byID id).map MountPointRow.name)
  have hrows : ∀ m, m ∈ (db.deleteMountPointRow foreignKeys id).mountpoints.rows ↔
      m ∈ db.mountpoints.rows ∧ (db.mountpoints.byID id).map MountPointRow.name ≠ some m.name := by
    intro m
    refine Table.mem_delete.trans (and_congr_right fun hm => ?_)
    exact ne_key_iff db.mountpoints.id_nodup db.mountpoints.key_nodup hm
  have hpairs : ∀ m ∈ (db.deleteMountPointRow foreignKeys id).mountpoints.rows, ∀ userID,
      ((userID, m.id) ∈ (db.deleteMountPointRow foreignKeys id).bindings.pairs ↔
        (userID, m.id) ∈ db.bindings.pairs) := by
    intro m hm userID
    refine mem_pairs_cascade fun b hb => beq_eq_false_iff_ne.mpr ?_
    rw [(Prod.mk.inj hb).2]
    exact (Table.mem_delete.mp hm).2
  refine matrix_eq (fun name => ?_) (fun name => ?_) fun p => ?_
  · rw [hsubjects]
    exact Iff.rfl
  · rw [hobjects]
    constructor
    · rintro ⟨m, hm, rfl⟩
      exact ⟨⟨m, ((hrows m).mp hm).1, rfl⟩, ((hrows m).mp hm).2⟩
    · rintro ⟨⟨m, hm, rfl⟩, hne⟩
      exact ⟨m, (hrows m).mpr ⟨hm, hne⟩, rfl⟩
  · rw [hgranted]
    constructor
    · rintro ⟨u, hu, m, hm, hpair, huser, hmount⟩
      obtain ⟨hm', hne⟩ := (hrows m).mp hm
      exact ⟨⟨u, hu, m, hm', (hpairs m hm u.id).mp hpair, huser, hmount⟩, hmount ▸ hne⟩
    · rintro ⟨⟨u, hu, m, hm, hpair, huser, hmount⟩, hne⟩
      have hm' := (hrows m).mpr ⟨hm, hmount ▸ hne⟩
      exact ⟨u, hu, m, hm', (hpairs m hm' u.id).mpr hpair, huser, hmount⟩

theorem namesOf_eq_some {p : ℤ × ℤ} {n : Bytes × Bytes} :
    db.namesOf p = some n ↔ ∃ u ∈ db.users.rows, ∃ m ∈ db.mountpoints.rows,
      (u.id, m.id) = p ∧ u.username = n.1 ∧ m.name = n.2 := by
  simp only [namesOf, Option.bind_eq_some_iff, Option.map_eq_some_iff, Table.byID_eq_some]
  constructor
  · rintro ⟨u, ⟨hu, hid⟩, m, ⟨hm, hid'⟩, rfl⟩
    exact ⟨u, hu, m, hm, Prod.ext hid hid', rfl, rfl⟩
  · rintro ⟨u, hu, m, hm, rfl, huser, hmount⟩
    exact ⟨u, ⟨hu, rfl⟩, m, ⟨hm, rfl⟩, Prod.ext huser hmount⟩

/-- The names tell the ids. -/
theorem namesOf_injective {p q : ℤ × ℤ} {n : Bytes × Bytes} (hp : db.namesOf p = some n)
    (hq : db.namesOf q = some n) : p = q := by
  obtain ⟨u, hu, m, hm, rfl, huser, hmount⟩ := namesOf_eq_some.mp hp
  obtain ⟨u', hu', m', hm', rfl, huser', hmount'⟩ := namesOf_eq_some.mp hq
  rw [List.inj_on_of_nodup_map db.users.key_nodup hu hu' (huser.trans huser'.symm),
    Table.eq_of_key hm hm' (hmount.trans hmount'.symm)]

theorem mem_granted {n : Bytes × Bytes} :
    n ∈ db.granted ↔ ∃ p ∈ db.bindings.pairs, db.namesOf p = some n := by
  simp only [namesOf_eq_some]
  constructor
  · rintro ⟨u, hu, m, hm, hpair, hnames⟩
    exact ⟨_, hpair, u, hu, m, hm, rfl, hnames⟩
  · rintro ⟨p, hp, u, hu, m, hm, rfl, hnames⟩
    exact ⟨u, hu, m, hm, hp, hnames⟩

/-- What an id stands for is there. -/
theorem namesOf_known {p : ℤ × ℤ} {n : Bytes × Bytes} (h : db.namesOf p = some n) :
    n ∈ db.matrix.subjects ×ˢ db.matrix.objects := by
  obtain ⟨u, hu, m, hm, -, huser, hmount⟩ := namesOf_eq_some.mp h
  exact ⟨⟨u, hu, huser⟩, m, hm, hmount⟩

theorem matrix_addPair {bindings : BindingTable} {q : ℤ × ℤ}
    (hpairs : ∀ p, p ∈ bindings.pairs ↔ p ∈ db.bindings.pairs ∨ p = q) :
    { db with bindings := bindings }.matrix =
      db.matrix.run ((db.namesOf q).map fun n => .grant n.1 n.2).toList := by
  obtain ⟨hsubjects, hobjects, hgranted⟩ := db.matrix.mem_run_grant (q := db.namesOf q)
  refine matrix_eq (fun name => ?_) (fun name => ?_) fun n => ?_
  · rw [hsubjects]
    exact Iff.rfl
  · rw [hobjects]
    exact Iff.rfl
  · rw [hgranted, and_iff_left_of_imp namesOf_known, mem_granted]
    constructor
    · rintro ⟨p, hp, hn⟩
      rcases (hpairs p).mp hp with hp | rfl
      · exact .inl (mem_granted.mpr ⟨p, hp, hn⟩)
      · exact .inr hn
    · rintro (hn | hn)
      · obtain ⟨p, hp, hn⟩ := mem_granted.mp hn
        exact ⟨p, (hpairs p).mpr (.inl hp), hn⟩
      · exact ⟨q, (hpairs q).mpr (.inr rfl), hn⟩

theorem mem_pairs_delete {p : ℤ × ℤ} :
    p ∈ (BindingTable.pairs (db.bindings.delete id)) ↔ p ∈ db.bindings.pairs ∧
      (db.bindings.byID id).map (fun b => (b.userID, b.mountPointID)) ≠ some p := by
  simp only [BindingTable.pairs, List.mem_map, Table.mem_delete]
  constructor
  · rintro ⟨b, ⟨hb, hid⟩, rfl⟩
    exact ⟨⟨b, hb, rfl⟩, (ne_key_iff db.bindings.id_nodup db.bindings.key_nodup hb).mp hid⟩
  · rintro ⟨⟨b, hb, rfl⟩, hne⟩
    exact ⟨b, ⟨hb, (ne_key_iff db.bindings.id_nodup db.bindings.key_nodup hb).mpr hne⟩, rfl⟩

theorem matrix_removeBinding (id : ℤ) :
    (db.removeBinding id).matrix =
      db.matrix.run (((db.bindings.byID id).bind fun b =>
        db.namesOf (b.userID, b.mountPointID)).map fun n => .revoke n.1 n.2).toList := by
  obtain ⟨hsubjects, hobjects, hgranted⟩ := db.matrix.mem_run_revoke
    (q := (db.bindings.byID id).bind fun b => db.namesOf (b.userID, b.mountPointID))
  refine matrix_eq (fun name => ?_) (fun name => ?_) fun n => ?_
  · rw [hsubjects]
    exact Iff.rfl
  · rw [hobjects]
    exact Iff.rfl
  · rw [hgranted, mem_granted]
    have hmem : n ∈ db.matrix.granted ↔ n ∈ db.granted := Iff.rfl
    rw [hmem, mem_granted]
    constructor
    · rintro ⟨p, hp, hn⟩
      obtain ⟨hp, hne⟩ := mem_pairs_delete.mp hp
      refine ⟨⟨p, hp, hn⟩, fun hrow => hne ?_⟩
      obtain ⟨b, hb, hn'⟩ := Option.bind_eq_some_iff.mp hrow
      rw [hb, namesOf_injective hn hn']
      rfl
    · rintro ⟨⟨p, hp, hn⟩, hne⟩
      refine ⟨p, mem_pairs_delete.mpr ⟨hp, fun hrow => hne ?_⟩, hn⟩
      obtain ⟨b, hb, rfl⟩ := Option.map_eq_some_iff.mp hrow
      exact Option.bind_eq_some_iff.mpr ⟨b, hb, hn⟩

/-- **A call changes the matrix as its names say**, on any connection. -/
theorem matrix_exec (hd : db.Drawn) (c : ServiceCall) :
    (db.exec bc foreignKeys c).matrix = db.matrix.run (db.accessCall bc c).toList := by
  cases c with
  | createUser salt username password role =>
    rcases createUser_cases bc db salt username password role with
      ⟨e, hcall, hwhy⟩ | ⟨users, hash, hhash, hcall, -, hrows⟩
    · have hexec : db.exec bc foreignKeys (.createUser salt username password role) = db :=
        exec_of_error hcall
      rw [hexec, accessCall]
      rcases hwhy with hhash | hu
      · rw [hhash]
        rfl
      · cases bc.generateFromPassword salt password with
        | none => rfl
        | some hash => exact (AccessMatrix.exec_addSubject_of_mem hu).symm
    · have hexec : db.exec bc foreignKeys (.createUser salt username password role) =
          { db with users := users } := exec_of_ok hcall
      rw [hexec, accessCall, hhash]
      exact matrix_insertUser hd hrows rfl
  | createMountPointRow name description format =>
    cases hcreate : db.mountpoints.create name description format with
    | none =>
      have hcall : db.call bc foreignKeys (.createMountPointRow name description format) =
          .error .insertMountpoint := by
        rw [call, createMountPointRow, hcreate]
      rw [exec_of_error hcall]
      exact (AccessMatrix.exec_addObject_of_mem (Table.mem_of_insert_eq_none hcreate)).symm
    | some result =>
      have hcall : db.call bc foreignKeys (.createMountPointRow name description format) =
          .ok { db with mountpoints := result.1 } := by
        rw [call, createMountPointRow, hcreate]
      rw [exec_of_ok hcall]
      have hrows : ∀ m, m ∈ result.1.rows ↔
          m ∈ db.mountpoints.rows ∨ m = .new name description format result.2 := fun m =>
        (Table.puts_insert hcreate m).trans
          (or_congr_left (and_iff_left_of_imp fun hm => (Table.ne_of_insert hcreate hm).1))
      exact matrix_insertMount hd hrows (Table.id_of_insert hcreate)
  | deleteUser id => exact matrix_deleteUser id
  | deleteMountPointRow id => exact matrix_deleteMountPointRow id
  | addBinding userID mountPointID =>
    have hcall : db.call bc foreignKeys (.addBinding userID mountPointID) =
        db.addBinding foreignKeys userID mountPointID := rfl
    rw [addBinding] at hcall
    split at hcall
    next hrefused =>
      obtain ⟨hallowed, -⟩ := BindingTable.insertOrIgnore_eq_none_iff.mp hrefused
      have hnames : db.namesOf (userID, mountPointID) = none := by
        refine Option.eq_none_iff_forall_ne_some.mpr fun n hn => ?_
        obtain ⟨u, hu, m, hm, hpair, -⟩ := namesOf_eq_some.mp hn
        obtain ⟨rfl, rfl⟩ := Prod.mk.inj hpair
        have hparents : db.HasParents u.id m.id :=
          ⟨Table.byID_isSome.mpr ⟨u, hu, rfl⟩, Table.byID_isSome.mpr ⟨m, hm, rfl⟩⟩
        rw [decide_eq_true hparents, Bool.or_true] at hallowed
        cases hallowed
      rw [exec_of_error hcall, accessCall, hnames]
      rfl
    next bindings hinsert =>
      rw [exec_of_ok hcall]
      exact matrix_addPair fun p => BindingTable.mem_pairs_insertOrIgnore hinsert
  | removeBinding id => exact matrix_removeBinding id

/-! ## Runs -/

/-- What `AddBinding` may name on a connection without the pragma: ids that have been drawn. -/
def Grounds (db : Database) : ServiceCall → Prop
  | .addBinding userID mountPointID =>
    userID ≤ db.users.seq ∧ mountPointID ≤ db.mountpoints.seq
  | _ => True

instance (db : Database) (c : ServiceCall) : Decidable (db.Grounds c) :=
  match c with
  | .addBinding userID mountPointID =>
    inferInstanceAs (Decidable (userID ≤ db.users.seq ∧ mountPointID ≤ db.mountpoints.seq))
  | .createUser .. | .createMountPointRow .. | .deleteUser _ | .deleteMountPointRow _
  | .removeBinding _ => .isTrue trivial

theorem Drawn.mono (hd : db.Drawn) {db' : Database}
    (hpairs : db'.bindings.pairs ⊆ db.bindings.pairs) (husers : db.users.seq ≤ db'.users.seq)
    (hmounts : db.mountpoints.seq ≤ db'.mountpoints.seq) : db'.Drawn := fun p hp =>
  ⟨(hd p (hpairs hp)).1.trans husers, (hd p (hpairs hp)).2.trans hmounts⟩

theorem pairs_subset {bindings : BindingTable}
    (h : ∀ b ∈ bindings.rows, b ∈ db.bindings.rows) : bindings.pairs ⊆ db.bindings.pairs :=
  List.map_subset _ h

theorem pairs_cascade_subset {found : Bool} {refers : BindingRow → Bool} :
    (db.cascade foreignKeys found refers).pairs ⊆ db.bindings.pairs :=
  pairs_subset fun _ hb => (mem_cascade.mp hb).1

/-- A call binds rows that exist, and an `AUTOINCREMENT` key is never drawn again. -/
theorem Drawn.exec (hd : db.Drawn) {c : ServiceCall} (hc : foreignKeys = true ∨ db.Grounds c) :
    (db.exec bc foreignKeys c).Drawn := by
  cases c with
  | createUser salt username password role =>
    rcases createUser_cases bc db salt username password role with
      ⟨e, hcall, -⟩ | ⟨users, hash, -, hcall, hseq, -⟩
    · have hexec : db.exec bc foreignKeys (.createUser salt username password role) = db :=
        exec_of_error hcall
      rw [hexec]
      exact hd
    · have hexec : db.exec bc foreignKeys (.createUser salt username password role) =
          { db with users := users } := exec_of_ok hcall
      rw [hexec]
      exact hd.mono (List.Subset.refl _) (by simp only [hseq]; omega) le_rfl
  | createMountPointRow name description format =>
    cases hcreate : db.mountpoints.create name description format with
    | none =>
      have hcall : db.call bc foreignKeys (.createMountPointRow name description format) =
          .error .insertMountpoint := by
        rw [call, createMountPointRow, hcreate]
      exact (exec_of_error hcall).symm ▸ hd
    | some result =>
      have hcall : db.call bc foreignKeys (.createMountPointRow name description format) =
          .ok { db with mountpoints := result.1 } := by
        rw [call, createMountPointRow, hcreate]
      have hseq := Table.seq_of_insert hcreate
      have hid := Table.id_of_insert hcreate
      rw [exec_of_ok hcall]
      exact hd.mono (List.Subset.refl _) le_rfl (by simp only [hseq, hid]; omega)
  | deleteUser id => exact hd.mono pairs_cascade_subset le_rfl le_rfl
  | deleteMountPointRow id => exact hd.mono pairs_cascade_subset le_rfl le_rfl
  | addBinding userID mountPointID =>
    have hcall : db.call bc foreignKeys (.addBinding userID mountPointID) =
        db.addBinding foreignKeys userID mountPointID := rfl
    rw [addBinding] at hcall
    split at hcall
    next hrefused => exact (exec_of_error hcall).symm ▸ hd
    next bindings hinsert =>
      rw [exec_of_ok hcall]
      intro p hp
      by_cases hmem : p ∈ db.bindings.pairs
      · exact hd p hmem
      obtain rfl := ((BindingTable.mem_pairs_insertOrIgnore hinsert).mp hp).resolve_left hmem
      rcases hc with rfl | hc
      · -- an enforcing connection refuses a new pair without its parents
        have hallowed : ¬ db.HasParents userID mountPointID →
            (!true || decide (db.HasParents userID mountPointID)) = false := by simp
        have hparents : db.HasParents userID mountPointID := by
          by_contra hnot
          have hnone := BindingTable.insertOrIgnore_eq_none_iff.mpr
            ⟨hallowed hnot, hmem⟩
          cases hinsert.symm.trans hnone
        exact hparents.drawn
      · exact hc
  | removeBinding id =>
    exact hd.mono (pairs_subset fun _ hb => (Table.mem_delete.mp hb).1) le_rfl le_rfl

end Database

namespace PoolState

/-- What an action changes, by names. -/
def accessCalls (bc : Bcrypt) (s : PoolState) : PoolAction → List (AccessCall Bytes Bytes)
  | .call _ c => (s.db.accessCall bc c).toList
  | _ => []

/-- What the actions of a run change, by the names at the time. -/
def trace (bc : Bcrypt) (s : PoolState) : List PoolAction → List (AccessCall Bytes Bytes)
  | [] => []
  | a :: as => s.accessCalls bc a ++ ((s.step bc a).elim [] fun s' => s'.trace bc as)

end PoolState

/-- The condition on a step: an `AddBinding` on a connection without the pragma names no id that is
not drawn yet. -/
def Grounded (s : PoolState) : PoolAction → Prop
  | .call i c => ∀ foreignKeys ∈ s.conns[i]?, foreignKeys = true ∨ s.db.Grounds c
  | _ => True

instance (s : PoolState) (a : PoolAction) : Decidable (Grounded s a) :=
  match a with
  | .call i c =>
    inferInstanceAs (Decidable (∀ foreignKeys ∈ s.conns[i]?, foreignKeys = true ∨ s.db.Grounds c))
  | .connect | .disconnect _ => .isTrue trivial

namespace PoolState

variable {bc : Bcrypt} {s s' : PoolState} {a : PoolAction}

theorem matrix_step (hd : s.db.Drawn) (hguard : Grounded s a) (hstep : s.step bc a = some s') :
    s'.db.Drawn ∧ s'.db.matrix = s.db.matrix.run (s.accessCalls bc a) := by
  cases a with
  | connect =>
    obtain rfl := Option.some.inj hstep
    exact ⟨hd, rfl⟩
  | disconnect i =>
    obtain ⟨-, -, rfl⟩ := Option.map_eq_some_iff.mp hstep
    exact ⟨hd, rfl⟩
  | call i c =>
    obtain ⟨foreignKeys, hconn, rfl⟩ := Option.map_eq_some_iff.mp hstep
    exact ⟨hd.exec (hguard foreignKeys hconn), Database.matrix_exec hd c⟩

theorem matrix_run {as : List PoolAction} (hd : s.db.Drawn)
    (hrun : ((poolSystem bc).restrict Grounded).run s as = some s') :
    s'.db.matrix = s.db.matrix.run (s.trace bc as) := by
  induction as generalizing s with
  | nil =>
    obtain rfl := Option.some.inj hrun
    rfl
  | cons a as ih =>
    obtain ⟨t, hstep, hrest⟩ := Option.bind_eq_some_iff.mp hrun
    obtain ⟨hguard, hstep⟩ := System.restrict_step_iff.mp hstep
    obtain ⟨ht, hmatrix⟩ := matrix_step hd hguard hstep
    have hstep' : s.step bc a = some t := hstep
    rw [ih ht hrest, hmatrix, trace, hstep', ← AccessMatrix.run_append]
    rfl

end PoolState

/-- **Access follows the calls.** In a run of calls on any connections, in which no `AddBinding`
that is served without the pragma names an id that is not drawn yet, the bindings and `HasBinding`
are at the end those of the access matrix after the same calls, read by the names that their ids
stood for. So what is listed goes back to an `AddBinding`, or was there before, and nothing has
ended it since: a user or a mountpoint that is created under an old name inherits nothing. -/
theorem access_follows {bc : Bcrypt} {s₀ s : PoolState} {as : List PoolAction}
    (h₀ : (poolSystem bc).init s₀)
    (hrun : ((poolSystem bc).restrict Grounded).run s₀ as = some s) :
    s.db.Agrees (s₀.db.matrix.run (s₀.trace bc as)) ∧
      ∀ p ∈ s.db.listBindings.map Binding.names,
        (p ∈ s₀.db.listBindings.map Binding.names ∧ ∀ c ∈ s₀.trace bc as, ¬ c.Ends p) ∨
          ∃ before after, s₀.trace bc as = before ++ .grant p.1 p.2 :: after ∧
            ∀ c ∈ after, ¬ c.Ends p := by
  have hmatrix := PoolState.matrix_run h₀.2.drawn hrun
  have hagrees : s.db.Agrees (s₀.db.matrix.run (s₀.trace bc as)) := hmatrix ▸ s.db.agrees
  refine ⟨hagrees, fun p hp => ?_⟩
  rcases AccessMatrix.mem_granted_run.mp ((hagrees.listed p).mp hp) with
    ⟨hp, hends⟩ | ⟨before, after, hsplit, -, hafter⟩
  · exact .inl ⟨(s₀.db.agrees.listed p).mpr hp, hends⟩
  · exact .inr ⟨before, after, hsplit, hafter⟩

/-- A second connection deletes the user and leaves the binding; a user of the same name comes. -/
def reborn : List PoolAction :=
  bindOne ++ [.connect, .call 1 (.deleteUser 1),
    .call 1 (.createUser [] (ascii "u") (ascii "pw") roleRover)]

theorem access_follows_reborn :
    ∃ s, ((poolSystem plainBcrypt).restrict Grounded).run freshPool reborn = some s ∧
      s.db.bindings.rows = [⟨1, 1, 1⟩] ∧ s.db.users.rows.map UserRow.id = [2] ∧
      s.db.listBindings = [] ∧
      s.db.Agrees (freshPool.db.matrix.run (freshPool.trace plainBcrypt reborn)) ∧
      ∀ p ∈ s.db.listBindings.map Binding.names,
        (p ∈ freshPool.db.listBindings.map Binding.names ∧
          ∀ c ∈ freshPool.trace plainBcrypt reborn, ¬ c.Ends p) ∨
          ∃ before after, freshPool.trace plainBcrypt reborn = before ++ .grant p.1 p.2 :: after ∧
            ∀ c ∈ after, ¬ c.Ends p := by
  obtain ⟨s, hrun, hbindings, husers, hlist⟩ :
      ∃ s, ((poolSystem plainBcrypt).restrict Grounded).run freshPool reborn = some s ∧
        s.db.bindings.rows = [⟨1, 1, 1⟩] ∧ s.db.users.rows.map UserRow.id = [2] ∧
        s.db.listBindings = [] := ⟨_, rfl, rfl, rfl, rfl⟩
  exact ⟨s, hrun, hbindings, husers, hlist, access_follows (freshPool_init plainBcrypt) hrun⟩

/-- Without the pragma an `AddBinding` may be ahead of its user, who then has access at once. -/
theorem access_ahead :
    ∃ s, (poolSystem plainBcrypt).run freshPool
        [.call 0 (.createMountPointRow (ascii "M") [] (ascii "RTCM3")), .connect,
          .call 1 (.addBinding 1 1), .call 0 (.createUser [] (ascii "u") (ascii "pw") roleRover)] =
        some s ∧
      s.db.listBindings.map Binding.names = [(ascii "u", ascii "M")] :=
  ⟨_, rfl, rfl⟩

end NtripCaster
