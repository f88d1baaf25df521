import Mathlib.Data.List.Dedup
import NtripCaster.Account.Bindings
import NtripCaster.Library.Script

/-!
# Opening a database

`Open` of `internal/database/database.go` on the file it finds: it creates the tables that are
missing and then migrates old ones, one statement after the other, each of which is committed on
its own. The pragmas, which leave the tables as they are, and queries that fail are left out.

## Main definitions

* `DatabaseFile`: the tables of a file, of any version of the schema
* `SchemaStatement`, `SchemaStatement.exec`: the statements of `Open`
* `openStages`: `Open`, as a script
* `LegacyFile`: a file of an earlier version
* `DatabaseFile.stopAt`, `DatabaseFile.stopAll`: what is left by runs of `Open` that stop
* `SafeAfter`, `SafeStop`, `SafeStops`: the condition on the places where they stop

## Main results

* `Tracked.stopAt`: what one run of `Open` does, wherever it stops
* `open_after_stops_iff`: when the next `Open` that succeeds finds everything
* `open_after_drop`: a stop that loses the bindings
-/

namespace NtripCaster

open Script

/-! ## Files -/

/-- The columns of `mountpoints` that not every version of the schema has. -/
inductive MountPointColumn
  | maxClients
  | antennaLat
  | antennaLon
  | antennaHeight
  | antennaUpdatedAt
  deriving DecidableEq, Repr

/-- A value in such a column; a `REAL` by its bits. -/
inductive ColumnValue
  | null
  | integer (n : ℤ)
  | real (bits : BitVec 64)
  deriving DecidableEq, Repr

/-- The default of the column, which the rows that are there get. -/
def MountPointColumn.default : MountPointColumn → ColumnValue
  | maxClients => .integer 0
  | _ => .null

/-- A row of `mountpoints`, with the values of the added columns in their order. -/
structure StoredMountPoint where
  id : ℤ
  name : Bytes
  description : Bytes
  enabled : ℤ
  format : Bytes
  sourceAuthMode : Bytes
  sourceSecretHash : Option Bytes
  writeQueue : Option ℤ
  writeTimeoutMs : Option ℤ
  added : List ColumnValue
  deriving DecidableEq, Repr

/-- The `mountpoints` table of a file. -/
structure MountPointFile where
  columns : List MountPointColumn
  rows : List StoredMountPoint
  deriving DecidableEq, Repr

namespace MountPointFile

variable (t : MountPointFile)

/-- The table with more columns, at their defaults. -/
def withColumns (cs : List MountPointColumn) : MountPointFile where
  columns := t.columns ++ cs
  rows := t.rows.map fun r => { r with added := r.added ++ cs.map MountPointColumn.default }

/-- `ALTER TABLE mountpoints ADD COLUMN`: fails if the column is there. -/
def addColumn (c : MountPointColumn) : Option MountPointFile :=
  if c ∈ t.columns then none else some (t.withColumns [c])

theorem withColumns_nil : t.withColumns [] = t := by
  simp [withColumns]

theorem withColumns_append (cs ds : List MountPointColumn) :
    t.withColumns (cs ++ ds) = (t.withColumns cs).withColumns ds := by
  simp [withColumns, Function.comp_def]

end MountPointFile

/-- The `user_mountpoint_bindings` table of a file: an old one has a `permission` column. -/
inductive BindingFile
  | legacy (rows : List (BindingRow × Bytes))
  | current (t : BindingTable)

/-- The pairs of ids that are bound. -/
def BindingFile.pairs : BindingFile → List (ℤ × ℤ)
  | legacy rows => rows.map fun r => (r.1.userID, r.1.mountPointID)
  | current t => t.pairs

/-- A file: the tables it has, among them the one that a migration works on. -/
structure DatabaseFile where
  users : Option UserTable
  mountpoints : Option MountPointFile
  bindings : Option BindingFile
  bindingsNew : Option BindingTable

namespace DatabaseFile

variable (f : DatabaseFile)

/-- `SELECT COUNT(*) FROM pragma_table_info('user_mountpoint_bindings')
WHERE name = 'permission'`. -/
def hasPermission : Bool :=
  match f.bindings with
  | some (.legacy _) => true
  | _ => false

/-- `SELECT COUNT(*) FROM pragma_table_info('mountpoints') WHERE name = …`. -/
def hasColumn (c : MountPointColumn) : Bool :=
  match f.mountpoints with
  | some t => decide (c ∈ t.columns)
  | none => false

/-- The pairs that are bound; none without the table. -/
def pairs : List (ℤ × ℤ) := f.bindings.elim [] BindingFile.pairs

/-- The foreign keys of a binding. -/
def allows (p : ℤ × ℤ) : Bool :=
  match f.users, f.mountpoints with
  | some users, some mountpoints =>
    (users.byID p.1).isSome && decide (p.2 ∈ mountpoints.rows.map StoredMountPoint.id)
  | _, _ => false

end DatabaseFile

/-! ## Statements -/

/-- The statements of `Open`. -/
inductive SchemaStatement
  | createUsers
  | createMountpoints
  | createBindings
  | createBindingsNew
  | copyBindings
  | dropBindings
  | renameBindingsNew
  | addColumn (c : MountPointColumn)
  deriving DecidableEq, Repr

/-- The rows of a `SELECT DISTINCT`, put into a table that ignores pairs it has. -/
def copyInto (allows : ℤ × ℤ → Bool) : List (ℤ × ℤ) → BindingTable → Option BindingTable
  | [], t => some t
  | p :: ps, t => (t.insertOrIgnore (allows p) p.1 p.2).bind (copyInto allows ps)

namespace SchemaStatement

/-- The file after a statement, unless it fails. -/
def exec : SchemaStatement → DatabaseFile → Option DatabaseFile
  -- CREATE TABLE IF NOT EXISTS; a new mountpoints table has no antenna columns yet
  | createUsers, f => some { f with users := some (f.users.getD .empty) }
  | createMountpoints, f =>
    some { f with mountpoints := some (f.mountpoints.getD ⟨[.maxClients], []⟩) }
  | createBindings, f => some { f with bindings := some (f.bindings.getD (.current .empty)) }
  | createBindingsNew, f => some { f with bindingsNew := some (f.bindingsNew.getD .empty) }
  -- INSERT OR IGNORE INTO _bindings_new (…) SELECT DISTINCT … FROM user_mountpoint_bindings
  | copyBindings, f =>
    match f.bindings, f.bindingsNew with
    | some b, some t =>
      (copyInto f.allows b.pairs.dedup t).map fun t => { f with bindingsNew := some t }
    | _, _ => none
  | dropBindings, f => f.bindings.map fun _ => { f with bindings := none }
  | renameBindingsNew, f =>
    match f.bindings, f.bindingsNew with
    | none, some t => some { f with bindings := some (.current t), bindingsNew := none }
    | _, _ => none
  | addColumn c, f =>
    (f.mountpoints.bind fun t => t.addColumn c).map fun t => { f with mountpoints := some t }

end SchemaStatement

/-! ## The script -/

/-- `db.Exec(schema)`. -/
def createSchema : Stage DatabaseFile SchemaStatement where
  guard _ := true
  statements := [.createUsers, .createMountpoints, .createBindings]

/-- `migrateBindings`. -/
def migrateBindings : Stage DatabaseFile SchemaStatement where
  guard f := f.hasPermission
  statements := [.createBindingsNew, .copyBindings, .dropBindings, .renameBindingsNew]

/-- `migrateMountpointMaxClients`. -/
def migrateMountpointMaxClients : Stage DatabaseFile SchemaStatement where
  guard f := !f.hasColumn .maxClients
  statements := [.addColumn .maxClients]

/-- The columns that `migrateAntennaPosition` adds, if the first of them is missing. -/
def antennaColumns : List MountPointColumn :=
  [.antennaLat, .antennaLon, .antennaHeight, .antennaUpdatedAt]

/-- `migrateAntennaPosition`. -/
def migrateAntennaPosition : Stage DatabaseFile SchemaStatement where
  guard f := !f.hasColumn .antennaLat
  statements := antennaColumns.map .addColumn

/-- `Open`. -/
def openStages : List (Stage DatabaseFile SchemaStatement) :=
  [createSchema, migrateBindings, migrateMountpointMaxClients, migrateAntennaPosition]

/-- A place between two statements in the text of `Open`. -/
structure StopPoint where
  stage : ℕ
  statements : ℕ
  deriving DecidableEq, Repr

namespace DatabaseFile

variable (f : DatabaseFile)

/-- `Open`: the file it leaves, or `none` if it returns an error. -/
def openFile : Option DatabaseFile := runAll SchemaStatement.exec openStages f

/-- The file that `Open` leaves if the process stops at `p`. -/
def stopAt (p : StopPoint) : Option DatabaseFile :=
  runAll SchemaStatement.exec (Script.cut p.stage p.statements openStages) f

/-- The file after one process after the other has stopped. -/
def stopAll : List StopPoint → DatabaseFile → Option DatabaseFile
  | [], f => some f
  | p :: ps, f => (f.stopAt p).bind (stopAll ps)

end DatabaseFile

/-! ## What has to survive -/

/-- A file of an earlier version: its bindings respect the foreign keys, and it has all antenna
columns or none. -/
structure LegacyFile where
  users : UserTable
  mountpoints : MountPointFile
  bindings : BindingFile
  allowed : ∀ p ∈ bindings.pairs, (users.byID p.1).isSome = true ∧
    p.2 ∈ mountpoints.rows.map StoredMountPoint.id
  antenna : (∀ c ∈ antennaColumns, c ∈ mountpoints.columns) ∨
    ∀ c ∈ antennaColumns, c ∉ mountpoints.columns

/-- The file before the first `Open`. -/
def LegacyFile.file (l : LegacyFile) : DatabaseFile :=
  ⟨some l.users, some l.mountpoints, some l.bindings, none⟩

/-- The file has the current schema and what the legacy file had: its users, its mountpoints with
more columns, and its bindings. -/
structure LegacyFile.Restored (l : LegacyFile) (f : DatabaseFile) : Prop where
  users : f.users = some l.users
  mountpoints : ∃ cs, f.mountpoints = some (l.mountpoints.withColumns cs) ∧
    ∀ c, c ∈ (l.mountpoints.withColumns cs).columns
  bindings : ∃ t, f.bindings = some (.current t) ∧ ∀ p, p ∈ t.pairs ↔ p ∈ l.bindings.pairs

/-- The process may stop after this statement of a run of `Open` that starts on `f`: it has not
dropped bindings, and it has not added a part of the antenna columns. -/
def SafeAfter (f : DatabaseFile) : SchemaStatement → Prop
  | .dropBindings => f.hasPermission = true → f.pairs = []
  | .addColumn .antennaLat | .addColumn .antennaLon | .addColumn .antennaHeight =>
    f.hasColumn .antennaLat = true
  | _ => True

/-- The statement before a place in the text of `Open`. -/
def StopPoint.last (p : StopPoint) : Option SchemaStatement :=
  (openStages[p.stage]?).bind fun stage => (stage.take p.statements).statements.getLast?

/-- A run of `Open` that starts on `f` may stop at `p`. -/
def SafeStop (f : DatabaseFile) (p : StopPoint) : Prop := ∀ i ∈ p.last, SafeAfter f i

/-- Each of the runs that stop may stop where it does. -/
def SafeStops : List StopPoint → DatabaseFile → Prop
  | [], _ => True
  | p :: ps, f => SafeStop f p ∧ ∀ f' ∈ f.stopAt p, SafeStops ps f'

/-! ## What a stopped run leaves -/

/-- What holds of the file at every place: the antenna columns come with the first of them, and the
bindings are there or are gone for good. -/
structure Tracked (l : LegacyFile) (f : DatabaseFile) : Prop where
  users : f.users = some l.users
  mountpoints : ∃ cs, f.mountpoints = some (l.mountpoints.withColumns cs)
  antenna : ∀ c ∈ antennaColumns, f.hasColumn c = true → f.hasColumn .antennaLat = true
  pairs : (∀ p, p ∈ f.pairs ↔ p ∈ l.bindings.pairs) ∨ f.pairs = [] ∧ f.hasPermission = false
  copied : f.hasPermission = true → ∀ t ∈ f.bindingsNew, ∀ p ∈ t.pairs, p ∈ l.bindings.pairs

/-- Nothing is lost or half done. -/
structure Whole (l : LegacyFile) (f : DatabaseFile) : Prop where
  pairs : ∀ p, p ∈ f.pairs ↔ p ∈ l.bindings.pairs
  antenna : f.hasColumn .antennaLat = true → ∀ c ∈ antennaColumns, f.hasColumn c = true

variable {l : LegacyFile} {f f' : DatabaseFile}

/-- A change that cannot be seen. -/
theorem Whole.congr (hpairs : ∀ p, p ∈ f'.pairs ↔ p ∈ f.pairs)
    (hcolumn : ∀ c ∈ antennaColumns, f'.hasColumn c = f.hasColumn c) : Whole l f' ↔ Whole l f := by
  have hlat := hcolumn .antennaLat (by simp [antennaColumns])
  constructor
  · rintro ⟨h, ha⟩
    refine ⟨fun p => (hpairs p).symm.trans (h p), fun hf c hc => ?_⟩
    rw [← hcolumn c hc]
    exact ha (hlat.trans hf) c hc
  · rintro ⟨h, ha⟩
    refine ⟨fun p => (hpairs p).trans (h p), fun hf c hc => ?_⟩
    rw [hcolumn c hc]
    exact ha (hlat.symm.trans hf) c hc

theorem LegacyFile.tracked (l : LegacyFile) : Tracked l l.file where
  users := rfl
  mountpoints := ⟨[], by rw [MountPointFile.withColumns_nil]; rfl⟩
  antenna := by
    intro c hc h
    have hmem : c ∈ l.mountpoints.columns := of_decide_eq_true h
    rcases l.antenna with hall | hnone
    · exact decide_eq_true (hall .antennaLat (by simp [antennaColumns]))
    · exact absurd hmem (hnone c hc)
  pairs := .inl fun _ => .rfl
  copied := by
    rintro - t ⟨⟩

theorem LegacyFile.whole (l : LegacyFile) : Whole l l.file where
  pairs _ := .rfl
  antenna := by
    intro h c hc
    have hmem : .antennaLat ∈ l.mountpoints.columns := of_decide_eq_true h
    rcases l.antenna with hall | hnone
    · exact decide_eq_true (hall c hc)
    · exact absurd hmem (hnone .antennaLat (by simp [antennaColumns]))

/-! ### The schema -/

/-- The tables are there, but for the bindings. -/
theorem Tracked.run_createSchema (h : Tracked l f) (j : ℕ) :
    ∃ b, (createSchema.take j).run SchemaStatement.exec f = some { f with bindings := b } ∧
      (b = f.bindings ∨ f.bindings = none ∧ b = some (.current .empty)) ∧
      (3 ≤ j → b.isSome = true) := by
  obtain ⟨users, mountpoints, bindings, bindingsNew⟩ := f
  obtain ⟨cs, hm⟩ := h.mountpoints
  obtain rfl := h.users
  obtain rfl := hm
  match j with
  | 0 => exact ⟨bindings, rfl, .inl rfl, by omega⟩
  | 1 => exact ⟨bindings, rfl, .inl rfl, by omega⟩
  | 2 => exact ⟨bindings, rfl, .inl rfl, by omega⟩
  | j + 3 =>
    rw [Stage.take_of_length_le (Nat.le_add_left 3 j)]
    cases bindings with
    | none => exact ⟨_, rfl, .inr ⟨rfl, rfl⟩, fun _ => rfl⟩
    | some b => exact ⟨some b, rfl, .inl rfl, fun _ => rfl⟩

/-- Whether a table without rows is there makes no difference. -/
theorem pairs_create {b : Option BindingFile}
    (hb : b = f.bindings ∨ f.bindings = none ∧ b = some (.current .empty)) :
    ({ f with bindings := b } : DatabaseFile).pairs = f.pairs ∧
      ({ f with bindings := b } : DatabaseFile).hasPermission = f.hasPermission := by
  rcases hb with rfl | ⟨hnone, rfl⟩
  · exact ⟨rfl, rfl⟩
  · simp [DatabaseFile.pairs, DatabaseFile.hasPermission, hnone, BindingFile.pairs,
      BindingTable.pairs, Tables.Table.empty]

/-! ### The columns -/

/-- The file with more columns. -/
def DatabaseFile.withColumns (f : DatabaseFile) (cs : List MountPointColumn) : DatabaseFile :=
  { f with mountpoints := f.mountpoints.map fun m => m.withColumns cs }

theorem hasColumn_withColumns (h : Tracked l f) {cs : List MountPointColumn}
    {c : MountPointColumn} :
    (f.withColumns cs).hasColumn c = true ↔ f.hasColumn c = true ∨ c ∈ cs := by
  obtain ⟨cs₀, hm⟩ := h.mountpoints
  simp [DatabaseFile.hasColumn, DatabaseFile.withColumns, hm, MountPointFile.withColumns, or_assoc]

/-- Columns may be added if the first antenna column is there or among them. -/
theorem Tracked.withColumns (h : Tracked l f) {cs : List MountPointColumn}
    (hcs : ∀ c ∈ antennaColumns, c ∈ cs → .antennaLat ∈ cs) : Tracked l (f.withColumns cs) where
  users := h.users
  mountpoints := by
    obtain ⟨cs₀, hm⟩ := h.mountpoints
    exact ⟨cs₀ ++ cs, by rw [DatabaseFile.withColumns, hm, MountPointFile.withColumns_append]; rfl⟩
  antenna := by
    intro c hc hcol
    rw [hasColumn_withColumns h]
    rcases (hasColumn_withColumns h).mp hcol with hcol | hcol
    · exact .inl (h.antenna c hc hcol)
    · exact .inr (hcs c hc hcol)
  pairs := h.pairs
  copied := h.copied

/-- New columns, one after the other. -/
theorem execAll_addColumn {cs : List MountPointColumn} (hcs : cs.Nodup) {m : MountPointFile}
    (hm : f.mountpoints = some m) (hnew : ∀ c ∈ cs, c ∉ m.columns) :
    execAll SchemaStatement.exec (cs.map .addColumn) f = some (f.withColumns cs) := by
  induction cs generalizing f m with
  | nil =>
    rw [DatabaseFile.withColumns, hm, Option.map_some, MountPointFile.withColumns_nil, ← hm]
    rfl
  | cons c cs ih =>
    have hexec : SchemaStatement.exec (.addColumn c) f =
        some { f with mountpoints := some (m.withColumns [c]) } := by
      rw [SchemaStatement.exec, hm, Option.bind_some, MountPointFile.addColumn,
        if_neg (hnew c List.mem_cons_self)]
      rfl
    obtain ⟨hmem, hcs⟩ := List.nodup_cons.mp hcs
    rw [List.map_cons, execAll, hexec, Option.bind_some, ih hcs rfl]
    · rw [DatabaseFile.withColumns, DatabaseFile.withColumns, hm, Option.map_some, Option.map_some,
        ← MountPointFile.withColumns_append]
      rfl
    · intro d hd
      rw [MountPointFile.withColumns, List.mem_append, List.mem_singleton, not_or]
      refine ⟨hnew d (List.mem_cons_of_mem _ hd), ?_⟩
      rintro rfl
      exact hmem hd

/-- A stage that adds the columns `cs` if `c` is missing. -/
theorem Tracked.run_addColumns (h : Tracked l f) {cs : List MountPointColumn} (hcs : cs.Nodup)
    {stage : Stage DatabaseFile SchemaStatement} (hguard : stage.guard f = true)
    (hstatements : stage.statements = cs.map .addColumn)
    (hnew : ∀ c ∈ cs, f.hasColumn c = false) (j : ℕ) :
    (stage.take j).run SchemaStatement.exec f = some (f.withColumns (cs.take j)) := by
  obtain ⟨cs₀, hm⟩ := h.mountpoints
  have htake : (stage.take j).statements = (cs.take j).map .addColumn := by
    rw [Stage.take, hstatements, List.map_take]
  have hrun : (stage.take j).guard f = true := hguard
  rw [Stage.run_of_guard hrun, htake]
  refine execAll_addColumn (hcs.sublist (List.take_sublist ..)) hm fun c hc => ?_
  have := hnew c (List.mem_of_mem_take hc)
  rw [DatabaseFile.hasColumn, hm] at this
  exact of_decide_eq_false this

/-! ### The bindings -/

theorem copyInto_eq_some {allows : ℤ × ℤ → Bool} {ps : List (ℤ × ℤ)}
    (hps : ∀ p ∈ ps, allows p = true) (t : BindingTable) :
    ∃ t', copyInto allows ps t = some t' ∧ ∀ p, p ∈ t'.pairs ↔ p ∈ t.pairs ∨ p ∈ ps := by
  induction ps generalizing t with
  | nil => exact ⟨t, rfl, by simp⟩
  | cons p ps ih =>
    obtain ⟨hp, hps⟩ := List.forall_mem_cons.mp hps
    cases hinsert : t.insertOrIgnore (allows p) p.1 p.2 with
    | none =>
      have hrefused := (BindingTable.insertOrIgnore_eq_none_iff.mp hinsert).1
      cases hrefused.symm.trans hp
    | some t₁ =>
      obtain ⟨t', hcopy, hpairs⟩ := ih hps t₁
      refine ⟨t', by rw [copyInto, hinsert, Option.bind_some, hcopy], fun q => ?_⟩
      rw [hpairs, BindingTable.mem_pairs_insertOrIgnore hinsert, List.mem_cons, or_assoc]

/-- The foreign keys of the legacy bindings. -/
theorem Tracked.allows (h : Tracked l f) {p : ℤ × ℤ} (hp : p ∈ l.bindings.pairs) :
    f.allows p = true := by
  obtain ⟨cs, hm⟩ := h.mountpoints
  obtain ⟨huser, hmountpoint⟩ := l.allowed p hp
  have hids : (l.mountpoints.withColumns cs).rows.map StoredMountPoint.id =
      l.mountpoints.rows.map StoredMountPoint.id := by
    simp [MountPointFile.withColumns, Function.comp_def]
  rw [DatabaseFile.allows, h.users, hm]
  exact Bool.and_eq_true_iff.mpr ⟨huser, decide_eq_true (hids ▸ hmountpoint)⟩

/-! ## The stages -/

/-- What a run of a stage up to its statement `j` leaves. -/
structure Leaves (l : LegacyFile) (stage : Stage DatabaseFile SchemaStatement) (j : ℕ)
    (f f' : DatabaseFile) : Prop where
  run : (stage.take j).run SchemaStatement.exec f = some f'
  tracked : Tracked l f'
  whole_iff : Whole l f' ↔ Whole l f ∧ ∀ i ∈ (stage.take j).statements.getLast?, SafeAfter f i

/-- A stage that is skipped. -/
theorem Leaves.skip (h : Tracked l f) {stage : Stage DatabaseFile SchemaStatement} {j : ℕ}
    (hguard : stage.guard f = false)
    (hsafe : ∀ i ∈ (stage.take j).statements.getLast?, SafeAfter f i) : Leaves l stage j f f where
  run := Stage.run_of_guard_eq_false hguard
  tracked := h
  whole_iff := (and_iff_left hsafe).symm

/-- A stage that stops where it may and leaves pairs and antenna columns as they are. -/
theorem Leaves.of_safe {stage : Stage DatabaseFile SchemaStatement} {j : ℕ}
    (hrun : (stage.take j).run SchemaStatement.exec f = some f') (htracked : Tracked l f')
    (hpairs : ∀ p, p ∈ f'.pairs ↔ p ∈ f.pairs)
    (hcolumn : ∀ c ∈ antennaColumns, f'.hasColumn c = f.hasColumn c)
    (hsafe : ∀ i ∈ (stage.take j).statements.getLast?, SafeAfter f i) : Leaves l stage j f f' where
  run := hrun
  tracked := htracked
  whole_iff := by
    rw [and_iff_left hsafe]
    exact Whole.congr hpairs hcolumn

theorem Tracked.createSchema (h : Tracked l f) (j : ℕ) :
    ∃ f', Leaves l createSchema j f f' ∧ f'.mountpoints = f.mountpoints ∧ f'.pairs = f.pairs ∧
      f'.hasPermission = f.hasPermission ∧ (3 ≤ j → f'.bindings.isSome = true) := by
  obtain ⟨b, hrun, hb, hthere⟩ := h.run_createSchema j
  obtain ⟨hpairs, hpermission⟩ := pairs_create hb
  refine ⟨_, .of_safe hrun ⟨h.users, h.mountpoints, h.antenna, ?_, ?_⟩ (fun p => by rw [hpairs])
    (fun _ _ => rfl) fun i hi => ?_, rfl, hpairs, hpermission, hthere⟩
  · rw [hpairs, hpermission]
    exact h.pairs
  · rw [hpermission]
    exact h.copied
  · have hmem := List.mem_of_mem_take (List.mem_of_getLast? hi)
    simp only [NtripCaster.createSchema, List.mem_cons, List.not_mem_nil, or_false] at hmem
    rcases hmem with rfl | rfl | rfl <;> trivial

theorem safeAfter_addColumn (h : f.hasColumn .antennaLat = true) (c : MountPointColumn) :
    SafeAfter f (.addColumn c) := by
  cases c with
  | antennaLat | antennaLon | antennaHeight => exact h
  | maxClients | antennaUpdatedAt => trivial

/-- The column `max_clients` has nothing to do with the others. -/
theorem Tracked.migrateMountpointMaxClients (h : Tracked l f) (j : ℕ) :
    ∃ f', Leaves l migrateMountpointMaxClients j f f' ∧ f'.bindings = f.bindings ∧
      (∀ c ∈ antennaColumns, f'.hasColumn c = f.hasColumn c) ∧
      (1 ≤ j → f'.hasColumn .maxClients = true) := by
  have hsafe : ∀ i ∈ (NtripCaster.migrateMountpointMaxClients.take j).statements.getLast?,
      SafeAfter f i := fun i hi => by
    obtain rfl := List.mem_singleton.mp (List.mem_of_mem_take (List.mem_of_getLast? hi))
    trivial
  cases hcol : f.hasColumn .maxClients with
  | true =>
    refine ⟨f, .skip h ?_ hsafe, rfl, fun _ _ => rfl, fun _ => hcol⟩
    simp [NtripCaster.migrateMountpointMaxClients, hcol]
  | false =>
    have hnone : ∀ c ∈ antennaColumns, c ∉ [MountPointColumn.maxClients].take j := by
      intro c hc hmem
      obtain rfl := List.mem_singleton.mp (List.mem_of_mem_take hmem)
      simp [antennaColumns] at hc
    have hsame : ∀ c ∈ antennaColumns,
        (f.withColumns ([.maxClients].take j)).hasColumn c = f.hasColumn c := fun c hc => by
      rw [Bool.eq_iff_iff, hasColumn_withColumns h, or_iff_left (hnone c hc)]
    refine ⟨f.withColumns ([.maxClients].take j), .of_safe ?_ ?_ (fun _ => .rfl) hsame hsafe, rfl,
      hsame, fun hj => ?_⟩
    · refine h.run_addColumns (List.nodup_singleton _) ?_ rfl ?_ j
      · simp [NtripCaster.migrateMountpointMaxClients, hcol]
      · simpa using hcol
    · exact h.withColumns fun c hc hmem => absurd hmem (hnone c hc)
    · rw [hasColumn_withColumns h, List.take_of_length_le hj]
      exact .inr (List.mem_singleton_self _)

/-- A part of the antenna columns. -/
theorem not_whole_withColumns (h : Tracked l f) {cs : List MountPointColumn}
    (hlat : .antennaLat ∈ cs) (hlast : .antennaUpdatedAt ∉ cs)
    (hcol : f.hasColumn .antennaUpdatedAt = false) : ¬ Whole l (f.withColumns cs) := by
  intro hw
  have hall := hw.antenna ((hasColumn_withColumns h).mpr (.inr hlat)) .antennaUpdatedAt
    (by simp [antennaColumns])
  rcases (hasColumn_withColumns h).mp hall with hc | hc
  · exact Bool.eq_false_iff.mp hcol hc
  · exact hlast hc

/-- On a file without the antenna columns, the first `j` of them. -/
theorem whole_antenna_iff (h : Tracked l f) (hnew : ∀ c ∈ antennaColumns, f.hasColumn c = false)
    (j : ℕ) : Whole l (f.withColumns (antennaColumns.take j)) ↔
      Whole l f ∧ ∀ i ∈ (migrateAntennaPosition.take j).statements.getLast?, SafeAfter f i := by
  have hlat := hnew .antennaLat (by simp [antennaColumns])
  have hlast := hnew .antennaUpdatedAt (by simp [antennaColumns])
  have hunsafe : ¬ f.hasColumn .antennaLat = true := Bool.eq_false_iff.mp hlat
  match j with
  | 0 =>
    rw [and_iff_left]
    · refine Whole.congr (fun _ => .rfl) fun c _ => ?_
      rw [Bool.eq_iff_iff, hasColumn_withColumns h]
      exact or_iff_left List.not_mem_nil
    · rintro i ⟨⟩
  | 1 =>
    refine iff_of_false (not_whole_withColumns h ?_ ?_ hlast) fun hs => hunsafe (hs.2 _ rfl)
    · simp [antennaColumns]
    · simp [antennaColumns]
  | 2 =>
    refine iff_of_false (not_whole_withColumns h ?_ ?_ hlast) fun hs => hunsafe (hs.2 _ rfl)
    · simp [antennaColumns]
    · simp [antennaColumns]
  | 3 =>
    refine iff_of_false (not_whole_withColumns h ?_ ?_ hlast) fun hs => hunsafe (hs.2 _ rfl)
    · simp [antennaColumns]
    · simp [antennaColumns]
  | j + 4 =>
    rw [Stage.take_of_length_le (Nat.le_add_left 4 j),
      List.take_of_length_le (Nat.le_add_left 4 j), and_iff_left]
    · constructor
      · exact fun hw => ⟨hw.pairs, fun hc => absurd hc hunsafe⟩
      · exact fun hw => ⟨hw.pairs, fun _ c hc => (hasColumn_withColumns h).mpr (.inr hc)⟩
    · intro i hi
      obtain rfl := Option.some.inj hi
      trivial

/-- The antenna columns are whole unless the process stops before the last of them. -/
theorem Tracked.migrateAntennaPosition (h : Tracked l f) (j : ℕ) :
    ∃ f', Leaves l migrateAntennaPosition j f f' ∧ f'.bindings = f.bindings ∧
      (∀ c, f.hasColumn c = true → f'.hasColumn c = true) ∧
      (4 ≤ j → f'.hasColumn .antennaLat = true) := by
  cases hcol : f.hasColumn .antennaLat with
  | true =>
    refine ⟨f, .skip h ?_ fun i hi => ?_, rfl, fun _ hc => hc, fun _ => hcol⟩
    · simp [NtripCaster.migrateAntennaPosition, hcol]
    · obtain ⟨c, -, rfl⟩ := List.mem_map.mp (List.mem_of_mem_take (List.mem_of_getLast? hi))
      exact safeAfter_addColumn hcol c
  | false =>
    have hnew : ∀ c ∈ antennaColumns, f.hasColumn c = false := by
      intro c hc
      rw [Bool.eq_false_iff] at hcol ⊢
      exact fun hc' => hcol (h.antenna c hc hc')
    refine ⟨f.withColumns (antennaColumns.take j), ⟨?_, ?_, ?_⟩, rfl,
      fun c hc => (hasColumn_withColumns h).mpr (.inl hc), fun hj => ?_⟩
    · refine h.run_addColumns (by simp [antennaColumns]) ?_ rfl hnew j
      simp [NtripCaster.migrateAntennaPosition, hcol]
    · refine h.withColumns fun c _ hc => ?_
      obtain _ | j := j
      · cases hc
      · exact List.mem_cons_self
    · exact whole_antenna_iff h hnew j
    · rw [hasColumn_withColumns h, List.take_of_length_le hj]
      exact .inr List.mem_cons_self

/-- What the migration makes of the two bindings tables of an old file, and of nothing else. -/
theorem Tracked.run_migrateBindings (h : Tracked l f) (hold : f.hasPermission = true) (j : ℕ) :
    ∃ b t, (migrateBindings.take j).run SchemaStatement.exec f =
        some { f with bindings := b, bindingsNew := t } ∧
      (j < 3 → b = f.bindings ∧ ∀ t' ∈ t, ∀ p ∈ t'.pairs, p ∈ l.bindings.pairs) ∧
      (j = 3 → b = none) ∧
      (4 ≤ j → ∃ t', b = some (.current t') ∧ ∀ p, p ∈ t'.pairs ↔ p ∈ l.bindings.pairs) := by
  have hpairs := h.pairs.resolve_right fun hlost => by simp [hold] at hlost
  have hcopied := h.copied hold
  have hallows : ∀ p ∈ f.pairs.dedup, f.allows p = true := fun p hp =>
    h.allows ((hpairs p).mp (List.mem_dedup.mp hp))
  obtain ⟨users, mountpoints, bindings, bindingsNew⟩ := f
  obtain ⟨rows, rfl⟩ : ∃ rows, bindings = some (.legacy rows) := by
    unfold DatabaseFile.hasPermission at hold
    split at hold
    next rows hrows => exact ⟨rows, hrows⟩
    · cases hold
  obtain ⟨t₀, ht₀, hsub⟩ : ∃ t₀, bindingsNew.getD .empty = t₀ ∧
      ∀ p ∈ BindingTable.pairs t₀, p ∈ l.bindings.pairs := by
    refine ⟨_, rfl, ?_⟩
    cases bindingsNew with
    | none => rintro p ⟨⟩
    | some t => exact hcopied t rfl
  obtain ⟨t₁, hcopy, ht₁⟩ := copyInto_eq_some hallows t₀
  have hcopied₁ : ∀ p, p ∈ t₁.pairs ↔ p ∈ l.bindings.pairs := by
    intro p
    rw [ht₁, List.mem_dedup, hpairs]
    exact or_iff_right_of_imp (hsub p)
  -- the first two statements; the other two are computed
  have hcreate : SchemaStatement.createBindingsNew.exec
      ⟨users, mountpoints, some (.legacy rows), bindingsNew⟩ =
        some ⟨users, mountpoints, some (.legacy rows), some t₀⟩ := by
    rw [← ht₀]
    rfl
  have hinsert : SchemaStatement.copyBindings.exec
      ⟨users, mountpoints, some (.legacy rows), some t₀⟩ =
        some ⟨users, mountpoints, some (.legacy rows), some t₁⟩ :=
    congrArg (Option.map _) hcopy
  have hguard : (migrateBindings.take j).guard
      ⟨users, mountpoints, some (.legacy rows), bindingsNew⟩ = true := rfl
  rw [Stage.run_of_guard hguard]
  match j with
  | 0 => exact ⟨_, _, rfl, fun _ => ⟨rfl, hcopied⟩, by omega, by omega⟩
  | 1 =>
    refine ⟨_, some t₀, ?_, fun _ => ⟨rfl, fun t' ht' => ?_⟩, by omega, by omega⟩
    · exact congrArg (Option.bind · _) hcreate
    · obtain rfl := Option.some.inj ht'
      exact hsub
  | 2 =>
    refine ⟨_, some t₁, ?_, fun _ => ⟨rfl, fun t' ht' p hp => ?_⟩, by omega, by omega⟩
    · show execAll SchemaStatement.exec [.createBindingsNew, .copyBindings] _ = _
      rw [execAll, hcreate, Option.bind_some, execAll, hinsert]
      rfl
    · obtain rfl := Option.some.inj ht'
      exact (hcopied₁ p).mp hp
  | 3 =>
    refine ⟨none, some t₁, ?_, by omega, fun _ => rfl, by omega⟩
    show execAll SchemaStatement.exec [.createBindingsNew, .copyBindings, .dropBindings] _ = _
    rw [execAll, hcreate, Option.bind_some, execAll, hinsert]
    rfl
  | j + 4 =>
    refine ⟨some (.current t₁), none, ?_, by omega, by omega, fun _ => ⟨t₁, rfl, hcopied₁⟩⟩
    rw [Stage.take_of_length_le (Nat.le_add_left 4 j)]
    show execAll SchemaStatement.exec
      [.createBindingsNew, .copyBindings, .dropBindings, .renameBindingsNew] _ = _
    rw [execAll, hcreate, Option.bind_some, execAll, hinsert]
    rfl

/-- The one statement of the migration that is not safe. -/
theorem safeAfter_migrateBindings {i : SchemaStatement} {j : ℕ}
    (hi : i ∈ (migrateBindings.take j).statements.getLast?) (hj : j ≠ 3) : SafeAfter f i := by
  match j with
  | 0 => cases hi
  | 1 | 2 =>
    obtain rfl := Option.some.inj hi
    trivial
  | 3 => exact absurd rfl hj
  | j + 4 =>
    rw [Stage.take_of_length_le (Nat.le_add_left 4 j)] at hi
    obtain rfl := Option.some.inj hi
    trivial

/-- The bindings are there unless the process stops between the drop and the rename. -/
theorem Tracked.migrateBindings (h : Tracked l f) (j : ℕ) :
    ∃ f', Leaves l migrateBindings j f f' ∧ f'.mountpoints = f.mountpoints ∧
      (4 ≤ j → f.bindings.isSome = true → ∃ t, f'.bindings = some (.current t)) := by
  cases hold : f.hasPermission with
  | false =>
    refine ⟨f, .skip h hold fun i hi => ?_, rfl, fun _ hthere => ?_⟩
    · have hmem := List.mem_of_mem_take (List.mem_of_getLast? hi)
      simp only [NtripCaster.migrateBindings, List.mem_cons, List.not_mem_nil, or_false] at hmem
      rcases hmem with rfl | rfl | rfl | rfl
      · trivial
      · trivial
      · exact fun h => absurd h (Bool.eq_false_iff.mp hold)
      · trivial
    · obtain ⟨b, hb⟩ := Option.isSome_iff_exists.mp hthere
      cases b with
      | legacy rows => simp [DatabaseFile.hasPermission, hb] at hold
      | current t => exact ⟨t, hb⟩
  | true =>
    have hpairs := h.pairs.resolve_right fun hlost => by simp [hold] at hlost
    obtain ⟨b, t, hrun, hbefore, hdropped, hafter⟩ := h.run_migrateBindings hold j
    obtain hj | rfl | hj : j < 3 ∨ j = 3 ∨ 4 ≤ j := by omega
    · obtain ⟨rfl, hcopied⟩ := hbefore hj
      refine ⟨_, .of_safe hrun ⟨h.users, h.mountpoints, h.antenna, .inl hpairs, fun _ => hcopied⟩
        (fun _ => .rfl) (fun _ _ => rfl)
        fun i hi => safeAfter_migrateBindings hi (by omega), rfl, by omega⟩
    · obtain rfl := hdropped rfl
      refine ⟨_, ⟨hrun, ⟨h.users, h.mountpoints, h.antenna, .inr ⟨rfl, rfl⟩, ?_⟩, ?_⟩, rfl,
        by omega⟩
      · rintro ⟨⟩
      · have hsafe : (∀ i ∈ (NtripCaster.migrateBindings.take 3).statements.getLast?,
            SafeAfter f i) ↔ f.pairs = [] :=
          ⟨fun hs => hs .dropBindings rfl hold, fun hnone i hi => by
            obtain rfl := Option.some.inj hi
            exact fun _ => hnone⟩
        rw [hsafe]
        constructor
        · rintro ⟨hnone, ha⟩
          refine ⟨⟨hpairs, ha⟩, List.eq_nil_iff_forall_not_mem.mpr fun p hp => ?_⟩
          exact List.not_mem_nil ((hnone p).mpr ((hpairs p).mp hp))
        · rintro ⟨hw, hnone⟩
          refine ⟨fun p => ?_, hw.antenna⟩
          rw [← hpairs, hnone]
          rfl
    · obtain ⟨t', rfl, ht'⟩ := hafter hj
      refine ⟨_, .of_safe hrun ⟨h.users, h.mountpoints, h.antenna, .inl ht', ?_⟩
        (fun p => (ht' p).trans (hpairs p).symm) (fun _ _ => rfl)
        fun i hi => safeAfter_migrateBindings hi (by omega), rfl, fun _ _ => ⟨t', rfl⟩⟩
      rintro ⟨⟩

/-! ## Whole runs -/

/-- A stage that has not stopped, and whose last statement is safe. -/
theorem Leaves.complete {stage : Stage DatabaseFile SchemaStatement} {j : ℕ}
    (h : Leaves l stage j f f') (hj : stage.statements.length ≤ j)
    (hlast : ∀ i ∈ stage.statements.getLast?, SafeAfter f i) :
    stage.run SchemaStatement.exec f = some f' ∧ (Whole l f' ↔ Whole l f) := by
  have htake := Stage.take_of_length_le hj
  refine ⟨htake ▸ h.run, h.whole_iff.trans (and_iff_left ?_)⟩
  rwa [htake]

/-- With the whole schema there, nothing is missing but what was lost. -/
theorem Tracked.restored_iff (h : Tracked l f) {t : BindingTable}
    (hb : f.bindings = some (.current t)) (hmax : f.hasColumn .maxClients = true)
    (hlat : f.hasColumn .antennaLat = true) : l.Restored f ↔ Whole l f := by
  obtain ⟨cs, hm⟩ := h.mountpoints
  have hpairs : f.pairs = t.pairs := by
    rw [DatabaseFile.pairs, hb]
    rfl
  have hcolumn : ∀ c, f.hasColumn c = true ↔ c ∈ (l.mountpoints.withColumns cs).columns :=
    fun c => by rw [DatabaseFile.hasColumn, hm, decide_eq_true_iff]
  constructor
  · rintro ⟨-, ⟨cs', hm', hall⟩, t', ht', hsame⟩
    obtain rfl := BindingFile.current.inj (Option.some.inj (hb.symm.trans ht'))
    refine ⟨fun p => hpairs ▸ hsame p, fun _ c _ => (hcolumn c).mpr ?_⟩
    rw [Option.some.inj (hm.symm.trans hm')]
    exact hall c
  · rintro ⟨hsame, ha⟩
    refine ⟨h.users, ⟨cs, hm, fun c => (hcolumn c).mp ?_⟩, t, hb, fun p => hpairs ▸ hsame p⟩
    cases c with
    | maxClients => exact hmax
    | antennaLat | antennaLon | antennaHeight | antennaUpdatedAt =>
      exact ha hlat _ (by simp [antennaColumns])

/-- A run of `Open` that does not stop adds what is missing, and makes nothing worse. -/
theorem Tracked.openFile (h : Tracked l f) :
    ∃ f', f.openFile = some f' ∧ Tracked l f' ∧ (Whole l f' ↔ Whole l f) ∧
      (l.Restored f' ↔ Whole l f) := by
  obtain ⟨f₁, h₁, -, -, -, hthere⟩ := h.createSchema 3
  obtain ⟨f₂, h₂, -, hcurrent⟩ := h₁.tracked.migrateBindings 4
  obtain ⟨f₃, h₃, hb₃, -, hmax⟩ := h₂.tracked.migrateMountpointMaxClients 1
  obtain ⟨f₄, h₄, hb₄, hkeep, hlat⟩ := h₃.tracked.migrateAntennaPosition 4
  obtain ⟨hrun₁, hw₁⟩ := h₁.complete (Nat.le_refl 3) (by rintro i ⟨⟩; trivial)
  obtain ⟨hrun₂, hw₂⟩ := h₂.complete (Nat.le_refl 4) (by rintro i ⟨⟩; trivial)
  obtain ⟨hrun₃, hw₃⟩ := h₃.complete (Nat.le_refl 1) (by rintro i ⟨⟩; trivial)
  obtain ⟨hrun₄, hw₄⟩ := h₄.complete (Nat.le_refl 4) (by rintro i ⟨⟩; trivial)
  obtain ⟨t, ht⟩ := hcurrent (Nat.le_refl 4) (hthere (Nat.le_refl 3))
  have hw : Whole l f₄ ↔ Whole l f := ((hw₄.trans hw₃).trans hw₂).trans hw₁
  have hb : f₄.bindings = some (.current t) := hb₄.trans (hb₃.trans ht)
  refine ⟨f₄, ?_, h₄.tracked, hw, ?_⟩
  · rw [DatabaseFile.openFile, openStages, runAll, hrun₁, Option.bind_some, runAll, hrun₂,
      Option.bind_some, runAll, hrun₃, Option.bind_some, runAll, hrun₄]
    rfl
  · rw [← hw]
    exact h₄.tracked.restored_iff hb (hkeep _ (hmax (Nat.le_refl 1))) (hlat (Nat.le_refl 4))

theorem SafeAfter.addColumn_congr
    (hlat : f'.hasColumn .antennaLat = f.hasColumn .antennaLat) (c : MountPointColumn) :
    SafeAfter f' (.addColumn c) ↔ SafeAfter f (.addColumn c) := by
  cases c with
  | antennaLat | antennaLon | antennaHeight => exact iff_of_eq (congrArg (· = true) hlat)
  | maxClients | antennaUpdatedAt => exact .rfl

/-- What the schema leaves as it is decides which statements are safe. -/
theorem SafeAfter.congr (hpermission : f'.hasPermission = f.hasPermission)
    (hpairs : f'.pairs = f.pairs) (hlat : f'.hasColumn .antennaLat = f.hasColumn .antennaLat)
    (i : SchemaStatement) : SafeAfter f' i ↔ SafeAfter f i := by
  cases i with
  | dropBindings => rw [SafeAfter, SafeAfter, hpermission, hpairs]
  | addColumn c => exact addColumn_congr hlat c
  | _ => exact .rfl

/-- **One run of `Open`, wherever it stops**: it makes something worse exactly if it may not stop
there. -/
theorem Tracked.stopAt (h : Tracked l f) (p : StopPoint) :
    ∃ f', f.stopAt p = some f' ∧ Tracked l f' ∧ (Whole l f' ↔ Whole l f ∧ SafeStop f p) := by
  obtain ⟨k, j⟩ := p
  obtain ⟨f₁, h₁, hm₁, hpairs₁, hpermission₁, -⟩ := h.createSchema 3
  obtain ⟨f₂, h₂, hm₂, -⟩ := h₁.tracked.migrateBindings 4
  obtain ⟨f₃, h₃, -, hcol₃, -⟩ := h₂.tracked.migrateMountpointMaxClients 1
  obtain ⟨hrun₁, hw₁⟩ := h₁.complete (Nat.le_refl 3) (by rintro i ⟨⟩; trivial)
  obtain ⟨hrun₂, hw₂⟩ := h₂.complete (Nat.le_refl 4) (by rintro i ⟨⟩; trivial)
  obtain ⟨hrun₃, hw₃⟩ := h₃.complete (Nat.le_refl 1) (by rintro i ⟨⟩; trivial)
  have hlat₁ : f₁.hasColumn .antennaLat = f.hasColumn .antennaLat := by
    rw [DatabaseFile.hasColumn, DatabaseFile.hasColumn, hm₁]
  have hlat₂ : f₂.hasColumn .antennaLat = f.hasColumn .antennaLat := by
    rw [DatabaseFile.hasColumn, hm₂]
    exact hlat₁
  have hlat₃ : f₃.hasColumn .antennaLat = f.hasColumn .antennaLat :=
    (hcol₃ _ (by simp [antennaColumns])).trans hlat₂
  unfold DatabaseFile.stopAt openStages
  match k with
  | 0 =>
    obtain ⟨f', h', -⟩ := h.createSchema j
    exact ⟨f', runAll_cut_zero.trans h'.run, h'.tracked, h'.whole_iff⟩
  | 1 =>
    obtain ⟨f', h', -⟩ := h₁.tracked.migrateBindings j
    rw [runAll_cut_succ hrun₁]
    refine ⟨f', runAll_cut_zero.trans h'.run, h'.tracked, ?_⟩
    rw [h'.whole_iff, hw₁]
    exact and_congr_right fun _ => forall₂_congr fun i _ =>
      SafeAfter.congr hpermission₁ hpairs₁ hlat₁ i
  | 2 =>
    obtain ⟨f', h', -⟩ := h₂.tracked.migrateMountpointMaxClients j
    rw [runAll_cut_succ hrun₁, runAll_cut_succ hrun₂]
    refine ⟨f', runAll_cut_zero.trans h'.run, h'.tracked, ?_⟩
    rw [h'.whole_iff, hw₂, hw₁]
    refine and_congr_right fun _ => forall₂_congr fun i hi => ?_
    obtain rfl := List.mem_singleton.mp (List.mem_of_mem_take (List.mem_of_getLast? hi))
    exact SafeAfter.addColumn_congr hlat₂ _
  | 3 =>
    obtain ⟨f', h', -⟩ := h₃.tracked.migrateAntennaPosition j
    rw [runAll_cut_succ hrun₁, runAll_cut_succ hrun₂, runAll_cut_succ hrun₃]
    refine ⟨f', runAll_cut_zero.trans h'.run, h'.tracked, ?_⟩
    rw [h'.whole_iff, hw₃, hw₂, hw₁]
    refine and_congr_right fun _ => forall₂_congr fun i hi => ?_
    obtain ⟨c, -, rfl⟩ := List.mem_map.mp (List.mem_of_mem_take (List.mem_of_getLast? hi))
    exact SafeAfter.addColumn_congr hlat₃ c
  | k + 4 =>
    obtain ⟨f', hrun, htracked, hwhole, -⟩ := h.openFile
    rw [cut_of_length_le (Nat.le_add_left 4 k)]
    refine ⟨f', hrun, htracked, hwhole.trans (and_iff_left ?_).symm⟩
    rintro i ⟨⟩

/-- Runs that stop, one after the other. -/
theorem Tracked.stopAll (h : Tracked l f) (ps : List StopPoint) :
    ∃ f', DatabaseFile.stopAll ps f = some f' ∧ Tracked l f' ∧
      (Whole l f' ↔ Whole l f ∧ SafeStops ps f) := by
  induction ps generalizing f with
  | nil => exact ⟨f, rfl, h, (and_iff_left trivial).symm⟩
  | cons p ps ih =>
    obtain ⟨f₁, hstop, h₁, hw₁⟩ := h.stopAt p
    obtain ⟨f', hrest, h', hw'⟩ := ih h₁
    refine ⟨f', ?_, h', ?_⟩
    · rw [DatabaseFile.stopAll, hstop, Option.bind_some, hrest]
    · rw [hw', hw₁, and_assoc, SafeStops, hstop]
      simp only [Option.mem_some_iff, forall_eq']

/-- **The migration survives a crash**, after any number of runs that stop anywhere: the next `Open`
succeeds, and leaves the current schema with what was in the legacy file exactly if none of them has
stopped between the drop and the rename with bindings in the file, or between the first and the last
antenna column. -/
theorem open_after_stops_iff (l : LegacyFile) (ps : List StopPoint) :
    ∃ f f', DatabaseFile.stopAll ps l.file = some f ∧ f.openFile = some f' ∧
      (l.Restored f' ↔ SafeStops ps l.file) := by
  obtain ⟨f, hstop, h, hw⟩ := l.tracked.stopAll ps
  obtain ⟨f', hopen, -, -, hrestored⟩ := h.openFile
  exact ⟨f, f', hstop, hopen, (hrestored.trans hw).trans (and_iff_right l.whole)⟩

/-- One user, who may use one mountpoint. -/
def legacyFile : LegacyFile where
  users := ⟨[⟨1, ascii "u", ascii "pw", roleRover, 1⟩], 1, by simp, by simp, by simp⟩
  mountpoints := ⟨[], [⟨1, ascii "M", [], 1, ascii "RTCM3", ascii "user_binding", none, none, none,
    []⟩]⟩
  bindings := .legacy [(⟨1, 1, 1⟩, ascii "read")]
  allowed := by
    intro p hp
    obtain rfl := List.mem_singleton.mp hp
    exact ⟨rfl, List.mem_singleton_self _⟩
  antenna := .inr fun _ _ => List.not_mem_nil

/-- A process that stops after `DROP TABLE` has lost the bindings. -/
theorem open_after_drop :
    ¬ ∀ (l : LegacyFile) (p : StopPoint) (f f' : DatabaseFile), l.file.stopAt p = some f →
      f.openFile = some f' → l.Restored f' := by
  intro hall
  obtain ⟨f, f', hstop, hopen, hpairs⟩ : ∃ f f', legacyFile.file.stopAt ⟨1, 3⟩ = some f ∧
      f.openFile = some f' ∧ f'.pairs = [] := ⟨_, _, rfl, rfl, rfl⟩
  obtain ⟨-, -, t, ht, hsame⟩ := hall legacyFile ⟨1, 3⟩ f f' hstop hopen
  have hmem := (hsame (1, 1)).mpr (List.mem_singleton_self _)
  rw [DatabaseFile.pairs, ht] at hpairs
  have hnone : t.pairs = [] := hpairs
  rw [hnone] at hmem
  cases hmem

end NtripCaster
