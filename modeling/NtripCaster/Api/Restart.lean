import Mathlib.Algebra.Order.Ring.Nat
import Mathlib.Data.List.Sort
import NtripCaster.Api.Handlers
import NtripCaster.Library.Transition

/-!
# The registry and a restart

`syncMountpoints` of `cmd/caster/main.go` loads the registry from the table; after that the admin
handlers keep the two alike, each in its own way. `Manager.Represents` says what they keep: the
registry holds the enabled rows, and disabled ones at will. It is lost where `UpdateMountpoint`
enables a row that the registry does not hold, or puts the defaults in the place of a row's own
queue size and timeout, and where `CreateMountpoint` is given a negative limit.

## Main definitions

* `syncMountpoints`
* `Manager.enabledSettings`: what the registry says of an enabled mountpoint
* `mountpointSystem`: successful requests and restarts, one at a time
* `KeepsSettings`: the condition on a step

## Main results

* `Manager.represents_sync`: a restart represents the table
* `Manager.Represents.puts`: a row that is put into both
* `registry_restart`: the registry is what a restart would load, under the condition
* `registry_not_restart`: a mountpoint that was disabled over a restart
-/

namespace NtripCaster

open Tables Transition

/-! ## Loading -/

/-- What the registry says of a mountpoint, apart from its name. -/
structure Settings where
  description : Bytes
  format : Bytes
  writeQueue : ℤ
  writeTimeout : ℤ
  maxClients : ℤ
  deriving DecidableEq, Repr

/-- What of a mountpoint in memory a restart must bring back. -/
def MountPoint.settings (mp : MountPoint) : Settings :=
  ⟨mp.description, mp.format, mp.writeQueue, mp.writeTimeout, mp.maxClients⟩

/-- The settings under a name, if it is that of an enabled mountpoint. -/
def Manager.enabledSettings (mgr : Manager) (name : Bytes) : Option Settings :=
  ((mgr.get name).filter MountPoint.enabled).map MountPoint.settings

/-- A product of two `int64`. -/
def mulInt64 (a b : ℤ) : ℤ := (a * b).bmod (2 ^ 64)

namespace MountPointRow

variable (cfg : MountpointDefaultsConfig) (row : MountPointRow)

/-- The queue size that a restart gives the mountpoint. -/
def queue : ℤ := row.writeQueue.getD cfg.writeQueue

/-- The timeout that a restart gives the mountpoint: the column is in milliseconds. -/
def timeout : ℤ := row.writeTimeoutMs.elim cfg.writeTimeout fun ms => mulInt64 ms 1000000

/-- The settings that a restart gives the mountpoint. -/
def settings : Settings :=
  ⟨row.description, row.format, row.queue cfg, row.timeout cfg, row.limit⟩

/-- The mountpoint that a restart creates. -/
def toMountPoint : MountPoint :=
  newMountPoint row.name row.description row.format (row.queue cfg) (row.timeout cfg) row.limit

end MountPointRow

/-- `ListMountPointRows`. -/
def MountPointTable.list (t : MountPointTable) : List MountPointRow :=
  t.rows.insertionSort fun a b => a.id ≤ b.id

/-- A row in the loop of `syncMountpoints`: a disabled one is passed over, and so is one whose name
is taken. -/
def Manager.load (cfg : MountpointDefaultsConfig) (mgr : Manager) (row : MountPointRow) : Manager :=
  if row.isEnabled then
    (mgr.create row.name row.description row.format (row.queue cfg) (row.timeout cfg)
      row.limit).getD mgr
  else mgr

/-- `syncMountpoints`. -/
def syncMountpoints (cfg : MountpointDefaultsConfig) (t : MountPointTable) (mgr : Manager) :
    Manager :=
  t.list.foldl (.load cfg) mgr

/-! ## Requests and restarts -/

/-- A successful request, or a restart of the process. -/
inductive MountpointStep
  | create (env : AdminEnv) (req : CreateMountpointRequest)
  | update (env : AdminEnv) (id : ℤ) (req : UpdateMountpointRequest)
  | delete (env : AdminEnv) (id : ℤ)
  | restart

namespace Handlers

variable (bc : Bcrypt) (cfg : MountpointDefaultsConfig) (h : Handlers)

/-- A process that starts on the tables. -/
def restart : Handlers where
  acctSvc := { h.acctSvc with authCache := ∅ }
  mgr := syncMountpoints cfg h.acctSvc.mountpoints .new
  conns := ⟨[], []⟩

/-- The state after a request that was answered ok. -/
def succeeded : Handlers × Except AdminError Unit → Option Handlers
  | (h, .ok _) => some h
  | (_, .error _) => none

/-- A request that succeeds, or a restart; one that is refused is no step. -/
def mountpointStep : MountpointStep → Option Handlers
  | .create env req => succeeded (h.createMountpoint bc cfg env (some req))
  | .update env id req => succeeded (h.updateMountpoint bc cfg env (some id) (some req))
  | .delete env id => succeeded (h.deleteMountpoint env (some id))
  | .restart => some (h.restart cfg)

end Handlers

/-- Requests and restarts in any order, from a start on any tables. -/
def mountpointSystem (bc : Bcrypt) (cfg : MountpointDefaultsConfig) :
    System Handlers MountpointStep where
  init h := ∃ h₀ : Handlers, h = h₀.restart cfg
  step h a := h.mountpointStep bc cfg a

/-- The condition on a step: the limit of a new mountpoint is not negative, and a mountpoint that
an update leaves enabled is in the registry and has no queue size or timeout of its own, or that of
the defaults. -/
def KeepsSettings (cfg : MountpointDefaultsConfig) (h : Handlers) : MountpointStep → Prop
  | .create _ req => 0 ≤ req.maxClients
  | .update _ id req => ∀ row ∈ h.acctSvc.mountpoints.byID id, req.enabledFor row = true →
      (h.mgr.get row.name).isSome = true ∧ row.queue cfg = cfg.writeQueue ∧
        row.timeout cfg = cfg.writeTimeout
  | _ => True

instance (cfg : MountpointDefaultsConfig) (h : Handlers) (a : MountpointStep) :
    Decidable (KeepsSettings cfg h a) :=
  match a with
  | .create _ req => inferInstanceAs (Decidable (0 ≤ req.maxClients))
  | .update _ id req => inferInstanceAs (Decidable (∀ row ∈ h.acctSvc.mountpoints.byID id,
      req.enabledFor row = true → (h.mgr.get row.name).isSome = true ∧
        row.queue cfg = cfg.writeQueue ∧ row.timeout cfg = cfg.writeTimeout))
  | .delete .. | .restart => .isTrue trivial

/-! ## What the registry holds of the table -/

/-- A mountpoint and its row are both disabled, or enabled with the same settings. -/
def MountPoint.Agrees (cfg : MountpointDefaultsConfig) (mp : MountPoint) (row : MountPointRow) :
    Prop :=
  mp.enabled = row.isEnabled ∧ (mp.enabled = true → mp.settings = row.settings cfg)

namespace Manager

variable {cfg : MountpointDefaultsConfig} {mgr mgr' : Manager} {t t' : MountPointTable}

/-- Every mountpoint of the registry agrees with the row of its name, and every enabled row has
one. -/
structure Represents (cfg : MountpointDefaultsConfig) (mgr : Manager) (t : MountPointTable) :
    Prop where
  agrees : ∀ name mp, mgr.get name = some mp → ∃ row ∈ t.rows, row.name = name ∧ mp.Agrees cfg row
  loaded : ∀ row ∈ t.rows, row.isEnabled = true → (mgr.get row.name).isSome = true

/-- The enabled mountpoints of the registry are the enabled rows. -/
theorem Represents.enabledSettings_eq_some (h : mgr.Represents cfg t) {name : Bytes}
    {settings : Settings} :
    mgr.enabledSettings name = some settings ↔
      ∃ row ∈ t.rows, row.name = name ∧ row.isEnabled = true ∧ row.settings cfg = settings := by
  unfold enabledSettings
  rw [Option.map_eq_some_iff]
  simp only [Option.filter_eq_some_iff]
  constructor
  · rintro ⟨mp, ⟨hmp, hen⟩, rfl⟩
    obtain ⟨row, hrow, hname, hagree, hset⟩ := h.agrees name mp hmp
    exact ⟨row, hrow, hname, hagree ▸ hen, (hset hen).symm⟩
  · rintro ⟨row, hrow, rfl, hen, rfl⟩
    obtain ⟨mp, hmp⟩ := Option.isSome_iff_exists.mp (h.loaded row hrow hen)
    obtain ⟨row', hrow', hname, hagree, hset⟩ := h.agrees row.name mp hmp
    -- names are unique
    obtain rfl := Table.eq_of_key hrow' hrow hname
    have hmpen : mp.enabled = true := hagree.trans hen
    exact ⟨mp, ⟨hmp, hmpen⟩, hset hmpen⟩

/-- Two registries that represent one table say the same of enabled mountpoints. -/
theorem Represents.enabledSettings_eq (h : mgr.Represents cfg t) (h' : mgr'.Represents cfg t)
    (name : Bytes) : mgr.enabledSettings name = mgr'.enabledSettings name := by
  ext settings
  rw [h.enabledSettings_eq_some, h'.enabledSettings_eq_some]

theorem get_set {name name' : Bytes} {mp mp' : MountPoint} :
    (mgr.set name mp).get name' = some mp' ↔
      name' = name ∧ mp' = mp ∨ name' ≠ name ∧ mgr.get name' = some mp' :=
  GoMap.lookup_insert_eq_some

/-- Loading a row whose name is free. -/
theorem load_eq {row : MountPointRow} (hfree : mgr.get row.name = none) :
    mgr.load cfg row = if row.isEnabled then mgr.set row.name (row.toMountPoint cfg) else mgr := by
  unfold load create
  rw [hfree]
  rfl

/-- Loading rows with names that are distinct and free adds the enabled ones. -/
theorem get_foldl_load {rows : List MountPointRow} (hnd : (rows.map MountPointRow.name).Nodup)
    (hfree : ∀ row ∈ rows, mgr.get row.name = none) {name : Bytes} {mp : MountPoint} :
    (rows.foldl (load cfg) mgr).get name = some mp ↔ mgr.get name = some mp ∨
      ∃ row ∈ rows, row.isEnabled = true ∧ row.name = name ∧ row.toMountPoint cfg = mp := by
  induction rows generalizing mgr with
  | nil => simp
  | cons row rows ih =>
    rw [List.map_cons, List.nodup_cons] at hnd
    obtain ⟨hnew, hnd⟩ := hnd
    have hrow : mgr.get row.name = none := hfree row List.mem_cons_self
    have hrows : ∀ r ∈ rows, mgr.get r.name = none := fun r hr =>
      hfree r (List.mem_cons_of_mem row hr)
    have hne : ∀ r ∈ rows, r.name ≠ row.name := fun r hr heq =>
      hnew (heq ▸ List.mem_map_of_mem hr)
    rw [List.foldl_cons, load_eq hrow]
    cases hen : row.isEnabled with
    | false =>
      rw [if_neg Bool.false_ne_true, ih hnd hrows]
      simp [hen]
    | true =>
      rw [if_pos rfl, ih hnd fun r hr => (get_set_ne (hne r hr) _).trans (hrows r hr), get_set]
      constructor
      · rintro ((⟨rfl, rfl⟩ | ⟨-, hmp⟩) | ⟨r, hr, hr'⟩)
        · exact .inr ⟨row, List.mem_cons_self, hen, rfl, rfl⟩
        · exact .inl hmp
        · exact .inr ⟨r, List.mem_cons_of_mem row hr, hr'⟩
      · rintro (hmp | ⟨r, hr, hren, rfl, rfl⟩)
        · refine .inl (.inr ⟨?_, hmp⟩)
          rintro rfl
          rw [hrow] at hmp
          cases hmp
        · rcases List.mem_cons.mp hr with rfl | hr
          · exact .inl (.inl ⟨rfl, rfl⟩)
          · exact .inr ⟨r, hr, hren, rfl, rfl⟩

/-- A restart represents the table. -/
theorem represents_sync (cfg : MountpointDefaultsConfig) (t : MountPointTable) :
    (syncMountpoints cfg t .new).Represents cfg t := by
  have hperm := List.perm_insertionSort (fun a b : MountPointRow => a.id ≤ b.id) t.rows
  have hnd : (t.list.map MountPointRow.name).Nodup := (hperm.map _).nodup_iff.mpr t.key_nodup
  have hget : ∀ {name mp}, (syncMountpoints cfg t .new).get name = some mp ↔
      ∃ row ∈ t.list, row.isEnabled = true ∧ row.name = name ∧ row.toMountPoint cfg = mp := by
    intro name mp
    refine (get_foldl_load hnd fun _ _ => AList.lookup_empty _).trans (or_iff_right ?_)
    exact fun h => nomatch (AList.lookup_empty name).symm.trans h
  constructor
  · intro name mp hmp
    obtain ⟨row, hrow, hen, hname, rfl⟩ := hget.mp hmp
    exact ⟨row, hperm.mem_iff.mp hrow, hname, hen.symm, fun _ => rfl⟩
  · intro row hrow hen
    exact Option.isSome_iff_exists.mpr ⟨_, hget.mpr ⟨row, hperm.mem_iff.mpr hrow, hen, rfl, rfl⟩⟩

/-- A row that is put into the table, and into the registry under its name. -/
theorem Represents.puts (h : mgr.Represents cfg t) {row : MountPointRow} (ht : t.Puts row t')
    (hname : ∀ r ∈ t.rows, r.id = row.id → r.name = row.name)
    (hother : ∀ name, name ≠ row.name → mgr'.get name = mgr.get name)
    (hagrees : ∀ mp, mgr'.get row.name = some mp → mp.Agrees cfg row)
    (hloaded : row.isEnabled = true → (mgr'.get row.name).isSome = true) :
    mgr'.Represents cfg t' where
  agrees name mp hmp := by
    by_cases heq : name = row.name
    · subst heq
      exact ⟨row, (ht row).mpr (.inr rfl), rfl, hagrees mp hmp⟩
    · rw [hother name heq] at hmp
      obtain ⟨r, hr, rfl, hagree⟩ := h.agrees name mp hmp
      exact ⟨r, (ht r).mpr (.inl ⟨hr, fun hid => heq (hname r hr hid)⟩), rfl, hagree⟩
  loaded r hr hen := by
    rcases (ht r).mp hr with ⟨hr₀, hid⟩ | rfl
    · have hne : r.name ≠ row.name := fun heq =>
        hid (congrArg MountPointRow.id (Table.eq_of_key hr ((ht row).mpr (.inr rfl)) heq))
      rw [hother r.name hne]
      exact h.loaded r hr₀ hen
    · exact hloaded hen

/-- A row that is taken off the table, and its name off the registry. -/
theorem Represents.delete (h : mgr.Represents cfg t) {row : MountPointRow} (hrow : row ∈ t.rows)
    (hother : ∀ name, name ≠ row.name → mgr'.get name = mgr.get name)
    (hself : mgr'.get row.name = none) : mgr'.Represents cfg (t.delete row.id) where
  agrees name mp hmp := by
    have hne : name ≠ row.name := by
      rintro rfl
      rw [hself] at hmp
      cases hmp
    rw [hother name hne] at hmp
    obtain ⟨r, hr, rfl, hagree⟩ := h.agrees name mp hmp
    refine ⟨r, Table.mem_delete.mpr ⟨hr, fun hid => hne ?_⟩, rfl, hagree⟩
    rw [Table.eq_of_id hr hrow hid]
  loaded r hr hen := by
    obtain ⟨hr, hid⟩ := Table.mem_delete.mp hr
    have hne : r.name ≠ row.name := fun heq =>
      hid (congrArg MountPointRow.id (Table.eq_of_key hr hrow heq))
    rw [hother r.name hne]
    exact h.loaded r hr hen

end Manager

/-! ## What a successful request does -/

namespace AcctSvc

variable {bc : Bcrypt} {fails : Statement → Bool} {s s' : AcctSvc} {t : MountPointTable}
  {row : MountPointRow}

theorem puts_createMountPointRow {name description format : Bytes} {id : ℤ}
    (h : s.createMountPointRow fails name description format = .ok (s', id)) :
    s.mountpoints.Puts (.new name description format id) s'.mountpoints ∧
      ∀ r ∈ s.mountpoints.rows, r.id ≠ id ∧ r.name ≠ name := by
  obtain ⟨mountpoints, hcreate, rfl⟩ := createMountPointRow_ok h
  exact ⟨Table.puts_insert hcreate, fun r hr => Table.ne_of_insert hcreate hr⟩

theorem puts_updateMountPointRow {description format : Bytes} {enabled : Bool}
    (h : s.updateMountPointRow fails row.id description format enabled = .ok s')
    (hrow : row ∈ s.mountpoints.rows) :
    s.mountpoints.Puts (row.setColumns description format enabled) s'.mountpoints := by
  obtain rfl := updateMountPointRow_ok h
  exact MountPointTable.puts_setColumns (Table.puts_self hrow) _ _ _

theorem puts_setMountPointMaxClients {maxClients : ℤ} (hput : t.Puts row s.mountpoints)
    (h : s.setMountPointMaxClients fails row.id maxClients = .ok s') :
    t.Puts { row with maxClients := some maxClients } s'.mountpoints := by
  obtain rfl := setMountPointMaxClients_ok h
  exact MountPointTable.puts_setMaxClients hput _

theorem puts_setMountPointSourceSecret {salt secret : Bytes} (hput : t.Puts row s.mountpoints)
    (h : s.setMountPointSourceSecret bc fails salt row.id secret = .ok s') :
    ∃ hash, t.Puts { row with sourceSecretHash := hash } s'.mountpoints := by
  obtain ⟨hash, rfl⟩ := setMountPointSourceSecret_ok h
  exact ⟨hash, MountPointTable.puts_setSourceSecret hput _⟩

theorem getMountPointRowByID_eq_some {id : ℤ} (h : s.getMountPointRowByID fails id = some row) :
    row ∈ s.mountpoints.rows ∧ row.id = id := by
  obtain ⟨-, h⟩ := Option.ite_none_left_eq_some.mp h
  exact Table.byID_eq_some.mp h

end AcctSvc

namespace Handlers

variable {bc : Bcrypt} {cfg : MountpointDefaultsConfig} {env : AdminEnv} {h h' : Handlers}

theorem succeeded_eq_some {r : Handlers × Except AdminError Unit} :
    succeeded r = some h' ↔ r = (h', .ok ()) := by
  obtain ⟨h₁, _ | _⟩ := r <;> simp [succeeded]

/-- A successful `POST` puts one row into the table, under a new name. -/
theorem createMountpoint_ok {req : CreateMountpointRequest}
    (hok : h.createMountpoint bc cfg env (some req) = (h', .ok ())) :
    ∃ row : MountPointRow, h.acctSvc.mountpoints.Puts row h'.acctSvc.mountpoints ∧
      (∀ r ∈ h.acctSvc.mountpoints.rows, r.id ≠ row.id ∧ r.name ≠ req.name) ∧ row.name = req.name ∧
      row.isEnabled = true ∧ row.settings cfg = ⟨req.description, req.formatOrDefault,
        cfg.writeQueue, cfg.writeTimeout, if 0 < req.maxClients then req.maxClients else 0⟩ ∧
      h'.mgr = (h.createInMemory cfg req).mgr := by
  unfold createMountpoint at hok
  dsimp only at hok
  split at hok
  · cases hok
  split at hok
  · cases hok
  next svc id hcreate =>
    obtain ⟨hput, hnew⟩ := AcctSvc.puts_createMountPointRow hcreate
    split at hok
    · cases hok
    next svc₁ hsecret =>
      obtain ⟨hash, hput⟩ : ∃ hash, h.acctSvc.mountpoints.Puts
          { MountPointRow.new req.name req.description req.formatOrDefault id with
            sourceSecretHash := hash } svc₁.mountpoints := by
        split at hsecret
        · exact AcctSvc.puts_setMountPointSourceSecret hput hsecret
        · exact ⟨none, Except.ok.inj hsecret ▸ hput⟩
      split at hok
      · cases hok
      next svc₂ hmax =>
        obtain ⟨rfl, -⟩ := Prod.mk.inj hok
        have hmgr : ({ h with acctSvc := svc₂ }.createInMemory cfg req).mgr =
            (h.createInMemory cfg req).mgr := by
          simp only [createInMemory, ignoreError_mgr]
        rw [createInMemory, ignoreError_acctSvc, ← createInMemory, hmgr]
        split at hmax
        next hpos =>
          rw [if_pos hpos]
          have hput := AcctSvc.puts_setMountPointMaxClients hput hmax
          exact ⟨_, hput, hnew, rfl, rfl, rfl, rfl⟩
        next hpos =>
          rw [if_neg hpos]
          obtain rfl := Except.ok.inj hmax
          exact ⟨_, hput, hnew, rfl, rfl, rfl, rfl⟩

/-- A successful `PUT` puts a row into the table, under the name of the row it has read. -/
theorem updateMountpoint_ok {id : ℤ} {req : UpdateMountpointRequest}
    (hok : h.updateMountpoint bc cfg env (some id) (some req) = (h', .ok ())) :
    ∃ old new : MountPointRow, h.acctSvc.mountpoints.byID id = some old ∧
      h.acctSvc.mountpoints.Puts new h'.acctSvc.mountpoints ∧ new.id = id ∧ new.name = old.name ∧
      new.isEnabled = req.enabledFor old ∧ new.settings cfg = ⟨req.descriptionFor old,
        req.formatFor old, old.queue cfg, old.timeout cfg, req.maxClientsFor old⟩ ∧
      h'.mgr = (h.updateInMemory cfg env old req).mgr := by
  unfold updateMountpoint at hok
  dsimp only at hok
  split at hok
  · cases hok
  next row hrow =>
    obtain ⟨hmem, rfl⟩ := AcctSvc.getMountPointRowByID_eq_some hrow
    split at hok
    · cases hok
    next svc hcolumns =>
      have hput := AcctSvc.puts_updateMountPointRow hcolumns hmem
      split at hok
      · cases hok
      next svc₁ hmax =>
        -- the limit of the row is now the one that the registry gets
        obtain ⟨maxClients, hput, hlimit⟩ : ∃ maxClients, h.acctSvc.mountpoints.Puts
            { row.setColumns (req.descriptionFor row) (req.formatFor row) (req.enabledFor row) with
              maxClients := maxClients } svc₁.mountpoints ∧
            maxClients.getD 0 = req.maxClientsFor row := by
          unfold UpdateMountpointRequest.maxClientsFor
          cases hreq : req.maxClients with
          | none =>
            rw [hreq] at hmax
            exact ⟨row.maxClients, Except.ok.inj hmax ▸ hput, rfl⟩
          | some n =>
            rw [hreq] at hmax
            exact ⟨some n, AcctSvc.puts_setMountPointMaxClients hput hmax, rfl⟩
        split at hok
        · cases hok
        next svc₂ hsecret =>
          obtain ⟨rfl, -⟩ := Prod.mk.inj hok
          obtain ⟨hash, hput⟩ : ∃ hash, h.acctSvc.mountpoints.Puts
              { row.setColumns (req.descriptionFor row) (req.formatFor row)
                  (req.enabledFor row) with
                maxClients := maxClients
                sourceSecretHash := hash } svc₂.mountpoints := by
            cases hreq : req.sourceSecret with
            | none =>
              rw [hreq] at hsecret
              exact ⟨row.sourceSecretHash, Except.ok.inj hsecret ▸ hput⟩
            | some secret =>
              rw [hreq] at hsecret
              exact AcctSvc.puts_setMountPointSourceSecret hput hsecret
          have hmgr : ({ h with acctSvc := svc₂ }.updateInMemory cfg env row req).mgr =
              (h.updateInMemory cfg env row req).mgr := by
            simp only [updateInMemory, ignoreError_mgr]
          rw [updateInMemory, ignoreError_acctSvc, ← updateInMemory, hmgr]
          refine ⟨row, _, Table.byID_eq_some.mpr ⟨hmem, rfl⟩, hput, rfl, rfl, ?_, ?_, rfl⟩
          · exact row.isEnabled_setColumns (req.descriptionFor row) (req.formatFor row) _
          · rw [← hlimit]
            rfl

/-- A successful `DELETE` takes the row off the table that it has read. -/
theorem deleteMountpoint_ok {id : ℤ} (hok : h.deleteMountpoint env (some id) = (h', .ok ())) :
    ∃ row ∈ h.acctSvc.mountpoints.rows,
      h'.acctSvc.mountpoints = h.acctSvc.mountpoints.delete row.id ∧
      h'.mgr = (h.deleteInMemory env row).mgr := by
  unfold deleteMountpoint at hok
  dsimp only at hok
  split at hok
  · cases hok
  next row hrow =>
    obtain ⟨hmem, rfl⟩ := AcctSvc.getMountPointRowByID_eq_some hrow
    split at hok
    · cases hok
    next svc hdelete =>
      obtain ⟨rfl, -⟩ := Prod.mk.inj hok
      refine ⟨row, hmem, ?_, rfl⟩
      rw [deleteInMemory, ignoreError_acctSvc] at hdelete
      rw [AcctSvc.deleteMountPointRow_ok hdelete]

/-- A mountpoint is created under a name that is free. -/
theorem createInMemory_mgr {req : CreateMountpointRequest} (hfree : h.mgr.get req.name = none) :
    (h.createInMemory cfg req).mgr = h.mgr.set req.name (newMountPoint req.name req.description
      req.formatOrDefault cfg.writeQueue cfg.writeTimeout req.maxClients) := by
  rw [createInMemory, ignoreError_mgr, Manager.create, hfree]
  rfl

/-- A mountpoint that the registry holds is updated; another is passed over. -/
theorem updateInMemory_mgr (cfg : MountpointDefaultsConfig) (env : AdminEnv) (h : Handlers)
    (row : MountPointRow) (req : UpdateMountpointRequest) :
    h.mgr.get row.name = none ∧ (h.updateInMemory cfg env row req).mgr = h.mgr ∨
      ∃ mp, (h.updateInMemory cfg env row req).mgr = h.mgr.set row.name mp ∧
        mp.enabled = req.enabledFor row ∧ mp.settings = ⟨req.descriptionFor row,
          req.formatFor row, cfg.writeQueue, cfg.writeTimeout, req.maxClientsFor row⟩ := by
  rw [updateInMemory, ignoreError_mgr, Manager.updateMountPoint]
  cases hget : h.mgr.get row.name with
  | none => exact .inl ⟨rfl, rfl⟩
  | some mp =>
    simp only [Option.map_some, Option.getD_some]
    split
    · exact .inr ⟨_, rfl, rfl, rfl⟩
    · exact .inr ⟨_, rfl, rfl, rfl⟩

theorem deleteInMemory_get (env : AdminEnv) (h : Handlers) (row : MountPointRow) :
    (h.deleteInMemory env row).mgr.get row.name = none ∧
      ∀ name, name ≠ row.name → (h.deleteInMemory env row).mgr.get name = h.mgr.get name := by
  rw [deleteInMemory, ignoreError_mgr, Manager.delete]
  cases hget : h.mgr.get row.name with
  | none => exact ⟨hget, fun _ _ => rfl⟩
  | some mp =>
    exact ⟨AList.lookup_erase _ _, fun name hne => AList.lookup_erase_ne hne⟩

/-! ## Steps -/

/-- The registry represents the table. -/
def Represented (cfg : MountpointDefaultsConfig) (h : Handlers) : Prop :=
  h.mgr.Represents cfg h.acctSvc.mountpoints

/-- The new row has no queue and no timeout of its own, and memory gets the defaults for them. -/
theorem Represented.create (hrep : h.Represented cfg) {req : CreateMountpointRequest}
    (hlimit : 0 ≤ req.maxClients)
    (hok : h.createMountpoint bc cfg env (some req) = (h', .ok ())) : h'.Represented cfg := by
  obtain ⟨row, hput, hnew, hname, hen, hset, hmgr⟩ := createMountpoint_ok hok
  -- a name that is not in the table is not in the registry
  have hfree : h.mgr.get req.name = none := by
    refine Option.eq_none_iff_forall_ne_some.mpr fun mp hmp => ?_
    obtain ⟨r, hr, hr', -⟩ := hrep.agrees req.name mp hmp
    exact (hnew r hr).2 hr'
  rw [createInMemory_mgr hfree] at hmgr
  rw [Represented, hmgr]
  refine Manager.Represents.puts hrep hput (fun r hr hid => ?_) (fun name hne => ?_) ?_ fun _ => ?_
  · exact absurd hid (hnew r hr).1
  · exact Manager.get_set_ne (hname ▸ hne) _
  · rw [hname, Manager.get_set_self]
    rintro mp ⟨⟩
    refine ⟨hen.symm, fun _ => ?_⟩
    rw [hset]
    split
    next => rfl
    next hpos =>
      have hzero : req.maxClients = 0 := by omega
      simp only [MountPoint.settings, newMountPoint, hzero]
  · rw [hname, Manager.get_set_self]
    rfl

/-- An update puts the defaults into memory and leaves the queue and timeout of the row as they are:
a row that ends up enabled must have no others, and be in the registry. -/
theorem Represented.update (hrep : h.Represented cfg) {id : ℤ} {req : UpdateMountpointRequest}
    (hguard : ∀ row ∈ h.acctSvc.mountpoints.byID id, req.enabledFor row = true →
      (h.mgr.get row.name).isSome = true ∧ row.queue cfg = cfg.writeQueue ∧
        row.timeout cfg = cfg.writeTimeout)
    (hok : h.updateMountpoint bc cfg env (some id) (some req) = (h', .ok ())) :
    h'.Represented cfg := by
  obtain ⟨old, new, hold, hput, rfl, hname, hen, hset, hmgr⟩ := updateMountpoint_ok hok
  obtain ⟨hmem, hid⟩ := Table.byID_eq_some.mp hold
  have hguard := hguard old hold
  have hid' : ∀ r ∈ h.acctSvc.mountpoints.rows, r.id = new.id → r.name = new.name := by
    intro r hr hr'
    rw [Table.eq_of_id hr hmem (hr'.trans hid.symm), hname]
  rw [Represented, hmgr]
  rcases updateInMemory_mgr cfg env h old req with ⟨hnone, hsame⟩ | ⟨mp, hsame, hmpen, hmpset⟩
  · -- the registry does not hold the mountpoint, which stays disabled
    rw [hsame]
    refine Manager.Represents.puts hrep hput hid' (fun _ _ => rfl) (fun mp hmp => ?_) fun hnew => ?_
    · rw [hname, hnone] at hmp
      cases hmp
    · have hsome := (hguard (hen ▸ hnew)).1
      rw [hnone] at hsome
      cases hsome
  · rw [hsame, ← hname]
    refine Manager.Represents.puts hrep hput hid' (fun name hne => ?_) (fun mp' hmp' => ?_)
      fun _ => ?_
    · exact Manager.get_set_ne hne mp
    · rw [Manager.get_set_self] at hmp'
      obtain rfl := Option.some.inj hmp'
      refine ⟨hmpen.trans hen.symm, fun hmp' => ?_⟩
      obtain ⟨-, hqueue, htimeout⟩ := hguard (hmpen ▸ hmp')
      rw [hmpset, hset, hqueue, htimeout]
    · rw [Manager.get_set_self]
      rfl

theorem Represented.delete (hrep : h.Represented cfg) {id : ℤ}
    (hok : h.deleteMountpoint env (some id) = (h', .ok ())) : h'.Represented cfg := by
  obtain ⟨row, hrow, htable, hmgr⟩ := deleteMountpoint_ok hok
  obtain ⟨hself, hother⟩ := deleteInMemory_get env h row
  rw [Represented, htable, hmgr]
  exact Manager.Represents.delete hrep hrow hother hself

theorem restart_represented (cfg : MountpointDefaultsConfig) (h : Handlers) :
    (h.restart cfg).Represented cfg :=
  Manager.represents_sync cfg h.acctSvc.mountpoints

/-- Every step that meets the condition keeps the registry in step with the table. -/
theorem Represented.step {a : MountpointStep} (hrep : h.Represented cfg)
    (hguard : KeepsSettings cfg h a) (hstep : h.mountpointStep bc cfg a = some h') :
    h'.Represented cfg := by
  cases a with
  | create env req => exact hrep.create hguard (succeeded_eq_some.mp hstep)
  | update env id req => exact hrep.update hguard (succeeded_eq_some.mp hstep)
  | delete env id => exact hrep.delete (succeeded_eq_some.mp hstep)
  | restart => exact Option.some.inj hstep ▸ restart_represented cfg h

end Handlers

/-- The enabled mountpoints of the registry and their settings are those that a restart would
load. -/
def MatchesRestart (cfg : MountpointDefaultsConfig) (h : Handlers) : Prop :=
  ∀ name, h.mgr.enabledSettings name = (h.restart cfg).mgr.enabledSettings name

/-- **The registry is what a restart would load** in a run in which no mountpoint is created with a
negative limit, and every mountpoint that an update leaves enabled is in the registry, and has no
queue size or timeout of its own that differs from the defaults. -/
theorem registry_restart {bc : Bcrypt} {cfg : MountpointDefaultsConfig} {h : Handlers}
    (hr : ((mountpointSystem bc cfg).restrict (KeepsSettings cfg)).Reachable h) :
    MatchesRestart cfg h := by
  have hrep : h.Represented cfg := by
    refine System.Reachable.restrict_invariant (I := fun h => h.Represented cfg) ?_
      (fun t a t' _ ht hguard hstep => ht.step hguard hstep) hr
    rintro t ⟨h₀, rfl⟩
    exact Handlers.restart_represented cfg h₀
  exact hrep.enabledSettings_eq (Handlers.restart_represented cfg h)

/-- A process that has just started on a table with the mountpoint `M`. -/
def startedM : Handlers :=
  Handlers.restart {} ⟨⟨.empty, ⟨[.new (ascii "M") [] (ascii "RTCM3") 1], 1,
    List.nodup_singleton _, List.nodup_singleton _, by simp [MountPointRow.new]⟩, ∅⟩, .new, ⟨[], []⟩⟩

/-- `PUT /api/mountpoints/1` with `enabled`. -/
def putEnabled (enabled : Bool) : MountpointStep := .update faultless 1 { enabled := some enabled }

/-- `M` is disabled and enabled, with no restart between. -/
theorem registry_restart_toggled :
    ∃ h, ((mountpointSystem plainBcrypt {}).restrict (KeepsSettings {})).run startedM
        [putEnabled false, putEnabled true] = some h ∧
      h.mgr.enabledSettings (ascii "M") = some ⟨[], ascii "RTCM3", 64, 3000000000, 0⟩ ∧
      MatchesRestart {} h := by
  obtain ⟨h, hrun, hset⟩ : ∃ h, ((mountpointSystem plainBcrypt {}).restrict
        (KeepsSettings {})).run startedM [putEnabled false, putEnabled true] = some h ∧
      h.mgr.enabledSettings (ascii "M") = some ⟨[], ascii "RTCM3", 64, 3000000000, 0⟩ :=
    ⟨_, rfl, rfl⟩
  exact ⟨h, hrun, hset, registry_restart (.of_run _ ⟨_, rfl⟩ hrun)⟩

/-- `M` is disabled, the process restarts, and `M` is enabled: the registry does not have it. -/
theorem registry_not_restart :
    ¬ ∀ (bc : Bcrypt) (cfg : MountpointDefaultsConfig) (h : Handlers),
      (mountpointSystem bc cfg).Reachable h → MatchesRestart cfg h := by
  intro hall
  obtain ⟨h, hrun, hnone, hsome⟩ : ∃ h, (mountpointSystem plainBcrypt {}).run startedM
        [putEnabled false, .restart, putEnabled true] = some h ∧
      h.mgr.enabledSettings (ascii "M") = none ∧
      ((h.restart {}).mgr.enabledSettings (ascii "M")).isSome = true := ⟨_, rfl, rfl, rfl⟩
  rw [← hall plainBcrypt {} h (.of_run _ ⟨_, rfl⟩ hrun) (ascii "M"), hnone] at hsome
  cases hsome

end NtripCaster
