import NtripCaster.Account.Service
import NtripCaster.Library.Table

/-!
# The account service behind the admin API

The `mountpoints` table of `internal/database/database.go`, and the functions of
`internal/account/service.go` that change rows, with the faults of their statements. Each is one
statement, so one that fails changes nothing. Bindings are left out.

## Main definitions

* `MountPointTable` and its statements
* `Statement`: what may fail on its own
* `AdminError`: the errors of the service and of the handlers
* `AcctSvc` and its functions
-/

namespace NtripCaster

open Tables

/-! ## The mountpoints table -/

/-- The `mountpoints` table. -/
abbrev MountPointTable := Table MountPointRow.id MountPointRow.name

namespace MountPointRow

variable (row : MountPointRow)

/-- `mp.Enabled = enabled != 0`. -/
def isEnabled : Bool := row.enabled != 0

/-- The scan of `max_clients`, which may be NULL. -/
def limit : ℤ := row.maxClients.getD 0

/-- The row that an `INSERT` of the three columns makes, by the defaults of the schema. -/
def new (name description format : Bytes) (id : ℤ) : MountPointRow where
  id := id
  name := name
  description := description
  enabled := 1
  format := format
  sourceAuthMode := ascii "user_binding"
  sourceSecretHash := none
  writeQueue := none
  writeTimeoutMs := none
  maxClients := some 0

/-- The columns that `UpdateMountPointRow` sets. -/
def setColumns (description format : Bytes) (enabled : Bool) : MountPointRow :=
  { row with
    description := description
    format := format
    enabled := if enabled then 1 else 0 }

theorem isEnabled_setColumns (description format : Bytes) (enabled : Bool) :
    (row.setColumns description format enabled).isEnabled = enabled := by
  cases enabled <;> rfl

end MountPointRow

namespace MountPointTable

variable (t : MountPointTable)

/-- `INSERT INTO mountpoints (name, description, format) VALUES (?, ?, ?)`. -/
def create (name description format : Bytes) : Option (MountPointTable × ℤ) :=
  t.insert name (.new name description format) fun _ => ⟨rfl, rfl⟩

/-- `UPDATE mountpoints SET description = ?, format = ?, enabled = ? WHERE id = ?`. -/
def setColumns (id : ℤ) (description format : Bytes) (enabled : Bool) : MountPointTable :=
  t.modify id (fun r => r.setColumns description format enabled) fun _ => ⟨rfl, rfl⟩

/-- `UPDATE mountpoints SET max_clients = ? WHERE id = ?`. -/
def setMaxClients (id maxClients : ℤ) : MountPointTable :=
  t.modify id (fun r => { r with maxClients := some maxClients }) fun _ => ⟨rfl, rfl⟩

/-- `UPDATE mountpoints SET source_secret_hash = ? WHERE id = ?`; NULL for `none`. -/
def setSourceSecret (id : ℤ) (hash : Option Bytes) : MountPointTable :=
  t.modify id (fun r => { r with sourceSecretHash := hash }) fun _ => ⟨rfl, rfl⟩

variable {t} {t' : MountPointTable} {row : MountPointRow}

theorem puts_setColumns (h : t.Puts row t') (description format : Bytes) (enabled : Bool) :
    t.Puts (row.setColumns description format enabled)
      (t'.setColumns row.id description format enabled) :=
  h.modify (fun r => r.setColumns description format enabled) fun _ => ⟨rfl, rfl⟩

theorem puts_setMaxClients (h : t.Puts row t') (maxClients : ℤ) :
    t.Puts { row with maxClients := some maxClients } (t'.setMaxClients row.id maxClients) :=
  h.modify (fun r => { r with maxClients := some maxClients }) fun _ => ⟨rfl, rfl⟩

theorem puts_setSourceSecret (h : t.Puts row t') (hash : Option Bytes) :
    t.Puts { row with sourceSecretHash := hash } (t'.setSourceSecret row.id hash) :=
  h.modify (fun r => { r with sourceSecretHash := hash }) fun _ => ⟨rfl, rfl⟩

end MountPointTable

/-! ## Faults -/

/-- A statement or a call of bcrypt that may fail on its own, named by the function of the service
that makes it. -/
inductive Statement
  | getUser
  | updateUser
  | updatePassword
  | deleteUser
  | createMountPointRow
  | getMountPointRowByID
  | updateMountPointRow
  | setMountPointMaxClients
  | setMountPointSourceSecret
  | deleteMountPointRow
  | generateFromPassword
  deriving DecidableEq, Repr

/-- The errors of the admin handlers. -/
inductive AdminError
  | invalidUserID
  | invalidMountpointID
  | invalidRequestBody
  | nameRequired
  | userNotFound
  | mountpointNotFound
  | insertMountpoint
  | updateUser
  | hashPassword
  | updatePassword
  | deleteUser
  | updateMountpoint
  | updateMaxClients
  | clearSourceSecret
  | hashSourceSecret
  | updateSourceSecret
  | deleteMountpoint
  deriving DecidableEq, Repr

namespace AdminError

/-- The HTTP status of the answer. -/
def status : AdminError → ℕ
  | invalidUserID | invalidMountpointID | invalidRequestBody | nameRequired => 400
  | userNotFound | mountpointNotFound => 404
  | insertMountpoint => 409
  | _ => 500

/-- The text of the answer; the text of the driver or of bcrypt follows a colon. -/
def text : AdminError → String
  | invalidUserID => "invalid user id"
  | invalidMountpointID => "invalid mountpoint id"
  | invalidRequestBody => "invalid request body"
  | nameRequired => "name is required"
  | userNotFound => "user not found"
  | mountpointNotFound => "mountpoint not found"
  | insertMountpoint => "insert mountpoint: "
  | updateUser => "update user: "
  | hashPassword => "hash password: "
  | updatePassword => "update password: "
  | deleteUser => "delete user: "
  | updateMountpoint => "update mountpoint: "
  | updateMaxClients => "update mountpoint max_clients: "
  | clearSourceSecret => "clear mountpoint source secret: "
  | hashSourceSecret => "hash mountpoint source secret: "
  | updateSourceSecret => "update mountpoint source secret: "
  | deleteMountpoint => "delete mountpoint: "

end AdminError

/-! ## The service -/

/-- The tables and the authentication cache. -/
structure AcctSvc where
  users : UserTable
  mountpoints : MountPointTable
  authCache : GoMap Bytes AuthCacheEntry

namespace AcctSvc

variable (bc : Bcrypt) (fails : Statement → Bool) (s : AcctSvc)

/-- The service that the connection handlers see. -/
def toService : Service := ⟨s.users, s.mountpoints.rows, [], s.authCache⟩

/-- The users and the cache after a call of the service. -/
def withUsers (svc : Service) : AcctSvc :=
  { s with users := svc.users, authCache := svc.authCache }

/-- `GetUser`: `none` for an error as for no row, since the handler makes no difference. -/
def getUser (id : ℤ) : Option User :=
  if fails .getUser then none else (s.users.byID id).map UserRow.scan

/-- `UpdateUser`. -/
def updateUser (id : ℤ) (role : Bytes) (enabled : Bool) : Except AdminError AcctSvc :=
  if fails .updateUser then .error .updateUser
  else .ok (s.withUsers (s.toService.updateUser id role enabled))

/-- `GenerateFromPassword`, with the salt it draws. -/
def generateFromPassword (salt password : Bytes) : Option Bytes :=
  if fails .generateFromPassword then none else bc.generateFromPassword salt password

/-- `UpdatePassword`. -/
def updatePassword (salt : Bytes) (id : ℤ) (newPassword : Bytes) : Except AdminError AcctSvc :=
  match generateFromPassword bc fails salt newPassword with
  | none => .error .hashPassword
  | some hash =>
    if fails .updatePassword then .error .updatePassword
    else
      .ok (s.withUsers { s.toService with
        users := s.toService.updatePasswordRow id hash }.cacheClear)

/-- `DeleteUser`. -/
def deleteUser (id : ℤ) : Except AdminError AcctSvc :=
  if fails .deleteUser then .error .deleteUser else .ok (s.withUsers (s.toService.deleteUser id))

/-- `CreateMountPointRow`: the service and the id of the new row. -/
def createMountPointRow (name description format : Bytes) : Except AdminError (AcctSvc × ℤ) :=
  match if fails .createMountPointRow then none
    else s.mountpoints.create name description format with
  | none => .error .insertMountpoint
  | some (mountpoints, id) => .ok ({ s with mountpoints := mountpoints }, id)

/-- `GetMountPointRowByID`: `none` for an error as for no row. -/
def getMountPointRowByID (id : ℤ) : Option MountPointRow :=
  if fails .getMountPointRowByID then none else s.mountpoints.byID id

/-- `UpdateMountPointRow`. -/
def updateMountPointRow (id : ℤ) (description format : Bytes) (enabled : Bool) :
    Except AdminError AcctSvc :=
  if fails .updateMountPointRow then .error .updateMountpoint
  else .ok { s with mountpoints := s.mountpoints.setColumns id description format enabled }

/-- `SetMountPointMaxClients`. -/
def setMountPointMaxClients (id maxClients : ℤ) : Except AdminError AcctSvc :=
  if fails .setMountPointMaxClients then .error .updateMaxClients
  else .ok { s with mountpoints := s.mountpoints.setMaxClients id maxClients }

/-- `SetMountPointSourceSecret`: an empty secret clears the hash. -/
def setMountPointSourceSecret (salt : Bytes) (id : ℤ) (secret : Bytes) :
    Except AdminError AcctSvc :=
  if secret = [] then
    if fails .setMountPointSourceSecret then .error .clearSourceSecret
    else .ok { s with mountpoints := s.mountpoints.setSourceSecret id none }
  else
    match generateFromPassword bc fails salt secret with
    | none => .error .hashSourceSecret
    | some hash =>
      if fails .setMountPointSourceSecret then .error .updateSourceSecret
      else .ok { s with mountpoints := s.mountpoints.setSourceSecret id (some hash) }

/-- `DeleteMountPointRow`. -/
def deleteMountPointRow (id : ℤ) : Except AdminError AcctSvc :=
  if fails .deleteMountPointRow then .error .deleteMountpoint
  else .ok { s with mountpoints := s.mountpoints.delete id }

/-! ### Calls that succeed -/

variable {bc fails s} {s' : AcctSvc} {id : ℤ}

theorem of_ite_ok {α : Type} {p : Prop} [Decidable p] {e : AdminError} {a a' : α}
    (h : (if p then .error e else .ok a : Except AdminError α) = .ok a') : ¬ p ∧ a' = a := by
  split at h
  next => cases h
  next hp => exact ⟨hp, (Except.ok.inj h).symm⟩

theorem updateUser_ok {role : Bytes} {enabled : Bool}
    (h : s.updateUser fails id role enabled = .ok s') :
    fails .updateUser = false ∧ s' = s.withUsers (s.toService.updateUser id role enabled) :=
  (of_ite_ok h).imp_left Bool.eq_false_iff.mpr

theorem updatePassword_ok {salt newPassword : Bytes}
    (h : s.updatePassword bc fails salt id newPassword = .ok s') :
    ∃ hash, s' = s.withUsers { s.toService with
      users := s.toService.updatePasswordRow id hash }.cacheClear := by
  unfold updatePassword at h
  split at h
  next => cases h
  next hash _ => exact ⟨hash, (of_ite_ok h).2⟩

theorem deleteUser_ok (h : s.deleteUser fails id = .ok s') :
    fails .deleteUser = false ∧ s' = s.withUsers (s.toService.deleteUser id) :=
  (of_ite_ok h).imp_left Bool.eq_false_iff.mpr

theorem createMountPointRow_ok {name description format : Bytes}
    (h : s.createMountPointRow fails name description format = .ok (s', id)) :
    ∃ mountpoints, s.mountpoints.create name description format = some (mountpoints, id) ∧
      s' = { s with mountpoints := mountpoints } := by
  unfold createMountPointRow at h
  split at h
  next => cases h
  next mountpoints i hcreate =>
    obtain ⟨rfl, rfl⟩ := Prod.mk.inj (Except.ok.inj h)
    exact ⟨mountpoints, (Option.ite_none_left_eq_some.mp hcreate).2, rfl⟩

theorem updateMountPointRow_ok {description format : Bytes} {enabled : Bool}
    (h : s.updateMountPointRow fails id description format enabled = .ok s') :
    s' = { s with mountpoints := s.mountpoints.setColumns id description format enabled } :=
  (of_ite_ok h).2

theorem setMountPointMaxClients_ok {maxClients : ℤ}
    (h : s.setMountPointMaxClients fails id maxClients = .ok s') :
    s' = { s with mountpoints := s.mountpoints.setMaxClients id maxClients } :=
  (of_ite_ok h).2

theorem setMountPointSourceSecret_ok {salt secret : Bytes}
    (h : s.setMountPointSourceSecret bc fails salt id secret = .ok s') :
    ∃ hash, s' = { s with mountpoints := s.mountpoints.setSourceSecret id hash } := by
  unfold setMountPointSourceSecret at h
  split at h
  next => exact ⟨none, (of_ite_ok h).2⟩
  next =>
    split at h
    next => cases h
    next hash _ => exact ⟨some hash, (of_ite_ok h).2⟩

theorem deleteMountPointRow_ok (h : s.deleteMountPointRow fails id = .ok s') :
    s' = { s with mountpoints := s.mountpoints.delete id } :=
  (of_ite_ok h).2

end AcctSvc

end NtripCaster
