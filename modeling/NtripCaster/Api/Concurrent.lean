import NtripCaster.Api.Handlers
import NtripCaster.Library.Patch

/-!
# Concurrent updates of a row

The `PUT` requests on one user, or on one mountpoint, with their reads and writes of the database
interleaved. Both handlers read the row, fill what the body leaves out from it, and write all of it
back, apart from the client limit and the secret of a mountpoint, which are written when they are
given. So a request undoes what others have changed since it has read the row.

## Main definitions

* `userResource`, `mountpointResource`: the two rows as resources of `Patching`

## Main results

* `updateUser_statements`, `updateMountpoint_statements`: the statements are those of the handlers
* `no_lost_update`: no update is lost where every write finds the fields that its request leaves
  out as it has read them
* `lost_update`: a change of the role enables a user who was just disabled
-/

namespace NtripCaster

open Patching Tables Transition

/-! ## Users -/

/-- The fields of a user that `PUT /api/users/{id}` sets. -/
inductive UserField
  | role
  | enabled
  deriving DecidableEq, Repr

namespace UserField

instance : Fintype UserField := ⟨{role, enabled}, fun f => by cases f <;> decide⟩

/-- The type of a column of `users` that a request may set. -/
def Value : UserField → Type
  | role => Bytes
  | enabled => Bool

instance : ∀ f : UserField, DecidableEq f.Value
  | role => inferInstanceAs (DecidableEq Bytes)
  | enabled => inferInstanceAs (DecidableEq Bool)

end UserField

/-- A request, with the hash that bcrypt makes of its password. -/
structure PutUser where
  req : UpdateUserRequest
  hash : Bytes := []
  deriving DecidableEq, Repr

/-- The statements of `UpdateUser` and `UpdatePassword`. -/
inductive UserStatement
  | updateUser (role : Bytes) (enabled : Bool)
  | updatePassword (hash : Bytes)
  deriving DecidableEq, Repr

/-- The service, with a row for user `id`. -/
structure StoredUser (id : ℤ) where
  svc : AcctSvc
  isSome : (svc.users.byID id).isSome = true

namespace StoredUser

variable {id : ℤ} (s : StoredUser id)

/-- The row as `GetUser` returns it. -/
def user : User := ((s.svc.users.byID id).get s.isSome).scan

/-- `UPDATE` of the row, and the clear of the cache. -/
def modify (f : UserRow → UserRow) (hf : ∀ r, (f r).id = r.id ∧ (f r).username = r.username) :
    StoredUser id :=
  ⟨{ s.svc with users := s.svc.users.modify id f hf, authCache := ∅ }, by
    rw [Table.byID_modify, Option.isSome_map]
    exact s.isSome⟩

theorem user_modify (f : UserRow → UserRow)
    (hf : ∀ r, (f r).id = r.id ∧ (f r).username = r.username) :
    (s.modify f hf).user = (f ((s.svc.users.byID id).get s.isSome)).scan := by
  simp only [user, modify, Table.byID_modify, Option.get_map]

theorem updateUser_keys (role : Bytes) (enabled : Bool) (r : UserRow) :
    { r with role := role, enabled := if enabled then 1 else 0 }.id = r.id ∧
      { r with role := role, enabled := if enabled then 1 else 0 }.username = r.username :=
  ⟨rfl, rfl⟩

theorem updatePassword_keys (hash : Bytes) (r : UserRow) :
    { r with passwordHash := hash }.id = r.id ∧
      { r with passwordHash := hash }.username = r.username :=
  ⟨rfl, rfl⟩

/-- A statement, run. -/
def exec : UserStatement → StoredUser id
  | .updateUser role enabled =>
    s.modify (fun r => { r with role := role, enabled := if enabled then 1 else 0 })
      (updateUser_keys role enabled)
  | .updatePassword hash =>
    s.modify (fun r => { r with passwordHash := hash }) (updatePassword_keys hash)

/-- The row is read as the service reads it. -/
theorem getUser_eq : s.svc.getUser (fun _ => false) id = some s.user := by
  rw [AcctSvc.getUser, if_neg nofun, user, ← Option.map_some (f := UserRow.scan), Option.some_get]

/-- The statements are those of the service. -/
theorem updateUser_eq (role : Bytes) (enabled : Bool) :
    s.svc.updateUser (fun _ => false) id role enabled =
      .ok (s.exec (.updateUser role enabled)).svc :=
  rfl

theorem updatePassword_eq {bc : Bcrypt} {salt password hash : Bytes}
    (h : bc.generateFromPassword salt password = some hash) :
    s.svc.updatePassword bc (fun _ => false) salt id password =
      .ok (s.exec (.updatePassword hash)).svc := by
  simp only [AcctSvc.updatePassword, AcctSvc.generateFromPassword, h]
  rfl

theorem user_updateUser (role : Bytes) (enabled : Bool) :
    (s.exec (.updateUser role enabled)).user =
      { s.user with role := role, enabled := enabled } := by
  rw [exec, user_modify]
  cases enabled <;> rfl

theorem user_updatePassword (hash : Bytes) :
    (s.exec (.updatePassword hash)).user = { s.user with passwordHash := hash } := by
  rw [exec, user_modify]
  rfl

end StoredUser

/-- The requests on user `id`. -/
def userResource (id : ℤ) :
    Resource (StoredUser id) User PutUser UserStatement UserField UserField.Value where
  read := StoredUser.user
  field user
    | .role => user.role
    | .enabled => user.enabled
  given body
    | .role => if body.req.role ≠ [] then some body.req.role else none
    | .enabled => body.req.enabled
  statements body user :=
    .updateUser (body.req.roleFor user) (body.req.enabledFor user) ::
      if body.req.password ≠ [] then [.updatePassword body.hash] else []
  exec t s := s.exec t
  writes
    | .updateUser .., _ => true
    | .updatePassword _, _ => false
  field_exec body user t ht s f := by
    rcases List.mem_cons.mp ht with rfl | ht
    · rw [StoredUser.user_updateUser]
      cases f with
      | role =>
        dsimp only [UpdateUserRequest.roleFor]
        split <;> rfl
      | enabled => rfl
    · obtain rfl : t = .updatePassword body.hash := by
        split at ht
        · exact List.mem_singleton.mp ht
        · cases ht
      rw [StoredUser.user_updatePassword]
      cases f <;> rfl
  writes_given body user f _ := ⟨_, List.mem_cons_self, rfl⟩

/-- The handler runs these statements, if nothing comes between and none of them fails. -/
theorem updateUser_statements (bc : Bcrypt) {env : AdminEnv} (henv : env.fails = fun _ => false)
    {h : Handlers} {id : ℤ} {s : StoredUser id} (hs : h.acctSvc = s.svc) {body : PutUser}
    (hhash : body.req.password ≠ [] →
      bc.generateFromPassword env.salt body.req.password = some body.hash) :
    (h.updateUser bc env (some id) (some body.req)).1.acctSvc =
      (((userResource id).statements body s.user).foldl StoredUser.exec s).svc := by
  simp only [Handlers.updateUser, henv, hs, s.getUser_eq, s.updateUser_eq]
  by_cases hpw : body.req.password = []
  · simp only [hpw, ne_eq, not_true_eq_false, if_false, userResource, List.foldl_cons,
      List.foldl_nil]
    split <;> rfl
  · simp only [if_pos hpw, StoredUser.updatePassword_eq _ (hhash hpw), userResource,
      List.foldl_cons, List.foldl_nil]
    split <;> rfl

/-! ## Mountpoints -/

/-- The fields of a mountpoint that `PUT /api/mountpoints/{id}` sets. -/
inductive MountpointField
  | description
  | format
  | enabled
  | maxClients
  deriving DecidableEq, Repr

namespace MountpointField

instance : Fintype MountpointField :=
  ⟨{description, format, enabled, maxClients}, fun f => by cases f <;> decide⟩

/-- The type of a column of `mountpoints` that a request may set. -/
def Value : MountpointField → Type
  | description | format => Bytes
  | enabled => Bool
  | maxClients => ℤ

instance : ∀ f : MountpointField, DecidableEq f.Value
  | description => inferInstanceAs (DecidableEq Bytes)
  | format => inferInstanceAs (DecidableEq Bytes)
  | enabled => inferInstanceAs (DecidableEq Bool)
  | maxClients => inferInstanceAs (DecidableEq ℤ)

end MountpointField

/-- A request, with the hash that bcrypt makes of its secret. -/
structure PutMountpoint where
  req : UpdateMountpointRequest
  hash : Bytes := []
  deriving DecidableEq, Repr

/-- The statements of `UpdateMountPointRow`, `SetMountPointMaxClients` and
`SetMountPointSourceSecret`. -/
inductive MountpointStatement
  | updateMountPointRow (description format : Bytes) (enabled : Bool)
  | setMountPointMaxClients (maxClients : ℤ)
  | setMountPointSourceSecret (hash : Option Bytes)
  deriving DecidableEq, Repr

/-- The service, with a row for mountpoint `id`. -/
structure StoredMountpoint (id : ℤ) where
  svc : AcctSvc
  isSome : (svc.mountpoints.byID id).isSome = true

namespace StoredMountpoint

variable {id : ℤ} (s : StoredMountpoint id)

/-- The row as `GetMountPointRowByID` returns it. -/
def row : MountPointRow := (s.svc.mountpoints.byID id).get s.isSome

/-- `UPDATE` of the row. -/
def modify (f : MountPointRow → MountPointRow) (hf : ∀ r, (f r).id = r.id ∧ (f r).name = r.name) :
    StoredMountpoint id :=
  ⟨{ s.svc with mountpoints := s.svc.mountpoints.modify id f hf }, by
    rw [Table.byID_modify, Option.isSome_map]
    exact s.isSome⟩

@[simp] theorem row_modify (f : MountPointRow → MountPointRow)
    (hf : ∀ r, (f r).id = r.id ∧ (f r).name = r.name) : (s.modify f hf).row = f s.row := by
  simp only [row, modify, Table.byID_modify, Option.get_map]

theorem setColumns_keys (description format : Bytes) (enabled : Bool) (r : MountPointRow) :
    (r.setColumns description format enabled).id = r.id ∧
      (r.setColumns description format enabled).name = r.name :=
  ⟨rfl, rfl⟩

theorem setMaxClients_keys (maxClients : ℤ) (r : MountPointRow) :
    { r with maxClients := some maxClients }.id = r.id ∧
      { r with maxClients := some maxClients }.name = r.name :=
  ⟨rfl, rfl⟩

theorem setSourceSecret_keys (hash : Option Bytes) (r : MountPointRow) :
    { r with sourceSecretHash := hash }.id = r.id ∧
      { r with sourceSecretHash := hash }.name = r.name :=
  ⟨rfl, rfl⟩

/-- A statement, run. -/
def exec : MountpointStatement → StoredMountpoint id
  | .updateMountPointRow description format enabled =>
    s.modify (fun r => r.setColumns description format enabled)
      (setColumns_keys description format enabled)
  | .setMountPointMaxClients maxClients =>
    s.modify (fun r => { r with maxClients := some maxClients }) (setMaxClients_keys maxClients)
  | .setMountPointSourceSecret hash =>
    s.modify (fun r => { r with sourceSecretHash := hash }) (setSourceSecret_keys hash)

/-- The row is read as the service reads it. -/
theorem getMountPointRowByID_eq :
    s.svc.getMountPointRowByID (fun _ => false) id = some s.row := by
  rw [AcctSvc.getMountPointRowByID, if_neg nofun, row, Option.some_get]

/-- The statements are those of the service. -/
theorem updateMountPointRow_eq (description format : Bytes) (enabled : Bool) :
    s.svc.updateMountPointRow (fun _ => false) id description format enabled =
      .ok (s.exec (.updateMountPointRow description format enabled)).svc :=
  rfl

theorem setMountPointMaxClients_eq (maxClients : Option ℤ) :
    maxClients.elim (.ok s.svc) (s.svc.setMountPointMaxClients (fun _ => false) id) =
      .ok ((maxClients.map .setMountPointMaxClients).toList.foldl exec s).svc := by
  cases maxClients <;> rfl

theorem setMountPointSourceSecret_eq {bc : Bcrypt} {salt hash : Bytes} {sourceSecret : Option Bytes}
    (h : ∀ secret ∈ sourceSecret, secret ≠ [] → bc.generateFromPassword salt secret = some hash) :
    sourceSecret.elim (.ok s.svc)
        (s.svc.setMountPointSourceSecret bc (fun _ => false) salt id) =
      .ok ((sourceSecret.map fun secret => MountpointStatement.setMountPointSourceSecret
        (if secret = [] then none else some hash)).toList.foldl exec s).svc := by
  cases sourceSecret with
  | none => rfl
  | some secret =>
    rw [Option.elim_some, AcctSvc.setMountPointSourceSecret, AcctSvc.generateFromPassword,
      Option.map_some]
    by_cases hne : secret = []
    · rw [if_pos hne, if_pos hne]
      rfl
    · rw [if_neg hne, if_neg hne, h secret rfl hne]
      rfl

end StoredMountpoint

namespace UpdateMountpointRequest

variable (req : UpdateMountpointRequest) (hash : Bytes)

/-- The statements that the handler runs only for a field that is given. -/
def optional : List MountpointStatement :=
  (req.maxClients.map MountpointStatement.setMountPointMaxClients).toList ++
    (req.sourceSecret.map fun secret =>
      MountpointStatement.setMountPointSourceSecret (if secret = [] then none else some hash)).toList

variable {req hash}

theorem mem_optional {t : MountpointStatement} (ht : t ∈ req.optional hash) :
    (∃ n, req.maxClients = some n ∧ t = .setMountPointMaxClients n) ∨
      ∃ hash, t = .setMountPointSourceSecret hash := by
  rcases List.mem_append.mp ht with ht | ht
  · obtain ⟨n, hn, rfl⟩ := Option.map_eq_some_iff.mp (Option.mem_toList.mp ht)
    exact .inl ⟨n, hn, rfl⟩
  · obtain ⟨secret, -, rfl⟩ := Option.map_eq_some_iff.mp (Option.mem_toList.mp ht)
    exact .inr ⟨_, rfl⟩

end UpdateMountpointRequest

/-- The requests on mountpoint `id`. -/
def mountpointResource (id : ℤ) :
    Resource (StoredMountpoint id) MountPointRow PutMountpoint MountpointStatement MountpointField
      MountpointField.Value where
  read := StoredMountpoint.row
  field row
    | .description => row.description
    | .format => row.format
    | .enabled => row.isEnabled
    | .maxClients => row.limit
  given body
    | .description => if body.req.description ≠ [] then some body.req.description else none
    | .format => if body.req.format ≠ [] then some body.req.format else none
    | .enabled => body.req.enabled
    | .maxClients => body.req.maxClients
  statements body row :=
    .updateMountPointRow (body.req.descriptionFor row) (body.req.formatFor row)
      (body.req.enabledFor row) :: body.req.optional body.hash
  exec t s := s.exec t
  writes
    | .updateMountPointRow .., f => f != .maxClients
    | .setMountPointMaxClients _, f => f == .maxClients
    | .setMountPointSourceSecret _, _ => false
  field_exec body row t ht s f := by
    rcases List.mem_cons.mp ht with rfl | ht
    · rw [StoredMountpoint.exec, StoredMountpoint.row_modify]
      cases f with
      | description =>
        dsimp only [UpdateMountpointRequest.descriptionFor, MountPointRow.setColumns]
        split <;> rfl
      | format =>
        dsimp only [UpdateMountpointRequest.formatFor, MountPointRow.setColumns]
        split <;> rfl
      | enabled => exact s.row.isEnabled_setColumns _ _ _
      | maxClients => rfl
    · rcases UpdateMountpointRequest.mem_optional ht with ⟨n, hn, rfl⟩ | ⟨hash, rfl⟩
      · rw [StoredMountpoint.exec, StoredMountpoint.row_modify]
        cases f with
        | maxClients =>
          dsimp only [MountPointRow.limit]
          rw [hn]
          rfl
        | _ => rfl
      · rw [StoredMountpoint.exec, StoredMountpoint.row_modify]
        cases f <;> rfl
  writes_given body row f hf := by
    cases f with
    | maxClients =>
      obtain ⟨n, hn⟩ := Option.isSome_iff_exists.mp hf
      dsimp only at hn
      exact ⟨.setMountPointMaxClients n,
        List.mem_cons_of_mem _ (List.mem_append_left _ (by rw [hn]; exact List.mem_cons_self)), rfl⟩
    | _ => exact ⟨_, List.mem_cons_self, rfl⟩

/-- The handler runs these statements, if nothing comes between and none of them fails. -/
theorem updateMountpoint_statements (bc : Bcrypt) (cfg : MountpointDefaultsConfig) {env : AdminEnv}
    (henv : env.fails = fun _ => false) {h : Handlers} {id : ℤ} {s : StoredMountpoint id}
    (hs : h.acctSvc = s.svc) {body : PutMountpoint}
    (hhash : ∀ secret ∈ body.req.sourceSecret, secret ≠ [] →
      bc.generateFromPassword env.salt secret = some body.hash) :
    (h.updateMountpoint bc cfg env (some id) (some body.req)).1.acctSvc =
      (((mountpointResource id).statements body s.row).foldl StoredMountpoint.exec s).svc := by
  simp only [Handlers.updateMountpoint, henv, hs, s.getMountPointRowByID_eq,
    s.updateMountPointRow_eq, StoredMountpoint.setMountPointMaxClients_eq,
    StoredMountpoint.setMountPointSourceSecret_eq _ hhash]
  simp only [mountpointResource, UpdateMountpointRequest.optional, List.foldl_cons,
    List.foldl_append]
  exact Handlers.ignoreError_acctSvc _ _

/-! ## Updates -/

/-- **No update of a user or of a mountpoint is lost** in the runs where every statement finds the
fields that it writes and its request leaves out as the request has read them. -/
theorem no_lost_update {id id' : ℤ} (user : StoredUser id) (mountpoint : StoredMountpoint id') :
    (userResource id).LosesNothingIff user ∧ (mountpointResource id').LosesNothingIff mountpoint :=
  ⟨Resource.losesNothingIff _ user, Resource.losesNothingIff _ mountpoint⟩

/-- A rover who is enabled. -/
def enabledRover : StoredUser 1 :=
  ⟨⟨⟨[⟨1, ascii "u", [], roleRover, 1⟩], 1, List.nodup_singleton _, List.nodup_singleton _,
    fun _ hr => (List.mem_singleton.mp hr ▸ Int.le_refl 1)⟩, .empty, ∅⟩, rfl⟩

/-- A request that disables a user. -/
def disableRover : PutUser := { req := { enabled := some false } }

/-- A request that makes a user a base station. -/
def makeBase : PutUser := { req := { role := roleBase } }

/-- The user is disabled by one request, after another one that gives a role has read. -/
theorem lost_update :
    ¬ ∀ id before, (userResource id).LosesNothing ((userResource id).system before) before := by
  intro hall
  obtain ⟨s, hs, hrequests, hstored⟩ : ∃ s,
      ((userResource 1).system enabledRover).run ⟨enabledRover, [], []⟩
        [.start disableRover, .start makeBase, .advance 0, .advance 1, .advance 0, .advance 1] =
          some s ∧
      s.requests = [⟨disableRover, .write enabledRover.user []⟩,
        ⟨makeBase, .write enabledRover.user []⟩] ∧
      s.stored.user.enabled = true := ⟨_, rfl, rfl, rfl⟩
  have hdone : ∀ r ∈ s.requests, r.isDone = true := by
    rw [hrequests]
    exact List.forall_mem_cons.mpr ⟨rfl, List.forall_mem_singleton.mpr rfl⟩
  rcases (hall 1 enabledRover s (.of_run _ rfl hs)).1 hdone .enabled with
    ⟨hnone, -⟩ | ⟨_, w, _, r, v, -, -, -, hr, hgiven, hv⟩
  · rw [hrequests] at hnone
    cases hnone _ List.mem_cons_self
  · have hmem : r ∈ s.requests := List.mem_of_getElem? hr
    rw [hrequests] at hmem
    rcases List.mem_cons.mp hmem with rfl | hmem
    · obtain rfl := Option.some.inj hgiven
      cases hstored.symm.trans hv
    · rw [List.mem_singleton.mp hmem] at hgiven
      cases hgiven

end NtripCaster
