import NtripCaster.Api.Requests
import NtripCaster.Config.Config
import NtripCaster.Mountpoint.Manager

/-!
# Admin handlers

The handlers of `internal/api/handlers.go` that change users and mountpoints, from start to answer
with nothing going on beside them. Each is a chain of writes to the database and to the registry,
and returns at the first error. The errors of the registry are ignored.

## Main definitions

* `Connections`: the live connections
* `Handlers`: what the handlers work on
* `AdminEnv`: what they get from outside
* `Handlers.updateUser`, `deleteUser`, `createMountpoint`, `updateMountpoint`, `deleteMountpoint`
-/

namespace NtripCaster

/-- The connections that are open. -/
structure Connections where
  sources : List SourceInfo
  clients : List Client
  deriving DecidableEq, Repr

/-- What is torn down is closed. -/
def Connections.teardown (conns : Connections) (t : Teardown) : Connections where
  sources := conns.sources.filter fun src => t.stop != some src
  clients := conns.clients.filter fun c => c ∉ t.kick

/-- `Handlers`, with the state that its pointers lead to. -/
structure Handlers where
  acctSvc : AcctSvc
  mgr : Manager
  conns : Connections

/-- What a handler gets from outside: which statements fail, the salt of bcrypt, and the orders of
the loops over mountpoints and clients. -/
structure AdminEnv where
  fails : Statement → Bool
  salt : Bytes
  visit : RangeOrder Bytes
  ord : RangeOrder Client
  ord' : RangeOrder Client

/-- Nothing fails. -/
def faultless : AdminEnv := ⟨fun _ => false, [], .stored, .stored, .stored⟩

namespace Handlers

variable (bc : Bcrypt) (cfg : MountpointDefaultsConfig) (env : AdminEnv) (h : Handlers)

/-! ## The registry -/

/-- `h.mgr.DisconnectUser`. -/
def disconnectUser (id : ℤ) : Handlers :=
  { h with
    mgr := (h.mgr.disconnectUser env.visit env.ord env.ord' id).1
    conns := (h.mgr.disconnectUser env.visit env.ord env.ord' id).2.foldl .teardown h.conns }

/-- A call of the registry whose error is ignored. -/
def ignoreError (r : Option (Manager × Teardown)) : Handlers :=
  match r with
  | none => h
  | some (mgr, t) => { h with mgr := mgr, conns := h.conns.teardown t }

/-- The registry has no part in the tables. -/
@[simp] theorem ignoreError_acctSvc (r : Option (Manager × Teardown)) :
    (h.ignoreError r).acctSvc = h.acctSvc := by
  cases r <;> rfl

theorem ignoreError_mgr (r : Option (Manager × Teardown)) :
    (h.ignoreError r).mgr = (r.map Prod.fst).getD h.mgr := by
  cases r <;> rfl

/-- `h.mgr.Create` with the defaults. -/
def createInMemory (req : CreateMountpointRequest) : Handlers :=
  h.ignoreError ((h.mgr.create req.name req.description req.formatOrDefault cfg.writeQueue
    cfg.writeTimeout req.maxClients).map fun mgr => (mgr, {}))

/-- `h.mgr.UpdateMountPoint` with the defaults. -/
def updateInMemory (row : MountPointRow) (req : UpdateMountpointRequest) : Handlers :=
  h.ignoreError (h.mgr.updateMountPoint env.ord row.name (req.descriptionFor row)
    (req.formatFor row) (req.enabledFor row) cfg.writeQueue cfg.writeTimeout
    (req.maxClientsFor row))

/-- `h.mgr.Delete`. -/
def deleteInMemory (row : MountPointRow) : Handlers :=
  h.ignoreError (h.mgr.delete env.ord row.name)

/-! ## Handlers -/

/-- `PUT /api/users/{id}`: the id and the body, each `none` if it does not parse. -/
def updateUser (id : Option ℤ) (body : Option UpdateUserRequest) :
    Handlers × Except AdminError Unit :=
  match id, body with
  | none, _ => (h, .error .invalidUserID)
  | some _, none => (h, .error .invalidRequestBody)
  | some id, some req =>
    match h.acctSvc.getUser env.fails id with
    | none => (h, .error .userNotFound)
    | some user =>
      match h.acctSvc.updateUser env.fails id (req.roleFor user) (req.enabledFor user) with
      | .error e => (h, .error e)
      | .ok svc =>
        let h := { h with acctSvc := svc }
        match
          if req.password ≠ [] then svc.updatePassword bc env.fails env.salt id req.password
          else .ok svc with
        | .error e => (h, .error e)
        | .ok svc =>
          let h := { h with acctSvc := svc }
          if user.enabled && !req.enabledFor user then (h.disconnectUser env id, .ok ())
          else (h, .ok ())

/-- `DELETE /api/users/{id}`. -/
def deleteUser (id : Option ℤ) : Handlers × Except AdminError Unit :=
  match id with
  | none => (h, .error .invalidUserID)
  | some id =>
    let h := h.disconnectUser env id
    match h.acctSvc.deleteUser env.fails id with
    | .error e => (h, .error e)
    | .ok svc => ({ h with acctSvc := svc }, .ok ())

/-- `POST /api/mountpoints`. -/
def createMountpoint (body : Option CreateMountpointRequest) : Handlers × Except AdminError Unit :=
  match body with
  | none => (h, .error .invalidRequestBody)
  | some req =>
    if req.name = [] then (h, .error .nameRequired)
    else
      match h.acctSvc.createMountPointRow env.fails req.name req.description
          req.formatOrDefault with
      | .error e => (h, .error e)
      | .ok (svc, id) =>
        let h := { h with acctSvc := svc }
        match
          if req.sourceSecret ≠ [] then
            svc.setMountPointSourceSecret bc env.fails env.salt id req.sourceSecret
          else .ok svc with
        | .error e => (h, .error e)
        | .ok svc =>
          let h := { h with acctSvc := svc }
          match
            if 0 < req.maxClients then svc.setMountPointMaxClients env.fails id req.maxClients
            else .ok svc with
          | .error e => (h, .error e)
          | .ok svc => ({ h with acctSvc := svc }.createInMemory cfg req, .ok ())

/-- `PUT /api/mountpoints/{id}`. -/
def updateMountpoint (id : Option ℤ) (body : Option UpdateMountpointRequest) :
    Handlers × Except AdminError Unit :=
  match id, body with
  | none, _ => (h, .error .invalidMountpointID)
  | some _, none => (h, .error .invalidRequestBody)
  | some id, some req =>
    match h.acctSvc.getMountPointRowByID env.fails id with
    | none => (h, .error .mountpointNotFound)
    | some row =>
      match h.acctSvc.updateMountPointRow env.fails id (req.descriptionFor row)
          (req.formatFor row) (req.enabledFor row) with
      | .error e => (h, .error e)
      | .ok svc =>
        let h := { h with acctSvc := svc }
        match req.maxClients.elim (.ok svc) (svc.setMountPointMaxClients env.fails id) with
        | .error e => (h, .error e)
        | .ok svc =>
          let h := { h with acctSvc := svc }
          match req.sourceSecret.elim (.ok svc)
              (svc.setMountPointSourceSecret bc env.fails env.salt id) with
          | .error e => (h, .error e)
          | .ok svc => ({ h with acctSvc := svc }.updateInMemory cfg env row req, .ok ())

/-- `DELETE /api/mountpoints/{id}`. -/
def deleteMountpoint (id : Option ℤ) : Handlers × Except AdminError Unit :=
  match id with
  | none => (h, .error .invalidMountpointID)
  | some id =>
    match h.acctSvc.getMountPointRowByID env.fails id with
    | none => (h, .error .mountpointNotFound)
    | some row =>
      let h := h.deleteInMemory env row
      match h.acctSvc.deleteMountPointRow env.fails id with
      | .error e => (h, .error e)
      | .ok svc => ({ h with acctSvc := svc }, .ok ())

end Handlers

end NtripCaster
