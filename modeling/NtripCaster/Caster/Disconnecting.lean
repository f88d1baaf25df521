import NtripCaster.Account.Revocation
import NtripCaster.Api.Requests
import NtripCaster.Caster.Access
import NtripCaster.Rover.Teardown

/-!
# Disconnecting users

The handlers of `PUT` and `DELETE /api/users/{id}`, interleaved with the handshakes of devices,
step by step: a device authenticates, has its binding checked, looks the mountpoint up and
registers; a handler writes the row, clears the authentication cache and takes the sessions of the
user off one mountpoint after another. `DELETE` disconnects before it deletes. A device that
registers behind the sweep stays.

## Main definitions

* `HandshakePC`, `Handshake`: a device up to its registration
* `UserPC`, `UserHandler`: a handler in progress; it is in force until the user is enabled again
* `DeviceState`, `DeviceStep`, `deviceSystem`
* `KeepsUsersOut`: the condition on a step

## Main results

* `user_disconnected`: after the answer, the user is not connected, under the condition
* `user_not_disconnected`: a base station that registers too late
-/

namespace NtripCaster

open Transition RoverState

/-! ## Devices -/

/-- The next step of a handler of `internal/caster/connection.go`. The handler of a rover ends here
where the session of the rover starts: with the checks of its mountpoint. -/
inductive HandshakePC
  | authenticate (username password : Bytes) (pc : AuthPC)
  | hasBinding (userID : ℤ)
  | verifySecret
  | get (userID : ℤ)
  | isEnabled (mount : ℕ) (userID : ℤ)
  | setSource (mount : ℕ) (userID : ℤ)
  | ended

/-- A connection before it is registered. -/
structure Handshake where
  req : NTRIPRequest
  pc : HandshakePC

namespace Handshake

variable (cfg : Config) (req : NTRIPRequest)

/-- `authenticateBasic` up to its call of `Authenticate`. -/
def authenticateBasic : HandshakePC :=
  if req.header "Authorization" = [] then .ended
  else
    match parseBasicAuth (req.header "Authorization") with
    | none => .ended
    | some (username, password) => .authenticate username password .lookup

/-- Where the handler of a request starts. -/
def start : HandshakePC :=
  match req.type with
  | .rover =>
    if cfg.auth.enabled ∧ cfg.auth.ntripRoverAuth = ascii "basic" then authenticateBasic req
    else .get 0
  | .sourceRev1 =>
    if cfg.auth.enabled then
      if cfg.auth.ntripSourceAuth = ascii "user_binding" then
        if req.header "Authorization" ≠ [] then authenticateBasic req else .verifySecret
      else .get 0
    else .get 0
  | .sourceRev2 => if cfg.auth.enabled then authenticateBasic req else .get 0
  | _ => .ended

/-- What the handler does with the result of `Authenticate`. -/
def authenticated : Except AccountError (Option User) → HandshakePC
  | .ok (some user) =>
    if user.role ≠ roleAdmin ∧ user.role ≠ ConnHandler.requestRole req then .ended
    else
      match req.type with
      | .rover => if user.role = roleAdmin then .get user.id else .hasBinding user.id
      | .sourceRev1 => .hasBinding user.id
      | _ =>
        if cfg.auth.ntripSourceAuth = ascii "user_binding" then .hasBinding user.id
        else .get user.id
  | _ => .ended

end Handshake

/-! ## Handlers of the admin API -/

/-- The two requests that disconnect a user. -/
inductive UserRequest
  | update (req : UpdateUserRequest)
  | delete
  deriving DecidableEq, Repr

/-- The next step of a handler: of `UpdateUser` with the row it has read, of `DisconnectUser`, with
the mountpoints its loop has still to come to, or of `DeleteUser`. A kick that is under way is a
teardown. -/
inductive UserPC
  | getUser
  | updateUser (user : User)
  | clearUpdated (user : User)
  | updatePassword (user : User)
  | clearPassword (user : User)
  | disconnect
  | kickSource (m : ℕ) (todo : List ℕ)
  | kickingSource (teardown m : ℕ) (todo : List ℕ)
  | kickClients (m : ℕ) (todo : List ℕ)
  | kickingClients (teardown : ℕ) (todo : List ℕ)
  | deleteUser
  | clearDeleted
  | ok
  | failed
  deriving DecidableEq, Repr

namespace UserPC

/-- `KickSourceByUser` is through with mountpoint `m`. -/
def sourceSwept (m : ℕ) : UserPC → Bool
  | kickSource k todo => m ∉ k :: todo
  | kickingSource _ _ todo | kickClients _ todo | kickingClients _ todo => m ∉ todo
  | deleteUser | clearDeleted | ok => true
  | _ => false

/-- `KickClientsByUser` is through with mountpoint `m`. -/
def clientsSwept (m : ℕ) : UserPC → Bool
  | kickSource k todo | kickingSource _ k todo | kickClients k todo => m ∉ k :: todo
  | kickingClients _ todo => m ∉ todo
  | deleteUser | clearDeleted | ok => true
  | _ => false

/-- A step of `DisconnectUser`. -/
def isDisconnecting : UserPC → Bool
  | disconnect | kickSource .. | kickingSource .. | kickClients .. | kickingClients .. => true
  | _ => false

/-- The row that `UpdateUser` has read, once the new one is written. -/
def written : UserPC → Option User
  | clearUpdated user | updatePassword user | clearPassword user => some user
  | _ => none

/-- The end of `UpdateUser`: `DisconnectUser` if `user.Enabled && !enabled`. -/
def updated (req : UpdateUserRequest) (user : User) : UserPC :=
  if user.enabled && !req.enabledFor user then disconnect else ok

end UserPC

/-- A handler of a request for user `id`. An update is in force from the time it disables the user
until the user is enabled, a deletion from its start. -/
structure UserHandler where
  id : ℤ
  request : UserRequest
  pc : UserPC
  inForce : Bool
  deriving DecidableEq, Repr

namespace UserHandler

variable (h : UserHandler)

/-- The loop of `DisconnectUser` with these mountpoints to come. -/
def disconnectUser : List ℕ → UserPC
  | m :: todo => .kickSource m todo
  | [] =>
    match h.request with
    | .update _ => .ok
    | .delete => .deleteUser

/-- A table in which the user is enabled ends an update's being in force. -/
def recheck (users : UserTable) : UserHandler :=
  match h.request with
  | .update _ => { h with inForce := h.inForce && !(users.byID h.id).any fun r => r.scan.enabled }
  | .delete => h

end UserHandler

/-! ## The interleaved system -/

/-- The accounts, the mountpoints with what is connected to them, and what is in progress. -/
structure DeviceState where
  acctSvc : Service
  rovers : RoverState
  handshakes : List Handshake
  handlers : List UserHandler

/-- A step, with its choices. -/
inductive DeviceStep
  | request (req : NTRIPRequest)
  | handshake (k : ℕ) (env : Env)
  | rover (a : RoverStep)
  | update (id : ℤ) (req : UpdateUserRequest)
  | delete (id : ℤ)
  | handler (k : ℕ) (fails : Bool) (salt : Bytes) (visit : RangeOrder ℕ)
      (ord ord' : RangeOrder Client)

/-- The steps of rovers and mountpoints that are not part of a handshake. -/
def RoverStep.isAdmitted : RoverStep → Bool
  | .connect .. | .operate _ (.setSource _) => false
  | _ => true

namespace DeviceState

variable (bc : Bcrypt) (cfg : Config) (s : DeviceState)

/-- `Get`, as the index of the mountpoint. -/
def get (name : Bytes) : Option ℕ := s.rovers.mounts.findIdx? (·.point.name == name)

/-- Handshake `k` moves on. -/
def setHandshake (k : ℕ) (x : Handshake) (pc : HandshakePC) : DeviceState :=
  { s with handshakes := s.handshakes.set k { x with pc := pc } }

/-- The next step of a handshake. -/
def handshake (k : ℕ) (env : Env) : Option DeviceState :=
  (s.handshakes[k]?).bind fun x =>
    match x.pc with
    | .authenticate username password pc =>
      match pc.advance bc env.fails env.now username password s.acctSvc with
      | (svc, .done r) =>
        some ({ s with acctSvc := svc }.setHandshake k x (Handshake.authenticated cfg x.req r))
      | (svc, pc) =>
        some ({ s with acctSvc := svc }.setHandshake k x (.authenticate username password pc))
    | .hasBinding userID =>
      match s.acctSvc.hasBinding env.fails userID x.req.mountPoint with
      | .ok true => some (s.setHandshake k x (.get userID))
      | _ => some (s.setHandshake k x .ended)
    | .verifySecret =>
      match s.acctSvc.verifyMountPointSourceSecret bc env.fails x.req.mountPoint x.req.password with
      | .ok true => some (s.setHandshake k x (.get 0))
      | _ => some (s.setHandshake k x .ended)
    | .get userID =>
      match s.get x.req.mountPoint with
      | none => some (s.setHandshake k x .ended)
      | some m =>
        if x.req.type = .rover then
          (s.rovers.step (.connect m env.uuid userID)).map fun rovers =>
            { s with rovers := rovers }.setHandshake k x .ended
        else some (s.setHandshake k x (.isEnabled m userID))
    | .isEnabled m userID =>
      (s.rovers.mounts[m]?).map fun mt =>
        s.setHandshake k x (if mt.point.enabled then .setSource m userID else .ended)
    | .setSource m userID =>
      (s.rovers.mounts[m]?).bind fun mt =>
        -- the slot is taken, or the source registers
        if mt.point.hasSource then some (s.setHandshake k x .ended)
        else
          (s.rovers.step (.operate m (.setSource ⟨env.ref, env.uuid, userID⟩))).map fun rovers =>
            { s with rovers := rovers }.setHandshake k x .ended
    | .ended => none

/-- Handler `k` moves on. -/
def setHandler (k : ℕ) (h : UserHandler) (pc : UserPC) : DeviceState :=
  { s with handlers := s.handlers.set k { h with pc := pc } }

/-- Handler `k` writes the table of users; `inForce` says whether it is in force from here on. -/
def commit (users : UserTable) (k : ℕ) (h : UserHandler) (pc : UserPC) (inForce : Bool) :
    DeviceState :=
  { s with
    acctSvc := { s.acctSvc with users := users }
    handlers :=
      (s.handlers.set k { h with pc := pc, inForce := inForce }).map fun h => h.recheck users }

/-- The `UPDATE` of `UpdateUser` disables the user: the row the handler has read or the one it
overwrites is enabled, and the new one is not. -/
def disables (id : ℤ) (req : UpdateUserRequest) (user : User) : Bool :=
  !req.enabledFor user &&
    (user.enabled || (s.acctSvc.users.byID id).any fun r => r.scan.enabled)

/-- The next step of a handler up to `DisconnectUser`. -/
def updateUser (k : ℕ) (h : UserHandler) (req : UpdateUserRequest) (fails : Bool) (salt : Bytes) :
    Option DeviceState :=
  match h.pc with
  | .getUser =>
    match if fails then none else (s.acctSvc.users.byID h.id).map UserRow.scan with
    | none => some (s.setHandler k h .failed)
    | some user => some (s.setHandler k h (.updateUser user))
  | .updateUser user =>
    if fails then some (s.setHandler k h .failed)
    else
      some (s.commit (s.acctSvc.updateUserRow h.id (req.roleFor user) (req.enabledFor user)) k h
        (.clearUpdated user) (s.disables h.id req user))
  | .clearUpdated user =>
    let pc := if req.password ≠ [] then .updatePassword user else UserPC.updated req user
    some ({ s with acctSvc := s.acctSvc.cacheClear }.setHandler k h pc)
  | .updatePassword user =>
    match if fails then none else bc.generateFromPassword salt req.password with
    | none => some (s.setHandler k h .failed)
    | some hash =>
      some (s.commit (s.acctSvc.updatePasswordRow h.id hash) k h (.clearPassword user) h.inForce)
  | .clearPassword user =>
    some ({ s with acctSvc := s.acctSvc.cacheClear }.setHandler k h (UserPC.updated req user))
  | _ => none

/-- The next step of `DisconnectUser`, with the orders of its loops. -/
def disconnectUser (k : ℕ) (h : UserHandler) (visit : RangeOrder ℕ) (ord ord' : RangeOrder Client) :
    Option DeviceState :=
  match h.pc with
  | .disconnect =>
    let mounts := visit.visit (List.range s.rovers.mounts.length)
    some (s.setHandler k h (h.disconnectUser mounts))
  | .kickSource m todo =>
    (s.rovers.step (.operate m (.kickSourceByUser ord ord' h.id))).map fun rovers =>
      { s with rovers := rovers }.setHandler k h
        (.kickingSource s.rovers.teardowns.length m todo)
  | .kickingSource j m todo =>
    if s.rovers.teardowns[j]? = some [] then some (s.setHandler k h (.kickClients m todo)) else none
  | .kickClients m todo =>
    (s.rovers.step (.operate m (.kickClientsByUser ord ord' h.id))).map fun rovers =>
      { s with rovers := rovers }.setHandler k h (.kickingClients s.rovers.teardowns.length todo)
  | .kickingClients j todo =>
    if s.rovers.teardowns[j]? = some [] then some (s.setHandler k h (h.disconnectUser todo))
    else none
  | _ => none

/-- The next step of a handler's `DeleteUser`. -/
def deleteUser (k : ℕ) (h : UserHandler) (fails : Bool) : Option DeviceState :=
  match h.pc with
  | .deleteUser =>
    if fails then some (s.setHandler k h .failed)
    else some (s.commit (s.acctSvc.users.delete h.id) k h .clearDeleted h.inForce)
  | .clearDeleted => some ({ s with acctSvc := s.acctSvc.cacheClear }.setHandler k h .ok)
  | _ => none

/-- The next step of a handler. -/
def handler (k : ℕ) (fails : Bool) (salt : Bytes) (visit : RangeOrder ℕ)
    (ord ord' : RangeOrder Client) : Option DeviceState :=
  (s.handlers[k]?).bind fun h =>
    if h.pc.isDisconnecting then s.disconnectUser k h visit ord ord'
    else
      match h.request with
      | .update req => s.updateUser bc k h req fails salt
      | .delete => s.deleteUser k h fails

/-- A device or an admin makes the next step. -/
def step : DeviceStep → Option DeviceState
  | .request req => some { s with handshakes := s.handshakes ++ [⟨req, Handshake.start cfg req⟩] }
  | .handshake k env => s.handshake bc cfg k env
  | .rover a =>
    if a.isAdmitted then (s.rovers.step a).map fun rovers => { s with rovers := rovers } else none
  | .update id req =>
    some { s with handlers := s.handlers ++ [⟨id, .update req, .getUser, false⟩] }
  | .delete id => some { s with handlers := s.handlers ++ [⟨id, .delete, .disconnect, true⟩] }
  | .handler k fails salt visit ord ord' => s.handler bc k fails salt visit ord ord'

end DeviceState

/-- A server on any database, with any mountpoints. -/
def deviceSystem (bc : Bcrypt) (cfg : Config) : System DeviceState DeviceStep where
  init s := ∃ users rows bindings maxClients, ∃ mounts : List Mount, (∀ mt ∈ mounts, mt.Fresh) ∧
    (mounts.map fun mt => mt.point.name).Nodup ∧
    s = ⟨Service.new users rows bindings, ⟨newGlobalLimiter maxClients, mounts, [], []⟩, [], []⟩
  step := DeviceState.step bc cfg

/-! ## The condition -/

namespace DeviceState

variable (s : DeviceState)

/-- A handler in force has taken the source of the user off mountpoint `m`. -/
def SourceOut (m : ℕ) (userID : ℤ) : Prop :=
  ∃ h ∈ s.handlers, h.id = userID ∧ h.inForce = true ∧ h.pc.sourceSwept m = true

instance (m : ℕ) (userID : ℤ) : Decidable (s.SourceOut m userID) :=
  inferInstanceAs (Decidable (∃ h ∈ s.handlers, h.id = userID ∧ h.inForce = true ∧
    h.pc.sourceSwept m = true))

/-- A handler in force has taken the clients of the user off mountpoint `m`. -/
def ClientsOut (m : ℕ) (userID : ℤ) : Prop :=
  ∃ h ∈ s.handlers, h.id = userID ∧ h.inForce = true ∧ h.pc.clientsSwept m = true

instance (m : ℕ) (userID : ℤ) : Decidable (s.ClientsOut m userID) :=
  inferInstanceAs (Decidable (∃ h ∈ s.handlers, h.id = userID ∧ h.inForce = true ∧
    h.pc.clientsSwept m = true))

/-- The mountpoint and the user of the source that handshake `k` registers next, if it does. -/
def registering (k : ℕ) : Option (ℕ × ℤ) :=
  (s.handshakes[k]?).bind fun x =>
    match x.pc with
    | .setSource m userID =>
      (s.rovers.mounts[m]?).bind fun mt => if mt.point.hasSource then none else some (m, userID)
    | _ => none

/-- Handler `k` is about to disable a user whom it has read as disabled: it does not disconnect
them. -/
def skipsDisconnect (k : ℕ) : Bool :=
  (s.handlers[k]?).any fun h =>
    match h.request, h.pc with
    | .update req, .updateUser user => s.disables h.id req user && !user.enabled
    | _, _ => false

end DeviceState

/-- The condition on a step: nobody registers for a user whom a handler in force has taken off the
mountpoint, and no handler disables a user without disconnecting them. -/
def KeepsUsersOut (s : DeviceState) : DeviceStep → Prop
  | .rover a => ∀ x ∈ s.rovers.joining a, ¬ s.ClientsOut x.mount x.client.userID
  | .handshake k _ => ∀ x ∈ s.registering k, ¬ s.SourceOut x.1 x.2
  | .handler k fails .. => fails = false → s.skipsDisconnect k = false
  | _ => True

instance (s : DeviceState) (a : DeviceStep) : Decidable (KeepsUsersOut s a) :=
  match a with
  | .rover a => inferInstanceAs (Decidable (∀ x ∈ s.rovers.joining a,
      ¬ s.ClientsOut x.mount x.client.userID))
  | .handshake k _ => inferInstanceAs (Decidable (∀ x ∈ s.registering k, ¬ s.SourceOut x.1 x.2))
  | .handler k fails .. => inferInstanceAs (Decidable (fails = false → s.skipsDisconnect k = false))
  | .request .. | .update .. | .delete .. => .isTrue trivial

/-! ## Sweeps -/

namespace MountPoint

variable {m : MountPoint} {ord ord' : RangeOrder Client} {userID : ℤ}

/-- `KickSourceByUser` leaves no source of the user. -/
theorem source_kickSourceByUser {src : SourceInfo}
    (h : (m.kickSourceByUser ord ord' userID).1.source = some src) : src.userID ≠ userID := by
  unfold kickSourceByUser at h
  split at h
  next hnone =>
    rw [hnone] at h
    cases h
  next src' hsrc =>
    split at h
    next hne =>
      obtain rfl := Option.some.inj (hsrc.symm.trans h)
      exact hne
    next => cases h

/-- `KickClientsByUser` leaves no client of the user. -/
theorem lookup_kickClientsByUser {id : Bytes} {d : Client}
    (h : (m.kickClientsByUser ord ord' userID).1.clientsByID.lookup id = some d) :
    d.userID ≠ userID := by
  have hdel : (m.clientsByID.deleteWhere fun _ c => c.userID == userID).lookup id = some d := by
    unfold kickClientsByUser at h
    dsimp only at h
    split at h <;> exact h
  simpa using (GoMap.lookup_deleteWhere.mp hdel).2

end MountPoint

/-- Where the loop stands, all mountpoints but those still to come are swept. -/
theorem UserHandler.swept_disconnectUser (h : UserHandler) (todo : List ℕ) (m : ℕ) :
    (h.disconnectUser todo).sourceSwept m = decide (m ∉ todo) ∧
      (h.disconnectUser todo).clientsSwept m = decide (m ∉ todo) := by
  obtain ⟨id, request, pc, inForce⟩ := h
  cases todo with
  | cons k todo => exact ⟨rfl, rfl⟩
  | nil =>
    rw [decide_eq_true List.not_mem_nil]
    cases request <;> exact ⟨rfl, rfl⟩

theorem UserHandler.written_disconnectUser (h : UserHandler) (todo : List ℕ) :
    (h.disconnectUser todo).written = none := by
  obtain ⟨id, request, pc, inForce⟩ := h
  cases todo with
  | cons k todo => rfl
  | nil => cases request <;> rfl

/-- What holds while a handler is in force: the mountpoints it has swept are clear of its user, and
an update that has written its row will disconnect the user. -/
structure UserHandler.Holds (r : RoverState) (h : UserHandler) : Prop where
  swept : h.inForce = true → ∀ m, r.OnMount m
    (fun src => h.pc.sourceSwept m = true → src.userID ≠ h.id)
    fun d => h.pc.clientsSwept m = true → d.userID ≠ h.id
  disconnects : h.inForce = true → ∀ req user, h.request = .update req →
    h.pc.written = some user → (user.enabled && !req.enabledFor user) = true

namespace UserHandler.Holds

variable {r r' : RoverState} {h : UserHandler}

/-- A step of the rovers that registers nobody who is out. -/
theorem step (hh : h.Holds r) {a : RoverStep} (hstep : r.step a = some r')
    (hjoin : h.inForce = true → ∀ m, h.pc.clientsSwept m = true → ∀ d, r.Joins a m d →
      d.userID ≠ h.id)
    (hset : h.inForce = true → ∀ m, h.pc.sourceSwept m = true → ∀ src,
      a = .operate m (.setSource src) → src.userID ≠ h.id) : h.Holds r' where
  swept hforce m := by
    refine (hh.swept hforce m).step hstep (fun d hd => hd) ?_ ?_
    · exact fun d hd hs => hjoin hforce m hs d hd
    · exact fun src ha hs => hset hforce m hs src ha
  disconnects := hh.disconnects

/-- A critical section that registers nobody. -/
theorem step_operate (hh : h.Holds r) {m : ℕ} {op : CriticalSection}
    (hstep : r.step (.operate m op) = some r') (hop : ∀ src, op ≠ .setSource src) :
    h.Holds r' := by
  refine hh.step hstep (fun _ k _ d hd => absurd hd RoverState.not_joins_operate)
    fun _ k _ src ha => ?_
  cases ha
  exact absurd rfl (hop src)

/-- The handler moves on without having swept any more. -/
theorem goto (hh : h.Holds r) {pc : UserPC}
    (hsource : ∀ m, m < r.mounts.length → pc.sourceSwept m = true → h.pc.sourceSwept m = true)
    (hclients : ∀ m, m < r.mounts.length → pc.clientsSwept m = true → h.pc.clientsSwept m = true)
    (hwritten : ∀ user, pc.written = some user → h.pc.written = some user) :
    UserHandler.Holds r { h with pc := pc } where
  swept hforce m mt hmt := by
    have hm : m < r.mounts.length := (List.getElem?_eq_some_iff.mp hmt).1
    obtain ⟨hsrc, hcl⟩ := hh.swept hforce m mt hmt
    exact ⟨fun src hs hsw => hsrc src hs (hsource m hm hsw),
      fun id d hd hsw => hcl id d hd (hclients m hm hsw)⟩
  disconnects hforce req user hreq hpc := hh.disconnects hforce req user hreq (hwritten user hpc)

/-- Nothing is swept before the loop. -/
theorem of_not_swept {pc : UserPC} (hpc : ∀ m, pc.sourceSwept m = false ∧ pc.clientsSwept m = false)
    (hwritten : h.inForce = true → ∀ req user, h.request = .update req →
      pc.written = some user → (user.enabled && !req.enabledFor user) = true) :
    UserHandler.Holds r { h with pc := pc } where
  swept _ m mt _ := by
    refine ⟨fun src _ hsw => ?_, fun id d _ hsw => ?_⟩
    · rw [(hpc m).1] at hsw
      cases hsw
    · rw [(hpc m).2] at hsw
      cases hsw
  disconnects := hwritten

/-- A handler that is no more in force, if anything has changed. -/
theorem recheck (hh : h.Holds r) (users : UserTable) : (h.recheck users).Holds r := by
  obtain ⟨id, request, pc, inForce⟩ := h
  cases request with
  | delete => exact hh
  | update req =>
    constructor
    · exact fun hforce => hh.swept (Bool.and_eq_true_iff.mp hforce).1
    · exact fun hforce => hh.disconnects (Bool.and_eq_true_iff.mp hforce).1

/-- At the end of `UpdateUser`: a handler in force goes on to `DisconnectUser`. -/
theorem updated (hh : h.Holds r) {req : UpdateUserRequest} {user : User}
    (hreq : h.request = .update req) (hpc : h.pc.written = some user) :
    UserHandler.Holds r { h with pc := .updated req user } := by
  unfold UserPC.updated
  split
  next => exact .of_not_swept (fun _ => ⟨rfl, rfl⟩) nofun
  next hnot => exact ⟨fun hforce => absurd (hh.disconnects hforce req user hreq hpc) hnot, nofun⟩

/-- The loop starts with every mountpoint to come. -/
theorem disconnectUser (hh : h.Holds r) (visit : RangeOrder ℕ) :
    UserHandler.Holds r
      { h with pc := h.disconnectUser (visit.visit (List.range r.mounts.length)) } := by
  have hmem : ∀ m, m < r.mounts.length → m ∈ visit.visit (List.range r.mounts.length) :=
    fun m hm => visit.mem_visit.mpr (List.mem_range.mpr hm)
  refine hh.goto (fun m hm hsw => ?_) (fun m hm hsw => ?_) fun user hw => ?_
  · rw [(h.swept_disconnectUser _ m).1] at hsw
    exact absurd (hmem m hm) (of_decide_eq_true hsw)
  · rw [(h.swept_disconnectUser _ m).2] at hsw
    exact absurd (hmem m hm) (of_decide_eq_true hsw)
  · rw [h.written_disconnectUser] at hw
    cases hw

/-- The loop has come to the end of a mountpoint. -/
theorem nextMount (hh : h.Holds r) {j : ℕ} {todo : List ℕ} (hpc : h.pc = .kickingClients j todo) :
    UserHandler.Holds r { h with pc := h.disconnectUser todo } := by
  refine hh.goto (fun m _ hsw => ?_) (fun m _ hsw => ?_) fun user hw => ?_
  · rw [(h.swept_disconnectUser todo m).1] at hsw
    rw [hpc]
    exact hsw
  · rw [(h.swept_disconnectUser todo m).2] at hsw
    rw [hpc]
    exact hsw
  · rw [h.written_disconnectUser] at hw
    cases hw

/-- `KickSourceByUser` on the next mountpoint. -/
theorem kickSource (hh : h.Holds r) {m j : ℕ} {todo : List ℕ} {ord ord' : RangeOrder Client}
    (hpc : h.pc = .kickSource m todo)
    (hstep : r.step (.operate m (.kickSourceByUser ord ord' h.id)) = some r') :
    UserHandler.Holds r' { h with pc := .kickingSource j m todo } where
  swept hforce k mt' hmt' := by
    have hold := (hh.step_operate hstep nofun).swept hforce k mt' hmt'
    rw [hpc] at hold
    refine ⟨fun src hs hsw => ?_, hold.2⟩
    by_cases hk : k = m
    · subst hk
      obtain ⟨mt, -, hpoint⟩ := RoverState.point_operate hstep hmt'
      rw [hpoint] at hs
      exact MountPoint.source_kickSourceByUser hs
    · refine hold.1 src hs (decide_eq_true ?_)
      exact List.not_mem_cons_of_ne_of_not_mem hk (of_decide_eq_true hsw)
  disconnects _ _ _ _ hw := nomatch hw

/-- `KickClientsByUser` on the same mountpoint. -/
theorem kickClients (hh : h.Holds r) {m j : ℕ} {todo : List ℕ} {ord ord' : RangeOrder Client}
    (hpc : h.pc = .kickClients m todo)
    (hstep : r.step (.operate m (.kickClientsByUser ord ord' h.id)) = some r') :
    UserHandler.Holds r' { h with pc := .kickingClients j todo } where
  swept hforce k mt' hmt' := by
    have hold := (hh.step_operate hstep nofun).swept hforce k mt' hmt'
    rw [hpc] at hold
    refine ⟨hold.1, fun id d hd hsw => ?_⟩
    by_cases hk : k = m
    · subst hk
      obtain ⟨mt, -, hpoint⟩ := RoverState.point_operate hstep hmt'
      rw [hpoint] at hd
      exact MountPoint.lookup_kickClientsByUser hd
    · refine hold.2 id d hd (decide_eq_true ?_)
      exact List.not_mem_cons_of_ne_of_not_mem hk (of_decide_eq_true hsw)
  disconnects _ _ _ _ hw := nomatch hw

end UserHandler.Holds

namespace DeviceState

variable {bc : Bcrypt} {cfg : Config} {s s' : DeviceState}

theorem disconnectUser_holds {k : ℕ} {h : UserHandler} {visit : RangeOrder ℕ}
    {ord ord' : RangeOrder Client} (hall : ∀ h ∈ s.handlers, h.Holds s.rovers)
    (hh : h.Holds s.rovers) (hstep : s.disconnectUser k h visit ord ord' = some s') :
    ∀ h ∈ s'.handlers, h.Holds s'.rovers := by
  unfold disconnectUser at hstep
  split at hstep
  next => exact Option.some.inj hstep ▸ forall_mem_set hall (hh.disconnectUser visit)
  next m todo hpc =>
    obtain ⟨r', hr', rfl⟩ := Option.map_eq_some_iff.mp hstep
    exact forall_mem_set (fun h hmem => (hall h hmem).step_operate hr' nofun)
      (hh.kickSource hpc hr')
  next j m todo hpc =>
    obtain ⟨-, hstep⟩ := Option.ite_none_right_eq_some.mp hstep
    refine Option.some.inj hstep ▸ forall_mem_set hall (hh.goto ?_ ?_ nofun)
    · exact fun _ _ hsw => hpc ▸ hsw
    · exact fun _ _ hsw => hpc ▸ hsw
  next m todo hpc =>
    obtain ⟨r', hr', rfl⟩ := Option.map_eq_some_iff.mp hstep
    exact forall_mem_set (fun h hmem => (hall h hmem).step_operate hr' nofun)
      (hh.kickClients hpc hr')
  next j todo hpc =>
    obtain ⟨-, hstep⟩ := Option.ite_none_right_eq_some.mp hstep
    exact Option.some.inj hstep ▸ forall_mem_set hall (hh.nextMount hpc)
  next => cases hstep

/-- A handler writes the table of users. -/
theorem commit_holds (hall : ∀ h ∈ s.handlers, h.Holds s.rovers) (users : UserTable) (k : ℕ)
    {h : UserHandler} {pc : UserPC} {inForce : Bool}
    (hh : UserHandler.Holds s.rovers { h with pc := pc, inForce := inForce }) :
    ∀ h' ∈ (s.commit users k h pc inForce).handlers,
      h'.Holds (s.commit users k h pc inForce).rovers := by
  intro h' hmem
  obtain ⟨h₀, hmem₀, rfl⟩ := List.mem_map.mp hmem
  exact (forall_mem_set hall hh h₀ hmem₀).recheck users

/-- An update that has written its row goes on to disconnect the user, unless it skips that. -/
theorem updateUser_holds {k : ℕ} {h : UserHandler} {req : UpdateUserRequest} {fails : Bool}
    {salt : Bytes} (hall : ∀ h ∈ s.handlers, h.Holds s.rovers) (hk : s.handlers[k]? = some h)
    (hreq : h.request = .update req) (hguard : fails = false → s.skipsDisconnect k = false)
    (hstep : s.updateUser bc k h req fails salt = some s') :
    ∀ h ∈ s'.handlers, h.Holds s'.rovers := by
  have hh : h.Holds s.rovers := hall h (List.mem_of_getElem? hk)
  unfold updateUser at hstep
  split at hstep
  next =>
    split at hstep
    · exact Option.some.inj hstep ▸ forall_mem_set hall (.of_not_swept (fun _ => ⟨rfl, rfl⟩) nofun)
    · exact Option.some.inj hstep ▸ forall_mem_set hall (.of_not_swept (fun _ => ⟨rfl, rfl⟩) nofun)
  next user hpc =>
    split at hstep
    · exact Option.some.inj hstep ▸ forall_mem_set hall (.of_not_swept (fun _ => ⟨rfl, rfl⟩) nofun)
    next hok =>
      refine Option.some.inj hstep ▸ commit_holds hall _ k ⟨fun _ m mt _ => ⟨nofun, nofun⟩, ?_⟩
      intro hforce req' user' hreq' hw
      obtain rfl : req = req' := UserRequest.update.inj (hreq.symm.trans hreq')
      obtain rfl : user = user' := Option.some.inj hw
      -- the condition: the user is disabled by a handler that has read the row as enabled
      have hskip := hguard (Bool.eq_false_iff.mpr hok)
      have hforce : s.disables h.id req user = true := hforce
      simp only [skipsDisconnect, hk, Option.any_some, hreq, hpc, hforce, Bool.true_and,
        Bool.not_eq_false'] at hskip
      exact Bool.and_eq_true_iff.mpr ⟨hskip, (Bool.and_eq_true_iff.mp hforce).1⟩
  next user hpc =>
    refine Option.some.inj hstep ▸ forall_mem_set hall ?_
    split
    · exact hh.goto nofun nofun fun user' hw => by rw [hpc]; exact hw
    · exact hh.updated hreq (by rw [hpc]; rfl)
  next user hpc =>
    split at hstep
    · exact Option.some.inj hstep ▸ forall_mem_set hall (.of_not_swept (fun _ => ⟨rfl, rfl⟩) nofun)
    · refine Option.some.inj hstep ▸ commit_holds hall _ k ?_
      exact hh.goto nofun nofun fun user' hw => by rw [hpc]; exact hw
  next user hpc =>
    exact Option.some.inj hstep ▸ forall_mem_set hall (hh.updated hreq (by rw [hpc]; rfl))
  next => cases hstep

theorem deleteUser_holds {k : ℕ} {h : UserHandler} {fails : Bool}
    (hall : ∀ h ∈ s.handlers, h.Holds s.rovers) (hh : h.Holds s.rovers)
    (hstep : s.deleteUser k h fails = some s') : ∀ h ∈ s'.handlers, h.Holds s'.rovers := by
  unfold deleteUser at hstep
  split at hstep
  next hpc =>
    split at hstep
    · exact Option.some.inj hstep ▸ forall_mem_set hall (.of_not_swept (fun _ => ⟨rfl, rfl⟩) nofun)
    · refine Option.some.inj hstep ▸ commit_holds hall _ k (hh.goto ?_ ?_ nofun)
      · exact fun _ _ _ => by rw [hpc]; rfl
      · exact fun _ _ _ => by rw [hpc]; rfl
  next hpc =>
    refine Option.some.inj hstep ▸ forall_mem_set hall (hh.goto ?_ ?_ nofun)
    · exact fun _ _ _ => by rw [hpc]; rfl
    · exact fun _ _ _ => by rw [hpc]; rfl
  next => cases hstep

/-- A device that passes its checks registers for a user that no handler keeps out. -/
theorem handshake_holds {k : ℕ} {env : Env} (hall : ∀ h ∈ s.handlers, h.Holds s.rovers)
    (hguard : ∀ x ∈ s.registering k, ¬ s.SourceOut x.1 x.2)
    (hstep : s.handshake bc cfg k env = some s') : ∀ h ∈ s'.handlers, h.Holds s'.rovers := by
  obtain ⟨x, hx, hstep⟩ := Option.bind_eq_some_iff.mp hstep
  split at hstep
  next =>
    split at hstep
    · exact Option.some.inj hstep ▸ hall
    · exact Option.some.inj hstep ▸ hall
  next =>
    split at hstep
    · exact Option.some.inj hstep ▸ hall
    · exact Option.some.inj hstep ▸ hall
  next =>
    split at hstep
    · exact Option.some.inj hstep ▸ hall
    · exact Option.some.inj hstep ▸ hall
  next userID hpc =>
    split at hstep
    · exact Option.some.inj hstep ▸ hall
    next m hm =>
      split at hstep
      · obtain ⟨r', hr', rfl⟩ := Option.map_eq_some_iff.mp hstep
        exact fun h hmem => (hall h hmem).step hr'
          (fun _ _ _ d hd => absurd hd RoverState.not_joins_connect) nofun
      · exact Option.some.inj hstep ▸ hall
  next =>
    obtain ⟨mt, -, rfl⟩ := Option.map_eq_some_iff.mp hstep
    exact hall
  next m userID hpc =>
    obtain ⟨mt, hmt, hstep⟩ := Option.bind_eq_some_iff.mp hstep
    split at hstep
    · exact Option.some.inj hstep ▸ hall
    next hfree =>
      obtain ⟨r', hr', rfl⟩ := Option.map_eq_some_iff.mp hstep
      refine fun h hmem => (hall h hmem).step hr'
        (fun _ _ _ d hd => absurd hd RoverState.not_joins_operate) ?_
      intro hforce n hswept src ha huser
      obtain ⟨rfl, hsrc⟩ := RoverStep.operate.inj ha
      obtain rfl := CriticalSection.setSource.inj hsrc
      -- the condition: no handler in force has swept the mountpoint
      refine hguard (m, userID) ?_ ⟨h, hmem, huser.symm, hforce, hswept⟩
      simp [registering, hx, hpc, hmt, hfree]
  next => cases hstep

/-- Every step that meets the condition keeps what holds while handlers are in force. -/
theorem step_holds {a : DeviceStep} (hall : ∀ h ∈ s.handlers, h.Holds s.rovers)
    (hguard : KeepsUsersOut s a) (hstep : s.step bc cfg a = some s') :
    ∀ h ∈ s'.handlers, h.Holds s'.rovers := by
  cases a with
  | request req => exact Option.some.inj hstep ▸ hall
  | handshake k env => exact handshake_holds hall hguard hstep
  | rover a =>
    obtain ⟨hadm, hstep⟩ := Option.ite_none_right_eq_some.mp hstep
    obtain ⟨r', hr', rfl⟩ := Option.map_eq_some_iff.mp hstep
    refine fun h hmem => (hall h hmem).step hr' (fun hforce m hswept d hd => ?_) ?_
    · obtain ⟨x, hx, rfl, huser⟩ := hd.joining
      intro hid
      exact hguard x hx ⟨h, hmem, (huser.trans hid).symm, hforce, hswept⟩
    · rintro _ m _ src rfl
      cases hadm
  | update id req => exact Option.some.inj hstep ▸ forall_mem_snoc hall ⟨nofun, nofun⟩
  | delete id =>
    exact Option.some.inj hstep ▸ forall_mem_snoc hall ⟨fun _ m mt _ => ⟨nofun, nofun⟩, nofun⟩
  | handler k fails salt visit ord ord' =>
    obtain ⟨h, hk, hstep⟩ := Option.bind_eq_some_iff.mp hstep
    have hh : h.Holds s.rovers := hall h (List.mem_of_getElem? hk)
    split at hstep
    · exact disconnectUser_holds hall hh hstep
    · split at hstep
      next req hreq => exact updateUser_holds hall hk hreq hguard hstep
      next => exact deleteUser_holds hall hh hstep

end DeviceState

/-- Once an update that disables a user or a deletion has answered ok, and until the user is
enabled, the user is the source of no mountpoint, and their clients that are registered have been
closed. -/
def UsersDisconnected (s : DeviceState) : Prop :=
  ∀ h ∈ s.handlers, h.pc = .ok → h.inForce = true → ∀ mt ∈ s.rovers.mounts,
    (∀ src, mt.point.source = some src → src.userID ≠ h.id) ∧
      ∀ id d, mt.point.clientsByID.lookup id = some d → d.userID = h.id → s.rovers.Closed d

/-- **A user who is disabled or deleted is disconnected** in a run in which nobody registers for a
user whom a handler in force has taken off the mountpoint, and no handler that has read the user
as disabled disables them. -/
theorem user_disconnected {bc : Bcrypt} {cfg : Config} {s : DeviceState}
    (h : ((deviceSystem bc cfg).restrict KeepsUsersOut).Reachable s) : UsersDisconnected s := by
  have hholds : ∀ h ∈ s.handlers, h.Holds s.rovers := by
    refine System.Reachable.restrict_invariant (I := fun s => ∀ h ∈ s.handlers, h.Holds s.rovers)
      ?_ (fun t a t' _ ht hguard hstep => DeviceState.step_holds ht hguard hstep) h
    rintro t ⟨users, rows, bindings, maxClients, mounts, -, -, rfl⟩
    simp
  intro h hmem hpc hforce mt hmt
  obtain ⟨m, hm⟩ := List.mem_iff_getElem?.mp hmt
  obtain ⟨hsrc, hclients⟩ := (hholds h hmem).swept hforce m mt hm
  rw [hpc] at hsrc hclients
  exact ⟨fun src hs => hsrc src hs rfl, fun id d hd huser => absurd huser (hclients id d hd rfl)⟩

/-- A base user `u` with the password `p`, bound to the mountpoint `M`. -/
def boundUser : DeviceState where
  acctSvc := .new (.single ⟨1, ascii "u", ascii "p", roleBase, 1⟩)
    [⟨1, ascii "M", [], 1, ascii "RTCM3", ascii "user_binding", none, none, none, none⟩]
    [⟨1, 1, 1⟩]
  rovers := oneMount 0
  handshakes := []
  handlers := []

theorem boundUser_init : (deviceSystem plainBcrypt defaultConfig).init boundUser :=
  ⟨_, _, _, _, _, fun _ hmt => ⟨_, _, _, _, _, _, List.mem_singleton.mp hmt⟩,
    List.nodup_singleton _, rfl⟩

/-- `POST /M` with the credentials of `u`, up to the check that `M` is enabled. -/
def checkedPost : List DeviceStep :=
  .request
    { type := .sourceRev2
      mountPoint := ascii "M"
      headers := (∅ : GoMap Bytes Bytes).insert (ascii "Authorization") (ascii "Basic dTpw") } ::
    List.replicate 7 (.handshake 0 quietEnv)

/-- `PUT /api/users/1` with `enabled` false, from start to answer. -/
def disableUser : List DeviceStep :=
  .update 1 { enabled := some false } ::
    List.replicate 8 (.handler 0 false [] .stored .stored .stored)

/-- The user is disabled after the base station has registered. -/
theorem user_disconnected_inTime :
    ∃ s, ((deviceSystem plainBcrypt defaultConfig).restrict KeepsUsersOut).run boundUser
        (checkedPost ++ [.handshake 0 quietEnv] ++ disableUser) = some s ∧
      (∃ h ∈ s.handlers, h.pc = .ok ∧ h.inForce = true) ∧ UsersDisconnected s := by
  obtain ⟨s, hs, hh⟩ : ∃ s, ((deviceSystem plainBcrypt defaultConfig).restrict KeepsUsersOut).run
        boundUser (checkedPost ++ [.handshake 0 quietEnv] ++ disableUser) = some s ∧
      ∃ h ∈ s.handlers, h.pc = .ok ∧ h.inForce = true := ⟨_, rfl, _, .head _, rfl, rfl⟩
  exact ⟨s, hs, hh, user_disconnected (.of_run _ boundUser_init hs)⟩

/-- The user is disabled between the check of the base station and its `SetSource`. -/
theorem user_not_disconnected :
    ¬ ∀ (bc : Bcrypt) (cfg : Config) (s : DeviceState), (deviceSystem bc cfg).Reachable s →
      UsersDisconnected s := by
  intro hall
  obtain ⟨s, hs, h, hh, hpc, hforce, mt, hmt, src, hsrc, huser⟩ : ∃ s,
      (deviceSystem plainBcrypt defaultConfig).run boundUser
        (checkedPost ++ disableUser ++ [.handshake 0 quietEnv]) = some s ∧
      ∃ h ∈ s.handlers, h.pc = .ok ∧ h.inForce = true ∧ ∃ mt ∈ s.rovers.mounts,
        ∃ src, mt.point.source = some src ∧ src.userID = h.id :=
    ⟨_, rfl, _, .head _, rfl, rfl, _, .head _, _, rfl, rfl⟩
  exact (hall _ _ s (.of_run _ boundUser_init hs) h hh hpc hforce mt hmt).1 src hsrc huser

end NtripCaster
