import NtripCaster.Account.Service
import NtripCaster.Auth.BasicAuth
import NtripCaster.Caster.Protocol
import NtripCaster.Config.Config
import NtripCaster.Limiter.Limiter
import NtripCaster.Sourcetable.Generator

/-!
# Connection handlers

`internal/caster/connection.go`: a connection is read up to the end of its request, and the
request is served. A handler ends by closing the connection, or by starting the loop of a rover
or of a source on it. Here a handler runs to its end with nothing going on beside it.

## Main definitions

* `Manager.Publishable`: the source slot of a mountpoint can be taken
* `ConnHandler`, `Env`, `Outcome`
* `ConnHandler.authenticateBasic`, `ConnHandler.authenticateSource`
* `ConnHandler.handleRover`, `handleSourceRev1`, `handleSourceRev2`, `handleSourcetable`
* `ConnHandler.handle`: a connection from its first byte
-/

namespace NtripCaster

/-- `connHandler`, with the state that its pointers lead to. -/
structure ConnHandler where
  cfg : Config
  mgr : Manager
  acctSvc : Service
  globalLimiter : GlobalLimiter

/-- What a handler gets from outside: which queries fail, the clock at the lookup and at the
store of the authentication cache, the fresh ID of its session and the object it is put in, and
the order of the loops over clients and over mountpoints. -/
structure Env where
  fails : Query → Bool
  now : ℤ
  now' : ℤ
  uuid : Bytes
  ref : ℕ
  ord : RangeOrder Client
  mountOrd : RangeOrder MountPoint

/-- The source slot of `m` can be taken: the mountpoint exists, is enabled and has no source. -/
def Manager.Publishable (mgr : Manager) (m : Bytes) : Prop :=
  ∃ mp, mgr.get m = some mp ∧ mp.enabled = true ∧ mp.source = none

/-- How a handler ends, with what it wrote to the connection: it closes the connection, starts
the `WriteLoop` of a rover or the `ReadLoop` of a source on a mountpoint, or panics. -/
inductive Outcome
  | closed (response : Bytes)
  | rover (response mountPoint : Bytes) (c : Client)
  | source (response mountPoint : Bytes) (info : SourceInfo)
  | panicked
  deriving DecidableEq, Repr

/-- A handler's run without faults, with a fixed session ID. -/
def quietEnv : Env := ⟨noFault, 0, 0, ascii "s", 0, .stored, .stored⟩

namespace ConnHandler

variable (bc : Bcrypt) (env : Env) (h : ConnHandler)

/-- Write a response and close the connection. -/
def refuse (response : String) : ConnHandler × Outcome := (h, .closed (ascii response))

/-! ## Authentication -/

/-- `authenticateBasic`: an administrator passes for every role. -/
def authenticateBasic (req : NTRIPRequest) (role : Bytes) :
    Service × Except AccountError (Option User) :=
  if req.header "Authorization" = [] then (h.acctSvc, .ok none)
  else
    match parseBasicAuth (req.header "Authorization") with
    | none => (h.acctSvc, .ok none)
    | some (username, password) =>
      match h.acctSvc.authenticate bc env.fails env.now env.now' username password with
      | (svc, .error e) => (svc, .error e)
      | (svc, .ok none) => (svc, .ok none)
      | (svc, .ok (some user)) =>
        -- "admin users can do anything"
        if user.role = roleAdmin then (svc, .ok (some user))
        else if user.role ≠ role then (svc, .ok none)
        else (svc, .ok (some user))

/-- `authenticateSource`: the user ID of the session, 0 without a user, and whether it may
publish. -/
def authenticateSource (req : NTRIPRequest) : Service × Except AccountError (ℤ × Bool) :=
  if h.cfg.auth.ntripSourceAuth = ascii "user_binding" then
    if req.header "Authorization" ≠ [] then
      match h.authenticateBasic bc env req roleBase with
      | (svc, .error e) => (svc, .error e)
      | (svc, .ok none) => (svc, .ok (0, false))
      | (svc, .ok (some user)) =>
        (svc, (svc.hasBinding env.fails user.id req.mountPoint).map fun has => (user.id, has))
    else
      -- a legacy device: the password field is the secret of the mountpoint
      (h.acctSvc,
        (h.acctSvc.verifyMountPointSourceSecret bc env.fails req.mountPoint req.password).map
          fun valid => (0, valid))
  else (h.acctSvc, .ok (0, true)) -- no other mode asks for anything

/-! ## Registration -/

/-- The common end of `handleSourceRev1` and `handleSourceRev2`: look the mountpoint up, take
its source slot in `source.New`, and answer. -/
def newSource (userID : ℤ) (req : NTRIPRequest) (response : String) : ConnHandler × Outcome :=
  match h.mgr.get req.mountPoint with
  | none => h.refuse "HTTP/1.1 404 Not Found\r\n\r\n"
  | some mp =>
    if !mp.enabled then h.refuse "HTTP/1.1 404 Not Found\r\n\r\n"
    else
      let info : SourceInfo := ⟨env.ref, env.uuid, userID⟩
      match mp.setSource info with
      | (_, false) => h.refuse "HTTP/1.1 409 Conflict\r\n\r\n"
      | (mp, true) =>
        ({ h with mgr := h.mgr.set req.mountPoint mp },
          .source (ascii response) req.mountPoint info)

/-- `handleRover` past its authentication. `AddClient` has no error but
`ErrClientLimitReached`. -/
def newRover (userID : ℤ) (req : NTRIPRequest) : ConnHandler × Outcome :=
  match h.mgr.get req.mountPoint with
  | none => h.refuse "HTTP/1.1 404 Not Found\r\n\r\n"
  | some mp =>
    if !mp.enabled then h.refuse "HTTP/1.1 404 Not Found\r\n\r\n"
    else if !mp.hasSource then h.refuse "HTTP/1.1 503 Service Unavailable\r\n\r\n"
    else if h.globalLimiter.atCapacity then
      h.refuse
        "HTTP/1.1 503 Service Unavailable\r\nContent-Type: text/plain\r\n\r\nServer at capacity"
    else if ¬ FitsChan mp.writeQueue then (h, .panicked) -- `make` of the channel in `client.New`
    else
      let c : Client := ⟨env.ref, env.uuid, userID, mp.writeQueue.toNat, mp.writeTimeout⟩
      match mp.addClient env.ord c with
      | .error .clientLimitReached =>
        h.refuse "HTTP/1.1 503 Service Unavailable\r\nContent-Type: text/plain\r\n\r\nMountpoint at capacity"
      | .ok mp =>
        ({ h with mgr := h.mgr.set req.mountPoint mp, globalLimiter := h.globalLimiter.add },
          .rover (ascii "ICY 200 OK\r\n\r\n") req.mountPoint c)

/-! ## Handlers -/

/-- `handleSourcetable`. -/
def handleSourcetable : ConnHandler × Outcome := (h, .closed (generate env.mountOrd h.mgr))

/-- `handleRover`. -/
def handleRover (req : NTRIPRequest) : ConnHandler × Outcome :=
  if h.cfg.auth.enabled ∧ h.cfg.auth.ntripRoverAuth = ascii "basic" then
    match h.authenticateBasic bc env req roleRover with
    | (svc, .ok (some user)) =>
      let h' := { h with acctSvc := svc }
      -- an administrator needs no binding to subscribe
      if user.role = roleAdmin then h'.newRover env user.id req
      else
        match svc.hasBinding env.fails user.id req.mountPoint with
        | .ok true => h'.newRover env user.id req
        | _ => h'.refuse "HTTP/1.1 403 Forbidden\r\n\r\n"
    | (svc, _) => { h with acctSvc := svc }.refuse "HTTP/1.1 401 Unauthorized\r\n\r\n"
  else h.newRover env 0 req

/-- `handleSourceRev1`. -/
def handleSourceRev1 (req : NTRIPRequest) : ConnHandler × Outcome :=
  if h.cfg.auth.enabled then
    match h.authenticateSource bc env req with
    | (svc, .ok (userID, true)) =>
      { h with acctSvc := svc }.newSource env userID req "ICY 200 OK\r\n\r\n"
    | (svc, _) => { h with acctSvc := svc }.refuse "ERROR - Bad Password\r\n"
  else h.newSource env 0 req "ICY 200 OK\r\n\r\n"

/-- `handleSourceRev2`. -/
def handleSourceRev2 (req : NTRIPRequest) : ConnHandler × Outcome :=
  if h.cfg.auth.enabled then
    match h.authenticateBasic bc env req roleBase with
    | (svc, .ok (some user)) =>
      let h' := { h with acctSvc := svc }
      -- here an administrator needs a binding like anybody else
      if h.cfg.auth.ntripSourceAuth = ascii "user_binding" then
        match svc.hasBinding env.fails user.id req.mountPoint with
        | .ok true => h'.newSource env user.id req "HTTP/1.1 200 OK\r\n\r\n"
        | _ => h'.refuse "HTTP/1.1 403 Forbidden\r\n\r\n"
      else h'.newSource env user.id req "HTTP/1.1 200 OK\r\n\r\n"
    | (svc, _) => { h with acctSvc := svc }.refuse "HTTP/1.1 401 Unauthorized\r\n\r\n"
  else h.newSource env 0 req "HTTP/1.1 200 OK\r\n\r\n"

/-- The handler for a parsed request: the `switch` of `handle`. -/
def serve (req : NTRIPRequest) : ConnHandler × Outcome :=
  match req.type with
  | .sourcetable => h.handleSourcetable env
  | .rover => h.handleRover bc env req
  | .sourceRev1 => h.handleSourceRev1 bc env req
  | .sourceRev2 => h.handleSourceRev2 bc env req
  | .unknown => h.refuse ""

/-- `handle` on a connection whose `Read` calls return `conn`: the handler after it, how it ended,
and the `Read` results it has left. `none` as for `Reader`. -/
def handle (conn : List Bytes) : Option (ConnHandler × Outcome × List Bytes) :=
  match parseRequest (newReader conn) with
  | none => none
  | some (.error _) => some (h, .closed [], [])
  | some (.ok (req, r)) =>
    -- the loop that is started reads `conn`: what `r` has buffered is dropped with `r`
    some ((h.serve bc env req).1, (h.serve bc env req).2, r.conn)

variable {bc env h}

/-! ## What the parts of a handler do -/

/-- A handler takes the source slot where there is one to take, and refuses otherwise. -/
theorem newSource_cases (env : Env) (userID : ℤ) (req : NTRIPRequest) (response : String) :
    (∃ mp, h.mgr.get req.mountPoint = some mp ∧ mp.enabled = true ∧ mp.source = none ∧
      h.newSource env userID req response =
        ({ h with mgr := h.mgr.set req.mountPoint { mp with
            source := some ⟨env.ref, env.uuid, userID⟩
            stats := { mp.stats with sourceOnline := 1 } } },
          .source (ascii response) req.mountPoint ⟨env.ref, env.uuid, userID⟩)) ∨
      ¬ h.mgr.Publishable req.mountPoint ∧
        ∃ response', h.newSource env userID req response = h.refuse response' := by
  unfold newSource
  cases hmp : h.mgr.get req.mountPoint with
  | none => exact .inr ⟨by simp [Manager.Publishable, hmp], _, rfl⟩
  | some mp =>
    cases hen : mp.enabled with
    | false => exact .inr ⟨by simp [Manager.Publishable, hmp, hen], _, by simp [hen]; rfl⟩
    | true =>
      cases hsrc : mp.source with
      | none => exact .inl ⟨mp, rfl, hen, hsrc, by simp [hen, MountPoint.setSource, hsrc]⟩
      | some info =>
        exact .inr ⟨by simp [Manager.Publishable, hmp, hsrc], _,
          by simp [hen, MountPoint.setSource, hsrc]; rfl⟩

/-- `authenticateBasic` passes users of the role and administrators that `Authenticate` accepts
with the credentials of the header. -/
theorem authenticateBasic_eq_some {req : NTRIPRequest} {role : Bytes} {user : User}
    (hu : (h.authenticateBasic bc env req role).2 = .ok (some user)) :
    ∃ username password,
      parseBasicAuth (req.header "Authorization") = some (username, password) ∧
      (h.acctSvc.authenticate bc env.fails env.now env.now' username password).2 =
        .ok (some user) ∧
      (user.role = role ∨ user.role = roleAdmin) := by
  unfold authenticateBasic at hu
  split_ifs at hu
  · cases hu
  · split at hu
    next => cases hu
    next username password hparse =>
      refine ⟨username, password, hparse, ?_⟩
      split at hu
      next => cases hu
      next => cases hu
      next svc u hauth =>
        split_ifs at hu with hadmin hrole
        · obtain rfl := Option.some.inj (Except.ok.inj hu)
          exact ⟨by rw [hauth], .inr hadmin⟩
        · cases hu
        · obtain rfl := Option.some.inj (Except.ok.inj hu)
          exact ⟨by rw [hauth], .inl (not_not.mp hrole)⟩

/-- Authentication does not touch the bindings. -/
theorem hasBinding_authenticateBasic (req : NTRIPRequest) (role : Bytes) (fails : Query → Bool)
    (userID : ℤ) (name : Bytes) :
    (h.authenticateBasic bc env req role).1.hasBinding fails userID name =
      h.acctSvc.hasBinding fails userID name := by
  unfold authenticateBasic
  split_ifs
  · rfl
  · split
    next => rfl
    next username password _ =>
      have hsame := h.acctSvc.hasBinding_authenticate bc env.fails env.now env.now' username
        password fails userID name
      split
      next heq => rwa [heq] at hsame
      next heq => rwa [heq] at hsame
      next heq =>
        rw [heq] at hsame
        split_ifs <;> exact hsame

end ConnHandler

end NtripCaster
