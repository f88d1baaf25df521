import NtripCaster.Api.Handlers
import NtripCaster.Caster.Disabling
import NtripCaster.Caster.Disconnecting
import NtripCaster.Mountpoint.Sweep

/-!
# Whose sessions `DisconnectUser` ends

Devices log in, with an account or without, and register on mountpoints that are created, updated
and deleted meanwhile, all step by step. A session carries the ID of its account, and 0 without
one. Account IDs are positive, since `AUTOINCREMENT` gives them out, but
`DELETE /api/users/{id}` takes any number.

## Main definitions

* `Login`, `LoginState`, `LoginStep`, `loginSystem`
* `Carries`: a session carries the ID of its account
* `LoginState.DisconnectsExactly`: the sessions of one account end, and those that depend on them

## Main results

* `LoginState.Attributed.step`: every session carries the ID of its account
* `disconnectUser_exact_iff`: `DisconnectUser` ends the sessions of the account, but for ID 0
-/

namespace NtripCaster

open Transition RoverState

/-- The registry as the admin API sees it. -/
def RegistryState.manager (s : RegistryState) : Manager :=
  ⟨GoMap.filterMap (fun m => (s.rovers.mounts[m]?).map Mount.point) s.mounts⟩

/-! ## Logins -/

/-- A handshake up to `Get`, and the account that it has authenticated as. -/
structure Login where
  handshake : Handshake
  account : Option ℤ

namespace Login

variable (x : Login)

/-- The account that `Authenticate` has found. -/
def accountOf : Except AccountError (Option User) → Option ℤ
  | .ok (some user) => some user.id
  | _ => none

/-- The login goes on. -/
def goto (pc : HandshakePC) : Login := { x with handshake := { x.handshake with pc := pc } }

end Login

/-- The accounts, the registry with what is connected, and the logins. `rovers` and `sources` are
the accounts behind the sessions, each at the session's `ref`. -/
structure LoginState where
  acctSvc : Service
  registry : RegistryState
  logins : List Login
  rovers : List (Option ℤ)
  sources : List (Option ℤ)

/-- A step, with its choices: of a login, of the registry, or one statement or cache clear of the
admin API. -/
inductive LoginStep
  | request (req : NTRIPRequest)
  | login (k : ℕ) (env : Env)
  | registry (a : RegistryStep)
  | write (c : Change)
  | cacheClear
  | writeTables (mountpoints : List MountPointRow) (bindings : List BindingRow)

/-- The steps of the registry that logins take. -/
def RegistryStep.isGet : RegistryStep → Bool
  | getRover .. | getSource .. => true
  | _ => false

namespace LoginState

variable (bc : Bcrypt) (cfg : Config) (s : LoginState)

/-- Login `k` moves on. -/
def setLogin (k : ℕ) (x : Login) : LoginState := { s with logins := s.logins.set k x }

/-- The next step of a login. -/
def login (k : ℕ) (env : Env) : Option LoginState :=
  (s.logins[k]?).bind fun x =>
    match x.handshake.pc with
    | .authenticate username password pc =>
      match pc.advance bc env.fails env.now username password s.acctSvc with
      | (svc, .done r) =>
        some ({ s with acctSvc := svc }.setLogin k
          { x.goto (Handshake.authenticated cfg x.handshake.req r) with
            account := Login.accountOf r })
      | (svc, pc) =>
        some ({ s with acctSvc := svc }.setLogin k (x.goto (.authenticate username password pc)))
    | .hasBinding userID =>
      match s.acctSvc.hasBinding env.fails userID x.handshake.req.mountPoint with
      | .ok true => some (s.setLogin k (x.goto (.get userID)))
      | _ => some (s.setLogin k (x.goto .ended))
    | .verifySecret =>
      match s.acctSvc.verifyMountPointSourceSecret bc env.fails x.handshake.req.mountPoint
          x.handshake.req.password with
      | .ok true => some (s.setLogin k (x.goto (.get 0)))
      | _ => some (s.setLogin k (x.goto .ended))
    | .get userID =>
      match s.registry.mounts.lookup x.handshake.req.mountPoint with
      | none => some (s.setLogin k (x.goto .ended))
      | some _ =>
        -- the session starts, and is registered by steps of its own
        if x.handshake.req.type = .rover then
          (s.registry.step (.getRover x.handshake.req.mountPoint env.uuid userID)).map
            fun registry =>
              { s with registry := registry, rovers := s.rovers ++ [x.account] }.setLogin k
                (x.goto .ended)
        else
          (s.registry.step (.getSource x.handshake.req.mountPoint
            ⟨s.sources.length, env.uuid, userID⟩)).map fun registry =>
              { s with registry := registry, sources := s.sources ++ [x.account] }.setLogin k
                (x.goto .ended)
    | _ => none

/-- A device connects, a login makes its next step, or the registry does; sessions start from a
login only. -/
def step : LoginStep → Option LoginState
  | .request req => some { s with logins := s.logins ++ [⟨⟨req, Handshake.start cfg req⟩, none⟩] }
  | .login k env => s.login bc cfg k env
  | .registry a =>
    if a.isGet then none
    else (s.registry.step a).map fun registry => { s with registry := registry }
  | .write c =>
    (c.write bc s.acctSvc).map fun users => { s with acctSvc := { s.acctSvc with users := users } }
  | .cacheClear => some { s with acctSvc := s.acctSvc.cacheClear }
  | .writeTables mountpoints bindings =>
    some { s with acctSvc := { s.acctSvc with mountpoints := mountpoints, bindings := bindings } }

end LoginState

/-- A server on any database whose IDs `AUTOINCREMENT` has given out. -/
def loginSystem (bc : Bcrypt) (cfg : Config) : System LoginState LoginStep where
  init s := ∃ (users : UserTable) (mountpoints : _) (bindings : _) (maxClients : _),
    (∀ r ∈ users.rows, 0 < r.id) ∧ 0 ≤ users.seq ∧
      s = ⟨Service.new users mountpoints bindings,
        ⟨∅, ⟨newGlobalLimiter maxClients, [], [], []⟩, [], []⟩, [], [], []⟩
  step := LoginState.step bc cfg

/-! ## Exactness -/

/-- The account behind a session. -/
def accountAt (accounts : List (Option ℤ)) (ref : ℕ) : Option ℤ := (accounts[ref]?).join

namespace LoginState

variable (s : LoginState)

/-- The source of the mountpoint has authenticated as the account. -/
def SourceOf (mp : MountPoint) (id : ℤ) : Prop :=
  ∃ src, mp.source = some src ∧ accountAt s.sources src.ref = some id

/-- The source, on a mountpoint of the registry, has authenticated as the account. -/
def EndsSource (id : ℤ) (src : SourceInfo) : Prop :=
  ∃ name mp, s.registry.manager.get name = some mp ∧ mp.source = some src ∧
    accountAt s.sources src.ref = some id

/-- The client, on a mountpoint of the registry, or its source has authenticated as the account. -/
def EndsClient (id : ℤ) (c : Client) : Prop :=
  ∃ name mp, s.registry.manager.get name = some mp ∧
    (∃ cid, mp.clientsByID.lookup cid = some c) ∧
      (s.SourceOf mp id ∨ accountAt s.rovers c.ref = some id)

/-- Exactly the sessions of the account, and the rovers on mountpoints whose source is one of them,
are taken off their mountpoints and closed: `h'` is what `h` has become. -/
structure DisconnectsExactly (id : ℤ) (h h' : Handlers) : Prop where
  names : ∀ name, (h'.mgr.get name).isSome = (h.mgr.get name).isSome
  sources : ∀ name mp mp', h.mgr.get name = some mp → h'.mgr.get name = some mp' →
    ∀ src, mp'.source = some src ↔
      mp.source = some src ∧ accountAt s.sources src.ref ≠ some id
  clients : ∀ name mp mp', h.mgr.get name = some mp → h'.mgr.get name = some mp' →
    ∀ cid c, mp'.clientsByID.lookup cid = some c ↔
      mp.clientsByID.lookup cid = some c ∧ ¬ s.SourceOf mp id ∧
        accountAt s.rovers c.ref ≠ some id
  closedSources : ∀ src, src ∈ h'.conns.sources ↔ src ∈ h.conns.sources ∧ ¬ s.EndsSource id src
  closedClients : ∀ c, c ∈ h'.conns.clients ↔ c ∈ h.conns.clients ∧ ¬ s.EndsClient id c

/-- Every session that is registered has an account. -/
def AllAuthenticated : Prop :=
  ∀ name mp, s.registry.manager.get name = some mp →
    (∀ src, mp.source = some src → accountAt s.sources src.ref ≠ none) ∧
      ∀ cid c, mp.clientsByID.lookup cid = some c → accountAt s.rovers c.ref ≠ none

end LoginState

/-! ## Positive IDs -/

/-- The IDs that `AUTOINCREMENT` has given out and will give out are positive. -/
structure UserTable.Positive (t : UserTable) : Prop where
  rows : ∀ r ∈ t.rows, 0 < r.id
  seq : 0 ≤ t.seq

namespace UserTable.Positive

variable {t : UserTable}

theorem insert (h : t.Positive) {username passwordHash role : Bytes} {t' : UserTable} {id : ℤ}
    (hins : t.insert username passwordHash role = some (t', id)) : t'.Positive := by
  have hseq := h.seq
  unfold UserTable.insert Tables.Table.insert at hins
  split_ifs at hins
  obtain ⟨rfl, -⟩ := Prod.mk.inj (Option.some.inj hins)
  refine ⟨fun r hr => ?_, ?_⟩
  · rcases List.mem_append.mp hr with hr | hr
    · exact h.rows r hr
    · obtain rfl := List.mem_singleton.mp hr
      exact Int.lt_add_one_of_le hseq
  · exact Int.le_add_one hseq

theorem modify (h : t.Positive) (id : ℤ) {f : UserRow → UserRow}
    (hf : ∀ r, (f r).id = r.id ∧ (f r).username = r.username) :
    UserTable.Positive (t.modify id f hf) := by
  refine ⟨fun r hr => ?_, h.seq⟩
  obtain ⟨r', hr', rfl⟩ := List.mem_map.mp hr
  split_ifs
  · rw [(hf r').1]
    exact h.rows r' hr'
  · exact h.rows r' hr'

/-- Every statement keeps the IDs positive. -/
theorem write (bc : Bcrypt) {svc : Service} (h : svc.users.Positive) {c : Change}
    (hc : c.write bc svc = some t) : t.Positive := by
  cases c with
  | createUser salt username password role =>
    obtain ⟨hash, -, hc⟩ := Option.bind_eq_some_iff.mp hc
    obtain ⟨⟨t', id⟩, hins, rfl⟩ := Option.map_eq_some_iff.mp hc
    exact h.insert hins
  | updateUser id role enabled =>
    obtain rfl := Option.some.inj hc
    exact h.modify id _
  | updatePassword salt id newPassword =>
    obtain ⟨hash, -, rfl⟩ := Option.map_eq_some_iff.mp hc
    exact h.modify id _
  | deleteUser id =>
    obtain rfl := Option.some.inj hc
    exact ⟨fun r hr => h.rows r (List.mem_of_mem_filter hr), h.seq⟩

end UserTable.Positive

/-- The user that a call of `Authenticate` has at hand. -/
def AuthPC.user : AuthPC → Option User
  | .compare u | .store u | .done (.ok (some u)) => some u
  | _ => none

/-- The user IDs of the table and of the cache are positive. -/
structure Service.Positive (svc : Service) : Prop where
  users : svc.users.Positive
  cache : ∀ key entry, svc.authCache.lookup key = some entry → 0 < entry.user.id

namespace Service.Positive

variable {bc : Bcrypt} {svc : Service}

theorem cacheClear (h : svc.Positive) : svc.cacheClear.Positive :=
  ⟨h.users, fun key entry hentry => by simp [Service.cacheClear] at hentry⟩

/-- `Authenticate` takes its user from the table or from the cache. -/
theorem advance (h : svc.Positive) (bc : Bcrypt) {pc : AuthPC} (hpc : ∀ u ∈ pc.user, 0 < u.id)
    (fails : Query → Bool) (now : ℤ) (username password : Bytes) :
    (pc.advance bc fails now username password svc).1.Positive ∧
      ∀ u ∈ (pc.advance bc fails now username password svc).2.user, 0 < u.id := by
  cases pc with
  | lookup =>
    simp only [AuthPC.advance]
    split
    next u hu =>
      refine ⟨h, fun v hv => ?_⟩
      obtain rfl := Option.some.inj hv
      unfold cacheLookup at hu
      split at hu
      next entry hentry =>
        obtain ⟨-, hu⟩ := Option.ite_none_right_eq_some.mp hu
        exact Option.some.inj hu ▸ h.cache _ entry hentry
      next => cases hu
    next => exact ⟨h, fun v hv => by cases hv⟩
  | read =>
    simp only [AuthPC.advance]
    split
    next => exact ⟨h, fun v hv => by cases hv⟩
    next => exact ⟨h, fun v hv => by cases hv⟩
    next u hu =>
      split_ifs
      · exact ⟨h, fun v hv => by cases hv⟩
      · refine ⟨h, fun v hv => ?_⟩
        obtain rfl := Option.some.inj hv
        unfold getUserByName at hu
        split_ifs at hu
        obtain ⟨r, hr, rfl⟩ := Option.map_eq_some_iff.mp (Except.ok.inj hu)
        exact h.users.rows r (List.mem_of_find?_eq_some hr)
  | compare u =>
    simp only [AuthPC.advance]
    split_ifs
    · exact ⟨h, fun v hv => by cases hv⟩
    · exact ⟨h, hpc⟩
  | store u =>
    refine ⟨⟨h.users, fun key entry hentry => ?_⟩, hpc⟩
    rcases GoMap.lookup_insert_eq_some.mp hentry with ⟨-, rfl⟩ | ⟨-, hentry⟩
    · exact hpc u rfl
    · exact h.cache key entry hentry
  | done r => exact ⟨h, hpc⟩

end Service.Positive

/-! ## Sessions carry the IDs of their accounts -/

/-- The user ID of a session is that of its account, which is positive, or 0 without one. -/
structure Owns (account : Option ℤ) (userID : ℤ) : Prop where
  userID : userID = account.getD 0
  positive : ∀ id ∈ account, 0 < id

/-- The session at `ref` carries the ID of its account. -/
def Carries (accounts : List (Option ℤ)) (ref : ℕ) (userID : ℤ) : Prop :=
  ∃ account, accounts[ref]? = some account ∧ Owns account userID

namespace Carries

variable {accounts : List (Option ℤ)} {ref : ℕ} {userID : ℤ}

theorem append (h : Carries accounts ref userID) (l : List (Option ℤ)) :
    Carries (accounts ++ l) ref userID := by
  obtain ⟨account, hget, hown⟩ := h
  exact ⟨account, getElem?_append_of_eq_some hget, hown⟩

theorem concat {account : Option ℤ} (h : Owns account userID) :
    Carries (accounts ++ [account]) accounts.length userID :=
  ⟨account, List.getElem?_concat_length, h⟩

/-- A positive ID tells the account; 0 tells that there is none. -/
theorem accountAt_iff (h : Carries accounts ref userID) (id : ℤ) :
    accountAt accounts ref = some id ↔ userID = id ∧ id ≠ 0 := by
  obtain ⟨account, hget, huser, hpos⟩ := h
  rw [accountAt, hget, Option.join_some, huser]
  cases account with
  | none => simp [eq_comm]
  | some id' =>
    have hne : id' ≠ 0 := Int.ne_of_gt (hpos id' rfl)
    simp only [Option.some.injEq, Option.getD_some]
    exact ⟨fun heq => ⟨heq, heq ▸ hne⟩, And.left⟩

theorem accountAt_eq_none (h : Carries accounts ref userID) :
    accountAt accounts ref = none ↔ userID = 0 := by
  obtain ⟨account, hget, huser, hpos⟩ := h
  rw [accountAt, hget, Option.join_some, huser]
  cases account with
  | none => simp
  | some id => simpa using Int.ne_of_gt (hpos id rfl)

end Carries

namespace Login

/-- A login goes on with the ID of its account, once it has authenticated. -/
structure Attributed (x : Login) : Prop where
  positive : ∀ id ∈ x.account, 0 < id
  pc : match x.handshake.pc with
    | .authenticate _ _ pc => ∀ u ∈ pc.user, 0 < u.id
    | .hasBinding userID | .get userID => userID = x.account.getD 0
    | .verifySecret => x.account = none
    | _ => True

theorem Attributed.start (cfg : Config) (req : NTRIPRequest) :
    Attributed ⟨⟨req, Handshake.start cfg req⟩, none⟩ := by
  have hbasic : Attributed ⟨⟨req, Handshake.authenticateBasic req⟩, none⟩ := by
    refine ⟨nofun, ?_⟩
    unfold Handshake.authenticateBasic
    split_ifs
    · trivial
    · cases parseBasicAuth (req.header "Authorization") with
      | none => trivial
      | some credentials => exact nofun
  have hget : Attributed ⟨⟨req, .get 0⟩, none⟩ := ⟨nofun, rfl⟩
  unfold Handshake.start
  split
  · split_ifs
    · exact hbasic
    · exact hget
  · split_ifs
    · exact hbasic
    · exact ⟨nofun, rfl⟩
    · exact hget
    · exact hget
  · split_ifs
    · exact hbasic
    · exact hget
  · exact ⟨nofun, trivial⟩

theorem Attributed.ended {x : Login} (h : x.Attributed) : (x.goto .ended).Attributed :=
  ⟨h.positive, trivial⟩

theorem Attributed.get {x : Login} (h : x.Attributed) {userID : ℤ}
    (huser : userID = x.account.getD 0) : (x.goto (.get userID)).Attributed :=
  ⟨h.positive, huser⟩

/-- What `Authenticate` returns. -/
theorem Attributed.authenticated (cfg : Config) (x : Login)
    {r : Except AccountError (Option User)} (hr : ∀ u, r = .ok (some u) → 0 < u.id) :
    Attributed { x.goto (Handshake.authenticated cfg x.handshake.req r) with
      account := accountOf r } := by
  have hended : ∀ account : Option ℤ, (∀ id ∈ account, 0 < id) →
      Attributed { x.goto .ended with account := account } := fun account hpos => ⟨hpos, trivial⟩
  match r, hr with
  | .error e, _ => exact hended _ nofun
  | .ok none, _ => exact hended _ nofun
  | .ok (some user), hr =>
    have hpos : ∀ id ∈ some user.id, 0 < id := by
      intro id hid
      obtain rfl := Option.some.inj hid
      exact hr user rfl
    have hget : Attributed { x.goto (.get user.id) with account := some user.id } := ⟨hpos, rfl⟩
    have hbinding : Attributed { x.goto (.hasBinding user.id) with account := some user.id } :=
      ⟨hpos, rfl⟩
    unfold Handshake.authenticated accountOf
    dsimp only
    split
    · exact hended _ hpos
    · split
      · split
        · exact hget
        · exact hbinding
      · exact hbinding
      · split
        · exact hbinding
        · exact hget

end Login

/-- Every session, registered or on its way there, carries the ID of its account. -/
structure LoginState.Attributed (s : LoginState) : Prop where
  accounts : s.acctSvc.Positive
  logins : ∀ x ∈ s.logins, x.Attributed
  length : s.rovers.length = s.registry.rovers.sessions.length
  handshakes : ∀ y ∈ s.registry.handshakes, Carries s.sources y.info.ref y.info.userID
  sessions : ∀ x ∈ s.registry.rovers.sessions, Carries s.rovers x.client.ref x.client.userID
  onMount : ∀ m, s.registry.rovers.OnMount m (fun src => Carries s.sources src.ref src.userID)
    fun c => Carries s.rovers c.ref c.userID

/-- What a step of the registry that no login takes does to rovers and mountpoints. -/
inductive RegistryState.RoversMove (s : RegistryState) : RoverState → Prop
  | same : RoversMove s s.rovers
  | create {mt : Mount} (h : mt.Fresh) :
    RoversMove s { s.rovers with mounts := s.rovers.mounts ++ [mt] }
  | step {b : RoverStep} {r : RoverState} (h : s.rovers.step b = some r)
      (hconnect : ∀ mount id userID, b ≠ .connect mount id userID)
      (hset : ∀ m src, b = .operate m (.setSource src) → ∃ x ∈ s.handshakes, x.info = src) :
    RoversMove s r

namespace RegistryState

variable {s s' : RegistryState}

theorem mem_set_info {k : ℕ} {x x' : SourceHandshake} (hx : s.handshakes[k]? = some x)
    (hinfo : x'.info = x.info) :
    ∀ y ∈ s.handshakes.set k x', ∃ z ∈ s.handshakes, y.info = z.info := by
  intro y hy
  rcases List.mem_or_eq_of_mem_set hy with hy | rfl
  · exact ⟨y, hy, rfl⟩
  · exact ⟨x, List.mem_of_getElem? hx, hinfo⟩

theorem roversMove_source {k : ℕ} (h : s.source k = some s') :
    s.RoversMove s'.rovers ∧ ∀ y ∈ s'.handshakes, ∃ x ∈ s.handshakes, y.info = x.info := by
  obtain ⟨x, hx, h⟩ := Option.bind_eq_some_iff.mp h
  obtain ⟨mt, -, h⟩ := Option.bind_eq_some_iff.mp h
  split at h
  next =>
    obtain rfl := Option.some.inj h
    exact ⟨.same, mem_set_info hx rfl⟩
  next =>
    obtain ⟨r, hr, rfl⟩ := Option.map_eq_some_iff.mp h
    refine ⟨.step hr nofun fun m src hop => ?_, mem_set_info hx rfl⟩
    obtain ⟨-, hsrc⟩ := RoverStep.operate.inj hop
    exact ⟨x, List.mem_of_getElem? hx, CriticalSection.setSource.inj hsrc⟩
  next => cases h

theorem roversMove_call {k : ℕ} {ord : RangeOrder Client} (h : s.call k ord = some s') :
    s.RoversMove s'.rovers ∧ s'.handshakes = s.handshakes := by
  obtain ⟨c, -, h⟩ := Option.bind_eq_some_iff.mp h
  split at h
  next =>
    obtain ⟨mt, -, rfl⟩ := Option.map_eq_some_iff.mp h
    exact ⟨.same, rfl⟩
  next args wasEnabled _ =>
    obtain ⟨r, hr, h⟩ := Option.map_eq_some_iff.mp h
    have hmove : s.RoversMove r := .step hr nofun fun m src hop => by
      cases (RoverStep.operate.inj hop).2
    split at h
    · exact h ▸ ⟨hmove, rfl⟩
    · exact h ▸ ⟨hmove, rfl⟩
  next =>
    obtain ⟨r, hr, rfl⟩ := Option.map_eq_some_iff.mp h
    exact ⟨.step hr nofun nofun, rfl⟩
  next =>
    obtain ⟨-, h⟩ := Option.ite_none_right_eq_some.mp h
    exact Option.some.inj h ▸ ⟨.same, rfl⟩
  next => cases h

/-- The registry, where it does not look up a mountpoint for a login, starts no rover and gives no
handshake another user. -/
theorem roversMove {a : RegistryStep} (ha : a.isGet = false) (h : s.step a = some s') :
    s.RoversMove s'.rovers ∧ ∀ y ∈ s'.handshakes, ∃ x ∈ s.handshakes, y.info = x.info := by
  have hold : ∀ y ∈ s.handshakes, ∃ x ∈ s.handshakes, y.info = x.info :=
    fun y hy => ⟨y, hy, rfl⟩
  cases a with
  | create name description format writeQueue writeTimeout maxClients =>
    simp only [step, RegistryState.create] at h
    split at h
    · cases h
    · exact Option.some.inj h ▸ ⟨.create ⟨_, _, _, _, _, _, rfl⟩, hold⟩
  | getRover name id userID => cases ha
  | getSource name info => cases ha
  | source k => exact roversMove_source h
  | rover a =>
    obtain ⟨hown, h⟩ := Option.ite_none_right_eq_some.mp h
    obtain ⟨r, hr, rfl⟩ := Option.map_eq_some_iff.mp h
    refine ⟨.step hr ?_ ?_, hold⟩
    · rintro mount id userID rfl
      cases hown
    · rintro m src rfl
      cases hown
  | update name args =>
    obtain ⟨m, -, rfl⟩ := Option.map_eq_some_iff.mp h
    exact ⟨.same, hold⟩
  | delete name =>
    obtain ⟨m, -, rfl⟩ := Option.map_eq_some_iff.mp h
    exact ⟨.same, hold⟩
  | call k ord =>
    obtain ⟨hmove, heq⟩ := roversMove_call h
    exact ⟨hmove, heq ▸ hold⟩

end RegistryState

/-- What holds of everything on a mountpoint, for weaker properties. -/
theorem RoverState.OnMount.imp {s : RoverState} {m : ℕ} {S S' : SourceInfo → Prop}
    {C C' : Client → Prop} (h : s.OnMount m S C) (hS : ∀ src, S src → S' src)
    (hC : ∀ d, C d → C' d) : s.OnMount m S' C' :=
  fun mt hmt => ⟨fun src hsrc => hS src ((h mt hmt).1 src hsrc),
    fun id d hd => hC d ((h mt hmt).2 id d hd)⟩

namespace LoginState

variable {bc : Bcrypt} {cfg : Config} {s s' : LoginState}

/-- A client that joins belongs to a session. -/
theorem carries_of_joins (h : s.Attributed) {b : RoverStep} {m : ℕ} {c : Client}
    (hc : s.registry.rovers.Joins b m c) : Carries s.rovers c.ref c.userID := by
  obtain ⟨i, ord, r, x, mt, mp, -, hx, -, -, -, hnew, -⟩ := hc
  obtain ⟨-, hnew⟩ := Option.ite_none_right_eq_some.mp hnew
  exact Option.some.inj hnew ▸ h.sessions x (List.mem_of_getElem? hx)

theorem Attributed.registry (h : s.Attributed) {a : RegistryStep} (ha : a.isGet = false)
    {registry : RegistryState} (hstep : s.registry.step a = some registry) :
    Attributed { s with registry := registry } := by
  obtain ⟨hmove, hinfo⟩ := RegistryState.roversMove ha hstep
  have hhandshakes : ∀ y ∈ registry.handshakes, Carries s.sources y.info.ref y.info.userID := by
    intro y hy
    obtain ⟨x, hx, heq⟩ := hinfo y hy
    rw [heq]
    exact h.handshakes x hx
  obtain ⟨mounts, rovers, handshakes, calls⟩ := registry
  cases hmove with
  | same => exact ⟨h.accounts, h.logins, h.length, hhandshakes, h.sessions, h.onMount⟩
  | create hfresh =>
    exact ⟨h.accounts, h.logins, h.length, hhandshakes, h.sessions, fun m =>
      onMount_create (h.onMount m) hfresh⟩
  | step hr hconnect hset =>
    refine ⟨h.accounts, h.logins, ?_, hhandshakes, fun x' hx' => ?_, fun m => ?_⟩
    · exact h.length.trans (length_sessions_step hr hconnect).symm
    · obtain ⟨x, hx, href, huser⟩ := client_of_step hr hconnect hx'
      rw [href, huser]
      exact h.sessions x hx
    · refine (h.onMount m).step hr (fun _ hc => hc) (fun c hc => carries_of_joins h hc) ?_
      rintro src rfl
      obtain ⟨x, hx, rfl⟩ := hset m src rfl
      exact h.handshakes x hx

/-- A login moves on, with an account service whose IDs are positive. -/
theorem Attributed.setLogin (h : s.Attributed) {svc : Service} (hsvc : svc.Positive) (k : ℕ)
    {x : Login} (hx : x.Attributed) :
    Attributed (LoginState.setLogin { s with acctSvc := svc } k x) :=
  ⟨hsvc, forall_mem_set h.logins hx, h.length, h.handshakes, h.sessions, h.onMount⟩

/-- The session of a rover starts. -/
theorem Attributed.getRover (h : s.Attributed) {name id : Bytes} {userID : ℤ}
    {account : Option ℤ} (hown : Owns account userID) {registry : RegistryState}
    (hstep : s.registry.step (.getRover name id userID) = some registry) :
    Attributed { s with registry := registry, rovers := s.rovers ++ [account] } := by
  obtain ⟨m, -, hstep⟩ := Option.bind_eq_some_iff.mp hstep
  obtain ⟨r, hr, rfl⟩ := Option.map_eq_some_iff.mp hstep
  obtain rfl := Option.some.inj hr
  refine ⟨h.accounts, h.logins, ?_, h.handshakes, ?_, fun m => ?_⟩
  · simp [h.length]
  · refine forall_mem_snoc (fun x hx => (h.sessions x hx).append _) ?_
    exact h.length ▸ Carries.concat hown
  · exact (h.onMount m).imp (fun _ hsrc => hsrc) fun c hc => hc.append _

/-- The handshake of a source goes on in the registry. -/
theorem Attributed.getSource (h : s.Attributed) {name id : Bytes} {userID : ℤ}
    {account : Option ℤ} (hown : Owns account userID) {registry : RegistryState}
    (hstep : s.registry.step (.getSource name ⟨s.sources.length, id, userID⟩) = some registry) :
    Attributed { s with registry := registry, sources := s.sources ++ [account] } := by
  obtain ⟨m, -, rfl⟩ := Option.map_eq_some_iff.mp hstep
  refine ⟨h.accounts, h.logins, h.length, ?_, h.sessions, fun m => ?_⟩
  · exact forall_mem_snoc (fun y hy => (h.handshakes y hy).append _) (Carries.concat hown)
  · exact (h.onMount m).imp (fun src hsrc => hsrc.append _) fun _ hc => hc

/-- A login hands the ID of its account on, to the session that it starts. -/
theorem Attributed.login (h : s.Attributed) {k : ℕ} {env : Env}
    (hstep : s.login bc cfg k env = some s') : s'.Attributed := by
  obtain ⟨x, hk, hstep⟩ := Option.bind_eq_some_iff.mp hstep
  have hx := h.logins x (List.mem_of_getElem? hk)
  have hpc := hx.pc
  split at hstep
  next username password pc heq =>
    rw [heq] at hpc
    obtain ⟨hsvc, huser⟩ := h.accounts.advance bc hpc env.fails env.now username password
    split at hstep
    next svc r hadv =>
      rw [hadv] at hsvc huser
      refine Option.some.inj hstep ▸ h.setLogin hsvc k (.authenticated cfg x fun u hu => ?_)
      subst hu
      exact huser u rfl
    next svc pc' _ hadv =>
      rw [hadv] at hsvc huser
      exact Option.some.inj hstep ▸ h.setLogin hsvc k ⟨hx.positive, huser⟩
  next userID heq =>
    rw [heq] at hpc
    split at hstep
    · exact Option.some.inj hstep ▸ h.setLogin h.accounts k (hx.get hpc)
    · exact Option.some.inj hstep ▸ h.setLogin h.accounts k hx.ended
  next heq =>
    rw [heq] at hpc
    split at hstep
    · refine Option.some.inj hstep ▸ h.setLogin h.accounts k (hx.get ?_)
      rw [show x.account = none from hpc]
      rfl
    · exact Option.some.inj hstep ▸ h.setLogin h.accounts k hx.ended
  next userID heq =>
    rw [heq] at hpc
    have hown : Owns x.account userID := ⟨hpc, hx.positive⟩
    split at hstep
    · exact Option.some.inj hstep ▸ h.setLogin h.accounts k hx.ended
    · split at hstep
      · obtain ⟨registry, hget, rfl⟩ := Option.map_eq_some_iff.mp hstep
        have hgot := h.getRover hown hget
        exact hgot.setLogin hgot.accounts k hx.ended
      · obtain ⟨registry, hget, rfl⟩ := Option.map_eq_some_iff.mp hstep
        have hgot := h.getSource hown hget
        exact hgot.setLogin hgot.accounts k hx.ended
  next => cases hstep

/-- Every step keeps the IDs of the sessions those of their accounts. -/
theorem Attributed.step (h : s.Attributed) {a : LoginStep}
    (hstep : s.step bc cfg a = some s') : s'.Attributed := by
  have hsvc : ∀ svc : Service, svc.Positive → Attributed { s with acctSvc := svc } :=
    fun svc hpos => ⟨hpos, h.logins, h.length, h.handshakes, h.sessions, h.onMount⟩
  cases a with
  | request req =>
    refine Option.some.inj hstep ▸
      ⟨h.accounts, ?_, h.length, h.handshakes, h.sessions, h.onMount⟩
    exact forall_mem_snoc h.logins (Login.Attributed.start cfg req)
  | login k env => exact h.login hstep
  | registry a =>
    obtain ⟨ha, hstep⟩ := Option.ite_none_left_eq_some.mp hstep
    obtain ⟨registry, hr, rfl⟩ := Option.map_eq_some_iff.mp hstep
    exact h.registry (Bool.eq_false_iff.mpr ha) hr
  | write c =>
    obtain ⟨users, hc, rfl⟩ := Option.map_eq_some_iff.mp hstep
    exact hsvc _ ⟨.write bc h.accounts.users hc, h.accounts.cache⟩
  | cacheClear => exact Option.some.inj hstep ▸ hsvc _ h.accounts.cacheClear
  | writeTables mountpoints bindings =>
    exact Option.some.inj hstep ▸ hsvc _ ⟨h.accounts.users, h.accounts.cache⟩

end LoginState

theorem loginSystem_attributed {bc : Bcrypt} {cfg : Config} {s : LoginState}
    (h : (loginSystem bc cfg).Reachable s) : s.Attributed := by
  refine h.invariant ?_ fun s a s' _ hs hstep => hs.step hstep
  rintro s ⟨users, mountpoints, bindings, maxClients, hrows, hseq, rfl⟩
  refine ⟨⟨⟨hrows, hseq⟩, fun key entry hentry => ?_⟩, List.forall_mem_nil _, rfl,
    List.forall_mem_nil _, List.forall_mem_nil _, fun m mt hmt => ?_⟩
  · simp [Service.new] at hentry
  · simp at hmt

/-! ## What `DisconnectUser` ends -/

theorem mem_sources_foldl_teardown {ts : List Teardown} {conns : Connections} {src : SourceInfo} :
    src ∈ (ts.foldl Connections.teardown conns).sources ↔
      src ∈ conns.sources ∧ ¬ ∃ t ∈ ts, t.stop = some src := by
  induction ts generalizing conns with
  | nil => simp
  | cons t ts ih =>
    rw [List.foldl_cons, ih, List.exists_mem_cons_iff, not_or, ← and_assoc]
    simp [Connections.teardown]

theorem mem_clients_foldl_teardown {ts : List Teardown} {conns : Connections} {c : Client} :
    c ∈ (ts.foldl Connections.teardown conns).clients ↔
      c ∈ conns.clients ∧ ¬ ∃ t ∈ ts, c ∈ t.kick := by
  induction ts generalizing conns with
  | nil => simp
  | cons t ts ih =>
    rw [List.foldl_cons, ih, List.exists_mem_cons_iff, not_or, ← and_assoc]
    simp [Connections.teardown]

namespace LoginState

variable {s : LoginState} {id : ℤ}

/-- What is registered under a name of the registry. -/
theorem Attributed.carries (h : s.Attributed) {name : Bytes} {mp : MountPoint}
    (hget : s.registry.manager.get name = some mp) :
    (∀ src, mp.source = some src → Carries s.sources src.ref src.userID) ∧
      ∀ cid c, mp.clientsByID.lookup cid = some c → Carries s.rovers c.ref c.userID := by
  obtain ⟨m, -, hm⟩ := GoMap.lookup_filterMap.mp hget
  obtain ⟨mt, hmt, rfl⟩ := Option.map_eq_some_iff.mp hm
  exact h.onMount m mt hmt

/-- On the mountpoints of the registry, the user ID `id` tells the sessions of the account `id` from
all others. -/
def Told (s : LoginState) (id : ℤ) : Prop :=
  ∀ name mp, s.registry.manager.get name = some mp →
    (∀ src, mp.source = some src → (accountAt s.sources src.ref = some id ↔ src.userID = id)) ∧
      ∀ cid c, mp.clientsByID.lookup cid = some c →
        (accountAt s.rovers c.ref = some id ↔ c.userID = id)

theorem Attributed.told (h : s.Attributed) (hid : id ≠ 0 ∨ s.AllAuthenticated) : s.Told id := by
  intro name mp hget
  obtain ⟨hsource, hclient⟩ := h.carries hget
  -- an ID other than 0 is its account's; with an account, no session has ID 0
  have htold : ∀ {accounts ref userID}, Carries accounts ref userID →
      (id ≠ 0 ∨ accountAt accounts ref ≠ none) →
      (accountAt accounts ref = some id ↔ userID = id) := by
    intro accounts ref userID hc hor
    rw [hc.accountAt_iff]
    rw [ne_eq (accountAt accounts ref), hc.accountAt_eq_none] at hor
    exact ⟨And.left, fun heq => ⟨heq, hor.elim (fun h => h) fun h => heq ▸ h⟩⟩
  constructor
  · intro src hsrc
    exact htold (hsource src hsrc) (hid.imp_right fun hall => (hall name mp hget).1 src hsrc)
  · intro cid c hc
    exact htold (hclient cid c hc) (hid.imp_right fun hall => (hall name mp hget).2 cid c hc)

theorem Told.sourceOf (h : s.Told id) {name : Bytes} {mp : MountPoint}
    (hget : s.registry.manager.get name = some mp) : s.SourceOf mp id ↔ mp.SourceOf id :=
  exists_congr fun src => and_congr_right ((h name mp hget).1 src)

/-- Where the ID tells the sessions of the account from all others, they end and no others. -/
theorem Told.disconnectsExactly (h : s.Told id) (acctSvc : AcctSvc) (conns : Connections)
    (env : AdminEnv) :
    s.DisconnectsExactly id ⟨acctSvc, s.registry.manager, conns⟩
      (Handlers.disconnectUser env ⟨acctSvc, s.registry.manager, conns⟩ id) where
  names name := by
    simp only [Handlers.disconnectUser, Manager.get_disconnectUser, Option.isSome_map]
  sources := by
    intro name mp mp' hget hget' src
    simp only [Handlers.disconnectUser, Manager.get_disconnectUser, hget, Option.map_some,
      Option.some.injEq] at hget'
    rw [← hget', MountPoint.source_sweepUser]
    exact and_congr_right fun hsrc => not_congr ((h name mp hget).1 src hsrc).symm
  clients := by
    intro name mp mp' hget hget' cid c
    simp only [Handlers.disconnectUser, Manager.get_disconnectUser, hget, Option.map_some,
      Option.some.injEq] at hget'
    rw [← hget', MountPoint.lookup_sweepUser, h.sourceOf hget]
    refine and_congr_right fun hc => and_congr_right' (not_congr ?_)
    exact ((h name mp hget).2 cid c hc).symm
  closedSources src := by
    simp only [Handlers.disconnectUser, mem_sources_foldl_teardown, Manager.stop_disconnectUser]
    refine and_congr_right' (not_congr (exists_congr fun name => exists_congr fun mp => ?_))
    refine and_congr_right fun hget => and_congr_right fun hsrc => ?_
    exact ((h name mp hget).1 src hsrc).symm
  closedClients c := by
    simp only [Handlers.disconnectUser, mem_clients_foldl_teardown, Manager.kick_disconnectUser]
    refine and_congr_right' (not_congr (exists_congr fun name => exists_congr fun mp => ?_))
    refine and_congr_right fun hget => and_congr_right fun ⟨cid, hc⟩ => ?_
    rw [h.sourceOf hget, (h name mp hget).2 cid c hc]

/-- Where exactly the sessions of account 0 end, nobody is registered without an account. -/
theorem Attributed.allAuthenticated (h : s.Attributed) {acctSvc : AcctSvc} {conns : Connections}
    {env : AdminEnv}
    (hexact : s.DisconnectsExactly 0 ⟨acctSvc, s.registry.manager, conns⟩
      (Handlers.disconnectUser env ⟨acctSvc, s.registry.manager, conns⟩ 0)) :
    s.AllAuthenticated := by
  intro name mp hget
  have hget' : (Handlers.disconnectUser env ⟨acctSvc, s.registry.manager, conns⟩ 0).mgr.get name =
      some (mp.sweepUser env.ord env.ord' 0) := by
    simp only [Handlers.disconnectUser, Manager.get_disconnectUser, hget, Option.map_some]
  obtain ⟨hsource, hclient⟩ := h.carries hget
  have hzero : ∀ {accounts ref userID}, Carries accounts ref userID →
      accountAt accounts ref ≠ some 0 := fun hc heq => ((hc.accountAt_iff 0).mp heq).2 rfl
  constructor
  · intro src hsrc hnone
    have hstays := (hexact.sources name mp _ hget hget' src).mpr ⟨hsrc, hzero (hsource src hsrc)⟩
    exact (MountPoint.source_sweepUser.mp hstays).2 ((hsource src hsrc).accountAt_eq_none.mp hnone)
  · intro cid c hc hnone
    have hnot : ¬ s.SourceOf mp 0 := fun ⟨src, hsrc, hacc⟩ => hzero (hsource src hsrc) hacc
    have hstays := (hexact.clients name mp _ hget hget' cid c).mpr
      ⟨hc, hnot, hzero (hclient cid c hc)⟩
    exact (MountPoint.lookup_sweepUser.mp hstays).2.2
      ((hclient cid c hc).accountAt_eq_none.mp hnone)

end LoginState

/-- **`DisconnectUser` ends the sessions of the account, unless the ID is 0 and somebody is
connected without an account**: in every reachable state, for every number that
`DELETE /api/users/{id}` takes and every order of the loops, exactly the sources and rovers that
have authenticated as the account with this ID, and the rovers on the mountpoints of these sources,
are taken off and closed, if and only if the number is not 0 or every registered session has an
account. -/
theorem disconnectUser_exact_iff {bc : Bcrypt} {cfg : Config} {s : LoginState}
    (h : (loginSystem bc cfg).Reachable s) (acctSvc : AcctSvc) (conns : Connections)
    (env : AdminEnv) (id : ℤ) :
    s.DisconnectsExactly id ⟨acctSvc, s.registry.manager, conns⟩
        (Handlers.disconnectUser env ⟨acctSvc, s.registry.manager, conns⟩ id) ↔
      id ≠ 0 ∨ s.AllAuthenticated := by
  have hattr := loginSystem_attributed h
  constructor
  · intro hexact
    by_cases hid : id = 0
    · subst hid
      exact .inr (hattr.allAuthenticated hexact)
    · exact .inl hid
  · exact fun hid => (hattr.told hid).disconnectsExactly acctSvc conns env

/-- A server on the database of `boundUser`, without mountpoints. -/
def emptyRegistry : LoginState :=
  ⟨boundUser.acctSvc, ⟨∅, ⟨newGlobalLimiter 0, [], [], []⟩, [], []⟩, [], [], []⟩

theorem emptyRegistry_init (cfg : Config) : (loginSystem plainBcrypt cfg).init emptyRegistry :=
  ⟨_, _, _, _, by simp [UserTable.single], by simp [UserTable.single], rfl⟩

/-- `M` is created, and a base station logs in with `n` steps and registers. -/
def publish (req : NTRIPRequest) (n : ℕ) : List LoginStep :=
  [.registry (.create (ascii "M") [] (ascii "RTCM3") 64 3000000000 0), .request req] ++
    List.replicate n (.login 0 quietEnv) ++ List.replicate 2 (.registry (.source 0))

/-- `POST /M` with the credentials of `u`. -/
def boundPost : NTRIPRequest :=
  { type := .sourceRev2
    mountPoint := ascii "M"
    headers := (∅ : GoMap Bytes Bytes).insert (ascii "Authorization") (ascii "Basic dTpw") }

theorem disconnectUser_exact_iff_boundPost :
    ∃ s, (loginSystem plainBcrypt defaultConfig).run emptyRegistry (publish boundPost 6) = some s ∧
      (s.DisconnectsExactly 1 ⟨⟨.empty, .empty, ∅⟩, s.registry.manager, ⟨[⟨0, ascii "s", 1⟩], []⟩⟩
        (Handlers.disconnectUser faultless
          ⟨⟨.empty, .empty, ∅⟩, s.registry.manager, ⟨[⟨0, ascii "s", 1⟩], []⟩⟩ 1) ↔
        (1 : ℤ) ≠ 0 ∨ s.AllAuthenticated) := by
  obtain ⟨s, hs⟩ : ∃ s, (loginSystem plainBcrypt defaultConfig).run emptyRegistry
      (publish boundPost 6) = some s := ⟨_, rfl⟩
  exact ⟨s, hs, disconnectUser_exact_iff (.of_run _ (emptyRegistry_init _) hs) _ _ _ 1⟩

/-- `SOURCE secret /M`, without credentials. -/
def legacySource : NTRIPRequest :=
  { type := .sourceRev1, mountPoint := ascii "M", password := ascii "secret" }

/-- `DELETE /api/users/0` takes a base station off that has connected without an account. -/
theorem disconnectUser_not_exact :
    ¬ ∀ (bc : Bcrypt) (cfg : Config) (s : LoginState), (loginSystem bc cfg).Reachable s →
      ∀ (acctSvc : AcctSvc) (conns : Connections) (env : AdminEnv) (id : ℤ),
        s.DisconnectsExactly id ⟨acctSvc, s.registry.manager, conns⟩
          (Handlers.disconnectUser env ⟨acctSvc, s.registry.manager, conns⟩ id) := by
  intro hall
  obtain ⟨s, hs, mp, mp', hget, hget', hsrc, hacc, hgone⟩ : ∃ s,
      (loginSystem plainBcrypt
          { defaultConfig with auth := { defaultConfig.auth with enabled := false } }).run
        emptyRegistry (publish legacySource 1) = some s ∧
      ∃ mp mp', s.registry.manager.get (ascii "M") = some mp ∧
        (Handlers.disconnectUser faultless
          ⟨⟨.empty, .empty, ∅⟩, s.registry.manager, ⟨[], []⟩⟩ 0).mgr.get (ascii "M") = some mp' ∧
        mp.source = some ⟨0, ascii "s", 0⟩ ∧ accountAt s.sources 0 = none ∧ mp'.source = none :=
    ⟨_, rfl, _, _, rfl, rfl, rfl, rfl, rfl⟩
  have hexact := hall _ _ s (.of_run _ (emptyRegistry_init _) hs) ⟨.empty, .empty, ∅⟩ ⟨[], []⟩
    faultless 0
  have hstays := (hexact.sources _ mp mp' hget hget' _).mpr ⟨hsrc, by rw [hacc]; simp⟩
  rw [hgone] at hstays
  cases hstays

end NtripCaster
