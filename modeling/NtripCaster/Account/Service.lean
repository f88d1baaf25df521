import NtripCaster.Account.Users
import NtripCaster.Go.Map

/-!
# The account service

`internal/account/service.go`: accounts, mountpoint records and bindings in the database, and an
in-memory cache of successful authentications. The password hash is a parameter, and so is
which queries the database fails to answer.

## Main definitions

* `Bcrypt`: the password hash
* `Service`: the tables and the authentication cache
* `Service.authenticate`: the cached fast path and the database slow path
* `Service.createUser`, `updateUser`, `updatePassword`, `deleteUser`
* `Service.verifyMountPointSourceSecret`, `Service.hasBinding`
-/

namespace NtripCaster

/-- `golang.org/x/crypto/bcrypt`: a salted hash, or `none` for an input it rejects, and the
comparison of a hash with a password. -/
structure Bcrypt where
  generateFromPassword : Bytes → Bytes → Option Bytes
  compareHashAndPassword : Bytes → Bytes → Bool

/-- A hash accepts exactly the password it was made from. -/
def Bcrypt.Correct (bc : Bcrypt) : Prop :=
  ∀ salt password hash, bc.generateFromPassword salt password = some hash →
    ∀ password', bc.compareHashAndPassword hash password' = true ↔ password' = password

/-- A hash accepts the password it was made from. -/
def Bcrypt.Complete (bc : Bcrypt) : Prop :=
  ∀ salt password hash, bc.generateFromPassword salt password = some hash →
    bc.compareHashAndPassword hash password = true

/-- A hash that is the password itself, for passwords of at most 72 bytes. -/
def plainBcrypt : Bcrypt where
  generateFromPassword _ password := if password.length ≤ 72 then some password else none
  compareHashAndPassword hash password := hash == password

theorem plainBcrypt_correct : plainBcrypt.Correct := by
  intro salt password hash h password'
  obtain ⟨-, h⟩ := Option.ite_none_right_eq_some.mp h
  obtain rfl := Option.some.inj h
  exact beq_iff_eq.trans eq_comm

theorem Bcrypt.Correct.complete {bc : Bcrypt} (h : bc.Correct) : bc.Complete :=
  fun salt password hash hhash => (h salt password hash hhash password).mpr rfl

/-- A row of `mountpoints`. -/
structure MountPointRow where
  id : ℤ
  name : Bytes
  description : Bytes
  enabled : ℤ
  format : Bytes
  sourceAuthMode : Bytes
  sourceSecretHash : Option Bytes
  writeQueue : Option ℤ
  writeTimeoutMs : Option ℤ
  maxClients : Option ℤ
  deriving DecidableEq, Repr

/-- A row of `user_mountpoint_bindings`. -/
structure BindingRow where
  id : ℤ
  userID : ℤ
  mountPointID : ℤ
  deriving DecidableEq, Repr

/-- `authCacheEntry`; times are nanoseconds. -/
structure AuthCacheEntry where
  user : User
  expiresAt : ℤ
  deriving DecidableEq, Repr

/-- `authCacheTTL`: five minutes. -/
def authCacheTTL : ℤ := 5 * 60 * 1000000000

/-- The key `username + ":" + password` under which a result is cached. -/
def cacheKey (username password : Bytes) : Bytes := username ++ ascii ":" ++ password

/-- The queries of the request paths, as far as one of them may fail on its own. -/
inductive Query
  | userByName (username : Bytes)
  | hasBinding (userID : ℤ) (mountpointName : Bytes)
  | sourceSecret (mountpointName : Bytes)
  deriving DecidableEq, Repr

/-- A database that answers every query. -/
def noFault : Query → Bool := fun _ => false

/-- The errors the service returns, named by what it was doing. -/
inductive AccountError
  | hashPassword
  | insertUser
  | queryUser
  | queryMountpointSourceSecret
  | checkBinding
  deriving DecidableEq, Repr

/-- `account.Service`: what it reads of the database, and its cache. -/
structure Service where
  users : UserTable
  mountpoints : List MountPointRow
  bindings : List BindingRow
  authCache : GoMap Bytes AuthCacheEntry

namespace Service

variable (bc : Bcrypt) (fails : Query → Bool) (s : Service)

/-- `NewService` on the tables of a database: the cache starts empty. -/
def new (users : UserTable) (mountpoints : List MountPointRow) (bindings : List BindingRow) :
    Service where
  users := users
  mountpoints := mountpoints
  bindings := bindings
  authCache := ∅

/-! ## Authentication -/

/-- The cache lookup of `Authenticate`: an entry counts until it expires. -/
def cacheLookup (key : Bytes) (now : ℤ) : Option User :=
  match s.authCache.lookup key with
  | some entry => if now < entry.expiresAt then some entry.user else none
  | none => none

/-- The cache store of `Authenticate`. -/
def cacheStore (key : Bytes) (u : User) (now : ℤ) : Service :=
  { s with authCache := s.authCache.insert key ⟨u, now + authCacheTTL⟩ }

/-- `s.authCache = make(map[string]*authCacheEntry)`. -/
def cacheClear : Service := { s with authCache := ∅ }

/-- `GetUserByName`: `none` if there is no such row. -/
def getUserByName (username : Bytes) : Except AccountError (Option User) :=
  if fails (.userByName username) then .error .queryUser
  else .ok ((s.users.byName username).map UserRow.scan)

/-- The checks of `Authenticate` on the row it read. -/
def checkUser (u : Option User) (password : Bytes) : Option User :=
  match u with
  | none => none
  | some u =>
    if !u.enabled then none
    else if !bc.compareHashAndPassword u.passwordHash password then none
    else some u

/-- `Authenticate` without the cache. -/
def authenticateUncached (username password : Bytes) : Except AccountError (Option User) :=
  (s.getUserByName fails username).map fun u => checkUser bc u password

/-- `Authenticate`: `now` is the clock at the cache lookup, `now'` at the cache store. -/
def authenticate (now now' : ℤ) (username password : Bytes) :
    Service × Except AccountError (Option User) :=
  match s.cacheLookup (cacheKey username password) now with
  | some u => (s, .ok (some u))
  | none =>
    match s.getUserByName fails username with
    | .error e => (s, .error e)
    | .ok row =>
      match checkUser bc row password with
      | none => (s, .ok none) -- only successes are cached
      | some u => (s.cacheStore (cacheKey username password) u now', .ok (some u))

/-! ## Account changes -/

/-- `CreateUser`, with the salt bcrypt draws. -/
def createUser (salt username password role : Bytes) : Service × Except AccountError User :=
  match bc.generateFromPassword salt password with
  | none => (s, .error .hashPassword)
  | some hash =>
    match s.users.insert username hash role with
    | none => (s, .error .insertUser)
    -- a new account does not clear the cache: nothing was cached for its name
    | some (users, id) => ({ s with users := users }, .ok ⟨id, username, [], role, true⟩)

/-- The statement of `UpdateUser`. -/
def updateUserRow (id : ℤ) (role : Bytes) (enabled : Bool) : UserTable :=
  s.users.modify id (fun r => { r with role := role, enabled := if enabled then 1 else 0 })
    fun _ => ⟨rfl, rfl⟩

/-- `UpdateUser`. -/
def updateUser (id : ℤ) (role : Bytes) (enabled : Bool) : Service :=
  { s with users := s.updateUserRow id role enabled }.cacheClear

/-- The statement of `UpdatePassword`. -/
def updatePasswordRow (id : ℤ) (hash : Bytes) : UserTable :=
  s.users.modify id (fun r => { r with passwordHash := hash }) fun _ => ⟨rfl, rfl⟩

/-- `UpdatePassword`, with the salt bcrypt draws. -/
def updatePassword (salt : Bytes) (id : ℤ) (newPassword : Bytes) :
    Service × Except AccountError Unit :=
  match bc.generateFromPassword salt newPassword with
  | none => (s, .error .hashPassword)
  | some hash => ({ s with users := s.updatePasswordRow id hash }.cacheClear, .ok ())

/-- `DeleteUser`. The bindings of the user go with the row where the connection enforces
foreign keys. -/
def deleteUser (id : ℤ) : Service := { s with users := s.users.delete id }.cacheClear

/-! ## Mountpoint secrets and bindings -/

/-- `VerifyMountPointSourceSecret`: `false` for an empty name or secret, an unknown mountpoint
or one without a secret. -/
def verifyMountPointSourceSecret (mountpointName secret : Bytes) : Except AccountError Bool :=
  if mountpointName = [] ∨ secret = [] then .ok false
  else if fails (.sourceSecret mountpointName) then .error .queryMountpointSourceSecret
  else
    match s.mountpoints.find? (·.name == mountpointName) with
    | none => .ok false
    | some row =>
      match row.sourceSecretHash with
      | none => .ok false
      | some hash =>
        if hash = [] then .ok false else .ok (bc.compareHashAndPassword hash secret)

/-- The number of bindings of the user to a mountpoint of the given name: the join of
`HasBinding`. -/
def countBindings (userID : ℤ) (mountpointName : Bytes) : ℕ :=
  (s.bindings.flatMap fun b => s.mountpoints.filter fun m =>
    b.mountPointID == m.id && b.userID == userID && m.name == mountpointName).length

/-- `HasBinding`. -/
def hasBinding (userID : ℤ) (mountpointName : Bytes) : Except AccountError Bool :=
  if fails (.hasBinding userID mountpointName) then .error .checkBinding
  else .ok (decide (0 < s.countBindings userID mountpointName))

/-- Authentication does not touch the bindings. -/
theorem hasBinding_authenticate (now now' : ℤ) (username password : Bytes)
    (fails' : Query → Bool) (userID : ℤ) (name : Bytes) :
    (s.authenticate bc fails now now' username password).1.hasBinding fails' userID name =
      s.hasBinding fails' userID name := by
  unfold authenticate
  split
  · rfl
  · split
    · rfl
    · split <;> rfl

end Service

end NtripCaster
