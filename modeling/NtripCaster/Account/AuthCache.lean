import NtripCaster.Account.Service
import NtripCaster.Library.Transition

/-!
# The authentication cache, one call at a time

With account changes and authentications run one at a time, every cache entry is what the
database would still answer for a pair that concatenates to its key. The cached answer is
therefore the database's answer unless the entry belongs to another user name.

## Main definitions

* `AccountCall`, `accountSystem`: sequences of account calls
* `Service.authCacheCollides`: the lookup of a call would find another user's entry

## Main results

* `accountSystem_cacheCurrent`: cache entries are current in every reachable state
* `Service.colon_of_authCacheCollides`: only a colon in a name makes it collide
* `authenticate_transparent_iff`: the cache is transparent exactly where it does not collide
* `authenticate_not_transparent`: two pairs with one key
-/

namespace NtripCaster

open Transition

/-- One call to the account service, as the admin API and the handlers make them. -/
inductive AccountCall
  | createUser (salt username password role : Bytes)
  | updateUser (id : ℤ) (role : Bytes) (enabled : Bool)
  | updatePassword (salt : Bytes) (id : ℤ) (newPassword : Bytes)
  | deleteUser (id : ℤ)
  | authenticate (now now' : ℤ) (username password : Bytes)

namespace Service

/-- `Handlers.CreateUser` refuses an empty name, password or role before it calls the service. -/
def createUserRequest (bc : Bcrypt) (s : Service) (salt username password role : Bytes) :
    Service :=
  if username = [] ∨ password = [] ∨ role = [] then s
  else (s.createUser bc salt username password role).1

/-- The service after a call. -/
def call (bc : Bcrypt) (s : Service) : AccountCall → Service
  | .createUser salt username password role =>
    s.createUserRequest bc salt username password role
  | .updateUser id role enabled => s.updateUser id role enabled
  | .updatePassword salt id newPassword => (s.updatePassword bc salt id newPassword).1
  | .deleteUser id => s.deleteUser id
  | .authenticate now now' username password =>
    (s.authenticate bc noFault now now' username password).1

/-- The lookup of `Authenticate` would return a user of another name. -/
def authCacheCollides (s : Service) (now : ℤ) (username password : Bytes) : Prop :=
  ∃ u, s.cacheLookup (cacheKey username password) now = some u ∧ u.username ≠ username

end Service

/-- Account calls one at a time, on any database, with an empty cache at the start. -/
def accountSystem (bc : Bcrypt) : System Service AccountCall where
  init s := ∃ users mountpoints bindings, s = Service.new users mountpoints bindings
  step s c := some (s.call bc c)

namespace Service

variable {bc : Bcrypt} {s : Service}

/-- Every cache entry is what the database answers for a pair with the entry's key. -/
def CacheCurrent (bc : Bcrypt) (s : Service) : Prop :=
  ∀ key entry, s.authCache.lookup key = some entry →
    ∃ password, key = cacheKey entry.user.username password ∧
      s.authenticateUncached bc noFault entry.user.username password = .ok (some entry.user)

theorem authenticateUncached_noFault (username password : Bytes) :
    s.authenticateUncached bc noFault username password =
      .ok (checkUser bc ((s.users.byName username).map UserRow.scan) password) := rfl

theorem checkUser_eq_some {row : Option User} {password : Bytes} {u : User} :
    checkUser bc row password = some u ↔
      row = some u ∧ u.enabled = true ∧
        bc.compareHashAndPassword u.passwordHash password = true := by
  cases row with
  | none => simp [checkUser]
  | some v =>
    simp only [checkUser, Option.some.injEq]
    constructor
    · intro h
      split_ifs at h with h₁ h₂
      obtain rfl := Option.some.inj h
      exact ⟨rfl, by simpa using h₁, by simpa using h₂⟩
    · rintro ⟨rfl, h₁, h₂⟩
      simp [h₁, h₂]

/-- What the database accepts: the enabled user of that name whose hash matches. -/
theorem authenticateUncached_eq_some {username password : Bytes} {u : User} :
    s.authenticateUncached bc noFault username password = .ok (some u) ↔
      (s.users.byName username).map UserRow.scan = some u ∧ u.enabled = true ∧
        bc.compareHashAndPassword u.passwordHash password = true := by
  rw [authenticateUncached_noFault, Except.ok.injEq, checkUser_eq_some]

theorem username_of_byName {username : Bytes} {u : User}
    (h : (s.users.byName username).map UserRow.scan = some u) : u.username = username := by
  obtain ⟨r, hr, rfl⟩ := Option.map_eq_some_iff.mp h
  exact (UserTable.byName_eq_some.mp hr).2

theorem cacheKey_right_inj {username password password' : Bytes}
    (h : cacheKey username password = cacheKey username password') : password = password' :=
  List.append_cancel_left h

/-! ## The cache stays current -/

theorem CacheCurrent.new (users : UserTable) (mountpoints : List MountPointRow)
    (bindings : List BindingRow) : CacheCurrent bc (new users mountpoints bindings) := by
  intro key entry h
  simp [Service.new] at h

theorem CacheCurrent.cacheClear : CacheCurrent bc s.cacheClear := by
  intro key entry h
  simp [Service.cacheClear] at h

/-- Only the accounts and the cache matter. -/
theorem CacheCurrent.congr {s' : Service} (h : CacheCurrent bc s) (husers : s'.users = s.users)
    (hcache : s'.authCache = s.authCache) : CacheCurrent bc s' := by
  intro key entry hentry
  rw [hcache] at hentry
  obtain ⟨password, hkey, hauth⟩ := h key entry hentry
  rw [authenticateUncached_eq_some, ← husers] at hauth
  exact ⟨password, hkey, authenticateUncached_eq_some.mpr hauth⟩

theorem CacheCurrent.of_empty (h : s.authCache = ∅) : CacheCurrent bc s := by
  intro key entry hentry
  simp [h] at hentry

/-- A new account leaves the answers that find an account as they are. -/
theorem CacheCurrent.createUser (h : CacheCurrent bc s) (salt username password role : Bytes) :
    CacheCurrent bc (s.createUser bc salt username password role).1 := by
  unfold Service.createUser
  split
  · exact h
  · split
    · exact h
    next users id hins =>
      intro key entry hentry
      obtain ⟨p, hkey, hp⟩ := h key entry hentry
      refine ⟨p, hkey, ?_⟩
      -- the new row has another name than the row behind the entry
      obtain ⟨hrow, hok⟩ := authenticateUncached_eq_some.mp hp
      obtain ⟨r, hr, hscan⟩ := Option.map_eq_some_iff.mp hrow
      refine authenticateUncached_eq_some.mpr ⟨?_, hok⟩
      exact Option.map_eq_some_iff.mpr ⟨r, UserTable.byName_insert hins hr, hscan⟩

theorem CacheCurrent.authenticate (h : CacheCurrent bc s) (fails : Query → Bool) (now now' : ℤ)
    (username password : Bytes) :
    CacheCurrent bc (s.authenticate bc fails now now' username password).1 := by
  unfold Service.authenticate
  split
  · exact h
  · split
    · exact h
    next row hrow =>
      split
      · exact h
      next u hu =>
        unfold getUserByName at hrow
        split_ifs at hrow
        obtain rfl := Except.ok.inj hrow
        have hunc : s.authenticateUncached bc noFault username password = .ok (some u) := by
          rw [authenticateUncached_noFault, hu]
        have hname := username_of_byName (authenticateUncached_eq_some.mp hunc).1
        intro key entry hentry
        rcases GoMap.lookup_insert_eq_some.mp hentry with ⟨rfl, rfl⟩ | ⟨-, hold⟩
        · exact ⟨password, by rw [hname], by rw [hname]; exact hunc⟩
        · exact h key entry hold

theorem CacheCurrent.call (h : CacheCurrent bc s) (c : AccountCall) :
    CacheCurrent bc (s.call bc c) := by
  cases c with
  | createUser salt username password role =>
    simp only [Service.call, createUserRequest]
    split_ifs
    · exact h
    · exact h.createUser salt username password role
  | updateUser id role enabled => exact CacheCurrent.cacheClear
  | updatePassword salt id newPassword =>
    simp only [Service.call, Service.updatePassword]
    split
    · exact h
    · exact CacheCurrent.cacheClear
  | deleteUser id => exact CacheCurrent.cacheClear
  | authenticate now now' username password =>
    exact h.authenticate noFault now now' username password

/-- A live entry is what the database answers for the pair it was stored for. -/
theorem CacheCurrent.of_cacheLookup (h : CacheCurrent bc s) {key : Bytes} {now : ℤ} {u : User}
    (hu : s.cacheLookup key now = some u) :
    ∃ password, key = cacheKey u.username password ∧
      s.authenticateUncached bc noFault u.username password = .ok (some u) := by
  unfold Service.cacheLookup at hu
  split at hu
  next entry hentry =>
    split_ifs at hu
    obtain rfl := Option.some.inj hu
    exact h key entry hentry
  next => cases hu

theorem authenticate_of_cacheLookup {now now' : ℤ} {username password : Bytes} {u : User}
    (h : s.cacheLookup (cacheKey username password) now = some u) :
    (s.authenticate bc noFault now now' username password).2 = .ok (some u) := by
  simp only [Service.authenticate, h]

theorem authenticate_of_cacheLookup_none {now now' : ℤ} {username password : Bytes}
    (h : s.cacheLookup (cacheKey username password) now = none) :
    (s.authenticate bc noFault now now' username password).2 =
      s.authenticateUncached bc noFault username password := by
  simp only [Service.authenticate, h, authenticateUncached]
  cases s.getUserByName noFault username with
  | error e => rfl
  | ok row =>
    simp only [Except.map]
    cases hrow : checkUser bc row password <;> rfl

/-- Authentication does not touch the accounts. -/
theorem users_authenticate (bc : Bcrypt) (s : Service) (fails : Query → Bool) (now now' : ℤ)
    (username password : Bytes) :
    (s.authenticate bc fails now now' username password).1.users = s.users := by
  unfold Service.authenticate
  split
  · rfl
  · split
    · rfl
    · split <;> rfl

/-! ## Who is let in -/

/-- `u` is an enabled user of the database. -/
def HasEnabledUser (s : Service) (u : User) : Prop :=
  u.enabled = true ∧ ∃ row ∈ s.users.rows, row.scan = u

theorem hasEnabledUser_of_byName {username : Bytes} {u : User}
    (hu : (s.users.byName username).map UserRow.scan = some u) (hen : u.enabled = true) :
    s.HasEnabledUser u := by
  obtain ⟨row, hrow, hscan⟩ := Option.map_eq_some_iff.mp hu
  exact ⟨hen, row, (UserTable.byName_eq_some.mp hrow).1, hscan⟩

/-- With a current cache, `Authenticate` accepts enabled users of the database only, whichever
queries fail. -/
theorem CacheCurrent.hasEnabledUser (h : CacheCurrent bc s) {fails : Query → Bool} {now now' : ℤ}
    {username password : Bytes} {u : User}
    (hu : (s.authenticate bc fails now now' username password).2 = .ok (some u)) :
    s.HasEnabledUser u := by
  unfold Service.authenticate at hu
  split at hu
  next v hcache =>
    obtain rfl := Option.some.inj (Except.ok.inj hu)
    obtain ⟨p, -, hp⟩ := h.of_cacheLookup hcache
    obtain ⟨hrow, hen, -⟩ := authenticateUncached_eq_some.mp hp
    exact hasEnabledUser_of_byName hrow hen
  next =>
    split at hu
    next => cases hu
    next row hrow =>
      split at hu
      next => cases hu
      next v hcheck =>
        obtain rfl := Option.some.inj (Except.ok.inj hu)
        obtain ⟨rfl, hen, -⟩ := checkUser_eq_some.mp hcheck
        unfold getUserByName at hrow
        split_ifs at hrow
        exact hasEnabledUser_of_byName (Except.ok.inj hrow) hen

end Service

theorem accountSystem_cacheCurrent {bc : Bcrypt} {s : Service}
    (h : (accountSystem bc).Reachable s) : s.CacheCurrent bc := by
  refine h.invariant ?_ fun s c s' _ hs hstep => ?_
  · rintro s ⟨users, mountpoints, bindings, rfl⟩
    exact .new users mountpoints bindings
  · exact Option.some.inj hstep ▸ hs.call c

/-- Pairs of two names have one key only if one of the names holds a colon. -/
theorem Service.colon_of_cacheKey_eq {username username' password password' : Bytes}
    (heq : cacheKey username password = cacheKey username' password')
    (hne : username ≠ username') : 58 ∈ username ∨ 58 ∈ username' := by
  have hkey : ∀ u p : Bytes, cacheKey u p = u ++ 58 :: p := by
    intro u p
    simp [cacheKey, ascii]
  rw [hkey, hkey, List.append_eq_append_iff] at heq
  rcases heq with ⟨rest, rfl, hrest⟩ | ⟨rest, rfl, hrest⟩
  · cases rest with
    | nil => exact absurd (List.append_nil _).symm hne
    | cons b rest =>
      obtain ⟨rfl, -⟩ := List.cons.inj hrest
      exact .inr (by simp)
  · cases rest with
    | nil => exact absurd (List.append_nil _) hne
    | cons b rest =>
      obtain ⟨rfl, -⟩ := List.cons.inj hrest
      exact .inl (by simp)

/-- Where the lookup finds another user, one of the two names holds a colon. -/
theorem Service.colon_of_authCacheCollides {bc : Bcrypt} {s : Service}
    (h : (accountSystem bc).Reachable s) {now : ℤ} {username password : Bytes}
    (hcol : s.authCacheCollides now username password) :
    58 ∈ username ∨ ∃ u ∈ s.users.rows, 58 ∈ u.username := by
  obtain ⟨u, hu, hne⟩ := hcol
  obtain ⟨p, hkey, hp⟩ := (accountSystem_cacheCurrent h).of_cacheLookup hu
  obtain ⟨hrow, -, -⟩ := authenticateUncached_eq_some.mp hp
  obtain ⟨row, hrow, rfl⟩ := Option.map_eq_some_iff.mp hrow
  exact (colon_of_cacheKey_eq hkey hne.symm).imp_right fun hcolon =>
    ⟨row, (UserTable.byName_eq_some.mp hrow).1, hcolon⟩

/-- **The cache is transparent exactly where it does not collide**: in every reachable state, a
call of `Authenticate` returns what it would return without the cache, and in particular only
an enabled user of the given name whose hash matches, if and only if no live entry of another
user name lies under its key. -/
theorem authenticate_transparent_iff {bc : Bcrypt} {s : Service}
    (h : (accountSystem bc).Reachable s) (now now' : ℤ) (username password : Bytes) :
    ((s.authenticate bc noFault now now' username password).2 =
        s.authenticateUncached bc noFault username password ∧
      ∀ u, (s.authenticate bc noFault now now' username password).2 = .ok (some u) →
        u.enabled = true ∧ u.username = username ∧
          bc.compareHashAndPassword u.passwordHash password = true) ↔
      ¬ s.authCacheCollides now username password := by
  have hcur := accountSystem_cacheCurrent h
  constructor
  · rintro ⟨-, hres⟩ ⟨u, hu, hne⟩
    -- a colliding entry names another user than the one asked for
    exact hne (hres u (Service.authenticate_of_cacheLookup hu)).2.1
  · intro hcol
    have heq : (s.authenticate bc noFault now now' username password).2 =
        s.authenticateUncached bc noFault username password := by
      cases hu : s.cacheLookup (cacheKey username password) now with
      | none => exact Service.authenticate_of_cacheLookup_none hu
      | some u =>
        have hname : u.username = username := by
          by_contra hne
          exact hcol ⟨u, hu, hne⟩
        -- the entry was stored for a pair of this name, hence for this pair
        obtain ⟨p, hkey, hp⟩ := hcur.of_cacheLookup hu
        rw [hname] at hkey hp
        rw [Service.authenticate_of_cacheLookup hu, Service.cacheKey_right_inj hkey, hp]
    refine ⟨heq, fun u hu => ?_⟩
    rw [heq] at hu
    obtain ⟨hrow, hen, hcmp⟩ := Service.authenticateUncached_eq_some.mp hu
    exact ⟨hen, Service.username_of_byName hrow, hcmp⟩

/-- The user `a:b` is created and authenticates with the password `c`. -/
def colonUser : List AccountCall :=
  [.createUser [] (ascii "a:b") (ascii "c") (ascii "admin"),
    .authenticate 0 0 (ascii "a:b") (ascii "c")]

/-- The service after `colonUser`, from an empty database. -/
def colonUserService : Service := colonUser.foldl (Service.call plainBcrypt) (.new .empty [] [])

theorem colonUserService_reachable : (accountSystem plainBcrypt).Reachable colonUserService :=
  .of_run colonUser ⟨_, _, _, rfl⟩ rfl

theorem authenticate_transparent_iff_colonUser :
    ((colonUserService.authenticate plainBcrypt noFault 1 1 (ascii "a") (ascii "b:c")).2 =
        colonUserService.authenticateUncached plainBcrypt noFault (ascii "a") (ascii "b:c") ∧
      ∀ u, (colonUserService.authenticate plainBcrypt noFault 1 1 (ascii "a")
          (ascii "b:c")).2 = .ok (some u) →
        u.enabled = true ∧ u.username = ascii "a" ∧
          plainBcrypt.compareHashAndPassword u.passwordHash (ascii "b:c") = true) ↔
      ¬ colonUserService.authCacheCollides 1 (ascii "a") (ascii "b:c") :=
  authenticate_transparent_iff colonUserService_reachable 1 1 (ascii "a") (ascii "b:c")

/-- After `colonUser` the name `a` with the password `b:c` authenticates as the administrator
`a:b`, although there is no user `a`. -/
theorem authenticate_not_transparent :
    ¬ ∀ (bc : Bcrypt), bc.Correct → ∀ s : Service, (accountSystem bc).Reachable s →
      ∀ (now now' : ℤ) (username password : Bytes),
        (s.authenticate bc noFault now now' username password).2 =
          s.authenticateUncached bc noFault username password := by
  intro h
  have := h plainBcrypt plainBcrypt_correct colonUserService colonUserService_reachable 1 1
    (ascii "a") (ascii "b:c")
  exact absurd this (by decide)

end NtripCaster
